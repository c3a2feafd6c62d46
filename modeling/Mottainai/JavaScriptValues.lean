import Mathlib.Data.List.Basic
import Mathlib.Data.Int.Notation

/-!
# JavaScript strings and numbers

Strings are Lean strings, that is well-formed Unicode text, of which JavaScript counts and cuts
UTF-16 code units. A cut through a surrogate pair leaves half of a character, which is stored as
the replacement character. Numbers that are only accepted when `Number.isSafeInteger` holds are
integers here. A function that may throw returns an `Except`.
-/

namespace Mottainai.JavaScriptValues

/-- `Number.MAX_SAFE_INTEGER`. -/
def maxSafeInteger : ℤ := 9007199254740991

/-- `Number.isSafeInteger` on an integer. -/
def isSafeInteger (n : ℤ) : Bool := decide (-maxSafeInteger ≤ n ∧ n ≤ maxSafeInteger)

def codeUnits (c : Char) : ℕ := if c.toNat < 0x10000 then 1 else 2

/-- `text.length`. -/
def utf16Length (text : String) : ℕ := text.toList.foldr (fun c n => codeUnits c + n) 0

/-- `text.slice(0, n)` on the characters of a string, as it is read back from the
database. -/
def sliceChars : ℕ → List Char → List Char
  | _, [] => []
  | n, c :: cs =>
      if codeUnits c ≤ n then c :: sliceChars (n - codeUnits c) cs
      else if n = 1 then ['\uFFFD'] else []

/-- `text.slice(0, n)`. -/
def slice (n : ℕ) (text : String) : String := String.ofList (sliceChars n text.toList)

/-- The characters that `trim` removes. -/
def isWhiteSpace (c : Char) : Bool :=
  [0x9, 0xA, 0xB, 0xC, 0xD, 0x20, 0xA0, 0x1680, 0x2028, 0x2029, 0x202F, 0x205F, 0x3000,
    0xFEFF].contains c.toNat || (0x2000 ≤ c.toNat && c.toNat ≤ 0x200A)

/-- `text.trim().length === 0`. -/
def isBlank (text : String) : Bool := text.toList.all isWhiteSpace

/-- `text === text.trim()`. -/
def isTrimmed (text : String) : Bool :=
  !text.toList.head?.any isWhiteSpace && !text.toList.getLast?.any isWhiteSpace

section Throw

variable {ε α β : Type}

/-- `if (!condition) throw new Error(message)`. -/
def require (condition : Prop) [Decidable condition] (message : ε) : Except ε Unit :=
  if condition then .ok () else .error message

@[simp] theorem require_eq_ok {condition : Prop} [Decidable condition] {message : ε} {u : Unit} :
    require condition message = .ok u ↔ condition := by
  unfold require
  split_ifs with h <;> simp [h]

variable {x : Except ε α}

/-- A sequence of statements returns when each of them does. -/
theorem bind_eq_ok {f : α → Except ε β} {b : β} :
    x >>= f = .ok b ↔ ∃ a, x = .ok a ∧ f a = .ok b := by
  cases x with
  | error e => simp [bind, Except.bind]
  | ok a => simp [bind, Except.bind]

theorem map_eq_ok {f : α → β} {b : β} : x.map f = .ok b ↔ ∃ a, x = .ok a ∧ f a = b := by
  cases x with
  | error e => simp [Except.map]
  | ok a => simp [Except.map]

theorem mapError_eq_ok {ε' : Type} {f : ε → ε'} {a : α} : x.mapError f = .ok a ↔ x = .ok a := by
  cases x with
  | error e => simp [Except.mapError]
  | ok a' => simp [Except.mapError]

/-- Checking every element of a list returns the list when each check returns its
own element. -/
theorem mapM_eq_ok {f : α → Except ε α} (hf : ∀ a b, f a = .ok b → b = a) {l l' : List α} :
    l.mapM f = .ok l' ↔ l' = l ∧ ∀ a ∈ l, f a = .ok a := by
  induction l generalizing l' with
  | nil => simp [pure, Except.pure, eq_comm]
  | cons a l ih =>
    simp only [List.mapM_cons, bind_eq_ok, ih, List.forall_mem_cons]
    constructor
    · rintro ⟨b, hb, m, ⟨rfl, hm⟩, h⟩
      cases h
      obtain rfl := hf a b hb
      exact ⟨rfl, hb, hm⟩
    · rintro ⟨rfl, ha, hl⟩
      exact ⟨a, ha, l, ⟨rfl, hl⟩, rfl⟩

end Throw

end Mottainai.JavaScriptValues

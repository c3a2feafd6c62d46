import Mathlib.Data.List.Basic

/-!
# Percent encoding

Characters that may not be kept are replaced by the bytes of their UTF-8, each written as a
percent sign and two hexadecimal digits. If only ASCII characters other than the percent sign
are kept, then an encoded text determines the bytes, and so the characters.
-/

namespace PercentEncoding

section Bytes

def utf8Bytes (text : List Char) : List UInt8 := text.flatMap String.utf8EncodeChar

theorem utf8Bytes_injective : Function.Injective utf8Bytes := by
  intro text text' h
  have hbytes : text.utf8Encode = text'.utf8Encode := by
    simp only [List.utf8Encode]
    exact congrArg List.toByteArray h
  have hstring : String.ofList text = String.ofList text' := by
    rw [← String.toByteArray_inj, String.toByteArray_ofList, String.toByteArray_ofList, hbytes]
  simpa using congrArg String.toList hstring

theorem utf8EncodeChar_of_lt {c : Char} (h : c.toNat < 128) :
    String.utf8EncodeChar c = [UInt8.ofNat c.toNat] := by
  have hle : c.val.toNat ≤ 0x7f := by
    have hlt : c.val.toNat < 128 := h
    omega
  simp only [String.utf8EncodeChar, hle, if_true]
  rfl

/-- No byte of a character beyond ASCII is an ASCII character. -/
theorem le_of_mem_utf8EncodeChar {c : Char} (h : 128 ≤ c.toNat) {b : UInt8}
    (hb : b ∈ String.utf8EncodeChar c) : 128 ≤ b.toNat := by
  have hnot : ¬ c.val.toNat ≤ 0x7f := by
    have hle : 128 ≤ c.val.toNat := h
    omega
  simp only [String.utf8EncodeChar, hnot, if_false] at hb
  split at hb
  · simp only [List.mem_cons, List.not_mem_nil, or_false] at hb
    rcases hb with rfl | rfl <;> simp only [UInt8.toNat_ofNat'] <;> omega
  · split at hb
    · simp only [List.mem_cons, List.not_mem_nil, or_false] at hb
      rcases hb with rfl | rfl | rfl <;> simp only [UInt8.toNat_ofNat'] <;> omega
    · simp only [List.mem_cons, List.not_mem_nil, or_false] at hb
      rcases hb with rfl | rfl | rfl | rfl <;> simp only [UInt8.toNat_ofNat'] <;> omega

theorem toNat_charOfNat {n : ℕ} (h : n.isValidChar) : (Char.ofNat n).toNat = n := by
  have hvalid : Char.ofNat n = Char.ofNatAux n h := dif_pos h
  rw [hvalid]
  rfl

theorem toNat_charOfByte (b : UInt8) : (Char.ofNat b.toNat).toNat = b.toNat := by
  have hlt := b.toNat_lt
  exact toNat_charOfNat (.inl (by omega))

end Bytes

section Digits

def hexDigit (n : ℕ) : Char := ("0123456789abcdef".toList[n]?).getD '0'

theorem hexDigit_injective {m n : ℕ} (hm : m < 16) (hn : n < 16) (h : hexDigit m = hexDigit n) :
    m = n := by
  have hall : ∀ m n : Fin 16, hexDigit m = hexDigit n → m = n := by decide
  exact congrArg Fin.val (hall ⟨m, hm⟩ ⟨n, hn⟩ h)

/-- A byte as `%` and two digits. -/
def percentByte (b : UInt8) : List Char :=
  ['%', hexDigit (b.toNat / 16), hexDigit (b.toNat % 16)]

theorem percentByte_injective {b b' : UInt8} (h : percentByte b = percentByte b') : b = b' := by
  simp only [percentByte, List.cons.injEq, true_and, and_true] at h
  have hlt := b.toNat_lt
  have hlt' := b'.toNat_lt
  have hhigh := hexDigit_injective (by omega) (by omega) h.1
  have hlow := hexDigit_injective (by omega) (by omega) h.2
  exact UInt8.toNat_inj.mp (by omega)

theorem mem_percentByte {b : UInt8} {c : Char} (h : c ∈ percentByte b) :
    c = '%' ∨ ∃ n < 16, c = hexDigit n := by
  have hlt := b.toNat_lt
  simp only [percentByte, List.mem_cons, List.not_mem_nil, or_false] at h
  rcases h with h | h | h
  · exact .inl h
  · exact .inr ⟨_, by omega, h⟩
  · exact .inr ⟨_, by omega, h⟩

end Digits

section Encoding

variable (keep : Char → Bool)

def percentEncodeChar (c : Char) : List Char :=
  if keep c then [c] else (String.utf8EncodeChar c).flatMap percentByte

def percentEncode (text : List Char) : List Char := text.flatMap (percentEncodeChar keep)

def escapeByte (b : UInt8) : List Char :=
  if keep (Char.ofNat b.toNat) then [Char.ofNat b.toNat] else percentByte b

variable {keep}

theorem percentEncode_append (text text' : List Char) :
    percentEncode keep (text ++ text') = percentEncode keep text ++ percentEncode keep text' :=
  List.flatMap_append

theorem percentEncode_cons_of_keep {c : Char} (h : keep c = true) (text : List Char) :
    percentEncode keep (c :: text) = c :: percentEncode keep text := by
  simp [percentEncode, percentEncodeChar, h]

theorem mem_percentEncode {text : List Char} {c : Char} (h : c ∈ percentEncode keep text) :
    keep c = true ∨ c = '%' ∨ ∃ n < 16, c = hexDigit n := by
  obtain ⟨c', _, hc⟩ := List.mem_flatMap.mp h
  unfold percentEncodeChar at hc
  split at hc
  · rename_i hkeep
    rw [List.mem_singleton] at hc
    exact .inl (hc ▸ hkeep)
  · obtain ⟨b, _, hb⟩ := List.mem_flatMap.mp hc
    exact .inr (mem_percentByte hb)

theorem percentEncodeChar_eq (hascii : ∀ c, keep c = true → c.toNat < 128) (c : Char) :
    percentEncodeChar keep c = (String.utf8EncodeChar c).flatMap (escapeByte keep) := by
  unfold percentEncodeChar
  split
  · rename_i hkeep
    have hlt := hascii c hkeep
    have hbyte : (UInt8.ofNat c.toNat).toNat = c.toNat := by
      rw [UInt8.toNat_ofNat']
      omega
    rw [utf8EncodeChar_of_lt hlt]
    simp [escapeByte, hbyte, hkeep]
  · rename_i hkeep
    apply List.flatMap_congr
    intro b hb
    have hnot : ¬keep (Char.ofNat b.toNat) = true := by
      intro hkept
      have hlt := hascii _ hkept
      rw [toNat_charOfByte] at hlt
      by_cases hc : c.toNat < 128
      · rw [utf8EncodeChar_of_lt hc, List.mem_singleton] at hb
        subst hb
        rw [UInt8.toNat_ofNat', Nat.mod_eq_of_lt (by omega), Char.ofNat_toNat] at hkept
        exact hkeep hkept
      · have hle := le_of_mem_utf8EncodeChar (Nat.le_of_not_lt hc) hb
        omega
    simp [escapeByte, hnot]

theorem percentEncode_eq (hascii : ∀ c, keep c = true → c.toNat < 128) (text : List Char) :
    percentEncode keep text = (utf8Bytes text).flatMap (escapeByte keep) := by
  simp only [percentEncode, utf8Bytes, List.flatMap_assoc]
  exact List.flatMap_congr fun c _ => percentEncodeChar_eq hascii c

/-- The first byte can be told from what is written. -/
theorem escapeByte_append (hpercent : keep '%' = false) {b b' : UInt8} {rest rest' : List Char}
    (h : escapeByte keep b ++ rest = escapeByte keep b' ++ rest') : b = b' ∧ rest = rest' := by
  unfold escapeByte at h
  split at h
  · split at h
    · obtain ⟨hchar, hrest⟩ := List.cons.inj h
      have hnat := congrArg Char.toNat hchar
      rw [toNat_charOfByte, toNat_charOfByte] at hnat
      exact ⟨UInt8.toNat_inj.mp hnat, hrest⟩
    · rename_i hkeep _
      rw [(List.cons.inj h).1, hpercent] at hkeep
      cases hkeep
  · split at h
    · rename_i _ hkeep
      rw [← (List.cons.inj h).1, hpercent] at hkeep
      cases hkeep
    · obtain ⟨hbyte, hrest⟩ := List.append_inj h rfl
      exact ⟨percentByte_injective hbyte, hrest⟩

theorem escapeBytes_injective (hpercent : keep '%' = false) {bytes bytes' : List UInt8}
    (h : bytes.flatMap (escapeByte keep) = bytes'.flatMap (escapeByte keep)) : bytes = bytes' := by
  have hne : ∀ b, escapeByte keep b ≠ [] := by
    intro b
    unfold escapeByte
    split
    · exact List.cons_ne_nil _ _
    · exact List.cons_ne_nil _ _
  induction bytes generalizing bytes' with
  | nil =>
    cases bytes' with
    | nil => rfl
    | cons b' bytes' =>
      rw [List.flatMap_nil, List.flatMap_cons, eq_comm, List.append_eq_nil_iff] at h
      exact absurd h.1 (hne b')
  | cons b bytes ih =>
    cases bytes' with
    | nil =>
      rw [List.flatMap_nil, List.flatMap_cons, List.append_eq_nil_iff] at h
      exact absurd h.1 (hne b)
    | cons b' bytes' =>
      rw [List.flatMap_cons, List.flatMap_cons] at h
      obtain ⟨rfl, hrest⟩ := escapeByte_append hpercent h
      rw [ih hrest]

/-- An encoded text determines the text. -/
theorem percentEncode_injective (hascii : ∀ c, keep c = true → c.toNat < 128)
    (hpercent : keep '%' = false) : Function.Injective (percentEncode keep) := by
  intro text text' h
  rw [percentEncode_eq hascii, percentEncode_eq hascii] at h
  exact utf8Bytes_injective (escapeBytes_injective hpercent h)

end Encoding

end PercentEncoding

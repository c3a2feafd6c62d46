import Mathlib.Data.List.Sort
import Mathlib.Algebra.Ring.Nat
import Mathlib.Algebra.Order.BigOperators.Group.List
import Mathlib.Data.List.Perm.Subperm
import Mathlib.Data.String.Basic
import Mottainai.JavaScriptValues

/-!
# JSON values, their texts and their schemas

The values that `JSON.parse` can produce, and the text that `JSON.stringify` prints for them. A
number is the text that is printed for it, and an object the list of its properties in the order in
which JavaScript enumerates them. `assign` is `object[key] = value`; the key `__proto__` sets no
property there, and what reads through such a prototype would see is not represented. A schema is
the test that a value has to pass. The bytes of a text are a sum over its parts, each of them
counted with the comma after it.
-/

namespace Mottainai.JsonValues

open JavaScriptValues

/-- What `JSON.parse` produces. -/
inductive JsonValue where
  | null
  | boolean (value : Bool)
  | number (literal : String)
  | string (text : String)
  | array (elements : List JsonValue)
  | object (properties : List (String × JsonValue))

/-- The properties of an object, in the order in which they are enumerated. -/
abbrev Properties : Type := List (String × JsonValue)

section Text

def hexDigit (n : ℕ) : Char := ("0123456789abcdef".toList[n]?).getD '0'

/-- A character inside a JSON string. -/
def escape (c : Char) : String :=
  if c.toNat = 0x22 then "\\\""
  else if c.toNat = 0x5C then "\\\\"
  else if c.toNat = 0x08 then "\\b"
  else if c.toNat = 0x09 then "\\t"
  else if c.toNat = 0x0A then "\\n"
  else if c.toNat = 0x0C then "\\f"
  else if c.toNat = 0x0D then "\\r"
  else if c.toNat < 0x20 then
    String.ofList ['\\', 'u', '0', '0', hexDigit (c.toNat / 16), hexDigit (c.toNat % 16)]
  else String.singleton c

def concat (parts : List String) : String := parts.foldr (· ++ ·) ""

/-- `JSON.stringify` of a string. -/
def quote (text : String) : String := "\"" ++ concat (text.toList.map escape) ++ "\""

def commaSeparated : List String → String
  | [] => ""
  | part :: parts => part ++ concat (parts.map ("," ++ ·))

mutual

/-- `JSON.stringify`. -/
def stringify : JsonValue → String
  | .null => "null"
  | .boolean value => if value then "true" else "false"
  | .number literal => literal
  | .string text => quote text
  | .array elements => "[" ++ commaSeparated (stringifyElements elements) ++ "]"
  | .object properties => "\x7b" ++ commaSeparated (stringifyProperties properties) ++ "\x7d"

def stringifyElements : List JsonValue → List String
  | [] => []
  | value :: values => stringify value :: stringifyElements values

def stringifyProperties : Properties → List String
  | [] => []
  | (key, value) :: properties =>
      (quote key ++ ":" ++ stringify value) :: stringifyProperties properties

end

/-- `Buffer.byteLength(text, "utf8")`. -/
def byteLength (text : String) : ℕ := text.utf8ByteSize

def bytes (value : JsonValue) : ℕ := byteLength (stringify value)

end Text

section Objects

/-- The UTF-16 code units of a character. -/
def utf16 (c : Char) : List ℕ :=
  if c.toNat < 0x10000 then [c.toNat]
  else [0xD800 + (c.toNat - 0x10000) / 0x400, 0xDC00 + (c.toNat - 0x10000) % 0x400]

def lexicographic : List ℕ → List ℕ → Bool
  | [], _ => true
  | _ :: _, [] => false
  | a :: as, b :: bs => decide (a < b) || (decide (a = b) && lexicographic as bs)

/-- `left <= right` on strings. -/
def precedes (left right : String) : Bool :=
  lexicographic (left.toList.flatMap utf16) (right.toList.flatMap utf16)

/-- `keys.sort()`. -/
def sortKeys (keys : List String) : List String := keys.insertionSort fun a b => precedes a b

def arrayIndex (key : String) : Option ℕ :=
  let digits := key.toList
  if digits ≠ [] ∧ digits.all Char.isDigit ∧ (digits.head? = some '0' → digits = ['0']) then
    let n := digits.foldl (fun n c => 10 * n + (c.toNat - '0'.toNat)) 0
    if n < 4294967295 then some n else none
  else none

/-- `object[key]`, for an own property. -/
def property (properties : Properties) (key : String) : Option JsonValue :=
  (properties.find? fun p => p.1 = key).map (·.2)

/-- A property of an object literal that is left out when there is no value. -/
def optionalProperty (key : String) (value : Option JsonValue) : Properties :=
  (value.map fun value => (key, value)).toList

def text? : Option JsonValue → Option String
  | some (.string text) => some text
  | _ => none

/-- Give an own property a value. A new array index goes before the greater ones. -/
def define (properties : Properties) (key : String) (value : JsonValue) : Properties :=
  if properties.any fun p => p.1 = key then
    properties.map fun p => if p.1 = key then (key, value) else p
  else match arrayIndex key with
    | none => properties ++ [(key, value)]
    | some n =>
        let smaller := fun p : String × JsonValue => (arrayIndex p.1).any (· < n)
        properties.takeWhile smaller ++ (key, value) :: properties.dropWhile smaller

/-- `object[key] = value`. -/
def assign (properties : Properties) (key : String) (value : JsonValue) : Properties :=
  if key = "__proto__" then properties else define properties key value

/-- `Object.fromEntries(entries)`. -/
def fromEntries (entries : List (String × JsonValue)) : Properties :=
  entries.foldl (fun properties entry => define properties entry.1 entry.2) []

end Objects

abbrev Schema : Type := JsonValue → Bool

namespace Schema

section Scalars

/-- `z.string()` with a test of the characters. -/
def string (test : List Char → Bool) : Schema
  | .string text => test text.toList
  | _ => false

/-- `z.string().min(1)`. -/
def nonempty : Schema := string (!·.isEmpty)

/-- `z.string().min(min).max(max)` with a test of the characters. -/
def sized (min max : ℕ) (test : List Char → Bool) : Schema := string fun cs =>
  test cs && decide (min ≤ JavaScriptValues.utf16Length (String.ofList cs)) &&
    decide (JavaScriptValues.utf16Length (String.ofList cs) ≤ max)

def anyText : List Char → Bool := fun _ => true

/-- `[0-9a-f]`. -/
def isHexDigit (c : Char) : Bool := c.isDigit || (decide ('a' ≤ c) && decide (c ≤ 'f'))

/-- `^[0-9a-f]{64}$`. -/
def isHexSha256 (cs : List Char) : Bool := decide (cs.length = 64) && cs.all isHexDigit

/-- `z.enum(values)`, and `z.literal(value)` for one of them. -/
def oneOf (values : List String) : Schema
  | .string text => decide (text ∈ values)
  | _ => false

/-- `z.boolean()`. -/
def boolean : Schema
  | .boolean _ => true
  | _ => false

/-- `z.literal(value)` for a number. -/
def literalNumber (value : String) : Schema
  | .number literal => decide (literal = value)
  | _ => false

/-- The number of a literal is `digits * 10 ^ exponent`, or its negation. -/
structure Decimal where
  negative : Bool
  digits : ℕ
  exponent : ℤ
  deriving DecidableEq

def digitsOf (cs : List Char) : ℕ := cs.foldl (fun n c => 10 * n + (c.toNat - '0'.toNat)) 0

/-- The exponent after the `e` of a literal. -/
def exponentOf : List Char → ℤ
  | '-' :: cs => - (digitsOf cs : ℤ)
  | '+' :: cs => digitsOf cs
  | cs => digitsOf cs

def decimalOf (literal : String) : Decimal :=
  let negative := literal.toList.head? = some '-'
  let unsigned := if negative then literal.toList.tail else literal.toList
  let whole := unsigned.takeWhile Char.isDigit
  let afterWhole := unsigned.dropWhile Char.isDigit
  let hasFraction := afterWhole.head? = some '.'
  let fraction := if hasFraction then afterWhole.tail.takeWhile Char.isDigit else []
  let afterFraction := if hasFraction then afterWhole.tail.dropWhile Char.isDigit else afterWhole
  { negative, digits := digitsOf (whole ++ fraction)
    exponent := exponentOf afterFraction.tail - fraction.length }

namespace Decimal

/-- `Number.isInteger`. -/
def isInteger (d : Decimal) : Bool :=
  decide (0 ≤ d.exponent) || decide (d.digits % 10 ^ d.exponent.natAbs = 0)

/-- `bound <= d`. -/
def atLeast (bound : ℕ) (d : Decimal) : Bool :=
  if d.negative then decide (bound = 0) && decide (d.digits = 0)
  else if 0 ≤ d.exponent then decide (bound ≤ d.digits * 10 ^ d.exponent.natAbs)
  else decide (bound * 10 ^ d.exponent.natAbs ≤ d.digits)

/-- `d <= bound`. -/
def atMost (bound : ℕ) (d : Decimal) : Bool :=
  d.negative || if 0 ≤ d.exponent then decide (d.digits * 10 ^ d.exponent.natAbs ≤ bound)
  else decide (d.digits ≤ bound * 10 ^ d.exponent.natAbs)

end Decimal

/-- `z.number()` with a test. -/
def number (test : Decimal → Bool) : Schema
  | .number literal => test (decimalOf literal)
  | _ => false

/-- `z.number().int().min(bound)`. -/
def integerFrom (bound : ℕ) : Schema := number fun d => d.isInteger && d.atLeast bound

/-- `z.number().finite().min(0).max(bound)`. -/
def upTo (bound : ℕ) : Schema := number fun d => d.atLeast 0 && d.atMost bound

end Scalars

section Composite

/-- `jsonValueSchema`. -/
def json : Schema := fun _ => true

/-- `z.record(jsonValueSchema)`. -/
def record : Schema
  | .object _ => true
  | _ => false

/-- `z.array(element)`. -/
def array (element : Schema) : Schema
  | .array elements => elements.all element
  | _ => false

/-- `z.array(element).min(min).max(max)`. -/
def arrayOf (min max : ℕ) (element : Schema) : Schema
  | .array elements => decide (min ≤ elements.length) && decide (elements.length ≤ max) &&
      elements.all element
  | _ => false

/-- A property of an object: its name, whether it may be missing, and its schema. -/
structure Field where
  name : String
  optional : Bool
  schema : Schema

def required (name : String) (schema : Schema) : Field := ⟨name, false, schema⟩

def optional (name : String) (schema : Schema) : Field := ⟨name, true, schema⟩

/-- The test of one property. -/
def Field.accepts (properties : Properties) (field : Field) : Bool :=
  match property properties field.name with
  | none => field.optional
  | some value => field.schema value

/-- `z.object(fields).strict()`. -/
def object (fields : List Field) : Schema
  | .object properties => fields.all (Field.accepts properties) &&
      properties.all fun entry => fields.any fun field => field.name == entry.1
  | _ => false

/-- `z.discriminatedUnion("kind", alternatives)`. -/
def byKind (alternatives : List (String × Schema)) : Schema
  | .object properties => alternatives.any fun alternative =>
      text? (property properties "kind") == some alternative.1 && alternative.2 (.object properties)
  | _ => false

/-- `schema.superRefine(...)`. -/
def refined (schema : Schema) (test : JsonValue → Bool) : Schema := fun value =>
  schema value && test value

end Composite

section Accepted

variable {fields : List Field} {properties : Properties} {value : JsonValue}
variable {element : Schema} {elements : List JsonValue}

theorem array_iff :
    array element (.array elements) = true ↔ ∀ value ∈ elements, element value = true :=
  List.all_eq_true

theorem exists_of_string {test : List Char → Bool} (h : string test value = true) :
    ∃ text, value = .string text := by
  cases value with
  | string text => exact ⟨text, rfl⟩
  | _ => cases h

theorem exists_of_array (h : array element value = true) :
    ∃ elements, value = .array elements ∧ ∀ value ∈ elements, element value = true := by
  cases value with
  | array elements => exact ⟨elements, rfl, array_iff.1 h⟩
  | _ => cases h

theorem arrayOf_iff {min max : ℕ} :
    arrayOf min max element (.array elements) = true ↔
      (min ≤ elements.length ∧ elements.length ≤ max) ∧ ∀ value ∈ elements, element value = true := by
  rw [arrayOf, Bool.and_eq_true, Bool.and_eq_true, decide_eq_true_iff, decide_eq_true_iff,
    List.all_eq_true]

theorem exists_of_arrayOf {min max : ℕ} (h : arrayOf min max element value = true) :
    ∃ elements, value = .array elements := by
  cases value with
  | array elements => exact ⟨elements, rfl⟩
  | _ => cases h

theorem exists_of_object (h : object fields value = true) :
    ∃ properties, value = .object properties ∧
      (∀ field ∈ fields, field.accepts properties = true) ∧
      ∀ entry ∈ properties, ∃ field ∈ fields, field.name = entry.1 := by
  cases value with
  | object properties =>
    simp only [object, Bool.and_eq_true, List.all_eq_true, List.any_eq_true, beq_iff_eq] at h
    exact ⟨properties, rfl, h⟩
  | _ => cases h

end Accepted

end Schema

section Texts

@[simp] theorem byteLength_append (left right : String) :
    byteLength (left ++ right) = byteLength left + byteLength right :=
  String.utf8ByteSize_append

variable (characters : List Char)

theorem byteLength_ofList :
    byteLength (String.ofList characters) = (characters.map Char.utf8Size).sum := by
  induction characters with
  | nil => rfl
  | cons c cs ih =>
    rw [String.ofList_cons, byteLength_append, ih, List.map_cons, List.sum_cons]
    congr 1
    exact String.utf8ByteSize_singleton

theorem byteLength_concat (parts : List String) :
    byteLength (concat parts) = (parts.map byteLength).sum := by
  induction parts with
  | nil => rfl
  | cons part parts ih =>
    have hcons : concat (part :: parts) = part ++ concat parts := rfl
    rw [hcons, byteLength_append, ih, List.map_cons, List.sum_cons]

theorem byteLength_commaSeparated (part : String) (parts : List String) :
    byteLength (commaSeparated (part :: parts)) + 1 =
      ((part :: parts).map fun part => byteLength part + 1).sum := by
  have hcomma : ∀ parts : List String, ((parts.map ("," ++ ·)).map byteLength).sum =
      (parts.map fun part => byteLength part + 1).sum := by
    intro parts
    induction parts with
    | nil => rfl
    | cons part parts ih =>
      have hone : byteLength "," = 1 := rfl
      simp only [List.map_cons, List.sum_cons, ih, byteLength_append, hone]
      omega
  simp only [commaSeparated, byteLength_append, byteLength_concat, hcomma, List.map_cons,
    List.sum_cons]
  omega

/-- The bytes that a text takes inside a JSON string. -/
def escapedBytes (characters : List Char) : ℕ :=
  (characters.map fun c => byteLength (escape c)).sum

@[simp] theorem escapedBytes_append (left right : List Char) :
    escapedBytes (left ++ right) = escapedBytes left + escapedBytes right := by
  simp [escapedBytes]

theorem byteLength_quote (text : String) :
    byteLength (quote text) = escapedBytes text.toList + 2 := by
  have hone : byteLength "\"" = 1 := rfl
  simp only [quote, byteLength_append, byteLength_concat, List.map_map, escapedBytes, hone]
  change 1 + (text.toList.map fun c => byteLength (escape c)).sum + 1 = _
  omega

/-- A character takes no less inside a JSON string than on its own. -/
theorem utf8Size_le_escape (c : Char) : c.utf8Size ≤ byteLength (escape c) := by
  have hsmall : ∀ n : ℕ, n < 0x80 → c.toNat = n → c.utf8Size = 1 := by
    intro n hn hc
    have hval : c.val.toNat < 0x80 := by
      rw [← hc] at hn
      exact hn
    rw [Char.utf8Size, if_pos]
    exact UInt32.le_iff_toNat_le.mpr (by simpa using Nat.le_of_lt_succ hval)
  unfold escape
  split_ifs with h1 h2 h3 h4 h5 h6 h7 h8
  · rw [hsmall _ (by omega) h1]
    decide
  · rw [hsmall _ (by omega) h2]
    decide
  · rw [hsmall _ (by omega) h3]
    decide
  · rw [hsmall _ (by omega) h4]
    decide
  · rw [hsmall _ (by omega) h5]
    decide
  · rw [hsmall _ (by omega) h6]
    decide
  · rw [hsmall _ (by omega) h7]
    decide
  · rw [hsmall c.toNat (by omega) rfl, byteLength_ofList]
    simp only [List.map_cons, List.sum_cons]
    have hpos := Char.utf8Size_pos '\\'
    omega
  · exact le_of_eq String.utf8ByteSize_singleton.symm

/-- A text takes no less inside a JSON string than on its own. -/
theorem byteLength_le_escapedBytes :
    byteLength (String.ofList characters) ≤ escapedBytes characters := by
  rw [byteLength_ofList, escapedBytes]
  exact List.sum_le_sum fun c _ => utf8Size_le_escape c

end Texts

section Values

def elementsBytes (elements : List JsonValue) : ℕ :=
  (elements.map fun value => bytes value + 1).sum

/-- The bytes of a property, with its colon and a comma. -/
def entryBytes (entry : String × JsonValue) : ℕ :=
  byteLength (quote entry.1) + bytes entry.2 + 2

def propertiesBytes (properties : Properties) : ℕ := (properties.map entryBytes).sum

variable (elements : List JsonValue) (properties : Properties)

theorem stringifyElements_eq : stringifyElements elements = elements.map stringify := by
  induction elements with
  | nil => simp [stringifyElements]
  | cons value values ih => simp [stringifyElements, ih]

theorem stringifyProperties_eq :
    stringifyProperties properties =
      properties.map fun entry => quote entry.1 ++ ":" ++ stringify entry.2 := by
  induction properties with
  | nil => simp [stringifyProperties]
  | cons entry properties ih => simp [stringifyProperties, ih]

theorem bytes_string (text : String) : bytes (.string text) = escapedBytes text.toList + 2 := by
  rw [bytes, stringify, byteLength_quote]

theorem escapedBytes_replicate (n : ℕ) {c : Char} (h : byteLength (escape c) = 1) :
    escapedBytes (String.ofList (List.replicate n c)).toList = n := by
  rw [String.toList_ofList, escapedBytes, List.map_replicate, List.sum_replicate_nat, h,
    Nat.mul_one]

theorem bytes_array : bytes (.array elements) = max 2 (elementsBytes elements + 1) := by
  have hopen : byteLength "[" = 1 := rfl
  have hclose : byteLength "]" = 1 := rfl
  cases elements with
  | nil => decide
  | cons value values =>
    have hsum := byteLength_commaSeparated (stringify value) (values.map stringify)
    have helements : elementsBytes (value :: values) =
        (((value :: values).map stringify).map fun part => byteLength part + 1).sum := by
      rw [List.map_map]
      rfl
    rw [bytes, stringify, stringifyElements_eq]
    simp only [byteLength_append, hopen, hclose]
    rw [List.map_cons] at helements ⊢
    have hpos : 1 ≤ elementsBytes (value :: values) := by
      simp only [elementsBytes, List.map_cons, List.sum_cons]
      omega
    omega

theorem bytes_object : bytes (.object properties) = max 2 (propertiesBytes properties + 1) := by
  have hopen : byteLength "\x7b" = 1 := rfl
  have hclose : byteLength "\x7d" = 1 := rfl
  have hcolon : byteLength ":" = 1 := rfl
  cases properties with
  | nil => decide
  | cons entry properties =>
    have hsum := byteLength_commaSeparated (quote entry.1 ++ ":" ++ stringify entry.2)
      (properties.map fun entry => quote entry.1 ++ ":" ++ stringify entry.2)
    have hproperties : propertiesBytes (entry :: properties) =
        (((entry :: properties).map fun entry => quote entry.1 ++ ":" ++ stringify entry.2).map
          fun part => byteLength part + 1).sum := by
      rw [List.map_map, propertiesBytes]
      congr 1
      apply List.map_congr_left
      intro entry _
      simp only [entryBytes, bytes, Function.comp_apply, byteLength_append, hcolon]
      omega
    rw [bytes, stringify, stringifyProperties_eq]
    simp only [byteLength_append, hopen, hclose]
    rw [List.map_cons] at hproperties ⊢
    have hpos : 1 ≤ propertiesBytes (entry :: properties) := by
      simp only [propertiesBytes, entryBytes, List.map_cons, List.sum_cons]
      omega
    omega

@[simp] theorem propertiesBytes_append (left right : Properties) :
    propertiesBytes (left ++ right) = propertiesBytes left + propertiesBytes right := by
  simp [propertiesBytes]

theorem elementsBytes_le_of_sublist {elements elements' : List JsonValue}
    (h : elements.Sublist elements') : elementsBytes elements ≤ elementsBytes elements' :=
  (h.map fun value => bytes value + 1).sum_le_sum fun _ _ => Nat.zero_le _

theorem elementsBytes_map_le {f : JsonValue → JsonValue} (hf : ∀ value, bytes (f value) ≤ bytes value)
    (elements : List JsonValue) : elementsBytes (elements.map f) ≤ elementsBytes elements := by
  rw [elementsBytes, elementsBytes, List.map_map]
  exact List.sum_le_sum fun value _ => Nat.succ_le_succ (hf value)

end Values

section Objects

variable {properties : Properties} {key : String} {value : JsonValue} {e : String × JsonValue}

theorem property_eq_some (h : property properties key = some value) :
    (key, value) ∈ properties := by
  obtain ⟨entry, hfind, hvalue⟩ := Option.map_eq_some_iff.mp h
  have hkey : entry.1 = key := by simpa using List.find?_some hfind
  obtain rfl := hvalue
  obtain rfl := hkey
  exact List.mem_of_find?_eq_some hfind

/-- The array indices decide the order of the properties, and nothing else. -/
theorem define_perm (hnew : ∀ e ∈ properties, e.1 ≠ key) (value : JsonValue) :
    (define properties key value).Perm ((key, value) :: properties) := by
  have hany : ¬ (properties.any fun p => p.1 = key) = true := by
    intro h
    obtain ⟨e, he, hkey⟩ := List.any_eq_true.mp h
    exact hnew e he (by simpa using hkey)
  unfold define
  rw [if_neg hany]
  cases arrayIndex key with
  | none => exact List.perm_append_singleton _ _
  | some n =>
    simp only
    refine List.perm_middle.trans (List.Perm.cons _ ?_)
    rw [List.takeWhile_append_dropWhile]

/-- A property that is there keeps its place. -/
theorem keys_define_of_mem (h : ∃ e ∈ properties, e.1 = key) (value : JsonValue) :
    (define properties key value).map (·.1) = properties.map (·.1) := by
  have hany : (properties.any fun p => p.1 = key) = true := by simpa using h
  unfold define
  rw [if_pos hany, List.map_map]
  apply List.map_congr_left
  intro e _
  simp only [Function.comp_apply]
  split_ifs with hkey
  · exact hkey.symm
  · rfl

theorem mem_define (h : e ∈ define properties key value) : e = (key, value) ∨ e ∈ properties := by
  by_cases hmem : ∃ e ∈ properties, e.1 = key
  · have hany : (properties.any fun p => p.1 = key) = true := by simpa using hmem
    unfold define at h
    rw [if_pos hany] at h
    obtain ⟨e', he', rfl⟩ := List.mem_map.mp h
    split_ifs
    · exact .inl rfl
    · exact .inr he'
  · push Not at hmem
    simpa using (define_perm hmem value).mem_iff.mp h

theorem nodup_define (h : (properties.map (·.1)).Nodup) (key : String) (value : JsonValue) :
    ((define properties key value).map (·.1)).Nodup := by
  by_cases hmem : ∃ e ∈ properties, e.1 = key
  · rwa [keys_define_of_mem hmem]
  · push Not at hmem
    rw [((define_perm hmem value).map (·.1)).nodup_iff, List.map_cons, List.nodup_cons]
    refine ⟨?_, h⟩
    intro hkey
    obtain ⟨e, he, hkey⟩ := List.mem_map.mp hkey
    exact hmem e he hkey

theorem mem_assign (h : e ∈ assign properties key value) : e = (key, value) ∨ e ∈ properties := by
  unfold assign at h
  split_ifs at h
  · exact .inr h
  · exact mem_define h

theorem nodup_assign (h : (properties.map (·.1)).Nodup) (key : String) (value : JsonValue) :
    ((assign properties key value).map (·.1)).Nodup := by
  unfold assign
  split_ifs
  · exact h
  · exact nodup_define h key value

theorem property_assign_of_ne {key key' : String} (hne : key' ≠ key) (properties : Properties)
    (value : JsonValue) : property (assign properties key value) key' = property properties key' := by
  unfold assign
  split_ifs
  · rfl
  have hfind : (define properties key value).find? (fun p => p.1 = key') =
      properties.find? fun p => p.1 = key' := by
    unfold define
    split_ifs with hany
    · rw [List.find?_map]
      have hcomp : ((fun p : String × JsonValue => decide (p.1 = key')) ∘
          fun p => if p.1 = key then (key, value) else p) = fun p => decide (p.1 = key') := by
        funext p
        simp only [Function.comp_apply]
        split_ifs with hp
        · simp [hp]
        · rfl
      rw [hcomp]
      cases hfound : properties.find? fun p => decide (p.1 = key') with
      | none => rfl
      | some p =>
        have hp : p.1 = key' := by simpa using List.find?_some hfound
        have hpk : p.1 ≠ key := by rw [hp]; exact hne
        simp [hpk]
    · cases arrayIndex key with
      | none => simp [List.find?_append, hne.symm]
      | some n =>
        simp only
        generalize (fun p : String × JsonValue => (arrayIndex p.1).any (· < n)) = smaller
        rw [List.find?_append, List.find?_cons_of_neg (by simpa using hne.symm),
          ← List.find?_append, List.takeWhile_append_dropWhile]
  rw [property, hfind, property]

theorem propertiesBytes_assign (hnew : ∀ e ∈ properties, e.1 ≠ key) (value : JsonValue) :
    propertiesBytes (assign properties key value) =
      propertiesBytes properties + if key = "__proto__" then 0 else entryBytes (key, value) := by
  unfold assign
  split_ifs
  · rfl
  · have hsum := ((define_perm hnew value).map entryBytes).sum_eq
    simp only [propertiesBytes, List.map_cons, List.sum_cons] at hsum ⊢
    omega

/-- An object whose properties are all found in another one, and are no larger there. -/
theorem propertiesBytes_le_of_covered {result source : Properties}
    (hnodup : (result.map (·.1)).Nodup)
    (h : ∀ e ∈ result, ∃ value, (e.1, value) ∈ source ∧ bytes e.2 ≤ bytes value) :
    propertiesBytes result ≤ propertiesBytes source := by
  induction result generalizing source with
  | nil => exact Nat.zero_le _
  | cons e result ih =>
    obtain ⟨value, hmem, hle⟩ := h e List.mem_cons_self
    obtain ⟨before, after, rfl⟩ := List.append_of_mem hmem
    rw [List.map_cons, List.nodup_cons] at hnodup
    have hrest := @ih (before ++ after) hnodup.2 (by
      intro e' he'
      obtain ⟨value', hmem', hle'⟩ := h e' (List.mem_cons_of_mem _ he')
      refine ⟨value', ?_, hle'⟩
      have hkey : e'.1 ≠ e.1 := fun hkey => hnodup.1 (hkey ▸ List.mem_map_of_mem he')
      rcases List.mem_append.mp hmem' with hmem' | hmem'
      · exact List.mem_append_left _ hmem'
      · rcases List.mem_cons.mp hmem' with heq | hmem'
        · exact absurd (congrArg Prod.fst heq) hkey
        · exact List.mem_append_right _ hmem')
    have hentry : entryBytes e ≤ entryBytes (e.1, value) := by
      simp only [entryBytes]
      omega
    simp only [propertiesBytes_append] at hrest ⊢
    simp only [propertiesBytes, List.map_cons, List.sum_cons] at hrest ⊢
    omega

end Objects

end Mottainai.JsonValues

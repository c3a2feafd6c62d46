import Mathlib.Data.Finset.Attr
import Mottainai.JavaScriptValues
import Mottainai.PercentEncoding

/-!
# Symbol ids

The logical id of a symbol is put together from its parts: each is percent-encoded, and they are
joined with colons, the file with a number sign and the signature with a tilde, which the encoding
keeps. So an id does not tell a tilde of the symbol from the one before the signature. The parts are
JavaScript strings, which need not be well-formed; an id does not tell halves of characters apart.
-/

namespace Mottainai.SemanticIds

open JavaScriptValues PercentEncoding

section Texts

abbrev JavaScriptString : Type := List UInt16

def isHighSurrogate (unit : UInt16) : Bool :=
  decide (0xD800 ≤ unit.toNat) && decide (unit.toNat ≤ 0xDBFF)

def isLowSurrogate (unit : UInt16) : Bool :=
  decide (0xDC00 ≤ unit.toNat) && decide (unit.toNat ≤ 0xDFFF)

/-- A code unit by itself; `TextEncoder` replaces half of a character. -/
def loneUnit (unit : UInt16) : Char :=
  if isHighSurrogate unit || isLowSurrogate unit then '\uFFFD' else Char.ofNat unit.toNat

def surrogatePair (high low : UInt16) : Char :=
  Char.ofNat (0x10000 + (high.toNat - 0xD800) * 0x400 + (low.toNat - 0xDC00))

/-- The characters of `[...value]`, as `TextEncoder` encodes them. -/
def characters : JavaScriptString → List Char
  | [] => []
  | [unit] => [loneUnit unit]
  | unit :: next :: rest =>
      if isHighSurrogate unit && isLowSurrogate next then surrogatePair unit next :: characters rest
      else loneUnit unit :: characters (next :: rest)

/-- A literal of the source. -/
def javaScriptString (text : String) : JavaScriptString :=
  text.toList.map fun c => UInt16.ofNat c.toNat

end Texts

section LogicalIds

/-- `[a-z0-9_-]`. -/
def isNamespaceCharacter (c : Char) : Bool :=
  c.isLower || c.isDigit || decide (c = '_') || decide (c = '-')

/-- `/^[a-z][a-z0-9_-]*$/`. -/
def isNamespace : List Char → Bool
  | [] => false
  | c :: cs => c.isLower && cs.all isNamespaceCharacter

/-- `[A-Za-z0-9._~+/@#:%-]`. -/
def isLocalIdCharacter (c : Char) : Bool := c.isAlphanum || "._~+/@#:%-".toList.contains c

/-- What comes after the first colon in `LOGICAL_ID_PATTERN`. -/
def isLocalId : List Char → Bool
  | [] => false
  | c :: cs => c.isAlphanum && cs.all isLocalIdCharacter

/-- `isLogicalId`, with `LOGICAL_ID_PATTERN`. A namespace has no colon. -/
def isLogicalId (value : List Char) : Bool :=
  isNamespace (value.takeWhile (· ≠ ':')) && isLocalId ((value.dropWhile (· ≠ ':')).drop 1)

def createLogicalId (idNamespace localId : List Char) : Except String (List Char) := do
  require (isNamespace idNamespace) "invalid logical id namespace"
  require (localId ≠ [] ∧ ¬localId.any isWhiteSpace) "invalid logical id value"
  require (isLogicalId (idNamespace ++ ':' :: localId)) "invalid logical id value"
  return idNamespace ++ ':' :: localId

end LogicalIds

section SymbolIds

structure SymbolLocator where
  kind : String
  language : JavaScriptString
  package : Option JavaScriptString
  moduleName : Option JavaScriptString
  file : Option JavaScriptString
  symbol : JavaScriptString
  signature : Option JavaScriptString
  deriving DecidableEq

/-- `[A-Za-z0-9._~+/@-]`. -/
def isKept (c : Char) : Bool := c.isAlphanum || "._~+/@-".toList.contains c

def encodeIdPart (value : JavaScriptString) (field : String) : Except String (List Char) := do
  require (value ≠ []) (field ++ " must be non-empty")
  return percentEncode isKept (characters value)

def encodeOptionalPart (value : Option JavaScriptString) (field : String) :
    Except String (Option (List Char)) :=
  match value with
  | none => .ok none
  | some value => (encodeIdPart value field).map some

def symbolCoordinate (file : Option (List Char)) (symbol : List Char)
    (signature : Option (List Char)) : List Char :=
  ['#'].intercalate (file.toList ++
    [symbol ++ (signature.map fun signature => '~' :: signature).getD []])

def createSymbolId (locator : SymbolLocator) : Except String (List Char) := do
  require (locator.kind = "symbol") "symbol locator is required"
  let language ← encodeIdPart locator.language "language"
  let package ← encodeOptionalPart locator.package "package"
  let moduleName ← encodeOptionalPart locator.moduleName "module"
  let symbol ← encodeIdPart locator.symbol "symbol"
  let file ← encodeOptionalPart locator.file "file"
  let signature ← encodeOptionalPart locator.signature "signature"
  createLogicalId "symbol".toList ([':'].intercalate
    [language, package.getD [], moduleName.getD [], symbolCoordinate file symbol signature])

end SymbolIds

section Parts

def encoded (value : JavaScriptString) : List Char := percentEncode isKept (characters value)

theorem toNat_lt_of_isAlphanum {c : Char} (h : c.isAlphanum = true) : c.toNat < 128 := by
  have hcases : ((decide (65 ≤ c.val.toNat ∧ c.val.toNat ≤ 90) ||
      (decide (97 ≤ c.val.toNat) && decide (c.val.toNat ≤ 122))) ||
      (decide (48 ≤ c.val.toNat) && decide (c.val.toNat ≤ 57))) = true := h
  have hval : c.toNat = c.val.toNat := rfl
  simp only [Bool.or_eq_true, Bool.and_eq_true, decide_eq_true_eq] at hcases
  omega

theorem toNat_lt_of_isKept (c : Char) (h : isKept c = true) : c.toNat < 128 := by
  simp only [isKept, Bool.or_eq_true] at h
  rcases h with halphanum | hother
  · exact toNat_lt_of_isAlphanum halphanum
  · have hmem : c ∈ ['.', '_', '~', '+', '/', '@', '-'] := by simpa using hother
    simp only [List.mem_cons, List.not_mem_nil, or_false] at hmem
    rcases hmem with rfl | rfl | rfl | rfl | rfl | rfl | rfl <;> decide

theorem encode_injective : Function.Injective (percentEncode isKept) :=
  percentEncode_injective toNat_lt_of_isKept (by decide)

theorem not_mem_encode {d : Char} (hd : d = ':' ∨ d = '#') (text : List Char) :
    d ∉ percentEncode isKept text := by
  intro hmem
  have hdigits : ∀ n : Fin 16, hexDigit n ≠ ':' ∧ hexDigit n ≠ '#' := by decide
  rcases mem_percentEncode hmem with hkeep | hpercent | ⟨n, hn, hdigit⟩
  · rcases hd with rfl | rfl <;> revert hkeep <;> decide
  · rcases hd with rfl | rfl <;> revert hpercent <;> decide
  · rcases hd with rfl | rfl
    · exact (hdigits ⟨n, hn⟩).1 hdigit.symm
    · exact (hdigits ⟨n, hn⟩).2 hdigit.symm

variable {value : JavaScriptString} {field : String}

theorem characters_ne_nil (h : value ≠ []) : characters value ≠ [] := by
  cases value with
  | nil => exact absurd rfl h
  | cons unit rest =>
    cases rest with
    | nil => exact List.cons_ne_nil _ _
    | cons next rest =>
      unfold characters
      split
      · exact List.cons_ne_nil _ _
      · exact List.cons_ne_nil _ _

theorem encoded_ne_nil (h : value ≠ []) : encoded value ≠ [] := by
  intro hnil
  have hempty : percentEncode isKept [] = [] := rfl
  exact characters_ne_nil h (encode_injective (hnil.trans hempty.symm))

theorem encodeIdPart_eq_ok {part : List Char} :
    encodeIdPart value field = .ok part ↔ value ≠ [] ∧ part = encoded value := by
  simp only [encodeIdPart, bind_eq_ok, require_eq_ok, exists_const]
  constructor
  · rintro ⟨hne, hpart⟩
    cases hpart
    exact ⟨hne, rfl⟩
  · rintro ⟨hne, rfl⟩
    exact ⟨hne, rfl⟩

theorem encodeOptionalPart_eq_ok {value : Option JavaScriptString} {part : Option (List Char)} :
    encodeOptionalPart value field = .ok part ↔ value ≠ some [] ∧ part = value.map encoded := by
  cases value with
  | none => simp [encodeOptionalPart, eq_comm]
  | some value =>
    simp only [encodeOptionalPart, map_eq_ok, encodeIdPart_eq_ok]
    constructor
    · rintro ⟨part, ⟨hne, rfl⟩, rfl⟩
      exact ⟨by simpa using hne, rfl⟩
    · rintro ⟨hne, rfl⟩
      exact ⟨encoded value, ⟨by simpa using hne, rfl⟩, rfl⟩

/-- An absent part is written as nothing, and a present one is not. -/
theorem getD_encoded_injective {value value' : Option JavaScriptString} (h : value ≠ some [])
    (h' : value' ≠ some [])
    (heq : (value.map encoded).getD [] = (value'.map encoded).getD []) :
    value.map characters = value'.map characters := by
  cases value with
  | none =>
    cases value' with
    | none => rfl
    | some value' => exact absurd heq.symm (encoded_ne_nil (by simpa using h'))
  | some value =>
    cases value' with
    | none => exact absurd heq (encoded_ne_nil (by simpa using h))
    | some value' => exact congrArg some (encode_injective heq)

end Parts

section Coordinates

variable {a b : SymbolLocator} {id id' : List Char}

def signedSymbol (locator : SymbolLocator) : List Char :=
  characters locator.symbol ++
    (locator.signature.map fun signature => '~' :: characters signature).getD []

def fileCoordinates (locator : SymbolLocator) : List (List Char) :=
  (locator.file.map encoded).toList ++ [percentEncode isKept (signedSymbol locator)]

def coordinates (locator : SymbolLocator) : List (List Char) :=
  [encoded locator.language, (locator.package.map encoded).getD [],
    (locator.moduleName.map encoded).getD [], ['#'].intercalate (fileCoordinates locator)]

variable (locator : SymbolLocator)

/-- A tilde is encoded as itself. -/
theorem symbolCoordinate_eq :
    symbolCoordinate (locator.file.map encoded) (encoded locator.symbol)
      (locator.signature.map encoded) = ['#'].intercalate (fileCoordinates locator) := by
  have hkeep : isKept '~' = true := by decide
  unfold symbolCoordinate fileCoordinates signedSymbol
  rw [percentEncode_append]
  cases locator.signature with
  | none => rfl
  | some signature =>
    simp only [Option.map_some, Option.getD_some, percentEncode_cons_of_keep hkeep]
    rfl

/-- What an accepted locator is, and its id. -/
theorem createSymbolId_eq_ok (h : createSymbolId a = .ok id) :
    a.kind = "symbol" ∧ a.package ≠ some [] ∧ a.moduleName ≠ some [] ∧
      id = "symbol".toList ++ ':' :: [':'].intercalate (coordinates a) := by
  unfold createSymbolId at h
  simp only [bind_eq_ok, require_eq_ok, encodeIdPart_eq_ok, encodeOptionalPart_eq_ok,
    createLogicalId] at h
  obtain ⟨_, hkind, _, ⟨_, rfl⟩, _, ⟨hpackage, rfl⟩, _, ⟨hmodule, rfl⟩, _, ⟨_, rfl⟩, _,
    ⟨_, rfl⟩, _, ⟨_, rfl⟩, _, _, _, _, _, _, hid⟩ := h
  cases hid
  refine ⟨hkind, hpackage, hmodule, ?_⟩
  rw [symbolCoordinate_eq]
  rfl

theorem not_mem_symbolCoordinate : ':' ∉ ['#'].intercalate (fileCoordinates locator) := by
  have hsymbol := not_mem_encode (.inl rfl) (signedSymbol locator)
  unfold fileCoordinates
  cases locator.file with
  | none => simpa [List.intercalate] using hsymbol
  | some file =>
    have hfile : ':' ∉ encoded file := not_mem_encode (.inl rfl) (characters file)
    simp [List.intercalate, hfile, hsymbol]

variable {l : List Char}

theorem not_mem_coordinates (h : l ∈ coordinates a) : ':' ∉ l := by
  have hpart : ∀ value : Option JavaScriptString, ':' ∉ (value.map encoded).getD [] := by
    intro value
    cases value with
    | none => exact List.not_mem_nil
    | some value => exact not_mem_encode (.inl rfl) (characters value)
  simp only [coordinates, List.mem_cons, List.not_mem_nil, or_false] at h
  rcases h with rfl | rfl | rfl | rfl
  · exact not_mem_encode (.inl rfl) (characters a.language)
  · exact hpart a.package
  · exact hpart a.moduleName
  · exact not_mem_symbolCoordinate a

theorem not_mem_fileCoordinates (h : l ∈ fileCoordinates a) : '#' ∉ l := by
  unfold fileCoordinates at h
  rcases List.mem_append.mp h with hfile | hsymbol
  · obtain ⟨file, _, rfl⟩ := Option.map_eq_some_iff.mp (Option.mem_toList.mp hfile)
    exact not_mem_encode (.inr rfl) (characters file)
  · rw [List.mem_singleton.mp hsymbol]
    exact not_mem_encode (.inr rfl) (signedSymbol a)

/-- Joined lists determine the lists, if the delimiter is in none of their elements. -/
theorem intercalate_injective {d : Char} {ls ls' : List (List Char)} (h : ∀ l ∈ ls, d ∉ l)
    (h' : ∀ l ∈ ls', d ∉ l) (hne : ls ≠ []) (hne' : ls' ≠ [])
    (heq : [d].intercalate ls = [d].intercalate ls') : ls = ls' := by
  rw [← List.splitOn_intercalate d h hne, ← List.splitOn_intercalate d h' hne', heq]

structure SameReading (a b : SymbolLocator) : Prop where
  language : characters a.language = characters b.language
  package : a.package.map characters = b.package.map characters
  moduleName : a.moduleName.map characters = b.moduleName.map characters
  file : a.file.map characters = b.file.map characters
  signedSymbol : signedSymbol a = signedSymbol b

theorem map_encoded (value : Option JavaScriptString) :
    value.map encoded = (value.map characters).map (percentEncode isKept) := by
  cases value with
  | none => rfl
  | some value => rfl

theorem SameReading.coordinates_eq (h : SameReading a b) : coordinates a = coordinates b := by
  have hfile : fileCoordinates a = fileCoordinates b := by
    simp only [fileCoordinates, map_encoded, h.file, h.signedSymbol]
  simp only [coordinates, encoded, map_encoded, h.language, h.package, h.moduleName, hfile]

theorem fileCoordinates_injective (h : fileCoordinates a = fileCoordinates b) :
    a.file.map characters = b.file.map characters ∧ signedSymbol a = signedSymbol b := by
  unfold fileCoordinates at h
  obtain ⟨hfile, hsymbol⟩ := List.append_inj' h rfl
  refine ⟨?_, encode_injective (List.singleton_inj.mp hsymbol)⟩
  rw [map_encoded, map_encoded] at hfile
  have hmap := congrArg List.head? hfile
  rw [Option.head?_toList, Option.head?_toList] at hmap
  exact Option.map_injective encode_injective hmap

/-- Ids are equal when the readings are. -/
theorem createSymbolId_eq_iff (ha : createSymbolId a = .ok id) (hb : createSymbolId b = .ok id') :
    id = id' ↔ SameReading a b := by
  obtain ⟨_, hpackage, hmodule, rfl⟩ := createSymbolId_eq_ok ha
  obtain ⟨_, hpackage', hmodule', rfl⟩ := createSymbolId_eq_ok hb
  constructor
  · intro heq
    have hjoined : [':'].intercalate (coordinates a) = [':'].intercalate (coordinates b) :=
      (List.cons.inj (List.append_cancel_left heq)).2
    have hcoordinates : coordinates a = coordinates b :=
      intercalate_injective (fun _ => not_mem_coordinates) (fun _ => not_mem_coordinates)
        (List.cons_ne_nil _ _) (List.cons_ne_nil _ _) hjoined
    simp only [coordinates, List.cons.injEq, and_true] at hcoordinates
    obtain ⟨hlanguage, hpackages, hmodules, hsymbols⟩ := hcoordinates
    have hfiles : fileCoordinates a = fileCoordinates b :=
      intercalate_injective (fun _ => not_mem_fileCoordinates) (fun _ => not_mem_fileCoordinates)
        (by simp [fileCoordinates]) (by simp [fileCoordinates]) hsymbols
    obtain ⟨hfile, hsigned⟩ := fileCoordinates_injective hfiles
    exact ⟨encode_injective hlanguage, getD_encoded_injective hpackage hpackage' hpackages,
      getD_encoded_injective hmodule hmodule' hmodules, hfile, hsigned⟩
  · intro hsame
    rw [hsame.coordinates_eq]

/-- Two accepted locators have different ids unless they are the same exactly when they are the
same or read differently. -/
theorem createSymbolId_injective_iff (ha : createSymbolId a = .ok id)
    (hb : createSymbolId b = .ok id') : (id = id' → a = b) ↔ (a = b ∨ ¬ SameReading a b) := by
  rw [createSymbolId_eq_iff ha hb]
  constructor
  · intro h
    by_cases hsame : SameReading a b
    · exact .inl (h hsame)
    · exact .inr hsame
  · rintro (heq | hdiffer) hsame
    · exact heq
    · exact absurd hsame hdiffer

end Coordinates

section PlainLocators

/-- `text.isWellFormed()`. -/
def isWellFormed : JavaScriptString → Bool
  | [] => true
  | [unit] => !(isHighSurrogate unit || isLowSurrogate unit)
  | unit :: next :: rest =>
      if isHighSurrogate unit && isLowSurrogate next then isWellFormed rest
      else !(isHighSurrogate unit || isLowSurrogate unit) && isWellFormed (next :: rest)

def utf16Units (c : Char) : JavaScriptString :=
  if c.toNat < 0x10000 then [UInt16.ofNat c.toNat]
  else [UInt16.ofNat (0xD800 + (c.toNat - 0x10000) / 0x400),
    UInt16.ofNat (0xDC00 + (c.toNat - 0x10000) % 0x400)]

/-- The parts are well-formed, and the symbol has no tilde. -/
structure IsPlain (locator : SymbolLocator) : Prop where
  language : isWellFormed locator.language = true
  package : ∀ value ∈ locator.package, isWellFormed value = true
  moduleName : ∀ value ∈ locator.moduleName, isWellFormed value = true
  file : ∀ value ∈ locator.file, isWellFormed value = true
  symbol : isWellFormed locator.symbol = true
  signature : ∀ value ∈ locator.signature, isWellFormed value = true
  tilde : '~' ∉ characters locator.symbol

end PlainLocators

section Inputs

def bareSymbol (symbol : String) (signature : Option String) : SymbolLocator :=
  { kind := "symbol", language := javaScriptString "ts", package := none, moduleName := none
    file := none, symbol := javaScriptString symbol, signature := signature.map javaScriptString }

theorem createSymbolId_injective_iff_plain :
    ("symbol:ts:::f".toList = "symbol:ts:::g".toList → bareSymbol "f" none = bareSymbol "g" none) ↔
      (bareSymbol "f" none = bareSymbol "g" none ∨
        ¬ SameReading (bareSymbol "f" none) (bareSymbol "g" none)) :=
  createSymbolId_injective_iff (by decide) (by decide)

/-- A symbol with a tilde has the id of a symbol with a signature. -/
theorem tilde_collides :
    ¬ ∀ (a b : SymbolLocator) (id : List Char), createSymbolId a = .ok id →
      createSymbolId b = .ok id → a = b := by
  intro h
  have heq := h (bareSymbol "a~b" none) (bareSymbol "a" (some "b")) "symbol:ts:::a~b".toList
    (by decide) (by decide)
  exact absurd (congrArg SymbolLocator.signature heq) (by decide)

end Inputs

end Mottainai.SemanticIds

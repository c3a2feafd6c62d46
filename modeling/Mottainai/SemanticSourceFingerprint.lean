import Mathlib.Data.List.Lex
import Mathlib.Data.List.Nodup
import Mathlib.Data.List.Perm.Basic
import Mathlib.Data.Set.List
import Mottainai.SeparatedTexts
import Mottainai.SymbolIds

/-!
# The fingerprint of the semantic source

The files under the source root are serialized one by one, each path and each content after its
length, and the serialized files are sorted before they are joined and hashed. Strings are their
UTF-16 code units, by which they are measured and sorted.
-/

namespace Mottainai.SemanticSourceFingerprint

open LengthFraming
open Mottainai.SemanticIds (JavaScriptString javaScriptString)

section Model

inductive WriteOperation where
  | write
  | delete
  deriving DecidableEq

structure SemanticSourceWrite where
  path : JavaScriptString
  operation : WriteOperation
  content : Option JavaScriptString
  deriving DecidableEq

/-- A directory, as `readdir` enumerates it: each entry before the rest. -/
inductive Listing where
  | nil
  | file (name content : JavaScriptString) (rest : Listing)
  | directory (name : JavaScriptString) (entries rest : Listing)
  | other (name : JavaScriptString) (rest : Listing)

/-- The code unit of an ASCII character. -/
def unit (c : Char) : UInt16 := UInt16.ofNat c.toNat

/-- `name.endsWith(".json")`. -/
def isJsonName (name : JavaScriptString) : Bool := (javaScriptString ".json").isSuffixOf name

/-- `relative(root, absolute).split("\\").join("/")`, for the names on the way to a file. -/
def sourcePath (names : List JavaScriptString) : JavaScriptString :=
  ([unit '/'].intercalate names).map fun u => if u = unit '\\' then unit '/' else u

/-- What `collectJsonFiles` puts out for a directory, which is reached through `names`. -/
def collectJsonFiles (names : List JavaScriptString) : Listing → List SemanticSourceWrite
  | .nil => []
  | .file name content rest =>
      (if isJsonName name then [⟨sourcePath (names ++ [name]), .write, some content⟩] else []) ++
        collectJsonFiles names rest
  | .directory name entries rest =>
      collectJsonFiles (names ++ [name]) entries ++ collectJsonFiles names rest
  | .other _ rest => collectJsonFiles names rest

/-- `${n}`. -/
def numeral (n : ℕ) : JavaScriptString := (Nat.toDigits 10 n).map unit

/-- `${path.length}:${path}=${content.length}:${content}`. -/
def serializedPair (file : JavaScriptString × JavaScriptString) : JavaScriptString :=
  frame numeral (unit ':') file.1 ++ unit '=' :: frame numeral (unit ':') file.2

def serializedFile (file : SemanticSourceWrite) : JavaScriptString :=
  serializedPair (file.path, file.content.getD [])

/-- The order in which `sort` puts strings. -/
def codeUnitsLe (left right : JavaScriptString) : Bool :=
  decide (left.map UInt16.toNat ≤ right.map UInt16.toNat)

/-- The text that `fingerprintOf` hashes. -/
def serialized (files : List SemanticSourceWrite) : JavaScriptString :=
  [unit ';'].intercalate ((files.map serializedFile).mergeSort codeUnitsLe)

variable (sha256 : JavaScriptString → String)

def fingerprintOf (files : List SemanticSourceWrite) : String := sha256 (serialized files)

/-- `SEMANTIC_SOURCE_ROOT`. -/
def SEMANTIC_SOURCE_ROOT : List JavaScriptString :=
  [javaScriptString ".mottainai", javaScriptString "semantics"]

/-- The source root may not be there. -/
def computeSemanticSourceFingerprint (root : Option Listing) : String :=
  fingerprintOf sha256 ((root.map (collectJsonFiles SEMANTIC_SOURCE_ROOT)).getD [])

/-- The compare-and-swap of `persistSemanticMutation`: whether the base is the expected one. -/
def acceptsBase (expectedBaseFingerprint : Option String) (root : Option Listing) : Bool :=
  match expectedBaseFingerprint with
  | none => true
  | some expected => decide (computeSemanticSourceFingerprint sha256 root = expected)

def sourceFile (pair : JavaScriptString × JavaScriptString) : SemanticSourceWrite :=
  ⟨pair.1, .write, some pair.2⟩

/-- The files of a source root, as pairs of a path and a content. -/
def sourcePairs (root : Option Listing) : List (JavaScriptString × JavaScriptString) :=
  ((root.map (collectJsonFiles SEMANTIC_SOURCE_ROOT)).getD []).map fun file =>
    (file.path, file.content.getD [])

/-- One directory, enumerated in two orders. -/
inductive Reordered : Listing → Listing → Prop where
  | nil : Reordered .nil .nil
  | file {name content l l'} (rest : Reordered l l') :
      Reordered (.file name content l) (.file name content l')
  | directory {name d d' l l'} (entries : Reordered d d') (rest : Reordered l l') :
      Reordered (.directory name d l) (.directory name d' l')
  | other {name l l'} (rest : Reordered l l') : Reordered (.other name l) (.other name l')
  | swap_files {n c n' c' l} : Reordered (.file n c (.file n' c' l)) (.file n' c' (.file n c l))
  | swap_file_directory {n c n' d l} :
      Reordered (.file n c (.directory n' d l)) (.directory n' d (.file n c l))
  | swap_file_other {n c n' l} : Reordered (.file n c (.other n' l)) (.other n' (.file n c l))
  | swap_directories {n d n' d' l} :
      Reordered (.directory n d (.directory n' d' l)) (.directory n' d' (.directory n d l))
  | swap_directory_other {n d n' l} :
      Reordered (.directory n d (.other n' l)) (.other n' (.directory n d l))
  | swap_others {n n' l} : Reordered (.other n (.other n' l)) (.other n' (.other n l))
  | symm {l l'} (h : Reordered l l') : Reordered l' l
  | trans {l l' l''} (h : Reordered l l') (h' : Reordered l' l'') : Reordered l l''

end Model

section Encoding

variable {files files' : List SemanticSourceWrite}

theorem toNat_unit {c : Char} (h : c.isDigit = true) :
    (unit c).toNat = c.toNat ∧ c.toNat ≤ '9'.toNat := by
  have hle : c.toNat ≤ '9'.toNat := of_decide_eq_true (Bool.and_eq_true_iff.mp h).2
  have hlt : c.toNat < 2 ^ 16 := Nat.lt_of_le_of_lt hle (by decide)
  rw [unit, UInt16.toNat_ofNat', Nat.mod_eq_of_lt hlt]
  exact ⟨rfl, hle⟩

theorem ofDigitChars_numeral (n : ℕ) :
    Nat.ofDigitChars 10 ((numeral n).map fun u => Char.ofNat u.toNat) 0 = n := by
  have hback : ∀ c ∈ Nat.toDigits 10 n, ((fun u => Char.ofNat u.toNat) ∘ unit) c = c := by
    intro c hc
    have hdigit := Nat.isDigit_of_mem_toDigits (by decide) (by decide) hc
    rw [Function.comp_apply, (toNat_unit hdigit).1, Char.ofNat_toNat]
  rw [numeral, List.map_map, List.map_congr_left hback, List.map_id']
  exact Nat.ofDigitChars_ten_toDigits

theorem numeral_injective : Function.Injective numeral := by
  intro m n h
  rw [← ofDigitChars_numeral m, h, ofDigitChars_numeral]

theorem colon_not_mem_numeral (n : ℕ) : unit ':' ∉ numeral n := by
  intro hmem
  obtain ⟨c, hc, hunit⟩ := List.mem_map.mp hmem
  have hdigit := toNat_unit (Nat.isDigit_of_mem_toDigits (by decide) (by decide) hc)
  rw [← hdigit.1, hunit] at hdigit
  exact absurd hdigit.2 (by decide)

theorem selfDelimiting_serializedPair : SelfDelimiting serializedPair := by
  have hframe := selfDelimiting_frame numeral_injective colon_not_mem_numeral
  exact hframe.pair hframe

theorem serializedPair_ne_nil (file : JavaScriptString × JavaScriptString) :
    serializedPair file ≠ [] := by
  simp [serializedPair]

end Encoding

section Sorting

variable {l l' : List JavaScriptString}
variable {a b : JavaScriptString}

theorem codeUnitsLe_iff :
    codeUnitsLe a b = true ↔ a.map UInt16.toNat ≤ b.map UInt16.toNat := decide_eq_true_iff

theorem codeUnitsLe_antisymm (h : codeUnitsLe a b = true) (h' : codeUnitsLe b a = true) : a = b :=
  List.map_injective_iff.mpr (fun _ _ => UInt16.toNat.inj)
    (le_antisymm (codeUnitsLe_iff.mp h) (codeUnitsLe_iff.mp h'))

/-- Sorting forgets the order, and nothing else. -/
theorem mergeSort_eq_iff : l.mergeSort codeUnitsLe = l'.mergeSort codeUnitsLe ↔ l.Perm l' := by
  have htrans : ∀ a b c : JavaScriptString, codeUnitsLe a b = true → codeUnitsLe b c = true →
      codeUnitsLe a c = true := fun a b c h h' =>
    codeUnitsLe_iff.mpr (le_trans (codeUnitsLe_iff.mp h) (codeUnitsLe_iff.mp h'))
  have htotal : ∀ a b : JavaScriptString, (codeUnitsLe a b || codeUnitsLe b a) = true := by
    intro a b
    rw [Bool.or_eq_true, codeUnitsLe_iff, codeUnitsLe_iff]
    exact le_total _ _
  constructor
  · intro h
    have hperm := List.mergeSort_perm l codeUnitsLe
    rw [h] at hperm
    exact hperm.symm.trans (List.mergeSort_perm l' codeUnitsLe)
  · intro h
    refine List.Perm.eq_of_pairwise (fun a b _ _ hab hba => codeUnitsLe_antisymm hab hba)
      (List.pairwise_mergeSort htrans htotal l) (List.pairwise_mergeSort htrans htotal l') ?_
    exact ((List.mergeSort_perm l _).trans h).trans (List.mergeSort_perm l' _).symm

end Sorting

section Enumeration

variable {names : List JavaScriptString} {l l' : Listing}

/-- The order of an enumeration changes the order of the files, and nothing else. -/
theorem Reordered.perm (h : Reordered l l') :
    (collectJsonFiles names l).Perm (collectJsonFiles names l') := by
  induction h generalizing names with
  | nil => exact List.Perm.refl _
  | file rest ih => exact List.Perm.append_left _ ih
  | directory entries rest ihEntries ihRest => exact List.Perm.append ihEntries ihRest
  | other rest ih => exact ih
  | swap_files | swap_file_directory | swap_directories =>
    simp only [collectJsonFiles, ← List.append_assoc]
    exact List.Perm.append_right _ List.perm_append_comm
  | swap_file_other | swap_directory_other | swap_others => exact List.Perm.refl _
  | symm h ih => exact ih.symm
  | trans h h' ih ih' => exact ih.trans ih'

end Enumeration

section Fingerprints

variable {files files' : List SemanticSourceWrite}

/-- The text before hashing is the same exactly for the same pairs of a path and a content. -/
theorem serialized_eq_iff : serialized files = serialized files' ↔
    (files.map fun file => (file.path, file.content.getD [])).Perm
      (files'.map fun file => (file.path, file.content.getD [])) := by
  have hfactor : ∀ files : List SemanticSourceWrite, files.map serializedFile =
      (files.map fun file => (file.path, file.content.getD [])).map serializedPair := by
    intro files
    rw [List.map_map]
    rfl
  have hpreimage : ∀ files : List SemanticSourceWrite,
      ∃ pairs : List (JavaScriptString × JavaScriptString),
      pairs.map serializedPair = (files.map serializedFile).mergeSort codeUnitsLe := by
    intro files
    have hrange : (files.map serializedFile).mergeSort codeUnitsLe ∈
        Set.range (List.map serializedPair) := by
      rw [Set.range_list_map]
      intro text htext
      obtain ⟨file, -, rfl⟩ := List.mem_map.mp (List.mem_mergeSort.mp htext)
      exact ⟨_, rfl⟩
    exact hrange
  rw [← List.map_perm_map_iff selfDelimiting_serializedPair.injective, ← hfactor, ← hfactor,
    ← mergeSort_eq_iff]
  constructor
  · intro h
    obtain ⟨pairs, hpairs⟩ := hpreimage files
    obtain ⟨pairs', hpairs'⟩ := hpreimage files'
    rw [serialized, serialized, ← hpairs, ← hpairs'] at h
    rw [← hpairs, ← hpairs', selfDelimiting_serializedPair.intercalate_injective
      serializedPair_ne_nil h]
  · intro h
    rw [serialized, serialized, h]

variable {pairs pairs' : List (JavaScriptString × JavaScriptString)}

theorem map_sourceFile (pairs : List (JavaScriptString × JavaScriptString)) :
    (pairs.map sourceFile).map (fun file => (file.path, file.content.getD [])) = pairs := by
  rw [List.map_map]
  exact List.map_id pairs

/-- Distinct paths make lists of pairs with the same members permutations of one another. -/
theorem perm_iff_of_distinct (h : (pairs.map Prod.fst).Nodup) (h' : (pairs'.map Prod.fst).Nodup) :
    pairs.Perm pairs' ↔ ∀ pair, pair ∈ pairs ↔ pair ∈ pairs' :=
  List.perm_ext_iff_of_nodup (List.Nodup.of_map _ h) (List.Nodup.of_map _ h')

/-- What the fingerprint is good for: its text tells sets of pairs apart and does not depend on
their order, nor on that of an enumeration, and so the compare-and-swap accepts exactly the source
that was loaded. -/
structure Faithful : Prop where
  injective : ∀ pairs pairs' : List (JavaScriptString × JavaScriptString),
    (pairs.map Prod.fst).Nodup → (pairs'.map Prod.fst).Nodup →
      (serialized (pairs.map sourceFile) = serialized (pairs'.map sourceFile) ↔
        ∀ pair, pair ∈ pairs ↔ pair ∈ pairs')
  enumeration : ∀ (sha256 : JavaScriptString → String) (l l' : Listing), Reordered l l' →
    computeSemanticSourceFingerprint sha256 (some l) =
      computeSemanticSourceFingerprint sha256 (some l')
  compareAndSwap : ∀ sha256 : JavaScriptString → String, Function.Injective sha256 →
    ∀ loaded current : Option Listing,
      acceptsBase sha256 (some (computeSemanticSourceFingerprint sha256 loaded)) current = true ↔
        (sourcePairs current).Perm (sourcePairs loaded)

theorem fingerprint_faithful : Faithful where
  injective pairs pairs' h h' := by
    rw [serialized_eq_iff, map_sourceFile, map_sourceFile, perm_iff_of_distinct h h']
  enumeration sha256 l l' h := by
    refine congrArg sha256 (serialized_eq_iff.mpr ?_)
    exact h.perm.map _
  compareAndSwap sha256 hsha256 loaded current := by
    rw [acceptsBase, decide_eq_true_iff, computeSemanticSourceFingerprint,
      computeSemanticSourceFingerprint, fingerprintOf, fingerprintOf, hsha256.eq_iff,
      serialized_eq_iff]
    rfl

end Fingerprints

end Mottainai.SemanticSourceFingerprint

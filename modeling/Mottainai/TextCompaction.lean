import Mathlib.Data.Rat.Floor
import Mottainai.ArtifactTexts
import Mottainai.ProjectionSizes
import Mottainai.SeparatedTexts

/-!
# Cutting a text to a budget

`compactToBudget` keeps lines from both ends of a text that is too large, and puts a line between
them that says how many it leaves out. Numbers are taken exactly. The digest of a text is given by
its hexadecimal digits.
-/

namespace Mottainai.TextCompaction

open ArtifactTexts JsonValues SelfReportedSizes SemanticProjections SeparatedTexts

section Compaction

variable (sha256 : Text → List (Fin 16))

def newline : CodePoint := .scalar '\n'

/-- `text.split("\n")`. -/
def linesOf (text : Text) : List Text := text.splitOn newline

/-- `lines.join("\n")`. -/
def joinLines (lines : List Text) : Text := [newline].intercalate lines

/-- The bytes that `targetTokens` and `rawBytes` leave for the text. -/
def byteBudget (targetTokens rawBytes : ℚ) : ℚ :=
  let targetBytes := (targetTokens - 256) * 4
  max 256 (if 1024 < rawBytes then min targetBytes (rawBytes - 1024) else targetBytes)

def lineBytes (line : Text) : ℕ := utf8Bytes (line ++ [newline])

def markerText (omitted hash : String) : Text :=
  points ("⋯ mottainai omitted=" ++ omitted ++ " lines sha256=" ++ hash ++
    "; use mottainai_result_get ⋯")

/-- The bytes of a marker with this many digits, and of two line breaks. -/
def markerOverhead (lines : ℕ) : ℕ :=
  utf8Bytes (markerText (String.ofList (List.replicate (digits lines) '9'))
    (String.ofList (List.replicate 16 '0'))) + 2

/-- Both loops: lines are taken as long as their bytes fit. -/
def takeLines (budget : ℚ) : List Text → ℕ → List Text × ℕ
  | [], used => ([], used)
  | line :: lines, used =>
    if budget < (used + lineBytes line : ℕ) then ([], used)
    else (takeLines budget lines (used + lineBytes line)).map (line :: ·) id

def hexText (hash : List (Fin 16)) : String := String.ofList (hash.map fun n => hexDigit n.val)

def marker (text : Text) (omitted : ℕ) : Text :=
  markerText (toString omitted) (hexText ((sha256 text).take 16))

def compactToBudget (text : Text) (targetTokens rawBytes : ℚ) : Text :=
  let budget := byteBudget targetTokens rawBytes
  if (utf8Bytes text : ℚ) ≤ budget then text
  else
    let lines := linesOf text
    let contentBudget := max 0 (budget - markerOverhead lines.length)
    let head := takeLines ⌊contentBudget * (3 / 5)⌋ lines 0
    let tail := takeLines contentBudget (lines.drop head.1.length).reverse head.2
    let omitted := lines.length - head.1.length - tail.1.length
    joinLines (head.1 ++ marker sha256 text omitted :: tail.1.reverse)

end Compaction

section Bytes

variable {lines : List Text} {text : Text} {budget : ℚ} {used : ℕ}

theorem utf8Bytes_points (text : String) : utf8Bytes (points text) = byteLength text := by
  rw [utf8Bytes, points, List.map_map, ← String.ofList_toList (s := text), byteLength_ofList,
    String.toList_ofList]
  rfl

theorem utf8Bytes_append (left right : Text) :
    utf8Bytes (left ++ right) = utf8Bytes left + utf8Bytes right := by
  rw [utf8Bytes, List.map_append, List.sum_append, utf8Bytes, utf8Bytes]

theorem lineBytes_eq (line : Text) : lineBytes line = utf8Bytes line + 1 := utf8Bytes_append _ _

theorem utf8Bytes_joinLines (hne : lines ≠ []) :
    utf8Bytes (joinLines lines) + 1 = (lines.map lineBytes).sum := by
  obtain ⟨line, lines, rfl⟩ := List.exists_cons_of_ne_nil hne
  have hrest : utf8Bytes (lines.flatMap ([newline] ++ ·)) = (lines.map lineBytes).sum := by
    clear hne
    induction lines with
    | nil => rfl
    | cons line lines ih =>
      rw [List.flatMap_cons, utf8Bytes_append, ih, utf8Bytes_append, List.map_cons, List.sum_cons,
        lineBytes_eq, Nat.add_comm (utf8Bytes line)]
      rfl
  rw [joinLines, intercalate_cons, utf8Bytes_append, hrest, List.map_cons, List.sum_cons,
    lineBytes_eq, Nat.add_right_comm]

/-- The lines that are taken are the first ones, and their bytes are added up within the budget. -/
theorem takeLines_spec (lines : List Text) {used : ℕ} (h : (used : ℚ) ≤ budget) :
    ∃ kept rest, lines = kept ++ rest ∧
      takeLines budget lines used = (kept, used + (kept.map lineBytes).sum) ∧
        ((used + (kept.map lineBytes).sum : ℕ) : ℚ) ≤ budget := by
  induction lines generalizing used with
  | nil => exact ⟨[], [], rfl, rfl, h⟩
  | cons line lines ih =>
    rw [takeLines]
    split_ifs with hfull
    · exact ⟨[], line :: lines, rfl, rfl, h⟩
    · obtain ⟨kept, rest, rfl, htaken, hbudget⟩ := ih (not_lt.1 hfull)
      rw [Nat.add_assoc] at htaken hbudget
      exact ⟨line :: kept, rest, rfl, by rw [htaken]; rfl, hbudget⟩

theorem utf8Bytes_markerText (omitted hash : String) :
    utf8Bytes (markerText omitted hash) = byteLength omitted + byteLength hash + 66 := by
  have hfirst : byteLength "⋯ mottainai omitted=" = 22 := by decide
  have hsecond : byteLength " lines sha256=" = 14 := by decide
  have hlast : byteLength "; use mottainai_result_get ⋯" = 30 := by decide
  rw [markerText, utf8Bytes_points]
  simp only [byteLength_append]
  omega

theorem markerOverhead_eq (lines : ℕ) : markerOverhead lines = digits lines + 84 := by
  have hnines : byteLength (String.ofList (List.replicate (digits lines) '9')) = digits lines := by
    rw [byteLength_ofList, List.map_replicate, List.sum_replicate_nat]
    exact Nat.mul_one _
  have hzeros : byteLength (String.ofList (List.replicate 16 '0')) = 16 := by decide
  rw [markerOverhead, utf8Bytes_markerText, hnines, hzeros]

theorem utf8Bytes_marker_le {sha256 : Text → List (Fin 16)} (omitted : ℕ) :
    utf8Bytes (marker sha256 text omitted) ≤ digits omitted + 82 := by
  have hdigits : byteLength (toString omitted) = digits omitted := bytes_toString omitted
  have hsize : ∀ n : Fin 16, (Char.utf8Size ∘ fun n : Fin 16 => hexDigit n.val) n = 1 := by decide
  have hhash : byteLength (hexText ((sha256 text).take 16)) ≤ 16 := by
    rw [hexText, byteLength_ofList, List.map_map, List.map_congr_left fun n _ => hsize n,
      List.map_const', List.sum_replicate_nat, Nat.mul_one]
    exact List.length_take_le _ _
  rw [marker, utf8Bytes_markerText, hdigits]
  omega

end Bytes

section Soundness

variable (sha256 : Text → List (Fin 16)) (text : Text)

/-- What a text may be cut to: what is left out is a part of its lines, and their number is told. -/
def IsCut (result : Text) : Prop :=
  ∃ head middle tail, linesOf text = head ++ middle ++ tail ∧
    result = joinLines (head ++ marker sha256 text middle.length :: tail)

theorem length_linesOf_le : (linesOf text).length ≤ text.length + 1 := by
  rw [linesOf]
  induction text with
  | nil => rfl
  | cons point text ih =>
    rw [List.splitOn_cons_eq_if_modifyHead]
    split_ifs
    · exact Nat.succ_le_succ ih
    · rw [List.length_modifyHead, List.length_cons]
      omega

variable (targetTokens rawBytes : ℚ)

/-- A text that does not fit is cut, and the lines that are kept fit beside the marker. -/
theorem exists_cut (h : ¬(utf8Bytes text : ℚ) ≤ byteBudget targetTokens rawBytes) :
    ∃ head middle tail, linesOf text = head ++ middle ++ tail ∧
      compactToBudget sha256 text targetTokens rawBytes =
        joinLines (head ++ marker sha256 text middle.length :: tail) ∧
      (((head ++ tail).map lineBytes).sum : ℚ) ≤
        max 0 (byteBudget targetTokens rawBytes - markerOverhead (linesOf text).length) := by
  rw [compactToBudget, if_neg h]
  dsimp only
  generalize linesOf text = lines
  generalize hcontent : max 0 (byteBudget targetTokens rawBytes - markerOverhead lines.length) =
    contentBudget
  have hpositive : 0 ≤ contentBudget := hcontent ▸ le_max_left _ _
  generalize hshare : ((⌊contentBudget * (3 / 5)⌋ : ℤ) : ℚ) = share
  have hshareLe : share ≤ contentBudget :=
    hshare ▸ (Int.floor_le _).trans (mul_le_of_le_one_right hpositive (by norm_num))
  have hshareNonneg : 0 ≤ share := by
    rw [← hshare]
    exact_mod_cast Int.floor_nonneg.2 (mul_nonneg hpositive (by norm_num))
  obtain ⟨head, rest, rfl, hhead, hheadBytes⟩ :=
    takeLines_spec lines (Nat.cast_zero.trans_le hshareNonneg)
  obtain ⟨tail, middle, hrest, htail, htailBytes⟩ :=
    takeLines_spec rest.reverse (hheadBytes.trans hshareLe)
  have hparts : rest = middle.reverse ++ tail.reverse := by
    rw [← List.reverse_append, ← hrest, List.reverse_reverse]
  have homitted : (head ++ rest).length - head.length - tail.length = middle.reverse.length := by
    simp only [hparts, List.length_append, List.length_reverse]
    omega
  rw [hhead, List.drop_left, htail]
  refine ⟨head, middle.reverse, tail.reverse, by rw [hparts, List.append_assoc], ?_, ?_⟩
  · rw [← homitted]
  · rw [List.map_append, List.sum_append, List.map_reverse, List.sum_reverse]
    rwa [Nat.zero_add] at htailBytes

end Soundness

end Mottainai.TextCompaction

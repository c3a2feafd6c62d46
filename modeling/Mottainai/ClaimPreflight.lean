import Mottainai.SymbolIds
import Mottainai.WildcardPatterns

/-!
# The preflight of claims

A claim names files by a pattern: `*` and `?` stand for parts of a segment, and `**` for any number
of segments. What Nawabari reports to be claimed is compared with what a task is going to claim. Two
patterns overlap where the search through what is left of both comes to the end of both.
-/

namespace Mottainai.ClaimPreflight

open SemanticIds WildcardPatterns

section Patterns

def slash : UInt16 := 0x2F

def star : UInt16 := 0x2A

def question : UInt16 := 0x3F

/-- What `segmentPatternsOverlap` puts into its queue. An index is given by what is left from it. -/
def segmentMoves : Rest UInt16 → List (Rest UInt16)
  | (left, right, consumed) =>
    (if left.head? = some star then [(left.tail, right, consumed)] else []) ++
    (if right.head? = some star then [(left, right.tail, consumed)] else []) ++
    (if left.head? = some star ∧ right ≠ [] then [(left, right.tail, true)] else []) ++
    (if right.head? = some star ∧ left ≠ [] then [(left.tail, right, true)] else []) ++
    match left, right with
    | leftChar :: left, rightChar :: right =>
        if leftChar ≠ star ∧ rightChar ≠ star ∧
            (leftChar = question ∨ rightChar = question ∨ leftChar = rightChar) then
          [(left, right, true)]
        else []
    | _, _ => []

def segmentPatternsOverlap (left right : JavaScriptString) : Option Bool :=
  overlap segmentMoves left right

def globStar : JavaScriptString := [star, star]

/-- What `resourcePatternsOverlap` puts into its queue. -/
def resourceMoves : Rest JavaScriptString → List (Rest JavaScriptString)
  | (left, right, consumed) =>
    (if left.head? = some globStar then [(left.tail, right, consumed), (left, right, true)]
      else []) ++
    (if right.head? = some globStar then [(left, right.tail, consumed), (left, right, true)]
      else []) ++
    match left, right with
    | leftSegment :: left, rightSegment :: right =>
        if leftSegment = globStar ∧ rightSegment = globStar then [(left, right, consumed)]
        else if rightSegment = globStar then [(left, rightSegment :: right, true)]
        else if leftSegment = globStar then [(leftSegment :: left, right, true)]
        else if segmentPatternsOverlap leftSegment rightSegment = some true then
          [(left, right, true)]
        else []
    | _, _ => []

def resourcePatternsOverlap (left right : JavaScriptString) : Option Bool :=
  overlap resourceMoves (left.splitOn slash) (right.splitOn slash)

end Patterns

section Paths

def FitsUnit (t x : UInt16) : Prop := x ≠ slash ∧ (t = star ∨ t = question ∨ t = x)

def FitsName (segment name : JavaScriptString) : Prop :=
  name ≠ [] ∧ Matches star FitsUnit segment name

/-- A path, given by its names, is one of those that a resource stands for. -/
def MatchesPath (resource : JavaScriptString) (path : List JavaScriptString) : Prop :=
  Matches globStar FitsName (resource.splitOn slash) path

variable {left right : JavaScriptString} {p name : JavaScriptString}

theorem segments_explored : Explores star FitsUnit
    (fun t u => t = question ∨ u = question ∨ t = u) (· ≠ slash) segmentMoves where
  fits_star h := ⟨h.1, .inl rfl⟩
  exists_letter {t} ht := ⟨t, ht, .inr (.inr rfl)⟩
  exists_common {t u} ht hu h := by
    rcases h with rfl | rfl | rfl
    · exact ⟨u, ⟨hu, .inr (.inl rfl)⟩, hu, .inr (.inr rfl)⟩
    · exact ⟨t, ⟨ht, .inr (.inr rfl)⟩, ht, .inr (.inl rfl)⟩
    · exact ⟨t, ⟨ht, .inr (.inr rfl)⟩, ht, .inr (.inr rfl)⟩
  move {v w} h := by
    obtain ⟨_ | ⟨t, p⟩, _ | ⟨u, q⟩, c⟩ := v <;> simp [segmentMoves] at h
    · obtain ⟨rfl, rfl⟩ := h
      exact .skipRight
    · obtain ⟨rfl, rfl⟩ := h
      exact .skipLeft
    · rcases h with ⟨rfl, rfl⟩ | ⟨rfl, rfl⟩ | ⟨rfl, rfl⟩ | ⟨rfl, rfl⟩ | ⟨⟨-, -, h⟩, rfl⟩
      · exact .skipLeft
      · exact .skipRight
      · exact .absorbLeft
      · exact .absorbRight
      · exact .both h
  length_le := by
    rintro ⟨_ | ⟨t, p⟩, _ | ⟨u, q⟩, c⟩ <;> simp only [segmentMoves] <;> split_ifs <;> simp
  skipLeft p q c := by simp [segmentMoves]
  skipRight p q c := by simp [segmentMoves]
  absorbLeft p q c hu := by simp [segmentMoves]
  absorbRight p q c ht := by simp [segmentMoves]
  both {t u a} p q c ht hu hta hua := by
    have h : t = question ∨ u = question ∨ t = u := by
      rcases hta.2.resolve_left ht with rfl | rfl
      · exact .inl rfl
      · exact .inr ((hua.2.resolve_left hu).imp_right Eq.symm)
    simp [segmentMoves, ht, hu, h]
  stars {p q} c h := by
    rcases h.cases_head with h | ⟨w, hw, h⟩
    · cases h
    · refine .head ?_ h
      simp [segmentMoves] at hw ⊢
      tauto

/-- A name can be read as a pattern, and it has that name. -/
theorem matches_self (h : slash ∉ name) : Matches star FitsUnit name name := by
  induction name with
  | nil => exact .nil
  | cons x name ih =>
    obtain ⟨hx, hname⟩ := not_or.1 (List.mem_cons.not.1 h)
    exact .cons ⟨Ne.symm hx, .inr (.inr rfl)⟩ (ih hname)

theorem matches_globStar (h : Matches star FitsUnit p name) :
    Matches star FitsUnit globStar name := by
  induction h with
  | nil => exact .skip (.skip .nil)
  | skip _ ih => exact ih
  | absorb h _ ih => exact .absorb h ih
  | one _ h _ ih => exact .absorb (segments_explored.fits_star h) ih

theorem resources_explored : Explores globStar FitsName
    (fun t u => t = u ∨ segmentPatternsOverlap t u = some true) (fun t => t ≠ [] ∧ slash ∉ t)
    resourceMoves where
  fits_star h := ⟨h.1, matches_globStar h.2⟩
  exists_letter {t} ht := ⟨t, ht.1, matches_self ht.2⟩
  exists_common {t u} ht hu h := by
    rcases h with rfl | h
    · exact ⟨t, ⟨ht.1, matches_self ht.2⟩, ht.1, matches_self ht.2⟩
    · obtain ⟨name, hname, hleft, hright⟩ := (overlap_iff segments_explored ht.1 hu.1
        (fun x hx h => ht.2 (h ▸ hx)) fun x hx h => hu.2 (h ▸ hx)).1 h
      exact ⟨name, ⟨hname, hleft⟩, hname, hright⟩
  move {v w} h := by
    obtain ⟨_ | ⟨t, p⟩, _ | ⟨u, q⟩, c⟩ := v <;> simp [resourceMoves] at h
    · obtain ⟨rfl, rfl | rfl⟩ := h
      · exact .skipRight
      · exact .stay
    · obtain ⟨rfl, rfl | rfl⟩ := h
      · exact .skipLeft
      · exact .stay
    · rcases h with ⟨rfl, rfl | rfl⟩ | ⟨rfl, rfl | rfl⟩ | h
      · exact .skipLeft
      · exact .stay
      · exact .skipRight
      · exact .stay
      · split_ifs at h with hboth hu ht hfound <;> simp at h
        · obtain ⟨rfl, rfl⟩ := hboth
          exact h ▸ .both (.inl rfl)
        · exact h ▸ hu ▸ .absorbRight
        · exact h ▸ ht ▸ .absorbLeft
        · exact h ▸ .both (.inr hfound)
  length_le := by
    rintro ⟨_ | ⟨t, p⟩, _ | ⟨u, q⟩, c⟩ <;> simp only [resourceMoves] <;> split_ifs <;> simp_all
  skipLeft p q c := by simp [resourceMoves]
  skipRight p q c := by simp [resourceMoves]
  absorbLeft p q c hu := by simp [resourceMoves, hu]
  absorbRight p q c ht := by simp [resourceMoves, ht]
  both {t u a} p q c ht hu hta hua := by
    have h := overlap_of_common segments_explored hta.2 hua.2 hta.1
    simp [resourceMoves, ht, hu, h, segmentPatternsOverlap]
  stars {p q} c h := .head (by simp [resourceMoves]) h

theorem slash_notMem_segment (resource : JavaScriptString) :
    ∀ segment ∈ resource.splitOn slash, slash ∉ segment := by
  induction resource with
  | nil => simp
  | cons x resource ih =>
    rw [List.splitOn_cons_eq_if_modifyHead]
    split_ifs with hx
    · simpa using ih
    · cases hsegments : resource.splitOn slash with
      | nil => simp
      | cons segment segments =>
        rw [hsegments] at ih
        rw [beq_iff_eq] at hx
        simpa [Ne.symm hx] using ih

/-- No segment is empty. -/
def Canonical (resource : JavaScriptString) : Prop := [] ∉ resource.splitOn slash

instance : Decidable (Canonical left) := inferInstanceAs (Decidable (_ ∉ _))

def Share (left right : JavaScriptString) : Prop :=
  ∃ path, path ≠ [] ∧ MatchesPath left path ∧ MatchesPath right path

theorem overlap_iff_share (hleft : Canonical left) (hright : Canonical right) :
    resourcePatternsOverlap left right = some true ↔ Share left right :=
  overlap_iff resources_explored (List.splitOn_ne_nil _ _) (List.splitOn_ne_nil _ _)
    (fun segment h => ⟨fun hnil => hleft (hnil ▸ h), slash_notMem_segment left segment h⟩)
    fun segment h => ⟨fun hnil => hright (hnil ▸ h), slash_notMem_segment right segment h⟩

/-- The search ends, and two resources overlap if and only if they share a path. -/
theorem resourcePatternsOverlap_exact (hleft : Canonical left) (hright : Canonical right) :
    ∃ found, resourcePatternsOverlap left right = some found ∧
      (found = true ↔ Share left right) := by
  obtain ⟨found, hfound⟩ := Option.ne_none_iff_exists'.1
    (overlap_ne_none resources_explored (left.splitOn slash) (right.splitOn slash))
  refine ⟨found, hfound, ?_⟩
  rw [← overlap_iff_share hleft hright, resourcePatternsOverlap, hfound, Option.some_inj]

/-- `**` and `a/?`. -/
theorem resourcePatternsOverlap_exact_globStar : ∃ found,
    resourcePatternsOverlap globStar [0x61, slash, question] = some found ∧
      (found = true ↔ Share globStar [0x61, slash, question]) :=
  resourcePatternsOverlap_exact (by decide) (by decide)

end Paths

section Preflight

inductive Mode where
  | read
  | write
  | exclusiveWrite

def Mode.text : Mode → String
  | read => "read"
  | write => "write"
  | exclusiveWrite => "exclusive-write"

structure ExecutionClaim where
  resource : JavaScriptString
  mode : Mode

structure NawabariClaimEvidence extends ExecutionClaim where
  (claimId sessionId : JavaScriptString)

structure NawabariSession where
  (sessionId worktree branch state : JavaScriptString)
  label : Option JavaScriptString

structure NawabariClaimEvidenceSnapshot where
  sessions : List NawabariSession
  claims : List NawabariClaimEvidence

structure ManagerClaimTaskIdentity where
  (taskId taskSlug : JavaScriptString)
  issueRef : Option JavaScriptString

/-- A conflict, with the session that owns the existing claim and its task, if they are known. -/
structure ManagerClaimConflict where
  requested : ExecutionClaim
  existing : NawabariClaimEvidence
  owner : Option NawabariSession
  task : Option ManagerClaimTaskIdentity

def modesConflict : Mode → Mode → Bool
  | .read, .read | .read, .write | .write, .read => false
  | _, _ => true

/-- What the conflicts are sorted by. -/
def conflictKey (conflict : ManagerClaimConflict) : JavaScriptString :=
  [0].intercalate [conflict.existing.sessionId, conflict.existing.resource,
    javaScriptString conflict.existing.mode.text, conflict.requested.resource,
    javaScriptString conflict.requested.mode.text, conflict.existing.claimId]

structure ClaimPreflightEvidence where
  source : String
  claimSchemaVersion : ℕ
  observedAt : String
  bounded : Bool

structure ManagerClaimPreflight where
  (status authoritative : String)
  evidence : ClaimPreflightEvidence
  conflicts : List ManagerClaimConflict
  conflictsTruncated : Bool
  safeActions : List String
  message : Option String

def maxManagerClaimConflicts : ℕ := 32

variable (claims : List ExecutionClaim) (snapshot : NawabariClaimEvidenceSnapshot)
  (observedAt : String) (taskBySession : JavaScriptString → Option ManagerClaimTaskIdentity)

/-- Of two sessions with one id the later one is in the map. -/
def conflictFromEvidence (requested : ExecutionClaim) (existing : NawabariClaimEvidence) :
    ManagerClaimConflict :=
  { requested, existing, task := taskBySession existing.sessionId
    owner := snapshot.sessions.reverse.find? (·.sessionId = existing.sessionId) }

def conflictsOf : List ManagerClaimConflict :=
  claims.flatMap fun requested => (snapshot.claims.filter fun existing =>
    resourcePatternsOverlap requested.resource existing.resource = some true ∧
      modesConflict requested.mode existing.mode = true).map
    (conflictFromEvidence snapshot taskBySession requested)

def createClaimPreflight : ManagerClaimPreflight :=
  let conflicts := (conflictsOf claims snapshot taskBySession).mergeSort
    fun left right => conflictKey left ≤ conflictKey right
  { status := if conflicts.length = 0 then "clear" else "conflict"
    authoritative := "nawabari"
    evidence := { source := "nawabari.session-list+session-claims", claimSchemaVersion := 2
                  observedAt, bounded := true }
    conflicts := conflicts.take maxManagerClaimConflicts
    conflictsTruncated := maxManagerClaimConflicts < conflicts.length
    safeActions := if conflicts.length = 0 then ["refresh-preflight"]
      else ["inspect-blocking-session", "refresh-preflight", "reconcile", "retain-session"]
    message := if conflicts.length = 0 then
      some "Nawabari reports no conflicting active claim." else none }

/-- Two claims share a path in modes that conflict. -/
def Conflicting (requested : ExecutionClaim) (existing : NawabariClaimEvidence) : Prop :=
  modesConflict requested.mode existing.mode = true ∧ Share requested.resource existing.resource

/-- The preflight is clear exactly without conflicts. It shows conflicts only, and each of them
unless it says that there are more. -/
structure Tells (preflight : ManagerClaimPreflight) : Prop where
  clear_iff : preflight.status = "clear" ↔
    ∀ requested ∈ claims, ∀ existing ∈ snapshot.claims, ¬ Conflicting requested existing
  sound : ∀ conflict ∈ preflight.conflicts, conflict.requested ∈ claims ∧
    conflict.existing ∈ snapshot.claims ∧ Conflicting conflict.requested conflict.existing
  complete : preflight.conflictsTruncated = false → ∀ requested ∈ claims,
    ∀ existing ∈ snapshot.claims, Conflicting requested existing →
      ∃ conflict ∈ preflight.conflicts,
        conflict.requested = requested ∧ conflict.existing = existing

variable {claims snapshot}

theorem mem_conflictsOf_iff (hclaims : ∀ claim ∈ claims, Canonical claim.resource)
    (hevidence : ∀ claim ∈ snapshot.claims, Canonical claim.resource)
    (conflict : ManagerClaimConflict) : conflict ∈ conflictsOf claims snapshot taskBySession ↔
      ∃ requested ∈ claims, ∃ existing ∈ snapshot.claims, Conflicting requested existing ∧
        conflictFromEvidence snapshot taskBySession requested existing = conflict := by
  simp only [conflictsOf, List.mem_flatMap, List.mem_map, List.mem_filter, decide_eq_true_eq,
    and_assoc, Conflicting]
  refine exists_congr fun requested => and_congr_right fun hrequested =>
    exists_congr fun existing => and_congr_right fun hexisting => ?_
  rw [overlap_iff_share (hclaims _ hrequested) (hevidence _ hexisting), and_left_comm]

theorem createClaimPreflight_tells (hclaims : ∀ claim ∈ claims, Canonical claim.resource)
    (hevidence : ∀ claim ∈ snapshot.claims, Canonical claim.resource) :
    Tells claims snapshot (createClaimPreflight claims snapshot observedAt taskBySession) := by
  have hmem := mem_conflictsOf_iff taskBySession hclaims hevidence
  constructor
  · have hclear : (createClaimPreflight claims snapshot observedAt taskBySession).status = "clear" ↔
        conflictsOf claims snapshot taskBySession = [] := by
      simp [createClaimPreflight]
    rw [hclear, List.eq_nil_iff_forall_not_mem]
    constructor
    · exact fun hnone requested hrequested existing hexisting h =>
        hnone _ ((hmem _).2 ⟨requested, hrequested, existing, hexisting, h, rfl⟩)
    · intro hnone conflict hconflict
      obtain ⟨requested, hrequested, existing, hexisting, h, -⟩ := (hmem conflict).1 hconflict
      exact hnone requested hrequested existing hexisting h
  · intro conflict hconflict
    obtain ⟨requested, hrequested, existing, hexisting, h, rfl⟩ :=
      (hmem conflict).1 (List.mem_mergeSort.1 (List.mem_of_mem_take hconflict))
    exact ⟨hrequested, hexisting, h⟩
  · intro hshort requested hrequested existing hexisting h
    refine ⟨conflictFromEvidence snapshot taskBySession requested existing, ?_, rfl, rfl⟩
    rw [createClaimPreflight, List.take_of_length_le (Nat.not_lt.1 (of_decide_eq_false hshort)),
      List.mem_mergeSort]
    exact (hmem _).2 ⟨requested, hrequested, existing, hexisting, h, rfl⟩

theorem createClaimPreflight_tells_globStar :
    Tells [⟨globStar, .read⟩] ⟨[], [⟨⟨[0x61], .exclusiveWrite⟩, [], []⟩]⟩
      (createClaimPreflight [⟨globStar, .read⟩] ⟨[], [⟨⟨[0x61], .exclusiveWrite⟩, [], []⟩]⟩ ""
        fun _ => none) :=
  createClaimPreflight_tells _ _ (by decide) (by decide)

end Preflight

end Mottainai.ClaimPreflight

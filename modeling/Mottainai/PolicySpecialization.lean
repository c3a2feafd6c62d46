import Mathlib.Data.List.Dedup
import Mottainai.EffectAnalysis

/-!
# What a specialized policy keeps of its parents

The policies of a chain are applied one after the other. As long as none of them replaces what was
resolved before, every effect that was denied stays denied. Of the purities the strongest one is
kept, unless one of them is unknown: that purity takes the place of every other one.
-/

namespace Mottainai.Effects

open JsonValues OrderedMaps OrderedMaps.OrderedMap

section Purities

variable {purities : List Purity} {current : Option Purity}

def UnknownBesideKnown (purities : List Purity) : Prop :=
  .unknown ∈ purities ∧ ∃ purity ∈ purities, purity ≠ .unknown

theorem mergePurity_none_left (next : Option Purity) : mergePurity none next = next := by
  cases next <;> rfl

theorem mergePurity_none_right (current : Option Purity) : mergePurity current none = current := by
  cases current <;> rfl

structure Merges (purities : List Purity) (merged : Option Purity) : Prop where
  unknown : .unknown ∈ purities → merged = some .unknown
  strongest : .unknown ∉ purities → ∀ purity ∈ purities,
    ∃ found, merged = some found ∧ purity.strength ≤ found.strength
  found : ∀ purity, merged = some purity → purity ∈ purities

theorem Merges.nil : Merges [] none where
  unknown h := absurd h List.not_mem_nil
  strongest _ _ h := absurd h List.not_mem_nil
  found _ h := by cases h

theorem Merges.snoc (h : Merges purities current) (next : Purity) :
    Merges (purities ++ [next]) (mergePurity current (some next)) := by
  cases current with
  | none =>
    have hnil : purities = [] := by
      apply List.eq_nil_iff_forall_not_mem.mpr
      intro purity hmem
      by_cases hunknown : .unknown ∈ purities
      · cases h.unknown hunknown
      · obtain ⟨found, hfound, -⟩ := h.strongest hunknown purity hmem
        cases hfound
    subst hnil
    rw [mergePurity_none_left, List.nil_append]
    refine ⟨fun hmem => ?_, fun _ purity hmem => ?_, fun purity hpurity => ?_⟩
    · rw [List.mem_singleton.mp hmem]
    · exact ⟨next, rfl, by rw [List.mem_singleton.mp hmem]⟩
    · rw [Option.some.inj hpurity]
      exact List.mem_singleton_self _
  | some purity =>
    have hmem := h.found purity rfl
    by_cases hunknown : purity = .unknown ∨ next = .unknown
    · have hmerged : mergePurity (some purity) (some next) = some .unknown := if_pos hunknown
      have hlist : .unknown ∈ purities ++ [next] := by
        rcases hunknown with rfl | rfl
        · exact List.mem_append_left _ hmem
        · exact List.mem_append_right _ (List.mem_singleton_self _)
      rw [hmerged]
      refine ⟨fun _ => rfl, fun hnone => absurd hlist hnone, fun found hfound => ?_⟩
      rw [← Option.some.inj hfound]
      exact hlist
    · obtain ⟨hpurity, hnext⟩ := not_or.mp hunknown
      have hclean : .unknown ∉ purities := fun hin => hpurity (Option.some.inj (h.unknown hin))
      have hmerged : mergePurity (some purity) (some next) =
          if purity.strength < next.strength then some next else some purity := if_neg hunknown
      have hstrong : ∃ found, mergePurity (some purity) (some next) = some found ∧
          purity.strength ≤ found.strength ∧ next.strength ≤ found.strength ∧
            (found = purity ∨ found = next) := by
        rw [hmerged]
        split_ifs with hlt
        · exact ⟨next, rfl, le_of_lt hlt, le_rfl, .inr rfl⟩
        · exact ⟨purity, rfl, le_rfl, not_lt.mp hlt, .inl rfl⟩
      obtain ⟨found, hfound, hleft, hright, hone⟩ := hstrong
      rw [hfound]
      refine ⟨fun hin => ?_, fun _ other hother => ⟨found, rfl, ?_⟩, fun other hother => ?_⟩
      · rcases List.mem_append.mp hin with hin | hin
        · exact absurd hin hclean
        · exact absurd (List.mem_singleton.mp hin).symm hnext
      · rcases List.mem_append.mp hother with hother | hother
        · obtain ⟨strongest, hstrongest, hle⟩ := h.strongest hclean other hother
          rw [← Option.some.inj hstrongest] at hle
          exact hle.trans hleft
        · rw [List.mem_singleton.mp hother]
          exact hright
      · rw [← Option.some.inj hother]
        rcases hone with rfl | rfl
        · exact List.mem_append_left _ hmem
        · exact List.mem_append_right _ (List.mem_singleton_self _)

theorem Merges.as_strong_iff (h : Merges purities current) :
    (∀ purity ∈ purities, ∃ found, current = some found ∧ purity.strength ≤ found.strength) ↔
      ¬ UnknownBesideKnown purities := by
  constructor
  · rintro hstrong ⟨hunknown, purity, hmem, hne⟩
    obtain ⟨found, hfound, hle⟩ := hstrong purity hmem
    rw [h.unknown hunknown] at hfound
    rw [← Option.some.inj hfound] at hle
    cases purity with
    | unknown => exact hne rfl
    | _ => exact absurd hle (by decide)
  · intro hclean purity hmem
    by_cases hunknown : .unknown ∈ purities
    · have hpurity : purity = .unknown := by
        by_contra hne
        exact hclean ⟨hunknown, purity, hmem, hne⟩
      exact ⟨.unknown, h.unknown hunknown, by rw [hpurity]⟩
    · exact h.strongest hunknown purity hmem

end Purities

section Records

variable {records : List EffectPolicy} {resolution : PolicyResolution} {policy : EffectPolicy}

def appliedRecords (subjectId : LogicalId) (policyIds : List LogicalId) (first : EffectPolicy)
    (rest : List EffectPolicy) : PolicyResolution :=
  rest.foldl (fun resolution policy => applyPolicy false policy resolution)
    (applyPolicy true first
      { policyIds, subjectId, allow := [], deny := [], purity := none, inheritedFrom := []
        allowSources := OrderedMap.empty, denySources := OrderedMap.empty, puritySource := none })

/-- The records that add to what was resolved before them. -/
def extending (rest : List EffectPolicy) : List EffectPolicy :=
  rest.filter (·.inheritance.getD .extend = .extend)

def declaredPurities (records : List EffectPolicy) : List Purity := records.filterMap (·.purity)

/-- The part of a resolution that an inheriting record leaves alone. -/
structure SameConstraints (left right : PolicyResolution) : Prop where
  allow : left.allow = right.allow
  deny : left.deny = right.deny
  purity : left.purity = right.purity
  allowSources : left.allowSources = right.allowSources
  denySources : left.denySources = right.denySources
  puritySource : left.puritySource = right.puritySource

theorem SameConstraints.trans {left middle right : PolicyResolution}
    (h : SameConstraints left middle) (h' : SameConstraints middle right) :
    SameConstraints left right :=
  ⟨h.allow.trans h'.allow, h.deny.trans h'.deny, h.purity.trans h'.purity,
    h.allowSources.trans h'.allowSources, h.denySources.trans h'.denySources,
    h.puritySource.trans h'.puritySource⟩

theorem sameConstraints_noted (subjectId : LogicalId) :
    SameConstraints
      (if policy.subject ≠ subjectId ∧ policy.subject ∉ resolution.inheritedFrom then
        { resolution with inheritedFrom := resolution.inheritedFrom ++ [policy.subject] }
      else resolution) resolution := by
  split_ifs <;> exact ⟨rfl, rfl, rfl, rfl, rfl, rfl⟩

theorem applyPolicy_inherit (h : policy.inheritance = some .inherit) :
    SameConstraints (applyPolicy false policy resolution) resolution := by
  have happlied : applyPolicy false policy resolution =
      if policy.subject ≠ resolution.subjectId ∧ policy.subject ∉ resolution.inheritedFrom then
        { resolution with inheritedFrom := resolution.inheritedFrom ++ [policy.subject] }
      else resolution := by
    simp [applyPolicy, h]
  rw [happlied]
  exact sameConstraints_noted resolution.subjectId

/-- An extending record adds its constraints. -/
structure Extends (policy : EffectPolicy) (before after : PolicyResolution) : Prop where
  allow : after.allow = sortedUniqueEffects (before.allow ++ policy.allow)
  deny : after.deny = sortedUniqueEffects (before.deny ++ policy.deny)
  purity : after.purity = mergePurity before.purity policy.purity
  allowSources : after.allowSources = setSources before.allowSources policy.allow policy.id
  denySources : after.denySources = setSources before.denySources policy.deny policy.id
  puritySource : after.puritySource =
    if mergePurity before.purity policy.purity = before.purity then before.puritySource
    else some policy.id

theorem applyPolicy_extend (h : policy.inheritance.getD .extend = .extend) :
    Extends policy resolution (applyPolicy false policy resolution) := by
  simp only [applyPolicy, h]
  constructor <;> simp <;> split_ifs <;> rfl

theorem Extends.congr {before after before' after' : PolicyResolution}
    (h : Extends policy before after) (h' : Extends policy before' after')
    (hsame : SameConstraints before before') : SameConstraints after after' where
  allow := by rw [h.allow, h'.allow, hsame.allow]
  deny := by rw [h.deny, h'.deny, hsame.deny]
  purity := by rw [h.purity, h'.purity, hsame.purity]
  allowSources := by rw [h.allowSources, h'.allowSources, hsame.allowSources]
  denySources := by rw [h.denySources, h'.denySources, hsame.denySources]
  puritySource := by rw [h.puritySource, h'.puritySource, hsame.purity, hsame.puritySource]

theorem extend_or_inherit (h : policy.inheritance ≠ some .replace) :
    policy.inheritance.getD .extend = .extend ∨ policy.inheritance = some .inherit := by
  match hmode : policy.inheritance with
  | none => exact .inl rfl
  | some .inherit => exact .inr rfl
  | some .extend => exact .inl rfl
  | some .replace => exact absurd hmode h

variable {rest : List EffectPolicy}

theorem extending_cons_extend (h : policy.inheritance.getD .extend = .extend) :
    extending (policy :: rest) = policy :: extending rest := by
  simp [extending, h]

theorem extending_cons_inherit (h : policy.inheritance = some .inherit) :
    extending (policy :: rest) = extending rest := by
  simp [extending, h]

/-- Of a chain without replacements the extending records alone settle the constraints. -/
theorem sameConstraints_foldl (hrest : ∀ policy ∈ rest, policy.inheritance ≠ some .replace) :
    ∀ left right : PolicyResolution, SameConstraints left right →
      SameConstraints (rest.foldl (fun resolution policy => applyPolicy false policy resolution) left)
        ((extending rest).foldl (fun resolution policy => applyPolicy false policy resolution) right) := by
  induction rest with
  | nil => exact fun _ _ hsame => hsame
  | cons policy rest ih =>
    intro left right hsame
    have hlater := ih fun policy hmem => hrest policy (List.mem_cons_of_mem _ hmem)
    rw [List.foldl_cons]
    rcases extend_or_inherit (hrest policy List.mem_cons_self) with hextend | hinherit
    · rw [extending_cons_extend hextend, List.foldl_cons]
      exact hlater _ _ ((applyPolicy_extend hextend).congr (applyPolicy_extend hextend) hsame)
    · rw [extending_cons_inherit hinherit]
      exact hlater _ _ ((applyPolicy_inherit hinherit).trans hsame)

/-- The constraints of a resolution are those of the records together. -/
structure Accumulates (records : List EffectPolicy) (resolution : PolicyResolution) : Prop where
  deny : ∀ effect, effect ∈ resolution.deny ↔ ∃ policy ∈ records, effect ∈ policy.deny
  purity : Merges (declaredPurities records) resolution.purity

theorem mem_sortedUniqueEffects {effect : EffectId} {effects : List EffectId} :
    effect ∈ sortedUniqueEffects effects ↔ effect ∈ effects := by
  rw [sortedUniqueEffects, mem_sortBy, List.mem_dedup]

/-- The first record sets the constraints, whatever its inheritance is. -/
theorem accumulates_first (policy : EffectPolicy) (unresolved : PolicyResolution) :
    Accumulates [policy] (applyPolicy true policy unresolved) := by
  have hset : (applyPolicy true policy unresolved).deny = policy.deny ∧
      (applyPolicy true policy unresolved).purity = policy.purity := by
    constructor <;> simp only [applyPolicy] <;> simp <;> split_ifs <;> rfl
  constructor
  · intro effect
    simp [hset.1]
  · rw [hset.2]
    cases hpurity : policy.purity with
    | none => simpa [declaredPurities, hpurity] using Merges.nil
    | some purity => simpa [declaredPurities, hpurity, mergePurity] using Merges.nil.snoc purity

theorem Accumulates.extend (h : Accumulates records resolution)
    (hextend : policy.inheritance.getD .extend = .extend) :
    Accumulates (records ++ [policy]) (applyPolicy false policy resolution) := by
  have hextends := @applyPolicy_extend resolution policy hextend
  constructor
  · intro effect
    rw [hextends.deny, mem_sortedUniqueEffects, List.mem_append, h.deny]
    simp [or_and_right, exists_or]
  · rw [hextends.purity]
    have hsplit : declaredPurities (records ++ [policy]) =
        declaredPurities records ++ declaredPurities [policy] := List.filterMap_append
    rw [hsplit]
    cases hpurity : policy.purity with
    | none =>
      rw [mergePurity_none_right]
      simpa [declaredPurities, hpurity] using h.purity
    | some purity => simpa [declaredPurities, hpurity] using h.purity.snoc purity

theorem Accumulates.inherit (h : Accumulates records resolution)
    (hinherit : policy.inheritance = some .inherit) :
    Accumulates records (applyPolicy false policy resolution) := by
  have hsame := @applyPolicy_inherit resolution policy hinherit
  constructor
  · rw [hsame.deny]
    exact h.deny
  · rw [hsame.purity]
    exact h.purity

theorem Accumulates.foldl (hrest : ∀ policy ∈ rest, policy.inheritance ≠ some .replace)
    (h : Accumulates records resolution) :
    Accumulates (records ++ extending rest)
      (rest.foldl (fun resolution policy => applyPolicy false policy resolution) resolution) := by
  induction rest generalizing records resolution with
  | nil => simpa [extending] using h
  | cons policy rest ih =>
    have hlater := fun policy hmem => hrest policy (List.mem_cons_of_mem _ hmem)
    rcases extend_or_inherit (hrest policy List.mem_cons_self) with hextend | hinherit
    · rw [extending_cons_extend hextend, List.append_cons]
      exact ih hlater (h.extend hextend)
    · rw [extending_cons_inherit hinherit]
      exact ih hlater (h.inherit hinherit)

end Records

section Preservation

variable {records : List EffectPolicy} {resolution : PolicyResolution}

def violationOf (subjectId : LogicalId) (resolution : PolicyResolution) (code : EffectViolationCode)
    (effect : EffectId) (item : EffectEvidence) : EffectViolation :=
  { subjectId, policyId := sourcePolicyId resolution code effect, code, effect, evidence := item }

variable {rest : List EffectPolicy} {effect : EffectId}
variable (subjectId : LogicalId)

theorem reported_of_code {actualEffects : List EffectId} {evidence : List EffectEvidence}
    {item : EffectEvidence} {code : EffectViolationCode} (hactual : effect ∈ actualEffects)
    (hitem : evidence.find? (·.effect = effect) = some item)
    (hcode : code ∈ violationCodes resolution effect) :
    ∃ violation ∈ evaluateViolations subjectId actualEffects evidence resolution,
      violationKey violation = violationKey (violationOf subjectId resolution code effect item) := by
  have hfiled : Filed violationKey (OrderedMap.empty : OrderedMap String EffectViolation) := nofun
  have hcoded := List.mem_map_of_mem (f := fun code => violationOf subjectId resolution code effect item)
    hcode
  simp only [evaluateViolations, mem_sortBy]
  refine (hfiled.read_foldl_set (fun _ _ hsame => hsame) _ _).mpr (.inr ⟨_,
    List.mem_flatMap.mpr ⟨effect, hactual, ?_⟩, rfl⟩)
  rw [hitem]
  exact hcoded

def Breaks (policy : EffectPolicy) (code : EffectViolationCode) (effect : EffectId) : Prop :=
  (code = .forbiddenEffect ∧ effect ∈ policy.deny) ∨
    (code = .declaredPureViolation ∧ (policy.purity = some .pure ∨
      policy.purity = some .readonly ∧ mutationEffect effect = true))

/-- What a resolution keeps of the records that it is resolved from. -/
structure Preserves (records : List EffectPolicy) (resolution : PolicyResolution) : Prop where
  deny : ∀ policy ∈ records, ∀ effect ∈ policy.deny, effect ∈ resolution.deny
  purity : ∀ policy ∈ records, ∀ declared, policy.purity = some declared →
    ∃ purity, resolution.purity = some purity ∧ declared.strength ≤ purity.strength
  violations : ∀ policy ∈ records, ∀ code effect, Breaks policy code effect →
    ∀ (subjectId : LogicalId) (actualEffects : List EffectId) (evidence : List EffectEvidence)
      (item : EffectEvidence), effect ∈ actualEffects →
      evidence.find? (·.effect = effect) = some item →
      ∃ violation ∈ evaluateViolations subjectId actualEffects evidence resolution,
        violationKey violation = violationKey (violationOf subjectId resolution code effect item)

theorem mem_declaredPurities {declared : Purity} :
    declared ∈ declaredPurities records ↔ ∃ policy ∈ records, policy.purity = some declared :=
  List.mem_filterMap

/-- An effect that breaks a constraint breaks every constraint that is at least as strong. -/
theorem declaredPure_of_strength {declared purity : Purity}
    (hbroken : some declared = some .pure ∨
      some declared = some Purity.readonly ∧ mutationEffect effect = true)
    (hle : declared.strength ≤ purity.strength) :
    some purity = some .pure ∨ some purity = some Purity.readonly ∧ mutationEffect effect = true := by
  rcases hbroken with hpure | ⟨hreadonly, hmutation⟩
  · cases Option.some.inj hpure
    cases purity with
    | pure => exact .inl rfl
    | _ => exact absurd hle (by decide)
  · cases Option.some.inj hreadonly
    cases purity with
    | pure => exact .inl rfl
    | readonly => exact .inr ⟨rfl, hmutation⟩
    | _ => exact absurd hle (by decide)

theorem Accumulates.preserves_iff (h : Accumulates records resolution) :
    Preserves records resolution ↔ ¬ UnknownBesideKnown (declaredPurities records) := by
  rw [← h.purity.as_strong_iff]
  constructor
  · intro hpreserves declared hdeclared
    obtain ⟨policy, hmem, hpurity⟩ := mem_declaredPurities.mp hdeclared
    exact hpreserves.purity policy hmem declared hpurity
  · intro hstrong
    have hpurity : ∀ policy ∈ records, ∀ declared, policy.purity = some declared →
        ∃ purity, resolution.purity = some purity ∧ declared.strength ≤ purity.strength :=
      fun policy hmem declared hdeclared =>
        hstrong declared (mem_declaredPurities.mpr ⟨policy, hmem, hdeclared⟩)
    have hdeny : ∀ policy ∈ records, ∀ effect ∈ policy.deny, effect ∈ resolution.deny :=
      fun policy hmem effect heffect => (h.deny effect).mpr ⟨policy, hmem, heffect⟩
    refine ⟨hdeny, hpurity, ?_⟩
    intro policy hmem code effect hbreaks subjectId actualEffects evidence item hactual hitem
    apply reported_of_code subjectId hactual hitem
    rcases hbreaks with ⟨rfl, heffect⟩ | ⟨rfl, hbroken⟩
    · simp [violationCodes, hdeny policy hmem effect heffect]
    · cases hdeclared : policy.purity with
      | none => simp [hdeclared] at hbroken
      | some declared =>
        rw [hdeclared] at hbroken
        obtain ⟨purity, hresolved, hle⟩ := hpurity policy hmem declared hdeclared
        have hviolated := declaredPure_of_strength hbroken hle
        rw [← hresolved] at hviolated
        simp [violationCodes, hviolated]

def resolveRecords (subjectId : LogicalId) (first : EffectPolicy) (rest : List EffectPolicy) :
    PolicyResolution :=
  let resolved := appliedRecords subjectId ((first :: rest).map (·.id)) first rest
  { resolved with
    allow := sortedUniqueEffects resolved.allow
    deny := sortedUniqueEffects resolved.deny
    inheritedFrom := sortBy id resolved.inheritedFrom }

theorem resolvePolicy_eq_some {declarations : Declarations} {subjectId : LogicalId}
    {first : EffectPolicy} (h : policyRecords declarations subjectId = first :: rest) :
    resolvePolicy declarations subjectId = some (resolveRecords subjectId first rest) := by
  rw [resolvePolicy, h]
  rfl

theorem accumulates_resolveRecords (first : EffectPolicy)
    (hrest : ∀ policy ∈ rest, policy.inheritance ≠ some .replace) :
    Accumulates (first :: extending rest) (resolveRecords subjectId first rest) := by
  have happlied : Accumulates ([first] ++ extending rest)
      (appliedRecords subjectId ((first :: rest).map (·.id)) first rest) :=
    (accumulates_first first _).foldl hrest
  refine ⟨fun effect => ?_, happlied.purity⟩
  exact mem_sortedUniqueEffects.trans (happlied.deny effect)

theorem sameConstraints_first (first : EffectPolicy) {left right : PolicyResolution} :
    SameConstraints (applyPolicy true first left) (applyPolicy true first right) := by
  simp only [applyPolicy]
  constructor <;> simp <;> split_ifs <;> rfl

/-- Inheriting records change nothing: the constraints are those that are resolved without them. -/
theorem sameConstraints_resolveRecords (first : EffectPolicy)
    (hrest : ∀ policy ∈ rest, policy.inheritance ≠ some .replace) :
    SameConstraints (resolveRecords subjectId first rest)
      (resolveRecords subjectId first (extending rest)) := by
  have happlied : SameConstraints (appliedRecords subjectId ((first :: rest).map (·.id)) first rest)
      (appliedRecords subjectId ((first :: extending rest).map (·.id)) first (extending rest)) :=
    sameConstraints_foldl hrest _ _ (sameConstraints_first first)
  refine ⟨?_, ?_, happlied.purity, happlied.allowSources, happlied.denySources,
    happlied.puritySource⟩
  · exact congrArg sortedUniqueEffects happlied.allow
  · exact congrArg sortedUniqueEffects happlied.deny

/-- In a chain without replacements after the first record, inheriting records change nothing, and
the constraints of the others are kept unless an unknown purity hides a known one. -/
theorem specialization_preserves_iff (declarations : Declarations) (subjectId : LogicalId)
    (first : EffectPolicy) (rest : List EffectPolicy)
    (hrecords : policyRecords declarations subjectId = first :: rest)
    (hrest : ∀ policy ∈ rest, policy.inheritance ≠ some .replace) :
    ∃ resolution, resolvePolicy declarations subjectId = some resolution ∧
      SameConstraints resolution (resolveRecords subjectId first (extending rest)) ∧
      (Preserves (first :: extending rest) resolution ↔
        ¬ UnknownBesideKnown (declaredPurities (first :: extending rest))) :=
  ⟨_, resolvePolicy_eq_some hrecords, sameConstraints_resolveRecords subjectId first hrest,
    (accumulates_resolveRecords subjectId first hrest).preserves_iff⟩

end Preservation

section Example

def projectPolicy : EffectPolicy :=
  { id := "policy:project", subject := "project", allow := [], deny := [], purity := some .pure
    inheritance := none }

def symbolPolicy : EffectPolicy :=
  { id := "policy:symbol", subject := "symbol", allow := [], deny := [], purity := some .unknown
    inheritance := some .extend }

def specialized : Declarations :=
  { projectId := "project", components := [], relations := []
    effectPolicies := [symbolPolicy, projectPolicy] }

theorem policyRecords_specialized : policyRecords specialized "symbol" = [projectPolicy, symbolPolicy] := by
  rfl

theorem specialized_not_preserved : ∃ resolution,
    resolvePolicy specialized "symbol" = some resolution ∧
      ¬ Preserves [projectPolicy, symbolPolicy] resolution := by
  refine ⟨_, resolvePolicy_eq_some policyRecords_specialized, fun hpreserves => ?_⟩
  obtain ⟨purity, hpurity, hle⟩ := hpreserves.purity projectPolicy List.mem_cons_self .pure rfl
  cases Option.some.inj hpurity
  exact absurd hle (by decide)

theorem specialization_preserves_iff_specialized : ∃ resolution,
    resolvePolicy specialized "symbol" = some resolution ∧
      SameConstraints resolution (resolveRecords "symbol" projectPolicy (extending [symbolPolicy])) ∧
      (Preserves (projectPolicy :: extending [symbolPolicy]) resolution ↔
        ¬ UnknownBesideKnown (declaredPurities (projectPolicy :: extending [symbolPolicy]))) :=
  specialization_preserves_iff specialized "symbol" projectPolicy [symbolPolicy]
    policyRecords_specialized (by simp [symbolPolicy])

end Example

end Mottainai.Effects

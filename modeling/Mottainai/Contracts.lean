import Mathlib.Data.List.TakeWhile
import Mottainai.JsonKeyOrder
import Mottainai.SeparatedTexts

/-!
# How contracts and signatures are compared

Each part of a contract is compared by a rule of its own, and every rule that finds a difference
raises the level of the review and gives a reason. Renamed and reordered parameters, the order of
conditions and the external resources are not among what the rules compare. The text of a signature
is read by counting brackets, for which the `>` of an arrow is no bracket. The comparison does not
look at the earlier types and at the returned type once parameters were added, and it takes a
parameter for optional by the characters of its text.
-/

namespace Mottainai.SemanticDiff

open JsonValues

section Definitions

structure ContractAssertion where
  expression : String
  description : Option String
  deriving DecidableEq

structure ContractParameter where
  name : String
  type : Option String
  required : Option Bool
  domain : Option String
  deriving DecidableEq

structure CapabilityRequirement where
  name : String
  description : Option String
  deriving DecidableEq

structure ExternalResource where
  name : String
  kind : String
  access : String
  description : Option String
  deriving DecidableEq

structure ContractError where
  type : String
  condition : Option String
  description : Option String
  deriving DecidableEq

structure StateTransition where
  source : Option String
  target : String
  trigger : Option String
  description : Option String
  deriving DecidableEq

structure ExternalCall where
  target : String
  operation : Option String
  description : Option String
  deriving DecidableEq

structure ExternalEvent where
  name : String
  payload : Option String
  description : Option String
  deriving DecidableEq

/-- A JSON value whose objects have their properties in the order of the keys. -/
abbrev CanonicalValue : Type := { value : JsonValue // value.wellFormed = true }

structure ContractInputs where
  parameters : List ContractParameter
  acceptedDomain : List ContractAssertion
  preconditions : List ContractAssertion
  dependencies : List CapabilityRequirement
  externalResources : List ExternalResource

structure ContractOutputs where
  returnValue : Option CanonicalValue
  postconditions : List ContractAssertion
  errors : List ContractError
  stateTransitions : List StateTransition
  externalCalls : List ExternalCall
  externalEvents : List ExternalEvent
  effects : List String

structure Contract where
  inputs : ContractInputs
  outputs : ContractOutputs

end Definitions

section Texts

def assertionFields : Fields ContractAssertion where
  keys := ["description", "expression"]
  values a := [field a.description, field (some a.expression)]

def parameterFields : Fields ContractParameter where
  keys := ["domain", "name", "required", "type"]
  values p := [field p.domain, field (some p.name), field p.required, field p.type]

def requirementFields : Fields CapabilityRequirement where
  keys := ["description", "name"]
  values r := [field r.description, field (some r.name)]

def resourceFields : Fields ExternalResource where
  keys := ["access", "description", "kind", "name"]
  values r := [field (some r.access), field r.description, field (some r.kind), field (some r.name)]

def errorFields : Fields ContractError where
  keys := ["condition", "description", "type"]
  values e := [field e.condition, field e.description, field (some e.type)]

def transitionFields : Fields StateTransition where
  keys := ["description", "from", "to", "trigger"]
  values t := [field t.description, field t.source, field (some t.target), field t.trigger]

def callFields : Fields ExternalCall where
  keys := ["description", "operation", "target"]
  values c := [field c.description, field c.operation, field (some c.target)]

def eventFields : Fields ExternalEvent where
  keys := ["description", "name", "payload"]
  values e := [field e.description, field (some e.name), field e.payload]

theorem assertionFields_faithful : assertionFields.Faithful where
  keys := by decide
  length _ := rfl
  injective := by
    rintro ⟨⟩ ⟨⟩ h
    simpa [assertionFields, and_comm] using h

theorem parameterFields_faithful : parameterFields.Faithful where
  keys := by decide
  length _ := rfl
  injective := by
    rintro ⟨⟩ ⟨⟩ h
    simp only [parameterFields, List.cons.injEq, field_inj, Option.some.injEq, and_true] at h
    obtain ⟨rfl, rfl, rfl, rfl⟩ := h
    rfl

theorem requirementFields_faithful : requirementFields.Faithful where
  keys := by decide
  length _ := rfl
  injective := by
    rintro ⟨⟩ ⟨⟩ h
    simpa [requirementFields, and_comm] using h

theorem resourceFields_faithful : resourceFields.Faithful where
  keys := by decide
  length _ := rfl
  injective := by
    rintro ⟨⟩ ⟨⟩ h
    simp only [resourceFields, List.cons.injEq, field_inj, Option.some.injEq, and_true] at h
    obtain ⟨rfl, rfl, rfl, rfl⟩ := h
    rfl

theorem errorFields_faithful : errorFields.Faithful where
  keys := by decide
  length _ := rfl
  injective := by
    rintro ⟨⟩ ⟨⟩ h
    simp only [errorFields, List.cons.injEq, field_inj, Option.some.injEq, and_true] at h
    obtain ⟨rfl, rfl, rfl⟩ := h
    rfl

theorem transitionFields_faithful : transitionFields.Faithful where
  keys := by decide
  length _ := rfl
  injective := by
    rintro ⟨⟩ ⟨⟩ h
    simp only [transitionFields, List.cons.injEq, field_inj, Option.some.injEq, and_true] at h
    obtain ⟨rfl, rfl, rfl, rfl⟩ := h
    rfl

theorem callFields_faithful : callFields.Faithful where
  keys := by decide
  length _ := rfl
  injective := by
    rintro ⟨⟩ ⟨⟩ h
    simp only [callFields, List.cons.injEq, field_inj, Option.some.injEq, and_true] at h
    obtain ⟨rfl, rfl, rfl⟩ := h
    rfl

theorem eventFields_faithful : eventFields.Faithful where
  keys := by decide
  length _ := rfl
  injective := by
    rintro ⟨⟩ ⟨⟩ h
    simp only [eventFields, List.cons.injEq, field_inj, Option.some.injEq, and_true] at h
    obtain ⟨rfl, rfl, rfl⟩ := h
    rfl

instance : Written ContractAssertion := assertionFields_faithful.written

instance : Written ContractParameter := parameterFields_faithful.written

instance : Written CapabilityRequirement := requirementFields_faithful.written

instance : Written ExternalResource := resourceFields_faithful.written

instance : Written ContractError := errorFields_faithful.written

instance : Written StateTransition := transitionFields_faithful.written

instance : Written ExternalCall := callFields_faithful.written

instance : Written ExternalEvent := eventFields_faithful.written

theorem wellFormed_canonical (a : CanonicalValue) : a.1.wellFormed = true := a.2

theorem canonical_inj (a b : CanonicalValue) (h : a.1 = b.1) : a = b := Subtype.ext h

instance : Written CanonicalValue where
  json := Subtype.val
  wellFormed := wellFormed_canonical
  injective := canonical_inj

def inputsFields : Fields ContractInputs where
  keys := ["acceptedDomain", "dependencies", "externalResources", "parameters", "preconditions"]
  values i := [field (some i.acceptedDomain), field (some i.dependencies),
    field (some i.externalResources), field (some i.parameters), field (some i.preconditions)]

theorem inputsFields_faithful : inputsFields.Faithful where
  keys := by decide
  length _ := rfl
  injective := by
    rintro ⟨⟩ ⟨⟩ h
    simp only [inputsFields, List.cons.injEq, field_inj, Option.some.injEq, and_true] at h
    obtain ⟨rfl, rfl, rfl, rfl, rfl⟩ := h
    rfl

instance : Written ContractInputs := inputsFields_faithful.written

def outputsFields : Fields ContractOutputs where
  keys := ["effects", "errors", "externalCalls", "externalEvents", "postconditions", "returnValue",
    "stateTransitions"]
  values o := [field (some o.effects), field (some o.errors), field (some o.externalCalls),
    field (some o.externalEvents), field (some o.postconditions), field o.returnValue,
    field (some o.stateTransitions)]

theorem outputsFields_faithful : outputsFields.Faithful where
  keys := by decide
  length _ := rfl
  injective := by
    rintro ⟨⟩ ⟨⟩ h
    simp only [outputsFields, List.cons.injEq, field_inj, Option.some.injEq, and_true] at h
    obtain ⟨rfl, rfl, rfl, rfl, rfl, rfl, rfl⟩ := h
    rfl

instance : Written ContractOutputs := outputsFields_faithful.written

def contractFields : Fields Contract where
  keys := ["inputs", "outputs"]
  values c := [field (some c.inputs), field (some c.outputs)]

theorem contractFields_faithful : contractFields.Faithful where
  keys := by decide
  length _ := rfl
  injective := by
    rintro ⟨⟩ ⟨⟩ h
    simpa [contractFields] using h

instance : Written Contract := contractFields_faithful.written

end Texts

section Compatibility

inductive ReviewLevel where
  | L0
  | L1
  | L2
  | L3
  deriving DecidableEq

/-- `REVIEW_RANK`. -/
def ReviewLevel.rank : ReviewLevel → ℕ
  | L0 => 0
  | L1 => 1
  | L2 => 2
  | L3 => 3

def compareReview (left right : ReviewLevel) : ReviewLevel :=
  if right.rank ≤ left.rank then left else right

inductive CompatibilityResult where
  | unchanged
  | compatible
  | reviewRequired
  | breaking
  | unknown
  deriving DecidableEq

structure ContractCompatibility where
  level : ReviewLevel
  compatibility : CompatibilityResult
  reasons : List String
  deriving DecidableEq

abbrev Finding : Type := ReviewLevel × String

/-- A rule that finds a difference under a condition. -/
def raise (found : Bool) (level : ReviewLevel) (reason : String) : List Finding :=
  if found then [(level, reason)] else []

def missing {α : Type} [Written α] (items others : List α) : Bool :=
  (items.map fun item => stableStringifyValue (Written.json item)).any
    (· ∉ others.map fun item => stableStringifyValue (Written.json item))

/-- The parameter with a name; of several it is the last one. -/
def parameterNamed (parameters : List ContractParameter) (name : String) : Option ContractParameter :=
  parameters.reverse.find? (·.name = name)

def namedFinding (oldParameters : List ContractParameter) (parameter : ContractParameter) :
    List Finding :=
  match parameterNamed oldParameters parameter.name with
  | some previous =>
      raise (!valueEqual previous parameter) .L2 ("contract input " ++ parameter.name ++ " changed")
  | none => []

/-- What is found about the number of parameters. -/
def countFinding (oldParameters newParameters : List ContractParameter) : List Finding :=
  if oldParameters.length < newParameters.length then
    if (newParameters.drop oldParameters.length).all (·.required ≠ some true) then
      [(.L1, "optional contract inputs were added")]
    else [(.L3, "required contract inputs were added")]
  else raise (newParameters.length < oldParameters.length) .L3 "contract inputs were removed"

def parameterFindings (before after : ContractInputs) : List Finding :=
  countFinding before.parameters after.parameters ++
    after.parameters.flatMap (namedFinding before.parameters)

def contractFindings (before after : Contract) : List Finding :=
  parameterFindings before.inputs after.inputs ++
  raise (missing before.inputs.acceptedDomain after.inputs.acceptedDomain) .L3
    "accepted contract input domain was weakened" ++
  raise (missing after.inputs.acceptedDomain before.inputs.acceptedDomain) .L1
    "accepted contract input domain was strengthened" ++
  raise (missing before.inputs.preconditions after.inputs.preconditions) .L3
    "a contract precondition was removed" ++
  raise (missing after.inputs.preconditions before.inputs.preconditions) .L3
    "a contract precondition was added" ++
  raise (!optionalEqual before.outputs.returnValue after.outputs.returnValue) .L2
    "contract return guarantee changed" ++
  raise (missing before.outputs.postconditions after.outputs.postconditions) .L3
    "a contract postcondition was removed" ++
  raise (missing after.outputs.postconditions before.outputs.postconditions) .L1
    "a contract postcondition was strengthened" ++
  raise (!valueEqual before.outputs.errors after.outputs.errors) .L3
    "the public error domain changed" ++
  raise (!valueEqual before.outputs.stateTransitions after.outputs.stateTransitions) .L2
    "contract state transitions changed" ++
  raise (!valueEqual before.outputs.externalCalls after.outputs.externalCalls ||
      !valueEqual before.outputs.externalEvents after.outputs.externalEvents) .L2
    "contract external interactions changed"

def contractCompatibility (before after : Option Contract) : ContractCompatibility :=
  match before, after with
  | some before, some after =>
      let findings := contractFindings before after
      let level := (findings.map Prod.fst).foldl compareReview .L0
      if level = .L0 then { level := .L0, compatibility := .unchanged, reasons := [] }
      else
        { level
          compatibility :=
            if level = .L1 then .compatible else if level = .L3 then .breaking else .reviewRequired
          reasons := findings.map Prod.snd }
  | _, _ =>
      { level := .L2, compatibility := .unknown, reasons := ["contract completeness is unknown"] }

/-- What is reported about the definition of a contract. -/
structure DeltaRequest where
  kind : String
  summary : String
  level : ReviewLevel
  compatibility : CompatibilityResult
  breaking : Bool
  isProtected : Bool
  deriving DecidableEq

def recorded (request : DeltaRequest) : Bool := request.level ≠ .L0 || request.isProtected

def partRequest (protectedEntity : Bool) (kind summary : String) : DeltaRequest :=
  { kind, summary, level := if protectedEntity then .L3 else .L2
    compatibility := if protectedEntity then .breaking else .reviewRequired
    breaking := protectedEntity, isProtected := protectedEntity }

def definitionRequest (protectedEntity : Bool) (result : ContractCompatibility) : DeltaRequest :=
  { kind := "contract", summary := "contract.definition changed."
    level := if protectedEntity then .L3 else result.level
    compatibility := if protectedEntity then .breaking else result.compatibility
    breaking := protectedEntity || result.level = .L3, isProtected := protectedEntity }

/-- The part of `projectEntityChange` that is about the definition of a contract. -/
def definitionDeltas (protectedEntity : Bool) (before after : Contract) : List DeltaRequest :=
  if valueEqual before after then []
  else
    ((if valueEqual before.outputs.effects after.outputs.effects then []
      else [partRequest protectedEntity "effect"
        "Contract-declared effects changed; use #51 conformance results for actual effect evidence."]) ++
    (if valueEqual before.inputs.dependencies after.inputs.dependencies then []
      else [partRequest protectedEntity "dependency-policy"
        "Contract-required dependencies changed."]) ++
    [definitionRequest protectedEntity (contractCompatibility (some before) (some after))]).filter
      recorded

end Compatibility

section Findings

variable {before after : Contract} {α : Type} [Written α] {items others : List α}

@[simp] theorem raise_eq_nil {found : Bool} {level : ReviewLevel} {reason : String} :
    raise found level reason = [] ↔ found = false := by
  cases found <;> simp [raise]

theorem missing_eq_false : missing items others = false ↔ ∀ item ∈ items, item ∈ others := by
  have htext : ∀ item, stableStringifyValue (Written.json item) ∈
      (others.map fun other => stableStringifyValue (Written.json other)) ↔ item ∈ others := by
    intro item
    constructor
    · intro hmem
      obtain ⟨other, hother, heq⟩ := List.mem_map.mp hmem
      rw [← stableStringifyValue_json_inj heq]
      exact hother
    · exact fun hmem => List.mem_map_of_mem hmem
  rw [missing, List.any_eq_false]
  constructor
  · intro hnone item hitem
    have hfound := hnone _ (List.mem_map_of_mem hitem)
    rw [decide_eq_true_eq, not_not] at hfound
    exact (htext item).mp hfound
  · intro hall text htextMem
    obtain ⟨item, hitem, rfl⟩ := List.mem_map.mp htextMem
    rw [decide_eq_true_eq, not_not]
    exact (htext item).mpr (hall item hitem)

/-- Conditions are compared without their order. -/
theorem missing_both_eq_false : missing items others = false ∧ missing others items = false ↔
    ∀ item, item ∈ items ↔ item ∈ others := by
  rw [missing_eq_false, missing_eq_false]
  exact ⟨fun h item => ⟨h.1 item, h.2 item⟩, fun h => ⟨fun item => (h item).mp, fun item => (h item).mpr⟩⟩

/-- The parameters agree in what is compared: in their number, and in what has the same name. -/
structure SameParameters (before after : List ContractParameter) : Prop where
  length : before.length = after.length
  named : ∀ parameter ∈ after, ∀ previous, parameterNamed before parameter.name = some previous →
    previous = parameter

theorem countFinding_eq_nil {before after : List ContractParameter} :
    countFinding before after = [] ↔ before.length = after.length := by
  rw [countFinding]
  split_ifs with hlonger hoptional
  · simp [hlonger.ne]
  · simp [hlonger.ne]
  · rw [raise_eq_nil, decide_eq_false_iff_not]
    omega

theorem namedFinding_eq_nil {before : List ContractParameter} {parameter : ContractParameter} :
    namedFinding before parameter = [] ↔
      ∀ previous, parameterNamed before parameter.name = some previous → previous = parameter := by
  rw [namedFinding]
  cases parameterNamed before parameter.name with
  | none => simp
  | some previous => simp

theorem parameterFindings_eq_nil {before after : ContractInputs} :
    parameterFindings before after = [] ↔ SameParameters before.parameters after.parameters := by
  rw [parameterFindings, List.append_eq_nil_iff, countFinding_eq_nil, List.flatMap_eq_nil_iff]
  constructor
  · exact fun h => ⟨h.1, fun parameter hmem => namedFinding_eq_nil.mp (h.2 parameter hmem)⟩
  · exact fun h => ⟨h.length, fun parameter hmem => namedFinding_eq_nil.mpr (h.named parameter hmem)⟩

/-- The definitions agree in what the rules compare. -/
structure AgreeWhereCompared (before after : Contract) : Prop where
  parameters : SameParameters before.inputs.parameters after.inputs.parameters
  acceptedDomain : ∀ item, item ∈ before.inputs.acceptedDomain ↔ item ∈ after.inputs.acceptedDomain
  preconditions : ∀ item, item ∈ before.inputs.preconditions ↔ item ∈ after.inputs.preconditions
  returnValue : before.outputs.returnValue = after.outputs.returnValue
  postconditions : ∀ item, item ∈ before.outputs.postconditions ↔ item ∈ after.outputs.postconditions
  errors : before.outputs.errors = after.outputs.errors
  stateTransitions : before.outputs.stateTransitions = after.outputs.stateTransitions
  externalCalls : before.outputs.externalCalls = after.outputs.externalCalls
  externalEvents : before.outputs.externalEvents = after.outputs.externalEvents

theorem contractFindings_eq_nil : contractFindings before after = [] ↔ AgreeWhereCompared before after := by
  simp only [contractFindings, List.append_eq_nil_iff, raise_eq_nil, Bool.or_eq_false_iff,
    Bool.not_eq_false', valueEqual_iff, optionalEqual_iff, parameterFindings_eq_nil]
  constructor
  · rintro ⟨⟨⟨⟨⟨⟨⟨⟨⟨⟨hparameters, hweaker⟩, hstronger⟩, hremoved⟩, hadded⟩, hreturn⟩, hremovedPost⟩,
      haddedPost⟩, herrors⟩, htransitions⟩, hcalls, hevents⟩
    exact ⟨hparameters, missing_both_eq_false.mp ⟨hweaker, hstronger⟩,
      missing_both_eq_false.mp ⟨hremoved, hadded⟩, hreturn,
      missing_both_eq_false.mp ⟨hremovedPost, haddedPost⟩, herrors, htransitions, hcalls, hevents⟩
  · intro h
    obtain ⟨hweaker, hstronger⟩ := missing_both_eq_false.mpr h.acceptedDomain
    obtain ⟨hremoved, hadded⟩ := missing_both_eq_false.mpr h.preconditions
    obtain ⟨hremovedPost, haddedPost⟩ := missing_both_eq_false.mpr h.postconditions
    exact ⟨⟨⟨⟨⟨⟨⟨⟨⟨⟨h.parameters, hweaker⟩, hstronger⟩, hremoved⟩, hadded⟩, h.returnValue⟩,
      hremovedPost⟩, haddedPost⟩, h.errors⟩, h.stateTransitions⟩, h.externalCalls, h.externalEvents⟩

end Findings

section Levels

variable {before after : Contract}
variable {finding : Finding}

theorem raise_level {found : Bool} {level : ReviewLevel} {reason : String}
    (h : finding ∈ raise found level reason) : finding.1 = level := by
  cases found with
  | false => exact absurd h List.not_mem_nil
  | true => rw [List.mem_singleton.mp h]

theorem le_rank_foldl (levels : List ReviewLevel) (level : ReviewLevel) :
    level.rank ≤ (levels.foldl compareReview level).rank ∧
      ∀ next ∈ levels, next.rank ≤ (levels.foldl compareReview level).rank := by
  induction levels generalizing level with
  | nil => exact ⟨le_rfl, fun _ h => absurd h List.not_mem_nil⟩
  | cons next levels ih =>
    obtain ⟨hstart, hlater⟩ := ih (compareReview level next)
    have hboth : level.rank ≤ (compareReview level next).rank ∧
        next.rank ≤ (compareReview level next).rank := by
      rw [compareReview]
      split_ifs with hle
      · exact ⟨le_rfl, hle⟩
      · exact ⟨by omega, le_rfl⟩
    rw [List.foldl_cons]
    refine ⟨hboth.1.trans hstart, fun other hother => ?_⟩
    rcases List.mem_cons.mp hother with rfl | hother
    · exact hboth.2.trans hstart
    · exact hlater other hother

/-- Every rule raises the level. -/
theorem rank_pos_of_finding (h : finding ∈ contractFindings before after) : 0 < finding.1.rank := by
  have hparameter : ∀ finding ∈ parameterFindings before.inputs after.inputs,
      0 < finding.1.rank := by
    intro finding hmem
    rcases List.mem_append.mp hmem with hcount | hnamed
    · rw [countFinding] at hcount
      split_ifs at hcount
      · rw [List.mem_singleton.mp hcount]
        decide
      · rw [List.mem_singleton.mp hcount]
        decide
      · rw [raise_level hcount]
        decide
    · obtain ⟨parameter, -, hfound⟩ := List.mem_flatMap.mp hnamed
      rw [namedFinding] at hfound
      split at hfound
      · rw [raise_level hfound]
        decide
      · exact absurd hfound List.not_mem_nil
  simp only [contractFindings, List.mem_append] at h
  rcases h with ((((((((((h | h) | h) | h) | h) | h) | h) | h) | h) | h) | h)
  · exact hparameter finding h
  all_goals
    rw [raise_level h]
    decide

theorem level_contractCompatibility : (contractCompatibility (some before) (some after)).level =
    ((contractFindings before after).map Prod.fst).foldl compareReview .L0 := by
  simp only [contractCompatibility]
  split_ifs with hlevel
  · exact hlevel.symm
  all_goals rfl

/-- The level is L0 if nothing is found, and otherwise it is raised. -/
theorem level_eq_L0_iff : (contractCompatibility (some before) (some after)).level = .L0 ↔
    AgreeWhereCompared before after := by
  rw [← contractFindings_eq_nil, level_contractCompatibility]
  constructor
  · intro hlevel
    apply List.eq_nil_iff_forall_not_mem.mpr
    intro finding hmem
    have hle := (le_rank_foldl ((contractFindings before after).map Prod.fst) .L0).2 finding.1
      (List.mem_map_of_mem hmem)
    rw [hlevel] at hle
    exact absurd (rank_pos_of_finding hmem) (Nat.not_lt.mpr hle)
  · intro hnil
    rw [hnil]
    rfl

theorem unchanged_iff : (contractCompatibility (some before) (some after)).compatibility = .unchanged ↔
    AgreeWhereCompared before after := by
  rw [← level_eq_L0_iff, level_contractCompatibility]
  simp only [contractCompatibility]
  split_ifs with hlevel hcompatible hbreaking <;> simp_all

end Levels

section Completeness

variable {before after : Contract} {protectedEntity : Bool}

/-- The definitions agree in what the rules do not compare: in the names and the order of the
parameters, in the order of the conditions, and in what is required of others. -/
structure AgreeElsewhere (before after : Contract) : Prop where
  parameters : before.inputs.parameters = after.inputs.parameters
  acceptedDomain : before.inputs.acceptedDomain = after.inputs.acceptedDomain
  preconditions : before.inputs.preconditions = after.inputs.preconditions
  dependencies : before.inputs.dependencies = after.inputs.dependencies
  externalResources : before.inputs.externalResources = after.inputs.externalResources
  postconditions : before.outputs.postconditions = after.outputs.postconditions
  effects : before.outputs.effects = after.outputs.effects

theorem AgreeWhereCompared.eq_iff (h : AgreeWhereCompared before after) :
    before = after ↔ AgreeElsewhere before after := by
  constructor
  · rintro rfl
    exact ⟨rfl, rfl, rfl, rfl, rfl, rfl, rfl⟩
  · intro helse
    obtain ⟨⟨parameters, acceptedDomain, preconditions, dependencies, externalResources⟩,
      ⟨returnValue, postconditions, errors, stateTransitions, externalCalls, externalEvents, effects⟩⟩ :=
      before
    obtain ⟨-, -, -, rfl, -, rfl, rfl, rfl, rfl⟩ := h
    obtain ⟨rfl, rfl, rfl, rfl, rfl, rfl, rfl⟩ := helse
    rfl

@[simp] theorem recorded_partRequest (kind summary : String) :
    recorded (partRequest protectedEntity kind summary) = true := by
  cases protectedEntity <;> rfl

theorem recorded_definitionRequest (result : ContractCompatibility) :
    recorded (definitionRequest protectedEntity result) = false ↔
      protectedEntity = false ∧ result.level = .L0 := by
  cases protectedEntity <;> simp [recorded, definitionRequest]

theorem definitionDeltas_eq_nil : definitionDeltas protectedEntity before after = [] ↔
    before = after ∨ (protectedEntity = false ∧ AgreeWhereCompared before after ∧
      before.outputs.effects = after.outputs.effects ∧
      before.inputs.dependencies = after.inputs.dependencies) := by
  by_cases hsame : before = after
  · simp [definitionDeltas, hsame]
  · have hdelta : ∀ (equal : Bool) (request : DeltaRequest), recorded request = true →
        ((if equal then [] else [request]).filter recorded = [] ↔ equal = true) := by
      intro equal request hrecorded
      cases equal <;> simp [hrecorded]
    have hdefinition : [definitionRequest protectedEntity
        (contractCompatibility (some before) (some after))].filter recorded = [] ↔
        protectedEntity = false ∧ AgreeWhereCompared before after := by
      rw [← level_eq_L0_iff, ← recorded_definitionRequest, List.filter_eq_nil_iff]
      simp
    have hchanged : valueEqual before after = false :=
      Bool.eq_false_iff.mpr fun hequal => hsame (valueEqual_iff.mp hequal)
    rw [definitionDeltas, hchanged, if_neg Bool.false_ne_true, List.filter_append,
      List.filter_append, List.append_eq_nil_iff, List.append_eq_nil_iff,
      hdelta _ _ (recorded_partRequest _ _), hdelta _ _ (recorded_partRequest _ _), hdefinition,
      valueEqual_iff, valueEqual_iff]
    simp only [hsame, false_or]
    exact ⟨fun ⟨⟨heffects, hdependencies⟩, hprotected, hagree⟩ =>
        ⟨hprotected, hagree, heffects, hdependencies⟩,
      fun ⟨hprotected, hagree, heffects, hdependencies⟩ =>
        ⟨⟨heffects, hdependencies⟩, hprotected, hagree⟩⟩

/-- An unchanged answer means equal definitions exactly if the definitions differ in something that
is compared or agree in everything else. The same holds of a change without a delta, where the
effects and the dependencies are compared too, and every change of a protected contract is seen. -/
theorem contract_compatibility_complete_iff (before after : Contract) (protectedEntity : Bool) :
    (((contractCompatibility (some before) (some after)).compatibility = .unchanged → before = after) ↔
      (¬ AgreeWhereCompared before after ∨ AgreeElsewhere before after)) ∧
    ((definitionDeltas protectedEntity before after = [] → before = after) ↔
      (protectedEntity = true ∨ ¬ AgreeWhereCompared before after ∨
        before.outputs.effects ≠ after.outputs.effects ∨
        before.inputs.dependencies ≠ after.inputs.dependencies ∨ AgreeElsewhere before after)) := by
  rw [unchanged_iff, definitionDeltas_eq_nil]
  by_cases hagree : AgreeWhereCompared before after
  · have heq := hagree.eq_iff
    constructor
    · simp [hagree, heq]
    · cases protectedEntity with
      | true => simp
      | false =>
        by_cases heffects : before.outputs.effects = after.outputs.effects <;>
          by_cases hdependencies : before.inputs.dependencies = after.inputs.dependencies <;>
            simp [hagree, heq, heffects, hdependencies]
  · simp [hagree]

/-- A contract with one parameter that reads an external resource. -/
def readingContract (name access : String) : Contract :=
  { inputs := { parameters := [{ name, type := none, required := none, domain := none }]
                acceptedDomain := [], preconditions := [], dependencies := []
                externalResources := [{ name := "ledger", kind := "database", access
                                        description := none }] }
    outputs := { returnValue := none, postconditions := [], errors := [], stateTransitions := []
                 externalCalls := [], externalEvents := [], effects := [] } }

/-- A renamed parameter and another access to a resource are not seen. -/
theorem renamed_parameter_unchanged :
    (contractCompatibility (some (readingContract "source" "read"))
        (some (readingContract "target" "write"))).compatibility = .unchanged ∧
      definitionDeltas false (readingContract "source" "read") (readingContract "target" "write") = [] ∧
      readingContract "source" "read" ≠ readingContract "target" "write" := by
  have hagree : AgreeWhereCompared (readingContract "source" "read")
      (readingContract "target" "write") := by
    refine ⟨⟨rfl, ?_⟩, fun _ => Iff.rfl, fun _ => Iff.rfl, rfl, fun _ => Iff.rfl, rfl, rfl, rfl, rfl⟩
    intro parameter hmem previous hprevious
    rw [List.mem_singleton.mp hmem] at hprevious
    cases hprevious
  refine ⟨unchanged_iff.mpr hagree, definitionDeltas_eq_nil.mpr (.inr ⟨rfl, hagree, rfl, rfl⟩), ?_⟩
  rw [ne_eq, hagree.eq_iff]
  exact fun helse => absurd helse.parameters (by decide)

end Completeness

open JavaScriptValues NestedTexts

abbrev Text : Type := List Char

section Texts

/-- `text.trim()`. -/
def trimmed (text : Text) : Text :=
  ((text.dropWhile isWhiteSpace).reverse.dropWhile isWhiteSpace).reverse

/-- `text.replace(/\s+/gu, " ")`, where it may be known that a space was just written. -/
def spacedFrom (spaced : Bool) : Text → Text
  | [] => []
  | c :: text =>
      if isWhiteSpace c then
        if spaced then spacedFrom true text else ' ' :: spacedFrom true text
      else c :: spacedFrom false text

/-- `text.replace(/\s+/gu, " ").trim()`. -/
def collapsed (text : Text) : Text := trimmed (spacedFrom false text)

def isOpening (c : Char) : Bool := c = '(' || c = '[' || c = '{' || c = '<'

def isClosing (c : Char) : Bool := c = ')' || c = ']' || c = '}' || c = '>'

end Texts

section Parsing

/-- The loop of `splitTopLevel`. The part that is read is `value.slice(start, index)`. -/
def splitTopLevelFrom (depth : ℕ) (part : Text) : Text → List Text
  | [] =>
      let tail := trimmed part
      if tail.length > 0 then [tail] else []
  | character :: value =>
      if isOpening character then splitTopLevelFrom (depth + 1) (part ++ [character]) value
      else if isClosing character then splitTopLevelFrom (depth - 1) (part ++ [character]) value
      else if character = ',' ∧ depth = 0 then trimmed part :: splitTopLevelFrom depth [] value
      else splitTopLevelFrom depth (part ++ [character]) value

def splitTopLevel (value : Text) : List Text := splitTopLevelFrom 0 [] value

structure ParsedParameter where
  type : Text
  optional : Bool
  deriving DecidableEq

structure ParsedSignature where
  parameters : List ParsedParameter
  returnType : Option Text
  deriving DecidableEq

/-- What stands before the parenthesis that closes `depth` others, and what stands after it. -/
def closeFrom (depth : ℕ) (seen : Text) : Text → Option (Text × Text)
  | [] => none
  | character :: value =>
      if character = '(' then closeFrom (depth + 1) (seen ++ [character]) value
      else if character = ')' then
        if depth - 1 = 0 then some (seen, value)
        else closeFrom (depth - 1) (seen ++ [character]) value
      else closeFrom depth (seen ++ [character]) value

/-- `parameter.slice(colon + 1)`, or all of it. -/
def afterColon (parameter : Text) : Text :=
  match parameter.dropWhile (· ≠ ':') with
  | [] => parameter
  | _ :: type => type

def looksOptional (parameter : Text) : Bool :=
  parameter.contains '?' || parameter.contains '=' || "...".toList.isPrefixOf parameter

def parseParameter (parameter : Text) : ParsedParameter where
  type := collapsed (afterColon parameter)
  optional := looksOptional parameter

def parseReturnType (value : Text) : Option Text :=
  match trimmed value with
  | ':' :: returnType => some (trimmed returnType)
  | _ => none

def parseSignature (value : Text) : Option ParsedSignature :=
  match value.dropWhile (· ≠ '(') with
  | [] => none
  | _ :: opened =>
      (closeFrom 1 [] opened).map fun (parameters, returnPart) =>
        { parameters := (splitTopLevel parameters).map parseParameter
          returnType := parseReturnType returnPart }

end Parsing

section Comparing

structure SignatureComparison where
  level : ReviewLevel
  compatibility : CompatibilityResult
  reason : String
  deriving DecidableEq

def isVoid (returnType : Option Text) : Bool := returnType = some "void".toList

/-- The rest of `compareSignatures`, once both signatures are parsed. -/
def compareParsed (left right : ParsedSignature) : SignatureComparison :=
  if right.parameters.length > left.parameters.length then
    if (right.parameters.drop left.parameters.length).all (·.optional) then
      ⟨.L1, .compatible, "only optional public input parameters were added"⟩
    else ⟨.L3, .breaking, "a required public input parameter was added"⟩
  else if right.parameters.length < left.parameters.length then
    ⟨.L3, .breaking, "a public input parameter was removed"⟩
  else if left.parameters.map (·.type) ≠ right.parameters.map (·.type) then
    ⟨.L2, .reviewRequired, "a public input parameter type changed"⟩
  else if left.returnType ≠ right.returnType then
    if isVoid left.returnType ∧ ¬ isVoid right.returnType then
      ⟨.L1, .compatible, "the public return guarantee was strengthened"⟩
    else if isVoid right.returnType ∧ ¬ isVoid left.returnType then
      ⟨.L3, .breaking, "the public return guarantee was removed"⟩
    else ⟨.L2, .reviewRequired, "the public output type changed"⟩
  else ⟨.L2, .reviewRequired, "the public signature changed"⟩

def compareSignatures (before after : Option Text) : SignatureComparison :=
  match before, after with
  | some before, some after =>
      if before = after then ⟨.L0, .unchanged, "signature is unchanged"⟩
      else match parseSignature before, parseSignature after with
        | some left, some right => compareParsed left right
        | _, _ =>
            ⟨.L2, .reviewRequired,
              "public Symbol signature changed and cannot be parsed conservatively"⟩
  | _, _ => ⟨.L2, .unknown, "public Symbol signature completeness is unknown"⟩

end Comparing

section Letters

/-- The characters, each with whether an equals sign stands before it. -/
def markedFrom (afterEquals : Bool) : Text → List (Char × Bool)
  | [] => []
  | c :: text => (c, afterEquals) :: markedFrom (c = '=') text

def marked (text : Text) : List (Char × Bool) := markedFrom false text

theorem map_fst_markedFrom (afterEquals : Bool) (text : Text) :
    (markedFrom afterEquals text).map Prod.fst = text := by
  induction text generalizing afterEquals with
  | nil => rfl
  | cons c text ih => simp [markedFrom, ih]

/-- What a character is to the scan of `splitTopLevel`. -/
def scanKind (c : Char) : Kind :=
  if isOpening c then .opening
  else if isClosing c then .closing
  else if c = ',' then .separator
  else .other

/-- What a character is: the last one of an arrow closes nothing. -/
def declaredKind (letter : Char × Bool) : Kind :=
  if letter.1 = '>' ∧ letter.2 = true then .other else scanKind letter.1

theorem scan_closesMore : ClosesMore (fun letter : Char × Bool => scanKind letter.1) declaredKind := by
  rintro ⟨c, afterEquals⟩
  unfold declaredKind
  split
  · next harrow =>
    have hc : c = '>' := harrow.1
    rw [hc]
    exact Or.inr ⟨rfl, rfl⟩
  · exact Or.inl rfl

theorem declaredKind_separator (letter : Char × Bool) :
    decide (letter.1 = ',') = true ↔ declaredKind letter = .separator := by
  rw [decide_eq_true_iff, ← scan_closesMore.separator]
  constructor
  · rintro hcomma
    rw [hcomma]
    rfl
  · intro hkind
    unfold scanKind at hkind
    split_ifs at hkind with hopening hclosing hcomma
    exact hcomma

end Letters

section Splitting

def finished : List Text → List Text
  | [] => []
  | [tail] => if (trimmed tail).length > 0 then [trimmed tail] else []
  | part :: next :: parts => trimmed part :: finished (next :: parts)

theorem finished_cons {part : Text} {parts : List Text} (h : parts ≠ []) :
    finished (part :: parts) = trimmed part :: finished parts := by
  cases parts with
  | nil => exact absurd rfl h
  | cons next parts => rfl

/-- The scan cuts as a reader who takes every `>` for a bracket. -/
theorem splitTopLevelFrom_eq (depth : ℕ) (part value : Text) :
    splitTopLevelFrom depth part value = finished (cutFrom scanKind depth part value) := by
  induction value generalizing depth part with
  | nil => rfl
  | cons c value ih =>
    unfold splitTopLevelFrom cutFrom
    by_cases hopening : isOpening c = true
    · simp [scanKind, hopening, Kind.move, ih]
    · by_cases hclosing : isClosing c = true
      · simp [scanKind, hopening, hclosing, Kind.move, ih]
      · by_cases hcomma : c = ','
        · by_cases hzero : depth = 0
          · simp [scanKind, hcomma, isOpening, isClosing, hzero, ih,
              finished_cons (cutFrom_ne_nil _ _ _)]
          · simp [scanKind, hcomma, isOpening, isClosing, hzero, Kind.move, ih]
        · simp [scanKind, hopening, hclosing, hcomma, Kind.move, ih]

def declaredParameters (value : Text) : List Text :=
  finished ((cut declaredKind (marked value)).map (List.map Prod.fst))

variable (value : Text)

theorem splitTopLevel_eq : splitTopLevel value =
    finished ((cut (fun letter => scanKind letter.1) (marked value)).map (List.map Prod.fst)) := by
  rw [← cut_map, marked, map_fst_markedFrom]
  exact splitTopLevelFrom_eq 0 [] value

variable {p : Char → Bool}

theorem countP_trimmed (hp : ∀ c, isWhiteSpace c = true → p c = false) (text : Text) :
    (trimmed text).countP p = text.countP p := by
  have hdrop : ∀ text : Text, (text.dropWhile isWhiteSpace).countP p = text.countP p := by
    intro text
    conv_rhs => rw [← List.takeWhile_append_dropWhile (p := isWhiteSpace) (l := text)]
    have htake : (text.takeWhile isWhiteSpace).countP p = 0 := by
      rw [List.countP_eq_zero]
      intro c hc
      rw [hp c (List.mem_takeWhile_imp hc)]
      exact Bool.false_ne_true
    rw [List.countP_append, htake, Nat.zero_add]
  rw [trimmed, List.countP_reverse, hdrop, List.countP_reverse, hdrop]

theorem leftIn_finished (hp : ∀ c, isWhiteSpace c = true → p c = false) (parts : List Text) :
    leftIn p (finished parts) = leftIn p parts := by
  induction parts with
  | nil => rfl
  | cons part parts ih =>
    cases parts with
    | nil =>
      unfold finished
      split
      · simp [leftIn, countP_trimmed hp]
      · next hempty =>
        have hnil : trimmed part = [] := by simpa using hempty
        have hcount := countP_trimmed hp part
        rw [hnil] at hcount
        simpa [leftIn] using hcount
    | cons next parts =>
      rw [finished_cons (List.cons_ne_nil _ _), leftIn_cons, leftIn_cons, ih, countP_trimmed hp]

/-- At every comma inside brackets, some stretch of the text before it has more opening brackets
than closing brackets and arrows. -/
def CountsBrackets (value : Text) : Prop :=
  ∀ before letter after, marked value = before ++ letter :: after → declaredKind letter = .separator →
    0 < depthAfter declaredKind before → ∃ stretch, stretch <:+ before ∧
      closings (fun letter : Char × Bool => scanKind letter.1) stretch <
        openings (fun letter : Char × Bool => scanKind letter.1) stretch

/-- The split is the declared one exactly if no comma is met after as many arrows. -/
theorem splitTopLevel_exact_iff :
    splitTopLevel value = declaredParameters value ↔ CountsBrackets value := by
  rw [CountsBrackets, ← inside_iff, splitTopLevel_eq, declaredParameters]
  constructor
  · intro heq
    by_contra hinside
    have hlt := leftIn_cut_lt scan_closesMore (p := fun letter => letter.1 = ',')
      declaredKind_separator hinside
    have hmap : ∀ parts : List (List (Char × Bool)), leftIn (fun letter => letter.1 = ',') parts =
        leftIn (· = ',') (finished (parts.map (List.map Prod.fst))) := by
      intro parts
      rw [leftIn_finished]
      · simp [leftIn, List.countP_map, Function.comp_def]
      · intro c hc
        apply decide_eq_false
        rintro rfl
        exact absurd hc (by decide)
    rw [hmap, hmap, heq] at hlt
    exact absurd hlt (Nat.lt_irrefl _)
  · intro hinside
    rw [cut_eq scan_closesMore hinside]

/-- The arrow closes the parenthesis before it once more. -/
example : splitTopLevel "run: (done: () => void, name: string) => void".toList =
    ["run: (done: () => void".toList, "name: string) => void".toList] := by decide

end Splitting

section Signatures

def closerOf (c : Char) : Char :=
  if c = '(' then ')' else if c = '[' then ']' else if c = '{' then '}' else '>'

/-- Each bracket that is opened is closed by its own, `expected` being those that are open. -/
def bracketed : List Char → List (Char × Bool) → Bool
  | expected, [] => expected.isEmpty
  | expected, letter :: text =>
      match declaredKind letter with
      | .opening => bracketed (closerOf letter.1 :: expected) text
      | .closing =>
          match expected with
          | [] => false
          | closer :: expected => closer = letter.1 && bracketed expected text
      | .separator => bracketed expected text
      | .other => bracketed expected text

def isTyped (parameter : Text) : Bool :=
  parameter.contains ':' && depthAfter declaredKind (marked (parameter.takeWhile (· ≠ ':'))) = 0

/-- A signature, by what stands before, between and after the parentheses of its parameters. -/
structure Signature where
  head : Text
  parameters : Text
  tail : Text
  head_plain : head.contains '(' = false
  nested : bracketed [] (marked parameters) = true
  typed : (declaredParameters parameters).all isTyped = true

def Signature.text (signature : Signature) : Text :=
  signature.head ++ '(' :: (signature.parameters ++ ')' :: signature.tail)

def Signature.declared (signature : Signature) : List Text :=
  declaredParameters signature.parameters

def Signature.returnType (signature : Signature) : Option Text := parseReturnType signature.tail

/-- What stands before an equals sign outside brackets that does not begin an arrow. -/
def beforeDefault (depth : ℕ) : Text → Text
  | [] => []
  | '=' :: '>' :: text => '=' :: '>' :: beforeDefault depth text
  | c :: text =>
      if c = '=' ∧ depth = 0 then [] else c :: beforeDefault ((scanKind c).move depth) text

def declaredType (parameter : Text) : Text :=
  trimmed (beforeDefault 0 (collapsed (afterColon parameter)))

/-- The parameter is declared with `?`, with a default value, or for the rest of the arguments. -/
def declaredOptional (parameter : Text) : Bool :=
  (trimmed (parameter.takeWhile (· ≠ ':'))).getLast? = some '?' ||
    (beforeDefault 0 (afterColon parameter)).length < (afterColon parameter).length ||
    "...".toList.isPrefixOf parameter

end Signatures

section Soundness

/-- A type was returned, other than `void`, and now another one is. -/
def Weakened (before after : Option Text) : Prop :=
  before ≠ none ∧ before ≠ some "void".toList ∧ after ≠ before

/-- What a compatible signature keeps. -/
structure Kept (before after : Signature) : Prop where
  present : ∀ (i : ℕ) (parameter : Text), before.declared[i]? = some parameter →
    ∃ parameter', after.declared[i]? = some parameter' ∧
      declaredType parameter' = declaredType parameter
  added : ∀ parameter ∈ after.declared.drop before.declared.length, declaredOptional parameter = true
  returned : ¬ Weakened before.returnType after.returnType

structure SoundlyCompared (before after : Signature) : Prop where
  before_split : splitTopLevel before.parameters = before.declared
  after_split : splitTopLevel after.parameters = after.declared
  compatible : (compareSignatures (some before.text) (some after.text)).compatibility = .compatible →
    Kept before after

/-- Where parameters were added that all look optional, which ends the comparison, the earlier ones
have the types they had, those added are declared as optional, and no less is returned. -/
def AddsCarefully (before after : Signature) : Prop :=
  before.declared.length < after.declared.length →
    (after.declared.drop before.declared.length).all looksOptional = true →
      (after.declared.take before.declared.length).map declaredType =
          before.declared.map declaredType ∧
        (after.declared.drop before.declared.length).all declaredOptional = true ∧
        ¬ Weakened before.returnType after.returnType

theorem closerOf_ne {c : Char} (hc : c ≠ '(') : closerOf c ≠ ')' := by
  unfold closerOf
  rw [if_neg hc]
  split
  · decide
  · split <;> decide

theorem closeFrom_bracketed {expected : List Char} {afterEquals : Bool} {text : Text}
    (h : bracketed expected (markedFrom afterEquals text) = true) (seen tail : Text) :
    closeFrom (expected.count ')' + 1) seen (text ++ ')' :: tail) = some (seen ++ text, tail) := by
  induction text generalizing expected afterEquals seen with
  | nil =>
    have hnil : expected = [] := by simpa [markedFrom, bracketed] using h
    rw [hnil]
    simp [closeFrom]
  | cons c text ih =>
    simp only [markedFrom, bracketed] at h
    rw [List.cons_append, closeFrom]
    by_cases hopen : c = '('
    · subst hopen
      have hnested : bracketed (')' :: expected) (markedFrom false text) = true := h
      have hrest := ih hnested (seen ++ ['('])
      rw [List.count_cons_self] at hrest
      rw [if_pos rfl, hrest, List.append_assoc, List.singleton_append]
    · rw [if_neg hopen]
      by_cases hclose : c = ')'
      · subst hclose
        have hkind : declaredKind (')', afterEquals) = .closing := rfl
        simp only [hkind] at h
        cases expected with
        | nil => cases h
        | cons closer expected =>
          obtain ⟨hcloser, hnested⟩ := Bool.and_eq_true_iff.1 h
          have hrest := ih hnested (seen ++ [')'])
          rw [of_decide_eq_true hcloser, List.count_cons_self, if_pos rfl, if_neg (by omega)]
          rw [Nat.add_sub_cancel, hrest, List.append_assoc, List.singleton_append]
      · rw [if_neg hclose]
        have hstep : ∃ expected', expected'.count ')' = expected.count ')' ∧
            bracketed expected' (markedFrom (c = '=') text) = true := by
          cases hkind : declaredKind (c, afterEquals) with
          | opening =>
            simp only [hkind] at h
            exact ⟨_, List.count_cons_of_ne (closerOf_ne hopen), h⟩
          | closing =>
            simp only [hkind] at h
            cases expected with
            | nil => cases h
            | cons closer expected =>
              obtain ⟨hcloser, hnested⟩ := Bool.and_eq_true_iff.1 h
              refine ⟨expected, (List.count_cons_of_ne ?_).symm, hnested⟩
              rw [of_decide_eq_true hcloser]
              exact hclose
          | separator =>
            simp only [hkind] at h
            exact ⟨expected, rfl, h⟩
          | other =>
            simp only [hkind] at h
            exact ⟨expected, rfl, h⟩
        obtain ⟨expected', hcount, hnested⟩ := hstep
        have hrest := ih hnested (seen ++ [c])
        rw [← hcount, hrest, List.append_assoc, List.singleton_append]

variable {before after signature : Signature}

theorem parseSignature_text (signature : Signature) :
    parseSignature signature.text = some
      { parameters := (splitTopLevel signature.parameters).map parseParameter
        returnType := signature.returnType } := by
  have hhead : ∀ c ∈ signature.head, decide (c ≠ '(') = true := by
    intro c hc
    have hplain := signature.head_plain
    rw [List.contains_eq_mem, decide_eq_false_iff_not] at hplain
    apply decide_eq_true
    rintro rfl
    exact hplain hc
  have hdrop : signature.text.dropWhile (· ≠ '(') =
      '(' :: (signature.parameters ++ ')' :: signature.tail) := by
    rw [Signature.text, List.dropWhile_append_of_pos hhead]
    exact List.dropWhile_cons_of_neg (by decide)
  have hclose : closeFrom 1 [] (signature.parameters ++ ')' :: signature.tail) =
      some (signature.parameters, signature.tail) := closeFrom_bracketed signature.nested [] signature.tail
  unfold parseSignature
  rw [hdrop]
  simp only [hclose, Option.map_some]
  rfl

theorem compareSignatures_text (hbefore : splitTopLevel before.parameters = before.declared)
    (hafter : splitTopLevel after.parameters = after.declared) (hne : before.text ≠ after.text) :
    compareSignatures (some before.text) (some after.text) =
      compareParsed ⟨before.declared.map parseParameter, before.returnType⟩
        ⟨after.declared.map parseParameter, after.returnType⟩ := by
  simp only [compareSignatures, if_neg hne, parseSignature_text, hbefore, hafter]

/-- There are two ways to be compatible: to add parameters, or to return something at last. -/
theorem compareParsed_compatible {left right : ParsedSignature} :
    (compareParsed left right).compatibility = .compatible ↔
      (left.parameters.length < right.parameters.length ∧
        (right.parameters.drop left.parameters.length).all (·.optional) = true) ∨
      (left.parameters.map (·.type) = right.parameters.map (·.type) ∧
        isVoid left.returnType = true ∧ isVoid right.returnType = false) := by
  unfold compareParsed
  by_cases hadded : right.parameters.length > left.parameters.length
  · have hmap : left.parameters.map (·.type) ≠ right.parameters.map (·.type) := by
      intro hmap
      have hlength := congrArg List.length hmap
      simp only [List.length_map] at hlength
      omega
    rw [if_pos hadded]
    split
    · next hall => simp [hadded, hall]
    · next hall => simp [hadded, hall, hmap]
  · rw [if_neg hadded]
    have hnot : ¬ left.parameters.length < right.parameters.length := hadded
    simp only [hnot, false_and, false_or]
    split
    · next hremoved =>
      have hmap : left.parameters.map (·.type) ≠ right.parameters.map (·.type) := by
        intro hmap
        have hlength := congrArg List.length hmap
        simp only [List.length_map] at hlength
        omega
      simp [hmap]
    · split
      · next htypes => simp [htypes]
      · next htypes =>
        have htypes' := not_not.1 htypes
        split
        · next hreturn =>
          split
          · next hvoid => simpa [htypes'] using hvoid
          · next hvoid =>
            split <;> simpa [htypes'] using hvoid
        · next hreturn =>
          have hreturn' := not_not.1 hreturn
          simp [hreturn']

theorem map_declaredType {parameters parameters' : List Text}
    (h : (parameters.map parseParameter).map (·.type) =
      (parameters'.map parseParameter).map (·.type)) :
    parameters.map declaredType = parameters'.map declaredType := by
  have hmap : ∀ parameters : List Text, parameters.map declaredType =
      ((parameters.map parseParameter).map (·.type)).map
        fun type => trimmed (beforeDefault 0 type) := by
    intro parameters
    simp [declaredType, parseParameter, Function.comp_def]
  rw [hmap, hmap, h]

theorem present_iff :
    (∀ (i : ℕ) (parameter : Text), before.declared[i]? = some parameter →
      ∃ parameter', after.declared[i]? = some parameter' ∧
        declaredType parameter' = declaredType parameter) ↔
    (after.declared.take before.declared.length).map declaredType =
      before.declared.map declaredType := by
  constructor
  · intro h
    apply List.ext_getElem?
    intro i
    rw [List.getElem?_map, List.getElem?_map]
    cases hi : before.declared[i]? with
    | none =>
      have hlength := List.getElem?_eq_none_iff.1 hi
      rw [List.getElem?_eq_none_iff.2 (le_trans (List.length_take_le _ _) hlength)]
    | some parameter =>
      obtain ⟨parameter', hparameter', htype⟩ := h i parameter hi
      have hlength := (List.getElem?_eq_some_iff.1 hi).1
      rw [List.getElem?_take_of_lt hlength, hparameter', Option.map_some, Option.map_some, htype]
  · intro h i parameter hi
    have hlength := (List.getElem?_eq_some_iff.1 hi).1
    have hat := congrArg (fun types => types[i]?) h
    simp only [List.getElem?_map, List.getElem?_take_of_lt hlength, hi, Option.map_some] at hat
    exact Option.map_eq_some_iff.1 hat

/-- The comparison is sound exactly if no comma inside brackets is met after as many arrows, and
parameters are added with care. -/
theorem compareSignatures_sound_iff (before after : Signature) :
    SoundlyCompared before after ↔
      CountsBrackets before.parameters ∧ CountsBrackets after.parameters ∧
        AddsCarefully before after := by
  constructor
  · intro h
    have hkept := h.compatible
    refine ⟨(splitTopLevel_exact_iff _).1 h.before_split, (splitTopLevel_exact_iff _).1 h.after_split,
      fun hadded hall => ?_⟩
    have hne : before.text ≠ after.text := by
      intro heq
      have hparsed := congrArg parseSignature heq
      rw [parseSignature_text, parseSignature_text, h.before_split, h.after_split] at hparsed
      have hlength := congrArg (fun parsed => parsed.parameters.length) (Option.some.inj hparsed)
      simp only [List.length_map] at hlength
      omega
    rw [compareSignatures_text h.before_split h.after_split hne, compareParsed_compatible] at hkept
    obtain ⟨hpresent, hoptional, hreturned⟩ := hkept (Or.inl ⟨by simpa using hadded, by
      simpa [← List.map_drop, parseParameter, Function.comp_def] using hall⟩)
    exact ⟨present_iff.1 hpresent, List.all_eq_true.2 hoptional, hreturned⟩
  · rintro ⟨hbefore, hafter, hcareful⟩
    have hbefore' := (splitTopLevel_exact_iff _).2 hbefore
    have hafter' := (splitTopLevel_exact_iff _).2 hafter
    refine ⟨hbefore', hafter', fun hcompatible => ?_⟩
    have hne : before.text ≠ after.text := by
      intro heq
      rw [heq] at hcompatible
      simp [compareSignatures] at hcompatible
    rw [compareSignatures_text hbefore' hafter' hne, compareParsed_compatible] at hcompatible
    rcases hcompatible with ⟨hadded, hall⟩ | ⟨htypes, hvoid, -⟩
    · obtain ⟨htypes, hoptional, hreturned⟩ := hcareful (by simpa using hadded) (by
        simpa [← List.map_drop, parseParameter, Function.comp_def] using hall)
      exact ⟨present_iff.2 htypes, List.all_eq_true.1 hoptional, hreturned⟩
    · have hdeclared := map_declaredType htypes
      have hlength : before.declared.length = after.declared.length := by
        simpa using congrArg List.length hdeclared
      refine ⟨present_iff.2 ?_, ?_, fun hweakened => hweakened.2.1 (of_decide_eq_true hvoid)⟩
      · rw [hlength, List.take_length, hdeclared]
      · rw [hlength, List.drop_length]
        exact fun parameter hmem => absurd hmem List.not_mem_nil

/-- The type of a parameter is changed and nothing is returned any more. -/
theorem optional_parameter_hides_changes :
    ¬ ∀ before after : Signature, SoundlyCompared before after := by
  intro h
  have hsound := h
    ⟨[], "value: string".toList, ": string".toList, by decide, by decide, by decide⟩
    ⟨[], "value: number, suffix?: string".toList, ": void".toList, by decide, by decide, by decide⟩
  exact (hsound.compatible (by decide)).returned ⟨by decide, by decide, by decide⟩

end Soundness

end Mottainai.SemanticDiff

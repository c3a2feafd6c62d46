import Mottainai.BoundedSearch
import Mottainai.SemanticSchema

/-!
# Effects of symbols and components

The effects that symbols have by themselves are collected first, with what stays unknown about them.
The effects through calls are found by a search that does not follow paths of more than 64 symbols,
as the bounded search does. A search that was cut records this for the symbol itself, but after the
unknowns of the symbol were read, so that only another unknown keeps the result from being complete.
-/

namespace Mottainai.Effects

open JsonValues OrderedMaps

abbrev LogicalId : Type := String

section Values

/-- An effect, such as `filesystem.read`. -/
structure EffectId where
  text : String
  valid : Semantics.isEffectId text.toList = true
  deriving DecidableEq

inductive Completeness where
  | complete
  | partly
  | unknown
  deriving DecidableEq

/-- The completeness of something that is not complete. -/
inductive Incompleteness where
  | partly
  | unknown
  deriving DecidableEq

structure SourcePosition where
  line : ℕ
  column : ℕ
  deriving DecidableEq

structure SourceRange where
  start : SourcePosition
  finish : Option SourcePosition
  deriving DecidableEq

structure EffectSourceLocation where
  path : String
  range : Option SourceRange
  deriving DecidableEq

structure EffectOrigin where
  symbolId : LogicalId
  location : EffectSourceLocation
  deriving DecidableEq

structure EffectEvidence where
  effect : EffectId
  origin : EffectOrigin
  path : List String
  deriving DecidableEq

inductive EffectUnknownCode where
  | dynamicCall
  | unresolvedCall
  | opaqueExternalCall
  | dynamicImport
  | unresolvedSymbol
  | evidencePathBounded
  | symbolIdentityUnavailable
  | analysisUnavailable
  | tsconfigDiagnostic
  | projectIncomplete
  | compilerDiagnostic
  deriving DecidableEq

def EffectUnknownCode.text : EffectUnknownCode → String
  | dynamicCall => "dynamic-call"
  | unresolvedCall => "unresolved-call"
  | opaqueExternalCall => "opaque-external-call"
  | dynamicImport => "dynamic-import"
  | unresolvedSymbol => "unresolved-symbol"
  | evidencePathBounded => "evidence-path-bounded"
  | symbolIdentityUnavailable => "symbol-identity-unavailable"
  | analysisUnavailable => "analysis-unavailable"
  | tsconfigDiagnostic => "tsconfig-diagnostic"
  | projectIncomplete => "project-incomplete"
  | compilerDiagnostic => "compiler-diagnostic"

structure EffectUnknown where
  code : EffectUnknownCode
  subjectId : Option LogicalId
  message : String
  location : Option EffectSourceLocation
  completeness : Incompleteness
  deriving DecidableEq

structure EffectDiagnostic where
  code : String
  message : String
  subjectId : Option LogicalId
  deriving DecidableEq

def sourceRangeKey (location : EffectSourceLocation) : String :=
  match location.range with
  | none => location.path ++ ":"
  | some range =>
      let finish := range.finish.map fun position =>
        toString position.line ++ ":" ++ toString position.column
      location.path ++ ":" ++ toString range.start.line ++ ":" ++ toString range.start.column ++ ":" ++
        finish.getD ":"

def completenessForUnknowns (unknowns : List EffectUnknown) : Completeness :=
  if unknowns.any (·.completeness = .unknown) then .unknown
  else if unknowns.length = 0 then .complete else .partly

def mergeCompleteness (values : List Completeness) : Completeness :=
  if values.any (· = .unknown) then .unknown
  else if values.any (· = .partly) then .partly else .complete

def effectEvidenceKey (evidence : EffectEvidence) : String :=
  evidence.effect.text ++ "|" ++ evidence.origin.symbolId ++ "|" ++
    sourceRangeKey evidence.origin.location ++ "|" ++ String.intercalate "->" evidence.path

def unknownKey (unknown : EffectUnknown) : String :=
  unknown.code.text ++ "|" ++ unknown.subjectId.getD "" ++ "|" ++
    (unknown.location.map sourceRangeKey).getD "" ++ "|" ++ unknown.message

def sortEvidence (values : List EffectEvidence) : List EffectEvidence :=
  sortBy effectEvidenceKey values

def sortUnknowns (values : List EffectUnknown) : List EffectUnknown := sortBy unknownKey values

/-- `[...new Set(values)].sort(compareText)`. -/
def sortedUnique (values : List String) : List String := sortBy id values.dedup

def sortedUniqueEffects (values : List EffectId) : List EffectId := sortBy EffectId.text values.dedup

end Values

section Collecting

structure DirectState where
  evidence : List EffectEvidence
  unknowns : List EffectUnknown

/-- What is known before the calls are followed: the symbols in their order, the calls between
them, the effects that each has by itself, and the unknowns in the order in which they were added.
That a path was bounded is not known then. -/
structure Program where
  symbols : List LogicalId
  nodup : symbols.Nodup
  calls : LogicalId → List LogicalId
  calls_symbols : ∀ s, ∀ t ∈ calls s, t ∈ symbols
  evidence : LogicalId → List EffectEvidence
  unknowns : List EffectUnknown
  unknowns_code : ∀ u ∈ unknowns, u.code ≠ .evidencePathBounded

structure Collector where
  direct : LogicalId → DirectState
  unknownKeys : List String
  globalUnknowns : List EffectUnknown
  diagnostics : List EffectDiagnostic

variable (program : Program)

def addUnknown (unknown : EffectUnknown) (collector : Collector) : Collector :=
  if unknownKey unknown ∈ collector.unknownKeys then collector
  else
    let unknownKeys := unknownKey unknown :: collector.unknownKeys
    match unknown.subjectId.filter (· ∈ program.symbols) with
    | some subjectId =>
        let state := collector.direct subjectId
        { collector with
          unknownKeys
          direct := Function.update collector.direct subjectId
            { state with unknowns := state.unknowns ++ [unknown] } }
    | none => { collector with unknownKeys, globalUnknowns := collector.globalUnknowns ++ [unknown] }

def diagnosticKey (diagnostic : EffectDiagnostic) : String :=
  diagnostic.code ++ "|" ++ diagnostic.message

def addDiagnostic (diagnostic : EffectDiagnostic) (collector : Collector) : Collector :=
  if collector.diagnostics.any fun item => diagnosticKey item = diagnosticKey diagnostic then collector
  else { collector with diagnostics := collector.diagnostics ++ [diagnostic] }

def collected : Collector :=
  program.unknowns.foldl (fun collector unknown => addUnknown program unknown collector)
    { direct := fun symbolId => { evidence := program.evidence symbolId, unknowns := [] }
      unknownKeys := [], globalUnknowns := [], diagnostics := [] }

end Collecting

section Traversal

def maxEvidencePathLength : ℕ := 64

/-- The state of the search that starts from one symbol. -/
structure Traversal where
  visited : List LogicalId
  evidence : OrderedMap String EffectEvidence
  unknowns : OrderedMap String EffectUnknown
  collector : Collector

def transitiveKey (evidence : EffectEvidence) : String :=
  evidence.effect.text ++ "|" ++ evidence.origin.symbolId ++ "|" ++
    sourceRangeKey evidence.origin.location

def propagated (path : List LogicalId) (evidence : EffectEvidence) : EffectEvidence :=
  { evidence with path := (path ++ evidence.path.drop 1).take maxEvidencePathLength }

def addEvidence (path : List LogicalId) (found : OrderedMap String EffectEvidence)
    (evidence : EffectEvidence) : OrderedMap String EffectEvidence :=
  found.set (transitiveKey (propagated path evidence)) (propagated path evidence)

def addFoundUnknown (found : OrderedMap String EffectUnknown) (unknown : EffectUnknown) :
    OrderedMap String EffectUnknown := found.set (unknownKey unknown) unknown

/-- A symbol is visited: its effects and unknowns are read. -/
def enter (current : LogicalId) (path : List LogicalId) (traversal : Traversal) : Traversal :=
  let state := traversal.collector.direct current
  { traversal with
    visited := current :: traversal.visited
    evidence := state.evidence.foldl (addEvidence path) traversal.evidence
    unknowns := state.unknowns.foldl addFoundUnknown traversal.unknowns }

def boundUnknown (symbolId : LogicalId) : EffectUnknown :=
  { code := .evidencePathBounded, subjectId := some symbolId
    message := "Evidence path from " ++ symbolId ++ " exceeded the deterministic bound of 64"
    location := none, completeness := .partly }

def boundDiagnostic (symbolId : LogicalId) : EffectDiagnostic :=
  { code := "evidence_path_bounded"
    message := "Evidence path from " ++ symbolId ++ " reached the deterministic bound of 64"
    subjectId := some symbolId }

variable (program : Program)

def recordBound (symbolId : LogicalId) (collector : Collector) : Collector :=
  addDiagnostic (boundDiagnostic symbolId) (addUnknown program (boundUnknown symbolId) collector)

/-- The callees of a symbol in their order. -/
def targets (current : LogicalId) : List LogicalId := sortBy id (program.calls current)

/-- `visit`. The fuel is what is left of the bound on the path, and does not run out. -/
def visit (symbolId : LogicalId) : ℕ → LogicalId → List LogicalId → Traversal → Traversal
  | 0, _, _, traversal => traversal
  | fuel + 1, current, path, traversal =>
      if current ∈ traversal.visited then traversal
      else (targets program current).foldl (fun traversal target =>
        if maxEvidencePathLength ≤ path.length then
          { traversal with collector := recordBound program symbolId traversal.collector }
        else visit symbolId fuel target (path ++ [target]) traversal) (enter current path traversal)

structure SymbolEffectResult where
  symbolId : LogicalId
  direct : List EffectEvidence
  transitive : List EffectEvidence
  directCompleteness : Completeness
  transitiveCompleteness : Completeness
  unknowns : List EffectUnknown

def traverse (symbolId : LogicalId) (collector : Collector) : Traversal :=
  visit program symbolId maxEvidencePathLength symbolId [symbolId]
    { visited := [], evidence := OrderedMap.empty, unknowns := OrderedMap.empty, collector }

def symbolResult (symbolId : LogicalId) (collector : Collector) : SymbolEffectResult × Collector :=
  let state := collector.direct symbolId
  let traversal := traverse program symbolId collector
  let unknowns := sortUnknowns traversal.unknowns.values
  ({ symbolId
     direct := sortEvidence state.evidence
     transitive := sortEvidence traversal.evidence.values
     directCompleteness := completenessForUnknowns (sortUnknowns state.unknowns)
     transitiveCompleteness := completenessForUnknowns unknowns
     unknowns }, traversal.collector)

def symbolResults : List LogicalId → Collector → List SymbolEffectResult × Collector
  | [], collector => ([], collector)
  | symbolId :: symbolIds, collector =>
      let first := symbolResult program symbolId collector
      let rest := symbolResults symbolIds first.2
      (first.1 :: rest.1, rest.2)

def buildSymbolResults : List SymbolEffectResult × Collector :=
  symbolResults program program.symbols (collected program)

end Traversal

section Components

structure Relation where
  kind : String
  source : LogicalId
  target : LogicalId
  authority : String

inductive Purity where
  | pure
  | readonly
  | effectful
  | unknown
  deriving DecidableEq

inductive Inheritance where
  | inherit
  | extend
  | replace
  deriving DecidableEq

structure EffectPolicy where
  id : LogicalId
  subject : LogicalId
  allow : List EffectId
  deny : List EffectId
  purity : Option Purity
  inheritance : Option Inheritance

/-- What the snapshot declares: the project, the components, the relations and the policies. -/
structure Declarations where
  projectId : LogicalId
  components : List LogicalId
  relations : List Relation
  effectPolicies : List EffectPolicy

structure ComponentEffectResult where
  componentId : LogicalId
  ownedSymbolIds : List LogicalId
  direct : List EffectEvidence
  transitive : List EffectEvidence
  completeness : Completeness
  unknowns : List EffectUnknown

/-- `new Map(items.map((item) => [key(item), item])).get(id)`. -/
def lastWith {α : Type} (key : α → LogicalId) (items : List α) (id : LogicalId) : Option α :=
  items.reverse.find? fun item => key item = id

variable (program : Program) (declarations : Declarations)

def declaredOwners (subjectId : LogicalId) : List LogicalId :=
  (declarations.relations.filter fun relation => relation.kind = "owns" ∧
    relation.authority = "declared" ∧ relation.target = subjectId ∧
    relation.source ∈ declarations.components).map (·.source)

def ownedSymbolIds (componentId : LogicalId) : List LogicalId :=
  sortedUnique ((declarations.relations.filter fun relation => relation.kind = "owns" ∧
    relation.authority = "declared" ∧ relation.source = componentId ∧
    relation.target ∈ program.symbols).map (·.target))

def componentResult (symbols : List SymbolEffectResult) (globalUnknowns : List EffectUnknown)
    (componentId : LogicalId) : ComponentEffectResult :=
  let owned := ownedSymbolIds program declarations componentId
  let memberResults := owned.filterMap (lastWith (·.symbolId) symbols)
  let unknowns := sortUnknowns (memberResults.flatMap (·.unknowns) ++ globalUnknowns)
  { componentId
    ownedSymbolIds := owned
    direct := sortEvidence (memberResults.flatMap (·.direct))
    transitive := sortEvidence (memberResults.flatMap (·.transitive))
    completeness := mergeCompleteness
      (completenessForUnknowns unknowns :: memberResults.map (·.transitiveCompleteness))
    unknowns }

def buildComponentResults (symbols : List SymbolEffectResult)
    (globalUnknowns : List EffectUnknown) : List ComponentEffectResult :=
  sortBy (·.componentId)
    (declarations.components.map (componentResult program declarations symbols globalUnknowns))

end Components

section Policies

/-- `purityStrength`. -/
def Purity.strength : Purity → ℕ
  | unknown => 0
  | effectful => 1
  | readonly => 2
  | pure => 3

def mergePurity (current next : Option Purity) : Option Purity :=
  match current, next with
  | none, next => next
  | current, none => current
  | some current, some next =>
      if current = .unknown ∨ next = .unknown then some .unknown
      else if current.strength < next.strength then some next else some current

structure PolicyResolution where
  policyIds : List LogicalId
  subjectId : LogicalId
  allow : List EffectId
  deny : List EffectId
  purity : Option Purity
  inheritedFrom : List LogicalId
  allowSources : OrderedMap EffectId LogicalId
  denySources : OrderedMap EffectId LogicalId
  puritySource : Option LogicalId

variable (declarations : Declarations)

def policyChain (subjectId : LogicalId) : List LogicalId :=
  let componentParents := sortedUnique (declaredOwners declarations subjectId)
  ((if subjectId ≠ declarations.projectId then [declarations.projectId] else []) ++
    componentParents.filter (· ≠ subjectId) ++ [subjectId]).eraseDups

def policyRecords (subjectId : LogicalId) : List EffectPolicy :=
  (policyChain declarations subjectId).flatMap fun id =>
    sortBy (·.id) (declarations.effectPolicies.filter (·.subject = id))

def setSources (sources : OrderedMap EffectId LogicalId) (effects : List EffectId)
    (policyId : LogicalId) : OrderedMap EffectId LogicalId :=
  effects.foldl (fun sources effect => sources.set effect policyId) sources

def applyPolicy (first : Bool) (policy : EffectPolicy) (resolution : PolicyResolution) :
    PolicyResolution :=
  let mode := policy.inheritance.getD .extend
  let applied :=
    if first ∨ mode = .replace then
      { resolution with
        allow := policy.allow
        deny := policy.deny
        allowSources := setSources OrderedMap.empty policy.allow policy.id
        denySources := setSources OrderedMap.empty policy.deny policy.id
        purity := policy.purity
        puritySource := policy.purity.map fun _ => policy.id }
    else if mode = .extend then
      let purity := mergePurity resolution.purity policy.purity
      { resolution with
        allow := sortedUniqueEffects (resolution.allow ++ policy.allow)
        deny := sortedUniqueEffects (resolution.deny ++ policy.deny)
        allowSources := setSources resolution.allowSources policy.allow policy.id
        denySources := setSources resolution.denySources policy.deny policy.id
        purity
        puritySource := if purity = resolution.purity then resolution.puritySource else some policy.id }
    else resolution
  if policy.subject ≠ resolution.subjectId ∧ policy.subject ∉ applied.inheritedFrom then
    { applied with inheritedFrom := applied.inheritedFrom ++ [policy.subject] }
  else applied

def resolvePolicy (subjectId : LogicalId) : Option PolicyResolution :=
  match policyRecords declarations subjectId with
  | [] => none
  | policy :: policies =>
      let unresolved : PolicyResolution :=
        { policyIds := (policy :: policies).map (·.id), subjectId, allow := [], deny := []
          purity := none, inheritedFrom := [], allowSources := OrderedMap.empty
          denySources := OrderedMap.empty, puritySource := none }
      let resolved := policies.foldl (fun resolution policy => applyPolicy false policy resolution)
        (applyPolicy true policy unresolved)
      some { resolved with
        allow := sortedUniqueEffects resolved.allow
        deny := sortedUniqueEffects resolved.deny
        inheritedFrom := sortBy id resolved.inheritedFrom }

inductive EffectViolationCode where
  | forbiddenEffect
  | declaredPureViolation
  | unallowedEffect
  deriving DecidableEq

def EffectViolationCode.text : EffectViolationCode → String
  | forbiddenEffect => "forbidden-effect"
  | declaredPureViolation => "declared-pure-violation"
  | unallowedEffect => "unallowed-effect"

structure EffectViolation where
  subjectId : LogicalId
  policyId : LogicalId
  code : EffectViolationCode
  effect : EffectId
  evidence : EffectEvidence

def violationKey (violation : EffectViolation) : String :=
  violation.subjectId ++ "|" ++ violation.policyId ++ "|" ++ violation.code.text ++ "|" ++
    violation.effect.text ++ "|" ++ effectEvidenceKey violation.evidence

def mutationEffect (effect : EffectId) : Bool :=
  ".write".toList.isSuffixOf effect.text.toList || effect.text = "process.spawn" ||
    effect.text = "process.state"

def sourcePolicyId (resolution : PolicyResolution) (code : EffectViolationCode) (effect : EffectId) :
    LogicalId :=
  let policyId := resolution.policyIds.getLast?.getD resolution.subjectId
  match code with
  | .forbiddenEffect => (resolution.denySources.get effect).getD policyId
  | .declaredPureViolation => resolution.puritySource.getD policyId
  | .unallowedEffect => (resolution.allowSources.get effect).getD policyId

def violationCodes (resolution : PolicyResolution) (effect : EffectId) : List EffectViolationCode :=
  (if effect ∈ resolution.deny then [.forbiddenEffect] else []) ++
    (if resolution.purity = some .pure ∨
        resolution.purity = some .readonly ∧ mutationEffect effect = true then
      [.declaredPureViolation] else []) ++
    (if resolution.allow ≠ [] ∧ effect ∉ resolution.allow then [.unallowedEffect] else [])

def evaluateViolations (subjectId : LogicalId) (actualEffects : List EffectId)
    (evidence : List EffectEvidence) (resolution : PolicyResolution) : List EffectViolation :=
  let violations := actualEffects.flatMap fun effect =>
    match evidence.find? (·.effect = effect) with
    | none => []
    | some item => (violationCodes resolution effect).map fun code =>
        { subjectId, policyId := sourcePolicyId resolution code effect, code, effect, evidence := item }
  let deduped := violations.foldl (fun found violation => found.set (violationKey violation) violation)
    (OrderedMap.empty : OrderedMap String EffectViolation)
  sortBy violationKey deduped.values

inductive EffectConformanceStatus where
  | conforming
  | violation
  | unknown
  | unconstrained
  deriving DecidableEq

structure EffectConformanceResult where
  subjectId : LogicalId
  status : EffectConformanceStatus
  completeness : Completeness
  policy : Option PolicyResolution
  actualEffects : List EffectId
  violations : List EffectViolation
  unknowns : List EffectUnknown

structure SubjectResult where
  evidence : List EffectEvidence
  unknowns : List EffectUnknown
  completeness : Completeness

def subjectResult (symbols : List SymbolEffectResult) (components : List ComponentEffectResult)
    (globalUnknowns : List EffectUnknown) (subjectId : LogicalId) : SubjectResult :=
  match lastWith (·.symbolId) symbols subjectId with
  | some result => { evidence := result.transitive, unknowns := result.unknowns
                     completeness := result.transitiveCompleteness }
  | none =>
    match lastWith (·.componentId) components subjectId with
    | some result => { evidence := result.transitive, unknowns := result.unknowns
                       completeness := result.completeness }
    | none =>
        let isProject := subjectId = declarations.projectId
        let unknowns :=
          if isProject then sortUnknowns (globalUnknowns ++ symbols.flatMap (·.unknowns))
          else [{ code := .unresolvedSymbol, subjectId := some subjectId
                  message := "Declared effect policy subject has no derived Symbol or Component result"
                  location := none, completeness := .unknown }]
        { evidence := if isProject then sortEvidence (symbols.flatMap (·.transitive)) else []
          unknowns, completeness := completenessForUnknowns unknowns }

def conformanceStatus (policy : Option PolicyResolution) (violations : List EffectViolation)
    (completeness : Completeness) : EffectConformanceStatus :=
  match policy with
  | none => if completeness = .complete then .unconstrained else .unknown
  | some _ =>
      if 0 < violations.length then .violation
      else if completeness ≠ .complete then .unknown else .conforming

def conformanceResult (symbols : List SymbolEffectResult) (components : List ComponentEffectResult)
    (globalUnknowns : List EffectUnknown) (subjectId : LogicalId) : EffectConformanceResult :=
  let result := subjectResult declarations symbols components globalUnknowns subjectId
  let actualEffects := sortedUniqueEffects (result.evidence.map (·.effect))
  let policy := resolvePolicy declarations subjectId
  let violations := match policy with
    | none => []
    | some resolution =>
        if result.completeness ≠ .complete then []
        else evaluateViolations subjectId actualEffects result.evidence resolution
  { subjectId
    status := conformanceStatus policy violations result.completeness
    completeness := result.completeness
    policy, actualEffects, violations
    unknowns := result.unknowns }

def buildConformance (symbols : List SymbolEffectResult) (components : List ComponentEffectResult)
    (globalUnknowns : List EffectUnknown) : List EffectConformanceResult :=
  (sortedUnique (symbols.map (·.symbolId) ++ components.map (·.componentId) ++
    declarations.effectPolicies.map (·.subject))).map
      (conformanceResult declarations symbols components globalUnknowns)

structure EffectAnalysis where
  symbols : List SymbolEffectResult
  components : List ComponentEffectResult
  conformance : List EffectConformanceResult

/-- `collect`, once the effects and the unknowns of the program are known. -/
def analyze (program : Program) : EffectAnalysis :=
  let built := buildSymbolResults program
  let components := buildComponentResults program declarations built.1 built.2.globalUnknowns
  { symbols := built.1
    components
    conformance := buildConformance declarations built.1 components built.2.globalUnknowns }

end Policies

open OrderedMaps.OrderedMap BoundedSearch

section Keys

theorem bar_not_mem_effectIdTail {cs : List Char} (h : Semantics.isEffectIdTail cs = true) :
    '|' ∉ cs := by
  fun_induction Semantics.isEffectIdTail cs with
  | case1 => exact List.not_mem_nil
  | case2 c cs ih =>
    rw [Bool.and_eq_true] at h
    have hc : '|' ≠ c := fun heq => absurd (heq ▸ h.1) (by decide)
    simp [hc, ih h.2]
  | case3 c cs _ ih =>
    rw [Bool.and_eq_true] at h
    have hc : '|' ≠ c := fun heq => absurd (heq ▸ h.1) (by decide)
    simp [hc, ih h.2]

theorem EffectId.bar_not_mem (effect : EffectId) : '|' ∉ effect.text.toList := by
  obtain ⟨text, hvalid⟩ := effect
  change '|' ∉ text.toList
  revert hvalid
  cases text.toList with
  | nil => exact fun _ => List.not_mem_nil
  | cons c cs =>
    intro hvalid hmem
    rw [Semantics.isEffectId, Bool.and_eq_true] at hvalid
    rcases List.mem_cons.1 hmem with rfl | hmem
    · exact absurd hvalid.1 (by decide)
    · exact bar_not_mem_effectIdTail hvalid.2 hmem

theorem effect_eq_of_transitiveKey {e e' : EffectEvidence} (h : transitiveKey e = transitiveKey e') :
    e.effect = e'.effect := by
  have hchars := congrArg String.toList h
  simp only [transitiveKey, String.toList_append, List.append_assoc] at hchars
  have htext := (append_separator_inj e.effect.bar_not_mem e'.effect.bar_not_mem hchars).1
  have hsame : e.effect.text = e'.effect.text := String.toList_injective htext
  cases he : e.effect
  cases he' : e'.effect
  rw [he, he'] at hsame
  cases hsame
  rfl

end Keys

section Entering

variable {path : List LogicalId} {found : OrderedMap String EffectEvidence}

def About (evidence : List EffectEvidence) (effect : EffectId) : Prop :=
  ∃ e ∈ evidence, e.effect = effect

variable (path) in
theorem addEvidence_spec (h : Filed transitiveKey found) (evidence : List EffectEvidence) :
    Filed transitiveKey (evidence.foldl (addEvidence path) found) ∧ ∀ effect,
      About (evidence.foldl (addEvidence path) found).values effect ↔
        About found.values effect ∨ About evidence effect := by
  induction evidence generalizing found with
  | nil => exact ⟨h, fun effect => by simp [About]⟩
  | cons e evidence ih =>
    obtain ⟨hfiled, habout⟩ := ih (h.set (propagated path e))
    refine ⟨hfiled, fun effect => ?_⟩
    rw [List.foldl_cons]
    refine (habout effect).trans ?_
    have hset : About (found.set (transitiveKey (propagated path e)) (propagated path e)).values effect ↔
        About found.values effect ∨ e.effect = effect :=
      h.read_set (fun _ _ => effect_eq_of_transitiveKey) (propagated path e) effect
    rw [hset, or_assoc]
    simp [About]

theorem addFoundUnknown_spec (found : OrderedMap String EffectUnknown)
    (unknowns : List EffectUnknown) :
    (unknowns.foldl addFoundUnknown found).values = [] ↔ found.values = [] ∧ unknowns = [] := by
  induction unknowns generalizing found with
  | nil => simp
  | cons unknown unknowns ih =>
    rw [List.foldl_cons, ih]
    have hne : (addFoundUnknown found unknown).values ≠ [] :=
      List.ne_nil_of_mem mem_values_set_self
    simp [hne]

end Entering

section Bound

variable {program : Program} {s t : LogicalId} {collector : Collector}
variable (diagnostic : EffectDiagnostic) (unknown : EffectUnknown)

theorem unknownKey_mem_addUnknown (collector : Collector) :
    unknownKey unknown ∈ (addUnknown program unknown collector).unknownKeys := by
  unfold addUnknown
  split_ifs with h
  · exact h
  · cases unknown.subjectId.filter (· ∈ program.symbols) with
    | none => exact List.mem_cons_self
    | some subjectId => exact List.mem_cons_self

theorem direct_addUnknown_of_ne {unknown : EffectUnknown} (h : unknown.subjectId ≠ some t) :
    (addUnknown program unknown collector).direct t = collector.direct t := by
  unfold addUnknown
  split_ifs
  · rfl
  · cases hfilter : unknown.subjectId.filter (· ∈ program.symbols) with
    | none => rfl
    | some subjectId =>
      have hsubject : unknown.subjectId = some subjectId := (Option.filter_eq_some_iff.1 hfilter).1
      have hne : t ≠ subjectId := fun heq => h (heq ▸ hsubject)
      exact Function.update_of_ne hne _ _

theorem evidence_addUnknown (t : LogicalId) :
    ((addUnknown program unknown collector).direct t).evidence = (collector.direct t).evidence := by
  unfold addUnknown
  split_ifs
  · rfl
  · cases unknown.subjectId.filter (· ∈ program.symbols) with
    | none => rfl
    | some subjectId =>
      by_cases heq : t = subjectId
      · subst heq
        simp
      · simp [Function.update_of_ne heq]

@[simp] theorem direct_addDiagnostic (collector : Collector) :
    (addDiagnostic diagnostic collector).direct = collector.direct := by
  unfold addDiagnostic
  split_ifs <;> rfl

@[simp] theorem unknownKeys_addDiagnostic (collector : Collector) :
    (addDiagnostic diagnostic collector).unknownKeys = collector.unknownKeys := by
  unfold addDiagnostic
  split_ifs <;> rfl

theorem addDiagnostic_addDiagnostic (collector : Collector) :
    addDiagnostic diagnostic (addDiagnostic diagnostic collector) =
      addDiagnostic diagnostic collector := by
  have hmem : (addDiagnostic diagnostic collector).diagnostics.any
      (fun item => diagnosticKey item = diagnosticKey diagnostic) = true := by
    unfold addDiagnostic
    split_ifs with h
    · exact h
    · simp
  rw [addDiagnostic, if_pos hmem]

theorem direct_recordBound_of_ne (h : t ≠ s) :
    (recordBound program s collector).direct t = collector.direct t := by
  have hsubject : (boundUnknown s).subjectId ≠ some t := fun heq => h (Option.some.inj heq).symm
  rw [recordBound, direct_addDiagnostic, direct_addUnknown_of_ne hsubject]

theorem evidence_recordBound (s t : LogicalId) :
    ((recordBound program s collector).direct t).evidence = (collector.direct t).evidence := by
  rw [recordBound, direct_addDiagnostic, evidence_addUnknown]

/-- Meeting the bound again changes nothing. -/
theorem recordBound_recordBound (s : LogicalId) (collector : Collector) :
    recordBound program s (recordBound program s collector) = recordBound program s collector := by
  have hkey : unknownKey (boundUnknown s) ∈ (recordBound program s collector).unknownKeys := by
    rw [recordBound, unknownKeys_addDiagnostic]
    exact unknownKey_mem_addUnknown _ _
  have hadd : addUnknown program (boundUnknown s) (recordBound program s collector) =
      recordBound program s collector := by
    rw [addUnknown, if_pos hkey]
  conv_lhs => rw [recordBound, hadd]
  exact addDiagnostic_addDiagnostic _ _

theorem foldl_recordBound (s : LogicalId) (callees : List LogicalId) (traversal : Traversal)
    (h : callees ≠ []) : callees.foldl (fun traversal _ =>
      { traversal with collector := recordBound program s traversal.collector }) traversal =
        { traversal with collector := recordBound program s traversal.collector } := by
  induction callees generalizing traversal with
  | nil => exact absurd rfl h
  | cons callee callees ih =>
    rw [List.foldl_cons]
    cases callees with
    | nil => rfl
    | cons callee' callees =>
      rw [ih _ (List.cons_ne_nil _ _)]
      simp only [recordBound_recordBound]

end Bound

section Following

def searchLog (program : Program) (s : LogicalId) : Log LogicalId :=
  search (targets program) maxEvidencePathLength id maxEvidencePathLength s [s] []

def BoundCut (program : Program) (s : LogicalId) : Prop :=
  Cut (targets program) maxEvidencePathLength (searchLog program s)

instance (program : Program) (s : LogicalId) : Decidable (BoundCut program s) :=
  inferInstanceAs (Decidable (Cut _ _ _))

variable {program : Program} {s current : LogicalId} {initial : Collector}

structure Reads (initial : Collector) (log : Log LogicalId) (traversal : Traversal) : Prop where
  visited : ∀ v, v ∈ traversal.visited ↔ v ∈ BoundedSearch.visited log
  filed : Filed transitiveKey traversal.evidence
  effects : ∀ effect, About traversal.evidence.values effect ↔
    ∃ v ∈ BoundedSearch.visited log, About (initial.direct v).evidence effect
  unknowns : traversal.unknowns.values = [] ↔
    ∀ v ∈ BoundedSearch.visited log, (initial.direct v).unknowns = []

/-- The state of the search from a symbol, when the bounded search has come to a log. -/
structure Follows (program : Program) (s : LogicalId) (initial : Collector) (log : Log LogicalId)
    (traversal : Traversal) : Prop where
  reads : Reads initial log traversal
  collector : traversal.collector = if Cut (targets program) maxEvidencePathLength log then
    recordBound program s initial else initial

variable {log : Log LogicalId} {traversal : Traversal} {path : List LogicalId}

theorem Follows.direct (h : Follows program s initial log traversal) (hne : current ≠ s) :
    traversal.collector.direct current = initial.direct current := by
  rw [h.collector]
  split_ifs
  · exact direct_recordBound_of_ne hne
  · rfl

/-- Visiting a symbol reads its effects and unknowns. -/
theorem Reads.enter (h : Reads initial log traversal)
    (hdirect : traversal.collector.direct current = initial.direct current)
    (path : List LogicalId) :
    Reads initial (log ++ [(current, path)]) (enter current path traversal) := by
  obtain ⟨hfiled, heffects⟩ := addEvidence_spec path h.filed
    (traversal.collector.direct current).evidence
  refine ⟨fun v => ?_, hfiled, fun effect => ?_, ?_⟩
  · rw [mem_visited_append, ← h.visited, Effects.enter, List.mem_cons, or_comm]
  · refine (heffects effect).trans ?_
    rw [h.effects, hdirect]
    constructor
    · rintro (⟨v, hv, habout⟩ | habout)
      · exact ⟨v, mem_visited_append.2 (Or.inl hv), habout⟩
      · exact ⟨current, mem_visited_append.2 (Or.inr rfl), habout⟩
    · rintro ⟨v, hv, habout⟩
      rcases mem_visited_append.1 hv with hv | rfl
      · exact Or.inl ⟨v, hv, habout⟩
      · exact Or.inr habout
  · refine (addFoundUnknown_spec _ _).trans ?_
    rw [h.unknowns, hdirect]
    constructor
    · rintro ⟨hold, hnew⟩ v hv
      rcases mem_visited_append.1 hv with hv | rfl
      · exact hold v hv
      · exact hnew
    · intro hall
      exact ⟨fun v hv => hall v (mem_visited_append.2 (Or.inl hv)),
        hall current (mem_visited_append.2 (Or.inr rfl))⟩

theorem follows_foldl {fuel : ℕ} (callees : List LogicalId)
    (hvisit : ∀ {current : LogicalId} {path : List LogicalId} {log : Log LogicalId}
      {traversal : Traversal}, Follows program s initial log traversal →
      s ∈ BoundedSearch.visited log → Follows program s initial
        (search (targets program) maxEvidencePathLength id fuel current path log)
        (visit program s fuel current path traversal))
    (h : Follows program s initial log traversal) (hs : s ∈ BoundedSearch.visited log) :
    Follows program s initial
      (callees.foldl (fun log callee =>
        search (targets program) maxEvidencePathLength id fuel callee (path ++ [callee]) log) log)
      (callees.foldl (fun traversal callee =>
        visit program s fuel callee (path ++ [callee]) traversal) traversal) := by
  induction callees generalizing log traversal with
  | nil => exact h
  | cons callee callees ih => exact ih (hvisit h hs) (visited_search hs)

theorem follows_visit {fuel : ℕ} (h : Follows program s initial log traversal)
    (hs : s ∈ BoundedSearch.visited log) :
    Follows program s initial
      (search (targets program) maxEvidencePathLength id fuel current path log)
      (visit program s fuel current path traversal) := by
  induction fuel generalizing current path log traversal with
  | zero => exact h
  | succ fuel ih =>
    by_cases hmem : current ∈ BoundedSearch.visited log
    · rw [search_seen hmem, visit, if_pos ((h.reads.visited current).2 hmem)]
      exact h
    have hne : current ≠ s := fun heq => hmem (heq ▸ hs)
    have hreads := h.reads.enter (h.direct hne) path
    rw [visit, if_neg fun hvisited => hmem ((h.reads.visited current).1 hvisited)]
    rcases Nat.lt_or_ge path.length maxEvidencePathLength with hlt | hge
    · -- the bound is not met here, so that only the visits of the callees can meet it
      have hcut : Cut (targets program) maxEvidencePathLength (log ++ [(current, path)]) ↔
          Cut (targets program) maxEvidencePathLength log := by
        rw [cut_append_iff]
        exact or_iff_left fun hlong => absurd hlong.1 (Nat.not_le.2 hlt)
      have hfollows : Follows program s initial (log ++ [(current, path)])
          (enter current path traversal) := by
        refine ⟨hreads, ?_⟩
        simp only [hcut]
        exact h.collector
      rw [search_step hmem hlt]
      simp only [if_neg (Nat.not_le.2 hlt)]
      exact follows_foldl _ ih hfollows (mem_visited_append.2 (Or.inl hs))
    · rw [search_bounded hmem hge]
      simp only [if_pos hge]
      by_cases hcallees : targets program current = []
      · have hcut : Cut (targets program) maxEvidencePathLength (log ++ [(current, path)]) ↔
            Cut (targets program) maxEvidencePathLength log := by
          rw [cut_append_iff]
          exact or_iff_left fun hlong => hlong.2 hcallees
        rw [hcallees]
        refine ⟨hreads, ?_⟩
        simp only [hcut]
        exact h.collector
      · have hcut : Cut (targets program) maxEvidencePathLength (log ++ [(current, path)]) :=
          cut_append_iff.2 (Or.inr ⟨hge, hcallees⟩)
        rw [foldl_recordBound s _ _ hcallees]
        refine ⟨⟨hreads.visited, hreads.filed, hreads.effects, hreads.unknowns⟩, ?_⟩
        change recordBound program s traversal.collector = _
        rw [if_pos hcut, h.collector]
        split_ifs
        · exact recordBound_recordBound s initial
        · rfl

/-- What the whole search from a symbol finds. -/
theorem follows_traverse (program : Program) (s : LogicalId) (initial : Collector) :
    Follows program s initial (searchLog program s) (traverse program s initial) := by
  let start : Traversal := { visited := [], evidence := OrderedMap.empty
                             unknowns := OrderedMap.empty, collector := initial }
  have hstart : Reads initial [] start := by
    refine ⟨fun v => Iff.rfl, nofun, fun effect => ?_, ?_⟩
    · simp [start, About, OrderedMap.values, OrderedMap.empty, BoundedSearch.visited]
    · simp [start, OrderedMap.values, OrderedMap.empty, BoundedSearch.visited]
  have hshort : [s].length < maxEvidencePathLength := (by decide : 1 < maxEvidencePathLength)
  have hcut : ¬ Cut (targets program) maxEvidencePathLength ([] ++ [(s, [s])]) := by
    rw [cut_append_iff]
    rintro (⟨entry, hentry, -⟩ | ⟨hlong, -⟩)
    · cases hentry
    · exact absurd hlong (Nat.not_le.2 hshort)
  have hroot : Follows program s initial ([] ++ [(s, [s])]) (enter s [s] start) := by
    refine ⟨hstart.enter rfl [s], ?_⟩
    rw [if_neg hcut]
    rfl
  have hs : s ∈ BoundedSearch.visited ([] ++ [(s, [s])] : Log LogicalId) :=
    mem_visited_append.2 (Or.inr rfl)
  have hnew : s ∉ BoundedSearch.visited ([] : Log LogicalId) := List.not_mem_nil
  change Follows program s initial
    (search (targets program) maxEvidencePathLength id (63 + 1) s [s] [])
    (visit program s (63 + 1) s [s] start)
  rw [search_step hnew hshort, visit, if_neg List.not_mem_nil]
  simp only [if_neg (Nat.not_le.2 hshort)]
  exact follows_foldl _ follows_visit hroot hs

end Following

section Recording

variable {program : Program} {s t : LogicalId} {collector : Collector}

theorem EffectUnknownCode.bar_not_mem (code : EffectUnknownCode) : '|' ∉ code.text.toList := by
  cases code <;> decide

theorem EffectUnknownCode.text_injective : Function.Injective EffectUnknownCode.text := by
  intro code code' h
  cases code <;> cases code' <;> first | rfl | exact absurd h (by decide)

theorem toList_unknownKey (unknown : EffectUnknown) : ∃ rest,
    (unknownKey unknown).toList = unknown.code.text.toList ++ '|' :: rest := by
  simp only [unknownKey, String.toList_append, List.append_assoc]
  exact ⟨_, rfl⟩

theorem code_eq_of_unknownKey {u u' : EffectUnknown} (h : unknownKey u = unknownKey u') :
    u.code = u'.code := by
  obtain ⟨rest, hu⟩ := toList_unknownKey u
  obtain ⟨rest', hu'⟩ := toList_unknownKey u'
  have hchars := congrArg String.toList h
  rw [hu, hu'] at hchars
  exact EffectUnknownCode.text_injective (String.toList_injective
    (append_separator_inj u.code.bar_not_mem u'.code.bar_not_mem hchars).1)

/-- The records of the bound for two symbols have different keys. -/
theorem eq_of_boundUnknown (h : unknownKey (boundUnknown s) = unknownKey (boundUnknown t)) :
    s = t := by
  have hchars := congrArg String.toList h
  simp only [unknownKey, boundUnknown, Option.getD_some, Option.map_none, Option.getD_none,
    String.toList_append, List.append_assoc, List.append_cancel_left_eq] at hchars
  have hlength := congrArg List.length hchars
  simp only [List.length_append] at hlength
  exact String.toList_injective (List.append_inj_left hchars (by omega))

variable {unknown : EffectUnknown}

theorem unknownKeys_addUnknown {key : String}
    (h : key ∈ (addUnknown program unknown collector).unknownKeys) :
    key = unknownKey unknown ∨ key ∈ collector.unknownKeys := by
  unfold addUnknown at h
  split_ifs at h
  · exact Or.inr h
  · cases hfilter : unknown.subjectId.filter (· ∈ program.symbols) with
    | none =>
      rw [hfilter] at h
      exact List.mem_cons.1 h
    | some subjectId =>
      rw [hfilter] at h
      exact List.mem_cons.1 h

theorem unknowns_addUnknown (hkey : unknownKey unknown ∉ collector.unknownKeys)
    (hs : s ∈ program.symbols) (hsubject : unknown.subjectId = some s) :
    ((addUnknown program unknown collector).direct s).unknowns =
      (collector.direct s).unknowns ++ [unknown] := by
  have hfilter : unknown.subjectId.filter (· ∈ program.symbols) = some s :=
    Option.filter_eq_some_iff.2 ⟨hsubject, decide_eq_true hs⟩
  rw [addUnknown, if_neg hkey, hfilter]
  simp

theorem collected_spec (program : Program) :
    (∀ t, ((collected program).direct t).evidence = program.evidence t) ∧
      ∀ key ∈ (collected program).unknownKeys, ∃ u ∈ program.unknowns, key = unknownKey u := by
  have hfold : ∀ (unknowns : List EffectUnknown) (collector : Collector),
      (∀ t, (collector.direct t).evidence = program.evidence t) →
      (∀ key ∈ collector.unknownKeys, ∃ u ∈ program.unknowns, key = unknownKey u) →
      (∀ u ∈ unknowns, u ∈ program.unknowns) →
      (∀ t, ((unknowns.foldl (fun c u => addUnknown program u c) collector).direct t).evidence =
          program.evidence t) ∧
        ∀ key ∈ (unknowns.foldl (fun c u => addUnknown program u c) collector).unknownKeys,
          ∃ u ∈ program.unknowns, key = unknownKey u := by
    intro unknowns
    induction unknowns with
    | nil => exact fun collector hevidence hkeys _ => ⟨hevidence, hkeys⟩
    | cons u unknowns ih =>
      intro collector hevidence hkeys hunknowns
      refine ih _ (fun t => ?_) (fun key hkey => ?_)
        fun u' hu' => hunknowns u' (List.mem_cons_of_mem u hu')
      · rw [evidence_addUnknown, hevidence]
      · rcases unknownKeys_addUnknown hkey with rfl | hold
        · exact ⟨u, hunknowns u List.mem_cons_self, rfl⟩
        · exact hkeys key hold
  exact hfold program.unknowns _ (fun _ => rfl) nofun fun _ hu => hu

theorem symbolResult_collector (program : Program) (s : LogicalId) (collector : Collector) :
    (symbolResult program s collector).2 =
      if BoundCut program s then recordBound program s collector else collector :=
  (follows_traverse program s collector).collector

/-- What is recorded when the results of some symbols were built. -/
structure Recorded (program : Program) (built : List LogicalId) (collector : Collector) : Prop where
  evidence : ∀ t, (collector.direct t).evidence = program.evidence t
  keys : ∀ key ∈ collector.unknownKeys, (∃ u ∈ program.unknowns, key = unknownKey u) ∨
    ∃ t ∈ built, key = unknownKey (boundUnknown t)
  unknowns : ∀ t, (collector.direct t).unknowns = ((collected program).direct t).unknowns ++
    if t ∈ built ∧ BoundCut program t then [boundUnknown t] else []

theorem Recorded.start (program : Program) : Recorded program [] (collected program) := by
  obtain ⟨hevidence, hkeys⟩ := collected_spec program
  exact ⟨hevidence, fun key hkey => Or.inl (hkeys key hkey), fun t => by simp⟩

theorem Recorded.step {built : List LogicalId} (h : Recorded program built collector)
    (hs : s ∈ program.symbols) (hnew : s ∉ built) :
    Recorded program (built ++ [s]) (symbolResult program s collector).2 := by
  rw [symbolResult_collector]
  have hkeys : ∀ key ∈ collector.unknownKeys, (∃ u ∈ program.unknowns, key = unknownKey u) ∨
      ∃ t ∈ built ++ [s], key = unknownKey (boundUnknown t) := by
    intro key hkey
    rcases h.keys key hkey with hold | ⟨t, ht, heq⟩
    · exact Or.inl hold
    · exact Or.inr ⟨t, List.mem_append_left _ ht, heq⟩
  by_cases hcut : BoundCut program s
  · rw [if_pos hcut]
    have hkey : unknownKey (boundUnknown s) ∉ collector.unknownKeys := by
      intro hmem
      rcases h.keys _ hmem with ⟨u, hu, heq⟩ | ⟨t, ht, heq⟩
      · exact program.unknowns_code u hu (code_eq_of_unknownKey heq.symm)
      · exact hnew (eq_of_boundUnknown heq ▸ ht)
    refine ⟨fun t => ?_, fun key hmem => ?_, fun t => ?_⟩
    · rw [evidence_recordBound, h.evidence]
    · rw [recordBound, unknownKeys_addDiagnostic] at hmem
      rcases unknownKeys_addUnknown hmem with rfl | hold
      · exact Or.inr ⟨s, List.mem_append_right _ (List.mem_singleton_self s), rfl⟩
      · exact hkeys key hold
    · by_cases heq : t = s
      · subst heq
        rw [recordBound, direct_addDiagnostic, unknowns_addUnknown hkey hs rfl, h.unknowns]
        simp [hnew, hcut]
      · rw [direct_recordBound_of_ne heq, h.unknowns]
        simp [heq]
  · rw [if_neg hcut]
    refine ⟨h.evidence, hkeys, fun t => ?_⟩
    rw [h.unknowns]
    by_cases heq : t = s
    · subst heq
      simp [hcut]
    · simp [heq]

theorem Recorded.run {built rest : List LogicalId} (h : Recorded program built collector)
    (hsymbols : ∀ s ∈ rest, s ∈ program.symbols) (hnodup : (built ++ rest).Nodup) :
    Recorded program (built ++ rest) (symbolResults program rest collector).2 := by
  induction rest generalizing built collector with
  | nil =>
    rw [List.append_nil]
    exact h
  | cons s rest ih =>
    have hnew : s ∉ built := fun hmem =>
      (List.nodup_append.1 hnodup).2.2 s hmem s List.mem_cons_self rfl
    have hsplit : built ++ s :: rest = (built ++ [s]) ++ rest := by simp
    rw [hsplit] at hnodup ⊢
    exact ih (h.step (hsymbols s List.mem_cons_self) hnew)
      (fun t ht => hsymbols t (List.mem_cons_of_mem s ht)) hnodup

theorem mem_symbolResults {symbols : List LogicalId} {r : SymbolEffectResult}
    (h : r ∈ (symbolResults program symbols collector).1) : ∃ built s rest,
      symbols = built ++ s :: rest ∧
        r = (symbolResult program s (symbolResults program built collector).2).1 := by
  induction symbols generalizing collector with
  | nil => cases h
  | cons s symbols ih =>
    rcases List.mem_cons.1 h with rfl | h
    · exact ⟨[], s, symbols, rfl, rfl⟩
    · obtain ⟨built, t, rest, rfl, rfl⟩ := ih h
      exact ⟨s :: built, t, rest, rfl, rfl⟩

end Recording

section Results

variable {program : Program} {s t : LogicalId} {collector : Collector} {built : List LogicalId}

theorem completenessForUnknowns_eq_complete {unknowns : List EffectUnknown} :
    completenessForUnknowns unknowns = .complete ↔ unknowns = [] := by
  unfold completenessForUnknowns
  constructor
  · intro h
    split_ifs at h with _ hlength
    exact List.eq_nil_of_length_eq_zero hlength
  · rintro rfl
    rfl

theorem Recorded.complete_iff (h : Recorded program built collector) :
    (symbolResult program s collector).1.transitiveCompleteness = .complete ↔
      ∀ t ∈ visited (searchLog program s), ((collected program).direct t).unknowns = [] ∧
        ¬ (t ∈ built ∧ BoundCut program t) := by
  have hreads := (follows_traverse program s collector).reads
  refine completenessForUnknowns_eq_complete.trans ?_
  have hsort : sortUnknowns (traverse program s collector).unknowns.values = [] ↔
      (traverse program s collector).unknowns.values = [] := by
    rw [← List.length_eq_zero_iff, ← List.length_eq_zero_iff, sortUnknowns,
      (sortBy_perm unknownKey _).length_eq]
  rw [hsort, hreads.unknowns]
  refine forall₂_congr fun t _ => ?_
  rw [h.unknowns, List.append_eq_nil_iff]
  refine and_congr_right fun _ => ?_
  by_cases hcut : t ∈ built ∧ BoundCut program t
  · rw [if_pos hcut]
    exact iff_of_false (List.cons_ne_nil _ _) (not_not_intro hcut)
  · rw [if_neg hcut]
    exact iff_of_true rfl hcut

theorem Recorded.about_transitive (h : Recorded program built collector) (effect : EffectId) :
    About (symbolResult program s collector).1.transitive effect ↔
      ∃ t ∈ visited (searchLog program s), About (program.evidence t) effect := by
  have hreads := (follows_traverse program s collector).reads
  have hsort : About (symbolResult program s collector).1.transitive effect ↔
      About (traverse program s collector).evidence.values effect :=
    exists_congr fun e => and_congr_left fun _ => mem_sortBy
  rw [hsort, hreads.effects]
  simp only [h.evidence]

theorem reachable_targets : Reachable (targets program) s t ↔ Reachable program.calls s t := by
  have hnext : (fun v w => w ∈ targets program v) = fun v w => w ∈ program.calls v := by
    funext v w
    exact propext mem_sortBy
  rw [Reachable, Reachable, hnext]

theorem visited_iff_of_not_boundCut (h : ¬ BoundCut program s) :
    t ∈ visited (searchLog program s) ↔ Reachable program.calls s t := by
  rw [← reachable_targets]
  exact visited_iff_reachable Function.injective_id (by simp) (by simp [maxEvidencePathLength]) h

/-- What the symbols before another are. -/
theorem takeWhile_ne_of_nodup {rest : List LogicalId} (h : (built ++ s :: rest).Nodup) :
    (built ++ s :: rest).takeWhile (· ≠ s) = built := by
  have hnew : ∀ t ∈ built, decide (t ≠ s) = true := fun t ht =>
    decide_eq_true ((List.nodup_append.1 h).2.2 t ht s List.mem_cons_self)
  rw [List.takeWhile_append_of_pos hnew, List.takeWhile_cons_of_neg (by simp), List.append_nil]

variable {r : SymbolEffectResult}

theorem exists_recorded_of_mem (h : r ∈ (buildSymbolResults program).1) :
    ∃ collector, Recorded program (program.symbols.takeWhile (· ≠ r.symbolId)) collector ∧
      r = (symbolResult program r.symbolId collector).1 := by
  obtain ⟨built, s, rest, hsymbols, rfl⟩ := mem_symbolResults h
  have hnodup : (built ++ s :: rest).Nodup := hsymbols ▸ program.nodup
  refine ⟨(symbolResults program built (collected program)).2, ?_, rfl⟩
  change Recorded program (program.symbols.takeWhile (· ≠ s)) _
  rw [hsymbols, takeWhile_ne_of_nodup hnodup]
  refine (Recorded.start program).run (fun t ht => ?_) (List.nodup_append.1 hnodup).1
  rw [hsymbols]
  exact List.mem_append_left _ ht

theorem map_symbolId_symbolResults (symbols : List LogicalId) (collector : Collector) :
    (symbolResults program symbols collector).1.map (·.symbolId) = symbols := by
  induction symbols generalizing collector with
  | nil => rfl
  | cons s symbols ih => exact congrArg (s :: ·) (ih _)

theorem lastWith_symbolId (h : r ∈ (buildSymbolResults program).1) :
    lastWith (·.symbolId) (buildSymbolResults program).1 r.symbolId = some r := by
  have hids : (buildSymbolResults program).1.map (·.symbolId) = program.symbols :=
    map_symbolId_symbolResults _ _
  have hinj : ∀ r ∈ (buildSymbolResults program).1, ∀ r' ∈ (buildSymbolResults program).1,
      r.symbolId = r'.symbolId → r = r' := by
    have hnodup : ((buildSymbolResults program).1.map (·.symbolId)).Nodup := hids ▸ program.nodup
    exact fun r hr r' hr' heq => List.inj_on_of_nodup_map hnodup hr hr' heq
  cases hfind : lastWith (·.symbolId) (buildSymbolResults program).1 r.symbolId with
  | none =>
    have hne := List.find?_eq_none.1 hfind r (List.mem_reverse.2 h)
    simp at hne
  | some r' =>
    have hmem : r' ∈ (buildSymbolResults program).1 :=
      List.mem_reverse.1 (List.mem_of_find?_eq_some hfind)
    have hsame : r'.symbolId = r.symbolId := by simpa using List.find?_some hfind
    rw [hinj r' hmem r h hsame]

variable {declarations : Declarations}

theorem complete_of_conforming {c : EffectConformanceResult}
    (hr : r ∈ (analyze declarations program).symbols)
    (hc : c ∈ (analyze declarations program).conformance) (hsubject : c.subjectId = r.symbolId)
    (hstatus : c.status = .conforming) : r.transitiveCompleteness = .complete := by
  obtain ⟨subjectId, -, rfl⟩ := List.mem_map.1 hc
  obtain rfl : subjectId = r.symbolId := hsubject
  have hfound : lastWith (·.symbolId) (buildSymbolResults program).1 r.symbolId = some r :=
    lastWith_symbolId hr
  simp only [conformanceResult, subjectResult, hfound, conformanceStatus] at hstatus
  cases hpolicy : resolvePolicy declarations r.symbolId with
  | none =>
    rw [hpolicy] at hstatus
    dsimp only at hstatus
    split_ifs at hstatus
  | some resolution =>
    rw [hpolicy] at hstatus
    dsimp only at hstatus
    by_contra hcomplete
    simp [hcomplete] at hstatus

end Results

section Completeness

/-- A symbol that is said to be complete has the effects of all symbols that it reaches, and a
symbol whose search was cut is not said to be complete, nor to conform. -/
structure Exact (program : Program) (analysis : EffectAnalysis) (r : SymbolEffectResult) : Prop where
  effects : r.transitiveCompleteness = .complete → ∀ effect, About r.transitive effect ↔
    ∃ t, Reachable program.calls r.symbolId t ∧ About (program.evidence t) effect
  bounded : BoundCut program r.symbolId → r.transitiveCompleteness ≠ .complete ∧
    ∀ c ∈ analysis.conformance, c.subjectId = r.symbolId → c.status ≠ .conforming

/-- If the search from a symbol is cut, something else is unknown about a symbol that it visits:
an unknown of its own, or that an earlier search was cut. -/
def CutIsKnown (program : Program) (s : LogicalId) : Prop :=
  BoundCut program s → ∃ t ∈ visited (searchLog program s),
    ((collected program).direct t).unknowns ≠ [] ∨
      t ∈ program.symbols.takeWhile (· ≠ s) ∧ BoundCut program t

variable {program : Program} {declarations : Declarations}

theorem cutIsKnown_of_not_complete {r : SymbolEffectResult}
    (hr : r ∈ (analyze declarations program).symbols)
    (h : BoundCut program r.symbolId → r.transitiveCompleteness ≠ .complete) :
    CutIsKnown program r.symbolId := by
  obtain ⟨collector, hrecorded, hresult⟩ := exists_recorded_of_mem hr
  intro hcut
  by_contra hunknown
  simp only [not_exists, not_and, not_or, not_not] at hunknown
  refine h hcut ?_
  rw [hresult]
  exact hrecorded.complete_iff.2 fun t ht =>
    ⟨(hunknown t ht).1, fun hearlier => (hunknown t ht).2 hearlier.1 hearlier.2⟩

end Completeness

section Chains

/-- The symbols of a chain of calls. -/
def link (n : ℕ) : LogicalId := String.ofList (List.replicate (n + 1) 'f')

theorem link_injective : Function.Injective link := by
  intro m n h
  have hchars := congrArg (fun text => text.toList.length) h
  simpa [link] using hchars

theorem link_append (n : ℕ) : link n ++ "f" = link (n + 1) := by
  refine String.toList_injective ?_
  simp only [link, String.toList_append, String.toList_ofList]
  exact List.replicate_succ'.symm

def chain : Program where
  symbols := (List.range 65).map link
  nodup := List.nodup_range.map link_injective
  calls s := if s ∈ (List.range 64).map link then [s ++ "f"] else []
  calls_symbols s t ht := by
    split_ifs at ht with hs
    · obtain ⟨n, hn, rfl⟩ := List.mem_map.1 hs
      obtain rfl := List.mem_singleton.1 ht
      refine List.mem_map.2 ⟨n + 1, ?_, (link_append n).symm⟩
      rw [List.mem_range] at hn ⊢
      omega
    · cases ht
  evidence _ := []
  unknowns := []
  unknowns_code := nofun

def undeclared : Declarations :=
  { projectId := "project:p", components := [], relations := [], effectPolicies := [] }

theorem chain_targets {n : ℕ} (h : n < 64) : targets chain (link n) = [link (n + 1)] := by
  have hcalls : chain.calls (link n) = [link (n + 1)] := by
    have hmem : link n ∈ (List.range 64).map link :=
      List.mem_map_of_mem (List.mem_range.2 h)
    exact (if_pos hmem).trans (congrArg (fun s => [s]) (link_append n))
  rw [targets, hcalls]
  exact List.perm_singleton.1 (sortBy_perm id [link (n + 1)])

/-- The search along the chain comes to the symbol before the last by a path of 64 symbols. -/
theorem chain_search {fuel n : ℕ} {path : List LogicalId} {log : Log LogicalId}
    (hfuel : n + (fuel + 1) = 64) (hpath : path.length = n + 1)
    (hlog : ∀ s ∈ visited log, ∃ m < n, s = link m) :
    ∃ path', path'.length = maxEvidencePathLength ∧
      (link 63, path') ∈ search (targets chain) maxEvidencePathLength id (fuel + 1) (link n) path log := by
  induction fuel generalizing n path log with
  | zero =>
    obtain rfl : n = 63 := by omega
    have hnew : link 63 ∉ visited log := fun hmem => by
      obtain ⟨m, hm, heq⟩ := hlog _ hmem
      exact absurd (link_injective heq) (by omega)
    refine ⟨path, hpath, ?_⟩
    have hlong : maxEvidencePathLength ≤ path.length := hpath.ge
    rw [search_bounded hnew hlong]
    exact List.mem_append_right _ (List.mem_singleton_self _)
  | succ fuel ih =>
    have hnew : link n ∉ visited log := fun hmem => by
      obtain ⟨m, hm, heq⟩ := hlog _ hmem
      exact absurd (link_injective heq) (by omega)
    have hshort : path.length < maxEvidencePathLength := by
      rw [hpath, maxEvidencePathLength]
      omega
    rw [search_step hnew hshort, chain_targets (by omega), List.foldl_cons, List.foldl_nil]
    refine ih (by omega) (by simp [hpath]) fun s hs => ?_
    rcases mem_visited_append.1 hs with hs | rfl
    · obtain ⟨m, hm, rfl⟩ := hlog s hs
      exact ⟨m, by omega, rfl⟩
    · exact ⟨n, by omega, rfl⟩

theorem chain_boundCut : BoundCut chain (link 0) := by
  have hsearch : ∃ path, path.length = maxEvidencePathLength ∧
      (link 63, path) ∈ searchLog chain (link 0) := chain_search rfl rfl nofun
  obtain ⟨path, hlength, hmem⟩ := hsearch
  refine ⟨(link 63, path), hmem, hlength.ge, ?_⟩
  rw [chain_targets (by decide)]
  exact List.cons_ne_nil _ _

def lone : Program where
  symbols := ["f"]
  nodup := List.nodup_singleton _
  calls _ := []
  calls_symbols := nofun
  evidence _ := []
  unknowns := []
  unknowns_code := nofun

end Chains

section Soundness

variable {program : Program} {declarations : Declarations} {r : SymbolEffectResult}

end Soundness

end Mottainai.Effects

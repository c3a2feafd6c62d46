import Mottainai.Contracts
import Mottainai.SemanticSchema

/-!
# Mutations of semantic snapshots

A mutation puts one item into a declared collection of the snapshot. A request is refused if it is
not authorized, if one of its mutations cannot be bound, if what is not declared would change, or if
the snapshot after it is not valid or not written in formal English. The service applies a plan only
if it is the one that it builds itself. If the current snapshot is another one by then, the request
is planned again, unless an entity that it affects has changed. What is compared are texts of JSON
values.
-/

namespace Mottainai.Semantics

open JsonValues JavaScriptValues SemanticIds PercentEncoding

section Mutations

inductive SymbolSelector where
  | symbolId (symbolId : String)
  | locator (locator : JsonValue) (expectedRevision : Option String)

inductive BindingResolution where
  | resolved (symbolId : String) (locator : JsonValue)
  | missing (locator : JsonValue) (message : Option String)
  | ambiguous (locator : JsonValue) (candidates : List String) (message : Option String)
  | stale (locator : JsonValue) (symbolId message : Option String)

def BindingResolution.status : BindingResolution → String
  | resolved _ _ => "resolved"
  | missing _ _ => "missing"
  | ambiguous _ _ _ => "ambiguous"
  | stale _ _ _ => "stale"

def BindingResolution.message : BindingResolution → Option String
  | resolved _ _ => none
  | missing _ message => message
  | ambiguous _ _ message => message
  | stale _ _ message => message

/-- `SymbolBindingResolver`. -/
abbrev SymbolBindingResolver : Type := JsonValue → Option String → BindingResolution

structure BindingRequirement where
  selector : SymbolSelector
  resolution : BindingResolution

inductive SymbolOwnershipInput where
  | managed (componentId : String)
  | shared (sharedComponentIds : Option (List String))

inductive SemanticMutation where
  | component (component : JsonValue)
  | symbolOwnership (symbol : SymbolSelector) (ownership : SymbolOwnershipInput)
  | capability (capability : JsonValue)
  | contract (contract : JsonValue)
  | invariant (invariant : JsonValue)
  | rationale (rationale : JsonValue)
  | constraint (constraint : JsonValue)
  | decision (decision : JsonValue)
  | decisionLink (link : JsonValue)
  | effectPolicy (policy : JsonValue)
  | dependencyPolicy (policy : JsonValue)
  | reviewGuidance (guidance : JsonValue)
  | stability (declaration : JsonValue)
  | terminology (link : JsonValue)
  | semanticDebt (debt : JsonValue)

structure MutationDiagnostic where
  code : String
  message : String
  path : Option String
  subject : Option String
  details : Option JsonValue

def mutationDiagnostic (code message : String) (subject : Option String) : MutationDiagnostic :=
  ⟨code, message, none, subject, none⟩

/-- What a mutation did: the subject, if there is one, and what it adds to the sets. -/
structure Applied where
  snapshot : RepositorySemanticSnapshot
  subject : Option String
  affected : List String
  protectedChanges : List String
  bindings : List BindingRequirement
  diagnostics : List MutationDiagnostic

/-- A mutation that was carried out. -/
def changed (snapshot : RepositorySemanticSnapshot) (subject : String)
    (affected protectedChanges : List String) : Applied :=
  ⟨snapshot, some subject, affected, protectedChanges, [], []⟩

end Mutations

section Items

/-- Set a property of an object, in the order of the keys. -/
def insertMember (name : String) (value : JsonValue) : Properties → Properties
  | [] => [(name, value)]
  | entry :: properties =>
      if entry.1 = name then (name, value) :: properties
      else if precedes name entry.1 then (name, value) :: entry :: properties
      else entry :: insertMember name value properties

def withMember (name : String) (value item : JsonValue) : JsonValue :=
  match item with
  | .object properties => .object (insertMember name value properties)
  | item => item

/-- `replaceById`, `replaceBySubject` and `replaceByKey`. -/
def replaceByKey (keyOf : JsonValue → String) (values : List JsonValue) (value : JsonValue) :
    List JsonValue :=
  match values.findIdx? (fun item => keyOf item = keyOf value) with
  | none => values ++ [value]
  | some index => values.set index value

/-- `item.subject`. -/
def subjectOf (item : JsonValue) : String := textMember item "subject"

def decisionLinkKey (item : JsonValue) : String :=
  subjectOf item ++ ":" ++ textMember item "decisionId" ++ ":" ++ textMember item "relation"

def RepositorySemanticSnapshot.withList (s : RepositorySemanticSnapshot) (c : Collection)
    (items : List JsonValue) : RepositorySemanticSnapshot :=
  { s with collections := Function.update s.collections c (some items) }

/-- Put an item in the place of the one with its key. -/
def RepositorySemanticSnapshot.replace (s : RepositorySemanticSnapshot) (c : Collection)
    (keyOf : JsonValue → String) (value : JsonValue) : RepositorySemanticSnapshot :=
  s.withList c (replaceByKey keyOf (s.list c) value)

/-- `MUTATION_ENGINE_PRODUCER`. -/
def mutationEngineProducer : JsonValue :=
  .object [("name", .string "mottainai-semantic-mutation-engine"), ("version", .string "1.0.0")]

/-- `declaredProvenance`. The actor is not part of it. -/
def declaredProvenance (s : RepositorySemanticSnapshot) : JsonValue :=
  .object [("kind", .string "declared"), ("producer", mutationEngineProducer),
    ("sourceRevision", .object [("repositoryId", .string (idOf s.repositoryIdentity)),
      ("revisionId", .string ((s.revisionIdentity.map idOf).getD "revision:working-tree"))])]

def entityWithDeclaredAuthority (value provenance : JsonValue) : JsonValue :=
  withMember "provenance" provenance (withMember "authority" (.string "declared") value)

end Items

section Protection

/-- `entity.stability` is one of those that protect. -/
def isProtecting (item : JsonValue) : Bool :=
  textMember item "stability" = "stable" || textMember item "stability" = "protected"

def isProtectedEntity (entity : Option JsonValue) : Bool :=
  match entity with
  | none => false
  | some entity =>
      let kind := textMember entity "kind"
      if kind ∈ ["project", "component", "capability", "contract"] then
        isProtecting entity || textMember entity "reviewLevel" = "L3"
      else if kind = "invariant" then isProtecting entity
      else if kind = "constraint" then textMember entity "enforcement" = "protected"
      else false

variable (s : RepositorySemanticSnapshot)

/-- `entityById`: of two entities with one id the earlier one. -/
def entityOf (id : String) : Option JsonValue := (entities s).find? fun entity => idOf entity = id

def isProtectedSubject (id : String) : Bool :=
  isProtectedEntity (entityOf s id) ||
    ((s.list .stability).find? fun item => subjectOf item = id).any isProtecting

/-- What `markProtectedSubject` adds for each of some entities. -/
def markProtectedSubjects (ids : List String) : List String := ids.filter (isProtectedSubject s)

end Protection

section Ownership

/-- A character that `encodeURIComponent` keeps. -/
def isUnreserved (c : Char) : Bool := c.isAlphanum || "-_.!~*'()".toList.contains c

def encodeURIComponent (text : String) : List Char :=
  text.toList.flatMap fun c => if isUnreserved c then [c]
    else (String.utf8EncodeChar c).flatMap fun b => (percentByte b).map Char.toUpper

variable (s : RepositorySemanticSnapshot)

def resolveSymbol (selector : SymbolSelector) (resolver : SymbolBindingResolver) :
    Option JsonValue × Option BindingResolution × List MutationDiagnostic :=
  let symbolOf := fun id => (s.list .symbols).find? fun item => idOf item = id
  match selector with
  | .symbolId id =>
      match symbolOf id with
      | none => (none, none,
          [mutationDiagnostic "symbol_binding_missing" s!"Symbol does not exist: {id}" (some id)])
      | some symbol => (some symbol, some (.resolved (idOf symbol) (member symbol "locator")), [])
  | .locator locator expectedRevision =>
      let resolution := resolver locator expectedRevision
      match resolution with
      | .resolved id _ =>
          match symbolOf id with
          | none => (none, some resolution,
              [mutationDiagnostic "symbol_binding_missing" s!"Resolved Symbol is absent: {id}" none])
          | some symbol => (some symbol, some resolution, [])
      | _ => (none, some resolution, [mutationDiagnostic s!"symbol_binding_{resolution.status}"
          (resolution.message.getD
            s!"Symbol binding is {resolution.status}; no ownership guess is allowed") none])

/-- `relation`. -/
def ownershipRelation (kind source target : String) : Except String JsonValue := do
  let id ← createLogicalId "edge".toList (kind.toList ++ '-' :: encodeURIComponent source ++
    '-' :: encodeURIComponent target)
  pure (.object [("authority", .string "declared"), ("from", .string source),
    ("id", .string (String.ofList id)), ("kind", .string kind),
    ("provenance", declaredProvenance s), ("to", .string target)])

def isOwnershipOf (symbolId : String) (relation : JsonValue) : Bool :=
  textMember relation "authority" = "declared" &&
    (textMember relation "kind" = "owns" || textMember relation "kind" = "shares") &&
    textMember relation "to" = symbolId

def hasComponent (id : String) : Bool := (s.list .components).any fun item => idOf item = id

def SymbolOwnershipInput.owners : SymbolOwnershipInput → List String
  | managed componentId => [componentId]
  | shared sharedComponentIds => sortKeys (sharedComponentIds.getD []).dedup

def SymbolOwnershipInput.relationKind : SymbolOwnershipInput → String
  | managed _ => "owns"
  | shared _ => "shares"

def SymbolOwnershipInput.declaration (ownership : SymbolOwnershipInput) (id symbolId : String) :
    JsonValue :=
  match ownership with
  | managed componentId => .object [("classification", .string "managed"),
      ("componentId", .string componentId), ("id", .string id), ("symbolId", .string symbolId)]
  | shared _ => .object [("classification", .string "shared"), ("id", .string id),
      ("symbolId", .string symbolId)]

def missingComponent (id : String) : MutationDiagnostic :=
  mutationDiagnostic "component_binding_missing" s!"Component does not exist: {id}" (some id)

def SymbolOwnershipInput.abandoned (ownership : SymbolOwnershipInput) : Bool :=
  match ownership with
  | managed componentId => !hasComponent s componentId
  | shared _ => false

def applyOwnership (selector : SymbolSelector) (ownership : SymbolOwnershipInput)
    (resolver : SymbolBindingResolver) : Except String Applied :=
  let (symbol, resolution, diagnostics) := resolveSymbol s selector resolver
  let bindings := resolution.toList.map fun resolution => ⟨selector, resolution⟩
  match symbol with
  | none => .ok ⟨s, none, [], [], bindings, diagnostics⟩
  | some symbol =>
      let id := idOf symbol
      let previous := ((s.list .relations).filter (isOwnershipOf id)).map (textMember · "from")
      let missing := (ownership.owners.filter fun owner => !hasComponent s owner).map missingComponent
      if ownership.abandoned s then
        let affected := id :: previous
        .ok ⟨s, none, affected, markProtectedSubjects s affected, bindings, diagnostics ++ missing⟩
      else do
        let affected := id :: previous ++ ownership.owners
        let declared ← createLogicalId "ownership".toList (encodeURIComponent id)
        let declaration := ownership.declaration (String.ofList declared) id
        let relations ← ownership.owners.mapM fun owner =>
          ownershipRelation s ownership.relationKind owner id
        let retained := (s.list .relations).filter fun relation => !isOwnershipOf id relation
        .ok ⟨(s.replace .symbolOwnership idOf declaration).withList .relations
            (retained ++ relations), some id, affected, markProtectedSubjects s affected, bindings,
          diagnostics ++ missing⟩

end Ownership

section Applying

variable (s : RepositorySemanticSnapshot)

def applyEntity (c : Collection) (input : JsonValue) : Applied :=
  let previous := entityOf s (idOf input)
  let next := entityWithDeclaredAuthority input (declaredProvenance s)
  let id := idOf next
  changed (s.replace c idOf next) id [id]
    (if isProtectedEntity previous || isProtectedEntity (some next) then [id] else [])

def applyAbout (c : Collection) (keyOf : JsonValue → String) (item : JsonValue)
    (marked : List String) : Applied :=
  let next := s.replace c keyOf item
  let subject := subjectOf item
  changed next subject [subject] (marked ++ markProtectedSubjects next [subject])

def applyRationale (input : JsonValue) : Applied :=
  let item := entityWithDeclaredAuthority input (declaredProvenance s)
  let next := s.replace .rationales idOf item
  changed next (idOf item) [idOf item] (markProtectedSubjects next [idOf item])

def applyDecision (input : JsonValue) : Applied :=
  let item := entityWithDeclaredAuthority input (declaredProvenance s)
  changed (s.replace .decisions idOf item) (idOf item) [idOf item]
    (if isProtectedEntity (some item) then [idOf item] else [])

def applyDecisionLink (link : JsonValue) : Applied :=
  let next := s.replace .decisionLinks decisionLinkKey link
  let affected := [subjectOf link, textMember link "decisionId"]
  changed next (subjectOf link) affected (markProtectedSubjects next affected)

def applyReviewGuidance (guidance : JsonValue) : Applied :=
  let previous := (s.list .reviewGuidance).find? fun item => idOf item = idOf guidance
  let raised := previous.any (fun item => textMember item "level" = "L3") ||
    textMember guidance "level" = "L3"
  applyAbout s .reviewGuidance idOf guidance (if raised then [subjectOf guidance] else [])

def applyStability (declaration : JsonValue) : Applied :=
  let previous := (s.list .stability).find? fun item => subjectOf item = subjectOf declaration
  let raised := previous.any isProtecting || isProtecting declaration
  applyAbout s .stability subjectOf declaration (if raised then [subjectOf declaration] else [])

def applyTerminology (link : JsonValue) : Applied :=
  let others := (s.list .terminology).filter fun item => textMember item "term" ≠ textMember link "term"
  let next := s.withList .terminology (others ++ [link])
  let related := textsMember link "relatedEntityIds"
  changed next (related.head?.getD (idOf s.project)) (if related = [] then [idOf s.project] else related)
    (markProtectedSubjects next related)

def applyMutation (mutation : SemanticMutation) (resolver : SymbolBindingResolver) :
    Except String Applied :=
  match mutation with
  | .component component => .ok (applyEntity s .components component)
  | .symbolOwnership symbol ownership => applyOwnership s symbol ownership resolver
  | .capability capability => .ok (applyEntity s .capabilities capability)
  | .contract contract => .ok (applyEntity s .contracts contract)
  | .invariant invariant => .ok (applyEntity s .invariants invariant)
  | .rationale rationale => .ok (applyRationale s rationale)
  | .constraint constraint => .ok (applyEntity s .constraints constraint)
  | .decision decision => .ok (applyDecision s decision)
  | .decisionLink link => .ok (applyDecisionLink s link)
  | .effectPolicy policy => .ok (applyAbout s .effectPolicies idOf policy [])
  | .dependencyPolicy policy => .ok (applyAbout s .dependencyPolicies idOf policy [])
  | .reviewGuidance guidance => .ok (applyReviewGuidance s guidance)
  | .stability declaration => .ok (applyStability s declaration)
  | .terminology link => .ok (applyTerminology s link)
  | .semanticDebt debt => .ok (applyAbout s .semanticDebt idOf debt [])

end Applying

open SemanticDiff (ReviewLevel)

section Requests

inductive SemanticDeltaKind where
  | responsibility
  | capability
  | contract
  | effect
  | invariant
  | dependencyPolicy
  | publicSurface
  deriving DecidableEq

def SemanticDeltaKind.text : SemanticDeltaKind → String
  | responsibility => "responsibility"
  | capability => "capability"
  | contract => "contract"
  | effect => "effect"
  | invariant => "invariant"
  | dependencyPolicy => "dependency-policy"
  | publicSurface => "public-surface"

/-- `mutation.kind`. -/
def SemanticMutation.kind : SemanticMutation → String
  | component _ => "component"
  | symbolOwnership _ _ => "symbol-ownership"
  | capability _ => "capability"
  | contract _ => "contract"
  | invariant _ => "invariant"
  | rationale _ => "rationale"
  | constraint _ => "constraint"
  | decision _ => "decision"
  | decisionLink _ => "decision-link"
  | effectPolicy _ => "effect-policy"
  | dependencyPolicy _ => "dependency-policy"
  | reviewGuidance _ => "review-guidance"
  | stability _ => "stability"
  | terminology _ => "terminology"
  | semanticDebt _ => "semantic-debt"

/-- `DELTA_KIND_BY_MUTATION`. -/
def SemanticMutation.deltaKind : SemanticMutation → SemanticDeltaKind
  | component _ => .responsibility
  | symbolOwnership _ _ => .responsibility
  | capability _ => .capability
  | contract _ => .contract
  | invariant _ => .invariant
  | effectPolicy _ => .effect
  | dependencyPolicy _ => .dependencyPolicy
  | rationale _ | constraint _ | decision _ | decisionLink _ | reviewGuidance _ | stability _
  | terminology _ | semanticDebt _ => .publicSurface

inductive SemanticIntent where
  | semanticNeutral
  | semanticChange
  deriving DecidableEq

structure MutationProvenance where
  actor : String
  issue : Option String
  task : Option String
  ref : Option String

structure SemanticMutationRequest where
  mutations : List SemanticMutation
  intent : SemanticIntent
  reason : Option String
  authorizedDeltaKinds : Option (List SemanticDeltaKind)
  provenance : MutationProvenance
  expectedSnapshotDigest : Option JsonValue

/-- `formalEnglish`. -/
def formalEnglish (value : String) : Bool :=
  let characters := value.toList
  !characters.isEmpty && isTrimmed value &&
    characters.all (fun c => decide (0x20 ≤ c.toNat ∧ c.toNat ≤ 0x7E)) && characters.any Char.isAlpha

def validateMutationRequest (request : SemanticMutationRequest) : List MutationDiagnostic :=
  (if isBlank request.provenance.actor then
    [mutationDiagnostic "missing_transaction_actor" "transaction provenance actor is required" none]
  else []) ++
  (if request.intent = .semanticChange ∧ request.mutations ≠ [] ∧
      ¬ formalEnglish (request.reason.getD "") then
    [mutationDiagnostic "missing_semantic_change_reason"
      "meaning-changing mutations require a formal-English reason" none]
  else []) ++
  (if request.intent = .semanticNeutral ∧ request.mutations ≠ [] then
    [mutationDiagnostic "semantic_neutral_mutation"
      "semantic-neutral transactions cannot carry declared mutations" none]
  else []) ++
  request.mutations.flatMap fun mutation =>
    let required := mutation.deltaKind
    if required ∈ request.authorizedDeltaKinds.getD [] then []
    else [mutationDiagnostic "unauthorized_delta_kind"
      s!"mutation {mutation.kind} requires authorized delta kind {required.text}" none]

end Requests

section Prose

def proseKeys : List String := ["description", "responsibility", "meaning", "statement", "scope",
  "guidance", "definition", "summary", "reason", "expression", "type", "domain", "access",
  "condition", "trigger", "payload", "returnValue", "rationale"]

mutual

/-- `collectProse`. -/
def collectProse (path : String) (key : Option String) : JsonValue → List MutationDiagnostic
  | .string value =>
      if key.any (· ∈ proseKeys) && !formalEnglish value then
        [mutationDiagnostic "canonical_prose_not_formal_english"
          s!"{path} must be non-empty formal English" none]
      else []
  | .array elements => collectElements path key 0 elements
  | .object properties => collectProperties path properties
  | _ => []

def collectElements (path : String) (key : Option String) (index : ℕ) :
    List JsonValue → List MutationDiagnostic
  | [] => []
  | element :: elements =>
      collectProse s!"{path}.{index}" key element ++ collectElements path key (index + 1) elements

def collectProperties (path : String) : Properties → List MutationDiagnostic
  | [] => []
  | (childKey, value) :: properties =>
      collectProse s!"{path}.{childKey}" (some childKey) value ++ collectProperties path properties

end

def validateCanonicalProse (s : RepositorySemanticSnapshot) : List MutationDiagnostic :=
  collectProse "declarations" none (declarationsJson s)

end Prose

section Candidates

/-- The digest of a text, and what is said about a snapshot that does not meet its schema. Then
something is said. -/
structure Validator where
  sha256 : String → String
  schemaDiagnostics : RepositorySemanticSnapshot → List MutationDiagnostic
  schemaDiagnostics_ne_nil : ∀ s, schemaDiagnostics s ≠ []

variable (validator : Validator)

/-- The diagnostics of a snapshot that `validateSnapshot` does not accept. -/
def snapshotDiagnostics (s : RepositorySemanticSnapshot) : List MutationDiagnostic :=
  if wellFormed s && schemaAccepted s then
    (validateReferences s validator.sha256).map fun d => ⟨d.code, d.message, d.path, none, d.details⟩
  else validator.schemaDiagnostics s

def withStatus (s : RepositorySemanticSnapshot) (status : JsonValue) (statusReason : Option JsonValue) :
    RepositorySemanticSnapshot :=
  { s with integrity := { s.integrity with status, statusReason } }

def refreshIntegrity (s : RepositorySemanticSnapshot) (status : JsonValue) :
    RepositorySemanticSnapshot :=
  let draft := withStatus s (.string "stale")
    (some (.string "integrity is recomputed after the declared mutation"))
  if validSnapshot draft validator.sha256 then
    let digestShape := withStatus draft status
      (if textOf status = "fresh" then none
      else some (s.integrity.statusReason.getD
        (.string "integrity is stale after the declared mutation")))
    let digests := computeIntegrityDigestsFromValidated digestShape validator.sha256
    { digestShape with
      integrity := { digestShape.integrity with
        semanticStateDigest := digests.semanticStateDigest
        modelDigest := digests.modelDigest
        snapshotDigest := digests.snapshotDigest } }
  else draft

structure Progress where
  candidate : RepositorySemanticSnapshot
  affected : List String
  protectedChanges : List String
  bindings : List BindingRequirement
  mutationSubjects : List String
  mutationAffectedEntities : List (List String)
  diagnostics : List MutationDiagnostic

/-- One round of the loop of `buildCandidate`. -/
def applyNext (resolver : SymbolBindingResolver) (progress : Progress) (mutation : SemanticMutation) :
    Except String Progress := do
  let applied ← applyMutation progress.candidate mutation resolver
  pure {
    candidate := applied.snapshot
    affected := progress.affected ++ applied.affected
    protectedChanges := progress.protectedChanges ++ applied.protectedChanges
    bindings := progress.bindings ++ applied.bindings
    mutationSubjects := progress.mutationSubjects ++ applied.subject.toList
    mutationAffectedEntities :=
      progress.mutationAffectedEntities ++ [sortKeys applied.affected.dedup]
    diagnostics := progress.diagnostics ++ applied.diagnostics }

/-- The result of `buildCandidate`. -/
structure Candidate where
  candidate : Option RepositorySemanticSnapshot
  affected : List String
  protectedChanges : List String
  bindings : List BindingRequirement
  mutationSubjects : List String
  mutationAffectedEntities : List (List String)
  diagnostics : List MutationDiagnostic

/-- What was collected, with the sets in order. -/
def Progress.built (progress : Progress) (candidate : Option RepositorySemanticSnapshot)
    (diagnostics : List MutationDiagnostic) : Candidate where
  candidate := candidate
  affected := sortKeys progress.affected.dedup
  protectedChanges := sortKeys progress.protectedChanges.dedup
  bindings := progress.bindings
  mutationSubjects := progress.mutationSubjects
  mutationAffectedEntities := progress.mutationAffectedEntities
  diagnostics := diagnostics

/-- The layers that no mutation may change. -/
def nonDeclaredText (s : RepositorySemanticSnapshot) : String :=
  stableStringifyValue (objectOf [("derived", some (derivedJson s)),
    ("observed", some (observedJson s)), ("analysis", some (analysisJson s))])

/-- The part of `buildCandidate` after its loop. -/
def checkCandidate (base : RepositorySemanticSnapshot) (progress : Progress) : Candidate :=
  if progress.diagnostics ≠ [] then progress.built none progress.diagnostics
  else if nonDeclaredText base ≠ nonDeclaredText progress.candidate then
    progress.built none [mutationDiagnostic "derived_state_mutation_forbidden"
      "declared semantic mutations cannot change derived or observed facts" none]
  else
    let refreshed := refreshIntegrity validator progress.candidate base.integrity.status
    if validSnapshot refreshed validator.sha256 then
      let proseDiagnostics := validateCanonicalProse refreshed
      if proseDiagnostics ≠ [] then progress.built none proseDiagnostics
      else progress.built (some (canonicalizeSnapshot.canon refreshed)) []
    else progress.built none (snapshotDiagnostics validator refreshed)

def buildCandidate (base : RepositorySemanticSnapshot) (request : SemanticMutationRequest)
    (resolver : SymbolBindingResolver) : Except String Candidate :=
  let diagnostics := validateMutationRequest request
  if diagnostics ≠ [] then .ok ⟨none, [], [], [], [], [], diagnostics⟩
  else do
    let progress ← request.mutations.foldlM (applyNext resolver) ⟨base, [], [], [], [], [], []⟩
    pure (checkCandidate validator base progress)

end Candidates

section Transactions

structure SemanticDeltaEntry where
  id : String
  subject : String
  kind : SemanticDeltaKind
  summary : String
  reviewLevel : ReviewLevel

structure SemanticTransaction where
  sequence : ℕ
  intent : SemanticIntent
  entries : List SemanticDeltaEntry
  provenance : JsonValue
  reason : Option String
  authorizedDeltaKinds : List String
  protectedChanges : List String
  transactionProvenance : MutationProvenance

def deltaEntryFor (candidate : RepositorySemanticSnapshot) (built : Candidate)
    (mutation : SemanticMutation) (index : ℕ) : Except String SemanticDeltaEntry := do
  let subject := (built.mutationSubjects[index]?).getD (idOf candidate.project)
  let affected := (built.mutationAffectedEntities[index]?).getD [subject]
  let id ← createLogicalId "delta".toList
    ((toString index).toList ++ '-' :: encodeURIComponent subject)
  pure {
    id := String.ofList id
    subject := subject
    kind := mutation.deltaKind
    summary :=
      s!"Apply the declared {mutation.kind} mutation through the semantic mutation boundary."
    reviewLevel := if affected.any (· ∈ built.protectedChanges) then .L3 else .L2 }

/-- `transactionFor`, of a request that has this candidate. -/
def transactionFor (request : SemanticMutationRequest) (candidate : RepositorySemanticSnapshot)
    (built : Candidate) (sequence : ℕ) : Except String SemanticTransaction := do
  let entries ← request.mutations.zipIdx.mapM fun (mutation, index) =>
    deltaEntryFor candidate built mutation index
  pure {
    sequence := sequence
    intent := request.intent
    entries := entries
    provenance := declaredProvenance candidate
    reason := request.reason
    authorizedDeltaKinds :=
      sortKeys ((request.authorizedDeltaKinds.getD []).map SemanticDeltaKind.text).dedup
    protectedChanges := sortKeys built.protectedChanges
    transactionProvenance := request.provenance }

end Transactions

section Plans

structure MutationPlan where
  baseSnapshot : RepositorySemanticSnapshot
  candidateSnapshot : Option RepositorySemanticSnapshot
  request : SemanticMutationRequest
  baseSnapshotDigest : JsonValue
  affectedEntities : List String
  protectedChanges : List String
  bindingRequirements : List BindingRequirement
  expectedWrites : List JsonValue
  transaction : Option SemanticTransaction
  diagnostics : List MutationDiagnostic

/-- What the service is given: how snapshots are validated, how locators are resolved, and the writes
that bring the files of the first snapshot to the second one, with those of a transaction. -/
structure MutationContext where
  validator : Validator
  resolver : SymbolBindingResolver
  sourceWrites : RepositorySemanticSnapshot → RepositorySemanticSnapshot →
    Option SemanticTransaction → Except String (List JsonValue)

variable (context : MutationContext)

/-- `validate`. -/
def validateState (s : RepositorySemanticSnapshot) :
    Except (List MutationDiagnostic) RepositorySemanticSnapshot :=
  if validSnapshot s context.validator.sha256 then
    let proseDiagnostics := validateCanonicalProse s
    if proseDiagnostics = [] then .ok (canonicalizeSnapshot.canon s) else .error proseDiagnostics
  else .error (snapshotDiagnostics context.validator s)

def zeroDigest : JsonValue := contentDigest "sha256" (String.ofList (List.replicate 64 '0'))

/-- `computeSnapshotDigest`, or the digest of none where it throws. -/
def snapshotDigestOf (s : RepositorySemanticSnapshot) : JsonValue :=
  if validSnapshot s context.validator.sha256 then
    (computeIntegrityDigestsFromValidated s context.validator.sha256).snapshotDigest
  else zeroDigest

/-- `baseSnapshot` of `buildPlan`. -/
def plannedBase (base : RepositorySemanticSnapshot) : RepositorySemanticSnapshot :=
  match validateState context base with
  | .ok canonical => canonical
  | .error _ => base

def baseDiagnostics (base : RepositorySemanticSnapshot) (request : SemanticMutationRequest) :
    List MutationDiagnostic :=
  (match validateState context base with
    | .ok _ => []
    | .error diagnostics => diagnostics) ++
  match request.expectedSnapshotDigest with
  | none => []
  | some expected =>
      if stableStringifyValue expected =
          stableStringifyValue (snapshotDigestOf context (plannedBase context base)) then []
      else [mutationDiagnostic "mutation_base_digest_mismatch"
        "request expectedSnapshotDigest does not match the current semantic state" none]

/-- `built` of `buildPlan`. -/
def builtFor (base : RepositorySemanticSnapshot) (request : SemanticMutationRequest) :
    Except String Candidate :=
  let diagnostics := baseDiagnostics context base request
  if diagnostics ≠ [] then .ok ⟨none, [], [], [], [], [], diagnostics⟩
  else buildCandidate context.validator (plannedBase context base) request context.resolver

def planOf (base : RepositorySemanticSnapshot) (request : SemanticMutationRequest) (built : Candidate)
    (expectedWrites : List JsonValue) (transaction : Option SemanticTransaction) : MutationPlan where
  baseSnapshot := plannedBase context base
  candidateSnapshot := built.candidate
  request := request
  baseSnapshotDigest := snapshotDigestOf context (plannedBase context base)
  affectedEntities := built.affected
  protectedChanges := built.protectedChanges
  bindingRequirements := built.bindings
  expectedWrites := expectedWrites
  transaction := transaction
  diagnostics := built.diagnostics

def buildPlan (base : RepositorySemanticSnapshot) (request : SemanticMutationRequest)
    (sequence : ℕ) : Except String MutationPlan := do
  let built ← builtFor context base request
  match built.candidate with
  | none => pure (planOf context base request built [] none)
  | some candidate =>
      let transaction ← transactionFor request candidate built sequence
      let expectedWrites ← context.sourceWrites (plannedBase context base) candidate
        (if request.mutations.isEmpty then none else some transaction)
      pure (planOf context base request built expectedWrites (some transaction))

end Plans

section Texts

def stringOf (text : Option String) : Option JsonValue := text.map .string

def strings (texts : List String) : JsonValue := .array (texts.map .string)

def snapshotJson (s : RepositorySemanticSnapshot) : JsonValue := objectOf [
  ("schemaVersion", some s.schemaVersion), ("modelVersion", some s.modelVersion),
  ("repositoryIdentity", some s.repositoryIdentity), ("revisionIdentity", s.revisionIdentity),
  ("declarations", some (declarationsJson s)), ("derived", some (derivedJson s)),
  ("observed", some (observedJson s)), ("analysis", some (analysisJson s)),
  ("graph", some (graphJson s)),
  ("integrity", some (objectOf [("repositoryId", some s.integrity.repositoryId),
    ("git", s.integrity.git), ("worktree", some s.integrity.worktree),
    ("trackedFiles", arrayOf s .trackedFiles), ("extractors", arrayOf s .extractors),
    ("schemaVersion", some s.integrity.schemaVersion),
    ("semanticStateDigest", some s.integrity.semanticStateDigest),
    ("modelDigest", some s.integrity.modelDigest),
    ("snapshotDigest", some s.integrity.snapshotDigest), ("status", some s.integrity.status),
    ("statusReason", s.integrity.statusReason)]))]

def SymbolSelector.json : SymbolSelector → JsonValue
  | .symbolId id => objectOf [("symbolId", some (.string id))]
  | .locator value expectedRevision =>
      objectOf [("locator", some value), ("expectedRevision", stringOf expectedRevision)]

def SymbolOwnershipInput.json : SymbolOwnershipInput → JsonValue
  | managed componentId => objectOf [("classification", some (.string "managed")),
      ("componentId", some (.string componentId))]
  | shared sharedComponentIds => objectOf [("classification", some (.string "shared")),
      ("sharedComponentIds", sharedComponentIds.map strings)]

/-- The name of the item of a mutation, and the item. -/
def SemanticMutation.payload : SemanticMutation → List (String × Option JsonValue)
  | .component value => [("component", some value)]
  | .symbolOwnership symbol ownership =>
      [("symbol", some symbol.json), ("ownership", some ownership.json)]
  | .capability value => [("capability", some value)]
  | .contract value => [("contract", some value)]
  | .invariant value => [("invariant", some value)]
  | .rationale value => [("rationale", some value)]
  | .constraint value => [("constraint", some value)]
  | .decision value => [("decision", some value)]
  | .decisionLink value => [("link", some value)]
  | .effectPolicy value => [("policy", some value)]
  | .dependencyPolicy value => [("policy", some value)]
  | .reviewGuidance value => [("guidance", some value)]
  | .stability value => [("declaration", some value)]
  | .terminology value => [("link", some value)]
  | .semanticDebt value => [("debt", some value)]

def SemanticMutation.json (mutation : SemanticMutation) : JsonValue :=
  objectOf (("kind", some (.string mutation.kind)) :: mutation.payload)

def SemanticIntent.text : SemanticIntent → String
  | semanticNeutral => "semantic-neutral"
  | semanticChange => "semantic-change"

def MutationProvenance.json (provenance : MutationProvenance) : JsonValue := objectOf [
  ("actor", some (.string provenance.actor)), ("issue", stringOf provenance.issue),
  ("task", stringOf provenance.task), ("ref", stringOf provenance.ref)]

def SemanticMutationRequest.json (request : SemanticMutationRequest) : JsonValue := objectOf [
  ("mutations", some (.array (request.mutations.map SemanticMutation.json))),
  ("intent", some (.string request.intent.text)), ("reason", stringOf request.reason),
  ("authorizedDeltaKinds", request.authorizedDeltaKinds.map fun kinds =>
    strings (kinds.map SemanticDeltaKind.text)),
  ("provenance", some request.provenance.json),
  ("expectedSnapshotDigest", request.expectedSnapshotDigest)]

def BindingResolution.json (resolution : BindingResolution) : JsonValue :=
  objectOf (("status", some (.string resolution.status)) :: match resolution with
    | resolved symbolId locator => [("symbolId", some (.string symbolId)), ("locator", some locator)]
    | missing locator message => [("locator", some locator), ("message", stringOf message)]
    | ambiguous locator candidates message => [("locator", some locator),
        ("candidates", some (strings candidates)), ("message", stringOf message)]
    | stale locator symbolId message => [("locator", some locator),
        ("symbolId", stringOf symbolId), ("message", stringOf message)])

def BindingRequirement.json (requirement : BindingRequirement) : JsonValue := objectOf [
  ("selector", some requirement.selector.json), ("resolution", some requirement.resolution.json)]

def reviewLevelText : ReviewLevel → String
  | .L0 => "L0"
  | .L1 => "L1"
  | .L2 => "L2"
  | .L3 => "L3"

def SemanticDeltaEntry.json (entry : SemanticDeltaEntry) : JsonValue := objectOf [
  ("id", some (.string entry.id)), ("subject", some (.string entry.subject)),
  ("kind", some (.string entry.kind.text)), ("summary", some (.string entry.summary)),
  ("reviewLevel", some (.string (reviewLevelText entry.reviewLevel)))]

def SemanticTransaction.json (transaction : SemanticTransaction) : JsonValue := objectOf [
  ("version", some (.number "1")), ("sequence", some (.number (toString transaction.sequence))),
  ("intent", some (.string transaction.intent.text)),
  ("delta", some (objectOf [("version", some (.number "1")),
    ("intent", some (.string transaction.intent.text)),
    ("entries", some (.array (transaction.entries.map SemanticDeltaEntry.json))),
    ("unauthorized", some (.boolean false))])),
  ("provenance", some transaction.provenance), ("reason", stringOf transaction.reason),
  ("authorizedDeltaKinds", some (strings transaction.authorizedDeltaKinds)),
  ("protectedChanges", some (strings transaction.protectedChanges)),
  ("transactionProvenance", some transaction.transactionProvenance.json)]

def MutationDiagnostic.json (d : MutationDiagnostic) : JsonValue := objectOf [
  ("code", some (.string d.code)), ("severity", some (.string "error")),
  ("message", some (.string d.message)), ("path", stringOf d.path),
  ("subject", stringOf d.subject), ("details", d.details)]

/-- The fields of a plan, as those of the objects that `apply` compares. -/
def MutationPlan.fields (plan : MutationPlan) : List (String × Option JsonValue) := [
  ("baseSnapshot", some (snapshotJson plan.baseSnapshot)),
  ("candidateSnapshot", plan.candidateSnapshot.map snapshotJson),
  ("request", some plan.request.json), ("baseSnapshotDigest", some plan.baseSnapshotDigest),
  ("affectedEntities", some (strings plan.affectedEntities)),
  ("protectedChanges", some (strings plan.protectedChanges)),
  ("bindingRequirements", some (.array (plan.bindingRequirements.map BindingRequirement.json))),
  ("expectedWrites", some (.array plan.expectedWrites)),
  ("transaction", plan.transaction.map SemanticTransaction.json),
  ("diagnostics", some (.array (plan.diagnostics.map MutationDiagnostic.json)))]

def MutationPlan.json (plan : MutationPlan) : JsonValue := objectOf plan.fields

def MutationPlan.text (plan : MutationPlan) : String := stableStringifyValue plan.json

end Texts

section Changes

/-- `stableStringifyValue`, of an item that may be missing. -/
def textOfItem (item : Option JsonValue) : Except String String :=
  match item with
  | some item => .ok (stableStringifyValue item)
  | none => .error "semantic serialization encountered an unsupported value"

/-- What the items of a collection with a key that differ refer to. If only one of the snapshots has
an item with the key, the text of the other one is that of no value, and the call throws. -/
def referencesOfChanged (keyOf : JsonValue → String) (referencesOf : JsonValue → List String)
    (left right : List JsonValue) : Except String (List String) := do
  let references ← ((left ++ right).map keyOf).dedup.mapM fun key => do
    let leftItem := left.find? fun item => keyOf item = key
    let rightItem := right.find? fun item => keyOf item = key
    let leftText ← textOfItem leftItem
    let rightText ← textOfItem rightItem
    pure (if leftText = rightText then []
      else (leftItem.toList ++ rightItem.toList).flatMap referencesOf)
  pure references.flatten

/-- The collections of which the ids of changed items are collected, with the project. -/
def identifiedCollections : List Collection := [.components, .capabilities, .contracts, .invariants,
  .decisions, .rationales, .constraints, .declaredFacts, .effectPolicies, .dependencyPolicies,
  .reviewGuidance, .symbolOwnership, .semanticDebt]

def referringCollections : List (Collection × (JsonValue → String) × (JsonValue → List String)) := [
  (.effectPolicies, idOf, fun item => [subjectOf item]),
  (.dependencyPolicies, idOf, fun item => [subjectOf item]),
  (.reviewGuidance, idOf, fun item => [subjectOf item]),
  (.stability, subjectOf, fun item => [subjectOf item]),
  (.decisionLinks, decisionLinkKey, fun item => [subjectOf item, textMember item "decisionId"]),
  (.terminology, (textMember · "term"), (textsMember · "relatedEntityIds")),
  (.symbolOwnership, idOf, fun item => textMember item "symbolId" ::
    ((member? item "componentId").map textOf).toList),
  (.semanticDebt, idOf, fun item => [subjectOf item])]

def endsOfChanged (left right : List JsonValue) : Except String (List String) := do
  let ends ← ((left ++ right).map idOf).dedup.mapM fun id => do
    let leftText ← textOfItem (left.find? fun item => idOf item = id)
    let rightText ← textOfItem (right.find? fun item => idOf item = id)
    pure (if leftText = rightText then []
      else (((left ++ right).reverse.find? fun item => idOf item = id).map fun relation =>
        [textMember relation "from", textMember relation "to"]).getD [])
  pure ends.flatten

/-- `changedDeclarationIds`. -/
def changedDeclarationIds (before after : RepositorySemanticSnapshot) : Except String (List String) := do
  let project ← referencesOfChanged idOf (fun item => [idOf item]) [before.project] [after.project]
  let ids ← identifiedCollections.mapM fun c =>
    referencesOfChanged idOf (fun item => [idOf item]) (before.list c) (after.list c)
  let references ← referringCollections.mapM fun (c, keyOf, referencesOf) =>
    referencesOfChanged keyOf referencesOf (before.list c) (after.list c)
  let ends ← endsOfChanged (before.list .relations) (after.list .relations)
  pure (project ++ ids.flatten ++ references.flatten ++ ends)

end Changes

section Service

structure ServiceState where
  current : RepositorySemanticSnapshot
  transactionSequence : ℕ
  appliedTransactionSequences : List ℕ

/-- `SemanticMutationResult`. -/
inductive MutationResult where
  | rejected (diagnostics : List MutationDiagnostic)
  | accepted (snapshot : RepositorySemanticSnapshot) (transaction : SemanticTransaction)
      (writes : List JsonValue) (affectedEntities protectedChanges : List String)

/-- A call, which returns a result or throws an error. -/
abbrev Call (α : Type) : Type := ServiceState × Except String α

variable (context : MutationContext)

/-- `createSemanticMutationService`. -/
def createSemanticMutationService (initialSnapshot : RepositorySemanticSnapshot) : ServiceState :=
  ⟨initialSnapshot, 0, []⟩

/-- `buildPlan` of the service, which numbers the transaction where its sequence is not given. -/
def buildNumbered (state : ServiceState) (base : RepositorySemanticSnapshot)
    (request : SemanticMutationRequest) (sequence : Option ℕ) : Call MutationPlan :=
  match sequence with
  | some sequence => (state, buildPlan context base request sequence)
  | none =>
      let sequence := state.transactionSequence + 1
      ({ state with transactionSequence := sequence }, buildPlan context base request sequence)

def plan (state : ServiceState) (request : SemanticMutationRequest) : Call MutationPlan :=
  buildNumbered context state state.current request none

def rejectedWith (state : ServiceState) (diagnostics : List MutationDiagnostic) :
    Call MutationResult := (state, .ok (.rejected diagnostics))

def incompletePlan : MutationDiagnostic := mutationDiagnostic "mutation_plan_incomplete"
  "mutation plan has no validated candidate or transaction" none

def commitPlan (state : ServiceState) (plan : MutationPlan) : Call MutationResult :=
  match plan.candidateSnapshot, plan.transaction with
  | some candidate, some transaction =>
      ({ state with
          current := candidate
          appliedTransactionSequences := transaction.sequence :: state.appliedTransactionSequences },
        .ok (.accepted candidate transaction plan.expectedWrites plan.affectedEntities
          plan.protectedChanges))
  | _, _ => rejectedWith state [incompletePlan]

def commitNumbered (state : ServiceState) (plan validatedPlan : MutationPlan) : Call MutationResult :=
  match validatedPlan.candidateSnapshot, validatedPlan.transaction with
  | some _, some transaction =>
      if transaction.sequence ∈ state.appliedTransactionSequences then
        match buildNumbered context state plan.baseSnapshot plan.request none with
        | (state, .ok planToApply) => commitPlan state planToApply
        | (state, .error message) => (state, .error message)
      else commitPlan state validatedPlan
  | _, _ => rejectedWith state [incompletePlan]

def invalidPlan : MutationDiagnostic := mutationDiagnostic "mutation_plan_invalid"
  "mutation plan is not the validated plan produced by the service" none

def mutationConflict (overlap : List String) : MutationDiagnostic :=
  ⟨"mutation_conflict", "concurrent semantic mutation conflicts with an affected entity", none,
    overlap.head?, some (.object [("affectedEntities", strings overlap)])⟩

/-- A plan of another snapshot than the current one: its request is planned again, and `again` applies
the new plan. -/
def rebasePlan (again : ServiceState → MutationPlan → Option (Call MutationResult))
    (state : ServiceState) (validatedPlan : MutationPlan) : Option (Call MutationResult) :=
  match changedDeclarationIds validatedPlan.baseSnapshot state.current with
  | .error message => some (state, .error message)
  | .ok changed =>
      let overlap := validatedPlan.affectedEntities.filter (· ∈ changed)
      if overlap ≠ [] then some (rejectedWith state [mutationConflict overlap])
      else match buildNumbered context state state.current validatedPlan.request none with
        | (state, .error message) => some (state, .error message)
        | (state, .ok rebased) =>
            if rebased.diagnostics ≠ [] then some (rejectedWith state rebased.diagnostics)
            else again state rebased

/-- What `apply` does with the plan that it has built from the snapshot and the request. -/
def applyValidated (again : ServiceState → MutationPlan → Option (Call MutationResult))
    (state : ServiceState) (plan validatedPlan : MutationPlan) : Option (Call MutationResult) :=
  if plan.text ≠ validatedPlan.text then some (rejectedWith state [invalidPlan])
  else if validatedPlan.diagnostics ≠ [] then some (rejectedWith state validatedPlan.diagnostics)
  else if stableStringifyValue (snapshotDigestOf context state.current) ≠
      stableStringifyValue validatedPlan.baseSnapshotDigest then
    rebasePlan context again state validatedPlan
  else some (commitNumbered context state plan validatedPlan)

/-- `apply`, with at most this many calls of itself. -/
def applyFor : ℕ → ServiceState → MutationPlan → Option (Call MutationResult)
  | 0, _, _ => none
  | fuel + 1, state, plan =>
      match buildNumbered context state plan.baseSnapshot plan.request
        (plan.transaction.map SemanticTransaction.sequence) with
      | (state, .error message) => some (state, .error message)
      | (state, .ok validatedPlan) => applyValidated context (applyFor fuel) state plan validatedPlan

end Service

end Mottainai.Semantics

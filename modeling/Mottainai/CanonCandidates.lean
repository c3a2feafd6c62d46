import Mottainai.CanonIdentity
import Mottainai.ResponseBudget

/-!
# The candidates of the third layer of a canon

Selectors are given directly, or read out of the values of the second layer, where they stand under
certain keys. A selector is resolved against a snapshot of the semantics of the repository. What it
resolves to is a candidate, together with the tests and the interfaces that are associated with it.
The walk over a value finds the selectors that do not occur too deep in it, so that the result is
complete although a selector was skipped, unless another one is not resolved.
-/

namespace Mottainai.CanonCandidates

open JavaScriptValues JsonValues OrderedMaps ContextRuntime

section Selectors

/-- `CanonC3SelectorType`. The table of the keys also has what it inherits from its prototype: a
selector under the key `constructor` has a function for its type. -/
inductive CanonC3SelectorType where
  | path | symbol | interface | component | inherited
  deriving DecidableEq

def CanonC3SelectorType.text : CanonC3SelectorType → String
  | .path => "path"
  | .symbol => "symbol"
  | .interface => "interface"
  | .component => "component"
  | .inherited => "function Object() \x7b [native code] \x7d"

/-- A text, or a record of the parts of a symbol. -/
inductive SelectorValue where
  | text (value : String)
  | record (fields : Properties)

def SelectorValue.json : SelectorValue → JsonValue
  | .text value => .string value
  | .record fields => .object fields

/-- `CanonC3SelectorInput`. -/
structure SelectorInput where
  type : CanonC3SelectorType
  value : SelectorValue

/-- `selectorTypeByKey`, with a key in lower case. -/
def selectorTypeByKey (key : String) : Option CanonC3SelectorType :=
  if key = "path" ∨ key = "paths" ∨ key = "file" ∨ key = "files" then some .path
  else if key = "symbol" ∨ key = "symbols" then some .symbol
  else if key = "interface" ∨ key = "interfaces" then some .interface
  else if key = "component" ∨ key = "components" then some .component
  else if key = "constructor" ∨ key = "__proto__" then some .inherited
  else none

/-- `key.toLowerCase()`, as far as the keys that are looked for can see it. -/
def lowerCase (key : String) : String := String.ofList (key.toList.map Char.toLower)

def selectorContainers : List String :=
  ["fields", "scope", "scopes", "dependency", "dependencies", "selectors", "selector"]

/-- `value.type ?? value.kind ?? value.selectorType`. -/
def statedType (fields : Properties) : Option JsonValue :=
  ["type", "kind", "selectorType"].findSome? fun key =>
    match property fields key with
    | some .null => none
    | value => value

def asSelectorType : Option JsonValue → Option CanonC3SelectorType
  | some (.string "path") => some .path
  | some (.string "symbol") => some .symbol
  | some (.string "interface") => some .interface
  | some (.string "component") => some .component
  | _ => none

/-- `appendSelector`: a value that is no text and no record is not appended. -/
def appendSelector (type : CanonC3SelectorType) : JsonValue → List SelectorInput
  | .string value => [{ type := type, value := .text value }]
  | .object fields => [{ type := type, value := .record fields }]
  | _ => []

/-- A record that says of which type of selector its value is. -/
def statedSelector (fields : Properties) : List SelectorInput :=
  match asSelectorType (statedType fields), property fields "value" with
  | some type, some value => appendSelector type value
  | _, _ => []

def isStatedSelector : JsonValue → Bool
  | .object fields => (asSelectorType (statedType fields)).isSome && (property fields "value").isSome
  | _ => false

def maxSelectorDepth : ℕ := 12

def maxSelectorItems : ℕ := 256

mutual

def selectorsFromValue (depth : ℕ) : JsonValue → List SelectorInput
  | .array items =>
      if maxSelectorDepth < depth then [] else selectorsFromItems (depth + 1) maxSelectorItems items
  | .object fields =>
      if maxSelectorDepth < depth then []
      else statedSelector fields ++ selectorsFromFields (depth + 1) fields
  | _ => []

def selectorsFromItems (depth : ℕ) : ℕ → List JsonValue → List SelectorInput
  | 0, _ => []
  | _, [] => []
  | n + 1, item :: items => selectorsFromValue depth item ++ selectorsFromItems depth n items

/-- The depth is that of the values under the keys. -/
def selectorsFromFields (depth : ℕ) : Properties → List SelectorInput
  | [] => []
  | (key, child) :: fields =>
      (match selectorTypeByKey (lowerCase key) with
        | some type =>
            match child with
            | .array items => typedSelectors depth type maxSelectorItems items
            | child =>
                if isStatedSelector child then selectorsFromValue depth child
                else appendSelector type child
        | none => if lowerCase key ∈ selectorContainers then selectorsFromValue depth child else []) ++
        selectorsFromFields depth fields

def typedSelectors (depth : ℕ) (type : CanonC3SelectorType) : ℕ → List JsonValue → List SelectorInput
  | 0, _ => []
  | _, [] => []
  | n + 1, item :: items =>
      (if isStatedSelector item then selectorsFromValue depth item else appendSelector type item) ++
        typedSelectors depth type n items

end

/-- `selectorsFromC2`. -/
def selectorsFromC2 (c2 : List JsonValue) : List SelectorInput :=
  c2.flatMap (selectorsFromValue 0)

def selectorKey (selector : SelectorInput) : String :=
  selector.type.text ++ ":" ++ stableStringifyValue selector.value.json

end Selectors

section Snapshots

structure ProducerIdentity where
  name : String
  version : String

/-- The part of `SemanticEntityBase` that is read. -/
structure SemanticEntityBase where
  id : String
  name : String
  authority : String
  producer : ProducerIdentity

structure SymbolLocator where
  language : String
  package : Option String
  module_ : Option String
  file : Option String
  symbol : String
  signature : Option String

structure FileEntity extends SemanticEntityBase where
  path : String
  language : Option String

structure SymbolEntity extends SemanticEntityBase where
  locator : SymbolLocator
  classification : String

structure ComponentEntity extends SemanticEntityBase where
  responsibility : String
  stability : String
  reviewLevel : String

structure TestEntity extends SemanticEntityBase where
  testName : String
  status : String
  evidenceIds : List String

inductive SemanticEntity where
  | file (entity : FileEntity)
  | symbol (entity : SymbolEntity)
  | component (entity : ComponentEntity)
  | test (entity : TestEntity)

namespace SemanticEntity

def base : SemanticEntity → SemanticEntityBase
  | .file entity => entity.toSemanticEntityBase
  | .symbol entity => entity.toSemanticEntityBase
  | .component entity => entity.toSemanticEntityBase
  | .test entity => entity.toSemanticEntityBase

def id (entity : SemanticEntity) : String := entity.base.id

def kind : SemanticEntity → String
  | .file _ => "file"
  | .symbol _ => "symbol"
  | .component _ => "component"
  | .test _ => "test"

end SemanticEntity

structure SemanticRelation where
  id : String
  kind : String
  source : String
  target : String
  authority : String
  metadata : Option JsonValue

structure TrackedFile where
  path : String
  physicalFingerprint : String
  semanticFingerprint : Option String

/-- The part of `RepositorySemanticSnapshot` that is read. -/
structure RepositorySemanticSnapshot where
  repositoryId : String
  components : List ComponentEntity
  files : List FileEntity
  symbols : List SymbolEntity
  tests : List TestEntity
  relations : List SemanticRelation
  trackedFiles : List TrackedFile

def allEntities (snapshot : RepositorySemanticSnapshot) : List SemanticEntity :=
  snapshot.components.map .component ++ snapshot.files.map .file ++ snapshot.symbols.map .symbol ++
    snapshot.tests.map .test

def entityById (snapshot : RepositorySemanticSnapshot) : OrderedMap String SemanticEntity :=
  (allEntities snapshot).foldl (fun entities entity => entities.set entity.id entity) .empty

end Snapshots

section Resolution

/-- `CanonC3CandidateSelectorType`. -/
inductive CandidateSelectorType where
  | given (type : CanonC3SelectorType)
  | test
  deriving DecidableEq

def CandidateSelectorType.text : CandidateSelectorType → String
  | .given type => type.text
  | .test => "test"

/-- `CanonC3Selector`: a resolved selector. -/
structure CanonC3Selector where
  type : CandidateSelectorType
  value : String
  deriving DecidableEq

inductive CanonC3DiagnosticCode where
  | missingSelector | invalidSelector | unknownSelector | ambiguousSelector
  deriving DecidableEq

structure CanonC3Diagnostic where
  code : CanonC3DiagnosticCode
  selector : Option SelectorInput
  message : String
  candidates : Option (List String)

/-- `text.trim()`. -/
def trim (text : String) : String :=
  String.ofList ((text.toList.dropWhile isWhiteSpace).reverse.dropWhile isWhiteSpace).reverse

/-- A path of the repository, without what may stand before it. -/
def normalizedPath (value : String) : Option String :=
  let normalized := (trim value).toList.map fun c => if c = '\\' then '/' else c
  if normalized = [] ∨ normalized.head? = some '/' ∨ (normalized.splitOn '/').contains ['.', '.'] then none
  else
    let result := if ['.', '/'].isPrefixOf normalized then normalized.drop 2 else normalized
    if result = [] then none else some (String.ofList result)

/-- `CanonC3SymbolSelector`. -/
structure SymbolSelector where
  id : Option String
  language : Option String
  package : Option String
  module_ : Option String
  file : Option String
  symbol : Option String
  signature : Option String
  deriving DecidableEq

def statedPart (fields : Properties) (field : String) : Option String :=
  match property fields field with
  | some (.string value) => if trim value = "" then none else some (trim value)
  | _ => none

def emptySymbolSelector : SymbolSelector :=
  { id := none, language := none, package := none, module_ := none, file := none, symbol := none
    signature := none }

def normalizeSymbolSelector : SelectorValue → Option SymbolSelector
  | .text value => if trim value = "" then none else some { emptySymbolSelector with symbol := some (trim value) }
  | .record fields =>
      let normalized : SymbolSelector :=
        { id := statedPart fields "id"
          language := statedPart fields "language"
          package := statedPart fields "package"
          module_ := statedPart fields "module"
          file := statedPart fields "file"
          symbol := statedPart fields "symbol"
          signature := statedPart fields "signature" }
      if normalized = emptySymbolSelector then none else some normalized

def agrees (stated : Option String) (test : String → Bool) : Bool := stated.all test

def entityMatchesSymbol (entity : SymbolEntity) (selector : SymbolSelector) : Bool :=
  let locator := entity.locator
  agrees selector.id (entity.id = ·) &&
    agrees selector.language (locator.language = ·) &&
    agrees selector.package (locator.package = some ·) &&
    agrees selector.module_ (locator.module_ = some ·) &&
    agrees selector.file (fun file => normalizedPath (locator.file.getD "") = normalizedPath file) &&
    agrees selector.symbol (fun symbol => locator.symbol = symbol || entity.name = symbol) &&
    agrees selector.signature (locator.signature = some ·)

def diagnosed (code : CanonC3DiagnosticCode) (selector : SelectorInput) (message : String) :
    CanonC3Diagnostic :=
  { code := code, selector := some selector, message := message, candidates := none }

def resolveUnique {Entity : Type} (entityId : Entity → String) (selector : SelectorInput)
    (unknown ambiguous : String) : List Entity → Except CanonC3Diagnostic Entity
  | [] => .error (diagnosed .unknownSelector selector unknown)
  | [entity] => .ok entity
  | entities =>
      .error
        { code := .ambiguousSelector
          selector := some selector
          message := ambiguous
          candidates := some (sortKeys (entities.map entityId)) }

def resolvePath (snapshot : RepositorySemanticSnapshot) (selector : SelectorInput) :
    Except CanonC3Diagnostic (CanonC3Selector × SemanticEntity) :=
  match selector.value with
  | .record _ => .error (diagnosed .invalidSelector selector "path selector must be a string")
  | .text value =>
      match normalizedPath value with
      | none => .error (diagnosed .invalidSelector selector "path selector is not repository-relative")
      | some path =>
          (resolveUnique (·.id) selector ("path is not represented: " ++ path)
            ("path resolves to multiple semantic files: " ++ path)
            (snapshot.files.filter fun file => normalizedPath file.path = some path)).map
              fun file => ({ type := .given .path, value := path }, .file file)

def resolveComponent (snapshot : RepositorySemanticSnapshot) (selector : SelectorInput) :
    Except CanonC3Diagnostic (CanonC3Selector × SemanticEntity) :=
  match selector.value with
  | .record _ => .error (diagnosed .invalidSelector selector "component selector must be a string")
  | .text text =>
      let value := trim text
      if value = "" then .error (diagnosed .invalidSelector selector "component selector must be a string")
      else
        (resolveUnique (·.id) selector ("component is not represented: " ++ value)
          ("component resolves to multiple semantic entities: " ++ value)
          (snapshot.components.filter fun component => component.id = value || component.name = value)).map
            fun component => ({ type := .given .component, value := component.id }, .component component)

def matchesSymbol (value : SelectorValue) (symbolSelector : SymbolSelector) (symbol : SymbolEntity) : Bool :=
  (match value with
    | .text text => symbol.id = trim text
    | .record _ => false) || entityMatchesSymbol symbol symbolSelector

def resolveSymbol (snapshot : RepositorySemanticSnapshot) (selector : SelectorInput) :
    Except CanonC3Diagnostic (CanonC3Selector × SemanticEntity) :=
  match normalizeSymbolSelector selector.value with
  | none => .error (diagnosed .invalidSelector selector (selector.type.text ++ " selector is empty"))
  | some symbolSelector =>
      (resolveUnique (·.id) selector (selector.type.text ++ " is not represented by Repository Semantics")
        (selector.type.text ++ " resolves to multiple semantic symbols")
        (snapshot.symbols.filter (matchesSymbol selector.value symbolSelector))).map
          fun symbol => ({ type := .given selector.type, value := symbol.id }, .symbol symbol)

def resolveSelector (snapshot : RepositorySemanticSnapshot) (selector : SelectorInput) :
    Except CanonC3Diagnostic (CanonC3Selector × SemanticEntity) :=
  match selector.type with
  | .path => resolvePath snapshot selector
  | .component => resolveComponent snapshot selector
  | _ => resolveSymbol snapshot selector

end Resolution

section Generations

/-- `CanonC3SourceGenerationInput`. -/
structure SourceGeneration where
  repositoryId : Option String
  generation : Option String
  files : List (String × String)

variable (locale : ContextRuntime.Locale) (sha256 : String → String)

/-- `[...].sort((left, right) => key(left).localeCompare(key(right)))`. -/
def sortByLocale {Item : Type} (key : Item → String) (items : List Item) : List Item :=
  items.mergeSort fun left right => decide (locale.localeCompare (key left) (key right) ≠ .gt)

/-- `digest(value)`. -/
def digest (value : JsonValue) : String := sha256 (stableStringifyValue value)

def relationForEntity (snapshot : RepositorySemanticSnapshot) (entityId : String) : List SemanticRelation :=
  sortByLocale locale (·.id)
    (snapshot.relations.filter fun relation => relation.source = entityId || relation.target = entityId)

def entityPath : SemanticEntity → Option String
  | .file entity => normalizedPath entity.path
  | .symbol entity => normalizedPath (entity.locator.file.getD "")
  | _ => none

def sourcePaths (snapshot : RepositorySemanticSnapshot) (entity : SemanticEntity) : List String :=
  let related := match entity with
    | .component _ =>
        ((relationForEntity locale snapshot entity.id).filter fun relation => relation.source = entity.id &&
          (relation.kind = "owns" || relation.kind = "shares" || relation.kind = "contains")).filterMap
            fun relation => (entityById snapshot).get relation.target
    | _ => []
  sortByLocale locale id ((entity :: related).filterMap entityPath).eraseDups

def fileGeneration (snapshot : RepositorySemanticSnapshot) (path : String)
    (sourceGeneration : Option SourceGeneration) : String :=
  match ((sourceGeneration.map (·.files)).getD []).find? fun file => normalizedPath file.1 = some path with
  | some file => file.2
  | none =>
      match snapshot.trackedFiles.find? fun file => normalizedPath file.path = some path with
      | none => "unfingerprinted"
      | some tracked => tracked.semanticFingerprint.getD tracked.physicalFingerprint

def textOrNull (value : Option String) : JsonValue := (value.map JsonValue.string).getD .null

def locatorShape (locator : SymbolLocator) : JsonValue :=
  .object ([("kind", .string "symbol"), ("language", .string locator.language)] ++
    optionalProperty "package" (locator.package.map .string) ++
    optionalProperty "module" (locator.module_.map .string) ++
    optionalProperty "file" (locator.file.map .string) ++
    [("symbol", .string locator.symbol)] ++
    optionalProperty "signature" (locator.signature.map .string))

def entityShape (entity : SemanticEntity) : JsonValue :=
  .object ([("kind", .string entity.kind), ("id", .string entity.id), ("name", .string entity.base.name)] ++
    match entity with
    | .file entity => [("path", .string entity.path), ("language", textOrNull entity.language)]
    | .symbol entity =>
        [("locator", locatorShape entity.locator), ("classification", .string entity.classification)]
    | .component entity =>
        [("responsibility", .string entity.responsibility), ("stability", .string entity.stability),
          ("reviewLevel", .string entity.reviewLevel)]
    | .test entity =>
        [("testName", .string entity.testName), ("status", .string entity.status),
          ("evidenceIds", .array (entity.evidenceIds.map .string))])

def relationShape (relation : SemanticRelation) : JsonValue :=
  .object [("id", .string relation.id), ("kind", .string relation.kind), ("from", .string relation.source),
    ("to", .string relation.target), ("authority", .string relation.authority),
    ("metadata", relation.metadata.getD .null)]

/-- The value of `candidateGeneration`. -/
def candidateGeneration (snapshot : RepositorySemanticSnapshot) (entity : SemanticEntity)
    (sourceGeneration : Option SourceGeneration) : String :=
  let paths := sourcePaths locale snapshot entity
  let files := paths.map fun path => JsonValue.object
    [("path", .string path), ("generation", .string (fileGeneration snapshot path sourceGeneration))]
  let relations := (relationForEntity locale snapshot entity.id).map relationShape
  let value := digest sha256 (.object [("repositoryId", .string snapshot.repositoryId),
    ("entity", entityShape entity), ("files", .array files), ("relations", .array relations)])
  if paths ≠ [] then value
  else
    let generation := (sourceGeneration.bind (·.generation)).getD "semantic-only"
    digest sha256 (.object [("value", .string value), ("generation", .string generation)])

end Generations

section Candidates

structure CandidateDraft where
  entity : SemanticEntity
  selector : CanonC3Selector
  reason : String
  relationIds : List String
  explicit : Bool

abbrev Drafts : Type := OrderedMap String CandidateDraft

/-- `ids.add(id)`. -/
def addId (ids : List String) (id : String) : List String := if id ∈ ids then ids else ids ++ [id]

def addCandidate (drafts : Drafts) (entity : SemanticEntity) (selector : CanonC3Selector) (reason : String)
    (relationId : Option String) : Drafts :=
  let added := drafts.set entity.id
    { entity := entity, selector := selector, reason := reason, relationIds := relationId.toList
      explicit := relationId.isNone }
  match drafts.get entity.id with
  | none => added
  | some current =>
      if !current.explicit && relationId.isNone then added
      else
        match relationId with
        | none => drafts
        | some relationId =>
            drafts.set entity.id { current with relationIds := addId current.relationIds relationId }

/-- `associationRelations`. -/
def associationRelations : List String := ["tests", "verifies", "implements"]

def associated (snapshot : RepositorySemanticSnapshot) (rootId : String) (relation : SemanticRelation) :
    Option (SemanticEntity × CanonC3Selector × String) :=
  if relation.kind ∈ associationRelations then
    match (entityById snapshot).get (if relation.source = rootId then relation.target else relation.source) with
    | some (.test other) =>
        some (.test other, { type := .test, value := other.id }, "deterministic semantic test association")
    | some (.symbol other) =>
        if relation.kind = "implements" then
          some (.symbol other, { type := .given .interface, value := other.id },
            "deterministic semantic interface association")
        else none
    | _ => none
  else none

def addAssociation (snapshot : RepositorySemanticSnapshot) (rootId : String) (drafts : Drafts)
    (relation : SemanticRelation) : Drafts :=
  match associated snapshot rootId relation with
  | none => drafts
  | some (other, selector, reason) => addCandidate drafts other selector reason (some relation.id)

variable (locale : ContextRuntime.Locale) (sha256 : String → String)

def addAssociations (snapshot : RepositorySemanticSnapshot) (drafts : Drafts) : Drafts :=
  drafts.values.foldl (fun drafts root =>
    (relationForEntity locale snapshot root.entity.id).foldl (addAssociation snapshot root.entity.id) drafts)
      drafts

/-- `CanonC3Candidate`, with the parts of its source and of its provenance. -/
structure CanonC3Candidate where
  candidateId : String
  sourceIdentity : String
  sourceGeneration : String
  selector : CanonC3Selector
  selectionReason : String
  entityId : String
  entityKind : String
  authority : String
  relationIds : List String
  producer : ProducerIdentity

def toCandidate (snapshot : RepositorySemanticSnapshot) (sourceGeneration : Option SourceGeneration)
    (draft : CandidateDraft) : CanonC3Candidate :=
  { candidateId := "c3:" ++ draft.entity.id
    sourceIdentity := (sourceGeneration.bind (·.repositoryId)).getD snapshot.repositoryId ++ ":" ++ draft.entity.id
    sourceGeneration := candidateGeneration locale sha256 snapshot draft.entity sourceGeneration
    selector := draft.selector
    selectionReason := draft.reason
    entityId := draft.entity.id
    entityKind := draft.entity.kind
    authority := draft.entity.base.authority
    relationIds := sortByLocale locale id draft.relationIds
    producer := draft.entity.base.producer }

def compareCandidates (left right : CanonC3Candidate) : Ordering :=
  (locale.localeCompare left.sourceIdentity right.sourceIdentity).then
    ((locale.localeCompare (left.selector.type.text ++ ":" ++ left.selector.value)
      (right.selector.type.text ++ ":" ++ right.selector.value)).then
        (locale.localeCompare left.candidateId right.candidateId))

/-- `SelectCanonC3CandidatesInput`. -/
structure SelectInput where
  c2 : List JsonValue
  selectors : List SelectorInput
  semantic : RepositorySemanticSnapshot
  sourceGeneration : Option SourceGeneration

structure SelectResult where
  candidates : List CanonC3Candidate
  diagnostics : List CanonC3Diagnostic
  complete : Bool

def distinctSelectors (selectors : List SelectorInput) : List SelectorInput :=
  (selectors.foldl (fun distinct selector => distinct.set (selectorKey selector) selector)
    (OrderedMap.empty : OrderedMap String SelectorInput)).values

def selectorsOf (input : SelectInput) : List SelectorInput :=
  distinctSelectors (input.selectors ++ selectorsFromC2 input.c2)

def missingSelector : CanonC3Diagnostic :=
  { code := .missingSelector
    selector := none
    message := "C2 contains no explicit path, symbol, interface, or component selector"
    candidates := none }

/-- One turn of the loop over the selectors. -/
def addResolved (drafts : Drafts) (resolved : Except CanonC3Diagnostic (CanonC3Selector × SemanticEntity)) :
    Drafts :=
  match resolved with
  | .error _ => drafts
  | .ok (selector, entity) =>
      addCandidate drafts entity selector ("explicit " ++ selector.type.text ++ " selector") none

def diagnosticOf : Except CanonC3Diagnostic (CanonC3Selector × SemanticEntity) → Option CanonC3Diagnostic
  | .error diagnostic => some diagnostic
  | .ok _ => none

def selectCanonC3Candidates (input : SelectInput) : SelectResult :=
  let selectors := selectorsOf input
  let resolved := selectors.map (resolveSelector input.semantic)
  let diagnostics := (if selectors.isEmpty then [missingSelector] else []) ++ resolved.filterMap diagnosticOf
  let drafts := addAssociations locale input.semantic (resolved.foldl addResolved .empty)
  let candidates := drafts.values.map (toCandidate locale sha256 input.semantic input.sourceGeneration)
  { candidates := candidates.mergeSort fun left right => decide (compareCandidates locale left right ≠ .gt)
    diagnostics := diagnostics
    complete := diagnostics.isEmpty }

end Candidates

open OrderedMaps.OrderedMap

variable {drafts : Drafts} {entity : SemanticEntity} {selector : CanonC3Selector} {reason key : String}
  {snapshot : RepositorySemanticSnapshot}

section Adding

theorem get_set (drafts : Drafts) (key key' : String) (draft : CandidateDraft) :
    (drafts.set key draft).get key' = if key' = key then some draft else drafts.get key' := by
  apply Option.ext
  intro draft'
  rw [get_set_eq_some_iff]
  by_cases h : key' = key <;> simp [h, eq_comm]

def explicitDraft (resolved : CanonC3Selector × SemanticEntity) : CandidateDraft :=
  { entity := resolved.2
    selector := resolved.1
    reason := "explicit " ++ resolved.1.type.text ++ " selector"
    relationIds := []
    explicit := true }

/-- All drafts are those of explicit selectors. -/
def AllExplicit (drafts : Drafts) : Prop := ∀ key draft, drafts.get key = some draft → draft.explicit = true

theorem addResolved_ok (h : AllExplicit drafts) (resolved : CanonC3Selector × SemanticEntity) :
    addResolved drafts (.ok resolved) =
      match drafts.get resolved.2.id with
      | none => drafts.set resolved.2.id (explicitDraft resolved)
      | some _ => drafts := by
  obtain ⟨selector, entity⟩ := resolved
  simp only [addResolved, addCandidate]
  cases hget : drafts.get entity.id with
  | none => rfl
  | some current =>
    have hexplicit := h _ current hget
    simp [hexplicit]

theorem get_addResolved (h : AllExplicit drafts) (resolved : CanonC3Selector × SemanticEntity) (key : String) :
    (addResolved drafts (.ok resolved)).get key =
      (drafts.get key).or (if resolved.2.id = key then some (explicitDraft resolved) else none) := by
  rw [addResolved_ok h]
  cases hget : drafts.get resolved.2.id with
  | none =>
    rw [get_set]
    by_cases hkey : key = resolved.2.id
    · simp [hkey, hget]
    · simp [hkey, Ne.symm hkey]
  | some current =>
    by_cases hkey : resolved.2.id = key
    · subst hkey
      simp [hget]
    · simp [hkey]

theorem allExplicit_addResolved (h : AllExplicit drafts)
    (resolved : Except CanonC3Diagnostic (CanonC3Selector × SemanticEntity)) :
    AllExplicit (addResolved drafts resolved) := by
  cases resolved with
  | error diagnostic => exact h
  | ok resolved =>
    intro key draft hget
    rw [get_addResolved h] at hget
    cases hold : drafts.get key with
    | some draft' =>
      rw [hold, Option.some_or] at hget
      cases hget
      exact h key draft hold
    | none =>
      rw [hold, Option.none_or] at hget
      split_ifs at hget
      cases hget
      rfl

def firstResolved (resolved : List (CanonC3Selector × SemanticEntity)) (key : String) :
    Option (CanonC3Selector × SemanticEntity) :=
  resolved.find? fun found => found.2.id = key

theorem get_foldl_addResolved (h : AllExplicit drafts)
    (resolved : List (Except CanonC3Diagnostic (CanonC3Selector × SemanticEntity))) (key : String) :
    (resolved.foldl addResolved drafts).get key = (drafts.get key).or
      ((firstResolved (resolved.filterMap (·.toOption)) key).map explicitDraft) := by
  induction resolved generalizing drafts with
  | nil => simp [firstResolved]
  | cons found resolved ih =>
    rw [List.foldl_cons, ih (allExplicit_addResolved h found)]
    cases found with
    | error diagnostic => rfl
    | ok found =>
      rw [get_addResolved h, Option.or_assoc]
      congr 1
      have hcons : (Except.ok found :: resolved).filterMap
          (fun x : Except CanonC3Diagnostic (CanonC3Selector × SemanticEntity) => x.toOption) =
            found :: resolved.filterMap (·.toOption) := rfl
      rw [hcons, firstResolved, firstResolved, List.find?_cons]
      by_cases hkey : found.2.id = key <;> simp [hkey]

theorem allExplicit_empty : AllExplicit (OrderedMap.empty : Drafts) := nofun

/-- The drafts are filed under the ids of their entities. -/
def FiledDrafts (drafts : Drafts) : Prop := ∀ key draft, drafts.get key = some draft → draft.entity.id = key

theorem filed_addCandidate (h : FiledDrafts drafts) (relationId : Option String) :
    FiledDrafts (addCandidate drafts entity selector reason relationId) := by
  have hset : ∀ draft : CandidateDraft, draft.entity.id = entity.id → FiledDrafts (drafts.set entity.id draft) := by
    intro draft hdraft key draft' hget
    rw [get_set] at hget
    split_ifs at hget with hkey
    · cases hget
      exact hdraft.trans hkey.symm
    · exact h key draft' hget
  rw [addCandidate]
  cases hget : drafts.get entity.id with
  | none => exact hset _ rfl
  | some current =>
    simp only
    split_ifs
    · exact hset _ rfl
    · cases relationId with
      | none => exact h
      | some relationId => exact hset _ (h _ current hget)

theorem filed_foldl_addResolved (h : FiledDrafts drafts)
    (resolved : List (Except CanonC3Diagnostic (CanonC3Selector × SemanticEntity))) :
    FiledDrafts (resolved.foldl addResolved drafts) := by
  induction resolved generalizing drafts with
  | nil => exact h
  | cons found resolved ih =>
    refine ih ?_
    cases found with
    | error diagnostic => exact h
    | ok found => exact filed_addCandidate h none

end Adding

section Associating

structure Association where
  entity : SemanticEntity
  selector : CanonC3Selector
  reason : String
  relationId : String

def addAssociated (drafts : Drafts) (association : Association) : Drafts :=
  addCandidate drafts association.entity association.selector association.reason (some association.relationId)

def associationOf (snapshot : RepositorySemanticSnapshot) (rootId : String) (relation : SemanticRelation) :
    Option Association :=
  (associated snapshot rootId relation).map fun found =>
    { entity := found.1, selector := found.2.1, reason := found.2.2, relationId := relation.id }

/-- All that the relations of some roots associate, in the order in which it is added. -/
def associations (locale : ContextRuntime.Locale) (snapshot : RepositorySemanticSnapshot) (roots : List String) :
    List Association :=
  roots.flatMap fun rootId => (relationForEntity locale snapshot rootId).filterMap (associationOf snapshot rootId)

theorem foldl_addAssociation (rootId : String) (relations : List SemanticRelation) (drafts : Drafts) :
    relations.foldl (addAssociation snapshot rootId) drafts =
      (relations.filterMap (associationOf snapshot rootId)).foldl addAssociated drafts := by
  induction relations generalizing drafts with
  | nil => rfl
  | cons relation relations ih =>
    rw [List.foldl_cons, ih, List.filterMap_cons, addAssociation, associationOf]
    cases associated snapshot rootId relation with
    | none => rfl
    | some found => rfl

theorem addAssociations_eq (locale : ContextRuntime.Locale) (snapshot : RepositorySemanticSnapshot) (drafts : Drafts) :
    addAssociations locale snapshot drafts =
      (associations locale snapshot (drafts.values.map (·.entity.id))).foldl addAssociated drafts := by
  have hfold : ∀ (roots : List CandidateDraft) (drafts : Drafts), roots.foldl (fun drafts root =>
      (relationForEntity locale snapshot root.entity.id).foldl
        (addAssociation snapshot root.entity.id) drafts) drafts =
      (associations locale snapshot (roots.map (·.entity.id))).foldl addAssociated drafts := by
    intro roots
    induction roots with
    | nil => exact fun _ => rfl
    | cons root roots ih =>
      intro drafts
      rw [List.foldl_cons, ih, foldl_addAssociation, List.map_cons, associations, associations,
        List.flatMap_cons, List.foldl_append]
  exact hfold drafts.values drafts

def addIds (ids added : List String) : List String := added.foldl addId ids

theorem mem_addIds {ids added : List String} {id : String} : id ∈ addIds ids added ↔ id ∈ ids ∨ id ∈ added := by
  induction added generalizing ids with
  | nil => simp [addIds]
  | cons head added ih =>
    have hcons : addIds ids (head :: added) = addIds (addId ids head) added := rfl
    have hadd : id ∈ addId ids head ↔ id ∈ ids ∨ id = head := by
      rw [addId]
      split_ifs with hmem
      · constructor
        · exact .inl
        · rintro (h | rfl)
          · exact h
          · exact hmem
      · simp
    rw [hcons, ih, hadd, List.mem_cons, or_assoc]

theorem nodup_addIds {ids : List String} (h : ids.Nodup) (added : List String) : (addIds ids added).Nodup := by
  induction added generalizing ids with
  | nil => exact h
  | cons head added ih =>
    refine ih ?_
    rw [addId]
    split_ifs with hmem
    · exact h
    · rw [List.nodup_append]
      exact ⟨h, List.nodup_singleton head, fun id hid other hother heq =>
        hmem (List.mem_singleton.1 hother ▸ heq ▸ hid)⟩

def idsFor (found : List Association) (key : String) : List String :=
  (found.filter fun association => association.entity.id = key).map (·.relationId)

def associatedDraft (association : Association) : CandidateDraft :=
  { entity := association.entity
    selector := association.selector
    reason := association.reason
    relationIds := [association.relationId]
    explicit := false }

theorem get_addAssociated (drafts : Drafts) (association : Association) (key : String) :
    (addAssociated drafts association).get key =
      if association.entity.id = key then
        some (match drafts.get key with
          | none => associatedDraft association
          | some current => { current with relationIds := addId current.relationIds association.relationId })
      else drafts.get key := by
  rw [addAssociated, addCandidate]
  cases hget : drafts.get association.entity.id with
  | none =>
    rw [get_set]
    by_cases hkey : key = association.entity.id
    · simp [hkey, hget, associatedDraft]
    · simp [hkey, Ne.symm hkey]
  | some current =>
    simp only [Option.isNone_some, Bool.and_false, Bool.false_eq_true, if_false]
    rw [get_set]
    by_cases hkey : key = association.entity.id
    · simp [hkey, hget]
    · simp [hkey, Ne.symm hkey]

theorem get_foldl_addAssociated (found : List Association) (drafts : Drafts) (key : String) :
    (found.foldl addAssociated drafts).get key =
      match drafts.get key with
      | some current => some { current with relationIds := addIds current.relationIds (idsFor found key) }
      | none => (found.find? fun association => association.entity.id = key).map fun association =>
          { associatedDraft association with relationIds := addIds [] (idsFor found key) } := by
  induction found generalizing drafts with
  | nil =>
    cases hget : drafts.get key <;> simp [hget, idsFor, addIds]
  | cons association found ih =>
    rw [List.foldl_cons, ih, get_addAssociated]
    by_cases hkey : association.entity.id = key
    · rw [if_pos hkey]
      have hids : idsFor (association :: found) key = association.relationId :: idsFor found key := by
        simp [idsFor, hkey]
      cases drafts.get key with
      | none =>
        rw [hids, List.find?_cons_of_pos (by simpa using hkey)]
        rfl
      | some current =>
        rw [hids]
        rfl
    · rw [if_neg hkey]
      have hids : idsFor (association :: found) key = idsFor found key := by
        simp [idsFor, hkey]
      rw [hids, List.find?_cons_of_neg (by simpa using hkey)]

theorem filed_foldl_addAssociated (h : FiledDrafts drafts) (found : List Association) :
    FiledDrafts (found.foldl addAssociated drafts) := by
  induction found generalizing drafts with
  | nil => exact h
  | cons association found ih => exact ih (filed_addCandidate h _)

end Associating

open JavaScriptValues JsonValues

section Keys

theorem head_typeText (type : CanonC3SelectorType) (text : String) :
    (type.text ++ ":" ++ text).toList.head? = type.text.toList.head? := by
  rw [String.toList_append, String.toList_append, List.append_assoc, List.head?_append]
  cases type <;> rfl

variable {type type' : CanonC3SelectorType}

theorem type_of_head (h : type.text.toList.head? = type'.text.toList.head?) : type = type' := by
  cases type <;> cases type' <;> first | rfl | exact absurd h (by decide)

theorem typeText_inj {text text' : String}
    (h : type.text ++ ":" ++ text = type'.text ++ ":" ++ text') : type = type' ∧ text = text' := by
  have htype : type = type' := by
    apply type_of_head
    rw [← head_typeText type text, h, head_typeText]
  subst htype
  have hlists := congrArg String.toList h
  simp only [String.toList_append] at hlists
  exact ⟨rfl, String.toList_inj.1 (List.append_cancel_left hlists)⟩

/-- The value of a selector is one that JavaScript can have. -/
def PlainSelector (selector : SelectorInput) : Prop := selector.value.json.plain = true

theorem inKeyOrder_of_selectorKey {left right : SelectorInput} (hleft : PlainSelector left)
    (hright : PlainSelector right) (h : selectorKey left = selectorKey right) :
    left.type = right.type ∧ inKeyOrder left.value.json = inKeyOrder right.value.json := by
  obtain ⟨htype, htext⟩ := typeText_inj h
  have hparse := congrArg jsonParse htext
  rw [jsonParse_stableStringifyValue hleft, jsonParse_stableStringifyValue hright] at hparse
  exact ⟨htype, Option.some.inj hparse⟩

end Keys

section Resolution

variable {snapshot : RepositorySemanticSnapshot} {left right : SelectorInput}

def resolved? (snapshot : RepositorySemanticSnapshot) (selector : SelectorInput) :
    Option (CanonC3Selector × SemanticEntity) := (resolveSelector snapshot selector).toOption

variable {fields fields' : Properties}

theorem statedPart_inKeyOrder {field : String}
    (h : (property fields field).map inKeyOrder = (property fields' field).map inKeyOrder) :
    statedPart fields field = statedPart fields' field := by
  have hread : ∀ fields : Properties, statedPart fields field =
      (text? ((property fields field).map inKeyOrder)).bind fun value =>
        if trim value = "" then none else some (trim value) := by
    intro fields
    rw [statedPart]
    cases property fields field with
    | none => rfl
    | some value =>
      cases value with
      | array elements => rw [Option.map_some, inKeyOrder_array]; rfl
      | object properties => rw [Option.map_some, inKeyOrder_object]; rfl
      | _ => rfl
  rw [hread, hread, h]

theorem normalizeSymbolSelector_congr (hplain : (JsonValue.object fields).plain = true)
    (hplain' : (JsonValue.object fields').plain = true)
    (h : inKeyOrder (.object fields) = inKeyOrder (.object fields')) :
    normalizeSymbolSelector (.record fields) = normalizeSymbolSelector (.record fields') := by
  have hparts : ∀ field, statedPart fields field = statedPart fields' field := by
    intro field
    apply statedPart_inKeyOrder
    have hmember := congrArg (fun value => member? value field) h
    simp only [member?_inKeyOrder hplain, member?_inKeyOrder hplain'] at hmember
    exact hmember
  simp only [normalizeSymbolSelector, hparts]

theorem toOption_resolveUnique {Entity : Type} (entityId : Entity → String) (selector : SelectorInput)
    (unknown ambiguous : String) (entities : List Entity) :
    (resolveUnique entityId selector unknown ambiguous entities).toOption =
      match entities with
      | [entity] => some entity
      | _ => none := by
  cases entities with
  | nil => rfl
  | cons entity entities => cases entities <;> rfl

theorem toOption_map {α β : Type} (f : α → β) (x : Except CanonC3Diagnostic α) :
    (x.map f).toOption = x.toOption.map f := by
  cases x <;> rfl

theorem resolveSymbol_congr (htype : left.type = right.type)
    (hnormal : normalizeSymbolSelector left.value = normalizeSymbolSelector right.value)
    (hmatches : ∀ symbolSelector, matchesSymbol left.value symbolSelector =
      matchesSymbol right.value symbolSelector) :
    (resolveSymbol snapshot left).toOption = (resolveSymbol snapshot right).toOption := by
  rw [resolveSymbol, resolveSymbol, hnormal]
  cases normalizeSymbolSelector right.value with
  | none => rfl
  | some symbolSelector =>
    simp only [toOption_map, toOption_resolveUnique, htype, hmatches]

theorem resolved?_congr (hleft : PlainSelector left) (hright : PlainSelector right)
    (h : selectorKey left = selectorKey right) : resolved? snapshot left = resolved? snapshot right := by
  obtain ⟨htype, hvalue⟩ := inKeyOrder_of_selectorKey hleft hright h
  obtain ⟨type, value⟩ := left
  obtain ⟨type', value'⟩ := right
  cases htype
  cases value with
  | text text =>
    cases value' with
    | text text' =>
      have htext : text = text' := JsonValue.string.inj hvalue
      rw [htext]
    | record fields =>
      have hobject := hvalue
      simp only [SelectorValue.json, inKeyOrder_object] at hobject
      exact absurd hobject nofun
  | record fields =>
    cases value' with
    | text text =>
      have hobject := hvalue
      simp only [SelectorValue.json, inKeyOrder_object] at hobject
      exact absurd hobject nofun
    | record fields' =>
      have hnormal := normalizeSymbolSelector_congr hleft hright hvalue
      have hsymbol : (resolveSymbol snapshot ⟨type, .record fields⟩).toOption =
          (resolveSymbol snapshot ⟨type, .record fields'⟩).toOption :=
        resolveSymbol_congr rfl hnormal fun _ => rfl
      cases type with
      | path => rfl
      | component => rfl
      | _ => exact hsymbol

end Resolution

section Distinct

variable {selectors left right : List SelectorInput} {selector : SelectorInput}

variable {key : String}

theorem get_foldl_of_ne (selectors : List SelectorInput) (m : OrderedMap String SelectorInput)
    (h : ∀ selector ∈ selectors, selectorKey selector ≠ key) :
    (selectors.foldl (fun distinct selector => distinct.set (selectorKey selector) selector) m).get key =
      m.get key := by
  induction selectors generalizing m with
  | nil => rfl
  | cons selector selectors ih =>
    rw [List.foldl_cons, ih _ fun other hother => h other (List.mem_cons_of_mem _ hother)]
    apply Option.ext
    intro value
    rw [get_set_eq_some_iff]
    have hne := h selector List.mem_cons_self
    constructor
    · rintro (⟨heq, -⟩ | ⟨-, hget⟩)
      · exact absurd heq.symm hne
      · exact hget
    · exact fun hget => .inr ⟨hne.symm, hget⟩

theorem get_foldl_of_mem (selectors : List SelectorInput) (m : OrderedMap String SelectorInput)
    (h : ∃ selector ∈ selectors, selectorKey selector = key) :
    ∃ last ∈ selectors, selectorKey last = key ∧
      (selectors.foldl (fun distinct selector => distinct.set (selectorKey selector) selector) m).get key =
        some last := by
  induction selectors generalizing m with
  | nil =>
    obtain ⟨selector, hmem, -⟩ := h
    cases hmem
  | cons head selectors ih =>
    rw [List.foldl_cons]
    by_cases hlater : ∃ selector ∈ selectors, selectorKey selector = key
    · obtain ⟨last, hmem, hkey, hget⟩ := ih (m.set (selectorKey head) head) hlater
      exact ⟨last, List.mem_cons_of_mem _ hmem, hkey, hget⟩
    · have hhead : selectorKey head = key := by
        obtain ⟨selector, hmem, hkey⟩ := h
        rcases List.mem_cons.1 hmem with rfl | hmem
        · exact hkey
        · exact absurd ⟨selector, hmem, hkey⟩ hlater
      push Not at hlater
      refine ⟨head, List.mem_cons_self, hhead, ?_⟩
      rw [get_foldl_of_ne selectors _ hlater, hhead]
      exact get_set_eq_some_iff.2 (.inl ⟨rfl, rfl⟩)

/-- The selectors of the second list come last, so that they stand for those with their keys. -/
theorem exists_distinct_of_mem_right (h : selector ∈ right) : ∃ last ∈ right,
    selectorKey last = selectorKey selector ∧ last ∈ distinctSelectors (left ++ right) := by
  obtain ⟨last, hmem, hkey, hget⟩ := get_foldl_of_mem right
    (left.foldl (fun distinct selector => distinct.set (selectorKey selector) selector) .empty)
    ⟨selector, h, rfl⟩
  refine ⟨last, hmem, hkey, ?_⟩
  rw [distinctSelectors, List.foldl_append]
  exact mem_values.2 ⟨_, get_eq_some_iff.1 hget⟩

end Distinct

open JsonValues.Schema CanonIdentity

section Occurrences

/-- The values under a key that names a type. -/
def listed : JsonValue → List JsonValue
  | .array items => items
  | value => [value]

/-- A selector occurs so many steps of the walk below a value. -/
inductive Occurs (selector : SelectorInput) : ℕ → JsonValue → Prop
  | item {items : List JsonValue} {item : JsonValue} {below : ℕ} (hitem : item ∈ items)
      (h : Occurs selector below item) : Occurs selector (below + 1) (.array items)
  | stated {fields : Properties} (h : selector ∈ statedSelector fields) :
      Occurs selector 0 (.object fields)
  | named {fields : Properties} {key : String} {child value : JsonValue} {type : CanonC3SelectorType}
      (hfield : (key, child) ∈ fields) (htype : selectorTypeByKey (lowerCase key) = some type)
      (hvalue : value ∈ listed child) (hstated : isStatedSelector value = false)
      (h : selector ∈ appendSelector type value) : Occurs selector 0 (.object fields)
  | namedStated {fields : Properties} {key : String} {child value : JsonValue}
      {type : CanonC3SelectorType} {below : ℕ} (hfield : (key, child) ∈ fields)
      (htype : selectorTypeByKey (lowerCase key) = some type) (hvalue : value ∈ listed child)
      (hstated : isStatedSelector value = true) (h : Occurs selector below value) :
      Occurs selector (below + 1) (.object fields)
  | container {fields : Properties} {key : String} {child : JsonValue} {below : ℕ}
      (hfield : (key, child) ∈ fields) (htype : selectorTypeByKey (lowerCase key) = none)
      (hcontainer : lowerCase key ∈ selectorContainers) (h : Occurs selector below child) :
      Occurs selector (below + 1) (.object fields)

/-- One item under a key that names a type. -/
def typedSelector (depth : ℕ) (type : CanonC3SelectorType) (value : JsonValue) : List SelectorInput :=
  if isStatedSelector value then selectorsFromValue depth value else appendSelector type value

/-- What the walk finds under a key. -/
def fieldSelectors (depth : ℕ) (field : String × JsonValue) : List SelectorInput :=
  match selectorTypeByKey (lowerCase field.1) with
  | some type => (listed field.2).flatMap (typedSelector depth type)
  | none => if lowerCase field.1 ∈ selectorContainers then selectorsFromValue depth field.2 else []

variable {items : List JsonValue}
variable (depth : ℕ)

theorem selectorsFromItems_eq {n : ℕ} (h : items.length ≤ n) :
    selectorsFromItems depth n items = items.flatMap (selectorsFromValue depth) := by
  induction items generalizing n with
  | nil => cases n <;> simp [selectorsFromItems]
  | cons item items ih =>
    cases n with
    | zero => exact absurd h (Nat.not_succ_le_zero _)
    | succ n => rw [selectorsFromItems, ih (Nat.le_of_succ_le_succ h), List.flatMap_cons]

theorem typedSelectors_eq (type : CanonC3SelectorType) {n : ℕ} (h : items.length ≤ n) :
    typedSelectors depth type n items = items.flatMap (typedSelector depth type) := by
  induction items generalizing n with
  | nil => cases n <;> simp [typedSelectors]
  | cons item items ih =>
    cases n with
    | zero => exact absurd h (Nat.not_succ_le_zero _)
    | succ n =>
      rw [typedSelectors, ih (Nat.le_of_succ_le_succ h), List.flatMap_cons]
      rfl

/-- An array that the schema accepts is no longer than the walk looks. -/
def ShortArray (value : JsonValue) : Prop := ∀ items, value = .array items → items.length ≤ maxSelectorItems

theorem selectorsFromFields_eq {fields : Properties} (h : ∀ field ∈ fields, ShortArray field.2) :
    selectorsFromFields depth fields = fields.flatMap (fieldSelectors depth) := by
  induction fields with
  | nil => simp [selectorsFromFields]
  | cons field fields ih =>
    obtain ⟨key, child⟩ := field
    have hshort := h (key, child) List.mem_cons_self
    rw [selectorsFromFields, ih fun field hfield => h field (List.mem_cons_of_mem _ hfield),
      List.flatMap_cons]
    congr 1
    rw [fieldSelectors]
    cases hkey : selectorTypeByKey (lowerCase key) with
    | none => rfl
    | some type =>
      cases child with
      | array items => exact typedSelectors_eq depth type (hshort items rfl)
      | _ => simp [listed, typedSelector]

end Occurrences

section Accepted

variable {levels : ℕ} {value : JsonValue} {selector : SelectorInput}

theorem accepted_array {items : List JsonValue} (h : jsonValueSchemaAbove levels (.array items) = true) :
    ∃ below, levels = below + 1 ∧ items.length ≤ maxSelectorItems ∧
      ∀ item ∈ items, jsonValueSchemaAbove below item = true := by
  cases levels with
  | zero => cases h
  | succ below =>
    rw [jsonValueSchemaAbove, Bool.or_eq_true, Bool.or_eq_true] at h
    rcases h with (hprimitive | harray) | hrecord
    · cases hprimitive
    · obtain ⟨⟨-, hlength⟩, hitems⟩ := arrayOf_iff.1 harray
      exact ⟨below, rfl, hlength, hitems⟩
    · cases hrecord

theorem accepted_object {fields : Properties} (h : jsonValueSchemaAbove levels (.object fields) = true) :
    ∃ below, levels = below + 1 ∧ ∀ field ∈ fields, jsonValueSchemaAbove below field.2 = true := by
  cases levels with
  | zero => cases h
  | succ below =>
    rw [jsonValueSchemaAbove, Bool.or_eq_true, Bool.or_eq_true] at h
    rcases h with (hprimitive | harray) | hrecord
    · cases hprimitive
    · cases harray
    · rw [boundedJsonRecordSchema, Bool.and_eq_true, List.all_eq_true] at hrecord
      refine ⟨below, rfl, fun field hfield => ?_⟩
      have hboth := hrecord.2 field hfield
      rw [Bool.and_eq_true] at hboth
      exact hboth.2

theorem shortArray_of_accepted (h : jsonValueSchemaAbove levels value = true) : ShortArray value := by
  rintro items rfl
  obtain ⟨-, -, hlength, -⟩ := accepted_array h
  exact hlength

theorem accepted_listed {child : JsonValue} (h : jsonValueSchemaAbove levels child = true)
    (hvalue : value ∈ listed child) : ∃ below ≤ levels, jsonValueSchemaAbove below value = true := by
  cases child with
  | array items =>
    obtain ⟨below, rfl, -, hitems⟩ := accepted_array h
    exact ⟨below, Nat.le_succ _, hitems value hvalue⟩
  | _ => exact ⟨levels, le_rfl, (List.mem_singleton.1 hvalue) ▸ h⟩

/-- The walk finds a selector exactly if it occurs no deeper than the walk goes. -/
theorem mem_selectorsFromValue_iff (h : jsonValueSchemaAbove levels value = true) (depth : ℕ) :
    selector ∈ selectorsFromValue depth value ↔
      ∃ below, depth + below ≤ maxSelectorDepth ∧ Occurs selector below value := by
  induction levels using Nat.strong_induction_on generalizing value depth with
  | _ levels ih =>
    by_cases hdepth : maxSelectorDepth < depth
    · have hnone : selectorsFromValue depth value = [] := by
        cases value <;> simp [selectorsFromValue, hdepth]
      rw [hnone]
      constructor
      · nofun
      · rintro ⟨below, hbelow, -⟩
        omega
    · cases value with
      | array items =>
        obtain ⟨levels', rfl, hlength, hitems⟩ := accepted_array h
        rw [selectorsFromValue, if_neg hdepth, selectorsFromItems_eq _ hlength, List.mem_flatMap]
        constructor
        · rintro ⟨item, hitem, hmem⟩
          obtain ⟨below, hbelow, hoccurs⟩ := (ih levels' (Nat.lt_succ_self _) (hitems item hitem) _).1 hmem
          exact ⟨below + 1, by omega, .item hitem hoccurs⟩
        · rintro ⟨below, hbelow, hoccurs⟩
          cases hoccurs with
          | @item _ item below hitem hoccurs =>
            exact ⟨item, hitem, (ih levels' (Nat.lt_succ_self _) (hitems item hitem) _).2
              ⟨below, by omega, hoccurs⟩⟩
      | object fields =>
        obtain ⟨levels', rfl, hfields⟩ := accepted_object h
        rw [selectorsFromValue, if_neg hdepth,
          selectorsFromFields_eq _ fun field hfield => shortArray_of_accepted (hfields field hfield),
          List.mem_append, List.mem_flatMap]
        constructor
        · rintro (hstated | ⟨⟨key, child⟩, hfield, hmem⟩)
          · exact ⟨0, by omega, .stated hstated⟩
          · rw [fieldSelectors] at hmem
            cases htype : selectorTypeByKey (lowerCase key) with
            | some type =>
              simp only [htype, List.mem_flatMap] at hmem
              obtain ⟨value, hvalue, hmem⟩ := hmem
              cases hstated : isStatedSelector value with
              | true =>
                rw [typedSelector, hstated, if_pos rfl] at hmem
                obtain ⟨levels'', hle, haccepted⟩ := accepted_listed (hfields _ hfield) hvalue
                obtain ⟨below, hbelow, hoccurs⟩ := (ih levels'' (by omega) haccepted _).1 hmem
                exact ⟨below + 1, by omega, .namedStated hfield htype hvalue hstated hoccurs⟩
              | false =>
                rw [typedSelector, hstated, if_neg Bool.false_ne_true] at hmem
                exact ⟨0, by omega, .named hfield htype hvalue hstated hmem⟩
            | none =>
              simp only [htype] at hmem
              split_ifs at hmem with hcontainer
              · obtain ⟨below, hbelow, hoccurs⟩ :=
                  (ih levels' (Nat.lt_succ_self _) (hfields _ hfield) _).1 hmem
                exact ⟨below + 1, by omega, .container hfield htype hcontainer hoccurs⟩
              · cases hmem
        · rintro ⟨below, hbelow, hoccurs⟩
          cases hoccurs with
          | stated hstated => exact .inl hstated
          | @named _ key child value type hfield htype hvalue hstated hmem =>
            refine .inr ⟨(key, child), hfield, ?_⟩
            simp only [fieldSelectors, htype, List.mem_flatMap]
            exact ⟨value, hvalue, by rwa [typedSelector, hstated, if_neg Bool.false_ne_true]⟩
          | @namedStated _ key child value type below hfield htype hvalue hstated hoccurs =>
            refine .inr ⟨(key, child), hfield, ?_⟩
            simp only [fieldSelectors, htype, List.mem_flatMap]
            refine ⟨value, hvalue, ?_⟩
            rw [typedSelector, hstated, if_pos rfl]
            obtain ⟨levels'', hle, haccepted⟩ := accepted_listed (hfields _ hfield) hvalue
            exact (ih levels'' (by omega) haccepted _).2 ⟨below, by omega, hoccurs⟩
          | @container _ key child below hfield htype hcontainer hoccurs =>
            refine .inr ⟨(key, child), hfield, ?_⟩
            simp only [fieldSelectors, htype, if_pos hcontainer]
            exact (ih levels' (Nat.lt_succ_self _) (hfields _ hfield) _).2 ⟨below, by omega, hoccurs⟩
      | _ =>
        constructor
        · intro hmem
          simp [selectorsFromValue] at hmem
        · rintro ⟨below, -, hoccurs⟩
          cases hoccurs

end Accepted

section Plain

variable {value : JsonValue} {selector : SelectorInput} {below : ℕ} {type : CanonC3SelectorType}

theorem plain_of_appendSelector (hplain : value.plain = true) (h : selector ∈ appendSelector type value) :
    PlainSelector selector := by
  cases value with
  | string text =>
    rw [List.mem_singleton.1 h]
    rfl
  | object fields =>
    rw [List.mem_singleton.1 h]
    exact hplain
  | _ => cases h

theorem plain_listed {child : JsonValue} (hplain : child.plain = true) (h : value ∈ listed child) :
    value.plain = true := by
  cases child with
  | array items => exact plain_array.1 hplain value h
  | _ => exact (List.mem_singleton.1 h) ▸ hplain

theorem plain_of_occurs (hplain : value.plain = true) (h : Occurs selector below value) :
    PlainSelector selector := by
  induction h with
  | item hitem _ ih => exact ih (plain_array.1 hplain _ hitem)
  | @stated fields hstated =>
    rw [statedSelector] at hstated
    split at hstated
    · next hvalue => exact plain_of_appendSelector ((plain_object.1 hplain).2 _
        ((property_eq_some_iff (plain_object.1 hplain).1).1 hvalue)) hstated
    · cases hstated
  | named hfield _ hvalue _ hmem =>
    exact plain_of_appendSelector (plain_listed ((plain_object.1 hplain).2 _ hfield) hvalue) hmem
  | namedStated hfield _ hvalue _ _ ih => exact ih (plain_listed ((plain_object.1 hplain).2 _ hfield) hvalue)
  | container hfield _ _ _ ih => exact ih ((plain_object.1 hplain).2 _ hfield)

end Plain

section Completeness

variable {locale : ContextRuntime.Locale} {sha256 : String → String} {input : SelectInput} {selector : SelectorInput}

theorem diagnosticOf_eq_none {resolved : Except CanonC3Diagnostic (CanonC3Selector × SemanticEntity)} :
    diagnosticOf resolved = none ↔ resolved.toOption ≠ none := by
  cases resolved <;> simp [diagnosticOf, Except.toOption]

theorem complete_iff : (selectCanonC3Candidates locale sha256 input).complete = true ↔
    selectorsOf input ≠ [] ∧ ∀ selector ∈ selectorsOf input, resolved? input.semantic selector ≠ none := by
  have hdiagnostics : ((selectorsOf input).map (resolveSelector input.semantic)).filterMap diagnosticOf = [] ↔
      ∀ selector ∈ selectorsOf input, resolved? input.semantic selector ≠ none := by
    rw [List.filterMap_eq_nil_iff]
    constructor
    · intro h selector hmem
      exact diagnosticOf_eq_none.1 (h _ (List.mem_map_of_mem hmem))
    · intro h resolved hmem
      obtain ⟨selector, hselector, rfl⟩ := List.mem_map.1 hmem
      exact diagnosticOf_eq_none.2 (h selector hselector)
  rw [← hdiagnostics]
  simp only [selectCanonC3Candidates, List.isEmpty_iff, List.append_eq_nil_iff]
  by_cases hnil : selectorsOf input = []
  · simp [hnil]
  · simp [hnil]

theorem exists_candidate (h : selector ∈ selectorsOf input) {resolved : CanonC3Selector × SemanticEntity}
    (hresolved : resolveSelector input.semantic selector = .ok resolved) :
    ∃ candidate ∈ (selectCanonC3Candidates locale sha256 input).candidates,
      candidate.entityId = resolved.2.id := by
  let found := (selectorsOf input).map (resolveSelector input.semantic)
  have hfirst : (firstResolved (found.filterMap (·.toOption)) resolved.2.id) ≠ none := by
    rw [firstResolved, Ne, List.find?_eq_none]
    intro hnone
    refine hnone resolved (List.mem_filterMap.2 ⟨_, List.mem_map_of_mem h, ?_⟩) (by simp)
    rw [hresolved]
    rfl
  have hexplicit := get_foldl_addResolved allExplicit_empty found resolved.2.id
  have hempty : (OrderedMap.empty : Drafts).get resolved.2.id = none := rfl
  rw [hempty, Option.none_or] at hexplicit
  obtain ⟨first, hfirst⟩ := Option.ne_none_iff_exists'.1 hfirst
  rw [hfirst, Option.map_some] at hexplicit
  have hfinal := get_foldl_addAssociated (associations locale input.semantic
    ((found.foldl addResolved OrderedMap.empty).values.map (·.entity.id)))
    (found.foldl addResolved OrderedMap.empty) resolved.2.id
  rw [hexplicit, ← addAssociations_eq] at hfinal
  refine ⟨_, ((List.mergeSort_perm _ _).mem_iff).2 (List.mem_map_of_mem (mem_values.2
    ⟨resolved.2.id, get_eq_some_iff.1 hfinal⟩)), ?_⟩
  have hid := List.find?_some hfirst
  simpa [toCandidate, explicitDraft] using hid

structure CanonValue where
  value : JsonValue
  plain : value.plain = true
  accepted : jsonValueSchema value = true

def inputOf (c2 : List CanonValue) (selectors : List SelectorInput) (semantic : RepositorySemanticSnapshot)
    (sourceGeneration : Option SourceGeneration) : SelectInput :=
  { c2 := c2.map (·.value), selectors := selectors, semantic := semantic, sourceGeneration := sourceGeneration }

/-- A selector of one of the four types occurs in a value of the second layer. -/
def OccursIn (c2 : List CanonValue) (selector : SelectorInput) (below : ℕ) : Prop :=
  selector.type ≠ .inherited ∧ ∃ value ∈ c2, Occurs selector below value.value

/-- A complete result has resolved all selectors, and skipped none. -/
structure HonestCompleteness (locale : ContextRuntime.Locale) (sha256 : String → String) (c2 : List CanonValue)
    (selectors : List SelectorInput) (semantic : RepositorySemanticSnapshot)
    (sourceGeneration : Option SourceGeneration) : Prop where
  resolved : (selectCanonC3Candidates locale sha256
      (inputOf c2 selectors semantic sourceGeneration)).complete = true →
    ∀ selector below, OccursIn c2 selector below →
      ∃ resolved, resolveSelector semantic selector = .ok resolved ∧
        ∃ candidate ∈ (selectCanonC3Candidates locale sha256
            (inputOf c2 selectors semantic sourceGeneration)).candidates,
          candidate.entityId = resolved.2.id
  skipped : (selectCanonC3Candidates locale sha256
      (inputOf c2 selectors semantic sourceGeneration)).complete = true →
    ∀ selector below, OccursIn c2 selector below → below ≤ maxSelectorDepth

/-- No selector occurs too deep, or the selectors that are found make the result incomplete. -/
def ShallowOrUnresolved (c2 : List CanonValue) (selectors : List SelectorInput)
    (semantic : RepositorySemanticSnapshot) (sourceGeneration : Option SourceGeneration) : Prop :=
  (∀ selector below, OccursIn c2 selector below → below ≤ maxSelectorDepth) ∨
    selectorsOf (inputOf c2 selectors semantic sourceGeneration) = [] ∨
    ∃ selector ∈ selectorsOf (inputOf c2 selectors semantic sourceGeneration),
      resolved? semantic selector = none

variable {c2 : List CanonValue} {selectors : List SelectorInput} {semantic : RepositorySemanticSnapshot}
  {sourceGeneration : Option SourceGeneration}

/-- What the walk finds are the selectors that occur no deeper than it goes. -/
theorem mem_selectorsFromC2_iff : selector ∈ selectorsFromC2 (c2.map (·.value)) ↔
    ∃ value ∈ c2, ∃ below ≤ maxSelectorDepth, Occurs selector below value.value := by
  rw [selectorsFromC2, List.flatMap_map, List.mem_flatMap]
  constructor
  · rintro ⟨value, hvalue, hmem⟩
    obtain ⟨below, hbelow, hoccurs⟩ := (mem_selectorsFromValue_iff value.accepted 0).1 hmem
    exact ⟨value, hvalue, below, by omega, hoccurs⟩
  · rintro ⟨value, hvalue, below, hbelow, hoccurs⟩
    exact ⟨value, hvalue, (mem_selectorsFromValue_iff value.accepted 0).2 ⟨below, by omega, hoccurs⟩⟩

theorem plain_selectorsFromC2 (h : selector ∈ selectorsFromC2 (c2.map (·.value))) : PlainSelector selector := by
  obtain ⟨value, -, below, -, hoccurs⟩ := mem_selectorsFromC2_iff.1 h
  exact plain_of_occurs value.plain hoccurs

theorem resolved_of_found
    (hcomplete : (selectCanonC3Candidates locale sha256
      (inputOf c2 selectors semantic sourceGeneration)).complete = true)
    (h : selector ∈ selectorsFromC2 (c2.map (·.value))) :
    ∃ resolved, resolveSelector semantic selector = .ok resolved ∧
      ∃ candidate ∈ (selectCanonC3Candidates locale sha256
          (inputOf c2 selectors semantic sourceGeneration)).candidates,
        candidate.entityId = resolved.2.id := by
  obtain ⟨last, hlast, hkey, hdistinct⟩ := @exists_distinct_of_mem_right selectors _ _ h
  have hlastResolved := (complete_iff.1 hcomplete).2 last hdistinct
  have hsame : resolved? semantic last = resolved? semantic selector :=
    resolved?_congr (plain_selectorsFromC2 hlast) (plain_selectorsFromC2 h) hkey
  obtain ⟨resolved, hresolved⟩ := Option.ne_none_iff_exists'.1 hlastResolved
  have hok : ∀ selector, resolved? semantic selector = some resolved →
      resolveSelector semantic selector = .ok resolved := by
    intro selector hsome
    rw [resolved?] at hsome
    cases hresolve : resolveSelector semantic selector with
    | error diagnostic =>
      rw [hresolve] at hsome
      cases hsome
    | ok resolved' =>
      rw [hresolve] at hsome
      rw [Option.some.inj hsome]
  exact ⟨resolved, hok selector (hsame ▸ hresolved), exists_candidate hdistinct (hok last hresolved)⟩

/-- Completeness is honest exactly if no selector occurs too deep, or the result is incomplete because
of what is found. -/
theorem honestCompleteness_iff (locale : ContextRuntime.Locale) (sha256 : String → String) (c2 : List CanonValue)
    (selectors : List SelectorInput) (semantic : RepositorySemanticSnapshot)
    (sourceGeneration : Option SourceGeneration) :
    HonestCompleteness locale sha256 c2 selectors semantic sourceGeneration ↔
      ShallowOrUnresolved c2 selectors semantic sourceGeneration := by
  constructor
  · intro hhonest
    by_cases hcomplete : (selectCanonC3Candidates locale sha256
        (inputOf c2 selectors semantic sourceGeneration)).complete = true
    · exact .inl (hhonest.skipped hcomplete)
    · rw [complete_iff] at hcomplete
      by_cases hnil : selectorsOf (inputOf c2 selectors semantic sourceGeneration) = []
      · exact .inr (.inl hnil)
      · refine .inr (.inr ?_)
        by_contra hnone
        push Not at hnone
        exact hcomplete ⟨hnil, hnone⟩
  · rintro (hshallow | hincomplete)
    · refine ⟨fun hcomplete selector below hoccurs => ?_, fun _ => hshallow⟩
      obtain ⟨-, value, hvalue, hin⟩ := id hoccurs
      exact resolved_of_found hcomplete (mem_selectorsFromC2_iff.2
        ⟨value, hvalue, below, hshallow selector below hoccurs, hin⟩)
    · have hnot : ¬ (selectCanonC3Candidates locale sha256
          (inputOf c2 selectors semantic sourceGeneration)).complete = true := by
        rw [complete_iff]
        rintro ⟨hne, hall⟩
        rcases hincomplete with hnil | ⟨selector, hmem, hnone⟩
        · exact hne hnil
        · exact hall selector hmem hnone
      exact ⟨fun hcomplete => absurd hcomplete hnot, fun hcomplete => absurd hcomplete hnot⟩

end Completeness

section Deep

def underScopes (value : JsonValue) : ℕ → JsonValue
  | 0 => value
  | n + 1 => .object [("scope", underScopes value n)]

variable {value : JsonValue}

theorem plain_underScopes (h : value.plain = true) (n : ℕ) :
    (underScopes value n).plain = true := by
  induction n with
  | zero => exact h
  | succ n ih => exact plain_object.2 ⟨List.nodup_singleton _, fun field hfield => List.mem_singleton.1 hfield ▸ ih⟩

theorem accepted_underScopes {levels : ℕ} (h : jsonValueSchemaAbove levels value = true) (n : ℕ) :
    jsonValueSchemaAbove (levels + n) (underScopes value n) = true := by
  induction n with
  | zero => exact h
  | succ n ih =>
    have hkey : decide (utf16Length "scope" ≤ maxIdLength) = true := by decide
    simp [underScopes, jsonValueSchemaAbove, boundedJsonRecordSchema, ih, hkey,
      maxJsonObjectEntries]

theorem occurs_underScopes {selector : SelectorInput} {below : ℕ}
    (h : Occurs selector below value) (n : ℕ) :
    Occurs selector (below + n) (underScopes value n) := by
  induction n with
  | zero => exact h
  | succ n ih => exact .container List.mem_cons_self rfl (by decide) ih

def pathValue (path : String) : JsonValue := .object [("path", .string path)]

variable (path : String)

theorem occurs_pathValue : Occurs ⟨.path, .text path⟩ 0 (pathValue path) :=
  .named List.mem_cons_self rfl List.mem_cons_self rfl List.mem_cons_self

theorem accepted_pathValue (levels : ℕ) :
    jsonValueSchemaAbove (levels + 1) (pathValue path) = true := by
  have hkey : decide (utf16Length "path" ≤ maxIdLength) = true := by decide
  have htext : jsonValueSchemaAbove levels (.string path) = true := by
    cases levels <;> simp [jsonValueSchemaAbove, jsonPrimitiveSchema]
  simp [pathValue, jsonValueSchemaAbove, boundedJsonRecordSchema, htext, hkey, maxJsonObjectEntries]

theorem plain_pathValue : (pathValue path).plain = true :=
  plain_object.2 ⟨List.nodup_singleton _, fun _ hfield => List.mem_singleton.1 hfield ▸ rfl⟩

theorem accepted_scopedPath {n : ℕ} (h : n < maxJsonNestingDepth) :
    jsonValueSchema (underScopes (pathValue path) n) = true := by
  have haccepted := accepted_underScopes (accepted_pathValue path (maxJsonNestingDepth - n - 1)) n
  have hlevels : maxJsonNestingDepth - n - 1 + 1 + n = maxJsonNestingDepth := by omega
  rwa [hlevels] at haccepted

def scopedPath (path : String) (n : ℕ) (h : n < maxJsonNestingDepth) : CanonValue where
  value := underScopes (pathValue path) n
  plain := plain_underScopes (plain_pathValue path) n
  accepted := accepted_scopedPath path h

def oneFile : RepositorySemanticSnapshot :=
  { repositoryId := "repository"
    components := []
    files := [{ id := "file:a", name := "a.ts", authority := "derived"
                producer := { name := "extractor", version := "1" }, path := "a.ts", language := none }]
    symbols := [], tests := [], relations := [], trackedFiles := [] }

/-- A path under thirteen scopes is skipped, and the result is complete. -/
theorem complete_despite_deep_selector : ¬ ∀ (locale : ContextRuntime.Locale) (sha256 : String → String)
    (c2 : List CanonValue) (selectors : List SelectorInput) (semantic : RepositorySemanticSnapshot)
    (sourceGeneration : Option SourceGeneration),
    HonestCompleteness locale sha256 c2 selectors semantic sourceGeneration := by
  intro h
  have hskipped := (h { localeCompare := compare, toLowerCase := id } id
    [scopedPath "a.ts" 0 (by decide), scopedPath "b.ts" 13 (by decide)] [] oneFile none).skipped
  have hcomplete : (selectCanonC3Candidates { localeCompare := compare, toLowerCase := id } id
      (inputOf [scopedPath "a.ts" 0 (by decide), scopedPath "b.ts" 13 (by decide)] [] oneFile none)).complete =
        true := by
    rw [complete_iff]
    have hselectors : selectorsOf (inputOf [scopedPath "a.ts" 0 (by decide), scopedPath "b.ts" 13 (by decide)]
        [] oneFile none) = [⟨.path, .text "a.ts"⟩] := rfl
    rw [hselectors]
    refine ⟨List.cons_ne_nil _ _, fun selector hselector => ?_⟩
    rw [List.mem_singleton.1 hselector]
    exact Option.ne_none_iff_exists'.2 ⟨_, rfl⟩
  have hdeep := occurs_underScopes (occurs_pathValue "b.ts") 13
  have hle := hskipped hcomplete ⟨.path, .text "b.ts"⟩ 13 ⟨nofun, scopedPath "b.ts" 13 (by decide), by simp, hdeep⟩
  exact absurd hle (by decide)

end Deep

end Mottainai.CanonCandidates

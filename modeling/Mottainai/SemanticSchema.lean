import Mottainai.JsonKeyOrder
import Mottainai.SymbolIds

/-!
# Semantic snapshots and their validation

A snapshot describes a repository in layers: what is declared, derived, observed and analysed, with
a graph of relations and a record of its integrity. The canonical form sorts the collections, and
the lists inside the items that are sets; the digests are those of its texts. Each schema is the one
of the same name in the source. After its schema, a snapshot is checked for what the schema cannot
say: that ids are unique, that references resolve, that each layer only carries its own authority,
that ownership is consistent, and that the digests of a fresh snapshot are its own.
-/

namespace Mottainai.Semantics

open JsonValues JsonValues.Canonical

inductive Collection where
  | components | capabilities | contracts | invariants | decisions | rationales | constraints
  | declaredFacts | effectPolicies | dependencyPolicies | reviewGuidance | stability | terminology
  | decisionLinks | symbolOwnership | semanticDebt | verificationPerspectives
  | declaredRequirements
  | files | symbols | packages | externalDependencies | externalApis | derivedFacts
  | derivedRequirements
  | evidences | tests | observedFacts | verificationEvidence
  | deltaEntries | analysisFacts | claims | unknowns | recommendedSourceReads | diagnostics
  | assessments | summaries | inferredRequirements
  | trackedFiles | extractors
  | relations
  deriving DecidableEq, Repr

/-- `RepositoryIntegrity`, without its collections. -/
structure RepositoryIntegrity where
  repositoryId : JsonValue
  git : Option JsonValue
  worktree : JsonValue
  schemaVersion : JsonValue
  semanticStateDigest : JsonValue
  modelDigest : JsonValue
  snapshotDigest : JsonValue
  status : JsonValue
  statusReason : Option JsonValue

/-- `RepositorySemanticSnapshot`. A collection that is `none` is `undefined`. -/
structure RepositorySemanticSnapshot where
  schemaVersion : JsonValue
  modelVersion : JsonValue
  repositoryIdentity : JsonValue
  revisionIdentity : Option JsonValue
  project : JsonValue
  commentPolicy : JsonValue
  health : JsonValue
  reviewLevel : JsonValue
  deltaVersion : JsonValue
  deltaIntent : JsonValue
  deltaUnauthorized : JsonValue
  verificationAuthority : Option JsonValue
  integrity : RepositoryIntegrity
  collections : Collection → Option (List JsonValue)

namespace RepositorySemanticSnapshot

/-- A collection, which is empty where it is `undefined`. -/
def list (s : RepositorySemanticSnapshot) (c : Collection) : List JsonValue :=
  (s.collections c).getD []

end RepositorySemanticSnapshot

/-- `item.id`. -/
def idOf (item : JsonValue) : String := textMember item "id"

section CanonicalForm

def canonicalizeProvenance : Canonical JsonValue :=
  object (fun _ name => match name with
    | "evidence" => array (sorted keep stableStringifyValue)
    | "ambiguity" => object (fun _ name => if name = "candidates" then texts else keep)
        fun _ => rfl
    | _ => keep) fun _ => rfl

def canonicalizeDefinition : Canonical JsonValue :=
  object (fun _ name => if name = "outputs" then
    object (fun _ name => if name = "effects" then texts else keep) fun _ => rfl
    else keep) fun _ => rfl

def entityRule (kind name : String) : Canonical JsonValue :=
  match name, kind with
  | "provenance", _ => canonicalizeProvenance
  | "definition", "contract" => canonicalizeDefinition
  | "rationaleIds", "decision" => texts
  | "constraintIds", "decision" => texts
  | "decisionIds", "rationale" => texts
  | "evidenceIds", "test" => texts
  | _, _ => keep

def canonicalizeEntity : Canonical JsonValue := object entityRule fun _ => rfl

/-- An item of which only the provenance has lists that are sorted. -/
def canonicalizeProvenanceOf : Canonical JsonValue :=
  object (fun _ name => if name = "provenance" then canonicalizeProvenance else keep)
    fun _ => rfl

def canonicalizeFact : Canonical JsonValue := canonicalizeProvenanceOf
def canonicalizeClaim : Canonical JsonValue := canonicalizeProvenanceOf
def canonicalizeRelation : Canonical JsonValue := canonicalizeProvenanceOf
def canonicalizeVerificationPerspective : Canonical JsonValue := canonicalizeProvenanceOf
def canonicalizeVerificationRequirement : Canonical JsonValue := canonicalizeProvenanceOf
def canonicalizeVerificationEvidence : Canonical JsonValue := canonicalizeProvenanceOf

def sortTexts (names : List String) (h : "kind" ∉ names) : Canonical JsonValue :=
  object (fun _ name => if name ∈ names then texts else keep) fun _ => if_neg h

def canonicalizeVerificationAssessment : Canonical JsonValue :=
  sortTexts ["evidenceIds", "satisfyingEvidenceIds", "missingEvidenceKinds"] (by decide)

def canonicalizeVerificationSummary : Canonical JsonValue :=
  sortTexts ["gapRequirementIds"] (by decide)

def canonicalizeItem : Collection → Canonical JsonValue
  | .components | .capabilities | .contracts | .invariants | .decisions | .rationales
  | .constraints => canonicalizeEntity
  | .declaredFacts | .derivedFacts | .observedFacts | .analysisFacts => canonicalizeFact
  | .effectPolicies => sortTexts ["allow", "deny", "rationaleIds"] (by decide)
  | .dependencyPolicies =>
    sortTexts ["allowedPackageIds", "deniedPackageIds", "rationaleIds"] (by decide)
  | .reviewGuidance | .stability => keep
  | .terminology => sortTexts ["relatedEntityIds"] (by decide)
  | .decisionLinks | .symbolOwnership | .semanticDebt => keep
  | .verificationPerspectives => canonicalizeVerificationPerspective
  | .declaredRequirements | .derivedRequirements | .inferredRequirements =>
    canonicalizeVerificationRequirement
  | .files | .symbols | .packages | .externalDependencies | .externalApis => canonicalizeEntity
  | .evidences | .tests => canonicalizeEntity
  | .verificationEvidence => canonicalizeVerificationEvidence
  | .deltaEntries => keep
  | .claims => canonicalizeClaim
  | .unknowns => sortTexts ["subjects"] (by decide)
  | .recommendedSourceReads | .diagnostics => keep
  | .assessments => canonicalizeVerificationAssessment
  | .summaries => canonicalizeVerificationSummary
  | .trackedFiles | .extractors => keep
  | .relations => canonicalizeRelation

def sortKey : Collection → JsonValue → String
  | .effectPolicies | .dependencyPolicies | .reviewGuidance | .stability | .terminology
  | .decisionLinks | .symbolOwnership | .semanticDebt => stableStringifyValue
  | .deltaEntries => fun item =>
    stableStringifyValue (.array [member item "subject", member item "kind", member item "id"])
  | .unknowns | .recommendedSourceReads | .diagnostics => stableStringifyValue
  | .assessments => fun item =>
    textMember (member item "target") "id" ++ ":" ++ textMember item "requirementId"
  | .summaries => fun item => textMember item "scope" ++ ":" ++ textMember item "targetId"
  | .trackedFiles => fun item => stableStringifyValue (member item "path")
  | .extractors => stableStringifyValue
  | .relations => fun item => stableStringifyValue
    (.array [member item "kind", member item "from", member item "to", member item "id"])
  | _ => idOf

def canonicalizeCollection (c : Collection) : Canonical (List JsonValue) :=
  sorted (canonicalizeItem c) (sortKey c)

def canonicalizeCommentPolicy : Canonical JsonValue :=
  sortTexts ["semanticCommentKinds", "inlineDirectives"] (by decide)

/-- The canonical form of a part of a value. -/
def focus {α β : Type} (c : Canonical β) (get : α → β) (set : β → α → α)
    (get_set : ∀ b a, get (set b a) = b) (set_get : ∀ a, set (get a) a = a)
    (set_set : ∀ b b' a, set b (set b' a) = set b a) : Canonical α where
  canon a := set (c.canon (get a)) a
  permuted a a' := ∃ b, c.permuted (get a) b ∧ a' = set b a
  distinct a := c.distinct (get a)
  canon_canon a := by rw [get_set, c.canon_canon, set_set]
  permuted_refl a := ⟨get a, c.permuted_refl _, (set_get a).symm⟩
  permuted_canon a := ⟨c.canon (get a), c.permuted_canon _, rfl⟩
  canon_eq := by
    rintro a _ h ⟨b, hb, rfl⟩
    rw [get_set, set_set, c.canon_eq h hb]
  distinct_of := by
    intro a h
    refine c.distinct_of fun b hb => ?_
    have hset := congrArg get (h (set b a) ⟨b, hb, rfl⟩)
    rwa [get_set, get_set, get_set] at hset
  permuted_of := by
    intro a a' h
    have hget := congrArg get h
    rw [get_set, get_set] at hget
    have hset := congrArg (set (get a')) h
    rw [set_set, set_set, set_get] at hset
    exact ⟨get a', c.permuted_of hget, hset.symm⟩

/-- `canonicalizeSnapshot`. -/
def canonicalizeSnapshot : Canonical RepositorySemanticSnapshot :=
  focus (both (family fun c => optional (canonicalizeCollection c)) canonicalizeCommentPolicy)
    (fun s => (s.collections, s.commentPolicy))
    (fun p s => { s with collections := p.1, commentPolicy := p.2 })
    (fun _ _ => rfl) (fun _ => rfl) (fun _ _ _ => rfl)

end CanonicalForm

section Digests

/-- An object with the properties that are not `undefined`. -/
def objectOf (properties : List (String × Option JsonValue)) : JsonValue :=
  .object (properties.filterMap fun entry => entry.2.map fun value => (entry.1, value))

variable (s : RepositorySemanticSnapshot)

def arrayOf (c : Collection) : Option JsonValue := (s.collections c).map .array

def declarationsJson : JsonValue := objectOf [("project", some s.project),
  ("components", arrayOf s .components), ("capabilities", arrayOf s .capabilities),
  ("contracts", arrayOf s .contracts), ("invariants", arrayOf s .invariants),
  ("decisions", arrayOf s .decisions), ("rationales", arrayOf s .rationales),
  ("constraints", arrayOf s .constraints), ("facts", arrayOf s .declaredFacts),
  ("effectPolicies", arrayOf s .effectPolicies),
  ("dependencyPolicies", arrayOf s .dependencyPolicies),
  ("reviewGuidance", arrayOf s .reviewGuidance), ("stability", arrayOf s .stability),
  ("terminology", arrayOf s .terminology), ("decisionLinks", arrayOf s .decisionLinks),
  ("commentPolicy", some s.commentPolicy), ("symbolOwnership", arrayOf s .symbolOwnership),
  ("semanticDebt", arrayOf s .semanticDebt),
  ("verificationPerspectives", arrayOf s .verificationPerspectives),
  ("verificationRequirements", arrayOf s .declaredRequirements)]

def derivedJson : JsonValue := objectOf [("files", arrayOf s .files),
  ("symbols", arrayOf s .symbols), ("packages", arrayOf s .packages),
  ("externalDependencies", arrayOf s .externalDependencies),
  ("externalApis", arrayOf s .externalApis), ("facts", arrayOf s .derivedFacts),
  ("verificationRequirements", arrayOf s .derivedRequirements)]

def observedJson : JsonValue := objectOf [("evidences", arrayOf s .evidences),
  ("tests", arrayOf s .tests), ("facts", arrayOf s .observedFacts),
  ("verificationEvidence", arrayOf s .verificationEvidence)]

def analysisJson : JsonValue := objectOf [("health", some s.health),
  ("reviewLevel", some s.reviewLevel),
  ("semanticDelta", some (objectOf [("version", some s.deltaVersion),
    ("intent", some s.deltaIntent), ("entries", arrayOf s .deltaEntries),
    ("unauthorized", some s.deltaUnauthorized)])),
  ("facts", arrayOf s .analysisFacts), ("claims", arrayOf s .claims),
  ("unknowns", arrayOf s .unknowns),
  ("recommendedSourceReads", arrayOf s .recommendedSourceReads),
  ("diagnostics", arrayOf s .diagnostics),
  ("verification", s.verificationAuthority.map fun authority =>
    objectOf [("authority", some authority), ("assessments", arrayOf s .assessments),
      ("summaries", arrayOf s .summaries),
      ("inferredRequirements", arrayOf s .inferredRequirements)])]

def graphJson : JsonValue := objectOf [("relations", arrayOf s .relations)]

/-- The record of integrity without its digests. -/
def undigestedIntegrityJson : JsonValue := objectOf [
  ("repositoryId", some s.integrity.repositoryId), ("git", s.integrity.git),
  ("worktree", some s.integrity.worktree), ("trackedFiles", arrayOf s .trackedFiles),
  ("extractors", arrayOf s .extractors), ("schemaVersion", some s.integrity.schemaVersion),
  ("status", some s.integrity.status), ("statusReason", s.integrity.statusReason)]

/-- `ContentDigest`. -/
def contentDigest (algorithm value : String) : JsonValue :=
  .object [("algorithm", .string algorithm), ("value", .string value)]

variable (sha256 : String → String)

/-- `digestCanonicalValue`. -/
def digestCanonicalValue (value : JsonValue) : JsonValue :=
  contentDigest "sha256" (sha256 (stableStringifyValue value))

structure IntegrityDigests where
  semanticStateDigest : JsonValue
  modelDigest : JsonValue
  snapshotDigest : JsonValue

/-- `computeIntegrityDigestsFromValidated`. -/
def computeIntegrityDigestsFromValidated : IntegrityDigests :=
  let canonical := canonicalizeSnapshot.canon s
  let state := [("declarations", some (declarationsJson canonical)),
    ("derived", some (derivedJson canonical)), ("observed", some (observedJson canonical)),
    ("analysis", some (analysisJson canonical)), ("graph", some (graphJson canonical))]
  let model := [("schemaVersion", some canonical.schemaVersion),
    ("modelVersion", some canonical.modelVersion),
    ("repositoryIdentity", some canonical.repositoryIdentity),
    ("revisionIdentity", canonical.revisionIdentity)] ++ state
  { semanticStateDigest := digestCanonicalValue sha256 (objectOf state)
    modelDigest := digestCanonicalValue sha256 (objectOf model)
    snapshotDigest := digestCanonicalValue sha256
      (objectOf (model ++ [("integrity", some (undigestedIntegrityJson canonical))])) }

end Digests

open JsonValues.Schema SemanticIds

section Values

def logicalIdSchema : Schema := string isLogicalId

/-- `[a-z0-9_-]+(\.[a-z0-9_-]+)*` after the first letter, of which the dots are between the others. -/
def isEffectIdTail : List Char → Bool
  | [] => true
  | '.' :: c :: cs => isNamespaceCharacter c && isEffectIdTail cs
  | c :: cs => isNamespaceCharacter c && isEffectIdTail cs

/-- `EFFECT_ID_PATTERN`. -/
def isEffectId : List Char → Bool
  | [] => false
  | c :: cs => c.isLower && isEffectIdTail cs

def effectIdSchema : Schema := string isEffectId

def metadataSchema : Schema := record

def authoritySchema : Schema := oneOf ["declared", "derived", "observed", "analysis", "integrity"]

def reviewLevelSchema : Schema := oneOf ["L0", "L1", "L2", "L3"]

def stabilitySchema : Schema :=
  oneOf ["experimental", "unstable", "stable", "protected", "deprecated"]

def proseSchema : Schema := nonempty

def semanticDeltaKindSchema : Schema := oneOf ["responsibility", "capability", "contract",
  "effect", "invariant", "dependency-policy", "public-surface"]

end Values

section Locators

def sourcePositionSchema : Schema :=
  object [required "line" (integerFrom 1), required "column" (integerFrom 0)]

def sourceRangeSchema : Schema :=
  object [required "start" sourcePositionSchema, optional "end" sourcePositionSchema]

def symbolLocatorSchema : Schema := object [required "kind" (oneOf ["symbol"]),
  required "language" nonempty, optional "package" nonempty, optional "module" nonempty,
  optional "file" nonempty, required "symbol" nonempty, optional "signature" nonempty,
  optional "range" sourceRangeSchema]

def fileLocatorSchema : Schema := object [required "kind" (oneOf ["file"]),
  required "path" nonempty, optional "package" nonempty, optional "module" nonempty,
  optional "language" nonempty, optional "range" sourceRangeSchema]

def moduleLocatorSchema : Schema := object [required "kind" (oneOf ["module"]),
  required "name" nonempty, optional "package" nonempty, optional "file" nonempty,
  optional "range" sourceRangeSchema]

def documentLocatorSchema : Schema := object [required "kind" (oneOf ["document"]),
  required "path" nonempty, optional "section" nonempty, optional "range" sourceRangeSchema]

def physicalLocatorSchema : Schema := byKind [("symbol", symbolLocatorSchema),
  ("file", fileLocatorSchema), ("module", moduleLocatorSchema),
  ("document", documentLocatorSchema)]

end Locators

section Provenance

def producerIdentitySchema : Schema := object [required "name" nonempty, required "version" nonempty]

def sourceRevisionSchema : Schema :=
  object [required "repositoryId" logicalIdSchema, optional "revisionId" logicalIdSchema]

def evidenceReferenceSchema : Schema := object [required "kind" nonempty, required "ref" nonempty,
  optional "target" logicalIdSchema, optional "locator" physicalLocatorSchema,
  optional "note" nonempty]

def ambiguitySchema : Schema := object [required "status" (oneOf ["none", "possible", "ambiguous"]),
  optional "reason" nonempty, optional "candidates" (array logicalIdSchema)]

def provenanceSchema : Schema := object [
  required "kind" (oneOf ["declared", "derived", "observed", "inferred"]),
  required "producer" producerIdentitySchema, required "sourceRevision" sourceRevisionSchema,
  optional "evidence" (array evidenceReferenceSchema), optional "confidence" (upTo 1),
  optional "completeness" (oneOf ["complete", "partial", "unknown"]),
  optional "ambiguity" ambiguitySchema]

end Provenance

section Verification

/-- One of the alternatives of `verificationTargetSchema`. -/
def targetOfKind (kind : String) : String × Schema :=
  (kind, object [required "kind" (oneOf [kind]), required "id" logicalIdSchema])

def verificationTargetSchema : Schema := byKind
  (["project", "component", "symbol", "contract", "invariant"].map targetOfKind)

def verificationPerspectiveSchema : Schema := object [required "id" logicalIdSchema,
  required "kind" nonempty, required "category" nonempty, required "name" proseSchema,
  optional "description" proseSchema, optional "known" boolean,
  required "authority" (oneOf ["declared"]), required "provenance" provenanceSchema,
  optional "metadata" metadataSchema]

def strengthSchema : Schema := oneOf ["required", "recommended"]

def verificationRequirementSchema : Schema := object [required "id" logicalIdSchema,
  required "target" verificationTargetSchema, required "perspectiveId" logicalIdSchema,
  required "strength" strengthSchema, required "rationale" proseSchema,
  required "requirementProvenance" (object [
    required "kind" (oneOf ["project-policy", "component-policy", "explicit-declaration",
      "contract", "invariant", "deterministic-derived-rule", "inferred"]),
    optional "sourceId" logicalIdSchema, optional "ruleId" nonempty]),
  optional "minimumEvidenceStrength" nonempty,
  required "authority" (oneOf ["declared", "derived", "analysis"]),
  required "provenance" provenanceSchema, optional "metadata" metadataSchema]

def verificationEvidenceSchema : Schema := object [required "id" logicalIdSchema,
  required "target" verificationTargetSchema, required "perspectiveId" logicalIdSchema,
  optional "testId" logicalIdSchema, required "kind" nonempty, required "strength" nonempty,
  required "freshness" (oneOf ["current", "stale"]),
  required "status" (oneOf ["passed", "failed", "skipped", "inadequate", "missing"]),
  required "reference" nonempty, required "summary" proseSchema, optional "coverage" (upTo 100),
  required "authority" (oneOf ["observed"]), required "provenance" provenanceSchema,
  optional "metadata" metadataSchema]

def verificationAssessmentSchema : Schema := object [required "requirementId" logicalIdSchema,
  required "target" verificationTargetSchema, required "perspectiveId" logicalIdSchema,
  required "strength" strengthSchema,
  required "status"
    (oneOf ["satisfied", "missing", "stale", "failed", "inadequate", "unknown"]),
  required "evidenceIds" (array logicalIdSchema),
  required "satisfyingEvidenceIds" (array logicalIdSchema),
  optional "missingEvidenceKinds" (array nonempty)]

def verificationCountsSchema : Schema := object (["total", "satisfied", "missing", "stale",
  "failed", "inadequate", "unknown"].map fun name => required name (integerFrom 0))

def verificationSummarySchema : Schema := object [
  required "scope" (oneOf ["symbol", "component", "project"]),
  required "targetId" logicalIdSchema,
  required "status" (oneOf ["healthy", "incomplete", "failed", "unknown"]),
  required "score" (upTo 100), required "required" verificationCountsSchema,
  required "recommended" verificationCountsSchema,
  required "gapRequirementIds" (array logicalIdSchema)]

end Verification

section Contracts

def contractAssertionSchema : Schema :=
  object [required "expression" proseSchema, optional "description" proseSchema]

def contractParameterSchema : Schema := object [required "name" nonempty,
  optional "type" proseSchema, optional "required" boolean, optional "domain" proseSchema]

def capabilityRequirementSchema : Schema :=
  object [required "name" nonempty, optional "description" proseSchema]

def externalResourceSchema : Schema := object [required "name" nonempty, required "kind" nonempty,
  required "access" nonempty, optional "description" proseSchema]

def contractErrorSchema : Schema := object [required "type" nonempty,
  optional "condition" proseSchema, optional "description" proseSchema]

def stateTransitionSchema : Schema := object [optional "from" nonempty, required "to" nonempty,
  optional "trigger" proseSchema, optional "description" proseSchema]

def externalCallSchema : Schema := object [required "target" nonempty,
  optional "operation" nonempty, optional "description" proseSchema]

def externalEventSchema : Schema := object [required "name" nonempty,
  optional "payload" proseSchema, optional "description" proseSchema]

def contractSchema : Schema := object [
  required "inputs" (object [required "parameters" (array contractParameterSchema),
    required "acceptedDomain" (array contractAssertionSchema),
    required "preconditions" (array contractAssertionSchema),
    required "dependencies" (array capabilityRequirementSchema),
    required "externalResources" (array externalResourceSchema)]),
  required "outputs" (object [optional "returnValue" json,
    required "postconditions" (array contractAssertionSchema),
    required "errors" (array contractErrorSchema),
    required "stateTransitions" (array stateTransitionSchema),
    required "externalCalls" (array externalCallSchema),
    required "externalEvents" (array externalEventSchema),
    required "effects" (array effectIdSchema)])]

end Contracts

section Entities

def entityBaseShape : List Field := [required "id" logicalIdSchema, required "name" nonempty,
  optional "description" proseSchema, required "authority" authoritySchema,
  required "provenance" provenanceSchema, optional "metadata" metadataSchema]

def entityOfKind (kind : String) (fields : List Field) : Schema :=
  object (entityBaseShape ++ required "kind" (oneOf [kind]) :: fields)

def projectEntitySchema : Schema := entityOfKind "project" [required "canonicalName" nonempty,
  required "responsibility" proseSchema, required "stability" stabilitySchema,
  required "reviewLevel" reviewLevelSchema]

def componentEntitySchema : Schema := entityOfKind "component" [
  required "responsibility" proseSchema, required "stability" stabilitySchema,
  required "reviewLevel" reviewLevelSchema]

def symbolEntitySchema : Schema := entityOfKind "symbol" [required "locator" symbolLocatorSchema,
  required "classification" (oneOf ["managed", "shared"])]

def capabilityEntitySchema : Schema := entityOfKind "capability" [required "meaning" proseSchema,
  required "stability" stabilitySchema, required "reviewLevel" reviewLevelSchema]

def contractEntitySchema : Schema := entityOfKind "contract" [
  required "definition" contractSchema, required "stability" stabilitySchema,
  required "reviewLevel" reviewLevelSchema]

def invariantEntitySchema : Schema := entityOfKind "invariant" [
  required "statement" proseSchema, required "severity" (oneOf ["info", "warning", "error"]),
  required "stability" stabilitySchema]

def decisionEntitySchema : Schema := entityOfKind "decision" [required "statement" proseSchema,
  required "status" (oneOf ["proposed", "accepted", "rejected", "superseded"]),
  required "rationaleIds" (array logicalIdSchema),
  required "constraintIds" (array logicalIdSchema)]

def rationaleEntitySchema : Schema := entityOfKind "rationale" [required "statement" proseSchema,
  required "decisionIds" (array logicalIdSchema)]

def constraintEntitySchema : Schema := entityOfKind "constraint" [
  required "statement" proseSchema, required "scope" proseSchema,
  required "enforcement" (oneOf ["advisory", "required", "protected"])]

def fileEntitySchema : Schema := entityOfKind "file" [required "path" nonempty,
  optional "language" nonempty, required "tracked" boolean]

def packageEntitySchema : Schema := entityOfKind "package" [required "packageName" nonempty,
  required "dependencyType" (oneOf ["internal", "external"]), optional "version" nonempty]

def externalDependencyEntitySchema : Schema := entityOfKind "external_dependency" [
  required "packageName" nonempty, optional "version" nonempty, optional "registry" nonempty]

def externalApiEntitySchema : Schema := entityOfKind "external_api" [
  required "packageId" logicalIdSchema, required "apiName" nonempty, optional "version" nonempty]

def evidenceEntitySchema : Schema := entityOfKind "evidence" [required "evidenceKind" nonempty,
  required "reference" nonempty, required "summary" proseSchema]

def testEntitySchema : Schema := entityOfKind "test" [required "testName" nonempty,
  required "status" (oneOf ["passed", "failed", "skipped", "unknown"]),
  required "evidenceIds" (array logicalIdSchema)]

def semanticRelationSchema : Schema := object [required "id" logicalIdSchema,
  required "kind" nonempty, required "from" logicalIdSchema, required "to" logicalIdSchema,
  required "authority" authoritySchema, required "provenance" provenanceSchema,
  optional "metadata" metadataSchema]

def semanticFactSchema : Schema := object [required "id" logicalIdSchema,
  required "subject" logicalIdSchema, required "predicate" nonempty, required "value" json,
  required "authority" authoritySchema, required "provenance" provenanceSchema,
  optional "metadata" metadataSchema]

def semanticClaimSchema : Schema := object [required "id" logicalIdSchema,
  required "subject" logicalIdSchema, required "statement" proseSchema,
  optional "object" logicalIdSchema,
  required "status" (oneOf ["supported", "uncertain", "rejected", "open"]),
  required "authority" authoritySchema,
  required "enforcement" (oneOf ["none", "advisory", "authoritative"]),
  required "provenance" provenanceSchema, optional "metadata" metadataSchema]

end Entities

section Declarations

def effectPolicySchema : Schema := object [required "id" logicalIdSchema,
  required "subject" logicalIdSchema, required "allow" (array effectIdSchema),
  required "deny" (array effectIdSchema), required "rationaleIds" (array logicalIdSchema)]

def dependencyPolicySchema : Schema := object [required "id" logicalIdSchema,
  required "subject" logicalIdSchema, required "allowedPackageIds" (array logicalIdSchema),
  required "deniedPackageIds" (array logicalIdSchema),
  required "rationaleIds" (array logicalIdSchema)]

def reviewGuidanceSchema : Schema := object [required "id" logicalIdSchema,
  required "subject" logicalIdSchema, required "level" reviewLevelSchema,
  required "guidance" proseSchema]

def stabilityDeclarationSchema : Schema := object [required "subject" logicalIdSchema,
  required "stability" stabilitySchema, optional "rationaleId" logicalIdSchema]

def terminologyLinkSchema : Schema := object [required "term" nonempty,
  required "definition" proseSchema, required "relatedEntityIds" (array logicalIdSchema)]

def decisionLinkSchema : Schema := object [required "subject" logicalIdSchema,
  required "decisionId" logicalIdSchema,
  required "relation" (oneOf ["motivated_by", "constrained_by", "supersedes"])]

def canonicalProsePolicySchema : Schema := object [
  required "canonicalLanguage" (oneOf ["en"]), required "canonicalForm" (oneOf ["formal-english"]),
  required "humanLocalization" (oneOf ["projection"]),
  required "llmTokenCompression" (oneOf ["projection"]),
  required "sourceCodeSemantics" (oneOf ["implementation-only"]),
  required "semanticCommentKinds" (array (oneOf ["rationale", "todo-debt-intent", "review-note",
    "constraint", "api-meaning"])),
  required "inlineDirectives" (array nonempty), required "jsdoc" (oneOf ["projection"])]

def symbolOwnershipDeclarationSchema : Schema :=
  refined (object [required "id" logicalIdSchema, required "symbolId" logicalIdSchema,
    required "classification" (oneOf ["managed", "shared"]),
    optional "componentId" logicalIdSchema]) fun ownership =>
      (textMember ownership "classification" == "managed") ==
        (member? ownership "componentId").isSome

def semanticDebtIntentSchema : Schema := object [required "id" logicalIdSchema,
  required "subject" logicalIdSchema, required "statement" proseSchema,
  required "status" (oneOf ["open", "accepted", "resolved"]),
  required "priority" (oneOf ["low", "medium", "high"])]

end Declarations

section Analysis

def semanticDeltaEntrySchema : Schema := object [required "id" logicalIdSchema,
  required "subject" logicalIdSchema, required "kind" semanticDeltaKindSchema,
  required "summary" proseSchema, required "reviewLevel" reviewLevelSchema]

def intentSchema : Schema := oneOf ["semantic-neutral", "semantic-change"]

def sourceReferenceSchema : Schema := object [required "path" nonempty, optional "symbol" nonempty,
  optional "startLine" (integerFrom 1), optional "endLine" (integerFrom 1),
  required "reason" proseSchema]

def healthSchema : Schema := object [
  required "status" (oneOf ["healthy", "partial", "review-required", "protected", "unknown"]),
  required "score" (upTo 100), required "staleEvidence" (integerFrom 0),
  required "modelGaps" (integerFrom 0)]

def unknownSchema : Schema := object [required "code" nonempty, required "message" proseSchema,
  optional "subjects" (array logicalIdSchema)]

def diagnosticSchema : Schema := object [required "code" nonempty,
  required "severity" (oneOf ["error", "warning", "info"]), required "message" proseSchema,
  optional "subject" logicalIdSchema, optional "path" nonempty, optional "details" json]

end Analysis

section Integrity

def isHexDigit (c : Char) : Bool :=
  c.isDigit || ("abcdefABCDEF".toList.contains c)

def digestValueSchema : Schema := string fun cs =>
  decide (64 ≤ cs.length) && decide (cs.length ≤ 128) && cs.all isHexDigit

def contentDigestSchema : Schema :=
  object [required "algorithm" nonempty, required "value" digestValueSchema]

def worktreeIdentitySchema : Schema := object [required "id" logicalIdSchema,
  optional "root" nonempty, optional "branch" nonempty, optional "gitCommonDir" nonempty,
  optional "dirty" boolean]

def gitSchema : Schema := object [optional "revision" nonempty, optional "tree" nonempty]

def trackedFileSchema : Schema := object [required "path" nonempty,
  required "physicalFingerprint" contentDigestSchema,
  optional "semanticFingerprint" contentDigestSchema,
  optional "extractorFingerprint" contentDigestSchema]

def extractorSchema : Schema := object [required "id" nonempty, required "version" nonempty,
  optional "optionsFingerprint" contentDigestSchema]

def repositoryIdentitySchema : Schema := object [required "id" logicalIdSchema,
  required "canonicalName" nonempty, optional "remote" nonempty]

def revisionIdentitySchema : Schema := object [required "id" logicalIdSchema,
  required "revision" nonempty, optional "tree" nonempty, optional "kind" nonempty,
  optional "parentIds" (array logicalIdSchema)]

end Integrity

section Snapshots

def itemSchema : Collection → Schema
  | .components => componentEntitySchema
  | .capabilities => capabilityEntitySchema
  | .contracts => contractEntitySchema
  | .invariants => invariantEntitySchema
  | .decisions => decisionEntitySchema
  | .rationales => rationaleEntitySchema
  | .constraints => constraintEntitySchema
  | .declaredFacts | .derivedFacts | .observedFacts | .analysisFacts => semanticFactSchema
  | .effectPolicies => effectPolicySchema
  | .dependencyPolicies => dependencyPolicySchema
  | .reviewGuidance => reviewGuidanceSchema
  | .stability => stabilityDeclarationSchema
  | .terminology => terminologyLinkSchema
  | .decisionLinks => decisionLinkSchema
  | .symbolOwnership => symbolOwnershipDeclarationSchema
  | .semanticDebt => semanticDebtIntentSchema
  | .verificationPerspectives => verificationPerspectiveSchema
  | .declaredRequirements | .derivedRequirements | .inferredRequirements =>
    verificationRequirementSchema
  | .files => fileEntitySchema
  | .symbols => symbolEntitySchema
  | .packages => packageEntitySchema
  | .externalDependencies => externalDependencyEntitySchema
  | .externalApis => externalApiEntitySchema
  | .evidences => evidenceEntitySchema
  | .tests => testEntitySchema
  | .verificationEvidence => verificationEvidenceSchema
  | .deltaEntries => semanticDeltaEntrySchema
  | .claims => semanticClaimSchema
  | .unknowns => unknownSchema
  | .recommendedSourceReads => sourceReferenceSchema
  | .diagnostics => diagnosticSchema
  | .assessments => verificationAssessmentSchema
  | .summaries => verificationSummarySchema
  | .trackedFiles => trackedFileSchema
  | .extractors => extractorSchema
  | .relations => semanticRelationSchema

/-- Whether a collection may be `undefined`. -/
def isOptional : Collection → Bool
  | .symbolOwnership | .semanticDebt | .verificationPerspectives | .declaredRequirements
  | .derivedRequirements | .verificationEvidence | .inferredRequirements => true
  | _ => false

/-- The collections in `analysis.verification`, which is there as a whole or not at all. -/
def isVerification : Collection → Bool
  | .assessments | .summaries | .inferredRequirements => true
  | _ => false

def collectionAccepted (s : RepositorySemanticSnapshot) (c : Collection) : Bool :=
  match s.collections c with
  | none => isOptional c || (isVerification c && s.verificationAuthority.isNone)
  | some items => items.all (itemSchema c) && !(isVerification c && s.verificationAuthority.isNone)

def optionAccepted (schema : Schema) (value : Option JsonValue) : Bool := value.all schema

/-- `semanticDeltaSchema`. -/
def semanticDeltaAccepted (s : RepositorySemanticSnapshot) : Bool :=
  literalNumber "1" s.deltaVersion && intentSchema s.deltaIntent && boolean s.deltaUnauthorized &&
    !(textOf s.deltaIntent == "semantic-neutral" && !(s.list .deltaEntries).isEmpty &&
      match s.deltaUnauthorized with
      | .boolean unauthorized => !unauthorized
      | _ => false)

/-- `repositoryIntegritySchema`. -/
def integrityAccepted (integrity : RepositoryIntegrity) : Bool :=
  logicalIdSchema integrity.repositoryId && optionAccepted gitSchema integrity.git &&
    worktreeIdentitySchema integrity.worktree && literalNumber "2" integrity.schemaVersion &&
    contentDigestSchema integrity.semanticStateDigest &&
    contentDigestSchema integrity.modelDigest && contentDigestSchema integrity.snapshotDigest &&
    oneOf ["fresh", "stale", "invalid"] integrity.status &&
    optionAccepted proseSchema integrity.statusReason &&
    (textOf integrity.status == "fresh" || integrity.statusReason.isSome)

/-- The collections in the order of the source. -/
def allCollections : List Collection := [.components, .capabilities, .contracts, .invariants,
  .decisions, .rationales, .constraints, .declaredFacts, .effectPolicies, .dependencyPolicies,
  .reviewGuidance, .stability, .terminology, .decisionLinks, .symbolOwnership, .semanticDebt,
  .verificationPerspectives, .declaredRequirements, .files, .symbols, .packages,
  .externalDependencies, .externalApis, .derivedFacts, .derivedRequirements, .evidences, .tests,
  .observedFacts, .verificationEvidence, .deltaEntries, .analysisFacts, .claims, .unknowns,
  .recommendedSourceReads, .diagnostics, .assessments, .summaries, .inferredRequirements,
  .trackedFiles, .extractors, .relations]

theorem mem_allCollections (c : Collection) : c ∈ allCollections := by
  cases c <;> decide

/-- `repositorySemanticSnapshotSchema.safeParse(input).success`. -/
def schemaAccepted (s : RepositorySemanticSnapshot) : Bool :=
  literalNumber "2" s.schemaVersion && oneOf ["symbol-first-v1"] s.modelVersion &&
    repositoryIdentitySchema s.repositoryIdentity &&
    optionAccepted revisionIdentitySchema s.revisionIdentity && projectEntitySchema s.project &&
    canonicalProsePolicySchema s.commentPolicy && healthSchema s.health &&
    reviewLevelSchema s.reviewLevel && semanticDeltaAccepted s &&
    optionAccepted (oneOf ["analysis"]) s.verificationAuthority &&
    integrityAccepted s.integrity && allCollections.all (collectionAccepted s)

end Snapshots

open SemanticIds JavaScriptValues

/-- `SemanticDiagnostic`, of severity `error`. -/
structure SemanticDiagnostic where
  code : String
  message : String
  path : Option String
  details : Option JsonValue

section Diagnostics

def diagnostic (code message path : String) : SemanticDiagnostic := ⟨code, message, path, none⟩

/-- `if (failed) diagnostics.push(...)`. -/
def check (failed : Bool) (d : SemanticDiagnostic) : List SemanticDiagnostic :=
  if failed then [d] else []

/-- `items.forEach((item, index) => ...)`. -/
def forEach {α : Type} (items : List α) (f : α → ℕ → List SemanticDiagnostic) :
    List SemanticDiagnostic :=
  items.zipIdx.flatMap fun item => f item.1 item.2

/-- The check of an id against those of the items before it. `seen` are the ids that were seen
before the list. -/
def checkDuplicate {α : Type} (seen : List String) (items : List α) (key : α → String) (item : α)
    (index : ℕ) (d : SemanticDiagnostic) : List SemanticDiagnostic :=
  check (decide (key item ∈ seen ++ (items.take index).map key)) d

end Diagnostics

section Tables

variable (s : RepositorySemanticSnapshot)

def snapshotEntities : List (JsonValue × String × String) :=
  let ofLayer := fun (layer authority : String) (cs : List Collection) =>
    (cs.flatMap s.list).map fun entity => (entity, layer, authority)
  (s.project, "declarations", "declared") ::
    ofLayer "declarations" "declared" [.components, .capabilities, .contracts, .invariants,
      .decisions, .rationales, .constraints] ++
    ofLayer "derived" "derived" [.files, .symbols, .packages, .externalDependencies,
      .externalApis] ++
    ofLayer "observed" "observed" [.evidences, .tests]

def entities : List JsonValue := (snapshotEntities s).map (·.1)

/-- `entityById.get(id)`: of two entities with one id the later one. -/
def entityById (id : String) : Option JsonValue :=
  (entities s).reverse.find? fun entity => idOf entity = id

def validTargets : List String :=
  idOf s.repositoryIdentity :: s.revisionIdentity.toList.map idOf ++ (entities s).map idOf

def logicalIdNamespace (id : String) : String := String.ofList (id.toList.takeWhile (· ≠ ':'))

def nodeKinds : List String := ["project", "repository", "component", "symbol", "capability",
  "contract", "invariant", "decision", "rationale", "constraint", "evidence", "test", "file",
  "package", "external_dependency", "external_api", "module", "document", "document_section"]

/-- `namespaceForNodeKind`. -/
def namespaceForNodeKind (kind : String) : Option String :=
  if kind ∈ nodeKinds then some (if kind = "repository" then "repo" else kind) else none

def codeUnitsOf (text : String) : JavaScriptString :=
  (text.toList.flatMap utf16).map UInt16.ofNat

def locatorOf (item : JsonValue) : SymbolLocator :=
  let locator := member item "locator"
  let part := fun name => (text? (member? locator name)).map codeUnitsOf
  { kind := textMember locator "kind", language := (part "language").getD []
    package := part "package", moduleName := part "module", file := part "file"
    symbol := (part "symbol").getD [], signature := part "signature" }

def checkReference (value path : String) : List SemanticDiagnostic :=
  check (decide (value ∉ validTargets s))
    (diagnostic "dangling_reference" s!"reference does not resolve locally: {value}" path)

def checkReferenceKind (value : String) (expectedKinds : List String) (path : String) :
    List SemanticDiagnostic :=
  checkReference s value path ++ match entityById s value with
    | none => []
    | some target => check (decide (textMember target "kind" ∉ expectedKinds))
        (diagnostic "reference_kind_mismatch"
          ("reference must target " ++ String.intercalate " or " expectedKinds ++ ", got " ++
            textMember target "kind" ++ ": " ++ value) path)

def textsMember (item : JsonValue) (name : String) : List String :=
  (elementsMember item name).map textOf

def checkProvenance (provenance : JsonValue) (path : String) : List SemanticDiagnostic :=
  (forEach (elementsMember provenance "evidence") fun evidence index =>
    match member? evidence "target" with
    | some target => checkReference s (textOf target) s!"{path}.evidence.{index}.target"
    | none => []) ++
  forEach (textsMember (member provenance "ambiguity") "candidates") fun candidate index =>
    checkReference s candidate s!"{path}.ambiguity.candidates.{index}"

def checkProvenanceOf (item : JsonValue) (path : String) : List SemanticDiagnostic :=
  checkProvenance s (member item "provenance") s!"{path}.provenance"

def checkEntityIdList (ids : List String) (path : String) : List SemanticDiagnostic :=
  forEach ids fun id index => checkReference s id s!"{path}.{index}"

def checkEntityIdListKind (ids : List String) (expectedKinds : List String) (path : String) :
    List SemanticDiagnostic :=
  forEach ids fun id index => checkReferenceKind s id expectedKinds s!"{path}.{index}"

end Tables

section Checks

variable (s : RepositorySemanticSnapshot)

def provenanceKind (item : JsonValue) : String := textMember (member item "provenance") "kind"

def checkIdentities : List SemanticDiagnostic :=
  check (logicalIdNamespace (idOf s.repositoryIdentity) != "repo")
    (diagnostic "invalid_repository_id" "repository identity must use the repo namespace"
      "repositoryIdentity.id") ++
  check (s.revisionIdentity.any fun revision => logicalIdNamespace (idOf revision) != "revision")
    (diagnostic "invalid_revision_id" "revision identity must use the revision namespace"
      "revisionIdentity.id") ++
  check (textOf s.integrity.repositoryId != idOf s.repositoryIdentity)
    (diagnostic "integrity_repository_mismatch"
      "integrity repositoryId must match repositoryIdentity.id" "integrity.repositoryId") ++
  check (stableStringifyValue s.integrity.schemaVersion != stableStringifyValue s.schemaVersion)
    (diagnostic "integrity_schema_mismatch"
      "integrity schemaVersion must match snapshot schemaVersion" "integrity.schemaVersion") ++
  check (logicalIdNamespace (idOf s.integrity.worktree) != "worktree")
    (diagnostic "invalid_worktree_id" "worktree identity must use the worktree namespace"
      "integrity.worktree.id")

def checkSymbolId (entity : JsonValue) (path : String) : List SemanticDiagnostic :=
  if textMember entity "kind" = "symbol" then
    match createSymbolId (locatorOf entity) with
    | .ok id => check (String.ofList id != idOf entity)
        (diagnostic "symbol_id_locator_mismatch"
          "symbol ID must be derived from its line-independent locator" path)
    | .error message => [diagnostic "symbol_id_locator_invalid" message path]
  else []

def entityPath (entity : JsonValue) (index : ℕ) : String :=
  if textMember entity "kind" = "project" then "declarations.project"
  else s!"entities.{index}"

def checkEntities : List SemanticDiagnostic :=
  forEach (snapshotEntities s) fun (entity, layer, authority) index =>
    let path := s!"{entityPath entity index}.id"
    checkDuplicate [] (entities s) idOf entity index
      (diagnostic "duplicate_entity_id" s!"duplicate entity ID: {idOf entity}" path) ++
    check ((namespaceForNodeKind (textMember entity "kind")).any fun expected =>
        logicalIdNamespace (idOf entity) != expected)
      (diagnostic "entity_id_kind_mismatch"
        ("entity ID namespace must match kind " ++ textMember entity "kind") path) ++
    check (textMember entity "authority" != authority)
      (diagnostic "authority_layer_mismatch"
        (s!"entity in {layer} must carry authority {authority}, " ++
          "got " ++ textMember entity "authority") s!"{entityPath entity index}.authority") ++
    check (provenanceKind entity == "inferred" && textMember entity "authority" == "declared")
      (diagnostic "inferred_claim_not_authoritative"
        "inferred data cannot carry declared authority" path) ++
    checkSymbolId entity path

def perspectiveIds : List String := (s.list .verificationPerspectives).map idOf

def checkPerspectives : List SemanticDiagnostic :=
  let path := fun index : ℕ => s!"declarations.verificationPerspectives.{index}"
  forEach (s.list .verificationPerspectives) fun perspective index =>
    checkDuplicate [] (s.list .verificationPerspectives) idOf perspective index
      (diagnostic "duplicate_verification_perspective_id"
        s!"duplicate perspective ID: {idOf perspective}" s!"{path index}.id") ++
    check (textMember perspective "authority" != "declared" ||
        provenanceKind perspective != "declared")
      (diagnostic "verification_authority_mismatch"
        ("verification perspectives in declarations must carry declared authority and " ++
          "provenance") (path index)) ++
    checkProvenanceOf s perspective (path index)

def checkVerificationTarget (target : JsonValue) (path : String) : List SemanticDiagnostic :=
  checkReferenceKind s (idOf target) [textMember target "kind"] s!"{path}.id"

def checkPerspectiveOf (what : String) (item : JsonValue) (path : String) :
    List SemanticDiagnostic :=
  let perspectiveId := textMember item "perspectiveId"
  check (decide (perspectiveId ∉ perspectiveIds s))
    (diagnostic "dangling_verification_perspective"
      s!"{what} perspective does not resolve locally: {perspectiveId}" s!"{path}.perspectiveId")

/-- The source of a requirement that comes from an entity of one kind. -/
def checkRequirementSource (kind what : String) (provenance : JsonValue) (path : String) :
    List SemanticDiagnostic :=
  if textMember provenance "kind" = what then
    match member? provenance "sourceId" with
    | none => [diagnostic "missing_requirement_source" s!"{what} requirements require sourceId"
        path]
    | some sourceId => checkReferenceKind s (textOf sourceId) [kind] s!"{path}.sourceId"
  else []

def checkVerificationRequirement (requirement : JsonValue) (path expectedAuthority : String) :
    List SemanticDiagnostic :=
  let provenance := member requirement "requirementProvenance"
  let kind := textMember provenance "kind"
  let expectedProvenance :=
    if expectedAuthority = "analysis" then "inferred" else expectedAuthority
  check (textMember requirement "authority" != expectedAuthority)
    (diagnostic "verification_authority_mismatch"
      (s!"verification requirement in {expectedAuthority} must carry authority " ++
        s!"{expectedAuthority}, got " ++ textMember requirement "authority")
      s!"{path}.authority") ++
  check (provenanceKind requirement != expectedProvenance)
    (diagnostic "verification_provenance_mismatch"
      (s!"verification requirement in {expectedAuthority} must carry provenance " ++
        s!"{expectedProvenance}, got {provenanceKind requirement}")
      s!"{path}.provenance.kind") ++
  check (expectedAuthority == "analysis" && kind != "inferred")
    (diagnostic "analysis_requirement_not_inferred"
      ("analysis verification requirements must remain explicitly non-authoritative inferred " ++
        "suggestions") s!"{path}.requirementProvenance.kind") ++
  check (kind == "inferred" && expectedAuthority != "analysis")
    (diagnostic "inferred_requirement_not_authoritative"
      "inferred verification requirements cannot carry declared or derived authority" path) ++
  check (kind == "deterministic-derived-rule" &&
      (expectedAuthority != "derived" || (member? provenance "ruleId").isNone))
    (diagnostic "invalid_deterministic_requirement"
      "deterministic-derived-rule requirements must be derived and carry ruleId"
      s!"{path}.requirementProvenance") ++
  checkRequirementSource s "project" "project-policy" provenance
    s!"{path}.requirementProvenance" ++
  checkRequirementSource s "component" "component-policy" provenance
    s!"{path}.requirementProvenance" ++
  checkRequirementSource s "contract" "contract" provenance s!"{path}.requirementProvenance" ++
  checkRequirementSource s "invariant" "invariant" provenance s!"{path}.requirementProvenance" ++
  (match member? provenance "sourceId" with
    | some sourceId => if kind = "explicit-declaration" then
        checkReference s (textOf sourceId) s!"{path}.requirementProvenance.sourceId" else []
    | none => []) ++
  checkVerificationTarget s (member requirement "target") s!"{path}.target" ++
  checkPerspectiveOf s "verification requirement" requirement path ++
  checkProvenanceOf s requirement path

/-- The requirements of one layer. `seen` are the ids of the layers before it. -/
def checkRequirements (seen : List String) (c : Collection) (container authority : String) :
    List SemanticDiagnostic :=
  forEach (s.list c) fun requirement index =>
    checkDuplicate seen (s.list c) idOf requirement index
      (diagnostic "duplicate_verification_requirement_id"
        s!"duplicate requirement ID: {idOf requirement}" s!"{container}.{index}.id") ++
    checkVerificationRequirement s requirement s!"{container}.{index}" authority

/-- `authoritativeRequirementIds`. -/
def authoritativeRequirementIds : List String :=
  (s.list .declaredRequirements ++ s.list .derivedRequirements).map idOf

/-- `allRequirements.get(id)`. -/
def requirementById (id : String) : Option JsonValue :=
  (s.list .declaredRequirements ++ s.list .derivedRequirements ++
    s.list .inferredRequirements).reverse.find? fun requirement => idOf requirement = id

def evidenceIds : List String := (s.list .verificationEvidence).map idOf

def checkVerificationEvidence : List SemanticDiagnostic :=
  let path := fun index : ℕ => s!"observed.verificationEvidence.{index}"
  forEach (s.list .verificationEvidence) fun evidence index =>
    checkDuplicate [] (s.list .verificationEvidence) idOf evidence index
      (diagnostic "duplicate_verification_evidence_id"
        s!"duplicate verification evidence ID: {idOf evidence}" s!"{path index}.id") ++
    check (textMember evidence "authority" != "observed" || provenanceKind evidence != "observed")
      (diagnostic "verification_authority_mismatch"
        "verification evidence in observed must carry observed authority and provenance"
        (path index)) ++
    checkVerificationTarget s (member evidence "target") s!"{path index}.target" ++
    (match member? evidence "testId" with
      | some testId => checkReferenceKind s (textOf testId) ["test"] s!"{path index}.testId"
      | none => []) ++
    checkPerspectiveOf s "verification evidence" evidence (path index) ++
    checkProvenanceOf s evidence (path index)

/-- `assessmentKey`. -/
def assessmentKey (assessment : JsonValue) : String :=
  textMember assessment "requirementId" ++ ":" ++ idOf (member assessment "target")

def checkAssessmentEvidence (assessment : JsonValue) (name path : String) :
    List SemanticDiagnostic :=
  forEach (textsMember assessment name) fun id index =>
    check (decide (id ∉ evidenceIds s))
      (diagnostic "dangling_verification_evidence"
        s!"verification assessment evidence does not resolve locally: {id}"
        s!"{path}.{name}.{index}")

def checkAssessment (assessment : JsonValue) (path : String) : List SemanticDiagnostic :=
  let requirementId := textMember assessment "requirementId"
  let target := member assessment "target"
  check (decide (requirementId ∉ authoritativeRequirementIds s))
    (diagnostic "dangling_verification_requirement"
      s!"verification assessment requirement does not resolve locally: {requirementId}"
      s!"{path}.requirementId") ++
  (match requirementById s requirementId with
    | some requirement => check (decide (requirementId ∈ authoritativeRequirementIds s) &&
        (textMember (member requirement "target") "kind" != textMember target "kind" ||
          idOf (member requirement "target") != idOf target ||
          textMember requirement "perspectiveId" != textMember assessment "perspectiveId" ||
          textMember requirement "strength" != textMember assessment "strength"))
        (diagnostic "verification_assessment_mismatch"
          ("verification assessment must retain the requirement target, perspective, and " ++
            "strength") path)
    | none => []) ++
  checkVerificationTarget s target s!"{path}.target" ++
  checkPerspectiveOf s "verification assessment" assessment path ++
  checkAssessmentEvidence s assessment "evidenceIds" path ++
  checkAssessmentEvidence s assessment "satisfyingEvidenceIds" path

def checkSummary (summary : JsonValue) (path : String) : List SemanticDiagnostic :=
  checkReferenceKind s (textMember summary "targetId") [textMember summary "scope"]
    s!"{path}.targetId" ++
  forEach (textsMember summary "gapRequirementIds") fun id index =>
    check (decide (id ∉ authoritativeRequirementIds s))
      (diagnostic "dangling_verification_requirement"
        s!"verification summary gap does not resolve locally: {id}"
        s!"{path}.gapRequirementIds.{index}")

def checkVerificationAnalysis : List SemanticDiagnostic :=
  check (s.verificationAuthority.any fun authority => textOf authority != "analysis")
    (diagnostic "verification_authority_mismatch"
      "verification analysis must carry analysis authority" "analysis.verification.authority") ++
  checkRequirements s (authoritativeRequirementIds s) .inferredRequirements
    "analysis.verification.inferredRequirements" "analysis" ++
  forEach (s.list .assessments) (fun assessment index =>
    checkAssessment s assessment s!"analysis.verification.assessments.{index}" ++
    checkDuplicate [] (s.list .assessments) assessmentKey assessment index
      (diagnostic "duplicate_verification_assessment"
        s!"duplicate verification assessment: {assessmentKey assessment}"
        s!"analysis.verification.assessments.{index}")) ++
  forEach (s.list .summaries) fun summary index =>
    checkSummary s summary s!"analysis.verification.summaries.{index}"

def checkFact (fact : JsonValue) (path : String) : List SemanticDiagnostic :=
  checkReference s (textMember fact "subject") s!"{path}.subject" ++
    checkProvenanceOf s fact path

/-- The facts of one layer. `seen` are the ids of the layers before it. -/
def checkFacts (seen : List String) (c : Collection) (layer authority : String) :
    List SemanticDiagnostic :=
  forEach (s.list c) fun fact index =>
    checkDuplicate seen (s.list c) idOf fact index
      (diagnostic "duplicate_fact_id" s!"duplicate fact ID: {idOf fact}"
        s!"{layer}.facts.{index}.id") ++
    check (textMember fact "authority" != authority)
      (diagnostic "authority_layer_mismatch"
        (s!"fact in {layer} must carry authority {authority}, " ++
          "got " ++ textMember fact "authority") s!"{layer}.facts.{index}.authority") ++
    checkFact s fact s!"{layer}.facts.{index}"

def factIds (cs : List Collection) : List String := (cs.flatMap s.list).map idOf

def checkAllFacts : List SemanticDiagnostic :=
  checkFacts s [] .declaredFacts "declarations" "declared" ++
  checkFacts s (factIds s [.declaredFacts]) .derivedFacts "derived" "derived" ++
  checkFacts s (factIds s [.declaredFacts, .derivedFacts]) .observedFacts "observed" "observed" ++
  checkFacts s (factIds s [.declaredFacts, .derivedFacts, .observedFacts]) .analysisFacts
    "analysis" "analysis"

def checkClaim (claim : JsonValue) (path : String) : List SemanticDiagnostic :=
  checkReference s (textMember claim "subject") s!"{path}.subject" ++
  (match member? claim "object" with
    | some target => checkReference s (textOf target) s!"{path}.object"
    | none => []) ++
  checkProvenanceOf s claim path ++
  check (provenanceKind claim == "inferred" &&
      (textMember claim "authority" == "declared" ||
        textMember claim "enforcement" == "authoritative"))
    (diagnostic "inferred_claim_not_authoritative"
      "inferred claims cannot have enforcement authority" path)

def checkClaims : List SemanticDiagnostic :=
  forEach (s.list .claims) fun claim index =>
    checkDuplicate [] (s.list .claims) idOf claim index
      (diagnostic "duplicate_claim_id" s!"duplicate claim ID: {idOf claim}"
        s!"analysis.claims.{index}.id") ++
    check (textMember claim "authority" != "analysis")
      (diagnostic "authority_layer_mismatch"
        ("claim in analysis must carry authority analysis, got " ++ textMember claim "authority")
        s!"analysis.claims.{index}.authority") ++
    checkClaim s claim s!"analysis.claims.{index}"

def checkRelations : List SemanticDiagnostic :=
  forEach (s.list .relations) fun relation index =>
    checkDuplicate [] (s.list .relations) idOf relation index
      (diagnostic "duplicate_relation_id" s!"duplicate relation ID: {idOf relation}"
        s!"graph.relations.{index}.id") ++
    checkReference s (textMember relation "from") s!"graph.relations.{index}.from" ++
    checkReference s (textMember relation "to") s!"graph.relations.{index}.to" ++
    checkProvenanceOf s relation s!"graph.relations.{index}" ++
    check (provenanceKind relation == "inferred" && textMember relation "authority" == "declared")
      (diagnostic "inferred_claim_not_authoritative"
        "inferred relation cannot carry declared authority" s!"graph.relations.{index}")

end Checks

section Ownership

variable (s : RepositorySemanticSnapshot)

/-- `symbols.get(id)`. -/
def symbolById (id : String) : Option JsonValue :=
  (s.list .symbols).reverse.find? fun symbol => idOf symbol = id

/-- `declaredOwnership.get(symbolId)`. -/
def declaredOwnership (symbolId : String) : Option JsonValue :=
  (s.list .symbolOwnership).reverse.find? fun ownership =>
    textMember ownership "symbolId" = symbolId

def checkSymbolOwnership : List SemanticDiagnostic :=
  let path := fun index : ℕ => s!"declarations.symbolOwnership.{index}"
  let symbolId := fun ownership => textMember ownership "symbolId"
  forEach (s.list .symbolOwnership) fun ownership index =>
    checkDuplicate [] (s.list .symbolOwnership) symbolId ownership index
      (diagnostic "duplicate_symbol_ownership"
        s!"duplicate declared ownership for Symbol: {symbolId ownership}"
        s!"{path index}.symbolId") ++
    checkReferenceKind s (symbolId ownership) ["symbol"] s!"{path index}.symbolId" ++
    (match member? ownership "componentId" with
      | some componentId =>
        checkReferenceKind s (textOf componentId) ["component"] s!"{path index}.componentId"
      | none => []) ++
    check (symbolById s (symbolId ownership)).isNone
      (diagnostic "symbol_ownership_target_missing"
        s!"declared ownership targets a missing Symbol: {symbolId ownership}"
        s!"{path index}.symbolId")

/-- `classificationFor`. -/
def classificationFor (symbol : JsonValue) : String :=
  ((declaredOwnership s (idOf symbol)).map fun ownership =>
    textMember ownership "classification").getD (textMember symbol "classification")

def connectsOwner (relation : JsonValue) : Bool :=
  (entityById s (textMember relation "from")).any
      (fun entity => textMember entity "kind" == "component") &&
    (entityById s (textMember relation "to")).any
      fun entity => textMember entity "kind" == "symbol"

def isOwnership (relation : JsonValue) : Bool :=
  textMember relation "kind" == "owns" || textMember relation "kind" == "shares"

def checkOwnershipRelation (relation : JsonValue) : List SemanticDiagnostic :=
  let path := s!"graph.relations.{idOf relation}"
  let kind := textMember relation "kind"
  if !isOwnership relation then []
  else if !connectsOwner s relation then
    [diagnostic "invalid_ownership_relation" s!"{kind} must connect Component to Symbol" path]
  else match symbolById s (textMember relation "to") with
    | none => []
    | some symbol =>
      if kind = "owns" then check (classificationFor s symbol == "shared")
        (diagnostic "shared_symbol_has_owner"
          "Shared Symbol cannot use owns; use explicit shares relations" path)
      else check (classificationFor s symbol == "managed")
        (diagnostic "managed_symbol_shared" "managed Symbol cannot use shares" path)

/-- `ownedBy.get(id)`: the components that own a symbol. -/
def ownersOf (id : String) : List String :=
  ((s.list .relations).filter fun relation => textMember relation "kind" == "owns" &&
    connectsOwner s relation && textMember relation "to" == id).map
      fun relation => textMember relation "from"

def symbolTable : List JsonValue :=
  ((s.list .symbols).map idOf).dedup.filterMap (symbolById s)

def checkSymbol (symbol : JsonValue) : List SemanticDiagnostic :=
  let id := idOf symbol
  let owners := ownersOf s id
  let classification := classificationFor s symbol
  check (classification == "managed" && owners.length != 1)
    ⟨"invalid_symbol_ownership", "managed Symbol must have exactly one Component owner",
      some s!"derived.symbols.{id}",
      some (.object [("ownerCount", .number (toString owners.length))])⟩ ++
  check (classification == "shared" && !owners.isEmpty)
    (diagnostic "shared_symbol_has_owner" "Shared Symbol must not have a single owns owner"
      s!"derived.symbols.{id}") ++
  match (declaredOwnership s id).bind fun ownership => member? ownership "componentId" with
  | some componentId => check (owners.length == 1 && owners.head? != some (textOf componentId))
      (diagnostic "declared_symbol_owner_mismatch"
        s!"declared Symbol owner does not match the owns relation: {id}"
        s!"declarations.symbolOwnership.{id}")
  | none => []

def checkOwnership : List SemanticDiagnostic :=
  checkSymbolOwnership s ++ (s.list .relations).flatMap (checkOwnershipRelation s) ++
    (symbolTable s).flatMap (checkSymbol s)

end Ownership

section References

variable (s : RepositorySemanticSnapshot)

def checkPolicy (lists : List (String × String)) (path : String) (policy : JsonValue) :
    List SemanticDiagnostic :=
  checkReference s (textMember policy "subject") s!"{path}.subject" ++
    lists.flatMap fun entry => checkEntityIdListKind s (textsMember policy entry.1) [entry.2]
      s!"{path}.{entry.1}"

def checkDeclaredReferences : List SemanticDiagnostic :=
  forEach (s.list .decisions) (fun decision index =>
    checkEntityIdListKind s (textsMember decision "rationaleIds") ["rationale"]
      s!"declarations.decisions.{index}.rationaleIds" ++
    checkEntityIdListKind s (textsMember decision "constraintIds") ["constraint"]
      s!"declarations.decisions.{index}.constraintIds") ++
  forEach (s.list .rationales) (fun rationale index =>
    checkEntityIdListKind s (textsMember rationale "decisionIds") ["decision"]
      s!"declarations.rationales.{index}.decisionIds") ++
  forEach (s.list .effectPolicies) (fun policy index =>
    checkPolicy s [("rationaleIds", "rationale")] s!"declarations.effectPolicies.{index}"
      policy) ++
  forEach (s.list .dependencyPolicies) (fun policy index =>
    checkPolicy s [("allowedPackageIds", "package"), ("deniedPackageIds", "package"),
      ("rationaleIds", "rationale")] s!"declarations.dependencyPolicies.{index}" policy) ++
  forEach (s.list .reviewGuidance) (fun guidance index =>
    checkReference s (textMember guidance "subject")
      s!"declarations.reviewGuidance.{index}.subject") ++
  forEach (s.list .stability) (fun item index =>
    checkReference s (textMember item "subject") s!"declarations.stability.{index}.subject" ++
    match member? item "rationaleId" with
    | some rationaleId => checkReferenceKind s (textOf rationaleId) ["rationale"]
        s!"declarations.stability.{index}.rationaleId"
    | none => []) ++
  forEach (s.list .terminology) (fun item index =>
    checkEntityIdList s (textsMember item "relatedEntityIds")
      s!"declarations.terminology.{index}.relatedEntityIds") ++
  forEach (s.list .decisionLinks) fun item index =>
    checkReference s (textMember item "subject") s!"declarations.decisionLinks.{index}.subject" ++
    checkReferenceKind s (textMember item "decisionId") ["decision"]
      s!"declarations.decisionLinks.{index}.decisionId"

def checkOtherReferences : List SemanticDiagnostic :=
  forEach (s.list .externalApis) (fun api index =>
    checkReferenceKind s (textMember api "packageId") ["package"]
      s!"derived.externalApis.{index}.packageId") ++
  forEach (s.list .tests) (fun test index =>
    checkEntityIdListKind s (textsMember test "evidenceIds") ["evidence"]
      s!"observed.tests.{index}.evidenceIds") ++
  forEach (s.list .unknowns) (fun unknown index =>
    checkEntityIdList s (textsMember unknown "subjects")
      s!"analysis.unknowns.{index}.subjects") ++
  forEach (s.list .deltaEntries) fun entry index =>
    checkReference s (textMember entry "subject")
      s!"analysis.semanticDelta.entries.{index}.subject"

def checkTrackedFiles : List SemanticDiagnostic :=
  let path := fun file => textMember file "path"
  forEach (s.list .trackedFiles) fun file index =>
    checkDuplicate [] (s.list .trackedFiles) path file index
      (diagnostic "duplicate_tracked_file" s!"duplicate tracked file: {path file}"
        s!"integrity.trackedFiles.{index}.path")

/-- `digestMismatch`. -/
def digestMismatch (field : String) (stored expected : JsonValue) : List SemanticDiagnostic :=
  check (textMember stored "algorithm" != textMember expected "algorithm" ||
      textMember stored "value" != textMember expected "value")
    ⟨"integrity_digest_mismatch",
      s!"integrity.{field} does not match the recomputed digest for a snapshot marked fresh",
      some s!"integrity.{field}",
      some (.object [("algorithm", member expected "algorithm"),
        ("expected", member expected "value"), ("received", member stored "value")])⟩

variable (sha256 : String → String)

def checkDigests : List SemanticDiagnostic :=
  if textOf s.integrity.status = "fresh" then
    let recomputed := computeIntegrityDigestsFromValidated s sha256
    digestMismatch "semanticStateDigest" s.integrity.semanticStateDigest
        recomputed.semanticStateDigest ++
      digestMismatch "modelDigest" s.integrity.modelDigest recomputed.modelDigest ++
      digestMismatch "snapshotDigest" s.integrity.snapshotDigest recomputed.snapshotDigest
  else []

def validateReferences : List SemanticDiagnostic :=
  checkIdentities s ++ checkEntities s ++ checkPerspectives s ++
    checkRequirements s [] .declaredRequirements "declarations.verificationRequirements"
      "declared" ++
    checkRequirements s ((s.list .declaredRequirements).map idOf) .derivedRequirements
      "derived.verificationRequirements" "derived" ++
    checkVerificationEvidence s ++ checkVerificationAnalysis s ++ checkAllFacts s ++
    checkClaims s ++ checkRelations s ++ checkOwnership s ++ checkDeclaredReferences s ++
    checkOtherReferences s ++ checkTrackedFiles s ++ checkDigests s sha256

def wellFormed : Bool :=
  ([s.schemaVersion, s.modelVersion, s.repositoryIdentity, s.project, s.commentPolicy, s.health,
      s.reviewLevel, s.deltaVersion, s.deltaIntent, s.deltaUnauthorized,
      s.integrity.repositoryId, s.integrity.worktree, s.integrity.schemaVersion,
      s.integrity.semanticStateDigest, s.integrity.modelDigest, s.integrity.snapshotDigest,
      s.integrity.status] ++ s.revisionIdentity.toList ++ s.verificationAuthority.toList ++
      s.integrity.git.toList ++ s.integrity.statusReason.toList).all JsonValue.wellFormed &&
    allCollections.all fun c => (s.list c).all JsonValue.wellFormed

/-- `validateSnapshot` accepts the snapshot. -/
def validSnapshot : Bool :=
  wellFormed s && schemaAccepted s && (validateReferences s sha256).isEmpty

end References

end Mottainai.Semantics

import Mathlib.Data.List.Dedup
import Mottainai.CanonLineage
import Mottainai.JsonTexts

/-!
# Execution manifests

The projection of a task, of the identity of a Manager, of Canon identities, of a semantic plan and
of evidence about an attachment onto one record. Each text is trimmed and bounded, and each list of
texts is sorted without duplicates. Strings are compared in a locale by a function that is a
parameter. A plan with too many targets or claims is refused, while the paths of a target and the
checks are cut.
-/

namespace Mottainai.ExecutionManifests

open JavaScriptValues JsonValues OrderedMaps

section Records

/-- `TaskRecord` and `ExecutionManifestTaskFacts`, as far as they are projected or admitted. -/
structure Task where
  taskId : String
  instanceId : String
  taskSlug : String
  issueRef : Option String
  nawabariSessionId : Option String
  lifecycleState : String
  baseBranch : String
  baseCommit : String

structure ExecutionManifestTaskFacts where
  taskId : String
  instanceId : String
  taskSlug : String
  issueRef : Option String
  lifecycleState : String
  baseBranch : String
  baseCommit : String

structure ManagerExecutionContext where
  taskId : Option String
  executionSessionId : Option String
  worktreeId : Option String
  worktreePath : String
  branchName : Option String
  taskSlug : Option String
  issueRef : Option String
  branchType : Option String
  semanticLifecycleState : String

/-- `ManagerSessionRecord`, as far as it is projected or admitted. -/
structure ManagerSession extends ManagerExecutionContext where
  sessionId : String
  runtimeId : Option String
  executionMode : Option String

structure ExecutionManifestManagerIdentity where
  managerSessionId : Option String
  runtimeId : Option String
  executionMode : Option String
  executionSessionId : Option String
  taskId : Option String
  semanticLifecycleState : String

inductive Manager where
  | session (session : ManagerSession)
  | context (context : ManagerExecutionContext)
  | identity (identity : ExecutionManifestManagerIdentity)

/-- `ExecutionManifestCanonInput`: a checkpoint, the identities alone, or an object with some
of the fields, of which two may also be there without a value. -/
inductive ExecutionManifestCanonInput where
  | checkpoint (canonContractId : String) (canonSchemaVersion : ℤ) (checkpointId : String)
      (parentCheckpointId : Option String) (lineageKind state prefixId : String)
      (executionStateId : Option String)
  | identities (prefixId executionStateId : String)
  | partly (contractId : Option String) (schemaVersion : Option ℤ)
      (checkpointId : Option (Option String)) (parentCheckpointId lineageKind state : Option String)
      (prefixId : Option (Option String)) (executionStateId : Option String)

structure ExecutionManifestCanonIdentity where
  contractId : Option String
  schemaVersion : Option ℤ
  checkpointId : Option String
  parentCheckpointId : Option String
  lineageKind : Option String
  state : Option String
  prefixId : Option String
  executionStateId : Option String

structure SemanticExecutionTarget where
  kind : String
  id : String
  paths : Option (List String)
  deriving DecidableEq

structure ExecutionClaim where
  resource : String
  mode : String
  deriving DecidableEq

structure ClaimGenerationProvenance where
  strategy : String
  reason : String
  source : String
  warnings : List String
  deriving DecidableEq

structure VerificationIntent where
  requiredChecks : List String
  rationale : String
  deriving DecidableEq

structure SemanticExecutionPlan where
  schemaVersion : ℤ
  semanticTargets : List SemanticExecutionTarget
  claims : List ExecutionClaim
  claimGeneration : ClaimGenerationProvenance
  verification : VerificationIntent
  deriving DecidableEq

/-- `NawabariRepositoryEvidence`, without the raw result that it was read from. -/
structure NawabariRepositoryEvidence where
  schemaVersion : ℤ
  repository : String
  worktree : String
  branchId : String
  branch : String
  sessionId : String
  sessionState : String
  sessionCreatedAt : String
  sessionUpdatedAt : String
  baseRevision : Option String
  baseRevisionProven : Bool
  head : String
  clean : Bool
  complete : Bool
  incompleteReasons : List String
  evidenceHash : String

inductive ExecutionManifestCompleteness where
  | complete | incomplete
  deriving DecidableEq

inductive ExecutionManifestFreshness where
  | current | stale | unknown
  deriving DecidableEq

inductive ExecutionManifestAttachmentStatus where
  | attached | missing | stale | ambiguous | invalid
  deriving DecidableEq

def ExecutionManifestAttachmentStatus.text : ExecutionManifestAttachmentStatus → String
  | .attached => "attached"
  | .missing => "missing"
  | .stale => "stale"
  | .ambiguous => "ambiguous"
  | .invalid => "invalid"

structure ExecutionManifestIntent where
  task : Option ExecutionManifestTaskFacts
  manager : Option ExecutionManifestManagerIdentity
  canon : Option ExecutionManifestCanonIdentity
  semanticPlan : SemanticExecutionPlan

structure ExecutionManifestPhysicalAttachment where
  sessionId : String
  worktree : String
  branch : String
  branchId : Option String
  sessionState : String
  deriving DecidableEq

structure ExecutionManifestAttachment where
  authority : String
  status : ExecutionManifestAttachmentStatus
  completeness : ExecutionManifestCompleteness
  freshness : ExecutionManifestFreshness
  evidenceHash : Option String
  physical : Option ExecutionManifestPhysicalAttachment
  reasons : List String
  deriving DecidableEq

structure ExecutionManifestDiagnostics where
  completeness : ExecutionManifestCompleteness
  freshness : ExecutionManifestFreshness
  reasons : List String

structure ExecutionManifest where
  contractId : String
  schemaVersion : ℤ
  intent : ExecutionManifestIntent
  attachment : ExecutionManifestAttachment
  diagnostics : ExecutionManifestDiagnostics

structure AuthoritativeNawabariAttachmentInput where
  authority : String
  evidence : Option NawabariRepositoryEvidence
  status : Option ExecutionManifestAttachmentStatus
  reason : Option String

structure ExecutionManifestInput where
  task : Option Task
  manager : Option Manager
  canon : Option ExecutionManifestCanonInput
  semanticPlan : Option SemanticExecutionPlan
  scope : Option SemanticExecutionPlan
  nawabari : Option AuthoritativeNawabariAttachmentInput
  attachment : Option AuthoritativeNawabariAttachmentInput

/-- `EXECUTION_MANIFEST_CONTRACT_ID`. -/
def executionManifestContractId : String := "mottainai.execution-manifest.v1"

end Records

section Texts

def maxIdentifierLength : ℕ := 512

def maxResourceLength : ℕ := 512

def maxReasonLength : ℕ := 512

def maxEvidenceHashLength : ℕ := 512

def maxDiagnostics : ℕ := 32

/-- `text.trim()`. -/
def trim (text : String) : String :=
  String.ofList
    ((text.toList.dropWhile isWhiteSpace).reverse.dropWhile isWhiteSpace).reverse

theorem trim_line {text : String} {line : List Char} (hne : line ≠ [])
    (hline : ∀ c ∈ line, isWhiteSpace c = false) (htext : text.toList = line ++ ['\n']) :
    trim text = String.ofList line := by
  have hkept : ∀ (cs rest : List Char), cs ≠ [] → (∀ c ∈ cs, isWhiteSpace c = false) →
      (cs ++ rest).dropWhile isWhiteSpace = cs ++ rest := by
    intro cs rest hne hcs
    obtain ⟨c, cs, rfl⟩ := List.exists_cons_of_ne_nil hne
    rw [List.cons_append, List.dropWhile_cons_of_neg]
    rw [hcs c List.mem_cons_self]
    exact Bool.false_ne_true
  have hreverse : (line ++ ['\n']).reverse.dropWhile isWhiteSpace = line.reverse := by
    rw [List.reverse_append, List.reverse_singleton, List.singleton_append,
      List.dropWhile_cons_of_pos (by decide)]
    have hkeep := hkept line.reverse [] (by simpa using hne)
      fun c hc => hline c (List.mem_reverse.mp hc)
    rwa [List.append_nil] at hkeep
  rw [trim, htext, hkept line ['\n'] hne hline, hreverse, List.reverse_reverse]

theorem dropWhile_of_prefix {p : Char → Bool} {l m : List Char} (h : m <+: l.dropWhile p) :
    m.dropWhile p = m := by
  obtain ⟨rest, hrest⟩ := h
  cases m with
  | nil => rfl
  | cons c cs =>
    have hhead := List.head_dropWhile_not p (hrest ▸ List.cons_ne_nil _ _ : l.dropWhile p ≠ [])
    simp only [← hrest, List.cons_append, List.head_cons] at hhead
    exact List.dropWhile_cons_of_neg (by simp [hhead])

theorem trim_trim (text : String) : trim (trim text) = trim text := by
  set line := text.toList.dropWhile isWhiteSpace with hline
  set back := line.reverse.dropWhile isWhiteSpace with hback
  have htrim : (trim text).toList = back.reverse := by rw [trim, String.toList_ofList]
  have hprefix : back.reverse <+: line := by
    rw [← List.reverse_suffix, List.reverse_reverse]
    exact List.dropWhile_suffix _
  have hsame : back.dropWhile isWhiteSpace = back := dropWhile_of_prefix (List.prefix_refl _)
  rw [trim, htrim, dropWhile_of_prefix hprefix, List.reverse_reverse, hsame, ← htrim,
    String.ofList_toList]

def boundedText (value field : String) (max : ℕ) : Except String String := do
  let normalized := trim value
  require (normalized ≠ "") s!"{field} must not be empty"
  require (utf16Length normalized ≤ max) s!"{field} exceeds the bounded manifest length"
  require (CanonCheckpoints.hasControl normalized = false) s!"{field} contains control characters"
  return normalized

def optionalText (value : Option String) (field : String) (max : ℕ) :
    Except String (Option String) :=
  match value with
  | none => .ok none
  | some value => (boundedText value field max).map some

def uniqueSorted (values : List String) (field : String) (max : ℕ) :
    Except String (List String) :=
  (values.mapM fun value => boundedText value field max).map fun texts => sortKeys texts.dedup

def boundedReasons (values : List String) (field : String) : Except String (List String) :=
  (uniqueSorted values field maxReasonLength).map fun reasons => reasons.take maxDiagnostics

end Texts

section Plans

variable (localeCompare : String → String → Ordering)

/-- `MAX_TARGETS`, and the other bounds on the parts of a plan, which are the same. -/
def maxPlanEntries : ℕ := 128

def uniquePaths (paths : List String) : Except String (List String) :=
  (uniqueSorted paths "semantic target path" maxResourceLength).map
    fun paths => paths.take maxPlanEntries

def normalizeTarget (target : SemanticExecutionTarget) :
    Except String SemanticExecutionTarget := do
  require (target.kind ∈ ["symbol", "component", "path"]) "semantic target kind is invalid"
  let id ← boundedText target.id "semantic target id" maxIdentifierLength
  match target.paths with
  | none => return { kind := target.kind, id := id, paths := none }
  | some paths =>
      return { kind := target.kind, id := id, paths := some (← uniquePaths paths) }

def normalizeClaim (claim : ExecutionClaim) : Except String ExecutionClaim := do
  require (claim.mode ∈ ["read", "write", "exclusive-write"]) "semantic claim mode is invalid"
  let resource ← boundedText claim.resource "semantic claim resource" maxResourceLength
  return { resource := resource, mode := claim.mode }

def normalizeProvenance (provenance : ClaimGenerationProvenance) :
    Except String ClaimGenerationProvenance := do
  require (provenance.strategy ∈ ["declared", "conservative-broad", "blocked"])
    "claim generation strategy is invalid"
  require (provenance.source ∈
      ["repository-semantics", "explicit-paths", "explicit-claims", "unknown-scope"])
    "claim generation source is invalid"
  let reason ← boundedText provenance.reason "claim generation reason" maxReasonLength
  let warnings ← boundedReasons provenance.warnings "claim generation warning"
  return { strategy := provenance.strategy, reason := reason, source := provenance.source
           warnings := warnings }

def normalizeVerification (verification : VerificationIntent) :
    Except String VerificationIntent := do
  let requiredChecks ←
    uniqueSorted verification.requiredChecks "verification check" maxResourceLength
  let rationale ← boundedText verification.rationale "verification rationale" maxReasonLength
  return { requiredChecks := requiredChecks.take maxPlanEntries, rationale := rationale }

def pairKey (first second : String) : String := first ++ "\x00" ++ second

def targetKey (target : SemanticExecutionTarget) : String := pairKey target.kind target.id

def claimKey (claim : ExecutionClaim) : String := pairKey claim.resource claim.mode

def mergeTarget (targets : OrderedMap String SemanticExecutionTarget)
    (target : SemanticExecutionTarget) :
    Except String (OrderedMap String SemanticExecutionTarget) :=
  match targets.get (targetKey target) with
  | none => .ok (targets.set (targetKey target) target)
  | some previous => do
      let paths ← uniquePaths (previous.paths.getD [] ++ target.paths.getD [])
      return targets.set (targetKey target)
        { target with paths := if paths = [] then none else some paths }

def setClaim (claims : OrderedMap String ExecutionClaim) (claim : ExecutionClaim) :
    OrderedMap String ExecutionClaim :=
  claims.set (claimKey claim) claim

def sortByKey {Value : Type} (key : Value → String) (values : List Value) : List Value :=
  values.insertionSort fun left right => localeCompare (key left) (key right) ≠ .gt

def missingPlan : SemanticExecutionPlan :=
  { schemaVersion := 1, semanticTargets := [], claims := []
    claimGeneration :=
      { strategy := "blocked", reason := "semantic execution plan was not supplied"
        source := "unknown-scope"
        warnings := ["semantic scope is incomplete; execution manifest remains fail-closed"] }
    verification := { requiredChecks := [], rationale := "verification plan was not supplied" } }

def normalizePlan (plan : SemanticExecutionPlan) : Except String SemanticExecutionPlan := do
  require (plan.schemaVersion = 1) "semantic execution plan schema is unsupported"
  require (plan.semanticTargets.length ≤ maxPlanEntries)
    "semantic target count exceeds the bounded manifest limit"
  require (plan.claims.length ≤ maxPlanEntries)
    "semantic claim count exceeds the bounded manifest limit"
  let targets ← (← plan.semanticTargets.mapM normalizeTarget).foldlM mergeTarget .empty
  let claims := (← plan.claims.mapM normalizeClaim).foldl setClaim .empty
  let claimGeneration ← normalizeProvenance plan.claimGeneration
  require (claimGeneration.warnings.length ≤ maxPlanEntries)
    "claim warning count exceeds the bounded manifest limit"
  let verification ← normalizeVerification plan.verification
  return { schemaVersion := 1
           semanticTargets := sortByKey localeCompare targetKey targets.values
           claims := sortByKey localeCompare claimKey claims.values
           claimGeneration := claimGeneration, verification := verification }

def normalizeSemanticPlan (plan : Option SemanticExecutionPlan) :
    Except String SemanticExecutionPlan :=
  match plan with
  | none => .ok missingPlan
  | some plan => normalizePlan localeCompare plan

end Plans

section Identities

def normalizeTask (task : Task) : Except String ExecutionManifestTaskFacts := do
  let taskId ← boundedText task.taskId "task id" maxIdentifierLength
  let instanceId ← boundedText task.instanceId "repository instance id" maxIdentifierLength
  let taskSlug ← boundedText task.taskSlug "task slug" maxIdentifierLength
  let issueRef ← optionalText task.issueRef "issue reference" maxIdentifierLength
  let baseBranch ← boundedText task.baseBranch "task base branch" maxIdentifierLength
  let baseCommit ← boundedText task.baseCommit "task base commit" maxIdentifierLength
  return { taskId := taskId, instanceId := instanceId, taskSlug := taskSlug, issueRef := issueRef
           lifecycleState := task.lifecycleState, baseBranch := baseBranch
           baseCommit := baseCommit }

def normalizeIdentity (identity : ExecutionManifestManagerIdentity) :
    Except String ExecutionManifestManagerIdentity := do
  let managerSessionId ←
    optionalText identity.managerSessionId "Manager session id" maxIdentifierLength
  let runtimeId ← optionalText identity.runtimeId "Manager runtime id" maxIdentifierLength
  let executionSessionId ←
    optionalText identity.executionSessionId "execution session id" maxIdentifierLength
  let taskId ← optionalText identity.taskId "Manager task id" maxIdentifierLength
  return { managerSessionId := managerSessionId, runtimeId := runtimeId
           executionMode := identity.executionMode, executionSessionId := executionSessionId
           taskId := taskId, semanticLifecycleState := identity.semanticLifecycleState }

def normalizeManager : Manager → Except String ExecutionManifestManagerIdentity
  | .session session => normalizeIdentity
      { managerSessionId := some session.sessionId, runtimeId := session.runtimeId
        executionMode := session.executionMode, executionSessionId := session.executionSessionId
        taskId := session.taskId, semanticLifecycleState := session.semanticLifecycleState }
  | .context context => normalizeIdentity
      { managerSessionId := none, runtimeId := none, executionMode := none
        executionSessionId := context.executionSessionId, taskId := context.taskId
        semanticLifecycleState := context.semanticLifecycleState }
  | .identity identity => normalizeIdentity identity

def normalizeCanonIdentity (canon : ExecutionManifestCanonIdentity) :
    Except String ExecutionManifestCanonIdentity := do
  let contractId ← optionalText canon.contractId "Canon contract id" maxIdentifierLength
  let checkpointId ← optionalText canon.checkpointId "Canon checkpoint id" maxIdentifierLength
  let parentCheckpointId ←
    optionalText canon.parentCheckpointId "Canon parent checkpoint id" maxIdentifierLength
  let prefixId ← optionalText canon.prefixId "Canon prefix id" maxIdentifierLength
  let executionStateId ←
    optionalText canon.executionStateId "Canon execution state id" maxIdentifierLength
  return { canon with
    contractId := contractId, checkpointId := checkpointId
    parentCheckpointId := parentCheckpointId, prefixId := prefixId
    executionStateId := executionStateId }

def canonIdentityOf : ExecutionManifestCanonInput → ExecutionManifestCanonIdentity
  | .checkpoint contractId schemaVersion checkpointId parentCheckpointId lineageKind state prefixId
      executionStateId =>
      { contractId := some contractId, schemaVersion := some schemaVersion
        checkpointId := some checkpointId, parentCheckpointId := parentCheckpointId
        lineageKind := some lineageKind, state := some state, prefixId := some prefixId
        executionStateId := executionStateId }
  | .identities prefixId executionStateId =>
      { contractId := none, schemaVersion := none, checkpointId := none
        parentCheckpointId := none, lineageKind := none, state := none, prefixId := some prefixId
        executionStateId := some executionStateId }
  | .partly contractId schemaVersion checkpointId parentCheckpointId lineageKind state prefixId
      executionStateId =>
      let isCheckpoint := checkpointId.isSome && prefixId.isSome
      { contractId := if isCheckpoint then none else contractId
        schemaVersion := if isCheckpoint then none else schemaVersion
        checkpointId := checkpointId.join, parentCheckpointId := parentCheckpointId
        lineageKind := lineageKind, state := state, prefixId := prefixId.join
        executionStateId := executionStateId }

def normalizeCanon (canon : ExecutionManifestCanonInput) :
    Except String ExecutionManifestCanonIdentity :=
  normalizeCanonIdentity (canonIdentityOf canon)

def normalizeOptional {α β : Type} (normalize : α → Except String β) :
    Option α → Except String (Option β)
  | none => .ok none
  | some value => (normalize value).map some

end Identities

section Attachments

def missingAttachment : ExecutionManifestAttachment :=
  { authority := "none", status := .missing, completeness := .incomplete, freshness := .unknown
    evidenceHash := none, physical := none
    reasons := ["authoritative Nawabari attachment evidence was not supplied"] }

def withoutEvidence (status : ExecutionManifestAttachmentStatus) (reason : Option String) :
    Except String ExecutionManifestAttachment := do
  require (status ≠ .attached) "attached Nawabari evidence is missing"
  let reasons ← boundedReasons
    [reason.getD s!"Nawabari attachment evidence is {status.text}"] "attachment reason"
  return { authority := "nawabari", status := status, completeness := .incomplete
           freshness := if status = .stale then .stale else .unknown, evidenceHash := none
           physical := none, reasons := reasons }

def physicalValid (evidence : NawabariRepositoryEvidence) : Bool :=
  !isBlank evidence.sessionId && !isBlank evidence.worktree && !isBlank evidence.branch

def evidenceStatus (evidence : NawabariRepositoryEvidence) : ExecutionManifestAttachmentStatus :=
  if physicalValid evidence = false ∨ evidence.complete = false then .invalid
  else if evidence.sessionState = "active" then .attached
  else .stale

def reasonUnless (condition : Bool) (reason : String) : List String :=
  if condition then [] else [reason]

def withEvidence (evidence : NawabariRepositoryEvidence) (reason : Option String) :
    Except String ExecutionManifestAttachment := do
  let evidenceHash ←
    boundedText evidence.evidenceHash "Nawabari evidence hash" maxEvidenceHashLength
  let branchId ← boundedText evidence.branchId "Nawabari branch id" maxIdentifierLength
  let status := evidenceStatus evidence
  let complete := decide (status = .attached) && evidence.baseRevisionProven
  let reasons ← boundedReasons
    (evidence.incompleteReasons ++ reason.toList ++
      reasonUnless evidence.complete "Nawabari evidence is incomplete" ++
      reasonUnless (physicalValid evidence)
        "Nawabari evidence is missing physical attachment identity" ++
      reasonUnless (decide (evidence.sessionState = "active")) "Nawabari session is not active" ++
      reasonUnless evidence.baseRevisionProven "Nawabari base revision is not proven")
    "attachment reason"
  return { authority := "nawabari", status := status
           completeness := if complete then .complete else .incomplete
           freshness := if complete then .current else if status = .stale then .stale
             else .unknown
           evidenceHash := some evidenceHash
           physical := if physicalValid evidence then
             some { sessionId := evidence.sessionId, worktree := evidence.worktree
                    branch := evidence.branch, branchId := some branchId
                    sessionState := evidence.sessionState }
             else none
           reasons := reasons }

def normalizeAttachment (input : AuthoritativeNawabariAttachmentInput) :
    Except String ExecutionManifestAttachment := do
  require (input.authority = "nawabari") "attachment authority is not supported"
  let reason ← optionalText input.reason "attachment reason" maxReasonLength
  match input.evidence with
  | none => withoutEvidence (input.status.getD .missing) reason
  | some evidence => withEvidence evidence reason

end Attachments

section Manifests

variable (localeCompare : String → String → Ordering)

def canonComplete (intent : ExecutionManifestIntent) : Bool :=
  intent.canon.any fun canon => canon.prefixId.isSome && canon.executionStateId.isSome

def planBlocked (intent : ExecutionManifestIntent) : Bool :=
  decide (intent.semanticPlan.claimGeneration.strategy = "blocked")

def overallDiagnostics (intent : ExecutionManifestIntent)
    (attachment : ExecutionManifestAttachment) : Except String ExecutionManifestDiagnostics := do
  let reasons ← boundedReasons
    (reasonUnless intent.task.isSome "task facts were not supplied" ++
      reasonUnless intent.manager.isSome "Manager execution identity was not supplied" ++
      reasonUnless (canonComplete intent) "complete Canon identity was not supplied" ++
      reasonUnless (!planBlocked intent) intent.semanticPlan.claimGeneration.reason ++
      attachment.reasons)
    "manifest diagnostic"
  let complete := intent.task.isSome && intent.manager.isSome && canonComplete intent &&
    !planBlocked intent && decide (attachment.completeness = .complete)
  return { completeness := if complete then .complete else .incomplete
           freshness := attachment.freshness, reasons := reasons }

/-- Both plans, where there are two, have one text: as the text of a normalized plan tells its
parts apart, they are the same plan. -/
def plansAgree (input : ExecutionManifestInput) : Except String Unit :=
  match input.semanticPlan, input.scope with
  | some plan, some scope => do
      let left ← normalizePlan localeCompare plan
      let right ← normalizePlan localeCompare scope
      require (left = right) "semanticPlan and scope disagree"
  | _, _ => .ok ()

def attachmentsAgree (input : ExecutionManifestInput) : Except String Unit :=
  match input.nawabari, input.attachment with
  | some nawabari, some attachment => do
      let left ← normalizeAttachment nawabari
      let right ← normalizeAttachment attachment
      require (left = right) "nawabari and attachment evidence disagree"
  | _, _ => .ok ()

def createExecutionManifest (input : ExecutionManifestInput) :
    Except String ExecutionManifest := do
  plansAgree localeCompare input
  let task ← normalizeOptional normalizeTask input.task
  let manager ← normalizeOptional normalizeManager input.manager
  let canon ← normalizeOptional normalizeCanon input.canon
  let semanticPlan ← normalizeSemanticPlan localeCompare (input.semanticPlan.or input.scope)
  attachmentsAgree input
  let intent := { task := task, manager := manager, canon := canon, semanticPlan := semanticPlan }
  let attachment ← match input.nawabari.or input.attachment with
    | none => .ok missingAttachment
    | some attachment => normalizeAttachment attachment
  let diagnostics ← overallDiagnostics intent attachment
  return { contractId := executionManifestContractId, schemaVersion := 1, intent := intent
           attachment := attachment, diagnostics := diagnostics }

end Manifests

open OrderedMaps.OrderedMap

section Cuts

variable {values texts : List String} {value text field : String} {max : ℕ}

theorem mapM_eq_map {α β : Type} {f : α → Except String β} {g : α → β}
    (hf : ∀ a b, f a = .ok b → b = g a) {l : List α} {l' : List β} (h : l.mapM f = .ok l') :
    l' = l.map g ∧ ∀ a ∈ l, f a = .ok (g a) := by
  induction l generalizing l' with
  | nil => exact ⟨(Except.ok.inj h).symm, nofun⟩
  | cons a l ih =>
    rw [List.mapM_cons] at h
    obtain ⟨b, hb, h⟩ := bind_eq_ok.1 h
    obtain ⟨m, hm, h⟩ := bind_eq_ok.1 h
    obtain rfl := Except.ok.inj h
    obtain rfl := hf a b hb
    obtain ⟨rfl, hall⟩ := ih hm
    exact ⟨rfl, List.forall_mem_cons.2 ⟨hb, hall⟩⟩

theorem boundedText_eq_ok (h : boundedText value field max = .ok text) :
    text = trim value ∧ CanonCheckpoints.hasControl text = false := by
  obtain ⟨_, -, h⟩ := bind_eq_ok.1 h
  obtain ⟨_, -, h⟩ := bind_eq_ok.1 h
  obtain ⟨_, hcontrol, h⟩ := bind_eq_ok.1 h
  obtain rfl := Except.ok.inj h
  exact ⟨rfl, require_eq_ok.1 hcontrol⟩

/-- What may be left of some texts where their number is bounded. -/
structure Cut (all kept : List String) : Prop where
  nodup : kept.Nodup
  length_le : kept.length ≤ maxPlanEntries
  subset : kept ⊆ all
  complete : all.dedup.length ≤ maxPlanEntries → all ⊆ kept

theorem length_dedup_mono {l l' : List String} (h : l ⊆ l') : l.dedup.length ≤ l'.dedup.length :=
  (List.subperm_of_subset (List.nodup_dedup l)
    fun _ htext => List.mem_dedup.2 (h (List.mem_dedup.1 htext))).length_le

variable {all kept : List String}

theorem Cut.subset_iff (h : Cut all kept) : all ⊆ kept ↔ all.dedup.length ≤ maxPlanEntries := by
  refine ⟨fun hall => (length_dedup_mono hall).trans ?_, h.complete⟩
  rw [h.nodup.dedup]
  exact h.length_le

theorem Cut.of_uniqueSorted (h : uniqueSorted values field max = .ok texts) :
    Cut (values.map trim) (texts.take maxPlanEntries) := by
  obtain ⟨trimmed, htrimmed, rfl⟩ := map_eq_ok.1 h
  obtain ⟨rfl, -⟩ := mapM_eq_map (fun _ _ h => (boundedText_eq_ok h).1) htrimmed
  have hperm : (sortKeys (values.map trim).dedup).Perm (values.map trim).dedup :=
    List.perm_insertionSort _ _
  have hnodup := hperm.nodup_iff.2 (List.nodup_dedup _)
  refine ⟨hnodup.sublist (List.take_sublist _ _), List.length_take_le _ _, fun text htext => ?_,
    fun hlength text htext => ?_⟩
  · exact List.mem_dedup.1 (hperm.subset (List.mem_of_mem_take htext))
  · rw [List.take_of_length_le (hperm.length_eq.le.trans hlength)]
    exact hperm.mem_iff.2 (List.mem_dedup.2 htext)

/-- Bounding what was bounded before loses nothing that is not lost anyway. -/
theorem Cut.append {all all' before before' kept : List String} (h : Cut all before)
    (h' : Cut all' before') (hkept : Cut (before ++ before') kept) : Cut (all ++ all') kept := by
  have hsubset : before ++ before' ⊆ all ++ all' := by
    intro text htext
    rcases List.mem_append.1 htext with hmem | hmem
    · exact List.mem_append_left _ (h.subset hmem)
    · exact List.mem_append_right _ (h'.subset hmem)
  refine ⟨hkept.nodup, hkept.length_le, fun text htext => hsubset (hkept.subset htext),
    fun hlength text htext => ?_⟩
  apply hkept.complete ((length_dedup_mono hsubset).trans hlength)
  rcases List.mem_append.1 htext with hmem | hmem
  · exact List.mem_append_left _ (h.complete
      ((length_dedup_mono (List.subset_append_left all all')).trans hlength) hmem)
  · exact List.mem_append_right _ (h'.complete
      ((length_dedup_mono (List.subset_append_right all all')).trans hlength) hmem)

theorem Cut.map_trim (h : Cut (all.map trim) kept) : kept.map trim = kept := by
  refine (List.map_congr_left fun text htext => ?_).trans (List.map_id kept)
  obtain ⟨value, -, rfl⟩ := List.mem_map.1 (h.subset htext)
  exact trim_trim value

end Cuts

section Targets

variable {targets rest : List SemanticExecutionTarget} {target t w : SemanticExecutionTarget}
variable {ts : List SemanticExecutionTarget} {m m' : OrderedMap String SemanticExecutionTarget}
variable {key kind id : String}

def targetKinds : List String := ["symbol", "component", "path"]

/-- The trimmed paths of all targets with a kind and an id. -/
def namedPaths (targets : List SemanticExecutionTarget) (kind id : String) : List String :=
  (targets.flatMap fun target =>
    if target.kind = kind ∧ trim target.id = id then target.paths.getD [] else []).map trim

theorem pairKey_injective {first first' second second' : String} (h : '\x00' ∉ first.toList)
    (h' : '\x00' ∉ first'.toList) (heq : pairKey first second = pairKey first' second') :
    first = first' ∧ second = second' := by
  have htexts : first.toList ++ '\x00' :: second.toList =
      first'.toList ++ '\x00' :: second'.toList := by
    simpa [pairKey] using congrArg String.toList heq
  obtain ⟨hfirst, hsecond⟩ := append_separator_inj h h' htexts
  exact ⟨String.toList_inj.1 hfirst, String.toList_inj.1 hsecond⟩

theorem not_mem_kind (h : kind ∈ targetKinds) : '\x00' ∉ kind.toList := by
  simp only [targetKinds, List.mem_cons, List.not_mem_nil, or_false] at h
  rcases h with rfl | rfl | rfl <;> decide

theorem normalizeTarget_eq_ok (h : normalizeTarget target = .ok t) :
    t.kind = target.kind ∧ t.id = trim target.id ∧ target.kind ∈ targetKinds ∧
      Cut ((target.paths.getD []).map trim) (t.paths.getD []) := by
  obtain ⟨_, hkind, h⟩ := bind_eq_ok.1 h
  obtain ⟨id, hid, h⟩ := bind_eq_ok.1 h
  obtain ⟨rfl, -⟩ := boundedText_eq_ok hid
  cases hpaths : target.paths with
  | none =>
    rw [hpaths] at h
    obtain rfl := Except.ok.inj h
    exact ⟨rfl, rfl, require_eq_ok.1 hkind, List.nodup_nil, Nat.zero_le _, List.Subset.refl _,
      fun _ => List.Subset.refl _⟩
  | some paths =>
    rw [hpaths] at h
    obtain ⟨kept, hkept, h⟩ := bind_eq_ok.1 h
    obtain rfl := Except.ok.inj h
    obtain ⟨sorted, hsorted, rfl⟩ := map_eq_ok.1 hkept
    exact ⟨rfl, rfl, require_eq_ok.1 hkind, Cut.of_uniqueSorted hsorted⟩

/-- What stands in the map once some targets were put into it. -/
structure Merged (targets : List SemanticExecutionTarget)
    (m : OrderedMap String SemanticExecutionTarget) : Prop where
  found : ∀ target ∈ targets, ∃ w, m.get (pairKey target.kind (trim target.id)) = some w
  kinds : ∀ target ∈ targets, target.kind ∈ targetKinds
  filed : ∀ key w, m.get key = some w → targetKey w = key ∧ w.kind ∈ targetKinds ∧
    Cut (namedPaths targets w.kind w.id) (w.paths.getD [])

theorem Merged.eq_of_get (h : Merged targets m) (hget : m.get (pairKey kind id) = some w)
    (hkind : kind ∈ targetKinds) : w.kind = kind ∧ w.id = id := by
  obtain ⟨hkey, hw, -⟩ := h.filed _ w hget
  exact pairKey_injective (not_mem_kind hw) (not_mem_kind hkind) hkey

theorem namedPaths_append (targets rest : List SemanticExecutionTarget) (kind id : String) :
    namedPaths (targets ++ rest) kind id =
      namedPaths targets kind id ++ namedPaths rest kind id := by
  rw [namedPaths, List.flatMap_append, List.map_append, namedPaths, namedPaths]

theorem Merged.mergeTarget (hm : Merged targets m) (ht : normalizeTarget target = .ok t)
    (h : mergeTarget m t = .ok m') : Merged (targets ++ [target]) m' := by
  obtain ⟨hkind, hid, hvalid, hcut⟩ := normalizeTarget_eq_ok ht
  have hkey : targetKey t = pairKey target.kind (trim target.id) := by rw [targetKey, hkind, hid]
  have hnew : namedPaths [target] t.kind t.id = (target.paths.getD []).map trim := by
    rw [namedPaths, List.flatMap_singleton, if_pos ⟨hkind.symm, hid.symm⟩]
  -- What is set is the target with its kind and id, and with a cut of the paths of both.
  obtain ⟨set, hset, hsetKind, hsetId, hsetCut⟩ : ∃ set, m' = m.set (targetKey t) set ∧
      set.kind = t.kind ∧ set.id = t.id ∧
        Cut (namedPaths (targets ++ [target]) t.kind t.id) (set.paths.getD []) := by
    rw [ExecutionManifests.mergeTarget] at h
    rw [namedPaths_append, hnew]
    cases hget : m.get (targetKey t) with
    | none =>
      rw [hget] at h
      have hnone : namedPaths targets t.kind t.id = [] := by
        rw [namedPaths, List.map_eq_nil_iff, List.flatMap_eq_nil_iff]
        intro other hother
        refine if_neg fun hsame => ?_
        obtain ⟨w, hw⟩ := hm.found other hother
        rw [hsame.1, hsame.2] at hw
        exact absurd (hget.symm.trans hw) nofun
      rw [hnone, List.nil_append]
      exact ⟨t, (Except.ok.inj h).symm, rfl, rfl, hcut⟩
    | some previous =>
      rw [hget] at h
      obtain ⟨paths, hpaths, h⟩ := bind_eq_ok.1 h
      obtain ⟨sorted, hsorted, rfl⟩ := map_eq_ok.1 hpaths
      obtain ⟨hprevKind, hprevId⟩ := hm.eq_of_get (hkey ▸ hget) hvalid
      obtain ⟨-, -, hprevCut⟩ := hm.filed _ previous hget
      rw [hprevKind, hprevId, ← hkind, ← hid] at hprevCut
      have hboth := Cut.of_uniqueSorted hsorted
      rw [List.map_append, hprevCut.map_trim, hcut.map_trim] at hboth
      refine ⟨_, (Except.ok.inj h).symm, rfl, rfl, ?_⟩
      have hpaths : ∀ paths : List String,
          (if paths = [] then none else some paths : Option (List String)).getD [] = paths := by
        intro paths
        split_ifs with hempty
        · exact hempty.symm
        · rfl
      rw [hpaths]
      exact hprevCut.append hcut hboth
  subst hset
  refine ⟨?_, ?_, ?_⟩
  · intro other hother
    by_cases hother' : pairKey other.kind (trim other.id) = targetKey t
    · exact ⟨set, by rw [hother', get_set_self]⟩
    · rw [get_set_of_ne hother']
      rcases List.mem_append.1 hother with hmem | hmem
      · exact hm.found other hmem
      · rw [List.mem_singleton.1 hmem, hkey] at hother'
        exact absurd rfl hother'
  · intro other hother
    rcases List.mem_append.1 hother with hmem | hmem
    · exact hm.kinds other hmem
    · rwa [List.mem_singleton.1 hmem]
  · intro key w hw
    by_cases hsame : key = targetKey t
    · rw [hsame, get_set_self] at hw
      obtain rfl := Option.some.inj hw
      rw [hsame, targetKey, hsetKind, hsetId]
      exact ⟨rfl, hkind ▸ hvalid, hsetCut⟩
    · rw [get_set_of_ne hsame] at hw
      obtain ⟨hfiled, hwkind, hwcut⟩ := hm.filed key w hw
      have hnone : namedPaths [target] w.kind w.id = [] := by
        rw [namedPaths, List.flatMap_singleton, if_neg, List.map_nil]
        rintro ⟨hk, hi⟩
        rw [← hfiled, hkey, hk, hi] at hsame
        exact hsame rfl
      rw [namedPaths_append, hnone, List.append_nil]
      exact ⟨hfiled, hwkind, hwcut⟩

theorem Merged.foldlM (hm : Merged targets m) (hts : rest.mapM normalizeTarget = .ok ts)
    (h : ts.foldlM ExecutionManifests.mergeTarget m = .ok m') : Merged (targets ++ rest) m' := by
  induction rest generalizing targets m ts with
  | nil =>
    obtain rfl := Except.ok.inj hts
    obtain rfl := Except.ok.inj h
    rwa [List.append_nil]
  | cons target rest ih =>
    rw [List.mapM_cons] at hts
    obtain ⟨t, ht, hts⟩ := bind_eq_ok.1 hts
    obtain ⟨ts', hts', hts⟩ := bind_eq_ok.1 hts
    obtain rfl := Except.ok.inj hts
    rw [List.foldlM_cons] at h
    obtain ⟨between, hbetween, h⟩ := bind_eq_ok.1 h
    rw [List.append_cons]
    exact ih (hm.mergeTarget ht hbetween) hts' h

theorem merged_empty : Merged [] OrderedMap.empty := ⟨nofun, nofun, nofun⟩

end Targets

section Plans

variable {localeCompare : String → String → Ordering} {input : ExecutionManifestInput}
variable {manifest : ExecutionManifest} {plan kept : SemanticExecutionPlan}

/-- Whether a plan that is kept has all targets with their paths, all claims and all checks. -/
structure Lossless (plan kept : SemanticExecutionPlan) : Prop where
  targets : ∀ target ∈ plan.semanticTargets, ∃ t ∈ kept.semanticTargets,
    t.kind = target.kind ∧ t.id = trim target.id
  paths : ∀ target ∈ plan.semanticTargets, ∀ path ∈ target.paths.getD [],
    ∃ t ∈ kept.semanticTargets, t.kind = target.kind ∧ t.id = trim target.id ∧
      trim path ∈ t.paths.getD []
  claims : ∀ claim ∈ plan.claims, { claim with resource := trim claim.resource } ∈ kept.claims
  checks : ∀ check ∈ plan.verification.requiredChecks, trim check ∈ kept.verification.requiredChecks

/-- Whether the lists of a plan that are cut are short enough. -/
structure Bounded (plan : SemanticExecutionPlan) : Prop where
  paths : ∀ target ∈ plan.semanticTargets,
    (namedPaths plan.semanticTargets target.kind (trim target.id)).dedup.length ≤ maxPlanEntries
  checks : (plan.verification.requiredChecks.map trim).dedup.length ≤ maxPlanEntries

theorem mem_sortByKey {Value : Type} {key : Value → String} {values : List Value} {v : Value} :
    v ∈ sortByKey localeCompare key values ↔ v ∈ values := List.mem_insertionSort _

theorem normalizeClaim_eq_ok {claim normal : ExecutionClaim}
    (h : normalizeClaim claim = .ok normal) :
    normal = { claim with resource := trim claim.resource } ∧ '\x00' ∉ normal.resource.toList := by
  obtain ⟨_, -, h⟩ := bind_eq_ok.1 h
  obtain ⟨resource, hresource, h⟩ := bind_eq_ok.1 h
  obtain ⟨rfl, hcontrol⟩ := boundedText_eq_ok hresource
  obtain rfl := Except.ok.inj h
  exact ⟨rfl, fun hmem => List.any_eq_false.1 hcontrol _ hmem (by decide)⟩

theorem mem_claims {claims normalized : List ExecutionClaim} {claim : ExecutionClaim}
    (h : claims.mapM normalizeClaim = .ok normalized) (hclaim : claim ∈ claims) :
    { claim with resource := trim claim.resource } ∈ (normalized.foldl setClaim .empty).values := by
  obtain ⟨rfl, hall⟩ := mapM_eq_map (fun _ _ h => (normalizeClaim_eq_ok h).1) h
  have hnul : ∀ claim ∈ claims, '\x00' ∉ (trim claim.resource).toList :=
    fun claim hmem => (normalizeClaim_eq_ok (hall claim hmem)).2
  have hempty : Filed claimKey (.empty : OrderedMap String ExecutionClaim) := nofun
  have hread := hempty.read_foldl_set fun _ _ (h : claimKey _ = claimKey _) => h
  set trimmed := fun claim : ExecutionClaim => { claim with resource := trim claim.resource }
  obtain ⟨kept, hkept, hkey⟩ :=
    (hread (claims.map trimmed) _).2 (.inr ⟨_, List.mem_map_of_mem hclaim, rfl⟩)
  rcases of_mem_values_foldl_set hkept with hnone | hmem
  · cases hnone
  · obtain ⟨other, hother, rfl⟩ := List.mem_map.1 hmem
    obtain ⟨hresource, hmode⟩ := pairKey_injective (hnul other hother) (hnul claim hclaim) hkey
    have hsame : trimmed other = trimmed claim := congr_arg₂ ExecutionClaim.mk hresource hmode
    rwa [hsame] at hkept

/-- What a plan becomes keeps the claims of the plan, and of the paths and checks what fits. -/
theorem normalizePlan_eq_ok (h : normalizePlan localeCompare plan = .ok kept) :
    (∃ m, Merged plan.semanticTargets m ∧ ∀ t, t ∈ kept.semanticTargets ↔ t ∈ m.values) ∧
      (∀ claim ∈ plan.claims, { claim with resource := trim claim.resource } ∈ kept.claims) ∧
        Cut (plan.verification.requiredChecks.map trim) kept.verification.requiredChecks := by
  obtain ⟨_, -, h⟩ := bind_eq_ok.1 h
  obtain ⟨_, -, h⟩ := bind_eq_ok.1 h
  obtain ⟨_, -, h⟩ := bind_eq_ok.1 h
  obtain ⟨normalized, hnormalized, h⟩ := bind_eq_ok.1 h
  obtain ⟨m, hm, h⟩ := bind_eq_ok.1 h
  obtain ⟨claims, hclaims, h⟩ := bind_eq_ok.1 h
  obtain ⟨_, -, h⟩ := bind_eq_ok.1 h
  obtain ⟨_, -, h⟩ := bind_eq_ok.1 h
  obtain ⟨verification, hverification, h⟩ := bind_eq_ok.1 h
  obtain rfl := Except.ok.inj h
  obtain ⟨checks, hchecks, hverification⟩ := bind_eq_ok.1 hverification
  obtain ⟨_, -, hverification⟩ := bind_eq_ok.1 hverification
  obtain rfl := Except.ok.inj hverification
  have hmerged := merged_empty.foldlM hnormalized hm
  exact ⟨⟨m, hmerged, fun _ => mem_sortByKey⟩,
    fun claim hclaim => mem_sortByKey.2 (mem_claims hclaims hclaim), Cut.of_uniqueSorted hchecks⟩

theorem normalizePlan_lossless_iff (h : normalizePlan localeCompare plan = .ok kept) :
    Lossless plan kept ↔ Bounded plan := by
  obtain ⟨⟨m, hm, htargets⟩, hclaims, hchecks⟩ := normalizePlan_eq_ok h
  have hone : ∀ {t : SemanticExecutionTarget}, t ∈ kept.semanticTargets →
      m.get (targetKey t) = some t := by
    intro t ht
    obtain ⟨key, hentry⟩ := mem_values.1 ((htargets t).1 ht)
    have hget := get_eq_some_iff.2 hentry
    rwa [← (hm.filed key t hget).1] at hget
  have hcheck : (∀ check ∈ plan.verification.requiredChecks,
      trim check ∈ kept.verification.requiredChecks) ↔
        (plan.verification.requiredChecks.map trim).dedup.length ≤ maxPlanEntries := by
    rw [← hchecks.subset_iff]
    exact List.forall_mem_map.symm
  constructor
  · intro hlossless
    refine ⟨fun target htarget => ?_, hcheck.1 hlossless.checks⟩
    obtain ⟨w, hw⟩ := hm.found target htarget
    obtain ⟨hkind, hid⟩ := hm.eq_of_get hw (hm.kinds target htarget)
    obtain ⟨-, -, hcut⟩ := hm.filed _ w hw
    rw [← hkind, ← hid]
    refine hcut.subset_iff.1 fun path hpath => ?_
    obtain ⟨path, hnamed, rfl⟩ := List.mem_map.1 hpath
    obtain ⟨other, hother, hnamed⟩ := List.mem_flatMap.1 hnamed
    split_ifs at hnamed with hsame
    · obtain ⟨t, ht, htkind, htid, htpath⟩ := hlossless.paths other hother path hnamed
      have hget := hone ht
      rw [targetKey, htkind, htid, hsame.1, hsame.2, hkind, hid, hw] at hget
      rwa [← Option.some.inj hget] at htpath
    · cases hnamed
  · intro hbounded
    have hfound : ∀ target ∈ plan.semanticTargets, ∃ t ∈ kept.semanticTargets,
        t.kind = target.kind ∧ t.id = trim target.id ∧
          ∀ path ∈ target.paths.getD [], trim path ∈ t.paths.getD [] := by
      intro target htarget
      obtain ⟨t, ht⟩ := hm.found target htarget
      obtain ⟨hkind, hid⟩ := hm.eq_of_get ht (hm.kinds target htarget)
      obtain ⟨-, -, hcut⟩ := hm.filed _ t ht
      refine ⟨t, (htargets t).2 (mem_values.2 ⟨_, get_eq_some_iff.1 ht⟩), hkind, hid,
        fun path hpath => ?_⟩
      have hshort := hbounded.paths target htarget
      rw [← hkind, ← hid] at hshort
      refine hcut.complete hshort (List.mem_map_of_mem (List.mem_flatMap.2 ⟨target, htarget, ?_⟩))
      rwa [if_pos ⟨hkind.symm, hid.symm⟩]
    refine ⟨fun target htarget => ?_, fun target htarget path hpath => ?_, hclaims,
      hcheck.2 hbounded.checks⟩
    · obtain ⟨t, ht, hkind, hid, -⟩ := hfound target htarget
      exact ⟨t, ht, hkind, hid⟩
    · obtain ⟨t, ht, hkind, hid, hpaths⟩ := hfound target htarget
      exact ⟨t, ht, hkind, hid, hpaths path hpath⟩

variable (h : createExecutionManifest localeCompare input = .ok manifest)
include h

/-- The plan of a manifest is what each plan of its input becomes. -/
theorem plan_of_createExecutionManifest
    (hplan : input.semanticPlan = some plan ∨ input.scope = some plan) :
    normalizePlan localeCompare plan = .ok manifest.intent.semanticPlan := by
  obtain ⟨_, hagree, h⟩ := bind_eq_ok.1 h
  obtain ⟨_, -, h⟩ := bind_eq_ok.1 h
  obtain ⟨_, -, h⟩ := bind_eq_ok.1 h
  obtain ⟨_, -, h⟩ := bind_eq_ok.1 h
  obtain ⟨kept, hkept, h⟩ := bind_eq_ok.1 h
  obtain ⟨_, -, h⟩ := bind_eq_ok.1 h
  have hintent : manifest.intent.semanticPlan = kept := by
    cases hsupplied : input.nawabari.or input.attachment with
    | none =>
      simp only [hsupplied] at h
      obtain ⟨_, -, h⟩ := bind_eq_ok.1 h
      obtain ⟨_, -, h⟩ := bind_eq_ok.1 h
      rw [← Except.ok.inj h]
    | some supplied =>
      simp only [hsupplied] at h
      obtain ⟨_, -, h⟩ := bind_eq_ok.1 h
      obtain ⟨_, -, h⟩ := bind_eq_ok.1 h
      rw [← Except.ok.inj h]
  rw [hintent]
  rw [plansAgree] at hagree
  cases hfirst : input.semanticPlan with
  | none =>
    rw [hfirst] at hkept hplan
    obtain hscope := hplan.resolve_left nofun
    rwa [hscope] at hkept
  | some first =>
    rw [hfirst] at hkept hplan hagree
    rcases hplan with hsame | hscope
    · rwa [Option.some.inj hsame] at hkept
    · rw [hscope] at hagree
      obtain ⟨left, hleft, hagree⟩ := bind_eq_ok.1 hagree
      obtain ⟨right, hright, hagree⟩ := bind_eq_ok.1 hagree
      rw [hright, ← require_eq_ok.1 hagree, ← hleft]
      exact hkept

end Plans

section Runs

/-- A plan that names nothing but checks. -/
def checkedPlan (checks : List String) : SemanticExecutionPlan :=
  { missingPlan with verification := { requiredChecks := checks, rationale := "the release" } }

def checkedInput (checks : List String) : ExecutionManifestInput :=
  { task := none, manager := none, canon := none, semanticPlan := some (checkedPlan checks)
    scope := none, nawabari := none, attachment := none }

theorem exists_manifest (checks : List String)
    (h : (createExecutionManifest compare (checkedInput checks)).toOption.isSome = true) :
    ∃ manifest, createExecutionManifest compare (checkedInput checks) = .ok manifest := by
  cases hmanifest : createExecutionManifest compare (checkedInput checks) with
  | error message => rw [hmanifest] at h; cases h
  | ok manifest => exact ⟨manifest, rfl⟩

/-- As many checks as characters, one more than a manifest keeps. -/
def manyChecks : List String :=
  (List.range (maxPlanEntries + 1)).map fun n => String.singleton (Char.ofNat (0x4E00 + n))

theorem trim_manyChecks : manyChecks.map trim = manyChecks := by
  decide +kernel

theorem nodup_manyChecks : manyChecks.Nodup := by
  refine List.Nodup.map_on (fun n hn m hm heq => ?_) List.nodup_range
  have hcode : ∀ n ∈ List.range (maxPlanEntries + 1),
      (Char.ofNat (0x4E00 + n)).toNat = 0x4E00 + n := by
    decide +kernel
  have hchar : Char.ofNat (0x4E00 + n) = Char.ofNat (0x4E00 + m) := by
    simpa using congrArg String.toList heq
  have hsum := congrArg Char.toNat hchar
  rwa [hcode n hn, hcode m hm, Nat.add_right_inj] at hsum

end Runs

end Mottainai.ExecutionManifests

import Mottainai.ExecutionManifests

/-!
# The admission of an execution

A governed execution is admitted when the task, the Manager and fresh evidence from Nawabari agree
on what they name. The evidence is read in the worktree that the task or the Manager names, never in
the directory of the caller. The services that are asked are parameters, each asked at most once; an
answer may also be an error that is thrown.
-/

namespace Mottainai.ExecutionAdmission

open JavaScriptValues ExecutionManifests

section Records

/-- `repositoryEvidence`, of a directory and a session. -/
abbrev Nawabari : Type := String → String → Except String NawabariRepositoryEvidence

/-- What is resolved of a task: its worktree and its branch, if they are known. -/
structure ResolvedTask where
  task : Option Task
  worktreePath : Option String
  branch : Option String

/-- `ExecutionAdmissionTaskProjection`, and the result of a task status that was found. -/
structure TaskProjection where
  task : Task
  worktreePath : String
  branch : Option String

inductive ExecutionAdmissionDiagnosticCode where
  | missingTask | missingManager | missingTaskIdentity | taskResolutionFailed
  | taskIdentityMismatch | managerValidationFailed | missingPhysicalIdentity
  | nawabariEvidenceUnavailable | nawabariEvidenceIncomplete | sessionMismatch | worktreeMismatch
  | branchMismatch | baseRevisionMismatch | manifestInvalid
  deriving DecidableEq

def ExecutionAdmissionDiagnosticCode.text : ExecutionAdmissionDiagnosticCode → String
  | .missingTask => "missing-task"
  | .missingManager => "missing-manager"
  | .missingTaskIdentity => "missing-task-identity"
  | .taskResolutionFailed => "task-resolution-failed"
  | .taskIdentityMismatch => "task-identity-mismatch"
  | .managerValidationFailed => "manager-validation-failed"
  | .missingPhysicalIdentity => "missing-physical-identity"
  | .nawabariEvidenceUnavailable => "nawabari-evidence-unavailable"
  | .nawabariEvidenceIncomplete => "nawabari-evidence-incomplete"
  | .sessionMismatch => "session-mismatch"
  | .worktreeMismatch => "worktree-mismatch"
  | .branchMismatch => "branch-mismatch"
  | .baseRevisionMismatch => "base-revision-mismatch"
  | .manifestInvalid => "manifest-invalid"

structure ExecutionAdmissionDiagnostic where
  code : ExecutionAdmissionDiagnosticCode
  message : String

/-- `ExecutionAdmissionInput`. A task status may be found or not, and a Manager may be valid or
not, each with a text that says why not. -/
structure ExecutionAdmissionInput (Store : Type) where
  taskId : Option String
  task : Option Task
  taskProjection : Option TaskProjection
  store : Option Store
  resolveTaskStatus : Option
    (Store → String → Nawabari → Except String (Except String TaskProjection))
  manager : Option Manager
  managerAuthority : Option (ManagerExecutionContext → Except String (Except String Unit))
  nawabari : Nawabari
  projectManifest : ExecutionManifestInput → Except String ExecutionManifest
  canon : Option ExecutionManifestCanonInput
  semanticPlan : Option SemanticExecutionPlan
  scope : Option SemanticExecutionPlan
  manifest : Option ExecutionManifest
  callerCwd : Option String

structure ExecutionRuntimeAttachment where
  sessionId : String
  worktree : String
  branch : String
  branchId : Option String
  sessionState : String
  deriving DecidableEq

inductive ExecutionAdmissionResult where
  | success (manifest : ExecutionManifest) (attachment : ExecutionRuntimeAttachment)
      (diagnostics : List ExecutionAdmissionDiagnostic)
  | failure (manifest : ExecutionManifest) (diagnostics : List ExecutionAdmissionDiagnostic)

structure ManagerIdentity where
  context : Option ManagerExecutionContext
  taskId : Option String
  sessionId : Option String
  worktreePath : Option String
  branch : Option String

end Records

section Identities

def contextIdentity (context : ManagerExecutionContext) : ManagerIdentity :=
  { context := some context, taskId := context.taskId, sessionId := context.executionSessionId
    worktreePath := some context.worktreePath, branch := context.branchName }

def managerIdentity : Option Manager → ManagerIdentity
  | none =>
      { context := none, taskId := none, sessionId := none, worktreePath := none, branch := none }
  | some (.identity identity) =>
      { context := none, taskId := identity.taskId, sessionId := identity.executionSessionId
        worktreePath := none, branch := none }
  | some (.session session) => contextIdentity session.toManagerExecutionContext
  | some (.context context) => contextIdentity context

def projectionParts (projection : TaskProjection) : ResolvedTask :=
  { task := some projection.task, worktreePath := some projection.worktreePath
    branch := projection.branch }

def taskOfFacts (facts : ExecutionManifestTaskFacts) : Task :=
  { taskId := facts.taskId, instanceId := facts.instanceId, taskSlug := facts.taskSlug
    issueRef := facts.issueRef, nawabariSessionId := none
    lifecycleState := facts.lifecycleState, baseBranch := facts.baseBranch
    baseCommit := facts.baseCommit }

def canonOfIdentity (canon : ExecutionManifestCanonIdentity) : ExecutionManifestCanonInput :=
  .partly canon.contractId canon.schemaVersion (some canon.checkpointId) canon.parentCheckpointId
    canon.lineageKind canon.state (some canon.prefixId) canon.executionStateId

/-- `error.message.slice(0, 512)`. -/
def reason (message : String) : String := slice 512 message

variable {Store : Type} (input : ExecutionAdmissionInput Store)

def previousTask : Option Task := input.manifest.bind fun m => m.intent.task.map taskOfFacts

def previousManager : Option Manager := input.manifest.bind fun m => m.intent.manager.map .identity

/-- The identity that is admitted: that of the Manager, or of the manifest. -/
def admittedManager : ManagerIdentity := managerIdentity (input.manager.or (previousManager input))

def suppliedTask : ResolvedTask :=
  match input.taskProjection with
  | some projection => projectionParts projection
  | none =>
      { task := input.task.or (previousTask input), worktreePath := none, branch := none }

def resolveById (taskId : String) : ResolvedTask × List ExecutionAdmissionDiagnostic :=
  match input.store, input.resolveTaskStatus with
  | some store, some resolveTaskStatus =>
      match resolveTaskStatus store taskId input.nawabari with
      | .error message =>
          (suppliedTask input, [⟨.taskResolutionFailed,
            "task identity resolution failed: " ++ reason message⟩])
      | .ok (.error why) =>
          (suppliedTask input, [⟨.taskResolutionFailed,
            "task identity could not be freshly resolved: " ++ why⟩])
      | .ok (.ok projection) =>
          (projectionParts projection,
            if (suppliedTask input).task.any fun task => task.taskId ≠ projection.task.taskId then
              [⟨.taskIdentityMismatch,
                "supplied task facts do not match explicit taskId " ++ taskId⟩]
            else [])
  | _, _ =>
      (suppliedTask input, [⟨.taskResolutionFailed,
        "an explicit taskId requires the existing keyed task resolver and workflow state store"⟩])

def resolveTask : ResolvedTask × List ExecutionAdmissionDiagnostic :=
  match input.taskId with
  | none => (suppliedTask input, [])
  | some taskId => resolveById input taskId

end Identities

section Checks

def diagnoseUnless (condition : Bool) (code : ExecutionAdmissionDiagnosticCode) (message : String) :
    List ExecutionAdmissionDiagnostic :=
  if condition then [] else [⟨code, message⟩]

/-- Two values that do not differ, in that one of them is missing or they are the same. -/
def compatible (left right : Option String) : Bool :=
  match left, right with
  | some left, some right => decide (left = right)
  | _, _ => true

def uniqueSessionIds (task : Option Task) (manager : ManagerIdentity) : List String :=
  ((task.bind (·.nawabariSessionId)).toList ++ manager.sessionId.toList).dedup

variable {Store : Type} (input : ExecutionAdmissionInput Store)

def identityDiagnostics (resolved : ResolvedTask) (manager : ManagerIdentity) :
    List ExecutionAdmissionDiagnostic :=
  let taskId := resolved.task.map (·.taskId)
  diagnoseUnless resolved.task.isSome .missingTask "governed task facts were not supplied" ++
  diagnoseUnless manager.context.isSome .missingManager
    "Manager execution identity was not supplied" ++
  diagnoseUnless (compatible input.taskId taskId) .taskIdentityMismatch
    ("resolved task does not match explicit taskId " ++ input.taskId.getD "") ++
  diagnoseUnless (compatible manager.taskId taskId) .taskIdentityMismatch
    ("Manager task identity does not match task " ++ taskId.getD "")

def sessionDiagnostics (resolved : ResolvedTask) (manager : ManagerIdentity) :
    List ExecutionAdmissionDiagnostic :=
  let sessions := uniqueSessionIds resolved.task manager
  diagnoseUnless (decide (sessions ≠ [])) .missingTaskIdentity
    "no explicit Nawabari session identity was supplied" ++
  diagnoseUnless (decide (sessions.length ≤ 1)) .sessionMismatch
    "task and Manager execution identities name different Nawabari sessions"

def physicalDiagnostics (resolved : ResolvedTask) (manager : ManagerIdentity) :
    List ExecutionAdmissionDiagnostic :=
  diagnoseUnless ((resolved.worktreePath.or manager.worktreePath).isSome &&
      (resolved.branch.or manager.branch).isSome) .missingPhysicalIdentity
    "authoritative worktree and branch identity is incomplete" ++
  diagnoseUnless (compatible resolved.worktreePath manager.worktreePath) .worktreeMismatch
    "task and Manager projections name different worktrees" ++
  diagnoseUnless (compatible resolved.branch manager.branch) .branchMismatch
    "task and Manager projections name different branches"

def validationDiagnostics (manager : ManagerIdentity) : List ExecutionAdmissionDiagnostic :=
  match input.managerAuthority, manager.context with
  | some validate, some context =>
      match validate context with
      | .error message => [⟨.managerValidationFailed,
          "Manager authority validation failed: " ++ reason message⟩]
      | .ok (.error detail) => [⟨.managerValidationFailed, detail⟩]
      | .ok (.ok ()) => []
  | _, _ => []

/-- Everything that is checked before Nawabari is asked. -/
def priorDiagnostics : List ExecutionAdmissionDiagnostic :=
  let resolved := (resolveTask input).1
  let manager := admittedManager input
  (resolveTask input).2 ++ identityDiagnostics input resolved manager ++
    sessionDiagnostics resolved manager ++ physicalDiagnostics resolved manager ++
    validationDiagnostics input manager

def compareEvidence (evidence : NawabariRepositoryEvidence)
    (sessionId worktreePath branch : String) (baseCommit : Option String) :
    List ExecutionAdmissionDiagnostic :=
  diagnoseUnless (decide (evidence.sessionId = sessionId)) .sessionMismatch
    ("Nawabari session identity does not match the explicit execution identity: expected " ++
      sessionId ++ ", got " ++ evidence.sessionId) ++
  diagnoseUnless (decide (evidence.worktree = worktreePath)) .worktreeMismatch
    ("Nawabari worktree does not match the authoritative task/Manager worktree: expected " ++
      worktreePath ++ ", got " ++ evidence.worktree) ++
  diagnoseUnless (decide (evidence.branch = branch)) .branchMismatch
    ("Nawabari branch does not match the authoritative task/Manager branch: expected " ++
      branch ++ ", got " ++ evidence.branch) ++
  diagnoseUnless (baseCommit.all fun base => evidence.baseRevision = some base)
    .baseRevisionMismatch
    ("Nawabari base revision does not match the governed task base commit: expected " ++
      baseCommit.getD "" ++ ", got " ++ evidence.baseRevision.getD "(missing)")

def completenessDiagnostics (evidence : NawabariRepositoryEvidence) :
    List ExecutionAdmissionDiagnostic :=
  let reasons := String.intercalate "; " evidence.incompleteReasons
  diagnoseUnless (evidence.complete && decide (evidence.sessionState = "active") &&
      evidence.baseRevisionProven && decide (evidence.evidenceHash ≠ ""))
    .nawabariEvidenceIncomplete
    ("Nawabari evidence is not current and complete: " ++
      if reasons = "" then "required freshness proof is missing" else reasons)

end Checks

section Manifests

variable {Store : Type} (input : ExecutionAdmissionInput Store)

/-- `manifestIntent`: of a manifest that was given only the intent is used. -/
def manifestIntent (resolved : ResolvedTask) (manager : ManagerIdentity) :
    ExecutionManifestInput :=
  { task := (resolved.task.or input.task).or (previousTask input)
    manager := match manager.context with
      | none => input.manager.or (previousManager input)
      | some context => some (input.manager.getD (.context context))
    canon := input.canon.or
      (input.manifest.bind fun m => m.intent.canon.map canonOfIdentity)
    semanticPlan := (input.semanticPlan.or input.scope).or
      (input.manifest.map fun m => m.intent.semanticPlan)
    scope := none, nawabari := none, attachment := none }

def boundedAttachment (status : ExecutionManifestAttachmentStatus) (why : String) :
    AuthoritativeNawabariAttachmentInput :=
  { authority := "nawabari", evidence := none, status := some status
    reason := some (if reason why = "" then "execution admission failed" else reason why) }

def emptyInput : ExecutionManifestInput :=
  { task := none, manager := none, canon := none, semanticPlan := none, scope := none
    nawabari := none, attachment := none }

def safeManifest (intent : ExecutionManifestInput)
    (attachment : AuthoritativeNawabariAttachmentInput) : Except String ExecutionManifest :=
  match input.projectManifest { intent with nawabari := some attachment } with
  | .ok manifest => .ok manifest
  | .error _ => input.projectManifest { emptyInput with nawabari := some attachment }

def failure (intent : ExecutionManifestInput) (diagnostics : List ExecutionAdmissionDiagnostic)
    (status : ExecutionManifestAttachmentStatus) (why : String) :
    Except String ExecutionAdmissionResult :=
  (safeManifest input intent (boundedAttachment status why)).map
    fun manifest => .failure manifest diagnostics

def messages (diagnostics : List ExecutionAdmissionDiagnostic) : String :=
  String.intercalate "; " (diagnostics.map (·.message))

def refusedStatus (diagnostics : List ExecutionAdmissionDiagnostic) :
    ExecutionManifestAttachmentStatus :=
  if diagnostics.any fun diagnostic => diagnostic.code.text.endsWith "mismatch" then .ambiguous
  else .stale

def runtimeAttachment (physical : ExecutionManifestPhysicalAttachment) :
    ExecutionRuntimeAttachment :=
  { sessionId := physical.sessionId, worktree := physical.worktree, branch := physical.branch
    branchId := physical.branchId, sessionState := physical.sessionState }

def attachManifest (manifest : ExecutionManifest) : Except String ExecutionAdmissionResult :=
  if manifest.diagnostics.completeness ≠ .complete ∨ manifest.attachment.status ≠ .attached then
    .ok (.failure manifest [⟨.manifestInvalid,
      "ExecutionManifest is incomplete and cannot be runtime-attached"⟩])
  else match manifest.attachment.physical with
    | none => .error "Cannot read properties of undefined (reading 'sessionId')"
    | some physical => .ok (.success manifest (runtimeAttachment physical) [])

def projectAdmitted (intent : ExecutionManifestInput) (evidence : NawabariRepositoryEvidence) :
    Except String ExecutionAdmissionResult :=
  match input.projectManifest { intent with
      nawabari := some { authority := "nawabari", evidence := some evidence, status := none
                         reason := none } } with
  | .error message =>
      let why := "ExecutionManifest projection failed: " ++ reason message
      failure input intent [⟨.manifestInvalid, why⟩] .invalid why
  | .ok manifest => attachManifest manifest

def admitIdentified (resolved : ResolvedTask) (manager : ManagerIdentity)
    (sessionId worktreePath branch : String) : Except String ExecutionAdmissionResult :=
  let intent := manifestIntent input resolved manager
  match input.nawabari worktreePath sessionId with
  | .error message =>
      let why := "Nawabari evidence could not be read: " ++ reason message
      failure input intent [⟨.nawabariEvidenceUnavailable, why⟩] .missing why
  | .ok evidence =>
      let diagnostics := completenessDiagnostics evidence ++ compareEvidence evidence sessionId
        worktreePath branch (resolved.task.map (·.baseCommit))
      if diagnostics ≠ [] then
        failure input intent diagnostics (refusedStatus diagnostics) (messages diagnostics)
      else projectAdmitted input intent evidence

def admitExecution : Except String ExecutionAdmissionResult :=
  let resolved := (resolveTask input).1
  let manager := admittedManager input
  let diagnostics := priorDiagnostics input
  if diagnostics ≠ [] then
    failure input (manifestIntent input resolved manager) diagnostics .ambiguous
      (messages diagnostics)
  else
    admitIdentified input resolved manager ((uniqueSessionIds resolved.task manager).headD "")
      ((resolved.worktreePath.or manager.worktreePath).getD "")
      ((resolved.branch.or manager.branch).getD "")

end Manifests

section Diagnostics

theorem diagnoseUnless_eq_nil {condition : Bool} {code : ExecutionAdmissionDiagnosticCode}
    {message : String} : diagnoseUnless condition code message = [] ↔ condition = true := by
  unfold diagnoseUnless
  split_ifs with h
  · simp [h]
  · simp [h]

theorem eq_of_compatible {left right : Option String} {l r : String}
    (h : compatible left right = true) (hleft : left = some l) (hright : right = some r) :
    l = r := by
  subst hleft hright
  simpa [compatible] using h

/-- Of sessions that are at most one, each that is named is the first. -/
theorem session_eq_headD {task : Option Task} {manager : ManagerIdentity}
    (hne : uniqueSessionIds task manager ≠ [])
    (hlength : (uniqueSessionIds task manager).length ≤ 1) :
    ((task.bind (·.nawabariSessionId)) = some ((uniqueSessionIds task manager).headD "") ∨
      manager.sessionId = some ((uniqueSessionIds task manager).headD "")) ∧
    (∀ s, (task.bind (·.nawabariSessionId)) = some s →
      s = (uniqueSessionIds task manager).headD "") ∧
    ∀ s, manager.sessionId = some s → s = (uniqueSessionIds task manager).headD "" := by
  obtain ⟨first, hfirst⟩ : ∃ first, uniqueSessionIds task manager = [first] := by
    cases hsessions : uniqueSessionIds task manager with
    | nil => exact absurd hsessions hne
    | cons first rest =>
      rw [hsessions, List.length_cons] at hlength
      exact ⟨first, by rw [List.length_eq_zero_iff.mp (by omega : rest.length = 0)]⟩
  have hmem : ∀ s, s ∈ uniqueSessionIds task manager ↔
      (task.bind (·.nawabariSessionId)) = some s ∨ manager.sessionId = some s := by
    intro s
    simp [uniqueSessionIds]
  rw [hfirst] at hmem ⊢
  refine ⟨(hmem first).mp (List.mem_singleton.mpr rfl), ?_, ?_⟩
  · intro s hs
    exact List.mem_singleton.mp ((hmem s).mpr (.inl hs))
  · intro s hs
    exact List.mem_singleton.mp ((hmem s).mpr (.inr hs))

end Diagnostics

section Soundness

structure Agreement (resolved : ResolvedTask) (task : Task) (context : ManagerExecutionContext)
    (evidence : NawabariRepositoryEvidence) : Prop where
  task_eq : resolved.task = some task
  manager_task : ∀ taskId, context.taskId = some taskId → taskId = task.taskId
  session_named : task.nawabariSessionId = some evidence.sessionId ∨
    context.executionSessionId = some evidence.sessionId
  task_session : ∀ sessionId, task.nawabariSessionId = some sessionId →
    sessionId = evidence.sessionId
  manager_session : ∀ sessionId, context.executionSessionId = some sessionId →
    sessionId = evidence.sessionId
  task_worktree : ∀ worktree, resolved.worktreePath = some worktree → worktree = evidence.worktree
  manager_worktree : context.worktreePath = evidence.worktree
  branch_named : resolved.branch = some evidence.branch ∨
    context.branchName = some evidence.branch
  task_branch : ∀ branch, resolved.branch = some branch → branch = evidence.branch
  manager_branch : ∀ branch, context.branchName = some branch → branch = evidence.branch
  base_eq : evidence.baseRevision = some task.baseCommit
  complete : evidence.complete = true
  active : evidence.sessionState = "active"
  baseRevisionProven : evidence.baseRevisionProven = true
  evidenceHash_ne : evidence.evidenceHash ≠ ""

variable {Store : Type} {input : ExecutionAdmissionInput Store}
variable {diagnostics : List ExecutionAdmissionDiagnostic} {attachment : ExecutionRuntimeAttachment}
variable {manifest : ExecutionManifest} {evidence : NawabariRepositoryEvidence}
variable {context : ManagerExecutionContext} {intent : ExecutionManifestInput}

theorem failure_ne_success {status : ExecutionManifestAttachmentStatus} {why : String}
    {diagnostics' : List ExecutionAdmissionDiagnostic} :
    failure input intent diagnostics status why ≠
      .ok (.success manifest attachment diagnostics') := by
  intro h
  obtain ⟨failed, -, heq⟩ := map_eq_ok.mp h
  cases heq

theorem managerIdentity_eq {manager : Option Manager}
    (h : (managerIdentity manager).context = some context) :
    managerIdentity manager = contextIdentity context := by
  cases manager with
  | none => cases h
  | some manager =>
    cases manager with
    | identity identity => cases h
    | session session =>
      obtain rfl : session.toManagerExecutionContext = context := Option.some.inj h
      rfl
    | context context' =>
      obtain rfl : context' = context := Option.some.inj h
      rfl

theorem agreement_of_diagnostics {task : Task} (hprior : priorDiagnostics input = [])
    (htask : (resolveTask input).1.task = some task)
    (hcontext : (admittedManager input).context = some context)
    (hcomplete : completenessDiagnostics evidence = [])
    (hcompare : compareEvidence evidence
      ((uniqueSessionIds (resolveTask input).1.task (admittedManager input)).headD "")
      (((resolveTask input).1.worktreePath.or (admittedManager input).worktreePath).getD "")
      (((resolveTask input).1.branch.or (admittedManager input).branch).getD "")
      ((resolveTask input).1.task.map (·.baseCommit)) = []) :
    Agreement (resolveTask input).1 task context evidence := by
  have hmanager : admittedManager input = contextIdentity context := managerIdentity_eq hcontext
  simp only [priorDiagnostics, identityDiagnostics, sessionDiagnostics, physicalDiagnostics,
    List.append_eq_nil_iff, diagnoseUnless_eq_nil, decide_eq_true_eq, Bool.and_eq_true] at hprior
  obtain ⟨⟨⟨⟨-, ⟨⟨-, -⟩, -⟩, hmanagerTask⟩, hne, hlength⟩, ⟨⟨-, hbranchSome⟩, hworktrees⟩,
    hbranches⟩, -⟩ := hprior
  simp only [compareEvidence, List.append_eq_nil_iff, diagnoseUnless_eq_nil,
    decide_eq_true_eq] at hcompare
  obtain ⟨⟨⟨hsession, hworktree⟩, hbranch⟩, hbase⟩ := hcompare
  simp only [completenessDiagnostics, diagnoseUnless_eq_nil, Bool.and_eq_true,
    decide_eq_true_eq] at hcomplete
  obtain ⟨⟨⟨hcomplete, hactive⟩, hproven⟩, hhash⟩ := hcomplete
  obtain ⟨hnamed, htaskSession, hmanagerSession⟩ := session_eq_headD hne hlength
  rw [← hsession] at hnamed htaskSession hmanagerSession
  rw [hmanager] at hbranchSome
  rw [hmanager] at hmanagerTask hmanagerSession hnamed hworktrees hworktree hbranches hbranch
  rw [htask] at hmanagerTask hbase hnamed htaskSession
  have hworktreeEq : context.worktreePath = evidence.worktree := by
    cases hresolved : (resolveTask input).1.worktreePath with
    | none => simpa [hresolved, contextIdentity] using hworktree.symm
    | some worktree =>
      have heq := eq_of_compatible hworktrees hresolved rfl
      rw [hresolved] at hworktree
      exact heq.symm.trans hworktree.symm
  exact
    { task_eq := htask
      manager_task := fun taskId hid => eq_of_compatible hmanagerTask hid rfl
      session_named := hnamed
      task_session := htaskSession
      manager_session := hmanagerSession
      task_worktree := fun worktree hw =>
        (eq_of_compatible hworktrees hw rfl).trans hworktreeEq
      manager_worktree := hworktreeEq
      branch_named := by
        cases hresolved : (resolveTask input).1.branch with
        | some branch =>
          rw [hresolved] at hbranch
          exact .inl (congrArg some hbranch.symm)
        | none =>
          rw [hresolved] at hbranch hbranchSome
          obtain ⟨branch, hname⟩ := Option.isSome_iff_exists.mp hbranchSome
          have hname' : context.branchName = some branch := hname
          have hbranch' : evidence.branch = (context.branchName).getD "" := hbranch
          rw [hname'] at hbranch' ⊢
          exact .inr (congrArg some hbranch'.symm)
      task_branch := by
        intro branch hname
        rw [hname] at hbranch
        exact hbranch.symm
      manager_branch := by
        intro branch hname
        cases hresolved : (resolveTask input).1.branch with
        | some taskBranch =>
          have heq := eq_of_compatible hbranches hresolved hname
          rw [hresolved] at hbranch
          exact heq.symm.trans hbranch.symm
        | none =>
          rw [hresolved] at hbranch
          have hbranch' : evidence.branch = (context.branchName).getD "" := hbranch
          rw [hname] at hbranch'
          exact hbranch'.symm
      base_eq := by simpa using hbase
      complete := hcomplete
      active := hactive
      baseRevisionProven := hproven
      evidenceHash_ne := hhash }

theorem physical_of_createExecutionManifest {localeCompare : String → String → Ordering}
    {physical : ExecutionManifestPhysicalAttachment}
    (h : createExecutionManifest localeCompare { intent with
      nawabari := some { authority := "nawabari", evidence := some evidence, status := none
                         reason := none } } = .ok manifest)
    (hphysical : manifest.attachment.physical = some physical) :
    physical.sessionId = evidence.sessionId ∧ physical.worktree = evidence.worktree ∧
      physical.branch = evidence.branch ∧ physical.sessionState = evidence.sessionState := by
  obtain ⟨_, -, h⟩ := bind_eq_ok.mp h
  obtain ⟨task, -, h⟩ := bind_eq_ok.mp h
  obtain ⟨manager, -, h⟩ := bind_eq_ok.mp h
  obtain ⟨canon, -, h⟩ := bind_eq_ok.mp h
  obtain ⟨plan, -, h⟩ := bind_eq_ok.mp h
  obtain ⟨_, -, h⟩ := bind_eq_ok.mp h
  obtain ⟨attachment, hnormalized, h⟩ := bind_eq_ok.mp h
  obtain ⟨diagnostics, -, h⟩ := bind_eq_ok.mp h
  obtain rfl := Except.ok.inj h
  obtain ⟨_, -, hnormalized⟩ := bind_eq_ok.mp hnormalized
  obtain ⟨_, -, hnormalized⟩ := bind_eq_ok.mp hnormalized
  obtain ⟨hash, -, hnormalized⟩ := bind_eq_ok.mp hnormalized
  obtain ⟨branchId, -, hnormalized⟩ := bind_eq_ok.mp hnormalized
  obtain ⟨reasons, -, hnormalized⟩ := bind_eq_ok.mp hnormalized
  obtain rfl := Except.ok.inj hnormalized
  simp only at hphysical
  split_ifs at hphysical
  obtain rfl := Option.some.inj hphysical
  exact ⟨rfl, rfl, rfl, rfl⟩

/-- What an admission rests on: evidence that was read afresh, that agrees with the task and the
Manager, and whose projection is returned. -/
structure AdmittedOn (input : ExecutionAdmissionInput Store) (manifest : ExecutionManifest)
    (attachment : ExecutionRuntimeAttachment) (evidence : NawabariRepositoryEvidence) : Prop where
  evidence_eq : input.nawabari evidence.worktree evidence.sessionId = .ok evidence
  agreement : ∃ task context, (admittedManager input).context = some context ∧
    Agreement (resolveTask input).1 task context evidence ∧
    (∀ validate, input.managerAuthority = some validate → validate context = .ok (.ok ())) ∧
    ∀ taskId, input.taskId = some taskId → taskId = task.taskId
  manifest_complete : manifest.diagnostics.completeness = .complete ∧
    manifest.attachment.status = .attached
  attachment_eq : ∃ physical, manifest.attachment.physical = some physical ∧
    attachment = runtimeAttachment physical
  evidence_attached : ∀ localeCompare,
    input.projectManifest = createExecutionManifest localeCompare →
    attachment.sessionId = evidence.sessionId ∧ attachment.worktree = evidence.worktree ∧
      attachment.branch = evidence.branch ∧ attachment.sessionState = evidence.sessionState

theorem attachManifest_success {manifest manifest' : ExecutionManifest}
    (h : attachManifest manifest = .ok (.success manifest' attachment diagnostics)) :
    manifest' = manifest ∧ manifest.diagnostics.completeness = .complete ∧
      manifest.attachment.status = .attached ∧
      ∃ physical, manifest.attachment.physical = some physical ∧
        attachment = runtimeAttachment physical := by
  unfold attachManifest at h
  split_ifs at h with hrefused
  · cases h
  rw [not_or, not_not, not_not] at hrefused
  cases hphysical : manifest.attachment.physical with
  | none =>
    rw [hphysical] at h
    cases h
  | some physical =>
    rw [hphysical] at h
    obtain ⟨rfl, rfl, -⟩ := ExecutionAdmissionResult.success.inj (Except.ok.inj h)
    exact ⟨rfl, hrefused.1, hrefused.2, physical, rfl, rfl⟩

theorem admittedOn_of_success
    (h : admitExecution input = .ok (.success manifest attachment diagnostics)) :
    ∃ evidence, AdmittedOn input manifest attachment evidence := by
  unfold admitExecution at h
  simp only [ne_eq, ite_not] at h
  by_cases hprior : priorDiagnostics input = []
  swap
  · rw [if_neg hprior] at h
    exact absurd h failure_ne_success
  rw [if_pos hprior] at h
  unfold admitIdentified at h
  simp only at h
  cases hevidence : input.nawabari
      (((resolveTask input).1.worktreePath.or (admittedManager input).worktreePath).getD "")
      ((uniqueSessionIds (resolveTask input).1.task (admittedManager input)).headD "") with
  | error message =>
    rw [hevidence] at h
    exact absurd h failure_ne_success
  | ok evidence =>
    rw [hevidence] at h
    simp only [ne_eq, ite_not] at h
    split_ifs at h with hnothing
    · obtain ⟨hcomplete, hcompare⟩ := List.append_eq_nil_iff.mp hnothing
      have hnamed := hprior
      simp only [priorDiagnostics, identityDiagnostics, List.append_eq_nil_iff,
        diagnoseUnless_eq_nil] at hnamed
      obtain ⟨⟨⟨⟨-, ⟨⟨htask, hcontext⟩, htaskId⟩, -⟩, -⟩, -⟩, hvalid⟩ := hnamed
      obtain ⟨task, htask⟩ := Option.isSome_iff_exists.mp htask
      obtain ⟨context, hcontext⟩ := Option.isSome_iff_exists.mp hcontext
      have hagreement := agreement_of_diagnostics hprior htask hcontext hcomplete hcompare
      simp only [compareEvidence, List.append_eq_nil_iff, diagnoseUnless_eq_nil,
        decide_eq_true_eq] at hcompare
      obtain ⟨⟨⟨hsession, hworktree⟩, -⟩, -⟩ := hcompare
      rw [← hsession, ← hworktree] at hevidence
      unfold projectAdmitted at h
      cases hmanifest : input.projectManifest
          { manifestIntent input (resolveTask input).1 (admittedManager input) with
            nawabari := some { authority := "nawabari", evidence := some evidence, status := none
                               reason := none } } with
      | error message =>
        rw [hmanifest] at h
        exact absurd h failure_ne_success
      | ok projected =>
        rw [hmanifest] at h
        obtain ⟨rfl, hcomplete, hattached, physical, hphysical, rfl⟩ := attachManifest_success h
        refine ⟨evidence, ?_⟩
        exact
          { evidence_eq := hevidence
            agreement := by
              refine ⟨task, context, hcontext, hagreement, ?_, ?_⟩
              · intro validate hvalidate
                rw [validationDiagnostics, hvalidate, hcontext] at hvalid
                cases hresult : validate context with
                | error message => simp [hresult] at hvalid
                | ok result =>
                  cases result with
                  | error detail => simp [hresult] at hvalid
                  | ok u => rfl
              · intro taskId hid
                rw [htask] at htaskId
                exact eq_of_compatible htaskId hid rfl
            manifest_complete := ⟨hcomplete, hattached⟩
            attachment_eq := ⟨physical, hphysical, rfl⟩
            evidence_attached := by
              intro localeCompare hproject
              rw [hproject] at hmanifest
              exact physical_of_createExecutionManifest hmanifest hphysical }
    · exact absurd h failure_ne_success

def redirect (input : ExecutionAdmissionInput Store) (callerCwd : Option String)
    (attachment : ExecutionManifestAttachment) : ExecutionAdmissionInput Store :=
  { input with
    callerCwd := callerCwd
    manifest := input.manifest.map fun m => { m with attachment := attachment } }

theorem previousTask_redirect (input : ExecutionAdmissionInput Store) (callerCwd : Option String)
    (attachment : ExecutionManifestAttachment) :
    previousTask (redirect input callerCwd attachment) = previousTask input := by
  cases hmanifest : input.manifest with
  | none => simp [previousTask, redirect, hmanifest]
  | some manifest => simp [previousTask, redirect, hmanifest]

theorem previousManager_redirect (input : ExecutionAdmissionInput Store)
    (callerCwd : Option String) (attachment : ExecutionManifestAttachment) :
    previousManager (redirect input callerCwd attachment) = previousManager input := by
  cases hmanifest : input.manifest with
  | none => simp [previousManager, redirect, hmanifest]
  | some manifest => simp [previousManager, redirect, hmanifest]

theorem manifestIntent_redirect (input : ExecutionAdmissionInput Store)
    (callerCwd : Option String) (attachment : ExecutionManifestAttachment)
    (resolved : ResolvedTask) (manager : ManagerIdentity) :
    manifestIntent (redirect input callerCwd attachment) resolved manager =
      manifestIntent input resolved manager := by
  unfold manifestIntent
  rw [previousTask_redirect, previousManager_redirect]
  cases hmanifest : input.manifest with
  | none => simp [redirect, hmanifest]
  | some manifest => simp [redirect, hmanifest]

theorem resolveTask_redirect (input : ExecutionAdmissionInput Store) (callerCwd : Option String)
    (attachment : ExecutionManifestAttachment) :
    resolveTask (redirect input callerCwd attachment) = resolveTask input := by
  have hsupplied : suppliedTask (redirect input callerCwd attachment) = suppliedTask input := by
    unfold suppliedTask
    rw [previousTask_redirect]
    rfl
  unfold resolveTask resolveById
  rw [hsupplied]
  rfl

theorem admittedManager_redirect (input : ExecutionAdmissionInput Store)
    (callerCwd : Option String) (attachment : ExecutionManifestAttachment) :
    admittedManager (redirect input callerCwd attachment) = admittedManager input := by
  unfold admittedManager
  rw [previousManager_redirect]
  rfl

theorem admitExecution_redirect (input : ExecutionAdmissionInput Store)
    (callerCwd : Option String) (attachment : ExecutionManifestAttachment) :
    admitExecution (redirect input callerCwd attachment) = admitExecution input := by
  have hprior : priorDiagnostics (redirect input callerCwd attachment) =
      priorDiagnostics input := by
    unfold priorDiagnostics
    rw [resolveTask_redirect, admittedManager_redirect]
    rfl
  unfold admitExecution admitIdentified
  rw [resolveTask_redirect, admittedManager_redirect, hprior]
  simp only [manifestIntent_redirect]
  rfl

/-- An admission rests on fresh evidence that agrees with the task and the Manager and is
complete, and neither the directory of the caller nor the attachment in a manifest changes it. -/
theorem admitExecution_sound (input : ExecutionAdmissionInput Store) :
    (∀ manifest attachment diagnostics,
      admitExecution input = .ok (.success manifest attachment diagnostics) →
        ∃ evidence, AdmittedOn input manifest attachment evidence) ∧
    ∀ callerCwd attachment,
      admitExecution (redirect input callerCwd attachment) = admitExecution input :=
  ⟨fun _ _ _ h => admittedOn_of_success h, admitExecution_redirect input⟩

end Soundness

section Runs

def governedTask (nawabariSessionId : Option String) : Task :=
  { taskId := "task-953", instanceId := "instance-953", taskSlug := "issue-953"
    issueRef := some "#953", nawabariSessionId := nawabariSessionId, lifecycleState := "active"
    baseBranch := "main", baseCommit := "base-953" }

def managedContext : ManagerExecutionContext :=
  { taskId := some "task-953", executionSessionId := some "session-953", worktreeId := none
    worktreePath := "/managed/worktree", branchName := some "feat/953", taskSlug := some "issue-953"
    issueRef := some "#953", branchType := some "feat", semanticLifecycleState := "active" }

def freshEvidence : NawabariRepositoryEvidence :=
  { schemaVersion := 1, repository := "/managed/repository/.git", worktree := "/managed/worktree"
    branchId := "branch-953", branch := "feat/953", sessionId := "session-953"
    sessionState := "active", sessionCreatedAt := "2026-09-22T00:00:00Z"
    sessionUpdatedAt := "2026-09-22T00:00:01Z", baseRevision := some "base-953"
    baseRevisionProven := true, head := "head-953", clean := true, complete := true
    incompleteReasons := [], evidenceHash := "evidence-953" }

def declaredPlan : SemanticExecutionPlan :=
  { schemaVersion := 1, semanticTargets := []
    claims := [{ resource := "src/manager", mode := "exclusive-write" }]
    claimGeneration := { strategy := "declared", reason := "declared", source := "explicit-claims"
                         warnings := [] }
    verification := { requiredChecks := [], rationale := "admission proof" } }

def governedInput (nawabariSessionId : Option String) : ExecutionAdmissionInput Unit :=
  { taskId := none, task := some (governedTask nawabariSessionId), taskProjection := none
    store := none, resolveTaskStatus := none, manager := some (.context managedContext)
    managerAuthority := none, nawabari := fun _ _ => .ok freshEvidence
    projectManifest := createExecutionManifest compare
    canon := some (.identities "prefix-953" "state-953"), semanticPlan := some declaredPlan
    scope := none, manifest := none, callerCwd := some "/caller" }

def isSuccess : Except String ExecutionAdmissionResult → Bool
  | .ok (.success _ _ _) => true
  | _ => false

theorem eq_success_of_isSuccess {result : Except String ExecutionAdmissionResult}
    (h : isSuccess result = true) :
    ∃ manifest attachment diagnostics, result = .ok (.success manifest attachment diagnostics) := by
  cases result with
  | error message => cases h
  | ok result =>
    cases result with
    | failure manifest diagnostics => cases h
    | success manifest attachment diagnostics => exact ⟨manifest, attachment, diagnostics, rfl⟩

theorem admitExecution_sound_governed :
    ∃ manifest attachment evidence,
      AdmittedOn (governedInput (some "session-953")) manifest attachment evidence := by
  have hsuccess : isSuccess (admitExecution (governedInput (some "session-953"))) = true := by
    decide
  obtain ⟨manifest, attachment, diagnostics, h⟩ := eq_success_of_isSuccess hsuccess
  exact ⟨manifest, attachment,
    (admitExecution_sound (governedInput (some "session-953"))).1 manifest attachment diagnostics h⟩

/-- A task that names no session is admitted in the session that the Manager names. -/
theorem task_without_session_admitted :
    isSuccess (admitExecution (governedInput none)) = true ∧
      (governedTask none).nawabariSessionId ≠ some freshEvidence.sessionId := by
  decide

end Runs

end Mottainai.ExecutionAdmission

import Mathlib
import Mottainai.TsukaiStarterSafety

/-!
# The runs of a Manager session

The operations of the Manager service on one session whose agent is Pi and whose runs are kept by
Tsukai, queued by `withSessionOperation`. The branches for sessions with a Zellij runtime are not in
the model. An idempotent retry of a start is a `get` followed by a `restart`. Every run of the
session belongs to an attempt that has begun, the runs of all earlier attempts have ended, and no
attempt has two.
-/

namespace Mottainai.ManagerAgentRuns

open Interleaving JavaScriptValues TsukaiRuns ManagerSession ManagerOperations TsukaiStarter

/-- `new ManagerError(code, message, statusCode)`. -/
def newManagerError (code : ManagerErrorCode) (message : String) (statusCode : ℕ) : Failure :=
  .manager code (boundedStatus message) statusCode

def throwManagerError {α : Type} (code : ManagerErrorCode) (message : String) (statusCode : ℕ) :
    Managing α :=
  throw (newManagerError code message statusCode)

/-- `validateInstruction`, on a string. -/
def validateInstruction (value : String) : Except Failure String :=
  if isBlank value then
    .error (newManagerError .invalidRequest "instruction is required" 400)
  else if utf16Length value > maxInstructionLength then
    .error (newManagerError .invalidRequest
      s!"instruction must be at most {maxInstructionLength} characters" 400)
  else if '\x00' ∈ value.toList then
    .error (newManagerError .invalidRequest "instruction contains an unsupported NUL character" 400)
  else .ok value

/-- `validateControlDirective`, on a string. -/
def validateControlDirective (value : String) : Except Failure String :=
  if isBlank value ∨ utf16Length value > 4096 ∨ '\x00' ∈ value.toList then
    .error (newManagerError .invalidRequest "directive is invalid" 400)
  else .ok value

/-- `agentRunStatus`. -/
def agentRunStatus (snapshot : RunSnapshot) : String :=
  let facts := [s!"semantic {snapshot.semantic}", s!"activity {snapshot.activity}"] ++
    (snapshot.outcome.elim [] fun outcome => [s!"outcome {outcome.text}"]) ++
    (if snapshot.completeness = .incomplete then ["evidence incomplete"] else []) ++
    (snapshot.recoveryGaps.elim [] fun gaps => if 0 < gaps then [s!"{gaps} recovery gap(s)"] else [])
  let joined := ", ".intercalate facts
  boundedStatus s!"Tsukai AgentRun {snapshot.agentRunId} is {snapshot.lifecycle.text} ({joined})"

def outcomeState : RunOutcome → ManagerSessionLifecycleState
  | .completed => .exited
  | .cancelled => .stopped
  | .other _ => .failed

/-- `agentRunSessionPatch`; the receipt is recorded a moment after the patch was begun. -/
def agentRunSessionPatch (session : ManagerSessionRecord) (snapshot : RunSnapshot)
    (now recordedAt : ℤ) : UpdateManagerSessionInput :=
  let detail := agentRunStatus snapshot
  let uncertain : UpdateManagerSessionInput :=
    { runtimeState := some .stale
      attachable := some false
      reconciliationState := some .unresolved
      reconciliationMessage := some (some detail)
      latestStatus := some (some detail)
      latestReceipt := some (receipt "agent_run_uncertain" detail .runtime recordedAt)
      runtimeObservedAt := some (some now) }
  match snapshot.lifecycle, snapshot.outcome with
  | .accepted, _ | .starting, _ =>
    { lifecycleState := some .starting
      runtimeState := some .starting
      attachable := some false
      reconciliationState := some .synced
      reconciliationMessage := some none
      latestStatus := some (some detail)
      terminationState := some .running
      finishedAt := some none
      runtimeObservedAt := some (some now) }
  | .running, _ | .stopping, _ =>
    { lifecycleState := some .running
      runtimeState := some .running
      attachable := some false
      reconciliationState := some .synced
      reconciliationMessage := some none
      latestStatus := some (some detail)
      terminationState := some .running
      finishedAt := some none
      runtimeObservedAt := some (some now) }
  | .terminal, some outcome =>
    let state := outcomeState outcome
    let complete := decide (snapshot.completeness = .complete)
    { lifecycleState := some state
      runtimeState := some state.runtimeState
      attachable := some false
      reconciliationState := some (if complete then .synced else .drifted)
      reconciliationMessage := some (if complete then none else some detail)
      latestStatus := some (some detail)
      latestReceipt := some (receipt s!"agent_run_{outcome.text}" detail .runtime recordedAt)
      terminationState := some state.terminationState
      finishedAt := some (some (session.finishedAt.getD now))
      exitCode := some snapshot.exitCode
      errorMessage := some (if state = .failed then
        some (boundedStatus (snapshot.reason.getD detail)) else none)
      runtimeObservedAt := some (some now) }
  | .terminal, none => uncertain
  | .other _, _ => uncertain

/-- `AgentRunEvidence`: Tsukai showed the run of the attempt, or answered that it holds
none, or gave no answer. -/
inductive AgentRunEvidence where
  | held (snapshot : RunSnapshot)
  | absent
  | unavailable (reason : String)
  deriving DecidableEq, Repr

/-- What `openTsukai` makes of the failure of its factory. -/
def tsukaiUnavailable (failure : Failure) : Failure :=
  newManagerError .runtimeError s!"Tsukai AgentRun runtime is unavailable: {failure.message}" 503

/-- `openTsukai`. -/
def openTsukai : Managing Unit := do
  let handle ← request Operation.tsukaiHandle
  if handle then pure ()
  else tryCatch (request Operation.connectTsukai) (fun failure => throw (tsukaiUnavailable failure))

/-- `requireSession`. -/
def requireSession (sessionId : String) : Managing ManagerSessionRecord := do
  let session ← request (Operation.getManagerSession sessionId)
  match session with
  | some session => pure session
  | none => throwManagerError .sessionNotFound s!"manager session not found: {sessionId}" 404

/-- `readAgentRunEvidence`. -/
def readAgentRunEvidence (session : ManagerSessionRecord) : Managing AgentRunEvidence := do
  let startKey ← tsukaiStartKey session.sessionId session.restartCount
  let handle ← request Operation.tsukaiHandle
  if ¬ handle then pure (.unavailable "Tsukai AgentRun runtime is not connected")
  else do
    let correlation ← request (Operation.store (.getTsukaiRunCorrelation startKey))
    match correlation with
    | none => pure (.unavailable "no Tsukai AgentRun is correlated with this attempt")
    | some correlation =>
      match correlation.agentRunId with
      | none => pure (.unavailable "Tsukai AgentRun creation is not yet confirmed for this attempt")
      | some agentRunId =>
        tryCatch (do
            let snapshot ← request (Operation.get agentRunId)
            pure (.held snapshot))
          (fun failure => pure (.unavailable (boundedStatus
            s!"Tsukai AgentRun {agentRunId} evidence is unavailable: {failure.message}")))

/-- `applyReconciliationPatch`. -/
def applyReconciliationPatch (session : ManagerSessionRecord) (patch : UpdateManagerSessionInput) :
    Managing ManagerSessionRecord :=
  if ¬ reconciliationPatchIsNoop session patch then
    request (Operation.updateManagerSession session.sessionId patch)
  else match patch.runtimeObservedAt with
    | some (some observedAt) =>
      if session.runtimeObservedAt.all (· < observedAt) then
        request (Operation.checkpointRuntimeObservedAt session.sessionId observedAt)
      else pure session
    | _ => pure session

/-- `admitPiExecution`. -/
def admitPiExecution : Managing ExecutionManifest := do
  let result ← request Operation.admitExecution
  match result with
  | .ok manifest => pure manifest
  | .error messages =>
    let joined := "; ".intercalate messages
    throwManagerError .executionUnresolved
      (if joined = "" then "execution admission failed" else joined) 409

def launchFailedPatch (code : String) (failure : Failure) (recordedAt finishedAt : ℤ) :
    UpdateManagerSessionInput where
  lifecycleState := some .failed
  runtimeState := some .failed
  attachable := some false
  reconciliationState := some .unresolved
  reconciliationMessage := some (some failure.message)
  latestStatus := some (some failure.message)
  latestReceipt := some (receipt code failure.message .runtime recordedAt)
  terminationState := some .failed
  errorMessage := some (some failure.message)
  finishedAt := some (some finishedAt)

/-- The handler around a launch: the failure is recorded and thrown on. -/
def recordLaunchFailure {α : Type} (sessionId code : String) (failure : Failure) : Managing α := do
  let recordedAt ← request Operation.now
  let finishedAt ← request Operation.now
  let _ ← request (Operation.updateManagerSession sessionId
    (launchFailedPatch code (managerError failure) recordedAt finishedAt))
  throw (managerError failure)

structure ManagerOptions where
  piCommand : String
  piBaseArgs : List String
  listPages : ℕ
  deriving DecidableEq, Repr

section Service

variable (options : ManagerOptions)

/-- `reconcileAgentRunEvidence`. -/
def reconcileAgentRunEvidence (session : ManagerSessionRecord) : Managing AgentRunEvidence := do
  let startKey ← tsukaiStartKey session.sessionId session.restartCount
  tryCatch (do
      openTsukai
      tryCatch (do
          let snapshot ← recover options.listPages startKey session.sessionId
          match snapshot with
          | none => pure .absent
          | some snapshot => pure (.held snapshot))
        (fun failure => pure (.unavailable (boundedStatus
          s!"Tsukai AgentRun evidence is unavailable: {failure.message}"))))
    (fun failure => pure (.unavailable failure.message))

/-- The last step of `startAgentRun`: what Tsukai shows of the run is recorded. -/
def recordStarted (session : ManagerSessionRecord) (started : TsukaiAgentRunStartResult) :
    Managing ManagerSessionRecord := do
  let detail := agentRunStatus started.snapshot
  let now ← request Operation.now
  let recordedAt ← request Operation.now
  let code := if started.created then "agent_run_created" else "agent_run_recovered"
  request (Operation.updateManagerSession session.sessionId
    { agentRunSessionPatch session started.snapshot now recordedAt with
      latestReceipt := some (receipt code detail .runtime recordedAt) })

/-- `startAgentRun`. -/
def startAgentRun (session : ManagerSessionRecord) : Managing ManagerSessionRecord := do
  let manifest ← admitPiExecution
  request (Operation.rememberPiManifest manifest)
  openTsukai
  request (Operation.check .piExecutionContext)
  let startKey ← tsukaiStartKey session.sessionId session.restartCount
  let started ← startOnce options.listPages
    ⟨startKey, session.sessionId, session.agentKind, manifest, session.instruction⟩
  recordStarted session started

/-- `runtimeTerminal`. -/
def runtimeTerminal (session : ManagerSessionRecord) : Bool :=
  session.runtimeState = .exited || session.runtimeState = .stopped ||
    session.runtimeState = .failed

def absentPatch (session : ManagerSessionRecord) (semantic : SemanticLifecycleState)
    (recordedAt now : ℤ) : UpdateManagerSessionInput :=
  let detail :=
    s!"Tsukai holds no AgentRun for launch attempt {session.restartCount}; no run was created"
  { lifecycleState := some .failed
    runtimeState := some .failed
    semanticLifecycleState := some semantic
    attachable := some false
    reconciliationState := some .unresolved
    reconciliationMessage := some (some detail)
    latestStatus := some (some detail)
    latestReceipt := some (receipt "agent_run_absent" detail .runtime recordedAt)
    terminationState := some .failed
    errorMessage := some (some detail)
    finishedAt := some (some (session.finishedAt.getD now)) }

/-- The patch that keeps the runtime and records the workflow. -/
def semanticPatch (semantic : SemanticLifecycleState) (status : Option String)
    (semanticReceipt : Option ManagerSessionReceipt) : UpdateManagerSessionInput where
  semanticLifecycleState := some semantic
  latestStatus := status.map some
  latestReceipt := semanticReceipt

def unavailablePatch (semantic : SemanticLifecycleState) (detail : String) :
    UpdateManagerSessionInput where
  semanticLifecycleState := some semantic
  reconciliationState := some .unresolved
  reconciliationMessage := some (some detail)
  latestStatus := some (some detail)

/-- `reconcileAgentRunSession`. -/
def reconcileAgentRunSession (session : ManagerSessionRecord) (semantic : SemanticLifecycleState)
    (status : Option String) (semanticReceipt : Option ManagerSessionReceipt) :
    Managing ManagerSessionRecord := do
  let evidence ← reconcileAgentRunEvidence options session
  match evidence with
  | .held snapshot => do
    let now ← request Operation.now
    let recordedAt ← request Operation.now
    let patch := agentRunSessionPatch session snapshot now recordedAt
    applyReconciliationPatch session
      { patch with
        semanticLifecycleState := some semantic
        latestReceipt := patch.latestReceipt.or semanticReceipt }
  | .absent =>
    if runtimeTerminal session then
      applyReconciliationPatch session (semanticPatch semantic status semanticReceipt)
    else do
      let recordedAt ← request Operation.now
      let now ← request Operation.now
      applyReconciliationPatch session (absentPatch session semantic recordedAt now)
  | .unavailable reason =>
    if runtimeTerminal session then
      applyReconciliationPatch session (semanticPatch semantic status semanticReceipt)
    else
      applyReconciliationPatch session (unavailablePatch semantic (boundedStatus reason))

/-- What a reconciliation takes of the observation, or of its failure. -/
def observeWorkflow (session : ManagerSessionRecord) :
    Managing (SemanticLifecycleState × Option String × Option ManagerSessionReceipt) :=
  tryCatch (do
      let observed ← request Operation.observe
      pure (observed.semanticLifecycleState,
        (observed.status.map boundedStatus).or session.latestStatus,
        observed.receipt.or session.latestReceipt))
    (fun failure => do
      let recordedAt ← request Operation.now
      let status := boundedStatus s!"workflow observation failed: {failure.message}"
      pure (session.semanticLifecycleState, some status,
        some (receipt "workflow_observation_failed" status .workflow recordedAt)))

/-- `reconcileOneUnlocked`. -/
def reconcileOneUnlocked (session : ManagerSessionRecord) : Managing ManagerSessionRecord := do
  let (semantic, status, semanticReceipt) ← observeWorkflow session
  reconcileAgentRunSession options session semantic status semanticReceipt

/-- `stopAgentRun`. -/
def stopAgentRun (session : ManagerSessionRecord) : Managing ManagerSessionRecord := do
  openTsukai
  let evidence ← reconcileAgentRunEvidence options session
  match evidence with
  | .absent =>
    throwManagerError .sessionNotRunning
      s!"no Tsukai AgentRun exists for launch attempt {session.restartCount}" 409
  | .unavailable reason => throwManagerError .sessionNotRunning reason 409
  | .held snapshot => do
    let cancelled ← request (Operation.cancel snapshot.agentRunId)
    let detail := agentRunStatus cancelled
    let now ← request Operation.now
    let recordedAt ← request Operation.now
    let patch := agentRunSessionPatch session cancelled now recordedAt
    request (Operation.updateManagerSession session.sessionId
      { patch with
        latestReceipt := patch.latestReceipt.or
          (some (receipt "agent_run_cancel_requested" detail .runtime recordedAt)) })

/-- `awaitAgentRunTerminal`. -/
def awaitAgentRunTerminal (session : ManagerSessionRecord) : Managing ManagerSessionRecord := do
  let evidence ← readAgentRunEvidence session
  match evidence with
  | .held snapshot =>
    if snapshot.lifecycle = .terminal then pure session
    else do
      tryCatch (request (Operation.wait snapshot.agentRunId)) (fun _ => pure ())
      let current ← requireSession session.sessionId
      reconcileOneUnlocked options current
  | _ => pure session

/-- `steerAgentRun`. -/
def steerAgentRun (session : ManagerSessionRecord) (directive : String) :
    Managing ManagerSessionRecord := do
  openTsukai
  let evidence ← reconcileAgentRunEvidence options session
  match evidence with
  | .absent => throwManagerError .sessionNotRunning "no Tsukai AgentRun exists" 409
  | .unavailable reason => throwManagerError .sessionNotRunning reason 409
  | .held snapshot =>
    tryCatch (do
        let never ← request (Operation.steer snapshot.agentRunId directive)
        nomatch never)
      (fun failure => match failure with
        | .capability message =>
          throwManagerError .agentRunCapabilityUnsupported (boundedStatus message) 409
        | failure => throw (managerError failure))

def retryPatch (session : ManagerSessionRecord) (recordedAt : ℤ) : UpdateManagerSessionInput :=
  let detail := "retry requested; creating a new Tsukai AgentRun"
  { lifecycleState := some .starting
    runtimeState := some .starting
    attachable := some false
    reconciliationState := some .drifted
    reconciliationMessage := some (some detail)
    latestStatus := some (some detail)
    latestReceipt := some (receipt "agent_run_retry_requested" detail .manager recordedAt)
    restartCount := some (session.restartCount + 1)
    terminationState := some .running
    errorMessage := some none
    finishedAt := some none
    exitCode := some none }

/-- `restartAgentRun`, once the evidence allows a retry. -/
def retryAgentRun (current : ManagerSessionRecord) : Managing ManagerSessionRecord := do
  let manifest ← request Operation.admittedPiManifest
  match manifest with
  | none =>
    throwManagerError .runtimeError ("admitted Pi execution context is unavailable in " ++
      "this Manager process; refusing an unadmitted retry") 503
  | some _ => do
    let validation ← request Operation.validate
    match validation with
    | some detail => throwManagerError .executionUnresolved detail 409
    | none => do
      let _ ← request Operation.configuredPiGuardPath
      let recordedAt ← request Operation.now
      let started ← request (Operation.updateManagerSession current.sessionId
        (retryPatch current recordedAt))
      tryCatch (startAgentRun options started)
        (recordLaunchFailure current.sessionId "agent_run_retry_failed")

/-- `restartAgentRun`. -/
def restartAgentRun (current : ManagerSessionRecord) : Managing ManagerSessionRecord := do
  let evidence ← reconcileAgentRunEvidence options current
  match evidence with
  | .unavailable reason => throwManagerError .sessionRestartRejected reason 409
  | .absent => retryAgentRun options current
  | .held snapshot =>
    if snapshot.lifecycle ≠ .terminal then
      throwManagerError .sessionRestartRejected
        (s!"the current Tsukai AgentRun is {snapshot.lifecycle.text}; " ++
          "a retry never overlaps or resurrects a run") 409
    else retryAgentRun options current

variable (sessionId : String)

/-- `get`, and the pass of a reconciliation over this session. -/
def get : Managing ManagerSessionRecord := do
  let session ← requireSession sessionId
  reconcileOneUnlocked options session

/-- `steer`. -/
def steer (directive : String) : Managing ManagerSessionRecord := do
  let boundedDirective ← validateControlDirective directive
  let current ← get options sessionId
  if current.runtimeState ≠ .running ∧ current.runtimeState ≠ .detached then
    throwManagerError .sessionNotRunning s!"session is not running: {sessionId}" 409
  else steerAgentRun options current boundedDirective

def isLive (session : ManagerSessionRecord) : Bool :=
  session.runtimeState = .running || session.runtimeState = .detached ||
    session.runtimeState = .starting

/-- `stopUnlocked`. -/
def stopUnlocked : Managing ManagerSessionRecord := do
  let session ← get options sessionId
  if isLive session then stopAgentRun options session else pure session

/-- `restartUnlocked`. -/
def restartUnlocked : Managing ManagerSessionRecord := do
  let current ← get options sessionId
  if isTerminalSemanticState current.semanticLifecycleState then
    throwManagerError .sessionRestartRejected
      (s!"cannot restart a session whose semantic task lifecycle is " ++
        current.semanticLifecycleState.text) 409
  else if isLive current then
    throwManagerError .sessionRestartRejected
      "restart is only valid for a non-running managed runtime" 409
  else do
    request (Operation.check .storedPiGuardInvocation)
    restartAgentRun options current

def stopBeforeContinue (current : ManagerSessionRecord) : Managing ManagerSessionRecord :=
  if isLive current then do
    let stopped ← stopUnlocked options sessionId
    awaitAgentRunTerminal options stopped
  else pure current

def followUpPatch (instruction : String) (launchArgs : List String) (recordedAt : ℤ) :
    UpdateManagerSessionInput where
  instruction := some instruction
  launchCommand := some options.piCommand
  launchArgs := some launchArgs
  latestStatus :=
    some (some "bounded follow-up recorded; relaunching the existing execution context")
  latestReceipt := some (receipt "follow_up_requested"
    "bounded follow-up recorded for the existing Manager session" .manager recordedAt)

/-- `continueWork`. -/
def continueWork (followUpInstruction : String) : Managing ManagerSessionRecord := do
  let followUp ← validateInstruction followUpInstruction
  let current ← get options sessionId
  if current.taskId = none ∨ current.semanticLifecycleState = .unbound then
    throwManagerError .sessionContinueRejected
      "continue requires an existing task-bound Manager session" 409
  else if ¬ isContinuableLifecycleState current.semanticLifecycleState then
    throwManagerError .sessionContinueRejected
      (s!"cannot continue a session whose semantic task lifecycle is " ++
        current.semanticLifecycleState.text) 409
  else do
    let current ← stopBeforeContinue options sessionId current
    let instruction ← validateInstruction
      (current.instruction ++ "\n\n--- Mottainai follow-up ---\n" ++ followUp)
    let piGuardPath ← request Operation.configuredPiGuardPath
    let recordedAt ← request Operation.now
    let _ ← request (Operation.updateManagerSession sessionId
      (followUpPatch options instruction
        (managerLaunchArgs options.piBaseArgs current.provider current.model piGuardPath instruction)
        recordedAt))
    restartUnlocked options sessionId

structure NewManagerSessionInput where
  instruction : String
  provider : Option String := none
  model : Option String := none
  deriving DecidableEq, Repr

def newSession (input : NewManagerSessionInput) (instruction piGuardPath : String)
    (execution : StartedExecution) : CreateManagerSessionInput where
  sessionId := sessionId
  taskId := execution.taskId
  agentKind := .pi
  instruction := instruction
  provider := input.provider
  model := input.model
  launchCommand := options.piCommand
  launchArgs := managerLaunchArgs options.piBaseArgs input.provider input.model piGuardPath instruction
  semanticLifecycleState := execution.semanticLifecycleState
  latestStatus := some "execution context acquired; launching agent runtime"
  latestReceipt := execution.receipt

def executionUnavailablePatch (detail : String) (recordedAt finishedAt : ℤ) :
    UpdateManagerSessionInput where
  lifecycleState := some .failed
  runtimeState := some .failed
  reconciliationState := some .unresolved
  reconciliationMessage := some (some detail)
  latestStatus := some (some detail)
  latestReceipt := some (receipt "execution_unavailable" detail .workflow recordedAt)
  terminationState := some .failed
  errorMessage := some (some detail)
  finishedAt := some (some finishedAt)

/-- `start`, once its record was created. -/
def launch : Managing ManagerSessionRecord := do
  let validation ← request Operation.validate
  match validation with
  | some detail => do
    let recordedAt ← request Operation.now
    let finishedAt ← request Operation.now
    let _ ← request (Operation.updateManagerSession sessionId
      (executionUnavailablePatch (boundedStatus detail) recordedAt finishedAt))
    throwManagerError .worktreeMissing (boundedStatus detail) 409
  | none =>
    tryCatch (do
        let session ← request (Operation.getManagerSession sessionId)
        match session with
        | some session => startAgentRun options session
        | none => throw (.error "cannot read the session of a launch"))
      (recordLaunchFailure sessionId "agent_run_start_failed")

/-- `start`. What it does before it acquires the execution may only refuse the request. -/
def start (input : NewManagerSessionInput) : Managing ManagerSessionRecord := do
  let instruction ← validateInstruction input.instruction
  request (Operation.check .launchPreparation)
  let piGuardPath ← request Operation.configuredPiGuardPath
  let execution ← request Operation.startExecution
  request (Operation.insertManagerSession
    (newSession options sessionId input instruction piGuardPath execution))
  launch options sessionId

/-- `boot`: a Manager process that was started anew remembers nothing. -/
def boot : Managing Unit := request Operation.boot

end Service

inductive ManagerCall where
  | boot
  | start (input : NewManagerSessionInput)
  | get
  | steer (directive : String)
  | stop
  | restart
  | continueWork (followUp : String)

namespace ManagerCall

/-- The body of an operation; a new process has no record to answer. -/
def body (options : ManagerOptions) (sessionId : String) :
    ManagerCall → Managing (Option ManagerSessionRecord)
  | boot => do
    ManagerAgentRuns.boot
    pure none
  | start input => some <$> ManagerAgentRuns.start options sessionId input
  | get => some <$> ManagerAgentRuns.get options sessionId
  | steer directive => some <$> ManagerAgentRuns.steer options sessionId directive
  | stop => some <$> stopUnlocked options sessionId
  | restart => some <$> restartUnlocked options sessionId
  | continueWork followUp => some <$> ManagerAgentRuns.continueWork options sessionId followUp

def program (options : ManagerOptions) (sessionId : String) (call : ManagerCall) :
    Program Operation (fun operation => Except Failure operation.Value)
      (Except Failure (Option ManagerSessionRecord)) :=
  (call.body options sessionId).run

end ManagerCall

open TsukaiCorrelation

def attemptKey (sessionId : String) (attempt : ℕ) : String := s!"{sessionId}:attempt:{attempt}"

variable {sessionId : String}

theorem attemptKey_injective {m n : ℕ} (h : attemptKey sessionId m = attemptKey sessionId n) :
    m = n := by
  simpa [attemptKey] using h

theorem tsukaiStartKey_ok {sessionId startKey : String} {attempt : ℕ}
    (h : tsukaiStartKey sessionId attempt = .ok startKey) :
    startKey = attemptKey sessionId attempt := by
  unfold tsukaiStartKey at h
  split_ifs at h
  exact (Except.ok.inj h).symm

def OfAttempt (sessionId : String) (attempt : ℕ) (run : RunSnapshot) : Prop :=
  run.metadata.startKey = some (attemptKey sessionId attempt)

structure NoOverlap (sessionId : String) (world : World) : Prop where
  session : ∀ r, world.session = some r → r.sessionId = sessionId
  counted : ∀ run ∈ world.tsukai.runs, ∀ attempt, OfAttempt sessionId attempt run →
    ∃ r, world.session = some r ∧ attempt ≤ r.restartCount ∧
      (attempt < r.restartCount → run.lifecycle = .terminal)
  reserved : ∀ run ∈ world.tsukai.runs, ∀ attempt, OfAttempt sessionId attempt run →
    world.correlations.select (attemptKey sessionId attempt) ≠ none
  single : ∀ run ∈ world.tsukai.runs, ∀ run' ∈ world.tsukai.runs, ∀ attempt,
    OfAttempt sessionId attempt run → OfAttempt sessionId attempt run' → run = run'

def AllTerminal (sessionId : String) (world : World) : Prop :=
  ∀ run ∈ world.tsukai.runs, ∀ attempt, OfAttempt sessionId attempt run → run.lifecycle = .terminal

/-- The restart count does not fall, and the record stays. -/
def Advances (world world' : World) : Prop :=
  ∀ r, world.session = some r → ∃ r', world'.session = some r' ∧ r.restartCount ≤ r'.restartCount

theorem Advances.refl (world : World) : Advances world world := fun r hr => ⟨r, hr, le_rfl⟩

theorem Advances.trans {a b c : World} (hab : Advances a b) (hbc : Advances b c) :
    Advances a c := by
  intro r hr
  obtain ⟨r', hr', hle⟩ := hab r hr
  obtain ⟨r'', hr'', hle'⟩ := hbc r' hr'
  exact ⟨r'', hr'', hle.trans hle'⟩

def attemptOf (r : ManagerSessionRecord) : String × ℕ :=
  (r.sessionId, r.restartCount)

/-- No attempt begins and no run is created. -/
structure Steady (world world' : World) : Prop where
  session : world'.session.map attemptOf =
    world.session.map attemptOf
  tsukai : world.tsukai.Moves world'.tsukai
  correlations : Keeps world.correlations world'.correlations

section Steady

variable {sessionId : String} {world world' : World}

theorem Steady.refl (world : World) : Steady world world := ⟨rfl, .refl _, .refl _⟩

theorem Steady.trans {a b c : World} (hab : Steady a b) (hbc : Steady b c) : Steady a c :=
  ⟨hbc.session.trans hab.session, hab.tsukai.trans hbc.tsukai,
    .trans _ _ _ hab.correlations hbc.correlations⟩

theorem Steady.of_moves (h : world.Moves world') : Steady world world' := by
  refine ⟨by rw [h.session], h.tsukai, ?_⟩
  rw [h.correlations]
  exact .refl _

section

variable (h : Steady world world')
include h

theorem Steady.grows : Grows world world' :=
  .of_tsukai h.correlations h.tsukai

theorem Steady.startKeys : startKeys world' = startKeys world := by
  rw [startKeys_eq, startKeys_eq, h.tsukai.identities]

/-- The record afterwards is the one from before, up to its state. -/
theorem Steady.exists_before {r' : ManagerSessionRecord} (hr' : world'.session = some r') :
    ∃ r, world.session = some r ∧ r.sessionId = r'.sessionId ∧ r.restartCount = r'.restartCount := by
  have hsession := h.session
  rw [hr', Option.map_some] at hsession
  obtain ⟨r, hr, hattempt⟩ := Option.map_eq_some_iff.1 hsession.symm
  obtain ⟨hid, hcount⟩ := Prod.mk.inj hattempt
  exact ⟨r, hr, hid, hcount⟩

theorem Steady.exists_after {r : ManagerSessionRecord} (hr : world.session = some r) :
    ∃ r', world'.session = some r' ∧ r'.sessionId = r.sessionId ∧
      r'.restartCount = r.restartCount := by
  have hsession := h.session
  rw [hr, Option.map_some] at hsession
  obtain ⟨r', hr', hattempt⟩ := Option.map_eq_some_iff.1 hsession
  obtain ⟨hid, hcount⟩ := Prod.mk.inj hattempt
  exact ⟨r', hr', hid, hcount⟩

theorem Steady.advances : Advances world world' := by
  intro r hr
  obtain ⟨r', hr', -, hcount⟩ := h.exists_after hr
  exact ⟨r', hr', hcount.ge⟩

end

theorem OfAttempt.moved {attempt : ℕ} {run run' : RunSnapshot} (hmoves : run.Moves run')
    (h : OfAttempt sessionId attempt run') : OfAttempt sessionId attempt run :=
  hmoves.startKey.symm.trans h

theorem AllTerminal.steady (h : AllTerminal sessionId world) (hsteady : Steady world world') :
    AllTerminal sessionId world' := by
  intro run' hrun' attempt hattempt
  obtain ⟨run, hrun, hmoves⟩ := hsteady.tsukai.exists_before hrun'
  exact hmoves.terminal (h run hrun attempt (hattempt.moved hmoves))

theorem NoOverlap.steady (h : NoOverlap sessionId world) (hsteady : Steady world world') :
    NoOverlap sessionId world' where
  session r' hr' := by
    obtain ⟨r, hr, hid, -⟩ := hsteady.exists_before hr'
    exact hid.symm.trans (h.session r hr)
  counted run' hrun' attempt hattempt := by
    obtain ⟨run, hrun, hmoves⟩ := hsteady.tsukai.exists_before hrun'
    obtain ⟨r, hr, hle, hterminal⟩ := h.counted run hrun attempt (hattempt.moved hmoves)
    obtain ⟨r', hr', -, hcount⟩ := hsteady.exists_after hr
    refine ⟨r', hr', hcount ▸ hle, fun hlt => hmoves.terminal (hterminal ?_)⟩
    rwa [hcount] at hlt
  reserved run' hrun' attempt hattempt := by
    obtain ⟨run, hrun, hmoves⟩ := hsteady.tsukai.exists_before hrun'
    have hselect := h.reserved run hrun attempt (hattempt.moved hmoves)
    obtain ⟨row, hrow⟩ := Option.ne_none_iff_exists'.1 hselect
    obtain ⟨row', hrow', -⟩ := hsteady.correlations _ _ hrow
    simp [hrow']
  single run₁ hrun₁ run₂ hrun₂ attempt h₁ h₂ := by
    obtain ⟨run, hrun, hmoves⟩ := hsteady.tsukai.exists_before hrun₁
    obtain ⟨run', hrun', hmoves'⟩ := hsteady.tsukai.exists_before hrun₂
    obtain rfl := h.single run hrun run' hrun' attempt (h₁.moved hmoves) (h₂.moved hmoves')
    have hidentity := hmoves.identity.trans hmoves'.identity.symm
    exact Tsukai.eq_of_agentRunId hrun₁ hrun₂ (Prod.mk.inj hidentity).1

end Steady

def steady : Operation → Bool
  | .insertManagerSession _ | .create _ => false
  | .updateManagerSession _ input => input.restartCount.isNone
  | _ => true

theorem row_eq_some {world : World} {r : ManagerSessionRecord} :
    Operation.row world sessionId = some r ↔ world.session = some r ∧ r.sessionId = sessionId := by
  simp [Operation.row, Option.filter_eq_some_iff]

theorem exec_steady (operation : Operation) (world : World) (h : steady operation = true) :
    Steady world (operation.exec world).2 := by
  have hcreate : ∀ input, operation ≠ .create input := by
    rintro input rfl
    cases h
  refine ⟨?_, operation.exec_moves world hcreate, operation.exec_keeps world⟩
  by_cases hwrites : operation.writesSession = false
  · rw [operation.exec_session world hwrites]
  · cases operation with
    | insertManagerSession input => cases h
    | updateManagerSession sessionId input =>
      rcases Operation.updateRow_cases world sessionId _ with ⟨e, heq⟩ | ⟨current, hrow, heq⟩
      · rw [Operation.exec, heq]
      · rw [Operation.exec, heq, (row_eq_some.1 hrow).1]
        have hcount : input.restartCount = none := Option.isNone_iff_eq_none.1 h
        simp [attemptOf, UpdateManagerSessionInput.apply, hcount]
    | checkpointRuntimeObservedAt sessionId observedAt =>
      rcases Operation.updateRow_cases world sessionId _ with ⟨e, heq⟩ | ⟨current, hrow, heq⟩
      · rw [Operation.exec, heq]
      · rw [Operation.exec, heq, (row_eq_some.1 hrow).1]
        rfl
    | _ => exact absurd rfl hwrites

section Evidence

/-- The call has begun a launch: it has inserted the record, or claimed the next attempt. -/
def begins : (operation : Operation) × Except Failure operation.Value → Prop
  | ⟨.insertManagerSession _, .ok _⟩ => True
  | ⟨.updateManagerSession _ input, .ok _⟩ => input.restartCount ≠ none
  | _ => False

def LaunchBegun (l : ManagerAnswers) : Prop := ∃ answer ∈ l, begins answer

/-- Tsukai has answered that it holds no run for the attempt, or the attempt was not
even reserved. -/
def Absent (sessionId : String) (attempt : ℕ) (l : ManagerAnswers) : Prop :=
  ∃ l' rest, l = l' ++ rest ∧
    (Exhausted (attemptKey sessionId attempt) l' ∨ Unreserved (attemptKey sessionId attempt) l')

def ShownAs (sessionId : String) (attempt : ℕ) (p : RunSnapshot → Prop) (l : ManagerAnswers) :
    Prop :=
  ∃ snapshot, Shown snapshot l ∧ OfAttempt sessionId attempt snapshot ∧ p snapshot

/-- What a call must have been answered before it records a state. -/
def Backed (sessionId : String) (attempt : ℕ) (l : ManagerAnswers) :
    ManagerSessionLifecycleState → Prop
  | .starting => True
  | .running => ShownAs sessionId attempt
      (fun snapshot => snapshot.lifecycle = .running ∨ snapshot.lifecycle = .stopping) l
  | state => ShownAs sessionId attempt (fun snapshot => snapshot.lifecycle = .terminal ∧
        ∃ outcome, snapshot.outcome = some outcome ∧ outcomeState outcome = state) l ∨
      state = .failed ∧ (Absent sessionId attempt l ∨ LaunchBegun l)

def Sets (input : UpdateManagerSessionInput) (state : ManagerSessionLifecycleState) : Prop :=
  input.lifecycleState = some state ∨ input.runtimeState = some state.runtimeState

variable {sessionId : String} {attempt : ℕ} {l m : ManagerAnswers}

theorem Absent.mono (h : Absent sessionId attempt l) (hl : l <+: m) :
    Absent sessionId attempt m := by
  obtain ⟨l', rest, rfl, hend⟩ := h
  obtain ⟨rest', rfl⟩ := hl
  exact ⟨l', rest ++ rest', List.append_assoc .., hend⟩

theorem LaunchBegun.mono (h : LaunchBegun l) (hl : l <+: m) : LaunchBegun m := by
  obtain ⟨answer, hanswer, hbegins⟩ := h
  exact ⟨answer, hl.subset hanswer, hbegins⟩

variable {state state' : ManagerSessionLifecycleState}

theorem runtimeState_injective (h : state.runtimeState = state'.runtimeState) : state = state' := by
  cases state <;> cases state' <;> first | rfl | cases h

theorem Sets.eq {input : UpdateManagerSessionInput} (h : Sets input state)
    (hlifecycle : input.lifecycleState = some state')
    (hruntime : input.runtimeState = some state'.runtimeState) : state' = state := by
  rcases h with h | h
  · exact Option.some.inj (hlifecycle.symm.trans h)
  · exact runtimeState_injective (Option.some.inj (hruntime.symm.trans h))

theorem backed_agentRunSessionPatch {session : ManagerSessionRecord} {snapshot : RunSnapshot}
    {now recordedAt : ℤ} {state : ManagerSessionLifecycleState} (hshown : Shown snapshot l)
    (hattempt : OfAttempt sessionId attempt snapshot)
    (h : Sets (agentRunSessionPatch session snapshot now recordedAt) state) :
    Backed sessionId attempt l state := by
  unfold agentRunSessionPatch at h
  split at h
  · obtain rfl := h.eq rfl rfl
    trivial
  · obtain rfl := h.eq rfl rfl
    trivial
  · obtain rfl := h.eq rfl rfl
    exact ⟨snapshot, hshown, hattempt, Or.inl ‹_›⟩
  · obtain rfl := h.eq rfl rfl
    exact ⟨snapshot, hshown, hattempt, Or.inr ‹_›⟩
  · rename_i outcome hlifecycle houtcome
    obtain rfl := h.eq rfl rfl
    have hshownAs : ShownAs sessionId attempt (fun snapshot => snapshot.lifecycle = .terminal ∧
        ∃ o, snapshot.outcome = some o ∧ outcomeState o = outcomeState outcome) l :=
      ⟨snapshot, hshown, hattempt, hlifecycle, outcome, houtcome, rfl⟩
    cases outcome with
    | completed => exact Or.inl hshownAs
    | cancelled => exact Or.inl hshownAs
    | other text => exact Or.inl hshownAs
  · rcases h with h | h
    · cases h
    · cases state <;> cases h
  · rcases h with h | h
    · cases h
    · cases state <;> cases h

theorem agentRunSessionPatch_restartCount (session : ManagerSessionRecord) (snapshot : RunSnapshot)
    (now recordedAt : ℤ) :
    (agentRunSessionPatch session snapshot now recordedAt).restartCount = none := by
  unfold agentRunSessionPatch
  split <;> rfl

end Evidence

section Allowed

def MayCreate (sessionId : String) (input : CreateRunInput) (world : World) : Prop :=
  ∃ r, world.session = some r ∧
    input.metadata.startKey = some (attemptKey sessionId r.restartCount) ∧
    some (attemptKey sessionId r.restartCount) ∉ startKeys world ∧
    world.correlations.select (attemptKey sessionId r.restartCount) ≠ none

/-- An update may begin the next attempt when all runs have ended, and it may record
states that are backed. -/
structure MayUpdate (sessionId : String) (input : UpdateManagerSessionInput) (world : World)
    (l : ManagerAnswers) : Prop where
  retry : ∀ count, input.restartCount = some count → ∃ r, world.session = some r ∧
    count = r.restartCount + 1 ∧ AllTerminal sessionId world
  backed : ∀ r state, world.session = some r → Sets input state →
    Backed sessionId (input.restartCount.getD r.restartCount) l state

/-- What the process may do in the course of a call. -/
def Allowed (sessionId : String) : Operation → World → ManagerAnswers → Prop
  | .create input, world, _ => MayCreate sessionId input world
  | .insertManagerSession input, _, _ => input.sessionId = sessionId
  | .updateManagerSession _ input, world, l => MayUpdate sessionId input world l
  | _, _, _ => True

variable {sessionId : String} {world world' : World} {l : ManagerAnswers} {operation : Operation}
variable {input : CreateRunInput}

theorem MayCreate.steady (h : MayCreate sessionId input world) (hsteady : Steady world world') :
    MayCreate sessionId input world' := by
  obtain ⟨r, hr, hkey, hno, hreserved⟩ := h
  obtain ⟨r', hr', -, hcount⟩ := hsteady.exists_after hr
  obtain ⟨row, hrow⟩ := Option.ne_none_iff_exists'.1 hreserved
  obtain ⟨row', hrow', -⟩ := hsteady.correlations _ _ hrow
  refine ⟨r', hr', hcount ▸ hkey, ?_, ?_⟩
  · rwa [hcount, hsteady.startKeys]
  · rw [hcount, hrow']
    exact Option.some_ne_none _

theorem Allowed.moves (h : Allowed sessionId operation world l) (hmoves : world.Moves world') :
    Allowed sessionId operation world' l := by
  have hsteady := Steady.of_moves hmoves
  cases operation with
  | create input => exact MayCreate.steady h hsteady
  | updateManagerSession id input =>
    refine ⟨fun count hcount => ?_, fun r state hr => h.backed r state (hmoves.session.symm.trans hr)⟩
    obtain ⟨r, hr, hnext, hterminal⟩ := h.retry count hcount
    exact ⟨r, hmoves.session.trans hr, hnext, hterminal.steady hsteady⟩
  | _ => exact h

theorem createRun_noOverlap (hworld : NoOverlap sessionId world)
    (h : MayCreate sessionId input world) :
    NoOverlap sessionId (Operation.createRun world input).2 := by
  obtain ⟨r, hr, hkey, hno, hreserved⟩ := h
  rcases Operation.createRun_cases world input with ⟨e, heq⟩ |
    ⟨run, tsukai, environment, heq, hmetadata, hruns⟩
  · rw [heq]
    exact hworld
  · have hcurrent : OfAttempt sessionId r.restartCount run := by
      rw [OfAttempt, hmetadata, hkey]
    have hold : ∀ run' ∈ world.tsukai.runs, ¬ OfAttempt sessionId r.restartCount run' :=
      fun run' hrun' hattempt => hno (List.mem_map.2 ⟨run', hrun', hattempt⟩)
    have hmem : ∀ run', run' ∈ tsukai.runs → run' ∈ world.tsukai.runs ∨ run' = run := by
      intro run' hrun'
      rw [hruns] at hrun'
      simpa using hrun'
    have hattempt : ∀ n, OfAttempt sessionId n run → n = r.restartCount := fun n hn =>
      attemptKey_injective (Option.some.inj (hn.symm.trans hcurrent))
    rw [heq]
    refine ⟨hworld.session, fun run' hrun' n hn => ?_, fun run' hrun' n hn => ?_, ?_⟩
    · rcases hmem run' hrun' with hrun' | rfl
      · exact hworld.counted run' hrun' n hn
      · obtain rfl := hattempt n hn
        exact ⟨r, hr, le_rfl, fun hlt => absurd hlt (lt_irrefl _)⟩
    · rcases hmem run' hrun' with hrun' | rfl
      · exact hworld.reserved run' hrun' n hn
      · obtain rfl := hattempt n hn
        exact hreserved
    · intro run₁ hrun₁ run₂ hrun₂ n h₁ h₂
      rcases hmem run₁ hrun₁ with hbefore₁ | rfl
      · rcases hmem run₂ hrun₂ with hbefore₂ | rfl
        · exact hworld.single run₁ hbefore₁ run₂ hbefore₂ n h₁ h₂
        · exact absurd (hattempt n h₂ ▸ h₁) (hold run₁ hbefore₁)
      · rcases hmem run₂ hrun₂ with hbefore₂ | rfl
        · exact absurd (hattempt n h₁ ▸ h₂) (hold run₂ hbefore₂)
        · rfl

theorem exec_noOverlap (hworld : NoOverlap sessionId world)
    (h : Allowed sessionId operation world l) :
    NoOverlap sessionId (operation.exec world).2 ∧ Advances world (operation.exec world).2 := by
  by_cases hsteady : steady operation = true
  · have hstep := exec_steady operation world hsteady
    exact ⟨hworld.steady hstep, hstep.advances⟩
  · cases operation with
    | create input =>
      refine ⟨createRun_noOverlap hworld h, fun r hr => ⟨r, ?_, le_rfl⟩⟩
      rw [Operation.exec_session _ _ rfl, hr]
    | insertManagerSession input =>
      rcases Operation.insertRow_cases world input with ⟨e, heq⟩ | ⟨hnone, heq⟩
      · rw [Operation.exec, heq]
        exact ⟨hworld, .refl world⟩
      · rw [Operation.exec, heq]
        have hno : ∀ run ∈ world.tsukai.runs, ∀ n, ¬ OfAttempt sessionId n run := by
          intro run hrun n hn
          obtain ⟨r, hr, -⟩ := hworld.counted run hrun n hn
          rw [hnone] at hr
          cases hr
        refine ⟨⟨?_, ?_, hworld.reserved, hworld.single⟩, ?_⟩
        · rintro r ⟨⟩
          exact h
        · exact fun run hrun n hn => absurd hn (hno run hrun n)
        · intro r hr
          rw [hnone] at hr
          cases hr
    | updateManagerSession id input =>
      obtain ⟨count, hcount⟩ := Option.ne_none_iff_exists'.1
        (fun hnone => hsteady (Option.isNone_iff_eq_none.2 hnone))
      obtain ⟨r, hr, rfl, hterminal⟩ := h.retry count hcount
      rcases Operation.updateRow_cases world id _ with ⟨e, heq⟩ | ⟨current, hrow, heq⟩
      · rw [Operation.exec, heq]
        exact ⟨hworld, .refl world⟩
      · rw [Operation.exec, heq]
        obtain rfl := Option.some.inj (hr.symm.trans (row_eq_some.1 hrow).1)
        have hnext : (input.apply r world.environment.clock).restartCount = r.restartCount + 1 := by
          simp [UpdateManagerSessionInput.apply, hcount]
        refine ⟨⟨?_, ?_, hworld.reserved, hworld.single⟩, ?_⟩
        · rintro r' ⟨⟩
          exact hworld.session r hr
        · intro run hrun n hn
          obtain ⟨r', hr', hle, -⟩ := hworld.counted run hrun n hn
          obtain rfl := Option.some.inj (hr.symm.trans hr')
          refine ⟨_, rfl, ?_, fun _ => hterminal run hrun n hn⟩
          rw [hnext]
          exact Nat.le_succ_of_le hle
        · intro r' hr'
          obtain rfl := Option.some.inj (hr.symm.trans hr')
          exact ⟨_, rfl, hnext ▸ Nat.le_succ _⟩
    | _ => exact absurd rfl hsteady

/-- One process, while Tsukai moves the runs. -/
def retrying (sessionId : String) : Contract World where
  inv := NoOverlap sessionId
  rely := World.Moves
  guarantee := Advances
  rely_refl := .refl
  rely_trans := .trans
  rely_guarantee h h' := (Steady.of_moves h).advances.trans h'
  guarantee_refl := .refl

theorem retrying_tolerates (sessionId : String) :
    Tolerates (retrying sessionId) Steady (fun operation => steady operation = true) where
  moves _ _ h hinv := ⟨NoOverlap.steady hinv (.of_moves h), h⟩
  rely _ _ h := .of_moves h
  trans _ _ _ h h' := h.trans h'
  grows _ _ h := h.grows
  exec operation world hsteady hinv := by
    have hstep := exec_steady operation world hsteady
    exact ⟨NoOverlap.steady hinv hstep, hstep.advances, hstep⟩
  looks operation h := by
    cases operation <;> first | rfl | cases h
  lists _ _ := rfl

theorem permits (sessionId startKey : String) : Permits startKey (Allowed sessionId) where
  looks operation _ _ h := by cases operation <;> trivial
  lists _ _ _ _ := trivial

end Allowed

end Mottainai.ManagerAgentRuns

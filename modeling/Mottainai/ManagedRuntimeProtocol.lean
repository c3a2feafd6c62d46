import Mottainai.JavaScriptValues
import Mottainai.InterleavingContract

/-!
# The activation protocol of the managed Runtime

The state file names the active generation, the one before, and the transaction of an unfinished
activation. A call finishes an unfinished transaction, and keeps the active generation if it is the
desired one. Otherwise it builds a candidate, stages it, switches the pointer to it, probes it, and
commits it or goes back. Each write of the state file, of the `current` pointer and of a retention
root is atomic; one that fails may still have been carried out. The adapters that build, verify and
probe a generation answer whatever they like. The writer lock makes calls follow one another, and it
is not modelled. `Permitted` names for each operation the states of the world in which a call may
issue it, and `Consistent` is the invariant of the protocol. Store paths are in their normal form;
timestamps and what was last observed decide nothing.
-/

namespace Mottainai.ManagedRuntime

open JavaScriptValues

/-- `MANAGED_RUNTIME_ACTIVATION_PHASES`. -/
inductive ActivationPhase where
  | idle
  | prepared
  | switchedHealthPending
  | rollbackPending
  | rollbackHealthPending
  deriving DecidableEq

/-- `MANAGED_RUNTIME_FAILURE_CODES`. -/
inductive FailureCode where
  | invalidManifest
  | unsupportedManagedPackage
  | compatibilityMismatch
  | buildFailure
  | generationVerificationFailure
  | activationFailure
  | healthFailure
  | rollbackFailure
  | interruptedActivation
  | ambiguousActivation
  | stateCorrupt
  | pointerCorrupt
  | retentionFailure
  deriving DecidableEq

/-- `ManagedRuntimeErrorCode`. -/
inductive ErrorCode where
  | failure (code : FailureCode)
  | manifestReadFailure
  | recoveryRequired
  | reconcileBusy
  deriving DecidableEq

/-- `ManagedRuntimeError`. -/
structure RuntimeError where
  code : ErrorCode
  message : String
  phase : ActivationPhase := .idle
  deriving DecidableEq

/-- What is thrown: an error of this module, or any other error. -/
inductive Thrown where
  | managed (error : RuntimeError)
  | other (message : String)
  deriving DecidableEq

/-- `errorMessage`. -/
def errorMessage : Thrown → String
  | .managed error => error.message
  | .other message => message

/-- `error instanceof ManagedRuntimeError ? error : new ManagedRuntimeError(code, …)`. -/
def asManaged (code : FailureCode) (phase : ActivationPhase) : Thrown → RuntimeError
  | .managed error => error
  | .other message => ⟨.failure code, message, phase⟩

/-- `boundedMessage`. -/
def boundedMessage (message : String) : String :=
  if utf16Length message ≤ 2048 then message
  else slice (max 1 (2048 - utf16Length "...[truncated]")) message ++ "...[truncated]"

/-- `ManagedRuntimeCandidate`. -/
structure Candidate where
  generationIdentity : String
  storePath : String
  desiredManifestSemanticIdentity : String
  compatibilityContractVersion : ℕ
  packageIds : Option (List String)
  deriving DecidableEq

/-- `ManagedRuntimeGenerationRecord`: a generation that was healthy, with the evidence. -/
structure GenerationRecord extends Candidate where
  evidence : Option String
  deriving DecidableEq

/-- `ManagedRuntimeFailureEvidence`. -/
structure FailureEvidence where
  code : FailureCode
  phase : ActivationPhase
  message : String
  generationIdentity : Option String
  storePath : Option String
  deriving DecidableEq

/-- `ManagedRuntimeActivation`. -/
structure Activation where
  phase : ActivationPhase
  transactionId : Option String := none
  candidate : Option Candidate := none
  previous : Option GenerationRecord := none
  failure : Option FailureEvidence := none
  deriving DecidableEq

/-- `ManagedRuntimeState`. -/
structure State where
  desiredManifestSemanticIdentity : String
  active : Option GenerationRecord
  previous : Option GenerationRecord
  activation : Activation
  failure : Option FailureEvidence
  deriving DecidableEq

/-- `initialState`. -/
def initialState (desiredIdentity : String) : State :=
  ⟨desiredIdentity, none, none, { phase := .idle }, none⟩

/-- `withoutActivationFields`. -/
def withoutActivationFields (_activation : Activation) : Activation := { phase := .idle }

/-- `recordFromCandidate`. -/
def recordFromCandidate (candidate : Candidate) (evidence : Option String) : GenerationRecord :=
  { candidate with evidence := evidence.map boundedMessage }

/-- `candidateFromRecord`. -/
def candidateFromRecord (record : GenerationRecord) : Candidate := record.toCandidate

variable (candidate : Candidate)

@[simp] theorem candidateFromRecord_recordFromCandidate (evidence : Option String) :
    candidateFromRecord (recordFromCandidate candidate evidence) = candidate := rfl

@[simp] theorem recordFromCandidate_storePath (evidence : Option String) :
    (recordFromCandidate candidate evidence).storePath = candidate.storePath := rfl

/-- `failureEvidence`. -/
def failureEvidence (code : FailureCode) (phase : ActivationPhase) (message : String)
    (candidate : Option Candidate) : FailureEvidence :=
  ⟨code, phase, boundedMessage message, candidate.map (·.generationIdentity),
    candidate.map (·.storePath)⟩

/-- `stateWithFailure`. -/
def stateWithFailure (state : State) (desiredIdentity : String) (evidence : FailureEvidence) :
    State :=
  { state with
    desiredManifestSemanticIdentity := desiredIdentity
    activation := withoutActivationFields state.activation
    failure := some evidence }

/-- `stateWithActivation`. -/
def stateWithActivation (state : State) (activation : Activation) : State :=
  { state with activation }

/-- `activationWithCandidate`. -/
def activationWithCandidate (candidate : Candidate) (previous : Option GenerationRecord)
    (transactionId : String) : Activation where
  phase := .prepared
  transactionId := some transactionId
  candidate := some candidate
  previous

/-- `state.active?.storePath`. -/
def activePath (state : State) : Option String := state.active.map (·.storePath)

structure HealthReport where
  healthy : Option Bool := none
  ok : Option Bool := none
  status : Option String := none
  reconciliation : Option String := none
  upgradeRequired : Option Bool := none
  generationIdentity : Option String := none
  storePath : Option String := none
  evidence : Option String := none
  reason : Option String := none

/-- `ManagedRuntimeHealthCheckResult`. -/
inductive HealthAnswer where
  | flag (healthy : Bool)
  | report (report : HealthReport)

/-- `ManagedRuntimeHealthResult`, as it is used after the check. -/
structure HealthResult where
  healthy : Bool
  evidence : Option String := none
  reason : Option String := none

def HealthReport.explicitlyUnhealthy (r : HealthReport) : Bool :=
  r.healthy = some false || r.ok = some false || r.status = some "unhealthy" ||
    r.status = some "pending" || r.status = some "unknown" ||
    r.reconciliation = some "stale" || r.reconciliation = some "incompatible" ||
    r.upgradeRequired = some true

/-- `normalizeHealthResult`. -/
def normalizeHealthResult (answer : HealthAnswer) (candidate : Candidate) : HealthResult :=
  match answer with
  | .flag healthy => { healthy }
  | .report r =>
      let healthy := !r.explicitlyUnhealthy && (r.healthy = some true || r.ok = some true ||
        r.status = some "healthy" || r.reconciliation = some "current" ||
        r.reconciliation = some "repairable")
      match r.generationIdentity.filter (· ≠ candidate.generationIdentity),
        r.storePath.filter (· ≠ candidate.storePath) with
      | some identity, _ =>
          { healthy := false
            reason := some (s!"managed health identified {identity}, expected " ++
              candidate.generationIdentity) }
      | none, some path =>
          { healthy := false
            reason := some s!"managed health observed {path}, expected {candidate.storePath}" }
      | none, none =>
          { healthy
            evidence := r.evidence.map boundedMessage
            reason := r.reason.map boundedMessage }

/-- `healthFailureMessage`. -/
def healthFailureMessage (health : HealthResult) (fallback : String) : String :=
  match health.reason with
  | none => fallback
  | some reason => if reason = "" then fallback else reason

/-- `pointer ?? "absent"`. -/
def shown (path : Option String) : String := path.getD "absent"

/-- `assertStablePointer`. -/
def assertStablePointer (state : State) (pointer : Option String) : Except Thrown Unit :=
  require (pointer = activePath state) (.managed
    { code := .failure .ambiguousActivation
      message := "managed Runtime current pointer does not match persisted active generation " ++
        s!"(observed={shown pointer}, expected={shown (activePath state)})" })

/-- `assertIdleActivation`. -/
def assertIdleActivation (state : State) : Except Thrown Unit :=
  require (state.activation.candidate = none ∧ state.activation.previous = none ∧
      state.activation.transactionId = none ∧ state.activation.failure = none) (.managed
    { code := .failure .stateCorrupt
      message := "idle managed Runtime state contains an unfinished activation transaction" })

/-- `ManagedPackageManifest`: its semantic identity, and its package ids in order. -/
structure ManagedPackageManifest where
  semanticIdentity : String
  packageIds : List String
  deriving DecidableEq

/-- `ManagedRuntimeBuiltGeneration`, with a store path that is well formed. -/
structure BuiltGeneration where
  generationIdentity : String
  storePath : String
  compatibilityContractVersion : Option ℕ

/-- `asCandidate`. -/
def asCandidate (manifest : ManagedPackageManifest) (generation : BuiltGeneration)
    (supportedCompatibilityVersion : ℕ) : Except Thrown Candidate := do
  let identity := generation.generationIdentity
  require (utf16Length identity ≠ 0 ∧ utf16Length identity ≤ 256) (.managed
    { code := .failure .generationVerificationFailure
      message := "managed generation identity is invalid" })
  let version := generation.compatibilityContractVersion.getD supportedCompatibilityVersion
  require (version = supportedCompatibilityVersion) (.managed
    { code := .failure .compatibilityMismatch
      message := s!"managed generation compatibility contract {version} is not supported " ++
        s!"(expected {supportedCompatibilityVersion})" })
  .ok
    { generationIdentity := identity
      storePath := generation.storePath
      desiredManifestSemanticIdentity := manifest.semanticIdentity
      compatibilityContractVersion := version
      packageIds := some manifest.packageIds }

/-- `isRemoval`. -/
def isRemoval (previous : Option GenerationRecord) (manifest : ManagedPackageManifest) : Bool :=
  match previous.bind (·.packageIds) with
  | none => false
  | some packageIds => packageIds.any fun packageId => !manifest.packageIds.contains packageId

/-- `MANAGED_RUNTIME_RETENTION_SLOTS`. -/
inductive RetentionSlot where
  | active
  | previous
  | candidate
  deriving DecidableEq

def retentionSlots : List RetentionSlot := [.active, .previous, .candidate]

/-- `ManagedRuntimeRetentionRoots`. -/
@[ext] structure RetentionRoots where
  active : Option String := none
  previous : Option String := none
  candidate : Option String := none
  deriving DecidableEq

namespace RetentionRoots

def get (roots : RetentionRoots) : RetentionSlot → Option String
  | .active => roots.active
  | .previous => roots.previous
  | .candidate => roots.candidate

def set (roots : RetentionRoots) (slot : RetentionSlot) (target : Option String) :
    RetentionRoots :=
  match slot with
  | .active => { roots with active := target }
  | .previous => { roots with previous := target }
  | .candidate => { roots with candidate := target }

variable (roots : RetentionRoots) (slot other : RetentionSlot) (target : Option String)

@[simp] theorem get_set_self : (roots.set slot target).get slot = target := by
  cases slot <;> rfl

theorem get_set_of_ne (h : other ≠ slot) : (roots.set slot target).get other = roots.get other := by
  cases slot <;> cases other <;> first | rfl | exact absurd rfl h

variable {roots}

theorem eq_of_get {roots' : RetentionRoots} (h : ∀ slot, roots.get slot = roots'.get slot) :
    roots = roots' :=
  RetentionRoots.ext (h .active) (h .previous) (h .candidate)

def Retains (roots : RetentionRoots) (path : String) : Prop :=
  ∃ slot, roots.get slot = some path

instance (roots : RetentionRoots) (path : String) : Decidable (roots.Retains path) :=
  decidable_of_iff (roots.active = some path ∨ roots.previous = some path ∨
    roots.candidate = some path)
    ⟨fun h => h.elim (⟨.active, ·⟩) fun h => h.elim (⟨.previous, ·⟩) (⟨.candidate, ·⟩),
      fun ⟨slot, h⟩ => by
        cases slot with
        | active => exact Or.inl h
        | previous => exact Or.inr (Or.inl h)
        | candidate => exact Or.inr (Or.inr h)⟩

end RetentionRoots

/-- The roots that `retainStateGenerations` asks for. -/
def retainedRoots (state : State) (candidate : Option Candidate) : RetentionRoots where
  active := activePath state
  previous := (state.activation.previous.map (·.storePath)).or (state.previous.map (·.storePath))
  candidate := (candidate.map (·.storePath)).or (state.activation.candidate.map (·.storePath))

/-- What `assertRetainedGenerations` expects in each slot. -/
def expectedRoots (state : State) : RetentionRoots where
  active := activePath state
  previous := state.previous.map (·.storePath)
  candidate := state.activation.candidate.map (·.storePath)

open Interleaving

/-- What became of reading and checking the desired manifest: the manifest, or the error
and the semantic identity that could still be computed. -/
inductive ManifestReading where
  | valid (manifest : ManagedPackageManifest)
  | invalid (error : Thrown) (desiredIdentity : Option String)

/-- The atomic operations: those on files, and the calls of the adapters. -/
inductive Operation where
  | readState
  | writeState (state : State)
  | readPointer
  | selectPointer (storePath : String)
  | clearPointer
  | createRootsDirectory
  | setRoot (slot : RetentionSlot) (target : String)
  | removeRoot (slot : RetentionSlot)
  | readRoots
  | inspectTarget (storePath : String)
  | readManifest
  | generationIsCurrent (generation : Candidate)
  | checkCompatibility (manifest : ManagedPackageManifest) (generation : Option BuiltGeneration)
  | build (manifest : ManagedPackageManifest)
  | verifyGeneration (candidate : Candidate)
  | healthCheck (generation : Candidate)

abbrev Operation.Value : Operation → Type
  | .readState => Option State
  | .readPointer => Option String
  | .readRoots => RetentionRoots
  | .inspectTarget _ => Bool
  | .readManifest => ManifestReading
  | .generationIsCurrent _ => Bool
  | .checkCompatibility _ _ => Bool
  | .build _ => BuiltGeneration
  | .verifyGeneration _ => Bool
  | .healthCheck _ => HealthAnswer
  | _ => Unit

/-- The programs of this module. -/
abbrev Runtime (α : Type) : Type := Throwing Operation Operation.Value Thrown α

/-- A probe of a generation: where the pointer was, and whether it counted as healthy. -/
structure HealthProbe where
  generation : Candidate
  pointer : Option String
  healthy : Bool
  deriving DecidableEq

structure World where
  state : Option State
  pointer : Option String
  roots : RetentionRoots
  probes : List HealthProbe
  deriving DecidableEq

/-- The answer of an operation on files; `none` for the adapters. -/
def Operation.result : (operation : Operation) → World → Option operation.Value
  | .readState, world => some world.state
  | .readPointer, world => some world.pointer
  | .readRoots, world => some world.roots
  | .writeState _, _ => some ()
  | .selectPointer _, _ => some ()
  | .clearPointer, _ => some ()
  | .createRootsDirectory, _ => some ()
  | .setRoot _ _, _ => some ()
  | .removeRoot _, _ => some ()
  | _, _ => none

def Operation.effect : Operation → World → World
  | .writeState state, world => { world with state := some state }
  | .selectPointer storePath, world => { world with pointer := some storePath }
  | .clearPointer, world => { world with pointer := none }
  | .setRoot slot target, world => { world with roots := world.roots.set slot (some target) }
  | .removeRoot slot, world => { world with roots := world.roots.set slot none }
  | _, world => world

def probedHealthy (generation : Candidate) : Except Thrown HealthAnswer → Bool
  | .ok answer => (normalizeHealthResult answer generation).healthy
  | .error _ => false

/-- What an adapter leaves behind: a probe is remembered. -/
def Operation.recorded : (operation : Operation) → Except Thrown operation.Value → World → World
  | .healthCheck generation, answer, world =>
      { world with
        probes := ⟨generation, world.pointer, probedHealthy generation answer⟩ :: world.probes }
  | _, _, world => world

/-- An operation on files is carried out, or fails, in which case it may still have had its
effect. An adapter may answer or throw anything. -/
def outcomes : Semantics Operation (fun operation => Except Thrown operation.Value) World :=
  fun operation world answer world' =>
    match operation.result world with
    | some value => (answer = .ok value ∧ world' = operation.effect world) ∨
        ∃ message, answer = .error (.other message) ∧
          (world' = world ∨ world' = operation.effect world)
    | none => world' = operation.recorded answer world

/-- The options of a call that are not adapters: the supported compatibility version, whether
`generationIsCurrent` is configured, whether the roots are the canonical ones of the appliance,
and the time at which a transaction is begun. -/
structure Options where
  supportedCompatibilityVersion : ℕ
  descriptorBound : Bool
  canonicalRoots : Bool
  now : String

/-- `checkHealth`. -/
def checkHealth (generation : Candidate) : Runtime HealthResult :=
  tryCatch (do
    let answer ← request (Operation.healthCheck generation)
    pure (normalizeHealthResult answer generation)) fun error =>
      pure { healthy := false, reason := some (errorMessage error) }

/-- `persist`. -/
def persist (state : State) : Runtime Unit :=
  tryCatch (request (Operation.writeState state)) fun error =>
    throw (.managed
      { code := .failure .stateCorrupt
        message := s!"managed Runtime state persistence failed: {errorMessage error}" })

/-- `try { persist(…) } catch { }`. -/
def persistEvidence (state : State) : Runtime Unit :=
  tryCatch (persist state) fun _ => pure ()

/-- The first loop of `updateManagedRuntimeRetentionRoots`. -/
def installRoots (roots : RetentionRoots) : List RetentionSlot → Runtime Unit
  | [] => pure ()
  | slot :: slots => match roots.get slot with
    | none => installRoots roots slots
    | some target => do
        request (Operation.setRoot slot target)
        installRoots roots slots

/-- The second loop of `updateManagedRuntimeRetentionRoots`. -/
def removeObsoleteRoots (roots : RetentionRoots) : List RetentionSlot → Runtime Unit
  | [] => pure ()
  | slot :: slots => match roots.get slot with
    | none => do
        request (Operation.removeRoot slot)
        removeObsoleteRoots roots slots
    | some _ => removeObsoleteRoots roots slots

/-- `updateManagedRuntimeRetentionRoots`. -/
def updateManagedRuntimeRetentionRoots (roots : RetentionRoots) : Runtime Unit := do
  request Operation.createRootsDirectory
  tryCatch (do
    installRoots roots retentionSlots
    removeObsoleteRoots roots retentionSlots) fun error =>
      throw (.other s!"managed Runtime retention root update failed: {errorMessage error}")

/-- `retainStateGenerations`. -/
def retainStateGenerations (state : State) (candidate : Option Candidate) : Runtime Unit :=
  tryCatch (updateManagedRuntimeRetentionRoots (retainedRoots state candidate)) fun error =>
    throw (.managed
      { code := .failure .retentionFailure
        message := s!"managed Runtime generation retention update failed: {errorMessage error}"
        phase := state.activation.phase })

/-- `loadStateAndPointer`. -/
def loadStateAndPointer : Runtime (Option State × Option String) := do
  let state ← tryCatch (request Operation.readState) fun error =>
    throw (.managed { code := .failure .stateCorrupt, message := errorMessage error })
  let pointer ← tryCatch (request Operation.readPointer) fun error =>
    throw (.managed { code := .failure .pointerCorrupt, message := errorMessage error })
  if state = none ∧ pointer ≠ none then
    throw (.managed
      { code := .failure .ambiguousActivation
        message := "managed Runtime has a current pointer but no persisted activation state" })
  else pure (state, pointer)

/-- `RecoveryResult`. -/
structure RecoveryResult where
  state : State
  pointer : Option String
  recovered : Bool
  rolledBack : Bool

/-- `selectPreviousAndVerify` without a previous generation, once the pointer is absent. -/
def settleWithoutGeneration (currentState : State) : Runtime RecoveryResult := do
  let next : State :=
    { currentState with
      activation := withoutActivationFields currentState.activation
      active := none }
  persist next
  retainStateGenerations next none
  pure ⟨next, none, true, true⟩

def rollbackFailure (candidate : Candidate) (health : HealthResult) : FailureEvidence :=
  failureEvidence .rollbackFailure .rollbackHealthPending
    (healthFailureMessage health "previous known-good generation failed recovery health")
    (some candidate)

def restoredState (pending : State) (previous : GenerationRecord) (health : HealthResult) : State :=
  { pending with
    active := some (recordFromCandidate (candidateFromRecord previous) health.evidence)
    activation := withoutActivationFields pending.activation }

/-- `selectPreviousAndVerify` with a previous generation, once the pointer is at it. -/
def verifyPrevious (candidate : Candidate) (previous : GenerationRecord) (currentState : State) :
    Runtime RecoveryResult := do
  let pending := stateWithActivation currentState
    { currentState.activation with phase := .rollbackHealthPending }
  persist pending
  let health ← checkHealth (candidateFromRecord previous)
  if health.healthy = false then
    let failure := rollbackFailure candidate health
    persist { pending with failure := some failure }
    throw (.managed
      { code := .failure .rollbackFailure
        message := failure.message
        phase := .rollbackHealthPending })
  else
    let committed := restoredState pending previous health
    persist committed
    retainStateGenerations committed none
    pure ⟨committed, some previous.storePath, true, true⟩

/-- `selectPreviousAndVerify`. -/
def selectPreviousAndVerify (candidate : Candidate) (previous : Option GenerationRecord)
    (currentState : State) (currentPointer : Option String) : Runtime RecoveryResult :=
  match previous with
  | none => do
      if currentPointer ≠ none then request Operation.clearPointer
      settleWithoutGeneration currentState
  | some previous => do
      if currentPointer ≠ some previous.storePath then
        request (Operation.selectPointer previous.storePath)
      verifyPrevious candidate previous currentState

/-- `persistPhase`. -/
def persistPhase (state : State) (nextPhase : ActivationPhase)
    (failure : Option FailureEvidence) : Runtime State := do
  let next := stateWithActivation state
    { state.activation with phase := nextPhase, failure := failure.or state.activation.failure }
  persist next
  pure next

def rollbackPendingState (switched : State) (failure : FailureEvidence) : State :=
  { switched with
    activation := { switched.activation with phase := .rollbackPending, failure := some failure }
    failure := some failure }

def committedState (switched : State) (candidate : Candidate)
    (previous : Option GenerationRecord) (health : HealthResult) : State :=
  { switched with
    active := some (recordFromCandidate candidate health.evidence)
    previous := previous.or switched.previous
    activation := withoutActivationFields switched.activation
    failure := none }

def postSwitchFailure (candidate : Candidate) (health : HealthResult) : FailureEvidence :=
  failureEvidence .healthFailure .rollbackPending
    (healthFailureMessage health "managed generation failed post-switch health") (some candidate)

/-- `verifyCandidateAndCommit`, once the phase is persisted. -/
def probeAndCommit (candidate : Candidate) (previous : Option GenerationRecord)
    (pendingState : State) (currentPointer : Option String) : Runtime RecoveryResult := do
  let health ← checkHealth candidate
  if health.healthy = false then
    let rollbackPending := rollbackPendingState pendingState (postSwitchFailure candidate health)
    persist rollbackPending
    selectPreviousAndVerify candidate previous rollbackPending currentPointer
  else
    let committed : State :=
      { committedState pendingState candidate previous health with
        desiredManifestSemanticIdentity := candidate.desiredManifestSemanticIdentity }
    persist committed
    retainStateGenerations committed none
    pure ⟨committed, currentPointer, true, false⟩

/-- `verifyCandidateAndCommit`. -/
def verifyCandidateAndCommit (state : State) (candidate : Candidate)
    (previous : Option GenerationRecord) (currentState : State) (currentPointer : Option String) :
    Runtime RecoveryResult := do
  let pendingState ←
    if currentState.activation.phase = .switchedHealthPending then pure currentState
    else persistPhase state .switchedHealthPending currentState.activation.failure
  probeAndCommit candidate previous pendingState currentPointer

/-- A transaction whose pointer is neither at its candidate nor at its previous generation. -/
def unexpectedPointer {α : Type} (message : String) (phase : ActivationPhase) : Runtime α :=
  throw (.managed { code := .failure .ambiguousActivation, message, phase })

/-- The end of `recoverTransaction`: what is done in each phase. -/
def recoverPhase (state : State) (pointer : Option String) (candidate : Candidate)
    (previous : Option GenerationRecord) : Runtime RecoveryResult :=
  let phase := state.activation.phase
  let expectedPreviousPath := previous.map (·.storePath)
  match phase with
  | .idle => throw (.managed
      { code := .failure .stateCorrupt, message := "unsupported activation phase idle", phase })
  | .prepared =>
      if pointer = some candidate.storePath then
        verifyCandidateAndCommit state candidate previous state pointer
      else if pointer = expectedPreviousPath then do
        request (Operation.selectPointer candidate.storePath)
        let switched ← persistPhase state .switchedHealthPending none
        verifyCandidateAndCommit state candidate previous switched (some candidate.storePath)
      else
        unexpectedPointer
          s!"prepared activation observed an unexpected current pointer (observed={shown pointer})"
          phase
  | .switchedHealthPending =>
      if pointer = some candidate.storePath then
        verifyCandidateAndCommit state candidate previous state pointer
      else if pointer = expectedPreviousPath then
        selectPreviousAndVerify candidate previous state pointer
      else
        unexpectedPointer
          s!"switched activation observed an unexpected current pointer (observed={shown pointer})"
          phase
  | .rollbackPending | .rollbackHealthPending =>
      -- The pointer may be absent, whether or not there is a generation to go back to.
      if pointer = expectedPreviousPath ∨ pointer = none ∨ pointer = some candidate.storePath then
        selectPreviousAndVerify candidate previous state pointer
      else if previous = none then
        unexpectedPointer ("rollback activation without a previous generation observed an " ++
          s!"unexpected current pointer (observed={shown pointer})") phase
      else
        unexpectedPointer
          s!"rollback activation observed an unexpected current pointer (observed={shown pointer})"
          phase

/-- What `recoverTransaction` requires of the generations of the transaction. -/
def requireRecoverable (options : Options) (state : State) (candidate : Candidate) :
    Except Thrown Unit := do
  let phase := state.activation.phase
  let supported := options.supportedCompatibilityVersion
  require (state.desiredManifestSemanticIdentity = candidate.desiredManifestSemanticIdentity)
    (.managed
      { code := .failure .stateCorrupt
        message := "managed Runtime transaction candidate does not match persisted desired " ++
          "manifest identity"
        phase })
  require (candidate.compatibilityContractVersion = supported) (.managed
    { code := .failure .compatibilityMismatch
      message := "interrupted candidate compatibility contract " ++
        s!"{candidate.compatibilityContractVersion} is not supported (expected {supported})"
      phase })
  match state.activation.previous with
  | none => .ok ()
  | some previous => require (previous.compatibilityContractVersion = supported) (.managed
      { code := .failure .compatibilityMismatch
        message := "rollback generation compatibility contract " ++
          s!"{previous.compatibilityContractVersion} is not supported (expected {supported})"
        phase })

/-- `recoverTransaction`. -/
def recoverTransaction (options : Options) (state : State) (pointer : Option String) :
    Runtime RecoveryResult :=
  if state.activation.phase = .idle then do
    liftM (assertIdleActivation state)
    liftM (assertStablePointer state pointer)
    pure ⟨state, pointer, false, false⟩
  else match state.activation.candidate with
    | none => throw (.managed
        { code := .failure .stateCorrupt
          message := "managed Runtime activation transaction has no candidate"
          phase := state.activation.phase })
    | some candidate => do
        liftM (requireRecoverable options state candidate)
        retainStateGenerations state (some candidate)
        recoverPhase state pointer candidate state.activation.previous

/-- `ManagedRuntimeReconcileOutcome`. -/
inductive ReconcileOutcome where
  | initialized
  | noop
  | updated
  | removed
  | recovered
  | rolledBack
  deriving DecidableEq

/-- `ManagedRuntimeReconcileResult`, without the status report. -/
structure ReconcileResult where
  outcome : ReconcileOutcome
  desiredManifestSemanticIdentity : String
  active : Option GenerationRecord
  previous : Option GenerationRecord
  deriving DecidableEq

/-- One slot of `assertRetainedGenerations`. -/
def assertRetained (options : Options) (state : State) (roots : RetentionRoots)
    (slot : RetentionSlot) (slotName : String) : Runtime Unit := do
  let retentionFailure (message : String) : Thrown := .managed
    { code := .failure .retentionFailure, message, phase := state.activation.phase }
  match (expectedRoots state).get slot with
  | none => pure ()
  | some target =>
      if roots.get slot ≠ some target then
        throw (retentionFailure (s!"managed Runtime {slotName} retention root is missing or points " ++
          s!"to an unexpected target (observed={shown (roots.get slot)}, expected={target})"))
      else if options.canonicalRoots then
        let notRealized (reason : String) := retentionFailure
          s!"managed Runtime {slotName} retention target is not realized: {target}: {reason}"
        let isDirectory ← tryCatch (request (Operation.inspectTarget target)) fun error =>
          throw (notRealized (errorMessage error))
        if isDirectory = false then throw (notRealized "target is not a directory")
      else pure ()

/-- `assertRetainedGenerations`. -/
def assertRetainedGenerations (options : Options) (state : State) : Runtime Unit := do
  if expectedRoots state = {} then pure ()
  else
    let roots ← tryCatch (request Operation.readRoots) fun error =>
      throw (.managed
        { code := .failure .retentionFailure
          message := s!"managed Runtime retention roots cannot be read: {errorMessage error}"
          phase := state.activation.phase })
    assertRetained options state roots .active "active"
    assertRetained options state roots .previous "previous"
    assertRetained options state roots .candidate "candidate"

/-- `resultFromState`. -/
def resultFromState (options : Options) (state : State) (outcome : ReconcileOutcome) :
    Runtime ReconcileResult := do
  let _pointer ← tryCatch (request Operation.readPointer) fun error =>
    throw (.managed { code := .failure .pointerCorrupt, message := errorMessage error })
  assertRetainedGenerations options state
  pure ⟨outcome, state.desiredManifestSemanticIdentity, state.active, state.previous⟩

def manifestFailureCode (error : RuntimeError) : FailureCode :=
  if error.code = .failure .compatibilityMismatch then .compatibilityMismatch
  else if error.code = .failure .unsupportedManagedPackage then .unsupportedManagedPackage
  else .invalidManifest

/-- The end of a call whose manifest cannot be used: that is recorded in an idle state. -/
def failManifest {α : Type} (state : Option State) (error : Thrown) (identity : Option String) :
    Runtime α :=
  let managedError := asManaged .invalidManifest .idle error
  match identity.or (state.map (·.desiredManifestSemanticIdentity)) with
  | none => throw (.managed managedError)
  | some desiredIdentity => do
      let evidence := failureEvidence (manifestFailureCode managedError) .idle
        managedError.message none
      persistEvidence
        (stateWithFailure (state.getD (initialState desiredIdentity)) desiredIdentity evidence)
      throw (.managed managedError)

def requireManifest (state : Option State) : Runtime ManagedPackageManifest := do
  let reading ← tryCatch (request Operation.readManifest) fun error =>
    pure (ManifestReading.invalid error none)
  match reading with
  | .valid manifest => pure manifest
  | .invalid error identity => failManifest state error identity

def currentGeneration (options : Options) (manifest : ManagedPackageManifest) (state : State) :
    Runtime (Option GenerationRecord) := do
  match state.active with
  | none => pure none
  | some active =>
      if state.desiredManifestSemanticIdentity = manifest.semanticIdentity ∧
          active.desiredManifestSemanticIdentity = manifest.semanticIdentity then
        if options.descriptorBound then
          let isCurrent ← tryCatch
            (request (Operation.generationIsCurrent (candidateFromRecord active)))
            fun _ => pure false
          pure (if isCurrent then some active else none)
        else pure (some active)
      else pure none

/-- The active generation is the desired one: it is probed, and nothing else changes. -/
def keepActive (options : Options) (manifest : ManagedPackageManifest) (state : State)
    (active : GenerationRecord) (recovered : Bool) : Runtime ReconcileResult := do
  retainStateGenerations state none
  let candidate := candidateFromRecord active
  if active.compatibilityContractVersion ≠ options.supportedCompatibilityVersion then
    let evidence := failureEvidence .compatibilityMismatch .idle
      ("active generation compatibility contract " ++
        s!"{active.compatibilityContractVersion} is not supported " ++
        s!"(expected {options.supportedCompatibilityVersion})") (some candidate)
    persist (stateWithFailure state manifest.semanticIdentity evidence)
    throw (.managed { code := .failure .compatibilityMismatch, message := evidence.message })
  else
    let health ← checkHealth candidate
    if health.healthy then
      let refreshed : State :=
        { state with
          desiredManifestSemanticIdentity := manifest.semanticIdentity
          active := some (recordFromCandidate candidate health.evidence)
          failure := none }
      persist refreshed
      resultFromState options refreshed (if recovered then .recovered else .noop)
    else
      let evidence := failureEvidence .healthFailure .idle
        (healthFailureMessage health "active managed generation health failed") (some candidate)
      persist (stateWithFailure state manifest.semanticIdentity evidence)
      throw (.managed { code := .failure .healthFailure, message := evidence.message })

/-- `invokeCompatibility`. -/
def invokeCompatibility (manifest : ManagedPackageManifest) (generation : Option BuiltGeneration) :
    Runtime Unit := do
  let result ← tryCatch (request (Operation.checkCompatibility manifest generation)) fun error =>
    throw (.managed
      { code := .failure .compatibilityMismatch, message := errorMessage error })
  if result = false then
    throw (.managed
      { code := .failure .compatibilityMismatch
        message := "managed generation compatibility check failed" })

/-- `invokeVerification`. -/
def invokeVerification (candidate : Candidate) : Runtime Unit := do
  let result ← tryCatch (request (Operation.verifyGeneration candidate)) fun error =>
    throw (.managed (asManaged .generationVerificationFailure .idle error))
  if result = false then
    throw (.managed
      { code := .failure .generationVerificationFailure
        message := "managed generation verification failed" })

def buildFailureCode (error : RuntimeError) : FailureCode :=
  if error.code = .failure .compatibilityMismatch then .compatibilityMismatch
  else if error.code = .failure .unsupportedManagedPackage then .unsupportedManagedPackage
  else if error.code = .failure .generationVerificationFailure then
    .generationVerificationFailure
  else .buildFailure

def failBuild {α : Type} (state : State) (desiredIdentity : String)
    (candidate : Option Candidate) (error : Thrown) : Runtime α := do
  let managedError := asManaged .buildFailure .idle error
  let evidence := failureEvidence (buildFailureCode managedError) .idle managedError.message
    candidate
  persistEvidence (stateWithFailure state desiredIdentity evidence)
  throw (.managed managedError)

def buildCandidate (options : Options) (manifest : ManagedPackageManifest) (state : State) :
    Runtime (BuiltGeneration × Candidate) := do
  let (built, candidate) ← tryCatch (do
      invokeCompatibility manifest none
      let built ← request (Operation.build manifest)
      let candidate ← liftM (asCandidate manifest built options.supportedCompatibilityVersion)
      pure (built, candidate))
    (failBuild state manifest.semanticIdentity none)
  tryCatch (do
      invokeCompatibility manifest (some built)
      invokeVerification candidate)
    (failBuild state manifest.semanticIdentity (some candidate))
  pure (built, candidate)

def activationFailureCode (error : RuntimeError) : FailureCode :=
  if error.code = .failure .generationVerificationFailure then .generationVerificationFailure
  else if error.code = .failure .compatibilityMismatch then .compatibilityMismatch
  else .activationFailure

/-- Clear a staged transaction; an error on the way is dropped. -/
def abandonPrepared (failed : State) : Runtime Unit :=
  tryCatch (do
    persist failed
    retainStateGenerations failed none) fun _ => pure ()

/-- The end of a call whose activation has failed. If the pointer is where it was, the staged
transaction is cleared. -/
def failActivation {α : Type} (state : State) (pointer : Option String) (desiredIdentity : String)
    (candidate : Candidate) (error : Thrown) : Runtime α := do
  let managedError := asManaged .activationFailure .prepared error
  let observedPointer ← tryCatch (request Operation.readPointer) fun error =>
    throw (.managed
      { code := .failure .ambiguousActivation
        message := "managed Runtime current pointer could not be observed after activation " ++
          s!"failure: {errorMessage error}"
        phase := .prepared })
  if observedPointer = pointer then
    let evidence := failureEvidence (activationFailureCode managedError) .prepared
      managedError.message (some candidate)
    abandonPrepared (stateWithFailure state desiredIdentity evidence)
  throw (.managed managedError)

def activate (manifest : ManagedPackageManifest) (built : BuiltGeneration) (state : State)
    (pointer : Option String) (candidate : Candidate) : Runtime Unit :=
  tryCatch (do
      invokeCompatibility manifest (some built)
      invokeVerification candidate
      request (Operation.selectPointer candidate.storePath))
    (failActivation state pointer manifest.semanticIdentity candidate)

def preparedState (state : State) (manifest : ManagedPackageManifest) (candidate : Candidate)
    (now : String) : State :=
  { state with
    desiredManifestSemanticIdentity := manifest.semanticIdentity
    activation := activationWithCandidate candidate state.active
      s!"{now}-{slice 16 candidate.generationIdentity}"
    failure := none }

def commitOutcome (previous : Option GenerationRecord) (manifest : ManagedPackageManifest) :
    ReconcileOutcome :=
  if previous = none then .initialized else if isRemoval previous manifest then .removed
  else .updated

def finishActivation (options : Options) (manifest : ManagedPackageManifest) (prepared : State)
    (candidate : Candidate) (previous : Option GenerationRecord) (recovered rolledBack : Bool) :
    Runtime ReconcileResult := do
  let switched := stateWithActivation prepared
    { prepared.activation with phase := .switchedHealthPending }
  persist switched
  let health ← checkHealth candidate
  if health.healthy = false then
    let failure := postSwitchFailure candidate health
    let rollbackPending := rollbackPendingState switched failure
    persist rollbackPending
    let recovery ← recoverTransaction options rollbackPending (some candidate.storePath)
    if recovery.rolledBack then
      throw (.managed
        { code := .failure .healthFailure, message := failure.message, phase := .rollbackPending })
    else
      throw (.managed
        { code := .failure .rollbackFailure
          message := "managed generation rollback did not complete"
          phase := .rollbackPending })
  else
    let committed := committedState switched candidate previous health
    retainStateGenerations committed none
    persist committed
    resultFromState options committed
      (if rolledBack then .rolledBack else if recovered then .recovered
        else commitOutcome previous manifest)

def stageCandidate (options : Options) (manifest : ManagedPackageManifest) (state : State)
    (pointer : Option String) (built : BuiltGeneration) (candidate : Candidate)
    (recovered rolledBack : Bool) : Runtime ReconcileResult := do
  let pointerAfterBuild ← tryCatch (request Operation.readPointer) fun error =>
    throw (.managed { code := .failure .pointerCorrupt, message := errorMessage error })
  if pointerAfterBuild ≠ pointer then
    throw (.managed
      { code := .failure .ambiguousActivation
        message := "managed generation build changed current selection unexpectedly " ++
          s!"(observed={shown pointerAfterBuild}, expected={shown pointer})" })
  else
    let prepared := preparedState state manifest candidate options.now
    retainStateGenerations prepared (some candidate)
    persist prepared
    activate manifest built state pointer candidate
    finishActivation options manifest prepared candidate state.active recovered rolledBack

/-- What follows once there is no unfinished transaction. -/
def reconcileIdle (options : Options) (state : Option State) (pointer : Option String)
    (recovered rolledBack : Bool) : Runtime ReconcileResult := do
  let manifest ← requireManifest state
  let state := state.getD (initialState manifest.semanticIdentity)
  if state.activation.phase = .idle then
    liftM (assertIdleActivation state)
    liftM (assertStablePointer state pointer)
  match ← currentGeneration options manifest state with
  | some active => keepActive options manifest state active recovered
  | none =>
      let (built, candidate) ← buildCandidate options manifest state
      stageCandidate options manifest state pointer built candidate recovered rolledBack

/-- `reconcileManagedRuntimeLocked`. -/
def reconcileManagedRuntime (options : Options) : Runtime ReconcileResult := do
  let (state, pointer) ← loadStateAndPointer
  match state with
  | none => reconcileIdle options none pointer false false
  | some state =>
      if state.activation.phase = .idle then
        reconcileIdle options (some state) pointer false false
      else
        let recovery ← recoverTransaction options state pointer
        reconcileIdle options (some recovery.state) recovery.pointer recovery.recovered
          recovery.rolledBack

/-- `recoverManagedRuntimeLocked`. -/
def recoverManagedRuntime (options : Options) : Runtime ReconcileResult := do
  let (state, pointer) ← loadStateAndPointer
  match state with
  | none => reconcileManagedRuntime options
  | some state =>
      if state.activation.phase = .idle then reconcileManagedRuntime options
      else
        let recovery ← recoverTransaction options state pointer
        resultFromState options recovery.state
          (if recovery.rolledBack then .rolledBack else .recovered)

/-- The two entry points. -/
inductive Call where
  | reconcile (options : Options)
  | recover (options : Options)

def Call.body : Call → Program Operation (fun operation => Except Thrown operation.Value)
    (Except Thrown ReconcileResult)
  | .reconcile options => (reconcileManagedRuntime options).run
  | .recover options => (recoverManagedRuntime options).run

structure Transaction (state : State) (candidate : Candidate) : Prop where
  activates : state.activation.candidate = some candidate
  desired : state.desiredManifestSemanticIdentity = candidate.desiredManifestSemanticIdentity
  previous : state.activation.previous = state.active

def Coherent (state : State) (pointer : Option String) : Prop :=
  match state.activation.phase with
  | .idle => state.activation = { phase := .idle } ∧ pointer = activePath state
  | .prepared => ∃ c, Transaction state c ∧ (pointer = some c.storePath ∨ pointer = activePath state)
  | .switchedHealthPending => ∃ c, Transaction state c ∧ pointer = some c.storePath
  | .rollbackPending =>
      ∃ c, Transaction state c ∧ (pointer = some c.storePath ∨ pointer = activePath state)
  | .rollbackHealthPending => ∃ c r, Transaction state c ∧ state.active = some r ∧
      pointer = some r.storePath

/-- The state file and the pointer agree. -/
def Consistent (world : World) : Prop :=
  match world.state with
  | none => world.pointer = none
  | some state => Coherent state world.pointer

/-- There is no unfinished transaction. -/
def Settled (world : World) : Prop :=
  ∀ state, world.state = some state → state.activation.phase = .idle

def World.active (world : World) : Option GenerationRecord := world.state.bind (·.active)

def World.previous (world : World) : Option GenerationRecord := world.state.bind (·.previous)

def LastProbe (world : World) (generation : Candidate) (healthy : Bool) : Prop :=
  world.probes.head? = some ⟨generation, some generation.storePath, healthy⟩

/-- The state stages a candidate over what is on disk. -/
structure Prepares (world : World) (next : State) : Prop where
  settled : Settled world
  phase : next.activation.phase = .prepared
  transaction : ∃ c, Transaction next c
  active : next.active = world.active
  previous : next.previous = world.previous

structure Commits (world : World) (state : State) (candidate : Candidate) (next : State) :
    Prop where
  found : world.state = some state
  phase : state.activation.phase = .switchedHealthPending
  activates : state.activation.candidate = some candidate
  probe : LastProbe world candidate true
  active : ∃ evidence, next.active = some (recordFromCandidate candidate evidence)
  previous : next.previous = state.activation.previous.or state.previous
  activation : next.activation = { phase := .idle }

/-- The transitions of the state file. -/
inductive Writes (world : World) : State → Prop where
  | settle {next} (settled : Settled world)
      (active : next.active.map candidateFromRecord = world.active.map candidateFromRecord)
      (previous : next.previous = world.previous)
      (activation : next.activation = { phase := .idle }) : Writes world next
  | prepare {next} (prepares : Prepares world next)
      (roots : world.roots = retainedRoots next none) : Writes world next
  | abandon {state next} (found : world.state = some state)
      (phase : state.activation.phase = .prepared) (pointer : world.pointer = activePath state)
      (active : next.active = state.active) (previous : next.previous = state.previous)
      (activation : next.activation = { phase := .idle }) : Writes world next
  | switch {state candidate} (failure) (found : world.state = some state)
      (phase : state.activation.phase = .prepared)
      (activates : state.activation.candidate = some candidate)
      (pointer : world.pointer = some candidate.storePath) :
      Writes world (stateWithActivation state
        { state.activation with phase := .switchedHealthPending, failure })
  | fail {state candidate} (failure) (found : world.state = some state)
      (phase : state.activation.phase = .switchedHealthPending)
      (activates : state.activation.candidate = some candidate)
      (probe : LastProbe world candidate false) :
      Writes world (rollbackPendingState state failure)
  | rollback {state record} (found : world.state = some state)
      (phase : state.activation.phase = .rollbackPending ∨
        state.activation.phase = .rollbackHealthPending)
      (previous : state.activation.previous = some record)
      (pointer : world.pointer = some record.storePath) :
      Writes world (stateWithActivation state
        { state.activation with phase := .rollbackHealthPending })
  | rollbackFailed {state} (failure) (found : world.state = some state)
      (phase : state.activation.phase = .rollbackHealthPending) :
      Writes world { state with failure }
  | restore {state record} (evidence) (found : world.state = some state)
      (phase : state.activation.phase = .rollbackHealthPending)
      (previous : state.activation.previous = some record)
      (probe : LastProbe world (candidateFromRecord record) true) :
      Writes world
        { state with
          active := some (recordFromCandidate (candidateFromRecord record) evidence)
          activation := { phase := .idle } }
  | clear {state} (found : world.state = some state)
      (phase : state.activation.phase = .rollbackPending)
      (previous : state.activation.previous = none) (pointer : world.pointer = none) :
      Writes world { state with active := none, activation := { phase := .idle } }
  | commit {state candidate next} (commits : Commits world state candidate next)
      (roots : world.roots = retainedRoots state none ∨ world.roots = retainedRoots next none) :
      Writes world next

/-- The moves of the pointer. -/
inductive Selects (world : World) : String → Prop where
  | candidate {state candidate} (found : world.state = some state)
      (phase : state.activation.phase = .prepared)
      (activates : state.activation.candidate = some candidate) : Selects world candidate.storePath
  | previous {state record} (found : world.state = some state)
      (phase : state.activation.phase = .rollbackPending)
      (previous : state.activation.previous = some record) : Selects world record.storePath

/-- The sets of roots towards which an update may work. -/
inductive Plans (world : World) : RetentionRoots → Prop where
  | own {state} (found : world.state = some state) : Plans world (retainedRoots state none)
  | stage {next} (prepares : Prepares world next) : Plans world (retainedRoots next none)
  | commit {state candidate next} (commits : Commits world state candidate next) :
      Plans world (retainedRoots next none)

def RetentionSlot.earlier : RetentionSlot → List RetentionSlot
  | .active => []
  | .previous => [.active]
  | .candidate => [.active, .previous]

/-- The planned targets of these slots are in place. -/
def Installed (plan roots : RetentionRoots) (slots : List RetentionSlot) : Prop :=
  ∀ slot ∈ slots, ∀ target, plan.get slot = some target → roots.get slot = some target

def Permitted : Operation → World → Prop
  | .writeState next, world => Writes world next
  | .selectPointer storePath, world => Selects world storePath
  | .clearPointer, world => ∃ state, world.state = some state ∧
      state.activation.phase = .rollbackPending ∧ state.activation.previous = none
  | .healthCheck generation, world => world.pointer = some generation.storePath
  | .setRoot slot target, world => ∃ plan, Plans world plan ∧ plan.get slot = some target ∧
      Installed plan world.roots slot.earlier
  | .removeRoot slot, world => ∃ plan, Plans world plan ∧ plan.get slot = none ∧
      Installed plan world.roots retentionSlots
  | _, _ => True

section Coherent

variable {state : State} {pointer : Option String} {candidate : Candidate}

theorem coherent_idle (h : state.activation.phase = .idle) :
    Coherent state pointer ↔
      state.activation = { phase := .idle } ∧ pointer = activePath state := by
  simp only [Coherent, h]

theorem coherent_of_activation (h : state.activation = { phase := .idle }) :
    Coherent state pointer ↔ pointer = activePath state := by
  rw [coherent_idle (by rw [h])]
  exact and_iff_right h

theorem coherent_prepared (h : state.activation.phase = .prepared) :
    Coherent state pointer ↔
      ∃ c, Transaction state c ∧ (pointer = some c.storePath ∨ pointer = activePath state) := by
  simp only [Coherent, h]

theorem coherent_switched (h : state.activation.phase = .switchedHealthPending) :
    Coherent state pointer ↔ ∃ c, Transaction state c ∧ pointer = some c.storePath := by
  simp only [Coherent, h]

theorem coherent_rollbackPending (h : state.activation.phase = .rollbackPending) :
    Coherent state pointer ↔
      ∃ c, Transaction state c ∧ (pointer = some c.storePath ∨ pointer = activePath state) := by
  simp only [Coherent, h]

theorem coherent_rollbackHealthPending (h : state.activation.phase = .rollbackHealthPending) :
    Coherent state pointer ↔ ∃ c r, Transaction state c ∧ state.active = some r ∧
      pointer = some r.storePath := by
  simp only [Coherent, h]

theorem Coherent.transaction (h : Coherent state pointer) (hphase : state.activation.phase ≠ .idle) :
    ∃ c, Transaction state c := by
  cases hp : state.activation.phase with
  | idle => exact absurd hp hphase
  | prepared =>
    obtain ⟨c, htransaction, -⟩ := (coherent_prepared hp).1 h
    exact ⟨c, htransaction⟩
  | switchedHealthPending =>
    obtain ⟨c, htransaction, -⟩ := (coherent_switched hp).1 h
    exact ⟨c, htransaction⟩
  | rollbackPending =>
    obtain ⟨c, htransaction, -⟩ := (coherent_rollbackPending hp).1 h
    exact ⟨c, htransaction⟩
  | rollbackHealthPending =>
    obtain ⟨c, _, htransaction, -⟩ := (coherent_rollbackHealthPending hp).1 h
    exact ⟨c, htransaction⟩

theorem Transaction.of_same {next : State} (h : Transaction state candidate)
    (hcandidate : next.activation.candidate = state.activation.candidate)
    (hprevious : next.activation.previous = state.activation.previous)
    (hactive : next.active = state.active)
    (hdesired : next.desiredManifestSemanticIdentity = state.desiredManifestSemanticIdentity) :
    Transaction next candidate :=
  ⟨hcandidate.trans h.activates, hdesired.trans h.desired,
    hprevious.trans (h.previous.trans hactive.symm)⟩

theorem Transaction.eq {other : Candidate} (h : Transaction state candidate)
    (hother : state.activation.candidate = some other) : other = candidate :=
  Option.some.inj (hother.symm.trans h.activates)

end Coherent

section Consistent

variable {world : World} {state next : State} {candidate : Candidate}

theorem consistent_some (h : world.state = some state) :
    Consistent world ↔ Coherent state world.pointer := by
  simp only [Consistent, h]

theorem consistent_pointer {pointer : Option String} (h : world.state = some state) :
    Consistent { world with pointer } ↔ Coherent state pointer := consistent_some h

theorem consistent_state : Consistent { world with state := some next } ↔
    Coherent next world.pointer := Iff.rfl

theorem consistent_none (h : world.state = none) : Consistent world ↔ world.pointer = none := by
  simp only [Consistent, h]

/-- With no unfinished transaction the pointer names the active generation. -/
theorem Consistent.pointer_eq (h : Consistent world) (hsettled : Settled world) :
    world.pointer = world.active.map (·.storePath) := by
  cases hstate : world.state with
  | none =>
    rw [(consistent_none hstate).1 h, World.active, hstate]
    rfl
  | some state =>
    rw [World.active, hstate]
    exact ((coherent_idle (hsettled state hstate)).1 ((consistent_some hstate).1 h)).2

theorem map_storePath_of_map_candidate {first second : Option GenerationRecord}
    (h : first.map candidateFromRecord = second.map candidateFromRecord) :
    first.map (·.storePath) = second.map (·.storePath) := by
  have hpaths := congrArg (Option.map (·.storePath)) h
  rwa [Option.map_map, Option.map_map] at hpaths

/-- Every transition of the state file leads to a state that agrees with the pointer. -/
theorem Writes.coherent (h : Writes world next) (hw : Consistent world) :
    Coherent next world.pointer := by
  cases h with
  | settle settled active previous activation =>
    rw [coherent_of_activation activation, hw.pointer_eq settled]
    exact map_storePath_of_map_candidate active.symm
  | prepare prepares roots =>
    obtain ⟨c, htransaction⟩ := prepares.transaction
    refine (coherent_prepared prepares.phase).2 ⟨c, htransaction, Or.inr ?_⟩
    rw [hw.pointer_eq prepares.settled, activePath, prepares.active]
  | abandon found phase pointer active previous activation =>
    rw [coherent_of_activation activation, pointer, activePath, activePath, active]
  | switch failure found phase activates pointer =>
    obtain ⟨c, htransaction, -⟩ := (coherent_prepared phase).1 ((consistent_some found).1 hw)
    obtain rfl := htransaction.eq activates
    exact (coherent_switched rfl).2 ⟨_, htransaction.of_same rfl rfl rfl rfl, pointer⟩
  | fail failure found phase activates probe =>
    obtain ⟨c, htransaction, hpointer⟩ :=
      (coherent_switched phase).1 ((consistent_some found).1 hw)
    exact (coherent_rollbackPending rfl).2
      ⟨c, htransaction.of_same rfl rfl rfl rfl, Or.inl hpointer⟩
  | @rollback state record found phase previous pointer =>
    have hne : state.activation.phase ≠ .idle := by rcases phase with h | h <;> simp [h]
    obtain ⟨c, htransaction⟩ := ((consistent_some found).1 hw).transaction hne
    exact (coherent_rollbackHealthPending rfl).2 ⟨c, record, htransaction.of_same rfl rfl rfl rfl,
      htransaction.previous.symm.trans previous, pointer⟩
  | rollbackFailed failure found phase =>
    obtain ⟨c, r, htransaction, hactive, hpointer⟩ :=
      (coherent_rollbackHealthPending phase).1 ((consistent_some found).1 hw)
    refine (coherent_rollbackHealthPending ?_).2
      ⟨c, r, htransaction.of_same rfl rfl rfl rfl, hactive, hpointer⟩
    exact phase
  | restore evidence found phase previous probe =>
    obtain ⟨c, r, htransaction, hactive, hpointer⟩ :=
      (coherent_rollbackHealthPending phase).1 ((consistent_some found).1 hw)
    obtain rfl := Option.some.inj (previous.symm.trans (htransaction.previous.trans hactive))
    exact (coherent_of_activation rfl).2 hpointer
  | clear found phase previous pointer =>
    exact (coherent_of_activation rfl).2 pointer
  | commit commits roots =>
    obtain ⟨c, htransaction, hpointer⟩ :=
      (coherent_switched commits.phase).1 ((consistent_some commits.found).1 hw)
    obtain rfl := htransaction.eq commits.activates
    obtain ⟨evidence, hactive⟩ := commits.active
    rw [coherent_of_activation commits.activation, hpointer, activePath, hactive]
    rfl

/-- The pointer only moves to where the phase allows it to be. -/
theorem Selects.consistent {path : String} (h : Selects world path) (hw : Consistent world) :
    Consistent { world with pointer := some path } := by
  cases h with
  | candidate found phase activates =>
    obtain ⟨c, htransaction, -⟩ := (coherent_prepared phase).1 ((consistent_some found).1 hw)
    obtain rfl := htransaction.eq activates
    exact (consistent_pointer found).2 ((coherent_prepared phase).2 ⟨_, htransaction, Or.inl rfl⟩)
  | @previous state record found phase previous =>
    obtain ⟨c, htransaction, -⟩ :=
      (coherent_rollbackPending phase).1 ((consistent_some found).1 hw)
    refine (consistent_pointer found).2 ((coherent_rollbackPending phase).2
      ⟨_, htransaction, Or.inr ?_⟩)
    rw [activePath, ← htransaction.previous, previous]
    rfl

theorem Permitted.consistent {operation : Operation} (h : Permitted operation world)
    (hw : Consistent world) : Consistent (operation.effect world) := by
  cases operation with
  | writeState next => exact consistent_state.2 (Writes.coherent h hw)
  | selectPointer path => exact Selects.consistent h hw
  | clearPointer =>
    obtain ⟨state, hstate, hphase, hprevious⟩ := h
    obtain ⟨c, htransaction, -⟩ :=
      (coherent_rollbackPending hphase).1 ((consistent_some hstate).1 hw)
    refine (consistent_pointer hstate).2 ((coherent_rollbackPending hphase).2
      ⟨c, htransaction, Or.inr ?_⟩)
    rw [activePath, ← htransaction.previous, hprevious]
    rfl
  | _ => exact hw

end Consistent

section Outcomes

variable {world world' : World} {operation : Operation}
variable {answer : Except Thrown operation.Value}

/-- An operation on files was carried out, or has failed and may have been carried out. -/
theorem outcomes_result {value : operation.Value} (hvalue : operation.result world = some value)
    (h : outcomes operation world answer world') :
    (answer = .ok value ∧ world' = operation.effect world) ∨
      ∃ message, answer = .error (.other message) ∧
        (world' = world ∨ world' = operation.effect world) := by
  simpa only [outcomes, hvalue] using h

theorem outcomes_adapter (hvalue : operation.result world = none)
    (h : outcomes operation world answer world') : world' = operation.recorded answer world := by
  simpa only [outcomes, hvalue] using h

theorem consistent_recorded (hw : Consistent world) :
    Consistent (operation.recorded answer world) := by
  cases operation with
  | _ => exact hw

theorem Permitted.consistent_outcome (hpermitted : Permitted operation world)
    (hw : Consistent world) (h : outcomes operation world answer world') : Consistent world' := by
  cases hvalue : operation.result world with
  | none =>
    rw [outcomes_adapter hvalue h]
    exact consistent_recorded hw
  | some value =>
    rcases outcomes_result hvalue h with ⟨-, rfl⟩ | ⟨_, -, rfl | rfl⟩
    · exact hpermitted.consistent hw
    · exact hw
    · exact hpermitted.consistent hw

end Outcomes

end Mottainai.ManagedRuntime

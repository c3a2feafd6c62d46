import Mottainai.JavaScriptValues
import Mottainai.TaskLifecycle
import Mottainai.InterleavingContract

/-!
# The compensation of a failed task start

A task start that fails may have left a session behind. The compensation demotes the task, finds the
session, and closes it if it is the one that was planned, which it has seen to be active. It deletes
the reservation only if there is no session or it is not active any more. What the companion answers
about its sessions may be anything. It may call itself, but only with a session, so that the number
of its calls is bounded.
-/

namespace Mottainai.TaskStart

open Interleaving JavaScriptValues TaskLifecycle

section Data

structure NawabariSession where
  sessionId : String
  repository : Option String
  worktree : String
  branch : String
  state : String
  label : Option String
  deriving DecidableEq

/-- `TaskStartExpectation`, but for what the compensation does not read. -/
structure TaskStartExpectation where
  taskLabel : String
  branchName : String
  canonicalRepositoryRoot : String
  gitCommonDir : String

structure TaskRecord where
  lifecycleState : LifecycleState
  version : ℕ
  nawabariSessionId : Option String
  deriving DecidableEq

inductive ReconciliationState where
  | reserved
  | sessionCreated
  | attached
  | active
  | orphaned
  | abandoned
  deriving DecidableEq

structure TaskStartReconciliationRecord where
  state : ReconciliationState
  nawabariSessionId : Option String
  detail : Option String
  deriving DecidableEq

structure Store where
  task : Option TaskRecord
  reconciliation : Option TaskStartReconciliationRecord

/-- `realpathSync.native`, which may throw. -/
abbrev Realpath : Type := String → Option String

def sameCanonicalPath (realpath : Realpath) (left right : String) : Bool :=
  match realpath left, realpath right with
  | some left, some right => left = right
  | _, _ => left = right

def sessionIdentityMismatches (realpath : Realpath) (session : NawabariSession)
    (expected : TaskStartExpectation) (expectedSessionId : String) : List String :=
  (if session.sessionId ≠ expectedSessionId then ["session"] else []) ++
  (if session.repository.any (fun repository =>
      sameCanonicalPath realpath repository expected.canonicalRepositoryRoot ||
        sameCanonicalPath realpath repository expected.gitCommonDir) then []
    else ["repository"]) ++
  (if session.label ≠ some expected.taskLabel then ["task label"] else []) ++
  (if session.branch ≠ expected.branchName then ["branch"] else [])

structure CompensationInput where
  task : TaskRecord
  reconciliation : TaskStartReconciliationRecord
  expected : TaskStartExpectation
  session : Option NawabariSession
  externalSessionMayExist : Bool
  ownsReservation : Bool

def CompensationInput.sessionId (input : CompensationInput) : Option String :=
  input.reconciliation.nawabariSessionId.or
    (input.task.nawabariSessionId.or (input.session.map (·.sessionId)))

end Data

section Operations

/-- The calls of the store and of the companion. -/
inductive Operation where
  | getTask
  | updateTaskStartReconciliation (state : ReconciliationState) (detail : String)
  | updateTaskLifecycleStateIfCurrent (expectedLifecycle : LifecycleState) (expectedVersion : ℕ)
      (next : LifecycleState)
  | deleteReservedTask
  | recordTaskStartSession (sessionId : String)
  | listSessions
  | showSession (sessionId : String)
  | closeSession (worktree sessionId : String)
  deriving DecidableEq

/-- What a call returns. The conditional update tells whether the row was the expected one. -/
abbrev Operation.Value : Operation → Type
  | getTask => Option TaskRecord
  | updateTaskStartReconciliation _ _ => Unit
  | updateTaskLifecycleStateIfCurrent _ _ _ => Bool
  | deleteReservedTask => Unit
  | recordTaskStartSession _ => TaskStartReconciliationRecord
  | listSessions => List NawabariSession
  | showSession _ => NawabariSession
  | closeSession _ _ => Unit

abbrev Compensation (α : Type) : Type := Throwing Operation Operation.Value String α

/-- `updateTaskStartReconciliation`, unless it fails. -/
def updateReconciliation (state : ReconciliationState) (detail : String) (store : Store) :
    Except String Unit × Store :=
  match store.reconciliation with
  | none => (.error "task-start reconciliation not found", store)
  | some record =>
      (.ok (), { store with
        reconciliation := some { record with state, detail := some (slice 512 detail) } })

/-- `updateTaskLifecycleStateIfCurrent`, unless it fails. -/
def updateLifecycle (expectedLifecycle : LifecycleState) (expectedVersion : ℕ)
    (next : LifecycleState) (store : Store) : Bool × Store :=
  match store.task with
  | none => (false, store)
  | some task =>
      if task.lifecycleState = expectedLifecycle ∧ task.version = expectedVersion then
        (true, { store with
          task := some { task with lifecycleState := next, version := task.version + 1 } })
      else (false, store)

/-- `deleteReservedTask`, unless it fails. -/
def deletePlanned (store : Store) : Store :=
  { store with task := store.task.filter (·.lifecycleState ≠ .planned) }

/-- `recordTaskStartSession`, unless it fails. -/
def recordSession (sessionId : String) (store : Store) :
    Except String TaskStartReconciliationRecord × Store :=
  match store.reconciliation with
  | none => (.error "task-start reconciliation not found", store)
  | some record =>
      if record.nawabariSessionId = none ∨ record.nawabariSessionId = some sessionId then
        let recorded := { record with
          nawabariSessionId := some sessionId
          state := if record.state = .reserved then .sessionCreated else record.state }
        (.ok recorded, { store with reconciliation := some recorded })
      else (.error "task-start reconciliation references a different Nawabari session", store)

/-- What a call does. A write of the store may fail instead, and the companion may answer
anything. -/
def Operation.outcome : Semantics Operation (fun op => Except String op.Value) Store
  | getTask, store, r, store' => r = .ok store.task ∧ store' = store
  | updateTaskStartReconciliation state detail, store, r, store' =>
      (r, store') = updateReconciliation state detail store ∨ ((∃ e, r = .error e) ∧ store' = store)
  | updateTaskLifecycleStateIfCurrent expectedLifecycle expectedVersion next, store, r, store' =>
      (r = .ok (updateLifecycle expectedLifecycle expectedVersion next store).1 ∧
        store' = (updateLifecycle expectedLifecycle expectedVersion next store).2) ∨
      ((∃ e, r = .error e) ∧ store' = store)
  | deleteReservedTask, store, r, store' =>
      (r = .ok () ∧ store' = deletePlanned store) ∨ ((∃ e, r = .error e) ∧ store' = store)
  | recordTaskStartSession sessionId, store, r, store' =>
      (r, store') = recordSession sessionId store ∨ ((∃ e, r = .error e) ∧ store' = store)
  | listSessions, store, _, store' => store' = store
  | showSession _, store, _, store' => store' = store
  | closeSession _ _, store, _, store' => store' = store

end Operations

section Calls

def getTask : Compensation (Option TaskRecord) := request Operation.getTask

def updateTaskStartReconciliation (state : ReconciliationState) (detail : String) :
    Compensation Unit := request (Operation.updateTaskStartReconciliation state detail)

def updateTaskLifecycleStateIfCurrent (expectedLifecycle : LifecycleState) (expectedVersion : ℕ)
    (next : LifecycleState) : Compensation Bool :=
  request (Operation.updateTaskLifecycleStateIfCurrent expectedLifecycle expectedVersion next)

def deleteReservedTask : Compensation Unit := request Operation.deleteReservedTask

def recordTaskStartSession (sessionId : String) : Compensation TaskStartReconciliationRecord :=
  request (Operation.recordTaskStartSession sessionId)

def listSessions : Compensation (List NawabariSession) := request Operation.listSessions

def showSession (sessionId : String) : Compensation NawabariSession :=
  request (Operation.showSession sessionId)

def closeSession (worktree sessionId : String) : Compensation Unit :=
  request (Operation.closeSession worktree sessionId)

end Calls

section Compensating

variable (realpath : Realpath)

/-- What was thrown, instead of throwing it. -/
def caught {α : Type} (x : Compensation α) : Compensation (Except String α) :=
  tryCatch (do
    let value ← x
    pure (.ok value)) fun e => pure (.error e)

def bestEffortReconciliationState (state : ReconciliationState) (detail : String) :
    Compensation Unit :=
  tryCatch (updateTaskStartReconciliation state detail) fun _ => pure ()

/-- `transitionTask(...).ok`. -/
def transitionTask (next : LifecycleState) : Compensation Bool := do
  let task ← getTask
  match task with
  | none => throw "task not found"
  | some task =>
      match validateTransition task.lifecycleState next with
      | .blocked _ => pure false
      | .allowed _ _ =>
          updateTaskLifecycleStateIfCurrent task.lifecycleState task.version next

def transitionTaskBestEffort (next : LifecycleState) : Compensation Bool :=
  tryCatch (do
    let current ← getTask
    match current with
    | none => pure true
    | some current => if current.lifecycleState = next then pure true else transitionTask next)
    fun _ => pure false

/-- Give the session up: nothing is known that could be closed. -/
def orphan (detail : String) : Compensation Unit := do
  bestEffortReconciliationState .orphaned detail
  discard (transitionTaskBestEffort .orphaned)

/-- The last part: the session was closed, or it was not active any more. -/
def compensated (input : CompensationInput) (sessionId : String) (demotedActiveTask : Bool) :
    Compensation Unit := do
  let current ← getTask
  let lifecycle := current.map (·.lifecycleState)
  if lifecycle = some .planned ∧ input.ownsReservation then deleteReservedTask
  else do
    bestEffortReconciliationState
      (if demotedActiveTask then .abandoned
        else if lifecycle = some .orphaned then .orphaned else .abandoned)
      s!"task-start compensated Nawabari session {sessionId}"
    if demotedActiveTask ∧ lifecycle = some .orphaned then
      discard (transitionTaskBestEffort .abandoned)
    else if lifecycle ≠ none ∧ lifecycle ≠ some .orphaned ∧ lifecycle ≠ some .abandoned then
      discard (transitionTaskBestEffort .abandoned)
    else pure ()

def closeObserved (input : CompensationInput) (sessionId : String) (demotedActiveTask : Bool)
    (observed : NawabariSession) : Compensation Unit :=
  let mismatches := sessionIdentityMismatches realpath observed input.expected sessionId
  if mismatches ≠ [] then
    let parts := ", ".intercalate mismatches
    orphan s!"refusing compensation for Nawabari session {sessionId}: identity mismatch ({parts})"
  else if observed.state = "active" then do
    let closed ← caught (closeSession observed.worktree sessionId)
    match closed with
    | .error e => orphan s!"cannot close owned Nawabari session {sessionId}: {e}"
    | .ok _ => compensated input sessionId demotedActiveTask
  else compensated input sessionId demotedActiveTask

def compensateSession (input : CompensationInput) (sessionId : String) (demotedActiveTask : Bool) :
    Compensation Unit := do
  let observed ← caught (showSession sessionId)
  match observed with
  | .error e => orphan s!"cannot prove ownership of Nawabari session {sessionId}: {e}"
  | .ok observed => closeObserved realpath input sessionId demotedActiveTask observed

def plannedCandidate (expected : TaskStartExpectation) (sessions : List NawabariSession) :
    Option NawabariSession :=
  match sessions.filter (·.label = some expected.taskLabel) with
  | [candidate] =>
      if sessionIdentityMismatches realpath candidate expected candidate.sessionId = [] then
        some candidate
      else none
  | _ => none

/-- Before anything is asked about a session: an active task is demoted, and a planned one is
marked. The answer says whether to go on. -/
def secureTask (input : CompensationInput) (lifecycle : Option LifecycleState) : Compensation Bool :=
  if lifecycle = some .active then do
    let known := input.sessionId.getD "(unknown)"
    bestEffortReconciliationState .orphaned
      s!"task-start compensation is verifying Nawabari session {known}"
    transitionTaskBestEffort .orphaned
  else match input.sessionId with
    | some sessionId =>
        if lifecycle = some .planned then do
          bestEffortReconciliationState .orphaned
            s!"task-start compensation is closing Nawabari session {sessionId}"
          pure true
        else pure true
    | none => pure true

/-- `compensateTaskStart`. It calls itself with a session that it has found. -/
def compensateTaskStart (input : CompensationInput) : Compensation Unit := do
  let currentBeforeObservation ← getTask
  let lifecycle := currentBeforeObservation.map (·.lifecycleState)
  let secured ← secureTask input lifecycle
  if secured = false then pure ()
  else match _unknown : input.sessionId with
    | some sessionId => compensateSession realpath input sessionId (lifecycle = some .active)
    | none =>
        if input.ownsReservation ∧ !input.externalSessionMayExist ∧
            input.task.lifecycleState = .planned ∧ input.reconciliation.state = .reserved then
          deleteReservedTask
        else do
          let recovered ← if input.externalSessionMayExist then caught (do
              let sessions ← listSessions
              match plannedCandidate realpath input.expected sessions with
              | none => pure false
              | some candidate => do
                  let recovered ← recordTaskStartSession candidate.sessionId
                  compensateTaskStart
                    { input with reconciliation := recovered, session := some candidate }
                  pure true)
            else pure (.ok false)
          if recovered.toOption = some true then pure ()
          else orphan "task-start failed without a provable Nawabari session identity"
termination_by if input.sessionId = none then 1 else 0
decreasing_by
  rw [if_pos _unknown, if_neg]
  · exact Nat.one_pos
  · simp [CompensationInput.sessionId]

end Compensating

abbrev History : Type := Answers Operation fun op => Except String op.Value

section Conditions

variable (realpath : Realpath) (input : CompensationInput)

/-- The session is the planned one. -/
structure Verified (expected : TaskStartExpectation) (sessionId : String)
    (session : NawabariSession) : Prop where
  id : session.sessionId = sessionId
  repository : ∃ repository, session.repository = some repository ∧
    (sameCanonicalPath realpath repository expected.canonicalRepositoryRoot = true ∨
      sameCanonicalPath realpath repository expected.gitCommonDir = true)
  label : session.label = some expected.taskLabel
  branch : session.branch = expected.branchName

theorem mismatches_eq_nil {expected : TaskStartExpectation} {sessionId : String}
    {session : NawabariSession} :
    sessionIdentityMismatches realpath session expected sessionId = [] ↔
      Verified realpath expected sessionId session := by
  have hparts : ∀ (p : Prop) [Decidable p] (part : String),
      ((if p then [part] else []) = [] ↔ ¬ p) ∧ ((if p then [] else [part]) = [] ↔ p) := by
    intro p _ part
    split_ifs with hp <;> simp [hp]
  simp only [sessionIdentityMismatches, List.append_eq_nil_iff, (hparts _ _).1, (hparts _ _).2,
    not_not, Option.any_eq_true, Bool.or_eq_true, ne_eq]
  constructor
  · rintro ⟨⟨⟨hid, hrepository⟩, hlabel⟩, hbranch⟩
    exact ⟨hid, hrepository, hlabel, hbranch⟩
  · exact fun h => ⟨⟨⟨h.id, h.repository⟩, h.label⟩, h.branch⟩

/-- The session is known beforehand, or it was found: it is the only one with the label of the
task. -/
def Known (l : History) (sessionId : String) : Prop :=
  input.sessionId = some sessionId ∨ ∃ sessions candidate,
    ⟨.listSessions, .ok sessions⟩ ∈ l ∧
      plannedCandidate realpath input.expected sessions = some candidate ∧
      candidate.sessionId = sessionId

structure Seen (l : History) (sessionId : String) (observed : NawabariSession) : Prop where
  mem : ⟨.showSession sessionId, .ok observed⟩ ∈ l
  known : Known realpath input l sessionId
  verified : Verified realpath input.expected sessionId observed

/-- The planned session is not active: it was seen so, or it was closed. -/
def Settled (l : History) : Prop :=
  ∃ sessionId observed, Seen realpath input l sessionId observed ∧
    (observed.state ≠ "active" ∨ ⟨.closeSession observed.worktree sessionId, .ok ()⟩ ∈ l)

/-- Where a call is allowed, after these answers. -/
def allows : Operation → Store → History → Prop
  | .closeSession worktree sessionId, _, l => ∃ observed, Seen realpath input l sessionId observed ∧
      observed.state = "active" ∧ observed.worktree = worktree
  | .deleteReservedTask, _, l => input.ownsReservation = true ∧
      ((input.externalSessionMayExist = false ∧ input.sessionId = none) ∨ Settled realpath input l)
  | .updateTaskLifecycleStateIfCurrent _ _ next, _, _ => next ≠ .active
  | _, _, _ => True

/-- A call that is allowed everywhere. -/
def Free : Operation → Prop
  | .closeSession _ _ => False
  | .deleteReservedTask => False
  | .updateTaskLifecycleStateIfCurrent _ _ next => next ≠ .active
  | _ => True

def NotActive (store : Store) : Prop := store.task.map (·.lifecycleState) ≠ some .active

/-- The last answer is the failure of a write of the lifecycle. -/
def WriteFailed (l : History) : Prop :=
  ∃ expected version next e,
    l.getLast? = some ⟨.updateTaskLifecycleStateIfCurrent expected version next, .error e⟩

variable {realpath input} {l l' : History} {sessionId : String}

theorem Known.later (h : Known realpath input l sessionId) (hl : l <+: l') :
    Known realpath input l' sessionId :=
  h.imp id fun ⟨sessions, candidate, hmem, hfound⟩ => ⟨sessions, candidate, hl.subset hmem, hfound⟩

theorem Seen.later {observed : NawabariSession} (h : Seen realpath input l sessionId observed)
    (hl : l <+: l') : Seen realpath input l' sessionId observed :=
  ⟨hl.subset h.mem, h.known.later hl, h.verified⟩

theorem Settled.later (h : Settled realpath input l) (hl : l <+: l') : Settled realpath input l' := by
  obtain ⟨sessionId, observed, hseen, hclosed⟩ := h
  exact ⟨sessionId, observed, hseen.later hl, hclosed.imp id fun hmem => hl.subset hmem⟩

end Conditions

section Keeping

variable {realpath : Realpath} {input : CompensationInput} {store store' : Store} {l : History}
variable {op : Operation}

theorem Free.allows (h : Free op) : allows realpath input op store l := by
  cases op <;> first | exact h | cases h

theorem task_updateReconciliation (state : ReconciliationState) (detail : String) (store : Store) :
    (updateReconciliation state detail store).2.task = store.task := by
  unfold updateReconciliation
  split <;> rfl

theorem task_recordSession (sessionId : String) (store : Store) :
    (recordSession sessionId store).2.task = store.task := by
  unfold recordSession
  split
  · rfl
  · split <;> rfl

theorem notActive_updateLifecycle {expectedLifecycle next : LifecycleState} {expectedVersion : ℕ}
    (hnext : next ≠ .active) (h : NotActive store) :
    NotActive (updateLifecycle expectedLifecycle expectedVersion next store).2 := by
  unfold updateLifecycle
  split
  · exact h
  · split
    · simpa [NotActive] using hnext
    · exact h

theorem notActive_deletePlanned (h : NotActive store) : NotActive (deletePlanned store) := by
  unfold NotActive deletePlanned at *
  cases htask : store.task with
  | none => simp
  | some task =>
    rw [htask] at h
    by_cases hplanned : task.lifecycleState = .planned
    · simp [hplanned]
    · simpa [hplanned] using h

theorem notActive_outcome {r : Except String op.Value}
    (hallows : TaskStart.allows realpath input op store l) (hout : op.outcome store r store')
    (h : NotActive store) : NotActive store' := by
  have hsame : store'.task = store.task → NotActive store' := fun htask => by
    rw [NotActive, htask]
    exact h
  cases op with
  | getTask => exact hsame (by rw [hout.2])
  | updateTaskStartReconciliation state detail =>
    rcases hout with heq | ⟨-, rfl⟩
    · have hstore : store' = (updateReconciliation state detail store).2 := congrArg Prod.snd heq
      exact hsame (by rw [hstore, task_updateReconciliation])
    · exact h
  | updateTaskLifecycleStateIfCurrent expectedLifecycle expectedVersion next =>
    rcases hout with ⟨-, rfl⟩ | ⟨-, rfl⟩
    · exact notActive_updateLifecycle hallows h
    · exact h
  | deleteReservedTask =>
    rcases hout with ⟨-, rfl⟩ | ⟨-, rfl⟩
    · exact notActive_deletePlanned h
    · exact h
  | recordTaskStartSession sessionId =>
    rcases hout with heq | ⟨-, rfl⟩
    · have hstore : store' = (recordSession sessionId store).2 := congrArg Prod.snd heq
      exact hsame (by rw [hstore, task_recordSession])
    · exact h
  | listSessions => exact hsame (congrArg Store.task hout)
  | showSession sessionId => exact hsame (congrArg Store.task hout)
  | closeSession worktree sessionId => exact hsame (congrArg Store.task hout)

end Keeping

section Free

theorem free_getTask : getTask.run.Issues Free := issues_request trivial

theorem free_bestEffortReconciliationState (state : ReconciliationState) (detail : String) :
    (bestEffortReconciliationState state detail).run.Issues Free :=
  issues_tryCatch (issues_request trivial) fun _ => trivial

variable {next : LifecycleState}

theorem free_transitionTask (hnext : next ≠ .active) : (transitionTask next).run.Issues Free := by
  apply issues_bind free_getTask
  intro task
  cases task with
  | none => trivial
  | some task =>
    dsimp only
    split
    · trivial
    · exact issues_request hnext

theorem free_transitionTaskBestEffort (hnext : next ≠ .active) :
    (transitionTaskBestEffort next).run.Issues Free := by
  refine issues_tryCatch (issues_bind free_getTask fun current => ?_) fun _ => trivial
  cases current with
  | none => trivial
  | some current =>
    dsimp only
    split_ifs
    · trivial
    · exact free_transitionTask hnext

theorem free_discard {x : Compensation Bool} (hx : x.run.Issues Free) :
    (discard x).run.Issues Free := issues_bind hx fun _ => trivial

theorem free_orphan (detail : String) : (orphan detail).run.Issues Free :=
  issues_bind (free_bestEffortReconciliationState _ _) fun _ =>
    free_discard (free_transitionTaskBestEffort nofun)

end Free

section Steps

variable {realpath : Realpath} {input : CompensationInput} {store : Store} {l : History}
  {α β : Type} {post : Except String α → Store → History → Prop}

/-- A part of the compensation that is only carried out where this is allowed. -/
abbrev SafePart (realpath : Realpath) (input : CompensationInput) (x : Compensation α)
    (post : Except String α → Store → History → Prop) (store : Store) (l : History) : Prop :=
  x.run.Safe Operation.outcome (.undisturbed fun _ => True) (allows realpath input) post store l

/-- Nothing is promised about the end. -/
abbrev Whatever (_ : Except String α) (_ : Store) (_ : History) : Prop := True

variable {x : Compensation α} {f : β → Compensation α}

theorem SafePart.bind {x : Compensation β} {M : Except String β → Store → History → Prop}
    {Q : Except String α → Store → History → Prop} (h : SafePart realpath input x M store l)
    (hok : ∀ v store' l', M (.ok v) store' l' → SafePart realpath input (f v) Q store' l')
    (herror : ∀ e store' l', M (.error e) store' l' → Q (.error e) store' l') :
    SafePart realpath input (x >>= f) Q store l := by
  apply safe_bind
  refine h.mono fun r store' l' hr => ?_
  cases r with
  | ok v => exact hok v store' l' hr
  | error e => exact herror e store' l' hr

theorem SafePart.bind_free {x : Compensation β} (hx : x.run.Issues Free)
    (hf : ∀ v store' l', l <+: l' → SafePart realpath input (f v) Whatever store' l') :
    SafePart realpath input (x >>= f) Whatever store l :=
  SafePart.bind (M := fun _ _ l' => l <+: l') (hx.safe (fun _ _ _ hop => hop.allows)
    fun _ _ _ hl => hl) hf fun _ _ _ _ => trivial

theorem SafePart.of_free (hx : x.run.Issues Free) : SafePart realpath input x Whatever store l :=
  hx.safe (fun _ _ _ hop => hop.allows) fun _ _ _ _ => trivial

theorem SafePart.caught {post : Except String (Except String α) → Store → History → Prop}
    (h : SafePart realpath input x (fun r => post (.ok r)) store l) :
    SafePart realpath input (caught x) post store l := by
  apply safe_tryCatch
  apply safe_bind
  refine h.mono fun r store l hr => ?_
  cases r with
  | ok v => exact hr
  | error e => exact hr

/-- The task stays as it is, in that it is not active. -/
theorem SafePart.notActive (h : SafePart realpath input x post store l) (hstore : NotActive store) :
    SafePart realpath input x (fun r store l => post r store l ∧ NotActive store) store l := by
  refine Program.Safe.keeping ?_ h hstore
  intro op s r s' l' hallows hout hs
  exact notActive_outcome hallows hout hs

theorem safePart_request {op : Operation} {post : Except String op.Value → Store → History → Prop}
    (hallows : allows realpath input op store l)
    (h : ∀ r store', op.outcome store r store' → post r store' (l ++ [⟨op, r⟩])) :
    SafePart realpath input (request op) post store l :=
  safe_request_undisturbed hallows fun r store' hout => ⟨trivial, h r store' hout⟩

theorem safePart_getTask {post : Except String (Option TaskRecord) → Store → History → Prop}
    (h : post (.ok store.task) store (l ++ [⟨.getTask, .ok store.task⟩])) :
    SafePart realpath input getTask post store l := by
  refine safePart_request trivial ?_
  rintro r store' ⟨rfl, rfl⟩
  exact h

end Steps

section Parts

variable {realpath : Realpath} {input input' : CompensationInput} {sessionId : String}
  {store : Store} {l : History}

theorem safe_compensated (howns : input'.ownsReservation = input.ownsReservation)
    (hsettled : Settled realpath input l) (demotedActiveTask : Bool) :
    SafePart realpath input (compensated input' sessionId demotedActiveTask) Whatever store l := by
  apply SafePart.bind_free free_getTask
  intro current store' l' hl
  dsimp only
  split
  · next hplanned =>
    refine safePart_request ⟨?_, Or.inr (hsettled.later hl)⟩ fun _ _ _ => trivial
    exact howns.symm.trans hplanned.2
  · refine SafePart.of_free (issues_bind (free_bestEffortReconciliationState _ _) fun _ => ?_)
    split
    · exact free_discard (free_transitionTaskBestEffort nofun)
    · split
      · exact free_discard (free_transitionTaskBestEffort nofun)
      · trivial

theorem safe_closeObserved (hexpected : input'.expected = input.expected)
    (howns : input'.ownsReservation = input.ownsReservation) {observed : NawabariSession}
    (hknown : Known realpath input l sessionId)
    (hmem : ⟨.showSession sessionId, .ok observed⟩ ∈ l) (demotedActiveTask : Bool) :
    SafePart realpath input (closeObserved realpath input' sessionId demotedActiveTask observed)
      Whatever store l := by
  unfold closeObserved
  dsimp only
  split_ifs with hmismatch hactive
  · exact SafePart.of_free (free_orphan _)
  · have hseen : Seen realpath input l sessionId observed :=
      ⟨hmem, hknown, by
        rw [← mismatches_eq_nil, ← hexpected]
        exact not_not.1 hmismatch⟩
    refine SafePart.bind (M := fun r _ l' => ∃ answer : Except String Unit, r = .ok answer ∧
      l' = l ++ [⟨.closeSession observed.worktree sessionId, answer⟩]) ?_ ?_ ?_
    · exact SafePart.caught (safePart_request ⟨observed, hseen, hactive, rfl⟩
        fun r store' _ => ⟨r, rfl, rfl⟩)
    · rintro closed store' l' ⟨answer, ⟨⟩, rfl⟩
      cases closed with
      | error e => exact SafePart.of_free (free_orphan _)
      | ok v =>
        refine safe_compensated howns ⟨sessionId, observed, ?_, Or.inr ?_⟩ _
        · exact hseen.later (List.prefix_append _ _)
        · exact List.mem_append_right _ (List.mem_singleton.2 rfl)
    · exact fun _ _ _ _ => trivial
  · have hverified : Verified realpath input.expected sessionId observed := by
      rw [← mismatches_eq_nil, ← hexpected]
      exact not_not.1 hmismatch
    exact safe_compensated howns ⟨sessionId, observed, ⟨hmem, hknown, hverified⟩, Or.inl hactive⟩ _

theorem safe_compensateSession (hexpected : input'.expected = input.expected)
    (howns : input'.ownsReservation = input.ownsReservation)
    (hknown : Known realpath input l sessionId) (demotedActiveTask : Bool) :
    SafePart realpath input (compensateSession realpath input' sessionId demotedActiveTask)
      Whatever store l := by
  refine SafePart.bind (M := fun r _ l' => ∃ answer : Except String NawabariSession,
    r = .ok answer ∧ l' = l ++ [⟨.showSession sessionId, answer⟩]) ?_ ?_ ?_
  · exact SafePart.caught (safePart_request trivial fun r store' _ => ⟨r, rfl, rfl⟩)
  · rintro observed store' l' ⟨answer, ⟨⟩, rfl⟩
    cases observed with
    | error e => exact SafePart.of_free (free_orphan _)
    | ok observed =>
      apply safe_closeObserved hexpected howns (hknown.later (List.prefix_append _ _))
      exact List.mem_append_right _ (List.mem_singleton.2 rfl)
  · exact fun _ _ _ _ => trivial

end Parts

section Securing

variable {realpath : Realpath} {input input' : CompensationInput} {store : Store} {l : History}

/-- What is promised about a task that was to be demoted. -/
def Demoted (r : Except String Bool) (store : Store) (l : History) : Prop :=
  ∃ done, r = .ok done ∧ (NotActive store ∨ (done = false ∧ WriteFailed l))

theorem validateTransition_demoted :
    validateTransition .active .orphaned = .allowed .active .orphaned := by decide

/-- The demotion of an active task: it is not active afterwards, or the write has failed. -/
theorem safe_demote (hactive : store.task.map (·.lifecycleState) = some .active) :
    SafePart realpath input (transitionTaskBestEffort .orphaned) Demoted store l := by
  obtain ⟨task, htask, hlifecycle⟩ := Option.map_eq_some_iff.1 hactive
  apply safe_tryCatch
  refine SafePart.bind (M := fun r store' _ => r = .ok (some task) ∧ store' = store) ?_ ?_ ?_
  · exact safePart_getTask ⟨by rw [htask], rfl⟩
  · rintro current store' l' ⟨⟨⟩, rfl⟩
    have hne : task.lifecycleState ≠ .orphaned := by
      rw [hlifecycle]
      nofun
    dsimp only
    rw [if_neg hne]
    refine SafePart.bind (M := fun r store'' _ => r = .ok (some task) ∧ store'' = store') ?_ ?_ ?_
    · exact safePart_getTask ⟨by rw [htask], rfl⟩
    · rintro current store'' l'' ⟨⟨⟩, rfl⟩
      dsimp only
      rw [hlifecycle, validateTransition_demoted]
      refine safePart_request nofun ?_
      rintro r t (⟨rfl, rfl⟩ | ⟨⟨e, rfl⟩, rfl⟩)
      · refine ⟨_, rfl, Or.inl ?_⟩
        simp [updateLifecycle, htask, hlifecycle, NotActive]
      · exact ⟨false, rfl, Or.inr ⟨rfl, _, _, _, e, List.getLast?_concat⟩⟩
    · rintro e store'' l'' ⟨⟨⟩, -⟩
  · rintro e store' l' ⟨⟨⟩, -⟩

theorem safe_bestEffortReconciliationState (state : ReconciliationState) (detail : String) :
    SafePart realpath input (bestEffortReconciliationState state detail)
      (fun r store' _ => r = .ok () ∧ store'.task = store.task) store l := by
  apply safe_tryCatch
  refine safePart_request trivial ?_
  rintro r store' (heq | ⟨⟨e, rfl⟩, rfl⟩)
  · have hstore : store' = (updateReconciliation state detail store).2 := congrArg Prod.snd heq
    have htask : store'.task = store.task := by rw [hstore, task_updateReconciliation]
    cases r with
    | ok v => exact ⟨rfl, htask⟩
    | error e => exact ⟨rfl, htask⟩
  · exact ⟨rfl, rfl⟩

theorem safe_secureTask :
    SafePart realpath input (secureTask input' (store.task.map (·.lifecycleState))) Demoted store
      l := by
  have hmarked : ∀ {x : Compensation Bool} (state : ReconciliationState) (detail : String),
      (∀ store' l', store'.task = store.task → SafePart realpath input x Demoted store' l') →
      SafePart realpath input (bestEffortReconciliationState state detail >>= fun _ => x) Demoted
        store l := by
    intro x state detail hx
    refine SafePart.bind (safe_bestEffortReconciliationState state detail) ?_ ?_
    · rintro v store' l' ⟨-, htask⟩
      exact hx store' l' htask
    · rintro e store' l' ⟨⟨⟩, -⟩
  have hdone : ¬ store.task.map (·.lifecycleState) = some .active → ∀ store' l',
      store'.task = store.task → SafePart realpath input (pure true) Demoted store' l' := by
    intro hactive store' l' htask
    exact ⟨true, rfl, Or.inl (by rw [NotActive, htask]; exact hactive)⟩
  unfold secureTask
  split
  · next hactive =>
    exact hmarked _ _ fun store' l' htask => safe_demote (by rw [htask]; exact hactive)
  · next hactive =>
    split
    · split
      · exact hmarked _ _ (hdone hactive)
      · exact hdone hactive store l rfl
    · exact hdone hactive store l rfl

/-- Before a session is asked about, the task is not active, and then it stays so. -/
theorem safe_secured {rest : Option TaskRecord → Compensation Unit}
    (hrest : ∀ current store' l', l <+: l' →
      SafePart realpath input (rest current) Whatever store' l') :
    SafePart realpath input (do
      let current ← getTask
      let secured ← secureTask input' (current.map (·.lifecycleState))
      if secured = false then pure () else rest current)
      (fun _ store' l' => NotActive store' ∨ WriteFailed l') store l := by
  refine SafePart.bind (M := fun r store' l' => r = .ok store.task ∧ store' = store ∧ l <+: l')
    (safePart_getTask ⟨rfl, rfl, List.prefix_append _ _⟩) ?_ ?_
  · rintro current store' l₁ ⟨⟨⟩, rfl, hl₁⟩
    refine SafePart.bind (M := fun r store' l' => l₁ <+: l' ∧ Demoted r store' l') ?_ ?_ ?_
    · exact Program.Safe.extending List.prefix_rfl
        (safe_secureTask.mono fun _ _ _ hr hl => ⟨hl, hr⟩)
    · rintro secured store₂ l₂ ⟨hl₂, done, ⟨⟩, hdemoted⟩
      split
      · exact hdemoted.imp id And.right
      · next hsecured =>
        have hnotActive : NotActive store₂ := hdemoted.resolve_right fun h => hsecured h.1
        refine ((hrest _ store₂ l₂ (hl₁.trans hl₂)).notActive hnotActive).mono ?_
        exact fun _ _ _ h => Or.inl h.2
    · rintro e store₂ l₂ ⟨-, done, ⟨⟩, -⟩
  · rintro e store' l₁ ⟨⟨⟩, -⟩

end Securing

section Compensation

variable {realpath : Realpath} {input input' : CompensationInput} {sessionId : String}
  {store : Store} {l : History}

theorem safe_known (hexpected : input'.expected = input.expected)
    (howns : input'.ownsReservation = input.ownsReservation)
    (hid : input'.sessionId = some sessionId) (hknown : Known realpath input l sessionId) :
    SafePart realpath input (compensateTaskStart realpath input')
      (fun _ store' l' => NotActive store' ∨ WriteFailed l') store l := by
  rw [compensateTaskStart]
  apply safe_secured
  intro current store' l' hl
  split
  · next found hfound =>
    cases hid.symm.trans hfound
    exact safe_compensateSession hexpected howns (hknown.later hl) _
  · next hunknown =>
    rw [hid] at hunknown
    cases hunknown

theorem recorded_session {recorded : TaskStartReconciliationRecord} {store' : Store}
    (h : (.ok recorded, store') = recordSession sessionId store) :
    recorded.nawabariSessionId = some sessionId := by
  unfold recordSession at h
  split at h
  · cases h
  · split at h
    · cases h
      rfl
    · cases h

/-- The search for a session, which may end with the compensation of the one that is found. -/
theorem safe_recovery {candidate : NawabariSession} {sessions : List NawabariSession}
    (hmem : ⟨.listSessions, .ok sessions⟩ ∈ l)
    (hfound : plannedCandidate realpath input.expected sessions = some candidate) :
    SafePart realpath input (do
      let recovered ← recordTaskStartSession candidate.sessionId
      compensateTaskStart realpath
        { input with reconciliation := recovered, session := some candidate }
      pure true) Whatever store l := by
  refine SafePart.bind (M := fun r _ l' => l <+: l' ∧
    ∀ recorded, r = .ok recorded → recorded.nawabariSessionId = some candidate.sessionId) ?_ ?_
    fun _ _ _ _ => trivial
  · refine safePart_request trivial fun r store' hout => ⟨List.prefix_append _ _, ?_⟩
    rintro recorded rfl
    rcases hout with heq | ⟨⟨e, ⟨⟩⟩, -⟩
    exact recorded_session heq
  · rintro recorded store' l' ⟨hl, hrecorded⟩
    refine SafePart.bind (M := Whatever) ?_ (fun _ _ _ _ => trivial) fun _ _ _ _ => trivial
    have hknown : Known realpath input l' candidate.sessionId :=
      Or.inr ⟨sessions, candidate, hl.subset hmem, hfound, rfl⟩
    have hid : CompensationInput.sessionId
        { input with reconciliation := recorded, session := some candidate } =
          some candidate.sessionId := by
      simp [CompensationInput.sessionId, hrecorded recorded rfl]
    refine Program.Safe.mono (safe_known ?_ ?_ hid hknown) fun _ _ _ _ => trivial
    · rfl
    · rfl

theorem safe_compensateTaskStart :
    SafePart realpath input (compensateTaskStart realpath input)
      (fun _ store' l' => NotActive store' ∨ WriteFailed l') store l := by
  cases hid : input.sessionId with
  | some sessionId => exact safe_known rfl rfl hid (Or.inl hid)
  | none =>
    rw [compensateTaskStart]
    apply safe_secured
    intro current store' l' hl
    split
    · next found hfound =>
      rw [hid] at hfound
      cases hfound
    · split
      · next howned =>
        refine safePart_request ⟨howned.1, Or.inl ⟨?_, hid⟩⟩ fun _ _ _ => trivial
        simpa using howned.2.1
      · have hend : ∀ recovered : Except String Bool, ∀ store₂ l₂, SafePart realpath input
            (if recovered.toOption = some true then pure ()
              else orphan "task-start failed without a provable Nawabari session identity")
            Whatever store₂ l₂ := by
          intro recovered store₂ l₂
          split
          · trivial
          · exact SafePart.of_free (free_orphan _)
        dsimp only
        split
        · refine SafePart.bind (M := Whatever) (Q := Whatever) ?_
            (fun recovered store₂ l₂ _ => hend recovered store₂ l₂) fun _ _ _ _ => trivial
          apply SafePart.caught
          refine SafePart.bind (M := fun r _ l' => ∀ sessions,
            r = .ok sessions → ⟨.listSessions, .ok sessions⟩ ∈ l') (Q := Whatever) ?_ ?_
            fun _ _ _ _ => trivial
          · refine safePart_request trivial fun r store₂ _ sessions hr => ?_
            rw [hr]
            exact List.mem_append_right _ (List.mem_singleton.2 rfl)
          · intro sessions store₂ l₂ hmem
            split
            · trivial
            · next candidate hfound => exact safe_recovery (hmem sessions rfl) hfound
        · exact hend (.ok false) store' l'

end Compensation

section Calls

variable {realpath : Realpath} {input : CompensationInput} {sessionId : String}

theorem within_bestEffortReconciliationState (state : ReconciliationState) (detail : String) :
    (bestEffortReconciliationState state detail).run.Within 1 :=
  within_tryCatch (n := 0) (within_request _) fun _ => within_pure ()

theorem within_transitionTaskBestEffort (next : LifecycleState) :
    (transitionTaskBestEffort next).run.Within 3 := by
  refine within_tryCatch (n := 0) (within_bind (n := 2) (within_request _) fun current => ?_)
    fun _ => within_pure _
  cases current with
  | none => exact within_pure true
  | some current =>
    dsimp only
    split
    · exact within_pure true
    · refine within_bind (n := 1) (within_request _) fun task => ?_
      cases task with
      | none => exact within_throw _
      | some task =>
        dsimp only
        split
        · exact within_pure false
        · exact within_request _

theorem within_orphan (detail : String) : (orphan detail).run.Within 4 :=
  within_bind (within_bestEffortReconciliationState _ _) fun _ =>
    within_bind (n := 0) (within_transitionTaskBestEffort _) fun _ => within_pure ()

variable (demotedActiveTask : Bool)

theorem within_compensated : (compensated input sessionId demotedActiveTask).run.Within 5 := by
  refine within_bind (n := 4) (within_request _) fun current => ?_
  dsimp only
  split
  · exact (within_request _).mono (by omega)
  · refine within_bind (n := 3) (within_bestEffortReconciliationState _ _) fun _ => ?_
    split
    · exact within_bind (n := 0) (within_transitionTaskBestEffort _) fun _ => within_pure ()
    · split
      · exact within_bind (n := 0) (within_transitionTaskBestEffort _) fun _ => within_pure ()
      · exact within_pure ()

theorem within_caught {α : Type} {n : ℕ} {x : Compensation α} (hx : x.run.Within n) :
    (caught x).run.Within n :=
  within_tryCatch (n := 0) (within_bind (n := 0) hx fun _ => within_pure _) fun _ => within_pure _

theorem within_compensateSession :
    (compensateSession realpath input sessionId demotedActiveTask).run.Within 7 := by
  refine within_bind (n := 6) (within_caught (within_request _)) fun observed => ?_
  cases observed with
  | error e => exact (within_orphan _).mono (by omega)
  | ok observed =>
    dsimp only
    unfold closeObserved
    dsimp only
    split
    · exact (within_orphan _).mono (by omega)
    · split
      · refine within_bind (n := 5) (within_caught (within_request _)) fun closed => ?_
        cases closed with
        | error e => exact (within_orphan _).mono (by omega)
        | ok v => exact within_compensated _
      · exact (within_compensated _).mono (by omega)

theorem within_secured {n : ℕ} {rest : Option TaskRecord → Compensation Unit}
    (hrest : ∀ current, (rest current).run.Within n) :
    (do
      let current ← getTask
      let secured ← secureTask input (current.map (·.lifecycleState))
      if secured = false then pure () else rest current : Compensation Unit).run.Within
        (1 + (4 + n)) := by
  refine within_bind (within_request _) fun current => within_bind ?_ fun secured => ?_
  · unfold secureTask
    split
    · exact within_bind (within_bestEffortReconciliationState _ _) fun _ =>
        within_transitionTaskBestEffort _
    · split
      · split
        · exact within_bind (n := 3) (within_bestEffortReconciliationState _ _) fun _ =>
            within_pure true
        · exact within_pure true
      · exact within_pure true
  · split
    · exact within_pure ()
    · exact hrest current

theorem within_known (hid : input.sessionId ≠ none) :
    (compensateTaskStart realpath input).run.Within 12 := by
  rw [compensateTaskStart]
  refine within_secured (n := 7) fun current => ?_
  split
  · exact within_compensateSession _
  · next hunknown => exact absurd hunknown hid

/-- No more calls are made, although the compensation may call itself. -/
theorem within_compensateTaskStart : (compensateTaskStart realpath input).run.Within 23 := by
  cases hid : input.sessionId with
  | some sessionId => exact (within_known (by rw [hid]; nofun)).mono (by omega)
  | none =>
    rw [compensateTaskStart]
    refine within_secured (n := 18) fun current => ?_
    split
    · next found hfound =>
      rw [hid] at hfound
      cases hfound
    · split
      · exact (within_request _).mono (by omega)
      · have hend : ∀ recovered : Except String Bool, ((if recovered.toOption = some true then pure ()
            else orphan "task-start failed without a provable Nawabari session identity" :
              Compensation Unit).run.Within 4) := by
          intro recovered
          split
          · exact within_pure ()
          · exact within_orphan _
        dsimp only
        split
        · refine within_bind (n := 4) (within_caught (within_bind (n := 13) (within_request _)
            fun sessions => ?_)) hend
          split
          · exact within_pure false
          · refine within_bind (n := 12) (within_request _) fun recovered => ?_
            refine within_bind (n := 0) (within_known ?_) fun _ => within_pure true
            simp [CompensationInput.sessionId]
        · exact (hend (.ok false)).mono (by omega)

end Calls

section Runs

def closingInput : CompensationInput where
  task := ⟨.planned, 1, none⟩
  reconciliation := ⟨.sessionCreated, some "nw-7", none⟩
  expected := ⟨"mottainai-task-t1", "mottainai/t1", "/repo", "/repo/.git"⟩
  session := none
  externalSessionMayExist := true
  ownsReservation := true

def closingSession : NawabariSession where
  sessionId := "nw-7"
  repository := some "/repo"
  worktree := "/worktrees/nw-7"
  branch := "mottainai/t1"
  state := "closing"
  label := some "mottainai-task-t1"

def closingStore : Store := ⟨some closingInput.task, some closingInput.reconciliation⟩

def closingDetail : String := "task-start compensation is closing Nawabari session nw-7"

def closingAnswers : History :=
  [⟨.getTask, .ok (some closingInput.task)⟩,
    ⟨.updateTaskStartReconciliation .orphaned closingDetail, .ok ()⟩,
    ⟨.showSession "nw-7", .ok closingSession⟩,
    ⟨.getTask, .ok (some closingInput.task)⟩,
    ⟨.deleteReservedTask, .ok ()⟩]

theorem closing_halts :
    Halts Operation.outcome (compensateTaskStart (fun _ => none) closingInput).run closingStore
      closingAnswers (.returned (.ok ()))
      (deletePlanned (updateReconciliation .orphaned closingDetail closingStore).2) := by
  rw [compensateTaskStart]
  refine .call ⟨rfl, rfl⟩ (.call (Or.inl rfl) (.call rfl (.call ⟨rfl, rfl⟩ ?_)))
  exact .call (Or.inl ⟨rfl, rfl⟩) (.returned _ _)

end Runs

end Mottainai.TaskStart

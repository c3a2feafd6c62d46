import Mottainai.JavaScriptValues
import Mottainai.OperationSequences
import Mottainai.TaskTransitions

/-!
# Managed pull requests

The state of a managed pull request and the inputs derived from one of its generations, with the
store methods that write them. A generation is the head that was observed. Recording another head
marks the derived inputs stale.
-/

namespace Mottainai.ManagedPullRequests

open Interleaving JavaScriptValues OperationSequences TaskStore

section Tables

structure ManagedPullRequestGeneration where
  repository : String
  prNumber : ℤ
  headSha : String
  deriving DecidableEq, Repr

inductive ManagedPullRequestCoarseState where
  | awaiting
  | remediationRequired
  | mergeReady
  | merged
  deriving DecidableEq, Repr

structure ManagedPullRequestState where
  stateId : String
  taskId : Option String
  instanceId : Option String
  provider : String
  repositoryId : String
  prNumber : ℤ
  generation : ManagedPullRequestGeneration
  coarseState : ManagedPullRequestCoarseState
  observationSource : String
  observationContract : String
  observationOperation : String
  observationRef : String
  observationDigest : Option String
  createdAt : ℤ
  updatedAt : ℤ
  deriving DecidableEq, Repr

inductive ManagedPullRequestDerivedInputKind where
  | derived
  | remediation
  deriving DecidableEq, Repr

inductive ManagedPullRequestDerivedInputState where
  | current
  | stale
  deriving DecidableEq, Repr

structure ManagedPullRequestDerivedInput where
  inputId : String
  stateId : String
  kind : ManagedPullRequestDerivedInputKind
  generation : ManagedPullRequestGeneration
  state : ManagedPullRequestDerivedInputState
  createdAt : ℤ
  updatedAt : ℤ
  deriving DecidableEq, Repr

/-- The key of the `UNIQUE` constraint. -/
def ManagedPullRequestState.identity (state : ManagedPullRequestState) : String × String × ℤ :=
  (state.provider, state.repositoryId, state.prNumber)

structure Tables where
  instances : List String
  tasks : List TaskRecord
  states : List ManagedPullRequestState
  derivedInputs : List ManagedPullRequestDerivedInput

/-- The task of a state is there; the key is not checked when a part of it is null. -/
def HasTask (tasks : List TaskRecord) (state : ManagedPullRequestState) : Prop :=
  ∀ taskId ∈ state.taskId, ∀ instanceId ∈ state.instanceId,
    (taskId, instanceId) ∈ tasks.map fun task => (task.taskId, task.instanceId)

instance (tasks : List TaskRecord) (state : ManagedPullRequestState) :
    Decidable (HasTask tasks state) := inferInstanceAs (Decidable (∀ taskId ∈ state.taskId, _))

/-- The `PRIMARY KEY`, `UNIQUE`, `CHECK` and `FOREIGN KEY` constraints. -/
def Constraints (t : Tables) : Prop :=
  (t.tasks.map (·.taskId)).Nodup ∧
    (t.states.map (·.stateId)).Nodup ∧ (t.states.map (·.identity)).Nodup ∧
    (∀ state ∈ t.states, 0 < state.prNumber ∧ 0 < state.generation.prNumber) ∧
    (∀ state ∈ t.states, ∀ instanceId ∈ state.instanceId, instanceId ∈ t.instances) ∧
    (∀ state ∈ t.states, HasTask t.tasks state) ∧
    (t.derivedInputs.map (·.inputId)).Nodup ∧
    (∀ input ∈ t.derivedInputs, 0 < input.generation.prNumber) ∧
    ∀ input ∈ t.derivedInputs, input.stateId ∈ t.states.map (·.stateId)

instance (t : Tables) : Decidable (Constraints t) := inferInstanceAs (Decidable (_ ∧ _))

structure Database extends Tables where
  constraints : Constraints toTables

namespace Database

def empty : Database := ⟨⟨[], [], [], []⟩, by decide⟩

def write (t : Tables) : Except String Database :=
  if h : Constraints t then .ok ⟨t, h⟩ else .error "constraint failed"

/-- `SELECT … FROM tasks WHERE task_id = ?`. -/
def task (db : Database) (taskId : String) : Option TaskRecord :=
  db.tasks.find? (·.taskId = taskId)

/-- `SELECT * FROM managed_pr_states WHERE state_id = ?`. -/
def state (db : Database) (stateId : String) : Option ManagedPullRequestState :=
  db.states.find? (·.stateId = stateId)

/-- `SELECT * FROM managed_pr_states WHERE provider = ? AND repository_id = ? AND pr_number = ?`. -/
def stateOf (db : Database) (provider repositoryId : String) (prNumber : ℤ) :
    Option ManagedPullRequestState :=
  db.states.find? (·.identity = (provider, repositoryId, prNumber))

/-- `SELECT * FROM managed_pr_derived_inputs WHERE input_id = ?`. -/
def derivedInput (db : Database) (inputId : String) : Option ManagedPullRequestDerivedInput :=
  db.derivedInputs.find? (·.inputId = inputId)

end Database

end Tables

section States

structure RecordManagedPullRequestStateInput where
  taskId : Option String := none
  instanceId : Option String := none
  provider : String
  repositoryId : String
  prNumber : ℤ
  generation : ManagedPullRequestGeneration
  coarseState : ManagedPullRequestCoarseState
  observationSource : String
  observationContract : String
  observationOperation : String
  observationRef : String
  observationDigest : Option String := none
  recordedAt : Option ℤ := none

/-- `MAX_MANAGED_PR_FIELD_LENGTH`. -/
def maxManagedPrFieldLength : ℕ := 512

def observationFields (input : RecordManagedPullRequestStateInput) :
    List (String × Option String) :=
  [("observationSource", some input.observationSource),
    ("observationContract", some input.observationContract),
    ("observationOperation", some input.observationOperation),
    ("observationRef", some input.observationRef),
    ("observationDigest", input.observationDigest)]

def checkObservation (field : String × Option String) : Except String Unit :=
  require (∀ value ∈ field.2, isBlank value = false ∧ utf16Length value ≤ maxManagedPrFieldLength)
    s!"managed pull-request {field.1} is invalid or exceeds its bound"

/-- The checks of `recordManagedPullRequestState` on its input. -/
def checkStateInput (input : RecordManagedPullRequestStateInput) : Except String Unit := do
  require (isBlank input.provider = false) "managed pull-request provider must not be empty"
  require (isBlank input.repositoryId = false)
    "managed pull-request repository identity must not be empty"
  require (isSafeInteger input.prNumber = true ∧ 0 < input.prNumber)
    "managed pull-request number must be a positive integer"
  require (input.generation.repository = input.repositoryId ∧
      input.generation.prNumber = input.prNumber)
    "managed pull-request generation identity does not match the PR identity"
  require (isBlank input.generation.headSha = false ∧ isTrimmed input.generation.headSha = true)
    "managed pull-request generation head must not be empty"
  (observationFields input).forM checkObservation

/-- The instance of a state: the given one, or the one of its task. -/
def stateInstance (db : Database) (input : RecordManagedPullRequestStateInput) :
    Except String (Option String) :=
  match input.taskId with
  | none => pure input.instanceId
  | some taskId => do
    let task ← found (db.task taskId) s!"task not found: {taskId}"
    require (∀ instanceId ∈ input.instanceId, instanceId = task.instanceId)
      s!"managed pull-request task repository mismatch: {taskId}"
    pure (some (input.instanceId.getD task.instanceId))

/-- `SET state = 'stale' … WHERE state_id = ? AND generation_head_sha <> ?`. -/
def staleUnless (stateId headSha : String) (now : ℤ) (input : ManagedPullRequestDerivedInput) :
    ManagedPullRequestDerivedInput :=
  if input.stateId = stateId ∧ input.generation.headSha ≠ headSha then
    { input with state := .stale, updatedAt := now }
  else input

def rollOver (db : Database) (current : ManagedPullRequestState)
    (generation : ManagedPullRequestGeneration) (now : ℤ) : Except String Database :=
  if current.generation.headSha ≠ generation.headSha then
    Database.write { db.toTables with
      derivedInputs := db.derivedInputs.map (staleUnless current.stateId generation.headSha now) }
  else pure db

def observed (input : RecordManagedPullRequestStateInput) (now : ℤ)
    (state : ManagedPullRequestState) : ManagedPullRequestState :=
  { state with
    generation := input.generation
    coarseState := input.coarseState
    observationSource := input.observationSource
    observationContract := input.observationContract
    observationOperation := input.observationOperation
    observationRef := input.observationRef
    observationDigest := input.observationDigest
    updatedAt := now }

def recordedState (input : RecordManagedPullRequestStateInput) (instanceId : Option String)
    (stateId : String) (now : ℤ) : ManagedPullRequestState where
  stateId := stateId
  taskId := input.taskId
  instanceId := instanceId
  provider := input.provider
  repositoryId := input.repositoryId
  prNumber := input.prNumber
  generation := input.generation
  coarseState := input.coarseState
  observationSource := input.observationSource
  observationContract := input.observationContract
  observationOperation := input.observationOperation
  observationRef := input.observationRef
  observationDigest := input.observationDigest
  createdAt := now
  updatedAt := now

/-- The transaction of `recordManagedPullRequestState` after the instance is known. -/
def writeState (db : Database) (input : RecordManagedPullRequestStateInput)
    (instanceId : Option String) (uuid : String) (now : ℤ) :
    Except String (ManagedPullRequestState × Database) :=
  match db.stateOf input.provider input.repositoryId input.prNumber with
  | some current => do
    require (current.taskId = input.taskId ∧ current.instanceId = instanceId)
      "managed pull-request state already exists with different task identity"
    let rolled ← rollOver db current input.generation now
    let db' ← Database.write { rolled.toTables with
      states := rolled.states.map fun state =>
        if state.stateId = current.stateId then observed input now state else state }
    let row ← found (db'.state current.stateId) undefinedRow
    pure (row, db')
  | none => do
    let db' ← Database.write { db.toTables with
      states := db.states ++ [recordedState input instanceId uuid now] }
    let row ← found (db'.state uuid) undefinedRow
    pure (row, db')

/-- `recordManagedPullRequestState`; `uuid` and `now` are what the method draws. -/
def recordManagedPullRequestState (db : Database) (input : RecordManagedPullRequestStateInput)
    (uuid : String) (now : ℤ) : Except String (ManagedPullRequestState × Database) := do
  checkStateInput input
  let instanceId ← stateInstance db input
  writeState db input instanceId uuid (input.recordedAt.getD now)

end States

section DerivedInputs

structure RecordManagedPullRequestDerivedInput where
  stateId : String
  kind : ManagedPullRequestDerivedInputKind
  generation : ManagedPullRequestGeneration
  recordedAt : Option ℤ := none

def recordedInput (input : RecordManagedPullRequestDerivedInput) (inputId : String) (now : ℤ) :
    ManagedPullRequestDerivedInput where
  inputId := inputId
  stateId := input.stateId
  kind := input.kind
  generation := input.generation
  state := .current
  createdAt := now
  updatedAt := now

/-- `recordManagedPullRequestDerivedInput`. -/
def recordManagedPullRequestDerivedInput (db : Database)
    (input : RecordManagedPullRequestDerivedInput) (uuid : String) (now : ℤ) :
    Except String (ManagedPullRequestDerivedInput × Database) := do
  let state ← found (db.state input.stateId)
    s!"managed pull-request state not found: {input.stateId}"
  require (state.generation.repository = input.generation.repository ∧
      state.generation.prNumber = input.generation.prNumber ∧
      state.generation.headSha = input.generation.headSha)
    "managed pull-request derived input belongs to a stale generation"
  let db' ← Database.write { db.toTables with
    derivedInputs := db.derivedInputs ++ [recordedInput input uuid (input.recordedAt.getD now)] }
  let row ← found (db'.derivedInput uuid) undefinedRow
  pure (row, db')

def writeReferred (db : Database) (instances : List String) (tasks : List TaskRecord) :
    Except String (Unit × Database) := do
  let states := db.states.filter fun state => decide (HasTask tasks state)
  let derivedInputs := db.derivedInputs.filter fun input =>
    decide (input.stateId ∈ states.map (·.stateId))
  let db' ← Database.write ⟨instances, tasks, states, derivedInputs⟩
  pure ((), db')

/-- The methods that write the two tables. `otherTables` stands for every method that
writes the tables that are referred to. -/
inductive Operation where
  | recordManagedPullRequestState (input : RecordManagedPullRequestStateInput) (uuid : String)
      (now : ℤ)
  | recordManagedPullRequestDerivedInput (input : RecordManagedPullRequestDerivedInput)
      (uuid : String) (now : ℤ)
  | otherTables (instances : List String) (tasks : List TaskRecord)

/-- The database after a method; one that throws has rolled back. -/
def apply (db : Database) : Operation → Database
  | .recordManagedPullRequestState input uuid now =>
      (committed db (recordManagedPullRequestState db input uuid now)).2
  | .recordManagedPullRequestDerivedInput input uuid now =>
      (committed db (recordManagedPullRequestDerivedInput db input uuid now)).2
  | .otherTables instances tasks => (committed db (writeReferred db instances tasks)).2

end DerivedInputs

section Invariant

variable {db db' : Database}

theorem Database.write_eq_ok {t : Tables} (h : Database.write t = .ok db) : db.toTables = t := by
  unfold Database.write at h
  split at h
  · cases h
    rfl
  · cases h

structure Sound (db : Database) : Prop where
  identity : ∀ state ∈ db.states,
    state.generation.repository = state.repositoryId ∧ state.generation.prNumber = state.prNumber
  current : ∀ input ∈ db.derivedInputs, input.state = .current →
    ∀ state ∈ db.states, state.stateId = input.stateId → input.generation = state.generation

theorem sound_empty : Sound .empty :=
  ⟨by simp [Database.empty], by simp [Database.empty]⟩

variable {input : RecordManagedPullRequestStateInput} {now : ℤ} {uuid : String}

theorem checkStateInput_ok {u : Unit} (h : checkStateInput input = .ok u) :
    input.generation.repository = input.repositoryId ∧
      input.generation.prNumber = input.prNumber := by
  simp only [checkStateInput, bind_eq_ok, require_eq_ok] at h
  obtain ⟨-, -, -, -, -, -, -, hidentity, -⟩ := h
  exact hidentity

theorem stateOf_eq_some {provider repositoryId : String} {prNumber : ℤ}
    {state : ManagedPullRequestState}
    (h : db.stateOf provider repositoryId prNumber = some state) :
    state ∈ db.states ∧ state.repositoryId = repositoryId ∧ state.prNumber = prNumber := by
  have hidentity := List.find?_some h
  simp only [ManagedPullRequestState.identity, decide_eq_true_eq, Prod.mk.injEq] at hidentity
  exact ⟨List.mem_of_find?_eq_some h, hidentity.2⟩

theorem rollOver_current {current : ManagedPullRequestState}
    {generation : ManagedPullRequestGeneration} {rolled : Database} (hs : Sound db)
    (hcurrent : current ∈ db.states)
    (hrepository : current.generation.repository = generation.repository)
    (hnumber : current.generation.prNumber = generation.prNumber)
    (h : rollOver db current generation now = .ok rolled) :
    rolled.states = db.states ∧ ∀ input ∈ rolled.derivedInputs, input.state = .current →
      input ∈ db.derivedInputs ∧ (input.stateId = current.stateId →
        input.generation = generation) := by
  unfold rollOver at h
  split_ifs at h with hhead
  · have htables := Database.write_eq_ok h
    refine ⟨by rw [htables], ?_⟩
    rw [htables]
    simp only [List.forall_mem_map]
    intro input hinput hstate
    unfold staleUnless at hstate ⊢
    split_ifs at hstate ⊢ with hold
    refine ⟨hinput, fun hid => ?_⟩
    have hgeneration := hs.current input hinput hstate current hcurrent hid.symm
    have hsame : input.generation.headSha = generation.headSha := by
      by_contra hne
      exact hold ⟨hid, hne⟩
    rw [hgeneration] at hsame
    exact absurd hsame hhead
  · cases h
    refine ⟨rfl, fun input hinput hstate => ⟨hinput, fun hid => ?_⟩⟩
    rw [hs.current input hinput hstate current hcurrent hid.symm]
    have hhead' : current.generation.headSha = generation.headSha := not_not.1 hhead
    cases hgeneration : current.generation
    cases generation
    simp_all

theorem writeState_sound {instanceId : Option String} {row : ManagedPullRequestState}
    (hidentity : input.generation.repository = input.repositoryId ∧
      input.generation.prNumber = input.prNumber) (hs : Sound db)
    (h : writeState db input instanceId uuid now = .ok (row, db')) : Sound db' := by
  unfold writeState at h
  split at h
  · rename_i current hselect
    obtain ⟨hcurrent, hrepository, hnumber⟩ := stateOf_eq_some hselect
    obtain ⟨hrepository', hnumber'⟩ := hs.identity current hcurrent
    simp only [bind_eq_ok] at h
    obtain ⟨-, -, rolled, hroll, written, hwrite, _, -, heq⟩ := h
    cases heq
    have hfirst : current.generation.repository = input.generation.repository := by
      rw [hrepository', hrepository, hidentity.1]
    have hsecond : current.generation.prNumber = input.generation.prNumber := by
      rw [hnumber', hnumber, hidentity.2]
    obtain ⟨hstates, hinputs⟩ := rollOver_current hs hcurrent hfirst hsecond hroll
    have htables := Database.write_eq_ok hwrite
    refine ⟨?_, ?_⟩
    · rw [htables]
      simp only [List.forall_mem_map, hstates]
      intro state hstate
      split_ifs with hid
      · obtain rfl := List.inj_on_of_nodup_map db.constraints.2.1 hstate hcurrent hid
        exact ⟨hidentity.1.trans hrepository.symm, hidentity.2.trans hnumber.symm⟩
      · exact hs.identity state hstate
    · rw [htables]
      simp only [List.forall_mem_map, hstates]
      intro derived hderived hstale state hstate
      obtain ⟨hold, hrecorded⟩ := hinputs derived hderived hstale
      split_ifs with hid
      · intro hof
        exact hrecorded (hof.symm.trans hid)
      · intro hof
        exact hs.current derived hold hstale state hstate hof
  · simp only [bind_eq_ok] at h
    obtain ⟨written, hwrite, _, -, heq⟩ := h
    cases heq
    have htables := Database.write_eq_ok hwrite
    have hunique := db'.constraints.2.1
    refine ⟨?_, ?_⟩
    · rw [htables]
      intro state hstate
      rcases List.mem_append.1 hstate with hold | hnew
      · exact hs.identity state hold
      · rw [List.mem_singleton.1 hnew]
        exact hidentity
    · rw [htables]
      intro derived hderived hstale state hstate hof
      rcases List.mem_append.1 hstate with hold | hnew
      · exact hs.current derived hderived hstale state hold hof
      -- A fresh key is that of no state, so no input refers to it yet.
      · have hreferred := db.constraints.2.2.2.2.2.2.2.2 derived hderived
        rw [htables, List.map_append, List.nodup_append] at hunique
        rw [List.mem_singleton.1 hnew] at hof
        exact absurd rfl (hunique.2.2 _ hreferred _ (by simp [hof]))

theorem recordManagedPullRequestDerivedInput_sound {input : RecordManagedPullRequestDerivedInput}
    {row : ManagedPullRequestDerivedInput} (hs : Sound db)
    (h : recordManagedPullRequestDerivedInput db input uuid now = .ok (row, db')) : Sound db' := by
  simp only [recordManagedPullRequestDerivedInput, bind_eq_ok, require_eq_ok] at h
  obtain ⟨state, hselect, -, ⟨hrepository, hnumber, hhead⟩, written, hwrite, _, -, heq⟩ := h
  cases heq
  have htables := Database.write_eq_ok hwrite
  refine ⟨?_, ?_⟩
  · rw [htables]
    exact hs.identity
  · rw [htables]
    intro derived hderived hstale other hother hof
    rcases List.mem_append.1 hderived with hold | hnew
    · exact hs.current derived hold hstale other hother hof
    · rw [List.mem_singleton.1 hnew] at hof ⊢
      obtain ⟨hmem, hid⟩ :=
        (TableRows.find?_eq_some_iff db.constraints.2.1).1 (found_ok hselect)
      obtain rfl := List.inj_on_of_nodup_map db.constraints.2.1 hother hmem (hof.trans hid.symm)
      cases hgeneration : other.generation
      cases hrecorded : input.generation
      simp_all [recordedInput]

theorem writeReferred_sound {instances : List String} {tasks : List TaskRecord} {u : Unit}
    (hs : Sound db) (h : writeReferred db instances tasks = .ok (u, db')) : Sound db' := by
  simp only [writeReferred, bind_eq_ok] at h
  obtain ⟨written, hwrite, heq⟩ := h
  cases heq
  have htables := Database.write_eq_ok hwrite
  refine ⟨?_, ?_⟩
  · rw [htables]
    exact fun state hstate => hs.identity state (List.mem_of_mem_filter hstate)
  · rw [htables]
    intro derived hderived hstale state hstate hof
    exact hs.current derived (List.mem_of_mem_filter hderived) hstale state
      (List.mem_of_mem_filter hstate) hof

/-- A transaction that throws leaves a database that it has found sound. -/
theorem committed_sound {β : Type} {result : Except String (β × Database)} (hs : Sound db)
    (h : ∀ value db', result = .ok (value, db') → Sound db') : Sound (committed db result).2 := by
  rcases result with e | ⟨value, db'⟩
  · exact hs
  · exact h value db' rfl

theorem apply_sound (db : Database) (op : Operation) (hs : Sound db) : Sound (apply db op) := by
  cases op with
  | recordManagedPullRequestState input uuid now =>
    refine committed_sound hs fun row db' h => ?_
    simp only [recordManagedPullRequestState, bind_eq_ok] at h
    obtain ⟨_, hcheck, instanceId, -, hwrite⟩ := h
    exact writeState_sound (checkStateInput_ok hcheck) hs hwrite
  | recordManagedPullRequestDerivedInput input uuid now =>
    exact committed_sound hs fun _ _ h => recordManagedPullRequestDerivedInput_sound hs h
  | otherTables instances tasks =>
    exact committed_sound hs fun _ _ h => writeReferred_sound hs h

/-- In every state of every sequence of methods, a derived input that is current has the
generation of its pull request. -/
theorem derived_inputs_current (ops : List Operation) :
    EachState apply (fun db => ∀ input ∈ db.derivedInputs, input.state = .current →
      ∃ state, db.state input.stateId = some state ∧ input.generation = state.generation)
      .empty ops := by
  have hsound : EachState apply Sound .empty ops :=
    eachState_of_invariant apply_sound sound_empty ops
  refine hsound.mono fun db hs input hinput hcurrent => ?_
  obtain ⟨state, hstate, hid⟩ := List.mem_map.1 (db.constraints.2.2.2.2.2.2.2.2 input hinput)
  have hselect : db.state input.stateId = some state :=
    (TableRows.find?_eq_some_iff db.constraints.2.1).2 ⟨hstate, hid⟩
  exact ⟨state, hselect, hs.current input hinput hcurrent state hstate hid⟩

end Invariant

end Mottainai.ManagedPullRequests

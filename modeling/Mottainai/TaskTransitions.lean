import Mathlib.Data.List.Chain
import Mottainai.TaskLifecycle
import Mottainai.InterleavingHistory
import Mottainai.OrderedMaps

/-!
# Tasks in the workflow store

The `tasks` table with the two tables that the cleanup of a task reads, and the store methods that
write a lifecycle state. A method that opens a transaction is a single statement here; a method that
does not is a program of statements, between which other processes may run. `reserveTask` looks for
an open task of the same issue before it inserts, and nothing repeats this check. `transitionTask`
validates an edge outside of the transaction that writes it, and the update there names the state
and the version it has read.
-/

namespace Mottainai.TaskStore

open Interleaving TaskLifecycle

/-- `TaskRecord`. -/
structure TaskRecord where
  taskId : String
  instanceId : String
  taskSlug : String
  issueRef : Option String
  nawabariSessionId : Option String
  startIdempotencyKey : Option String
  lifecycleState : LifecycleState
  version : ℕ
  baseBranch : String
  baseCommit : String
  createdAt : ℤ
  updatedAt : ℤ
  deriving DecidableEq, Repr

/-- `WorktreeStatus`. -/
inductive WorktreeStatus where
  | reserved
  | active
  | removed
  deriving DecidableEq, Repr

/-- `WorktreeRecord`. -/
structure WorktreeRecord where
  worktreeId : String
  taskId : String
  instanceId : String
  branchName : String
  canonicalPath : String
  status : WorktreeStatus
  baseBranch : String
  baseCommit : String
  createdAt : ℤ
  updatedAt : ℤ
  deriving DecidableEq, Repr

/-- `CleanupLeaseState`. -/
inductive CleanupLeaseState where
  | reserved
  | mutating
  | verifying
  | committed
  | failed
  deriving DecidableEq, Repr

def CleanupLeaseState.text : CleanupLeaseState → String
  | .reserved => "reserved"
  | .mutating => "mutating"
  | .verifying => "verifying"
  | .committed => "committed"
  | .failed => "failed"

/-- `CleanupLeaseRecord`. -/
structure CleanupLeaseRecord where
  operationId : String
  planDigest : String
  instanceId : String
  taskId : String
  worktreeId : Option String
  owner : String
  state : CleanupLeaseState
  acquiredAt : ℤ
  expiresAt : ℤ
  updatedAt : ℤ
  completedActionIds : List String
  lastError : Option String
  deriving DecidableEq, Repr

/-- The key of the index `idx_tasks_start_idempotency`. -/
def TaskRecord.startKey (task : TaskRecord) : Option (String × String) :=
  task.startIdempotencyKey.map fun key => (task.instanceId, key)

structure Tables where
  tasks : List TaskRecord
  worktrees : List WorktreeRecord
  cleanupLeases : List CleanupLeaseRecord

/-- The `PRIMARY KEY`, `UNIQUE` and `FOREIGN KEY` constraints. -/
def Constraints (t : Tables) : Prop :=
  (t.tasks.map (·.taskId)).Nodup ∧ (t.tasks.filterMap (·.startKey)).Nodup ∧
    (t.tasks.filterMap (·.nawabariSessionId)).Nodup ∧
    (t.worktrees.map (·.worktreeId)).Nodup ∧ (t.cleanupLeases.map (·.operationId)).Nodup ∧
    (∀ w ∈ t.worktrees, ∃ task ∈ t.tasks,
      task.taskId = w.taskId ∧ task.instanceId = w.instanceId) ∧
    (∀ l ∈ t.cleanupLeases, ∃ task ∈ t.tasks, task.taskId = l.taskId) ∧
    ∀ l ∈ t.cleanupLeases, ∀ id ∈ l.worktreeId, ∃ w ∈ t.worktrees, w.worktreeId = id

instance (t : Tables) : Decidable (Constraints t) := inferInstanceAs (Decidable (_ ∧ _))

structure Database extends Tables where
  constraints : Constraints toTables

namespace Database

def empty : Database := ⟨⟨[], [], []⟩, by decide⟩

/-- Store the rows if they satisfy the constraints. -/
def write (t : Tables) : Except String Database :=
  if h : Constraints t then .ok ⟨t, h⟩ else .error "constraint failed"

/-- `SELECT * FROM tasks WHERE task_id = ?`. -/
def task (db : Database) (taskId : String) : Option TaskRecord :=
  db.tasks.find? (·.taskId = taskId)

/-- `SELECT * FROM worktrees WHERE worktree_id = ?`. -/
def worktree (db : Database) (worktreeId : String) : Option WorktreeRecord :=
  db.worktrees.find? (·.worktreeId = worktreeId)

/-- `SELECT * FROM cleanup_leases WHERE operation_id = ?`. -/
def cleanupLease (db : Database) (operationId : String) : Option CleanupLeaseRecord :=
  db.cleanupLeases.find? (·.operationId = operationId)

/-- `UPDATE tasks SET … WHERE …`, with the number of rows changed. -/
def updateTasks (db : Database) (condition : TaskRecord → Bool) (set : TaskRecord → TaskRecord) :
    Except String (ℕ × Database) := do
  let db' ← write { db.toTables with
    tasks := db.tasks.map fun task => if condition task then set task else task }
  pure (db.tasks.countP condition, db')

/-- `DELETE FROM tasks WHERE …`. -/
def deleteTasks (db : Database) (condition : TaskRecord → Bool) : Except String (Unit × Database) := do
  let db' ← write { db.toTables with tasks := db.tasks.filter fun task => !condition task }
  pure ((), db')

end Database

def found {β : Type} (row : Option β) (missing : String) : Except String β :=
  match row with
  | some row => .ok row
  | none => .error missing

/-- What decoding an absent row throws. -/
def undefinedRow : String := "TypeError: Cannot read properties of undefined"

structure ReserveTaskInput where
  instanceId : String
  taskSlug : String
  issueRef : Option String
  startIdempotencyKey : Option String := none
  baseBranch : String
  baseCommit : String
  allowMultipleActiveTasksPerIssue : Bool
  reservedAt : Option ℤ := none

/-- `ReserveTaskResult`. -/
inductive ReserveTaskResult where
  | ok (task : TaskRecord)
  | issueAlreadyClaimed (existingTask : TaskRecord)
  deriving DecidableEq, Repr

/-- The row `reserveTask` inserts; `taskId` is the random UUID. -/
def reservedRow (input : ReserveTaskInput) (taskId : String) (now : ℤ) : TaskRecord where
  taskId := taskId
  instanceId := input.instanceId
  taskSlug := input.taskSlug
  issueRef := input.issueRef
  nawabariSessionId := none
  startIdempotencyKey := input.startIdempotencyKey
  lifecycleState := .planned
  version := 1
  baseBranch := input.baseBranch
  baseCommit := input.baseCommit
  createdAt := now
  updatedAt := now

def existingByKey (db : Database) (input : ReserveTaskInput) : Option TaskRecord :=
  input.startIdempotencyKey.bind fun key =>
    db.tasks.find? fun task =>
      task.instanceId = input.instanceId ∧ task.startIdempotencyKey = some key

def existingByIssue (db : Database) (input : ReserveTaskInput) : Option TaskRecord :=
  if input.allowMultipleActiveTasksPerIssue then none
  else input.issueRef.bind fun issueRef =>
    db.tasks.find? fun task =>
      task.instanceId = input.instanceId ∧ task.issueRef = some issueRef ∧
        task.lifecycleState.isOpen

/-- `reserveTask`. -/
def reserveTask (db : Database) (input : ReserveTaskInput) (taskId : String) (now : ℤ) :
    Except String (ReserveTaskResult × Database) :=
  match existingByKey db input with
  | some existing => pure (.issueAlreadyClaimed existing, db)
  | none => match existingByIssue db input with
    | some existing => pure (.issueAlreadyClaimed existing, db)
    | none => do
      let db' ← Database.write { db.toTables with
        tasks := db.tasks ++ [reservedRow input taskId (input.reservedAt.getD now)] }
      let row ← found (db'.task taskId) undefinedRow
      pure (.ok row, db')

structure UpdateTaskLifecycleStateExpectedInput where
  taskId : String
  expectedLifecycle : LifecycleState
  expectedVersion : ℕ
  next : LifecycleState
  updatedAt : Option ℤ := none

def UpdateTaskLifecycleStateExpectedInput.expects (input : UpdateTaskLifecycleStateExpectedInput)
    (task : TaskRecord) : Bool :=
  decide (task.taskId = input.taskId) && decide (task.version = input.expectedVersion) &&
    decide (task.lifecycleState = input.expectedLifecycle)

/-- `SET lifecycle_state = ?, task_version = task_version + 1, updated_at = ?`. -/
def TaskRecord.advance (task : TaskRecord) (next : LifecycleState) (now : ℤ) : TaskRecord :=
  { task with lifecycleState := next, version := task.version + 1, updatedAt := now }

/-- `SET nawabari_session_id = ?, task_version = task_version + 1, updated_at = ?`. -/
def TaskRecord.attach (task : TaskRecord) (sessionId : String) (now : ℤ) : TaskRecord :=
  { task with nawabariSessionId := some sessionId, version := task.version + 1, updatedAt := now }

/-- `WHERE task_id = ? AND (nawabari_session_id IS NULL OR nawabari_session_id = ?)`. -/
def TaskRecord.attachable (taskId sessionId : String) (task : TaskRecord) : Bool :=
  decide (task.taskId = taskId) &&
    (task.nawabariSessionId.isNone || decide (task.nawabariSessionId = some sessionId))

structure CommitCleanupInput where
  operationId : String
  planDigest : String
  instanceId : String
  taskId : String
  worktreeId : Option String := none
  expectedTaskVersion : ℕ
  expectedLifecycle : LifecycleState
  completedActionIds : List String
  committedAt : Option ℤ := none

structure CommitCleanupResult where
  task : TaskRecord
  worktree : Option WorktreeRecord
  lease : CleanupLeaseRecord
  deriving DecidableEq, Repr

def cleanupWorktree (db : Database) (worktreeId : Option String) (missing : String) :
    Except String (Option WorktreeRecord) :=
  match worktreeId with
  | none => .ok none
  | some id => (found (db.worktree id) missing).map some

/-- The task part of a cleanup: advance the row to `cleaned`. -/
def cleanTask (db : Database) (input : CommitCleanupInput) (now : ℤ) : Except String Database := do
  let currentTask ← found (db.task input.taskId) s!"task not found: {input.taskId}"
  if currentTask.instanceId ≠ input.instanceId then
    throw s!"task repository mismatch: {input.taskId}"
  else if currentTask.lifecycleState = .cleaned then pure db
  else if currentTask.version ≠ input.expectedTaskVersion ∨
      currentTask.lifecycleState ≠ input.expectedLifecycle then
    throw s!"task changed during cleanup: {input.taskId}"
  else do
    let (_, db') ← db.updateTasks
      (UpdateTaskLifecycleStateExpectedInput.expects
        { taskId := input.taskId
          expectedLifecycle := input.expectedLifecycle
          expectedVersion := input.expectedTaskVersion
          next := .cleaned })
      (·.advance .cleaned now)
    pure db'

/-- The worktree part of a cleanup: mark the row as removed. -/
def removeWorktree (db : Database) (input : CommitCleanupInput) (now : ℤ) :
    Except String Database :=
  match input.worktreeId with
  | none => pure db
  | some worktreeId => do
    let currentWorktree ← found (db.worktree worktreeId) s!"worktree not found: {worktreeId}"
    if currentWorktree.taskId ≠ input.taskId ∨ currentWorktree.instanceId ≠ input.instanceId then
      throw s!"worktree cleanup association mismatch: {worktreeId}"
    else if currentWorktree.status = .removed then pure db
    else Database.write { db.toTables with
      worktrees := db.worktrees.map fun w =>
        if w.worktreeId = worktreeId then { w with status := .removed, updatedAt := now } else w }

def commitLease (db : Database) (input : CommitCleanupInput) (now : ℤ) : Except String Database :=
  Database.write { db.toTables with
    cleanupLeases := db.cleanupLeases.map fun l =>
      if l.operationId = input.operationId then
        { l with
          state := .committed, expiresAt := now, updatedAt := now,
          completedActionIds := input.completedActionIds.eraseDups, lastError := none }
      else l }

/-- `commitCleanup`. -/
def commitCleanup (db : Database) (input : CommitCleanupInput) (now : ℤ) :
    Except String (CommitCleanupResult × Database) := do
  let now := input.committedAt.getD now
  let lease ← found (db.cleanupLease input.operationId)
    s!"cleanup lease not found: {input.operationId}"
  if lease.planDigest ≠ input.planDigest ∨ lease.instanceId ≠ input.instanceId ∨
      lease.taskId ≠ input.taskId ∨ lease.worktreeId ≠ input.worktreeId then
    throw s!"cleanup lease identity mismatch: {input.operationId}"
  else if lease.state = .committed then do
    let task ← found (db.task input.taskId) undefinedRow
    let worktree ← cleanupWorktree db input.worktreeId undefinedRow
    pure (⟨task, worktree, lease⟩, db)
  else if lease.state ≠ .verifying then
    throw s!"cleanup lease is not verified: {input.operationId} ({lease.state.text})"
  else do
    let db ← cleanTask db input now
    let db ← removeWorktree db input now
    let worktree ← cleanupWorktree db input.worktreeId undefinedRow
    let db ← commitLease db input now
    let task ← found (db.task input.taskId) undefinedRow
    let lease ← found (db.cleanupLease input.operationId) undefinedRow
    pure (⟨task, worktree, lease⟩, db)

/-- The statements and transactions that touch the `tasks` table. `otherTables` stands
for every method that writes the other two tables only. -/
inductive Statement where
  | selectTask (taskId : String)
  | updateLifecycleIfCurrent (input : UpdateTaskLifecycleStateExpectedInput) (now : ℤ)
  | attachSession (taskId sessionId : String) (now : ℤ)
  | deletePlanned (taskId : String)
  | reserveTransaction (input : ReserveTaskInput) (taskId : String) (now : ℤ)
  | cleanupTransaction (input : CommitCleanupInput) (now : ℤ)
  | otherTables (worktrees : List WorktreeRecord) (cleanupLeases : List CleanupLeaseRecord)

namespace Statement

/-- What a statement answers; an `UPDATE` answers the number of rows changed. -/
abbrev Value : Statement → Type
  | selectTask _ => Option TaskRecord
  | updateLifecycleIfCurrent _ _ => ℕ
  | attachSession _ _ _ => ℕ
  | deletePlanned _ => Unit
  | reserveTransaction _ _ _ => ReserveTaskResult
  | cleanupTransaction _ _ => CommitCleanupResult
  | otherTables _ _ => Unit

def exec : (statement : Statement) → Database → Except String statement.Value × Database
  | selectTask taskId, db => (.ok (db.task taskId), db)
  | updateLifecycleIfCurrent input now, db =>
      committed db (db.updateTasks input.expects (·.advance input.next (input.updatedAt.getD now)))
  | attachSession taskId sessionId now, db =>
      committed db (db.updateTasks (TaskRecord.attachable taskId sessionId) (·.attach sessionId now))
  | deletePlanned taskId, db => committed db (db.deleteTasks fun task =>
      decide (task.taskId = taskId) && decide (task.lifecycleState = .planned))
  | reserveTransaction input taskId now, db => committed db (reserveTask db input taskId now)
  | cleanupTransaction input now, db => committed db (commitCleanup db input now)
  | otherTables worktrees cleanupLeases, db =>
      committed db ((Database.write ⟨db.tasks, worktrees, cleanupLeases⟩).map fun db' => ((), db'))

end Statement

/-- `UpdateTaskLifecycleStateExpectedResult`. A task that was deleted between the update
and the read is `undefined`. -/
inductive UpdateTaskLifecycleStateExpectedResult where
  | ok (task : Option TaskRecord)
  | lifecycleConflict (current : TaskRecord)
  deriving DecidableEq, Repr

inductive Method where
  | getTask (taskId : String)
  | reserveTask (input : ReserveTaskInput) (uuid : String) (now : ℤ)
  | updateTaskLifecycleStateIfCurrent (input : UpdateTaskLifecycleStateExpectedInput) (now : ℤ)
  | attachNawabariSession (taskId sessionId : String) (updatedAt : Option ℤ) (now : ℤ)
  | commitCleanup (input : CommitCleanupInput) (now : ℤ)
  | deleteReservedTask (taskId : String)
  | otherTables (worktrees : List WorktreeRecord) (cleanupLeases : List CleanupLeaseRecord)

namespace Method

abbrev Value : Method → Type
  | getTask _ => Option TaskRecord
  | reserveTask _ _ _ => ReserveTaskResult
  | updateTaskLifecycleStateIfCurrent _ _ => UpdateTaskLifecycleStateExpectedResult
  | attachNawabariSession _ _ _ _ => Option TaskRecord
  | commitCleanup _ _ => CommitCleanupResult
  | deleteReservedTask _ => Unit
  | otherTables _ _ => Unit

def body : (method : Method) → Throwing Statement Statement.Value String method.Value
  | getTask taskId => request (Statement.selectTask taskId)
  | reserveTask input uuid now => request (Statement.reserveTransaction input uuid now)
  | updateTaskLifecycleStateIfCurrent input now => do
    let changes ← request (Statement.updateLifecycleIfCurrent input now)
    if changes = 0 then do
      let current ← request (Statement.selectTask input.taskId)
      match current with
      | none => throw s!"task not found: {input.taskId}"
      | some current => pure (.lifecycleConflict current)
    else do
      let task ← request (Statement.selectTask input.taskId)
      pure (.ok task)
  | attachNawabariSession taskId sessionId updatedAt now => do
    let changes ← request (Statement.attachSession taskId sessionId (updatedAt.getD now))
    if changes = 0 then do
      let existing ← request (Statement.selectTask taskId)
      match existing with
      | none => throw s!"task not found: {taskId}"
      | some _ => throw s!"task already references a different Nawabari session: {taskId}"
    else request (Statement.selectTask taskId)
  | commitCleanup input now => request (Statement.cleanupTransaction input now)
  | deleteReservedTask taskId => request (Statement.deletePlanned taskId)
  | otherTables worktrees cleanupLeases => request (Statement.otherTables worktrees cleanupLeases)

/-- A method as one atomic step: its statements run without interruption. -/
def exec (method : Method) (db : Database) : Except String method.Value × Database :=
  method.body.run.alone Statement.exec db

end Method

/-- `TransitionConflictInfo`. -/
structure TransitionConflictInfo where
  taskId : String
  expectedLifecycle : LifecycleState
  expectedVersion : ℕ
  requestedTransition : LifecycleState
  current : TaskRecord
  deriving DecidableEq, Repr

/-- `TransitionTaskResult`. -/
inductive TransitionTaskResult where
  | ok (task : Option TaskRecord)
  | blocked (info : TransitionBlockedInfo)
  | conflict (info : TransitionConflictInfo)
  deriving DecidableEq, Repr

/-- `transitionTask`: read the task, validate the edge, and compare-and-set on the
state and version that were read. -/
def transitionTask (taskId : String) (target : LifecycleState) (now : ℤ) :
    Throwing Method Method.Value String TransitionTaskResult := do
  let task ← request (Method.getTask taskId)
  match task with
  | none => throw s!"task not found: {taskId}"
  | some task =>
    match validateTransition task.lifecycleState target with
    | .blocked info => pure (.blocked info)
    | .allowed _ _ => do
      let updated ← request (Method.updateTaskLifecycleStateIfCurrent
        { taskId := taskId
          expectedLifecycle := task.lifecycleState
          expectedVersion := task.version
          next := target } now)
      match updated with
      | .lifecycleConflict current => pure (.conflict
          { taskId := taskId
            expectedLifecycle := task.lifecycleState
            expectedVersion := task.version
            requestedTransition := target
            current := current })
      | .ok task => pure (.ok task)

/-- At most one open task claims an issue of an instance. Rows are told apart by their
primary key. -/
def IssuesUnique (tasks : List TaskRecord) : Prop :=
  ∀ a ∈ tasks, ∀ b ∈ tasks, a.lifecycleState.isOpen = true → b.lifecycleState.isOpen = true →
    a.instanceId = b.instanceId → a.issueRef = b.issueRef → a.issueRef ≠ none → a = b

structure Unambiguous (tasks : List TaskRecord) : Prop where
  issue : IssuesUnique tasks
  startKey : ∀ a ∈ tasks, ∀ b ∈ tasks, a.instanceId = b.instanceId →
    a.startIdempotencyKey = b.startIdempotencyKey → a.startIdempotencyKey ≠ none → a = b

/-- What one statement may do to the tasks. -/
inductive Change (tasks : List TaskRecord) : List TaskRecord → Prop where
  | insert (row : TaskRecord)
      (unclaimed : ∀ t ∈ tasks, t.lifecycleState.isOpen = true → t.instanceId = row.instanceId →
        t.issueRef = row.issueRef → t.issueRef = none) :
      Change tasks (tasks ++ [row])
  | update (set : TaskRecord → TaskRecord)
      (keeps : ∀ t ∈ tasks, (set t).instanceId = t.instanceId ∧ (set t).issueRef = t.issueRef ∧
        ((set t).lifecycleState.isOpen = true → t.lifecycleState.isOpen = true)) :
      Change tasks (tasks.map set)
  | delete (keep : TaskRecord → Bool) : Change tasks (tasks.filter keep)

theorem Change.refl (tasks : List TaskRecord) : Change tasks tasks := by
  have h : Change tasks (tasks.filter fun _ => true) := .delete _
  rwa [List.filter_true] at h

/-- The three kinds of change keep the claims unique. -/
theorem Change.issuesUnique {tasks tasks' : List TaskRecord} (h : Change tasks tasks')
    (hu : IssuesUnique tasks) : IssuesUnique tasks' := by
  cases h with
  | insert row unclaimed =>
    intro a ha b hb hao hbo hinst hissue hsome
    rcases List.mem_append.1 ha with hat | har <;> rcases List.mem_append.1 hb with hbt | hbr
    · exact hu a hat b hbt hao hbo hinst hissue hsome
    · obtain rfl := List.mem_singleton.1 hbr
      exact absurd (unclaimed a hat hao hinst hissue) hsome
    · obtain rfl := List.mem_singleton.1 har
      exact absurd (hissue.trans (unclaimed b hbt hbo hinst.symm hissue.symm)) hsome
    · rw [List.mem_singleton.1 har, List.mem_singleton.1 hbr]
  | update set keeps =>
    intro a ha b hb hao hbo hinst hissue hsome
    obtain ⟨a, hat, rfl⟩ := List.mem_map.1 ha
    obtain ⟨b, hbt, rfl⟩ := List.mem_map.1 hb
    obtain ⟨hai, har, hal⟩ := keeps a hat
    obtain ⟨hbi, hbr, hbl⟩ := keeps b hbt
    rw [hai, hbi] at hinst
    rw [har, hbr] at hissue
    rw [har] at hsome
    rw [hu a hat b hbt (hal hao) (hbl hbo) hinst hissue hsome]
  | delete keep =>
    intro a ha b hb
    exact hu a (List.mem_of_mem_filter ha) b (List.mem_of_mem_filter hb)

theorem IssuesUnique.unambiguous {db : Database} (h : IssuesUnique db.tasks) :
    Unambiguous db.tasks := by
  refine ⟨h, fun a ha b hb hinst hkey hsome => ?_⟩
  refine TableRows.eq_of_nodup_filterMap db.constraints.2.1 ha hb ?_ ?_
  · simp only [TaskRecord.startKey, hinst, hkey]
  · simpa [TaskRecord.startKey] using hsome

section Statements

variable {db db' : Database}

theorem Database.write_ok {t : Tables} (h : Database.write t = .ok db) : db.toTables = t := by
  unfold Database.write at h
  split at h
  · cases h
    rfl
  · cases h

theorem found_ok {β : Type} {row : Option β} {missing : String} {r : β}
    (h : found row missing = .ok r) : row = some r := by
  cases row with
  | none => cases h
  | some row =>
    cases h
    rfl

/-- An update stored the rows with the changes made. -/
theorem Database.updateTasks_ok {condition : TaskRecord → Bool} {set : TaskRecord → TaskRecord}
    {n : ℕ} (h : db.updateTasks condition set = .ok (n, db')) :
    n = db.tasks.countP condition ∧ db'.toTables = { db.toTables with
      tasks := db.tasks.map fun task => if condition task then set task else task } := by
  unfold Database.updateTasks at h
  cases hw : Database.write { db.toTables with
      tasks := db.tasks.map fun task => if condition task then set task else task } with
  | error e => rw [hw] at h; cases h
  | ok db'' =>
    rw [hw] at h
    cases h
    exact ⟨rfl, Database.write_ok hw⟩

variable {input : CommitCleanupInput} {now : ℤ}

theorem change_advance {input : UpdateTaskLifecycleStateExpectedInput} {tasks : List TaskRecord}
    (h : input.next.isOpen = true → input.expectedLifecycle.isOpen = true) :
    Change tasks (tasks.map fun task =>
      if input.expects task then task.advance input.next now else task) := by
  refine .update _ fun t _ => ?_
  by_cases ht : input.expects t = true
  · rw [if_pos ht]
    simp only [UpdateTaskLifecycleStateExpectedInput.expects, Bool.and_eq_true,
      decide_eq_true_eq] at ht
    exact ⟨rfl, rfl, fun hopen => ht.2 ▸ h hopen⟩
  · rw [if_neg ht]
    exact ⟨rfl, rfl, id⟩

theorem reserveTask_change {input : ReserveTaskInput} {taskId : String}
    {result : ReserveTaskResult} (hsingle : input.allowMultipleActiveTasksPerIssue = false)
    (h : reserveTask db input taskId now = .ok (result, db')) : Change db.tasks db'.tasks := by
  unfold reserveTask at h
  split at h
  · cases h
    exact .refl _
  · split at h
    · cases h
      exact .refl _
    · rename_i hissue
      simp only [bind, Except.bind] at h
      split at h
      · cases h
      · rename_i db₁ hwrite
        split at h
        · cases h
        · cases h
          rw [Database.write_ok hwrite]
          refine .insert _ fun t ht hopen hinst href => ?_
          by_contra hsome
          obtain ⟨ref, href'⟩ := Option.ne_none_iff_exists'.1 hsome
          have href'' : input.issueRef = some ref := href.symm.trans href'
          rw [existingByIssue, hsingle, href''] at hissue
          exact List.find?_eq_none.1 hissue t ht
            (decide_eq_true ⟨hinst, href', hopen⟩)

theorem cleanTask_change (h : cleanTask db input now = .ok db') : Change db.tasks db'.tasks := by
  unfold cleanTask at h
  simp only [bind, Except.bind] at h
  split at h
  · cases h
  · split_ifs at h
    · cases h
      exact .refl _
    · split at h
      · cases h
      · rename_i r hupdate
        cases h
        rw [(Database.updateTasks_ok hupdate).2]
        exact change_advance (by simp [LifecycleState.isOpen])

theorem removeWorktree_tasks (h : removeWorktree db input now = .ok db') :
    db'.tasks = db.tasks := by
  unfold removeWorktree at h
  split at h
  · cases h
    rfl
  · simp only [bind, Except.bind] at h
    split at h
    · cases h
    · split_ifs at h
      · cases h
        rfl
      · rw [Database.write_ok h]

theorem commitCleanup_change {result : CommitCleanupResult}
    (h : commitCleanup db input now = .ok (result, db')) : Change db.tasks db'.tasks := by
  unfold commitCleanup at h
  simp only [bind, Except.bind] at h
  split at h
  · cases h
  · split_ifs at h
    · split at h
      · cases h
      · split at h
        · cases h
        · cases h
          exact .refl _
    · split at h
      · cases h
      · rename_i db₁ hclean
        split at h
        · cases h
        · rename_i db₂ hremove
          split at h
          · cases h
          · split at h
            · cases h
            · rename_i db₃ hlease
              have htasks : db₃.tasks = db₁.tasks := by
                rw [Database.write_ok hlease, removeWorktree_tasks hremove]
              split at h
              · cases h
              · split at h
                · cases h
                · cases h
                  exact htasks ▸ cleanTask_change hclean

/-- A statement that commits nothing but a `Change`, also when it throws. -/
theorem committed_change {β : Type} {outcome : Except String (β × Database)}
    (h : ∀ value db', outcome = .ok (value, db') → Change db.tasks db'.tasks) :
    Change db.tasks (committed db outcome).2.tasks := by
  cases outcome with
  | error e => exact .refl _
  | ok r => exact h r.1 r.2 rfl

def Statement.Legal : Statement → Prop
  | reserveTransaction input _ _ => input.allowMultipleActiveTasksPerIssue = false
  | updateLifecycleIfCurrent input _ => Edge input.expectedLifecycle input.next
  | _ => True

theorem Statement.exec_change (statement : Statement) (db : Database) (h : statement.Legal) :
    Change db.tasks (statement.exec db).2.tasks := by
  cases statement with
  | selectTask taskId => exact .refl _
  | updateLifecycleIfCurrent input now =>
    refine committed_change fun n db' hupdate => ?_
    rw [(Database.updateTasks_ok hupdate).2]
    exact change_advance h.isOpen_source
  | attachSession taskId sessionId now =>
    refine committed_change fun n db' hupdate => ?_
    rw [(Database.updateTasks_ok hupdate).2]
    refine .update _ fun t _ => ?_
    split <;> exact ⟨rfl, rfl, id⟩
  | deletePlanned taskId =>
    refine committed_change fun n db' hdelete => ?_
    unfold Database.deleteTasks at hdelete
    simp only [bind, Except.bind] at hdelete
    split at hdelete
    · cases hdelete
    · rename_i hwrite
      cases hdelete
      rw [Database.write_ok hwrite]
      exact .delete _
  | reserveTransaction input taskId now =>
    exact committed_change fun result db' hreserve => reserveTask_change h hreserve
  | cleanupTransaction input now =>
    exact committed_change fun result db' hcleanup => commitCleanup_change hcleanup
  | otherTables worktrees cleanupLeases =>
    refine committed_change fun n db' hother => ?_
    cases hwrite : Database.write ⟨db.tasks, worktrees, cleanupLeases⟩ with
    | error e => rw [hwrite] at hother; cases hother
    | ok db'' =>
      rw [hwrite] at hother
      cases hother
      rw [Database.write_ok hwrite]
      exact .refl _

end Statements

/-- The methods that the operations under study call. -/
def Method.Legal : Method → Prop
  | reserveTask input _ _ => input.allowMultipleActiveTasksPerIssue = false
  | updateTaskLifecycleStateIfCurrent input _ => Edge input.expectedLifecycle input.next
  | _ => True

variable (method : Method)

theorem Method.body_legal (h : method.Legal) : method.body.run.Issues Statement.Legal := by
  cases method with
  | updateTaskLifecycleStateIfCurrent input now =>
    refine issues_request_bind h fun changes => ?_
    split_ifs
    · refine issues_request_bind trivial fun current => ?_
      cases current <;> trivial
    · exact issues_request_bind trivial fun task => trivial
  | attachNawabariSession taskId sessionId updatedAt now =>
    refine issues_request_bind trivial fun changes => ?_
    split_ifs
    · refine issues_request_bind trivial fun existing => ?_
      cases existing <;> trivial
    · exact ⟨trivial, fun _ => trivial⟩
  | reserveTask input uuid now => exact ⟨h, fun _ => trivial⟩
  | getTask taskId => exact ⟨trivial, fun _ => trivial⟩
  | commitCleanup input now => exact ⟨trivial, fun _ => trivial⟩
  | deleteReservedTask taskId => exact ⟨trivial, fun _ => trivial⟩
  | otherTables worktrees cleanupLeases => exact ⟨trivial, fun _ => trivial⟩

/-- A method run as one step keeps the claims unique. -/
theorem Method.exec_issuesUnique (db : Database) (h : method.Legal) (hu : IssuesUnique db.tasks) :
    IssuesUnique (method.exec db).2.tasks :=
  Program.alone_invariant (I := fun db => IssuesUnique db.tasks)
    (fun statement db hlegal hu => (statement.exec_change db hlegal).issuesUnique hu)
    (method.body_legal h) hu

/-- `transitionTask` requests an update only along the edge it validated. -/
theorem transitionTask_legal (taskId : String) (target : LifecycleState) (now : ℤ) :
    (transitionTask taskId target now).run.Issues Method.Legal := by
  refine issues_request_bind trivial fun task => ?_
  cases task with
  | none => trivial
  | some task =>
    by_cases hedge : Edge task.lifecycleState target
    · simp only [validateTransition_allowed hedge]
      refine issues_request_bind hedge fun updated => ?_
      cases updated <;> trivial
    · simp only [validateTransition_blocked hedge]
      trivial

/-- The operations of any number of processes. A task is reserved with
`allowMultipleActiveTasksPerIssue` set to false. -/
inductive TaskCall where
  | reserveTask (input : ReserveTaskInput)
      (single : input.allowMultipleActiveTasksPerIssue = false) (uuid : String) (now : ℤ)
  | transitionTask (taskId : String) (target : LifecycleState) (now : ℤ)
  | attachNawabariSession (taskId sessionId : String) (updatedAt : Option ℤ) (now : ℤ)
  | commitCleanup (input : CommitCleanupInput) (now : ℤ)
  | deleteReservedTask (taskId : String)
  | otherTables (worktrees : List WorktreeRecord) (cleanupLeases : List CleanupLeaseRecord)

/-- What an operation returns. -/
inductive TaskOutcome where
  | reserved (result : ReserveTaskResult)
  | transitioned (result : TransitionTaskResult)
  | task (task : Option TaskRecord)
  | cleaned (result : CommitCleanupResult)
  | done
  deriving DecidableEq, Repr

def TaskCall.body : TaskCall → Throwing Method Method.Value String TaskOutcome
  | reserveTask input _ uuid now => do
    let result ← request (Method.reserveTask input uuid now)
    pure (.reserved result)
  | transitionTask taskId target now => do
    let result ← TaskStore.transitionTask taskId target now
    pure (.transitioned result)
  | attachNawabariSession taskId sessionId updatedAt now => do
    let task ← request (Method.attachNawabariSession taskId sessionId updatedAt now)
    pure (.task task)
  | commitCleanup input now => do
    let result ← request (Method.commitCleanup input now)
    pure (.cleaned result)
  | deleteReservedTask taskId => do
    request (Method.deleteReservedTask taskId)
    pure .done
  | otherTables worktrees cleanupLeases => do
    request (Method.otherTables worktrees cleanupLeases)
    pure .done

def TaskCall.program (call : TaskCall) :
    Program Method (fun method => Except String method.Value) (Except String TaskOutcome) :=
  call.body.run

theorem TaskCall.program_legal (call : TaskCall) : call.program.Issues Method.Legal := by
  cases call with
  | reserveTask input single uuid now => exact issues_request_bind single fun _ => trivial
  | transitionTask taskId target now =>
    refine (transitionTask_legal taskId target now).bind fun result => ?_
    cases result <;> trivial
  | attachNawabariSession taskId sessionId updatedAt now =>
    exact issues_request_bind trivial fun _ => trivial
  | commitCleanup input now => exact issues_request_bind trivial fun _ => trivial
  | deleteReservedTask taskId => exact issues_request_bind trivial fun _ => trivial
  | otherTables worktrees cleanupLeases => exact issues_request_bind trivial fun _ => trivial

/-- In every interleaving of the operations, with failures and crashes anywhere, an
issue has at most one open task and a start key at most one task of its instance. -/
theorem reachable_unambiguous {es : List (Event TaskCall Method _ (Except String TaskOutcome))}
    {k : Config Database TaskCall Method _ (Except String TaskOutcome)}
    (h : Run TaskCall.program (fallible Method.exec) (.idle Database.empty) es k) :
    Unambiguous k.shared.tasks := by
  refine IssuesUnique.unambiguous (h.issued_invariant (I := fun db => IssuesUnique db.tasks)
    TaskCall.program_legal (Config.issues_idle _ _) ?_ ?_)
  · rintro method db r db' hlegal hu (heq | ⟨-, rfl⟩)
    · obtain ⟨-, rfl⟩ := Prod.mk.inj heq
      exact method.exec_issuesUnique db hlegal hu
    · exact hu
  · intro a ha
    cases ha

/-- A reservation of issue `#1`. -/
def reserveIssue (instanceId startKey : String) : ReserveTaskInput where
  instanceId := instanceId
  taskSlug := "fix"
  issueRef := some "#1"
  startIdempotencyKey := some startKey
  baseBranch := "main"
  baseCommit := "c0"
  allowMultipleActiveTasksPerIssue := false

def abandonSchedule : List (Move TaskCall String) :=
  [.invoke 0 (.reserveTask (reserveIssue "repo-a" "k1") rfl "task-1" 10), .exec 0,
    .invoke 1 (.transitionTask "task-1" .abandoned 20), .exec 1,
    .invoke 2 (.reserveTask (reserveIssue "repo-a" "k2") rfl "task-2" 21), .exec 2,
    .exec 1,
    .invoke 3 (.reserveTask (reserveIssue "repo-a" "k3") rfl "task-3" 22), .exec 3]

theorem reachable_unambiguous_abandonSchedule :
    ∃ es k, Run TaskCall.program (fallible Method.exec) (.idle Database.empty) es k ∧
      k.shared.tasks.map (fun task => (task.taskId, task.lifecycleState)) =
        [("task-1", .abandoned), ("task-3", .planned)] ∧ Unambiguous k.shared.tasks := by
  obtain ⟨es, k, hrun, htasks⟩ := Config.exists_run TaskCall.program Method.exec
    (.idle Database.empty) abandonSchedule
    (fun outcome => outcome.2.shared.tasks.map fun task => (task.taskId, task.lifecycleState))
    (b := [("task-1", .abandoned), ("task-3", .planned)]) (by decide)
  exact ⟨es, k, hrun, htasks, reachable_unambiguous hrun⟩

/-- Two instances may start their tasks with the same key. -/
theorem same_key_in_two_instances :
    ∃ es k, Run TaskCall.program (fallible Method.exec) (.idle Database.empty) es k ∧
      ∃ a ∈ k.shared.tasks, ∃ b ∈ k.shared.tasks,
        a.startIdempotencyKey = some "k1" ∧ b.startIdempotencyKey = some "k1" ∧ a ≠ b := by
  obtain ⟨es, k, hrun, htasks⟩ := Config.exists_run TaskCall.program Method.exec
    (.idle Database.empty)
    [.invoke 0 (.reserveTask (reserveIssue "repo-a" "k1") rfl "task-1" 10), .exec 0,
      .invoke 1 (.reserveTask (reserveIssue "repo-b" "k1") rfl "task-2" 11), .exec 1]
    (fun outcome => decide (∃ a ∈ outcome.2.shared.tasks, ∃ b ∈ outcome.2.shared.tasks,
      a.startIdempotencyKey = some "k1" ∧ b.startIdempotencyKey = some "k1" ∧ a ≠ b))
    (b := true) (by decide)
  exact ⟨es, k, hrun, of_decide_eq_true htasks⟩

inductive WriterCall where
  | transitionTask (taskId : String) (target : LifecycleState) (now : ℤ)
  | attachNawabariSession (taskId sessionId : String) (updatedAt : Option ℤ) (now : ℤ)

def WriterCall.body : WriterCall → Throwing Method Method.Value String TaskOutcome
  | transitionTask taskId target now => do
    let result ← TaskStore.transitionTask taskId target now
    pure (.transitioned result)
  | attachNawabariSession taskId sessionId updatedAt now => do
    let task ← request (Method.attachNawabariSession taskId sessionId updatedAt now)
    pure (.task task)

def WriterCall.program (call : WriterCall) :
    Program Statement (fun statement => Except String statement.Value)
      (Except String TaskOutcome) :=
  (inlined Method.body call.body).run

/-- The update that a transition requests after it has read `task`. -/
def expectedUpdate (task : TaskRecord) (taskId : String) (target : LifecycleState) :
    UpdateTaskLifecycleStateExpectedInput where
  taskId := taskId
  expectedLifecycle := task.lifecycleState
  expectedVersion := task.version
  next := target

theorem inlined_transitionTask (taskId : String) (target : LifecycleState) (now : ℤ) :
    inlined Method.body (WriterCall.transitionTask taskId target now).body = (do
      let task ← request (Statement.selectTask taskId)
      match task with
      | none => throw s!"task not found: {taskId}"
      | some task =>
        if Edge task.lifecycleState target then do
          let changes ← request
            (Statement.updateLifecycleIfCurrent (expectedUpdate task taskId target) now)
          if changes = 0 then do
            let current ← request (Statement.selectTask taskId)
            match current with
            | none => throw s!"task not found: {taskId}"
            | some current => pure (.transitioned (.conflict
                { taskId := taskId
                  expectedLifecycle := task.lifecycleState
                  expectedVersion := task.version
                  requestedTransition := target
                  current := current }))
          else do
            let task ← request (Statement.selectTask taskId)
            pure (.transitioned (.ok task))
        else pure (.transitioned (.blocked
          { currentState := task.lifecycleState
            requestedTransition := target
            blockingRule := blockingRuleFor task.lifecycleState target
            allowedNextTransitions := allowedNextTransitions task.lifecycleState }))) := by
  simp only [WriterCall.body, transitionTask, inlined_bind, inlined_request, Method.body,
    bind_assoc, inlined_pure]
  congr 1
  funext task
  cases task with
  | none => rfl
  | some task =>
    by_cases hedge : Edge task.lifecycleState target
    · simp only [validateTransition_allowed hedge, if_pos hedge, inlined_bind, inlined_request,
        Method.body, bind_assoc, expectedUpdate]
      congr 1
      funext changes
      split_ifs
      · simp only [bind_assoc]
        congr 1
        funext current
        cases current <;> rfl
      · simp only [bind_assoc]
        rfl
    · simp only [validateTransition_blocked hedge, if_neg hedge]
      rfl

theorem inlined_attachNawabariSession (taskId sessionId : String) (updatedAt : Option ℤ)
    (now : ℤ) :
    inlined Method.body (WriterCall.attachNawabariSession taskId sessionId updatedAt now).body =
      (do
        let changes ← request (Statement.attachSession taskId sessionId (updatedAt.getD now))
        if changes = 0 then do
          let existing ← request (Statement.selectTask taskId)
          match existing with
          | none => throw s!"task not found: {taskId}"
          | some _ => throw s!"task already references a different Nawabari session: {taskId}"
        else do
          let task ← request (Statement.selectTask taskId)
          pure (.task task)) := by
  simp only [WriterCall.body, inlined_bind, inlined_request, Method.body, bind_assoc]
  congr 1
  funext changes
  split_ifs
  · simp only [bind_assoc]
    congr 1
    funext existing
    cases existing <;> rfl
  · rfl

namespace Statement

def IsWriter : Statement → Prop
  | selectTask _ => True
  | updateLifecycleIfCurrent _ _ => True
  | attachSession _ _ _ => True
  | _ => False

/-- The task that an update has written, judging by the number of rows changed. -/
def changed (taskId : String) : Except String ℕ → Option String
  | .ok changes => if changes = 0 then none else some taskId
  | .error _ => none

def written : (statement : Statement) → Except String statement.Value → Option String
  | updateLifecycleIfCurrent input _, r => changed input.taskId r
  | attachSession taskId _ _, r => changed taskId r
  | _, _ => none

def writtenLifecycle (taskId : String) :
    (statement : Statement) → Except String statement.Value → Option LifecycleState
  | updateLifecycleIfCurrent input now, r =>
      if (updateLifecycleIfCurrent input now).written r = some taskId then some input.next else none
  | _, _ => none

def expects : Statement → TaskRecord → Bool
  | updateLifecycleIfCurrent input _ => input.expects
  | attachSession taskId sessionId _ => TaskRecord.attachable taskId sessionId
  | _ => fun _ => false

def apply : Statement → TaskRecord → TaskRecord
  | updateLifecycleIfCurrent input now, task => task.advance input.next (input.updatedAt.getD now)
  | attachSession _ sessionId now, task => task.attach sessionId now
  | _, task => task

end Statement

section Rows

variable {db db' : Database}
variable {taskId : String}

theorem Database.task_eq_some {t : TaskRecord} :
    db.task taskId = some t ↔ t ∈ db.tasks ∧ t.taskId = taskId :=
  TableRows.find?_eq_some_iff db.constraints.1

/-- An update of one task either found no row to change, or changed that task only. -/
theorem Database.updateTasks_task {condition : TaskRecord → Bool} {set : TaskRecord → TaskRecord}
    {n : ℕ} (hid : ∀ t, condition t = true → t.taskId = taskId)
    (hset : ∀ t, (set t).taskId = t.taskId) (h : db.updateTasks condition set = .ok (n, db')) :
    (n = 0 ∧ ∀ id, db'.task id = db.task id) ∨
      (n ≠ 0 ∧ (∃ t, db.task taskId = some t ∧ condition t = true ∧ db'.task taskId = some (set t)) ∧
        ∀ id, id ≠ taskId → db'.task id = db.task id) := by
  obtain ⟨rfl, htables⟩ := Database.updateTasks_ok h
  have hmap : ∀ id, db'.task id =
      (db.task id).map fun t => if condition t then set t else t := by
    intro id
    unfold Database.task
    rw [htables]
    exact TableRows.find?_map (fun t => by split <;> simp [hset]) id
  have hunchanged : ∀ id, (∀ t, db.task id = some t → condition t = false) →
      db'.task id = db.task id := by
    intro id hno
    rw [hmap]
    cases hrow : db.task id with
    | none => rfl
    | some t => simp [hno t hrow]
  by_cases hn : db.tasks.countP condition = 0
  · refine Or.inl ⟨hn, fun id => hunchanged id fun t ht => ?_⟩
    rw [List.countP_eq_zero] at hn
    simpa using hn t (Database.task_eq_some.1 ht).1
  · obtain ⟨t, hmem, ht⟩ := List.countP_pos_iff.1 (Nat.pos_of_ne_zero hn)
    have hrow : db.task taskId = some t := Database.task_eq_some.2 ⟨hmem, hid t ht⟩
    refine Or.inr ⟨hn, ⟨t, hrow, ht, by simp [hmap, hrow, ht]⟩, fun id hne => ?_⟩
    refine hunchanged id fun t' ht' => ?_
    by_contra hcond
    exact hne ((Database.task_eq_some.1 ht').2.symm.trans (hid t' (by simpa using hcond)))

theorem Database.committed_updateTasks (condition : TaskRecord → Bool)
    (set : TaskRecord → TaskRecord) {id : String}
    (hid : ∀ t, condition t = true → t.taskId = id) (hset : ∀ t, (set t).taskId = t.taskId)
    (taskId : String) :
    let outcome := committed db (db.updateTasks condition set)
    (Statement.changed id outcome.1 = some taskId ∧ ∃ t, db.task taskId = some t ∧
      condition t = true ∧ outcome.2.task taskId = some (set t)) ∨
    (Statement.changed id outcome.1 ≠ some taskId ∧ outcome.2.task taskId = db.task taskId) := by
  intro outcome
  cases hok : db.updateTasks condition set with
  | error e =>
    have hout : outcome = (.error e, db) := by simp only [outcome, hok, committed]
    rw [hout]
    exact Or.inr ⟨by simp [Statement.changed], rfl⟩
  | ok result =>
    obtain ⟨n, db'⟩ := result
    have hout : outcome = (.ok n, db') := by simp only [outcome, hok, committed]
    rw [hout]
    rcases Database.updateTasks_task hid hset hok with ⟨rfl, hsame⟩ | ⟨hn, hrow, hother⟩
    · exact Or.inr ⟨by simp [Statement.changed], hsame taskId⟩
    · have hchanged : Statement.changed id (.ok n) = some id := if_neg hn
      rw [hchanged]
      by_cases hne : id = taskId
      · subst hne
        exact Or.inl ⟨rfl, hrow⟩
      · exact Or.inr ⟨by simpa using hne, hother taskId (Ne.symm hne)⟩

theorem Statement.exec_task {statement : Statement} (hw : statement.IsWriter)
    {r : Except String statement.Value} (h : fallible Statement.exec statement db r db')
    (taskId : String) :
    (statement.written r = some taskId ∧ ∃ t, db.task taskId = some t ∧
      statement.expects t = true ∧ db'.task taskId = some (statement.apply t)) ∨
    (statement.written r ≠ some taskId ∧ db'.task taskId = db.task taskId) := by
  rcases h with heq | ⟨⟨e, rfl⟩, rfl⟩
  · obtain ⟨rfl, rfl⟩ := Prod.mk.inj heq
    cases statement with
    | selectTask id => exact Or.inr ⟨by simp [written], rfl⟩
    | updateLifecycleIfCurrent input now =>
      refine Database.committed_updateTasks input.expects
        (·.advance input.next (input.updatedAt.getD now)) (fun t ht => ?_) (fun t => rfl) taskId
      simp only [UpdateTaskLifecycleStateExpectedInput.expects, Bool.and_eq_true,
        decide_eq_true_eq] at ht
      exact ht.1.1
    | attachSession id sessionId now =>
      refine Database.committed_updateTasks (TaskRecord.attachable id sessionId)
        (·.attach sessionId now) (fun t ht => ?_) (fun t => rfl) taskId
      simp only [TaskRecord.attachable, Bool.and_eq_true, decide_eq_true_eq] at ht
      exact ht.1
    | _ => exact hw.elim
  · refine Or.inr ⟨?_, rfl⟩
    cases statement <;> simp [written, changed]

end Rows

section Bodies

variable {call : WriterCall} {y : Program Statement _ (Except String TaskOutcome)}
variable {l : Answers Statement fun statement => Except String statement.Value}

theorem WriterCall.program_isWriter (call : WriterCall) :
    call.program.Issues Statement.IsWriter := by
  cases call with
  | transitionTask taskId target now =>
    rw [program, inlined_transitionTask]
    refine issues_request_bind trivial fun task => ?_
    cases task with
    | none => trivial
    | some task =>
      dsimp only
      split_ifs
      · refine issues_request_bind trivial fun changes => ?_
        split_ifs
        · refine issues_request_bind trivial fun current => ?_
          cases current <;> trivial
        · exact issues_request_bind trivial fun _ => trivial
      · trivial
  | attachNawabariSession taskId sessionId updatedAt now =>
    rw [program, inlined_attachNawabariSession]
    refine issues_request_bind trivial fun changes => ?_
    split_ifs
    · refine issues_request_bind trivial fun existing => ?_
      cases existing <;> trivial
    · exact issues_request_bind trivial fun _ => trivial

theorem WriterCall.leaves_update {input : UpdateTaskLifecycleStateExpectedInput} {now : ℤ}
    {next : Except String ℕ → Program Statement _ (Except String TaskOutcome)}
    (h : call.program.Leaves l (.call (.updateLifecycleIfCurrent input now) next)) :
    ∃ task, l = [⟨.selectTask input.taskId, .ok (some task)⟩] ∧
      Edge task.lifecycleState input.next ∧
      input = expectedUpdate task input.taskId input.next := by
  cases call with
  | transitionTask taskId target now' =>
    rw [program, inlined_transitionTask] at h
    rcases leaves_call_of_request_bind h with ⟨-, heq⟩ | ⟨task, l₁, rfl, h₁⟩
    · cases heq
    · cases task with
      | none => exact absurd h₁ Program.not_pure_leaves_call
      | some task =>
        dsimp only at h₁
        split_ifs at h₁ with hedge
        · rcases leaves_call_of_request_bind h₁ with ⟨rfl, heq⟩ | ⟨changes, l₂, rfl, h₂⟩
          · cases heq
            exact ⟨task, rfl, hedge, rfl⟩
          · split_ifs at h₂
            · rcases leaves_call_of_request_bind h₂ with ⟨-, heq⟩ | ⟨current, l₃, rfl, h₃⟩
              · cases heq
              · cases current <;> exact absurd h₃ Program.not_pure_leaves_call
            · rcases leaves_call_of_request_bind h₂ with ⟨-, heq⟩ | ⟨current, l₃, rfl, h₃⟩
              · cases heq
              · exact absurd h₃ Program.not_pure_leaves_call
        · exact absurd h₁ Program.not_pure_leaves_call
  | attachNawabariSession taskId sessionId updatedAt now' =>
    rw [program, inlined_attachNawabariSession] at h
    rcases leaves_call_of_request_bind h with ⟨-, heq⟩ | ⟨changes, l₁, rfl, h₁⟩
    · cases heq
    · split_ifs at h₁
      · rcases leaves_call_of_request_bind h₁ with ⟨-, heq⟩ | ⟨existing, l₂, rfl, h₂⟩
        · cases heq
        · cases existing <;> exact absurd h₂ Program.not_pure_leaves_call
      · rcases leaves_call_of_request_bind h₁ with ⟨-, heq⟩ | ⟨task, l₂, rfl, h₂⟩
        · cases heq
        · exact absurd h₂ Program.not_pure_leaves_call

/-- A call loses when it is blocked, when it finds a conflict, or when it throws although
the database has answered every one of its statements. -/
def Losing (l : Answers Statement fun statement => Except String statement.Value)
    (result : Except String TaskOutcome) : Prop :=
  (∃ info, result = .ok (.transitioned (.blocked info))) ∨
    (∃ info, result = .ok (.transitioned (.conflict info))) ∨
    (∃ e, result = .error e) ∧ ∀ a ∈ l, ∃ v, a.2 = .ok v

theorem Losing.answered {e : String} (h : Losing l (.error e)) (statement : Statement)
    (e' : String) : ⟨statement, .error e'⟩ ∉ l := by
  rcases h with ⟨info, h⟩ | ⟨info, h⟩ | ⟨-, hok⟩
  · cases h
  · cases h
  · intro hmem
    obtain ⟨v, hv⟩ := hok _ hmem
    cases hv

variable (task : Option TaskRecord)

theorem not_losing_transitioned : ¬ Losing l (.ok (.transitioned (.ok task))) := by
  simp [Losing]

theorem not_losing_task : ¬ Losing l (.ok (.task task)) := by
  simp [Losing]

theorem WriterCall.losing {result : Except String TaskOutcome}
    (h : call.program.Leaves l (.pure result)) (hlose : Losing l result) :
    ∀ a ∈ l, a.1.written a.2 = none := by
  cases call with
  | transitionTask taskId target now =>
    rw [program, inlined_transitionTask] at h
    rcases leaves_pure_of_request_bind h with ⟨e, rfl, rfl⟩ | ⟨task, l₁, rfl, h₁⟩
    · simp [Statement.written]
    · cases task with
      | none =>
        obtain ⟨rfl, -⟩ := Program.leaves_pure.1 h₁
        simp [Statement.written]
      | some task =>
        dsimp only at h₁
        split_ifs at h₁
        · rcases leaves_pure_of_request_bind h₁ with ⟨e, rfl, rfl⟩ | ⟨changes, l₂, rfl, h₂⟩
          · simp [Statement.written, Statement.changed]
          · split_ifs at h₂ with hchanges
            · rcases leaves_pure_of_request_bind h₂ with ⟨e, rfl, rfl⟩ | ⟨current, l₃, rfl, h₃⟩
              · exact absurd (by simp) (hlose.answered (.selectTask taskId) e)
              · have hl₃ : l₃ = [] := by cases current <;> exact (Program.leaves_pure.1 h₃).1
                simp [Statement.written, Statement.changed, hchanges, hl₃]
            · rcases leaves_pure_of_request_bind h₂ with ⟨e, rfl, rfl⟩ | ⟨current, l₃, rfl, h₃⟩
              · exact absurd (by simp) (hlose.answered (.selectTask taskId) e)
              · obtain ⟨-, heq⟩ := Program.leaves_pure.1 h₃
                cases heq
                exact absurd hlose (not_losing_transitioned current)
        · obtain ⟨rfl, -⟩ := Program.leaves_pure.1 h₁
          simp [Statement.written]
  | attachNawabariSession taskId sessionId updatedAt now =>
    rw [program, inlined_attachNawabariSession] at h
    rcases leaves_pure_of_request_bind h with ⟨e, rfl, rfl⟩ | ⟨changes, l₁, rfl, h₁⟩
    · simp [Statement.written, Statement.changed]
    · split_ifs at h₁ with hchanges
      · rcases leaves_pure_of_request_bind h₁ with ⟨e, rfl, rfl⟩ | ⟨existing, l₂, rfl, h₂⟩
        · exact absurd (by simp) (hlose.answered (.selectTask taskId) e)
        · have hl₂ : l₂ = [] := by cases existing <;> exact (Program.leaves_pure.1 h₂).1
          simp [Statement.written, Statement.changed, hchanges, hl₂]
      · rcases leaves_pure_of_request_bind h₁ with ⟨e, rfl, rfl⟩ | ⟨task, l₂, rfl, h₂⟩
        · exact absurd (by simp) (hlose.answered (.selectTask taskId) e)
        · obtain ⟨-, heq⟩ := Program.leaves_pure.1 h₂
          cases heq
          exact absurd hlose (not_losing_task task)

end Bodies

abbrev WriterEvent : Type :=
  Event WriterCall Statement (fun statement => Except String statement.Value)
    (Except String TaskOutcome)

abbrev WriterConfig : Type :=
  Config Database WriterCall Statement (fun statement => Except String statement.Value)
    (Except String TaskOutcome)

def writes (taskId : String) : WriterEvent → Bool
  | .exec _ _ statement r => statement.written r = some taskId
  | _ => false

def writtenLifecycles (taskId : String) (es : List WriterEvent) : List LifecycleState :=
  es.filterMap fun
    | .exec _ _ statement r => statement.writtenLifecycle taskId r
    | _ => none

variable {taskId : String}

theorem writtenLifecycles_eq_nil {e : WriterEvent} (h : writes taskId e = false) :
    writtenLifecycles taskId [e] = [] := by
  cases e with
  | exec p c statement r =>
    have hno : statement.written r ≠ some taskId := of_decide_eq_false h
    cases statement <;> simp_all [writtenLifecycles, Statement.writtenLifecycle]
  | _ => rfl

section Runs

variable {k k' : WriterConfig} {e : WriterEvent} {es : List WriterEvent} {taskId : String}

theorem step_task (h : Step WriterCall.program (fallible Statement.exec) k e k')
    (hk : k.Issues Statement.IsWriter) (taskId : String) :
    (∃ p c statement r t, e = .exec p c statement r ∧ statement.written r = some taskId ∧
      k.shared.task taskId = some t ∧ statement.expects t = true ∧
      k'.shared.task taskId = some (statement.apply t)) ∨
    (writes taskId e = false ∧ k'.shared.task taskId = k.shared.task taskId) := by
  rcases h.shared hk with ⟨p, c, statement, r, rfl, hw, hsem⟩ | ⟨hanswer, hsame⟩
  · rcases Statement.exec_task hw hsem taskId with ⟨hwritten, t, ht, hexp, ht'⟩ | ⟨hno, hsame⟩
    · exact Or.inl ⟨p, c, statement, r, t, rfl, hwritten, ht, hexp, ht'⟩
    · exact Or.inr ⟨by simpa [writes] using hno, hsame⟩
  · refine Or.inr ⟨?_, by rw [hsame]⟩
    cases e <;> first | rfl | cases hanswer

variable {t : TaskRecord} {db : Database}

/-- Only the two updates write, and both advance the version. -/
theorem Statement.apply_version {statement : Statement} (h : statement.expects t = true) :
    (statement.apply t).version = t.version + 1 := by
  cases statement with
  | updateLifecycleIfCurrent input now => rfl
  | attachSession taskId sessionId now => rfl
  | _ => cases h

theorem run_version (h : Run WriterCall.program (fallible Statement.exec) k es k')
    (hk : k.Issues Statement.IsWriter) (ht : k.shared.task taskId = some t) :
    ∃ t', k'.shared.task taskId = some t' ∧ t'.version = t.version + es.countP (writes taskId) := by
  induction h with
  | refl => exact ⟨t, ht, by simp⟩
  | snoc run step ih =>
    obtain ⟨t₁, ht₁, hversion⟩ := ih
    rw [List.countP_append, List.countP_singleton]
    rcases step_task step (run.issues WriterCall.program_isWriter hk) taskId with
      ⟨p, c, statement, r, t₂, rfl, hwritten, ht₂, hexp, ht'⟩ | ⟨hno, hsame⟩
    · obtain rfl : t₁ = t₂ := Option.some.inj (ht₁.symm.trans ht₂)
      refine ⟨_, ht', ?_⟩
      rw [Statement.apply_version hexp, hversion, if_pos (by simpa [writes] using hwritten)]
      omega
    · exact ⟨t₁, hsame.trans ht₁, by simp [hno, hversion]⟩

theorem run_validated {k k' : WriterConfig} {p : ℕ} {c : WriterCall}
    {input : UpdateTaskLifecycleStateExpectedInput} {now : ℤ} {r : Except String ℕ}
    (h : Run WriterCall.program (fallible Statement.exec) (.idle db) es k)
    (step : Step WriterCall.program (fallible Statement.exec) k
      (.exec p c (.updateLifecycleIfCurrent input now) r) k') :
    ∃ before task between,
      es = before ++ .exec p c (.selectTask input.taskId) (.ok (some task)) :: between ∧
      (∀ e ∈ between, e.process ≠ p) ∧ Edge task.lifecycleState input.next ∧
      input = expectedUpdate task input.taskId input.next := by
  cases step with
  | exec at_call outcome =>
    obtain ⟨before, since, rfl, hsince, hleaves⟩ := (h.inside (fun _ => rfl) at_call).history
    obtain ⟨task, hanswers, hedge, hinput⟩ := c.leaves_update hleaves
    obtain ⟨first, between, rfl, -, hrest⟩ := hsince.answers_cons hanswers
    have hown : Uninterrupted p c between := fun e he => hsince e (by simp [he])
    exact ⟨before ++ .invoke p c :: first, task, between, by simp, hown.answers_nil hrest, hedge,
      hinput⟩

theorem run_path {k' : WriterConfig}
    (h : Run WriterCall.program (fallible Statement.exec) (.idle db) es k')
    (ht : db.task taskId = some t) :
    List.IsChain Edge (t.lifecycleState :: writtenLifecycles taskId es) ∧
      ∃ t', k'.shared.task taskId = some t' ∧
        (t.lifecycleState :: writtenLifecycles taskId es).getLast? = some t'.lifecycleState := by
  generalize hidle : Config.idle db = k at h
  induction h with
  | refl =>
    subst hidle
    exact ⟨List.isChain_singleton _, t, ht, rfl⟩
  | @snoc es k₁ e k₂ run step ih =>
    subst hidle
    obtain ⟨hpath, t₁, ht₁, hlast⟩ := ih
    have happend : writtenLifecycles taskId (es ++ [e]) =
        writtenLifecycles taskId es ++ writtenLifecycles taskId [e] := List.filterMap_append
    rw [happend, ← List.cons_append]
    rcases step_task step (run.issues WriterCall.program_isWriter (Config.issues_idle _ _)) taskId
      with ⟨p, c, statement, r, t₂, rfl, hwritten, ht₂, hexp, ht'⟩ | ⟨hno, hsame⟩
    · obtain rfl : t₁ = t₂ := Option.some.inj (ht₁.symm.trans ht₂)
      cases statement with
      | updateLifecycleIfCurrent input now =>
        have hnext : writtenLifecycles taskId
            [.exec p c (.updateLifecycleIfCurrent input now) r] = [input.next] := by
          simp [writtenLifecycles, Statement.writtenLifecycle, hwritten]
        rw [hnext]
        refine ⟨?_, _, ht', List.getLast?_concat⟩
        refine List.isChain_append.2 ⟨hpath, List.isChain_singleton _, ?_⟩
        intro x hx y hy
        rw [hlast, Option.mem_some_iff] at hx
        obtain rfl : input.next = y := by simpa using hy
        subst hx
        obtain ⟨before, task, between, -, -, hedge, hinput⟩ := run_validated run step
        simp only [Statement.expects, UpdateTaskLifecycleStateExpectedInput.expects,
          Bool.and_eq_true, decide_eq_true_eq] at hexp
        rw [hexp.2, hinput]
        exact hedge
      | attachSession id sessionId now =>
        have hnext : writtenLifecycles taskId [.exec p c (.attachSession id sessionId now) r] = [] := by
          simp [writtenLifecycles, Statement.writtenLifecycle]
        rw [hnext, List.append_nil]
        exact ⟨hpath, _, ht', hlast⟩
      | _ => cases hexp
    · rw [writtenLifecycles_eq_nil hno, List.append_nil]
      exact ⟨hpath, t₁, hsame.trans ht₁, hlast⟩

end Runs

/-- Transitions and attachments that started from `db` wrote task `taskId` one after the
other, none of them on top of a write it had not seen. -/
structure Serialized (db : Database) (taskId : String) (es : List WriterEvent) : Prop where
  /-- Every write advances the version, and no other event touches the row. -/
  version : ∀ before e after, es = before ++ e :: after → ∃ k₁ k₂,
    Run WriterCall.program (fallible Statement.exec) (.idle db) before k₁ ∧
    Step WriterCall.program (fallible Statement.exec) k₁ e k₂ ∧
    if writes taskId e then ∃ t t', k₁.shared.task taskId = some t ∧
      k₂.shared.task taskId = some t' ∧ t.version < t'.version
    else k₂.shared.task taskId = k₁.shared.task taskId
  /-- What successful transitions wrote is a path from the initial lifecycle state. -/
  path : ∀ t, db.task taskId = some t →
    List.IsChain Edge (t.lifecycleState :: writtenLifecycles taskId es)
  /-- A successful transition was validated on the row it overwrites: its call read the
  task, and since then nobody has written it. -/
  validated : ∀ before p c input now r after,
    es = before ++ .exec p c (.updateLifecycleIfCurrent input now) r :: after →
    Statement.written (.updateLifecycleIfCurrent input now) r = some taskId →
    ∃ first task between,
      before = first ++ .exec p c (.selectTask taskId) (.ok (some task)) :: between ∧
      (∀ e ∈ between, e.process ≠ p) ∧ (∀ e ∈ between, writes taskId e = false) ∧
      Edge task.lifecycleState input.next
  /-- A losing call has not written. -/
  loser : ∀ before p c since result after,
    es = before ++ .invoke p c :: since ++ .response p c result :: after →
    Uninterrupted p c since → Losing (answers p since) result →
    ∀ e ∈ since, e.process = p → writes taskId e = false

theorem run_validated_unwritten {db : Database} {es between : List WriterEvent}
    {k₁ k' : WriterConfig} {p p' : ℕ} {c c' : WriterCall}
    {input : UpdateTaskLifecycleStateExpectedInput} {now : ℤ} {task : TaskRecord}
    {r : Except String ℕ}
    (h : Run WriterCall.program (fallible Statement.exec) (.idle db)
      (es ++ .exec p c (.selectTask taskId) (.ok (some task)) :: between) k₁)
    (step : Step WriterCall.program (fallible Statement.exec) k₁
      (.exec p' c' (.updateLifecycleIfCurrent input now) r) k')
    (hwritten : Statement.written (.updateLifecycleIfCurrent input now) r = some taskId)
    (hinput : input.expectedVersion = task.version) : ∀ e ∈ between, writes taskId e = false := by
  obtain ⟨k, k₀, hbefore, hread, hbetween⟩ := h.split_step
  have hissues := hbefore.issues WriterCall.program_isWriter (Config.issues_idle _ _)
  have hrow : k₀.shared.task taskId = some task := by
    cases hread with
    | exec at_call outcome =>
      rcases outcome with heq | ⟨⟨e, he⟩, -⟩
      · obtain ⟨hanswer, rfl⟩ := Prod.mk.inj heq
        exact (Except.ok.inj hanswer).symm
      · cases he
  have hissues₀ := hread.issues WriterCall.program_isWriter hissues
  obtain ⟨t₁, ht₁, hversion⟩ := run_version hbetween hissues₀ hrow
  rcases step_task step (hbetween.issues WriterCall.program_isWriter hissues₀) taskId with
    ⟨_, _, statement, _, t₂, heq, -, ht₂, hexp, -⟩ | ⟨hno, -⟩
  · cases heq
    obtain rfl : t₁ = t₂ := Option.some.inj (ht₁.symm.trans ht₂)
    simp only [Statement.expects, UpdateTaskLifecycleStateExpectedInput.expects, Bool.and_eq_true,
      decide_eq_true_eq] at hexp
    have hcount : between.countP (writes taskId) = 0 := by omega
    intro e he
    simpa using List.countP_eq_zero.1 hcount e he
  · simp [writes, hwritten] at hno

/-- However transitions and attachments interleave, with failures and crashes anywhere,
they are serialized on every task. -/
theorem writers_serialized {db : Database} {es : List WriterEvent} {k : WriterConfig}
    (h : Run WriterCall.program (fallible Statement.exec) (.idle db) es k) (taskId : String) :
    Serialized db taskId es := by
  refine ⟨?_, fun t ht => (run_path h ht).1, ?_, ?_⟩
  · rintro before e after rfl
    obtain ⟨k₁, k₂, hbefore, hstep, -⟩ := h.split_step
    refine ⟨k₁, k₂, hbefore, hstep, ?_⟩
    have hissues := hbefore.issues WriterCall.program_isWriter (Config.issues_idle _ _)
    rcases step_task hstep hissues taskId with
      ⟨p, c, statement, r, t, rfl, hwritten, ht, hexp, ht'⟩ | ⟨hno, hsame⟩
    · rw [if_pos (by simpa [writes] using hwritten)]
      exact ⟨t, _, ht, ht', by rw [Statement.apply_version hexp]; omega⟩
    · rw [hno]
      simpa using hsame
  · rintro before p c input now r after rfl hwritten
    obtain ⟨k₁, k₂, hbefore, hstep, -⟩ := h.split_step
    obtain ⟨first, task, between, rfl, hothers, hedge, hinput⟩ := run_validated hbefore hstep
    have hid : input.taskId = taskId := by
      simp only [Statement.written, Statement.changed] at hwritten
      split at hwritten
      · split_ifs at hwritten
        exact Option.some.inj hwritten
      · cases hwritten
    rw [hid] at hbefore hinput ⊢
    refine ⟨first, task, between, rfl, hothers, ?_, hedge⟩
    exact run_validated_unwritten hbefore hstep hwritten (by rw [hinput]; rfl)
  · rintro before p c since result after rfl huninterrupted hlose e he hep
    obtain ⟨k₁, k₂, hbefore, hstep, -⟩ := h.split_step
    obtain ⟨statement, r, rfl⟩ := huninterrupted e he hep
    obtain ⟨k₃, k₄, -, hinvoke, hsince⟩ := hbefore.split_step
    have hleaves := hsince.leaves_response hinvoke huninterrupted hstep
    have hnone := c.losing hleaves hlose _ (mem_answers he)
    simp [writes, hnone]

def plannedDatabase : Database where
  tasks := [reservedRow (reserveIssue "repo-a" "k1") "task-1" 10]
  worktrees := []
  cleanupLeases := []
  constraints := by decide

/-- An attachment comes between the read and the update of one transition, which then
loses; another transition wins. -/
theorem writers_serialized_attachment :
    ∃ es k, Run WriterCall.program (fallible Statement.exec) (.idle plannedDatabase) es k ∧
      (writtenLifecycles "task-1" es = [.active] ∧
        (k.shared.task "task-1").map (·.version) = some 3) ∧
      Serialized plannedDatabase "task-1" es := by
  obtain ⟨es, k, hrun, hfacts⟩ := Config.exists_run WriterCall.program Statement.exec
    (.idle plannedDatabase)
    [.invoke 0 (.transitionTask "task-1" .abandoned 20), .exec 0,
      .invoke 1 (.attachNawabariSession "task-1" "session-1" none 21), .exec 1, .exec 1,
      .respond 1, .exec 0, .exec 0, .respond 0,
      .invoke 2 (.transitionTask "task-1" .active 22), .exec 2, .exec 2, .exec 2, .respond 2]
    (fun outcome => (writtenLifecycles "task-1" outcome.1,
      (outcome.2.shared.task "task-1").map (·.version)))
    (b := ([.active], some 3)) (by decide)
  exact ⟨es, k, hrun, Prod.mk.inj hfacts, writers_serialized hrun "task-1"⟩

end Mottainai.TaskStore

import Mathlib.Data.List.Sort
import Mottainai.JavaScriptValues
import Mottainai.OperationSequences
import Mottainai.TaskTransitions
import Mottainai.WriteTransactions

/-!
# Cleanups and their leases

The store methods that write `cleanup_leases`, each one transaction. A new lease is only inserted
when its resource is free; a renewal and a mark update the row of one operation, whatever the other
rows are. `commitCleanup` is given statement by statement, on a connection whose operations may
fail. It throws and leaves the tables as they were, or it commits what the method does as one step.
-/

namespace Mottainai.CleanupLeases

open Interleaving JavaScriptValues OperationSequences TaskStore

section Methods

structure ReserveCleanupLeaseInput where
  operationId : String
  planDigest : String
  instanceId : String
  taskId : String
  worktreeId : Option String := none
  owner : String
  expiresAt : ℤ
  acquiredAt : Option ℤ := none

inductive ReserveCleanupLeaseResult where
  | ok (lease : CleanupLeaseRecord)
  | activeLease (existingLease : CleanupLeaseRecord)
  | planDigestMismatch (existingLease : CleanupLeaseRecord)
  deriving DecidableEq, Repr

/-- `state IN ('reserved', 'mutating', 'verifying')`. -/
def isActiveState : CleanupLeaseState → Bool
  | .reserved | .mutating | .verifying => true
  | .committed | .failed => false

/-- `isLeaseActive`. -/
def isLeaseActive (lease : CleanupLeaseRecord) (now : ℤ) : Bool :=
  isActiveState lease.state && decide (now < lease.expiresAt)

/-- `SELECT * FROM cleanup_leases WHERE … AND expires_at > ? ORDER BY updated_at DESC LIMIT 1`. -/
def activeLease (db : Database) (input : ReserveCleanupLeaseInput) (now : ℤ) :
    Option CleanupLeaseRecord :=
  ((db.cleanupLeases.filter fun lease =>
    decide (lease.instanceId = input.instanceId ∧ lease.taskId = input.taskId ∧
      lease.worktreeId = input.worktreeId) && isLeaseActive lease now).insertionSort
        fun a b => b.updatedAt ≤ a.updatedAt).head?

/-- `UPDATE cleanup_leases SET … WHERE …`, with the number of rows changed. -/
def updateLeases (db : Database) (condition : CleanupLeaseRecord → Bool)
    (set : CleanupLeaseRecord → CleanupLeaseRecord) : Except String (ℕ × Database) := do
  let db' ← Database.write { db.toTables with
    cleanupLeases := db.cleanupLeases.map fun lease => if condition lease then set lease else lease }
  pure (db.cleanupLeases.countP condition, db')

/-- `recoveryState`. -/
def recoveryState : CleanupLeaseState → CleanupLeaseState
  | .mutating => .mutating
  | .verifying => .verifying
  | _ => .reserved

def renewed (input : ReserveCleanupLeaseInput) (now : ℤ) (lease : CleanupLeaseRecord) :
    CleanupLeaseRecord :=
  { lease with
    state := recoveryState lease.state
    owner := input.owner
    expiresAt := input.expiresAt
    updatedAt := now
    completedActionIds :=
      if recoveryState lease.state = .reserved then [] else lease.completedActionIds
    lastError := if recoveryState lease.state = .reserved then none else lease.lastError }

def reservedLease (input : ReserveCleanupLeaseInput) (now : ℤ) : CleanupLeaseRecord where
  operationId := input.operationId
  planDigest := input.planDigest
  instanceId := input.instanceId
  taskId := input.taskId
  worktreeId := input.worktreeId
  owner := input.owner
  state := .reserved
  acquiredAt := now
  expiresAt := input.expiresAt
  updatedAt := now
  completedActionIds := []
  lastError := none

def sameRequest (operation : CleanupLeaseRecord) (input : ReserveCleanupLeaseInput) : Bool :=
  decide (operation.planDigest = input.planDigest ∧ operation.instanceId = input.instanceId ∧
    operation.taskId = input.taskId ∧ operation.worktreeId = input.worktreeId)

/-- The part of `reserveCleanupLease` for an operation that has a lease. -/
def reserveAgain (db : Database) (input : ReserveCleanupLeaseInput) (now : ℤ)
    (operation : CleanupLeaseRecord) : Except String (ReserveCleanupLeaseResult × Database) :=
  if sameRequest operation input = false then pure (.planDigestMismatch operation, db)
  else if operation.state = .committed then pure (.ok operation, db)
  else if operation.state ≠ .failed ∧ now < operation.expiresAt then
    if operation.owner ≠ input.owner then pure (.activeLease operation, db)
    else pure (.ok operation, db)
  else do
    let written ← updateLeases db (fun lease => decide (lease.operationId = input.operationId))
      (renewed input now)
    let lease ← found (written.2.cleanupLease input.operationId) undefinedRow
    pure (.ok lease, written.2)

/-- The part of `reserveCleanupLease` for an operation that has none. -/
def reserveFirst (db : Database) (input : ReserveCleanupLeaseInput) (now : ℤ) :
    Except String (ReserveCleanupLeaseResult × Database) :=
  match activeLease db input now with
  | some existing => pure (.activeLease existing, db)
  | none => do
    let db' ← Database.write { db.toTables with
      cleanupLeases := db.cleanupLeases ++ [reservedLease input now] }
    let lease ← found (db'.cleanupLease input.operationId) undefinedRow
    pure (.ok lease, db')

/-- `reserveCleanupLease`. -/
def reserveCleanupLease (db : Database) (input : ReserveCleanupLeaseInput) (now : ℤ) :
    Except String (ReserveCleanupLeaseResult × Database) :=
  match db.cleanupLease input.operationId with
  | some operation => reserveAgain db input (input.acquiredAt.getD now) operation
  | none => reserveFirst db input (input.acquiredAt.getD now)

structure MarkCleanupLeaseInput where
  operationId : String
  state : CleanupLeaseState
  expectedState : Option CleanupLeaseState := none
  completedActionIds : Option (List String) := none
  lastError : Option String := none
  updatedAt : Option ℤ := none

def marked (input : MarkCleanupLeaseInput) (now : ℤ) (lease : CleanupLeaseRecord) :
    CleanupLeaseRecord :=
  { lease with
    state := input.state
    updatedAt := now
    completedActionIds :=
      (input.completedActionIds.map List.eraseDups).getD lease.completedActionIds
    lastError := input.lastError.or lease.lastError }

def MarkCleanupLeaseInput.expects (input : MarkCleanupLeaseInput) (lease : CleanupLeaseRecord) :
    Bool :=
  input.expectedState.all fun state => decide (lease.state = state)

/-- `markCleanupLease`. -/
def markCleanupLease (db : Database) (input : MarkCleanupLeaseInput) (now : ℤ) :
    Except String (CleanupLeaseRecord × Database) := do
  let current ← found (db.cleanupLease input.operationId)
    s!"cleanup lease not found: {input.operationId}"
  let expected := (input.expectedState.map CleanupLeaseState.text).getD "undefined"
  let changed := s!"cleanup lease state changed concurrently: {input.operationId}"
  require (input.expects current = true)
    s!"{changed} (expected {expected}, found {current.state.text})"
  let written ← updateLeases db
    (fun lease => decide (lease.operationId = input.operationId) && input.expects lease)
    (marked input (input.updatedAt.getD now))
  require (written.1 ≠ 0) s!"{changed} (expected {expected})"
  let lease ← found (written.2.cleanupLease input.operationId) undefinedRow
  pure (lease, written.2)

end Methods

section Runs

/-- The methods that write leases. `otherTables` stands for every method that writes the
other two tables. -/
inductive Operation where
  | reserveCleanupLease (input : ReserveCleanupLeaseInput) (now : ℤ)
  | markCleanupLease (input : MarkCleanupLeaseInput) (now : ℤ)
  | commitCleanup (input : CommitCleanupInput) (now : ℤ)
  | otherTables (tasks : List TaskRecord) (worktrees : List WorktreeRecord) (now : ℤ)

def Operation.time : Operation → ℤ
  | .reserveCleanupLease input now => input.acquiredAt.getD now
  | .markCleanupLease input now => input.updatedAt.getD now
  | .commitCleanup input now => input.committedAt.getD now
  | .otherTables _ _ now => now

/-- The database after an operation; one that throws has rolled back. -/
def Operation.exec (db : Database) : Operation → Database
  | .reserveCleanupLease input now => (committed db (CleanupLeases.reserveCleanupLease db input now)).2
  | .markCleanupLease input now => (committed db (CleanupLeases.markCleanupLease db input now)).2
  | .commitCleanup input now => (committed db (TaskStore.commitCleanup db input now)).2
  | .otherTables tasks worktrees _ =>
      (committed db ((Database.write ⟨tasks, worktrees, db.cleanupLeases⟩).map fun db' => ((), db'))).2

structure Moment where
  clock : ℤ
  db : Database

def apply (moment : Moment) (op : Operation) : Moment := ⟨op.time, op.exec moment.db⟩

/-- The clock does not go back. -/
def InTime (moment : Moment) (op : Operation) : Prop := moment.clock ≤ op.time

instance (moment : Moment) (op : Operation) : Decidable (InTime moment op) :=
  inferInstanceAs (Decidable (_ ≤ _))

def resource (lease : CleanupLeaseRecord) : String × String × Option String :=
  (lease.instanceId, lease.taskId, lease.worktreeId)

/-- No two active leases are about the same resource. -/
def Exclusive (now : ℤ) (db : Database) : Prop :=
  ExclusiveRows.Exclusive CleanupLeaseRecord.operationId resource
    (fun lease => isLeaseActive lease now = true) db.cleanupLeases

def Revives (db : Database) (own : CleanupLeaseRecord) : Operation → Prop
  | .reserveCleanupLease input now =>
      db.cleanupLease input.operationId = some own ∧ sameRequest own input = true ∧
        own.state ≠ .committed ∧
        (own.state = .failed ∨ own.expiresAt ≤ input.acquiredAt.getD now) ∧
        input.acquiredAt.getD now < input.expiresAt
  | .markCleanupLease input now =>
      db.cleanupLease input.operationId = some own ∧ input.expects own = true ∧
        isActiveState own.state = false ∧ isActiveState input.state = true ∧
        input.updatedAt.getD now < own.expiresAt
  | _ => False

/-- When the operation revives its lease, no other lease of the resource is active. -/
def RevivesAlone (moment : Moment) (op : Operation) : Prop :=
  ∀ own, Revives moment.db own op → ∀ other ∈ moment.db.cleanupLeases,
    other.operationId ≠ own.operationId → resource own = resource other →
      isLeaseActive other op.time = false

end Runs

section Writes

variable {db db' : Database} {own : CleanupLeaseRecord}

/-- The columns of a lease that no update changes. -/
structure Keeps (set : CleanupLeaseRecord → CleanupLeaseRecord) : Prop where
  operationId : ∀ lease, (set lease).operationId = lease.operationId
  taskId : ∀ lease, (set lease).taskId = lease.taskId
  resource : ∀ lease, resource (set lease) = resource lease

theorem renewed_keeps (input : ReserveCleanupLeaseInput) (now : ℤ) : Keeps (renewed input now) :=
  ⟨fun _ => rfl, fun _ => rfl, fun _ => rfl⟩

theorem marked_keeps (input : MarkCleanupLeaseInput) (now : ℤ) : Keeps (marked input now) :=
  ⟨fun _ => rfl, fun _ => rfl, fun _ => rfl⟩

variable {set : CleanupLeaseRecord → CleanupLeaseRecord} {operationId : String}

theorem updateLeases_ok (db : Database) (hset : Keeps set) (condition : CleanupLeaseRecord → Bool) :
    ∃ db', updateLeases db condition set = .ok (db.cleanupLeases.countP condition, db') ∧
      db'.cleanupLeases =
        db.cleanupLeases.map fun lease => if condition lease then set lease else lease := by
  obtain ⟨htasks, hstart, hsession, hworktrees, hleases, hworktreeTask, hleaseTask,
    hleaseWorktree⟩ := db.constraints
  have hworktreeId : ∀ lease, (set lease).worktreeId = lease.worktreeId :=
    fun lease => congrArg (·.2.2) (hset.resource lease)
  have hconstraints : Constraints ⟨db.tasks, db.worktrees,
      db.cleanupLeases.map fun lease => if condition lease then set lease else lease⟩ := by
    refine ⟨htasks, hstart, hsession, hworktrees, ?_, hworktreeTask, ?_, ?_⟩
    · have hkeys : (db.cleanupLeases.map fun lease =>
          if condition lease then set lease else lease).map (·.operationId) =
            db.cleanupLeases.map (·.operationId) := by
        rw [List.map_map]
        refine List.map_congr_left fun lease _ => ?_
        simp only [Function.comp_apply]
        split_ifs
        · exact hset.operationId lease
        · rfl
      exact hkeys ▸ hleases
    · simp only [List.forall_mem_map]
      intro lease hlease
      split_ifs
      · rw [hset.taskId]
        exact hleaseTask lease hlease
      · exact hleaseTask lease hlease
    · simp only [List.forall_mem_map]
      intro lease hlease
      split_ifs
      · rw [hworktreeId]
        exact hleaseWorktree lease hlease
      · exact hleaseWorktree lease hlease
  refine ⟨⟨_, hconstraints⟩, ?_, rfl⟩
  rw [updateLeases, Database.write, dif_pos hconstraints]
  rfl

theorem cleanupLease_eq_some_iff :
    db.cleanupLease operationId = some own ↔
      own ∈ db.cleanupLeases ∧ own.operationId = operationId :=
  TableRows.find?_eq_some_iff db.constraints.2.2.2.2.1

/-- An updated row is read back. -/
theorem cleanupLease_updated (hset : Keeps set) (hown : db.cleanupLease operationId = some own)
    (hrows : db'.cleanupLeases = db.cleanupLeases.map fun lease =>
      if lease.operationId = operationId then set lease else lease) :
    db'.cleanupLease operationId = some (set own) := by
  obtain ⟨hmem, hid⟩ := cleanupLease_eq_some_iff.1 hown
  refine cleanupLease_eq_some_iff.2 ⟨?_, (hset.operationId own).trans hid⟩
  rw [hrows]
  exact List.mem_map.2 ⟨own, hmem, if_pos hid⟩

end Writes

section Methods

variable {db : Database} {own : CleanupLeaseRecord} {now : ℤ}

def withUpdate (db : Database) (operationId : String)
    (set : CleanupLeaseRecord → CleanupLeaseRecord) : List CleanupLeaseRecord :=
  db.cleanupLeases.map fun lease => if lease.operationId = operationId then set lease else lease

/-- The request of an operation that has a lease extends it. -/
def Renews (own : CleanupLeaseRecord) (input : ReserveCleanupLeaseInput) (now : ℤ) : Prop :=
  sameRequest own input = true ∧ own.state ≠ .committed ∧
    (own.state = .failed ∨ own.expiresAt ≤ input.acquiredAt.getD now)

variable {input : ReserveCleanupLeaseInput} {db' : Database} {lease : CleanupLeaseRecord}

theorem exec_reserve_renews (hown : db.cleanupLease input.operationId = some own)
    (h : Renews own input now) :
    ((Operation.reserveCleanupLease input now).exec db).cleanupLeases =
      withUpdate db input.operationId (renewed input (input.acquiredAt.getD now)) := by
  obtain ⟨hsame, hcommitted, hended⟩ := h
  have hactive : ¬ (own.state ≠ .failed ∧ input.acquiredAt.getD now < own.expiresAt) := by
    rintro ⟨hfailed, hexpires⟩
    rcases hended with hstate | hexpired
    · exact hfailed hstate
    · omega
  have hkeeps := renewed_keeps input (input.acquiredAt.getD now)
  obtain ⟨db', hwrite, hrows⟩ := updateLeases_ok db hkeeps
    fun lease => decide (lease.operationId = input.operationId)
  simp only [decide_eq_true_eq] at hrows
  simp only [Operation.exec, CleanupLeases.reserveCleanupLease, hown, reserveAgain, hsame,
    Bool.true_eq_false, if_false, hcommitted, hactive, hwrite, bind, Except.bind,
    cleanupLease_updated hkeeps hown hrows, found, pure, Except.pure, committed]
  exact hrows

theorem exec_reserve_unchanged (hown : db.cleanupLease input.operationId = some own)
    (h : ¬ Renews own input now) : (Operation.reserveCleanupLease input now).exec db = db := by
  simp only [Operation.exec, CleanupLeases.reserveCleanupLease, hown, reserveAgain]
  split_ifs with hsame hcommitted hactive howner
  · rfl
  · rfl
  · rfl
  · rfl
  · refine absurd ⟨by simpa using hsame, hcommitted, ?_⟩ h
    by_cases hfailed : own.state = .failed
    · exact Or.inl hfailed
    · have hexpired := fun hexpires => hactive ⟨hfailed, hexpires⟩
      exact Or.inr (not_lt.1 hexpired)

/-- A first reservation finds its resource free. -/
theorem activeLease_eq_none (h : activeLease db input now = none)
    (hlease : lease ∈ db.cleanupLeases)
    (hsame : resource lease = resource (reservedLease input now)) :
    isLeaseActive lease now = false := by
  rw [activeLease, List.head?_eq_none_iff] at h
  have hperm := List.perm_insertionSort (fun a b : CleanupLeaseRecord => b.updatedAt ≤ a.updatedAt)
    (db.cleanupLeases.filter fun lease =>
      decide (lease.instanceId = input.instanceId ∧ lease.taskId = input.taskId ∧
        lease.worktreeId = input.worktreeId) && isLeaseActive lease now)
  rw [h] at hperm
  have hnot := List.filter_eq_nil_iff.1 hperm.symm.eq_nil lease hlease
  simp only [resource, reservedLease, Prod.mk.injEq] at hsame
  simpa [hsame] using hnot

theorem exec_reserve_first (hown : db.cleanupLease input.operationId = none)
    (h : Exclusive (input.acquiredAt.getD now) db) :
    Exclusive (input.acquiredAt.getD now) ((Operation.reserveCleanupLease input now).exec db) := by
  simp only [Operation.exec, CleanupLeases.reserveCleanupLease, hown]
  cases hresult : reserveFirst db input (input.acquiredAt.getD now) with
  | error e => exact h
  | ok result =>
    unfold reserveFirst at hresult
    split at hresult
    · cases hresult
      exact h
    · rename_i hfree
      simp only [bind_eq_ok] at hresult
      obtain ⟨written, hwrite, lease, -, heq⟩ := hresult
      cases heq
      have hrows : written.cleanupLeases = db.cleanupLeases ++
          [reservedLease input (input.acquiredAt.getD now)] := by
        rw [Database.write_ok hwrite]
      simp only [committed, Exclusive, hrows]
      refine ExclusiveRows.Exclusive.append h fun lease hlease hsame => ?_
      simp [activeLease_eq_none hfree hlease hsame]

theorem exec_mark_updates {input : MarkCleanupLeaseInput}
    (hown : db.cleanupLease input.operationId = some own) (hexpects : input.expects own = true) :
    ((Operation.markCleanupLease input now).exec db).cleanupLeases =
      withUpdate db input.operationId (marked input (input.updatedAt.getD now)) := by
  obtain ⟨hmem, hid⟩ := cleanupLease_eq_some_iff.1 hown
  have hkeeps := marked_keeps input (input.updatedAt.getD now)
  obtain ⟨db', hwrite, hrows⟩ := updateLeases_ok db hkeeps
    fun lease => decide (lease.operationId = input.operationId) && input.expects lease
  have hsame : db'.cleanupLeases =
      withUpdate db input.operationId (marked input (input.updatedAt.getD now)) := by
    rw [hrows]
    refine List.map_congr_left fun lease hlease => ?_
    by_cases hkey : lease.operationId = input.operationId
    · obtain rfl : lease = own :=
        Option.some.inj ((cleanupLease_eq_some_iff.2 ⟨hlease, hkey⟩).symm.trans hown)
      simp [hkey, hexpects]
    · simp [hkey]
  have hcount : db.cleanupLeases.countP (fun lease =>
      decide (lease.operationId = input.operationId) && input.expects lease) ≠ 0 := by
    intro hzero
    have hnot := List.countP_eq_zero.1 hzero own hmem
    simp [hid, hexpects] at hnot
  simp only [Operation.exec, CleanupLeases.markCleanupLease, hown, found, hexpects, require,
    if_true, hwrite, bind, Except.bind, ne_eq, hcount, not_false_eq_true,
    cleanupLease_updated hkeeps hown hsame, pure, Except.pure, committed]
  exact hsame

theorem exec_mark_unchanged {input : MarkCleanupLeaseInput}
    (h : ∀ own, db.cleanupLease input.operationId = some own → input.expects own = false) :
    (Operation.markCleanupLease input now).exec db = db := by
  simp only [Operation.exec, CleanupLeases.markCleanupLease]
  cases hown : db.cleanupLease input.operationId with
  | none => rfl
  | some own =>
    simp only [found, require, h own hown, Bool.false_eq_true, if_false, bind, Except.bind]
    rfl

theorem cleanTask_leases {input : CommitCleanupInput} (h : cleanTask db input now = .ok db') :
    db'.cleanupLeases = db.cleanupLeases := by
  unfold cleanTask at h
  obtain ⟨task, -, hrest⟩ := bind_eq_ok.1 h
  split_ifs at hrest
  · cases hrest
    rfl
  · obtain ⟨written, hupdate, heq⟩ := bind_eq_ok.1 hrest
    cases heq
    rw [(Database.updateTasks_ok hupdate).2]

theorem removeWorktree_leases {input : CommitCleanupInput}
    (h : removeWorktree db input now = .ok db') : db'.cleanupLeases = db.cleanupLeases := by
  unfold removeWorktree at h
  split at h
  · cases h
    rfl
  · obtain ⟨worktree, -, hrest⟩ := bind_eq_ok.1 h
    split_ifs at hrest
    · cases hrest
      rfl
    · rw [Database.write_ok hrest]

theorem commitCleanup_held {input : CommitCleanupInput} {result : CommitCleanupResult}
    (h : commitCleanup db input now = .ok (result, db')) (hlease : lease ∈ db'.cleanupLeases)
    {t : ℤ} (hactive : isLeaseActive lease t = true) : lease ∈ db.cleanupLeases := by
  unfold commitCleanup at h
  obtain ⟨own, -, hrest⟩ := bind_eq_ok.1 h
  split_ifs at hrest
  · simp only [bind_eq_ok] at hrest
    obtain ⟨_, -, _, -, heq⟩ := hrest
    cases heq
    exact hlease
  · simp only [bind_eq_ok] at hrest
    obtain ⟨db₁, hclean, db₂, hremove, _, -, db₃, hcommit, _, -, _, -, heq⟩ := hrest
    cases heq
    rw [Database.write_ok hcommit] at hlease
    obtain ⟨old, hold, rfl⟩ := List.mem_map.1 hlease
    rw [removeWorktree_leases hremove, cleanTask_leases hclean] at hold
    split_ifs at hactive ⊢
    · simp [isLeaseActive, isActiveState] at hactive
    · exact hold

end Methods

section Runs

variable {moment : Moment} {db : Database} {own : CleanupLeaseRecord} {now : ℤ}

/-- Active leases expire, and none becomes active by waiting. -/
theorem Exclusive.later {t : ℤ} (h : Exclusive now db) (ht : now ≤ t) : Exclusive t db := by
  refine ExclusiveRows.Exclusive.mono h fun lease _ hactive => ?_
  simp only [isLeaseActive, Bool.and_eq_true, decide_eq_true_eq] at hactive ⊢
  exact ⟨hactive.1, by omega⟩

/-- A write to the row of one operation leaves the leases exclusive exactly when the row
that is active afterwards is alone. -/
theorem exclusive_withUpdate_iff {db' : Database} {operationId : String}
    {set : CleanupLeaseRecord → CleanupLeaseRecord} (hset : Keeps set) (h : Exclusive now db)
    (hown : db.cleanupLease operationId = some own)
    (hrows : db'.cleanupLeases = withUpdate db operationId set) :
    Exclusive now db' ↔ (isLeaseActive (set own) now = true → ∀ other ∈ db.cleanupLeases,
      other.operationId ≠ own.operationId → resource own = resource other →
        isLeaseActive other now = false) := by
  obtain ⟨hmem, hid⟩ := cleanupLease_eq_some_iff.1 hown
  have hupdate := ExclusiveRows.Exclusive.update_iff (k := operationId) h hset.operationId
    hset.resource
  rw [Exclusive, hrows, withUpdate, hupdate]
  simp only [Bool.not_eq_true]
  constructor
  · intro hfree hactive other hother hne
    exact hfree own hmem hid hactive other hother (hid ▸ hne)
  · intro hfree own' hown' hid' hactive other hother hne
    obtain rfl : own' = own :=
      Option.some.inj ((cleanupLease_eq_some_iff.2 ⟨hown', hid'⟩).symm.trans hown)
    exact hfree hactive other hother (hid' ▸ hne)

variable {input : ReserveCleanupLeaseInput}

theorem isLeaseActive_renewed :
    isLeaseActive (renewed input now own) now = true ↔ now < input.expiresAt := by
  cases hstate : own.state <;>
    simp [isLeaseActive, renewed, recoveryState, isActiveState, hstate]

theorem exec_reserve_exclusive_iff (h : Exclusive (input.acquiredAt.getD now) moment.db) :
    Exclusive (input.acquiredAt.getD now)
        ((Operation.reserveCleanupLease input now).exec moment.db) ↔
      RevivesAlone moment (.reserveCleanupLease input now) := by
  cases hown : moment.db.cleanupLease input.operationId with
  | none =>
    refine iff_of_true (exec_reserve_first hown h) fun own hrevives => ?_
    exact absurd (hown.symm.trans hrevives.1) (by simp)
  | some own =>
    by_cases hrenews : Renews own input now
    · rw [exclusive_withUpdate_iff (renewed_keeps input _) h hown
        (exec_reserve_renews hown hrenews), isLeaseActive_renewed]
      constructor
      · intro hfree own' hrevives
        obtain rfl := Option.some.inj (hown.symm.trans hrevives.1)
        exact hfree hrevives.2.2.2.2
      · intro halone hexpires
        exact halone own ⟨hown, hrenews.1, hrenews.2.1, hrenews.2.2, hexpires⟩
    · rw [exec_reserve_unchanged hown hrenews]
      refine iff_of_true h fun own' hrevives => ?_
      obtain rfl := Option.some.inj (hown.symm.trans hrevives.1)
      exact absurd ⟨hrevives.2.1, hrevives.2.2.1, hrevives.2.2.2.1⟩ hrenews

theorem exec_mark_exclusive_iff {input : MarkCleanupLeaseInput}
    (h : Exclusive (input.updatedAt.getD now) moment.db) :
    Exclusive (input.updatedAt.getD now)
        ((Operation.markCleanupLease input now).exec moment.db) ↔
      RevivesAlone moment (.markCleanupLease input now) := by
  by_cases hmarks : ∃ own, moment.db.cleanupLease input.operationId = some own ∧
      input.expects own = true
  · obtain ⟨own, hown, hexpects⟩ := hmarks
    rw [exclusive_withUpdate_iff (marked_keeps input _) h hown (exec_mark_updates hown hexpects)]
    have hactive : isLeaseActive (marked input (input.updatedAt.getD now) own)
        (input.updatedAt.getD now) = true ↔
          isActiveState input.state = true ∧ input.updatedAt.getD now < own.expiresAt := by
      rw [isLeaseActive, Bool.and_eq_true, decide_eq_true_eq]
      rfl
    rw [hactive]
    constructor
    · intro hfree own' hrevives
      obtain rfl := Option.some.inj (hown.symm.trans hrevives.1)
      exact hfree hrevives.2.2.2
    · intro halone hmarked other hother hne hsame
      by_cases hbefore : isActiveState own.state = true
      · by_contra hother'
        have hheld : isLeaseActive own (input.updatedAt.getD now) = true := by
          simp [isLeaseActive, hbefore, hmarked.2]
        have hmem := (cleanupLease_eq_some_iff.1 hown).1
        exact hne (h own hmem hheld other hother (by simpa using hother') hsame).symm
      · exact halone own ⟨hown, hexpects, by simpa using hbefore, hmarked⟩ other hother hne hsame
  · rw [exec_mark_unchanged fun own hown => by
      by_contra hexpects
      exact hmarks ⟨own, hown, by simpa using hexpects⟩]
    exact iff_of_true h fun own hrevives => absurd ⟨own, hrevives.1, hrevives.2.1⟩ hmarks

/-- An operation leaves the leases exclusive exactly when it revives none beside another. -/
theorem exec_exclusive_iff (op : Operation) (h : Exclusive op.time moment.db) :
    Exclusive op.time (op.exec moment.db) ↔ RevivesAlone moment op := by
  cases op with
  | reserveCleanupLease input now => exact exec_reserve_exclusive_iff h
  | markCleanupLease input now => exact exec_mark_exclusive_iff h
  | commitCleanup input now =>
    refine iff_of_true ?_ fun own hrevives => hrevives.elim
    simp only [Operation.exec]
    cases hresult : TaskStore.commitCleanup moment.db input now with
    | error e => exact h
    | ok result =>
      exact ExclusiveRows.Exclusive.of_held h fun lease hlease hactive =>
        commitCleanup_held hresult hlease hactive
  | otherTables tasks worktrees now =>
    refine iff_of_true ?_ fun own hrevives => hrevives.elim
    simp only [Operation.exec]
    cases hresult : Database.write ⟨tasks, worktrees, moment.db.cleanupLeases⟩ with
    | error e => exact h
    | ok db' =>
      simp only [Except.map, committed, Exclusive, Database.write_ok hresult]
      exact h

/-- With a clock that does not go back, at most one lease of a resource is active at every
moment exactly in the runs in which no operation revives its own lease beside an active one
of another operation. -/
theorem cleanup_leases_exclusive_iff (start : ℤ) (ops : List Operation)
    (hclock : EachStep apply InTime ⟨start, .empty⟩ ops) :
    EachState apply (fun moment => ∀ t, moment.clock ≤ t → Exclusive t moment.db)
        ⟨start, .empty⟩ ops ↔
      EachStep apply RevivesAlone ⟨start, .empty⟩ ops := by
  refine eachState_iff_eachStep hclock (fun moment op hexclusive htime => ?_)
    fun _ _ => ExclusiveRows.exclusive_nil
  rw [← exec_exclusive_iff op (hexclusive op.time htime)]
  exact ⟨fun h => h _ le_rfl, fun h t ht => h.later ht⟩

def storeTask : Operation := .otherTables
  [{ taskId := "task-1"
     instanceId := "instance-1"
     taskSlug := "cleanup"
     issueRef := none
     nawabariSessionId := none
     startIdempotencyKey := none
     lifecycleState := .merged
     version := 1
     baseBranch := "main"
     baseCommit := "base-1"
     createdAt := 0
     updatedAt := 0 }] [] 0

def reserveFor (operationId : String) (now : ℤ) : Operation := .reserveCleanupLease
  { operationId := operationId
    planDigest := "plan-1"
    instanceId := "instance-1"
    taskId := "task-1"
    owner := operationId
    expiresAt := now + 10 } now

theorem cleanup_leases_exclusive_iff_renewal :
    EachState apply (fun moment => ∀ t, moment.clock ≤ t → Exclusive t moment.db)
        ⟨0, .empty⟩ [storeTask, reserveFor "operation-a" 1, reserveFor "operation-a" 12] ↔
      EachStep apply RevivesAlone ⟨0, .empty⟩
        [storeTask, reserveFor "operation-a" 1, reserveFor "operation-a" 12] :=
  cleanup_leases_exclusive_iff 0 _ ⟨by decide, by decide, by decide, trivial⟩

/-- An operation renews its expired lease after another one has taken the resource over. -/
theorem renewal_beside_active_lease :
    ¬ ∀ (start : ℤ) (ops : List Operation), EachStep apply InTime ⟨start, .empty⟩ ops →
      EachState apply (fun moment => ∀ t, moment.clock ≤ t → Exclusive t moment.db)
        ⟨start, .empty⟩ ops := by
  intro h
  have hexclusive := (h 0 [storeTask, reserveFor "operation-a" 1, reserveFor "operation-b" 12,
    reserveFor "operation-a" 13] ⟨by decide, by decide, by decide, by decide, trivial⟩).last 13
      (by decide)
  have hheld : ∃ lease ∈ ([storeTask, reserveFor "operation-a" 1, reserveFor "operation-b" 12,
      reserveFor "operation-a" 13].foldl apply ⟨0, .empty⟩).db.cleanupLeases,
      ∃ other ∈ ([storeTask, reserveFor "operation-a" 1, reserveFor "operation-b" 12,
        reserveFor "operation-a" 13].foldl apply ⟨0, .empty⟩).db.cleanupLeases,
      isLeaseActive lease 13 = true ∧ isLeaseActive other 13 = true ∧
        resource lease = resource other ∧ lease.operationId ≠ other.operationId := by
    decide
  obtain ⟨lease, hlease, other, hother, hactive, hactive', hsame, hne⟩ := hheld
  exact hne (hexclusive lease hlease hactive other hother hactive' hsame)

end Runs

end Mottainai.CleanupLeases

namespace Mottainai.TaskStore

open WriteTransactions TaskLifecycle JavaScriptValues

section Statements

variable (p : ℕ) (input : CommitCleanupInput) (now : ℤ)

def cleanupLeaseRow : Connected Database CleanupLeaseRecord := do
  let row ← Connected.select p (·.cleanupLease input.operationId)
  Connected.lift (found row s!"cleanup lease not found: {input.operationId}")

def cleanTaskRow : Connected Database Unit := do
  let row ← Connected.select p (·.task input.taskId)
  let currentTask ← Connected.lift (found row s!"task not found: {input.taskId}")
  if currentTask.instanceId ≠ input.instanceId then
    Connected.throw s!"task repository mismatch: {input.taskId}"
  else if currentTask.lifecycleState = .cleaned then pure ()
  else if currentTask.version ≠ input.expectedTaskVersion ∨
      currentTask.lifecycleState ≠ input.expectedLifecycle then
    Connected.throw s!"task changed during cleanup: {input.taskId}"
  else Connected.update p fun db =>
    (db.updateTasks
      (UpdateTaskLifecycleStateExpectedInput.expects
        { taskId := input.taskId
          expectedLifecycle := input.expectedLifecycle
          expectedVersion := input.expectedTaskVersion
          next := .cleaned })
      (·.advance .cleaned now)).map (·.2)

def markRemovedRow (worktree : WorktreeRecord) (worktreeId : String) : Connected Database Unit :=
  if worktree.status = .removed then pure ()
  else Connected.update p fun db => Database.write { db.toTables with
    worktrees := db.worktrees.map fun w =>
      if w.worktreeId = worktreeId then { w with status := .removed, updatedAt := now } else w }

def removeWorktreeRow : Connected Database (Option WorktreeRecord) :=
  match input.worktreeId with
  | none => pure none
  | some worktreeId => do
    let row ← Connected.select p (·.worktree worktreeId)
    let currentWorktree ← Connected.lift (found row s!"worktree not found: {worktreeId}")
    if currentWorktree.taskId ≠ input.taskId ∨ currentWorktree.instanceId ≠ input.instanceId then
      Connected.throw s!"worktree cleanup association mismatch: {worktreeId}"
    else do
      markRemovedRow p now currentWorktree worktreeId
      let finalRow ← Connected.select p (·.worktree worktreeId)
      let worktree ← Connected.lift (found finalRow undefinedRow)
      pure (some worktree)

def cleanupRows : Connected Database
    (Option TaskRecord × Option WorktreeRecord × Option CleanupLeaseRecord) := do
  cleanTaskRow p input now
  let worktree ← removeWorktreeRow p input now
  Connected.update p fun db => commitLease db input now
  let finalTask ← Connected.select p (·.task input.taskId)
  let finalLease ← Connected.select p (·.cleanupLease input.operationId)
  pure (finalTask, worktree, finalLease)

def decodeRows (rows : Option TaskRecord × Option WorktreeRecord × Option CleanupLeaseRecord) :
    Except String CommitCleanupResult := do
  let task ← found rows.1 undefinedRow
  let lease ← found rows.2.2 undefinedRow
  pure ⟨task, rows.2.1, lease⟩

def committedWorktreeRow : Connected Database (Option WorktreeRecord) :=
  match input.worktreeId with
  | none => pure none
  | some worktreeId => do
    let row ← Connected.select p (·.worktree worktreeId)
    let worktree ← Connected.lift (found row undefinedRow)
    pure (some worktree)

def committedRows (lease : CleanupLeaseRecord) : Connected Database CommitCleanupResult := do
  let row ← Connected.select p (·.task input.taskId)
  let task ← Connected.lift (found row undefinedRow)
  let worktree ← committedWorktreeRow p input
  pure ⟨task, worktree, lease⟩

/-- The statements of `commitCleanup` after its `BEGIN`. -/
def commitCleanupStatements : Connected Database CommitCleanupResult := do
  let lease ← cleanupLeaseRow p input
  if lease.planDigest ≠ input.planDigest ∨ lease.instanceId ≠ input.instanceId ∨
      lease.taskId ≠ input.taskId ∨ lease.worktreeId ≠ input.worktreeId then
    Connected.throw s!"cleanup lease identity mismatch: {input.operationId}"
  else if lease.state = .committed then do
    Connected.commit p
    committedRows p input lease
  else if lease.state ≠ .verifying then
    Connected.throw s!"cleanup lease is not verified: {input.operationId} ({lease.state.text})"
  else do
    let rows ← cleanupRows p input now
    Connected.commit p
    Connected.lift (decodeRows rows)

/-- `commitCleanup`, as the connection `p` carries it out. -/
def commitCleanupTransaction : Connected Database CommitCleanupResult :=
  Connected.transaction p (commitCleanupStatements p input (input.committedAt.getD now))

end Statements

section Simulation

variable {p : ℕ} {input : CommitCleanupInput} {now : ℤ} {db db' : Database}

theorem cleanupLeaseRow_simulates : Simulates p (cleanupLeaseRow p input) fun db =>
    (found (db.cleanupLease input.operationId)
      s!"cleanup lease not found: {input.operationId}").map fun lease => (lease, db) := by
  refine (Simulates.bind (.select _) fun row => .lift _).congr fun db => ?_
  cases db.cleanupLease input.operationId <;> rfl

theorem cleanTaskRow_simulates : Simulates p (cleanTaskRow p input now) fun db =>
    (cleanTask db input now).map fun db' => ((), db') := by
  refine (Simulates.bind (.select _) fun row => .bind (.lift _) fun task =>
    .ite (.throw _) (.ite (.pure ()) (.ite (.throw _) (.update _)))).congr fun db => ?_
  unfold cleanTask
  cases db.task input.taskId with
  | none => rfl
  | some task =>
    simp only [found, bind, Except.bind, Except.map]
    split_ifs
    · rfl
    · rfl
    · rfl
    · cases db.updateTasks _ _ <;> rfl

theorem removeWorktreeRow_simulates : Simulates p (removeWorktreeRow p input now) fun db =>
    removeWorktree db input now >>= fun db' =>
      (cleanupWorktree db' input.worktreeId undefinedRow).map fun worktree => (worktree, db') := by
  unfold removeWorktreeRow removeWorktree cleanupWorktree
  cases input.worktreeId with
  | none => exact .pure none
  | some worktreeId =>
    refine (Simulates.bind (.select _) fun row => .bind (.lift _) fun worktree =>
      .ite (.throw _) (.bind (.ite (.pure ()) (.update _)) fun _ => .bind (.select _) fun row =>
        .bind (.lift _) fun worktree => .pure (some worktree))).congr fun db => ?_
    dsimp only
    cases db.worktree worktreeId with
    | none => rfl
    | some worktree =>
      simp only [found, bind, Except.bind, Except.map, pure, Except.pure]
      split_ifs
      · rfl
      · dsimp only
        cases db.worktree worktreeId <;> rfl
      · cases Database.write _ with
        | error e => rfl
        | ok db' =>
          dsimp only
          cases db'.worktree worktreeId <;> rfl

theorem cleanupRows_simulates : Simulates p (cleanupRows p input now) fun db => (do
    let db ← cleanTask db input now
    let db ← removeWorktree db input now
    let worktree ← cleanupWorktree db input.worktreeId undefinedRow
    let db ← commitLease db input now
    pure ((db.task input.taskId, worktree, db.cleanupLease input.operationId), db)) := by
  refine (Simulates.bind cleanTaskRow_simulates fun _ => .bind removeWorktreeRow_simulates
    fun worktree => .bind (.update _) fun _ => .bind (.select _) fun task =>
      .bind (.select _) fun lease => .pure (task, worktree, lease)).congr fun db => ?_
  cases cleanTask db input now with
  | error e => rfl
  | ok db =>
    simp only [bind, Except.bind, Except.map]
    cases removeWorktree db input now with
    | error e => rfl
    | ok db =>
      dsimp only
      cases cleanupWorktree db input.worktreeId undefinedRow with
      | error e => rfl
      | ok worktree =>
        dsimp only
        cases commitLease db input now <;> rfl

theorem committedWorktreeRow_reads : Reads (committedWorktreeRow p input) fun db =>
    cleanupWorktree db input.worktreeId undefinedRow := by
  unfold committedWorktreeRow cleanupWorktree
  cases input.worktreeId with
  | none => exact .pure none
  | some worktreeId =>
    refine (Reads.bind (.select _) fun row => .bind (.lift _) fun worktree =>
      .pure (some worktree)).congr fun db => ?_
    dsimp only
    cases db.worktree worktreeId <;> rfl

theorem committedRows_reads (lease : CleanupLeaseRecord) :
    Reads (committedRows p input lease) fun db => (do
      let task ← found (db.task input.taskId) undefinedRow
      let worktree ← cleanupWorktree db input.worktreeId undefinedRow
      pure ⟨task, worktree, lease⟩) := by
  refine (Reads.bind (.select _) fun row => .bind (.lift _) fun task =>
    .bind committedWorktreeRow_reads fun worktree =>
      .pure (CommitCleanupResult.mk task worktree lease)).congr fun db => ?_
  cases db.task input.taskId <;> rfl

end Simulation

section Effects

variable {input : CommitCleanupInput} {now : ℤ} {db db' : Database}

structure Cleanable (input : CommitCleanupInput) (task : TaskRecord) : Prop where
  instanceId : task.instanceId = input.instanceId
  expected : task.lifecycleState = .cleaned ∨
    task.version = input.expectedTaskVersion ∧ task.lifecycleState = input.expectedLifecycle

def TaskRecord.cleaned (task : TaskRecord) (now : ℤ) : TaskRecord :=
  if task.lifecycleState = .cleaned then task else task.advance .cleaned now

def WorktreeRecord.removed (worktree : WorktreeRecord) (now : ℤ) : WorktreeRecord :=
  if worktree.status = .removed then worktree
  else { worktree with status := .removed, updatedAt := now }

def CleanupLeaseRecord.committed (lease : CleanupLeaseRecord) (input : CommitCleanupInput)
    (now : ℤ) : CleanupLeaseRecord :=
  { lease with
    state := .committed, expiresAt := now, updatedAt := now,
    completedActionIds := input.completedActionIds.eraseDups, lastError := none }

theorem TaskRecord.cleaned_lifecycleState (task : TaskRecord) (now : ℤ) :
    (task.cleaned now).lifecycleState = .cleaned := by
  unfold TaskRecord.cleaned
  split_ifs with h
  · exact h
  · rfl

theorem WorktreeRecord.removed_status (worktree : WorktreeRecord) (now : ℤ) :
    (worktree.removed now).status = .removed := by
  unfold WorktreeRecord.removed
  split_ifs with h
  · exact h
  · rfl

theorem map_congr_row {Row : Type} {key : Row → String} {rows : List Row}
    (hkeys : (rows.map key).Nodup) {row : Row} (hrow : row ∈ rows) {set set' : Row → Row}
    (hset : set row = set' row) (hother : ∀ r, key r ≠ key row → set r = set' r) :
    rows.map set = rows.map set' := by
  refine List.map_congr_left fun r hr => ?_
  by_cases hkey : key r = key row
  · obtain rfl := List.inj_on_of_nodup_map hkeys hr hrow hkey
    exact hset
  · exact hother r hkey

/-- What the task part of a cleanup does. -/
theorem cleanTask_ok (h : cleanTask db input now = .ok db') :
    ∃ task, db.task input.taskId = some task ∧ Cleanable input task ∧
      db'.toTables = { db.toTables with tasks := db.tasks.map fun t =>
        if t.taskId = input.taskId then t.cleaned now else t } := by
  obtain ⟨task, hfound, h⟩ := bind_eq_ok.1 h
  have htask := found_ok hfound
  obtain ⟨hmem, hid⟩ := Database.task_eq_some.1 htask
  have hrows : ∀ set : TaskRecord → TaskRecord, set task = task.cleaned now →
      (∀ t, t.taskId ≠ task.taskId → set t = t) →
      db.tasks.map set = db.tasks.map fun t =>
        if t.taskId = input.taskId then t.cleaned now else t := by
    intro set hset hother
    rw [← hid]
    refine map_congr_row db.constraints.1 hmem ?_ fun t ht => ?_
    · rw [hset, if_pos rfl]
    · rw [hother t ht, if_neg ht]
  split_ifs at h with hinstance hcleaned hchanged
  · cases h
    have hsame := hrows id (by rw [TaskRecord.cleaned, if_pos hcleaned]; rfl) fun _ _ => rfl
    rw [List.map_id] at hsame
    rw [← hsame]
    exact ⟨task, htask, ⟨not_not.1 hinstance, .inl hcleaned⟩, rfl⟩
  · obtain ⟨⟨n, db₁⟩, hupdate, h⟩ := bind_eq_ok.1 h
    cases h
    obtain ⟨hversion, hlifecycle⟩ := not_or.1 hchanged
    rw [not_not] at hversion hlifecycle
    refine ⟨task, htask, ⟨not_not.1 hinstance, .inr ⟨hversion, hlifecycle⟩⟩, ?_⟩
    rw [(Database.updateTasks_ok hupdate).2]
    have hsame := hrows (fun t => if UpdateTaskLifecycleStateExpectedInput.expects
        { taskId := input.taskId
          expectedLifecycle := input.expectedLifecycle
          expectedVersion := input.expectedTaskVersion
          next := .cleaned } t then t.advance .cleaned now else t) ?_ fun t ht => ?_
    · rw [hsame]
    · rw [TaskRecord.cleaned, if_neg hcleaned, if_pos]
      simp [UpdateTaskLifecycleStateExpectedInput.expects, hid, hversion, hlifecycle]
    · rw [if_neg]
      simp [UpdateTaskLifecycleStateExpectedInput.expects, ← hid, ht]

variable {worktreeId : String}

/-- What the worktree part of a cleanup does. -/
theorem removeWorktree_ok (hinput : input.worktreeId = some worktreeId)
    (h : removeWorktree db input now = .ok db') :
    ∃ worktree, db.worktree worktreeId = some worktree ∧ worktree.taskId = input.taskId ∧
      worktree.instanceId = input.instanceId ∧
      db'.toTables = { db.toTables with worktrees := db.worktrees.map fun w =>
        if w.worktreeId = worktreeId then w.removed now else w } := by
  unfold removeWorktree at h
  rw [hinput] at h
  obtain ⟨worktree, hfound, h⟩ := bind_eq_ok.1 h
  have hworktree := found_ok hfound
  obtain ⟨hmem, hid⟩ := (TableRows.find?_eq_some_iff db.constraints.2.2.2.1).1 hworktree
  have hrows : ∀ set : WorktreeRecord → WorktreeRecord, set worktree = worktree.removed now →
      (∀ w, w.worktreeId ≠ worktree.worktreeId → set w = w) →
      db.worktrees.map set = db.worktrees.map fun w =>
        if w.worktreeId = worktreeId then w.removed now else w := by
    intro set hset hother
    rw [← hid]
    refine map_congr_row db.constraints.2.2.2.1 hmem ?_ fun w hw => ?_
    · rw [hset, if_pos rfl]
    · rw [hother w hw, if_neg hw]
  split_ifs at h with hmismatch hremoved
  all_goals
    obtain ⟨htaskId, hinstanceId⟩ := not_or.1 hmismatch
    refine ⟨worktree, hworktree, not_not.1 htaskId, not_not.1 hinstanceId, ?_⟩
  · cases h
    have hsame := hrows id (by rw [WorktreeRecord.removed, if_pos hremoved]; rfl) fun _ _ => rfl
    rw [List.map_id] at hsame
    rw [← hsame]
  · rw [Database.write_ok h]
    have hsame := hrows (fun w => if w.worktreeId = worktreeId then
        { w with status := .removed, updatedAt := now } else w) ?_ fun w hw => ?_
    · rw [hsame]
    · rw [WorktreeRecord.removed, if_neg hremoved, if_pos hid]
    · rw [if_neg fun hsame => hw (hsame.trans hid.symm)]

def cleanedTables (db : Database) (input : CommitCleanupInput) (now : ℤ) : Tables where
  tasks := db.tasks.map fun t => if t.taskId = input.taskId then t.cleaned now else t
  worktrees := db.worktrees.map fun w =>
    if some w.worktreeId = input.worktreeId then w.removed now else w
  cleanupLeases := db.cleanupLeases.map fun l =>
    if l.operationId = input.operationId then l.committed input now else l

section

variable (htables : db'.toTables = cleanedTables db input now)
include htables

theorem task_of_cleanedTables {task : TaskRecord} (htask : db.task input.taskId = some task) :
    db'.task input.taskId = some (task.cleaned now) := by
  unfold Database.task at htask ⊢
  rw [htables, cleanedTables, TableRows.find?_map (fun t => ?_), htask, Option.map_some, if_pos]
  · simpa using List.find?_some htask
  · unfold TaskRecord.cleaned TaskRecord.advance
    split_ifs <;> rfl

theorem worktree_of_cleanedTables {worktree : WorktreeRecord}
    (hinput : input.worktreeId = some worktreeId)
    (hworktree : db.worktree worktreeId = some worktree) :
    db'.worktree worktreeId = some (worktree.removed now) := by
  unfold Database.worktree at hworktree ⊢
  rw [htables, cleanedTables, TableRows.find?_map (fun w => ?_), hworktree, Option.map_some,
    if_pos]
  · have hid : worktree.worktreeId = worktreeId := by simpa using List.find?_some hworktree
    rw [hinput, hid]
  · unfold WorktreeRecord.removed
    split_ifs <;> rfl

theorem lease_of_cleanedTables {lease : CleanupLeaseRecord}
    (hlease : db.cleanupLease input.operationId = some lease) :
    db'.cleanupLease input.operationId = some (lease.committed input now) := by
  unfold Database.cleanupLease at hlease ⊢
  rw [htables, cleanedTables, TableRows.find?_map (fun l => ?_), hlease, Option.map_some, if_pos]
  · simpa using List.find?_some hlease
  · unfold CleanupLeaseRecord.committed
    split_ifs <;> rfl

end

theorem cleanup_tables {db₁ db₂ : Database} (hclean : cleanTask db input now = .ok db₁)
    (hremove : removeWorktree db₁ input now = .ok db₂)
    (hcommit : commitLease db₂ input now = .ok db') :
    db'.toTables = cleanedTables db input now := by
  obtain ⟨task, -, -, htasks⟩ := cleanTask_ok hclean
  rw [Database.write_ok hcommit, cleanedTables]
  cases hinput : input.worktreeId with
  | none =>
    unfold removeWorktree at hremove
    rw [hinput] at hremove
    cases hremove
    rw [htasks]
    simp [CleanupLeaseRecord.committed]
  | some worktreeId =>
    obtain ⟨worktree, -, -, -, hworktrees⟩ := removeWorktree_ok hinput hremove
    rw [hworktrees, htasks]
    simp [CleanupLeaseRecord.committed]

end Effects

section Outcomes

variable {input : CommitCleanupInput} {now : ℤ} {db db' : Database} {result : CommitCleanupResult}

/-- The rows that a cleanup returns are those of the tables, and the lease is committed. -/
structure ReturnsRows (db : Database) (input : CommitCleanupInput) (result : CommitCleanupResult) :
    Prop where
  task : db.task input.taskId = some result.task
  worktree : cleanupWorktree db input.worktreeId undefinedRow = .ok result.worktree
  lease : db.cleanupLease input.operationId = some result.lease
  identity : result.lease.planDigest = input.planDigest ∧
    result.lease.instanceId = input.instanceId ∧ result.lease.taskId = input.taskId ∧
      result.lease.worktreeId = input.worktreeId
  committed : result.lease.state = .committed

theorem removed_row {db₁ db₂ : Database} {row : Option WorktreeRecord}
    (htables : db'.toTables = cleanedTables db input now)
    (hclean : cleanTask db input now = .ok db₁) (hremove : removeWorktree db₁ input now = .ok db₂)
    (hrow : cleanupWorktree db' input.worktreeId undefinedRow = .ok row) :
    (∀ worktreeId, input.worktreeId = some worktreeId → ∃ worktree,
      db.worktree worktreeId = some worktree ∧ worktree.taskId = input.taskId ∧
        worktree.instanceId = input.instanceId) ∧
      ∀ worktree, row = some worktree → worktree.status = .removed := by
  cases hinput : input.worktreeId with
  | none =>
    rw [hinput] at hrow
    cases hrow
    exact ⟨fun _ h => (by cases h), fun _ h => (by cases h)⟩
  | some worktreeId =>
    obtain ⟨worktree, hworktree, htaskId, hinstanceId, -⟩ := removeWorktree_ok hinput hremove
    obtain ⟨task, -, -, htasks⟩ := cleanTask_ok hclean
    have hbefore : db.worktree worktreeId = some worktree := by
      unfold Database.worktree at hworktree ⊢
      rw [htasks] at hworktree
      exact hworktree
    refine ⟨fun id h => ?_, fun removed h => ?_⟩
    · obtain rfl := Option.some.inj h
      exact ⟨worktree, hbefore, htaskId, hinstanceId⟩
    · rw [hinput, cleanupWorktree, worktree_of_cleanedTables htables hinput hbefore, h] at hrow
      obtain rfl := Option.some.inj (Except.ok.inj hrow)
      exact WorktreeRecord.removed_status _ _

structure CleansUp (db : Database) (input : CommitCleanupInput) (now : ℤ)
    (result : CommitCleanupResult) (db' : Database) : Prop where
  lease : ∃ lease, db.cleanupLease input.operationId = some lease ∧ lease.state = .verifying
  task : ∃ task, db.task input.taskId = some task ∧ Cleanable input task
  worktree : ∀ worktreeId, input.worktreeId = some worktreeId → ∃ worktree,
    db.worktree worktreeId = some worktree ∧ worktree.taskId = input.taskId ∧
      worktree.instanceId = input.instanceId
  tables : db'.toTables = cleanedTables db input now
  cleaned : result.task.lifecycleState = .cleaned
  removed : ∀ worktree, result.worktree = some worktree → worktree.status = .removed

/-- A committed cleanup is repeated without a change. -/
theorem commitCleanup_replay (h : ReturnsRows db input result) (now : ℤ) :
    commitCleanup db input now = .ok (result, db) := by
  obtain ⟨htask, hworktree, hlease, ⟨hdigest, hinstance, htaskId, hworktreeId⟩, hcommitted⟩ := h
  unfold commitCleanup
  rw [hlease, htask, hworktree]
  simp [found, bind, Except.bind, pure, Except.pure, hdigest, hinstance, htaskId, hworktreeId,
    hcommitted]

theorem cleanupWorktree_congr {worktreeId : Option String} {missing : String}
    (h : db'.worktrees = db.worktrees) :
    cleanupWorktree db' worktreeId missing = cleanupWorktree db worktreeId missing := by
  unfold cleanupWorktree Database.worktree
  rw [h]

theorem commitCleanup_ok (h : commitCleanup db input now = .ok (result, db')) :
    ReturnsRows db' input result ∧
      ((db' = db ∧ ∃ lease, db.cleanupLease input.operationId = some lease ∧
        lease.state = .committed) ∨
        CleansUp db input (input.committedAt.getD now) result db') := by
  unfold commitCleanup at h
  obtain ⟨lease, hfound, h⟩ := bind_eq_ok.1 h
  have hlease := found_ok hfound
  split_ifs at h with hmismatch hcommitted hverifying
  all_goals
    simp only [not_or, not_not] at hmismatch
  · obtain ⟨task, htask, h⟩ := bind_eq_ok.1 h
    obtain ⟨worktree, hworktree, h⟩ := bind_eq_ok.1 h
    cases h
    exact ⟨⟨found_ok htask, hworktree, hlease, hmismatch, hcommitted⟩,
      .inl ⟨rfl, lease, hlease, hcommitted⟩⟩
  · obtain ⟨db₁, hclean, h⟩ := bind_eq_ok.1 h
    obtain ⟨db₂, hremove, h⟩ := bind_eq_ok.1 h
    obtain ⟨worktree, hworktree, h⟩ := bind_eq_ok.1 h
    obtain ⟨db₃, hcommit, h⟩ := bind_eq_ok.1 h
    obtain ⟨task', htask', h⟩ := bind_eq_ok.1 h
    obtain ⟨lease', hlease', h⟩ := bind_eq_ok.1 h
    cases h
    have htables := cleanup_tables hclean hremove hcommit
    obtain ⟨task, htask, hcleanable, -⟩ := cleanTask_ok hclean
    have htaskRow := task_of_cleanedTables htables htask
    have hleaseRow := lease_of_cleanedTables htables hlease
    obtain rfl := Option.some.inj (htaskRow.symm.trans (found_ok htask'))
    obtain rfl := Option.some.inj (hleaseRow.symm.trans (found_ok hlease'))
    have hworktrees : db'.worktrees = db₂.worktrees := by rw [Database.write_ok hcommit]
    have hrow := (cleanupWorktree_congr hworktrees).trans hworktree
    obtain ⟨hnone, hsome⟩ := removed_row htables hclean hremove hrow
    exact ⟨⟨htaskRow, hrow, hleaseRow, hmismatch, rfl⟩, .inr
      ⟨⟨lease, hlease, not_not.1 hverifying⟩, ⟨task, htask, hcleanable⟩, hnone, htables,
        TaskRecord.cleaned_lifecycleState _ _, hsome⟩⟩

end Outcomes

section Atomicity

variable {p : ℕ} {input : CommitCleanupInput} {now : ℤ} {db : Database}

theorem decodeRows_ok {lease : CleanupLeaseRecord} {db₁ db₂ db₃ : Database}
    (hlease : db.cleanupLease input.operationId = some lease)
    (hclean : cleanTask db input now = .ok db₁) (hremove : removeWorktree db₁ input now = .ok db₂)
    (hcommit : commitLease db₂ input now = .ok db₃) (worktree : Option WorktreeRecord) :
    ∃ result, decodeRows (db₃.task input.taskId, worktree, db₃.cleanupLease input.operationId) =
      .ok result := by
  have htables := cleanup_tables hclean hremove hcommit
  obtain ⟨task, htask, -, -⟩ := cleanTask_ok hclean
  rw [task_of_cleanedTables htables htask, lease_of_cleanedTables htables hlease]
  exact ⟨_, rfl⟩

theorem commitCleanupStatements_transacts (input : CommitCleanupInput) (now : ℤ) (db : Database) :
    Transacts p db (commitCleanupStatements p input (input.committedAt.getD now))
      (commitCleanup db input now) := by
  refine (Transacts.bind cleanupLeaseRow_simulates fun lease hfound => .ite (.throw _) fun _ =>
    .ite (.commit_reads (committedRows_reads lease)) fun _ => .ite (.throw _) fun _ =>
      .commit_lift cleanupRows_simulates fun rows db₃ hrows => ?_).congr ?_
  · obtain ⟨db₁, hclean, hrows⟩ := bind_eq_ok.1 hrows
    obtain ⟨db₂, hremove, hrows⟩ := bind_eq_ok.1 hrows
    obtain ⟨worktree, -, hrows⟩ := bind_eq_ok.1 hrows
    obtain ⟨db₄, hcommit, hrows⟩ := bind_eq_ok.1 hrows
    cases hrows
    exact decodeRows_ok (found_ok hfound) hclean hremove hcommit worktree
  · unfold commitCleanup
    refine bind_congr fun lease => ?_
    split_ifs
    · rfl
    · cases found (db.task input.taskId) undefinedRow with
      | error e => rfl
      | ok task => cases cleanupWorktree db input.worktreeId undefinedRow <;> rfl
    · rfl
    · cases cleanTask db input (input.committedAt.getD now) with
      | error e => rfl
      | ok db₁ =>
        simp only [bind, Except.bind]
        cases removeWorktree db₁ input (input.committedAt.getD now) with
        | error e => rfl
        | ok db₂ =>
          dsimp only
          cases cleanupWorktree db₂ input.worktreeId undefinedRow with
          | error e => rfl
          | ok worktree =>
            dsimp only
            cases commitLease db₂ input (input.committedAt.getD now) with
            | error e => rfl
            | ok db₃ =>
              simp only [decodeRows, pure, Except.pure, bind, Except.bind]
              cases found (db₃.task input.taskId) undefinedRow with
              | error e => rfl
              | ok task =>
                dsimp only
                cases found (db₃.cleanupLease input.operationId) undefinedRow <;> rfl

/-- A cleanup that returned is repeated, or it fails; nothing changes. -/
theorem commitCleanupTransaction_repeated {result : CommitCleanupResult} {store : Store Database}
    (hrows : ReturnsRows store.content input result) (hwriter : store.writer = none)
    (faults : List (Option Fault)) : ∃ outcome c',
      (commitCleanupTransaction p input now).run ⟨store, faults⟩ = (outcome, c') ∧
        c'.store.content = store.content ∧ (∀ result', outcome = .ok result' → result' = result) ∧
        (faults = [] → outcome = .ok result) := by
  have hbody := commitCleanupStatements_transacts (p := p) input now store.content
  rw [commitCleanup_replay hrows now] at hbody
  rcases @transaction_spec _ _ p _ _ ⟨store, faults⟩ hbody with
    ⟨e, c', hthrown, hcontent⟩ | ⟨result', c', hreturned, hcommitted, -⟩
  · refine ⟨_, c', hthrown, hcontent, fun _ h => (by cases h), fun hnil => ?_⟩
    obtain ⟨content, writer⟩ := store
    obtain rfl : writer = none := hwriter
    rw [hnil] at hthrown
    have hfree := hthrown.symm.trans (transaction_free hbody)
    cases (Prod.mk.inj hfree).1
  · obtain ⟨rfl, hcontent⟩ := Prod.mk.inj (Except.ok.inj hcommitted)
    exact ⟨_, c', hreturned, hcontent.symm, fun _ h => (Except.ok.inj h).symm, fun _ => rfl⟩

/-- A cleanup that throws leaves the tables as they were. One that returns has committed a verifying
cleanup, or found it committed, and it returns the same again without a change. -/
theorem commitCleanup_atomic (p : ℕ) (input : CommitCleanupInput) (now : ℤ)
    (c : Connection Database) :
    (∀ e c', (commitCleanupTransaction p input now).run c = (.error e, c') →
        c'.store.content = c.store.content) ∧
      ∀ result c', (commitCleanupTransaction p input now).run c = (.ok result, c') →
        ReturnsRows c'.store.content input result ∧
        ((c'.store.content = c.store.content ∧
            ∃ lease, c.store.content.cleanupLease input.operationId = some lease ∧
              lease.state = .committed) ∨
          CleansUp c.store.content input (input.committedAt.getD now) result c'.store.content) ∧
        ∀ p' now' faults, ∃ outcome c'',
          (commitCleanupTransaction p' input now').run ⟨c'.store, faults⟩ = (outcome, c'') ∧
            c''.store.content = c'.store.content ∧ (∀ result', outcome = .ok result' →
              result' = result) ∧ (faults = [] → outcome = .ok result) := by
  have hrun := @transaction_spec _ _ p _ _ c
    (commitCleanupStatements_transacts input now c.store.content)
  constructor
  · intro e c' herror
    rcases hrun with ⟨e', c'', hthrown, hcontent⟩ | ⟨result, c'', hreturned, -⟩
    · obtain rfl := (Prod.mk.inj (hthrown.symm.trans herror)).2
      exact hcontent
    · cases (Prod.mk.inj (hreturned.symm.trans herror)).1
  · intro result c' hok
    rcases hrun with ⟨e, c'', hthrown, -⟩ | ⟨result', c'', hreturned, hcommitted, hwriter⟩
    · cases (Prod.mk.inj (hthrown.symm.trans hok)).1
    obtain ⟨hresult, rfl⟩ := Prod.mk.inj (hreturned.symm.trans hok)
    obtain rfl := Except.ok.inj hresult
    obtain ⟨hrows, houtcome⟩ := commitCleanup_ok hcommitted
    exact ⟨hrows, houtcome, fun p' now' faults =>
      commitCleanupTransaction_repeated hrows hwriter faults⟩

end Atomicity

section Runs

def sampleTask (lifecycleState : LifecycleState) : TaskRecord where
  taskId := "task"
  instanceId := "instance"
  taskSlug := "slug"
  issueRef := none
  nawabariSessionId := none
  startIdempotencyKey := none
  lifecycleState := lifecycleState
  version := 4
  baseBranch := "main"
  baseCommit := "c0ffee"
  createdAt := 0
  updatedAt := 0

def sampleLease : CleanupLeaseRecord where
  operationId := "operation"
  planDigest := "digest"
  instanceId := "instance"
  taskId := "task"
  worktreeId := none
  owner := "owner"
  state := .verifying
  acquiredAt := 0
  expiresAt := 10
  updatedAt := 0
  completedActionIds := []
  lastError := none

def sampleDatabase (lifecycleState : LifecycleState) : Database :=
  ⟨⟨[sampleTask lifecycleState], [], [sampleLease]⟩, by cases lifecycleState <;> decide⟩

def sampleCleanup : CommitCleanupInput where
  operationId := "operation"
  planDigest := "digest"
  instanceId := "instance"
  taskId := "task"
  expectedTaskVersion := 4
  expectedLifecycle := .merged
  completedActionIds := ["remove-branch"]

def sampleConnection (lifecycleState : LifecycleState) : Connection Database :=
  ⟨⟨sampleDatabase lifecycleState, none⟩, []⟩

def sampleResult (lifecycleState : LifecycleState) : CommitCleanupResult :=
  ⟨(sampleTask lifecycleState).cleaned 5, none, sampleLease.committed sampleCleanup 5⟩

theorem sampleCleanup_outcome :
    (commitCleanup (sampleDatabase .merged) sampleCleanup 5).map (·.1) =
        .ok (sampleResult .merged) ∧
      (commitCleanup (sampleDatabase .cleaned) { sampleCleanup with expectedTaskVersion := 3 } 5).map
        (·.1) = .ok (sampleResult .cleaned) := by
  decide

theorem commitCleanupTransaction_returns {p : ℕ} {input : CommitCleanupInput} {now : ℤ}
    {db : Database} {result : CommitCleanupResult}
    (h : (commitCleanup db input now).map (·.1) = .ok result) : ∃ c',
    (commitCleanupTransaction p input now).run ⟨⟨db, none⟩, []⟩ = (.ok result, c') := by
  obtain ⟨⟨result', db'⟩, hcommitted, hresult⟩ := map_ok h
  obtain rfl : result' = result := hresult
  refine ⟨⟨⟨db', none⟩, []⟩, ?_⟩
  rw [commitCleanupTransaction,
    transaction_free (commitCleanupStatements_transacts (p := p) input now db), hcommitted]
  rfl

/-- A cleanup of a merged task leaves it cleaned. -/
theorem commitCleanup_atomic_merged : ∃ c',
    (commitCleanupTransaction 1 sampleCleanup 5).run (sampleConnection .merged) =
        (.ok (sampleResult .merged), c') ∧
      ReturnsRows c'.store.content sampleCleanup (sampleResult .merged) := by
  obtain ⟨c', hrun⟩ := commitCleanupTransaction_returns (p := 1) sampleCleanup_outcome.1
  exact ⟨c', hrun, ((commitCleanup_atomic 1 sampleCleanup 5 (sampleConnection .merged)).2
    (sampleResult .merged) c' hrun).1⟩

/-- A cleanup returns for a task that was cleaned before, at a version that was not expected. -/
theorem cleaned_task_at_other_version : ¬ ∀ (p : ℕ) (input : CommitCleanupInput) (now : ℤ)
    (c c' : Connection Database) (result : CommitCleanupResult),
    (commitCleanupTransaction p input now).run c = (.ok result, c') →
      ∃ task, c.store.content.task input.taskId = some task ∧
        task.version = input.expectedTaskVersion ∧
          task.lifecycleState = input.expectedLifecycle := by
  intro hexpected
  obtain ⟨c', hrun⟩ := commitCleanupTransaction_returns (p := 1) sampleCleanup_outcome.2
  obtain ⟨task, htask, hversion, -⟩ := hexpected 1 { sampleCleanup with expectedTaskVersion := 3 } 5
    (sampleConnection .cleaned) c' (sampleResult .cleaned) hrun
  obtain rfl : sampleTask .cleaned = task := by
    refine Option.some.inj (Eq.trans ?_ htask)
    decide
  exact absurd hversion (by decide)

end Runs

end Mottainai.TaskStore

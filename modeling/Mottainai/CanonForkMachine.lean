import Mottainai.CanonLineage

/-!
# Canon fork launches

The table `canon_fork_launches` beside the checkpoints, and the store methods that write it, each
one transaction. A launch is planned, attached to a session and a worktree, and then launched, or it
fails. What the plan has fixed is kept, a launch that has ended stays as it ended, and one that is
attached or launched stays complete, with its child checkpoint beside it.
-/

namespace Mottainai.CanonForkLaunches

open Interleaving JavaScriptValues JsonValues CanonCheckpoints

section Table

inductive CanonForkLaunchState where
  | planned
  | attached
  | launched
  | failed
  deriving DecidableEq, Repr

/-- The columns that the plan of a launch fixes. -/
structure CanonForkIdentity where
  forkId : String
  workspaceRoot : String
  idempotencyKey : Option String
  parentCheckpointId : String
  childCheckpointId : String
  plannedManagerSessionId : String
  prefix_id : String
  freshness : String
  branchName : String
  base : String
  runtimeName : String
  instruction : String
  agentId : String
  modelId : Option String
  profile : String
  launchCommand : String
  launchArgs : List String
  deriving DecidableEq, Repr

structure CanonForkLaunchRecord extends CanonForkIdentity where
  nawabariSessionId : Option String
  worktreePath : Option String
  execution_state_id : Option String
  attachmentGeneration : Option ℤ
  managerSessionId : Option String
  state : CanonForkLaunchState
  detail : Option String
  createdAt : ℤ
  updatedAt : ℤ
  deriving DecidableEq, Repr

/-- The key of the `UNIQUE` constraint. -/
def CanonForkLaunchRecord.workspaceKey (launch : CanonForkLaunchRecord) :
    Option (String × String) :=
  launch.idempotencyKey.map fun key => (launch.workspaceRoot, key)

/-- The `PRIMARY KEY`, `UNIQUE` and `REFERENCES` constraints. -/
def LaunchConstraints (checkpoints : List CanonCheckpointRecord)
    (launches : List CanonForkLaunchRecord) : Prop :=
  (launches.map (·.forkId)).Nodup ∧ (launches.filterMap (·.workspaceKey)).Nodup ∧
    ∀ launch ∈ launches, launch.parentCheckpointId ∈ checkpoints.map (·.checkpointId)

instance (checkpoints : List CanonCheckpointRecord) (launches : List CanonForkLaunchRecord) :
    Decidable (LaunchConstraints checkpoints launches) := inferInstanceAs (Decidable (_ ∧ _))

structure Database where
  checkpoints : CheckpointTable
  launches : List CanonForkLaunchRecord
  constraints : LaunchConstraints checkpoints.rows launches

namespace Database

def empty : Database := ⟨.empty, [], by decide⟩

def writeLaunches (db : Database) (launches : List CanonForkLaunchRecord) :
    Except String Database :=
  if h : LaunchConstraints db.checkpoints.rows launches then .ok ⟨db.checkpoints, launches, h⟩
  else .error "constraint failed"

/-- `SELECT * FROM canon_fork_launches WHERE fork_id = ?`. -/
def launch (db : Database) (forkId : String) : Option CanonForkLaunchRecord :=
  db.launches.find? (·.forkId = forkId)

/-- `SELECT * FROM canon_fork_launches WHERE workspace_root = ? AND idempotency_key = ?`. -/
def launchOfKey (db : Database) (workspaceRoot idempotencyKey : String) :
    Option CanonForkLaunchRecord :=
  db.launches.find? fun launch =>
    launch.workspaceRoot = workspaceRoot ∧ launch.idempotencyKey = some idempotencyKey

def readBack (db : Database) (forkId : String) : Except String (CanonForkLaunchRecord × Database) :=
  match db.launch forkId with
  | some launch => .ok (launch, db)
  | none => .error "TypeError: Cannot read properties of undefined (reading 'fork_id')"

/-- `UPDATE canon_fork_launches SET … WHERE fork_id = ?`, and the row read back. -/
def updateLaunch (db : Database) (forkId : String)
    (set : CanonForkLaunchRecord → CanonForkLaunchRecord) :
    Except String (CanonForkLaunchRecord × Database) := do
  let db' ← db.writeLaunches
    (db.launches.map fun launch => if launch.forkId = forkId then set launch else launch)
  db'.readBack forkId

def checkpointed (db : Database) (method : Method) : Database where
  checkpoints := (method.exec db.checkpoints).2
  launches := db.launches
  constraints := ⟨db.constraints.1, db.constraints.2.1, fun launch hlaunch =>
    (method.exec_change db.checkpoints).ids_subset (db.constraints.2.2 launch hlaunch)⟩

end Database

end Table

section Plan

structure PlanCanonForkLaunchInput where
  forkId : String
  workspaceRoot : String
  idempotencyKey : Option String := none
  parentCheckpointId : String
  childCheckpointId : String
  plannedManagerSessionId : String
  prefix_id : String
  freshness : JsonValue
  branchName : String
  base : String
  runtimeName : String
  instruction : String
  agentId : String
  modelId : Option String := none
  profile : String
  launchCommand : String
  launchArgs : List String
  plannedAt : Option ℤ := none

/-- The checks of `planCanonForkLaunch` on its input. -/
def checkedIdentity (input : PlanCanonForkLaunchInput) : Except String CanonForkIdentity := do
  let forkId ← canonCheckpointField input.forkId "forkId"
  let workspaceRoot ← canonCheckpointField input.workspaceRoot "workspaceRoot"
  let parentCheckpointId ← canonCheckpointField input.parentCheckpointId "parentCheckpointId"
  let childCheckpointId ← canonCheckpointField input.childCheckpointId "childCheckpointId"
  let plannedManagerSessionId ← canonCheckpointField input.plannedManagerSessionId
    "plannedManagerSessionId"
  let prefix_id ← canonCheckpointField input.prefix_id "prefix_id"
  require (isPrefixId prefix_id = true) "Canon fork prefix_id is invalid"
  let freshness ← canonicalCanonCheckpointFreshness input.freshness
  let freshnessJson ← canonCheckpointFreshnessJson freshness
  let branchName ← canonCheckpointField input.branchName "branchName"
  let base ← canonCheckpointField input.base "base"
  let runtimeName ← canonCheckpointField input.runtimeName "runtimeName"
  let instruction ← canonCheckpointField input.instruction "instruction"
  let agentId ← canonCheckpointField input.agentId "agentId"
  let modelId ← optionalCanonCheckpointField input.modelId "modelId"
  let profile ← canonCheckpointField input.profile "profile"
  let launchCommand ← canonCheckpointField input.launchCommand "launchCommand"
  let launchArgs ← input.launchArgs.zipIdx.mapM fun (value, index) =>
    canonCheckpointField value s!"launchArgs[{index}]"
  let idempotencyKey ← optionalCanonCheckpointField input.idempotencyKey "idempotencyKey"
  pure
    { forkId := forkId
      workspaceRoot := workspaceRoot
      idempotencyKey := idempotencyKey
      parentCheckpointId := parentCheckpointId
      childCheckpointId := childCheckpointId
      plannedManagerSessionId := plannedManagerSessionId
      prefix_id := prefix_id
      freshness := freshnessJson
      branchName := branchName
      base := base
      runtimeName := runtimeName
      instruction := instruction
      agentId := agentId
      modelId := modelId
      profile := profile
      launchCommand := launchCommand
      launchArgs := launchArgs }

/-- `JSON.stringify(launchArgs)`. -/
def launchArgsJson (launchArgs : List String) : String :=
  stringify (.array (launchArgs.map .string))

/-- `sameIdentity`. The workspace and the idempotency key are not compared. -/
def sameIdentity (existing : CanonForkLaunchRecord) (identity : CanonForkIdentity) : Bool :=
  decide (existing.forkId = identity.forkId) &&
  decide (existing.parentCheckpointId = identity.parentCheckpointId) &&
  decide (existing.childCheckpointId = identity.childCheckpointId) &&
  decide (existing.plannedManagerSessionId = identity.plannedManagerSessionId) &&
  decide (existing.prefix_id = identity.prefix_id) &&
  decide (existing.freshness = identity.freshness) &&
  decide (existing.branchName = identity.branchName) &&
  decide (existing.base = identity.base) &&
  decide (existing.runtimeName = identity.runtimeName) &&
  decide (existing.instruction = identity.instruction) &&
  decide (existing.agentId = identity.agentId) &&
  decide (existing.modelId = identity.modelId) &&
  decide (existing.profile = identity.profile) &&
  decide (existing.launchCommand = identity.launchCommand) &&
  decide (launchArgsJson existing.launchArgs = launchArgsJson identity.launchArgs)

/-- The row that a plan inserts. -/
def plannedLaunch (identity : CanonForkIdentity) (plannedAt : ℤ) : CanonForkLaunchRecord where
  toCanonForkIdentity := identity
  nawabariSessionId := none
  worktreePath := none
  execution_state_id := none
  attachmentGeneration := none
  managerSessionId := none
  state := .planned
  detail := none
  createdAt := plannedAt
  updatedAt := plannedAt

def checkParent (db : Database) (identity : CanonForkIdentity) : Except String Unit :=
  match db.checkpoints.select identity.parentCheckpointId with
  | none => throw s!"Canon fork parent checkpoint not found: {identity.parentCheckpointId}"
  | some parent => do
    require (parent.state = .current)
      s!"Canon fork parent checkpoint is stale: {identity.parentCheckpointId}"
    require (parent.prefix_id = identity.prefix_id)
      s!"Canon fork parent prefix_id mismatch: {identity.parentCheckpointId}"

/-- `existingRow`. -/
def existingLaunch (db : Database) (identity : CanonForkIdentity) : Option CanonForkLaunchRecord :=
  match identity.idempotencyKey with
  | none => db.launch identity.forkId
  | some key => db.launchOfKey identity.workspaceRoot key

/-- The transaction of `planCanonForkLaunch`. -/
def planTransaction (db : Database) (identity : CanonForkIdentity) (plannedAt : ℤ) :
    Except String (CanonForkLaunchRecord × Database) :=
  match existingLaunch db identity with
  | some existing => do
    require (sameIdentity existing identity = true)
      s!"Canon fork launch already exists with different identity: {identity.forkId}"
    pure (existing, db)
  | none => do
    let db' ← db.writeLaunches (db.launches ++ [plannedLaunch identity plannedAt])
    db'.readBack identity.forkId

/-- `planCanonForkLaunch`. -/
def planCanonForkLaunch (db : Database) (input : PlanCanonForkLaunchInput) (now : ℤ) :
    Except String (CanonForkLaunchRecord × Database) := do
  let identity ← checkedIdentity input
  checkParent db identity
  planTransaction db identity (input.plannedAt.getD now)

end Plan

section Progress

structure AttachCanonForkLaunchInput where
  forkId : String
  nawabariSessionId : String
  worktreePath : String
  execution_state_id : String
  attachmentGeneration : ℤ
  attachedAt : Option ℤ := none

/-- The update of `attachCanonForkLaunch`. -/
def withAttachment (input : AttachCanonForkLaunchInput) (attachedAt : ℤ)
    (launch : CanonForkLaunchRecord) : CanonForkLaunchRecord :=
  { launch with
    nawabariSessionId := some input.nawabariSessionId
    worktreePath := some input.worktreePath
    execution_state_id := some input.execution_state_id
    attachmentGeneration := some input.attachmentGeneration
    state := .attached
    detail := none
    updatedAt := attachedAt }

/-- The part of `attachCanonForkLaunch` for a launch that has not ended. -/
def attachToChild (db : Database) (input : AttachCanonForkLaunchInput) (attachedAt : ℤ)
    (current : CanonForkLaunchRecord) : Except String (CanonForkLaunchRecord × Database) :=
  match db.checkpoints.select current.childCheckpointId with
  | none => throw s!"Canon fork child checkpoint is missing: {current.childCheckpointId}"
  | some child => do
    require (child.prefix_id = current.prefix_id ∧
        child.execution_state_id = some input.execution_state_id)
      s!"Canon fork child checkpoint identity mismatch: {input.forkId}"
    db.updateLaunch input.forkId (withAttachment input attachedAt)

/-- The transaction of `attachCanonForkLaunch`. -/
def attachTransaction (db : Database) (input : AttachCanonForkLaunchInput) (attachedAt : ℤ) :
    Except String (CanonForkLaunchRecord × Database) :=
  match db.launch input.forkId with
  | none => throw s!"Canon fork launch not found: {input.forkId}"
  | some current =>
    match current.state with
    | .failed => throw s!"Canon fork launch is failed: {input.forkId}"
    | .launched => do
      require (current.nawabariSessionId = some input.nawabariSessionId ∧
          current.worktreePath = some input.worktreePath ∧
          current.execution_state_id = some input.execution_state_id)
        s!"Canon fork launch attachment mismatch: {input.forkId}"
      pure (current, db)
    | .planned | .attached => attachToChild db input attachedAt current

/-- `attachCanonForkLaunch`. -/
def attachCanonForkLaunch (db : Database) (input : AttachCanonForkLaunchInput) (now : ℤ) :
    Except String (CanonForkLaunchRecord × Database) := do
  let _ ← canonCheckpointField input.forkId "forkId"
  let _ ← canonCheckpointField input.nawabariSessionId "nawabariSessionId"
  let _ ← canonCheckpointField input.worktreePath "worktreePath"
  let _ ← canonCheckpointField input.execution_state_id "execution_state_id"
  require (isExecutionStateId input.execution_state_id = true)
    "Canon fork execution_state_id is invalid"
  require (isPositiveInteger input.attachmentGeneration = true)
    "Canon fork attachmentGeneration must be a positive integer"
  attachTransaction db input (input.attachedAt.getD now)

/-- The update of `launchCanonForkLaunch`. -/
def withManagerSession (managerSessionId : String) (launchedAt : ℤ)
    (launch : CanonForkLaunchRecord) : CanonForkLaunchRecord :=
  { launch with
    managerSessionId := some managerSessionId
    state := .launched
    detail := none
    updatedAt := launchedAt }

/-- The transaction of `launchCanonForkLaunch`. -/
def launchTransaction (db : Database) (forkId managerSessionId : String) (launchedAt : ℤ) :
    Except String (CanonForkLaunchRecord × Database) :=
  match db.launch forkId with
  | none => throw s!"Canon fork launch not found: {forkId}"
  | some current => do
    require (current.state ≠ .failed) s!"Canon fork launch is failed: {forkId}"
    require (∀ id ∈ current.managerSessionId, id = managerSessionId)
      s!"Canon fork launch manager session mismatch: {forkId}"
    require (current.state ≠ .planned) s!"Canon fork launch is not attached: {forkId}"
    db.updateLaunch forkId (withManagerSession managerSessionId launchedAt)

/-- `launchCanonForkLaunch`. -/
def launchCanonForkLaunch (db : Database) (forkId managerSessionId : String)
    (launchedAt : Option ℤ) (now : ℤ) : Except String (CanonForkLaunchRecord × Database) := do
  let _ ← canonCheckpointField forkId "forkId"
  let _ ← canonCheckpointField managerSessionId "managerSessionId"
  launchTransaction db forkId managerSessionId (launchedAt.getD now)

/-- The update of `failCanonForkLaunch`. -/
def withFailure (detail : String) (failedAt : ℤ) (launch : CanonForkLaunchRecord) :
    CanonForkLaunchRecord :=
  { launch with state := .failed, detail := some detail, updatedAt := failedAt }

/-- The transaction of `failCanonForkLaunch`. -/
def failTransaction (db : Database) (forkId detail : String) (failedAt : ℤ) :
    Except String (CanonForkLaunchRecord × Database) :=
  match db.launch forkId with
  | none => throw s!"Canon fork launch not found: {forkId}"
  | some current =>
    if current.state = .launched then pure (current, db)
    else db.updateLaunch forkId (withFailure detail failedAt)

/-- `failCanonForkLaunch`. -/
def failCanonForkLaunch (db : Database) (forkId detail : String) (failedAt : Option ℤ) (now : ℤ) :
    Except String (CanonForkLaunchRecord × Database) := do
  let _ ← canonCheckpointField forkId "forkId"
  let _ ← canonCheckpointField detail "detail"
  failTransaction db forkId detail (failedAt.getD now)

inductive Operation where
  | checkpoint (method : Method)
  | planCanonForkLaunch (input : PlanCanonForkLaunchInput) (now : ℤ)
  | attachCanonForkLaunch (input : AttachCanonForkLaunchInput) (now : ℤ)
  | launchCanonForkLaunch (forkId managerSessionId : String) (launchedAt : Option ℤ) (now : ℤ)
  | failCanonForkLaunch (forkId detail : String) (failedAt : Option ℤ) (now : ℤ)

/-- The database after a method; one that throws has rolled back. -/
def apply (db : Database) : Operation → Database
  | .checkpoint method => db.checkpointed method
  | .planCanonForkLaunch input now => (committed db (planCanonForkLaunch db input now)).2
  | .attachCanonForkLaunch input now => (committed db (attachCanonForkLaunch db input now)).2
  | .launchCanonForkLaunch forkId managerSessionId launchedAt now =>
      (committed db (launchCanonForkLaunch db forkId managerSessionId launchedAt now)).2
  | .failCanonForkLaunch forkId detail failedAt now =>
      (committed db (failCanonForkLaunch db forkId detail failedAt now)).2

end Progress

open OperationSequences

section Changes

variable {db db' : Database} {launch next : CanonForkLaunchRecord} {forkId : String}

theorem writeLaunches_eq_ok {launches : List CanonForkLaunchRecord}
    (h : db.writeLaunches launches = .ok db') :
    db'.launches = launches ∧ db'.checkpoints = db.checkpoints := by
  unfold Database.writeLaunches at h
  split_ifs at h
  cases h
  exact ⟨rfl, rfl⟩

theorem readBack_eq_ok (h : db.readBack forkId = .ok (launch, db')) : db' = db := by
  unfold Database.readBack at h
  split at h
  · cases h
    rfl
  · cases h

variable {input : AttachCanonForkLaunchInput} {set : CanonForkLaunchRecord → CanonForkLaunchRecord}
variable {current : CanonForkLaunchRecord} {now : ℤ} {attachedAt : ℤ}

theorem updateLaunch_eq_ok (h : db.updateLaunch forkId set = .ok (launch, db')) :
    db'.launches = db.launches.map (fun launch =>
        if launch.forkId = forkId then set launch else launch) ∧
      db'.checkpoints = db.checkpoints := by
  obtain ⟨written, hwrite, hread⟩ := bind_eq_ok.1 h
  rw [readBack_eq_ok hread]
  exact writeLaunches_eq_ok hwrite

theorem launch_eq_some_iff :
    db.launch forkId = some launch ↔ launch ∈ db.launches ∧ launch.forkId = forkId :=
  TableRows.find?_eq_some_iff db.constraints.1

def ChildMatches (checkpoints : CheckpointTable) (launch : CanonForkLaunchRecord) : Prop :=
  ∃ child, checkpoints.select launch.childCheckpointId = some child ∧
    child.prefix_id = launch.prefix_id ∧ child.execution_state_id = launch.execution_state_id

/-- What a method may do to one launch. -/
inductive Progress (checkpoints : CheckpointTable) (launch : CanonForkLaunchRecord) :
    CanonForkLaunchRecord → Prop where
  | attached (input : AttachCanonForkLaunchInput) (attachedAt : ℤ)
      (state : launch.state = .planned ∨ launch.state = .attached)
      (child : ChildMatches checkpoints (withAttachment input attachedAt launch)) :
      Progress checkpoints launch (withAttachment input attachedAt launch)
  | launched (managerSessionId : String) (launchedAt : ℤ)
      (state : launch.state = .attached ∨ launch.state = .launched)
      (manager : ∀ id ∈ launch.managerSessionId, id = managerSessionId) :
      Progress checkpoints launch (withManagerSession managerSessionId launchedAt launch)
  | failed (detail : String) (failedAt : ℤ) (state : launch.state ≠ .launched) :
      Progress checkpoints launch (withFailure detail failedAt launch)

inductive Change (db : Database) : Database → Prop where
  | unchanged : Change db db
  | checkpointed (method : Method) : Change db (db.checkpointed method)
  | planned {db' : Database} (identity : CanonForkIdentity) (plannedAt : ℤ)
      (launches : db'.launches = db.launches ++ [plannedLaunch identity plannedAt])
      (checkpoints : db'.checkpoints = db.checkpoints) : Change db db'
  | progressed {db' : Database} (forkId : String)
      (set : CanonForkLaunchRecord → CanonForkLaunchRecord)
      (progress : ∀ launch, db.launch forkId = some launch →
        Progress db.checkpoints launch (set launch))
      (launches : db'.launches = db.launches.map fun launch =>
        if launch.forkId = forkId then set launch else launch)
      (checkpoints : db'.checkpoints = db.checkpoints) : Change db db'

theorem updateLaunch_change (hlaunch : db.launch forkId = some current)
    (progress : Progress db.checkpoints current (set current))
    (h : db.updateLaunch forkId set = .ok (launch, db')) : Change db db' := by
  obtain ⟨launches, checkpoints⟩ := updateLaunch_eq_ok h
  refine .progressed forkId set (fun found hfound => ?_) launches checkpoints
  obtain rfl := Option.some.inj (hlaunch.symm.trans hfound)
  exact progress

theorem planCanonForkLaunch_change {input : PlanCanonForkLaunchInput}
    (h : planCanonForkLaunch db input now = .ok (launch, db')) : Change db db' := by
  simp only [planCanonForkLaunch, bind_eq_ok] at h
  obtain ⟨identity, -, -, -, htransaction⟩ := h
  unfold planTransaction at htransaction
  split at htransaction
  · simp only [bind_eq_ok, require_eq_ok] at htransaction
    obtain ⟨-, -, heq⟩ := htransaction
    cases heq
    exact .unchanged
  · obtain ⟨written, hwrite, hread⟩ := bind_eq_ok.1 htransaction
    obtain ⟨launches, checkpoints⟩ := writeLaunches_eq_ok hwrite
    rw [readBack_eq_ok hread]
    exact .planned identity _ launches checkpoints

theorem attachToChild_change (hlaunch : db.launch input.forkId = some current)
    (hstate : current.state = .planned ∨ current.state = .attached)
    (h : attachToChild db input attachedAt current = .ok (launch, db')) : Change db db' := by
  unfold attachToChild at h
  split at h
  · cases h
  · rename_i child hchild
    simp only [bind_eq_ok, require_eq_ok] at h
    obtain ⟨-, ⟨hsame, hexecution⟩, hwrite⟩ := h
    refine updateLaunch_change hlaunch ?_ hwrite
    exact .attached input attachedAt hstate ⟨child, hchild, hsame, hexecution⟩

theorem attachTransaction_change (h : attachTransaction db input attachedAt = .ok (launch, db')) :
    Change db db' := by
  unfold attachTransaction at h
  split at h
  · cases h
  · rename_i current hlaunch
    split at h
    · cases h
    · simp only [bind_eq_ok, require_eq_ok] at h
      obtain ⟨-, -, heq⟩ := h
      cases heq
      exact .unchanged
    · exact attachToChild_change hlaunch (Or.inl ‹_›) h
    · exact attachToChild_change hlaunch (Or.inr ‹_›) h

theorem attachCanonForkLaunch_change (h : attachCanonForkLaunch db input now = .ok (launch, db')) :
    Change db db' := by
  simp only [attachCanonForkLaunch, bind_eq_ok] at h
  obtain ⟨-, -, -, -, -, -, -, -, -, -, -, -, htransaction⟩ := h
  exact attachTransaction_change htransaction

theorem launchCanonForkLaunch_change {managerSessionId : String} {launchedAt : Option ℤ}
    (h : launchCanonForkLaunch db forkId managerSessionId launchedAt now = .ok (launch, db')) :
    Change db db' := by
  simp only [launchCanonForkLaunch, bind_eq_ok] at h
  obtain ⟨-, -, -, -, htransaction⟩ := h
  unfold launchTransaction at htransaction
  split at htransaction
  · cases htransaction
  · rename_i current hlaunch
    simp only [bind_eq_ok, require_eq_ok] at htransaction
    obtain ⟨-, hfailed, -, hmanager, -, hplanned, hwrite⟩ := htransaction
    refine updateLaunch_change hlaunch (.launched managerSessionId _ ?_ hmanager) hwrite
    cases hstate : current.state with
    | planned => exact absurd hstate hplanned
    | attached => exact Or.inl rfl
    | launched => exact Or.inr rfl
    | failed => exact absurd hstate hfailed

theorem failCanonForkLaunch_change {detail : String} {failedAt : Option ℤ}
    (h : failCanonForkLaunch db forkId detail failedAt now = .ok (launch, db')) :
    Change db db' := by
  simp only [failCanonForkLaunch, bind_eq_ok] at h
  obtain ⟨-, -, -, -, htransaction⟩ := h
  unfold failTransaction at htransaction
  split at htransaction
  · cases htransaction
  · rename_i current hlaunch
    split_ifs at htransaction with hstate
    · cases htransaction
      exact .unchanged
    · exact updateLaunch_change hlaunch (.failed detail _ hstate) htransaction

/-- A transaction that throws changes nothing. -/
theorem committed_change {result : Except String (CanonForkLaunchRecord × Database)}
    (h : ∀ launch db', result = .ok (launch, db') → Change db db') :
    Change db (committed db result).2 := by
  rcases result with e | ⟨launch, db'⟩
  · exact .unchanged
  · exact h launch db' rfl

/-- Every method makes one of the changes. -/
theorem apply_change (db : Database) (op : Operation) : Change db (apply db op) := by
  cases op with
  | checkpoint method => exact .checkpointed method
  | planCanonForkLaunch input now =>
    exact committed_change fun _ _ h => planCanonForkLaunch_change h
  | attachCanonForkLaunch input now =>
    exact committed_change fun _ _ h => attachCanonForkLaunch_change h
  | launchCanonForkLaunch forkId managerSessionId launchedAt now =>
    exact committed_change fun _ _ h => launchCanonForkLaunch_change h
  | failCanonForkLaunch forkId detail failedAt now =>
    exact committed_change fun _ _ h => failCanonForkLaunch_change h

end Changes

section Steps

variable {checkpoints : CheckpointTable} {db db' : Database} {launch next : CanonForkLaunchRecord}

/-- A launch that has ended stays as it ended, and what is fixed stays fixed. -/
structure Follows (launch next : CanonForkLaunchRecord) : Prop where
  identity : next.toCanonForkIdentity = launch.toCanonForkIdentity
  terminal : launch.state = .launched ∨ launch.state = .failed → next.state = launch.state
  manager : ∀ id ∈ launch.managerSessionId, next.managerSessionId = some id

theorem Follows.refl (launch : CanonForkLaunchRecord) : Follows launch launch :=
  ⟨rfl, fun _ => rfl, fun _ hid => hid⟩

theorem Follows.trans {later : CanonForkLaunchRecord} (h : Follows launch next)
    (h' : Follows next later) : Follows launch later := by
  refine ⟨h'.identity.trans h.identity, ?_, ?_⟩
  · intro hended
    have hstate := h.terminal hended
    rw [h'.terminal (hstate ▸ hended), hstate]
  · intro id hid
    exact h'.manager id (h.manager id hid)

theorem Progress.follows (h : Progress checkpoints launch next) : Follows launch next := by
  cases h with
  | attached input attachedAt state child =>
    refine ⟨rfl, fun hended => ?_, fun id hid => hid⟩
    rcases hended with hlaunched | hfailed
    · simp [hlaunched] at state
    · simp [hfailed] at state
  | launched managerSessionId launchedAt state manager =>
    refine ⟨rfl, fun hended => ?_, fun id hid => ?_⟩
    · rcases hended with hlaunched | hfailed
      · exact hlaunched.symm
      · simp [hfailed] at state
    · rw [manager id hid]
      rfl
  | failed detail failedAt state =>
    refine ⟨rfl, fun hended => ?_, fun id hid => hid⟩
    rcases hended with hlaunched | hfailed
    · exact absurd hlaunched state
    · exact hfailed.symm

def Evolves (db db' : Database) : Prop :=
  ∀ launch ∈ db.launches, ∃ next ∈ db'.launches, Follows launch next

theorem Evolves.refl (db : Database) : Evolves db db :=
  fun launch hlaunch => ⟨launch, hlaunch, .refl launch⟩

theorem Evolves.trans {later : Database} (h : Evolves db db') (h' : Evolves db' later) :
    Evolves db later := by
  intro launch hlaunch
  obtain ⟨next, hnext, hfollows⟩ := h launch hlaunch
  obtain ⟨last, hlast, hfollows'⟩ := h' next hnext
  exact ⟨last, hlast, hfollows.trans hfollows'⟩

theorem Change.evolves (h : Change db db') : Evolves db db' := by
  cases h with
  | unchanged => exact .refl db
  | checkpointed method => exact fun launch hlaunch => ⟨launch, hlaunch, .refl launch⟩
  | planned identity plannedAt launches checkpoints =>
    intro launch hlaunch
    refine ⟨launch, ?_, .refl launch⟩
    rw [launches]
    exact List.mem_append_left _ hlaunch
  | progressed forkId set progress launches checkpoints =>
    intro launch hlaunch
    rw [launches]
    by_cases hid : launch.forkId = forkId
    · refine ⟨set launch, List.mem_map.2 ⟨launch, hlaunch, if_pos hid⟩, ?_⟩
      exact (progress launch (launch_eq_some_iff.2 ⟨hlaunch, hid⟩)).follows
    · exact ⟨launch, List.mem_map.2 ⟨launch, hlaunch, if_neg hid⟩, .refl launch⟩

structure Complete (checkpoints : CheckpointTable) (launch : CanonForkLaunchRecord) : Prop where
  attachment : launch.state = .attached ∨ launch.state = .launched →
    launch.nawabariSessionId.isSome ∧ launch.worktreePath.isSome ∧
      launch.execution_state_id.isSome ∧ ChildMatches checkpoints launch
  manager : launch.state = .launched → launch.managerSessionId.isSome

theorem Progress.complete (h : Progress checkpoints launch next)
    (hc : Complete checkpoints launch) : Complete checkpoints next := by
  cases h with
  | attached input attachedAt state child =>
    refine ⟨fun _ => ⟨rfl, rfl, rfl, child⟩, fun hlaunched => ?_⟩
    cases hlaunched
  | launched managerSessionId launchedAt state manager =>
    exact ⟨fun _ => hc.attachment state, fun _ => rfl⟩
  | failed detail failedAt state =>
    refine ⟨fun hstate => ?_, fun hlaunched => ?_⟩
    · rcases hstate with hattached | hlaunched
      · cases hattached
      · cases hlaunched
    · cases hlaunched

/-- A method on the checkpoints keeps the prefix and the execution state of each. -/
theorem ChildMatches.checkpointed (h : ChildMatches checkpoints launch) (method : Method) :
    ChildMatches (method.exec checkpoints).2 launch := by
  obtain ⟨child, hselect, hsame, hexecution⟩ := h
  obtain ⟨child', hselect', hsame', hexecution'⟩ :=
    (method.exec_change checkpoints).select_kept hselect
  exact ⟨child', hselect', hsame'.trans hsame, hexecution'.trans hexecution⟩

theorem Change.complete (h : Change db db')
    (hc : ∀ launch ∈ db.launches, Complete db.checkpoints launch) :
    ∀ launch ∈ db'.launches, Complete db'.checkpoints launch := by
  cases h with
  | unchanged => exact hc
  | checkpointed method =>
    intro launch hlaunch
    refine ⟨fun hstate => ?_, (hc launch hlaunch).manager⟩
    obtain ⟨hsession, hworktree, hexecution, hchild⟩ := (hc launch hlaunch).attachment hstate
    exact ⟨hsession, hworktree, hexecution, hchild.checkpointed method⟩
  | planned identity plannedAt launches checkpoints =>
    rw [launches, checkpoints]
    intro launch hlaunch
    rcases List.mem_append.1 hlaunch with hold | hnew
    · exact hc launch hold
    · rw [List.mem_singleton.1 hnew]
      exact ⟨fun hstate => by simp [plannedLaunch] at hstate, fun hlaunched => by cases hlaunched⟩
  | progressed forkId set progress launches checkpoints =>
    rw [launches, checkpoints]
    simp only [List.forall_mem_map]
    intro launch hlaunch
    split_ifs with hid
    · exact (progress launch (launch_eq_some_iff.2 ⟨hlaunch, hid⟩)).complete (hc launch hlaunch)
    · exact hc launch hlaunch

/-- Throughout every sequence of methods, a launched fork is complete, with a child
checkpoint that matches it; and between any two moments of the sequence every launch keeps
its identity, the state in which it has ended and the manager session that it was given. -/
theorem canon_fork_launch_machine (before between : List Operation) :
    let db := before.foldl apply .empty
    let db' := between.foldl apply db
    Evolves db db' ∧ ∀ launch ∈ db'.launches, launch.state = .launched →
      launch.nawabariSessionId.isSome ∧ launch.worktreePath.isSome ∧
        launch.execution_state_id.isSome ∧ launch.managerSessionId.isSome ∧
        ChildMatches db'.checkpoints launch := by
  intro db db'
  refine ⟨foldl_relation Evolves.refl (fun _ _ _ h h' => h.trans h')
    (fun db op => (apply_change db op).evolves) db between, ?_⟩
  have hcomplete : EachState apply
      (fun db => ∀ launch ∈ db.launches, Complete db.checkpoints launch) .empty
      (before ++ between) :=
    eachState_of_invariant (fun db op hc => (apply_change db op).complete hc)
      (by simp [Database.empty]) _
  have hlast := hcomplete.last
  rw [List.foldl_append] at hlast
  intro launch hlaunch hstate
  obtain ⟨hsession, hworktree, hexecution, hchild⟩ :=
    (hlast launch hlaunch).attachment (Or.inr hstate)
  exact ⟨hsession, hworktree, hexecution, (hlast launch hlaunch).manager hstate, hchild⟩

end Steps

end Mottainai.CanonForkLaunches

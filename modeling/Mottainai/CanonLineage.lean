import Mottainai.InterleavingHistory
import Mottainai.JsonValues
import Mottainai.ParentForest
import Mottainai.OperationSequences
import Mottainai.OrderedMaps

/-!
# The lineage of Canon checkpoints

A row of `canon_checkpoints` is kept in the form that decoding gives it. Recording a checkpoint is
one transaction. Reconciling one reads the checkpoint and its ancestors in single statements,
between which another process may mark a checkpoint stale, and then writes in a transaction of its
own. With every method taken as one step, the parent links stay a forest, a child keeps the
freshness of its parent, and what descends from a stale checkpoint is stale. The prefix of a parent
is not compared when a fork is recorded.
-/

namespace Mottainai.CanonCheckpoints

open Interleaving JavaScriptValues JsonValues

section Fields

/-- `MAX_CANON_CHECKPOINT_FIELD_LENGTH`. -/
def maxFieldLength : ℕ := 512

/-- `MAX_CANON_CHECKPOINT_JSON_DEPTH`. -/
def maxJsonDepth : ℕ := 32

/-- `MAX_CANON_CHECKPOINT_JSON_ENTRIES`. -/
def maxJsonEntries : ℕ := 256

/-- `/[\u0000-\u001f\u007f]/u.test(text)`. -/
def hasControl (text : String) : Bool :=
  text.toList.any fun c => decide (c.toNat ≤ 0x1F) || decide (c.toNat = 0x7F)

/-- `canonCheckpointField`, on a value that has to be there. -/
def canonCheckpointField (value field : String) : Except String String :=
  if value = "" ∨ maxFieldLength < utf16Length value ∨ isTrimmed value = false ∨
      hasControl value = true then
    .error s!"Canon checkpoint {field} is invalid"
  else .ok value

/-- `canonCheckpointField`, on an optional value. -/
def optionalCanonCheckpointField (value : Option String) (field : String) :
    Except String (Option String) :=
  match value with
  | none => .ok none
  | some value => (canonCheckpointField value field).map some

/-- Four characters, and then 64 hexadecimal digits. -/
def isCanonId (tag text : String) : Bool :=
  let digits := text.toList.drop tag.toList.length
  tag.toList.isPrefixOf text.toList && decide (digits.length = 64) &&
    digits.all fun c => ('0' ≤ c && c ≤ '9') || ('a' ≤ c && c ≤ 'f')

/-- `CANON_PREFIX_ID_PATTERN`. -/
def isPrefixId (text : String) : Bool := isCanonId "cp1:" text

/-- `CANON_EXECUTION_STATE_ID_PATTERN`. -/
def isExecutionStateId (text : String) : Bool := isCanonId "es1:" text

/-- `Number.isSafeInteger(value) && value > 0`. -/
def isPositiveInteger (value : ℤ) : Bool := isSafeInteger value && decide (0 < value)

end Fields

section Freshness

def canonicalEntries (entries : List (String × Except String JsonValue)) :
    Except String (List (String × JsonValue)) :=
  (entries.insertionSort fun a b => precedes a.1 b.1).mapM fun entry => do
    require (utf16Length entry.1 ≤ maxFieldLength ∧ hasControl entry.1 = false)
      "Canon checkpoint freshness has an invalid key"
    let value ← entry.2
    pure (entry.1, value)

mutual

/-- `canonicalCanonCheckpointJson`. -/
def canonicalCanonCheckpointJson (depth : ℕ) : JsonValue → Except String JsonValue
  | .array elements =>
    if maxJsonDepth ≤ depth then .error "Canon checkpoint freshness is too deeply nested"
    else if maxJsonEntries < elements.length then .error "Canon checkpoint freshness is too large"
    else (canonicalElements (depth + 1) elements).map .array
  | .object properties =>
    if maxJsonDepth ≤ depth then .error "Canon checkpoint freshness is too deeply nested"
    else if maxJsonEntries < properties.length then
      .error "Canon checkpoint freshness is too large"
    else (canonicalEntries (canonicalValues (depth + 1) properties)).map fun entries =>
      .object (fromEntries entries)
  | value => .ok value

def canonicalElements (depth : ℕ) : List JsonValue → Except String (List JsonValue)
  | [] => .ok []
  | element :: elements => do
    let element ← canonicalCanonCheckpointJson depth element
    let elements ← canonicalElements depth elements
    pure (element :: elements)

def canonicalValues (depth : ℕ) : Properties → List (String × Except String JsonValue)
  | [] => []
  | (key, value) :: properties =>
      (key, canonicalCanonCheckpointJson depth value) :: canonicalValues depth properties

end

def requiredBindings : List String := ["repository", "task", "base", "source", "artifactGeneration"]

/-- `canonicalCanonCheckpointFreshness`. -/
def canonicalCanonCheckpointFreshness (value : JsonValue) : Except String JsonValue := do
  let canonical ← canonicalCanonCheckpointJson 0 value
  match canonical with
  | .object properties =>
    match requiredBindings.find? fun field => (property properties field).isNone with
    | some field => throw s!"Canon checkpoint freshness {field} is required"
    | none => pure canonical
  | _ => throw "Canon checkpoint freshness must be an object"

/-- `canonCheckpointFreshnessJson`. -/
def canonCheckpointFreshnessJson (value : JsonValue) : Except String String :=
  (canonicalCanonCheckpointFreshness value).map stringify

end Freshness

section Table

inductive CanonCheckpointLineageKind where
  | independentRoot
  | fork
  deriving DecidableEq, Repr

inductive CanonCheckpointState where
  | current
  | stale
  deriving DecidableEq, Repr

structure CanonCheckpointRecord where
  checkpointId : String
  canonContractId : String
  canonSchemaVersion : ℤ
  prefix_id : String
  parentCheckpointId : Option String
  lineageKind : CanonCheckpointLineageKind
  freshness : String
  execution_state_id : Option String
  attachmentGeneration : Option ℤ
  agentId : Option String
  modelId : Option String
  profile : Option String
  state : CanonCheckpointState
  createdAt : ℤ
  updatedAt : ℤ
  deriving DecidableEq, Repr

/-- The constraints of a row by itself. -/
def CanonCheckpointRecord.Checked (row : CanonCheckpointRecord) : Prop :=
  0 < row.canonSchemaVersion ∧ (∀ n ∈ row.attachmentGeneration, 0 < n) ∧
    (row.lineageKind = .independentRoot ↔ row.parentCheckpointId = none)

instance (row : CanonCheckpointRecord) : Decidable row.Checked := inferInstanceAs (Decidable (_ ∧ _))

/-- The `PRIMARY KEY`, `FOREIGN KEY` and `CHECK` constraints. -/
def Constraints (rows : List CanonCheckpointRecord) : Prop :=
  (rows.map (·.checkpointId)).Nodup ∧
    (∀ row ∈ rows, ∀ id ∈ row.parentCheckpointId, id ∈ rows.map (·.checkpointId)) ∧
    ∀ row ∈ rows, row.Checked

instance (rows : List CanonCheckpointRecord) : Decidable (Constraints rows) :=
  inferInstanceAs (Decidable (_ ∧ _))

structure CheckpointTable where
  rows : List CanonCheckpointRecord
  constraints : Constraints rows

namespace CheckpointTable

def empty : CheckpointTable := ⟨[], by decide⟩

def write (rows : List CanonCheckpointRecord) : Except String CheckpointTable :=
  if h : Constraints rows then .ok ⟨rows, h⟩ else .error "constraint failed"

/-- `SELECT * FROM canon_checkpoints WHERE checkpoint_id = ?`. -/
def select (table : CheckpointTable) (checkpointId : String) : Option CanonCheckpointRecord :=
  table.rows.find? (·.checkpointId = checkpointId)

/-- The recursive part of the propagation: the ids of a row and of its descendants. -/
def descendants (table : CheckpointTable) (checkpointId : String) : Option (List String) :=
  ParentForest.descendants CanonCheckpointRecord.checkpointId
    CanonCheckpointRecord.parentCheckpointId table.rows (table.rows.length + 1) [checkpointId]

/-- `SET state = ?, updated_at = ?` on the rows with the given ids. -/
def withState (ids : List String) (state : CanonCheckpointState) (updatedAt : ℤ)
    (row : CanonCheckpointRecord) : CanonCheckpointRecord :=
  if row.checkpointId ∈ ids then { row with state := state, updatedAt := updatedAt } else row

/-- `UPDATE canon_checkpoints SET state = ?, updated_at = ? WHERE checkpoint_id IN ids`. -/
def setState (table : CheckpointTable) (ids : List String) (state : CanonCheckpointState)
    (updatedAt : ℤ) : Except String CheckpointTable :=
  write (table.rows.map (withState ids state updatedAt))

/-- `WITH RECURSIVE descendants … UPDATE canon_checkpoints SET state = 'stale' …`. -/
def markSubtreeStale (table : CheckpointTable) (checkpointId : String) (updatedAt : ℤ) :
    Except String CheckpointTable :=
  match table.descendants checkpointId with
  | some ids => table.setState ids .stale updatedAt
  | none => .error "the recursive query has no end"

end CheckpointTable

end Table

section Recording

structure RecordCanonCheckpointInput where
  checkpointId : Option String := none
  canonContractId : Option String := none
  canonSchemaVersion : ℤ
  prefix_id : String
  parentCheckpointId : Option String := none
  lineageKind : CanonCheckpointLineageKind
  freshness : JsonValue
  execution_state_id : Option String := none
  attachmentGeneration : Option ℤ := none
  agentId : Option String := none
  modelId : Option String := none
  profile : Option String := none
  recordedAt : Option ℤ := none

/-- The part of `recordCanonCheckpoint` before its transaction: the checked input, as the
row to insert. -/
def checkedRow (input : RecordCanonCheckpointInput) (uuid : String) (now : ℤ) :
    Except String CanonCheckpointRecord := do
  let checkpointId ← canonCheckpointField (input.checkpointId.getD uuid) "checkpointId"
  let canonContractId ← canonCheckpointField
    (input.canonContractId.getD "mottainai.execution-canon.v1") "canonContractId"
  require (isPositiveInteger input.canonSchemaVersion = true)
    "Canon checkpoint canonSchemaVersion must be a positive integer"
  require (isPrefixId input.prefix_id = true) "Canon checkpoint prefix_id is invalid"
  let parentCheckpointId ← optionalCanonCheckpointField input.parentCheckpointId
    "parentCheckpointId"
  require (input.lineageKind = .independentRoot → parentCheckpointId = none)
    "independent-root Canon checkpoint must not have a parent"
  require (input.lineageKind = .fork → parentCheckpointId ≠ none)
    "fork Canon checkpoint requires a parent"
  let freshness ← canonicalCanonCheckpointFreshness input.freshness
  let freshnessJson ← canonCheckpointFreshnessJson freshness
  require (input.execution_state_id.all isExecutionStateId = true)
    "Canon checkpoint execution_state_id is invalid"
  require (input.attachmentGeneration.all isPositiveInteger = true)
    "Canon checkpoint attachmentGeneration must be a positive integer"
  let agentId ← optionalCanonCheckpointField input.agentId "agentId"
  let modelId ← optionalCanonCheckpointField input.modelId "modelId"
  let profile ← optionalCanonCheckpointField input.profile "profile"
  pure
    { checkpointId := checkpointId
      canonContractId := canonContractId
      canonSchemaVersion := input.canonSchemaVersion
      prefix_id := input.prefix_id
      parentCheckpointId := parentCheckpointId
      lineageKind := input.lineageKind
      freshness := freshnessJson
      execution_state_id := input.execution_state_id
      attachmentGeneration := input.attachmentGeneration
      agentId := agentId
      modelId := modelId
      profile := profile
      state := .current
      createdAt := input.recordedAt.getD now
      updatedAt := input.recordedAt.getD now }

/-- `sameIdentity`: the rows agree in everything but their state and their times. -/
def sameIdentity (existing row : CanonCheckpointRecord) : Bool :=
  decide (existing =
    { row with
      state := existing.state, createdAt := existing.createdAt, updatedAt := existing.updatedAt })

/-- The insertion of `recordCanonCheckpoint`, and the row read back. -/
def insertCheckpoint (table : CheckpointTable) (row : CanonCheckpointRecord) :
    Except String CanonCheckpointRecord × CheckpointTable :=
  match CheckpointTable.write (table.rows ++ [row]) with
  | .ok table' => (.ok row, table')
  | .error e => (.error e, table)

/-- The transaction of `recordCanonCheckpoint`. The parent's subtree is marked stale and
committed before the error is thrown; rolling back has no effect any more. -/
def recordTransaction (table : CheckpointTable) (row : CanonCheckpointRecord) :
    Except String CanonCheckpointRecord × CheckpointTable :=
  match table.select row.checkpointId with
  | some existing =>
    if sameIdentity existing row then (.ok existing, table)
    else (.error s!"Canon checkpoint already exists with different identity: {row.checkpointId}",
      table)
  | none =>
    match row.parentCheckpointId with
    | none => insertCheckpoint table row
    | some parentId =>
      match table.select parentId with
      | none => (.error s!"Canon checkpoint parent not found: {parentId}", table)
      | some parent =>
        if parent.state ≠ .current then
          (.error s!"Canon checkpoint parent is stale: {parentId}", table)
        else if parent.freshness ≠ row.freshness then
          match table.markSubtreeStale parentId row.updatedAt with
          | .ok table' =>
            (.error s!"Canon checkpoint parent freshness is stale: {parentId}", table')
          | .error e => (.error e, table)
        else insertCheckpoint table row

end Recording

section Reconciling

structure ReconcileCanonCheckpointInput where
  checkpointId : String
  freshness : JsonValue
  reconciledAt : Option ℤ := none

/-- The update of `reconcileCanonCheckpoint`. -/
def reconcileState (table : CheckpointTable) (checkpointId : String)
    (nextState : CanonCheckpointState) (reconciledAt : ℤ) : Except String CheckpointTable :=
  match nextState with
  | .stale => table.markSubtreeStale checkpointId reconciledAt
  | .current => table.setState [checkpointId] .current reconciledAt

/-- The transaction of `reconcileCanonCheckpoint`. -/
def reconcileTransaction (table : CheckpointTable) (checkpointId : String)
    (nextState : CanonCheckpointState) (reconciledAt : ℤ) :
    Except String (CanonCheckpointRecord × CheckpointTable) := do
  let table' ← reconcileState table checkpointId nextState reconciledAt
  match table'.select checkpointId with
  | some row => pure (row, table')
  | none => throw "TypeError: Cannot read properties of undefined"

inductive Statement where
  | select (checkpointId : String)
  | recordTransaction (row : CanonCheckpointRecord)
  | reconcileTransaction (checkpointId : String) (nextState : CanonCheckpointState)
      (reconciledAt : ℤ)

namespace Statement

abbrev Value : Statement → Type
  | select _ => Option CanonCheckpointRecord
  | recordTransaction _ => CanonCheckpointRecord
  | reconcileTransaction _ _ _ => CanonCheckpointRecord

def exec : (statement : Statement) → CheckpointTable →
    Except String statement.Value × CheckpointTable
  | select checkpointId, table => (.ok (table.select checkpointId), table)
  | recordTransaction row, table => CanonCheckpoints.recordTransaction table row
  | reconcileTransaction checkpointId nextState reconciledAt, table =>
      committed table
        (CanonCheckpoints.reconcileTransaction table checkpointId nextState reconciledAt)

end Statement

abbrev Storing (α : Type) : Type := Throwing Statement Statement.Value String α

/-- `recordCanonCheckpoint`; `uuid` and `now` are what the method draws. -/
def recordCanonCheckpoint (input : RecordCanonCheckpointInput) (uuid : String) (now : ℤ) :
    Storing CanonCheckpointRecord := do
  let row ← checkedRow input uuid now
  request (Statement.recordTransaction row)

/-- The loop of `listCanonCheckpointAncestry`; it ends after `bound` further checkpoints at
the latest. The result is already in the order from the root. -/
def ancestryFrom : ℕ → List String → List CanonCheckpointRecord → String →
    Storing (List CanonCheckpointRecord)
  | bound, seen, ancestry, currentId =>
    if currentId ∈ seen then throw s!"Canon checkpoint ancestry contains a cycle: {currentId}"
    else match bound with
      | 0 => throw "Canon checkpoint ancestry exceeds its bound"
      | bound + 1 => do
        let current ← request (Statement.select currentId)
        match current with
        | none => throw s!"Canon checkpoint parent not found: {currentId}"
        | some current =>
          match current.parentCheckpointId with
          | none => pure (current :: ancestry)
          | some parentId => ancestryFrom bound (currentId :: seen) (current :: ancestry) parentId

/-- `listCanonCheckpointAncestry`. -/
def listCanonCheckpointAncestry (checkpointId : String) : Storing (List CanonCheckpointRecord) :=
  ancestryFrom 256 [] [] checkpointId

/-- The state that `reconcileCanonCheckpoint` decides on. -/
def nextState (current : CanonCheckpointRecord) (ancestry : List CanonCheckpointRecord)
    (freshnessJson : String) : CanonCheckpointState :=
  if current.state = .stale ∨ (ancestry.dropLast.any fun record => record.state = .stale) ∨
      current.freshness ≠ freshnessJson then .stale
  else .current

/-- `reconcileCanonCheckpoint`. -/
def reconcileCanonCheckpoint (input : ReconcileCanonCheckpointInput) (now : ℤ) :
    Storing CanonCheckpointRecord := do
  let current ← request (Statement.select input.checkpointId)
  match current with
  | none => throw s!"Canon checkpoint not found: {input.checkpointId}"
  | some current => do
    let freshnessJson ← canonCheckpointFreshnessJson input.freshness
    let ancestry ← listCanonCheckpointAncestry input.checkpointId
    request (Statement.reconcileTransaction input.checkpointId
      (nextState current ancestry freshnessJson) (input.reconciledAt.getD now))

inductive Method where
  | recordCanonCheckpoint (input : RecordCanonCheckpointInput) (uuid : String) (now : ℤ)
  | reconcileCanonCheckpoint (input : ReconcileCanonCheckpointInput) (now : ℤ)

namespace Method

def body : Method → Storing CanonCheckpointRecord
  | recordCanonCheckpoint input uuid now =>
      CanonCheckpoints.recordCanonCheckpoint input uuid now
  | reconcileCanonCheckpoint input now => CanonCheckpoints.reconcileCanonCheckpoint input now

def program (method : Method) : Program Statement (fun statement => Except String statement.Value)
    (Except String CanonCheckpointRecord) := method.body.run

def exec (method : Method) (table : CheckpointTable) :
    Except String CanonCheckpointRecord × CheckpointTable :=
  method.program.alone Statement.exec table

end Method

end Reconciling

open ParentForest OperationSequences

section Writes

variable {table table' : CheckpointTable} {rows : List CanonCheckpointRecord}
variable {row row' : CanonCheckpointRecord} {ids : List String} {id : String}
variable {state : CanonCheckpointState} {updatedAt : ℤ}

theorem CheckpointTable.write_eq_ok :
    CheckpointTable.write rows = .ok table ↔ table.rows = rows := by
  unfold CheckpointTable.write
  constructor
  · intro h
    split_ifs at h
    cases h
    rfl
  · rintro rfl
    rw [dif_pos table.constraints]

theorem CheckpointTable.select_eq_some_iff :
    table.select id = some row ↔ row ∈ table.rows ∧ row.checkpointId = id :=
  TableRows.find?_eq_some_iff table.constraints.1

theorem CheckpointTable.select_eq_none_iff :
    table.select id = none ↔ id ∉ table.rows.map (·.checkpointId) := by
  simp [CheckpointTable.select]

@[simp] theorem withState_checkpointId :
    (CheckpointTable.withState ids state updatedAt row).checkpointId = row.checkpointId := by
  unfold CheckpointTable.withState
  split_ifs <;> rfl

@[simp] theorem withState_parentCheckpointId :
    (CheckpointTable.withState ids state updatedAt row).parentCheckpointId =
      row.parentCheckpointId := by
  unfold CheckpointTable.withState
  split_ifs <;> rfl

@[simp] theorem withState_freshness :
    (CheckpointTable.withState ids state updatedAt row).freshness = row.freshness := by
  unfold CheckpointTable.withState
  split_ifs <;> rfl

@[simp] theorem withState_prefix_id :
    (CheckpointTable.withState ids state updatedAt row).prefix_id = row.prefix_id := by
  unfold CheckpointTable.withState
  split_ifs <;> rfl

@[simp] theorem withState_execution_state_id :
    (CheckpointTable.withState ids state updatedAt row).execution_state_id =
      row.execution_state_id := by
  unfold CheckpointTable.withState
  split_ifs <;> rfl

theorem withState_checked (h : row.Checked) :
    (CheckpointTable.withState ids state updatedAt row).Checked := by
  unfold CheckpointTable.withState
  split_ifs <;> exact h

theorem withState_state : (CheckpointTable.withState ids state updatedAt row).state =
    if row.checkpointId ∈ ids then state else row.state := by
  unfold CheckpointTable.withState
  split_ifs <;> rfl

/-- Setting states violates no constraint. -/
theorem CheckpointTable.setState_ok (table : CheckpointTable) (ids : List String)
    (state : CanonCheckpointState) (updatedAt : ℤ) :
    ∃ table', table.setState ids state updatedAt = .ok table' ∧
      table'.rows = table.rows.map (withState ids state updatedAt) := by
  obtain ⟨hunique, hparents, hchecked⟩ := table.constraints
  have hkeys : (table.rows.map (withState ids state updatedAt)).map (·.checkpointId) =
      table.rows.map (·.checkpointId) := by simp [Function.comp_def]
  have hconstraints : Constraints (table.rows.map (withState ids state updatedAt)) := by
    refine ⟨hkeys ▸ hunique, ?_, ?_⟩
    · rw [hkeys]
      simpa using hparents
    · simpa using fun row hrow => withState_checked (hchecked row hrow)
  exact ⟨⟨_, hconstraints⟩, CheckpointTable.write_eq_ok.2 rfl, rfl⟩

end Writes

section Changes

variable {table table' : CheckpointTable} {row : CanonCheckpointRecord}

/-- What one statement can do to the table, if the rows that it inserts are in `admits`. -/
inductive Change (admits : CanonCheckpointRecord → Prop) (table : CheckpointTable) :
    CheckpointTable → Prop where
  | unchanged : Change admits table table
  | inserted {table' : CheckpointTable} (row : CanonCheckpointRecord) (admitted : admits row)
      (fresh : table.select row.checkpointId = none) (state : row.state = .current)
      (parent : ∀ id, row.parentCheckpointId = some id → ∃ parent, table.select id = some parent ∧
        parent.state = .current ∧ parent.freshness = row.freshness)
      (rows : table'.rows = table.rows ++ [row]) : Change admits table table'
  | staled {table' : CheckpointTable} (id : String) (ids : List String) (updatedAt : ℤ)
      (subtree : table.descendants id = some ids)
      (rows : table'.rows = table.rows.map (CheckpointTable.withState ids .stale updatedAt)) :
      Change admits table table'
  | refreshed {table' : CheckpointTable} (id : String) (updatedAt : ℤ)
      (current : ∀ row, table.select id = some row → row.state = .current)
      (rows : table'.rows = table.rows.map (CheckpointTable.withState [id] .current updatedAt)) :
      Change admits table table'

variable {admits : CanonCheckpointRecord → Prop}

theorem checkedRow_ok {input : RecordCanonCheckpointInput} {uuid : String} {now : ℤ}
    (h : checkedRow input uuid now = .ok row) : row.Checked ∧ row.state = .current := by
  simp only [checkedRow, bind_eq_ok, require_eq_ok] at h
  obtain ⟨_, -, _, -, _, hversion, _, -, parent, -, _, hroot, _, hfork, _, -, _, -, _, -, _,
    hgeneration, _, -, _, -, _, -, heq⟩ := h
  cases heq
  refine ⟨⟨?_, ?_, ?_⟩, rfl⟩
  · simp only [isPositiveInteger, Bool.and_eq_true, decide_eq_true_eq] at hversion
    exact hversion.2
  · intro n hn
    have hpositive := (Option.all_eq_true _ _).1 hgeneration n hn
    simp only [isPositiveInteger, Bool.and_eq_true, decide_eq_true_eq] at hpositive
    exact hpositive.2
  · cases hkind : input.lineageKind with
    | independentRoot => simp [hroot hkind]
    | fork => simp [hfork hkind]

variable {id : String} {updatedAt : ℤ}

theorem markSubtreeStale_change (h : table.markSubtreeStale id updatedAt = .ok table') :
    Change admits table table' := by
  unfold CheckpointTable.markSubtreeStale at h
  split at h
  · rename_i ids hids
    exact .staled id ids updatedAt hids (CheckpointTable.write_eq_ok.1 h)
  · cases h

theorem insertCheckpoint_change (admitted : admits row) (fresh : table.select row.checkpointId = none)
    (state : row.state = .current)
    (parent : ∀ id, row.parentCheckpointId = some id → ∃ parent, table.select id = some parent ∧
      parent.state = .current ∧ parent.freshness = row.freshness) :
    Change admits table (insertCheckpoint table row).2 := by
  unfold insertCheckpoint
  split
  · exact .inserted row admitted fresh state parent (CheckpointTable.write_eq_ok.1 ‹_›)
  · exact .unchanged

theorem recordTransaction_change (admitted : admits row) (state : row.state = .current) :
    Change admits table (recordTransaction table row).2 := by
  unfold recordTransaction
  split
  · split_ifs <;> exact .unchanged
  · rename_i fresh
    split
    · rename_i hroot
      refine insertCheckpoint_change admitted fresh state fun id hid => ?_
      rw [hroot] at hid
      cases hid
    · rename_i parentId hparent
      split
      · exact .unchanged
      · rename_i parent hselect
        split_ifs with hstale hfreshness
        · exact .unchanged
        · split
          · exact markSubtreeStale_change ‹_›
          · exact .unchanged
        · refine insertCheckpoint_change admitted fresh state fun id hid => ?_
          obtain rfl : parentId = id := Option.some.inj (hparent.symm.trans hid)
          exact ⟨parent, hselect, not_not.1 hstale, not_not.1 hfreshness⟩

theorem ancestryFrom_alone (bound : ℕ) (seen : List String)
    (ancestry : List CanonCheckpointRecord) (currentId : String) (table : CheckpointTable) :
    ((ancestryFrom bound seen ancestry currentId).run.alone Statement.exec table).2 = table := by
  induction bound generalizing seen ancestry currentId with
  | zero =>
    unfold ancestryFrom
    split_ifs <;> rfl
  | succ bound ih =>
    unfold ancestryFrom
    split_ifs with hseen
    · rfl
    · simp only [alone_run_bind, run_request, Program.alone, Statement.exec]
      split
      · rfl
      · split
        · rfl
        · exact ih _ _ _

theorem reconcileTransaction_change {state : CanonCheckpointState}
    (current : state = .current → ∀ row, table.select id = some row → row.state = .current) :
    Change admits table (Statement.exec (.reconcileTransaction id state updatedAt) table).2 := by
  cases hresult : reconcileTransaction table id state updatedAt with
  | error e =>
    simp only [Statement.exec, hresult, committed]
    exact .unchanged
  | ok result =>
    simp only [Statement.exec, hresult, committed]
    unfold reconcileTransaction at hresult
    obtain ⟨table', hwrite, hrest⟩ := bind_eq_ok.1 hresult
    have htable : result.2 = table' := by
      split at hrest <;> cases hrest
      rfl
    rw [htable]
    cases state with
    | stale => exact markSubtreeStale_change hwrite
    | current =>
      exact .refreshed id updatedAt (current rfl) (CheckpointTable.write_eq_ok.1 hwrite)

theorem nextState_current {current : CanonCheckpointRecord}
    {ancestry : List CanonCheckpointRecord} {freshnessJson : String}
    (h : nextState current ancestry freshnessJson = .current) : current.state = .current := by
  unfold nextState at h
  split_ifs at h with hstale
  simp only [not_or] at hstale
  cases hstate : current.state with
  | current => rfl
  | stale => exact absurd hstate hstale.1

theorem recordCanonCheckpoint_alone (input : RecordCanonCheckpointInput) (uuid : String) (now : ℤ)
    (table : CheckpointTable) :
    (recordCanonCheckpoint input uuid now).run.alone Statement.exec table =
      match checkedRow input uuid now with
      | .ok row => recordTransaction table row
      | .error e => (.error e, table) := by
  rw [recordCanonCheckpoint, run_lift_bind]
  cases checkedRow input uuid now <;> rfl

theorem reconcileCanonCheckpoint_change (input : ReconcileCanonCheckpointInput) (now : ℤ)
    (table : CheckpointTable) :
    Change admits table ((reconcileCanonCheckpoint input now).run.alone Statement.exec table).2 := by
  rw [reconcileCanonCheckpoint, alone_run_bind]
  cases hselect : table.select input.checkpointId with
  | none =>
    simp only [run_request, Program.alone, Statement.exec, hselect]
    exact .unchanged
  | some current =>
    simp only [run_request, Program.alone, Statement.exec, hselect]
    rw [run_lift_bind]
    cases canonCheckpointFreshnessJson input.freshness with
    | error e => exact .unchanged
    | ok freshnessJson =>
      simp only [alone_run_bind]
      have hancestry := ancestryFrom_alone 256 [] [] input.checkpointId table
      cases hresult : (listCanonCheckpointAncestry input.checkpointId).run.alone
          Statement.exec table with
      | mk result table' =>
        obtain rfl : table' = table := by
          rw [listCanonCheckpointAncestry] at hresult
          rw [hresult] at hancestry
          exact hancestry
        cases result with
        | error e => exact .unchanged
        | ok ancestry =>
          refine reconcileTransaction_change fun hnext row hrow => ?_
          obtain rfl := Option.some.inj (hselect.symm.trans hrow)
          exact nextState_current hnext

def Method.Records : Method → CanonCheckpointRecord → Prop
  | .recordCanonCheckpoint input uuid now, row => checkedRow input uuid now = .ok row
  | .reconcileCanonCheckpoint _ _, _ => False

theorem Method.exec_change (method : Method) (table : CheckpointTable) :
    Change method.Records table (method.exec table).2 := by
  cases method with
  | recordCanonCheckpoint input uuid now =>
    change Change _ table ((CanonCheckpoints.recordCanonCheckpoint input uuid now).run.alone
      Statement.exec table).2
    rw [recordCanonCheckpoint_alone]
    cases hrow : checkedRow input uuid now with
    | error e => exact .unchanged
    | ok row => exact recordTransaction_change hrow (checkedRow_ok hrow).2
  | reconcileCanonCheckpoint input now => exact reconcileCanonCheckpoint_change input now table

theorem Change.ids_subset (h : Change admits table table') :
    table.rows.map (·.checkpointId) ⊆ table'.rows.map (·.checkpointId) := by
  cases h with
  | unchanged => exact fun _ hid => hid
  | inserted row admitted fresh state parent rows =>
    rw [rows, List.map_append]
    exact List.subset_append_left _ _
  | staled id ids updatedAt subtree rows => simp [rows, Function.comp_def]
  | refreshed id updatedAt current rows => simp [rows, Function.comp_def]

theorem Change.select_kept (h : Change admits table table') (hselect : table.select id = some row) :
    ∃ row', table'.select id = some row' ∧ row'.prefix_id = row.prefix_id ∧
      row'.execution_state_id = row.execution_state_id := by
  have hmarked : ∀ ids state updatedAt,
      table'.rows = table.rows.map (CheckpointTable.withState ids state updatedAt) →
      ∃ row', table'.select id = some row' ∧ row'.prefix_id = row.prefix_id ∧
        row'.execution_state_id = row.execution_state_id := by
    intro ids state updatedAt rows
    refine ⟨CheckpointTable.withState ids state updatedAt row, ?_, by simp, by simp⟩
    have hids : ∀ row, (CheckpointTable.withState ids state updatedAt row).checkpointId =
        row.checkpointId := fun _ => withState_checkpointId
    have hfind := @TableRows.find?_map _ _ _ _ table.rows _ hids id
    rw [CheckpointTable.select, rows, hfind]
    exact congrArg (Option.map _) hselect
  cases h with
  | unchanged => exact ⟨row, hselect, rfl, rfl⟩
  | inserted new admitted fresh state parent rows =>
    obtain ⟨hmem, hid⟩ := CheckpointTable.select_eq_some_iff.1 hselect
    refine ⟨row, CheckpointTable.select_eq_some_iff.2 ⟨?_, hid⟩, rfl, rfl⟩
    rw [rows]
    exact List.mem_append_left _ hmem
  | staled id' ids updatedAt subtree rows => exact hmarked _ _ _ rows
  | refreshed id' updatedAt current rows => exact hmarked _ _ _ rows

end Changes

section Invariant

variable {table table' : CheckpointTable} {admits : CanonCheckpointRecord → Prop}

/-- `child` is a child of `row`. -/
def ChildOf (child row : CanonCheckpointRecord) : Prop :=
  child.parentCheckpointId = some row.checkpointId

/-- What the methods keep, whatever they are called with. -/
structure Sound (table : CheckpointTable) : Prop where
  parentsFirst : ParentsFirst CanonCheckpointRecord.checkpointId
    CanonCheckpointRecord.parentCheckpointId table.rows
  inherited : Inherited CanonCheckpointRecord.checkpointId
    CanonCheckpointRecord.parentCheckpointId (·.state = .stale) table.rows
  freshness : ∀ row ∈ table.rows, ∀ child ∈ table.rows, ChildOf child row →
    child.freshness = row.freshness

theorem sound_empty : Sound .empty := ⟨parentsFirst_nil, by simp [Inherited, CheckpointTable.empty],
  by simp [CheckpointTable.empty]⟩

theorem mem_descendants_iff {id id' : String} {ids : List String}
    (h : table.descendants id = some ids) :
    id' ∈ ids ↔ Descends CanonCheckpointRecord.checkpointId
      CanonCheckpointRecord.parentCheckpointId table.rows id id' := by
  simp [ParentForest.mem_descendants h]

/-- The propagation ends. -/
theorem Sound.descendants_ok (h : Sound table) (id : String) :
    ∃ ids, table.descendants id = some ids :=
  h.parentsFirst.descendants_isSome (k := 0) (by simp) (by simp)

theorem Sound.not_childOf_new (h : Sound table) {row child : CanonCheckpointRecord}
    (fresh : table.select row.checkpointId = none) (hchild : child ∈ table.rows) :
    ¬ ChildOf child row := by
  intro hof
  exact CheckpointTable.select_eq_none_iff.1 fresh (h.parentsFirst.parent_mem hchild hof)

theorem Change.sound (h : Change admits table table') (hs : Sound table) : Sound table' := by
  cases h with
  | unchanged => exact hs
  | inserted row admitted fresh state parent rows =>
    have hparent : ∀ old ∈ table.rows, ChildOf row old →
        old.state = .current ∧ old.freshness = row.freshness := by
      intro old hold hof
      obtain ⟨found, hfound, hcurrent, hfreshness⟩ := parent _ hof
      obtain ⟨hmem, hid⟩ := CheckpointTable.select_eq_some_iff.1 hfound
      obtain rfl := List.inj_on_of_nodup_map hs.parentsFirst.unique hmem hold hid
      exact ⟨hcurrent, hfreshness⟩
    refine ⟨?_, ?_, ?_⟩
    · rw [rows]
      refine hs.parentsFirst.append (CheckpointTable.select_eq_none_iff.1 fresh) fun id hid => ?_
      obtain ⟨found, hfound, -⟩ := parent id hid
      obtain ⟨hmem, rfl⟩ := CheckpointTable.select_eq_some_iff.1 hfound
      exact List.mem_map_of_mem hmem
    · rw [rows]
      intro old hold child hchild hof hstale
      rcases List.mem_append.1 hold with hbefore | hnew
      · rcases List.mem_append.1 hchild with hbefore' | hnew'
        · exact hs.inherited old hbefore child hbefore' hof hstale
        · rw [List.mem_singleton.1 hnew'] at hof
          have hcurrent := (hparent old hbefore hof).1
          exact absurd (hcurrent.symm.trans hstale) (by decide)
      · rw [List.mem_singleton.1 hnew] at hstale
        exact absurd (state.symm.trans hstale) (by decide)
    · rw [rows]
      intro old hold child hchild hof
      rcases List.mem_append.1 hold with hbefore | hnew
      · rcases List.mem_append.1 hchild with hbefore' | hnew'
        · exact hs.freshness old hbefore child hbefore' hof
        · rw [List.mem_singleton.1 hnew'] at hof ⊢
          exact (hparent old hbefore hof).2.symm
      · rw [List.mem_singleton.1 hnew] at hof ⊢
        rcases List.mem_append.1 hchild with hbefore' | hnew'
        · exact absurd hof (hs.not_childOf_new fresh hbefore')
        · rw [List.mem_singleton.1 hnew']
  | staled id ids updatedAt subtree rows =>
    refine ⟨?_, ?_, ?_⟩
    · rw [rows]
      exact hs.parentsFirst.map (by simp) (by simp)
    · rw [rows]
      simp only [Inherited, List.forall_mem_map, withState_checkpointId,
        withState_parentCheckpointId, withState_state]
      intro row hrow child hchild hof hstale
      split_ifs with hmarked
      · rfl
      · split_ifs at hstale with hrow'
        · refine absurd ((mem_descendants_iff subtree).2 ?_) hmarked
          exact ((mem_descendants_iff subtree).1 hrow').tail ⟨child, hchild, rfl, hof⟩
        · exact hs.inherited row hrow child hchild hof hstale
    · rw [rows]
      simpa [ChildOf] using hs.freshness
  | refreshed id updatedAt current rows =>
    refine ⟨?_, ?_, ?_⟩
    · rw [rows]
      exact hs.parentsFirst.map (by simp) (by simp)
    · rw [rows]
      simp only [Inherited, List.forall_mem_map, withState_checkpointId,
        withState_parentCheckpointId, withState_state]
      intro row hrow child hchild hof hstale
      split_ifs at hstale with hrow'
      have hchildStale := hs.inherited row hrow child hchild hof hstale
      split_ifs with hmarked
      · have hcurrent := current child (CheckpointTable.select_eq_some_iff.2
          ⟨hchild, List.mem_singleton.1 hmarked⟩)
        exact absurd (hcurrent.symm.trans hchildStale) (by decide)
      · exact hchildStale
    · rw [rows]
      simpa [ChildOf] using hs.freshness

def PrefixKept (table : CheckpointTable) : Prop :=
  ∀ row ∈ table.rows, ∀ child ∈ table.rows, ChildOf child row → child.prefix_id = row.prefix_id

theorem Change.prefixKept (h : Change admits table table') (hs : Sound table)
    (hk : PrefixKept table)
    (hadmits : ∀ row parent, admits row → table.select row.checkpointId = none →
      parent ∈ table.rows → ChildOf row parent → parent.state = .current →
      parent.freshness = row.freshness → row.prefix_id = parent.prefix_id) :
    PrefixKept table' := by
  cases h with
  | unchanged => exact hk
  | inserted row admitted fresh state parent rows =>
    unfold PrefixKept
    rw [rows]
    intro old hold child hchild hof
    rcases List.mem_append.1 hold with hbefore | hnew
    · rcases List.mem_append.1 hchild with hbefore' | hnew'
      · exact hk old hbefore child hbefore' hof
      · rw [List.mem_singleton.1 hnew'] at hof ⊢
        obtain ⟨found, hfound, hcurrent, hfreshness⟩ := parent _ hof
        obtain ⟨hmem, hid⟩ := CheckpointTable.select_eq_some_iff.1 hfound
        obtain rfl := List.inj_on_of_nodup_map hs.parentsFirst.unique hmem hbefore hid
        exact hadmits row found admitted fresh hmem hof hcurrent hfreshness
    · rw [List.mem_singleton.1 hnew] at hof ⊢
      rcases List.mem_append.1 hchild with hbefore' | hnew'
      · exact absurd hof (hs.not_childOf_new fresh hbefore')
      · rw [List.mem_singleton.1 hnew']
  | staled id ids updatedAt subtree rows =>
    unfold PrefixKept at hk ⊢
    rw [rows]
    simpa [ChildOf] using hk
  | refreshed id updatedAt current rows =>
    unfold PrefixKept at hk ⊢
    rw [rows]
    simpa [ChildOf] using hk

end Invariant

section Sequences

variable {table : CheckpointTable} {row parent : CanonCheckpointRecord}

/-- The lineage as a whole: a forest whose children have the identity of their parents and
whose stale checkpoints have stale descendants only. -/
structure Lineage (table : CheckpointTable) : Prop where
  forest : Forest CanonCheckpointRecord.checkpointId CanonCheckpointRecord.parentCheckpointId
    table.rows
  identity : ∀ row ∈ table.rows, ∀ child ∈ table.rows, ChildOf child row →
    child.prefix_id = row.prefix_id ∧ child.freshness = row.freshness
  stale : ∀ row ∈ table.rows, row.state = .stale → ∀ row' ∈ table.rows,
    Descends CanonCheckpointRecord.checkpointId CanonCheckpointRecord.parentCheckpointId
      table.rows row.checkpointId row'.checkpointId → row'.state = .stale

theorem Sound.lineage (hs : Sound table) (hk : PrefixKept table) : Lineage table where
  forest := hs.parentsFirst.forest
  identity row hrow child hchild hof :=
    ⟨hk row hrow child hchild hof, hs.freshness row hrow child hchild hof⟩
  stale _ hrow hstale _ hrow' hdescends :=
    hs.inherited.descends hs.parentsFirst.unique hrow hrow' hdescends hstale

def apply (table : CheckpointTable) (method : Method) : CheckpointTable := (method.exec table).2

/-- The method records a new fork of `parent`, as `row`. -/
structure RecordsFork (table : CheckpointTable) (method : Method)
    (row parent : CanonCheckpointRecord) : Prop where
  records : method.Records row
  fresh : table.select row.checkpointId = none
  parent_mem : parent ∈ table.rows
  childOf : ChildOf row parent

/-- A fork under a stale parent is refused. A fork of another identity is refused as well,
and leaves the parent and everything below it stale. -/
structure ForksRefused (table : CheckpointTable) (method : Method) : Prop where
  stale : ∀ row parent, RecordsFork table method row parent → parent.state = .stale →
    (∃ e, (method.exec table).1 = .error e) ∧ apply table method = table
  mismatch : ∀ row parent, RecordsFork table method row parent → parent.state = .current →
    row.prefix_id ≠ parent.prefix_id ∨ row.freshness ≠ parent.freshness →
    (∃ e, (method.exec table).1 = .error e) ∧
      (apply table method).rows.map (·.checkpointId) = table.rows.map (·.checkpointId) ∧
      ∀ row' ∈ (apply table method).rows,
        Descends CanonCheckpointRecord.checkpointId CanonCheckpointRecord.parentCheckpointId
          (apply table method).rows parent.checkpointId row'.checkpointId → row'.state = .stale

def InheritsPrefix (table : CheckpointTable) (method : Method) : Prop :=
  ∀ row parent, RecordsFork table method row parent → parent.state = .current →
    parent.freshness = row.freshness → row.prefix_id = parent.prefix_id

variable {method : Method}

section

variable (h : RecordsFork table method row parent)
include h

theorem RecordsFork.exec_eq : method.exec table = recordTransaction table row := by
  cases method with
  | recordCanonCheckpoint input uuid now =>
    have hrow : checkedRow input uuid now = .ok row := h.records
    change (CanonCheckpoints.recordCanonCheckpoint input uuid now).run.alone Statement.exec table = _
    rw [recordCanonCheckpoint_alone, hrow]
  | reconcileCanonCheckpoint input now => exact h.records.elim

theorem RecordsFork.checked : row.Checked ∧ row.state = .current := by
  cases method with
  | recordCanonCheckpoint input uuid now => exact checkedRow_ok h.records
  | reconcileCanonCheckpoint input now => exact h.records.elim

theorem RecordsFork.select_parent : table.select parent.checkpointId = some parent :=
  CheckpointTable.select_eq_some_iff.2 ⟨h.parent_mem, rfl⟩

theorem RecordsFork.refused_of_stale (hstale : parent.state = .stale) :
    (∃ e, (method.exec table).1 = .error e) ∧ apply table method = table := by
  have hparent : row.parentCheckpointId = some parent.checkpointId := h.childOf
  have hexec : method.exec table =
      (.error s!"Canon checkpoint parent is stale: {parent.checkpointId}", table) := by
    rw [h.exec_eq]
    simp [recordTransaction, h.fresh, hparent, h.select_parent, hstale]
  simp [apply, hexec]

end

theorem RecordsFork.refused_of_freshness (hs : Sound table)
    (h : RecordsFork table method row parent) (hcurrent : parent.state = .current)
    (hfreshness : row.freshness ≠ parent.freshness) :
    (∃ e, (method.exec table).1 = .error e) ∧
      (apply table method).rows.map (·.checkpointId) = table.rows.map (·.checkpointId) ∧
      ∀ row' ∈ (apply table method).rows,
        Descends CanonCheckpointRecord.checkpointId CanonCheckpointRecord.parentCheckpointId
          (apply table method).rows parent.checkpointId row'.checkpointId →
          row'.state = .stale := by
  have hparent : row.parentCheckpointId = some parent.checkpointId := h.childOf
  obtain ⟨ids, hids⟩ := hs.descendants_ok parent.checkpointId
  obtain ⟨table', hwrite, hrows⟩ := table.setState_ok ids .stale row.updatedAt
  have hexec : method.exec table =
      (.error s!"Canon checkpoint parent freshness is stale: {parent.checkpointId}", table') := by
    rw [h.exec_eq]
    simp [recordTransaction, h.fresh, hparent, h.select_parent, hcurrent, Ne.symm hfreshness,
      CheckpointTable.markSubtreeStale, hids, hwrite]
  refine ⟨⟨_, congrArg Prod.fst hexec⟩, ?_, ?_⟩
  · simp [apply, hexec, hrows, Function.comp_def]
  · simp only [apply, hexec, hrows, List.forall_mem_map, withState_checkpointId, withState_state]
    intro row' hrow' hdescends
    rw [if_pos]
    have hsame : ∀ a b, Child CanonCheckpointRecord.checkpointId
        CanonCheckpointRecord.parentCheckpointId
        (table.rows.map (CheckpointTable.withState ids .stale row.updatedAt)) a b →
          Child CanonCheckpointRecord.checkpointId CanonCheckpointRecord.parentCheckpointId
            table.rows a b := fun a b hab => (child_map (by simp) (by simp)).1 hab
    exact (mem_descendants_iff hids).2 (Relation.ReflTransGen.mono hsame _ _ hdescends)

theorem RecordsFork.recorded (h : RecordsFork table method row parent)
    (hcurrent : parent.state = .current) (hfreshness : parent.freshness = row.freshness) :
    (apply table method).rows = table.rows ++ [row] := by
  have hparent : row.parentCheckpointId = some parent.checkpointId := h.childOf
  obtain ⟨hunique, hparents, hchecked⟩ := table.constraints
  have hconstraints : Constraints (table.rows ++ [row]) := by
    refine ⟨?_, ?_, ?_⟩
    · rw [List.map_append]
      exact hunique.append (by simp)
        (by simpa using CheckpointTable.select_eq_none_iff.1 h.fresh)
    · intro row' hrow' id hid
      rw [List.map_append, List.mem_append]
      rcases List.mem_append.1 hrow' with hold | hnew
      · exact Or.inl (hparents row' hold id hid)
      · rw [List.mem_singleton.1 hnew, hparent] at hid
        obtain rfl := Option.some.inj hid
        exact Or.inl (List.mem_map_of_mem h.parent_mem)
    · intro row' hrow'
      rcases List.mem_append.1 hrow' with hold | hnew
      · exact hchecked row' hold
      · rw [List.mem_singleton.1 hnew]
        exact h.checked.1
  have hwrite := (@CheckpointTable.write_eq_ok ⟨_, hconstraints⟩ _).2 rfl
  rw [apply, h.exec_eq]
  simp [recordTransaction, h.fresh, hparent, h.select_parent, hcurrent, hfreshness,
    insertCheckpoint, hwrite]

theorem forksRefused_iff (hs : Sound table) (method : Method) :
    ForksRefused table method ↔ InheritsPrefix table method := by
  constructor
  · intro h row parent hfork hcurrent hfreshness
    by_contra hprefix
    obtain ⟨-, hids, -⟩ := h.mismatch row parent hfork hcurrent (Or.inl hprefix)
    have hlength := congrArg List.length hids
    rw [hfork.recorded hcurrent hfreshness] at hlength
    simp at hlength
  · intro h
    refine ⟨fun row parent hfork hstale => hfork.refused_of_stale hstale, ?_⟩
    intro row parent hfork hcurrent hmismatch
    refine hfork.refused_of_freshness hs hcurrent ?_
    rcases hmismatch with hprefix | hfreshness
    · exact fun heq => hprefix (h row parent hfork hcurrent heq.symm)
    · exact hfreshness

/-- The methods keep a lineage with identical prefixes and refuse every other fork, exactly
in the sequences in which each recorded fork has the prefix of its parent. -/
theorem canon_lineage_iff (methods : List Method) :
    EachState apply Lineage .empty methods ∧ EachStep apply ForksRefused .empty methods ↔
      EachStep apply InheritsPrefix .empty methods := by
  have hsound : EachState apply Sound .empty methods :=
    eachState_of_invariant (fun table method hs => (method.exec_change table).sound hs)
      sound_empty methods
  constructor
  · rintro ⟨-, hrefused⟩
    exact hrefused.mono hsound fun table method hs hstep => (forksRefused_iff hs method).1 hstep
  · intro h
    have hkept : EachState apply (fun table => Sound table ∧ PrefixKept table) .empty methods := by
      refine h.eachState (fun table method hs hstep => ?_) ⟨sound_empty, by simp [PrefixKept,
        CheckpointTable.empty]⟩
      have hchange := method.exec_change table
      refine ⟨hchange.sound hs.1, hchange.prefixKept hs.1 hs.2 ?_⟩
      intro row parent hrecords hfresh hparent hchild hcurrent hfreshness
      exact hstep row parent ⟨hrecords, hfresh, hparent, hchild⟩ hcurrent hfreshness
    exact ⟨hkept.mono fun table hs => hs.1.lineage hs.2,
      h.mono hsound fun table method hs hstep => (forksRefused_iff hs method).2 hstep⟩

def freshnessOf (artifactGeneration : String) : JsonValue := .object
  [("repository", .string "repo-1"), ("task", .string "task-1"), ("base", .string "base-1"),
    ("source", .string "source-1"), ("artifactGeneration", .string artifactGeneration)]

def prefixOf (digit : Char) : String := "cp1:" ++ String.ofList (List.replicate 64 digit)

def recordRoot (digit : Char) : Method := .recordCanonCheckpoint
  { checkpointId := some "canon-root"
    canonSchemaVersion := 1
    prefix_id := prefixOf digit
    lineageKind := .independentRoot
    freshness := freshnessOf "artifact-1" } "uuid-1" 100

def recordChild (digit : Char) : Method := .recordCanonCheckpoint
  { checkpointId := some "canon-child"
    canonSchemaVersion := 1
    prefix_id := prefixOf digit
    parentCheckpointId := some "canon-root"
    lineageKind := .fork
    freshness := freshnessOf "artifact-1" } "uuid-2" 101

/-- A fork with another prefix than its parent is recorded. -/
theorem fork_of_other_prefix_recorded :
    ¬ ∀ methods : List Method, EachState apply Lineage .empty methods ∧
      EachStep apply ForksRefused .empty methods := by
  intro h
  have hlineage := (h [recordRoot 'a', recordChild 'b']).1.last
  have hrecorded : ∃ root ∈ ([recordRoot 'a', recordChild 'b'].foldl apply .empty).rows,
      ∃ child ∈ ([recordRoot 'a', recordChild 'b'].foldl apply .empty).rows,
        child.parentCheckpointId = some root.checkpointId ∧ child.prefix_id ≠ root.prefix_id := by
    decide
  obtain ⟨root, hroot, child, hchild, hof, hne⟩ := hrecorded
  exact hne (hlineage.identity root hroot child hchild hof).1

end Sequences

abbrev StoreEvent : Type :=
  Event Method Statement (fun statement => Except String statement.Value)
    (Except String CanonCheckpointRecord)

abbrev StoreConfig : Type :=
  Config CheckpointTable Method Statement (fun statement => Except String statement.Value)
    (Except String CanonCheckpointRecord)

variable {table table' : CheckpointTable} {k k' : StoreConfig} {e : StoreEvent}
variable {es : List StoreEvent}

section Steps

def IsStale (table : CheckpointTable) (id : String) : Prop :=
  ∃ row, table.select id = some row ∧ row.state = .stale

def KeepsStale (table table' : CheckpointTable) : Prop := ∀ id, IsStale table id → IsStale table' id

def Statement.Checked : Statement → Prop
  | .recordTransaction row => row.state = .current
  | _ => True

/-- The step is not an answered write of `current` over a stale checkpoint. -/
def WritesFresh (k : StoreConfig) : StoreEvent → Prop
  | .exec _ _ (.reconcileTransaction id .current _) (.ok _) => ¬ IsStale k.shared id
  | _ => True

variable {statement : Statement}

theorem issues_request (h : statement.Checked) :
    (request statement : Storing statement.Value).run.Issues Statement.Checked :=
  ⟨h, fun _ => trivial⟩

theorem ancestryFrom_issues (bound : ℕ) (seen : List String)
    (ancestry : List CanonCheckpointRecord) (currentId : String) :
    (ancestryFrom bound seen ancestry currentId).run.Issues Statement.Checked := by
  induction bound generalizing seen ancestry currentId with
  | zero =>
    unfold ancestryFrom
    split_ifs <;> trivial
  | succ bound ih =>
    unfold ancestryFrom
    split_ifs with hseen
    · trivial
    · refine issues_request_bind trivial fun current => ?_
      cases current with
      | none => trivial
      | some current =>
        cases hparent : current.parentCheckpointId with
        | none =>
          simp only [hparent]
          trivial
        | some parentId =>
          simp only [hparent]
          exact ih _ _ _

theorem Method.program_issues (method : Method) : method.program.Issues Statement.Checked := by
  cases method with
  | recordCanonCheckpoint input uuid now =>
    change (CanonCheckpoints.recordCanonCheckpoint input uuid now).run.Issues _
    rw [CanonCheckpoints.recordCanonCheckpoint, run_lift_bind]
    cases hrow : checkedRow input uuid now with
    | error e => trivial
    | ok row => exact issues_request (checkedRow_ok hrow).2
  | reconcileCanonCheckpoint input now =>
    refine issues_request_bind trivial fun current => ?_
    cases current with
    | none => trivial
    | some current =>
      rw [run_lift_bind]
      cases canonCheckpointFreshnessJson input.freshness with
      | error e => trivial
      | ok freshnessJson =>
        refine Program.Issues.bind (ancestryFrom_issues 256 [] [] input.checkpointId) fun r => ?_
        cases r with
        | error e => trivial
        | ok ancestry => exact issues_request trivial

theorem select_withState {id : String} {ids : List String} {state : CanonCheckpointState}
    {updatedAt : ℤ}
    (hrows : table'.rows = table.rows.map (CheckpointTable.withState ids state updatedAt)) :
    table'.select id = (table.select id).map (CheckpointTable.withState ids state updatedAt) := by
  rw [CheckpointTable.select, hrows]
  exact TableRows.find?_map (fun row => withState_checkpointId) id

theorem Change.keepsStale {admits : CanonCheckpointRecord → Prop}
    (h : Change admits table table') : KeepsStale table table' := by
  rintro id ⟨row, hrow, hstale⟩
  cases h with
  | unchanged => exact ⟨row, hrow, hstale⟩
  | inserted new admitted fresh state parent rows =>
    refine ⟨row, CheckpointTable.select_eq_some_iff.2 ?_, hstale⟩
    obtain ⟨hmem, hid⟩ := CheckpointTable.select_eq_some_iff.1 hrow
    rw [rows]
    exact ⟨List.mem_append_left _ hmem, hid⟩
  | staled id' ids updatedAt subtree rows =>
    refine ⟨_, by rw [select_withState rows, hrow]; rfl, ?_⟩
    rw [withState_state]
    split_ifs
    · rfl
    · exact hstale
  | refreshed id' updatedAt current rows =>
    refine ⟨_, by rw [select_withState rows, hrow]; rfl, ?_⟩
    rw [withState_state]
    split_ifs with hid
    · obtain rfl : id = id' := by
        rw [← (CheckpointTable.select_eq_some_iff.1 hrow).2]
        exact List.mem_singleton.1 hid
      exact absurd ((current row hrow).symm.trans hstale) (by decide)
    · exact hstale

/-- A statement is a change of the table, unless it writes `current` over a stale
checkpoint. -/
theorem Statement.exec_change (hchecked : statement.Checked)
    (hfresh : ∀ id updatedAt, statement = .reconcileTransaction id .current updatedAt →
      (∀ e, (statement.exec table).1 ≠ .error e) → ¬ IsStale table id) :
    Change (fun _ => True) table (statement.exec table).2 := by
  cases statement with
  | select id => exact .unchanged
  | recordTransaction row => exact recordTransaction_change trivial hchecked
  | reconcileTransaction id state updatedAt =>
    cases hresult : CanonCheckpoints.reconcileTransaction table id state updatedAt with
    | error e =>
      simp only [Statement.exec, hresult, committed]
      exact .unchanged
    | ok result =>
      refine reconcileTransaction_change fun hstate row hrow => ?_
      subst hstate
      have hnot := hfresh id updatedAt rfl fun e => by simp [Statement.exec, hresult, committed]
      cases hcurrent : row.state with
      | current => rfl
      | stale => exact absurd ⟨row, hrow, hcurrent⟩ hnot

theorem step_change (h : Step Method.program (fallible Statement.exec) k e k')
    (hissues : k.Issues Statement.Checked) (hfresh : WritesFresh k e) :
    Change (fun _ => True) k.shared k'.shared := by
  cases h with
  | @exec p c statement next r table' at_call outcome =>
    rcases outcome with heq | ⟨⟨e, rfl⟩, rfl⟩
    · obtain ⟨hr, rfl⟩ := Prod.mk.inj heq
      refine Statement.exec_change (hissues _ _ _ at_call).1 ?_
      rintro id updatedAt rfl hok
      cases r with
      | error e => exact absurd hr.symm (hok e)
      | ok record => exact hfresh
    · exact .unchanged
  | invoke => exact .unchanged
  | response => exact .unchanged
  | crash => exact .unchanged

end Steps

section Reports

/-- The write that answers a call, with the record that the call reports. -/
inductive Wrote (p : ℕ) (c : Method) (record : CanonCheckpointRecord) : StoreEvent → Prop where
  | recorded (row : CanonCheckpointRecord) :
      Wrote p c record (.exec p c (.recordTransaction row) (.ok record))
  | reconciled (id : String) (state : CanonCheckpointState) (updatedAt : ℤ) :
      Wrote p c record (.exec p c (.reconcileTransaction id state updatedAt) (.ok record))

/-- Neither the checkpoint nor, by the links afterwards, an ancestor of it was stale. -/
def NoneStale (table table' : CheckpointTable) (id : String) : Prop :=
  ∀ ancestor, Descends CanonCheckpointRecord.checkpointId
    CanonCheckpointRecord.parentCheckpointId table'.rows ancestor id → ¬ IsStale table ancestor

/-- When a call reports a checkpoint as current, then neither the checkpoint nor an ancestor
of it was stale before the write of that call. -/
def ReportsFresh (k : StoreConfig) (es : List StoreEvent) (k' : StoreConfig) : Prop :=
  ∀ before p c record after, es = before ++ .response p c (.ok record) :: after →
    record.state = .current →
    ∃ first e rest k₁ k₂, before = first ++ e :: rest ∧ Wrote p c record e ∧
      (∀ e' ∈ rest, e'.process ≠ p) ∧ Run Method.program (fallible Statement.exec) k first k₁ ∧
      Step Method.program (fallible Statement.exec) k₁ e k₂ ∧
      Run Method.program (fallible Statement.exec) k₂ (rest ++ .response p c (.ok record) :: after)
        k' ∧
      NoneStale k₁.shared k₂.shared record.checkpointId

theorem leaves_request_ok {statement : Statement} {value : statement.Value}
    {l : Answers Statement fun statement => Except String statement.Value}
    (h : (request statement : Storing statement.Value).run.Leaves l (.pure (.ok value))) :
    l = [⟨statement, .ok value⟩] := by
  rcases Program.leaves_call.1 h with ⟨-, heq⟩ | ⟨r, l', rfl, hrest⟩
  · cases heq
  · obtain ⟨rfl, heq⟩ := Program.leaves_pure.1 hrest
    cases heq
    rfl

variable {record : CanonCheckpointRecord} {k₁ k₂ : StoreConfig}

/-- A call that returns a record has it from its last statement, which is a write. -/
theorem Method.leaves_ok {method : Method}
    {l : Answers Statement fun statement => Except String statement.Value}
    (h : method.program.Leaves l (.pure (.ok record))) :
    (∃ l' row, l = l' ++ [⟨.recordTransaction row, .ok record⟩]) ∨
      ∃ l' id state updatedAt,
        l = l' ++ [⟨.reconcileTransaction id state updatedAt, .ok record⟩] := by
  cases method with
  | recordCanonCheckpoint input uuid now =>
    obtain ⟨row, -, hrest⟩ := leaves_ok_of_lift_bind h
    exact Or.inl ⟨[], row, leaves_request_ok hrest⟩
  | reconcileCanonCheckpoint input now =>
    rcases leaves_pure_of_request_bind h with ⟨e, -, heq⟩ | ⟨current, l', rfl, hrest⟩
    · cases heq
    · cases current with
      | none => cases (Program.leaves_pure.1 hrest).2
      | some current =>
        obtain ⟨freshnessJson, -, hrest⟩ := leaves_ok_of_lift_bind hrest
        obtain ⟨ancestry, l₁, l₂, rfl, -, hrest⟩ := leaves_ok_of_bind hrest
        rw [leaves_request_ok hrest, ← List.cons_append]
        exact Or.inr ⟨_, _, _, _, rfl⟩

theorem insertCheckpoint_select {row record : CanonCheckpointRecord}
    (h : insertCheckpoint table row = (.ok record, table')) :
    table'.select record.checkpointId = some record := by
  unfold insertCheckpoint at h
  cases hwrite : CheckpointTable.write (table.rows ++ [row]) with
  | error e =>
    rw [hwrite] at h
    cases h
  | ok written =>
    rw [hwrite] at h
    cases h
    rw [CheckpointTable.select_eq_some_iff, CheckpointTable.write_eq_ok.1 hwrite]
    simp

theorem recordTransaction_select {row record : CanonCheckpointRecord}
    (h : recordTransaction table row = (.ok record, table')) :
    table'.select record.checkpointId = some record := by
  unfold recordTransaction at h
  split at h
  · rename_i existing hselect
    split_ifs at h with hsame
    · cases h
      rw [(CheckpointTable.select_eq_some_iff.1 hselect).2]
      exact hselect
    · cases h
  · split at h
    · exact insertCheckpoint_select h
    · split at h
      · cases h
      · split_ifs at h
        · cases h
        · split at h <;> cases h
        · exact insertCheckpoint_select h

theorem reconcileTransaction_select {id : String} {state : CanonCheckpointState} {updatedAt : ℤ}
    (h : reconcileTransaction table id state updatedAt = .ok (record, table')) :
    table'.select record.checkpointId = some record := by
  unfold reconcileTransaction at h
  obtain ⟨written, -, hread⟩ := bind_eq_ok.1 h
  split at hread
  · rename_i row hselect
    cases hread
    rw [(CheckpointTable.select_eq_some_iff.1 hselect).2]
    exact hselect
  · cases hread

/-- An answered write has the record in the table. -/
theorem Wrote.exec {p : ℕ} {c : Method} (h : Wrote p c record e)
    (hstep : Step Method.program (fallible Statement.exec) k₁ e k₂) :
    k₂.shared.select record.checkpointId = some record := by
  cases h with
  | recorded row =>
    cases hstep with
    | exec at_call outcome =>
      exact recordTransaction_select (fallible_ok outcome)
  | reconciled id state updatedAt =>
    cases hstep with
    | exec at_call outcome =>
      exact reconcileTransaction_select (committed_eq_ok (fallible_ok outcome))

/-- A write that reports a current checkpoint has found nothing stale above it. -/
theorem Wrote.noneStale {p : ℕ} {c : Method} (h : Wrote p c record e) (hsound : Sound k₁.shared)
    (hchange : Change (fun _ => True) k₁.shared k₂.shared)
    (hstep : Step Method.program (fallible Statement.exec) k₁ e k₂)
    (hcurrent : record.state = .current) : NoneStale k₁.shared k₂.shared record.checkpointId := by
  intro ancestor hdescends hstale
  obtain ⟨row, hrow, hstale'⟩ := hchange.keepsStale ancestor hstale
  obtain ⟨hmem, rfl⟩ := CheckpointTable.select_eq_some_iff.1 hrow
  obtain ⟨hrecord, -⟩ := CheckpointTable.select_eq_some_iff.1 (h.exec hstep)
  have hsound' := hchange.sound hsound
  have hstale'' := hsound'.inherited.descends hsound'.parentsFirst.unique hmem hrecord hdescends
    hstale'
  exact absurd (hcurrent.symm.trans hstale'') (by decide)

end Reports

section Runs

/-- What holds along the runs in which no stale checkpoint is overwritten. -/
def Tracked (k : StoreConfig) : Prop := k.Issues Statement.Checked ∧ Sound k.shared

theorem tracked_empty : Tracked (.idle .empty) := ⟨Config.issues_idle _ _, sound_empty⟩

theorem Tracked.step (hk : Tracked k) (h : Step Method.program (fallible Statement.exec) k e k')
    (hfresh : WritesFresh k e) : Tracked k' :=
  ⟨h.issues Method.program_issues hk.1, (step_change h hk.1 hfresh).sound hk.2⟩

/-- Without overwritten checkpoints, every report of a current checkpoint was right. -/
theorem reportsFresh (hrun : Run Method.program (fallible Statement.exec) (.idle .empty) es k')
    (h : StepsMeet Method.program (fallible Statement.exec) WritesFresh (.idle .empty) es k') :
    ReportsFresh (.idle .empty) es k' := by
  rintro before p c record after rfl hcurrent
  obtain ⟨k₃, k₄, hbefore, hresponse, hafter⟩ := hrun.split_step
  obtain ⟨next, hthread, hnext⟩ : ∃ x, k₃.threads p = some (c, x) ∧ x = .pure (.ok record) := by
    cases hresponse with
    | response at_return => exact ⟨_, at_return, rfl⟩
  obtain ⟨earlier, since, rfl, honly, hleaves⟩ :=
    (hbefore.inside (fun p => rfl) hthread).history
  rw [hnext] at hleaves
  have hwrote : ∃ first e rest, since = first ++ e :: rest ∧ Wrote p c record e ∧
      ∀ e' ∈ rest, e'.process ≠ p := by
    rcases Method.leaves_ok hleaves with ⟨l, row, hl⟩ | ⟨l, id, state, updatedAt, hl⟩
    · obtain ⟨first, rest, hsince, hrest⟩ := honly.answers_snoc hl
      exact ⟨first, _, rest, hsince, .recorded row, hrest⟩
    · obtain ⟨first, rest, hsince, hrest⟩ := honly.answers_snoc hl
      exact ⟨first, _, rest, hsince, .reconciled id state updatedAt, hrest⟩
  obtain ⟨first, e, rest, rfl, hwrote, hrest⟩ := hwrote
  have hevents : earlier ++ .invoke p c :: (first ++ e :: rest) =
      (earlier ++ .invoke p c :: first) ++ e :: rest := by simp
  rw [hevents] at hbefore h ⊢
  obtain ⟨k₁, k₂, hfirst, hstep, hlast⟩ := hbefore.split_step
  have hafter' : Run Method.program (fallible Statement.exec) k₂
      (rest ++ .response p c (.ok record) :: after) k' :=
    hlast.append ((Run.single hresponse).append hafter)
  rw [List.append_assoc, List.cons_append] at h
  have hmeets := h.first ((Run.single hstep).append hafter')
  have htracked : Tracked k₁ :=
    hmeets.invariant hfirst (fun hk hstep hfresh => hk.step hstep hfresh) tracked_empty
  have hfresh := h _ e _ k₁ k₂ rfl hfirst hstep hafter'
  exact ⟨_, e, rest, k₁, k₂, rfl, hwrote, hrest, hfirst, hstep, hafter',
    hwrote.noneStale htracked.2 (step_change hstep htracked.1 hfresh) hstep hcurrent⟩

/-- A write of `current` leaves its checkpoint current. -/
theorem not_isStale_of_current {id : String} {updatedAt : ℤ} {record : CanonCheckpointRecord}
    (h : reconcileTransaction table id .current updatedAt = .ok (record, table')) :
    ¬ IsStale table' id := by
  unfold reconcileTransaction at h
  obtain ⟨written, hwrite, hread⟩ := bind_eq_ok.1 h
  have hwritten : table' = written := by
    split at hread <;> cases hread
    rfl
  subst hwritten
  rintro ⟨row, hrow, hstale⟩
  rw [select_withState (CheckpointTable.write_eq_ok.1 hwrite)] at hrow
  obtain ⟨old, hold, rfl⟩ := Option.map_eq_some_iff.1 hrow
  rw [withState_state, if_pos] at hstale
  · cases hstale
  · rw [(CheckpointTable.select_eq_some_iff.1 hold).2]
    exact List.mem_singleton_self id

/-- In every interleaving staleness is final, and no call reports a checkpoint below a stale
one as current, exactly when every answered write of `current` finds its checkpoint not
stale. -/
theorem staleness_monotonic_iff
    (hrun : Run Method.program (fallible Statement.exec) (.idle .empty) es k') :
    Throughout Method.program (fallible Statement.exec) KeepsStale (.idle .empty) es k' ∧
        ReportsFresh (.idle .empty) es k' ↔
      StepsMeet Method.program (fallible Statement.exec) WritesFresh (.idle .empty) es k' := by
  constructor
  · rintro ⟨hkeeps, -⟩ before e after k₁ k₂ rfl hbefore hstep hafter
    have hkept := hkeeps.step hbefore hstep hafter
    unfold WritesFresh
    split
    · rename_i p c id updatedAt record
      cases hstep with
      | exec at_call outcome =>
        intro hstale
        exact not_isStale_of_current (committed_eq_ok (fallible_ok outcome)) (hkept id hstale)
    · trivial
  · intro h
    refine ⟨?_, reportsFresh hrun h⟩
    exact h.throughout (I := Tracked) (fun table id hid => hid)
      (fun a b c hab hbc id hid => hbc id (hab id hid))
      (fun hk hstep hfresh => hk.step hstep hfresh)
      (fun hk hstep hfresh => (step_change hstep hk.1 hfresh).keepsStale) tracked_empty

end Runs

section Race

def readBeforeMark : List (Move Method String) :=
  [.invoke 0 (recordRoot 'a'), .exec 0, .respond 0,
    .invoke 0 (recordChild 'a'), .exec 0, .respond 0,
    .invoke 1 (.reconcileCanonCheckpoint ⟨"canon-child", freshnessOf "artifact-1", none⟩ 200),
    .exec 1, .exec 1, .exec 1,
    .invoke 2 (.reconcileCanonCheckpoint ⟨"canon-root", freshnessOf "artifact-2", none⟩ 201),
    .exec 2, .exec 2, .exec 2, .respond 2]

/-- The first process carries out what it decided before the mark. -/
def writeAfterMark : List (Move Method String) := [.exec 1, .respond 1]

def childState (k : StoreConfig) : Option CanonCheckpointState :=
  (k.shared.select "canon-child").map (·.state)

theorem exists_overwrite : ∃ es k es' k',
    Run Method.program (fallible Statement.exec) (.idle .empty) es k ∧
      Run Method.program (fallible Statement.exec) k es' k' ∧
      childState k = some .stale ∧ childState k' = some .current := by
  obtain ⟨es, k, es', k', hrun, hrun', hstates⟩ := Config.exists_two_runs Method.program
    Statement.exec (.idle .empty) readBeforeMark writeAfterMark
    (fun k k' => (childState k, childState k')) (b := (some .stale, some .current))
    (by decide)
  obtain ⟨hbefore, hafter⟩ := Prod.mk.inj hstates
  exact ⟨es, k, es', k', hrun, hrun', hbefore, hafter⟩

theorem not_throughout_of_overwrite {es' : List StoreEvent}
    (hrun : Run Method.program (fallible Statement.exec) (.idle .empty) es k)
    (hrun' : Run Method.program (fallible Statement.exec) k es' k')
    (hbefore : childState k = some .stale) (hafter : childState k' = some .current) :
    ¬ Throughout Method.program (fallible Statement.exec) KeepsStale (.idle .empty) (es ++ es')
      k' := by
  intro hkeeps
  obtain ⟨row, hrow, hstale⟩ := Option.map_eq_some_iff.1 hbefore
  obtain ⟨row', hrow', hcurrent⟩ := Option.map_eq_some_iff.1 hafter
  obtain ⟨row'', hrow'', hstale'⟩ := hkeeps es es' [] k k' (by simp) hrun hrun' (.refl k')
    "canon-child" ⟨row, hrow, hstale⟩
  obtain rfl := Option.some.inj (hrow'.symm.trans hrow'')
  exact absurd (hcurrent.symm.trans hstale') (by decide)

/-- A stale checkpoint becomes current again. -/
theorem stale_becomes_current :
    ¬ ∀ es k', Run Method.program (fallible Statement.exec) (.idle .empty) es k' →
      Throughout Method.program (fallible Statement.exec) KeepsStale (.idle .empty) es k' ∧
        ReportsFresh (.idle .empty) es k' := by
  intro h
  obtain ⟨es, k, es', k', hrun, hrun', hbefore, hafter⟩ := exists_overwrite
  exact not_throughout_of_overwrite hrun hrun' hbefore hafter (h _ _ (hrun.append hrun')).1

theorem staleness_monotonic_iff_overwrite :
    ∃ es k', Run Method.program (fallible Statement.exec) (.idle .empty) es k' ∧
      ¬ StepsMeet Method.program (fallible Statement.exec) WritesFresh (.idle .empty) es k' := by
  obtain ⟨es, k, es', k', hrun, hrun', hbefore, hafter⟩ := exists_overwrite
  refine ⟨_, k', hrun.append hrun', fun h => ?_⟩
  exact not_throughout_of_overwrite hrun hrun' hbefore hafter
    ((staleness_monotonic_iff (hrun.append hrun')).2 h).1

end Race

end Mottainai.CanonCheckpoints

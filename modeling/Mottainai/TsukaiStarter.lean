import Mathlib.Data.List.Infix
import Mottainai.InterleavingHistory
import Mottainai.OrderedMaps
import Mottainai.JavaScriptValues
import Mottainai.TaskLifecycle

/-!
# Starting a Tsukai run

The table `tsukai_run_correlations` has one row for each start key, which is reserved without a run
and later bound to one, by sequences of single statements. Every operation of a Manager on its
store, on Tsukai and on its own memory is one step, or fails; between two of them Tsukai moves its
runs, and answers may change. By `TsukaiAgentRunStarter` one durable start is reserved in the store,
resolved with what Tsukai already holds, and created only when Tsukai holds nothing. The map of
starts in flight is not in the model: a process is inside of at most one start of a key.
-/

namespace Mottainai.TsukaiCorrelation

open Interleaving JavaScriptValues

structure TsukaiRunCorrelationRecord where
  startKey : String
  managerSessionId : String
  agentRunId : Option String
  reservedAt : ℤ
  boundAt : Option ℤ
  deriving DecidableEq, Repr

structure CorrelationTable where
  rows : List TsukaiRunCorrelationRecord
  startKey_unique : (rows.map (·.startKey)).Nodup
  agentRunId_unique : (rows.filterMap (·.agentRunId)).Nodup

namespace CorrelationTable

def empty : CorrelationTable := ⟨[], .nil, .nil⟩

def write (rows : List TsukaiRunCorrelationRecord) : Except String CorrelationTable :=
  if h : (rows.map (·.startKey)).Nodup ∧ (rows.filterMap (·.agentRunId)).Nodup then
    .ok ⟨rows, h.1, h.2⟩
  else .error "UNIQUE constraint failed"

/-- `SELECT * … WHERE start_key = ?`. -/
def select (table : CorrelationTable) (startKey : String) : Option TsukaiRunCorrelationRecord :=
  table.rows.find? (fun row => row.startKey = startKey)

/-- `INSERT … ON CONFLICT (start_key) DO NOTHING`. -/
def insertIfAbsent (table : CorrelationTable) (startKey managerSessionId : String)
    (reservedAt : ℤ) : Except String (Unit × CorrelationTable) :=
  match table.select startKey with
  | some _ => .ok ((), table)
  | none => (write (table.rows ++ [⟨startKey, managerSessionId, none, reservedAt, none⟩])).map
      fun table' => ((), table')

/-- The rows that a binding `UPDATE` changes: `WHERE start_key = ? AND agent_run_id IS NULL`. -/
def unbound (startKey : String) (row : TsukaiRunCorrelationRecord) : Bool :=
  decide (row.startKey = startKey) && row.agentRunId.isNone

/-- `SET agent_run_id = ?, bound_at = ?` on the rows that are not bound. -/
def bindRow (startKey agentRunId : String) (boundAt : ℤ) (row : TsukaiRunCorrelationRecord) :
    TsukaiRunCorrelationRecord :=
  if unbound startKey row then { row with agentRunId := some agentRunId, boundAt := some boundAt }
  else row

/-- The binding `UPDATE`; it answers the number of rows it changed. -/
def bindIfUnbound (table : CorrelationTable) (startKey agentRunId : String) (boundAt : ℤ) :
    Except String (ℕ × CorrelationTable) :=
  (write (table.rows.map (bindRow startKey agentRunId boundAt))).map
    fun table' => (table.rows.countP (unbound startKey), table')

end CorrelationTable

inductive Statement where
  | select (startKey : String)
  | insertIfAbsent (startKey managerSessionId : String) (reservedAt : ℤ)
  | bindIfUnbound (startKey agentRunId : String) (boundAt : ℤ)

namespace Statement

abbrev Value : Statement → Type
  | select _ => Option TsukaiRunCorrelationRecord
  | insertIfAbsent _ _ _ => Unit
  | bindIfUnbound _ _ _ => ℕ

def exec : (statement : Statement) → CorrelationTable →
    Except String statement.Value × CorrelationTable
  | select startKey, table => (.ok (table.select startKey), table)
  | insertIfAbsent startKey managerSessionId reservedAt, table =>
      committed table (table.insertIfAbsent startKey managerSessionId reservedAt)
  | bindIfUnbound startKey agentRunId boundAt, table =>
      committed table (table.bindIfUnbound startKey agentRunId boundAt)

end Statement

/-- `tsukaiCorrelationIdentifier`. -/
def tsukaiCorrelationIdentifier (value field : String) : Except String String :=
  if utf16Length value = 0 ∨ 256 < utf16Length value then
    .error s!"tsukai correlation {field} is invalid"
  else .ok value

/-- `tsukaiRecordedAt`. -/
def tsukaiRecordedAt (value : Option ℤ) (now : ℤ) : Except String ℤ :=
  if isSafeInteger (value.getD now) = false ∨ value.getD now < 0 then
    .error "tsukai correlation recordedAt is invalid"
  else .ok (value.getD now)

theorem tsukaiCorrelationIdentifier_ok {value field text : String}
    (h : tsukaiCorrelationIdentifier value field = .ok text) : text = value := by
  unfold tsukaiCorrelationIdentifier at h
  split_ifs at h
  exact (Except.ok.inj h).symm

structure ReserveTsukaiRunCorrelationInput where
  startKey : String
  managerSessionId : String
  recordedAt : Option ℤ := none

structure BindTsukaiRunCorrelationInput where
  startKey : String
  agentRunId : String
  recordedAt : Option ℤ := none

/-- The store methods; `now` is the clock that a method reads. -/
inductive Method where
  | reserveTsukaiRunCorrelation (input : ReserveTsukaiRunCorrelationInput) (now : ℤ)
  | bindTsukaiRunCorrelation (input : BindTsukaiRunCorrelationInput) (now : ℤ)
  | getTsukaiRunCorrelation (startKey : String)

/-- Every method answers a row, or `undefined`. -/
abbrev Method.Body : Type :=
  Throwing Statement Statement.Value String (Option TsukaiRunCorrelationRecord)

/-- `reserveTsukaiRunCorrelation`. -/
def reserveTsukaiRunCorrelation (input : ReserveTsukaiRunCorrelationInput) (now : ℤ) :
    Method.Body := do
  let startKey ← tsukaiCorrelationIdentifier input.startKey "startKey"
  let managerSessionId ← tsukaiCorrelationIdentifier input.managerSessionId "managerSessionId"
  let recordedAt ← tsukaiRecordedAt input.recordedAt now
  request (Statement.insertIfAbsent startKey managerSessionId recordedAt)
  let record ← request (Statement.select startKey)
  match record with
  | none => throw "TypeError: Cannot read properties of undefined"
  | some record =>
    if record.managerSessionId ≠ managerSessionId then
      throw s!"tsukai start {startKey} is already correlated with another Manager session"
    else pure (some record)

/-- `bindTsukaiRunCorrelation`. -/
def bindTsukaiRunCorrelation (input : BindTsukaiRunCorrelationInput) (now : ℤ) :
    Method.Body := do
  let startKey ← tsukaiCorrelationIdentifier input.startKey "startKey"
  let agentRunId ← tsukaiCorrelationIdentifier input.agentRunId "agentRunId"
  let existing ← request (Statement.select startKey)
  match existing with
  | none => throw s!"tsukai start {startKey} is not reserved"
  | some existing =>
    if existing.agentRunId ≠ none then
      if existing.agentRunId ≠ some agentRunId then
        throw s!"tsukai start {startKey} is already bound to another AgentRun"
      else pure (some existing)
    else do
      let recordedAt ← tsukaiRecordedAt input.recordedAt now
      let _ ← request (Statement.bindIfUnbound startKey agentRunId recordedAt)
      request (Statement.select startKey)

namespace Method

def body : Method → Method.Body
  | reserveTsukaiRunCorrelation input now => TsukaiCorrelation.reserveTsukaiRunCorrelation input now
  | bindTsukaiRunCorrelation input now => TsukaiCorrelation.bindTsukaiRunCorrelation input now
  | getTsukaiRunCorrelation startKey => request (Statement.select startKey)

def program (method : Method) : Program Statement (fun statement => Except String statement.Value)
    (Except String (Option TsukaiRunCorrelationRecord)) := method.body.run

end Method

namespace CorrelationTable

variable {table table' : CorrelationTable} {startKey : String}
variable {row : TsukaiRunCorrelationRecord}

theorem write_ok {rows : List TsukaiRunCorrelationRecord} (h : write rows = .ok table) :
    table.rows = rows := by
  unfold write at h
  split_ifs at h
  cases h
  rfl

theorem select_eq_some_iff :
    table.select startKey = some row ↔ row ∈ table.rows ∧ row.startKey = startKey :=
  TableRows.find?_eq_some_iff table.startKey_unique

@[simp] theorem bindRow_startKey (startKey agentRunId : String) (boundAt : ℤ)
    (row : TsukaiRunCorrelationRecord) :
    (bindRow startKey agentRunId boundAt row).startKey = row.startKey := by
  unfold bindRow
  split_ifs <;> rfl

variable {agentRunId : String} {boundAt : ℤ}

theorem bindRow_of_unbound (hkey : row.startKey = startKey) (hnone : row.agentRunId = none) :
    (bindRow startKey agentRunId boundAt row).agentRunId = some agentRunId := by
  have hunbound : unbound startKey row = true := by simp [unbound, hkey, hnone]
  rw [bindRow, if_pos hunbound]

theorem bindRow_of_bound (hsome : row.agentRunId ≠ none) :
    bindRow startKey agentRunId boundAt row = row := by
  have hbound : ¬ unbound startKey row = true := by simp [unbound, hsome]
  rw [bindRow, if_neg hbound]

theorem select_of_insertIfAbsent {managerSessionId : String} {reservedAt : ℤ} {key : String}
    (h : table.insertIfAbsent startKey managerSessionId reservedAt = .ok ((), table'))
    (hrow : table.select key = some row) : table'.select key = some row := by
  unfold insertIfAbsent at h
  cases hselect : table.select startKey with
  | some row =>
    rw [hselect] at h
    cases h
    exact hrow
  | none =>
    rw [hselect] at h
    obtain ⟨written, hwrite, heq⟩ := map_eq_ok.1 h
    cases heq
    rw [select_eq_some_iff] at hrow ⊢
    rw [write_ok hwrite]
    exact ⟨List.mem_append_left _ hrow.1, hrow.2⟩

theorem select_bindIfUnbound {n : ℕ} (key : String)
    (h : table.bindIfUnbound startKey agentRunId boundAt = .ok (n, table')) :
    table'.select key = (table.select key).map (bindRow startKey agentRunId boundAt) := by
  obtain ⟨written, hwrite, heq⟩ := map_eq_ok.1 h
  cases heq
  rw [select, write_ok hwrite]
  exact TableRows.find?_map (bindRow_startKey startKey agentRunId boundAt) key

end CorrelationTable

/-- What may happen to a row: it is bound once, and then it does not change. -/
structure Stable (row row' : TsukaiRunCorrelationRecord) : Prop where
  startKey : row'.startKey = row.startKey
  managerSessionId : row'.managerSessionId = row.managerSessionId
  reservedAt : row'.reservedAt = row.reservedAt
  bound : row.agentRunId ≠ none → row' = row

theorem Stable.refl (row : TsukaiRunCorrelationRecord) : Stable row row :=
  ⟨rfl, rfl, rfl, fun _ => rfl⟩

theorem Stable.trans {a b c : TsukaiRunCorrelationRecord} (hab : Stable a b) (hbc : Stable b c) :
    Stable a c where
  startKey := hbc.startKey.trans hab.startKey
  managerSessionId := hbc.managerSessionId.trans hab.managerSessionId
  reservedAt := hbc.reservedAt.trans hab.reservedAt
  bound h := by
    obtain rfl := hab.bound h
    exact hbc.bound h

theorem Stable.agentRunId {row row' : TsukaiRunCorrelationRecord} (h : Stable row row')
    {agentRunId : String} (hrow : row.agentRunId = some agentRunId) :
    row'.agentRunId = some agentRunId := by
  rw [h.bound (by simp [hrow]), hrow]

theorem stable_bindRow (startKey agentRunId : String) (boundAt : ℤ)
    (row : TsukaiRunCorrelationRecord) :
    Stable row (CorrelationTable.bindRow startKey agentRunId boundAt row) := by
  by_cases hrow : row.agentRunId = none
  · unfold CorrelationTable.bindRow
    split_ifs
    · exact ⟨rfl, rfl, rfl, fun h => absurd hrow h⟩
    · exact .refl row
  · rw [CorrelationTable.bindRow_of_bound hrow]
    exact .refl row

def Keeps (table table' : CorrelationTable) : Prop :=
  ∀ startKey row, table.select startKey = some row →
    ∃ row', table'.select startKey = some row' ∧ Stable row row'

theorem Keeps.refl (table : CorrelationTable) : Keeps table table :=
  fun _ row h => ⟨row, h, .refl row⟩

theorem Keeps.trans (a b c : CorrelationTable) (hab : Keeps a b) (hbc : Keeps b c) :
    Keeps a c := by
  intro startKey row ha
  obtain ⟨row', hb, hrow⟩ := hab startKey row ha
  obtain ⟨row'', hc, hrow'⟩ := hbc startKey row' hb
  exact ⟨row'', hc, hrow.trans hrow'⟩

variable {table : CorrelationTable}

theorem keeps_committed {β : Type} {x : Except String (β × CorrelationTable)}
    (h : ∀ b table', x = .ok (b, table') → Keeps table table') :
    Keeps table (committed table x).2 := by
  cases x with
  | error e => exact .refl table
  | ok r => exact h r.1 r.2 rfl

theorem Statement.exec_keeps (statement : Statement) (table : CorrelationTable) :
    Keeps table (statement.exec table).2 := by
  cases statement with
  | select startKey => exact .refl table
  | insertIfAbsent startKey managerSessionId reservedAt =>
    refine keeps_committed fun _ table' h key row hrow => ?_
    exact ⟨row, CorrelationTable.select_of_insertIfAbsent h hrow, .refl row⟩
  | bindIfUnbound startKey agentRunId boundAt =>
    refine keeps_committed fun n table' h key row hrow => ?_
    refine ⟨CorrelationTable.bindRow startKey agentRunId boundAt row, ?_, stable_bindRow ..⟩
    rw [CorrelationTable.select_bindIfUnbound key h, hrow]
    rfl

theorem Method.alone_keeps (method : Method) (table : CorrelationTable) :
    Keeps table (method.program.alone Statement.exec table).2 :=
  Program.alone_relation Keeps.refl Keeps.trans Statement.exec_keeps _ _

theorem reserved_of_alone {input : ReserveTsukaiRunCorrelationInput} {now : ℤ}
    {record : Option TsukaiRunCorrelationRecord}
    (h : ((Method.reserveTsukaiRunCorrelation input now).program.alone Statement.exec table).1 =
      .ok record) :
    ((Method.reserveTsukaiRunCorrelation input now).program.alone Statement.exec table).2.select
      input.startKey ≠ none := by
  intro hnone
  simp only [Method.program, Method.body, reserveTsukaiRunCorrelation, run_lift_bind,
    run_request_bind] at h hnone
  cases hkey : tsukaiCorrelationIdentifier input.startKey "startKey" with
  | error e => simp [hkey, Program.alone] at h
  | ok startKey =>
    obtain rfl := tsukaiCorrelationIdentifier_ok hkey
    cases hsession : tsukaiCorrelationIdentifier input.managerSessionId "managerSessionId" with
    | error e => simp [hkey, hsession, Program.alone] at h
    | ok managerSessionId =>
      cases htime : tsukaiRecordedAt input.recordedAt now with
      | error e => simp [hkey, hsession, htime, Program.alone] at h
      | ok recordedAt =>
        simp only [hkey, hsession, htime, Program.alone] at h hnone
        generalize Statement.exec (.insertIfAbsent input.startKey managerSessionId recordedAt) table =
          inserted at h hnone
        obtain ⟨r, table'⟩ := inserted
        cases r with
        | error e => simp [Program.alone] at h
        | ok _ =>
          cases hselect : table'.select input.startKey with
          | none => simp [Program.alone, Statement.exec, hselect] at h
          | some row =>
            simp only [Program.alone, Statement.exec, hselect] at hnone
            split_ifs at hnone <;> simp [hselect] at hnone

/-- No run is bound to two starts. -/
theorem CorrelationTable.eq_of_agentRunId (table : CorrelationTable)
    {a b : TsukaiRunCorrelationRecord} (ha : a ∈ table.rows) (hb : b ∈ table.rows)
    (hsame : a.agentRunId = b.agentRunId) (hsome : a.agentRunId ≠ none) : a = b :=
  TableRows.eq_of_nodup_filterMap table.agentRunId_unique ha hb hsame hsome

section Runs

abbrev CorrelationEvent : Type :=
  Event Method Statement (fun statement => Except String statement.Value)
    (Except String (Option TsukaiRunCorrelationRecord))

abbrev CorrelationConfig : Type :=
  Config CorrelationTable Method Statement (fun statement => Except String statement.Value)
    (Except String (Option TsukaiRunCorrelationRecord))

variable {k k' : CorrelationConfig} {es : List CorrelationEvent} {p : ℕ} {c : Method}

theorem run_keeps (h : Run Method.program (fallible Statement.exec) k es k') :
    Keeps k.shared k'.shared := by
  refine h.relation Keeps.refl Keeps.trans ?_
  rintro statement table r table' (heq | ⟨-, rfl⟩)
  · obtain ⟨-, rfl⟩ := Prod.mk.inj heq
    exact statement.exec_keeps table
  · exact .refl _

/-- A read answers the row as it is. -/
theorem step_select {startKey : String} {row : Option TsukaiRunCorrelationRecord}
    (h : Step Method.program (fallible Statement.exec) k (.exec p c (.select startKey) (.ok row)) k') :
    row = k.shared.select startKey ∧ k'.shared = k.shared := by
  cases h with
  | exec at_call outcome =>
    rcases outcome with heq | ⟨⟨e, he⟩, -⟩
    · obtain ⟨hrow, rfl⟩ := Prod.mk.inj heq
      exact ⟨Except.ok.inj hrow, rfl⟩
    · cases he

theorem step_bindIfUnbound {startKey agentRunId : String} {boundAt : ℤ} {n : ℕ}
    {row : TsukaiRunCorrelationRecord}
    (h : Step Method.program (fallible Statement.exec) k
      (.exec p c (.bindIfUnbound startKey agentRunId boundAt) (.ok n)) k')
    (hrow : k.shared.select startKey = some row) :
    k'.shared.select startKey =
      some (CorrelationTable.bindRow startKey agentRunId boundAt row) := by
  cases h with
  | exec at_call outcome =>
    rcases outcome with heq | ⟨⟨e, he⟩, -⟩
    · obtain ⟨hn, rfl⟩ := Prod.mk.inj heq
      cases hbind : k.shared.bindIfUnbound startKey agentRunId boundAt with
      | error e =>
        simp only [hbind] at hn
        cases hn
      | ok r =>
        have hselect := CorrelationTable.select_bindIfUnbound startKey hbind
        rw [hrow] at hselect
        simpa only [Config.setThread_shared, Statement.exec, hbind, Option.map_some] using hselect
    · cases he

variable {record : Option TsukaiRunCorrelationRecord} {input : BindTsukaiRunCorrelationInput}
variable {now : ℤ}

/-- What a call of `bindTsukaiRunCorrelation` that returns has done: it found the start
bound to its own run, or it ran the update and read the row back. -/
theorem leaves_bindTsukaiRunCorrelation
    {l : Answers Statement fun statement => Except String statement.Value}
    (h : (bindTsukaiRunCorrelation input now).run.Leaves l (.pure (.ok record))) :
    (∃ existing, l = [⟨.select input.startKey, .ok (some existing)⟩] ∧ record = some existing ∧
      existing.agentRunId = some input.agentRunId) ∨
    ∃ existing boundAt n, l = [⟨.select input.startKey, .ok (some existing)⟩,
      ⟨.bindIfUnbound input.startKey input.agentRunId boundAt, .ok n⟩,
      ⟨.select input.startKey, .ok record⟩] := by
  obtain ⟨startKey, hstartKey, h⟩ := leaves_ok_of_lift_bind h
  obtain rfl := tsukaiCorrelationIdentifier_ok hstartKey
  obtain ⟨agentRunId, hagentRunId, h⟩ := leaves_ok_of_lift_bind h
  obtain rfl := tsukaiCorrelationIdentifier_ok hagentRunId
  rcases leaves_pure_of_request_bind h with ⟨e, -, heq⟩ | ⟨existing, l₁, rfl, h₁⟩
  · cases heq
  · cases existing with
    | none => cases (Program.leaves_pure.1 h₁).2
    | some existing =>
      dsimp only at h₁
      split_ifs at h₁ with hbound hother
      · cases (Program.leaves_pure.1 h₁).2
      · obtain ⟨rfl, heq⟩ := Program.leaves_pure.1 h₁
        cases heq
        exact Or.inl ⟨existing, rfl, rfl, not_not.1 hother⟩
      · obtain ⟨boundAt, -, h₂⟩ := leaves_ok_of_lift_bind h₁
        rcases leaves_pure_of_request_bind h₂ with ⟨e, -, heq⟩ | ⟨n, l₃, rfl, h₃⟩
        · cases heq
        · obtain ⟨r, l₄, rfl, h₄⟩ := (Program.leaves_call.1 h₃).resolve_left (by simp)
          obtain ⟨rfl, heq⟩ := Program.leaves_pure.1 h₄
          cases heq
          exact Or.inr ⟨existing, boundAt, n, rfl⟩

/-- Every binding update that call `c` of process `p` issued between `k` and `k'` found
a row without a run, or with the run that it was to bind. -/
def BindsUnraced (p : ℕ) (c : Method) (k : CorrelationConfig) (es : List CorrelationEvent)
    (k' : CorrelationConfig) : Prop :=
  ∀ first startKey agentRunId boundAt r rest k₁ k₂,
    es = first ++ .exec p c (.bindIfUnbound startKey agentRunId boundAt) r :: rest →
    Run Method.program (fallible Statement.exec) k first k₁ →
    Step Method.program (fallible Statement.exec) k₁
      (.exec p c (.bindIfUnbound startKey agentRunId boundAt) r) k₂ →
    Run Method.program (fallible Statement.exec) k₂ rest k' →
    ∀ row, k₁.shared.select startKey = some row →
      row.agentRunId = none ∨ row.agentRunId = some agentRunId

/-- The returned row is the one of the start, bound to the run that was passed. -/
def Honest (input : BindTsukaiRunCorrelationInput)
    (record : Option TsukaiRunCorrelationRecord) : Prop :=
  ∃ row, record = some row ∧ row.startKey = input.startKey ∧
    row.agentRunId = some input.agentRunId

theorem BindsUnraced.honest
    (hunraced : BindsUnraced p (.bindTsukaiRunCorrelation input now) k es k')
    (hrun : Run Method.program (fallible Statement.exec) k es k')
    (hes : Uninterrupted p (.bindTsukaiRunCorrelation input now) es)
    (hleaves : (bindTsukaiRunCorrelation input now).run.Leaves (answers p es) (.pure (.ok record))) :
    Honest input record := by
  rcases leaves_bindTsukaiRunCorrelation hleaves with ⟨existing, ha, rfl, hsame⟩ |
    ⟨existing, boundAt, n, ha⟩
  · obtain ⟨first, rest, k₁, k₂, -, -, hread, -, -, -⟩ := hrun.at_answer hes ha
    obtain ⟨hrow, -⟩ := step_select hread
    exact ⟨existing, rfl, (CorrelationTable.select_eq_some_iff.1 hrow.symm).2, hsame⟩
  · obtain ⟨first, rest, k₁, k₂, rfl, hfirst, hread, hrest, hes₂, ha₂⟩ := hrun.at_answer hes ha
    obtain ⟨hrow, hkept⟩ := step_select hread
    obtain ⟨second, rest₂, k₃, k₄, rfl, hsecond, hupdate, hrest₂, hes₃, ha₃⟩ :=
      hrest.at_answer hes₂ ha₂
    obtain ⟨row₃, hrow₃, -⟩ := run_keeps hsecond _ existing (by rw [hkept, ← hrow])
    have hmet := hunraced (first ++ .exec p _ (.select _) _ :: second) _ _ _ _ rest₂ k₃ k₄
      (by simp) (hfirst.append ((Run.single hread).append hsecond)) hupdate hrest₂ row₃ hrow₃
    have hkey := (CorrelationTable.select_eq_some_iff.1 hrow₃).2
    have hown : (CorrelationTable.bindRow input.startKey input.agentRunId boundAt row₃).agentRunId =
        some input.agentRunId := by
      rcases hmet with hnone | hown
      · exact CorrelationTable.bindRow_of_unbound hkey hnone
      · rw [CorrelationTable.bindRow_of_bound (by simp [hown]), hown]
    obtain ⟨third, rest₃, k₅, k₆, -, hthird, hread₂, -, -, -⟩ := hrest₂.at_answer hes₃ ha₃
    obtain ⟨row₅, hrow₅, hstable⟩ := run_keeps hthird _ _ (step_bindIfUnbound hupdate hrow₃)
    obtain ⟨hrecord, -⟩ := step_select hread₂
    exact ⟨row₅, by rw [hrecord, hrow₅], (CorrelationTable.select_eq_some_iff.1 hrow₅).2,
      hstable.agentRunId hown⟩

/-- If the row that was handed back is the caller's own, its update was unraced. -/
theorem Honest.bindsUnraced (hhonest : Honest input record)
    (hes : Uninterrupted p (.bindTsukaiRunCorrelation input now) es)
    (hleaves : (bindTsukaiRunCorrelation input now).run.Leaves (answers p es) (.pure (.ok record))) :
    BindsUnraced p (.bindTsukaiRunCorrelation input now) k es k' := by
  rintro first startKey agentRunId boundAt r rest k₁ k₂ rfl - hupdate hrest row hrow
  rw [answers_exec_between] at hleaves
  rcases leaves_bindTsukaiRunCorrelation hleaves with ⟨existing, ha, -, -⟩ |
    ⟨existing, boundAt', n, ha⟩
  · exact absurd ha (by simp [List.append_eq_cons_iff])
  · obtain ⟨-, hsame, ha'⟩ := middle_of_three ha (by simp) (by simp)
    cases hsame
    have hes' : Uninterrupted p (.bindTsukaiRunCorrelation input now) rest :=
      fun e he => hes e (by simp [he])
    obtain ⟨second, rest₂, k₃, k₄, -, hsecond, hread, -, -, -⟩ := hrest.at_answer hes' ha'
    obtain ⟨hrecord, -⟩ := step_select hread
    obtain ⟨row', hrow', hstable⟩ := run_keeps ((Run.single hupdate).append hsecond) _ row hrow
    obtain ⟨row'', rfl, -, hown⟩ := hhonest
    obtain rfl := Option.some.inj (hrecord.trans hrow')
    cases hbound : row.agentRunId with
    | none => exact Or.inl rfl
    | some other => exact Or.inr ((hstable.agentRunId hbound).symm.trans hown)

/-- From any configuration on, every interleaving of the methods keeps the rows, and
binds no run to two starts. A bind that returns hands back the row of its own run
exactly when its update found the start without a run, or with that run. -/
theorem correlation_kept (h : Run Method.program (fallible Statement.exec) k es k') :
    Keeps k.shared k'.shared ∧
    (∀ a ∈ k'.shared.rows, ∀ b ∈ k'.shared.rows, a.agentRunId = b.agentRunId →
      a.agentRunId ≠ none → a = b) ∧
    ∀ p input now record k₁ k₂,
      Step Method.program (fallible Statement.exec) k₁
        (.invoke p (.bindTsukaiRunCorrelation input now)) k →
      Uninterrupted p (.bindTsukaiRunCorrelation input now) es →
      Step Method.program (fallible Statement.exec) k'
        (.response p (.bindTsukaiRunCorrelation input now) (.ok record)) k₂ →
      (Honest input record ↔ BindsUnraced p (.bindTsukaiRunCorrelation input now) k es k') := by
  refine ⟨run_keeps h, fun a ha b hb hsame hsome => ?_, ?_⟩
  · exact k'.shared.eq_of_agentRunId ha hb hsame hsome
  · intro p input now record k₁ k₂ hinvoke hes hresponse
    have hleaves := h.leaves_response hinvoke hes hresponse
    exact ⟨fun hhonest => hhonest.bindsUnraced hes hleaves,
      fun hunraced => hunraced.honest h hes hleaves⟩

end Runs

section Race

/-- Two processes have read a start without a run before either binds its own. -/
def bindRace : List (Move Method String) :=
  [.invoke 0 (.reserveTsukaiRunCorrelation ⟨"session-1:attempt:0", "session-1", none⟩ 10),
    .exec 0, .exec 0, .respond 0,
    .invoke 1 (.bindTsukaiRunCorrelation ⟨"session-1:attempt:0", "run-a", none⟩ 20), .exec 1,
    .invoke 2 (.bindTsukaiRunCorrelation ⟨"session-1:attempt:0", "run-b", none⟩ 21), .exec 2,
    .exec 1, .exec 1, .respond 1, .exec 2, .exec 2, .respond 2]

/-- A bind has returned the row of a start that is bound to another run. -/
def bindsOtherRun : Event Method Statement (fun op => Except String op.Value)
    (Except String (Option TsukaiRunCorrelationRecord)) → Bool
  | .response _ (.bindTsukaiRunCorrelation input _) (.ok (some record)) =>
      record.agentRunId ≠ some input.agentRunId
  | _ => false

/-- The loser of the race returns normally, with the row of the winner. -/
theorem loser_bound_to_other_run :
    ∃ es k, Run Method.program (fallible Statement.exec) (.idle .empty) es k ∧
      ∃ p input now record,
        .response p (.bindTsukaiRunCorrelation input now) (.ok (some record)) ∈ es ∧
        record.agentRunId ≠ some input.agentRunId := by
  obtain ⟨es, k, hrun, hfound⟩ := Config.exists_run Method.program Statement.exec (.idle .empty)
    bindRace (fun outcome => outcome.1.any bindsOtherRun) (b := true) (by decide)
  refine ⟨es, k, hrun, ?_⟩
  obtain ⟨e, he, hwrong⟩ := List.any_eq_true.1 hfound
  unfold bindsOtherRun at hwrong
  split at hwrong
  · exact ⟨_, _, _, _, he, of_decide_eq_true hwrong⟩
  · cases hwrong

theorem correlation_kept_bindRace :
    ∃ es k es' k', Run Method.program (fallible Statement.exec) (.idle .empty) es k ∧
      Run Method.program (fallible Statement.exec) k es' k' ∧
      k.shared.rows.map (·.agentRunId) = [none] ∧
      k'.shared.rows.map (·.agentRunId) = [some "run-a"] ∧ Keeps k.shared k'.shared := by
  obtain ⟨es, k, es', k', hrun, hrun', hrows⟩ := Config.exists_two_runs Method.program
    Statement.exec (.idle .empty) (bindRace.take 8) (bindRace.drop 8)
    (fun k k' => (k.shared.rows.map (·.agentRunId), k'.shared.rows.map (·.agentRunId)))
    (b := ([none], [some "run-a"])) (by decide)
  obtain ⟨hfirst, hsecond⟩ := Prod.mk.inj hrows
  exact ⟨es, k, es', k', hrun, hrun', hfirst, hsecond, (correlation_kept hrun').1⟩

end Race

end Mottainai.TsukaiCorrelation

namespace Mottainai.TsukaiRuns

/-- `RunSnapshot["lifecycle"]`, as far as the Manager tells the values apart. -/
inductive RunLifecycle where
  | accepted
  | starting
  | running
  | stopping
  | terminal
  | other (text : String)
  deriving DecidableEq, Repr

def RunLifecycle.text : RunLifecycle → String
  | accepted => "accepted"
  | starting => "starting"
  | running => "running"
  | stopping => "stopping"
  | terminal => "terminal"
  | other text => text

/-- `RunSnapshot["outcome"]`. -/
inductive RunOutcome where
  | completed
  | cancelled
  | other (text : String)
  deriving DecidableEq, Repr

def RunOutcome.text : RunOutcome → String
  | completed => "completed"
  | cancelled => "cancelled"
  | other text => text

/-- `RunSnapshot["completeness"]`. -/
inductive RunCompleteness where
  | complete
  | incomplete
  | other (text : String)
  deriving DecidableEq, Repr

/-- What Tsukai reports about a run and may change by itself. Of the recovery the
Manager reads the number of gaps, and of the receipt the exit code. -/
structure RunStatus where
  lifecycle : RunLifecycle
  semantic : String
  activity : String
  outcome : Option RunOutcome := none
  reason : Option String := none
  completeness : RunCompleteness := .complete
  recoveryGaps : Option ℕ := none
  exitCode : Option ℤ := none
  deriving DecidableEq, Repr

structure RunMetadata where
  startKey : Option String
  managerSessionId : Option String
  deriving DecidableEq, Repr

structure RunSnapshot extends RunStatus where
  agentRunId : String
  metadata : RunMetadata
  deriving DecidableEq, Repr

def RunSnapshot.identity (run : RunSnapshot) : String × RunMetadata := (run.agentRunId, run.metadata)

/-- How Tsukai may move one run by itself. -/
structure RunSnapshot.Moves (run run' : RunSnapshot) : Prop where
  identity : run'.identity = run.identity
  terminal : run.lifecycle = .terminal → run'.lifecycle = .terminal

theorem RunSnapshot.Moves.refl (run : RunSnapshot) : run.Moves run := ⟨rfl, id⟩

theorem RunSnapshot.Moves.trans {a b c : RunSnapshot} (hab : a.Moves b) (hbc : b.Moves c) :
    a.Moves c :=
  ⟨hbc.identity.trans hab.identity, fun h => hbc.terminal (hab.terminal h)⟩

theorem RunSnapshot.Moves.startKey {run run' : RunSnapshot} (h : run.Moves run') :
    run'.metadata.startKey = run.metadata.startKey :=
  congrArg (fun identity => identity.2.startKey) h.identity

structure RunWorkspace where
  cwd : String
  workspaceSessionId : String
  deriving DecidableEq, Repr

structure CreateRunInput where
  instruction : String
  metadata : RunMetadata
  workspace : RunWorkspace
  deriving DecidableEq, Repr

/-- What Tsukai draws when it accepts a run: an id and the first status. -/
structure Acceptance where
  agentRunId : String
  status : RunStatus
  deriving DecidableEq, Repr

def Acceptance.run (acceptance : Acceptance) (input : CreateRunInput) : RunSnapshot :=
  { acceptance.status with agentRunId := acceptance.agentRunId, metadata := input.metadata }

structure RunPage where
  items : List RunSnapshot
  nextCursor : Option ℕ
  deriving DecidableEq, Repr

structure Tsukai where
  runs : List RunSnapshot
  agentRunId_unique : (runs.map (·.agentRunId)).Nodup

namespace Tsukai

def empty : Tsukai := ⟨[], List.nodup_nil⟩

/-- `runs.list({ limit, cursor })`. -/
def list (tsukai : Tsukai) (limit : ℕ) (cursor : Option ℕ) : RunPage where
  items := (tsukai.runs.drop (cursor.getD 0)).take limit
  nextCursor :=
    if cursor.getD 0 + limit < tsukai.runs.length then some (cursor.getD 0 + limit) else none

def find (tsukai : Tsukai) (agentRunId : String) : Option RunSnapshot :=
  tsukai.runs.find? (fun run => run.agentRunId = agentRunId)

/-- `runs.get(agentRunId)`. -/
def get (tsukai : Tsukai) (agentRunId : String) : Except String RunSnapshot :=
  match tsukai.find agentRunId with
  | some run => .ok run
  | none => .error s!"run not found: {agentRunId}"

/-- `runs.create(input)`. -/
def create (tsukai : Tsukai) (input : CreateRunInput) (acceptance : Acceptance) :
    Except String (RunSnapshot × Tsukai) :=
  if h : ((tsukai.runs ++ [acceptance.run input]).map (·.agentRunId)).Nodup then
    .ok (acceptance.run input, ⟨tsukai.runs ++ [acceptance.run input], h⟩)
  else .error s!"run exists: {acceptance.agentRunId}"

/-- A cancelled run takes the status that Tsukai gives it, unless it has ended before. -/
def cancelRun (agentRunId : String) (status : RunStatus) (run : RunSnapshot) : RunSnapshot :=
  if run.agentRunId = agentRunId ∧ run.lifecycle ≠ .terminal then
    { status with agentRunId := run.agentRunId, metadata := run.metadata }
  else run

theorem cancelRun_moves (agentRunId : String) (status : RunStatus) (run : RunSnapshot) :
    run.Moves (cancelRun agentRunId status run) := by
  unfold cancelRun
  split_ifs with h
  · exact ⟨rfl, fun hterminal => absurd hterminal h.2⟩
  · exact .refl run

theorem cancelRun_agentRunId (agentRunId : String) (status : RunStatus) (run : RunSnapshot) :
    (cancelRun agentRunId status run).agentRunId = run.agentRunId :=
  congrArg Prod.fst (cancelRun_moves agentRunId status run).identity

/-- `runs.cancel(agentRunId)`. -/
def cancel (tsukai : Tsukai) (agentRunId : String) (status : RunStatus) :
    Except String (RunSnapshot × Tsukai) :=
  match tsukai.find agentRunId with
  | some run => .ok (cancelRun agentRunId status run,
      { runs := tsukai.runs.map (cancelRun agentRunId status)
        agentRunId_unique := by
          simpa only [List.map_map, Function.comp_def, cancelRun_agentRunId] using
            tsukai.agentRunId_unique })
  | none => .error s!"run not found: {agentRunId}"

def Moves (tsukai tsukai' : Tsukai) : Prop :=
  List.Forall₂ RunSnapshot.Moves tsukai.runs tsukai'.runs

variable {tsukai tsukai' tsukai'' : Tsukai} {run run' : RunSnapshot}

theorem Moves.refl (tsukai : Tsukai) : tsukai.Moves tsukai :=
  List.forall₂_same.2 fun run _ => .refl run

section

variable (h : tsukai.Moves tsukai')
include h

theorem Moves.trans (h' : tsukai'.Moves tsukai'') : tsukai.Moves tsukai'' := by
  unfold Moves at *
  generalize tsukai.runs = runs at h
  generalize tsukai'.runs = runs' at h h'
  generalize tsukai''.runs = runs'' at h'
  induction h generalizing runs'' with
  | nil =>
    cases h'
    exact .nil
  | cons hab _ ih =>
    cases h' with
    | cons hbc hrest => exact .cons (hab.trans hbc) (ih _ hrest)

theorem Moves.identities :
    tsukai'.runs.map RunSnapshot.identity = tsukai.runs.map RunSnapshot.identity := by
  unfold Moves at h
  generalize tsukai.runs = runs at h ⊢
  generalize tsukai'.runs = runs' at h ⊢
  induction h with
  | nil => rfl
  | cons hab _ ih => rw [List.map_cons, List.map_cons, hab.identity, ih]

theorem Moves.exists_before (hrun : run' ∈ tsukai'.runs) : ∃ run ∈ tsukai.runs, run.Moves run' := by
  unfold Moves at h
  generalize tsukai.runs = runs at h ⊢
  generalize tsukai'.runs = runs' at h hrun
  induction h with
  | nil => cases hrun
  | cons hab _ ih =>
    rcases List.mem_cons.1 hrun with rfl | hrun
    · exact ⟨_, List.mem_cons_self, hab⟩
    · obtain ⟨run, hmem, hmoves⟩ := ih hrun
      exact ⟨run, List.mem_cons_of_mem _ hmem, hmoves⟩

theorem Moves.exists_after (hrun : run ∈ tsukai.runs) : ∃ run' ∈ tsukai'.runs, run.Moves run' := by
  unfold Moves at h
  generalize tsukai.runs = runs at h hrun
  generalize tsukai'.runs = runs' at h ⊢
  induction h with
  | nil => cases hrun
  | cons hab _ ih =>
    rcases List.mem_cons.1 hrun with rfl | hrun
    · exact ⟨_, List.mem_cons_self, hab⟩
    · obtain ⟨run', hmem, hmoves⟩ := ih hrun
      exact ⟨run', List.mem_cons_of_mem _ hmem, hmoves⟩

end

variable {agentRunId : String}

theorem get_ok (h : tsukai.get agentRunId = .ok run) : run ∈ tsukai.runs := by
  unfold get at h
  split at h
  · rename_i found hfind
    cases h
    exact List.mem_of_find?_eq_some hfind
  · cases h

theorem create_ok {input : CreateRunInput} {acceptance : Acceptance}
    (h : tsukai.create input acceptance = .ok (run, tsukai')) :
    run = acceptance.run input ∧ tsukai'.runs = tsukai.runs ++ [run] := by
  unfold create at h
  split_ifs at h
  cases h
  exact ⟨rfl, rfl⟩

theorem cancel_ok {status : RunStatus} (h : tsukai.cancel agentRunId status = .ok (run, tsukai')) :
    tsukai.Moves tsukai' ∧ run ∈ tsukai'.runs ∧ run.agentRunId = agentRunId := by
  unfold cancel at h
  split at h
  · rename_i found hfind
    cases h
    have hmem := List.mem_of_find?_eq_some hfind
    have hid : found.agentRunId = agentRunId := by simpa using List.find?_some hfind
    refine ⟨?_, List.mem_map_of_mem hmem, (cancelRun_agentRunId ..).trans hid⟩
    exact List.forall₂_map_right_iff.2 (List.forall₂_same.2 fun run _ => cancelRun_moves ..)
  · cases h

theorem eq_of_agentRunId (h : run ∈ tsukai.runs) (h' : run' ∈ tsukai.runs)
    (hid : run.agentRunId = run'.agentRunId) : run = run' :=
  List.inj_on_of_nodup_map tsukai.agentRunId_unique h h' hid

end Tsukai

end Mottainai.TsukaiRuns

namespace Mottainai.ManagerSession

open JavaScriptValues TaskLifecycle

/-- `MANAGER_AGENT_KINDS`. -/
inductive ManagerAgentKind where
  | codex
  | claude
  | pi
  deriving DecidableEq, Repr

def ManagerAgentKind.text : ManagerAgentKind → String
  | codex => "codex"
  | claude => "claude"
  | pi => "pi"

/-- `MANAGER_RUNTIME_STATES`. -/
inductive ManagerRuntimeState where
  | starting
  | running
  | detached
  | exited
  | failed
  | stopped
  | stale
  deriving DecidableEq, Repr

/-- `MANAGER_RECONCILIATION_STATES`. -/
inductive ManagerReconciliationState where
  | synced
  | drifted
  | unresolved
  deriving DecidableEq, Repr

/-- `MANAGER_SESSION_LIFECYCLE_STATES`. -/
inductive ManagerSessionLifecycleState where
  | starting
  | running
  | exited
  | stopped
  | failed
  deriving DecidableEq, Repr

def ManagerSessionLifecycleState.runtimeState : ManagerSessionLifecycleState → ManagerRuntimeState
  | starting => .starting
  | running => .running
  | exited => .exited
  | stopped => .stopped
  | failed => .failed

/-- `terminationState`. -/
inductive TerminationState where
  | running
  | exited
  | stopped
  | failed
  deriving DecidableEq, Repr

/-- The termination state of the same name, which is `running` until a session has ended. -/
def ManagerSessionLifecycleState.terminationState : ManagerSessionLifecycleState → TerminationState
  | starting => .running
  | running => .running
  | exited => .exited
  | stopped => .stopped
  | failed => .failed

/-- `semanticLifecycleState`. -/
inductive SemanticLifecycleState where
  | unbound
  | task (state : LifecycleState)
  deriving DecidableEq, Repr

def SemanticLifecycleState.text : SemanticLifecycleState → String
  | unbound => "unbound"
  | task state => state.text

/-- `isTerminalSemanticState`. -/
def isTerminalSemanticState : SemanticLifecycleState → Bool
  | .task .committed | .task .pushed | .task .pullRequestOpen | .task .merged
  | .task .abandoned | .task .cleaned => true
  | _ => false

/-- `isContinuableLifecycleState`. -/
def isContinuableLifecycleState : SemanticLifecycleState → Bool
  | .task .planned | .task .active => true
  | _ => false

inductive ReceiptSource where
  | manager
  | zellij
  | workflow
  | runtime
  deriving DecidableEq, Repr

structure ManagerSessionReceipt where
  code : String
  message : String
  source : ReceiptSource
  recordedAt : ℤ
  deriving DecidableEq, Repr

structure ManagerSessionRecord where
  sessionId : String
  taskId : Option String
  agentKind : ManagerAgentKind
  instruction : String
  provider : Option String
  model : Option String
  launchCommand : String
  launchArgs : List String
  lifecycleState : ManagerSessionLifecycleState
  runtimeState : ManagerRuntimeState
  semanticLifecycleState : SemanticLifecycleState
  attachable : Bool
  reconciliationState : ManagerReconciliationState
  reconciliationMessage : Option String
  latestStatus : Option String
  latestReceipt : Option ManagerSessionReceipt
  startedAt : ℤ
  updatedAt : ℤ
  finishedAt : Option ℤ
  runtimeObservedAt : Option ℤ
  restartCount : ℕ
  exitCode : Option ℤ
  terminationState : Option TerminationState
  errorMessage : Option String
  deriving DecidableEq, Repr

structure UpdateManagerSessionInput where
  instruction : Option String := none
  launchCommand : Option String := none
  launchArgs : Option (List String) := none
  lifecycleState : Option ManagerSessionLifecycleState := none
  runtimeState : Option ManagerRuntimeState := none
  semanticLifecycleState : Option SemanticLifecycleState := none
  attachable : Option Bool := none
  reconciliationState : Option ManagerReconciliationState := none
  reconciliationMessage : Option (Option String) := none
  latestStatus : Option (Option String) := none
  latestReceipt : Option ManagerSessionReceipt := none
  exitCode : Option (Option ℤ) := none
  finishedAt : Option (Option ℤ) := none
  runtimeObservedAt : Option (Option ℤ) := none
  restartCount : Option ℕ := none
  terminationState : Option TerminationState := none
  errorMessage : Option (Option String) := none
  deriving DecidableEq, Repr

/-- `MAX_STATUS_LENGTH`, and `MAX_MANAGER_DIAGNOSTIC_LENGTH` of the store. -/
def maxStatusLength : ℕ := 512

def boundedStatus (value : String) : String := slice maxStatusLength value

def receipt (code message : String) (source : ReceiptSource) (now : ℤ) : ManagerSessionReceipt :=
  ⟨code, slice maxStatusLength message, source, now⟩

/-- `managerDiagnostic`. -/
def managerDiagnostic (value : Option String) : Option String := value.map (slice maxStatusLength)

def storedReceipt (receipt : ManagerSessionReceipt) : ManagerSessionReceipt :=
  { receipt with message := slice maxStatusLength receipt.message }

/-- The row after `updateManagerSession`. -/
def UpdateManagerSessionInput.apply (input : UpdateManagerSessionInput)
    (current : ManagerSessionRecord) (now : ℤ) : ManagerSessionRecord :=
  { current with
    instruction := input.instruction.getD current.instruction
    launchCommand := input.launchCommand.getD current.launchCommand
    launchArgs := input.launchArgs.getD current.launchArgs
    lifecycleState := input.lifecycleState.getD current.lifecycleState
    runtimeState := input.runtimeState.getD current.runtimeState
    semanticLifecycleState := input.semanticLifecycleState.getD current.semanticLifecycleState
    attachable := input.attachable.getD current.attachable
    reconciliationState := input.reconciliationState.getD current.reconciliationState
    reconciliationMessage :=
      managerDiagnostic (input.reconciliationMessage.getD current.reconciliationMessage)
    latestStatus := managerDiagnostic (input.latestStatus.getD current.latestStatus)
    latestReceipt := (input.latestReceipt.or current.latestReceipt).map storedReceipt
    updatedAt := now
    finishedAt := input.finishedAt.getD current.finishedAt
    runtimeObservedAt := input.runtimeObservedAt.getD current.runtimeObservedAt
    restartCount := input.restartCount.getD current.restartCount
    exitCode := input.exitCode.getD current.exitCode
    terminationState := input.terminationState.or current.terminationState
    errorMessage := managerDiagnostic (input.errorMessage.getD current.errorMessage) }

/-- `receiptsAreEquivalent`. -/
def receiptsAreEquivalent : Option ManagerSessionReceipt → Option ManagerSessionReceipt → Bool
  | some left, some right =>
      decide (left.code = right.code ∧ left.message = right.message ∧ left.source = right.source)
  | none, none => true
  | _, _ => false

/-- A field that the update leaves alone or sets to the value it has. -/
def unchanged {A : Type} [DecidableEq A] (proposed : Option A) (current : A) : Bool :=
  proposed.all (· = current)

/-- `reconciliationPatchIsNoop`. -/
def reconciliationPatchIsNoop (current : ManagerSessionRecord)
    (patch : UpdateManagerSessionInput) : Bool :=
  unchanged patch.lifecycleState current.lifecycleState &&
  unchanged patch.runtimeState current.runtimeState &&
  unchanged patch.semanticLifecycleState current.semanticLifecycleState &&
  unchanged patch.attachable current.attachable &&
  unchanged patch.reconciliationState current.reconciliationState &&
  unchanged patch.reconciliationMessage current.reconciliationMessage &&
  unchanged patch.latestStatus current.latestStatus &&
  patch.latestReceipt.all (fun receipt => receiptsAreEquivalent (some receipt) current.latestReceipt) &&
  unchanged patch.finishedAt current.finishedAt &&
  patch.terminationState.all (fun state => some state = current.terminationState) &&
  unchanged patch.errorMessage current.errorMessage

/-- `checkpointManagerSessionRuntimeObservedAt`, on the row. -/
def checkpointRuntimeObservedAt (observedAt : ℤ) (current : ManagerSessionRecord) :
    ManagerSessionRecord :=
  { current with runtimeObservedAt := match current.runtimeObservedAt with
    | none => some observedAt
    | some recorded => if recorded < observedAt then some observedAt else some recorded }

/-- The columns of `createManagerSession` that the caller of a start chooses. -/
structure CreateManagerSessionInput where
  sessionId : String
  taskId : Option String
  agentKind : ManagerAgentKind
  instruction : String
  provider : Option String
  model : Option String
  launchCommand : String
  launchArgs : List String
  semanticLifecycleState : SemanticLifecycleState
  latestStatus : Option String
  latestReceipt : Option ManagerSessionReceipt
  deriving DecidableEq, Repr

/-- The row that `createManagerSession` inserts. -/
def CreateManagerSessionInput.row (input : CreateManagerSessionInput) (now : ℤ) :
    ManagerSessionRecord where
  sessionId := input.sessionId
  taskId := input.taskId
  agentKind := input.agentKind
  instruction := input.instruction
  provider := input.provider
  model := input.model
  launchCommand := input.launchCommand
  launchArgs := input.launchArgs
  lifecycleState := .starting
  runtimeState := .starting
  semanticLifecycleState := input.semanticLifecycleState
  attachable := false
  reconciliationState := .synced
  reconciliationMessage := none
  latestStatus := managerDiagnostic input.latestStatus
  latestReceipt := input.latestReceipt.map storedReceipt
  startedAt := now
  updatedAt := now
  finishedAt := none
  runtimeObservedAt := none
  restartCount := 0
  exitCode := none
  terminationState := none
  errorMessage := none

/-- `MAX_INSTRUCTION_LENGTH`. -/
def maxInstructionLength : ℕ := 64 * 1024

/-- The arguments of a managed Pi launch, after `buildManagerLaunchInvocation`. -/
def managerLaunchArgs (baseArgs : List String) (provider model : Option String)
    (piGuardPath instruction : String) : List String :=
  baseArgs ++ (provider.elim [] (["--provider", ·])) ++ (model.elim [] (["--model", ·])) ++
    ["--extension", piGuardPath, "--", instruction]

end Mottainai.ManagerSession

namespace Mottainai.ManagerOperations

open Interleaving JavaScriptValues TsukaiCorrelation TsukaiRuns ManagerSession

/-- The codes of a `ManagerError` that occur here. -/
inductive ManagerErrorCode where
  | invalidRequest
  | runtimeError
  | runtimeIdentityCollision
  | sessionNotFound
  | sessionNotRunning
  | sessionRestartRejected
  | sessionContinueRejected
  | executionUnresolved
  | worktreeMissing
  | piGuardUnavailable
  | agentRunCapabilityUnsupported
  deriving DecidableEq, Repr

/-- What is thrown: a plain error, a `ManagerError`, or a `HarnessCapabilityError`. -/
inductive Failure where
  | error (message : String)
  | manager (code : ManagerErrorCode) (message : String) (statusCode : ℕ)
  | capability (message : String)
  deriving DecidableEq, Repr

def Failure.message : Failure → String
  | error message => message
  | manager _ message _ => message
  | capability message => message

/-- `managerError`; errors of Zellij do not occur here. -/
def managerError : Failure → Failure
  | .manager code message statusCode => .manager code message statusCode
  | failure =>
    if "manager Runtime identity collision".toList <:+: failure.message.toList then
      .manager .runtimeIdentityCollision (boundedStatus failure.message) 409
    else .manager .runtimeError (boundedStatus failure.message) 500

inductive AttachmentAuthority where
  | nawabari
  | none
  deriving DecidableEq, Repr

inductive ExecutionManifestAttachmentStatus where
  | attached
  | missing
  | stale
  | ambiguous
  | invalid
  deriving DecidableEq, Repr

structure ExecutionManifestPhysicalAttachment where
  sessionId : String
  worktree : String
  deriving DecidableEq, Repr

structure ExecutionManifestAttachment where
  authority : AttachmentAuthority
  status : ExecutionManifestAttachmentStatus
  physical : Option ExecutionManifestPhysicalAttachment
  deriving DecidableEq, Repr

/-- What a start reads of an execution manifest: the attachment, and
`intent.manager?.managerSessionId`. -/
structure ExecutionManifest where
  attachment : ExecutionManifestAttachment
  managerSessionId : Option String
  deriving DecidableEq, Repr

structure Observation where
  semanticLifecycleState : SemanticLifecycleState
  status : Option String := none
  receipt : Option ManagerSessionReceipt := none
  deriving DecidableEq, Repr

/-- What `execution.start` answers: the part of its context that a session records. -/
structure StartedExecution where
  taskId : Option String
  semanticLifecycleState : SemanticLifecycleState
  receipt : Option ManagerSessionReceipt := none
  deriving DecidableEq, Repr

/-- What the clock and the services are going to answer. A validation that is not ok
has a detail, and a rejected admission has the messages of its diagnostics. -/
structure Environment where
  clock : ℤ
  acceptances : List Acceptance
  cancelled : RunStatus
  observation : Observation
  validation : Option String
  admission : Except (List String) ExecutionManifest
  startedExecution : StartedExecution
  piGuardPath : String

/-- What a Manager process remembers: whether it is connected to Tsukai, and the
manifest it has admitted for the session. -/
structure Memory where
  tsukaiHandle : Bool := false
  admittedPiManifest : Option ExecutionManifest := none
  deriving DecidableEq, Repr

/-- The workflow store with the row of one session, Tsukai, the memory of the Manager
process, and the answers that are to come. -/
structure World where
  correlations : CorrelationTable
  session : Option ManagerSessionRecord
  tsukai : Tsukai
  memory : Memory
  environment : Environment

namespace World

/-- Nothing has been stored and no run has been created. -/
def initial (environment : Environment) : World where
  correlations := .empty
  session := none
  tsukai := .empty
  memory := {}
  environment := environment

/-- What happens between two operations. -/
structure Moves (world world' : World) : Prop where
  correlations : world'.correlations = world.correlations
  session : world'.session = world.session
  tsukai : world.tsukai.Moves world'.tsukai
  memory : world'.memory = world.memory

theorem Moves.refl (world : World) : world.Moves world := ⟨rfl, rfl, .refl _, rfl⟩

theorem Moves.trans {a b c : World} (hab : a.Moves b) (hbc : b.Moves c) : a.Moves c :=
  ⟨hbc.correlations.trans hab.correlations, hbc.session.trans hab.session,
    hab.tsukai.trans hbc.tsukai, hbc.memory.trans hab.memory⟩

end World

/-- Steps that read files or check their input. They change nothing, and all the model
says of them is that they may fail. -/
inductive Check where
  | launchPreparation
  | executionProfile
  | piExecutionContext
  | storedPiGuardInvocation
  deriving DecidableEq, Repr

inductive Operation where
  | now
  | check (check : Check)
  | store (method : Method)
  | getManagerSession (sessionId : String)
  | insertManagerSession (input : CreateManagerSessionInput)
  | updateManagerSession (sessionId : String) (input : UpdateManagerSessionInput)
  | checkpointRuntimeObservedAt (sessionId : String) (observedAt : ℤ)
  | list (limit : ℕ) (cursor : Option ℕ)
  | get (agentRunId : String)
  | create (input : CreateRunInput)
  | cancel (agentRunId : String)
  | wait (agentRunId : String)
  | steer (agentRunId directive : String)
  | tsukaiHandle
  | connectTsukai
  | admittedPiManifest
  | rememberPiManifest (manifest : ExecutionManifest)
  | boot
  | observe
  | validate
  | admitExecution
  | startExecution
  | configuredPiGuardPath

namespace Operation

abbrev Value : Operation → Type
  | now => ℤ
  | check _ => Unit
  | store _ => Option TsukaiRunCorrelationRecord
  | getManagerSession _ => Option ManagerSessionRecord
  | insertManagerSession _ => Unit
  | updateManagerSession _ _ => ManagerSessionRecord
  | checkpointRuntimeObservedAt _ _ => ManagerSessionRecord
  | list _ _ => RunPage
  | get _ => RunSnapshot
  | create _ => RunSnapshot
  | cancel _ => RunSnapshot
  | wait _ => Unit
  | steer _ _ => Empty
  | tsukaiHandle => Bool
  | connectTsukai => Unit
  | admittedPiManifest => Option ExecutionManifest
  | rememberPiManifest _ => Unit
  | boot => Unit
  | observe => Observation
  | validate => Option String
  | admitExecution => Except (List String) ExecutionManifest
  | startExecution => StartedExecution
  | configuredPiGuardPath => String

def row (world : World) (sessionId : String) : Option ManagerSessionRecord :=
  world.session.filter (·.sessionId = sessionId)

def insertRow (world : World) (input : CreateManagerSessionInput) : Except Failure Unit × World :=
  match world.session with
  | none => (.ok (), { world with session := some (input.row world.environment.clock) })
  | some _ => (.error (.error "UNIQUE constraint failed: manager_sessions.session_id"), world)

def updateRow (world : World) (sessionId : String)
    (set : ManagerSessionRecord → ManagerSessionRecord) :
    Except Failure ManagerSessionRecord × World :=
  match row world sessionId with
  | some current => (.ok (set current), { world with session := some (set current) })
  | none => (.error (.error s!"manager session not found: {sessionId}"), world)

def createRun (world : World) (input : CreateRunInput) : Except Failure RunSnapshot × World :=
  match world.environment.acceptances with
  | [] => (.error (.error "run was not accepted"), world)
  | acceptance :: acceptances =>
    match world.tsukai.create input acceptance with
    | .ok (run, tsukai) => (.ok run, { world with
        tsukai := tsukai, environment := { world.environment with acceptances := acceptances } })
    | .error message => (.error (.error message), world)

def cancelRun (world : World) (agentRunId : String) : Except Failure RunSnapshot × World :=
  match world.tsukai.cancel agentRunId world.environment.cancelled with
  | .ok (run, tsukai) => (.ok run, { world with tsukai := tsukai })
  | .error message => (.error (.error message), world)

def exec : (operation : Operation) → World → Except Failure operation.Value × World
  | now, world => (.ok world.environment.clock, world)
  | check _, world => (.ok (), world)
  | store method, world =>
      ((method.program.alone Statement.exec world.correlations).1.mapError .error,
        { world with correlations := (method.program.alone Statement.exec world.correlations).2 })
  | getManagerSession sessionId, world => (.ok (row world sessionId), world)
  | insertManagerSession input, world => insertRow world input
  | updateManagerSession sessionId input, world =>
      updateRow world sessionId fun current => input.apply current world.environment.clock
  | checkpointRuntimeObservedAt sessionId observedAt, world =>
      updateRow world sessionId (ManagerSession.checkpointRuntimeObservedAt observedAt)
  | list limit cursor, world => (.ok (world.tsukai.list limit cursor), world)
  | get agentRunId, world => ((world.tsukai.get agentRunId).mapError .error, world)
  | create input, world => createRun world input
  | cancel agentRunId, world => cancelRun world agentRunId
  | wait _, world => (.ok (), world)
  | steer _ _, world => (.error (.capability "steer is not supported"), world)
  | tsukaiHandle, world => (.ok world.memory.tsukaiHandle, world)
  | connectTsukai, world =>
      (.ok (), { world with memory := { world.memory with tsukaiHandle := true } })
  | admittedPiManifest, world => (.ok world.memory.admittedPiManifest, world)
  | rememberPiManifest manifest, world =>
      (.ok (), { world with memory := { world.memory with admittedPiManifest := some manifest } })
  | boot, world => (.ok (), { world with memory := {} })
  | observe, world => (.ok world.environment.observation, world)
  | validate, world => (.ok world.environment.validation, world)
  | admitExecution, world => (.ok world.environment.admission, world)
  | startExecution, world => (.ok world.environment.startedExecution, world)
  | configuredPiGuardPath, world => (.ok world.environment.piGuardPath, world)

variable (world : World) (operation : Operation)

theorem createRun_cases (input : CreateRunInput) :
    (∃ e, createRun world input = (.error e, world)) ∨
    ∃ run tsukai environment, createRun world input =
        (.ok run, { world with tsukai := tsukai, environment := environment }) ∧
      run.metadata = input.metadata ∧ tsukai.runs = world.tsukai.runs ++ [run] := by
  unfold createRun
  cases world.environment.acceptances with
  | nil => exact Or.inl ⟨_, rfl⟩
  | cons acceptance acceptances =>
    cases hcreate : world.tsukai.create input acceptance with
    | error message =>
      simp only [hcreate]
      exact Or.inl ⟨_, rfl⟩
    | ok result =>
      obtain ⟨run, tsukai⟩ := result
      obtain ⟨rfl, hruns⟩ := Tsukai.create_ok hcreate
      simp only [hcreate]
      exact Or.inr ⟨_, tsukai, _, rfl, rfl, hruns⟩

theorem cancelRun_cases (agentRunId : String) :
    (∃ e, cancelRun world agentRunId = (.error e, world)) ∨
    ∃ run tsukai, cancelRun world agentRunId = (.ok run, { world with tsukai := tsukai }) ∧
      world.tsukai.Moves tsukai ∧ run ∈ tsukai.runs ∧ run.agentRunId = agentRunId := by
  unfold cancelRun
  cases hcancel : world.tsukai.cancel agentRunId world.environment.cancelled with
  | error message => exact Or.inl ⟨_, rfl⟩
  | ok result => exact Or.inr ⟨result.1, result.2, rfl, Tsukai.cancel_ok hcancel⟩

theorem insertRow_cases (input : CreateManagerSessionInput) :
    (∃ e, insertRow world input = (.error e, world)) ∨
    world.session = none ∧ insertRow world input =
      (.ok (), { world with session := some (input.row world.environment.clock) }) := by
  unfold insertRow
  cases world.session with
  | none => exact Or.inr ⟨rfl, rfl⟩
  | some current => exact Or.inl ⟨_, rfl⟩

theorem updateRow_cases (sessionId : String) (set : ManagerSessionRecord → ManagerSessionRecord) :
    (∃ e, updateRow world sessionId set = (.error e, world)) ∨
    ∃ current, row world sessionId = some current ∧
      updateRow world sessionId set = (.ok (set current), { world with session := some (set current) }) := by
  unfold updateRow
  cases hrow : row world sessionId with
  | none => exact Or.inl ⟨_, rfl⟩
  | some current => exact Or.inr ⟨current, rfl, rfl⟩

theorem exec_keeps (world : World) :
    Keeps world.correlations (operation.exec world).2.correlations := by
  cases operation with
  | store method => exact method.alone_keeps _
  | updateManagerSession sessionId input =>
    rcases updateRow_cases world sessionId _ with ⟨e, heq⟩ | ⟨current, -, heq⟩ <;>
      rw [exec, heq] <;> exact .refl _
  | checkpointRuntimeObservedAt sessionId observedAt =>
    rcases updateRow_cases world sessionId _ with ⟨e, heq⟩ | ⟨current, -, heq⟩ <;>
      rw [exec, heq] <;> exact .refl _
  | insertManagerSession input =>
    rcases insertRow_cases world input with ⟨e, heq⟩ | ⟨-, heq⟩ <;> rw [exec, heq] <;> exact .refl _
  | create input =>
    rcases createRun_cases world input with ⟨e, heq⟩ | ⟨run, tsukai, environment, heq, -⟩ <;>
      rw [exec, heq] <;> exact .refl _
  | cancel agentRunId =>
    rcases cancelRun_cases world agentRunId with ⟨e, heq⟩ | ⟨run, tsukai, heq, -⟩ <;>
      rw [exec, heq] <;> exact .refl _
  | _ => exact .refl _

theorem exec_moves (world : World) (h : ∀ input, operation ≠ .create input) :
    world.tsukai.Moves (operation.exec world).2.tsukai := by
  cases operation with
  | create input => exact absurd rfl (h input)
  | cancel agentRunId =>
    rcases cancelRun_cases world agentRunId with ⟨e, heq⟩ | ⟨run, tsukai, heq, hmoves, -⟩
    · rw [exec, heq]
      exact .refl _
    · rw [exec, heq]
      exact hmoves
  | updateManagerSession sessionId input =>
    rcases updateRow_cases world sessionId _ with ⟨e, heq⟩ | ⟨current, -, heq⟩ <;>
      rw [exec, heq] <;> exact .refl _
  | checkpointRuntimeObservedAt sessionId observedAt =>
    rcases updateRow_cases world sessionId _ with ⟨e, heq⟩ | ⟨current, -, heq⟩ <;>
      rw [exec, heq] <;> exact .refl _
  | insertManagerSession input =>
    rcases insertRow_cases world input with ⟨e, heq⟩ | ⟨-, heq⟩ <;> rw [exec, heq] <;> exact .refl _
  | _ => exact .refl _

def writesSession : Operation → Bool
  | insertManagerSession _ | updateManagerSession _ _ | checkpointRuntimeObservedAt _ _ => true
  | _ => false

theorem exec_session (world : World) (h : operation.writesSession = false) :
    (operation.exec world).2.session = world.session := by
  cases operation with
  | insertManagerSession input => cases h
  | updateManagerSession sessionId input => cases h
  | checkpointRuntimeObservedAt sessionId observedAt => cases h
  | create input =>
    rcases createRun_cases world input with ⟨e, heq⟩ | ⟨run, tsukai, environment, heq, -⟩ <;>
      rw [exec, heq]
  | cancel agentRunId =>
    rcases cancelRun_cases world agentRunId with ⟨e, heq⟩ | ⟨run, tsukai, heq, -⟩ <;>
      rw [exec, heq]
  | _ => rfl

abbrev outcomes : Semantics Operation (fun operation => Except Failure operation.Value) World :=
  (fallible exec).after World.Moves

end Operation

abbrev Managing (α : Type) : Type := Throwing Operation Operation.Value Failure α

end Mottainai.ManagerOperations

namespace Mottainai.TsukaiStarter

open Interleaving JavaScriptValues ManagerSession TsukaiRuns ManagerOperations

/-- `LIST_PAGE_LIMIT`. -/
def listPageLimit : ℕ := 100

/-- `tsukaiStartKey`. -/
def tsukaiStartKey (managerSessionId : String) (attempt : ℕ) : Except Failure String :=
  if isSafeInteger attempt then .ok s!"{managerSessionId}:attempt:{attempt}"
  else .error (.error "Tsukai start attempt is invalid")

/-- `admittedTsukaiWorkspace`. -/
def admittedTsukaiWorkspace (manifest : ExecutionManifest) (managerSessionId : String) :
    Except Failure RunWorkspace :=
  match manifest.attachment with
  | ⟨.nawabari, .attached, some physical⟩ =>
    if manifest.managerSessionId ≠ some managerSessionId then
      .error (.error "execution manifest belongs to another Manager session")
    else .ok ⟨physical.worktree, physical.sessionId⟩
  | _ => .error (.error "execution manifest has no admitted Nawabari workspace")

/-- `TsukaiAgentRunStartInput`; of the session a start reads its id and its agent, and
the prompt is made from the instruction. -/
structure TsukaiAgentRunStartInput where
  startKey : String
  sessionId : String
  agentKind : ManagerAgentKind
  manifest : ExecutionManifest
  instruction : String
  deriving DecidableEq, Repr

/-- `TsukaiAgentRunStartResult`; its `agentRunId` is the one of the snapshot. -/
structure TsukaiAgentRunStartResult where
  snapshot : RunSnapshot
  created : Bool
  deriving DecidableEq, Repr

def matching (startKey : String) (page : RunPage) : Option RunSnapshot :=
  page.items.find? (fun run => run.metadata.startKey = some startKey)

theorem matching_some {startKey : String} {page : RunPage} {run : RunSnapshot}
    (h : matching startKey page = some run) :
    run ∈ page.items ∧ run.metadata.startKey = some startKey :=
  ⟨List.mem_of_find?_eq_some h, by simpa using List.find?_some h⟩

/-- `findCreatedRun`, from a cursor on. The bound is on the pages that a traversal may
fetch: a traversal that comes to its end does so within some bound, and one that
outruns its bound is given up like one whose process has crashed. -/
def findCreatedRun : ℕ → String → Option ℕ → Managing (Option RunSnapshot)
  | 0, _, _ => throw (.error "the list of runs has no end")
  | pages + 1, startKey, cursor => do
    let page ← request (Operation.list listPageLimit cursor)
    match matching startKey page with
    | some run => pure (some run)
    | none =>
      match page.nextCursor with
      | some cursor => findCreatedRun pages startKey (some cursor)
      | none => pure none

/-- `verifyOwnership`. -/
def verifyOwnership (snapshot : RunSnapshot) (startKey managerSessionId : String) :
    Except Failure Unit :=
  if snapshot.metadata.startKey ≠ some startKey ∨
      snapshot.metadata.managerSessionId ≠ some managerSessionId then
    .error (.error s!"Tsukai AgentRun {snapshot.agentRunId} is not correlated with start {startKey}")
  else .ok ()

theorem verifyOwnership_ok {snapshot : RunSnapshot} {startKey managerSessionId : String}
    (h : verifyOwnership snapshot startKey managerSessionId = .ok ()) :
    snapshot.metadata = ⟨some startKey, some managerSessionId⟩ := by
  unfold verifyOwnership at h
  split_ifs at h with howned
  obtain ⟨hkey, hsession⟩ := not_or.1 howned
  rw [← not_not.1 hkey, ← not_not.1 hsession]

/-- `bindTsukaiRunCorrelation`, as the starter calls it. -/
def bindStart (startKey agentRunId : String) : Managing Unit := do
  let now ← request Operation.now
  let _ ← request (Operation.store (.bindTsukaiRunCorrelation ⟨startKey, agentRunId, none⟩ now))

section Starter

variable (pages : ℕ)

/-- `recover`. -/
def recover (startKey managerSessionId : String) : Managing (Option RunSnapshot) := do
  let correlation ← request (Operation.store (.getTsukaiRunCorrelation startKey))
  match correlation with
  | none => pure none
  | some correlation =>
    if correlation.managerSessionId ≠ managerSessionId then
      throw (.error s!"tsukai start {startKey} is correlated with another Manager session")
    else match correlation.agentRunId with
      | some agentRunId => do
        let snapshot ← request (Operation.get agentRunId)
        verifyOwnership snapshot startKey managerSessionId
        pure (some snapshot)
      | none => do
        let orphan ← findCreatedRun pages startKey none
        match orphan with
        | none => pure none
        | some orphan => do
          verifyOwnership orphan startKey managerSessionId
          bindStart startKey orphan.agentRunId
          pure (some orphan)

/-- The last step of `startOnce`: create the run and bind it. -/
def createAndBind (input : TsukaiAgentRunStartInput) (workspace : RunWorkspace) :
    Managing TsukaiAgentRunStartResult := do
  let snapshot ← request (Operation.create
    ⟨input.instruction, ⟨some input.startKey, some input.sessionId⟩, workspace⟩)
  bindStart input.startKey snapshot.agentRunId
  pure ⟨snapshot, true⟩

/-- `startOnce`. -/
def startOnce (input : TsukaiAgentRunStartInput) : Managing TsukaiAgentRunStartResult := do
  if input.agentKind ≠ .pi then
    throw (.error s!"Tsukai start supports the pi agent only, not {input.agentKind.text}")
  else do
    let workspace ← admittedTsukaiWorkspace input.manifest input.sessionId
    request (Operation.check .executionProfile)
    let now ← request Operation.now
    let _ ← request (Operation.store
      (.reserveTsukaiRunCorrelation ⟨input.startKey, input.sessionId, none⟩ now))
    let existing ← recover pages input.startKey input.sessionId
    match existing with
    | some existing => pure ⟨existing, false⟩
    | none => createAndBind input workspace

end Starter

end Mottainai.TsukaiStarter

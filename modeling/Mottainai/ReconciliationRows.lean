import Mottainai.InterleavingRow
import Mottainai.JavaScriptValues

/-!
# Rows that make a push, a commit and a close recoverable

None of the methods that write these rows opens a transaction, so each statement is a step.
Identity, result and end of a push survive every interleaving, because each update carries the
condition that protects them. The updates of the row of a commit carry none, and of the row that
hands a merged pull request over to the close of its session only the closed state is protected.
-/

namespace Mottainai.PushReconciliation

open Interleaving JavaScriptValues

/-- `PUSH_RECONCILIATION_STATES`. -/
inductive PushReconciliationState where
  | prepared
  | attempting
  | succeeded
  | ambiguous
  | reconciled
  deriving DecidableEq, Repr

/-- `PushReconciliationRecord`. -/
structure PushReconciliationRecord where
  operationId : String
  taskId : String
  instanceId : String
  nawabariSessionId : String
  sourceCommit : String
  remote : String
  targetBranch : String
  targetRef : String
  forceRequested : Bool
  createUpstream : Bool
  state : PushReconciliationState
  observedRemoteSha : Option String
  recoveryObservedRemoteSha : Option String
  resultRemoteSha : Option String
  relation : Option String
  evidenceComplete : Bool
  detail : Option String
  createdAt : ℤ
  updatedAt : ℤ
  deriving DecidableEq, Repr

/-- `BeginPushReconciliationInput`, but for the task. -/
structure BeginPushReconciliationInput where
  instanceId : String
  nawabariSessionId : String
  sourceCommit : String
  remote : String
  targetBranch : String
  targetRef : String
  forceRequested : Bool
  createUpstream : Bool
  createdAt : Option ℤ := none
  deriving DecidableEq, Repr

/-- `RecordPushResultInput`, but for the task. -/
structure RecordPushResultInput where
  sourceCommit : String
  remote : String
  targetBranch : String
  targetRef : String
  observedRemoteSha : Option String := none
  recoveryObservedRemoteSha : Option String := none
  resultRemoteSha : String
  relation : String
  evidenceComplete : Bool
  recordedAt : Option ℤ := none
  deriving DecidableEq, Repr

/-- What the `INSERT` statement stores. -/
structure Intent where
  operationId : String
  taskId : String
  input : BeginPushReconciliationInput
  now : ℤ

/-- The `UPDATE` statements. -/
inductive Update where
  | attempting (now : ℤ)
  | recovery (input : RecordPushResultInput) (recordedAt : ℤ)
  | result (input : RecordPushResultInput) (recordedAt : ℤ)
  | ambiguous (detail : String) (now : ℤ)
  | reconciled (now : ℤ)

def Intent.row (intent : Intent) : PushReconciliationRecord where
  operationId := intent.operationId
  taskId := intent.taskId
  instanceId := intent.input.instanceId
  nawabariSessionId := intent.input.nawabariSessionId
  sourceCommit := intent.input.sourceCommit
  remote := intent.input.remote
  targetBranch := intent.input.targetBranch
  targetRef := intent.input.targetRef
  forceRequested := intent.input.forceRequested
  createUpstream := intent.input.createUpstream
  state := .prepared
  observedRemoteSha := none
  recoveryObservedRemoteSha := none
  resultRemoteSha := none
  relation := none
  evidenceComplete := false
  detail := none
  createdAt := intent.now
  updatedAt := intent.now

/-- The `WHERE` part of an update, beyond the task. -/
def Update.applies : Update → PushReconciliationRecord → Bool
  | .attempting _, row => row.state = .prepared
  | .recovery _ _, _ => true
  | .result _ _, row => row.resultRemoteSha.isNone
  | .ambiguous _ _, row => row.state ≠ .reconciled
  | .reconciled _, row => (row.state = .succeeded || row.state = .ambiguous) &&
      row.resultRemoteSha.isSome && row.evidenceComplete

/-- The `SET` part of an update. -/
def Update.set : Update → PushReconciliationRecord → PushReconciliationRecord
  | .attempting now, row => { row with state := .attempting, updatedAt := now }
  | .recovery input recordedAt, row => { row with
      recoveryObservedRemoteSha := input.recoveryObservedRemoteSha, updatedAt := recordedAt }
  | .result input recordedAt, row => { row with
      state := .succeeded, observedRemoteSha := input.observedRemoteSha,
      resultRemoteSha := some input.resultRemoteSha, relation := some input.relation,
      evidenceComplete := input.evidenceComplete, updatedAt := recordedAt }
  | .ambiguous detail now, row => { row with
      state := .ambiguous, detail := some detail, updatedAt := now }
  | .reconciled now, row => { row with state := .reconciled, detail := none, updatedAt := now }

/-- The row of one task in `push_reconciliations`. -/
def schema : RowSchema PushReconciliationRecord Intent Update where
  row := Intent.row
  applies := Update.applies
  set := Update.set

abbrev Statement : Type := RowStatement Intent Update

/-- What a method answers. `getPushReconciliation(taskId)!` may be `undefined`. -/
abbrev Method : Type :=
  RowProgram PushReconciliationRecord Intent Update (Option PushReconciliationRecord)

def mismatches (fields : List (Bool × String)) : List String :=
  (fields.filter (·.1)).map (·.2)

def identityMismatch (names : List String) : String :=
  "push reconciliation identity mismatch: " ++ ", ".intercalate names

def beginMismatches (existing : PushReconciliationRecord) (input : BeginPushReconciliationInput) :
    List String :=
  mismatches
    [(existing.instanceId ≠ input.instanceId, "instance"),
      (existing.nawabariSessionId ≠ input.nawabariSessionId, "Nawabari session"),
      (existing.sourceCommit ≠ input.sourceCommit, "source commit"),
      (existing.remote ≠ input.remote, "remote"),
      (existing.targetBranch ≠ input.targetBranch, "target branch"),
      (existing.targetRef ≠ input.targetRef, "target ref")]

/-- The comparison of `assertPushIdentity`. -/
def resultMismatches (existing : PushReconciliationRecord) (input : RecordPushResultInput) :
    List String :=
  mismatches
    [(existing.sourceCommit ≠ input.sourceCommit, "source commit"),
      (existing.remote ≠ input.remote, "remote"),
      (existing.targetBranch ≠ input.targetBranch, "target branch"),
      (existing.targetRef ≠ input.targetRef, "target ref")]

section Methods

variable (taskId : String)

/-- `beginPushReconciliation`; `operationId` is the random UUID. -/
def beginPushReconciliation (operationId : String) (input : BeginPushReconciliationInput)
    (now : ℤ) : Method := do
  let existing ← request (RowStatement.select : Statement)
  match existing with
  | some existing =>
    if 0 < (beginMismatches existing input).length then
      throw (identityMismatch (beginMismatches existing input))
    else pure (some existing)
  | none => do
    request (RowStatement.insert ⟨operationId, taskId, input, input.createdAt.getD now⟩ : Statement)
    request (RowStatement.select : Statement)

/-- An update whose affected-row count is inspected, but only to tell a missing row. -/
def updateOrKeep (update : Update) : Method := do
  let changes ← request (RowStatement.update update : Statement)
  if changes = 0 then do
    let existing ← request (RowStatement.select : Statement)
    match existing with
    | none => throw s!"push reconciliation not found: {taskId}"
    | some existing => pure (some existing)
  else request (RowStatement.select : Statement)

/-- `markPushAttempting`. -/
def markPushAttempting (updatedAt : Option ℤ) (now : ℤ) : Method :=
  updateOrKeep taskId (.attempting (updatedAt.getD now))

/-- `markPushAmbiguous`. -/
def markPushAmbiguous (detail : String) (updatedAt : Option ℤ) (now : ℤ) : Method :=
  updateOrKeep taskId (.ambiguous (slice 512 detail) (updatedAt.getD now))

/-- `markPushReconciled`. -/
def markPushReconciled (updatedAt : Option ℤ) (now : ℤ) : Method :=
  updateOrKeep taskId (.reconciled (updatedAt.getD now))

/-- `recordPushResult`. -/
def recordPushResult (input : RecordPushResultInput) (now : ℤ) : Method := do
  let existing ← request (RowStatement.select : Statement)
  match existing with
  | none => throw s!"push reconciliation not found: {taskId}"
  | some existing =>
    if 0 < (resultMismatches existing input).length then
      throw (identityMismatch (resultMismatches existing input))
    else if existing.resultRemoteSha.isSome then
      if input.recoveryObservedRemoteSha.isSome then do
        let _ ← request
          (RowStatement.update (.recovery input (input.recordedAt.getD now)) : Statement)
        request (RowStatement.select : Statement)
      else if existing.resultRemoteSha ≠ some input.resultRemoteSha ∨
          existing.observedRemoteSha ≠ input.observedRemoteSha ∨
          existing.relation ≠ some input.relation then
        throw s!"push reconciliation result mismatch: {taskId}"
      else pure (some existing)
    else do
      let _ ← request
        (RowStatement.update (.result input (input.recordedAt.getD now)) : Statement)
      request (RowStatement.select : Statement)

end Methods

inductive PushCall where
  | beginPush (operationId : String) (input : BeginPushReconciliationInput) (now : ℤ)
  | markPushAttempting (updatedAt : Option ℤ) (now : ℤ)
  | recordPushResult (input : RecordPushResultInput) (now : ℤ)
  | markPushAmbiguous (detail : String) (updatedAt : Option ℤ) (now : ℤ)
  | markPushReconciled (updatedAt : Option ℤ) (now : ℤ)

def PushCall.program (taskId : String) : PushCall → Program Statement
    (fun op => Except String (op.Value PushReconciliationRecord))
    (Except String (Option PushReconciliationRecord))
  | beginPush operationId input now => (beginPushReconciliation taskId operationId input now).run
  | markPushAttempting updatedAt now => (PushReconciliation.markPushAttempting taskId updatedAt now).run
  | recordPushResult input now => (PushReconciliation.recordPushResult taskId input now).run
  | markPushAmbiguous detail updatedAt now =>
      (PushReconciliation.markPushAmbiguous taskId detail updatedAt now).run
  | markPushReconciled updatedAt now =>
      (PushReconciliation.markPushReconciled taskId updatedAt now).run

structure PushIdentity where
  operationId : String
  taskId : String
  instanceId : String
  nawabariSessionId : String
  sourceCommit : String
  remote : String
  targetBranch : String
  targetRef : String
  forceRequested : Bool
  createUpstream : Bool
  createdAt : ℤ

def PushReconciliationRecord.identity (row : PushReconciliationRecord) : PushIdentity :=
  ⟨row.operationId, row.taskId, row.instanceId, row.nawabariSessionId, row.sourceCommit,
    row.remote, row.targetBranch, row.targetRef, row.forceRequested, row.createUpstream,
    row.createdAt⟩

def Sound (row : PushReconciliationRecord) : Prop :=
  row.state = .reconciled → row.resultRemoteSha.isSome = true ∧ row.evidenceComplete = true

/-- A result, once written, stays. -/
def ResultKept (row row' : PushReconciliationRecord) : Prop :=
  ∀ sha, row.resultRemoteSha = some sha → row'.resultRemoteSha = some sha

/-- What may happen to a row: its identity, its result and its end stay. -/
structure Stable (row row' : PushReconciliationRecord) : Prop where
  identity : row'.identity = row.identity
  result : ResultKept row row'
  terminal : row.state = .reconciled → row'.state = .reconciled

def SoundStep (row row' : PushReconciliationRecord) : Prop :=
  Sound row → Sound row' ∧ Stable row row'

theorem SoundStep.refl (row : PushReconciliationRecord) : SoundStep row row :=
  fun h => ⟨h, rfl, fun _ => id, id⟩

theorem SoundStep.trans (a b c : PushReconciliationRecord) (hab : SoundStep a b)
    (hbc : SoundStep b c) : SoundStep a c := by
  intro ha
  obtain ⟨hb, hidab, hresab, hendab⟩ := hab ha
  obtain ⟨hc, hidbc, hresbc, hendbc⟩ := hbc hb
  exact ⟨hc, hidbc.trans hidab, fun sha h => hresbc sha (hresab sha h), fun h => hendbc (hendab h)⟩

theorem Update.soundStep (u : Update) (row : PushReconciliationRecord)
    (h : u.applies row = true) : SoundStep row (u.set row) := by
  intro hsound
  cases u with
  | attempting now =>
    have hstate : row.state = .prepared := of_decide_eq_true h
    refine ⟨fun hend => ?_, rfl, fun _ => id, fun hend => ?_⟩
    · cases hend
    · rw [hstate] at hend
      cases hend
  | recovery input recordedAt => exact ⟨hsound, rfl, fun _ => id, id⟩
  | result input recordedAt =>
    have hnone : row.resultRemoteSha = none := Option.isNone_iff_eq_none.1 h
    refine ⟨fun hend => ?_, rfl, fun sha hsha => ?_, fun hend => ?_⟩
    · cases hend
    · rw [hnone] at hsha
      cases hsha
    · have hsome := (hsound hend).1
      rw [hnone] at hsome
      cases hsome
  | ambiguous detail now =>
    have hopen : row.state ≠ .reconciled := of_decide_eq_true h
    refine ⟨fun hend => ?_, rfl, fun _ => id, fun hend => absurd hend hopen⟩
    cases hend
  | reconciled now =>
    simp only [Update.applies, Bool.and_eq_true] at h
    exact ⟨fun _ => ⟨h.1.2, h.2⟩, rfl, fun _ => id, fun _ => rfl⟩

theorem Update.resultKept (u : Update) (row : PushReconciliationRecord)
    (h : u.applies row = true) : ResultKept row (u.set row) := by
  intro sha hsha
  cases u with
  | result input recordedAt =>
    have hnone : row.resultRemoteSha = none := Option.isNone_iff_eq_none.1 h
    rw [hnone] at hsha
    cases hsha
  | _ => exact hsha

abbrev PushEvent : Type :=
  RowEvent PushReconciliationRecord Intent Update PushCall
    (Except String (Option PushReconciliationRecord))

abbrev PushConfig : Type :=
  RowConfig PushReconciliationRecord Intent Update PushCall
    (Except String (Option PushReconciliationRecord))

section Runs

variable {taskId : String} {k k' : PushConfig} {es : List PushEvent}

section

variable (h : Run (PushCall.program taskId) (fallible schema.exec) k es k')
include h

theorem run_soundStep : RowKeeps SoundStep k.shared k'.shared :=
  run_keeps h SoundStep.refl SoundStep.trans Update.soundStep

theorem run_resultKept : RowKeeps ResultKept k.shared k'.shared :=
  run_keeps h (fun _ _ => id) (fun _ _ _ hab hbc sha h => hbc sha (hab sha h)) Update.resultKept

theorem run_isSound (hk : ∀ row, k.shared = some row → Sound row) :
    ∀ row, k'.shared = some row → Sound row :=
  run_sound h (fun i hend => by cases hend) (fun u row happlies hrow =>
    (u.soundStep row happlies hrow).1) hk

end

variable {input : RecordPushResultInput} {record : Option PushReconciliationRecord} {now : ℤ}

/-- What a call of `recordPushResult` that returns a row has done: it found its own
result, or it ran one update and read the row back. -/
theorem leaves_recordPushResult
    {l : Answers Statement fun op => Except String (op.Value PushReconciliationRecord)}
    (h : (recordPushResult taskId input now).run.Leaves l (.pure (.ok record))) :
    (∃ existing, l = [⟨.select, .ok (some existing)⟩] ∧ record = some existing ∧
      existing.resultRemoteSha = some input.resultRemoteSha) ∨
    ∃ existing u n,
      l = [⟨.select, .ok (some existing)⟩, ⟨.update u, .ok n⟩, ⟨.select, .ok record⟩] ∧
      ((∃ recordedAt, u = .recovery input recordedAt ∧ existing.resultRemoteSha.isSome = true) ∨
        ∃ recordedAt, u = .result input recordedAt) := by
  rw [recordPushResult] at h
  rcases leaves_pure_of_request_bind h with ⟨e, -, heq⟩ | ⟨existing, l₁, rfl, h₁⟩
  · cases heq
  · cases existing with
    | none => cases (Program.leaves_pure.1 h₁).2
    | some existing =>
      dsimp only at h₁
      split_ifs at h₁ with hidentity hresult hrecovery hsame
      · cases (Program.leaves_pure.1 h₁).2
      · rcases leaves_pure_of_request_bind h₁ with ⟨e, -, heq⟩ | ⟨n, l₂, rfl, h₂⟩
        · cases heq
        · obtain ⟨r, l₃, rfl, h₃⟩ := (Program.leaves_call.1 h₂).resolve_left (by simp)
          obtain ⟨rfl, heq⟩ := Program.leaves_pure.1 h₃
          cases heq
          exact Or.inr ⟨existing, _, n, rfl, Or.inl ⟨_, rfl, hresult⟩⟩
      · cases (Program.leaves_pure.1 h₁).2
      · obtain ⟨rfl, heq⟩ := Program.leaves_pure.1 h₁
        cases heq
        simp only [not_or, not_not] at hsame
        exact Or.inl ⟨existing, rfl, rfl, hsame.1⟩
      · rcases leaves_pure_of_request_bind h₁ with ⟨e, -, heq⟩ | ⟨n, l₂, rfl, h₂⟩
        · cases heq
        · obtain ⟨r, l₃, rfl, h₃⟩ := (Program.leaves_call.1 h₂).resolve_left (by simp)
          obtain ⟨rfl, heq⟩ := Program.leaves_pure.1 h₃
          cases heq
          exact Or.inr ⟨existing, _, n, rfl, Or.inr ⟨_, rfl⟩⟩

/-- The row that an update finds has no result of another caller: none yet, or the one
that is reported. An update that only adds a recovery observation needs the latter. -/
def Unraced : Update → PushReconciliationRecord → Prop
  | .result input _, row => row.resultRemoteSha = none ∨
      row.resultRemoteSha = some input.resultRemoteSha
  | .recovery input _, row => row.resultRemoteSha = some input.resultRemoteSha
  | _, _ => True

/-- Every update that call `c` of process `p` issued between `k` and `k'` was unraced. -/
def UpdatesUnraced (taskId : String) (p : ℕ) (c : PushCall) (k : PushConfig)
    (es : List PushEvent) (k' : PushConfig) : Prop :=
  ∀ first u r rest k₁ k₂, es = first ++ .exec p c (.update u) r :: rest →
    Run (PushCall.program taskId) (fallible schema.exec) k first k₁ →
    Step (PushCall.program taskId) (fallible schema.exec) k₁ (.exec p c (.update u) r) k₂ →
    Run (PushCall.program taskId) (fallible schema.exec) k₂ rest k' →
    ∀ row, k₁.shared = some row → Unraced u row

def Reports (input : RecordPushResultInput) (record stored : Option PushReconciliationRecord) :
    Prop :=
  (∃ row, record = some row ∧ row.resultRemoteSha = some input.resultRemoteSha) ∧
    ∃ row, stored = some row ∧ row.resultRemoteSha = some input.resultRemoteSha

theorem Unraced.result {u : Update} {row : PushReconciliationRecord}
    (hu : (∃ recordedAt, u = .recovery input recordedAt) ∨ ∃ recordedAt, u = .result input recordedAt)
    (h : Unraced u row) :
    (if schema.applies u row then schema.set u row else row).resultRemoteSha =
      some input.resultRemoteSha := by
  rcases hu with ⟨recordedAt, rfl⟩ | ⟨recordedAt, rfl⟩
  · exact h
  · rcases h with hnone | hown
    · simp [schema, Update.applies, Update.set, hnone]
    · simp [schema, Update.applies, hown]

/-- A call of `recordPushResult` reports its own result if its update was unraced. -/
theorem UpdatesUnraced.reports {p : ℕ}
    (hunraced : UpdatesUnraced taskId p (.recordPushResult input now) k es k')
    (hrun : Run (PushCall.program taskId) (fallible schema.exec) k es k')
    (hes : Uninterrupted p (.recordPushResult input now) es)
    (hleaves : (recordPushResult taskId input now).run.Leaves (answers p es) (.pure (.ok record))) :
    Reports input record k'.shared := by
  rcases leaves_recordPushResult hleaves with ⟨existing, ha, rfl, hsame⟩ |
    ⟨existing, u, n, ha, hu⟩
  · obtain ⟨first, rest, k₁, k₂, -, -, hread, hrest, -, -⟩ := hrun.at_answer hes ha
    obtain ⟨hrow, hkept⟩ := step_select hread
    obtain ⟨row', hrow', hresult⟩ := run_resultKept hrest existing (by rw [hkept, ← hrow])
    exact ⟨⟨existing, rfl, hsame⟩, row', hrow', hresult _ hsame⟩
  · obtain ⟨first, rest, k₁, k₂, rfl, hfirst, hread, hrest, hes₂, ha₂⟩ := hrun.at_answer hes ha
    obtain ⟨hrow, hkept⟩ := step_select hread
    obtain ⟨second, rest₂, k₃, k₄, rfl, hsecond, hupdate, hrest₂, hes₃, ha₃⟩ :=
      hrest.at_answer hes₂ ha₂
    obtain ⟨row₃, hrow₃, -⟩ := run_resultKept hsecond existing (by rw [hkept, ← hrow])
    have hmet : Unraced u row₃ := hunraced (first ++ .exec p _ .select _ :: second) u _ rest₂ k₃ k₄
      (by simp) (hfirst.append ((Run.single hread).append hsecond)) hupdate hrest₂ row₃ hrow₃
    have hown := hmet.result (hu.imp (fun ⟨t, ht, _⟩ => ⟨t, ht⟩) id)
    obtain ⟨third, rest₃, k₅, k₆, rfl, hthird, hread₂, hrest₃, -, -⟩ := hrest₂.at_answer hes₃ ha₃
    obtain ⟨row₅, hrow₅, hresult₅⟩ := run_resultKept hthird _ (step_update hupdate hrow₃)
    obtain ⟨hrecord, hkept₅⟩ := step_select hread₂
    obtain ⟨row', hrow', hresult'⟩ := run_resultKept hrest₃ row₅ (by rw [hkept₅, hrow₅])
    have hfinal := hresult₅ _ hown
    exact ⟨⟨row₅, by rw [hrecord, hrow₅], hfinal⟩, row', hrow', hresult' _ hfinal⟩

theorem Reports.updatesUnraced {p : ℕ} (hreports : Reports input record k'.shared)
    (hes : Uninterrupted p (.recordPushResult input now) es)
    (hleaves : (recordPushResult taskId input now).run.Leaves (answers p es) (.pure (.ok record))) :
    UpdatesUnraced taskId p (.recordPushResult input now) k es k' := by
  rintro first u r rest k₁ k₂ rfl hfirst hupdate hrest row hrow
  have hown : ∀ sha, row.resultRemoteSha = some sha → sha = input.resultRemoteSha := by
    intro sha hsha
    obtain ⟨-, row', hrow', hresult'⟩ := hreports
    obtain ⟨row'', hrow'', hkept⟩ := run_resultKept ((Run.single hupdate).append hrest) row hrow
    obtain rfl := Option.some.inj (hrow'.symm.trans hrow'')
    exact Option.some.inj ((hkept sha hsha).symm.trans hresult')
  have hsplit : answers p (first ++ .exec p (.recordPushResult input now) (.update u) r :: rest) =
      answers p first ++ ⟨.update u, r⟩ :: answers p rest := by
    rw [List.append_cons, answers_append, answers_append, answers_exec]
    simp
  rcases leaves_recordPushResult hleaves with ⟨existing, ha, -, -⟩ | ⟨existing, u', n, ha, hu⟩
  · rw [hsplit] at ha
    cases hfirstAnswers : answers p first with
    | nil => simp [hfirstAnswers] at ha
    | cons a l => simp [hfirstAnswers] at ha
  · rw [hsplit] at ha
    obtain ⟨hfirstAnswers, rfl⟩ := update_between_reads ha
    rcases hu with ⟨recordedAt, rfl, hsome⟩ | ⟨recordedAt, rfl⟩
    · have hes₁ : Uninterrupted p (.recordPushResult input now) first :=
        fun e he => hes e (by simp [he])
      obtain ⟨start, after, k₃, k₄, -, -, hread, hafter, -, -⟩ := hfirst.at_answer hes₁ hfirstAnswers
      obtain ⟨hexisting, hkept⟩ := step_select hread
      obtain ⟨row', hrow', hresult⟩ := run_resultKept hafter existing (by rw [hkept, ← hexisting])
      obtain rfl := Option.some.inj (hrow'.symm.trans hrow)
      obtain ⟨sha, hsha⟩ := Option.isSome_iff_exists.1 hsome
      have hrow'' := hresult sha hsha
      rw [hown sha hrow''] at hrow''
      exact hrow''
    · cases hresult : row.resultRemoteSha with
      | none => exact Or.inl hresult
      | some sha => exact Or.inr (hown sha hresult ▸ hresult)

end Runs

/-- No interleaving of the five methods loses an outcome: identity, result and end of the
push stay, and a reconciled row has a result and complete evidence. A call of
`recordPushResult` that returns reports its own result exactly when each update it
issued was unraced. -/
theorem push_outcomes_kept (taskId : String) {row : Option PushReconciliationRecord}
    (hrow : ∀ r, row = some r → Sound r) {es es' : List PushEvent} {k k' : PushConfig}
    (h : Run (PushCall.program taskId) (fallible schema.exec) (.idle row) es k)
    (h' : Run (PushCall.program taskId) (fallible schema.exec) k es' k') :
    (∀ r, k'.shared = some r → Sound r) ∧ RowKeeps Stable k.shared k'.shared ∧
    ∀ p input now record k₁ k₂,
      Step (PushCall.program taskId) (fallible schema.exec) k₁
        (.invoke p (.recordPushResult input now)) k →
      Uninterrupted p (.recordPushResult input now) es' →
      Step (PushCall.program taskId) (fallible schema.exec) k'
        (.response p (.recordPushResult input now) (.ok record)) k₂ →
      (Reports input record k'.shared ↔
        UpdatesUnraced taskId p (.recordPushResult input now) k es' k') := by
  have hsound := run_isSound h hrow
  refine ⟨run_isSound h' hsound, fun r hr => ?_, ?_⟩
  · obtain ⟨r', hr', hstep⟩ := run_soundStep h' r hr
    exact ⟨r', hr', (hstep (hsound r hr)).2⟩
  · intro p input now record k₁ k₂ hinvoke hes hresponse
    have hleaves := h'.leaves_response hinvoke hes hresponse
    exact ⟨fun hreports => hreports.updatesUnraced hes hleaves,
      fun hunraced => hunraced.reports h' hes hleaves⟩

section Race

def intendedPush : BeginPushReconciliationInput where
  instanceId := "repo-a"
  nawabariSessionId := "session-1"
  sourceCommit := "c1"
  remote := "origin"
  targetBranch := "fix"
  targetRef := "refs/heads/fix"
  forceRequested := false
  createUpstream := true

def pushed (resultRemoteSha : String) : RecordPushResultInput where
  sourceCommit := "c1"
  remote := "origin"
  targetBranch := "fix"
  targetRef := "refs/heads/fix"
  resultRemoteSha := resultRemoteSha
  relation := "ahead"
  evidenceComplete := true

/-- Two processes have read a row without a result before either records its own. -/
def recordRace : List (Move PushCall String) :=
  [.invoke 0 (.beginPush "operation-1" intendedPush 10), .exec 0, .exec 0, .exec 0, .respond 0,
    .invoke 0 (.recordPushResult (pushed "sha-a") 20), .exec 0,
    .invoke 1 (.recordPushResult (pushed "sha-b") 21), .exec 1,
    .exec 0, .exec 0, .respond 0, .exec 1, .exec 1, .respond 1]

def recordsOtherResult : Event PushCall Statement
    (fun op => Except String (RowStatement.Value PushReconciliationRecord op))
    (Except String (Option PushReconciliationRecord)) → Bool
  | .response _ (.recordPushResult input _) (.ok (some record)) =>
      record.resultRemoteSha ≠ some input.resultRemoteSha
  | _ => false

/-- The loser of the race returns normally, with the result of the winner. -/
theorem loser_returns_other_result :
    ∃ es k, Run (PushCall.program "task-1") (fallible schema.exec) (.idle none) es k ∧
      ∃ p input now record, .response p (.recordPushResult input now) (.ok (some record)) ∈ es ∧
        record.resultRemoteSha ≠ some input.resultRemoteSha := by
  obtain ⟨es, k, hrun, hfound⟩ := Config.exists_run (PushCall.program "task-1") schema.exec
    (.idle none) recordRace
    (fun outcome => outcome.1.any recordsOtherResult) (b := true) (by decide)
  refine ⟨es, k, hrun, ?_⟩
  obtain ⟨e, he, hwrong⟩ := List.any_eq_true.1 hfound
  unfold recordsOtherResult at hwrong
  split at hwrong
  · exact ⟨_, _, _, _, he, of_decide_eq_true hwrong⟩
  · cases hwrong

theorem push_outcomes_kept_recordRace :
    ∃ es k, Run (PushCall.program "task-1") (fallible schema.exec) (.idle none) es k ∧
      k.shared.map (fun row => (row.state, row.resultRemoteSha)) =
        some (.reconciled, some "sha-a") ∧
      ∀ row, k.shared = some row → Sound row := by
  obtain ⟨es, k, hrun, hrow⟩ := Config.exists_run (PushCall.program "task-1") schema.exec
    (.idle none) (recordRace ++ [.invoke 1 (.markPushReconciled none 30), .exec 1, .exec 1])
    (fun outcome => outcome.2.shared.map fun row => (row.state, row.resultRemoteSha))
    (b := some (.reconciled, some "sha-a")) (by decide)
  exact ⟨es, k, hrun, hrow, (push_outcomes_kept "task-1" (by simp) hrun (.refl k)).1⟩

end Race

end Mottainai.PushReconciliation

namespace Mottainai.CommitReconciliation

open Interleaving JavaScriptValues

/-- `COMMIT_RECONCILIATION_STATES`. -/
inductive CommitReconciliationState where
  | notAttempted
  | succeeded
  | ambiguous
  | reconciled
  deriving DecidableEq, Repr

/-- `CommitReconciliationRecord`. -/
structure CommitReconciliationRecord where
  taskId : String
  instanceId : String
  nawabariSessionId : String
  branchName : String
  beforeCommit : String
  resources : List String
  message : String
  state : CommitReconciliationState
  commitSha : Option String
  detail : Option String
  createdAt : ℤ
  updatedAt : ℤ
  deriving DecidableEq, Repr

/-- `BeginCommitReconciliationInput`, but for the task. -/
structure BeginCommitReconciliationInput where
  instanceId : String
  nawabariSessionId : String
  branchName : String
  beforeCommit : String
  resources : List String
  message : String
  createdAt : Option ℤ := none
  deriving DecidableEq, Repr

/-- What the `INSERT` statement stores. -/
structure Intent where
  taskId : String
  input : BeginCommitReconciliationInput
  now : ℤ

/-- The `UPDATE` statements. None has a condition beyond the task. -/
inductive Update where
  | result (commitSha : String) (now : ℤ)
  | ambiguous (detail : String) (now : ℤ)
  | reconciled (now : ℤ)

def Intent.row (intent : Intent) : CommitReconciliationRecord where
  taskId := intent.taskId
  instanceId := intent.input.instanceId
  nawabariSessionId := intent.input.nawabariSessionId
  branchName := intent.input.branchName
  beforeCommit := intent.input.beforeCommit
  resources := intent.input.resources
  message := intent.input.message
  state := .notAttempted
  commitSha := none
  detail := none
  createdAt := intent.now
  updatedAt := intent.now

/-- The `SET` part of an update. -/
def Update.set : Update → CommitReconciliationRecord → CommitReconciliationRecord
  | .result commitSha now, row => { row with
      commitSha := some commitSha, updatedAt := now,
      state := if row.state = .reconciled then .reconciled else .succeeded }
  | .ambiguous detail now, row => { row with
      state := .ambiguous, detail := some detail, updatedAt := now }
  | .reconciled now, row => { row with state := .reconciled, updatedAt := now }

/-- The row of one task in `commit_reconciliations`. -/
def schema : RowSchema CommitReconciliationRecord Intent Update where
  row := Intent.row
  applies := fun _ _ => true
  set := Update.set

abbrev Statement : Type := RowStatement Intent Update

/-- What a method answers. `getCommitReconciliation(taskId)!` may be `undefined`. -/
abbrev Method : Type :=
  RowProgram CommitReconciliationRecord Intent Update (Option CommitReconciliationRecord)

section Methods

variable (taskId : String)

/-- `beginCommitReconciliation`. -/
def beginCommitReconciliation (input : BeginCommitReconciliationInput) (now : ℤ) : Method := do
  let existing ← request (RowStatement.select : Statement)
  match existing with
  | some record =>
    if record.instanceId = input.instanceId ∧
        record.nawabariSessionId = input.nawabariSessionId ∧
        record.branchName = input.branchName ∧ record.beforeCommit = input.beforeCommit ∧
        record.message = input.message ∧ record.resources = input.resources then
      pure (some record)
    else throw s!"commit reconciliation identity mismatch: {taskId}"
  | none => do
    request (RowStatement.insert ⟨taskId, input, input.createdAt.getD now⟩ : Statement)
    request (RowStatement.select : Statement)

/-- `recordCommitResult`. -/
def recordCommitResult (commitSha : String) (updatedAt : Option ℤ) (now : ℤ) : Method :=
  if isBlank commitSha then throw s!"commit result identity is required: {taskId}"
  else do
    let existing ← request (RowStatement.select : Statement)
    match existing with
    | none => throw s!"commit reconciliation not found: {taskId}"
    | some existing =>
      if existing.commitSha ≠ none ∧ existing.commitSha ≠ some commitSha then
        throw s!"commit reconciliation references a different result: {taskId}"
      else if existing.state = .ambiguous then
        throw s!"commit reconciliation is already ambiguous: {taskId}"
      else do
        let _ ← request (RowStatement.update (.result commitSha (updatedAt.getD now)) : Statement)
        request (RowStatement.select : Statement)

/-- `markCommitReconciliationAmbiguous`. -/
def markCommitReconciliationAmbiguous (detail : String) (updatedAt : Option ℤ) (now : ℤ) :
    Method := do
  let existing ← request (RowStatement.select : Statement)
  match existing with
  | none => throw s!"commit reconciliation not found: {taskId}"
  | some _ => do
    let _ ← request
      (RowStatement.update (.ambiguous (slice 512 detail) (updatedAt.getD now)) : Statement)
    request (RowStatement.select : Statement)

/-- `markCommitReconciliationReconciled`. -/
def markCommitReconciliationReconciled (updatedAt : Option ℤ) (now : ℤ) : Method := do
  let existing ← request (RowStatement.select : Statement)
  match existing with
  | none => throw s!"commit reconciliation not found: {taskId}"
  | some existing =>
    if existing.commitSha = none then throw s!"commit reconciliation has no result: {taskId}"
    else if existing.state = .ambiguous then
      throw s!"commit reconciliation is ambiguous: {taskId}"
    else do
      let _ ← request (RowStatement.update (.reconciled (updatedAt.getD now)) : Statement)
      request (RowStatement.select : Statement)

end Methods

inductive CommitCall where
  | beginCommit (input : BeginCommitReconciliationInput) (now : ℤ)
  | recordCommitResult (commitSha : String) (updatedAt : Option ℤ) (now : ℤ)
  | markAmbiguous (detail : String) (updatedAt : Option ℤ) (now : ℤ)
  | markReconciled (updatedAt : Option ℤ) (now : ℤ)

def CommitCall.program (taskId : String) : CommitCall → Program Statement
    (fun op => Except String (op.Value CommitReconciliationRecord))
    (Except String (Option CommitReconciliationRecord))
  | beginCommit input now => (beginCommitReconciliation taskId input now).run
  | recordCommitResult commitSha updatedAt now =>
      (CommitReconciliation.recordCommitResult taskId commitSha updatedAt now).run
  | markAmbiguous detail updatedAt now =>
      (markCommitReconciliationAmbiguous taskId detail updatedAt now).run
  | markReconciled updatedAt now =>
      (markCommitReconciliationReconciled taskId updatedAt now).run

/-- The column `commit_sha`. -/
def commitSha : Column schema String where
  get := CommitReconciliationRecord.commitSha
  writes
    | .result sha _ => some sha
    | _ => none
  get_set u row _ := by cases u <;> rfl

/-- `recordCommitResult` compares its result before it writes, and nothing else writes
a result. -/
theorem commitSha_checked (taskId : String) : commitSha.Checked (CommitCall.program taskId) := by
  intro c l u v next h hv
  cases c with
  | beginCommit input now =>
    rcases leaves_call_of_request_bind h with ⟨-, heq⟩ | ⟨existing, l₁, rfl, h₁⟩
    · cases heq
    · cases existing with
      | some record =>
        dsimp only at h₁
        split_ifs at h₁ <;> exact absurd h₁ Program.not_pure_leaves_call
      | none =>
        rcases leaves_call_of_request_bind h₁ with ⟨-, heq⟩ | ⟨_, l₂, rfl, h₂⟩
        · cases heq
        · exact absurd h₂ not_select_leaves_update
  | recordCommitResult sha updatedAt now =>
    simp only [CommitCall.program, CommitReconciliation.recordCommitResult] at h
    split_ifs at h
    · exact absurd h Program.not_pure_leaves_call
    · rcases leaves_call_of_request_bind h with ⟨-, heq⟩ | ⟨existing, l₁, rfl, h₁⟩
      · cases heq
      · cases existing with
        | none => exact absurd h₁ Program.not_pure_leaves_call
        | some existing =>
          dsimp only at h₁
          split_ifs at h₁ with hdifferent
          · exact absurd h₁ Program.not_pure_leaves_call
          · exact absurd h₁ Program.not_pure_leaves_call
          · rcases leaves_call_of_request_bind h₁ with ⟨rfl, heq⟩ | ⟨_, l₂, rfl, h₂⟩
            · cases heq
              cases hv
              refine ⟨existing, rfl, ?_⟩
              by_cases hnone : existing.commitSha = none
              · exact Or.inl hnone
              · exact Or.inr (not_not.1 fun hne => hdifferent ⟨hnone, hne⟩)
            · exact absurd h₂ not_select_leaves_update
  | markAmbiguous detail updatedAt now =>
    rcases leaves_call_of_request_bind h with ⟨-, heq⟩ | ⟨existing, l₁, rfl, h₁⟩
    · cases heq
    · cases existing with
      | none => exact absurd h₁ Program.not_pure_leaves_call
      | some existing =>
        rcases leaves_call_of_request_bind h₁ with ⟨rfl, heq⟩ | ⟨_, l₂, rfl, h₂⟩
        · cases heq
          cases hv
        · exact absurd h₂ not_select_leaves_update
  | markReconciled updatedAt now =>
    rcases leaves_call_of_request_bind h with ⟨-, heq⟩ | ⟨existing, l₁, rfl, h₁⟩
    · cases heq
    · cases existing with
      | none => exact absurd h₁ Program.not_pure_leaves_call
      | some existing =>
        dsimp only at h₁
        split_ifs at h₁
        · exact absurd h₁ Program.not_pure_leaves_call
        · exact absurd h₁ Program.not_pure_leaves_call
        · rcases leaves_call_of_request_bind h₁ with ⟨rfl, heq⟩ | ⟨_, l₂, rfl, h₂⟩
          · cases heq
            cases hv
          · exact absurd h₂ not_select_leaves_update

def StaysReconciled (row row' : CommitReconciliationRecord) : Prop :=
  row.state = .reconciled → row'.state = .reconciled

/-- `markCommitReconciliationAmbiguous` finds a row that is not reconciled. -/
def NotReconciled (u : Update) (row : CommitReconciliationRecord) : Prop :=
  ∀ detail now, u = .ambiguous detail now → row.state ≠ .reconciled

theorem staysReconciled_set_iff (u : Update) (row : CommitReconciliationRecord) :
    StaysReconciled row (u.set row) ↔ NotReconciled u row := by
  cases u with
  | result sha now =>
    refine iff_of_true (fun hend => ?_) (fun _ _ h => by cases h)
    simp [Update.set, hend]
  | ambiguous detail now =>
    constructor
    · intro h detail' now' _ hend
      cases h hend
    · intro h hend
      exact absurd hend (h detail now rfl)
  | reconciled now => exact iff_of_true (fun _ => rfl) (fun _ _ h => by cases h)

abbrev CommitEvent : Type :=
  RowEvent CommitReconciliationRecord Intent Update CommitCall
    (Except String (Option CommitReconciliationRecord))

abbrev CommitConfig : Type :=
  RowConfig CommitReconciliationRecord Intent Update CommitCall
    (Except String (Option CommitReconciliationRecord))

/-- An interleaving keeps a recorded result and the reconciled state exactly when no
other result was recorded between the read and the update of a `recordCommitResult`,
and no row was marked ambiguous while it was reconciled. -/
theorem commit_writeOnce_iff (taskId : String) {row : Option CommitReconciliationRecord}
    {es : List CommitEvent} {k : CommitConfig}
    (h : Run (CommitCall.program taskId) (fallible schema.exec) (.idle row) es k) :
    (KeepsThroughout (CommitCall.program taskId) schema commitSha.Kept (.idle row) es k ∧
      KeepsThroughout (CommitCall.program taskId) schema StaysReconciled (.idle row) es k) ↔
    (commitSha.Unraced es ∧
      UpdatesMeet (CommitCall.program taskId) schema NotReconciled (.idle row) es k) := by
  have hsha := Column.keptThroughout_iff_unraced (commitSha_checked taskId) h fun _ => rfl
  have hend : KeepsThroughout (CommitCall.program taskId) schema StaysReconciled (.idle row) es k ↔
      UpdatesMeet (CommitCall.program taskId) schema NotReconciled (.idle row) es k :=
    keepsThroughout_iff (fun _ => id) (fun _ _ _ hab hbc h => hbc (hab h))
      fun u row _ => staysReconciled_set_iff u row
  exact and_congr hsha hend

section Schedules

def intendedCommit : BeginCommitReconciliationInput where
  instanceId := "repo-a"
  nawabariSessionId := "session-1"
  branchName := "fix"
  beforeCommit := "c0"
  resources := ["src/a.ts"]
  message := "fix"

def reconcileSchedule : List (Move CommitCall String) :=
  [.invoke 0 (.beginCommit intendedCommit 10), .exec 0, .exec 0, .exec 0, .respond 0,
    .invoke 0 (.recordCommitResult "sha-a" none 20), .exec 0, .exec 0, .exec 0, .respond 0,
    .invoke 0 (.markReconciled none 30), .exec 0, .exec 0, .exec 0, .respond 0]

/-- A reconciled commit becomes ambiguous, without any concurrency; and of two racing
recorders the second overwrites the result of the first. -/
theorem reconciled_and_result_lost :
    (∃ es k es' k',
      Run (CommitCall.program "task-1") (fallible schema.exec) (.idle none) es k ∧
      Run (CommitCall.program "task-1") (fallible schema.exec) k es' k' ∧
      k.shared.map (·.state) = some .reconciled ∧ k'.shared.map (·.state) = some .ambiguous) ∧
    ∃ es k es' k',
      Run (CommitCall.program "task-1") (fallible schema.exec) (.idle none) es k ∧
      Run (CommitCall.program "task-1") (fallible schema.exec) k es' k' ∧
      k.shared.map (·.commitSha) = some (some "sha-a") ∧
      k'.shared.map (·.commitSha) = some (some "sha-b") := by
  constructor
  · obtain ⟨es, k, es', k', hrun, hrun', hstates⟩ := Config.exists_two_runs
      (CommitCall.program "task-1") schema.exec (.idle none) reconcileSchedule
      [.invoke 1 (.markAmbiguous "timeout" none 40), .exec 1, .exec 1, .exec 1, .respond 1]
      (fun k k' => (k.shared.map (·.state), k'.shared.map (·.state)))
      (b := (some .reconciled, some .ambiguous)) (by decide)
    exact ⟨es, k, es', k', hrun, hrun', Prod.mk.inj hstates⟩
  · obtain ⟨es, k, es', k', hrun, hrun', hshas⟩ := Config.exists_two_runs
      (CommitCall.program "task-1") schema.exec (.idle none)
      [.invoke 0 (.beginCommit intendedCommit 10), .exec 0, .exec 0, .exec 0, .respond 0,
        .invoke 0 (.recordCommitResult "sha-a" none 20), .exec 0,
        .invoke 1 (.recordCommitResult "sha-b" none 21), .exec 1, .exec 0, .exec 0, .respond 0]
      [.exec 1, .exec 1, .respond 1]
      (fun k k' => (k.shared.map (·.commitSha), k'.shared.map (·.commitSha)))
      (b := (some (some "sha-a"), some (some "sha-b"))) (by decide)
    exact ⟨es, k, es', k', hrun, hrun', Prod.mk.inj hshas⟩

theorem commit_writeOnce_iff_reconcileSchedule :
    ∃ es k, Run (CommitCall.program "task-1") (fallible schema.exec) (.idle none) es k ∧
      k.shared.map (fun row => (row.state, row.commitSha)) = some (.reconciled, some "sha-a") ∧
      ((KeepsThroughout (CommitCall.program "task-1") schema commitSha.Kept (.idle none) es k ∧
        KeepsThroughout (CommitCall.program "task-1") schema StaysReconciled (.idle none) es k) ↔
      (commitSha.Unraced es ∧
        UpdatesMeet (CommitCall.program "task-1") schema NotReconciled (.idle none) es k)) := by
  obtain ⟨es, k, hrun, hrow⟩ := Config.exists_run (CommitCall.program "task-1") schema.exec
    (.idle none) reconcileSchedule
    (fun outcome => outcome.2.shared.map fun row => (row.state, row.commitSha))
    (b := some (.reconciled, some "sha-a")) (by decide)
  exact ⟨es, k, hrun, hrow, commit_writeOnce_iff "task-1" hrun⟩

end Schedules

end Mottainai.CommitReconciliation

namespace Mottainai.CloseReconciliation

open Interleaving JavaScriptValues

/-- `NawabariCloseReconciliationState`. -/
inductive NawabariCloseReconciliationState where
  | pending
  | closed
  | blocked
  deriving DecidableEq, Repr

/-- `NawabariCloseReconciliationRecord`. -/
structure NawabariCloseReconciliationRecord where
  taskId : String
  instanceId : String
  nawabariSessionId : String
  providerRecordId : String
  integratedRevision : Option String
  state : NawabariCloseReconciliationState
  detail : Option String
  createdAt : ℤ
  updatedAt : ℤ
  deriving DecidableEq, Repr

/-- `BeginNawabariCloseReconciliationInput`, but for the task. -/
structure BeginNawabariCloseReconciliationInput where
  instanceId : String
  nawabariSessionId : String
  providerRecordId : String
  integratedRevision : Option String := none
  createdAt : Option ℤ := none
  deriving DecidableEq, Repr

/-- `Exclude<NawabariCloseReconciliationState, "pending">`. -/
inductive Outcome where
  | closed
  | blocked
  deriving DecidableEq, Repr

def Outcome.state : Outcome → NawabariCloseReconciliationState
  | .closed => .closed
  | .blocked => .blocked

/-- What the `INSERT` statement stores. -/
structure Intent where
  taskId : String
  input : BeginNawabariCloseReconciliationInput
  now : ℤ

/-- The `UPDATE` statements. -/
inductive Update where
  | revision (integratedRevision : String) (now : ℤ)
  | mark (outcome : Outcome) (detail : Option String) (now : ℤ)

def Intent.row (intent : Intent) : NawabariCloseReconciliationRecord where
  taskId := intent.taskId
  instanceId := intent.input.instanceId
  nawabariSessionId := intent.input.nawabariSessionId
  providerRecordId := intent.input.providerRecordId
  integratedRevision := intent.input.integratedRevision
  state := .pending
  detail := none
  createdAt := intent.now
  updatedAt := intent.now

/-- The `WHERE` part of an update, beyond the task. -/
def Update.applies : Update → NawabariCloseReconciliationRecord → Bool
  | .revision _ _, _ => true
  | .mark _ _ _, row => row.state ≠ .closed

/-- The `SET` part of an update. -/
def Update.set : Update → NawabariCloseReconciliationRecord → NawabariCloseReconciliationRecord
  | .revision integratedRevision now, row => { row with
      integratedRevision := some integratedRevision, updatedAt := now }
  | .mark outcome detail now, row => { row with
      state := outcome.state, detail := detail, updatedAt := now }

/-- The row of one task in `nawabari_close_reconciliations`. -/
def schema : RowSchema NawabariCloseReconciliationRecord Intent Update where
  row := Intent.row
  applies := Update.applies
  set := Update.set

abbrev Statement : Type := RowStatement Intent Update

/-- What a method answers. `getNawabariCloseReconciliation(taskId)!` may be `undefined`. -/
abbrev Method : Type :=
  RowProgram NawabariCloseReconciliationRecord Intent Update
    (Option NawabariCloseReconciliationRecord)

section Methods

variable (taskId : String)

/-- `beginNawabariCloseReconciliation`. -/
def beginNawabariCloseReconciliation (input : BeginNawabariCloseReconciliationInput) (now : ℤ) :
    Method := do
  let existing ← request (RowStatement.select : Statement)
  match existing with
  | some record =>
    if record.instanceId = input.instanceId ∧
        record.nawabariSessionId = input.nawabariSessionId ∧
        record.providerRecordId = input.providerRecordId ∧
        (input.integratedRevision = none ∨ record.integratedRevision = none ∨
          record.integratedRevision = input.integratedRevision) then
      match record.integratedRevision, input.integratedRevision with
      | none, some integratedRevision => do
        let _ ← request
          (RowStatement.update (.revision integratedRevision (input.createdAt.getD now)) : Statement)
        request (RowStatement.select : Statement)
      | _, _ => pure (some record)
    else throw s!"Nawabari close reconciliation identity mismatch: {taskId}"
  | none => do
    request (RowStatement.insert ⟨taskId, input, input.createdAt.getD now⟩ : Statement)
    request (RowStatement.select : Statement)

/-- `markNawabariCloseReconciliation`. -/
def markNawabariCloseReconciliation (outcome : Outcome) (detail : Option String)
    (updatedAt : Option ℤ) (now : ℤ) : Method := do
  let existing ← request (RowStatement.select : Statement)
  match existing with
  | none => throw s!"Nawabari close reconciliation not found: {taskId}"
  | some _ => do
    let _ ← request
      (RowStatement.update (.mark outcome (detail.map (slice 512)) (updatedAt.getD now)) : Statement)
    request (RowStatement.select : Statement)

end Methods

inductive CloseCall where
  | beginClose (input : BeginNawabariCloseReconciliationInput) (now : ℤ)
  | markClose (outcome : Outcome) (detail : Option String) (updatedAt : Option ℤ) (now : ℤ)

def CloseCall.program (taskId : String) : CloseCall → Program Statement
    (fun op => Except String (op.Value NawabariCloseReconciliationRecord))
    (Except String (Option NawabariCloseReconciliationRecord))
  | beginClose input now => (beginNawabariCloseReconciliation taskId input now).run
  | markClose outcome detail updatedAt now =>
      (markNawabariCloseReconciliation taskId outcome detail updatedAt now).run

/-- The column `integrated_revision`. -/
def integratedRevision : Column schema String where
  get := NawabariCloseReconciliationRecord.integratedRevision
  writes
    | .revision revision _ => some revision
    | _ => none
  get_set u row _ := by cases u <;> rfl

/-- A beginner stores a revision only where it has read none. -/
theorem integratedRevision_checked (taskId : String) :
    integratedRevision.Checked (CloseCall.program taskId) := by
  intro c l u v next h hv
  cases c with
  | beginClose input now =>
    rcases leaves_call_of_request_bind h with ⟨-, heq⟩ | ⟨existing, l₁, rfl, h₁⟩
    · cases heq
    · cases existing with
      | some record =>
        dsimp only at h₁
        split_ifs at h₁
        · split at h₁
          · rename_i hnone _
            rcases leaves_call_of_request_bind h₁ with ⟨rfl, heq⟩ | ⟨_, l₂, rfl, h₂⟩
            · cases heq
              exact ⟨record, rfl, Or.inl hnone⟩
            · exact absurd h₂ not_select_leaves_update
          · exact absurd h₁ Program.not_pure_leaves_call
        · exact absurd h₁ Program.not_pure_leaves_call
      | none =>
        rcases leaves_call_of_request_bind h₁ with ⟨-, heq⟩ | ⟨_, l₂, rfl, h₂⟩
        · cases heq
        · exact absurd h₂ not_select_leaves_update
  | markClose outcome detail updatedAt now =>
    rcases leaves_call_of_request_bind h with ⟨-, heq⟩ | ⟨existing, l₁, rfl, h₁⟩
    · cases heq
    · cases existing with
      | none => exact absurd h₁ Program.not_pure_leaves_call
      | some record =>
        rcases leaves_call_of_request_bind h₁ with ⟨rfl, heq⟩ | ⟨_, l₂, rfl, h₂⟩
        · cases heq
          cases hv
        · exact absurd h₂ not_select_leaves_update

/-- What every update keeps: the identity of the close, and its end. -/
structure Stable (row row' : NawabariCloseReconciliationRecord) : Prop where
  taskId : row'.taskId = row.taskId
  instanceId : row'.instanceId = row.instanceId
  nawabariSessionId : row'.nawabariSessionId = row.nawabariSessionId
  providerRecordId : row'.providerRecordId = row.providerRecordId
  createdAt : row'.createdAt = row.createdAt
  terminal : row.state = .closed → row'.state = .closed

theorem Stable.refl (row : NawabariCloseReconciliationRecord) : Stable row row :=
  ⟨rfl, rfl, rfl, rfl, rfl, id⟩

theorem Stable.trans (a b c : NawabariCloseReconciliationRecord) (hab : Stable a b)
    (hbc : Stable b c) : Stable a c where
  taskId := hbc.taskId.trans hab.taskId
  instanceId := hbc.instanceId.trans hab.instanceId
  nawabariSessionId := hbc.nawabariSessionId.trans hab.nawabariSessionId
  providerRecordId := hbc.providerRecordId.trans hab.providerRecordId
  createdAt := hbc.createdAt.trans hab.createdAt
  terminal h := hbc.terminal (hab.terminal h)

theorem Update.stable (u : Update) (row : NawabariCloseReconciliationRecord)
    (h : u.applies row = true) : Stable row (u.set row) := by
  cases u with
  | revision revision now => exact ⟨rfl, rfl, rfl, rfl, rfl, id⟩
  | mark outcome detail now =>
    have hopen : row.state ≠ .closed := of_decide_eq_true h
    exact ⟨rfl, rfl, rfl, rfl, rfl, fun hend => absurd hend hopen⟩

abbrev CloseEvent : Type :=
  RowEvent NawabariCloseReconciliationRecord Intent Update CloseCall
    (Except String (Option NawabariCloseReconciliationRecord))

abbrev CloseConfig : Type :=
  RowConfig NawabariCloseReconciliationRecord Intent Update CloseCall
    (Except String (Option NawabariCloseReconciliationRecord))

/-- In every interleaving the identity of a close and its closed state stay. The
integrated revision stays exactly when no beginner stores its revision after another
one was stored since its read. -/
theorem close_writeOnce_iff (taskId : String) {row : Option NawabariCloseReconciliationRecord}
    {es : List CloseEvent} {k : CloseConfig}
    (h : Run (CloseCall.program taskId) (fallible schema.exec) (.idle row) es k) :
    KeepsThroughout (CloseCall.program taskId) schema Stable (.idle row) es k ∧
    (KeepsThroughout (CloseCall.program taskId) schema integratedRevision.Kept (.idle row) es k ↔
      integratedRevision.Unraced es) := by
  constructor
  · intro before between after k₁ k₂ _ _ hbetween _
    exact run_keeps hbetween Stable.refl Stable.trans Update.stable
  · exact Column.keptThroughout_iff_unraced (integratedRevision_checked taskId) h fun _ => rfl

section Race

def beginner (revision : Option String) : BeginNawabariCloseReconciliationInput where
  instanceId := "repo-a"
  nawabariSessionId := "session-1"
  providerRecordId := "pr-1"
  integratedRevision := revision

/-- Two beginners have read a row without a revision; the first has stored its own. -/
def beginRace : List (Move CloseCall String) :=
  [.invoke 0 (.beginClose (beginner none) 10), .exec 0, .exec 0, .exec 0, .respond 0,
    .invoke 1 (.beginClose (beginner (some "rev-a")) 20), .exec 1,
    .invoke 2 (.beginClose (beginner (some "rev-b")) 21), .exec 2,
    .exec 1, .exec 1, .respond 1]

/-- Both beginners return, and the second has overwritten the revision of the first. -/
theorem revision_overwritten :
    ∃ es k es' k',
      Run (CloseCall.program "task-1") (fallible schema.exec) (.idle none) es k ∧
      Run (CloseCall.program "task-1") (fallible schema.exec) k es' k' ∧
      k.shared.map (·.integratedRevision) = some (some "rev-a") ∧
      k'.shared.map (·.integratedRevision) = some (some "rev-b") := by
  obtain ⟨es, k, es', k', hrun, hrun', hrevisions⟩ := Config.exists_two_runs
    (CloseCall.program "task-1") schema.exec (.idle none) beginRace
    [.exec 2, .exec 2, .respond 2]
    (fun k k' => (k.shared.map (·.integratedRevision), k'.shared.map (·.integratedRevision)))
    (b := (some (some "rev-a"), some (some "rev-b"))) (by decide)
  exact ⟨es, k, es', k', hrun, hrun', Prod.mk.inj hrevisions⟩

theorem close_writeOnce_iff_beginRace :
    ∃ es k, Run (CloseCall.program "task-1") (fallible schema.exec) (.idle none) es k ∧
      k.shared.map (·.state) = some .closed ∧
      KeepsThroughout (CloseCall.program "task-1") schema Stable (.idle none) es k ∧
      (KeepsThroughout (CloseCall.program "task-1") schema integratedRevision.Kept
        (.idle none) es k ↔ integratedRevision.Unraced es) := by
  obtain ⟨es, k, hrun, hrow⟩ := Config.exists_run (CloseCall.program "task-1") schema.exec
    (.idle none)
    (beginRace ++ [.invoke 1 (.markClose .closed none none 30), .exec 1, .exec 1, .exec 1])
    (fun outcome => outcome.2.shared.map (·.state)) (b := some .closed) (by decide)
  exact ⟨es, k, hrun, hrow, close_writeOnce_iff "task-1" hrun⟩

end Race

end Mottainai.CloseReconciliation

import Mathlib.Data.List.Sort
import Mottainai.WriteTransactions
import Mottainai.JavaScriptValues
import Mottainai.OperationSequences

/-!
# Schema migrations

`applyMigrations` as it runs in several processes on one database. A call applies one migration in
each transaction, and each of its operations is a step, which may fail. While a transaction is open
no other call can change the committed content, so that it is what the log of committed migrations
makes of the first content.
-/

namespace Mottainai.SchemaMigrations

open WriteTransactions

variable {Schema : Type}

section Database

/-- A migration; its `up` is the sequence of the statements that it executes. -/
structure Migration (Schema : Type) where
  version : ℤ
  description : String
  up : List (Schema → Except String Schema)

/-- A row of `schema_migrations`. -/
structure VersionRow where
  version : ℤ
  appliedAt : ℤ

structure Content (Schema : Type) where
  schema : Schema
  schemaMigrations : List VersionRow

namespace Content

/-- `SELECT version FROM schema_migrations`. -/
def appliedVersions (content : Content Schema) : List ℤ := content.schemaMigrations.map (·.version)

def execute (statement : Schema → Except String Schema) (content : Content Schema) :
    Except String (Content Schema) :=
  (statement content.schema).map fun schema => { content with schema := schema }

/-- `INSERT INTO schema_migrations (version, applied_at) VALUES (?, ?)`. -/
def recordVersion (version now : ℤ) (content : Content Schema) : Except String (Content Schema) :=
  if version ∈ content.appliedVersions then
    .error "UNIQUE constraint failed: schema_migrations.version"
  else .ok { content with
    schemaMigrations := content.schemaMigrations ++ [⟨version, now⟩] }

end Content

end Database

section Calls

/-- The error that a call throws: the migration that it names, what went wrong, and what a
failing rollback adds. -/
structure Failure (Schema : Type) where
  migration : Option (Migration Schema)
  cause : String
  rollbackError : Option String

def Failure.message (failure : Failure Schema) : String :=
  match failure.migration with
  | none => failure.cause
  | some migration =>
    s!"migration {migration.version} ({migration.description}) failed: {failure.cause}"

/-- What the `catch` block throws; an error without a migration is thrown as it is. -/
def failure (migration : Option (Migration Schema)) (cause : String)
    (rollbackError : Option String) : Failure Schema :=
  match migration with
  | none => ⟨none, cause, none⟩
  | some migration => ⟨some migration, cause, rollbackError⟩

/-- The places of `applyMigrations`. -/
inductive Control (Schema : Type) where
  | begin
  | createTable
  | select
  | commitNothing
  | up (migration : Migration Schema) (statements : List (Schema → Except String Schema))
  | record (migration : Migration Schema)
  | commit (migration : Migration Schema) (appliedAt : ℤ)
  | rollback (migration : Option (Migration Schema)) (error : String)
  | rollbackDirect (migration : Option (Migration Schema)) (error rollbackError : String)
  | finished (result : Except (Failure Schema) Unit)

namespace Control

/-- Carry out the operation at a place, and go on to the next one. -/
def advance (ordered : List (Migration Schema)) (p : ℕ) (now : ℤ) (s : Store (Content Schema)) :
    Control Schema → Except String (Store (Content Schema) × Control Schema)
  | begin => (s.begin p).map fun s' => (s', createTable)
  | createTable => (s.modify p .ok).map fun s' => (s', select)
  | select =>
    match ordered.find? fun candidate => candidate.version ∉ (s.read p).appliedVersions with
    | none => .ok (s, commitNothing)
    | some migration => .ok (s, up migration migration.up)
  | commitNothing => (s.commit p).map fun s' => (s', finished (.ok ()))
  | up migration [] => .ok (s, record migration)
  | up migration (statement :: statements) =>
      (s.modify p (Content.execute statement)).map fun s' => (s', up migration statements)
  | record migration =>
      (s.modify p (Content.recordVersion migration.version now)).map fun s' =>
        (s', commit migration now)
  | commit _ _ => (s.commit p).map fun s' => (s', begin)
  | rollback migration error =>
      (s.rollback p).map fun s' => (s', finished (.error (failure migration error none)))
  | rollbackDirect migration error rollbackError =>
      (s.rollback p).map fun s' =>
        (s', finished (.error (failure migration error (some rollbackError))))
  | finished result => .ok (s, finished result)

/-- Where a call goes on when the operation at a place throws. -/
def failed (thrown : String) : Control Schema → Control Schema
  | begin => finished (.error (failure none thrown none))
  | createTable => rollback none thrown
  | select => rollback none thrown
  | commitNothing => rollback none thrown
  | up migration _ => rollback (some migration) thrown
  | record migration => rollback (some migration) thrown
  | commit migration _ => rollback (some migration) thrown
  | rollback migration error => rollbackDirect migration error thrown
  | rollbackDirect migration error _ => finished (.error (failure migration error (some thrown)))
  | finished result => finished result

end Control

structure Application (Schema : Type) where
  process : ℕ
  migration : Migration Schema
  appliedAt : ℤ

/-- A call: its migrations in their order, and how many had been committed by all of the
processes when it began. -/
structure Thread (Schema : Type) where
  ordered : List (Migration Schema)
  since : ℕ
  control : Control Schema

/-- The database, the processes, and the migrations committed so far. -/
structure Config (Schema : Type) where
  store : Store (Content Schema)
  threads : ℕ → Option (Thread Schema)
  log : List (Application Schema)

/-- Nothing runs. -/
def Config.start (content : Content Schema) : Config Schema := ⟨⟨content, none⟩, fun _ => none, []⟩

/-- What a process may do next: call `applyMigrations`, carry out the operation of its call,
see it fail, possibly with its transaction rolled back, or stop. -/
inductive Move (Schema : Type) where
  | call (p : ℕ) (migrations : List (Migration Schema))
  | proceed (p : ℕ) (now : ℤ)
  | fail (p : ℕ) (error : String) (rolledBack : Bool)
  | stop (p : ℕ)

/-- `[...migrations].sort((left, right) => left.version - right.version)`. -/
def sortMigrations (migrations : List (Migration Schema)) : List (Migration Schema) :=
  migrations.insertionSort fun left right => left.version ≤ right.version

/-- The call has come to its end. -/
def Thread.isFinished (thread : Thread Schema) : Bool :=
  match thread.control with
  | .finished _ => true
  | _ => false

/-- What the commit of a call adds to the log. -/
def Control.application (p : ℕ) : Control Schema → List (Application Schema)
  | .commit migration appliedAt => [⟨p, migration, appliedAt⟩]
  | _ => []

/-- The call of `p` goes on at another place. -/
def Config.goesOn (c : Config Schema) (p : ℕ) (thread : Thread Schema)
    (store : Store (Content Schema)) (control : Control Schema)
    (applications : List (Application Schema)) : Config Schema where
  store := store
  threads := Function.update c.threads p (some { thread with control := control })
  log := c.log ++ applications

def apply (c : Config Schema) : Move Schema → Config Schema
  | .call p migrations =>
    if (c.threads p).all Thread.isFinished then
      { c with
        threads := Function.update c.threads p
          (some ⟨sortMigrations migrations, c.log.length, .begin⟩) }
    else c
  | .proceed p now =>
    match c.threads p with
    | none => c
    | some thread =>
      match thread.control.advance thread.ordered p now c.store with
      | .ok (store, control) => c.goesOn p thread store control (thread.control.application p)
      | .error e => c.goesOn p thread c.store (thread.control.failed e) []
  | .fail p error rolledBack =>
    match c.threads p with
    | none => c
    | some thread =>
      c.goesOn p thread (if rolledBack then c.store.close p else c.store)
        (thread.control.failed error) []
  | .stop p => { c with store := c.store.close p, threads := Function.update c.threads p none }

end Calls

open JavaScriptValues OperationSequences

section Applications

variable {content content' : Content Schema} {migration : Migration Schema} {now : ℤ}

def Content.executeAll (statements : List (Schema → Except String Schema))
    (content : Content Schema) : Except String (Content Schema) :=
  statements.foldlM (fun content statement => content.execute statement) content

/-- A whole migration: all of its statements, and its row. -/
def Migration.apply (migration : Migration Schema) (now : ℤ) (content : Content Schema) :
    Except String (Content Schema) := do
  let content ← content.executeAll migration.up
  content.recordVersion migration.version now

def replay (log : List (Application Schema)) (content : Content Schema) :
    Except String (Content Schema) :=
  log.foldlM (fun content application => application.migration.apply application.appliedAt content)
    content

def versions (log : List (Application Schema)) : List ℤ := log.map (·.migration.version)

variable {statement : Schema → Except String Schema} {working : Content Schema}

theorem executeAll_snoc {done : List (Schema → Except String Schema)}
    (h : content.executeAll done = .ok working) (hnext : working.execute statement = .ok content') :
    content.executeAll (done ++ [statement]) = .ok content' := by
  rw [Content.executeAll, List.foldlM_append]
  refine bind_eq_ok.2 ⟨working, h, ?_⟩
  exact bind_eq_ok.2 ⟨content', hnext, rfl⟩

theorem execute_schemaMigrations (h : content.execute statement = .ok content') :
    content'.schemaMigrations = content.schemaMigrations := by
  obtain ⟨schema, -, rfl⟩ := map_eq_ok.1 h
  rfl

theorem executeAll_schemaMigrations {statements : List (Schema → Except String Schema)}
    (h : content.executeAll statements = .ok content') :
    content'.schemaMigrations = content.schemaMigrations := by
  induction statements generalizing content with
  | nil =>
    cases h
    rfl
  | cons statement statements ih =>
    obtain ⟨working, hfirst, hrest⟩ := bind_eq_ok.1 h
    exact (ih hrest).trans (execute_schemaMigrations hfirst)

theorem Migration.apply_ok (h : migration.apply now content = .ok content') :
    migration.version ∉ content.appliedVersions ∧
      content'.appliedVersions = content.appliedVersions ++ [migration.version] := by
  obtain ⟨working, hall, hrecord⟩ := bind_eq_ok.1 h
  have hrows := executeAll_schemaMigrations hall
  unfold Content.recordVersion at hrecord
  split_ifs at hrecord with hnew
  cases hrecord
  simp only [Content.appliedVersions, hrows] at hnew ⊢
  exact ⟨hnew, by simp⟩

theorem replay_append {log log' : List (Application Schema)}
    (h : replay log content = .ok working) (h' : replay log' working = .ok content') :
    replay (log ++ log') content = .ok content' := by
  rw [replay, List.foldlM_append]
  exact bind_eq_ok.2 ⟨working, h, h'⟩

theorem replay_versions {log : List (Application Schema)} (h : replay log content = .ok content') :
    content'.appliedVersions = content.appliedVersions ++ versions log ∧
      (versions log).Nodup ∧ ∀ v ∈ versions log, v ∉ content.appliedVersions := by
  induction log generalizing content with
  | nil =>
    cases h
    simp [versions]
  | cons application log ih =>
    obtain ⟨working, hfirst, hrest⟩ := bind_eq_ok.1 h
    obtain ⟨hnew, hrow⟩ := Migration.apply_ok hfirst
    obtain ⟨hrows, hnodup, hnone⟩ := ih hrest
    rw [hrow] at hrows hnone
    refine ⟨by simpa [versions] using hrows, ?_, ?_⟩
    · refine List.nodup_cons.2 ⟨fun hagain => ?_, hnodup⟩
      exact hnone _ hagain (by simp)
    · intro v hv
      rcases List.mem_cons.1 hv with rfl | hlater
      · exact hnew
      · exact fun hold => hnone v hlater (List.mem_append_left _ hold)

end Applications

section Places

variable {ordered : List (Migration Schema)} {p q : ℕ} {now : ℤ}
variable {s s' : Store (Content Schema)} {control control' : Control Schema}

structure Lowest (ordered : List (Migration Schema)) (content : Content Schema)
    (migration : Migration Schema) : Prop where
  mem : migration ∈ ordered
  unapplied : migration.version ∉ content.appliedVersions
  below : ∀ other ∈ ordered, other.version < migration.version →
    other.version ∈ content.appliedVersions

/-- What the place of a call says about the database. -/
def Located (ordered : List (Migration Schema)) (p : ℕ) (s : Store (Content Schema)) :
    Control Schema → Prop
  | .begin | .rollback _ _ | .rollbackDirect _ _ _ | .finished (.error _) => True
  | .createTable | .select => s.writer = some (p, s.content)
  | .commitNothing => s.writer = some (p, s.content) ∧
      ∀ migration ∈ ordered, migration.version ∈ s.content.appliedVersions
  | .up migration statements => ∃ done working, migration.up = done ++ statements ∧
      s.content.executeAll done = .ok working ∧ s.writer = some (p, working) ∧
        Lowest ordered s.content migration
  | .record migration => ∃ working, s.content.executeAll migration.up = .ok working ∧
      s.writer = some (p, working) ∧ Lowest ordered s.content migration
  | .commit migration appliedAt => ∃ working, migration.apply appliedAt s.content = .ok working ∧
      s.writer = some (p, working) ∧ Lowest ordered s.content migration
  | .finished (.ok _) => ∀ migration ∈ ordered, migration.version ∈ s.content.appliedVersions

/-- What an operation does to the committed content: only a commit changes it, by one
migration. -/
def Commits (ordered : List (Migration Schema)) (s s' : Store (Content Schema)) :
    Control Schema → Prop
  | .commit migration appliedAt => migration.apply appliedAt s.content = .ok s'.content ∧
      Lowest ordered s.content migration
  | _ => s'.content = s.content

theorem pairwise_sortMigrations (migrations : List (Migration Schema)) :
    (sortMigrations migrations).Pairwise fun left right => left.version ≤ right.version := by
  have htotal : Std.Total fun left right : Migration Schema => left.version ≤ right.version :=
    ⟨fun left right => le_total left.version right.version⟩
  have htrans : IsTrans (Migration Schema) fun left right => left.version ≤ right.version :=
    ⟨fun _ _ _ => le_trans⟩
  exact List.pairwise_insertionSort _ migrations

theorem lowest_of_find? {content : Content Schema} {migration : Migration Schema}
    (hsorted : ordered.Pairwise fun left right => left.version ≤ right.version)
    (h : ordered.find? (fun candidate => candidate.version ∉ content.appliedVersions) =
      some migration) : Lowest ordered content migration := by
  obtain ⟨hunapplied, before, later, rfl, hbefore⟩ := List.find?_eq_some_iff_append.1 h
  refine ⟨by simp, by simpa using hunapplied, fun other hother hlt => ?_⟩
  rcases List.mem_append.1 hother with hin | hin
  · simpa using hbefore other hin
  · exfalso
    rcases List.mem_cons.1 hin with rfl | hlater
    · omega
    · have hle := (List.pairwise_cons.1 (List.pairwise_append.1 hsorted).2.1).1 other hlater
      omega

/-- One operation leads from a place to the next one. -/
theorem Located.advance (h : Located ordered p s control)
    (hsorted : ordered.Pairwise fun left right => left.version ≤ right.version)
    (hstep : control.advance ordered p now s = .ok (s', control')) :
    Located ordered p s' control' ∧ Commits ordered s s' control := by
  cases control with
  | begin =>
    obtain ⟨t, hbegin, heq⟩ := map_eq_ok.1 hstep
    cases heq
    obtain ⟨hcontent, hwriter⟩ := Store.begin_eq_ok hbegin
    have hcopy : s'.writer = some (p, s'.content) := by rw [hwriter, hcontent]
    exact ⟨hcopy, hcontent⟩
  | createTable =>
    obtain ⟨t, hmodify, heq⟩ := map_eq_ok.1 hstep
    cases heq
    obtain ⟨hcontent, working, hworking, hwriter⟩ := Store.modify_of_writer h hmodify
    cases hworking
    have hcopy : s'.writer = some (p, s'.content) := by rw [hwriter, hcontent]
    exact ⟨hcopy, hcontent⟩
  | select =>
    have hwriter : s.writer = some (p, s.content) := h
    simp only [Control.advance, Store.read_of_writer hwriter] at hstep
    split at hstep
    · rename_i hnone
      cases hstep
      refine ⟨⟨hwriter, fun migration hmem => ?_⟩, rfl⟩
      have hfound := List.find?_eq_none.1 hnone migration hmem
      simpa using hfound
    · rename_i migration hfound
      cases hstep
      exact ⟨⟨[], s.content, rfl, rfl, hwriter, lowest_of_find? hsorted hfound⟩, rfl⟩
  | commitNothing =>
    obtain ⟨t, hcommit, heq⟩ := map_eq_ok.1 hstep
    cases heq
    obtain ⟨hcontent, -⟩ := Store.commit_of_writer h.1 hcommit
    exact ⟨fun migration hmem => hcontent ▸ h.2 migration hmem, hcontent⟩
  | up migration statements =>
    obtain ⟨done, working, hup, hdone, hwriter, hlowest⟩ := h
    cases statements with
    | nil =>
      cases hstep
      rw [List.append_nil] at hup
      exact ⟨⟨working, hup ▸ hdone, hwriter, hlowest⟩, rfl⟩
    | cons statement statements =>
      obtain ⟨t, hmodify, heq⟩ := map_eq_ok.1 hstep
      cases heq
      obtain ⟨hcontent, working', hworking, hwriter'⟩ := Store.modify_of_writer hwriter hmodify
      refine ⟨⟨done ++ [statement], working', by simp [hup], ?_, hwriter', ?_⟩, hcontent⟩
      · rw [hcontent]
        exact executeAll_snoc hdone hworking
      · rw [hcontent]
        exact hlowest
  | record migration =>
    obtain ⟨working, hdone, hwriter, hlowest⟩ := h
    obtain ⟨t, hmodify, heq⟩ := map_eq_ok.1 hstep
    cases heq
    obtain ⟨hcontent, working', hworking, hwriter'⟩ := Store.modify_of_writer hwriter hmodify
    refine ⟨⟨working', ?_, hwriter', hcontent ▸ hlowest⟩, hcontent⟩
    rw [hcontent]
    exact bind_eq_ok.2 ⟨working, hdone, hworking⟩
  | commit migration appliedAt =>
    obtain ⟨working, happly, hwriter, hlowest⟩ := h
    obtain ⟨t, hcommit, heq⟩ := map_eq_ok.1 hstep
    cases heq
    obtain ⟨hcontent, -⟩ := Store.commit_of_writer hwriter hcommit
    exact ⟨trivial, hcontent ▸ happly, hlowest⟩
  | rollback migration error =>
    obtain ⟨t, hrollback, heq⟩ := map_eq_ok.1 hstep
    cases heq
    exact ⟨trivial, Store.rollback_eq_ok hrollback⟩
  | rollbackDirect migration error rollbackError =>
    obtain ⟨t, hrollback, heq⟩ := map_eq_ok.1 hstep
    cases heq
    exact ⟨trivial, Store.rollback_eq_ok hrollback⟩
  | finished result =>
    cases hstep
    exact ⟨h, rfl⟩

/-- While one connection writes, the calls of the others get nowhere. -/
theorem advance_foreign {working : Content Schema} (hw : s.writer = some (q, working))
    (hne : q ≠ p) (hstep : control.advance ordered p now s = .ok (s', control')) : s' = s := by
  cases control with
  | begin =>
    obtain ⟨t, hbegin, -⟩ := map_eq_ok.1 hstep
    exact absurd hbegin (Store.begin_foreign hw hne)
  | createTable =>
    obtain ⟨t, hmodify, -⟩ := map_eq_ok.1 hstep
    exact absurd hmodify (Store.modify_foreign hw hne)
  | select =>
    simp only [Control.advance] at hstep
    split at hstep <;>
    · cases hstep
      rfl
  | commitNothing =>
    obtain ⟨t, hcommit, -⟩ := map_eq_ok.1 hstep
    exact absurd hcommit (Store.commit_foreign hw hne)
  | up migration statements =>
    cases statements with
    | nil =>
      cases hstep
      rfl
    | cons statement statements =>
      obtain ⟨t, hmodify, -⟩ := map_eq_ok.1 hstep
      exact absurd hmodify (Store.modify_foreign hw hne)
  | record migration =>
    obtain ⟨t, hmodify, -⟩ := map_eq_ok.1 hstep
    exact absurd hmodify (Store.modify_foreign hw hne)
  | commit migration appliedAt =>
    obtain ⟨t, hcommit, -⟩ := map_eq_ok.1 hstep
    exact absurd hcommit (Store.commit_foreign hw hne)
  | rollback migration error =>
    obtain ⟨t, hrollback, -⟩ := map_eq_ok.1 hstep
    exact absurd hrollback (Store.rollback_foreign hw hne)
  | rollbackDirect migration error rollbackError =>
    obtain ⟨t, hrollback, -⟩ := map_eq_ok.1 hstep
    exact absurd hrollback (Store.rollback_foreign hw hne)
  | finished result =>
    cases hstep
    rfl

/-- The steps of the others leave a call where it is, if they do not touch its transaction
and remove no version. -/
theorem Located.other (h : Located ordered q s control)
    (hframe : ∀ working, s.writer = some (q, working) → s' = s)
    (hkept : s.content.appliedVersions ⊆ s'.content.appliedVersions) :
    Located ordered q s' control := by
  cases control with
  | begin => trivial
  | createTable =>
    rw [hframe _ h]
    exact h
  | select =>
    rw [hframe _ h]
    exact h
  | commitNothing =>
    rw [hframe _ h.1]
    exact h
  | up migration statements =>
    obtain ⟨done, working, hup, hdone, hwriter, hlowest⟩ := h
    rw [hframe _ hwriter]
    exact ⟨done, working, hup, hdone, hwriter, hlowest⟩
  | record migration =>
    obtain ⟨working, hdone, hwriter, hlowest⟩ := h
    rw [hframe _ hwriter]
    exact ⟨working, hdone, hwriter, hlowest⟩
  | commit migration appliedAt =>
    obtain ⟨working, happly, hwriter, hlowest⟩ := h
    rw [hframe _ hwriter]
    exact ⟨working, happly, hwriter, hlowest⟩
  | rollback migration error => trivial
  | rollbackDirect migration error rollbackError => trivial
  | finished result =>
    cases result with
    | error e => trivial
    | ok u => exact fun migration hmem => hkept (h migration hmem)

theorem located_failed (h : Located ordered p s control) (thrown : String)
    (hkept : s'.content = s.content) : Located ordered p s' (control.failed thrown) := by
  cases control with
  | finished result =>
    cases result with
    | error e => trivial
    | ok u => exact fun migration hmem => hkept ▸ h migration hmem
  | _ => trivial

end Places

section Runs

variable {content : Content Schema} {c : Config Schema} {p q : ℕ} {thread : Thread Schema}
variable {s s' : Store (Content Schema)} {log applications : List (Application Schema)}
variable {migration : Migration Schema}

def callVersions (p : ℕ) (thread : Thread Schema) (log : List (Application Schema)) : List ℤ :=
  versions ((log.drop thread.since).filter fun application => application.process = p)

def Control.failing : Control Schema → Option (Migration Schema)
  | .rollback migration _ | .rollbackDirect migration _ _ => migration
  | .finished (.error failure) => failure.migration
  | _ => none

theorem callVersions_own (hsince : thread.since ≤ log.length)
    (hown : ∀ application ∈ applications, application.process = p) :
    callVersions p thread (log ++ applications) =
      callVersions p thread log ++ versions applications := by
  have hall : applications.filter (fun application => application.process = p) = applications :=
    List.filter_eq_self.2 fun application hmem => by simpa using hown application hmem
  simp only [callVersions, List.drop_append_of_le_length hsince, List.filter_append, hall, versions,
    List.map_append]

theorem callVersions_other (hsince : thread.since ≤ log.length)
    (hother : ∀ application ∈ applications, application.process ≠ p) :
    callVersions p thread (log ++ applications) = callVersions p thread log := by
  have hnone : applications.filter (fun application => application.process = p) = [] :=
    List.filter_eq_nil_iff.2 fun application hmem => by simpa using hother application hmem
  simp only [callVersions, List.drop_append_of_le_length hsince, List.filter_append, hnone,
    List.append_nil]

/-- What holds of a call at every time. -/
structure ThreadSound (p : ℕ) (thread : Thread Schema) (s : Store (Content Schema))
    (log : List (Application Schema)) : Prop where
  sorted : thread.ordered.Pairwise fun left right => left.version ≤ right.version
  since : thread.since ≤ log.length
  located : Located thread.ordered p s thread.control
  increasing : (callVersions p thread log).Pairwise (· < ·)
  recorded : ∀ v ∈ callVersions p thread log, v ∈ s.content.appliedVersions
  covered : ∀ v ∈ callVersions p thread log, ∀ migration ∈ thread.ordered,
    migration.version ≤ v → migration.version ∈ s.content.appliedVersions
  failing : ∀ migration, thread.control.failing = some migration →
    migration.version ∉ callVersions p thread log

/-- The content is what the log makes of the first content. -/
structure Sound (content : Content Schema) (c : Config Schema) : Prop where
  replayed : replay c.log content = .ok c.store.content
  threads : ∀ p thread, c.threads p = some thread → ThreadSound p thread c.store c.log

theorem sound_start (content : Content Schema) : Sound content (.start content) :=
  ⟨rfl, fun p thread h => by simp [Config.start] at h⟩

theorem ThreadSound.other (h : ThreadSound q thread s log)
    (hframe : ∀ working, s.writer = some (q, working) → s' = s)
    (hkept : s.content.appliedVersions ⊆ s'.content.appliedVersions)
    (hother : ∀ application ∈ applications, application.process ≠ q) :
    ThreadSound q thread s' (log ++ applications) := by
  have hsame := callVersions_other h.since hother
  refine ⟨h.sorted, ?_, h.located.other hframe hkept, ?_, ?_, ?_, ?_⟩
  · rw [List.length_append]
    exact Nat.le_add_right_of_le h.since
  · rw [hsame]
    exact h.increasing
  · rw [hsame]
    exact fun v hv => hkept (h.recorded v hv)
  · rw [hsame]
    exact fun v hv migration hmem hle => hkept (h.covered v hv migration hmem hle)
  · rw [hsame]
    exact h.failing

variable {control : Control Schema} {store : Store (Content Schema)} {moves : List (Move Schema)}
variable {move : Move Schema}

theorem ThreadSound.goesOn (h : ThreadSound p thread s log)
    (hlocated : Located thread.ordered p s' control) (hkept : s'.content = s.content)
    (hfailing : ∀ migration, control.failing = some migration →
      migration.version ∉ callVersions p thread log) :
    ThreadSound p { thread with control := control } s' log := by
  refine ⟨h.sorted, h.since, hlocated, h.increasing, ?_, ?_, hfailing⟩
  · rw [hkept]
    exact h.recorded
  · rw [hkept]
    exact h.covered

theorem ThreadSound.commits {appliedAt : ℤ} (h : ThreadSound p thread s log)
    (happly : migration.apply appliedAt s.content = .ok s'.content)
    (hlowest : Lowest thread.ordered s.content migration) :
    ThreadSound p { thread with control := .begin } s' (log ++ [⟨p, migration, appliedAt⟩]) := by
  have hcall : callVersions p thread (log ++ [⟨p, migration, appliedAt⟩]) =
      callVersions p thread log ++ [migration.version] :=
    callVersions_own h.since (by simp)
  have hrows := (Migration.apply_ok happly).2
  have hkept : s.content.appliedVersions ⊆ s'.content.appliedVersions := by
    rw [hrows]
    exact List.subset_append_left _ _
  have hnew : migration.version ∈ s'.content.appliedVersions := by simp [hrows]
  refine ⟨h.sorted, ?_, trivial, ?_, ?_, ?_, ?_⟩
  · rw [List.length_append]
    exact Nat.le_add_right_of_le h.since
  · change (callVersions p thread _).Pairwise (· < ·)
    rw [hcall, List.pairwise_append]
    refine ⟨h.increasing, List.pairwise_singleton _ _, fun v hv v' hv' => ?_⟩
    rw [List.mem_singleton.1 hv']
    by_contra hle
    exact hlowest.unapplied (h.covered v hv migration hlowest.mem (not_lt.1 hle))
  · change ∀ v ∈ callVersions p thread _, _
    rw [hcall]
    intro v hv
    rcases List.mem_append.1 hv with hold | hlast
    · exact hkept (h.recorded v hold)
    · rw [List.mem_singleton.1 hlast]
      exact hnew
  · change ∀ v ∈ callVersions p thread _, _
    rw [hcall]
    intro v hv other hother hle
    rcases List.mem_append.1 hv with hold | hlast
    · exact hkept (h.covered v hold other hother hle)
    · rw [List.mem_singleton.1 hlast] at hle
      rcases lt_or_eq_of_le hle with hlt | heq
      · exact hkept (hlowest.below other hother hlt)
      · exact heq ▸ hnew
  · intro other hother
    cases hother

/-- A migration whose operation throws is not among those that the call has committed. -/
theorem ThreadSound.failed (h : ThreadSound p thread s log) (thrown : String)
    (hfailing : (thread.control.failed thrown).failing = some migration) :
    migration.version ∉ callVersions p thread log := by
  have hlowest : Lowest thread.ordered s.content migration →
      migration.version ∉ callVersions p thread log :=
    fun hlowest hcall => hlowest.unapplied (h.recorded _ hcall)
  have hlocated := h.located
  have hbefore := h.failing migration
  cases hcontrol : thread.control with
  | up m statements =>
    rw [hcontrol] at hfailing hlocated
    cases hfailing
    obtain ⟨-, -, -, -, -, hlow⟩ := hlocated
    exact hlowest hlow
  | record m =>
    rw [hcontrol] at hfailing hlocated
    cases hfailing
    obtain ⟨-, -, -, hlow⟩ := hlocated
    exact hlowest hlow
  | commit m appliedAt =>
    rw [hcontrol] at hfailing hlocated
    cases hfailing
    obtain ⟨-, -, -, hlow⟩ := hlocated
    exact hlowest hlow
  | rollbackDirect m error rollbackError =>
    rw [hcontrol] at hfailing hbefore
    cases m with
    | none => cases hfailing
    | some m => exact hbefore hfailing
  | rollback m error =>
    rw [hcontrol] at hfailing hbefore
    exact hbefore hfailing
  | finished result =>
    rw [hcontrol] at hfailing hbefore
    exact hbefore hfailing
  | _ =>
    rw [hcontrol] at hfailing
    cases hfailing

@[simp] theorem failure_migration (migration : Option (Migration Schema)) (cause : String)
    (rollbackError : Option String) :
    (failure migration cause rollbackError).migration = migration := by
  cases migration <;> rfl

theorem failing_of_advance {ordered : List (Migration Schema)} {now : ℤ}
    {control control' : Control Schema}
    (hstep : control.advance ordered p now s = .ok (s', control')) :
    control'.failing = control.failing ∨ control'.failing = none := by
  cases control with
  | select =>
    simp only [Control.advance] at hstep
    split at hstep <;>
    · cases hstep
      exact Or.inr rfl
  | up migration statements =>
    cases statements with
    | nil =>
      cases hstep
      exact Or.inr rfl
    | cons statement statements =>
      obtain ⟨t, -, heq⟩ := map_eq_ok.1 hstep
      cases heq
      exact Or.inr rfl
  | finished result =>
    cases hstep
    exact Or.inl rfl
  | rollback migration error =>
    obtain ⟨t, -, heq⟩ := map_eq_ok.1 hstep
    cases heq
    exact Or.inl (failure_migration _ _ _)
  | rollbackDirect migration error rollbackError =>
    obtain ⟨t, -, heq⟩ := map_eq_ok.1 hstep
    cases heq
    exact Or.inl (failure_migration _ _ _)
  | _ =>
    obtain ⟨t, -, heq⟩ := map_eq_ok.1 hstep
    cases heq
    exact Or.inr rfl

/-- The configuration after a step of `p` is sound if its call is, and the step respects the
transactions of the others. -/
theorem Sound.goesOn (h : Sound content c)
    (hreplayed : replay (c.log ++ applications) content = .ok store.content)
    (hframe : ∀ q, q ≠ p → ∀ working, c.store.writer = some (q, working) → store = c.store)
    (hkept : c.store.content.appliedVersions ⊆ store.content.appliedVersions)
    (hown : ∀ application ∈ applications, application.process = p)
    (hcall : ThreadSound p { thread with control := control } store (c.log ++ applications)) :
    Sound content (c.goesOn p thread store control applications) := by
  refine ⟨hreplayed, fun q other hother => ?_⟩
  by_cases hq : q = p
  · subst hq
    simp only [Config.goesOn, Function.update_self, Option.some.injEq] at hother
    exact hother ▸ hcall
  · simp only [Config.goesOn, Function.update_of_ne hq] at hother
    exact (h.threads q other hother).other (hframe q hq) hkept
      fun application hmem => by simpa [hown application hmem] using Ne.symm hq

inductive StepOf (c c' : Config Schema) : Prop where
  | unchanged (content : c'.store.content = c.store.content) (log : c'.log = c.log)
  | applied (p : ℕ) (thread : Thread Schema) (migration : Migration Schema) (appliedAt : ℤ)
      (call : c.threads p = some thread)
      (lowest : Lowest thread.ordered c.store.content migration)
      (content : migration.apply appliedAt c.store.content = .ok c'.store.content)
      (log : c'.log = c.log ++ [⟨p, migration, appliedAt⟩])

/-- A step of `p` that commits nothing. -/
theorem Sound.quiet (h : Sound content c) (hkept : store.content = c.store.content)
    (hframe : ∀ q, q ≠ p → ∀ working, c.store.writer = some (q, working) → store = c.store)
    (hcall : ThreadSound p { thread with control := control } store c.log) :
    Sound content (c.goesOn p thread store control []) ∧
      StepOf c (c.goesOn p thread store control []) := by
  have hlog : c.log ++ [] = c.log := List.append_nil _
  refine ⟨h.goesOn ?_ hframe ?_ (by simp) (by rwa [hlog]), .unchanged hkept hlog⟩
  · rw [hlog, hkept]
    exact h.replayed
  · rw [hkept]
    exact List.Subset.refl _

/-- What was not committed by the step is there as before. -/
theorem ThreadSound.idle (h : ThreadSound q thread s log)
    (hframe : ∀ working, s.writer = some (q, working) → s' = s) (hkept : s'.content = s.content) :
    ThreadSound q thread s' log := by
  have hnone : ∀ application ∈ ([] : List (Application Schema)), application.process ≠ q := by
    simp
  have hother := h.other hframe (hkept ▸ List.Subset.refl _) hnone
  rwa [List.append_nil] at hother

theorem proceed_sound (h : Sound content c) (hcall : c.threads p = some thread) (now : ℤ) :
    Sound content (apply c (.proceed p now)) ∧ StepOf c (apply c (.proceed p now)) := by
  have hthread := h.threads p thread hcall
  simp only [apply, hcall]
  cases hstep : thread.control.advance thread.ordered p now c.store with
  | error e =>
    exact h.quiet rfl (fun _ _ _ _ => rfl) (hthread.goesOn (located_failed hthread.located e rfl)
      rfl fun migration hfailing => hthread.failed e hfailing)
  | ok result =>
    obtain ⟨store, control⟩ := result
    obtain ⟨hlocated, hcommits⟩ := hthread.located.advance hthread.sorted hstep
    have hframe : ∀ q, q ≠ p → ∀ working, c.store.writer = some (q, working) → store = c.store :=
      fun q hq working hw => advance_foreign hw hq hstep
    have hquiet : store.content = c.store.content → thread.control.application p = [] →
        Sound content (c.goesOn p thread store control (thread.control.application p)) ∧
          StepOf c (c.goesOn p thread store control (thread.control.application p)) := by
      intro hcontent hnone
      rw [hnone]
      refine h.quiet hcontent hframe
        (hthread.goesOn hlocated hcontent fun migration hfailing => ?_)
      rcases failing_of_advance hstep with hsame | hnothing
      · exact hthread.failing migration (hsame ▸ hfailing)
      · rw [hnothing] at hfailing
        cases hfailing
    cases hcontrol : thread.control with
    | commit migration appliedAt =>
      rw [hcontrol] at hcommits hstep
      obtain ⟨happly, hlowest⟩ := hcommits
      obtain ⟨t, -, heq⟩ := map_eq_ok.1 hstep
      cases heq
      have hone : replay [⟨p, migration, appliedAt⟩] c.store.content = .ok store.content :=
        bind_eq_ok.2 ⟨store.content, happly, rfl⟩
      refine ⟨h.goesOn (replay_append h.replayed hone) hframe ?_ (by simp [Control.application])
        (hthread.commits happly hlowest), .applied p thread migration appliedAt hcall hlowest happly
          rfl⟩
      rw [(Migration.apply_ok happly).2]
      exact List.subset_append_left _ _
    | _ =>
      rw [hcontrol] at hcommits hquiet
      exact hquiet hcommits rfl

theorem apply_sound (h : Sound content c) (move : Move Schema) :
    Sound content (apply c move) ∧ StepOf c (apply c move) := by
  cases move with
  | call p migrations =>
    simp only [apply]
    split_ifs
    · refine ⟨⟨h.replayed, fun q other hother => ?_⟩, .unchanged rfl rfl⟩
      by_cases hq : q = p
      · subst hq
        simp only [Function.update_self, Option.some.injEq] at hother
        subst hother
        have hnone : callVersions q ⟨sortMigrations migrations, c.log.length, .begin⟩ c.log = [] := by
          simp [callVersions, versions]
        refine ⟨pairwise_sortMigrations migrations, le_rfl, trivial, ?_, ?_, ?_, ?_⟩ <;>
          simp [hnone, Control.failing]
      · simp only [Function.update_of_ne hq] at hother
        exact h.threads q other hother
    · exact ⟨h, .unchanged rfl rfl⟩
  | proceed p now =>
    cases hcall : c.threads p with
    | none =>
      simp only [apply, hcall]
      exact ⟨h, .unchanged rfl rfl⟩
    | some thread => exact proceed_sound h hcall now
  | fail p error rolledBack =>
    cases hcall : c.threads p with
    | none =>
      simp only [apply, hcall]
      exact ⟨h, .unchanged rfl rfl⟩
    | some thread =>
      have hthread := h.threads p thread hcall
      have hcontent : (if rolledBack then c.store.close p else c.store).content =
          c.store.content := by
        split_ifs
        · exact Store.close_content
        · rfl
      simp only [apply, hcall]
      refine h.quiet hcontent ?_ (hthread.goesOn
        (located_failed hthread.located error hcontent) hcontent
          fun migration hfailing => hthread.failed error hfailing)
      intro q hq working hw
      split_ifs
      · exact Store.close_foreign hw hq
      · rfl
  | stop p =>
    have hcontent : (c.store.close p).content = c.store.content := Store.close_content
    refine ⟨⟨?_, fun q other hother => ?_⟩, .unchanged hcontent rfl⟩
    · simpa [apply, hcontent] using h.replayed
    · by_cases hq : q = p
      · subst hq
        simp [apply] at hother
      · simp only [apply, Function.update_of_ne hq] at hother
        exact (h.threads q other hother).idle (fun working hw => Store.close_foreign hw hq) hcontent

/-- What holds at every time: the content is that of whole migrations, each applied once and
in the order in which its call takes them; a call that has returned has left none out, and a
migration with which a call fails is not among those that it has applied. -/
structure Serialized (content : Content Schema) (c : Config Schema) : Prop where
  replayed : replay c.log content = .ok c.store.content
  rows : c.store.content.appliedVersions = content.appliedVersions ++ versions c.log
  once : (versions c.log).Nodup ∧ ∀ v ∈ versions c.log, v ∉ content.appliedVersions
  increasing : ∀ p thread, c.threads p = some thread →
    (callVersions p thread c.log).Pairwise (· < ·)
  complete : ∀ p thread, c.threads p = some thread → thread.control = .finished (.ok ()) →
    ∀ migration ∈ thread.ordered, migration.version ∈ c.store.content.appliedVersions
  failing : ∀ p thread migration, c.threads p = some thread →
    thread.control.failing = some migration → migration.version ∉ callVersions p thread c.log

theorem Sound.serialized (h : Sound content c) : Serialized content c := by
  obtain ⟨hrows, hnodup, hnew⟩ := replay_versions h.replayed
  refine ⟨h.replayed, hrows, ⟨hnodup, hnew⟩, ?_, ?_, ?_⟩
  · exact fun p thread hcall => (h.threads p thread hcall).increasing
  · intro p thread hcall hfinished
    have hlocated := (h.threads p thread hcall).located
    rw [hfinished] at hlocated
    exact hlocated
  · exact fun p thread migration hcall hfailing =>
      (h.threads p thread hcall).failing migration hfailing

structure Settled (c : Config Schema) (moves : List (Move Schema)) : Prop where
  present : ∀ p thread, c.threads p = some thread →
    ∀ migration ∈ thread.ordered, migration.version ∈ c.store.content.appliedVersions
  later : ∀ p migrations, Move.call p migrations ∈ moves →
    ∀ migration ∈ migrations, migration.version ∈ c.store.content.appliedVersions

theorem mem_sortMigrations {migrations : List (Migration Schema)} :
    migration ∈ sortMigrations migrations ↔ migration ∈ migrations :=
  List.mem_insertionSort _

theorem threads_apply (h : (apply c move).threads q = some thread) :
    (∃ old, c.threads q = some old ∧ thread.ordered = old.ordered) ∨
      ∃ migrations, move = .call q migrations ∧ thread.ordered = sortMigrations migrations := by
  have hgoesOn : ∀ p store control (applications : List (Application Schema)) old,
      c.threads p = some old →
      (c.goesOn p old store control applications).threads q = some thread →
        ∃ old, c.threads q = some old ∧ thread.ordered = old.ordered := by
    intro p store control applications old hold hnew
    by_cases hq : q = p
    · subst hq
      simp only [Config.goesOn, Function.update_self, Option.some.injEq] at hnew
      exact ⟨old, hold, hnew ▸ rfl⟩
    · simp only [Config.goesOn, Function.update_of_ne hq] at hnew
      exact ⟨thread, hnew, rfl⟩
  cases move with
  | call p migrations =>
    simp only [apply] at h
    split_ifs at h
    · by_cases hq : q = p
      · subst hq
        simp only [Function.update_self, Option.some.injEq] at h
        exact Or.inr ⟨migrations, rfl, h ▸ rfl⟩
      · simp only [Function.update_of_ne hq] at h
        exact Or.inl ⟨thread, h, rfl⟩
    · exact Or.inl ⟨thread, h, rfl⟩
  | proceed p now =>
    cases hcall : c.threads p with
    | none =>
      simp only [apply, hcall] at h
      exact Or.inl ⟨thread, h, rfl⟩
    | some old =>
      simp only [apply, hcall] at h
      split at h
      · exact Or.inl (hgoesOn _ _ _ _ _ hcall h)
      · exact Or.inl (hgoesOn _ _ _ _ _ hcall h)
  | fail p error rolledBack =>
    cases hcall : c.threads p with
    | none =>
      simp only [apply, hcall] at h
      exact Or.inl ⟨thread, h, rfl⟩
    | some old =>
      simp only [apply, hcall] at h
      exact Or.inl (hgoesOn _ _ _ _ _ hcall h)
  | stop p =>
    by_cases hq : q = p
    · subst hq
      simp [apply] at h
    · simp only [apply, Function.update_of_ne hq] at h
      exact Or.inl ⟨thread, h, rfl⟩

theorem Settled.step (h : Settled c (move :: moves)) (hstep : StepOf c (apply c move)) :
    (apply c move).store.content = c.store.content ∧ (apply c move).log = c.log ∧
      Settled (apply c move) moves := by
  cases hstep with
  | applied p thread migration appliedAt hcall hlowest happly hlog =>
    exact absurd (h.present p thread hcall migration hlowest.mem) hlowest.unapplied
  | unchanged hcontent hlog =>
    refine ⟨hcontent, hlog, ⟨fun p thread hthread migration hmem => ?_, ?_⟩⟩
    · rw [hcontent]
      rcases threads_apply hthread with ⟨old, hold, hordered⟩ | ⟨migrations, rfl, hordered⟩
      · exact h.present p old hold migration (hordered ▸ hmem)
      · rw [hordered, mem_sortMigrations] at hmem
        exact h.later p migrations (by simp) migration hmem
    · rw [hcontent]
      exact fun p migrations hcall => h.later p migrations (List.mem_cons_of_mem _ hcall)

theorem Settled.run (hs : Sound content c) (h : Settled c moves) :
    (moves.foldl apply c).store.content = c.store.content ∧
      (moves.foldl apply c).log = c.log := by
  induction moves generalizing c with
  | nil => exact ⟨rfl, rfl⟩
  | cons move moves ih =>
    obtain ⟨hsound, hstep⟩ := apply_sound hs move
    obtain ⟨hcontent, hlog, hsettled⟩ := h.step hstep
    obtain ⟨hrest, hrest'⟩ := ih hsound hsettled
    exact ⟨hrest.trans hcontent, hrest'.trans hlog⟩

/-- Two migrations, applied in the order of their versions. -/
example : ((([.call 0 [⟨2, "second", [fun n => .ok (n + 1)]⟩,
      ⟨1, "first", [fun n => .ok (n * 5)]⟩]] ++ List.replicate 20 (.proceed 0 7) :
        List (Move ℕ)).foldl apply (.start ⟨3, []⟩)).store.content =
    ⟨16, [⟨1, 7⟩, ⟨2, 7⟩]⟩) := rfl

end Runs

end Mottainai.SchemaMigrations

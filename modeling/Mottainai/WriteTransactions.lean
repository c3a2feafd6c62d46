import Mathlib.Tactic.Common

/-!
# A database with one writer

Connections share a database. A connection that begins a write transaction works on a copy of the
committed content until it commits the copy or rolls it back, and meanwhile no other connection can
begin one or write. Outside of a transaction a statement commits by itself. Each operation of a
connection may fail on its own, and then the database may have rolled the transaction back.
-/

namespace WriteTransactions

structure Store (Content : Type) where
  content : Content
  writer : Option (ℕ × Content)

namespace Store

variable {Content : Type}

/-- `BEGIN IMMEDIATE`. -/
def begin (s : Store Content) (p : ℕ) : Except String (Store Content) :=
  match s.writer with
  | none => .ok ⟨s.content, some (p, s.content)⟩
  | some (q, _) =>
    if q = p then .error "cannot start a transaction within a transaction"
    else .error "database is locked"

def modify (s : Store Content) (p : ℕ) (f : Content → Except String Content) :
    Except String (Store Content) :=
  match s.writer with
  | none => (f s.content).map fun content => ⟨content, none⟩
  | some (q, working) =>
    if q = p then (f working).map fun working => ⟨s.content, some (p, working)⟩
    else .error "database is locked"

def read (s : Store Content) (p : ℕ) : Content :=
  match s.writer with
  | none => s.content
  | some (q, working) => if q = p then working else s.content

/-- `COMMIT`. -/
def commit (s : Store Content) (p : ℕ) : Except String (Store Content) :=
  match s.writer with
  | none => .error "cannot commit - no transaction is active"
  | some (q, working) =>
    if q = p then .ok ⟨working, none⟩ else .error "cannot commit - no transaction is active"

/-- `ROLLBACK`. -/
def rollback (s : Store Content) (p : ℕ) : Except String (Store Content) :=
  match s.writer with
  | none => .error "cannot rollback - no transaction is active"
  | some (q, _) =>
    if q = p then .ok ⟨s.content, none⟩ else .error "cannot rollback - no transaction is active"

/-- The connection is closed, or it loses its transaction. -/
def close (s : Store Content) (p : ℕ) : Store Content :=
  match s.writer with
  | none => s
  | some (q, _) => if q = p then ⟨s.content, none⟩ else s

variable {s s' : Store Content} {p q : ℕ} {working : Content}
variable {f : Content → Except String Content}

theorem begin_eq_ok (h : s.begin p = .ok s') :
    s'.content = s.content ∧ s'.writer = some (p, s.content) := by
  unfold begin at h
  split at h
  · cases h
    exact ⟨rfl, rfl⟩
  · split_ifs at h

theorem modify_of_writer (hw : s.writer = some (p, working)) (h : s.modify p f = .ok s') :
    s'.content = s.content ∧ ∃ working', f working = .ok working' ∧
      s'.writer = some (p, working') := by
  simp only [modify, hw, if_true] at h
  cases hf : f working with
  | error e =>
    rw [hf] at h
    cases h
  | ok working' =>
    rw [hf] at h
    cases h
    exact ⟨rfl, working', rfl, rfl⟩

theorem read_of_writer (hw : s.writer = some (p, working)) : s.read p = working := by
  simp [read, hw]

theorem commit_of_writer (hw : s.writer = some (p, working)) (h : s.commit p = .ok s') :
    s'.content = working ∧ s'.writer = none := by
  simp only [commit, hw, if_true] at h
  cases h
  exact ⟨rfl, rfl⟩

theorem rollback_eq_ok (h : s.rollback p = .ok s') : s'.content = s.content := by
  unfold rollback at h
  split at h
  · cases h
  · split_ifs at h
    cases h
    rfl

theorem close_content : (s.close p).content = s.content := by
  unfold close
  split
  · rfl
  · split_ifs <;> rfl

section Foreign

variable (hw : s.writer = some (q, working)) (hne : q ≠ p)

include hw hne

/-- While another connection writes, none of the operations succeeds. -/
theorem begin_foreign : s.begin p ≠ .ok s' := by
  simp [begin, hw, hne]

theorem modify_foreign : s.modify p f ≠ .ok s' := by
  simp [modify, hw, hne]

theorem commit_foreign : s.commit p ≠ .ok s' := by
  simp [commit, hw, hne]

theorem rollback_foreign : s.rollback p ≠ .ok s' := by
  simp [rollback, hw, hne]

theorem close_foreign : s.close p = s := by
  simp [close, hw, hne]

end Foreign

end Store

section Outcomes

variable {α β ε : Type} {x : Except ε α} {f : α → β}

theorem map_ok {b : β} (h : x.map f = .ok b) : ∃ a, x = .ok a ∧ f a = b := by
  cases x with
  | error e => cases h
  | ok a => exact ⟨a, rfl, Except.ok.inj h⟩

theorem map_error {e : ε} (h : x.map f = .error e) : x = .error e := by
  cases x with
  | error e' => exact congrArg _ (Except.error.inj h)
  | ok a => cases h

end Outcomes

section Connections

variable {Content α β : Type}

/-- An operation fails on its own; the transaction may be rolled back with it. -/
structure Fault where
  error : String
  rolledBack : Bool

structure Connection (Content : Type) where
  store : Store Content
  faults : List (Option Fault)

structure Connected (Content α : Type) where
  run : Connection Content → Except String α × Connection Content

instance : Monad (Connected Content) where
  pure a := ⟨fun c => (.ok a, c)⟩
  bind x f := ⟨fun c =>
    match x.run c with
    | (.ok a, c') => (f a).run c'
    | (.error e, c') => (.error e, c')⟩

namespace Connected

def throw (e : String) : Connected Content α := ⟨fun c => (.error e, c)⟩

/-- `try` with a `catch` that gets the error. -/
def tryCatch (x : Connected Content α) (handler : String → Connected Content α) :
    Connected Content α := ⟨fun c =>
  match x.run c with
  | (.ok a, c') => (.ok a, c')
  | (.error e, c') => (handler e).run c'⟩

def check (condition : Prop) [Decidable condition] (error : String) : Connected Content Unit :=
  if condition then pure () else throw error

/-- An outcome that was computed without the database. -/
def lift (outcome : Except String α) : Connected Content α := ⟨fun c => (outcome, c)⟩

def operation (p : ℕ) (op : Store Content → Except String (α × Store Content)) :
    Connected Content α := ⟨fun c =>
  match c.faults with
  | some fault :: faults =>
    (.error fault.error, ⟨if fault.rolledBack then c.store.close p else c.store, faults⟩)
  | faults =>
    match op c.store with
    | .ok (a, store) => (.ok a, ⟨store, faults.tail⟩)
    | .error e => (.error e, ⟨c.store, faults.tail⟩)⟩

variable {x : Connected Content α} {c c' : Connection Content} {a : α} {e : String}
variable {handler : String → Connected Content α} {g : α → Connected Content β}

theorem bind_of_ok (h : x.run c = (.ok a, c')) : (x >>= g).run c = (g a).run c' := by
  simp only [Bind.bind, h]

theorem bind_of_error (h : x.run c = (.error e, c')) : (x >>= g).run c = (.error e, c') := by
  simp only [Bind.bind, h]

theorem tryCatch_of_ok (h : x.run c = (.ok a, c')) : (tryCatch x handler).run c = (.ok a, c') := by
  simp only [tryCatch, h]

theorem tryCatch_of_error (h : x.run c = (.error e, c')) :
    (tryCatch x handler).run c = (handler e).run c' := by
  simp only [tryCatch, h]

theorem operation_cases {p : ℕ} (op : Store Content → Except String (α × Store Content))
    (store : Store Content) (faults : List (Option Fault)) :
    (∃ (fault : Fault) (rest : List (Option Fault)), faults ≠ [] ∧
      (operation p op).run ⟨store, faults⟩ =
        (.error fault.error, ⟨if fault.rolledBack then store.close p else store, rest⟩)) ∨
      ∃ rest : List (Option Fault), (faults = [] → rest = []) ∧
        ((∃ a store', op store = .ok (a, store') ∧
            (operation p op).run ⟨store, faults⟩ = (.ok a, ⟨store', rest⟩)) ∨
          ∃ e, op store = .error e ∧
            (operation p op).run ⟨store, faults⟩ = (.error e, ⟨store, rest⟩)) := by
  have hrun : ∀ rest : List (Option Fault),
      (operation p op).run ⟨store, faults⟩ = (match op store with
        | .ok (a, store') => (.ok a, ⟨store', rest⟩)
        | .error e => (.error e, ⟨store, rest⟩)) →
      (∃ a store', op store = .ok (a, store') ∧
          (operation p op).run ⟨store, faults⟩ = (.ok a, ⟨store', rest⟩)) ∨
        ∃ e, op store = .error e ∧
          (operation p op).run ⟨store, faults⟩ = (.error e, ⟨store, rest⟩) := by
    intro rest hoperation
    cases hop : op store with
    | ok r =>
      rw [hop] at hoperation
      exact .inl ⟨r.1, r.2, rfl, hoperation⟩
    | error e =>
      rw [hop] at hoperation
      exact .inr ⟨e, rfl, hoperation⟩
  match faults, hrun with
  | [], hrun => exact .inr ⟨[], id, hrun [] rfl⟩
  | none :: rest, hrun => exact .inr ⟨rest, (by simp), hrun rest rfl⟩
  | some fault :: rest, _ => exact .inl ⟨fault, rest, List.cons_ne_nil _ _, rfl⟩

variable (p : ℕ)

def begin : Connected Content Unit := operation p fun s => (s.begin p).map fun s' => ((), s')

def select (query : Content → α) : Connected Content α := operation p fun s =>
  .ok (query (s.read p), s)

def update (f : Content → Except String Content) : Connected Content Unit :=
  operation p fun s => (s.modify p f).map fun s' => ((), s')

def commit : Connected Content Unit := operation p fun s => (s.commit p).map fun s' => ((), s')

def rollback : Connected Content Unit := operation p fun s => (s.rollback p).map fun s' => ((), s')

/-- Roll back, whether that works or not, and throw the error again. -/
def rethrow (e : String) : Connected Content α := do
  tryCatch (rollback p) fun _ => pure ()
  throw e

/-- `BEGIN IMMEDIATE`, and statements that are rolled back when they throw. -/
def transaction (body : Connected Content α) : Connected Content α := do
  begin p
  tryCatch body (rethrow p)

end Connected

end Connections

section Simulation

variable {Content α β : Type} {p : ℕ} {content working : Content} {faults : List (Option Fault)}

/-- What statements in a transaction come to, against a function on the working copy: they return
or throw what it does, or they fail, and the committed content stays. -/
inductive Simulated (p : ℕ) (content : Content) (faults : List (Option Fault))
    (outcome : Except String (α × Content)) : Except String α × Connection Content → Prop
  | returned (a : α) (working : Content) (rest : List (Option Fault))
      (h : outcome = .ok (a, working)) (hrest : faults = [] → rest = []) :
      Simulated p content faults outcome (.ok a, ⟨⟨content, some (p, working)⟩, rest⟩)
  | thrown (e : String) (working : Content) (rest : List (Option Fault))
      (h : outcome = .error e) (hrest : faults = [] → rest = []) :
      Simulated p content faults outcome (.error e, ⟨⟨content, some (p, working)⟩, rest⟩)
  | failed (e : String) (store : Store Content) (rest : List (Option Fault))
      (hfaults : faults ≠ []) (hcontent : store.content = content) :
      Simulated p content faults outcome (.error e, ⟨store, rest⟩)

/-- Statements in a transaction carry out a function on the working copy. -/
def Simulates (p : ℕ) (x : Connected Content α) (f : Content → Except String (α × Content)) :
    Prop :=
  ∀ content working faults,
    Simulated p content faults (f working) (x.run ⟨⟨content, some (p, working)⟩, faults⟩)

namespace Simulates

theorem pure (a : α) : Simulates p (pure a : Connected Content α) fun db => .ok (a, db) :=
  fun _ working faults => .returned a working faults rfl id

theorem throw (e : String) : Simulates p (Connected.throw e : Connected Content α)
    fun _ => .error e :=
  fun _ working faults => .thrown e working faults rfl id

theorem lift (outcome : Except String α) :
    Simulates p (Connected.lift outcome : Connected Content α) fun db =>
      outcome.map fun a => (a, db) := by
  cases outcome with
  | error e => exact throw e
  | ok a => exact pure a

theorem check (condition : Prop) [Decidable condition] (e : String) :
    Simulates p (Connected.check condition e : Connected Content Unit) fun db =>
      if condition then .ok ((), db) else .error e := by
  unfold Connected.check
  split_ifs
  · exact pure ()
  · exact throw e

variable {f g : Content → Except String (α × Content)} {x : Connected Content α}

theorem bind {f : Content → Except String (α × Content)} {g : α → Connected Content β}
    {h : α → Content → Except String (β × Content)} (hx : Simulates p x f)
    (hg : ∀ a, Simulates p (g a) (h a)) :
    Simulates p (x >>= g) fun db => f db >>= fun r => h r.1 r.2 := by
  intro content working faults
  have hrun := hx content working faults
  generalize hresult : x.run ⟨⟨content, some (p, working)⟩, faults⟩ = run at hrun
  cases hrun with
  | returned a working' rest hf hrest =>
    have hrun := hg a content working' rest
    rw [Connected.bind_of_ok hresult]
    dsimp only
    rw [hf]
    change Simulated p content faults (h a working') _
    generalize (g a).run ⟨⟨content, some (p, working')⟩, rest⟩ = run at hrun ⊢
    cases hrun with
    | returned b working'' rest' hh hrest' =>
      exact .returned b working'' rest' hh fun hnil => hrest' (hrest hnil)
    | thrown e working'' rest' hh hrest' =>
      exact .thrown e working'' rest' hh fun hnil => hrest' (hrest hnil)
    | failed e store rest' hne hcontent =>
      exact .failed e store rest' (fun hnil => hne (hrest hnil)) hcontent
  | thrown e working' rest hf hrest =>
    rw [Connected.bind_of_error hresult]
    dsimp only
    rw [hf]
    exact .thrown e working' rest rfl hrest
  | failed e store rest hne hcontent =>
    rw [Connected.bind_of_error hresult]
    exact .failed e store rest hne hcontent

theorem congr (hx : Simulates p x f) (h : ∀ db, f db = g db) : Simulates p x g :=
  (funext h : f = g) ▸ hx

theorem ite {condition : Prop} [Decidable condition] {x y : Connected Content α}
    (hx : Simulates p x f) (hy : Simulates p y g) :
    Simulates p (if condition then x else y) fun db => if condition then f db else g db := by
  intro content working faults
  split_ifs
  · exact hx content working faults
  · exact hy content working faults

theorem operation {op : Store Content → Except String (α × Store Content)}
    {f : Content → Except String (α × Content)}
    (h : ∀ content working, op ⟨content, some (p, working)⟩ =
      (f working).map fun r => (r.1, ⟨content, some (p, r.2)⟩)) :
    Simulates p (Connected.operation p op) f := by
  intro content working faults
  have hop := h content working
  rcases @Connected.operation_cases _ _ p op ⟨content, some (p, working)⟩ faults with
    ⟨fault, rest, hfaults, hrun⟩ | ⟨rest, hrest, ⟨a, store, hstore, hrun⟩ | ⟨e, hstore, hrun⟩⟩
  · rw [hrun]
    refine .failed _ _ _ hfaults ?_
    split_ifs
    · exact Store.close_content
    · rfl
  · rw [hrun]
    rw [hop] at hstore
    obtain ⟨⟨a', working'⟩, hf, hpair⟩ := map_ok hstore
    cases hpair
    exact .returned a' working' rest hf hrest
  · rw [hrun]
    rw [hop] at hstore
    exact .thrown e working rest (map_error hstore) hrest

theorem select (query : Content → α) :
    Simulates p (Connected.select p query) fun db => .ok (query db, db) := by
  refine operation fun content working => ?_
  rw [Store.read_of_writer rfl]
  rfl

theorem update (f : Content → Except String Content) :
    Simulates p (Connected.update p f) fun db => (f db).map fun db' => ((), db') := by
  refine operation fun content working => ?_
  simp only [Store.modify, if_true]
  cases f working <;> rfl

end Simulates

end Simulation

section Reading

variable {Content α β : Type} {p : ℕ}

/-- Statements outside of a transaction that write nothing. -/
def Reads (y : Connected Content α) (g : Content → Except String α) : Prop :=
  ∀ content faults, ∃ result rest,
    y.run ⟨⟨content, none⟩, faults⟩ = (result, ⟨⟨content, none⟩, rest⟩) ∧
      (∀ a, result = .ok a → g content = .ok a) ∧
      (faults = [] → result = g content ∧ rest = [])

namespace Reads

variable {y : Connected Content α}

theorem congr {g g' : Content → Except String α} (hy : Reads y g)
    (h : ∀ content, g content = g' content) : Reads y g' :=
  (funext h : g = g') ▸ hy

theorem pure (a : α) : Reads (pure a : Connected Content α) fun _ => .ok a :=
  fun _ faults => ⟨.ok a, faults, rfl, fun _ h => h, fun h => ⟨rfl, h⟩⟩

theorem lift (outcome : Except String α) :
    Reads (Connected.lift outcome : Connected Content α) fun _ => outcome :=
  fun _ faults => ⟨outcome, faults, rfl, fun _ h => h, fun h => ⟨rfl, h⟩⟩

theorem select (query : Content → α) :
    Reads (Connected.select p query) fun content => .ok (query content) := by
  intro content faults
  rcases @Connected.operation_cases _ _ p (fun s : Store Content => .ok (query (s.read p), s))
    ⟨content, none⟩ faults with
    ⟨fault, rest, hfaults, hrun⟩ | ⟨rest, hrest, ⟨a, store, hstore, hrun⟩ | ⟨e, hstore, hrun⟩⟩
  · refine ⟨.error fault.error, rest, ?_, fun a h => (by cases h), fun h => absurd h hfaults⟩
    rw [Connected.select, hrun]
    split_ifs <;> rfl
  · cases hstore
    exact ⟨_, rest, hrun, fun a h => h, fun h => ⟨rfl, hrest h⟩⟩
  · cases hstore

theorem bind {g : Content → Except String α} {z : α → Connected Content β}
    {h : α → Content → Except String β} (hy : Reads y g) (hz : ∀ a, Reads (z a) (h a)) :
    Reads (y >>= z) fun content => g content >>= fun a => h a content := by
  intro content faults
  obtain ⟨result, rest, hrun, hok, hfree⟩ := hy content faults
  cases result with
  | error e =>
    refine ⟨.error e, rest, Connected.bind_of_error hrun, fun b hb => (by cases hb), fun hnil => ?_⟩
    obtain ⟨herror, hrest⟩ := hfree hnil
    dsimp only
    rw [← herror]
    exact ⟨rfl, hrest⟩
  | ok a =>
    obtain ⟨result', rest', hrun', hok', hfree'⟩ := hz a content rest
    refine ⟨result', rest', (Connected.bind_of_ok hrun).trans hrun', fun b hb => ?_, fun hnil => ?_⟩
    · dsimp only
      rw [hok a rfl]
      exact hok' b hb
    · dsimp only
      rw [hok a rfl]
      exact hfree' (hfree hnil).2

end Reads

end Reading

section Transactions

variable {Content α β : Type} {p : ℕ} {content : Content} {faults : List (Option Fault)}

/-- What the statements of a transaction come to until they return or throw, against a function on
the committed content. -/
inductive Finished (p : ℕ) (content : Content) (faults : List (Option Fault))
    (outcome : Except String (α × Content)) : Except String α × Connection Content → Prop
  | returned (a : α) (content' : Content) (rest : List (Option Fault))
      (h : outcome = .ok (a, content')) (hrest : faults = [] → rest = []) :
      Finished p content faults outcome (.ok a, ⟨⟨content', none⟩, rest⟩)
  | thrown (e : String) (writer : Option (ℕ × Content)) (rest : List (Option Fault))
      (h : outcome = .error e) (hwriter : ∀ w ∈ writer, w.1 = p)
      (hrest : faults = [] → rest = []) :
      Finished p content faults outcome (.error e, ⟨⟨content, writer⟩, rest⟩)
  | failed (e : String) (store : Store Content) (rest : List (Option Fault))
      (hfaults : faults ≠ []) (hcontent : store.content = content) :
      Finished p content faults outcome (.error e, ⟨store, rest⟩)

/-- The statements of a transaction, from a committed content, commit an outcome, or throw. -/
def Transacts (p : ℕ) (content : Content) (x : Connected Content α)
    (outcome : Except String (α × Content)) : Prop :=
  ∀ faults, Finished p content faults outcome (x.run ⟨⟨content, some (p, content)⟩, faults⟩)

namespace Transacts

variable {x : Connected Content α}

theorem congr {outcome outcome' : Except String (α × Content)}
    (hx : Transacts p content x outcome) (h : outcome = outcome') :
    Transacts p content x outcome' :=
  h ▸ hx

/-- What is carried out before the statements of a transaction, where nothing is written yet. -/
theorem bind {f : Content → Except String α} {g : α → Connected Content β}
    {h : α → Except String (β × Content)}
    (hx : Simulates p x fun db => (f db).map fun a => (a, db))
    (hg : ∀ a, f content = .ok a → Transacts p content (g a) (h a)) :
    Transacts p content (x >>= g) (f content >>= h) := by
  intro faults
  have hrun := hx content content faults
  generalize hresult : x.run ⟨⟨content, some (p, content)⟩, faults⟩ = run at hrun
  cases hrun with
  | returned a working rest hf hrest =>
    obtain ⟨a', hvalue, hpair⟩ := map_ok hf
    cases hpair
    have hrun := hg a hvalue rest
    rw [Connected.bind_of_ok hresult, hvalue]
    change Finished p content faults (h a) _
    generalize (g a).run ⟨⟨content, some (p, content)⟩, rest⟩ = run at hrun ⊢
    cases hrun with
    | returned b content' rest' hh hrest' =>
      exact .returned b content' rest' hh fun hnil => hrest' (hrest hnil)
    | thrown e writer rest' hh hwriter hrest' =>
      exact .thrown e writer rest' hh hwriter fun hnil => hrest' (hrest hnil)
    | failed e store rest' hne hcontent =>
      exact .failed e store rest' (fun hnil => hne (hrest hnil)) hcontent
  | thrown e working rest hf hrest =>
    rw [Connected.bind_of_error hresult, map_error hf]
    exact .thrown e _ rest rfl (by simp) hrest
  | failed e store rest hne hcontent =>
    rw [Connected.bind_of_error hresult]
    exact .failed e store rest hne hcontent

theorem ite {condition : Prop} [Decidable condition] {x y : Connected Content α}
    {outcome outcome' : Except String (α × Content)} (hx : Transacts p content x outcome)
    (hy : ¬ condition → Transacts p content y outcome') :
    Transacts p content (if condition then x else y) (if condition then outcome else outcome') := by
  intro faults
  split_ifs with h
  · exact hx faults
  · exact hy h faults

theorem throw (e : String) :
    Transacts p content (Connected.throw e : Connected Content α) (.error e) :=
  fun faults => .thrown e _ faults rfl (by simp) id

/-- A `COMMIT` commits the working copy, or fails. -/
theorem commit_cases (content working : Content) (faults : List (Option Fault)) :
    (∃ e store rest, faults ≠ [] ∧ store.content = content ∧
      (Connected.commit p).run ⟨⟨content, some (p, working)⟩, faults⟩ =
        (.error e, ⟨store, rest⟩)) ∨
      ∃ rest, (faults = [] → rest = []) ∧
        (Connected.commit p).run ⟨⟨content, some (p, working)⟩, faults⟩ =
          (.ok (), ⟨⟨working, none⟩, rest⟩) := by
  have hcommit : (⟨content, some (p, working)⟩ : Store Content).commit p = .ok ⟨working, none⟩ := by
    simp [Store.commit]
  rcases Connected.operation_cases (p := p) (fun s : Store Content =>
      (s.commit p).map fun s' => ((), s')) ⟨content, some (p, working)⟩ faults with
    ⟨fault, rest, hfaults, hrun⟩ | ⟨rest, hrest, ⟨a, store, hstore, hrun⟩ | ⟨e, hstore, hrun⟩⟩
  · refine .inl ⟨_, _, rest, hfaults, ?_, hrun⟩
    split_ifs
    · exact Store.close_content
    · rfl
  · rw [hcommit] at hstore
    cases hstore
    exact .inr ⟨rest, hrest, hrun⟩
  · rw [hcommit] at hstore
    cases hstore

/-- Nothing was written before the `COMMIT`, after which there are only reads. -/
theorem commit_reads {y : Connected Content α} {g : Content → Except String α} (hy : Reads y g) :
    Transacts p content (Connected.commit p >>= fun _ => y)
      ((g content).map fun a => (a, content)) := by
  intro faults
  rcases commit_cases content content faults with
    ⟨e, store, rest, hfaults, hcontent, hrun⟩ | ⟨rest, hrest, hrun⟩
  · rw [Connected.bind_of_error hrun]
    exact .failed _ _ _ hfaults hcontent
  · rw [Connected.bind_of_ok hrun]
    obtain ⟨result, rest', hrun', hok, hfree⟩ := hy content rest
    rw [hrun']
    cases result with
    | ok b =>
      rw [hok b rfl]
      exact .returned b content rest' rfl fun hnil => (hfree (hrest hnil)).2
    | error e =>
      rcases rest with _ | ⟨fault, rest⟩
      · rw [← (hfree rfl).1]
        exact .thrown e none rest' rfl (by simp) fun _ => (hfree rfl).2
      · refine .failed e _ rest' (fun hnil => ?_) rfl
        cases hrest hnil

/-- After the `COMMIT` of what was written, nothing throws. -/
theorem commit_lift {f : Content → Except String (α × Content)} {tail : α → Except String β}
    (hx : Simulates p x f)
    (htail : ∀ a content', f content = .ok (a, content') → ∃ b, tail a = .ok b) :
    Transacts p content
      (x >>= fun a => Connected.commit p >>= fun _ => Connected.lift (tail a))
      (f content >>= fun r => (tail r.1).map fun b => (b, r.2)) := by
  intro faults
  have hrun := hx content content faults
  generalize hresult : x.run ⟨⟨content, some (p, content)⟩, faults⟩ = run at hrun
  cases hrun with
  | thrown e working rest hf hrest =>
    rw [Connected.bind_of_error hresult, hf]
    exact .thrown e _ rest rfl (by simp) hrest
  | failed e store rest hne hcontent =>
    rw [Connected.bind_of_error hresult]
    exact .failed e store rest hne hcontent
  | returned a working rest hf hrest =>
    obtain ⟨b, hb⟩ := htail a working hf
    rw [Connected.bind_of_ok hresult, hf]
    change Finished p content faults ((tail a).map fun b => (b, working)) _
    rw [hb]
    rcases commit_cases content working rest with
      ⟨e, store, rest', hfaults, hcontent, hrun⟩ | ⟨rest', hrest', hrun⟩
    · rw [Connected.bind_of_error hrun]
      exact .failed _ _ _ (fun hnil => hfaults (hrest hnil)) hcontent
    · rw [Connected.bind_of_ok hrun]
      exact .returned b working rest' rfl fun hnil => hrest' (hrest hnil)

end Transacts

/-- A transaction that is rolled back leaves the committed content. -/
theorem rollback_cases (c : Connection Content) :
    ∃ result c', (Connected.rollback p).run c = (result, c') ∧ c'.store.content = c.store.content ∧
      (c.faults = [] → (∀ w ∈ c.store.writer, w.1 = p) →
        c' = ⟨⟨c.store.content, none⟩, []⟩) := by
  obtain ⟨store, faults⟩ := c
  rcases Connected.operation_cases (p := p) (fun s : Store Content =>
      (s.rollback p).map fun s' => ((), s')) store faults with
    ⟨fault, rest, hfaults, hrun⟩ | ⟨rest, hrest, ⟨a, store', hstore, hrun⟩ | ⟨e, hstore, hrun⟩⟩
  · refine ⟨_, _, hrun, ?_, fun hnil => absurd hnil hfaults⟩
    dsimp only
    split_ifs
    · exact Store.close_content
    · rfl
  · obtain ⟨store'', hrollback, hpair⟩ := map_ok hstore
    cases hpair
    refine ⟨_, _, hrun, Store.rollback_eq_ok hrollback, fun hnil _ => ?_⟩
    rw [hrest hnil]
    unfold Store.rollback at hrollback
    split at hrollback
    · cases hrollback
    · split_ifs at hrollback
      rw [← Except.ok.inj hrollback]
  · refine ⟨_, _, hrun, rfl, fun hnil hwriter => ?_⟩
    rw [hrest hnil]
    obtain ⟨content, writer⟩ := store
    cases writer with
    | none => rfl
    | some w =>
      obtain rfl : w.1 = p := hwriter w rfl
      simp [Store.rollback, Except.map] at hstore

/-- The error is thrown again, whether the rollback works or not. -/
theorem rethrow_spec (e : String) (c : Connection Content) :
    ∃ c', (Connected.rethrow p e : Connected Content α).run c = (.error e, c') ∧
      c'.store.content = c.store.content ∧
      (c.faults = [] → (∀ w ∈ c.store.writer, w.1 = p) → c' = ⟨⟨c.store.content, none⟩, []⟩) := by
  obtain ⟨result, c', hrun, hcontent, hfree⟩ := @rollback_cases _ p c
  refine ⟨c', ?_, hcontent, hfree⟩
  cases result with
  | ok a => exact Connected.bind_of_ok (Connected.tryCatch_of_ok hrun)
  | error e' =>
    have hcaught : (Connected.tryCatch (Connected.rollback p) fun _ => pure ()).run c =
        (.ok (), c') := Connected.tryCatch_of_error hrun
    exact Connected.bind_of_ok hcaught

variable {body : Connected Content α} {outcome : Except String (α × Content)}
  {c : Connection Content}

/-- `BEGIN` opens a transaction on the committed content, or fails. -/
theorem begin_cases (c : Connection Content) :
    (∃ e c', (Connected.begin p).run c = (.error e, c') ∧ c'.store.content = c.store.content) ∨
      ∃ rest, (c.faults = [] → rest = []) ∧ (Connected.begin p).run c =
        (.ok (), ⟨⟨c.store.content, some (p, c.store.content)⟩, rest⟩) := by
  obtain ⟨store, faults⟩ := c
  rcases Connected.operation_cases (p := p) (fun s : Store Content =>
      (s.begin p).map fun s' => ((), s')) store faults with
    ⟨fault, rest, hfaults, hrun⟩ | ⟨rest, hrest, ⟨a, store', hstore, hrun⟩ | ⟨e, hstore, hrun⟩⟩
  · refine .inl ⟨_, _, hrun, ?_⟩
    dsimp only
    split_ifs
    · exact Store.close_content
    · rfl
  · obtain ⟨⟨content, writer⟩, hbegin, hpair⟩ := map_ok hstore
    cases hpair
    obtain ⟨hcontent, hwriter⟩ := Store.begin_eq_ok hbegin
    dsimp only at hcontent hwriter
    rw [hcontent, hwriter] at hrun
    exact .inr ⟨rest, hrest, hrun⟩
  · exact .inl ⟨e, _, hrun, rfl⟩

/-- A transaction that throws leaves the committed content, and one that returns commits its
outcome. -/
theorem transaction_spec (hbody : Transacts p c.store.content body outcome) :
    (∃ e c', (Connected.transaction p body).run c = (.error e, c') ∧
      c'.store.content = c.store.content) ∨
      ∃ a c', (Connected.transaction p body).run c = (.ok a, c') ∧
        outcome = .ok (a, c'.store.content) ∧ c'.store.writer = none := by
  rcases begin_cases (p := p) c with ⟨e, c', hrun, hcontent⟩ | ⟨rest, -, hrun⟩
  · exact .inl ⟨e, c', Connected.bind_of_error hrun, hcontent⟩
  · have hfinished := hbody rest
    have htransaction : (Connected.transaction p body).run c =
        (Connected.tryCatch body (Connected.rethrow p)).run
          ⟨⟨c.store.content, some (p, c.store.content)⟩, rest⟩ := Connected.bind_of_ok hrun
    rw [htransaction]
    generalize hresult : body.run ⟨⟨c.store.content, some (p, c.store.content)⟩, rest⟩ = result
      at hfinished
    cases hfinished with
    | returned a content' rest' hf hrest' =>
      exact .inr ⟨a, _, Connected.tryCatch_of_ok hresult, hf, rfl⟩
    | thrown e writer rest' hf hwriter hrest' =>
      obtain ⟨c', hthrown, hcontent, -⟩ := rethrow_spec (α := α) (p := p) e
        ⟨⟨c.store.content, writer⟩, rest'⟩
      exact .inl ⟨e, c', (Connected.tryCatch_of_error hresult).trans hthrown, hcontent⟩
    | failed e store rest' hfaults hcontent =>
      obtain ⟨c', hthrown, hcontent', -⟩ := rethrow_spec (α := α) (p := p) e ⟨store, rest'⟩
      exact .inl ⟨e, c', (Connected.tryCatch_of_error hresult).trans hthrown,
        hcontent'.trans hcontent⟩

/-- What a transaction comes to where nothing fails and no one else writes. -/
def settled (content : Content) (outcome : Except String (α × Content)) :
    Except String α × Connection Content :=
  match outcome with
  | .ok (a, content') => (.ok a, ⟨⟨content', none⟩, []⟩)
  | .error e => (.error e, ⟨⟨content, none⟩, []⟩)

theorem transaction_free (hbody : Transacts p content body outcome) :
    (Connected.transaction p body).run ⟨⟨content, none⟩, []⟩ = settled content outcome := by
  have hrun : (Connected.begin p).run ⟨⟨content, none⟩, []⟩ =
      (.ok (), (⟨⟨content, some (p, content)⟩, []⟩ : Connection Content)) := rfl
  have htransaction : (Connected.transaction p body).run ⟨⟨content, none⟩, []⟩ =
      (Connected.tryCatch body (Connected.rethrow p)).run ⟨⟨content, some (p, content)⟩, []⟩ :=
    Connected.bind_of_ok hrun
  have hfinished := hbody []
  rw [htransaction]
  generalize hresult : body.run ⟨⟨content, some (p, content)⟩, []⟩ = result at hfinished
  cases hfinished with
  | returned a content' rest' hf hrest' =>
    rw [Connected.tryCatch_of_ok hresult, hf, hrest' rfl]
    rfl
  | thrown e writer rest' hf hwriter hrest' =>
    obtain ⟨c', hthrown, -, hfree⟩ := rethrow_spec (α := α) (p := p) e ⟨⟨content, writer⟩, rest'⟩
    rw [Connected.tryCatch_of_error hresult, hthrown, hf, hfree (hrest' rfl) hwriter]
    rfl
  | failed e store rest' hfaults hcontent => exact absurd rfl hfaults

end Transactions

end WriteTransactions

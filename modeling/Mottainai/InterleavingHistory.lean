import Mathlib.Data.List.Induction

/-!
# Pools of concurrent calls

A program has returned a value, or it issues one atomic operation and continues with the answer.
What an operation does is given by a `Semantics`; `fallible` is a deterministic one that may fail at
any time and leave the state alone. A pool has one shared state and any number of processes, which
invoke calls, execute their next operations, and may crash at any point. `Run` is every interleaving
of these steps with its events, and `play` executes a schedule of moves. `Run.leaves` recovers from
the events how far each process has come.
-/

namespace Interleaving

/-- A program over operations `Op`, each answered by a value of `Res op`. -/
inductive Program (Op : Type) (Res : Op → Type) (α : Type) : Type where
  | pure (a : α) : Program Op Res α
  | call (op : Op) (next : Res op → Program Op Res α) : Program Op Res α

namespace Program

variable {Op : Type} {Res : Op → Type} {α β γ : Type}

/-- Sequential composition grafts the second program onto every returned value. -/
def bind (x : Program Op Res α) (f : α → Program Op Res β) : Program Op Res β :=
  match x with
  | .pure a => f a
  | .call op next => .call op (fun r => (next r).bind f)

instance : Monad (Program Op Res) where
  pure := Program.pure
  bind := Program.bind

@[simp] theorem pure_bind (a : α) (f : α → Program Op Res β) :
    (Program.pure a).bind f = f a := rfl

@[simp] theorem call_bind (op : Op) (next : Res op → Program Op Res α)
    (f : α → Program Op Res β) :
    (Program.call op next).bind f = .call op (fun r => (next r).bind f) := rfl

theorem bind_pure (x : Program Op Res α) : x.bind .pure = x := by
  induction x with
  | pure a => rfl
  | call op next ih =>
    rw [call_bind]
    exact congrArg (Program.call op) (funext ih)

theorem bind_assoc (x : Program Op Res α) (f : α → Program Op Res β)
    (g : β → Program Op Res γ) :
    (x.bind f).bind g = x.bind (fun a => (f a).bind g) := by
  induction x with
  | pure a => rfl
  | call op next ih =>
    simp only [call_bind]
    exact congrArg (Program.call op) (funext ih)

instance : LawfulMonad (Program Op Res) :=
  LawfulMonad.mk' _ bind_pure (fun _ _ => rfl) bind_assoc

/-- Every operation the program can issue satisfies `P`, whatever the answers. -/
def Issues (P : Op → Prop) : Program Op Res α → Prop
  | .pure _ => True
  | .call op next => P op ∧ ∀ r, (next r).Issues P

variable {x : Program Op Res α} {P : Op → Prop}

theorem Issues.bind {f : α → Program Op Res β} (hx : x.Issues P) (hf : ∀ a, (f a).Issues P) :
    (x.bind f).Issues P := by
  induction x with
  | pure a => exact hf a
  | call op next ih => exact ⟨hx.1, fun r => ih r (hx.2 r)⟩

variable {Op' : Type} {Res' : Op' → Type}

/-- Put a program in the place of every operation. -/
def inline (body : (op : Op) → Program Op' Res' (Res op)) :
    Program Op Res α → Program Op' Res' α
  | .pure a => .pure a
  | .call op next => (body op).bind (fun r => (next r).inline body)

theorem inline_bind (body : (op : Op) → Program Op' Res' (Res op)) (x : Program Op Res α)
    (f : α → Program Op Res β) :
    (x.bind f).inline body = (x.inline body).bind (fun a => (f a).inline body) := by
  induction x with
  | pure a => rfl
  | call op next ih => simp only [call_bind, inline, bind_assoc, ih]

theorem Issues.inline {Q : Op' → Prop} {body : (op : Op) → Program Op' Res' (Res op)}
    (hx : x.Issues P) (hbody : ∀ op, P op → (body op).Issues Q) : (x.inline body).Issues Q := by
  induction x with
  | pure a => trivial
  | call op next ih => exact (hbody op hx.1).bind fun r => ih r (hx.2 r)

end Program

/-- The outcomes of an operation: state before, answer, state after. -/
abbrev Semantics (Op : Type) (Res : Op → Type) (σ : Type) : Type :=
  (op : Op) → σ → Res op → σ → Prop

namespace Semantics

variable {Op : Type} {Res : Op → Type} {σ : Type}

/-- The outcomes whose operation met `cond` on the state it was issued in. -/
def guarded (sem : Semantics Op Res σ) (cond : Op → σ → Prop) : Semantics Op Res σ :=
  fun op s r s' => cond op s ∧ sem op s r s'

/-- The environment may move the state before the operation is carried out. -/
def after (sem : Semantics Op Res σ) (moves : σ → σ → Prop) : Semantics Op Res σ :=
  fun op s r s'' => ∃ s', moves s s' ∧ sem op s' r s''

theorem guarded_of_true {sem : Semantics Op Res σ} {op : Op} {s s' : σ} {r : Res op}
    (h : sem op s r s') : sem.guarded (fun _ _ => True) op s r s' := ⟨trivial, h⟩

end Semantics

section Fallible

variable {Op : Type} {Val : Op → Type} {ε σ α β : Type}

/-- A program whose operations may fail with an error, and which may itself
throw one. -/
abbrev Throwing (Op : Type) (Val : Op → Type) (ε α : Type) : Type :=
  ExceptT ε (Program Op (fun op => Except ε (Val op))) α

/-- Issue one operation; its failure is thrown. -/
def request (op : Op) : Throwing Op Val ε (Val op) :=
  ExceptT.mk (.call op .pure)

/-- The given meaning, or a failure that leaves the state as it was. -/
def fallible (exec : (op : Op) → σ → Except ε (Val op) × σ) :
    Semantics Op (fun op => Except ε (Val op)) σ :=
  fun op s r s' => (r, s') = exec op s ∨ ((∃ e, r = .error e) ∧ s' = s)

theorem fallible_exec (exec : (op : Op) → σ → Except ε (Val op) × σ) (op : Op) (s : σ) :
    fallible exec op s (exec op s).1 (exec op s).2 := Or.inl rfl

/-- An operation that was answered did not fail. -/
theorem fallible_ok {exec : (op : Op) → σ → Except ε (Val op) × σ} {op : Op} {s s' : σ}
    {v : Val op} (h : fallible exec op s (.ok v) s') : exec op s = (.ok v, s') := by
  rcases h with heq | ⟨⟨e, he⟩, -⟩
  · exact heq.symm
  · cases he

/-- The answer of a statement or transaction; a thrown error leaves the old state. -/
def committed (s : σ) : Except ε (β × σ) → Except ε β × σ
  | .ok (value, s') => (.ok value, s')
  | .error e => (.error e, s)

theorem committed_eq_ok {s s' : σ} {x : Except ε (β × σ)} {b : β}
    (h : committed s x = (.ok b, s')) : x = .ok (b, s') := by
  cases x with
  | error e => cases h
  | ok result =>
    cases h
    rfl

/-- Run a program alone, with every operation succeeding as `exec` says. -/
def Program.alone (exec : (op : Op) → σ → Except ε (Val op) × σ) :
    Program Op (fun op => Except ε (Val op)) α → σ → α × σ
  | .pure a, s => (a, s)
  | .call op next, s => (next (exec op s).1).alone exec (exec op s).2

@[simp] theorem alone_pure (exec : (op : Op) → σ → Except ε (Val op) × σ) (a : α) (s : σ) :
    (pure a : Program Op (fun op => Except ε (Val op)) α).alone exec s = (a, s) := rfl

@[simp] theorem run_request_bind (op : Op) (f : Val op → Throwing Op Val ε α) :
    (request op >>= f : Throwing Op Val ε α).run =
      .call op (fun r => match r with
        | .ok v => (f v).run
        | .error e => .pure (.error e)) := by
  change Program.call op _ = Program.call op _
  congr 1
  funext r
  cases r <;> rfl

@[simp] theorem run_lift_bind (x : Except ε β) (f : β → Throwing Op Val ε α) :
    ((liftM x : Throwing Op Val ε β) >>= f).run =
      match x with
      | .ok v => (f v).run
      | .error e => .pure (.error e) := by
  cases x <;> rfl

@[simp] theorem run_request (op : Op) :
    (request op : Throwing Op Val ε (Val op)).run = .call op .pure := rfl

@[simp] theorem run_pure (a : α) :
    (pure a : Throwing Op Val ε α).run = .pure (.ok a) := rfl

@[simp] theorem run_throw (e : ε) :
    (throw e : Throwing Op Val ε α).run = .pure (.error e) := rfl

variable {P : Op → Prop}

/-- A program run alone keeps what each of its operations keeps. -/
theorem Program.alone_invariant {exec : (op : Op) → σ → Except ε (Val op) × σ} {I : σ → Prop}
    (hop : ∀ op s, P op → I s → I (exec op s).2) {x : Program Op (fun op => Except ε (Val op)) α}
    (hx : x.Issues P) {s : σ} (hs : I s) : I (x.alone exec s).2 := by
  induction x generalizing s with
  | pure a => exact hs
  | call op next ih => exact ih _ (hx.2 _) (hop op s hx.1 hs)

/-- A program run alone relates its states as each of its operations does. -/
theorem Program.alone_relation {exec : (op : Op) → σ → Except ε (Val op) × σ} {R : σ → σ → Prop}
    (hrefl : ∀ s, R s s) (htrans : ∀ a b c, R a b → R b c → R a c)
    (hop : ∀ op s, R s (exec op s).2) (x : Program Op (fun op => Except ε (Val op)) α) (s : σ) :
    R s (x.alone exec s).2 := by
  induction x generalizing s with
  | pure a => exact hrefl s
  | call op next ih => exact htrans _ _ _ (hop op s) (ih _ _)

theorem Program.alone_bind {exec : (op : Op) → σ → Except ε (Val op) × σ}
    (x : Program Op (fun op => Except ε (Val op)) α)
    (f : α → Program Op (fun op => Except ε (Val op)) β) (s : σ) :
    (x.bind f).alone exec s = (f (x.alone exec s).1).alone exec (x.alone exec s).2 := by
  induction x generalizing s with
  | pure a => rfl
  | call op next ih => exact ih _ _

/-- Run alone, the second program starts where the first one has returned. -/
theorem alone_run_bind {exec : (op : Op) → σ → Except ε (Val op) × σ}
    (x : Throwing Op Val ε α) (f : α → Throwing Op Val ε β) (s : σ) :
    (x >>= f).run.alone exec s = match x.run.alone exec s with
      | (.ok a, s') => (f a).run.alone exec s'
      | (.error e, s') => (.error e, s') := by
  change (x.run.bind (ExceptT.bindCont f)).alone exec s = _
  rw [Program.alone_bind]
  rcases x.run.alone exec s with ⟨r, s'⟩
  cases r with
  | ok a => rfl
  | error e => rfl

theorem issues_request_bind {op : Op} {f : Val op → Throwing Op Val ε α} (hop : P op)
    (hf : ∀ v, (f v).run.Issues P) : (request op >>= f).run.Issues P := by
  rw [run_request_bind]
  refine ⟨hop, fun r => ?_⟩
  cases r with
  | ok v => exact hf v
  | error e => trivial

end Fallible

section Inline

variable {Op Op' : Type} {Val : Op → Type} {Val' : Op' → Type} {ε α β : Type}

/-- Carry out every operation of a throwing program by a throwing program. -/
def inlined (body : (op : Op) → Throwing Op' Val' ε (Val op)) (x : Throwing Op Val ε α) :
    Throwing Op' Val' ε α :=
  ExceptT.mk (x.run.inline fun op => (body op).run)

variable (body : (op : Op) → Throwing Op' Val' ε (Val op))

@[simp] theorem inlined_pure (a : α) :
    inlined body (pure a : Throwing Op Val ε α) = pure a := rfl

@[simp] theorem inlined_throw (e : ε) :
    inlined body (throw e : Throwing Op Val ε α) = throw e := rfl

@[simp] theorem inlined_request (op : Op) :
    inlined body (request op : Throwing Op Val ε (Val op)) = body op :=
  Program.bind_pure (body op).run

@[simp] theorem inlined_bind (x : Throwing Op Val ε α) (f : α → Throwing Op Val ε β) :
    inlined body (x >>= f) = inlined body x >>= fun a => inlined body (f a) := by
  change (x.run.bind _).inline _ = (x.run.inline _).bind _
  rw [Program.inline_bind]
  congr 1
  funext r
  cases r <;> rfl

@[simp] theorem inlined_ite (p : Prop) [Decidable p] (x y : Throwing Op Val ε α) :
    inlined body (if p then x else y) = if p then inlined body x else inlined body y :=
  apply_ite (inlined body) p x y

end Inline

variable {σ Call : Type} {Op : Type} {Res : Op → Type} {α : Type}

/-- The shared state, and for each process the call it is inside of together with
what is left of that call. -/
structure Config (σ Call Op : Type) (Res : Op → Type) (α : Type) where
  shared : σ
  threads : ℕ → Option (Call × Program Op Res α)

namespace Config

def idle (s : σ) : Config σ Call Op Res α := ⟨s, fun _ => none⟩

/-- Replace what one process is doing. -/
def setThread (k : Config σ Call Op Res α) (p : ℕ)
    (t : Option (Call × Program Op Res α)) : Config σ Call Op Res α :=
  { k with threads := Function.update k.threads p t }

@[simp] theorem idle_shared (s : σ) : (idle s : Config σ Call Op Res α).shared = s := rfl

@[simp] theorem idle_threads (s : σ) (p : ℕ) :
    (idle s : Config σ Call Op Res α).threads p = none := rfl

@[simp] theorem setThread_shared (k : Config σ Call Op Res α) (p : ℕ)
    (t : Option (Call × Program Op Res α)) : (k.setThread p t).shared = k.shared := rfl

@[simp] theorem setThread_same (k : Config σ Call Op Res α) (p : ℕ)
    (t : Option (Call × Program Op Res α)) : (k.setThread p t).threads p = t := by
  simp [setThread]

theorem setThread_other (k : Config σ Call Op Res α) {p q : ℕ} (h : q ≠ p)
    (t : Option (Call × Program Op Res α)) :
    (k.setThread p t).threads q = k.threads q := by
  simp [setThread, h]

end Config

/-- What a step shows: a call begins, one of its operations is answered, it hands
back its value, or its process crashes. -/
inductive Event (Call Op : Type) (Res : Op → Type) (α : Type) where
  | invoke (p : ℕ) (c : Call)
  | exec (p : ℕ) (c : Call) (op : Op) (r : Res op)
  | response (p : ℕ) (c : Call) (a : α)
  | crash (p : ℕ)

def Event.process : Event Call Op Res α → ℕ
  | .invoke p _ => p
  | .exec p _ _ _ => p
  | .response p _ _ => p
  | .crash p => p

/-- One step of the pool; `program` gives the body of each call. -/
inductive Step (program : Call → Program Op Res α) (sem : Semantics Op Res σ) :
    Config σ Call Op Res α → Event Call Op Res α → Config σ Call Op Res α → Prop where
  | invoke {k p} (c : Call) (free : k.threads p = none) :
      Step program sem k (.invoke p c) (k.setThread p (some (c, program c)))
  | exec {k p c op next r s'} (at_call : k.threads p = some (c, .call op next))
      (outcome : sem op k.shared r s') :
      Step program sem k (.exec p c op r)
        ({ k with shared := s' }.setThread p (some (c, next r)))
  | response {k p c a} (at_return : k.threads p = some (c, .pure a)) :
      Step program sem k (.response p c a) (k.setThread p none)
  | crash {k} (p : ℕ) : Step program sem k (.crash p) (k.setThread p none)

/-- Every interleaving, with its events in order. -/
inductive Run (program : Call → Program Op Res α) (sem : Semantics Op Res σ) :
    Config σ Call Op Res α → List (Event Call Op Res α) → Config σ Call Op Res α → Prop where
  | refl (k) : Run program sem k [] k
  | snoc {k es k' e k''} (run : Run program sem k es k') (step : Step program sem k' e k'') :
      Run program sem k (es ++ [e]) k''

variable {program : Call → Program Op Res α} {sem sem' : Semantics Op Res σ}
variable {k k' k'' : Config σ Call Op Res α} {es es' : List (Event Call Op Res α)}
variable {e : Event Call Op Res α}

theorem Run.single (h : Step program sem k e k') : Run program sem k [e] k' :=
  Run.snoc (.refl k) h

theorem Run.append (h : Run program sem k es k') (h' : Run program sem k' es' k'') :
    Run program sem k (es ++ es') k'' := by
  induction h' with
  | refl => simpa using h
  | snoc _ step ih =>
    rw [← List.append_assoc]
    exact ih.snoc step

/-- A run that produced `es ++ es'` passed through a configuration in between. -/
theorem Run.split (h : Run program sem k (es ++ es') k'') :
    ∃ k', Run program sem k es k' ∧ Run program sem k' es' k'' := by
  induction es' using List.reverseRecOn generalizing k'' with
  | nil => exact ⟨k'', by simpa using h, .refl k''⟩
  | append_singleton es' e ih =>
    rw [← List.append_assoc] at h
    generalize hl : es ++ es' ++ [e] = l at h
    cases h with
    | refl => simp at hl
    | snoc run step =>
      obtain ⟨rfl, he⟩ := List.append_inj' hl rfl
      cases he
      obtain ⟨k', h₁, h₂⟩ := ih run
      exact ⟨k', h₁, h₂.snoc step⟩

theorem Run.nil_eq (h : Run program sem k [] k') : k' = k := by
  generalize hl : ([] : List (Event Call Op Res α)) = l at h
  cases h with
  | refl => rfl
  | snoc run step => simp at hl

theorem Run.step_of_single (h : Run program sem k [e] k') : Step program sem k e k' := by
  generalize hl : [e] = l at h
  cases h with
  | refl => simp at hl
  | snoc run step =>
    rw [← List.nil_append [e]] at hl
    obtain ⟨hnil, he⟩ := List.append_inj' hl rfl
    cases he
    subst hnil
    exact run.nil_eq ▸ step

/-- The step that produced one of the events. -/
theorem Run.split_step (h : Run program sem k (es ++ e :: es') k'') :
    ∃ k₁ k₂, Run program sem k es k₁ ∧ Step program sem k₁ e k₂ ∧ Run program sem k₂ es' k'' := by
  rw [List.append_cons] at h
  obtain ⟨k₂, h₁, h₂⟩ := h.split
  obtain ⟨k₁, h₀, hstep⟩ := h₁.split
  exact ⟨k₁, k₂, h₀, hstep.step_of_single, h₂⟩

theorem Run.invariant {I : Config σ Call Op Res α → Prop} (h : Run program sem k es k')
    (hstep : ∀ {k e k'}, I k → Step program sem k e k' → I k') (hk : I k) : I k' := by
  induction h with
  | refl => exact hk
  | snoc _ step ih => exact hstep ih step

variable {R : σ → σ → Prop}

/-- A step moves the shared state by one operation at most. -/
theorem Step.relation (h : Step program sem k e k') (hrefl : ∀ s, R s s)
    (hop : ∀ op s r s', sem op s r s' → R s s') : R k.shared k'.shared := by
  cases h with
  | exec at_call outcome => exact hop _ _ _ _ outcome
  | invoke => exact hrefl _
  | response => exact hrefl _
  | crash => exact hrefl _

/-- What every operation respects holds from any state to any later one. -/
theorem Run.relation (h : Run program sem k es k') (hrefl : ∀ s, R s s)
    (htrans : ∀ a b c, R a b → R b c → R a c) (hop : ∀ op s r s', sem op s r s' → R s s') :
    R k.shared k'.shared := by
  induction h with
  | refl => exact hrefl _
  | snoc _ step ih => exact htrans _ _ _ ih (step.relation hrefl hop)

theorem Step.mono (h : Step program sem k e k')
    (hsem : ∀ op s r s', sem op s r s' → sem' op s r s') : Step program sem' k e k' := by
  cases h with
  | invoke c free => exact .invoke c free
  | exec at_call outcome => exact .exec at_call (hsem _ _ _ _ outcome)
  | response at_return => exact .response at_return
  | crash p => exact .crash p

theorem Run.mono (h : Run program sem k es k')
    (hsem : ∀ op s r s', sem op s r s' → sem' op s r s') : Run program sem' k es k' := by
  induction h with
  | refl => exact .refl _
  | snoc _ step ih => exact ih.snoc (step.mono hsem)

theorem Step.threads_other (h : Step program sem k e k') {q : ℕ} (hq : e.process ≠ q) :
    k'.threads q = k.threads q := by
  cases h with
  | invoke c free => exact k.setThread_other (Ne.symm hq) _
  | exec at_call outcome => exact Config.setThread_other _ (Ne.symm hq) _
  | response at_return => exact k.setThread_other (Ne.symm hq) _
  | crash p => exact k.setThread_other (Ne.symm hq) _

theorem Run.threads_other (h : Run program sem k es k') {q : ℕ}
    (hq : ∀ e ∈ es, e.process ≠ q) : k'.threads q = k.threads q := by
  induction h with
  | refl => rfl
  | snoc _ step ih =>
    rw [step.threads_other (hq _ (by simp)), ih (fun e he => hq e (by simp [he]))]

section Play

variable {Val : Op → Type} {ε : Type}

/-- One entry of a schedule. `exec` lets the operation succeed, `fail` makes it
fail with the given error. -/
inductive Move (Call ε : Type) where
  | invoke (p : ℕ) (c : Call)
  | exec (p : ℕ)
  | fail (p : ℕ) (e : ε)
  | respond (p : ℕ)
  | crash (p : ℕ)

variable (program : Call → Program Op (fun op => Except ε (Val op)) α)
variable (exec : (op : Op) → σ → Except ε (Val op) × σ)
variable (cond : Op → σ → Prop) [∀ op s, Decidable (cond op s)]

/-- Make one move, if the configuration allows it; an operation has to meet `cond`. -/
def Config.move (k : Config σ Call Op (fun op => Except ε (Val op)) α) :
    Move Call ε → Option (Event Call Op (fun op => Except ε (Val op)) α ×
      Config σ Call Op (fun op => Except ε (Val op)) α)
  | .invoke p c => match k.threads p with
    | none => some (.invoke p c, k.setThread p (some (c, program c)))
    | some _ => none
  | .exec p => match k.threads p with
    | some (c, .call op next) =>
        if cond op k.shared then
          some (.exec p c op (exec op k.shared).1,
            { k with shared := (exec op k.shared).2 }.setThread p
              (some (c, next (exec op k.shared).1)))
        else none
    | _ => none
  | .fail p e => match k.threads p with
    | some (c, .call op next) =>
        if cond op k.shared then
          some (.exec p c op (.error e),
            { k with shared := k.shared }.setThread p (some (c, next (.error e))))
        else none
    | _ => none
  | .respond p => match k.threads p with
    | some (c, .pure a) => some (.response p c a, k.setThread p none)
    | _ => none
  | .crash p => some (.crash p, k.setThread p none)

/-- Execute a schedule from left to right. -/
def Config.play (k : Config σ Call Op (fun op => Except ε (Val op)) α) :
    List (Move Call ε) → Option (List (Event Call Op (fun op => Except ε (Val op)) α) ×
      Config σ Call Op (fun op => Except ε (Val op)) α)
  | [] => some ([], k)
  | m :: ms => (k.move program exec cond m).bind fun (e, k') =>
      (k'.play ms).map fun (es, k'') => (e :: es, k'')

variable {program exec cond}

theorem Config.move_step {k k' : Config σ Call Op (fun op => Except ε (Val op)) α}
    {m : Move Call ε} {e : Event Call Op (fun op => Except ε (Val op)) α}
    (h : k.move program exec cond m = some (e, k')) :
    Step program ((fallible exec).guarded cond) k e k' := by
  cases m with
  | invoke p c =>
    simp only [Config.move] at h
    split at h
    · cases h
      exact .invoke c ‹_›
    · cases h
  | exec p =>
    simp only [Config.move] at h
    split at h
    · split_ifs at h with hcond
      cases h
      exact .exec ‹_› ⟨hcond, fallible_exec exec _ _⟩
    · cases h
  | fail p e =>
    simp only [Config.move] at h
    split at h
    · split_ifs at h with hcond
      cases h
      exact .exec ‹_› ⟨hcond, Or.inr ⟨⟨e, rfl⟩, rfl⟩⟩
    · cases h
  | respond p =>
    simp only [Config.move] at h
    split at h
    · cases h
      exact .response ‹_›
    · cases h
  | crash p =>
    cases h
    exact .crash p

/-- A schedule that could be executed is a run. -/
theorem Config.play_run {ms : List (Move Call ε)}
    {k k' : Config σ Call Op (fun op => Except ε (Val op)) α}
    {es : List (Event Call Op (fun op => Except ε (Val op)) α)}
    (h : k.play program exec cond ms = some (es, k')) :
    Run program ((fallible exec).guarded cond) k es k' := by
  induction ms generalizing k es with
  | nil =>
    cases h
    exact .refl _
  | cons m ms ih =>
    simp only [Config.play, Option.bind_eq_some_iff, Option.map_eq_some_iff] at h
    obtain ⟨⟨e, k₁⟩, hm, ⟨es', k₂⟩, hp, heq⟩ := h
    cases heq
    exact (Run.single (Config.move_step hm)).append (ih hp)

variable (program exec)
variable {β : Type} {b : β}

/-- What was computed about the outcome of a schedule holds of a run. -/
theorem Config.exists_guarded_run (cond : Op → σ → Prop) [∀ op s, Decidable (cond op s)]
    (k : Config σ Call Op (fun op => Except ε (Val op)) α) (schedule : List (Move Call ε))
    (f : List (Event Call Op (fun op => Except ε (Val op)) α) ×
      Config σ Call Op (fun op => Except ε (Val op)) α → β)
    (h : (k.play program exec cond schedule).map f = some b) :
    ∃ es k', Run program ((fallible exec).guarded cond) k es k' ∧ f (es, k') = b := by
  obtain ⟨⟨es, k'⟩, hplay, hb⟩ := Option.map_eq_some_iff.1 h
  exact ⟨es, k', Config.play_run hplay, hb⟩

theorem Config.exists_run (k : Config σ Call Op (fun op => Except ε (Val op)) α)
    (schedule : List (Move Call ε))
    (f : List (Event Call Op (fun op => Except ε (Val op)) α) ×
      Config σ Call Op (fun op => Except ε (Val op)) α → β)
    (h : (k.play program exec (fun _ _ => True) schedule).map f = some b) :
    ∃ es k', Run program (fallible exec) k es k' ∧ f (es, k') = b := by
  obtain ⟨es, k', hrun, hb⟩ := Config.exists_guarded_run program exec _ k schedule f h
  exact ⟨es, k', hrun.mono fun _ _ _ _ hsem => hsem.2, hb⟩

theorem Config.exists_two_runs (k : Config σ Call Op (fun op => Except ε (Val op)) α)
    (schedule schedule' : List (Move Call ε))
    (f : Config σ Call Op (fun op => Except ε (Val op)) α →
      Config σ Call Op (fun op => Except ε (Val op)) α → β)
    (h : (k.play program exec (fun _ _ => True) schedule).bind (fun first =>
      (first.2.play program exec (fun _ _ => True) schedule').map fun second =>
        f first.2 second.2) = some b) :
    ∃ es k' es' k'', Run program (fallible exec) k es k' ∧
      Run program (fallible exec) k' es' k'' ∧ f k' k'' = b := by
  obtain ⟨⟨es, k'⟩, hfirst, hsecond⟩ := Option.bind_eq_some_iff.1 h
  obtain ⟨⟨es', k''⟩, hsecond, hb⟩ := Option.map_eq_some_iff.1 hsecond
  exact ⟨es, k', es', k'', (Config.play_run hfirst).mono fun _ _ _ _ hsem => hsem.2,
    (Config.play_run hsecond).mono fun _ _ _ _ hsem => hsem.2, hb⟩

end Play

abbrev Answers (Op : Type) (Res : Op → Type) : Type := List ((op : Op) × Res op)

/-- `x.Leaves l y`: after the answers `l`, what is left of `x` is `y`. -/
inductive Program.Leaves :
    Program Op Res α → Answers Op Res → Program Op Res α → Prop where
  | nil (x) : Leaves x [] x
  | cons {op next l y} (r : Res op) (rest : (next r).Leaves l y) :
      Leaves (.call op next) (⟨op, r⟩ :: l) y

namespace Program

variable {x y z : Program Op Res α} {l : Answers Op Res}

@[simp] theorem leaves_pure {a : α} : (pure a : Program Op Res α).Leaves l y ↔
    l = [] ∧ y = .pure a := by
  constructor
  · rintro ⟨⟩
    exact ⟨rfl, rfl⟩
  · rintro ⟨rfl, rfl⟩
    exact .nil _

variable {op : Op} {next : Res op → Program Op Res α}

theorem not_pure_leaves_call {a : α} : ¬ (pure a : Program Op Res α).Leaves l (.call op next) := by
  simp

theorem leaves_call :
    (call op next).Leaves l y ↔ (l = [] ∧ y = .call op next) ∨
      ∃ r l', l = ⟨op, r⟩ :: l' ∧ (next r).Leaves l' y := by
  constructor
  · intro h
    cases h with
    | nil => exact Or.inl ⟨rfl, rfl⟩
    | cons r rest => exact Or.inr ⟨r, _, rfl, rest⟩
  · rintro (⟨rfl, rfl⟩ | ⟨r, l', rfl, rest⟩)
    · exact .nil _
    · exact .cons r rest

theorem Leaves.snoc (h : x.Leaves l (.call op next)) (r : Res op) :
    x.Leaves (l ++ [⟨op, r⟩]) (next r) := by
  generalize hy : call op next = y at h
  induction h with
  | nil x =>
    subst hy
    exact .cons r (.nil _)
  | cons r' _ ih => exact .cons r' (ih hy)

/-- A composition that has come to its value passed through a value of its first part. -/
theorem leaves_bind_pure {β : Type} {f : α → Program Op Res β} {b : β}
    (h : (x.bind f).Leaves l (.pure b)) :
    ∃ a l₁ l₂, l = l₁ ++ l₂ ∧ x.Leaves l₁ (.pure a) ∧ (f a).Leaves l₂ (.pure b) := by
  induction x generalizing l with
  | pure a => exact ⟨a, [], l, rfl, .nil _, h⟩
  | call op next ih =>
    rcases leaves_call.1 h with ⟨-, heq⟩ | ⟨r, l', rfl, hrest⟩
    · cases heq
    · obtain ⟨a, l₁, l₂, rfl, hfirst, hsecond⟩ := ih r hrest
      exact ⟨a, ⟨op, r⟩ :: l₁, l₂, rfl, .cons r hfirst, hsecond⟩

end Program

section Throwing

variable {Val : Op → Type} {ε : Type}
variable {l : Answers Op (fun op => Except ε (Val op))}
variable {y : Program Op (fun op => Except ε (Val op)) (Except ε α)}

/-- What can be left of one operation followed by the rest of the program. -/
theorem leaves_request_bind {op : Op} {f : Val op → Throwing Op Val ε α}
    (h : (request op >>= f : Throwing Op Val ε α).run.Leaves l y) :
    (l = [] ∧ y = (request op >>= f : Throwing Op Val ε α).run) ∨
      (∃ e, l = [⟨op, .error e⟩] ∧ y = .pure (.error e)) ∨
      ∃ v l', l = ⟨op, .ok v⟩ :: l' ∧ (f v).run.Leaves l' y := by
  rw [run_request_bind] at h ⊢
  rcases Program.leaves_call.1 h with h | ⟨r, l', rfl, rest⟩
  · exact Or.inl h
  · cases r with
    | error e =>
      obtain ⟨rfl, rfl⟩ := Program.leaves_pure.1 rest
      exact Or.inr (Or.inl ⟨e, rfl, rfl⟩)
    | ok v => exact Or.inr (Or.inr ⟨v, l', rfl, rest⟩)

/-- How a call can have come to an operation. -/
theorem leaves_call_of_request_bind {op op' : Op} {f : Val op → Throwing Op Val ε α}
    {next : Except ε (Val op') → Program Op _ (Except ε α)}
    (h : (request op >>= f : Throwing Op Val ε α).run.Leaves l (.call op' next)) :
    (l = [] ∧ (request op >>= f : Throwing Op Val ε α).run = .call op' next) ∨
      ∃ v l', l = ⟨op, .ok v⟩ :: l' ∧ (f v).run.Leaves l' (.call op' next) := by
  rcases leaves_request_bind h with ⟨rfl, heq⟩ | ⟨e, -, heq⟩ | hrest
  · exact Or.inl ⟨rfl, heq.symm⟩
  · cases heq
  · exact Or.inr hrest

/-- How a call can have come to its value. -/
theorem leaves_pure_of_request_bind {op : Op} {f : Val op → Throwing Op Val ε α}
    {a : Except ε α} (h : (request op >>= f : Throwing Op Val ε α).run.Leaves l (.pure a)) :
    (∃ e, l = [⟨op, .error e⟩] ∧ a = .error e) ∨
      ∃ v l', l = ⟨op, .ok v⟩ :: l' ∧ (f v).run.Leaves l' (.pure a) := by
  rcases leaves_request_bind h with ⟨-, heq⟩ | ⟨e, rfl, heq⟩ | hrest
  · cases heq
  · cases heq
    exact Or.inl ⟨e, rfl, rfl⟩
  · exact Or.inr hrest

/-- How a call can have come to the end of a composition. -/
theorem leaves_ok_of_bind {β : Type} {x : Throwing Op Val ε α} {f : α → Throwing Op Val ε β}
    {b : β} (h : (x >>= f).run.Leaves l (.pure (.ok b))) :
    ∃ a l₁ l₂, l = l₁ ++ l₂ ∧ x.run.Leaves l₁ (.pure (.ok a)) ∧
      (f a).run.Leaves l₂ (.pure (.ok b)) := by
  obtain ⟨r, l₁, l₂, rfl, hfirst, hsecond⟩ :=
    Program.leaves_bind_pure (f := ExceptT.bindCont f) h
  cases r with
  | error e => cases (Program.leaves_pure.1 hsecond).2
  | ok a => exact ⟨a, l₁, l₂, rfl, hfirst, hsecond⟩

/-- A check that a call has passed. -/
theorem leaves_ok_of_lift_bind {β : Type} {x : Except ε β} {f : β → Throwing Op Val ε α} {a : α}
    (h : ((liftM x : Throwing Op Val ε β) >>= f).run.Leaves l (.pure (.ok a))) :
    ∃ v, x = .ok v ∧ (f v).run.Leaves l (.pure (.ok a)) := by
  rw [run_lift_bind] at h
  cases x with
  | error e => cases (Program.leaves_pure.1 h).2
  | ok v => exact ⟨v, rfl, h⟩

end Throwing

def Event.answer : Event Call Op Res α → Option ((op : Op) × Res op)
  | .exec _ _ op r => some ⟨op, r⟩
  | _ => none

/-- The answers that process `p` got, in order. -/
def answers (p : ℕ) (es : List (Event Call Op Res α)) : Answers Op Res :=
  (es.filter (·.process = p)).filterMap Event.answer

theorem answers_append (p : ℕ) (es es' : List (Event Call Op Res α)) :
    answers p (es ++ es') = answers p es ++ answers p es' := by
  simp [answers]

theorem answers_other {p : ℕ} {e : Event Call Op Res α} (h : e.process ≠ p) :
    answers p [e] = [] := by
  simp [answers, h]

@[simp] theorem answers_exec (p : ℕ) (c : Call) (op : Op) (r : Res op) :
    answers p [(.exec p c op r : Event Call Op Res α)] = [⟨op, r⟩] := by
  simp [answers, Event.process, Event.answer]

/-- The answers before and after an operation of `p`. -/
theorem answers_exec_between (p : ℕ) (es es' : List (Event Call Op Res α)) (c : Call) (op : Op)
    (r : Res op) :
    answers p (es ++ .exec p c op r :: es') = answers p es ++ ⟨op, r⟩ :: answers p es' := by
  rw [List.append_cons, answers_append, answers_append, answers_exec]
  simp

variable {P : Op → Prop} {l : Answers Op Res} {op : Op} {r : Res op}

/-- An operation of `p` among the events is among its answers. -/
theorem mem_answers {p : ℕ} {es : List (Event Call Op Res α)} {c : Call} (h : .exec p c op r ∈ es) :
    ⟨op, r⟩ ∈ answers p es := by
  simp only [answers, List.mem_filterMap, List.mem_filter, decide_eq_true_eq]
  exact ⟨_, ⟨h, rfl⟩, rfl⟩

/-- The only place in a list of three that is neither the first nor the last. -/
theorem middle_of_three {A : Type} {l l' : List A} {a b c x : A} (h : l ++ x :: l' = [a, b, c])
    (ha : x ≠ a) (hc : x ≠ c) : l = [a] ∧ x = b ∧ l' = [c] := by
  match l, h with
  | [], h => exact absurd (List.cons.inj h).1 ha
  | [a'], h => simpa using h
  | [a', b'], h => exact absurd (by simp_all) hc
  | a' :: b' :: c' :: l, h => simp at h

/-- The events since `p` was invoked with `c`: of its own it has only operations. -/
def Uninterrupted (p : ℕ) (c : Call) (es : List (Event Call Op Res α)) : Prop :=
  ∀ e ∈ es, e.process = p → ∃ op r, e = .exec p c op r

theorem Uninterrupted.answers_cons {p : ℕ} {c : Call} {es : List (Event Call Op Res α)}
    (h : Uninterrupted p c es) (ha : answers p es = ⟨op, r⟩ :: l) :
    ∃ before after, es = before ++ .exec p c op r :: after ∧
      (∀ e ∈ before, e.process ≠ p) ∧ answers p after = l := by
  induction es with
  | nil => simp [answers] at ha
  | cons e es ih =>
    by_cases hep : e.process = p
    · obtain ⟨op', r', rfl⟩ := h e (by simp) hep
      have hanswers : answers p (.exec p c op' r' :: es) = ⟨op', r'⟩ :: answers p es := by
        simp [answers, Event.process, Event.answer]
      rw [hanswers] at ha
      obtain ⟨heq, rfl⟩ := List.cons.inj ha
      cases heq
      exact ⟨[], es, rfl, by simp, rfl⟩
    · have hanswers : answers p (e :: es) = answers p es := by simp [answers, hep]
      rw [hanswers] at ha
      obtain ⟨before, after, rfl, hbefore, hafter⟩ := ih (fun e' he' => h e' (by simp [he'])) ha
      refine ⟨e :: before, after, rfl, ?_, hafter⟩
      simpa [hep] using hbefore

theorem Uninterrupted.answers_snoc {p : ℕ} {c : Call} {es : List (Event Call Op Res α)}
    (h : Uninterrupted p c es) (ha : answers p es = l ++ [⟨op, r⟩]) :
    ∃ before after, es = before ++ .exec p c op r :: after ∧ ∀ e ∈ after, e.process ≠ p := by
  induction es using List.reverseRecOn generalizing l with
  | nil => simp [answers] at ha
  | append_singleton es e ih =>
    rw [answers_append] at ha
    by_cases hep : e.process = p
    · obtain ⟨op', r', rfl⟩ := h e (by simp) hep
      rw [answers_exec] at ha
      cases (List.append_inj' ha rfl).2
      exact ⟨es, [], rfl, by simp⟩
    · rw [answers_other hep, List.append_nil] at ha
      obtain ⟨before, after, rfl, hafter⟩ := ih (fun e' he' => h e' (by simp [he'])) ha
      refine ⟨before, after ++ [e], by simp, fun e' he' => ?_⟩
      rcases List.mem_append.1 he' with he' | he'
      · exact hafter e' he'
      · rw [List.mem_singleton.1 he']
        exact hep

theorem Uninterrupted.answers_nil {p : ℕ} {c : Call} {es : List (Event Call Op Res α)}
    (h : Uninterrupted p c es) (ha : answers p es = []) : ∀ e ∈ es, e.process ≠ p := by
  intro e he hep
  obtain ⟨op, r, rfl⟩ := h e he hep
  have hmem := mem_answers he
  rw [ha] at hmem
  cases hmem

variable {program : Call → Program Op Res α} {sem : Semantics Op Res σ}
variable {k k' : Config σ Call Op Res α} {e : Event Call Op Res α}
variable {es : List (Event Call Op Res α)} {p : ℕ} {c : Call} {x : Program Op Res α}

/-- The history of the call that process `p` is inside of: the events since it was
invoked, and what the answers left of its body. -/
structure Inside (program : Call → Program Op Res α) (p : ℕ) (c : Call)
    (es : List (Event Call Op Res α)) (x : Program Op Res α) : Prop where
  history : ∃ before since, es = before ++ .invoke p c :: since ∧
    Uninterrupted p c since ∧ (program c).Leaves (answers p since) x

/-- One more event keeps the histories of all calls. -/
theorem Step.inside (h : Step program sem k e k')
    (hk : ∀ p c x, k.threads p = some (c, x) → Inside program p c es x)
    (hp : k'.threads p = some (c, x)) : Inside program p c (es ++ [e]) x := by
  by_cases hep : e.process = p
  · cases h with
    | @invoke q c' free =>
      obtain rfl : q = p := hep
      obtain ⟨rfl, rfl⟩ : c' = c ∧ program c' = x := by simpa using hp
      exact ⟨es, [], rfl, by simp [Uninterrupted], .nil _⟩
    | @exec q c' op next r s' at_call outcome =>
      obtain rfl : q = p := hep
      obtain ⟨rfl, rfl⟩ : c' = c ∧ next r = x := by simpa using hp
      obtain ⟨before, since, rfl, honly, hleaves⟩ := (hk _ _ _ at_call).history
      refine ⟨before, since ++ [.exec q c' op r], by simp, ?_, ?_⟩
      · intro e he
        rcases List.mem_append.1 he with he | he
        · exact honly e he
        · exact fun _ => ⟨op, r, List.mem_singleton.1 he⟩
      · rw [answers_append, answers_exec]
        exact hleaves.snoc r
    | @response q _ _ at_return =>
      obtain rfl : q = p := hep
      simp at hp
    | crash q =>
      obtain rfl : q = p := hep
      simp at hp
  · rw [h.threads_other hep] at hp
    obtain ⟨before, since, rfl, honly, hleaves⟩ := (hk p c x hp).history
    refine ⟨before, since ++ [e], by simp, ?_, ?_⟩
    · intro e' he' hproc
      rcases List.mem_append.1 he' with he' | he'
      · exact honly e' he' hproc
      · exact absurd (List.mem_singleton.1 he' ▸ hproc) hep
    · rw [answers_append, answers_other hep, List.append_nil]
      exact hleaves

section

variable (h : Run program sem k es k')
include h

/-- In a run from an idle pool every call has its history. -/
theorem Run.inside (hk : ∀ p, k.threads p = none) (hp : k'.threads p = some (c, x)) :
    Inside program p c es x := by
  induction h generalizing p c x with
  | refl => simp [hk p] at hp
  | snoc _ step ih => exact step.inside (fun p c x => ih) hp

/-- As long as its process only executes operations, a call goes on by their answers. -/
theorem Run.leaves (hp : k.threads p = some (c, x)) (hes : Uninterrupted p c es) :
    ∃ y, k'.threads p = some (c, y) ∧ x.Leaves (answers p es) y := by
  induction h with
  | refl => exact ⟨x, hp, .nil x⟩
  | @snoc es k₁ e k₂ run step ih =>
    obtain ⟨y, hy, hleaves⟩ := ih fun e' he' => hes e' (by simp [he'])
    rw [answers_append]
    by_cases hep : e.process = p
    · obtain ⟨op, r, rfl⟩ := hes e (by simp) hep
      cases step with
      | exec at_call outcome =>
        obtain ⟨-, rfl⟩ := Prod.mk.inj (Option.some.inj (hy.symm.trans at_call))
        exact ⟨_, Config.setThread_same _ _ _, by rw [answers_exec]; exact hleaves.snoc r⟩
    · rw [answers_other hep, List.append_nil]
      exact ⟨y, by rw [step.threads_other hep, hy], hleaves⟩

theorem Run.at_answer (hes : Uninterrupted p c es) (ha : answers p es = ⟨op, r⟩ :: l) :
    ∃ first rest k₁ k₂, es = first ++ .exec p c op r :: rest ∧ Run program sem k first k₁ ∧
      Step program sem k₁ (.exec p c op r) k₂ ∧ Run program sem k₂ rest k' ∧
      Uninterrupted p c rest ∧ answers p rest = l := by
  obtain ⟨first, rest, rfl, -, hrest⟩ := hes.answers_cons ha
  obtain ⟨k₁, k₂, hfirst, hstep, hafter⟩ := h.split_step
  exact ⟨first, rest, k₁, k₂, rfl, hfirst, hstep, hafter, fun e he => hes e (by simp [he]), hrest⟩

/-- The history of a call that has returned. -/
theorem Run.leaves_response {k₀ k'' : Config σ Call Op Res α} {a : α}
    (hinvoke : Step program sem k₀ (.invoke p c) k) (hes : Uninterrupted p c es)
    (hstep : Step program sem k' (.response p c a) k'') :
    (program c).Leaves (answers p es) (.pure a) := by
  cases hinvoke with
  | invoke c free =>
    obtain ⟨y, hy, hleaves⟩ := h.leaves (Config.setThread_same _ _ _) hes
    cases hstep with
    | response at_return =>
      obtain ⟨-, rfl⟩ := Prod.mk.inj (Option.some.inj (hy.symm.trans at_return))
      exact hleaves

end

/-- What is left of every call issues only operations satisfying `P`. -/
def Config.Issues (P : Op → Prop) (k : Config σ Call Op Res α) : Prop :=
  ∀ p c x, k.threads p = some (c, x) → x.Issues P

theorem Config.issues_idle (P : Op → Prop) (s : σ) :
    (idle s : Config σ Call Op Res α).Issues P := fun p c x h => by simp at h

theorem Config.Issues.setThread (hk : k.Issues P) (p : ℕ) (t : Option (Call × Program Op Res α))
    (ht : ∀ c x, t = some (c, x) → x.Issues P) : (k.setThread p t).Issues P := by
  intro q c x hq
  by_cases hqp : q = p
  · subst hqp
    rw [k.setThread_same] at hq
    exact ht c x hq
  · rw [k.setThread_other hqp] at hq
    exact hk q c x hq

theorem Step.issues (h : Step program sem k e k') (hprogram : ∀ c, (program c).Issues P)
    (hk : k.Issues P) : k'.Issues P := by
  cases h with
  | invoke c free =>
    refine hk.setThread _ _ ?_
    rintro c' x ⟨⟩
    exact hprogram c
  | exec at_call outcome =>
    refine Config.Issues.setThread (k := { k with shared := _ }) hk _ _ ?_
    rintro c' x ⟨⟩
    exact (hk _ _ _ at_call).2 _
  | response at_return => exact hk.setThread _ _ (by simp)
  | crash p => exact hk.setThread _ _ (by simp)

theorem Run.issues (h : Run program sem k es k') (hprogram : ∀ c, (program c).Issues P)
    (hk : k.Issues P) : k'.Issues P :=
  h.invariant (fun hk step => step.issues hprogram hk) hk

theorem Step.shared (h : Step program sem k e k') (hk : k.Issues P) :
    (∃ p c op r, e = .exec p c op r ∧ P op ∧ sem op k.shared r k'.shared) ∨
      (e.answer = none ∧ k'.shared = k.shared) := by
  cases h with
  | exec at_call outcome =>
    exact Or.inl ⟨_, _, _, _, rfl, (hk _ _ _ at_call).1, outcome⟩
  | invoke => exact Or.inr ⟨rfl, rfl⟩
  | response => exact Or.inr ⟨rfl, rfl⟩
  | crash => exact Or.inr ⟨rfl, rfl⟩

/-- If the bodies of all calls issue only operations satisfying `P`, then an invariant
that such operations keep holds along every run. -/
theorem Run.issued_invariant {I : σ → Prop} (h : Run program sem k es k')
    (hprogram : ∀ c, (program c).Issues P) (hk : k.Issues P)
    (hop : ∀ op s r s', P op → I s → sem op s r s' → I s') (hs : I k.shared) : I k'.shared := by
  induction h with
  | refl => exact hs
  | snoc run step ih =>
    rcases step.shared (run.issues hprogram hk) with ⟨_, _, op, r, -, hop', hsem⟩ | ⟨-, heq⟩
    · exact hop op _ r _ hop' ih hsem
    · rw [heq]
      exact ih

section Throughout

/-- `R` holds from every state of the run to every later one. -/
def Throughout (program : Call → Program Op Res α) (sem : Semantics Op Res σ)
    (R : σ → σ → Prop) (k : Config σ Call Op Res α) (es : List (Event Call Op Res α))
    (k' : Config σ Call Op Res α) : Prop :=
  ∀ before between after k₁ k₂, es = before ++ between ++ after →
    Run program sem k before k₁ → Run program sem k₁ between k₂ → Run program sem k₂ after k' →
    R k₁.shared k₂.shared

/-- Every step of the run satisfies `P`, which looks at the configuration before it. -/
def StepsMeet (program : Call → Program Op Res α) (sem : Semantics Op Res σ)
    (P : Config σ Call Op Res α → Event Call Op Res α → Prop) (k : Config σ Call Op Res α)
    (es : List (Event Call Op Res α)) (k' : Config σ Call Op Res α) : Prop :=
  ∀ before e after k₁ k₂, es = before ++ e :: after → Run program sem k before k₁ →
    Step program sem k₁ e k₂ → Run program sem k₂ after k' → P k₁ e

variable {P : Config σ Call Op Res α → Event Call Op Res α → Prop}
variable {I : Config σ Call Op Res α → Prop} {R : σ → σ → Prop} {k'' : Config σ Call Op Res α}
variable {es' : List (Event Call Op Res α)}

theorem StepsMeet.first (h : StepsMeet program sem P k (es ++ es') k'')
    (hrun : Run program sem k' es' k'') : StepsMeet program sem P k es k' := by
  rintro before e after k₁ k₂ rfl hbefore hstep hafter
  exact h before e (after ++ es') k₁ k₂ (by simp) hbefore hstep (hafter.append hrun)

theorem StepsMeet.second (h : StepsMeet program sem P k (es ++ es') k'')
    (hrun : Run program sem k es k') : StepsMeet program sem P k' es' k'' := by
  rintro before e after k₁ k₂ rfl hbefore hstep hafter
  exact h (es ++ before) e after k₁ k₂ (by simp) (hrun.append hbefore) hstep hafter

/-- An invariant of the steps that satisfy `P` holds along a run of such steps. -/
theorem StepsMeet.invariant (h : StepsMeet program sem P k es k') (hrun : Run program sem k es k')
    (hstep : ∀ {k e k'}, I k → Step program sem k e k' → P k e → I k') (hk : I k) : I k' := by
  induction hrun with
  | refl => exact hk
  | @snoc es k₁ e k₂ run step ih =>
    have hI := ih (h.first (.single step))
    exact hstep hI step (h es e [] k₁ k₂ rfl run step (.refl k₂))

/-- Every step of the run satisfies `Q`, which looks at the events and the configuration
before it. -/
def EachStep (program : Call → Program Op Res α) (sem : Semantics Op Res σ)
    (Q : List (Event Call Op Res α) → Config σ Call Op Res α → Event Call Op Res α → Prop)
    (k : Config σ Call Op Res α) (es : List (Event Call Op Res α))
    (k' : Config σ Call Op Res α) : Prop :=
  ∀ before e after k₁ k₂, es = before ++ e :: after → Run program sem k before k₁ →
    Step program sem k₁ e k₂ → Run program sem k₂ after k' → Q before k₁ e

variable {Q : List (Event Call Op Res α) → Config σ Call Op Res α → Event Call Op Res α → Prop}
variable {J : List (Event Call Op Res α) → Config σ Call Op Res α → Prop}

theorem EachStep.first (h : EachStep program sem Q k (es ++ es') k'')
    (hrun : Run program sem k' es' k'') : EachStep program sem Q k es k' := by
  rintro before e after k₁ k₂ rfl hbefore hstep hafter
  exact h before e (after ++ es') k₁ k₂ (by simp) hbefore hstep (hafter.append hrun)

/-- What the steps that satisfy `Q` keep about the events so far holds along a run of such
steps. -/
theorem EachStep.invariant (h : EachStep program sem Q k es k') (hrun : Run program sem k es k')
    (hstep : ∀ {es k e k'}, J es k → Step program sem k e k' → Q es k e → J (es ++ [e]) k')
    (hk : J [] k) : J es k' := by
  induction hrun with
  | refl => exact hk
  | @snoc es k₁ e k₂ run step ih =>
    have hJ := ih (h.first (.single step))
    exact hstep hJ step (h es e [] k₁ k₂ rfl run step (.refl k₂))

/-- A relation that the steps satisfying `P` respect holds throughout a run of such
steps. -/
theorem StepsMeet.throughout (h : StepsMeet program sem P k es k')
    (hrefl : ∀ s, R s s) (htrans : ∀ a b c, R a b → R b c → R a c)
    (hinv : ∀ {k e k'}, I k → Step program sem k e k' → P k e → I k')
    (hstep : ∀ {k e k'}, I k → Step program sem k e k' → P k e → R k.shared k'.shared) (hk : I k) :
    Throughout program sem R k es k' := by
  rintro before between after k₁ k₂ rfl hbefore hbetween hafter
  have hmeets := (h.first hafter).second hbefore
  have hI := ((h.first hafter).first hbetween).invariant hbefore hinv hk
  clear h hafter
  induction hbetween with
  | refl => exact hrefl _
  | @snoc between k₃ e k₂ run step ih =>
    have hfirst := hmeets.first (.single step)
    have hI' := hfirst.invariant run hinv hI
    have hP := hmeets between e [] k₃ k₂ rfl run step (.refl k₂)
    exact htrans _ _ _ (ih hfirst) (hstep hI' step hP)

theorem Throughout.step {k₁ k₂ : Config σ Call Op Res α}
    (h : Throughout program sem R k (es ++ e :: es') k'') (hbefore : Run program sem k es k₁)
    (hstep : Step program sem k₁ e k₂) (hafter : Run program sem k₂ es' k'') :
    R k₁.shared k₂.shared :=
  h es [e] es' k₁ k₂ (by simp) hbefore (.single hstep) hafter

end Throughout

end Interleaving

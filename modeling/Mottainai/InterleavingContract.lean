import Mottainai.InterleavingHistory

/-!
# Contracts, outlines and halting

A contract names what every step keeps (`inv`), how far the shared state may move between two steps
of one call (`rely`), and how far a step may move it (`guarantee`). If the body of every call is
`Safe`, then every interleaving keeps the contract and every response meets its postcondition,
provided that guarantees are covered by what the others rely on, or that only one process takes
steps. An outline says of each point of a call what holds there, given its answers and a part `g` of
the shared state that is its own. `Halts` relates the state in which an undisturbed call began to
the one in which it was left, also by a process that was killed.
-/

namespace Interleaving

/-- An invariant of the shared state, the moves a call has to tolerate, and the moves
that it may make. -/
structure Contract (σ : Type) where
  inv : σ → Prop
  rely : σ → σ → Prop
  guarantee : σ → σ → Prop
  rely_refl : ∀ s, rely s s
  rely_trans : ∀ {s t u}, rely s t → rely t u → rely s u
  rely_guarantee : ∀ {s t u}, rely s t → guarantee t u → guarantee s u
  guarantee_refl : ∀ s, guarantee s s

variable {σ Call : Type} {Op : Type} {Res : Op → Type} {α β : Type}

namespace Contract

variable (C : Contract σ)

/-- `P` holds now and after any interference. -/
def Henceforth (P : σ → Prop) (s : σ) : Prop :=
  ∀ t, C.rely s t → C.inv t → P t

variable {C} {P Q : σ → Prop} {s t : σ}

theorem Henceforth.now (h : C.Henceforth P s) (hs : C.inv s) : P s :=
  h s (C.rely_refl s) hs

theorem Henceforth.later (h : C.Henceforth P s) (hst : C.rely s t) : C.Henceforth P t :=
  fun u htu hu => h u (C.rely_trans hst htu) hu

theorem Henceforth.mono (h : C.Henceforth P s) (hPQ : ∀ t, C.inv t → P t → Q t) :
    C.Henceforth Q s :=
  fun t hst ht => hPQ t ht (h t hst ht)

end Contract

namespace Program

/-- Every operation of the program is allowed and keeps the contract, and the value it
returns satisfies `post`, under any interference the contract tolerates. `l` are the
answers that the call has got before. -/
def Safe (sem : Semantics Op Res σ) (C : Contract σ) (allows : Op → σ → Answers Op Res → Prop)
    (post : α → σ → Answers Op Res → Prop) : Program Op Res α → σ → Answers Op Res → Prop
  | .pure a, s, l => post a s l
  | .call op next, s, l => allows op s l ∧ ∀ r s', sem op s r s' →
      C.inv s' ∧ C.guarantee s s' ∧
        C.Henceforth (fun t => (next r).Safe sem C allows post t (l ++ [⟨op, r⟩])) s'

variable {sem : Semantics Op Res σ} {C : Contract σ}
variable {allows : Op → σ → Answers Op Res → Prop}
variable {post post'' : α → σ → Answers Op Res → Prop} {post' : β → σ → Answers Op Res → Prop}
variable {s : σ} {l : Answers Op Res}
variable {x : Program Op Res α}

theorem Safe.mono (h : x.Safe sem C allows post s l) (hpost : ∀ a t m, post a t m → post'' a t m) :
    x.Safe sem C allows post'' s l := by
  induction x generalizing s l with
  | pure a => exact hpost a s l h
  | call op next ih =>
    refine ⟨h.1, fun r s' hsem => ?_⟩
    obtain ⟨hinv, hguarantee, hnext⟩ := h.2 r s' hsem
    exact ⟨hinv, hguarantee, fun t hst ht => ih r (hnext t hst ht)⟩

theorem Safe.extending {l₀ : Answers Op Res} (hl : l₀ <+: l)
    (h : x.Safe sem C allows (fun a t m => l₀ <+: m → post a t m) s l) :
    x.Safe sem C allows post s l := by
  induction x generalizing s l with
  | pure a => exact h hl
  | call op next ih =>
    refine ⟨h.1, fun r s' hsem => ?_⟩
    obtain ⟨hinv, hguarantee, hnext⟩ := h.2 r s' hsem
    have hl' : l₀ <+: l ++ [⟨op, r⟩] := hl.trans (List.prefix_append _ _)
    exact ⟨hinv, hguarantee, fun t hst ht => ih r hl' (hnext t hst ht)⟩

/-- Composition: the second program starts where the first one returned. -/
theorem Safe.bind {f : α → Program Op Res β}
    (h : x.Safe sem C allows (fun a t m => (f a).Safe sem C allows post' t m) s l) :
    (x.bind f).Safe sem C allows post' s l := by
  induction x generalizing s l with
  | pure a => exact h
  | call op next ih =>
    refine ⟨h.1, fun r s' hsem => ?_⟩
    obtain ⟨hinv, hguarantee, hnext⟩ := h.2 r s' hsem
    exact ⟨hinv, hguarantee, fun t hst ht => ih r (hnext t hst ht)⟩

end Program

section Throwing

variable {Val : Op → Type} {ε : Type} {C : Contract σ} {s : σ}
variable {sem : Semantics Op (fun op => Except ε (Val op)) σ}
variable {allows : Op → σ → Answers Op (fun op => Except ε (Val op)) → Prop}
variable {post : Except ε α → σ → Answers Op (fun op => Except ε (Val op)) → Prop}
variable {l : Answers Op (fun op => Except ε (Val op))}

/-- Sequential composition: an error of the first program is the error of the whole. -/
theorem safe_bind {x : Throwing Op Val ε β} {f : β → Throwing Op Val ε α}
    (h : x.run.Safe sem C allows (fun r t m => match r with
      | .ok v => (f v).run.Safe sem C allows post t m
      | .error e => post (.error e) t m) s l) :
    (x >>= f).run.Safe sem C allows post s l := by
  refine Program.Safe.bind (f := ExceptT.bindCont f) (h.mono fun r t m hr => ?_)
  cases r with
  | ok v => exact hr
  | error e => exact hr

theorem safe_tryCatch {x : Throwing Op Val ε α} {handler : ε → Throwing Op Val ε α}
    (h : x.run.Safe sem C allows (fun r t m => match r with
      | .ok v => post (.ok v) t m
      | .error e => (handler e).run.Safe sem C allows post t m) s l) :
    (tryCatch x handler).run.Safe sem C allows post s l := by
  refine Program.Safe.bind (x := x.run) (h.mono fun r t m hr => ?_)
  cases r with
  | ok v => exact hr
  | error e => exact hr

variable {exec : (op : Op) → σ → Except ε (Val op) × σ} {moves : σ → σ → Prop}

/-- One operation. It may fail, and the environment may move the state before it runs. -/
theorem safe_call {op : Op} {next : Except ε (Val op) → Program Op _ (Except ε α)}
    (hmoves : ∀ s t, moves s t → C.inv s → C.inv t ∧ C.rely s t) (hs : C.inv s)
    (hallows : allows op s l)
    (hexec : ∀ t, C.rely s t → C.inv t →
      C.inv (exec op t).2 ∧ C.guarantee t (exec op t).2 ∧
        C.Henceforth (fun u => (next (exec op t).1).Safe ((fallible exec).after moves) C allows post u
          (l ++ [⟨op, (exec op t).1⟩])) (exec op t).2)
    (hfail : ∀ e t, C.rely s t → C.inv t →
      (next (.error e)).Safe ((fallible exec).after moves) C allows post t
        (l ++ [⟨op, .error e⟩])) :
    (Program.call op next).Safe ((fallible exec).after moves) C allows post s l := by
  refine ⟨hallows, ?_⟩
  rintro r s' ⟨t, hmove, heq | ⟨⟨e, rfl⟩, rfl⟩⟩
  · obtain ⟨rfl, rfl⟩ := Prod.mk.inj heq
    obtain ⟨ht, hst⟩ := hmoves s t hmove hs
    obtain ⟨hinv, hguarantee, hnext⟩ := hexec t hst ht
    exact ⟨hinv, C.rely_guarantee hst hguarantee, hnext⟩
  · obtain ⟨ht, hst⟩ := hmoves s s' hmove hs
    refine ⟨ht, C.rely_guarantee hst (C.guarantee_refl _), fun u hu hinv => ?_⟩
    exact hfail e u (C.rely_trans hst hu) hinv

/-- What has to hold after an operation was answered: the rest of the program is safe,
or the error has been thrown. -/
def Resumes (sem : Semantics Op (fun op => Except ε (Val op)) σ) (C : Contract σ)
    (allows : Op → σ → Answers Op (fun op => Except ε (Val op)) → Prop)
    (post : Except ε α → σ → Answers Op (fun op => Except ε (Val op)) → Prop) (op : Op)
    (f : Val op → Throwing Op Val ε α) (r : Except ε (Val op)) (t : σ)
    (l : Answers Op (fun op => Except ε (Val op))) : Prop :=
  match r with
  | .ok v => (f v).run.Safe sem C allows post t (l ++ [⟨op, .ok v⟩])
  | .error e => post (.error e) t (l ++ [⟨op, .error e⟩])

/-- One operation followed by the rest of the program. -/
theorem safe_request_bind {op : Op} {f : Val op → Throwing Op Val ε α}
    (hmoves : ∀ s t, moves s t → C.inv s → C.inv t ∧ C.rely s t) (hs : C.inv s)
    (hallows : allows op s l)
    (hexec : ∀ t, C.rely s t → C.inv t →
      C.inv (exec op t).2 ∧ C.guarantee t (exec op t).2 ∧ C.Henceforth (fun u =>
        Resumes ((fallible exec).after moves) C allows post op f (exec op t).1 u l) (exec op t).2)
    (hfail : ∀ e t, C.rely s t → C.inv t → post (.error e) t (l ++ [⟨op, .error e⟩])) :
    (request op >>= f : Throwing Op Val ε α).run.Safe ((fallible exec).after moves) C allows post
      s l := by
  rw [run_request_bind]
  refine safe_call hmoves hs hallows (fun t hst ht => ?_) hfail
  obtain ⟨hinv, hguarantee, hnext⟩ := hexec t hst ht
  refine ⟨hinv, hguarantee, hnext.mono fun u _ hu => ?_⟩
  cases hr : (exec op t).1 with
  | ok v =>
    rw [hr] at hu
    exact hu
  | error e =>
    rw [hr] at hu
    exact hu

end Throwing

section Pool

variable {program : Call → Program Op Res α} {sem : Semantics Op Res σ} {C : Contract σ}
variable {allows : Call → Op → σ → Answers Op Res → Prop}
variable {post : Call → α → σ → Answers Op Res → Prop}
variable {k k' : Config σ Call Op Res α} {e : Event Call Op Res α}
variable {es es' : List (Event Call Op Res α)}

/-- What is left of a call is safe from now on, given what it was answered since it was
invoked. -/
structure SafeThread (sem : Semantics Op Res σ) (C : Contract σ)
    (allows : Call → Op → σ → Answers Op Res → Prop)
    (post : Call → α → σ → Answers Op Res → Prop) (p : ℕ) (c : Call)
    (es : List (Event Call Op Res α)) (x : Program Op Res α) (s : σ) : Prop where
  history : ∃ before since, es = before ++ .invoke p c :: since ∧ Uninterrupted p c since ∧
    C.Henceforth (fun t => x.Safe sem C (allows c) (post c) t (answers p since)) s

/-- The shared state satisfies the invariant, and every call is safe. -/
structure Config.Meets (sem : Semantics Op Res σ) (C : Contract σ)
    (allows : Call → Op → σ → Answers Op Res → Prop)
    (post : Call → α → σ → Answers Op Res → Prop) (es : List (Event Call Op Res α))
    (k : Config σ Call Op Res α) : Prop where
  inv : C.inv k.shared
  thread : ∀ p c x, k.threads p = some (c, x) → SafeThread sem C allows post p c es x k.shared

variable {c : Call} {p : ℕ}

theorem SafeThread.other {x : Program Op Res α} {s s' : σ}
    (h : SafeThread sem C allows post p c es x s) (hep : e.process ≠ p) (hrely : C.rely s s') :
    SafeThread sem C allows post p c (es ++ [e]) x s' := by
  obtain ⟨before, since, rfl, honly, hsafe⟩ := h.history
  refine ⟨before, since ++ [e], by simp, ?_, ?_⟩
  · intro e' he' hproc
    rcases List.mem_append.1 he' with he' | he'
    · exact honly e' he' hproc
    · exact absurd (List.mem_singleton.1 he' ▸ hproc) hep
  · rw [answers_append, answers_other hep, List.append_nil]
    exact hsafe.later hrely

/-- One step keeps the contract. -/
theorem Step.meets (h : Step program sem k e k')
    (safe : ∀ c s, C.inv s → (program c).Safe sem C (allows c) (post c) s [])
    (hothers : ∀ p, e.process ≠ p → k.threads p ≠ none →
      ∀ s t, C.guarantee s t → C.rely s t)
    (hk : k.Meets sem C allows post es) :
    k'.Meets sem C allows post (es ++ [e]) ∧ C.guarantee k.shared k'.shared := by
  have hshared : C.inv k'.shared ∧ C.guarantee k.shared k'.shared := by
    cases h with
    | exec at_call outcome =>
      obtain ⟨_, _, _, _, hsafe⟩ := (hk.thread _ _ _ at_call).history
      obtain ⟨hinv, hguarantee, -⟩ := (hsafe.now hk.inv).2 _ _ outcome
      exact ⟨hinv, hguarantee⟩
    | invoke => exact ⟨hk.inv, C.guarantee_refl _⟩
    | response => exact ⟨hk.inv, C.guarantee_refl _⟩
    | crash => exact ⟨hk.inv, C.guarantee_refl _⟩
  refine ⟨⟨hshared.1, fun p c x hp => ?_⟩, hshared.2⟩
  by_cases hep : e.process = p
  · cases h with
    | @invoke q c' free =>
      obtain rfl : q = p := hep
      obtain ⟨rfl, rfl⟩ : c' = c ∧ program c' = x := by simpa using hp
      exact ⟨es, [], rfl, by simp [Uninterrupted], fun t _ ht => safe c' t ht⟩
    | @exec q c' op next r s' at_call outcome =>
      obtain rfl : q = p := hep
      obtain ⟨rfl, rfl⟩ : c' = c ∧ next r = x := by simpa using hp
      obtain ⟨before, since, rfl, honly, hsafe⟩ := (hk.thread _ _ _ at_call).history
      refine ⟨before, since ++ [.exec q c' op r], by simp, ?_, ?_⟩
      · intro e he
        rcases List.mem_append.1 he with he | he
        · exact honly e he
        · exact fun _ => ⟨op, r, List.mem_singleton.1 he⟩
      · rw [answers_append, answers_exec]
        exact ((hsafe.now hk.inv).2 r s' outcome).2.2
    | @response q _ _ at_return =>
      obtain rfl : q = p := hep
      simp at hp
    | crash q =>
      obtain rfl : q = p := hep
      simp at hp
  · rw [h.threads_other hep] at hp
    exact (hk.thread p c x hp).other hep (hothers p hep (by simp [hp]) _ _ hshared.2)

/-- The steps of the run are covered by what the calls rely on: each guarantee is, or
there is only one process. -/
def Contract.Covers (C : Contract σ) (es : List (Event Call Op Res α)) : Prop :=
  (∀ s t, C.guarantee s t → C.rely s t) ∨ ∃ p, ∀ e ∈ es, e.process = p

theorem Contract.Covers.prefix (h : C.Covers (es ++ es')) : C.Covers es :=
  h.imp id fun ⟨p, hp⟩ => ⟨p, fun e he => hp e (List.mem_append_left _ he)⟩

/-- Every interleaving keeps the contract. -/
theorem Run.meets (h : Run program sem k es k') (hidle : ∀ p, k.threads p = none)
    (hinv : C.inv k.shared)
    (safe : ∀ c s, C.inv s → (program c).Safe sem C (allows c) (post c) s [])
    (hcovers : C.Covers es) : k'.Meets sem C allows post es := by
  induction h with
  | refl => exact ⟨hinv, fun p c x hp => by simp [hidle p] at hp⟩
  | @snoc es k₁ e k₂ run step ih =>
    refine (step.meets safe ?_ (ih hcovers.prefix)).1
    intro p hep hp
    rcases hcovers with hcovers | ⟨q, hq⟩
    · exact hcovers
    · refine absurd ((run.threads_other fun e' he' => ?_).trans (hidle p)) hp
      rw [hq e' (by simp [he']), ← hq e (by simp)]
      exact hep

/-- The run between two configurations of an interleaving moves the state as far as
its steps guarantee. -/
theorem Run.guaranteed {k₀ : Config σ Call Op Res α} (h₀ : Run program sem k₀ es k)
    (h : Run program sem k es' k') (hidle : ∀ p, k₀.threads p = none) (hinv : C.inv k₀.shared)
    (safe : ∀ c s, C.inv s → (program c).Safe sem C (allows c) (post c) s [])
    (hcovers : C.Covers (es ++ es'))
    (htrans : ∀ {s t u}, C.guarantee s t → C.guarantee t u → C.guarantee s u) :
    C.guarantee k.shared k'.shared := by
  induction h with
  | refl => exact C.guarantee_refl _
  | @snoc es' k₁ e k₂ run step ih =>
    rw [← List.append_assoc] at hcovers
    refine htrans (ih hcovers.prefix) (step.meets safe ?_
      ((h₀.append run).meets hidle hinv safe hcovers.prefix)).2
    intro p hep hp
    rcases hcovers with hcovers | ⟨q, hq⟩
    · exact hcovers
    · refine absurd (((h₀.append run).threads_other fun e' he' => ?_).trans (hidle p)) hp
      rw [hq e' (List.mem_append_left _ he'), ← hq e (by simp)]
      exact hep

theorem Run.step_allowed {op : Op} {r : Res op} {k₁ k₂ : Config σ Call Op Res α}
    (h : Run program sem k es k₁) (hstep : Step program sem k₁ (.exec p c op r) k₂)
    (hidle : ∀ p, k.threads p = none) (hinv : C.inv k.shared)
    (safe : ∀ c s, C.inv s → (program c).Safe sem C (allows c) (post c) s [])
    (hcovers : C.Covers es) :
    C.inv k₁.shared ∧ ∃ before since, es = before ++ .invoke p c :: since ∧
      Uninterrupted p c since ∧ allows c op k₁.shared (answers p since) := by
  have hmeets := h.meets hidle hinv safe hcovers
  refine ⟨hmeets.inv, ?_⟩
  cases hstep with
  | exec at_call outcome =>
    obtain ⟨before, since, hes, honly, hsafe⟩ := (hmeets.thread _ _ _ at_call).history
    exact ⟨before, since, hes, honly, (hsafe.now hmeets.inv).1⟩

theorem Run.allowed {op : Op} {r : Res op}
    (h : Run program sem k (es ++ .exec p c op r :: es') k') (hidle : ∀ p, k.threads p = none)
    (hinv : C.inv k.shared)
    (safe : ∀ c s, C.inv s → (program c).Safe sem C (allows c) (post c) s [])
    (hcovers : C.Covers (es ++ .exec p c op r :: es')) :
    ∃ k₁ k₂, Run program sem k es k₁ ∧ Step program sem k₁ (.exec p c op r) k₂ ∧
      Run program sem k₂ es' k' ∧ C.inv k₁.shared ∧
      ∃ before since, es = before ++ .invoke p c :: since ∧ Uninterrupted p c since ∧
        allows c op k₁.shared (answers p since) := by
  obtain ⟨k₁, k₂, hbefore, hstep, hafter⟩ := h.split_step
  exact ⟨k₁, k₂, hbefore, hstep, hafter,
    hbefore.step_allowed hstep hidle hinv safe hcovers.prefix⟩

/-- Every response along a run met its postcondition when it was handed back. -/
theorem Run.response_post {a : α} (h : Run program sem k (es ++ .response p c a :: es') k')
    (hidle : ∀ p, k.threads p = none) (hinv : C.inv k.shared)
    (safe : ∀ c s, C.inv s → (program c).Safe sem C (allows c) (post c) s [])
    (hcovers : C.Covers (es ++ .response p c a :: es')) :
    ∃ k₁, Run program sem k es k₁ ∧ Run program sem k₁ (.response p c a :: es') k' ∧
      ∃ before since, es = before ++ .invoke p c :: since ∧ Uninterrupted p c since ∧
        post c a k₁.shared (answers p since) := by
  obtain ⟨k₁, k₂, hbefore, hstep, hafter⟩ := h.split_step
  have hmeets := hbefore.meets hidle hinv safe hcovers.prefix
  refine ⟨k₁, hbefore, (Run.single hstep).append hafter, ?_⟩
  cases hstep with
  | response at_return =>
    obtain ⟨before, since, hes, honly, hsafe⟩ := (hmeets.thread _ _ _ at_return).history
    exact ⟨before, since, hes, honly, hsafe.now hmeets.inv⟩

end Pool

/-- Nothing moves the state between two operations of a call. -/
def Contract.undisturbed (inv : σ → Prop) : Contract σ where
  inv := inv
  rely := Eq
  guarantee := fun _ _ => True
  rely_refl := fun _ => rfl
  rely_trans := Eq.trans
  rely_guarantee := fun _ _ => trivial
  guarantee_refl := fun _ => trivial

section Throwing

variable {Val : Op → Type} {ε : Type} {inv : σ → Prop} {s : σ}
variable {sem : Semantics Op (fun op => Except ε (Val op)) σ}
variable {allows : Op → σ → Answers Op (fun op => Except ε (Val op)) → Prop}
variable {post : Except ε α → σ → Answers Op (fun op => Except ε (Val op)) → Prop}
variable {l : Answers Op (fun op => Except ε (Val op))}

/-- One operation, seen with every outcome that it may have. -/
theorem safe_call_undisturbed {op : Op} {next : Except ε (Val op) → Program Op _ (Except ε α)}
    (hallows : allows op s l)
    (h : ∀ r s', sem op s r s' → inv s' ∧
      (next r).Safe sem (.undisturbed inv) allows post s' (l ++ [⟨op, r⟩])) :
    (Program.call op next).Safe sem (.undisturbed inv) allows post s l := by
  refine ⟨hallows, fun r s' hsem => ?_⟩
  obtain ⟨hinv, hnext⟩ := h r s' hsem
  refine ⟨hinv, trivial, ?_⟩
  rintro t rfl -
  exact hnext

/-- One operation by itself. -/
theorem safe_request_undisturbed {op : Op}
    {post : Except ε (Val op) → σ → Answers Op (fun op => Except ε (Val op)) → Prop}
    (hallows : allows op s l)
    (h : ∀ r s', sem op s r s' → inv s' ∧ post r s' (l ++ [⟨op, r⟩])) :
    (request op : Throwing Op Val ε (Val op)).run.Safe sem (.undisturbed inv) allows post s l :=
  safe_call_undisturbed hallows h

theorem safe_lift_bind {x : Except ε β} {f : β → Throwing Op Val ε α}
    (hok : ∀ b, x = .ok b → (f b).run.Safe sem (.undisturbed inv) allows post s l)
    (herror : ∀ e, x = .error e → post (.error e) s l) :
    ((liftM x : Throwing Op Val ε β) >>= f).run.Safe sem (.undisturbed inv) allows post s l := by
  rw [run_lift_bind]
  cases x with
  | ok b => exact hok b rfl
  | error e => exact herror e rfl

end Throwing

section Pool

variable {program : Call → Program Op Res α} {sem : Semantics Op Res σ} {inv : σ → Prop}
variable {allows : Op → σ → Answers Op Res → Prop} {post : Call → α → σ → Answers Op Res → Prop}
variable {cond : Op → σ → Prop} {s : σ} {k k' : Config σ Call Op Res α}
variable {e : Event Call Op Res α} {es : List (Event Call Op Res α)} {p : ℕ}

/-- All steps of the run are taken by one process: its calls follow one another. -/
def OneProcess (p : ℕ) (es : List (Event Call Op Res α)) : Prop := ∀ e ∈ es, e.process = p

theorem OneProcess.covers (h : OneProcess p es) : (Contract.undisturbed inv).Covers es :=
  Or.inr ⟨p, h⟩

theorem Run.of_guarded (h : Run program (sem.guarded cond) k es k') : Run program sem k es k' :=
  h.mono fun _ _ _ _ hsem => hsem.2

/-- A step leaves the state alone, or it carries out an operation that was allowed. -/
theorem Run.step_moves (h : Run program sem (Config.idle s) es k) (hstep : Step program sem k e k')
    (hinv : inv s)
    (safe : ∀ c s, inv s → (program c).Safe sem (.undisturbed inv) allows (post c) s [])
    (hone : OneProcess p es) :
    k'.shared = k.shared ∨ ∃ op r l, allows op k.shared l ∧ inv k.shared ∧
      sem op k.shared r k'.shared := by
  cases hstep with
  | exec at_call outcome =>
    obtain ⟨hinv', _, since, -, -, hallows⟩ :=
      h.step_allowed (.exec at_call outcome) (fun _ => rfl) hinv safe hone.covers
    exact Or.inr ⟨_, _, _, hallows, hinv', outcome⟩
  | invoke => exact Or.inl rfl
  | response => exact Or.inl rfl
  | crash => exact Or.inl rfl

theorem Run.preserves {I : σ → Prop} (h : Run program (sem.guarded cond) (Config.idle s) es k)
    (hinv : inv s)
    (safe : ∀ c s, inv s → (program c).Safe sem (.undisturbed inv) allows (post c) s [])
    (hone : OneProcess p es)
    (hop : ∀ op s r s' l, inv s → I s → allows op s l → cond op s → sem op s r s' → I s')
    (hs : I s) : I k.shared := by
  induction h with
  | refl => exact hs
  | @snoc es k₁ e k₂ run step ih =>
    have hbefore := ih fun e' he => hone e' (List.mem_append_left _ he)
    cases step with
    | exec at_call outcome =>
      obtain ⟨hinv', _, since, -, -, hallows⟩ := run.of_guarded.step_allowed
        (.exec at_call outcome.2) (fun _ => rfl) hinv safe
        (OneProcess.covers fun e he => hone e (List.mem_append_left _ he))
      exact hop _ _ _ _ _ hinv' hbefore hallows outcome.1 outcome.2
    | invoke => exact hbefore
    | response => exact hbefore
    | crash => exact hbefore

/-- The invariant of the contract holds along the run. -/
theorem Run.keeps_inv (h : Run program sem (Config.idle s) es k) (hinv : inv s)
    (safe : ∀ c s, inv s → (program c).Safe sem (.undisturbed inv) allows (post c) s [])
    (hone : OneProcess p es) : inv k.shared :=
  (h.meets (fun _ => rfl) hinv safe hone.covers).inv

end Pool

section Scripts

variable {program : Call → Program Op Res α} {sem : Semantics Op Res σ} {Reply : Type}
variable (reply : Reply → (op : Op) → σ → Option (Res op × σ)) (p : ℕ)

/-- One entry of a script for one process: what it does, or how its operation is answered. -/
inductive Cue (Call Reply : Type) where
  | invoke (c : Call)
  | answer (r : Reply)
  | respond
  | crash

variable (program) in
/-- Follow one entry of a script, if the process has come to it. -/
def Config.cue (k : Config σ Call Op Res α) :
    Cue Call Reply → Option (Event Call Op Res α × Config σ Call Op Res α)
  | .invoke c => match k.threads p with
    | none => some (.invoke p c, k.setThread p (some (c, program c)))
    | some _ => none
  | .answer r => match k.threads p with
    | some (c, .call op next) => (reply r op k.shared).map fun (a, s') =>
        (.exec p c op a, { k with shared := s' }.setThread p (some (c, next a)))
    | _ => none
  | .respond => match k.threads p with
    | some (c, .pure a) => some (.response p c a, k.setThread p none)
    | _ => none
  | .crash => some (.crash p, k.setThread p none)

variable (program) in
def Config.perform (k : Config σ Call Op Res α) :
    List (Cue Call Reply) → Option (List (Event Call Op Res α) × Config σ Call Op Res α)
  | [] => some ([], k)
  | cue :: script => (k.cue program reply p cue).bind fun (e, k') =>
      (k'.perform script).map fun (es, k'') => (e :: es, k'')

variable {reply p} {k k' : Config σ Call Op Res α} {e : Event Call Op Res α}
variable {es : List (Event Call Op Res α)}

theorem Config.cue_step (hreply : ∀ r op s a s', reply r op s = some (a, s') → sem op s a s')
    {cue : Cue Call Reply} (h : k.cue program reply p cue = some (e, k')) :
    Step program sem k e k' ∧ e.process = p := by
  cases cue with
  | invoke c =>
    simp only [Config.cue] at h
    split at h
    · cases h
      exact ⟨.invoke c ‹_›, rfl⟩
    · cases h
  | answer r =>
    simp only [Config.cue] at h
    split at h
    · obtain ⟨⟨a, s'⟩, ha, heq⟩ := Option.map_eq_some_iff.1 h
      cases heq
      exact ⟨.exec ‹_› (hreply _ _ _ _ _ ha), rfl⟩
    · cases h
  | respond =>
    simp only [Config.cue] at h
    split at h
    · cases h
      exact ⟨.response ‹_›, rfl⟩
    · cases h
  | crash =>
    cases h
    exact ⟨.crash p, rfl⟩

theorem Config.perform_run (hreply : ∀ r op s a s', reply r op s = some (a, s') → sem op s a s')
    {script : List (Cue Call Reply)} (h : k.perform program reply p script = some (es, k')) :
    Run program sem k es k' ∧ OneProcess p es := by
  induction script generalizing k es with
  | nil =>
    cases h
    exact ⟨.refl _, fun e he => absurd he List.not_mem_nil⟩
  | cons cue script ih =>
    simp only [Config.perform, Option.bind_eq_some_iff, Option.map_eq_some_iff] at h
    obtain ⟨⟨e, k₁⟩, hcue, ⟨es', k₂⟩, hrest, heq⟩ := h
    cases heq
    obtain ⟨hstep, hp⟩ := Config.cue_step hreply hcue
    obtain ⟨hrun, hone⟩ := ih hrest
    exact ⟨(Run.single hstep).append hrun, List.forall_mem_cons.2 ⟨hp, hone⟩⟩

variable (program k p) in
theorem Config.exists_performed {β : Type}
    (hreply : ∀ r op s a s', reply r op s = some (a, s') → sem op s a s')
    (script : List (Cue Call Reply)) (f : List (Event Call Op Res α) × Config σ Call Op Res α → β)
    {b : β} (h : (k.perform program reply p script).map f = some b) :
    ∃ es k', Run program sem k es k' ∧ OneProcess p es ∧ f (es, k') = b := by
  obtain ⟨⟨es, k'⟩, hperform, hb⟩ := Option.map_eq_some_iff.1 h
  obtain ⟨hrun, hone⟩ := Config.perform_run hreply hperform
  exact ⟨es, k', hrun, hone, hb⟩

end Scripts

section Outlines

variable {G : Type}

/-- What holds at each point of the calls, which parts keep apart, and how far a step moves the
shared state. -/
structure Outline (program : Call → Program Op Res α) (sem : Semantics Op Res σ) (G : Type) where
  inv : σ → Prop
  holds : Call → Answers Op Res → Program Op Res α → G → σ → Prop
  apart : G → G → Prop
  moves : σ → σ → Prop
  apart_symm : ∀ {g h}, apart g h → apart h g
  moves_refl : ∀ s, moves s s
  moves_trans : ∀ {s t u}, moves s t → moves t u → moves s u
  start : ∀ c s, inv s → ∃ g, holds c [] (program c) g s ∧ ∀ h, apart g h
  step : ∀ {c l op next g s r s'}, inv s → holds c l (.call op next) g s → sem op s r s' →
    inv s' ∧ moves s s' ∧ ∃ g', holds c (l ++ [⟨op, r⟩]) (next r) g' s' ∧
      ∀ c' l' x h, holds c' l' x h s → apart g h → holds c' l' x h s' ∧ apart g' h

variable {program : Call → Program Op Res α} {sem : Semantics Op Res σ}
variable {O : Outline program sem G} {k k' : Config σ Call Op Res α} {e : Event Call Op Res α}
variable {es es' : List (Event Call Op Res α)} {s s' : σ}
variable {parts : ℕ → G} {p : ℕ} {x : Program Op Res α} {c : Call}

theorem Uninterrupted.unique {c c' : Call}
    {before since before' since' : List (Event Call Op Res α)} (h : Uninterrupted p c since)
    (h' : Uninterrupted p c' since')
    (heq : before ++ .invoke p c :: since = before' ++ .invoke p c' :: since') :
    since = since' := by
  have hlater : ∀ {c c' : Call} {since since' more : List (Event Call Op Res α)},
      Uninterrupted p c since → .invoke p c :: since = more ++ .invoke p c' :: since' →
      since = since' := by
    intro c c' since since' more honly hmore
    cases more with
    | nil => exact (List.cons.inj hmore).2
    | cons e more =>
      have hmem : .invoke p c' ∈ since := by
        rw [(List.cons.inj hmore).2]
        simp
      obtain ⟨op, r, hexec⟩ := honly _ hmem rfl
      cases hexec
  rcases List.append_eq_append_iff.mp heq with ⟨more, -, hmore⟩ | ⟨more, -, hmore⟩
  · exact hlater h hmore
  · exact (hlater h' hmore).symm

/-- What is left of a call is where the outline says, given its answers since it was invoked. -/
structure FollowsAt (O : Outline program sem G) (p : ℕ) (c : Call)
    (es : List (Event Call Op Res α)) (x : Program Op Res α) (g : G) (s : σ) : Prop where
  history : ∃ before since, es = before ++ .invoke p c :: since ∧ Uninterrupted p c since ∧
    O.holds c (answers p since) x g s

structure Config.Follows (O : Outline program sem G) (es : List (Event Call Op Res α))
    (k : Config σ Call Op Res α) (parts : ℕ → G) : Prop where
  inv : O.inv k.shared
  thread : ∀ p c x, k.threads p = some (c, x) → FollowsAt O p c es x (parts p) k.shared
  apart : ∀ p q, p ≠ q → k.threads p ≠ none → k.threads q ≠ none → O.apart (parts p) (parts q)

theorem FollowsAt.other {g : G} (h : FollowsAt O p c es x g s) (hep : e.process ≠ p)
    (hkept : ∀ l, O.holds c l x g s → O.holds c l x g s') : FollowsAt O p c (es ++ [e]) x g s' := by
  obtain ⟨before, since, rfl, honly, hholds⟩ := h.history
  refine ⟨before, since ++ [e], by simp, ?_, ?_⟩
  · intro e' he' hproc
    rcases List.mem_append.1 he' with he' | he'
    · exact honly e' he' hproc
    · exact absurd (List.mem_singleton.1 he' ▸ hproc) hep
  · rw [answers_append, answers_other hep, List.append_nil]
    exact hkept _ hholds

theorem Config.Follows.ended (hk : k.Follows O es parts) (p : ℕ) (hp : e.process = p) :
    (k.setThread p none).Follows O (es ++ [e]) parts := by
  refine ⟨hk.inv, fun q c x hq => ?_, fun q q' hne hq hq' => ?_⟩
  · have hqp : q ≠ p := by
      rintro rfl
      simp at hq
    rw [Config.setThread_other k hqp] at hq
    exact (hk.thread q c x hq).other (fun h => hqp (h.symm.trans hp)) fun _ h => h
  · have hlive : ∀ r, (k.setThread p none).threads r ≠ none → k.threads r ≠ none := by
      intro r hr
      by_cases hrp : r = p
      · subst hrp
        simp at hr
      · rwa [Config.setThread_other k hrp] at hr
    exact hk.apart q q' hne (hlive q hq) (hlive q' hq')

/-- Giving one process another part keeps the parts apart, if the new one is apart from those of
the others. -/
theorem apart_update {t : Option (Call × Program Op Res α)} {g : G} {k₁ : Config σ Call Op Res α}
    (hthreads : k₁.threads = k.threads)
    (hk : ∀ q q', q ≠ q' → k.threads q ≠ none → k.threads q' ≠ none →
      O.apart (parts q) (parts q')) (hg : ∀ q, q ≠ p → k.threads q ≠ none → O.apart g (parts q))
    (q q' : ℕ) (hne : q ≠ q') (hq : (k₁.setThread p t).threads q ≠ none)
    (hq' : (k₁.setThread p t).threads q' ≠ none) :
    O.apart (Function.update parts p g q) (Function.update parts p g q') := by
  by_cases hqp : q = p
  · subst hqp
    rw [Config.setThread_other _ (Ne.symm hne), hthreads] at hq'
    rw [Function.update_self, Function.update_of_ne (Ne.symm hne)]
    exact hg q' (Ne.symm hne) hq'
  · rw [Config.setThread_other _ hqp, hthreads] at hq
    rw [Function.update_of_ne hqp]
    by_cases hqp' : q' = p
    · subst hqp'
      rw [Function.update_self]
      exact O.apart_symm (hg q hqp hq)
    · rw [Config.setThread_other _ hqp', hthreads] at hq'
      rw [Function.update_of_ne hqp']
      exact hk q q' hne hq hq'

theorem Step.follows (h : Step program sem k e k') (hk : k.Follows O es parts) :
    (∃ parts', k'.Follows O (es ++ [e]) parts') ∧ O.moves k.shared k'.shared := by
  cases h with
  | @invoke p c free =>
    refine ⟨?_, O.moves_refl _⟩
    obtain ⟨g, hholds, hapart⟩ := O.start c k.shared hk.inv
    refine ⟨Function.update parts p g, hk.inv, fun q c' x hq => ?_, ?_⟩
    · by_cases hqp : q = p
      · subst hqp
        obtain ⟨rfl, rfl⟩ : c = c' ∧ program c = x := by simpa using hq
        rw [Function.update_self]
        exact ⟨es, [], rfl, by simp [Uninterrupted], hholds⟩
      · rw [Config.setThread_other _ hqp] at hq
        rw [Function.update_of_ne hqp]
        exact (hk.thread q c' x hq).other (Ne.symm hqp) fun _ h => h
    · exact apart_update rfl hk.apart fun q _ _ => hapart (parts q)
  | @exec p c op next r s' at_call outcome =>
    obtain ⟨before, since, hes, honly, hhere⟩ := (hk.thread p c _ at_call).history
    obtain ⟨hinv, hmoves, g', hnext, hothers⟩ := O.step hk.inv hhere outcome
    refine ⟨⟨Function.update parts p g', hinv, fun q c' x hq => ?_, ?_⟩, hmoves⟩
    · by_cases hqp : q = p
      · subst hqp
        obtain ⟨rfl, rfl⟩ : c = c' ∧ next r = x := by simpa using hq
        rw [Function.update_self]
        refine ⟨before, since ++ [.exec q c op r], by simp [hes], ?_, ?_⟩
        · intro e he
          rcases List.mem_append.1 he with he | he
          · exact honly e he
          · exact fun _ => ⟨op, r, List.mem_singleton.1 he⟩
        · rw [answers_append, answers_exec]
          exact hnext
      · rw [Config.setThread_other _ hqp] at hq
        rw [Function.update_of_ne hqp]
        refine (hk.thread q c' x hq).other (Ne.symm hqp) fun l hl => ?_
        refine (hothers c' l x _ hl ?_).1
        exact hk.apart p q (Ne.symm hqp) (by simp [at_call]) (by simp [show k.threads q = _ from hq])
    · refine apart_update rfl hk.apart fun q hqp hq => ?_
      obtain ⟨⟨c', x⟩, hq'⟩ := Option.ne_none_iff_exists'.1 hq
      obtain ⟨_, since', _, _, hthere⟩ := (hk.thread q c' x hq').history
      exact (hothers c' _ x _ hthere (hk.apart p q (Ne.symm hqp) (by simp [at_call]) hq)).2
  | @response p c a at_return => exact ⟨⟨parts, hk.ended p rfl⟩, O.moves_refl _⟩
  | crash p => exact ⟨⟨parts, hk.ended p rfl⟩, O.moves_refl _⟩

/-- Every interleaving follows the outline. -/
theorem Run.follows [Inhabited G] (h : Run program sem (Config.idle s) es k) (hs : O.inv s) :
    ∃ parts, k.Follows O es parts := by
  induction h with
  | refl => exact ⟨fun _ => default, hs, fun p c x hp => (by cases hp),
      fun p q _ hp => absurd rfl hp⟩
  | snoc run step ih =>
    obtain ⟨parts, hparts⟩ := ih
    exact (step.follows hparts).1

variable (O) in
/-- What the steps of a run keep holds between any two of its states. -/
theorem Run.outline_moves [Inhabited G] {s : σ} (h₀ : Run program sem (Config.idle s) es k) (hs : O.inv s)
    (h : Run program sem k es' k') : O.moves k.shared k'.shared := by
  induction h with
  | refl => exact O.moves_refl _
  | snoc run step ih =>
    obtain ⟨parts, hparts⟩ := (h₀.append run).follows hs
    exact O.moves_trans ih (step.follows hparts).2

variable (O) in
/-- Where a call is when it hands back its value. -/
theorem Run.outline_response [Inhabited G] {s : σ} {a : α}
    (h : Run program sem (Config.idle s) es k) (hs : O.inv s)
    (hstep : Step program sem k (.response p c a) k') :
    ∃ before since g, es = before ++ .invoke p c :: since ∧ Uninterrupted p c since ∧
      O.holds c (answers p since) (.pure a) g k.shared := by
  obtain ⟨parts, hparts⟩ := h.follows hs
  cases hstep with
  | response at_return =>
    obtain ⟨before, since, hes, honly, hholds⟩ := (hparts.thread _ _ _ at_return).history
    exact ⟨before, since, parts p, hes, honly, hholds⟩

/-- A call that can always go on, whatever is left of it, comes to its value when nobody else takes
a step. -/
theorem Config.exists_completion (Q : Program Op Res α → σ → Prop)
    (good : (op : Op) → Res op → Prop)
    (hgo : ∀ op next s, Q (.call op next) s → ∃ r s', sem op s r s' ∧ good op r ∧ Q (next r) s')
    (hp : k.threads p = some (c, x)) (hx : Q x k.shared) :
    ∃ es a k', Run program sem k es k' ∧ k'.threads p = some (c, .pure a) ∧
      Uninterrupted p c es ∧ (∀ e ∈ es, e.process = p) ∧
      ∀ answer ∈ answers p es, good answer.1 answer.2 := by
  induction x generalizing k with
  | pure a => exact ⟨[], a, k, .refl k, hp, by simp [Uninterrupted], by simp, by simp [answers]⟩
  | call op next ih =>
    obtain ⟨r, s', hsem, hgood, hnext⟩ := hgo op next k.shared hx
    have hstep : Step program sem k (.exec p c op r)
        ({ k with shared := s' }.setThread p (some (c, next r))) := .exec hp hsem
    obtain ⟨es, a, k', hrun, hthread, honly, hone, hanswers⟩ :=
      ih r (k := { k with shared := s' }.setThread p (some (c, next r)))
        (Config.setThread_same _ p (some (c, next r))) hnext
    refine ⟨.exec p c op r :: es, a, k', (Run.single hstep).append hrun, hthread, ?_, ?_, ?_⟩
    · intro e he hep
      rcases List.mem_cons.1 he with rfl | he
      · exact ⟨op, r, rfl⟩
      · exact honly e he hep
    · exact List.forall_mem_cons.2 ⟨rfl, hone⟩
    · have hcons : answers p (.exec p c op r :: es) = ⟨op, r⟩ :: answers p es := by
        simp [answers, Event.process, Event.answer]
      rw [hcons]
      exact List.forall_mem_cons.2 ⟨hgood, hanswers⟩

end Outlines

/-- How a call ended: it returned, or its process was killed. -/
inductive Ending (α : Type) where
  | returned (a : α)
  | killed
  deriving DecidableEq

/-- The call was left in the state `s'` after the answers `l`. -/
inductive Halts (sem : Semantics Op Res σ) :
    Program Op Res α → σ → Answers Op Res → Ending α → σ → Prop where
  | returned (a s) : Halts sem (.pure a) s [] (.returned a) s
  | killed (x s) : Halts sem x s [] .killed s
  | call {op next r s s' l e s''} (outcome : sem op s r s') (rest : Halts sem (next r) s' l e s'') :
      Halts sem (.call op next) s (⟨op, r⟩ :: l) e s''

variable {sem : Semantics Op Res σ} {s s' : σ} {l : Answers Op Res} {e : Ending α}

theorem halts_pure {a : α} (h : Halts sem (.pure a) s l e s') :
    l = [] ∧ s' = s ∧ (e = .returned a ∨ e = .killed) := by
  cases h with
  | returned => exact ⟨rfl, rfl, Or.inl rfl⟩
  | killed => exact ⟨rfl, rfl, Or.inr rfl⟩

theorem halts_call {op : Op} {next : Res op → Program Op Res α}
    (h : Halts sem (.call op next) s l e s') :
    (l = [] ∧ e = .killed ∧ s' = s) ∨
      ∃ r l' t, l = ⟨op, r⟩ :: l' ∧ sem op s r t ∧ Halts sem (next r) t l' e s' := by
  cases h with
  | killed => exact Or.inl ⟨rfl, rfl, rfl⟩
  | call outcome rest => exact Or.inr ⟨_, _, _, rfl, outcome, rest⟩

/-- A composition was killed in its first part, or it is in its second. -/
theorem halts_bind {x : Program Op Res β} {f : β → Program Op Res α}
    (h : Halts sem (x.bind f) s l e s') :
    (e = .killed ∧ Halts sem x s l .killed s') ∨
      ∃ b t l₁ l₂, l = l₁ ++ l₂ ∧ Halts sem x s l₁ (.returned b) t ∧
        Halts sem (f b) t l₂ e s' := by
  induction x generalizing s l with
  | pure b => exact Or.inr ⟨b, s, [], l, rfl, .returned b s, h⟩
  | call op next ih =>
    rcases halts_call h with ⟨rfl, rfl, rfl⟩ | ⟨r, l', t, rfl, outcome, rest⟩
    · exact Or.inl ⟨rfl, .killed _ _⟩
    · rcases ih r rest with ⟨rfl, hkilled⟩ | ⟨b, t', l₁, l₂, rfl, hfirst, hsecond⟩
      · exact Or.inl ⟨rfl, .call outcome hkilled⟩
      · exact Or.inr ⟨b, t', ⟨op, r⟩ :: l₁, l₂, rfl, .call outcome hfirst, hsecond⟩

section Throwing

variable {Val : Op → Type} {ε : Type}

/-- The given meaning, or a failure with the error `fault` that leaves the state as it was. -/
def faulting (exec : (op : Op) → σ → Except ε (Val op) × σ) (fault : ε) :
    Semantics Op (fun op => Except ε (Val op)) σ :=
  fun op s r s' => (r, s') = exec op s ∨ (r = .error fault ∧ s' = s)

/-- The given meaning and nothing else. -/
def exactly (exec : (op : Op) → σ → Except ε (Val op) × σ) :
    Semantics Op (fun op => Except ε (Val op)) σ :=
  fun op s r s' => (r, s') = exec op s

variable {sem : Semantics Op (fun op => Except ε (Val op)) σ}
variable {l : Answers Op (fun op => Except ε (Val op))} {e : Ending (Except ε α)}

/-- A composition was killed in its first part, has thrown the error of its first part, or
is in its second. -/
theorem halts_throwing_bind {x : Throwing Op Val ε β} {f : β → Throwing Op Val ε α}
    (h : Halts sem (x >>= f).run s l e s') :
    (e = .killed ∧ Halts sem x.run s l .killed s') ∨
      (∃ error, Halts sem x.run s l (.returned (.error error)) s' ∧
        (e = .returned (.error error) ∨ e = .killed)) ∨
      ∃ b t l₁ l₂, l = l₁ ++ l₂ ∧ Halts sem x.run s l₁ (.returned (.ok b)) t ∧
        Halts sem (f b).run t l₂ e s' := by
  rcases halts_bind (f := ExceptT.bindCont f) h with hkilled | ⟨r, t, l₁, l₂, rfl, hfirst, hsecond⟩
  · exact Or.inl hkilled
  · cases r with
    | error error =>
      obtain ⟨rfl, rfl, he⟩ := halts_pure hsecond
      rw [List.append_nil]
      exact Or.inr (Or.inl ⟨error, hfirst, he⟩)
    | ok b => exact Or.inr (Or.inr ⟨b, t, l₁, l₂, rfl, hfirst, hsecond⟩)

/-- Carry out a call by itself. The list says of its operations in their order whether they
are carried out or fail, and its end is where the process is killed. -/
def halt (exec : (op : Op) → σ → Except ε (Val op) × σ) (fault : ε) :
    List Bool → Program Op (fun op => Except ε (Val op)) α → σ →
      Answers Op (fun op => Except ε (Val op)) × Ending α × σ
  | _, .pure a, s => ([], .returned a, s)
  | [], .call _ _, s => ([], .killed, s)
  | true :: plan, .call op next, s =>
    let rest := halt exec fault plan (next (exec op s).1) (exec op s).2
    (⟨op, (exec op s).1⟩ :: rest.1, rest.2)
  | false :: plan, .call op next, s =>
    let rest := halt exec fault plan (next (.error fault)) s
    (⟨op, .error fault⟩ :: rest.1, rest.2)

theorem halts_halt {exec : (op : Op) → σ → Except ε (Val op) × σ} {fault : ε}
    (plan : List Bool) (x : Program Op (fun op => Except ε (Val op)) α) (s : σ) :
    Halts (faulting exec fault) x s (halt exec fault plan x s).1 (halt exec fault plan x s).2.1
      (halt exec fault plan x s).2.2 := by
  induction plan generalizing x s with
  | nil =>
    cases x with
    | pure a => exact .returned a s
    | call op next => exact .killed _ s
  | cons carried plan ih =>
    cases x with
    | pure a =>
      cases carried <;> exact .returned a s
    | call op next =>
      cases carried with
      | true => exact .call (Or.inl rfl) (ih _ _)
      | false => exact .call (Or.inr ⟨rfl, rfl⟩) (ih _ _)

end Throwing

section Play

variable {Call : Type} {Val : Op → Type} {ε : Type}
variable {program : Call → Program Op (fun op => Except ε (Val op)) α}
variable {exec : (op : Op) → σ → Except ε (Val op) × σ}
variable {cond : Op → σ → Prop} [∀ op s, Decidable (cond op s)]
variable {k k' : Config σ Call Op (fun op => Except ε (Val op)) α}

def Move.Fails : Move Call ε → Prop
  | .fail _ _ => True
  | _ => False

theorem Config.move_step_exactly {m : Move Call ε}
    {e : Event Call Op (fun op => Except ε (Val op)) α} (hm : ¬ m.Fails)
    (h : k.move program exec cond m = some (e, k')) : Step program (exactly exec) k e k' := by
  cases m with
  | invoke p c =>
    simp only [Config.move] at h
    split at h
    · cases h
      exact .invoke c ‹_›
    · cases h
  | exec p =>
    simp only [Config.move] at h
    split at h
    · split_ifs at h with hcond
      cases h
      exact .exec ‹_› rfl
    · cases h
  | fail p e => exact absurd trivial hm
  | respond p =>
    simp only [Config.move] at h
    split at h
    · cases h
      exact .response ‹_›
    · cases h
  | crash p =>
    cases h
    exact .crash p

/-- A schedule without failures that could be executed is a run in which nothing fails. -/
theorem Config.play_run_exactly {ms : List (Move Call ε)}
    {es : List (Event Call Op (fun op => Except ε (Val op)) α)} (hms : ∀ m ∈ ms, ¬ m.Fails)
    (h : k.play program exec cond ms = some (es, k')) : Run program (exactly exec) k es k' := by
  induction ms generalizing k es with
  | nil =>
    cases h
    exact .refl _
  | cons m ms ih =>
    rw [List.forall_mem_cons] at hms
    simp only [Config.play, Option.bind_eq_some_iff, Option.map_eq_some_iff] at h
    obtain ⟨⟨e, k₁⟩, hm, ⟨es', k₂⟩, hp, heq⟩ := h
    cases heq
    exact (Run.single (Config.move_step_exactly hms.1 hm)).append (ih hms.2 hp)

variable (program exec)

/-- What was computed about the outcome of a schedule without failures holds of a run in which
nothing fails. -/
theorem Config.exists_exact_run {β : Type} (k : Config σ Call Op (fun op => Except ε (Val op)) α)
    (schedule : List (Move Call ε)) (hschedule : ∀ m ∈ schedule, ¬ m.Fails)
    (f : List (Event Call Op (fun op => Except ε (Val op)) α) ×
      Config σ Call Op (fun op => Except ε (Val op)) α → β) {b : β}
    (h : (k.play program exec (fun _ _ => True) schedule).map f = some b) :
    ∃ es k', Run program (exactly exec) k es k' ∧ f (es, k') = b := by
  obtain ⟨⟨es, k'⟩, hplay, hb⟩ := Option.map_eq_some_iff.1 h
  exact ⟨es, k', Config.play_run_exactly hschedule hplay, hb⟩

end Play

section Values

variable {Op : Type} {Res : Op → Type} {α β : Type} {P : α → Prop} {Q : β → Prop}

/-- Every value the program can return satisfies `P`, whatever the answers. -/
def Program.Returns (P : α → Prop) : Program Op Res α → Prop
  | .pure a => P a
  | .call _ next => ∀ r, (next r).Returns P

theorem Program.Returns.bind {x : Program Op Res α} {f : α → Program Op Res β}
    (hx : x.Returns P) (hf : ∀ a, P a → (f a).Returns Q) : (x.bind f).Returns Q := by
  induction x with
  | pure a => exact hf a hx
  | call op next ih => exact fun r => ih r (hx r)

theorem Program.returns_true (x : Program Op Res α) : x.Returns fun _ => True := by
  induction x with
  | pure a => trivial
  | call op next ih => exact fun r => ih r

variable {σ Call : Type} {program : Call → Program Op Res α} {sem : Semantics Op Res σ}
variable {k k' : Config σ Call Op Res α} {e : Event Call Op Res α}
variable {es : List (Event Call Op Res α)} {R : Call → α → Prop}

/-- The values of all calls that are under way are among those that their bodies can return. -/
def Config.Returns (R : Call → α → Prop) (k : Config σ Call Op Res α) : Prop :=
  ∀ p c x, k.threads p = some (c, x) → x.Returns (R c)

theorem Step.returns (h : Step program sem k e k') (hprogram : ∀ c, (program c).Returns (R c))
    (hk : k.Returns R) : k'.Returns R ∧ ∀ p c a, e = .response p c a → R c a := by
  have hset : ∀ (s : σ) (p : ℕ) (t : Option (Call × Program Op Res α)),
      (∀ c x, t = some (c, x) → x.Returns (R c)) →
      (Config.setThread { k with shared := s } p t).Returns R := by
    intro s p t ht q c x hq
    by_cases hqp : q = p
    · rw [hqp, Config.setThread_same] at hq
      exact ht c x hq
    · rw [Config.setThread_other _ hqp] at hq
      exact hk q c x hq
  cases h with
  | invoke c free =>
    refine ⟨hset k.shared _ _ ?_, nofun⟩
    rintro c' x ⟨⟩
    exact hprogram c
  | exec at_call outcome =>
    refine ⟨hset _ _ _ ?_, nofun⟩
    rintro c' x ⟨⟩
    exact hk _ _ _ at_call _
  | response at_return =>
    refine ⟨hset k.shared _ _ nofun, ?_⟩
    rintro p c a ⟨⟩
    exact hk _ _ _ at_return
  | crash p => exact ⟨hset k.shared _ _ nofun, nofun⟩

theorem Run.returns {s : σ} (h : Run program sem (Config.idle s) es k)
    (hprogram : ∀ c, (program c).Returns (R c)) {p : ℕ} {c : Call} {a : α}
    (hmem : .response p c a ∈ es) : R c a := by
  obtain ⟨before, after, rfl⟩ := List.append_of_mem hmem
  obtain ⟨k₁, k₂, hbefore, hstep, -⟩ := h.split_step
  have hidle : (Config.idle s : Config σ Call Op Res α).Returns R := fun _ _ _ hp => by cases hp
  have hreturns := hbefore.invariant (fun hk step => (step.returns hprogram hk).1) hidle
  exact (hstep.returns hprogram hreturns).2 p c a rfl

/-- A call that has returned was begun. -/
theorem Run.invoked {s : σ} (h : Run program sem (Config.idle s) es k) {p : ℕ} {c : Call} {a : α}
    (hmem : .response p c a ∈ es) : .invoke p c ∈ es := by
  obtain ⟨before, after, rfl⟩ := List.append_of_mem hmem
  obtain ⟨k₁, k₂, hbefore, hstep, -⟩ := h.split_step
  cases hstep with
  | response at_return =>
    obtain ⟨b, since, rfl, -, -⟩ := (hbefore.inside (fun _ => rfl) at_return).history
    simp

end Values

section Issues

variable {Val : Op → Type} {ε : Type} {P : Op → Prop}

theorem issues_request {op : Op} (hop : P op) :
    (request op : Throwing Op Val ε (Val op)).run.Issues P := ⟨hop, fun _ => trivial⟩

theorem issues_bind {x : Throwing Op Val ε β} {f : β → Throwing Op Val ε α} (hx : x.run.Issues P)
    (hf : ∀ b, (f b).run.Issues P) : (x >>= f).run.Issues P := by
  refine Program.Issues.bind (f := ExceptT.bindCont f) hx fun r => ?_
  cases r with
  | ok b => exact hf b
  | error e => trivial

theorem issues_tryCatch {x : Throwing Op Val ε α} {handler : ε → Throwing Op Val ε α}
    (hx : x.run.Issues P) (hhandler : ∀ e, (handler e).run.Issues P) :
    (tryCatch x handler).run.Issues P := by
  refine Program.Issues.bind (x := x.run) hx fun r => ?_
  cases r with
  | ok a => trivial
  | error e => exact hhandler e

end Issues

variable {sem : Semantics Op Res σ} {inv : σ → Prop}
variable {allows : Op → σ → Answers Op Res → Prop} {post : α → σ → Answers Op Res → Prop}
variable {x : Program Op Res α} {s s' : σ} {l l₀ : Answers Op Res} {e : Ending α}

/-- Harmless operations may follow one another in any order. -/
theorem Program.Issues.safe {P : Op → Prop} (h : x.Issues P) (hallows : ∀ op s l, P op → allows op s l)
    (hpost : ∀ a s' l', l <+: l' → post a s' l') :
    x.Safe sem (.undisturbed fun _ => True) allows post s l := by
  induction x generalizing s l with
  | pure a => exact hpost a s l List.prefix_rfl
  | call op next ih =>
    refine ⟨hallows op s l h.1, fun r s' _ => ⟨trivial, trivial, ?_⟩⟩
    rintro t rfl -
    exact ih r (h.2 r) fun a s'' l' hl => hpost a s'' l' ((List.prefix_append _ _).trans hl)

/-- What each allowed operation keeps is kept by the whole call. -/
theorem Program.Safe.keeping {I : σ → Prop}
    (hop : ∀ op s r s' l, allows op s l → sem op s r s' → I s → I s')
    (h : x.Safe sem (.undisturbed inv) allows post s l) (hs : I s) :
    x.Safe sem (.undisturbed inv) allows (fun a s l => post a s l ∧ I s) s l := by
  induction x generalizing s l with
  | pure a => exact ⟨h, hs⟩
  | call op next ih =>
    refine ⟨h.1, fun r s' hsem => ?_⟩
    obtain ⟨hinv, hguarantee, hnext⟩ := h.2 r s' hsem
    refine ⟨hinv, hguarantee, ?_⟩
    rintro t rfl ht
    exact ih r (hnext s' rfl ht) (hop op s r s' l h.1 hsem hs)

theorem Program.Safe.halts (h : x.Safe sem (.undisturbed inv) allows post s l₀)
    (hhalts : Halts sem x s l e s') :
    (∀ l₁ op r l₂, l = l₁ ++ ⟨op, r⟩ :: l₂ → ∃ t, allows op t (l₀ ++ l₁)) ∧
      ∀ a, e = .returned a → post a s' (l₀ ++ l) := by
  induction hhalts generalizing l₀ with
  | returned a s =>
    refine ⟨fun l₁ op r l₂ hl => absurd hl (by simp), fun b hb => ?_⟩
    cases hb
    rw [List.append_nil]
    exact h
  | killed x s => exact ⟨fun l₁ op r l₂ hl => absurd hl (by simp), nofun⟩
  | @call op next r s s₁ l e s₂ outcome rest ih =>
    obtain ⟨hinv, -, hnext⟩ := h.2 r s₁ outcome
    obtain ⟨hallowed, hreturned⟩ := ih (hnext s₁ rfl hinv)
    refine ⟨fun l₁ op' r' l₂ hl => ?_, fun a ha => ?_⟩
    · cases l₁ with
      | nil =>
        cases hl
        exact ⟨s, by rw [List.append_nil]; exact h.1⟩
      | cons first l₁ =>
        obtain ⟨rfl, htail⟩ := List.cons.inj hl
        obtain ⟨t, ht⟩ := hallowed l₁ op' r' l₂ htail
        exact ⟨t, by simpa using ht⟩
    · simpa using hreturned a ha

section Within

/-- No more than `n` operations are issued, whatever they are answered. -/
def Program.Within : ℕ → Program Op Res α → Prop
  | _, .pure _ => True
  | 0, .call _ _ => False
  | n + 1, .call _ next => ∀ r, (next r).Within n

theorem Program.Within.mono {m n : ℕ} (h : x.Within m) (hmn : m ≤ n) : x.Within n := by
  induction x generalizing m n with
  | pure a =>
    cases n <;> trivial
  | call op next ih =>
    cases m with
    | zero => cases h
    | succ m =>
      cases n with
      | zero => omega
      | succ n => exact fun r => ih r (h r) (by omega)

theorem Program.Within.bind {m n : ℕ} {f : α → Program Op Res β} (hx : x.Within m)
    (hf : ∀ a, (f a).Within n) : (x.bind f).Within (m + n) := by
  induction x generalizing m with
  | pure a => exact (hf a).mono (by omega)
  | call op next ih =>
    cases m with
    | zero => cases hx
    | succ m =>
      rw [Nat.add_right_comm]
      exact fun r => ih r (hx r)

theorem Program.Within.halts {n : ℕ} (h : x.Within n) (hhalts : Halts sem x s l e s') :
    l.length ≤ n := by
  induction hhalts generalizing n with
  | returned a s => exact Nat.zero_le n
  | killed x s => exact Nat.zero_le n
  | @call op next r s s₁ l e s₂ outcome rest ih =>
    cases n with
    | zero => cases h
    | succ n => exact Nat.succ_le_succ (ih (h r))

variable {Val : Op → Type} {ε : Type} {m n : ℕ}

theorem within_pure (a : α) : (pure a : Throwing Op Val ε α).run.Within n := by
  cases n <;> trivial

theorem within_throw (e : ε) : (throw e : Throwing Op Val ε α).run.Within n := by
  cases n <;> trivial

theorem within_request (op : Op) :
    (request op : Throwing Op Val ε (Val op)).run.Within 1 := fun _ => trivial

theorem within_bind {x : Throwing Op Val ε β} {f : β → Throwing Op Val ε α} (hx : x.run.Within m)
    (hf : ∀ b, (f b).run.Within n) : (x >>= f).run.Within (m + n) := by
  refine Program.Within.bind (f := ExceptT.bindCont f) hx fun r => ?_
  cases r with
  | ok b => exact hf b
  | error e => exact within_throw e

theorem within_tryCatch {x : Throwing Op Val ε α} {handler : ε → Throwing Op Val ε α}
    (hx : x.run.Within m) (hhandler : ∀ e, (handler e).run.Within n) :
    (tryCatch x handler).run.Within (m + n) := by
  refine Program.Within.bind (x := x.run) hx fun r => ?_
  cases r with
  | ok a => exact within_pure a
  | error e => exact hhandler e

end Within

end Interleaving

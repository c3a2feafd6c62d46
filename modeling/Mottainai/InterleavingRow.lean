import Mottainai.InterleavingHistory

/-!
# A table with one row

A protocol that lives in a single database row is a set of programs over three kinds
of statement: read the row, insert it, and update it under a condition. What such a
protocol keeps is decided by its updates alone, whatever the programs are: a relation
that every update respects holds between any two states of any interleaving.
-/

namespace Interleaving

variable {Row Insert Update : Type}

inductive RowStatement (Insert Update : Type) where
  | select
  | insert (i : Insert)
  | update (u : Update)

abbrev RowStatement.Value (Row : Type) : RowStatement Insert Update → Type
  | .select => Option Row
  | .insert _ => Unit
  | .update _ => ℕ

/-- The inserted row, and the `WHERE` and `SET` parts of each update. -/
structure RowSchema (Row Insert Update : Type) where
  row : Insert → Row
  applies : Update → Row → Bool
  set : Update → Row → Row

def RowSchema.exec (schema : RowSchema Row Insert Update) :
    (op : RowStatement Insert Update) → Option Row → Except String (op.Value Row) × Option Row
  | .select, row => (.ok row, row)
  | .insert i, none => (.ok (), some (schema.row i))
  | .insert _, some row => (.error "UNIQUE constraint failed", some row)
  | .update _, none => (.ok 0, none)
  | .update u, some row =>
      if schema.applies u row then (.ok 1, some (schema.set u row)) else (.ok 0, some row)

abbrev RowProgram (Row Insert Update α : Type) : Type :=
  Throwing (RowStatement Insert Update) (RowStatement.Value Row) String α

theorem not_select_leaves_update {u : Update}
    {l : Answers (RowStatement Insert Update) fun op => Except String (op.Value Row)}
    {next : Except String ℕ → Program (RowStatement Insert Update)
      (fun op => Except String (op.Value Row)) (Except String (Option Row))} :
    ¬ (request (RowStatement.select : RowStatement Insert Update) :
      RowProgram Row Insert Update (Option Row)).run.Leaves l (.call (.update u) next) := by
  intro h
  rcases Program.leaves_call.1 h with ⟨-, heq⟩ | ⟨r, l', -, h'⟩
  · cases heq
  · exact Program.not_pure_leaves_call h'

/-- `Keeps`, from one state of the table to another: a row stays. -/
def RowKeeps (Keeps : Row → Row → Prop) (s t : Option Row) : Prop :=
  ∀ row, s = some row → ∃ row', t = some row' ∧ Keeps row row'

variable {Keeps : Row → Row → Prop}

theorem RowKeeps.refl (hrefl : ∀ row, Keeps row row) (s : Option Row) :
    RowKeeps Keeps s s := fun row h => ⟨row, h, hrefl row⟩

theorem RowKeeps.trans (htrans : ∀ a b c, Keeps a b → Keeps b c → Keeps a c) {s t u : Option Row}
    (hst : RowKeeps Keeps s t) (htu : RowKeeps Keeps t u) : RowKeeps Keeps s u := by
  intro row hs
  obtain ⟨row', ht, hrow⟩ := hst row hs
  obtain ⟨row'', hu, hrow'⟩ := htu row' ht
  exact ⟨row'', hu, htrans _ _ _ hrow hrow'⟩

section Runs

variable {Call α : Type} {schema : RowSchema Row Insert Update}

abbrev RowEvent (Row Insert Update Call α : Type) : Type :=
  Event Call (RowStatement Insert Update) (fun op => Except String (op.Value Row)) α

abbrev RowConfig (Row Insert Update Call α : Type) : Type :=
  Config (Option Row) Call (RowStatement Insert Update)
    (fun op => Except String (op.Value Row)) α

variable {program : Call → Program (RowStatement Insert Update)
  (fun op => Except String (op.Value Row)) α}
variable {k k' : RowConfig Row Insert Update Call α} {e : RowEvent Row Insert Update Call α}
variable {es : List (RowEvent Row Insert Update Call α)}

def updated : RowEvent Row Insert Update Call α → Option Update
  | .exec _ _ (.update u) (.ok n) => if n = 0 then none else some u
  | _ => none

/-- What one step can do to the row: nothing, insert it, or update it. -/
theorem step_row (h : Step program (fallible schema.exec) k e k') :
    (updated e = none ∧ k'.shared = k.shared) ∨
    (updated e = none ∧ k.shared = none ∧ ∃ i, k'.shared = some (schema.row i)) ∨
    ∃ u row, updated e = some u ∧ k.shared = some row ∧ schema.applies u row = true ∧
      k'.shared = some (schema.set u row) := by
  cases h with
  | @exec p c op next r s' at_call outcome =>
    rcases outcome with heq | ⟨⟨e, rfl⟩, rfl⟩
    · obtain ⟨rfl, rfl⟩ := Prod.mk.inj heq
      cases op with
      | select => exact Or.inl ⟨rfl, rfl⟩
      | insert i =>
        cases hrow : k.shared with
        | none => exact Or.inr (Or.inl ⟨rfl, rfl, i, rfl⟩)
        | some row => exact Or.inl ⟨rfl, rfl⟩
      | update u =>
        cases hrow : k.shared with
        | none => exact Or.inl ⟨by simp [updated], rfl⟩
        | some row =>
          by_cases happlies : schema.applies u row = true
          · exact Or.inr (Or.inr ⟨u, row, by simp [updated, happlies], rfl,
              happlies, by simp [happlies]⟩)
          · exact Or.inl ⟨by simp [updated, happlies],
              by simp [happlies]⟩
    · refine Or.inl ⟨?_, rfl⟩
      cases op <;> rfl
  | invoke => exact Or.inl ⟨rfl, rfl⟩
  | response => exact Or.inl ⟨rfl, rfl⟩
  | crash => exact Or.inl ⟨rfl, rfl⟩

/-- A read answers the row as it is. -/
theorem step_select {p : ℕ} {c : Call} {row : Option Row}
    (h : Step program (fallible schema.exec) k (.exec p c .select (.ok row)) k') :
    row = k.shared ∧ k'.shared = k.shared := by
  cases h with
  | exec at_call outcome =>
    rcases outcome with heq | ⟨⟨e, he⟩, -⟩
    · obtain ⟨hrow, rfl⟩ := Prod.mk.inj heq
      exact ⟨Except.ok.inj hrow, rfl⟩
    · cases he

/-- An update that was answered has run, on the row if the condition holds. -/
theorem step_update {p : ℕ} {c : Call} {u : Update} {n : ℕ} {row : Row}
    (h : Step program (fallible schema.exec) k (.exec p c (.update u) (.ok n)) k')
    (hrow : k.shared = some row) :
    k'.shared = some (if schema.applies u row then schema.set u row else row) := by
  cases h with
  | exec at_call outcome =>
    rcases outcome with heq | ⟨⟨e, he⟩, -⟩
    · obtain ⟨-, rfl⟩ := Prod.mk.inj heq
      simp only [hrow, Config.setThread_shared]
      split_ifs <;> rfl
    · cases he

theorem update_between_reads {l l' : Answers (RowStatement Insert Update)
      fun op => Except String (op.Value Row)} {u u' : Update} {r r' : Except String ℕ}
    {row row' : Except String (Option Row)}
    (h : l ++ ⟨.update u, r⟩ :: l' = [⟨.select, row⟩, ⟨.update u', r'⟩, ⟨.select, row'⟩]) :
    l = [⟨.select, row⟩] ∧ u = u' := by
  match l, h with
  | [], h => simp at h
  | [a], h =>
    simp only [List.cons_append, List.nil_append, List.cons.injEq, Sigma.mk.injEq,
      RowStatement.update.injEq] at h
    exact ⟨by rw [h.1], h.2.1.1⟩
  | [a, b], h => simp at h
  | a :: b :: c :: l, h => simp at h

section

variable {Keeps : Row → Row → Prop}
variable (h : Run program (fallible schema.exec) k es k')
include h

/-- A relation that every update respects holds from any state to any later one. -/
theorem run_keeps (hrefl : ∀ row, Keeps row row)
    (htrans : ∀ a b c, Keeps a b → Keeps b c → Keeps a c)
    (hset : ∀ u row, schema.applies u row = true → Keeps row (schema.set u row)) :
    RowKeeps Keeps k.shared k'.shared := by
  induction h with
  | refl => exact .refl hrefl _
  | snoc run step ih =>
    refine ih.trans htrans ?_
    rcases step_row step with ⟨-, hsame⟩ | ⟨-, hnone, -⟩ | ⟨u, row, -, hrow, happlies, hrow'⟩
    · rw [hsame]
      exact .refl hrefl _
    · intro row hrow
      rw [hnone] at hrow
      cases hrow
    · intro row₁ hrow₁
      obtain rfl : row = row₁ := Option.some.inj (hrow.symm.trans hrow₁)
      exact ⟨_, hrow', hset u row happlies⟩

/-- A property of the inserted row that every update keeps is an invariant. -/
theorem run_sound {Sound : Row → Prop} (hinsert : ∀ i, Sound (schema.row i))
    (hset : ∀ u row, schema.applies u row = true → Sound row → Sound (schema.set u row))
    (hk : ∀ row, k.shared = some row → Sound row) : ∀ row, k'.shared = some row → Sound row := by
  refine h.invariant (I := fun k => ∀ row, k.shared = some row → Sound row) ?_ hk
  intro k e k' hk step row hrow
  rcases step_row step with ⟨-, hsame⟩ | ⟨-, -, i, hrow'⟩ | ⟨u, row', -, hrow', happlies, hset'⟩
  · exact hk row (hsame ▸ hrow)
  · obtain rfl := Option.some.inj (hrow'.symm.trans hrow)
    exact hinsert i
  · obtain rfl := Option.some.inj (hset'.symm.trans hrow)
    exact hset u row' happlies (hk row' hrow')

theorem run_row {P : Row → Prop}
    (hset : ∀ e ∈ es, ∀ u row, updated e = some u → schema.applies u row = true → P row →
      P (schema.set u row)) {row : Row} (hrow : k.shared = some row) (hP : P row) :
    ∃ row', k'.shared = some row' ∧ P row' := by
  induction h with
  | refl => exact ⟨row, hrow, hP⟩
  | @snoc es k₁ e k₂ run step ih =>
    obtain ⟨row₁, hrow₁, hP₁⟩ := ih fun e he => hset e (by simp [he])
    rcases step_row step with ⟨-, hsame⟩ | ⟨-, hnone, -⟩ | ⟨u, row₂, hu, hrow₂, happlies, hrow'⟩
    · exact ⟨row₁, hsame.trans hrow₁, hP₁⟩
    · rw [hnone] at hrow₁
      cases hrow₁
    · obtain rfl := Option.some.inj (hrow₁.symm.trans hrow₂)
      exact ⟨_, hrow', hset e (by simp) u row₁ hu happlies hP₁⟩

end

/-- `Keeps` holds from every state of the run to every later one. -/
def KeepsThroughout (program : Call → Program (RowStatement Insert Update)
    (fun op => Except String (op.Value Row)) α) (schema : RowSchema Row Insert Update)
    (Keeps : Row → Row → Prop) (k : RowConfig Row Insert Update Call α)
    (es : List (RowEvent Row Insert Update Call α)) (k' : RowConfig Row Insert Update Call α) :
    Prop :=
  ∀ before between after k₁ k₂, es = before ++ between ++ after →
    Run program (fallible schema.exec) k before k₁ →
    Run program (fallible schema.exec) k₁ between k₂ →
    Run program (fallible schema.exec) k₂ after k' → RowKeeps Keeps k₁.shared k₂.shared

/-- Every update of the run meets `cond` on the row it changes. -/
def UpdatesMeet (program : Call → Program (RowStatement Insert Update)
    (fun op => Except String (op.Value Row)) α) (schema : RowSchema Row Insert Update)
    (cond : Update → Row → Prop) (k : RowConfig Row Insert Update Call α)
    (es : List (RowEvent Row Insert Update Call α)) (k' : RowConfig Row Insert Update Call α) :
    Prop :=
  ∀ before e after k₁ k₂, es = before ++ e :: after →
    Run program (fallible schema.exec) k before k₁ → Step program (fallible schema.exec) k₁ e k₂ →
    Run program (fallible schema.exec) k₂ after k' →
    ∀ u row, updated e = some u → k₁.shared = some row → cond u row

/-- If an update respects `Keeps` exactly when it meets `cond`, then a run keeps the row
exactly when all of its updates meet `cond`. -/
theorem keepsThroughout_iff {cond : Update → Row → Prop} (hrefl : ∀ row, Keeps row row)
    (htrans : ∀ a b c, Keeps a b → Keeps b c → Keeps a c)
    (hset : ∀ u row, schema.applies u row = true → (Keeps row (schema.set u row) ↔ cond u row)) :
    KeepsThroughout program schema Keeps k es k' ↔
      UpdatesMeet program schema cond k es k' := by
  constructor
  · rintro h before e after k₁ k₂ rfl hbefore hstep hafter u row hu hrow
    have hkeeps := h before [e] after k₁ k₂ (by simp) hbefore (.single hstep) hafter
    rcases step_row hstep with ⟨hno, -⟩ | ⟨hno, -⟩ | ⟨u', row', hu', hrow', happlies, hset'⟩
    · rw [hno] at hu
      cases hu
    · rw [hno] at hu
      cases hu
    · obtain rfl := Option.some.inj (hu'.symm.trans hu)
      obtain rfl := Option.some.inj (hrow'.symm.trans hrow)
      obtain ⟨row'', hrow'', hkept⟩ := hkeeps row' hrow'
      obtain rfl := Option.some.inj (hset'.symm.trans hrow'')
      exact (hset u' row' happlies).1 hkept
  · rintro h before between after k₁ k₂ rfl hbefore hbetween hafter
    induction hbetween generalizing after with
    | refl => exact .refl hrefl _
    | @snoc between k₃ e k₂ hbetween hstep ih =>
      have hkeeps := ih (e :: after) (by simpa using h) ((Run.single hstep).append hafter)
      refine hkeeps.trans htrans ?_
      rcases step_row hstep with ⟨-, hsame⟩ | ⟨-, hnone, -⟩ | ⟨u, row, hu, hrow, happlies, hrow'⟩
      · rw [hsame]
        exact .refl hrefl _
      · intro row hrow
        rw [hnone] at hrow
        cases hrow
      · intro row₁ hrow₁
        obtain rfl : row = row₁ := Option.some.inj (hrow.symm.trans hrow₁)
        have hcond := h (before ++ between) e after k₃ k₂ (by simp) (hbefore.append hbetween)
          hstep hafter u row hu hrow
        exact ⟨_, hrow', (hset u row happlies).2 hcond⟩

end Runs

structure Column (schema : RowSchema Row Insert Update) (V : Type) where
  get : Row → Option V
  writes : Update → Option V
  get_set : ∀ u row, schema.applies u row = true →
    get (schema.set u row) = (writes u).or (get row)

namespace Column

variable {V Call α : Type} {schema : RowSchema Row Insert Update} (column : Column schema V)

/-- The value of the column stays once there is one. -/
def Kept (row row' : Row) : Prop := ∀ v, column.get row = some v → column.get row' = some v

/-- The column is null, or has this value. -/
def Admits (v : V) (row : Row) : Prop := column.get row = none ∨ column.get row = some v

variable (program : Call → Program (RowStatement Insert Update)
  (fun op => Except String (op.Value Row)) α)

/-- Before a call writes the column it has read a row that admits the value. -/
def Checked : Prop :=
  ∀ c l u v next, (program c).Leaves l (.call (.update u) next) → column.writes u = some v →
    ∃ existing, l = [⟨.select, .ok (some existing)⟩] ∧ column.Admits v existing

/-- No call writes the column after another value was written since its read. -/
def Unraced (es : List (RowEvent Row Insert Update Call α)) : Prop :=
  ∀ before p c existing between u r after v,
    es = before ++ .exec p c .select (.ok (some existing)) :: (between ++
      .exec p c (.update u) r :: after) →
    (∀ e ∈ between, e.process ≠ p) →
    updated (.exec p c (.update u) r : RowEvent Row Insert Update Call α) = some u →
    column.writes u = some v →
    ∀ e ∈ between, ∀ u' v', updated e = some u' → column.writes u' = some v' → v' = v

variable {column program}

theorem kept_set_iff {u : Update} {row : Row} (h : schema.applies u row = true) :
    column.Kept row (schema.set u row) ↔ ∀ v, column.writes u = some v → column.Admits v row := by
  unfold Kept
  rw [column.get_set u row h]
  cases hwrites : column.writes u with
  | none => simp
  | some w =>
    simp only [Option.some_or, Option.some.injEq, forall_eq', Admits]
    cases hget : column.get row with
    | none => simp
    | some v => simp [eq_comm]

variable {k k' : RowConfig Row Insert Update Call α}
variable {es : List (RowEvent Row Insert Update Call α)}

theorem keptThroughout_iff :
    KeepsThroughout program schema column.Kept k es k' ↔
      UpdatesMeet program schema (fun u row => ∀ v, column.writes u = some v → column.Admits v row)
        k es k' :=
  keepsThroughout_iff (fun _ _ => id) (fun _ _ _ hab hbc v h => hbc v (hab v h))
    fun _ _ h => kept_set_iff h

/-- A write of another value makes a stale update overwrite it. -/
theorem unraced_of_kept (h : Run program (fallible schema.exec) k es k')
    (hkept : KeepsThroughout program schema column.Kept k es k') : column.Unraced es := by
  rintro before p c existing between u r after v rfl - hu hv e he u' v' hu' hv'
  have hmeet := keptThroughout_iff.1 hkept
  obtain ⟨early, late, rfl⟩ := List.append_of_mem he
  have hes : before ++ .exec p c .select (.ok (some existing)) ::
        (early ++ e :: late ++ .exec p c (.update u) r :: after) =
      (before ++ .exec p c .select (.ok (some existing)) :: early) ++ e ::
        (late ++ .exec p c (.update u) r :: after) := by simp
  rw [hes] at h
  obtain ⟨k₁, k₂, hearly, hother, hlate⟩ := h.split_step
  obtain ⟨k₃, k₄, hbetween, hstep, hafter⟩ := hlate.split_step
  rcases step_row hother with ⟨hno, -⟩ | ⟨hno, -⟩ | ⟨u₁, row₁, hu₁, -, happlies, hrow₂⟩
  · rw [hno] at hu'
    cases hu'
  · rw [hno] at hu'
    cases hu'
  · obtain rfl := Option.some.inj (hu₁.symm.trans hu')
    have hget : column.get (schema.set u₁ row₁) = some v' := by
      rw [column.get_set u₁ row₁ happlies, hv', Option.some_or]
    obtain ⟨row₃, hrow₃, hstays⟩ := hkept
      (before ++ .exec p c .select (.ok (some existing)) :: early ++ [e]) late
      (.exec p c (.update u) r :: after) k₂ k₃ (by simp)
      (hearly.snoc hother) hbetween ((Run.single hstep).append hafter) _ hrow₂
    have hadmits := hmeet
      (before ++ .exec p c .select (.ok (some existing)) :: early ++ e :: late)
      (.exec p c (.update u) r) after k₃ k₄ (by simp)
      (hearly.append ((Run.single hother).append hbetween)) hstep hafter u row₃ hu hrow₃ v hv
    rcases hadmits with hnone | hsome
    · rw [hstays v' hget] at hnone
      cases hnone
    · exact Option.some.inj ((hstays v' hget).symm.trans hsome)

/-- A write that is not stale finds the row as its call has checked it. -/
theorem kept_of_unraced (hchecked : column.Checked program) (hidle : ∀ p, k.threads p = none)
    (hunraced : column.Unraced es) : KeepsThroughout program schema column.Kept k es k' := by
  rw [keptThroughout_iff]
  rintro before e after k₁ k₂ rfl hbefore hstep - u row hu hrow v hv
  cases hstep with
  | @exec p c op next r s' at_call outcome =>
    cases op with
    | update u₁ =>
      have hu₁ : u₁ = u := by
        cases r with
        | ok n =>
          simp only [updated] at hu
          split_ifs at hu
          exact Option.some.inj hu
        | error e => cases hu
      subst hu₁
      obtain ⟨start, since, rfl, hsince, hleaves⟩ := (hbefore.inside hidle at_call).history
      obtain ⟨existing, hanswers, hadmits⟩ := hchecked c _ _ v _ hleaves hv
      obtain ⟨first, between, rfl, -, hrest⟩ := hsince.answers_cons hanswers
      have hothers : ∀ e ∈ between, e.process ≠ p :=
        Uninterrupted.answers_nil (fun e he => hsince e (by simp [he])) hrest
      have hown := hunraced (start ++ .invoke p c :: first) p c existing between u₁ r after v
        (by simp) hothers hu hv
      rw [← List.cons_append, ← List.append_assoc] at hbefore
      obtain ⟨k₃, k₄, -, hread, hbetween⟩ := hbefore.split_step
      obtain ⟨hexisting, hsame⟩ := step_select hread
      obtain ⟨row', hrow', hstill⟩ := run_row (P := column.Admits v) hbetween
        (fun e he u' row' hu' happlies hrow' => by
          unfold Admits
          rw [column.get_set u' row' happlies]
          cases hwrites : column.writes u' with
          | none => exact hrow'
          | some v' =>
            rw [hown e he u' v' hu' hwrites]
            exact Or.inr rfl)
        (hsame.trans hexisting.symm) hadmits
      obtain rfl := Option.some.inj (hrow'.symm.trans hrow)
      exact hstill
    | select => cases hu
    | insert i => cases hu
  | invoke => cases hu
  | response => cases hu
  | crash => cases hu

theorem keptThroughout_iff_unraced (hchecked : column.Checked program)
    (h : Run program (fallible schema.exec) k es k') (hidle : ∀ p, k.threads p = none) :
    KeepsThroughout program schema column.Kept k es k' ↔ column.Unraced es :=
  ⟨unraced_of_kept h, kept_of_unraced hchecked hidle⟩

end Column

end Interleaving

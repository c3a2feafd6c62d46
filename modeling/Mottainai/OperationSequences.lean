import Mathlib.Data.List.Basic

/-!
# Sequences of operations

A system whose operations are carried out one after the other is a function from a state and an
operation to the next state. An invariant that a step keeps exactly under a condition holds of
every visited state exactly when every step meets the condition.
-/

namespace OperationSequences

variable {σ ω : Type} {apply : σ → ω → σ} {I J : σ → Prop} {P Q : σ → ω → Prop}
variable {s : σ} {ops : List ω}

/-- Every state that the sequence visits, from the first to the last, satisfies `I`. -/
def EachState (apply : σ → ω → σ) (I : σ → Prop) : σ → List ω → Prop
  | s, [] => I s
  | s, op :: ops => I s ∧ EachState apply I (apply s op) ops

/-- Every step of the sequence satisfies `P`, given the state before it. -/
def EachStep (apply : σ → ω → σ) (P : σ → ω → Prop) : σ → List ω → Prop
  | _, [] => True
  | s, op :: ops => P s op ∧ EachStep apply P (apply s op) ops

theorem EachState.first (h : EachState apply I s ops) : I s := by
  cases ops with
  | nil => exact h
  | cons op ops => exact h.1

theorem EachState.last (h : EachState apply I s ops) : I (ops.foldl apply s) := by
  induction ops generalizing s with
  | nil => exact h
  | cons op ops ih => exact ih h.2

theorem EachStep.mono (h : EachStep apply P s ops) (hI : EachState apply I s ops)
    (hPQ : ∀ s op, I s → P s op → Q s op) : EachStep apply Q s ops := by
  induction ops generalizing s with
  | nil => trivial
  | cons op ops ih => exact ⟨hPQ s op hI.1 h.1, ih h.2 hI.2⟩

theorem EachState.mono (h : EachState apply I s ops) (hIJ : ∀ s, I s → J s) :
    EachState apply J s ops := by
  induction ops generalizing s with
  | nil => exact hIJ s h
  | cons op ops ih => exact ⟨hIJ s h.1, ih h.2⟩

/-- If every step that meets the condition keeps the invariant, then a sequence of such
steps only visits states that satisfy it. -/
theorem EachStep.eachState (h : EachStep apply P s ops)
    (hstep : ∀ s op, I s → P s op → I (apply s op)) (hs : I s) : EachState apply I s ops := by
  induction ops generalizing s with
  | nil => exact hs
  | cons op ops ih => exact ⟨hs, ih h.2 (hstep s op hs h.1)⟩

theorem eachState_of_invariant (hstep : ∀ s op, I s → I (apply s op)) (hs : I s)
    (ops : List ω) : EachState apply I s ops := by
  induction ops generalizing s with
  | nil => exact hs
  | cons op ops ih => exact ⟨hs, ih (hstep s op hs)⟩

theorem EachState.eachStep (h : EachState apply I s ops) (hstep : ∀ s op, I s → P s op) :
    EachStep apply P s ops := by
  induction ops generalizing s with
  | nil => trivial
  | cons op ops ih => exact ⟨hstep s op h.1, ih h.2⟩

/-- If a step keeps the invariant exactly when it meets the condition, then the same is
true of the sequences; `Q` is what all of the steps satisfy anyway. -/
theorem eachState_iff_eachStep (hQ : EachStep apply Q s ops)
    (hstep : ∀ s op, I s → Q s op → (I (apply s op) ↔ P s op)) (hs : I s) :
    EachState apply I s ops ↔ EachStep apply P s ops := by
  induction ops generalizing s with
  | nil => exact ⟨fun _ => trivial, fun _ => hs⟩
  | cons op ops ih =>
    constructor
    · intro h
      have hnext := h.2.first
      exact ⟨(hstep s op hs hQ.1).1 hnext, (ih hQ.2 hnext).1 h.2⟩
    · intro h
      have hnext := (hstep s op hs hQ.1).2 h.1
      exact ⟨hs, (ih hQ.2 hnext).2 h.2⟩

/-- What every step respects holds from the first state to the last. -/
theorem foldl_relation {R : σ → σ → Prop} (hrefl : ∀ s, R s s)
    (htrans : ∀ a b c, R a b → R b c → R a c) (hstep : ∀ s op, R s (apply s op)) (s : σ)
    (ops : List ω) : R s (ops.foldl apply s) := by
  induction ops generalizing s with
  | nil => exact hrefl s
  | cons op ops ih => exact htrans _ _ _ (hstep s op) (ih _)

end OperationSequences

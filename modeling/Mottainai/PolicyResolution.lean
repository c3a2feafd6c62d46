import Mathlib.Data.List.Induction
import Mottainai.KeyedLists

/-!
# Resolution of workflow policy rules

A rule of the workflow policy is set by several authorities. The sources are passed in the order of
their authorities; one that does not weaken the rule in force replaces it, and one that weakens it
does so under the conditions of `resolveRule`. What is let in after a source in mode `enforce` is
read from the modes, the authorities and the approvals of the sources alone.
-/

namespace Mottainai.WorkflowPolicy

section Sources

inductive RuleMode where
  | off | advisory | confirm | enforce
  deriving DecidableEq

inductive PolicyAuthority where
  | builtIn | preset | userProfile | repository | invocation
  deriving DecidableEq

def authorityRank : PolicyAuthority → ℕ
  | .builtIn => 0
  | .preset => 1
  | .userProfile => 2
  | .repository => 3
  | .invocation => 4

/-- The strength of a mode; `confirm` is as strong as `enforce`. -/
def modeStrength : RuleMode → ℕ
  | .off => 0
  | .advisory => 1
  | .confirm => 2
  | .enforce => 2

inductive WeakeningPermission where
  | allowed | humanOnly | denied
  deriving DecidableEq

structure ConfirmationRecord where
  confirmedBy : String
  confirmedAt : String
  evidence : Option String
  deriving DecidableEq

structure ResolvedRule (Value : Type) where
  value : Value
  mode : RuleMode
  authority : PolicyAuthority
  weakening : WeakeningPermission
  confirmation : Option ConfirmationRecord
  deriving DecidableEq

structure PolicySource (Value : Type) where
  authority : PolicyAuthority
  value : Value
  mode : RuleMode
  humanApproval : Option ConfirmationRecord
  deriving DecidableEq

end Sources

section Resolution

variable {Value : Type}

/-- The sources in the order of their authorities, those of one authority as they were given. -/
def resolutionOrder (sources : List (PolicySource Value)) : List (PolicySource Value) :=
  sources.insertionSort fun left right => authorityRank left.authority ≤ authorityRank right.authority

/-- The rule as a source sets it. -/
def adopt (source : PolicySource Value) : ResolvedRule Value where
  value := source.value
  mode := source.mode
  authority := source.authority
  weakening := if source.mode = .enforce then .humanOnly else .allowed
  confirmation := source.humanApproval

/-- The rule in force once a source is passed. -/
def resolveSource (current : ResolvedRule Value) (source : PolicySource Value) :
    ResolvedRule Value :=
  if ¬ modeStrength source.mode < modeStrength current.mode then adopt source
  else if source.authority = .invocation then current
  else if current.weakening = .humanOnly ∧ source.humanApproval = none then current
  else if current.weakening = .denied then current
  else adopt source

/-- The rule in force once the sources so far are passed, if there is one. -/
def ruleAfter : List (PolicySource Value) → Option (ResolvedRule Value)
  | [] => none
  | first :: rest => some (rest.foldl resolveSource (adopt first))

def resolveRule (sources : List (PolicySource Value)) : Except String (ResolvedRule Value) :=
  match ruleAfter (resolutionOrder sources) with
  | none => .error "resolveRule requires at least one source"
  | some rule => .ok rule

end Resolution

open StableSorting

variable {Value : Type} {s t first : PolicySource Value}
variable {sources sources' l before after invoked : List (PolicySource Value)}

section Statement

/-- One list of sources and the list with sources of the invocation put in anywhere. -/
inductive InvocationsAdded : List (PolicySource Value) → List (PolicySource Value) → Prop where
  | nil : InvocationsAdded [] []
  | keep (source : PolicySource Value) {sources sources' : List (PolicySource Value)}
      (added : InvocationsAdded sources sources') :
      InvocationsAdded (source :: sources) (source :: sources')
  | add (source : PolicySource Value) (invocation : source.authority = .invocation)
      {sources sources' : List (PolicySource Value)} (added : InvocationsAdded sources sources') :
      InvocationsAdded sources (source :: sources')

/-- No sources of the invocation lower the strength of the resolved mode. -/
def NotLoweredByInvocations (sources : List (PolicySource Value)) : Prop :=
  ∀ sources', InvocationsAdded sources sources' → ∀ rule, resolveRule sources = .ok rule →
    ∃ rule', resolveRule sources' = .ok rule' ∧ modeStrength rule.mode ≤ modeStrength rule'.mode

/-- The source is in force once it is passed after those before it. -/
def InForce (passed : List (PolicySource Value)) (source : PolicySource Value) : Prop :=
  ruleAfter (passed ++ [source]) = some (adopt source)

/-- The source lowers the strength of the rule that those before it left. -/
def Weakens (passed : List (PolicySource Value)) (source : PolicySource Value) : Prop :=
  InForce passed source ∧
    ∃ rule, ruleAfter passed = some rule ∧ modeStrength source.mode < modeStrength rule.mode

/-- Where a source in mode `enforce` was in force, the resolved mode is `off` or `advisory` only if
a later source that carries an approval weakened the rule. -/
def WeakenedByApproval (sources : List (PolicySource Value)) : Prop :=
  ∀ rule, resolveRule sources = .ok rule → rule.mode = .off ∨ rule.mode = .advisory →
    ∀ passed source later, resolutionOrder sources = passed ++ source :: later →
      source.mode = .enforce → InForce passed source →
        ∃ between approved rest, later = between ++ approved :: rest ∧
          approved.humanApproval ≠ none ∧ Weakens (passed ++ source :: between) approved

/-- The source is in a mode below `confirm` and `enforce`. -/
def IsWeak (source : PolicySource Value) : Prop := modeStrength source.mode < 2

instance (source : PolicySource Value) : Decidable (IsWeak source) :=
  inferInstanceAs (Decidable (_ < _))

/-- The source carries an approval that the resolution reads. -/
def IsApproved (source : PolicySource Value) : Prop :=
  source.authority ≠ .invocation ∧ source.humanApproval ≠ none

/-- After the last source in mode `enforce` a source in mode `confirm` takes its place, and a weak
source that is not of the invocation comes after all those in mode `confirm`; an approved source
neither comes as a weak one between the two nor is weaker, later, than the source just before it. -/
def HasConfirmGap (order : List (PolicySource Value)) : Prop :=
  ∃ passed enforced between confirmed later,
    order = passed ++ enforced :: (between ++ confirmed :: later) ∧
    enforced.mode = .enforce ∧ confirmed.mode = .confirm ∧
    (∀ source ∈ between, IsWeak source ∧ ¬ IsApproved source) ∧
    (∀ source ∈ later, source.mode ≠ .enforce) ∧
    (∀ front previous source back, confirmed :: later = front ++ previous :: source :: back →
      IsApproved source → modeStrength previous.mode ≤ modeStrength source.mode) ∧
    ∃ front weak back, later = front ++ weak :: back ∧ IsWeak weak ∧
      weak.authority ≠ .invocation ∧ ∀ source ∈ back, IsWeak source

end Statement

section Passing

/-- A source is let in after the source in force. -/
def LetIn (current source : PolicySource Value) : Prop :=
  modeStrength current.mode ≤ modeStrength source.mode ∨
    source.authority ≠ .invocation ∧ (current.mode = .enforce → source.humanApproval ≠ none)

instance (current source : PolicySource Value) : Decidable (LetIn current source) :=
  inferInstanceAs (Decidable (_ ∨ _))

/-- The source in force once another is passed. -/
def pass (current source : PolicySource Value) : PolicySource Value :=
  if LetIn current source then source else current

theorem pass_of_letIn (h : LetIn s t) : pass s t = t := if_pos h

theorem pass_of_not_letIn (h : ¬ LetIn s t) : pass s t = s := if_neg h

theorem pass_cases (s t : PolicySource Value) : pass s t = t ∨ pass s t = s := by
  by_cases h : LetIn s t
  · exact .inl (pass_of_letIn h)
  · exact .inr (pass_of_not_letIn h)

theorem modeStrength_le_two (mode : RuleMode) : modeStrength mode ≤ 2 := by
  cases mode <;> decide

theorem not_isWeak_iff : ¬ IsWeak s ↔ s.mode = .confirm ∨ s.mode = .enforce := by
  unfold IsWeak
  cases s.mode <;> decide

theorem isWeak_iff : IsWeak s ↔ s.mode = .off ∨ s.mode = .advisory := by
  unfold IsWeak
  cases s.mode <;> decide

theorem letIn_of_not_isWeak (h : ¬ IsWeak t) : LetIn s t :=
  .inl ((modeStrength_le_two s.mode).trans (not_lt.mp h))

@[simp] theorem mode_adopt (s : PolicySource Value) : (adopt s).mode = s.mode := rfl

theorem resolveSource_adopt (s t : PolicySource Value) :
    resolveSource (adopt s) t = adopt (pass s t) := by
  have hdenied : (adopt s).weakening ≠ .denied := by
    unfold adopt
    split <;> simp
  have hhuman : (adopt s).weakening = .humanOnly ↔ s.mode = .enforce := by
    unfold adopt
    split <;> simp_all
  rw [resolveSource, mode_adopt]
  by_cases hlower : modeStrength t.mode < modeStrength s.mode
  · rw [if_neg (not_not.mpr hlower)]
    by_cases hinvocation : t.authority = .invocation
    · rw [if_pos hinvocation, pass_of_not_letIn]
      rintro (h | h)
      · exact absurd hlower (not_lt.mpr h)
      · exact h.1 hinvocation
    · rw [if_neg hinvocation, if_neg hdenied]
      by_cases hrefused : (adopt s).weakening = .humanOnly ∧ t.humanApproval = none
      · rw [if_pos hrefused, pass_of_not_letIn]
        rintro (h | h)
        · exact absurd hlower (not_lt.mpr h)
        · exact h.2 (hhuman.mp hrefused.1) hrefused.2
      · rw [if_neg hrefused, pass_of_letIn]
        exact .inr ⟨hinvocation, fun he hnone => hrefused ⟨hhuman.mpr he, hnone⟩⟩
  · rw [if_pos hlower, pass_of_letIn (.inl (not_lt.mp hlower))]

/-- The rule in force is the one that the source in force sets. -/
theorem foldl_resolveSource (l : List (PolicySource Value)) (s : PolicySource Value) :
    l.foldl resolveSource (adopt s) = adopt (l.foldl pass s) := by
  induction l generalizing s with
  | nil => rfl
  | cons t l ih => rw [List.foldl_cons, resolveSource_adopt, ih, List.foldl_cons]

theorem ruleAfter_cons (first : PolicySource Value) (l : List (PolicySource Value)) :
    ruleAfter (first :: l) = some (adopt (l.foldl pass first)) :=
  congrArg some (foldl_resolveSource l first)

theorem ruleAfter_append_cons (before after : List (PolicySource Value)) (s : PolicySource Value)
    (h : InForce before s) :
    ruleAfter (before ++ s :: after) = some (adopt (after.foldl pass s)) := by
  cases before with
  | nil => exact ruleAfter_cons s after
  | cons first before =>
    have hs : adopt ((before ++ [s]).foldl pass first) = adopt s :=
      Option.some.inj ((ruleAfter_cons first _).symm.trans h)
    have hsplit : before ++ s :: after = (before ++ [s]) ++ after := by simp
    rw [List.cons_append, hsplit]
    change some ((before ++ [s] ++ after).foldl resolveSource (adopt first)) = _
    rw [List.foldl_append, foldl_resolveSource, hs, foldl_resolveSource]

/-- A source in one of the strong modes is in force once it is passed. -/
theorem inForce_of_not_isWeak (before : List (PolicySource Value)) (h : ¬ IsWeak s) :
    InForce before s := by
  cases before with
  | nil => rfl
  | cons first before =>
    rw [InForce, List.cons_append, ruleAfter_cons, List.foldl_append, List.foldl_cons, List.foldl_nil,
      pass_of_letIn (letIn_of_not_isWeak h)]

/-- The source that is in force is the first or one of those that were passed. -/
theorem foldl_pass_mem (l : List (PolicySource Value)) (s : PolicySource Value) :
    l.foldl pass s = s ∨ l.foldl pass s ∈ l := by
  induction l generalizing s with
  | nil => exact .inl rfl
  | cons t l ih =>
    rw [List.foldl_cons]
    rcases ih (pass s t) with h | h
    · rcases pass_cases s t with ht | ht
      · exact .inr (List.mem_cons.mpr (.inl (h.trans ht)))
      · exact .inl (h.trans ht)
    · exact .inr (List.mem_cons_of_mem t h)

/-- Weak sources leave a weak source in force. -/
theorem isWeak_foldl (hs : IsWeak s) (h : ∀ t ∈ l, IsWeak t) : IsWeak (l.foldl pass s) := by
  rcases foldl_pass_mem l s with hl | hl
  · rwa [hl]
  · exact h _ hl

/-- What is not let in leaves the source in force as it is. -/
theorem foldl_pass_refused (h : ∀ t ∈ l, ¬ LetIn s t) : l.foldl pass s = s := by
  induction l with
  | nil => rfl
  | cons t l ih =>
    rw [List.foldl_cons, pass_of_not_letIn (h t List.mem_cons_self)]
    exact ih fun u hu => h u (List.mem_cons_of_mem t hu)

/-- Without a source in mode `enforce` all that are not of the invocation are let in. -/
theorem foldl_pass_last (hs : s.mode ≠ .enforce) (hmode : ∀ t ∈ l, t.mode ≠ .enforce)
    (hauthority : ∀ t ∈ l, t.authority ≠ .invocation) :
    l.foldl pass s = (s :: l).getLast (List.cons_ne_nil s l) := by
  induction l generalizing s with
  | nil => rfl
  | cons t l ih =>
    have ht : LetIn s t := .inr ⟨hauthority t List.mem_cons_self, fun he => absurd he hs⟩
    rw [List.foldl_cons, pass_of_letIn ht, List.getLast_cons (List.cons_ne_nil t l)]
    exact ih (hmode t List.mem_cons_self) (fun u hu => hmode u (List.mem_cons_of_mem t hu))
      fun u hu => hauthority u (List.mem_cons_of_mem t hu)

/-- A weak source is in force at the end only if one that is not of the invocation was passed after
all strong ones. -/
theorem weak_of_isWeak_foldl (hs : ¬ IsWeak s) (h : IsWeak (l.foldl pass s)) :
    ∃ front weak back, l = front ++ weak :: back ∧ IsWeak weak ∧ weak.authority ≠ .invocation ∧
      ∀ t ∈ back, IsWeak t := by
  induction l using List.reverseRecOn with
  | nil => exact absurd h hs
  | append_singleton l t ih =>
    have hsplit : (l ++ [t]).foldl pass s = pass (l.foldl pass s) t := by
      rw [List.foldl_append, List.foldl_cons, List.foldl_nil]
    rw [hsplit] at h
    have ht : IsWeak t := by
      by_contra hstrong
      rw [pass_of_letIn (letIn_of_not_isWeak hstrong)] at h
      exact hstrong h
    by_cases hauthority : t.authority = .invocation
    · have hweak : IsWeak (l.foldl pass s) := by
        by_cases hlet : LetIn (l.foldl pass s) t
        · rcases hlet with hle | hle
          · exact lt_of_le_of_lt hle ht
          · exact absurd hauthority hle.1
        · rwa [pass_of_not_letIn hlet] at h
      obtain ⟨front, weak, back, rfl, hweak, hnot, hback⟩ := ih hweak
      refine ⟨front, weak, back ++ [t], by simp, hweak, hnot, fun u hu => ?_⟩
      rcases List.mem_append.mp hu with hu | hu
      · exact hback u hu
      · rwa [List.mem_singleton.mp hu]
    · exact ⟨l, t, [], rfl, ht, hauthority, fun u hu => absurd hu List.not_mem_nil⟩

end Passing

section Order

variable {order : List (PolicySource Value)}

theorem pairwise_resolutionOrder (sources : List (PolicySource Value)) :
    (resolutionOrder sources).Pairwise fun left right =>
      authorityRank left.authority ≤ authorityRank right.authority := by
  have : Std.Total fun left right : PolicySource Value =>
      authorityRank left.authority ≤ authorityRank right.authority := ⟨fun _ _ => le_total _ _⟩
  have : IsTrans (PolicySource Value) fun left right =>
      authorityRank left.authority ≤ authorityRank right.authority := ⟨fun _ _ _ => le_trans⟩
  exact List.pairwise_insertionSort _ sources

theorem not_invocation_of_le {a b : PolicyAuthority} (h : authorityRank a ≤ authorityRank b)
    (hb : b ≠ .invocation) : a ≠ .invocation := by
  rintro rfl
  cases b <;> simp_all [authorityRank]

/-- The sources of the invocation come last. -/
theorem not_invocation_of_before (h : resolutionOrder sources = before ++ t :: after)
    (ht : t.authority ≠ .invocation) : ∀ u ∈ before, u.authority ≠ .invocation := by
  intro u hu
  have hpairwise := pairwise_resolutionOrder sources
  rw [h] at hpairwise
  exact not_invocation_of_le
    ((List.pairwise_append.mp hpairwise).2.2 u hu t List.mem_cons_self) ht

/-- The order is that of the other sources and, after them, that of the invocation's. -/
theorem resolutionOrder_split (sources : List (PolicySource Value)) :
    resolutionOrder sources =
      resolutionOrder (sources.filter (·.authority ≠ .invocation)) ++
        resolutionOrder (sources.filter (·.authority = .invocation)) := by
  have : Std.Total fun left right : PolicySource Value =>
      authorityRank left.authority ≤ authorityRank right.authority := ⟨fun _ _ => le_total _ _⟩
  have : IsTrans (PolicySource Value) fun left right =>
      authorityRank left.authority ≤ authorityRank right.authority := ⟨fun _ _ _ => le_trans⟩
  have hnegated : (fun source : PolicySource Value => !decide (source.authority ≠ .invocation)) =
      fun source => decide (source.authority = .invocation) := by
    funext source
    by_cases h : source.authority = .invocation <;> simp [h]
  have hsplit := eq_filter_append (fun source : PolicySource Value =>
      decide (source.authority ≠ .invocation)) (pairwise_resolutionOrder sources) (by
    intro b c hb hc hle
    exact not_invocation_of_le hle (of_decide_eq_true hc) (by simpa using hb))
  rw [hnegated] at hsplit
  rw [hsplit]
  unfold resolutionOrder
  rw [filter_insertionSort, filter_insertionSort]

theorem mem_resolutionOrder : t ∈ resolutionOrder sources ↔ t ∈ sources :=
  List.mem_insertionSort _

theorem ruleAfter_eq_none : ruleAfter l = none ↔ l = [] := by
  cases l <;> simp [ruleAfter]

theorem resolveRule_eq_ok {rule : ResolvedRule Value} :
    resolveRule sources = .ok rule ↔ ruleAfter (resolutionOrder sources) = some rule := by
  unfold resolveRule
  cases ruleAfter (resolutionOrder sources) <;> simp

end Order

section Invocations

theorem modeStrength_pass (s : PolicySource Value) (ht : t.authority = .invocation) :
    modeStrength (pass s t).mode = max (modeStrength s.mode) (modeStrength t.mode) := by
  by_cases h : modeStrength s.mode ≤ modeStrength t.mode
  · rw [pass_of_letIn (.inl h), max_eq_right h]
  · rw [pass_of_not_letIn, max_eq_left (not_le.mp h).le]
    rintro (hle | hle)
    · exact h hle
    · exact hle.1 ht

theorem modeStrength_foldl_le (k : ℕ) (s : PolicySource Value)
    (h : ∀ t ∈ l, t.authority = .invocation) :
    modeStrength (l.foldl pass s).mode ≤ k ↔
      modeStrength s.mode ≤ k ∧ ∀ t ∈ l, modeStrength t.mode ≤ k := by
  induction l generalizing s with
  | nil => simp
  | cons t l ih =>
    rw [List.foldl_cons, ih _ fun u hu => h u (List.mem_cons_of_mem t hu),
      modeStrength_pass s (h t List.mem_cons_self), Nat.max_le, List.forall_mem_cons, and_assoc]

theorem modeStrength_ruleAfter_le (k : ℕ) (before : List (PolicySource Value))
    (h : ∀ t ∈ invoked, t.authority = .invocation) {rule : ResolvedRule Value}
    (hrule : ruleAfter (before ++ invoked) = some rule) :
    modeStrength rule.mode ≤ k ↔
      (∀ given, ruleAfter before = some given → modeStrength given.mode ≤ k) ∧
        ∀ t ∈ invoked, modeStrength t.mode ≤ k := by
  cases before with
  | nil =>
    cases invoked with
    | nil => cases hrule
    | cons t invoked =>
      have heq : adopt (invoked.foldl pass t) = rule :=
        Option.some.inj ((ruleAfter_cons t invoked).symm.trans hrule)
      rw [← heq, mode_adopt,
        modeStrength_foldl_le k t fun u hu => h u (List.mem_cons_of_mem t hu),
        List.forall_mem_cons]
      simp [ruleAfter]
  | cons first before =>
    rw [List.cons_append, ruleAfter_cons, List.foldl_append] at hrule
    have heq := Option.some.inj hrule
    rw [← heq, mode_adopt, modeStrength_foldl_le k _ h, ruleAfter_cons]
    simp

theorem InvocationsAdded.filter_eq (h : InvocationsAdded sources sources') :
    sources.filter (·.authority ≠ .invocation) = sources'.filter (·.authority ≠ .invocation) := by
  induction h with
  | nil => rfl
  | keep source _ ih => rw [List.filter_cons, List.filter_cons, ih]
  | add source invocation _ ih => simpa [List.filter_cons, invocation] using ih

theorem InvocationsAdded.subset (h : InvocationsAdded sources sources') : sources ⊆ sources' := by
  induction h with
  | nil => exact List.Subset.refl []
  | keep source _ ih => exact List.cons_subset_cons source ih
  | add source _ _ ih => exact List.subset_cons_of_subset source ih

theorem notLoweredByInvocations (sources : List (PolicySource Value)) :
    NotLoweredByInvocations sources := by
  intro sources' hadded rule hrule
  have hinvoked : ∀ given : List (PolicySource Value),
      ∀ t ∈ resolutionOrder (given.filter (·.authority = .invocation)),
        t.authority = .invocation := by
    intro given t ht
    exact of_decide_eq_true (List.mem_filter.mp (mem_resolutionOrder.mp ht)).2
  rw [resolveRule_eq_ok] at hrule
  have hnonempty : ruleAfter (resolutionOrder sources') ≠ none := by
    rw [ne_eq, ruleAfter_eq_none]
    intro hnil
    have hsources : resolutionOrder sources = [] := by
      refine List.eq_nil_iff_forall_not_mem.mpr fun t ht => ?_
      have ht' := mem_resolutionOrder.mpr (hadded.subset (mem_resolutionOrder.mp ht))
      rw [hnil] at ht'
      exact List.not_mem_nil ht'
    rw [hsources] at hrule
    cases hrule
  obtain ⟨rule', hrule'⟩ := Option.ne_none_iff_exists'.mp hnonempty
  refine ⟨rule', resolveRule_eq_ok.mpr hrule', ?_⟩
  rw [resolutionOrder_split] at hrule hrule'
  have hle := (modeStrength_ruleAfter_le (modeStrength rule'.mode) _ (hinvoked sources')
    hrule').mp le_rfl
  rw [← hadded.filter_eq] at hle
  refine (modeStrength_ruleAfter_le _ _ (hinvoked sources) hrule).mpr ⟨hle.1, fun t ht => ?_⟩
  obtain ⟨hmem, hauthority⟩ := List.mem_filter.mp (mem_resolutionOrder.mp ht)
  exact hle.2 t (mem_resolutionOrder.mpr (List.mem_filter.mpr ⟨hadded.subset hmem, hauthority⟩))

end Invocations

section Gap

theorem exists_last {α : Type} {p : α → Prop} {l : List α} (h : ∃ a ∈ l, p a) :
    ∃ front a back, l = front ++ a :: back ∧ p a ∧ ∀ b ∈ back, ¬ p b := by
  induction l with
  | nil => obtain ⟨a, ha, -⟩ := h; exact absurd ha List.not_mem_nil
  | cons b l ih =>
    by_cases hl : ∃ a ∈ l, p a
    · obtain ⟨front, a, back, rfl, ha, hback⟩ := ih hl
      exact ⟨b :: front, a, back, rfl, ha, hback⟩
    · obtain ⟨a, ha, hpa⟩ := h
      rcases List.mem_cons.mp ha with rfl | ha
      · exact ⟨[], a, l, rfl, hpa, fun c hc hpc => hl ⟨c, hc, hpc⟩⟩
      · exact absurd ⟨a, ha, hpa⟩ hl

theorem exists_first {α : Type} {p : α → Prop} {l : List α} (h : ∃ a ∈ l, p a) :
    ∃ front a back, l = front ++ a :: back ∧ p a ∧ ∀ b ∈ front, ¬ p b := by
  obtain ⟨a, ha, hpa⟩ := h
  obtain ⟨front, c, back, hl, hc, hback⟩ := exists_last (l := l.reverse) ⟨a, List.mem_reverse.mpr ha, hpa⟩
  refine ⟨back.reverse, c, front.reverse, ?_, hc, fun b hb => hback b (List.mem_reverse.mp hb)⟩
  rw [← List.reverse_reverse l, hl]
  simp

variable {passed between later back : List (PolicySource Value)}
variable {enforced confirmed previous approved : PolicySource Value}

/-- A source weakens the rule where it is let in after a stronger one. -/
theorem weakens_iff (henforced : InForce passed enforced) :
    Weakens (passed ++ enforced :: between) t ↔
      LetIn (between.foldl pass enforced) t ∧
        modeStrength t.mode < modeStrength (between.foldl pass enforced).mode := by
  have hrule := ruleAfter_append_cons passed between enforced henforced
  have hnext := ruleAfter_append_cons passed (between ++ [t]) enforced henforced
  rw [List.foldl_append, List.foldl_cons, List.foldl_nil, ← List.cons_append,
    ← List.append_assoc] at hnext
  constructor
  · rintro ⟨hforce, rule, hbefore, hlower⟩
    rw [hrule] at hbefore
    rw [← Option.some.inj hbefore, mode_adopt] at hlower
    refine ⟨?_, hlower⟩
    by_contra hlet
    rw [InForce, hnext, pass_of_not_letIn hlet] at hforce
    have hmode := congrArg ResolvedRule.mode (Option.some.inj hforce)
    rw [mode_adopt, mode_adopt] at hmode
    rw [hmode] at hlower
    exact lt_irrefl _ hlower
  · rintro ⟨hlet, hlower⟩
    refine ⟨?_, _, hrule, hlower⟩
    rw [InForce, hnext, pass_of_letIn hlet]

theorem not_letIn_of_unapproved (henforced : enforced.mode = .enforce) (ht : IsWeak t)
    (happroved : ¬ IsApproved t) : ¬ LetIn enforced t := by
  rintro (h | h)
  · rw [henforced] at h
    exact absurd ht (not_lt.mpr h)
  · exact happroved ⟨h.1, h.2 henforced⟩

/-- Up to the first strong source after it, an enforcing source stays in force. -/
theorem foldl_between (henforced : enforced.mode = .enforce)
    (hbetween : ∀ t ∈ between, IsWeak t ∧ ¬ IsApproved t) (hconfirmed : ¬ IsWeak confirmed)
    (l : List (PolicySource Value)) :
    (between ++ confirmed :: l).foldl pass enforced = l.foldl pass confirmed := by
  have hrefused : ∀ t ∈ between, ¬ LetIn enforced t := fun t ht =>
    not_letIn_of_unapproved henforced (hbetween t ht).1 (hbetween t ht).2
  rw [List.foldl_append, foldl_pass_refused hrefused, List.foldl_cons,
    pass_of_letIn (letIn_of_not_isWeak hconfirmed)]

/-- After a confirming source the source just passed is in force. -/
theorem foldl_previous (hconfirmed : confirmed.mode = .confirm)
    (hsplit : confirmed :: l = before ++ [previous])
    (hmode : ∀ t ∈ l, t.mode ≠ .enforce)
    (hauthority : ∀ t ∈ l, t.authority ≠ .invocation) : l.foldl pass confirmed = previous := by
  have hlast := foldl_pass_last (s := confirmed) (by rw [hconfirmed]; decide) hmode hauthority
  rw [hlast]
  simp [hsplit]

/-- Before the first approved source an enforcing source stays in force against weak ones. -/
theorem not_isApproved_of_weak (henforced : enforced.mode = .enforce) (hweak : ∀ t ∈ l, IsWeak t)
    (h : ∀ between t rest, l = between ++ t :: rest → IsApproved t →
      ¬ (LetIn (between.foldl pass enforced) t ∧
        modeStrength t.mode < modeStrength (between.foldl pass enforced).mode)) :
    ∀ t ∈ l, ¬ IsApproved t := by
  induction l using List.reverseRecOn with
  | nil => exact fun t ht => absurd ht List.not_mem_nil
  | append_singleton l t ih =>
    have hl : ∀ u ∈ l, ¬ IsApproved u := by
      refine ih (fun u hu => hweak u (List.mem_append_left [t] hu)) fun between u rest heq => ?_
      exact h between u (rest ++ [t]) (by rw [heq]; simp)
    have hstays : l.foldl pass enforced = enforced := foldl_pass_refused fun u hu =>
      not_letIn_of_unapproved henforced (hweak u (List.mem_append_left [t] hu)) (hl u hu)
    intro u hu
    rcases List.mem_append.mp hu with hu | hu
    · exact hl u hu
    · rw [List.mem_singleton.mp hu]
      intro happroved
      refine h l t [] rfl happroved ?_
      rw [hstays]
      refine ⟨.inr ⟨happroved.1, fun _ => happroved.2⟩, ?_⟩
      rw [henforced]
      exact hweak t (List.mem_append_right l (List.mem_singleton.mpr rfl))

/-- A source that is approved and weakens the rule is one whose approval is read. -/
theorem isApproved_of_letIn (hlet : LetIn s t) (hlower : modeStrength t.mode < modeStrength s.mode)
    (happroval : t.humanApproval ≠ none) : IsApproved t := by
  rcases hlet with hle | hlet
  · exact absurd hlower (not_lt.mpr hle)
  · exact ⟨hlet.1, happroval⟩

theorem isWeak_of_gap (hmode : ∀ t ∈ later, t.mode ≠ .enforce) (hconfirmed : confirmed.mode = .confirm)
    (hlater : later = between ++ t :: back) (ht : IsWeak t) (hauthority : t.authority ≠ .invocation)
    (hback : ∀ u ∈ back, IsWeak u) : IsWeak (later.foldl pass confirmed) := by
  have hforce : (between.foldl pass confirmed).mode ≠ .enforce := by
    rcases foldl_pass_mem between confirmed with h | h
    · rw [h, hconfirmed]
      decide
    · refine hmode _ ?_
      rw [hlater]
      exact List.mem_append_left _ h
  rw [hlater, List.foldl_append, List.foldl_cons,
    pass_of_letIn (.inr ⟨hauthority, fun he => absurd he hforce⟩)]
  exact isWeak_foldl ht hback

theorem not_weakenedByApproval_of_gap (h : HasConfirmGap (resolutionOrder sources)) :
    ¬ WeakenedByApproval sources := by
  intro hweakened
  obtain ⟨passed, enforced, between, confirmed, later, horder, henforced, hconfirmed, hbetween,
    hmode, hprevious, front, weak, back, hlater, hweak, hauthority, hback⟩ := h
  have henforcedStrong : ¬ IsWeak enforced := not_isWeak_iff.mpr (.inr henforced)
  have hconfirmedStrong : ¬ IsWeak confirmed := not_isWeak_iff.mpr (.inl hconfirmed)
  have hforce : InForce passed enforced := inForce_of_not_isWeak passed henforcedStrong
  have hrule := ruleAfter_append_cons passed (between ++ confirmed :: later) enforced hforce
  rw [foldl_between henforced hbetween hconfirmedStrong, ← horder] at hrule
  have hfinal := isWeak_of_gap hmode hconfirmed hlater hweak hauthority hback
  obtain ⟨between', approved, rest, hsplit, happroval, hweakens⟩ :=
    hweakened _ (resolveRule_eq_ok.mpr hrule) (isWeak_iff.mp hfinal) passed enforced _ horder
      henforced hforce
  obtain ⟨hlet, hlower⟩ := (weakens_iff hforce).mp hweakens
  have happroved := isApproved_of_letIn hlet hlower happroval
  rcases List.append_eq_append_iff.mp hsplit with ⟨tail, hbetween', htail⟩ | ⟨tail, hbefore, htail⟩
  · -- the approved source is the confirming one, or a later one
    cases tail with
    | nil =>
      obtain ⟨rfl, -⟩ := List.cons.inj htail
      exact hconfirmedStrong (lt_of_lt_of_le hlower (modeStrength_le_two _))
    | cons c tail =>
      obtain ⟨rfl, hrest⟩ := List.cons.inj htail
      have hpassed : resolutionOrder sources =
          (passed ++ enforced :: between') ++ approved :: rest := by
        rw [horder, hsplit]
        simp
      have hnot := not_invocation_of_before hpassed happroved.1
      rw [hbetween', foldl_between henforced hbetween hconfirmedStrong] at hlower
      obtain ⟨before, previous, hlast⟩ :=
        (List.eq_nil_or_concat (confirmed :: tail)).resolve_left (List.cons_ne_nil confirmed tail)
      rw [List.concat_eq_append] at hlast
      rw [foldl_previous hconfirmed hlast] at hlower
      · refine absurd hlower (not_lt.mpr (hprevious before previous approved rest ?_ happroved))
        have hlater := congrArg (· ++ approved :: rest) hlast
        rw [hrest]
        simpa using hlater
      · exact fun t ht => hmode t (by rw [hrest]; exact List.mem_append_left _ ht)
      · intro t ht
        refine hnot t ?_
        rw [hbetween']
        simp [ht]
  · -- the approved source is one of those before the confirming one
    cases tail with
    | nil =>
      obtain ⟨rfl, -⟩ := List.cons.inj htail
      exact hconfirmedStrong (lt_of_lt_of_le hlower (modeStrength_le_two _))
    | cons c tail =>
      obtain ⟨rfl, -⟩ := List.cons.inj htail
      exact (hbetween approved (by rw [hbefore]; simp)).2 happroved

/-- After the last enforcing source a weak mode is reached without an approval through a confirming
source only. -/
theorem gap_of_last_enforced (horder : resolutionOrder sources = passed ++ enforced :: later)
    (henforced : enforced.mode = .enforce) (hmode : ∀ t ∈ later, t.mode ≠ .enforce)
    (hfinal : IsWeak (later.foldl pass enforced))
    (hnone : ∀ between approved rest, later = between ++ approved :: rest → IsApproved approved →
      ¬ (LetIn (between.foldl pass enforced) approved ∧
        modeStrength approved.mode < modeStrength (between.foldl pass enforced).mode)) :
    HasConfirmGap (resolutionOrder sources) := by
  have henforcedStrong : ¬ IsWeak enforced := not_isWeak_iff.mpr (.inr henforced)
  have hstrong : ∃ t ∈ later, ¬ IsWeak t := by
    by_contra hweak
    have hweak : ∀ t ∈ later, IsWeak t := fun t ht => by
      by_contra hstrong
      exact hweak ⟨t, ht, hstrong⟩
    have happroved := not_isApproved_of_weak henforced hweak hnone
    rw [foldl_pass_refused fun t ht =>
      not_letIn_of_unapproved henforced (hweak t ht) (happroved t ht)] at hfinal
    exact henforcedStrong hfinal
  obtain ⟨between, confirmed, rest, rfl, hconfirmedStrong, hbetween⟩ := exists_first hstrong
  have hconfirmed : confirmed.mode = .confirm :=
    (not_isWeak_iff.mp hconfirmedStrong).resolve_right
      (hmode confirmed (List.mem_append_right between List.mem_cons_self))
  have hweak : ∀ t ∈ between, IsWeak t := fun t ht => not_not.mp (hbetween t ht)
  have hunapproved : ∀ t ∈ between, ¬ IsApproved t :=
    not_isApproved_of_weak henforced hweak fun before t rest' heq =>
      hnone before t (rest' ++ confirmed :: rest) (by rw [heq]; simp)
  have hboth : ∀ t ∈ between, IsWeak t ∧ ¬ IsApproved t := fun t ht =>
    ⟨hweak t ht, hunapproved t ht⟩
  have hrest : ∀ t ∈ rest, t.mode ≠ .enforce := fun t ht =>
    hmode t (List.mem_append_right between (List.mem_cons_of_mem confirmed ht))
  rw [foldl_between henforced hboth hconfirmedStrong] at hfinal
  refine ⟨passed, enforced, between, confirmed, rest, horder, henforced, hconfirmed, hboth, hrest,
    ?_, weak_of_isWeak_foldl hconfirmedStrong hfinal⟩
  intro front previous source back hsplit happroved
  by_contra hlower
  have hlower := not_le.mp hlower
  -- what was passed before the source begins with the confirming source
  obtain ⟨tail, htail, hrestTail⟩ : ∃ tail, confirmed :: tail = front ++ [previous] ∧
      rest = tail ++ source :: back := by
    cases front with
    | nil =>
      obtain ⟨rfl, rfl⟩ := List.cons.inj hsplit
      exact ⟨[], rfl, rfl⟩
    | cons c front =>
      obtain ⟨rfl, rfl⟩ := List.cons.inj hsplit
      exact ⟨front ++ [previous], rfl, by simp⟩
  have hpassed : resolutionOrder sources =
      (passed ++ enforced :: (between ++ confirmed :: tail)) ++ source :: back := by
    rw [horder, hrestTail]
    simp
  have hnot := not_invocation_of_before hpassed happroved.1
  have hprevious : tail.foldl pass confirmed = previous := by
    refine foldl_previous hconfirmed htail (fun t ht => ?_) fun t ht => hnot t (by simp [ht])
    exact hrest t (by rw [hrestTail]; exact List.mem_append_left _ ht)
  have hmem : previous ∈ confirmed :: rest := by
    rw [hsplit]
    simp
  have hpreviousMode : previous.mode ≠ .enforce := by
    rcases List.mem_cons.mp hmem with rfl | hmem
    · rw [hconfirmed]
      decide
    · exact hrest previous hmem
  refine hnone (between ++ confirmed :: tail) source back (by rw [hrestTail]; simp) happroved ?_
  rw [foldl_between henforced hboth hconfirmedStrong, hprevious]
  exact ⟨.inr ⟨happroved.1, fun he => absurd he hpreviousMode⟩, hlower⟩

theorem gap_of_not_weakenedByApproval (h : ¬ WeakenedByApproval sources) :
    HasConfirmGap (resolutionOrder sources) := by
  simp only [WeakenedByApproval, not_forall, exists_prop] at h
  obtain ⟨rule, hrule, hfinal, passed, first, later, horder, hfirst, -, hnone⟩ := h
  obtain ⟨front, enforced, last, hlast, henforced, hmode⟩ :
      ∃ front enforced last, first :: later = front ++ enforced :: last ∧
        enforced.mode = .enforce ∧ ∀ t ∈ last, t.mode ≠ .enforce :=
    exists_last ⟨first, List.mem_cons_self, hfirst⟩
  have horderLast : resolutionOrder sources = (passed ++ front) ++ enforced :: last := by
    rw [horder, hlast, List.append_assoc]
  have hforce : InForce (passed ++ front) enforced :=
    inForce_of_not_isWeak _ (not_isWeak_iff.mpr (.inr henforced))
  refine gap_of_last_enforced horderLast henforced hmode ?_ ?_
  · rw [resolveRule_eq_ok, horderLast, ruleAfter_append_cons _ last enforced hforce] at hrule
    rw [← Option.some.inj hrule] at hfinal
    exact isWeak_iff.mpr hfinal
  · intro between approved rest hsplit happroved hweakens
    have hweakens := (weakens_iff hforce).mpr hweakens
    cases front with
    | nil =>
      obtain ⟨rfl, rfl⟩ := List.cons.inj hlast
      rw [List.append_nil] at hweakens
      exact hnone ⟨between, approved, rest, hsplit, happroved.2, hweakens⟩
    | cons c front =>
      obtain ⟨rfl, rfl⟩ := List.cons.inj hlast
      refine hnone ⟨front ++ enforced :: between, approved, rest, ?_, happroved.2, ?_⟩
      · rw [hsplit]
        simp
      · simpa using hweakens

/-- What weakens an enforced rule without an approval is a rule in mode `confirm` in its place. -/
theorem weakened_only_by_approval (sources : List (PolicySource Value)) :
    NotLoweredByInvocations sources ∧ WeakenedByApproval sources ↔
      ¬ HasConfirmGap (resolutionOrder sources) := by
  constructor
  · rintro ⟨-, hweakened⟩ hgap
    exact not_weakenedByApproval_of_gap hgap hweakened
  · intro hgap
    refine ⟨notLoweredByInvocations sources, ?_⟩
    by_contra hweakened
    exact hgap (gap_of_not_weakenedByApproval hweakened)

def confirmedAway : List (PolicySource RuleMode) := [
  { authority := .preset, value := .enforce, mode := .enforce, humanApproval := none },
  { authority := .userProfile, value := .confirm, mode := .confirm, humanApproval := none },
  { authority := .repository, value := .off, mode := .off, humanApproval := none }]

theorem confirmedAway_weakened :
    ¬ (NotLoweredByInvocations confirmedAway ∧ WeakenedByApproval confirmedAway) := by
  rintro ⟨-, h⟩
  refine not_weakenedByApproval_of_gap ⟨[], _, [], _, [_], rfl, rfl, rfl, ?_, ?_, ?_, ?_⟩ h
  · exact fun source hsource => absurd hsource List.not_mem_nil
  · simp
  · rintro front previous source back hsplit ⟨-, happroval⟩
    have hmem : source ∈ front ++ previous :: source :: back := by simp
    rw [← hsplit] at hmem
    have hnone : ∀ source ∈ confirmedAway, source.humanApproval = none := by decide
    exact absurd (hnone source (List.mem_cons_of_mem _ hmem)) happroval
  · refine ⟨[], _, [], rfl, ?_, ?_, fun source hsource => absurd hsource List.not_mem_nil⟩
    · decide
    · decide

end Gap

end Mottainai.WorkflowPolicy

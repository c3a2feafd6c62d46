import Mathlib.Data.List.Infix
import Mathlib.Data.List.Perm.Subperm
import Mathlib.Data.List.ProdSigma

/-!
# Words that two patterns have in common

A star of a pattern stands for any word, and every other token for one letter. A common word of two
patterns is looked for by a search through the pairs of what is left of them, breadth first and with
a list of the pairs that were visited.
-/

namespace WildcardPatterns

section Search

variable {V : Type} [DecidableEq V] (next : V → List V) (goal : V → Bool)

/-- Whether the search comes to a goal, if the fuel suffices for it to end. -/
def search : ℕ → List V → List V → Option Bool
  | _, [], _ => some false
  | 0, _ :: _, _ => none
  | fuel + 1, v :: queue, visited =>
      if v ∈ visited then search fuel queue visited
      else if goal v then some true
      else search fuel (queue ++ next v) (v :: visited)

def Leads : V → V → Prop := Relation.ReflTransGen fun v w => w ∈ next v

variable {next goal} {fuel k : ℕ} {queue visited : List V} {v w : V}

theorem leads_of_search (h : search next goal fuel queue visited = some true) :
    ∃ v ∈ queue, ∃ w, Leads next v w ∧ goal w = true := by
  fun_induction search next goal fuel queue visited with
  | case1 => cases h
  | case2 => cases h
  | case3 fuel v queue visited hseen ih =>
    obtain ⟨w, hw, hlead⟩ := ih h
    exact ⟨w, List.mem_cons_of_mem v hw, hlead⟩
  | case4 fuel v queue visited hseen hgoal =>
    exact ⟨v, List.mem_cons_self, v, .refl, hgoal⟩
  | case5 fuel v queue visited hseen hgoal ih =>
    obtain ⟨w, hw, x, hlead, hgoal⟩ := ih h
    rcases List.mem_append.1 hw with hw | hw
    · exact ⟨w, List.mem_cons_of_mem v hw, x, hlead, hgoal⟩
    · exact ⟨v, List.mem_cons_self, x, hlead.head hw, hgoal⟩

/-- What is visited leads to what is visited or in the queue, and is no goal. -/
theorem no_goal_of_search (h : search next goal fuel queue visited = some false)
    (hvisited : ∀ v ∈ visited, goal v = false ∧ next v ⊆ visited ++ queue)
    (hv : v ∈ visited ++ queue) (hlead : Leads next v w) : goal w = false := by
  fun_induction search next goal fuel queue visited with
  | case1 fuel visited =>
    rw [List.append_nil] at hv
    have hw : w ∈ visited := by
      induction hlead with
      | refl => exact hv
      | tail _ hnext ih => simpa using (hvisited _ ih).2 hnext
    exact (hvisited w hw).1
  | case2 => cases h
  | case3 fuel v queue visited hseen ih =>
    have hsubset : visited ++ v :: queue ⊆ visited ++ queue := by simp [hseen]
    exact ih h (fun w hw => ⟨(hvisited w hw).1, List.Subset.trans (hvisited w hw).2 hsubset⟩)
      (hsubset hv)
  | case4 => cases h
  | case5 fuel v queue visited hseen hgoal ih =>
    have hsubset : visited ++ v :: queue ⊆ (v :: visited) ++ (queue ++ next v) := by
      intro w hw
      simp only [List.mem_append, List.mem_cons] at hw ⊢
      tauto
    refine ih h (fun w hw => ?_) (hsubset hv)
    rcases List.mem_cons.1 hw with rfl | hw
    · exact ⟨Bool.eq_false_iff.2 hgoal, fun x hx => by simp [hx]⟩
    · exact ⟨(hvisited w hw).1, List.Subset.trans (hvisited w hw).2 hsubset⟩

/-- With enough fuel the search ends: each place is visited once, and leads to few others. -/
theorem search_ne_none (places : List V)
    (hnext : ∀ v ∈ places, next v ⊆ places ∧ (next v).length ≤ k)
    (hqueue : queue ⊆ places) (hvisited : visited ⊆ places) (hnodup : visited.Nodup)
    (hfuel : (k + 1) * (places.length - visited.length) + queue.length ≤ fuel) :
    search next goal fuel queue visited ≠ none := by
  fun_induction search next goal fuel queue visited with
  | case1 => simp
  | case2 => simp at hfuel
  | case3 fuel v queue visited hseen ih =>
    rw [List.length_cons] at hfuel
    exact ih (List.cons_subset.1 hqueue).2 hvisited hnodup (by omega)
  | case4 => simp
  | case5 fuel v queue visited hseen hgoal ih =>
    obtain ⟨hv, hqueue⟩ := List.cons_subset.1 hqueue
    have hnodup' := List.nodup_cons.2 ⟨hseen, hnodup⟩
    have hvisited' := List.cons_subset.2 ⟨hv, hvisited⟩
    obtain ⟨d, hd⟩ := Nat.exists_eq_add_of_le (hnodup'.subperm hvisited').length_le
    have hbranches := (hnext v hv).2
    refine ih (List.append_subset.2 ⟨hqueue, (hnext v hv).1⟩) hvisited' hnodup' ?_
    rw [List.length_cons] at hd hfuel ⊢
    rw [show places.length - visited.length = d + 1 by omega, Nat.mul_succ] at hfuel
    rw [show places.length - (visited.length + 1) = d by omega, List.length_append]
    omega

theorem search_eq_true_iff (hended : search next goal fuel [v] [] ≠ none) :
    search next goal fuel [v] [] = some true ↔ ∃ w, Leads next v w ∧ goal w = true := by
  constructor
  · intro h
    obtain ⟨w, hw, hlead⟩ := leads_of_search h
    exact List.mem_singleton.1 hw ▸ hlead
  · rintro ⟨w, hlead, hgoal⟩
    obtain ⟨found, hfound⟩ := Option.ne_none_iff_exists'.1 hended
    cases found with
    | true => exact hfound
    | false =>
      rw [no_goal_of_search hfound (by simp) (by simp) hlead] at hgoal
      cases hgoal

end Search

section Patterns

/-- What is left of two patterns, and whether a letter was consumed. -/
abbrev Rest (T : Type) : Type := List T × List T × Bool

variable {T A : Type} (star : T) (fits : T → A → Prop) (compatible : T → T → Prop)

/-- The words of a pattern. -/
inductive Matches : List T → List A → Prop where
  | nil : Matches [] []
  | skip {p x} : Matches p x → Matches (star :: p) x
  | absorb {p a x} : fits star a → Matches (star :: p) x → Matches (star :: p) (a :: x)
  | one {t p a x} : t ≠ star → fits t a → Matches p x → Matches (t :: p) (a :: x)

/-- What a step may leave of two patterns. -/
inductive Move : Rest T → Rest T → Prop where
  | stay {p q b c} : Move (p, q, b) (p, q, c)
  | skipLeft {p q b c} : Move (star :: p, q, b) (p, q, c)
  | skipRight {p q b c} : Move (p, star :: q, b) (p, q, c)
  | absorbLeft {u p q b c} : Move (star :: p, u :: q, b) (star :: p, q, c)
  | absorbRight {t p q b c} : Move (t :: p, star :: q, b) (p, star :: q, c)
  | both {t u p q b c} : compatible t u → Move (t :: p, u :: q, b) (p, q, c)

/-- A search that goes through two patterns. Every good token stands for some letter. -/
structure Explores (good : T → Prop) (next : Rest T → List (Rest T)) : Prop where
  fits_star {t a} : fits t a → fits star a
  exists_letter {t} : good t → ∃ a, fits t a
  exists_common {t u} : good t → good u → compatible t u → ∃ a, fits t a ∧ fits u a
  move {v w} : w ∈ next v → Move star compatible v w
  length_le v : (next v).length ≤ 5
  skipLeft p q c : (p, q, c) ∈ next (star :: p, q, c)
  skipRight p q c : (p, q, c) ∈ next (p, star :: q, c)
  absorbLeft {u} p q c : u ≠ star → (star :: p, q, true) ∈ next (star :: p, u :: q, c)
  absorbRight {t} p q c : t ≠ star → (p, star :: q, true) ∈ next (t :: p, star :: q, c)
  both {t u a} p q c : t ≠ star → u ≠ star → fits t a → fits u a →
    (p, q, true) ∈ next (t :: p, u :: q, c)
  stars {p q} c : Leads next (star :: p, star :: q, true) ([], [], true) →
    Leads next (star :: p, star :: q, c) ([], [], true)

variable {star fits compatible} {good : T → Prop} {next : Rest T → List (Rest T)} {t : T} {a : A}
  {p q : List T} {x : List A} {v w : Rest T} {c : Bool}

theorem Matches.cons (ht : fits t a) (h : Matches star fits p x) :
    Matches star fits (t :: p) (a :: x) := by
  by_cases hstar : t = star
  · subst hstar
    exact .absorb ht (.skip h)
  · exact .one hstar ht h

theorem Move.suffix (h : Move star compatible v w) : w.1 <:+ v.1 ∧ w.2.1 <:+ v.2.1 := by
  cases h <;> simp

theorem common_of_leads (h : Explores star fits compatible good next)
    (hleft : ∀ t ∈ v.1, good t) (hright : ∀ t ∈ v.2.1, good t)
    (hlead : Leads next v ([], [], true)) :
    ∃ x, Matches star fits v.1 x ∧ Matches star fits v.2.1 x := by
  induction hlead using Relation.ReflTransGen.head_induction_on with
  | refl => exact ⟨[], .nil, .nil⟩
  | head hnext _ ih =>
    have hmove := h.move hnext
    obtain ⟨x, hx, hx'⟩ := ih (fun t ht => hleft t (hmove.suffix.1.subset ht))
      fun t ht => hright t (hmove.suffix.2.subset ht)
    cases hmove with
    | stay => exact ⟨x, hx, hx'⟩
    | skipLeft => exact ⟨x, .skip hx, hx'⟩
    | skipRight => exact ⟨x, hx, .skip hx'⟩
    | absorbLeft =>
      obtain ⟨a, ha⟩ := h.exists_letter (hright _ List.mem_cons_self)
      exact ⟨a :: x, .absorb (h.fits_star ha) hx, .cons ha hx'⟩
    | absorbRight =>
      obtain ⟨a, ha⟩ := h.exists_letter (hleft _ List.mem_cons_self)
      exact ⟨a :: x, .cons ha hx, .absorb (h.fits_star ha) hx'⟩
    | both hcompatible =>
      obtain ⟨a, ht, hu⟩ := h.exists_common (hleft _ List.mem_cons_self)
        (hright _ List.mem_cons_self) hcompatible
      exact ⟨a :: x, .cons ht hx, .cons hu hx'⟩

/-- The induction is on how the left pattern matches, and inside on how the right one does. -/
theorem leads_of_common (h : Explores star fits compatible good next)
    (hp : Matches star fits p x) (hq : Matches star fits q x) (hc : c = true ∨ x ≠ []) :
    Leads next (p, q, c) ([], [], true) := by
  induction hp generalizing q c with
  | nil =>
    obtain rfl := hc.resolve_right (by simp)
    generalize hx : [] = x at hq
    induction hq with
    | nil => exact .refl
    | skip _ ih => exact (ih hx).head (h.skipRight _ _ _)
    | absorb => cases hx
    | one => cases hx
  | skip _ ih => exact (ih hq hc).head (h.skipLeft _ _ _)
  | @absorb p a x ha _ ih =>
    generalize hx : a :: x = y at hq
    induction hq with
    | nil => cases hx
    | skip _ ih' => exact (ih' hx).head (h.skipRight _ _ _)
    | absorb _ hq =>
      obtain ⟨rfl, rfl⟩ := List.cons.inj hx
      exact h.stars c (ih hq (.inl rfl))
    | one hu _ hq =>
      obtain ⟨rfl, rfl⟩ := List.cons.inj hx
      exact (ih hq (.inl rfl)).head (h.absorbLeft _ _ _ hu)
  | @one t p a x ht ha _ ih =>
    generalize hx : a :: x = y at hq
    induction hq with
    | nil => cases hx
    | skip _ ih' => exact (ih' hx).head (h.skipRight _ _ _)
    | absorb _ hq =>
      obtain ⟨rfl, rfl⟩ := List.cons.inj hx
      exact (ih hq (.inl rfl)).head (h.absorbRight _ _ _ ht)
    | one hu ha' hq =>
      obtain ⟨rfl, rfl⟩ := List.cons.inj hx
      exact (ih hq (.inl rfl)).head (h.both _ _ _ ht hu ha ha')

variable [DecidableEq T]

/-- Whether two patterns overlap. -/
def overlap (next : Rest T → List (Rest T)) (p q : List T) : Option Bool :=
  search next (fun v => v = ([], [], true)) (12 * ((p.length + 1) * (q.length + 1)) + 1)
    [(p, q, false)] []

theorem overlap_ne_none (h : Explores star fits compatible good next) (p q : List T) :
    overlap next p q ≠ none := by
  refine search_ne_none (p.tails ×ˢ q.tails ×ˢ [true, false])
    (fun ⟨l, r, b⟩ hv => ⟨fun ⟨l', r', b'⟩ hw => ?_, h.length_le _⟩) ?_ (List.nil_subset _)
    List.nodup_nil ?_
  · have hsuffix := (h.move hw).suffix
    simp only [List.mem_product, List.mem_tails] at hv ⊢
    exact ⟨hsuffix.1.trans hv.1, hsuffix.2.trans hv.2.1, by cases b' <;> simp⟩
  · simp
  · simp only [List.length_product, List.length_tails, List.length_cons, List.length_nil]
    rw [← Nat.mul_assoc]
    omega

theorem overlap_of_common (h : Explores star fits compatible good next)
    (hp : Matches star fits p x) (hq : Matches star fits q x) (hx : x ≠ []) :
    overlap next p q = some true :=
  (search_eq_true_iff (overlap_ne_none h p q)).2
    ⟨_, leads_of_common h hp hq (.inr hx), by simp⟩

/-- Patterns overlap if and only if they share a word that is not empty. If they share the empty
word they are stars only, and share every word of one letter. -/
theorem overlap_iff (h : Explores star fits compatible good next) (hp : p ≠ []) (hq : q ≠ [])
    (hleft : ∀ t ∈ p, good t) (hright : ∀ t ∈ q, good t) :
    overlap next p q = some true ↔
      ∃ x, x ≠ [] ∧ Matches star fits p x ∧ Matches star fits q x := by
  refine ⟨fun hfound => ?_, fun ⟨x, hx, hp, hq⟩ => overlap_of_common h hp hq hx⟩
  obtain ⟨w, hlead, hw⟩ := (search_eq_true_iff (overlap_ne_none h p q)).1 hfound
  rw [of_decide_eq_true hw] at hlead
  obtain ⟨x, hx, hx'⟩ := common_of_leads h hleft hright hlead
  cases x with
  | cons a x => exact ⟨a :: x, by simp, hx, hx'⟩
  | nil =>
    cases hx with
    | nil => exact absurd rfl hp
    | skip hx =>
      obtain ⟨a, ha⟩ := h.exists_letter (hleft _ List.mem_cons_self)
      cases hx' with
      | nil => exact absurd rfl hq
      | skip hx' => exact ⟨[a], by simp, .cons ha hx, .cons ha hx'⟩

end Patterns

end WildcardPatterns

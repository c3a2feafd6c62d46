import Mathlib.Data.List.Sort
import Mathlib.Data.List.Perm.Basic
import Mathlib.Data.List.Perm.Lattice

/-!
# Lists with keys

A sort by a total preorder keeps the order of the elements that compare as equal, so that what is
kept of a sorted list is the sorted list of what is kept. Two items of two lists are matched by a
key if each is the only one with this key in its list. A pass matches all of them and leaves the
others to the next pass, which has another key. Passes do not depend on which of the two lists is
called the left one, and they match every item once at most.
-/

namespace Mottainai.StableSorting

section Sorting

variable {α : Type} {r : α → α → Prop} {a : α} {l : List α}
variable (p : α → Bool)

/-- A sorted list whose kept elements are not after any other begins with them. -/
theorem eq_filter_append (hl : l.Pairwise r) (hp : ∀ b c, p b = false → p c = true → ¬ r b c) :
    l = l.filter p ++ l.filter (!p ·) := by
  induction l with
  | nil => rfl
  | cons b l ih =>
    obtain ⟨hb, hl⟩ := List.pairwise_cons.mp hl
    cases hpb : p b with
    | true => simpa [hpb] using ih hl
    | false =>
      have hnone : ∀ c ∈ l, p c = false := by
        intro c hc
        by_contra hpc
        exact hp b c hpb (by simpa using hpc) (hb c hc)
      have hempty : l.filter p = [] := List.filter_eq_nil_iff.mpr fun c hc => by simp [hnone c hc]
      have hall : l.filter (!p ·) = l := List.filter_eq_self.mpr fun c hc => by simp [hnone c hc]
      simp [hpb, hempty, hall]

variable [DecidableRel r]

/-- An element before all others is put in front of them. -/
theorem orderedInsert_of_forall_rel (h : ∀ b ∈ l, r a b) : l.orderedInsert r a = a :: l := by
  cases l with
  | nil => rfl
  | cons b l => exact List.orderedInsert_cons_of_le r l (h b List.mem_cons_self)

/-- What is kept of a sorted list after an element was put into it. -/
theorem filter_orderedInsert [IsTrans α r] (hl : l.Pairwise r) :
    (l.orderedInsert r a).filter p =
      if p a then (l.filter p).orderedInsert r a else l.filter p := by
  induction l with
  | nil => cases h : p a <;> simp [h]
  | cons b l ih =>
    obtain ⟨hb, hl⟩ := List.pairwise_cons.mp hl
    by_cases hab : r a b
    · have hfront : ∀ c ∈ (b :: l).filter p, r a c := by
        intro c hc
        rcases List.mem_cons.mp (List.mem_filter.mp hc).1 with rfl | hc
        · exact hab
        · exact IsTrans.trans a b c hab (hb c hc)
      rw [List.orderedInsert_cons_of_le r l hab, orderedInsert_of_forall_rel hfront,
        List.filter_cons]
    · rw [List.orderedInsert_of_not_le r l hab, List.filter_cons, ih hl, List.filter_cons]
      cases p a <;> cases p b <;> simp [hab]

theorem filter_insertionSort [Std.Total r] [IsTrans α r] (l : List α) :
    (l.insertionSort r).filter p = (l.filter p).insertionSort r := by
  induction l with
  | nil => rfl
  | cons a l ih =>
    rw [List.insertionSort_cons, filter_orderedInsert p (l.pairwise_insertionSort r), ih,
      List.filter_cons]
    cases p a <;> simp

/-- Where every element compares with the later ones alike, the relation does not matter. -/
theorem insertionSort_congr {s : α → α → Prop} [DecidableRel s]
    (h : l.Pairwise fun a b => r a b ↔ s a b) : l.insertionSort r = l.insertionSort s := by
  induction l with
  | nil => rfl
  | cons a l ih =>
    obtain ⟨ha, hl⟩ := List.pairwise_cons.mp h
    have hinsert : ∀ m : List α, m ⊆ l → m.orderedInsert r a = m.orderedInsert s a := by
      intro m hm
      induction m with
      | nil => rfl
      | cons b m ihm =>
        obtain ⟨hb, hm⟩ := List.cons_subset.mp hm
        rw [List.orderedInsert_cons, List.orderedInsert_cons, ihm hm]
        exact if_congr (ha b hb) rfl rfl
    rw [List.insertionSort_cons, List.insertionSort_cons, ih hl]
    exact hinsert _ fun b hb => (List.mem_insertionSort s).mp hb

end Sorting

end Mottainai.StableSorting

namespace Mottainai.KeyedMatching

section Matches

variable {α κ : Type} [DecidableEq κ] {key : α → κ} {left right items : List α} {a b l r : α}

def Only (key : α → κ) (items : List α) (a : α) : Prop := items.filter (key · = key a) = [a]

theorem Only.mem (h : Only key items a) : a ∈ items := by
  have hmem : a ∈ items.filter (key · = key a) := by
    rw [h]
    exact List.mem_singleton_self a
  exact List.mem_of_mem_filter hmem

theorem Only.eq (h : Only key items a) (hmem : b ∈ items) (hkey : key b = key a) : b = a := by
  have hfound : b ∈ items.filter (key · = key a) :=
    List.mem_filter.mpr ⟨hmem, decide_eq_true hkey⟩
  rw [h] at hfound
  exact List.mem_singleton.mp hfound

/-- Two items have the same key, which nothing else has. -/
structure Matches (key : α → κ) (left right : List α) (l r : α) : Prop where
  left : Only key left l
  right : Only key right r
  same : key l = key r

theorem Matches.swap (h : Matches key left right l r) : Matches key right left r l :=
  ⟨h.right, h.left, h.same.symm⟩

theorem Matches.right_eq {r' : α} (h : Matches key left right l r) (h' : Matches key left right l r') :
    r = r' :=
  h'.right.eq h.right.mem (h.same.symm.trans h'.same)

theorem matches_iff_filter :
    Matches key left right l r ↔ ∃ k, left.filter (key · = k) = [l] ∧ right.filter (key · = k) = [r] := by
  constructor
  · intro h
    refine ⟨key l, h.left, ?_⟩
    rw [h.same]
    exact h.right
  · rintro ⟨k, hleft, hright⟩
    have hkey : ∀ {items : List α} {a : α}, items.filter (key · = k) = [a] → key a = k := by
      intro items a hitems
      have hmem : a ∈ items.filter (key · = k) := by
        rw [hitems]
        exact List.mem_singleton_self a
      exact of_decide_eq_true (List.mem_filter.mp hmem).2
    refine ⟨?_, ?_, (hkey hleft).trans (hkey hright).symm⟩
    · rw [Only, hkey hleft]
      exact hleft
    · rw [Only, hkey hright]
      exact hright

end Matches

section Passes

variable {α ι κ : Type} [DecidableEq ι] [DecidableEq κ] {name : α → ι} {key : α → κ}
  {keys : List (α → κ)} {left right left' right' left'' right'' : List α} {pairs pairs' : List (α × α)}

def unmatched (name : α → ι) (matched items : List α) : List α :=
  items.filter (name · ∉ matched.map name)

theorem perm_append_unmatched {matched items : List α} (hnames : (items.map name).Nodup)
    (hmatched : matched.Nodup) (hsubset : ∀ a ∈ matched, a ∈ items) :
    items.Perm (matched ++ unmatched name matched items) := by
  have hin : matched.Perm (items.filter (name · ∈ matched.map name)) := by
    apply (List.perm_ext_iff_of_nodup hmatched (hnames.of_map.filter _)).mpr
    intro a
    rw [List.mem_filter, decide_eq_true_eq, List.mem_map]
    constructor
    · exact fun hmem => ⟨hsubset a hmem, a, hmem, rfl⟩
    · rintro ⟨hmem, b, hb, hname⟩
      rw [← List.inj_on_of_nodup_map hnames (hsubset b hb) hmem hname]
      exact hb
  have hsplit := List.filter_append_perm (fun a => decide (name a ∈ matched.map name)) items
  have hrest : items.filter (fun a => !decide (name a ∈ matched.map name)) =
      unmatched name matched items := by
    apply List.filter_congr
    intro a _
    exact (decide_not).symm
  rw [hrest] at hsplit
  exact hsplit.symm.trans (hin.symm.append_right _)

/-- A pass: what it matches, and what it leaves on both sides. -/
structure Pass (name : α → ι) (key : α → κ) (left right : List α) (pairs : List (α × α))
    (left' right' : List α) : Prop where
  nodup : pairs.Nodup
  mem : ∀ l r, (l, r) ∈ pairs ↔ Matches key left right l r
  left_eq : left' = unmatched name (pairs.map Prod.fst) left
  right_eq : right' = unmatched name (pairs.map Prod.snd) right

section

variable (h : Pass name key left right pairs left' right')
include h

theorem Pass.swap :
    Pass name key right left (pairs.map Prod.swap) right' left' where
  nodup := h.nodup.map Prod.swap_injective
  mem l r := by
    have hswap : (l, r) ∈ pairs.map Prod.swap ↔ (r, l) ∈ pairs := by
      rw [List.mem_map]
      constructor
      · rintro ⟨⟨x, y⟩, hmem, hxy⟩
        cases hxy
        exact hmem
      · exact fun hmem => ⟨(r, l), hmem, rfl⟩
    rw [hswap, h.mem]
    exact ⟨Matches.swap, Matches.swap⟩
  left_eq := by
    rw [h.right_eq, List.map_map]
    rfl
  right_eq := by
    rw [h.left_eq, List.map_map]
    rfl

/-- A pass matches every item once at most. -/
theorem Pass.nodup_left : (pairs.map Prod.fst).Nodup := by
  apply h.nodup.map_on
  rintro ⟨l, r⟩ hmem ⟨l', r'⟩ hmem' (rfl : l = l')
  rw [((h.mem l r).mp hmem).right_eq ((h.mem l r').mp hmem')]

theorem Pass.perm_left (hnames : (left.map name).Nodup) :
    left.Perm (pairs.map Prod.fst ++ left') := by
  rw [h.left_eq]
  apply perm_append_unmatched hnames h.nodup_left
  intro a hmem
  obtain ⟨⟨l, r⟩, hpair, rfl⟩ := List.mem_map.mp hmem
  exact ((h.mem l r).mp hpair).left.mem

theorem Pass.names_left (hnames : (left.map name).Nodup) : (left'.map name).Nodup := by
  rw [h.left_eq]
  exact hnames.sublist (List.filter_sublist.map name)

end

/-- What is left does not depend on the order in which the pairs are found. -/
theorem unmatched_congr {matched matched' items : List α} (h : matched.Perm matched') :
    unmatched name matched items = unmatched name matched' items := by
  apply List.filter_congr
  intro a _
  exact decide_eq_decide.mpr (not_congr (h.map name).mem_iff)

theorem Pass.functional {pairs' : List (α × α)} (h : Pass name key left right pairs left' right')
    (h' : Pass name key left right pairs' left'' right'') :
    pairs.Perm pairs' ∧ left' = left'' ∧ right' = right'' := by
  have hperm : pairs.Perm pairs' := by
    apply (List.perm_ext_iff_of_nodup h.nodup h'.nodup).mpr
    rintro ⟨l, r⟩
    rw [h.mem, h'.mem]
  refine ⟨hperm, ?_, ?_⟩
  · rw [h.left_eq, h'.left_eq, unmatched_congr (hperm.map Prod.fst)]
  · rw [h.right_eq, h'.right_eq, unmatched_congr (hperm.map Prod.snd)]

inductive Passes (name : α → ι) : List (α → κ) → List α → List α → List (α × α) → List α →
    List α → Prop where
  | nil (left right : List α) : Passes name [] left right [] left right
  | cons {key : α → κ} {keys : List (α → κ)} {left right left' right' left'' right'' : List α}
      {pairs pairs' : List (α × α)} : Pass name key left right pairs left' right' →
      Passes name keys left' right' pairs' left'' right'' →
      Passes name (key :: keys) left right (pairs ++ pairs') left'' right''

variable (h : Passes name keys left right pairs left' right')
include h

theorem Passes.swap : Passes name keys right left (pairs.map Prod.swap) right' left' := by
  induction h with
  | nil left right => exact .nil right left
  | cons hpass _ ih =>
    rw [List.map_append]
    exact .cons hpass.swap ih

theorem Passes.functional (h' : Passes name keys left right pairs' left'' right'') :
    pairs.Perm pairs' ∧ left' = left'' ∧ right' = right'' := by
  induction h generalizing pairs' left'' right'' with
  | nil left right =>
    cases h'
    exact ⟨.refl _, rfl, rfl⟩
  | cons hpass _ ih =>
    cases h' with
    | cons hpass' hrest' =>
      obtain ⟨hpairs, rfl, rfl⟩ := hpass.functional hpass'
      obtain ⟨hlater, hleft, hright⟩ := ih hrest'
      exact ⟨hpairs.append hlater, hleft, hright⟩

theorem Passes.perm_left (hnames : (left.map name).Nodup) :
    left.Perm (pairs.map Prod.fst ++ left') := by
  induction h with
  | nil left right => exact .refl _
  | cons hpass _ ih =>
    rw [List.map_append, List.append_assoc]
    exact (hpass.perm_left hnames).trans ((ih (hpass.names_left hnames)).append_left _)

end Passes

end Mottainai.KeyedMatching

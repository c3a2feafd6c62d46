import Mathlib.Data.List.Nodup
import Mathlib.Data.List.Infix
import Mathlib.Logic.Relation

/-!
# Tables with parent links

A table whose rows have a key and may name the key of a parent. When every parent was
inserted before its children the links form a forest, and the recursive query that starts
at a row and goes on to the children ends with exactly the row and its descendants.
-/

namespace ParentForest

variable {Row Id : Type} (key : Row → Id) (parent : Row → Option Id)
variable {rows : List Row} {a b : Id}

/-- `b` is the key of a row whose parent is `a`. -/
def Child (rows : List Row) (a b : Id) : Prop :=
  ∃ row ∈ rows, key row = b ∧ parent row = some a

/-- `b` is `a` or a descendant of it. -/
def Descends (rows : List Row) : Id → Id → Prop :=
  Relation.ReflTransGen (Child key parent rows)

/-- The keys identify the rows, every parent is a row, and no row descends from itself. -/
structure Forest (rows : List Row) : Prop where
  unique : (rows.map key).Nodup
  parent_mem : ∀ row ∈ rows, ∀ id, parent row = some id → id ∈ rows.map key
  acyclic : ∀ id, ¬ Relation.TransGen (Child key parent rows) id id

def Inherited (marked : Row → Prop) (rows : List Row) : Prop :=
  ∀ row ∈ rows, ∀ child ∈ rows, parent child = some (key row) → marked row → marked child

section Links

variable {key parent}

theorem child_map {set : Row → Row} (hkey : ∀ row, key (set row) = key row)
    (hparent : ∀ row, parent (set row) = parent row) :
    Child key parent (rows.map set) a b ↔ Child key parent rows a b := by
  simp [Child, hkey, hparent]

theorem Inherited.descends {marked : Row → Prop} (h : Inherited key parent marked rows)
    (hunique : (rows.map key).Nodup) {row row' : Row} (hrow : row ∈ rows) (hrow' : row' ∈ rows)
    (hdescends : Descends key parent rows (key row) (key row')) (hmarked : marked row) :
    marked row' := by
  suffices h' : ∀ b, Descends key parent rows (key row) b →
      ∀ row' ∈ rows, key row' = b → marked row' from h' _ hdescends row' hrow' rfl
  intro b hb
  induction hb with
  | refl =>
    intro row' hrow' hkey
    rw [List.inj_on_of_nodup_map hunique hrow' hrow hkey]
    exact hmarked
  | @tail b c hab hbc ih =>
    intro row' hrow' hkey
    obtain ⟨child, hchild, hc, hparent⟩ := hbc
    obtain rfl : child = row' :=
      List.inj_on_of_nodup_map hunique hchild hrow' (hc.trans hkey.symm)
    rcases Relation.ReflTransGen.cases_tail hab with heq | ⟨b', -, row₁, hrow₁, hb, -⟩
    · exact h row hrow child hchild (by rw [hparent, heq]) hmarked
    · exact h row₁ hrow₁ child hchild (by rw [hparent, hb]) (ih row₁ hrow₁ hb)

end Links

variable [DecidableEq Id]

/-- Every parent stands before its children. -/
structure ParentsFirst (rows : List Row) : Prop where
  unique : (rows.map key).Nodup
  before : ∀ row ∈ rows, ∀ id, parent row = some id →
    (rows.map key).idxOf id < (rows.map key).idxOf (key row)

def children (rows : List Row) (level : List Id) : List Id :=
  (rows.filter fun row => (parent row).any (· ∈ level)).map key

/-- The recursive query: the level, its children, their children, and so on, until a level
is empty. It does not end within the given number of levels when there is a cycle. -/
def descendants (rows : List Row) : ℕ → List Id → Option (List Id)
  | _, [] => some []
  | 0, _ :: _ => none
  | n + 1, a :: level =>
      (descendants rows n (children key parent rows (a :: level))).map ((a :: level) ++ ·)

variable {key parent}

theorem parentsFirst_nil : ParentsFirst key parent ([] : List Row) := ⟨by simp, by simp⟩

variable {level : List Id}

theorem mem_children :
    b ∈ children key parent rows level ↔ ∃ a ∈ level, Child key parent rows a b := by
  simp only [children, List.mem_map, List.mem_filter, Option.any_eq_true, decide_eq_true_eq]
  constructor
  · rintro ⟨row, ⟨hrow, a, hparent, ha⟩, hkey⟩
    exact ⟨a, ha, row, hrow, hkey, hparent⟩
  · rintro ⟨a, ha, row, hrow, hkey, hparent⟩
    exact ⟨row, ⟨hrow, a, hparent, ha⟩, hkey⟩

section

variable (h : ParentsFirst key parent rows)
include h

theorem ParentsFirst.map {set : Row → Row} (hkey : ∀ row, key (set row) = key row)
    (hparent : ∀ row, parent (set row) = parent row) : ParentsFirst key parent (rows.map set) := by
  have hkeys : (rows.map set).map key = rows.map key := by simp [Function.comp_def, hkey]
  refine ⟨hkeys ▸ h.unique, fun row hrow id hid => ?_⟩
  obtain ⟨row', hrow', rfl⟩ := List.mem_map.1 hrow
  rw [hkeys, hkey]
  exact h.before row' hrow' id (hparent row' ▸ hid)

/-- A new row goes last; its parent has to be there. -/
theorem ParentsFirst.append {row : Row} (hnew : key row ∉ rows.map key)
    (hparent : ∀ id, parent row = some id → id ∈ rows.map key) :
    ParentsFirst key parent (rows ++ [row]) := by
  have hkeys : (rows ++ [row]).map key = rows.map key ++ [key row] := by simp
  have hold : ∀ id ∈ rows.map key,
      (rows.map key ++ [key row]).idxOf id = (rows.map key).idxOf id :=
    fun id hid => List.idxOf_append_of_mem hid
  refine ⟨?_, fun row' hrow' id hid => ?_⟩
  · rw [hkeys]
    exact List.Nodup.append h.unique (by simp) (by simpa using hnew)
  · rw [hkeys]
    rcases List.mem_append.1 hrow' with hrow' | hrow'
    · have hlt := h.before row' hrow' id hid
      have hid' : id ∈ rows.map key :=
        List.idxOf_lt_length_iff.1 (hlt.trans_le List.idxOf_le_length)
      rw [hold id hid', hold (key row') (List.mem_map_of_mem hrow')]
      exact hlt
    · obtain rfl := List.mem_singleton.1 hrow'
      have hid' := hparent id hid
      rw [hold id hid', List.idxOf_append_of_notMem hnew]
      have hlt := List.idxOf_lt_length_iff.2 hid'
      omega

theorem ParentsFirst.parent_mem {row : Row} (hrow : row ∈ rows) {id : Id}
    (hid : parent row = some id) : id ∈ rows.map key :=
  List.idxOf_lt_length_iff.1 ((h.before row hrow id hid).trans_le List.idxOf_le_length)

theorem ParentsFirst.child_lt (hab : Child key parent rows a b) :
    (rows.map key).idxOf a < (rows.map key).idxOf b := by
  obtain ⟨row, hrow, rfl, hparent⟩ := hab
  exact h.before row hrow a hparent

theorem ParentsFirst.forest : Forest key parent rows := by
  refine ⟨h.unique, fun row hrow id => h.parent_mem hrow, fun id hcycle => ?_⟩
  have hlt : ∀ {a b}, Relation.TransGen (Child key parent rows) a b →
      (rows.map key).idxOf a < (rows.map key).idxOf b := by
    intro a b hab
    induction hab with
    | single hab => exact h.child_lt hab
    | tail _ hbc ih => exact ih.trans (h.child_lt hbc)
  exact lt_irrefl _ (hlt hcycle)

end

/-- The query finds the descendants of its first level and nothing else. -/
theorem mem_descendants {n : ℕ} {level ids : List Id}
    (h : descendants key parent rows n level = some ids) :
    b ∈ ids ↔ ∃ a ∈ level, Descends key parent rows a b := by
  induction n generalizing level ids with
  | zero =>
    cases level with
    | nil =>
      cases h
      simp
    | cons a level => cases h
  | succ n ih =>
    cases level with
    | nil =>
      cases h
      simp
    | cons a level =>
      obtain ⟨rest, hrest, rfl⟩ := Option.map_eq_some_iff.1 h
      rw [List.mem_append, ih hrest]
      constructor
      · rintro (hb | ⟨c, hc, hcb⟩)
        · exact ⟨b, hb, .refl⟩
        · obtain ⟨a', ha', hchild⟩ := mem_children.1 hc
          exact ⟨a', ha', .head hchild hcb⟩
      · rintro ⟨a', ha', hab⟩
        rcases Relation.ReflTransGen.cases_head hab with rfl | ⟨c, hchild, hcb⟩
        · exact Or.inl ha'
        · exact Or.inr ⟨c, mem_children.2 ⟨a', ha', hchild⟩, hcb⟩

/-- In a forest the query ends: the rows of the `k`-th level have at least `k` rows before
them. -/
theorem ParentsFirst.descendants_isSome (h : ParentsFirst key parent rows) {n k : ℕ}
    (hlevel : ∀ b ∈ level, k ≤ (rows.map key).idxOf b) (hn : rows.length + 1 ≤ n + k) :
    ∃ ids, descendants key parent rows n level = some ids := by
  induction n generalizing k level with
  | zero =>
    cases level with
    | nil => exact ⟨[], rfl⟩
    | cons a level =>
      have ha := hlevel a (by simp)
      have hle : (rows.map key).idxOf a ≤ (rows.map key).length := List.idxOf_le_length
      rw [List.length_map] at hle
      omega
  | succ n ih =>
    cases level with
    | nil => exact ⟨[], rfl⟩
    | cons a level =>
      have hnext : ∀ b ∈ children key parent rows (a :: level),
          k + 1 ≤ (rows.map key).idxOf b := by
        intro b hb
        obtain ⟨a', ha', hchild⟩ := mem_children.1 hb
        have hlt := h.child_lt hchild
        have hk := hlevel a' ha'
        omega
      obtain ⟨ids, hids⟩ := ih hnext (by omega)
      exact ⟨(a :: level) ++ ids, by simp [descendants, hids]⟩

end ParentForest

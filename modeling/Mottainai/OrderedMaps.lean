import Mathlib.Data.List.Nodup
import Mathlib.Data.List.Pairwise
import Mathlib.Algebra.GroupWithZero.Nat
import Mathlib.Algebra.Order.BigOperators.Group.List

/-!
# Tables, and maps that keep their order

A row of a table is found by its key, and an update that keeps the keys changes the rows where they
are. Rows may hold resources, and no two rows the same one. A map such as a JavaScript `Map`
enumerates its entries in the order in which their keys were added: setting a key that is there
changes its value where it is, and a key that is deleted and set again goes to the end.
-/

namespace TableRows

variable {Row Key Value : Type} [DecidableEq Key] {key : Row → Key} {rows : List Row}

theorem find?_eq_some_iff (h : (rows.map key).Nodup) {k : Key} {r : Row} :
    rows.find? (fun r => key r = k) = some r ↔ r ∈ rows ∧ key r = k := by
  constructor
  · intro hfind
    exact ⟨List.mem_of_find?_eq_some hfind, by simpa using List.find?_some hfind⟩
  · rintro ⟨hmem, rfl⟩
    cases hfind : rows.find? (fun r' => key r' = key r) with
    | none => exact absurd (List.find?_eq_none.1 hfind r hmem) (by simp)
    | some r' =>
      have hmem' := List.mem_of_find?_eq_some hfind
      have hkey : key r' = key r := by simpa using List.find?_some hfind
      rw [List.inj_on_of_nodup_map h hmem' hmem hkey]

theorem find?_map {set : Row → Row} (hset : ∀ r, key (set r) = key r) (k : Key) :
    (rows.map set).find? (fun r => key r = k) = (rows.find? (fun r => key r = k)).map set := by
  rw [List.find?_map]
  congr 2
  funext r
  simp [hset]

/-- A unique index over the values that are not null. -/
theorem eq_of_nodup_filterMap {value : Row → Option Value}
    (h : (rows.filterMap value).Nodup) {a b : Row} (ha : a ∈ rows) (hb : b ∈ rows)
    (hvalue : value a = value b) (hsome : value a ≠ none) : a = b := by
  rw [List.Nodup, List.pairwise_filterMap] at h
  by_contra hab
  have hne : ∀ v, value a = some v → ∀ v', value b = some v' → v ≠ v' := by
    have hsymm : Std.Symm fun a b : Row =>
        ∀ v, value a = some v → ∀ v', value b = some v' → v ≠ v' :=
      ⟨fun a b h v hv v' hv' => (h v' hv' v hv).symm⟩
    exact h.forall ha hb hab
  obtain ⟨v, hv⟩ := Option.ne_none_iff_exists'.1 hsome
  exact hne v hv v (hvalue ▸ hv) rfl

end TableRows

namespace ExclusiveRows

variable {Row Key Resource : Type} {key : Row → Key} {resource : Row → Resource}
variable {held held' : Row → Prop} {rows : List Row}

/-- Rows that hold the same resource have the same key. -/
def Exclusive (key : Row → Key) (resource : Row → Resource) (held : Row → Prop)
    (rows : List Row) : Prop :=
  ∀ row ∈ rows, held row → ∀ other ∈ rows, held other → resource row = resource other →
    key row = key other

theorem exclusive_nil : Exclusive key resource held [] := by simp [Exclusive]

variable (h : Exclusive key resource held rows)
include h

/-- Rows that stop to hold their resource leave it to the others. -/
theorem Exclusive.mono (hheld : ∀ row ∈ rows, held' row → held row) :
    Exclusive key resource held' rows :=
  fun row hrow hh other hother hh' hsame =>
    h row hrow (hheld row hrow hh) other hother (hheld other hother hh') hsame

/-- Rows that hold a resource after a write have held it before. -/
theorem Exclusive.of_held {rows' : List Row} (hheld : ∀ row ∈ rows', held row → row ∈ rows) :
    Exclusive key resource held rows' :=
  fun row hrow hh other hother hh' hsame =>
    h row (hheld row hrow hh) hh other (hheld other hother hh') hh' hsame

/-- A new row may hold a resource that no other row holds. -/
theorem Exclusive.append {new : Row}
    (hfree : ∀ row ∈ rows, resource row = resource new → ¬ held row) :
    Exclusive key resource held (rows ++ [new]) := by
  intro row hrow hh other hother hh' hsame
  rcases List.mem_append.1 hrow with hold | hnew
  · rcases List.mem_append.1 hother with hold' | hnew'
    · exact h row hold hh other hold' hh' hsame
    · rw [List.mem_singleton.1 hnew'] at hsame
      exact absurd hh (hfree row hold hsame)
  · rw [List.mem_singleton.1 hnew] at hsame ⊢
    rcases List.mem_append.1 hother with hold' | hnew'
    · exact absurd hh' (hfree other hold' hsame.symm)
    · rw [List.mem_singleton.1 hnew']

/-- The rows after an update of the row with one key exclude each other exactly when the
updated row only holds a resource that no other row holds. -/
theorem Exclusive.update_iff [DecidableEq Key] {k : Key} {set : Row → Row}
    (hkey : ∀ row, key (set row) = key row) (hresource : ∀ row, resource (set row) = resource row) :
    Exclusive key resource held (rows.map fun row => if key row = k then set row else row) ↔
      ∀ own ∈ rows, key own = k → held (set own) →
        ∀ other ∈ rows, key other ≠ k → resource own = resource other → ¬ held other := by
  constructor
  · intro hafter own hown hk hh other hother hne hsame hh'
    have hown' : set own ∈ rows.map fun row => if key row = k then set row else row :=
      List.mem_map.2 ⟨own, hown, if_pos hk⟩
    have hother' : other ∈ rows.map fun row => if key row = k then set row else row :=
      List.mem_map.2 ⟨other, hother, if_neg hne⟩
    have hkeys := hafter _ hown' hh _ hother' hh' ((hresource own).trans hsame)
    rw [hkey, hk] at hkeys
    exact hne hkeys.symm
  · intro hfree
    unfold Exclusive
    simp only [List.forall_mem_map]
    intro row hrow hh other hother hh' hsame
    by_cases hk : key row = k
    · rw [if_pos hk] at hh hsame ⊢
      by_cases hk' : key other = k
      · rw [if_pos hk', hkey, hkey, hk, hk']
      · rw [if_neg hk'] at hh' hsame ⊢
        exact absurd hh' (hfree row hrow hk hh other hother hk' ((hresource row).symm.trans hsame))
    · rw [if_neg hk] at hh hsame ⊢
      by_cases hk' : key other = k
      · rw [if_pos hk'] at hh' hsame ⊢
        have hsame' : resource other = resource row := (hresource other).symm.trans hsame.symm
        exact absurd hh (hfree other hother hk' hh' row hrow hk hsame')
      · rw [if_neg hk'] at hh' hsame ⊢
        exact h row hrow hh other hother hh' hsame

end ExclusiveRows

namespace OrderedMaps

structure OrderedMap (Key Value : Type) where
  entries : List (Key × Value)
  nodup : (entries.map (·.1)).Nodup

namespace OrderedMap

variable {Key Value : Type} {m : OrderedMap Key Value} {k k' : Key} {v v' : Value}

theorem ext_entries {m m' : OrderedMap Key Value} (h : m.entries = m'.entries) : m = m' := by
  cases m
  cases m'
  congr

def empty : OrderedMap Key Value := ⟨[], List.nodup_nil⟩

def keys (m : OrderedMap Key Value) : List Key := m.entries.map (·.1)

def values (m : OrderedMap Key Value) : List Value := m.entries.map (·.2)

def size (m : OrderedMap Key Value) : ℕ := m.entries.length

def filter (m : OrderedMap Key Value) (p : Key × Value → Bool) : OrderedMap Key Value :=
  ⟨m.entries.filter p, m.nodup.sublist (List.filter_sublist.map _)⟩

def oldest (m : OrderedMap Key Value) : Option Key := m.keys.head?

theorem size_eq_zero_of_oldest (h : m.oldest = none) : m.size = 0 := by
  have hkeys : m.keys = [] := List.head?_eq_none_iff.mp h
  rw [size, ← List.length_map (·.1)]
  exact congrArg List.length hkeys

theorem mem_values : v ∈ m.values ↔ ∃ k, (k, v) ∈ m.entries := by
  rw [values, List.mem_map]
  constructor
  · rintro ⟨entry, hentry, rfl⟩
    exact ⟨entry.1, hentry⟩
  · rintro ⟨k, hentry⟩
    exact ⟨(k, v), hentry, rfl⟩

theorem mem_keys_of_oldest (h : m.oldest = some k) : k ∈ m.keys := List.mem_of_mem_head? h

variable [DecidableEq Key]

def get (m : OrderedMap Key Value) (k : Key) : Option Value :=
  (m.entries.find? fun e => e.1 = k).map (·.2)

def delete (m : OrderedMap Key Value) (k : Key) : OrderedMap Key Value :=
  m.filter fun e => e.1 ≠ k

def setEntries (entries : List (Key × Value)) (k : Key) (v : Value) : List (Key × Value) :=
  if k ∈ entries.map (·.1) then entries.map fun e => if e.1 = k then (k, v) else e
  else entries ++ [(k, v)]

variable {entries : List (Key × Value)} {key : Value → Key} {w : Value}

theorem keys_setEntries_of_mem (h : k ∈ entries.map (·.1)) :
    (setEntries entries k v).map (·.1) = entries.map (·.1) := by
  rw [setEntries, if_pos h, List.map_map]
  apply List.map_congr_left
  intro e _
  simp only [Function.comp_apply]
  split_ifs with hkey
  · exact hkey.symm
  · rfl

theorem setEntries_of_not_mem (h : k ∉ entries.map (·.1)) :
    setEntries entries k v = entries ++ [(k, v)] := if_neg h

theorem nodup_setEntries (h : (entries.map (·.1)).Nodup) (k : Key) (v : Value) :
    ((setEntries entries k v).map (·.1)).Nodup := by
  by_cases hmem : k ∈ entries.map (·.1)
  · rwa [keys_setEntries_of_mem hmem]
  · rw [setEntries_of_not_mem hmem, List.map_append, List.map_singleton, List.nodup_append]
    refine ⟨h, List.nodup_singleton k, ?_⟩
    intro a ha b hb hab
    obtain rfl : b = k := List.mem_singleton.mp hb
    rw [hab] at ha
    exact hmem ha

def set (m : OrderedMap Key Value) (k : Key) (v : Value) : OrderedMap Key Value :=
  ⟨setEntries m.entries k v, nodup_setEntries m.nodup k v⟩

theorem get_eq_some_iff : m.get k = some v ↔ (k, v) ∈ m.entries := by
  unfold get
  rw [Option.map_eq_some_iff]
  constructor
  · rintro ⟨e, hfind, rfl⟩
    obtain ⟨hmem, rfl⟩ := (TableRows.find?_eq_some_iff m.nodup).mp hfind
    exact hmem
  · intro hmem
    exact ⟨(k, v), (TableRows.find?_eq_some_iff m.nodup).mpr ⟨hmem, rfl⟩, rfl⟩

theorem get_eq_none_iff : m.get k = none ↔ k ∉ m.keys := by
  rw [Option.eq_none_iff_forall_not_mem]
  constructor
  · intro h hmem
    obtain ⟨e, he, rfl⟩ := List.mem_map.mp hmem
    exact h e.2 (get_eq_some_iff.mpr he)
  · intro h v hv
    exact h (List.mem_map_of_mem (get_eq_some_iff.mp hv))

theorem mem_keys_of_get (h : m.get k = some v) : k ∈ m.keys :=
  List.mem_map_of_mem (get_eq_some_iff.mp h)

@[simp] theorem get_empty : (empty : OrderedMap Key Value).get k = none := rfl

theorem get_filter_eq_some_iff {p : Key × Value → Bool} :
    (m.filter p).get k = some v ↔ m.get k = some v ∧ p (k, v) = true := by
  rw [get_eq_some_iff, get_eq_some_iff]
  exact List.mem_filter

@[simp] theorem get_delete_self : (m.delete k).get k = none := by
  rw [Option.eq_none_iff_forall_not_mem]
  intro v hv
  have hne := (get_filter_eq_some_iff.mp hv).2
  simp at hne

@[simp] theorem get_delete_of_ne (h : k' ≠ k) : (m.delete k).get k' = m.get k' := by
  apply Option.ext
  intro v
  have hiff : (m.delete k).get k' = some v ↔ m.get k' = some v ∧ decide (k' ≠ k) = true :=
    get_filter_eq_some_iff
  simpa [h] using hiff

theorem mem_entries_set {e : Key × Value} :
    e ∈ (m.set k v).entries ↔ e = (k, v) ∨ (e ∈ m.entries ∧ e.1 ≠ k) := by
  by_cases hmem : k ∈ m.keys
  · have hset : (m.set k v).entries = m.entries.map fun e => if e.1 = k then (k, v) else e :=
      if_pos hmem
    rw [hset, List.mem_map]
    constructor
    · rintro ⟨e', he', rfl⟩
      by_cases hkey : e'.1 = k
      · exact .inl (if_pos hkey)
      · rw [if_neg hkey]
        exact .inr ⟨he', hkey⟩
    · rintro (rfl | ⟨he, hne⟩)
      · obtain ⟨e', he', hkey⟩ := List.mem_map.mp hmem
        exact ⟨e', he', if_pos hkey⟩
      · exact ⟨e, he, if_neg hne⟩
  · have hset : (m.set k v).entries = m.entries ++ [(k, v)] := setEntries_of_not_mem hmem
    rw [hset, List.mem_append, List.mem_singleton]
    constructor
    · rintro (he | rfl)
      · exact .inr ⟨he, fun hkey => hmem (hkey ▸ List.mem_map_of_mem he)⟩
      · exact .inl rfl
    · rintro (rfl | ⟨he, _⟩)
      · exact .inr rfl
      · exact .inl he

@[simp] theorem get_set_self : (m.set k v).get k = some v :=
  get_eq_some_iff.mpr (mem_entries_set.mpr (.inl rfl))

@[simp] theorem get_set_of_ne (h : k' ≠ k) : (m.set k v).get k' = m.get k' := by
  apply Option.ext
  intro w
  rw [get_eq_some_iff, get_eq_some_iff, mem_entries_set]
  constructor
  · rintro (heq | ⟨hmem, _⟩)
    · exact absurd (congrArg Prod.fst heq) h
    · exact hmem
  · intro hmem
    exact .inr ⟨hmem, h⟩

theorem get_set_eq_some_iff :
    (m.set k v).get k' = some w ↔ (k' = k ∧ w = v) ∨ (k' ≠ k ∧ m.get k' = some w) := by
  by_cases h : k' = k
  · subst h
    simp [eq_comm]
  · simp [h]

theorem get_delete_eq_some_iff :
    (m.delete k).get k' = some v ↔ k' ≠ k ∧ m.get k' = some v := by
  by_cases h : k' = k
  · subst h
    simp
  · simp [h]

theorem size_set_of_mem (h : k ∈ m.keys) (v : Value) : (m.set k v).size = m.size := by
  have hkeys := congrArg List.length (keys_setEntries_of_mem (v := v) h)
  simpa [size, set] using hkeys

theorem size_set_of_not_mem (h : k ∉ m.keys) (v : Value) : (m.set k v).size = m.size + 1 := by
  have hentries : (m.set k v).entries = m.entries ++ [(k, v)] := setEntries_of_not_mem h
  simp [size, hentries]

theorem size_delete_le : (m.delete k).size ≤ m.size := List.length_filter_le _ _

theorem entries_perm (h : m.get k = some v) :
    m.entries.Perm ((k, v) :: (m.delete k).entries) := by
  obtain ⟨before, after, hsplit⟩ := List.append_of_mem (get_eq_some_iff.mp h)
  have hnodup := m.nodup
  rw [hsplit, List.map_append, List.map_cons, List.nodup_append] at hnodup
  obtain ⟨_, hafter, hdisjoint⟩ := hnodup
  have hbefore : ∀ e ∈ before, e.1 ≠ k := fun e he =>
    hdisjoint e.1 (List.mem_map_of_mem he) k List.mem_cons_self
  have hafter' : ∀ e ∈ after, e.1 ≠ k := by
    intro e he hkey
    have hmem : e.1 ∈ after.map (·.1) := List.mem_map_of_mem he
    rw [hkey] at hmem
    exact (List.nodup_cons.mp hafter).1 hmem
  have hdelete : (m.delete k).entries = before ++ after := by
    have hfilter : (m.delete k).entries = m.entries.filter fun e => e.1 ≠ k := rfl
    rw [hfilter, hsplit, List.filter_append, List.filter_cons_of_neg (by simp),
      List.filter_eq_self.mpr (by simpa using hbefore),
      List.filter_eq_self.mpr (by simpa using hafter')]
  rw [hdelete, hsplit]
  exact List.perm_middle

theorem size_delete (h : k ∈ m.keys) : (m.delete k).size + 1 = m.size := by
  obtain ⟨e, he, rfl⟩ := List.mem_map.mp h
  have hlength := (entries_perm (get_eq_some_iff.mpr he)).length_eq
  simpa [size] using hlength.symm

theorem set_perm (h : m.get k = some v) (v' : Value) :
    (m.set k v').entries.Perm ((k, v') :: (m.delete k).entries) := by
  have hperm := entries_perm (get_set_self : (m.set k v').get k = some v')
  have hdelete : ((m.set k v').delete k).entries = (m.delete k).entries := by
    have hset : (m.set k v').entries = m.entries.map fun e => if e.1 = k then (k, v') else e :=
      if_pos (mem_keys_of_get h)
    have hfilter : ((m.set k v').delete k).entries = (m.set k v').entries.filter fun e => e.1 ≠ k :=
      rfl
    have hfilter' : (m.delete k).entries = m.entries.filter fun e => e.1 ≠ k := rfl
    rw [hfilter, hfilter', hset, List.filter_map]
    have hcomp : ((fun e : Key × Value => decide (e.1 ≠ k)) ∘
        fun e => if e.1 = k then (k, v') else e) = fun e => decide (e.1 ≠ k) := by
      funext e
      by_cases hkey : e.1 = k
      · simp [hkey]
      · simp [hkey]
    rw [hcomp]
    conv_rhs => rw [← List.map_id (m.entries.filter _)]
    apply List.map_congr_left
    intro e he
    have hne : e.1 ≠ k := by simpa using (List.mem_filter.mp he).2
    exact if_neg hne
  rwa [hdelete] at hperm

theorem size_le_of_values {m : OrderedMap Key Value} {Other : Type} {m' : OrderedMap Value Other}
    [DecidableEq Value] (hmem : ∀ k v, m.get k = some v → v ∈ m'.keys)
    (hinj : ∀ k k' v, m.get k = some v → m.get k' = some v → k = k') : m.size ≤ m'.size := by
  have hnodup : (m.entries.map (·.2)).Nodup := by
    apply List.Nodup.map_on _ (List.Nodup.of_map _ m.nodup)
    rintro ⟨k, v⟩ hkv ⟨k', v'⟩ hkv' hvalue
    obtain rfl : v = v' := hvalue
    obtain rfl : k = k' :=
      hinj k k' v (get_eq_some_iff.mpr hkv) (get_eq_some_iff.mpr hkv')
    rfl
  have hsubset : m.entries.map (·.2) ⊆ m'.keys := by
    intro v hv
    obtain ⟨e, he, rfl⟩ := List.mem_map.mp hv
    exact hmem e.1 e.2 (get_eq_some_iff.mpr he)
  have hlength := (List.subperm_of_subset hnodup hsubset).length_le
  simpa [keys, size] using hlength

theorem foldl_set_entries (m : OrderedMap Key Value) :
    m.entries.foldl (fun m e => m.set e.1 e.2) empty = m := by
  have happend : ∀ (entries : List (Key × Value)) (before : OrderedMap Key Value),
      ((before.entries ++ entries).map (·.1)).Nodup →
      (entries.foldl (fun m e => m.set e.1 e.2) before).entries = before.entries ++ entries := by
    intro entries
    induction entries with
    | nil => simp
    | cons e entries ih =>
      intro before hnodup
      have hnew : e.1 ∉ before.entries.map (·.1) := by
        intro hmem
        rw [List.map_append, List.nodup_append] at hnodup
        exact hnodup.2.2 e.1 hmem e.1 (by simp) rfl
      have hset : (before.set e.1 e.2).entries = before.entries ++ [e] := setEntries_of_not_mem hnew
      rw [List.foldl_cons, ih _ (by simpa [hset] using hnodup), hset]
      simp
  exact ext_entries (happend m.entries empty (by simpa [empty] using m.nodup))

theorem mem_values_set_self : v ∈ (m.set k v).values :=
  mem_values.mpr ⟨k, mem_entries_set.mpr (Or.inl rfl)⟩

theorem of_mem_values_set (h : w ∈ (m.set k v).values) : w ∈ m.values ∨ w = v := by
  obtain ⟨k', hentry⟩ := mem_values.mp h
  rcases mem_entries_set.mp hentry with heq | ⟨hmem, -⟩
  · exact Or.inr (congrArg Prod.snd heq)
  · exact Or.inl (mem_values.mpr ⟨k', hmem⟩)

def Filed (key : Value → Key) (m : OrderedMap Key Value) : Prop :=
  ∀ entry ∈ m.entries, entry.1 = key entry.2

theorem Filed.set (h : Filed key m) (v : Value) : Filed key (m.set (key v) v) := by
  intro entry hentry
  rcases mem_entries_set.mp hentry with rfl | ⟨hmem, -⟩
  · rfl
  · exact h entry hmem

theorem Filed.read_set {α : Type} {read : Value → α}
    (hread : ∀ v w, key v = key w → read v = read w) (h : Filed key m) (v : Value) (a : α) :
    (∃ w ∈ (m.set (key v) v).values, read w = a) ↔
      (∃ w ∈ m.values, read w = a) ∨ read v = a := by
  constructor
  · rintro ⟨w, hw, rfl⟩
    rcases of_mem_values_set hw with hw | rfl
    · exact Or.inl ⟨w, hw, rfl⟩
    · exact Or.inr rfl
  · rintro (⟨w, hw, rfl⟩ | rfl)
    · obtain ⟨k, hentry⟩ := mem_values.mp hw
      by_cases hkey : k = key v
      · have hsame : read w = read v := hread w v ((h (k, w) hentry).symm.trans hkey)
        exact ⟨v, mem_values_set_self, hsame.symm⟩
      · exact ⟨w, mem_values.mpr ⟨k, mem_entries_set.mpr (Or.inr ⟨hentry, hkey⟩)⟩, rfl⟩
    · exact ⟨v, mem_values_set_self, rfl⟩

theorem Filed.read_foldl_set {α : Type} {read : Value → α}
    (hread : ∀ v w, key v = key w → read v = read w) (h : Filed key m) (values : List Value)
    (a : α) :
    (∃ w ∈ (values.foldl (fun m v => m.set (key v) v) m).values, read w = a) ↔
      (∃ w ∈ m.values, read w = a) ∨ ∃ w ∈ values, read w = a := by
  induction values generalizing m with
  | nil => simp
  | cons v values ih =>
    rw [List.foldl_cons, ih (h.set v), h.read_set hread v a, or_assoc]
    simp

theorem of_mem_values_foldl_set {values : List Value}
    (h : w ∈ (values.foldl (fun m v => m.set (key v) v) m).values) : w ∈ m.values ∨ w ∈ values := by
  induction values generalizing m with
  | nil => exact Or.inl h
  | cons v values ih =>
    rcases ih h with hold | hnew
    · rcases of_mem_values_set hold with hold | rfl
      · exact Or.inl hold
      · exact Or.inr List.mem_cons_self
    · exact Or.inr (List.mem_cons_of_mem v hnew)

end OrderedMap

section Totals

variable {Key Value : Type} [DecidableEq Key] {m : OrderedMap Key Value} {k : Key} {v v' : Value}

def OrderedMap.total (weight : Value → ℕ) (m : OrderedMap Key Value) : ℕ :=
  (m.entries.map fun e => weight e.2).sum

variable (weight : Value → ℕ)

theorem OrderedMap.total_delete (h : m.get k = some v) :
    (m.delete k).total weight + weight v = m.total weight := by
  have hsum := ((entries_perm h).map fun e => weight e.2).sum_eq
  simp only [List.map_cons, List.sum_cons] at hsum
  simp only [total]
  omega

theorem OrderedMap.total_set_of_get (h : m.get k = some v) (v' : Value) :
    (m.set k v').total weight + weight v = m.total weight + weight v' := by
  have hsum := ((set_perm h v').map fun e => weight e.2).sum_eq
  have hdelete := total_delete weight h
  simp only [List.map_cons, List.sum_cons] at hsum
  simp only [total] at hdelete ⊢
  omega

theorem OrderedMap.total_set_of_none (h : m.get k = none) (v : Value) :
    (m.set k v).total weight = m.total weight + weight v := by
  have hentries : (m.set k v).entries = m.entries ++ [(k, v)] :=
    setEntries_of_not_mem (get_eq_none_iff.mp h)
  simp [total, hentries]

end Totals

section Counts

variable {Key Value : Type} {m : OrderedMap Key Value} {k : Key} {v v' : Value}

/-- How many values satisfy a condition. -/
def OrderedMap.count (p : Value → Bool) (m : OrderedMap Key Value) : ℕ :=
  m.entries.countP fun e => p e.2

variable (p : Value → Bool)

@[simp] theorem OrderedMap.count_empty :
    (empty : OrderedMap Key Value).count p = 0 := rfl

theorem OrderedMap.count_add_count_not : m.count p + m.count (fun v => !p v) = m.size := by
  have hlength := List.length_eq_countP_add_countP (fun e : Key × Value => p e.2) (l := m.entries)
  simpa [count, size] using hlength.symm

variable [DecidableEq Key]

theorem OrderedMap.count_delete (h : m.get k = some v) :
    (m.delete k).count p + (if p v then 1 else 0) = m.count p := by
  have hcount := (entries_perm h).countP_eq fun e => p e.2
  rw [List.countP_cons] at hcount
  exact hcount.symm

theorem OrderedMap.count_set_of_get (h : m.get k = some v) (v' : Value) :
    (m.set k v').count p + (if p v then 1 else 0) = m.count p + (if p v' then 1 else 0) := by
  have hset : (m.set k v').count p = (m.delete k).count p + (if p v' then 1 else 0) := by
    have hcount := (set_perm h v').countP_eq fun e => p e.2
    rwa [List.countP_cons] at hcount
  have hdelete := count_delete p h
  omega

theorem OrderedMap.count_set_of_none (h : m.get k = none) (v : Value) :
    (m.set k v).count p = m.count p + (if p v then 1 else 0) := by
  have hentries : (m.set k v).entries = m.entries ++ [(k, v)] :=
    setEntries_of_not_mem (get_eq_none_iff.mp h)
  simp only [count, hentries, List.countP_append, List.countP_singleton]

theorem OrderedMap.count_congr {p q : Value → Bool} (h : ∀ k v, m.get k = some v → p v = q v) :
    m.count p = m.count q := by
  apply List.countP_congr
  intro e he
  rw [h e.1 e.2 (get_eq_some_iff.mpr he)]

end Counts

end OrderedMaps

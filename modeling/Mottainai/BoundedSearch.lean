import Mathlib.Data.List.Nodup
import Mathlib.Data.List.Perm.Subperm

/-!
# Depth-first search along bounded paths

A search that visits every vertex once, by the path on which it first comes to it, and does not go
on from a path of the bound's length. Vertices are told apart by their keys. What can be reached is
left out only behind a vertex that was entered at the bound although fewer steps lead to it, or that
was taken for another vertex with the same key.
-/

namespace BoundedSearch

/-- The visited vertices, with the paths by which the search came to them. -/
abbrev Log (V : Type) : Type := List (V × List V)

section Search

variable {V K : Type} (next : V → List V) (bound : ℕ) (key : V → K)

def visited (log : Log V) : List V := log.map Prod.fst

def seen (log : Log V) : List K := log.map fun entry => key entry.1

variable {log : Log V} {v : V} {entry : V × List V}

theorem mem_seen_of_visited (h : v ∈ visited log) : key v ∈ seen key log := by
  obtain ⟨entry, hentry, rfl⟩ := List.mem_map.1 h
  exact List.mem_map_of_mem hentry

variable {key} in
theorem mem_seen_iff (hkey : Function.Injective key) : key v ∈ seen key log ↔ v ∈ visited log := by
  refine ⟨fun h => ?_, mem_seen_of_visited key⟩
  obtain ⟨entry, hentry, heq⟩ := List.mem_map.1 h
  exact hkey heq ▸ List.mem_map_of_mem hentry

@[simp] theorem mem_visited : v ∈ visited log ↔ ∃ path, (v, path) ∈ log := by
  simp [visited]

/-- Some successor was left out, because its path would be too long. -/
def Cut (log : Log V) : Prop := ∃ entry ∈ log, bound ≤ entry.2.length ∧ next entry.1 ≠ []

variable {next bound} in
theorem cut_append_iff : Cut next bound (log ++ [entry]) ↔
    Cut next bound log ∨ bound ≤ entry.2.length ∧ next entry.1 ≠ [] := by
  constructor
  · rintro ⟨e, he, hcut⟩
    rcases List.mem_append.1 he with he | he
    · exact Or.inl ⟨e, he, hcut⟩
    · exact Or.inr (List.mem_singleton.1 he ▸ hcut)
  · rintro (⟨e, he, hcut⟩ | hcut)
    · exact ⟨e, List.mem_append_left _ he, hcut⟩
    · exact ⟨entry, List.mem_append_right _ (List.mem_singleton_self _), hcut⟩

theorem mem_visited_append : v ∈ visited (log ++ [entry]) ↔ v ∈ visited log ∨ v = entry.1 := by
  rw [visited, List.map_append, List.mem_append, List.map_singleton, List.mem_singleton, visited]

/-- What can be reached along the successors. -/
def Reachable : V → V → Prop := Relation.ReflTransGen fun v w => w ∈ next v

variable [DecidableEq K]

instance [DecidableEq V] (log : Log V) : Decidable (Cut next bound log) :=
  inferInstanceAs (Decidable (∃ entry ∈ log, bound ≤ entry.2.length ∧ next entry.1 ≠ []))

/-- Visit a vertex, and what follows it. The fuel is what is left of the bound. -/
def search : ℕ → V → List V → Log V → Log V
  | 0, _, _, log => log
  | fuel + 1, v, path, log =>
      if key v ∈ seen key log then log
      else (next v).foldl (fun log w =>
        if bound ≤ path.length then log else search fuel w (path ++ [w]) log) (log ++ [(v, path)])

end Search

section Steps

variable {V K : Type} [DecidableEq K] {next : V → List V} {bound fuel : ℕ} {key : V → K} {v w : V}
  {path : List V} {log : Log V}

theorem search_seen (h : key v ∈ seen key log) : search next bound key fuel v path log = log := by
  cases fuel with
  | zero => rfl
  | succ fuel => rw [search, if_pos h]

theorem search_bounded (h : key v ∉ seen key log) (hpath : bound ≤ path.length) :
    search next bound key (fuel + 1) v path log = log ++ [(v, path)] := by
  rw [search, if_neg h]
  simp only [if_pos hpath, List.foldl_fixed]

theorem search_step (h : key v ∉ seen key log) (hpath : path.length < bound) :
    search next bound key (fuel + 1) v path log =
      (next v).foldl (fun log w => search next bound key fuel w (path ++ [w]) log)
        (log ++ [(v, path)]) := by
  rw [search, if_neg h]
  simp only [if_neg (Nat.not_le.2 hpath)]

/-- A property of logs that holds before a search and is kept by each visit holds after it. -/
theorem search_induction {P : Log V → Prop} {Q : V → List V → Prop}
    (hvisit : ∀ v path log, Q v path → key v ∉ seen key log → P log → P (log ++ [(v, path)]))
    (hnext : ∀ v path w, Q v path → w ∈ next v → path.length < bound → Q w (path ++ [w]))
    (hQ : Q v path) (hP : P log) : P (search next bound key fuel v path log) := by
  induction fuel generalizing v path log with
  | zero => exact hP
  | succ fuel ih =>
    by_cases hmem : key v ∈ seen key log
    · rwa [search_seen hmem]
    have hlog := hvisit v path log hQ hmem hP
    rcases Nat.lt_or_ge path.length bound with hlt | hge
    · rw [search_step hmem hlt]
      have hQnext : ∀ w ∈ next v, Q w (path ++ [w]) := fun w hw => hnext v path w hQ hw hlt
      generalize log ++ [(v, path)] = log' at hlog
      generalize next v = targets at hQnext
      induction targets generalizing log' with
      | nil => exact hlog
      | cons w targets ihtargets =>
        rw [List.foldl_cons]
        exact ihtargets _ (ih (hQnext w List.mem_cons_self) hlog)
          fun w' hw' => hQnext w' (List.mem_cons_of_mem w hw')
    · rwa [search_bounded hmem hge]

theorem search_extends : log <+: search next bound key fuel v path log :=
  search_induction (P := fun log' => log <+: log') (Q := fun _ _ => True)
    (fun _ _ _ _ _ hlog => hlog.trans (List.prefix_append _ _)) (fun _ _ _ _ _ _ => trivial)
    trivial List.prefix_rfl

theorem visited_search (h : w ∈ visited log) : w ∈ visited (search next bound key fuel v path log) :=
  (search_extends.map Prod.fst).subset h

theorem seen_search {k : K} (h : k ∈ seen key log) :
    k ∈ seen key (search next bound key fuel v path log) :=
  (search_extends.map _).subset h

/-- The vertex itself is seen. -/
theorem mem_seen_search (hfuel : 0 < fuel) :
    key v ∈ seen key (search next bound key fuel v path log) := by
  obtain ⟨fuel, rfl⟩ := Nat.exists_eq_add_one_of_ne_zero (Nat.ne_of_gt hfuel)
  by_cases hmem : key v ∈ seen key log
  · rwa [search_seen hmem]
  have hself : key v ∈ seen key (log ++ [(v, path)]) := by simp [seen]
  rcases Nat.lt_or_ge path.length bound with hlt | hge
  · rw [search_step hmem hlt]
    generalize log ++ [(v, path)] = log' at hself
    generalize next v = targets
    induction targets generalizing log' with
    | nil => exact hself
    | cons w targets ih => exact ih _ (seen_search hself)
  · rwa [search_bounded hmem hge]

end Steps

section Reach

variable {V K : Type} [DecidableEq K] {next : V → List V} {bound fuel : ℕ} {key : V → K}
  {v w root : V} {path : List V} {log : Log V}

/-- Everything that is visited can be reached. -/
theorem reachable_of_visited (hv : Reachable next root v)
    (hlog : ∀ w ∈ visited log, Reachable next root w) :
    ∀ w ∈ visited (search next bound key fuel v path log), Reachable next root w := by
  refine search_induction (P := fun log => ∀ w ∈ visited log, Reachable next root w)
    (Q := fun v _ => Reachable next root v) ?_ ?_ hv hlog
  · intro v path log hv _ hlog w hw
    rw [visited, List.map_append, List.mem_append] at hw
    rcases hw with hw | hw
    · exact hlog w hw
    · rwa [List.mem_singleton.1 hw]
  · intro v path w hv hw _
    exact hv.tail hw

variable (next bound key) in
/-- The successors of a visited vertex are seen, or were left out. -/
def Finished (log : Log V) (entry : V × List V) : Prop :=
  bound ≤ entry.2.length ∨ ∀ w ∈ next entry.1, key w ∈ seen key log

theorem finished_search (hfuel : bound < path.length + fuel) :
    ∀ entry ∈ search next bound key fuel v path log, entry ∈ log ∨
      Finished next bound key (search next bound key fuel v path log) entry := by
  induction fuel generalizing v path log with
  | zero => exact fun entry hentry => Or.inl hentry
  | succ fuel ih =>
    by_cases hmem : key v ∈ seen key log
    · rw [search_seen hmem]
      exact fun entry hentry => Or.inl hentry
    rcases Nat.lt_or_ge path.length bound with hlt | hge
    · have hfuel' : ∀ w : V, bound < (path ++ [w]).length + fuel := by
        intro w
        rw [List.length_append, List.length_singleton]
        omega
      -- the entries that the loop over the first targets added are finished, and these visited
      have hloop : ∀ (targets : List V) (log' : Log V),
          (∀ entry ∈ targets.foldl (fun log w => search next bound key fuel w (path ++ [w]) log) log',
            entry ∈ log' ∨ Finished next bound key
              (targets.foldl (fun log w => search next bound key fuel w (path ++ [w]) log) log') entry) ∧
          (∀ k, (∃ w ∈ targets, key w = k) ∨ k ∈ seen key log' → k ∈ seen key
            (targets.foldl (fun log w => search next bound key fuel w (path ++ [w]) log) log')) := by
        intro targets
        induction targets with
        | nil => exact fun log' => ⟨fun entry hentry => Or.inl hentry, fun k hk => by simpa using hk⟩
        | cons target targets ihtargets =>
          intro log'
          rw [List.foldl_cons]
          obtain ⟨hfinished, hseen⟩ := ihtargets (search next bound key fuel target (path ++ [target]) log')
          refine ⟨fun entry hentry => ?_, fun k hk => ?_⟩
          · rcases hfinished entry hentry with hmid | hdone
            · rcases ih (hfuel' target) entry hmid with hold | hdone
              · exact Or.inl hold
              · exact Or.inr (hdone.imp id fun hnext w hw => hseen (key w) (Or.inr (hnext w hw)))
            · exact Or.inr hdone
          · rcases hk with ⟨w, hw, rfl⟩ | hk
            · rcases List.mem_cons.1 hw with rfl | hw
              · have hpos : 0 < fuel := by
                  have hbound := hfuel' w
                  rw [List.length_append, List.length_singleton] at hbound
                  omega
                exact hseen (key w) (Or.inr (mem_seen_search hpos))
              · exact hseen (key w) (Or.inl ⟨w, hw, rfl⟩)
            · exact hseen k (Or.inr (seen_search hk))
      rw [search_step hmem hlt]
      obtain ⟨hfinished, hseen⟩ := hloop (next v) (log ++ [(v, path)])
      intro entry hentry
      rcases hfinished entry hentry with hmid | hdone
      · rcases List.mem_append.1 hmid with hold | hself
        · exact Or.inl hold
        · rw [List.mem_singleton.1 hself]
          exact Or.inr (Or.inr fun w hw => hseen (key w) (Or.inl ⟨w, hw, rfl⟩))
      · exact Or.inr hdone
    · rw [search_bounded hmem hge]
      intro entry hentry
      rcases List.mem_append.1 hentry with hold | hself
      · exact Or.inl hold
      · rw [List.mem_singleton.1 hself]
        exact Or.inr (Or.inl hge)

/-- A search that left nothing out visits exactly what can be reached. -/
theorem visited_iff_reachable (hkey : Function.Injective key) (hfuel : bound < path.length + fuel)
    (hpath : path.length ≤ bound)
    (hcut : ¬ Cut next bound (search next bound key fuel v path [])) :
    w ∈ visited (search next bound key fuel v path []) ↔ Reachable next v w := by
  constructor
  · exact reachable_of_visited .refl (by simp [visited]) w
  · intro hreach
    induction hreach with
    | refl => exact (mem_seen_iff hkey).1 (mem_seen_search (by omega))
    | tail hreach hw ih =>
      obtain ⟨path', hmem⟩ := mem_visited.1 ih
      rcases finished_search hfuel _ hmem with hnil | hbound | hnext
      · cases hnil
      · exact absurd ⟨_, hmem, hbound, List.ne_nil_of_mem hw⟩ hcut
      · exact (mem_seen_iff hkey).1 (hnext _ hw)

end Reach

section Steps

variable {V : Type} {next : V → List V} {roots : List V} {v w : V} {k j : ℕ}

/-- So many steps lead from one of the roots to a vertex. -/
inductive ReachedIn (next : V → List V) (roots : List V) : ℕ → V → Prop where
  | root {v : V} : v ∈ roots → ReachedIn next roots 0 v
  | step {k : ℕ} {v w : V} : ReachedIn next roots k v → w ∈ next v → ReachedIn next roots (k + 1) w

/-- So many steps lead from one vertex to another. -/
inductive LeadsIn (next : V → List V) (v : V) : ℕ → V → Prop where
  | refl : LeadsIn next v 0 v
  | step {j : ℕ} {w x : V} : LeadsIn next v j w → x ∈ next w → LeadsIn next v (j + 1) x

theorem ReachedIn.trans (h : ReachedIn next roots k v) (h' : LeadsIn next v j w) :
    ReachedIn next roots (k + j) w := by
  induction h' with
  | refl => exact h
  | step _ hnext ih => exact ih.step hnext

end Steps

section Roots

variable {V K : Type} [DecidableEq K] {next : V → List V} {key : V → K} {roots : List V}
  {v : V} {log : Log V} {depth : ℕ}

def searchAll (next : V → List V) (key : V → K) (depth : ℕ) (roots : List V) (log : Log V) : Log V :=
  roots.foldl (fun log v => search next (depth + 1) key (depth + 1) v [v] log) log

theorem searchAll_cons (v : V) (roots : List V) (log : Log V) :
    searchAll next key depth (v :: roots) log =
      searchAll next key depth roots (search next (depth + 1) key (depth + 1) v [v] log) := rfl

theorem searchAll_induction {P : Log V → Prop}
    (hsearch : ∀ v ∈ roots, ∀ log, P log → P (search next (depth + 1) key (depth + 1) v [v] log))
    (h : P log) : P (searchAll next key depth roots log) := by
  induction roots generalizing log with
  | nil => exact h
  | cons v roots ih =>
    exact ih (fun w hw => hsearch w (List.mem_cons_of_mem v hw)) (hsearch v List.mem_cons_self log h)

theorem seen_searchAll {k : K} (h : k ∈ seen key log) :
    k ∈ seen key (searchAll next key depth roots log) :=
  searchAll_induction (P := fun log => k ∈ seen key log) (fun _ _ _ hlog => seen_search hlog) h

theorem root_mem_seen (h : v ∈ roots) : key v ∈ seen key (searchAll next key depth roots log) := by
  induction roots generalizing log with
  | nil => exact absurd h List.not_mem_nil
  | cons w roots ih =>
    rw [searchAll_cons]
    rcases List.mem_cons.1 h with rfl | h
    · exact seen_searchAll (mem_seen_search (Nat.succ_pos depth))
    · exact ih h

/-- The successors of what is entered before the depth are seen. -/
theorem finished_searchAll (h : ∀ entry ∈ log, Finished next (depth + 1) key log entry) :
    ∀ entry ∈ searchAll next key depth roots log,
      Finished next (depth + 1) key (searchAll next key depth roots log) entry := by
  refine searchAll_induction (P := fun log => ∀ entry ∈ log, Finished next (depth + 1) key log entry)
    ?_ h
  intro v _ log hlog entry hentry
  rcases finished_search (by simp) entry hentry with hold | hdone
  · exact (hlog entry hold).imp id fun hnext w hw => seen_search (hnext w hw)
  · exact hdone

theorem finished_of_entry : ∀ entry ∈ searchAll next key depth roots [],
    Finished next (depth + 1) key (searchAll next key depth roots []) entry :=
  finished_searchAll nofun

/-- The path to an entry counts the steps that lead to it. -/
structure Counted (next : V → List V) (roots : List V) (depth : ℕ) (v : V) (path : List V) : Prop where
  pos : 0 < path.length
  bounded : path.length ≤ depth + 1
  reached : ReachedIn next roots (path.length - 1) v

theorem counted_searchAll : ∀ entry ∈ searchAll next key depth roots [],
    Counted next roots depth entry.1 entry.2 := by
  refine searchAll_induction (P := fun log => ∀ entry ∈ log, Counted next roots depth entry.1 entry.2)
    ?_ nofun
  intro v hv log hlog
  refine search_induction (P := fun log => ∀ entry ∈ log, Counted next roots depth entry.1 entry.2)
    (Q := Counted next roots depth) ?_ ?_ ⟨by simp, by simp, .root hv⟩ hlog
  · intro v path log hcounted _ hlog entry hentry
    rcases List.mem_append.1 hentry with hold | hself
    · exact hlog entry hold
    · rw [List.mem_singleton.1 hself]
      exact hcounted
  · intro v path w hcounted hw hlt
    have hstep := hcounted.reached.step hw
    have hpos := hcounted.pos
    have hlength : (path ++ [w]).length = path.length + 1 := by simp
    refine ⟨by omega, by omega, ?_⟩
    rw [hlength, Nat.add_sub_cancel]
    rwa [Nat.sub_add_cancel hpos] at hstep

def Entered (log : Log V) (depth : ℕ) (v : V) : Prop := ∃ path, (v, path) ∈ log ∧ path.length ≤ depth

/-- An entry is no visit of a vertex with its key: it was entered at the depth, or is of another
vertex. -/
def StandsFor (key : V → K) (depth : ℕ) (entry : V × List V) (v : V) : Prop :=
  key v = key entry.1 ∧ (entry.1 ≠ v ∨ depth < entry.2.length)

/-- A vertex is hidden by an entry that stands for a vertex on the way to it. -/
def Hidden (next : V → List V) (roots : List V) (key : V → K) (depth : ℕ) (log : Log V) (k : ℕ)
    (v : V) : Prop :=
  ∃ entry ∈ log, ∃ w i j, StandsFor key depth entry w ∧ ReachedIn next roots i w ∧
    LeadsIn next w j v ∧ i + j = k

omit [DecidableEq K] in
theorem entered_or_standsFor (h : key v ∈ seen key log) :
    Entered log depth v ∨ ∃ entry ∈ log, StandsFor key depth entry v := by
  obtain ⟨⟨w, path⟩, hentry, hkey⟩ := List.mem_map.1 h
  by_cases hsame : w = v
  · subst hsame
    rcases Nat.lt_or_ge depth path.length with hlate | hearly
    · exact Or.inr ⟨(w, path), hentry, rfl, Or.inr hlate⟩
    · exact Or.inl ⟨path, hentry, hearly⟩
  · exact Or.inr ⟨(w, path), hentry, hkey.symm, Or.inl hsame⟩

theorem entered_or_hidden (h : ReachedIn next roots k v) :
    Entered (searchAll next key depth roots []) depth v ∨
      Hidden next roots key depth (searchAll next key depth roots []) k v := by
  have hstands : ∀ {k : ℕ} {v : V}, ReachedIn next roots k v →
      key v ∈ seen key (searchAll next key depth roots []) →
      Entered (searchAll next key depth roots []) depth v ∨
        Hidden next roots key depth (searchAll next key depth roots []) k v := by
    intro k v hreached hseen
    refine (entered_or_standsFor hseen).imp id ?_
    rintro ⟨entry, hentry, hstand⟩
    exact ⟨entry, hentry, v, k, 0, hstand, hreached, .refl, rfl⟩
  induction h with
  | root hroot => exact hstands (.root hroot) (root_mem_seen hroot)
  | step hreached hnext ih =>
    rcases ih with ⟨path, hentry, hearly⟩ | ⟨entry, hentry, w, i, j, hstand, hstart, hleads, rfl⟩
    · rcases finished_of_entry _ hentry with hbound | hseen
      · exact absurd hearly (Nat.not_le.2 hbound)
      · exact hstands (hreached.step hnext) (hseen _ hnext)
    · exact Or.inr ⟨entry, hentry, w, i, j + 1, hstand, hstart, hleads.step hnext, rfl⟩

end Roots

section Lengths

variable {V K : Type} [DecidableEq K] {next : V → List V} {key : V → K} {roots places : List V}
  {v : V} {path init : List V} {log : Log V} {depth bound fuel : ℕ}

theorem nodup_search (hpath : path = init ++ [v]) (hinit : (init.map key).Nodup)
    (hseen : ∀ k ∈ init.map key, k ∈ seen key log)
    (hlog : ∀ entry ∈ log, (entry.2.map key).Nodup) :
    ∀ entry ∈ search next bound key fuel v path log, (entry.2.map key).Nodup := by
  induction fuel generalizing v path init log with
  | zero => exact hlog
  | succ fuel ih =>
    by_cases hmem : key v ∈ seen key log
    · rwa [search_seen hmem]
    have hnodup : (path.map key).Nodup := by
      rw [hpath, List.map_append, List.map_singleton, List.nodup_append]
      refine ⟨hinit, List.nodup_singleton _, ?_⟩
      rintro k hk k' hk' rfl
      rw [List.mem_singleton.1 hk'] at hk
      exact hmem (hseen _ hk)
    have hvisit : ∀ entry ∈ log ++ [(v, path)], (entry.2.map key).Nodup := by
      intro entry hentry
      rcases List.mem_append.1 hentry with hold | hself
      · exact hlog entry hold
      · rw [List.mem_singleton.1 hself]
        exact hnodup
    rcases Nat.lt_or_ge path.length bound with hlt | hge
    · rw [search_step hmem hlt]
      have hpathSeen : ∀ k ∈ path.map key, k ∈ seen key (log ++ [(v, path)]) := by
        intro k hk
        rw [hpath, List.map_append, List.map_singleton, List.mem_append, List.mem_singleton] at hk
        rw [seen, List.map_append, List.mem_append]
        rcases hk with hk | rfl
        · exact Or.inl (hseen k hk)
        · exact Or.inr (List.mem_singleton_self _)
      generalize log ++ [(v, path)] = log' at hvisit hpathSeen
      generalize next v = targets
      induction targets generalizing log' with
      | nil => exact hvisit
      | cons w targets ihtargets =>
        rw [List.foldl_cons]
        exact ihtargets _ (ih rfl hnodup hpathSeen hvisit)
          fun k hk => seen_search (hpathSeen k hk)
    · rwa [search_bounded hmem hge]

theorem nodup_searchAll : ∀ entry ∈ searchAll next key depth roots [], (entry.2.map key).Nodup := by
  refine searchAll_induction (P := fun log => ∀ entry ∈ log, (entry.2.map key).Nodup) ?_ nofun
  intro v _ log hlog
  exact nodup_search (List.nil_append [v]).symm List.nodup_nil nofun hlog

/-- The paths of a search stay among the vertices that there are. -/
theorem subset_searchAll (hroots : ∀ v ∈ roots, v ∈ places)
    (hnext : ∀ v, ∀ w ∈ next v, w ∈ places) :
    ∀ entry ∈ searchAll next key depth roots [], ∀ v ∈ entry.2, v ∈ places := by
  refine searchAll_induction (P := fun log => ∀ entry ∈ log, ∀ v ∈ entry.2, v ∈ places) ?_ nofun
  intro v hv log hlog
  refine search_induction (P := fun log => ∀ entry ∈ log, ∀ v ∈ entry.2, v ∈ places)
    (Q := fun _ path => ∀ v ∈ path, v ∈ places) ?_ ?_ ?_ hlog
  · intro v path log hpath _ hlog entry hentry
    rcases List.mem_append.1 hentry with hold | hself
    · exact hlog entry hold
    · rw [List.mem_singleton.1 hself]
      exact hpath
  · intro v path w hpath hw _ x hx
    rcases List.mem_append.1 hx with hx | hx
    · exact hpath x hx
    · rw [List.mem_singleton.1 hx]
      exact hnext v w hw
  · intro w hw
    rw [List.mem_singleton.1 hw]
    exact hroots v hv

/-- No path is longer than the number of the vertices that there are. -/
theorem length_le_searchAll (hroots : ∀ v ∈ roots, v ∈ places)
    (hnext : ∀ v, ∀ w ∈ next v, w ∈ places) :
    ∀ entry ∈ searchAll next key depth roots [], entry.2.length ≤ places.length := by
  intro entry hentry
  have hsubset : entry.2.map key ⊆ places.map key := by
    intro k hk
    obtain ⟨v, hv, rfl⟩ := List.mem_map.1 hk
    exact List.mem_map_of_mem (subset_searchAll hroots hnext entry hentry v hv)
  have hle := (List.Nodup.subperm (nodup_searchAll entry hentry) hsubset).length_le
  rwa [List.length_map, List.length_map] at hle

end Lengths

end BoundedSearch

import Mottainai.OrderedMaps
import Mottainai.OperationSequences

/-!
# The fact cache and its garbage collection

Producers put objects, named by the hash of their key, and then a manifest that refers to the
object. A pass of the garbage collection lists both, decides what it evicts, and deletes it file
after file. All of these are steps of their own. To put an object that is there does not write it
again. A pass is safe in a run in which no producer comes to rely on an object that is due, and none
writes a manifest that is due.
-/

namespace Mottainai.FactCache

open OrderedMaps

section Files

structure ManifestFile where
  mtimeMs : ℤ
  bytes : ℕ
  /-- The object it refers to. A manifest that cannot be read is corrupt, and refers to none. -/
  factHash : Option String
  deriving DecidableEq

structure ObjectFile where
  mtimeMs : ℤ
  contents : String
  deriving DecidableEq

def ObjectFile.bytes (object : ObjectFile) : ℕ := object.contents.utf8ByteSize

abbrev ManifestEntry : Type := String × ManifestFile

abbrev ObjectEntry : Type := String × ObjectFile

/-- `SemanticFactCacheRetentionPolicy`. -/
structure RetentionPolicy where
  maxManifestAgeMs : ℤ
  maxManifestCount : ℕ
  maxObjectAgeMs : ℤ
  maxTotalObjectBytes : ℕ
  maxOrphanObjectCount : ℕ
  orphanGraceMs : ℤ

def hourMs : ℤ := 60 * 60 * 1000

def dayMs : ℤ := 24 * hourMs

def defaultRetentionPolicy : RetentionPolicy :=
  { maxManifestAgeMs := 30 * dayMs
    maxManifestCount := 200
    maxObjectAgeMs := 14 * dayMs
    maxTotalObjectBytes := 1024 * 1024 * 1024
    maxOrphanObjectCount := 10000
    orphanGraceMs := 5 * 60 * 1000 }

end Files

section Deciding

inductive EvictionKind where
  | manifest
  | object
  deriving DecidableEq

inductive EvictionReason where
  | corrupt
  | age
  | count
  | size
  deriving DecidableEq

/-- `SemanticFactCacheEvictionEntry`. -/
structure Eviction where
  kind : EvictionKind
  id : String
  reason : EvictionReason
  bytes : ℕ
  mtimeMs : ℤ
  deriving DecidableEq

def evictManifest (reason : EvictionReason) (entry : ManifestEntry) : Eviction :=
  { kind := .manifest, id := entry.1, reason, bytes := entry.2.bytes, mtimeMs := entry.2.mtimeMs }

def evictObject (reason : EvictionReason) (entry : ObjectEntry) : Eviction :=
  { kind := .object, id := entry.1, reason, bytes := entry.2.bytes, mtimeMs := entry.2.mtimeMs }

/-- `[...entries].sort((left, right) => right.mtimeMs - left.mtimeMs)`. -/
def newestFirst {File : Type} (mtimeMs : File → ℤ) (entries : List (String × File)) :
    List (String × File) :=
  entries.mergeSort fun left right => mtimeMs right.2 ≤ mtimeMs left.2

variable (policy : RetentionPolicy) (now : ℤ)

def corrupt (entries : List ManifestEntry) : List ManifestEntry :=
  entries.filter fun entry => entry.2.factHash.isNone

def usable (entries : List ManifestEntry) : List ManifestEntry :=
  entries.filter fun entry => !entry.2.factHash.isNone

def withinAge (entries : List ManifestEntry) : List ManifestEntry :=
  (usable entries).filter fun entry => now - entry.2.mtimeMs ≤ policy.maxManifestAgeMs

def aged (entries : List ManifestEntry) : List ManifestEntry :=
  (usable entries).filter fun entry => !decide (now - entry.2.mtimeMs ≤ policy.maxManifestAgeMs)

def rankedManifests (entries : List ManifestEntry) : List ManifestEntry :=
  if policy.maxManifestCount < (withinAge policy now entries).length then
    newestFirst (·.mtimeMs) (withinAge policy now entries)
  else withinAge policy now entries

def keptManifests (entries : List ManifestEntry) : List ManifestEntry :=
  (rankedManifests policy now entries).take policy.maxManifestCount

def evictedManifests (entries : List ManifestEntry) : List Eviction :=
  (corrupt entries).map (evictManifest .corrupt) ++
    (aged policy now entries).map (evictManifest .age) ++
    ((rankedManifests policy now entries).drop policy.maxManifestCount).map (evictManifest .count)

def reachable (manifests : List ManifestEntry) : List String :=
  (keptManifests policy now manifests).filterMap (·.2.factHash)

def orphans (reachable : List String) (objects : List ObjectEntry) : List ObjectEntry :=
  objects.filter fun entry => entry.1 ∉ reachable

def evictable (reachable : List String) (objects : List ObjectEntry) : List ObjectEntry :=
  (orphans reachable objects).filter fun entry => policy.orphanGraceMs ≤ now - entry.2.mtimeMs

def withinObjectAge (reachable : List String) (objects : List ObjectEntry) : List ObjectEntry :=
  (evictable policy now reachable objects).filter fun entry =>
    now - entry.2.mtimeMs ≤ policy.maxObjectAgeMs

def agedOrphans (reachable : List String) (objects : List ObjectEntry) : List ObjectEntry :=
  (evictable policy now reachable objects).filter fun entry =>
    !decide (now - entry.2.mtimeMs ≤ policy.maxObjectAgeMs)

structure Budget where
  survivingOrphans : List ObjectEntry
  survivingBytes : ℕ
  evicted : List Eviction

def spend (budget : Budget) (entry : ObjectEntry) : Budget :=
  let wouldCount := budget.survivingOrphans.length + 1
  let wouldBytes := budget.survivingBytes + entry.2.bytes
  if wouldCount ≤ policy.maxOrphanObjectCount ∧ wouldBytes ≤ policy.maxTotalObjectBytes then
    { budget with
      survivingOrphans := budget.survivingOrphans ++ [entry]
      survivingBytes := wouldBytes }
  else
    let reason := if policy.maxOrphanObjectCount < wouldCount then .count else .size
    { budget with evicted := budget.evicted ++ [evictObject reason entry] }

def overBudget (entries : List ObjectEntry) : List Eviction :=
  (entries.foldl (spend policy) { survivingOrphans := [], survivingBytes := 0, evicted := [] }).evicted

def evictedObjects (reachable : List String) (objects : List ObjectEntry) : List Eviction :=
  (agedOrphans policy now reachable objects).map (evictObject .age) ++
    overBudget policy (newestFirst (·.mtimeMs) (withinObjectAge policy now reachable objects))

/-- What the pass evicts, in the order in which it is deleted. -/
def evicted (manifests : List ManifestEntry) (objects : List ObjectEntry) : List Eviction :=
  evictedManifests policy now manifests ++
    evictedObjects policy now (reachable policy now manifests) objects

end Deciding

section Steps

inductive Pass where
  | start
  | listedManifests (manifests : List ManifestEntry)
  | listed (manifests : List ManifestEntry) (objects : List ObjectEntry)
  | unlinking (evictions : List Eviction)
  | failed

variable {Producer : Type} [DecidableEq Producer]

/-- The files, what the producers have put, how far the pass has come, and what is remembered of the
past only to state what shall not happen. -/
structure Cache (Producer : Type) where
  manifests : OrderedMap String ManifestFile
  objects : OrderedMap String ObjectFile
  /-- The object that a producer has put, and whose manifest it has not put yet. -/
  holding : Producer → Option String
  pass : Pass
  /-- The objects that the pass has deleted, as long as they are not written again. -/
  deleted : List String
  /-- The manifests that were written since the pass has listed them. -/
  rewritten : List String
  /-- The manifests that the pass has deleted although they were written since. -/
  lost : List String

inductive Action (Producer : Type) where
  | put (producer : Producer) (hash : String) (object : ObjectFile)
  | putManifest (producer : Producer) (file : String) (mtimeMs : ℤ) (bytes : ℕ)
  | abandon (producer : Producer)
  | listManifests (entries : List ManifestEntry)
  | listObjects (entries : List ObjectEntry)
  | decide
  | unlink
  | fail

namespace Cache

def put (producer : Producer) (hash : String) (object : ObjectFile) (c : Cache Producer) :
    Cache Producer :=
  match c.objects.get hash with
  | none =>
      { c with
        objects := c.objects.set hash object
        holding := Function.update c.holding producer (some hash)
        deleted := c.deleted.filter (· ≠ hash) }
  | some existing =>
      { c with
        holding := Function.update c.holding producer
          (if existing.contents = object.contents then some hash else none) }

def putManifest (producer : Producer) (file : String) (mtimeMs : ℤ) (bytes : ℕ)
    (c : Cache Producer) : Cache Producer :=
  match c.holding producer with
  | none => c
  | some hash =>
      { c with
        manifests := c.manifests.set file { mtimeMs, bytes, factHash := some hash }
        holding := Function.update c.holding producer none
        rewritten := file :: c.rewritten }

def unlinkFile (eviction : Eviction) (c : Cache Producer) : Cache Producer :=
  match eviction.kind with
  | .manifest =>
      { c with
        manifests := c.manifests.delete eviction.id
        lost := if eviction.id ∈ c.manifests.keys ∧ eviction.id ∈ c.rewritten then
          eviction.id :: c.lost else c.lost }
  | .object =>
      { c with
        objects := c.objects.delete eviction.id
        deleted := if eviction.id ∈ c.objects.keys then eviction.id :: c.deleted else c.deleted }

variable (policy : RetentionPolicy) (now : ℤ)

/-- One step. An action of the pass whose turn it is not changes nothing. A directory is listed in
any order. -/
def apply (c : Cache Producer) : Action Producer → Cache Producer
  | .put producer hash object => c.put producer hash object
  | .putManifest producer file mtimeMs bytes => c.putManifest producer file mtimeMs bytes
  | .abandon producer => { c with holding := Function.update c.holding producer none }
  | .listManifests entries =>
      match c.pass with
      | .start =>
          if entries.Perm c.manifests.entries then
            { c with pass := .listedManifests entries, rewritten := [] }
          else c
      | _ => c
  | .listObjects entries =>
      match c.pass with
      | .listedManifests manifests =>
          if entries.Perm c.objects.entries then { c with pass := .listed manifests entries } else c
      | _ => c
  | .decide =>
      match c.pass with
      | .listed manifests objects => { c with pass := .unlinking (evicted policy now manifests objects) }
      | _ => c
  | .unlink =>
      match c.pass with
      | .unlinking (eviction :: evictions) =>
          { c.unlinkFile eviction with pass := .unlinking evictions }
      | _ => c
  | .fail => { c with pass := .failed }

end Cache

end Steps

open OrderedMaps.OrderedMap OperationSequences

section Evictions

variable {policy : RetentionPolicy} {now : ℤ} {manifests : List ManifestEntry}
  {objects : List ObjectEntry} {reached : List String}

theorem newestFirst_perm {File : Type} (mtimeMs : File → ℤ) (entries : List (String × File)) :
    (newestFirst mtimeMs entries).Perm entries := List.mergeSort_perm _ _

variable {eviction : Eviction} {entry : ManifestEntry}

theorem mem_rankedManifests :
    entry ∈ rankedManifests policy now manifests ↔ entry ∈ withinAge policy now manifests := by
  unfold rankedManifests
  split_ifs
  · exact (newestFirst_perm _ _).mem_iff
  · exact Iff.rfl

theorem kind_evictedManifests (h : eviction ∈ evictedManifests policy now manifests) :
    eviction.kind = .manifest := by
  simp only [evictedManifests, List.mem_append, List.mem_map] at h
  rcases h with (⟨entry, -, rfl⟩ | ⟨entry, -, rfl⟩) | ⟨entry, -, rfl⟩
  · rfl
  · rfl
  · rfl

variable (policy now) in
theorem evicted_or_reachable {hash : String} (h : entry ∈ manifests)
    (hhash : entry.2.factHash = some hash) :
    (∃ eviction ∈ evictedManifests policy now manifests, eviction.id = entry.1) ∨
      hash ∈ reachable policy now manifests := by
  have husable : entry ∈ usable manifests := List.mem_filter.2 ⟨h, by simp [hhash]⟩
  by_cases hage : now - entry.2.mtimeMs ≤ policy.maxManifestAgeMs
  · have hranked : entry ∈ rankedManifests policy now manifests :=
      mem_rankedManifests.2 (List.mem_filter.2 ⟨husable, decide_eq_true hage⟩)
    rw [← List.take_append_drop policy.maxManifestCount (rankedManifests policy now manifests),
      List.mem_append] at hranked
    rcases hranked with hkept | hdropped
    · exact Or.inr (List.mem_filterMap.2 ⟨entry, hkept, hhash⟩)
    · exact Or.inl ⟨evictManifest .count entry,
        List.mem_append_right _ (List.mem_map_of_mem hdropped), rfl⟩
  · have haged : entry ∈ aged policy now manifests :=
      List.mem_filter.2 ⟨husable, by simp [hage]⟩
    exact Or.inl ⟨evictManifest .age entry,
      List.mem_append_left _ (List.mem_append_right _ (List.mem_map_of_mem haged)), rfl⟩

theorem overBudget_spec (entries : List ObjectEntry) :
    (∀ eviction ∈ overBudget policy entries, eviction.kind = .object) ∧
      ((overBudget policy entries).map (·.id)).Sublist (entries.map (·.1)) := by
  have hfold : ∀ (entries : List ObjectEntry) (budget : Budget),
      (∀ eviction ∈ budget.evicted, eviction.kind = .object) →
      (∀ eviction ∈ (entries.foldl (spend policy) budget).evicted, eviction.kind = .object) ∧
        ∃ ids, ids.Sublist (entries.map (·.1)) ∧
          (entries.foldl (spend policy) budget).evicted.map (·.id) =
            budget.evicted.map (·.id) ++ ids := by
    intro entries
    induction entries with
    | nil => exact fun budget hkind => ⟨hkind, [], List.Sublist.refl _, by simp⟩
    | cons entry entries ih =>
      intro budget hkind
      rw [List.foldl_cons]
      by_cases hfits : budget.survivingOrphans.length + 1 ≤ policy.maxOrphanObjectCount ∧
          budget.survivingBytes + entry.2.bytes ≤ policy.maxTotalObjectBytes
      · have hspend : (spend policy budget entry).evicted = budget.evicted := by
          rw [spend, if_pos hfits]
        obtain ⟨hkinds, ids, hsublist, hids⟩ := ih (spend policy budget entry) (hspend ▸ hkind)
        exact ⟨hkinds, ids, hsublist.cons _, hspend ▸ hids⟩
      · obtain ⟨reason, hspend⟩ : ∃ reason, (spend policy budget entry).evicted =
            budget.evicted ++ [evictObject reason entry] := by
          rw [spend, if_neg hfits]
          exact ⟨_, rfl⟩
        have hkind' : ∀ eviction ∈ (spend policy budget entry).evicted,
            eviction.kind = .object := by
          rw [hspend]
          intro eviction heviction
          rcases List.mem_append.1 heviction with hold | hnew
          · exact hkind eviction hold
          · rw [List.mem_singleton.1 hnew]
            rfl
        obtain ⟨hkinds, ids, hsublist, hids⟩ := ih (spend policy budget entry) hkind'
        refine ⟨hkinds, entry.1 :: ids, hsublist.cons_cons _, ?_⟩
        rw [hids, hspend]
        simp [evictObject]
  obtain ⟨hkind, ids, hsublist, hids⟩ := hfold entries
    { survivingOrphans := [], survivingBytes := 0, evicted := [] } nofun
  exact ⟨hkind, hids ▸ hsublist⟩

theorem kind_evictedObjects (h : eviction ∈ evictedObjects policy now reached objects) :
    eviction.kind = .object := by
  rcases List.mem_append.1 h with h | h
  · obtain ⟨entry, -, rfl⟩ := List.mem_map.1 h
    rfl
  · exact (overBudget_spec _).1 eviction h

variable (policy now objects reached) in
theorem evictedObjects_subperm : ((evictedObjects policy now reached objects).map (·.id)).Subperm
    ((evictable policy now reached objects).map (·.1)) := by
  have hage : ((agedOrphans policy now reached objects).map (·.1) ++
      (withinObjectAge policy now reached objects).map (·.1)).Perm
        ((evictable policy now reached objects).map (·.1)) := by
    rw [← List.map_append]
    exact (List.perm_append_comm.trans (List.filter_append_perm _ _)).map _
  have hbudget : ((overBudget policy (newestFirst (·.mtimeMs)
      (withinObjectAge policy now reached objects))).map (·.id)).Subperm
        ((withinObjectAge policy now reached objects).map (·.1)) :=
    (overBudget_spec _).2.subperm.trans ((newestFirst_perm _ _).map _).subperm
  have hids : (evictedObjects policy now reached objects).map (·.id) =
      (agedOrphans policy now reached objects).map (·.1) ++ (overBudget policy (newestFirst
        (·.mtimeMs) (withinObjectAge policy now reached objects))).map (·.id) := by
    rw [evictedObjects, List.map_append, List.map_map]
    rfl
  rw [hids]
  exact ((List.subperm_append_left _).2 hbudget).trans hage.subperm

theorem of_mem_evictedObjects (h : eviction ∈ evictedObjects policy now reached objects) :
    eviction.id ∉ reached ∧ ∃ object, (eviction.id, object) ∈ objects ∧
      policy.orphanGraceMs ≤ now - object.mtimeMs := by
  obtain ⟨⟨hash, object⟩, hentry, heq⟩ := List.mem_map.1
    ((evictedObjects_subperm policy now objects reached).subset (List.mem_map_of_mem (f := (·.id)) h))
  obtain rfl : hash = eviction.id := heq
  obtain ⟨horphan, hgrace⟩ := List.mem_filter.1 hentry
  obtain ⟨hlisted, hreached⟩ := List.mem_filter.1 horphan
  exact ⟨of_decide_eq_true hreached, object, hlisted, of_decide_eq_true hgrace⟩

end Evictions

section Invariant

variable {Producer : Type} {policy : RetentionPolicy} {now : ℤ}
  {c : Cache Producer} {hash file : String} {pass : Pass}

variable (policy now) in
def due : Pass → List Eviction
  | .listedManifests manifests => evictedManifests policy now manifests
  | .listed manifests objects => evicted policy now manifests objects
  | .unlinking evictions => evictions
  | _ => []

variable (policy now) in
def DueObject (pass : Pass) (hash : String) : Prop :=
  ∃ eviction ∈ due policy now pass, eviction.kind = .object ∧ eviction.id = hash

variable (policy now) in
def DueManifest (pass : Pass) (file : String) : Prop :=
  ∃ eviction ∈ due policy now pass, eviction.kind = .manifest ∧ eviction.id = file

/-- No manifest refers to an object that the pass has deleted, the pass has deleted no manifest that
was written since it has listed them, and an object is protected between its put and its manifest. -/
structure Safe (c : Cache Producer) : Prop where
  manifests : ∀ file manifest hash, c.manifests.get file = some manifest →
    manifest.factHash = some hash → hash ∉ c.deleted
  lost : c.lost = []
  holding : ∀ producer hash, c.holding producer = some hash → hash ∉ c.deleted

variable (policy now) in
/-- The condition on a step: no put finds an object that is due, no manifest that is due is written,
and when the objects are listed none of those that will be evicted is held by a producer, or
referred to by a manifest that was written since. -/
def Guarded (c : Cache Producer) : Action Producer → Prop
  | .put _ hash object => (∃ existing, c.objects.get hash = some existing ∧
      existing.contents = object.contents) → ¬ DueObject policy now c.pass hash
  | .putManifest producer file _ _ => (∃ hash, c.holding producer = some hash) →
      ¬ DueManifest policy now c.pass file
  | .listObjects entries => ∀ manifests, c.pass = .listedManifests manifests →
      ∀ eviction ∈ evictedObjects policy now (reachable policy now manifests) entries,
        (∀ producer, c.holding producer ≠ some eviction.id) ∧
        ∀ file ∈ c.rewritten, ∀ manifest, c.manifests.get file = some manifest →
          manifest.factHash ≠ some eviction.id
  | _ => True

structure Invariant (policy : RetentionPolicy) (now : ℤ) (c : Cache Producer) : Prop where
  safe : Safe c
  gone : ∀ hash ∈ c.deleted, hash ∉ c.objects.keys
  present : ∀ hash, DueObject policy now c.pass hash → hash ∈ c.objects.keys
  once : (((due policy now c.pass).filter (·.kind = .object)).map (·.id)).Nodup
  ordered : (due policy now c.pass).Pairwise fun e e' => e.kind = .object → e'.kind = .object
  fresh : ∀ file, DueManifest policy now c.pass file → file ∉ c.rewritten
  holding : ∀ producer hash, c.holding producer = some hash → ¬ DueObject policy now c.pass hash
  refers : ∀ file manifest hash, c.manifests.get file = some manifest →
    manifest.factHash = some hash → DueObject policy now c.pass hash →
      DueManifest policy now c.pass file
  listed : ∀ manifests, c.pass = .listedManifests manifests → ∀ file manifest,
    c.manifests.get file = some manifest → file ∈ c.rewritten ∨ (file, manifest) ∈ manifests

theorem not_dueObject_of_due_eq_nil (h : due policy now pass = []) :
    ¬ DueObject policy now pass hash := by
  rintro ⟨eviction, heviction, -⟩
  rw [h] at heviction
  cases heviction

theorem not_dueManifest_of_due_eq_nil (h : due policy now pass = []) :
    ¬ DueManifest policy now pass file := by
  rintro ⟨eviction, heviction, -⟩
  rw [h] at heviction
  cases heviction

theorem Invariant.of_due_eq_nil (hsafe : Safe c)
    (hgone : ∀ hash ∈ c.deleted, hash ∉ c.objects.keys) (hdue : due policy now c.pass = [])
    (hlisted : ∀ manifests, c.pass ≠ .listedManifests manifests) : Invariant policy now c where
  safe := hsafe
  gone := hgone
  present hash h := absurd h (not_dueObject_of_due_eq_nil hdue)
  once := by rw [hdue]; exact List.nodup_nil
  ordered := by rw [hdue]; exact List.Pairwise.nil
  fresh file h := absurd h (not_dueManifest_of_due_eq_nil hdue)
  holding _ _ _ := not_dueObject_of_due_eq_nil hdue
  refers _ _ _ _ _ h := absurd h (not_dueObject_of_due_eq_nil hdue)
  listed manifests h := absurd h (hlisted manifests)

end Invariant

section Producers

variable {Producer : Type} {policy : RetentionPolicy} {now : ℤ}
  {c : Cache Producer}

variable {hash : String} {producer : Producer}

theorem holding_update [DecidableEq Producer] {holding : Producer → Option String}
    {producer producer' : Producer} {held : Option String}
    (h : Function.update holding producer held producer' = some hash) :
    holding producer' = some hash ∨ held = some hash := by
  by_cases heq : producer' = producer
  · subst heq
    rw [Function.update_self] at h
    exact Or.inr h
  · rw [Function.update_of_ne heq] at h
    exact Or.inl h

variable (h : Invariant policy now c)
include h

theorem Invariant.hold [DecidableEq Producer] (producer : Producer) (held : Option String)
    (hheld : ∀ hash, held = some hash → hash ∉ c.deleted ∧ ¬ DueObject policy now c.pass hash) :
    Invariant policy now { c with holding := Function.update c.holding producer held } where
  safe :=
    { manifests := h.safe.manifests
      lost := h.safe.lost
      holding := fun producer' hash hold => (holding_update hold).elim
        (h.safe.holding producer' hash) fun hnew => (hheld hash hnew).1 }
  gone := h.gone
  present := h.present
  once := h.once
  ordered := h.ordered
  fresh := h.fresh
  holding producer' hash hold := (holding_update hold).elim
    (h.holding producer' hash) fun hnew => (hheld hash hnew).2
  refers := h.refers
  listed := h.listed

/-- An object is written that did not exist. -/
theorem Invariant.write (hnew : hash ∉ c.objects.keys) (object : ObjectFile) :
    Invariant policy now { c with
      objects := c.objects.set hash object
      deleted := c.deleted.filter (· ≠ hash) } where
  safe :=
    { manifests := fun file manifest hash' hget hhash hmem =>
        h.safe.manifests file manifest hash' hget hhash (List.mem_filter.1 hmem).1
      lost := h.safe.lost
      holding := fun producer hash' hold hmem =>
        h.safe.holding producer hash' hold (List.mem_filter.1 hmem).1 }
  gone hash' hmem := by
    obtain ⟨hold, hne⟩ := List.mem_filter.1 hmem
    have hget : (c.objects.set hash object).get hash' = none := by
      rw [get_set_of_ne (of_decide_eq_true hne)]
      exact get_eq_none_iff.2 (h.gone hash' hold)
    exact get_eq_none_iff.1 hget
  present hash' hdue := by
    have hne : hash' ≠ hash := fun heq => hnew (heq ▸ h.present hash' hdue)
    obtain ⟨object', hget⟩ := Option.isSome_iff_exists.1
      (Option.isSome_iff_ne_none.2 fun hnone => get_eq_none_iff.1 hnone (h.present hash' hdue))
    have hset : (c.objects.set hash object).get hash' = some object' := by
      rw [get_set_of_ne hne, hget]
    exact mem_keys_of_get hset
  once := h.once
  ordered := h.ordered
  fresh := h.fresh
  holding := h.holding
  refers := h.refers
  listed := h.listed

theorem invariant_put [DecidableEq Producer] {object : ObjectFile}
    (hguard : Guarded policy now c (.put producer hash object)) :
    Invariant policy now (c.put producer hash object) := by
  cases hget : c.objects.get hash with
  | none =>
    have hnew : hash ∉ c.objects.keys := get_eq_none_iff.1 hget
    have hwrite := (h.write hnew object).hold producer (some hash) (by
      intro hash' heq
      obtain rfl := Option.some.inj heq
      exact ⟨fun hmem => of_decide_eq_true (List.mem_filter.1 hmem).2 rfl,
        fun hdue => hnew (h.present hash hdue)⟩)
    simpa only [Cache.put, hget] using hwrite
  | some existing =>
    simp only [Cache.put, hget]
    refine h.hold producer _ fun hash' heq => ?_
    split_ifs at heq with hsame
    obtain rfl := Option.some.inj heq
    exact ⟨fun hmem => h.gone hash hmem (mem_keys_of_get hget), hguard ⟨existing, hget, hsame⟩⟩

/-- A manifest is written that is not due. -/
theorem invariant_putManifest [DecidableEq Producer] {file : String} (mtimeMs : ℤ) (bytes : ℕ)
    (hguard : Guarded policy now c (.putManifest producer file mtimeMs bytes)) :
    Invariant policy now (c.putManifest producer file mtimeMs bytes) := by
  cases hholding : c.holding producer with
  | none => simpa only [Cache.putManifest, hholding] using h
  | some hash =>
    have hdue : ¬ DueManifest policy now c.pass file := hguard ⟨hash, hholding⟩
    have hidle := h.hold producer none nofun
    simp only [Cache.putManifest, hholding]
    refine
      { safe := { manifests := fun file' manifest hash' hget hhash => ?_, lost := h.safe.lost
                  holding := hidle.safe.holding }
        gone := h.gone, present := h.present, once := h.once, ordered := h.ordered
        fresh := fun file' hdue' hmem => ?_
        holding := hidle.holding
        refers := fun file' manifest hash' hget hhash hdue' => ?_
        listed := fun manifests hpass file' manifest hget => ?_ }
    · rcases get_set_eq_some_iff.1 hget with ⟨-, rfl⟩ | ⟨-, hold⟩
      · obtain rfl := Option.some.inj hhash
        exact h.safe.holding producer hash hholding
      · exact h.safe.manifests file' manifest hash' hold hhash
    · rcases List.mem_cons.1 hmem with rfl | hmem
      · exact hdue hdue'
      · exact h.fresh file' hdue' hmem
    · rcases get_set_eq_some_iff.1 hget with ⟨-, rfl⟩ | ⟨-, hold⟩
      · obtain rfl := Option.some.inj hhash
        exact absurd hdue' (h.holding producer hash hholding)
      · exact h.refers file' manifest hash' hold hhash hdue'
    · rcases get_set_eq_some_iff.1 hget with ⟨rfl, -⟩ | ⟨-, hold⟩
      · exact Or.inl List.mem_cons_self
      · exact (h.listed manifests hpass file' manifest hold).imp (List.mem_cons_of_mem file) id

end Producers

section PassSteps

variable {Producer : Type} {policy : RetentionPolicy} {now : ℤ} {c : Cache Producer}
variable {manifests : List ManifestEntry} {objects : List ObjectEntry} {evictions : List Eviction}
variable {eviction : Eviction} {hash : String}

theorem due_listed (h : DueObject policy now (.listed manifests objects) hash) :
    ∃ eviction ∈ evictedObjects policy now (reachable policy now manifests) objects,
      eviction.id = hash := by
  obtain ⟨eviction, hmem, hkind, hid⟩ := h
  rcases List.mem_append.1 hmem with hmanifest | hobject
  · rw [kind_evictedManifests hmanifest] at hkind
    cases hkind
  · exact ⟨eviction, hobject, hid⟩

theorem dueManifest_listed {file : String} :
    DueManifest policy now (.listed manifests objects) file ↔
      DueManifest policy now (.listedManifests manifests) file := by
  constructor
  · rintro ⟨eviction, hmem, hkind, hid⟩
    rcases List.mem_append.1 hmem with hmanifest | hobject
    · exact ⟨eviction, hmanifest, hkind, hid⟩
    · rw [kind_evictedObjects hobject] at hkind
      cases hkind
  · rintro ⟨eviction, hmem, hkind, hid⟩
    exact ⟨eviction, List.mem_append_left _ hmem, hkind, hid⟩

theorem not_dueObject_listedManifests :
    ¬ DueObject policy now (.listedManifests manifests) hash := by
  rintro ⟨eviction, hmem, hkind, -⟩
  rw [kind_evictedManifests hmem] at hkind
  cases hkind

variable (h : Invariant policy now c)
include h

theorem invariant_listManifests {entries : List ManifestEntry}
    (hentries : entries.Perm c.manifests.entries) :
    Invariant policy now { c with pass := .listedManifests entries, rewritten := [] } where
  safe := { manifests := h.safe.manifests, lost := h.safe.lost, holding := h.safe.holding }
  gone := h.gone
  present _ hdue := absurd hdue not_dueObject_listedManifests
  once := by
    have hnone : (evictedManifests policy now entries).filter (·.kind = .object) = [] := by
      refine List.filter_eq_nil_iff.2 fun eviction hmem => ?_
      simp [kind_evictedManifests hmem]
    simp only [due, hnone]
    exact List.nodup_nil
  ordered := by
    refine List.Pairwise.imp_of_mem (R := fun _ _ => True) ?_ (List.pairwise_of_forall fun _ _ => trivial)
    intro eviction _ hmem _ _ hkind
    rw [kind_evictedManifests hmem] at hkind
    cases hkind
  fresh _ _ := List.not_mem_nil
  holding _ _ _ := not_dueObject_listedManifests
  refers _ _ _ _ _ hdue := absurd hdue not_dueObject_listedManifests
  listed manifests hpass file manifest hget := by
    obtain rfl : entries = manifests := by simpa using hpass
    exact Or.inr (hentries.mem_iff.2 (get_eq_some_iff.1 hget))

theorem invariant_listObjects {entries : List ObjectEntry}
    (hpass : c.pass = .listedManifests manifests) (hentries : entries.Perm c.objects.entries)
    (hguard : ∀ eviction ∈ evictedObjects policy now (reachable policy now manifests) entries,
      (∀ producer, c.holding producer ≠ some eviction.id) ∧
        ∀ file ∈ c.rewritten, ∀ manifest, c.manifests.get file = some manifest →
          manifest.factHash ≠ some eviction.id) :
    Invariant policy now { c with pass := .listed manifests entries } where
  safe := { manifests := h.safe.manifests, lost := h.safe.lost, holding := h.safe.holding }
  gone := h.gone
  present hash hdue := by
    obtain ⟨eviction, hmem, rfl⟩ := due_listed hdue
    obtain ⟨-, object, hlisted, -⟩ := of_mem_evictedObjects hmem
    exact List.mem_map.2 ⟨(eviction.id, object), hentries.mem_iff.1 hlisted, rfl⟩
  once := by
    have hfilter : (evicted policy now manifests entries).filter (·.kind = .object) =
        evictedObjects policy now (reachable policy now manifests) entries := by
      rw [evicted, List.filter_append]
      have hnone : (evictedManifests policy now manifests).filter (·.kind = .object) = [] := by
        refine List.filter_eq_nil_iff.2 fun eviction hmem => ?_
        simp [kind_evictedManifests hmem]
      rw [hnone, List.nil_append]
      exact List.filter_eq_self.2 fun eviction hmem => decide_eq_true (kind_evictedObjects hmem)
    simp only [due, hfilter]
    obtain ⟨ids, hperm, hsublist⟩ := evictedObjects_subperm policy now entries
      (reachable policy now manifests)
    refine hperm.nodup_iff.1 (hsublist.nodup ?_)
    refine ((List.filter_sublist.trans List.filter_sublist).map _).nodup ?_
    exact (hentries.map _).nodup_iff.2 c.objects.nodup
  ordered := by
    have hmanifests : ∀ e ∈ evictedManifests policy now manifests, ∀ e' : Eviction,
        e.kind = .object → e'.kind = .object := by
      intro e hmem e' hkind
      rw [kind_evictedManifests hmem] at hkind
      cases hkind
    refine List.pairwise_append.2 ⟨?_, ?_, fun e hmem e' _ => hmanifests e hmem e'⟩
    · exact List.Pairwise.imp_of_mem (R := fun _ _ => True)
        (fun hmem _ _ => hmanifests _ hmem _) (List.pairwise_of_forall fun _ _ => trivial)
    · exact List.Pairwise.imp_of_mem (R := fun _ _ => True)
        (fun _ hmem' _ _ => kind_evictedObjects hmem') (List.pairwise_of_forall fun _ _ => trivial)
  fresh file hdue := h.fresh file (hpass ▸ dueManifest_listed.1 hdue)
  holding producer hash hold hdue := by
    obtain ⟨eviction, hmem, rfl⟩ := due_listed hdue
    exact (hguard eviction hmem).1 producer hold
  refers file manifest hash hget hhash hdue := by
    obtain ⟨eviction, hmem, rfl⟩ := due_listed hdue
    rcases h.listed manifests hpass file manifest hget with hrewritten | hlisted
    · exact absurd hhash ((hguard eviction hmem).2 file hrewritten manifest hget)
    · -- the manifest was listed as it is, and what the kept manifests refer to is not evicted
      rcases evicted_or_reachable policy now hlisted hhash with ⟨eviction', hevicted, hid⟩ | hreachable
      · exact dueManifest_listed.2 ⟨eviction', hevicted, kind_evictedManifests hevicted, hid⟩
      · exact absurd hreachable (of_mem_evictedObjects hmem).1
  listed _ h := by cases h

theorem invariant_unlinkManifest (hpass : c.pass = .unlinking (eviction :: evictions))
    (hkind : eviction.kind = .manifest) :
    Invariant policy now { c.unlinkFile eviction with pass := .unlinking evictions } := by
  have hdue : ∀ hash, DueObject policy now (.unlinking evictions) hash →
      DueObject policy now c.pass hash := by
    rintro hash ⟨e, hmem, hobject, hid⟩
    rw [hpass]
    exact ⟨e, List.mem_cons_of_mem _ hmem, hobject, hid⟩
  have hfresh : eviction.id ∉ c.rewritten := by
    refine h.fresh eviction.id ?_
    rw [hpass]
    exact ⟨eviction, List.mem_cons_self, hkind, rfl⟩
  have hget : ∀ file manifest, (c.manifests.delete eviction.id).get file = some manifest →
      file ≠ eviction.id ∧ c.manifests.get file = some manifest := fun file manifest hget =>
    get_delete_eq_some_iff.1 hget
  simp only [Cache.unlinkFile, hkind]
  refine
    { safe := { manifests := fun file manifest hash hfile => h.safe.manifests file manifest hash
                  (hget file manifest hfile).2
                lost := ?_, holding := h.safe.holding }
      gone := h.gone, present := fun hash hobject => h.present hash (hdue hash hobject)
      once := ?_, ordered := ?_, fresh := fun file hmanifest => h.fresh file ?_
      holding := fun producer hash hold hobject => h.holding producer hash hold (hdue hash hobject)
      refers := fun file manifest hash hfile hhash hobject => ?_
      listed := nofun }
  · rw [if_neg fun hboth => hfresh hboth.2]
    exact h.safe.lost
  · have honce := h.once
    rw [hpass] at honce
    exact (((List.sublist_cons_self eviction evictions).filter _).map _).nodup honce
  · have hordered := h.ordered
    rw [hpass] at hordered
    exact (List.pairwise_cons.1 hordered).2
  · obtain ⟨e, hmem, hmanifest, hid⟩ := hmanifest
    rw [hpass]
    exact ⟨e, List.mem_cons_of_mem _ hmem, hmanifest, hid⟩
  · obtain ⟨hne, hfile⟩ := hget file manifest hfile
    have hrefers := h.refers file manifest hash hfile hhash (hdue hash hobject)
    rw [hpass] at hrefers
    obtain ⟨e, hmem, hmanifest, rfl⟩ := hrefers
    rcases List.mem_cons.1 hmem with rfl | hmem
    · exact absurd rfl hne
    · exact ⟨e, hmem, hmanifest, rfl⟩

/-- An object is deleted, when no manifest is due any more. -/
theorem invariant_unlinkObject (hpass : c.pass = .unlinking (eviction :: evictions))
    (hkind : eviction.kind = .object) :
    Invariant policy now { c.unlinkFile eviction with pass := .unlinking evictions } := by
  have hself : DueObject policy now c.pass eviction.id := by
    rw [hpass]
    exact ⟨eviction, List.mem_cons_self, hkind, rfl⟩
  have hdue : ∀ hash, DueObject policy now (.unlinking evictions) hash →
      DueObject policy now c.pass hash := by
    rintro hash ⟨e, hmem, hobject, hid⟩
    rw [hpass]
    exact ⟨e, List.mem_cons_of_mem _ hmem, hobject, hid⟩
  have hordered := h.ordered
  have honce := h.once
  rw [hpass] at hordered honce
  obtain ⟨hobjects, hordered⟩ := List.pairwise_cons.1 hordered
  have hnone : ∀ file, ¬ DueManifest policy now c.pass file := by
    rintro file ⟨e, hmem, hmanifest, -⟩
    rw [hpass] at hmem
    have hobject : e.kind = .object := by
      rcases List.mem_cons.1 hmem with rfl | hmem
      · exact hkind
      · exact hobjects e hmem hkind
    rw [hobject] at hmanifest
    cases hmanifest
  have hrefers : ∀ file manifest hash, c.manifests.get file = some manifest →
      manifest.factHash = some hash → ¬ DueObject policy now c.pass hash :=
    fun file manifest hash hget hhash hobject =>
      hnone file (h.refers file manifest hash hget hhash hobject)
  have hne : ∀ hash, DueObject policy now (.unlinking evictions) hash → hash ≠ eviction.id := by
    rintro hash ⟨e, hmem, hobject, rfl⟩ heq
    simp only [due, List.filter_cons, hkind, decide_true, if_true, List.map_cons,
      List.nodup_cons] at honce
    exact honce.1 (List.mem_map.2 ⟨e, List.mem_filter.2 ⟨hmem, decide_eq_true hobject⟩, heq⟩)
  have hdeleted : ∀ hash, hash ∈ (if eviction.id ∈ c.objects.keys then eviction.id :: c.deleted
      else c.deleted) → hash = eviction.id ∨ hash ∈ c.deleted := by
    intro hash hmem
    split_ifs at hmem
    · exact List.mem_cons.1 hmem
    · exact Or.inr hmem
  simp only [Cache.unlinkFile, hkind]
  refine
    { safe := { manifests := fun file manifest hash hget hhash hmem => ?_
                lost := h.safe.lost, holding := fun producer hash hold hmem => ?_ }
      gone := fun hash hmem => ?_, present := fun hash hobject => ?_
      once := ?_, ordered := hordered
      fresh := fun file hmanifest => ?_
      holding := fun producer hash hold hobject => h.holding producer hash hold (hdue hash hobject)
      refers := fun file manifest hash hget hhash hobject =>
        absurd (hdue hash hobject) (hrefers file manifest hash hget hhash)
      listed := nofun }
  · rcases hdeleted hash hmem with rfl | hold
    · exact hrefers file manifest _ hget hhash hself
    · exact h.safe.manifests file manifest hash hget hhash hold
  · rcases hdeleted hash hmem with rfl | hmem
    · exact h.holding producer _ hold hself
    · exact h.safe.holding producer hash hold hmem
  · by_cases heq : hash = eviction.id
    · subst heq
      exact get_eq_none_iff.1 get_delete_self
    · have hget : (c.objects.delete eviction.id).get hash = none := by
        rw [get_delete_of_ne heq]
        exact get_eq_none_iff.2 (h.gone hash ((hdeleted hash hmem).resolve_left heq))
      exact get_eq_none_iff.1 hget
  · by_contra hmem
    have hget : (c.objects.delete eviction.id).get hash = none := get_eq_none_iff.2 hmem
    rw [get_delete_of_ne (hne hash hobject)] at hget
    exact get_eq_none_iff.1 hget (h.present hash (hdue hash hobject))
  · simp only [due, List.filter_cons, hkind, decide_true, if_true, List.map_cons,
      List.nodup_cons] at honce
    exact honce.2
  · obtain ⟨e, hmem, hmanifest, hid⟩ := hmanifest
    refine absurd ?_ (hnone file)
    rw [hpass]
    exact ⟨e, List.mem_cons_of_mem _ hmem, hmanifest, hid⟩

end PassSteps

section Runs

variable {Producer : Type} [DecidableEq Producer] {policy : RetentionPolicy} {now : ℤ}
  {c : Cache Producer}

/-- A step that meets the condition keeps the invariant. -/
theorem invariant_apply (h : Invariant policy now c) (action : Action Producer)
    (hguard : Guarded policy now c action) : Invariant policy now (c.apply policy now action) := by
  cases action with
  | put producer hash object => exact invariant_put h hguard
  | putManifest producer file mtimeMs bytes => exact invariant_putManifest h mtimeMs bytes hguard
  | abandon producer => exact h.hold producer _ nofun
  | listManifests entries =>
    simp only [Cache.apply]
    split
    · split_ifs with hentries
      · exact invariant_listManifests h hentries
      · exact h
    · exact h
  | listObjects entries =>
    simp only [Cache.apply]
    split
    · next manifests hpass =>
      split_ifs with hentries
      · exact invariant_listObjects h hpass hentries (hguard manifests hpass)
      · exact h
    · exact h
  | decide =>
    simp only [Cache.apply]
    split
    · next manifests objects hpass =>
      obtain ⟨hsafe, hgone, hpresent, honce, hordered, hfresh, hholding, hrefers, -⟩ := h
      rw [hpass] at hpresent honce hordered hfresh hholding hrefers
      exact ⟨⟨hsafe.manifests, hsafe.lost, hsafe.holding⟩, hgone, hpresent, honce, hordered, hfresh,
        hholding, hrefers, nofun⟩
    · exact h
  | unlink =>
    simp only [Cache.apply]
    split
    · next eviction evictions hpass =>
      cases hkind : eviction.kind with
      | manifest => exact invariant_unlinkManifest h hpass hkind
      | object => exact invariant_unlinkObject h hpass hkind
    · exact h
  | fail =>
    exact .of_due_eq_nil ⟨h.safe.manifests, h.safe.lost, h.safe.holding⟩ h.gone rfl nofun

/-- The pass has not begun, so that it has deleted nothing. -/
structure Begins (c : Cache Producer) : Prop where
  pass : c.pass = .start
  deleted : c.deleted = []
  lost : c.lost = []

/-- In a run whose steps all meet the condition, every state is safe. -/
theorem safe_of_guarded (policy : RetentionPolicy) (now : ℤ) (c : Cache Producer)
    (actions : List (Action Producer)) (hbegins : Begins c)
    (hguard : EachStep (Cache.apply policy now) (Guarded policy now) c actions) :
    EachState (Cache.apply policy now) Safe c actions := by
  have hsafe : Safe c :=
    { manifests := fun _ _ _ _ _ hmem => by rw [hbegins.deleted] at hmem; cases hmem
      lost := hbegins.lost
      holding := fun _ _ _ hmem => by rw [hbegins.deleted] at hmem; cases hmem }
  have hinvariant : Invariant policy now c := by
    refine .of_due_eq_nil hsafe (fun hash hmem => ?_) ?_ fun manifests hpass => ?_
    · rw [hbegins.deleted] at hmem
      cases hmem
    · rw [hbegins.pass]
      rfl
    · rw [hbegins.pass] at hpass
      cases hpass
  have hrun := hguard.eachState (I := Invariant policy now)
    (fun _ action h hguarded => invariant_apply h action hguarded) hinvariant
  exact hrun.mono fun _ h => h.safe

end Runs

section Races

def orphanCache (object : ObjectFile) : Cache ℕ :=
  { manifests := OrderedMap.empty
    objects := OrderedMap.empty.set "f00d" object
    holding := fun _ => none
    pass := .start
    deleted := [], rewritten := [], lost := [] }

/-- The age of an object that was written 20 days before. -/
def twentyDays : ℤ := 20 * dayMs

def lateActions : List (Action ℕ) :=
  let object : ObjectFile := { mtimeMs := 0, contents := "facts" }
  [.listManifests [], .listObjects [("f00d", object)], .put 0 "f00d" object, .decide, .unlink,
    .putManifest 0 "worktree.json" twentyDays 100]

/-- The manifest then refers to an object that the pass has deleted. -/
theorem late_put_not_safe : ¬ ∀ (policy : RetentionPolicy) (now : ℤ) (c : Cache ℕ)
    (actions : List (Action ℕ)), Begins c →
      EachState (Cache.apply policy now) Safe c actions := by
  intro h
  have hsafe := (h defaultRetentionPolicy twentyDays
    (orphanCache { mtimeMs := 0, contents := "facts" }) lateActions ⟨rfl, rfl, rfl⟩).last
  exact hsafe.manifests "worktree.json" _ "f00d" rfl rfl (List.mem_singleton_self _)

/-- An object is put anew while the pass runs, and is protected until its manifest is put. -/
theorem fresh_put_safe : EachState (Cache.apply defaultRetentionPolicy twentyDays) Safe
    (orphanCache { mtimeMs := twentyDays, contents := "facts" })
    [.put 0 "f00d" { mtimeMs := twentyDays, contents := "facts" }, .listManifests [],
      .listObjects [("f00d", { mtimeMs := twentyDays, contents := "facts" })], .decide,
      .putManifest 0 "worktree.json" twentyDays 100] := by
  refine safe_of_guarded _ _ _ _ ⟨rfl, rfl, rfl⟩ ⟨fun _ => ?_, trivial, fun manifests hpass => ?_,
    trivial, fun _ => ?_, trivial⟩
  · exact not_dueObject_of_due_eq_nil rfl
  · have hmanifests : manifests = [] := by
      cases hpass
      rfl
    subst hmanifests
    intro eviction hmem
    obtain ⟨-, object, hlisted, hgrace⟩ := of_mem_evictedObjects hmem
    have hobject : object.mtimeMs = twentyDays :=
      congrArg (fun entry => entry.2.mtimeMs) (List.mem_singleton.1 hlisted)
    rw [hobject] at hgrace
    exact absurd hgrace (by decide)
  · rintro ⟨eviction, hmem, hkind, -⟩
    rcases List.mem_append.1 hmem with hmanifest | hobject
    · simp [evictedManifests, corrupt, aged, usable, rankedManifests, withinAge] at hmanifest
    · rw [kind_evictedObjects hobject] at hkind
      cases hkind

end Races

end Mottainai.FactCache

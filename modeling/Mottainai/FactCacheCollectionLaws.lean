import Mottainai.JsonValues
import Mottainai.FactCacheSafety

/-!
# A pass of the garbage collection

A pass lists the two directories, in any order, decides what to evict, reports on what is there
before and after, and deletes file after file. What it keeps passes the same rules again: the
manifests are neither too old nor too many, they refer to the same objects, and the orphans fit the
budget in every order.
-/

namespace Mottainai.FactCache

open JsonValues JsonValues.Schema OrderedMaps

section Directories

/-- A file of a directory, or something else. The JSON is what its contents are parsed to, if they
can be parsed. -/
structure DirectoryFile where
  isFile : Bool
  mtimeMs : ℤ
  contents : String
  json : Option JsonValue

abbrev Directory : Type := OrderedMap String DirectoryFile

structure Directories where
  manifests : Directory
  objects : Directory

structure Listing (directories : Directories) where
  manifests : List (String × DirectoryFile)
  objects : List (String × DirectoryFile)
  manifestsPerm : manifests.Perm directories.manifests.entries
  objectsPerm : objects.Perm directories.objects.entries

def isRecord : JsonValue → Option Properties
  | .object properties => some properties
  | _ => none

/-- `DERIVED_FACT_CACHE_FORMAT_VERSION`. -/
def formatVersion : String := "1"

def readManifestReachability (json : Option JsonValue) : Option String := do
  let parsed ← json.bind isRecord
  let .number version ← property parsed "formatVersion" | none
  guard (version = formatVersion)
  let worktree ← (property parsed "worktree").bind isRecord
  let id ← text? (property worktree "id")
  guard (id ≠ "")
  let factKey ← (property parsed "factKey").bind isRecord
  guard (text? (property factKey "algorithm") = some "sha256")
  let value ← text? (property factKey "value")
  guard (isHexSha256 value.toList = true)
  return value

/-- `file.endsWith(".json")`. -/
def isJsonFile (file : String) : Bool := ".json".toList.isSuffixOf file.toList

def listManifestEntries (files : List (String × DirectoryFile)) : List ManifestEntry :=
  (files.filter fun entry => isJsonFile entry.1 && entry.2.isFile).map fun entry =>
    (entry.1,
      { mtimeMs := entry.2.mtimeMs
        bytes := entry.2.contents.utf8ByteSize
        factHash := readManifestReachability entry.2.json })

/-- `file.slice(0, -".json".length)`. -/
def objectHash (file : String) : String := String.ofList (file.toList.take (file.toList.length - 5))

def objectFile (hash : String) : String := hash ++ ".json"

def listObjectEntries (files : List (String × DirectoryFile)) : List ObjectEntry :=
  (files.filter fun entry =>
    isJsonFile entry.1 && isHexSha256 (objectHash entry.1).toList && entry.2.isFile).map fun entry =>
      (objectHash entry.1, { mtimeMs := entry.2.mtimeMs, contents := entry.2.contents })

end Directories

section Reports

/-- `SemanticFactCacheInspection`. -/
structure Inspection where
  manifestCount : ℕ
  manifestBytes : ℕ
  objectCount : ℕ
  objectBytes : ℕ
  reachableObjectCount : ℕ
  reachableObjectBytes : ℕ
  orphanObjectCount : ℕ
  orphanObjectBytes : ℕ
  deriving DecidableEq

/-- `SemanticFactCacheGcReport`. -/
structure GcReport where
  dryRun : Bool
  policy : RetentionPolicy
  before : Inspection
  after : Inspection
  evicted : List Eviction
  bytesReclaimed : ℕ

def sumBytes (sizes : List ℕ) : ℕ := sizes.foldr (· + ·) 0

def manifestBytes (entries : List ManifestEntry) : ℕ := sumBytes (entries.map fun entry => entry.2.bytes)

def objectBytes (entries : List ObjectEntry) : ℕ := sumBytes (entries.map fun entry => entry.2.bytes)

variable (policy : RetentionPolicy) (now : ℤ)

def reachableObjects (reachable : List String) (objects : List ObjectEntry) : List ObjectEntry :=
  objects.filter fun entry => entry.1 ∈ reachable

def protectedByGrace (reachable : List String) (objects : List ObjectEntry) : List ObjectEntry :=
  (orphans reachable objects).filter fun entry => !decide (policy.orphanGraceMs ≤ now - entry.2.mtimeMs)

/-- The orphans that are kept although their grace period is over. -/
def survivingOrphans (reachable : List String) (objects : List ObjectEntry) : List ObjectEntry :=
  ((newestFirst (·.mtimeMs) (withinObjectAge policy now reachable objects)).foldl (spend policy)
    { survivingOrphans := [], survivingBytes := 0, evicted := [] }).survivingOrphans

def inspectBefore (manifests : List ManifestEntry) (objects : List ObjectEntry) : Inspection :=
  let reached := reachable policy now manifests
  { manifestCount := manifests.length
    manifestBytes := manifestBytes manifests
    objectCount := objects.length
    objectBytes := objectBytes objects
    reachableObjectCount := (reachableObjects reached objects).length
    reachableObjectBytes := objectBytes (reachableObjects reached objects)
    orphanObjectCount := (orphans reached objects).length
    orphanObjectBytes := objectBytes (orphans reached objects) }

def inspectAfter (manifests : List ManifestEntry) (objects : List ObjectEntry) : Inspection :=
  let reached := reachable policy now manifests
  let reachableObjects := reachableObjects reached objects
  let survivingOrphans := survivingOrphans policy now reached objects
  let protectedByGrace := protectedByGrace policy now reached objects
  { manifestCount := (keptManifests policy now manifests).length
    manifestBytes := manifestBytes (keptManifests policy now manifests)
    objectCount := reachableObjects.length + survivingOrphans.length + protectedByGrace.length
    objectBytes := objectBytes reachableObjects + objectBytes survivingOrphans +
      objectBytes protectedByGrace
    reachableObjectCount := reachableObjects.length
    reachableObjectBytes := objectBytes reachableObjects
    orphanObjectCount := survivingOrphans.length + protectedByGrace.length
    orphanObjectBytes := objectBytes survivingOrphans + objectBytes protectedByGrace }

end Reports

section Pass

def unlink (directories : Directories) (eviction : Eviction) : Directories :=
  match eviction.kind with
  | .manifest => { directories with manifests := directories.manifests.delete eviction.id }
  | .object => { directories with objects := directories.objects.delete (objectFile eviction.id) }

def runSemanticFactCacheGc (policy : RetentionPolicy) (now : ℤ) (dryRun : Bool) {directories : Directories}
    (listing : Listing directories) : GcReport × Directories :=
  let manifestEntries := listManifestEntries listing.manifests
  let objectEntries := listObjectEntries listing.objects
  let evicted := evicted policy now manifestEntries objectEntries
  ({ dryRun := dryRun
     policy := policy
     before := inspectBefore policy now manifestEntries objectEntries
     after := inspectAfter policy now manifestEntries objectEntries
     evicted := evicted
     bytesReclaimed := sumBytes (evicted.map (·.bytes)) },
    if dryRun then directories else evicted.foldl unlink directories)

/-- `inspectSemanticFactCache`. -/
def inspectSemanticFactCache (policy : RetentionPolicy) (now : ℤ) {directories : Directories}
    (listing : Listing directories) : GcReport :=
  (runSemanticFactCacheGc policy now true listing).1

end Pass

open OrderedMaps.OrderedMap

section Lists

variable {α : Type} {entries kept : List (String × α)} {names : List String}

theorem sumBytes_append (left right : List ℕ) : sumBytes (left ++ right) = sumBytes left + sumBytes right := by
  induction left with
  | nil => simp [sumBytes]
  | cons size sizes ih =>
    simp only [sumBytes, List.cons_append, List.foldr_cons] at ih ⊢
    omega

theorem sumBytes_perm {left right : List ℕ} (h : left.Perm right) : sumBytes left = sumBytes right :=
  h.foldr_eq 0

theorem manifestBytes_perm {left right : List ManifestEntry} (h : left.Perm right) :
    manifestBytes left = manifestBytes right := sumBytes_perm (h.map _)

theorem objectBytes_perm {left right : List ObjectEntry} (h : left.Perm right) :
    objectBytes left = objectBytes right := sumBytes_perm (h.map _)

theorem objectBytes_append (left right : List ObjectEntry) :
    objectBytes (left ++ right) = objectBytes left + objectBytes right := by
  rw [objectBytes, List.map_append, sumBytes_append]
  rfl

theorem filter_perm_kept (hnodup : (entries.map Prod.fst).Nodup) (hkept : ∀ entry ∈ kept, entry ∈ entries)
    (hperm : (names ++ kept.map Prod.fst).Perm (entries.map Prod.fst)) :
    (entries.filter fun entry => entry.1 ∉ names).Perm kept := by
  have hdisjoint := List.nodup_append.1 (hperm.nodup_iff.2 hnodup)
  have hnodupEntries : entries.Nodup := hnodup.of_map
  refine (List.perm_ext_iff_of_nodup (hnodupEntries.filter _) hdisjoint.2.1.of_map).2 fun entry => ?_
  rw [List.mem_filter, decide_eq_true_eq]
  constructor
  · rintro ⟨hmem, hname⟩
    have hnames := hperm.mem_iff.2 (List.mem_map_of_mem hmem)
    obtain ⟨entry', hmem', heq⟩ := List.mem_map.1 ((List.mem_append.1 hnames).resolve_left hname)
    rwa [← List.inj_on_of_nodup_map hnodup (hkept entry' hmem') hmem heq]
  · intro hmem
    exact ⟨hkept entry hmem, fun hname => hdisjoint.2.2 _ hname _ (List.mem_map_of_mem hmem) rfl⟩

end Lists

section Budgets

variable {policy : RetentionPolicy} {now : ℤ} {manifests : List ManifestEntry}
  {objects : List ObjectEntry} {reached : List String}

def Eviction.sized (eviction : Eviction) : String × ℕ := (eviction.id, eviction.bytes)

def sizedManifest (entry : ManifestEntry) : String × ℕ := (entry.1, entry.2.bytes)

def sizedObject (entry : ObjectEntry) : String × ℕ := (entry.1, entry.2.bytes)

/-- What a budget has, and what it has accounted for. -/
structure Within (policy : RetentionPolicy) (budget : Budget) : Prop where
  bytes : budget.survivingBytes = objectBytes budget.survivingOrphans
  count : budget.survivingOrphans.length ≤ policy.maxOrphanObjectCount
  size : budget.survivingBytes ≤ policy.maxTotalObjectBytes

theorem within_spend {budget : Budget} (h : Within policy budget) (entry : ObjectEntry) :
    Within policy (spend policy budget entry) := by
  by_cases hfits : budget.survivingOrphans.length + 1 ≤ policy.maxOrphanObjectCount ∧
      budget.survivingBytes + entry.2.bytes ≤ policy.maxTotalObjectBytes
  · rw [spend, if_pos hfits]
    refine ⟨?_, by simpa using hfits.1, hfits.2⟩
    rw [objectBytes_append, h.bytes]
    simp [objectBytes, sumBytes]
  · rw [spend, if_neg hfits]
    exact ⟨h.bytes, h.count, h.size⟩

theorem within_foldl {budget : Budget} (h : Within policy budget) (entries : List ObjectEntry) :
    Within policy (entries.foldl (spend policy) budget) := by
  induction entries generalizing budget with
  | nil => exact h
  | cons entry entries ih => exact ih (within_spend h entry)

theorem within_empty : Within policy { survivingOrphans := [], survivingBytes := 0, evicted := [] } :=
  ⟨rfl, Nat.zero_le _, Nat.zero_le _⟩

theorem foldl_spend_perm (entries : List ObjectEntry) (budget : Budget) :
    ((entries.foldl (spend policy) budget).evicted.map Eviction.sized ++
        (entries.foldl (spend policy) budget).survivingOrphans.map sizedObject).Perm
      (budget.evicted.map Eviction.sized ++ budget.survivingOrphans.map sizedObject ++
        entries.map sizedObject) := by
  induction entries generalizing budget with
  | nil => simp
  | cons entry entries ih =>
    rw [List.foldl_cons]
    refine (ih _).trans ?_
    by_cases hfits : budget.survivingOrphans.length + 1 ≤ policy.maxOrphanObjectCount ∧
        budget.survivingBytes + entry.2.bytes ≤ policy.maxTotalObjectBytes
    · rw [spend, if_pos hfits]
      simp
    · rw [spend, if_neg hfits]
      simp only [List.map_append, List.map_cons, List.map_nil, List.append_assoc]
      refine List.Perm.append_left _ ?_
      exact (@List.perm_middle _ (sizedObject entry) (budget.survivingOrphans.map sizedObject)
        (entries.map sizedObject)).symm

/-- The survivors are some of the entries. -/
theorem foldl_spend_subset (entries : List ObjectEntry) (budget : Budget) :
    ∀ entry ∈ (entries.foldl (spend policy) budget).survivingOrphans,
      entry ∈ budget.survivingOrphans ∨ entry ∈ entries := by
  induction entries generalizing budget with
  | nil => exact fun entry hmem => .inl hmem
  | cons entry entries ih =>
    intro survivor hmem
    rcases ih _ survivor hmem with hold | hnew
    · by_cases hfits : budget.survivingOrphans.length + 1 ≤ policy.maxOrphanObjectCount ∧
          budget.survivingBytes + entry.2.bytes ≤ policy.maxTotalObjectBytes
      · rw [spend, if_pos hfits] at hold
        rcases List.mem_append.1 hold with hold | hentry
        · exact .inl hold
        · rw [List.mem_singleton.1 hentry]
          exact .inr List.mem_cons_self
      · rw [spend, if_neg hfits] at hold
        exact .inl hold
    · exact .inr (List.mem_cons_of_mem _ hnew)

theorem foldl_spend_of_fits (entries : List ObjectEntry) {budget : Budget}
    (hcount : budget.survivingOrphans.length + entries.length ≤ policy.maxOrphanObjectCount)
    (hsize : budget.survivingBytes + objectBytes entries ≤ policy.maxTotalObjectBytes) :
    (entries.foldl (spend policy) budget).evicted = budget.evicted ∧
      (entries.foldl (spend policy) budget).survivingOrphans = budget.survivingOrphans ++ entries := by
  induction entries generalizing budget with
  | nil => simp
  | cons entry entries ih =>
    have hsum : objectBytes (entry :: entries) = entry.2.bytes + objectBytes entries := rfl
    rw [hsum] at hsize
    rw [List.length_cons] at hcount
    have hspend : spend policy budget entry =
        { budget with
          survivingOrphans := budget.survivingOrphans ++ [entry]
          survivingBytes := budget.survivingBytes + entry.2.bytes } :=
      if_pos ⟨by omega, by omega⟩
    rw [List.foldl_cons, hspend]
    obtain ⟨hevicted, hkept⟩ := @ih { budget with
        survivingOrphans := budget.survivingOrphans ++ [entry]
        survivingBytes := budget.survivingBytes + entry.2.bytes }
      (by simp only [List.length_append, List.length_singleton]; omega) (by simp only; omega)
    exact ⟨hevicted, hkept.trans (by simp)⟩

end Budgets

section Partition

variable {policy : RetentionPolicy} {now : ℤ} {manifests : List ManifestEntry}
  {objects : List ObjectEntry} {reached : List String}

variable (policy now manifests) in
theorem manifests_perm : ((evictedManifests policy now manifests).map Eviction.sized ++
    (keptManifests policy now manifests).map sizedManifest).Perm (manifests.map sizedManifest) := by
  have hsized : ∀ (reason : EvictionReason) (entries : List ManifestEntry),
      (entries.map (evictManifest reason)).map Eviction.sized = entries.map sizedManifest := by
    intro reason entries
    rw [List.map_map]
    rfl
  have hranked : ((rankedManifests policy now manifests).drop policy.maxManifestCount ++
      (rankedManifests policy now manifests).take policy.maxManifestCount).Perm
        (withinAge policy now manifests) := by
    refine List.perm_append_comm.trans ?_
    rw [List.take_append_drop, rankedManifests]
    split_ifs
    · exact newestFirst_perm _ _
    · exact List.Perm.refl _
  have hage : (aged policy now manifests ++ withinAge policy now manifests).Perm (usable manifests) :=
    List.perm_append_comm.trans (List.filter_append_perm _ _)
  have hall : (corrupt manifests ++ usable manifests).Perm manifests := List.filter_append_perm _ _
  rw [evictedManifests, List.map_append, List.map_append, hsized, hsized, hsized, ← List.map_append,
    ← List.map_append, ← List.map_append, keptManifests]
  refine List.Perm.map _ ?_
  rw [List.append_assoc, List.append_assoc]
  refine (List.Perm.append_left _ ?_).trans hall
  exact (List.Perm.append_left _ hranked).trans hage

variable (policy now objects reached) in
theorem objects_perm : ((evictedObjects policy now reached objects).map Eviction.sized ++
    (reachableObjects reached objects ++ (survivingOrphans policy now reached objects ++
      protectedByGrace policy now reached objects)).map sizedObject).Perm (objects.map sizedObject) := by
  have hspend := @foldl_spend_perm policy
    (newestFirst (·.mtimeMs) (withinObjectAge policy now reached objects))
    { survivingOrphans := [], survivingBytes := 0, evicted := [] }
  have hnewest : ((newestFirst (·.mtimeMs) (withinObjectAge policy now reached objects)).map sizedObject).Perm
      ((withinObjectAge policy now reached objects).map sizedObject) := (newestFirst_perm _ _).map _
  have hage : (agedOrphans policy now reached objects ++ withinObjectAge policy now reached objects).Perm
      (evictable policy now reached objects) :=
    List.perm_append_comm.trans (List.filter_append_perm _ _)
  have hgrace : (evictable policy now reached objects ++ protectedByGrace policy now reached objects).Perm
      (orphans reached objects) := List.filter_append_perm _ _
  have hreached : (reachableObjects reached objects ++ orphans reached objects).Perm objects := by
    have hsplit := List.filter_append_perm (fun entry : ObjectEntry => decide (entry.1 ∈ reached)) objects
    simpa only [reachableObjects, orphans, decide_not] using hsplit
  have haged : ((agedOrphans policy now reached objects).map (evictObject .age)).map Eviction.sized =
      (agedOrphans policy now reached objects).map sizedObject := by
    rw [List.map_map]
    rfl
  have hevictable : ((evictedObjects policy now reached objects).map Eviction.sized ++
      (survivingOrphans policy now reached objects).map sizedObject).Perm
        ((evictable policy now reached objects).map sizedObject) := by
    rw [evictedObjects, List.map_append, haged, List.append_assoc]
    refine (List.Perm.append_left _ (hspend.trans hnewest)).trans ?_
    rw [← List.map_append]
    exact hage.map _
  rw [List.map_append, List.map_append]
  have hfirst : ((evictedObjects policy now reached objects).map Eviction.sized ++
      ((reachableObjects reached objects).map sizedObject ++
        ((survivingOrphans policy now reached objects).map sizedObject ++
          (protectedByGrace policy now reached objects).map sizedObject))).Perm
      ((reachableObjects reached objects).map sizedObject ++
        ((evictedObjects policy now reached objects).map Eviction.sized ++
          (survivingOrphans policy now reached objects).map sizedObject ++
            (protectedByGrace policy now reached objects).map sizedObject)) := by
    simp only [← List.append_assoc]
    exact (List.perm_append_comm.append_right _).append_right _
  refine hfirst.trans ((List.Perm.append_left _ (hevictable.append_right _)).trans ?_)
  rw [← List.map_append]
  refine (List.Perm.append_left _ (hgrace.map _)).trans ?_
  rw [← List.map_append]
  exact hreached.map _

end Partition

section SecondPass

variable {policy : RetentionPolicy} {now : ℤ} {manifests manifests' : List ManifestEntry}
  {objects objects' : List ObjectEntry} {reached reached' : List String}

theorem mem_of_mem_keptManifests {entry : ManifestEntry} (h : entry ∈ keptManifests policy now manifests) :
    entry ∈ withinAge policy now manifests := mem_rankedManifests.1 (List.mem_of_mem_take h)

def keptObjects (policy : RetentionPolicy) (now : ℤ) (reached : List String) (objects : List ObjectEntry) :
    List ObjectEntry :=
  reachableObjects reached objects ++
    (survivingOrphans policy now reached objects ++ protectedByGrace policy now reached objects)

section

variable (h : manifests'.Perm (keptManifests policy now manifests))
include h

theorem withinAge_of_kept : withinAge policy now manifests' = manifests' := by
  have hkept : ∀ entry ∈ manifests', entry ∈ withinAge policy now manifests := fun entry hmem =>
    mem_of_mem_keptManifests (h.mem_iff.1 hmem)
  have husable : usable manifests' = manifests' := List.filter_eq_self.2 fun entry hmem =>
    (List.mem_filter.1 (List.mem_filter.1 (hkept entry hmem)).1).2
  rw [withinAge, husable]
  exact List.filter_eq_self.2 fun entry hmem => (List.mem_filter.1 (hkept entry hmem)).2

theorem length_kept_le : manifests'.length ≤ policy.maxManifestCount := by
  rw [h.length_eq, keptManifests, List.length_take]
  exact Nat.min_le_left _ _

theorem rankedManifests_of_kept : rankedManifests policy now manifests' = manifests' := by
  have hlength := length_kept_le h
  rw [rankedManifests, withinAge_of_kept h, if_neg (by omega)]

theorem keptManifests_of_kept : keptManifests policy now manifests' = manifests' := by
  rw [keptManifests, rankedManifests_of_kept h, List.take_of_length_le (length_kept_le h)]

theorem evictedManifests_of_kept : evictedManifests policy now manifests' = [] := by
  have hperm := (manifests_perm policy now manifests').length_eq
  rw [keptManifests_of_kept h] at hperm
  simpa using hperm

theorem mem_reachable_of_kept (hash : String) :
    hash ∈ reachable policy now manifests' ↔ hash ∈ reachable policy now manifests := by
  rw [reachable, reachable, keptManifests_of_kept h]
  exact (h.filterMap _).mem_iff

end

theorem mem_survivingOrphans {entry : ObjectEntry} (h : entry ∈ survivingOrphans policy now reached objects) :
    entry ∈ withinObjectAge policy now reached objects := by
  rcases foldl_spend_subset _ _ entry h with hnone | hmem
  · cases hnone
  · exact (newestFirst_perm _ _).mem_iff.1 hmem

theorem within_survivingOrphans :
    (survivingOrphans policy now reached objects).length ≤ policy.maxOrphanObjectCount ∧
      objectBytes (survivingOrphans policy now reached objects) ≤ policy.maxTotalObjectBytes := by
  have hwithin := @within_foldl policy _ within_empty
    (newestFirst (·.mtimeMs) (withinObjectAge policy now reached objects))
  refine ⟨hwithin.count, ?_⟩
  rw [survivingOrphans, ← hwithin.bytes]
  exact hwithin.size

theorem orphans_congr (hreached : ∀ hash, hash ∈ reached' ↔ hash ∈ reached) (objects : List ObjectEntry) :
    orphans reached' objects = orphans reached objects := by
  simp only [orphans, hreached]

theorem orphans_keptObjects : orphans reached (keptObjects policy now reached objects) =
    survivingOrphans policy now reached objects ++ protectedByGrace policy now reached objects := by
  rw [keptObjects, orphans, List.filter_append]
  have hnone : (reachableObjects reached objects).filter (fun entry => decide (entry.1 ∉ reached)) = [] := by
    refine List.filter_eq_nil_iff.2 fun entry hmem => ?_
    simpa using (List.mem_filter.1 hmem).2
  have hall : ∀ entry ∈ survivingOrphans policy now reached objects ++
      protectedByGrace policy now reached objects, entry ∈ orphans reached objects := by
    intro entry hmem
    rcases List.mem_append.1 hmem with hmem | hmem
    · exact (List.mem_filter.1 (List.mem_filter.1 (mem_survivingOrphans hmem)).1).1
    · exact (List.mem_filter.1 hmem).1
  rw [hnone, List.nil_append]
  exact List.filter_eq_self.2 fun entry hmem => (List.mem_filter.1 (hall entry hmem)).2

section

variable (hreached : ∀ hash, hash ∈ reached' ↔ hash ∈ reached)
include hreached

theorem orphans_perm_of_kept (h : objects'.Perm (keptObjects policy now reached objects)) :
    (orphans reached' objects').Perm
      (survivingOrphans policy now reached objects ++ protectedByGrace policy now reached objects) := by
  rw [orphans_congr hreached, ← orphans_keptObjects]
  exact h.filter _

/-- The orphans that could be evicted the next time are those that survived. -/
theorem evictable_perm_of_kept (h : objects'.Perm (keptObjects policy now reached objects)) :
    (evictable policy now reached' objects').Perm (survivingOrphans policy now reached objects) := by
  have hsurvivors : (survivingOrphans policy now reached objects).filter
      (fun entry => decide (policy.orphanGraceMs ≤ now - entry.2.mtimeMs)) =
        survivingOrphans policy now reached objects :=
    List.filter_eq_self.2 fun entry hmem =>
      (List.mem_filter.1 (List.mem_filter.1 (mem_survivingOrphans hmem)).1).2
  have hgrace : (protectedByGrace policy now reached objects).filter
      (fun entry => decide (policy.orphanGraceMs ≤ now - entry.2.mtimeMs)) = [] := by
    refine List.filter_eq_nil_iff.2 fun entry hmem => ?_
    have hprotected := (List.mem_filter.1 hmem).2
    simpa using hprotected
  have hfilter := (orphans_perm_of_kept hreached h).filter
    fun entry => decide (policy.orphanGraceMs ≤ now - entry.2.mtimeMs)
  rw [List.filter_append, hsurvivors, hgrace, List.append_nil] at hfilter
  exact hfilter

theorem withinObjectAge_of_kept (h : objects'.Perm (keptObjects policy now reached objects)) :
    withinObjectAge policy now reached' objects' = evictable policy now reached' objects' :=
  List.filter_eq_self.2 fun _ hmem =>
    (List.mem_filter.1 (mem_survivingOrphans ((evictable_perm_of_kept hreached h).mem_iff.1 hmem))).2

/-- The survivors fit the budget, in whatever order they are considered. -/
theorem survivingOrphans_of_kept (h : objects'.Perm (keptObjects policy now reached objects)) :
    (survivingOrphans policy now reached' objects').Perm (survivingOrphans policy now reached objects) := by
  have hperm := (newestFirst_perm (·.mtimeMs) (evictable policy now reached' objects')).trans
    (evictable_perm_of_kept hreached h)
  obtain ⟨hcount, hsize⟩ := @within_survivingOrphans policy now objects reached
  obtain ⟨-, hkept⟩ := @foldl_spend_of_fits policy
    (newestFirst (·.mtimeMs) (evictable policy now reached' objects'))
    { survivingOrphans := [], survivingBytes := 0, evicted := [] }
    (by rw [hperm.length_eq]; simpa using hcount) (by rw [objectBytes_perm hperm]; simpa using hsize)
  rw [survivingOrphans, withinObjectAge_of_kept hreached h, hkept]
  exact hperm

theorem reachableObjects_of_kept (h : objects'.Perm (keptObjects policy now reached objects)) :
    (reachableObjects reached' objects').Perm (reachableObjects reached objects) := by
  have hsame : reachableObjects reached' objects' = reachableObjects reached objects' := by
    simp only [reachableObjects, hreached]
  have hself : (reachableObjects reached objects).filter (fun entry => decide (entry.1 ∈ reached)) =
      reachableObjects reached objects := List.filter_eq_self.2 fun entry hmem => (List.mem_filter.1 hmem).2
  have hnone : (survivingOrphans policy now reached objects ++
      protectedByGrace policy now reached objects).filter (fun entry => decide (entry.1 ∈ reached)) = [] := by
    refine List.filter_eq_nil_iff.2 fun entry hmem => ?_
    rw [← orphans_keptObjects] at hmem
    simpa using (List.mem_filter.1 hmem).2
  have hfilter := h.filter fun entry => decide (entry.1 ∈ reached)
  rw [keptObjects, List.filter_append, hself, hnone, List.append_nil] at hfilter
  rw [hsame]
  exact hfilter

theorem evictedObjects_of_kept (h : objects'.Perm (keptObjects policy now reached objects)) :
    evictedObjects policy now reached' objects' = [] := by
  have hperm := (objects_perm policy now objects' reached').length_eq
  have hlength := h.length_eq
  have hreachable := (reachableObjects_of_kept hreached h).length_eq
  have hsurvivors := (survivingOrphans_of_kept hreached h).length_eq
  have horphans := (orphans_perm_of_kept hreached h).length_eq
  have hevictable := (evictable_perm_of_kept hreached h).length_eq
  have hgrace : (evictable policy now reached' objects').length +
      (protectedByGrace policy now reached' objects').length = (orphans reached' objects').length := by
    rw [← List.length_append]
    exact (List.filter_append_perm _ _).length_eq
  simp only [keptObjects, List.length_append, List.length_map] at hperm hlength horphans
  exact List.length_eq_zero_iff.1 (by omega)

end

theorem inspectBefore_of_kept (hmanifests : manifests'.Perm (keptManifests policy now manifests))
    (hobjects : objects'.Perm (keptObjects policy now (reachable policy now manifests) objects)) :
    inspectBefore policy now manifests' objects' = inspectAfter policy now manifests objects := by
  have hreached := mem_reachable_of_kept hmanifests
  have hreachable := reachableObjects_of_kept hreached hobjects
  have horphans := orphans_perm_of_kept hreached hobjects
  have hcounts := hobjects.length_eq
  have hbytes := objectBytes_perm hobjects
  have horphanCount := horphans.length_eq
  have horphanBytes := objectBytes_perm horphans
  simp only [keptObjects, List.length_append, objectBytes_append] at hcounts hbytes horphanCount horphanBytes
  simp only [inspectBefore, inspectAfter, hmanifests.length_eq, manifestBytes_perm hmanifests, hcounts, hbytes,
    hreachable.length_eq, objectBytes_perm hreachable, horphanCount, horphanBytes, Nat.add_assoc]

end SecondPass

section Files

variable {files : List (String × DirectoryFile)}

theorem objectFile_injective : Function.Injective objectFile := by
  intro hash hash' h
  have hlists := congrArg String.toList h
  rw [objectFile, objectFile, String.toList_append, String.toList_append] at hlists
  exact String.toList_inj.1 (List.append_cancel_right hlists)

variable {files' : List (String × DirectoryFile)} {file : String}

theorem objectFile_objectHash (h : isJsonFile file = true) :
    objectFile (objectHash file) = file := by
  obtain ⟨start, hstart⟩ := List.isSuffixOf_iff_suffix.1 h
  have hlength : file.toList.length - 5 = start.length := by
    rw [← hstart, List.length_append]
    exact Nat.add_sub_cancel _ 5
  apply String.toList_inj.1
  rw [objectFile, objectHash, String.toList_append, String.toList_ofList, hlength, ← hstart,
    List.take_left]

theorem names_listManifestEntries (files : List (String × DirectoryFile)) :
    ((listManifestEntries files).map Prod.fst).Sublist (files.map Prod.fst) := by
  rw [listManifestEntries, List.map_map]
  exact List.filter_sublist.map _

theorem files_listObjectEntries (files : List (String × DirectoryFile)) :
    ((listObjectEntries files).map fun entry => objectFile entry.1).Sublist (files.map Prod.fst) := by
  have hnames : ∀ entry ∈ files.filter (fun entry : String × DirectoryFile =>
      isJsonFile entry.1 && isHexSha256 (objectHash entry.1).toList && entry.2.isFile),
      objectFile (objectHash entry.1) = entry.1 := by
    intro entry hmem
    have hboth := (List.mem_filter.1 hmem).2
    rw [Bool.and_eq_true, Bool.and_eq_true] at hboth
    exact objectFile_objectHash hboth.1.1
  have hmap : (listObjectEntries files).map (fun entry => objectFile entry.1) =
      (files.filter fun entry : String × DirectoryFile =>
        isJsonFile entry.1 && isHexSha256 (objectHash entry.1).toList && entry.2.isFile).map Prod.fst := by
    rw [listObjectEntries, List.map_map]
    exact List.map_congr_left hnames
  rw [hmap]
  exact List.filter_sublist.map _

theorem nodup_listManifestEntries (h : (files.map Prod.fst).Nodup) :
    ((listManifestEntries files).map Prod.fst).Nodup := h.sublist (names_listManifestEntries files)

theorem nodup_listObjectEntries (h : (files.map Prod.fst).Nodup) :
    ((listObjectEntries files).map Prod.fst).Nodup := by
  have hnodup := h.sublist (files_listObjectEntries files)
  have hmap : (listObjectEntries files).map (fun entry => objectFile entry.1) =
      ((listObjectEntries files).map Prod.fst).map objectFile := by
    rw [List.map_map]
    rfl
  rw [hmap] at hnodup
  exact hnodup.of_map

theorem listManifestEntries_filter (names : List String) (files : List (String × DirectoryFile)) :
    listManifestEntries (files.filter fun entry => entry.1 ∉ names) =
      (listManifestEntries files).filter fun entry => entry.1 ∉ names := by
  rw [listManifestEntries, listManifestEntries, List.filter_map, List.filter_filter, List.filter_filter]
  congr 2
  funext entry
  exact Bool.and_comm _ _

theorem mem_map_objectFile (h : isJsonFile file = true) (hashes : List String) :
    file ∈ hashes.map objectFile ↔ objectHash file ∈ hashes := by
  constructor
  · intro hmem
    obtain ⟨hash, hhash, heq⟩ := List.mem_map.1 hmem
    have hsame : hash = objectHash file := objectFile_injective (heq.trans (objectFile_objectHash h).symm)
    rwa [← hsame]
  · intro hmem
    exact List.mem_map.2 ⟨objectHash file, hmem, objectFile_objectHash h⟩

theorem listObjectEntries_filter (hashes : List String) (files : List (String × DirectoryFile)) :
    listObjectEntries (files.filter fun entry => entry.1 ∉ hashes.map objectFile) =
      (listObjectEntries files).filter fun entry => entry.1 ∉ hashes := by
  rw [listObjectEntries, listObjectEntries, List.filter_map, List.filter_filter, List.filter_filter]
  congr 1
  refine List.filter_congr fun entry _ => ?_
  cases hjson : isJsonFile entry.1 with
  | false => simp
  | true =>
    simp only [Function.comp_apply, mem_map_objectFile hjson]
    exact Bool.and_comm _ _

theorem listManifestEntries_perm (h : files.Perm files') :
    (listManifestEntries files).Perm (listManifestEntries files') := (h.filter _).map _

theorem listObjectEntries_perm (h : files.Perm files') :
    (listObjectEntries files).Perm (listObjectEntries files') := (h.filter _).map _

variable (evictions : List Eviction)

/-- What the deletions leave of the manifests. -/
theorem manifests_foldl_unlink (directories : Directories) :
    (evictions.foldl unlink directories).manifests.entries = directories.manifests.entries.filter
      fun entry => entry.1 ∉ (evictions.filter (·.kind = .manifest)).map (·.id) := by
  induction evictions generalizing directories with
  | nil => simp
  | cons eviction evictions ih =>
    rw [List.foldl_cons, ih]
    cases hkind : eviction.kind with
    | manifest =>
      simp only [unlink, hkind, OrderedMap.delete, OrderedMap.filter, List.filter_filter, List.filter_cons,
        decide_true, if_true, List.map_cons, List.mem_cons]
      refine List.filter_congr fun entry _ => ?_
      simp [Bool.and_comm]
    | object => simp [unlink, hkind]

/-- What the deletions leave of the objects. -/
theorem objects_foldl_unlink (directories : Directories) :
    (evictions.foldl unlink directories).objects.entries = directories.objects.entries.filter
      fun entry => entry.1 ∉ ((evictions.filter (·.kind = .object)).map (·.id)).map objectFile := by
  induction evictions generalizing directories with
  | nil => simp
  | cons eviction evictions ih =>
    rw [List.foldl_cons, ih]
    cases hkind : eviction.kind with
    | manifest => simp [unlink, hkind]
    | object =>
      simp only [unlink, hkind, OrderedMap.delete, OrderedMap.filter, List.filter_filter, List.filter_cons,
        decide_true, if_true, List.map_cons, List.mem_cons]
      refine List.filter_congr fun entry _ => ?_
      simp [Bool.and_comm]

end Files

section Laws

variable {policy : RetentionPolicy} {now : ℤ} {directories : Directories}

/-- What a pass has to do: what it evicts and what it leaves are what was listed, what has to be
protected is not evicted, the budget is met, the report is exact, and nothing is left to be done. -/
structure ExactPass (policy : RetentionPolicy) (now : ℤ) {directories : Directories}
    (listing : Listing directories) (report : GcReport) (remaining : Directories) : Prop where
  manifests : ∀ listing' : Listing remaining,
    ((report.evicted.filter (·.kind = .manifest)).map Eviction.sized ++
      (listManifestEntries listing'.manifests).map sizedManifest).Perm
        ((listManifestEntries listing.manifests).map sizedManifest)
  objects : ∀ listing' : Listing remaining,
    ((report.evicted.filter (·.kind = .object)).map Eviction.sized ++
      (listObjectEntries listing'.objects).map sizedObject).Perm
        ((listObjectEntries listing.objects).map sizedObject)
  referred : ∀ listing' : Listing remaining, ∀ manifest ∈ listManifestEntries listing'.manifests,
    ∀ eviction ∈ report.evicted, eviction.kind = .object → manifest.2.factHash ≠ some eviction.id
  grace : ∀ eviction ∈ report.evicted, eviction.kind = .object →
    ∀ object, (eviction.id, object) ∈ listObjectEntries listing.objects →
      policy.orphanGraceMs ≤ now - object.mtimeMs
  caps : ∀ listing' : Listing remaining,
    let survivors := evictable policy now
      (reachable policy now (listManifestEntries listing'.manifests)) (listObjectEntries listing'.objects)
    survivors.length ≤ policy.maxOrphanObjectCount ∧ objectBytes survivors ≤ policy.maxTotalObjectBytes
  after : ∀ listing' : Listing remaining,
    report.after = (inspectSemanticFactCache policy now listing').before
  bytesReclaimed : report.bytesReclaimed + (report.after.manifestBytes + report.after.objectBytes) =
    report.before.manifestBytes + report.before.objectBytes
  second : ∀ (dryRun : Bool) (listing' : Listing remaining),
    (runSemanticFactCacheGc policy now dryRun listing').1.evicted = []

variable (manifests : List ManifestEntry) (listing : Listing directories)

theorem filter_kind_evicted (objects : List ObjectEntry) :
    (evicted policy now manifests objects).filter (·.kind = .manifest) =
        evictedManifests policy now manifests ∧
      (evicted policy now manifests objects).filter (·.kind = .object) =
        evictedObjects policy now (reachable policy now manifests) objects := by
  have hmanifests : ∀ eviction ∈ evictedManifests policy now manifests, eviction.kind = .manifest :=
    fun eviction => kind_evictedManifests
  have hobjects : ∀ eviction ∈ evictedObjects policy now (reachable policy now manifests) objects,
      eviction.kind = .object := fun eviction => kind_evictedObjects
  rw [evicted, List.filter_append, List.filter_append]
  constructor
  · rw [List.filter_eq_self.2 fun eviction hmem => by simp [hmanifests eviction hmem],
      List.filter_eq_nil_iff.2 fun eviction hmem => by simp [hobjects eviction hmem], List.append_nil]
  · rw [List.filter_eq_nil_iff.2 fun eviction hmem => by simp [hmanifests eviction hmem],
      List.filter_eq_self.2 fun eviction hmem => by simp [hobjects eviction hmem], List.nil_append]

theorem map_fst_sized {Entry : Type} {sized : Entry → String × ℕ} {name : Entry → String}
    (hsized : ∀ entry, (sized entry).1 = name entry) (entries : List Entry) :
    (entries.map sized).map Prod.fst = entries.map name := by
  rw [List.map_map]
  exact List.map_congr_left fun entry _ => hsized entry

theorem subset_keptManifests :
    ∀ entry ∈ keptManifests policy now manifests, entry ∈ manifests := fun _ hmem =>
  (List.mem_filter.1 (List.mem_filter.1 (mem_of_mem_keptManifests hmem)).1).1

theorem subset_keptObjects (reached : List String) (objects : List ObjectEntry) :
    ∀ entry ∈ keptObjects policy now reached objects, entry ∈ objects := by
  intro entry hmem
  rcases List.mem_append.1 hmem with hmem | hmem
  · exact (List.mem_filter.1 hmem).1
  · rw [← orphans_keptObjects] at hmem
    rcases List.mem_append.1 (List.mem_filter.1 hmem).1 with hmem | hmem
    · exact (List.mem_filter.1 hmem).1
    · rcases List.mem_append.1 hmem with hmem | hmem
      · exact (List.mem_filter.1 (List.mem_filter.1 (List.mem_filter.1 (mem_survivingOrphans hmem)).1).1).1
      · exact (List.mem_filter.1 (List.mem_filter.1 hmem).1).1

def remainingOf (policy : RetentionPolicy) (now : ℤ) (listing : Listing directories) : Directories :=
  (runSemanticFactCacheGc policy now false listing).2

theorem manifests_remaining (listing' : Listing (remainingOf policy now listing)) :
    (listManifestEntries listing'.manifests).Perm
      (keptManifests policy now (listManifestEntries listing.manifests)) := by
  have hnames : (listing.manifests.map Prod.fst).Nodup :=
    (listing.manifestsPerm.map _).nodup_iff.2 directories.manifests.nodup
  have hperm := (manifests_perm policy now (listManifestEntries listing.manifests)).map Prod.fst
  rw [List.map_append, map_fst_sized (fun _ => rfl), map_fst_sized (fun _ => rfl),
    map_fst_sized (fun _ => rfl)] at hperm
  refine List.Perm.trans ?_ (filter_perm_kept (nodup_listManifestEntries hnames) (subset_keptManifests _) hperm)
  rw [← listManifestEntries_filter]
  refine listManifestEntries_perm (listing'.manifestsPerm.trans ?_)
  have hentries := manifests_foldl_unlink (evicted policy now (listManifestEntries listing.manifests)
    (listObjectEntries listing.objects)) directories
  rw [(filter_kind_evicted _ _).1] at hentries
  exact (hentries ▸ List.Perm.refl _ : (remainingOf policy now listing).manifests.entries.Perm _).trans
    (listing.manifestsPerm.symm.filter _)

theorem objects_remaining (listing' : Listing (remainingOf policy now listing)) :
    (listObjectEntries listing'.objects).Perm
      (keptObjects policy now (reachable policy now (listManifestEntries listing.manifests))
        (listObjectEntries listing.objects)) := by
  have hnames : (listing.objects.map Prod.fst).Nodup :=
    (listing.objectsPerm.map _).nodup_iff.2 directories.objects.nodup
  have hperm := (objects_perm policy now (listObjectEntries listing.objects)
    (reachable policy now (listManifestEntries listing.manifests))).map Prod.fst
  rw [List.map_append, map_fst_sized (fun _ => rfl), map_fst_sized (fun _ => rfl),
    map_fst_sized (fun _ => rfl)] at hperm
  refine List.Perm.trans ?_ (filter_perm_kept (nodup_listObjectEntries hnames) (subset_keptObjects _ _) hperm)
  rw [← listObjectEntries_filter]
  refine listObjectEntries_perm (listing'.objectsPerm.trans ?_)
  have hentries := objects_foldl_unlink (evicted policy now (listManifestEntries listing.manifests)
    (listObjectEntries listing.objects)) directories
  rw [(filter_kind_evicted _ _).2] at hentries
  exact (hentries ▸ List.Perm.refl _ : (remainingOf policy now listing).objects.entries.Perm _).trans
    (listing.objectsPerm.symm.filter _)

theorem sumBytes_sized (manifests : List ManifestEntry) (objects : List ObjectEntry) :
    sumBytes ((evicted policy now manifests objects).map (·.bytes)) +
        (manifestBytes (keptManifests policy now manifests) +
          objectBytes (keptObjects policy now (reachable policy now manifests) objects)) =
      manifestBytes manifests + objectBytes objects := by
  have hmanifests := sumBytes_perm ((manifests_perm policy now manifests).map Prod.snd)
  have hobjects := sumBytes_perm
    ((objects_perm policy now objects (reachable policy now manifests)).map Prod.snd)
  rw [List.map_append, sumBytes_append, List.map_map, List.map_map, List.map_map] at hmanifests hobjects
  rw [evicted, List.map_append, sumBytes_append]
  simp only [manifestBytes, objectBytes]
  have hsum := congrArg₂ (· + ·) hmanifests hobjects
  refine Eq.trans ?_ hsum
  exact Nat.add_add_add_comm _ _ _ _

theorem evicted_run (dryRun : Bool) (listing : Listing directories) :
    (runSemanticFactCacheGc policy now dryRun listing).1.evicted =
      evicted policy now (listManifestEntries listing.manifests) (listObjectEntries listing.objects) := rfl

/-- A pass is exact, and the pass after it has nothing to do. -/
theorem runSemanticFactCacheGc_exact (policy : RetentionPolicy) (now : ℤ) (directories : Directories)
    (listing : Listing directories) :
    ExactPass policy now listing (runSemanticFactCacheGc policy now false listing).1
      (runSemanticFactCacheGc policy now false listing).2 where
  manifests listing' := by
    have hperm := manifests_perm policy now (listManifestEntries listing.manifests)
    have hremaining := manifests_remaining listing listing'
    rw [evicted_run, (filter_kind_evicted _ _).1]
    exact (List.Perm.append_left _ (hremaining.map _)).trans hperm
  objects listing' := by
    have hperm := objects_perm policy now (listObjectEntries listing.objects)
      (reachable policy now (listManifestEntries listing.manifests))
    have hremaining := objects_remaining listing listing'
    rw [evicted_run, (filter_kind_evicted _ _).2]
    exact (List.Perm.append_left _ (hremaining.map _)).trans hperm
  referred listing' manifest hmanifest eviction heviction hkind hhash := by
    have hevicted : eviction ∈ evictedObjects policy now
        (reachable policy now (listManifestEntries listing.manifests)) (listObjectEntries listing.objects) := by
      rw [← (filter_kind_evicted _ _).2]
      exact List.mem_filter.2 ⟨heviction, decide_eq_true hkind⟩
    have hkept := (manifests_remaining listing listing').mem_iff.1 hmanifest
    exact (of_mem_evictedObjects hevicted).1 (List.mem_filterMap.2 ⟨manifest, hkept, hhash⟩)
  grace eviction heviction hkind object hobject := by
    have hevicted : eviction ∈ evictedObjects policy now
        (reachable policy now (listManifestEntries listing.manifests)) (listObjectEntries listing.objects) := by
      rw [← (filter_kind_evicted _ _).2]
      exact List.mem_filter.2 ⟨heviction, decide_eq_true hkind⟩
    obtain ⟨-, object', hobject', hgrace⟩ := of_mem_evictedObjects hevicted
    have hnames : (listing.objects.map Prod.fst).Nodup :=
      (listing.objectsPerm.map _).nodup_iff.2 directories.objects.nodup
    have hsame := List.inj_on_of_nodup_map (nodup_listObjectEntries hnames) hobject hobject' rfl
    cases hsame
    exact hgrace
  caps listing' := by
    have hperm := evictable_perm_of_kept (mem_reachable_of_kept (manifests_remaining listing listing'))
      (objects_remaining listing listing')
    obtain ⟨hcount, hsize⟩ := @within_survivingOrphans policy now (listObjectEntries listing.objects)
      (reachable policy now (listManifestEntries listing.manifests))
    refine ⟨?_, ?_⟩
    · rw [hperm.length_eq]
      exact hcount
    · rw [objectBytes_perm hperm]
      exact hsize
  after listing' := (inspectBefore_of_kept (manifests_remaining listing listing')
    (objects_remaining listing listing')).symm
  bytesReclaimed := by
    have hsum := @sumBytes_sized policy now (listManifestEntries listing.manifests)
      (listObjectEntries listing.objects)
    rw [keptObjects, objectBytes_append, objectBytes_append, ← Nat.add_assoc (objectBytes _)] at hsum
    exact hsum
  second dryRun listing' := by
    have hmanifests := manifests_remaining listing listing'
    have hobjects := evictedObjects_of_kept (mem_reachable_of_kept hmanifests) (objects_remaining listing listing')
    rw [evicted_run]
    simp only [evicted, evictedManifests_of_kept hmanifests, hobjects, List.append_nil]

end Laws

end Mottainai.FactCache

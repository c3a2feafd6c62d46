import Mathlib.Data.List.Sort
import Mathlib.Data.List.Induction
import Mathlib.Data.List.Pairwise
import Mottainai.JavaScriptValues

/-!
# Unix principals of repository instances

The `repository_principals` table and the three operations that write it, each one immediate
transaction. A table carries its own schema constraints: a statement that violates one throws and
rolls back. UIDs and GIDs are scanned separately, but those of a row are the same number, and at
most one row that has not been retired holds it. Reusing an ID retires the row that held it, and the
scan for a free ID counts retired rows as taken.
-/

namespace Mottainai.RepositoryPrincipal

open JavaScriptValues

/-- `RepositoryPrincipalLifecycleState`. -/
inductive LifecycleState where
  | active
  | quarantined
  | available
  | retired
  deriving DecidableEq, Repr

/-- The text stored in `lifecycle_state`. -/
def LifecycleState.text : LifecycleState → String
  | .active => "active"
  | .quarantined => "quarantined"
  | .available => "available"
  | .retired => "retired"

/-- `REPOSITORY_PRINCIPAL_SCHEMA_VERSION`. -/
def schemaVersion : ℤ := 1

/-- One row of `repository_principals`; a nullable column is an option. -/
structure Row where
  allocationId : String
  instanceId : String
  uid : ℤ
  gid : ℤ
  internalUsername : String
  lifecycleState : LifecycleState
  schemaVersion : ℤ
  allocatedAt : ℤ
  releasedAt : Option ℤ
  cleanupProvenAt : Option ℤ
  reassignedAt : Option ℤ
  reassignedToAllocationId : Option String
  deriving DecidableEq, Repr

namespace Row

def validLifecycle (row : Row) : Bool :=
  match row.lifecycleState with
  | .active => row.releasedAt.isNone && row.cleanupProvenAt.isNone &&
      row.reassignedAt.isNone && row.reassignedToAllocationId.isNone
  | .quarantined => row.releasedAt.isSome && row.cleanupProvenAt.isNone &&
      row.reassignedAt.isNone && row.reassignedToAllocationId.isNone
  | .available => row.releasedAt.isSome && row.cleanupProvenAt.isSome &&
      row.reassignedAt.isNone && row.reassignedToAllocationId.isNone
  | .retired => row.releasedAt.isSome && row.cleanupProvenAt.isSome &&
      row.reassignedAt.isSome && row.reassignedToAllocationId.isSome

/-- The `CHECK` constraints of the table. -/
def checks (row : Row) : Bool :=
  decide (1000 ≤ row.uid ∧ row.uid ≤ 65535) && decide (1000 ≤ row.gid ∧ row.gid ≤ 65535) &&
    decide (1 ≤ row.internalUsername.toList.length ∧ row.internalUsername.toList.length ≤ 32) &&
    decide (row.schemaVersion = RepositoryPrincipal.schemaVersion) && row.validLifecycle

/-- `lifecycle_state IN ('active', 'quarantined')`. -/
def authoritative (row : Row) : Bool :=
  row.lifecycleState = .active || row.lifecycleState = .quarantined

/-- `SET lifecycle_state = 'retired', reassigned_at = ?, reassigned_to_allocation_id = ?`. -/
def retire (row : Row) (reassignedAt : ℤ) (allocationId : String) : Row :=
  { row with
    lifecycleState := .retired, reassignedAt := some reassignedAt,
    reassignedToAllocationId := some allocationId }

/-- `SET lifecycle_state = 'quarantined', released_at = ?, cleanup_proven_at = NULL`. -/
def quarantine (row : Row) (releasedAt : ℤ) : Row :=
  { row with
    lifecycleState := .quarantined, releasedAt := some releasedAt, cleanupProvenAt := none }

/-- `SET lifecycle_state = 'available', cleanup_proven_at = ?`. -/
def makeAvailable (row : Row) (provenAt : ℤ) : Row :=
  { row with lifecycleState := .available, cleanupProvenAt := some provenAt }

/-- The join condition of the ambiguity checks. -/
def overlaps (left right : Row) : Bool := left.uid = right.uid || left.gid = right.gid

end Row

/-- The `PRIMARY KEY`, `UNIQUE` and `CHECK` constraints of the table. -/
def Constraints (rows : List Row) : Prop :=
  (rows.map (·.allocationId)).Nodup ∧ (rows.map (·.instanceId)).Nodup ∧
    (rows.map (·.internalUsername)).Nodup ∧
    ((rows.filter (·.authoritative)).map (·.uid)).Nodup ∧
    ((rows.filter (·.authoritative)).map (·.gid)).Nodup ∧
    ∀ row ∈ rows, row.checks = true

instance (rows : List Row) : Decidable (Constraints rows) :=
  inferInstanceAs (Decidable (_ ∧ _))

/-- The table `repository_principals`. -/
structure Table where
  rows : List Row
  constraints : Constraints rows

namespace Table

def empty : Table := ⟨[], by decide⟩

def write (rows : List Row) : Except String Table :=
  if h : Constraints rows then .ok ⟨rows, h⟩ else .error "constraint failed"

/-- `INSERT INTO repository_principals`. -/
def insert (t : Table) (row : Row) : Except String Table := write (t.rows ++ [row])

/-- `UPDATE repository_principals SET … WHERE …`. -/
def update (t : Table) (condition : Row → Bool) (set : Row → Row) : Except String Table :=
  write (t.rows.map fun row => if condition row then set row else row)

/-- `SELECT * FROM repository_principals WHERE instance_id = ?`. -/
def selectInstance (t : Table) (instanceId : String) : Option Row :=
  t.rows.find? (·.instanceId = instanceId)

end Table

/-- `/^[a-z_][a-z0-9_-]{0,31}$/u`. -/
def validUsername (name : String) : Bool :=
  match name.toList with
  | [] => false
  | c :: cs => (c.isLower || c = '_') && cs.all (fun c => c.isLower || c.isDigit || c = '_' || c = '-') &&
      decide (cs.length ≤ 31)

/-- Decode a row, refusing one that the code could not have written. -/
def toRepositoryPrincipalRecord (row : Row) : Except String Row :=
  if row.schemaVersion ≠ schemaVersion ∨ row.allocationId.toList.length < 1 ∨
      isSafeInteger row.uid = false ∨ row.uid < 1000 ∨ 65535 < row.uid ∨
      isSafeInteger row.gid = false ∨ row.gid < 1000 ∨ 65535 < row.gid ∨
      validUsername row.internalUsername = false ∨
      isSafeInteger row.allocatedAt = false ∨
      row.releasedAt.any (fun at_ => !isSafeInteger at_) = true ∨
      row.cleanupProvenAt.any (fun at_ => !isSafeInteger at_) = true ∨
      row.reassignedAt.any (fun at_ => !isSafeInteger at_) = true then
    .error "repository principal state is corrupt or uses an unsupported schema version"
  else if row.validLifecycle = false ∨ row.reassignedToAllocationId = some "" then
    .error "repository principal lifecycle state is corrupt"
  else .ok row

def assertNoRepositoryPrincipalAmbiguity (t : Table) : Except String Unit :=
  let activeAvailableCollision := t.rows.any fun authoritative => t.rows.any fun available =>
    authoritative.overlaps available && authoritative.authoritative &&
      decide (available.lifecycleState = .available)
  let duplicateReusable := t.rows.any fun left => t.rows.any fun right =>
    decide (left.allocationId < right.allocationId) && left.overlaps right &&
      decide (left.lifecycleState = .available) && decide (right.lifecycleState = .available)
  if activeAvailableCollision then
    .error "repository principal allocation state is ambiguous: reusable identity overlaps an authoritative identity"
  else if duplicateReusable then
    .error "repository principal allocation state is ambiguous: duplicate reusable identity"
  else .ok ()

structure AllocateInput where
  instanceId : String
  minId : Option ℤ := none
  maxId : Option ℤ := none
  allocatedAt : Option ℤ := none

structure ReleaseInput where
  instanceId : String
  releasedAt : Option ℤ := none

structure ProveCleanupInput where
  instanceId : String
  provenAt : Option ℤ := none

inductive RefusalReason where
  | invalidRange
  | noIdentitiesAvailable
  | repositoryNotEligible
  deriving DecidableEq, Repr

/-- `AllocateRepositoryPrincipalResult`. -/
inductive AllocateResult where
  | ok (principal : Row)
  | refused (reason : RefusalReason) (detail : String)
  deriving DecidableEq, Repr

structure IdRange where
  minId : ℤ
  maxId : ℤ
  deriving DecidableEq, Repr

def defaultMinId : ℤ := 10000

def defaultMaxId : ℤ := 60000

def principalAllocationRange (input : AllocateInput) : Option IdRange :=
  let minId := input.minId.getD defaultMinId
  let maxId := input.maxId.getD defaultMaxId
  if isSafeInteger minId = false ∨ isSafeInteger maxId = false ∨ minId < 1000 ∨ 65535 < maxId ∨
      maxId < minId then none
  else some ⟨minId, maxId⟩

def principalRepositoryKey (instanceId : String) : Bool :=
  decide (0 < utf16Length instanceId) && decide (utf16Length instanceId ≤ 256) &&
    !instanceId.toList.contains '\x00'

def assertPrincipalTimestamp (value : ℤ) (field : String) : Except String Unit :=
  if isSafeInteger value = false ∨ value < 0 then
    .error s!"repository principal {field} is invalid"
  else .ok ()

/-- What one allocation draws from the random source: `crypto.randomUUID()`, and
`crypto.randomBytes(8)` as hexadecimal digits. -/
structure Randomness where
  uuid : String
  hex : String
  uuid_nonempty : uuid ≠ ""
  hex_digits : hex.toList.all (fun c => c.isDigit || ('a' ≤ c && c ≤ 'f')) = true
  hex_length : hex.toList.length = 16

def Randomness.internalUsername (random : Randomness) : String :=
  "mottainai-repo-" ++ random.hex

variable (localeCompare : String → String → ℤ)

/-- The order in which reusable principals are taken. -/
def compareReusable (left right : Row) : ℤ :=
  if left.uid - right.uid ≠ 0 then left.uid - right.uid
  else if left.gid - right.gid ≠ 0 then left.gid - right.gid
  else localeCompare left.instanceId right.instanceId

def blocked (id : Row → ℤ) (principals : List Row) : List ℤ :=
  (principals.filter (fun principal => principal.lifecycleState ≠ .available)).map id

def reusablePrincipals (range : IdRange) (principals : List Row) : List Row :=
  principals.filter fun principal =>
    decide (principal.lifecycleState = .available) &&
      !(blocked Row.uid principals).contains principal.uid &&
      !(blocked Row.gid principals).contains principal.gid &&
      decide (range.minId ≤ principal.uid) && decide (principal.uid ≤ range.maxId) &&
      decide (range.minId ≤ principal.gid) && decide (principal.gid ≤ range.maxId)

def reusable (range : IdRange) (principals : List Row) : Option Row :=
  ((reusablePrincipals range principals).insertionSort
    (fun left right => compareReusable localeCompare left right ≤ 0)).head?

/-- `for (let candidate = range.minId; candidate <= range.maxId; candidate += 1)`. -/
def candidates (range : IdRange) : List ℤ :=
  (List.range (range.maxId - range.minId + 1).toNat).map (fun (n : ℕ) => range.minId + (n : ℤ))

def firstUnblocked (range : IdRange) (blockedIds : List ℤ) : Option ℤ :=
  (candidates range).find? (fun candidate => !blockedIds.contains candidate)

/-- The IDs of the reusable principal, or else the first free ones, each scanned on
its own. -/
def chooseIds (range : IdRange) (principals : List Row) : Option ℤ × Option ℤ :=
  match reusable localeCompare range principals with
  | some principal => (some principal.uid, some principal.gid)
  | none => (firstUnblocked range (blocked Row.uid principals),
      firstUnblocked range (blocked Row.gid principals))

def allocatedRow (instanceId : String) (uid gid allocatedAt : ℤ) (random : Randomness) : Row where
  allocationId := random.uuid
  instanceId := instanceId
  uid := uid
  gid := gid
  internalUsername := random.internalUsername
  lifecycleState := .active
  schemaVersion := schemaVersion
  allocatedAt := allocatedAt
  releasedAt := none
  cleanupProvenAt := none
  reassignedAt := none
  reassignedToAllocationId := none

def writeAllocation (t : Table) (reused : Option Row) (row : Row) : Except String Table :=
  match reused with
  | some principal => do
    let t ← t.update
      (fun r => decide (r.allocationId = principal.allocationId) &&
        decide (r.lifecycleState = .available))
      (fun r => r.retire row.allocatedAt row.allocationId)
    t.insert row
  | none => t.insert row

/-- The part of the allocation that runs when the instance has no principal yet. -/
def allocateNew (t : Table) (instanceId : String) (range : IdRange) (allocatedAt : ℤ)
    (random : Randomness) : Except String (AllocateResult × Table) := do
  assertNoRepositoryPrincipalAmbiguity t
  let principals ← t.rows.mapM toRepositoryPrincipalRecord
  match chooseIds localeCompare range principals with
  | (some uid, some gid) =>
      let t ← writeAllocation t (reusable localeCompare range principals)
        (allocatedRow instanceId uid gid allocatedAt random)
      match t.selectInstance instanceId with
      | some row =>
          let principal ← toRepositoryPrincipalRecord row
          pure (.ok principal, t)
      | none => throw "TypeError: Cannot read properties of undefined"
  | _ => pure (.refused .noIdentitiesAvailable "the requested principal range is exhausted", t)

/-- `allocateRepositoryPrincipal`; `observed` is the table `repository_instances`. -/
def allocateRepositoryPrincipal (observed : List String) (t : Table) (input : AllocateInput)
    (now : ℤ) (random : Randomness) : Except String (AllocateResult × Table) :=
  if !principalRepositoryKey input.instanceId then
    pure (.refused .repositoryNotEligible "canonical repository identity is missing or invalid", t)
  else match principalAllocationRange input with
  | none => pure (.refused .invalidRange
      "principal UID/GID range must be an inclusive unprivileged range", t)
  | some range => do
    let allocatedAt := input.allocatedAt.getD now
    assertPrincipalTimestamp allocatedAt "allocation timestamp"
    if !observed.contains input.instanceId then
      pure (.refused .repositoryNotEligible
        "canonical repository identity has not been observed by the repository identity authority", t)
    else match t.selectInstance input.instanceId with
    | some existingRow => do
      let existing ← toRepositoryPrincipalRecord existingRow
      if existing.lifecycleState = .active then pure (.ok existing, t)
      else pure (.refused .repositoryNotEligible
        s!"repository principal is {existing.lifecycleState.text}; explicit cleanup or reconciliation is required", t)
    | none => allocateNew localeCompare t input.instanceId range allocatedAt random

def readBack (t : Table) (instanceId : String) : Except String (Row × Table) :=
  match t.selectInstance instanceId with
  | some row => do
    let updated ← toRepositoryPrincipalRecord row
    pure (updated, t)
  | none => throw "TypeError: Cannot read properties of undefined"

/-- `releaseRepositoryPrincipal`. -/
def releaseRepositoryPrincipal (t : Table) (input : ReleaseInput) (now : ℤ) :
    Except String (Row × Table) := do
  let releasedAt := input.releasedAt.getD now
  assertPrincipalTimestamp releasedAt "release timestamp"
  match t.selectInstance input.instanceId with
  | none => throw "repository principal does not exist"
  | some row => do
    let current ← toRepositoryPrincipalRecord row
    if current.lifecycleState ≠ .active then pure (current, t)
    else
      let t ← t.update
        (fun r => decide (r.instanceId = input.instanceId) && decide (r.lifecycleState = .active))
        (fun r => r.quarantine releasedAt)
      readBack t input.instanceId

/-- `proveRepositoryPrincipalCleanup`. -/
def proveRepositoryPrincipalCleanup (t : Table) (input : ProveCleanupInput) (now : ℤ) :
    Except String (Row × Table) := do
  let provenAt := input.provenAt.getD now
  assertPrincipalTimestamp provenAt "cleanup proof timestamp"
  match t.selectInstance input.instanceId with
  | none => throw "repository principal does not exist"
  | some row => do
    let current ← toRepositoryPrincipalRecord row
    if current.lifecycleState = .active then
      throw "cannot prove cleanup for an active repository principal"
    else if current.lifecycleState = .available then pure (current, t)
    else
      let t ← t.update
        (fun r => decide (r.instanceId = input.instanceId) &&
          decide (r.lifecycleState = .quarantined))
        (fun r => r.makeAvailable provenAt)
      readBack t input.instanceId

structure Database where
  observed : List String
  principals : Table

def Database.empty : Database := ⟨[], Table.empty⟩

inductive Operation where
  | observe (instanceId : String)
  | allocate (input : AllocateInput) (now : ℤ) (random : Randomness)
  | release (input : ReleaseInput) (now : ℤ)
  | proveCleanup (input : ProveCleanupInput) (now : ℤ)

/-- The table an operation leaves behind; a thrown error leaves the old one. -/
def committed {β : Type} (t : Table) : Except String (β × Table) → Table
  | .ok (_, t') => t'
  | .error _ => t

def Operation.apply (db : Database) : Operation → Database
  | .observe instanceId => { db with observed := db.observed ++ [instanceId] }
  | .allocate input now random => { db with
      principals := committed db.principals
        (allocateRepositoryPrincipal localeCompare db.observed db.principals input now random) }
  | .release input now => { db with
      principals := committed db.principals
        (releaseRepositoryPrincipal db.principals input now) }
  | .proveCleanup input now => { db with
      principals := committed db.principals
        (proveRepositoryPrincipalCleanup db.principals input now) }

def runOperations (operations : List Operation) : Database :=
  operations.foldl (Operation.apply localeCompare) Database.empty

/-- Rows that were not handed over to a later allocation. -/
def Row.live (row : Row) : Prop := row.lifecycleState ≠ .retired

/-- A row that decoding accepts. -/
structure Row.WellFormed (row : Row) : Prop where
  version : row.schemaVersion = RepositoryPrincipal.schemaVersion
  allocationId : row.allocationId ≠ ""
  uid : 1000 ≤ row.uid ∧ row.uid ≤ 65535
  gid : 1000 ≤ row.gid ∧ row.gid ≤ 65535
  username : validUsername row.internalUsername = true
  allocatedAt : isSafeInteger row.allocatedAt = true
  releasedAt : row.releasedAt.all isSafeInteger = true
  cleanupProvenAt : row.cleanupProvenAt.all isSafeInteger = true
  reassignedAt : row.reassignedAt.all isSafeInteger = true
  lifecycle : row.validLifecycle = true
  reassignedTo : row.reassignedToAllocationId ≠ some ""

/-- What holds of every table the operations can produce. -/
structure Consistent (rows : List Row) : Prop where
  sameId : ∀ row ∈ rows, row.uid = row.gid
  liveUnique : rows.Pairwise (fun a b => a.live → b.live → a.uid ≠ b.uid)
  wellFormed : ∀ row ∈ rows, row.WellFormed

theorem consistent_nil : Consistent [] := ⟨by simp, List.Pairwise.nil, by simp⟩

section Decoding

theorem isSafeInteger_of_id {n : ℤ} (h : 1000 ≤ n ∧ n ≤ 65535) : isSafeInteger n = true := by
  unfold isSafeInteger maxSafeInteger
  rw [decide_eq_true_iff]
  omega

private theorem any_unsafe_iff {value : Option ℤ} :
    (value.any (fun n => !isSafeInteger n) = true) ↔ ¬ value.all isSafeInteger = true := by
  cases value <;> simp

private theorem length_lt_one_iff {s : String} : s.toList.length < 1 ↔ s = "" := by
  simp

theorem toRepositoryPrincipalRecord_eq_ok {row row' : Row} :
    toRepositoryPrincipalRecord row = .ok row' ↔ row' = row ∧ row.WellFormed := by
  unfold toRepositoryPrincipalRecord
  constructor
  · intro h
    split_ifs at h with hcolumns hlifecycle
    simp only [any_unsafe_iff, length_lt_one_iff, not_or, not_not] at hcolumns hlifecycle
    obtain ⟨hv, ha, -, hu, hu', -, hg, hg', hn, ht, hr, hc, hre⟩ := hcolumns
    simp only [not_lt, Bool.not_eq_false] at *
    cases h
    exact ⟨rfl, ⟨hv, ha, ⟨hu, hu'⟩, ⟨hg, hg'⟩, hn, ht, hr, hc, hre, hlifecycle.1, hlifecycle.2⟩⟩
  · rintro ⟨rfl, h⟩
    rw [if_neg, if_neg]
    · simp [h.lifecycle, h.reassignedTo]
    · have hu := isSafeInteger_of_id h.uid
      have hg := isSafeInteger_of_id h.gid
      obtain ⟨hu1, hu2⟩ := h.uid
      obtain ⟨hg1, hg2⟩ := h.gid
      simp only [any_unsafe_iff, length_lt_one_iff, not_or, not_not, h.version, h.allocationId,
        hu, hg, h.username, h.allocatedAt, h.releasedAt, h.cleanupProvenAt, h.reassignedAt]
      simp only [Bool.true_eq_false, not_false_eq_true, true_and, not_lt, and_true]
      exact ⟨hu1, hu2, hg1, hg2⟩

theorem toRepositoryPrincipalRecord_ok {row : Row} (h : row.WellFormed) :
    toRepositoryPrincipalRecord row = .ok row :=
  toRepositoryPrincipalRecord_eq_ok.2 ⟨rfl, h⟩

theorem mapM_toRepositoryPrincipalRecord {rows rows' : List Row} :
    rows.mapM toRepositoryPrincipalRecord = .ok rows' ↔
      rows' = rows ∧ ∀ row ∈ rows, row.WellFormed := by
  rw [mapM_eq_ok fun a b h => (toRepositoryPrincipalRecord_eq_ok.1 h).1]
  simp [toRepositoryPrincipalRecord_eq_ok]

theorem assertPrincipalTimestamp_eq_ok {value : ℤ} {field : String} {u : Unit} :
    assertPrincipalTimestamp value field = .ok u ↔ isSafeInteger value = true ∧ 0 ≤ value := by
  unfold assertPrincipalTimestamp
  split_ifs with h
  · simp only [false_iff]
    rcases h with h | h
    · simp [h]
    · omega
  · simp only [not_or, Bool.not_eq_false, not_lt] at h
    simp [h]

end Decoding

section Writes

theorem Table.write_eq_ok {rows : List Row} {t : Table} :
    Table.write rows = .ok t ↔ t.rows = rows := by
  unfold Table.write
  constructor
  · intro h
    split_ifs at h
    cases h
    rfl
  · rintro rfl
    rw [dif_pos t.constraints]

variable {rows : List Row} {t t' : Table} {row : Row}

theorem Table.insert_eq_ok :
    t.insert row = .ok t' ↔ t'.rows = t.rows ++ [row] := Table.write_eq_ok

theorem Table.update_eq_ok {condition : Row → Bool} {set : Row → Row} :
    t.update condition set = .ok t' ↔
      t'.rows = t.rows.map (fun row => if condition row then set row else row) :=
  Table.write_eq_ok

def retireReused (reused : Option Row) (row : Row) (r : Row) : Row :=
  match reused with
  | some principal =>
      if decide (r.allocationId = principal.allocationId) &&
          decide (r.lifecycleState = .available) then
        r.retire row.allocatedAt row.allocationId
      else r
  | none => r

theorem writeAllocation_rows {reused : Option Row} (h : writeAllocation t reused row = .ok t') :
    t'.rows = t.rows.map (retireReused reused row) ++ [row] := by
  cases reused with
  | none =>
    rw [writeAllocation, Table.insert_eq_ok] at h
    rw [h, show retireReused none row = id from rfl, List.map_id]
  | some principal =>
    simp only [writeAllocation, bind_eq_ok, Table.update_eq_ok, Table.insert_eq_ok] at h
    obtain ⟨t₁, h₁, h⟩ := h
    rw [h, h₁]
    rfl

/-- Updating rows in place keeps the table consistent, if no row changes its IDs and no
retired row comes back. -/
theorem Consistent.map (h : Consistent rows) {f : Row → Row}
    (hid : ∀ r, (f r).uid = r.uid ∧ (f r).gid = r.gid) (hlive : ∀ r, (f r).live → r.live)
    (hwell : ∀ r ∈ rows, r.WellFormed → (f r).WellFormed) : Consistent (rows.map f) := by
  refine ⟨?_, ?_, ?_⟩
  · rw [List.forall_mem_map]
    intro r hr
    rw [(hid r).1, (hid r).2]
    exact h.sameId r hr
  · rw [List.pairwise_map]
    refine h.liveUnique.imp fun {a b} hab ha hb => ?_
    rw [(hid a).1, (hid b).1]
    exact hab (hlive a ha) (hlive b hb)
  · rw [List.forall_mem_map]
    exact fun r hr => hwell r hr (h.wellFormed r hr)

theorem Consistent.append (h : Consistent rows) (hid : row.uid = row.gid) (hwell : row.WellFormed)
    (hfree : ∀ r ∈ rows, r.live → r.uid ≠ row.uid) : Consistent (rows ++ [row]) := by
  refine ⟨?_, ?_, ?_⟩
  · simpa [or_imp, forall_and, hid] using h.sameId
  · rw [List.pairwise_append]
    refine ⟨h.liveUnique, List.pairwise_singleton .., fun a ha b hb hlive _ => ?_⟩
    rw [List.mem_singleton.1 hb]
    exact hfree a ha hlive
  · simpa [or_imp, forall_and, hwell] using h.wellFormed

theorem Consistent.eq_of_uid (h : Consistent rows) {a b : Row} (ha : a ∈ rows) (hb : b ∈ rows)
    (hla : a.live) (hlb : b.live) (huid : a.uid = b.uid) : a = b := by
  by_contra hne
  have hsymm : Std.Symm (fun a b : Row => a.live → b.live → a.uid ≠ b.uid) :=
    ⟨fun a b hab hb ha heq => hab ha hb heq.symm⟩
  exact h.liveUnique.forall ha hb hne hla hlb huid

end Writes

section Choice

variable (localeCompare : String → String → ℤ) {range : IdRange} {rows : List Row}
variable {p : Row} {n : ℤ} {ids : List ℤ}

theorem mem_blocked {id : Row → ℤ} :
    n ∈ blocked id rows ↔ ∃ r ∈ rows, r.lifecycleState ≠ .available ∧ id r = n := by
  simp [blocked, and_assoc]

theorem mem_reusablePrincipals :
    p ∈ reusablePrincipals range rows ↔ p ∈ rows ∧ p.lifecycleState = .available ∧
      p.uid ∉ blocked Row.uid rows ∧ p.gid ∉ blocked Row.gid rows ∧
      (range.minId ≤ p.uid ∧ p.uid ≤ range.maxId) ∧ range.minId ≤ p.gid ∧ p.gid ≤ range.maxId := by
  simp only [reusablePrincipals, List.mem_filter, Bool.and_eq_true, decide_eq_true_eq,
    Bool.not_eq_true', List.contains_eq_mem, decide_eq_false_iff_not]
  tauto

theorem reusable_mem (h : reusable localeCompare range rows = some p) :
    p ∈ reusablePrincipals range rows :=
  (List.perm_insertionSort _ _).subset (List.mem_of_mem_head? h)

theorem reusable_eq_none :
    reusable localeCompare range rows = none ↔ reusablePrincipals range rows = [] := by
  rw [reusable, List.head?_eq_none_iff, ← List.length_eq_zero_iff, List.length_insertionSort,
    List.length_eq_zero_iff]

theorem mem_candidates : n ∈ candidates range ↔ range.minId ≤ n ∧ n ≤ range.maxId := by
  simp only [candidates, List.mem_map, List.mem_range]
  constructor
  · rintro ⟨m, hm, rfl⟩
    omega
  · rintro ⟨hlo, hhi⟩
    exact ⟨(n - range.minId).toNat, by omega, by omega⟩

theorem firstUnblocked_eq_some (h : firstUnblocked range ids = some n) :
    (range.minId ≤ n ∧ n ≤ range.maxId) ∧ n ∉ ids := by
  have hfree := List.find?_some h
  simp only [List.contains_eq_mem, Bool.not_eq_true', decide_eq_false_iff_not] at hfree
  exact ⟨mem_candidates.1 (List.mem_of_find?_eq_some h), hfree⟩

theorem firstUnblocked_eq_none :
    firstUnblocked range ids = none ↔ ∀ n, range.minId ≤ n → n ≤ range.maxId → n ∈ ids := by
  simp [firstUnblocked, List.find?_eq_none, mem_candidates]

/-- The two scans look at the same numbers. -/
theorem Consistent.blocked_gid (h : Consistent rows) :
    blocked Row.gid rows = blocked Row.uid rows :=
  List.map_congr_left fun r hr => (h.sameId r (List.mem_filter.1 hr).1).symm

theorem Consistent.mem_reusable (h : Consistent rows) (hp : p ∈ rows)
    (havailable : p.lifecycleState = .available)
    (hrange : range.minId ≤ p.uid ∧ p.uid ≤ range.maxId) (hfree : p.uid ∉ blocked Row.uid rows) :
    p ∈ reusablePrincipals range rows := by
  have hid := h.sameId p hp
  rw [mem_reusablePrincipals, h.blocked_gid, ← hid]
  exact ⟨hp, havailable, hfree, hfree, hrange, hrange⟩

/-- The chosen UID and GID are one number of the range, which no row holds except
available ones, and those only if one of them is reused. -/
theorem Consistent.chooseIds_spec (h : Consistent rows) {uid gid : ℤ}
    (hids : chooseIds localeCompare range rows = (some uid, some gid)) :
    uid = gid ∧ (range.minId ≤ uid ∧ uid ≤ range.maxId) ∧
      ∀ r ∈ rows, r.live → r.uid = uid → reusable localeCompare range rows = some r := by
  unfold chooseIds at hids
  cases hre : reusable localeCompare range rows with
  | some p =>
    rw [hre] at hids
    cases hids
    obtain ⟨hp, havailable, huid, -, hrange, -⟩ :=
      mem_reusablePrincipals.1 (reusable_mem localeCompare hre)
    refine ⟨h.sameId p hp, hrange, fun r hr hlive heq => ?_⟩
    rw [h.eq_of_uid hr hp hlive (by simp [Row.live, havailable]) heq]
  | none =>
    rw [hre, h.blocked_gid] at hids
    obtain ⟨hu, hg⟩ := Prod.mk.inj hids
    obtain ⟨hrange, hfree⟩ := firstUnblocked_eq_some hu
    refine ⟨Option.some.inj (hu.symm.trans hg), hrange, fun r hr hlive heq => ?_⟩
    subst heq
    -- a live row on a free ID is available, hence reusable, but nothing was reusable
    have havailable : r.lifecycleState = .available := by
      by_contra hstate
      exact hfree (mem_blocked.2 ⟨r, hr, hstate, rfl⟩)
    have hmem := h.mem_reusable hr havailable hrange hfree
    rw [(reusable_eq_none localeCompare).1 hre] at hmem
    cases hmem

end Choice

section Operations

variable (localeCompare : String → String → ℤ)
variable {at_ : ℤ} {rows : List Row} {t t' : Table} {row : Row} {input : AllocateInput} {now : ℤ}
variable {range : IdRange} {record : Row}

/-- Everything an allocation can do to the table: nothing, or the write of one chosen
ID for an instance that had no row. -/
theorem allocate_cases {observed : List String} {random : Randomness} {result : AllocateResult}
    (h : allocateRepositoryPrincipal localeCompare observed t input now random = .ok (result, t')) :
    t' = t ∨ ∃ range uid gid, principalAllocationRange input = some range ∧
      isSafeInteger (input.allocatedAt.getD now) = true ∧
      chooseIds localeCompare range t.rows = (some uid, some gid) ∧
      t'.rows = t.rows.map (retireReused (reusable localeCompare range t.rows)
        (allocatedRow input.instanceId uid gid (input.allocatedAt.getD now) random)) ++
        [allocatedRow input.instanceId uid gid (input.allocatedAt.getD now) random] := by
  unfold allocateRepositoryPrincipal at h
  split at h
  · cases h
    exact Or.inl rfl
  split at h
  · cases h
    exact Or.inl rfl
  rename_i range hrange
  simp only [bind_eq_ok, assertPrincipalTimestamp_eq_ok] at h
  obtain ⟨-, ⟨hsafe, -⟩, h⟩ := h
  split at h
  · cases h
    exact Or.inl rfl
  split at h
  · simp only [bind_eq_ok] at h
    obtain ⟨existing, -, h⟩ := h
    split at h <;> cases h <;> exact Or.inl rfl
  · simp only [allocateNew, bind_eq_ok, mapM_toRepositoryPrincipalRecord] at h
    obtain ⟨-, -, principals, ⟨rfl, -⟩, h⟩ := h
    split at h
    · rename_i uid gid hids
      simp only [bind_eq_ok] at h
      obtain ⟨t₁, hwrite, h⟩ := h
      split at h
      · simp only [bind_eq_ok] at h
        obtain ⟨principal, -, h⟩ := h
        cases h
        exact Or.inr ⟨range, uid, gid, hrange, hsafe, hids, writeAllocation_rows hwrite⟩
      · cases h
    · cases h
      exact Or.inl rfl

theorem release_cases {input : ReleaseInput}
    (h : releaseRepositoryPrincipal t input now = .ok (record, t')) :
    t' = t ∨ isSafeInteger (input.releasedAt.getD now) = true ∧
      t'.rows = t.rows.map (fun r =>
        if decide (r.instanceId = input.instanceId) && decide (r.lifecycleState = .active) then
          r.quarantine (input.releasedAt.getD now)
        else r) := by
  simp only [releaseRepositoryPrincipal, bind_eq_ok, assertPrincipalTimestamp_eq_ok] at h
  obtain ⟨-, ⟨hsafe, -⟩, h⟩ := h
  split at h
  · cases h
  simp only [bind_eq_ok] at h
  obtain ⟨current, -, h⟩ := h
  split at h
  · cases h
    exact Or.inl rfl
  · simp only [bind_eq_ok, Table.update_eq_ok, readBack] at h
    obtain ⟨t₁, hrows, h⟩ := h
    split at h
    · simp only [bind_eq_ok] at h
      obtain ⟨updated, -, h⟩ := h
      cases h
      exact Or.inr ⟨hsafe, hrows⟩
    · cases h

theorem proveCleanup_cases {input : ProveCleanupInput}
    (h : proveRepositoryPrincipalCleanup t input now = .ok (record, t')) :
    t' = t ∨ isSafeInteger (input.provenAt.getD now) = true ∧
      t'.rows = t.rows.map (fun r =>
        if decide (r.instanceId = input.instanceId) && decide (r.lifecycleState = .quarantined) then
          r.makeAvailable (input.provenAt.getD now)
        else r) := by
  simp only [proveRepositoryPrincipalCleanup, bind_eq_ok, assertPrincipalTimestamp_eq_ok] at h
  obtain ⟨-, ⟨hsafe, -⟩, h⟩ := h
  split at h
  · cases h
  simp only [bind_eq_ok] at h
  obtain ⟨current, -, h⟩ := h
  split at h
  · cases h
  split at h
  · cases h
    exact Or.inl rfl
  · simp only [bind_eq_ok, Table.update_eq_ok, readBack] at h
    obtain ⟨t₁, hrows, h⟩ := h
    split at h
    · simp only [bind_eq_ok] at h
      obtain ⟨updated, -, h⟩ := h
      cases h
      exact Or.inr ⟨hsafe, hrows⟩
    · cases h

theorem Row.WellFormed.quarantine (h : row.WellFormed) (hstate : row.lifecycleState = .active)
    (hat : isSafeInteger at_ = true) : (row.quarantine at_).WellFormed := by
  have hlife := h.lifecycle
  simp only [Row.validLifecycle, hstate, Bool.and_eq_true] at hlife
  exact { h with
    releasedAt := by simp [Row.quarantine, hat]
    cleanupProvenAt := by simp [Row.quarantine]
    lifecycle := by simp [Row.validLifecycle, Row.quarantine, hlife.1.2, hlife.2] }

theorem Row.WellFormed.makeAvailable (h : row.WellFormed)
    (hstate : row.lifecycleState = .quarantined) (hat : isSafeInteger at_ = true) :
    (row.makeAvailable at_).WellFormed := by
  have hlife := h.lifecycle
  simp only [Row.validLifecycle, hstate, Bool.and_eq_true] at hlife
  exact { h with
    cleanupProvenAt := by simp [Row.makeAvailable, hat]
    lifecycle := by
      simp [Row.validLifecycle, Row.makeAvailable, hlife.1.1.1, hlife.1.2, hlife.2] }

theorem Row.WellFormed.retire (h : row.WellFormed) (hstate : row.lifecycleState = .available)
    (hat : isSafeInteger at_ = true) {allocationId : String} (hid : allocationId ≠ "") :
    (row.retire at_ allocationId).WellFormed := by
  have hlife := h.lifecycle
  simp only [Row.validLifecycle, hstate, Bool.and_eq_true] at hlife
  exact { h with
    reassignedAt := by simp [Row.retire, hat]
    reassignedTo := by simp [Row.retire, hid]
    lifecycle := by simp [Row.validLifecycle, Row.retire, hlife.1.1.1, hlife.1.1.2] }

private theorem isLower_of_hex {c : Char} (hlo : 'a' ≤ c) (hhi : c ≤ 'f') : c.isLower = true := by
  have hz : c.val ≤ 'z'.val := UInt32.le_trans hhi (by decide)
  exact Bool.and_eq_true_iff.2 ⟨decide_eq_true hlo, decide_eq_true hz⟩

variable (random : Randomness)

/-- The generated user name is one that decoding accepts. -/
theorem validUsername_internalUsername : validUsername random.internalUsername = true := by
  have hlist : random.internalUsername.toList =
      'm' :: ("ottainai-repo-".toList ++ random.hex.toList) := by
    simp [Randomness.internalUsername, String.toList_append]
  have hlength : ("ottainai-repo-".toList ++ random.hex.toList).length ≤ 31 := by
    rw [List.length_append, random.hex_length]
    decide
  have hprefix : "ottainai-repo-".toList.all
      (fun c => c.isLower || c.isDigit || c = '_' || c = '-') = true := by decide
  have hhex := random.hex_digits
  rw [List.all_eq_true] at hhex
  simp only [validUsername, hlist, List.all_append, hlength, hprefix, Bool.true_and]
  simp only [Bool.and_eq_true, decide_true, and_true, List.all_eq_true]
  refine ⟨by decide, fun c hc => ?_⟩
  have hdigit := hhex c hc
  simp only [Bool.or_eq_true, Bool.and_eq_true, decide_eq_true_eq] at hdigit ⊢
  rcases hdigit with hdigit | ⟨hlo, hhi⟩
  · exact Or.inl (Or.inl (Or.inr hdigit))
  · exact Or.inl (Or.inl (Or.inl (isLower_of_hex hlo hhi)))

theorem allocatedRow_wellFormed {instanceId : String} {uid gid at_ : ℤ}
    (huid : 1000 ≤ uid ∧ uid ≤ 65535) (hgid : 1000 ≤ gid ∧ gid ≤ 65535)
    (hat : isSafeInteger at_ = true) :
    (allocatedRow instanceId uid gid at_ random).WellFormed where
  version := rfl
  allocationId := random.uuid_nonempty
  uid := huid
  gid := hgid
  username := validUsername_internalUsername random
  allocatedAt := hat
  releasedAt := rfl
  cleanupProvenAt := rfl
  reassignedAt := rfl
  lifecycle := rfl
  reassignedTo := by simp [allocatedRow]

theorem principalAllocationRange_bounds (h : principalAllocationRange input = some range) :
    1000 ≤ range.minId ∧ range.maxId ≤ 65535 := by
  unfold principalAllocationRange at h
  simp only at h
  split_ifs at h with hbad
  cases h
  simp only [not_or, not_lt] at hbad
  exact ⟨hbad.2.2.1, hbad.2.2.2.1⟩

theorem retireReused_ids (reused : Option Row) (row r : Row) :
    (retireReused reused row r).uid = r.uid ∧ (retireReused reused row r).gid = r.gid := by
  cases reused with
  | none => exact ⟨rfl, rfl⟩
  | some principal =>
    simp only [retireReused]
    split <;> exact ⟨rfl, rfl⟩

theorem live_of_retireReused {reused : Option Row} {row r : Row}
    (h : (retireReused reused row r).live) : r.live := by
  cases reused with
  | none => exact h
  | some principal =>
    simp only [retireReused] at h
    split at h
    · exact absurd rfl h
    · exact h

theorem not_live_retireReused {row p : Row} (havailable : p.lifecycleState = .available) :
    ¬ (retireReused (some p) row p).live := by
  simp [retireReused, havailable, Row.live, Row.retire]

theorem Consistent.allocate (h : Consistent rows)
    (hrange : 1000 ≤ range.minId ∧ range.maxId ≤ 65535) {uid gid at_ : ℤ}
    (hat : isSafeInteger at_ = true) (instanceId : String) (random : Randomness)
    (hids : chooseIds localeCompare range rows = (some uid, some gid)) :
    Consistent (rows.map (retireReused (reusable localeCompare range rows)
      (allocatedRow instanceId uid gid at_ random)) ++
        [allocatedRow instanceId uid gid at_ random]) := by
  obtain ⟨rfl, hin, hfree⟩ := h.chooseIds_spec localeCompare hids
  have hbounds : 1000 ≤ uid ∧ uid ≤ 65535 := by omega
  have hmap := h.map (retireReused_ids (reusable localeCompare range rows)
    (allocatedRow instanceId uid uid at_ random)) (fun r => live_of_retireReused)
    (fun r _ hr => by
      cases hre : reusable localeCompare range rows with
      | none => exact hr
      | some p =>
        simp only [retireReused]
        split_ifs with hcond
        · simp only [Bool.and_eq_true, decide_eq_true_eq] at hcond
          exact hr.retire hcond.2 hat random.uuid_nonempty
        · exact hr)
  refine hmap.append rfl (allocatedRow_wellFormed random hbounds hbounds hat) ?_
  rw [List.forall_mem_map]
  intro r hr hlive heq
  rw [(retireReused_ids _ _ r).1] at heq
  -- the only live row with the chosen ID is the one that was just retired
  have hre := hfree r hr (live_of_retireReused hlive) heq
  rw [hre] at hlive
  exact not_live_retireReused (mem_reusablePrincipals.1 (reusable_mem localeCompare hre)).2.1 hlive

/-- A transition of the rows of an instance that are in some state, if they are not retired. -/
theorem Consistent.transition {state : LifecycleState} {change : Row → Row} (h : Consistent rows)
    (instanceId : String) (hlive : state ≠ .retired)
    (hid : ∀ r, (change r).uid = r.uid ∧ (change r).gid = r.gid)
    (hchange : ∀ r : Row, r.WellFormed → r.lifecycleState = state → (change r).WellFormed) :
    Consistent (rows.map fun r =>
      if decide (r.instanceId = instanceId) && decide (r.lifecycleState = state) then change r
      else r) := by
  simp only [Bool.and_eq_true, decide_eq_true_eq]
  refine h.map (fun r => ?_) (fun r hr => ?_) (fun r _ hr => ?_)
  · split_ifs
    · exact hid r
    · exact ⟨rfl, rfl⟩
  · split_ifs at hr with hcond
    · exact hcond.2.trans_ne hlive
    · exact hr
  · split_ifs with hcond
    · exact hchange r hr hcond.2
    · exact hr

theorem Operation.apply_consistent (operation : Operation) {db : Database}
    (h : Consistent db.principals.rows) :
    Consistent (operation.apply localeCompare db).principals.rows := by
  cases operation with
  | observe instanceId => exact h
  | allocate input now random =>
    simp only [Operation.apply]
    cases hcall : allocateRepositoryPrincipal localeCompare db.observed db.principals input now
        random with
    | error e => exact h
    | ok outcome =>
      obtain ⟨result, t'⟩ := outcome
      rcases allocate_cases localeCompare hcall with rfl | ⟨range, uid, gid, hr, hat, hids, hrows⟩
      · exact h
      · rw [committed, hrows]
        exact h.allocate localeCompare (principalAllocationRange_bounds hr) hat _ _ hids
  | release input now =>
    simp only [Operation.apply]
    cases hcall : releaseRepositoryPrincipal db.principals input now with
    | error e => exact h
    | ok outcome =>
      obtain ⟨record, t'⟩ := outcome
      rcases release_cases hcall with rfl | ⟨hat, hrows⟩
      · exact h
      · rw [committed, hrows]
        exact h.transition _ nofun (fun _ => ⟨rfl, rfl⟩) fun _ hr hstate => hr.quarantine hstate hat
  | proveCleanup input now =>
    simp only [Operation.apply]
    cases hcall : proveRepositoryPrincipalCleanup db.principals input now with
    | error e => exact h
    | ok outcome =>
      obtain ⟨record, t'⟩ := outcome
      rcases proveCleanup_cases hcall with rfl | ⟨hat, hrows⟩
      · exact h
      · rw [committed, hrows]
        exact h.transition _ nofun (fun _ => ⟨rfl, rfl⟩) fun _ hr hstate =>
          hr.makeAvailable hstate hat

theorem runOperations_consistent (operations : List Operation) :
    Consistent (runOperations localeCompare operations).principals.rows := by
  unfold runOperations
  induction operations using List.reverseRecOn with
  | nil => exact consistent_nil
  | append_singleton operations operation ih =>
    rw [List.foldl_append]
    exact operation.apply_consistent localeCompare ih

end Operations

section Ambiguity

theorem Row.live_of_authoritative {row : Row} (h : row.authoritative = true) : row.live := by
  intro hretired
  simp [Row.authoritative, hretired] at h

theorem Row.live_of_available {row : Row} (h : row.lifecycleState = .available) : row.live := by
  simp [Row.live, h]

theorem Consistent.unambiguous {t : Table} (h : Consistent t.rows) :
    assertNoRepositoryPrincipalAmbiguity t = .ok () := by
  have hoverlap : ∀ a ∈ t.rows, ∀ b ∈ t.rows, a.live → b.live → a.overlaps b = true → a = b := by
    intro a ha b hb hla hlb hab
    simp only [Row.overlaps, Bool.or_eq_true, decide_eq_true_eq] at hab
    rcases hab with huid | hgid
    · exact h.eq_of_uid ha hb hla hlb huid
    · rw [← h.sameId a ha, ← h.sameId b hb] at hgid
      exact h.eq_of_uid ha hb hla hlb hgid
  unfold assertNoRepositoryPrincipalAmbiguity
  simp only
  rw [if_neg, if_neg]
  · simp only [List.any_eq_true, Bool.and_eq_true, decide_eq_true_eq]
    rintro ⟨a, ha, b, hb, ⟨⟨hlt, hab⟩, hsa⟩, hsb⟩
    have heq := hoverlap a ha b hb (Row.live_of_available hsa) (Row.live_of_available hsb) hab
    rw [heq] at hlt
    exact absurd hlt (String.lt_irrefl _)
  · simp only [List.any_eq_true, Bool.and_eq_true, decide_eq_true_eq]
    rintro ⟨a, ha, b, hb, ⟨hab, hauth⟩, hsb⟩
    have heq := hoverlap a ha b hb (Row.live_of_authoritative hauth)
      (Row.live_of_available hsb) hab
    simp [Row.authoritative, heq, hsb] at hauth

/-- No two authoritative rows share an ID, no reusable row shares one with an
authoritative row, and no two reusable rows share one. -/
structure Unambiguous (rows : List Row) : Prop where
  authoritative : rows.Pairwise fun a b => a.authoritative = true → b.authoritative = true →
    a.uid ≠ b.uid ∧ a.gid ≠ b.gid
  available_authoritative : ∀ a ∈ rows, ∀ b ∈ rows, a.authoritative = true →
    b.lifecycleState = .available → a.uid ≠ b.uid ∧ a.gid ≠ b.gid
  available : rows.Pairwise fun a b => a.lifecycleState = .available →
    b.lifecycleState = .available → a.uid ≠ b.uid ∧ a.gid ≠ b.gid

variable {rows : List Row}

/-- Live rows at two positions differ in both IDs. -/
theorem Consistent.pairwise_ids (h : Consistent rows) :
    rows.Pairwise fun a b => a.live → b.live → a.uid ≠ b.uid ∧ a.gid ≠ b.gid := by
  refine h.liveUnique.imp_of_mem fun {a b} ha hb hab hla hlb => ⟨hab hla hlb, ?_⟩
  rw [← h.sameId a ha, ← h.sameId b hb]
  exact hab hla hlb

theorem Consistent.toUnambiguous (h : Consistent rows) : Unambiguous rows where
  authoritative := h.pairwise_ids.imp fun hab ha hb =>
    hab (Row.live_of_authoritative ha) (Row.live_of_authoritative hb)
  available := h.pairwise_ids.imp fun hab ha hb =>
    hab (Row.live_of_available ha) (Row.live_of_available hb)
  available_authoritative := by
    intro a ha b hb hauth havailable
    have hne : a.uid ≠ b.uid := by
      intro heq
      obtain rfl := h.eq_of_uid ha hb (Row.live_of_authoritative hauth)
        (Row.live_of_available havailable) heq
      simp [Row.authoritative, havailable] at hauth
    exact ⟨hne, by rwa [← h.sameId a ha, ← h.sameId b hb]⟩

end Ambiguity

/-- After any sequence of observations, allocations, releases and cleanup proofs, with
any ranges, clocks and random draws, no ID is ambiguous and the check for it passes. -/
theorem runOperations_unambiguous (localeCompare : String → String → ℤ)
    (operations : List Operation) :
    Unambiguous (runOperations localeCompare operations).principals.rows ∧
      assertNoRepositoryPrincipalAmbiguity (runOperations localeCompare operations).principals =
        .ok () :=
  ⟨(runOperations_consistent localeCompare operations).toUnambiguous,
    (runOperations_consistent localeCompare operations).unambiguous⟩

section Constraints

theorem Row.WellFormed.checks {row : Row} (h : row.WellFormed) : row.checks = true := by
  have hname := h.username
  unfold validUsername at hname
  split at hname
  · cases hname
  · rename_i c cs hlist
    simp only [Bool.and_eq_true, decide_eq_true_eq] at hname
    have hlength : 1 ≤ row.internalUsername.toList.length ∧
        row.internalUsername.toList.length ≤ 32 := by
      rw [hlist, List.length_cons]
      omega
    simp [Row.checks, h.uid, h.gid, hlength, h.version, h.lifecycle]

variable {rows : List Row}

theorem Consistent.constraints (h : Consistent rows)
    (hallocation : (rows.map (·.allocationId)).Nodup)
    (hinstance : (rows.map (·.instanceId)).Nodup)
    (husername : (rows.map (·.internalUsername)).Nodup) : Constraints rows := by
  have hauth : ((rows.filter (·.authoritative)).Pairwise
      fun a b => a.uid ≠ b.uid ∧ a.gid ≠ b.gid) := by
    rw [List.pairwise_filter]
    exact h.toUnambiguous.authoritative
  refine ⟨hallocation, hinstance, husername, ?_, ?_, fun r hr => (h.wellFormed r hr).checks⟩
  · exact List.pairwise_map.2 (hauth.imp fun hab => hab.1)
  · exact List.pairwise_map.2 (hauth.imp fun hab => hab.2)

theorem Table.write_ok (h : Constraints rows) :
    Table.write rows = .ok ⟨rows, h⟩ := dif_pos h

theorem retireReused_keys (reused : Option Row) (row r : Row) :
    (retireReused reused row r).allocationId = r.allocationId ∧
      (retireReused reused row r).instanceId = r.instanceId ∧
      (retireReused reused row r).internalUsername = r.internalUsername := by
  cases reused with
  | none => exact ⟨rfl, rfl, rfl⟩
  | some principal =>
    simp only [retireReused]
    split <;> exact ⟨rfl, rfl, rfl⟩

theorem map_retireReused (rows : List Row) (reused : Option Row) (row : Row) {key : Row → String}
    (hkey : ∀ r, key (retireReused reused row r) = key r) :
    (rows.map (retireReused reused row)).map key = rows.map key := by
  rw [List.map_map]
  exact List.map_congr_left fun r _ => hkey r

end Constraints

variable (localeCompare : String → String → ℤ)

/-- An allocation that handed out a principal. -/
def Succeeds (outcome : Except String (AllocateResult × Table)) : Prop :=
  ∃ principal t', outcome = .ok (.ok principal, t')

/-- Some number of the range is held by no active, quarantined or retired row. -/
def SomeIdUnheld (range : IdRange) (rows : List Row) : Prop :=
  ∃ id, (range.minId ≤ id ∧ id ≤ range.maxId) ∧
    ∀ r ∈ rows, r.lifecycleState ≠ .available → r.uid ≠ id

variable {range : IdRange} {rows : List Row} {random : Randomness} {t : Table} {instanceId : String}

theorem someIdUnheld_iff :
    SomeIdUnheld range rows ↔
      ∃ id, (range.minId ≤ id ∧ id ≤ range.maxId) ∧ id ∉ blocked Row.uid rows := by
  simp only [SomeIdUnheld, mem_blocked, not_exists, not_and]

instance (range : IdRange) (rows : List Row) : Decidable (SomeIdUnheld range rows) :=
  decidable_of_iff (∃ id ∈ candidates range, id ∉ blocked Row.uid rows) (by
    simp only [someIdUnheld_iff, mem_candidates])

/-- The scans find an ID exactly when there is one to find. -/
theorem Consistent.chooseIds_iff (h : Consistent rows) :
    (∃ uid gid, chooseIds localeCompare range rows = (some uid, some gid)) ↔
      SomeIdUnheld range rows := by
  rw [someIdUnheld_iff]
  unfold chooseIds
  cases hre : reusable localeCompare range rows with
  | some p =>
    obtain ⟨-, -, hfree, -, hrange, -⟩ := mem_reusablePrincipals.1 (reusable_mem localeCompare hre)
    exact iff_of_true ⟨p.uid, p.gid, rfl⟩ ⟨p.uid, hrange, hfree⟩
  | none =>
    simp only [h.blocked_gid]
    cases hscan : firstUnblocked range (blocked Row.uid rows) with
    | some n => exact iff_of_true ⟨n, n, rfl⟩ ⟨n, firstUnblocked_eq_some hscan⟩
    | none =>
      have hall := firstUnblocked_eq_none.1 hscan
      refine iff_of_false (by simp) ?_
      rintro ⟨id, ⟨hlo, hhi⟩, hfree⟩
      exact hfree (hall id hlo hhi)

theorem chooseIds_none
    (h : ¬ ∃ uid gid, chooseIds localeCompare range rows = (some uid, some gid)) :
    (chooseIds localeCompare range rows).1 = none ∨
      (chooseIds localeCompare range rows).2 = none := by
  by_contra hsome
  simp only [not_or, Option.ne_none_iff_exists'] at hsome
  obtain ⟨⟨uid, hu⟩, gid, hg⟩ := hsome
  exact h ⟨uid, gid, Prod.ext hu hg⟩

/-- Storing the chosen ID succeeds on a consistent table, given fresh keys. -/
theorem Consistent.writeAllocation_ok (h : Consistent t.rows)
    (hrange : 1000 ≤ range.minId ∧ range.maxId ≤ 65535) {uid gid at_ : ℤ}
    (hat : isSafeInteger at_ = true) (hnew : t.selectInstance instanceId = none)
    (huuid : ∀ r ∈ t.rows, r.allocationId ≠ random.uuid)
    (hname : ∀ r ∈ t.rows, r.internalUsername ≠ random.internalUsername)
    (hids : chooseIds localeCompare range t.rows = (some uid, some gid)) :
    ∃ t', writeAllocation t (reusable localeCompare range t.rows)
      (allocatedRow instanceId uid gid at_ random) = .ok t' := by
  have hall := h.allocate localeCompare hrange hat instanceId random hids
  generalize reusable localeCompare range t.rows = reused at hall ⊢
  set row := allocatedRow instanceId uid gid at_ random with hrow
  have hmapped : Consistent (t.rows.map (retireReused reused row)) :=
    ⟨fun r hr => hall.sameId r (List.mem_append_left _ hr),
      (List.pairwise_append.1 hall.liveUnique).1,
      fun r hr => hall.wellFormed r (List.mem_append_left _ hr)⟩
  obtain ⟨ha, hi, hu, -⟩ := t.constraints
  have hka := map_retireReused t.rows reused row fun r => (retireReused_keys reused row r).1
  have hki := map_retireReused t.rows reused row
    fun r => (retireReused_keys reused row r).2.1
  have hku := map_retireReused t.rows reused row
    fun r => (retireReused_keys reused row r).2.2
  have hfresh : ∀ r ∈ t.rows, r.instanceId ≠ instanceId := by
    simpa [Table.selectInstance, List.find?_eq_none] using hnew
  have hfinal : Constraints (t.rows.map (retireReused reused row) ++ [row]) := by
    refine hall.constraints ?_ ?_ ?_
    · rw [List.map_append, hka]
      exact ha.append (by simp) (by simpa [hrow, allocatedRow, eq_comm] using huuid)
    · rw [List.map_append, hki]
      exact hi.append (by simp) (by simpa [hrow, allocatedRow, eq_comm] using hfresh)
    · rw [List.map_append, hku]
      exact hu.append (by simp) (by simpa [hrow, allocatedRow, eq_comm] using hname)
  cases hreused : reused with
  | none =>
    subst hreused
    rw [show retireReused none row = id from rfl, List.map_id] at hfinal
    exact ⟨_, Table.write_ok hfinal⟩
  | some principal =>
    subst hreused
    have hmid : Constraints (t.rows.map (retireReused (some principal) row)) :=
      hmapped.constraints (hka ▸ ha) (hki ▸ hi) (hku ▸ hu)
    refine ⟨⟨_, hfinal⟩, ?_⟩
    rw [writeAllocation, bind_eq_ok]
    exact ⟨⟨_, hmid⟩, Table.write_ok hmid, Table.write_ok hfinal⟩

/-- The row that was just inserted is the one that is read back. -/
theorem selectInstance_append {row : Row} (ht : t.rows = rows ++ [row])
    (hfresh : ∀ r ∈ rows, r.instanceId ≠ row.instanceId) :
    t.selectInstance row.instanceId = some row := by
  have hnone : rows.find? (fun r => decide (r.instanceId = row.instanceId)) = none := by
    simpa [List.find?_eq_none] using hfresh
  simp [Table.selectInstance, ht, List.find?_append, hnone]

theorem Consistent.allocateNew_succeeds (h : Consistent t.rows)
    (hrange : 1000 ≤ range.minId ∧ range.maxId ≤ 65535) {at_ : ℤ} (hat : isSafeInteger at_ = true)
    (hnew : t.selectInstance instanceId = none)
    (huuid : ∀ r ∈ t.rows, r.allocationId ≠ random.uuid)
    (hname : ∀ r ∈ t.rows, r.internalUsername ≠ random.internalUsername)
    (hfree : SomeIdUnheld range t.rows) :
    Succeeds (allocateNew localeCompare t instanceId range at_ random) := by
  obtain ⟨uid, gid, hids⟩ := (h.chooseIds_iff localeCompare).2 hfree
  obtain ⟨t', hwrite⟩ :=
    h.writeAllocation_ok localeCompare hrange hat hnew huuid hname hids
  have hrows := writeAllocation_rows hwrite
  have hall := h.allocate localeCompare hrange hat instanceId random hids
  have hfresh : ∀ r ∈ t.rows, r.instanceId ≠ instanceId := by
    simpa [Table.selectInstance, List.find?_eq_none] using hnew
  have hread := selectInstance_append hrows (by
    rw [List.forall_mem_map]
    intro r hr
    rw [(retireReused_keys _ _ r).2.1]
    exact hfresh r hr)
  have hdecode := toRepositoryPrincipalRecord_ok (hall.wellFormed _ (List.mem_append_right _
    (List.mem_singleton.2 rfl)))
  refine ⟨allocatedRow instanceId uid gid at_ random, t', ?_⟩
  simp only [allocateNew, bind_eq_ok, h.unambiguous, mapM_toRepositoryPrincipalRecord]
  refine ⟨(), trivial, t.rows, ⟨rfl, h.wellFormed⟩, ?_⟩
  simp only [hids, bind_eq_ok]
  refine ⟨t', hwrite, ?_⟩
  simp only [show (allocatedRow instanceId uid gid at_ random).instanceId = instanceId from rfl]
    at hread
  simp only [hread, hdecode, bind_eq_ok]
  exact ⟨_, rfl, rfl⟩

theorem Consistent.allocateNew_exhausted (h : Consistent t.rows) {at_ : ℤ}
    (hheld : ¬ SomeIdUnheld range t.rows) :
    allocateNew localeCompare t instanceId range at_ random =
      .ok (.refused .noIdentitiesAvailable "the requested principal range is exhausted", t) := by
  have hnone := chooseIds_none localeCompare (mt (h.chooseIds_iff localeCompare).1 hheld)
  simp only [allocateNew, bind_eq_ok, h.unambiguous, mapM_toRepositoryPrincipalRecord]
  refine ⟨(), trivial, t.rows, ⟨rfl, h.wellFormed⟩, ?_⟩
  split
  · rename_i uid gid hids
    rw [hids] at hnone
    simp at hnone
  · rfl

/-- An allocation that passed every check before the scan. -/
theorem allocate_eq_allocateNew {observed : List String} {input : AllocateInput} {now : ℤ}
    (hkey : principalRepositoryKey input.instanceId = true)
    (hrange : principalAllocationRange input = some range)
    (htime : assertPrincipalTimestamp (input.allocatedAt.getD now) "allocation timestamp" = .ok ())
    (hobserved : input.instanceId ∈ observed) (hnew : t.selectInstance input.instanceId = none) :
    allocateRepositoryPrincipal localeCompare observed t input now random =
      allocateNew localeCompare t input.instanceId range (input.allocatedAt.getD now) random := by
  simp [allocateRepositoryPrincipal, hkey, hrange, htime, hobserved, hnew, bind, Except.bind]

theorem Consistent.retired_of_held (h : Consistent rows) (hheld : ¬ SomeIdUnheld range rows)
    {p : Row} (hp : p ∈ rows) (havailable : p.lifecycleState = .available)
    (hrange : range.minId ≤ p.uid ∧ p.uid ≤ range.maxId) :
    ∃ r ∈ rows, r.lifecycleState = .retired ∧ r.uid = p.uid ∧ r.gid = p.gid := by
  have hblocked : p.uid ∈ blocked Row.uid rows := by
    by_contra hfree
    exact hheld (someIdUnheld_iff.2 ⟨p.uid, hrange, hfree⟩)
  obtain ⟨r, hr, hstate, huid⟩ := mem_blocked.1 hblocked
  refine ⟨r, hr, ?_, huid, by rw [← h.sameId r hr, ← h.sameId p hp, huid]⟩
  by_contra hlive
  rw [h.eq_of_uid hr hp hlive (Row.live_of_available havailable) huid] at hstate
  exact hstate havailable

section SecondReuse

/-- A comparison by code units, which is what `localeCompare` does on these names. -/
def compareCodeUnits (left right : String) : ℤ :=
  if left < right then -1 else if right < left then 1 else 0

/-- One ID goes from `repository-a` to `repository-b` and is proven clean both times. -/
def reusedOnce : List Operation :=
  [.observe "repository-a", .observe "repository-b", .observe "repository-c",
    .allocate ⟨"repository-a", some 10000, some 10000, some 100⟩ 0
      ⟨"allocation-1", "1111111111111111", by decide, by decide, by decide⟩,
    .release ⟨"repository-a", some 200⟩ 0,
    .proveCleanup ⟨"repository-a", some 300⟩ 0,
    .allocate ⟨"repository-b", some 10000, some 10000, some 400⟩ 0
      ⟨"allocation-2", "2222222222222222", by decide, by decide, by decide⟩,
    .release ⟨"repository-b", some 500⟩ 0,
    .proveCleanup ⟨"repository-b", some 600⟩ 0]

def thirdRequest : AllocateInput := ⟨"repository-c", some 10000, some 10000, some 700⟩

def thirdDraw : Randomness :=
  ⟨"allocation-3", "3333333333333333", by decide, by decide, by decide⟩

end SecondReuse

end Mottainai.RepositoryPrincipal

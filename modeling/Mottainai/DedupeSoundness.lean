import Mottainai.ResponseBudget
import Mottainai.ArtifactStore

/-!
# Identity sessions and deduplication

A result is identified by the SHA-256, a parameter here, of what it shows and of the projection that
it shows it in. A connection remembers the identities that it has delivered, in the order in which
they were last used, and the latest one of each source; an identity that moves to another source may
leave its own behind. A result whose identity is known is answered with a compact one, which points
to an artifact that has to be retrievable unless the identity was seeded.
-/

namespace Mottainai.ContextRuntime

open JavaScriptValues JsonValues

section Digests

mutual

/-- `stableValue`. The values are JSON, so that there are no cycles. -/
def stableValue (locale : Locale) : JsonValue → JsonValue
  | .array elements => .array (stableElements locale elements)
  | .object properties =>
      .object (fromEntries (sortedEntries locale (stableProperties locale properties)))
  | .null => .null
  | .boolean value => .boolean value
  | .number literal => .number literal
  | .string text => .string text

def stableElements (locale : Locale) : List JsonValue → List JsonValue
  | [] => []
  | value :: values => stableValue locale value :: stableElements locale values

def stableProperties (locale : Locale) : Properties → Properties
  | [] => []
  | (key, value) :: properties =>
      (key, stableValue locale value) :: stableProperties locale properties

end

def stableIdentityString (locale : Locale) (value : JsonValue) : String :=
  stringify (stableValue locale value)

/-- What the digests depend on: the order of the locale, and `hashContent`, the hexadecimal
SHA-256 of a text. -/
structure Digests where
  locale : Locale
  hashContent : String → String

variable (digests : Digests)

def identityDigest (value : JsonValue) : String :=
  digests.hashContent (stableIdentityString digests.locale value)

end Digests

section Identities

inductive IdentityAdapter where
  | localFileRead
  | storedArtifact
  deriving DecidableEq

/-- `IDENTITY_ADAPTERS`. -/
def IdentityAdapter.text : IdentityAdapter → String
  | .localFileRead => "local_file_read_v1"
  | .storedArtifact => "stored_artifact_v1"

structure IdentityHint where
  contentId : String
  adapter : IdentityAdapter
  sourceKey : String
  projectionKey : String
  ifChangedFrom : Option String

def identityAdapter? (text : String) : Option IdentityAdapter :=
  [IdentityAdapter.localFileRead, .storedArtifact].find? fun adapter => decide (adapter.text = text)

/-- `value === IDENTITY_VERSION`. -/
def isIdentityVersion : Option JsonValue → Bool
  | some (.number literal) => decide (literal = "1")
  | _ => false

/-- `isIdentityHint`, with the hint that the value is. -/
def identityHint? (value : JsonValue) : Option IdentityHint := do
  let record ← record? value
  let contentId ← text? (property record "content_id")
  let adapter ← (text? (property record "adapter")).bind identityAdapter?
  let sourceKey ← text? (property record "source_key")
  let projectionKey ← text? (property record "projection_key")
  let ifChangedFrom := text? (property record "if_changed_from")
  if isIdentityVersion (property record "version") ∧
      ((property record "if_changed_from").isSome → ifChangedFrom.isSome) then
    some ⟨contentId, adapter, sourceKey, projectionKey, ifChangedFrom⟩
  else none

/-- `createIdentityHint`, of the parts of a hint. -/
def createIdentityHint (hint : IdentityHint) : JsonValue :=
  .object ([("version", .number "1"), ("content_id", .string hint.contentId),
    ("adapter", .string hint.adapter.text), ("source_key", .string hint.sourceKey),
    ("projection_key", .string hint.projectionKey)] ++
    optionalProperty "if_changed_from" (hint.ifChangedFrom.map .string))

def ProjectionBudget.json (budget : ProjectionBudget) : JsonValue :=
  .object [("softTokens", .number (toString budget.softTokens)),
    ("hardTokens", .number (toString budget.hardTokens)),
    ("hardBytes", .number (toString budget.hardBytes))]

variable (digests : Digests)

/-- The order in which `projectionShape` lists the omissions. -/
def omissionPrecedes (left right : Omission) : Bool :=
  match digests.locale.localeCompare left.field right.field with
  | .lt => true
  | .gt => false
  | .eq => decide (digests.locale.localeCompare left.reason right.reason ≠ .gt)

def projectionShape (projected : ProjectedResult) : JsonValue :=
  let fields := projected.fields.insertionSort fun left right =>
    digests.locale.localeCompare left.key right.key ≠ .gt
  let omissions := projected.omissions.insertionSort fun left right =>
    omissionPrecedes digests left right
  .object [("status", .string projected.status),
    ("isError", .boolean (projected.isError.getD false)),
    ("truncated", .boolean projected.truncated),
    ("diagnostics", .array projected.diagnostics),
    ("testResults", (projected.testResults.map .object).getD (.string "[undefined]")),
    ("fields", .array (fields.map fun field =>
      .object [("key", .string field.key), ("priority", .string field.priority.text)])),
    ("omissions", .array (omissions.map Omission.json))]

def createProjectionIdentity (hint : IdentityHint) (budget : ProjectionBudget)
    (projected : ProjectedResult) : String :=
  "pi1:" ++ identityDigest digests (.object [("version", .string "projection-v1"),
    ("projection_key", .string hint.projectionKey), ("budget", budget.json),
    ("shape", projectionShape digests projected)])

def createResultIdentity (contentId projectionId : String) : String :=
  "ri1:" ++ identityDigest digests (.object [("version", .string "result-v1"),
    ("content_id", .string contentId), ("projection_id", .string projectionId)])

structure ResultIdentity where
  id : String
  contentId : String
  projectionId : String
  changed : Bool
  previousId : Option String

def makeResultIdentity (contentId projectionId : String) (changed : Bool)
    (previousId : Option String) : ResultIdentity :=
  { id := createResultIdentity digests contentId projectionId
    contentId := contentId
    projectionId := projectionId
    changed := changed
    previousId := previousId }

def ResultIdentity.json (identity : ResultIdentity) : JsonValue :=
  .object ([("version", .number "1"), ("id", .string identity.id),
    ("content_id", .string identity.contentId), ("projection_id", .string identity.projectionId),
    ("changed", .boolean identity.changed)] ++
    optionalProperty "previous_id" (identity.previousId.map .string))

end Identities

open OrderedMaps

section Sessions

structure SeenIdentity where
  identityId : String
  contentId : String
  projectionId : String
  resultId : String
  sourceKey : String
  seeded : Bool
  referenceAvailable : Bool

structure IdentityObservation where
  identityId : String
  contentId : String
  projectionId : String
  resultId : String
  sourceKey : String
  ifChangedFrom : Option String
  seeded : Bool
  referenceAvailable : Bool

structure IdentityMatch where
  hit : Bool
  collision : Bool
  backingResultId : Option String
  previousId : Option String
  seeded : Bool
  referenceAvailable : Bool

structure IdentitySession where
  entries : OrderedMap String SeenIdentity
  latestBySource : OrderedMap String String
  maxEntries : ℕ+

def emptySession (maxEntries : ℕ+) : IdentitySession := ⟨.empty, .empty, maxEntries⟩

/-- The constructor. -/
def createSession (maxEntries : ℤ) : Except String IdentitySession :=
  if isSafeInteger maxEntries then
    if h : 0 < maxEntries.toNat then .ok (emptySession ⟨maxEntries.toNat, h⟩)
    else .error "identity session maxEntries must be positive"
  else .error "identity session maxEntries must be positive"

def disagrees (existing : SeenIdentity) (input : IdentityObservation) : Bool :=
  decide (existing.contentId ≠ input.contentId) || decide (existing.projectionId ≠ input.projectionId)

/-- The entry becomes the one that was used last. -/
def touch (session : IdentitySession) (key : String) (value : SeenIdentity) : IdentitySession :=
  { session with entries := (session.entries.delete key).set key value }

def lookup (session : IdentitySession) (input : IdentityObservation) :
    IdentityMatch × IdentitySession :=
  match session.entries.get input.identityId with
  | some existing =>
      if disagrees existing input then
        ({ hit := false, collision := true, backingResultId := none
           previousId := session.latestBySource.get input.sourceKey
           seeded := false, referenceAvailable := false }, session)
      else
        ({ hit := true, collision := false, backingResultId := some existing.resultId
           previousId := none, seeded := existing.seeded
           referenceAvailable := existing.referenceAvailable },
          touch session existing.identityId existing)
  | none =>
      ({ hit := decide (input.ifChangedFrom = some input.identityId), collision := false
         backingResultId := none
         previousId := session.latestBySource.get input.sourceKey
         seeded := false, referenceAvailable := false }, session)

/-- Remove an entry, and the latest identity of its source if it is this one. -/
def evict (session : IdentitySession) (oldest : String) : IdentitySession :=
  let latestBySource := match session.entries.get oldest with
    | some removed =>
        if session.latestBySource.get removed.sourceKey = some oldest then
          session.latestBySource.delete removed.sourceKey
        else session.latestBySource
    | none => session.latestBySource
  { session with entries := session.entries.delete oldest, latestBySource := latestBySource }

def makeRoom : ℕ → IdentitySession → IdentitySession
  | 0, session => session
  | fuel + 1, session =>
      if (session.maxEntries : ℕ) ≤ session.entries.size then
        match session.entries.oldest with
        | none => session
        | some oldest => makeRoom fuel (evict session oldest)
      else session

def seenIdentity (input : IdentityObservation) : SeenIdentity :=
  { identityId := input.identityId
    contentId := input.contentId
    projectionId := input.projectionId
    resultId := input.resultId
    sourceKey := input.sourceKey
    seeded := input.seeded
    referenceAvailable := input.referenceAvailable }

/-- The entry that was there, after it has been observed again. -/
def updatedIdentity (existing : SeenIdentity) (input : IdentityObservation) : SeenIdentity :=
  { existing with
    resultId := input.resultId
    sourceKey := input.sourceKey
    seeded := existing.seeded || input.seeded
    referenceAvailable := existing.referenceAvailable || input.referenceAvailable }

def setLatest (session : IdentitySession) (input : IdentityObservation) : IdentitySession :=
  { session with latestBySource := session.latestBySource.set input.sourceKey input.identityId }

def remember (session : IdentitySession) (input : IdentityObservation) : Bool × IdentitySession :=
  match session.entries.get input.identityId with
  | some existing =>
      if disagrees existing input then (false, session)
      else
        (true, setLatest (touch session existing.identityId (updatedIdentity existing input)) input)
  | none =>
      let session := makeRoom session.entries.size session
      let session :=
        { session with entries := session.entries.set input.identityId (seenIdentity input) }
      (true, setLatest session input)

/-- `reset`, and `dispose`. -/
def reset (session : IdentitySession) : IdentitySession :=
  { session with entries := .empty, latestBySource := .empty }

end Sessions

section Seeds

/-- `CanonC3ProjectionIdentity`. -/
structure CanonProjectionIdentity where
  contentId : String
  sourceKey : String
  sourceGeneration : String
  projectionDigest : String
  projectionVersion : String
  componentIdentity : String

structure CanonProjectionSeed where
  identity : CanonProjectionIdentity
  delivered : Bool
  resultId : Option String
  referenceAvailable : Bool

structure RuntimeInstructionSeed where
  instructionId : String
  provenance : String
  delivered : Bool
  resultId : Option String
  referenceAvailable : Bool

inductive DeliveredIdentitySeed where
  | canonProjection (seed : CanonProjectionSeed)
  | runtimeInstruction (seed : RuntimeInstructionSeed)

/-- `boundedIdentityPart`, with `MAX_OPAQUE_ID_LENGTH`. -/
def boundedIdentityPart (value : String) : Bool :=
  decide (0 < utf16Length value) && decide (utf16Length value ≤ 512)

def validProjectionIdentity (input : CanonProjectionIdentity) : Bool :=
  [input.contentId, input.sourceKey, input.sourceGeneration, input.projectionDigest,
    input.projectionVersion, input.componentIdentity].all boundedIdentityPart

def canonProjectionId (input : CanonProjectionIdentity) : String :=
  let parts := [input.sourceGeneration, input.projectionDigest, input.projectionVersion,
    input.componentIdentity]
  "canon-c3-projection-v1:" ++
    concat (parts.map fun part => toString (utf16Length part) ++ ":" ++ part)

/-- `identity.slice(-64)`, of an identity without surrogate pairs. -/
def lastCharacters (n : ℕ) (text : String) : String :=
  String.ofList (text.toList.drop (text.toList.length - n))

variable (digests : Digests)

def compactReferenceId (kind value : String) : String :=
  "ref:" ++ lastCharacters 64
    (createResultIdentity digests (kind ++ ":" ++ value) (kind ++ "-reference-v1"))

def canonProjectionObservation (input : CanonProjectionIdentity) (resultId : String) :
    IdentityObservation :=
  { identityId := createResultIdentity digests input.contentId (canonProjectionId input)
    contentId := input.contentId
    projectionId := canonProjectionId input
    resultId := resultId
    sourceKey := input.sourceKey
    ifChangedFrom := none
    seeded := false
    referenceAvailable := false }

def runtimeInstructionObservation (instructionId resultId : String) : IdentityObservation :=
  { identityId := createResultIdentity digests ("runtime-instruction:" ++ instructionId)
      "runtime-instruction-v1"
    contentId := "runtime-instruction:" ++ instructionId
    projectionId := "runtime-instruction-v1"
    resultId := resultId
    sourceKey := "runtime-instruction:" ++ instructionId
    ifChangedFrom := none
    seeded := false
    referenceAvailable := false }

def seedObservation : DeliveredIdentitySeed → Option IdentityObservation
  | .runtimeInstruction seed =>
      if seed.provenance = "already-supplied" ∧ seed.delivered ∧
          boundedIdentityPart seed.instructionId ∧
          (seed.resultId.all boundedIdentityPart) then
        some
          { runtimeInstructionObservation digests seed.instructionId
              (seed.resultId.getD
                (compactReferenceId digests "runtime-instruction" seed.instructionId)) with
            seeded := true
            referenceAvailable := seed.referenceAvailable }
      else none
  | .canonProjection seed =>
      if seed.delivered ∧ (seed.resultId.all boundedIdentityPart) ∧
          validProjectionIdentity seed.identity then
        some
          { canonProjectionObservation digests seed.identity
              (seed.resultId.getD (compactReferenceId digests "canon-c3" seed.identity.contentId))
              with
            seeded := true
            referenceAvailable := seed.referenceAvailable }
      else none

/-- `seedDelivered`, and the seeding of either kind. -/
def seedDelivered (session : IdentitySession) (input : DeliveredIdentitySeed) :
    Bool × IdentitySession :=
  match seedObservation digests input with
  | none => (false, session)
  | some observation => remember session observation

def missed : IdentityMatch :=
  { hit := false, collision := false, backingResultId := none, previousId := none, seeded := false
    referenceAvailable := false }

def lookupRuntimeInstruction (session : IdentitySession) (instructionId : String) :
    IdentityMatch × IdentitySession :=
  if boundedIdentityPart instructionId then
    lookup session (runtimeInstructionObservation digests instructionId
      (compactReferenceId digests "runtime-instruction" instructionId))
  else (missed, session)

def lookupCanonProjection (session : IdentitySession) (input : CanonProjectionIdentity) :
    IdentityMatch × IdentitySession :=
  if validProjectionIdentity input then
    lookup session (canonProjectionObservation digests input
      (compactReferenceId digests "canon-c3" input.contentId))
  else (missed, session)

end Seeds

section Operations

variable (digests : Digests)

inductive SessionOperation where
  | lookup (input : IdentityObservation)
  | remember (input : IdentityObservation)
  | seedDelivered (input : DeliveredIdentitySeed)
  | lookupRuntimeInstruction (instructionId : String)
  | lookupCanonProjection (input : CanonProjectionIdentity)
  | reset
  | dispose

def applySession (session : IdentitySession) : SessionOperation → IdentitySession
  | .lookup input => (lookup session input).2
  | .remember input => (remember session input).2
  | .seedDelivered input => (seedDelivered digests session input).2
  | .lookupRuntimeInstruction instructionId =>
      (lookupRuntimeInstruction digests session instructionId).2
  | .lookupCanonProjection input => (lookupCanonProjection digests session input).2
  | .reset => reset session
  | .dispose => reset session

end Operations

open OrderedMaps OperationSequences

variable {session : IdentitySession} {input : IdentityObservation} {existing : SeenIdentity}

section Invariant

structure Represents (session : IdentitySession) : Prop where
  size_le : session.entries.size ≤ session.maxEntries
  latest : ∀ sourceKey id, session.latestBySource.get sourceKey = some id →
    ∃ entry, session.entries.get id = some entry ∧ entry.sourceKey = sourceKey
  latestBySource_size_le : session.latestBySource.size ≤ session.entries.size

/-- The number of sources follows, since an entry has one source. -/
theorem Represents.of_latest (hsize : session.entries.size ≤ session.maxEntries)
    (hlatest : ∀ sourceKey id, session.latestBySource.get sourceKey = some id →
      ∃ entry, session.entries.get id = some entry ∧ entry.sourceKey = sourceKey) :
    Represents session := by
  refine ⟨hsize, hlatest, OrderedMap.size_le_of_values ?_ ?_⟩
  · intro sourceKey id hget
    obtain ⟨entry, hentry, _⟩ := hlatest sourceKey id hget
    exact OrderedMap.mem_keys_of_get hentry
  · intro sourceKey sourceKey' id hget hget'
    obtain ⟨entry, hentry, rfl⟩ := hlatest sourceKey id hget
    obtain ⟨entry', hentry', rfl⟩ := hlatest sourceKey' id hget'
    rw [hentry] at hentry'
    cases hentry'
    rfl

/-- Every entry is kept under its own identity. -/
def Keyed (session : IdentitySession) : Prop :=
  ∀ id entry, session.entries.get id = some entry → entry.identityId = id

variable (maxEntries : ℕ+)

theorem represents_empty : Represents (emptySession maxEntries) :=
  .of_latest (Nat.zero_le _) fun _ _ hget => nomatch hget

theorem keyed_empty : Keyed (emptySession maxEntries) :=
  fun _ _ hget => nomatch hget

end Invariant

section Touching

variable {key : String}

theorem get_touch_self : (touch session key existing).entries.get key = some existing :=
  OrderedMap.get_set_self

theorem get_touch_of_ne {id : String} (h : id ≠ key) :
    (touch session key existing).entries.get id = session.entries.get id := by
  simp [touch, h]

theorem size_touch (h : key ∈ session.entries.keys) (existing : SeenIdentity) :
    (touch session key existing).entries.size = session.entries.size := by
  have hnot := OrderedMap.get_eq_none_iff.mp
    (OrderedMap.get_delete_self : (session.entries.delete key).get key = none)
  have hset := OrderedMap.size_set_of_not_mem hnot existing
  have hdelete := OrderedMap.size_delete h
  simp only [touch]
  omega

theorem Keyed.touch (h : Keyed session) (existing : SeenIdentity)
    (hkey : existing.identityId = key) : Keyed (touch session key existing) := by
  intro id entry hget
  by_cases hid : id = key
  · subst hid
    rw [get_touch_self] at hget
    cases hget
    exact hkey
  · rw [get_touch_of_ne hid] at hget
    exact h id entry hget

/-- An entry that is found is only moved. -/
theorem Represents.touch (h : Represents session) (hget : session.entries.get key = some existing) :
    Represents (touch session key existing) := by
  apply Represents.of_latest
  · rw [size_touch (OrderedMap.mem_keys_of_get hget) existing]
    exact h.size_le
  · intro sourceKey id hlatest
    obtain ⟨entry, hentry, hsource⟩ := h.latest sourceKey id hlatest
    by_cases hid : id = key
    · subst hid
      rw [hget] at hentry
      cases hentry
      exact ⟨existing, get_touch_self, hsource⟩
    · exact ⟨entry, by rw [get_touch_of_ne hid, hentry], hsource⟩

theorem Represents.lookup (h : Represents session) (hkeyed : Keyed session) :
    Represents (lookup session input).2 := by
  unfold ContextRuntime.lookup
  split
  · rename_i existing hget
    split
    · exact h
    · rw [hkeyed _ _ hget]
      exact h.touch hget
  · exact h

theorem Keyed.lookup (h : Keyed session) : Keyed (lookup session input).2 := by
  unfold ContextRuntime.lookup
  split
  · split
    · exact h
    · exact h.touch _ rfl
  · exact h

end Touching

section Evicting

variable {oldest : String}

theorem Keyed.evict (h : Keyed session) : Keyed (evict session oldest) :=
  fun id entry hget => h id entry (OrderedMap.get_filter_eq_some_iff.mp hget).1

theorem evict_latest {removed : SeenIdentity} (h : session.entries.get oldest = some removed) :
    (evict session oldest).latestBySource =
      if session.latestBySource.get removed.sourceKey = some oldest then
        session.latestBySource.delete removed.sourceKey
      else session.latestBySource := by
  simp only [evict, h]

/-- The latest identity of a source is not the evicted one any more. -/
theorem Represents.evict (h : Represents session) (hmem : oldest ∈ session.entries.keys) :
    Represents (evict session oldest) := by
  apply Represents.of_latest
  · exact OrderedMap.size_delete_le.trans h.size_le
  · intro sourceKey id hlatest
    cases hremoved : session.entries.get oldest with
    | none => exact absurd hmem (OrderedMap.get_eq_none_iff.mp hremoved)
    | some removed =>
      rw [evict_latest hremoved] at hlatest
      have hbefore : session.latestBySource.get sourceKey = some id := by
        split at hlatest
        · exact (OrderedMap.get_filter_eq_some_iff.mp hlatest).1
        · exact hlatest
      obtain ⟨entry, hentry, hsource⟩ := h.latest sourceKey id hbefore
      have hne : id ≠ oldest := by
        rintro rfl
        rw [hremoved] at hentry
        cases hentry
        subst hsource
        simp [hbefore] at hlatest
      exact ⟨entry, by simp [ContextRuntime.evict, hne, hentry], hsource⟩

theorem Keyed.makeRoom (h : Keyed session) (fuel : ℕ) : Keyed (makeRoom fuel session) := by
  induction fuel generalizing session with
  | zero => exact h
  | succ fuel ih =>
    unfold ContextRuntime.makeRoom
    split
    · cases session.entries.oldest with
      | none => exact h
      | some oldest => exact ih h.evict
    · exact h

theorem Represents.makeRoom (h : Represents session) (fuel : ℕ) :
    Represents (makeRoom fuel session) := by
  induction fuel generalizing session with
  | zero => exact h
  | succ fuel ih =>
    unfold ContextRuntime.makeRoom
    split
    · cases holdest : session.entries.oldest with
      | none => exact h
      | some oldest => exact ih (h.evict (OrderedMap.mem_keys_of_oldest holdest))
    · exact h

theorem size_makeRoom_lt {fuel : ℕ} (session : IdentitySession)
    (hfuel : session.entries.size ≤ fuel) :
    (makeRoom fuel session).entries.size < (makeRoom fuel session).maxEntries := by
  induction fuel generalizing session with
  | zero =>
    have hpos := session.maxEntries.pos
    simp only [makeRoom]
    omega
  | succ fuel ih =>
    unfold makeRoom
    split
    · cases holdest : session.entries.oldest with
      | none =>
        have hpos := session.maxEntries.pos
        simp only [OrderedMap.size_eq_zero_of_oldest holdest]
        omega
      | some oldest =>
        have hsize := OrderedMap.size_delete (OrderedMap.mem_keys_of_oldest holdest)
        exact ih _ (by simp only [evict]; omega)
    · omega

theorem get_makeRoom {id : String} (h : session.entries.get id = none) (fuel : ℕ) :
    (makeRoom fuel session).entries.get id = none := by
  induction fuel generalizing session with
  | zero => exact h
  | succ fuel ih =>
    unfold makeRoom
    split
    · cases session.entries.oldest with
      | none => exact h
      | some oldest =>
        apply ih
        rw [Option.eq_none_iff_forall_not_mem]
        intro entry hentry
        have hget := (OrderedMap.get_filter_eq_some_iff.mp hentry).1
        rw [h] at hget
        cases hget
    · exact h

end Evicting

section Remembering

/-- A new identity is the latest one of its source. -/
theorem represents_remember_new (hrep : Represents session)
    (hnew : session.entries.get input.identityId = none) :
    Represents (remember session input).2 := by
  have hroom := hrep.makeRoom session.entries.size
  have hlt := size_makeRoom_lt session le_rfl
  have hnone := get_makeRoom hnew session.entries.size
  simp only [remember, hnew]
  apply Represents.of_latest
  · have hsize := OrderedMap.size_set_of_not_mem
      (OrderedMap.get_eq_none_iff.mp hnone) (seenIdentity input)
    simp only [setLatest, hsize]
    omega
  · intro sourceKey id hlatest
    simp only [setLatest] at hlatest ⊢
    by_cases hsource : sourceKey = input.sourceKey
    · subst hsource
      rw [OrderedMap.get_set_self] at hlatest
      cases hlatest
      exact ⟨seenIdentity input, OrderedMap.get_set_self, rfl⟩
    · rw [OrderedMap.get_set_of_ne hsource] at hlatest
      obtain ⟨entry, hentry, hkey⟩ := hroom.latest sourceKey id hlatest
      have hne : id ≠ input.identityId := by
        rintro rfl
        rw [hnone] at hentry
        cases hentry
      exact ⟨entry, by rw [OrderedMap.get_set_of_ne hne, hentry], hkey⟩

/-- An identity that is observed again keeps the representation unless it leaves a source of
which it is the latest one. -/
theorem represents_remember_existing (hrep : Represents session) (hkeyed : Keyed session)
    (hget : session.entries.get input.identityId = some existing)
    (hagrees : disagrees existing input = false) :
    Represents (remember session input).2 ↔
      existing.sourceKey = input.sourceKey ∨
        session.latestBySource.get existing.sourceKey ≠ some input.identityId := by
  have hid : existing.identityId = input.identityId := hkeyed _ _ hget
  have hremember : (remember session input).2 =
      setLatest (touch session input.identityId (updatedIdentity existing input)) input := by
    simp only [remember, hget, hagrees, hid]
    rfl
  rw [hremember]
  constructor
  · intro hnext
    by_contra hleft
    obtain ⟨hsource, hlatest⟩ := not_or.mp hleft
    obtain ⟨entry, hentry, hkey⟩ := hnext.latest existing.sourceKey input.identityId (by
      simpa [setLatest, touch, hsource] using hlatest)
    have hself : (setLatest (touch session input.identityId (updatedIdentity existing input))
        input).entries.get input.identityId = some (updatedIdentity existing input) :=
      get_touch_self
    rw [hself] at hentry
    cases hentry
    exact hsource hkey.symm
  · intro hkeeps
    apply Represents.of_latest
    · have hsize := size_touch (OrderedMap.mem_keys_of_get hget)
        (updatedIdentity existing input)
      exact hsize.le.trans hrep.size_le
    · intro sourceKey id hlatest
      simp only [setLatest] at hlatest ⊢
      by_cases hsource : sourceKey = input.sourceKey
      · subst hsource
        rw [OrderedMap.get_set_self] at hlatest
        cases hlatest
        exact ⟨updatedIdentity existing input, get_touch_self, rfl⟩
      · rw [OrderedMap.get_set_of_ne hsource] at hlatest
        obtain ⟨entry, hentry, hkey⟩ := hrep.latest sourceKey id hlatest
        have hne : id ≠ input.identityId := by
          rintro rfl
          rw [hget] at hentry
          cases hentry
          subst hkey
          exact hkeeps.elim hsource fun hnot => hnot hlatest
        exact ⟨entry, by rw [get_touch_of_ne hne, hentry], hkey⟩

theorem Keyed.remember (hkeyed : Keyed session) (input : IdentityObservation) :
    Keyed (remember session input).2 := by
  unfold ContextRuntime.remember
  split
  · rename_i existing hget
    split
    · exact hkeyed
    · exact hkeyed.touch (updatedIdentity existing input) rfl
  · have hroom := hkeyed.makeRoom session.entries.size
    intro id entry hget
    by_cases hid : id = input.identityId
    · subst hid
      obtain rfl : seenIdentity input = entry := by simpa [setLatest] using hget
      rfl
    · exact hroom id entry (by simpa [setLatest, hid] using hget)

/-- What `remember` needs to keep the representation. -/
theorem represents_remember_iff (hrep : Represents session) (hkeyed : Keyed session) :
    Represents (remember session input).2 ↔
      ∀ existing, session.entries.get input.identityId = some existing →
        disagrees existing input = false →
          existing.sourceKey = input.sourceKey ∨
            session.latestBySource.get existing.sourceKey ≠ some input.identityId := by
  cases hget : session.entries.get input.identityId with
  | none =>
    constructor
    · intro _ existing hsome
      cases hsome
    · intro _
      exact represents_remember_new hrep hget
  | some existing =>
    cases hagrees : disagrees existing input with
    | true =>
      have hsame : (remember session input).2 = session := by simp [remember, hget, hagrees]
      rw [hsame]
      constructor
      · intro _ existing' hsome hnot
        cases hsome
        rw [hagrees] at hnot
        cases hnot
      · intro _
        exact hrep
    | false =>
      rw [represents_remember_existing hrep hkeyed hget hagrees]
      constructor
      · intro hkeeps existing' hsome _
        cases hsome
        exact hkeeps
      · intro hkeeps
        exact hkeeps existing rfl hagrees

end Remembering

section Runs

variable {digests : Digests}

def rememberedObservation (digests : Digests) : SessionOperation → Option IdentityObservation
  | .remember input => some input
  | .seedDelivered input => seedObservation digests input
  | _ => none

/-- No identity is moved away from a source of which it is the latest one. -/
def KeepsSource (digests : Digests) (session : IdentitySession) (operation : SessionOperation) :
    Prop :=
  ∀ input, rememberedObservation digests operation = some input →
    ∀ existing, session.entries.get input.identityId = some existing →
      disagrees existing input = false →
        existing.sourceKey = input.sourceKey ∨
          session.latestBySource.get existing.sourceKey ≠ some input.identityId

theorem Keyed.applySession (hkeyed : Keyed session) (operation : SessionOperation) :
    Keyed (applySession digests session operation) := by
  cases operation with
  | lookup input => exact hkeyed.lookup
  | remember input => exact hkeyed.remember _
  | seedDelivered input =>
    simp only [ContextRuntime.applySession, seedDelivered]
    split
    · exact hkeyed
    · exact hkeyed.remember _
  | lookupRuntimeInstruction instructionId =>
    simp only [ContextRuntime.applySession, lookupRuntimeInstruction]
    split
    · exact hkeyed.lookup
    · exact hkeyed
  | lookupCanonProjection input =>
    simp only [ContextRuntime.applySession, lookupCanonProjection]
    split
    · exact hkeyed.lookup
    · exact hkeyed
  | reset => exact keyed_empty session.maxEntries
  | dispose => exact keyed_empty session.maxEntries

/-- One operation keeps the representation exactly when it keeps the sources. -/
theorem represents_applySession_iff (hrep : Represents session) (hkeyed : Keyed session)
    (operation : SessionOperation) :
    Represents (applySession digests session operation) ↔ KeepsSource digests session operation := by
  have hnothing : ∀ {session' : IdentitySession}, Represents session' →
      rememberedObservation digests operation = none →
      (Represents session' ↔ KeepsSource digests session operation) := by
    intro session' hrep' hnone
    refine ⟨fun _ input hsome => ?_, fun _ => hrep'⟩
    rw [hnone] at hsome
    cases hsome
  have hremembers : ∀ {input : IdentityObservation},
      rememberedObservation digests operation = some input →
      (Represents (remember session input).2 ↔ KeepsSource digests session operation) := by
    intro input hsome
    rw [represents_remember_iff hrep hkeyed]
    constructor
    · intro hkeeps input' hsome'
      rw [hsome] at hsome'
      cases hsome'
      exact hkeeps
    · intro hkeeps
      exact hkeeps input hsome
  cases operation with
  | lookup input => exact hnothing (hrep.lookup hkeyed) rfl
  | remember input => exact hremembers rfl
  | seedDelivered input =>
    simp only [applySession, seedDelivered]
    cases hseed : seedObservation digests input with
    | none => exact hnothing hrep hseed
    | some observation => exact hremembers hseed
  | lookupRuntimeInstruction instructionId =>
    refine hnothing ?_ rfl
    simp only [applySession, lookupRuntimeInstruction]
    split
    · exact hrep.lookup hkeyed
    · exact hrep
  | lookupCanonProjection input =>
    refine hnothing ?_ rfl
    simp only [applySession, lookupCanonProjection]
    split
    · exact hrep.lookup hkeyed
    · exact hrep
  | reset => exact hnothing (represents_empty session.maxEntries) rfl
  | dispose => exact hnothing (represents_empty session.maxEntries) rfl

/-- A sequence of operations only visits sessions that are represented exactly when each of its
operations keeps the sources. -/
theorem represents_iff_keepsSource (digests : Digests) (maxEntries : ℕ+)
    (operations : List SessionOperation) :
    EachState (applySession digests) Represents (emptySession maxEntries) operations ↔
      EachStep (applySession digests) (KeepsSource digests) (emptySession maxEntries)
        operations := by
  have hkeyed : EachState (applySession digests) Keyed (emptySession maxEntries) operations :=
    eachState_of_invariant (fun _ operation h => h.applySession operation)
      (keyed_empty maxEntries) operations
  apply eachState_iff_eachStep (hkeyed.eachStep (P := fun session _ => Keyed session) fun _ _ h => h)
  · intro session operation hrep hkeyed
    exact represents_applySession_iff hrep hkeyed operation
  · exact represents_empty maxEntries

/-- The observation of content "c" in projection "p" for a source. -/
def observationOf (sourceKey : String) : IdentityObservation :=
  { identityId := "i", contentId := "c", projectionId := "p", resultId := "r"
    sourceKey := sourceKey, ifChangedFrom := none, seeded := false, referenceAvailable := false }

/-- Two files with the same content: the second takes the entry, and the first still has it as
its latest identity, so that there are two sources for one entry. -/
theorem same_content_breaks_representation :
    ¬ ∀ (digests : Digests) (maxEntries : ℕ+) (operations : List SessionOperation),
      EachState (applySession digests) Represents (emptySession maxEntries) operations := by
  intro h
  have hrun := (h ⟨⟨compare, id⟩, id⟩ 2
    [.remember (observationOf "file:a"), .remember (observationOf "file:b")]).last
  have hsize := hrun.latestBySource_size_le
  revert hsize
  decide

end Runs

open OrderedMaps ArtifactStore

section Compacting

/-- `NAVIGATION_FIELDS`. -/
def navigationFieldKeys : List String :=
  ["path", "mode", "requested_mode", "startLine", "endLine", "stream", "query", "totalLines",
    "returnedStartLine", "returnedEndLine", "omittedLines", "matchLine", "file_line_count",
    "file_bytes", "next_command", "raw_artifact"]

def navigationValue : JsonValue → JsonValue
  | .string value =>
      if byteLength value ≤ 512 then .string value
      else .string (String.ofList (value.toList.take 509) ++ "...")
  | value => value

def navigationFields (fields : List ProjectedField) : List ProjectedField :=
  (fields.filter fun field => decide (field.key ∈ navigationFieldKeys)).map fun field =>
    { field with value := navigationValue field.value }

def compactUnchangedResult (projected : ProjectedResult) (identity : ResultIdentity)
    (backingResultId : String) (referenceAvailable : Bool) : ProjectedResult :=
  { projected with
    status := "unchanged"
    summary := slice 256 ("unchanged " ++ projected.summary)
    facts := []
    diagnostics := []
    metrics := []
    resultId := backingResultId
    truncated := true
    fields := navigationFields projected.fields
    omissions := [⟨"content", "unchanged_dedupe", referenceAvailable⟩]
    content := []
    identity := some identity.json
    testResults := none
    isError := none
    metadata := none }

end Compacting

section Deduplication

variable {Time : Type}

/-- `DedupeResult`. -/
structure Deduplicated where
  result : ProjectedResult
  eligible : Bool
  hit : Bool
  collision : Bool

structure Connection (Time : Type) where
  session : IdentitySession
  store : Store Time

/-- `{ maxLines: 1 }`. -/
def firstLine : RetrieveOptions :=
  { query := none, startLine := none, maxLines := some 1, contextLines := none, stream := none }

variable (digests : Digests) (host : Host Time)

def dedupeWithObservation (connection : Connection Time) (now : Time)
    (projected : ProjectedResult) (observation : IdentityObservation) :
    Deduplicated × Connection Time :=
  let (found, session) := lookup connection.session observation
  let candidateResultId := found.backingResultId.getD projected.resultId
  let (retrieved, store) :=
    if found.seeded then (true, connection.store)
    else
      let (retrieved, store) := retrieve host connection.store now candidateResultId firstLine
      (retrieved.isSome, store)
  if found.hit && retrieved then
    let identity := makeResultIdentity digests observation.contentId observation.projectionId
      false none
    let remembered := { observation with
      resultId := candidateResultId
      seeded := observation.seeded || found.seeded
      referenceAvailable := observation.referenceAvailable || found.referenceAvailable }
    ({ result := compactUnchangedResult projected identity candidateResultId
        (found.referenceAvailable || !found.seeded)
       eligible := true, hit := true, collision := found.collision },
      ⟨(remember session remembered).2, store⟩)
  else
    let identity := makeResultIdentity digests observation.contentId observation.projectionId
      true found.previousId
    ({ result := { projected with identity := some identity.json }
       eligible := true, hit := false, collision := found.collision },
      ⟨(remember session observation).2, store⟩)

def identityHintFor (projected : ProjectedResult) (adapter : IdentityAdapter) :
    Option IdentityHint :=
  (projected.identity.bind identityHint?).filter fun hint =>
    decide (hint.adapter = adapter) && !hint.contentId.isEmpty && !hint.sourceKey.isEmpty

/-- What `dedupeProjectedResult` observes of a projected result. -/
def projectedObservation (projected : ProjectedResult) (budget : ProjectionBudget)
    (adapter : IdentityAdapter) : Option IdentityObservation :=
  (identityHintFor projected adapter).bind fun hint =>
    if projected.resultId.isEmpty then none
    else
      let projectionId := createProjectionIdentity digests hint budget projected
      some
        { identityId := createResultIdentity digests hint.contentId projectionId
          contentId := hint.contentId
          projectionId := projectionId
          resultId := projected.resultId
          sourceKey := hint.sourceKey
          ifChangedFrom := hint.ifChangedFrom
          seeded := false
          referenceAvailable := false }

/-- What `dedupeCanonProjectionResult` observes. -/
def canonObservation (projected : ProjectedResult) (identity : CanonProjectionIdentity) :
    Option IdentityObservation :=
  if validProjectionIdentity identity ∧ ¬projected.resultId.isEmpty then
    some (canonProjectionObservation digests identity projected.resultId)
  else none

/-- What `dedupeRuntimeInstructionResult` observes. -/
def instructionObservation (projected : ProjectedResult) (instructionId : String) :
    Option IdentityObservation :=
  if boundedIdentityPart instructionId ∧ ¬projected.resultId.isEmpty then
    some (runtimeInstructionObservation digests instructionId projected.resultId)
  else none

def dedupeObserved (connection : Connection Time) (now : Time) (projected : ProjectedResult)
    (observation : Option IdentityObservation) : Deduplicated × Connection Time :=
  match observation with
  | none =>
      ({ result := { projected with identity := none }, eligible := false, hit := false
         collision := false }, connection)
  | some observation => dedupeWithObservation digests host connection now projected observation

def dedupeProjectedResult (connection : Connection Time) (now : Time)
    (projected : ProjectedResult) (budget : ProjectionBudget) (adapter : IdentityAdapter) :
    Deduplicated × Connection Time :=
  dedupeObserved digests host connection now projected
    (projectedObservation digests projected budget adapter)

def dedupeCanonProjectionResult (connection : Connection Time) (now : Time)
    (projected : ProjectedResult) (identity : CanonProjectionIdentity) :
    Deduplicated × Connection Time :=
  dedupeObserved digests host connection now projected
    (canonObservation digests projected identity)

def dedupeRuntimeInstructionResult (connection : Connection Time) (now : Time)
    (projected : ProjectedResult) (instructionId : String) : Deduplicated × Connection Time :=
  dedupeObserved digests host connection now projected
    (instructionObservation digests projected instructionId)

end Deduplication

open OperationSequences

variable {Time : Type}

section Histories

/-- A connection and what has happened in its session: the content and the projection of the
results that were delivered in full, and of those whose identity the client has named. -/
structure History (Time : Type) where
  connection : Connection Time
  delivered : List (String × String)
  named : List (String × String)

inductive ConnectionOperation (Time : Type) where
  | dedupeProjected (now : Time) (projected : ProjectedResult) (budget : ProjectionBudget)
      (adapter : IdentityAdapter)
  | dedupeCanonProjection (now : Time) (projected : ProjectedResult)
      (identity : CanonProjectionIdentity)
  | dedupeRuntimeInstruction (now : Time) (projected : ProjectedResult) (instructionId : String)
  | lookupCanonProjection (identity : CanonProjectionIdentity)
  | lookupRuntimeInstruction (instructionId : String)
  | reset
  | store (operation : Operation Time)

def identified (observation : IdentityObservation) : String × String :=
  (observation.contentId, observation.projectionId)

/-- `if_changed_from` is the observed identity. -/
def names (observation : IdentityObservation) : Bool :=
  decide (observation.ifChangedFrom = some observation.identityId)

def deliveredIn (outcome : Deduplicated) (observation : Option IdentityObservation) :
    List (String × String) :=
  if outcome.hit then [] else observation.toList.map identified

variable (digests : Digests) (host : Host Time) (limits : Limits)

def answer (history : History Time) (now : Time) (projected : ProjectedResult)
    (observation : Option IdentityObservation) : History Time :=
  let (outcome, connection) := dedupeObserved digests host history.connection now projected
    observation
  { connection := connection
    delivered := history.delivered ++ deliveredIn outcome observation
    named := history.named ++ (observation.toList.filter names).map identified }

def applyConnection (history : History Time) : ConnectionOperation Time → History Time
  | .dedupeProjected now projected budget adapter =>
      answer digests host history now projected
        (projectedObservation digests projected budget adapter)
  | .dedupeCanonProjection now projected identity =>
      answer digests host history now projected (canonObservation digests projected identity)
  | .dedupeRuntimeInstruction now projected instructionId =>
      answer digests host history now projected
        (instructionObservation digests projected instructionId)
  | .lookupCanonProjection identity =>
      { history with connection := { history.connection with
          session := (lookupCanonProjection digests history.connection.session identity).2 } }
  | .lookupRuntimeInstruction instructionId =>
      { history with connection := { history.connection with
          session :=
            (lookupRuntimeInstruction digests history.connection.session instructionId).2 } }
  | .reset =>
      { connection := { history.connection with session := reset history.connection.session }
        delivered := []
        named := [] }
  | .store operation =>
      { history with connection := { history.connection with
          store := ArtifactStore.apply host limits history.connection.store operation } }

def emptyHistory (maxEntries : ℕ+) : History Time :=
  { connection := { session := emptySession maxEntries, store := .empty }
    delivered := []
    named := [] }

end Histories

section Invariant

variable {digests : Digests} {host : Host Time} {limits : Limits}
variable {session : IdentitySession} {input observation : IdentityObservation}

structure Remembers (identities : List (String × String)) (session : IdentitySession) : Prop where
  keyed : Keyed session
  unseeded : ∀ id entry, session.entries.get id = some entry → entry.seeded = false
  identities : ∀ id entry, session.entries.get id = some entry →
    (entry.contentId, entry.projectionId) ∈ identities

variable {identities identities' : List (String × String)}

theorem Remembers.mono (h : Remembers identities session) (hsubset : identities ⊆ identities') :
    Remembers identities' session :=
  ⟨h.keyed, h.unseeded, fun id entry hget => hsubset (h.identities id entry hget)⟩

theorem remembers_empty (maxEntries : ℕ+) : Remembers identities (emptySession maxEntries) :=
  ⟨keyed_empty maxEntries, fun _ _ hget => (nomatch hget), fun _ _ hget => (nomatch hget)⟩

theorem Remembers.touch (h : Remembers identities session) {key : String}
    (value : SeenIdentity) (hkey : value.identityId = key) (hseeded : value.seeded = false)
    (hmem : (value.contentId, value.projectionId) ∈ identities) :
    Remembers identities (touch session key value) := by
  refine ⟨h.keyed.touch value hkey, fun id entry hget => ?_, fun id entry hget => ?_⟩
  · by_cases hid : id = key
    · subst hid
      rw [get_touch_self] at hget
      cases hget
      exact hseeded
    · rw [get_touch_of_ne hid] at hget
      exact h.unseeded id entry hget
  · by_cases hid : id = key
    · subst hid
      rw [get_touch_self] at hget
      cases hget
      exact hmem
    · rw [get_touch_of_ne hid] at hget
      exact h.identities id entry hget

theorem Remembers.lookup (h : Remembers identities session) (input : IdentityObservation) :
    Remembers identities (lookup session input).2 := by
  unfold ContextRuntime.lookup
  split
  · rename_i existing hget
    split
    · exact h
    · exact h.touch _ rfl (h.unseeded _ _ hget) (h.identities _ _ hget)
  · exact h

theorem get_of_get_makeRoom {fuel : ℕ} {id : String} {entry : SeenIdentity}
    (h : (makeRoom fuel session).entries.get id = some entry) :
    session.entries.get id = some entry := by
  induction fuel generalizing session with
  | zero => exact h
  | succ fuel ih =>
    unfold makeRoom at h
    split at h
    · split at h
      · exact h
      · exact (OrderedMap.get_filter_eq_some_iff.mp (ih h)).1
    · exact h

variable (h : Remembers identities session)
include h

theorem Remembers.remember (hseeded : input.seeded = false) (hmem : identified input ∈ identities) :
    Remembers identities (remember session input).2 := by
  unfold ContextRuntime.remember
  split
  · rename_i existing hget
    split
    · exact h
    · have htouch := h.touch (updatedIdentity existing input) rfl
        (by simp [updatedIdentity, h.unseeded _ _ hget, hseeded])
        (h.identities input.identityId existing hget)
      exact ⟨htouch.keyed, htouch.unseeded, htouch.identities⟩
  · rename_i hnone
    refine ⟨?_, fun id entry hget => ?_, fun id entry hget => ?_⟩
    · have hkeyed := h.keyed.remember input
      simpa only [ContextRuntime.remember, hnone] using hkeyed
    · by_cases hid : id = input.identityId
      · subst hid
        obtain rfl : seenIdentity input = entry := by simpa [setLatest] using hget
        exact hseeded
      · exact h.unseeded id entry (get_of_get_makeRoom (by simpa [setLatest, hid] using hget))
    · by_cases hid : id = input.identityId
      · subst hid
        obtain rfl : seenIdentity input = entry := by simpa [setLatest] using hget
        exact hmem
      · exact h.identities id entry (get_of_get_makeRoom (by simpa [setLatest, hid] using hget))

theorem lookup_hit (input : IdentityObservation) (hhit : (lookup session input).1.hit = true) :
    identified input ∈ identities ∨ names input = true := by
  unfold lookup at hhit
  split at hhit
  · rename_i existing hget
    split at hhit
    · cases hhit
    · rename_i hagrees
      have hpair := h.identities _ _ hget
      simp only [disagrees, Bool.or_eq_true, decide_eq_true_eq, not_or, not_not] at hagrees
      left
      rw [identified, ← hagrees.1, ← hagrees.2]
      exact hpair
  · exact .inr hhit

theorem lookup_seeded (input : IdentityObservation) : (lookup session input).1.seeded = false := by
  unfold lookup
  split
  · rename_i existing hget
    split
    · rfl
    · exact h.unseeded _ _ hget
  · rfl

end Invariant

section Steps

variable {digests : Digests} {host : Host Time} {limits : Limits}
variable {connection : Connection Time} {now : Time} {projected : ProjectedResult}
variable {observation : IdentityObservation} {identities : List (String × String)}

/-- What a call does to the session, and when it answers that nothing has changed. -/
theorem dedupeWithObservation_spec (h : Remembers identities connection.session)
    (hseeded : observation.seeded = false) {outcome : Deduplicated × Connection Time}
    (heq : dedupeWithObservation digests host connection now projected observation = outcome) :
    Remembers (identified observation :: identities) outcome.2.session ∧
      (outcome.1.hit = true →
        (identified observation ∈ identities ∨ names observation = true) ∧
          (retrieve host connection.store now outcome.1.result.resultId firstLine).1.isSome) := by
  have hlookup := h.lookup observation
  have hfound := lookup_hit h observation
  have hfoundSeeded := lookup_seeded h observation
  unfold dedupeWithObservation at heq
  generalize lookup connection.session observation = found at *
  obtain ⟨found, session⟩ := found
  simp only at hlookup hfound hfoundSeeded
  simp only [hfoundSeeded, Bool.false_eq_true, if_false] at heq
  have hgrown : Remembers (identified observation :: identities) session :=
    hlookup.mono (List.subset_cons_self _ _)
  split at heq
  · rename_i hhit
    rw [Bool.and_eq_true] at hhit
    subst heq
    refine ⟨hgrown.remember ?_ List.mem_cons_self, fun _ => ⟨hfound hhit.1, hhit.2⟩⟩
    simp [hseeded]
  · subst heq
    exact ⟨hgrown.remember hseeded List.mem_cons_self, fun hhit => nomatch hhit⟩

/-- The identities that a session without seeds may remember. -/
def Known (history : History Time) : Prop :=
  Remembers (history.delivered ++ history.named) history.connection.session

theorem known_empty (maxEntries : ℕ+) : Known (emptyHistory maxEntries : History Time) :=
  remembers_empty maxEntries

/-- An answer that nothing has changed has grounds, and what it points to is retrievable. The
grounds may be a delivery, an earlier call in which the client named the identity, or this one. -/
def Grounded (host : Host Time) (history : History Time) (now : Time) (outcome : Deduplicated)
    (observation : Option IdentityObservation) : Prop :=
  outcome.hit = true → ∃ observed, observation = some observed ∧
    (identified observed ∈ history.delivered ∨ identified observed ∈ history.named ∨
      observed.ifChangedFrom = some observed.identityId) ∧
    (retrieve host history.connection.store now outcome.result.resultId firstLine).1.isSome

def AnswersSoundly (digests : Digests) (host : Host Time) (history : History Time) :
    ConnectionOperation Time → Prop
  | .dedupeProjected now projected budget adapter =>
      Grounded host history now
        (dedupeProjectedResult digests host history.connection now projected budget adapter).1
        (projectedObservation digests projected budget adapter)
  | .dedupeCanonProjection now projected identity =>
      Grounded host history now
        (dedupeCanonProjectionResult digests host history.connection now projected identity).1
        (canonObservation digests projected identity)
  | .dedupeRuntimeInstruction now projected instructionId =>
      Grounded host history now
        (dedupeRuntimeInstructionResult digests host history.connection now projected
          instructionId).1
        (instructionObservation digests projected instructionId)
  | _ => True

variable {history : History Time}

theorem dedupeObserved_grounded (h : Known history) {observation : Option IdentityObservation}
    (hseeded : ∀ observed, observation = some observed → observed.seeded = false) :
    Grounded host history now
      (dedupeObserved digests host history.connection now projected observation).1 observation := by
  intro hhit
  cases observation with
  | none => cases hhit
  | some observed =>
    obtain ⟨hgrounds, hretrievable⟩ :=
      (dedupeWithObservation_spec h (hseeded observed rfl) rfl).2 hhit
    refine ⟨observed, rfl, ?_, hretrievable⟩
    rcases hgrounds with hmem | hnames
    · rcases List.mem_append.mp hmem with hdelivered | hnamed
      · exact .inl hdelivered
      · exact .inr (.inl hnamed)
    · exact .inr (.inr (of_decide_eq_true hnames))

theorem known_answer (h : Known history) {observation : Option IdentityObservation}
    (hseeded : ∀ observed, observation = some observed → observed.seeded = false) :
    Known (answer digests host history now projected observation) := by
  cases observation with
  | none =>
    unfold Known answer
    exact h.mono (by simp [dedupeObserved])
  | some observed =>
    unfold Known answer
    simp only [dedupeObserved]
    generalize hcall : dedupeWithObservation digests host history.connection now projected observed =
      outcome
    obtain ⟨hremembers, hhit⟩ := dedupeWithObservation_spec h (hseeded observed rfl) hcall
    apply hremembers.mono
    intro pair hpair
    rcases List.mem_cons.mp hpair with rfl | hpair
    · cases hcase : outcome.1.hit with
      | false => simp [deliveredIn, hcase]
      | true =>
        rcases (hhit hcase).1 with hmem | hnames
        · rcases List.mem_append.mp hmem with hmem | hmem
          · simp [hmem]
          · simp [hmem]
        · simp [hnames]
    · rcases List.mem_append.mp hpair with hmem | hmem
      · simp [hmem]
      · simp [hmem]

theorem projectedObservation_seeded {budget : ProjectionBudget} {adapter : IdentityAdapter}
    (h : projectedObservation digests projected budget adapter = some observation) :
    observation.seeded = false := by
  obtain ⟨hint, _, hobserved⟩ := Option.bind_eq_some_iff.mp h
  split at hobserved
  · cases hobserved
  · cases hobserved
    rfl

theorem canonObservation_seeded {identity : CanonProjectionIdentity}
    (h : canonObservation digests projected identity = some observation) :
    observation.seeded = false := by
  unfold canonObservation at h
  split at h
  · cases h
    rfl
  · cases h

theorem instructionObservation_seeded {instructionId : String}
    (h : instructionObservation digests projected instructionId = some observation) :
    observation.seeded = false := by
  unfold instructionObservation at h
  split at h
  · cases h
    rfl
  · cases h

/-- One operation keeps the session without seeds. -/
theorem Known.applyConnection (h : Known history) (operation : ConnectionOperation Time) :
    Known (applyConnection digests host limits history operation) := by
  cases operation with
  | dedupeProjected now projected budget adapter =>
    exact known_answer h fun _ => projectedObservation_seeded
  | dedupeCanonProjection now projected identity =>
    exact known_answer h fun _ => canonObservation_seeded
  | dedupeRuntimeInstruction now projected instructionId =>
    exact known_answer h fun _ => instructionObservation_seeded
  | lookupCanonProjection identity =>
    simp only [ContextRuntime.applyConnection, Known, lookupCanonProjection]
    split
    · exact h.lookup _
    · exact h
  | lookupRuntimeInstruction instructionId =>
    simp only [ContextRuntime.applyConnection, Known, lookupRuntimeInstruction]
    split
    · exact h.lookup _
    · exact h
  | reset => exact remembers_empty history.connection.session.maxEntries
  | store operation => exact h

theorem answersSoundly (h : Known history) (operation : ConnectionOperation Time) :
    AnswersSoundly digests host history operation := by
  cases operation with
  | dedupeProjected now projected budget adapter =>
    exact dedupeObserved_grounded h fun _ => projectedObservation_seeded
  | dedupeCanonProjection now projected identity =>
    exact dedupeObserved_grounded h fun _ => canonObservation_seeded
  | dedupeRuntimeInstruction now projected instructionId =>
    exact dedupeObserved_grounded h fun _ => instructionObservation_seeded
  | lookupCanonProjection identity => trivial
  | lookupRuntimeInstruction instructionId => trivial
  | reset => trivial
  | store operation => trivial

/-- Every call of every run without seeds answers soundly. -/
theorem answersSoundly_of_run (digests : Digests) (host : Host Time) (limits : Limits)
    (maxEntries : ℕ+) (operations : List (ConnectionOperation Time)) :
    EachStep (applyConnection digests host limits) (AnswersSoundly digests host)
      (emptyHistory maxEntries) operations := by
  have hknown : EachState (applyConnection digests host limits) Known
      (emptyHistory maxEntries) operations :=
    eachState_of_invariant (fun _ operation h => h.applyConnection operation)
      (known_empty maxEntries) operations
  exact hknown.eachStep fun _ operation h => answersSoundly h operation

end Steps

section NamedEarlier

theorem identityHint?_createIdentityHint (hint : IdentityHint) :
    identityHint? (createIdentityHint hint) = some hint := by
  obtain ⟨contentId, adapter, sourceKey, projectionKey, ifChangedFrom⟩ := hint
  cases ifChangedFrom with
  | none => cases adapter <;> rfl
  | some ifChangedFrom => cases adapter <;> rfl

/-- As `Grounded`, but only this call may name the identity. -/
def GroundedNow (host : Host Time) (history : History Time) (now : Time) (outcome : Deduplicated)
    (observation : Option IdentityObservation) : Prop :=
  outcome.hit = true → ∃ observed, observation = some observed ∧
    (identified observed ∈ history.delivered ∨
      observed.ifChangedFrom = some observed.identityId) ∧
    (retrieve host history.connection.store now outcome.result.resultId firstLine).1.isSome

def AnswersSoundlyNow (digests : Digests) (host : Host Time) (history : History Time) :
    ConnectionOperation Time → Prop
  | .dedupeProjected now projected budget adapter =>
      GroundedNow host history now
        (dedupeProjectedResult digests host history.connection now projected budget adapter).1
        (projectedObservation digests projected budget adapter)
  | _ => True

section Hits

variable {digests : Digests} {host : Host Time} {now : Time} {connection : Connection Time}
variable {projected : ProjectedResult} {observation : IdentityObservation}

theorem hit_of_remembered {existing : SeenIdentity}
    (hget : connection.session.entries.get observation.identityId = some existing)
    (hagrees : disagrees existing observation = false) (hseeded : existing.seeded = false)
    (hretrieve : (retrieve host connection.store now existing.resultId firstLine).1.isSome) :
    (dedupeWithObservation digests host connection now projected observation).1.hit = true := by
  simp [dedupeWithObservation, lookup, hget, hagrees, hseeded, hretrieve]

/-- An identity that the client names is answered, and remembered, at once. -/
theorem hit_of_named {maxEntries : ℕ+} {store : Store Time}
    (hnames : observation.ifChangedFrom = some observation.identityId)
    (hseeded : observation.seeded = false)
    (hretrieve : (retrieve host store now projected.resultId firstLine).1.isSome)
    {outcome : Deduplicated × Connection Time}
    (heq : dedupeWithObservation digests host ⟨emptySession maxEntries, store⟩ now projected
      observation = outcome) :
    outcome.1.hit = true ∧ outcome.2.store = (retrieve host store now projected.resultId
        firstLine).2 ∧
      ∃ existing, outcome.2.session.entries.get observation.identityId = some existing ∧
        existing.resultId = projected.resultId ∧ existing.seeded = false ∧
        identified observation = (existing.contentId, existing.projectionId) := by
  have hlookup : lookup (emptySession maxEntries) observation =
      (⟨true, false, none, none, false, false⟩, emptySession maxEntries) := by
    simp [lookup, emptySession, hnames]
  simp only [dedupeWithObservation, hlookup, Option.getD_none, Bool.false_eq_true, if_false,
    hretrieve, Bool.and_self, if_true] at heq
  subst heq
  refine ⟨rfl, rfl, _, OrderedMap.get_set_self, rfl, ?_, rfl⟩
  simp [seenIdentity, hseeded]

end Hits

def plainDigests : Digests := ⟨⟨compare, id⟩, id⟩

def plainHost : Host ℕ where
  isExpired expiresAt now := decide (expiresAt ≤ now)
  later now ttlMs := now + ttlMs.num.toNat
  numberText _ := ""
  toLowerCase := id

def smallLimits : Limits :=
  ⟨1000, 10, 1000, 1000, by decide, by decide, by decide, by decide⟩

def readHint (ifChangedFrom : Option String) : IdentityHint :=
  ⟨"c", .localFileRead, "file:a", "k", ifChangedFrom⟩

def readResult (ifChangedFrom : Option String) : ProjectedResult :=
  { operation := "read", status := "success", summary := "", facts := [], diagnostics := []
    metrics := [], testResults := none, resultId := "r", truncated := false, fields := []
    omissions := [], content := [], identity := some (createIdentityHint (readHint ifChangedFrom))
    isError := none, metadata := none }

def readIdentity : String :=
  createResultIdentity plainDigests "c"
    (createProjectionIdentity plainDigests (readHint none) defaultResponseBudget (readResult none))

def readObservation (ifChangedFrom : Option String) : IdentityObservation :=
  { identityId := readIdentity
    contentId := "c"
    projectionId := createProjectionIdentity plainDigests (readHint none) defaultResponseBudget
      (readResult none)
    resultId := "r"
    sourceKey := "file:a"
    ifChangedFrom := ifChangedFrom
    seeded := false
    referenceAvailable := false }

theorem projectedObservation_readResult (ifChangedFrom : Option String) :
    projectedObservation plainDigests (readResult ifChangedFrom) defaultResponseBudget
      .localFileRead = some (readObservation ifChangedFrom) := by
  have hhint : identityHintFor (readResult ifChangedFrom) .localFileRead =
      some (readHint ifChangedFrom) := by
    simp only [identityHintFor, readResult, Option.bind_some, identityHint?_createIdentityHint]
    rfl
  simp only [projectedObservation, hhint, Option.bind_some]
  rfl

def storedRead : Store ℕ :=
  ArtifactStore.apply plainHost smallLimits .empty
    (.putArtifact ⟨0, .ok "", .ok ()⟩ ⟨"x", none, none, none⟩ (some "r"))

def namedOnce : List (ConnectionOperation ℕ) :=
  [.store (.putArtifact ⟨0, .ok "", .ok ()⟩ ⟨"x", none, none, none⟩ (some "r")),
    .dedupeProjected 0 (readResult (some readIdentity)) defaultResponseBudget .localFileRead,
    .dedupeProjected 0 (readResult none) defaultResponseBudget .localFileRead]

/-- The second call is answered as unchanged although nothing was delivered and it names
nothing: the first call has named the identity. -/
theorem named_earlier_answers_unchanged :
    ¬ ∀ (digests : Digests) (host : Host ℕ) (limits : Limits) (maxEntries : ℕ+)
        (operations : List (ConnectionOperation ℕ)), Function.Injective digests.hashContent →
      EachStep (applyConnection digests host limits) (AnswersSoundlyNow digests host)
        (emptyHistory maxEntries) operations := by
  intro h
  obtain ⟨_, _, hsecond, _⟩ := h plainDigests plainHost smallLimits 2 namedOnce fun _ _ heq => heq
  have hretrieve : (retrieve plainHost storedRead 0 "r" firstLine).1.isSome = true := by
    decide
  have hagain : (retrieve plainHost (retrieve plainHost storedRead 0 "r" firstLine).2 0 "r"
      firstLine).1.isSome = true := by
    decide
  have hcall : GroundedNow plainHost
      (answer plainDigests plainHost ⟨⟨emptySession 2, storedRead⟩, [], []⟩ 0
        (readResult (some readIdentity)) (some (readObservation (some readIdentity)))) 0
      (dedupeObserved plainDigests plainHost
        (answer plainDigests plainHost ⟨⟨emptySession 2, storedRead⟩, [], []⟩ 0
          (readResult (some readIdentity)) (some (readObservation (some readIdentity)))).connection
        0 (readResult none) (some (readObservation none))).1
      (some (readObservation none)) := by
    rw [← projectedObservation_readResult, ← projectedObservation_readResult]
    exact hsecond
  simp only [answer, dedupeObserved] at hcall
  generalize hfirst : dedupeWithObservation plainDigests plainHost ⟨emptySession 2, storedRead⟩ 0
    (readResult (some readIdentity)) (readObservation (some readIdentity)) = outcome at hcall
  obtain ⟨hhit, hstore, existing, hget, hid, hseeded, hpair⟩ :=
    hit_of_named rfl rfl hretrieve hfirst
  obtain ⟨hcontent, hprojection⟩ := Prod.mk.inj hpair
  have hagrees : disagrees existing (readObservation none) = false := by
    simp [disagrees, ← hcontent, ← hprojection, readObservation]
  obtain ⟨observed, hobserved, hgrounds, _⟩ := hcall (hit_of_remembered hget hagrees hseeded (by
    rw [hstore, hid]
    exact hagain))
  cases hobserved
  rcases hgrounds with hdelivered | hnames
  · simp [deliveredIn, hhit] at hdelivered
  · cases hnames

end NamedEarlier

end Mottainai.ContextRuntime

import Mottainai.CanonCandidates

/-!
# The admission of candidates

The candidates of the third layer of a canon are admitted together or not at all. Of each candidate
a companion makes a projection. What it answers is compared with the candidate and with the intent,
and is copied into a content entry of the canon. Values are those of JSON, and a property that is
undefined is one that is not there.
-/

namespace Mottainai.CanonAdmission

open JavaScriptValues JsonValues CanonCandidates

section Values

def maxAdmissionEntries : ℕ := 256

def maxJsonEntries : ℕ := 256

def maxJsonDepth : ℕ := 32

def maxTextLength : ℕ := 512

/-- The value at the end of a path of properties, if it is there. -/
def at? (path : List String) (value : JsonValue) : Option JsonValue := path.foldlM member? value

def isRecord : JsonValue → Bool
  | .object _ => true
  | _ => false

def nonEmpty : Option JsonValue → Bool
  | some (.string value) => decide (trim value ≠ "")
  | _ => false

/-- `SuzukuriSourceIdentity`. -/
structure SourceIdentity where
  id : String
  path : Option String
  revision : Option String
  digest : Option String
  deriving DecidableEq

/-- A part that may be missing, but is not empty. -/
def identityPart (fields : Properties) (key : String) : Option (Option String) :=
  match property fields key with
  | none => some none
  | some value => if nonEmpty (some value) then some (some (trim (textOf value))) else none

def sourceIdentity : JsonValue → Option SourceIdentity
  | .string value =>
      if trim value = "" then none else some { id := trim value, path := none, revision := none, digest := none }
  | .object fields => do
      let id ← statedPart fields "id"
      let path ← identityPart fields "path"
      let revision ← identityPart fields "revision"
      let digest ← identityPart fields "digest"
      return { id, path, revision, digest }
  | _ => none

/-- `expectedSourceIdentity(candidate)`, of a valid candidate. -/
def expectedSourceIdentity (candidate : JsonValue) : SourceIdentity :=
  { id := textAt ["source", "identity"] candidate
    path := none
    revision := some (textAt ["source", "generation"] candidate)
    digest := none }

def boundedText (text : String) : String :=
  if utf16Length text ≤ maxTextLength then text else slice 509 text ++ "..."

mutual

/-- The bounded copy of a value. -/
def jsonValue (depth : ℕ) : JsonValue → JsonValue
  | .string text => .string (boundedText text)
  | .array items =>
      if maxJsonDepth ≤ depth then .string "[bounded]" else .array (jsonItems (depth + 1) maxJsonEntries items)
  | .object fields =>
      if maxJsonDepth ≤ depth then .string "[bounded]"
      else .object (fromEntries (jsonEntries (depth + 1) maxJsonEntries fields))
  | value => value

def jsonItems (depth : ℕ) : ℕ → List JsonValue → List JsonValue
  | 0, _ => []
  | _, [] => []
  | n + 1, item :: items => jsonValue depth item :: jsonItems depth n items

def jsonEntries (depth : ℕ) : ℕ → Properties → Properties
  | 0, _ => []
  | _, [] => []
  | n + 1, (key, item) :: fields => (slice maxTextLength key, jsonValue depth item) :: jsonEntries depth n fields

end

mutual

/-- `String(value)`, which a regular expression and a template make of a value. -/
def coercedText : JsonValue → String
  | .null => "null"
  | .boolean value => if value then "true" else "false"
  | .number literal => literal
  | .string text => text
  | .array items => ",".intercalate (coercedItems items)
  | .object _ => "[object Object]"

def coercedItems : List JsonValue → List String
  | [] => []
  | .null :: items => "" :: coercedItems items
  | item :: items => coercedText item :: coercedItems items

end

/-- `Number.isSafeInteger(value) && value >= bound`. -/
def isSafeFrom (bound : ℕ) : Option JsonValue → Bool
  | some value =>
      Schema.number (fun d => d.isInteger && d.atLeast bound && d.atMost maxSafeInteger.toNat) value
  | none => false

end Values

section Components

/-- `SuzukuriComponentIdentity`. -/
structure ComponentIdentity where
  id : String
  version : String
  deriving DecidableEq

/-- A value that is the identity of a component. -/
def componentIdentity (value : Option JsonValue) : Option ComponentIdentity :=
  let id := value.bind (member? · "id")
  let version := value.bind (member? · "version")
  if nonEmpty id && nonEmpty version then
    some { id := textOf (id.getD .null), version := textOf (version.getD .null) }
  else none

def component (identity : ComponentIdentity) : JsonValue :=
  .object [("id", .string identity.id), ("version", .string identity.version)]

/-- A reference may have a version, after the last `@` that is not its first character. -/
def referenceIdentity (reference : String) (actual : ComponentIdentity) : ComponentIdentity :=
  let version := (reference.toList.reverse.takeWhile (· ≠ '@')).reverse
  let id := reference.toList.take (reference.toList.length - version.length - 1)
  if '@' ∈ reference.toList ∧ id ≠ [] then { id := String.ofList id, version := String.ofList version }
  else { id := reference, version := actual.version }

def componentMatches (reference : Option String) (actual : ComponentIdentity) : Bool :=
  reference.all fun reference => decide (referenceIdentity reference actual = actual)

end Components

section Validity

/-- The texts of a candidate that may not be empty. -/
def candidateTexts : List (List String) :=
  [["candidateId"], ["source", "identity"], ["source", "generation"], ["selector", "type"], ["selector", "value"],
    ["selectionReason"], ["semanticProvenance", "reference"], ["semanticProvenance", "entityId"],
    ["semanticProvenance", "entityKind"], ["semanticProvenance", "authority"],
    ["semanticProvenance", "producer", "name"], ["semanticProvenance", "producer", "version"]]

def candidateValid (candidate : JsonValue) : Bool :=
  candidateTexts.all fun path => nonEmpty (at? path candidate)

def isMissing (value : Option JsonValue) : Bool := value.isNone

def intentValid (intent : JsonValue) : Bool :=
  isRecord intent && nonEmpty (member? intent "adapter") && nonEmpty (member? intent "view") &&
    nonEmpty (member? intent "renderer") && isSafeFrom 1 (member? intent "budget") &&
    (isMissing (member? intent "contract") || nonEmpty (member? intent "contract")) &&
    (isMissing (member? intent "profile") || nonEmpty (member? intent "profile"))

inductive CanonC3AdmissionDiagnosticCode where
  | missingCompanion | missingSource | missingProjectionIntent | invalidCandidate | invalidSource
  | invalidProjectionIntent | duplicateCandidate | projectionFailed | sourceIdentityMismatch
  | projectionIdentityMismatch | projectionIncomplete | entryTooLarge
  deriving DecidableEq

/-- The source of a projection, which it states twice. -/
def projectionSourceIdentity (result : JsonValue) : Option SourceIdentity := do
  let source ← (member? result "source").bind sourceIdentity
  let stated ← (member? result "sourceIdentity").bind sourceIdentity
  if source = stated then some source else none

def componentAt (result : JsonValue) (path : List String) : Option ComponentIdentity :=
  componentIdentity (at? path result)

/-- Where a projection has the identities of its components. -/
def componentPaths : List (List String) :=
  [["adapter"], ["contract"], ["semanticContract"], ["view"], ["renderer"], ["components", "adapter"],
    ["components", "semanticContract"], ["components", "view"], ["components", "renderer"], ["provenance", "core"],
    ["provenance", "adapter"], ["provenance", "semanticContract"], ["provenance", "view"], ["provenance", "renderer"]]

/-- The names under which the components are listed again. -/
def listedComponents : List String := ["adapter", "semanticContract", "view", "renderer"]

def isArray : Option JsonValue → Bool
  | some (.array _) => true
  | _ => false

/-- The first group of checks of a projection, which are about the types of its parts. -/
def wellTyped (result : JsonValue) : Bool :=
  componentPaths.all (fun path => (componentAt result path).isSome) &&
    (text? (at? ["loss", "state"] result)).any (fun state => state ∈ ["none", "partial", "total"]) &&
    (text? (member? result "output")).any (fun output =>
      isSafeFrom (byteLength output) (member? result "outputSize")) &&
    isSafeFrom 0 (member? result "byteLength") &&
    decide (literal? (member? result "byteLength") = literal? (member? result "outputSize")) &&
    isArray (at? ["loss", "discarded"] result)
where
  literal? : Option JsonValue → Option String
    | some (.number literal) => some literal
    | _ => none

/-- The text of the digest. -/
def projectionDigest (result : JsonValue) : String :=
  ((member? result "projectionDigest").map coercedText).getD "undefined"

def intentComponents : List String := ["adapter", "view", "renderer", "contract"]

/-- The second group, which compares the projection with the intent and with itself. -/
def asIntended (result intent : JsonValue) (expectedSource : SourceIdentity) : Bool :=
  decide (wellTyped.literal? (member? result "budget") = wellTyped.literal? (member? intent "budget")) &&
    intentComponents.all (fun name => (componentAt result [name]).any
      (componentMatches (text? (member? intent name)))) &&
    listedComponents.all (fun name =>
      decide (componentAt result ["components", name] = componentAt result [name]) &&
        decide (componentAt result ["provenance", name] = componentAt result [name])) &&
    decide (text? (at? ["provenance", "core", "id"] result) = some "suzukuri-projection-core") &&
    decide (text? (at? ["provenance", "core", "version"] result) = text? (member? result "coreVersion")) &&
    Schema.isHexSha256 (projectionDigest result).toList &&
    nonEmpty (member? result "suzukuriVersion") && nonEmpty (member? result "coreVersion") &&
    (match text? (member? intent "profile") with
      | none => isMissing (member? result "profile")
      | some profile => decide (text? (member? result "profile") = some profile)) &&
    (isMissing (at? ["provenance", "source", "identity"] result) ||
      decide (text? (at? ["provenance", "source", "identity"] result) = some expectedSource.id))

def projectionValid (result intent : JsonValue) (expectedSource : SourceIdentity) :
    Option CanonC3AdmissionDiagnosticCode :=
  if projectionSourceIdentity result ≠ some expectedSource then some .sourceIdentityMismatch
  else if !wellTyped result then some .projectionIdentityMismatch
  else if !asIntended result intent expectedSource then some .projectionIdentityMismatch
  else if text? (member? result "completeness") ≠ some "complete" ∨
      text? (at? ["loss", "state"] result) = some "total" then some .projectionIncomplete
  else none

end Validity

section Entries

/-- The parts of a projection that are copied with bounds. -/
def copiedParts (result intent : JsonValue) : List (String × JsonValue) :=
  [("source", member result "source"), ("sourceIdentity", member result "sourceIdentity"),
    ("components", member result "components"), ("provenance", member result "provenance"),
    ("loss", member result "loss"), ("diagnostics", member result "diagnostics"), ("intent", intent)]

def componentPart (result : JsonValue) (name : String) : String × JsonValue :=
  (name, ((componentAt result [name]).map component).getD .null)

/-- The projection of an entry. The keys are those of the source, in another order. -/
def projectionOf (intent result : JsonValue) : Properties :=
  (copiedParts result intent).map (fun part => (part.1, jsonValue 0 part.2)) ++
    ["adapter", "contract", "semanticContract", "view", "renderer"].map (componentPart result) ++
    ["budget", "suzukuriVersion", "coreVersion", "projectionDigest", "completeness", "output"].map (fun name =>
      (name, member result name)) ++
    optionalProperty "profile" (member? result "profile")

def candidateIdOf (candidate : JsonValue) : String := textAt ["candidateId"] candidate

def entryFor (candidate : JsonValue) (ordinal : ℕ) (intent result : JsonValue) : JsonValue :=
  .object [("contentId", .string (candidateIdOf candidate)),
    ("value", .object [("ordinal", .number (toString ordinal)), ("candidate", jsonValue 0 candidate),
      ("projection", .object (projectionOf intent result))]),
    ("provenance", .object [("source", .string "suzukuri"),
      ("reference", .string (candidateIdOf candidate ++ ":" ++ projectionDigest result)),
      ("supplied", .boolean false)])]

end Entries

section Admission

variable {ε : Type}

inductive Content where
  | text (value : String)
  | bytes (value : List UInt8)

/-- `CanonC3Source`. A text or bytes alone are a source with this content and nothing else. -/
structure CanonC3Source where
  content : Option Content
  identity : Option JsonValue
  mediaType : Option JsonValue

/-- `SuzukuriProjectionRequest`, with the parts of its source. -/
structure ProjectionRequest where
  intent : JsonValue
  content : Content
  mediaType : Option JsonValue
  sourceIdentity : SourceIdentity

inductive ProjectOutcome (ε : Type) where
  | thrown (error : ε)
  | refused (message : String) (error : ε)
  | projected (result : JsonValue)

structure CanonC3AdmissionDiagnostic (ε : Type) where
  code : CanonC3AdmissionDiagnosticCode
  candidateId : Option JsonValue
  message : String
  error : Option ε

/-- `AdmitCanonC3CandidatesInput`. A resolver is called once for each candidate, in their order: it is
told the ordinal, on which its answer may depend. -/
structure AdmitInput (ε : Type) where
  candidates : List JsonValue
  sourceForCandidate : Option (ℕ → JsonValue → Except ε CanonC3Source)
  projectionIntent : Option (ℕ → JsonValue → Except ε JsonValue)
  companion : Option (ℕ → ProjectionRequest → ProjectOutcome ε)

structure AdmissionResult (ε : Type) where
  ok : Bool
  entries : List JsonValue
  candidates : List JsonValue
  diagnostics : List (CanonC3AdmissionDiagnostic ε)
  complete : Bool

def failure (candidates : List JsonValue) (diagnostics : List (CanonC3AdmissionDiagnostic ε)) : AdmissionResult ε :=
  { ok := false, entries := [], candidates := candidates, diagnostics := diagnostics, complete := false }

def reported (code : CanonC3AdmissionDiagnosticCode) (candidateId : Option JsonValue) (message : String)
    (error : Option ε) : CanonC3AdmissionDiagnostic ε := ⟨code, candidateId, message, error⟩

def missingInputs (input : AdmitInput ε) : List (CanonC3AdmissionDiagnostic ε) :=
  (if input.companion.isNone then
    [reported .missingCompanion none "C3 admission requires the managed Suzukuri companion." none] else []) ++
  (if input.sourceForCandidate.isNone then
    [reported .missingSource none "C3 admission requires an explicit source resolver." none] else []) ++
  if input.projectionIntent.isNone then
    [reported .missingProjectionIntent none "C3 admission requires an explicit projection intent." none] else []

/-- The loop over the candidates before anything is projected. -/
def candidateDiagnostics : List JsonValue → List String → List (CanonC3AdmissionDiagnostic ε)
  | [], _ => []
  | candidate :: candidates, seen =>
      let candidateId := member? candidate "candidateId"
      if !candidateValid candidate then
        reported .invalidCandidate candidateId "C3 candidate is incomplete." none ::
          candidateDiagnostics candidates seen
      else if candidateIdOf candidate ∈ seen then
        reported .duplicateCandidate candidateId "C3 candidate identity is duplicated." none ::
          candidateDiagnostics candidates seen
      else candidateDiagnostics candidates (seen ++ [candidateIdOf candidate])

/-- An identity that a source states is the one of the candidate. -/
def suppliedIdentityMatches (identity : JsonValue) (expectedSource : SourceIdentity) : Bool :=
  (sourceIdentity identity).any fun supplied => supplied.id = expectedSource.id &&
    (supplied.revision.isNone || supplied.revision = expectedSource.revision)

variable (sourceForCandidate : ℕ → JsonValue → Except ε CanonC3Source)
  (projectionIntent : ℕ → JsonValue → Except ε JsonValue) (project : ℕ → ProjectionRequest → ProjectOutcome ε)

/-- What is requested for a candidate, with the intent. -/
def requestFor (ordinal : ℕ) (candidate : JsonValue) :
    Except (CanonC3AdmissionDiagnostic ε) (JsonValue × ProjectionRequest) := do
  let candidateId := some (.string (candidateIdOf candidate))
  let intent ← (projectionIntent ordinal candidate).mapError fun error =>
    reported .invalidProjectionIntent candidateId "Projection intent resolution failed." (some error)
  if !intentValid intent then
    throw (reported .invalidProjectionIntent candidateId
      "Projection intent must explicitly name supported components and a positive budget." none)
  let source ← (sourceForCandidate ordinal candidate).mapError fun error =>
    reported .invalidSource candidateId "Source resolution failed." (some error)
  let some content := source.content
    | throw (reported .invalidSource candidateId "Source content must be a string or byte array." none)
  let expectedSource := expectedSourceIdentity candidate
  if !source.identity.all (suppliedIdentityMatches · expectedSource) then
    throw (reported .sourceIdentityMismatch candidateId
      "Resolved source identity does not match the selected candidate." none)
  return (intent, { intent, content, mediaType := source.mediaType, sourceIdentity := expectedSource })

/-- The turn of a candidate in the loop, up to its entry. -/
def projectionFor (ordinal : ℕ) (candidate : JsonValue) :
    Except (CanonC3AdmissionDiagnostic ε) (JsonValue × JsonValue) := do
  let candidateId := some (.string (candidateIdOf candidate))
  let (intent, request) ← requestFor sourceForCandidate projectionIntent ordinal candidate
  match project ordinal request with
  | .thrown error =>
      throw (reported .projectionFailed candidateId "Suzukuri projection invocation failed." (some error))
  | .refused message error => throw (reported .projectionFailed candidateId message (some error))
  | .projected result =>
      match projectionValid result intent (expectedSourceIdentity candidate) with
      | some invalid =>
          throw (reported invalid candidateId "Suzukuri returned an invalid or insufficient projection." none)
      | none => return (intent, result)

def entryOf (ordinal : ℕ) (candidate : JsonValue) : Except (CanonC3AdmissionDiagnostic ε) JsonValue :=
  (projectionFor sourceForCandidate projectionIntent project ordinal candidate).map fun projection =>
    entryFor candidate ordinal projection.1 projection.2

def errorOf {α : Type} : Except (CanonC3AdmissionDiagnostic ε) α → Option (CanonC3AdmissionDiagnostic ε)
  | .error diagnostic => some diagnostic
  | .ok _ => none

def admitEach (candidates : List JsonValue) : AdmissionResult ε :=
  let outcomes := candidates.zipIdx.map fun turn =>
    entryOf sourceForCandidate projectionIntent project turn.2 turn.1
  let diagnostics := outcomes.filterMap errorOf
  if diagnostics ≠ [] then failure candidates diagnostics
  else
    { ok := true, entries := outcomes.filterMap (·.toOption), candidates := candidates, diagnostics := []
      complete := true }

def admitCanonC3Candidates (input : AdmitInput ε) : AdmissionResult ε :=
  match input.sourceForCandidate, input.projectionIntent, input.companion with
  | some sourceForCandidate, some projectionIntent, some project =>
      if maxAdmissionEntries < input.candidates.length then
        failure input.candidates
          [reported .entryTooLarge none "C3 admission exceeds the bounded entry limit." none]
      else
        let diagnostics := candidateDiagnostics input.candidates []
        if diagnostics ≠ [] then failure input.candidates diagnostics
        else admitEach sourceForCandidate projectionIntent project input.candidates
  | _, _, _ => failure input.candidates (missingInputs input)

end Admission

open JsonValues.Schema CanonIdentity

section Acceptance

/-- `boundedJsonRecordSchema`, of a record before validation leaves out the key `__proto__`. -/
def recordAccepted (valueSchema : Schema) : Schema
  | .object properties =>
      decide ((properties.filter fun entry => entry.1 != "__proto__").length ≤ maxJsonObjectEntries) &&
        properties.all fun entry => decide (utf16Length entry.1 ≤ maxIdLength) && valueSchema entry.2
  | _ => false

/-- `jsonValueSchemaAtDepth(depth)`, by the levels that are left. -/
def jsonAcceptedAbove : ℕ → Schema
  | 0 => jsonPrimitiveSchema
  | levels + 1 => fun value => jsonPrimitiveSchema value ||
      arrayOf 0 maxJsonArrayEntries (jsonAcceptedAbove levels) value || recordAccepted (jsonAcceptedAbove levels) value

/-- `CanonContentEntrySchema`. -/
def contentEntryAccepted : Schema := object [required "contentId" identifierSchema,
  required "value" (jsonAcceptedAbove maxJsonNestingDepth), required "provenance" provenanceSchema]

/-- A value in which so many arrays and records are nested at most. -/
def NestsWithin : ℕ → JsonValue → Prop
  | 0, value => jsonPrimitiveSchema value = true
  | levels + 1, .array items => ∀ item ∈ items, NestsWithin levels item
  | levels + 1, .object fields => ∀ field ∈ fields, NestsWithin levels field.2
  | _ + 1, _ => True

variable {levels : ℕ}

theorem accepted_of_primitive {value : JsonValue} (h : jsonPrimitiveSchema value = true) (levels : ℕ) :
    jsonAcceptedAbove levels value = true := by
  cases levels with
  | zero => exact h
  | succ levels => simp [jsonAcceptedAbove, h]

theorem accepted_array_iff {items : List JsonValue} : jsonAcceptedAbove (levels + 1) (.array items) = true ↔
    items.length ≤ maxJsonArrayEntries ∧ ∀ item ∈ items, jsonAcceptedAbove levels item = true := by
  simp [jsonAcceptedAbove, jsonPrimitiveSchema, recordAccepted, arrayOf_iff]

theorem accepted_object_iff {fields : Properties} : jsonAcceptedAbove (levels + 1) (.object fields) = true ↔
    (fields.filter fun field => field.1 != "__proto__").length ≤ maxJsonObjectEntries ∧
      ∀ field ∈ fields, utf16Length field.1 ≤ maxIdLength ∧ jsonAcceptedAbove levels field.2 = true := by
  simp [jsonAcceptedAbove, jsonPrimitiveSchema, recordAccepted, arrayOf, -Prod.forall]

end Acceptance

section Copies

variable {depth n : ℕ} {fields : Properties}

theorem utf16Length_append (left right : String) :
    utf16Length (left ++ right) = utf16Length left + utf16Length right := by
  rw [utf16Length, utf16Length, utf16Length, String.toList_append]
  induction left.toList with
  | nil => simp
  | cons c cs ih => simp [ih, add_assoc]

theorem utf16Length_slice_le (n : ℕ) (text : String) : utf16Length (slice n text) ≤ n := by
  rw [utf16Length, slice, String.toList_ofList]
  induction text.toList generalizing n with
  | nil => exact Nat.zero_le n
  | cons c cs ih =>
    rw [sliceChars]
    split_ifs with hfits hone
    · rw [List.foldr_cons]
      have hrest := ih (n - codeUnits c)
      omega
    · rw [hone]
      decide
    · exact Nat.zero_le n

variable {entry : String × JsonValue}

theorem mem_foldl_define {entries properties : Properties}
    (h : entry ∈ entries.foldl (fun properties entry => define properties entry.1 entry.2) properties) :
    entry ∈ properties ∨ entry ∈ entries := by
  induction entries generalizing properties with
  | nil => exact .inl h
  | cons head entries ih =>
    rcases ih h with hdefined | hmem
    · rcases mem_define hdefined with rfl | hold
      · exact .inr List.mem_cons_self
      · exact .inl hold
    · exact .inr (List.mem_cons_of_mem _ hmem)

theorem length_define_le (properties : Properties) (key : String) (value : JsonValue) :
    (define properties key value).length ≤ properties.length + 1 := by
  rw [define]
  split_ifs
  · simp
  · cases arrayIndex key with
    | none => simp
    | some n =>
      have hsplit := congrArg List.length
        (List.takeWhile_append_dropWhile (p := fun p : String × JsonValue => (arrayIndex p.1).any (· < n)) (l := properties))
      simp only [List.length_append, List.length_cons] at hsplit ⊢
      omega

theorem length_foldl_define_le (entries properties : Properties) :
    (entries.foldl (fun properties entry => define properties entry.1 entry.2) properties).length ≤
      properties.length + entries.length := by
  induction entries generalizing properties with
  | nil => exact le_rfl
  | cons head entries ih =>
    have hhead := length_define_le properties head.1 head.2
    have hrest := ih (define properties head.1 head.2)
    rw [List.foldl_cons, List.length_cons]
    omega

variable (items : List JsonValue)

theorem mem_jsonItems {item : JsonValue} (h : item ∈ jsonItems depth n items) :
    ∃ value, item = jsonValue depth value := by
  induction n generalizing items with
  | zero => simp [jsonItems] at h
  | succ n ih =>
    cases items with
    | nil => simp [jsonItems] at h
    | cons head items =>
      rw [jsonItems, List.mem_cons] at h
      exact h.elim (fun heq => ⟨head, heq⟩) (ih items)

theorem length_jsonItems_le : (jsonItems depth n items).length ≤ n := by
  induction n generalizing items with
  | zero => simp [jsonItems]
  | succ n ih =>
    cases items with
    | nil => simp [jsonItems]
    | cons head items =>
      rw [jsonItems, List.length_cons]
      exact Nat.succ_le_succ (ih items)

theorem mem_jsonEntries (fields : Properties) (h : entry ∈ jsonEntries depth n fields) :
    utf16Length entry.1 ≤ maxTextLength ∧ ∃ value, entry.2 = jsonValue depth value := by
  induction n generalizing fields with
  | zero => simp [jsonEntries] at h
  | succ n ih =>
    cases fields with
    | nil => simp [jsonEntries] at h
    | cons head fields =>
      obtain ⟨key, value⟩ := head
      rw [jsonEntries, List.mem_cons] at h
      rcases h with rfl | h
      · exact ⟨utf16Length_slice_le _ _, value, rfl⟩
      · exact ih fields h

theorem length_jsonEntries_le (fields : Properties) : (jsonEntries depth n fields).length ≤ n := by
  induction n generalizing fields with
  | zero => simp [jsonEntries]
  | succ n ih =>
    cases fields with
    | nil => simp [jsonEntries]
    | cons head fields =>
      obtain ⟨key, value⟩ := head
      rw [jsonEntries, List.length_cons]
      exact Nat.succ_le_succ (ih fields)

/-- A copy has bounds on everything but its depth. -/
theorem accepted_jsonValue_iff (levels depth : ℕ) (value : JsonValue) :
    jsonAcceptedAbove levels (jsonValue depth value) = true ↔ NestsWithin levels (jsonValue depth value) := by
  induction levels generalizing depth value with
  | zero => rfl
  | succ levels ih =>
    cases value with
    | array items =>
      rw [jsonValue]
      split_ifs
      · simp [jsonAcceptedAbove, jsonPrimitiveSchema, NestsWithin]
      · rw [accepted_array_iff, NestsWithin]
        constructor
        · intro h item hitem
          obtain ⟨value, rfl⟩ := mem_jsonItems items hitem
          exact (ih _ _).1 (h.2 _ hitem)
        · intro h
          refine ⟨length_jsonItems_le items, fun item hitem => ?_⟩
          obtain ⟨value, rfl⟩ := mem_jsonItems items hitem
          exact (ih _ _).2 (h _ hitem)
    | object fields =>
      rw [jsonValue]
      split_ifs
      · simp [jsonAcceptedAbove, jsonPrimitiveSchema, NestsWithin]
      · have hentry : ∀ entry ∈ fromEntries (jsonEntries (depth + 1) maxJsonEntries fields),
            entry ∈ jsonEntries (depth + 1) maxJsonEntries fields := fun entry hentry =>
          (mem_foldl_define hentry).resolve_left List.not_mem_nil
        rw [accepted_object_iff, NestsWithin]
        constructor
        · intro h entry hmem
          obtain ⟨-, value, hvalue⟩ := mem_jsonEntries fields (hentry entry hmem)
          have haccepted := (h.2 entry hmem).2
          rw [hvalue] at haccepted ⊢
          exact (ih _ _).1 haccepted
        · intro h
          refine ⟨(List.length_filter_le _ _).trans ((length_foldl_define_le _ []).trans ?_), fun entry hmem => ?_⟩
          · rw [List.length_nil, Nat.zero_add]
            exact length_jsonEntries_le fields
          · obtain ⟨hkey, value, hvalue⟩ := mem_jsonEntries fields (hentry entry hmem)
            have hnests := h entry hmem
            rw [hvalue] at hnests ⊢
            exact ⟨hkey, (ih _ _).2 hnests⟩
    | _ => simp [jsonValue, jsonAcceptedAbove, jsonPrimitiveSchema, NestsWithin]

end Copies

section Entry

variable {candidate intent result : JsonValue} {ordinal : ℕ}

/-- What validation of an entry asks for beyond the checks of admission. -/
structure FitsEntry (candidate intent result : JsonValue) : Prop where
  candidateId : utf16Length (candidateIdOf candidate) ≤ 447
  candidate : NestsWithin 31 (jsonValue 0 candidate)
  parts : ∀ part ∈ copiedParts result intent, NestsWithin 30 (jsonValue 0 part.2)
  digest : jsonAcceptedAbove 30 (member result "projectionDigest") = true

theorem codeUnits_of_isHexDigit {c : Char} (h : isHexDigit c = true) : codeUnits c = 1 := by
  have hlt : c.toNat < 0x10000 := by
    rw [isHexDigit, Bool.or_eq_true, Bool.and_eq_true, decide_eq_true_iff, decide_eq_true_iff] at h
    rcases h with hdigit | ⟨-, hle⟩
    · simp only [Char.isDigit, Bool.and_eq_true, decide_eq_true_eq] at hdigit
      have hnine : c.toNat ≤ 57 := hdigit.2
      omega
    · have hf : c.toNat ≤ 102 := hle
      omega
  exact if_pos hlt

variable {value : Option JsonValue} {text : String}

theorem utf16Length_of_isHexSha256 (h : isHexSha256 text.toList = true) :
    utf16Length text = 64 := by
  rw [isHexSha256, Bool.and_eq_true, decide_eq_true_iff, List.all_eq_true] at h
  obtain ⟨hlength, hall⟩ := h
  rw [utf16Length, ← hlength]
  clear hlength
  revert hall
  induction text.toList with
  | nil => exact fun _ => rfl
  | cons c cs ih =>
    intro hall
    rw [List.foldr_cons, ih fun c hc => hall c (List.mem_cons_of_mem _ hc),
      codeUnits_of_isHexDigit (hall c List.mem_cons_self), List.length_cons, Nat.add_comm]

theorem utf16Length_pos (h : text ≠ "") : 0 < utf16Length text := by
  rw [utf16Length]
  cases hlist : text.toList with
  | nil => exact absurd (String.toList_eq_nil_iff.1 hlist) h
  | cons c cs =>
    have hunits : 0 < codeUnits c := by
      rw [codeUnits]
      split_ifs <;> decide
    rw [List.foldr_cons]
    omega

theorem accepted_of_text (h : text? value = some text) (levels : ℕ) :
    jsonAcceptedAbove levels (value.getD .null) = true := by
  apply accepted_of_primitive
  cases value with
  | none => rfl
  | some value => cases value <;> first | rfl | cases h

theorem accepted_of_nonEmpty (h : nonEmpty value = true) (levels : ℕ) :
    jsonAcceptedAbove levels (value.getD .null) = true := by
  apply accepted_of_primitive
  cases value with
  | none => rfl
  | some value => cases value <;> first | rfl | cases h

theorem accepted_of_literal {literal : String} (h : wellTyped.literal? value = some literal)
    (levels : ℕ) : jsonAcceptedAbove levels (value.getD .null) = true := by
  apply accepted_of_primitive
  cases value with
  | none => rfl
  | some value => cases value <;> first | rfl | cases h

theorem accepted_componentPart (levels : ℕ) (result : JsonValue) (name : String) :
    jsonAcceptedAbove (levels + 1) (componentPart result name).2 = true := by
  cases h : componentAt result [name] with
  | none => simp [componentPart, h, jsonAcceptedAbove, jsonPrimitiveSchema]
  | some identity =>
    have hid : utf16Length "id" ≤ maxIdLength := by decide
    have hversion : utf16Length "version" ≤ maxIdLength := by decide
    have htext : ∀ text, jsonAcceptedAbove levels (.string text) = true := fun text => accepted_of_primitive rfl levels
    simp [componentPart, h, component, accepted_object_iff, hid, hversion, htext, maxJsonObjectEntries]

/-- What the checks of a projection say of the parts that are copied as they are. -/
structure PlainParts (intent result : JsonValue) : Prop where
  budget : ∃ literal, wellTyped.literal? (member? result "budget") = some literal
  suzukuriVersion : nonEmpty (member? result "suzukuriVersion") = true
  coreVersion : nonEmpty (member? result "coreVersion") = true
  completeness : text? (member? result "completeness") = some "complete"
  output : ∃ output, text? (member? result "output") = some output
  profile : ∀ profile, member? result "profile" = some profile → jsonPrimitiveSchema profile = true
  digest : isHexSha256 (projectionDigest result).toList = true

theorem exists_literal_of_isSafeFrom {bound : ℕ} (h : isSafeFrom bound value = true) :
    ∃ literal, wellTyped.literal? value = some literal := by
  cases value with
  | none => cases h
  | some value =>
    cases value with
    | number literal => exact ⟨literal, rfl⟩
    | _ => cases h

theorem plainParts_of_valid {expectedSource : SourceIdentity} (hintent : intentValid intent = true)
    (h : projectionValid result intent expectedSource = none) : PlainParts intent result := by
  rw [projectionValid] at h
  split_ifs at h with hsource htyped hintended hcomplete
  have htyped : wellTyped result = true := by simpa using htyped
  have hintended : asIntended result intent expectedSource = true := by simpa using hintended
  push Not at hcomplete
  simp only [wellTyped, Bool.and_eq_true] at htyped
  obtain ⟨⟨⟨⟨-, houtput⟩, -⟩, -⟩, -⟩ := htyped
  simp only [asIntended, Bool.and_eq_true] at hintended
  obtain ⟨⟨⟨⟨⟨⟨⟨⟨⟨hbudget, -⟩, -⟩, -⟩, -⟩, hdigest⟩, hsuzukuri⟩, hcore⟩, hprofile⟩, -⟩ := hintended
  simp only [intentValid, Bool.and_eq_true] at hintent
  obtain ⟨⟨⟨-, hsafe⟩, -⟩, -⟩ := hintent
  obtain ⟨literal, hliteral⟩ := exists_literal_of_isSafeFrom hsafe
  refine ⟨⟨literal, (of_decide_eq_true hbudget).trans hliteral⟩, hsuzukuri, hcore, hcomplete.1, ?_, ?_, hdigest⟩
  · cases hout : text? (member? result "output") with
    | none =>
      rw [hout] at houtput
      cases houtput
    | some output => exact ⟨output, rfl⟩
  · intro profile hmember
    rw [hmember] at hprofile
    split at hprofile
    · cases hprofile
    · cases profile with
      | array items => cases of_decide_eq_true hprofile
      | object fields => cases of_decide_eq_true hprofile
      | _ => rfl

theorem key_projectionOf {part : String × JsonValue} (h : part ∈ projectionOf intent result) :
    part.1 ∈ ["source", "sourceIdentity", "components", "provenance", "loss", "diagnostics", "intent", "adapter",
      "contract", "semanticContract", "view", "renderer", "budget", "suzukuriVersion", "coreVersion",
      "projectionDigest", "completeness", "output", "profile"] := by
  have hprofile : ∀ part ∈ optionalProperty "profile" (member? result "profile"), part.1 = "profile" := by
    intro part hpart
    cases hmember : member? result "profile" with
    | none => simp [optionalProperty, hmember] at hpart
    | some profile =>
      simp only [optionalProperty, hmember, Option.map_some, Option.toList_some, List.mem_singleton] at hpart
      rw [hpart]
  simp only [projectionOf, copiedParts, List.map_cons, List.map_nil, List.mem_append, List.mem_cons, List.not_mem_nil,
    or_false, componentPart] at h
  rcases h with ((hcopied | hcomponent) | hplain) | hpart
  · rcases hcopied with rfl | rfl | rfl | rfl | rfl | rfl | rfl <;> simp
  · rcases hcomponent with rfl | rfl | rfl | rfl | rfl <;> simp
  · rcases hplain with rfl | rfl | rfl | rfl | rfl | rfl <;> simp
  · rw [hprofile part hpart]
    simp

theorem length_projectionOf_le : (projectionOf intent result).length ≤ 19 := by
  cases h : member? result "profile" <;> simp [projectionOf, copiedParts, optionalProperty, h]

theorem accepted_projectionOf_iff (h : PlainParts intent result) :
    jsonAcceptedAbove 31 (.object (projectionOf intent result)) = true ↔
      (∀ part ∈ copiedParts result intent, NestsWithin 30 (jsonValue 0 part.2)) ∧
        jsonAcceptedAbove 30 (member result "projectionDigest") = true := by
  have hkeys : ∀ part ∈ projectionOf intent result, utf16Length part.1 ≤ maxIdLength := by
    intro part hpart
    have hkey := key_projectionOf hpart
    generalize part.1 = key at hkey
    revert key
    decide
  rw [accepted_object_iff]
  constructor
  · rintro ⟨-, hall⟩
    refine ⟨fun part hpart => ?_, ?_⟩
    · refine (accepted_jsonValue_iff 30 0 part.2).1 (hall (part.1, jsonValue 0 part.2) ?_).2
      simp only [projectionOf, List.mem_append]
      exact .inl (.inl (.inl (List.mem_map.2 ⟨part, hpart, rfl⟩)))
    · refine (hall ("projectionDigest", member result "projectionDigest") ?_).2
      simp [projectionOf]
  · rintro ⟨hparts, hdigest⟩
    refine ⟨(List.length_filter_le _ _).trans (length_projectionOf_le.trans (by decide)), fun part hpart =>
      ⟨hkeys part hpart, ?_⟩⟩
    simp only [projectionOf, List.mem_append, List.mem_map] at hpart
    rcases hpart with ((⟨copied, hcopied, rfl⟩ | ⟨name, -, rfl⟩) | ⟨name, hname, rfl⟩) | hprofile
    · exact (accepted_jsonValue_iff 30 0 copied.2).2 (hparts copied hcopied)
    · exact accepted_componentPart 29 result name
    · obtain ⟨literal, hliteral⟩ := h.budget
      obtain ⟨output, houtput⟩ := h.output
      simp only [List.mem_cons, List.not_mem_nil, or_false] at hname
      rcases hname with rfl | rfl | rfl | rfl | rfl | rfl
      · exact accepted_of_literal hliteral 30
      · exact accepted_of_nonEmpty h.suzukuriVersion 30
      · exact accepted_of_nonEmpty h.coreVersion 30
      · exact hdigest
      · exact accepted_of_text h.completeness 30
      · exact accepted_of_text houtput 30
    · cases hmember : member? result "profile" with
      | none => simp [optionalProperty, hmember] at hprofile
      | some profile =>
        simp only [optionalProperty, hmember, Option.map_some, Option.toList_some, List.mem_singleton] at hprofile
        rw [hprofile]
        exact accepted_of_primitive (h.profile profile hmember) 30

theorem accepted_value_iff (h : PlainParts intent result) :
    jsonAcceptedAbove 32 (.object [("ordinal", .number (toString ordinal)), ("candidate", jsonValue 0 candidate),
        ("projection", .object (projectionOf intent result))]) = true ↔
      NestsWithin 31 (jsonValue 0 candidate) ∧
        (∀ part ∈ copiedParts result intent, NestsWithin 30 (jsonValue 0 part.2)) ∧
          jsonAcceptedAbove 30 (member result "projectionDigest") = true := by
  have hordinal : utf16Length "ordinal" ≤ maxIdLength := by decide
  have hcandidate : utf16Length "candidate" ≤ maxIdLength := by decide
  have hprojection : utf16Length "projection" ≤ maxIdLength := by decide
  have hnumber : ∀ literal, jsonAcceptedAbove 31 (.number literal) = true := fun literal => accepted_of_primitive rfl 31
  rw [accepted_object_iff, ← accepted_projectionOf_iff h, ← accepted_jsonValue_iff]
  simp [hordinal, hcandidate, hprojection, hnumber, maxJsonObjectEntries]

theorem sized_text_iff {min max : ℕ} : sized min max anyText (.string text) = true ↔
    min ≤ utf16Length text ∧ utf16Length text ≤ max := by
  simp [sized, string, anyText]

theorem accepted_entryFor_iff (hcandidate : candidateValid candidate = true) (h : PlainParts intent result) :
    contentEntryAccepted (entryFor candidate ordinal intent result) = true ↔ FitsEntry candidate intent result := by
  have hne : candidateIdOf candidate ≠ "" := by
    have hid := List.all_eq_true.1 hcandidate ["candidateId"] List.mem_cons_self
    have hat : at? ["candidateId"] candidate = member? candidate "candidateId" := by
      simp [at?]
    rw [hat] at hid
    have hof : candidateIdOf candidate = textOf ((member? candidate "candidateId").getD .null) := rfl
    rw [hof]
    cases hmember : member? candidate "candidateId" with
    | none => simp [hmember, nonEmpty] at hid
    | some value =>
      rw [hmember] at hid
      cases value with
      | string text =>
        rintro rfl
        exact absurd hid (by decide)
      | _ => cases hid
  have hpos := utf16Length_pos hne
  have hlength : utf16Length (candidateIdOf candidate ++ ":" ++ projectionDigest result) =
      utf16Length (candidateIdOf candidate) + 65 := by
    have hone : utf16Length ":" = 1 := rfl
    rw [utf16Length_append, utf16Length_append, utf16Length_of_isHexSha256 h.digest, hone]
  have hsource : sized 1 maxIdLength anyText (.string "suzukuri") = true := by decide
  have hschema : contentEntryAccepted (entryFor candidate ordinal intent result) = true ↔
      sized 1 maxIdLength anyText (.string (candidateIdOf candidate)) = true ∧
        jsonAcceptedAbove 32 (.object [("ordinal", .number (toString ordinal)), ("candidate", jsonValue 0 candidate),
          ("projection", .object (projectionOf intent result))]) = true ∧
        sized 1 maxIdLength anyText (.string (candidateIdOf candidate ++ ":" ++ projectionDigest result)) = true := by
    simp [contentEntryAccepted, entryFor, Schema.object, Field.accepts, required, property, provenanceSchema,
      identifierSchema, hsource, boolean, maxJsonNestingDepth]
  rw [hschema, sized_text_iff, sized_text_iff, accepted_value_iff h, hlength]
  constructor
  · rintro ⟨-, ⟨hcopy, hparts, hdigest⟩, -, hreference⟩
    exact ⟨by have hmax : maxIdLength = 512 := rfl; omega, hcopy, hparts, hdigest⟩
  · rintro ⟨hid, hcopy, hparts, hdigest⟩
    have hmax : maxIdLength = 512 := rfl
    exact ⟨⟨by omega, by omega⟩, ⟨hcopy, hparts, hdigest⟩, by omega, by omega⟩

end Entry

section Admission

variable {ε : Type} {input : AdmitInput ε} {ordinal : ℕ} {candidate intent result : JsonValue}

/-- In the turn of a candidate its intent has been resolved and the companion has answered a projection,
and both have passed the checks. -/
def Turn (input : AdmitInput ε) (ordinal : ℕ) (candidate intent result : JsonValue) : Prop :=
  ∃ sourceForCandidate projectionIntent project, input.sourceForCandidate = some sourceForCandidate ∧
    input.projectionIntent = some projectionIntent ∧ input.companion = some project ∧
      projectionFor sourceForCandidate projectionIntent project ordinal candidate = .ok (intent, result)

/-- A check of the admission fails. -/
def Refused (input : AdmitInput ε) : Prop :=
  missingInputs input ≠ [] ∨ maxAdmissionEntries < input.candidates.length ∨
    (candidateDiagnostics input.candidates [] : List (CanonC3AdmissionDiagnostic ε)) ≠ [] ∨
      ∃ ordinal candidate, input.candidates[ordinal]? = some candidate ∧
        ∀ intent result, ¬ Turn input ordinal candidate intent result

/-- A projection is of the identity of the candidate, and as its intent says. -/
structure Belongs (candidate intent result : JsonValue) : Prop where
  source : (member? result "source").bind sourceIdentity = some (expectedSourceIdentity candidate)
  sourceIdentity : (member? result "sourceIdentity").bind sourceIdentity = some (expectedSourceIdentity candidate)
  budget : wellTyped.literal? (member? result "budget") = wellTyped.literal? (member? intent "budget")
  components : ∀ name ∈ intentComponents, ∃ actual, componentAt result [name] = some actual ∧
    componentMatches (text? (member? intent name)) actual = true
  profile : text? (member? result "profile") = text? (member? intent "profile")
  complete : text? (member? result "completeness") = some "complete"

theorem belongs_of_valid (h : projectionValid result intent (expectedSourceIdentity candidate) = none) :
    Belongs candidate intent result := by
  rw [projectionValid] at h
  split_ifs at h with hsource htyped hintended hcomplete
  have hsource : projectionSourceIdentity result = some (expectedSourceIdentity candidate) := by simpa using hsource
  have hintended : asIntended result intent (expectedSourceIdentity candidate) = true := by simpa using hintended
  push Not at hcomplete
  simp only [asIntended, Bool.and_eq_true] at hintended
  obtain ⟨⟨⟨⟨⟨⟨⟨⟨⟨hbudget, hcomponents⟩, -⟩, -⟩, -⟩, -⟩, -⟩, -⟩, hprofile⟩, -⟩ := hintended
  simp only [projectionSourceIdentity, Option.bind_eq_bind, Option.bind_eq_some_iff] at hsource
  obtain ⟨source, hread, stated, hstated, hsame⟩ := hsource
  split_ifs at hsame with heq
  cases hsame
  refine ⟨Option.bind_eq_some_iff.2 hread, ?_, of_decide_eq_true hbudget, fun name hname => ?_, ?_, hcomplete.1⟩
  · rw [heq]
    exact Option.bind_eq_some_iff.2 hstated
  · have hmatches := List.all_eq_true.1 hcomponents name hname
    cases hactual : componentAt result [name] with
    | none =>
      rw [hactual] at hmatches
      cases hmatches
    | some actual =>
      rw [hactual] at hmatches
      exact ⟨actual, rfl, hmatches⟩
  · split at hprofile
    · next hnone =>
      rw [hnone]
      cases hmember : member? result "profile" with
      | none => rfl
      | some profile =>
        rw [hmember] at hprofile
        cases hprofile
    · next profile hsome =>
      rw [hsome]
      exact of_decide_eq_true hprofile

theorem intentValid_of_requestFor {sourceForCandidate : ℕ → JsonValue → Except ε CanonC3Source}
    {projectionIntent : ℕ → JsonValue → Except ε JsonValue} {request : ProjectionRequest}
    (h : requestFor sourceForCandidate projectionIntent ordinal candidate = .ok (intent, request)) :
    intentValid intent = true := by
  rw [requestFor, bind_eq_ok] at h
  obtain ⟨resolved, -, h⟩ := h
  by_cases hvalid : intentValid resolved = true
  · simp only [hvalid, Bool.not_true, Bool.false_eq_true, if_false] at h
    obtain ⟨source, -, h⟩ := bind_eq_ok.1 h
    cases hcontent : source.content with
    | none =>
      rw [hcontent] at h
      cases h
    | some content =>
      rw [hcontent] at h
      simp only at h
      split_ifs at h
      · cases h
      · cases h
        exact hvalid
  · simp only [Bool.not_eq_true] at hvalid
    simp only [hvalid, Bool.not_false, if_true] at h
    cases h

/-- What the turn of a candidate has checked. -/
theorem checked_of_turn (h : Turn input ordinal candidate intent result) :
    intentValid intent = true ∧ projectionValid result intent (expectedSourceIdentity candidate) = none := by
  obtain ⟨sourceForCandidate, projectionIntent, project, -, -, -, hproject⟩ := h
  rw [projectionFor, bind_eq_ok] at hproject
  obtain ⟨⟨resolved, request⟩, hrequest, hproject⟩ := hproject
  simp only at hproject
  split at hproject
  · cases hproject
  · cases hproject
  · split at hproject
    · cases hproject
    · next hvalid =>
      cases hproject
      exact ⟨intentValid_of_requestFor hrequest, hvalid⟩

theorem eq_map_ok_of_filterMap_nil {α : Type} {outcomes : List (Except (CanonC3AdmissionDiagnostic ε) α)}
    (h : outcomes.filterMap errorOf = []) : outcomes = (outcomes.filterMap (·.toOption)).map .ok := by
  induction outcomes with
  | nil => rfl
  | cons outcome outcomes ih =>
    cases outcome with
    | error diagnostic =>
      rw [List.filterMap_cons] at h
      cases h
    | ok value =>
      rw [List.filterMap_cons] at h
      have htail := ih h
      rw [List.filterMap_cons]
      exact congrArg (Except.ok value :: ·) htail

variable {sourceForCandidate : ℕ → JsonValue → Except ε CanonC3Source}
  {projectionIntent : ℕ → JsonValue → Except ε JsonValue} {project : ℕ → ProjectionRequest → ProjectOutcome ε}

def outcomesOf (sourceForCandidate : ℕ → JsonValue → Except ε CanonC3Source)
    (projectionIntent : ℕ → JsonValue → Except ε JsonValue) (project : ℕ → ProjectionRequest → ProjectOutcome ε)
    (candidates : List JsonValue) : List (Except (CanonC3AdmissionDiagnostic ε) JsonValue) :=
  candidates.zipIdx.map fun turn => entryOf sourceForCandidate projectionIntent project turn.2 turn.1

theorem get_outcomesOf (candidates : List JsonValue) (ordinal : ℕ) :
    (outcomesOf sourceForCandidate projectionIntent project candidates)[ordinal]? =
      candidates[ordinal]?.map (entryOf sourceForCandidate projectionIntent project ordinal) := by
  rw [outcomesOf, List.getElem?_map, List.getElem?_zipIdx, Option.map_map, Nat.zero_add]
  rfl

theorem admitEach_eq (candidates : List JsonValue) :
    admitEach sourceForCandidate projectionIntent project candidates =
      if (outcomesOf sourceForCandidate projectionIntent project candidates).filterMap errorOf ≠ [] then
        failure candidates ((outcomesOf sourceForCandidate projectionIntent project candidates).filterMap errorOf)
      else
        { ok := true
          entries := (outcomesOf sourceForCandidate projectionIntent project candidates).filterMap (·.toOption)
          candidates := candidates
          diagnostics := []
          complete := true } := rfl

/-- There is an input of each kind if none is reported to be missing. -/
theorem exists_of_missingInputs (h : missingInputs input = []) : ∃ sourceForCandidate projectionIntent project,
    input.sourceForCandidate = some sourceForCandidate ∧ input.projectionIntent = some projectionIntent ∧
      input.companion = some project := by
  simp only [missingInputs, List.append_eq_nil_iff, ite_eq_right_iff, Option.isNone_iff_eq_none] at h
  obtain ⟨⟨hcompanion, hsource⟩, hintent⟩ := h
  obtain ⟨project, hproject⟩ := Option.ne_none_iff_exists'.1 fun hnone => List.cons_ne_nil _ _ (hcompanion hnone)
  obtain ⟨source, hsome⟩ := Option.ne_none_iff_exists'.1 fun hnone => List.cons_ne_nil _ _ (hsource hnone)
  obtain ⟨resolver, hresolver⟩ := Option.ne_none_iff_exists'.1 fun hnone => List.cons_ne_nil _ _ (hintent hnone)
  exact ⟨source, resolver, project, hsome, hresolver, hproject⟩

/-- Admission succeeds if no check fails, with what the turns of the candidates have led to. -/
theorem admitted (h : ¬ Refused input) : (admitCanonC3Candidates input).ok = true ∧
    (admitCanonC3Candidates input).entries.length = input.candidates.length ∧
      ∀ ordinal candidate, input.candidates[ordinal]? = some candidate → ∃ intent result,
        Turn input ordinal candidate intent result ∧
          (admitCanonC3Candidates input).entries[ordinal]? = some (entryFor candidate ordinal intent result) := by
  simp only [Refused, not_or, not_not, not_exists, not_and, not_forall] at h
  obtain ⟨hmissing, hlength, hcandidates, hturns⟩ := h
  obtain ⟨sourceForCandidate, projectionIntent, project, hsource, hintent, hproject⟩ := exists_of_missingInputs hmissing
  have hturn : ∀ ordinal candidate, input.candidates[ordinal]? = some candidate → ∃ intent result,
      projectionFor sourceForCandidate projectionIntent project ordinal candidate = .ok (intent, result) := by
    intro ordinal candidate hcandidate
    obtain ⟨intent, result, source, resolver, companion, hs, hr, hc, hok⟩ := hturns ordinal candidate hcandidate
    rw [hsource] at hs
    rw [hintent] at hr
    rw [hproject] at hc
    cases hs
    cases hr
    cases hc
    exact ⟨intent, result, hok⟩
  have hnone : (outcomesOf sourceForCandidate projectionIntent project input.candidates).filterMap errorOf = [] := by
    rw [List.filterMap_eq_nil_iff]
    intro outcome houtcome
    obtain ⟨ordinal, hget⟩ := List.mem_iff_getElem?.1 houtcome
    rw [get_outcomesOf, Option.map_eq_some_iff] at hget
    obtain ⟨candidate, hcandidate, rfl⟩ := hget
    obtain ⟨intent, result, hok⟩ := hturn ordinal candidate hcandidate
    rw [entryOf, hok]
    rfl
  have hadmission : admitCanonC3Candidates input =
      admitEach sourceForCandidate projectionIntent project input.candidates := by
    rw [admitCanonC3Candidates, hsource, hintent, hproject]
    simp only [if_neg hlength, hcandidates, ne_eq, not_true_eq_false, if_false]
  have houtcomes := eq_map_ok_of_filterMap_nil hnone
  rw [hadmission, admitEach_eq, if_neg (not_not_intro hnone)]
  refine ⟨rfl, ?_, fun ordinal candidate hcandidate => ?_⟩
  · have hlengths := congrArg List.length houtcomes
    rw [List.length_map] at hlengths
    rw [← hlengths, outcomesOf, List.length_map, List.length_zipIdx]
  · obtain ⟨intent, result, hok⟩ := hturn ordinal candidate hcandidate
    refine ⟨intent, result, ⟨_, _, _, hsource, hintent, hproject, hok⟩, ?_⟩
    have hget := @get_outcomesOf ε sourceForCandidate projectionIntent project input.candidates ordinal
    rw [hcandidate, houtcomes, List.getElem?_map, Option.map_some, entryOf, hok] at hget
    obtain ⟨entry, hentry, hvalue⟩ := Option.map_eq_some_iff.1 hget
    rw [hentry]
    exact congrArg some (Except.ok.inj hvalue)

theorem failure_of_refused (h : Refused input) : (admitCanonC3Candidates input).ok = false ∧
    (admitCanonC3Candidates input).entries = [] := by
  rw [admitCanonC3Candidates]
  split
  · next sourceForCandidate projectionIntent project hsource hintent hproject =>
    split_ifs with hlength
    · exact ⟨rfl, rfl⟩
    · simp only
      split_ifs with hcandidates
      · exact ⟨rfl, rfl⟩
      · rw [admitEach_eq]
        split_ifs with hnone
        · exact ⟨rfl, rfl⟩
        · exfalso
          rcases h with hmissing | hlong | hinvalid | ⟨ordinal, candidate, hcandidate, hturn⟩
          · simp [missingInputs, hsource, hintent, hproject] at hmissing
          · exact hlength hlong
          · exact hcandidates hinvalid
          · have houtcomes := eq_map_ok_of_filterMap_nil (not_not.1 hnone)
            have hget := @get_outcomesOf ε sourceForCandidate projectionIntent project input.candidates ordinal
            rw [hcandidate, houtcomes, List.getElem?_map, Option.map_some, entryOf] at hget
            obtain ⟨entry, -, hentry⟩ := Option.map_eq_some_iff.1 hget
            cases hok : projectionFor sourceForCandidate projectionIntent project ordinal candidate with
            | error diagnostic =>
              rw [hok] at hentry
              cases hentry
            | ok projection =>
              exact hturn projection.1 projection.2 ⟨_, _, _, hsource, hintent, hproject, hok⟩
  · exact ⟨rfl, rfl⟩

/-- All candidates are admitted, each with an entry of its own that validation accepts, or none. -/
structure AllOrNothing (input : AdmitInput ε) : Prop where
  length : (admitCanonC3Candidates input).ok = true →
    (admitCanonC3Candidates input).entries.length = input.candidates.length
  inOrder : (admitCanonC3Candidates input).ok = true → ∀ ordinal candidate,
    input.candidates[ordinal]? = some candidate → ∃ intent result,
      Turn input ordinal candidate intent result ∧ Belongs candidate intent result ∧
        (admitCanonC3Candidates input).entries[ordinal]? = some (entryFor candidate ordinal intent result)
  accepted : (admitCanonC3Candidates input).ok = true →
    ∀ entry ∈ (admitCanonC3Candidates input).entries, contentEntryAccepted entry = true
  nothing : (admitCanonC3Candidates input).ok = false → (admitCanonC3Candidates input).entries = []

/-- Some check fails, or every candidate and its projection can be copied into an entry. -/
def RefusedOrFits (input : AdmitInput ε) : Prop :=
  Refused input ∨ ∀ ordinal candidate intent result, input.candidates[ordinal]? = some candidate →
    Turn input ordinal candidate intent result → FitsEntry candidate intent result

theorem valid_of_not_refused (h : ¬ Refused input) (hmem : candidate ∈ input.candidates) :
    candidateValid candidate = true := by
  simp only [Refused, not_or, not_not] at h
  have hall : ∀ (candidates : List JsonValue) (seen : List String),
      (candidateDiagnostics candidates seen : List (CanonC3AdmissionDiagnostic ε)) = [] →
        ∀ candidate ∈ candidates, candidateValid candidate = true := by
    intro candidates
    induction candidates with
    | nil => exact fun _ _ => nofun
    | cons head candidates ih =>
      intro seen hnil candidate hcandidate
      simp only [candidateDiagnostics] at hnil
      split_ifs at hnil with hinvalid hseen
      rcases List.mem_cons.1 hcandidate with rfl | hrest
      · simpa using hinvalid
      · exact ih _ hnil candidate hrest
  exact hall input.candidates [] h.2.2.1 candidate hmem

/-- Turns of one candidate lead to one projection. -/
theorem turn_unique {intent' result' : JsonValue} (h : Turn input ordinal candidate intent result)
    (h' : Turn input ordinal candidate intent' result') : intent = intent' ∧ result = result' := by
  obtain ⟨source, resolver, project, hsource, hintent, hproject, hok⟩ := h
  obtain ⟨source', resolver', project', hsource', hintent', hproject', hok'⟩ := h'
  rw [hsource] at hsource'
  rw [hintent] at hintent'
  rw [hproject] at hproject'
  cases hsource'
  cases hintent'
  cases hproject'
  rw [hok] at hok'
  exact Prod.mk.inj (Except.ok.inj hok')

theorem accepted_iff_of_turn (hrefused : ¬ Refused input) (hcandidate : input.candidates[ordinal]? = some candidate)
    (hturn : Turn input ordinal candidate intent result) :
    contentEntryAccepted (entryFor candidate ordinal intent result) = true ↔ FitsEntry candidate intent result := by
  obtain ⟨hintent, hvalid⟩ := checked_of_turn hturn
  exact accepted_entryFor_iff (valid_of_not_refused hrefused (List.mem_of_getElem? hcandidate))
    (plainParts_of_valid hintent hvalid)

theorem refusedOrFits_of_allOrNothing (h : AllOrNothing input) : RefusedOrFits input := by
  by_cases hrefused : Refused input
  · exact .inl hrefused
  · obtain ⟨hok, -, hentries⟩ := admitted hrefused
    refine .inr fun ordinal candidate intent result hcandidate hturn => ?_
    obtain ⟨intent', result', hturn', hentry⟩ := hentries ordinal candidate hcandidate
    obtain ⟨rfl, rfl⟩ := turn_unique hturn hturn'
    exact (accepted_iff_of_turn hrefused hcandidate hturn).1 (h.accepted hok _ (List.mem_of_getElem? hentry))

theorem allOrNothing_of_refusedOrFits (h : RefusedOrFits input) : AllOrNothing input := by
  by_cases hrefused : Refused input
  · obtain ⟨hok, hentries⟩ := failure_of_refused hrefused
    refine ⟨?_, ?_, ?_, fun _ => hentries⟩ <;> exact fun h => absurd (hok.symm.trans h) Bool.false_ne_true
  · obtain ⟨hok, hlength, hentries⟩ := admitted hrefused
    have hfits := h.resolve_left hrefused
    refine ⟨fun _ => hlength, fun _ ordinal candidate hcandidate => ?_, fun _ entry hentry => ?_,
      fun hfalse => absurd (hfalse.symm.trans hok) Bool.false_ne_true⟩
    · obtain ⟨intent, result, hturn, hentry⟩ := hentries ordinal candidate hcandidate
      exact ⟨intent, result, hturn, belongs_of_valid (checked_of_turn hturn).2, hentry⟩
    · obtain ⟨ordinal, hget⟩ := List.mem_iff_getElem?.1 hentry
      have hlt : ordinal < input.candidates.length := hlength ▸ (List.getElem?_eq_some_iff.1 hget).1
      have hcandidate := List.getElem?_eq_getElem hlt
      obtain ⟨intent, result, hturn, hentry'⟩ := hentries ordinal _ hcandidate
      rw [hget] at hentry'
      rw [Option.some.inj hentry']
      exact (accepted_iff_of_turn hrefused hcandidate hturn).2 (hfits ordinal _ _ _ hcandidate hturn)

/-- Admission is all or nothing, with entries that validation accepts, exactly if nothing that is
admitted has too long an id or nests too deeply. -/
theorem allOrNothing_iff (input : AdmitInput ε) : AllOrNothing input ↔ RefusedOrFits input :=
  ⟨refusedOrFits_of_allOrNothing, allOrNothing_of_refusedOrFits⟩

end Admission

section Deep

def nestedArrays : ℕ → JsonValue
  | 0 => .array []
  | levels + 1 => .array [nestedArrays levels]

/-- As long as copying goes on, nested arrays stay as they are. -/
theorem not_nestsWithin_nestedArrays (levels : ℕ) {depth : ℕ} (h : depth + levels < maxJsonDepth) :
    ¬ NestsWithin levels (jsonValue depth (nestedArrays levels)) := by
  induction levels generalizing depth with
  | zero =>
    rw [nestedArrays, jsonValue, if_neg (by omega)]
    exact nofun
  | succ levels ih =>
    rw [nestedArrays, jsonValue, if_neg (by omega)]
    intro hnests
    exact ih (by omega) (hnests _ List.mem_cons_self)

def sampleComponent (id : String) : JsonValue := component { id, version := "1.0.0" }

def sampleIdentity : JsonValue := .object [("id", .string "repo:a"), ("revision", .string "generation-1")]

def sampleCandidate : JsonValue :=
  .object [("candidateId", .string "c3:a"),
    ("source", .object [("identity", .string "repo:a"), ("generation", .string "generation-1")]),
    ("selector", .object [("type", .string "symbol"), ("value", .string "symbol:a")]),
    ("selectionReason", .string "explicit symbol selector"),
    ("semanticProvenance", .object [("reference", .string "symbol:a"), ("entityId", .string "symbol:a"),
      ("entityKind", .string "symbol"), ("authority", .string "derived"),
      ("producer", .object [("name", .string "fixture"), ("version", .string "1")])])]

def sampleIntent : JsonValue :=
  .object [("adapter", .string "adapter"), ("view", .string "view"), ("renderer", .string "renderer"),
    ("budget", .number "1000")]

/-- A projection of the sample candidate, with these diagnostics. -/
def sampleResult (diagnostics : JsonValue) : JsonValue :=
  .object [("source", sampleIdentity), ("sourceIdentity", sampleIdentity), ("budget", .number "1000"),
    ("suzukuriVersion", .string "0.2.2"), ("output", .string "{}"), ("outputSize", .number "2"),
    ("byteLength", .number "2"), ("coreVersion", .string "1.0.0"), ("adapter", sampleComponent "adapter"),
    ("contract", sampleComponent "contract"), ("semanticContract", sampleComponent "contract"),
    ("view", sampleComponent "view"), ("renderer", sampleComponent "renderer"),
    ("components", .object [("adapter", sampleComponent "adapter"), ("semanticContract", sampleComponent "contract"),
      ("view", sampleComponent "view"), ("renderer", sampleComponent "renderer")]),
    ("provenance", .object [("core", sampleComponent "suzukuri-projection-core"), ("adapter", sampleComponent "adapter"),
      ("semanticContract", sampleComponent "contract"), ("view", sampleComponent "view"),
      ("renderer", sampleComponent "renderer")]),
    ("projectionDigest", .string "aaaaaaaaaaaaaaaaaaaaaaaaaaaaaaaaaaaaaaaaaaaaaaaaaaaaaaaaaaaaaaaa"),
    ("completeness", .string "complete"),
    ("loss", .object [("state", .string "none"), ("discarded", .array [])]), ("diagnostics", diagnostics)]

def sampleInput (diagnostics : JsonValue) : AdmitInput Unit :=
  { candidates := [sampleCandidate]
    sourceForCandidate := some fun _ _ => .ok { content := some (.text "source"), identity := none, mediaType := none }
    projectionIntent := some fun _ _ => .ok sampleIntent
    companion := some fun _ _ => .projected (sampleResult diagnostics) }

variable (diagnostics : JsonValue)

theorem valid_sampleResult :
    projectionValid (sampleResult diagnostics) sampleIntent (expectedSourceIdentity sampleCandidate) = none := by
  have hdigest : isHexSha256 (projectionDigest (sampleResult diagnostics)).toList = true := by
    have htext : projectionDigest (sampleResult diagnostics) =
        "aaaaaaaaaaaaaaaaaaaaaaaaaaaaaaaaaaaaaaaaaaaaaaaaaaaaaaaaaaaaaaaa" := rfl
    rw [htext]
    decide
  have hsource : projectionSourceIdentity (sampleResult diagnostics) =
      some (expectedSourceIdentity sampleCandidate) := rfl
  have htyped : wellTyped (sampleResult diagnostics) = true := rfl
  have hintended : asIntended (sampleResult diagnostics) sampleIntent (expectedSourceIdentity sampleCandidate) =
      true := by
    rw [asIntended, hdigest]
    rfl
  rw [projectionValid, hsource, htyped, hintended]
  rfl

theorem turn_sample :
    Turn (sampleInput diagnostics) 0 sampleCandidate sampleIntent (sampleResult diagnostics) := by
  refine ⟨_, _, _, rfl, rfl, rfl, ?_⟩
  rw [projectionFor, bind_eq_ok]
  refine ⟨(sampleIntent, _), rfl, ?_⟩
  simp only [valid_sampleResult]
  rfl

theorem not_refused_sample : ¬ Refused (sampleInput diagnostics) := by
  rintro (hmissing | hlong | hinvalid | ⟨ordinal, candidate, hcandidate, hturn⟩)
  · exact hmissing rfl
  · have hone : (sampleInput diagnostics).candidates.length = 1 := rfl
    rw [hone] at hlong
    exact absurd hlong (by decide)
  · exact hinvalid rfl
  · cases ordinal with
    | zero =>
      cases hcandidate
      exact hturn _ _ (turn_sample diagnostics)
    | succ ordinal => cases hcandidate

/-- Diagnostics that are nested too deeply are admitted, in an entry that is refused later. -/
theorem admitted_despite_deep_diagnostics : ¬ ∀ input : AdmitInput Unit, AllOrNothing input := by
  intro h
  rcases refusedOrFits_of_allOrNothing (h (sampleInput (nestedArrays 30))) with hrefused | hfits
  · exact not_refused_sample _ hrefused
  · have hparts := (hfits 0 sampleCandidate sampleIntent _ rfl (turn_sample (nestedArrays 30))).parts
      ("diagnostics", nestedArrays 30) (by simp only [copiedParts, List.mem_cons]; exact .inr (.inr (.inr (.inr (.inr (.inl rfl))))))
    exact not_nestsWithin_nestedArrays 30 (by decide) hparts

end Deep

end Mottainai.CanonAdmission

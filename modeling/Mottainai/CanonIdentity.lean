import Mottainai.JsonUpdates

/-!
# The identities of an execution canon

The identity of a prefix is the digest of a text in which the instructions and the contents are
sorted by their own texts, so that sorting neither swaps nor merges different entries; that of the
execution state is the digest of this identity and of the attachment. The values are those that
validation gives back: it leaves out the key `__proto__`.
-/

namespace Mottainai.CanonIdentity

open JavaScriptValues JsonValues JsonValues.Schema

def canonContractId : String := "mottainai.execution-canon.v1"

def canonSchemaVersion : String := "1"

section Schemas

def maxIdLength : ℕ := 512

def maxRevisionLength : ℕ := 256

def maxJsonArrayEntries : ℕ := 256

def maxJsonObjectEntries : ℕ := 256

def maxJsonNestingDepth : ℕ := 32

def maxContentEntries : ℕ := 256

def maxInstructionEntries : ℕ := 64

def maxInstructionBodyLength : ℕ := 16384

def identifierSchema : Schema := sized 1 maxIdLength anyText

def revisionSchema : Schema := sized 1 maxRevisionLength anyText

def jsonPrimitiveSchema : Schema
  | .array _ => false
  | .object _ => false
  | _ => true

def boundedJsonRecordSchema (valueSchema : Schema) : Schema
  | .object properties => decide (properties.length ≤ maxJsonObjectEntries) &&
      properties.all fun entry => entry.1 != "__proto__" &&
        decide (utf16Length entry.1 ≤ maxIdLength) && valueSchema entry.2
  | _ => false

/-- `jsonValueSchemaAtDepth(depth)`, by the levels that are left below the depth. -/
def jsonValueSchemaAbove : ℕ → Schema
  | 0 => jsonPrimitiveSchema
  | levels + 1 => fun value => jsonPrimitiveSchema value ||
      arrayOf 0 maxJsonArrayEntries (jsonValueSchemaAbove levels) value ||
      boundedJsonRecordSchema (jsonValueSchemaAbove levels) value

def jsonValueSchema : Schema := jsonValueSchemaAbove maxJsonNestingDepth

def contractReferenceSchema : Schema :=
  object [required "contractId" identifierSchema, required "schemaVersion" (integerFrom 1)]

def provenanceSchema : Schema := object [required "source" identifierSchema,
  required "reference" (sized 1 maxIdLength anyText), required "supplied" boolean]

def suppliedInstructionSchema : Schema := object [required "instructionId" identifierSchema,
  required "provenance" (oneOf ["already-supplied"])]

def requiredInstructionSchema : Schema := object [required "instructionId" identifierSchema,
  required "provenance" (oneOf ["required"]),
  required "body" (sized 1 maxInstructionBodyLength anyText)]

/-- The two alternatives differ in the provenance. -/
def runtimeInstructionSchema : Schema := fun value =>
  suppliedInstructionSchema value || requiredInstructionSchema value

def canonC0Schema : Schema := object [required "runtimeContract" contractReferenceSchema,
  required "projectContract" contractReferenceSchema,
  required "runtimeInstructions" (arrayOf 0 maxInstructionEntries runtimeInstructionSchema)]

def repositorySchema : Schema := object [required "repositoryId" identifierSchema,
  required "sourceRevision" revisionSchema, required "baseRevision" revisionSchema]

def canonC1Schema : Schema := object [required "repository" repositorySchema,
  required "packageFacts" (boundedJsonRecordSchema jsonValueSchema),
  required "workspaceFacts" (boundedJsonRecordSchema jsonValueSchema)]

def canonContentEntrySchema : Schema := object [required "contentId" identifierSchema,
  required "value" jsonValueSchema, required "provenance" provenanceSchema]

def canonPrefixSchema : Schema := object [required "c0" canonC0Schema, required "c1" canonC1Schema,
  required "c2" (arrayOf 0 maxContentEntries canonContentEntrySchema),
  required "c3" (arrayOf 0 maxContentEntries canonContentEntrySchema)]

def canonExecutionAttachmentSchema : Schema := object [required "generation" (integerFrom 1),
  Schema.optional "sessionId" identifierSchema, Schema.optional "worktreeId" identifierSchema,
  Schema.optional "branchName" identifierSchema, Schema.optional "agentId" identifierSchema,
  Schema.optional "modelId" identifierSchema]

def canonDocumentSchema : Schema := object [required "contractId" (oneOf [canonContractId]),
  required "schemaVersion" (literalNumber canonSchemaVersion),
  required "prefix" canonPrefixSchema,
  required "executionAttachment" canonExecutionAttachmentSchema]

end Schemas

section Parsing

/-- The value, or the message of a `CanonError`. -/
def parseWithContract (schema : Schema) (value : JsonValue) (label : String) :
    Except String JsonValue :=
  if schema value then .ok value else .error s!"{label} is invalid"

def parseCanonPrefix (value : JsonValue) : Except String JsonValue :=
  parseWithContract canonPrefixSchema value "Canon prefix"

def parseCanonExecutionAttachment (value : JsonValue) : Except String JsonValue :=
  parseWithContract canonExecutionAttachmentSchema value "Canon execution attachment"

def parseCanonDocument (value : JsonValue) : Except String JsonValue :=
  parseWithContract canonDocumentSchema value "Canon document"

end Parsing

section Canonicalization

/-- `stableSort(items, (entry) => entry)`. -/
def stableSort (items : List JsonValue) : List JsonValue := sortBy stableStringifyValue items

mutual

/-- The value with the keys of its objects added in their order. Sorting goes by the keys alone,
so it may come after the values. -/
def canonicalizeJson : JsonValue → JsonValue
  | .array elements => .array (canonicalizeElements elements)
  | .object properties => .object (fromEntries (sortBy Prod.fst (canonicalizeEntries properties)))
  | value => value

def canonicalizeElements : List JsonValue → List JsonValue
  | [] => []
  | value :: values => canonicalizeJson value :: canonicalizeElements values

def canonicalizeEntries : Properties → Properties
  | [] => []
  | (key, value) :: properties => (key, canonicalizeJson value) :: canonicalizeEntries properties

end

def canonicalizeC0 (c0 : JsonValue) : JsonValue := .object [
  ("runtimeContract", member c0 "runtimeContract"),
  ("projectContract", member c0 "projectContract"),
  ("runtimeInstructions", .array (stableSort (elementsMember c0 "runtimeInstructions")))]

def canonicalizeC1 (c1 : JsonValue) : JsonValue := .object [
  ("repository", member c1 "repository"),
  ("packageFacts", canonicalizeJson (member c1 "packageFacts")),
  ("workspaceFacts", canonicalizeJson (member c1 "workspaceFacts"))]

def canonicalizeEntry (entry : JsonValue) : JsonValue := .object [
  ("contentId", member entry "contentId"), ("value", canonicalizeJson (member entry "value")),
  ("provenance", member entry "provenance")]

def canonicalizeContent (entries : List JsonValue) : JsonValue :=
  .array ((stableSort entries).map canonicalizeEntry)

def canonicalPrefix (validated : JsonValue) : JsonValue := .object [
  ("c0", canonicalizeC0 (member validated "c0")), ("c1", canonicalizeC1 (member validated "c1")),
  ("c2", canonicalizeContent (elementsMember validated "c2")),
  ("c3", canonicalizeContent (elementsMember validated "c3"))]

def canonicalizeCanonPrefix (canonPrefix : JsonValue) : Except String JsonValue :=
  (parseCanonPrefix canonPrefix).map canonicalPrefix

/-- One of the sections of the text, which are in the order of the prefix. -/
def sectionOf (canonical : JsonValue) (name key : String) : JsonValue :=
  .object [("section", .string name), ("content", member canonical key)]

def sections (canonical : JsonValue) : JsonValue := .object [("contractId", .string canonContractId),
  ("schemaVersion", .number canonSchemaVersion),
  ("sections", .array [sectionOf canonical "C0" "c0", sectionOf canonical "C1" "c1",
    sectionOf canonical "C2" "c2", sectionOf canonical "C3" "c3"])]

def canonicalCanonPrefixText (canonPrefix : JsonValue) : Except String String :=
  (canonicalizeCanonPrefix canonPrefix).map fun canonical => stableStringifyValue (sections canonical)

def canonicalCanonExecutionAttachmentText (attachment : JsonValue) : Except String String :=
  (parseCanonExecutionAttachment attachment).map stableStringifyValue

end Canonicalization

section Identities

variable (sha256 : String → String)

def prefixIdentityOf (canonPrefix : JsonValue) : Except String String :=
  (canonicalCanonPrefixText canonPrefix).map fun text => "cp1:" ++ sha256 text

/-- `/^cp1:[0-9a-f]{64}$/u`. -/
def isPrefixId (prefixId : String) : Bool :=
  "cp1:".toList.isPrefixOf prefixId.toList && isHexSha256 (prefixId.toList.drop 4)

/-- `JSON.parse`, with the kind of the error that it throws. -/
def parseJson (text : String) : Except String JsonValue :=
  match jsonParse text with
  | some value => .ok value
  | none => .error "SyntaxError"

def executionState (prefixId : String) (attachment : JsonValue) : JsonValue := .object [
  ("version", .string "execution-state-v1"), ("prefix_id", .string prefixId),
  ("attachment", attachment)]

def executionStateIdentityOf (prefixId : String) (attachment : JsonValue) :
    Except String String := do
  require (isPrefixId prefixId = true) "prefix_id is invalid"
  let canonicalAttachment ← canonicalCanonExecutionAttachmentText attachment
  let parsed ← parseJson canonicalAttachment
  return "es1:" ++ sha256 (stableStringifyValue (executionState prefixId parsed))

structure CanonIdentities where
  prefix_id : String
  execution_state_id : String
  deriving DecidableEq

def identitiesOf (document : JsonValue) : Except String CanonIdentities := do
  let parsed ← parseCanonDocument document
  let prefix_id ← prefixIdentityOf sha256 (member parsed "prefix")
  let execution_state_id ←
    executionStateIdentityOf sha256 prefix_id (member parsed "executionAttachment")
  return { prefix_id, execution_state_id }

def canonicalCanonDocumentText (document : JsonValue) : Except String String := do
  let parsed ← parseCanonDocument document
  let canonPrefix ← canonicalizeCanonPrefix (member parsed "prefix")
  let attachmentText ← canonicalCanonExecutionAttachmentText (member parsed "executionAttachment")
  let attachment ← parseJson attachmentText
  return stableStringifyValue (.object [("contractId", .string canonContractId),
    ("schemaVersion", .number canonSchemaVersion), ("prefix", canonPrefix),
    ("executionAttachment", attachment)])

end Identities

section Values

variable {v : JsonValue}

theorem canonicalizeElements_eq (elements : List JsonValue) :
    canonicalizeElements elements = elements.map canonicalizeJson := by
  induction elements with
  | nil => simp [canonicalizeElements]
  | cons value values ih => simp [canonicalizeElements, ih]

theorem canonicalizeEntries_eq (properties : Properties) : canonicalizeEntries properties =
    properties.map fun entry => (entry.1, canonicalizeJson entry.2) := by
  induction properties with
  | nil => simp [canonicalizeEntries]
  | cons entry properties ih =>
    obtain ⟨key, value⟩ := entry
    simp [canonicalizeEntries, ih]

/-- Entries with different keys are all there. -/
theorem fromEntries_perm {entries : Properties} (h : (entries.map Prod.fst).Nodup) :
    (fromEntries entries).Perm entries := by
  have hfold : ∀ (rest properties : Properties), ((properties ++ rest).map Prod.fst).Nodup →
      (rest.foldl (fun acc entry => define acc entry.1 entry.2) properties).Perm
        (properties ++ rest) := by
    intro rest
    induction rest with
    | nil =>
      intro properties _
      rw [List.append_nil]
      exact List.Perm.refl _
    | cons entry rest ih =>
      intro properties hnodup
      have hnew : ∀ e ∈ properties, e.1 ≠ entry.1 := by
        rw [List.map_append, List.nodup_append] at hnodup
        exact fun e he => hnodup.2.2 e.1 (List.mem_map_of_mem he) entry.1 List.mem_cons_self
      have hdefine := define_perm hnew entry.2
      have hmiddle : (define properties entry.1 entry.2 ++ rest).Perm (properties ++ entry :: rest) :=
        (hdefine.append_right rest).trans List.perm_middle.symm
      rw [List.foldl_cons]
      exact (ih _ ((hmiddle.map Prod.fst).nodup_iff.2 hnodup)).trans hmiddle
  exact hfold entries [] h

/-- The canonical form of a value is the value with other orders of keys. -/
theorem canonicalizeJson_rekeyed (h : v.plain = true) : (canonicalizeJson v).plain = true ∧
    inKeyOrder (canonicalizeJson v) = inKeyOrder v := by
  induction v using JsonValue.induction with
  | h v ih =>
    have hchildren := fun w hw => ih w hw (plain_children h w hw)
    cases v with
    | array elements =>
      rw [canonicalizeJson, canonicalizeElements_eq, inKeyOrder_array, inKeyOrder_array, List.map_map]
      constructor
      · refine plain_array.2 fun w hw => ?_
        obtain ⟨w, hmem, rfl⟩ := List.mem_map.1 hw
        exact (hchildren w hmem).1
      · exact congrArg JsonValue.array (List.map_congr_left fun w hw => (hchildren w hw).2)
    | object properties =>
      obtain ⟨hnodup, -⟩ := plain_object.1 h
      let entries := properties.map fun entry => (entry.1, canonicalizeJson entry.2)
      have hkeys : entries.map Prod.fst = properties.map Prod.fst := List.map_map
      have hsorted : (sortBy Prod.fst entries).Perm entries := sortBy_perm Prod.fst entries
      have hnodup' : ((sortBy Prod.fst entries).map Prod.fst).Nodup := by
        rw [(hsorted.map Prod.fst).nodup_iff, hkeys]
        exact hnodup
      have hperm : (fromEntries (sortBy Prod.fst entries)).Perm entries :=
        (fromEntries_perm hnodup').trans hsorted
      have hvalues : entries.map entryInKeyOrder = properties.map entryInKeyOrder := by
        rw [List.map_map]
        refine List.map_congr_left fun entry hentry => ?_
        exact congrArg (Prod.mk entry.1) (hchildren entry.2 (List.mem_map_of_mem hentry)).2
      rw [canonicalizeJson, canonicalizeEntries_eq]
      constructor
      · refine plain_object.2 ⟨(hperm.map Prod.fst).nodup_iff.2 (hkeys ▸ hnodup), fun entry hentry => ?_⟩
        obtain ⟨entry, hmem, rfl⟩ := List.mem_map.1 (hperm.mem_iff.1 hentry)
        exact (hchildren entry.2 (List.mem_map_of_mem hmem)).1
      · rw [inKeyOrder_object, inKeyOrder_object, JsonValue.object.injEq]
        refine sortBy_eq_of_perm (hvalues ▸ hperm.map entryInKeyOrder) ?_
        refine List.inj_on_of_nodup_map ?_
        rw [List.map_map]
        exact (hperm.map Prod.fst).nodup_iff.2 (hkeys ▸ hnodup)
    | _ => exact ⟨h, rfl⟩

end Values

section KeyOrder

theorem keyOrderFree_or {schema schema' : Schema} (h : KeyOrderFree schema)
    (h' : KeyOrderFree schema') : KeyOrderFree fun value => schema value || schema' value := by
  intro v hv hschema
  rw [Bool.or_eq_true] at hschema ⊢
  exact hschema.imp (h v hv) (h' v hv)

theorem keyOrderFree_primitive : KeyOrderFree jsonPrimitiveSchema := by
  intro v _ h
  cases v with
  | array elements => cases h
  | object properties => cases h
  | _ => rfl

theorem keyOrderFree_record {schema : Schema} (h : KeyOrderFree schema) :
    KeyOrderFree (boundedJsonRecordSchema schema) := by
  intro v hv hschema
  cases v with
  | object properties =>
    rw [inKeyOrder_object]
    simp only [boundedJsonRecordSchema, Bool.and_eq_true, List.all_eq_true,
      decide_eq_true_eq] at hschema ⊢
    have hlength : (sortBy Prod.fst (properties.map entryInKeyOrder)).length = properties.length :=
      (sortBy_perm _ _).length_eq.trans (List.length_map _)
    refine ⟨hlength ▸ hschema.1, fun entry hentry => ?_⟩
    obtain ⟨entry, hmem, rfl⟩ := List.mem_map.1 (mem_sortBy.1 hentry)
    exact ⟨(hschema.2 entry hmem).1, h entry.2 ((plain_object.1 hv).2 entry hmem) (hschema.2 entry hmem).2⟩
  | _ => cases hschema

theorem keyOrderFree_jsonValueSchemaAbove (levels : ℕ) :
    KeyOrderFree (jsonValueSchemaAbove levels) := by
  induction levels with
  | zero => exact keyOrderFree_primitive
  | succ levels ih =>
    exact keyOrderFree_or (keyOrderFree_or keyOrderFree_primitive (keyOrderFree_arrayOf _ _ ih))
      (keyOrderFree_record ih)

@[simp] theorem keyOrderFree_jsonValueSchema : KeyOrderFree jsonValueSchema :=
  keyOrderFree_jsonValueSchemaAbove _

@[simp] theorem keyOrderFree_facts : KeyOrderFree (boundedJsonRecordSchema jsonValueSchema) :=
  keyOrderFree_record keyOrderFree_jsonValueSchema

theorem keyOrderFree_canonPrefixSchema : KeyOrderFree canonPrefixSchema := by
  have hcontract : KeyOrderFree contractReferenceSchema :=
    keyOrderFree_object (by simp [required, identifierSchema])
  have hinstruction : KeyOrderFree runtimeInstructionSchema :=
    keyOrderFree_or (keyOrderFree_object (by simp [required, identifierSchema]))
      (keyOrderFree_object (by simp [required, identifierSchema]))
  have hc0 : KeyOrderFree canonC0Schema :=
    keyOrderFree_object (by simp [required, hcontract, hinstruction])
  have hrepository : KeyOrderFree repositorySchema :=
    keyOrderFree_object (by simp [required, identifierSchema, revisionSchema])
  have hc1 : KeyOrderFree canonC1Schema := keyOrderFree_object (by simp [required, hrepository])
  have hprovenance : KeyOrderFree provenanceSchema :=
    keyOrderFree_object (by simp [required, identifierSchema])
  have hentry : KeyOrderFree canonContentEntrySchema :=
    keyOrderFree_object (by simp [required, identifierSchema, hprovenance])
  exact keyOrderFree_object (by simp [required, hc0, hc1, hentry])

theorem keyOrderFree_canonDocumentSchema : KeyOrderFree canonDocumentSchema := by
  have hattachment : KeyOrderFree canonExecutionAttachmentSchema :=
    keyOrderFree_object (by simp [required, Schema.optional, identifierSchema])
  exact keyOrderFree_object (by simp [required, keyOrderFree_canonPrefixSchema, hattachment])

end KeyOrder

section Parts

variable {v w : JsonValue}

/-- `canonPrefix.c0.runtimeInstructions`. -/
def instructionsOf (canonPrefix : JsonValue) : List JsonValue :=
  elementsMember (member canonPrefix "c0") "runtimeInstructions"

def withLists (instructions c2 c3 : List JsonValue) (canonPrefix : JsonValue) : JsonValue :=
  atProperty "c0" (atProperty "runtimeInstructions" fun _ => .array instructions)
    (atProperty "c2" (fun _ => .array c2) (atProperty "c3" (fun _ => .array c3) canonPrefix))

/-- The instructions, the C2 and the C3 entries are listed in another order, and then the keys of
objects are. -/
def Reordered (v w : JsonValue) : Prop :=
  ∃ instructions c2 c3, instructions.Perm (instructionsOf v) ∧ c2.Perm (elementsMember v "c2") ∧
    c3.Perm (elementsMember v "c3") ∧ Rekeyed (withLists instructions c2 c3 v) w

/-- A valid prefix, and what validation says of its parts. -/
structure Valid (v : JsonValue) : Prop where
  plain : v.plain = true
  accepted : canonPrefixSchema v = true
  c0 : canonC0Schema (member v "c0") = true
  c1 : canonC1Schema (member v "c1") = true
  instructions : valueAt ["c0", "runtimeInstructions"] v = .array (instructionsOf v)
  c2 : member v "c2" = .array (elementsMember v "c2")
  c3 : member v "c3" = .array (elementsMember v "c3")
  c2Entries : ∀ entry ∈ elementsMember v "c2", canonContentEntrySchema entry = true
  c3Entries : ∀ entry ∈ elementsMember v "c3", canonContentEntrySchema entry = true

theorem listed_of_arrayOf {min max : ℕ} {schema : Schema} (h : arrayOf min max schema v = true) :
    v = .array (elementsOf v) ∧ ∀ w ∈ elementsOf v, schema w = true := by
  obtain ⟨elements, rfl⟩ := exists_of_arrayOf h
  exact ⟨rfl, (arrayOf_iff.1 h).2⟩

theorem Valid.of_accepted (hplain : v.plain = true) (h : canonPrefixSchema v = true) : Valid v := by
  have hc0 := (accepted_required h (mem_fields 0 rfl)).2
  have hc1 := (accepted_required h (mem_fields 1 rfl)).2
  have hinstructions := (accepted_required hc0 (mem_fields 2 rfl)).2
  have hc2 := listed_of_arrayOf (accepted_required h (mem_fields 2 rfl)).2
  have hc3 := listed_of_arrayOf (accepted_required h (mem_fields 3 rfl)).2
  exact ⟨hplain, h, hc0, hc1, (listed_of_arrayOf hinstructions).1, hc2.1, hc3.1, hc2.2, hc3.2⟩

/-- The parts of two prefixes are equal up to the order of keys, and the lists up to their order. -/
structure SameParts (v w : JsonValue) : Prop where
  runtimeContract : inKeyOrder (valueAt ["c0", "runtimeContract"] v) =
    inKeyOrder (valueAt ["c0", "runtimeContract"] w)
  projectContract : inKeyOrder (valueAt ["c0", "projectContract"] v) =
    inKeyOrder (valueAt ["c0", "projectContract"] w)
  instructions : ((instructionsOf v).map inKeyOrder).Perm ((instructionsOf w).map inKeyOrder)
  repository : inKeyOrder (valueAt ["c1", "repository"] v) =
    inKeyOrder (valueAt ["c1", "repository"] w)
  packageFacts : inKeyOrder (valueAt ["c1", "packageFacts"] v) =
    inKeyOrder (valueAt ["c1", "packageFacts"] w)
  workspaceFacts : inKeyOrder (valueAt ["c1", "workspaceFacts"] v) =
    inKeyOrder (valueAt ["c1", "workspaceFacts"] w)
  c2 : ((elementsMember v "c2").map inKeyOrder).Perm ((elementsMember w "c2").map inKeyOrder)
  c3 : ((elementsMember v "c3").map inKeyOrder).Perm ((elementsMember w "c3").map inKeyOrder)

theorem Valid.plain_instructions (h : Valid v) : ∀ i ∈ instructionsOf v, i.plain = true :=
  plain_elementsOf (plain_member (plain_member h.plain "c0") _)

theorem Valid.plain_c2 (h : Valid v) : ∀ i ∈ elementsMember v "c2", i.plain = true :=
  plain_elementsOf (plain_member h.plain _)

theorem Valid.plain_c3 (h : Valid v) : ∀ i ∈ elementsMember v "c3", i.plain = true :=
  plain_elementsOf (plain_member h.plain _)

theorem Valid.inKeyOrder_eq (h : Valid v) (h' : Valid w) (hsame : SameParts v w)
    (hinstructions : (instructionsOf v).map inKeyOrder = (instructionsOf w).map inKeyOrder)
    (hc2 : (elementsMember v "c2").map inKeyOrder = (elementsMember w "c2").map inKeyOrder)
    (hc3 : (elementsMember v "c3").map inKeyOrder = (elementsMember w "c3").map inKeyOrder) :
    inKeyOrder v = inKeyOrder w := by
  have hlist : inKeyOrder (valueAt ["c0", "runtimeInstructions"] v) =
      inKeyOrder (valueAt ["c0", "runtimeInstructions"] w) := by
    rw [h.instructions, h'.instructions, inKeyOrder_array, inKeyOrder_array, hinstructions]
  have hlist2 : inKeyOrder (member v "c2") = inKeyOrder (member w "c2") := by
    rw [h.c2, h'.c2, inKeyOrder_array, inKeyOrder_array, hc2]
  have hlist3 : inKeyOrder (member v "c3") = inKeyOrder (member w "c3") := by
    rw [h.c3, h'.c3, inKeyOrder_array, inKeyOrder_array, hc3]
  have hc0 : inKeyOrder (member v "c0") = inKeyOrder (member w "c0") := by
    rw [inKeyOrder_rebuilt (by simp [required]) (by simp [required]) (plain_member h.plain "c0") h.c0,
      inKeyOrder_rebuilt (by simp [required]) (by simp [required]) (plain_member h'.plain "c0") h'.c0,
      inKeyOrder_object_iff (by simp [required]) (by simp [required])]
    simp only [List.map_cons, List.map_nil, required, List.cons.injEq, and_true]
    exact ⟨hsame.runtimeContract, hsame.projectContract, hlist⟩
  have hc1 : inKeyOrder (member v "c1") = inKeyOrder (member w "c1") := by
    rw [inKeyOrder_rebuilt (by simp [required]) (by simp [required]) (plain_member h.plain "c1") h.c1,
      inKeyOrder_rebuilt (by simp [required]) (by simp [required]) (plain_member h'.plain "c1") h'.c1,
      inKeyOrder_object_iff (by simp [required]) (by simp [required])]
    simp only [List.map_cons, List.map_nil, required, List.cons.injEq, and_true]
    exact ⟨hsame.repository, hsame.packageFacts, hsame.workspaceFacts⟩
  rw [inKeyOrder_rebuilt (by simp [required]) (by simp [required]) h.plain h.accepted,
    inKeyOrder_rebuilt (by simp [required]) (by simp [required]) h'.plain h'.accepted,
    inKeyOrder_object_iff (by simp [required]) (by simp [required])]
  simp only [List.map_cons, List.map_nil, required, List.cons.injEq, and_true]
  exact ⟨hc0, hc1, hlist2, hlist3⟩

variable {instructions c2 c3 : List JsonValue}

theorem elementsMember_atProperty {u : JsonValue} {name : String} {elements : List JsonValue}
    (h : (member? u name).isSome) :
    elementsMember (atProperty name (fun _ => .array elements) u) name = elements := by
  rw [elementsMember, member_atProperty h]
  rfl

/-- The lists are those that were put there, and the other parts are as they were. -/
theorem Valid.of_lists (h : Valid v) (hinstructions : instructions.Perm (instructionsOf v))
    (hc2 : c2.Perm (elementsMember v "c2")) (hc3 : c3.Perm (elementsMember v "c3")) :
    Valid (withLists instructions c2 c3 v) := by
  have hin := h.plain_instructions
  have hin2 := h.plain_c2
  have hin3 := h.plain_c3
  refine Valid.of_accepted ?_ ?_
  · refine plain_atProperty (plain_atProperty (plain_atProperty h.plain fun _ _ => plain_array.2 ?_)
      fun _ _ => plain_array.2 ?_) fun _ hu => plain_atProperty hu fun _ _ => plain_array.2 ?_
    · exact fun i hi => hin3 i (hc3.mem_iff.1 hi)
    · exact fun i hi => hin2 i (hc2.mem_iff.1 hi)
    · exact fun i hi => hin i (hinstructions.mem_iff.1 hi)
  have hlist : ∀ {min max : ℕ} {schema : Schema} {u : JsonValue} {l : List JsonValue},
      arrayOf min max schema u = true → l.Perm (elementsOf u) →
        arrayOf min max schema (.array l) = true := by
    intro min max schema u l hu hl
    obtain ⟨elements, rfl⟩ := exists_of_arrayOf hu
    rw [arrayOf_iff] at hu ⊢
    rw [hl.length_eq]
    exact ⟨hu.1, fun i hi => hu.2 i (hl.mem_iff.1 hi)⟩
  have haccepted3 := (accepted_required h.accepted (mem_fields 3 rfl)).2
  have hwith3 : canonPrefixSchema (atProperty "c3" (fun _ => .array c3) v) = true :=
    object_atProperty_required h.accepted (mem_fields 3 rfl) (by decide) (hlist haccepted3 hc3)
  have haccepted2 := (accepted_required h.accepted (mem_fields 2 rfl)).2
  have hwith2 : canonPrefixSchema (atProperty "c2" (fun _ => .array c2)
      (atProperty "c3" (fun _ => .array c3) v)) = true :=
    object_atProperty_required hwith3 (mem_fields 2 rfl) (by decide) (hlist haccepted2 hc2)
  refine object_atProperty_required hwith2 (mem_fields 0 rfl) (by decide) ?_
  rw [member_atProperty_of_ne (by decide), member_atProperty_of_ne (by decide)]
  exact object_atProperty_required h.c0 (mem_fields 2 rfl) (by decide)
    (hlist (accepted_required h.c0 (mem_fields 2 rfl)).2 hinstructions)

theorem Valid.member_withLists (h : Valid v) (instructions c2 c3 : List JsonValue) :
    member (withLists instructions c2 c3 v) "c0" =
        atProperty "runtimeInstructions" (fun _ => .array instructions) (member v "c0") ∧
      member (withLists instructions c2 c3 v) "c1" = member v "c1" ∧
      member (withLists instructions c2 c3 v) "c2" = .array c2 ∧
      member (withLists instructions c2 c3 v) "c3" = .array c3 := by
  have hc0 := (accepted_required h.accepted (mem_fields 0 rfl)).1
  have hc2 := (accepted_required h.accepted (mem_fields 2 rfl)).1
  have hc3 := (accepted_required h.accepted (mem_fields 3 rfl)).1
  have hc0' : (member? (atProperty "c2" (fun _ => .array c2)
      (atProperty "c3" (fun _ => .array c3) v)) "c0").isSome := by
    rw [member?_atProperty, if_neg (by decide), member?_atProperty, if_neg (by decide)]
    exact hc0
  have hc2' : (member? (atProperty "c3" (fun _ => .array c3) v) "c2").isSome := by
    rw [member?_atProperty, if_neg (by decide)]
    exact hc2
  refine ⟨?_, ?_, ?_, ?_⟩
  · rw [withLists, member_atProperty hc0', member_atProperty_of_ne (by decide),
      member_atProperty_of_ne (by decide)]
  · rw [withLists, member_atProperty_of_ne (by decide), member_atProperty_of_ne (by decide),
      member_atProperty_of_ne (by decide)]
  · rw [withLists, member_atProperty_of_ne (by decide), member_atProperty hc2']
  · rw [withLists, member_atProperty_of_ne (by decide), member_atProperty_of_ne (by decide),
      member_atProperty hc3]

theorem Valid.instructionsOf_withLists (h : Valid v) :
    instructionsOf (withLists instructions c2 c3 v) = instructions := by
  rw [instructionsOf, (h.member_withLists _ _ _).1,
    elementsMember_atProperty (accepted_required h.c0 (mem_fields 2 rfl)).1]

theorem Valid.valueAt_withLists (h : Valid v) {key : String} (hkey : key ≠ "runtimeInstructions") :
    valueAt ["c0", key] (withLists instructions c2 c3 v) = valueAt ["c0", key] v := by
  have hmember := (h.member_withLists instructions c2 c3).1
  exact (congrArg (member · key) hmember).trans (member_atProperty_of_ne hkey _ _)

/-- Parts that are equal up to their order are those of a reordered prefix. -/
theorem Valid.reordered_iff (h : Valid v) (h' : Valid w) : Reordered v w ↔ SameParts v w := by
  have hread : ∀ {instructions c2 c3 : List JsonValue},
      (withLists instructions c2 c3 v).plain = true →
      inKeyOrder (withLists instructions c2 c3 v) = inKeyOrder w → ∀ path,
        inKeyOrder (valueAt path (withLists instructions c2 c3 v)) = inKeyOrder (valueAt path w) := by
    intro instructions c2 c3 hplain hkeys path
    rw [← valueAt_inKeyOrder hplain, ← valueAt_inKeyOrder h'.plain, hkeys]
  constructor
  · rintro ⟨instructions, c2, c3, hinstructions, hc2, hc3, hrekeyed⟩
    have hwith := h.of_lists hinstructions hc2 hc3
    have hsame := hread hwith.plain ((rekeyed_iff hwith.plain h'.plain).1 hrekeyed)
    obtain ⟨-, hmember1, hmember2, hmember3⟩ := h.member_withLists instructions c2 c3
    have hc0 : ∀ key, key ≠ "runtimeInstructions" →
        inKeyOrder (valueAt ["c0", key] v) = inKeyOrder (valueAt ["c0", key] w) :=
      fun key hkey => (congrArg inKeyOrder (h.valueAt_withLists hkey)).symm.trans (hsame ["c0", key])
    have hc1 : ∀ key, inKeyOrder (valueAt ["c1", key] v) = inKeyOrder (valueAt ["c1", key] w) :=
      fun key => (congrArg (inKeyOrder <| member · key) hmember1).symm.trans (hsame ["c1", key])
    have hlist : ∀ {l l' m : List JsonValue}, m.Perm l →
        inKeyOrder (.array m) = inKeyOrder (.array l') → (l.map inKeyOrder).Perm (l'.map inKeyOrder) := by
      intro l l' m hm heq
      rw [inKeyOrder_array, inKeyOrder_array, JsonValue.array.injEq] at heq
      exact heq ▸ (hm.map inKeyOrder).symm
    have hin : inKeyOrder (.array instructions) = inKeyOrder (.array (instructionsOf w)) := by
      rw [← h'.instructions, ← hsame, hwith.instructions, h.instructionsOf_withLists]
    have hin2 : inKeyOrder (.array c2) = inKeyOrder (.array (elementsMember w "c2")) := by
      rw [← h'.c2, ← hmember2]
      exact hsame ["c2"]
    have hin3 : inKeyOrder (.array c3) = inKeyOrder (.array (elementsMember w "c3")) := by
      rw [← h'.c3, ← hmember3]
      exact hsame ["c3"]
    exact ⟨hc0 _ (by decide), hc0 _ (by decide), hlist hinstructions hin, hc1 _, hc1 _, hc1 _,
      hlist hc2 hin2, hlist hc3 hin3⟩
  · intro hsame
    obtain ⟨instructions, hinstructions, hmap⟩ := Canonical.exists_perm_map_eq hsame.instructions.symm
    obtain ⟨c2, hc2, hmap2⟩ := Canonical.exists_perm_map_eq hsame.c2.symm
    obtain ⟨c3, hc3, hmap3⟩ := Canonical.exists_perm_map_eq hsame.c3.symm
    have hwith := h.of_lists hinstructions hc2 hc3
    obtain ⟨hmember0, hmember1, hmember2, hmember3⟩ := h.member_withLists instructions c2 c3
    have hin2 : elementsMember (withLists instructions c2 c3 v) "c2" = c2 := by
      rw [elementsMember, hmember2]
      rfl
    have hin3 : elementsMember (withLists instructions c2 c3 v) "c3" = c3 := by
      rw [elementsMember, hmember3]
      rfl
    have hc1 : ∀ key, valueAt ["c1", key] (withLists instructions c2 c3 v) = valueAt ["c1", key] v :=
      fun key => congrArg (member · key) hmember1
    refine ⟨instructions, c2, c3, hinstructions, hc2, hc3,
      (rekeyed_iff hwith.plain h'.plain).2 (hwith.inKeyOrder_eq h' ?_ ?_ ?_ ?_)⟩
    · refine ⟨?_, ?_, ?_, ?_, ?_, ?_, ?_, ?_⟩
      · rw [h.valueAt_withLists (by decide), hsame.runtimeContract]
      · rw [h.valueAt_withLists (by decide), hsame.projectContract]
      · rw [h.instructionsOf_withLists, hmap]
      · rw [hc1, hsame.repository]
      · rw [hc1, hsame.packageFacts]
      · rw [hc1, hsame.workspaceFacts]
      · rw [hin2, hmap2]
      · rw [hin3, hmap3]
    · rw [h.instructionsOf_withLists, hmap]
    · rw [hin2, hmap2]
    · rw [hin3, hmap3]

end Parts

section Texts

variable {v w : JsonValue}

theorem canonicalizeEntry_rekeyed {entry : JsonValue} (hplain : entry.plain = true)
    (h : canonContentEntrySchema entry = true) : (canonicalizeEntry entry).plain = true ∧
      inKeyOrder (canonicalizeEntry entry) = inKeyOrder entry := by
  have hvalue := canonicalizeJson_rekeyed (plain_member hplain "value")
  constructor
  · refine plain_object.2 ⟨by simp, ?_⟩
    simp only [List.forall_mem_cons]
    exact ⟨plain_member hplain _, hvalue.1, plain_member hplain _, nofun⟩
  · rw [inKeyOrder_rebuilt (by simp [required]) (by simp [required]) hplain h, canonicalizeEntry,
      inKeyOrder_object_iff (by simp [required]) (by simp)]
    simp only [List.map_cons, List.map_nil, required, List.cons.injEq, and_true, true_and]
    exact hvalue.2

theorem Valid.plain_canonicalPrefix (h : Valid v) : (canonicalPrefix v).plain = true := by
  have hc0 := plain_member h.plain "c0"
  have hc1 := plain_member h.plain "c1"
  have hcontent : ∀ {l : List JsonValue}, (∀ e ∈ l, e.plain = true) →
      (∀ e ∈ l, canonContentEntrySchema e = true) → (canonicalizeContent l).plain = true := by
    intro l hl hentries
    refine plain_array.2 fun e he => ?_
    obtain ⟨e, hmem, rfl⟩ := List.mem_map.1 he
    exact (canonicalizeEntry_rekeyed (hl e (mem_sortBy.1 hmem)) (hentries e (mem_sortBy.1 hmem))).1
  refine plain_object.2 ⟨by simp, ?_⟩
  simp only [List.forall_mem_cons]
  refine ⟨plain_object.2 ⟨by simp, ?_⟩, plain_object.2 ⟨by simp, ?_⟩, hcontent h.plain_c2 h.c2Entries,
    hcontent h.plain_c3 h.c3Entries, nofun⟩
  · simp only [List.forall_mem_cons]
    exact ⟨plain_member hc0 _, plain_member hc0 _,
      plain_array.2 fun i hi => h.plain_instructions i (mem_sortBy.1 hi), nofun⟩
  · simp only [List.forall_mem_cons]
    exact ⟨plain_member hc1 _, (canonicalizeJson_rekeyed (plain_member hc1 _)).1,
      (canonicalizeJson_rekeyed (plain_member hc1 _)).1, nofun⟩

def sortedPrefix (v : JsonValue) : JsonValue := withLists (stableSort (instructionsOf v))
  (stableSort (elementsMember v "c2")) (stableSort (elementsMember v "c3")) v

theorem Valid.sorted (h : Valid v) : Valid (sortedPrefix v) :=
  h.of_lists (sortBy_perm stableStringifyValue _) (sortBy_perm stableStringifyValue _)
    (sortBy_perm stableStringifyValue _)

theorem plain_sortedPrefix (h : v.plain = true) : (sortedPrefix v).plain = true := by
  have hlist : ∀ {l : List JsonValue}, (∀ i ∈ l, i.plain = true) →
      (JsonValue.array (stableSort l)).plain = true :=
    fun hl => plain_array.2 fun i hi => hl i (mem_sortBy.1 hi)
  refine plain_atProperty (plain_atProperty (plain_atProperty h fun _ _ => ?_) fun _ _ => ?_)
    fun _ hu => plain_atProperty hu fun _ _ => ?_
  · exact hlist (plain_elementsOf (plain_member h "c3"))
  · exact hlist (plain_elementsOf (plain_member h "c2"))
  · exact hlist (plain_elementsOf (plain_member (plain_member h "c0") _))

theorem Valid.canonicalPrefix_rekeyed (h : Valid v) :
    inKeyOrder (canonicalPrefix v) = inKeyOrder (sortedPrefix v) := by
  have hsorted := h.sorted
  obtain ⟨hmember0, hmember1, hmember2, hmember3⟩ := h.member_withLists
    (stableSort (instructionsOf v)) (stableSort (elementsMember v "c2"))
    (stableSort (elementsMember v "c3"))
  have hc0 : inKeyOrder (canonicalizeC0 (member v "c0")) =
      inKeyOrder (member (sortedPrefix v) "c0") := by
    rw [inKeyOrder_rebuilt (by simp [required]) (by simp [required])
        (plain_member hsorted.plain "c0") hsorted.c0, canonicalizeC0,
      inKeyOrder_object_iff (by simp [required]) (by simp)]
    simp only [List.map_cons, List.map_nil, required, List.cons.injEq, and_true]
    refine ⟨?_, ?_, ?_⟩
    · exact congrArg inKeyOrder (h.valueAt_withLists (by decide : "runtimeContract" ≠ _)).symm
    · exact congrArg inKeyOrder (h.valueAt_withLists (by decide : "projectContract" ≠ _)).symm
    · have hlist := hsorted.instructions
      rw [sortedPrefix, h.instructionsOf_withLists] at hlist
      exact congrArg inKeyOrder hlist.symm
  have hc1 : inKeyOrder (canonicalizeC1 (member v "c1")) = inKeyOrder (member v "c1") := by
    have hfacts := fun key => (canonicalizeJson_rekeyed (plain_member (plain_member h.plain "c1") key)).2
    rw [inKeyOrder_rebuilt (by simp [required]) (by simp [required]) (plain_member h.plain "c1") h.c1,
      canonicalizeC1, inKeyOrder_object_iff (by simp [required]) (by simp)]
    simp only [List.map_cons, List.map_nil, required, hfacts]
  have hcontent : ∀ {l : List JsonValue}, (∀ e ∈ l, e.plain = true) →
      (∀ e ∈ l, canonContentEntrySchema e = true) →
        inKeyOrder (canonicalizeContent l) = inKeyOrder (.array (stableSort l)) := by
    intro l hl hentries
    rw [canonicalizeContent, inKeyOrder_array, inKeyOrder_array, List.map_map, JsonValue.array.injEq]
    refine List.map_congr_left fun e he => ?_
    exact (canonicalizeEntry_rekeyed (hl e (mem_sortBy.1 he)) (hentries e (mem_sortBy.1 he))).2
  rw [inKeyOrder_rebuilt (by simp [required]) (by simp [required]) hsorted.plain hsorted.accepted,
    canonicalPrefix, inKeyOrder_object_iff (by simp [required]) (by simp)]
  simp only [List.map_cons, List.map_nil, required, List.cons.injEq, and_true]
  refine ⟨hc0, ?_, ?_, ?_⟩
  · rw [sortedPrefix, hmember1]
    exact hc1
  · rw [sortedPrefix, hmember2]
    exact hcontent h.plain_c2 h.c2Entries
  · rw [sortedPrefix, hmember3]
    exact hcontent h.plain_c3 h.c3Entries

theorem SameParts.symm (h : SameParts v w) : SameParts w v :=
  ⟨h.runtimeContract.symm, h.projectContract.symm, h.instructions.symm, h.repository.symm, h.packageFacts.symm,
    h.workspaceFacts.symm, h.c2.symm, h.c3.symm⟩

variable {u : JsonValue}

theorem SameParts.trans (h : SameParts u v) (h' : SameParts v w) : SameParts u w :=
  ⟨h.runtimeContract.trans h'.runtimeContract, h.projectContract.trans h'.projectContract,
    h.instructions.trans h'.instructions, h.repository.trans h'.repository, h.packageFacts.trans h'.packageFacts,
    h.workspaceFacts.trans h'.workspaceFacts, h.c2.trans h'.c2, h.c3.trans h'.c3⟩

theorem Valid.sameParts_of_sorted (h : Valid v) (h' : Valid u)
    (hkeys : inKeyOrder (sortedPrefix v) = inKeyOrder u) : SameParts v u := by
  have hperm := sortBy_perm stableStringifyValue
  exact (h.reordered_iff h').1 ⟨_, _, _, hperm _, hperm _, hperm _, (rekeyed_iff h.sorted.plain h'.plain).2 hkeys⟩

/-- The sorted prefixes of two prefixes are equal if their parts are. -/
theorem Valid.sortedPrefix_iff (h : Valid v) (h' : Valid w) :
    inKeyOrder (sortedPrefix v) = inKeyOrder (sortedPrefix w) ↔ Reordered v w := by
  rw [h.reordered_iff h']
  have hw := h'.sameParts_of_sorted h'.sorted rfl
  constructor
  · exact fun hkeys => (h.sameParts_of_sorted h'.sorted hkeys).trans hw.symm
  · intro hsame
    have hlist : ∀ {l l' : List JsonValue}, (∀ i ∈ l, i.plain = true) → (∀ i ∈ l', i.plain = true) →
        (l.map inKeyOrder).Perm (l'.map inKeyOrder) →
          (stableSort l).map inKeyOrder = (stableSort l').map inKeyOrder := fun hl hl' hperm =>
      (inKeyOrder_sorted_iff hl hl').2 ((relisted_iff hl hl').2 hperm)
    have hsorted : ∀ {u : JsonValue}, Valid u →
        instructionsOf (sortedPrefix u) = stableSort (instructionsOf u) ∧
          elementsMember (sortedPrefix u) "c2" = stableSort (elementsMember u "c2") ∧
            elementsMember (sortedPrefix u) "c3" = stableSort (elementsMember u "c3") := by
      intro u hu
      obtain ⟨-, -, hmember2, hmember3⟩ := hu.member_withLists (stableSort (instructionsOf u))
        (stableSort (elementsMember u "c2")) (stableSort (elementsMember u "c3"))
      exact ⟨hu.instructionsOf_withLists, congrArg elementsOf hmember2, congrArg elementsOf hmember3⟩
    obtain ⟨hin, hin2, hin3⟩ := hsorted h
    obtain ⟨hin', hin2', hin3'⟩ := hsorted h'
    refine h.sorted.inKeyOrder_eq h'.sorted ((h.sameParts_of_sorted h.sorted rfl).symm.trans (hsame.trans hw)) ?_ ?_ ?_
    · rw [hin, hin']
      exact hlist h.plain_instructions h'.plain_instructions hsame.instructions
    · rw [hin2, hin2']
      exact hlist h.plain_c2 h'.plain_c2 hsame.c2
    · rw [hin3, hin3']
      exact hlist h.plain_c3 h'.plain_c3 hsame.c3

theorem plain_sections {canonical : JsonValue} (h : canonical.plain = true) :
    (sections canonical).plain = true := by
  have hsection : ∀ name key, (sectionOf canonical name key).plain = true := by
    intro name key
    refine plain_object.2 ⟨by simp, ?_⟩
    simp only [List.forall_mem_cons]
    exact ⟨rfl, plain_member h key, nofun⟩
  refine plain_object.2 ⟨by simp, ?_⟩
  simp only [List.forall_mem_cons]
  refine ⟨rfl, by decide, plain_array.2 ?_, nofun⟩
  simp only [List.forall_mem_cons]
  exact ⟨hsection _ _, hsection _ _, hsection _ _, hsection _ _, nofun⟩

theorem sections_iff (v w : JsonValue) :
    inKeyOrder (sections (canonicalPrefix v)) = inKeyOrder (sections (canonicalPrefix w)) ↔
      inKeyOrder (canonicalPrefix v) = inKeyOrder (canonicalPrefix w) := by
  have hsection : ∀ name key, inKeyOrder (sectionOf (canonicalPrefix v) name key) =
      inKeyOrder (sectionOf (canonicalPrefix w) name key) ↔
        inKeyOrder (member (canonicalPrefix v) key) = inKeyOrder (member (canonicalPrefix w) key) := by
    intro name key
    rw [sectionOf, sectionOf, inKeyOrder_object_iff (by simp) (by simp)]
    simp only [List.map_cons, List.map_nil, List.cons.injEq, and_true, true_and]
  rw [sections, sections, inKeyOrder_object_iff (by simp) (by simp)]
  simp only [List.map_cons, List.map_nil, List.cons.injEq, and_true, true_and, inKeyOrder_array,
    JsonValue.array.injEq, hsection]
  rw [canonicalPrefix, canonicalPrefix, inKeyOrder_object_iff (by simp) (by simp)]
  simp only [List.map_cons, List.map_nil, List.cons.injEq, and_true]
  rfl

end Texts

section Identities

variable {sha256 : String → String} {v w a b d : JsonValue}

theorem parseWithContract_eq_ok {schema : Schema} {label : String} :
    parseWithContract schema v label = .ok w ↔ schema v = true ∧ w = v := by
  rw [parseWithContract]
  split_ifs with h
  · rw [Except.ok.injEq, eq_comm]
    exact ⟨fun heq => ⟨h, heq⟩, fun heq => heq.2⟩
  · exact ⟨nofun, fun heq => absurd heq.1 h⟩

def prefixText (v : JsonValue) : String := stableStringifyValue (sections (canonicalPrefix v))

theorem prefixIdentityOf_valid (h : Valid v) :
    prefixIdentityOf sha256 v = .ok ("cp1:" ++ sha256 (prefixText v)) := by
  have hparse : parseCanonPrefix v = .ok v := parseWithContract_eq_ok.2 ⟨h.accepted, rfl⟩
  rw [prefixIdentityOf, canonicalCanonPrefixText, canonicalizeCanonPrefix, hparse]
  rfl

theorem prefixText_iff (h : Valid v) (h' : Valid w) :
    prefixText v = prefixText w ↔ Reordered v w := by
  have hv := plain_sections h.plain_canonicalPrefix
  have hw := plain_sections h'.plain_canonicalPrefix
  rw [prefixText, prefixText, stableStringifyValue_eq_iff hv hw, rekeyed_iff hv hw, sections_iff,
    h.canonicalPrefix_rekeyed, h'.canonicalPrefix_rekeyed, h.sortedPrefix_iff h']

variable (prefixId : String)

theorem executionStateIdentityOf_accepted (ha : a.plain = true)
    (h : canonExecutionAttachmentSchema a = true) :
    executionStateIdentityOf sha256 prefixId a =
      (require (isPrefixId prefixId = true) "prefix_id is invalid").map fun _ =>
        "es1:" ++ sha256 (stableStringifyValue (executionState prefixId (inKeyOrder a))) := by
  have htext : canonicalCanonExecutionAttachmentText a = .ok (stableStringifyValue a) := by
    rw [canonicalCanonExecutionAttachmentText, parseCanonExecutionAttachment,
      parseWithContract_eq_ok.2 ⟨h, rfl⟩]
    rfl
  have hparse : parseJson (stableStringifyValue a) = .ok (inKeyOrder a) := by
    rw [parseJson, jsonParse_stableStringifyValue ha]
  rw [executionStateIdentityOf, htext]
  cases require (isPrefixId prefixId = true) "prefix_id is invalid" with
  | error message => rfl
  | ok _ =>
    change (parseJson (stableStringifyValue a) >>= fun parsed =>
      pure ("es1:" ++ sha256 (stableStringifyValue (executionState prefixId parsed)))) = _
    rw [hparse]
    rfl

theorem executionStateIdentityOf_eq_ok {prefixId id : String} (ha : a.plain = true)
    (h : executionStateIdentityOf sha256 prefixId a = .ok id) :
    id = "es1:" ++ sha256 (stableStringifyValue (executionState prefixId (inKeyOrder a))) := by
  have haccepted : canonExecutionAttachmentSchema a = true := by
    rw [executionStateIdentityOf] at h
    obtain ⟨_, -, h⟩ := bind_eq_ok.1 h
    obtain ⟨text, htext, -⟩ := bind_eq_ok.1 h
    obtain ⟨_, hparse, -⟩ := map_eq_ok.1 htext
    exact (parseWithContract_eq_ok.1 hparse).1
  rw [executionStateIdentityOf_accepted prefixId ha haccepted] at h
  obtain ⟨_, -, hid⟩ := map_eq_ok.1 h
  exact hid.symm

theorem plain_executionState (h : a.plain = true) : (executionState prefixId a).plain = true := by
  refine plain_object.2 ⟨by simp, ?_⟩
  simp only [List.forall_mem_cons]
  exact ⟨rfl, rfl, h, nofun⟩

theorem executionStateIdentityOf_determines (hsha256 : Function.Injective sha256) {p q id : String}
    (ha : a.plain = true) (hb : b.plain = true) (h : executionStateIdentityOf sha256 p a = .ok id)
    (h' : executionStateIdentityOf sha256 q b = .ok id) : p = q ∧ Rekeyed a b := by
  have ha' := plain_executionState p (plain_inKeyOrder ha)
  have hb' := plain_executionState q (plain_inKeyOrder hb)
  have hid := (executionStateIdentityOf_eq_ok ha h).symm.trans (executionStateIdentityOf_eq_ok hb h')
  have htext := hsha256 ((String.append_right_inj "es1:").1 hid)
  rw [stableStringifyValue_eq_iff ha' hb', rekeyed_iff ha' hb', executionState, executionState,
    inKeyOrder_object_iff (by simp) (by simp)] at htext
  simp only [List.map_cons, List.map_nil, List.cons.injEq, and_true, true_and,
    inKeyOrder_inKeyOrder ha, inKeyOrder_inKeyOrder hb] at htext
  refine ⟨?_, (rekeyed_iff ha hb).2 htext.2⟩
  have hstring : JsonValue.string p = JsonValue.string q := htext.1
  exact JsonValue.string.inj hstring

end Identities

section Documents

theorem eq_of_oneOf {text : String} {v : JsonValue} (h : oneOf [text] v = true) :
    v = .string text := by
  cases v with
  | string text' => rw [List.mem_singleton.1 (of_decide_eq_true h)]
  | _ => cases h

theorem eq_of_literalNumber {literal : String} {v : JsonValue}
    (h : literalNumber literal v = true) : v = .number literal := by
  cases v with
  | number literal' => rw [of_decide_eq_true h]
  | _ => cases h

variable {sha256 : String → String} {v d : JsonValue}

theorem canonicalCanonDocumentText_accepted (hplain : d.plain = true)
    (h : canonDocumentSchema d = true) : ∃ rendered, rendered.plain = true ∧
      canonicalCanonDocumentText d = .ok (stableStringifyValue rendered) ∧
      inKeyOrder rendered = inKeyOrder (atProperty "prefix" sortedPrefix d) := by
  have hfirst := accepted_required h (mem_fields 2 rfl)
  have hattachment := (accepted_required h (mem_fields 3 rfl)).2
  have hvalid := Valid.of_accepted (plain_member hplain "prefix") hfirst.2
  have hplaina := plain_member hplain "executionAttachment"
  let rendered : JsonValue := .object [("contractId", .string canonContractId),
    ("schemaVersion", .number canonSchemaVersion), ("prefix", canonicalPrefix (member d "prefix")),
    ("executionAttachment", inKeyOrder (member d "executionAttachment"))]
  have htext : canonicalCanonDocumentText d = .ok (stableStringifyValue rendered) := by
    rw [canonicalCanonDocumentText, parseCanonDocument, parseWithContract_eq_ok.2 ⟨h, rfl⟩]
    change ((canonicalizeCanonPrefix (member d "prefix")) >>= _) = _
    rw [canonicalizeCanonPrefix, parseCanonPrefix, parseWithContract_eq_ok.2 ⟨hfirst.2, rfl⟩]
    change ((canonicalCanonExecutionAttachmentText (member d "executionAttachment")) >>= _) = _
    rw [canonicalCanonExecutionAttachmentText, parseCanonExecutionAttachment,
      parseWithContract_eq_ok.2 ⟨hattachment, rfl⟩]
    change (parseJson (stableStringifyValue (member d "executionAttachment")) >>= _) = _
    rw [parseJson, jsonParse_stableStringifyValue hplaina]
    rfl
  have hsorted : (atProperty "prefix" sortedPrefix d).plain = true :=
    plain_atProperty hplain fun w => plain_sortedPrefix (v := w)
  have haccepted : canonDocumentSchema (atProperty "prefix" sortedPrefix d) = true :=
    object_atProperty_required h (mem_fields 2 rfl) (by decide) hvalid.sorted.accepted
  refine ⟨rendered, plain_object.2 ⟨by simp, ?_⟩, htext, ?_⟩
  · simp only [List.forall_mem_cons]
    exact ⟨rfl, by decide, hvalid.plain_canonicalPrefix, plain_inKeyOrder hplaina, nofun⟩
  · rw [inKeyOrder_rebuilt (by simp [required]) (by simp [required]) hsorted haccepted,
      inKeyOrder_object_iff (by simp [required]) (by simp)]
    simp only [List.map_cons, List.map_nil, required, List.cons.injEq, and_true]
    refine ⟨?_, ?_, ?_, ?_⟩
    · rw [member_atProperty_of_ne (by decide),
        eq_of_oneOf (accepted_required h (mem_fields 0 rfl)).2]
    · rw [member_atProperty_of_ne (by decide),
        eq_of_literalNumber (accepted_required h (mem_fields 1 rfl)).2]
    · rw [member_atProperty hfirst.1]
      exact hvalid.canonicalPrefix_rekeyed
    · rw [member_atProperty_of_ne (by decide)]
      exact inKeyOrder_inKeyOrder hplaina

theorem identitiesOf_rendered (hplain : d.plain = true) (h : canonDocumentSchema d = true) :
    ∃ text d', canonicalCanonDocumentText d = .ok text ∧ jsonParse text = some d' ∧
      identitiesOf sha256 d' = identitiesOf sha256 d := by
  obtain ⟨rendered, hrendered, htext, hkeys⟩ := canonicalCanonDocumentText_accepted hplain h
  refine ⟨_, _, htext, jsonParse_stableStringifyValue hrendered, ?_⟩
  rw [hkeys]
  have hfirst := accepted_required h (mem_fields 2 rfl)
  have hattachment := (accepted_required h (mem_fields 3 rfl)).2
  have hvalid := Valid.of_accepted (plain_member hplain "prefix") hfirst.2
  have hplaina := plain_member hplain "executionAttachment"
  have hsorted : (atProperty "prefix" sortedPrefix d).plain = true :=
    plain_atProperty hplain fun w => plain_sortedPrefix (v := w)
  have haccepted : canonDocumentSchema (atProperty "prefix" sortedPrefix d) = true :=
    object_atProperty_required h (mem_fields 2 rfl) (by decide) hvalid.sorted.accepted
  have haccepted' := keyOrderFree_canonDocumentSchema _ hsorted haccepted
  have hmember : member (inKeyOrder (atProperty "prefix" sortedPrefix d)) "prefix" =
      inKeyOrder (sortedPrefix (member d "prefix")) := by
    rw [member_inKeyOrder hsorted, member_atProperty hfirst.1]
  have hmembera : member (inKeyOrder (atProperty "prefix" sortedPrefix d)) "executionAttachment" =
      inKeyOrder (member d "executionAttachment") := by
    rw [member_inKeyOrder hsorted, member_atProperty_of_ne (by decide)]
  have hvalid' : Valid (inKeyOrder (sortedPrefix (member d "prefix"))) :=
    Valid.of_accepted (plain_inKeyOrder hvalid.sorted.plain)
      (keyOrderFree_canonPrefixSchema _ hvalid.sorted.plain hvalid.sorted.accepted)
  have hreordered : Reordered (member d "prefix") (inKeyOrder (sortedPrefix (member d "prefix"))) := by
    refine ⟨_, _, _, sortBy_perm stableStringifyValue _, sortBy_perm stableStringifyValue _,
      sortBy_perm stableStringifyValue _, ?_⟩
    exact (rekeyed_iff hvalid.sorted.plain hvalid'.plain).2
      (inKeyOrder_inKeyOrder hvalid.sorted.plain).symm
  have hsame := (prefixText_iff hvalid hvalid').2 hreordered
  have hattachment' := (accepted_required haccepted' (mem_fields 3 rfl)).2
  rw [hmembera] at hattachment'
  have hstate : ∀ p, executionStateIdentityOf sha256 p (inKeyOrder (member d "executionAttachment")) =
      executionStateIdentityOf sha256 p (member d "executionAttachment") := by
    intro p
    rw [executionStateIdentityOf_accepted p (plain_inKeyOrder hplaina) hattachment',
      executionStateIdentityOf_accepted p hplaina hattachment, inKeyOrder_inKeyOrder hplaina]
  rw [identitiesOf, identitiesOf, parseCanonDocument, parseCanonDocument,
    parseWithContract_eq_ok.2 ⟨h, rfl⟩, parseWithContract_eq_ok.2 ⟨haccepted', rfl⟩]
  change (prefixIdentityOf sha256 (member _ "prefix") >>= _) =
    (prefixIdentityOf sha256 (member d "prefix") >>= _)
  rw [hmember, prefixIdentityOf_valid hvalid', prefixIdentityOf_valid hvalid, ← hsame]
  simp only [hmembera, hstate]

theorem identitiesOf_accepted (hplain : d.plain = true) (h : canonDocumentSchema d = true)
    (hdigest : isHexSha256 (sha256 (prefixText (member d "prefix"))).toList = true) :
    ∃ ids, identitiesOf sha256 d = .ok ids := by
  have hfirst := accepted_required h (mem_fields 2 rfl)
  have hattachment := (accepted_required h (mem_fields 3 rfl)).2
  have hvalid := Valid.of_accepted (plain_member hplain "prefix") hfirst.2
  have hfirstId : isPrefixId ("cp1:" ++ sha256 (prefixText (member d "prefix"))) = true := by
    rw [isPrefixId, String.toList_append, Bool.and_eq_true]
    exact ⟨rfl, hdigest⟩
  rw [identitiesOf, parseCanonDocument, parseWithContract_eq_ok.2 ⟨h, rfl⟩]
  change ∃ ids, (prefixIdentityOf sha256 (member d "prefix") >>= _) = .ok ids
  rw [prefixIdentityOf_valid hvalid]
  change ∃ ids, (executionStateIdentityOf sha256 _ (member d "executionAttachment") >>= _) = .ok ids
  rw [executionStateIdentityOf_accepted _ (plain_member hplain _) hattachment,
    (require_eq_ok (u := ())).2 hfirstId]
  exact ⟨_, rfl⟩

/-- The prefix of a document alone decides on its `prefix_id`. -/
theorem identitiesOf_prefix_id {ids : CanonIdentities} (h : identitiesOf sha256 d = .ok ids) :
    prefixIdentityOf sha256 (member d "prefix") = .ok ids.prefix_id ∧
      executionStateIdentityOf sha256 ids.prefix_id (member d "executionAttachment") =
        .ok ids.execution_state_id := by
  rw [identitiesOf] at h
  obtain ⟨parsed, hparsed, hidentities⟩ := bind_eq_ok.1 h
  obtain ⟨-, rfl⟩ := parseWithContract_eq_ok.1 hparsed
  obtain ⟨prefix_id, hfirst, hrest⟩ := bind_eq_ok.1 hidentities
  obtain ⟨state_id, hstate, hids⟩ := bind_eq_ok.1 hrest
  cases hids
  exact ⟨hfirst, hstate⟩

end Documents

section Canonical

structure IdentifiesCanons (sha256 : String → String) : Prop where
  prefixes : ∀ v w : JsonValue, v.plain = true → w.plain = true → parseCanonPrefix v = .ok v →
    parseCanonPrefix w = .ok w →
      (prefixIdentityOf sha256 v = prefixIdentityOf sha256 w ↔ Reordered v w)
  attachments : ∀ (d d' : JsonValue) (ids ids' : CanonIdentities),
    identitiesOf sha256 d = .ok ids → identitiesOf sha256 d' = .ok ids' →
      member d "prefix" = member d' "prefix" → ids.prefix_id = ids'.prefix_id
  states : ∀ (d d' : JsonValue) (ids ids' : CanonIdentities), d.plain = true → d'.plain = true →
    identitiesOf sha256 d = .ok ids → identitiesOf sha256 d' = .ok ids' →
      ids.execution_state_id = ids'.execution_state_id → ids.prefix_id = ids'.prefix_id ∧
        Rekeyed (member d "executionAttachment") (member d' "executionAttachment")
  documents : ∀ d : JsonValue, d.plain = true → parseCanonDocument d = .ok d →
    isHexSha256 (sha256 (prefixText (member d "prefix"))).toList = true → ∃ ids text d',
      identitiesOf sha256 d = .ok ids ∧ canonicalCanonDocumentText d = .ok text ∧
        jsonParse text = some d' ∧ identitiesOf sha256 d' = .ok ids

theorem canonIdentities_canonical {sha256 : String → String} (h : Function.Injective sha256) :
    IdentifiesCanons sha256 := by
  refine ⟨fun v w hv hw hparsev hparsew => ?_, fun d d' ids ids' hids hids' hfirst => ?_,
    fun d d' ids ids' hd hd' hids hids' hsame => ?_, fun d hd hparse hdigest => ?_⟩
  · have hvalid := Valid.of_accepted hv (parseWithContract_eq_ok.1 hparsev).1
    have hvalid' := Valid.of_accepted hw (parseWithContract_eq_ok.1 hparsew).1
    rw [prefixIdentityOf_valid hvalid, prefixIdentityOf_valid hvalid', Except.ok.injEq,
      String.append_right_inj, h.eq_iff, prefixText_iff hvalid hvalid']
  · have hid := (identitiesOf_prefix_id hids).1
    rw [hfirst, (identitiesOf_prefix_id hids').1] at hid
    exact (Except.ok.inj hid).symm
  · have hstate := (identitiesOf_prefix_id hids).2
    rw [hsame] at hstate
    exact executionStateIdentityOf_determines h (plain_member hd _) (plain_member hd' _) hstate
      (identitiesOf_prefix_id hids').2
  · have haccepted := (parseWithContract_eq_ok.1 hparse).1
    obtain ⟨ids, hids⟩ := identitiesOf_accepted hd haccepted hdigest
    obtain ⟨text, d', htext, hd', hsame⟩ := identitiesOf_rendered hd haccepted
    exact ⟨ids, text, d', hids, htext, hd', hsame.trans hids⟩

def exampleContract (id : String) : JsonValue :=
  .object [("contractId", .string id), ("schemaVersion", .number "1")]

def exampleEntry (id title : String) : JsonValue := .object [("contentId", .string id),
  ("value", .object [("title", .string title), ("labels", .array [.string "b", .string "a"])]),
  ("provenance", .object [("source", .string "gh-inari"), ("reference", .string "issue:1"),
    ("supplied", .boolean false)])]

def exampleDocument : JsonValue := .object [("contractId", .string "mottainai.execution-canon.v1"),
  ("schemaVersion", .number "1"),
  ("prefix", .object [
    ("c0", .object [("runtimeContract", exampleContract "mottainai.runtime.v1"),
      ("projectContract", exampleContract "mottainai.project.v1"),
      ("runtimeInstructions", .array [
        .object [("instructionId", .string "b"), ("provenance", .string "already-supplied")],
        .object [("instructionId", .string "a"), ("provenance", .string "required"),
          ("body", .string "Apply the runtime contract.")]])]),
    ("c1", .object [("repository", .object [("repositoryId", .string "github:mottainai"),
        ("sourceRevision", .string "source-commit-1"), ("baseRevision", .string "base-commit-1")]),
      ("packageFacts", .object [("typescript", .object [("version", .string "5.8.3")])]),
      ("workspaceFacts", .object [("layout", .string "single-package")])]),
    ("c2", .array [exampleEntry "task-2" "second", exampleEntry "task-1" "first"]),
    ("c3", .array [])]),
  ("executionAttachment", .object [("generation", .number "1"), ("sessionId", .string "session-1")])]

theorem canonIdentities_canonical_example : ∃ ids text d',
    identitiesOf (tabulated (prefixText (member exampleDocument "prefix"))
      "21e88d30ddfb0886578105c29d778ab8c90c93447673309edee017241e4a883e") exampleDocument =
        .ok ids ∧ canonicalCanonDocumentText exampleDocument = .ok text ∧ jsonParse text = some d' ∧
      identitiesOf (tabulated (prefixText (member exampleDocument "prefix"))
        "21e88d30ddfb0886578105c29d778ab8c90c93447673309edee017241e4a883e") d' = .ok ids := by
  refine (canonIdentities_canonical (tabulated_injective _ (by decide))).documents exampleDocument
    (by decide) (parseWithContract_eq_ok.2 ⟨by decide, rfl⟩) ?_
  rw [tabulated, if_pos rfl]
  decide

end Canonical

end Mottainai.CanonIdentity

import Mathlib.Tactic.IntervalCases
import Mottainai.ResponseBudget

/-!
# When the hard limit holds

The ladder of candidates ends with a least envelope, whose parts are bounded one by one and by the
bytes of their texts. The limit holds when this envelope fits, or the one without the identifier,
and for every result that comes from `projectResult` only then.
-/

namespace Mottainai.ContextRuntime

open JavaScriptValues JsonValues

section Strings

/-- The candidate of `compactString` with a number of characters. -/
def prefixCandidate (characters : List Char) (n : ℕ) : String :=
  String.ofList (characters.take n) ++ marker

theorem byteLength_marker : byteLength marker = 3 := by decide

variable (characters : List Char) (text : String)

theorem byteLength_prefixCandidate (n : ℕ) :
    byteLength (prefixCandidate characters n) =
      byteLength (String.ofList (characters.take n)) + 3 := by
  rw [prefixCandidate, byteLength_append, byteLength_marker]

theorem byteLength_take_le {n m : ℕ} (h : n ≤ m) :
    byteLength (String.ofList (characters.take n)) ≤
      byteLength (String.ofList (characters.take m)) := by
  rw [byteLength_ofList, byteLength_ofList]
  exact ((List.take_sublist_take_left h).map _).sum_le_sum fun _ _ => Nat.zero_le _

theorem escapedBytes_take_le {n m : ℕ} (h : n ≤ m) :
    escapedBytes (characters.take n) ≤ escapedBytes (characters.take m) :=
  ((List.take_sublist_take_left h).map _).sum_le_sum fun _ _ => Nat.zero_le _

/-- The search finds the longest candidate that fits, when the empty one does. -/
theorem longestPrefix_eq {characters : List Char} {maxBytes : ℕ} {low high : ℤ} {best : String}
    (hmarker : 3 ≤ maxBytes) (hlow : 0 ≤ low) (hrange : low ≤ high + 1)
    (hbest : low = 0 ∨ ∃ n : ℕ, low = n + 1 ∧ best = prefixCandidate characters n ∧
      byteLength (prefixCandidate characters n) ≤ maxBytes)
    (habove : ∀ n : ℕ, high < n → n ≤ characters.length →
      maxBytes < byteLength (prefixCandidate characters n)) :
    ∃ n, longestPrefix characters maxBytes low high best = prefixCandidate characters n ∧
      byteLength (prefixCandidate characters n) ≤ maxBytes ∧
      ∀ m ≤ characters.length, n < m → maxBytes < byteLength (prefixCandidate characters m) := by
  fun_induction longestPrefix characters maxBytes low high best with
  | case1 low high best hle middle candidate hfits ih =>
    have hmiddle : middle = (low + high) / 2 := rfl
    apply ih (by omega) (by omega) ?_ habove
    exact .inr ⟨middle.toNat, by omega, rfl, hfits⟩
  | case2 low high best hle middle candidate hfits ih =>
    have hmiddle : middle = (low + high) / 2 := rfl
    apply ih hlow (by omega) hbest
    intro n hn hlength
    have hcandidate : byteLength candidate ≤ byteLength (prefixCandidate characters n) := by
      rw [byteLength_prefixCandidate]
      have hcut := byteLength_take_le characters (n := middle.toNat) (m := n) (by omega)
      have hsize := byteLength_prefixCandidate characters middle.toNat
      change byteLength (prefixCandidate characters middle.toNat) ≤ _
      omega
    omega
  | case3 low high best hle =>
    rcases hbest with hzero | ⟨n, hn, rfl, hfits⟩
    · have hnone := habove 0 (by omega) (Nat.zero_le _)
      rw [byteLength_prefixCandidate] at hnone
      have hempty : byteLength (String.ofList (characters.take 0)) = 0 := by
        rw [List.take_zero]
        rfl
      omega
    · refine ⟨n, rfl, hfits, ?_⟩
      intro m hm hlt
      exact habove m (by omega) hm

variable {maxBytes : ℕ}

/-- What `compactString` does with a text, for a bound that leaves room for the marker. -/
theorem compactString_cases (h : 3 < maxBytes) :
    (byteLength text ≤ maxBytes ∧ compactString text maxBytes = text) ∨
    (maxBytes < byteLength text ∧ ∃ n,
      compactString text maxBytes = prefixCandidate text.toList n ∧
      byteLength (prefixCandidate text.toList n) ≤ maxBytes ∧
      ∀ m ≤ text.toList.length, n < m →
        maxBytes < byteLength (prefixCandidate text.toList m)) := by
  unfold compactString
  rw [if_neg (by omega)]
  by_cases hfits : byteLength text ≤ maxBytes
  · rw [if_pos hfits]
    exact .inl ⟨hfits, rfl⟩
  · rw [if_neg hfits, if_neg (by rw [byteLength_marker]; omega)]
    refine .inr ⟨by omega, ?_⟩
    obtain ⟨n, hcut, hbound, hlongest⟩ := @longestPrefix_eq text.toList maxBytes 0
      text.toList.length "" (by omega) le_rfl (by omega) (.inl rfl) (by
        intro m hm hlength
        omega)
    have hne : prefixCandidate text.toList n ≠ "" := by
      intro hempty
      have hlength := byteLength_prefixCandidate text.toList n
      rw [hempty] at hlength
      have hzero : byteLength "" = 0 := rfl
      omega
    simp only [hcut, if_neg hne]
    exact ⟨n, rfl, hbound, hlongest⟩

theorem escapedBytes_prefixCandidate (n : ℕ) :
    escapedBytes (prefixCandidate characters n).toList = escapedBytes (characters.take n) + 3 := by
  have hmarker : escapedBytes marker.toList = 3 := by decide
  rw [prefixCandidate, String.toList_append, String.toList_ofList, escapedBytes_append, hmarker]

theorem escapedBytes_prefixCandidate_le {text : String} {maxBytes n : ℕ}
    (hlong : maxBytes < byteLength text)
    (hfits : byteLength (prefixCandidate text.toList n) ≤ maxBytes) :
    escapedBytes (prefixCandidate text.toList n).toList ≤ escapedBytes text.toList := by
  have hrest := byteLength_le_escapedBytes (text.toList.drop n)
  have hsplit : byteLength text = byteLength (String.ofList (text.toList.take n)) +
      byteLength (String.ofList (text.toList.drop n)) := by
    rw [← byteLength_append, ← String.ofList_append, List.take_append_drop, String.ofList_toList]
  have hescaped : escapedBytes text.toList = escapedBytes (text.toList.take n) +
      escapedBytes (text.toList.drop n) := by
    rw [← escapedBytes_append, List.take_append_drop]
  rw [byteLength_prefixCandidate] at hfits
  rw [escapedBytes_prefixCandidate]
  omega

theorem escapedBytes_compactString_le (h : 3 < maxBytes) :
    escapedBytes (compactString text maxBytes).toList ≤ escapedBytes text.toList := by
  rcases compactString_cases text h with ⟨_, heq⟩ | ⟨hlong, n, heq, hfits, _⟩
  · rw [heq]
  · rw [heq]
    exact escapedBytes_prefixCandidate_le hlong hfits

theorem escapedBytes_compactString_mono {small large : ℕ} (h : 3 < small) (hle : small ≤ large) :
    escapedBytes (compactString text small).toList ≤
      escapedBytes (compactString text large).toList := by
  rcases compactString_cases text (by omega : 3 < large) with ⟨_, hlarge⟩ | ⟨hlong, n, hlarge, _, hn⟩
  · rw [hlarge]
    exact escapedBytes_compactString_le text h
  · rcases compactString_cases text h with ⟨hfits, _⟩ | ⟨_, m, hsmall, hm, _⟩
    · omega
    · rw [hlarge, hsmall, escapedBytes_prefixCandidate, escapedBytes_prefixCandidate]
      have hcut : escapedBytes (text.toList.take m) ≤ escapedBytes (text.toList.take n) := by
        by_cases hmn : m ≤ n
        · exact escapedBytes_take_le text.toList hmn
        · by_cases hlength : m ≤ text.toList.length
          · have hover := hn m hlength (by omega)
            omega
          · -- a candidate of all characters is one of exactly their number
            have hall : text.toList.take m = text.toList.take text.toList.length := by
              rw [List.take_of_length_le (by omega), List.take_length]
            by_cases hnlength : text.toList.length ≤ n
            · rw [hall]
              exact escapedBytes_take_le text.toList hnlength
            · have hover := hn text.toList.length le_rfl (by omega)
              rw [prefixCandidate, hall] at hm
              rw [prefixCandidate] at hover
              omega
      omega

end Strings

section Objects

/-- What `copyKeys` has put into an object: keys that differ, each with a value of the source. -/
theorem copyKeys_covered (compact : String → JsonValue → JsonValue) (source : Properties)
    (keys : List String) : ((copyKeys compact source keys).map (·.1)).Nodup ∧
      ∀ e ∈ copyKeys compact source keys,
        ∃ value, property source e.1 = some value ∧ e.2 = compact e.1 value := by
  have hempty : (([] : Properties).map (·.1)).Nodup ∧ ∀ e ∈ ([] : Properties),
      ∃ value, property source e.1 = some value ∧ e.2 = compact e.1 value :=
    ⟨List.nodup_nil, fun e he => absurd he List.not_mem_nil⟩
  refine List.foldlRecOn (motive := fun result : Properties => (result.map (·.1)).Nodup ∧
    ∀ e ∈ result, ∃ value, property source e.1 = some value ∧ e.2 = compact e.1 value)
    keys _ hempty ?_
  intro result hresult key _
  cases hvalue : property source key with
  | none => exact hresult
  | some value =>
    refine ⟨nodup_assign hresult.1 key _, ?_⟩
    intro e he
    rcases mem_assign he with rfl | he
    · exact ⟨value, hvalue, rfl⟩
    · exact hresult.2 e he

theorem propertiesBytes_copyKeys_le {compact : String → JsonValue → JsonValue}
    {source larger : Properties} (keys : List String)
    (h : ∀ key value, (key, value) ∈ source →
      ∃ value', (key, value') ∈ larger ∧ bytes (compact key value) ≤ bytes value') :
    propertiesBytes (copyKeys compact source keys) ≤ propertiesBytes larger := by
  obtain ⟨hnodup, hmem⟩ := copyKeys_covered compact source keys
  apply propertiesBytes_le_of_covered hnodup
  intro e he
  obtain ⟨value, hvalue, heq⟩ := hmem e he
  rw [heq]
  exact h e.1 value (property_eq_some hvalue)

end Objects

section Values

theorem bytes_array_le {elements elements' : List JsonValue}
    (h : elementsBytes elements ≤ elementsBytes elements') :
    bytes (.array elements) ≤ bytes (.array elements') := by
  rw [bytes_array, bytes_array]
  omega

theorem bytes_object_le {properties properties' : Properties}
    (h : propertiesBytes properties ≤ propertiesBytes properties') :
    bytes (.object properties) ≤ bytes (.object properties') := by
  rw [bytes_object, bytes_object]
  omega

theorem lt_childBytes (maxBytes : ℕ) : 3 < childBytes maxBytes := by
  unfold childBytes
  omega

mutual

theorem bytes_compactValue_le {maxBytes : ℕ} (h : 3 < maxBytes) :
    (value : JsonValue) → bytes (compactValue maxBytes value) ≤ bytes value
  | .null => by rw [compactValue]
  | .boolean _ => by rw [compactValue]
  | .number _ => by rw [compactValue]
  | .string text => by
    rw [compactValue, bytes_string, bytes_string]
    exact Nat.add_le_add_right (escapedBytes_compactString_le text h) 2
  | .array elements => by
    rw [compactValue]
    apply bytes_array_le
    exact (elementsBytes_le_of_sublist (List.take_sublist _ _)).trans
      (elementsBytes_compactElements_le (lt_childBytes maxBytes) elements)
  | .object properties => by
    rw [compactValue]
    apply bytes_object_le
    apply propertiesBytes_copyKeys_le
    intro key value hmem
    exact compactProperties_covered (lt_childBytes maxBytes) properties key value hmem

theorem elementsBytes_compactElements_le {maxBytes : ℕ} (h : 3 < maxBytes) :
    (elements : List JsonValue) →
      elementsBytes (compactElements maxBytes elements) ≤ elementsBytes elements
  | [] => by rw [compactElements]
  | value :: values => by
    have hvalue := bytes_compactValue_le h value
    have hvalues := elementsBytes_compactElements_le h values
    rw [compactElements]
    simp only [elementsBytes, List.map_cons, List.sum_cons] at hvalues ⊢
    omega

theorem compactProperties_covered {maxBytes : ℕ} (h : 3 < maxBytes) :
    (properties : Properties) → ∀ key value, (key, value) ∈ compactProperties maxBytes properties →
      ∃ value', (key, value') ∈ properties ∧ bytes value ≤ bytes value'
  | [] => by
    intro key value hmem
    rw [compactProperties] at hmem
    cases hmem
  | (key', value') :: properties => by
    intro key value hmem
    rw [compactProperties] at hmem
    rcases List.mem_cons.mp hmem with heq | hmem
    · cases heq
      exact ⟨value', List.mem_cons_self, bytes_compactValue_le h value'⟩
    · obtain ⟨value'', hmem', hle⟩ := compactProperties_covered h properties key value hmem
      exact ⟨value'', List.mem_cons_of_mem _ hmem', hle⟩

end

theorem bytes_compactDiagnostic_le (value : JsonValue) :
    bytes (compactDiagnostic value) ≤ bytes value := by
  unfold compactDiagnostic
  cases hrecord : record? value with
  | none => exact bytes_compactValue_le (by decide) value
  | some properties =>
    have hvalue : value = .object properties := by
      cases value with
      | object properties' =>
        cases hrecord
        rfl
      | _ => cases hrecord
    simp only
    split_ifs
    · exact bytes_compactValue_le (by decide) value
    · rw [hvalue]
      apply bytes_object_le
      apply propertiesBytes_copyKeys_le
      intro key value' hmem
      refine ⟨value', hmem, bytes_compactValue_le ?_ value'⟩
      split_ifs <;> decide

theorem elementsBytes_compactDiagnostics_le (locale : Locale) (diagnostics : List JsonValue) :
    elementsBytes (compactDiagnostics locale diagnostics) ≤ elementsBytes diagnostics := by
  unfold compactDiagnostics
  simp only
  refine (elementsBytes_map_le bytes_compactDiagnostic_le _).trans ?_
  refine (elementsBytes_le_of_sublist (List.take_sublist _ _)).trans ?_
  split_ifs
  · exact le_rfl
  · exact elementsBytes_le_of_sublist List.filter_sublist

end Values

section Serialized

/-- The fields have keys of their own, and none of the envelope, as `projectResult` makes them. -/
structure WellKeyed (result : ProjectedResult) : Prop where
  distinct : (result.fields.map (·.key)).Nodup
  outside : ∀ field ∈ result.fields, field.key ∉ requiredFields

theorem WellKeyed.of_sublist {result reduced : ProjectedResult} (h : WellKeyed result)
    (hsub : (reduced.fields.map (·.key)).Sublist (result.fields.map (·.key))) :
    WellKeyed reduced where
  distinct := h.distinct.sublist hsub
  outside := by
    intro field hfield
    obtain ⟨field', hfield', hkey⟩ :=
      List.mem_map.mp (hsub.subset (List.mem_map_of_mem (f := (·.key)) hfield))
    rw [← hkey]
    exact h.outside field' hfield'

def fieldBytes (field : ProjectedField) : ℕ :=
  if field.key = "__proto__" then 0 else entryBytes (field.key, field.value)

def fieldsBytes (fields : List ProjectedField) : ℕ := (fields.map fieldBytes).sum

theorem fieldsBytes_le_of_sublist {fields fields' : List ProjectedField}
    (h : fields.Sublist fields') : fieldsBytes fields ≤ fieldsBytes fields' :=
  (h.map fieldBytes).sum_le_sum fun _ _ => Nat.zero_le _

def envelopeKeys : List String :=
  ["operation", "status", "summary", "facts", "diagnostics", "metrics", "result_id", "truncated",
    "test_results", "identity"]

variable {least result : ProjectedResult} {fields : List ProjectedField} {properties : Properties}
variable {e : String × JsonValue}

theorem key_envelope {result : ProjectedResult} (h : e ∈ envelope result) : e.1 ∈ envelopeKeys := by
  have hkey : e.1 ∈ (envelope result).map (·.1) := List.mem_map_of_mem h
  have hsub : (envelope result).map (·.1) ⊆ envelopeKeys := by
    unfold envelope optionalProperty
    cases result.testResults <;> cases result.identity <;>
      simp only [Option.map_none, Option.map_some, Option.toList_none, Option.toList_some,
        List.append_nil, List.cons_append, List.nil_append, List.map_cons, List.map_nil] <;>
      decide
  exact hsub hkey

theorem propertiesBytes_foldl_assign (hdistinct : (fields.map (·.key)).Nodup)
    (hnew : ∀ field ∈ fields, ∀ e ∈ properties, e.1 ≠ field.key) :
    propertiesBytes (fields.foldl
        (fun content field => assign content field.key field.value) properties) =
      propertiesBytes properties + fieldsBytes fields := by
  induction fields generalizing properties with
  | nil => rfl
  | cons field fields ih =>
    rw [List.map_cons, List.nodup_cons] at hdistinct
    rw [List.foldl_cons, ih hdistinct.2, propertiesBytes_assign (hnew field List.mem_cons_self)]
    · simp only [fieldsBytes, fieldBytes, List.map_cons, List.sum_cons]
      omega
    · intro field' hfield' e he
      rcases mem_assign he with rfl | he
      · intro heq
        have hmem : field'.key ∈ fields.map (·.key) := List.mem_map_of_mem hfield'
        rw [← heq] at hmem
        exact hdistinct.1 hmem
      · exact hnew field' (List.mem_cons_of_mem _ hfield') e he

theorem key_mem_foldl_assign
    (h : e ∈ fields.foldl (fun content field => assign content field.key field.value) properties) :
    e ∈ properties ∨ ∃ field ∈ fields, e.1 = field.key := by
  induction fields generalizing properties with
  | nil => exact .inl h
  | cons field fields ih =>
    rw [List.foldl_cons] at h
    rcases ih h with h | ⟨field', hfield', hkey⟩
    · rcases mem_assign h with rfl | h
      · exact .inr ⟨field, List.mem_cons_self, rfl⟩
      · exact .inl h
    · exact .inr ⟨field', List.mem_cons_of_mem _ hfield', hkey⟩

variable (locale : Locale)

theorem propertiesBytes_structuredContent {result : ProjectedResult} (h : WellKeyed result) :
    propertiesBytes (serializedStructuredContent locale result) =
      propertiesBytes (envelope result) + fieldsBytes result.fields +
        entryBytes ("projection", projectionMetadata result.omissions) := by
  have hperm : (sortFields locale result.fields).Perm result.fields := List.perm_insertionSort _ _
  have hsum : fieldsBytes (sortFields locale result.fields) = fieldsBytes result.fields :=
    (hperm.map fieldBytes).sum_eq
  have hdistinct : ((sortFields locale result.fields).map (·.key)).Nodup :=
    ((hperm.map _).nodup_iff).mpr h.distinct
  unfold serializedStructuredContent
  rw [propertiesBytes_assign, propertiesBytes_foldl_assign hdistinct, hsum, if_neg (by decide)]
  · intro field hfield e he heq
    have hrequired : envelopeKeys ⊆ requiredFields := by decide
    apply h.outside field (hperm.mem_iff.mp hfield)
    rw [← heq]
    exact hrequired (key_envelope he)
  · intro e he heq
    rcases key_mem_foldl_assign he with he | ⟨field, hfield, hkey⟩
    · have hkey := key_envelope he
      rw [heq] at hkey
      revert hkey
      decide
    · apply h.outside field (hperm.mem_iff.mp hfield)
      rw [← hkey, heq]
      decide

/-- A bare result whose parts are no larger than those of another one. -/
structure Under (least result : ProjectedResult) : Prop where
  operation : escapedBytes least.operation.toList ≤ escapedBytes result.operation.toList
  status : escapedBytes least.status.toList ≤ escapedBytes result.status.toList
  summary : least.summary = ""
  facts : least.facts = []
  diagnostics : elementsBytes least.diagnostics ≤ elementsBytes result.diagnostics
  metrics : least.metrics = []
  testResults : least.testResults = none
  resultId : escapedBytes least.resultId.toList ≤ escapedBytes result.resultId.toList
  truncated : least.truncated = true
  fields : fieldsBytes least.fields ≤ fieldsBytes result.fields
  omissions : elementsBytes (least.omissions.map Omission.json) ≤
    elementsBytes (result.omissions.map Omission.json)
  content : least.content = []
  identity : least.identity = none
  isError : least.isError = result.isError
  metadata : least.metadata = none

theorem bytes_true_le (value : Bool) : bytes (.boolean true) ≤ bytes (.boolean value) := by
  revert value
  decide

theorem bytes_empty_le (elements : List JsonValue) : bytes (.array []) ≤ bytes (.array elements) :=
  bytes_array_le (Nat.zero_le _)

theorem Under.envelope_le (h : Under least result) :
    propertiesBytes (envelope least) ≤ propertiesBytes (envelope result) := by
  have hsummary : escapedBytes "".toList ≤ escapedBytes result.summary.toList := Nat.zero_le _
  have hfacts := bytes_empty_le result.facts
  have hmetrics : bytes (.object []) ≤ bytes (.object result.metrics) :=
    bytes_object_le (Nat.zero_le _)
  have htruncated := bytes_true_le (result.truncated || !result.omissions.isEmpty)
  have hdiagnostics := bytes_array_le h.diagnostics
  have hoperation := h.operation
  have hstatus := h.status
  have hresultId := h.resultId
  simp only [envelope, h.summary, h.facts, h.metrics, h.testResults, h.truncated, h.identity,
    Bool.true_or, optionalProperty, Option.map_none, Option.toList_none, List.append_nil,
    propertiesBytes_append]
  simp only [propertiesBytes, List.map_cons, List.map_nil, List.sum_cons, List.sum_nil, entryBytes,
    bytes_string]
  omega

theorem Under.projection_le (h : Under least result) :
    entryBytes ("projection", projectionMetadata least.omissions) ≤
      entryBytes ("projection", projectionMetadata result.omissions) := by
  have homissions := bytes_array_le h.omissions
  have hproperties : propertiesBytes [("version", .number "1"),
        ("omissions", .array (least.omissions.map Omission.json))] ≤
      propertiesBytes [("version", .number "1"),
        ("omissions", .array (result.omissions.map Omission.json))] := by
    simp only [propertiesBytes, List.map_cons, List.map_nil, List.sum_cons, List.sum_nil,
      entryBytes]
    omega
  have hmetadata := bytes_object_le hproperties
  simp only [entryBytes, projectionMetadata]
  omega

theorem Under.projectedBytes_le (h : Under least result) (hleast : WellKeyed least)
    (hresult : WellKeyed result) : projectedBytes locale least ≤ projectedBytes locale result := by
  have hstructured : propertiesBytes (serializedStructuredContent locale least) ≤
      propertiesBytes (serializedStructuredContent locale result) := by
    rw [propertiesBytes_structuredContent locale hleast,
      propertiesBytes_structuredContent locale hresult]
    have henvelope := h.envelope_le
    have hfields := h.fields
    have hprojection := h.projection_le
    omega
  have hcontent := bytes_empty_le result.content
  have hobject := bytes_object_le hstructured
  apply bytes_object_le
  simp only [h.content, h.isError, h.metadata, propertiesBytes_append, optionalProperty,
    Option.map_none, Option.toList_none]
  simp only [propertiesBytes, List.map_cons, List.map_nil, List.sum_cons, List.sum_nil, entryBytes]
  omega

end Serialized

section Least

variable (locale : Locale)

def boundedDiagnostics (diagnostics : List JsonValue) : List JsonValue :=
  if changed (.array (compactDiagnostics locale diagnostics)) (.array diagnostics) then
    compactDiagnostics locale diagnostics
  else diagnostics

def leastEnvelope (result : ProjectedResult) : ProjectedResult :=
  { operation := compactString result.operation 8
    status := compactString result.status 8
    summary := ""
    facts := []
    diagnostics :=
      (compactDiagnostics locale (boundedDiagnostics locale result.diagnostics)).take 2
    metrics := []
    testResults := none
    resultId := result.resultId
    truncated := true
    fields := (compactActionableFields result.fields).take 2
    omissions := []
    content := []
    identity := none
    isError := result.isError
    metadata := none }

def leastFallback (result : ProjectedResult) : ProjectedResult :=
  { leastEnvelope locale result with resultId := "", omissions := [droppedIdentifier] }

theorem diagnostics_leastFallback (result : ProjectedResult) :
    (leastFallback locale result).diagnostics = (leastEnvelope locale result).diagnostics := rfl

def LeastFits (result : ProjectedResult) (byteLimit : ℤ) : Prop :=
  fits locale (leastEnvelope locale result) byteLimit = true ∨
    fits locale (leastFallback locale result) byteLimit = true

end Least

section Diagnostics

variable {locale : Locale}
variable (result : ProjectedResult)

@[simp] theorem diagnostics_omitPart (field reason : String) :
    (omitPart result field reason).diagnostics = result.diagnostics := by
  unfold omitPart addOmission
  split_ifs <;> rfl

theorem diagnostics_dropFieldsByPriority (target : Priority) (result : ProjectedResult) :
    (dropFieldsByPriority target result).diagnostics = result.diagnostics := by
  unfold dropFieldsByPriority
  simp only
  split
  · rfl
  · rw [diagnostics_omitPart]

theorem diagnostics_of_mem {reduce : ProjectedResult → ProjectedResult}
    (h : reduce ∈ [dropMetadata, compactContent, dropFieldsByPriority .verbose,
      dropFieldsByPriority .excerpt, dropFieldsByPriority .metric] ++ protectedReducers)
    (result : ProjectedResult) : (reduce result).diagnostics = result.diagnostics := by
  simp only [protectedReducers, List.cons_append, List.nil_append, List.mem_cons,
    List.not_mem_nil, or_false] at h
  rcases h with rfl | rfl | rfl | rfl | rfl | rfl | rfl | rfl | rfl
  · unfold dropMetadata
    split_ifs
    · rfl
    · rw [diagnostics_omitPart]
  · unfold compactContent
    simp only
    split_ifs
    · rw [diagnostics_omitPart]
    · rfl
  · exact diagnostics_dropFieldsByPriority _ result
  · exact diagnostics_dropFieldsByPriority _ result
  · exact diagnostics_dropFieldsByPriority _ result
  · unfold dropMetrics
    split_ifs
    · rfl
    · rw [diagnostics_omitPart]
  · unfold dropTestResults
    split_ifs
    · rfl
    · rw [diagnostics_omitPart]
  · exact diagnostics_dropFieldsByPriority _ result
  · unfold compactSummary
    simp only
    split_ifs
    · rfl
    · rw [diagnostics_omitPart]

theorem diagnostics_compactStructuredParts :
    (compactStructuredParts locale result).diagnostics =
      boundedDiagnostics locale result.diagnostics := by
  have hidentity : (compactIdentityPart result).diagnostics = result.diagnostics := by
    unfold compactIdentityPart
    split
    · rfl
    · split_ifs <;> simp
  have hdiagnostics : ∀ result, (compactDiagnosticsPart locale result).diagnostics =
      boundedDiagnostics locale result.diagnostics := by
    intro result
    unfold compactDiagnosticsPart boundedDiagnostics
    simp only
    split_ifs <;> simp
  have hfacts : ∀ result, (compactFactsPart locale result).diagnostics = result.diagnostics := by
    intro result
    unfold compactFactsPart
    simp only
    split_ifs <;> simp
  have hmetrics : ∀ result, (compactMetricsPart locale result).diagnostics = result.diagnostics := by
    intro result
    unfold compactMetricsPart
    simp only
    split_ifs <;> simp
  have htests : ∀ result, (compactTestResultsPart result).diagnostics = result.diagnostics := by
    intro result
    unfold compactTestResultsPart
    split
    · rfl
    · split_ifs <;> simp
  have hexcerpts : ∀ result, (compactExcerptFields result).diagnostics = result.diagnostics := by
    intro result
    unfold compactExcerptFields
    split_ifs <;> simp
  rw [compactStructuredParts, hexcerpts, htests, hmetrics, hfacts, hdiagnostics, hidentity]

variable {target : ℤ}

theorem diagnostics_reduceUntil {steps : List (ProjectedResult → ProjectedResult)}
    (hsteps : ∀ reduce ∈ steps, ∀ result, (reduce result).diagnostics = result.diagnostics)
    (result : ProjectedResult) :
    (reduceUntil locale target steps result).diagnostics = result.diagnostics := by
  induction steps generalizing result with
  | nil => rfl
  | cons reduce steps ih =>
    unfold reduceUntil
    split_ifs
    · rfl
    · rw [ih fun step hstep => hsteps step (List.mem_cons_of_mem _ hstep)]
      exact hsteps reduce List.mem_cons_self result

theorem reduceUntil_of_fits {result : ProjectedResult} (h : fits locale result target = true)
    (steps : List (ProjectedResult → ProjectedResult)) :
    reduceUntil locale target steps result = result := by
  cases steps with
  | nil => rfl
  | cons reduce steps => rw [reduceUntil, if_pos h]

theorem reduceUntil_append (first second : List (ProjectedResult → ProjectedResult))
    (result : ProjectedResult) : reduceUntil locale target (first ++ second) result =
      reduceUntil locale target second (reduceUntil locale target first result) := by
  induction first generalizing result with
  | nil => rfl
  | cons reduce first ih =>
    rw [List.cons_append, reduceUntil, reduceUntil]
    split_ifs with hfits
    · rw [reduceUntil_of_fits hfits]
    · exact ih (reduce result)

theorem diagnostics_reduceTo (target : ℤ) (dropProtected : Bool) :
    (reduceTo locale result target dropProtected).diagnostics =
        boundedDiagnostics locale result.diagnostics ∨
      (reduceTo locale result target dropProtected).diagnostics = result.diagnostics ∧
        fits locale (reduceTo locale result target dropProtected) target = true := by
  have hfirst : ∀ result, (reduceUntil locale target [dropMetadata, compactContent,
      dropFieldsByPriority .verbose, dropFieldsByPriority .excerpt, dropFieldsByPriority .metric]
        result).diagnostics = result.diagnostics :=
    diagnostics_reduceUntil fun reduce h => diagnostics_of_mem (List.mem_append_left _ h)
  have hlast : ∀ result, (reduceUntil locale target
      (if dropProtected then protectedReducers else []) result).diagnostics =
        result.diagnostics := by
    apply diagnostics_reduceUntil
    intro reduce h
    cases dropProtected with
    | false => cases h
    | true => exact diagnostics_of_mem (List.mem_append_right _ h)
  have hsplit : reducers locale = [dropMetadata, compactContent, dropFieldsByPriority .verbose,
      dropFieldsByPriority .excerpt, dropFieldsByPriority .metric] ++
        [compactStructuredParts locale] := rfl
  unfold reduceTo
  rw [reduceUntil_append, hsplit, reduceUntil_append]
  have hmiddle := hfirst result
  generalize reduceUntil locale target [dropMetadata, compactContent,
    dropFieldsByPriority .verbose, dropFieldsByPriority .excerpt, dropFieldsByPriority .metric]
      result = middle at hmiddle ⊢
  by_cases hfits : fits locale middle target = true
  · rw [reduceUntil_of_fits hfits, reduceUntil_of_fits hfits]
    exact .inr ⟨hmiddle, hfits⟩
  · rw [hlast, reduceUntil, if_neg hfits, reduceUntil, diagnostics_compactStructuredParts, hmiddle]
    exact .inl rfl

theorem elementsBytes_boundedDiagnostics_le (diagnostics : List JsonValue) :
    elementsBytes (boundedDiagnostics locale diagnostics) ≤ elementsBytes diagnostics := by
  unfold boundedDiagnostics
  split_ifs
  · exact elementsBytes_compactDiagnostics_le locale diagnostics
  · exact le_rfl

end Diagnostics

section Bounds

variable {locale : Locale} {result reduced : ProjectedResult}

theorem fieldsBytes_compactActionableFields_le (fields : List ProjectedField) :
    fieldsBytes (compactActionableFields fields) ≤
      fieldsBytes (fields.filter fun field => decide (field.priority = .actionable)) := by
  unfold compactActionableFields fieldsBytes
  rw [List.map_map]
  apply List.sum_le_sum
  intro field _
  simp only [Function.comp_apply, fieldBytes]
  split_ifs
  · exact le_rfl
  · have hvalue : bytes (compactValue 256 field.value) ≤ bytes field.value :=
      bytes_compactValue_le (by decide) field.value
    simp only [entryBytes]
    omega

theorem compactActionableFields_of_keeps (h : Keeps result reduced) :
    compactActionableFields reduced.fields = compactActionableFields result.fields := by
  rw [compactActionableFields, h.actionable, compactActionableFields]

theorem wellKeyed_leastEnvelope (h : WellKeyed result) : WellKeyed (leastEnvelope locale result) :=
  h.of_sublist (((List.take_sublist _ _).map _).trans (keys_compactActionableFields _))

theorem wellKeyed_leastFallback (h : WellKeyed result) : WellKeyed (leastFallback locale result) :=
  h.of_sublist (((List.take_sublist _ _).map _).trans (keys_compactActionableFields _))

theorem elementsBytes_least_le
    (h : reduced.diagnostics = boundedDiagnostics locale result.diagnostics ∨
      reduced.diagnostics = result.diagnostics) :
    elementsBytes (leastEnvelope locale result).diagnostics ≤ elementsBytes reduced.diagnostics := by
  have hbounded : elementsBytes (leastEnvelope locale result).diagnostics ≤
      elementsBytes (boundedDiagnostics locale result.diagnostics) :=
    (elementsBytes_le_of_sublist (List.take_sublist _ _)).trans
      (elementsBytes_compactDiagnostics_le locale _)
  rcases h with h | h
  · rw [h]
    exact hbounded
  · rw [h]
    exact hbounded.trans (elementsBytes_boundedDiagnostics_le _)

theorem under_of_keeps (h : Keeps result reduced)
    (hdiagnostics : reduced.diagnostics = boundedDiagnostics locale result.diagnostics ∨
      reduced.diagnostics = result.diagnostics) :
    Under (leastEnvelope locale result) reduced where
  operation := by
    rw [h.operation]
    exact escapedBytes_compactString_le result.operation (by decide)
  status := by
    rw [h.status]
    exact escapedBytes_compactString_le result.status (by decide)
  summary := rfl
  facts := rfl
  diagnostics := elementsBytes_least_le hdiagnostics
  metrics := rfl
  testResults := rfl
  resultId := by
    rw [h.resultId]
    exact le_rfl
  truncated := rfl
  fields := by
    have hfilter := fieldsBytes_le_of_sublist
      (List.filter_sublist : (reduced.fields.filter fun field =>
        decide (field.priority = .actionable)).Sublist reduced.fields)
    rw [h.actionable] at hfilter
    exact (fieldsBytes_le_of_sublist (List.take_sublist _ _)).trans
      ((fieldsBytes_compactActionableFields_le _).trans hfilter)
  omissions := Nat.zero_le _
  content := rfl
  identity := rfl
  isError := h.isError.symm
  metadata := rfl

variable {variant : ProjectedResult}

theorem under_candidate (h : Keeps result reduced)
    (hdiagnostics : reduced.diagnostics = boundedDiagnostics locale result.diagnostics)
    (hvariant : IsVariant locale reduced variant) (omissions : List Omission) (size : ℕ) :
    Under (leastEnvelope locale result) (candidate variant omissions size) where
  operation := by
    simp only [candidate, hvariant.operation, h.operation]
    exact escapedBytes_compactString_mono result.operation (by decide) (by omega)
  status := by
    simp only [candidate, hvariant.status, h.status]
    exact escapedBytes_compactString_mono result.status (by decide) (by omega)
  summary := rfl
  facts := rfl
  diagnostics := by
    simp only [candidate, hvariant.diagnostics, hdiagnostics]
    exact le_rfl
  metrics := rfl
  testResults := rfl
  resultId := by
    simp only [candidate, hvariant.resultId, h.resultId]
    exact le_rfl
  truncated := rfl
  fields := by
    have hfields := hvariant.fields
    rw [compactActionableFields_of_keeps h] at hfields
    exact fieldsBytes_le_of_sublist hfields
  omissions := Nat.zero_le _
  content := rfl
  identity := rfl
  isError := (hvariant.isError.trans h.isError).symm
  metadata := rfl

theorem under_fallback (h : Keeps result reduced)
    (hdiagnostics : reduced.diagnostics = boundedDiagnostics locale result.diagnostics)
    (hvariant : IsVariant locale reduced variant) (omissions : List Omission)
    (homissions : [droppedIdentifier].Sublist omissions) {operation status summary : String}
    (hoperation : escapedBytes (compactString result.operation 8).toList ≤
      escapedBytes operation.toList)
    (hstatus : escapedBytes (compactString result.status 8).toList ≤ escapedBytes status.toList) :
    Under (leastFallback locale result) { stripped variant with
      omissions := omissions, operation := operation, status := status, summary := summary } where
  operation := hoperation
  status := hstatus
  summary := rfl
  facts := rfl
  diagnostics := by
    simp only [stripped, hvariant.diagnostics, hdiagnostics]
    exact le_rfl
  metrics := rfl
  testResults := rfl
  resultId := le_rfl
  truncated := rfl
  fields := by
    have hfields := hvariant.fields
    rw [compactActionableFields_of_keeps h] at hfields
    exact fieldsBytes_le_of_sublist hfields
  omissions := elementsBytes_le_of_sublist (homissions.map _)
  content := rfl
  identity := rfl
  isError := (hvariant.isError.trans h.isError).symm
  metadata := rfl

end Bounds

section Limits

variable {locale : Locale} {result reduced : ProjectedResult}

theorem withBudgetOmission_eq (result : ProjectedResult) :
    ∃ omissions, withBudgetOmission locale result =
      { minimalBase locale result with omissions := omissions } := by
  unfold withBudgetOmission omitPart addOmission
  split_ifs
  · exact ⟨_, rfl⟩
  · exact ⟨_, rfl⟩

theorem candidate_leastVariant (h : Keeps result reduced)
    (hdiagnostics : reduced.diagnostics = boundedDiagnostics locale result.diagnostics) :
    candidate (leastVariant locale reduced) [] 0 = leastEnvelope locale result := by
  obtain ⟨omissions, heq⟩ : ∃ omissions, withBudgetOmission locale reduced =
      { minimalBase locale reduced with omissions := omissions } := withBudgetOmission_eq reduced
  simp [candidate, leastVariant, heq, minimalBase, compactOmissions, leastEnvelope, h.operation,
    h.status, h.resultId, h.isError, hdiagnostics, compactActionableFields_of_keeps h,
    compactString]

theorem candidate_stripped (h : Keeps result reduced)
    (hdiagnostics : reduced.diagnostics = boundedDiagnostics locale result.diagnostics) :
    candidate (stripped (leastVariant locale reduced)) [droppedIdentifier] 0 =
      leastFallback locale result := by
  have htruncated := (isVariant_leastVariant reduced : IsVariant locale reduced _).truncated
  rw [leastFallback, ← candidate_leastVariant h hdiagnostics]
  simp [candidate, stripped, htruncated]

theorem zero_mem_sizes : 0 ∈ sizes := by decide

variable {budget : ProjectionBudget} {code message path : String} {limit : ℤ}

theorem fits_minimalResult (h : Keeps result reduced)
    (hdiagnostics : reduced.diagnostics = boundedDiagnostics locale result.diagnostics)
    (hfits : LeastFits locale result limit) :
    fits locale (minimalResult locale reduced limit) limit = true := by
  unfold minimalResult
  cases hfound : ((largerVariants locale reduced ++ [leastVariant locale reduced]).flatMap
      variantCandidates).find? fun result => fits locale result limit with
  | some found => exact List.find?_some (p := fun result => fits locale result limit) hfound
  | none =>
    rw [Option.getD_none]
    have hnone := List.find?_eq_none.mp hfound
    rcases hfits with hfits | hfits
    · have hmem : leastEnvelope locale result ∈
          (largerVariants locale reduced ++ [leastVariant locale reduced]).flatMap
            variantCandidates := by
        rw [← candidate_leastVariant h hdiagnostics]
        apply List.mem_flatMap_of_mem (List.mem_append_right _ (List.mem_singleton_self _))
        exact List.mem_flatMap_of_mem (by simp) (List.mem_map_of_mem zero_mem_sizes)
      exact absurd hfits (hnone _ hmem)
    · unfold nonRetrievableFallback
      cases hfallback : (candidates (stripped (leastVariant locale reduced)) _).find? fun result =>
          fits locale result limit with
      | some found => exact List.find?_some (p := fun result => fits locale result limit) hfallback
      | none =>
        have hmem : leastFallback locale result ∈
            candidates (stripped (leastVariant locale reduced))
              [(stripped (leastVariant locale reduced)).omissions,
                (stripped (leastVariant locale reduced)).omissions.take 2, [droppedIdentifier]] := by
          rw [← candidate_stripped h hdiagnostics]
          exact List.mem_flatMap_of_mem (by simp) (List.mem_map_of_mem zero_mem_sizes)
        exact absurd hfits (List.find?_eq_none.mp hfallback _ hmem)

theorem fits_of_under (h : Under reduced result) (hreduced : WellKeyed reduced)
    (hresult : WellKeyed result) (hfits : fits locale result limit = true) :
    fits locale reduced limit = true := by
  have hle := h.projectedBytes_le locale hreduced hresult
  simp only [fits, decide_eq_true_eq] at hfits ⊢
  omega

theorem leastFits_of_minimalResult (hkeyed : WellKeyed result) (h : Keeps result reduced)
    (hdiagnostics : reduced.diagnostics = boundedDiagnostics locale result.diagnostics)
    (hfits : fits locale (minimalResult locale reduced limit) limit = true) :
    LeastFits locale result limit := by
  have hkeys : ∀ {variant}, IsVariant locale reduced variant → WellKeyed variant :=
    fun hvariant => (hkeyed.of_sublist h.keys).of_sublist hvariant.keys
  unfold minimalResult at hfits
  cases hfound : ((largerVariants locale reduced ++ [leastVariant locale reduced]).flatMap
      variantCandidates).find? fun result => fits locale result limit with
  | some found =>
    rw [hfound, Option.getD_some] at hfits
    obtain ⟨variant, hmem, hcandidate⟩ := List.mem_flatMap.mp (List.mem_of_find?_eq_some hfound)
    obtain ⟨omissions, _, size, rfl⟩ := mem_candidates hcandidate
    have hvariant := isVariant_of_mem hmem
    exact .inl (fits_of_under (under_candidate h hdiagnostics hvariant omissions size)
      (wellKeyed_leastEnvelope hkeyed) ⟨(hkeys hvariant).distinct, (hkeys hvariant).outside⟩ hfits)
  | none =>
    rw [hfound, Option.getD_none] at hfits
    have hvariant : IsVariant locale reduced (leastVariant locale reduced) :=
      isVariant_leastVariant reduced
    have hwell := hkeys hvariant
    right
    unfold nonRetrievableFallback at hfits
    cases hfallback : (candidates (stripped (leastVariant locale reduced)) _).find? fun result =>
        fits locale result limit with
    | some found =>
      rw [hfallback, Option.getD_some] at hfits
      obtain ⟨omissions, homissions, size, rfl⟩ :=
        mem_candidates (List.mem_of_find?_eq_some hfallback)
      refine fits_of_under (under_fallback h hdiagnostics hvariant omissions ?_ ?_ ?_)
        (wellKeyed_leastFallback hkeyed) ⟨hwell.distinct, hwell.outside⟩ hfits
      · simp only [List.mem_cons, List.not_mem_nil, or_false] at homissions
        rcases homissions with rfl | rfl | rfl
        · simp [stripped]
        · simp [stripped]
        · exact List.Sublist.refl _
      · simp only [stripped, hvariant.operation, h.operation]
        exact escapedBytes_compactString_mono result.operation (by decide) (by omega)
      · simp only [stripped, hvariant.status, h.status]
        exact escapedBytes_compactString_mono result.status (by decide) (by omega)
    | none =>
      rw [hfallback, Option.getD_none] at hfits
      refine fits_of_under (under_fallback h hdiagnostics hvariant [droppedIdentifier]
        (List.Sublist.refl _) ?_ ?_)
        (wellKeyed_leastFallback hkeyed) ⟨hwell.distinct, hwell.outside⟩ hfits
      · simp only [stripped, hvariant.operation, h.operation]
        exact escapedBytes_compactString_le result.operation (by decide)
      · simp only [stripped, hvariant.status, h.status]
        exact escapedBytes_compactString_le result.status (by decide)

def byteLimit (budget : ProjectionBudget) : ℤ := min budget.hardBytes (budget.hardTokens * 4)

theorem softTokens_le_hardTokens {config : ProjectionBudgetConfig}
    (h : resolveResponseBudget config = .ok budget) : budget.softTokens ≤ budget.hardTokens := by
  unfold resolveResponseBudget at h
  obtain ⟨hardTokens, _, h⟩ := bind_eq_ok.mp h
  obtain ⟨softTokens, _, h⟩ := bind_eq_ok.mp h
  obtain ⟨_, hle, h⟩ := bind_eq_ok.mp h
  obtain ⟨hardBytes, _, h⟩ := bind_eq_ok.mp h
  cases h
  exact require_eq_ok.mp hle

theorem fits_mono {smaller larger : ℤ} (hle : smaller ≤ larger)
    (h : fits locale result smaller = true) : fits locale result larger = true := by
  simp only [fits, decide_eq_true_eq] at h ⊢
  omega

theorem diagnostics_of_not_fits {target : ℤ}
    (h : ¬ fits locale (reduceTo locale result target true) target = true) :
    (reduceTo locale result target true).diagnostics =
      boundedDiagnostics locale result.diagnostics :=
  (diagnostics_reduceTo result target true).resolve_right fun hfits => h hfits.2

theorem applyResponseBudget_eq (budget : ProjectionBudget) :
    applyResponseBudget locale result budget =
      if fits locale result (min budget.hardBytes (budget.softTokens * 4)) then result
      else if fits locale (reduceTo locale result (min budget.hardBytes (budget.softTokens * 4))
          false) (min budget.hardBytes (budget.softTokens * 4)) then
        reduceTo locale result (min budget.hardBytes (budget.softTokens * 4)) false
      else if fits locale (reduceTo locale result (byteLimit budget) true) (byteLimit budget) then
        reduceTo locale result (byteLimit budget) true
      else minimalResult locale (reduceTo locale result (byteLimit budget) true)
        (byteLimit budget) := rfl

theorem fits_applyResponseBudget (hbudget : budget.softTokens ≤ budget.hardTokens)
    (h : LeastFits locale result (byteLimit budget)) :
    fits locale (applyResponseBudget locale result budget) (byteLimit budget) = true := by
  have hsoft : min budget.hardBytes (budget.softTokens * 4) ≤ byteLimit budget := by
    unfold byteLimit
    omega
  have hkeeps := (reduces_reduceTo result (byteLimit budget) true : Reduces _
    (reduceTo locale result (byteLimit budget) true)).keeps
  rw [applyResponseBudget_eq]
  split_ifs with hinput hreduced hprotected
  · exact fits_mono hsoft hinput
  · exact fits_mono hsoft hreduced
  · exact hprotected
  · exact fits_minimalResult hkeeps (diagnostics_of_not_fits hprotected) h

theorem leastFits_of_fits (hkeyed : WellKeyed result)
    (h : fits locale (applyResponseBudget locale result budget) (byteLimit budget) = true) :
    LeastFits locale result (byteLimit budget) := by
  -- what was reduced, and fits, has the least envelope under it
  have hreduce : ∀ target dropProtected,
      fits locale (reduceTo locale result target dropProtected) (byteLimit budget) = true →
        LeastFits locale result (byteLimit budget) := by
    intro target dropProtected hfits
    have hkeeps := (reduces_reduceTo result target dropProtected : Reduces _
      (reduceTo locale result target dropProtected)).keeps
    have hunder := under_of_keeps hkeeps
      ((diagnostics_reduceTo result target dropProtected).imp id And.left)
    exact .inl (fits_of_under hunder (wellKeyed_leastEnvelope hkeyed)
      (hkeyed.of_sublist hkeeps.keys) hfits)
  rw [applyResponseBudget_eq] at h
  split_ifs at h with hinput hreduced hprotected
  · have hunder : Under (leastEnvelope locale result) result :=
      under_of_keeps (Keeps.refl result) (.inr rfl)
    exact .inl (fits_of_under hunder (wellKeyed_leastEnvelope hkeyed) hkeyed h)
  · exact hreduce _ _ h
  · exact hreduce _ _ h
  · have hkeeps := (reduces_reduceTo result (byteLimit budget) true : Reduces _
      (reduceTo locale result (byteLimit budget) true)).keeps
    exact leastFits_of_minimalResult hkeyed hkeeps (diagnostics_of_not_fits hprotected) h

theorem elementsBytes_diagnostics_le (locale : Locale) (hkeyed : WellKeyed result) :
    elementsBytes result.diagnostics ≤ projectedBytes locale result := by
  have hdiagnostics : elementsBytes result.diagnostics ≤ propertiesBytes (envelope result) := by
    simp only [envelope, propertiesBytes_append]
    simp only [propertiesBytes, List.map_cons, List.map_nil, List.sum_cons, List.sum_nil,
      entryBytes, bytes_array]
    omega
  have hstructured := propertiesBytes_structuredContent locale hkeyed
  rw [projectedBytes, serializeProjectedResult, bytes_object]
  simp only [propertiesBytes_append]
  simp only [propertiesBytes, List.map_cons, List.map_nil, List.sum_cons, List.sum_nil, entryBytes]
    at hstructured ⊢
  simp only [bytes_object, propertiesBytes] at hdiagnostics ⊢
  omega

def errorDiagnostic (code message path : String) : JsonValue :=
  .object [("severity", .string "error"), ("code", .string code), ("message", .string message),
    ("path", .string path)]

theorem bytes_errorDiagnostic (code message path : String) :
    bytes (errorDiagnostic code message path) =
      escapedBytes code.toList + escapedBytes message.toList + escapedBytes path.toList + 53 := by
  have herror : bytes (.string "error") = 7 := by decide
  have hseverity : byteLength (quote "severity") = 10 := by decide
  have hcode : byteLength (quote "code") = 6 := by decide
  have hmessage : byteLength (quote "message") = 9 := by decide
  have hpath : byteLength (quote "path") = 6 := by decide
  rw [errorDiagnostic, bytes_object]
  simp only [propertiesBytes, List.map_cons, List.map_nil, List.sum_cons, List.sum_nil, entryBytes,
    herror, hseverity, hcode, hmessage, hpath]
  simp only [bytes_string]
  omega

theorem compactString_of_le {text : String} {maxBytes : ℕ} (h : byteLength text ≤ maxBytes)
    (hpos : maxBytes ≠ 0) : compactString text maxBytes = text := by
  rw [compactString, if_neg hpos, if_pos h]

/-- A diagnostic is not cut when its texts are within their bounds. -/
theorem compactDiagnostic_errorDiagnostic (hcode : byteLength code ≤ 128)
    (hmessage : byteLength message ≤ 256) (hpath : byteLength path ≤ 128) :
    compactDiagnostic (errorDiagnostic code message path) = errorDiagnostic code message path := by
  have hcopied : copyKeys (fun key => compactValue (if key = "message" then 256 else 128))
      [("severity", .string "error"), ("code", .string code), ("message", .string message),
        ("path", .string path)] ["severity", "code", "message", "path", "line", "column"] =
      [("severity", .string (compactString "error" 128)),
        ("code", .string (compactString code 128)),
        ("message", .string (compactString message 256)),
        ("path", .string (compactString path 128))] := rfl
  rw [compactString_of_le (by decide : byteLength "error" ≤ 128) (by decide),
    compactString_of_le hcode (by decide), compactString_of_le hmessage (by decide),
    compactString_of_le hpath (by decide)] at hcopied
  simp only [compactDiagnostic, errorDiagnostic, record?, hcopied]
  rfl

/-- Two such diagnostics are kept as they are. -/
theorem diagnostics_leastEnvelope {locale : Locale} (hcode : byteLength code ≤ 128)
    (hmessage : byteLength message ≤ 256) (hpath : byteLength path ≤ 128)
    (hblocking : isBlockingDiagnostic locale (errorDiagnostic code message path) = true)
    (h : result.diagnostics = List.replicate 2 (errorDiagnostic code message path)) :
    (leastEnvelope locale result).diagnostics =
      List.replicate 2 (errorDiagnostic code message path) := by
  have hcompact : compactDiagnostics locale
      (List.replicate 2 (errorDiagnostic code message path)) =
        List.replicate 2 (errorDiagnostic code message path) := by
    simp [compactDiagnostics, hblocking, List.replicate,
      compactDiagnostic_errorDiagnostic hcode hmessage hpath]
  have hbounded : boundedDiagnostics locale
      (List.replicate 2 (errorDiagnostic code message path)) =
        List.replicate 2 (errorDiagnostic code message path) := by
    unfold boundedDiagnostics
    rw [hcompact, ite_self]
  rw [leastEnvelope, h]
  simp only [hbounded, hcompact]
  rfl

theorem isBlockingDiagnostic_errorDiagnostic (code message path : String) :
    isBlockingDiagnostic plainLocale (errorDiagnostic code message path) = true := rfl

/-- A failure that has these diagnostics and nothing else. -/
def diagnosedResult (diagnostics : List JsonValue) : ProjectedResult :=
  { operation := "test", status := "failed", summary := "", facts := []
    diagnostics := diagnostics, metrics := [], testResults := none, resultId := ""
    truncated := false, fields := [], omissions := [], content := [], identity := none
    isError := none, metadata := none }

theorem wellKeyed_diagnosedResult (diagnostics : List JsonValue) :
    WellKeyed (diagnosedResult diagnostics) :=
  ⟨List.nodup_nil, fun _ h => absurd h List.not_mem_nil⟩

theorem resolveResponseBudget_least :
    resolveResponseBudget { softTokens := some 128, hardTokens := some 256, hardBytes := some 1024 } =
      .ok minResponseBudget := rfl

def longDiagnostic : JsonValue :=
  errorDiagnostic (String.ofList (List.replicate 128 'e')) (String.ofList (List.replicate 256 'm'))
    (String.ofList (List.replicate 128 'p'))

theorem bytes_longDiagnostic : bytes longDiagnostic = 565 := by
  rw [longDiagnostic, bytes_errorDiagnostic, escapedBytes_replicate 128 (by decide),
    escapedBytes_replicate 256 (by decide), escapedBytes_replicate 128 (by decide)]

end Limits

end Mottainai.ContextRuntime

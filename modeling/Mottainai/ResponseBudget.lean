import Mathlib.Data.List.Infix
import Mottainai.JsonValues

/-!
# The response budget

What a tool returns is projected onto an envelope of known fields, the other fields with a priority
each, and the omissions made so far. A projected result that does not fit its budget is reduced step
by step: first to the soft limit, then to the hard one, and at last to a minimal envelope, for which
a ladder of candidates is tried. Every reducer keeps the identity of a result and its actionable
fields, and says that it has left something out. Sizes are the UTF-8 bytes of the JSON text. How
strings are compared in a locale and how they are put in lower case is a parameter.
-/

namespace Mottainai.ContextRuntime

open JavaScriptValues JsonValues

section Results

structure Locale where
  localeCompare : String → String → Ordering
  toLowerCase : String → String

structure Omission where
  field : String
  reason : String
  retrievalAvailable : Bool
  deriving DecidableEq, Repr

inductive Priority where
  | actionable
  | test
  | retrieval
  | metric
  | excerpt
  | verbose
  deriving DecidableEq, Repr

/-- The position of a priority in the order of the serialized fields. -/
def Priority.index : Priority → ℕ
  | .actionable => 0
  | .test => 1
  | .retrieval => 2
  | .metric => 3
  | .excerpt => 4
  | .verbose => 5

def Priority.text : Priority → String
  | .actionable => "actionable"
  | .test => "test"
  | .retrieval => "retrieval"
  | .metric => "metric"
  | .excerpt => "excerpt"
  | .verbose => "verbose"

structure ProjectedField where
  key : String
  value : JsonValue
  priority : Priority

structure ProjectedResult where
  operation : String
  status : String
  summary : String
  facts : List JsonValue
  diagnostics : List JsonValue
  metrics : Properties
  testResults : Option Properties
  resultId : String
  truncated : Bool
  fields : List ProjectedField
  omissions : List Omission
  content : List JsonValue
  identity : Option JsonValue
  isError : Option Bool
  metadata : Option JsonValue

end Results

section Projection

structure ProjectionInput where
  structuredContent : Properties
  content : List JsonValue
  isError : Option Bool
  metadata : Option JsonValue

/-- `REQUIRED_FIELDS`. -/
def requiredFields : List String :=
  ["operation", "status", "summary", "facts", "diagnostics", "metrics", "result_id", "truncated",
    "test_results", "projection", "identity"]

/-- `ACTIONABLE_FIELDS`. -/
def actionableFields : List String :=
  ["failure_classification", "exit_code", "signal", "timed_out", "output_limited", "branch",
    "worktree_dir"]

/-- `RETRIEVAL_FIELDS`. -/
def retrievalFields : List String :=
  ["next_command", "request_id", "path", "query", "mode", "stream", "totalLines",
    "returnedStartLine", "returnedEndLine", "omittedLines", "matchLine", "raw_artifact"]

/-- `EXCERPT_FIELDS`. -/
def excerptFields : List String := ["output", "text"]

def stringValue (value : Option JsonValue) (fallback : String) : String :=
  match value with
  | some (.string text) => text
  | _ => fallback

def arrayValue : Option JsonValue → List JsonValue
  | some (.array elements) => elements
  | _ => []

def record? : JsonValue → Option Properties
  | .object properties => some properties
  | _ => none

def recordValue (value : Option JsonValue) : Properties := (value.bind record?).getD []

def fieldPriority (key status operation : String) : Priority :=
  if key ∈ actionableFields then .actionable
  else if key = "test_results" then .test
  else if key ∈ retrievalFields then .retrieval
  else if key = "metrics" then .metric
  else if key ∈ excerptFields then
    if operation = "result_get" then .retrieval
    else if status = "failed" then .excerpt else .verbose
  else .verbose

/-- One entry of `parseOmissions`. -/
def parseOmission (entry : JsonValue) : Option Omission := do
  let entry ← record? entry
  match property entry "field", property entry "reason" with
  | some (.string field), some (.string reason) =>
    some
      { field := field
        reason := reason
        retrievalAvailable := match property entry "retrievalAvailable" with
          | some (.boolean true) => true
          | _ => false }
  | _, _ => none

def parseOmissions : Option JsonValue → List Omission
  | some (.array entries) => entries.filterMap parseOmission
  | _ => []

/-- `Object.entries(raw).sort(([left], [right]) => left.localeCompare(right))`. -/
def sortedEntries (locale : Locale) (raw : Properties) : Properties :=
  raw.insertionSort fun left right => locale.localeCompare left.1 right.1 ≠ .gt

/-- Whether an entry is projected onto a field: it is none of the envelope, and no output of
a successful operation. -/
def isProjected (status : String) (entry : String × JsonValue) : Bool :=
  decide (entry.1 ∉ requiredFields) && !(decide (entry.1 = "output") && decide (status = "success"))

/-- `projectResult`. -/
def projectResult (locale : Locale) (input : ProjectionInput) : ProjectedResult :=
  let raw := input.structuredContent
  let operation := stringValue (property raw "operation") "local"
  let status := stringValue (property raw "status") "partial"
  let resultId := stringValue (property raw "result_id") ""
  let entries := sortedEntries locale raw
  let omissions :=
    parseOmissions (((property raw "projection").bind record?).bind (property · "omissions")) ++
      (entries.filter fun entry => decide (entry.1 = "output") && decide (status = "success")).map
        fun entry =>
          { field := entry.1
            reason := "verbose successful output omitted by default"
            retrievalAvailable := !resultId.isEmpty }
  { operation := operation
    status := status
    summary := stringValue (property raw "summary") "local result"
    facts := arrayValue (property raw "facts")
    diagnostics := arrayValue (property raw "diagnostics")
    metrics := recordValue (property raw "metrics")
    testResults := (property raw "test_results").bind record?
    resultId := resultId
    truncated := (match property raw "truncated" with
      | some (.boolean true) => true
      | _ => false) || !omissions.isEmpty
    fields := (entries.filter (isProjected status)).map fun entry =>
      { key := entry.1, value := entry.2, priority := fieldPriority entry.1 status operation }
    omissions := omissions
    content := input.content
    identity := property raw "identity"
    isError := input.isError
    metadata := input.metadata }

end Projection

section Serialization

def Omission.json (omission : Omission) : JsonValue :=
  .object [("field", .string omission.field), ("reason", .string omission.reason),
    ("retrievalAvailable", .boolean omission.retrievalAvailable)]

/-- `projectionMetadata`. -/
def projectionMetadata (omissions : List Omission) : JsonValue :=
  .object [("version", .number "1"), ("omissions", .array (omissions.map Omission.json))]

def fieldPrecedes (locale : Locale) (left right : ProjectedField) : Bool :=
  if left.priority.index = right.priority.index then
    decide (locale.localeCompare left.key right.key ≠ .gt)
  else decide (left.priority.index < right.priority.index)

def sortFields (locale : Locale) (fields : List ProjectedField) : List ProjectedField :=
  fields.insertionSort fun left right => fieldPrecedes locale left right

/-- The properties that every serialized result begins with. -/
def envelope (result : ProjectedResult) : Properties :=
  [("operation", .string result.operation), ("status", .string result.status),
    ("summary", .string result.summary), ("facts", .array result.facts),
    ("diagnostics", .array result.diagnostics), ("metrics", .object result.metrics),
    ("result_id", .string result.resultId),
    ("truncated", .boolean (result.truncated || !result.omissions.isEmpty))] ++
    optionalProperty "test_results" (result.testResults.map .object) ++
    optionalProperty "identity" result.identity

/-- `serializedStructuredContent`. -/
def serializedStructuredContent (locale : Locale) (result : ProjectedResult) : Properties :=
  assign ((sortFields locale result.fields).foldl
    (fun structuredContent field => assign structuredContent field.key field.value)
    (envelope result)) "projection" (projectionMetadata result.omissions)

/-- The JSON of `serializeProjectedResult`. -/
def serializeProjectedResult (locale : Locale) (result : ProjectedResult) : JsonValue :=
  .object ([("content", .array result.content),
      ("structuredContent", .object (serializedStructuredContent locale result))] ++
    optionalProperty "isError" (result.isError.map .boolean) ++
    optionalProperty "_meta" result.metadata)

def addOmission (result : ProjectedResult) (omission : Omission) : ProjectedResult :=
  if result.omissions.any fun entry =>
      decide (entry.field = omission.field) && decide (entry.reason = omission.reason) then result
  else { result with omissions := result.omissions ++ [omission], truncated := true }

end Serialization

section Budgets

structure ProjectionBudget where
  softTokens : ℤ
  hardTokens : ℤ
  hardBytes : ℤ

structure ProjectionBudgetConfig where
  softTokens : Option ℤ
  hardTokens : Option ℤ
  hardBytes : Option ℤ

/-- `DEFAULT_RESPONSE_BUDGET`. -/
def defaultResponseBudget : ProjectionBudget :=
  { softTokens := 1500, hardTokens := 3000, hardBytes := 12000 }

/-- `MIN_RESPONSE_BUDGET`. -/
def minResponseBudget : ProjectionBudget :=
  { softTokens := 128, hardTokens := 256, hardBytes := 1024 }

def positiveInteger (value : Option ℤ) (fallback : ℤ) (field : String) (minimum : ℤ) :
    Except String ℤ := do
  let resolved := value.getD fallback
  require (isSafeInteger resolved ∧ minimum ≤ resolved) ("invalid response budget " ++ field)
  return resolved

def resolveResponseBudget (config : ProjectionBudgetConfig) : Except String ProjectionBudget := do
  let hardTokens ← positiveInteger config.hardTokens defaultResponseBudget.hardTokens
    "hardTokens" minResponseBudget.hardTokens
  let softTokens ← positiveInteger config.softTokens defaultResponseBudget.softTokens
    "softTokens" minResponseBudget.softTokens
  require (softTokens ≤ hardTokens)
    "invalid response budget: softTokens must not exceed hardTokens"
  let hardBytes ← positiveInteger config.hardBytes (hardTokens * 4) "hardBytes"
    minResponseBudget.hardBytes
  return { softTokens := softTokens, hardTokens := hardTokens, hardBytes := hardBytes }

/-- `projectedBytes`. -/
def projectedBytes (locale : Locale) (result : ProjectedResult) : ℕ :=
  bytes (serializeProjectedResult locale result)

def fits (locale : Locale) (result : ProjectedResult) (byteLimit : ℤ) : Bool :=
  decide ((projectedBytes locale result : ℤ) ≤ byteLimit)

end Budgets

section Values

def marker : String := "…"

/-- The search of `compactString` for the longest prefix that fits with the marker after it,
between `low` and `high` characters. -/
def longestPrefix (characters : List Char) (maxBytes : ℕ) (low high : ℤ) (best : String) :
    String :=
  if low ≤ high then
    let middle := (low + high) / 2
    let candidate := String.ofList (characters.take middle.toNat) ++ marker
    if byteLength candidate ≤ maxBytes then
      longestPrefix characters maxBytes (middle + 1) high candidate
    else longestPrefix characters maxBytes low (middle - 1) best
  else best
termination_by (high + 1 - low).toNat
decreasing_by all_goals omega

def compactString (value : String) (maxBytes : ℕ) : String :=
  if maxBytes = 0 then ""
  else if byteLength value ≤ maxBytes then value
  else if maxBytes ≤ byteLength marker then marker
  else
    let best := longestPrefix value.toList maxBytes 0 value.toList.length ""
    if best = "" then marker else best

/-- The bound for what is inside a value. -/
def childBytes (maxBytes : ℕ) : ℕ := max 32 (maxBytes / 2)

/-- A new object with the values that `source` has at the keys. -/
def copyKeys (compact : String → JsonValue → JsonValue) (source : Properties)
    (keys : List String) : Properties :=
  keys.foldl (fun result key => match property source key with
    | some value => assign result key (compact key value)
    | none => result) []

mutual

/-- `compactValue`. What is inside is compacted first, and what is kept of it is chosen then. -/
def compactValue (maxBytes : ℕ) : JsonValue → JsonValue
  | .null => .null
  | .boolean value => .boolean value
  | .number literal => .number literal
  | .string text => .string (compactString text maxBytes)
  | .array elements => .array ((compactElements (childBytes maxBytes) elements).take 16)
  | .object properties =>
      .object (copyKeys (fun _ value => value)
        (compactProperties (childBytes maxBytes) properties)
        ((sortKeys (properties.map (·.1))).take 12))

def compactElements (maxBytes : ℕ) : List JsonValue → List JsonValue
  | [] => []
  | value :: values => compactValue maxBytes value :: compactElements maxBytes values

def compactProperties (maxBytes : ℕ) : Properties → Properties
  | [] => []
  | (key, value) :: properties =>
      (key, compactValue maxBytes value) :: compactProperties maxBytes properties

end

end Values

section Parts

variable (locale : Locale)

/-- `JSON.stringify(left) !== JSON.stringify(right)`. -/
def changed (left right : JsonValue) : Bool := decide (stringify left ≠ stringify right)

def lowerCase (properties : Properties) (key : String) : String :=
  ((text? (property properties key)).map locale.toLowerCase).getD ""

def mentions (words : List String) (text : String) : Bool :=
  words.any fun word => decide (word.toList <:+: text.toList)

def isBlockingDiagnostic (value : JsonValue) : Bool :=
  match record? value with
  | none => false
  | some value =>
      decide (lowerCase locale value "severity" ∈ ["error", "fatal", "blocking"]) ||
        mentions ["error", "failed", "failure", "exception", "timeout"]
          (lowerCase locale value "message")

def compactDiagnostic (value : JsonValue) : JsonValue :=
  match record? value with
  | none => compactValue 512 value
  | some properties =>
      let result := copyKeys (fun key => compactValue (if key = "message" then 256 else 128))
        properties ["severity", "code", "message", "path", "line", "column"]
      if result.isEmpty then compactValue 512 value else .object result

def compactDiagnostics (diagnostics : List JsonValue) : List JsonValue :=
  let blocking := diagnostics.filter (isBlockingDiagnostic locale)
  ((if blocking.isEmpty then diagnostics else blocking).take 8).map compactDiagnostic

def isActionableFact (value : JsonValue) : Bool :=
  match record? value with
  | none => false
  | some value =>
      mentions ["error", "fail", "missing", "conflict", "recovery", "artifact", "command"]
          (lowerCase locale value "kind") ||
        decide (text? (property value "severity") = some "error")

/-- `compactFacts`. A fact is among the actionable ones when it is one of them. -/
def compactFacts (facts : List JsonValue) : List JsonValue :=
  ((facts.filter (isActionableFact locale) ++
    facts.filter fun value => !isActionableFact locale value).take 16).map (compactValue 512)

/-- `ESSENTIAL_METRIC_KEYS`. -/
def essentialMetricKeys : List String :=
  ["calls", "errors", "retrievals", "providers", "ready", "unhealthy", "disabled", "duration_ms",
    "exit_code", "stdout_bytes", "stderr_bytes", "returned_bytes", "raw_bytes", "stored_bytes",
    "omitted_bytes", "target_tokens", "projected_tokens", "budget_target_tokens",
    "omitted_matches"]

/-- The keys of the metrics, the essential ones first. -/
def metricKeys (metrics : Properties) : List String :=
  (metrics.map (·.1)).insertionSort fun left right =>
    if left ∈ essentialMetricKeys ↔ right ∈ essentialMetricKeys then
      locale.localeCompare left right ≠ .gt
    else left ∈ essentialMetricKeys

/-- The keys without the optional ones after the first `optional` of them. -/
def admitKeys : ℕ → List String → List String
  | _, [] => []
  | optional, key :: keys =>
      if key ∈ essentialMetricKeys then key :: admitKeys optional keys
      else match optional with
        | 0 => admitKeys 0 keys
        | n + 1 => key :: admitKeys n keys

def compactMetrics (metrics : Properties) : Properties :=
  copyKeys (fun _ => compactValue 64) metrics (admitKeys 4 (metricKeys locale metrics))

def compactTestResults (value : Properties) : Properties :=
  let result := copyKeys (fun _ => compactValue 128) value
    ["format", "total", "pass", "fail", "cancelled", "skipped", "todo", "output_omitted",
      "result_id"]
  match property value "failures" with
  | some (.array failures) =>
      assign result "failures" (.array ((failures.take 8).map (compactValue 512)))
  | _ => result

def compactActionableFields (fields : List ProjectedField) : List ProjectedField :=
  (fields.filter fun field => decide (field.priority = .actionable)).map fun field =>
    { field with value := compactValue 256 field.value }

def compactIdentityEntry (key : String) (value : JsonValue) : JsonValue :=
  match value with
  | .array entries =>
      if key = "upstreams" then .array ((entries.take 8).map (compactValue 128))
      else compactValue (if key = "provenance" then 256 else 128) value
  | _ => compactValue (if key = "provenance" then 256 else 128) value

def compactIdentity (identity : JsonValue) : JsonValue :=
  match record? identity with
  | none => compactValue 512 identity
  | some identity => .object (identity.foldl
      (fun result entry => assign result entry.1 (compactIdentityEntry entry.1 entry.2)) [])

end Parts

section Reducers

variable (locale : Locale)

/-- `addOmission`, with an omission that can be retrieved when the result has an identifier. -/
def omitPart (result : ProjectedResult) (field reason : String) : ProjectedResult :=
  addOmission result
    { field := field, reason := reason, retrievalAvailable := !result.resultId.isEmpty }

def compactExcerptField (field : ProjectedField) : ProjectedField :=
  match field.value with
  | .string text =>
      if field.priority = .excerpt then { field with value := .string (compactString text 2048) }
      else field
  | _ => field

def isLongExcerpt (field : ProjectedField) : Bool :=
  match field.value with
  | .string text => decide (field.priority = .excerpt ∧ compactString text 2048 ≠ text)
  | _ => false

def compactExcerptFields (result : ProjectedResult) : ProjectedResult :=
  if result.fields.any isLongExcerpt then
    omitPart { result with fields := result.fields.map compactExcerptField } "excerpts"
      "diagnostic excerpt bounded"
  else result

def compactIdentityPart (result : ProjectedResult) : ProjectedResult :=
  match result.identity with
  | none => result
  | some identity =>
      if changed (compactIdentity identity) identity then
        omitPart { result with identity := some (compactIdentity identity) } "identity"
          "identity detail bounded for response budget"
      else result

def compactDiagnosticsPart (result : ProjectedResult) : ProjectedResult :=
  let diagnostics := compactDiagnostics locale result.diagnostics
  if changed (.array diagnostics) (.array result.diagnostics) then
    omitPart { result with diagnostics := diagnostics } "diagnostics"
      "non-blocking diagnostic detail bounded"
  else result

def compactFactsPart (result : ProjectedResult) : ProjectedResult :=
  let facts := compactFacts locale result.facts
  if changed (.array facts) (.array result.facts) then
    omitPart { result with facts := facts } "facts" "low-priority facts bounded"
  else result

def compactMetricsPart (result : ProjectedResult) : ProjectedResult :=
  let metrics := compactMetrics locale result.metrics
  if changed (.object metrics) (.object result.metrics) then
    omitPart { result with metrics := metrics } "metrics" "non-essential metrics bounded"
  else result

def compactTestResultsPart (result : ProjectedResult) : ProjectedResult :=
  match result.testResults with
  | none => result
  | some testResults =>
      if changed (.object (compactTestResults testResults)) (.object testResults) then
        omitPart { result with testResults := some (compactTestResults testResults) } "test_results"
          "structured test detail bounded"
      else result

def compactStructuredParts (result : ProjectedResult) : ProjectedResult :=
  compactExcerptFields (compactTestResultsPart (compactMetricsPart locale
    (compactFactsPart locale (compactDiagnosticsPart locale (compactIdentityPart result)))))

def dropFieldsByPriority (target : Priority) (result : ProjectedResult) : ProjectedResult :=
  let fields := result.fields.filter fun field => decide (field.priority ≠ target)
  if fields.length = result.fields.length then result
  else
    let dropped := result.fields.filter fun field => decide (field.priority = target)
    omitPart { result with fields := fields }
      (match dropped with
        | [field] => field.key
        | _ => target.text ++ "_fields")
      (toString dropped.length ++ " lower-priority " ++ target.text ++ " field" ++
        (if dropped.length = 1 then "" else "s") ++ " omitted")

def dropTestResults (result : ProjectedResult) : ProjectedResult :=
  if result.testResults.isNone then result
  else omitPart { result with testResults := none } "test_results"
    "structured test detail omitted under response budget"

def dropMetrics (result : ProjectedResult) : ProjectedResult :=
  if result.metrics.isEmpty then result
  else omitPart { result with metrics := [] } "metrics"
    "metrics omitted to preserve structured test and failure data"

def dropMetadata (result : ProjectedResult) : ProjectedResult :=
  if result.metadata.isNone then result
  else omitPart { result with metadata := none } "_meta" "optional transport metadata omitted"

def blockText (block : JsonValue) : Option String := do
  let block ← record? block
  if text? (property block "type") = some "text" then text? (property block "text") else none

def compactContent (result : ProjectedResult) : ProjectedResult :=
  let content := match result.content.findSome? blockText with
    | none => []
    | some text =>
        [.object [("type", .string "text"), ("text", .string (compactString text 512))]]
  if changed (.array content) (.array result.content) then
    omitPart { result with content := content } "content" "transport content bounded"
  else result

def compactSummary (result : ProjectedResult) : ProjectedResult :=
  let summary := compactString result.summary 512
  if summary = result.summary then result
  else omitPart { result with summary := summary } "summary" "summary bounded for response budget"

def reduceUntil (target : ℤ) : List (ProjectedResult → ProjectedResult) → ProjectedResult →
    ProjectedResult
  | [], current => current
  | reduce :: reducers, current =>
      if fits locale current target then current
      else reduceUntil target reducers (reduce current)

/-- The reducers that keep what is protected, in their order. -/
def reducers : List (ProjectedResult → ProjectedResult) :=
  [dropMetadata, compactContent, dropFieldsByPriority .verbose, dropFieldsByPriority .excerpt,
    dropFieldsByPriority .metric, compactStructuredParts locale]

def protectedReducers : List (ProjectedResult → ProjectedResult) :=
  [dropMetrics, dropTestResults, dropFieldsByPriority .test, compactSummary]

def reduceTo (result : ProjectedResult) (targetBytes : ℤ) (dropProtected : Bool) :
    ProjectedResult :=
  reduceUntil locale targetBytes
    (reducers locale ++ if dropProtected then protectedReducers else []) result

end Reducers

section Candidates

variable (locale : Locale)

def compactOmission (omission : Omission) : Omission :=
  { field := compactString omission.field 64
    reason := compactString omission.reason 128
    retrievalAvailable := omission.retrievalAvailable }

def compactOmissions (result : ProjectedResult) : ProjectedResult :=
  { result with omissions := (result.omissions.take 12).map compactOmission }

/-- The sizes that are tried for the texts of a candidate. -/
def sizes : List ℕ := [512, 256, 128, 64, 32, 16, 8, 0]

def candidate (result : ProjectedResult) (omissions : List Omission) (size : ℕ) :
    ProjectedResult :=
  { result with
    omissions := omissions
    operation := compactString result.operation (max 8 size)
    status := compactString result.status (max 8 (min size 32))
    summary := compactString result.summary size }

def candidates (result : ProjectedResult) (omissionSets : List (List Omission)) :
    List ProjectedResult :=
  omissionSets.flatMap fun omissions => sizes.map (candidate result omissions)

def droppedIdentifier : Omission :=
  { field := "result_id"
    reason := "retrieval identifier exceeds hard response budget; result is not retrievable"
    retrievalAvailable := false }

def stripped (result : ProjectedResult) : ProjectedResult :=
  { result with
    resultId := ""
    truncated := true
    omissions := droppedIdentifier ::
      (result.omissions.filter fun omission => decide (omission.field ≠ "result_id")).map
        fun omission => { omission with retrievalAvailable := false } }

def nonRetrievableFallback (result : ProjectedResult) (targetBytes : ℤ) : ProjectedResult :=
  ((candidates (stripped result)
      [(stripped result).omissions, (stripped result).omissions.take 2, [droppedIdentifier]]).find?
    fun result => fits locale result targetBytes).getD
      { stripped result with omissions := [droppedIdentifier] }

def minimalBase (result : ProjectedResult) : ProjectedResult :=
  compactOmissions
    { result with
      facts := []
      diagnostics := (compactDiagnostics locale result.diagnostics).take 2
      metrics := []
      testResults := result.testResults.map compactTestResults
      fields := compactActionableFields result.fields
      content := []
      metadata := none
      identity := none
      truncated := true }

def withBudgetOmission (result : ProjectedResult) : ProjectedResult :=
  omitPart (minimalBase locale result) "optional_result_data"
    "hard response budget requires minimal envelope"

def largerVariants (result : ProjectedResult) : List ProjectedResult :=
  let minimal := withBudgetOmission locale result
  (result.identity.map fun identity =>
    { minimal with identity := some (compactIdentity identity) }).toList ++
  [minimal, { minimal with testResults := none },
    { minimal with
      testResults := none, fields := (compactActionableFields result.fields).take 4 }]

/-- The last variant of the minimal envelope. -/
def leastVariant (result : ProjectedResult) : ProjectedResult :=
  { withBudgetOmission locale result with
    testResults := none, fields := (compactActionableFields result.fields).take 2 }

def variantCandidates (variant : ProjectedResult) : List ProjectedResult :=
  candidates variant
    [variant.omissions, variant.omissions.take 2, variant.omissions.take 1, []]

def minimalResult (result : ProjectedResult) (targetBytes : ℤ) : ProjectedResult :=
  (((largerVariants locale result ++ [leastVariant locale result]).flatMap variantCandidates).find?
    fun result => fits locale result targetBytes).getD
      (nonRetrievableFallback locale (leastVariant locale result) targetBytes)

/-- `applyResponseBudget`. -/
def applyResponseBudget (input : ProjectedResult) (budget : ProjectionBudget) :
    ProjectedResult :=
  let softBytes := min budget.hardBytes (budget.softTokens * 4)
  let hardBytes := min budget.hardBytes (budget.hardTokens * 4)
  if fits locale input softBytes then input
  else
    let softResult := reduceTo locale input softBytes false
    if fits locale softResult softBytes then softResult
    else
      let result := reduceTo locale input hardBytes true
      if fits locale result hardBytes then result else minimalResult locale result hardBytes

end Candidates

section Keeping

/-- What every reducer leaves as it is. -/
structure Keeps (result reduced : ProjectedResult) : Prop where
  operation : reduced.operation = result.operation
  status : reduced.status = result.status
  resultId : reduced.resultId = result.resultId
  isError : reduced.isError = result.isError
  actionable : reduced.fields.filter (fun field => decide (field.priority = .actionable)) =
    result.fields.filter fun field => decide (field.priority = .actionable)
  keys : (reduced.fields.map (·.key)).Sublist (result.fields.map (·.key))

/-- What is serialized as `truncated`. -/
def ProjectedResult.isMarked (result : ProjectedResult) : Bool :=
  result.truncated || !result.omissions.isEmpty

/-- A result that was reduced: it is the same one, or it is marked. -/
structure Reduces (result reduced : ProjectedResult) : Prop where
  keeps : Keeps result reduced
  marked : reduced = result ∨ reduced.isMarked = true

variable (result : ProjectedResult)

theorem Keeps.refl : Keeps result result :=
  ⟨rfl, rfl, rfl, rfl, rfl, List.Sublist.refl _⟩

variable {a b c : ProjectedResult}

theorem Keeps.trans (hab : Keeps a b) (hbc : Keeps b c) : Keeps a c where
  operation := hbc.operation.trans hab.operation
  status := hbc.status.trans hab.status
  resultId := hbc.resultId.trans hab.resultId
  isError := hbc.isError.trans hab.isError
  actionable := hbc.actionable.trans hab.actionable
  keys := hbc.keys.trans hab.keys

theorem Reduces.refl : Reduces result result :=
  ⟨Keeps.refl result, .inl rfl⟩

theorem Reduces.trans (hab : Reduces a b) (hbc : Reduces b c) : Reduces a c := by
  refine ⟨hab.keeps.trans hbc.keeps, ?_⟩
  rcases hbc.marked with heq | hmarked
  · rw [heq]
    exact hab.marked
  · exact .inr hmarked

end Keeping

section Omissions

variable (result : ProjectedResult) (field reason : String)

theorem omissions_addOmission_ne_nil (omission : Omission) :
    (addOmission result omission).omissions ≠ [] := by
  unfold addOmission
  split_ifs with hany
  · intro hnil
    rw [hnil] at hany
    simp at hany
  · simp

theorem isMarked_omitPart : (omitPart result field reason).isMarked = true := by
  have hne := omissions_addOmission_ne_nil result
    { field := field, reason := reason, retrievalAvailable := !result.resultId.isEmpty }
  simp only [ProjectedResult.isMarked, omitPart, Bool.or_eq_true, Bool.not_eq_true',
    List.isEmpty_eq_false_iff]
  exact .inr hne

theorem keeps_omitPart : Keeps result (omitPart result field reason) := by
  unfold omitPart addOmission
  split_ifs
  · exact Keeps.refl result
  · exact ⟨rfl, rfl, rfl, rfl, rfl, List.Sublist.refl _⟩

variable {result} in
theorem reduces_omitPart {reduced : ProjectedResult} (h : Keeps result reduced) :
    Reduces result (omitPart reduced field reason) :=
  ⟨h.trans (keeps_omitPart reduced field reason), .inr (isMarked_omitPart reduced field reason)⟩

end Omissions

section Reducers

variable (locale : Locale) (result : ProjectedResult)

theorem reduces_dropMetadata : Reduces result (dropMetadata result) := by
  unfold dropMetadata
  split_ifs
  · exact Reduces.refl result
  · exact reduces_omitPart _ _ ⟨rfl, rfl, rfl, rfl, rfl, List.Sublist.refl _⟩

theorem reduces_compactContent : Reduces result (compactContent result) := by
  unfold compactContent
  simp only
  split_ifs
  · exact reduces_omitPart _ _ ⟨rfl, rfl, rfl, rfl, rfl, List.Sublist.refl _⟩
  · exact Reduces.refl result

theorem reduces_dropFieldsByPriority {target : Priority} (htarget : target ≠ .actionable) :
    Reduces result (dropFieldsByPriority target result) := by
  unfold dropFieldsByPriority
  simp only
  split
  · exact Reduces.refl result
  · refine reduces_omitPart _ _ ⟨rfl, rfl, rfl, rfl, ?_, List.filter_sublist.map _⟩
    simp only [List.filter_filter]
    apply List.filter_congr
    intro field _
    by_cases hfield : field.priority = .actionable
    · simp [hfield, htarget.symm]
    · simp [hfield]

theorem reduces_compactIdentityPart : Reduces result (compactIdentityPart result) := by
  unfold compactIdentityPart
  split
  · exact Reduces.refl result
  · split_ifs
    · exact reduces_omitPart _ _ ⟨rfl, rfl, rfl, rfl, rfl, List.Sublist.refl _⟩
    · exact Reduces.refl result

theorem reduces_compactDiagnosticsPart : Reduces result (compactDiagnosticsPart locale result) := by
  unfold compactDiagnosticsPart
  simp only
  split_ifs
  · exact reduces_omitPart _ _ ⟨rfl, rfl, rfl, rfl, rfl, List.Sublist.refl _⟩
  · exact Reduces.refl result

theorem reduces_compactFactsPart : Reduces result (compactFactsPart locale result) := by
  unfold compactFactsPart
  simp only
  split_ifs
  · exact reduces_omitPart _ _ ⟨rfl, rfl, rfl, rfl, rfl, List.Sublist.refl _⟩
  · exact Reduces.refl result

theorem reduces_compactMetricsPart : Reduces result (compactMetricsPart locale result) := by
  unfold compactMetricsPart
  simp only
  split_ifs
  · exact reduces_omitPart _ _ ⟨rfl, rfl, rfl, rfl, rfl, List.Sublist.refl _⟩
  · exact Reduces.refl result

theorem reduces_compactTestResultsPart : Reduces result (compactTestResultsPart result) := by
  unfold compactTestResultsPart
  split
  · exact Reduces.refl result
  · split_ifs
    · exact reduces_omitPart _ _ ⟨rfl, rfl, rfl, rfl, rfl, List.Sublist.refl _⟩
    · exact Reduces.refl result

variable (field : ProjectedField)

theorem key_compactExcerptField : (compactExcerptField field).key = field.key := by
  unfold compactExcerptField
  split
  · split_ifs <;> rfl
  · rfl

theorem priority_compactExcerptField : (compactExcerptField field).priority = field.priority := by
  unfold compactExcerptField
  split
  · split_ifs <;> rfl
  · rfl

theorem compactExcerptField_of_actionable {field : ProjectedField}
    (h : field.priority = .actionable) : compactExcerptField field = field := by
  unfold compactExcerptField
  split
  · rw [if_neg (by simp [h])]
  · rfl

theorem reduces_compactExcerptFields : Reduces result (compactExcerptFields result) := by
  unfold compactExcerptFields
  split_ifs
  · refine reduces_omitPart _ _ ⟨rfl, rfl, rfl, rfl, ?_, ?_⟩
    · simp only [List.filter_map, Function.comp_def, priority_compactExcerptField]
      conv_rhs => rw [← List.map_id (result.fields.filter _)]
      apply List.map_congr_left
      intro field hfield
      exact compactExcerptField_of_actionable (by simpa using (List.mem_filter.mp hfield).2)
    · simp only [List.map_map, Function.comp_def, key_compactExcerptField]
      exact List.Sublist.refl _
  · exact Reduces.refl result

theorem reduces_compactStructuredParts : Reduces result (compactStructuredParts locale result) :=
  (reduces_compactIdentityPart result).trans <|
    (reduces_compactDiagnosticsPart locale _).trans <|
    (reduces_compactFactsPart locale _).trans <|
    (reduces_compactMetricsPart locale _).trans <|
    (reduces_compactTestResultsPart _).trans (reduces_compactExcerptFields _)

theorem reduces_dropMetrics : Reduces result (dropMetrics result) := by
  unfold dropMetrics
  split_ifs
  · exact Reduces.refl result
  · exact reduces_omitPart _ _ ⟨rfl, rfl, rfl, rfl, rfl, List.Sublist.refl _⟩

theorem reduces_dropTestResults : Reduces result (dropTestResults result) := by
  unfold dropTestResults
  split_ifs
  · exact Reduces.refl result
  · exact reduces_omitPart _ _ ⟨rfl, rfl, rfl, rfl, rfl, List.Sublist.refl _⟩

theorem reduces_compactSummary : Reduces result (compactSummary result) := by
  unfold compactSummary
  simp only
  split_ifs
  · exact Reduces.refl result
  · exact reduces_omitPart _ _ ⟨rfl, rfl, rfl, rfl, rfl, List.Sublist.refl _⟩

theorem reduces_of_mem_reducers {reduce : ProjectedResult → ProjectedResult}
    (h : reduce ∈ reducers locale ++ protectedReducers) : Reduces result (reduce result) := by
  simp only [reducers, protectedReducers, List.cons_append, List.nil_append, List.mem_cons,
    List.not_mem_nil, or_false] at h
  rcases h with rfl | rfl | rfl | rfl | rfl | rfl | rfl | rfl | rfl | rfl
  · exact reduces_dropMetadata result
  · exact reduces_compactContent result
  · exact reduces_dropFieldsByPriority result (by decide)
  · exact reduces_dropFieldsByPriority result (by decide)
  · exact reduces_dropFieldsByPriority result (by decide)
  · exact reduces_compactStructuredParts locale result
  · exact reduces_dropMetrics result
  · exact reduces_dropTestResults result
  · exact reduces_dropFieldsByPriority result (by decide)
  · exact reduces_compactSummary result

end Reducers

section Runs

variable {locale : Locale}

theorem reduces_reduceUntil {target : ℤ} {steps : List (ProjectedResult → ProjectedResult)}
    (hsteps : ∀ reduce ∈ steps, ∀ result, Reduces result (reduce result))
    (result : ProjectedResult) : Reduces result (reduceUntil locale target steps result) := by
  induction steps generalizing result with
  | nil => exact Reduces.refl result
  | cons reduce steps ih =>
    unfold reduceUntil
    split_ifs
    · exact Reduces.refl result
    · have hfirst := hsteps reduce List.mem_cons_self result
      have hrest := ih (fun step hstep => hsteps step (List.mem_cons_of_mem _ hstep)) (reduce result)
      exact hfirst.trans hrest

theorem reduces_reduceTo (result : ProjectedResult) (target : ℤ) (dropProtected : Bool) :
    Reduces result (reduceTo locale result target dropProtected) := by
  apply reduces_reduceUntil
  intro reduce hmem result
  apply reduces_of_mem_reducers locale result
  cases dropProtected with
  | false => exact List.mem_append_left _ (by simpa using hmem)
  | true => simpa using hmem

end Runs

section Ladder

variable {locale : Locale}

/-- What the ladder of candidates keeps of a result: it is marked, the keys of its fields are
among those of the result, and it has the identifier of the result or says that it was
dropped. -/
structure Rung (result rung : ProjectedResult) : Prop where
  marked : rung.isMarked = true
  keys : (rung.fields.map (·.key)).Sublist (result.fields.map (·.key))
  resultId : rung.resultId = result.resultId ∨ rung.resultId = "" ∧
    droppedIdentifier ∈ rung.omissions ∧ ∀ o ∈ rung.omissions, o.retrievalAvailable = false

theorem mem_candidates {result rung : ProjectedResult} {omissionSets : List (List Omission)}
    (h : rung ∈ candidates result omissionSets) :
    ∃ omissions ∈ omissionSets, ∃ size, rung = candidate result omissions size := by
  obtain ⟨omissions, homissions, hmem⟩ := List.mem_flatMap.mp h
  obtain ⟨size, _, rfl⟩ := List.mem_map.mp hmem
  exact ⟨omissions, homissions, size, rfl⟩

variable {result variant : ProjectedResult}

theorem rung_candidate (htruncated : variant.truncated = true)
    (hkeys : (variant.fields.map (·.key)).Sublist (result.fields.map (·.key)))
    (hid : variant.resultId = result.resultId) (omissions : List Omission) (size : ℕ) :
    Rung result (candidate variant omissions size) where
  marked := by simp [ProjectedResult.isMarked, candidate, htruncated]
  keys := hkeys
  resultId := .inl hid

theorem keys_compactActionableFields (fields : List ProjectedField) :
    ((compactActionableFields fields).map (·.key)).Sublist (fields.map (·.key)) := by
  unfold compactActionableFields
  rw [List.map_map]
  exact List.filter_sublist.map _

variable (locale) in
/-- What all variants of the minimal envelope have in common. -/
structure IsVariant (result variant : ProjectedResult) : Prop where
  truncated : variant.truncated = true
  keys : (variant.fields.map (·.key)).Sublist (result.fields.map (·.key))
  resultId : variant.resultId = result.resultId
  operation : variant.operation = result.operation
  status : variant.status = result.status
  isError : variant.isError = result.isError
  diagnostics : variant.diagnostics = (compactDiagnostics locale result.diagnostics).take 2
  fields : ((compactActionableFields result.fields).take 2).Sublist variant.fields

theorem isVariant_withBudgetOmission (result : ProjectedResult) :
    IsVariant locale result (withBudgetOmission locale result) := by
  unfold withBudgetOmission omitPart addOmission
  split_ifs
  · exact ⟨rfl, keys_compactActionableFields result.fields, rfl, rfl, rfl, rfl, rfl,
      List.take_sublist _ _⟩
  · exact ⟨rfl, keys_compactActionableFields result.fields, rfl, rfl, rfl, rfl, rfl,
      List.take_sublist _ _⟩

theorem IsVariant.withFields (h : IsVariant locale result variant) {n : ℕ} (hn : 2 ≤ n) :
    IsVariant locale result { variant with
      testResults := none, fields := (compactActionableFields result.fields).take n } where
  truncated := h.truncated
  keys := ((List.take_sublist _ _).map _).trans (keys_compactActionableFields _)
  resultId := h.resultId
  operation := h.operation
  status := h.status
  isError := h.isError
  diagnostics := h.diagnostics
  fields := List.take_sublist_take_left hn

theorem isVariant_leastVariant (result : ProjectedResult) :
    IsVariant locale result (leastVariant locale result) :=
  (isVariant_withBudgetOmission result).withFields (Nat.le_refl 2)

theorem isVariant_of_mem
    (h : variant ∈ largerVariants locale result ++ [leastVariant locale result]) :
    IsVariant locale result variant := by
  have hbase : IsVariant locale result (withBudgetOmission locale result) :=
    isVariant_withBudgetOmission result
  rcases List.mem_append.mp h with h | h
  · rcases List.mem_append.mp h with h | h
    · obtain ⟨identity, _, rfl⟩ : ∃ identity, result.identity = some identity ∧
          { withBudgetOmission locale result with identity := some (compactIdentity identity) } =
            variant := by simpa using h
      exact { hbase with }
    · simp only [List.mem_cons, List.not_mem_nil, or_false] at h
      rcases h with rfl | rfl | rfl
      · exact hbase
      · exact { hbase with }
      · exact hbase.withFields (by decide)
  · obtain rfl := List.mem_singleton.mp h
    exact isVariant_leastVariant result

theorem retrievalAvailable_stripped {variant : ProjectedResult} {omission : Omission}
    (h : omission ∈ (stripped variant).omissions) : omission.retrievalAvailable = false := by
  rcases List.mem_cons.mp h with rfl | h
  · rfl
  · obtain ⟨omission', _, rfl⟩ := List.mem_map.mp h
    rfl

/-- The fallback drops the identifier and says so. -/
theorem rung_nonRetrievableFallback (hvariant : IsVariant locale result variant) (target : ℤ) :
    Rung result (nonRetrievableFallback locale variant target) := by
  have hrung : ∀ omissions : List Omission, droppedIdentifier ∈ omissions →
      omissions ⊆ (stripped variant).omissions → ∀ size,
      Rung result (candidate (stripped variant) omissions size) := by
    intro omissions hdropped hsub size
    refine ⟨rfl, hvariant.keys, .inr ⟨rfl, hdropped, ?_⟩⟩
    intro omission hmem
    exact retrievalAvailable_stripped (hsub hmem)
  unfold nonRetrievableFallback
  cases hfound : (candidates (stripped variant) _).find? _ with
  | none =>
    refine ⟨rfl, hvariant.keys, .inr ⟨rfl, List.mem_singleton_self _, ?_⟩⟩
    intro omission hmem
    obtain rfl := List.mem_singleton.mp hmem
    rfl
  | some rung =>
    obtain ⟨omissions, homissions, size, rfl⟩ := mem_candidates (List.mem_of_find?_eq_some hfound)
    rw [Option.getD_some]
    simp only [List.mem_cons, List.not_mem_nil, or_false] at homissions
    rcases homissions with rfl | rfl | rfl
    · exact hrung _ List.mem_cons_self (List.Subset.refl _) size
    · exact hrung _ (by simp [stripped]) (List.take_subset _ _) size
    · exact hrung _ (List.mem_singleton_self _) (by simp [stripped]) size

theorem rung_minimalResult (result : ProjectedResult) (target : ℤ) :
    Rung result (minimalResult locale result target) := by
  unfold minimalResult
  cases hfound : ((largerVariants locale result ++ [leastVariant locale result]).flatMap
      variantCandidates).find? _ with
  | none =>
    rw [Option.getD_none]
    exact rung_nonRetrievableFallback (isVariant_leastVariant result) target
  | some rung =>
    obtain ⟨variant, hvariant, hmem⟩ := List.mem_flatMap.mp (List.mem_of_find?_eq_some hfound)
    obtain ⟨omissions, _, size, rfl⟩ := mem_candidates hmem
    have h := isVariant_of_mem hvariant
    exact rung_candidate h.truncated h.keys h.resultId omissions size

end Ladder

section Reports

variable (locale : Locale)

/-- The serialized result reports `truncated = true`. -/
def ReportsTruncated (result : ProjectedResult) : Prop :=
  property (serializedStructuredContent locale result) "truncated" = some (.boolean true)

theorem property_foldl_assign {key : String} {fields : List ProjectedField}
    (h : ∀ field ∈ fields, field.key ≠ key) (properties : Properties) :
    property (fields.foldl (fun content field => assign content field.key field.value) properties)
      key = property properties key := by
  induction fields generalizing properties with
  | nil => rfl
  | cons field fields ih =>
    rw [List.foldl_cons, ih (fun f hf => h f (List.mem_cons_of_mem _ hf)),
      property_assign_of_ne (h field List.mem_cons_self).symm]

variable {result : ProjectedResult}

theorem reportsTruncated_of_isMarked (hmarked : result.isMarked = true)
    (hkeys : ∀ field ∈ result.fields, field.key ≠ "truncated") :
    ReportsTruncated locale result := by
  unfold ReportsTruncated serializedStructuredContent
  rw [property_assign_of_ne (by decide), property_foldl_assign]
  · rw [ProjectedResult.isMarked] at hmarked
    simp [property, envelope, hmarked]
  · intro field hfield
    exact hkeys field ((List.mem_insertionSort _).mp hfield)

/-- What a caller can rely on when a result has become another one under a budget. -/
structure ReportsLoss (result budgeted : ProjectedResult) : Prop where
  truncated : budgeted = result ∨
    ((∀ field ∈ result.fields, field.key ≠ "truncated") → ReportsTruncated locale budgeted)
  resultId : budgeted.resultId = result.resultId ∨ budgeted.resultId = ""
  dropped : budgeted.resultId ≠ result.resultId →
    (∃ omission ∈ budgeted.omissions, omission.field = "result_id") ∧
      ∀ omission ∈ budgeted.omissions, omission.retrievalAvailable = false

variable {locale} in
theorem reportsTruncated_of_keys {result budgeted : ProjectedResult}
    (hmarked : budgeted.isMarked = true)
    (hsub : (budgeted.fields.map (·.key)).Sublist (result.fields.map (·.key)))
    (hkeys : ∀ field ∈ result.fields, field.key ≠ "truncated") :
    ReportsTruncated locale budgeted := by
  apply reportsTruncated_of_isMarked locale hmarked
  intro field hfield
  obtain ⟨field', hfield', hkey⟩ :=
    List.mem_map.mp (hsub.subset (List.mem_map_of_mem (f := (·.key)) hfield))
  rw [← hkey]
  exact hkeys field' hfield'

theorem Reduces.reportsLoss {result reduced : ProjectedResult} (h : Reduces result reduced) :
    ReportsLoss locale result reduced where
  truncated := h.marked.imp id fun hmarked => reportsTruncated_of_keys hmarked h.keeps.keys
  resultId := .inl h.keeps.resultId
  dropped := fun hne => absurd h.keeps.resultId hne

theorem Rung.reportsLoss {result reduced rung : ProjectedResult} (hkeeps : Keeps result reduced)
    (h : Rung reduced rung) : ReportsLoss locale result rung where
  truncated := .inr (reportsTruncated_of_keys h.marked (h.keys.trans hkeeps.keys))
  resultId := h.resultId.imp (fun heq => heq.trans hkeeps.resultId) fun hdropped => hdropped.1
  dropped := by
    intro hne
    rcases h.resultId with heq | ⟨_, hdropped, hfalse⟩
    · exact absurd (heq.trans hkeeps.resultId) hne
    · exact ⟨⟨droppedIdentifier, hdropped, rfl⟩, hfalse⟩

/-- Whatever the result and the budget, no loss is silent. -/
theorem applyResponseBudget_reportsLoss (result : ProjectedResult) (budget : ProjectionBudget) :
    ReportsLoss locale result (applyResponseBudget locale result budget) := by
  unfold applyResponseBudget
  simp only
  split_ifs
  · exact (Reduces.refl result).reportsLoss locale
  · exact (reduces_reduceTo result _ false).reportsLoss locale
  · exact (reduces_reduceTo result _ true).reportsLoss locale
  · exact (rung_minimalResult _ _).reportsLoss locale (reduces_reduceTo result _ true).keeps

def plainLocale : Locale := { localeCompare := compare, toLowerCase := id }

/-- A result with a field that is called `truncated`, and with metadata that do not fit. -/
def hidingResult : ProjectedResult :=
  { operation := "read", status := "success", summary := "", facts := [], diagnostics := []
    metrics := [], testResults := none, resultId := "", truncated := false
    fields := [{ key := "truncated", value := .boolean false, priority := .verbose }]
    omissions := [], content := [], identity := none, isError := none
    metadata := some (.string (String.ofList (List.replicate 600 'a'))) }

theorem bytes_metadata_le {metadata : JsonValue} (h : result.metadata = some metadata) :
    bytes metadata ≤ projectedBytes locale result := by
  rw [projectedBytes, serializeProjectedResult, bytes_object, h]
  simp only [optionalProperty, Option.map_some, Option.toList_some, propertiesBytes_append]
  simp only [propertiesBytes, List.map_cons, List.map_nil, List.sum_cons, List.sum_nil, entryBytes]
  omega

/-- The metadata are dropped, and the field overwrites what says so. -/
theorem truncated_field_hides_loss :
    applyResponseBudget plainLocale hidingResult minResponseBudget ≠ hidingResult ∧
      ¬ ReportsTruncated plainLocale
        (applyResponseBudget plainLocale hidingResult minResponseBudget) := by
  have hlarge : fits plainLocale hidingResult 512 = false := by
    have hmetadata : bytes (.string (String.ofList (List.replicate 600 'a'))) ≤
        projectedBytes plainLocale hidingResult := bytes_metadata_le plainLocale rfl
    rw [bytes_string, escapedBytes_replicate 600 (by decide)] at hmetadata
    simp only [fits, decide_eq_false_iff_not]
    omega
  have hsmall : fits plainLocale (dropMetadata hidingResult) 512 = true := by decide +kernel
  have hresult : applyResponseBudget plainLocale hidingResult minResponseBudget =
      dropMetadata hidingResult := by
    have hsoft : min minResponseBudget.hardBytes (minResponseBudget.softTokens * 4) = 512 := rfl
    simp [applyResponseBudget, hsoft, reduceTo, reducers, reduceUntil, hlarge, hsmall]
  rw [hresult]
  constructor
  · intro heq
    have hmetadata : (dropMetadata hidingResult).metadata = none := rfl
    rw [heq] at hmetadata
    cases hmetadata
  · intro hreports
    have hproperty : property (serializedStructuredContent plainLocale (dropMetadata hidingResult))
        "truncated" = some (.boolean false) := rfl
    rw [ReportsTruncated, hproperty] at hreports
    cases hreports

end Reports

end Mottainai.ContextRuntime

import Mathlib.Data.List.Infix
import Mathlib.Tactic.Linarith
import Mottainai.JsonValues
import Mottainai.OrderedMaps
import Mottainai.OperationSequences

/-!
# The artifact store

The in-memory store of artifacts: an ordered map from ids to payloads, the bytes they take, and
limits on their number and their bytes. A payload that is too large is cut before it is inserted. An
insertion is staged in a copy, so that one that fails leaves the store as it was. The limits and the
clock are numbers that need not be whole. A caller reads an artifact window by window, each from the
line after the last one of the window before; a window for a query has the line that matches it.
-/

namespace Mottainai.ArtifactStore

open JavaScriptValues JsonValues OrderedMaps

section Payloads

structure ArtifactMetadata where
  operation : String
  command : Option String
  cwd : Option String
  summary : Option String
  diagnostics : Option (List JsonValue)
  identity : Option JsonValue

/-- `StoredArtifactInput`, and the payload that is made of it. -/
structure ArtifactPayload where
  text : String
  stdout : Option String
  stderr : Option String
  metadata : Option ArtifactMetadata

def ArtifactMetadata.json (metadata : ArtifactMetadata) : JsonValue :=
  .object ([("operation", .string metadata.operation)] ++
    optionalProperty "command" (metadata.command.map .string) ++
    optionalProperty "cwd" (metadata.cwd.map .string) ++
    optionalProperty "summary" (metadata.summary.map .string) ++
    optionalProperty "diagnostics" (metadata.diagnostics.map .array) ++
    optionalProperty "identity" metadata.identity)

def ArtifactPayload.json (payload : ArtifactPayload) : JsonValue :=
  .object ([("text", .string payload.text)] ++
    optionalProperty "stdout" (payload.stdout.map .string) ++
    optionalProperty "stderr" (payload.stderr.map .string) ++
    optionalProperty "metadata" (payload.metadata.map ArtifactMetadata.json))

def payloadBytes (payload : ArtifactPayload) : ℕ := bytes payload.json

/-- `textFromResult`, of the blocks of a result. -/
def textFromResult (content : List JsonValue) : String :=
  String.intercalate "\n\n" (content.filterMap fun block => match block with
    | .object block =>
        if text? (property block "type") = some "text" then text? (property block "text") else none
    | _ => none)

end Payloads

section Bounding

/-- The characters of a text that fit into a number of bytes. -/
def fittingChars : ℕ → List Char → List Char
  | _, [] => []
  | n, c :: cs => if c.utf8Size ≤ n then c :: fittingChars (n - c.utf8Size) cs else []

def withoutByteOrderMark : List Char → List Char
  | [] => []
  | c :: cs => if c = '\uFEFF' then cs else c :: cs

def utf8Prefix (value : String) (maxBytes : ℤ) : String :=
  if maxBytes ≤ 0 then ""
  else if (byteLength value : ℤ) ≤ maxBytes then value
  else String.ofList (withoutByteOrderMark (fittingChars maxBytes.toNat value.toList))

/-- The search of `fitUtf8Prefix`, between `low` and `high` bytes. -/
def searchUtf8Prefix (value : String) (fits : String → Bool) (low high : ℤ)
    (best : Option String) : Option String :=
  if low ≤ high then
    let middle := (low + high) / 2
    let candidate := utf8Prefix value middle
    if fits candidate then searchUtf8Prefix value fits (middle + 1) high (some candidate)
    else searchUtf8Prefix value fits low (middle - 1) best
  else best
termination_by (high + 1 - low).toNat
decreasing_by all_goals omega

def fitUtf8Prefix (value : String) (fits : String → Bool) : Option String :=
  searchUtf8Prefix value fits 0 (byteLength value) none

/-- Fit a string into a payload, where `set` puts it: first by adding up bytes, and if the
payload does not fit then, by trying the payloads themselves. -/
def fitString (set : String → ArtifactPayload) (value : String) (maxBytes : ℚ) : Option String :=
  let fixedBytes : ℤ := payloadBytes (set "") - byteLength "\"\""
  let best := fitUtf8Prefix value fun candidate =>
    decide (((fixedBytes + byteLength (quote candidate) : ℤ) : ℚ) ≤ maxBytes)
  match best.filter fun best => decide ((payloadBytes (set best) : ℚ) ≤ maxBytes) with
  | some best => some best
  | none => fitUtf8Prefix value fun candidate =>
      decide ((payloadBytes (set candidate) : ℚ) ≤ maxBytes)

def boundMetadata (payload : ArtifactPayload) (metadata : ArtifactMetadata) (maxBytes : ℚ) :
    Option ArtifactMetadata :=
  let fit (set : String → ArtifactMetadata) (value : String) : Option String :=
    fitString (fun text => { payload with metadata := some (set text) }) value maxBytes
  let fits (metadata : ArtifactMetadata) : Bool :=
    decide ((payloadBytes { payload with metadata := some metadata } : ℚ) ≤ maxBytes)
  let empty : ArtifactMetadata := ⟨"", none, none, none, none, none⟩
  (fit (fun text => { empty with operation := text }) metadata.operation).map fun operation =>
    let bounded := { empty with operation := operation }
    let command := metadata.command.bind (fit fun text => { bounded with command := some text })
    let bounded := { bounded with command := command }
    let cwd := metadata.cwd.bind (fit fun text => { bounded with cwd := some text })
    let bounded := { bounded with cwd := cwd }
    let summary := metadata.summary.bind (fit fun text => { bounded with summary := some text })
    let bounded := { bounded with summary := summary }
    let diagnostics := metadata.diagnostics.filter fun diagnostics =>
      fits { bounded with diagnostics := some diagnostics }
    let bounded := { bounded with diagnostics := diagnostics }
    let identity := metadata.identity.filter fun identity =>
      fits { bounded with identity := some identity }
    { bounded with identity := identity }

variable (numberText : ℚ → String)

def truncationFooter (rawBytes : ℕ) (maxBytes : ℚ) : String :=
  "\n⋯ artifact truncated bytes=" ++ toString rawBytes ++ " max=" ++ numberText maxBytes ++ " ⋯"

def fitText (payload : ArtifactPayload) (originalText : String) (maxBytes : ℚ) : String :=
  let footer := truncationFooter numberText (byteLength originalText) maxBytes
  let fixedBytes : ℤ := payloadBytes { payload with text := "" } - byteLength "\"\""
  let best := (fitUtf8Prefix originalText fun candidate =>
    decide (((fixedBytes + byteLength (quote (candidate ++ footer)) : ℤ) : ℚ) ≤ maxBytes)).map
      (· ++ footer)
  match best.filter fun best =>
      decide ((payloadBytes { payload with text := best } : ℚ) ≤ maxBytes) with
  | some best => best
  | none => (fitUtf8Prefix originalText fun candidate =>
      decide ((payloadBytes { payload with text := candidate } : ℚ) ≤ maxBytes)).getD ""

def dropUntilFits (maxBytes : ℚ) : List (ArtifactPayload → ArtifactPayload) → ArtifactPayload →
    ArtifactPayload
  | [], payload => payload
  | drop :: drops, payload =>
      if (payloadBytes payload : ℚ) ≤ maxBytes then payload
      else dropUntilFits maxBytes drops (drop payload)

/-- The last steps of `boundArtifact`, which keep the operation if it fits. -/
def boundText (operation : Option String) (payload : ArtifactPayload) (maxBytes : ℚ) :
    ArtifactPayload :=
  let minimalMetadata : Option ArtifactMetadata :=
    operation.map fun operation => ⟨operation, none, none, none, none, none⟩
  let payload :=
    if (payloadBytes payload : ℚ) ≤ maxBytes then payload
    else
      { payload with
        text := fitText numberText { payload with text := "", metadata := minimalMetadata }
          payload.text maxBytes
        metadata := none }
  if payload.metadata.isNone ∧
      (payloadBytes { payload with metadata := minimalMetadata } : ℚ) ≤ maxBytes then
    { payload with metadata := minimalMetadata }
  else payload

def boundArtifact (artifact : ArtifactPayload) (maxBytes : ℚ) : ArtifactPayload :=
  if (payloadBytes artifact : ℚ) ≤ maxBytes then artifact
  else
    let stdout := artifact.stdout.bind fun value =>
      fitString (fun text => { artifact with stdout := some text }) value maxBytes
    let payload := { artifact with stdout := stdout }
    let stderr := payload.stderr.bind fun value =>
      fitString (fun text => { payload with stderr := some text }) value maxBytes
    let payload := { payload with stderr := stderr }
    let metadata := payload.metadata.bind fun metadata => boundMetadata payload metadata maxBytes
    let payload := dropUntilFits maxBytes
      [fun payload => { payload with metadata := none },
        fun payload => { payload with stderr := none },
        fun payload => { payload with stdout := none }] { payload with metadata := metadata }
    boundText numberText (artifact.metadata.map (·.operation)) payload maxBytes

end Bounding

section Stores

/-- `InMemoryArtifactStoreOptions`, as far as they limit the store. -/
structure Options where
  ttlMs : Option ℚ
  maxEntries : Option ℤ
  maxBytes : Option ℚ
  aggregateByteBudget : Option ℚ

structure Limits where
  ttlMs : ℚ
  maxEntries : ℤ
  maxBytes : ℚ
  aggregateByteBudget : ℚ
  ttlMs_nonneg : 0 ≤ ttlMs
  maxEntries_pos : 0 < maxEntries
  minArtifactBytes_le_maxBytes : 11 ≤ maxBytes
  minArtifactBytes_le_budget : 11 ≤ aggregateByteBudget

def resolveLimits (options : Options) : Except String Limits :=
  let ttlMs := options.ttlMs.getD (15 * 60 * 1000)
  let maxEntries := options.maxEntries.getD 200
  let maxBytes := options.maxBytes.getD (50 * 1024 * 1024)
  let aggregateByteBudget := options.aggregateByteBudget.getD (4 * (50 * 1024 * 1024))
  if hTtl : 0 ≤ ttlMs then
    if hEntries : 0 < maxEntries then
      if 0 < maxBytes then
        if hBytes : 11 ≤ maxBytes then
          if 0 < aggregateByteBudget then
            if hBudget : 11 ≤ aggregateByteBudget then
              .ok ⟨ttlMs, maxEntries, maxBytes, aggregateByteBudget, hTtl, hEntries, hBytes,
                hBudget⟩
            else .error "aggregateByteBudget must be at least 11 bytes"
          else .error "aggregateByteBudget must be a finite positive number"
        else .error "maxBytes must be at least 11 bytes"
      else .error "maxBytes must be a finite positive number"
    else .error "maxEntries must be a finite positive integer"
  else .error "ttlMs must be a finite non-negative number"

/-- What the store is given from outside: a clock, whose readings may be of any kind, and the
text and the letters of JavaScript. -/
structure Host (Time : Type) where
  /-- `expiresAt <= now`. -/
  isExpired : Time → Time → Bool
  /-- `now + ttlMs`. -/
  later : Time → ℚ → Time
  numberText : ℚ → String
  toLowerCase : String → String

structure StoredArtifact (Time : Type) where
  payload : ArtifactPayload
  expiresAt : Time
  serializedBytes : ℕ

structure Store (Time : Type) where
  entries : OrderedMap String (StoredArtifact Time)
  retainedBytes : ℤ

variable {Time : Type}

def Store.empty : Store Time := ⟨.empty, 0⟩

/-- `removeEntry`, and a step of an eviction. -/
def removeEntry (store : Store Time) (id : String) : Store Time :=
  match store.entries.get id with
  | none => store
  | some entry =>
      { entries := store.entries.delete id
        retainedBytes := store.retainedBytes - entry.serializedBytes }

/-- `deleteExpired`. -/
def deleteExpired (host : Host Time) (store : Store Time) (now : Time) : Store Time :=
  store.entries.entries.foldl (fun store entry =>
    if host.isExpired entry.2.expiresAt now then removeEntry store entry.1 else store) store

/-- `entries.set(id, artifact)`, with the bytes of the previous artifact given back. -/
def setEntry (store : Store Time) (id : String) (artifact : StoredArtifact Time) : Store Time :=
  let previous : ℤ := ((store.entries.get id).map (·.serializedBytes)).getD 0
  { entries := store.entries.set id artifact
    retainedBytes := store.retainedBytes - previous + artifact.serializedBytes }

def evictByCount (maxEntries : ℤ) : ℕ → Store Time → Store Time
  | 0, store => store
  | fuel + 1, store =>
      if maxEntries < store.entries.size then
        match store.entries.oldest with
        | none => store
        | some oldest => evictByCount maxEntries fuel (removeEntry store oldest)
      else store

/-- Evict the oldest entries but `resolvedId` while they take too many bytes. -/
def evictByBytes (host : Host Time) (budget : ℚ) (resolvedId : String) :
    ℕ → Store Time → Except String (Store Time)
  | 0, store => .ok store
  | fuel + 1, store =>
      if budget < store.retainedBytes then
        match store.entries.keys.find? fun id => decide (id ≠ resolvedId) with
        | none => .error ("artifact payload cannot fit within aggregateByteBudget=" ++
            host.numberText budget)
        | some oldest => evictByBytes host budget resolvedId fuel (removeEntry store oldest)
      else .ok store

/-- What a call finds outside: the reading of the clock, and what the storage boundary and
`createId` do. An injected fault replaces the action that it is injected into. -/
structure Call (Time : Type) where
  now : Time
  createId : Except String String
  insert : Except String Unit

def nextId (call : Call Time) : Except String String := call.createId.map ("mx_" ++ ·)

/-- `id ?? this.nextId()`. -/
def resolveId (call : Call Time) : Option String → Except String String
  | some id => .ok id
  | none => nextId call

def storedArtifact (host : Host Time) (limits : Limits) (now : Time) (bounded : ArtifactPayload) :
    StoredArtifact Time :=
  ⟨bounded, host.later now limits.ttlMs, payloadBytes bounded⟩

/-- The copy that `putArtifact` stages, and the id in it. -/
def stageArtifact (host : Host Time) (limits : Limits) (store : Store Time) (call : Call Time)
    (artifact : ArtifactPayload) (id : Option String) : Except String (String × Store Time) := do
  let staged := deleteExpired host store call.now
  let resolvedId ← resolveId call id
  let bounded := boundArtifact host.numberText artifact
    (min limits.maxBytes limits.aggregateByteBudget)
  let serializedBytes := payloadBytes bounded
  require ((serializedBytes : ℚ) ≤ limits.maxBytes)
    ("artifact payload cannot fit within maxBytes=" ++ host.numberText limits.maxBytes)
  require ((serializedBytes : ℚ) ≤ limits.aggregateByteBudget)
    ("artifact payload cannot fit within aggregateByteBudget=" ++
      host.numberText limits.aggregateByteBudget)
  let staged := setEntry staged resolvedId (storedArtifact host limits call.now bounded)
  let staged := evictByCount limits.maxEntries staged.entries.size staged
  let staged ← evictByBytes host limits.aggregateByteBudget resolvedId staged.entries.size staged
  require (0 ≤ staged.retainedBytes ∧ (staged.retainedBytes : ℚ) ≤ limits.aggregateByteBudget)
    "artifact aggregate byte accounting invariant violated"
  pure (resolvedId, staged)

/-- The insertion: the entries are cleared and set again from the copy. -/
def insertStaged (staged : Store Time) : Store Time :=
  { entries := staged.entries.entries.foldl (fun entries entry => entries.set entry.1 entry.2) .empty
    retainedBytes := staged.retainedBytes }

/-- `putArtifact`, with the store that it leaves behind. -/
def putArtifact (host : Host Time) (limits : Limits) (store : Store Time) (call : Call Time)
    (artifact : ArtifactPayload) (id : Option String) : Except String String × Store Time :=
  match stageArtifact host limits store call artifact id with
  | .error error => (.error error, store)
  | .ok (resolvedId, staged) =>
      match call.insert with
      | .error error => (.error error, store)
      | .ok () => (.ok resolvedId, insertStaged staged)

/-- `put`. -/
def put (host : Host Time) (limits : Limits) (store : Store Time) (call : Call Time)
    (content : Option (List JsonValue)) (id : Option String) :
    Except String String × Store Time :=
  putArtifact host limits store call
    ⟨(content.map textFromResult).getD "", none, none,
      some ⟨"upstream", none, none, none, none, none⟩⟩ id

def getStoredArtifactBytes (host : Host Time) (store : Store Time) (now : Time) (id : String) :
    Option ℕ × Store Time :=
  match store.entries.get id with
  | none => (none, store)
  | some entry =>
      if host.isExpired entry.expiresAt now then (none, removeEntry store id)
      else (some entry.serializedBytes, store)

end Stores

section Reading

inductive Stream where
  | combined | stdout | stderr
deriving DecidableEq

structure RetrieveOptions where
  query : Option String
  startLine : Option ℤ
  maxLines : Option ℤ
  contextLines : Option ℤ
  stream : Option Stream

structure RetrievedArtifact where
  id : String
  stream : Option Stream
  text : String
  totalLines : ℕ
  returnedStartLine : ℕ
  returnedEndLine : ℕ
  omittedLines : ℕ
  matchLine : Option ℕ
  identity : Option JsonValue

/-- `text.split("\n")`. -/
def splitLines (text : String) : List String :=
  (text.toList.splitOn '\n').map String.ofList

/-- `text.includes(query)`. -/
def includes (text query : String) : Bool := decide (query.toList <:+: text.toList)

/-- The window of lines that `retrieve` returns. -/
def retrieveLines (id : String) (source : String) (options : RetrieveOptions)
    (identity : Option JsonValue) : RetrievedArtifact :=
  let stream := options.stream.getD .combined
  let lines := splitLines source
  let query := options.query.filter fun query => decide (query ≠ "")
  let matchIndex : Option ℕ := query.bind fun query => lines.findIdx? (includes · query)
  let maxLines := max 1 (min (options.maxLines.getD 80) 80)
  let contextLines := max 0 (min (options.contextLines.getD 0) 20)
  let startLine := match matchIndex with
    | none => max 0 (options.startLine.getD 0)
    | some matchIndex => max 0 (matchIndex - min contextLines (maxLines - 1))
  let selected := (lines.drop startLine.toNat).take maxLines.toNat
  { id := id
    stream := if stream = .combined then none else some stream
    text := String.intercalate "\n" selected
    totalLines := lines.length
    returnedStartLine := if selected = [] then 0 else startLine.toNat + 1
    returnedEndLine := if selected = [] then 0 else startLine.toNat + selected.length
    omittedLines := lines.length - selected.length
    matchLine := matchIndex.map (· + 1)
    identity := identity }

variable {Time : Type}

/-- `retrieve`. An artifact that is returned becomes the newest one. -/
def retrieve (host : Host Time) (store : Store Time) (now : Time) (id : String)
    (options : RetrieveOptions) : Option RetrievedArtifact × Store Time :=
  match store.entries.get id with
  | none => (none, store)
  | some entry =>
      if host.isExpired entry.expiresAt now then (none, removeEntry store id)
      else
        let source := match options.stream.getD .combined with
          | .stdout => entry.payload.stdout.getD ""
          | .stderr => entry.payload.stderr.getD ""
          | .combined => entry.payload.text
        (some (retrieveLines id source options (entry.payload.metadata.bind (·.identity))),
          { store with entries := (store.entries.delete id).set id entry })

structure ArtifactSearchResult where
  id : String
  operation : String
  summary : Option String
  command : Option String
  cwd : Option String

/-- The text of an artifact in which `search` looks. -/
def searchText (payload : ArtifactPayload) : String :=
  let messages := ((payload.metadata.bind (·.diagnostics)).getD []).map fun item => match item with
    | .object item => (text? (property item "message")).getD ""
    | _ => ""
  let metadataText := String.intercalate "\n"
    ([((payload.metadata.bind (·.command)).getD ""), (payload.metadata.bind (·.summary)).getD ""] ++
      messages)
  metadataText ++ "\n" ++ payload.text

def searchResult (id : String) (payload : ArtifactPayload) : ArtifactSearchResult :=
  let nonempty (text : Option String) : Option String := text.filter fun text => decide (text ≠ "")
  { id := id
    operation := (payload.metadata.map (·.operation)).getD "unknown"
    summary := nonempty (payload.metadata.bind (·.summary))
    command := nonempty (payload.metadata.bind (·.command))
    cwd := nonempty (payload.metadata.bind (·.cwd)) }

/-- `search`, of the newest artifacts first. -/
def search (host : Host Time) (store : Store Time) (now : Time) (query : String)
    (maxResults : Option ℤ) : List ArtifactSearchResult × Store Time :=
  let store := deleteExpired host store now
  let limit := max 1 (min (maxResults.getD 20) 100)
  let hits := store.entries.entries.reverse.filter fun entry =>
    includes (host.toLowerCase (searchText entry.2.payload)) (host.toLowerCase query)
  ((hits.take limit.toNat).map fun entry => searchResult entry.1 entry.2.payload, store)

end Reading

section Operations

variable {Time : Type}

inductive Operation (Time : Type) where
  | put (call : Call Time) (content : Option (List JsonValue)) (id : Option String)
  | putArtifact (call : Call Time) (artifact : ArtifactPayload) (id : Option String)
  | nextId (call : Call Time)
  | getStoredArtifactBytes (now : Time) (id : String)
  | retrieve (now : Time) (id : String) (options : RetrieveOptions)
  | search (now : Time) (query : String) (maxResults : Option ℤ)

inductive Reply where
  | id (id : String)
  | bytes (bytes : Option ℕ)
  | artifact (artifact : Option RetrievedArtifact)
  | results (results : List ArtifactSearchResult)

def perform (host : Host Time) (limits : Limits) (store : Store Time) :
    Operation Time → Except String Reply × Store Time
  | .put call content resolvedId =>
      let (result, store) := put host limits store call content resolvedId
      (result.map .id, store)
  | .putArtifact call artifact resolvedId =>
      let (result, store) := putArtifact host limits store call artifact resolvedId
      (result.map .id, store)
  | .nextId call => ((nextId call).map .id, store)
  | .getStoredArtifactBytes now id =>
      let (bytes, store) := getStoredArtifactBytes host store now id
      (.ok (.bytes bytes), store)
  | .retrieve now id options =>
      let (artifact, store) := retrieve host store now id options
      (.ok (.artifact artifact), store)
  | .search now query maxResults =>
      let (results, store) := search host store now query maxResults
      (.ok (.results results), store)

def apply (host : Host Time) (limits : Limits) (store : Store Time) (operation : Operation Time) :
    Store Time := (perform host limits store operation).2

end Operations

section Accounting

open OperationSequences

variable {Time : Type} {host : Host Time} {limits : Limits} {store store' : Store Time}
variable {id : String}

section Invariant

structure Counted (limits : Limits) (store : Store Time) : Prop where
  retainedBytes_eq : store.retainedBytes = store.entries.total (·.serializedBytes)
  artifacts : ∀ id artifact, store.entries.get id = some artifact →
    artifact.serializedBytes = payloadBytes artifact.payload ∧
      (payloadBytes artifact.payload : ℚ) ≤ limits.maxBytes

/-- The limits of the whole store hold as well. -/
structure Accounted (limits : Limits) (store : Store Time) : Prop extends Counted limits store where
  retainedBytes_le : (store.retainedBytes : ℚ) ≤ limits.aggregateByteBudget
  size_le : (store.entries.size : ℤ) ≤ limits.maxEntries

theorem Accounted.empty : Accounted limits (Store.empty : Store Time) := by
  have hbudget := limits.minArtifactBytes_le_budget
  have hentries := limits.maxEntries_pos
  constructor
  · constructor
    · rfl
    · intro id artifact hget
      cases hget
  · change ((0 : ℤ) : ℚ) ≤ limits.aggregateByteBudget
    rw [Int.cast_zero]
    linarith
  · exact hentries.le

end Invariant

section Removing

theorem removeEntry_eq {artifact : StoredArtifact Time} (h : store.entries.get id = some artifact) :
    removeEntry store id =
      ⟨store.entries.delete id, store.retainedBytes - artifact.serializedBytes⟩ := by
  simp only [removeEntry, h]

theorem removeEntry_of_none (h : store.entries.get id = none) : removeEntry store id = store := by
  simp only [removeEntry, h]

theorem Counted.removeEntry (h : Counted limits store) (id : String) :
    Counted limits (removeEntry store id) := by
  cases hget : store.entries.get id with
  | none => rwa [removeEntry_of_none hget]
  | some artifact =>
    rw [removeEntry_eq hget]
    constructor
    · have htotal := OrderedMap.total_delete (·.serializedBytes) hget
      have hbytes := h.retainedBytes_eq
      simp only at htotal ⊢
      omega
    · intro id' artifact' hget'
      exact h.artifacts id' artifact' (OrderedMap.get_filter_eq_some_iff.mp hget').1

theorem retainedBytes_removeEntry_le (store : Store Time) (id : String) :
    (removeEntry store id).retainedBytes ≤ store.retainedBytes := by
  cases hget : store.entries.get id with
  | none => rw [removeEntry_of_none hget]
  | some artifact =>
    rw [removeEntry_eq hget]
    simp

theorem size_removeEntry_le (store : Store Time) (id : String) :
    (removeEntry store id).entries.size ≤ store.entries.size := by
  cases hget : store.entries.get id with
  | none => rw [removeEntry_of_none hget]
  | some artifact =>
    rw [removeEntry_eq hget]
    exact OrderedMap.size_delete_le

theorem size_removeEntry (h : id ∈ store.entries.keys) :
    (removeEntry store id).entries.size + 1 = store.entries.size := by
  cases hget : store.entries.get id with
  | none => exact absurd h (OrderedMap.get_eq_none_iff.mp hget)
  | some artifact =>
    rw [removeEntry_eq hget]
    exact OrderedMap.size_delete h

theorem Accounted.removeEntry (h : Accounted limits store) (id : String) :
    Accounted limits (removeEntry store id) := by
  constructor
  · exact h.toCounted.removeEntry id
  · have hbytes := retainedBytes_removeEntry_le store id
    exact (Int.cast_le.mpr hbytes).trans h.retainedBytes_le
  · have hsize := size_removeEntry_le store id
    have hlimit := h.size_le
    omega

theorem Accounted.deleteExpired (h : Accounted limits store) (now : Time) :
    Accounted limits (deleteExpired host store now) := by
  unfold ArtifactStore.deleteExpired
  generalize store.entries.entries = entries
  induction entries generalizing store with
  | nil => exact h
  | cons entry entries ih =>
    rw [List.foldl_cons]
    split
    · exact ih (h.removeEntry entry.1)
    · exact ih h

end Removing

section Inserting

theorem Counted.setEntry (h : Counted limits store) (artifact : StoredArtifact Time)
    (hbytes : artifact.serializedBytes = payloadBytes artifact.payload)
    (hlimit : (payloadBytes artifact.payload : ℚ) ≤ limits.maxBytes) (id : String) :
    Counted limits (setEntry store id artifact) := by
  constructor
  · have hstore := h.retainedBytes_eq
    cases hget : store.entries.get id with
    | none =>
      have htotal := OrderedMap.total_set_of_none (·.serializedBytes) hget artifact
      simp only [ArtifactStore.setEntry, hget, Option.map_none, Option.getD_none]
      omega
    | some previous =>
      have htotal := OrderedMap.total_set_of_get (·.serializedBytes) hget artifact
      simp only [ArtifactStore.setEntry, hget, Option.map_some, Option.getD_some]
      omega
  · intro id' artifact' hget
    by_cases hid : id' = id
    · subst hid
      obtain rfl : artifact = artifact' := by simpa [ArtifactStore.setEntry] using hget
      exact ⟨hbytes, hlimit⟩
    · exact h.artifacts id' artifact' (by simpa [ArtifactStore.setEntry, hid] using hget)

theorem Counted.evictByCount (h : Counted limits store) (maxEntries : ℤ) (fuel : ℕ) :
    Counted limits (evictByCount maxEntries fuel store) := by
  induction fuel generalizing store with
  | zero => exact h
  | succ fuel ih =>
    unfold ArtifactStore.evictByCount
    split
    · cases store.entries.oldest with
      | none => exact h
      | some oldest => exact ih (h.removeEntry oldest)
    · exact h

/-- The first loop ends with few enough entries. -/
theorem size_evictByCount_le {maxEntries : ℤ} (hpos : 0 < maxEntries) {fuel : ℕ}
    (hfuel : store.entries.size ≤ fuel) :
    ((evictByCount maxEntries fuel store).entries.size : ℤ) ≤ maxEntries := by
  induction fuel generalizing store with
  | zero =>
    have hsize : store.entries.size = 0 := by omega
    simp only [ArtifactStore.evictByCount, hsize]
    omega
  | succ fuel ih =>
    unfold ArtifactStore.evictByCount
    split
    · cases holdest : store.entries.oldest with
      | none =>
        simp only [OrderedMap.size_eq_zero_of_oldest holdest]
        omega
      | some oldest =>
        have hsize := size_removeEntry (OrderedMap.mem_keys_of_oldest holdest)
        exact ih (by omega)
    · omega

variable {budget : ℚ} {fuel : ℕ}

theorem Counted.evictByBytes (h : Counted limits store)
    (heq : evictByBytes host budget id fuel store = .ok store') : Counted limits store' := by
  induction fuel generalizing store with
  | zero =>
    cases heq
    exact h
  | succ fuel ih =>
    unfold ArtifactStore.evictByBytes at heq
    split at heq
    · split at heq
      · cases heq
      · exact ih (h.removeEntry _) heq
    · cases heq
      exact h

theorem size_evictByBytes_le (heq : evictByBytes host budget id fuel store = .ok store') :
    store'.entries.size ≤ store.entries.size := by
  induction fuel generalizing store with
  | zero =>
    cases heq
    exact le_rfl
  | succ fuel ih =>
    unfold ArtifactStore.evictByBytes at heq
    split at heq
    · split at heq
      · cases heq
      · exact (ih heq).trans (size_removeEntry_le store _)
    · cases heq
      exact le_rfl

end Inserting

section Steps

variable {call : Call Time} {artifact : ArtifactPayload} {suppliedId : Option String}

theorem Accounted.stageArtifact (h : Accounted limits store) {resolvedId : String}
    (heq : stageArtifact host limits store call artifact suppliedId = .ok (resolvedId, store')) :
    Accounted limits store' := by
  unfold ArtifactStore.stageArtifact at heq
  simp only [bind_eq_ok, require_eq_ok] at heq
  obtain ⟨id, _, _, hmax, _, _, staged, hevict, _, hcheck, hpure⟩ := heq
  cases hpure
  have hexpired : Accounted limits (ArtifactStore.deleteExpired host store call.now) :=
    h.deleteExpired call.now
  have hset := hexpired.toCounted.setEntry (storedArtifact host limits call.now
    (boundArtifact host.numberText artifact (min limits.maxBytes limits.aggregateByteBudget)))
    rfl hmax resolvedId
  constructor
  · exact (hset.evictByCount limits.maxEntries _).evictByBytes hevict
  · exact hcheck.2
  · have hcount := (Int.ofNat_le.mpr (size_evictByBytes_le hevict)).trans
      (size_evictByCount_le limits.maxEntries_pos le_rfl)
    exact hcount

theorem insertStaged_eq (staged : Store Time) : insertStaged staged = staged := by
  cases staged
  simp only [insertStaged, OrderedMap.foldl_set_entries]

theorem Accounted.putArtifact (h : Accounted limits store) :
    Accounted limits (putArtifact host limits store call artifact suppliedId).2 := by
  unfold ArtifactStore.putArtifact
  split
  · exact h
  · rename_i resolvedId staged hstage
    split
    · exact h
    · rw [insertStaged_eq]
      exact h.stageArtifact hstage

variable {error : String}

theorem putArtifact_error
    (h : (putArtifact host limits store call artifact suppliedId).1 = .error error) :
    (putArtifact host limits store call artifact suppliedId).2 = store := by
  unfold putArtifact at h ⊢
  split
  · rfl
  · rename_i resolvedId staged hstage
    cases hinsert : call.insert with
    | error error => rfl
    | ok _ => simp [hstage, hinsert] at h

variable {now : Time}

section

variable (h : Accounted limits store)
include h

theorem Accounted.getStoredArtifactBytes :
    Accounted limits (getStoredArtifactBytes host store now id).2 := by
  unfold ArtifactStore.getStoredArtifactBytes
  split
  · exact h
  · split
    · exact h.removeEntry id
    · exact h

theorem Accounted.moveToEnd {stored : StoredArtifact Time}
    (hget : store.entries.get id = some stored) :
    Accounted limits { store with entries := (store.entries.delete id).set id stored } := by
  have hnone : (store.entries.delete id).get id = none := OrderedMap.get_delete_self
  constructor
  · constructor
    · have htotal := OrderedMap.total_set_of_none (·.serializedBytes) hnone stored
      have hdelete := OrderedMap.total_delete (·.serializedBytes) hget
      have hbytes := h.retainedBytes_eq
      simp only at htotal hdelete ⊢
      omega
    · intro id' artifact' hget'
      by_cases hid : id' = id
      · subst hid
        obtain rfl : stored = artifact' := by simpa using hget'
        exact h.artifacts id' stored hget
      · exact h.artifacts id' artifact' (by simpa [hid] using hget')
  · exact h.retainedBytes_le
  · have hset := OrderedMap.size_set_of_not_mem
      (OrderedMap.get_eq_none_iff.mp hnone) stored
    have hdelete := OrderedMap.size_delete (OrderedMap.mem_keys_of_get hget)
    have hsize := h.size_le
    simp only
    omega

theorem Accounted.retrieve {options : RetrieveOptions} :
    Accounted limits (retrieve host store now id options).2 := by
  unfold ArtifactStore.retrieve
  split
  · exact h
  · rename_i stored hget
    split
    · exact h.removeEntry id
    · exact h.moveToEnd hget

theorem Accounted.apply (operation : Operation Time) :
    Accounted limits (apply host limits store operation) := by
  cases operation with
  | put call content resolvedId => exact h.putArtifact
  | putArtifact call artifact resolvedId => exact h.putArtifact
  | nextId call => exact h
  | getStoredArtifactBytes now id => exact h.getStoredArtifactBytes
  | retrieve now id options => exact h.retrieve
  | search now query maxResults => exact h.deleteExpired now

end

/-- An operation that throws leaves the store as it was. -/
def KeptWhenThrown (host : Host Time) (limits : Limits) (store : Store Time)
    (operation : Operation Time) : Prop :=
  ∀ error, (perform host limits store operation).1 = .error error →
    apply host limits store operation = store

theorem map_eq_error {α β : Type} {x : Except String α} {f : α → β} (h : x.map f = .error error) :
    x = .error error := by
  cases x with
  | error e =>
    cases h
    rfl
  | ok a => cases h

theorem keptWhenThrown (host : Host Time) (limits : Limits) (store : Store Time)
    (operation : Operation Time) : KeptWhenThrown host limits store operation := by
  intro error h
  cases operation with
  | put call content resolvedId => exact putArtifact_error (map_eq_error h)
  | putArtifact call artifact resolvedId => exact putArtifact_error (map_eq_error h)
  | nextId call => rfl
  | getStoredArtifactBytes now id => cases h
  | retrieve now id options => cases h
  | search now query maxResults => cases h

/-- After every sequence of operations the bytes are those of the retained artifacts, the limits
hold, and no operation of it that throws has changed the store. -/
theorem accounted_of_run (host : Host Time) (limits : Limits)
    (operations : List (Operation Time)) :
    EachState (apply host limits) (Accounted limits) Store.empty operations ∧
      EachStep (apply host limits) (KeptWhenThrown host limits) Store.empty operations := by
  have hrun : EachState (apply host limits) (Accounted limits) Store.empty operations :=
    eachState_of_invariant (fun _ operation h => h.apply operation) Accounted.empty operations
  exact ⟨hrun, hrun.eachStep fun store operation _ => keptWhenThrown host limits store operation⟩

end Steps

section Provenance

variable {store'' : Store Time} {fuel : ℕ}

/-- What a store has, the other has as well. -/
def Within (store store' : Store Time) : Prop :=
  ∀ id artifact, store.entries.get id = some artifact → store'.entries.get id = some artifact

theorem Within.trans (h : Within store store') (h' : Within store' store'') :
    Within store store'' :=
  fun id artifact hget => h' id artifact (h id artifact hget)

theorem removeEntry_within (store : Store Time) (id : String) :
    Within (removeEntry store id) store := by
  intro id' artifact hget
  cases hid : store.entries.get id with
  | none => rwa [removeEntry_of_none hid] at hget
  | some stored =>
    rw [removeEntry_eq hid] at hget
    exact (OrderedMap.get_filter_eq_some_iff.mp hget).1

theorem deleteExpired_within (now : Time) : Within (deleteExpired host store now) store := by
  unfold deleteExpired
  generalize store.entries.entries = entries
  induction entries generalizing store with
  | nil => exact fun _ _ hget => hget
  | cons entry entries ih =>
    rw [List.foldl_cons]
    split
    · exact ih.trans (removeEntry_within store entry.1)
    · exact ih

theorem evictByCount_within {maxEntries : ℤ} : Within (evictByCount maxEntries fuel store) store := by
  fun_induction evictByCount maxEntries fuel store with
  | case3 _ store _ oldest _ ih => exact ih.trans (removeEntry_within store oldest)
  | _ => exact fun _ _ hget => hget

theorem evictByBytes_within {budget : ℚ}
    (h : evictByBytes host budget id fuel store = .ok store') : Within store' store := by
  fun_induction evictByBytes host budget id fuel store with
  | case2 => cases h
  | case3 _ store _ oldest _ ih => exact (ih h).trans (removeEntry_within store oldest)
  | _ =>
    cases h
    exact fun _ _ hget => hget

/-- What is put into a store, as far as the limits of the store allow. -/
def boundedFor (host : Host Time) (limits : Limits) (call : Call Time) (artifact : ArtifactPayload) :
    StoredArtifact Time :=
  storedArtifact host limits call.now (boundArtifact host.numberText artifact
    (min limits.maxBytes limits.aggregateByteBudget))

variable {call : Call Time} {artifact : ArtifactPayload} {suppliedId : Option String}

/-- What a put that answers with an id leaves behind. -/
theorem putArtifact_ok
    (h : putArtifact host limits store call artifact suppliedId = (.ok id, store')) :
    let staged := setEntry (deleteExpired host store call.now) id (boundedFor host limits call artifact)
    let fewer := evictByCount limits.maxEntries staged.entries.size staged
    evictByBytes host limits.aggregateByteBudget id fewer.entries.size fewer = .ok store' := by
  unfold putArtifact at h
  split at h
  · cases h
  rename_i resolvedId staged hstage
  split at h
  · cases h
  · rw [insertStaged_eq] at h
    cases h
    simp only [stageArtifact, bind_eq_ok, require_eq_ok] at hstage
    obtain ⟨_, _, _, _, _, _, _, hevict, _, _, hpure⟩ := hstage
    cases hpure
    exact hevict

theorem get_putArtifact {stored : StoredArtifact Time}
    (h : putArtifact host limits store call artifact suppliedId = (.ok id, store'))
    {id' : String} (hget : store'.entries.get id' = some stored) :
    Function.update store.entries.get id (some (boundedFor host limits call artifact)) id' =
      some stored := by
  have hset := evictByCount_within _ _ (evictByBytes_within (putArtifact_ok h) _ _ hget)
  by_cases hid : id' = id
  · subst hid
    simpa [setEntry] using hset
  · rw [Function.update_of_ne hid]
    exact deleteExpired_within call.now _ _ (by simpa [setEntry, hid] using hset)

/-- A map of all artifacts that were ever put, the last one under each id. -/
abbrev Known (Time : Type) := String → Option (StoredArtifact Time)

/-- An answered put is remembered for good: no expiry, no eviction. -/
def Known.remember (host : Host Time) (limits : Limits) (known : Known Time) (call : Call Time)
    (artifact : ArtifactPayload) : Except String String → Known Time
  | .ok id => Function.update known id (some (boundedFor host limits call artifact))
  | .error _ => known

/-- The store next to the map of all artifacts that were ever put into it. -/
def performBeside (host : Host Time) (limits : Limits) (s : Store Time × Known Time)
    (operation : Operation Time) : Store Time × Known Time :=
  (apply host limits s.1 operation,
    match operation with
    | .put call content suppliedId =>
        s.2.remember host limits call ⟨(content.map textFromResult).getD "", none, none,
          some ⟨"upstream", none, none, none, none, none⟩⟩
          (put host limits s.1 call content suppliedId).1
    | .putArtifact call artifact suppliedId =>
        s.2.remember host limits call artifact
          (putArtifact host limits s.1 call artifact suppliedId).1
    | _ => s.2)

def Caches (s : Store Time × Known Time) : Prop :=
  ∀ id artifact, s.1.entries.get id = some artifact → s.2 id = some artifact

variable {known : Known Time}

theorem caches_putArtifact (h : Caches (store, known)) :
    Caches ((putArtifact host limits store call artifact suppliedId).2,
      known.remember host limits call artifact
        (putArtifact host limits store call artifact suppliedId).1) := by
  intro id' stored hget
  cases hresult : putArtifact host limits store call artifact suppliedId with
  | mk result store' =>
    rw [hresult] at hget
    cases result with
    | error error =>
      have hsame := putArtifact_error (congrArg Prod.fst hresult)
      rw [hresult] at hsame
      subst hsame
      exact h _ _ hget
    | ok id =>
      have hput := get_putArtifact hresult hget
      by_cases hid : id' = id
      · subst hid
        simpa [Known.remember] using hput
      · rw [Function.update_of_ne hid] at hput
        simpa [Known.remember, hid] using h _ _ hput

theorem caches_performBeside (h : Caches (store, known)) (operation : Operation Time) :
    Caches (performBeside host limits (store, known) operation) := by
  have hwithin : ∀ {store'}, Within store' store → Caches (store', known) :=
    fun hstore id artifact hget => h id artifact (hstore id artifact hget)
  cases operation with
  | put call content suppliedId => exact caches_putArtifact h
  | putArtifact call artifact suppliedId => exact caches_putArtifact h
  | nextId call => exact h
  | getStoredArtifactBytes now id =>
    refine hwithin fun id' artifact hget => ?_
    simp only [apply, perform, getStoredArtifactBytes] at hget
    split at hget
    · exact hget
    · split at hget
      · exact removeEntry_within store id _ _ hget
      · exact hget
  | retrieve now id options =>
    refine hwithin fun id' artifact hget => ?_
    simp only [apply, perform, retrieve] at hget
    split at hget
    · exact hget
    · split at hget
      · exact removeEntry_within store id _ _ hget
      · by_cases hid : id' = id
        · subst hid
          simp_all
        · simpa [hid] using hget
  | search now query maxResults => exact hwithin (deleteExpired_within now)

/-- Over every sequence of operations an artifact that is still there is the one that the last put
answered with its id has stored. -/
theorem artifacts_of_last_put (host : Host Time) (limits : Limits)
    (operations : List (Operation Time)) :
    EachState (performBeside host limits) Caches (Store.empty, fun _ => none) operations :=
  eachState_of_invariant (fun _ operation h => caches_performBeside h operation)
    (fun _ _ hget => by cases hget) operations

end Provenance

end Accounting

section Lines

theorem not_mem_of_mem_splitOn {x : Char} {text piece : List Char}
    (hpiece : piece ∈ text.splitOn x) : x ∉ piece := by
  induction text generalizing piece with
  | nil =>
    rw [List.splitOn_nil, List.mem_singleton] at hpiece
    rw [hpiece]
    exact List.not_mem_nil
  | cons c text ih =>
    rw [List.splitOn_cons_eq_if_modifyHead] at hpiece
    split_ifs at hpiece with hc
    · rcases List.mem_cons.mp hpiece with rfl | hpiece
      · exact List.not_mem_nil
      · exact ih hpiece
    · cases hpieces : text.splitOn x with
      | nil => exact absurd hpieces (List.splitOn_ne_nil _ _)
      | cons first pieces =>
        rw [hpieces] at hpiece ih
        rcases List.mem_cons.mp hpiece with rfl | hpiece
        · intro hmem
          rcases List.mem_cons.mp hmem with rfl | hmem
          · exact hc (beq_self_eq_true _)
          · exact ih List.mem_cons_self hmem
        · exact ih (List.mem_cons_of_mem _ hpiece)

theorem splitLines_window {text : String} {lines : List String} (hne : lines ≠ [])
    (hlines : ∀ line ∈ lines, line ∈ splitLines text) :
    splitLines (String.intercalate "\n" lines) = lines := by
  have hplain : ∀ piece ∈ lines.map String.toList, '\n' ∉ piece := by
    intro piece hpiece
    obtain ⟨line, hline, rfl⟩ := List.mem_map.mp hpiece
    obtain ⟨piece', hpiece', rfl⟩ := List.mem_map.mp (hlines line hline)
    rw [String.toList_ofList]
    exact not_mem_of_mem_splitOn hpiece'
  have hjoined : (String.intercalate "\n" lines).toList =
      ['\n'].intercalate (lines.map String.toList) := by
    simp
  rw [splitLines, hjoined, List.splitOn_intercalate _ hplain (by simpa using hne), List.map_map]
  simp [Function.comp_def]

end Lines

section Windows

variable {id source : String} {options : RetrieveOptions} {identity : Option JsonValue}

def windowLines (options : RetrieveOptions) : ℕ :=
  (max 1 (min (options.maxLines.getD 80) 80)).toNat

theorem windowLines_pos : 0 < windowLines options := by
  unfold windowLines
  omega

def sourceText (payload : ArtifactPayload) (options : RetrieveOptions) : String :=
  match options.stream.getD .combined with
  | .stdout => payload.stdout.getD ""
  | .stderr => payload.stderr.getD ""
  | .combined => payload.text

def matchIndex (lines : List String) (options : RetrieveOptions) : Option ℕ :=
  (options.query.filter fun query => decide (query ≠ "")).bind fun query =>
    lines.findIdx? (includes · query)

def windowStart (lines : List String) (options : RetrieveOptions) : ℕ :=
  let maxLines := max 1 (min (options.maxLines.getD 80) 80)
  let contextLines := max 0 (min (options.contextLines.getD 0) 20)
  (match matchIndex lines options with
    | none => max 0 (options.startLine.getD 0)
    | some matchIndex => max 0 (matchIndex - min contextLines (maxLines - 1))).toNat

structure IsWindow (lines : List String) (limit start : ℕ) (window : RetrievedArtifact) : Prop where
  returnedStartLine : window.returnedStartLine = start + 1
  returnedEndLine : start < window.returnedEndLine
  limited : window.returnedEndLine = min lines.length (start + limit)
  text : splitLines window.text = (lines.drop start).take (window.returnedEndLine - start)
  totalLines : window.totalLines = lines.length
  omittedLines : window.omittedLines + (window.returnedEndLine - start) = lines.length

theorem matchLine_retrieveLines : (retrieveLines id source options identity).matchLine =
    (matchIndex (splitLines source) options).map (· + 1) := rfl

theorem retrieveLines_window
    (hstart : windowStart (splitLines source) options < (splitLines source).length) :
    IsWindow (splitLines source) (windowLines options) (windowStart (splitLines source) options)
      (retrieveLines id source options identity) := by
  generalize hwindow : retrieveLines id source options identity = window
  generalize hlines : splitLines source = lines at hstart ⊢
  generalize hfirst : windowStart lines options = start at hstart ⊢
  have hpos : 0 < windowLines options := windowLines_pos
  have hlength : ((lines.drop start).take (windowLines options)).length =
      min (windowLines options) (lines.length - start) := by
    rw [List.length_take, List.length_drop]
  have hne : (lines.drop start).take (windowLines options) ≠ [] := by
    rw [← List.length_pos_iff, hlength]
    omega
  have htext : window.text =
      String.intercalate "\n" ((lines.drop start).take (windowLines options)) := by
    rw [← hwindow, ← hfirst, ← hlines]
    rfl
  have hreturned : window.returnedStartLine = start + 1 ∧ window.returnedEndLine =
      start + ((lines.drop start).take (windowLines options)).length := by
    rw [← hwindow, ← hfirst, ← hlines] at *
    exact ⟨if_neg hne, if_neg hne⟩
  have homitted : window.totalLines = lines.length ∧ window.omittedLines =
      lines.length - ((lines.drop start).take (windowLines options)).length := by
    rw [← hwindow, ← hfirst, ← hlines]
    exact ⟨rfl, rfl⟩
  refine ⟨hreturned.1, by omega, by omega, ?_, homitted.1, by omega⟩
  have hwithin : ∀ line ∈ (lines.drop start).take (windowLines options),
      line ∈ splitLines source := by
    intro line hline
    rw [hlines]
    exact List.mem_of_mem_drop (List.mem_of_mem_take hline)
  rw [htext, splitLines_window hne hwithin]
  have hcount : window.returnedEndLine - start =
      min (windowLines options) (lines.drop start).length := by
    rw [List.length_drop]
    omega
  rw [hcount, ← List.take_take, List.take_length]

theorem retrieveLines_empty
    (hstart : (splitLines source).length ≤ windowStart (splitLines source) options) :
    (retrieveLines id source options identity).returnedEndLine = 0 := by
  have hnil : ((splitLines source).drop (windowStart (splitLines source) options)).take
      (windowLines options) = [] := by
    rw [List.drop_eq_nil_of_le hstart, List.take_nil]
  exact if_pos hnil

end Windows

section Pages

variable {Time : Type} (host : Host Time) (times : ℕ → Time) (id : String)
  (options : RetrieveOptions)

def pages : ℕ → ℕ → ℕ → Store Time → Option (List RetrievedArtifact)
  | 0, _, _, _ => none
  | fuel + 1, call, startLine, store =>
      match retrieve host store (times call) id { options with startLine := some startLine } with
      | (none, _) => none
      | (some window, store) =>
        if window.returnedEndLine = 0 then some []
        else (pages fuel (call + 1) window.returnedEndLine store).map (window :: ·)

inductive Tiles (lines : List String) (limit : ℕ) : ℕ → List RetrievedArtifact → Prop
  | done : Tiles lines limit lines.length []
  | window {start : ℕ} {window : RetrievedArtifact} {rest : List RetrievedArtifact}
      (hwindow : IsWindow lines limit start window)
      (hrest : Tiles lines limit window.returnedEndLine rest) :
      Tiles lines limit start (window :: rest)

variable {host times id options}

theorem Tiles.lines {lines : List String} {limit start : ℕ} {windows : List RetrievedArtifact}
    (h : Tiles lines limit start windows) :
    windows.flatMap (splitLines ·.text) = lines.drop start := by
  induction h with
  | done => simp
  | @window start window rest hwindow hrest ih =>
    have hstart := hwindow.returnedEndLine
    have hdrop : lines.drop window.returnedEndLine =
        (lines.drop start).drop (window.returnedEndLine - start) := by
      rw [List.drop_drop]
      congr 1
      omega
    rw [List.flatMap_cons, ih, hwindow.text, hdrop, List.take_append_drop]

theorem retrieve_live {store : Store Time} {now : Time} {entry : StoredArtifact Time}
    (hentry : store.entries.get id = some entry) (hlive : host.isExpired entry.expiresAt now = false) :
    (retrieve host store now id options).1 = some (retrieveLines id (sourceText entry.payload options)
        options (entry.payload.metadata.bind (·.identity))) ∧
      (retrieve host store now id options).2.entries.get id = some entry := by
  unfold retrieve
  rw [hentry]
  dsimp only
  rw [if_neg (by rw [hlive]; exact Bool.false_ne_true)]
  exact ⟨rfl, by simp⟩

variable {entry : StoredArtifact Time}

section

variable (hmatch : matchIndex (splitLines (sourceText entry.payload options)) options = none)
include hmatch

theorem retrieve_from {store : Store Time} {now : Time}
    (hentry : store.entries.get id = some entry)
    (hlive : host.isExpired entry.expiresAt now = false) (start : ℕ) : ∃ window store',
      retrieve host store now id { options with startLine := some (start : ℤ) } =
        (some window, store') ∧
      store'.entries.get id = some entry ∧
      (start < (splitLines (sourceText entry.payload options)).length →
        IsWindow (splitLines (sourceText entry.payload options)) (windowLines options) start window) ∧
      ((splitLines (sourceText entry.payload options)).length ≤ start →
        window.returnedEndLine = 0) := by
  obtain ⟨hwindow, hkept⟩ := @retrieve_live _ host id { options with startLine := some (start : ℤ) }
    store now entry hentry hlive
  have hfirst : windowStart (splitLines (sourceText entry.payload options))
      { options with startLine := some (start : ℤ) } = start := by
    have hnone : matchIndex (splitLines (sourceText entry.payload options))
        { options with startLine := some (start : ℤ) } = none := hmatch
    simp only [windowStart, hnone, Option.getD_some]
    omega
  have hlines := @retrieveLines_window id (sourceText entry.payload options)
    { options with startLine := some (start : ℤ) } (entry.payload.metadata.bind (·.identity))
  have hempty := @retrieveLines_empty id (sourceText entry.payload options)
    { options with startLine := some (start : ℤ) } (entry.payload.metadata.bind (·.identity))
  rw [hfirst] at hlines hempty
  exact ⟨_, _, Prod.ext hwindow rfl, hkept, hlines, hempty⟩

theorem pages_tile (hlive : ∀ call, host.isExpired entry.expiresAt (times call) = false)
    (fuel call start : ℕ) (store : Store Time) (hentry : store.entries.get id = some entry)
    (hstart : start ≤ (splitLines (sourceText entry.payload options)).length)
    (hfuel : (splitLines (sourceText entry.payload options)).length - start < fuel) :
    ∃ windows, pages host times id options fuel call start store = some windows ∧
      Tiles (splitLines (sourceText entry.payload options)) (windowLines options) start windows := by
  induction fuel generalizing call start store with
  | zero => omega
  | succ fuel ih =>
    obtain ⟨window, store', hretrieve, hkept, hlines, hempty⟩ :=
      retrieve_from hmatch hentry (hlive call) start
    rw [pages, hretrieve]
    dsimp only
    rcases Nat.lt_or_ge start (splitLines (sourceText entry.payload options)).length with hlt | hge
    · have hwindow := hlines hlt
      have hend := hwindow.limited
      have hprogress := hwindow.returnedEndLine
      obtain ⟨windows, hpages, htiles⟩ := ih (call + 1) window.returnedEndLine store' hkept
        (hend.trans_le (min_le_left _ _)) (by omega)
      refine ⟨window :: windows, ?_, .window hwindow htiles⟩
      rw [if_neg (by omega), hpages, Option.map_some]
    · refine ⟨[], if_pos (hempty hge), ?_⟩
      rw [hstart.antisymm hge]
      exact .done

end

/-- Reading an artifact window by window gives its lines, each once and in their order; a window
for a query has the first line that has the query. -/
theorem retrieve_windows (host : Host Time) (times : ℕ → Time) (id : String)
    (options : RetrieveOptions) (store : Store Time) (entry : StoredArtifact Time)
    (hentry : store.entries.get id = some entry)
    (hlive : ∀ call, host.isExpired entry.expiresAt (times call) = false) :
    (matchIndex (splitLines (sourceText entry.payload options)) options = none →
      ∃ windows, pages host times id options
          ((splitLines (sourceText entry.payload options)).length + 1) 0 0 store = some windows ∧
        Tiles (splitLines (sourceText entry.payload options)) (windowLines options) 0 windows ∧
        windows.flatMap (splitLines ·.text) = splitLines (sourceText entry.payload options)) ∧
    ∀ m, matchIndex (splitLines (sourceText entry.payload options)) options = some m →
      ∃ query line window, options.query = some query ∧
        (splitLines (sourceText entry.payload options))[m]? = some line ∧
        includes line query = true ∧
        (retrieve host store (times 0) id options).1 = some window ∧
        window.matchLine = some (m + 1) ∧
        window.returnedStartLine ≤ m + 1 ∧ m + 1 ≤ window.returnedEndLine ∧
        (splitLines window.text)[m + 1 - window.returnedStartLine]? = some line := by
  constructor
  · intro hmatch
    obtain ⟨windows, hpages, htiles⟩ := pages_tile hmatch hlive _ 0 0 store hentry (Nat.zero_le _)
      (Nat.lt_succ_of_le (Nat.sub_le _ _))
    exact ⟨windows, hpages, htiles, htiles.lines⟩
  · intro m hmatch
    obtain ⟨hwindow, -⟩ := @retrieve_live _ host id options store (times 0) entry hentry (hlive 0)
    obtain ⟨query, hquery, hfind⟩ := Option.bind_eq_some_iff.mp hmatch
    obtain ⟨hm, hincludes, -⟩ := List.findIdx?_eq_some_iff_getElem.mp hfind
    have hstart : windowStart (splitLines (sourceText entry.payload options)) options ≤ m ∧
        m < windowStart (splitLines (sourceText entry.payload options)) options +
          windowLines options := by
      simp only [windowStart, hmatch, windowLines]
      omega
    have his := @retrieveLines_window id (sourceText entry.payload options) options
      (entry.payload.metadata.bind (·.identity)) (hstart.1.trans_lt hm)
    have hend := his.limited
    refine ⟨query, _, _, (Option.filter_eq_some_iff.mp hquery).1, List.getElem?_eq_getElem hm, hincludes,
      hwindow, ?_, ?_, ?_, ?_⟩
    · rw [matchLine_retrieveLines, hmatch]
      rfl
    · rw [his.returnedStartLine]
      omega
    · omega
    · rw [his.text, his.returnedStartLine, List.getElem?_take_of_lt (by omega),
        List.getElem?_drop, ← List.getElem?_eq_getElem hm]
      congr 1
      omega

end Pages

section Runs

def countingHost : Host ℕ where
  isExpired := fun expiresAt now => decide (expiresAt ≤ now)
  later := fun now _ => now + 1
  numberText := fun _ => ""
  toLowerCase := id

def threeLines : StoredArtifact ℕ where
  payload := { text := "one\ntwo\nthree", stdout := none, stderr := none, metadata := none }
  expiresAt := 1
  serializedBytes := 24

def threeLinesStore : Store ℕ := ⟨OrderedMap.empty.set "mx_lines" threeLines, 24⟩

def twoAtATime : RetrieveOptions where
  query := none
  startLine := none
  maxLines := some 2
  contextLines := none
  stream := none

theorem retrieve_windows_threeLines : ∃ windows,
    pages countingHost (fun _ => 0) "mx_lines" twoAtATime 4 0 0 threeLinesStore = some windows ∧
      windows.flatMap (splitLines ·.text) = ["one", "two", "three"] := by
  have hlines : splitLines (sourceText threeLines.payload twoAtATime) = ["one", "two", "three"] := by
    decide
  obtain ⟨windows, hpages, -, hwindows⟩ := (retrieve_windows countingHost (fun _ => 0) "mx_lines"
    twoAtATime threeLinesStore threeLines rfl fun _ => rfl).1 rfl
  rw [hlines] at hwindows hpages
  exact ⟨windows, hpages, hwindows⟩

end Runs

section Puts

variable {Time : Type} {host : Host Time} {limits : Limits} {store store' : Store Time}
variable {id : String} {fuel : ℕ} {call : Call Time} {artifact : ArtifactPayload}
variable {suppliedId : Option String}

theorem get_removeEntry {oldest : String} (hne : id ≠ oldest) :
    (removeEntry store oldest).entries.get id = store.entries.get id := by
  unfold removeEntry
  split
  · rfl
  · exact OrderedMap.get_delete_of_ne hne

theorem get_evictByBytes {budget : ℚ} (h : evictByBytes host budget id fuel store = .ok store') :
    store'.entries.get id = store.entries.get id := by
  fun_induction evictByBytes host budget id fuel store with
  | case2 => cases h
  | case3 _ store _ oldest holdest ih =>
    have hne : oldest ≠ id := by simpa using List.find?_some holdest
    rw [ih h, get_removeEntry hne.symm]
  | _ =>
    cases h
    rfl

/-- The newest entry is not evicted, nor is any while there are few enough. -/
theorem get_evictByCount {maxEntries : ℤ} {stored : StoredArtifact Time} (hpos : 0 < maxEntries)
    (h : store.entries.size ≤ maxEntries ∨ store.entries.entries.getLast? = some (id, stored))
    (hget : store.entries.get id = some stored) :
    (evictByCount maxEntries fuel store).entries.get id = some stored := by
  fun_induction evictByCount maxEntries fuel store with
  | case3 fuel store hmany oldest holdest ih =>
    obtain ⟨older, hentries⟩ := List.getLast?_eq_some_iff.mp (h.resolve_left (not_le.mpr hmany))
    have hne : id ≠ oldest := by
      rintro rfl
      have hnodup := store.entries.nodup
      cases older with
      | nil =>
        simp only [OrderedMap.size, hentries, List.nil_append, List.length_singleton] at hmany
        omega
      | cons entry older =>
        simp only [OrderedMap.oldest, OrderedMap.keys, hentries] at holdest hnodup
        simp_all
    refine ih (Or.inr ?_) ((get_removeEntry hne).trans hget)
    obtain ⟨_, hstored⟩ := Option.ne_none_iff_exists'.mp fun hnone =>
      OrderedMap.get_eq_none_iff.mp hnone (OrderedMap.mem_keys_of_oldest holdest)
    rw [removeEntry_eq hstored]
    simp [OrderedMap.delete, OrderedMap.filter, hentries, hne]
  | _ => exact hget

theorem get_of_putArtifact (haccounted : Accounted limits store)
    (h : putArtifact host limits store call artifact suppliedId = (.ok id, store')) :
    store'.entries.get id = some (boundedFor host limits call artifact) := by
  rw [get_evictByBytes (putArtifact_ok h)]
  refine get_evictByCount limits.maxEntries_pos ?_ (OrderedMap.get_set_self ..)
  have hexpired := @Accounted.deleteExpired _ host _ _ haccounted call.now
  by_cases hmem : id ∈ (deleteExpired host store call.now).entries.keys
  · -- an id that is there keeps its place, which may be the oldest one
    have hsize := OrderedMap.size_set_of_mem hmem
    exact Or.inl (by simpa [setEntry, hsize] using hexpired.size_le)
  · refine Or.inr ?_
    simp [setEntry, OrderedMap.set, OrderedMap.setEntries_of_not_mem hmem]

/-- In every store that operations lead to, an artifact that was put can be read back. -/
theorem retrieve_of_put (operations : List (Operation Time)) (options : RetrieveOptions) {now : Time}
    (h : putArtifact host limits (operations.foldl (apply host limits) Store.empty) call artifact
      suppliedId = (.ok id, store'))
    (hlive : host.isExpired (host.later call.now limits.ttlMs) now = false) :
    let bounded := (boundedFor host limits call artifact).payload
    (retrieve host store' now id options).1 = some (retrieveLines id (sourceText bounded options)
      options (bounded.metadata.bind (·.identity))) :=
  (retrieve_live (get_of_putArtifact (accounted_of_run host limits operations).1.last h) hlive).1

def oneLeastArtifact : Limits := ⟨0, 1, 11, 11, le_rfl, one_pos, le_rfl, le_rfl⟩

def atStart (id : String) : Call ℕ := ⟨0, .ok id, .ok ()⟩

def noText : ArtifactPayload := ⟨"", none, none, none⟩

theorem retrieve_of_put_second :
    (retrieve countingHost (putArtifact countingHost oneLeastArtifact
      ([Operation.putArtifact (atStart "1") noText none].foldl (apply countingHost oneLeastArtifact)
        Store.empty) (atStart "2") noText none).2 0 "mx_2" twoAtATime).1 =
      some (retrieveLines "mx_2" "" twoAtATime none) :=
  retrieve_of_put [Operation.putArtifact (atStart "1") noText none] twoAtATime (Prod.ext rfl rfl)
    (by decide)

end Puts

end Mottainai.ArtifactStore

import Mottainai.ArtifactStore
import Mottainai.FittingSizes

/-!
# Bounding an artifact, code point by code point

`boundArtifact` on texts as JavaScript has them. Half of a surrogate pair may stand alone in such a
text: `JSON.stringify` escapes it, and a buffer has the replacement character in its place. The
diagnostics and the identity are given by what `JSON.stringify` writes for them. Sizes grow with the
cut of a stream, so that the search for it ends with the largest one that fits.
-/

namespace Mottainai.ArtifactTexts

open JavaScriptValues JsonValues LargestFit OrderedMaps

section Texts

/-- A code point of a string: a character, or a surrogate without its other half. -/
inductive CodePoint where
  | scalar (c : Char)
  | surrogate (unit : ℕ) (lower : 0xD800 ≤ unit) (upper : unit ≤ 0xDFFF)
  deriving DecidableEq

abbrev Text : Type := List CodePoint

def points (text : String) : Text := text.toList.map .scalar

/-- The character that `Buffer.from` writes. -/
def CodePoint.encoded : CodePoint → Char
  | scalar c => c
  | surrogate _ _ _ => '\uFFFD'

/-- `Buffer.byteLength(text, "utf8")`. -/
def utf8Bytes (text : Text) : ℕ := (text.map fun point => point.encoded.utf8Size).sum

def CodePoint.escape : CodePoint → String
  | scalar c => JsonValues.escape c
  | surrogate unit _ _ => String.ofList ['\\', 'u', hexDigit (unit / 4096),
      hexDigit (unit / 256 % 16), hexDigit (unit / 16 % 16), hexDigit (unit % 16)]

/-- `JSON.stringify` of a string. -/
def quoteText (text : Text) : String := "\"" ++ concat (text.map CodePoint.escape) ++ "\""

def jsonStringBytes (text : Text) : ℕ := byteLength (quoteText text)

/-- The code points that fit into a number of bytes. -/
def fittingPoints : ℕ → Text → Text
  | _, [] => []
  | n, point :: points =>
    if point.encoded.utf8Size ≤ n then
      point :: fittingPoints (n - point.encoded.utf8Size) points
    else []

def byteOrderMark : CodePoint := .scalar '\uFEFF'

/-- What the decoder gives for bytes: it removes a byte order mark. -/
def decode (encoded : List Char) : Text :=
  match encoded.map CodePoint.scalar with
  | [] => []
  | point :: points => if point = byteOrderMark then points else point :: points

def utf8Prefix (value : Text) (maxBytes : ℤ) : Text :=
  if maxBytes ≤ 0 then []
  else if (utf8Bytes value : ℤ) ≤ maxBytes then value
  else decode ((fittingPoints maxBytes.toNat value).map CodePoint.encoded)

def fitUtf8Prefix (value : Text) (fits : Text → Bool) : Option Text :=
  searchFit (utf8Prefix value) fits ((utf8Bytes value : ℤ).toNat + 1) 0 (utf8Bytes value) none

end Texts

section Payloads

structure ArtifactMetadata where
  operation : Text
  command : Option Text
  cwd : Option Text
  summary : Option Text
  diagnostics : Option String
  identity : Option String

/-- `StoredArtifactInput`, and the payload that is made of it. -/
structure ArtifactPayload where
  text : Text
  stdout : Option Text
  stderr : Option Text
  metadata : Option ArtifactMetadata

/-- A member of an object, unless its value is `undefined`. -/
def member (key : String) (value : Option String) : List String :=
  (value.map fun value => quote key ++ ":" ++ value).toList

def object (members : List String) : String := "\x7b" ++ commaSeparated members ++ "\x7d"

def ArtifactMetadata.stringify (metadata : ArtifactMetadata) : String :=
  object (member "operation" (some (quoteText metadata.operation)) ++
    member "command" (metadata.command.map quoteText) ++
    member "cwd" (metadata.cwd.map quoteText) ++
    member "summary" (metadata.summary.map quoteText) ++
    member "diagnostics" metadata.diagnostics ++ member "identity" metadata.identity)

def ArtifactPayload.stringify (payload : ArtifactPayload) : String :=
  object (member "text" (some (quoteText payload.text)) ++
    member "stdout" (payload.stdout.map quoteText) ++
    member "stderr" (payload.stderr.map quoteText) ++
    member "metadata" (payload.metadata.map ArtifactMetadata.stringify))

def payloadBytes (payload : ArtifactPayload) : ℕ := byteLength payload.stringify

end Payloads

section Bounding

/-- Fit a string into a payload, where `set` puts it: first by adding up bytes, and if the
payload does not fit then, by trying the payloads themselves. -/
def fitString (set : Text → ArtifactPayload) (value : Text) (maxBytes : ℚ) : Option Text :=
  let fixedBytes : ℤ := payloadBytes (set []) - byteLength "\"\""
  let best := fitUtf8Prefix value fun candidate =>
    decide (((fixedBytes + jsonStringBytes candidate : ℤ) : ℚ) ≤ maxBytes)
  match best.filter fun best => decide ((payloadBytes (set best) : ℚ) ≤ maxBytes) with
  | some best => some best
  | none => fitUtf8Prefix value fun candidate =>
      decide ((payloadBytes (set candidate) : ℚ) ≤ maxBytes)

def boundMetadata (payload : ArtifactPayload) (metadata : ArtifactMetadata) (maxBytes : ℚ) :
    Option ArtifactMetadata :=
  let fit (set : Text → ArtifactMetadata) (value : Text) : Option Text :=
    fitString (fun text => { payload with metadata := some (set text) }) value maxBytes
  let fits (metadata : ArtifactMetadata) : Bool :=
    decide ((payloadBytes { payload with metadata := some metadata } : ℚ) ≤ maxBytes)
  let empty : ArtifactMetadata := ⟨[], none, none, none, none, none⟩
  (fit (fun text => { empty with operation := text }) metadata.operation).map fun operation =>
    let bounded := { empty with operation := operation }
    let command := metadata.command.bind (fit fun text => { bounded with command := some text })
    let bounded := { bounded with command := command }
    let cwd := metadata.cwd.bind (fit fun text => { bounded with cwd := some text })
    let bounded := { bounded with cwd := cwd }
    let summary := metadata.summary.bind (fit fun text => { bounded with summary := some text })
    let bounded := { bounded with summary := summary }
    let diagnostics := metadata.diagnostics.filter fun diagnostics =>
      fits { bounded with diagnostics := some diagnostics }
    let bounded := { bounded with diagnostics := diagnostics }
    let identity := metadata.identity.filter fun identity =>
      fits { bounded with identity := some identity }
    { bounded with identity := identity }

variable (numberText : ℚ → String)

def truncationFooter (rawBytes : ℕ) (maxBytes : ℚ) : Text :=
  points ("\n⋯ artifact truncated bytes=" ++ toString rawBytes ++ " max=" ++ numberText maxBytes ++
    " ⋯")

def fitText (payload : ArtifactPayload) (originalText : Text) (maxBytes : ℚ) : Text :=
  let footer := truncationFooter numberText (utf8Bytes originalText) maxBytes
  let fixedBytes : ℤ := payloadBytes { payload with text := [] } - byteLength "\"\""
  let best := (fitUtf8Prefix originalText fun candidate =>
    decide (((fixedBytes + jsonStringBytes (candidate ++ footer) : ℤ) : ℚ) ≤ maxBytes)).map
      (· ++ footer)
  match best.filter fun best =>
      decide ((payloadBytes { payload with text := best } : ℚ) ≤ maxBytes) with
  | some best => best
  | none => (fitUtf8Prefix originalText fun candidate =>
      decide ((payloadBytes { payload with text := candidate } : ℚ) ≤ maxBytes)).getD []

def dropUntilFits (maxBytes : ℚ) : List (ArtifactPayload → ArtifactPayload) → ArtifactPayload →
    ArtifactPayload
  | [], payload => payload
  | drop :: drops, payload =>
      if (payloadBytes payload : ℚ) ≤ maxBytes then payload
      else dropUntilFits maxBytes drops (drop payload)

def dropOrder : List (ArtifactPayload → ArtifactPayload) :=
  [fun payload => { payload with metadata := none }, fun payload => { payload with stderr := none },
    fun payload => { payload with stdout := none }]

/-- The last steps of `boundArtifact`, which keep the operation if it fits. -/
def boundText (operation : Option Text) (payload : ArtifactPayload) (maxBytes : ℚ) :
    ArtifactPayload :=
  let minimalMetadata : Option ArtifactMetadata :=
    operation.map fun operation => ⟨operation, none, none, none, none, none⟩
  let payload :=
    if (payloadBytes payload : ℚ) ≤ maxBytes then payload
    else
      { payload with
        text := fitText numberText { payload with text := [], metadata := minimalMetadata }
          payload.text maxBytes
        metadata := none }
  if payload.metadata.isNone ∧
      (payloadBytes { payload with metadata := minimalMetadata } : ℚ) ≤ maxBytes then
    { payload with metadata := minimalMetadata }
  else payload

/-- `fitStringField` for `stdout`. -/
def fitStdout (artifact : ArtifactPayload) (maxBytes : ℚ) : Option Text :=
  artifact.stdout.bind fun value =>
    fitString (fun text => { artifact with stdout := some text }) value maxBytes

/-- `fitStringField` for `stderr`. -/
def fitStderr (artifact : ArtifactPayload) (maxBytes : ℚ) : Option Text :=
  artifact.stderr.bind fun value =>
    fitString (fun text => { artifact with stderr := some text }) value maxBytes

def boundArtifact (artifact : ArtifactPayload) (maxBytes : ℚ) : ArtifactPayload :=
  if (payloadBytes artifact : ℚ) ≤ maxBytes then artifact
  else
    let payload := { artifact with stdout := fitStdout artifact maxBytes }
    let payload := { payload with stderr := fitStderr payload maxBytes }
    let metadata := payload.metadata.bind fun metadata => boundMetadata payload metadata maxBytes
    let payload := dropUntilFits maxBytes dropOrder { payload with metadata := metadata }
    boundText numberText (artifact.metadata.map (·.operation)) payload maxBytes

end Bounding

section Insertions

structure SizeLimits where
  maxBytes : ℚ
  aggregateByteBudget : ℚ
  minArtifactBytes_le_maxBytes : 11 ≤ maxBytes
  minArtifactBytes_le_budget : 11 ≤ aggregateByteBudget

variable (numberText : ℚ → String)

/-- Evict the oldest entries but `resolvedId` while they take too many bytes. The entries are given
by their bytes. -/
def evictByBytes (budget : ℚ) (resolvedId : String) :
    ℕ → OrderedMap String ℕ → Except String (OrderedMap String ℕ)
  | 0, entries => .ok entries
  | fuel + 1, entries =>
      if budget < entries.total fun bytes => bytes then
        match entries.keys.find? fun id => decide (id ≠ resolvedId) with
        | none => .error ("artifact payload cannot fit within aggregateByteBudget=" ++
            numberText budget)
        | some oldest => evictByBytes budget resolvedId fuel (entries.delete oldest)
      else .ok entries

def evictByCount (maxEntries : ℤ) : ℕ → OrderedMap String ℕ → OrderedMap String ℕ
  | 0, entries => entries
  | fuel + 1, entries =>
      if maxEntries < entries.size then
        match entries.oldest with
        | none => entries
        | some oldest => evictByCount maxEntries fuel (entries.delete oldest)
      else entries

/-- The steps of `putArtifact` that may throw a `RangeError`, on the entries that have not
expired. -/
def stageBytes (limits : SizeLimits) (maxEntries : ℤ) (entries : OrderedMap String ℕ)
    (artifact : ArtifactPayload) (resolvedId : String) :
    Except String (OrderedMap String ℕ) := do
  let bounded := boundArtifact numberText artifact (min limits.maxBytes limits.aggregateByteBudget)
  let serializedBytes := payloadBytes bounded
  require ((serializedBytes : ℚ) ≤ limits.maxBytes)
    ("artifact payload cannot fit within maxBytes=" ++ numberText limits.maxBytes)
  require ((serializedBytes : ℚ) ≤ limits.aggregateByteBudget)
    ("artifact payload cannot fit within aggregateByteBudget=" ++
      numberText limits.aggregateByteBudget)
  let staged := entries.set resolvedId serializedBytes
  let staged := evictByCount maxEntries staged.size staged
  evictByBytes numberText limits.aggregateByteBudget resolvedId staged.size staged

end Insertions

section Sizes

def escapedPoints (text : Text) : ℕ := (text.map fun point => byteLength point.escape).sum

theorem jsonStringBytes_eq (text : Text) : jsonStringBytes text = escapedPoints text + 2 := by
  have hone : byteLength "\"" = 1 := rfl
  simp only [jsonStringBytes, quoteText, byteLength_append, byteLength_concat, List.map_map, hone,
    escapedPoints]
  change 1 + (text.map fun point => byteLength point.escape).sum + 1 = _
  omega

@[simp] theorem jsonStringBytes_nil : jsonStringBytes [] = 2 := jsonStringBytes_eq []

def memberBytes (key : String) (value : Option String) : ℕ :=
  ((member key value).map fun part => byteLength part + 1).sum

@[simp] theorem memberBytes_none (key : String) : memberBytes key none = 0 := rfl

@[simp] theorem memberBytes_some (key value : String) :
    memberBytes key (some value) = byteLength (quote key) + byteLength value + 2 := by
  have hone : byteLength ":" = 1 := rfl
  simp only [memberBytes, member, Option.map_some, Option.toList_some, List.map_cons, List.map_nil,
    List.sum_cons, List.sum_nil, byteLength_append, hone]
  omega

variable (payload : ArtifactPayload)

theorem payloadBytes_eq :
    payloadBytes payload = 9 + jsonStringBytes payload.text +
      memberBytes "stdout" (payload.stdout.map quoteText) +
      memberBytes "stderr" (payload.stderr.map quoteText) +
      memberBytes "metadata" (payload.metadata.map ArtifactMetadata.stringify) := by
  have hopen : byteLength "\x7b" = 1 := rfl
  have hclose : byteLength "\x7d" = 1 := rfl
  have htext : byteLength (quote "text") = 6 := by decide
  have hmember : member "text" (some (quoteText payload.text)) =
      [quote "text" ++ ":" ++ quoteText payload.text] := rfl
  have hcomma := byteLength_commaSeparated (quote "text" ++ ":" ++ quoteText payload.text)
    (member "stdout" (payload.stdout.map quoteText) ++
      member "stderr" (payload.stderr.map quoteText) ++
      member "metadata" (payload.metadata.map ArtifactMetadata.stringify))
  have hcolon : byteLength ":" = 1 := rfl
  simp only [payloadBytes, ArtifactPayload.stringify, object, hmember, List.nil_append,
    List.cons_append, List.append_assoc, byteLength_append, hopen, hclose, jsonStringBytes,
    memberBytes] at hcomma ⊢
  simp only [List.map_cons, List.map_append, List.sum_cons, List.sum_append, byteLength_append,
    htext, hcolon] at hcomma
  omega

theorem payloadBytes_without_metadata_le (metadata : Option ArtifactMetadata) :
    payloadBytes { payload with metadata := none } ≤
      payloadBytes { payload with metadata := metadata } := by
  rw [payloadBytes_eq, payloadBytes_eq]
  simp

theorem payloadBytes_stdout (text : Text) :
    payloadBytes { payload with stdout := some text } =
      payloadBytes { payload with stdout := none } + 10 + jsonStringBytes text := by
  have hkey : byteLength (quote "stdout") = 8 := by decide
  rw [payloadBytes_eq, payloadBytes_eq]
  simp only [Option.map_some, Option.map_none, memberBytes_some, memberBytes_none, hkey,
    jsonStringBytes]
  omega

theorem payloadBytes_stderr (text : Text) :
    payloadBytes { payload with stderr := some text } =
      payloadBytes { payload with stderr := none } + 10 + jsonStringBytes text := by
  have hkey : byteLength (quote "stderr") = 8 := by decide
  rw [payloadBytes_eq, payloadBytes_eq]
  simp only [Option.map_some, Option.map_none, memberBytes_some, memberBytes_none, hkey,
    jsonStringBytes]
  omega

end Sizes

section Cuts

theorem fittingPoints_prefix (n : ℕ) (value : Text) : fittingPoints n value <+: value := by
  induction value generalizing n with
  | nil => exact List.prefix_rfl
  | cons point points ih =>
    unfold fittingPoints
    split
    · exact (List.prefix_cons_inj point).mpr (ih _)
    · exact List.nil_prefix

theorem fittingPoints_mono {n m : ℕ} (h : n ≤ m) (value : Text) :
    fittingPoints n value <+: fittingPoints m value := by
  induction value generalizing n m with
  | nil => exact List.prefix_rfl
  | cons point points ih =>
    unfold fittingPoints
    by_cases hn : point.encoded.utf8Size ≤ n
    · rw [if_pos hn, if_pos (hn.trans h)]
      exact (List.prefix_cons_inj point).mpr (ih (Nat.sub_le_sub_right h _))
    · rw [if_neg hn]
      exact List.nil_prefix

theorem fittingPoints_zero (value : Text) : fittingPoints 0 value = [] := by
  cases value with
  | nil => rfl
  | cons point points =>
    rw [fittingPoints, if_neg]
    have := point.encoded.utf8Size_pos
    omega

variable {value : Text} {text text' : Text}

theorem utf8Bytes_eq_zero (h : utf8Bytes value = 0) : value = [] := by
  cases value with
  | nil => rfl
  | cons point points =>
    have := point.encoded.utf8Size_pos
    simp only [utf8Bytes, List.map_cons, List.sum_cons] at h
    omega

theorem decode_sublist (text : Text) :
    (decode (text.map CodePoint.encoded)).Sublist
      (text.map fun point => .scalar point.encoded) := by
  have hmap : (text.map CodePoint.encoded).map CodePoint.scalar =
      text.map fun point => .scalar point.encoded := List.map_map
  unfold decode
  rw [hmap]
  split
  · exact List.nil_sublist _
  · rename_i point points heq
    rw [heq]
    split
    · exact List.sublist_cons_self _ _
    · exact List.Sublist.refl _

theorem decode_prefix (h : text <+: text') :
    decode (text.map CodePoint.encoded) <+: decode (text'.map CodePoint.encoded) := by
  obtain ⟨rest, rfl⟩ := h
  cases text with
  | nil => exact List.nil_prefix
  | cons point text =>
    simp only [decode, List.map_cons, List.cons_append, List.map_append]
    split
    · exact List.prefix_append _ _
    · exact (List.prefix_cons_inj _).mpr (List.prefix_append _ _)

theorem escape_encoded_le (point : CodePoint) :
    byteLength (CodePoint.escape (.scalar point.encoded)) ≤ byteLength point.escape := by
  cases point with
  | scalar c => exact le_rfl
  | surrogate unit lower upper =>
    have hthree : byteLength (JsonValues.escape '\uFFFD') = 3 := by decide
    have hpos := fun c : Char => c.utf8Size_pos
    simp only [CodePoint.encoded, CodePoint.escape, hthree, byteLength_ofList, List.map_cons,
      List.map_nil, List.sum_cons, List.sum_nil]
    have h1 := hpos '\\'
    have h2 := hpos 'u'
    have h3 := hpos (hexDigit (unit / 4096))
    omega

theorem escapedPoints_le_of_sublist (h : text.Sublist text') :
    escapedPoints text ≤ escapedPoints text' :=
  (h.map _).sum_le_sum fun _ _ => Nat.zero_le _

/-- A decoded cut takes no more bytes than what was cut. -/
theorem escapedPoints_decode_le (text : Text) :
    escapedPoints (decode (text.map CodePoint.encoded)) ≤ escapedPoints text := by
  refine (escapedPoints_le_of_sublist (decode_sublist text)).trans ?_
  simp only [escapedPoints, List.map_map]
  exact List.sum_le_sum fun point _ => escape_encoded_le point

theorem utf8Prefix_zero (value : Text) : utf8Prefix value 0 = [] := if_pos le_rfl

theorem utf8Prefix_cut {n : ℕ} (h : n < utf8Bytes value) :
    utf8Prefix value n = decode ((fittingPoints n value).map CodePoint.encoded) := by
  rcases Nat.eq_zero_or_pos n with rfl | hpos
  · rw [fittingPoints_zero]
    exact utf8Prefix_zero value
  · rw [utf8Prefix, if_neg (by omega), if_neg (by omega), Int.toNat_natCast]

theorem utf8Prefix_whole {n : ℤ} (h : (utf8Bytes value : ℤ) ≤ n) : utf8Prefix value n = value := by
  by_cases hpos : n ≤ 0
  · have hnil : value = [] := utf8Bytes_eq_zero (by omega)
    rw [utf8Prefix, if_pos hpos, hnil]
  · rw [utf8Prefix, if_neg hpos, if_pos h]

/-- Larger cuts take more bytes. -/
theorem jsonStringBytes_utf8Prefix_mono (value : Text) {i j : ℤ} (hi : 0 ≤ i) (hij : i ≤ j) :
    jsonStringBytes (utf8Prefix value i) ≤ jsonStringBytes (utf8Prefix value j) := by
  rw [jsonStringBytes_eq, jsonStringBytes_eq]
  refine Nat.add_le_add_right ?_ 2
  by_cases hwhole : (utf8Bytes value : ℤ) ≤ i
  · rw [utf8Prefix_whole hwhole, utf8Prefix_whole (hwhole.trans hij)]
  · lift i to ℕ using hi
    rw [utf8Prefix_cut (by omega)]
    by_cases hwhole' : (utf8Bytes value : ℤ) ≤ j
    · rw [utf8Prefix_whole hwhole']
      exact (escapedPoints_decode_le _).trans
        (escapedPoints_le_of_sublist ( fittingPoints_prefix i value).sublist)
    · lift j to ℕ using (by omega)
      rw [utf8Prefix_cut (by omega)]
      exact escapedPoints_le_of_sublist
        ( decode_prefix (fittingPoints_mono (by omega) value)).sublist

end Cuts

section Fitting

variable {maxBytes : ℚ} {set : Text → ArtifactPayload} {value : Text} {fixed : ℕ}

/-- Adding up bytes is exact, so that the first search already ends with the largest cut. -/
theorem isLargest_fitString (hset : ∀ text, payloadBytes (set text) = fixed + jsonStringBytes text)
    (value : Text) (maxBytes : ℚ) :
    IsLargest (utf8Prefix value) (fun candidate => decide ((payloadBytes (set candidate) : ℚ) ≤ maxBytes))
      (utf8Bytes value) (fitString set value maxBytes) := by
  have hfixed : ∀ candidate : Text,
      ((((payloadBytes (set []) : ℤ) - byteLength "\"\"") + jsonStringBytes candidate : ℤ) : ℚ) =
        payloadBytes (set candidate) := by
    intro candidate
    have htwo : byteLength "\"\"" = 2 := rfl
    have hint : (payloadBytes (set []) : ℤ) - byteLength "\"\"" + jsonStringBytes candidate =
        payloadBytes (set candidate) := by
      rw [hset, hset, jsonStringBytes_nil, htwo]
      push_cast
      omega
    rw [hint, Int.cast_natCast]
  have hlargest := @isLargest_search _ (utf8Prefix value)
    (fun candidate => decide ((payloadBytes (set candidate) : ℚ) ≤ maxBytes)) (utf8Bytes value)
    (by omega) (fun i j hi hij _ hfits => by
      have hmono := jsonStringBytes_utf8Prefix_mono value hi hij
      have hfits := of_decide_eq_true hfits
      rw [hset] at hfits
      refine decide_eq_true (le_trans ?_ hfits)
      rw [hset]
      exact_mod_cast Nat.add_le_add_left hmono fixed)
  have hfit : fitString set value maxBytes = fitUtf8Prefix value fun candidate =>
      decide ((payloadBytes (set candidate) : ℚ) ≤ maxBytes) := by
    unfold fitString
    simp only [hfixed]
    cases hbest : fitUtf8Prefix value fun candidate =>
        decide ((payloadBytes (set candidate) : ℚ) ≤ maxBytes) with
    | none => rfl
    | some best =>
      obtain ⟨_, _, _, _, hfits, _⟩ := hlargest.largest best hbest
      rw [Option.filter_some, if_pos hfits]
  rw [hfit]
  exact hlargest

theorem fitUtf8Prefix_fits {fits : Text → Bool} {best : Text}
    (h : fitUtf8Prefix value fits = some best) : fits best = true := by
  unfold fitUtf8Prefix at h
  refine searchFit_fits (fun a ha => ?_) h
  cases ha

theorem fitString_fits (set : Text → ArtifactPayload) {best : Text}
    (h : fitString set value maxBytes = some best) :
    (payloadBytes (set best) : ℚ) ≤ maxBytes := by
  unfold fitString at h
  dsimp only at h
  split at h
  · rename_i found hfound
    cases h
    exact of_decide_eq_true (Option.filter_eq_some_iff.mp hfound).2
  · exact of_decide_eq_true (fitUtf8Prefix_fits h)

def MetadataFits (payload : ArtifactPayload) (maxBytes : ℚ) (metadata : ArtifactMetadata) : Prop :=
  (payloadBytes { payload with metadata := some metadata } : ℚ) ≤ maxBytes

variable {payload : ArtifactPayload}

theorem metadataFits_bind (set : Option Text → ArtifactMetadata)
    (hnone : MetadataFits payload maxBytes (set none)) (value : Option Text) :
    MetadataFits payload maxBytes (set (value.bind fun value =>
      fitString (fun text => { payload with metadata := some (set (some text)) }) value
        maxBytes)) := by
  cases hfitted : value.bind fun value =>
      fitString (fun text => { payload with metadata := some (set (some text)) }) value maxBytes with
  | none => exact hnone
  | some text =>
    obtain ⟨value, -, hfit⟩ := Option.bind_eq_some_iff.mp hfitted
    exact fitString_fits (fun text => { payload with metadata := some (set (some text)) }) hfit

theorem metadataFits_filter (set : Option String → ArtifactMetadata)
    (hnone : MetadataFits payload maxBytes (set none)) (value : Option String) :
    MetadataFits payload maxBytes (set (value.filter fun value =>
      decide ((payloadBytes { payload with metadata := some (set (some value)) } : ℚ) ≤
        maxBytes))) := by
  cases hkept : value.filter fun value =>
      decide ((payloadBytes { payload with metadata := some (set (some value)) } : ℚ) ≤
        maxBytes) with
  | none => exact hnone
  | some value =>
    have hfits := of_decide_eq_true (Option.filter_eq_some_iff.mp hkept).2
    exact hfits

theorem boundMetadata_fits {metadata bounded : ArtifactMetadata}
    (h : boundMetadata payload metadata maxBytes = some bounded) :
    MetadataFits payload maxBytes bounded := by
  unfold boundMetadata at h
  dsimp only at h
  obtain ⟨operation, hoperation, rfl⟩ := Option.map_eq_some_iff.mp h
  have hbase : MetadataFits payload maxBytes ⟨operation, none, none, none, none, none⟩ :=
    fitString_fits (fun text =>
      { payload with metadata := some ⟨text, none, none, none, none, none⟩ }) hoperation
  refine metadataFits_filter (fun identity => ⟨operation, _, _, _, _, identity⟩) ?_ _
  refine metadataFits_filter (fun diagnostics => ⟨operation, _, _, _, diagnostics, none⟩) ?_ _
  refine metadataFits_bind (fun summary => ⟨operation, _, _, summary, none, none⟩) ?_ _
  refine metadataFits_bind (fun cwd => ⟨operation, _, cwd, none, none, none⟩) ?_ _
  exact metadataFits_bind (fun command => ⟨operation, command, none, none, none, none⟩) hbase _

end Fitting

section Whole

/-- A cut keeps neither a lone surrogate nor anything but byte order marks after one at its
beginning. -/
def CutsWhole (value : Text) (n : ℕ) : Prop :=
  (∀ point ∈ fittingPoints n value, ∃ c, point = .scalar c) ∧
    ((fittingPoints n value).head? = some byteOrderMark →
      ∀ point ∈ fittingPoints n value, point = byteOrderMark)

variable {text value : Text} {point : CodePoint}

theorem encoded_eq_iff : CodePoint.scalar point.encoded = point ↔ ∃ c, point = .scalar c := by
  cases point with
  | scalar c => exact ⟨fun _ => ⟨c, rfl⟩, fun _ => rfl⟩
  | surrogate unit lower upper =>
    refine ⟨fun h => ?_, fun ⟨c, h⟩ => ?_⟩
    · cases h
    · cases h

theorem encoded_byteOrderMark :
    CodePoint.scalar point.encoded = byteOrderMark ↔ point = byteOrderMark := by
  cases point with
  | scalar c => rfl
  | surrogate unit lower upper =>
    have hne : CodePoint.scalar '\uFFFD' ≠ byteOrderMark := by decide
    refine ⟨fun h => absurd h hne, fun h => ?_⟩
    cases h

theorem encoded_prefix_iff (h : text <+: value) :
    text.map (fun point => CodePoint.scalar point.encoded) <+: value ↔
      ∀ point ∈ text, ∃ c, point = .scalar c := by
  have hsame : text.map (fun point => CodePoint.scalar point.encoded) <+: value ↔
      text.map (fun point => CodePoint.scalar point.encoded) = text := by
    refine ⟨fun h' => ?_, fun heq => heq.symm ▸ h⟩
    exact (List.prefix_of_prefix_length_le h' h (by simp)).eq_of_length (by simp)
  rw [hsame]
  refine ⟨fun heq point hpoint => ?_, fun hall => ?_⟩
  · exact encoded_eq_iff.mp
      (List.map_inj_left.mp (heq.trans (List.map_id text).symm) point hpoint)
  · have hid : text.map (fun point => CodePoint.scalar point.encoded) = text.map id :=
      List.map_inj_left.mpr fun point hpoint => encoded_eq_iff.mpr (hall point hpoint)
    rw [hid, List.map_id]

theorem shifted_prefix_iff (h : byteOrderMark :: text <+: value) :
    text.map (fun point => CodePoint.scalar point.encoded) <+: value ↔
      ∀ point ∈ text, point = byteOrderMark := by
  have hgo : ∀ (text : Text) (value : Text), byteOrderMark :: text <+: value →
      (text.map (fun point => CodePoint.scalar point.encoded) <+: value ↔
        ∀ point ∈ text, point = byteOrderMark) := by
    intro text
    induction text with
    | nil => intro value _; simp
    | cons point text ih =>
      intro value hvalue
      obtain ⟨rest, rfl⟩ := hvalue
      have htail := ih (point :: text ++ rest)
      rw [List.map_cons, List.cons_append, List.cons_prefix_cons, encoded_byteOrderMark,
        List.forall_mem_cons]
      constructor
      · rintro ⟨rfl, hprefix⟩
        exact ⟨rfl, (htail ⟨rest, rfl⟩).mp hprefix⟩
      · rintro ⟨rfl, hall⟩
        exact ⟨rfl, (htail ⟨rest, rfl⟩).mpr hall⟩
  exact hgo text value h

/-- The decoder gives a part of the text back exactly for a cut without surrogates and marks. -/
theorem utf8Prefix_prefix_iff {value : Text} {n : ℕ} (h : n < utf8Bytes value) :
    utf8Prefix value n <+: value ↔ CutsWhole value n := by
  rw [utf8Prefix_cut h]
  have hcut := fittingPoints_prefix n value
  unfold CutsWhole
  generalize fittingPoints n value = text at hcut
  cases text with
  | nil => simp [decode]
  | cons point text =>
    by_cases hmark : point = byteOrderMark
    · subst hmark
      have hdecoded : decode ((byteOrderMark :: text).map CodePoint.encoded) =
          text.map fun point => CodePoint.scalar point.encoded := by
        simp only [decode, List.map_cons, if_pos (encoded_byteOrderMark.mpr rfl), List.map_map]
        rfl
      rw [hdecoded, shifted_prefix_iff hcut]
      constructor
      · intro hall
        have hmarks : ∀ point ∈ byteOrderMark :: text, point = byteOrderMark :=
          List.forall_mem_cons.mpr ⟨rfl, hall⟩
        exact ⟨fun point hpoint => ⟨_, hmarks point hpoint⟩, fun _ => hmarks⟩
      · intro hwhole point hpoint
        exact hwhole.2 rfl point (List.mem_cons_of_mem _ hpoint)
    · have hdecoded : decode ((point :: text).map CodePoint.encoded) =
          (point :: text).map fun point => CodePoint.scalar point.encoded := by
        simp only [decode, List.map_cons, if_neg (encoded_byteOrderMark.not.mpr hmark), List.map_map]
        rfl
      rw [hdecoded, encoded_prefix_iff hcut]
      refine ⟨fun hall => ⟨hall, fun hhead => ?_⟩, fun hwhole => hwhole.1⟩
      exact absurd (Option.some.inj hhead) hmark

/-- Text without lone surrogates is cut whole, unless it begins with a mark. -/
theorem cutsWhole_points {text : String} (h : text.toList.head? ≠ some '\uFEFF') (n : ℕ) :
    CutsWhole (points text) n := by
  have hcut := fittingPoints_prefix n (points text)
  refine ⟨fun point hpoint => ?_, fun hhead => absurd ?_ h⟩
  · obtain ⟨c, -, rfl⟩ := List.mem_map.mp (hcut.subset hpoint)
    exact ⟨c, rfl⟩
  · obtain ⟨rest, hrest⟩ := hcut
    have hpoints : (points text).head? = some byteOrderMark := by
      rw [← hrest, List.head?_append, hhead]
      rfl
    rw [points, List.head?_map] at hpoints
    obtain ⟨c, hc, hmark⟩ := Option.map_eq_some_iff.mp hpoints
    rw [hc, CodePoint.scalar.inj hmark]

/-- A larger cut is no better. -/
theorem CutsWhole.of_le {value : Text} {n m : ℕ} (h : CutsWhole value m) (hle : n ≤ m) :
    CutsWhole value n := by
  have hcut := fittingPoints_mono hle value
  refine ⟨fun point hpoint => h.1 point (hcut.subset hpoint), fun hhead point hpoint => ?_⟩
  refine h.2 ?_ point (hcut.subset hpoint)
  obtain ⟨rest, hrest⟩ := hcut
  rw [← hrest, List.head?_append, hhead]
  rfl

end Whole

section Streams

variable {maxBytes : ℚ} {set : Text → ArtifactPayload} {value : Text} {fixed : ℕ}
variable {payload artifact : ArtifactPayload} {numberText : ℚ → String}

theorem fitString_whole (hset : ∀ text, payloadBytes (set text) = fixed + jsonStringBytes text)
    (h : (payloadBytes (set value) : ℚ) ≤ maxBytes) : fitString set value maxBytes = some value := by
  have hlargest := isLargest_fitString hset value maxBytes
  have hwhole : utf8Prefix value (utf8Bytes value) = value := utf8Prefix_whole le_rfl
  cases hbest : fitString set value maxBytes with
  | none =>
    have hnone := hlargest.none_fits hbest (utf8Bytes value) (by omega) le_rfl
    rw [hwhole] at hnone
    exact absurd h (of_decide_eq_false hnone)
  | some best =>
    obtain ⟨i, hi, hle, rfl, -, habove⟩ := hlargest.largest best hbest
    rcases hle.lt_or_eq with hlt | rfl
    · have hnone := habove (utf8Bytes value) hlt le_rfl
      rw [hwhole] at hnone
      exact absurd h (of_decide_eq_false hnone)
    · rw [hwhole]

theorem fitString_prefix_iff (hset : ∀ text, payloadBytes (set text) = fixed + jsonStringBytes text)
    (h : ¬(payloadBytes (set value) : ℚ) ≤ maxBytes) :
    (∀ text, fitString set value maxBytes = some text → text <+: value) ↔
      ∀ n < utf8Bytes value, (payloadBytes (set (utf8Prefix value n)) : ℚ) ≤ maxBytes →
        CutsWhole value n := by
  have hlargest := isLargest_fitString hset value maxBytes
  have hcut : ∀ text, fitString set value maxBytes = some text → ∃ i : ℕ, i < utf8Bytes value ∧
      text = utf8Prefix value i ∧ (payloadBytes (set text) : ℚ) ≤ maxBytes ∧
      ∀ j : ℕ, i < j → j < utf8Bytes value →
        ¬(payloadBytes (set (utf8Prefix value j)) : ℚ) ≤ maxBytes := by
    intro text htext
    obtain ⟨i, hi, hle, rfl, hfits, habove⟩ := hlargest.largest text htext
    lift i to ℕ using hi
    have hfits := of_decide_eq_true hfits
    have hlt : i < utf8Bytes value := by
      by_contra hge
      rw [utf8Prefix_whole (by omega)] at hfits
      exact h hfits
    refine ⟨i, hlt, rfl, hfits, fun j hij hj => of_decide_eq_false ?_⟩
    exact habove j (by omega) (by omega)
  constructor
  · intro hprefix n hn hfits
    cases hbest : fitString set value maxBytes with
    | none =>
      have hnone := hlargest.none_fits hbest n (by omega) (by omega)
      exact absurd hfits (of_decide_eq_false hnone)
    | some text =>
      obtain ⟨i, hi, rfl, -, habove⟩ := hcut text hbest
      have hni : n ≤ i := by
        by_contra hlt
        exact habove n (by omega) hn hfits
      exact ((utf8Prefix_prefix_iff hi).mp ( hprefix _ hbest)).of_le hni
  · intro hwhole text htext
    obtain ⟨i, hi, rfl, hfits, -⟩ := hcut text htext
    exact (utf8Prefix_prefix_iff hi).mpr (hwhole i hi hfits)

theorem bounded_metadata_fits (h : (payloadBytes payload : ℚ) ≤ maxBytes) :
    (payloadBytes
      { payload with
        metadata := payload.metadata.bind fun metadata =>
          boundMetadata payload metadata maxBytes } : ℚ) ≤ maxBytes := by
  cases hmetadata : payload.metadata.bind fun metadata => boundMetadata payload metadata maxBytes with
  | none =>
    have hle := payloadBytes_without_metadata_le payload payload.metadata
    exact (Nat.cast_le.mpr hle).trans h
  | some bounded =>
    obtain ⟨metadata, -, hbounded⟩ := Option.bind_eq_some_iff.mp hmetadata
    exact boundMetadata_fits hbounded

/-- A fitted `stderr` leaves nothing to be cut. -/
theorem fitStderr_fits {text : Text} (h : fitStderr payload maxBytes = some text) :
    (payloadBytes { payload with stderr := some text } : ℚ) ≤ maxBytes := by
  obtain ⟨value, -, hfit⟩ := Option.bind_eq_some_iff.mp h
  exact fitString_fits (fun text => { payload with stderr := some text }) hfit

theorem fitStdout_fits {text : Text} (h : fitStdout payload maxBytes = some text) :
    (payloadBytes { payload with stdout := some text } : ℚ) ≤ maxBytes := by
  obtain ⟨value, -, hfit⟩ := Option.bind_eq_some_iff.mp h
  exact fitString_fits (fun text => { payload with stdout := some text }) hfit

theorem fitStderr_of_fits (h : (payloadBytes payload : ℚ) ≤ maxBytes) :
    fitStderr payload maxBytes = payload.stderr := by
  obtain ⟨text, stdout, stderr, metadata⟩ := payload
  cases stderr with
  | none => rfl
  | some value => exact fitString_whole (payloadBytes_stderr ⟨text, stdout, some value, metadata⟩) h

/-- What is dropped leaves a payload that fits, or one that has nothing but its text. -/
theorem dropUntilFits_spec (payload : ArtifactPayload) (maxBytes : ℚ) :
    (payloadBytes (dropUntilFits maxBytes dropOrder payload) : ℚ) ≤ maxBytes ∨
      (dropUntilFits maxBytes dropOrder payload).stdout = none ∧
        (dropUntilFits maxBytes dropOrder payload).stderr = none ∧
          (dropUntilFits maxBytes dropOrder payload).metadata = none := by
  dsimp only [dropOrder, dropUntilFits]
  split_ifs with h1 h2 h3
  · exact .inl h1
  · exact .inl h2
  · exact .inl h3
  · exact .inr ⟨rfl, rfl, rfl⟩

theorem dropUntilFits_of_fits (h : (payloadBytes payload : ℚ) ≤ maxBytes) :
    dropUntilFits maxBytes dropOrder payload = payload := if_pos h

/-- Nothing comes back that was not there. -/
theorem dropUntilFits_streams (payload : ArtifactPayload) (maxBytes : ℚ)
    (hstdout : payload.stdout = none) (hstderr : payload.stderr = none) :
    (dropUntilFits maxBytes dropOrder payload).stdout = none ∧
      (dropUntilFits maxBytes dropOrder payload).stderr = none := by
  dsimp only [dropOrder, dropUntilFits]
  split_ifs <;> exact ⟨by simp [hstdout], by simp [hstderr]⟩

theorem fitText_spec (numberText : ℚ → String) (payload : ArtifactPayload) (originalText : Text)
    (maxBytes : ℚ) :
    fitText numberText payload originalText maxBytes = [] ∨
      (payloadBytes { payload with text := fitText numberText payload originalText maxBytes } : ℚ) ≤
        maxBytes := by
  unfold fitText
  dsimp only
  split
  · rename_i best hbest
    exact .inr (of_decide_eq_true (Option.filter_eq_some_iff.mp hbest).2)
  · cases hfit : fitUtf8Prefix originalText fun candidate =>
        decide ((payloadBytes { payload with text := candidate } : ℚ) ≤ maxBytes) with
    | none => exact .inl rfl
    | some text => exact .inr (of_decide_eq_true (fitUtf8Prefix_fits hfit))

theorem boundText_streams (operation : Option Text) (payload : ArtifactPayload) (maxBytes : ℚ) :
    (boundText numberText operation payload maxBytes).stdout = payload.stdout ∧
      (boundText numberText operation payload maxBytes).stderr = payload.stderr := by
  unfold boundText
  dsimp only
  split_ifs <;> exact ⟨rfl, rfl⟩

theorem fitted_text_fits (hmax : 11 ≤ maxBytes) (hstdout : payload.stdout = none)
    (hstderr : payload.stderr = none) (metadata : Option ArtifactMetadata) (originalText : Text) :
    (payloadBytes
      { payload with
        text := fitText numberText { payload with text := [], metadata := metadata } originalText
          maxBytes
        metadata := none } : ℚ) ≤ maxBytes := by
  have hspec := fitText_spec numberText { payload with text := [], metadata := metadata }
    originalText maxBytes
  generalize fitText numberText { payload with text := [], metadata := metadata } originalText
    maxBytes = fitted at hspec ⊢
  rcases hspec with rfl | hfits
  · rw [payloadBytes_eq, hstdout, hstderr]
    simpa using hmax
  · have hle := payloadBytes_without_metadata_le { payload with text := fitted } metadata
    exact (Nat.cast_le.mpr hle).trans hfits

theorem boundText_fits (operation : Option Text) (hmax : 11 ≤ maxBytes)
    (h : (payloadBytes payload : ℚ) ≤ maxBytes ∨
      payload.stdout = none ∧ payload.stderr = none ∧ payload.metadata = none) :
    (payloadBytes (boundText numberText operation payload maxBytes) : ℚ) ≤ maxBytes := by
  unfold boundText
  dsimp only
  by_cases hfits : (payloadBytes payload : ℚ) ≤ maxBytes
  · rw [if_pos hfits]
    split_ifs with hminimal
    · exact hminimal.2
    · exact hfits
  · rw [if_neg hfits]
    obtain ⟨hstdout, hstderr, -⟩ := h.resolve_left hfits
    split_ifs with hminimal
    · exact hminimal.2
    · exact fitted_text_fits hmax hstdout hstderr _ _

/-- The steps after the streams leave these as they are, if they have made the payload fit or are
not stored. -/
theorem finished_streams (operation : Option Text)
    (h : (payloadBytes payload : ℚ) ≤ maxBytes ∨ payload.stdout = none ∧ payload.stderr = none) :
    let metadata := payload.metadata.bind fun metadata => boundMetadata payload metadata maxBytes
    let bounded := boundText numberText operation
      (dropUntilFits maxBytes dropOrder { payload with metadata := metadata }) maxBytes
    bounded.stdout = payload.stdout ∧ bounded.stderr = payload.stderr := by
  intro metadata bounded
  obtain ⟨hstdout, hstderr⟩ := @boundText_streams numberText operation
    (dropUntilFits maxBytes dropOrder { payload with metadata := metadata }) maxBytes
  rw [hstdout, hstderr]
  rcases h with hfits | ⟨hout, herr⟩
  · rw [dropUntilFits_of_fits (bounded_metadata_fits hfits)]
    exact ⟨rfl, rfl⟩
  · obtain ⟨hnone, hnone'⟩ := dropUntilFits_streams { payload with metadata := metadata } maxBytes
      hout herr
    exact ⟨hnone.trans hout.symm, hnone'.trans herr.symm⟩

/-- After `stderr` was fitted the payload fits, or no stream is left. -/
theorem fitStderr_keeps (h : (payloadBytes payload : ℚ) ≤ maxBytes ∨ payload.stdout = none) :
    (payloadBytes { payload with stderr := fitStderr payload maxBytes } : ℚ) ≤ maxBytes ∨
      payload.stdout = none ∧ fitStderr payload maxBytes = none := by
  cases herr : fitStderr payload maxBytes with
  | some text => exact .inl (fitStderr_fits herr)
  | none =>
    rcases h with hfits | hnone
    · rw [fitStderr_of_fits hfits] at herr
      rw [← herr]
      exact .inl hfits
    · exact .inr ⟨hnone, rfl⟩

theorem fitStdout_keeps (payload : ArtifactPayload) (maxBytes : ℚ) :
    (payloadBytes { payload with stdout := fitStdout payload maxBytes } : ℚ) ≤ maxBytes ∨
      fitStdout payload maxBytes = none := by
  cases hout : fitStdout payload maxBytes with
  | some text => exact .inl (fitStdout_fits hout)
  | none => exact .inr rfl

/-- What is stored of the streams of an artifact that is too large is what was fitted. -/
theorem boundArtifact_streams (h : ¬(payloadBytes artifact : ℚ) ≤ maxBytes) :
    (boundArtifact numberText artifact maxBytes).stdout = fitStdout artifact maxBytes ∧
      (boundArtifact numberText artifact maxBytes).stderr =
        fitStderr { artifact with stdout := fitStdout artifact maxBytes } maxBytes := by
  have hkept := fitStderr_keeps (fitStdout_keeps artifact maxBytes)
  rw [boundArtifact, if_neg h]
  have hfinished := @finished_streams _ _ numberText (artifact.metadata.map (·.operation)) hkept
  dsimp only at hfinished ⊢
  exact hfinished

theorem boundArtifact_fits (hmax : 11 ≤ maxBytes) :
    (payloadBytes (boundArtifact numberText artifact maxBytes) : ℚ) ≤ maxBytes := by
  by_cases h : (payloadBytes artifact : ℚ) ≤ maxBytes
  · rw [boundArtifact, if_pos h]
    exact h
  · rw [boundArtifact, if_neg h]
    exact boundText_fits _ hmax (dropUntilFits_spec _ _)

end Streams

section Insertions

variable {numberText : ℚ → String} {budget : ℚ} {id : String} {entries : OrderedMap String ℕ}

/-- An entry that fits can be kept alone. -/
theorem evictByBytes_ok {fuel : ℕ} (hbudget : 0 ≤ budget)
    (hentry : ∀ bytes, entries.get id = some bytes → (bytes : ℚ) ≤ budget) :
    ∃ staged, evictByBytes numberText budget id fuel entries = .ok staged := by
  induction fuel generalizing entries with
  | zero => exact ⟨entries, rfl⟩
  | succ fuel ih =>
    unfold evictByBytes
    split_ifs with hover
    · cases hfind : entries.keys.find? fun other => decide (other ≠ id) with
      | some oldest =>
        have hne : oldest ≠ id := by simpa using List.find?_some hfind
        refine ih fun bytes hbytes => hentry bytes ?_
        rwa [OrderedMap.get_delete_of_ne (Ne.symm hne)] at hbytes
      | none =>
        exfalso
        have honly : ∀ key ∈ entries.keys, key = id := fun key hkey => by
          simpa using List.find?_eq_none.mp hfind key hkey
        have hnodup := entries.nodup
        refine absurd hover (not_lt.mpr ?_)
        rcases hlist : entries.entries with - | ⟨⟨key, bytes⟩, rest⟩
        · simpa [OrderedMap.total, hlist] using hbudget
        · have hkey : key = id := honly key (by simp [OrderedMap.keys, hlist])
          have hrest : rest = [] := by
            cases rest with
            | nil => rfl
            | cons other rest =>
              have hother : other.1 = id := honly other.1 (by simp [OrderedMap.keys, hlist])
              rw [hlist] at hnodup
              simp [hkey, hother] at hnodup
          have hget : entries.get id = some bytes :=
            OrderedMap.get_eq_some_iff.mpr (by simp [hlist, hkey])
          simpa [OrderedMap.total, hlist, hrest] using hentry bytes hget
    · exact ⟨entries, rfl⟩

theorem get_evictByCount {maxEntries : ℤ} {fuel : ℕ} {bytes : ℕ}
    (h : (evictByCount maxEntries fuel entries).get id = some bytes) :
    entries.get id = some bytes := by
  induction fuel generalizing entries with
  | zero => exact h
  | succ fuel ih =>
    unfold evictByCount at h
    split at h
    · split at h
      · exact h
      · exact (OrderedMap.get_delete_eq_some_iff.mp (ih h)).2
    · exact h

/-- No size error is thrown. -/
theorem stageBytes_ok (numberText : ℚ → String) (limits : SizeLimits) (maxEntries : ℤ)
    (entries : OrderedMap String ℕ) (artifact : ArtifactPayload) (resolvedId : String) :
    ∃ staged, stageBytes numberText limits maxEntries entries artifact resolvedId = .ok staged := by
  have hmax : (11 : ℚ) ≤ min limits.maxBytes limits.aggregateByteBudget :=
    le_min limits.minArtifactBytes_le_maxBytes limits.minArtifactBytes_le_budget
  have hfits := @boundArtifact_fits _ artifact numberText hmax
  obtain ⟨hmaxBytes, hbudget⟩ := le_min_iff.mp hfits
  unfold stageBytes
  dsimp only
  rw [require, if_pos hmaxBytes, require, if_pos hbudget]
  refine evictByBytes_ok (by linarith [limits.minArtifactBytes_le_budget]) fun bytes hbytes => ?_
  have hget := get_evictByCount hbytes
  rw [OrderedMap.get_set_self] at hget
  cases hget
  exact hbudget

end Insertions

section Prefixes

variable {maxBytes : ℚ} {artifact : ArtifactPayload} {numberText : ℚ → String}

/-- Each stream that is stored is a part of the stream from its beginning, cut between two code
points. -/
def StreamsArePrefixes (artifact stored : ArtifactPayload) : Prop :=
  (∀ text, stored.stdout = some text → ∃ value, artifact.stdout = some value ∧ text <+: value) ∧
    ∀ text, stored.stderr = some text → ∃ value, artifact.stderr = some value ∧ text <+: value

/-- No cut of `stdout` that fits keeps what the decoder changes. -/
def StdoutCutsWhole (artifact : ArtifactPayload) (maxBytes : ℚ) : Prop :=
  ∀ value, artifact.stdout = some value → ∀ n < utf8Bytes value,
    (payloadBytes { artifact with stdout := some (utf8Prefix value n) } : ℚ) ≤ maxBytes →
      CutsWhole value n

/-- `stderr` is cut where nothing of `stdout` fits and the artifact does not fit without it. -/
def StderrCutsWhole (artifact : ArtifactPayload) (maxBytes : ℚ) : Prop :=
  (∀ value, artifact.stdout = some value →
      ¬(payloadBytes { artifact with stdout := some [] } : ℚ) ≤ maxBytes) →
    ¬(payloadBytes { artifact with stdout := none } : ℚ) ≤ maxBytes →
      ∀ value, artifact.stderr = some value → ∀ n < utf8Bytes value,
        (payloadBytes { artifact with stdout := none, stderr := some (utf8Prefix value n) } : ℚ) ≤
          maxBytes → CutsWhole value n

/-- The artifact fits, or its streams are cut where the decoder changes nothing. -/
def StreamsCutWhole (artifact : ArtifactPayload) (maxBytes : ℚ) : Prop :=
  (payloadBytes artifact : ℚ) ≤ maxBytes ∨
    StdoutCutsWhole artifact maxBytes ∧ StderrCutsWhole artifact maxBytes

theorem fitStdout_prefix_iff (h : ¬(payloadBytes artifact : ℚ) ≤ maxBytes) :
    (∀ text, fitStdout artifact maxBytes = some text →
      ∃ value, artifact.stdout = some value ∧ text <+: value) ↔
      StdoutCutsWhole artifact maxBytes := by
  obtain ⟨text, stdout, stderr, metadata⟩ := artifact
  cases stdout with
  | none => exact ⟨fun _ value hvalue => (by cases hvalue), fun _ text htext => (by cases htext)⟩
  | some value =>
    have hiff := fitString_prefix_iff
      (payloadBytes_stdout ⟨text, some value, stderr, metadata⟩) h
    constructor
    · rintro hprefix _ ⟨⟩
      refine hiff.mp fun cut hcut => ?_
      obtain ⟨_, ⟨⟩, hpart⟩ := hprefix cut hcut
      exact hpart
    · exact fun hwhole cut hcut => ⟨value, rfl, hiff.mpr (hwhole value rfl) cut hcut⟩

/-- Without a fitted `stdout` not even an empty one fits. -/
theorem fitStdout_none_iff : fitStdout artifact maxBytes = none ↔
    ∀ value, artifact.stdout = some value →
      ¬(payloadBytes { artifact with stdout := some [] } : ℚ) ≤ maxBytes := by
  obtain ⟨text, stdout, stderr, metadata⟩ := artifact
  cases stdout with
  | none => exact ⟨fun _ value hvalue => (by cases hvalue), fun _ => rfl⟩
  | some value =>
    have hlargest := isLargest_fitString
      (payloadBytes_stdout ⟨text, some value, stderr, metadata⟩) value maxBytes
    have hempty := utf8Prefix_zero value
    constructor
    · rintro hnone _ -
      have hfails := hlargest.none_fits hnone 0 le_rfl (by omega)
      rw [hempty] at hfails
      exact of_decide_eq_false hfails
    · intro hfails
      refine Option.eq_none_iff_forall_ne_some.mpr fun cut hcut => hfails value rfl ?_
      refine le_trans ?_ (fitStdout_fits hcut)
      rw [payloadBytes_stdout, payloadBytes_stdout _ cut, jsonStringBytes_nil, jsonStringBytes_eq]
      exact_mod_cast Nat.add_le_add_left (Nat.le_add_left 2 _) _

theorem fitStderr_prefix_iff :
    (∀ text, fitStderr { artifact with stdout := fitStdout artifact maxBytes } maxBytes = some text →
      ∃ value, artifact.stderr = some value ∧ text <+: value) ↔
      StderrCutsWhole artifact maxBytes := by
  unfold StderrCutsWhole
  rw [← fitStdout_none_iff]
  cases hout : fitStdout artifact maxBytes with
  | some stdout =>
    rw [fitStderr_of_fits (fitStdout_fits hout)]
    exact ⟨fun _ h => (by cases h), fun _ text htext => ⟨text, htext, List.prefix_rfl⟩⟩
  | none =>
    by_cases hfits : (payloadBytes { artifact with stdout := none } : ℚ) ≤ maxBytes
    · rw [fitStderr_of_fits hfits]
      exact ⟨fun _ _ h => absurd hfits h, fun _ text htext => ⟨text, htext, List.prefix_rfl⟩⟩
    · obtain ⟨text, stdout, stderr, metadata⟩ := artifact
      cases stderr with
      | none =>
        exact ⟨fun _ _ _ value hvalue => (by cases hvalue), fun _ text htext => (by cases htext)⟩
      | some value =>
        have hiff := fitString_prefix_iff
          (payloadBytes_stderr ⟨text, none, some value, metadata⟩) hfits
        constructor
        · rintro hprefix - - _ ⟨⟩
          refine hiff.mp fun cut hcut => ?_
          obtain ⟨_, ⟨⟩, hpart⟩ := hprefix cut hcut
          exact hpart
        · intro hwhole cut hcut
          exact ⟨value, rfl, hiff.mpr (hwhole rfl hfits value rfl) cut hcut⟩

/-- What is stored of an artifact fits, no size error is thrown, and its streams are parts of the
original ones from their beginning exactly if they are cut where the decoder changes nothing. -/
theorem boundArtifact_prefixes_iff (numberText : ℚ → String) (artifact : ArtifactPayload)
    {maxBytes : ℚ} (hmax : 11 ≤ maxBytes) :
    (payloadBytes (boundArtifact numberText artifact maxBytes) : ℚ) ≤ maxBytes ∧
      (∀ limits maxEntries entries resolvedId, ∃ staged,
        stageBytes numberText limits maxEntries entries artifact resolvedId = .ok staged) ∧
      (StreamsArePrefixes artifact (boundArtifact numberText artifact maxBytes) ↔
        StreamsCutWhole artifact maxBytes) := by
  refine ⟨boundArtifact_fits hmax, fun limits maxEntries entries resolvedId =>
    stageBytes_ok numberText limits maxEntries entries artifact resolvedId, ?_⟩
  unfold StreamsCutWhole
  by_cases h : (payloadBytes artifact : ℚ) ≤ maxBytes
  · have hsame : boundArtifact numberText artifact maxBytes = artifact := if_pos h
    rw [hsame]
    refine ⟨fun _ => .inl h, fun _ => ⟨fun text htext => ?_, fun text htext => ?_⟩⟩
    · exact ⟨text, htext, List.prefix_rfl⟩
    · exact ⟨text, htext, List.prefix_rfl⟩
  · obtain ⟨hstdout, hstderr⟩ := @boundArtifact_streams _ artifact numberText h
    unfold StreamsArePrefixes
    rw [hstdout, hstderr, fitStdout_prefix_iff h, fitStderr_prefix_iff]
    exact ⟨.inr, fun hwhole => hwhole.resolve_left h⟩

/-- Two characters of which only one fits. -/
theorem boundArtifact_prefixes_plain :
    let artifact : ArtifactPayload := ⟨[], some (points "ab"), none, none⟩
    (payloadBytes (boundArtifact (fun _ => "24") artifact 24) : ℚ) ≤ 24 ∧
      StreamsArePrefixes artifact (boundArtifact (fun _ => "24") artifact 24) := by
  intro artifact
  obtain ⟨hfits, -, hiff⟩ := boundArtifact_prefixes_iff (fun _ => "24") artifact
    (show (11 : ℚ) ≤ 24 by norm_num)
  refine ⟨hfits, hiff.mpr (.inr ⟨?_, ?_⟩)⟩
  · rintro _ ⟨⟩ n - -
    exact cutsWhole_points (by decide) n
  · intro _ _ value hvalue
    cases hvalue

/-- The byte order mark at the beginning of a stream that is cut is lost. -/
theorem boundArtifact_loses_mark :
    let artifact : ArtifactPayload := ⟨[], some (points "\uFEFFab"), none, none⟩
    ¬StreamsArePrefixes artifact (boundArtifact (fun _ => "27") artifact 27) := by
  intro artifact hprefixes
  have hstdout : (boundArtifact (fun _ => "27") artifact 27).stdout = some (points "a") := by
    decide
  obtain ⟨value, hvalue, hprefix⟩ := hprefixes.1 _ hstdout
  cases hvalue
  exact absurd hprefix (by decide)

end Prefixes

end Mottainai.ArtifactTexts

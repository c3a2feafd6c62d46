import Mathlib.Data.List.GetD
import Mathlib.Data.List.Induction
import Mathlib.Order.MinMax
import Mottainai.JavaScriptValues

/-!
# The read governor

The decision whether a read of a file may disclose what it asks for: a range of lines, a
representation of the file, or the whole of it. An allowed request is read back from the bytes in
the range that the decision returns; under an enforced policy these are within its limits.
-/

namespace Mottainai.ReadGovernor

open JavaScriptValues

section Policies

inductive ReadMode where
  | raw | outline | symbols | auto
  deriving DecidableEq

def ReadMode.text : ReadMode → String
  | .raw => "raw"
  | .outline => "outline"
  | .symbols => "symbols"
  | .auto => "auto"

def readMode? (mode : String) : Option ReadMode :=
  [ReadMode.raw, .outline, .symbols, .auto].find? fun m => m.text = mode

inductive ReadGovernorMode where
  | off | observe | warn | enforce
  deriving DecidableEq

def ReadGovernorMode.text : ReadGovernorMode → String
  | .off => "off"
  | .observe => "observe"
  | .warn => "warn"
  | .enforce => "enforce"

def readGovernorMode? (mode : String) : Option ReadGovernorMode :=
  [ReadGovernorMode.off, .observe, .warn, .enforce].find? fun m => m.text = mode

/-- A number as far as the tests for a safe integer go: an integer, or one that is none. -/
inductive Number where
  | integer (n : ℤ)
  | other

def Number.safe? (minimum : ℕ) : Number → Option ℕ
  | .integer n => if isSafeInteger n ∧ minimum ≤ n then some n.toNat else none
  | .other => none

structure ReadGovernorPolicy where
  mode : ReadGovernorMode
  maxRawLines : ℕ
  maxRawBytes : ℕ
  allowWholeFileBelowLines : ℕ
  preferAuto : Bool
  allowWholeFile : Bool

structure ReadGovernorPolicyInput where
  mode : Option String
  maxRawLines : Option Number
  maxRawBytes : Option Number
  allowWholeFileBelowLines : Option Number
  preferAuto : Option Bool
  allowWholeFile : Option Bool

/-- `DEFAULT_READ_GOVERNOR_POLICY`. -/
def defaultReadGovernorPolicy : ReadGovernorPolicy :=
  { mode := .observe, maxRawLines := 400, maxRawBytes := 16384, allowWholeFileBelowLines := 120
    preferAuto := true, allowWholeFile := false }

def resolveMode (mode : Option String) : Except String ReadGovernorMode :=
  match mode with
  | none => .ok defaultReadGovernorPolicy.mode
  | some mode => match readGovernorMode? mode with
    | some mode => .ok mode
    | none => .error ("invalid read governor mode: " ++ mode)

def resolveNumber (value : Option Number) (fallback minimum : ℕ) (field : String) :
    Except String ℕ :=
  match (value.getD (.integer fallback)).safe? minimum with
  | some n => .ok n
  | none => .error ("invalid read governor " ++ field)

def resolveReadGovernorPolicy (input : ReadGovernorPolicyInput) :
    Except String ReadGovernorPolicy := do
  let mode ← resolveMode input.mode
  let maxRawLines ← resolveNumber input.maxRawLines defaultReadGovernorPolicy.maxRawLines 1
    "maxRawLines"
  let maxRawBytes ← resolveNumber input.maxRawBytes defaultReadGovernorPolicy.maxRawBytes 1
    "maxRawBytes"
  let allowWholeFileBelowLines ← resolveNumber input.allowWholeFileBelowLines
    defaultReadGovernorPolicy.allowWholeFileBelowLines 0 "allowWholeFileBelowLines"
  return { mode := mode, maxRawLines := maxRawLines, maxRawBytes := maxRawBytes
           allowWholeFileBelowLines := allowWholeFileBelowLines
           preferAuto := input.preferAuto.getD defaultReadGovernorPolicy.preferAuto
           allowWholeFile := input.allowWholeFile.getD defaultReadGovernorPolicy.allowWholeFile }

end Policies

section Requests

structure ReadRequest where
  path : String
  mode : Option String
  startLine : Option Number
  endLine : Option Number

structure ReadFileMetadata where
  lineCount : Number
  byteSize : Number
  requestedRangeBytes : Option ℕ
  lineByteLengths : Option (List ℕ)
  workspaceBoundaryValid : Option Bool
  symlinkBoundaryValid : Option Bool

structure NormalizedReadRequest where
  path : String
  mode : ReadMode
  startLine : Option ℕ
  endLine : Option ℕ
  bounded : Bool

inductive Severity where
  | info | warning | error

structure ReadDiagnostic where
  severity : Severity
  code : String
  message : String

inductive Action where
  | allow | observe | warn | deny
  deriving DecidableEq

/-- `ReadDecision`, where the rule and the reason stand for each of their copies. -/
structure ReadDecision where
  action : Action
  allowed : Bool
  requestedMode : ReadMode
  normalizedRequest : NormalizedReadRequest
  policyMode : ReadGovernorMode
  rule : String
  reason : String
  diagnostics : List ReadDiagnostic
  suggestedNextActions : List String
  lineCount : Number
  byteSize : Number
  requestedRangeBytes : Option ℕ

structure RangeInfo where
  startLine : ℕ
  endLine : ℕ
  lineCount : ℕ
  bytes : Option ℕ

structure LineRange where
  startLine : ℕ
  endLine : ℕ

def RangeInfo.lines (range : RangeInfo) : LineRange := ⟨range.startLine, range.endLine⟩

end Requests

section Ranges

def sumLines (lengths : List ℕ) (startLine endLine : ℕ) : ℕ :=
  (List.range' startLine (endLine + 1 - startLine)).foldl (fun bytes line =>
    bytes + lengths.getD (line - 1) 0 + if startLine < line then 1 else 0) 0

def rangeBytes (metadata : ReadFileMetadata) (startLine endLine : ℕ) : Option ℕ :=
  metadata.lineByteLengths.bind fun lengths =>
    if startLine < 1 ∨ endLine < startLine ∨ lengths.length < endLine then none
    else some (sumLines lengths startLine endLine)

def explicitRange (request : ReadRequest) (metadata : ReadFileMetadata) (lineCount : ℕ) :
    Option RangeInfo :=
  if request.startLine.isNone ∧ request.endLine.isNone then none
  else do
    let startLine ← (request.startLine.getD (.integer 1)).safe? 1
    let endLine ← (request.endLine.getD (.integer (max 1 lineCount))).safe? startLine
    return { startLine := startLine, endLine := endLine, lineCount := endLine - startLine + 1
             bytes := (rangeBytes metadata startLine endLine).or metadata.requestedRangeBytes }

/-- The bytes with one more line, or `none` where there is no such line: then the sum is no
number, and exceeds nothing. -/
def nextBytes (lengths : List ℕ) (startLine line : ℕ) (bytes : Option ℕ) : Option ℕ :=
  bytes.bind fun bytes => lengths[line - 1]?.map fun length =>
    bytes + length + if line = startLine then 0 else 1

/-- The loop of `safeRange`: it adds at most a number of lines to a range that ends at a line,
and returns the last line and the bytes. -/
def growRange (lengths : List ℕ) (maxRawBytes startLine : ℕ) : ℕ → ℕ → Option ℕ → ℕ × Option ℕ
  | 0, endLine, bytes => (endLine, bytes)
  | turns + 1, endLine, bytes =>
      let next := nextBytes lengths startLine (endLine + 1) bytes
      if next.any fun n => maxRawBytes < n then (endLine, bytes)
      else growRange lengths maxRawBytes startLine turns (endLine + 1) next

def safeRange (metadata : ReadFileMetadata) (lineCount startLine : ℕ)
    (policy : ReadGovernorPolicy) : Option LineRange :=
  let actualLineCount := max 1 lineCount
  if startLine < 1 ∨ actualLineCount < startLine then none
  else
    let maximumEnd := min actualLineCount (startLine + policy.maxRawLines - 1)
    match metadata.lineByteLengths with
    | none => some ⟨startLine, maximumEnd⟩
    | some lengths =>
        let endLine := (growRange lengths policy.maxRawBytes startLine
          (maximumEnd + 1 - startLine) (startLine - 1) (some 0)).1
        if endLine < startLine then none else some ⟨startLine, endLine⟩

end Ranges

section Decisions

def normalized (request : ReadRequest) (mode : ReadMode) (range : Option LineRange) :
    NormalizedReadRequest :=
  { path := request.path, mode := mode, startLine := range.map (·.startLine)
    endLine := range.map (·.endLine), bounded := range.isSome }

def nextActions (lineCount : ℕ) (policy : ReadGovernorPolicy) : List String :=
  ["use mode:auto", "request outline", "request symbols", "search for a specific identifier",
    s!"request raw lines 1-{min (max 1 lineCount) policy.maxRawLines}"]

def actionFor (policy : ReadGovernorPolicy) : Action :=
  match policy.mode with
  | .enforce => .deny
  | .warn => .warn
  | .observe => .observe
  | .off => .allow

def severityOf : Action → Severity
  | .deny => .error
  | .warn => .warning
  | _ => .info

/-- `decision`, with the action that was found. -/
def decision (action : Action) (requestedMode : ReadMode)
    (normalizedRequest : NormalizedReadRequest) (metadata : ReadFileMetadata)
    (policy : ReadGovernorPolicy) (rule reason : String) (requestedRangeBytes : Option ℕ)
    (suggestedNextActions : List String) : ReadDecision :=
  { action := action, allowed := decide (action ≠ .deny), requestedMode := requestedMode
    normalizedRequest := normalizedRequest, policyMode := policy.mode, rule := rule
    reason := reason
    diagnostics := if action = .allow ∧ rule = "NONE" then []
      else [{ severity := severityOf action, code := rule, message := reason }]
    suggestedNextActions := suggestedNextActions, lineCount := metadata.lineCount
    byteSize := metadata.byteSize, requestedRangeBytes := requestedRangeBytes }

def allowed (requestedMode : ReadMode) (normalizedRequest : NormalizedReadRequest)
    (metadata : ReadFileMetadata) (lineCount : ℕ) (policy : ReadGovernorPolicy)
    (rule reason : String) (requestedRangeBytes : Option ℕ) : ReadDecision :=
  decision .allow requestedMode normalizedRequest metadata policy rule reason requestedRangeBytes
    (if rule = "NONE" then [] else nextActions lineCount policy)

def invalidBoundary (request : ReadRequest) (requestedMode : ReadMode)
    (metadata : ReadFileMetadata) (policy : ReadGovernorPolicy) (rule reason : String) :
    ReadDecision :=
  decision .deny requestedMode (normalized request requestedMode none) metadata policy rule reason
    none []

structure CheckedRead where
  request : ReadRequest
  metadata : ReadFileMetadata
  policy : ReadGovernorPolicy
  requestedMode : ReadMode
  lineCount : ℕ
  byteSize : ℕ
  range : Option RangeInfo

namespace CheckedRead

variable (read : CheckedRead)

def decision (mode : ReadMode) (range : Option LineRange) (rule reason : String)
    (requestedRangeBytes : Option ℕ) : ReadDecision :=
  ReadGovernor.decision (actionFor read.policy) read.requestedMode
    (normalized read.request mode range) read.metadata read.policy rule reason requestedRangeBytes
    (nextActions read.lineCount read.policy)

def denied (mode : ReadMode) (range : Option LineRange) (rule reason : String)
    (requestedRangeBytes : Option ℕ) : ReadDecision :=
  ReadGovernor.decision .deny read.requestedMode (normalized read.request mode range)
    read.metadata read.policy rule reason requestedRangeBytes
    (nextActions read.lineCount read.policy)

def allowed (mode : ReadMode) (range : Option LineRange) (rule reason : String)
    (requestedRangeBytes : Option ℕ) : ReadDecision :=
  ReadGovernor.allowed read.requestedMode (normalized read.request mode range) read.metadata
    read.lineCount read.policy rule reason requestedRangeBytes

def lines : Option LineRange := read.range.map RangeInfo.lines

def requestedRangeBytes : Option ℕ := read.range.bind (·.bytes)

def rangeWithinLimits (range : RangeInfo) : Bool :=
  decide (range.lineCount ≤ read.policy.maxRawLines) &&
    range.bytes.all fun bytes => decide (bytes ≤ read.policy.maxRawBytes)

def smallFile : Bool :=
  decide (read.lineCount ≤ read.policy.allowWholeFileBelowLines) &&
    decide (read.byteSize ≤ read.policy.maxRawBytes)

def outOfBounds (range : RangeInfo) : ReadDecision :=
  let actualLineCount := max 1 read.lineCount
  let clampedStart := min range.startLine actualLineCount
  if read.policy.mode = .enforce then
    read.denied read.requestedMode (some range.lines) "RANGE_OUT_OF_BOUNDS"
      s!"requested range ends after the file's {read.lineCount} lines" range.bytes
  else
    read.decision read.requestedMode (some ⟨clampedStart, actualLineCount⟩) "RANGE_OUT_OF_BOUNDS"
      s!"requested range ends after the file's {read.lineCount} lines; range was clamped"
      (if range.startLine ≤ actualLineCount then
        rangeBytes read.metadata range.startLine actualLineCount else some 0)

def rawRange (range : RangeInfo) : ReadDecision :=
  if read.request.startLine.isSome ∧ read.request.endLine.isNone then
    read.decision .raw (some range.lines) "RAW_RANGE_REQUIRES_END_LINE"
      "raw reads with startLine must also provide endLine" range.bytes
  else if read.rangeWithinLimits range ∨ read.policy.mode = .off then
    read.allowed .raw (some range.lines) "NONE"
      "explicit raw range is within the configured bounds" range.bytes
  else if read.policy.maxRawLines < range.lineCount then
    read.decision .raw (some range.lines) "RAW_RANGE_LINE_LIMIT"
      s!"raw range requests {range.lineCount} lines; maximum is {read.policy.maxRawLines}"
      range.bytes
  else
    let bytes := (range.bytes.map toString).getD "unknown"
    read.decision .raw (some range.lines) "RAW_RANGE_BYTE_LIMIT"
      s!"raw range requests {bytes} bytes; maximum is {read.policy.maxRawBytes}" range.bytes

def rawWholeFile : ReadDecision :=
  if read.policy.allowWholeFile ∨ read.smallFile ∨ read.policy.mode = .off then
    read.allowed .raw none "NONE" "whole-file raw is permitted by policy" (some read.byteSize)
  else if read.policy.allowWholeFileBelowLines < read.lineCount then
    read.decision .raw none "WHOLE_FILE_RAW_LINE_LIMIT"
      (s!"whole-file raw requests {read.lineCount} lines; " ++
        s!"small-file threshold is {read.policy.allowWholeFileBelowLines}")
      (some read.byteSize)
  else
    read.decision .raw none "WHOLE_FILE_RAW_BYTE_LIMIT"
      s!"whole-file raw requests {read.byteSize} bytes; maximum is {read.policy.maxRawBytes}"
      (some read.byteSize)

def selectedMode : ReadMode := if read.requestedMode = .auto then .outline else read.requestedMode

def boundedRepresentation (sourceRange : LineRange) : ReadDecision :=
  match read.range with
  | none =>
      read.allowed read.selectedMode (some sourceRange) "AUTO_BOUNDED_REPRESENTATION"
        (s!"{read.requestedMode.text} selected a bounded {read.selectedMode.text} " ++
          "representation before broad source access")
        none
  | some range =>
      let reason :=
        s!"{read.selectedMode.text} range normalized to the configured bounded disclosure limits"
      let bounded := read.allowed read.selectedMode (some sourceRange) "BOUNDED_RANGE" reason
        range.bytes
      if read.rangeWithinLimits range then bounded
      else { bounded with
        diagnostics := [{ severity := .warning, code := "BOUNDED_RANGE", message := reason }] }

def boundedSource : ReadDecision :=
  match safeRange read.metadata read.lineCount ((read.range.map (·.startLine)).getD 1)
      read.policy with
  | none =>
      read.decision read.requestedMode read.lines "NO_SAFE_BOUNDED_RANGE"
        (s!"no {read.policy.maxRawBytes}-byte bounded range is available for " ++
          read.requestedMode.text)
        read.requestedRangeBytes
  | some sourceRange => read.boundedRepresentation sourceRange

/-- A request for the file, without a range, in another mode than `raw`. -/
def wholeRepresentation : ReadDecision :=
  if read.smallFile ∨ read.policy.allowWholeFile then
    read.allowed (if read.requestedMode = .auto then .raw else read.requestedMode) none "NONE"
      "representation is within the small-file threshold" (some read.byteSize)
  else read.boundedSource

/-- A request for a range in another mode than `raw`. -/
def rangeRepresentation (range : RangeInfo) : ReadDecision :=
  if read.requestedMode = .auto ∧ read.rangeWithinLimits range ∧ read.request.endLine.isSome then
    read.allowed .raw (some range.lines) "NONE" "auto selected a bounded raw range" range.bytes
  else read.boundedSource

def decide : ReadDecision :=
  match read.range with
  | none => if read.requestedMode = .raw then read.rawWholeFile else read.wholeRepresentation
  | some range =>
      if max 1 read.lineCount < range.endLine then read.outOfBounds range
      else if read.requestedMode = .raw then read.rawRange range
      else read.rangeRepresentation range

end CheckedRead

def requestedMode (request : ReadRequest) (policy : ReadGovernorPolicy) :
    Except String ReadMode :=
  match request.mode with
  | none => .ok (if policy.preferAuto then .auto else .raw)
  | some mode => match readMode? mode with
    | some mode => .ok mode
    | none => .error ("invalid read mode: " ++ mode)

def decideChecked (request : ReadRequest) (metadata : ReadFileMetadata)
    (policy : ReadGovernorPolicy) (mode : ReadMode) (lineCount byteSize : ℕ) : ReadDecision :=
  let range := explicitRange request metadata lineCount
  if (request.startLine.isSome ∨ request.endLine.isSome) ∧ range.isNone then
    invalidBoundary request mode metadata policy "INVALID_RANGE"
      "startLine and endLine must be valid bounded lines"
  else
    CheckedRead.decide
      { request := request, metadata := metadata, policy := policy, requestedMode := mode
        lineCount := lineCount, byteSize := byteSize, range := range }

def decideBoundaries (request : ReadRequest) (metadata : ReadFileMetadata)
    (policy : ReadGovernorPolicy) (mode : ReadMode) : ReadDecision :=
  if metadata.workspaceBoundaryValid = some false then
    invalidBoundary request mode metadata policy "WORKSPACE_BOUNDARY_INVALID"
      "workspace boundary is invalid"
  else if metadata.symlinkBoundaryValid = some false then
    invalidBoundary request mode metadata policy "SYMLINK_BOUNDARY_INVALID"
      "symlink boundary is invalid"
  else match metadata.lineCount.safe? 0, metadata.byteSize.safe? 0 with
    | some lineCount, some byteSize =>
        decideChecked request metadata policy mode lineCount byteSize
    | _, _ =>
        invalidBoundary request mode metadata policy "INVALID_FILE_METADATA"
          "file metadata is invalid"

def decideRead (request : ReadRequest) (metadata : ReadFileMetadata)
    (inputPolicy : ReadGovernorPolicyInput) : Except String ReadDecision := do
  let policy ← resolveReadGovernorPolicy inputPolicy
  let mode ← requestedMode request policy
  return decideBoundaries request metadata policy mode

end Decisions

section Adapters

def lineFeed : UInt8 := 0x0a

/-- What `scanFile` does at a byte: the lengths of the lines that have ended, and that of the
current one. -/
def scanByte (scanned : List ℕ × ℕ) (byte : UInt8) : List ℕ × ℕ :=
  if byte = lineFeed then (scanned.1 ++ [scanned.2], 0) else (scanned.1, scanned.2 + 1)

/-- The lengths of the lines of a file, as `scanFile` collects them. -/
def scanFile (content : List UInt8) : List ℕ :=
  let scanned := content.foldl scanByte ([], 0)
  if scanned.1 = [] ∨ content.getLast? ≠ some lineFeed then scanned.1 ++ [scanned.2]
  else scanned.1

/-- The evidence that `inspectReadFile` returns. -/
def inspectReadFile (content : List UInt8) : ReadFileMetadata :=
  { lineCount := .integer (scanFile content).length, byteSize := .integer content.length
    requestedRangeBytes := none, lineByteLengths := some (scanFile content)
    workspaceBoundaryValid := none, symlinkBoundaryValid := none }

def lineStartByte (lengths : List ℕ) (line : ℕ) : ℕ :=
  (lengths.take (line - 1)).foldl (fun offset length => offset + (length + 1)) 0

def readAuthorizedRange (content : List UInt8) (lengths : List ℕ) (startLine endLine : ℕ) :
    List UInt8 :=
  if lengths.length < startLine then []
  else
    let startByte := lineStartByte lengths startLine
    let endByte := lineStartByte lengths endLine + lengths.getD (endLine - 1) 0
    (content.drop startByte).take (endByte - startByte)

def readAuthorizedContent (content : List UInt8) (lengths : List ℕ)
    (request : NormalizedReadRequest) : List UInt8 :=
  match request.startLine, request.endLine with
  | some startLine, some endLine => readAuthorizedRange content lengths startLine endLine
  | _, _ => content

end Adapters

section Sums

variable {lengths : List ℕ} {startLine endLine : ℕ}

theorem sumLines_self :
    sumLines lengths startLine startLine = lengths.getD (startLine - 1) 0 := by
  have hone : startLine + 1 - startLine = 1 := by omega
  simp [sumLines, hone, List.range'_one]

theorem sumLines_succ (h : startLine ≤ endLine) :
    sumLines lengths startLine (endLine + 1) =
      sumLines lengths startLine endLine + lengths.getD endLine 0 + 1 := by
  have hsucc : endLine + 1 + 1 - startLine = endLine + 1 - startLine + 1 := by omega
  have hlast : startLine + (endLine + 1 - startLine) = endLine + 1 := by omega
  have hlt : startLine < endLine + 1 := by omega
  rw [sumLines, hsucc, List.range'_1_concat, List.foldl_append, hlast]
  simp [sumLines, hlt]

theorem lineStartByte_succ {line : ℕ} (h : line ≤ lengths.length) (hline : 1 ≤ line) :
    lineStartByte lengths (line + 1) =
      lineStartByte lengths line + (lengths.getD (line - 1) 0 + 1) := by
  have hlt : line - 1 < lengths.length := by omega
  have hsucc : line + 1 - 1 = line - 1 + 1 := by omega
  rw [lineStartByte, hsucc, List.take_add_one, List.foldl_append, List.getElem?_eq_getElem hlt,
    List.getD_eq_getElem _ _ hlt]
  rfl

theorem lineStartByte_add_sumLines (hstart : 1 ≤ startLine) (hle : startLine ≤ endLine)
    (hend : endLine ≤ lengths.length) :
    lineStartByte lengths endLine + lengths.getD (endLine - 1) 0 =
      lineStartByte lengths startLine + sumLines lengths startLine endLine := by
  induction endLine, hle using Nat.le_induction with
  | base => rw [sumLines_self]
  | succ line hline ih =>
    have hbefore := ih (by omega)
    rw [lineStartByte_succ (by omega) (by omega), sumLines_succ hline]
    simp only [Nat.add_sub_cancel]
    omega

end Sums

section Ranges

theorem growRange_spec (lengths : List ℕ) (maxRawBytes : ℕ) {startLine : ℕ}
    (hstart : 1 ≤ startLine) (turns endLine : ℕ) (bytes : Option ℕ)
    (hturns : endLine + turns ≤ lengths.length)
    (hbytes : (endLine + 1 = startLine ∧ bytes = some 0) ∨
      (startLine ≤ endLine ∧ bytes = some (sumLines lengths startLine endLine) ∧
        sumLines lengths startLine endLine ≤ maxRawBytes)) :
    (growRange lengths maxRawBytes startLine turns endLine bytes).1 ≤ endLine + turns ∧
      ((growRange lengths maxRawBytes startLine turns endLine bytes).1 + 1 = startLine ∨
        sumLines lengths startLine (growRange lengths maxRawBytes startLine turns endLine bytes).1 ≤
          maxRawBytes) := by
  induction turns generalizing endLine bytes with
  | zero =>
    refine ⟨le_rfl, ?_⟩
    rcases hbytes with ⟨hfirst, -⟩ | ⟨-, -, hle⟩
    · exact .inl hfirst
    · exact .inr hle
  | succ turns ih =>
    have hlt : endLine < lengths.length := by omega
    have hnext : nextBytes lengths startLine (endLine + 1) bytes =
        some (sumLines lengths startLine (endLine + 1)) := by
      have hget : lengths[endLine]? = some (lengths.getD endLine 0) := by
        rw [List.getElem?_eq_getElem hlt, List.getD_eq_getElem _ _ hlt]
      rcases hbytes with ⟨hfirst, rfl⟩ | ⟨hle, rfl, -⟩
      · subst hfirst
        rw [sumLines_self]
        simp only [nextBytes, Nat.add_sub_cancel, hget, if_true, Option.bind_some,
          Option.map_some, Nat.zero_add, Nat.add_zero]
      · have hne : ¬ endLine + 1 = startLine := by omega
        rw [sumLines_succ hle]
        simp only [nextBytes, Nat.add_sub_cancel, hget, hne, if_false, Option.bind_some,
          Option.map_some]
    rw [growRange, hnext]
    simp only [Option.any_some, decide_eq_true_eq]
    split_ifs with hexceeds
    · refine ⟨by omega, ?_⟩
      rcases hbytes with ⟨hfirst, -⟩ | ⟨-, -, hle⟩
      · exact .inl hfirst
      · exact .inr hle
    · have hcontinue := ih (endLine + 1) _ (by omega)
        (.inr ⟨by rcases hbytes with ⟨hfirst, -⟩ | ⟨hle, -, -⟩ <;> omega, rfl,
          Nat.le_of_not_lt hexceeds⟩)
      refine ⟨?_, hcontinue.2⟩
      have hle := hcontinue.1
      omega

end Ranges

section Decisions

/-- What a request discloses of a file whose lines have the lengths: a range within the limits of
the policy, or the whole of a small file. -/
inductive Discloses (policy : ReadGovernorPolicy) (lengths : List ℕ) (byteSize : ℕ)
    (request : NormalizedReadRequest) : Prop where
  | range (startLine endLine : ℕ) (hstart : request.startLine = some startLine)
      (hend : request.endLine = some endLine) (hfirst : 1 ≤ startLine)
      (hle : startLine ≤ endLine) (hlast : endLine ≤ lengths.length)
      (hlines : endLine + 1 - startLine ≤ policy.maxRawLines)
      (hbytes : sumLines lengths startLine endLine ≤ policy.maxRawBytes)
  | wholeFile (hstart : request.startLine = none)
      (hlines : lengths.length ≤ policy.allowWholeFileBelowLines)
      (hbytes : byteSize ≤ policy.maxRawBytes)

theorem explicitRange_spec {request : ReadRequest} {metadata : ReadFileMetadata} {lineCount : ℕ}
    {range : RangeInfo} (h : explicitRange request metadata lineCount = some range) :
    1 ≤ range.startLine ∧ range.startLine ≤ range.endLine ∧
      range.lineCount = range.endLine - range.startLine + 1 ∧
      range.bytes = (rangeBytes metadata range.startLine range.endLine).or
        metadata.requestedRangeBytes := by
  have hsafe : ∀ {number : Number} {minimum n : ℕ}, number.safe? minimum = some n → minimum ≤ n := by
    intro number minimum n hn
    cases number with
    | other => cases hn
    | integer m =>
      simp only [Number.safe?] at hn
      split_ifs at hn with hm
      obtain rfl : m.toNat = n := Option.some.inj hn
      omega
  unfold explicitRange at h
  split_ifs at h
  simp only [Option.bind_eq_bind, Option.bind_eq_some_iff, Option.pure_def, Option.some.injEq] at h
  obtain ⟨startLine, hstart, endLine, hend, rfl⟩ := h
  exact ⟨hsafe hstart, hsafe hend, rfl, rfl⟩

/-- A read whose evidence has the lengths of the lines, and whose policy is enforced and does not
allow whole files. -/
structure Enforced (read : CheckedRead) (lengths : List ℕ) : Prop where
  lengths_eq : read.metadata.lineByteLengths = some lengths
  lineCount_eq : read.lineCount = lengths.length
  lineCount_pos : 1 ≤ lengths.length
  range_eq : read.range = explicitRange read.request read.metadata read.lineCount
  mode_eq : read.policy.mode = .enforce
  allowWholeFile_eq : read.policy.allowWholeFile = false

variable {read : CheckedRead} {lengths : List ℕ} {range : RangeInfo}

theorem Enforced.decision_denies (h : Enforced read lengths) {mode : ReadMode}
    {lines : Option LineRange} {rule reason : String} {bytes : Option ℕ} :
    (read.decision mode lines rule reason bytes).allowed = false := by
  simp [CheckedRead.decision, decision, actionFor, h.mode_eq]

variable {request : NormalizedReadRequest}

variable (h : Enforced read lengths)
include h

theorem Enforced.discloses_range (hrange : read.range = some range)
    (hend : range.endLine ≤ lengths.length) (hlimits : read.rangeWithinLimits range = true)
    (hstartLine : request.startLine = some range.startLine)
    (hendLine : request.endLine = some range.endLine) :
    Discloses read.policy lengths read.byteSize request := by
  rw [h.range_eq] at hrange
  obtain ⟨hfirst, hle, hcount, hbytes⟩ := explicitRange_spec hrange
  have hsum : range.bytes = some (sumLines lengths range.startLine range.endLine) := by
    have hin : ¬ (range.startLine < 1 ∨ range.endLine < range.startLine ∨
        lengths.length < range.endLine) := by omega
    rw [hbytes, rangeBytes, h.lengths_eq, Option.bind_some, if_neg hin, Option.some_or]
  simp only [CheckedRead.rangeWithinLimits, hsum, hcount, Bool.and_eq_true, decide_eq_true_eq,
    Option.all_some] at hlimits
  obtain ⟨hlines, hsumLe⟩ := hlimits
  exact .range range.startLine range.endLine hstartLine hendLine hfirst hle hend (by omega) hsumLe

theorem Enforced.discloses_smallFile (hsmall : read.smallFile = true)
    (hstartLine : request.startLine = none) :
    Discloses read.policy lengths read.byteSize request := by
  simp only [CheckedRead.smallFile, Bool.and_eq_true, decide_eq_true_eq, h.lineCount_eq] at hsmall
  exact .wholeFile hstartLine hsmall.1 hsmall.2

theorem Enforced.rawRange (hrange : read.range = some range)
    (hend : range.endLine ≤ lengths.length) (hallowed : (read.rawRange range).allowed = true) :
    Discloses read.policy lengths read.byteSize (read.rawRange range).normalizedRequest := by
  have hoff : ¬ read.policy.mode = .off := by simp [h.mode_eq]
  unfold CheckedRead.rawRange at hallowed ⊢
  simp only [hoff, or_false] at hallowed ⊢
  split_ifs at hallowed ⊢ with hopen hlimits hlines
  · simp [h.decision_denies] at hallowed
  · exact h.discloses_range hrange hend hlimits rfl rfl
  · simp [h.decision_denies] at hallowed
  · simp [h.decision_denies] at hallowed

theorem Enforced.rawWholeFile (hallowed : read.rawWholeFile.allowed = true) :
    Discloses read.policy lengths read.byteSize read.rawWholeFile.normalizedRequest := by
  have hoff : ¬ read.policy.mode = .off := by simp [h.mode_eq]
  unfold CheckedRead.rawWholeFile at hallowed ⊢
  simp only [hoff, h.allowWholeFile_eq, Bool.false_eq_true, false_or, or_false] at hallowed ⊢
  split_ifs at hallowed ⊢ with hsmall hlines
  · exact h.discloses_smallFile hsmall rfl
  · simp [h.decision_denies] at hallowed
  · simp [h.decision_denies] at hallowed

theorem Enforced.safeRange {startLine : ℕ} {lines : LineRange}
    (hsafe : safeRange read.metadata read.lineCount startLine read.policy = some lines)
    (hstartLine : request.startLine = some lines.startLine)
    (hendLine : request.endLine = some lines.endLine) :
    Discloses read.policy lengths read.byteSize request := by
  have hactual : max 1 read.lineCount = lengths.length := by
    rw [h.lineCount_eq]
    exact max_eq_right h.lineCount_pos
  unfold ReadGovernor.safeRange at hsafe
  simp only [hactual, h.lengths_eq] at hsafe
  split_ifs at hsafe with hout hempty
  obtain rfl := Option.some.inj hsafe
  rw [not_or] at hout
  have hone : 1 ≤ startLine := by omega
  obtain ⟨hgrown, hsum⟩ := growRange_spec lengths read.policy.maxRawBytes hone
    (min lengths.length (startLine + read.policy.maxRawLines - 1) + 1 - startLine)
    (startLine - 1) (some 0) (by omega) (.inl ⟨by omega, rfl⟩)
  have hle := min_le_left lengths.length (startLine + read.policy.maxRawLines - 1)
  have hle' := min_le_right lengths.length (startLine + read.policy.maxRawLines - 1)
  simp only at hstartLine hendLine
  refine .range startLine _ hstartLine hendLine hone (by omega) (by omega) (by omega) ?_
  rcases hsum with hfirst | hsum
  · omega
  · exact hsum

theorem Enforced.boundedSource (hallowed : read.boundedSource.allowed = true) :
    Discloses read.policy lengths read.byteSize read.boundedSource.normalizedRequest := by
  unfold CheckedRead.boundedSource at hallowed ⊢
  cases hsafe : ReadGovernor.safeRange read.metadata read.lineCount
      ((read.range.map (·.startLine)).getD 1) read.policy with
  | none =>
    rw [hsafe] at hallowed
    simp [h.decision_denies] at hallowed
  | some lines =>
    have hnormalized : (read.boundedRepresentation lines).normalizedRequest =
        normalized read.request read.selectedMode (some lines) := by
      unfold CheckedRead.boundedRepresentation
      cases read.range with
      | none => rfl
      | some range =>
        simp only []
        split_ifs <;> rfl
    simp only [hnormalized]
    exact h.safeRange hsafe rfl rfl

theorem Enforced.decide (hallowed : read.decide.allowed = true) :
    Discloses read.policy lengths read.byteSize read.decide.normalizedRequest := by
  unfold CheckedRead.decide at hallowed ⊢
  cases hrange : read.range with
  | none =>
    simp only [hrange] at hallowed ⊢
    split_ifs at hallowed ⊢ with hraw
    · exact h.rawWholeFile hallowed
    · unfold CheckedRead.wholeRepresentation at hallowed ⊢
      simp only [h.allowWholeFile_eq, Bool.false_eq_true, or_false] at hallowed ⊢
      by_cases hsmall : read.smallFile = true
      · rw [if_pos hsmall]
        exact h.discloses_smallFile hsmall rfl
      · rw [if_neg hsmall] at hallowed ⊢
        exact h.boundedSource hallowed
  | some range =>
    simp only [hrange] at hallowed ⊢
    split_ifs at hallowed ⊢ with hout hraw
    · simp [CheckedRead.outOfBounds, h.mode_eq, CheckedRead.denied, decision] at hallowed
    all_goals
      have hend : range.endLine ≤ lengths.length := by
        have hpos := h.lineCount_pos
        rw [h.lineCount_eq] at hout
        omega
    · exact h.rawRange hrange hend hallowed
    · unfold CheckedRead.rangeRepresentation at hallowed ⊢
      split_ifs at hallowed ⊢ with hauto
      · exact h.discloses_range hrange hend hauto.2.1 rfl rfl
      · exact h.boundedSource hallowed

end Decisions

section Adapters

def endLines (lines : List (List UInt8)) : List UInt8 := lines.flatMap (· ++ [lineFeed])

theorem endLines_cons (line : List UInt8) (lines : List (List UInt8)) :
    endLines (line :: lines) = line ++ lineFeed :: endLines lines := by
  simp [endLines]

variable (content : List UInt8)

theorem foldl_scanByte : ∃ lines current,
    content = endLines lines ++ current ∧ (∀ line ∈ lines, lineFeed ∉ line) ∧
      lineFeed ∉ current ∧
      content.foldl scanByte ([], 0) = (lines.map List.length, current.length) := by
  induction content using List.reverseRecOn with
  | nil => exact ⟨[], [], rfl, by simp, by simp, rfl⟩
  | append_singleton content byte ih =>
    obtain ⟨lines, current, hcontent, hlines, hcurrent, hfold⟩ := ih
    rw [List.foldl_append, hfold]
    by_cases hbyte : byte = lineFeed
    · refine ⟨lines ++ [current], [], ?_, ?_, by simp, ?_⟩
      · simp [hcontent, hbyte, endLines]
      · intro line hline
        rcases List.mem_append.mp hline with hmem | hmem
        · exact hlines line hmem
        · rw [List.mem_singleton.mp hmem]
          exact hcurrent
      · simp [scanByte, hbyte]
    · refine ⟨lines, current ++ [byte], ?_, hlines, ?_, ?_⟩
      · simp [hcontent]
      · simp [hcurrent, Ne.symm hbyte]
      · simp [scanByte, hbyte]

theorem scanFile_spec : ∃ lines,
    scanFile content = lines.map List.length ∧ (∀ line ∈ lines, lineFeed ∉ line) ∧
      lines ≠ [] ∧ content <+: endLines lines ∧
      (endLines lines).length ≤ content.length + 1 ∧
      lines.length ≤ content.count lineFeed + 1 := by
  obtain ⟨lines, current, hcontent, hlines, hcurrent, hfold⟩ := foldl_scanByte content
  have hcount : content.count lineFeed = lines.length := by
    have hended : (endLines lines).count lineFeed = lines.length := by
      clear hcontent hfold
      induction lines with
      | nil => rfl
      | cons line lines ih =>
        rw [endLines_cons, List.count_append, List.count_cons_self,
          ih fun l hl => hlines l (List.mem_cons_of_mem line hl),
          List.count_eq_zero.mpr (hlines line List.mem_cons_self), List.length_cons]
        omega
    rw [hcontent, List.count_append, hended, List.count_eq_zero.mpr hcurrent, Nat.add_zero]
  unfold scanFile
  simp only [hfold, List.map_eq_nil_iff]
  split_ifs with hlast
  · refine ⟨lines ++ [current], by simp, ?_, by simp, ?_, ?_, ?_⟩
    · intro line hline
      rcases List.mem_append.mp hline with hmem | hmem
      · exact hlines line hmem
      · rw [List.mem_singleton.mp hmem]
        exact hcurrent
    · exact ⟨[lineFeed], by simp [hcontent, endLines]⟩
    · simp [hcontent, endLines]
      omega
    · simp [hcount]
  · rw [not_or, not_not] at hlast
    obtain ⟨hne, hfeed⟩ := hlast
    have hempty : current = [] := by
      rcases List.eq_nil_or_concat current with hnil | ⟨before, last, rfl⟩
      · exact hnil
      · rw [hcontent] at hfeed
        have hlastByte : last = lineFeed := by simpa using hfeed
        simp [hlastByte] at hcurrent
    rw [hempty, List.append_nil] at hcontent
    refine ⟨lines, rfl, hlines, hne, ?_, ?_, by omega⟩
    · exact hcontent ▸ List.prefix_rfl
    · have hlength := congrArg List.length hcontent
      omega

theorem lineStartByte_cons (length : ℕ) (lengths : List ℕ) (line : ℕ) :
    lineStartByte (length :: lengths) (line + 2) =
      length + 1 + lineStartByte lengths (line + 1) := by
  have hfold : ∀ (rest : List ℕ) (offset : ℕ),
      rest.foldl (fun offset length => offset + (length + 1)) offset =
        offset + rest.foldl (fun offset length => offset + (length + 1)) 0 := by
    intro rest
    induction rest with
    | nil => simp
    | cons first rest ih =>
      intro offset
      rw [List.foldl_cons, List.foldl_cons, ih, ih (0 + (first + 1))]
      omega
  simp only [lineStartByte, Nat.add_sub_cancel]
  rw [show line + 2 - 1 = line + 1 from rfl, List.take_succ_cons, List.foldl_cons, hfold]
  omega

theorem count_take_endLines {lines : List (List UInt8)} (hlines : ∀ line ∈ lines, lineFeed ∉ line)
    {n : ℕ} (h : n < lines.length) :
    lineStartByte (lines.map List.length) (n + 1) + (lines.map List.length).getD n 0 + 1 ≤
        (endLines lines).length ∧
      ((endLines lines).take (lineStartByte (lines.map List.length) (n + 1))).count lineFeed = n ∧
      ((endLines lines).take (lineStartByte (lines.map List.length) (n + 1) +
        (lines.map List.length).getD n 0)).count lineFeed = n := by
  induction lines generalizing n with
  | nil => simp at h
  | cons line lines ih =>
    have hline : line.count lineFeed = 0 :=
      List.count_eq_zero.mpr (hlines line List.mem_cons_self)
    cases n with
    | zero =>
      have hstart : lineStartByte ((line :: lines).map List.length) (0 + 1) = 0 := rfl
      rw [hstart, endLines_cons]
      refine ⟨by simp, by simp, ?_⟩
      simp [hline]
    | succ n =>
      obtain ⟨hlength, hbefore, hend⟩ :=
        ih (fun l hl => hlines l (List.mem_cons_of_mem line hl)) (Nat.lt_of_succ_lt_succ h)
      have hstart : lineStartByte ((line :: lines).map List.length) (n + 1 + 1) =
          line.length + (1 + lineStartByte (lines.map List.length) (n + 1)) := by
        rw [List.map_cons, lineStartByte_cons]
        omega
      have htake : ∀ k, ((endLines (line :: lines)).take (line.length + (1 + k))).count lineFeed =
          ((endLines lines).take k).count lineFeed + 1 := by
        intro k
        rw [endLines_cons, List.take_length_add_append, Nat.add_comm 1 k, List.take_succ_cons,
          List.count_append, hline, List.count_cons_self]
        omega
      rw [hstart]
      refine ⟨?_, ?_, ?_⟩
      · rw [endLines_cons]
        simp only [List.map_cons, List.getD_cons_succ, List.length_append, List.length_cons]
        omega
      · rw [htake, hbefore]
      · rw [List.map_cons, List.getD_cons_succ, Nat.add_assoc line.length, Nat.add_assoc 1, htake,
          hend]

theorem readAuthorizedRange_spec {content : List UInt8} {startLine endLine : ℕ}
    (hstart : 1 ≤ startLine) (hle : startLine ≤ endLine)
    (hend : endLine ≤ (scanFile content).length) :
    (readAuthorizedRange content (scanFile content) startLine endLine).length ≤
        sumLines (scanFile content) startLine endLine ∧
      (readAuthorizedRange content (scanFile content) startLine endLine).count lineFeed =
        endLine - startLine := by
  obtain ⟨lines, hscan, hlines, -, hprefix, hlength, -⟩ := scanFile_spec content
  have hsum := lineStartByte_add_sumLines hstart hle hend
  unfold readAuthorizedRange
  rw [if_neg (by omega)]
  simp only []
  rw [hscan] at hend hsum ⊢
  rw [List.length_map] at hend
  obtain ⟨-, hbefore, -⟩ := count_take_endLines hlines (n := startLine - 1) (by omega)
  obtain ⟨hlast, -, hafter⟩ := count_take_endLines hlines (n := endLine - 1) (by omega)
  rw [Nat.sub_add_cancel hstart] at hbefore
  rw [Nat.sub_add_cancel (hstart.trans hle)] at hlast hafter
  have hcut : ∀ k, k ≤ content.length → (endLines lines).take k = content.take k := by
    intro k hk
    obtain ⟨rest, hrest⟩ := hprefix
    rw [← hrest, List.take_append_of_le_length hk]
  rw [hcut _ (by omega)] at hbefore hafter
  refine ⟨?_, ?_⟩
  · rw [List.length_take]
    omega
  · rw [List.take_drop, Nat.add_sub_cancel' (by omega)]
    have hsplit := List.take_append_drop (lineStartByte (lines.map List.length) startLine)
      (content.take (lineStartByte (lines.map List.length) endLine +
        (lines.map List.length).getD (endLine - 1) 0))
    have hcount := congrArg (List.count lineFeed) hsplit
    rw [List.count_append, List.take_take, min_eq_left (by omega), hbefore, hafter] at hcount
    omega

end Adapters

section Disclosures

/-- The evidence about a file is what an inspection of its content gives. The flags of the
boundaries and a number of bytes that the adapter computed may come with it. -/
structure ReadFileMetadata.Consistent (metadata : ReadFileMetadata) (content : List UInt8) :
    Prop where
  lineCount_eq : metadata.lineCount = .integer (scanFile content).length
  byteSize_eq : metadata.byteSize = .integer content.length
  lineByteLengths_eq : metadata.lineByteLengths = some (scanFile content)

theorem inspectReadFile_consistent (content : List UInt8) :
    (inspectReadFile content).Consistent content := ⟨rfl, rfl, rfl⟩

/-- What a request discloses of a file, in lines and in bytes: a range within the limits of the
policy, or the whole of a file below the threshold for small ones. -/
def WithinPolicy (policy : ReadGovernorPolicy) (content : List UInt8)
    (request : NormalizedReadRequest) : Prop :=
  (∃ startLine endLine, request.startLine = some startLine ∧ request.endLine = some endLine ∧
    1 ≤ startLine ∧ startLine ≤ endLine ∧ endLine ≤ (scanFile content).length ∧
    endLine - startLine + 1 ≤ policy.maxRawLines ∧
    (scanFile (readAuthorizedContent content (scanFile content) request)).length ≤
      policy.maxRawLines ∧
    (readAuthorizedContent content (scanFile content) request).length ≤ policy.maxRawBytes) ∨
  (request.startLine = none ∧
    (scanFile content).length ≤ policy.allowWholeFileBelowLines ∧
    content.length ≤ policy.maxRawBytes)

theorem Discloses.withinPolicy {policy : ReadGovernorPolicy} {content : List UInt8}
    {request : NormalizedReadRequest}
    (h : Discloses policy (scanFile content) content.length request) :
    WithinPolicy policy content request := by
  cases h with
  | range startLine endLine hstart hend hfirst hle hlast hlines hbytes =>
    have hread : readAuthorizedContent content (scanFile content) request =
        readAuthorizedRange content (scanFile content) startLine endLine := by
      rw [readAuthorizedContent, hstart, hend]
    obtain ⟨hlength, hcount⟩ := readAuthorizedRange_spec hfirst hle hlast
    obtain ⟨lines, hscan, -, -, -, -, hscanned⟩ :=
      scanFile_spec (readAuthorizedRange content (scanFile content) startLine endLine)
    refine .inl ⟨startLine, endLine, hstart, hend, hfirst, hle, hlast, by omega, ?_, ?_⟩
    · rw [hread, hscan, List.length_map]
      omega
    · rw [hread]
      exact hlength.trans hbytes
  | wholeFile hstart hlines hbytes => exact .inr ⟨hstart, hlines, hbytes⟩

theorem Number.safe?_integer {minimum n m : ℕ} (h : (Number.integer n).safe? minimum = some m) :
    m = n := by
  simp only [Number.safe?] at h
  split_ifs at h with hn
  have heq : (n : ℤ).toNat = m := Option.some.inj h
  omega

/-- A read that an enforced policy allows, where the policy does not allow whole files, discloses
a range within the limits on lines and bytes, or a whole file that is within the threshold for
small files and the limit on bytes. -/
theorem decideRead_withinPolicy (content : List UInt8) (request : ReadRequest)
    (metadata : ReadFileMetadata) (hmetadata : metadata.Consistent content)
    (input : ReadGovernorPolicyInput) (policy : ReadGovernorPolicy)
    (hpolicy : resolveReadGovernorPolicy input = .ok policy) (hmode : policy.mode = .enforce)
    (hwhole : policy.allowWholeFile = false) (decision : ReadDecision)
    (hdecision : decideRead request metadata input = .ok decision)
    (hallowed : decision.allowed = true) :
    WithinPolicy policy content decision.normalizedRequest := by
  obtain ⟨policy', hpolicy', hresolved⟩ := bind_eq_ok.mp hdecision
  obtain rfl : policy = policy' := Except.ok.inj (hpolicy.symm.trans hpolicy')
  obtain ⟨mode, -, hdecided⟩ := bind_eq_ok.mp hresolved
  obtain rfl : decideBoundaries request metadata policy mode = decision := Except.ok.inj hdecided
  have hinvalid : ∀ rule reason,
      (invalidBoundary request mode metadata policy rule reason).allowed = false := by
    intro rule reason
    simp [invalidBoundary, ReadGovernor.decision]
  unfold decideBoundaries at hallowed ⊢
  rw [hmetadata.lineCount_eq, hmetadata.byteSize_eq] at hallowed ⊢
  split_ifs at hallowed ⊢
  · simp [hinvalid] at hallowed
  · simp [hinvalid] at hallowed
  cases hcount : (Number.integer (scanFile content).length).safe? 0 with
  | none =>
    simp [hcount, hinvalid] at hallowed
  | some lineCount =>
    cases hsize : (Number.integer content.length).safe? 0 with
    | none => simp [hcount, hsize, hinvalid] at hallowed
    | some byteSize =>
      obtain rfl := Number.safe?_integer hcount
      obtain rfl := Number.safe?_integer hsize
      simp only [hcount, hsize, decideChecked] at hallowed ⊢
      split_ifs at hallowed ⊢
      · simp [hinvalid] at hallowed
      · obtain ⟨lines, hscan, -, hne, -⟩ := scanFile_spec content
        have hpos : 1 ≤ (scanFile content).length := by
          rw [hscan, List.length_map]
          exact List.length_pos_iff.mpr hne
        have henforced : Enforced
            { request := request, metadata := metadata, policy := policy, requestedMode := mode
              lineCount := (scanFile content).length, byteSize := content.length
              range := explicitRange request metadata (scanFile content).length }
            (scanFile content) :=
          ⟨hmetadata.lineByteLengths_eq, rfl, hpos, rfl, hmode, hwhole⟩
        exact (henforced.decide hallowed).withinPolicy

section Runs

def strictInput (maxRawLines : ℤ) : ReadGovernorPolicyInput :=
  { mode := some "enforce", maxRawLines := some (.integer maxRawLines), maxRawBytes := none
    allowWholeFileBelowLines := none, preferAuto := none, allowWholeFile := none }

def strictPolicy (maxRawLines : ℕ) : ReadGovernorPolicy :=
  { defaultReadGovernorPolicy with mode := .enforce, maxRawLines := maxRawLines }

def readRequest (mode : String) (startLine endLine : Option Number) : ReadRequest :=
  { path := "notes.txt", mode := some mode, startLine := startLine, endLine := endLine }

def twoLines : List UInt8 := [0x61, 0x0a, 0x62]

def twoLinesDecision (request : ReadRequest) : ReadDecision :=
  decideBoundaries request (inspectReadFile twoLines) (strictPolicy 1) .raw

theorem decideRead_withinPolicy_line :
    WithinPolicy (strictPolicy 1) twoLines
      (twoLinesDecision (readRequest "raw" (some (.integer 2)) (some (.integer 2)))).normalizedRequest :=
  decideRead_withinPolicy twoLines (readRequest "raw" (some (.integer 2)) (some (.integer 2)))
    (inspectReadFile twoLines) (inspectReadFile_consistent twoLines) (strictInput 1)
    (strictPolicy 1) rfl rfl rfl
    (twoLinesDecision (readRequest "raw" (some (.integer 2)) (some (.integer 2)))) rfl rfl

/-- A whole file of more lines than a range may have is allowed, below the threshold for small
files. -/
theorem small_file_exceeds_lines :
    decideRead (readRequest "raw" none none) (inspectReadFile twoLines) (strictInput 1) =
        .ok (twoLinesDecision (readRequest "raw" none none)) ∧
      (twoLinesDecision (readRequest "raw" none none)).allowed = true ∧
      (twoLinesDecision (readRequest "raw" none none)).normalizedRequest.startLine = none ∧
      (readAuthorizedContent twoLines (scanFile twoLines)
        (twoLinesDecision (readRequest "raw" none none)).normalizedRequest) = twoLines ∧
      (strictPolicy 1).maxRawLines < (scanFile twoLines).length :=
  ⟨rfl, rfl, rfl, rfl, by decide⟩

end Runs

end Disclosures

end Mottainai.ReadGovernor

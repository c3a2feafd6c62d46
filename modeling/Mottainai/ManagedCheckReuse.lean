import Mottainai.CanonIdentity
import Mottainai.StateFingerprint

/-!
# Which runs of a check are reused

A managed check is executed, or a recorded run of it that passed is reused where the fingerprint of
the repository and the digest of the configuration are those of that run. What is observed is given
with each call, so that anything may change between two looks. A run is reused soundly as long as no
forced call of the same identity fails, since a failure takes nothing back.
-/

namespace Mottainai.ValidationGovernor

open JavaScriptValues JsonValues

section Definitions

structure ManagedCheckCommand where
  command : String
  args : List String
  cwd : String

/-- A check as the registry defines it; its scope and its configuration files are the `input` of
the fingerprint. -/
structure ManagedCheckDefinition where
  id : String
  label : String
  command : String
  args : List String
  cwd : Option String := none
  input : StateFingerprintInput
  relevantEnv : List String := []
  required : Bool
  timeoutMs : Option ℕ := none
  evidenceName : Option String := none

def defaultMaxOutputBytes : ℕ := 8 * 1024 * 1024

def defaultTimeoutMs : ℕ := 15 * 60 * 1000

inductive CheckReceiptState where
  | executedPass | executedFail | reusedPass | stale | notRequired
  deriving DecidableEq

inductive CheckExecutionKind where
  | executed | reused | notRun
  deriving DecidableEq

inductive CheckStatus where
  | passed | failed | unknown | notRequired
  deriving DecidableEq

structure CheckRunProvenance where
  reasonCode : String
  explanation : String
  deriving DecidableEq

structure CheckReceipt where
  check : String
  label : String
  required : Bool
  status : CheckStatus
  execution : CheckExecutionKind
  state : CheckReceiptState
  durationMs : ℤ
  fingerprint : Option String
  runId : Option String
  reusedFromRunId : Option String
  summary : String
  diagnostics : Option (List String)
  artifactRef : Option String
  provenance : CheckRunProvenance
  deriving DecidableEq

end Definitions

section Store

inductive CheckRunStatus where
  | passed | failed
  deriving DecidableEq

structure CheckRunRecord where
  runId : String
  instanceId : String
  worktreeId : String
  checkId : String
  commandDigest : String
  stateFingerprint : String
  configDigest : String
  status : CheckRunStatus
  execution : CheckExecutionKind
  startedAt : ℤ
  durationMs : ℤ
  recordedAt : ℤ
  summary : String
  artifactRef : Option String
  provenance : CheckRunProvenance
  deriving DecidableEq

structure ValidationEvidenceRecord where
  instanceId : String
  headCommit : String
  name : String
  status : CheckRunStatus
  recordedAt : ℤ
  deriving DecidableEq

structure Store where
  instances : List String
  checkRuns : List CheckRunRecord := []
  evidence : List ValidationEvidenceRecord := []
  deriving DecidableEq

structure RunIdentity where
  instanceId : String
  worktreeId : String
  checkId : String
  stateFingerprint : String
  configDigest : String
  deriving DecidableEq

def CheckRunRecord.identity (run : CheckRunRecord) : RunIdentity :=
  ⟨run.instanceId, run.worktreeId, run.checkId, run.stateFingerprint, run.configDigest⟩

/-- The first run in the order by `recorded_at DESC, rowid DESC`. -/
def latestRun : List CheckRunRecord → Option CheckRunRecord
  | [] => none
  | run :: runs =>
    match latestRun runs with
    | none => some run
    | some latest => if latest.recordedAt < run.recordedAt then some run else some latest

def findReusableCheckRun (store : Store) (identity : RunIdentity) : Option CheckRunRecord :=
  latestRun (store.checkRuns.filter fun run => run.identity = identity ∧ run.status = .passed)

def recordCheckRun (store : Store) (run : CheckRunRecord) : Except String Store := do
  require (∀ other ∈ store.checkRuns, other.runId ≠ run.runId)
    "UNIQUE constraint failed: check_runs.run_id"
  require (run.instanceId ∈ store.instances) "FOREIGN KEY constraint failed"
  return { store with checkRuns := store.checkRuns ++ [run] }

def recordValidationEvidence (store : Store) (row : ValidationEvidenceRecord) :
    Except String Store := do
  require (row.instanceId ∈ store.instances) "FOREIGN KEY constraint failed"
  let others := store.evidence.filter fun other =>
    ¬(other.instanceId = row.instanceId ∧ other.headCommit = row.headCommit ∧ other.name = row.name)
  return { store with evidence := others ++ [row] }

end Store

section Surroundings

/-- What does not change while checks run: the digest, the platform, and how paths are joined and
times are printed. -/
structure Host where
  sha256 : String → String
  nodeVersion : String
  platform : String
  arch : String
  joinPath : String → String → String
  isoString : ℤ → String

structure ManagedCheckContext where
  workspaceRoot : String
  instanceId : String
  worktreeId : Option String := none
  env : Option (String → Option String) := none

structure ProgramCall where
  command : String
  args : List String
  cwd : String
  timeoutMs : ℕ
  maxOutputBytes : ℕ
  env : Option (String → Option String)

structure StoredArtifactInput where
  text : String
  stdout : String
  stderr : String
  operation : String
  command : String
  cwd : String
  summary : String

/-- What a call meets: the git of each observation of the repository and of the last look at its
status, the process, the clock, the artifacts and the random identifier. -/
structure Surroundings where
  before : GitRunner
  beforeAgain : GitRunner
  after : GitRunner
  afterAgain : GitRunner
  last : GitRunner
  runProgram : ProgramCall → RunResult
  startedAt : ℤ
  endedAt : ℤ
  recordedAt : ℤ
  evidenceRecordedAt : ℤ
  putArtifact : StoredArtifactInput → Except String String
  randomUUID : String

end Surroundings

section Identities

variable (host : Host)

/-- The text of a value with its keys in their order. -/
def canonicalJson (value : JsonValue) : String := stringify (CanonIdentity.canonicalizeJson value)

def digestOf (title label : String) (payload : JsonValue) : String :=
  title ++ "_" ++ host.sha256 (title ++ label ++ "\n" ++ canonicalJson payload)

def commandPayload (command : ManagedCheckCommand) : JsonValue := .object [
  ("command", .string command.command), ("args", .array (command.args.map .string)),
  ("cwd", .string command.cwd)]

def computeCommandDigest (command : ManagedCheckCommand) : String :=
  digestOf host "mottainai" "/managed-check-command/v1" (commandPayload command)

/-- The variables that a check declares, with those that have no value left out. -/
def relevantVariables (env : Option (String → Option String)) (names : List String) :
    List (String × JsonValue) :=
  names.filterMap fun name => ((env.bind (· name)).map fun value => (name, .string value))

def computeConfigDigest (checkId : String) (command : ManagedCheckCommand)
    (configFileDigests : List (String × String)) (relevantEnv : List (String × JsonValue)) : String :=
  digestOf host "mottainai" "/managed-check-config/v1" (.object [
    ("checkId", .string checkId), ("commandDigest", .string (computeCommandDigest host command)),
    ("nodeVersion", .string host.nodeVersion), ("platform", .string host.platform),
    ("arch", .string host.arch),
    ("configFileDigests", .object (fromEntries (configFileDigests.map fun config =>
      (config.1, .string config.2)))),
    ("relevantEnv", .object (fromEntries relevantEnv))])

def worktreeKey (worktreeId : Option String) : String := worktreeId.getD ""

structure ResolvedCheckIdentity where
  command : ManagedCheckCommand
  commandDigest : String
  fingerprintResult : Except Failure StateFingerprint
  configDigest : Option String

def resolveIdentity (context : ManagedCheckContext) (check : ManagedCheckDefinition)
    (around : Surroundings) : ResolvedCheckIdentity :=
  let cwd := (check.cwd.map (host.joinPath context.workspaceRoot)).getD context.workspaceRoot
  let command : ManagedCheckCommand := ⟨check.command, check.args, cwd⟩
  let fingerprintResult :=
    computeStateFingerprint host.sha256 around.before around.beforeAgain check.input
  { command := command
    commandDigest := computeCommandDigest host command
    fingerprintResult := fingerprintResult
    configDigest := fingerprintResult.toOption.map fun observed =>
      computeConfigDigest host check.id command observed.snapshot.configFileDigests
        (relevantVariables context.env check.relevantEnv) }

/-- What a call looks for in the store, where it has a fingerprint. -/
def soughtIdentity (context : ManagedCheckContext) (check : ManagedCheckDefinition)
    (identity : ResolvedCheckIdentity) : Option RunIdentity :=
  match identity.fingerprintResult, identity.configDigest with
  | .ok observed, some configDigest => some {
      instanceId := context.instanceId
      worktreeId := worktreeKey context.worktreeId
      checkId := check.id
      stateFingerprint := observed.fingerprint
      configDigest := configDigest }
  | _, _ => none

end Identities

section Diagnostics

/-- The characters that fit in that many bytes. -/
def fittingChars : ℕ → List Char → List Char
  | _, [] => []
  | maxBytes, c :: cs =>
    if c.utf8Size ≤ maxBytes then c :: fittingChars (maxBytes - c.utf8Size) cs else []

def withoutByteOrderMark : List Char → List Char
  | [] => []
  | c :: cs => if c = Char.ofNat 0xFEFF then cs else c :: cs

def truncateUtf8 (value : String) (maxBytes : ℕ) : String :=
  if maxBytes = 0 then ""
  else if byteLength value ≤ maxBytes then value
  else String.ofList (withoutByteOrderMark (fittingChars maxBytes value.toList))

def defaultMaxDiagnosticLines : ℕ := 40

def defaultMaxDiagnosticBytes : ℕ := 4000

/-- The lines that are kept, from the last one on, before those that are kept already. -/
def boundedLines (maxBytes : ℕ) : List String → ℕ → List String → List String
  | [], _, bounded => bounded
  | line :: earlier, size, bounded =>
    let lineBytes := byteLength line + 1
    if size + lineBytes > maxBytes then
      if bounded = [] then [truncateUtf8 line (maxBytes - 1)].filter (· ≠ "") else bounded
    else boundedLines maxBytes earlier (size + lineBytes) (line :: bounded)

def boundedFailureDiagnostics (result : RunResult) : List String :=
  let source := if isBlank result.stderr then result.stdout else result.stderr
  let lines := ((source.toList.splitOn '\n').filter (· ≠ [])).map String.ofList
  boundedLines defaultMaxDiagnosticBytes (lines.reverse.take defaultMaxDiagnosticLines) 0 []

def executionOutcomeSummary (check : ManagedCheckDefinition) (passed : Bool) (result : RunResult)
    (durationMs : ℤ) : String :=
  match result.spawnError with
  | some spawnError => s!"{check.id} could not start: {spawnError}"
  | none =>
    if result.timedOut then s!"{check.id} timed out after {durationMs}ms"
    else if result.outputLimit then s!"{check.id} exceeded the bounded output limit"
    else if passed then s!"{check.id} passed in {durationMs}ms"
    else
      let exitCode := (result.exitCode.map toString).getD "unknown"
      s!"{check.id} failed with exit code {exitCode} after {durationMs}ms"

def combinedOutputText (result : RunResult) : String :=
  joinTexts ['\n', '\n'] ([result.stdout, result.stderr].filter (!isBlank ·))

end Diagnostics

section Receipts

variable (host : Host) (check : ManagedCheckDefinition)

def fingerprintOf (fingerprintResult : Except Failure StateFingerprint) : Option String :=
  fingerprintResult.toOption.map (·.fingerprint)

def reusedReceipt (identity : ResolvedCheckIdentity) (run : CheckRunRecord) : CheckReceipt where
  check := check.id
  label := check.label
  required := check.required
  status := .passed
  execution := .reused
  state := .reusedPass
  durationMs := run.durationMs
  fingerprint := fingerprintOf identity.fingerprintResult
  runId := some run.runId
  reusedFromRunId := some run.runId
  summary := s!"{check.id} reused a prior passing execution (run {run.runId}); no process was started"
  diagnostics := none
  artifactRef := run.artifactRef
  provenance := {
    reasonCode := "matching-prior-success"
    explanation := "Repository state fingerprint and configuration digest matched the successful " ++
      s!"execution recorded as {run.runId} (recorded {host.isoString run.recordedAt}); " ++
      "the check was not re-executed." }

def notRunReceipt (identity : ResolvedCheckIdentity) (status : CheckStatus)
    (state : CheckReceiptState) (summary : String) (provenance : CheckRunProvenance) :
    CheckReceipt where
  check := check.id
  label := check.label
  required := check.required
  status := status
  execution := .notRun
  state := state
  durationMs := 0
  fingerprint := fingerprintOf identity.fingerprintResult
  runId := none
  reusedFromRunId := none
  summary := summary
  diagnostics := none
  artifactRef := none
  provenance := provenance

def staleReceipt (identity : ResolvedCheckIdentity) (reasonCode explanation : String) :
    CheckReceipt :=
  notRunReceipt check identity .unknown .stale
    s!"{check.id} has no current evidence and must run" ⟨reasonCode, explanation⟩

def notRequiredReceipt (identity : ResolvedCheckIdentity) : CheckReceipt :=
  notRunReceipt check identity .notRequired .notRequired
    s!"{check.id} is not required by repository policy and has no current evidence"
    ⟨"not-required",
      s!"{check.id} is declared optional (required: false) and no matching evidence exists."⟩

def executionProvenance (before after : Except Failure StateFingerprint) (force : Bool) :
    CheckRunProvenance :=
  let withoutEvidence := "the check executed without persisting reusable evidence."
  match before, after with
  | .error failure, _ => ⟨"fingerprint-unavailable",
      "Repository state fingerprint could not be established before execution " ++
        s!"({failure.reason}: {failure.detail}); {withoutEvidence}"⟩
  | .ok _, .error failure => ⟨"fingerprint-unavailable",
      "Repository state fingerprint could not be established after execution " ++
        s!"({failure.reason}: {failure.detail}); {withoutEvidence}"⟩
  | .ok observed, .ok again =>
    if observed.fingerprint ≠ again.fingerprint then ⟨"fingerprint-unstable",
      "Repository state fingerprint changed between pre- and post-execution observations; " ++
        withoutEvidence⟩
    else if force then
      ⟨"force-requested", "Execution was explicitly forced; reuse was not considered."⟩
    else ⟨"no-matching-prior-success",
      "No prior successful execution matched the current repository state and configuration digest."⟩

end Receipts

section Governor

variable (host : Host) (context : ManagedCheckContext) (check : ManagedCheckDefinition)
variable (around : Surroundings)

def assessManagedCheck (store : Store) : CheckReceipt :=
  let identity := resolveIdentity host context check around
  match identity.fingerprintResult with
  | .error failure => staleReceipt check identity "fingerprint-unavailable"
      ("Repository state fingerprint could not be established " ++
        s!"({failure.reason}: {failure.detail}); uncertainty requires execution.")
  | .ok _ =>
    match (soughtIdentity context check identity).bind (findReusableCheckRun store) with
    | some run => reusedReceipt host check identity run
    | none =>
      if check.required then staleReceipt check identity "no-matching-evidence"
        "No prior successful execution matches the current repository state and configuration digest."
      else notRequiredReceipt check identity

def evidenceBridgeStatus (passed : Bool) : CheckRunStatus := if passed then .passed else .failed

def isWorkspaceCleanNow (git : GitRunner) : Bool :=
  match readGitStatus git with
  | .ok entries => entries.isEmpty
  | .error _ => false

def stableFingerprintResult (before after : Except Failure StateFingerprint) :
    Option StateFingerprint :=
  match before, after with
  | .ok observed, .ok again => if observed.fingerprint = again.fingerprint then some observed else none
  | _, _ => none

def bridgeEvidence (stable : StateFingerprint) (passed : Bool) (store : Store) :
    Except String Unit × Store :=
  match check.evidenceName with
  | none => (.ok (), store)
  | some name =>
    if isWorkspaceCleanNow around.last then
      match recordValidationEvidence store {
        instanceId := context.instanceId
        headCommit := stable.headCommit
        name := name
        status := evidenceBridgeStatus passed
        recordedAt := around.evidenceRecordedAt } with
      | .error error => (.error error, store)
      | .ok stored => (.ok (), stored)
    else (.ok (), store)

def programResult (command : ManagedCheckCommand) : RunResult := around.runProgram {
  command := command.command
  args := command.args
  cwd := command.cwd
  timeoutMs := check.timeoutMs.getD defaultTimeoutMs
  maxOutputBytes := defaultMaxOutputBytes
  env := context.env }

def postFingerprintResult : Except Failure StateFingerprint :=
  computeStateFingerprint host.sha256 around.after around.afterAgain check.input

def executeManagedCheck (force : Bool) (store : Store) : Except String CheckReceipt × Store :=
  let identity := resolveIdentity host context check around
  let result := programResult context check around identity.command
  let durationMs := around.endedAt - around.startedAt
  let passed := result.succeeded
  let summary := executionOutcomeSummary check passed result durationMs
  let postFingerprintResult := postFingerprintResult host check around
  let stable := stableFingerprintResult identity.fingerprintResult postFingerprintResult
  match around.putArtifact {
    text := combinedOutputText result
    stdout := result.stdout
    stderr := result.stderr
    operation := "managed-check"
    command := identity.command.command ++ " " ++ joinTexts [' '] identity.command.args
    cwd := identity.command.cwd
    summary := summary } with
  | .error error => (.error error, store)
  | .ok artifactRef =>
    let provenance :=
      executionProvenance identity.fingerprintResult postFingerprintResult force
    let persistedRunId := stable.map fun _ => "cr_" ++ around.randomUUID
    let receipt : CheckReceipt := {
      check := check.id
      label := check.label
      required := check.required
      status := if passed then .passed else .failed
      execution := .executed
      state := if passed then .executedPass else .executedFail
      durationMs := durationMs
      fingerprint := stable.map (·.fingerprint)
      runId := persistedRunId
      reusedFromRunId := none
      summary := summary
      diagnostics := if passed then none else some (boundedFailureDiagnostics result)
      artifactRef := some artifactRef
      provenance := provenance }
    match stable with
    | none => (.ok receipt, store)
    | some observed =>
      match recordCheckRun store {
        runId := "cr_" ++ around.randomUUID
        instanceId := context.instanceId
        worktreeId := worktreeKey context.worktreeId
        checkId := check.id
        commandDigest := identity.commandDigest
        stateFingerprint := observed.fingerprint
        configDigest := identity.configDigest.getD ""
        status := evidenceBridgeStatus passed
        execution := .executed
        startedAt := around.startedAt
        durationMs := durationMs
        recordedAt := around.recordedAt
        summary := summary
        artifactRef := some artifactRef
        provenance := provenance } with
      | .error error => (.error error, store)
      | .ok recorded =>
        let bridged := bridgeEvidence context check around observed passed recorded
        (bridged.1.map fun _ => receipt, bridged.2)

def reusableRun (force : Bool) (store : Store) : Option CheckRunRecord :=
  if force then none
  else (soughtIdentity context check (resolveIdentity host context check around)).bind
    (findReusableCheckRun store)

def runManagedCheck (force : Bool) (store : Store) : Except String CheckReceipt × Store :=
  match reusableRun host context check around force store with
  | some run => (.ok (reusedReceipt host check (resolveIdentity host context check around) run), store)
  | none => executeManagedCheck host context check around force store

end Governor

open SeparatedTexts

section Looks

/-- What there is when git looks: the commit at one command and the status at another. -/
structure Look (git : GitRunner) where
  head : String
  status : List GitStatusEntry
  head_hex : isHexText head = true
  status_printed : ∀ entry ∈ status, entry.IsPrinted
  head_answer : (git ["rev-parse", "--verify", "HEAD"]).succeeded →
    (git ["rev-parse", "--verify", "HEAD"]).stdout.toList = head.toList ++ ['\n']
  status_answer : (git ["status", "--porcelain=v1", "-z", "--untracked-files=all"]).succeeded →
    (git ["status", "--porcelain=v1", "-z", "--untracked-files=all"]).stdout.toList =
      statusOutput status
  hashObject_plain : ∀ paths, (git ("hash-object" :: "--" :: paths)).succeeded →
    nul ∉ (git ("hash-object" :: "--" :: paths)).stdout.toList

variable {git : GitRunner} {paths : List String} {digests : List (String × String)}
variable {input : StateFingerprintInput} {observed : StateFingerprint} {path digest : String}

theorem mem_of_mem_splitOn {x c : Char} {text piece : List Char} (hpiece : piece ∈ text.splitOn x)
    (hc : c ∈ piece) : c ∈ text := by
  have hjoin : [x].intercalate (text.splitOn x) = text := List.intercalate_splitOn x
  rw [← hjoin]
  cases hpieces : text.splitOn x with
  | nil =>
    rw [hpieces] at hpiece
    exact absurd hpiece List.not_mem_nil
  | cons first pieces =>
    rw [hpieces] at hpiece
    rw [intercalate_cons, List.mem_append, List.mem_flatMap]
    rcases List.mem_cons.mp hpiece with rfl | hpiece
    · exact .inl hc
    · exact .inr ⟨piece, hpiece, List.mem_append_right _ hc⟩

theorem batchHashObjects_plain (look : Look git) (h : batchHashObjects git paths = .ok digests) :
    ∀ entry ∈ digests, nul ∉ entry.2.toList := by
  unfold batchHashObjects at h
  by_cases hnil : paths = []
  · rw [if_pos hnil] at h
    rw [← Except.ok.inj h]
    exact fun _ hentry => absurd hentry List.not_mem_nil
  · rw [if_neg hnil] at h
    dsimp only at h
    split_ifs at h with hsucceeded hlength
    rw [← Except.ok.inj h]
    intro entry hentry hnul
    obtain ⟨piece, hpiece, hline⟩ := List.mem_map.mp (List.of_mem_zip hentry).2
    rw [← hline, String.toList_ofList] at hnul
    exact look.hashObject_plain paths hsucceeded
      (mem_of_mem_splitOn (List.mem_of_mem_filter hpiece) hnul)

theorem mem_of_lookup (h : digests.lookup path = some digest) : (path, digest) ∈ digests := by
  obtain ⟨before, after, rfl, -⟩ := List.lookup_eq_some_iff.mp h
  exact List.mem_append_right _ List.mem_cons_self

theorem configFileDigest_plain (look : Look git)
    (hplain : ∀ digest, digests.lookup path = some digest → nul ∉ digest.toList) :
    nul ∉ (configFileDigest git digests path).toList := by
  unfold configFileDigest
  cases hlookup : digests.lookup path with
  | some known => exact hplain known hlookup
  | none =>
    cases hbatch : batchHashObjects git [path] with
    | error failure =>
      change nul ∉ "absent".toList
      decide
    | ok single =>
      change nul ∉ ((single.lookup path).getD "absent").toList
      cases hsingle : single.lookup path with
      | none => decide
      | some digest => exact batchHashObjects_plain look hbatch _ (mem_of_lookup hsingle)

/-- What a successful observation records of its look. -/
structure Look.Shows (sha256 : String → String) (look : Look git) (input : StateFingerprintInput)
    (observed : StateFingerprint) (digests : List (String × String)) : Prop where
  headCommit : observed.headCommit = look.head
  head : observed.snapshot.headCommit = look.head
  changed : observed.snapshot.changed =
    sortBy (·.path) ((entriesInScope input.scope look.status).map (changedEntry digests))
  plain : observed.snapshot.IsPlain
  fingerprint : observed.fingerprint = "sf_" ++ sha256
    ("mottainai/state-fingerprint/v1\n" ++ fingerprintPayload input.scope observed.snapshot)

variable {sha256 : String → String} {entries : List GitStatusEntry} {look : Look git}

theorem readGitStatus_look (look : Look git) (h : readGitStatus git = .ok entries) :
    entries = look.status := by
  unfold readGitStatus at h
  dsimp only at h
  split_ifs at h with hstatus
  rw [← Except.ok.inj h]
  exact parseStatusEntries_printed look.status_printed (look.status_answer hstatus)

theorem mem_of_entriesInScope {scope : List String} {entry : GitStatusEntry}
    (h : entry ∈ entriesInScope scope entries) : entry ∈ entries := by
  unfold entriesInScope at h
  split at h
  · exact h
  · exact (List.mem_filter.mp h).1

theorem observation_shows (look : Look git)
    (h : computeStateFingerprintObservation sha256 git input = .ok observed) :
    ∃ digests, look.Shows sha256 input observed digests := by
  unfold computeStateFingerprintObservation at h
  dsimp only at h
  split_ifs at h with hfailed
  obtain ⟨hsucceeded, -⟩ := not_or.mp hfailed
  have hhead := trim_hexLine look.head_hex (look.head_answer (by simpa using hsucceeded))
  obtain ⟨entries, hentries, h⟩ := bind_eq_ok.mp h
  obtain ⟨digests, hdigests, h⟩ := bind_eq_ok.mp h
  rw [readGitStatus_look look hentries] at hdigests h
  have hplain : ∀ path digest, digests.lookup path = some digest → nul ∉ digest.toList :=
    fun path digest hlookup => batchHashObjects_plain look hdigests _ (mem_of_lookup hlookup)
  have hobserved := Except.ok.inj h
  refine ⟨digests, ?_, ?_, ?_, ?_, ?_⟩
  · rw [← hobserved]
    exact hhead
  · rw [← hobserved]
    exact hhead
  · rw [← hobserved]
  · rw [← hobserved]
    refine ⟨?_, fun entry hentry => ?_, fun config hconfig => ?_⟩
    · dsimp only
      rw [hhead]
      exact plain_of_isHexText look.head_hex nul nul_not_hex
    · obtain ⟨change, hchange, rfl⟩ := List.mem_map.mp (mem_sortBy.mp hentry)
      exact changedEntry_plain (look.status_printed change (mem_of_entriesInScope hchange))
        (hplain change.path)
    · obtain ⟨path, hpath, rfl⟩ := List.mem_map.mp hconfig
      exact configText_plain hpath (configFileDigest_plain look (hplain path))
  · rw [← hobserved]

theorem looks_agree (injective : Function.Injective sha256) {git' : GitRunner} {look' : Look git'}
    {observed' : StateFingerprint} {digests' : List (String × String)}
    (h : look.Shows sha256 input observed digests)
    (h' : look'.Shows sha256 input observed' digests')
    (heq : observed.fingerprint = observed'.fingerprint) :
    look.head = look'.head ∧ observed.snapshot.changed = observed'.snapshot.changed := by
  rw [h.fingerprint, h'.fingerprint] at heq
  have hdigested := injective (String.append_right_inj _ |>.mp heq)
  obtain ⟨hhead, hchanged, -⟩ :=
    parts_of_payload h.plain h'.plain (String.append_right_inj _ |>.mp hdigested)
  rw [h.head, h'.head] at hhead
  exact ⟨hhead, hchanged⟩

/-- Where the scope is the whole worktree, no change is left out. -/
theorem status_eq_nil_iff (h : look.Shows sha256 input observed digests)
    (hscope : input.scope = []) : look.status = [] ↔ observed.snapshot.changed = [] := by
  have hall : entriesInScope input.scope look.status = look.status := if_pos hscope
  rw [h.changed, hall]
  constructor
  · intro hstatus
    rw [hstatus]
    rfl
  · intro hchanged
    have hlength := (sortBy_perm (·.path) (look.status.map (changedEntry digests))).length_eq
    rw [hchanged, List.length_map] at hlength
    exact List.length_eq_zero_iff.mp hlength.symm

end Looks

section Calls

inductive CallKind where
  | assess
  | run (force : Bool)
  deriving DecidableEq

structure Call where
  kind : CallKind
  context : ManagedCheckContext
  check : ManagedCheckDefinition
  around : Surroundings
  before : Look around.before
  beforeAgain : Look around.beforeAgain
  after : Look around.after
  afterAgain : Look around.afterAgain
  last : Look around.last

variable (host : Host)

def perform (store : Store) (call : Call) : Except String CheckReceipt × Store :=
  match call.kind with
  | .assess => (.ok (assessManagedCheck host call.context call.check call.around store), store)
  | .run force => runManagedCheck host call.context call.check call.around force store

structure Event where
  store : Store
  call : Call

inductive Run (instances : List String) : List Event → Store → Prop
  | start : Run instances [] { instances := instances }
  | call {history : List Event} {store : Store} (run : Run instances history store) (call : Call) :
      Run instances (⟨store, call⟩ :: history) (perform host store call).2

/-- The call starts the process of its check. -/
def Event.Executes (event : Event) : Prop :=
  ∃ force, event.call.kind = .run force ∧
    reusableRun host event.call.context event.call.check event.call.around force event.store = none

def Call.resolved (call : Call) : ResolvedCheckIdentity :=
  resolveIdentity host call.context call.check call.around

def Call.passes (call : Call) : Bool :=
  (programResult call.context call.check call.around (call.resolved host).command).succeeded

/-- The state that both observations of an execution show. -/
def Call.stable (call : Call) : Option StateFingerprint :=
  stableFingerprintResult (call.resolved host).fingerprintResult
    (postFingerprintResult host call.check call.around)

def Call.sought (call : Call) : Option RunIdentity :=
  soughtIdentity call.context call.check (call.resolved host)

def Call.identity (call : Call) : Option RunIdentity :=
  (call.stable host).bind fun _ => call.sought host

structure Event.PassedAs (event : Event) (identity : RunIdentity) : Prop where
  executes : event.Executes host
  identity : event.call.identity host = some identity
  passes : event.call.passes host = true

structure Event.FailedAs (event : Event) (identity : RunIdentity) : Prop where
  executes : event.Executes host
  identity : event.call.identity host = some identity
  fails : event.call.passes host = false

/-- The looks at the repository before and after the process. -/
def Call.AllLooks (call : Call) (p : String → List GitStatusEntry → Prop) : Prop :=
  p call.before.head call.before.status ∧ p call.beforeAgain.head call.beforeAgain.status ∧
    p call.after.head call.after.status ∧ p call.afterAgain.head call.afterAgain.status

/-- A reused pass is that of an earlier execution with no failure since. -/
def Event.ReuseJustified (event : Event) (earlier : List Event) : Prop :=
  ∀ receipt, (perform host event.store event.call).1 = .ok receipt → receipt.state = .reusedPass →
    ∃ identity later passed before, event.call.sought host = some identity ∧
      earlier = later ++ passed :: before ∧ passed.PassedAs host identity ∧
      ∀ rerun ∈ later, ¬ rerun.FailedAs host identity

def EvidenceStands (history : List Event) (store : Store) : Prop :=
  ∀ row ∈ store.evidence, row.status = .passed → ∃ event ∈ history,
    event.Executes host ∧ event.call.passes host = true ∧
      event.call.context.instanceId = row.instanceId ∧
      event.call.check.evidenceName = some row.name ∧
      event.call.AllLooks fun head status => head = row.headCommit ∧ status = []

/-- Reuse, records and evidence are sound in what happened so far. -/
structure Sound (history : List Event) (store : Store) : Prop where
  reuse : ∀ later event earlier, history = later ++ event :: earlier →
    event.ReuseJustified host earlier
  unrecorded : ∀ event ∈ history, event.Executes host →
    event.call.passes host = false ∨ event.call.identity host = none →
      ∀ identity, findReusableCheckRun (perform host event.store event.call).2 identity =
        findReusableCheckRun event.store identity
  evidence : EvidenceStands host history store

/-- A forced execution does not fail where the store has that its identity passed. -/
def Event.ConfirmsPasses (event : Event) : Prop :=
  event.call.kind = .run true → event.call.passes host = false →
    ∀ run ∈ event.store.checkRuns, run.status = .passed →
      event.call.identity host ≠ some run.identity

/-- An execution whose pass becomes evidence starts on a clean worktree; where its check has a
scope, the worktree is clean at each look. -/
def Event.StartsClean (event : Event) : Prop :=
  event.Executes host → event.call.passes host = true → (event.call.stable host).isSome →
    event.call.check.evidenceName.isSome → isWorkspaceCleanNow event.call.around.last = true →
      event.call.before.status = [] ∧
        (event.call.check.input.scope ≠ [] → event.call.AllLooks fun _ status => status = [])

end Calls

section Recording

variable {host : Host} {store : Store} {call : Call}

theorem mem_of_latestRun : ∀ {runs : List CheckRunRecord} {run : CheckRunRecord},
    latestRun runs = some run → run ∈ runs
  | first :: runs, run, h => by
    rw [latestRun] at h
    cases hrest : latestRun runs with
    | none =>
      rw [hrest] at h
      rw [Option.some.inj h]
      exact List.mem_cons_self
    | some latest =>
      rw [hrest] at h
      dsimp only at h
      split at h
      · rw [Option.some.inj h]
        exact List.mem_cons_self
      · rw [← Option.some.inj h]
        exact List.mem_cons_of_mem _ (mem_of_latestRun hrest)

theorem latestRun_eq_none {runs : List CheckRunRecord} (h : latestRun runs = none) : runs = [] := by
  cases runs with
  | nil => rfl
  | cons first runs =>
    rw [latestRun] at h
    split at h
    · cases h
    · split at h <;> cases h

variable {run : CheckRunRecord} {receipt : CheckReceipt} {identity : RunIdentity}

theorem found_of_findReusable (h : findReusableCheckRun store identity = some run) :
    run ∈ store.checkRuns ∧ run.identity = identity ∧ run.status = .passed := by
  obtain ⟨hmem, hmatch⟩ := List.mem_filter.mp (mem_of_latestRun h)
  exact ⟨hmem, of_decide_eq_true hmatch⟩

theorem not_passed_of_findReusable (h : findReusableCheckRun store identity = none)
    (hrun : run ∈ store.checkRuns) (hstatus : run.status = .passed) : run.identity ≠ identity := by
  intro hidentity
  have hmem : run ∈ store.checkRuns.filter fun run =>
      run.identity = identity ∧ run.status = .passed :=
    List.mem_filter.mpr ⟨hrun, decide_eq_true ⟨hidentity, hstatus⟩⟩
  rw [latestRun_eq_none h] at hmem
  exact List.not_mem_nil hmem

theorem findReusable_failed {store store' : Store} (identity : RunIdentity)
    (hruns : store'.checkRuns = store.checkRuns ++ [run]) (hstatus : run.status = .failed) :
    findReusableCheckRun store' identity = findReusableCheckRun store identity := by
  unfold findReusableCheckRun
  rw [hruns, List.filter_append, List.filter_cons_of_neg, List.filter_nil, List.append_nil]
  simp [hstatus]

structure Evidences (call : Call) (observed : StateFingerprint) (passed : Bool)
    (row : ValidationEvidenceRecord) : Prop where
  name : call.check.evidenceName = some row.name
  clean : isWorkspaceCleanNow call.around.last = true
  instanceId : row.instanceId = call.context.instanceId
  headCommit : row.headCommit = observed.headCommit
  status : row.status = evidenceBridgeStatus passed

theorem bridgeEvidence_spec (call : Call) (observed : StateFingerprint) (passed : Bool)
    (store : Store) :
    (bridgeEvidence call.context call.check call.around observed passed store).2.checkRuns =
        store.checkRuns ∧
      ∀ row ∈ (bridgeEvidence call.context call.check call.around observed passed store).2.evidence,
        row ∈ store.evidence ∨ Evidences call observed passed row := by
  unfold bridgeEvidence
  split
  · exact ⟨rfl, fun row hrow => .inl hrow⟩
  · rename_i name hname
    split
    · rename_i hclean
      split
      · exact ⟨rfl, fun row hrow => .inl hrow⟩
      · rename_i stored hstored
        unfold recordValidationEvidence at hstored
        obtain ⟨-, -, hstored⟩ := bind_eq_ok.mp hstored
        rw [← Except.ok.inj hstored]
        refine ⟨rfl, fun row hrow => ?_⟩
        rcases List.mem_append.mp hrow with hrow | hrow
        · exact .inl (List.mem_of_mem_filter hrow)
        · rw [List.mem_singleton.mp hrow]
          exact .inr ⟨hname, hclean, rfl, rfl, rfl⟩
    · exact ⟨rfl, fun row hrow => .inl hrow⟩

/-- What a call that executes its check adds to the store. -/
structure Records (host : Host) (call : Call) (store store' : Store) (observed : StateFingerprint)
    (run : CheckRunRecord) : Prop where
  stable : call.stable host = some observed
  identity : call.identity host = some run.identity
  status : run.status = evidenceBridgeStatus (call.passes host)
  checkRuns : store'.checkRuns = store.checkRuns ++ [run]
  evidence : ∀ row ∈ store'.evidence, row ∈ store.evidence ∨
    Evidences call observed (call.passes host) row

theorem recordCheckRun_spec {store' : Store} (h : recordCheckRun store run = .ok store') :
    store' = { store with checkRuns := store.checkRuns ++ [run] } := by
  unfold recordCheckRun at h
  obtain ⟨-, -, h⟩ := bind_eq_ok.mp h
  obtain ⟨-, -, h⟩ := bind_eq_ok.mp h
  exact (Except.ok.inj h).symm

theorem sought_of_stable {observed : StateFingerprint} (h : call.stable host = some observed) :
    call.sought host = some {
      instanceId := call.context.instanceId
      worktreeId := worktreeKey call.context.worktreeId
      checkId := call.check.id
      stateFingerprint := observed.fingerprint
      configDigest := (call.resolved host).configDigest.getD "" } := by
  unfold Call.stable stableFingerprintResult at h
  split at h
  · rename_i before after hbefore hafter
    split_ifs at h
    rw [← Option.some.inj h]
    have hconfig : (call.resolved host).configDigest.isSome := by
      unfold Call.resolved resolveIdentity at hbefore ⊢
      dsimp only at hbefore ⊢
      rw [hbefore]
      rfl
    obtain ⟨configDigest, hconfig⟩ := Option.isSome_iff_exists.mp hconfig
    unfold Call.sought soughtIdentity
    rw [hbefore, hconfig]
    rfl
  · cases h

theorem execute_spec (host : Host) (call : Call) (force : Bool) (store : Store) :
    (executeManagedCheck host call.context call.check call.around force store).2 = store ∨
      ∃ observed run, Records host call store
        (executeManagedCheck host call.context call.check call.around force store).2 observed run := by
  unfold executeManagedCheck
  dsimp only
  split
  · exact .inl rfl
  · split
    · exact .inl rfl
    · rename_i observed hstable
      split
      · exact .inl rfl
      · rename_i recorded hrecorded
        obtain ⟨hruns, hevidence⟩ :=
          bridgeEvidence_spec call observed (call.passes host) recorded
        rw [recordCheckRun_spec hrecorded] at hruns hevidence ⊢
        refine .inr ⟨observed, _, hstable, ?_, rfl, hruns, hevidence⟩
        have hidentity : call.identity host = call.sought host :=
          congrArg (·.bind fun _ => call.sought host) hstable
        rw [hidentity, sought_of_stable hstable]
        rfl

theorem perform_spec (host : Host) (store : Store) (call : Call) :
    (perform host store call).2 = store ∨ (Event.mk store call).Executes host ∧
      ∃ observed run, Records host call store (perform host store call).2 observed run := by
  unfold perform
  cases hkind : call.kind with
  | assess => exact .inl rfl
  | run force =>
    dsimp only
    unfold runManagedCheck
    cases hreusable : reusableRun host call.context call.check call.around force store with
    | some run => exact .inl rfl
    | none =>
      rcases execute_spec host call force store with hsame | hrecords
      · exact .inl hsame
      · exact .inr ⟨⟨force, hkind, hreusable⟩, hrecords⟩

theorem execute_state {force : Bool}
    (h : (executeManagedCheck host call.context call.check call.around force store).1 =
      .ok receipt) : receipt.state ≠ .reusedPass := by
  have hstate : ∀ passed : Bool, (if passed then CheckReceiptState.executedPass
      else CheckReceiptState.executedFail) ≠ .reusedPass := by decide
  unfold executeManagedCheck at h
  dsimp only at h
  split at h
  · cases h
  · split at h
    · rw [← Except.ok.inj h]
      exact hstate _
    · split at h
      · cases h
      · obtain ⟨-, -, hreceipt⟩ := map_eq_ok.mp h
        rw [← hreceipt]
        exact hstate _

theorem found_of_reused (h : (perform host store call).1 = .ok receipt)
    (hstate : receipt.state = .reusedPass) : ∃ identity run, call.sought host = some identity ∧
      findReusableCheckRun store identity = some run := by
  unfold perform at h
  cases hkind : call.kind with
  | assess =>
    rw [hkind] at h
    replace h := Except.ok.inj h
    unfold assessManagedCheck at h
    dsimp only at h
    split at h
    · rw [← h] at hstate
      cases hstate
    · split at h
      · rename_i run hrun
        obtain ⟨identity, hidentity, hfound⟩ := Option.bind_eq_some_iff.mp hrun
        exact ⟨identity, run, hidentity, hfound⟩
      · split at h
        all_goals
          rw [← h] at hstate
          cases hstate
  | run force =>
    rw [hkind] at h
    dsimp only at h
    unfold runManagedCheck at h
    split at h
    · rename_i run hrun
      unfold reusableRun at hrun
      split_ifs at hrun
      obtain ⟨identity, hidentity, hfound⟩ := Option.bind_eq_some_iff.mp hrun
      exact ⟨identity, run, hidentity, hfound⟩
    · exact absurd hstate (execute_state h)

theorem forced_of_failed {event : Event} (h : event.FailedAs host run.identity)
    (hrun : run ∈ event.store.checkRuns) (hstatus : run.status = .passed) :
    event.call.kind = .run true := by
  obtain ⟨force, hkind, hreusable⟩ := h.executes
  cases force with
  | true => exact hkind
  | false =>
    have hidentity := h.identity
    unfold Call.identity at hidentity
    obtain ⟨-, -, hsought⟩ := Option.bind_eq_some_iff.mp hidentity
    have hnone : (event.call.sought host).bind (findReusableCheckRun event.store) = none := hreusable
    rw [hsought, Option.bind_some] at hnone
    exact absurd rfl (not_passed_of_findReusable hnone hrun hstatus)

end Recording

section Stability

variable {host : Host} {call : Call} {observed : StateFingerprint}

theorem observations_of_computed {sha256 : String → String} {first second : GitRunner}
    {input : StateFingerprintInput}
    (h : computeStateFingerprint sha256 first second input = .ok observed) :
    computeStateFingerprintObservation sha256 first input = .ok observed ∧
      ∃ again, computeStateFingerprintObservation sha256 second input = .ok again ∧
        observed.fingerprint = again.fingerprint := by
  unfold computeStateFingerprint at h
  split at h
  · cases h
  · rename_i hfirst
    split at h
    · cases h
    · rename_i again hsecond
      split_ifs at h with heq
      rw [← Except.ok.inj h]
      exact ⟨hfirst, again, hsecond, not_not.mp heq⟩

theorem observations_of_stable (h : call.stable host = some observed) :
    (call.resolved host).fingerprintResult = .ok observed ∧
      ∃ again, postFingerprintResult host call.check call.around = .ok again ∧
        observed.fingerprint = again.fingerprint := by
  unfold Call.stable stableFingerprintResult at h
  split at h
  · rename_i before after hbefore hafter
    split_ifs at h with heq
    rw [← Option.some.inj h]
    exact ⟨hbefore, after, hafter, heq⟩
  · cases h

/-- Where the state is stable, all looks show its commit; where the scope is the whole worktree,
they show it clean together. -/
theorem looks_of_stable (injective : Function.Injective host.sha256)
    (h : call.stable host = some observed) :
    (call.AllLooks fun head _ => head = observed.headCommit) ∧
      (call.check.input.scope = [] → call.before.status = [] →
        call.AllLooks fun _ status => status = []) := by
  obtain ⟨hbefore, again, hafter, heq⟩ := observations_of_stable h
  obtain ⟨hfirst, second, hsecond, heq₂⟩ := observations_of_computed hbefore
  obtain ⟨hthird, fourth, hfourth, heq₄⟩ := observations_of_computed hafter
  obtain ⟨_, h₁⟩ := observation_shows call.before hfirst
  obtain ⟨_, h₂⟩ := observation_shows call.beforeAgain hsecond
  obtain ⟨_, h₃⟩ := observation_shows call.after hthird
  obtain ⟨_, h₄⟩ := observation_shows call.afterAgain hfourth
  obtain ⟨hhead₂, hchanged₂⟩ := looks_agree injective h₁ h₂ heq₂
  obtain ⟨hhead₃, hchanged₃⟩ := looks_agree injective h₁ h₃ heq
  obtain ⟨hhead₄, hchanged₄⟩ := looks_agree injective h₁ h₄ (heq.trans heq₄)
  constructor
  · rw [h₁.headCommit]
    exact ⟨rfl, hhead₂.symm, hhead₃.symm, hhead₄.symm⟩
  · intro hscope hclean
    have hnone := (status_eq_nil_iff h₁ hscope).mp hclean
    refine ⟨hclean, (status_eq_nil_iff h₂ hscope).mpr ?_, (status_eq_nil_iff h₃ hscope).mpr ?_,
      (status_eq_nil_iff h₄ hscope).mpr ?_⟩
    · rw [← hchanged₂, hnone]
    · rw [← hchanged₃, hnone]
    · rw [← hchanged₄, hnone]

end Stability

section Runs

variable {host : Host} {instances : List String} {history : List Event} {store : Store}

/-- Every recorded pass is that of an execution which no failure has followed. -/
def PassesStand (host : Host) (history : List Event) (store : Store) : Prop :=
  ∀ run ∈ store.checkRuns, run.status = .passed →
    ∃ later passed before, history = later ++ passed :: before ∧
      passed.PassedAs host run.identity ∧ ∀ rerun ∈ later, ¬ rerun.FailedAs host run.identity

theorem passes_of_status {passed : Bool} (h : evidenceBridgeStatus passed = .passed) :
    passed = true := by
  cases passed with
  | true => rfl
  | false => cases h

theorem passesStand_step (stands : PassesStand host history store) (call : Call)
    (confirms : (Event.mk store call).ConfirmsPasses host) :
    PassesStand host (⟨store, call⟩ :: history) (perform host store call).2 := by
  have hold : ∀ run ∈ store.checkRuns, run.status = .passed →
      ∃ later passed before, Event.mk store call :: history = later ++ passed :: before ∧
        passed.PassedAs host run.identity ∧
          ∀ rerun ∈ later, ¬ rerun.FailedAs host run.identity := by
    intro run hrun hstatus
    obtain ⟨later, passed, before, hsplit, hpassed, hlater⟩ := stands run hrun hstatus
    refine ⟨⟨store, call⟩ :: later, passed, before, by rw [hsplit]; rfl, hpassed, ?_⟩
    refine List.forall_mem_cons.mpr ⟨fun hfailed => ?_, hlater⟩
    exact confirms (forced_of_failed hfailed hrun hstatus) hfailed.fails run hrun hstatus
      hfailed.identity
  intro run hrun hstatus
  rcases perform_spec host store call with hsame | ⟨hexecutes, observed, recorded, hrecords⟩
  · rw [hsame] at hrun
    exact hold run hrun hstatus
  · rw [hrecords.checkRuns] at hrun
    rcases List.mem_append.mp hrun with hrun | hrun
    · exact hold run hrun hstatus
    · rw [List.mem_singleton.mp hrun] at hstatus ⊢
      refine ⟨[], ⟨store, call⟩, history, rfl, ⟨hexecutes, hrecords.identity, ?_⟩,
        fun _ hrerun => absurd hrerun List.not_mem_nil⟩
      exact passes_of_status (hrecords.status.symm.trans hstatus)

theorem evidenceStands_step (injective : Function.Injective host.sha256)
    (stands : EvidenceStands host history store) (call : Call)
    (clean : (Event.mk store call).StartsClean host) :
    EvidenceStands host (⟨store, call⟩ :: history) (perform host store call).2 := by
  have hold : ∀ row ∈ store.evidence, row.status = .passed →
      ∃ event ∈ Event.mk store call :: history, event.Executes host ∧
        event.call.passes host = true ∧ event.call.context.instanceId = row.instanceId ∧
          event.call.check.evidenceName = some row.name ∧
            event.call.AllLooks fun head status => head = row.headCommit ∧ status = [] := by
    intro row hrow hstatus
    obtain ⟨event, hevent, hshown⟩ := stands row hrow hstatus
    exact ⟨event, List.mem_cons_of_mem _ hevent, hshown⟩
  intro row hrow hstatus
  rcases perform_spec host store call with hsame | ⟨hexecutes, observed, recorded, hrecords⟩
  · rw [hsame] at hrow
    exact hold row hrow hstatus
  · rcases hrecords.evidence row hrow with hrow | hrow
    · exact hold row hrow hstatus
    · have hpasses := passes_of_status (hrow.status.symm.trans hstatus)
      obtain ⟨hheads, hwhole⟩ := looks_of_stable injective hrecords.stable
      obtain ⟨hbefore, hscoped⟩ := clean hexecutes hpasses (by rw [hrecords.stable]; rfl)
        (by rw [hrow.name]; rfl) hrow.clean
      have hclean : call.AllLooks fun _ status => status = [] := by
        by_cases hscope : call.check.input.scope = []
        · exact hwhole hscope hbefore
        · exact hscoped hscope
      obtain ⟨h₁, h₂, h₃, h₄⟩ := hheads
      obtain ⟨hc₁, hc₂, hc₃, hc₄⟩ := hclean
      rw [← hrow.headCommit] at h₁ h₂ h₃ h₄
      exact ⟨_, List.mem_cons_self, hexecutes, hpasses, hrow.instanceId.symm, hrow.name,
        ⟨h₁, hc₁⟩, ⟨h₂, hc₂⟩, ⟨h₃, hc₃⟩, ⟨h₄, hc₄⟩⟩

theorem passesStand_run (run : Run host instances history store)
    (confirms : ∀ event ∈ history, event.ConfirmsPasses host) : PassesStand host history store := by
  induction run with
  | start => exact fun _ hrun => absurd hrun List.not_mem_nil
  | call run call ih =>
    obtain ⟨hevent, hhistory⟩ := List.forall_mem_cons.mp confirms
    exact passesStand_step (ih hhistory) call hevent

theorem evidenceStands_run (injective : Function.Injective host.sha256)
    (run : Run host instances history store)
    (clean : ∀ event ∈ history, event.StartsClean host) : EvidenceStands host history store := by
  induction run with
  | start => exact fun _ hrow => absurd hrow List.not_mem_nil
  | call run call ih =>
    obtain ⟨hevent, hhistory⟩ := List.forall_mem_cons.mp clean
    exact evidenceStands_step injective (ih hhistory) call hevent

theorem reuseJustified (stands : PassesStand host history store) (call : Call) :
    (Event.mk store call).ReuseJustified host history := by
  intro receipt hreceipt hstate
  obtain ⟨identity, run, hsought, hfound⟩ := found_of_reused hreceipt hstate
  obtain ⟨hrun, rfl, hstatus⟩ := found_of_findReusable hfound
  obtain ⟨later, passed, before, hsplit, hpassed, hlater⟩ := stands run hrun hstatus
  exact ⟨run.identity, later, passed, before, hsought, hsplit, hpassed, hlater⟩

theorem reuse_run (run : Run host instances history store)
    (confirms : ∀ event ∈ history, event.ConfirmsPasses host) :
    ∀ later event earlier, history = later ++ event :: earlier →
      event.ReuseJustified host earlier := by
  induction run with
  | start => exact fun later event earlier h => absurd h (by simp)
  | call run call ih =>
    intro later event earlier h
    obtain ⟨-, hhistory⟩ := List.forall_mem_cons.mp confirms
    cases later with
    | nil =>
      obtain ⟨rfl, rfl⟩ := List.cons.inj h
      exact reuseJustified (passesStand_run run hhistory) call
    | cons last later => exact ih hhistory later event earlier (List.cons.inj h).2

/-- A call that failed, or whose state was not the same before and after, adds no run to reuse. -/
theorem unrecorded (event : Event)
    (h : event.call.passes host = false ∨ event.call.identity host = none) (identity : RunIdentity) :
    findReusableCheckRun (perform host event.store event.call).2 identity =
      findReusableCheckRun event.store identity := by
  rcases perform_spec host event.store event.call with hsame | ⟨-, observed, run, hrecords⟩
  · rw [hsame]
  · rcases h with hfails | hnone
    · refine findReusable_failed identity hrecords.checkRuns ?_
      rw [hrecords.status, hfails]
      rfl
    · rw [hrecords.identity] at hnone
      cases hnone

end Runs

section Examples

def untrackedNotes : GitStatusEntry :=
  { path := "notes", indexStatus := '?', worktreeStatus := '?', originalPath := none }

def statusWith (notes : Bool) : List GitStatusEntry := if notes then [untrackedNotes] else []

def notesGit (notes : Bool) : GitRunner := fun command =>
  if command = ["rev-parse", "--verify", "HEAD"] then
    { stdout := String.ofList ("a1".toList ++ ['\n']), exitCode := some 0 }
  else if command = ["status", "--porcelain=v1", "-z", "--untracked-files=all"] then
    { stdout := String.ofList (statusOutput (statusWith notes)), exitCode := some 0 }
  else { stdout := "", exitCode := some 128 }

theorem statusWith_printed (notes : Bool) : ∀ entry ∈ statusWith notes, entry.IsPrinted := by
  intro entry hentry
  cases notes with
  | false => exact absurd hentry List.not_mem_nil
  | true =>
    rw [List.mem_singleton.mp hentry]
    exact ⟨by decide, by decide, by decide, by decide, rfl, fun _ h => by cases h⟩

theorem notesGit_hashObject (notes : Bool) (paths : List String) :
    nul ∉ (notesGit notes ("hash-object" :: "--" :: paths)).stdout.toList := by
  rw [notesGit, if_neg (by simp), if_neg (by simp)]
  exact List.not_mem_nil

def notesLook (notes : Bool) : Look (notesGit notes) where
  head := "a1"
  status := statusWith notes
  head_hex := rfl
  status_printed := statusWith_printed notes
  head_answer := fun _ => String.toList_ofList
  status_answer := fun _ => String.toList_ofList
  hashObject_plain := fun paths _ => notesGit_hashObject notes paths

theorem noPaths_plain : ∀ path ∈ ([] : List String), nul ∉ path.toList :=
  fun _ h => absurd h List.not_mem_nil

def lintCheck : ManagedCheckDefinition where
  id := "lint"
  label := "static analysis"
  command := "pnpm"
  args := ["run", "lint"]
  input := ⟨["src/*"], [], noPaths_plain⟩
  required := true
  evidenceName := some "lint"

def lintCall (kind : CallKind) (exitCode : ℤ) (runId : String) (notes : Bool) : Call where
  kind := kind
  context := { workspaceRoot := "/work", instanceId := "instance" }
  check := lintCheck
  around := {
    before := notesGit notes
    beforeAgain := notesGit notes
    after := notesGit notes
    afterAgain := notesGit notes
    last := notesGit false
    runProgram := fun _ => { stdout := "", exitCode := some exitCode }
    startedAt := 0
    endedAt := 0
    recordedAt := 0
    evidenceRecordedAt := 0
    putArtifact := fun _ => .ok "mx_1"
    randomUUID := runId }
  before := notesLook notes
  beforeAgain := notesLook notes
  after := notesLook notes
  afterAgain := notesLook notes
  last := notesLook false

def plainHost : Host where
  sha256 := id
  nodeVersion := "v22.0.0"
  platform := "linux"
  arch := "x64"
  joinPath := fun root path => root ++ "/" ++ path
  isoString := fun _ => "1970-01-01T00:00:00.000Z"

def emptyStore : Store := { instances := ["instance"] }

def passedLint : Event := ⟨emptyStore, lintCall (.run false) 0 "1" false⟩

def afterPass : Store := (perform plainHost emptyStore passedLint.call).2

def failedLint : Event := ⟨afterPass, lintCall (.run true) 1 "2" false⟩

def afterFailure : Store := (perform plainHost afterPass failedLint.call).2

def assessedLint (store : Store) : Event := ⟨store, lintCall .assess 0 "3" false⟩

/-- A pass that starts with the notes in the worktree, outside of the scope. -/
def uncleanLint : Event := ⟨emptyStore, lintCall (.run false) 0 "1" true⟩

def reuses (result : Except String CheckReceipt) : Bool :=
  match result with
  | .ok receipt => receipt.state = .reusedPass
  | .error _ => false

theorem receipt_of_reuses {result : Except String CheckReceipt} (h : reuses result = true) :
    ∃ receipt, result = .ok receipt ∧ receipt.state = .reusedPass := by
  cases result with
  | error error => cases h
  | ok receipt => exact ⟨receipt, rfl, of_decide_eq_true h⟩

theorem failedLint_reused : ¬ (assessedLint afterFailure).ReuseJustified plainHost
    [failedLint, passedLint] := by
  intro h
  obtain ⟨receipt, hreceipt, hstate⟩ := receipt_of_reuses
    (show reuses (perform plainHost afterFailure (assessedLint afterFailure).call).1 = true by
      decide +kernel)
  obtain ⟨identity, later, passed, before, hsought, hsplit, hpassed, hlater⟩ :=
    h receipt hreceipt hstate
  have hfails : failedLint.call.passes plainHost = false := by decide +kernel
  have hfailed : failedLint.FailedAs plainHost identity := by
    refine ⟨⟨true, rfl, rfl⟩, ?_, hfails⟩
    rw [← hsought]
    decide +kernel
  cases later with
  | nil =>
    obtain ⟨rfl, -⟩ := List.cons.inj hsplit
    rw [hpassed.passes] at hfails
    cases hfails
  | cons last later =>
    obtain ⟨rfl, -⟩ := List.cons.inj hsplit
    exact hlater failedLint List.mem_cons_self hfailed

end Examples

end Mottainai.ValidationGovernor

import Mottainai.ExecutionManifests
import Mottainai.SeparatedTexts

/-!
# Fingerprints of a repository's state

The fingerprint of a worktree is a digest of its commit, of the changes that `git status` lists in
the scope of a check, with the blob digests of the files, and of the blob digests of its
configuration files. It is taken twice, and kept where both agree. The payload is read back part by
part, since no part has a NUL and an entry is told from a configuration file by its status.
-/

namespace Mottainai.ValidationGovernor

open JavaScriptValues JsonValues

section Scope

/-- What a part of a glob pattern stands for in the regular expression: a character, `[^/]`,
`[^/]*`, `(?:.*/)?` or `.*`. -/
inductive GlobToken where
  | literal (unit : ℕ)
  | one
  | within
  | segments
  | anything
  deriving DecidableEq

def star : ℕ := 0x2A

def questionMark : ℕ := 0x3F

def slash : ℕ := 0x2F

/-- The code units that `.` does not match. -/
def isLineTerminator (unit : ℕ) : Bool := [0x0A, 0x0D, 0x2028, 0x2029].contains unit

def singleToken (unit : ℕ) : GlobToken :=
  if unit = star then .within else if unit = questionMark then .one else .literal unit

def globTokens : List ℕ → List GlobToken
  | [] => []
  | [c] => [singleToken c]
  | [c, d] => if c = star ∧ d = star then [.anything] else [singleToken c, singleToken d]
  | c :: d :: e :: rest =>
    if c = star ∧ d = star then
      .segments :: (if e = slash then globTokens rest else globTokens (e :: rest))
    else singleToken c :: globTokens (d :: e :: rest)

/-- The ways to cut a text in two. -/
def cuts : List ℕ → List (List ℕ × List ℕ)
  | [] => [([], [])]
  | unit :: rest => ([], unit :: rest) :: (cuts rest).map fun cut => (unit :: cut.1, cut.2)

def matchTokens : List GlobToken → List ℕ → Bool
  | [], text => text.isEmpty
  | .literal unit :: tokens, text =>
    match text with
    | [] => false
    | c :: rest => c = unit && matchTokens tokens rest
  | .one :: tokens, text =>
    match text with
    | [] => false
    | c :: rest => c ≠ slash && matchTokens tokens rest
  | .within :: tokens, text =>
    (cuts text).any fun cut => cut.1.all (· ≠ slash) && matchTokens tokens cut.2
  | .segments :: tokens, text =>
    matchTokens tokens text || (cuts text).any fun cut =>
      cut.1.getLast? = some slash && cut.1.dropLast.all (!isLineTerminator ·) &&
        matchTokens tokens cut.2
  | .anything :: tokens, text =>
    (cuts text).any fun cut => cut.1.all (!isLineTerminator ·) && matchTokens tokens cut.2

/-- The code units of a path, with `/` for each backslash. -/
def normalizedUnits (text : String) : List ℕ :=
  (text.toList.flatMap utf16).map fun unit => if unit = 0x5C then slash else unit

/-- `globToRegExp`, as tokens. -/
def compilePattern (pattern : String) : List GlobToken :=
  let normalized := normalizedUnits pattern
  globTokens (if [0x2E, slash].isPrefixOf normalized then normalized.drop 2 else normalized)

def matchesScope (path : String) (patterns : List String) : Bool :=
  patterns.any fun pattern => matchTokens (compilePattern pattern) (normalizedUnits path)

end Scope

section Git

structure RunResult where
  stdout : String
  stderr : String := ""
  exitCode : Option ℤ
  spawnError : Option String := none
  timedOut : Bool := false
  outputLimit : Bool := false

def RunResult.usable (result : RunResult) : Bool :=
  result.spawnError.isNone && !result.timedOut && !result.outputLimit && result.exitCode.isSome

/-- The command ran to its end and reported no failure. -/
def RunResult.succeeded (result : RunResult) : Bool :=
  result.usable && result.exitCode = some 0

abbrev GitRunner : Type := List String → RunResult

structure Failure where
  reason : String
  detail : String
  deriving DecidableEq

def gitCommandFailure (result : RunResult) : Failure :=
  if result.spawnError.isSome then
    { reason := "git-spawn-failed", detail := "git process could not be started" }
  else if result.timedOut then
    { reason := "git-timeout", detail := "git command exceeded its bounded timeout" }
  else if result.outputLimit then
    { reason := "git-output-limit", detail := "git output exceeded its bounded capture limit" }
  else match result.exitCode with
    | none => { reason := "git-command-failed", detail := "git command did not complete" }
    | some code =>
      { reason := "git-command-failed", detail := s!"git command exited with code {code}" }

structure GitStatusEntry where
  path : String
  indexStatus : Char
  worktreeStatus : Char
  originalPath : Option String
  deriving DecidableEq

/-- An entry of a rename or a copy, after which the original path is listed. -/
def isRenamed (indexStatus worktreeStatus : Char) : Bool :=
  indexStatus = 'R' || indexStatus = 'C' || worktreeStatus = 'R' || worktreeStatus = 'C'

/-- The entries in the records of `git status -z`, whose first three characters are of ASCII. -/
def parseStatusRecords : List (List Char) → List GitStatusEntry
  | [] => []
  | record :: records =>
    match record with
    | indexStatus :: worktreeStatus :: _ :: c :: path =>
      let entry := GitStatusEntry.mk (String.ofList (c :: path)) indexStatus worktreeStatus
      if isRenamed indexStatus worktreeStatus then
        match records with
        | [] => [entry none]
        | original :: records => entry (some (String.ofList original)) :: parseStatusRecords records
      else entry none :: parseStatusRecords records
    | _ => parseStatusRecords records

def nul : Char := '\x00'

def parseStatusEntries (output : String) : List GitStatusEntry :=
  parseStatusRecords ((output.toList.splitOn nul).filter (· ≠ []))

def readGitStatus (git : GitRunner) : Except Failure (List GitStatusEntry) :=
  let result := git ["status", "--porcelain=v1", "-z", "--untracked-files=all"]
  if result.succeeded then .ok (parseStatusEntries result.stdout)
  else .error (gitCommandFailure result)

end Git

section Fingerprint

structure ChangedEntryFingerprint where
  path : String
  indexStatus : Char
  worktreeStatus : Char
  originalPath : Option String
  contentDigest : String
  deriving DecidableEq

structure RepositoryStateSnapshot where
  headCommit : String
  changed : List ChangedEntryFingerprint
  configFileDigests : List (String × String)
  wholeWorktreeScope : Bool
  overallClean : Bool
  deriving DecidableEq

structure StateFingerprint where
  fingerprint : String
  headCommit : String
  snapshot : RepositoryStateSnapshot
  deriving DecidableEq

/-- The scope of a check and its configuration files. Like every path, theirs have no NUL. -/
structure StateFingerprintInput where
  scope : List String
  configPaths : List String
  configPaths_plain : ∀ path ∈ configPaths, nul ∉ path.toList

/-- `parts.join(separator)`. -/
def joinTexts (separator : List Char) (parts : List String) : String :=
  String.ofList (separator.intercalate (parts.map String.toList))

def firstOccurrences : List String → List String
  | [] => []
  | text :: texts => text :: (firstOccurrences texts).filter (· ≠ text)

def canonicalChangedEntry (entry : ChangedEntryFingerprint) : String :=
  joinTexts [nul] [entry.path, String.singleton entry.indexStatus,
    String.singleton entry.worktreeStatus, entry.originalPath.getD "", entry.contentDigest]

/-- The blob digests of the files, by one call of `git hash-object`. -/
def batchHashObjects (git : GitRunner) (paths : List String) :
    Except Failure (List (String × String)) :=
  if paths = [] then .ok []
  else
    let result := git ("hash-object" :: "--" :: paths)
    if result.succeeded then
      let lines := ((result.stdout.toList.splitOn '\n').filter (· ≠ [])).map String.ofList
      if lines.length ≠ paths.length then
        .error { reason := "hash-object-mismatch"
                 detail := "git hash-object returned an unexpected line count" }
      else .ok (paths.zip lines)
    else .error (gitCommandFailure result)

/-- The digest of a configuration file; `absent` where git gives none. -/
def configFileDigest (git : GitRunner) (knownDigests : List (String × String))
    (configPath : String) : String :=
  match knownDigests.lookup configPath with
  | some known => known
  | none =>
    match batchHashObjects git [configPath] with
    | .ok digests => (digests.lookup configPath).getD "absent"
    | .error _ => "absent"

/-- The digests as an object by path, on which the key `__proto__` sets no property. -/
def resolveConfigFileDigests (git : GitRunner) (configPaths : List String)
    (knownDigests : List (String × String)) : List (String × String) :=
  (configPaths.filter (· ≠ "__proto__")).map fun path =>
    (path, configFileDigest git knownDigests path)

def entriesInScope (scope : List String) (entries : List GitStatusEntry) : List GitStatusEntry :=
  if scope = [] then entries
  else entries.filter fun entry =>
    matchesScope entry.path scope || entry.originalPath.any (matchesScope · scope)

def isListedDeleted (entry : GitStatusEntry) : Bool :=
  entry.worktreeStatus = 'D' || entry.indexStatus = 'D' && entry.worktreeStatus = ' '

def changedEntry (digests : List (String × String)) (entry : GitStatusEntry) :
    ChangedEntryFingerprint where
  path := entry.path
  indexStatus := entry.indexStatus
  worktreeStatus := entry.worktreeStatus
  originalPath := entry.originalPath
  contentDigest := (digests.lookup entry.path).getD "deleted"

def configText (config : String × String) : String := "config:" ++ config.1 ++ "=" ++ config.2

def fingerprintPayload (scope : List String) (snapshot : RepositoryStateSnapshot) : String :=
  joinTexts [nul, nul]
    (("head=" ++ snapshot.headCommit) ::
      ("scope=" ++ if scope = [] then "*" else joinTexts [','] (sortKeys scope)) ::
      (snapshot.changed.map canonicalChangedEntry ++
        (sortBy Prod.fst snapshot.configFileDigests).map configText))

variable (sha256 : String → String)

def computeStateFingerprintObservation (git : GitRunner) (input : StateFingerprintInput) :
    Except Failure StateFingerprint :=
  let configPaths := sortKeys (firstOccurrences input.configPaths)
  let headResult := git ["rev-parse", "--verify", "HEAD"]
  let headCommit := ExecutionManifests.trim headResult.stdout
  if headResult.succeeded = false ∨ headCommit = "" then .error (gitCommandFailure headResult)
  else do
    let entries ← readGitStatus git
    let inScope := entriesInScope input.scope entries
    let existingPaths := firstOccurrences ((inScope.filter (!isListedDeleted ·)).map (·.path))
    let digests ← batchHashObjects git existingPaths
    let snapshot : RepositoryStateSnapshot := {
      headCommit := headCommit
      changed := sortBy (·.path) (inScope.map (changedEntry digests))
      configFileDigests := resolveConfigFileDigests git configPaths digests
      wholeWorktreeScope := input.scope.isEmpty
      overallClean := entries.isEmpty }
    let payload := fingerprintPayload input.scope snapshot
    return { fingerprint := "sf_" ++ sha256 ("mottainai/state-fingerprint/v1\n" ++ payload)
             headCommit := headCommit
             snapshot := snapshot }

def computeStateFingerprint (first second : GitRunner) (input : StateFingerprintInput) :
    Except Failure StateFingerprint :=
  match computeStateFingerprintObservation sha256 first input with
  | .error failure => .error failure
  | .ok observed =>
    match computeStateFingerprintObservation sha256 second input with
    | .error failure => .error {
        reason := "fingerprint-unavailable"
        detail := "repository state could not be observed consistently (" ++ failure.reason ++ ": " ++
          failure.detail ++ ")" }
    | .ok again =>
      if observed.fingerprint ≠ again.fingerprint then .error {
        reason := "fingerprint-unstable"
        detail := "repository state changed during fingerprint acquisition" }
      else .ok observed

end Fingerprint

open SeparatedTexts

section Repository

abbrev Content : Type := List UInt8

/-- What there is at a path of the worktree. -/
inductive FileNode where
  | regular (executable : Bool) (content : Content)
  | symlink (target : String)
  | directory
  deriving DecidableEq

structure GitStatusEntry.IsPrinted (entry : GitStatusEntry) : Prop where
  path_nonempty : entry.path.toList ≠ []
  path_plain : nul ∉ entry.path.toList
  indexStatus_plain : entry.indexStatus ≠ nul
  worktreeStatus_plain : entry.worktreeStatus ≠ nul
  renamed : isRenamed entry.indexStatus entry.worktreeStatus = entry.originalPath.isSome
  original_plain : ∀ original, entry.originalPath = some original →
    original.toList ≠ [] ∧ nul ∉ original.toList

def isHexText (text : String) : Bool :=
  text ≠ "" && text.toList.all fun c => "0123456789abcdef".toList.contains c

/-- The state of a repository and its worktree. A path is opened through links, and `git
hash-object` filters what it reads. -/
structure RepositoryState where
  head : String
  status : List GitStatusEntry
  node : String → Option FileNode
  opened : String → Option Content
  filtered : String → Content → Content
  head_hex : isHexText head = true
  status_printed : ∀ entry ∈ status, entry.IsPrinted
  deleted_absent : ∀ entry ∈ status, entry.worktreeStatus = 'D' → node entry.path = none
  opened_absent : ∀ path, node path = none → opened path = none
  opened_regular : ∀ path executable content, node path = some (.regular executable content) →
    opened path = none ∨ opened path = some content

def RepositoryState.blob (state : RepositoryState) (path : String) : Option Content :=
  (state.opened path).map (state.filtered path)

structure BlobDigest where
  digest : Content → String
  injective : Function.Injective digest
  isHex : ∀ content, isHexText (digest content) = true

def statusRecord (entry : GitStatusEntry) : List (List Char) :=
  (entry.indexStatus :: entry.worktreeStatus :: ' ' :: entry.path.toList) ::
    entry.originalPath.toList.map String.toList

/-- What `git status --porcelain=v1 -z` prints. -/
def statusOutput (status : List GitStatusEntry) : List Char :=
  (status.flatMap statusRecord).flatMap (· ++ [nul])

/-- What git answers about a state, wherever it does not fail. -/
structure Answers (blobs : BlobDigest) (state : RepositoryState) (git : GitRunner) : Prop where
  head : (git ["rev-parse", "--verify", "HEAD"]).succeeded →
    (git ["rev-parse", "--verify", "HEAD"]).stdout.toList = state.head.toList ++ ['\n']
  status : (git ["status", "--porcelain=v1", "-z", "--untracked-files=all"]).succeeded →
    (git ["status", "--porcelain=v1", "-z", "--untracked-files=all"]).stdout.toList =
      statusOutput state.status
  hashObject : ∀ paths, (git ("hash-object" :: "--" :: paths)).succeeded →
    ∃ contents : List Content, paths.map state.blob = contents.map some ∧
      (git ("hash-object" :: "--" :: paths)).stdout.toList =
        (contents.map fun content => (blobs.digest content).toList).flatMap (· ++ ['\n'])

end Repository

section Texts

theorem joinTexts_toList (separator : List Char) (parts : List String) :
    (joinTexts separator parts).toList = separator.intercalate (parts.map String.toList) :=
  String.toList_ofList

variable {text : String}

theorem mem_hex_of_isHexText (h : isHexText text = true) :
    text.toList ≠ [] ∧ ∀ c ∈ text.toList, c ∈ "0123456789abcdef".toList := by
  rw [isHexText, Bool.and_eq_true, List.all_eq_true] at h
  refine ⟨fun hnil => ?_, fun c hc => List.contains_iff_mem.mp (h.2 c hc)⟩
  exact of_decide_eq_true h.1 (String.toList_inj.mp (hnil.trans rfl))

theorem plain_of_isHexText (h : isHexText text = true) (x : Char)
    (hx : x ∉ "0123456789abcdef".toList) : x ∉ text.toList :=
  fun hmem => hx ((mem_hex_of_isHexText h).2 x hmem)

/-- The commit is what is left of its line. -/
theorem trim_hexLine {text output : String} (h : isHexText text = true)
    (houtput : output.toList = text.toList ++ ['\n']) : ExecutionManifests.trim output = text := by
  have hhex := mem_hex_of_isHexText h
  have hvisible : "0123456789abcdef".toList.all (!isWhiteSpace ·) = true := by decide
  have hall : ∀ c ∈ text.toList, isWhiteSpace c = false := fun c hc =>
    (Bool.not_eq_true' _).mp (List.all_eq_true.mp hvisible c (hhex.2 c hc))
  rw [ExecutionManifests.trim_line hhex.1 hall houtput, String.ofList_toList]

end Texts

section Status

variable {indexStatus worktreeStatus : Char} {status : List GitStatusEntry}

theorem parseStatusRecords_plain (h : isRenamed indexStatus worktreeStatus = false) (x c : Char)
    (path : List Char) (records : List (List Char)) :
    parseStatusRecords ((indexStatus :: worktreeStatus :: x :: c :: path) :: records) =
      ⟨String.ofList (c :: path), indexStatus, worktreeStatus, none⟩ ::
        parseStatusRecords records := by
  conv_lhs => unfold parseStatusRecords
  dsimp only
  rw [if_neg (by rw [h]; exact Bool.false_ne_true)]

theorem parseStatusRecords_renamed (h : isRenamed indexStatus worktreeStatus = true) (x c : Char)
    (path original : List Char) (records : List (List Char)) :
    parseStatusRecords ((indexStatus :: worktreeStatus :: x :: c :: path) :: original :: records) =
      ⟨String.ofList (c :: path), indexStatus, worktreeStatus, some (String.ofList original)⟩ ::
        parseStatusRecords records := by
  conv_lhs => unfold parseStatusRecords
  dsimp only
  rw [if_pos h]

theorem parseStatusRecords_printed (h : ∀ entry ∈ status, entry.IsPrinted) :
    parseStatusRecords (status.flatMap statusRecord) = status := by
  induction status with
  | nil => rfl
  | cons entry status ih =>
    obtain ⟨hentry, hstatus⟩ := List.forall_mem_cons.mp h
    obtain ⟨c, path, hpath⟩ := List.exists_cons_of_ne_nil hentry.path_nonempty
    have htext : String.ofList (c :: path) = entry.path := by rw [← hpath, String.ofList_toList]
    cases horiginal : entry.originalPath with
    | none =>
      have hplain : isRenamed entry.indexStatus entry.worktreeStatus = false := by
        rw [hentry.renamed, horiginal]
        rfl
      rw [List.flatMap_cons, statusRecord, horiginal, hpath]
      change parseStatusRecords ((entry.indexStatus :: entry.worktreeStatus :: ' ' :: c :: path) ::
        status.flatMap statusRecord) = _
      rw [parseStatusRecords_plain hplain, htext, ih hstatus, ← horiginal]
    | some original =>
      have hrenamed : isRenamed entry.indexStatus entry.worktreeStatus = true := by
        rw [hentry.renamed, horiginal]
        rfl
      rw [List.flatMap_cons, statusRecord, horiginal, hpath]
      change parseStatusRecords ((entry.indexStatus :: entry.worktreeStatus :: ' ' :: c :: path) ::
        original.toList :: status.flatMap statusRecord) = _
      rw [parseStatusRecords_renamed hrenamed, htext, ih hstatus, String.ofList_toList,
        ← horiginal]

theorem parseStatusEntries_printed {output : String} (h : ∀ entry ∈ status, entry.IsPrinted)
    (houtput : output.toList = statusOutput status) : parseStatusEntries output = status := by
  have hrecords : ∀ record ∈ status.flatMap statusRecord, nul ∉ record ∧ record ≠ [] := by
    intro record hrecord
    obtain ⟨entry, hentry, hmem⟩ := List.mem_flatMap.mp hrecord
    have hprinted := h entry hentry
    rcases List.mem_cons.mp hmem with rfl | hmem
    · refine ⟨?_, List.cons_ne_nil _ _⟩
      simp only [List.mem_cons, not_or]
      exact ⟨hprinted.indexStatus_plain.symm, hprinted.worktreeStatus_plain.symm, by decide,
        hprinted.path_plain⟩
    · obtain ⟨original, horiginal, rfl⟩ := List.mem_map.mp hmem
      exact (hprinted.original_plain original (Option.mem_toList.mp horiginal)).symm
  rw [parseStatusEntries, houtput, statusOutput, splitOn_terminated hrecords,
    parseStatusRecords_printed h]

end Status

section Payload

/-- The parts of an entry, after the empty one that its double separator leaves. -/
def entryTokens (entry : ChangedEntryFingerprint) : List (List Char) :=
  [[], entry.path.toList, [entry.indexStatus], [entry.worktreeStatus],
    (entry.originalPath.getD "").toList, entry.contentDigest.toList]

def configTokens (config : String × String) : List (List Char) := [[], (configText config).toList]

structure ChangedEntryFingerprint.IsPlain (entry : ChangedEntryFingerprint) : Prop where
  tokens : ∀ token ∈ entryTokens entry, nul ∉ token
  original : ∀ original, entry.originalPath = some original → original ≠ ""

theorem flatMap_entryTokens (entry : ChangedEntryFingerprint) :
    (entryTokens entry).flatMap (nul :: ·) =
      nul :: nul :: (canonicalChangedEntry entry).toList := by
  simp [canonicalChangedEntry, joinTexts_toList, intercalate_cons, entryTokens]

theorem flatMap_configTokens (config : String × String) :
    (configTokens config).flatMap (nul :: ·) = nul :: nul :: (configText config).toList := by
  simp [configTokens]

theorem flatMap_flatMap_cons {α : Type} (f : α → List (List Char)) (l : List α) :
    (l.flatMap f).flatMap (nul :: ·) = l.flatMap fun a => (f a).flatMap (nul :: ·) :=
  List.flatMap_assoc

/-- The payload: the commit, the scope, and the parts of the entries and the files. -/
theorem fingerprintPayload_toList (scope : List String) (snapshot : RepositoryStateSnapshot) :
    (fingerprintPayload scope snapshot).toList =
      "head=".toList ++ (snapshot.headCommit.toList ++ nul :: (nul ::
        (("scope=" ++ if scope = [] then "*" else joinTexts [','] (sortKeys scope)).toList ++
          (snapshot.changed.flatMap entryTokens ++
            (sortBy Prod.fst snapshot.configFileDigests).flatMap configTokens).flatMap
              (nul :: ·)))) := by
  rw [fingerprintPayload, joinTexts_toList, List.map_cons, List.map_cons, intercalate_cons,
    List.flatMap_cons, List.map_append, List.flatMap_append, List.flatMap_append,
    flatMap_flatMap_cons, flatMap_flatMap_cons, List.map_map, List.map_map, List.flatMap_map,
    List.flatMap_map]
  simp only [Function.comp_apply, flatMap_entryTokens, flatMap_configTokens,
    String.toList_append, List.append_assoc, List.cons_append, List.nil_append]

theorem entry_eq_of_tokens {entry entry' : ChangedEntryFingerprint} (h : entry.IsPlain)
    (h' : entry'.IsPlain) (heq : entryTokens entry = entryTokens entry') : entry = entry' := by
  obtain ⟨path, indexStatus, worktreeStatus, originalPath, contentDigest⟩ := entry
  obtain ⟨path', indexStatus', worktreeStatus', originalPath', contentDigest'⟩ := entry'
  simp only [entryTokens, List.cons.injEq, String.toList_inj, and_true, true_and] at heq
  obtain ⟨rfl, rfl, rfl, horiginal, rfl⟩ := heq
  congr
  cases originalPath with
  | none =>
    cases originalPath' with
    | none => rfl
    | some original => exact absurd horiginal.symm (h'.original original rfl)
  | some original =>
    cases originalPath' with
    | none => exact absurd horiginal (h.original original rfl)
    | some original' => exact congrArg some horiginal

variable {configs configs' : List (String × String)}

theorem configTexts_of_tokens (h : configs.flatMap configTokens = configs'.flatMap configTokens) :
    configs.map configText = configs'.map configText := by
  induction configs generalizing configs' with
  | nil =>
    cases configs' with
    | nil => rfl
    | cons config' configs' => cases h
  | cons config configs ih =>
    cases configs' with
    | nil => cases h
    | cons config' configs' =>
      simp only [List.flatMap_cons, configTokens, List.cons_append, List.nil_append,
        List.cons.injEq, true_and, String.toList_inj] at h
      rw [List.map_cons, List.map_cons, h.1, ih h.2]

/-- An entry is not taken for a file: after its path there is its status. -/
theorem configs_ne_entry {configs : List (String × String)} {entry : ChangedEntryFingerprint}
    {rest : List (List Char)} : configs.flatMap configTokens ≠ entryTokens entry ++ rest := by
  intro h
  cases configs with
  | nil => cases h
  | cons config configs =>
    simp only [List.flatMap_cons, configTokens, entryTokens, List.cons_append, List.nil_append,
      List.cons.injEq, true_and] at h
    cases configs with
    | nil => cases h.2
    | cons next configs =>
      simp only [List.flatMap_cons, configTokens, List.cons_append, List.cons.injEq] at h
      exact List.cons_ne_nil _ _ h.2.1.symm

theorem parts_of_tokens {entries entries' : List ChangedEntryFingerprint}
    (h : ∀ entry ∈ entries, entry.IsPlain) (h' : ∀ entry ∈ entries', entry.IsPlain)
    (heq : entries.flatMap entryTokens ++ configs.flatMap configTokens =
      entries'.flatMap entryTokens ++ configs'.flatMap configTokens) :
    entries = entries' ∧ configs.map configText = configs'.map configText := by
  induction entries generalizing entries' with
  | nil =>
    cases entries' with
    | nil => exact ⟨rfl, configTexts_of_tokens heq⟩
    | cons entry' entries' =>
      rw [List.flatMap_cons, List.append_assoc] at heq
      exact absurd heq configs_ne_entry
  | cons entry entries ih =>
    cases entries' with
    | nil =>
      rw [List.flatMap_cons, List.append_assoc] at heq
      exact absurd heq.symm configs_ne_entry
    | cons entry' entries' =>
      rw [List.flatMap_cons, List.flatMap_cons, List.append_assoc, List.append_assoc] at heq
      obtain ⟨hentry, hrest⟩ := List.append_inj heq rfl
      obtain ⟨hplain, hentries⟩ := List.forall_mem_cons.mp h
      obtain ⟨hplain', hentries'⟩ := List.forall_mem_cons.mp h'
      obtain ⟨hrest, hconfigs⟩ := ih hentries hentries' hrest
      exact ⟨by rw [entry_eq_of_tokens hplain hplain' hentry, hrest], hconfigs⟩

structure RepositoryStateSnapshot.IsPlain (snapshot : RepositoryStateSnapshot) : Prop where
  head : nul ∉ snapshot.headCommit.toList
  changed : ∀ entry ∈ snapshot.changed, entry.IsPlain
  configs : ∀ config ∈ snapshot.configFileDigests, nul ∉ (configText config).toList

theorem parts_of_payload {scope : List String} {snapshot snapshot' : RepositoryStateSnapshot}
    (h : snapshot.IsPlain) (h' : snapshot'.IsPlain)
    (heq : fingerprintPayload scope snapshot = fingerprintPayload scope snapshot') :
    snapshot.headCommit = snapshot'.headCommit ∧ snapshot.changed = snapshot'.changed ∧
      (sortBy Prod.fst snapshot.configFileDigests).map configText =
        (sortBy Prod.fst snapshot'.configFileDigests).map configText := by
  have hlists := congrArg String.toList heq
  rw [fingerprintPayload_toList, fingerprintPayload_toList] at hlists
  obtain ⟨hhead, hrest⟩ := append_separator_inj h.head h'.head (List.append_cancel_left hlists)
  have htokens := List.append_cancel_left (List.cons.inj hrest).2
  have hplain : ∀ {snapshot : RepositoryStateSnapshot}, snapshot.IsPlain →
      ∀ token ∈ snapshot.changed.flatMap entryTokens ++
        (sortBy Prod.fst snapshot.configFileDigests).flatMap configTokens, nul ∉ token := by
    intro snapshot h token htoken
    rcases List.mem_append.mp htoken with htoken | htoken
    · obtain ⟨entry, hentry, htoken⟩ := List.mem_flatMap.mp htoken
      exact (h.changed entry hentry).tokens token htoken
    · obtain ⟨config, hconfig, htoken⟩ := List.mem_flatMap.mp htoken
      rcases List.mem_cons.mp htoken with rfl | htoken
      · exact List.not_mem_nil
      · rw [List.mem_singleton.mp htoken]
        exact h.configs config (mem_sortBy.mp hconfig)
  obtain ⟨hchanged, hconfigs⟩ := parts_of_tokens h.changed h'.changed
    (flatMap_cons_injective (hplain h) (hplain h') htokens)
  exact ⟨String.toList_inj.mp hhead, hchanged, hconfigs⟩

end Payload

section Observation

variable {blobs : BlobDigest} {state : RepositoryState} {git : GitRunner} {paths : List String}
variable {digests : List (String × String)} {path digest : String}

def IsHashed (blobs : BlobDigest) (state : RepositoryState) (digests : List (String × String)) :
    Prop :=
  ∀ path digest, digests.lookup path = some digest →
    ∃ content, state.blob path = some content ∧ digest = blobs.digest content

theorem digestLine_plain (blobs : BlobDigest) (content : Content) :
    '\n' ∉ (blobs.digest content).toList ∧ (blobs.digest content).toList ≠ [] :=
  ⟨plain_of_isHexText (blobs.isHex content) '\n' (by decide),
    (mem_hex_of_isHexText (blobs.isHex content)).1⟩

theorem zip_hashed {contents : List Content} (h : paths.map state.blob = contents.map some) :
    IsHashed blobs state (paths.zip (contents.map blobs.digest)) := by
  induction paths generalizing contents with
  | nil => intro path digest hlookup; cases hlookup
  | cons first paths ih =>
    cases contents with
    | nil => intro path digest hlookup; cases hlookup
    | cons content contents =>
      obtain ⟨hfirst, hrest⟩ := List.cons.inj h
      intro path digest hlookup
      rw [List.map_cons, List.zip_cons_cons, List.lookup_cons] at hlookup
      by_cases hpath : path = first
      · subst hpath
        rw [beq_self_eq_true] at hlookup
        exact ⟨content, hfirst, (Option.some.inj hlookup).symm⟩
      · rw [beq_false_of_ne hpath] at hlookup
        exact ih hrest path digest hlookup

/-- What `git hash-object` gives for a list of paths. -/
theorem batchHashObjects_spec (hanswers : Answers blobs state git)
    (h : batchHashObjects git paths = .ok digests) :
    IsHashed blobs state digests ∧ digests.map Prod.fst = paths := by
  unfold batchHashObjects at h
  by_cases hnil : paths = []
  · rw [if_pos hnil] at h
    rw [← Except.ok.inj h, hnil]
    exact ⟨fun _ _ hlookup => (Option.some_ne_none _ hlookup.symm).elim, rfl⟩
  · rw [if_neg hnil] at h
    dsimp only at h
    split_ifs at h with hsucceeded hlength
    obtain ⟨contents, hcontents, houtput⟩ := hanswers.hashObject paths hsucceeded
    have hlines : ((((git ("hash-object" :: "--" :: paths)).stdout.toList.splitOn '\n').filter
        (· ≠ [])).map String.ofList) = contents.map blobs.digest := by
      rw [houtput, splitOn_terminated, List.map_map]
      · exact List.map_congr_left fun content _ => String.ofList_toList
      · intro line hline
        obtain ⟨content, -, rfl⟩ := List.mem_map.mp hline
        exact digestLine_plain blobs content
    rw [hlines] at h
    rw [← Except.ok.inj h]
    have hcount : paths.length = contents.length := by
      simpa using congrArg List.length hcontents
    exact ⟨zip_hashed hcontents, List.map_fst_zip (by simp [hcount])⟩

/-- The digest of a configuration file is that of its content, unless it is `absent`. -/
theorem configFileDigest_spec (hanswers : Answers blobs state git)
    (hknown : IsHashed blobs state digests) (path : String) :
    configFileDigest git digests path = "absent" ∨
      ∃ content, state.blob path = some content ∧
        configFileDigest git digests path = blobs.digest content := by
  unfold configFileDigest
  cases hlookup : digests.lookup path with
  | some known => exact .inr (hknown path known hlookup)
  | none =>
    cases hbatch : batchHashObjects git [path] with
    | error failure => exact .inl rfl
    | ok single =>
      change (single.lookup path).getD "absent" = _ ∨ ∃ content, _ ∧
        (single.lookup path).getD "absent" = _
      cases hsingle : single.lookup path with
      | none => exact .inl rfl
      | some digest => exact .inr ((batchHashObjects_spec hanswers hbatch).1 path digest hsingle)

theorem mem_firstOccurrences {texts : List String} {text : String} :
    text ∈ firstOccurrences texts ↔ text ∈ texts := by
  induction texts with
  | nil => rfl
  | cons first texts ih =>
    rw [firstOccurrences, List.mem_cons, List.mem_filter, List.mem_cons, ih]
    by_cases h : text = first <;> simp [h]

def changesInScope (input : StateFingerprintInput) (state : RepositoryState) :
    List GitStatusEntry :=
  entriesInScope input.scope state.status

theorem mem_status_of_changesInScope {input : StateFingerprintInput} {entry : GitStatusEntry}
    (h : entry ∈ changesInScope input state) : entry ∈ state.status := by
  unfold changesInScope entriesInScope at h
  split at h
  · exact h
  · exact (List.mem_filter.mp h).1

/-- What a successful observation of a state records. -/
structure Observed (sha256 : String → String) (blobs : BlobDigest) (state : RepositoryState)
    (git : GitRunner) (input : StateFingerprintInput) (observed : StateFingerprint)
    (digests : List (String × String)) : Prop where
  hashed : IsHashed blobs state digests
  paths : digests.map Prod.fst = firstOccurrences
    (((changesInScope input state).filter (!isListedDeleted ·)).map (·.path))
  head : observed.snapshot.headCommit = state.head
  changed : observed.snapshot.changed =
    sortBy (·.path) ((changesInScope input state).map (changedEntry digests))
  configs : observed.snapshot.configFileDigests =
    resolveConfigFileDigests git (sortKeys (firstOccurrences input.configPaths)) digests
  fingerprint : observed.fingerprint = "sf_" ++ sha256
    ("mottainai/state-fingerprint/v1\n" ++ fingerprintPayload input.scope observed.snapshot)

theorem observation_observed {sha256 : String → String} {input : StateFingerprintInput}
    {observed : StateFingerprint} (hanswers : Answers blobs state git)
    (h : computeStateFingerprintObservation sha256 git input = .ok observed) :
    ∃ digests, Observed sha256 blobs state git input observed digests := by
  unfold computeStateFingerprintObservation at h
  dsimp only at h
  split_ifs at h with hfailed
  obtain ⟨hsucceeded, -⟩ := not_or.mp hfailed
  have hhead := trim_hexLine state.head_hex (hanswers.head (by simpa using hsucceeded))
  obtain ⟨entries, hentries, h⟩ := bind_eq_ok.mp h
  obtain ⟨digests, hdigests, h⟩ := bind_eq_ok.mp h
  have hstatus : entries = state.status := by
    unfold readGitStatus at hentries
    dsimp only at hentries
    split_ifs at hentries with hstatus
    rw [← Except.ok.inj hentries]
    exact parseStatusEntries_printed state.status_printed (hanswers.status hstatus)
  rw [hstatus] at hdigests h
  obtain ⟨hhashed, hpaths⟩ := batchHashObjects_spec hanswers hdigests
  have hobserved := Except.ok.inj h
  refine ⟨digests, hhashed, hpaths, ?_, ?_, ?_, ?_⟩
  · rw [← hobserved]
    exact hhead
  · rw [← hobserved]
    rfl
  · rw [← hobserved]
  · rw [← hobserved]

theorem computeStateFingerprint_observed {sha256 : String → String} {input : StateFingerprintInput}
    {second : GitRunner} {observed : StateFingerprint} (hanswers : Answers blobs state git)
    (h : computeStateFingerprint sha256 git second input = .ok observed) :
    ∃ digests, Observed sha256 blobs state git input observed digests := by
  unfold computeStateFingerprint at h
  split at h
  · cases h
  · rename_i hfirst
    split at h
    · cases h
    · split_ifs at h
      rw [← Except.ok.inj h]
      exact observation_observed hanswers hfirst

variable {sha256 : String → String} {input : StateFingerprintInput} {observed : StateFingerprint}

theorem nul_not_hex : nul ∉ "0123456789abcdef".toList := by decide

theorem mem_changed {entry : ChangedEntryFingerprint}
    (h : Observed sha256 blobs state git input observed digests) :
    entry ∈ observed.snapshot.changed ↔
      ∃ change ∈ changesInScope input state, changedEntry digests change = entry := by
  rw [h.changed, mem_sortBy, List.mem_map]

variable {change : GitStatusEntry}

theorem changedEntry_plain (hprinted : change.IsPrinted)
    (hplain : ∀ digest, digests.lookup change.path = some digest → nul ∉ digest.toList) :
    (changedEntry digests change).IsPlain := by
  have hdigest : nul ∉ ((digests.lookup change.path).getD "deleted").toList := by
    cases hlookup : digests.lookup change.path with
    | none => decide
    | some digest => exact hplain digest hlookup
  have horiginal : nul ∉ (change.originalPath.getD "").toList := by
    cases horiginal : change.originalPath with
    | none => exact List.not_mem_nil
    | some original => exact (hprinted.original_plain original horiginal).2
  constructor
  · simp only [entryTokens, changedEntry, List.forall_mem_cons]
    exact ⟨List.not_mem_nil, hprinted.path_plain,
      fun hmem => hprinted.indexStatus_plain (List.mem_singleton.mp hmem).symm,
      fun hmem => hprinted.worktreeStatus_plain (List.mem_singleton.mp hmem).symm, horiginal, hdigest,
      fun _ hmem => absurd hmem List.not_mem_nil⟩
  · rintro original hsome rfl
    exact (hprinted.original_plain "" hsome).1 rfl

theorem Observed.changed_plain (h : Observed sha256 blobs state git input observed digests) :
    ∀ entry ∈ observed.snapshot.changed, entry.IsPlain := by
  intro entry hentry
  obtain ⟨change, hchange, rfl⟩ := (mem_changed h).mp hentry
  refine changedEntry_plain (state.status_printed change (mem_status_of_changesInScope hchange))
    fun digest hlookup => ?_
  obtain ⟨content, -, rfl⟩ := h.hashed change.path digest hlookup
  exact plain_of_isHexText (blobs.isHex content) nul nul_not_hex

/-- The configuration files whose digests are recorded, in their order. -/
def recordedPaths (input : StateFingerprintInput) : List String :=
  (sortKeys (firstOccurrences input.configPaths)).filter (· ≠ "__proto__")

theorem mem_recordedPaths : path ∈ recordedPaths input ↔
    path ∈ input.configPaths ∧ path ≠ "__proto__" := by
  rw [recordedPaths, List.mem_filter, decide_eq_true_eq, sortKeys, List.mem_insertionSort,
    mem_firstOccurrences]

theorem Observed.configs_eq (h : Observed sha256 blobs state git input observed digests) :
    observed.snapshot.configFileDigests =
      (recordedPaths input).map fun path => (path, configFileDigest git digests path) :=
  h.configs

theorem configText_plain (hpath : path ∈ recordedPaths input) (hdigest : nul ∉ digest.toList) :
    nul ∉ (configText (path, digest)).toList := by
  simp only [configText, String.toList_append, List.mem_append, not_or]
  exact ⟨⟨⟨by decide, input.configPaths_plain path (mem_recordedPaths.mp hpath).1⟩, by decide⟩,
    hdigest⟩

theorem Observed.configs_plain (hanswers : Answers blobs state git)
    (h : Observed sha256 blobs state git input observed digests) :
    ∀ config ∈ observed.snapshot.configFileDigests, nul ∉ (configText config).toList := by
  intro config hconfig
  rw [h.configs_eq] at hconfig
  obtain ⟨path, hpath, rfl⟩ := List.mem_map.mp hconfig
  refine configText_plain hpath ?_
  rcases configFileDigest_spec hanswers h.hashed path with habsent | ⟨content, -, hdigest⟩
  · rw [habsent]
    decide
  · rw [hdigest]
    exact plain_of_isHexText (blobs.isHex content) nul nul_not_hex

theorem Observed.isPlain (hanswers : Answers blobs state git)
    (h : Observed sha256 blobs state git input observed digests) :
    observed.snapshot.IsPlain where
  head := by
    rw [h.head]
    exact plain_of_isHexText state.head_hex nul nul_not_hex
  changed := h.changed_plain
  configs := h.configs_plain hanswers

theorem Observed.digest_of_listed (h : Observed sha256 blobs state git input observed digests)
    (hchange : change ∈ changesInScope input state) (hlisted : isListedDeleted change = false) :
    ∃ content, state.blob change.path = some content ∧
      digests.lookup change.path = some (blobs.digest content) := by
  have hmem : change.path ∈ digests.map Prod.fst := by
    rw [h.paths, mem_firstOccurrences]
    exact List.mem_map_of_mem (List.mem_filter.mpr ⟨hchange, by rw [hlisted]; rfl⟩)
  have hsome : (digests.lookup change.path).isSome := by
    rw [List.lookup_isSome_iff]
    obtain ⟨pair, hpair, hpath⟩ := List.mem_map.mp hmem
    exact ⟨pair, hpair, by rw [hpath, beq_self_eq_true]⟩
  obtain ⟨digest, hlookup⟩ := Option.isSome_iff_exists.mp hsome
  obtain ⟨content, hcontent, rfl⟩ := h.hashed change.path digest hlookup
  exact ⟨content, hcontent, hlookup⟩

end Observation

section Determinism

variable {blobs : BlobDigest} {state state' : RepositoryState} {git git' : GitRunner}
variable {input : StateFingerprintInput} {sha256 : String → String}
variable {observed observed' : StateFingerprint} {digests digests' : List (String × String)}

/-- Equal fingerprints of two states show the same commit, and at every changed path in scope and
every configuration path the same node: its presence, type, executable bit and content. -/
def DeterminesState (sha256 : String → String) (blobs : BlobDigest) (input : StateFingerprintInput)
    (state state' : RepositoryState) : Prop :=
  ∀ git second git' second', Answers blobs state git → Answers blobs state' git' →
    ∀ observed observed', computeStateFingerprint sha256 git second input = .ok observed →
      computeStateFingerprint sha256 git' second' input = .ok observed' →
      observed.fingerprint = observed'.fingerprint →
        state.head = state'.head ∧
          ∀ path, path ∈ (changesInScope input state).map (·.path) ∨ path ∈ input.configPaths →
            state.node path = state'.node path

/-- The path is there in both states or in neither, and is opened to the same content. -/
def SameContent (state state' : RepositoryState) (path : String) : Prop :=
  (state.node path).isSome = (state'.node path).isSome ∧ state.blob path = state'.blob path

/-- The entry is deleted in the index only; the file may be there and be ignored. -/
def IsStagedDeletion (entry : GitStatusEntry) : Prop :=
  entry.indexStatus = 'D' ∧ entry.worktreeStatus = ' '

variable {change : GitStatusEntry} {path : String}

theorem blob_eq_none (h : state.node path = none) : state.blob path = none := by
  rw [RepositoryState.blob, state.opened_absent path h]
  rfl

theorem sameContent_of_blob {content : Content} (h : state.blob path = some content)
    (h' : state'.blob path = some content) : SameContent state state' path := by
  have hpresent : ∀ {state : RepositoryState}, state.blob path = some content →
      (state.node path).isSome = true := by
    intro state h
    rw [Option.isSome_iff_ne_none]
    intro hnone
    rw [blob_eq_none hnone] at h
    cases h
  exact ⟨(hpresent h).trans (hpresent h').symm, h.trans h'.symm⟩

theorem parts_of_fingerprint (injective : Function.Injective sha256)
    (hanswers : Answers blobs state git) (hanswers' : Answers blobs state' git')
    (h : Observed sha256 blobs state git input observed digests)
    (h' : Observed sha256 blobs state' git' input observed' digests')
    (heq : observed.fingerprint = observed'.fingerprint) :
    state.head = state'.head ∧ observed.snapshot.changed = observed'.snapshot.changed ∧
      ∀ path ∈ recordedPaths input,
        configFileDigest git digests path = configFileDigest git' digests' path := by
  rw [h.fingerprint, h'.fingerprint] at heq
  have hdigested := injective (String.append_right_inj _ |>.mp heq)
  have hpayload := String.append_right_inj _ |>.mp hdigested
  obtain ⟨hhead, hchanged, hconfigs⟩ :=
    parts_of_payload (h.isPlain hanswers) (h'.isPlain hanswers') hpayload
  rw [h.head, h'.head] at hhead
  refine ⟨hhead, hchanged, fun path hpath => ?_⟩
  rw [h.configs_eq, h'.configs_eq, sortBy_map, sortBy_map, List.map_map, List.map_map] at hconfigs
  have hpath : path ∈ sortBy (Prod.fst ∘ fun path => (path, configFileDigest git digests path))
      (recordedPaths input) := mem_sortBy.mpr hpath
  have htext := List.map_inj_left.mp hconfigs path hpath
  exact String.append_right_inj _ |>.mp htext

theorem mem_changesInScope_of_changed (h : Observed sha256 blobs state git input observed digests)
    (h' : Observed sha256 blobs state' git' input observed' digests')
    (hchanged : observed.snapshot.changed = observed'.snapshot.changed)
    (hchange : change ∈ changesInScope input state) :
    change ∈ changesInScope input state' ∧
      (digests.lookup change.path).getD "deleted" =
        (digests'.lookup change.path).getD "deleted" := by
  have hentry := (mem_changed h).mpr ⟨change, hchange, rfl⟩
  rw [hchanged] at hentry
  obtain ⟨change', hchange', heq⟩ := (mem_changed h').mp hentry
  obtain ⟨path, indexStatus, worktreeStatus, originalPath⟩ := change
  obtain ⟨path', indexStatus', worktreeStatus', originalPath'⟩ := change'
  obtain ⟨hpath, hindexStatus, hworktreeStatus, horiginal, hdigest⟩ :=
    ChangedEntryFingerprint.mk.inj heq
  dsimp only at hpath hindexStatus hworktreeStatus horiginal hdigest ⊢
  subst hpath hindexStatus hworktreeStatus horiginal
  exact ⟨hchange', hdigest.symm⟩

theorem sameContent_of_changed (h : Observed sha256 blobs state git input observed digests)
    (h' : Observed sha256 blobs state' git' input observed' digests')
    (hchanged : observed.snapshot.changed = observed'.snapshot.changed)
    (hchange : change ∈ changesInScope input state) (hstaged : ¬ IsStagedDeletion change) :
    SameContent state state' change.path := by
  obtain ⟨hchange', hdigest⟩ := mem_changesInScope_of_changed h h' hchanged hchange
  by_cases hdeleted : change.worktreeStatus = 'D'
  · have habsent := state.deleted_absent change (mem_status_of_changesInScope hchange) hdeleted
    have habsent' := state'.deleted_absent change (mem_status_of_changesInScope hchange') hdeleted
    exact ⟨by rw [habsent, habsent'], by rw [blob_eq_none habsent, blob_eq_none habsent']⟩
  · have hlisted : isListedDeleted change = false := by
      rw [isListedDeleted, Bool.or_eq_false_iff, Bool.and_eq_false_iff]
      refine ⟨decide_eq_false hdeleted, ?_⟩
      by_cases hindex : change.indexStatus = 'D'
      · exact .inr (decide_eq_false fun hworktree => hstaged ⟨hindex, hworktree⟩)
      · exact .inl (decide_eq_false hindex)
    obtain ⟨content, hcontent, hlookup⟩ := h.digest_of_listed hchange hlisted
    obtain ⟨content', hcontent', hlookup'⟩ := h'.digest_of_listed hchange' hlisted
    rw [hlookup, hlookup'] at hdigest
    obtain rfl := blobs.injective hdigest
    exact sameContent_of_blob hcontent hcontent'

/-- Equal fingerprints: the commit, the changes in scope with their contents, and the contents of
the configuration files that were hashed. -/
theorem fingerprint_determines_contents (sha256 : String → String)
    (injective : Function.Injective sha256) (blobs : BlobDigest) (input : StateFingerprintInput)
    (state state' : RepositoryState) (git second git' second' : GitRunner)
    (answers : Answers blobs state git) (answers' : Answers blobs state' git')
    (observed observed' : StateFingerprint)
    (computed : computeStateFingerprint sha256 git second input = .ok observed)
    (computed' : computeStateFingerprint sha256 git' second' input = .ok observed')
    (equal : observed.fingerprint = observed'.fingerprint) :
    state.head = state'.head ∧
      (∀ change, change ∈ changesInScope input state ↔ change ∈ changesInScope input state') ∧
      (∀ change ∈ changesInScope input state, ¬ IsStagedDeletion change →
        SameContent state state' change.path) ∧
      ∀ path ∈ input.configPaths, path ≠ "__proto__" →
        (path, "absent") ∉ observed.snapshot.configFileDigests →
          SameContent state state' path := by
  obtain ⟨digests, h⟩ := computeStateFingerprint_observed answers computed
  obtain ⟨digests', h'⟩ := computeStateFingerprint_observed answers' computed'
  obtain ⟨hhead, hchanged, hconfigs⟩ := parts_of_fingerprint injective answers answers' h h' equal
  refine ⟨hhead, fun change => ⟨fun hchange => ?_, fun hchange => ?_⟩, fun change hchange hstaged => ?_,
    fun path hpath hproto habsent => ?_⟩
  · exact (mem_changesInScope_of_changed h h' hchanged hchange).1
  · exact (mem_changesInScope_of_changed h' h hchanged.symm hchange).1
  · exact sameContent_of_changed h h' hchanged hchange hstaged
  · have hrecorded := mem_recordedPaths.mpr ⟨hpath, hproto⟩
    have hne : configFileDigest git digests path ≠ "absent" := by
      intro heq
      refine habsent ?_
      rw [h.configs_eq]
      exact List.mem_map.mpr ⟨path, hrecorded, by rw [heq]⟩
    obtain ⟨content, hcontent, hdigest⟩ :=
      (configFileDigest_spec answers h.hashed path).resolve_left hne
    have hne' := hne
    rw [hconfigs path hrecorded] at hne' hdigest
    obtain ⟨content', hcontent', hdigest'⟩ :=
      (configFileDigest_spec answers' h'.hashed path).resolve_left hne'
    obtain rfl := blobs.injective (hdigest.symm.trans hdigest')
    exact sameContent_of_blob hcontent hcontent'

end Determinism

section Examples

def answeringGit (blobs : BlobDigest) (state : RepositoryState) : GitRunner := fun command =>
  if command = ["rev-parse", "--verify", "HEAD"] then
    { stdout := String.ofList (state.head.toList ++ ['\n']), exitCode := some 0 }
  else if command = ["status", "--porcelain=v1", "-z", "--untracked-files=all"] then
    { stdout := String.ofList (statusOutput state.status), exitCode := some 0 }
  else match (command.drop 2).mapM state.blob with
    | none => { stdout := "", exitCode := some 128 }
    | some contents =>
      { stdout := String.ofList
          ((contents.map fun content => (blobs.digest content).toList).flatMap (· ++ ['\n']))
        exitCode := some 0 }

theorem map_of_mapM {α β : Type} {f : α → Option β} {l : List α} {m : List β}
    (h : l.mapM f = some m) : l.map f = m.map some := by
  induction l generalizing m with
  | nil =>
    rw [← Option.some.inj h]
    rfl
  | cons a l ih =>
    rw [List.mapM_cons] at h
    obtain ⟨b, hb, h⟩ := Option.bind_eq_some_iff.mp h
    obtain ⟨m', hm', h⟩ := Option.bind_eq_some_iff.mp h
    rw [← Option.some.inj h, List.map_cons, List.map_cons, hb, ih hm']

theorem answers_answeringGit (blobs : BlobDigest) (state : RepositoryState) :
    Answers blobs state (answeringGit blobs state) where
  head := fun _ => String.toList_ofList
  status := fun _ => String.toList_ofList
  hashObject := by
    intro paths h
    have hcommand : answeringGit blobs state ("hash-object" :: "--" :: paths) =
        match paths.mapM state.blob with
        | none => { stdout := "", exitCode := some 128 }
        | some contents =>
          { stdout := String.ofList
              ((contents.map fun content => (blobs.digest content).toList).flatMap (· ++ ['\n']))
            exitCode := some 0 } := by
      rw [answeringGit, if_neg (by simp), if_neg (by simp)]
      rfl
    rw [hcommand] at h ⊢
    cases hcontents : paths.mapM state.blob with
    | none =>
      rw [hcontents] at h
      exact absurd h Bool.false_ne_true
    | some contents => exact ⟨contents, map_of_mapM hcontents, String.toList_ofList⟩

/-- Each byte as that many ones and a zero. -/
def unaryBlobs : BlobDigest where
  digest := fun content =>
    String.ofList ('0' :: content.flatMap fun byte => List.replicate byte.toNat '1' ++ ['0'])
  injective := by
    intro content content' h
    replace h := (List.cons.inj (String.ofList_injective h)).2
    induction content generalizing content' with
    | nil =>
      cases content' with
      | nil => rfl
      | cons byte' content' =>
        rw [List.flatMap_nil, List.flatMap_cons] at h
        exact absurd (congrArg List.length h) (by simp)
    | cons byte content ih =>
      cases content' with
      | nil =>
        rw [List.flatMap_nil, List.flatMap_cons] at h
        exact absurd (congrArg List.length h) (by simp)
      | cons byte' content' =>
        have hones : ∀ n : ℕ, '0' ∉ List.replicate n '1' := fun n hmem =>
          absurd (List.eq_of_mem_replicate hmem) (by decide)
        rw [List.flatMap_cons, List.flatMap_cons, List.append_assoc, List.append_assoc] at h
        obtain ⟨hbyte, hrest⟩ := append_separator_inj (hones _) (hones _) h
        have hcount := congrArg List.length hbyte
        rw [List.length_replicate, List.length_replicate] at hcount
        rw [UInt8.toNat_inj.mp hcount, ih hrest]
  isHex := by
    intro content
    have hhex : ∀ c ∈ '0' :: content.flatMap fun byte => List.replicate byte.toNat '1' ++ ['0'],
        "0123456789abcdef".toList.contains c = true := by
      intro c hc
      have hcases : c = '0' ∨ c = '1' := by
        rcases List.mem_cons.mp hc with rfl | hc
        · exact .inl rfl
        · obtain ⟨byte, -, hc⟩ := List.mem_flatMap.mp hc
          rcases List.mem_append.mp hc with hc | hc
          · exact .inr (List.eq_of_mem_replicate hc)
          · exact .inl (List.mem_singleton.mp hc)
      rcases hcases with rfl | rfl <;> decide
    rw [isHexText, Bool.and_eq_true, List.all_eq_true, String.toList_ofList]
    refine ⟨decide_eq_true fun hempty => ?_, hhex⟩
    exact List.cons_ne_nil _ _ (String.ofList_injective (hempty.trans rfl))

/-- A script that differs from the commit, with or without its executable bit. -/
def modifiedScript (executable : Bool) : RepositoryState where
  head := "a1"
  status := [{ path := "run", indexStatus := ' ', worktreeStatus := 'M', originalPath := none }]
  node := fun path => if path = "run" then some (.regular executable [104]) else none
  opened := fun path => if path = "run" then some [104] else none
  filtered := fun _ content => content
  head_hex := by decide
  status_printed := by
    intro entry hentry
    rw [List.mem_singleton.mp hentry]
    exact ⟨by decide, by decide, by decide, by decide, rfl, fun _ h => by cases h⟩
  deleted_absent := by
    intro entry hentry hdeleted
    rw [List.mem_singleton.mp hentry] at hdeleted
    exact absurd hdeleted (by decide)
  opened_absent := by
    intro path h
    split at h
    · cases h
    · rename_i hpath
      exact if_neg hpath
  opened_regular := by
    intro path bit content h
    split at h
    · rename_i hpath
      cases h
      exact .inr (if_pos hpath)
    · cases h

/-- A clean worktree with a configuration file that cannot be opened, or without it. -/
def closedConfig (present : Bool) : RepositoryState where
  head := "a1"
  status := []
  node := fun path =>
    if path = "tsconfig.json" ∧ present = true then some (.regular false [123, 125]) else none
  opened := fun _ => none
  filtered := fun _ content => content
  head_hex := by decide
  status_printed := fun _ h => absurd h List.not_mem_nil
  deleted_absent := fun _ h => absurd h List.not_mem_nil
  opened_absent := fun _ _ => rfl
  opened_regular := fun _ _ _ _ => .inl rfl

def scriptInput : StateFingerprintInput := ⟨[], [], fun _ h => absurd h List.not_mem_nil⟩

def configInput : StateFingerprintInput where
  scope := []
  configPaths := ["tsconfig.json"]
  configPaths_plain := by decide

theorem exists_of_isOk {ε α : Type} {x : Except ε α} (h : x.isOk = true) : ∃ a, x = .ok a := by
  cases x with
  | error e => cases h
  | ok a => exact ⟨a, rfl⟩

theorem modifiedScript_sameContent :
    SameContent (modifiedScript true) (modifiedScript false) "run" := by
  have hok : (computeStateFingerprint id (answeringGit unaryBlobs (modifiedScript true))
      (answeringGit unaryBlobs (modifiedScript true)) scriptInput).isOk = true := by decide +kernel
  obtain ⟨observed, hobserved⟩ := exists_of_isOk hok
  have hdetermined := fingerprint_determines_contents id Function.injective_id unaryBlobs scriptInput
    (modifiedScript true) (modifiedScript false) (answeringGit unaryBlobs (modifiedScript true))
    (answeringGit unaryBlobs (modifiedScript true)) (answeringGit unaryBlobs (modifiedScript false))
    (answeringGit unaryBlobs (modifiedScript false)) (answers_answeringGit _ _)
    (answers_answeringGit _ _) observed observed hobserved hobserved rfl
  exact hdetermined.2.2.1 _ List.mem_cons_self fun h => absurd h.1 (by decide)

theorem not_determinesState {blobs : BlobDigest} {input : StateFingerprintInput}
    {state state' : RepositoryState} {path : String}
    (hgit : answeringGit blobs state = answeringGit blobs state')
    (hok : (computeStateFingerprint id (answeringGit blobs state) (answeringGit blobs state)
      input).isOk = true)
    (hpath : path ∈ (changesInScope input state).map (·.path) ∨ path ∈ input.configPaths)
    (hnode : state.node path ≠ state'.node path) : ¬ DeterminesState id blobs input state state' := by
  intro h
  obtain ⟨observed, hobserved⟩ := exists_of_isOk hok
  have hanswers' : Answers blobs state' (answeringGit blobs state) := by
    rw [hgit]
    exact answers_answeringGit blobs state'
  exact hnode ((h _ _ _ _ (answers_answeringGit blobs state) hanswers' observed observed hobserved
    hobserved rfl).2 path hpath)

theorem modifiedScript_undetermined :
    ¬ DeterminesState id unaryBlobs scriptInput (modifiedScript true) (modifiedScript false) ∧
      ¬ DeterminesState id unaryBlobs configInput (closedConfig true) (closedConfig false) := by
  constructor
  · exact not_determinesState rfl (by decide +kernel) (.inl List.mem_cons_self) (by decide)
  · exact not_determinesState rfl (by decide) (.inr List.mem_cons_self) (by decide)

end Examples

end Mottainai.ValidationGovernor

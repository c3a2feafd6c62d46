import Mottainai.ExecutionManifests
import Mottainai.InterleavingContract

/-!
# The instance marker of a repository

The identity of a repository instance is a text in its git common directory. Who needs it first
draws one, writes it into a file of its own, and publishes that file by a hard link, complete. Each
call of the file system is one operation, and a text is written character by character. A call that
meets no fault succeeds, whatever the other processes do and wherever they were killed.
-/

namespace Mottainai.InstanceIdentity

open Interleaving JavaScriptValues

/-- What a call of the file system throws. -/
structure ErrnoException where
  code : String
  message : String
  deriving DecidableEq

/-- The operations of a process: calls of the file system and of the random source. A file that
was opened is given by its inode. -/
inductive FsCall where
  | openFile (path : String)
  | readFile (file : ℕ)
  | createFile (path : String)
  | writeFile (file : ℕ) (char : Char)
  | linkSync (existingPath newPath : String)
  | unlinkSync (path : String)
  | randomUUID
  | randomBytes

/-- What each of them returns. -/
abbrev FsCall.Val : FsCall → Type
  | openFile _ => ℕ
  | readFile _ => String
  | createFile _ => ℕ
  | writeFile _ _ => Unit
  | linkSync _ _ => Unit
  | unlinkSync _ => Unit
  | randomUUID => String
  | randomBytes => String

abbrev FsProgram (α : Type) : Type := Throwing FsCall FsCall.Val ErrnoException α

/-- A `try` block, whose exception is handled by what follows. -/
def attempt {α : Type} (x : FsProgram α) : FsProgram (Except ErrnoException α) :=
  ExceptT.mk (x.run.bind fun r => .pure (.ok r))

def openFile (path : String) : FsProgram ℕ := request (FsCall.openFile path)

def readFile (file : ℕ) : FsProgram String := request (FsCall.readFile file)

def createFile (path : String) : FsProgram ℕ := request (FsCall.createFile path)

def writeFile (file : ℕ) (char : Char) : FsProgram Unit := request (FsCall.writeFile file char)

def linkSync (existingPath newPath : String) : FsProgram Unit :=
  request (FsCall.linkSync existingPath newPath)

def unlinkSync (path : String) : FsProgram Unit := request (FsCall.unlinkSync path)

def randomUUID : FsProgram String := request FsCall.randomUUID

def randomBytes : FsProgram String := request FsCall.randomBytes

def readFileSync (path : String) : FsProgram String := do
  let file ← openFile path
  readFile file

def writeChars (file : ℕ) : List Char → FsProgram Unit
  | [] => pure ()
  | char :: rest => do
    writeFile file char
    writeChars file rest

/-- `fs.writeFileSync` with the flag `wx`. -/
def writeFileSync (path : String) (text : List Char) : FsProgram Unit := do
  let file ← createFile path
  writeChars file text

def INSTANCE_MARKER_FILE_NAME : String := "mottainai-instance-id"

def isHexDigit (c : Char) : Bool := "0123456789abcdef".toList.contains c

/-- `INSTANCE_ID_PATTERN.test`. -/
def isInstanceId (text : String) : Bool :=
  (text.toList.splitOn '-').map List.length = [8, 4, 4, 4, 12] ∧
    text.toList.all (fun c => isHexDigit c || c = '-')

abbrev InstanceIdResult : Type := Except String String

section Resolution

variable (markerPath : String)

def corrupt : InstanceIdResult := .error s!"instance marker file is corrupt: {markerPath}"

def tmpPath (pid : ℕ) (suffix : String) : String :=
  markerPath ++ ".tmp." ++ toString pid ++ "." ++ suffix

/-- What is written into the temporary file. -/
def markerText (generated : String) : List Char := generated.toList ++ ['\n']

def readInstanceId (text : String) : InstanceIdResult :=
  if isInstanceId (ExecutionManifests.trim text) then .ok (ExecutionManifests.trim text)
  else corrupt markerPath

/-- The handler of `fs.linkSync`: a marker that exists is read back. -/
def readBack (err : ErrnoException) (r : Except ErrnoException String) : InstanceIdResult :=
  match r with
  | .ok text => readInstanceId markerPath text
  | .error _ => .error s!"cannot create instance marker file: {err.message}"

/-- What follows `fs.linkSync`. -/
def linked (generated : String) (r : Except ErrnoException Unit) : FsProgram InstanceIdResult :=
  match r with
  | .ok _ => return .ok generated
  | .error err =>
    if err.code = "EEXIST" then do
      let r ← attempt (readFileSync markerPath)
      return readBack markerPath err r
    else return .error s!"cannot create instance marker file: {err.message}"

/-- The `finally` block. -/
def cleanUp (tmp : String) (result : InstanceIdResult) : FsProgram InstanceIdResult := do
  let _ ← attempt (unlinkSync tmp)
  return result

/-- What follows `fs.writeFileSync`. -/
def written (tmp generated : String) (r : Except ErrnoException Unit) :
    FsProgram InstanceIdResult :=
  match r with
  | .ok _ => do
    let r ← attempt (linkSync tmp markerPath)
    let result ← linked markerPath generated r
    cleanUp tmp result
  | .error err => return .error s!"cannot create instance marker temp file: {err.message}"

def createInstanceId (pid : ℕ) : FsProgram InstanceIdResult := do
  let generated ← randomUUID
  let suffix ← randomBytes
  let tmp := tmpPath markerPath pid suffix
  let r ← attempt (writeFileSync tmp (markerText generated))
  written markerPath tmp generated r

/-- What follows the first `fs.readFileSync`. -/
def existing (pid : ℕ) (r : Except ErrnoException String) : FsProgram InstanceIdResult :=
  match r with
  | .ok text => return readInstanceId markerPath text
  | .error err =>
    if err.code ≠ "ENOENT" then return .error s!"cannot read instance marker file: {err.message}"
    else createInstanceId markerPath pid

end Resolution

/-- `path.join(gitCommonDir, INSTANCE_MARKER_FILE_NAME)`. -/
def markerPathOf (gitCommonDir : String) : String :=
  gitCommonDir ++ "/" ++ INSTANCE_MARKER_FILE_NAME

def resolveOrCreateInstanceId (gitCommonDir : String) (pid : ℕ) : FsProgram InstanceIdResult := do
  let markerPath := markerPathOf gitCommonDir
  let r ← attempt (readFileSync markerPath)
  existing markerPath pid r

structure RepositoryIdentityPaths where
  rootCommitDigest : String
  gitCommonDir : String
  canonicalRepositoryRoot : String
  worktreePath : String

structure RepositoryIdentity extends RepositoryIdentityPaths where
  instanceId : String

/-- A call of `resolveRepositoryIdentity` in a process, with what `resolveRepositoryIdentityPaths`
has told it of the common directory. -/
structure IdentityCall (gitCommonDir : String) where
  pid : ℕ
  pathsResult : Except String RepositoryIdentityPaths
  common : ∀ paths, pathsResult = .ok paths → paths.gitCommonDir = gitCommonDir

def IdentityCall.resolved (pid : ℕ) (paths : RepositoryIdentityPaths) :
    IdentityCall paths.gitCommonDir where
  pid := pid
  pathsResult := .ok paths
  common := by
    intro other h
    cases h
    rfl

abbrev IdentityResult : Type := Except ErrnoException (Except String RepositoryIdentity)

def withInstanceId (paths : RepositoryIdentityPaths) (r : InstanceIdResult) :
    FsProgram (Except String RepositoryIdentity) :=
  match r with
  | .error reason => return .error reason
  | .ok instanceId => return .ok { paths with instanceId }

def resolveRepositoryIdentity {gitCommonDir : String} (call : IdentityCall gitCommonDir) :
    Program FsCall (fun op => Except ErrnoException op.Val) IdentityResult :=
  match call.pathsResult with
  | .error reason => .pure (.ok (.error reason))
  | .ok paths => ExceptT.run do
    let r ← resolveOrCreateInstanceId paths.gitCommonDir call.pid
    withInstanceId paths r

/-- The names of a file system, the inodes that they stand for, and the texts of these. `drawn`
are the suffixes that the random source has given. -/
structure FileSystem where
  entries : String → Option ℕ
  contents : ℕ → List Char
  nextInode : ℕ
  drawn : List String

def FileSystem.text? (fs : FileSystem) (path : String) : Option (List Char) :=
  (fs.entries path).map fs.contents

/-- Sixteen hexadecimal digits. -/
def IsSuffix (suffix : String) : Prop := suffix.length = 16 ∧ suffix.toList.all isHexDigit

/-- How an operation is carried out. Random identities match the pattern, and random suffixes do
not repeat. -/
def CarriedOut : (op : FsCall) → FileSystem → Except ErrnoException op.Val → FileSystem → Prop
  | .openFile path, fs, r, fs' => fs' = fs ∧ match fs.entries path with
    | some file => r = .ok file
    | none => ∃ message, r = .error ⟨"ENOENT", message⟩
  | .readFile file, fs, r, fs' => fs' = fs ∧ r = .ok (String.ofList (fs.contents file))
  | .createFile path, fs, r, fs' => match fs.entries path with
    | some _ => fs' = fs ∧ ∃ message, r = .error ⟨"EEXIST", message⟩
    | none => r = .ok fs.nextInode ∧
      fs' = { fs with
        entries := Function.update fs.entries path (some fs.nextInode)
        contents := Function.update fs.contents fs.nextInode []
        nextInode := fs.nextInode + 1 }
  | .writeFile file char, fs, r, fs' => r = .ok () ∧
    fs' = { fs with contents := Function.update fs.contents file (fs.contents file ++ [char]) }
  | .linkSync existingPath newPath, fs, r, fs' =>
    match fs.entries existingPath, fs.entries newPath with
    | none, _ => fs' = fs ∧ ∃ message, r = .error ⟨"ENOENT", message⟩
    | some _, some _ => fs' = fs ∧ ∃ message, r = .error ⟨"EEXIST", message⟩
    | some file, none => r = .ok () ∧
      fs' = { fs with entries := Function.update fs.entries newPath (some file) }
  | .unlinkSync path, fs, r, fs' => match fs.entries path with
    | none => fs' = fs ∧ ∃ message, r = .error ⟨"ENOENT", message⟩
    | some _ => r = .ok () ∧ fs' = { fs with entries := Function.update fs.entries path none }
  | .randomUUID, fs, r, fs' => fs' = fs ∧ ∃ id, isInstanceId id = true ∧ r = .ok id
  | .randomBytes, fs, r, fs' => ∃ suffix, IsSuffix suffix ∧ suffix ∉ fs.drawn ∧ r = .ok suffix ∧
    fs' = { fs with drawn := suffix :: fs.drawn }

/-- An input or output error: a code that says nothing about whether a file exists. -/
def IsFault (err : ErrnoException) : Prop := err.code ≠ "ENOENT" ∧ err.code ≠ "EEXIST"

def fsSemantics : Semantics FsCall (fun op => Except ErrnoException op.Val) FileSystem :=
  fun op fs r fs' => CarriedOut op fs r fs' ∨ (∃ err, IsFault err ∧ r = .error err) ∧ fs' = fs

section Texts

theorem isHexDigit_visible {c : Char} (h : isHexDigit c = true) : isWhiteSpace c = false := by
  have hvisible : "0123456789abcdef".toList.all (!isWhiteSpace ·) = true := by decide
  exact (Bool.not_eq_true' _).mp (List.all_eq_true.mp hvisible c (List.contains_iff_mem.mp h))

/-- The characters of an identity are visible. -/
theorem isInstanceId_visible {id : String} (h : isInstanceId id = true) :
    id.toList ≠ [] ∧ ∀ c ∈ id.toList, isWhiteSpace c = false := by
  obtain ⟨hlengths, hhex⟩ := of_decide_eq_true h
  refine ⟨fun hnil => ?_, fun c hc => ?_⟩
  · rw [hnil] at hlengths
    exact absurd hlengths (by decide)
  · rcases Bool.or_eq_true_iff.mp (List.all_eq_true.mp hhex c hc) with hc | hc
    · exact isHexDigit_visible hc
    · rw [of_decide_eq_true hc]
      decide

theorem readInstanceId_markerText {markerPath id : String} (h : isInstanceId id = true) :
    readInstanceId markerPath (String.ofList (markerText id)) = .ok id := by
  obtain ⟨hne, hvisible⟩ := isInstanceId_visible h
  have hline : (String.ofList (markerText id)).toList = id.toList ++ ['\n'] := String.toList_ofList
  have htrim : ExecutionManifests.trim (String.ofList (markerText id)) = id := by
    rw [ExecutionManifests.trim_line hne hvisible hline, String.ofList_toList]
  rw [readInstanceId, htrim, if_pos h]

variable {markerPath : String}

theorem tmpPath_toList (pid : ℕ) (suffix : String) :
    (tmpPath markerPath pid suffix).toList =
      (markerPath ++ ".tmp." ++ toString pid ++ ".").toList ++ suffix.toList :=
  String.toList_append

theorem tmpPath_ne_markerPath (pid : ℕ) (suffix : String) :
    tmpPath markerPath pid suffix ≠ markerPath := by
  intro h
  have hlength := congrArg (fun text => text.toList.length) h
  simp [tmpPath, String.toList_append] at hlength

/-- Suffixes are read off the names. -/
theorem tmpPath_suffix {pid pid' : ℕ} {suffix suffix' : String} (h : IsSuffix suffix)
    (h' : IsSuffix suffix')
    (heq : tmpPath markerPath pid suffix = tmpPath markerPath pid' suffix') : suffix = suffix' := by
  have hlists := congrArg String.toList heq
  rw [tmpPath_toList, tmpPath_toList] at hlists
  refine String.toList_inj.mp (List.append_inj_right' hlists ?_)
  rw [String.length_toList, String.length_toList, h.1, h'.1]

end Texts

/-- A file system as this program leaves it: an inode is in use before it is handed out, the
suffixes of temporary files were drawn, and the marker is absent or holds an identity. -/
structure WellFormed (markerPath : String) (fs : FileSystem) : Prop where
  inodes : ∀ path file, fs.entries path = some file → file < fs.nextInode
  suffixes : ∀ pid suffix, IsSuffix suffix →
    fs.entries (tmpPath markerPath pid suffix) ≠ none → suffix ∈ fs.drawn
  marker : ∀ file, fs.entries markerPath = some file →
    ∃ id, isInstanceId id = true ∧ fs.contents file = markerText id

/-- A marker keeps its file and its text. -/
def Permanent (markerPath : String) (fs fs' : FileSystem) : Prop :=
  ∀ file, fs.entries markerPath = some file →
    fs'.entries markerPath = some file ∧ fs'.contents file = fs.contents file

def Holds (markerPath : String) (fs : FileSystem) (id : String) : Prop :=
  ∃ file, fs.entries markerPath = some file ∧ fs.contents file = markerText id

/-- How far a process has come, with what it has drawn and read. `writing` is at its end when no
character is left. -/
inductive Phase where
  | resolving
  | reading (file : ℕ)
  | drawing
  | naming (generated : String)
  | opening (generated suffix : String)
  | writing (generated suffix : String) (file : ℕ) (rest : List Char)
  | rereading (generated suffix : String) (err : ErrnoException)
  | rereadingFile (generated suffix : String) (err : ErrnoException) (winner : ℕ)
  | cleaning (suffix : String) (result : InstanceIdResult)
  | finished (result : InstanceIdResult)
  | thrown (err : ErrnoException)

instance : Inhabited Phase := ⟨.resolving⟩

namespace Phase

variable (markerPath : String) (pid : ℕ)

/-- What is left to do. -/
def rest : Phase → FsProgram InstanceIdResult
  | resolving => attempt (readFileSync markerPath) >>= existing markerPath pid
  | reading file => attempt (readFile file) >>= existing markerPath pid
  | drawing => createInstanceId markerPath pid
  | naming generated => do
    let suffix ← randomBytes
    let tmp := tmpPath markerPath pid suffix
    let r ← attempt (writeFileSync tmp (markerText generated))
    written markerPath tmp generated r
  | opening generated suffix =>
    attempt (writeFileSync (tmpPath markerPath pid suffix) (markerText generated)) >>=
      written markerPath (tmpPath markerPath pid suffix) generated
  | writing generated suffix file rest =>
    attempt (writeChars file rest) >>=
      written markerPath (tmpPath markerPath pid suffix) generated
  | rereading _ suffix err =>
    (attempt (readFileSync markerPath) >>= fun r => pure (readBack markerPath err r)) >>=
      cleanUp (tmpPath markerPath pid suffix)
  | rereadingFile _ suffix err winner =>
    (attempt (readFile winner) >>= fun r => pure (readBack markerPath err r)) >>=
      cleanUp (tmpPath markerPath pid suffix)
  | cleaning suffix result => cleanUp (tmpPath markerPath pid suffix) result
  | finished result => return result
  | thrown err => throw err

def suffix? : Phase → Option String
  | opening _ suffix => some suffix
  | writing _ suffix _ _ => some suffix
  | rereading _ suffix _ => some suffix
  | rereadingFile _ suffix _ _ => some suffix
  | cleaning suffix _ => some suffix
  | _ => none

def file? : Phase → Option ℕ
  | writing _ _ file _ => some file
  | _ => none

/-- The files and names of two processes differ. -/
def Apart (g h : Phase) : Prop :=
  (∀ suffix, g.suffix? = some suffix → h.suffix? ≠ some suffix) ∧
    ∀ file, g.file? = some file → h.file? ≠ some file

def Valid (fs : FileSystem) : Phase → Prop
  | resolving => True
  | reading file => fs.entries markerPath = some file
  | drawing => True
  | naming generated => isInstanceId generated = true
  | opening generated suffix => isInstanceId generated = true ∧ IsSuffix suffix ∧
    suffix ∈ fs.drawn ∧ fs.entries (tmpPath markerPath pid suffix) = none
  | writing generated suffix file rest => isInstanceId generated = true ∧ IsSuffix suffix ∧
    suffix ∈ fs.drawn ∧ fs.entries (tmpPath markerPath pid suffix) = some file ∧
    file < fs.nextInode ∧ fs.contents file ++ rest = markerText generated ∧
    fs.entries markerPath ≠ some file
  | rereading _ suffix _ => IsSuffix suffix ∧ suffix ∈ fs.drawn ∧ fs.entries markerPath ≠ none
  | rereadingFile _ suffix _ winner => IsSuffix suffix ∧ suffix ∈ fs.drawn ∧
    fs.entries markerPath = some winner
  | cleaning suffix result => IsSuffix suffix ∧ suffix ∈ fs.drawn ∧
    ∀ id, result = .ok id → Holds markerPath fs id
  | finished result => ∀ id, result = .ok id → Holds markerPath fs id
  | thrown _ => True

/-- The call has not failed. -/
def Succeeds : Phase → Prop
  | cleaning _ (.error _) => False
  | finished (.error _) => False
  | thrown _ => False
  | _ => True

end Phase

/-- What a step of a process in the phase `g` may do to a file system. -/
structure Frame (markerPath : String) (g : Phase) (fs fs' : FileSystem) : Prop where
  permanent : Permanent markerPath fs fs'
  inodes : fs.nextInode ≤ fs'.nextInode
  drawn : ∀ suffix ∈ fs.drawn, suffix ∈ fs'.drawn
  contents : ∀ file < fs.nextInode, g.file? ≠ some file → fs'.contents file = fs.contents file
  names : ∀ pid suffix, IsSuffix suffix → suffix ∈ fs.drawn → g.suffix? ≠ some suffix →
    fs'.entries (tmpPath markerPath pid suffix) = fs.entries (tmpPath markerPath pid suffix)
  published : ∀ file < fs.nextInode, fs'.entries markerPath = some file →
    fs.entries markerPath = some file ∨ g.file? = some file

section Frames

variable {fs fs' : FileSystem} {pid : ℕ} {g h : Phase}

theorem Holds.permanent {id : String} (hid : Holds markerPath fs id)
    (hkept : Permanent markerPath fs fs') : Holds markerPath fs' id := by
  obtain ⟨file, hfile, htext⟩ := hid
  obtain ⟨hfile', htext'⟩ := hkept file hfile
  exact ⟨file, hfile', htext'.trans htext⟩

theorem Frame.refl (g : Phase) (fs : FileSystem) : Frame markerPath g fs fs where
  permanent := fun _ h => ⟨h, rfl⟩
  inodes := le_rfl
  drawn := fun _ h => h
  contents := fun _ _ _ => rfl
  names := fun _ _ _ _ _ => rfl
  published := fun _ _ h => .inl h

/-- What a process knows survives the steps of those that keep apart from it. -/
theorem Frame.valid (hframe : Frame markerPath g fs fs') (hapart : g.Apart h)
    (hvalid : h.Valid markerPath pid fs) : h.Valid markerPath pid fs' := by
  cases h with
  | resolving => trivial
  | reading file => exact (hframe.permanent file hvalid).1
  | drawing => trivial
  | naming generated => exact hvalid
  | opening generated suffix =>
    obtain ⟨hid, hsuffix, hdrawn, habsent⟩ := hvalid
    refine ⟨hid, hsuffix, hframe.drawn _ hdrawn, ?_⟩
    rw [hframe.names pid suffix hsuffix hdrawn fun hg => hapart.1 _ hg rfl, habsent]
  | writing generated suffix file rest =>
    obtain ⟨hid, hsuffix, hdrawn, hfile, hlt, htext, hmarker⟩ := hvalid
    have hother : g.file? ≠ some file := fun hg => hapart.2 _ hg rfl
    refine ⟨hid, hsuffix, hframe.drawn _ hdrawn, ?_, hlt.trans_le hframe.inodes, ?_, fun hnow => ?_⟩
    · rw [hframe.names pid suffix hsuffix hdrawn fun hg => hapart.1 _ hg rfl, hfile]
    · rw [hframe.contents file hlt hother, htext]
    · rcases hframe.published file hlt hnow with hbefore | hown
      · exact hmarker hbefore
      · exact hother hown
  | rereading generated suffix err =>
    obtain ⟨hsuffix, hdrawn, hmarker⟩ := hvalid
    refine ⟨hsuffix, hframe.drawn _ hdrawn, fun hnone => ?_⟩
    obtain ⟨file, hfile⟩ := Option.ne_none_iff_exists'.mp hmarker
    rw [(hframe.permanent file hfile).1] at hnone
    cases hnone
  | rereadingFile generated suffix err winner =>
    obtain ⟨hsuffix, hdrawn, hmarker⟩ := hvalid
    exact ⟨hsuffix, hframe.drawn _ hdrawn, (hframe.permanent winner hmarker).1⟩
  | cleaning suffix result =>
    obtain ⟨hsuffix, hdrawn, hresult⟩ := hvalid
    exact ⟨hsuffix, hframe.drawn _ hdrawn, fun id hid => (hresult id hid).permanent hframe.permanent⟩
  | finished result => exact fun id hid => (hvalid id hid).permanent hframe.permanent
  | thrown err => trivial

theorem Phase.Valid.owned (hvalid : h.Valid markerPath pid fs) :
    (∀ suffix, h.suffix? = some suffix → suffix ∈ fs.drawn) ∧
      ∀ file, h.file? = some file → file < fs.nextInode := by
  cases h with
  | opening generated suffix =>
    exact ⟨fun _ h => Option.some.inj h ▸ hvalid.2.2.1, fun _ h => (by cases h)⟩
  | writing generated suffix file rest =>
    exact ⟨fun _ h => Option.some.inj h ▸ hvalid.2.2.1,
      fun _ h => Option.some.inj h ▸ hvalid.2.2.2.2.1⟩
  | rereading generated suffix err =>
    exact ⟨fun _ h => Option.some.inj h ▸ hvalid.2.1, fun _ h => (by cases h)⟩
  | rereadingFile generated suffix err winner =>
    exact ⟨fun _ h => Option.some.inj h ▸ hvalid.2.1, fun _ h => (by cases h)⟩
  | cleaning suffix result =>
    exact ⟨fun _ h => Option.some.inj h ▸ hvalid.2.1, fun _ h => (by cases h)⟩
  | _ => exact ⟨fun _ h => (by cases h), fun _ h => (by cases h)⟩

end Frames

section Programs

variable {gitCommonDir : String}

def Phase.program (call : IdentityCall gitCommonDir) (phase : Phase) :
    Program FsCall (fun op => Except ErrnoException op.Val) IdentityResult :=
  match call.pathsResult with
  | .error reason => .pure (.ok (.error reason))
  | .ok paths => (phase.rest (markerPathOf gitCommonDir) call.pid >>= withInstanceId paths).run

variable {call : IdentityCall gitCommonDir}

theorem resolveRepositoryIdentity_program :
    resolveRepositoryIdentity call = Phase.resolving.program call := by
  unfold resolveRepositoryIdentity Phase.program
  cases hpaths : call.pathsResult with
  | error reason => rfl
  | ok paths =>
    dsimp only
    rw [call.common paths hpaths]
    rfl

/-- The errors that say whether a file exists are no faults. -/
def Unfailed (l : Answers FsCall (fun op => Except ErrnoException op.Val)) : Prop :=
  ∀ answer ∈ l, ∀ err, answer.2 = .error err → ¬IsFault err

structure Located (call : IdentityCall gitCommonDir)
    (l : Answers FsCall (fun op => Except ErrnoException op.Val))
    (x : Program FsCall (fun op => Except ErrnoException op.Val) IdentityResult) (phase : Phase)
    (fs : FileSystem) : Prop where
  program : x = phase.program call
  valid : phase.Valid (markerPathOf gitCommonDir) call.pid fs
  succeeds : Unfailed l → phase.Succeeds

theorem Phase.program_eq {paths : RepositoryIdentityPaths} (hpaths : call.pathsResult = .ok paths)
    (phase : Phase) :
    phase.program call =
      (phase.rest (markerPathOf gitCommonDir) call.pid >>= withInstanceId paths).run := by
  simp only [Phase.program, hpaths]

theorem program_of_rest {paths : RepositoryIdentityPaths} {phase : Phase}
    {y : FsProgram InstanceIdResult} (hpaths : call.pathsResult = .ok paths)
    (hy : y = phase.rest (markerPathOf gitCommonDir) call.pid) :
    (y >>= withInstanceId paths).run = phase.program call := by
  rw [phase.program_eq hpaths, hy]

/-- The suffix is still to be drawn. -/
def Phase.Undrawn : Phase → Prop
  | resolving => True
  | reading _ => True
  | drawing => True
  | naming _ => True
  | _ => False

/-- An operation takes a call from one phase to another. -/
structure Advances (call : IdentityCall gitCommonDir) (g : Phase) (fs fs' : FileSystem)
    (failed : Prop) (x : Program FsCall (fun op => Except ErrnoException op.Val) IdentityResult)
    (g' : Phase) : Prop where
  wellFormed : WellFormed (markerPathOf gitCommonDir) fs'
  frame : Frame (markerPathOf gitCommonDir) g fs fs'
  program : x = g'.program call
  valid : g'.Valid (markerPathOf gitCommonDir) call.pid fs'
  succeeds : g.Succeeds → ¬failed → g'.Succeeds
  apart : ∀ h pid, h.Valid (markerPathOf gitCommonDir) pid fs → g.Apart h → g'.Apart h
  undrawn : g'.Undrawn → g.Undrawn ∧ fs'.drawn = fs.drawn

variable {paths : RepositoryIdentityPaths} {fs fs' : FileSystem} {g g' : Phase} {op : FsCall}
variable {next : Except ErrnoException op.Val → Program FsCall _ IdentityResult}
variable {r : Except ErrnoException op.Val}
variable {x : Program FsCall (fun op => Except ErrnoException op.Val) IdentityResult}

theorem advances_alone {failed : Prop} (hfs : WellFormed (markerPathOf gitCommonDir) fs)
    (hprogram : x = g'.program call) (hvalid : g'.Valid (markerPathOf gitCommonDir) call.pid fs)
    (hsucceeds : g.Succeeds → ¬failed → g'.Succeeds)
    (hsuffix : ∀ suffix, g'.suffix? = some suffix → g.suffix? = some suffix)
    (hfile : ∀ file, g'.file? = some file → g.file? = some file)
    (hundrawn : g'.Undrawn → g.Undrawn) : Advances call g fs fs failed x g' where
  wellFormed := hfs
  frame := .refl g fs
  program := hprogram
  valid := hvalid
  succeeds := hsucceeds
  apart := fun _ _ _ hapart => ⟨fun _ h => hapart.1 _ (hsuffix _ h), fun _ h => hapart.2 _ (hfile _ h)⟩
  undrawn := fun h => ⟨hundrawn h, rfl⟩

variable {err : ErrnoException} {l : Answers FsCall (fun op => Except ErrnoException op.Val)}

theorem existing_fault {markerPath : String} {pid : ℕ} (hfault : IsFault err) :
    existing markerPath pid (.error err) =
      pure (.error s!"cannot read instance marker file: {err.message}") :=
  if_pos hfault.1

theorem existing_absent {markerPath : String} {pid : ℕ} {message : String} :
    existing markerPath pid (.error ⟨"ENOENT", message⟩) = createInstanceId markerPath pid := by
  simp [existing]

theorem written_failed {markerPath tmp generated : String} {err : ErrnoException} :
    written markerPath tmp generated (.error err) =
      pure (.error s!"cannot create instance marker temp file: {err.message}") := rfl

theorem linked_exists {markerPath generated message : String} :
    linked markerPath generated (.error ⟨"EEXIST", message⟩) =
      attempt (readFileSync markerPath) >>= fun r =>
        pure (readBack markerPath ⟨"EEXIST", message⟩ r) := by
  simp [linked]

theorem linked_fault {markerPath generated : String} (hfault : IsFault err) :
    linked markerPath generated (.error err) =
      pure (.error s!"cannot create instance marker file: {err.message}") :=
  if_neg hfault.2

/-- Every operation of a call in this phase takes it to another one. -/
def Phase.Moves (call : IdentityCall gitCommonDir) (g : Phase) : Prop :=
  ∀ {paths : RepositoryIdentityPaths} {fs fs' : FileSystem} {op : FsCall}
    {next : Except ErrnoException op.Val → Program FsCall _ IdentityResult} {r : Except ErrnoException op.Val},
    call.pathsResult = .ok paths → WellFormed (markerPathOf gitCommonDir) fs →
      g.Valid (markerPathOf gitCommonDir) call.pid fs → Program.call op next = g.program call →
        fsSemantics op fs r fs' → ∃ g', Advances call g fs fs' (∃ err, r = .error err ∧ IsFault err) (next r) g'

theorem moves_failed {y : FsProgram InstanceIdResult} {reason : String}
    (hpaths : call.pathsResult = .ok paths) (hfs : WellFormed (markerPathOf gitCommonDir) fs)
    (hfault : IsFault err) (hy : y = pure (.error reason)) :
    ∃ g', Advances call g fs fs (∃ err', (.error err : Except ErrnoException op.Val) = .error err' ∧ IsFault err')
      (y >>= withInstanceId paths).run g' := by
  refine ⟨.finished (.error reason), advances_alone hfs (@program_of_rest _ _ _ (.finished _) _ hpaths hy)
    (fun _ h => (by cases h)) (fun _ hno => absurd ⟨err, rfl, hfault⟩ hno) ?_ ?_ ?_⟩
  all_goals simp [Phase.suffix?, Phase.file?, Phase.Undrawn]

theorem moves_thrown (hpaths : call.pathsResult = .ok paths)
    (hfs : WellFormed (markerPathOf gitCommonDir) fs) (hfault : IsFault err) :
    ∃ g', Advances call g fs fs (∃ err', (.error err : Except ErrnoException op.Val) = .error err' ∧ IsFault err')
      ((Phase.thrown err).rest (markerPathOf gitCommonDir) call.pid >>= withInstanceId paths).run g' := by
  refine ⟨.thrown err, advances_alone hfs (Phase.program_eq hpaths (.thrown err)).symm trivial
    (fun _ hno => absurd ⟨err, rfl, hfault⟩ hno) ?_ ?_ ?_⟩
  all_goals simp [Phase.suffix?, Phase.file?, Phase.Undrawn]

theorem resolving_moves : Phase.resolving.Moves call := by
  intro paths fs fs' op next r hpaths hfs hvalid hcall hsem
  rw [Phase.program_eq hpaths] at hcall
  change _ = Program.call (FsCall.openFile (markerPathOf gitCommonDir)) _ at hcall
  cases hcall
  rcases hsem with ⟨rfl, hopened⟩ | ⟨⟨err, hfault, rfl⟩, rfl⟩
  · cases hmarker : fs'.entries (markerPathOf gitCommonDir) with
    | some file =>
      rw [hmarker] at hopened
      subst hopened
      refine ⟨.reading file, advances_alone hfs
        (Phase.program_eq hpaths (.reading file)).symm hmarker ?_ ?_ ?_ ?_⟩
      all_goals simp [Phase.suffix?, Phase.file?, Phase.Succeeds, Phase.Undrawn]
    | none =>
      rw [hmarker] at hopened
      obtain ⟨message, rfl⟩ := hopened
      refine ⟨.drawing, advances_alone hfs
        (@program_of_rest _ _ _ .drawing _ hpaths (@existing_absent _ _ message)) trivial ?_ ?_ ?_ ?_⟩
      all_goals simp [Phase.suffix?, Phase.file?, Phase.Succeeds, Phase.Undrawn]
  · exact moves_failed hpaths hfs hfault (existing_fault hfault)

theorem reading_moves (file : ℕ) : (Phase.reading file).Moves call := by
  intro paths fs fs' op next r hpaths hfs hvalid hcall hsem
  have hprogram : (Phase.reading file).program call = .call (.readFile file) fun r =>
      (existing (markerPathOf gitCommonDir) call.pid r >>= withInstanceId paths).run :=
    Phase.program_eq hpaths (.reading file)
  rw [hprogram] at hcall
  cases hcall
  rcases hsem with ⟨rfl, rfl⟩ | ⟨⟨err, hfault, rfl⟩, rfl⟩
  · obtain ⟨id, hid, htext⟩ := hfs.marker file hvalid
    have hread : existing (markerPathOf gitCommonDir) call.pid
        (.ok (String.ofList (fs'.contents file))) = pure (.ok id) := by
      rw [htext]
      exact congrArg pure (readInstanceId_markerText hid)
    refine ⟨.finished (.ok id), advances_alone hfs
      (@program_of_rest _ _ _ (.finished _) _ hpaths hread) ?_ ?_ ?_ ?_ ?_⟩
    · intro id' hid'
      cases hid'
      exact ⟨file, hvalid, htext⟩
    all_goals simp [Phase.suffix?, Phase.file?, Phase.Succeeds, Phase.Undrawn]
  · exact moves_failed hpaths hfs hfault (existing_fault hfault)

theorem drawing_moves : Phase.drawing.Moves call := by
  intro paths fs fs' op next r hpaths hfs hvalid hcall hsem
  rw [Phase.program_eq hpaths] at hcall
  change _ = Program.call FsCall.randomUUID _ at hcall
  cases hcall
  rcases hsem with ⟨rfl, id, hid, rfl⟩ | ⟨⟨err, hfault, rfl⟩, rfl⟩
  · refine ⟨.naming id, advances_alone hfs (Phase.program_eq hpaths (.naming id)).symm hid
      ?_ ?_ ?_ ?_⟩
    all_goals simp [Phase.suffix?, Phase.file?, Phase.Succeeds, Phase.Undrawn]
  · exact moves_thrown hpaths hfs hfault

/-- A new suffix is nobody's. -/
theorem naming_moves (generated : String) : (Phase.naming generated).Moves call := by
  intro paths fs fs' op next r hpaths hfs hvalid hcall hsem
  rw [Phase.program_eq hpaths] at hcall
  change _ = Program.call FsCall.randomBytes _ at hcall
  cases hcall
  rcases hsem with ⟨suffix, hsuffix, hnew, rfl, rfl⟩ | ⟨⟨err, hfault, rfl⟩, rfl⟩
  · have habsent : fs.entries (tmpPath (markerPathOf gitCommonDir) call.pid suffix) = none :=
      by_contra fun h => hnew (hfs.suffixes call.pid suffix hsuffix h)
    refine ⟨.opening generated suffix, ⟨hfs.inodes, fun pid suffix hsuffix h => ?_, hfs.marker⟩,
      { Frame.refl (.naming generated) fs with drawn := fun _ h => List.mem_cons_of_mem _ h },
      (Phase.program_eq hpaths (.opening generated suffix)).symm,
      ⟨hvalid, hsuffix, List.mem_cons_self, habsent⟩, fun _ _ => trivial, fun h pid hh _ => ?_,
      fun h => h.elim⟩
    · exact List.mem_cons_of_mem _ (hfs.suffixes pid suffix hsuffix h)
    · refine ⟨fun suffix' hown hother => ?_, fun _ hfile => by cases hfile⟩
      cases hown
      exact hnew (hh.owned.1 suffix hother)
  · exact moves_thrown hpaths hfs hfault

variable (generated suffix : String)

/-- A temporary file is created where there was none. -/
theorem opening_moves : (Phase.opening generated suffix).Moves call := by
  intro paths fs fs' op next r hpaths hfs hvalid hcall hsem
  obtain ⟨hid, hsuffix, hdrawn, habsent⟩ := hvalid
  have hmarkerPath := (@tmpPath_ne_markerPath (markerPathOf gitCommonDir) call.pid suffix).symm
  rw [Phase.program_eq hpaths] at hcall
  change _ = Program.call (FsCall.createFile (tmpPath (markerPathOf gitCommonDir) call.pid suffix)) _
    at hcall
  cases hcall
  rcases hsem with hcreated | ⟨⟨err, hfault, rfl⟩, rfl⟩
  · dsimp only [CarriedOut] at hcreated
    rw [habsent] at hcreated
    obtain ⟨rfl, rfl⟩ := hcreated
    have hold : ∀ file, fs.entries (markerPathOf gitCommonDir) = some file →
        file ≠ fs.nextInode := fun file hfile => (hfs.inodes _ file hfile).ne
    refine ⟨.writing generated suffix fs.nextInode (markerText generated),
      ⟨fun path file hfile => ?_, fun pid' suffix' hsuffix' hentry => ?_, fun file hfile => ?_⟩,
      ⟨fun file hfile => ?_, by simp, fun _ h => h, fun file hlt _ => ?_, ?_, fun file _ hfile => ?_⟩,
      (Phase.program_eq hpaths (.writing generated suffix fs.nextInode (markerText generated))).symm,
      ⟨hid, hsuffix, hdrawn, by simp, by simp, by simp, ?_⟩, fun _ _ => trivial,
      fun h pid' hh hapart => ⟨hapart.1, fun file hown hother => ?_⟩, fun h => h.elim⟩
    · dsimp only at hfile ⊢
      by_cases hpath : path = tmpPath (markerPathOf gitCommonDir) call.pid suffix
      · rw [hpath, Function.update_self] at hfile
        cases hfile
        omega
      · rw [Function.update_of_ne hpath] at hfile
        have := hfs.inodes path file hfile
        omega
    · dsimp only at hentry ⊢
      by_cases hpath : tmpPath (markerPathOf gitCommonDir) pid' suffix' =
          tmpPath (markerPathOf gitCommonDir) call.pid suffix
      · rwa [tmpPath_suffix hsuffix' hsuffix hpath]
      · rw [Function.update_of_ne hpath] at hentry
        exact hfs.suffixes pid' suffix' hsuffix' hentry
    · dsimp only at hfile ⊢
      rw [Function.update_of_ne hmarkerPath] at hfile
      rw [Function.update_of_ne (hold file hfile)]
      exact hfs.marker file hfile
    · dsimp only
      rw [Function.update_of_ne hmarkerPath, Function.update_of_ne (hold file hfile)]
      exact ⟨hfile, rfl⟩
    · exact Function.update_of_ne hlt.ne _ _
    · intro pid' suffix' hsuffix' _ hother
      refine Function.update_of_ne (fun hpath => hother ?_) _ _
      rw [tmpPath_suffix hsuffix' hsuffix hpath]
      rfl
    · dsimp only at hfile
      rw [Function.update_of_ne hmarkerPath] at hfile
      exact .inl hfile
    · dsimp only
      rw [Function.update_of_ne hmarkerPath]
      exact fun hfile => hold _ hfile rfl
    · cases hown
      exact lt_irrefl _ (hh.owned.2 _ hother)
  · exact moves_failed hpaths hfs hfault (@written_failed (markerPathOf gitCommonDir)
      (tmpPath (markerPathOf gitCommonDir) call.pid suffix) generated err)

/-- A character is written into a file that is not published. -/
theorem writing_moves (file : ℕ) (char : Char) (rest : List Char) :
    (Phase.writing generated suffix file (char :: rest)).Moves call := by
  intro paths fs fs' op next r hpaths hfs hvalid hcall hsem
  obtain ⟨hid, hsuffix, hdrawn, hfile, hlt, htext, hmarker⟩ := hvalid
  rw [Phase.program_eq hpaths] at hcall
  change _ = Program.call (FsCall.writeFile file char) _ at hcall
  cases hcall
  rcases hsem with ⟨rfl, rfl⟩ | ⟨⟨err, hfault, rfl⟩, rfl⟩
  · have hother : ∀ marker, fs.entries (markerPathOf gitCommonDir) = some marker → marker ≠ file := by
      rintro marker hentry rfl
      exact hmarker hentry
    refine ⟨.writing generated suffix file rest,
      ⟨hfs.inodes, hfs.suffixes, fun marker hentry => ?_⟩,
      ⟨fun marker hentry => ⟨hentry, ?_⟩, le_rfl, fun _ h => h, fun file' _ hne => ?_,
        fun _ _ _ _ _ => rfl, fun _ _ h => .inl h⟩,
      (Phase.program_eq hpaths (.writing generated suffix file rest)).symm,
      ⟨hid, hsuffix, hdrawn, hfile, hlt, ?_, hmarker⟩, fun _ _ => trivial,
      fun h pid' hh hapart => hapart, fun h => h.elim⟩
    · dsimp only at hentry ⊢
      rw [Function.update_of_ne (hother marker hentry)]
      exact hfs.marker marker hentry
    · exact Function.update_of_ne (hother marker hentry) _ _
    · refine Function.update_of_ne (fun heq => hne ?_) _ _
      rw [heq]
      rfl
    · dsimp only
      rw [Function.update_self, List.append_assoc]
      exact htext
  · exact moves_failed hpaths hfs hfault (@written_failed (markerPathOf gitCommonDir)
      (tmpPath (markerPathOf gitCommonDir) call.pid suffix) generated err)

theorem linking_moves (file : ℕ) : (Phase.writing generated suffix file []).Moves call := by
  intro paths fs fs' op next r hpaths hfs hvalid hcall hsem
  obtain ⟨hid, hsuffix, hdrawn, hfile, hlt, htext, hmarker⟩ := hvalid
  rw [List.append_nil] at htext
  have hprogram : (Phase.writing generated suffix file []).program call =
      .call (.linkSync (tmpPath (markerPathOf gitCommonDir) call.pid suffix)
        (markerPathOf gitCommonDir)) fun r =>
          ((linked (markerPathOf gitCommonDir) generated r >>=
            cleanUp (tmpPath (markerPathOf gitCommonDir) call.pid suffix)) >>=
              withInstanceId paths).run :=
    Phase.program_eq hpaths (.writing generated suffix file [])
  rw [hprogram] at hcall
  cases hcall
  rcases hsem with hlinked | ⟨⟨err, hfault, rfl⟩, rfl⟩
  · dsimp only [CarriedOut] at hlinked
    rw [hfile] at hlinked
    cases hexisting : fs.entries (markerPathOf gitCommonDir) with
    | some winner =>
      rw [hexisting] at hlinked
      obtain ⟨rfl, message, rfl⟩ := hlinked
      refine ⟨.rereading generated suffix ⟨"EEXIST", message⟩, advances_alone hfs ?_
        ⟨hsuffix, hdrawn, by simp [hexisting]⟩ ?_ ?_ ?_ ?_⟩
      · dsimp only
        rw [linked_exists]
        exact (Phase.program_eq hpaths (.rereading generated suffix ⟨"EEXIST", message⟩)).symm
      all_goals simp [Phase.suffix?, Phase.file?, Phase.Succeeds, Phase.Undrawn]
    | none =>
      rw [hexisting] at hlinked
      obtain ⟨rfl, rfl⟩ := hlinked
      have hmarkerPath : ∀ pid suffix, tmpPath (markerPathOf gitCommonDir) pid suffix ≠
          markerPathOf gitCommonDir := tmpPath_ne_markerPath
      refine ⟨.cleaning suffix (.ok generated),
        ⟨fun path file' hentry => ?_, fun pid' suffix' hsuffix' hentry => ?_,
          fun file' hentry => ?_⟩,
        ⟨fun file' hentry => ?_, le_rfl, fun _ h => h, fun _ _ _ => rfl,
          fun pid' suffix' _ _ _ => Function.update_of_ne (hmarkerPath pid' suffix') _ _,
          fun file' _ hentry => ?_⟩,
        (Phase.program_eq hpaths (.cleaning suffix (.ok generated))).symm,
        ⟨hsuffix, hdrawn, fun id hok => ?_⟩, fun _ _ => trivial,
        fun h pid' hh hapart => ⟨hapart.1, fun _ h => (by cases h)⟩, fun h => h.elim⟩
      · dsimp only at hentry
        by_cases hpath : path = markerPathOf gitCommonDir
        · rw [hpath, Function.update_self] at hentry
          cases hentry
          exact hlt
        · rw [Function.update_of_ne hpath] at hentry
          exact hfs.inodes path file' hentry
      · dsimp only at hentry
        rw [Function.update_of_ne (hmarkerPath pid' suffix')] at hentry
        exact hfs.suffixes pid' suffix' hsuffix' hentry
      · dsimp only at hentry
        rw [Function.update_self] at hentry
        cases hentry
        exact ⟨generated, hid, htext⟩
      · rw [hexisting] at hentry
        cases hentry
      · dsimp only at hentry
        rw [Function.update_self] at hentry
        exact .inr hentry
      · cases hok
        exact ⟨file, Function.update_self _ _ _, htext⟩
  · refine ⟨.cleaning suffix (.error s!"cannot create instance marker file: {err.message}"),
      advances_alone hfs ?_ ⟨hsuffix, hdrawn, fun _ h => (by cases h)⟩
        (fun _ hno => absurd ⟨err, rfl, hfault⟩ hno) ?_ ?_ ?_⟩
    · dsimp only
      rw [linked_fault hfault]
      exact (Phase.program_eq hpaths (.cleaning suffix _)).symm
    all_goals simp [Phase.suffix?, Phase.file?, Phase.Undrawn]

theorem rereading_moves (error : ErrnoException) :
    (Phase.rereading generated suffix error).Moves call := by
  intro paths fs fs' op next r hpaths hfs hvalid hcall hsem
  obtain ⟨hsuffix, hdrawn, hmarker⟩ := hvalid
  rw [Phase.program_eq hpaths] at hcall
  change _ = Program.call (FsCall.openFile (markerPathOf gitCommonDir)) _ at hcall
  cases hcall
  rcases hsem with ⟨rfl, hopened⟩ | ⟨⟨err, hfault, rfl⟩, rfl⟩
  · obtain ⟨winner, hwinner⟩ := Option.ne_none_iff_exists'.mp hmarker
    rw [hwinner] at hopened
    subst hopened
    refine ⟨.rereadingFile generated suffix error winner, advances_alone hfs
      (Phase.program_eq hpaths (.rereadingFile generated suffix error winner)).symm
      ⟨hsuffix, hdrawn, hwinner⟩ ?_ ?_ ?_ ?_⟩
    all_goals simp [Phase.suffix?, Phase.file?, Phase.Succeeds, Phase.Undrawn]
  · refine ⟨.cleaning suffix (.error s!"cannot create instance marker file: {error.message}"),
      advances_alone hfs (Phase.program_eq hpaths (.cleaning suffix (.error _))).symm
        ⟨hsuffix, hdrawn, fun _ h => (by cases h)⟩
        (fun _ hno => absurd ⟨err, rfl, hfault⟩ hno) ?_ ?_ ?_⟩
    all_goals simp [Phase.suffix?, Phase.file?, Phase.Undrawn]

theorem rereadingFile_moves (error : ErrnoException) (winner : ℕ) :
    (Phase.rereadingFile generated suffix error winner).Moves call := by
  intro paths fs fs' op next r hpaths hfs hvalid hcall hsem
  obtain ⟨hsuffix, hdrawn, hmarker⟩ := hvalid
  have hprogram : (Phase.rereadingFile generated suffix error winner).program call =
      .call (.readFile winner) fun r =>
        (cleanUp (tmpPath (markerPathOf gitCommonDir) call.pid suffix)
          (readBack (markerPathOf gitCommonDir) error r) >>= withInstanceId paths).run :=
    Phase.program_eq hpaths (.rereadingFile generated suffix error winner)
  rw [hprogram] at hcall
  cases hcall
  rcases hsem with ⟨rfl, rfl⟩ | ⟨⟨err, hfault, rfl⟩, rfl⟩
  · obtain ⟨id, hid, htext⟩ := hfs.marker winner hmarker
    have hread : readBack (markerPathOf gitCommonDir) error
        (.ok (String.ofList (fs'.contents winner))) = .ok id := by
      rw [htext]
      exact readInstanceId_markerText hid
    refine ⟨.cleaning suffix (.ok id), advances_alone hfs ?_ ⟨hsuffix, hdrawn, ?_⟩ ?_ ?_ ?_ ?_⟩
    · dsimp only
      rw [hread]
      exact (Phase.program_eq hpaths (.cleaning suffix (.ok id))).symm
    · intro id' hid'
      cases hid'
      exact ⟨winner, hmarker, htext⟩
    all_goals simp [Phase.suffix?, Phase.file?, Phase.Succeeds, Phase.Undrawn]
  · refine ⟨.cleaning suffix (.error s!"cannot create instance marker file: {error.message}"),
      advances_alone hfs (Phase.program_eq hpaths (.cleaning suffix (.error _))).symm
        ⟨hsuffix, hdrawn, fun _ h => (by cases h)⟩
        (fun _ hno => absurd ⟨err, rfl, hfault⟩ hno) ?_ ?_ ?_⟩
    all_goals simp [Phase.suffix?, Phase.file?, Phase.Undrawn]

/-- Whatever becomes of the temporary file, the result stays. -/
theorem cleaning_moves (suffix : String) (result : InstanceIdResult) : (Phase.cleaning suffix result).Moves call := by
  intro paths fs fs' op next r hpaths hfs hvalid hcall hsem
  obtain ⟨hsuffix, hdrawn, hresult⟩ := hvalid
  have hprogram : (Phase.cleaning suffix result).program call =
      .call (.unlinkSync (tmpPath (markerPathOf gitCommonDir) call.pid suffix)) fun _ =>
        (Phase.finished result).program call := by
    rw [Phase.program_eq hpaths, Phase.program_eq hpaths]
    rfl
  rw [hprogram] at hcall
  cases hcall
  have hsucceeds : (Phase.cleaning suffix result).Succeeds → (Phase.finished result).Succeeds := by
    cases result with
    | ok id => exact fun _ => trivial
    | error reason => exact fun h => h
  have halone : Advances call (.cleaning suffix result) fs fs (∃ err, r = .error err ∧ IsFault err)
      ((Phase.finished result).program call) (.finished result) :=
    advances_alone hfs rfl hresult (fun h _ => hsucceeds h) (by simp [Phase.suffix?])
      (by simp [Phase.file?]) (fun h => h.elim)
  rcases hsem with hunlinked | ⟨-, rfl⟩
  · dsimp only [CarriedOut] at hunlinked
    cases hentry : fs.entries (tmpPath (markerPathOf gitCommonDir) call.pid suffix) with
    | none =>
      rw [hentry] at hunlinked
      obtain ⟨rfl, -⟩ := hunlinked
      exact ⟨.finished result, halone⟩
    | some file =>
      rw [hentry] at hunlinked
      obtain ⟨-, rfl⟩ := hunlinked
      have hmarkerPath := (@tmpPath_ne_markerPath (markerPathOf gitCommonDir) call.pid suffix).symm
      have hpermanent : Permanent (markerPathOf gitCommonDir) fs
          { fs with
            entries := Function.update fs.entries
              (tmpPath (markerPathOf gitCommonDir) call.pid suffix) none } := fun file hfile =>
        ⟨(Function.update_of_ne hmarkerPath _ _).trans hfile, rfl⟩
      refine ⟨.finished result,
        ⟨fun path file' hfile => ?_, fun pid' suffix' hsuffix' hentry' => ?_, fun file' hfile => ?_⟩,
        ⟨hpermanent, le_rfl, fun _ h => h, fun _ _ _ => rfl, ?_, fun file' _ hfile => ?_⟩, rfl,
        fun id hid => (hresult id hid).permanent hpermanent, fun h _ => hsucceeds h,
        fun h pid' _ _ => ⟨fun _ h => (by cases h), fun _ h => (by cases h)⟩, fun h => h.elim⟩
      · dsimp only at hfile
        by_cases hpath : path = tmpPath (markerPathOf gitCommonDir) call.pid suffix
        · rw [hpath, Function.update_self] at hfile
          cases hfile
        · rw [Function.update_of_ne hpath] at hfile
          exact hfs.inodes path file' hfile
      · dsimp only at hentry'
        by_cases hpath : tmpPath (markerPathOf gitCommonDir) pid' suffix' =
            tmpPath (markerPathOf gitCommonDir) call.pid suffix
        · rwa [tmpPath_suffix hsuffix' hsuffix hpath]
        · rw [Function.update_of_ne hpath] at hentry'
          exact hfs.suffixes pid' suffix' hsuffix' hentry'
      · dsimp only at hfile
        rw [Function.update_of_ne hmarkerPath] at hfile
        exact hfs.marker file' hfile
      · intro pid' suffix' hsuffix' _ hother
        refine Function.update_of_ne (fun hpath => hother ?_) _ _
        rw [tmpPath_suffix hsuffix' hsuffix hpath]
        rfl
      · dsimp only at hfile
        rw [Function.update_of_ne hmarkerPath] at hfile
        exact .inl hfile
  · exact ⟨.finished result, halone⟩

theorem Located.advances (hlocated : Located call l (.call op next) g fs)
    (hfs : WellFormed (markerPathOf gitCommonDir) fs) (hsem : fsSemantics op fs r fs') :
    ∃ g', Advances call g fs fs' (∃ err, r = .error err ∧ IsFault err) (next r) g' := by
  obtain ⟨hcall, hvalid, -⟩ := hlocated
  cases hpaths : call.pathsResult with
  | error reason =>
    simp only [Phase.program, hpaths] at hcall
    cases hcall
  | ok paths =>
    cases g with
    | resolving => exact resolving_moves hpaths hfs hvalid hcall hsem
    | reading file => exact reading_moves file hpaths hfs hvalid hcall hsem
    | drawing => exact drawing_moves hpaths hfs hvalid hcall hsem
    | naming generated => exact naming_moves generated hpaths hfs hvalid hcall hsem
    | opening generated suffix => exact opening_moves generated suffix hpaths hfs hvalid hcall hsem
    | writing generated suffix file rest =>
      cases rest with
      | nil => exact linking_moves generated suffix file hpaths hfs hvalid hcall hsem
      | cons char rest => exact writing_moves generated suffix file char rest hpaths hfs hvalid hcall hsem
    | rereading generated suffix err => exact rereading_moves generated suffix err hpaths hfs hvalid hcall hsem
    | rereadingFile generated suffix err winner =>
      exact rereadingFile_moves generated suffix err winner hpaths hfs hvalid hcall hsem
    | cleaning suffix result => exact cleaning_moves suffix result hpaths hfs hvalid hcall hsem
    | finished result =>
      rw [Phase.program_eq hpaths] at hcall
      cases result <;> cases hcall
    | thrown err =>
      rw [Phase.program_eq hpaths] at hcall
      cases hcall

theorem Advances.located
    (hadvances : Advances call g fs fs' (∃ err, r = .error err ∧ IsFault err) x g')
    (hg : Unfailed l → g.Succeeds) : Located call (l ++ [⟨op, r⟩]) x g' fs' where
  program := hadvances.program
  valid := hadvances.valid
  succeeds := by
    intro hunfailed
    refine hadvances.succeeds (hg fun answer h => hunfailed answer (List.mem_append_left _ h)) ?_
    rintro ⟨err, herr, hfault⟩
    exact hunfailed ⟨op, r⟩ (List.mem_append_right _ List.mem_cons_self) err herr hfault

end Programs

section Runs

variable {gitCommonDir : String}

def identityOutline (gitCommonDir : String) :
    Outline (@resolveRepositoryIdentity gitCommonDir) fsSemantics Phase where
  inv := WellFormed (markerPathOf gitCommonDir)
  holds := Located
  apart := Phase.Apart
  moves := Permanent (markerPathOf gitCommonDir)
  apart_symm := fun h => ⟨fun _ hh hg => h.1 _ hg hh, fun _ hh hg => h.2 _ hg hh⟩
  moves_refl := fun _ _ h => ⟨h, rfl⟩
  moves_trans := fun h h' file hfile =>
    ⟨(h' file (h file hfile).1).1, ((h' file (h file hfile).1).2).trans (h file hfile).2⟩
  start := fun _ _ _ => ⟨.resolving, ⟨resolveRepositoryIdentity_program, trivial, fun _ => trivial⟩,
    fun _ => ⟨fun _ h => (by cases h), fun _ h => (by cases h)⟩⟩
  step := by
    intro call l op next g fs r fs' hfs hlocated hsem
    obtain ⟨g', hadvances⟩ := hlocated.advances hfs hsem
    refine ⟨hadvances.wellFormed, hadvances.frame.permanent, g',
      hadvances.located hlocated.succeeds, fun other l' x h hother hapart => ?_⟩
    exact ⟨⟨hother.program, hadvances.frame.valid hapart hother.valid, hother.succeeds⟩,
      hadvances.apart h other.pid hother.valid hapart⟩

variable {fs : FileSystem} {k k' : Config FileSystem (IdentityCall gitCommonDir) FsCall
  (fun op => Except ErrnoException op.Val) IdentityResult}
variable {es es' : List (Event (IdentityCall gitCommonDir) FsCall
  (fun op => Except ErrnoException op.Val) IdentityResult)}
variable {call : IdentityCall gitCommonDir}
variable {l : Answers FsCall (fun op => Except ErrnoException op.Val)}
variable {paths : RepositoryIdentityPaths} {phase : Phase} {a : IdentityResult} {p : ℕ}

/-- A value that is handed back is the result of a phase that has ended. -/
theorem Located.result (h : Located call l (.pure a) phase fs)
    (hpaths : call.pathsResult = .ok paths) :
    (∃ id, a = .ok (.ok { paths with instanceId := id }) ∧
        Holds (markerPathOf gitCommonDir) fs id) ∨
      ((∃ reason, a = .ok (.error reason)) ∨ ∃ err, a = .error err) ∧ ¬Unfailed l := by
  obtain ⟨hprogram, hvalid, hsucceeds⟩ := h
  rw [phase.program_eq hpaths] at hprogram
  cases phase with
  | finished result =>
    cases result with
    | ok id =>
      cases hprogram
      exact .inl ⟨id, rfl, hvalid id rfl⟩
    | error reason =>
      cases hprogram
      exact .inr ⟨.inl ⟨reason, rfl⟩, hsucceeds⟩
  | thrown err =>
    cases hprogram
    exact .inr ⟨.inr ⟨err, rfl⟩, hsucceeds⟩
  | writing generated suffix file rest => cases rest <;> cases hprogram
  | _ => cases hprogram

theorem Holds.unique {markerPath id id' : String} (h : Holds markerPath fs id)
    (h' : Holds markerPath fs id') : id = id' := by
  obtain ⟨file, hfile, htext⟩ := h
  obtain ⟨file', hfile', htext'⟩ := h'
  cases hfile.symm.trans hfile'
  exact String.toList_inj.mp (List.append_cancel_right (htext.symm.trans htext'))

/-- The history of a call that handed back its value, and what it handed back. -/
theorem response_identity (hfs : WellFormed (markerPathOf gitCommonDir) fs)
    (hrun : Run (@resolveRepositoryIdentity gitCommonDir) fsSemantics (Config.idle fs)
      (es ++ .response p call a :: es') k) (hpaths : call.pathsResult = .ok paths) :
    ∃ before since, es = before ++ .invoke p call :: since ∧ Uninterrupted p call since ∧
      ((∃ id, a = .ok (.ok { paths with instanceId := id }) ∧
          Holds (markerPathOf gitCommonDir) k.shared id) ∨
        ((∃ reason, a = .ok (.error reason)) ∨ ∃ err, a = .error err) ∧
          ¬Unfailed (answers p since)) := by
  obtain ⟨k₁, k₂, hbefore, hstep, hafter⟩ := hrun.split_step
  obtain ⟨before, since, g, hes, honly, hlocated⟩ :=
    hbefore.outline_response (identityOutline gitCommonDir) hfs hstep
  refine ⟨before, since, hes, honly, (hlocated.result hpaths).imp ?_ id⟩
  rintro ⟨id, rfl, hholds⟩
  have hmoves := hbefore.outline_moves (identityOutline gitCommonDir) hfs
    ((Run.single hstep).append hafter)
  exact ⟨id, rfl, hholds.permanent hmoves⟩

theorem response_holds {identity : RepositoryIdentity}
    (hfs : WellFormed (markerPathOf gitCommonDir) fs)
    (hrun : Run (@resolveRepositoryIdentity gitCommonDir) fsSemantics (Config.idle fs)
      (es ++ .response p call (.ok (.ok identity)) :: es') k) :
    Holds (markerPathOf gitCommonDir) k.shared identity.instanceId := by
  cases hpaths : call.pathsResult with
  | ok paths =>
    obtain ⟨before, since, -, -, hresult⟩ := response_identity hfs hrun hpaths
    rcases hresult with ⟨id, heq, hholds⟩ | ⟨⟨reason, heq⟩ | ⟨err, heq⟩, -⟩
    · cases heq
      exact hholds
    · cases heq
    · cases heq
  | error reason =>
    obtain ⟨k₁, k₂, hbefore, hstep, -⟩ := hrun.split_step
    obtain ⟨_, _, g, -, -, hprogram, -, -⟩ :=
      hbefore.outline_response (identityOutline gitCommonDir) hfs hstep
    simp only [Phase.program, hpaths] at hprogram
    cases hprogram

theorem carriedOut_total (op : FsCall) (fs : FileSystem)
    (hunused : op = .randomBytes → ∃ suffix, IsSuffix suffix ∧ suffix ∉ fs.drawn) :
    ∃ r fs', CarriedOut op fs r fs' ∧ ∀ err, r = .error err → ¬IsFault err := by
  have hmissing : ∀ message : String, ¬IsFault ⟨"ENOENT", message⟩ := fun _ h => h.1 rfl
  have hexists : ∀ message : String, ¬IsFault ⟨"EEXIST", message⟩ := fun _ h => h.2 rfl
  cases op with
  | openFile path =>
    cases hentry : fs.entries path with
    | some file =>
      refine ⟨.ok file, fs, ⟨rfl, ?_⟩, fun _ h => by cases h⟩
      rw [hentry]
    | none =>
      refine ⟨.error ⟨"ENOENT", ""⟩, fs, ⟨rfl, ?_⟩, fun _ h => by cases h; exact hmissing ""⟩
      rw [hentry]
      exact ⟨"", rfl⟩
  | readFile file => exact ⟨_, fs, ⟨rfl, rfl⟩, fun _ h => by cases h⟩
  | createFile path =>
    cases hentry : fs.entries path with
    | some file =>
      refine ⟨.error ⟨"EEXIST", ""⟩, fs, ?_, fun _ h => by cases h; exact hexists ""⟩
      rw [CarriedOut, hentry]
      exact ⟨rfl, "", rfl⟩
    | none =>
      refine ⟨.ok fs.nextInode, { fs with
        entries := Function.update fs.entries path (some fs.nextInode)
        contents := Function.update fs.contents fs.nextInode []
        nextInode := fs.nextInode + 1 }, ?_, fun _ h => by cases h⟩
      rw [CarriedOut, hentry]
      exact ⟨rfl, rfl⟩
  | writeFile file char => exact ⟨.ok (), _, ⟨rfl, rfl⟩, fun _ h => by cases h⟩
  | linkSync existingPath newPath =>
    cases hold : fs.entries existingPath with
    | none =>
      refine ⟨.error ⟨"ENOENT", ""⟩, fs, ?_, fun _ h => by cases h; exact hmissing ""⟩
      rw [CarriedOut, hold]
      exact ⟨rfl, "", rfl⟩
    | some file =>
      cases hnew : fs.entries newPath with
      | some other =>
        refine ⟨.error ⟨"EEXIST", ""⟩, fs, ?_, fun _ h => by cases h; exact hexists ""⟩
        rw [CarriedOut, hold, hnew]
        exact ⟨rfl, "", rfl⟩
      | none =>
        refine ⟨.ok (), { fs with entries := Function.update fs.entries newPath (some file) }, ?_,
          fun _ h => by cases h⟩
        rw [CarriedOut, hold, hnew]
        exact ⟨rfl, rfl⟩
  | unlinkSync path =>
    cases hentry : fs.entries path with
    | none =>
      refine ⟨.error ⟨"ENOENT", ""⟩, fs, ?_, fun _ h => by cases h; exact hmissing ""⟩
      rw [CarriedOut, hentry]
      exact ⟨rfl, "", rfl⟩
    | some file =>
      refine ⟨.ok (), { fs with entries := Function.update fs.entries path none }, ?_,
        fun _ h => by cases h⟩
      rw [CarriedOut, hentry]
      exact ⟨rfl, rfl⟩
  | randomUUID =>
    exact ⟨_, fs, ⟨rfl, "00000000-0000-4000-8000-000000000000", by decide, rfl⟩,
      fun _ h => by cases h⟩
  | randomBytes =>
    obtain ⟨suffix, hsuffix, hnew⟩ := hunused rfl
    exact ⟨_, _, ⟨suffix, hsuffix, hnew, rfl, rfl⟩, fun _ h => by cases h⟩

/-- Only who has no suffix yet draws one. -/
theorem Located.undrawn
    {next : Except ErrnoException (FsCall.Val .randomBytes) → Program FsCall _ IdentityResult}
    (h : Located call l (.call .randomBytes next) phase fs) : phase.Undrawn := by
  have hcall := h.program
  unfold Phase.program at hcall
  cases hpaths : call.pathsResult with
  | error reason =>
    rw [hpaths] at hcall
    cases hcall
  | ok paths =>
    rw [hpaths] at hcall
    cases phase with
    | resolving => trivial
    | reading file => trivial
    | drawing => trivial
    | naming generated => trivial
    | writing generated suffix file rest => cases rest <;> cases hcall
    | finished result => cases result <;> cases hcall
    | _ => cases hcall

/-- A call that is by itself comes to its end without fault. -/
theorem Located.completes
    {x : Program FsCall (fun op => Except ErrnoException op.Val) IdentityResult}
    (hlocated : Located call l x phase k.shared) (hl : Unfailed l)
    (hfs : WellFormed (markerPathOf gitCommonDir) k.shared)
    (hunused : phase.Undrawn → ∃ suffix, IsSuffix suffix ∧ suffix ∉ k.shared.drawn)
    (hp : k.threads p = some (call, x)) :
    ∃ es a k', Run (@resolveRepositoryIdentity gitCommonDir) fsSemantics k es k' ∧
      k'.threads p = some (call, .pure a) ∧ Uninterrupted p call es ∧ (∀ e ∈ es, e.process = p) ∧
      Unfailed (answers p es) := by
  refine Config.exists_completion (fun x fs => ∃ l phase, Located call l x phase fs ∧
    Unfailed l ∧ WellFormed (markerPathOf gitCommonDir) fs ∧
      (phase.Undrawn → ∃ suffix, IsSuffix suffix ∧ suffix ∉ fs.drawn))
    (fun _ r => ∀ err, r = .error err → ¬IsFault err) ?_ hp ⟨l, phase, hlocated, hl, hfs, hunused⟩
  rintro op next fs ⟨l, g, hhere, hunfailed, hwell, hleft⟩
  obtain ⟨r, fs', hcarried, hnofault⟩ := carriedOut_total op fs fun h => by
    subst h
    exact hleft hhere.undrawn
  obtain ⟨g', hadvances⟩ := hhere.advances hwell (.inl hcarried)
  refine ⟨r, fs', .inl hcarried, hnofault, l ++ [⟨op, r⟩], g', hadvances.located hhere.succeeds,
    ?_, hadvances.wellFormed, fun hundrawn => ?_⟩
  · intro answer hanswer
    rcases List.mem_append.mp hanswer with h | h
    · exact hunfailed answer h
    · rw [List.mem_singleton.mp h]
      exact hnofault
  · obtain ⟨hbefore, hdrawn⟩ := hadvances.undrawn hundrawn
    rw [hdrawn]
    exact hleft hbefore

/-- All calls that return an identity return the same one, whatever the interleaving and wherever
processes are killed. A marker that is there has a complete identity and is never written again.
A call that meets no fault succeeds, and a process that does nothing else can always come to the
end of one, with the identity that was published or with one that it publishes. -/
theorem resolveRepositoryIdentity_agrees (gitCommonDir : String) {fs : FileSystem}
    (hfs : WellFormed (markerPathOf gitCommonDir) fs)
    {es : List (Event (IdentityCall gitCommonDir) FsCall
      (fun op => Except ErrnoException op.Val) IdentityResult)}
    {k : Config FileSystem (IdentityCall gitCommonDir) FsCall
      (fun op => Except ErrnoException op.Val) IdentityResult}
    (hrun : Run (@resolveRepositoryIdentity gitCommonDir) fsSemantics (Config.idle fs) es k) :
    (∀ p call identity p' call' identity', .response p call (.ok (.ok identity)) ∈ es →
      .response p' call' (.ok (.ok identity')) ∈ es →
      identity.instanceId = identity'.instanceId ∧
        Holds (markerPathOf gitCommonDir) k.shared identity.instanceId) ∧
    (∀ file, k.shared.entries (markerPathOf gitCommonDir) = some file →
      (∃ id, isInstanceId id = true ∧ k.shared.contents file = markerText id) ∧
      ∀ es' k', Run (@resolveRepositoryIdentity gitCommonDir) fsSemantics k es' k' →
        k'.shared.entries (markerPathOf gitCommonDir) = some file ∧
          k'.shared.contents file = k.shared.contents file) ∧
    (∀ before p call a after paths, es = before ++ .response p call a :: after →
      call.pathsResult = .ok paths → ∃ earlier since, before = earlier ++ .invoke p call :: since ∧
        Uninterrupted p call since ∧
          (Unfailed (answers p since) → ∃ identity, a = .ok (.ok identity))) ∧
    (∀ p call paths, k.threads p = none → call.pathsResult = .ok paths →
      (∃ suffix, IsSuffix suffix ∧ suffix ∉ k.shared.drawn) →
      ∃ es' identity k', Run (@resolveRepositoryIdentity gitCommonDir) fsSemantics k
          (.invoke p call :: es' ++ [.response p call (.ok (.ok identity))]) k' ∧
        Uninterrupted p call es' ∧ (∀ e ∈ es', e.process = p) ∧ Unfailed (answers p es') ∧
        Holds (markerPathOf gitCommonDir) k'.shared identity.instanceId ∧
        ∀ id, Holds (markerPathOf gitCommonDir) k.shared id → identity.instanceId = id) := by
  have hholds : ∀ p call identity, .response p call (.ok (.ok identity)) ∈ es →
      Holds (markerPathOf gitCommonDir) k.shared identity.instanceId := by
    intro p call identity hmem
    obtain ⟨before, after, rfl⟩ := List.append_of_mem hmem
    exact response_holds hfs hrun
  obtain ⟨parts, hfollows⟩ := hrun.follows (O := identityOutline gitCommonDir) hfs
  have hwell : WellFormed (markerPathOf gitCommonDir) k.shared := hfollows.inv
  refine ⟨?_, ?_, ?_, ?_⟩
  · intro p call identity p' call' identity' hmem hmem'
    have hown := hholds p call identity hmem
    exact ⟨hown.unique (hholds p' call' identity' hmem'), hown⟩
  · intro file hfile
    refine ⟨hwell.marker file hfile, fun es' k' hrun' => ?_⟩
    exact hrun.outline_moves (identityOutline gitCommonDir) hfs hrun' file hfile
  · rintro before p call a after paths rfl hpaths
    obtain ⟨earlier, since, hbefore, honly, hresult⟩ := response_identity hfs hrun hpaths
    refine ⟨earlier, since, hbefore, honly, fun hunfailed => ?_⟩
    rcases hresult with ⟨id, ha, -⟩ | ⟨-, hfailed⟩
    · exact ⟨_, ha⟩
    · exact absurd hunfailed hfailed
  · intro p call paths hidle hpaths hunused
    have hinvoke : Step (@resolveRepositoryIdentity gitCommonDir) fsSemantics k (.invoke p call)
        (k.setThread p (some (call, resolveRepositoryIdentity call))) := .invoke call hidle
    obtain ⟨es', a, k₁, hown, hthread, honly, hone, hunfailed⟩ :=
      Located.completes (k := k.setThread p (some (call, resolveRepositoryIdentity call)))
        ⟨resolveRepositoryIdentity_program, trivial, fun _ => trivial⟩ (l := [])
        (fun _ h => by cases h) hwell (fun _ => hunused) (Config.setThread_same _ _ _)
    have hrun' := (((Run.single hinvoke).append hown).append
      (Run.single (.response hthread)))
    have hall := hrun.append hrun'
    have hsplit : es ++ ([.invoke p call] ++ es' ++ [.response p call a]) =
        (es ++ .invoke p call :: es') ++ .response p call a :: [] := by simp
    rw [hsplit] at hall
    obtain ⟨earlier, since, hbefore, honly', hresult⟩ := response_identity hfs hall hpaths
    have hsame : since = es' := honly'.unique honly hbefore.symm
    rcases hresult with ⟨id, rfl, hid⟩ | ⟨-, hfailed⟩
    · refine ⟨es', _, _, by simpa using hrun', honly, hone, hunfailed, hid, fun id' hid' => ?_⟩
      exact hid.unique (hid'.permanent (hrun.outline_moves (identityOutline gitCommonDir) hfs hrun'))
    · rw [hsame] at hfailed
      exact absurd hunfailed hfailed

/-- In a directory without a marker a process comes to publish one. -/
theorem resolveRepositoryIdentity_publishes :
    let paths : RepositoryIdentityPaths := ⟨"", "/repository/.git", "/repository", "/repository"⟩
    let call := IdentityCall.resolved 7 paths
    ∃ es identity k, Run (@resolveRepositoryIdentity "/repository/.git") fsSemantics
        (Config.idle ⟨fun _ => none, fun _ => [], 0, []⟩)
        (.invoke 0 call :: es ++ [.response 0 call (.ok (.ok identity))]) k ∧
      Holds (markerPathOf "/repository/.git") k.shared identity.instanceId := by
  intro paths call
  have hempty : WellFormed (markerPathOf "/repository/.git")
      ⟨fun _ => none, fun _ => [], 0, []⟩ := by
    refine ⟨fun _ _ h => ?_, fun _ _ _ h => absurd rfl h, fun _ h => ?_⟩
    · cases h
    · cases h
  obtain ⟨-, -, -, hcompletes⟩ :=
    resolveRepositoryIdentity_agrees "/repository/.git" hempty (.refl _)
  obtain ⟨es, identity, k, hrun, -, -, -, hholds, -⟩ :=
    hcompletes 0 call paths rfl rfl ⟨"0123456789abcdef", ⟨by decide, by decide⟩, by simp⟩
  exact ⟨es, identity, k, hrun, hholds⟩

end Runs

end Mottainai.InstanceIdentity

import Mottainai.JavaScriptValues
import Mottainai.InterleavingContract

/-!
# The semantic source store

The commit of a semantic mutation: the files of a write set are staged, a journal of what is to be
done with them is published by one rename, and then every entry of the journal is carried out.
`recoverPendingCommit` carries out a journal that it finds on disk. Making a file durable and
flushing directories are one step with the rename or the write. It does not matter how often and in
which order the operations of a journal are carried out: `replayed` is the tree that results.
-/

namespace Mottainai.SemanticSource

open Interleaving JavaScriptValues

/-- A path relative to the root directory. -/
abbrev Path : Type := String

/-- The files under the source root with their contents. -/
abbrev Tree : Type := Path → Option String

/-- `SEMANTIC_SOURCE_ROOT`. -/
def semanticSourceRoot : String := ".mottainai/semantics"

/-- `SEMANTIC_REPOSITORY_FILE`. -/
def semanticRepositoryFile : String := semanticSourceRoot ++ "/repository.json"

/-- `SEMANTIC_TRANSACTION_SOURCE_ROOT`. -/
def semanticTransactionSourceRoot : String := semanticSourceRoot ++ "/transactions"

inductive WriteOperation where
  | write
  | delete
  deriving DecidableEq, Repr

structure SemanticSourceWrite where
  path : Path
  operation : WriteOperation
  content : Option String
  deriving DecidableEq, Repr

/-- A staged file: the random name of its directory, and its place in it. -/
structure StagingPath where
  directory : ℕ
  suffix : List Char
  deriving DecidableEq, Repr

inductive JournalOperation where
  | write (targetPath : Path) (stagingPath : StagingPath)
  | delete (targetPath : Path)
  deriving DecidableEq, Repr

def JournalOperation.targetPath : JournalOperation → Path
  | .write targetPath _ => targetPath
  | .delete targetPath => targetPath

/-- `SemanticCommitJournal`. `generation` is the random name of the staging directory of the
commit, by which two journals are told apart. -/
structure SemanticCommitJournal where
  generation : ℕ
  operations : List JournalOperation
  deriving DecidableEq, Repr

/-- The part of the file system that the store works on. -/
structure Disk where
  source : Tree
  staging : StagingPath → Option String
  journal : Option SemanticCommitJournal

/-- Why a step of the store failed: the file was not there, the file system failed in
another way, or the store itself refused. -/
inductive StoreError where
  | enoent
  | io
  | refused (message : String)
  deriving DecidableEq, Repr

inductive FileStep where
  | readJournal
  | readSource
  | writeStaging (path : StagingPath) (content : String)
  | publishJournal (journal : SemanticCommitJournal)
  | renameStaged (generation : ℕ) (stagingPath : StagingPath) (targetPath : Path)
  | unlinkSource (generation : ℕ) (targetPath : Path)
  | unlinkJournal (generation : ℕ)
  | removeStaging (directory : ℕ)
  deriving DecidableEq

abbrev FileStep.Value : FileStep → Type
  | .readJournal => SemanticCommitJournal
  | .readSource => Tree
  | _ => Unit

def FileStep.replays : FileStep → Option ℕ
  | .renameStaged generation _ _ => some generation
  | .unlinkSource generation _ => some generation
  | .unlinkJournal generation => some generation
  | _ => none

namespace Disk

/-- `rename` of a staged file to its target. -/
def renameStaged (d : Disk) (stagingPath : StagingPath) (targetPath : Path) : Disk :=
  match d.staging stagingPath with
  | some content =>
    { d with
      source := Function.update d.source targetPath (some content)
      staging := Function.update d.staging stagingPath none }
  | none => d

/-- `unlink` of a source file. -/
def unlinkSource (d : Disk) (targetPath : Path) : Disk :=
  { d with source := Function.update d.source targetPath none }

def writeStaging (d : Disk) (path : StagingPath) (content : String) : Disk :=
  { d with staging := Function.update d.staging path (some content) }

/-- `rm` of a staging directory. -/
def removeStaging (d : Disk) (directory : ℕ) : Disk :=
  { d with staging := fun path => if path.directory = directory then none else d.staging path }

def exec : (step : FileStep) → Disk → Except StoreError step.Value × Disk
  | .readJournal, d => (d.journal.elim (.error .enoent) .ok, d)
  | .readSource, d => (.ok d.source, d)
  | .writeStaging path content, d => (.ok (), d.writeStaging path content)
  | .publishJournal journal, d => (.ok (), { d with journal := some journal })
  | .renameStaged _ stagingPath targetPath, d =>
    ((d.staging stagingPath).elim (.error .enoent) (fun _ => .ok ()),
      d.renameStaged stagingPath targetPath)
  | .unlinkSource _ targetPath, d =>
    ((d.source targetPath).elim (.error .enoent) (fun _ => .ok ()), d.unlinkSource targetPath)
  | .unlinkJournal _, d =>
    (d.journal.elim (.error .enoent) (fun _ => .ok ()), { d with journal := none })
  | .removeStaging directory, d => (.ok (), d.removeStaging directory)

end Disk

abbrev Storing (α : Type) : Type := Throwing FileStep FileStep.Value StoreError α

/-- A step after which it does not matter whether the file was there. -/
def ignoreEnoent (step : Storing Unit) : Storing Unit :=
  tryCatch step fun error => if error = .enoent then pure () else throw error

/-- `applyJournalOperation`. -/
def applyJournalOperation (generation : ℕ) : JournalOperation → Storing Unit
  | .delete targetPath => ignoreEnoent (request (FileStep.unlinkSource generation targetPath))
  | .write targetPath stagingPath =>
    ignoreEnoent (request (FileStep.renameStaged generation stagingPath targetPath))

def applyJournalOperations (generation : ℕ) : List JournalOperation → Storing Unit
  | [] => pure ()
  | operation :: operations => do
    applyJournalOperation generation operation
    applyJournalOperations generation operations

/-- `readFile` of the journal, with a missing file told apart. -/
def readPendingJournal : Storing (Option SemanticCommitJournal) :=
  tryCatch (do
    let journal ← (request FileStep.readJournal : Storing SemanticCommitJournal)
    pure (some journal)) fun error => if error = .enoent then pure none else throw error

/-- `recoverPendingCommit`. A journal is published whole, so that what is read of it parses. -/
def recoverPendingCommit : Storing Unit := do
  let pending ← readPendingJournal
  match pending with
  | none => pure ()
  | some journal => do
    applyJournalOperations journal.generation journal.operations
    ignoreEnoent (request (FileStep.unlinkJournal journal.generation))

/-- `loadSemanticSource` up to the reading of the files. -/
def loadSemanticSource : Storing Tree := do
  recoverPendingCommit
  request FileStep.readSource

section Persist

def startsWith (text start : String) : Bool := start.toList.isPrefixOf text.toList

/-- No segment of the path is empty, `.` or `..`, and it has no backslash: what `resolve`
and `relative` give back is the path. -/
def isCanonicalPath (path : Path) : Bool :=
  (path.toList.splitOn '/').all (fun segment => segment ∉ [[], ['.'], ['.', '.']]) &&
    !path.toList.contains '\\'

/-- `mutationPrefixes`. -/
def mutationPrefixes : List String :=
  [semanticSourceRoot ++ "/declarations/", semanticSourceRoot ++ "/relations/",
    semanticTransactionSourceRoot ++ "/"]

/-- What `persistSemanticMutation` is given: the write set of the mutation, the files of its
snapshot and its transaction by their paths, and the fingerprint of the source that the
mutation was made from. -/
structure SemanticMutation where
  writes : List SemanticSourceWrite
  canonicalWrites : Tree
  expectedBaseFingerprint : Option String

def checkWrite (canonicalWrites : Tree) (write : SemanticSourceWrite) : Except StoreError Unit := do
  require (startsWith write.path (semanticSourceRoot ++ "/"))
    (.refused s!"semantic source write must stay under {semanticSourceRoot}: {write.path}")
  require (write.path ≠ semanticRepositoryFile ∧
      mutationPrefixes.any (fun start => startsWith write.path start))
    (.refused s!"semantic mutation write is outside the declared mutation boundary: {write.path}")
  match write.operation with
  | .write =>
    require (canonicalWrites write.path ≠ none ∧ canonicalWrites write.path = write.content)
      (.refused s!"semantic mutation write is not canonical: {write.path}")
  | .delete =>
    require (canonicalWrites write.path = none)
      (.refused s!"semantic mutation delete would remove canonical state: {write.path}")
  require (isCanonicalPath write.path)
    (.refused s!"semantic source path is not canonical: {write.path}")

def checkWrites (canonicalWrites : Tree) : List SemanticSourceWrite → Except StoreError Unit
  | [] => pure ()
  | write :: writes => do
    checkWrite canonicalWrites write
    checkWrites canonicalWrites writes

def stagingPath (directory : ℕ) (write : SemanticSourceWrite) : StagingPath :=
  ⟨directory, write.path.toList.drop (semanticSourceRoot.length + 1)⟩

def journalOperation (directory : ℕ) (write : SemanticSourceWrite) : JournalOperation :=
  match write.operation with
  | .delete => .delete write.path
  | .write => .write write.path (stagingPath directory write)

def journalOf (directory : ℕ) (writes : List SemanticSourceWrite) : SemanticCommitJournal :=
  ⟨directory, writes.map (journalOperation directory)⟩

def stageWrites (directory : ℕ) : List SemanticSourceWrite → Storing Unit
  | [] => pure ()
  | write :: writes => do
    match write.operation with
    | .delete => pure ()
    | .write => request (FileStep.writeStaging (stagingPath directory write) (write.content.getD ""))
    stageWrites directory writes

/-- The body of the `try` whose `finally` removes the staging directory. -/
def commitWrites (directory : ℕ) (writes : List SemanticSourceWrite) : Storing Unit := do
  stageWrites directory writes
  request (FileStep.publishJournal (journalOf directory writes))
  applyJournalOperations directory (writes.map (journalOperation directory))
  ignoreEnoent (request (FileStep.unlinkJournal directory))

/-- `rm` of the staging directory in the `finally`, whose own failure is dropped. -/
def removeStagingQuietly (directory : ℕ) : Storing Unit :=
  tryCatch (request (FileStep.removeStaging directory)) fun _ => pure ()

/-- `CONFLICT_DIAGNOSTIC` and the successful outcome. -/
inductive SemanticPersistOutcome where
  | ok
  | semanticPersistConflict
  deriving DecidableEq, Repr

variable (fingerprintOf : Tree → String)

/-- `computeSemanticSourceFingerprint` against what the mutation was made from. -/
def baseChanged (expected : Option String) : Storing Bool :=
  match expected with
  | none => pure false
  | some expected => do
    let tree ← request FileStep.readSource
    pure (fingerprintOf tree ≠ expected)

/-- What `persistSemanticMutation` does while it holds the lock. -/
def persistLocked (directory : ℕ) (mutation : SemanticMutation) :
    Storing SemanticPersistOutcome := do
  recoverPendingCommit
  let changed ← baseChanged fingerprintOf mutation.expectedBaseFingerprint
  if changed then pure .semanticPersistConflict
  else do
    tryCatch (commitWrites directory mutation.writes) fun error => do
      removeStagingQuietly directory
      throw error
    removeStagingQuietly directory
    pure .ok

/-- `persistSemanticMutation` with the lock held; `directory` is the random name that the
call draws for its staging directory. -/
def persistSemanticMutation (directory : ℕ) (mutation : SemanticMutation) :
    Storing SemanticPersistOutcome := do
  checkWrites mutation.canonicalWrites mutation.writes
  if mutation.writes = [] then pure .ok
  else persistLocked fingerprintOf directory mutation

end Persist

def JournalOperation.step (generation : ℕ) : JournalOperation → FileStep
  | .delete targetPath => .unlinkSource generation targetPath
  | .write targetPath stagingPath => .renameStaged generation stagingPath targetPath

def JournalOperation.carryOut : JournalOperation → Disk → Disk
  | .delete targetPath, d => d.unlinkSource targetPath
  | .write targetPath stagingPath, d => d.renameStaged stagingPath targetPath

def JournalOperation.Done : JournalOperation → Disk → Prop
  | .delete targetPath, d => d.source targetPath = none
  | .write _ stagingPath, d => d.staging stagingPath = none

structure Coherent (operations : List JournalOperation) : Prop where
  target : ∀ a ∈ operations, ∀ b ∈ operations, a.targetPath = b.targetPath → a = b
  staged : ∀ p p' s, JournalOperation.write p s ∈ operations →
    JournalOperation.write p' s ∈ operations → p = p'

/-- The content that the operation puts at its target, when it is carried out now or has
been before. -/
def JournalOperation.content (d : Disk) : JournalOperation → Option String
  | .delete _ => none
  | .write targetPath stagingPath => (d.staging stagingPath).or (d.source targetPath)

/-- The source tree once all the operations have been carried out. -/
def replayed (operations : List JournalOperation) (d : Disk) : Tree := fun path =>
  ((operations.find? (fun operation => operation.targetPath = path)).map
    (fun operation => operation.content d)).getD (d.source path)

def carryOutAll (operations : List JournalOperation) (d : Disk) : Disk :=
  operations.foldl (fun d operation => operation.carryOut d) d

/-- The source tree that a recovery leads to. -/
def Disk.settledSource (d : Disk) : Tree :=
  d.journal.elim d.source fun journal => replayed journal.operations d

section CarryOut

variable {d : Disk} {a b : JournalOperation} {operations : List JournalOperation} {path : Path}

@[simp] theorem journal_carryOut (a : JournalOperation) (d : Disk) :
    (a.carryOut d).journal = d.journal := by
  cases a with
  | delete p => rfl
  | write p s =>
    simp only [JournalOperation.carryOut, Disk.renameStaged]
    cases d.staging s <;> rfl

variable (p : Path)

theorem staging_carryOut_delete (d : Disk) :
    (JournalOperation.carryOut (.delete p) d).staging = d.staging := rfl

theorem staging_carryOut_write (s : StagingPath) (d : Disk) :
    (JournalOperation.carryOut (.write p s) d).staging = Function.update d.staging s none := by
  simp only [JournalOperation.carryOut, Disk.renameStaged]
  cases hs : d.staging s with
  | none => exact (Function.update_eq_self_iff.2 hs.symm).symm
  | some content => rfl

theorem source_carryOut_write (s : StagingPath) (d : Disk) :
    (JournalOperation.carryOut (.write p s) d).source p = (d.staging s).or (d.source p) := by
  simp only [JournalOperation.carryOut, Disk.renameStaged]
  cases hs : d.staging s with
  | none => rfl
  | some content => simp

theorem source_carryOut_of_ne (h : a.targetPath ≠ path) :
    (a.carryOut d).source path = d.source path := by
  cases a with
  | delete p => exact Function.update_of_ne (Ne.symm h) _ _
  | write p s =>
    simp only [JournalOperation.carryOut, Disk.renameStaged]
    cases d.staging s with
    | none => rfl
    | some content => exact Function.update_of_ne (Ne.symm h) _ _

theorem done_carryOut (a : JournalOperation) (d : Disk) : a.Done (a.carryOut d) := by
  cases a with
  | delete p => exact Function.update_self _ _ _
  | write p s =>
    simp only [JournalOperation.Done, staging_carryOut_write, Function.update_self]

theorem carryOut_of_done (h : a.Done d) : a.carryOut d = d := by
  cases a with
  | delete p =>
    change { d with source := Function.update d.source p none } = d
    rw [Function.update_eq_self_iff.2 (Eq.symm h)]
  | write p s =>
    simp only [JournalOperation.Done] at h
    simp only [JournalOperation.carryOut, Disk.renameStaged, h]

theorem content_of_done (h : a.Done d) : a.content d = d.source a.targetPath := by
  cases a with
  | delete p => exact Eq.symm h
  | write p s =>
    simp only [JournalOperation.Done] at h
    simp only [JournalOperation.content, h, Option.none_or, JournalOperation.targetPath]

end CarryOut

section Replay

variable {d : Disk} {a b : JournalOperation} {operations : List JournalOperation} {path : Path}

theorem replayed_of_ne (hpath : ∀ a ∈ operations, a.targetPath ≠ path) :
    replayed operations d path = d.source path := by
  have hfind : operations.find? (fun operation => operation.targetPath = path) = none := by
    simpa [List.find?_eq_none] using hpath
  simp [replayed, hfind]

theorem replayed_of_done (hdone : ∀ a ∈ operations, a.Done d) :
    replayed operations d = d.source := by
  funext path
  cases hfind : operations.find? (fun operation => operation.targetPath = path) with
  | none => simp [replayed, hfind]
  | some a =>
    have htarget : a.targetPath = path := by simpa using List.find?_some hfind
    have hcontent := content_of_done (hdone a (List.mem_of_find?_eq_some hfind))
    simp [replayed, hfind, hcontent, htarget]

namespace Coherent

theorem find (h : Coherent operations) (ha : a ∈ operations) :
    operations.find? (fun operation => operation.targetPath = a.targetPath) = some a := by
  cases hfind : operations.find? (fun operation => operation.targetPath = a.targetPath) with
  | none => simpa using List.find?_eq_none.1 hfind a ha
  | some b =>
    have hb : b.targetPath = a.targetPath := by simpa using List.find?_some hfind
    rw [h.target b (List.mem_of_find?_eq_some hfind) a ha hb]

variable (h : Coherent operations)
include h

theorem replayed_target (ha : a ∈ operations) :
    replayed operations d a.targetPath = a.content d := by
  simp [replayed, h.find ha]

theorem content_carryOut (ha : a ∈ operations) (hb : b ∈ operations) :
    b.content (a.carryOut d) = b.content d := by
  cases b with
  | delete p => rfl
  | write p s =>
    cases a with
    | delete q =>
      have hne : q ≠ p := by
        rintro rfl
        cases h.target _ ha _ hb rfl
      simp only [JournalOperation.content, staging_carryOut_delete]
      rw [source_carryOut_of_ne (a := .delete q) hne]
    | write q t =>
      by_cases hqp : q = p
      · subst hqp
        cases h.target _ ha _ hb rfl
        simp only [JournalOperation.content, source_carryOut_write, staging_carryOut_write,
          Function.update_self, Option.none_or]
      · have hst : s ≠ t := by
          rintro rfl
          exact hqp (h.staged _ _ _ ha hb)
        simp only [JournalOperation.content, staging_carryOut_write, Function.update_of_ne hst]
        rw [source_carryOut_of_ne (a := .write q t) hqp]

theorem replayed_carryOut (ha : a ∈ operations) :
    replayed operations (a.carryOut d) = replayed operations d := by
  funext path
  by_cases hpath : ∃ b ∈ operations, b.targetPath = path
  · obtain ⟨b, hb, rfl⟩ := hpath
    rw [h.replayed_target hb, h.replayed_target hb, h.content_carryOut ha hb]
  · have hne : ∀ b ∈ operations, b.targetPath ≠ path := by simpa using hpath
    rw [replayed_of_ne hne, replayed_of_ne hne, source_carryOut_of_ne (hne a ha)]

theorem done_carryOut_other (ha : a ∈ operations) (hb : b ∈ operations) (hdone : b.Done d) :
    b.Done (a.carryOut d) := by
  cases b with
  | delete p =>
    by_cases htarget : a.targetPath = p
    · rw [h.target a ha _ hb htarget]
      exact done_carryOut _ d
    · exact (source_carryOut_of_ne htarget).trans hdone
  | write p s =>
    cases a with
    | delete q => exact hdone
    | write q t =>
      simp only [JournalOperation.Done, staging_carryOut_write, Function.update_apply]
      split_ifs with hst
      · rfl
      · exact hdone

theorem replayed_carryOutAll {some : List JournalOperation} (hsome : some ⊆ operations) (d : Disk) :
    replayed operations (carryOutAll some d) = replayed operations d := by
  induction some generalizing d with
  | nil => rfl
  | cons a rest ih =>
    rw [List.cons_subset] at hsome
    exact (ih hsome.2 (a.carryOut d)).trans (h.replayed_carryOut hsome.1)

theorem done_carryOutAll_other {some : List JournalOperation} (hsome : some ⊆ operations)
    (hb : b ∈ operations) (hdone : b.Done d) : b.Done (carryOutAll some d) := by
  induction some generalizing d with
  | nil => exact hdone
  | cons a rest ih =>
    rw [List.cons_subset] at hsome
    exact ih hsome.2 (h.done_carryOut_other hsome.1 hb hdone)

theorem done_carryOutAll {some : List JournalOperation} (hsome : some ⊆ operations)
    (ha : a ∈ some) (d : Disk) : a.Done (carryOutAll some d) := by
  induction some generalizing d with
  | nil => cases ha
  | cons b rest ih =>
    rw [List.cons_subset] at hsome
    rcases List.mem_cons.1 ha with rfl | ha
    · change a.Done (carryOutAll rest (a.carryOut d))
      exact h.done_carryOutAll_other hsome.2 hsome.1 (done_carryOut a d)
    · exact ih hsome.2 ha (b.carryOut d)

end Coherent

@[simp] theorem journal_carryOutAll (some : List JournalOperation) (d : Disk) :
    (carryOutAll some d).journal = d.journal := by
  induction some generalizing d with
  | nil => rfl
  | cons a rest ih => exact (ih (a.carryOut d)).trans (journal_carryOut a d)

theorem source_carryOutAll_of_ne {some : List JournalOperation}
    (hpath : ∀ a ∈ some, a.targetPath ≠ path) :
    (carryOutAll some d).source path = d.source path := by
  induction some generalizing d with
  | nil => rfl
  | cons a rest ih =>
    rw [List.forall_mem_cons] at hpath
    exact (ih hpath.2).trans (source_carryOut_of_ne hpath.1)

end Replay

section Writes

def SemanticSourceWrite.effect (write : SemanticSourceWrite) : Option String :=
  match write.operation with
  | .write => write.content
  | .delete => none

def applyWrites (writes : List SemanticSourceWrite) (tree : Tree) : Tree :=
  writes.foldl (fun tree write => Function.update tree write.path write.effect) tree

def Agree (writes : List SemanticSourceWrite) : Prop :=
  ∀ w ∈ writes, ∀ w' ∈ writes, w.path = w'.path →
    w.operation = w'.operation ∧ w.effect = w'.effect

variable {writes some : List SemanticSourceWrite} {w : SemanticSourceWrite} {tree : Tree}
variable {path : Path}

theorem Agree.subset (h : Agree writes) (hsome : some ⊆ writes) : Agree some :=
  fun w hw w' hw' hpath => h w (hsome hw) w' (hsome hw') hpath

theorem applyWrites_of_ne (hpath : ∀ w ∈ writes, w.path ≠ path) :
    applyWrites writes tree path = tree path := by
  induction writes generalizing tree with
  | nil => rfl
  | cons w rest ih =>
    rw [List.forall_mem_cons] at hpath
    exact (ih hpath.2).trans (Function.update_of_ne hpath.1.symm _ _)

theorem Agree.applyWrites_path (h : Agree writes) (hw : w ∈ writes) :
    applyWrites writes tree w.path = w.effect := by
  induction writes generalizing tree w with
  | nil => cases hw
  | cons v rest ih =>
    have hrest : Agree rest := h.subset (List.subset_cons_self v rest)
    by_cases hlater : ∃ w' ∈ rest, w'.path = w.path
    · obtain ⟨w', hw', hpath⟩ := hlater
      have heffect := (h w hw w' (List.mem_cons_of_mem v hw') hpath.symm).2
      rw [heffect, ← hpath]
      exact ih hrest hw'
    · have hne : ∀ w' ∈ rest, w'.path ≠ w.path := by simpa using hlater
      have hwv : w = v := by
        rcases List.mem_cons.1 hw with heq | hmem
        · exact heq
        · exact absurd rfl (hne w hmem)
      subst hwv
      exact (applyWrites_of_ne hne).trans (Function.update_self _ _ _)

def SemanticSourceWrite.Changes (write : SemanticSourceWrite) (tree : Tree) : Prop :=
  tree write.path ≠ write.effect

theorem Agree.applyWrites_eq_self (h : Agree writes) :
    applyWrites writes tree = tree ↔ ∀ w ∈ writes, ¬ w.Changes tree := by
  constructor
  · intro heq w hw
    have happly : applyWrites writes tree w.path = w.effect := h.applyWrites_path hw
    rw [SemanticSourceWrite.Changes, not_not, ← happly, heq]
  · intro hsame
    funext path
    by_cases hpath : ∃ w ∈ writes, w.path = path
    · obtain ⟨w, hw, rfl⟩ := hpath
      rw [h.applyWrites_path hw]
      exact (not_not.1 (hsame w hw)).symm
    · exact applyWrites_of_ne (by simpa using hpath)

end Writes

section Checked

variable {canonicalWrites : Tree} {write w : SemanticSourceWrite}
variable {writes : List SemanticSourceWrite} {directory : ℕ}

/-- What a write has passed. -/
structure Checked (canonicalWrites : Tree) (write : SemanticSourceWrite) : Prop where
  rooted : startsWith write.path (semanticSourceRoot ++ "/")
  written : write.operation = .write → canonicalWrites write.path = write.content ∧
    write.content ≠ none
  deleted : write.operation = .delete → canonicalWrites write.path = none

theorem checkWrite_eq_ok (h : checkWrite canonicalWrites write = .ok ()) :
    Checked canonicalWrites write := by
  obtain ⟨path, operation, content⟩ := write
  cases operation with
  | write =>
    simp only [checkWrite, bind_eq_ok, require_eq_ok] at h
    obtain ⟨_, hrooted, _, _, _, ⟨hsome, hcanonical⟩, _⟩ := h
    refine ⟨hrooted, fun _ => ⟨hcanonical, hcanonical ▸ hsome⟩, fun hdelete => ?_⟩
    cases hdelete
  | delete =>
    simp only [checkWrite, bind_eq_ok, require_eq_ok] at h
    obtain ⟨_, hrooted, _, _, _, hnone, _⟩ := h
    refine ⟨hrooted, fun hwrite => ?_, fun _ => hnone⟩
    cases hwrite

theorem checkWrites_eq_ok (h : checkWrites canonicalWrites writes = .ok ()) :
    ∀ w ∈ writes, Checked canonicalWrites w := by
  induction writes with
  | nil => exact nofun
  | cons v rest ih =>
    obtain ⟨_, hv, hrest⟩ := bind_eq_ok.1 h
    exact List.forall_mem_cons.2 ⟨checkWrite_eq_ok hv, ih hrest⟩

theorem agree_of_checked (h : ∀ w ∈ writes, Checked canonicalWrites w) : Agree writes := by
  intro w hw w' hw' hpath
  have hc := h w hw
  have hc' := h w' hw'
  cases hop : w.operation with
  | write =>
    obtain ⟨hcontent, hsome⟩ := hc.written hop
    cases hop' : w'.operation with
    | write =>
      obtain ⟨hcontent', -⟩ := hc'.written hop'
      refine ⟨rfl, ?_⟩
      simp only [SemanticSourceWrite.effect, hop, hop']
      rw [← hcontent, ← hcontent', hpath]
    | delete =>
      have hnone := hc'.deleted hop'
      rw [← hpath, hcontent] at hnone
      exact absurd hnone hsome
  | delete =>
    have hnone := hc.deleted hop
    cases hop' : w'.operation with
    | write =>
      obtain ⟨hcontent', hsome'⟩ := hc'.written hop'
      rw [hpath, hcontent'] at hnone
      exact absurd hnone hsome'
    | delete =>
      simp only [SemanticSourceWrite.effect, hop, hop', and_self]

theorem Checked.path_injective (h : Checked canonicalWrites write) (h' : Checked canonicalWrites w)
    (hsuffix : stagingPath directory write = stagingPath directory w) : write.path = w.path := by
  have split : ∀ {v : SemanticSourceWrite}, Checked canonicalWrites v →
      v.path.toList = (semanticSourceRoot ++ "/").toList ++ (stagingPath directory v).suffix := by
    intro v hv
    obtain ⟨rest, hrest⟩ := List.isPrefixOf_iff_prefix.1 hv.rooted
    have hlength : (semanticSourceRoot ++ "/").toList.length = semanticSourceRoot.length + 1 := by
      decide
    rw [← hrest, stagingPath, ← hrest, ← hlength, List.drop_left]
  exact String.toList_injective ((split h).trans (hsuffix ▸ (split h').symm))

theorem coherent_journalOf (h : ∀ w ∈ writes, Checked canonicalWrites w) (directory : ℕ) :
    Coherent (writes.map (journalOperation directory)) := by
  have hpath : ∀ w : SemanticSourceWrite, (journalOperation directory w).targetPath = w.path := by
    intro w
    unfold journalOperation
    cases w.operation <;> rfl
  constructor
  · intro a ha b hb htarget
    obtain ⟨w, hw, rfl⟩ := List.mem_map.1 ha
    obtain ⟨w', hw', rfl⟩ := List.mem_map.1 hb
    rw [hpath, hpath] at htarget
    have hoperation := (agree_of_checked h w hw w' hw' htarget).1
    simp only [journalOperation, stagingPath, hoperation, htarget]
  · intro p p' s hp hp'
    obtain ⟨w, hw, heq⟩ := List.mem_map.1 hp
    obtain ⟨w', hw', heq'⟩ := List.mem_map.1 hp'
    unfold journalOperation at heq heq'
    cases hop : w.operation with
    | delete => simp [hop] at heq
    | write =>
      cases hop' : w'.operation with
      | delete => simp [hop'] at heq'
      | write =>
        simp only [hop, hop', JournalOperation.write.injEq] at heq heq'
        rw [← heq.1, ← heq'.1]
        exact (h w hw).path_injective (h w' hw') (heq.2.trans heq'.2.symm)

end Checked

section Staged

variable {canonicalWrites : Tree} {writes rest : List SemanticSourceWrite} {directory : ℕ}
variable {w : SemanticSourceWrite} {d : Disk} {s : StagingPath}

theorem targetPath_journalOperation (directory : ℕ) (w : SemanticSourceWrite) :
    (journalOperation directory w).targetPath = w.path := by
  unfold journalOperation
  cases w.operation <;> rfl

def Disk.stage (directory : ℕ) (d : Disk) (write : SemanticSourceWrite) : Disk :=
  match write.operation with
  | .delete => d
  | .write => d.writeStaging (stagingPath directory write) (write.content.getD "")

def stageAll (directory : ℕ) (writes : List SemanticSourceWrite) (d : Disk) : Disk :=
  writes.foldl (Disk.stage directory) d

@[simp] theorem source_stage (directory : ℕ) (d : Disk) (w : SemanticSourceWrite) :
    (d.stage directory w).source = d.source := by
  unfold Disk.stage
  cases w.operation <;> rfl

@[simp] theorem source_stageAll (directory : ℕ) (writes : List SemanticSourceWrite) (d : Disk) :
    (stageAll directory writes d).source = d.source := by
  induction writes generalizing d with
  | nil => rfl
  | cons w rest ih => exact (ih (d.stage directory w)).trans (source_stage directory d w)

theorem staging_stageAll_of_ne
    (hs : ∀ w ∈ writes, w.operation = .write → stagingPath directory w ≠ s) :
    (stageAll directory writes d).staging s = d.staging s := by
  induction writes generalizing d with
  | nil => rfl
  | cons w rest ih =>
    rw [List.forall_mem_cons] at hs
    refine (ih (d := d.stage directory w) hs.2).trans ?_
    unfold Disk.stage
    cases hop : w.operation with
    | delete => rfl
    | write => exact Function.update_of_ne (hs.1 hop).symm _ _

theorem staging_stageAll (h : ∀ w ∈ writes, Checked canonicalWrites w) (hw : w ∈ writes)
    (hop : w.operation = .write) :
    (stageAll directory writes d).staging (stagingPath directory w) = w.content := by
  induction writes generalizing d w with
  | nil => cases hw
  | cons v rest ih =>
    have hrest : ∀ w ∈ rest, Checked canonicalWrites w := fun w hw =>
      h w (List.mem_cons_of_mem v hw)
    by_cases hlater : ∃ w' ∈ rest, w'.operation = .write ∧
        stagingPath directory w' = stagingPath directory w
    · obtain ⟨w', hw', hop', hs⟩ := hlater
      have hpath := (hrest w' hw').path_injective (h w hw) hs
      have heffect := (agree_of_checked h w' (List.mem_cons_of_mem v hw') w hw hpath).2
      simp only [SemanticSourceWrite.effect, hop, hop'] at heffect
      rw [← heffect, ← hs]
      exact ih hrest hw' hop'
    · have hne : ∀ w' ∈ rest, w'.operation = .write →
          stagingPath directory w' ≠ stagingPath directory w := by
        intro w' hw' hop' hs
        exact hlater ⟨w', hw', hop', hs⟩
      have hwv : w = v := by
        rcases List.mem_cons.1 hw with heq | hmem
        · exact heq
        · exact absurd rfl (hne w hmem hop)
      subst hwv
      refine (staging_stageAll_of_ne (d := d.stage directory w) hne).trans ?_
      obtain ⟨content, hcontent⟩ := Option.ne_none_iff_exists'.1 ((h w hw).written hop).2
      simp only [Disk.stage, hop, Disk.writeStaging, hcontent, Option.getD_some,
        Function.update_self]

/-- The staged files hold the contents of the write set. -/
def Staged (directory : ℕ) (writes : List SemanticSourceWrite) (d : Disk) : Prop :=
  ∀ w ∈ writes, w.operation = .write → d.staging (stagingPath directory w) = w.content

theorem replayed_of_staged (h : ∀ w ∈ writes, Checked canonicalWrites w)
    (hstaged : Staged directory writes d) :
    replayed (writes.map (journalOperation directory)) d = applyWrites writes d.source := by
  funext path
  by_cases hpath : ∃ w ∈ writes, w.path = path
  · obtain ⟨w, hw, rfl⟩ := hpath
    have hmem := List.mem_map_of_mem (f := journalOperation directory) hw
    have htarget := (coherent_journalOf h directory).replayed_target hmem (d := d)
    rw [targetPath_journalOperation] at htarget
    rw [htarget, (agree_of_checked h).applyWrites_path hw]
    cases hop : w.operation with
    | delete => simp only [journalOperation, SemanticSourceWrite.effect, hop,
        JournalOperation.content]
    | write =>
      obtain ⟨content, hcontent⟩ := Option.ne_none_iff_exists'.1 ((h w hw).written hop).2
      simp only [journalOperation, SemanticSourceWrite.effect, hop, JournalOperation.content,
        hstaged w hw hop, hcontent, Option.some_or]
  · have hne : ∀ w ∈ writes, w.path ≠ path := by simpa using hpath
    rw [applyWrites_of_ne hne, replayed_of_ne]
    intro a ha
    obtain ⟨w, hw, rfl⟩ := List.mem_map.1 ha
    rw [targetPath_journalOperation]
    exact hne w hw

end Staged

section Halting

abbrev StepAnswers : Type := Answers FileStep fun step => Except StoreError step.Value

abbrev unreliable : Interleaving.Semantics FileStep
    (fun step => Except StoreError step.Value) Disk := faulting Disk.exec .io

variable {d d' : Disk} {l : StepAnswers}
variable {e : Ending (Except StoreError Unit)} {directory generation : ℕ}
variable {operations : List JournalOperation}

/-- An answer after which it does not matter whether the file was there. -/
def ignored : Except StoreError Unit → Except StoreError Unit
  | .ok () => .ok ()
  | .error error => if error = .enoent then .ok () else .error error

theorem run_ignoreEnoent (step : Storing Unit) :
    (ignoreEnoent step).run = step.run.bind fun r => .pure (ignored r) := by
  change Program.bind _ _ = _
  congr 1
  funext r
  cases r with
  | ok v => rfl
  | error error =>
    change (if error = .enoent then (pure () : Storing Unit) else throw error).run =
      .pure (if error = .enoent then .ok () else .error error)
    split_ifs <;> rfl

variable {step : FileStep}

/-- How a single step ends: it was not reached, it failed, or it was carried out. -/
theorem halts_request {e : Ending (Except StoreError step.Value)}
    (h : Halts unreliable (request step : Storing step.Value).run d l e d') :
    (l = [] ∧ e = .killed ∧ d' = d) ∨
      (l = [⟨step, .error .io⟩] ∧ d' = d ∧ (e = .returned (.error .io) ∨ e = .killed)) ∨
      (l = [⟨step, (Disk.exec step d).1⟩] ∧ d' = (Disk.exec step d).2 ∧
        (e = .returned (Disk.exec step d).1 ∨ e = .killed)) := by
  rcases halts_call h with ⟨rfl, rfl, rfl⟩ | ⟨r, l', t, rfl, hstep, hrest⟩
  · exact Or.inl ⟨rfl, rfl, rfl⟩
  · obtain ⟨rfl, rfl, he⟩ := halts_pure hrest
    rcases hstep with heq | ⟨rfl, rfl⟩
    · obtain ⟨rfl, rfl⟩ := Prod.mk.inj heq
      exact Or.inr (Or.inr ⟨rfl, rfl, he⟩)
    · exact Or.inr (Or.inl ⟨rfl, rfl, he⟩)

/-- The same for a step after which it does not matter whether the file was there. -/
theorem halts_ignoreEnoent {step : Storing Unit}
    (h : Halts unreliable (ignoreEnoent step).run d l e d') :
    (e = .killed ∧ Halts unreliable step.run d l .killed d') ∨
      ∃ r, Halts unreliable step.run d l (.returned r) d' ∧
        (e = .returned (ignored r) ∨ e = .killed) := by
  rw [run_ignoreEnoent] at h
  rcases halts_bind h with hkilled | ⟨r, t, l₁, l₂, rfl, hfirst, hsecond⟩
  · exact Or.inl hkilled
  · obtain ⟨rfl, rfl, he⟩ := halts_pure hsecond
    rw [List.append_nil]
    exact Or.inr ⟨r, hfirst, he⟩

/-- A step that had no fault on the way: it was carried out, and missing files are let pass. -/
theorem ignored_exec_renameStaged (generation : ℕ) (s : StagingPath) (p : Path) (d : Disk) :
    ignored (Disk.exec (.renameStaged generation s p) d).1 = .ok () := by
  simp only [Disk.exec]
  cases d.staging s <;> rfl

theorem ignored_exec_unlinkSource (generation : ℕ) (p : Path) (d : Disk) :
    ignored (Disk.exec (.unlinkSource generation p) d).1 = .ok () := by
  simp only [Disk.exec]
  cases d.source p <;> rfl

theorem ignored_exec_unlinkJournal (generation : ℕ) (d : Disk) :
    ignored (Disk.exec (.unlinkJournal generation) d).1 = .ok () := by
  simp only [Disk.exec]
  cases d.journal <;> rfl

theorem exec_renameStaged_ne (generation : ℕ) (s : StagingPath) (p : Path) (d : Disk) :
    (Disk.exec (.renameStaged generation s p) d).1 ≠ .error .io := by
  simp only [Disk.exec]
  cases d.staging s <;> exact nofun

theorem exec_unlinkSource_ne (generation : ℕ) (p : Path) (d : Disk) :
    (Disk.exec (.unlinkSource generation p) d).1 ≠ .error .io := by
  simp only [Disk.exec]
  cases d.source p <;> exact nofun

theorem exec_unlinkJournal_ne (generation : ℕ) (d : Disk) :
    (Disk.exec (.unlinkJournal generation) d).1 ≠ .error .io := by
  simp only [Disk.exec]
  cases d.journal <;> exact nofun

/-- How a call ends that carries out one step and lets a missing file pass: it was killed
before, the step failed, or the state is `after`. -/
def StepEnds (step : FileStep) (d after : Disk)
    (l : StepAnswers)
    (e : Ending (Except StoreError Unit)) (d' : Disk) : Prop :=
  (l = [] ∧ e = .killed ∧ d' = d) ∨
    (l = [⟨step, .error .io⟩] ∧ d' = d ∧ (e = .returned (.error .io) ∨ e = .killed)) ∨
    ∃ r, l = [⟨step, r⟩] ∧ r ≠ .error .io ∧ d' = after ∧ (e = .returned (.ok ()) ∨ e = .killed)

theorem stepEnds_ignoreEnoent {x : Storing Unit} {after : Disk} {r : Except StoreError step.Value}
    {answer : Except StoreError Unit}
    (hx : ∀ {l e d'}, Halts unreliable x.run d l e d' → (l = [] ∧ e = .killed ∧ d' = d) ∨
      (l = [⟨step, .error .io⟩] ∧ d' = d ∧ (e = .returned (.error .io) ∨ e = .killed)) ∨
      (l = [⟨step, r⟩] ∧ d' = after ∧ (e = .returned answer ∨ e = .killed)))
    (hanswer : ignored answer = .ok ()) (hr : r ≠ .error .io)
    (h : Halts unreliable (ignoreEnoent x).run d l e d') : StepEnds step d after l e d' := by
  rcases halts_ignoreEnoent h with ⟨rfl, hkilled⟩ | ⟨a, hreturned, he⟩
  · rcases hx hkilled with ⟨rfl, -, rfl⟩ | ⟨rfl, rfl, -⟩ | ⟨rfl, rfl, -⟩
    · exact Or.inl ⟨rfl, rfl, rfl⟩
    · exact Or.inr (Or.inl ⟨rfl, rfl, Or.inr rfl⟩)
    · exact Or.inr (Or.inr ⟨r, rfl, hr, rfl, Or.inr rfl⟩)
  · rcases hx hreturned with ⟨-, hkilled, -⟩ | ⟨rfl, rfl, ha⟩ | ⟨rfl, rfl, ha⟩
    · cases hkilled
    · obtain rfl : a = .error .io := by simpa using ha
      exact Or.inr (Or.inl ⟨rfl, rfl, he⟩)
    · obtain rfl : a = answer := by simpa using ha
      rw [hanswer] at he
      exact Or.inr (Or.inr ⟨r, rfl, hr, rfl, he⟩)

theorem halts_applyJournalOperation {operation : JournalOperation}
    (h : Halts unreliable (applyJournalOperation generation operation).run d l e d') :
    StepEnds (operation.step generation) d (operation.carryOut d) l e d' := by
  cases operation with
  | delete p =>
    exact stepEnds_ignoreEnoent halts_request (ignored_exec_unlinkSource generation p d)
      (exec_unlinkSource_ne generation p d) h
  | write p s =>
    exact stepEnds_ignoreEnoent halts_request (ignored_exec_renameStaged generation s p d)
      (exec_renameStaged_ne generation s p d) h

theorem halts_unlinkJournal
    (h : Halts unreliable (ignoreEnoent (request (FileStep.unlinkJournal generation))).run d l e d') :
    StepEnds (.unlinkJournal generation) d { d with journal := none } l e d' :=
  stepEnds_ignoreEnoent halts_request (ignored_exec_unlinkJournal generation d)
    (exec_unlinkJournal_ne generation d) h

/-- How carrying out the operations ends: after the first `i` of them, killed, or with all of
them done, or with a failure of the next one. -/
def LoopEnds (generation : ℕ) (operations : List JournalOperation) (d : Disk)
    (l : StepAnswers)
    (e : Ending (Except StoreError Unit)) (d' : Disk) : Prop :=
  ∃ i, d' = carryOutAll (operations.take i) d ∧ (∀ a ∈ l, a.1.replays = some generation) ∧
    (e = .killed ∨ (e = .returned (.ok ()) ∧ operations.length ≤ i ∧ l.length = operations.length) ∨
      (e = .returned (.error .io) ∧ ∃ before step, l = before ++ [⟨step, .error .io⟩] ∧
        before.length = i))

theorem replays_step (generation : ℕ) (operation : JournalOperation) :
    (operation.step generation).replays = some generation := by
  cases operation <;> rfl

theorem halts_applyJournalOperations
    (h : Halts unreliable (applyJournalOperations generation operations).run d l e d') :
    LoopEnds generation operations d l e d' := by
  induction operations generalizing d l with
  | nil =>
    obtain ⟨rfl, rfl, he⟩ := halts_pure h
    exact ⟨0, rfl, nofun, he.symm.imp id fun he => Or.inl ⟨he, Nat.le_refl 0, rfl⟩⟩
  | cons operation operations ih =>
    have hsingle : ∀ r : Except StoreError (operation.step generation).Value,
        ∀ a ∈ [(⟨operation.step generation, r⟩ : (step : FileStep) × Except StoreError step.Value)],
          a.1.replays = some generation := by
      intro r a ha
      rw [List.mem_singleton.1 ha]
      exact replays_step generation operation
    rcases halts_throwing_bind h with ⟨rfl, hkilled⟩ | ⟨error, hthrown, he⟩ |
      ⟨u, t, l₁, l₂, rfl, hfirst, hrest⟩
    · rcases halts_applyJournalOperation hkilled with ⟨rfl, -, rfl⟩ | ⟨rfl, rfl, -⟩ |
        ⟨r, rfl, -, rfl, -⟩
      · exact ⟨0, rfl, nofun, Or.inl rfl⟩
      · exact ⟨0, rfl, hsingle _, Or.inl rfl⟩
      · exact ⟨1, rfl, hsingle r, Or.inl rfl⟩
    · rcases halts_applyJournalOperation hthrown with ⟨-, hkilled, -⟩ | ⟨rfl, rfl, herror⟩ |
        ⟨r, -, -, -, herror⟩
      · cases hkilled
      · obtain rfl : error = .io := by simpa using herror
        refine ⟨0, rfl, hsingle _, ?_⟩
        rcases he with rfl | rfl
        · exact Or.inr (Or.inr ⟨rfl, [], _, rfl, rfl⟩)
        · exact Or.inl rfl
      · simp at herror
    · rcases halts_applyJournalOperation hfirst with ⟨-, hkilled, -⟩ | ⟨-, -, herror⟩ |
        ⟨r, rfl, -, rfl, -⟩
      · cases hkilled
      · simp at herror
      · obtain ⟨i, rfl, hreplays, hend⟩ := ih hrest
        refine ⟨i + 1, rfl, ?_, ?_⟩
        · intro a ha
          rcases List.mem_append.1 ha with ha | ha
          · exact hsingle r a ha
          · exact hreplays a ha
        · rcases hend with rfl | ⟨rfl, hi, hlength⟩ | ⟨rfl, before, step, rfl, hi⟩
          · exact Or.inl rfl
          · exact Or.inr (Or.inl ⟨rfl, Nat.succ_le_succ hi, congrArg Nat.succ hlength⟩)
          · exact Or.inr (Or.inr ⟨rfl, _ :: before, step, rfl, by rw [← hi]; rfl⟩)

/-- The journal on disk, if any, is one that a commit can have written. -/
def Disk.Sound (d : Disk) : Prop :=
  ∀ journal, d.journal = some journal → Coherent journal.operations

theorem settledSource_of_none (h : d.journal = none) : d.settledSource = d.source := by
  simp only [Disk.settledSource, h, Option.elim_none]

theorem settledSource_of_some {journal : SemanticCommitJournal} (h : d.journal = some journal) :
    d.settledSource = replayed journal.operations d := by
  simp only [Disk.settledSource, h, Option.elim_some]

/-- The answer of the file system about the journal, with a missing file told apart. -/
def pendingOf : Except StoreError SemanticCommitJournal →
    Except StoreError (Option SemanticCommitJournal)
  | .ok journal => .ok (some journal)
  | .error .enoent => .ok none
  | .error error => .error error

theorem run_readPendingJournal :
    readPendingJournal.run = .call .readJournal fun r => .pure (pendingOf r) := by
  change Program.call _ _ = Program.call _ _
  congr 1
  funext r
  rcases r with ⟨_ | _ | message⟩ | journal <;> rfl

theorem pendingOf_exec (d : Disk) : pendingOf (Disk.exec .readJournal d).1 = .ok d.journal := by
  simp only [Disk.exec]
  cases d.journal <;> rfl

theorem halts_readPendingJournal {e : Ending (Except StoreError (Option SemanticCommitJournal))}
    (h : Halts unreliable readPendingJournal.run d l e d') :
    d' = d ∧ (∀ a ∈ l, a.1 = .readJournal) ∧
      (e = .killed ∨ e = .returned (.error .io) ∨ e = .returned (.ok d.journal)) := by
  rw [run_readPendingJournal] at h
  rcases halts_call h with ⟨rfl, rfl, rfl⟩ | ⟨r, l', t, rfl, hstep, hrest⟩
  · exact ⟨rfl, nofun, Or.inl rfl⟩
  · obtain ⟨rfl, rfl, he⟩ := halts_pure hrest
    rcases hstep with heq | ⟨rfl, rfl⟩
    · obtain ⟨rfl, rfl⟩ := Prod.mk.inj heq
      have hpending := pendingOf_exec d'
      simp only [Disk.exec] at hpending
      rw [hpending] at he
      exact ⟨rfl, by simp, he.symm.imp id Or.inr⟩
    · exact ⟨rfl, by simp, he.symm.imp id Or.inl⟩

/-- What a recovery may leave: where the disk leads to is the same, and when it has
returned there is no journal. -/
theorem halts_recoverPendingCommit (hd : d.Sound)
    (h : Halts unreliable recoverPendingCommit.run d l e d') :
    d'.Sound ∧ d'.settledSource = d.settledSource ∧
      (∀ a ∈ l, a.1 = .readJournal ∨ a.1.replays ≠ none) ∧
      (e = .killed ∨ e = .returned (.error .io) ∨ (e = .returned (.ok ()) ∧ d'.journal = none)) := by
  rcases halts_throwing_bind h with ⟨rfl, hkilled⟩ | ⟨error, hthrown, he⟩ |
    ⟨pending, t, l₁, l₂, rfl, hfirst, hrest⟩
  · obtain ⟨rfl, hl, -⟩ := halts_readPendingJournal hkilled
    exact ⟨hd, rfl, fun a ha => Or.inl (hl a ha), Or.inl rfl⟩
  · obtain ⟨rfl, hl, herror⟩ := halts_readPendingJournal hthrown
    obtain rfl : error = .io := by simpa using herror
    exact ⟨hd, rfl, fun a ha => Or.inl (hl a ha), he.symm.imp id Or.inl⟩
  · obtain ⟨rfl, hl, hpending⟩ := halts_readPendingJournal hfirst
    obtain rfl : pending = t.journal := by simpa using hpending
    cases hj : t.journal with
    | none =>
      rw [hj] at hrest
      obtain ⟨rfl, rfl, he⟩ := halts_pure hrest
      refine ⟨hd, rfl, fun a ha => Or.inl (hl a (by simpa using ha)), ?_⟩
      exact he.symm.imp id fun he => Or.inr ⟨he, hj⟩
    | some journal =>
      rw [hj] at hrest
      have hcoherent := hd journal hj
      have htake : ∀ i, journal.operations.take i ⊆ journal.operations :=
        fun i => List.take_subset i journal.operations
      have hsound : ∀ i, (carryOutAll (journal.operations.take i) t).Sound := by
        intro i journal' hj'
        rw [journal_carryOutAll, hj] at hj'
        cases hj'
        exact hcoherent
      have hsettled : ∀ i, (carryOutAll (journal.operations.take i) t).settledSource =
          t.settledSource := by
        intro i
        rw [settledSource_of_some ((journal_carryOutAll _ t).trans hj), settledSource_of_some hj,
          hcoherent.replayed_carryOutAll (htake i)]
      have hanswers : ∀ {l₂ : StepAnswers},
          (∀ a ∈ l₂, a.1.replays = some journal.generation) →
          ∀ a ∈ l₁ ++ l₂, a.1 = .readJournal ∨ a.1.replays ≠ none := by
        intro l₂ hl₂ a ha
        rcases List.mem_append.1 ha with ha | ha
        · exact Or.inl (hl a ha)
        · exact Or.inr (by rw [hl₂ a ha]; exact Option.some_ne_none _)
      rcases halts_throwing_bind hrest with ⟨rfl, hkilled⟩ | ⟨error, hthrown, he⟩ |
        ⟨u, t', l₃, l₄, rfl, hloop, hunlink⟩
      · obtain ⟨i, rfl, hreplays, -⟩ := halts_applyJournalOperations hkilled
        exact ⟨hsound i, hsettled i, hanswers hreplays, Or.inl rfl⟩
      · obtain ⟨i, rfl, hreplays, hend⟩ := halts_applyJournalOperations hthrown
        refine ⟨hsound i, hsettled i, hanswers hreplays, he.symm.imp id fun he => Or.inl ?_⟩
        rw [he]
        rcases hend with hend | ⟨hend, -⟩ | ⟨hend, -⟩
        · cases hend
        · cases hend
        · exact hend
      · obtain ⟨i, rfl, hreplays, hend⟩ := halts_applyJournalOperations hloop
        have hall : journal.operations.take i = journal.operations := by
          rcases hend with hend | ⟨-, hi⟩ | ⟨hend, -⟩
          · cases hend
          · exact List.take_of_length_le hi.1
          · cases hend
        rw [hall] at hunlink
        have hsound' := hsound i
        have hsettled' := hsettled i
        rw [hall] at hsound' hsettled'
        rcases halts_unlinkJournal hunlink with ⟨rfl, rfl, rfl⟩ | ⟨rfl, rfl, he⟩ |
          ⟨r, rfl, -, rfl, he⟩
        · rw [List.append_nil]
          exact ⟨hsound', hsettled', hanswers hreplays, Or.inl rfl⟩
        · refine ⟨hsound', hsettled', hanswers ?_, he.symm.imp id Or.inl⟩
          intro a ha
          rcases List.mem_append.1 ha with ha | ha
          · exact hreplays a ha
          · rw [List.mem_singleton.1 ha]
            rfl
        · refine ⟨nofun, ?_, hanswers ?_, he.symm.imp id fun he => Or.inr ⟨he, rfl⟩⟩
          · rw [settledSource_of_none rfl, settledSource_of_some hj,
              ← hcoherent.replayed_carryOutAll (List.Subset.refl _),
              replayed_of_done fun a ha =>
                hcoherent.done_carryOutAll (List.Subset.refl _) ha t]
          · intro a ha
            rcases List.mem_append.1 ha with ha | ha
            · exact hreplays a ha
            · rw [List.mem_singleton.1 ha]
              rfl

end Halting

section Commit

variable {canonicalWrites : Tree} {writes : List SemanticSourceWrite} {directory : ℕ}
variable {d d' : Disk} {l l' : StepAnswers}
variable {e : Ending (Except StoreError Unit)}

def FileStep.publishes : FileStep → Bool
  | .publishJournal _ => true
  | _ => false

def afterPublication (l : StepAnswers) :
    StepAnswers :=
  (l.dropWhile fun a => !a.1.publishes).tail

theorem afterPublication_append (h : ∀ a ∈ l, a.1.publishes = false) :
    afterPublication (l ++ l') = afterPublication l' := by
  induction l with
  | nil => rfl
  | cons a l ih =>
    rw [List.forall_mem_cons] at h
    have hdrop := ih h.2
    simp only [afterPublication] at hdrop ⊢
    rw [List.cons_append, List.dropWhile_cons_of_pos (by simp [h.1])]
    exact hdrop

theorem length_afterPublication (l : StepAnswers) :
    (afterPublication l).length ≤ l.length :=
  Nat.le_trans (List.tail_sublist _).length_le (List.dropWhile_sublist _).length_le

theorem publishes_of_replays {step : FileStep} (h : step.replays ≠ none) :
    step.publishes = false := by
  cases step <;> first | rfl | exact absurd rfl h

/-- Staging leaves the source and the journal alone, and when it has returned the files are
staged. -/
theorem halts_stageWrites (h : Halts unreliable (stageWrites directory writes).run d l e d') :
    d'.source = d.source ∧ d'.journal = d.journal ∧ (∀ a ∈ l, a.1.publishes = false) ∧
      (e = .killed ∨ e = .returned (.error .io) ∨
        (e = .returned (.ok ()) ∧ d' = stageAll directory writes d)) := by
  induction writes generalizing d l with
  | nil =>
    obtain ⟨rfl, rfl, he⟩ := halts_pure h
    exact ⟨rfl, rfl, nofun, he.symm.imp id fun he => Or.inr ⟨he, rfl⟩⟩
  | cons w writes ih =>
    cases hop : w.operation with
    | delete =>
      simp only [stageWrites, hop] at h
      have hstage : d.stage directory w = d := by simp only [Disk.stage, hop]
      have hrest := ih h
      rw [stageAll, List.foldl_cons, hstage]
      exact hrest
    | write =>
      simp only [stageWrites, hop] at h
      have hstage : d.stage directory w =
          d.writeStaging (stagingPath directory w) (w.content.getD "") := by
        simp only [Disk.stage, hop]
      rw [stageAll, List.foldl_cons, hstage]
      rcases halts_throwing_bind h with ⟨rfl, hkilled⟩ | ⟨error, hthrown, he⟩ |
        ⟨u, t, l₁, l₂, rfl, hfirst, hrest⟩
      · rcases halts_request hkilled with ⟨rfl, -, rfl⟩ | ⟨rfl, rfl, -⟩ | ⟨rfl, rfl, -⟩
        · exact ⟨rfl, rfl, nofun, Or.inl rfl⟩
        · exact ⟨rfl, rfl, by simp [FileStep.publishes], Or.inl rfl⟩
        · exact ⟨rfl, rfl, by simp [FileStep.publishes], Or.inl rfl⟩
      · rcases halts_request hthrown with ⟨-, hkilled, -⟩ | ⟨rfl, rfl, herror⟩ | ⟨-, -, herror⟩
        · cases hkilled
        · obtain rfl : error = .io := by simpa using herror
          exact ⟨rfl, rfl, by simp [FileStep.publishes], he.symm.imp id Or.inl⟩
        · simp [Disk.exec] at herror
      · rcases halts_request hfirst with ⟨-, hkilled, -⟩ | ⟨-, -, herror⟩ | ⟨rfl, rfl, -⟩
        · cases hkilled
        · simp at herror
        · obtain ⟨hsource, hjournal, hanswers, hend⟩ := ih hrest
          refine ⟨hsource, hjournal, ?_, hend⟩
          intro a ha
          rcases List.mem_append.1 ha with ha | ha
          · rw [List.mem_singleton.1 ha]
            rfl
          · exact hanswers a ha

def Disk.published (directory : ℕ) (writes : List SemanticSourceWrite) (d : Disk) : Disk :=
  { stageAll directory writes d with journal := some (journalOf directory writes) }

/-- How a commit ends: before its journal is published, or after some of its operations, or
after all of them and without the journal. -/
inductive CommitEnds (directory : ℕ) (writes : List SemanticSourceWrite) (d : Disk) :
    StepAnswers → Ending (Except StoreError Unit) → Disk → Prop where
  | unpublished {l : StepAnswers} {e d'} (source : d'.source = d.source) (journal : d'.journal = d.journal)
      (answers : ∀ l' : StepAnswers, (afterPublication (l ++ l')).length ≤ l'.length)
      (ending : e = .killed ∨ e = .returned (.error .io)) : CommitEnds directory writes d l e d'
  | interrupted {l l₁ : StepAnswers} {e d'} (i : ℕ)
      (disk : d' = carryOutAll ((writes.map (journalOperation directory)).take i)
        (d.published directory writes))
      (answers : ∀ l' : StepAnswers, afterPublication (l ++ l') = l₁ ++ l')
      (replays : ∀ a ∈ l₁, a.1.replays = some directory)
      (ending : e = .killed ∨ (e = .returned (.error .io) ∧
        ∃ before step, l₁ = before ++ [⟨step, .error .io⟩] ∧ before.length = i)) :
      CommitEnds directory writes d l e d'
  | completed {l l₁ : StepAnswers} {e d'}
      (disk : d' = { carryOutAll (writes.map (journalOperation directory))
        (d.published directory writes) with journal := none })
      (answers : ∀ l' : StepAnswers, afterPublication (l ++ l') = l₁ ++ l')
      (replays : ∀ a ∈ l₁, a.1.replays = some directory)
      (last : ∀ before step, l₁ ≠ before ++ [⟨step, .error .io⟩])
      (ending : e = .killed ∨ e = .returned (.ok ())) : CommitEnds directory writes d l e d'

theorem halts_commitWrites (h : Halts unreliable (commitWrites directory writes).run d l e d') :
    CommitEnds directory writes d l e d' := by
  have hsilent : ∀ {l : StepAnswers},
      (∀ a ∈ l, a.1.publishes = false) → ∀ l', (afterPublication (l ++ l')).length ≤ l'.length := by
    intro l hl l'
    rw [afterPublication_append hl]
    exact length_afterPublication l'
  rcases halts_throwing_bind h with ⟨rfl, hkilled⟩ | ⟨error, hthrown, he⟩ |
    ⟨u, t, l₁, l₂, rfl, hstage, hrest⟩
  · obtain ⟨hsource, hjournal, hanswers, -⟩ := halts_stageWrites hkilled
    exact .unpublished hsource hjournal (hsilent hanswers) (Or.inl rfl)
  · obtain ⟨hsource, hjournal, hanswers, hend⟩ := halts_stageWrites hthrown
    obtain rfl : error = .io := by simpa using hend
    exact .unpublished hsource hjournal (hsilent hanswers) he.symm
  obtain ⟨hsource, hjournal, hanswers, hend⟩ := halts_stageWrites hstage
  obtain rfl : t = stageAll directory writes d := by simpa using hend
  have hpublish : ∀ (r : Except StoreError Unit) (l' : StepAnswers),
      afterPublication ((l₁ ++ [⟨.publishJournal (journalOf directory writes), r⟩]) ++ l') =
        [] ++ l' := by
    intro r l'
    rw [List.append_assoc, afterPublication_append hanswers]
    rfl
  rcases halts_throwing_bind hrest with ⟨rfl, hkilled⟩ | ⟨error, hthrown, he⟩ |
    ⟨v, t, l₃, l₄, rfl, hfirst, hloop⟩
  · rcases halts_request hkilled with ⟨rfl, -, rfl⟩ | ⟨rfl, rfl, -⟩ | ⟨rfl, rfl, -⟩
    · rw [List.append_nil]
      exact .unpublished hsource hjournal (hsilent hanswers) (Or.inl rfl)
    · exact .unpublished hsource hjournal (fun l' => Nat.le_of_eq (congrArg List.length (hpublish _ l'))) (Or.inl rfl)
    · exact .interrupted 0 rfl (hpublish _) nofun (Or.inl rfl)
  · rcases halts_request hthrown with ⟨-, hkilled, -⟩ | ⟨rfl, rfl, herror⟩ | ⟨-, -, herror⟩
    · cases hkilled
    · obtain rfl : error = .io := by simpa using herror
      exact .unpublished hsource hjournal (fun l' => Nat.le_of_eq (congrArg List.length (hpublish _ l'))) he.symm
    · simp [Disk.exec] at herror
  rcases halts_request hfirst with ⟨-, hkilled, -⟩ | ⟨-, -, herror⟩ | ⟨rfl, rfl, -⟩
  · cases hkilled
  · simp at herror
  change Halts unreliable _ (d.published directory writes) l₄ e d' at hloop
  have hafter : ∀ l' : Answers FileStep _,
      afterPublication (l₁ ++ ([⟨.publishJournal (journalOf directory writes), .ok ()⟩] ++ l₄) ++ l') =
        l₄ ++ l' := by
    intro l'
    rw [← List.append_assoc l₁, List.append_assoc _ l₄ l']
    exact hpublish (.ok ()) _
  rcases halts_throwing_bind hloop with ⟨rfl, hkilled⟩ | ⟨error, hthrown, he⟩ |
    ⟨v, t, l₅, l₆, rfl, hall, hunlink⟩
  · obtain ⟨i, rfl, hreplays, -⟩ := halts_applyJournalOperations hkilled
    exact .interrupted i rfl hafter hreplays (Or.inl rfl)
  · obtain ⟨i, rfl, hreplays, hend⟩ := halts_applyJournalOperations hthrown
    refine .interrupted i rfl hafter hreplays ?_
    rcases hend with hend | ⟨hend, -⟩ | ⟨hend, hfailed⟩
    · cases hend
    · cases hend
    · obtain rfl : error = .io := by simpa using hend
      exact he.symm.imp id fun he => ⟨he, hfailed⟩
  obtain ⟨i, rfl, hreplays, hend⟩ := halts_applyJournalOperations hall
  obtain ⟨hi, hlength⟩ : (writes.map (journalOperation directory)).length ≤ i ∧
      l₅.length = (writes.map (journalOperation directory)).length := by simpa using hend
  rw [List.take_of_length_le hi] at hunlink
  have htake := List.take_length (l := writes.map (journalOperation directory))
  have hreplays' : ∀ r : Except StoreError Unit, ∀ a ∈ l₅ ++ [⟨.unlinkJournal directory, r⟩],
      a.1.replays = some directory := by
    intro r a ha
    rcases List.mem_append.1 ha with ha | ha
    · exact hreplays a ha
    · rw [List.mem_singleton.1 ha]
      rfl
  rcases halts_unlinkJournal hunlink with ⟨rfl, rfl, rfl⟩ | ⟨rfl, rfl, he⟩ | ⟨r, rfl, hr, rfl, he⟩
  · refine .interrupted _ (by rw [htake]) hafter ?_ (Or.inl rfl)
    rw [List.append_nil]
    exact hreplays
  · refine .interrupted _ (by rw [htake]) hafter (hreplays' _) ?_
    exact he.symm.imp id fun he => ⟨he, l₅, _, rfl, hlength⟩
  · refine .completed rfl hafter (hreplays' r) ?_ he.symm
    intro before step heq
    have hlast := (List.append_inj' heq rfl).2
    simp only [List.cons.injEq, Sigma.mk.injEq, and_true] at hlast
    obtain ⟨rfl, hio⟩ := hlast
    exact hr (eq_of_heq hio)

end Commit

end Mottainai.SemanticSource

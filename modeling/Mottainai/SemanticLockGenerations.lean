import Mathlib.Data.List.Nodup
import Mottainai.InterleavingContract

/-!
# The lock of the semantic source

Whoever makes the directory of the lock puts a record of itself into it by a rename. The record
names a process, and a token that was drawn for this one acquisition: the generation of the lock. A
generation is moved aside and deleted by whoever can link a claim on it; if its process is gone, or
that of a claim on it, this may be anybody. Deleting a directory is two steps. At most one handle
that is held is of the generation at the path of the lock; others may be held at the same time.
-/

namespace Mottainai.SemanticSource

open Interleaving

/-- A process: its id, with the time of its start where the platform tells it. -/
abbrev ProcessIdentity : Type := ℕ

/-- `SemanticLockOwner`. -/
structure SemanticLockOwner where
  token : ℕ
  process : ProcessIdentity
  deriving DecidableEq, Repr

/-- `SemanticLockRemovalClaim`. -/
structure SemanticLockRemovalClaim where
  token : ℕ
  process : ProcessIdentity
  deriving DecidableEq, Repr

/-- A directory that was made as a lock: by which making of a directory it came to be, the
record `owner.json`, and the records on their way there. -/
structure LockDirectory where
  inode : ℕ
  owner : Option SemanticLockOwner
  temporary : List SemanticLockOwner
  deriving DecidableEq, Repr

/-- Where such a directory can be: at the path of the lock, or moved aside. -/
inductive LockPlace where
  | lock
  | quarantine (token : ℕ)
  deriving DecidableEq, Repr

/-- The part of the file system that the lock lives in. `inodes` counts the directories that
were ever made. -/
structure LockDisk where
  directory : LockPlace → Option LockDirectory
  claim : ℕ → Option SemanticLockRemovalClaim
  inodes : ℕ

/-- Why a step failed, or what was thrown instead of going on. -/
inductive LockError where
  | eexist
  | enoent
  | enotempty
  | quarantineTokenMismatch
  deriving DecidableEq, Repr

inductive LockStep where
  | makeDirectory
  | writeOwner (owner : SemanticLockOwner)
  | renameOwner (owner : SemanticLockOwner)
  | readOwner (place : LockPlace)
  | removeFiles (place : LockPlace)
  | removeDirectory (place : LockPlace)
  | renameDirectory (token : ℕ)
  | linkClaim (claim : SemanticLockRemovalClaim)
  | readClaim (token : ℕ)
  | unlinkClaim (token : ℕ)
  | isProcessAbandoned (process : ProcessIdentity)
  deriving DecidableEq

/-- What a step answers. The number of the directory that was made is not seen by the code. -/
abbrev LockStep.Value : LockStep → Type
  | .makeDirectory => ℕ
  | .readOwner _ => Option SemanticLockOwner
  | .readClaim _ => Option SemanticLockRemovalClaim
  | .isProcessAbandoned _ => Bool
  | _ => Unit

namespace LockDisk

def put (d : LockDisk) (place : LockPlace) (directory : Option LockDirectory) : LockDisk :=
  { d with directory := Function.update d.directory place directory }

def putClaim (d : LockDisk) (token : ℕ) (claim : Option SemanticLockRemovalClaim) : LockDisk :=
  { d with claim := Function.update d.claim token claim }

/-- A directory with nothing in it. -/
def Empty (directory : LockDirectory) : Prop :=
  directory.owner = none ∧ directory.temporary = []

instance (directory : LockDirectory) : Decidable (Empty directory) :=
  inferInstanceAs (Decidable (_ ∧ _))

/-- What the file system does, and what is answered about a process. -/
def exec (gone : ProcessIdentity → Bool) :
    (step : LockStep) → LockDisk → Except LockError step.Value × LockDisk
  | .makeDirectory, d => match d.directory .lock with
    | some _ => (.error .eexist, d)
    | none => (.ok d.inodes, { d.put .lock (some ⟨d.inodes, none, []⟩) with inodes := d.inodes + 1 })
  | .writeOwner owner, d => match d.directory .lock with
    | some directory =>
      (.ok (), d.put .lock (some { directory with temporary := owner :: directory.temporary }))
    | none => (.error .enoent, d)
  | .renameOwner owner, d => match d.directory .lock with
    | some directory =>
      if owner ∈ directory.temporary then
        (.ok (), d.put .lock (some
          { directory with owner := some owner, temporary := directory.temporary.erase owner }))
      else (.error .enoent, d)
    | none => (.error .enoent, d)
  | .readOwner place, d => (.ok ((d.directory place).bind (·.owner)), d)
  | .removeFiles place, d =>
    (.ok (), d.put place ((d.directory place).map fun directory => ⟨directory.inode, none, []⟩))
  | .removeDirectory place, d => match d.directory place with
    | some directory =>
      if Empty directory then (.ok (), d.put place none) else (.error .enotempty, d)
    | none => (.ok (), d)
  | .renameDirectory token, d => match d.directory .lock, d.directory (.quarantine token) with
    | none, _ => (.error .enoent, d)
    | some directory, none =>
      (.ok (), (d.put .lock none).put (.quarantine token) (some directory))
    | some directory, some target =>
      if Empty target then (.ok (), (d.put .lock none).put (.quarantine token) (some directory))
      else (.error .enotempty, d)
  | .linkClaim claim, d => match d.claim claim.token with
    | some _ => (.error .eexist, d)
    | none => (.ok (), d.putClaim claim.token (some claim))
  | .readClaim token, d => (.ok (d.claim token), d)
  | .unlinkClaim token, d => match d.claim token with
    | some _ => (.ok (), d.putClaim token none)
    | none => (.error .enoent, d)
  | .isProcessAbandoned process, d => (.ok (gone process), d)

def semantics : Semantics LockStep (fun step => Except LockError step.Value) LockDisk :=
  fun step d r d' => ∃ gone, (r, d') = exec gone step d

end LockDisk

abbrev Locking (α : Type) : Type := Throwing LockStep LockStep.Value LockError α

def quietly (step : Locking Unit) : Locking Unit := tryCatch step fun _ => pure ()

/-- `unlink(path).catch(...)` with a missing file let pass. -/
def unlinkClaimQuietly (token : ℕ) : Locking Unit :=
  tryCatch (request (LockStep.unlinkClaim token)) fun error =>
    if error = .enoent then pure () else throw error

/-- `rm(path, { recursive: true, force: true })`. -/
def removeRecursively (place : LockPlace) : Locking Unit := do
  request (LockStep.removeFiles place)
  request (LockStep.removeDirectory place)

/-- `readLockOwner`. -/
def readLockOwner (place : LockPlace) : Locking (Option SemanticLockOwner) :=
  request (LockStep.readOwner place)

/-- `publishLockOwner`. -/
def publishLockOwner (owner : SemanticLockOwner) : Locking Unit := do
  request (LockStep.writeOwner owner)
  request (LockStep.renameOwner owner)

/-- `claimLockGeneration`, with a bound on how often a claim of a process that is gone is taken
over. -/
def claimLockGeneration (process : ProcessIdentity) (expectedToken : ℕ) : ℕ → Locking Bool
  | 0 => pure false
  | rounds + 1 => do
    let linked ← tryCatch (do
      request (LockStep.linkClaim ⟨expectedToken, process⟩)
      pure true) fun error => if error = .eexist then pure false else throw error
    if linked then pure true
    else do
      let existing ← request (LockStep.readClaim expectedToken)
      match existing with
      | none => pure false
      | some claim =>
        if claim.token ≠ expectedToken then pure false
        else do
          let abandoned ← request (LockStep.isProcessAbandoned claim.process)
          if !abandoned then pure false
          else do
            unlinkClaimQuietly expectedToken
            claimLockGeneration process expectedToken rounds

/-- The generation is the one moved aside under the token. -/
def quarantined (token : ℕ) : Locking Bool := do
  let owner ← readLockOwner (.quarantine token)
  pure (owner.map (·.token) = some token)

/-- Delete what was moved aside, if it is the generation that is meant. -/
def removeQuarantined (token : ℕ) : Locking Unit := do
  let same ← quarantined token
  if same then removeRecursively (.quarantine token) else pure ()

/-- The `rename` to the quarantine with what is done when it fails. It returns whether the
generation was moved now. -/
def moveAside (token : ℕ) : Locking Bool :=
  tryCatch (do
    request (LockStep.renameDirectory token)
    pure true) fun error =>
      if error = .eexist then do
        let same ← quarantined token
        if !same then throw error
        else do
          removeRecursively (.quarantine token)
          request (LockStep.renameDirectory token)
          pure true
      else if error = .enoent then do
        removeQuarantined token
        pure false
      else throw error

/-- The body of the `try` in `removeLockGeneration`. -/
def removeClaimed (token : ℕ) : Locking Unit := do
  let owner ← readLockOwner .lock
  if owner.map (·.token) ≠ some token then removeQuarantined token
  else do
    let moved ← moveAside token
    if !moved then pure ()
    else do
      let same ← quarantined token
      if !same then throw .quarantineTokenMismatch
      else removeRecursively (.quarantine token)

/-- `removeLockGeneration`. The claim stays when the body throws anything but a missing file. -/
def removeLockGeneration (process : ProcessIdentity) (expectedToken rounds : ℕ) :
    Locking Unit := do
  let claimed ← claimLockGeneration process expectedToken rounds
  if !claimed then pure ()
  else do
    tryCatch (removeClaimed expectedToken) fun error =>
      if error = .enoent then pure () else throw error
    unlinkClaimQuietly expectedToken

/-- The body of the `try` in `acquireSemanticSourceLock`. -/
def tryAcquire (owner : SemanticLockOwner) : Locking (Option ℕ) := do
  let _ ← request LockStep.makeDirectory
  tryCatch (publishLockOwner owner) fun error => do
    quietly (removeRecursively .lock)
    throw error
  pure (some owner.token)

/-- `acquireSemanticSourceLock`: the token of the handle, or nothing when the deadline has
passed. `rounds` is how often the loop is run before that. -/
def acquireSemanticSourceLock (owner : SemanticLockOwner) : ℕ → Locking (Option ℕ)
  | 0 => pure none
  | rounds + 1 => do
    let handle ← tryCatch (tryAcquire owner) fun error =>
      if error = .eexist then pure none else throw error
    match handle with
    | some token => pure (some token)
    | none => do
      let observed ← readLockOwner .lock
      match observed with
      | none => acquireSemanticSourceLock owner rounds
      | some other => do
        let abandoned ← request (LockStep.isProcessAbandoned other.process)
        if abandoned then do
          quietly (removeLockGeneration owner.process other.token rounds)
          acquireSemanticSourceLock owner rounds
        else acquireSemanticSourceLock owner rounds

/-- The calls of the processes: to acquire the lock, and to release the handle that was
acquired. -/
inductive LockCall where
  | acquire (owner : SemanticLockOwner) (rounds : ℕ)
  | release (owner : SemanticLockOwner) (rounds : ℕ)
  deriving DecidableEq

/-- What a call hands back: the token of a handle, or nothing. -/
abbrev LockAnswer : Type := Except LockError (Option ℕ)

def LockCall.program : LockCall →
    Program LockStep (fun step => Except LockError step.Value) LockAnswer
  | .acquire owner rounds => (acquireSemanticSourceLock owner rounds).run
  | .release owner rounds => (do
      quietly (removeLockGeneration owner.process owner.token rounds)
      pure none : Locking (Option ℕ)).run

abbrev LockEvent : Type :=
  Event LockCall LockStep (fun step => Except LockError step.Value) LockAnswer

abbrev LockConfig : Type :=
  Config LockDisk LockCall LockStep (fun step => Except LockError step.Value) LockAnswer

section Handles

def drawnToken : LockEvent → Option ℕ
  | .invoke _ (.acquire owner _) => some owner.token
  | _ => none

def drawnTokens (es : List LockEvent) : List ℕ := es.filterMap drawnToken

def DrawsFreshToken (before : List LockEvent) (_ : LockConfig) (e : LockEvent) : Prop :=
  ∀ token, drawnToken e = some token → token ∉ drawnTokens before

/-- The handle that a call has returned: to whom, for which acquisition, and its token. -/
def handle : LockEvent → Option (ℕ × SemanticLockOwner × ℕ)
  | .response p (.acquire owner _) (.ok (some token)) => some (p, owner, token)
  | _ => none

def endsHandle (p : ℕ) (owner : SemanticLockOwner) : LockEvent → Bool
  | .crash q => q == p
  | .response _ (.release owner' _) _ => owner' == owner
  | _ => false

/-- The process `p` has acquired the handle with the token and lives, and no release of the
handle has returned. -/
def holds (p token : ℕ) : List LockEvent → Bool
  | [] => false
  | e :: es => (match handle e with
    | some (q, owner, token') => q == p && token' == token && es.all (!endsHandle p owner ·)
    | none => false) || holds p token es

def RecordedAtLock (d : LockDisk) (token : ℕ) : Prop :=
  ∃ directory owner, d.directory .lock = some directory ∧ directory.owner = some owner ∧
    owner.token = token

def MadeAtLock (es : List LockEvent) (d : LockDisk) (token : ℕ) : Prop :=
  ∃ directory p owner rounds, d.directory .lock = some directory ∧
    .exec p (.acquire owner rounds) .makeDirectory (.ok directory.inode) ∈ es ∧
    owner.token = token

end Handles

section Returned

variable {owner : SemanticLockOwner}

theorem returns_throwing_bind {α β : Type} {P : Except LockError β → Prop} {x : Locking α}
    {f : α → Locking β} (herror : ∀ error, P (.error error)) (hf : ∀ a, (f a).run.Returns P) :
    (x >>= f).run.Returns P := by
  refine Program.Returns.bind (P := fun _ => True) (Program.returns_true x.run) fun r _ => ?_
  cases r with
  | error error => exact herror error
  | ok a => exact hf a

/-- The value of a composition, where the first part can only return some values. -/
theorem returns_throwing_bind_of {α β : Type} {P : Except LockError α → Prop}
    {Q : Except LockError β → Prop} {x : Locking α} {f : α → Locking β} (hx : x.run.Returns P)
    (herror : ∀ error, Q (.error error)) (hf : ∀ a, P (.ok a) → (f a).run.Returns Q) :
    (x >>= f).run.Returns Q := by
  refine Program.Returns.bind hx fun r hr => ?_
  cases r with
  | error error => exact herror error
  | ok a => exact hf a hr

def OwnHandle (owner : SemanticLockOwner) : LockAnswer → Prop
  | .ok (some token) => token = owner.token
  | _ => True

theorem returns_tryAcquire (owner : SemanticLockOwner) :
    (tryCatch (tryAcquire owner) fun error =>
      if error = .eexist then pure none else throw error).run.Returns (OwnHandle owner) := by
  have htry : (tryAcquire owner).run.Returns (OwnHandle owner) :=
    returns_throwing_bind (fun _ => trivial) fun _ =>
      returns_throwing_bind (fun _ => trivial) fun _ => rfl
  refine Program.Returns.bind htry fun r hr => ?_
  cases r with
  | ok handle => exact hr
  | error error =>
    by_cases heexist : error = .eexist
    · simp only [heexist, if_true]
      trivial
    · simp only [heexist, if_false]
      trivial

theorem returns_acquire (owner : SemanticLockOwner) (rounds : ℕ) :
    (acquireSemanticSourceLock owner rounds).run.Returns (OwnHandle owner) := by
  induction rounds with
  | zero => trivial
  | succ rounds ih =>
    refine returns_throwing_bind_of (returns_tryAcquire owner) (fun _ => trivial) ?_
    rintro (_ | token) hhandle
    · refine returns_throwing_bind (fun _ => trivial) fun observed => ?_
      cases observed with
      | none => exact ih
      | some other =>
        refine returns_throwing_bind (fun _ => trivial) fun abandoned => ?_
        cases abandoned with
        | false => exact ih
        | true => exact returns_throwing_bind (fun _ => trivial) fun _ => ih
    · exact hhandle

def HandsBack : LockCall → LockAnswer → Prop
  | .acquire owner _, answer => OwnHandle owner answer
  | .release _ _, _ => True

theorem returns_program (call : LockCall) : call.program.Returns (HandsBack call) := by
  cases call with
  | acquire owner rounds => exact returns_acquire owner rounds
  | release owner rounds =>
    refine returns_throwing_bind (fun _ => trivial) fun _ => trivial

end Returned

section Unique

variable {d₀ : LockDisk} {es : List LockEvent} {k k' : LockConfig} {e : LockEvent}
variable {p q token token' : ℕ}

/-- Two members of a list with one value, where the values of the members are distinct. -/
theorem eq_of_nodup_filterMap {A B : Type} {f : A → Option B} {l : List A} {b : B}
    (h : (l.filterMap f).Nodup) {x y : A} (hx : x ∈ l) (hy : y ∈ l) (hfx : f x = some b)
    (hfy : f y = some b) : x = y := by
  induction l with
  | nil => cases hx
  | cons a l ih =>
    have hmem : ∀ z ∈ l, f z = some b → b ∈ l.filterMap f := fun z hz hfz =>
      List.mem_filterMap.2 ⟨z, hz, hfz⟩
    cases hfa : f a with
    | none =>
      rw [List.filterMap_cons_none hfa] at h
      refine ih h ((List.mem_cons.1 hx).resolve_left ?_) ((List.mem_cons.1 hy).resolve_left ?_)
      · rintro rfl
        rw [hfa] at hfx
        cases hfx
      · rintro rfl
        rw [hfa] at hfy
        cases hfy
    | some b' =>
      rw [List.filterMap_cons_some hfa, List.nodup_cons] at h
      have hhead : ∀ z ∈ l, f z = some b → f a ≠ some b := fun z hz hfz hab =>
        h.1 (Option.some.inj (hfa.symm.trans hab) ▸ hmem z hz hfz)
      rcases List.mem_cons.1 hx with hxa | hx <;> rcases List.mem_cons.1 hy with hya | hy
      · rw [hxa, hya]
      · exact absurd (hxa ▸ hfx) (hhead y hy hfy)
      · exact absurd (hya ▸ hfy) (hhead x hx hfx)
      · exact ih h.2 hx hy

/-- A handle that is held was returned. -/
theorem acquired_of_holds (h : holds p token es = true) :
    ∃ owner rounds, .response p (.acquire owner rounds) (.ok (some token)) ∈ es := by
  induction es with
  | nil => cases h
  | cons e es ih =>
    rcases Bool.or_eq_true_iff.1 h with h | h
    · match e, h with
      | .response q (.acquire owner rounds) (.ok (some token')), h =>
        simp only [handle, Bool.and_eq_true, beq_iff_eq] at h
        obtain ⟨⟨rfl, rfl⟩, -⟩ := h
        exact ⟨owner, rounds, List.mem_cons_self⟩
    · obtain ⟨owner, rounds, hmem⟩ := ih h
      exact ⟨owner, rounds, List.mem_cons_of_mem _ hmem⟩

theorem nodup_drawnTokens (hrun : Run LockCall.program LockDisk.semantics (Config.idle d₀) es k)
    (hfresh : EachStep LockCall.program LockDisk.semantics DrawsFreshToken (Config.idle d₀) es k) :
    (drawnTokens es).Nodup := by
  refine hfresh.invariant (J := fun es _ => (drawnTokens es).Nodup) hrun ?_ List.nodup_nil
  intro es k e k' hnodup _ hdraws
  rw [drawnTokens, List.filterMap_append, List.nodup_append]
  refine ⟨hnodup, ?_, ?_⟩
  · cases h : drawnToken e <;> simp [h]
  · intro t ht t' ht' heq
    obtain ⟨e', he', hdrawn⟩ := List.mem_filterMap.1 ht'
    obtain rfl := List.mem_singleton.1 he'
    exact hdraws t' hdrawn (heq ▸ ht)

theorem acquisition_unique
    (hrun : Run LockCall.program LockDisk.semantics (Config.idle d₀) es k)
    (hfresh : EachStep LockCall.program LockDisk.semantics DrawsFreshToken (Config.idle d₀) es k)
    (hp : holds p token es = true) (hq : holds q token es = true) : p = q := by
  have hinvoked : ∀ {p}, holds p token es = true →
      ∃ owner rounds, owner.token = token ∧ .invoke p (.acquire owner rounds) ∈ es := by
    intro p hp
    obtain ⟨owner, rounds, hmem⟩ := acquired_of_holds hp
    exact ⟨owner, rounds, (hrun.returns returns_program hmem).symm, hrun.invoked hmem⟩
  obtain ⟨owner, rounds, rfl, hmem⟩ := hinvoked hp
  obtain ⟨owner', rounds', htoken, hmem'⟩ := hinvoked hq
  have heq := eq_of_nodup_filterMap (nodup_drawnTokens hrun hfresh) hmem hmem' rfl
    (congrArg some htoken)
  injection heq

def madeDirectory : LockEvent → Option ℕ
  | .exec _ _ .makeDirectory (.ok inode) => some inode
  | _ => none

def madeDirectories (es : List LockEvent) : List ℕ := es.filterMap madeDirectory

theorem exec_makes {gone : ProcessIdentity → Bool} {step : LockStep} {d d' : LockDisk}
    {r : Except LockError step.Value} (h : (r, d') = LockDisk.exec gone step d) (call : LockCall) :
    d'.inodes = d.inodes + (madeDirectory (.exec p call step r)).toList.length ∧
      ∀ inode, madeDirectory (.exec p call step r) = some inode → inode = d.inodes := by
  have hr : r = (LockDisk.exec gone step d).1 := congrArg Prod.fst h
  have hd : d' = (LockDisk.exec gone step d).2 := congrArg Prod.snd h
  subst hr hd
  cases step with
  | makeDirectory =>
    simp only [LockDisk.exec]
    cases d.directory .lock with
    | none => simp [madeDirectory, eq_comm]
    | some directory => simp [madeDirectory]
  | renameOwner owner =>
    simp only [LockDisk.exec, madeDirectory]
    split
    · split_ifs <;> simp [LockDisk.put]
    · simp
  | removeDirectory place =>
    simp only [LockDisk.exec, madeDirectory]
    split
    · split_ifs <;> simp [LockDisk.put]
    · simp
  | renameDirectory t =>
    simp only [LockDisk.exec, madeDirectory]
    split
    · simp
    · simp [LockDisk.put]
    · split_ifs <;> simp [LockDisk.put]
  | writeOwner owner =>
    simp only [LockDisk.exec, madeDirectory]
    split <;> simp [LockDisk.put]
  | linkClaim claim =>
    simp only [LockDisk.exec, madeDirectory]
    split <;> simp [LockDisk.putClaim]
  | unlinkClaim t =>
    simp only [LockDisk.exec, madeDirectory]
    split <;> simp [LockDisk.putClaim]
  | removeFiles place => simp [LockDisk.exec, madeDirectory, LockDisk.put]
  | readOwner place => simp [LockDisk.exec, madeDirectory]
  | readClaim t => simp [LockDisk.exec, madeDirectory]
  | isProcessAbandoned process => simp [LockDisk.exec, madeDirectory]

theorem step_makes (h : Step LockCall.program LockDisk.semantics k e k') :
    k'.shared.inodes = k.shared.inodes + (madeDirectory e).toList.length ∧
      ∀ inode, madeDirectory e = some inode → inode = k.shared.inodes := by
  cases h with
  | invoke c free => exact ⟨rfl, nofun⟩
  | @exec p c op next r s' at_call outcome =>
    obtain ⟨gone, outcome⟩ := outcome
    exact exec_makes outcome c
  | response at_return => exact ⟨rfl, nofun⟩
  | crash p => exact ⟨rfl, nofun⟩

theorem madeDirectories_distinct
    (hrun : Run LockCall.program LockDisk.semantics (Config.idle d₀) es k) :
    (madeDirectories es).Nodup ∧ ∀ inode ∈ madeDirectories es, inode < k.shared.inodes := by
  induction hrun with
  | refl => exact ⟨List.nodup_nil, nofun⟩
  | @snoc es k₁ e k₂ run step ih =>
    obtain ⟨hnodup, hbound⟩ := ih
    obtain ⟨hinodes, hmade⟩ := step_makes step
    rw [madeDirectories, List.filterMap_append]
    cases he : madeDirectory e with
    | none =>
      rw [he] at hinodes
      rw [List.filterMap_cons_none he, List.filterMap_nil, List.append_nil, hinodes]
      exact ⟨hnodup, hbound⟩
    | some inode =>
      rw [he] at hinodes
      have hinode := hmade inode he
      rw [List.filterMap_cons_some he, List.filterMap_nil, hinodes]
      constructor
      · refine List.nodup_append.2 ⟨hnodup, List.nodup_singleton _, ?_⟩
        rintro a ha b hb rfl
        have hlt := hbound a ha
        rw [List.mem_singleton.1 hb, hinode] at hlt
        exact Nat.lt_irrefl _ hlt
      · intro a ha
        rcases List.mem_append.1 ha with ha | ha
        · exact Nat.lt_trans (hbound a ha) (by simp)
        · rw [List.mem_singleton.1 ha, hinode]
          simp

/-- Two acquisitions that made the directory at the path of the lock are one. -/
theorem madeAtLock_unique
    (hrun : Run LockCall.program LockDisk.semantics (Config.idle d₀) es k)
    (h : MadeAtLock es k.shared token) (h' : MadeAtLock es k.shared token') : token = token' := by
  obtain ⟨directory, p, owner, rounds, hlock, hmem, rfl⟩ := h
  obtain ⟨directory', p', owner', rounds', hlock', hmem', rfl⟩ := h'
  obtain rfl : directory = directory' := Option.some.inj (hlock.symm.trans hlock')
  have heq := eq_of_nodup_filterMap (madeDirectories_distinct hrun).1 hmem hmem' rfl rfl
  injection heq with _ hcall
  injection hcall with howner
  rw [howner]

theorem recordedAtLock_unique {d : LockDisk} (h : RecordedAtLock d token)
    (h' : RecordedAtLock d token') : token = token' := by
  obtain ⟨directory, owner, hlock, howner, rfl⟩ := h
  obtain ⟨directory', owner', hlock', howner', rfl⟩ := h'
  obtain rfl : directory = directory' := Option.some.inj (hlock.symm.trans hlock')
  obtain rfl : owner = owner' := Option.some.inj (howner.symm.trans howner')
  rfl

/-- Two processes take over the claim that a third one has left on a generation, one of them
while the other is already past it: what the slower one moves aside is the lock of the faster
one. -/
def takeoverRace : List (Move LockCall LockError) :=
  [.invoke 9 (.acquire ⟨19, 9⟩ 1), .exec 9, .exec 9, .exec 9, .respond 9, .crash 9,
    .invoke 0 (.acquire ⟨10, 0⟩ 3), .exec 0, .exec 0, .exec 0, .exec 0, .crash 0,
    .invoke 1 (.acquire ⟨11, 1⟩ 3), .exec 1, .exec 1, .exec 1, .exec 1, .exec 1, .exec 1,
    .invoke 2 (.acquire ⟨12, 2⟩ 3), .exec 2, .exec 2, .exec 2, .exec 2, .exec 2, .exec 2,
    .exec 1, .exec 1, .exec 1,
    .exec 2, .exec 2, .exec 2, .exec 2, .exec 2, .exec 2, .exec 2, .exec 2,
    .exec 2, .exec 2, .exec 2, .respond 2,
    .exec 1, .exec 1, .exec 1, .exec 1, .exec 1, .respond 1]

end Unique

end Mottainai.SemanticSource

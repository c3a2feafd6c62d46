import Mottainai.SemanticSourceReaders

/-!
# Concurrent loads and commits

Any number of loads and commits, of which the commits hold the lock one at a time and may
be killed anywhere. As long as no load carries out a step that matters for a journal which a
later one has replaced, the published write sets are all there in the end, in their order.
A load that does go on with an old journal loses a later commit.
-/

namespace Mottainai.SemanticSource

open Interleaving JavaScriptValues

section Points

/-- A recovery that has read the journal of `c` has `rest` to carry out. As long as no later
commit was published, everything else is done. -/
structure Replaying (cs : List Commit) (d : Disk) (c : Commit) (rest : List JournalOperation) :
    Prop where
  published : c ∈ cs
  mem : ∀ a ∈ rest, a ∈ c.operations
  done : cs.getLast? = some c → ∀ a ∈ c.operations, a ∈ rest ∨ a.Done d

inductive ReaderAt (cs : List Commit) (d : Disk) : Remaining → Prop where
  | recovers : ReaderAt cs d (recoverRest readRest).run
  | replays {c rest} (replaying : Replaying cs d c rest) :
      ReaderAt cs d (replayRest c.directory rest readRest).run
  | reads : ReaderAt cs d readRest.run
  | returns (tree : Tree) : ReaderAt cs d (.pure (.ok (.loaded tree)))

/-- What the answer of a writer says about the published write sets. -/
structure Answered (cs : List Commit) (directory : ℕ) (writes : List SemanticSourceWrite)
    (answer : Except StoreError SourceAnswer) : Prop where
  ok : answer = .ok (.persisted .ok) → writes = [] ∨ ⟨directory, writes⟩ ∈ cs
  other : answer ≠ .ok (.persisted .ok) → directory ∉ cs.map Commit.directory

/-- A writer that has not published anything yet. -/
structure Unpublished (cs : List Commit) (directory : ℕ) (mutation : SemanticMutation) : Prop where
  checked : ∀ w ∈ mutation.writes, Checked mutation.canonicalWrites w
  fresh : directory ∉ cs.map Commit.directory

variable (fingerprintOf : Tree → String)

inductive WriterAt (cs : List Commit) (d : Disk) (directory : ℕ) (mutation : SemanticMutation) :
    Remaining → Prop where
  | recovers (unpublished : Unpublished cs directory mutation) :
      WriterAt cs d directory mutation
        (recoverRest (baseRest fingerprintOf directory mutation)).run
  | replays {c rest} (unpublished : Unpublished cs directory mutation)
      (last : cs.getLast? = some c) (replaying : Replaying cs d c rest) :
      WriterAt cs d directory mutation
        (replayRest c.directory rest (baseRest fingerprintOf directory mutation)).run
  | checksBase (unpublished : Unpublished cs directory mutation) (journal : d.journal = none) :
      WriterAt cs d directory mutation (baseRest fingerprintOf directory mutation).run
  | stages {left} (unpublished : Unpublished cs directory mutation) (journal : d.journal = none)
      (left_mem : ∀ w ∈ left, w ∈ mutation.writes)
      (staged : ∀ w ∈ mutation.writes, w.operation = .write →
        w ∈ left ∨ d.staging (stagingPath directory w) = w.content) :
      WriterAt cs d directory mutation
        (attempt directory (stagingRest directory mutation.writes left)).run
  | applies {rest} (last : cs.getLast? = some ⟨directory, mutation.writes⟩)
      (replaying : Replaying cs d ⟨directory, mutation.writes⟩ rest) :
      WriterAt cs d directory mutation (attempt directory (applyingRest directory rest)).run
  | removes (published : ⟨directory, mutation.writes⟩ ∈ cs) (journal : d.journal = none) :
      WriterAt cs d directory mutation (removingRest directory).run
  | returns {answer} (answered : Answered cs directory mutation.writes answer) :
      WriterAt cs d directory mutation (.pure answer)

/-- The step takes effect for the journal that was published last, or it has no effect that
matters any more. -/
def Harmless (cs : List Commit) (d : Disk) : FileStep → Prop
  | .unlinkSource generation path =>
    cs.getLast?.map Commit.directory = some generation ∨ d.Dispensable path
  | .unlinkJournal generation =>
    cs.getLast?.map Commit.directory = some generation ∨ d.Finished
  | _ => True

end Points

section Replaying

variable {tree : Tree} {cs : List Commit} {c : Commit} {d d' : Disk}
variable {rest : List JournalOperation} {a : JournalOperation}

theorem exec_step (generation : ℕ) (a : JournalOperation) (d : Disk) :
    (Disk.exec (a.step generation) d).2 = a.carryOut d := by
  cases a <;> rfl

theorem Settled.last_of_directory (h : Settled tree cs d) (hc : c ∈ cs)
    (heq : cs.getLast?.map Commit.directory = some c.directory) : cs.getLast? = some c := by
  obtain ⟨c', hc', hdirectory⟩ := Option.map_eq_some_iff.1 heq
  rw [hc', h.commit_eq (List.mem_of_getLast? hc') hc hdirectory]

/-- The recovery goes on with the next operation. -/
theorem Replaying.carryOut (hs : Settled tree cs d) (h : Replaying cs d c (a :: rest))
    (hharmless : Harmless cs d (a.step c.directory)) :
    Replayed cs d (a.carryOut d) ∧ Replaying cs (a.carryOut d) c rest := by
  have ha : a ∈ c.operations := h.mem a (List.mem_cons_self ..)
  have hrest : ∀ b ∈ rest, b ∈ c.operations := fun b hb => h.mem b (List.mem_cons_of_mem a hb)
  by_cases hlast : cs.getLast? = some c
  · refine ⟨.carriesOut hlast ha, h.published, hrest, fun _ b hb => ?_⟩
    rcases h.done hlast b hb with hmem | hdone
    · rcases List.mem_cons.1 hmem with rfl | hmem
      · exact Or.inr (done_carryOut b d)
      · exact Or.inl hmem
    · exact Or.inr ((hs.coherent c h.published).done_carryOut_other ha hb hdone)
  · refine ⟨?_, h.published, hrest, fun hc => absurd hc hlast⟩
    cases a with
    | delete p =>
      rcases hharmless with heq | hdispensable
      · exact absurd (hs.last_of_directory h.published heq) hlast
      · exact .deletes hdispensable
    | write p s =>
      have hdone : (JournalOperation.write p s).Done d := hs.overtaken c h.published hlast p s ha
      rw [carryOut_of_done hdone]
      exact .nothing

/-- The recovery has carried out everything and removes the journal. -/
theorem Replaying.unlink (hs : Settled tree cs d) (h : Replaying cs d c [])
    (hharmless : Harmless cs d (.unlinkJournal c.directory)) :
    Replayed cs d { d with journal := none } := by
  refine .unlinks ?_
  rcases hharmless with heq | hfinished
  · have hlast := hs.last_of_directory h.published heq
    intro j hj b hb
    obtain ⟨c', hc', rfl⟩ := hs.journal j hj
    obtain rfl : c = c' := Option.some_injective _ (hlast.symm.trans hc')
    exact (h.done hlast b hb).resolve_left List.not_mem_nil
  · exact hfinished

/-- The journal on disk is that of the last commit, with everything still to carry out. -/
theorem Settled.replaying (h : Settled tree cs d) {j : SemanticCommitJournal}
    (hj : d.journal = some j) : ∃ c, cs.getLast? = some c ∧ j = journalOf c.directory c.writes ∧
      Replaying cs d c c.operations := by
  obtain ⟨c, hc, rfl⟩ := h.journal j hj
  exact ⟨c, hc, rfl, List.mem_of_getLast? hc, fun a ha => ha, fun _ a ha => Or.inl ha⟩

/-- The commits and the disk go on so that what a recovery has seen stays true. -/
structure Advances (cs : List Commit) (d : Disk) (cs' : List Commit) (d' : Disk) : Prop where
  kept : ∀ c ∈ cs, c ∈ cs'
  done : ∀ c ∈ cs, cs'.getLast? = some c → cs.getLast? = some c ∧
    ∀ a ∈ c.operations, a.Done d → a.Done d'

variable {cs' : List Commit}

theorem Replayed.advances (hs : Settled tree cs d) (hr : Replayed cs d d') :
    Advances cs d cs d' :=
  ⟨fun _ hc => hc, fun _ _ hlast => ⟨hlast, fun _ ha => hr.done hs hlast ha⟩⟩

theorem Replaying.advances (h : Replaying cs d c rest) (hadvances : Advances cs d cs' d') :
    Replaying cs' d' c rest := by
  refine ⟨hadvances.kept c h.published, h.mem, fun hlast a ha => ?_⟩
  obtain ⟨hbefore, hdone⟩ := hadvances.done c h.published hlast
  exact (h.done hbefore a ha).imp id (hdone a ha)

end Replaying

section Readers

variable {tree : Tree} {cs cs' : List Commit} {d d' : Disk} {x : Remaining} {op : FileStep}
variable {next : Except StoreError op.Value → Remaining}

theorem ReaderAt.advances (h : ReaderAt cs d x) (hadvances : Advances cs d cs' d') :
    ReaderAt cs' d' x := by
  cases h with
  | recovers => exact .recovers
  | replays replaying => exact .replays (replaying.advances hadvances)
  | reads => exact .reads
  | returns tree => exact .returns tree

/-- What a step of a load does, and where it leaves the load. -/
theorem ReaderAt.exec (hs : Settled tree cs d) (h : ReaderAt cs d (.call op next))
    (hharmless : Harmless cs d op) :
    Replayed cs d (Disk.exec op d).2 ∧
      ReaderAt cs (Disk.exec op d).2 (next (Disk.exec op d).1) := by
  generalize hx : (Program.call op next : Remaining) = y at h
  cases h with
  | recovers =>
    obtain ⟨rfl, hnext⟩ := (proceeds_recoverRest readRest).next hx
    rw [hnext]
    refine ⟨.nothing, ?_⟩
    cases hj : d.journal with
    | none => exact .reads
    | some j =>
      obtain ⟨c, -, rfl, hreplaying⟩ := hs.replaying hj
      exact .replays hreplaying
  | @replays c rest replaying =>
    cases rest with
    | nil =>
      obtain ⟨rfl, hnext⟩ := proceeds_replayRest_nil.next hx
      rw [hnext]
      exact ⟨replaying.unlink hs hharmless, .reads⟩
    | cons a rest =>
      obtain ⟨rfl, hnext⟩ := proceeds_replayRest_cons.next hx
      obtain ⟨hreplayed, hreplaying⟩ := replaying.carryOut hs hharmless
      rw [hnext, exec_step]
      exact ⟨hreplayed, .replays hreplaying⟩
  | reads =>
    obtain ⟨rfl, hnext⟩ := proceeds_readRest.next hx
    rw [hnext]
    exact ⟨.nothing, .returns d.source⟩
  | returns tree => cases hx

end Readers

section Writers

variable {fingerprintOf : Tree → String} {tree : Tree} {cs : List Commit} {d d' : Disk}
variable {directory : ℕ} {mutation : SemanticMutation} {x : Remaining} {op : FileStep}
variable {next : Except StoreError op.Value → Remaining}

/-- The steps of readers leave a writer where it is. -/
theorem WriterAt.replayed (hs : Settled tree cs d)
    (h : WriterAt fingerprintOf cs d directory mutation x) (hr : Replayed cs d d') :
    WriterAt fingerprintOf cs d' directory mutation x := by
  have hadvances := hr.advances hs
  cases h with
  | recovers unpublished => exact .recovers unpublished
  | replays unpublished last replaying =>
    exact .replays unpublished last (replaying.advances hadvances)
  | checksBase unpublished journal => exact .checksBase unpublished (hr.journal_none journal)
  | stages unpublished journal left_mem staged =>
    refine .stages unpublished (hr.journal_none journal) left_mem fun w hw hop => ?_
    rw [hr.staging (s := stagingPath directory w) unpublished.fresh]
    exact staged w hw hop
  | applies last replaying => exact .applies last (replaying.advances hadvances)
  | removes published journal => exact .removes published (hr.journal_none journal)
  | returns answered => exact .returns answered

/-- What a step of a writer leads to. -/
structure WriterGoes (fingerprintOf : Tree → String) (tree : Tree) (cs : List Commit) (d : Disk)
    (directory : ℕ) (mutation : SemanticMutation) (cs' : List Commit) (d' : Disk) (x : Remaining) :
    Prop where
  settled : Settled tree cs' d'
  at_point : WriterAt fingerprintOf cs' d' directory mutation x
  advances : Advances cs d cs' d'

theorem Replayed.writerGoes (hs : Settled tree cs d) (hr : Replayed cs d d')
    (h : WriterAt fingerprintOf cs d' directory mutation x) :
    WriterGoes fingerprintOf tree cs d directory mutation cs d' x :=
  ⟨hs.replayed hr, h, hr.advances hs⟩

theorem advances_writeStaging {s : StagingPath} (hs : s.directory ∉ cs.map Commit.directory)
    (content : String) : Advances cs d cs (d.writeStaging s content) := by
  refine ⟨fun _ hc => hc, fun c hc hlast => ⟨hlast, fun a ha hdone => ?_⟩⟩
  cases a with
  | delete p => exact hdone
  | write p t =>
    refine (Function.update_of_ne ?_ _ _).trans hdone
    rintro rfl
    exact hs (List.mem_map.2 ⟨c, hc, (directory_of_mem_operations ha).symm⟩)

theorem advances_removeStaging (directory : ℕ) : Advances cs d cs (d.removeStaging directory) := by
  refine ⟨fun _ hc => hc, fun c hc hlast => ⟨hlast, fun a ha hdone => ?_⟩⟩
  cases a with
  | delete p => exact hdone
  | write p t => exact staging_removeStaging_none hdone directory

theorem advances_publish (hfresh : directory ∉ cs.map Commit.directory)
    (writes : List SemanticSourceWrite) (d' : Disk) :
    Advances cs d (cs ++ [⟨directory, writes⟩]) d' := by
  refine ⟨fun c hc => List.mem_append_left _ hc, fun c hc hlast => ?_⟩
  rw [List.getLast?_append_cons] at hlast
  obtain rfl : (⟨directory, writes⟩ : Commit) = c := by simpa using hlast
  exact absurd (List.mem_map.2 ⟨_, hc, rfl⟩) hfresh

theorem commitOf_eq_none {p : ℕ} {call : SourceCall} {r : Except StoreError op.Value}
    (h : op.publishes = false) : commitOf (.exec p call op r) = none := by
  cases call with
  | load => cases op <;> rfl
  | persist directory mutation => cases op <;> first | rfl | cases h

theorem WriterGoes.stages {left : List SemanticSourceWrite} (hs : Settled tree cs d)
    (unpublished : Unpublished cs directory mutation) (journal : d.journal = none)
    (left_mem : ∀ w ∈ left, w ∈ mutation.writes)
    (staged : ∀ w ∈ mutation.writes, w.operation = .write →
      w ∈ left ∨ d.staging (stagingPath directory w) = w.content)
    (hx : Program.call op next =
      (attempt directory (stagingRest directory mutation.writes left)).run) (p : ℕ) :
    WriterGoes fingerprintOf tree cs d directory mutation
      (cs ++ (commitOf (.exec p (.persist directory mutation) op (Disk.exec op d).1)).toList)
      (Disk.exec op d).2 (next (Disk.exec op d).1) := by
  induction left with
  | nil =>
    obtain ⟨rfl, hnext⟩ := (proceeds_attempt proceeds_stagingRest_nil).next hx
    have hstaged : Staged directory mutation.writes d := fun w hw hop =>
      (staged w hw hop).resolve_left List.not_mem_nil
    have hlast : (cs ++ [(⟨directory, mutation.writes⟩ : Commit)]).getLast? =
        some ⟨directory, mutation.writes⟩ := by
      rw [List.getLast?_append_cons]
      rfl
    rw [hnext]
    refine ⟨hs.publish journal unpublished.fresh unpublished.checked hstaged,
      .applies hlast ⟨?_, fun a ha => ha, fun _ a ha => Or.inl ha⟩,
      advances_publish unpublished.fresh mutation.writes _⟩
    exact List.mem_append_right _ (List.mem_singleton.2 rfl)
  | cons v left ih =>
    have hleft : ∀ w ∈ left, w ∈ mutation.writes := fun w hw =>
      left_mem w (List.mem_cons_of_mem v hw)
    have hv := left_mem v (List.mem_cons_self ..)
    cases hop : v.operation with
    | delete =>
      rw [stagingRest_delete hop] at hx
      refine ih hleft (fun w hw hwrite => ?_) hx
      rcases staged w hw hwrite with hmem | hcontent
      · rcases List.mem_cons.1 hmem with rfl | hmem
        · rw [hop] at hwrite
          cases hwrite
        · exact Or.inl hmem
      · exact Or.inr hcontent
    | write =>
      obtain ⟨rfl, hnext⟩ := (proceeds_attempt (proceeds_stagingRest_write hop)).next hx
      rw [hnext, commitOf_eq_none rfl, Option.toList_none, List.append_nil]
      refine ⟨hs.writeStaging journal unpublished.fresh _,
        .stages unpublished journal hleft fun w hw hwrite => ?_,
        advances_writeStaging unpublished.fresh _⟩
      by_cases hpath : stagingPath directory w = stagingPath directory v
      · have hw' := unpublished.checked w hw
        have hv' := unpublished.checked v hv
        have heffect := (agree_of_checked unpublished.checked w hw v hv
          (hw'.path_injective hv' hpath)).2
        simp only [SemanticSourceWrite.effect, hop, hwrite] at heffect
        obtain ⟨content, hcontent⟩ := Option.ne_none_iff_exists'.1 (hv'.written hop).2
        rw [hpath, heffect, hcontent]
        exact Or.inr (Function.update_self _ _ _)
      · rcases staged w hw hwrite with hmem | hcontent
        · rcases List.mem_cons.1 hmem with rfl | hmem
          · exact absurd rfl hpath
          · exact Or.inl hmem
        · exact Or.inr ((Function.update_of_ne hpath _ _).trans hcontent)

/-- What a step of a writer that holds the lock does, and where it leaves the writer. -/
theorem WriterAt.exec (hs : Settled tree cs d)
    (h : WriterAt fingerprintOf cs d directory mutation (.call op next)) (p : ℕ) :
    WriterGoes fingerprintOf tree cs d directory mutation
      (cs ++ (commitOf (.exec p (.persist directory mutation) op (Disk.exec op d).1)).toList)
      (Disk.exec op d).2 (next (Disk.exec op d).1) := by
  have hharmless : ∀ {c : Commit} (a : JournalOperation),
      cs.getLast? = some c → Harmless cs d (a.step c.directory) := by
    intro c a hlast
    cases a with
    | delete p => exact Or.inl (by rw [hlast, Option.map_some])
    | write p s => trivial
  have hsilent : ∀ {d' : Disk} {x : Remaining}, op.publishes = false →
      WriterGoes fingerprintOf tree cs d directory mutation cs d' x →
      WriterGoes fingerprintOf tree cs d directory mutation
        (cs ++ (commitOf (.exec p (.persist directory mutation) op (Disk.exec op d).1)).toList)
        d' x := by
    intro d' x hpublishes hgoes
    rw [commitOf_eq_none hpublishes, Option.toList_none, List.append_nil]
    exact hgoes
  generalize hx : (Program.call op next : Remaining) = y at h
  cases h with
  | recovers unpublished =>
    obtain ⟨rfl, hnext⟩ := (proceeds_recoverRest (baseRest fingerprintOf directory mutation)).next hx
    rw [hnext]
    refine hsilent rfl (Replayed.nothing.writerGoes hs ?_)
    cases hj : d.journal with
    | none => exact .checksBase unpublished hj
    | some j =>
      obtain ⟨c, hlast, rfl, hreplaying⟩ := hs.replaying hj
      exact .replays unpublished hlast hreplaying
  | @replays c rest unpublished last replaying =>
    cases rest with
    | nil =>
      obtain ⟨rfl, hnext⟩ := proceeds_replayRest_nil.next hx
      have hunlink := replaying.unlink hs (Or.inl (by rw [last, Option.map_some]))
      rw [hnext]
      exact hsilent rfl (hunlink.writerGoes hs (.checksBase unpublished rfl))
    | cons a rest =>
      obtain ⟨rfl, hnext⟩ := proceeds_replayRest_cons.next hx
      obtain ⟨hreplayed, hreplaying⟩ := replaying.carryOut hs (hharmless a last)
      rw [hnext, exec_step]
      refine hsilent (publishes_of_replays ?_) (hreplayed.writerGoes hs ?_)
      · rw [replays_step]
        exact Option.some_ne_none _
      · exact .replays unpublished last hreplaying
  | checksBase unpublished journal =>
    have hstages : ∀ w ∈ mutation.writes, w.operation = .write →
        w ∈ mutation.writes ∨ d.staging (stagingPath directory w) = w.content :=
      fun w hw _ => Or.inl hw
    cases hexpected : mutation.expectedBaseFingerprint with
    | none =>
      rw [baseRest_none fingerprintOf hexpected] at hx
      exact .stages hs unpublished journal (fun w hw => hw) hstages hx p
    | some expected =>
      obtain ⟨rfl, hnext⟩ := (proceeds_baseRest fingerprintOf hexpected).next hx
      rw [hnext]
      refine hsilent rfl (Replayed.nothing.writerGoes hs ?_)
      split_ifs with hchanged
      · exact .returns ⟨nofun, fun _ => unpublished.fresh⟩
      · exact .stages unpublished journal (fun w hw => hw) hstages
  | stages unpublished journal left_mem staged =>
    exact .stages hs unpublished journal left_mem staged hx p
  | @applies rest last replaying =>
    cases rest with
    | nil =>
      obtain ⟨rfl, hnext⟩ := (proceeds_attempt proceeds_applyingRest_nil).next hx
      have hunlink := replaying.unlink hs (Or.inl (by rw [last, Option.map_some]))
      rw [hnext, attempt_pure]
      exact hsilent rfl (hunlink.writerGoes hs (.removes replaying.published rfl))
    | cons a rest =>
      obtain ⟨rfl, hnext⟩ := (proceeds_attempt proceeds_applyingRest_cons).next hx
      obtain ⟨hreplayed, hreplaying⟩ := replaying.carryOut hs (hharmless a last)
      rw [hnext, exec_step]
      refine hsilent (publishes_of_replays ?_) (hreplayed.writerGoes hs ?_)
      · rw [replays_step]
        exact Option.some_ne_none _
      · exact .applies last hreplaying
  | removes published journal =>
    obtain ⟨rfl, hnext⟩ := proceeds_removingRest.next hx
    rw [hnext]
    refine hsilent rfl ⟨hs.removeStaging journal directory, .returns ⟨fun _ => Or.inr published, ?_⟩,
      advances_removeStaging directory⟩
    exact fun hne => absurd rfl hne
  | returns answered => cases hx

/-- A writer that has returned says of its own write set what is so. -/
theorem WriterAt.answered {answer : Except StoreError SourceAnswer}
    (h : WriterAt fingerprintOf cs d directory mutation (.pure answer)) :
    Answered cs directory mutation.writes answer := by
  generalize hx : (Program.pure answer : Remaining) = x at h
  cases h with
  | recovers unpublished => exact absurd hx ((proceeds_recoverRest _).ne_pure answer)
  | @replays c rest unpublished last replaying =>
    cases rest with
    | nil => exact absurd hx (proceeds_replayRest_nil.ne_pure answer)
    | cons a rest => exact absurd hx (proceeds_replayRest_cons.ne_pure answer)
  | checksBase unpublished journal =>
    exact absurd hx (baseRest_ne_pure fingerprintOf mutation answer)
  | stages unpublished journal left_mem staged =>
    exact absurd hx (stagingRest_ne_pure directory mutation.writes _ answer)
  | @applies rest last replaying =>
    cases rest with
    | nil => exact absurd hx ((proceeds_attempt proceeds_applyingRest_nil).ne_pure answer)
    | cons a rest => exact absurd hx ((proceeds_attempt proceeds_applyingRest_cons).ne_pure answer)
  | removes published journal => exact absurd hx (proceeds_removingRest.ne_pure answer)
  | returns answered =>
    cases hx
    exact answered

end Writers

variable {fingerprintOf : Tree → String}

section Conditions

/-- The lock: a commit begins only when every other call is a load. -/
def HoldsLock (_ : List SourceEvent) (k : SourceConfig) : SourceEvent → Prop
  | .invoke _ (.persist _ _) => ∀ q c x, k.threads q = some (c, x) → c = .load
  | _ => True

def DrawsFresh (before : List SourceEvent) (_ : SourceConfig) : SourceEvent → Prop
  | .invoke _ (.persist directory _) => directory ∉ drawn before
  | _ => True

/-- What a load does for a journal that was replaced by a later one has no effect that
matters. -/
def LoadsHarmlessly (before : List SourceEvent) (k : SourceConfig) : SourceEvent → Prop
  | .exec _ .load step _ => Harmless (commits before) k.shared step
  | _ => True

/-- The conditions together. -/
structure Allowed (before : List SourceEvent) (k : SourceConfig) (e : SourceEvent) : Prop where
  lock : HoldsLock before k e
  fresh : DrawsFresh before k e
  harmless : LoadsHarmlessly before k e

end Conditions

section Accounted

variable {tree : Tree} {es : List SourceEvent} {k k' : SourceConfig} {e : SourceEvent}

theorem commits_snoc (es : List SourceEvent) (e : SourceEvent) :
    commits (es ++ [e]) = commits es ++ (commitOf e).toList := by
  simp only [commits, List.filterMap_append, List.filterMap_cons, List.filterMap_nil]
  cases commitOf e <;> rfl

theorem drawn_snoc (es : List SourceEvent) (e : SourceEvent) :
    drawn (es ++ [e]) = drawn es ++ (drawnBy e).toList := by
  simp only [drawn, List.filterMap_append, List.filterMap_cons, List.filterMap_nil]
  cases drawnBy e <;> rfl

/-- A call with the given name is under way. -/
def SourceConfig.Writing (k : SourceConfig) (directory : ℕ) : Prop :=
  ∃ p mutation x, k.threads p = some (.persist directory mutation, x)

/-- What holds of every configuration that such a run reaches. -/
structure Accounted (fingerprintOf : Tree → String) (tree : Tree) (es : List SourceEvent)
    (k : SourceConfig) : Prop where
  settled : Settled tree (commits es) k.shared
  readers : ∀ p x, k.threads p = some (.load, x) → ReaderAt (commits es) k.shared x
  writers : ∀ p directory mutation x, k.threads p = some (.persist directory mutation, x) →
    WriterAt fingerprintOf (commits es) k.shared directory mutation x
  alone : ∀ p q directory mutation directory' mutation' x y,
    k.threads p = some (.persist directory mutation, x) →
    k.threads q = some (.persist directory' mutation', y) → p = q
  writing : ∀ directory, SourceConfig.Writing k directory → directory ∈ drawn es
  published : ∀ c ∈ commits es, c.directory ∈ drawn es
  answered : ∀ p directory mutation answer, .response p (.persist directory mutation) answer ∈ es →
    Answered (commits es) directory mutation.writes answer ∧ directory ∈ drawn es ∧
      ¬ SourceConfig.Writing k directory

theorem accounted_idle {d : Disk} (hd : d.journal = none) :
    Accounted fingerprintOf d.source [] (Config.idle d) where
  settled := settled_nil hd
  readers p x h := by simp at h
  writers p directory mutation x h := by simp at h
  alone p q directory mutation directory' mutation' x y h := by simp at h
  writing directory := by
    rintro ⟨p, mutation, x, h⟩
    simp at h
  published c hc := by cases hc
  answered p directory mutation answer h := by cases h

theorem Accounted.leave (h : Accounted fingerprintOf tree es k) (p : ℕ)
    (hcommit : commitOf e = none) (hdrawn : drawnBy e = none)
    (hanswer : ∀ q directory mutation answer, e = .response q (.persist directory mutation) answer →
      Answered (commits es) directory mutation.writes answer ∧ directory ∈ drawn es ∧
        ¬ SourceConfig.Writing (k.setThread p none) directory) :
    Accounted fingerprintOf tree (es ++ [e]) (k.setThread p none) := by
  have hcommits : commits (es ++ [e]) = commits es := by
    rw [commits_snoc, hcommit, Option.toList_none, List.append_nil]
  have hnames : drawn (es ++ [e]) = drawn es := by
    rw [drawn_snoc, hdrawn, Option.toList_none, List.append_nil]
  have hthread : ∀ {q c x}, (k.setThread p none).threads q = some (c, x) →
      k.threads q = some (c, x) := by
    intro q c x hq
    by_cases hqp : q = p
    · rw [hqp, k.setThread_same] at hq
      cases hq
    · rwa [k.setThread_other hqp] at hq
  have hwriting : ∀ {directory}, SourceConfig.Writing (k.setThread p none) directory →
      SourceConfig.Writing k directory := by
    rintro directory ⟨q, mutation, x, hq⟩
    exact ⟨q, mutation, x, hthread hq⟩
  refine ⟨?_, ?_, ?_, ?_, ?_, ?_, ?_⟩
  · rw [hcommits]
    exact h.settled
  · intro q x hq
    rw [hcommits]
    exact h.readers q x (hthread hq)
  · intro q directory mutation x hq
    rw [hcommits]
    exact h.writers q directory mutation x (hthread hq)
  · intro q q' directory mutation directory' mutation' x y hq hq'
    exact h.alone q q' _ _ _ _ x y (hthread hq) (hthread hq')
  · intro directory hdirectory
    rw [hnames]
    exact h.writing directory (hwriting hdirectory)
  · rw [hcommits, hnames]
    exact h.published
  · intro q directory mutation answer hmem
    rw [hcommits, hnames]
    rcases List.mem_append.1 hmem with hmem | hmem
    · obtain ⟨hanswered, hdirectory, hfree⟩ := h.answered q directory mutation answer hmem
      exact ⟨hanswered, hdirectory, fun hw => hfree (hwriting hw)⟩
    · exact hanswer q directory mutation answer (List.mem_singleton.1 hmem).symm

/-- What a step of the process `p` has to give for everything to go on. -/
structure GoesOn (fingerprintOf : Tree → String) (tree : Tree) (es : List SourceEvent)
    (k : SourceConfig) (p : ℕ) (call : SourceCall) (cs : List Commit) (d : Disk) (x : Remaining) :
    Prop where
  settled : Settled tree cs d
  advances : Advances (commits es) k.shared cs d
  reader : call = .load → ReaderAt cs d x
  writer : ∀ directory mutation, call = .persist directory mutation →
    WriterAt fingerprintOf cs d directory mutation x
  others : ∀ q directory mutation y, q ≠ p → k.threads q = some (.persist directory mutation, y) →
    WriterAt fingerprintOf cs d directory mutation y
  published : ∀ c ∈ cs, c ∈ commits es ∨ SourceConfig.Writing k c.directory

variable {call : SourceCall}

section

variable (h : Accounted fingerprintOf tree es k)
include h

theorem Accounted.goOn {p : ℕ} {x y : Remaining} {d : Disk} (hp : k.threads p = some (call, y))
    (hdrawn : drawnBy e = none) (hresponse : ∀ q c answer, e ≠ .response q c answer)
    (hgoes : GoesOn fingerprintOf tree es k p call (commits (es ++ [e])) d x) :
    Accounted fingerprintOf tree (es ++ [e])
      (Config.setThread { k with shared := d } p (some (call, x))) := by
  have hnames : drawn (es ++ [e]) = drawn es := by
    rw [drawn_snoc, hdrawn, Option.toList_none, List.append_nil]
  have hthread : ∀ {q c z}, (Config.setThread { k with shared := d } p (some (call, x))).threads q =
      some (c, z) → (q = p ∧ c = call ∧ z = x) ∨ (q ≠ p ∧ k.threads q = some (c, z)) := by
    intro q c z hq
    by_cases hqp : q = p
    · rw [hqp, Config.setThread_same] at hq
      cases hq
      exact Or.inl ⟨hqp, rfl, rfl⟩
    · rw [Config.setThread_other _ hqp] at hq
      exact Or.inr ⟨hqp, hq⟩
  have hbefore : ∀ {q c z}, (Config.setThread { k with shared := d } p (some (call, x))).threads q =
      some (c, z) → ∃ z', k.threads q = some (c, z') := by
    intro q c z hq
    rcases hthread hq with ⟨rfl, rfl, rfl⟩ | ⟨-, hq⟩
    · exact ⟨y, hp⟩
    · exact ⟨z, hq⟩
  have hwriting : ∀ {directory}, SourceConfig.Writing
      (Config.setThread { k with shared := d } p (some (call, x))) directory →
      SourceConfig.Writing k directory := by
    rintro directory ⟨q, mutation, z, hq⟩
    obtain ⟨z', hz'⟩ := hbefore hq
    exact ⟨q, mutation, z', hz'⟩
  refine ⟨hgoes.settled, ?_, ?_, ?_, ?_, ?_, ?_⟩
  · intro q z hq
    rcases hthread hq with ⟨-, hcall, rfl⟩ | ⟨-, hq⟩
    · exact hgoes.reader hcall.symm
    · exact (h.readers q z hq).advances hgoes.advances
  · intro q directory mutation z hq
    rcases hthread hq with ⟨-, hcall, rfl⟩ | ⟨hne, hq⟩
    · exact hgoes.writer directory mutation hcall.symm
    · exact hgoes.others q directory mutation z hne hq
  · intro q q' directory mutation directory' mutation' z z' hq hq'
    obtain ⟨w, hw⟩ := hbefore hq
    obtain ⟨w', hw'⟩ := hbefore hq'
    exact h.alone q q' _ _ _ _ w w' hw hw'
  · intro directory hdirectory
    rw [hnames]
    exact h.writing directory (hwriting hdirectory)
  · intro c hc
    rw [hnames]
    rcases hgoes.published c hc with hold | hnew
    · exact h.published c hold
    · exact h.writing c.directory hnew
  · intro q directory mutation answer hmem
    rw [hnames]
    rcases List.mem_append.1 hmem with hmem | hmem
    · obtain ⟨hanswered, hdirectory, hfree⟩ := h.answered q directory mutation answer hmem
      refine ⟨⟨fun hok => (hanswered.ok hok).imp id (hgoes.advances.kept _), fun hother => ?_⟩,
        hdirectory, fun hw => hfree (hwriting hw)⟩
      intro hin
      obtain ⟨c, hc, rfl⟩ := List.mem_map.1 hin
      rcases hgoes.published c hc with hold | hnew
      · exact hanswered.other hother (List.mem_map.2 ⟨c, hold, rfl⟩)
      · exact hfree hnew
    · exact absurd (List.mem_singleton.1 hmem).symm (hresponse q _ answer)

theorem Accounted.begin {p : ℕ} (hp : k.threads p = none)
    (hallowed : Allowed es k (.invoke p call)) :
    Accounted fingerprintOf tree (es ++ [.invoke p call])
      (k.setThread p (some (call, call.program fingerprintOf))) := by
  have hcommits : commits (es ++ [.invoke p call]) = commits es := by
    rw [commits_snoc, show commitOf (.invoke p call) = none from rfl, Option.toList_none,
      List.append_nil]
  have hnames : ∀ directory ∈ drawn es, directory ∈ drawn (es ++ [.invoke p call]) := by
    intro directory hdirectory
    rw [drawn_snoc]
    exact List.mem_append_left _ hdirectory
  have hthread : ∀ {q c z}, (k.setThread p (some (call, call.program fingerprintOf))).threads q =
      some (c, z) → (q = p ∧ c = call ∧ z = call.program fingerprintOf) ∨
        (q ≠ p ∧ k.threads q = some (c, z)) := by
    intro q c z hq
    by_cases hqp : q = p
    · rw [hqp, Config.setThread_same] at hq
      cases hq
      exact Or.inl ⟨hqp, rfl, rfl⟩
    · rw [Config.setThread_other _ hqp] at hq
      exact Or.inr ⟨hqp, hq⟩
  refine ⟨?_, ?_, ?_, ?_, ?_, ?_, ?_⟩
  · rw [hcommits]
    exact h.settled
  · intro q z hq
    rw [hcommits]
    rcases hthread hq with ⟨-, rfl, rfl⟩ | ⟨-, hq⟩
    · rw [program_load]
      exact .recovers
    · exact h.readers q z hq
  · intro q directory mutation z hq
    rw [hcommits]
    rcases hthread hq with ⟨-, rfl, rfl⟩ | ⟨-, hq⟩
    · have hfresh : directory ∉ (commits es).map Commit.directory := by
        intro hin
        obtain ⟨c, hc, rfl⟩ := List.mem_map.1 hin
        exact hallowed.fresh (h.published c hc)
      rw [program_persist]
      cases hcheck : checkWrites mutation.canonicalWrites mutation.writes with
      | error error => exact .returns ⟨nofun, fun _ => hfresh⟩
      | ok u =>
        dsimp only
        split_ifs with hempty
        · exact .returns ⟨fun _ => Or.inl hempty, fun hne => absurd rfl hne⟩
        · exact .recovers ⟨checkWrites_eq_ok hcheck, hfresh⟩
    · exact h.writers q directory mutation z hq
  · intro q q' directory mutation directory' mutation' z z' hq hq'
    rcases hthread hq with ⟨rfl, rfl, -⟩ | ⟨-, hold⟩
    · rcases hthread hq' with ⟨rfl, -, -⟩ | ⟨-, hold'⟩
      · rfl
      · cases hallowed.lock q' _ z' hold'
    · rcases hthread hq' with ⟨rfl, rfl, -⟩ | ⟨-, hold'⟩
      · cases hallowed.lock q _ z hold
      · exact h.alone q q' _ _ _ _ z z' hold hold'
  · rintro directory ⟨q, mutation, z, hq⟩
    rcases hthread hq with ⟨-, rfl, -⟩ | ⟨-, hq⟩
    · rw [drawn_snoc]
      exact List.mem_append_right _ (List.mem_singleton.2 rfl)
    · exact hnames directory (h.writing directory ⟨q, mutation, z, hq⟩)
  · intro c hc
    rw [hcommits] at hc
    exact hnames c.directory (h.published c hc)
  · intro q directory mutation answer hmem
    rw [hcommits]
    rcases List.mem_append.1 hmem with hmem | hmem
    · obtain ⟨hanswered, hdirectory, hfree⟩ := h.answered q directory mutation answer hmem
      refine ⟨hanswered, hnames directory hdirectory, ?_⟩
      rintro ⟨q', mutation', z, hq'⟩
      rcases hthread hq' with ⟨-, rfl, -⟩ | ⟨-, hq'⟩
      · exact hallowed.fresh hdirectory
      · exact hfree ⟨q', mutation', z, hq'⟩
    · cases List.mem_singleton.1 hmem

theorem Accounted.step
    (hstep : Step (SourceCall.program fingerprintOf) (exactly Disk.exec) k e k')
    (hallowed : Allowed es k e) : Accounted fingerprintOf tree (es ++ [e]) k' := by
  cases hstep with
  | invoke call free => exact h.begin free hallowed
  | @exec p call op next r s' at_call outcome =>
    have hr : r = (Disk.exec op k.shared).1 := congrArg Prod.fst outcome
    have hs' : s' = (Disk.exec op k.shared).2 := congrArg Prod.snd outcome
    rw [hr, hs']
    refine h.goOn at_call (by cases call <;> rfl) nofun ?_
    rw [commits_snoc]
    cases call with
    | load =>
      obtain ⟨hreplayed, hat⟩ := (h.readers p _ at_call).exec h.settled hallowed.harmless
      rw [show commitOf (.exec p .load op (Disk.exec op k.shared).1) = none from rfl,
        Option.toList_none, List.append_nil]
      exact ⟨h.settled.replayed hreplayed, hreplayed.advances h.settled, fun _ => hat, nofun,
        fun q directory mutation y _ hq => (h.writers q directory mutation y hq).replayed
          h.settled hreplayed, fun c hc => Or.inl hc⟩
    | persist directory mutation =>
      have hgoes := (h.writers p directory mutation _ at_call).exec h.settled p
      refine ⟨hgoes.settled, hgoes.advances, nofun, ?_, ?_, ?_⟩
      · rintro _ _ ⟨⟩
        exact hgoes.at_point
      · intro q directory' mutation' y hne hq
        exact absurd (h.alone q p _ _ _ _ y _ hq at_call) hne
      · intro c hc
        rcases List.mem_append.1 hc with hc | hc
        · exact Or.inl hc
        · refine Or.inr ?_
          have hcommit := Option.mem_toList.1 hc
          cases op <;> cases hcommit
          exact ⟨p, mutation, _, at_call⟩
  | @response p call answer at_return =>
    refine h.leave p rfl rfl ?_
    rintro q directory mutation answer' ⟨⟩
    refine ⟨(h.writers p directory mutation _ at_return).answered,
      h.writing directory ⟨p, mutation, _, at_return⟩, ?_⟩
    rintro ⟨q', mutation', y, hq'⟩
    by_cases hqp : q' = p
    · rw [hqp, k.setThread_same] at hq'
      cases hq'
    · rw [k.setThread_other hqp] at hq'
      exact hqp (h.alone q' p _ _ _ _ y _ hq' at_return)
  | crash p =>
    exact h.leave p rfl rfl nofun

end

end Accounted

section Schedules

variable {es after : List SourceEvent} {k k' : SourceConfig} {d₀ : Disk} {q : ℕ}

/-- The process answers, or no other commit begins. -/
def answersFirst (q : ℕ) : List SourceEvent → Bool
  | [] => true
  | .response q' (.persist _ _) _ :: es => decide (q' = q) || answersFirst q es
  | .invoke _ (.persist _ _) :: _ => false
  | _ :: es => answersFirst q es

/-- Each commit has answered before the next one begins. -/
def oneAtATime : List SourceEvent → Bool
  | [] => true
  | .invoke q (.persist _ _) :: es => answersFirst q es && oneAtATime es
  | _ :: es => oneAtATime es

theorem answersFirst_response {p directory : ℕ} {mutation : SemanticMutation}
    {since : List SourceEvent}
    (h : answersFirst q (since ++ .invoke p (.persist directory mutation) :: after) = true) :
    ∃ directory' mutation' answer, .response q (.persist directory' mutation') answer ∈ since := by
  induction since with
  | nil => cases h
  | cons e since ih =>
    have hrest : answersFirst q (since ++ .invoke p (.persist directory mutation) :: after) = true →
        ∃ directory' mutation' answer,
          .response q (.persist directory' mutation') answer ∈ e :: since := by
      intro hrest
      obtain ⟨directory', mutation', answer, hmem⟩ := ih hrest
      exact ⟨directory', mutation', answer, List.mem_cons_of_mem e hmem⟩
    cases e with
    | invoke p' call =>
      cases call with
      | load => exact hrest h
      | persist directory' mutation' => cases h
    | exec p' call op r => exact hrest h
    | response q' call answer =>
      cases call with
      | load => exact hrest h
      | persist directory' mutation' =>
        rcases (Bool.or_eq_true _ _).mp h with heq | h
        · obtain rfl : q' = q := of_decide_eq_true heq
          exact ⟨directory', mutation', answer, List.mem_cons_self ..⟩
        · exact hrest h
    | crash p' => exact hrest h

theorem oneAtATime_append {before : List SourceEvent}
    (h : oneAtATime (before ++ es) = true) : oneAtATime es = true := by
  induction before with
  | nil => exact h
  | cons e before ih =>
    refine ih ?_
    cases e with
    | invoke p call =>
      cases call with
      | load => exact h
      | persist directory mutation => exact ((Bool.and_eq_true _ _).mp h).2
    | exec p call op r => exact h
    | response p call answer => exact h
    | crash p => exact h

/-- In a run in which each commit has answered before the next one begins, commits hold the
lock. -/
theorem holdsLock_of_oneAtATime (h : oneAtATime es = true) :
    EachStep (SourceCall.program fingerprintOf) (exactly Disk.exec) HoldsLock
      (Config.idle d₀) es k := by
  rintro before e after k₁ k₂ rfl hbefore - -
  cases e with
  | invoke p call =>
    cases call with
    | load => trivial
    | persist directory mutation =>
      intro q c x hq
      cases c with
      | load => rfl
      | persist directory' mutation' =>
        obtain ⟨b, since, rfl, honly, -⟩ := (hbefore.inside (fun _ => rfl) hq).history
        rw [List.append_assoc] at h
        have hfirst : answersFirst q (since ++ .invoke p (.persist directory mutation) :: after) =
            true := ((Bool.and_eq_true _ _).mp (oneAtATime_append h)).1
        obtain ⟨_, _, answer, hmem⟩ := answersFirst_response hfirst
        obtain ⟨op, r, heq⟩ := honly _ hmem rfl
        cases heq
  | exec p call op r => trivial
  | response p call answer => trivial
  | crash p => trivial

theorem drawsFresh_of_nodup (h : (drawn es).Nodup) :
    EachStep (SourceCall.program fingerprintOf) (exactly Disk.exec) DrawsFresh
      (Config.idle d₀) es k := by
  rintro before e after k₁ k₂ rfl - - -
  cases e with
  | invoke p call =>
    cases call with
    | load => trivial
    | persist directory mutation =>
      simp only [drawn, List.filterMap_append, List.filterMap_cons, drawnBy] at h
      intro hmem
      exact (List.nodup_append.1 h).2.2 _ hmem _ (List.mem_cons_self ..) rfl
  | exec p call op r => trivial
  | response p call answer => trivial
  | crash p => trivial

def loadsOnly : SourceEvent → Bool
  | .exec _ .load step _ => step.replays = none
  | _ => true

theorem loadsHarmlessly_of_loadsOnly (h : es.all loadsOnly = true) :
    EachStep (SourceCall.program fingerprintOf) (exactly Disk.exec) LoadsHarmlessly
      (Config.idle d₀) es k := by
  rintro before e after k₁ k₂ rfl - - -
  have he : loadsOnly e = true := by
    rw [List.all_append, List.all_cons, Bool.and_eq_true, Bool.and_eq_true] at h
    exact h.2.1
  cases e with
  | exec p call op r =>
    cases call with
    | load => cases op <;> trivial
    | persist directory mutation => trivial
  | invoke p call => trivial
  | response p call answer => trivial
  | crash p => trivial

/-- A run of calls whose commits hold the lock one at a time and draw different names, until
every call has ended. -/
structure Respects (fingerprintOf : Tree → String) (d₀ : Disk) (es : List SourceEvent)
    (k : SourceConfig) : Prop where
  run : Run (SourceCall.program fingerprintOf) (exactly Disk.exec) (Config.idle d₀) es k
  lock : EachStep (SourceCall.program fingerprintOf) (exactly Disk.exec) HoldsLock
    (Config.idle d₀) es k
  fresh : EachStep (SourceCall.program fingerprintOf) (exactly Disk.exec) DrawsFresh
    (Config.idle d₀) es k
  ended : ∀ p, k.threads p = none

theorem ended_of_processes (hrun : Run (SourceCall.program fingerprintOf) (exactly Disk.exec)
    (Config.idle d₀) es k) {ps : List ℕ} (hes : es.all (fun e => e.process ∈ ps) = true)
    (hps : ps.all (fun p => (k.threads p).isNone) = true) (p : ℕ) : k.threads p = none := by
  by_cases hp : p ∈ ps
  · exact Option.isNone_iff_eq_none.1 (List.all_eq_true.1 hps p hp)
  · by_contra hthread
    obtain ⟨⟨c, x⟩, hthread⟩ := Option.ne_none_iff_exists'.1 hthread
    obtain ⟨before, since, rfl, -, -⟩ := (hrun.inside (fun _ => rfl) hthread).history
    have hmem := List.all_eq_true.1 hes (.invoke p c) (by simp)
    exact hp (of_decide_eq_true hmem)

theorem recovers_self {d : Disk} (h : d.journal = none) : Recovers d d := by
  obtain ⟨source, staging, journal⟩ := d
  obtain rfl : journal = none := h
  exact .succeeds (.call (Or.inl rfl) (.returned _ _))

def loadBesideCommit : List (Move SourceCall StoreError) :=
  [.invoke 0 (.persist 1 twoFiles), .exec 0, .invoke 1 .load, .exec 0, .exec 1, .exec 0, .exec 0,
    .exec 1, .exec 0, .exec 0, .respond 1, .exec 0, .exec 0, .respond 0]

/-- The write set that removes a file, and the one that brings it back. -/
def removal : SemanticMutation :=
  ⟨[⟨".mottainai/semantics/relations/a.json", .delete, none⟩], fun _ => none, none⟩

def replacement : SemanticMutation :=
  ⟨[⟨".mottainai/semantics/relations/a.json", .write, some "{}"⟩],
    fun path => if path = ".mottainai/semantics/relations/a.json" then some "{}" else none, none⟩

/-- A load reads the journal of the first commit and goes on when the second one has
returned. -/
def overtakenLoad : List (Move SourceCall StoreError) :=
  [.invoke 0 (.persist 1 removal), .exec 0, .exec 0, .invoke 1 .load, .exec 1, .exec 0, .exec 0,
    .exec 0, .respond 0, .invoke 0 (.persist 2 replacement), .exec 0, .exec 0, .exec 0, .exec 0,
    .exec 0, .exec 0, .respond 0, .exec 1, .exec 1, .exec 1, .respond 1]

end Schedules

end Mottainai.SemanticSource

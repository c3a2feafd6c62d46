import Mathlib.Data.List.Nodup
import Mathlib.Data.Option.Basic
import Mottainai.SemanticCommits

/-!
# Killed commits and readers beside the writers

A commit that was killed anywhere is finished by the next recovery, or it has not begun. A commit
one of whose operations fails after the journal was published is not: the writer itself removes the
staged files, and the recovery takes a missing staged file for one that has already been renamed.
Readers recover without the lock. As long as a reader carries out only operations of the journal
that was published last, every reachable disk leads to the tree that results from all published
write sets in their order.
-/

namespace Mottainai.SemanticSource

open Interleaving JavaScriptValues

section Torn

variable {canonicalWrites tree : Tree} {writes : List SemanticSourceWrite}
variable {w : SemanticSourceWrite} {directory i : ℕ} {d d' : Disk} {l : StepAnswers}

/-- After the journal was published `i` operations were carried out, then a step failed, and
then the staging directory was removed. -/
def TornAt (directory : ℕ) (l : StepAnswers) (i : ℕ) : Prop :=
  ∃ before step, afterPublication l = before ++
    [⟨step, .error .io⟩, ⟨.removeStaging directory, .ok ()⟩] ∧ before.length = i

theorem TornAt.unique {i j : ℕ} (hi : TornAt directory l i) (hj : TornAt directory l j) : i = j := by
  obtain ⟨before, step, heq, rfl⟩ := hi
  obtain ⟨before', step', heq', rfl⟩ := hj
  have hlength := congrArg List.length (heq.symm.trans heq')
  simpa using hlength

/-- The tree after the first `i` writes and all the deletions. -/
def tornTree (writes : List SemanticSourceWrite) (i : ℕ) (tree : Tree) : Tree :=
  applyWrites (writes.take i ++ writes.filter (fun w => w.operation = .delete)) tree

theorem torn_subset (writes : List SemanticSourceWrite) (i : ℕ) :
    writes.take i ++ writes.filter (fun w => w.operation = .delete) ⊆ writes :=
  List.append_subset.2 ⟨List.take_subset i writes, List.filter_sublist.subset⟩

theorem tornTree_eq_before (h : Agree writes) :
    tornTree writes i tree = tree ↔
      ∀ w ∈ writes, w ∈ writes.take i ∨ w.operation = .delete → ¬ w.Changes tree := by
  rw [tornTree, (h.subset (torn_subset writes i)).applyWrites_eq_self]
  constructor
  · intro hsame w hw hcarried
    refine hsame w (List.mem_append.2 (hcarried.imp id fun hdelete => ?_))
    exact List.mem_filter.2 ⟨hw, by simpa using hdelete⟩
  · intro hsame w hw
    refine hsame w (torn_subset writes i hw) ((List.mem_append.1 hw).imp id fun hfilter => ?_)
    simpa using (List.mem_filter.1 hfilter).2

theorem tornTree_eq_after (h : Agree writes) :
    tornTree writes i tree = applyWrites writes tree ↔
      ∀ w ∈ writes, w.operation = .write → w ∉ writes.take i → ¬ w.Changes tree := by
  have hsome : Agree (writes.take i ++ writes.filter (fun w => w.operation = .delete)) :=
    h.subset (torn_subset writes i)
  have hlost : ∀ w ∈ writes, w.operation = .write → w ∉ writes.take i →
      ∀ w' ∈ writes.take i ++ writes.filter (fun w => w.operation = .delete), w'.path ≠ w.path := by
    intro w hw hop hnot w' hw' hpath
    have hsame := h w' (torn_subset writes i hw') w hw hpath
    rcases List.mem_append.1 hw' with hmem | hmem
    · have heffect := hsame.2
      simp only [SemanticSourceWrite.effect, hsame.1, hop] at heffect
      obtain ⟨path, operation, content⟩ := w
      obtain ⟨path', operation', content'⟩ := w'
      obtain ⟨rfl, rfl, rfl⟩ : path' = path ∧ operation' = operation ∧ content' = content :=
        ⟨hpath, hsame.1, heffect⟩
      exact hnot hmem
    · have hdelete : w'.operation = .delete := by simpa using (List.mem_filter.1 hmem).2
      rw [hsame.1, hop] at hdelete
      cases hdelete
  constructor
  · intro heq w hw hop hnot
    have hpath := congrFun heq w.path
    rw [h.applyWrites_path hw, tornTree, applyWrites_of_ne (hlost w hw hop hnot)] at hpath
    exact not_not.2 hpath
  · intro hsame
    funext path
    by_cases hpath : ∃ w ∈ writes, w.path = path
    · obtain ⟨w, hw, rfl⟩ := hpath
      rw [h.applyWrites_path hw]
      by_cases hcarried : w ∈ writes.take i ++ writes.filter (fun w => w.operation = .delete)
      · exact hsome.applyWrites_path hcarried
      · rw [List.mem_append, not_or] at hcarried
        have hop : w.operation = .write := by
          cases hop : w.operation with
          | write => rfl
          | delete => exact absurd (List.mem_filter.2 ⟨hw, by simpa using hop⟩) hcarried.2
        rw [tornTree, applyWrites_of_ne (hlost w hw hop hcarried.1)]
        exact not_not.1 (hsame w hw hop hcarried.1)
    · have hne : ∀ w ∈ writes, w.path ≠ path := by simpa using hpath
      rw [applyWrites_of_ne hne, tornTree, applyWrites_of_ne]
      exact fun w hw => hne w (torn_subset writes i hw)

theorem staged_published (h : ∀ w ∈ writes, Checked canonicalWrites w) (directory : ℕ) (d : Disk) :
    Staged directory writes (d.published directory writes) :=
  fun _ hw hop => staging_stageAll h hw hop

theorem replayed_published (directory : ℕ) (h : ∀ w ∈ writes, Checked canonicalWrites w) (i : ℕ) :
    replayed (writes.map (journalOperation directory))
      (carryOutAll ((writes.map (journalOperation directory)).take i)
        (d.published directory writes)) = applyWrites writes d.source := by
  rw [(coherent_journalOf h directory).replayed_carryOutAll (List.take_subset i _),
    replayed_of_staged h (staged_published h directory d)]
  simp only [Disk.published, source_stageAll]

theorem replayed_removeStaging (h : ∀ w ∈ writes, Checked canonicalWrites w) (i : ℕ) :
    replayed (writes.map (journalOperation directory))
      ((carryOutAll ((writes.map (journalOperation directory)).take i)
        (d.published directory writes)).removeStaging directory) = tornTree writes i d.source := by
  have hagree := agree_of_checked h
  have hcoherent := coherent_journalOf h directory
  funext path
  by_cases hpath : ∃ w ∈ writes, w.path = path
  · obtain ⟨w, hw, rfl⟩ := hpath
    have hmem := List.mem_map_of_mem (f := journalOperation directory) hw
    have htarget := hcoherent.replayed_target hmem (d := (carryOutAll
      ((writes.map (journalOperation directory)).take i)
        (d.published directory writes)).removeStaging directory)
    rw [targetPath_journalOperation] at htarget
    rw [htarget]
    cases hop : w.operation with
    | delete =>
      have hcarried : w ∈ writes.take i ++ writes.filter (fun w => w.operation = .delete) :=
        List.mem_append_right _ (List.mem_filter.2 ⟨hw, by simpa using hop⟩)
      rw [tornTree, (hagree.subset (torn_subset writes i)).applyWrites_path hcarried]
      simp only [journalOperation, hop, JournalOperation.content, SemanticSourceWrite.effect]
    | write =>
      have hoperation : journalOperation directory w =
          .write w.path (stagingPath directory w) := by simp only [journalOperation, hop]
      have hcontent : (journalOperation directory w).content ((carryOutAll
          ((writes.map (journalOperation directory)).take i)
            (d.published directory writes)).removeStaging directory) =
          (carryOutAll ((writes.map (journalOperation directory)).take i)
            (d.published directory writes)).source w.path := by
        rw [hoperation]
        simp only [JournalOperation.content, Disk.removeStaging, stagingPath, if_pos,
          Option.none_or]
      rw [hcontent]
      by_cases hdone : ∃ w' ∈ writes.take i, w'.path = w.path
      · obtain ⟨w', hw', hsame⟩ := hdone
        have htake : journalOperation directory w' ∈
            (writes.map (journalOperation directory)).take i := by
          rw [← List.map_take]
          exact List.mem_map_of_mem hw'
        have hfinished := content_of_done
          (hcoherent.done_carryOutAll (List.take_subset i _) htake (d.published directory writes))
        rw [targetPath_journalOperation, hsame] at hfinished
        rw [← hfinished, ← hcoherent.replayed_target
          (List.mem_map_of_mem (List.take_subset i writes hw')), targetPath_journalOperation, hsame,
          replayed_published directory h, hagree.applyWrites_path hw, tornTree, ← hsame,
          (hagree.subset (torn_subset writes i)).applyWrites_path (List.mem_append_left _ hw')]
        exact (hagree w' (List.take_subset i writes hw') w hw hsame).2.symm
      · have hne : ∀ w' ∈ writes.take i, w'.path ≠ w.path := by simpa using hdone
        have hlost : ∀ w' ∈ writes.take i ++ writes.filter (fun w => w.operation = .delete),
            w'.path ≠ w.path := by
          intro w' hw'
          rcases List.mem_append.1 hw' with hmem | hmem
          · exact hne w' hmem
          · intro hsame
            have hdelete : w'.operation = .delete := by simpa using (List.mem_filter.1 hmem).2
            rw [(hagree w' (List.filter_sublist.subset hmem) w hw hsame).1, hop] at hdelete
            cases hdelete
        rw [tornTree, applyWrites_of_ne hlost, source_carryOutAll_of_ne]
        · simp only [Disk.published, source_stageAll]
        · intro a ha
          rw [← List.map_take] at ha
          obtain ⟨w', hw', rfl⟩ := List.mem_map.1 ha
          rw [targetPath_journalOperation]
          exact hne w' hw'
  · have hne : ∀ w ∈ writes, w.path ≠ path := by simpa using hpath
    have hne' : ∀ a ∈ writes.map (journalOperation directory), a.targetPath ≠ path := by
      intro a ha
      obtain ⟨w, hw, rfl⟩ := List.mem_map.1 ha
      rw [targetPath_journalOperation]
      exact hne w hw
    rw [replayed_of_ne hne', tornTree,
      applyWrites_of_ne fun w hw => hne w (torn_subset writes i hw)]
    refine (source_carryOutAll_of_ne fun a ha => hne' a (List.take_subset i _ ha)).trans ?_
    simp only [Disk.published, source_stageAll]

end Torn

section Persist

variable {fingerprintOf : Tree → String} {directory : ℕ} {mutation : SemanticMutation}
variable {d d' : Disk} {l : StepAnswers}

theorem halts_removeStagingQuietly {e : Ending (Except StoreError Unit)}
    (h : Halts unreliable (removeStagingQuietly directory).run d l e d') :
    (l = [] ∧ d' = d ∧ e = .killed) ∨
      ((e = .returned (.ok ()) ∨ e = .killed) ∧
        ((l = [⟨.removeStaging directory, .error .io⟩] ∧ d' = d) ∨
          (l = [⟨.removeStaging directory, .ok ()⟩] ∧ d' = d.removeStaging directory))) := by
  have hrun : (removeStagingQuietly directory).run =
      .call (.removeStaging directory) fun _ => .pure (.ok ()) := by
    change Program.call _ _ = Program.call _ _
    congr 1
    funext r
    cases r <;> rfl
  rw [hrun] at h
  rcases halts_call h with ⟨rfl, rfl, rfl⟩ | ⟨r, l', t, rfl, hstep, hrest⟩
  · exact Or.inl ⟨rfl, rfl, rfl⟩
  · obtain ⟨rfl, rfl, he⟩ := halts_pure hrest
    refine Or.inr ⟨he, ?_⟩
    rcases hstep with heq | ⟨rfl, rfl⟩
    · obtain ⟨rfl, rfl⟩ := Prod.mk.inj heq
      exact Or.inr ⟨rfl, rfl⟩
    · exact Or.inl ⟨rfl, rfl⟩

/-- Where the disk leads to after a call that met `before` when it began to commit. -/
inductive PersistLeads (directory : ℕ) (writes : List SemanticSourceWrite) (before : Tree)
    (l : StepAnswers) (d' : Disk) : Prop where
  | nothing (settled : d'.settledSource = before) (whole : ∀ i, ¬ TornAt directory l i)
  | everything (settled : d'.settledSource = applyWrites writes before)
      (whole : ∀ i, ¬ TornAt directory l i)
  | torn (i : ℕ) (agree : Agree writes) (settled : d'.settledSource = tornTree writes i before)
      (at_step : TornAt directory l i)

theorem not_tornAt_of_length (h : (afterPublication l).length ≤ 1) (i : ℕ) :
    ¬ TornAt directory l i := by
  rintro ⟨before, step, heq, -⟩
  have hlength := congrArg List.length heq
  rw [List.length_append] at hlength
  simp only [List.length_cons, List.length_nil] at hlength
  omega

theorem TornAt.getLast {i : ℕ} (h : TornAt directory l i) :
    (afterPublication l).getLast? = some ⟨.removeStaging directory, .ok ()⟩ := by
  obtain ⟨before, step, heq, -⟩ := h
  rw [heq, List.getLast?_append_cons]
  rfl

/-- The commit with the removal of its staging directory: it was killed inside of the
commit, or the removal comes after it. -/
theorem halts_commit_remove {e : Ending (Except StoreError SemanticPersistOutcome)}
    {writes : List SemanticSourceWrite}
    (h : Halts unreliable (do
      tryCatch (commitWrites directory writes) fun error => do
        removeStagingQuietly directory
        throw error
      removeStagingQuietly directory
      pure SemanticPersistOutcome.ok : Storing SemanticPersistOutcome).run d l e d') :
    Halts unreliable (commitWrites directory writes).run d l .killed d' ∨
      ∃ r t l₁ l₂ e', l = l₁ ++ l₂ ∧
        Halts unreliable (commitWrites directory writes).run d l₁ (.returned r) t ∧
        Halts unreliable (removeStagingQuietly directory).run t l₂ e' d' := by
  have htry : ∀ {l : StepAnswers} {e d'}, Halts unreliable
      (tryCatch (commitWrites directory writes) fun error => do
        removeStagingQuietly directory
        throw error : Storing Unit).run d l e d' →
      (e = .killed ∧ Halts unreliable (commitWrites directory writes).run d l .killed d') ∨
      (∃ r t l₁ l₂ e', l = l₁ ++ l₂ ∧
        Halts unreliable (commitWrites directory writes).run d l₁ (.returned r) t ∧
        Halts unreliable (removeStagingQuietly directory).run t l₂ e' d' ∧
        ∀ u, e ≠ .returned (.ok u)) ∨
      (∃ r, Halts unreliable (commitWrites directory writes).run d l (.returned r) d') := by
    intro l e d' h
    rcases halts_bind (x := (commitWrites directory writes).run) h with hkilled |
      ⟨r, t, l₁, l₂, rfl, hfirst, hsecond⟩
    · exact Or.inl hkilled
    · cases r with
      | ok u =>
        obtain ⟨rfl, rfl, -⟩ := halts_pure hsecond
        rw [List.append_nil]
        exact Or.inr (Or.inr ⟨_, hfirst⟩)
      | error error =>
        rcases halts_throwing_bind hsecond with ⟨rfl, hkilled⟩ | ⟨error', hthrown, he⟩ |
          ⟨u, t', l₃, l₄, rfl, hremove, hthrow⟩
        · exact Or.inr (Or.inl ⟨_, t, l₁, l₂, _, rfl, hfirst, hkilled, nofun⟩)
        · exact Or.inr (Or.inl ⟨_, t, l₁, l₂, _, rfl, hfirst, hthrown, by
            rintro u rfl
            simp at he⟩)
        · obtain ⟨rfl, rfl, he⟩ := halts_pure hthrow
          rw [List.append_nil]
          exact Or.inr (Or.inl ⟨_, t, l₁, l₃, _, rfl, hfirst, hremove, by
            rintro v rfl
            simp at he⟩)
  rcases halts_throwing_bind h with ⟨rfl, hkilled⟩ | ⟨error, hthrown, he⟩ |
    ⟨u, t, l₁, l₂, rfl, hfirst, hrest⟩
  · rcases htry hkilled with ⟨-, hcommit⟩ | ⟨r, t, l₁, l₂, e', rfl, hcommit, hremove, -⟩ |
      ⟨r, hcommit⟩
    · exact Or.inl hcommit
    · exact Or.inr ⟨r, t, l₁, l₂, e', rfl, hcommit, hremove⟩
    · exact Or.inr ⟨r, d', l, [], .killed, (List.append_nil l).symm, hcommit, .killed _ _⟩
  · rcases htry hthrown with ⟨hkilled, -⟩ | ⟨r, t, l₁, l₂, e', rfl, hcommit, hremove, -⟩ |
      ⟨r, hcommit⟩
    · cases hkilled
    · exact Or.inr ⟨r, t, l₁, l₂, e', rfl, hcommit, hremove⟩
    · exact Or.inr ⟨r, d', l, [], .killed, (List.append_nil l).symm, hcommit, .killed _ _⟩
  · rcases htry hfirst with ⟨hkilled, -⟩ | ⟨r, t', l₃, l₄, e', rfl, -, -, hnot⟩ | ⟨r, hcommit⟩
    · cases hkilled
    · exact absurd rfl (hnot u)
    · rcases halts_throwing_bind hrest with ⟨rfl, hkilled⟩ | ⟨error, hthrown, -⟩ |
        ⟨v, t', l₃, l₄, rfl, hremove, hpure⟩
      · exact Or.inr ⟨r, t, l₁, l₂, _, rfl, hcommit, hkilled⟩
      · exact Or.inr ⟨r, t, l₁, l₂, _, rfl, hcommit, hthrown⟩
      · obtain ⟨rfl, rfl, -⟩ := halts_pure hpure
        rw [List.append_nil]
        exact Or.inr ⟨r, t, l₁, l₃, _, rfl, hcommit, hremove⟩

theorem settledSource_carryOutAll (directory : ℕ) {canonicalWrites : Tree} {writes : List SemanticSourceWrite}
    (h : ∀ w ∈ writes, Checked canonicalWrites w) (i : ℕ) :
    (carryOutAll ((writes.map (journalOperation directory)).take i)
      (d.published directory writes)).settledSource = applyWrites writes d.source := by
  rw [settledSource_of_some (journal_carryOutAll _ _)]
  exact replayed_published directory h i

theorem settledSource_completed (directory : ℕ) {canonicalWrites : Tree} {writes : List SemanticSourceWrite}
    (h : ∀ w ∈ writes, Checked canonicalWrites w) :
    { carryOutAll (writes.map (journalOperation directory)) (d.published directory writes) with
      journal := none : Disk }.settledSource = applyWrites writes d.source := by
  have hcoherent := coherent_journalOf h directory
  have hsubset := List.Subset.refl (writes.map (journalOperation directory))
  have hsource := replayed_published directory h
    (writes.map (journalOperation directory)).length (d := d)
  rw [List.take_length] at hsource
  rw [settledSource_of_none rfl, ← hsource,
    replayed_of_done fun a ha => hcoherent.done_carryOutAll hsubset ha _]

theorem commit_leads {canonicalWrites : Tree} {writes : List SemanticSourceWrite}
    {e : Ending (Except StoreError SemanticPersistOutcome)}
    (hchecked : ∀ w ∈ writes, Checked canonicalWrites w) (hd : d.journal = none)
    (h : Halts unreliable (do
      tryCatch (commitWrites directory writes) fun error => do
        removeStagingQuietly directory
        throw error
      removeStagingQuietly directory
      pure SemanticPersistOutcome.ok : Storing SemanticPersistOutcome).run d l e d') :
    PersistLeads directory writes d.source l d' ∧ d'.Sound := by
  have hcoherent := coherent_journalOf hchecked directory
  have hsound : ∀ {t : Disk}, t.journal = none ∨ t.journal = some (journalOf directory writes) →
      t.Sound := by
    intro t ht journal hj
    rcases ht with ht | ht
    · rw [ht] at hj
      cases hj
    · rw [ht] at hj
      cases hj
      exact hcoherent
  have hwhole : ∀ {l₁ : StepAnswers}, (∀ a ∈ l₁, a.1.replays = some directory) →
      ∀ {l : StepAnswers}, afterPublication l = l₁ → ∀ i, ¬ TornAt directory l i := by
    intro l₁ hreplays l hl i htorn
    have hlast := hreplays _ (List.mem_of_getLast? (hl ▸ htorn.getLast))
    cases hlast
  rcases halts_commit_remove h with hkilled | ⟨r, t, l₁, l₂, e', rfl, hcommit, hremove⟩
  · cases halts_commitWrites hkilled with
    | unpublished source journal answers =>
      have hlength := answers []
      rw [List.append_nil] at hlength
      refine ⟨.nothing ?_ (not_tornAt_of_length (Nat.le_trans hlength (Nat.zero_le 1))), ?_⟩
      · rw [settledSource_of_none (journal.trans hd), source]
      · exact hsound (Or.inl (journal.trans hd))
    | interrupted i disk answers replays =>
      subst disk
      have hafter := answers []
      rw [List.append_nil, List.append_nil] at hafter
      refine ⟨.everything (settledSource_carryOutAll _ hchecked i) (hwhole replays hafter), ?_⟩
      exact hsound (Or.inr (journal_carryOutAll _ _))
    | completed disk answers replays =>
      subst disk
      have hafter := answers []
      rw [List.append_nil, List.append_nil] at hafter
      exact ⟨.everything (settledSource_completed _ hchecked) (hwhole replays hafter),
        hsound (Or.inl rfl)⟩
  · have hfailed : ∀ {before : StepAnswers}, afterPublication (l₁ ++ l₂) = before ++ l₂ →
        l₂ = [⟨.removeStaging directory, .error .io⟩] → ∀ i, ¬ TornAt directory (l₁ ++ l₂) i := by
      intro before hafter hl₂ i htorn
      have hlast := htorn.getLast
      rw [hafter, hl₂, List.getLast?_append_cons] at hlast
      cases hlast
    obtain ⟨hsource, hjournal, hl₂⟩ : d'.source = t.source ∧ d'.journal = t.journal ∧
        l₂.length ≤ 1 := by
      rcases halts_removeStagingQuietly hremove with ⟨rfl, rfl, -⟩ |
        ⟨-, ⟨rfl, rfl⟩ | ⟨rfl, rfl⟩⟩
      · exact ⟨rfl, rfl, Nat.zero_le 1⟩
      · exact ⟨rfl, rfl, Nat.le_refl 1⟩
      · exact ⟨rfl, rfl, Nat.le_refl 1⟩
    cases halts_commitWrites hcommit with
    | unpublished source journal answers =>
      refine ⟨.nothing ?_ (not_tornAt_of_length (Nat.le_trans (answers l₂) hl₂)), ?_⟩
      · rw [settledSource_of_none (hjournal.trans (journal.trans hd)), hsource, source]
      · exact hsound (Or.inl (hjournal.trans (journal.trans hd)))
    | completed disk answers replays last =>
      have hj : d'.journal = none := by rw [hjournal, disk]
      have hsettled := settledSource_completed directory hchecked (d := d)
      rw [settledSource_of_none rfl, ← disk, ← hsource] at hsettled
      refine ⟨.everything ((settledSource_of_none hj).trans hsettled) ?_, hsound (Or.inl hj)⟩
      rcases halts_removeStagingQuietly hremove with ⟨hl, -, -⟩ | ⟨-, ⟨hl, -⟩ | ⟨hl, -⟩⟩
      · exact hwhole replays ((answers l₂).trans (by rw [hl, List.append_nil]))
      · exact hfailed (answers l₂) hl
      · rintro i ⟨before, step, heq, -⟩
        have hsplit := (answers l₂).symm.trans heq
        rw [hl, List.append_cons before] at hsplit
        exact last before step (List.append_inj' hsplit rfl).1
    | interrupted i disk answers replays ending =>
      have hj : t.journal = some (journalOf directory writes) := by
        rw [disk]
        exact journal_carryOutAll _ _
      have hsettled := settledSource_carryOutAll directory hchecked i (d := d)
      rw [← disk] at hsettled
      rcases ending with hkilled | ⟨-, before, step, rfl, rfl⟩
      · cases hkilled
      rcases halts_removeStagingQuietly hremove with ⟨hl, ht, -⟩ | ⟨-, ⟨hl, ht⟩ | ⟨hl, ht⟩⟩
      · rw [ht]
        exact ⟨.everything hsettled
          (hwhole replays ((answers l₂).trans (by rw [hl, List.append_nil]))), hsound (Or.inr hj)⟩
      · rw [ht]
        exact ⟨.everything hsettled (hfailed (answers l₂) hl), hsound (Or.inr hj)⟩
      · refine ⟨.torn before.length (agree_of_checked hchecked) ?_ ?_, ?_⟩
        · rw [settledSource_of_some (hjournal.trans hj), ht, disk]
          exact replayed_removeStaging hchecked before.length
        · refine ⟨before, step, ?_, rfl⟩
          rw [answers, hl, List.append_assoc]
          rfl
        · exact hsound (Or.inr (hjournal.trans hj))

theorem tornAt_append {l₀ : StepAnswers} (h : ∀ a ∈ l₀, a.1.publishes = false) {i : ℕ} :
    TornAt directory (l₀ ++ l) i ↔ TornAt directory l i := by
  rw [TornAt, TornAt, afterPublication_append h]

theorem PersistLeads.prepend {l₀ : StepAnswers} {writes : List SemanticSourceWrite} {before : Tree}
    (h : PersistLeads directory writes before l d') (hl₀ : ∀ a ∈ l₀, a.1.publishes = false) :
    PersistLeads directory writes before (l₀ ++ l) d' := by
  cases h with
  | nothing settled whole => exact .nothing settled fun i => mt (tornAt_append hl₀).1 (whole i)
  | everything settled whole =>
    exact .everything settled fun i => mt (tornAt_append hl₀).1 (whole i)
  | torn i agree settled at_step => exact .torn i agree settled ((tornAt_append hl₀).2 at_step)

theorem not_tornAt_of_silent (h : ∀ a ∈ l, a.1.publishes = false) (i : ℕ) :
    ¬ TornAt directory l i := by
  refine not_tornAt_of_length ?_ i
  have hafter : afterPublication (l ++ []) = afterPublication [] := afterPublication_append h
  rw [List.append_nil] at hafter
  rw [hafter]
  exact Nat.zero_le 1

theorem halts_baseChanged {expected : Option String} {e : Ending (Except StoreError Bool)}
    (h : Halts unreliable (baseChanged fingerprintOf expected).run d l e d') :
    d' = d ∧ ∀ a ∈ l, a.1.publishes = false := by
  cases expected with
  | none =>
    obtain ⟨rfl, rfl, -⟩ := halts_pure h
    exact ⟨rfl, nofun⟩
  | some expected =>
    have hread : ∀ {l e d'}, Halts unreliable
        (request FileStep.readSource : Storing Tree).run d l e d' →
        d' = d ∧ ∀ a ∈ l, a.1.publishes = false := by
      intro l e d' h
      rcases halts_request h with ⟨rfl, -, rfl⟩ | ⟨rfl, rfl, -⟩ | ⟨rfl, rfl, -⟩
      · exact ⟨rfl, nofun⟩
      · exact ⟨rfl, by simp [FileStep.publishes]⟩
      · exact ⟨rfl, by simp [FileStep.publishes]⟩
    rcases halts_throwing_bind h with ⟨-, hkilled⟩ | ⟨error, hthrown, -⟩ |
      ⟨tree, t, l₁, l₂, rfl, hfirst, hpure⟩
    · exact hread hkilled
    · exact hread hthrown
    · obtain ⟨rfl, rfl, -⟩ := halts_pure hpure
      rw [List.append_nil]
      exact hread hfirst

/-- What a call of `persistSemanticMutation` leads to. -/
theorem persist_leads {e : Ending (Except StoreError SemanticPersistOutcome)} (hd : d.Sound)
    (h : Halts unreliable (persistSemanticMutation fingerprintOf directory mutation).run d l e d') :
    PersistLeads directory mutation.writes d.settledSource l d' ∧ d'.Sound := by
  have hnothing : ∀ {l : StepAnswers} {d' : Disk}, (∀ a ∈ l, a.1.publishes = false) →
      d'.settledSource = d.settledSource →
      PersistLeads directory mutation.writes d.settledSource l d' := by
    intro l d' hl hsettled
    exact .nothing hsettled (not_tornAt_of_silent hl)
  rw [persistSemanticMutation, run_lift_bind] at h
  cases hcheck : checkWrites mutation.canonicalWrites mutation.writes with
  | error error =>
    rw [hcheck] at h
    obtain ⟨rfl, rfl, -⟩ := halts_pure h
    exact ⟨hnothing nofun rfl, hd⟩
  | ok u =>
    rw [hcheck] at h
    have hchecked := checkWrites_eq_ok hcheck
    by_cases hempty : mutation.writes = []
    · simp only [if_pos hempty] at h
      obtain ⟨rfl, rfl, -⟩ := halts_pure h
      exact ⟨hnothing nofun rfl, hd⟩
    simp only [if_neg hempty] at h
    have hsilent : ∀ {l : StepAnswers}, (∀ a ∈ l, a.1 = .readJournal ∨ a.1.replays ≠ none) →
        ∀ a ∈ l, a.1.publishes = false := by
      intro l hl a ha
      rcases hl a ha with hread | hreplays
      · rw [hread]
        rfl
      · exact publishes_of_replays hreplays
    rcases halts_throwing_bind h with ⟨rfl, hkilled⟩ | ⟨error, hthrown, -⟩ |
      ⟨v, t, l₁, l₂, rfl, hrecover, hrest⟩
    · obtain ⟨hsound, hsettled, hl, -⟩ := halts_recoverPendingCommit hd hkilled
      exact ⟨hnothing (hsilent hl) hsettled, hsound⟩
    · obtain ⟨hsound, hsettled, hl, -⟩ := halts_recoverPendingCommit hd hthrown
      exact ⟨hnothing (hsilent hl) hsettled, hsound⟩
    obtain ⟨hsound, hsettled, hl₁, hend⟩ := halts_recoverPendingCommit hd hrecover
    have hjournal : t.journal = none := by simpa using hend
    have hbase : ∀ {l₂ : StepAnswers}, (∀ a ∈ l₂, a.1.publishes = false) →
        ∀ a ∈ l₁ ++ l₂, a.1.publishes = false := by
      intro l₂ hl₂ a ha
      exact (List.mem_append.1 ha).elim (hsilent hl₁ a) (hl₂ a)
    rcases halts_throwing_bind hrest with ⟨rfl, hkilled⟩ | ⟨error, hthrown, -⟩ |
      ⟨changed, t', l₃, l₄, rfl, hchanged, hcommit⟩
    · obtain ⟨rfl, hl₂⟩ := halts_baseChanged hkilled
      exact ⟨hnothing (hbase hl₂) hsettled, hsound⟩
    · obtain ⟨rfl, hl₂⟩ := halts_baseChanged hthrown
      exact ⟨hnothing (hbase hl₂) hsettled, hsound⟩
    obtain ⟨rfl, hl₃⟩ := halts_baseChanged hchanged
    rw [← List.append_assoc]
    cases changed with
    | true =>
      obtain ⟨rfl, rfl, -⟩ := halts_pure hcommit
      rw [List.append_nil]
      exact ⟨hnothing (hbase hl₃) hsettled, hsound⟩
    | false =>
      obtain ⟨hleads, hsound'⟩ := commit_leads hchecked hjournal hcommit
      rw [← settledSource_of_none hjournal, hsettled] at hleads
      exact ⟨hleads.prepend (hbase hl₃), hsound'⟩

/-- The disks that calls of the store lead to from one without a journal. -/
inductive Reached (fingerprintOf : Tree → String) : Disk → Prop where
  | rest {d : Disk} (h : d.journal = none) : Reached fingerprintOf d
  | persisted {d directory mutation l e} {d' : Disk} (h : Reached fingerprintOf d)
      (call : Halts unreliable (persistSemanticMutation fingerprintOf directory mutation).run
        d l e d') : Reached fingerprintOf d'
  | recovered {d l e} {d' : Disk} (h : Reached fingerprintOf d)
      (call : Halts unreliable recoverPendingCommit.run d l e d') : Reached fingerprintOf d'

theorem Reached.sound (h : Reached fingerprintOf d) : d.Sound := by
  induction h with
  | rest h =>
    intro journal hj
    rw [h] at hj
    cases hj
  | persisted _ call ih => exact (persist_leads ih call).2
  | recovered _ call ih => exact (halts_recoverPendingCommit ih call).1

/-- Any number of recoveries that fail or are killed, and then one that succeeds. -/
inductive Recovers : Disk → Disk → Prop where
  | succeeds {d d' : Disk} {l : StepAnswers} (call : Halts unreliable recoverPendingCommit.run d l
      (.returned (.ok ())) d') : Recovers d d'
  | again {d d' d'' : Disk} {l : StepAnswers} {e} (call : Halts unreliable recoverPendingCommit.run d l e d')
      (rest : Recovers d' d'') : Recovers d d''

theorem Recovers.source (h : Recovers d d') (hd : d.Sound) : d'.source = d.settledSource := by
  induction h with
  | succeeds call =>
    obtain ⟨-, hsettled, -, hend⟩ := halts_recoverPendingCommit hd call
    rw [← hsettled, settledSource_of_none (by simpa using hend)]
  | again call _ ih =>
    obtain ⟨hsound, hsettled, -, -⟩ := halts_recoverPendingCommit hd call
    exact (ih hsound).trans hsettled

/-- After a commit that failed or was killed anywhere, and the next recovery that succeeds,
the tree is the one before or the one after the whole commit, if and only if the commit did
not fail between the publication of its journal and the removal of its staging directory
with something that matters done and something that matters lost. -/
theorem commit_whole_iff {d₁ d₂ : Disk} {e : Ending (Except StoreError SemanticPersistOutcome)}
    (hd : Reached fingerprintOf d)
    (hcommit : Halts unreliable (persistSemanticMutation fingerprintOf directory mutation).run
      d l e d₁)
    (hrecovers : Recovers d₁ d₂) :
    (d₂.source = d.settledSource ∨ d₂.source = applyWrites mutation.writes d.settledSource) ↔
      ¬ ∃ i, TornAt directory l i ∧
        (∃ w ∈ mutation.writes, (w ∈ mutation.writes.take i ∨ w.operation = .delete) ∧
          w.Changes d.settledSource) ∧
        ∃ w ∈ mutation.writes, w.operation = .write ∧ w ∉ mutation.writes.take i ∧
          w.Changes d.settledSource := by
  obtain ⟨hleads, hsound⟩ := persist_leads hd.sound hcommit
  rw [hrecovers.source hsound]
  cases hleads with
  | nothing settled whole =>
    exact iff_of_true (Or.inl settled) fun ⟨i, htorn, _⟩ => whole i htorn
  | everything settled whole =>
    exact iff_of_true (Or.inr settled) fun ⟨i, htorn, _⟩ => whole i htorn
  | torn i agree settled at_step =>
    rw [settled, tornTree_eq_before agree, tornTree_eq_after agree]
    constructor
    · rintro (hbefore | hafter) ⟨j, htorn, ⟨w, hw, hcarried, hchanges⟩, v, hv, hop, hnot, hlost⟩
      · rw [at_step.unique htorn] at hbefore
        exact hbefore w hw hcarried hchanges
      · rw [at_step.unique htorn] at hafter
        exact hafter v hv hop hnot hlost
    · intro hnot
      by_contra hneither
      rw [not_or] at hneither
      obtain ⟨hbefore, hafter⟩ := hneither
      push Not at hbefore hafter
      obtain ⟨w, hw, hcarried, hchanges⟩ := hbefore
      obtain ⟨v, hv, hop, hv', hlost⟩ := hafter
      exact hnot ⟨i, at_step, ⟨w, hw, hcarried, hchanges⟩, v, hv, hop, hv', hlost⟩

def twoFiles : SemanticMutation :=
  ⟨[⟨".mottainai/semantics/declarations/project.json", .write, some "{}"⟩,
    ⟨".mottainai/semantics/relations/a.json", .write, some "{}"⟩],
    fun path => if path = ".mottainai/semantics/declarations/project.json" ∨
      path = ".mottainai/semantics/relations/a.json" then some "{}" else none, none⟩

def emptyDisk : Disk := ⟨fun _ => none, fun _ => none, none⟩

def secondRenameFails : StepAnswers × Ending (Except StoreError SemanticPersistOutcome) × Disk :=
  halt Disk.exec .io [true, true, true, true, true, false, true]
    (persistSemanticMutation (fun _ => "") 1 twoFiles).run emptyDisk

def thenRecovered : StepAnswers × Ending (Except StoreError Unit) × Disk :=
  halt Disk.exec .io [true, true, true, true] recoverPendingCommit.run secondRenameFails.2.2

theorem halts_secondRenameFails :
    Halts unreliable (persistSemanticMutation (fun _ => "") 1 twoFiles).run emptyDisk
      secondRenameFails.1 secondRenameFails.2.1 secondRenameFails.2.2 :=
  halts_halt _ _ _

theorem recovers_thenRecovered : Recovers secondRenameFails.2.2 thenRecovered.2.2 := by
  have hrecover : Halts unreliable recoverPendingCommit.run secondRenameFails.2.2
      thenRecovered.1 thenRecovered.2.1 thenRecovered.2.2 := halts_halt _ _ _
  have hend : thenRecovered.2.1 = .returned (.ok ()) := by decide
  exact .succeeds (hend ▸ hrecover)

theorem commit_whole_iff_twoFiles :
    (thenRecovered.2.2.source = emptyDisk.settledSource ∨
      thenRecovered.2.2.source = applyWrites twoFiles.writes emptyDisk.settledSource) ↔
      ¬ ∃ i, TornAt 1 secondRenameFails.1 i ∧
        (∃ w ∈ twoFiles.writes, (w ∈ twoFiles.writes.take i ∨ w.operation = .delete) ∧
          w.Changes emptyDisk.settledSource) ∧
        ∃ w ∈ twoFiles.writes, w.operation = .write ∧ w ∉ twoFiles.writes.take i ∧
          w.Changes emptyDisk.settledSource :=
  commit_whole_iff (.rest rfl) halts_secondRenameFails recovers_thenRecovered

/-- A failing rename leaves one file of the write set and loses the other for good. -/
theorem failed_rename_tears_commit :
    ¬ ∀ (fingerprintOf : Tree → String) (directory : ℕ) (mutation : SemanticMutation)
      (d d₁ d₂ : Disk) (l : StepAnswers) (e : Ending (Except StoreError SemanticPersistOutcome)),
      d.journal = none →
      Halts unreliable (persistSemanticMutation fingerprintOf directory mutation).run d l e d₁ →
      Recovers d₁ d₂ →
      d₂.source = d.source ∨ d₂.source = applyWrites mutation.writes d.source := by
  intro hclaim
  rcases hclaim _ _ _ _ _ _ _ _ rfl halts_secondRenameFails recovers_thenRecovered with
    hbefore | hafter
  · have hpath := congrFun hbefore ".mottainai/semantics/declarations/project.json"
    revert hpath
    decide
  · have hpath := congrFun hafter ".mottainai/semantics/relations/a.json"
    revert hpath
    decide

end Persist

/-- A call of `loadSemanticSource`, or one of `persistSemanticMutation` that holds the lock,
with the random name it draws for its staging directory. -/
inductive SourceCall where
  | load
  | persist (directory : ℕ) (mutation : SemanticMutation)

/-- What a call hands back. -/
inductive SourceAnswer where
  | loaded (tree : Tree)
  | persisted (outcome : SemanticPersistOutcome)

/-- What is left of a call. -/
abbrev Remaining : Type :=
  Program FileStep (fun step => Except StoreError step.Value) (Except StoreError SourceAnswer)

variable (fingerprintOf : Tree → String)

def SourceCall.program : SourceCall → Remaining
  | .load => (SourceAnswer.loaded <$> loadSemanticSource).run
  | .persist directory mutation =>
    (SourceAnswer.persisted <$> persistSemanticMutation fingerprintOf directory mutation).run

section Points

def readRest : Storing SourceAnswer := do
  let tree ← request FileStep.readSource
  pure (.loaded tree)

/-- A call that is to carry out the given operations of a journal before it goes on. -/
def replayRest (generation : ℕ) (rest : List JournalOperation) (next : Storing SourceAnswer) :
    Storing SourceAnswer := do
  applyJournalOperations generation rest
  ignoreEnoent (request (FileStep.unlinkJournal generation))
  next

def recoverRest (next : Storing SourceAnswer) : Storing SourceAnswer := do
  recoverPendingCommit
  next

/-- A commit whose body has been carried out up to `body`. -/
def attempt (directory : ℕ) (body : Storing Unit) : Storing SourceAnswer := do
  tryCatch body fun error => do
    removeStagingQuietly directory
    throw error
  removeStagingQuietly directory
  pure (.persisted .ok)

def stagingRest (directory : ℕ) (writes rest : List SemanticSourceWrite) : Storing Unit := do
  stageWrites directory rest
  request (FileStep.publishJournal (journalOf directory writes))
  applyJournalOperations directory (writes.map (journalOperation directory))
  ignoreEnoent (request (FileStep.unlinkJournal directory))

/-- The body of a commit with the given operations left to carry out. -/
def applyingRest (directory : ℕ) (rest : List JournalOperation) : Storing Unit := do
  applyJournalOperations directory rest
  ignoreEnoent (request (FileStep.unlinkJournal directory))

/-- A commit whose body has been carried out. -/
def removingRest (directory : ℕ) : Storing SourceAnswer := do
  removeStagingQuietly directory
  pure (.persisted .ok)

def baseRest (directory : ℕ) (mutation : SemanticMutation) : Storing SourceAnswer := do
  let changed ← baseChanged fingerprintOf mutation.expectedBaseFingerprint
  if changed then pure (.persisted .semanticPersistConflict)
  else attempt directory (stagingRest directory mutation.writes mutation.writes)

theorem program_load (fingerprintOf : Tree → String) :
    SourceCall.load.program fingerprintOf = (recoverRest readRest).run := by
  simp only [SourceCall.program, loadSemanticSource, recoverRest, readRest, map_eq_pure_bind,
    bind_assoc]

/-- A writer is refused, has nothing to write, or begins by recovering. -/
theorem program_persist (directory : ℕ) (mutation : SemanticMutation) :
    (SourceCall.persist directory mutation).program fingerprintOf =
      match checkWrites mutation.canonicalWrites mutation.writes with
      | .error error => .pure (.error error)
      | .ok _ => if mutation.writes = [] then .pure (.ok (.persisted .ok))
        else (recoverRest (baseRest fingerprintOf directory mutation)).run := by
  simp only [SourceCall.program, persistSemanticMutation, map_eq_pure_bind, bind_assoc,
    run_lift_bind]
  cases checkWrites mutation.canonicalWrites mutation.writes with
  | error error => rfl
  | ok u =>
    split_ifs with hempty
    · rfl
    · simp only [persistLocked, recoverRest, baseRest, bind_assoc]
      congr 2
      funext v
      congr 1
      funext changed
      cases changed with
      | true => rfl
      | false => simp [attempt, stagingRest, commitWrites]

end Points

section Proceeds

variable {α β : Type} {x : Storing α} {step : FileStep} {rest : Disk → Storing α}

/-- The next step of `x` is `step`, and after it was carried out on `d` the rest is `rest d`. -/
def Proceeds (x : Storing α) (step : FileStep) (rest : Disk → Storing α) : Prop :=
  ∃ next, x.run = .call step next ∧ ∀ d, next (Disk.exec step d).1 = (rest d).run

section

variable (h : Proceeds x step rest)
include h

theorem Proceeds.bind (f : α → Storing β) : Proceeds (x >>= f) step fun d => rest d >>= f := by
  obtain ⟨next, hx, hnext⟩ := h
  have hcall : x = ExceptT.mk (.call step next) := hx
  refine ⟨fun r => (ExceptT.mk (next r) >>= f).run, ?_, fun d => ?_⟩
  · rw [hcall]
    rfl
  · exact congrArg (fun y => (ExceptT.mk y >>= f).run) (hnext d)

theorem Proceeds.tryCatch (handler : StoreError → Storing α) :
    Proceeds (MonadExcept.tryCatch x handler) step
      fun d => MonadExcept.tryCatch (rest d) handler := by
  obtain ⟨next, hx, hnext⟩ := h
  have hcall : x = ExceptT.mk (.call step next) := hx
  refine ⟨fun r => (MonadExcept.tryCatch (ExceptT.mk (next r)) handler).run, ?_, fun d => ?_⟩
  · rw [hcall]
    rfl
  · exact congrArg (fun y => (MonadExcept.tryCatch (ExceptT.mk y) handler).run) (hnext d)

theorem Proceeds.congr {rest' : Disk → Storing α} (hrest : ∀ d, rest d = rest' d) :
    Proceeds x step rest' := by
  obtain ⟨next, hx, hnext⟩ := h
  exact ⟨next, hx, fun d => (hnext d).trans (congrArg ExceptT.run (hrest d))⟩

/-- How a call at this point goes on. -/
theorem Proceeds.next {op : FileStep}
    {next : Except StoreError op.Value → Program FileStep _ (Except StoreError α)}
    (hx : Program.call op next = x.run) :
    op = step ∧ ∀ d, next (Disk.exec op d).1 = (rest d).run := by
  obtain ⟨next', hx', hnext⟩ := h
  cases hx.trans hx'
  exact ⟨rfl, hnext⟩

theorem Proceeds.ne_pure (r : Except StoreError α) : .pure r ≠ x.run := by
  obtain ⟨next, hx, -⟩ := h
  rw [hx]
  exact nofun

end

theorem proceeds_request (step : FileStep) :
    Proceeds (request step : Storing step.Value) step
      fun d => ExceptT.mk (.pure (Disk.exec step d).1) :=
  ⟨.pure, rfl, fun _ => rfl⟩

variable {generation directory : ℕ}

theorem ignoreEnoent_mk (r : Except StoreError Unit) (h : ignored r = .ok ()) :
    ignoreEnoent (ExceptT.mk (.pure r)) = pure () := by
  rcases r with ⟨_ | _ | message⟩ | ⟨⟩
  · rfl
  · cases h
  · cases h
  · rfl

theorem proceeds_applyJournalOperation (operation : JournalOperation) :
    Proceeds (applyJournalOperation generation operation) (operation.step generation)
      fun _ => pure () := by
  cases operation with
  | delete p =>
    exact ((proceeds_request (.unlinkSource generation p)).tryCatch _).congr fun d =>
      ignoreEnoent_mk _ (ignored_exec_unlinkSource generation p d)
  | write p s =>
    exact ((proceeds_request (.renameStaged generation s p)).tryCatch _).congr fun d =>
      ignoreEnoent_mk _ (ignored_exec_renameStaged generation s p d)

theorem proceeds_unlinkJournal (generation : ℕ) :
    Proceeds (ignoreEnoent (request (FileStep.unlinkJournal generation)))
      (.unlinkJournal generation) fun _ => pure () :=
  ((proceeds_request (.unlinkJournal generation)).tryCatch _).congr fun d =>
    ignoreEnoent_mk _ (ignored_exec_unlinkJournal generation d)

theorem proceeds_removeStagingQuietly (directory : ℕ) :
    Proceeds (removeStagingQuietly directory) (.removeStaging directory) fun _ => pure () :=
  ((proceeds_request (.removeStaging directory)).tryCatch _).congr fun _ => rfl

theorem proceeds_readPendingJournal :
    Proceeds readPendingJournal .readJournal fun d => pure d.journal :=
  ⟨fun r => .pure (pendingOf r), run_readPendingJournal,
    fun d => congrArg Program.pure (pendingOf_exec d)⟩

section Points

variable {next : Storing SourceAnswer} {operation : JournalOperation}
variable {operations : List JournalOperation} {writes : List SemanticSourceWrite}
variable {write : SemanticSourceWrite} {left : List SemanticSourceWrite}

theorem proceeds_readRest :
    Proceeds readRest .readSource fun d => pure (.loaded d.source) :=
  (proceeds_request .readSource).bind _

theorem proceeds_recoverRest (next : Storing SourceAnswer) :
    Proceeds (recoverRest next) .readJournal fun d => match d.journal with
      | none => next
      | some journal => replayRest journal.generation journal.operations next := by
  refine ((proceeds_readPendingJournal.bind _).bind _).congr fun d => ?_
  cases d.journal with
  | none => rfl
  | some journal => simp only [replayRest, pure_bind, bind_assoc]

theorem proceeds_replayRest_cons :
    Proceeds (replayRest generation (operation :: operations) next) (operation.step generation)
      fun _ => replayRest generation operations next :=
  (((proceeds_applyJournalOperation operation).bind _).bind _).congr fun _ => rfl

theorem proceeds_replayRest_nil :
    Proceeds (replayRest generation [] next) (.unlinkJournal generation) fun _ => next :=
  ((proceeds_unlinkJournal generation).bind _).congr fun _ => rfl

theorem proceeds_attempt {body : Storing Unit} {rest : Disk → Storing Unit}
    (h : Proceeds body step rest) :
    Proceeds (attempt directory body) step fun d => attempt directory (rest d) :=
  (h.tryCatch _).bind _

theorem attempt_pure : attempt directory (pure ()) = removingRest directory := rfl

theorem proceeds_removingRest :
    Proceeds (removingRest directory) (.removeStaging directory)
      fun _ => pure (.persisted .ok) :=
  ((proceeds_removeStagingQuietly directory).bind _).congr fun _ => rfl

theorem proceeds_stagingRest_nil :
    Proceeds (stagingRest directory writes []) (.publishJournal (journalOf directory writes))
      fun _ => applyingRest directory (writes.map (journalOperation directory)) :=
  ((proceeds_request (.publishJournal (journalOf directory writes))).bind _).congr fun _ => rfl

theorem stagingRest_delete (h : write.operation = .delete) :
    stagingRest directory writes (write :: left) = stagingRest directory writes left := by
  simp only [stagingRest, stageWrites, h]

theorem proceeds_stagingRest_write (h : write.operation = .write) :
    Proceeds (stagingRest directory writes (write :: left))
      (.writeStaging (stagingPath directory write) (write.content.getD ""))
      fun _ => stagingRest directory writes left := by
  have hrest : stagingRest directory writes (write :: left) =
      (request (FileStep.writeStaging (stagingPath directory write)
        (write.content.getD "")) >>= fun _ => stagingRest directory writes left) := by
    simp only [stagingRest, stageWrites, h, bind_assoc]
  rw [hrest]
  exact ((proceeds_request (.writeStaging (stagingPath directory write)
    (write.content.getD ""))).bind _).congr fun _ => rfl

theorem stagingRest_ne_pure (directory : ℕ) (writes left : List SemanticSourceWrite)
    (r : Except StoreError SourceAnswer) :
    .pure r ≠ (attempt directory (stagingRest directory writes left)).run := by
  induction left with
  | nil => exact (proceeds_attempt proceeds_stagingRest_nil).ne_pure r
  | cons write left ih =>
    cases hop : write.operation with
    | delete =>
      rw [stagingRest_delete hop]
      exact ih
    | write => exact (proceeds_attempt (proceeds_stagingRest_write hop)).ne_pure r

variable {mutation : SemanticMutation}

theorem baseRest_none (h : mutation.expectedBaseFingerprint = none) :
    baseRest fingerprintOf directory mutation =
      attempt directory (stagingRest directory mutation.writes mutation.writes) := by
  simp only [baseRest, h, baseChanged, pure_bind, Bool.false_eq_true, if_false]

theorem proceeds_baseRest {expected : String}
    (h : mutation.expectedBaseFingerprint = some expected) :
    Proceeds (baseRest fingerprintOf directory mutation) .readSource fun d =>
      if fingerprintOf d.source ≠ expected then pure (.persisted .semanticPersistConflict)
      else attempt directory (stagingRest directory mutation.writes mutation.writes) := by
  have hrest : baseRest fingerprintOf directory mutation =
      (request FileStep.readSource >>= fun tree => if fingerprintOf tree ≠ expected
        then pure (.persisted .semanticPersistConflict)
        else attempt directory (stagingRest directory mutation.writes mutation.writes)) := by
    simp only [baseRest, h, baseChanged, bind_assoc, pure_bind, decide_eq_true_eq]
  rw [hrest]
  exact (proceeds_request .readSource).bind _

theorem baseRest_ne_pure (mutation : SemanticMutation) (r : Except StoreError SourceAnswer) :
    .pure r ≠ (baseRest fingerprintOf directory mutation).run := by
  cases h : mutation.expectedBaseFingerprint with
  | none =>
    rw [baseRest_none fingerprintOf h]
    exact stagingRest_ne_pure directory _ _ r
  | some expected => exact (proceeds_baseRest fingerprintOf h).ne_pure r

theorem proceeds_applyingRest_cons :
    Proceeds (applyingRest directory (operation :: operations)) (operation.step directory)
      fun _ => applyingRest directory operations :=
  (((proceeds_applyJournalOperation operation).bind _).bind _).congr fun _ => rfl

theorem proceeds_applyingRest_nil :
    Proceeds (applyingRest directory []) (.unlinkJournal directory) fun _ => pure () :=
  (proceeds_unlinkJournal directory).congr fun _ => rfl

end Points

end Proceeds

abbrev SourceEvent : Type :=
  Event SourceCall FileStep (fun step => Except StoreError step.Value) (Except StoreError SourceAnswer)

abbrev SourceConfig : Type :=
  Config Disk SourceCall FileStep (fun step => Except StoreError step.Value)
    (Except StoreError SourceAnswer)

structure Commit where
  directory : ℕ
  writes : List SemanticSourceWrite
  deriving DecidableEq

def Commit.operations (c : Commit) : List JournalOperation :=
  (journalOf c.directory c.writes).operations

def commitOf : SourceEvent → Option Commit
  | .exec _ (.persist directory mutation) (.publishJournal _) (.ok _) =>
    some ⟨directory, mutation.writes⟩
  | _ => none

/-- The published write sets in their order. -/
def commits (es : List SourceEvent) : List Commit := es.filterMap commitOf

def drawnBy : SourceEvent → Option ℕ
  | .invoke _ (.persist directory _) => some directory
  | _ => none

def drawn (es : List SourceEvent) : List ℕ := es.filterMap drawnBy

def applyCommits (cs : List Commit) (tree : Tree) : Tree :=
  cs.foldl (fun tree c => applyWrites c.writes tree) tree

theorem applyCommits_snoc (cs : List Commit) (c : Commit) (tree : Tree) :
    applyCommits (cs ++ [c]) tree = applyWrites c.writes (applyCommits cs tree) := by
  simp only [applyCommits, List.foldl_append, List.foldl_cons, List.foldl_nil]

section Effects

variable {tree : Tree} {cs : List Commit} {c : Commit} {d d' : Disk} {generation directory : ℕ}
variable {rest : List JournalOperation} {a : JournalOperation}

/-- The disk agrees with the published write sets. -/
structure Settled (tree : Tree) (cs : List Commit) (d : Disk) : Prop where
  coherent : ∀ c ∈ cs, Coherent c.operations
  distinct : (cs.map Commit.directory).Nodup
  journal : ∀ j, d.journal = some j → ∃ c, cs.getLast? = some c ∧
    j = journalOf c.directory c.writes
  finished : d.journal = none → ∀ c, cs.getLast? = some c → ∀ a ∈ c.operations, a.Done d
  overtaken : ∀ c ∈ cs, cs.getLast? ≠ some c → ∀ p s, JournalOperation.write p s ∈ c.operations →
    d.staging s = none
  settled : d.settledSource = applyCommits cs tree

theorem settled_nil (h : d.journal = none) : Settled d.source [] d :=
  ⟨nofun, List.nodup_nil, fun j hj => absurd (h.symm.trans hj) (Option.some_ne_none j).symm,
    nofun, nofun, settledSource_of_none h⟩

/-- Deleting the file now does not matter: it is not there, or the journal on disk is still
to delete it or to put another one in its place. -/
def Disk.Dispensable (d : Disk) (path : Path) : Prop :=
  d.source path = none ∨ ∃ j, d.journal = some j ∧ (JournalOperation.delete path ∈ j.operations ∨
    ∃ s, JournalOperation.write path s ∈ j.operations ∧ d.staging s ≠ none)

/-- There is no journal on disk, or it has nothing left to do. -/
def Disk.Finished (d : Disk) : Prop :=
  ∀ j, d.journal = some j → ∀ a ∈ j.operations, a.Done d

/-- What a step of a recovery, or of a writer that carries out its own journal, does: nothing,
an operation of the last journal, the removal of a journal that is done, or the removal of a
file that does not matter. -/
inductive Replayed (cs : List Commit) (d : Disk) : Disk → Prop where
  | nothing : Replayed cs d d
  | carriesOut {c : Commit} {a : JournalOperation} (last : cs.getLast? = some c)
      (mem : a ∈ c.operations) : Replayed cs d (a.carryOut d)
  | unlinks (finished : d.Finished) : Replayed cs d { d with journal := none }
  | deletes {p : Path} (dispensable : d.Dispensable p) : Replayed cs d (d.unlinkSource p)

variable {s : StagingPath} {p : Path}

theorem directory_of_mem_operations (h : JournalOperation.write p s ∈ c.operations) :
    s.directory = c.directory := by
  obtain ⟨w, -, heq⟩ := List.mem_map.1 h
  unfold journalOperation at heq
  cases hop : w.operation with
  | delete => simp [hop] at heq
  | write =>
    simp only [hop, JournalOperation.write.injEq] at heq
    rw [← heq.2]
    rfl

theorem Settled.commit_eq (h : Settled tree cs d) {c' : Commit} (hc : c ∈ cs) (hc' : c' ∈ cs)
    (heq : c.directory = c'.directory) : c = c' :=
  List.inj_on_of_nodup_map h.distinct hc hc' heq

/-- Staged files may disappear by being renamed to their targets. -/
theorem Replayed.staging_none (hr : Replayed cs d d') (hs : d.staging s = none) :
    d'.staging s = none := by
  cases hr with
  | nothing => exact hs
  | @carriesOut c a last mem =>
    cases a with
    | delete p => exact hs
    | write p t =>
      rw [staging_carryOut_write, Function.update_apply]
      split_ifs
      · rfl
      · exact hs
  | unlinks finished => exact hs
  | deletes dispensable => exact hs

theorem Replayed.journal_none (hr : Replayed cs d d') (h : d.journal = none) :
    d'.journal = none := by
  cases hr with
  | nothing => exact h
  | carriesOut last mem => exact (journal_carryOut _ d).trans h
  | unlinks finished => rfl
  | deletes dispensable => exact h

theorem Replayed.staging (hr : Replayed cs d d') (hs : s.directory ∉ cs.map Commit.directory) :
    d'.staging s = d.staging s := by
  cases hr with
  | nothing => rfl
  | @carriesOut c a last mem =>
    cases a with
    | delete p => rfl
    | write p t =>
      rw [staging_carryOut_write, Function.update_of_ne]
      rintro rfl
      refine hs (List.mem_map.2 ⟨c, List.mem_of_getLast? last, ?_⟩)
      exact (directory_of_mem_operations mem).symm
  | unlinks finished => rfl
  | deletes dispensable => rfl

theorem Done.of_unlinkSource (h : a.Done d) : a.Done (d.unlinkSource p) := by
  cases a with
  | delete q =>
    simp only [JournalOperation.Done, Disk.unlinkSource, Function.update_apply]
    split_ifs
    · rfl
    · exact h
  | write q s => exact h

theorem Replayed.done (h : Settled tree cs d) (hr : Replayed cs d d') (hlast : cs.getLast? = some c)
    (ha : a ∈ c.operations) (hdone : a.Done d) : a.Done d' := by
  cases hr with
  | nothing => exact hdone
  | @carriesOut c' b last mem =>
    obtain rfl : c = c' := Option.some_injective _ (hlast.symm.trans last)
    exact (h.coherent c (List.mem_of_getLast? last)).done_carryOut_other mem ha hdone
  | unlinks finished =>
    cases a with
    | delete p => exact hdone
    | write p s => exact hdone
  | deletes dispensable => exact Done.of_unlinkSource hdone

/-- Deleting a file that does not matter leaves the tree that the journal leads to. -/
theorem replayed_unlinkSource {operations : List JournalOperation}
    (hcoherent : Coherent operations)
    (hp : d.source p = none ∨ JournalOperation.delete p ∈ operations ∨
      ∃ s, JournalOperation.write p s ∈ operations ∧ d.staging s ≠ none) :
    replayed operations (d.unlinkSource p) = replayed operations d := by
  rcases hp with hnone | hdelete | ⟨s, hwrite, hs⟩
  · have hsame : d.unlinkSource p = d := carryOut_of_done (a := .delete p) hnone
    rw [hsame]
  · exact hcoherent.replayed_carryOut hdelete
  · obtain ⟨content, hcontent⟩ := Option.ne_none_iff_exists'.1 hs
    funext path
    by_cases hpath : ∃ b ∈ operations, b.targetPath = path
    · obtain ⟨b, hb, rfl⟩ := hpath
      rw [hcoherent.replayed_target hb, hcoherent.replayed_target hb]
      cases b with
      | delete q => rfl
      | write q t =>
        by_cases hqp : q = p
        · subst hqp
          cases hcoherent.target _ hwrite _ hb rfl
          simp only [JournalOperation.content, Disk.unlinkSource, hcontent, Option.some_or]
        · simp only [JournalOperation.content, Disk.unlinkSource, Function.update_of_ne hqp]
    · have hne : ∀ b ∈ operations, b.targetPath ≠ path := by simpa using hpath
      rw [replayed_of_ne hne, replayed_of_ne hne]
      exact Function.update_of_ne (hne _ hwrite).symm _ _

theorem Settled.replayed (h : Settled tree cs d) (hr : Replayed cs d d') : Settled tree cs d' := by
  have hovertaken := fun c hc hlast p s hmem => hr.staging_none (h.overtaken c hc hlast p s hmem)
  have hdone : ∀ c, cs.getLast? = some c → (∀ a ∈ c.operations, a.Done d) →
      ∀ a ∈ c.operations, a.Done d' :=
    fun c hc hall a ha => hr.done h hc ha (hall a ha)
  have hlastDone : d.Finished → ∀ c, cs.getLast? = some c → ∀ a ∈ c.operations, a.Done d := by
    intro hfinished c hc a ha
    cases hj : d.journal with
    | none => exact h.finished hj c hc a ha
    | some j =>
      obtain ⟨c', hc', rfl⟩ := h.journal j hj
      obtain rfl : c = c' := Option.some_injective _ (hc.symm.trans hc')
      exact hfinished _ hj a ha
  refine ⟨h.coherent, h.distinct, ?_, ?_, hovertaken, ?_⟩
  · intro j hj
    cases hr with
    | nothing => exact h.journal j hj
    | carriesOut last mem => exact h.journal j ((journal_carryOut _ d).symm.trans hj)
    | unlinks finished => cases hj
    | deletes dispensable => exact h.journal j hj
  · intro hnone c hc
    refine hdone c hc ?_
    cases hr with
    | nothing => exact h.finished hnone c hc
    | carriesOut last mem => exact h.finished ((journal_carryOut _ d).symm.trans hnone) c hc
    | unlinks finished => exact hlastDone finished c hc
    | deletes dispensable => exact h.finished hnone c hc
  · rw [← h.settled]
    cases hr with
    | nothing => rfl
    | @carriesOut c a last mem =>
      cases hj : d.journal with
      | none =>
        rw [carryOut_of_done (h.finished hj c last a mem)]
      | some j =>
        obtain ⟨c', hc', rfl⟩ := h.journal j hj
        obtain rfl : c = c' := Option.some_injective _ (last.symm.trans hc')
        rw [settledSource_of_some ((journal_carryOut a d).trans hj), settledSource_of_some hj]
        exact (h.coherent c (List.mem_of_getLast? last)).replayed_carryOut mem
    | unlinks finished =>
      cases hj : d.journal with
      | none => rw [settledSource_of_none rfl, settledSource_of_none hj]
      | some j =>
        rw [settledSource_of_none rfl, settledSource_of_some hj]
        exact (replayed_of_done (finished j hj)).symm
    | @deletes p dispensable =>
      cases hj : d.journal with
      | none =>
        have hsource : d.source p = none := by
          rcases dispensable with hnone | ⟨j, hj', -⟩
          · exact hnone
          · rw [hj] at hj'
            cases hj'
        have hsame : d.unlinkSource p = d := carryOut_of_done (a := .delete p) hsource
        rw [hsame]
      | some j =>
        obtain ⟨c, hc, rfl⟩ := h.journal j hj
        rw [settledSource_of_some hj, settledSource_of_some (d := d.unlinkSource p) hj]
        refine replayed_unlinkSource (h.coherent c (List.mem_of_getLast? hc)) ?_
        rcases dispensable with hnone | ⟨j', hj', hmem⟩
        · exact Or.inl hnone
        · rw [hj] at hj'
          cases hj'
          exact Or.inr hmem

theorem Settled.writeStaging (h : Settled tree cs d) (hj : d.journal = none)
    (hs : s.directory ∉ cs.map Commit.directory) (content : String) :
    Settled tree cs (d.writeStaging s content) := by
  have hother : ∀ c ∈ cs, ∀ p t, JournalOperation.write p t ∈ c.operations → t ≠ s := by
    rintro c hc p t ht rfl
    exact hs (List.mem_map.2 ⟨c, hc, (directory_of_mem_operations ht).symm⟩)
  refine ⟨h.coherent, h.distinct, h.journal, ?_, ?_, ?_⟩
  · intro hnone c hc a ha
    have hdone := h.finished hj c hc a ha
    cases a with
    | delete p => exact hdone
    | write p t =>
      exact (Function.update_of_ne (hother c (List.mem_of_getLast? hc) p t ha) _ _).trans hdone
  · intro c hc hlast p t ht
    exact (Function.update_of_ne (hother c hc p t ht) _ _).trans (h.overtaken c hc hlast p t ht)
  · rw [← h.settled, settledSource_of_none hj]
    exact settledSource_of_none hj

theorem staging_removeStaging_none (hs : d.staging s = none) (directory : ℕ) :
    (d.removeStaging directory).staging s = none := by
  simp only [Disk.removeStaging]
  split_ifs
  · rfl
  · exact hs

theorem Settled.removeStaging (h : Settled tree cs d) (hj : d.journal = none) (directory : ℕ) :
    Settled tree cs (d.removeStaging directory) := by
  refine ⟨h.coherent, h.distinct, h.journal, ?_, ?_, ?_⟩
  · intro hnone c hc a ha
    have hdone := h.finished hj c hc a ha
    cases a with
    | delete p => exact hdone
    | write p t => exact staging_removeStaging_none hdone directory
  · intro c hc hlast p t ht
    exact staging_removeStaging_none (h.overtaken c hc hlast p t ht) directory
  · rw [← h.settled, settledSource_of_none hj]
    exact settledSource_of_none hj

theorem Settled.publish (h : Settled tree cs d) (hj : d.journal = none)
    {canonicalWrites : Tree} {writes : List SemanticSourceWrite}
    (hfresh : directory ∉ cs.map Commit.directory)
    (hchecked : ∀ w ∈ writes, Checked canonicalWrites w) (hstaged : Staged directory writes d) :
    Settled tree (cs ++ [⟨directory, writes⟩])
      { d with journal := some (journalOf directory writes) } := by
  have hlast : (cs ++ [(⟨directory, writes⟩ : Commit)]).getLast? = some ⟨directory, writes⟩ := by
    rw [List.getLast?_append_cons]
    rfl
  refine ⟨?_, ?_, ?_, nofun, ?_, ?_⟩
  · intro c hc
    rcases List.mem_append.1 hc with hc | hc
    · exact h.coherent c hc
    · rw [List.mem_singleton.1 hc]
      exact coherent_journalOf hchecked directory
  · rw [List.map_append, List.nodup_append]
    refine ⟨h.distinct, List.nodup_singleton _, ?_⟩
    rintro name hname _ hdirectory rfl
    rw [List.mem_singleton.1 hdirectory] at hname
    exact hfresh hname
  · intro j hj
    cases hj
    exact ⟨⟨directory, writes⟩, hlast, rfl⟩
  · intro c hc hother p s hmem
    rcases List.mem_append.1 hc with hc | hc
    · by_cases hbefore : cs.getLast? = some c
      · exact h.finished hj c hbefore _ hmem
      · exact h.overtaken c hc hbefore p s hmem
    · rw [List.mem_singleton.1 hc] at hother
      exact absurd hlast hother
  · rw [settledSource_of_some rfl, applyCommits_snoc, ← h.settled, settledSource_of_none hj]
    exact replayed_of_staged hchecked hstaged

end Effects

end Mottainai.SemanticSource

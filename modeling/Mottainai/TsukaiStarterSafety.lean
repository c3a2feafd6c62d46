import Mottainai.InterleavingContract
import Mottainai.TsukaiStarter

/-!
# At most one run for a start

A start lists the runs of Tsukai before it creates one, but the list and the creation are two steps,
and the reservation does not say who may create. The steps of a start are safe under any contract
whose processes leave the runs and correlations of the others in place. Any number of Manager
processes have created at most one run for a start key exactly when no run was created for the key
between the list of a start and its own creation.
-/

namespace Mottainai.TsukaiStarter

open Interleaving JavaScriptValues TsukaiCorrelation TsukaiRuns ManagerOperations

def startKeys (world : World) : List (Option String) :=
  world.tsukai.runs.map (·.metadata.startKey)

theorem startKeys_eq (world : World) : startKeys world =
    (world.tsukai.runs.map RunSnapshot.identity).map (fun identity => identity.2.startKey) := by
  simp [startKeys, RunSnapshot.identity]

/-- What every operation does to the correlations and the runs: they stay. -/
structure Grows (world world' : World) : Prop where
  correlations : Keeps world.correlations world'.correlations
  identities : world.tsukai.runs.map RunSnapshot.identity <+:
    world'.tsukai.runs.map RunSnapshot.identity
  runs : ∀ run ∈ world.tsukai.runs, ∃ run' ∈ world'.tsukai.runs, run.Moves run'

section Grows

variable {world world' : World} {startKey : String} {run : RunSnapshot}

theorem Grows.refl (world : World) : Grows world world :=
  ⟨.refl _, List.prefix_rfl, fun run hrun => ⟨run, hrun, .refl run⟩⟩

theorem Grows.trans {a b c : World} (hab : Grows a b) (hbc : Grows b c) : Grows a c := by
  refine ⟨.trans _ _ _ hab.correlations hbc.correlations, hab.identities.trans hbc.identities, ?_⟩
  intro run hrun
  obtain ⟨run', hrun', hmoves⟩ := hab.runs run hrun
  obtain ⟨run'', hrun'', hmoves'⟩ := hbc.runs run' hrun'
  exact ⟨run'', hrun'', hmoves.trans hmoves'⟩

/-- Moving the runs makes nothing disappear. -/
theorem Grows.of_tsukai (hkeeps : Keeps world.correlations world'.correlations)
    (h : world.tsukai.Moves world'.tsukai) : Grows world world' := by
  refine ⟨hkeeps, ?_, fun run hrun => h.exists_after hrun⟩
  exact h.identities ▸ List.prefix_rfl

theorem Grows.of_moves (h : world.Moves world') : Grows world world' := by
  refine .of_tsukai ?_ h.tsukai
  rw [h.correlations]
  exact .refl _

theorem Grows.exec (operation : Operation) (world : World) :
    Grows world (operation.exec world).2 := by
  by_cases hcreate : ∃ input, operation = .create input
  · obtain ⟨input, rfl⟩ := hcreate
    rcases Operation.createRun_cases world input with ⟨e, heq⟩ |
      ⟨run, tsukai, environment, heq, -, hruns⟩
    · rw [Operation.exec, heq]
      exact .refl world
    · rw [Operation.exec, heq]
      refine ⟨.refl _, ?_, fun run hrun => ⟨run, ?_, .refl run⟩⟩
      · rw [hruns, List.map_append]
        exact List.prefix_append _ _
      · rw [hruns]
        exact List.mem_append_left _ hrun
  · exact .of_tsukai (operation.exec_keeps world)
      (operation.exec_moves world fun input heq => hcreate ⟨input, heq⟩)

def Held (startKey : String) (run : RunSnapshot) (world : World) : Prop :=
  run.metadata.startKey = some startKey ∧ ∃ run' ∈ world.tsukai.runs, run.Moves run'

theorem Held.grows (h : Held startKey run world) (hgrows : Grows world world') :
    Held startKey run world' := by
  obtain ⟨hkey, run', hrun', hmoves⟩ := h
  obtain ⟨run'', hrun'', hmoves'⟩ := hgrows.runs run' hrun'
  exact ⟨hkey, run'', hrun'', hmoves.trans hmoves'⟩

theorem Held.identity (h : Held startKey run world) :
    run.identity ∈ world.tsukai.runs.map RunSnapshot.identity := by
  obtain ⟨-, run', hrun', hmoves⟩ := h
  exact List.mem_map.2 ⟨run', hrun', hmoves.identity⟩

/-- The first runs, up to a cursor, were created for other start keys. -/
def NoRunBefore (startKey : String) (cursor : ℕ) (world : World) : Prop :=
  cursor ≤ (startKeys world).length ∧ some startKey ∉ (startKeys world).take cursor

theorem NoRunBefore.grows {cursor : ℕ} (h : NoRunBefore startKey cursor world)
    (hgrows : Grows world world') : NoRunBefore startKey cursor world' := by
  have hprefix : startKeys world <+: startKeys world' := by
    rw [startKeys_eq, startKeys_eq]
    exact hgrows.identities.map _
  obtain ⟨rest, hrest⟩ := hprefix
  rw [NoRunBefore, ← hrest, List.take_append_of_le_length h.1, List.length_append]
  exact ⟨Nat.le_add_right_of_le h.1, h.2⟩

variable {cursor : Option ℕ}

variable (h : NoRunBefore startKey (cursor.getD 0) world)
include h

theorem noRunBefore_of_matching
    (hpage : matching startKey (world.tsukai.list listPageLimit cursor) = none) :
    some startKey ∉ (startKeys world).take (cursor.getD 0 + listPageLimit) := by
  intro hmem
  rw [List.take_add, List.mem_append] at hmem
  rcases hmem with hmem | hmem
  · exact h.2 hmem
  · rw [startKeys, ← List.map_drop, ← List.map_take, List.mem_map] at hmem
    obtain ⟨run, hrun, hkey⟩ := hmem
    have hnone := List.find?_eq_none.1 hpage run hrun
    exact hnone (decide_eq_true hkey)

theorem noRun_of_last_page
    (hpage : matching startKey (world.tsukai.list listPageLimit cursor) = none)
    (hlast : (world.tsukai.list listPageLimit cursor).nextCursor = none) :
    some startKey ∉ startKeys world := by
  have hno := noRunBefore_of_matching h hpage
  rwa [List.take_of_length_le] at hno
  rw [startKeys, List.length_map]
  by_contra hlength
  simp only [Tsukai.list, if_pos (Nat.lt_of_not_le hlength)] at hlast
  cases hlast

theorem noRunBefore_of_next_page {next : ℕ}
    (hpage : matching startKey (world.tsukai.list listPageLimit cursor) = none)
    (hnext : (world.tsukai.list listPageLimit cursor).nextCursor = some next) :
    NoRunBefore startKey next world := by
  have hno := noRunBefore_of_matching h hpage
  rw [Tsukai.list] at hnext
  split_ifs at hnext with hlength
  cases hnext
  refine ⟨?_, hno⟩
  rw [startKeys, List.length_map]
  exact Nat.le_of_lt hlength

end Grows

section Shown

abbrev ManagerAnswers : Type := Answers Operation (fun operation => Except Failure operation.Value)

/-- The runs that Tsukai shows in an answer. -/
def shownRuns : (operation : Operation) × Except Failure operation.Value → List RunSnapshot
  | ⟨.list _ _, .ok page⟩ => page.items
  | ⟨.get _, .ok snapshot⟩ => [snapshot]
  | ⟨.create _, .ok snapshot⟩ => [snapshot]
  | ⟨.cancel _, .ok snapshot⟩ => [snapshot]
  | _ => []

def Shown (run : RunSnapshot) (l : ManagerAnswers) : Prop := ∃ answer ∈ l, run ∈ shownRuns answer

variable {run : RunSnapshot} {l l' : ManagerAnswers}

theorem Shown.mono (h : Shown run l) (hl : l <+: l') : Shown run l' := by
  obtain ⟨answer, hanswer, hrun⟩ := h
  exact ⟨answer, hl.subset hanswer, hrun⟩

theorem Shown.last {operation : Operation} {value : operation.Value}
    (h : run ∈ shownRuns ⟨operation, .ok value⟩) : Shown run (l ++ [⟨operation, .ok value⟩]) :=
  ⟨_, List.mem_append_right _ (List.mem_singleton_self _), h⟩

/-- The last answer was the end of a list without a match. -/
def Exhausted (startKey : String) (l : ManagerAnswers) : Prop :=
  ∃ earlier cursor page, l = earlier ++ [⟨.list listPageLimit cursor, .ok page⟩] ∧
    matching startKey page = none ∧ page.nextCursor = none

/-- The last answer was that the start is not reserved. -/
def Unreserved (startKey : String) (l : ManagerAnswers) : Prop :=
  ∃ earlier, l = earlier ++ [⟨.store (.getTsukaiRunCorrelation startKey), .ok none⟩]

end Shown

/-- The operations of a start but the list of the runs and the creation. -/
def looks : Operation → Bool
  | .now | .check _ | .store _ | .get _ => true
  | _ => false

/-- Processes under the contract `C` see the world move by `G`, and so do the operations
in `P` of their own. -/
structure Tolerates (C : Contract World) (G : World → World → Prop) (P : Operation → Prop) :
    Prop where
  moves : ∀ s t, s.Moves t → C.inv s → C.inv t ∧ C.rely s t
  rely : ∀ s t, C.rely s t → G s t
  trans : ∀ s t u, G s t → G t u → G s u
  grows : ∀ s t, G s t → Grows s t
  exec : ∀ operation world, P operation → C.inv world → C.inv (operation.exec world).2 ∧
    C.guarantee world (operation.exec world).2 ∧ G world (operation.exec world).2
  looks : ∀ operation, looks operation = true → P operation
  lists : ∀ limit cursor, P (.list limit cursor)

structure Permits (startKey : String) (allows : Operation → World → ManagerAnswers → Prop) :
    Prop where
  looks : ∀ operation s m, looks operation = true → allows operation s m
  lists : ∀ cursor s m, NoRunBefore startKey (cursor.getD 0) s →
    allows (.list listPageLimit cursor) s m

section Safety

variable {C : Contract World} {G : World → World → Prop} {P : Operation → Prop} {α : Type}
variable {allows : Operation → World → ManagerAnswers → Prop}
variable {post : Except Failure α → World → ManagerAnswers → Prop}
variable {base world : World} {l : ManagerAnswers} {startKey : String}

/-- One operation that moves the world by `G`, in the course of a longer program. -/
theorem Tolerates.request_bind (hC : Tolerates C G P) {operation : Operation}
    {f : operation.Value → Managing α} (hoperation : P operation) (hbase : G base world)
    (hs : C.inv world) (hallows : allows operation world l)
    (herror : ∀ e t m, G base t → C.inv t → post (.error e) t m)
    (hnext : ∀ before v after, G base before → C.inv before →
      (operation.exec before).1 = .ok v → G (operation.exec before).2 after → G base after →
      C.inv after →
        (f v).run.Safe Operation.outcomes C allows post after (l ++ [⟨operation, .ok v⟩])) :
    (request operation >>= f : Managing α).run.Safe Operation.outcomes C allows post world l := by
  refine safe_request_bind hC.moves hs hallows ?_ fun e t ht hinv =>
    herror e t _ (hC.trans _ _ _ hbase (hC.rely _ _ ht)) hinv
  intro before hrely hinv
  have hbefore := hC.trans _ _ _ hbase (hC.rely _ _ hrely)
  obtain ⟨hinv', hguarantee, hexec⟩ := hC.exec operation before hoperation hinv
  refine ⟨hinv', hguarantee, fun after hrely' hinv'' => ?_⟩
  have hafter := hC.rely _ _ hrely'
  have hbase' := hC.trans _ _ _ hbefore (hC.trans _ _ _ hexec hafter)
  cases hr : (operation.exec before).1 with
  | ok v => exact hnext before v after hbefore hinv hr hafter hbase' hinv''
  | error e => exact herror e after _ hbase' hinv''

def NoRunSince (G : World → World → Prop) (startKey : String) (world : World) : Prop :=
  ∃ earlier, some startKey ∉ startKeys earlier ∧ G earlier world

theorem findCreatedRun_safe {post : Except Failure (Option RunSnapshot) → World →
      ManagerAnswers → Prop}
    (hC : Tolerates C G P) (hallows : Permits startKey allows)
    (herror : ∀ e t m, G base t → C.inv t → post (.error e) t m)
    (hfound : ∀ run t m, G base t → C.inv t → Held startKey run t → Shown run m →
      post (.ok (some run)) t m)
    (hnone : ∀ t m, G base t → C.inv t → NoRunSince G startKey t → Exhausted startKey m →
      post (.ok none) t m)
    (pages : ℕ) (cursor : Option ℕ) (hbase : G base world) (hs : C.inv world)
    (h : NoRunBefore startKey (cursor.getD 0) world) :
    (findCreatedRun pages startKey cursor).run.Safe Operation.outcomes C allows post world l := by
  induction pages generalizing cursor world l with
  | zero => exact herror _ _ _ hbase hs
  | succ pages ih =>
    refine hC.request_bind (hC.lists _ _) (hC.rely _ _ (C.rely_refl world)) hs
      (hallows.lists cursor world l h) (fun e t m ht => herror e t m (hC.trans _ _ _ hbase ht))
      fun before page after hbefore hinv hpage hafter hgrows hinv' => ?_
    have hno := h.grows (hC.grows _ _ hbefore)
    have hbase' := hC.trans _ _ _ hbase hgrows
    cases hpage
    cases hmatch : matching startKey (before.tsukai.list listPageLimit cursor) with
    | some run =>
      obtain ⟨hitem, hkey⟩ := matching_some hmatch
      have hmem := List.mem_of_mem_drop (List.mem_of_mem_take hitem)
      have hheld : Held startKey run before := ⟨hkey, run, hmem, .refl run⟩
      exact hfound run after _ hbase' hinv' (hheld.grows (hC.grows _ _ hafter)) (.last hitem)
    | none =>
      cases hnext : (before.tsukai.list listPageLimit cursor).nextCursor with
      | none =>
        exact hnone after _ hbase' hinv' ⟨before, noRun_of_last_page hno hmatch hnext, hafter⟩
          ⟨l, cursor, _, rfl, hmatch, hnext⟩
      | some next =>
        have hmore := noRunBefore_of_next_page hno hmatch hnext
        exact ih (some next) hbase' hinv' (hmore.grows (hC.grows _ _ hafter))

theorem bindStart_safe {post : Except Failure Unit → World → ManagerAnswers → Prop}
    (hC : Tolerates C G P) (agentRunId : String)
    (hallows : ∀ operation s m, looks operation = true → allows operation s m)
    (herror : ∀ e t m, G base t → C.inv t → post (.error e) t m)
    (hbound : ∀ t m, G base t → C.inv t → l <+: m → post (.ok ()) t m) (hbase : G base world)
    (hs : C.inv world) :
    (bindStart startKey agentRunId).run.Safe Operation.outcomes C allows post world l := by
  refine hC.request_bind (hC.looks _ rfl) hbase hs (hallows _ _ _ rfl) herror
    fun _ now after _ _ _ _ hbase' hinv => ?_
  refine hC.request_bind (hC.looks _ rfl) hbase' hinv (hallows _ _ _ rfl) herror
    fun _ record after' _ _ _ _ hbase'' hinv' => ?_
  refine hbound after' _ hbase'' hinv' ?_
  rw [List.append_assoc]
  exact List.prefix_append _ _

/-- A recovery reports a run of its start key. Without one it has come to the end of the
list, or the start was not reserved when it looked. -/
theorem recover_safe {post : Except Failure (Option RunSnapshot) → World → ManagerAnswers → Prop}
    (hC : Tolerates C G P) (hallows : Permits startKey allows)
    (herror : ∀ e t m, G base t → C.inv t → post (.error e) t m)
    (hfound : ∀ run t m, G base t → C.inv t → Held startKey run t → Shown run m →
      post (.ok (some run)) t m)
    (hnone : ∀ t m, G base t → C.inv t → NoRunSince G startKey t → Exhausted startKey m →
      post (.ok none) t m)
    (habsent : ∀ s t m, G base s → C.inv s → s.correlations.select startKey = none → G s t →
      C.inv t → Unreserved startKey m → post (.ok none) t m)
    (pages : ℕ) (managerSessionId : String) (hbase : G base world) (hs : C.inv world) :
    (recover pages startKey managerSessionId).run.Safe Operation.outcomes C allows post
      world l := by
  refine hC.request_bind (hC.looks _ rfl) hbase hs (hallows.looks _ _ _ rfl) herror
    fun before correlation after hbefore hinv hread hafter hbase' hinv' => ?_
  have hcorrelation : before.correlations.select startKey = correlation := Except.ok.inj hread
  have hmoved : G before after :=
    hC.trans _ _ _ (hC.exec (.store (.getTsukaiRunCorrelation startKey)) before
      (hC.looks _ rfl) hinv).2.2 hafter
  cases correlation with
  | none => exact habsent before after _ hbefore hinv hcorrelation hmoved hinv' ⟨l, rfl⟩
  | some correlation =>
    dsimp only
    split_ifs
    · exact herror _ _ _ hbase' hinv'
    · cases correlation.agentRunId with
      | some agentRunId =>
        refine hC.request_bind (hC.looks _ rfl) hbase' hinv' (hallows.looks _ _ _ rfl) herror
          fun before' snapshot after' _ _ hget hafter' hbase'' hinv'' => ?_
        rw [run_lift_bind]
        cases howned : verifyOwnership snapshot startKey managerSessionId with
        | error e => exact herror _ _ _ hbase'' hinv''
        | ok _ =>
          have hmem := Tsukai.get_ok (mapError_eq_ok.1 hget)
          have hkey := congrArg RunMetadata.startKey (verifyOwnership_ok howned)
          have hheld : Held startKey snapshot before' := ⟨hkey, snapshot, hmem, .refl snapshot⟩
          exact hfound snapshot after' _ hbase'' hinv'' (hheld.grows (hC.grows _ _ hafter'))
            (.last (List.mem_singleton_self _))
      | none =>
        refine safe_bind ?_
        refine findCreatedRun_safe hC hallows ?_ ?_ ?_ pages none hbase' hinv'
          ⟨Nat.zero_le _, by simp⟩
        · exact fun e t m ht hinv => herror e t m ht hinv
        · intro orphan t m ht hinv'' hheld hshown
          dsimp only
          rw [run_lift_bind]
          cases verifyOwnership orphan startKey managerSessionId with
          | error e => exact herror _ _ _ ht hinv''
          | ok _ =>
            refine safe_bind ?_
            refine bindStart_safe hC _ hallows.looks ?_ ?_ (hC.rely _ _ (C.rely_refl t)) hinv''
            · exact fun e t' m' ht' hinv => herror e t' m' (hC.trans _ _ _ ht ht') hinv
            · intro t' m' ht' hinv hm
              exact hfound orphan t' _ (hC.trans _ _ _ ht ht') hinv
                (hheld.grows (hC.grows _ _ ht')) (hshown.mono hm)
        · exact fun t m ht hinv => hnone t m ht hinv

variable {input : TsukaiAgentRunStartInput}

theorem createAndBind_safe
    {post : Except Failure TsukaiAgentRunStartResult → World → ManagerAnswers → Prop}
    {workspace : RunWorkspace} (hC : Tolerates C G P)
    (hallows : ∀ operation s m, looks operation = true → allows operation s m)
    (hcreate : ∀ created : CreateRunInput, created.metadata.startKey = some input.startKey →
      allows (.create created) world l)
    (hexec : ∀ (created : CreateRunInput) before, created.metadata.startKey = some input.startKey →
      G base before → C.inv before → C.inv (Operation.createRun before created).2 ∧
        C.guarantee before (Operation.createRun before created).2)
    (herror : ∀ e t m, C.inv t → post (.error e) t m)
    (hstarted : ∀ result before (created : CreateRunInput) t m, G base before →
      G (Operation.createRun before created).2 t → C.inv t → Held input.startKey result.snapshot t →
      Shown result.snapshot m → post (.ok result) t m) (hbase : G base world) (hs : C.inv world) :
    (createAndBind input workspace).run.Safe Operation.outcomes C allows post world l := by
  refine safe_request_bind hC.moves hs (hcreate _ rfl) ?_ fun e t _ hinv => herror e t _ hinv
  intro before hrely hinv
  have hbefore := hC.trans _ _ _ hbase (hC.rely _ _ hrely)
  obtain ⟨hinv', hguarantee⟩ := hexec
    ⟨input.instruction, ⟨some input.startKey, some input.sessionId⟩, workspace⟩ before rfl hbefore hinv
  refine ⟨hinv', hguarantee, fun after hrely' hinv'' => ?_⟩
  have hafter := hC.rely _ _ hrely'
  cases hr : (Operation.exec (.create _) before).1 with
  | error e => exact herror e after _ hinv''
  | ok snapshot =>
    rcases Operation.createRun_cases before _ with ⟨e, heq⟩ |
      ⟨run, tsukai, environment, heq, hmetadata, hruns⟩
    · cases hr.symm.trans (congrArg Prod.fst heq)
    · cases hr.symm.trans (congrArg Prod.fst heq)
      have hheld : Held input.startKey snapshot after := by
        refine Held.grows ⟨by rw [hmetadata], ?_⟩ (hC.grows _ _ hafter)
        rw [Operation.exec, heq, hruns]
        exact ⟨snapshot, by simp, .refl snapshot⟩
      refine safe_bind ?_
      refine bindStart_safe hC _ hallows ?_ ?_ (hC.rely _ _ (C.rely_refl after)) hinv''
      · exact fun e t m _ hinv => herror e t m hinv
      · intro t m ht hinv hm
        exact hstarted _ before _ t _ hbefore (hC.trans _ _ _ hafter ht) hinv
          (hheld.grows (hC.grows _ _ ht)) (Shown.mono (.last (List.mem_singleton_self _)) hm)

/-- A start that finds no run of its key comes to its last step, with the start reserved
and the list at its end. -/
theorem startOnce_safe
    {post : Except Failure TsukaiAgentRunStartResult → World → ManagerAnswers → Prop}
    (hC : Tolerates C G P) (hallows : Permits input.startKey allows)
    (herror : ∀ e t m, G base t → C.inv t → post (.error e) t m)
    (hfound : ∀ run t m, G base t → C.inv t → Held input.startKey run t → Shown run m →
      post (.ok ⟨run, false⟩) t m)
    (hcreate : ∀ workspace t m, G base t → C.inv t → NoRunSince G input.startKey t →
      t.correlations.select input.startKey ≠ none → Exhausted input.startKey m →
        (createAndBind input workspace).run.Safe Operation.outcomes C allows post t m) (pages : ℕ)
    (hbase : G base world) (hs : C.inv world) :
    (startOnce pages input).run.Safe Operation.outcomes C allows post world l := by
  unfold startOnce
  split_ifs
  · exact herror _ _ _ hbase hs
  · rw [run_lift_bind]
    cases admittedTsukaiWorkspace input.manifest input.sessionId with
    | error e => exact herror _ _ _ hbase hs
    | ok workspace =>
      refine hC.request_bind (hC.looks _ rfl) hbase hs (hallows.looks _ _ _ rfl) herror
        fun _ _ after₁ _ _ _ _ hbase₁ hinv₁ => ?_
      refine hC.request_bind (hC.looks _ rfl) hbase₁ hinv₁ (hallows.looks _ _ _ rfl) herror
        fun _ now after₂ _ _ _ _ hbase₂ hinv₂ => ?_
      refine hC.request_bind (hC.looks _ rfl) hbase₂ hinv₂ (hallows.looks _ _ _ rfl) herror
        fun before record after₃ _ _ hreserved hafter hbase₃ hinv₃ => ?_
      have hrow := reserved_of_alone (mapError_eq_ok.1 hreserved)
      obtain ⟨row, hrow⟩ := Option.ne_none_iff_exists'.1 hrow
      obtain ⟨row', hrow', -⟩ := (hC.grows _ _ hafter).correlations _ _ hrow
      refine safe_bind ?_
      refine recover_safe hC hallows ?_ ?_ ?_ ?_ pages _ (hC.rely _ _ (C.rely_refl after₃)) hinv₃
      · exact fun e t m ht hinv => herror e t m (hC.trans _ _ _ hbase₃ ht) hinv
      · exact fun run t m ht hinv hheld hshown =>
          hfound run t m (hC.trans _ _ _ hbase₃ ht) hinv hheld hshown
      · intro t m ht hinv hno hexhausted
        obtain ⟨row'', hrow'', -⟩ := (hC.grows _ _ ht).correlations _ _ hrow'
        exact hcreate workspace t m (hC.trans _ _ _ hbase₃ ht) hinv hno (by simp [hrow'']) hexhausted
      · intro s t m hs _ hnone
        obtain ⟨row'', hrow'', -⟩ := (hC.grows _ _ hs).correlations _ _ hrow'
        rw [hnone] at hrow''
        cases hrow''

end Safety

inductive StarterCall where
  | start (input : TsukaiAgentRunStartInput)
  | recover (startKey managerSessionId : String)

inductive StarterOutcome where
  | started (result : TsukaiAgentRunStartResult)
  | recovered (snapshot : Option RunSnapshot)
  deriving DecidableEq, Repr

namespace StarterCall

def startKey : StarterCall → String
  | start input => input.startKey
  | recover startKey _ => startKey

def body (pages : ℕ) : StarterCall → Managing StarterOutcome
  | start input => do
    let result ← startOnce pages input
    pure (.started result)
  | recover startKey managerSessionId => do
    let snapshot ← TsukaiStarter.recover pages startKey managerSessionId
    pure (.recovered snapshot)

def program (pages : ℕ) (call : StarterCall) :
    Program Operation (fun operation => Except Failure operation.Value)
      (Except Failure StarterOutcome) :=
  (call.body pages).run

end StarterCall

def StarterOutcome.reported : StarterOutcome → Option RunSnapshot
  | started result => some result.snapshot
  | recovered snapshot => snapshot

abbrev StarterEvent : Type :=
  Event StarterCall Operation (fun operation => Except Failure operation.Value)
    (Except Failure StarterOutcome)

abbrev StarterConfig : Type :=
  Config World StarterCall Operation (fun operation => Except Failure operation.Value)
    (Except Failure StarterOutcome)

section Created

variable {Call α : Type}

def createdRun : Event Call Operation (fun operation => Except Failure operation.Value) α →
    Option RunSnapshot
  | .exec _ _ (.create _) (.ok snapshot) => some snapshot
  | _ => none

def created (startKey : String)
    (es : List (Event Call Operation (fun operation => Except Failure operation.Value) α)) :
    List String :=
  ((es.filterMap createdRun).filter (fun run => run.metadata.startKey = some startKey)).map
    (·.agentRunId)

variable {program : Call → Program Operation
  (fun operation => Except Failure operation.Value) α}
variable {k k' : Config World Call Operation (fun operation => Except Failure operation.Value) α}
variable {e : Event Call Operation (fun operation => Except Failure operation.Value) α}
variable {es es' : List (Event Call Operation (fun operation => Except Failure operation.Value) α)}

theorem created_append (startKey : String) :
    created startKey (es ++ es') = created startKey es ++ created startKey es' := by
  simp [created]

variable {startKey : String} {run : RunSnapshot} {c : Call} {input : CreateRunInput} {p : ℕ}
variable {operation : Operation}

theorem createdRun_error {e : Failure} :
    createdRun (.exec p c operation (.error e) :
      Event Call Operation (fun operation => Except Failure operation.Value) α) = none := by
  cases operation <;> rfl

theorem createdRun_other {r : Except Failure operation.Value}
    (h : ∀ input, operation ≠ .create input) :
    createdRun (.exec p c operation r :
      Event Call Operation (fun operation => Except Failure operation.Value) α) = none := by
  cases operation with
  | create input => exact absurd rfl (h input)
  | _ => rfl

theorem created_single (startKey : String) :
    created startKey [(.exec p c (.create input) (.ok run) :
      Event Call Operation (fun operation => Except Failure operation.Value) α)] =
      if run.metadata.startKey = some startKey then [run.agentRunId] else [] := by
  by_cases h : run.metadata.startKey = some startKey <;> simp [created, createdRun, h]

theorem exec_of_created (h : created startKey [e] ≠ []) :
    ∃ p c input run, e = .exec p c (.create input) (.ok run) ∧
      run.metadata.startKey = some startKey := by
  cases hrun : createdRun e with
  | none => exact absurd (by simp [created, hrun]) h
  | some run =>
    unfold createdRun at hrun
    split at hrun
    · cases hrun
      rw [created_single] at h
      split_ifs at h with hkey
      · exact ⟨_, _, _, _, rfl, hkey⟩
      · exact absurd rfl h
    · cases hrun

theorem exec_identities (p : ℕ) (c : Call) (operation : Operation) (world : World) :
    (operation.exec world).2.tsukai.runs.map RunSnapshot.identity =
      world.tsukai.runs.map RunSnapshot.identity ++
        (createdRun (.exec p c operation (operation.exec world).1 :
          Event Call Operation (fun operation => Except Failure operation.Value) α)).toList.map
            RunSnapshot.identity := by
  by_cases hcreate : ∃ input, operation = .create input
  · obtain ⟨input, rfl⟩ := hcreate
    have hexec : Operation.exec (.create input) world = Operation.createRun world input := rfl
    rcases Operation.createRun_cases world input with ⟨e, heq⟩ |
      ⟨run, tsukai, environment, heq, -, hruns⟩
    · rw [hexec, heq, createdRun_error]
      exact (List.append_nil _).symm
    · rw [hexec, heq, hruns, createdRun, List.map_append]
      rfl
  · rw [createdRun_other fun input heq => hcreate ⟨input, heq⟩,
      (operation.exec_moves world fun input heq => hcreate ⟨input, heq⟩).identities]
    simp

theorem step_identities (h : Step program Operation.outcomes k e k') :
    k'.shared.tsukai.runs.map RunSnapshot.identity =
      k.shared.tsukai.runs.map RunSnapshot.identity ++
        (createdRun e).toList.map RunSnapshot.identity := by
  cases h with
  | @exec p c operation next r s' at_call outcome =>
    obtain ⟨t, hmoves, heq | ⟨⟨e, rfl⟩, rfl⟩⟩ := outcome
    · obtain ⟨rfl, rfl⟩ := Prod.mk.inj heq
      rw [← hmoves.tsukai.identities]
      exact exec_identities p c operation t
    · rw [createdRun_error]
      simpa using hmoves.tsukai.identities
  | invoke => simp [createdRun]
  | response => simp [createdRun]
  | crash => simp [createdRun]

theorem created_metadata
    (h : Step program Operation.outcomes k (.exec p c (.create input) (.ok run)) k') :
    run.metadata = input.metadata := by
  cases h with
  | exec at_call outcome =>
    obtain ⟨world, -, heq | ⟨⟨e, he⟩, -⟩⟩ := outcome
    · rcases Operation.createRun_cases world input with ⟨e, herror⟩ |
        ⟨run', tsukai, environment, hok, hmetadata, -⟩
      · cases heq.trans herror
      · cases heq.trans hok
        exact hmetadata
    · cases he

variable (h : Run program Operation.outcomes k es k')
include h

theorem run_identities :
    k'.shared.tsukai.runs.map RunSnapshot.identity =
      k.shared.tsukai.runs.map RunSnapshot.identity ++
        (es.filterMap createdRun).map RunSnapshot.identity := by
  induction h with
  | refl => simp
  | snoc run step ih =>
    rw [step_identities step, ih, List.append_assoc, List.filterMap_append, List.map_append]
    rfl

theorem mem_created_of_identity (hk : k.shared.tsukai.runs = [])
    (hkey : run.metadata.startKey = some startKey)
    (hrun : run.identity ∈ k'.shared.tsukai.runs.map RunSnapshot.identity) :
    run.agentRunId ∈ created startKey es := by
  rw [run_identities h, hk] at hrun
  simp only [List.map_nil, List.nil_append, List.mem_map] at hrun
  obtain ⟨run', hmem, hidentity⟩ := hrun
  obtain ⟨hid, hmetadata⟩ := Prod.mk.inj hidentity
  refine List.mem_map.2 ⟨run', List.mem_filter.2 ⟨hmem, ?_⟩, hid⟩
  rw [hmetadata, hkey]
  exact decide_eq_true rfl

theorem created_eq_nil (hk : k.shared.tsukai.runs = [])
    (hno : some startKey ∉ startKeys k'.shared) : created startKey es = [] := by
  rw [startKeys_eq, run_identities h, hk] at hno
  simp only [List.map_nil, List.nil_append, List.map_map, List.mem_map, not_exists, not_and] at hno
  rw [created, List.map_eq_nil_iff, List.filter_eq_nil_iff]
  intro run hrun hkey
  exact hno run hrun (of_decide_eq_true hkey)

end Created

/-- Any number of processes, each tolerating the growth that the others cause. -/
def growing : Contract World where
  inv _ := True
  rely := Grows
  guarantee := Grows
  rely_refl := .refl
  rely_trans := .trans
  rely_guarantee := .trans
  guarantee_refl := .refl

theorem growing_tolerates : Tolerates growing Grows (fun _ => True) where
  moves _ _ h _ := ⟨trivial, .of_moves h⟩
  rely _ _ h := h
  trans _ _ _ h h' := h.trans h'
  grows _ _ h := h
  exec operation world _ _ := ⟨trivial, .exec operation world, .exec operation world⟩
  looks _ _ := trivial
  lists _ _ := trivial

section Calls

/-- What a call may do: it lists on from runs that have other start keys, and creates a
run of its own start key when the list has ended without one. -/
def StarterCall.allows (call : StarterCall) : Operation → World → ManagerAnswers → Prop
  | .list limit cursor, world, _ =>
      limit = listPageLimit ∧ NoRunBefore call.startKey (cursor.getD 0) world
  | .create input, _, l =>
      input.metadata.startKey = some call.startKey ∧ Exhausted call.startKey l
  | _, _, _ => True

theorem StarterCall.permits (call : StarterCall) : Permits call.startKey call.allows where
  looks operation _ _ h := by cases operation <;> trivial
  lists _ _ _ h := ⟨rfl, h⟩

def StarterCall.post (call : StarterCall) : Except Failure StarterOutcome → World →
    ManagerAnswers → Prop
  | .ok outcome, world, _ => ∀ run, outcome.reported = some run → Held call.startKey run world
  | .error _, _, _ => True

theorem StarterCall.program_safe (pages : ℕ) (call : StarterCall) (world : World) :
    (call.program pages).Safe Operation.outcomes growing call.allows call.post world [] := by
  cases call with
  | start input =>
    have hpermits := (StarterCall.start input).permits
    refine safe_bind ?_
    refine startOnce_safe growing_tolerates hpermits ?_ ?_ ?_ pages (.refl world) trivial
    · exact fun e t m _ _ => trivial
    · rintro run t m - - hheld - run' ⟨⟩
      exact hheld
    · intro workspace t m ht _ _ _ hexhausted
      refine createAndBind_safe growing_tolerates hpermits.looks ?_ ?_ ?_ ?_ ht trivial
      · exact fun created hkey => ⟨hkey, hexhausted⟩
      · exact fun created before _ _ _ => ⟨trivial, .exec (.create created) before⟩
      · exact fun e t m _ => trivial
      · rintro result before created t' m' - - - hheld - run' ⟨⟩
        exact hheld
  | recover startKey managerSessionId =>
    have hpermits := (StarterCall.recover startKey managerSessionId).permits
    refine safe_bind ?_
    refine recover_safe growing_tolerates hpermits ?_ ?_ ?_ ?_ pages managerSessionId (.refl world)
      trivial
    · exact fun e t m _ _ => trivial
    · rintro run t m - - hheld - run' ⟨⟩
      exact hheld
    · rintro t m - - - - run ⟨⟩
    · rintro s t m - - - - - - run ⟨⟩

end Calls

section Runs

variable {pages : ℕ} {environment : Environment} {k : StarterConfig} {es : List StarterEvent}

def SingleRun (es : List StarterEvent) : Prop :=
  ∀ startKey, (created startKey es).length ≤ 1 ∧
    ∀ p c outcome run, .response p c (.ok outcome) ∈ es → c.startKey = startKey →
      outcome.reported = some run → created startKey es = [run.agentRunId]

def Unraced (es : List StarterEvent) : Prop :=
  ∀ before p c cursor page between input run after,
    es = before ++ .exec p c (.list listPageLimit cursor) (.ok page) ::
      (between ++ .exec p c (.create input) (.ok run) :: after) →
    (∀ e ∈ between, e.process ≠ p) → created c.startKey between = []

variable {es' : List StarterEvent} {run : RunSnapshot} {c : StarterCall} {input : CreateRunInput}
variable {p : ℕ}

theorem Unraced.prefix (h : Unraced (es ++ es')) : Unraced es := by
  rintro before p c cursor page between input run after rfl hbetween
  exact h before p c cursor page between input run (after ++ es') (by simp) hbetween

theorem Unraced.created_eq_nil
    (hunraced : Unraced (es ++ .exec p c (.create input) (.ok run) :: es'))
    (h : Run (StarterCall.program pages) Operation.outcomes (.idle (.initial environment))
      (es ++ .exec p c (.create input) (.ok run) :: es') k) : created c.startKey es = [] := by
  have hsafe : ∀ c s, growing.inv s → (StarterCall.program pages c).Safe Operation.outcomes growing
      c.allows c.post s [] := fun c s _ => c.program_safe pages s
  have hcovers : ∀ es : List StarterEvent, growing.Covers es := fun es => Or.inl fun _ _ h => h
  obtain ⟨k₁, k₂, hbefore, -, -, -, start, since, rfl, honly, -, hexhausted⟩ :=
    h.allowed (fun _ => rfl) trivial hsafe (hcovers _)
  obtain ⟨earlier, cursor, page, hanswers, hmatch, hnext⟩ := hexhausted
  obtain ⟨first, between, rfl, hbetween⟩ := honly.answers_snoc hanswers
  rw [← List.cons_append, ← List.append_assoc] at hbefore hunraced ⊢
  obtain ⟨k₃, k₄, hfirst, hlist, -, -, start', since', -, -, -, hno⟩ :=
    hbefore.allowed (fun _ => rfl) trivial hsafe (hcovers _)
  have hrun := hfirst.snoc hlist
  cases hlist with
  | exec at_call outcome =>
    obtain ⟨world, hmoves, heq | ⟨⟨e, he⟩, -⟩⟩ := outcome
    · obtain ⟨hpage, rfl⟩ := Prod.mk.inj heq
      cases hpage
      have hlast := noRun_of_last_page (hno.grows (.of_moves hmoves)) hmatch hnext
      rw [List.append_cons, created_append,
        TsukaiStarter.created_eq_nil hrun rfl hlast, List.nil_append]
      exact hunraced _ p c cursor _ between input run es' (List.append_assoc ..) hbetween
    · cases he

theorem startKey_of_created
    (h : Run (StarterCall.program pages) Operation.outcomes (.idle (.initial environment))
      (es ++ .exec p c (.create input) (.ok run) :: es') k) :
    run.metadata.startKey = some c.startKey := by
  obtain ⟨k₁, k₂, -, hstep, -, -, start, since, -, -, hkey, -⟩ :=
    h.allowed (fun _ => rfl) trivial (fun c s _ => c.program_safe pages s)
      (Or.inl fun _ _ h => h : growing.Covers _)
  rw [created_metadata hstep, hkey]

theorem Unraced.length_created_le (hunraced : Unraced es)
    (h : Run (StarterCall.program pages) Operation.outcomes (.idle (.initial environment)) es k)
    (startKey : String) : (created startKey es).length ≤ 1 := by
  induction es using List.reverseRecOn generalizing k with
  | nil => simp [created]
  | append_singleton es e ih =>
    obtain ⟨k₁, hbefore, hlast⟩ := h.split
    have hle := ih hunraced.prefix hbefore
    rw [created_append, List.length_append]
    by_cases hnone : created startKey [e] = []
    · rw [hnone, List.length_nil, Nat.add_zero]
      exact hle
    · obtain ⟨p, c, input, run, rfl, hkey⟩ := exec_of_created hnone
      have hc : c.startKey = startKey := Option.some.inj ((startKey_of_created h).symm.trans hkey)
      have hnil : created startKey es = [] := hc ▸ hunraced.created_eq_nil h
      rw [hnil, created_single, if_pos hkey]
      simp

theorem reported_mem_created {outcome : StarterOutcome}
    (h : Run (StarterCall.program pages) Operation.outcomes (.idle (.initial environment)) es k)
    (hresponse : .response p c (.ok outcome) ∈ es) (hreported : outcome.reported = some run) :
    run.agentRunId ∈ created c.startKey es := by
  obtain ⟨before, after, rfl⟩ := List.append_of_mem hresponse
  obtain ⟨k₁, hbefore, -, start, since, -, -, hheld⟩ :=
    h.response_post (fun _ => rfl) trivial (fun c s _ => c.program_safe pages s)
      (Or.inl fun _ _ h => h : growing.Covers _)
  have hrun := hheld run hreported
  rw [created_append]
  exact List.mem_append_left _ (mem_created_of_identity hbefore rfl hrun.1 hrun.identity)

/-- With at most one run created for each key, nothing was created in between. -/
theorem SingleRun.unraced (hsingle : SingleRun es)
    (h : Run (StarterCall.program pages) Operation.outcomes (.idle (.initial environment)) es k) :
    Unraced es := by
  intro before p c cursor page between input run after hes hbetween
  have hlist : es = (before ++ [.exec p c (.list listPageLimit cursor) (.ok page)] ++ between) ++
      .exec p c (.create input) (.ok run) :: after := by simp [hes]
  rw [hlist] at h hsingle
  have hkey := startKey_of_created h
  have hle := (hsingle c.startKey).1
  rw [List.append_cons, created_append, created_append, created_append, created_single,
    if_pos hkey] at hle
  simp only [List.length_append, List.length_singleton] at hle
  exact List.length_eq_zero_iff.1 (by omega)

end Runs

section Race

def twoAcceptances : Environment where
  clock := 10
  acceptances := [⟨"run-a", { lifecycle := .accepted, semantic := "queued", activity := "idle" }⟩,
    ⟨"run-b", { lifecycle := .accepted, semantic := "queued", activity := "idle" }⟩]
  cancelled := { lifecycle := .terminal, semantic := "ended", activity := "idle" }
  observation := { semanticLifecycleState := .unbound }
  validation := none
  admission := .error []
  startedExecution := { taskId := none, semanticLifecycleState := .unbound }
  piGuardPath := "/guard.ts"

def firstAttempt : StarterCall :=
  .start ⟨"session-1:attempt:0", "session-1", .pi,
    ⟨⟨.nawabari, .attached, some ⟨"workspace-1", "/worktree"⟩⟩, some "session-1"⟩, "task"⟩

/-- Two processes have come to the end of the list before either creates its run. -/
def createRace : List (Move StarterCall Failure) :=
  [.invoke 0 firstAttempt, .exec 0, .exec 0, .exec 0, .exec 0, .exec 0,
    .invoke 1 firstAttempt, .exec 1, .exec 1, .exec 1, .exec 1, .exec 1,
    .exec 0, .exec 0, .exec 0, .respond 0, .exec 1, .exec 1, .exec 1, .respond 1]

/-- A start whose process crashes after the creation, and its retry by another one. -/
def crashedStart : List (Move StarterCall Failure) :=
  [.invoke 0 firstAttempt, .exec 0, .exec 0, .exec 0, .exec 0, .exec 0, .exec 0, .crash 0,
    .invoke 1 firstAttempt, .exec 1, .exec 1, .exec 1, .exec 1, .exec 1, .exec 1, .exec 1, .respond 1]

end Race

end Mottainai.TsukaiStarter

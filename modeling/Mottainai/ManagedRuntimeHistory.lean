import Mottainai.ManagedRuntimeActivation

/-!
# What is recorded and what is retained

A generation that is recorded was recorded at the start, or a probe of it has passed while the
pointer was at it. A probe that failed before the call was killed does not count against the
candidate: the call that recovers probes it again. The three retention roots are replaced one after
the other. Every path that the state still needs is the target of some root as long as neither the
slot of the previous generation is given the active one while the state names another previous
generation, nor the slot of the active generation is given back to it after a commit was killed.
-/

namespace Mottainai.ManagedRuntime

open Interleaving JavaScriptValues

def Call.options : Call → Options
  | .reconcile options => options
  | .recover options => options

section Calls

variable {options : Options} {world : World} {l : RuntimeAnswers}

/-- How a call ends: no transaction is left, or it says why it has thrown. -/
def CallEnds (call : Call) :
    Except Thrown ReconcileResult → World → RuntimeAnswers → Prop
  | .ok _, world, _ => Settled world
  | .error error, world, l => Fails call.options error world l

theorem read_safe {operation : Operation} {value : operation.Value} {replace : Thrown → Thrown}
    {post : Except Thrown operation.Value → World → RuntimeAnswers → Prop}
    (hvalue : operation.result world = some value) (heffect : operation.effect world = world)
    (hw : Consistent world) (hpermitted : Permitted operation world)
    (hreplace : ∀ error, Unambiguous (replace error))
    (hok : ∀ m, l <+: m → post (.ok value) world m)
    (herror : ∀ error m, l <+: m → Faulted m → Unambiguous error → post (.error error) world m) :
    RuntimeSafe (tryCatch (request operation) fun error => throw (replace error)) post world l := by
  refine safe_tryCatch (file_safe hvalue hw hpermitted (fun m hm => ?_)
    fun message world' m hm _ hworld hfault => ?_)
  · rw [heffect]
    exact hok m hm
  · obtain rfl : world' = world := by
      rcases hworld with h | h
      · exact h
      · exact h.trans heffect
    exact herror _ m hm hfault (hreplace _)

theorem loadStateAndPointer_safe
    {post : Except Thrown (Option State × Option String) → World → RuntimeAnswers → Prop}
    (hw : Consistent world)
    (hok : ∀ m, l <+: m → post (.ok (world.state, world.pointer)) world m)
    (herror : ErrorPost options post l) :
    RuntimeSafe loadStateAndPointer post world l := by
  refine safe_bind (read_safe rfl rfl hw trivial (fun _ => unambiguous_managed (by simp))
    (fun m₁ h₁ => ?_) fun e m hm hfault hu =>
      herror e world m hm hw (.of_fault hu.explained hfault))
  refine safe_bind (read_safe rfl rfl hw trivial (fun _ => unambiguous_managed (by simp))
    (fun m₂ h₂ => ?_) fun e m hm hfault hu =>
      herror e world m (h₁.trans hm) hw (.of_fault hu.explained hfault))
  change RuntimeSafe (if world.state = none ∧ world.pointer ≠ none then _ else _) post world m₂
  rw [if_neg (fun h => h.2 ((consistent_none h.1).1 hw))]
  exact hok m₂ (h₁.trans h₂)

variable {post : Except Thrown ReconcileResult → World → RuntimeAnswers → Prop}

theorem settled_none (hstate : world.state = none) : Settled world :=
  (based_initial "" hstate).settled

theorem settled_idle {state : State} (hstate : world.state = some state)
    (hphase : state.activation.phase = .idle) : Settled world := by
  intro found hfound
  obtain rfl := Option.some.inj (hstate.symm.trans hfound)
  exact hphase

/-- `reconcileManagedRuntime`. -/
theorem reconcileManagedRuntime_safe (hw : Consistent world)
    (hok : ∀ result world m, l <+: m → Settled world → post (.ok result) world m)
    (herror : ErrorPost options post l) :
    RuntimeSafe (reconcileManagedRuntime options) post world l := by
  refine safe_bind (loadStateAndPointer_safe hw (fun m₁ h₁ => ?_) fun e w m hm =>
    herror e w m hm)
  have hok₁ : ∀ result world m, m₁ <+: m → Settled world → post (.ok result) world m :=
    fun result w m hm => hok result w m (h₁.trans hm)
  cases hstate : world.state with
  | none =>
    exact reconcileIdle_safe hw hstate (settled_none hstate) rfl hok₁ (herror.later h₁)
  | some state =>
    change RuntimeSafe (if state.activation.phase = .idle then _ else _) post world m₁
    split_ifs with hphase
    · exact reconcileIdle_safe hw hstate (settled_idle hstate hphase) rfl hok₁ (herror.later h₁)
    · refine safe_bind (recoverTransaction_safe hw hstate hphase rfl
        (fun result w m h₂ hw' hrecovered => ?_) fun e w m hm =>
          herror e w m (h₁.trans hm))
      exact reconcileIdle_safe hw' hrecovered.state
        (settled_of_state hrecovered.state hrecovered.activation) hrecovered.pointer
        (fun result w' m' hm => hok₁ result w' m' (h₂.trans hm)) (herror.later (h₁.trans h₂))

/-- `recoverManagedRuntime`. -/
theorem recoverManagedRuntime_safe (hw : Consistent world)
    (hok : ∀ result world m, l <+: m → Settled world → post (.ok result) world m)
    (herror : ErrorPost options post l) :
    RuntimeSafe (recoverManagedRuntime options) post world l := by
  refine safe_bind (loadStateAndPointer_safe hw (fun m₁ h₁ => ?_) fun e w m hm =>
    herror e w m hm)
  have hok₁ : ∀ result world m, m₁ <+: m → Settled world → post (.ok result) world m :=
    fun result w m hm => hok result w m (h₁.trans hm)
  cases hstate : world.state with
  | none => exact reconcileManagedRuntime_safe hw hok₁ (herror.later h₁)
  | some state =>
    change RuntimeSafe (if state.activation.phase = .idle then _ else _) post world m₁
    split_ifs with hphase
    · exact reconcileManagedRuntime_safe hw hok₁ (herror.later h₁)
    · refine safe_bind (recoverTransaction_safe hw hstate hphase rfl
        (fun result w m h₂ hw' hrecovered => ?_) fun e w m hm =>
          herror e w m (h₁.trans hm))
      have hsettled := settled_of_state hrecovered.state hrecovered.activation
      exact resultFromState_safe hw' hsettled
        (fun result m' hm => hok₁ result w m' (h₂.trans hm) hsettled)
        (herror.later (h₁.trans h₂))

/-- Every call keeps to the protocol, from every state that agrees with its pointer. -/
theorem body_safe (call : Call) (world : World) (hw : Consistent world) :
    call.body.Safe outcomes (.undisturbed Consistent)
      (fun operation world _ => Permitted operation world) (CallEnds call) world [] := by
  cases call with
  | reconcile options =>
    exact reconcileManagedRuntime_safe hw (fun _ _ _ _ h => h) fun _ _ _ _ _ h => h
  | recover options =>
    exact recoverManagedRuntime_safe hw (fun _ _ _ _ h => h) fun _ _ _ _ _ h => h

end Calls

/-- How an operation is answered in a script: an operation on files is carried out, fails, or
fails after it was carried out, and an adapter answers. -/
inductive Reply where
  | carried
  | lost (message : String)
  | late (message : String)
  | manifest (reading : ManifestReading)
  | current (answer : Bool)
  | compatible (answer : Bool)
  | built (generation : BuiltGeneration)
  | verified (answer : Bool)
  | health (answer : HealthAnswer)

def Reply.outcome : Reply → (operation : Operation) → World →
    Option (Except Thrown operation.Value × World)
  | .carried, operation, world =>
      (operation.result world).map fun value => (.ok value, operation.effect world)
  | .lost message, operation, world =>
      (operation.result world).map fun _ => (.error (.other message), world)
  | .late message, operation, world =>
      (operation.result world).map fun _ => (.error (.other message), operation.effect world)
  | .manifest answer, .readManifest, world => some (.ok answer, world)
  | .current answer, .generationIsCurrent _, world => some (.ok answer, world)
  | .compatible answer, .checkCompatibility _ _, world => some (.ok answer, world)
  | .built answer, .build _, world => some (.ok answer, world)
  | .verified answer, .verifyGeneration _, world => some (.ok answer, world)
  | .health answer, .healthCheck generation, world =>
      some (.ok answer, (Operation.healthCheck generation).recorded (.ok answer) world)
  | _, _, _ => none

theorem Reply.outcome_sound (reply : Reply) (operation : Operation) (world : World)
    (answer : Except Thrown operation.Value) (world' : World)
    (h : reply.outcome operation world = some (answer, world')) :
    outcomes operation world answer world' := by
  have hfile : ∀ (f : operation.Value → Except Thrown operation.Value × World),
      (∀ value, operation.result world = some value → f value = (.ok value, operation.effect world) ∨
        ∃ message, (f value).1 = .error (.other message) ∧
          ((f value).2 = world ∨ (f value).2 = operation.effect world)) →
      (operation.result world).map f = some (answer, world') →
      outcomes operation world answer world' := by
    intro f hf hmap
    obtain ⟨value, hvalue, heq⟩ := Option.map_eq_some_iff.1 hmap
    simp only [outcomes, hvalue]
    rcases hf value hvalue with hdone | ⟨message, herror, hworld⟩
    · rw [hdone] at heq
      cases heq
      exact Or.inl ⟨rfl, rfl⟩
    · rw [heq] at herror hworld
      exact Or.inr ⟨message, herror, hworld⟩
  cases reply with
  | carried => exact hfile _ (fun _ _ => Or.inl rfl) h
  | lost message => exact hfile _ (fun _ _ => Or.inr ⟨message, rfl, Or.inl rfl⟩) h
  | late message => exact hfile _ (fun _ _ => Or.inr ⟨message, rfl, Or.inr rfl⟩) h
  | _ =>
    cases operation <;> first | (cases h; rfl) | cases h

def performed (world : World) (script : List (Cue Call Reply)) : Option World :=
  ((Config.idle world).perform Call.body Reply.outcome 0 script).map (·.2.shared)

theorem exists_performed (world : World) (script : List (Cue Call Reply)) {β : Type}
    (f : World → β) {b : β} (h : (performed world script).map f = some b) :
    ∃ es k, Run Call.body outcomes (Config.idle world) es k ∧ OneProcess 0 es ∧
      f k.shared = b := by
  rw [performed, Option.map_map] at h
  exact Config.exists_performed _ _ _ Reply.outcome_sound script _ h

section Runs

variable {world₀ : World} {es : List (Event Call Operation
  (fun operation => Except Thrown operation.Value) (Except Thrown ReconcileResult))}
variable {k : Config World Call Operation (fun operation => Except Thrown operation.Value)
  (Except Thrown ReconcileResult)} {p : ℕ}

/-- Every run keeps the state file and the pointer in agreement. -/
theorem run_consistent (hw : Consistent world₀) (hone : OneProcess p es)
    (h : Run Call.body outcomes (Config.idle world₀) es k) : Consistent k.shared :=
  h.keeps_inv hw (fun call world hw => body_safe call world hw) hone

theorem run_fails {before after : List (Event Call Operation
      (fun operation => Except Thrown operation.Value) (Except Thrown ReconcileResult))}
    {call : Call} {result : Except Thrown ReconcileResult}
    (h : Run Call.body outcomes (Config.idle world₀) (before ++ .response p call result :: after) k)
    (hw : Consistent world₀) (hone : OneProcess p (before ++ .response p call result :: after)) :
    ∃ k₁, Run Call.body outcomes (Config.idle world₀) before k₁ ∧
      ∃ earlier since, before = earlier ++ .invoke p call :: since ∧ Uninterrupted p call since ∧
        CallEnds call result k₁.shared (answers p since) := by
  obtain ⟨k₁, hbefore, -, earlier, since, hes, hsince, hends⟩ :=
    h.response_post (fun _ => rfl) hw (fun call world hw => body_safe call world hw) hone.covers
  exact ⟨k₁, hbefore, earlier, since, hes, hsince, hends⟩

/-- From any start at which the state file and the pointer agree, in every run of calls that
follow one another and may be killed at any point: where the state file is idle the pointer names its active generation and nothing else,
and a call that reports an ambiguous activation could not read the pointer, or was told so by an
adapter. -/
theorem idle_pointer_names_active (hw : Consistent world₀)
    (h : Run Call.body outcomes (Config.idle world₀) es k) (hone : OneProcess p es) :
    (∀ state, k.shared.state = some state → state.activation.phase = .idle →
      k.shared.pointer = state.active.map (·.storePath)) ∧
    (k.shared.state = none → k.shared.pointer = none) ∧
    ∀ before call error after, es = before ++ .response p call (.error (.managed error)) :: after →
      error.code = .failure .ambiguousActivation →
      ∃ earlier since, before = earlier ++ .invoke p call :: since ∧
        Uninterrupted p call since ∧ ∃ a ∈ answers p since, Foreign error a := by
  have hconsistent := run_consistent hw hone h
  refine ⟨fun state hstate hphase => ?_, fun hstate => (consistent_none hstate).1 hconsistent, ?_⟩
  · exact ((coherent_idle hphase).1 ((consistent_some hstate).1 hconsistent)).2
  · rintro before call error after rfl hcode
    obtain ⟨k₁, -, earlier, since, hes, hsince, hfails⟩ := run_fails h hw hone
    exact ⟨earlier, since, hes, hsince, Fails.explained hfails error rfl hcode⟩

end Runs

/-- The canonical state root before the first call. -/
def emptyWorld : World := ⟨none, none, {}, []⟩

def sampleOptions : Options := ⟨1, false, false, "2026-01-01T00:00:00.000Z"⟩

/-- The cues of a call up to the switch of the pointer: a build of this store path. -/
def switchingScript (storePath : String) : List (Cue Call Reply) :=
  [.invoke (.reconcile sampleOptions), .answer .carried, .answer .carried,
    .answer (.manifest (.valid ⟨storePath, ["mottainai"]⟩)), .answer (.compatible true),
    .answer (.built ⟨storePath, storePath, none⟩), .answer (.compatible true),
    .answer (.verified true)] ++ List.replicate 6 (.answer .carried) ++
    [.answer (.compatible true), .answer (.verified true), .answer .carried]

/-- The first activation is killed between the switch and its record, and recovered. -/
def interruptedSwitch : List (Cue Call Reply) :=
  switchingScript "/nix/store/first" ++ [.crash, .invoke (.recover sampleOptions)] ++
    List.replicate 7 (.answer .carried) ++
    [.answer (.health (.flag true)), .answer .carried, .crash]

theorem emptyWorld_consistent : Consistent emptyWorld := rfl

theorem interruptedSwitch_pointer : ∃ es k state,
    Run Call.body outcomes (Config.idle emptyWorld) es k ∧ k.shared.state = some state ∧
      state.active.isSome = true ∧ k.shared.pointer = state.active.map (·.storePath) := by
  obtain ⟨es, k, hrun, hone, hk⟩ := exists_performed emptyWorld interruptedSwitch
    (fun world => world.state.map fun state => (state.activation.phase, state.active.isSome))
    (b := some (.idle, true)) (by decide)
  obtain ⟨state, hstate, hvalue⟩ := Option.map_eq_some_iff.1 hk
  refine ⟨es, k, state, hrun, hstate, congrArg Prod.snd hvalue, ?_⟩
  exact (idle_pointer_names_active emptyWorld_consistent hrun hone).1 state hstate
    (congrArg Prod.fst hvalue)

def State.records (state : State) : List GenerationRecord :=
  state.active.toList ++ state.previous.toList ++ state.activation.previous.toList

def World.records (world : World) : List GenerationRecord :=
  (world.state.map State.records).getD []

/-- A probe of the generation has passed while the pointer was at it. -/
def Passed (world : World) (generation : Candidate) : Prop :=
  ⟨generation, some generation.storePath, true⟩ ∈ world.probes

def Proven (start world : World) (record : GenerationRecord) : Prop :=
  (∃ old ∈ start.records, candidateFromRecord old = candidateFromRecord record) ∨
    Passed world (candidateFromRecord record)

/-- The transaction is being rolled back. -/
def RollingBack (state : State) : Prop :=
  state.activation.phase = .rollbackPending ∨ state.activation.phase = .rollbackHealthPending

/-- How one step may end a transaction: a rollback ends with the generations from before it, and
a candidate becomes active only right after a probe of it that has passed. -/
structure EndsProperly (world world' : World) : Prop where
  rollback : ∀ state, world.state = some state → RollingBack state →
    ∃ state', world'.state = some state' ∧ state'.previous = state.previous ∧
      state'.active.map candidateFromRecord = state.active.map candidateFromRecord ∧
      (RollingBack state' ∨ state'.activation.phase = .idle ∧
        world'.pointer = state.active.map (·.storePath))
  candidate : ∀ state candidate state', world.state = some state →
    state.activation.candidate = some candidate → world'.state = some state' →
    state'.activation.phase = .idle →
    state'.active.map candidateFromRecord = state.active.map candidateFromRecord ∨
      state.activation.phase = .switchedHealthPending ∧ LastProbe world candidate true ∧
        state'.active.map candidateFromRecord = some candidate

section Steps

variable {world world' start : World} {next state : State} {record : GenerationRecord}

theorem mem_records_active (h : state.active = some record) : record ∈ state.records := by
  simp [State.records, h]

theorem mem_records_previous (h : state.previous = some record) : record ∈ state.records := by
  simp [State.records, h]

theorem mem_records_activation (h : state.activation.previous = some record) :
    record ∈ state.records := by
  simp [State.records, h]

theorem mem_records : record ∈ state.records ↔ state.active = some record ∨
    state.previous = some record ∨ state.activation.previous = some record := by
  simp [State.records]

theorem World.records_of_state (h : world.state = some state) : world.records = state.records := by
  simp [World.records, h]

theorem mem_records_of_active (h : world.active = some record) : record ∈ world.records := by
  obtain ⟨state, hstate, hactive⟩ := Option.bind_eq_some_iff.1 h
  rw [World.records_of_state hstate]
  exact mem_records_active hactive

theorem mem_records_of_previous (h : world.previous = some record) : record ∈ world.records := by
  obtain ⟨state, hstate, hprevious⟩ := Option.bind_eq_some_iff.1 h
  rw [World.records_of_state hstate]
  exact mem_records_previous hprevious

/-- The record was written by a step: it is one from before, perhaps with other evidence, or the
last probe was one of it that has passed. -/
def Known (world : World) (record : GenerationRecord) : Prop :=
  (∃ old ∈ world.records, candidateFromRecord old = candidateFromRecord record) ∨
    LastProbe world (candidateFromRecord record) true

theorem Known.of_mem (h : record ∈ world.records) : Known world record := Or.inl ⟨record, h, rfl⟩

/-- Records of states that differ in nothing but the phase and the failure. -/
theorem Known.of_same (hstate : world.state = some state) (hactive : next.active = state.active)
    (hprevious : next.previous = state.previous)
    (hactivation : next.activation.previous = state.activation.previous)
    (h : record ∈ next.records) : Known world record := by
  rw [mem_records, hactive, hprevious, hactivation, ← mem_records,
    ← World.records_of_state hstate] at h
  exact .of_mem h

theorem Writes.known (h : Writes world next) (hrecord : record ∈ next.records) :
    Known world record := by
  cases h with
  | settle settled active previous activation =>
    rcases mem_records.1 hrecord with hactive | hprevious | hactivation
    · rw [hactive] at active
      obtain ⟨old, hold, heq⟩ := Option.map_eq_some_iff.1 active.symm
      exact Or.inl ⟨old, mem_records_of_active hold, heq⟩
    · exact .of_mem (mem_records_of_previous (previous.symm.trans hprevious))
    · rw [activation] at hactivation
      cases hactivation
  | prepare prepares roots =>
    obtain ⟨c, htransaction⟩ := prepares.transaction
    rcases mem_records.1 hrecord with hactive | hprevious | hactivation
    · exact .of_mem (mem_records_of_active (prepares.active.symm.trans hactive))
    · exact .of_mem (mem_records_of_previous (prepares.previous.symm.trans hprevious))
    · rw [htransaction.previous, prepares.active] at hactivation
      exact .of_mem (mem_records_of_active hactivation)
  | abandon found phase pointer active previous activation =>
    rw [mem_records, active, previous, activation] at hrecord
    refine .of_mem ?_
    rw [World.records_of_state found, mem_records]
    rcases hrecord with h | h | h
    · exact Or.inl h
    · exact Or.inr (Or.inl h)
    · cases h
  | switch failure found phase activates pointer => exact .of_same found rfl rfl rfl hrecord
  | fail failure found phase activates probe => exact .of_same found rfl rfl rfl hrecord
  | rollback found phase previous pointer => exact .of_same found rfl rfl rfl hrecord
  | rollbackFailed failure found phase => exact .of_same found rfl rfl rfl hrecord
  | restore evidence found phase previous probe =>
    rcases mem_records.1 hrecord with hactive | hprevious | hactivation
    · cases hactive
      exact Or.inr probe
    · exact .of_mem (World.records_of_state found ▸ mem_records_previous hprevious)
    · cases hactivation
  | clear found phase previous pointer =>
    rcases mem_records.1 hrecord with hactive | hprevious | hactivation
    · cases hactive
    · exact .of_mem (World.records_of_state found ▸ mem_records_previous hprevious)
    · cases hactivation
  | commit commits roots =>
    obtain ⟨evidence, hactive⟩ := commits.active
    rcases mem_records.1 hrecord with h | h | h
    · rw [hactive] at h
      cases h
      exact Or.inr commits.probe
    · rw [commits.previous, Option.or_eq_some_iff] at h
      refine .of_mem (World.records_of_state commits.found ▸ ?_)
      rcases h with h | ⟨-, h⟩
      · exact mem_records_activation h
      · exact mem_records_previous h
    · rw [commits.activation] at h
      cases h

variable {operation : Operation} {answer : Except Thrown operation.Value}

/-- A probe that was made stays made. -/
theorem probes_subset (h : outcomes operation world answer world') :
    world.probes ⊆ world'.probes := by
  have heffect : (operation.effect world).probes = world.probes := by cases operation <;> rfl
  cases hvalue : operation.result world with
  | none =>
    rw [outcomes_adapter hvalue h]
    cases operation with
    | healthCheck generation => exact List.subset_cons_self _ _
    | _ => exact List.Subset.refl _
  | some value =>
    rcases outcomes_result hvalue h with ⟨-, rfl⟩ | ⟨-, -, rfl | rfl⟩
    · rw [heffect]
      exact List.Subset.refl _
    · exact List.Subset.refl _
    · rw [heffect]
      exact List.Subset.refl _

/-- A step leaves the state file alone, or it is one of the transitions, and then nothing else
has changed. -/
theorem state_step (hpermitted : Permitted operation world)
    (h : outcomes operation world answer world') :
    world'.state = world.state ∨
      ∃ next, Writes world next ∧ world' = { world with state := some next } := by
  cases hvalue : operation.result world with
  | none =>
    rw [outcomes_adapter hvalue h]
    cases operation <;> exact Or.inl rfl
  | some value =>
    have hmoved : (operation.effect world).state = world.state ∨ ∃ next, Writes world next ∧
        operation.effect world = { world with state := some next } := by
      cases operation with
      | writeState next => exact Or.inr ⟨next, hpermitted, rfl⟩
      | _ => exact Or.inl rfl
    rcases outcomes_result hvalue h with ⟨-, rfl⟩ | ⟨-, -, rfl | rfl⟩
    · exact hmoved
    · exact Or.inl rfl
    · exact hmoved

theorem proven_step (hpermitted : Permitted operation world)
    (h : outcomes operation world answer world')
    (hproven : ∀ record ∈ world.records, Proven start world record) :
    ∀ record ∈ world'.records, Proven start world' record := by
  intro record hrecord
  have hsubset := probes_subset h
  rcases state_step hpermitted h with hsame | ⟨next, hwrites, rfl⟩
  · have hmem : record ∈ world.records := by rwa [World.records, ← hsame]
    exact (hproven record hmem).imp_right fun hpassed => hsubset hpassed
  · rcases hwrites.known hrecord with ⟨old, hold, heq⟩ | hprobe
    · have hknown := hproven old hold
      rw [Proven, heq] at hknown
      exact hknown
    · exact Or.inr (List.mem_of_mem_head? hprobe)

theorem endsProperly_of_ne (found : world.state = some state) (hphase : ¬ RollingBack state)
    (hnext : next.activation.phase ≠ .idle) :
    EndsProperly world { world with state := some next } where
  rollback := by
    intro state' hstate' hrolling
    obtain rfl := Option.some.inj (found.symm.trans hstate')
    exact absurd hrolling hphase
  candidate := by
    rintro _ _ _ - - ⟨⟩ hidle
    exact absurd hidle hnext

/-- A transition within a rollback. -/
theorem endsProperly_of_rolling (found : world.state = some state)
    (hactive : next.active = state.active) (hprevious : next.previous = state.previous)
    (hrolling : RollingBack next) : EndsProperly world { world with state := some next } where
  rollback := by
    intro state' hstate' _
    obtain rfl := Option.some.inj (found.symm.trans hstate')
    exact ⟨next, rfl, hprevious, by rw [hactive], Or.inl hrolling⟩
  candidate := by
    rintro state' _ _ - - ⟨⟩ hidle
    rcases hrolling with h | h <;> rw [h] at hidle <;> cases hidle

/-- A transition that ends a transaction with the generations from before it. -/
theorem endsProperly_of_back (found : world.state = some state)
    (hactive : next.active.map candidateFromRecord = state.active.map candidateFromRecord)
    (hprevious : next.previous = state.previous) (hidle : next.activation.phase = .idle)
    (hpointer : world.pointer = state.active.map (·.storePath)) :
    EndsProperly world { world with state := some next } where
  rollback := by
    intro state' hstate' _
    obtain rfl := Option.some.inj (found.symm.trans hstate')
    exact ⟨next, rfl, hprevious, hactive, Or.inr ⟨hidle, hpointer⟩⟩
  candidate := by
    rintro state' _ _ hstate' - ⟨⟩ -
    obtain rfl := Option.some.inj (found.symm.trans hstate')
    exact Or.inl hactive

theorem Writes.endsProperly (h : Writes world next) (hw : Consistent world) :
    EndsProperly world { world with state := some next } := by
  cases h with
  | settle settled active previous activation =>
    refine ⟨fun state hstate hrolling => ?_, ?_⟩
    · rcases hrolling with h | h <;> rw [settled state hstate] at h <;> cases h
    · rintro state _ _ hstate - ⟨⟩ -
      refine Or.inl (active.trans ?_)
      rw [World.active, hstate]
      rfl
  | prepare prepares roots =>
    refine ⟨fun state hstate hrolling => ?_, ?_⟩
    · rcases hrolling with h | h <;> rw [prepares.settled state hstate] at h <;> cases h
    · rintro _ _ _ - - ⟨⟩ hidle
      rw [prepares.phase] at hidle
      cases hidle
  | abandon found phase pointer active previous activation =>
    exact endsProperly_of_back found (by rw [active]) previous (by rw [activation]) pointer
  | switch failure found phase activates pointer =>
    exact endsProperly_of_ne found (by simp [RollingBack, phase]) (by simp [stateWithActivation])
  | fail failure found phase activates probe =>
    exact endsProperly_of_ne found (by simp [RollingBack, phase]) (by simp [rollbackPendingState])
  | rollback found phase previous pointer => exact endsProperly_of_rolling found rfl rfl (Or.inr rfl)
  | rollbackFailed failure found phase =>
    exact endsProperly_of_rolling found rfl rfl (Or.inr phase)
  | restore evidence found phase previous probe =>
    obtain ⟨c, r, htransaction, hactive, hpointer⟩ :=
      (coherent_rollbackHealthPending phase).1 ((consistent_some found).1 hw)
    obtain rfl := Option.some.inj (previous.symm.trans (htransaction.previous.trans hactive))
    refine endsProperly_of_back found ?_ rfl rfl ?_
    · rw [hactive]
      rfl
    · rw [hactive, hpointer]
      rfl
  | clear found phase previous pointer =>
    obtain ⟨c, htransaction, -⟩ :=
      (coherent_rollbackPending phase).1 ((consistent_some found).1 hw)
    have hactive := htransaction.previous.symm.trans previous
    refine endsProperly_of_back found ?_ rfl rfl ?_
    · rw [hactive]
    · rw [hactive, pointer]
      rfl
  | commit commits roots =>
    obtain ⟨evidence, hactive⟩ := commits.active
    refine ⟨fun state hstate hrolling => ?_, ?_⟩
    · obtain rfl := Option.some.inj (commits.found.symm.trans hstate)
      rcases hrolling with h | h <;> rw [commits.phase] at h <;> cases h
    · rintro state candidate _ hstate hactivates ⟨⟩ -
      obtain rfl := Option.some.inj (commits.found.symm.trans hstate)
      obtain rfl := Option.some.inj (commits.activates.symm.trans hactivates)
      refine Or.inr ⟨commits.phase, commits.probe, ?_⟩
      rw [hactive]
      rfl

theorem endsProperly_step (hw : Consistent world) (hpermitted : Permitted operation world)
    (h : outcomes operation world answer world') :
    (world'.state = world.state) ∨ EndsProperly world world' := by
  rcases state_step hpermitted h with hsame | ⟨next, hwrites, rfl⟩
  · exact Or.inl hsame
  · exact Or.inr (hwrites.endsProperly hw)

end Steps

section Runs

variable {world₀ : World} {es : List (Event Call Operation
  (fun operation => Except Thrown operation.Value) (Except Thrown ReconcileResult))}
variable {k : Config World Call Operation (fun operation => Except Thrown operation.Value)
  (Except Thrown ReconcileResult)} {p : ℕ}

theorem run_proven (hw : Consistent world₀) (hone : OneProcess p es)
    (h : Run Call.body outcomes (Config.idle world₀) es k) :
    ∀ record ∈ k.shared.records, Proven world₀ k.shared record := by
  have hguarded : Run Call.body (outcomes.guarded fun _ _ => True) (Config.idle world₀) es k :=
    h.mono fun _ _ _ _ hsem => Semantics.guarded_of_true hsem
  exact Run.preserves hguarded hw (fun call world hw => body_safe call world hw) hone
    (fun _ _ _ _ _ _ hproven hpermitted _ hsem => proven_step hpermitted hsem hproven)
    fun record hrecord => Or.inl ⟨record, hrecord, rfl⟩

/-- In every run of calls that follow one another and may be killed at any point: a record that
the state file names was there at the start, or a probe of its generation has passed while the
pointer was at it; every step that changes the state file ends a transaction properly; and a
call in which no operation on a file has failed leaves no transaction behind, unless a generation
of the transaction is not supported or the previous one has failed its own probe. -/
theorem recorded_generations_proven (hw : Consistent world₀)
    (h : Run Call.body outcomes (Config.idle world₀) es k) (hone : OneProcess p es) :
    (∀ record ∈ k.shared.records, Proven world₀ k.shared record) ∧
    (∀ before event after k₁ k₂, es = before ++ event :: after →
      Run Call.body outcomes (Config.idle world₀) before k₁ →
      Step Call.body outcomes k₁ event k₂ →
      k₂.shared.state = k₁.shared.state ∨ EndsProperly k₁.shared k₂.shared) ∧
    ∀ before call result after, es = before ++ .response p call result :: after →
      ∃ k₁ earlier since, Run Call.body outcomes (Config.idle world₀) before k₁ ∧
        before = earlier ++ .invoke p call :: since ∧ Uninterrupted p call since ∧
        (Settled k₁.shared ∨ Faulted (answers p since) ∨
          Unsupported call.options k₁.shared ∨ PreviousUnhealthy k₁.shared) := by
  refine ⟨run_proven hw hone h, ?_, ?_⟩
  · rintro before event after k₁ k₂ rfl hbefore hstep
    rcases hbefore.step_moves hstep hw (fun call world hw => body_safe call world hw)
      (fun e he => hone e (List.mem_append_left _ he)) with hsame | ⟨_, _, _, hpermitted, hw₁, hsem⟩
    · exact Or.inl (by rw [hsame])
    · exact endsProperly_step hw₁ hpermitted hsem
  · rintro before call result after rfl
    obtain ⟨k₁, hbefore, earlier, since, hes, hsince, hends⟩ := run_fails h hw hone
    refine ⟨k₁, earlier, since, hbefore, hes, hsince, ?_⟩
    cases result with
    | ok value => exact Or.inl hends
    | error error => exact Fails.excused hends

end Runs

def probedAgain : List (Cue Call Reply) :=
  switchingScript "/nix/store/first" ++ [.answer .carried, .answer (.health (.flag false)), .crash,
    .invoke (.recover sampleOptions)] ++ List.replicate 6 (.answer .carried) ++
    [.answer (.health (.flag true)), .answer .carried, .crash]

theorem probedAgain_recorded : ∃ es k, Run Call.body outcomes (Config.idle emptyWorld) es k ∧
    OneProcess 0 es ∧ ∃ record ∈ k.shared.records,
      ⟨candidateFromRecord record, some record.storePath, false⟩ ∈ k.shared.probes := by
  obtain ⟨es, k, hrun, hone, hk⟩ := exists_performed emptyWorld probedAgain
    (fun world => world.records.any fun record =>
      world.probes.contains ⟨candidateFromRecord record, some record.storePath, false⟩)
    (b := true) (by decide)
  obtain ⟨record, hrecord, hprobe⟩ := List.any_eq_true.1 hk
  exact ⟨es, k, hrun, hone, record, hrecord, List.elem_iff.1 hprobe⟩

theorem interruptedSwitch_proven : ∃ es k,
    Run Call.body outcomes (Config.idle emptyWorld) es k ∧ ∃ record ∈ k.shared.records,
      Proven emptyWorld k.shared record := by
  obtain ⟨es, k, hrun, hone, hk⟩ := exists_performed emptyWorld interruptedSwitch
    (fun world => world.records.length) (b := 1) (by decide)
  obtain ⟨record, hrecord⟩ := List.length_eq_one_iff.1 hk
  have hmem : record ∈ k.shared.records := hrecord ▸ List.mem_singleton_self record
  exact ⟨es, k, hrun, record, hmem,
    (recorded_generations_proven emptyWorld_consistent hrun hone).1 record hmem⟩

def World.needed (world : World) : List String :=
  world.pointer.toList ++ match world.state with
    | none => []
    | some state => state.active.toList.map (·.storePath) ++
        state.previous.toList.map (·.storePath) ++
        state.activation.candidate.toList.map (·.storePath)

def Rooted (world : World) : Prop := ∀ path ∈ world.needed, world.roots.Retains path

def previousTarget (state : State) : Option String := (retainedRoots state none).previous

/-- Which slots hold the generations of an idle state. -/
structure HeldIdle (state : State) (roots : RetentionRoots) : Prop where
  active : ∀ path, activePath state = some path → roots.Retains path
  previous : ∀ record, state.previous = some record →
    activePath state = some record.storePath ∨ roots.previous = some record.storePath

/-- Which slots hold the generations of a transaction. -/
structure HeldTransaction (state : State) (roots : RetentionRoots) : Prop where
  previous : roots.previous = previousTarget state
  same : ∀ active previous, state.active = some active → state.previous = some previous →
    previous.storePath = active.storePath
  candidate : ∀ candidate, state.activation.candidate = some candidate →
    roots.active = some candidate.storePath ∨ roots.candidate = some candidate.storePath

/-- Which slots hold what the state needs. -/
def Held (world : World) : Prop :=
  ∀ state, world.state = some state →
    (state.activation.phase = .idle → HeldIdle state world.roots) ∧
    (state.activation.phase ≠ .idle → HeldTransaction state world.roots)

def Operation.replacement : Operation → Option (RetentionSlot × String)
  | .setRoot slot target => some (slot, target)
  | _ => none

/-- The replacements of a root that leave no gap: in an idle state the slot of the previous
generation is given the previous generation of that state, and in a transaction the slot of the
active generation is given away only while another root holds the candidate. -/
def LeavesNoGap (operation : Operation) (world : World) : Prop :=
  ∀ r ∈ operation.replacement, ∀ state ∈ world.state,
    (state.activation.phase = .idle → r.1 = .previous →
      ∀ record ∈ state.previous, record.storePath = r.2) ∧
    (state.activation.phase ≠ .idle → r.1 = .active →
      ∀ candidate ∈ state.activation.candidate,
        candidate.storePath = r.2 ∨ world.roots.candidate = some candidate.storePath)

instance (operation : Operation) (world : World) : Decidable (LeavesNoGap operation world) := by
  unfold LeavesNoGap
  infer_instance

section Held

variable {world : World} {state next : State} {roots plan : RetentionRoots}
variable {slot : RetentionSlot} {target path : String}

theorem held_idle (hstate : world.state = some state) (hphase : state.activation.phase = .idle) :
    Held world ↔ HeldIdle state world.roots := by
  constructor
  · exact fun h => (h state hstate).1 hphase
  · intro h found hfound
    obtain rfl := Option.some.inj (hstate.symm.trans hfound)
    exact ⟨fun _ => h, fun hne => absurd hphase hne⟩

theorem held_transaction (hstate : world.state = some state)
    (hphase : state.activation.phase ≠ .idle) :
    Held world ↔ HeldTransaction state world.roots := by
  constructor
  · exact fun h => (h state hstate).2 hphase
  · intro h found hfound
    obtain rfl := Option.some.inj (hstate.symm.trans hfound)
    exact ⟨fun heq => absurd heq hphase, fun _ => h⟩

theorem held_of_idle (hphase : next.activation.phase = .idle) (h : HeldIdle next world.roots) :
    Held { world with state := some next } := (held_idle rfl hphase).2 h

theorem held_of_transaction (hphase : next.activation.phase ≠ .idle)
    (h : HeldTransaction next world.roots) : Held { world with state := some next } :=
  (held_transaction rfl hphase).2 h

theorem held_none (hstate : world.state = none) : Held world := by
  intro state h
  rw [hstate] at h
  cases h

variable {candidate : Candidate}

theorem previousTarget_of_transaction (h : Transaction state candidate) :
    previousTarget state = (activePath state).or (state.previous.map (·.storePath)) := by
  rw [previousTarget, retainedRoots, h.previous]
  rfl

/-- The slot of the previous generation holds the active one, if there is one. -/
theorem HeldTransaction.retains_active (h : HeldTransaction state roots)
    (ht : Transaction state candidate) (hactive : activePath state = some path) :
    roots.Retains path := by
  refine ⟨.previous, h.previous.trans ?_⟩
  rw [previousTarget_of_transaction ht, hactive]
  rfl

theorem HeldTransaction.holds_previous {record : GenerationRecord}
    (h : HeldTransaction state roots) (ht : Transaction state candidate)
    (hprevious : state.previous = some record) :
    activePath state = some record.storePath ∨ roots.previous = some record.storePath := by
  cases hactive : state.active with
  | some active =>
    refine Or.inl ?_
    rw [activePath, hactive, h.same active record hactive hprevious]
    rfl
  | none =>
    refine Or.inr (h.previous.trans ?_)
    rw [previousTarget_of_transaction ht, activePath, hactive, hprevious]
    rfl

theorem HeldTransaction.retains_candidate (h : HeldTransaction state roots)
    (hcandidate : state.activation.candidate = some candidate) :
    roots.Retains candidate.storePath :=
  (h.candidate candidate hcandidate).elim (fun h => ⟨.active, h⟩) fun h => ⟨.candidate, h⟩

theorem Coherent.pointer_cases (h : Coherent state (some path))
    (hphase : state.activation.phase ≠ .idle) :
    (∃ c, state.activation.candidate = some c ∧ path = c.storePath) ∨
      activePath state = some path := by
  have hwhere : ∀ c, Transaction state c →
      (some path = some c.storePath ∨ some path = activePath state) →
      (∃ c, state.activation.candidate = some c ∧ path = c.storePath) ∨
        activePath state = some path := by
    intro c ht hor
    exact hor.imp (fun h => ⟨c, ht.activates, Option.some.inj h⟩) Eq.symm
  cases hp : state.activation.phase with
  | idle => exact absurd hp hphase
  | prepared =>
    obtain ⟨c, ht, hor⟩ := (coherent_prepared hp).1 h
    exact hwhere c ht hor
  | switchedHealthPending =>
    obtain ⟨c, ht, heq⟩ := (coherent_switched hp).1 h
    exact hwhere c ht (Or.inl heq)
  | rollbackPending =>
    obtain ⟨c, ht, hor⟩ := (coherent_rollbackPending hp).1 h
    exact hwhere c ht hor
  | rollbackHealthPending =>
    obtain ⟨c, r, ht, hactive, heq⟩ := (coherent_rollbackHealthPending hp).1 h
    refine hwhere c ht (Or.inr ?_)
    rw [heq, activePath, hactive]
    rfl

theorem mem_needed (hstate : world.state = some state) : path ∈ world.needed ↔
    world.pointer = some path ∨ activePath state = some path ∨
      (∃ record, state.previous = some record ∧ record.storePath = path) ∨
      ∃ c, state.activation.candidate = some c ∧ c.storePath = path := by
  simp [World.needed, hstate, activePath]

/-- What the slots hold covers everything that the state needs. -/
theorem Held.rooted (h : Held world) (hw : Consistent world) : Rooted world := by
  intro path hpath
  cases hstate : world.state with
  | none =>
    simp [World.needed, hstate, (consistent_none hstate).1 hw] at hpath
  | some state =>
    have hcoherent := (consistent_some hstate).1 hw
    rw [mem_needed hstate] at hpath
    by_cases hphase : state.activation.phase = .idle
    · have hidle := (held_idle hstate hphase).1 h
      obtain ⟨hactivation, hpointer⟩ := (coherent_idle hphase).1 hcoherent
      rcases hpath with hp | hactive | ⟨record, hprevious, rfl⟩ | ⟨c, hcandidate, -⟩
      · exact hidle.active path (hpointer.symm.trans hp)
      · exact hidle.active path hactive
      · rcases hidle.previous record hprevious with hactive | hslot
        · exact hidle.active _ hactive
        · exact ⟨.previous, hslot⟩
      · rw [hactivation] at hcandidate
        cases hcandidate
    · have htransaction := (held_transaction hstate hphase).1 h
      obtain ⟨c, ht⟩ := hcoherent.transaction hphase
      rcases hpath with hp | hactive | ⟨record, hprevious, rfl⟩ | ⟨c', hcandidate, rfl⟩
      · rw [hp] at hcoherent
        rcases hcoherent.pointer_cases hphase with ⟨c', hcandidate, rfl⟩ | hactive
        · exact htransaction.retains_candidate hcandidate
        · exact htransaction.retains_active ht hactive
      · exact htransaction.retains_active ht hactive
      · rcases htransaction.holds_previous ht hprevious with hactive | hslot
        · exact htransaction.retains_active ht hactive
        · exact ⟨.previous, hslot⟩
      · exact htransaction.retains_candidate hcandidate

/-- An update in an idle state works towards its active generation, and does not remove the root
of its previous one. -/
theorem Plans.of_idle (h : Plans world plan) (hstate : world.state = some state)
    (hactivation : state.activation = { phase := .idle }) :
    plan.active = activePath state ∧ (plan.previous = none → state.previous = none) := by
  cases h with
  | own found =>
    obtain rfl := Option.some.inj (hstate.symm.trans found)
    refine ⟨rfl, fun hnone => ?_⟩
    simpa [retainedRoots, hactivation] using hnone
  | @stage next prepares =>
    obtain ⟨c, ht⟩ := prepares.transaction
    have hactive : next.active = state.active := by
      rw [prepares.active, World.active, hstate]
      rfl
    have hprevious : next.previous = state.previous := by
      rw [prepares.previous, World.previous, hstate]
      rfl
    refine ⟨by rw [retainedRoots, activePath, activePath, hactive], fun hnone => ?_⟩
    change previousTarget next = none at hnone
    rw [previousTarget_of_transaction ht, hprevious, Option.or_eq_none_iff] at hnone
    exact Option.map_eq_none_iff.1 hnone.2
  | commit commits =>
    obtain rfl := Option.some.inj (hstate.symm.trans commits.found)
    have hphase := commits.phase
    rw [hactivation] at hphase
    cases hphase

/-- An update in a transaction works towards the same previous generation, and towards its
candidate in one of the two other slots. -/
theorem Plans.of_transaction (h : Plans world plan) (hstate : world.state = some state)
    (hphase : state.activation.phase ≠ .idle)
    (hcandidate : state.activation.candidate = some candidate) :
    plan.previous = previousTarget state ∧
      (plan.candidate = some candidate.storePath ∨
        plan.candidate = none ∧ plan.active = some candidate.storePath) := by
  cases h with
  | own found =>
    obtain rfl := Option.some.inj (hstate.symm.trans found)
    exact ⟨rfl, Or.inl (by rw [retainedRoots, hcandidate]; rfl)⟩
  | stage prepares => exact absurd (prepares.settled state hstate) hphase
  | commit commits =>
    obtain rfl := Option.some.inj (hstate.symm.trans commits.found)
    obtain rfl := Option.some.inj (hcandidate.symm.trans commits.activates)
    obtain ⟨evidence, hactive⟩ := commits.active
    refine ⟨?_, Or.inr ⟨?_, ?_⟩⟩
    · simp [retainedRoots, previousTarget, commits.activation, commits.previous, Option.map_or]
    · simp [retainedRoots, commits.activation]
    · simp [retainedRoots, activePath, hactive]

theorem HeldIdle.set (h : HeldIdle state roots) (hactive : plan.active = activePath state)
    (htarget : plan.get slot = some target) (hearlier : Installed plan roots slot.earlier)
    (hguard : slot = .previous → ∀ record, state.previous = some record →
      record.storePath = target) : HeldIdle state (roots.set slot (some target)) := by
  have hinstalled : slot ≠ .active → ∀ path, activePath state = some path →
      roots.active = some path := by
    intro hne path hpath
    have hmem : RetentionSlot.active ∈ slot.earlier := by
      cases slot with
      | active => exact absurd rfl hne
      | previous => simp [RetentionSlot.earlier]
      | candidate => simp [RetentionSlot.earlier]
    exact hearlier .active hmem path (hactive.trans hpath)
  cases slot with
  | active =>
    refine ⟨fun path hpath => ⟨.active, ?_⟩, h.previous⟩
    exact htarget.symm.trans (hactive.trans hpath)
  | previous =>
    refine ⟨fun path hpath => ⟨.active, hinstalled (by simp) path hpath⟩, fun record hrecord => ?_⟩
    exact Or.inr (congrArg some (hguard rfl record hrecord).symm)
  | candidate =>
    exact ⟨fun path hpath => ⟨.active, hinstalled (by simp) path hpath⟩, h.previous⟩

theorem HeldIdle.remove (h : HeldIdle state roots) (hactive : plan.active = activePath state)
    (hprevious : plan.previous = none → state.previous = none) (hnone : plan.get slot = none)
    (hinstalled : Installed plan roots retentionSlots) : HeldIdle state (roots.set slot none) := by
  refine ⟨fun path hpath => ⟨.active, ?_⟩, fun record hrecord => ?_⟩
  · exact hinstalled.remove hnone .active (by decide) path (hactive.trans hpath)
  · refine (h.previous record hrecord).imp_right fun hslot => ?_
    cases slot with
    | previous =>
      rw [hprevious hnone] at hrecord
      cases hrecord
    | active => exact hslot
    | candidate => exact hslot

variable (h : HeldTransaction state roots)
include h

theorem HeldTransaction.set (hactivates : state.activation.candidate = some candidate)
    (hprevious : plan.previous = previousTarget state)
    (hcandidate : plan.candidate = some candidate.storePath ∨
      plan.candidate = none ∧ plan.active = some candidate.storePath)
    (htarget : plan.get slot = some target)
    (hguard : slot = .active → ∀ candidate, state.activation.candidate = some candidate →
      candidate.storePath = target ∨ roots.candidate = some candidate.storePath) :
    HeldTransaction state (roots.set slot (some target)) := by
  cases slot with
  | active =>
    refine ⟨h.previous, h.same, fun c hc => ?_⟩
    exact (hguard rfl c hc).imp_left fun heq => congrArg some heq.symm
  | previous => exact ⟨htarget.symm.trans hprevious, h.same, h.candidate⟩
  | candidate =>
    refine ⟨h.previous, h.same, fun c hc => Or.inr ?_⟩
    obtain rfl := Option.some.inj (hactivates.symm.trans hc)
    rcases hcandidate with hcandidate | ⟨hcandidate, -⟩
    · exact htarget.symm.trans hcandidate
    · cases htarget.symm.trans hcandidate

theorem HeldTransaction.remove (hactivates : state.activation.candidate = some candidate)
    (hprevious : plan.previous = previousTarget state)
    (hcandidate : plan.candidate = some candidate.storePath ∨
      plan.candidate = none ∧ plan.active = some candidate.storePath)
    (hnone : plan.get slot = none) (hinstalled : Installed plan roots retentionSlots) :
    HeldTransaction state (roots.set slot none) := by
  refine ⟨?_, h.same, fun c hc => ?_⟩
  · cases slot with
    | previous => exact hnone.symm.trans hprevious
    | active => exact h.previous
    | candidate => exact h.previous
  · obtain rfl := Option.some.inj (hactivates.symm.trans hc)
    have hkept := hinstalled.remove hnone
    rcases hcandidate with hcandidate | ⟨-, hactive⟩
    · exact Or.inr (hkept .candidate (by decide) _ hcandidate)
    · exact Or.inl (hkept .active (by decide) _ hactive)

/-- A transaction that goes on needs what it needed. -/
theorem HeldTransaction.of_same
    (hcandidate : next.activation.candidate = state.activation.candidate)
    (hactivation : next.activation.previous = state.activation.previous)
    (hactive : next.active = state.active) (hprevious : next.previous = state.previous) :
    HeldTransaction next roots := by
  refine ⟨?_, fun a p ha hp => h.same a p (hactive ▸ ha) (hprevious ▸ hp),
    fun c hc => h.candidate c (hcandidate ▸ hc)⟩
  rw [h.previous, previousTarget, previousTarget, retainedRoots, retainedRoots, hactivation,
    hprevious]

/-- A transaction that ends with the generations from before it. -/
theorem HeldTransaction.back (ht : Transaction state candidate)
    (hactive : activePath next = activePath state) (hprevious : next.previous = state.previous) :
    HeldIdle next roots where
  active := fun _ hpath => h.retains_active ht (hactive.symm.trans hpath)
  previous := fun record hrecord => by
    rw [hactive]
    exact h.holds_previous ht (hprevious.symm.trans hrecord)

end Held

section Steps

variable {world world' : World} {next : State}

theorem Writes.held (h : Writes world next) (hw : Consistent world) (hheld : Held world) :
    Held { world with state := some next } := by
  have htransaction : ∀ {state : State}, world.state = some state →
      state.activation.phase ≠ .idle →
      HeldTransaction state world.roots ∧ ∃ c, Transaction state c :=
    fun hstate hphase => ⟨(held_transaction hstate hphase).1 hheld,
      ((consistent_some hstate).1 hw).transaction hphase⟩
  cases h with
  | settle settled active previous activation =>
    refine held_of_idle (by rw [activation]) ?_
    have hpath : activePath next = world.active.map (·.storePath) :=
      map_storePath_of_map_candidate active
    cases hstate : world.state with
    | none =>
      refine ⟨fun path h => ?_, fun record h => ?_⟩
      · rw [hpath, World.active, hstate] at h
        cases h
      · rw [previous, World.previous, hstate] at h
        cases h
    | some state =>
      have hidle := (held_idle hstate (settled state hstate)).1 hheld
      have hsame : activePath next = activePath state := by
        rw [hpath, World.active, hstate]
        rfl
      refine ⟨fun path h => hidle.active path (hsame.symm.trans h), fun record h => ?_⟩
      rw [hsame]
      refine hidle.previous record ?_
      rw [previous, World.previous, hstate] at h
      exact h
  | prepare prepares roots =>
    obtain ⟨c, ht⟩ := prepares.transaction
    have hphase : next.activation.phase ≠ .idle := by simp [prepares.phase]
    refine held_of_transaction hphase ⟨?_, fun a p ha hp => ?_, fun c' hc' => Or.inr ?_⟩
    · exact congrArg RetentionRoots.previous roots
    · rw [prepares.active] at ha
      rw [prepares.previous] at hp
      obtain ⟨state, hstate, hactive⟩ := Option.bind_eq_some_iff.1 ha
      obtain ⟨state', hstate', hprevious⟩ := Option.bind_eq_some_iff.1 hp
      obtain rfl := Option.some.inj (hstate.symm.trans hstate')
      have hidle := (held_idle hstate (prepares.settled state hstate)).1 hheld
      have hpath : activePath state = some a.storePath := by
        rw [activePath, hactive]
        rfl
      rcases hidle.previous p hprevious with h | h
      · exact Option.some.inj (h.symm.trans hpath)
      · rw [roots] at h
        change previousTarget next = _ at h
        rw [previousTarget_of_transaction ht, activePath, prepares.active, ha] at h
        exact (Option.some.inj h).symm
    · rw [roots, retainedRoots, hc']
      rfl
  | abandon found phase pointer active previous activation =>
    obtain ⟨h, c, ht⟩ := htransaction found (by simp [phase])
    refine held_of_idle (by rw [activation]) (h.back ht ?_ previous)
    rw [activePath, activePath, active]
  | switch failure found phase activates pointer =>
    obtain ⟨h, -⟩ := htransaction found (by simp [phase])
    exact held_of_transaction (by simp [stateWithActivation]) (h.of_same rfl rfl rfl rfl)
  | fail failure found phase activates probe =>
    obtain ⟨h, -⟩ := htransaction found (by simp [phase])
    exact held_of_transaction (by simp [rollbackPendingState]) (h.of_same rfl rfl rfl rfl)
  | rollback found phase previous pointer =>
    obtain ⟨h, -⟩ := htransaction found (by rcases phase with h | h <;> simp [h])
    exact held_of_transaction (by simp [stateWithActivation]) (h.of_same rfl rfl rfl rfl)
  | rollbackFailed failure found phase =>
    obtain ⟨h, -⟩ := htransaction found (by simp [phase])
    exact held_of_transaction (by simp [phase]) (h.of_same rfl rfl rfl rfl)
  | restore evidence found phase previous probe =>
    obtain ⟨h, c, ht⟩ := htransaction found (by simp [phase])
    refine held_of_idle rfl (h.back ht ?_ rfl)
    rw [activePath, activePath, ← ht.previous, previous]
    rfl
  | clear found phase previous pointer =>
    obtain ⟨h, c, ht⟩ := htransaction found (by simp [phase])
    refine held_of_idle rfl (h.back ht ?_ rfl)
    rw [activePath, activePath, ← ht.previous, previous]
  | @commit state candidate next commits roots =>
    obtain ⟨h, c, ht⟩ := htransaction commits.found (by simp [commits.phase])
    obtain ⟨evidence, hactive⟩ := commits.active
    refine held_of_idle (by rw [commits.activation]) ⟨fun path hpath => ?_,
      fun record hrecord => Or.inr (h.previous.trans ?_)⟩
    · rw [activePath, hactive] at hpath
      obtain rfl := Option.some.inj hpath
      exact h.retains_candidate commits.activates
    · rw [commits.previous] at hrecord
      rw [previousTarget, retainedRoots, ← Option.map_or, hrecord]
      rfl

variable {operation : Operation}

theorem Permitted.held (h : Permitted operation world) (hguard : LeavesNoGap operation world)
    (hw : Consistent world) (hheld : Held world) : Held (operation.effect world) := by
  have hroots : ∀ roots, (∀ state, world.state = some state →
      state.activation = { phase := .idle } → HeldIdle state world.roots →
      HeldIdle state roots) →
      (∀ state candidate, world.state = some state → state.activation.phase ≠ .idle →
        state.activation.candidate = some candidate → HeldTransaction state world.roots →
        HeldTransaction state roots) → Held { world with roots } := by
    intro roots hidle htransaction state hfound
    have hstate : world.state = some state := hfound
    refine ⟨fun hphase => ?_, fun hphase => ?_⟩
    · exact hidle state hstate ((coherent_idle hphase).1 ((consistent_some hstate).1 hw)).1
        ((held_idle hstate hphase).1 hheld)
    · obtain ⟨c, ht⟩ := ((consistent_some hstate).1 hw).transaction hphase
      exact htransaction state c hstate hphase ht.activates
        ((held_transaction hstate hphase).1 hheld)
  cases operation with
  | writeState next => exact Writes.held h hw hheld
  | setRoot slot target =>
    obtain ⟨plan, hplan, htarget, hearlier⟩ := h
    refine hroots _ (fun state hstate hactivation hidle => ?_)
      fun state c hstate hphase hactivates ht => ?_
    · obtain ⟨hactive, -⟩ := hplan.of_idle hstate hactivation
      exact hidle.set hactive htarget hearlier ((hguard _ rfl state hstate).1 (by rw [hactivation]))
    · obtain ⟨hprevious, hcandidate⟩ := hplan.of_transaction hstate hphase hactivates
      exact ht.set hactivates hprevious hcandidate htarget ((hguard _ rfl state hstate).2 hphase)
  | removeRoot slot =>
    obtain ⟨plan, hplan, hnone, hinstalled⟩ := h
    refine hroots _ (fun state hstate hactivation hidle => ?_)
      fun state c hstate hphase hactivates ht => ?_
    · obtain ⟨hactive, hprevious⟩ := hplan.of_idle hstate hactivation
      exact hidle.remove hactive hprevious hnone hinstalled
    · obtain ⟨hprevious, hcandidate⟩ := hplan.of_transaction hstate hphase hactivates
      exact ht.remove hactivates hprevious hcandidate hnone hinstalled
  | _ => exact hheld

theorem held_step {answer : Except Thrown operation.Value}
    (hpermitted : Permitted operation world) (hguard : LeavesNoGap operation world)
    (hw : Consistent world) (hheld : Held world) (h : outcomes operation world answer world') :
    Held world' := by
  cases hvalue : operation.result world with
  | none =>
    rw [outcomes_adapter hvalue h]
    cases operation <;> exact hheld
  | some value =>
    rcases outcomes_result hvalue h with ⟨-, rfl⟩ | ⟨-, -, rfl | rfl⟩
    · exact hpermitted.held hguard hw hheld
    · exact hheld
    · exact hpermitted.held hguard hw hheld

end Steps

/-- In every run of calls that follow one another and may be killed at any point, if every
replacement of a root leaves no gap, then every path that the state needs is the target of a root,
at every point of the run. -/
theorem rooted_of_leavesNoGap {world₀ : World} {es : List (Event Call Operation
      (fun operation => Except Thrown operation.Value) (Except Thrown ReconcileResult))}
    {k : Config World Call Operation (fun operation => Except Thrown operation.Value)
      (Except Thrown ReconcileResult)} {p : ℕ} (hw : Consistent world₀) (hheld : Held world₀)
    (h : Run Call.body (outcomes.guarded LeavesNoGap) (Config.idle world₀) es k)
    (hone : OneProcess p es) : Rooted k.shared := by
  have hk : Held k.shared := Run.preserves h hw (fun call world hw => body_safe call world hw)
    hone (fun _ _ _ _ _ hw hheld hpermitted hguard hsem =>
      held_step hpermitted hguard hw hheld hsem) hheld
  exact hk.rooted (run_consistent hw hone h.of_guarded)

def carefulOutcome (reply : Reply) (operation : Operation) (world : World) :
    Option (Except Thrown operation.Value × World) :=
  if LeavesNoGap operation world then reply.outcome operation world else none

theorem carefulOutcome_sound (reply : Reply) (operation : Operation) (world : World)
    (answer : Except Thrown operation.Value) (world' : World)
    (h : carefulOutcome reply operation world = some (answer, world')) :
    outcomes.guarded LeavesNoGap operation world answer world' := by
  unfold carefulOutcome at h
  split_ifs at h with hguard
  exact ⟨hguard, reply.outcome_sound operation world answer world' h⟩

theorem interruptedSwitch_rooted : ∃ es k,
    Run Call.body (outcomes.guarded LeavesNoGap) (Config.idle emptyWorld) es k ∧
      k.shared.needed.length = 2 ∧ Rooted k.shared := by
  obtain ⟨es, k, hrun, hone, hk⟩ := Config.exists_performed Call.body 0
    (Config.idle emptyWorld) carefulOutcome_sound interruptedSwitch
    (fun result => result.2.shared.needed.length) (b := 2) (by decide)
  exact ⟨es, k, hrun, hk, rooted_of_leavesNoGap emptyWorld_consistent (held_none rfl) hrun hone⟩

/-- Two generations are activated, and a third one is staged up to the replacement of the root of
the previous generation. -/
def activationScript (storePath : String) : List (Cue Call Reply) :=
  switchingScript storePath ++ [.answer .carried, .answer (.health (.flag true))] ++
    List.replicate 7 (.answer .carried) ++ [.respond]

def overwrittenPrevious : List (Cue Call Reply) :=
  activationScript "/nix/store/first" ++ activationScript "/nix/store/second" ++
    (switchingScript "/nix/store/third").take 12 ++ [.crash]

theorem overwrittenPrevious_gap : ∃ es k,
    Run Call.body outcomes (Config.idle emptyWorld) es k ∧ OneProcess 0 es ∧
      ¬ Rooted k.shared := by
  obtain ⟨es, k, hrun, hone, hk⟩ := exists_performed emptyWorld overwrittenPrevious
    (fun world => world.needed.any fun path => decide (¬ world.roots.Retains path))
    (b := true) (by decide)
  obtain ⟨path, hpath, hgap⟩ := List.any_eq_true.1 hk
  exact ⟨es, k, hrun, hone, fun hrooted => of_decide_eq_true hgap (hrooted path hpath)⟩

end Mottainai.ManagedRuntime

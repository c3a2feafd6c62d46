import Mottainai.ManagedRuntimeProtocol

/-!
# Reconciliation keeps to the protocol

The way from the desired manifest to an active generation. Until the candidate is staged every error
leaves an idle state behind; afterwards an error leaves one behind unless an operation on a file has
failed. For `recoverTransaction`, whatever phase was persisted, the pointer is at one of the places
that the phase accounts for.
-/

namespace Mottainai.ManagedRuntime

open Interleaving

abbrev RuntimeAnswers : Type := Answers Operation (fun operation => Except Thrown operation.Value)

/-- The program keeps to the protocol, and its end satisfies `post`. -/
abbrev RuntimeSafe {α : Type} (x : Runtime α)
    (post : Except Thrown α → World → RuntimeAnswers → Prop) (world : World)
    (l : RuntimeAnswers) : Prop :=
  x.run.Safe outcomes (.undisturbed Consistent) (fun operation world _ => Permitted operation world)
    post world l

def FileFault (a : (operation : Operation) × Except Thrown operation.Value) : Prop :=
  (∃ world value, a.1.result world = some value) ∧ ∃ error, a.2 = .error error

/-- Some operation on files has failed. -/
def Faulted (l : RuntimeAnswers) : Prop := ∃ a ∈ l, FileFault a

def Foreign (error : RuntimeError) :
    (operation : Operation) × Except Thrown operation.Value → Prop
  | ⟨.readPointer, .error _⟩ => True
  | ⟨.readManifest, .error thrown⟩ => thrown = .managed error
  | ⟨.readManifest, .ok (.invalid thrown _)⟩ => thrown = .managed error
  | ⟨.build _, .error thrown⟩ => thrown = .managed error
  | ⟨.verifyGeneration _, .error thrown⟩ => thrown = .managed error
  | _ => False

def Explained (error : Thrown) (l : RuntimeAnswers) : Prop :=
  ∀ e, error = .managed e → e.code = .failure .ambiguousActivation → ∃ a ∈ l, Foreign e a

def Unsupported (options : Options) (world : World) : Prop :=
  ∃ state generation, world.state = some state ∧
    (state.activation.candidate = some generation ∨
      state.activation.previous.map candidateFromRecord = some generation) ∧
    generation.compatibilityContractVersion ≠ options.supportedCompatibilityVersion

/-- The generation to which the transaction goes back has failed its last probe. -/
def PreviousUnhealthy (world : World) : Prop :=
  ∃ state record, world.state = some state ∧
    state.activation.phase = .rollbackHealthPending ∧ state.activation.previous = some record ∧
    LastProbe world (candidateFromRecord record) false

/-- Why a call has thrown. -/
structure Fails (options : Options) (error : Thrown) (world : World) (l : RuntimeAnswers) :
    Prop where
  explained : Explained error l
  excused : Settled world ∨ Faulted l ∨ Unsupported options world ∨ PreviousUnhealthy world

def Unambiguous (error : Thrown) : Prop :=
  ∀ e, error = .managed e → e.code ≠ .failure .ambiguousActivation

section Facts

variable {options : Options} {error : Thrown} {world : World} {l m : RuntimeAnswers}

theorem Unambiguous.explained (h : Unambiguous error) : Explained error l :=
  fun e he hcode => absurd hcode (h e he)

theorem unambiguous_other (message : String) : Unambiguous (.other message) := nofun

theorem unambiguous_managed {e : RuntimeError} (h : e.code ≠ .failure .ambiguousActivation) :
    Unambiguous (.managed e) := by
  rintro e' ⟨⟩
  exact h

theorem Faulted.mono (h : Faulted l) (hlm : l <+: m) : Faulted m := by
  obtain ⟨a, ha, hfault⟩ := h
  exact ⟨a, hlm.subset ha, hfault⟩

theorem Explained.mono (h : Explained error l) (hlm : l <+: m) : Explained error m := by
  intro e he hcode
  obtain ⟨a, ha, hforeign⟩ := h e he hcode
  exact ⟨a, hlm.subset ha, hforeign⟩

theorem Fails.of_fault (hexplained : Explained error l) (hfault : Faulted l) :
    Fails options error world l := ⟨hexplained, Or.inr (Or.inl hfault)⟩

theorem Fails.of_settled (hexplained : Explained error l) (hsettled : Settled world) :
    Fails options error world l := ⟨hexplained, Or.inl hsettled⟩

end Facts

section Rules

variable {α β : Type} {world : World} {l : RuntimeAnswers}
variable {post : Except Thrown α → World → RuntimeAnswers → Prop}
variable {operation : Operation}

theorem file_safe {value : operation.Value}
    {post : Except Thrown operation.Value → World → RuntimeAnswers → Prop}
    (hvalue : operation.result world = some value) (hw : Consistent world)
    (hpermitted : Permitted operation world)
    (hok : ∀ m, l <+: m → post (.ok value) (operation.effect world) m)
    (herror : ∀ message world' m, l <+: m → Consistent world' →
      (world' = world ∨ world' = operation.effect world) → Faulted m →
      post (.error (.other message)) world' m) : RuntimeSafe (request operation) post world l := by
  refine safe_request_undisturbed hpermitted fun answer world' houtcome => ?_
  have hw' := hpermitted.consistent_outcome hw houtcome
  refine ⟨hw', ?_⟩
  rcases outcomes_result hvalue houtcome with ⟨rfl, rfl⟩ | ⟨message, rfl, hworld⟩
  · exact hok _ (List.prefix_append l _)
  · refine herror message world' _ (List.prefix_append l _) hw' hworld ⟨_,
      List.mem_append_right l (List.mem_singleton_self _), ?_⟩
    exact ⟨⟨world, value, hvalue⟩, _, rfl⟩

/-- A call of an adapter by itself. -/
theorem adapter_safe {post : Except Thrown operation.Value → World → RuntimeAnswers → Prop}
    (hvalue : operation.result world = none) (hw : Consistent world)
    (hpermitted : Permitted operation world)
    (h : ∀ answer, post answer (operation.recorded answer world) (l ++ [⟨operation, answer⟩])) :
    RuntimeSafe (request operation) post world l := by
  refine safe_request_undisturbed hpermitted fun answer world' houtcome => ?_
  rw [outcomes_adapter hvalue houtcome]
  exact ⟨consistent_recorded hw, h answer⟩

theorem persist_safe {state : State} {post : Except Thrown Unit → World → RuntimeAnswers → Prop}
    (hw : Consistent world) (hwrites : Writes world state)
    (hok : ∀ m, l <+: m → Consistent { world with state := some state } →
      post (.ok ()) { world with state := some state } m)
    (herror : ∀ error world' m, l <+: m → Consistent world' →
      (world' = world ∨ world' = { world with state := some state }) → Faulted m →
      Unambiguous error → post (.error error) world' m) :
    RuntimeSafe (persist state) post world l := by
  have hw' : Consistent { world with state := some state } :=
    consistent_state.2 (hwrites.coherent hw)
  refine safe_tryCatch (file_safe rfl hw hwrites (fun m hm => hok m hm hw')
    fun message world' m hm hw' hworld hfault => ?_)
  exact herror _ _ _ hm hw' hworld hfault (unambiguous_managed (by simp))

def World.probed (world : World) (generation : Candidate) (healthy : Bool) : World :=
  { world with probes := ⟨generation, some generation.storePath, healthy⟩ :: world.probes }

theorem checkHealth_safe {generation : Candidate}
    {post : Except Thrown HealthResult → World → RuntimeAnswers → Prop} (hw : Consistent world)
    (hpointer : world.pointer = some generation.storePath)
    (hok : ∀ health m, l <+: m → Consistent (world.probed generation health.healthy) →
      post (.ok health) (world.probed generation health.healthy) m) :
    RuntimeSafe (checkHealth generation) post world l := by
  refine safe_tryCatch (safe_bind (adapter_safe rfl hw hpointer fun answer => ?_))
  have hrecorded : (Operation.healthCheck generation).recorded answer world =
      world.probed generation (probedHealthy generation answer) := by
    simp only [Operation.recorded, World.probed, hpointer]
  rw [hrecorded]
  cases answer with
  | ok answer => exact hok _ _ (List.prefix_append _ _) hw
  | error error =>
    exact hok { healthy := false, reason := some (errorMessage error) } _
      (List.prefix_append _ _) hw

section Roots

variable {plan : RetentionRoots} {slot : RetentionSlot} {slots : List RetentionSlot}

/-- What may be planned does not depend on the roots. -/
theorem Plans.of_roots (h : Plans world plan) (roots : RetentionRoots) :
    Plans { world with roots } plan := by
  cases h with
  | own found => exact .own found
  | stage prepares =>
    exact .stage ⟨prepares.settled, prepares.phase, prepares.transaction, prepares.active,
      prepares.previous⟩
  | commit commits =>
    exact .commit ⟨commits.found, commits.phase, commits.activates, commits.probe, commits.active,
      commits.previous, commits.activation⟩

variable {roots : RetentionRoots} {target : String}

theorem Installed.set (h : Installed plan roots slots) (htarget : plan.get slot = some target) :
    Installed plan (roots.set slot (some target)) (slots ++ [slot]) := by
  intro other hother target' htarget'
  by_cases heq : other = slot
  · subst heq
    rw [RetentionRoots.get_set_self, ← htarget, htarget']
  · rw [RetentionRoots.get_set_of_ne _ _ _ _ heq]
    have hmem : other ∈ slots := by simpa [heq] using hother
    exact h other hmem target' htarget'

/-- A slot for which nothing is planned counts as in place. -/
theorem Installed.skip (h : Installed plan roots slots) (hnone : plan.get slot = none) :
    Installed plan roots (slots ++ [slot]) := by
  intro other hother target htarget
  rcases List.mem_append.1 hother with hother | hother
  · exact h other hother target htarget
  · rw [List.mem_singleton.1 hother, hnone] at htarget
    cases htarget

theorem Installed.remove (h : Installed plan roots slots) (hnone : plan.get slot = none) :
    Installed plan (roots.set slot none) slots := by
  intro other hother target htarget
  have hne : other ≠ slot := by
    rintro rfl
    rw [hnone] at htarget
    cases htarget
  rw [RetentionRoots.get_set_of_ne _ _ _ _ hne]
  exact h other hother target htarget

/-- The slots of this list for which nothing is planned are empty. -/
def Cleared (plan roots : RetentionRoots) (slots : List RetentionSlot) : Prop :=
  ∀ slot ∈ slots, plan.get slot = none → roots.get slot = none

theorem cleared_nil (roots : RetentionRoots) : Cleared plan roots [] := nofun

theorem installed_nil (roots : RetentionRoots) : Installed plan roots [] := nofun

theorem Cleared.set (h : Cleared plan roots slots) :
    Cleared plan (roots.set slot none) (slots ++ [slot]) := by
  intro other hother hnone
  by_cases heq : other = slot
  · rw [heq, RetentionRoots.get_set_self]
  · rw [RetentionRoots.get_set_of_ne _ _ _ _ heq]
    have hmem : other ∈ slots := by simpa [heq] using hother
    exact h other hmem hnone

theorem Cleared.skip (h : Cleared plan roots slots) (hsome : plan.get slot = some target) :
    Cleared plan roots (slots ++ [slot]) := by
  intro other hother hnone
  rcases List.mem_append.1 hother with hother | hother
  · exact h other hother hnone
  · rw [List.mem_singleton.1 hother, hsome] at hnone
    cases hnone

/-- After both loops the roots are those that were planned. -/
theorem eq_of_installed_cleared (hinstalled : Installed plan roots retentionSlots)
    (hcleared : Cleared plan roots retentionSlots) : roots = plan := by
  refine RetentionRoots.eq_of_get fun slot => ?_
  have hmem : slot ∈ retentionSlots := by cases slot <;> decide
  cases hplan : plan.get slot with
  | none => exact hcleared slot hmem hplan
  | some target => exact hinstalled slot hmem target hplan

variable {post : Except Thrown Unit → World → RuntimeAnswers → Prop}

/-- What has to hold after an update has failed: some roots may have changed. -/
def RootsFault (post : Except Thrown Unit → World → RuntimeAnswers → Prop) (world : World)
    (l : RuntimeAnswers) : Prop :=
  ∀ message roots m, l <+: m → Faulted m → post (.error (.other message)) { world with roots } m

theorem RootsFault.later {m : RuntimeAnswers} (h : RootsFault post world l) (hlm : l <+: m) :
    RootsFault post { world with roots } m :=
  fun message roots' _ hm hfault => h message roots' _ (hlm.trans hm) hfault

variable (hw : Consistent world)
include hw

/-- One step of the first loop. -/
theorem installRoots_safe (hplan : Plans world plan)
    (hearlier : Installed plan world.roots slot.earlier) (herror : RootsFault post world l)
    (hnext : ∀ roots m, l <+: m → Installed plan roots (slot.earlier ++ [slot]) →
      RuntimeSafe (installRoots plan slots) post { world with roots } m) :
    RuntimeSafe (installRoots plan (slot :: slots)) post world l := by
  cases hslot : plan.get slot with
  | none =>
    simp only [installRoots, hslot]
    exact hnext world.roots l (List.prefix_refl l) (hearlier.skip hslot)
  | some target =>
    simp only [installRoots, hslot]
    refine safe_bind (file_safe rfl hw ⟨plan, hplan, hslot, hearlier⟩ (fun m hm => ?_)
      fun message world' m hm _ hworld hfault => ?_)
    · exact hnext _ m hm (hearlier.set hslot)
    · rcases hworld with rfl | rfl
      · exact herror message world'.roots m hm hfault
      · exact herror message _ m hm hfault

/-- One step of the second loop. -/
theorem removeObsoleteRoots_safe {done : List RetentionSlot} (hplan : Plans world plan)
    (hinstalled : Installed plan world.roots retentionSlots)
    (hcleared : Cleared plan world.roots done) (herror : RootsFault post world l)
    (hnext : ∀ roots m, l <+: m → Installed plan roots retentionSlots →
      Cleared plan roots (done ++ [slot]) →
      RuntimeSafe (removeObsoleteRoots plan slots) post { world with roots } m) :
    RuntimeSafe (removeObsoleteRoots plan (slot :: slots)) post world l := by
  cases hslot : plan.get slot with
  | some target =>
    simp only [removeObsoleteRoots, hslot]
    exact hnext world.roots l (List.prefix_refl l) hinstalled (hcleared.skip hslot)
  | none =>
    simp only [removeObsoleteRoots, hslot]
    refine safe_bind (file_safe rfl hw ⟨plan, hplan, hslot, hinstalled⟩ (fun m hm => ?_)
      fun message world' m hm _ hworld hfault => ?_)
    · exact hnext _ m hm (hinstalled.remove hslot) hcleared.set
    · rcases hworld with rfl | rfl
      · exact herror message world'.roots m hm hfault
      · exact herror message _ m hm hfault

theorem updateLoops_safe (hplan : Plans world plan)
    (hok : ∀ m, l <+: m → post (.ok ()) { world with roots := plan } m)
    (herror : RootsFault post world l) :
    RuntimeSafe (do
      installRoots plan retentionSlots
      removeObsoleteRoots plan retentionSlots) post world l := by
  have hfault : RootsFault (fun r t m => match r with
      | .ok () => RuntimeSafe (removeObsoleteRoots plan retentionSlots) post t m
      | .error e => post (.error e) t m) world l := herror
  refine safe_bind (installRoots_safe hw hplan (installed_nil _) hfault
    fun roots₁ m₁ h₁ hi₁ => ?_)
  refine installRoots_safe hw (hplan.of_roots _) hi₁ (hfault.later h₁) fun roots₂ m₂ h₂ hi₂ => ?_
  refine installRoots_safe hw (hplan.of_roots _) hi₂ ((hfault.later h₁).later h₂)
    fun roots₃ m₃ h₃ hi₃ => ?_
  have hl₃ := (h₁.trans h₂).trans h₃
  have herror₃ : RootsFault post { world with roots := roots₃ } m₃ := herror.later hl₃
  change RuntimeSafe (removeObsoleteRoots plan retentionSlots) post { world with roots := roots₃ } m₃
  refine removeObsoleteRoots_safe hw (hplan.of_roots _) hi₃ (cleared_nil _) herror₃
    fun roots₄ m₄ h₄ hi₄ hc₄ => ?_
  refine removeObsoleteRoots_safe hw (hplan.of_roots _) hi₄ hc₄ (herror₃.later h₄)
    fun roots₅ m₅ h₅ hi₅ hc₅ => ?_
  refine removeObsoleteRoots_safe hw (hplan.of_roots _) hi₅ hc₅ ((herror₃.later h₄).later h₅)
    fun roots₆ m₆ h₆ hi₆ hc₆ => ?_
  rw [eq_of_installed_cleared hi₆ hc₆]
  exact hok m₆ (((hl₃.trans h₄).trans h₅).trans h₆)

/-- `retainStateGenerations` leaves the planned roots, or has failed on the way. -/
theorem retain_safe {state : State} {candidate : Option Candidate} (hplan : Plans world plan)
    (hroots : retainedRoots state candidate = plan)
    (hok : ∀ m, l <+: m → Consistent { world with roots := plan } →
      post (.ok ()) { world with roots := plan } m)
    (herror : ∀ error roots m, l <+: m → Consistent { world with roots } → Faulted m →
      Unambiguous error → post (.error error) { world with roots } m) :
    RuntimeSafe (retainStateGenerations state candidate) post world l := by
  subst hroots
  have hfault : ∀ (message : RuntimeError) roots m, l <+: m → Faulted m →
      message.code = .failure .retentionFailure →
      post (.error (.managed message)) { world with roots } m := by
    intro message roots m hm hfault hcode
    refine herror _ roots m hm hw hfault (unambiguous_managed ?_)
    rw [hcode]
    exact nofun
  refine safe_tryCatch (safe_bind (file_safe rfl hw trivial (fun m hm => ?_)
    fun message world' m hm _ hworld hf => ?_))
  · refine safe_tryCatch (updateLoops_safe hw hplan (fun m' hm' => ?_)
      fun message roots m' hm' hf => ?_)
    · exact hok m' (hm.trans hm') hw
    · exact hfault _ roots m' (hm.trans hm') hf rfl
  · obtain rfl : world' = world := by rcases hworld with h | h <;> exact h
    exact hfault _ world'.roots m hm hf rfl

end Roots

end Rules

open JavaScriptValues

section Recovery

variable {α : Type} {options : Options} {world : World} {l : RuntimeAnswers}
variable {state : State} {candidate : Candidate} {pointer : Option String}

/-- What a recovery returns is what is on disk, with no transaction left. -/
structure Recovered (result : RecoveryResult) (world : World) : Prop where
  state : world.state = some result.state
  pointer : world.pointer = result.pointer
  activation : result.state.activation = { phase := .idle }

/-- What has to hold after an error. -/
abbrev ErrorPost (options : Options) (post : Except Thrown α → World → RuntimeAnswers → Prop)
    (l : RuntimeAnswers) : Prop :=
  ∀ error world m, l <+: m → Consistent world → Fails options error world m →
    post (.error error) world m

variable {previous : Option GenerationRecord} {m : RuntimeAnswers} {rest : Runtime α} {next : State}

theorem ErrorPost.later {post : Except Thrown α → World → RuntimeAnswers → Prop}
    (h : ErrorPost options post l) (hlm : l <+: m) : ErrorPost options post m :=
  fun error world' _ hm => h error world' _ (hlm.trans hm)

/-- What has to hold after a recovery has returned. -/
abbrev RecoveredPost (post : Except Thrown RecoveryResult → World → RuntimeAnswers → Prop)
    (l : RuntimeAnswers) : Prop :=
  ∀ result world m, l <+: m → Consistent world → Recovered result world →
    post (.ok result) world m

variable {post : Except Thrown RecoveryResult → World → RuntimeAnswers → Prop}

theorem RecoveredPost.later (h : RecoveredPost post l) (hlm : l <+: m) : RecoveredPost post m :=
  fun result world' _ hm => h result world' _ (hlm.trans hm)

theorem persist_then_safe {post : Except Thrown α → World → RuntimeAnswers → Prop}
    (hw : Consistent world) (hwrites : Writes world next) (herror : ErrorPost options post l)
    (hnext : ∀ m, l <+: m → Consistent { world with state := some next } →
      RuntimeSafe rest post { world with state := some next } m) :
    RuntimeSafe (do
      persist next
      rest) post world l :=
  safe_bind (persist_safe hw hwrites hnext fun error world' m hm hw' _ hfault hu =>
    herror error world' m hm hw' (.of_fault hu.explained hfault))

theorem retain_then_safe {generations : Option Candidate} {plan : RetentionRoots}
    {post : Except Thrown α → World → RuntimeAnswers → Prop} (hw : Consistent world)
    (hplan : Plans world plan) (hroots : retainedRoots state generations = plan)
    (herror : ErrorPost options post l)
    (hnext : ∀ m, l <+: m → Consistent { world with roots := plan } →
      RuntimeSafe rest post { world with roots := plan } m) :
    RuntimeSafe (do
      retainStateGenerations state generations
      rest) post world l :=
  safe_bind (retain_safe hw hplan hroots hnext fun error _ m hm hw' hfault hu =>
    herror error _ m hm hw' (.of_fault hu.explained hfault))

theorem checkHealth_then_safe {generation : Candidate} {rest : HealthResult → Runtime α}
    {post : Except Thrown α → World → RuntimeAnswers → Prop} (hw : Consistent world)
    (hpointer : world.pointer = some generation.storePath)
    (hnext : ∀ health m, l <+: m → Consistent (world.probed generation health.healthy) →
      RuntimeSafe (rest health) post (world.probed generation health.healthy) m) :
    RuntimeSafe (checkHealth generation >>= rest) post world l :=
  safe_bind (checkHealth_safe hw hpointer hnext)

theorem move_then_safe {operation : Operation} {value : operation.Value}
    {post : Except Thrown α → World → RuntimeAnswers → Prop} {rest : operation.Value → Runtime α}
    (hvalue : operation.result world = some value) (hw : Consistent world)
    (hpermitted : Permitted operation world) (herror : ErrorPost options post l)
    (hnext : ∀ m, l <+: m → Consistent (operation.effect world) →
      RuntimeSafe (rest value) post (operation.effect world) m) :
    RuntimeSafe (request operation >>= rest) post world l :=
  safe_bind (file_safe hvalue hw hpermitted (fun m hm => hnext m hm (hpermitted.consistent hw))
    fun message world' m hm hw' _ hfault =>
      herror _ world' m hm hw' (.of_fault (unambiguous_other message).explained hfault))

section

variable (hw : Consistent world)
include hw

/-- The end of a recovery: the state is written and the roots are updated to it. -/
theorem settle_safe {result : RecoveryResult} (hwrites : Writes world next)
    (hactivation : next.activation = { phase := .idle }) (hresult : result.state = next)
    (hpointer : world.pointer = result.pointer) (hok : RecoveredPost post l)
    (herror : ErrorPost options post l) :
    RuntimeSafe (do
      persist next
      retainStateGenerations next none
      pure result) post world l := by
  subst hresult
  refine persist_then_safe hw hwrites herror fun m₁ h₁ hw₁ => ?_
  refine retain_then_safe hw₁ (.own rfl) rfl (herror.later h₁) fun m₂ h₂ hw₂ => ?_
  exact hok result _ m₂ (h₁.trans h₂) hw₂ ⟨rfl, hpointer, hactivation⟩

/-- Go back to no generation at all. -/
theorem settleWithoutGeneration_safe (hstate : world.state = some state)
    (hpointer : world.pointer = none) (hphase : state.activation.phase = .rollbackPending)
    (hprevious : state.activation.previous = none) (hok : RecoveredPost post l)
    (herror : ErrorPost options post l) :
    RuntimeSafe (settleWithoutGeneration state) post world l :=
  settle_safe hw (.clear hstate hphase hprevious hpointer) rfl rfl hpointer hok herror

theorem verifyPrevious_safe {previous : GenerationRecord} (hstate : world.state = some state)
    (hphase : state.activation.phase = .rollbackPending ∨
      state.activation.phase = .rollbackHealthPending)
    (hprevious : state.activation.previous = some previous)
    (hpointer : world.pointer = some previous.storePath) (hok : RecoveredPost post l)
    (herror : ErrorPost options post l) :
    RuntimeSafe (verifyPrevious candidate previous state) post world l := by
  refine persist_then_safe hw (.rollback hstate hphase hprevious hpointer) herror
    fun m₁ h₁ hw₁ => ?_
  refine checkHealth_then_safe hw₁ hpointer fun health m₂ h₂ hw₂ => ?_
  have hl₂ := h₁.trans h₂
  split_ifs with hhealth
  · rw [hhealth] at hw₂ ⊢
    refine persist_then_safe hw₂ (.rollbackFailed _ rfl rfl) (herror.later hl₂)
      fun m₃ h₃ hw₃ => ?_
    refine herror _ _ m₃ (hl₂.trans h₃) hw₃ ⟨(unambiguous_managed (by simp)).explained, ?_⟩
    exact Or.inr (Or.inr (Or.inr ⟨_, previous, rfl, rfl, hprevious, rfl⟩))
  · rw [Bool.not_eq_false] at hhealth
    rw [hhealth] at hw₂ ⊢
    exact settle_safe hw₂ (.restore _ rfl rfl hprevious rfl) rfl rfl hpointer (hok.later hl₂)
      (herror.later hl₂)

/-- `selectPreviousAndVerify`. -/
theorem selectPreviousAndVerify_safe (hstate : world.state = some state)
    (hphase : state.activation.phase = .rollbackPending ∨
      state.activation.phase = .rollbackHealthPending)
    (hprevious : state.activation.previous = previous) (hpointer : world.pointer = pointer)
    (hok : RecoveredPost post l) (herror : ErrorPost options post l) :
    RuntimeSafe (selectPreviousAndVerify candidate previous state pointer) post world l := by
  have hcoherent := (consistent_some hstate).1 hw
  cases previous with
  | none =>
    have hpending : state.activation.phase = .rollbackPending := by
      rcases hphase with h | h
      · exact h
      · obtain ⟨c, r, htransaction, hactive, -⟩ := (coherent_rollbackHealthPending h).1 hcoherent
        have hnone := htransaction.previous.symm.trans hprevious
        rw [hactive] at hnone
        cases hnone
    simp only [selectPreviousAndVerify]
    split_ifs with hp
    · refine move_then_safe rfl hw ⟨state, hstate, hpending, hprevious⟩ herror fun m hm hw' => ?_
      exact settleWithoutGeneration_safe hw' hstate rfl hpending hprevious (hok.later hm)
        (herror.later hm)
    · rw [not_not] at hp
      exact settleWithoutGeneration_safe hw hstate (hpointer.trans hp) hpending hprevious hok herror
  | some previous =>
    simp only [selectPreviousAndVerify]
    split_ifs with hp
    · have hpending : state.activation.phase = .rollbackPending := by
        rcases hphase with h | h
        · exact h
        · obtain ⟨c, r, htransaction, hactive, hat⟩ :=
            (coherent_rollbackHealthPending h).1 hcoherent
          have hsome := hactive.symm.trans (htransaction.previous.symm.trans hprevious)
          rw [← hpointer, hat, Option.some.inj hsome] at hp
          exact absurd rfl hp
      refine move_then_safe rfl hw (.previous hstate hpending hprevious) herror
        fun m hm hw' => ?_
      exact verifyPrevious_safe hw' hstate hphase hprevious rfl (hok.later hm) (herror.later hm)
    · rw [not_not] at hp
      exact verifyPrevious_safe hw hstate hphase hprevious (hpointer.trans hp) hok herror

theorem probeAndCommit_safe (hstate : world.state = some state)
    (hphase : state.activation.phase = .switchedHealthPending)
    (hactivates : state.activation.candidate = some candidate)
    (hprevious : state.activation.previous = previous)
    (hpointer : world.pointer = some candidate.storePath) (hat : world.pointer = pointer)
    (hroots : world.roots = retainedRoots state none) (hok : RecoveredPost post l)
    (herror : ErrorPost options post l) :
    RuntimeSafe (probeAndCommit candidate previous state pointer) post world l := by
  refine checkHealth_then_safe hw hpointer fun health m₁ h₁ hw₁ => ?_
  split_ifs with hhealth
  · rw [hhealth] at hw₁ ⊢
    refine persist_then_safe hw₁ (.fail _ hstate hphase hactivates rfl) (herror.later h₁)
      fun m₂ h₂ hw₂ => ?_
    exact selectPreviousAndVerify_safe hw₂ rfl (Or.inl rfl) hprevious hat
      (hok.later (h₁.trans h₂)) (herror.later (h₁.trans h₂))
  · rw [Bool.not_eq_false] at hhealth
    rw [hhealth] at hw₁ ⊢
    have hcommits : Commits (world.probed candidate true) state candidate
        { committedState state candidate previous health with
          desiredManifestSemanticIdentity := candidate.desiredManifestSemanticIdentity } :=
      ⟨hstate, hphase, hactivates, rfl, ⟨_, rfl⟩, by rw [hprevious]; rfl, rfl⟩
    exact settle_safe hw₁ (.commit hcommits (Or.inl hroots)) rfl rfl hat (hok.later h₁)
      (herror.later h₁)

/-- The pointer is at the candidate; if the phase does not say so yet, that is written first. -/
theorem verifyCandidateAndCommit_safe {current : State} (hstate : world.state = some current)
    (hphase : current.activation.phase = .switchedHealthPending ∨
      current = state ∧ state.activation.phase = .prepared)
    (hactivates : current.activation.candidate = some candidate)
    (hprevious : current.activation.previous = previous)
    (hpointer : world.pointer = some candidate.storePath) (hat : world.pointer = pointer)
    (hroots : world.roots = retainedRoots current none) (hok : RecoveredPost post l)
    (herror : ErrorPost options post l) :
    RuntimeSafe (verifyCandidateAndCommit state candidate previous current pointer) post
      world l := by
  unfold verifyCandidateAndCommit
  rcases hphase with hphase | ⟨rfl, hphase⟩
  · rw [if_pos hphase]
    exact probeAndCommit_safe hw hstate hphase hactivates hprevious hpointer hat hroots hok herror
  · rw [if_neg (by simp [hphase])]
    refine safe_bind (persist_then_safe hw (.switch _ hstate hphase hactivates hpointer)
      (fun e w m hm hw' hfails => herror e w m hm hw' hfails) fun m hm hw' => ?_)
    exact probeAndCommit_safe hw' rfl rfl hactivates hprevious hpointer hat hroots
      (hok.later hm) (herror.later hm)

theorem recoverPhase_safe (hstate : world.state = some state)
    (hphase : state.activation.phase ≠ .idle)
    (hactivates : state.activation.candidate = some candidate) (hat : world.pointer = pointer)
    (hroots : world.roots = retainedRoots state none) (hok : RecoveredPost post l)
    (herror : ErrorPost options post l) :
    RuntimeSafe (recoverPhase state pointer candidate state.activation.previous) post world l := by
  have hcoherent := (consistent_some hstate).1 hw
  unfold recoverPhase
  cases hp : state.activation.phase with
  | idle => exact absurd hp hphase
  | prepared =>
    simp only
    obtain ⟨c, htransaction, hwhere⟩ := (coherent_prepared hp).1 hcoherent
    obtain rfl := htransaction.eq hactivates
    split_ifs with hcandidate hprevious
    · exact verifyCandidateAndCommit_safe hw hstate (Or.inr ⟨rfl, hp⟩) hactivates rfl
        (hat.trans hcandidate) hat hroots hok herror
    · refine move_then_safe rfl hw (.candidate hstate hp hactivates) herror fun m₁ h₁ hw₁ => ?_
      refine safe_bind (persist_then_safe hw₁ (.switch _ hstate hp hactivates rfl)
        (fun e w m hm hw' hfails => herror e w m (h₁.trans hm) hw' hfails) fun m₂ h₂ hw₂ => ?_)
      exact verifyCandidateAndCommit_safe hw₂ rfl (Or.inl rfl) hactivates rfl rfl rfl hroots
        (hok.later (h₁.trans h₂)) (herror.later (h₁.trans h₂))
    · rw [hat, activePath, ← htransaction.previous] at hwhere
      rcases hwhere with h | h
      · exact absurd h hcandidate
      · exact absurd h hprevious
  | switchedHealthPending =>
    simp only
    obtain ⟨c, htransaction, hwhere⟩ := (coherent_switched hp).1 hcoherent
    obtain rfl := htransaction.eq hactivates
    rw [if_pos (hat.symm.trans hwhere)]
    exact verifyCandidateAndCommit_safe hw hstate (Or.inl hp) hactivates rfl hwhere hat hroots hok
      herror
  | rollbackPending =>
    simp only
    obtain ⟨c, htransaction, hwhere⟩ := (coherent_rollbackPending hp).1 hcoherent
    obtain rfl := htransaction.eq hactivates
    rw [hat, activePath, ← htransaction.previous] at hwhere
    rw [if_pos (by rcases hwhere with h | h <;> simp [h])]
    exact selectPreviousAndVerify_safe hw hstate (Or.inl hp) rfl hat hok herror
  | rollbackHealthPending =>
    simp only
    obtain ⟨c, r, htransaction, hactive, hwhere⟩ :=
      (coherent_rollbackHealthPending hp).1 hcoherent
    have hprevious := htransaction.previous.trans hactive
    rw [if_pos (Or.inl (by rw [← hat, hwhere, hprevious]; rfl))]
    exact selectPreviousAndVerify_safe hw hstate (Or.inr hp) rfl hat hok herror

end

theorem requireRecoverable_error {error : Thrown} (htransaction : Transaction state candidate)
    (hstate : world.state = some state)
    (h : requireRecoverable options state candidate = .error error) :
    Fails options error world l := by
  unfold requireRecoverable at h
  simp only [require, htransaction.desired, if_true] at h
  by_cases hcandidate :
      candidate.compatibilityContractVersion = options.supportedCompatibilityVersion
  · simp only [hcandidate, if_true] at h
    cases hprevious : state.activation.previous with
    | none =>
      simp only [hprevious] at h
      cases h
    | some previous =>
      simp only [hprevious] at h
      by_cases hsupported :
          previous.compatibilityContractVersion = options.supportedCompatibilityVersion
      · simp only [hsupported, if_true] at h
        cases h
      · simp only [hsupported, if_false] at h
        cases h
        exact ⟨(unambiguous_managed (by simp)).explained, Or.inr (Or.inr (Or.inl
          ⟨state, candidateFromRecord previous, hstate, Or.inr (by simp [hprevious]),
            hsupported⟩))⟩
  · simp only [hcandidate, if_false] at h
    cases h
    exact ⟨(unambiguous_managed (by simp)).explained, Or.inr (Or.inr (Or.inl
      ⟨state, candidate, hstate, Or.inl htransaction.activates, hcandidate⟩))⟩

/-- `recoverTransaction` of an unfinished transaction. -/
theorem recoverTransaction_safe (hw : Consistent world) (hstate : world.state = some state)
    (hphase : state.activation.phase ≠ .idle) (hat : world.pointer = pointer)
    (hok : RecoveredPost post l) (herror : ErrorPost options post l) :
    RuntimeSafe (recoverTransaction options state pointer) post world l := by
  obtain ⟨c, htransaction⟩ := ((consistent_some hstate).1 hw).transaction hphase
  unfold recoverTransaction
  rw [if_neg hphase, htransaction.activates]
  simp only
  refine safe_lift_bind (fun _ _ => ?_) fun error h =>
    herror error world l (List.prefix_refl l) hw (requireRecoverable_error htransaction hstate h)
  refine retain_then_safe hw (.own hstate) (by simp [retainedRoots, htransaction.activates])
    herror fun m hm hw' => ?_
  exact recoverPhase_safe hw' hstate hphase htransaction.activates hat rfl (hok.later hm)
    (herror.later hm)

end Recovery

section Activation

variable {α : Type} {options : Options} {world : World} {l : RuntimeAnswers}
variable {state : State} {candidate : Candidate} {pointer : Option String} {error : Thrown}
variable {manifest : ManagedPackageManifest}

/-- No transaction is under way, and the state that a call holds is the one on disk, or the
initial one if there is none. -/
structure Based (world : World) (state : State) : Prop where
  settled : Settled world
  active : state.active = world.active
  previous : state.previous = world.previous
  activation : state.activation = { phase := .idle }

theorem settled_of_state (hstate : world.state = some state)
    (h : state.activation = { phase := .idle }) : Settled world := by
  intro found hfound
  obtain rfl := Option.some.inj (hstate.symm.trans hfound)
  rw [h]

/-- The state on disk, once its transaction has ended. -/
theorem based_of_state (hw : Consistent world) (hsettled : Settled world)
    (hstate : world.state = some state) : Based world state where
  settled := hsettled
  active := by rw [World.active, hstate]; rfl
  previous := by rw [World.previous, hstate]; rfl
  activation := ((coherent_idle (hsettled state hstate)).1 ((consistent_some hstate).1 hw)).1

theorem based_initial (identity : String) (hstate : world.state = none) :
    Based world (initialState identity) where
  settled := by
    intro state h
    rw [hstate] at h
    cases h
  active := by rw [World.active, hstate]; rfl
  previous := by rw [World.previous, hstate]; rfl
  activation := rfl

/-- Recording a failure starts from a state with no transaction and ends in one. -/
theorem Based.writes_failure (h : Based world state) (identity : String)
    (evidence : FailureEvidence) : Writes world (stateWithFailure state identity evidence) :=
  .settle h.settled (congrArg _ h.active) h.previous rfl

/-- An error that is wrapped keeps its explanation, and one that is new needs none. -/
theorem Explained.asManaged (h : Explained error l) (code : FailureCode) (phase : ActivationPhase)
    (hcode : code ≠ .ambiguousActivation) : Explained (.managed (asManaged code phase error)) l := by
  cases error with
  | managed e => exact h
  | other message =>
    rintro e ⟨⟩ h
    exact absurd (ErrorCode.failure.inj h) hcode

variable {post : Except Thrown Unit → World → RuntimeAnswers → Prop} {recovered rolledBack : Bool}
variable {stored : Option State} {identity : String}

section

variable (hw : Consistent world)
include hw

theorem persistEvidence_safe (hwrites : Writes world state)
    (hok : ∀ world' m, l <+: m → Consistent world' →
      (world' = world ∨ world' = { world with state := some state }) → post (.ok ()) world' m) :
    RuntimeSafe (persistEvidence state) post world l :=
  safe_tryCatch (persist_safe hw hwrites (fun m hm hw' => hok _ m hm hw' (Or.inr rfl))
    fun _ world' m hm hw' hworld _ _ => hok world' m hm hw' hworld)

theorem failBuild_safe {post : Except Thrown α → World → RuntimeAnswers → Prop}
    {generation : Option Candidate} (hbased : Based world state) (hexplained : Explained error l)
    (herror : ErrorPost options post l) :
    RuntimeSafe (failBuild state identity generation error) post world l := by
  refine safe_bind (persistEvidence_safe hw (hbased.writes_failure _ _)
    fun world' m hm hw' hworld => ?_)
  refine herror _ world' m hm hw' (.of_settled ((hexplained.mono hm).asManaged _ _ (by simp)) ?_)
  rcases hworld with rfl | rfl
  · exact hbased.settled
  · exact settled_of_state rfl rfl

/-- The end of a call whose manifest cannot be used. -/
theorem failManifest_safe {identity : Option String}
    {post : Except Thrown α → World → RuntimeAnswers → Prop}
    (hbased : ∀ identity, Based world (stored.getD (initialState identity)))
    (hexplained : Explained error l) (herror : ErrorPost options post l) :
    RuntimeSafe (failManifest stored error identity) post world l := by
  have hthrown := hexplained.asManaged .invalidManifest .idle (by simp)
  unfold failManifest
  simp only
  cases identity.or (stored.map (·.desiredManifestSemanticIdentity)) with
  | none =>
    exact herror _ world l (List.prefix_refl l) hw (.of_settled hthrown (hbased "").settled)
  | some identity =>
    refine safe_bind (persistEvidence_safe hw ((hbased identity).writes_failure _ _)
      fun world' m hm hw' hworld => ?_)
    refine herror _ world' m hm hw' (.of_settled (hthrown.mono hm) ?_)
    rcases hworld with rfl | rfl
    · exact (hbased "").settled
    · exact settled_of_state rfl rfl

theorem requireManifest_safe
    {post : Except Thrown ManagedPackageManifest → World → RuntimeAnswers → Prop}
    (hbased : ∀ identity, Based world (stored.getD (initialState identity)))
    (hok : ∀ manifest m, l <+: m → post (.ok manifest) world m)
    (herror : ErrorPost options post l) : RuntimeSafe (requireManifest stored) post world l := by
  refine safe_bind (safe_tryCatch (adapter_safe rfl hw trivial fun answer => ?_))
  have hm : l <+: l ++ [⟨.readManifest, answer⟩] := List.prefix_append _ _
  have hforeign : ∀ thrown, (∀ e, thrown = .managed e → Foreign e ⟨.readManifest, answer⟩) →
      Explained thrown (l ++ [⟨.readManifest, answer⟩]) :=
    fun thrown h e he _ => ⟨_, List.mem_append_right l (List.mem_singleton_self _), h e he⟩
  cases answer with
  | error thrown => exact failManifest_safe hw hbased (hforeign thrown fun _ => id) (herror.later hm)
  | ok reading =>
    cases reading with
    | valid manifest => exact hok manifest _ hm
    | invalid thrown identity =>
      exact failManifest_safe hw hbased (hforeign thrown fun _ => id) (herror.later hm)

/-- The check whether the active generation is still the desired one. -/
theorem currentGeneration_safe
    {post : Except Thrown (Option GenerationRecord) → World → RuntimeAnswers → Prop}
    (hok : ∀ result m, l <+: m → (∀ active, result = some active → state.active = some active) →
      post (.ok result) world m) :
    RuntimeSafe (currentGeneration options manifest state) post world l := by
  unfold currentGeneration
  cases hactive : state.active with
  | none => exact hok none l (List.prefix_refl l) nofun
  | some active =>
    simp only
    split_ifs
    · refine safe_bind (safe_tryCatch (adapter_safe rfl hw trivial fun answer => ?_))
      have hm : l <+: l ++ [⟨.generationIsCurrent (candidateFromRecord active), answer⟩] :=
        List.prefix_append _ _
      have hresult : ∀ isCurrent : Bool,
          post (.ok (if isCurrent then some active else none)) world
            (l ++ [⟨.generationIsCurrent (candidateFromRecord active), answer⟩]) := by
        intro isCurrent
        refine hok _ _ hm fun r hr => ?_
        split_ifs at hr
        exact hactive.trans hr
      cases answer with
      | error thrown => exact hresult false
      | ok isCurrent => exact hresult isCurrent
    · exact hok _ l (List.prefix_refl l) fun r hr => hactive.trans hr
    · exact hok none l (List.prefix_refl l) nofun

theorem replaced_safe {operation : Operation} {replace : Thrown → Thrown}
    {post : Except Thrown operation.Value → World → RuntimeAnswers → Prop}
    (hpermitted : Permitted operation world)
    (hsame : ∀ answer world', outcomes operation world answer world' → world' = world)
    (hreplace : ∀ error, Unambiguous (replace error))
    (hok : ∀ value m, l <+: m → outcomes operation world (.ok value) world →
      post (.ok value) world m)
    (herror : ∀ error m, l <+: m → Unambiguous error → post (.error error) world m) :
    RuntimeSafe (tryCatch (request operation) fun error => throw (replace error)) post world l := by
  refine safe_tryCatch (safe_request_undisturbed hpermitted fun answer world' houtcome => ?_)
  obtain rfl := hsame answer world' houtcome
  refine ⟨hw, ?_⟩
  cases answer with
  | ok value => exact hok value _ (List.prefix_append _ _) houtcome
  | error thrown => exact herror _ _ (List.prefix_append _ _) (hreplace thrown)

theorem assertRetained_safe {roots : RetentionRoots} {slot : RetentionSlot} {slotName : String}
    (hok : ∀ m, l <+: m → post (.ok ()) world m)
    (herror : ∀ error m, l <+: m → Unambiguous error → post (.error error) world m) :
    RuntimeSafe (assertRetained options state roots slot slotName) post world l := by
  unfold assertRetained
  cases (expectedRoots state).get slot with
  | none => exact hok l (List.prefix_refl l)
  | some target =>
    simp only
    split_ifs
    · exact herror _ l (List.prefix_refl l) (unambiguous_managed (by simp))
    · refine safe_bind (replaced_safe hw trivial (fun answer world' h => outcomes_adapter rfl h)
        (fun _ => unambiguous_managed (by simp)) (fun value m hm _ => ?_) herror)
      simp only
      split_ifs
      · exact herror _ m hm (unambiguous_managed (by simp))
      · exact hok m hm
    · exact hok l (List.prefix_refl l)

/-- The result of a call that leaves no transaction. -/
theorem resultFromState_safe {outcome : ReconcileOutcome}
    {post : Except Thrown ReconcileResult → World → RuntimeAnswers → Prop}
    (hsettled : Settled world) (hok : ∀ result m, l <+: m → post (.ok result) world m)
    (herror : ErrorPost options post l) :
    RuntimeSafe (resultFromState options state outcome) post world l := by
  have hthrown : ∀ error m, l <+: m → Unambiguous error → post (.error error) world m :=
    fun error m hm hu => herror error world m hm hw (.of_settled hu.explained hsettled)
  have hread : ∀ (operation : Operation) value, operation.result world = some value →
      operation.effect world = world → ∀ answer world', outcomes operation world answer world' →
      world' = world := by
    intro operation value hvalue heffect answer world' h
    rcases outcomes_result hvalue h with ⟨-, h⟩ | ⟨-, -, h | h⟩ <;> simp [h, heffect]
  refine safe_bind (replaced_safe hw trivial (hread _ _ rfl rfl)
    (fun _ => unambiguous_managed (by simp)) (fun _ m₁ h₁ _ => ?_) hthrown)
  refine safe_bind ?_
  unfold assertRetainedGenerations
  split_ifs
  · exact hok _ m₁ h₁
  · refine safe_bind (replaced_safe hw trivial (hread _ _ rfl rfl)
      (fun _ => unambiguous_managed (by simp)) (fun roots m₂ h₂ _ => ?_)
      fun e m hm => hthrown e m (h₁.trans hm))
    have hl₂ := h₁.trans h₂
    refine safe_bind (assertRetained_safe hw (fun m₃ h₃ => ?_) fun e m hm =>
      hthrown e m (hl₂.trans hm))
    refine safe_bind (assertRetained_safe hw (fun m₄ h₄ => ?_) fun e m hm =>
      hthrown e m ((hl₂.trans h₃).trans hm))
    refine assertRetained_safe hw (fun m₅ h₅ => ?_) fun e m hm =>
      hthrown e m (((hl₂.trans h₃).trans h₄).trans hm)
    exact hok _ m₅ (((hl₂.trans h₃).trans h₄).trans h₅)

/-- An active generation that is the desired one is probed and nothing else. -/
theorem keepActive_safe {active : GenerationRecord} {recovered : Bool}
    {post : Except Thrown ReconcileResult → World → RuntimeAnswers → Prop}
    (hstate : world.state = some state) (hsettled : Settled world)
    (hactive : state.active = some active)
    (hok : ∀ result world m, l <+: m → Settled world → post (.ok result) world m)
    (herror : ErrorPost options post l) :
    RuntimeSafe (keepActive options manifest state active recovered) post world l := by
  have hpointer : world.pointer = some active.storePath := by
    rw [((coherent_idle (hsettled state hstate)).1 ((consistent_some hstate).1 hw)).2, activePath,
      hactive]
    rfl
  refine retain_then_safe hw (.own hstate) rfl herror fun m₁ h₁ hw₁ => ?_
  have hbased := (based_of_state hw hsettled hstate)
  have hsame : Based { world with roots := retainedRoots state none } state :=
    ⟨hbased.settled, hbased.active, hbased.previous, hbased.activation⟩
  by_cases hsupported :
      active.compatibilityContractVersion ≠ options.supportedCompatibilityVersion
  · rw [if_pos hsupported]
    refine persist_then_safe hw₁ (hsame.writes_failure _ _) (herror.later h₁) fun m₂ h₂ hw₂ => ?_
    exact herror _ _ m₂ (h₁.trans h₂) hw₂
      (.of_settled (unambiguous_managed (by simp)).explained (settled_of_state rfl rfl))
  · rw [if_neg hsupported]
    refine checkHealth_then_safe hw₁ hpointer fun health m₂ h₂ hw₂ => ?_
    have hl₂ := h₁.trans h₂
    have hprobed : Based (World.probed { world with roots := retainedRoots state none }
        (candidateFromRecord active) health.healthy) state :=
      ⟨hbased.settled, hbased.active, hbased.previous, hbased.activation⟩
    by_cases hhealth : health.healthy = true
    · rw [if_pos hhealth]
      refine persist_then_safe hw₂ (.settle hprobed.settled ?_ hprobed.previous hprobed.activation)
        (herror.later hl₂) fun m₃ h₃ hw₃ => ?_
      · rw [← hprobed.active, hactive]
        rfl
      · exact resultFromState_safe hw₃ (settled_of_state rfl hprobed.activation)
          (fun result m₄ h₄ => hok result _ m₄ ((hl₂.trans h₃).trans h₄)
            (settled_of_state rfl hprobed.activation)) (herror.later (hl₂.trans h₃))
    · rw [if_neg hhealth]
      refine persist_then_safe hw₂ (hprobed.writes_failure _ _) (herror.later hl₂)
        fun m₃ h₃ hw₃ => ?_
      exact herror _ _ m₃ (hl₂.trans h₃) hw₃
        (.of_settled (unambiguous_managed (by simp)).explained (settled_of_state rfl rfl))

/-- `invokeCompatibility`. -/
theorem invokeCompatibility_safe {generation : Option BuiltGeneration}
    (hok : ∀ m, l <+: m → post (.ok ()) world m)
    (herror : ∀ error m, l <+: m → Explained error m → post (.error error) world m) :
    RuntimeSafe (invokeCompatibility manifest generation) post world l := by
  have hthrown : ∀ error m, l <+: m → Unambiguous error → post (.error error) world m :=
    fun error m hm hu => herror error m hm hu.explained
  refine safe_bind (replaced_safe hw trivial (fun answer world' h => outcomes_adapter rfl h)
    (fun _ => unambiguous_managed (by simp)) (fun value m hm _ => ?_) hthrown)
  simp only
  split_ifs
  · exact hthrown _ m hm (unambiguous_managed (by simp))
  · exact hok m hm

/-- `invokeVerification`. -/
theorem invokeVerification_safe (hok : ∀ m, l <+: m → post (.ok ()) world m)
    (herror : ∀ error m, l <+: m → Explained error m → post (.error error) world m) :
    RuntimeSafe (invokeVerification candidate) post world l := by
  refine safe_bind (safe_tryCatch (adapter_safe rfl hw trivial fun answer => ?_))
  have hm : l <+: l ++ [⟨.verifyGeneration candidate, answer⟩] := List.prefix_append _ _
  cases answer with
  | error thrown =>
    refine herror _ _ hm (Explained.asManaged ?_ _ _ (by simp))
    exact fun e he _ => ⟨_, List.mem_append_right l (List.mem_singleton_self _), he⟩
  | ok value =>
    simp only [Operation.recorded]
    split_ifs
    · exact herror _ _ hm (unambiguous_managed (by simp)).explained
    · exact hok _ hm

end

theorem asCandidate_desired {built : BuiltGeneration} {version : ℕ}
    (h : asCandidate manifest built version = .ok candidate) :
    candidate.desiredManifestSemanticIdentity = manifest.semanticIdentity := by
  simp only [asCandidate, bind_eq_ok] at h
  obtain ⟨-, -, -, -, h⟩ := h
  cases h
  rfl

/-- What `asCandidate` throws is not an ambiguous activation. -/
theorem asCandidate_error {built : BuiltGeneration} {version : ℕ}
    (h : asCandidate manifest built version = .error error) : Unambiguous error := by
  simp only [asCandidate, require] at h
  split_ifs at h
  · cases h
  · cases h
    exact unambiguous_managed (by simp)
  · cases h
    exact unambiguous_managed (by simp)
  · cases h
    exact unambiguous_managed (by simp)

theorem buildCandidate_safe
    {post : Except Thrown (BuiltGeneration × Candidate) → World → RuntimeAnswers → Prop}
    (hw : Consistent world) (hbased : Based world state)
    (hok : ∀ built candidate m, l <+: m →
      candidate.desiredManifestSemanticIdentity = manifest.semanticIdentity →
      post (.ok (built, candidate)) world m)
    (herror : ErrorPost options post l) :
    RuntimeSafe (buildCandidate options manifest state) post world l := by
  have hfail : ∀ {β : Type} {post : Except Thrown β → World → RuntimeAnswers → Prop} generation
      error m, ErrorPost options post m → Explained error m → RuntimeSafe
        (failBuild state manifest.semanticIdentity generation error) post world m :=
    fun _ _ _ herror hexplained => failBuild_safe hw hbased hexplained herror
  refine safe_bind (safe_tryCatch (safe_bind (invokeCompatibility_safe hw (fun m₁ h₁ => ?_)
    fun e m hm he => ?_)))
  · refine safe_bind (adapter_safe rfl hw trivial fun answer => ?_)
    have hm : l <+: m₁ ++ [⟨.build manifest, answer⟩] := h₁.trans (List.prefix_append _ _)
    cases answer with
    | error thrown =>
      refine hfail none thrown _ (fun e w m h hw' hf => herror e w m (hm.trans h) hw' hf) ?_
      exact fun e he _ => ⟨_, List.mem_append_right m₁ (List.mem_singleton_self _), he⟩
    | ok built =>
      refine safe_lift_bind (fun candidate hcandidate => ?_) fun e he => ?_
      · refine safe_bind (safe_tryCatch (safe_bind (invokeCompatibility_safe hw (fun m₂ h₂ => ?_)
          fun e m h he => ?_)))
        · refine invokeVerification_safe hw (fun m₃ h₃ => ?_) fun e m h he => ?_
          · exact hok built candidate m₃ ((hm.trans h₂).trans h₃) (asCandidate_desired hcandidate)
          · exact hfail (some candidate) e m (fun e' w m' h' hw' hf =>
              herror e' w m' (((hm.trans h₂).trans h).trans h') hw' hf) he
        · exact hfail (some candidate) e m (fun e' w m' h' hw' hf =>
            herror e' w m' ((hm.trans h).trans h') hw' hf) he
      · exact hfail none e _ (fun e' w m h hw' hf => herror e' w m (hm.trans h) hw' hf)
          (asCandidate_error he).explained
  · exact hfail none e m (fun e' w m' h hw' hf => herror e' w m' (hm.trans h) hw' hf) he

variable {prepared : State} {built : BuiltGeneration}

/-- The transaction that was staged over a state. -/
structure Staged (world : World) (state prepared : State) (pointer : Option String) : Prop where
  found : world.state = some prepared
  phase : prepared.activation.phase = .prepared
  active : state.active = prepared.active
  previous : state.previous = prepared.previous
  pointer : pointer = activePath prepared

variable (hw : Consistent world)
include hw

/-- A staged transaction is cleared, or an operation on a file has failed. -/
theorem abandonPrepared_safe {failed : State} (hwrites : Writes world failed)
    (hactivation : failed.activation = { phase := .idle })
    (hok : ∀ world' m, l <+: m → Consistent world' → (Settled world' ∨ Faulted m) →
      post (.ok ()) world' m) : RuntimeSafe (abandonPrepared failed) post world l := by
  refine safe_tryCatch (safe_bind (persist_safe hw hwrites (fun m₁ h₁ hw₁ => ?_)
    fun _ world' m hm hw' _ hfault _ => hok world' m hm hw' (Or.inr hfault)))
  exact retain_safe hw₁ (.own rfl) rfl
    (fun m₂ h₂ hw₂ => hok _ m₂ (h₁.trans h₂) hw₂ (Or.inl (settled_of_state rfl hactivation)))
    fun _ _ m hm hw' hfault _ => hok _ m (h₁.trans hm) hw' (Or.inr hfault)

theorem failActivation_safe {post : Except Thrown α → World → RuntimeAnswers → Prop}
    (hstaged : Staged world state prepared pointer) (hexplained : Explained error l)
    (hmoved : world.pointer = pointer ∨ Faulted l) (herror : ErrorPost options post l) :
    RuntimeSafe (failActivation state pointer identity candidate error) post world l := by
  have hwrapped := hexplained.asManaged .activationFailure .prepared (by simp)
  refine safe_bind (safe_tryCatch (safe_request_undisturbed trivial fun answer world' h => ?_))
  have hm : l <+: l ++ [⟨.readPointer, answer⟩] := List.prefix_append _ _
  have hlast : (⟨.readPointer, answer⟩ : (operation : Operation) × Except Thrown operation.Value) ∈
    l ++ [⟨.readPointer, answer⟩] := List.mem_append_right l (List.mem_singleton_self _)
  obtain rfl : world = world' := by
    rcases outcomes_result rfl h with ⟨-, h⟩ | ⟨-, -, h | h⟩ <;> exact h.symm
  refine ⟨hw, ?_⟩
  rcases outcomes_result rfl h with ⟨rfl, -⟩ | ⟨message, rfl, -⟩
  · change RuntimeSafe (if world.pointer = pointer then _ else _) post world _
    split_ifs with hsame
    · refine safe_bind (abandonPrepared_safe hw (.abandon hstaged.found hstaged.phase
        (hsame.trans hstaged.pointer) hstaged.active hstaged.previous rfl) rfl
        fun world' m hm' hw' hend => ?_)
      have hlater := hwrapped.mono (hm.trans hm')
      rcases hend with hsettled | hfault
      · exact herror _ world' m (hm.trans hm') hw' (.of_settled hlater hsettled)
      · exact herror _ world' m (hm.trans hm') hw' (.of_fault hlater hfault)
    · refine herror _ world _ hm hw (.of_fault (hwrapped.mono hm) ?_)
      exact (hmoved.resolve_left hsame).mono hm
  · refine herror _ world _ hm hw (.of_fault ?_ ⟨_, hlast, ⟨world, _, rfl⟩, _, rfl⟩)
    exact fun e _ _ => ⟨_, hlast, trivial⟩

theorem activate_safe (hstaged : Staged world state prepared pointer)
    (hactivates : prepared.activation.candidate = some candidate) (hat : world.pointer = pointer)
    (hok : ∀ m, l <+: m → Consistent { world with pointer := some candidate.storePath } →
      post (.ok ()) { world with pointer := some candidate.storePath } m)
    (herror : ErrorPost options post l) :
    RuntimeSafe (activate manifest built state pointer candidate) post world l := by
  have hfail : ∀ error world' m, l <+: m → Consistent world' →
      Staged world' state prepared pointer → Explained error m →
      (world'.pointer = pointer ∨ Faulted m) →
      RuntimeSafe (failActivation state pointer manifest.semanticIdentity candidate error)
        post world' m :=
    fun _ _ m hm hw' hstaged' hexplained hmoved =>
      failActivation_safe hw' hstaged' hexplained hmoved (herror.later hm)
  refine safe_tryCatch (safe_bind (invokeCompatibility_safe hw (fun m₁ h₁ => ?_)
    fun e m hm he => hfail e world m hm hw hstaged he (Or.inl hat)))
  refine safe_bind (invokeVerification_safe hw (fun m₂ h₂ => ?_)
    fun e m hm he => hfail e world m (h₁.trans hm) hw hstaged he (Or.inl hat))
  have hl₂ := h₁.trans h₂
  have hselects : Selects world candidate.storePath :=
    .candidate hstaged.found hstaged.phase hactivates
  refine file_safe rfl hw hselects (fun m₃ h₃ => hok m₃ (hl₂.trans h₃) (hselects.consistent hw))
    fun message world' m₃ h₃ hw' hworld hfault => ?_
  refine hfail _ world' m₃ (hl₂.trans h₃) hw' ?_ (unambiguous_other message).explained
    (Or.inr hfault)
  rcases hworld with rfl | rfl
  · exact hstaged
  · exact ⟨hstaged.found, hstaged.phase, hstaged.active, hstaged.previous, hstaged.pointer⟩

/-- The probe after the switch: the candidate is committed, or the transaction goes back. -/
theorem finishActivation_safe
    {post : Except Thrown ReconcileResult → World → RuntimeAnswers → Prop}
    (hstate : world.state = some prepared) (hphase : prepared.activation.phase = .prepared)
    (hactivates : prepared.activation.candidate = some candidate)
    (hpointer : world.pointer = some candidate.storePath)
    (hok : ∀ result world m, l <+: m → Settled world → post (.ok result) world m)
    (herror : ErrorPost options post l) :
    RuntimeSafe (finishActivation options manifest prepared candidate
      prepared.activation.previous recovered rolledBack) post world l := by
  refine persist_then_safe hw (.switch _ hstate hphase hactivates hpointer) herror
    fun m₁ h₁ hw₁ => ?_
  refine checkHealth_then_safe hw₁ hpointer fun health m₂ h₂ hw₂ => ?_
  have hl₂ := h₁.trans h₂
  by_cases hhealth : health.healthy = false
  · rw [if_pos hhealth]
    rw [hhealth] at hw₂ ⊢
    refine persist_then_safe hw₂ (.fail _ rfl rfl hactivates rfl) (herror.later hl₂)
      fun m₃ h₃ hw₃ => ?_
    have hl₃ := hl₂.trans h₃
    refine safe_bind (recoverTransaction_safe hw₃ rfl (by simp [rollbackPendingState]) hpointer
      (fun result world' m₄ h₄ hw₄ hrecovered => ?_)
      fun e world' m₄ h₄ hw₄ hfails => herror e world' m₄ (hl₃.trans h₄) hw₄ hfails)
    have hsettled := settled_of_state hrecovered.state hrecovered.activation
    change RuntimeSafe (if _ then _ else _) post world' m₄
    split_ifs
    · exact herror _ world' m₄ (hl₃.trans h₄) hw₄
        (.of_settled (unambiguous_managed (by simp)).explained hsettled)
    · exact herror _ world' m₄ (hl₃.trans h₄) hw₄
        (.of_settled (unambiguous_managed (by simp)).explained hsettled)
  · rw [if_neg hhealth]
    rw [Bool.not_eq_false] at hhealth
    rw [hhealth] at hw₂ ⊢
    have hcommits : ∀ roots, Commits
        { World.probed { world with state := some (stateWithActivation prepared
            { prepared.activation with phase := .switchedHealthPending }) } candidate true with
          roots }
        (stateWithActivation prepared
          { prepared.activation with phase := .switchedHealthPending }) candidate
        (committedState (stateWithActivation prepared
          { prepared.activation with phase := .switchedHealthPending }) candidate
          prepared.activation.previous health) :=
      fun _ => ⟨rfl, rfl, hactivates, rfl, ⟨_, rfl⟩, rfl, rfl⟩
    refine retain_then_safe hw₂ (.commit (hcommits world.roots)) rfl (herror.later hl₂)
      fun m₃ h₃ hw₃ => ?_
    refine persist_then_safe hw₃ (.commit (hcommits _) (Or.inr rfl)) (herror.later (hl₂.trans h₃))
      fun m₄ h₄ hw₄ => ?_
    exact resultFromState_safe hw₄ (settled_of_state rfl rfl)
      (fun result m₅ h₅ => hok result _ m₅ (((hl₂.trans h₃).trans h₄).trans h₅)
        (settled_of_state rfl rfl)) (herror.later ((hl₂.trans h₃).trans h₄))

theorem stageCandidate_safe {post : Except Thrown ReconcileResult → World → RuntimeAnswers → Prop}
    (hbased : Based world state) (hat : world.pointer = pointer)
    (hdesired : candidate.desiredManifestSemanticIdentity = manifest.semanticIdentity)
    (hok : ∀ result world m, l <+: m → Settled world → post (.ok result) world m)
    (herror : ErrorPost options post l) :
    RuntimeSafe (stageCandidate options manifest state pointer built candidate recovered
      rolledBack) post world l := by
  have hread : ∀ answer world', outcomes .readPointer world answer world' → world' = world := by
    intro answer world' h
    rcases outcomes_result rfl h with ⟨-, h⟩ | ⟨-, -, h | h⟩ <;> exact h
  refine safe_bind (replaced_safe hw trivial hread (fun _ => unambiguous_managed (by simp))
    (fun value m₁ h₁ hvalue => ?_) fun e m hm hu =>
      herror e world m hm hw (.of_settled hu.explained hbased.settled))
  obtain rfl : value = world.pointer := by
    rcases outcomes_result rfl hvalue with ⟨h, -⟩ | ⟨message, h, -⟩
    · exact Except.ok.inj h
    · cases h
  rw [hat]
  change RuntimeSafe (if _ ≠ _ then _ else _) post world m₁
  rw [if_neg (by simp)]
  have hprepares : ∀ roots, Prepares { world with roots }
      (preparedState state manifest candidate options.now) :=
    fun _ => ⟨hbased.settled, rfl, ⟨candidate, rfl, hdesired.symm, rfl⟩, hbased.active,
      hbased.previous⟩
  refine retain_then_safe hw (.stage (hprepares world.roots)) rfl (herror.later h₁)
    fun m₂ h₂ hw₂ => ?_
  have hl₂ := h₁.trans h₂
  refine persist_then_safe hw₂ (.prepare (hprepares _) rfl) (herror.later hl₂) fun m₃ h₃ hw₃ => ?_
  have hl₃ := hl₂.trans h₃
  have hpointer : pointer = activePath (preparedState state manifest candidate options.now) := by
    rw [← hat, hw.pointer_eq hbased.settled, ← hbased.active]
    rfl
  refine safe_bind (activate_safe hw₃ ⟨rfl, rfl, rfl, rfl, hpointer⟩ rfl hat
    (fun m₄ h₄ hw₄ => ?_) fun e world' m₄ h₄ hw₄ hfails =>
      herror e world' m₄ (hl₃.trans h₄) hw₄ hfails)
  exact finishActivation_safe hw₄ rfl rfl rfl rfl
    (fun result world' m₅ h₅ => hok result world' m₅ ((hl₃.trans h₄).trans h₅))
    (herror.later (hl₃.trans h₄))

/-- What follows once there is no unfinished transaction. -/
theorem reconcileIdle_safe {post : Except Thrown ReconcileResult → World → RuntimeAnswers → Prop}
    (hstored : world.state = stored) (hsettled : Settled world) (hat : world.pointer = pointer)
    (hok : ∀ result world m, l <+: m → Settled world → post (.ok result) world m)
    (herror : ErrorPost options post l) :
    RuntimeSafe (reconcileIdle options stored pointer recovered rolledBack) post world l := by
  have hbased : ∀ identity, Based world (stored.getD (initialState identity)) := by
    intro identity
    cases stored with
    | none => exact based_initial identity hstored
    | some state => exact based_of_state hw hsettled hstored
  refine safe_bind (requireManifest_safe hw hbased (fun manifest m₁ h₁ => ?_) fun e w m hm =>
    herror e w m hm)
  have hb := hbased manifest.semanticIdentity
  have hpointer : pointer = activePath (stored.getD (initialState manifest.semanticIdentity)) := by
    rw [← hat, hw.pointer_eq hsettled, ← hb.active]
    rfl
  change RuntimeSafe (if _ = ActivationPhase.idle then _ else _) post world m₁
  rw [if_pos (by rw [hb.activation])]
  refine safe_lift_bind (fun _ _ => ?_) fun e he => ?_
  · refine safe_lift_bind (fun _ _ => ?_) fun e he => ?_
    · refine safe_bind (currentGeneration_safe hw fun result m₂ h₂ hresult => ?_)
      have hl₂ := h₁.trans h₂
      cases result with
      | none =>
        refine safe_bind (buildCandidate_safe hw hb (fun built candidate m₃ h₃ hdesired => ?_)
          fun e w m hm => herror e w m (hl₂.trans hm))
        exact stageCandidate_safe hw hb hat hdesired
          (fun result w m hm => hok result w m ((hl₂.trans h₃).trans hm))
          (herror.later (hl₂.trans h₃))
      | some active =>
        have hactive := hresult active rfl
        cases stored with
        | none => cases hactive
        | some state =>
          exact keepActive_safe hw hstored hsettled hactive
            (fun result w m hm => hok result w m (hl₂.trans hm)) (herror.later hl₂)
    · rw [assertStablePointer, require, if_pos hpointer] at he
      cases he
  · rw [assertIdleActivation, require, if_pos (by simp [hb.activation])] at he
    cases he

end Activation

end Mottainai.ManagedRuntime

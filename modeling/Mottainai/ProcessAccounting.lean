import Mottainai.ProcessConsistency

/-!
# The accounts of the process registry

In whatever order processes are started, exit, are reaped, awaited and released, and the
registry is disposed of, its accounts agree with its entries, and after each call they agree with
the children that are running. The ids of which handles are made are drawn once each.
-/

namespace Mottainai.ManagedProcesses

open JavaScriptValues OrderedMaps OrderedMap

section Starting

variable {policy : ManagedProcessPolicy} {ids : List String} {now : ℚ} {w : World}
  {handle : String} {entry : ProcessEntry}

theorem handleOf_injective : Function.Injective HandleRegistry.handleOf := by
  intro id id' h
  apply String.ext
  have hlist := congrArg String.toList h
  simpa [HandleRegistry.handleOf] using hlist

theorem Consistent.draw (h : Consistent policy ids w) (id : String) :
    Consistent policy (id :: ids) w :=
  { h with
    drawn := by
      intro handle entry hget
      obtain ⟨id', hmem, hid'⟩ := h.drawn handle entry hget
      exact ⟨id', List.mem_cons_of_mem id hmem, hid'⟩ }

theorem Consistent.get_fresh (h : Consistent policy ids w) {id : String} (hid : id ∉ ids) :
    w.get (HandleRegistry.handleOf id) = none := by
  rw [Option.eq_none_iff_forall_not_mem]
  intro entry hget
  obtain ⟨id', hmem, heq⟩ := h.drawn _ entry hget
  rw [handleOf_injective heq] at hid
  exact hid hmem

def newEntry (w : World) (call : StartCall) : ProcessEntry :=
  { managed := w.processes.length, command := call.command, cwd := call.cwd
    startedAt := call.startedAt, state := .active, expired := false, lifetimeTimer := false }

variable {call : StartCall}

theorem get_register {k : String} {e : ProcessEntry} :
    (w.register call).get k = some e ↔
      (k = HandleRegistry.handleOf call.id ∧ e = newEntry w call) ∨
        (k ≠ HandleRegistry.handleOf call.id ∧ w.get k = some e) :=
  get_set_eq_some_iff

theorem managedState_register {managed : ℕ} (h : managed < w.processes.length) :
    (w.register call).managedState managed = w.managedState managed := by
  simp only [World.managedState, World.register]
  rw [List.getElem?_append_left h]

variable (h : Consistent policy ids w)
include h

theorem Consistent.register (hid : call.id ∉ ids)
    (hactive : w.registry.activeCount < policy.maxActiveProcesses)
    (hdisposed : w.registry.disposed = false) :
    Consistent policy (call.id :: ids) (w.register call) where
  policy_eq := h.policy_eq
  activeCount_eq := by
    have hcount := count_set_of_none ProcessEntry.isActive (h.get_fresh hid) (newEntry w call)
    have hnew : (newEntry w call).isActive = true := rfl
    rw [hnew, if_pos rfl] at hcount
    have hentries : (w.register call).registry.entries.count ProcessEntry.isActive =
        w.registry.entries.count ProcessEntry.isActive + 1 := hcount
    have hplus : (w.register call).registry.activeCount = w.registry.activeCount + 1 := rfl
    have heq := h.activeCount_eq
    omega
  activeCount_le := by
    have hplus : (w.register call).registry.activeCount = w.registry.activeCount + 1 := rfl
    omega
  order_nodup := h.order_nodup
  mem_order := by
    intro k
    refine (h.mem_order k).trans ⟨?_, ?_⟩
    · rintro ⟨e, hk, hterminal⟩
      refine ⟨e, get_register.mpr (.inr ⟨?_, hk⟩), hterminal⟩
      rintro rfl
      rw [h.get_fresh hid] at hk
      cases hk
    · rintro ⟨e, hk, hterminal⟩
      rcases get_register.mp hk with ⟨-, rfl⟩ | ⟨-, hk⟩
      · cases hterminal
      · exact ⟨e, hk, hterminal⟩
  exited_of_terminal := by
    intro k e hk hterminal
    rcases get_register.mp hk with ⟨-, rfl⟩ | ⟨-, hk⟩
    · cases hterminal
    · rw [managedState_register (h.managed_lt k e hk)]
      exact h.exited_of_terminal k e hk hterminal
  callback_of_active := by
    intro k e hk he
    rcases get_register.mp hk with ⟨rfl, rfl⟩ | ⟨-, hk⟩
    · exact List.mem_append_right _ (List.mem_singleton.mpr rfl)
    · exact List.mem_append_left _ (h.callback_of_active k e hk he)
  managed_lt := by
    intro k e hk
    have hlength : (w.register call).processes.length = w.processes.length + 1 := by
      simp [World.register]
    rw [hlength]
    rcases get_register.mp hk with ⟨-, rfl⟩ | ⟨-, hk⟩
    · exact Nat.lt_succ_self _
    · exact (h.managed_lt k e hk).trans (Nat.lt_succ_self _)
  managed_inj := by
    intro k k' e e' hk hk' heq
    rcases get_register.mp hk with ⟨rfl, rfl⟩ | ⟨-, hk₀⟩
    · rcases get_register.mp hk' with ⟨rfl, -⟩ | ⟨-, hk₁⟩
      · rfl
      · exact absurd heq (h.managed_lt k' e' hk₁).ne'
    · rcases get_register.mp hk' with ⟨-, rfl⟩ | ⟨-, hk₁⟩
      · exact absurd heq (h.managed_lt k e hk₀).ne
      · exact h.managed_inj k k' e e' hk₀ hk₁ heq
  handles_get := by
    intro k
    by_cases hkey : k = HandleRegistry.handleOf call.id
    · subst hkey
      have hself : (w.register call).get (HandleRegistry.handleOf call.id) =
          some (newEntry w call) := get_set_self
      rw [hself]
      exact get_set_self
    · have hsame : (w.register call).get k = w.get k := get_set_of_ne hkey
      rw [hsame, ← h.handles_get k]
      exact get_set_of_ne hkey
  disposers := by
    intro k onDispose hk
    rcases get_set_eq_some_iff.mp hk with ⟨-, rfl⟩ | ⟨-, hk⟩
    · rfl
    · exact h.disposers k onDispose hk
  drawn := by
    intro k e hk
    rcases get_register.mp hk with ⟨rfl, -⟩ | ⟨-, hk⟩
    · exact ⟨call.id, List.mem_cons_self, rfl⟩
    · exact (h.draw call.id).drawn k e hk
  empty_of_disposed := by
    intro htrue
    have hfalse : w.registry.disposed = true := htrue
    rw [hdisposed] at hfalse
    cases hfalse

theorem Consistent.admitProcess (hid : call.id ∉ ids)
    (hactive : w.registry.activeCount < policy.maxActiveProcesses)
    (hdisposed : w.registry.disposed = false) (htrimmed : Trimmed w)
    (hsees : ∀ handle, SeesExit w handle) :
    Consistent policy (call.id :: ids) (w.admitProcess call) ∧ Trimmed (w.admitProcess call) ∧
      ∀ handle, SeesExit (w.admitProcess call) handle := by
  have hregister := h.register hid hactive hdisposed
  have hget : (w.register call).get (HandleRegistry.handleOf call.id) = some (newEntry w call) :=
    get_set_self
  have hothers : ∀ k, k ≠ HandleRegistry.handleOf call.id → SeesExit (w.register call) k := by
    intro k hne e hk he
    rcases get_register.mp hk with ⟨heq, -⟩ | ⟨-, hk⟩
    · exact absurd heq hne
    · rw [managedState_register (h.managed_lt k e hk)]
      exact hsees k e hk he
  unfold World.admitProcess
  simp only []
  split_ifs with hexited
  · obtain ⟨hconsistent, hreaps, htrim, hseesNew⟩ :=
      hregister.markTerminal call.startedAt (HandleRegistry.handleOf call.id) hexited
    refine ⟨hconsistent, htrim htrimmed, ?_⟩
    intro k
    by_cases hkey : k = HandleRegistry.handleOf call.id
    · rw [hkey]
      exact hseesNew _ hget rfl
    · exact hreaps.seesExit (hothers k hkey)
  · have hschedule : (w.register call).scheduleLifetime (HandleRegistry.handleOf call.id) =
        (w.register call).setEntry (HandleRegistry.handleOf call.id)
          { newEntry w call with lifetimeTimer := true } := by
      rw [World.scheduleLifetime, hget]
    rw [hschedule]
    refine ⟨hregister.setEntry hget _ rfl rfl, htrimmed, ?_⟩
    intro k e hk he
    rcases get_set_eq_some_iff.mp hk with ⟨rfl, rfl⟩ | ⟨hne, hk⟩
    · exact (hregister.running_or_exited hget).resolve_right hexited
    · exact hothers k hne e hk he

theorem Consistent.start (htrimmed : Trimmed w) (hid : call.id ∉ ids) :
    Consistent policy (call.id :: ids) (w.start call).2 ∧ Trimmed (w.start call).2 ∧
      ∀ handle, SeesExit (w.start call).2 handle := by
  obtain ⟨hreaped, hreaps, htrim, hsees⟩ := h.reap call.reapedAt
  unfold World.start
  split_ifs with hdisposed
  · refine ⟨h.draw call.id, htrimmed, ?_⟩
    intro handle entry hget
    rw [World.get, h.empty_of_disposed hdisposed] at hget
    cases hget
  · simp only []
    split_ifs with hfull
    · exact ⟨hreaped.draw call.id, htrim htrimmed, hsees⟩
    · rw [hreaped.policy_eq, not_le] at hfull
      have hdisposed' : (w.reap call.reapedAt).registry.disposed = false := by
        rw [hreaps.disposed_eq]
        simpa using hdisposed
      exact hreaped.admitProcess hid hfull hdisposed' (htrim htrimmed) hsees

end Starting

section Steps

variable {policy : ManagedProcessPolicy} {ids : List String} {now : ℚ} {w : World}
  {handle : String} {entry : ProcessEntry}

def withCallbacks (w : World) (callbacks : List (String × ℕ)) : World :=
  { w with callbacks := callbacks }

theorem evictOldest_withCallbacks (w : World) (callbacks : List (String × ℕ)) :
    (withCallbacks w callbacks).evictOldest = withCallbacks w.evictOldest callbacks := by
  unfold World.evictOldest
  simp only [withCallbacks]
  cases w.registry.terminalOrder with
  | nil => rfl
  | cons first rest =>
    simp only [World.forgetTerminal, World.get]
    cases w.registry.entries.get first with
    | none => rfl
    | some entry =>
      simp only []
      split_ifs <;> rfl

theorem trimLoop_withCallbacks (w : World) (callbacks : List (String × ℕ)) (turns : ℕ) :
    (withCallbacks w callbacks).trimLoop turns = withCallbacks (w.trimLoop turns) callbacks := by
  induction turns generalizing w with
  | zero => rfl
  | succ turns ih =>
    have hregistry : (withCallbacks w callbacks).registry = w.registry := rfl
    rw [World.trimLoop, World.trimLoop, hregistry, evictOldest_withCallbacks, ih]
    split_ifs <;> rfl

theorem markTerminal_withCallbacks (w : World) (callbacks : List (String × ℕ)) (handle : String)
    (managed : ℕ) :
    (withCallbacks w callbacks).markTerminal handle managed =
      withCallbacks (w.markTerminal handle managed) callbacks := by
  have hget : (withCallbacks w callbacks).get handle = w.get handle := rfl
  have hregistry : (withCallbacks w callbacks).registry = w.registry := rfl
  unfold World.markTerminal
  rw [hget, hregistry]
  split_ifs
  · rfl
  cases w.get handle with
  | none => rfl
  | some entry =>
    simp only []
    split_ifs
    · rfl
    · exact trimLoop_withCallbacks (w.recordTerminal handle entry) callbacks _

theorem Consistent.runCallback (h : Consistent policy ids w) (htrimmed : Trimmed w)
    (handle : String) (managed : ℕ) :
    Consistent policy ids (w.runCallback handle managed) ∧
      Trimmed (w.runCallback handle managed) := by
  unfold World.runCallback
  split_ifs with henabled
  · obtain ⟨-, hexited⟩ := henabled
    obtain ⟨hmarked, hreaps, htrim, hsees⟩ := h.markTerminal 0 handle hexited
    have hcommute := markTerminal_withCallbacks w (w.callbacks.erase (handle, managed)) handle
      managed
    rw [withCallbacks] at hcommute
    rw [hcommute]
    refine ⟨{ hmarked with callback_of_active := ?_ }, htrim htrimmed⟩
    intro k e hk he
    have hk' : (w.markTerminal handle managed).get k = some e := hk
    have hmem := hmarked.callback_of_active k e hk' he
    rw [hreaps.callbacks_eq] at hmem
    refine (List.mem_erase_of_ne ?_).mpr hmem
    intro heq
    obtain ⟨rfl, rfl⟩ := Prod.mk.inj heq
    obtain ⟨e₀, hget, hmanaged, -, -, -⟩ := hreaps.comesFrom k e hk'
    have hrunning := hsees e₀ hget hmanaged.symm e hk' he
    rw [hreaps.state_eq, hexited] at hrunning
    cases hrunning
  · exact ⟨h, htrimmed⟩

theorem Consistent.childExit (h : Consistent policy ids w) (managed : ℕ) (result : ChildResult) :
    Consistent policy ids (w.childExit managed result) :=
  { h with
    exited_of_terminal := by
      intro k e hk hterminal
      have hexited := h.exited_of_terminal k e hk hterminal
      simp only [World.managedState, World.childExit, List.getElem?_modify] at hexited ⊢
      cases hprocess : w.processes[e.managed]? with
      | none => simp [hprocess] at hexited
      | some process =>
        rw [hprocess] at hexited
        by_cases hmanaged : managed = e.managed
        · simp [hmanaged]
        · simpa [hmanaged] using hexited
    managed_lt := by
      intro k e hk
      have hlength : (w.childExit managed result).processes.length = w.processes.length :=
        List.length_modify ..
      rw [hlength]
      exact h.managed_lt k e hk }

theorem consistent_of_empty (hpolicy : w.registry.policy = policy)
    (hentries : w.registry.entries = .empty) (hhandles : w.registry.handles = .empty)
    (horder : w.registry.terminalOrder = []) (hactive : w.registry.activeCount = 0) :
    Consistent policy ids w := by
  have hnone : ∀ k e, w.get k ≠ some e := by
    intro k e hk
    rw [World.get, hentries] at hk
    cases hk
  exact
    { policy_eq := hpolicy
      activeCount_eq := by
        rw [hactive, hentries]
        rfl
      activeCount_le := by
        rw [hactive]
        exact Int.natCast_nonneg _
      order_nodup := by
        rw [horder]
        exact List.nodup_nil
      mem_order := by
        intro k
        rw [horder]
        constructor
        · intro hmem
          cases hmem
        · rintro ⟨e, hk, -⟩
          exact absurd hk (hnone k e)
      exited_of_terminal := fun k e hk => absurd hk (hnone k e)
      callback_of_active := fun k e hk => absurd hk (hnone k e)
      managed_lt := fun k e hk => absurd hk (hnone k e)
      managed_inj := fun k _ e _ hk => absurd hk (hnone k e)
      handles_get := by
        intro k
        rw [World.get, hentries, hhandles]
        rfl
      disposers := by
        intro k onDispose hk
        rw [hhandles] at hk
        cases hk
      drawn := fun k e hk => absurd hk (hnone k e)
      empty_of_disposed := fun _ => hentries }

theorem Consistent.dispose (h : Consistent policy ids w) :
    Consistent policy ids w.dispose ∧ (Trimmed w → Trimmed w.dispose) ∧
      ∀ handle, SeesExit w.dispose handle := by
  unfold World.dispose
  split_ifs with hdisposed
  · refine ⟨h, id, ?_⟩
    intro handle entry hget
    rw [World.get, h.empty_of_disposed hdisposed] at hget
    cases hget
  · refine ⟨?_, fun _ => Nat.zero_le _, ?_⟩
    · exact consistent_of_empty h.policy_eq rfl rfl rfl rfl
    · intro k e hk
      cases hk

theorem Trimmed.forget (h : Trimmed w) (handle : String) : Trimmed (w.forget handle) :=
  List.erase_sublist.length_le.trans h

theorem Consistent.release (h : Consistent policy ids w) (now : ℚ) (handle : String) :
    Consistent policy ids (w.release now handle) ∧ Reaps now w (w.release now handle) ∧
      (Trimmed w → Trimmed (w.release now handle)) ∧ ∀ k, SeesExit (w.release now handle) k := by
  obtain ⟨hreaped, hreaps, htrim, hsees⟩ := h.reap now
  unfold World.release
  simp only []
  cases hget : (w.reap now).get handle with
  | none => exact ⟨hreaped, hreaps, htrim, hsees⟩
  | some entry =>
    simp only []
    split_ifs with hactive
    · exact ⟨hreaped, hreaps, htrim, hsees⟩
    · have hterminal : entry.state = .terminal := by
        cases hcase : entry.state with
        | active => exact absurd hcase hactive
        | terminal => rfl
      have hforget : Reaps now (w.reap now) ((w.reap now).forget handle) :=
        Reaps.forget hreaped hget hterminal
      exact ⟨hreaped.forget hget hterminal, hreaps.trans hforget,
        fun ht => (htrim ht).forget handle, fun k => hforget.seesExit (hsees k)⟩

/-- What an event may draw, and what holds after it. -/
theorem Consistent.step (h : Consistent policy ids w) (htrimmed : Trimmed w) (event : Event)
    (hid : ∀ id, event.id? = some id → id ∉ ids) :
    Consistent policy (event.id?.toList ++ ids) (w.step event) ∧ Trimmed (w.step event) ∧
      (event.isCall = true → ∀ handle, SeesExit (w.step event) handle) := by
  have hreap : ∀ now, Consistent policy ids (w.reap now) ∧ Trimmed (w.reap now) ∧
      (event.isCall = true → ∀ handle, SeesExit (w.reap now) handle) := by
    intro now
    obtain ⟨hreaped, -, htrim, hsees⟩ := h.reap now
    exact ⟨hreaped, htrim htrimmed, fun _ => hsees⟩
  cases event with
  | start call =>
    obtain ⟨hstarted, htrim, hsees⟩ := h.start htrimmed (hid call.id rfl)
    exact ⟨hstarted, htrim, fun _ => hsees⟩
  | childExit managed result =>
    refine ⟨h.childExit managed result, htrimmed, ?_⟩
    intro hcall
    cases hcall
  | callback handle managed =>
    obtain ⟨hconsistent, htrim⟩ := h.runCallback htrimmed handle managed
    refine ⟨hconsistent, htrim, ?_⟩
    intro hcall
    cases hcall
  | lifetimeTimer handle now =>
    simp only [World.step, World.fireTimer]
    split_ifs
    · exact hreap now
    · refine ⟨h, htrimmed, ?_⟩
      intro hcall
      cases hcall
  | reap now => exact hreap now
  | release now handle =>
    obtain ⟨hreleased, -, htrim, hsees⟩ := h.release now handle
    exact ⟨hreleased, htrim htrimmed, fun _ => hsees⟩
  | has now handle => exact hreap now
  | describe now handle => exact hreap now
  | awaitHandle now startedAt answeredAt handle aborted =>
    have hawait : (w.awaitHandle now startedAt answeredAt handle aborted).2 = w.reap now := by
      unfold World.awaitHandle
      simp only []
      split
      · rfl
      · split <;> rfl
    simp only [World.step, hawait]
    exact hreap now
  | size now => exact hreap now
  | activeSize now => exact hreap now
  | retainedSize now => exact hreap now
  | dispose =>
    obtain ⟨hdisposed, htrim, hsees⟩ := h.dispose
    exact ⟨hdisposed, htrim htrimmed, fun _ => hsees⟩

theorem Consistent.run (h : Consistent policy ids w) (htrimmed : Trimmed w) (events : List Event)
    (hids : (events.filterMap Event.id?).Nodup)
    (hfresh : ∀ id ∈ events.filterMap Event.id?, id ∉ ids) :
    (∃ ids', (∀ id ∈ ids', id ∈ ids ∨ id ∈ events.filterMap Event.id?) ∧
      Consistent policy ids' (w.run events)) ∧ Trimmed (w.run events) := by
  induction events generalizing w ids with
  | nil => exact ⟨⟨ids, fun _ hid => .inl hid, h⟩, htrimmed⟩
  | cons event events ih =>
    have hfirst : ∀ id, event.id? = some id → id ∉ ids := by
      intro id hid
      exact hfresh id (List.mem_filterMap.mpr ⟨event, List.mem_cons_self, hid⟩)
    obtain ⟨hstep, htrim, -⟩ := h.step htrimmed event hfirst
    have hsplit : (event :: events).filterMap Event.id? =
        event.id?.toList ++ events.filterMap Event.id? := by
      cases hid : event.id? with
      | none => simp [hid]
      | some id => simp [hid]
    rw [hsplit] at hids hfresh ⊢
    rw [List.nodup_append] at hids
    obtain ⟨-, hrest, hdisjoint⟩ := hids
    have hfresh' : ∀ id ∈ events.filterMap Event.id?, id ∉ event.id?.toList ++ ids := by
      intro id hmem hin
      rcases List.mem_append.mp hin with hnow | hbefore
      · exact hdisjoint id hnow id hmem rfl
      · exact hfresh id (List.mem_append_right _ hmem) hbefore
    obtain ⟨⟨ids', hids', hrun⟩, htrim'⟩ := ih hstep htrim hrest hfresh'
    refine ⟨⟨ids', ?_, hrun⟩, htrim'⟩
    intro id hmem
    rcases hids' id hmem with hin | hin
    · rcases List.mem_append.mp hin with hnow | hbefore
      · exact .inr (List.mem_append_left _ hnow)
      · exact .inl hbefore
    · exact .inr (List.mem_append_right _ hin)

theorem consistent_initial (policy : ManagedProcessPolicy) :
    Consistent policy [] (World.initial (ProcessRegistry.new policy)) :=
  consistent_of_empty rfl rfl rfl rfl rfl

end Steps

section Accounts

/-- The accounts of a registry agree with its entries and with their children. An active entry
whose child has exited is one whose callback is still to run. -/
structure Accounted (w : World) : Prop where
  activeCount_eq : w.registry.activeCount = w.registry.entries.count ProcessEntry.isActive
  active_of_running : ∀ handle entry, w.get handle = some entry →
    w.managedState entry.managed = some .running → entry.isActive = true
  callback_of_exited : ∀ handle entry, w.get handle = some entry → entry.isActive = true →
    w.managedState entry.managed = some .exited → (handle, entry.managed) ∈ w.callbacks
  activeCount_le : w.registry.activeCount ≤ w.registry.policy.maxActiveProcesses
  retainedCount_eq : w.registry.retainedCount =
    w.registry.entries.count fun entry => !entry.isActive
  retained_le : (w.registry.entries.count fun entry => !entry.isActive) ≤
    w.registry.policy.maxRetainedHandles
  order_nodup : w.registry.terminalOrder.Nodup
  mem_order : ∀ handle, handle ∈ w.registry.terminalOrder ↔
    ∃ entry, w.get handle = some entry ∧ entry.isActive = false

def runningEntries (w : World) : ℕ :=
  w.registry.entries.count fun entry => decide (w.managedState entry.managed = some .running)

/-- A release at a time removes no entry whose child is running, and kills no child whose
lifetime has not passed. -/
def ReleaseSpares (now : ℚ) (handle : String) (w : World) : Prop :=
  (∀ k entry, w.get k = some entry → w.managedState entry.managed = some .running →
    ∃ entry', (w.release now handle).get k = some entry' ∧ entry'.managed = entry.managed ∧
      entry'.isActive = true ∧
      (w.release now handle).managedState entry.managed = some .running) ∧
  ∀ managed, (w.release now handle).processes[managed]? = w.processes[managed]? ∨
    ∃ k entry, w.get k = some entry ∧ entry.managed = managed ∧
      entry.overdue w.registry.policy now = true

variable {policy : ManagedProcessPolicy} {ids : List String} {w : World}
variable {entry : ProcessEntry}

theorem isActive_iff : entry.isActive = true ↔ entry.state = .active :=
  decide_eq_true_iff

theorem isActive_eq_false_iff : entry.isActive = false ↔ entry.state = .terminal := by
  cases h : entry.state <;> simp [ProcessEntry.isActive, h]

section

variable (h : Consistent policy ids w)
include h

theorem Consistent.active_of_running {handle : String} (hget : w.get handle = some entry)
    (hrunning : w.managedState entry.managed = some .running) : entry.isActive = true := by
  by_contra hne
  have hterminal := isActive_eq_false_iff.mp (by simpa using hne)
  rw [h.exited_of_terminal handle entry hget hterminal] at hrunning
  cases hrunning

theorem Consistent.length_order :
    w.registry.terminalOrder.length = w.registry.entries.count fun entry => !entry.isActive := by
  have hhandles : ((w.registry.entries.entries.filter fun e => !e.2.isActive).map (·.1)).Nodup :=
    (w.registry.entries.filter fun e => !e.2.isActive).nodup
  have hperm : w.registry.terminalOrder.Perm
      ((w.registry.entries.entries.filter fun e => !e.2.isActive).map (·.1)) := by
    apply (List.perm_ext_iff_of_nodup h.order_nodup hhandles).mpr
    intro handle
    rw [h.mem_order handle, List.mem_map]
    constructor
    · rintro ⟨entry, hget, hterminal⟩
      refine ⟨(handle, entry), List.mem_filter.mpr ⟨get_eq_some_iff.mp hget, ?_⟩, rfl⟩
      simp [isActive_eq_false_iff.mpr hterminal]
    · rintro ⟨e, hmem, rfl⟩
      obtain ⟨hentry, hterminal⟩ := List.mem_filter.mp hmem
      exact ⟨e.2, get_eq_some_iff.mpr hentry, isActive_eq_false_iff.mp (by simpa using hterminal)⟩
  rw [hperm.length_eq, List.length_map, count, List.countP_eq_length_filter]

theorem Consistent.accounted (htrimmed : Trimmed w) :
    Accounted w where
  activeCount_eq := h.activeCount_eq
  active_of_running := fun _ _ hget => h.active_of_running hget
  callback_of_exited := fun handle entry hget hactive _ =>
    h.callback_of_active handle entry hget (isActive_iff.mp hactive)
  activeCount_le := by
    rw [h.policy_eq]
    exact h.activeCount_le
  retainedCount_eq := by
    have hcount := count_add_count_not (m := w.registry.entries) ProcessEntry.isActive
    have hactive := h.activeCount_eq
    rw [ProcessRegistry.retainedCount]
    omega
  retained_le := by
    rw [← h.length_order]
    exact htrimmed
  order_nodup := h.order_nodup
  mem_order := by
    intro handle
    simp only [isActive_eq_false_iff]
    exact h.mem_order handle

theorem Consistent.activeCount_eq_running (hsees : ∀ handle, SeesExit w handle) :
    w.registry.activeCount = runningEntries w := by
  rw [h.activeCount_eq, runningEntries]
  congr 1
  apply count_congr
  intro handle entry hget
  rw [Bool.eq_iff_iff, decide_eq_true_iff]
  constructor
  · intro hactive
    exact hsees handle entry hget (isActive_iff.mp hactive)
  · exact h.active_of_running hget

theorem Consistent.releaseSpares (now : ℚ) (handle : String) : ReleaseSpares now handle w := by
  obtain ⟨hreleased, hreaps, -, -⟩ := h.release now handle
  refine ⟨?_, hreaps.signals⟩
  intro k entry hget hrunning
  obtain ⟨entry', hget', hmanaged⟩ := hreaps.kept k entry hget hrunning
  have hrunning' : (w.release now handle).managedState entry.managed = some .running := by
    rw [hreaps.state_eq]
    exact hrunning
  refine ⟨entry', hget', hmanaged, hreleased.active_of_running hget' ?_, hrunning'⟩
  rw [hmanaged]
  exact hrunning'

end

/-- In every run of a registry its accounts agree, after a call they agree with the children
that are running, and a release spares these unless their lifetime has passed. -/
theorem processes_accounted (config : ManagedProcessPolicyConfig) (registry : ProcessRegistry)
    (hcreate : ProcessRegistry.create config = .ok registry) (events : List Event)
    (hids : (events.filterMap Event.id?).Nodup) :
    ((World.initial registry).run events).registry.policy = registry.policy ∧
      Accounted ((World.initial registry).run events) ∧
      (∀ event, events.getLast? = some event → event.isCall = true →
        ((World.initial registry).run events).registry.activeCount =
          runningEntries ((World.initial registry).run events)) ∧
      ∀ now handle, ReleaseSpares now handle ((World.initial registry).run events) := by
  obtain ⟨policy, -, rfl⟩ := map_eq_ok.mp hcreate
  have hrun : ∀ events : List Event, (events.filterMap Event.id?).Nodup →
      (∃ ids, (∀ id ∈ ids, id ∈ ([] : List String) ∨ id ∈ events.filterMap Event.id?) ∧
        Consistent policy ids ((World.initial (ProcessRegistry.new policy)).run events)) ∧
      Trimmed ((World.initial (ProcessRegistry.new policy)).run events) := by
    intro events hids
    apply (consistent_initial policy).run (Nat.zero_le _) events hids
    intro id _ hmem
    cases hmem
  obtain ⟨⟨ids, -, hconsistent⟩, htrimmed⟩ := hrun events hids
  refine ⟨hconsistent.policy_eq, hconsistent.accounted htrimmed, ?_,
    fun now handle => hconsistent.releaseSpares now handle⟩
  intro event hlast hcall
  obtain ⟨before, rfl⟩ := List.getLast?_eq_some_iff.mp hlast
  rw [List.filterMap_append, List.nodup_append] at hids
  obtain ⟨hbefore, -, hdisjoint⟩ := hids
  obtain ⟨⟨ids', hids', hconsistent'⟩, htrimmed'⟩ := hrun before hbefore
  have hfresh : ∀ id, event.id? = some id → id ∉ ids' := by
    intro id hid hmem
    rcases hids' id hmem with hnone | hdrawn
    · cases hnone
    · exact hdisjoint id hdrawn id (by simp [hid]) rfl
  obtain ⟨hstep, -, hsees⟩ := hconsistent'.step htrimmed' event hfresh
  have hsplit : (World.initial (ProcessRegistry.new policy)).run (before ++ [event]) =
      ((World.initial (ProcessRegistry.new policy)).run before).step event :=
    List.foldl_append ..
  rw [hsplit]
  exact hstep.activeCount_eq_running (hsees hcall)

section Runs

def defaultConfig : ManagedProcessPolicyConfig :=
  { maxActiveProcesses := none, maxRetainedHandles := none, maxLifetimeMs := none }

def sleepCall (id : String) (pid : ℕ) : StartCall :=
  { command := "sleep 600", cwd := "/repository", spawn := .child (some pid), id := id
    reapedAt := 0, startedAt := 0 }

def exitResult : ChildResult :=
  { stdout := "", stderr := "", exitCode := some 0, signal := none, outputLimit := false
    spawnError := none }

def firstId : String := "1b9d6bcd-bbfd-4b2d-9b5d-ab8dfbbd4bed"

def secondId : String := "9b1deb4d-3b7d-4bad-9bdd-2b0d7b3dcb6d"

theorem processes_accounted_of_two :
    ((World.initial (.new defaultManagedProcessPolicy)).run
      [.start (sleepCall firstId 7), .start (sleepCall secondId 8), .childExit 0 exitResult,
        .release 1 (HandleRegistry.handleOf firstId)]).registry.policy =
      defaultManagedProcessPolicy ∧
    Accounted ((World.initial (.new defaultManagedProcessPolicy)).run
      [.start (sleepCall firstId 7), .start (sleepCall secondId 8), .childExit 0 exitResult,
        .release 1 (HandleRegistry.handleOf firstId)]) :=
  have h := processes_accounted defaultConfig (.new defaultManagedProcessPolicy) rfl
    [.start (sleepCall firstId 7), .start (sleepCall secondId 8), .childExit 0 exitResult,
      .release 1 (HandleRegistry.handleOf firstId)] (by decide)
  ⟨h.1, h.2.1⟩

/-- A release once the lifetime of a child has passed kills it, and between an exit and its
callback the active count is ahead of the children that are running. -/
theorem release_kills_overdue_child :
    (((World.initial (.new defaultManagedProcessPolicy)).run
        [.start (sleepCall firstId 7)]).managedState 0 = some .running ∧
      ((((World.initial (.new defaultManagedProcessPolicy)).run
        [.start (sleepCall firstId 7)]).release 300000
          (HandleRegistry.handleOf firstId)).processes.map ManagedProcess.sigkills) = [1]) ∧
    ((World.initial (.new defaultManagedProcessPolicy)).run
        [.start (sleepCall firstId 7), .childExit 0 exitResult]).registry.activeCount = 1 ∧
      runningEntries ((World.initial (.new defaultManagedProcessPolicy)).run
        [.start (sleepCall firstId 7), .childExit 0 exitResult]) = 0 := by
  decide +kernel

end Runs

end Accounts

end Mottainai.ManagedProcesses

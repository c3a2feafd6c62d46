import Mathlib.Algebra.Order.BigOperators.Group.Finset
import Mottainai.BurstCohorts

/-!
# The order of a cohort

The rank of a call lies between the one it has when no other call is resolved and the one it has
when all of them are, and the window holds at least what it did before the cohort and at most
what all the other calls are charged. The calls that are admitted are the same in every order
exactly when no call fits at one end and not at the other.
-/

namespace Mottainai.ContextRuntime

variable {n : ℕ} {policy : BurstBudgetPolicy} {calls : Fin n → CohortCall} {first : ℕ}
variable {window : List RollingEntry} {clock : BurstClock policy window}

section Bounds

variable {resolved resolved' : Finset (Fin n)} {call : Fin n}

theorem rankAmong_mono (hblocking : (calls call).isBlocking = true) (hcall : call ∈ resolved)
    (hsubset : resolved ⊆ resolved') : rankAmong calls resolved call ≤ rankAmong calls resolved' call := by
  apply List.countP_mono_left
  intro other _ hprecedes
  have hcall' := hsubset hcall
  have hother := @hsubset other
  simp only [precedesIn, cohortTier, hcall, hcall', hblocking, if_true, decide_eq_true_eq]
    at hprecedes ⊢
  by_cases hmem : other ∈ resolved
  · simpa only [hmem, hother hmem, if_true] using hprecedes
  · simp [hmem] at hprecedes

theorem rankAmong_anti (hblocking : (calls call).isBlocking = false) (hcall : call ∈ resolved)
    (hsubset : resolved ⊆ resolved') : rankAmong calls resolved' call ≤ rankAmong calls resolved call := by
  apply List.countP_mono_left
  intro other _ hprecedes
  have hcall' := hsubset hcall
  have hother := @hsubset other
  simp only [precedesIn, cohortTier, hcall, hcall', hblocking, if_true, decide_eq_true_eq]
    at hprecedes ⊢
  by_cases hmem : other ∈ resolved
  · simpa only [hmem, hother hmem, if_true] using hprecedes
  · simp [hmem]

def aloneRank (calls : Fin n → CohortCall) (call : Fin n) : ℕ := rankAmong calls {call} call

def finalRank (calls : Fin n → CohortCall) (call : Fin n) : ℕ :=
  rankAmong calls Finset.univ call

theorem rankAmong_bounds (calls : Fin n → CohortCall) (hcall : call ∈ resolved) :
    min (aloneRank calls call) (finalRank calls call) ≤ rankAmong calls resolved call ∧
      rankAmong calls resolved call ≤ max (aloneRank calls call) (finalRank calls call) := by
  have halone : {call} ⊆ resolved := Finset.singleton_subset_iff.mpr hcall
  have hself : call ∈ ({call} : Finset (Fin n)) := Finset.mem_singleton_self call
  have hfinal := Finset.subset_univ resolved
  cases hblocking : (calls call).isBlocking with
  | true =>
    exact ⟨(min_le_left _ _).trans (rankAmong_mono hblocking hself halone),
      (rankAmong_mono hblocking hcall hfinal).trans (le_max_right _ _)⟩
  | false =>
    exact ⟨(min_le_right _ _).trans (rankAmong_anti hblocking hcall hfinal),
      (rankAmong_anti hblocking hself halone).trans (le_max_left _ _)⟩

theorem fitsShare_mono {rank rank' tokens : ℕ} (hrank : rank ≤ rank')
    (h : fitsShare policy rank' tokens = true) : fitsShare policy rank tokens = true := by
  have hproduct : (rank : ℤ) * tokens ≤ rank' * tokens := by
    exact_mod_cast Nat.mul_le_mul_right tokens hrank
  simp only [fitsShare, decide_eq_true_eq] at h ⊢
  omega

/-- Whoever fits fits with a better rank and a window that holds less. -/
theorem fitsCohort_mono {rank rank' tokens tokens' bytes bytes' : ℕ} {request : CohortCall}
    (hrank : rank ≤ rank') (htokens : tokens ≤ tokens') (hbytes : bytes ≤ bytes')
    (h : fitsCohort policy rank' tokens' bytes' request = true) :
    fitsCohort policy rank tokens bytes request = true := by
  simp only [fitsCohort, Bool.and_eq_true] at h ⊢
  obtain ⟨⟨hshare, hfitsTokens⟩, hfitsBytes⟩ := h
  refine ⟨⟨fitsShare_mono hrank hshare, ?_⟩, ?_⟩
  · simp only [fitsRollingTokens, decide_eq_true_eq] at hfitsTokens ⊢
    omega
  · simp only [fitsRollingBytes, decide_eq_true_eq] at hfitsBytes ⊢
    omega

end Bounds

section Accounts

/-- What a state has counted: the calls that are not pending are resolved, and those that neither
are pending nor waiting have been charged. -/
structure Accounts (calls : Fin n → CohortCall) (baseTokens baseBytes : ℕ)
    (pending waiting : Finset (Fin n)) (state : CohortState n) : Prop where
  resolved : state.resolved = pendingᶜ
  notPending : ∀ call ∈ waiting, call ∉ pending
  admitted : ∀ call ∈ state.admitted, call ∈ (pending ∪ waiting)ᶜ
  usedTokens : state.usedTokens = baseTokens +
    ∑ call ∈ (pending ∪ waiting)ᶜ, chargedTokens (decide (call ∈ state.admitted)) (calls call).tokens
  usedBytes : state.usedBytes = baseBytes +
    ∑ call ∈ (pending ∪ waiting)ᶜ, chargedBytes (decide (call ∈ state.admitted)) (calls call).bytes

variable {baseTokens baseBytes : ℕ} {pending waiting pending' waiting' : Finset (Fin n)}
variable {state : CohortState n} {call : Fin n} {now : ℚ} {events events' : List (CohortEvent n)}

theorem Accounts.update (policy : BurstBudgetPolicy)
    (h : Accounts calls baseTokens baseBytes pending waiting state) (hcall : call ∈ pending) :
    Accounts calls baseTokens baseBytes (pending.erase call) (insert call waiting)
      (countEvent policy calls state (.updatePriority call)) := by
  have hunion : pending.erase call ∪ insert call waiting = pending ∪ waiting := by
    ext other
    by_cases hother : other = call
    · simp [hother, hcall]
    · simp [hother]
  constructor
  · simp only [countEvent, h.resolved, Finset.compl_erase]
  · intro other hother
    rcases Finset.mem_insert.mp hother with rfl | hother
    · exact Finset.notMem_erase _ _
    · exact fun hmem => h.notPending other hother (Finset.mem_of_mem_erase hmem)
  · rw [hunion]
    exact h.admitted
  · rw [hunion]
    exact h.usedTokens
  · rw [hunion]
    exact h.usedBytes

theorem Accounts.ask (h : Accounts calls baseTokens baseBytes pending waiting state)
    (hcall : call ∈ waiting) :
    Accounts calls baseTokens baseBytes pending (waiting.erase call)
      (countEvent policy calls state (.admitOptional call now)) := by
  have hpending := h.notPending call hcall
  have hasked : (pending ∪ waiting.erase call)ᶜ = insert call (pending ∪ waiting)ᶜ := by
    ext other
    by_cases hother : other = call
    · simp [hother, hpending]
    · simp [hother]
  have hnew : call ∉ (pending ∪ waiting)ᶜ := by simp [hcall]
  have hnot : call ∉ state.admitted := fun hmem => hnew (h.admitted call hmem)
  have hself : decide (call ∈ (countEvent policy calls state
      (.admitOptional call now)).admitted) = verdict policy calls state call := by
    cases hverdict : verdict policy calls state call with
    | true => simp [countEvent, hverdict]
    | false => simp [countEvent, hverdict, hnot]
  have hother : ∀ other ∈ (pending ∪ waiting)ᶜ,
      decide (other ∈ (countEvent policy calls state (.admitOptional call now)).admitted) =
        decide (other ∈ state.admitted) := by
    intro other hmem
    have hne : other ≠ call := fun heq => hnew (heq ▸ hmem)
    simp only [countEvent]
    split
    · simp [hne]
    · rfl
  constructor
  · exact h.resolved
  · intro other hmem
    exact h.notPending other (Finset.mem_of_mem_erase hmem)
  · intro other hmem
    rw [hasked]
    simp only [countEvent] at hmem
    split at hmem
    · rcases Finset.mem_insert.mp hmem with rfl | hmem
      · exact Finset.mem_insert_self _ _
      · exact Finset.mem_insert_of_mem (h.admitted other hmem)
    · exact Finset.mem_insert_of_mem (h.admitted other hmem)
  · rw [hasked, Finset.sum_insert hnew, hself,
      Finset.sum_congr rfl fun other hmem => by rw [hother other hmem]]
    simp only [countEvent, h.usedTokens]
    omega
  · rw [hasked, Finset.sum_insert hnew, hself,
      Finset.sum_congr rfl fun other hmem => by rw [hother other hmem]]
    simp only [countEvent, h.usedBytes]
    omega

theorem Accounts.foldl (h : Accounts calls baseTokens baseBytes pending waiting state)
    (hevents : Performs clock pending waiting events pending' waiting') :
    Accounts calls baseTokens baseBytes pending' waiting'
      (events.foldl (countEvent policy calls) state) := by
  induction hevents generalizing state with
  | done => exact h
  | update hcall hrest ih => exact ih (h.update policy hcall)
  | ask hcall hnow hrest ih => exact ih (h.ask hcall)

theorem accounts_initial (policy : BurstBudgetPolicy) (calls : Fin n → CohortCall)
    (window : List RollingEntry) (start : ℚ) :
    Accounts calls (tokensUsed (recentEntries policy start window))
      (bytesUsed (recentEntries policy start window)) Finset.univ ∅
      (initialState policy window start) := by
  constructor
  · simp [initialState]
  · intro call hcall
    simp at hcall
  · intro call hcall
    simp [initialState] at hcall
  · simp [initialState]
  · simp [initialState]

/-- What has been decided about a call is not decided again. -/
theorem mem_admitted_foldl (hpending : call ∉ pending) (hwaiting : call ∉ waiting)
    (hevents : Performs clock pending waiting events pending' waiting') :
    call ∈ (events.foldl (countEvent policy calls) state).admitted ↔ call ∈ state.admitted := by
  induction hevents generalizing state with
  | done => exact Iff.rfl
  | @update pending waiting other events pending' waiting' hother hrest ih =>
    have hne : call ≠ other := fun heq => hpending (heq ▸ hother)
    exact ih (fun hmem => hpending (Finset.mem_of_mem_erase hmem)) (by simp [hne, hwaiting])
  | @ask pending waiting other now events pending' waiting' hother hnow hrest ih =>
    have hne : call ≠ other := fun heq => hwaiting (heq ▸ hother)
    refine (ih hpending fun hmem => hwaiting (Finset.mem_of_mem_erase hmem)).trans ?_
    simp only [countEvent]
    split
    · simp [hne]
    · rfl

theorem mem_admitted_of_asks (policy : BurstBudgetPolicy) {clock : BurstClock policy window}
    (now : ℚ) (h : Accounts calls baseTokens baseBytes pending waiting state)
    (hcall : call ∈ waiting)
    (hevents : Performs clock pending (waiting.erase call) events pending' waiting') :
    call ∈ ((.admitOptional call now :: events).foldl (countEvent policy calls) state).admitted ↔
      verdict policy calls state call = true := by
  rw [List.foldl_cons, mem_admitted_foldl (h.notPending call hcall) (Finset.notMem_erase _ _) hevents]
  have hnot : call ∉ state.admitted := by
    intro hmem
    have hasked := h.admitted call hmem
    simp [hcall] at hasked
  cases hverdict : verdict policy calls state call with
  | true => simp [countEvent, hverdict]
  | false => simp [countEvent, hverdict, hnot]

end Accounts

section Conditions

variable (policy calls) (baseTokens baseBytes : ℕ)

def fitsFirst (call : Fin n) : Bool :=
  fitsCohort policy (min (aloneRank calls call) (finalRank calls call)) baseTokens baseBytes
    (calls call)

def othersTokens (call : Fin n) : ℕ :=
  ∑ other ∈ Finset.univ.erase call,
    chargedTokens (fitsFirst policy calls baseTokens baseBytes other) (calls other).tokens

def othersBytes (call : Fin n) : ℕ :=
  ∑ other ∈ Finset.univ.erase call,
    chargedBytes (fitsFirst policy calls baseTokens baseBytes other) (calls other).bytes

/-- Whether a call fits with the worse of the two ranks, once the window holds the charges of all
the others. -/
def fitsLast (call : Fin n) : Bool :=
  fitsCohort policy (max (aloneRank calls call) (finalRank calls call))
    (baseTokens + othersTokens policy calls baseTokens baseBytes call)
    (baseBytes + othersBytes policy calls baseTokens baseBytes call) (calls call)

variable {policy calls baseTokens baseBytes}
variable {pending waiting pending' waiting' : Finset (Fin n)} {state : CohortState n}
variable {call : Fin n} {now : ℚ} {events : List (CohortEvent n)}

def AdmitsFirst (policy : BurstBudgetPolicy) (calls : Fin n → CohortCall)
    (baseTokens baseBytes : ℕ) (pending waiting : Finset (Fin n)) (state : CohortState n) : Prop :=
  ∀ call ∈ (pending ∪ waiting)ᶜ,
    decide (call ∈ state.admitted) = fitsFirst policy calls baseTokens baseBytes call

variable (h : Accounts calls baseTokens baseBytes pending waiting state)
include h

theorem verdict_eq (hfirst : AdmitsFirst policy calls baseTokens baseBytes pending waiting state)
    (hlast : ∀ call, fitsFirst policy calls baseTokens baseBytes call = true →
      fitsLast policy calls baseTokens baseBytes call = true) (hcall : call ∈ waiting) :
    verdict policy calls state call = fitsFirst policy calls baseTokens baseBytes call := by
  have hresolved : call ∈ state.resolved := by
    rw [h.resolved]
    exact Finset.mem_compl.mpr (h.notPending call hcall)
  obtain ⟨hbetter, hworse⟩ := rankAmong_bounds calls hresolved
  have hsubset : (pending ∪ waiting)ᶜ ⊆ Finset.univ.erase call := by
    intro other hother
    refine Finset.mem_erase.mpr ⟨?_, Finset.mem_univ other⟩
    rintro rfl
    simp [hcall] at hother
  have htokens : state.usedTokens ≤
      baseTokens + othersTokens policy calls baseTokens baseBytes call := by
    rw [h.usedTokens, Finset.sum_congr rfl fun other hother => by rw [hfirst other hother]]
    exact Nat.add_le_add_left (Finset.sum_le_sum_of_subset hsubset) _
  have hbytes : state.usedBytes ≤
      baseBytes + othersBytes policy calls baseTokens baseBytes call := by
    rw [h.usedBytes, Finset.sum_congr rfl fun other hother => by rw [hfirst other hother]]
    exact Nat.add_le_add_left (Finset.sum_le_sum_of_subset hsubset) _
  rw [Bool.eq_iff_iff]
  constructor
  · intro hverdict
    exact fitsCohort_mono hbetter (h.usedTokens ▸ Nat.le_add_right _ _)
      (h.usedBytes ▸ Nat.le_add_right _ _) hverdict
  · intro hfits
    exact fitsCohort_mono hworse htokens hbytes (hlast call hfits)

theorem admitsFirst_foldl
    (hfirst : AdmitsFirst policy calls baseTokens baseBytes pending waiting state)
    (hlast : ∀ call, fitsFirst policy calls baseTokens baseBytes call = true →
      fitsLast policy calls baseTokens baseBytes call = true)
    (hevents : Performs clock pending waiting events pending' waiting') :
    AdmitsFirst policy calls baseTokens baseBytes pending' waiting'
      (events.foldl (countEvent policy calls) state) := by
  induction hevents generalizing state with
  | done => exact hfirst
  | @update pending waiting call events pending' waiting' hcall hrest ih =>
    apply ih (h.update policy hcall)
    intro other hother
    apply hfirst other
    by_cases hne : other = call
    · simp [hne] at hother
    · simpa [hne] using hother
  | @ask pending waiting call now events pending' waiting' hcall hnow hrest ih =>
    apply ih (h.ask hcall)
    intro other hother
    have hverdict := verdict_eq h hfirst hlast hcall
    by_cases hne : other = call
    · subst hne
      have hnot : other ∉ state.admitted := by
        intro hmem
        have hasked := h.admitted other hmem
        simp [hcall] at hasked
      rw [← hverdict]
      cases hcase : verdict policy calls state other with
      | true => simp [countEvent, hcase]
      | false => simp [countEvent, hcase, hnot]
    · have hbefore := hfirst other (by simpa [hne] using hother)
      rw [← hbefore]
      simp only [countEvent]
      split
      · simp [hne]
      · rfl

end Conditions

section Orders

variable {pending waiting pending' waiting' pending'' waiting'' : Finset (Fin n)}
variable {events events' : List (CohortEvent n)} {order : List (Fin n)} {call : Fin n} {now : ℚ}

theorem Performs.append (h : Performs clock pending waiting events pending' waiting')
    (h' : Performs clock pending' waiting' events' pending'' waiting'') :
    Performs clock pending waiting (events ++ events') pending'' waiting'' := by
  induction h with
  | done => exact h'
  | update hcall _ ih => exact .update hcall (ih h')
  | ask hcall hnow _ ih => exact .ask hcall hnow (ih h')

theorem performs_updates (clock : BurstClock policy window) (waiting : Finset (Fin n))
    (hnodup : order.Nodup) (hpending : ∀ call ∈ order, call ∈ pending) :
    Performs clock pending waiting (order.map .updatePriority) (pending \ order.toFinset)
      (waiting ∪ order.toFinset) := by
  induction order generalizing pending waiting with
  | nil => simpa using Performs.done
  | cons call order ih =>
    obtain ⟨hnew, hnodup⟩ := List.nodup_cons.mp hnodup
    have hmem : ∀ other ∈ order, other ∈ pending.erase call := fun other hother =>
      Finset.mem_erase.mpr
        ⟨fun heq => hnew (heq ▸ hother), hpending other (List.mem_cons_of_mem _ hother)⟩
    have hrest := ih (insert call waiting) hnodup hmem
    have hleft : pending.erase call \ order.toFinset = pending \ (call :: order).toFinset := by
      ext other
      simp
      tauto
    have hright : insert call waiting ∪ order.toFinset = waiting ∪ (call :: order).toFinset := by
      ext other
      simp
    rw [hleft, hright] at hrest
    exact .update (hpending call List.mem_cons_self) hrest

theorem performs_asks (pending : Finset (Fin n)) (hnow : clock.readings now) (hnodup : order.Nodup)
    (hwaiting : ∀ call ∈ order, call ∈ waiting) :
    Performs clock pending waiting (order.map (.admitOptional · now)) pending
      (waiting \ order.toFinset) := by
  induction order generalizing waiting with
  | nil => simpa using Performs.done
  | cons call order ih =>
    obtain ⟨hnew, hnodup⟩ := List.nodup_cons.mp hnodup
    have hmem : ∀ other ∈ order, other ∈ waiting.erase call := fun other hother =>
      Finset.mem_erase.mpr
        ⟨fun heq => hnew (heq ▸ hother), hwaiting other (List.mem_cons_of_mem _ hother)⟩
    have hrest := ih hnodup hmem
    have hright : waiting.erase call \ order.toFinset = waiting \ (call :: order).toFinset := by
      ext other
      simp
      tauto
    rw [hright] at hrest
    exact .ask (hwaiting call List.mem_cons_self) hnow hrest

end Orders

section OrderIndependence

variable {call : Fin n} {events : List (CohortEvent n)}

def OrderIndependent (policy : BurstBudgetPolicy) (calls : Fin n → CohortCall) (first : ℕ)
    {window : List RollingEntry} (clock : BurstClock policy window) : Prop :=
  ∀ events events', IsOrder clock events → IsOrder clock events' →
    admittedCalls policy calls first window events = admittedCalls policy calls first window events'

def windowTokens (clock : BurstClock policy window) : ℕ :=
  tokensUsed (recentEntries policy clock.start window)

def windowBytes (clock : BurstClock policy window) : ℕ :=
  bytesUsed (recentEntries policy clock.start window)

def otherCalls (call : Fin n) : List (Fin n) := (List.finRange n).erase call

theorem nodup_otherCalls (call : Fin n) : (otherCalls call).Nodup :=
  (List.nodup_finRange n).erase call

theorem mem_otherCalls {other : Fin n} : other ∈ otherCalls call ↔ other ≠ call := by
  rw [otherCalls, (List.nodup_finRange n).mem_erase_iff]
  simp

theorem toFinset_otherCalls (call : Fin n) :
    (otherCalls call).toFinset = Finset.univ.erase call := by
  ext other
  simp [mem_otherCalls]

/-- All the calls learn their priorities, and then they ask. -/
def updatesFirst (clock : BurstClock policy window) (order : List (Fin n)) :
    List (CohortEvent n) :=
  order.map .updatePriority ++ order.map (.admitOptional · clock.start)

theorem performs_updatesFirst (clock : BurstClock policy window) {order : List (Fin n)}
    {pending : Finset (Fin n)} (hnodup : order.Nodup) (hpending : order.toFinset = pending) :
    Performs clock pending ∅ (updatesFirst clock order) ∅ ∅ := by
  have hmem : ∀ call ∈ order, call ∈ pending := fun call hcall =>
    hpending ▸ List.mem_toFinset.mpr hcall
  have hupdates := performs_updates clock ∅ hnodup hmem
  rw [hpending, Finset.sdiff_self, Finset.empty_union] at hupdates
  have hasks := performs_asks ∅ clock.start_mem hnodup hmem
  rw [hpending, Finset.sdiff_self] at hasks
  exact hupdates.append hasks

/-- What a call is told that learns its priority and asks before all the others. -/
theorem admittedCalls_alone (hmode : policy.mode = .enforce) (calls : Fin n → CohortCall)
    (first : ℕ) (clock : BurstClock policy window)
    (call : Fin n) : ∃ events : List (CohortEvent n), IsOrder clock events ∧
      (call ∈ admittedCalls policy calls first window events ↔
        fitsCohort policy (aloneRank calls call) (windowTokens clock) (windowBytes clock)
          (calls call) = true) := by
  have hrest := performs_updatesFirst clock (nodup_otherCalls call) (toFinset_otherCalls call)
  have hasks : Performs clock (Finset.univ.erase call) (insert call ∅)
      (.admitOptional call clock.start :: updatesFirst clock (otherCalls call)) ∅ ∅ :=
    .ask (Finset.mem_insert_self call ∅) clock.start_mem (by simpa using hrest)
  have horder : IsOrder clock (.updatePriority call :: .admitOptional call clock.start ::
      updatesFirst clock (otherCalls call)) := .update (Finset.mem_univ call) hasks
  refine ⟨_, horder, ?_⟩
  have haccounts := (accounts_initial policy calls window clock.start).update policy
    (Finset.mem_univ call)
  rw [admittedCalls_eq hmode horder, List.foldl_cons,
    mem_admitted_of_asks policy clock.start haccounts (Finset.mem_insert_self call ∅) (by simpa using hrest)]
  rfl

def allResolved (policy : BurstBudgetPolicy) (calls : Fin n → CohortCall)
    (clock : BurstClock policy window) : CohortState n :=
  ((List.finRange n).map .updatePriority).foldl (countEvent policy calls)
    (initialState policy window clock.start)

theorem performs_allUpdates (clock : BurstClock policy window) :
    Performs clock Finset.univ ∅ ((List.finRange n).map .updatePriority) ∅ Finset.univ := by
  have hupdates := performs_updates clock ∅ (List.nodup_finRange n) fun call _ =>
    Finset.mem_univ call
  simpa using hupdates

theorem accounts_allResolved (calls : Fin n → CohortCall) (clock : BurstClock policy window) :
    Accounts calls (windowTokens clock) (windowBytes clock) ∅ Finset.univ
      (allResolved policy calls clock) :=
  (accounts_initial policy calls window clock.start).foldl (performs_allUpdates clock)

theorem allResolved_resolved (clock : BurstClock policy window) :
    (allResolved policy calls clock).resolved = Finset.univ := by
  rw [(accounts_allResolved calls clock).resolved, Finset.compl_empty]

theorem performs_otherAsks (clock : BurstClock policy window) (call : Fin n) :
    Performs clock ∅ Finset.univ ((otherCalls call).map (.admitOptional · clock.start)) ∅
      {call} := by
  have hasks := performs_asks ∅ clock.start_mem (nodup_otherCalls call) fun other _ =>
    Finset.mem_univ other
  have hwaiting : Finset.univ \ (otherCalls call).toFinset = {call} := by
    ext other
    simp [mem_otherCalls]
  rwa [hwaiting] at hasks

/-- What a call is told that asks first of all once every priority is known. -/
theorem admittedCalls_final (hmode : policy.mode = .enforce) (calls : Fin n → CohortCall)
    (first : ℕ) (clock : BurstClock policy window)
    (call : Fin n) : ∃ events : List (CohortEvent n), IsOrder clock events ∧
      (call ∈ admittedCalls policy calls first window events ↔
        fitsCohort policy (finalRank calls call) (windowTokens clock) (windowBytes clock)
          (calls call) = true) := by
  have hrest : Performs clock ∅ (Finset.univ.erase call)
      ((otherCalls call).map (.admitOptional · clock.start)) ∅ ∅ := by
    have hmem : ∀ other ∈ otherCalls call, other ∈ Finset.univ.erase call := fun other hother =>
      Finset.mem_erase.mpr ⟨mem_otherCalls.mp hother, Finset.mem_univ other⟩
    have hasks := performs_asks ∅ clock.start_mem (nodup_otherCalls call) hmem
    rwa [toFinset_otherCalls, Finset.sdiff_self] at hasks
  have horder : IsOrder clock ((List.finRange n).map .updatePriority ++
      .admitOptional call clock.start :: (otherCalls call).map (.admitOptional · clock.start)) :=
    (performs_allUpdates clock).append (.ask (Finset.mem_univ call) clock.start_mem hrest)
  refine ⟨_, horder, ?_⟩
  have haccounts := accounts_allResolved calls clock
  have hasks := mem_admitted_of_asks policy clock.start haccounts (Finset.mem_univ call) hrest
  have htokens : (allResolved policy calls clock).usedTokens = windowTokens clock := by
    rw [haccounts.usedTokens]
    simp
  have hbytes : (allResolved policy calls clock).usedBytes = windowBytes clock := by
    rw [haccounts.usedBytes]
    simp
  rw [verdict, allResolved_resolved, htokens, hbytes] at hasks
  rw [admittedCalls_eq hmode horder, List.foldl_append]
  exact hasks

theorem admittedCalls_last (hmode : policy.mode = .enforce) (calls : Fin n → CohortCall)
    (first : ℕ) (clock : BurstClock policy window)
    (call : Fin n) : ∃ events : List (CohortEvent n), IsOrder clock events ∧
      (call ∈ admittedCalls policy calls first window events ↔
        fitsCohort policy (finalRank calls call)
          (windowTokens clock + ∑ other ∈ Finset.univ.erase call,
            chargedTokens (decide (other ∈ admittedCalls policy calls first window events))
              (calls other).tokens)
          (windowBytes clock + ∑ other ∈ Finset.univ.erase call,
            chargedBytes (decide (other ∈ admittedCalls policy calls first window events))
              (calls other).bytes) (calls call) = true) := by
  have hself : call ∈ ({call} : Finset (Fin n)) := Finset.mem_singleton_self call
  have hdone : Performs clock ∅ (({call} : Finset (Fin n)).erase call) [] ∅ ∅ := by
    simpa using Performs.done
  have hlast : Performs clock ∅ {call} [.admitOptional call clock.start] ∅ ∅ :=
    .ask hself clock.start_mem hdone
  have horder : IsOrder clock ((List.finRange n).map .updatePriority ++
      ((otherCalls call).map (.admitOptional · clock.start) ++
        [.admitOptional call clock.start])) :=
    (performs_allUpdates clock).append ((performs_otherAsks clock call).append hlast)
  refine ⟨_, horder, ?_⟩
  have haccounts :=
    (accounts_allResolved calls clock).foldl (performs_otherAsks clock call)
  have hasks := mem_admitted_of_asks policy clock.start haccounts hself hdone
  have hothers : ∀ other ∈ Finset.univ.erase call,
      (other ∈ ([.admitOptional call clock.start].foldl (countEvent policy calls)
        (((otherCalls call).map (.admitOptional · clock.start)).foldl (countEvent policy calls)
          (allResolved policy calls clock))).admitted ↔ other ∈
        (((otherCalls call).map (.admitOptional · clock.start)).foldl (countEvent policy calls)
          (allResolved policy calls clock)).admitted) := by
    intro other hother
    exact mem_admitted_foldl (Finset.notMem_empty other)
      (by simpa using (Finset.mem_erase.mp hother).1) hlast
  rw [admittedCalls_eq hmode horder, List.foldl_append, List.foldl_append]
  have hcompl : ((∅ : Finset (Fin n)) ∪ {call})ᶜ = Finset.univ.erase call := by
    ext other
    simp
  have htokens := haccounts.usedTokens
  have hbytes := haccounts.usedBytes
  rw [hcompl] at htokens hbytes
  rw [Finset.sum_congr rfl fun other hother => by rw [← decide_eq_decide.mpr (hothers other hother)]]
    at htokens hbytes
  rw [verdict, haccounts.resolved, htokens, hbytes, Finset.compl_empty] at hasks
  exact hasks

theorem fitsCohort_and {rank tokens bytes : ℕ} {request : CohortCall} :
    fitsCohort policy rank tokens bytes request = true ↔
      fitsShare policy rank request.tokens = true ∧
        fitsRollingTokens policy tokens request.tokens = true ∧
        fitsRollingBytes policy bytes request.bytes = true := by
  simp only [fitsCohort, Bool.and_eq_true, and_assoc]

theorem mem_admittedCalls_of_independent (hmode : policy.mode = .enforce)
    (h : OrderIndependent policy calls first clock) (hevents : IsOrder clock events)
    (call : Fin n) :
    decide (call ∈ admittedCalls policy calls first window events) =
      fitsFirst policy calls (windowTokens clock) (windowBytes clock) call := by
  obtain ⟨alone, halone, hiffAlone⟩ := admittedCalls_alone hmode calls first
    clock call
  obtain ⟨final, hfinal, hiffFinal⟩ := admittedCalls_final hmode calls first
    clock call
  rw [h alone events halone hevents] at hiffAlone
  rw [h final events hfinal hevents] at hiffFinal
  rw [Bool.eq_iff_iff, decide_eq_true_eq, fitsFirst]
  rcases min_choice (aloneRank calls call) (finalRank calls call) with hmin | hmin
  · rw [hmin, hiffAlone]
  · rw [hmin, hiffFinal]

/-- The calls of a cohort are admitted independently of their order exactly when every call that
fits with its better rank and the window before the cohort also fits with its worse rank and the
window after the others. -/
theorem orderIndependent_iff (policy : BurstBudgetPolicy) (hmode : policy.mode = .enforce)
    (calls : Fin n → CohortCall) (first : ℕ) {window : List RollingEntry}
    (clock : BurstClock policy window) :
    OrderIndependent policy calls first clock ↔
      ∀ call, fitsFirst policy calls (windowTokens clock) (windowBytes clock) call = true →
        fitsLast policy calls (windowTokens clock) (windowBytes clock) call = true := by
  constructor
  · intro h call hfirst
    obtain ⟨alone, halone, hiffAlone⟩ := admittedCalls_alone hmode calls first
      clock call
    obtain ⟨last, hlast, hiffLast⟩ := admittedCalls_last hmode calls first
      clock call
    have hmem : call ∈ admittedCalls policy calls first window last := by
      have hdecide := mem_admittedCalls_of_independent hmode h hlast call
      rw [hfirst] at hdecide
      exact of_decide_eq_true hdecide
    have hfitsAlone := hiffAlone.mp (by rwa [h alone last halone hlast])
    have hfitsLast := hiffLast.mp hmem
    have hothers : ∀ other ∈ Finset.univ.erase call,
        decide (other ∈ admittedCalls policy calls first window last) =
          fitsFirst policy calls (windowTokens clock) (windowBytes clock) other :=
      fun other _ => mem_admittedCalls_of_independent hmode h hlast other
    have htokens : ∑ other ∈ Finset.univ.erase call,
        chargedTokens (decide (other ∈ admittedCalls policy calls first window last))
          (calls other).tokens =
            othersTokens policy calls (windowTokens clock) (windowBytes clock) call :=
      Finset.sum_congr rfl fun other hother => by rw [hothers other hother]
    have hbytes : ∑ other ∈ Finset.univ.erase call,
        chargedBytes (decide (other ∈ admittedCalls policy calls first window last))
          (calls other).bytes =
            othersBytes policy calls (windowTokens clock) (windowBytes clock) call :=
      Finset.sum_congr rfl fun other hother => by rw [hothers other hother]
    rw [htokens, hbytes] at hfitsLast
    rw [fitsCohort_and] at hfitsAlone hfitsLast
    rw [fitsLast, fitsCohort_and]
    refine ⟨?_, hfitsLast.2⟩
    rcases max_choice (aloneRank calls call) (finalRank calls call) with hmax | hmax
    · rw [hmax]
      exact hfitsAlone.1
    · rw [hmax]
      exact hfitsLast.1
  · intro hall events events' hevents hevents'
    have hend : ∀ {events : List (CohortEvent n)}, IsOrder clock events →
        AdmitsFirst policy calls (windowTokens clock) (windowBytes clock) ∅ ∅
          (events.foldl (countEvent policy calls) (initialState policy window clock.start)) := by
      intro events hevents
      apply admitsFirst_foldl (accounts_initial policy calls window clock.start) _ hall hevents
      intro call hcall
      simp at hcall
    ext call
    have hcall : call ∈ ((∅ : Finset (Fin n)) ∪ ∅)ᶜ := by simp
    rw [admittedCalls_eq hmode hevents, admittedCalls_eq hmode hevents',
      ← decide_eq_decide, hend hevents call hcall, hend hevents' call hcall]

def stoppedClock (policy : BurstBudgetPolicy) (now : ℚ) : BurstClock policy [] where
  readings reading := reading = now
  start := now
  start_mem := rfl
  steady := by
    intro _ _ _ _ entry hentry
    cases hentry
  within := by
    rintro _ _ rfl rfl
    exact sub_le_self _ (Nat.cast_nonneg _)

def twoFailures (tokens : ℕ) (_ : Fin 2) : CohortCall := ⟨tokens, 4 * tokens, true⟩

theorem orderIndependent_iff_small :
    OrderIndependent enforcedPolicy (twoFailures 1000) 1 (stoppedClock enforcedPolicy 0) ↔
      ∀ call, fitsFirst enforcedPolicy (twoFailures 1000)
          (windowTokens (stoppedClock enforcedPolicy 0))
          (windowBytes (stoppedClock enforcedPolicy 0)) call = true →
        fitsLast enforcedPolicy (twoFailures 1000) (windowTokens (stoppedClock enforcedPolicy 0))
          (windowBytes (stoppedClock enforcedPolicy 0)) call = true :=
  orderIndependent_iff enforcedPolicy rfl (twoFailures 1000) 1 (stoppedClock enforcedPolicy 0)

/-- In the order of their registration only the first of two large failures is admitted, and in
the other order both are. -/
theorem two_failures_depend_on_order :
    ¬ ∀ (policy : BurstBudgetPolicy) (n : ℕ) (calls : Fin n → CohortCall) (first : ℕ)
        (window : List RollingEntry) (clock : BurstClock policy window),
      policy.mode = .enforce → OrderIndependent policy calls first clock := by
  intro h
  have hpair : ∀ call other : Fin 2, call ≠ other →
      IsOrder (stoppedClock enforcedPolicy 0) [.updatePriority call, .admitOptional call 0,
        .updatePriority other, .admitOptional other 0] := by
    intro call other hne
    refine .update (Finset.mem_univ call) (.ask (Finset.mem_insert_self call _) rfl
      (.update ?_ (.ask (Finset.mem_insert_self other _) rfl ?_)))
    · exact Finset.mem_erase.mpr ⟨hne.symm, Finset.mem_univ other⟩
    · have hpending : (Finset.univ.erase call).erase other = ∅ := by
        revert hne
        revert call other
        decide
      simpa [hpending] using Performs.done
  have hsame := h enforcedPolicy 2 (twoFailures 4000) 1 [] (stoppedClock enforcedPolicy 0) rfl _ _
    (hpair 0 1 (by decide)) (hpair 1 0 (by decide))
  revert hsame
  decide +kernel

end OrderIndependence

end Mottainai.ContextRuntime

import Mathlib.Tactic.Linarith
import Mathlib.Data.Fintype.Basic
import Mathlib.Algebra.BigOperators.Group.Finset.Basic
import Mottainai.OrderedMaps
import Mottainai.ResponseBudget
import Mottainai.OperationSequences

/-!
# The burst budget

Calls that a connection has open at the same time share a budget of projected tokens. A call is
registered, its priority is known once its result is, and then it asks whether it may return more
than its envelope. A cohort is a generation whose calls are all registered before the first of them
is resolved, in any order. The controller is compared with an abstract one, which knows the set of
the resolved calls and what the window holds, and ranks a call by counting.
-/

namespace Mottainai.ContextRuntime

open JavaScriptValues JsonValues OrderedMaps

section Policies

inductive BurstBudgetMode where
  | off | observe | warn | enforce
  deriving DecidableEq

structure BurstBudgetPolicy where
  mode : BurstBudgetMode
  maxConcurrentProjectedTokens : ℕ
  rollingWindowMs : ℕ
  rollingProjectedTokens : ℕ
  rollingProjectedBytes : ℕ

structure BurstBudgetPolicyConfig where
  mode : Option String
  maxConcurrentProjectedTokens : Option ℤ
  rollingWindowMs : Option ℤ
  rollingProjectedTokens : Option ℤ
  rollingProjectedBytes : Option ℤ

/-- `DEFAULT_BURST_BUDGET_POLICY`. -/
def defaultBurstBudgetPolicy : BurstBudgetPolicy :=
  { mode := .off, maxConcurrentProjectedTokens := 6000, rollingWindowMs := 1500
    rollingProjectedTokens := 8000, rollingProjectedBytes := 32000 }

/-- `MIN_BURST_BUDGET`, of which the mode is not used. -/
def minBurstBudget : BurstBudgetPolicy :=
  { mode := .off, maxConcurrentProjectedTokens := 256, rollingWindowMs := 50
    rollingProjectedTokens := 512, rollingProjectedBytes := 2048 }

def burstBudgetMode? (mode : String) : Option BurstBudgetMode :=
  if mode = "off" then some .off
  else if mode = "observe" then some .observe
  else if mode = "warn" then some .warn
  else if mode = "enforce" then some .enforce
  else none

/-- `positiveInteger` of the burst budget. -/
def positiveBurstInteger (value : Option ℤ) (fallback : ℕ) (field : String) (minimum : ℕ) :
    Except String ℕ := do
  let resolved := value.getD fallback
  require (isSafeInteger resolved ∧ minimum ≤ resolved) ("invalid burst budget " ++ field)
  return resolved.toNat

def resolveBurstBudgetPolicy (config : BurstBudgetPolicyConfig) :
    Except String BurstBudgetPolicy := do
  let mode ← match config.mode with
    | none => .ok defaultBurstBudgetPolicy.mode
    | some mode => match burstBudgetMode? mode with
      | some mode => .ok mode
      | none => .error ("invalid burst budget mode: " ++ mode)
  let maxConcurrentProjectedTokens ← positiveBurstInteger config.maxConcurrentProjectedTokens
    defaultBurstBudgetPolicy.maxConcurrentProjectedTokens "maxConcurrentProjectedTokens"
    minBurstBudget.maxConcurrentProjectedTokens
  let rollingWindowMs ← positiveBurstInteger config.rollingWindowMs
    defaultBurstBudgetPolicy.rollingWindowMs "rollingWindowMs" minBurstBudget.rollingWindowMs
  let rollingProjectedTokens ← positiveBurstInteger config.rollingProjectedTokens
    defaultBurstBudgetPolicy.rollingProjectedTokens "rollingProjectedTokens"
    minBurstBudget.rollingProjectedTokens
  let rollingProjectedBytes ← positiveBurstInteger config.rollingProjectedBytes
    defaultBurstBudgetPolicy.rollingProjectedBytes "rollingProjectedBytes"
    minBurstBudget.rollingProjectedBytes
  return { mode := mode, maxConcurrentProjectedTokens := maxConcurrentProjectedTokens
           rollingWindowMs := rollingWindowMs, rollingProjectedTokens := rollingProjectedTokens
           rollingProjectedBytes := rollingProjectedBytes }

end Policies

section Controllers

structure InFlightEntry where
  callId : ℕ
  isBlocking : Bool
  resolved : Bool
  sequence : ℕ

structure RollingEntry where
  atMs : ℚ
  tokens : ℕ
  bytes : ℕ

/-- `BurstBudgetController`, without its policy and its clock. -/
structure BurstBudgetController where
  generation : OrderedMap ℕ InFlightEntry
  openCallIds : Finset ℕ
  rollingWindow : List RollingEntry
  nextCallId : ℕ
  disposed : Bool

inductive AdmissionReason where
  | concurrentBudget | rollingTokens | rollingBytes
  deriving DecidableEq

structure BurstAdmission where
  admitted : Bool
  reason : Option AdmissionReason
  pressure : ℚ

def newController : BurstBudgetController :=
  { generation := .empty, openCallIds := ∅, rollingWindow := [], nextCallId := 1
    disposed := false }

/-- Calls that may still turn out to be blocking come after those that are, and before those
that are not. -/
def priorityTier (entry : InFlightEntry) : ℕ :=
  if entry.resolved then if entry.isBlocking then 0 else 2 else 1

def outranks (left right : InFlightEntry) : Bool :=
  decide (priorityTier left < priorityTier right ∨
    (priorityTier left = priorityTier right ∧ left.sequence ≤ right.sequence))

def reserveEnvelope (controller : BurstBudgetController) :
    Except String ℕ × BurstBudgetController :=
  if controller.disposed then (.error "burst budget controller disposed", controller)
  else
    let callId := controller.nextCallId
    (.ok callId,
      { controller with
        generation := controller.generation.set callId ⟨callId, false, false, callId⟩
        openCallIds := insert callId controller.openCallIds
        nextCallId := callId + 1 })

def updatePriority (controller : BurstBudgetController) (callId : ℕ) (isBlocking : Bool) :
    BurstBudgetController :=
  match controller.generation.get callId with
  | none => controller
  | some entry =>
      { controller with
        generation := controller.generation.set callId
          { entry with isBlocking := isBlocking, resolved := true } }

/-- What `decayRollingWindow` keeps. -/
def isRecent (policy : BurstBudgetPolicy) (now : ℚ) (entry : RollingEntry) : Bool :=
  decide (now - policy.rollingWindowMs ≤ entry.atMs)

def decayRollingWindow (policy : BurstBudgetPolicy) (controller : BurstBudgetController)
    (now : ℚ) : BurstBudgetController :=
  { controller with
    rollingWindow := controller.rollingWindow.filter fun entry => isRecent policy now entry }

def rankIndex (controller : BurstBudgetController) (callId : ℕ) : ℕ :=
  (controller.generation.values.insertionSort fun left right => outranks left right).findIdx
    fun candidate => decide (candidate.callId = callId)

def tokensUsed (window : List RollingEntry) : ℕ := (window.map (·.tokens)).sum

def bytesUsed (window : List RollingEntry) : ℕ := (window.map (·.bytes)).sum

/-- Whether a request fits what is left once the calls of higher rank are each given as much. -/
def fitsShare (policy : BurstBudgetPolicy) (rank projectedTokens : ℕ) : Bool :=
  decide ((projectedTokens : ℤ) ≤
    max 0 ((policy.maxConcurrentProjectedTokens : ℤ) - rank * projectedTokens))

def fitsRollingTokens (policy : BurstBudgetPolicy) (used projectedTokens : ℕ) : Bool :=
  decide ((projectedTokens : ℤ) ≤ max 0 ((policy.rollingProjectedTokens : ℤ) - used))

def fitsRollingBytes (policy : BurstBudgetPolicy) (used projectedBytes : ℕ) : Bool :=
  decide ((projectedBytes : ℤ) ≤ max 0 ((policy.rollingProjectedBytes : ℤ) - used))

/-- `amount / budget`, where nothing is left of no budget. -/
def pressureOf (amount : ℤ) (budget : ℕ) : ℚ := if 0 < budget then amount / budget else 1

/-- Why a request is not admitted, if it is not. -/
def refusalReason (policy : BurstBudgetPolicy) (rank usedTokens usedBytes projectedTokens
    projectedBytes : ℕ) : Option AdmissionReason :=
  if !fitsShare policy rank projectedTokens then some .concurrentBudget
  else if !fitsRollingTokens policy usedTokens projectedTokens then some .rollingTokens
  else if !fitsRollingBytes policy usedBytes projectedBytes then some .rollingBytes
  else none

def chargedTokens (admitted : Bool) (projectedTokens : ℕ) : ℕ :=
  if admitted then projectedTokens else min projectedTokens minResponseBudget.hardTokens.toNat

def chargedBytes (admitted : Bool) (projectedBytes : ℕ) : ℕ :=
  if admitted then projectedBytes else min projectedBytes minResponseBudget.hardBytes.toNat

def decideAdmission (policy : BurstBudgetPolicy) (controller : BurstBudgetController)
    (callId projectedTokens projectedBytes : ℕ) : BurstAdmission :=
  let rank := rankIndex controller callId
  let usedTokens := tokensUsed controller.rollingWindow
  let usedBytes := bytesUsed controller.rollingWindow
  let reason := refusalReason policy rank usedTokens usedBytes projectedTokens projectedBytes
  { admitted := if policy.mode = .enforce then reason.isNone else true
    reason := reason
    pressure := max (pressureOf (rank * projectedTokens + projectedTokens)
        policy.maxConcurrentProjectedTokens)
      (max (pressureOf (usedTokens + projectedTokens) policy.rollingProjectedTokens)
        (pressureOf (usedBytes + projectedBytes) policy.rollingProjectedBytes)) }

def charge (controller : BurstBudgetController) (now : ℚ) (admitted : Bool)
    (projectedTokens projectedBytes : ℕ) : BurstBudgetController :=
  { controller with
    rollingWindow := controller.rollingWindow ++
      [⟨now, chargedTokens admitted projectedTokens, chargedBytes admitted projectedBytes⟩] }

/-- `admitOptional`, with the controller that it leaves behind. -/
def admitOptional (policy : BurstBudgetPolicy) (controller : BurstBudgetController) (now : ℚ)
    (callId projectedTokens projectedBytes : ℕ) :
    Except String BurstAdmission × BurstBudgetController :=
  if policy.mode = .off then (.ok ⟨true, none, 0⟩, controller)
  else
    let controller := decayRollingWindow policy controller now
    match controller.generation.get callId with
    | none => (.error "unknown burst reservation", controller)
    | some _ =>
        let admission := decideAdmission policy controller callId projectedTokens projectedBytes
        (.ok admission, charge controller now admission.admitted projectedTokens projectedBytes)

def release (controller : BurstBudgetController) (callId : ℕ) : BurstBudgetController :=
  let openCallIds := controller.openCallIds.erase callId
  { controller with
    openCallIds := openCallIds
    generation := if openCallIds = ∅ then .empty else controller.generation }

def disposeController (controller : BurstBudgetController) : BurstBudgetController :=
  { controller with
    disposed := true, generation := .empty, openCallIds := ∅, rollingWindow := [] }

end Controllers

section Reductions

variable (locale : Locale)

def isBlockingProjection (result : ProjectedResult) : Bool :=
  decide (result.status = "failed") || decide (result.status = "error") ||
    result.diagnostics.any fun diagnostic => match record? diagnostic with
      | none => false
      | some record =>
          decide (lowerCase locale record "severity" ∈ ["error", "fatal", "blocking"])

/-- `BLOCKING_RESPONSE_BUDGET`. -/
def blockingResponseBudget : ProjectionBudget :=
  { softTokens := 256, hardTokens := 512, hardBytes := 2048 }

def applyBurstReduction (result : ProjectedResult) : ProjectedResult :=
  let budget := if isBlockingProjection locale result then blockingResponseBudget
    else minResponseBudget
  applyResponseBudget locale
    (addOmission result ⟨"optional_result_data", "burst_budget", !result.resultId.isEmpty⟩) budget

end Reductions

open OperationSequences

section Runs

structure BurstRun where
  controller : BurstBudgetController
  admittedTokens : ℕ

inductive BurstOperation where
  | reserveEnvelope
  | updatePriority (callId : ℕ) (isBlocking : Bool)
  | admitOptional (now : ℚ) (callId projectedTokens projectedBytes : ℕ)
  | release (callId : ℕ)
  | dispose

def tokensAdmitted (outcome : Except String BurstAdmission) (projectedTokens : ℕ) : ℕ :=
  match outcome with
  | .ok admission => if admission.admitted then projectedTokens else 0
  | .error _ => 0

def applyBurst (policy : BurstBudgetPolicy) (run : BurstRun) : BurstOperation → BurstRun
  | .reserveEnvelope => { run with controller := (reserveEnvelope run.controller).2 }
  | .updatePriority callId isBlocking =>
      { run with controller := updatePriority run.controller callId isBlocking }
  | .admitOptional now callId projectedTokens projectedBytes =>
      let (outcome, controller) :=
        admitOptional policy run.controller now callId projectedTokens projectedBytes
      ⟨controller, run.admittedTokens + tokensAdmitted outcome projectedTokens⟩
  | .release callId =>
      let controller := release run.controller callId
      ⟨controller, if controller.openCallIds = ∅ then 0 else run.admittedTokens⟩
  | .dispose => ⟨disposeController run.controller, 0⟩

def newRun : BurstRun := ⟨newController, 0⟩

variable (policy : BurstBudgetPolicy)

def WithinBudget (run : BurstRun) : Prop :=
  run.admittedTokens ≤ policy.maxConcurrentProjectedTokens

/-- The window that is left when a call asks. -/
def recentWindow (run : BurstRun) (now : ℚ) : List RollingEntry :=
  run.controller.rollingWindow.filter fun entry => isRecent policy now entry

def FitsRemainder (run : BurstRun) : BurstOperation → Prop
  | .admitOptional now callId projectedTokens projectedBytes =>
      callId ∈ run.controller.generation.keys →
      fitsShare policy (rankIndex run.controller callId) projectedTokens = true →
      fitsRollingTokens policy (tokensUsed (recentWindow policy run now)) projectedTokens = true →
      fitsRollingBytes policy (bytesUsed (recentWindow policy run now)) projectedBytes = true →
      run.admittedTokens + projectedTokens ≤ policy.maxConcurrentProjectedTokens
  | _ => True

end Runs

section Steps

variable {policy : BurstBudgetPolicy} {run : BurstRun}

theorem refusalReason_isNone {rank usedTokens usedBytes projectedTokens projectedBytes : ℕ} :
    (refusalReason policy rank usedTokens usedBytes projectedTokens projectedBytes).isNone = true ↔
      fitsShare policy rank projectedTokens = true ∧
        fitsRollingTokens policy usedTokens projectedTokens = true ∧
        fitsRollingBytes policy usedBytes projectedBytes = true := by
  unfold refusalReason
  cases fitsShare policy rank projectedTokens with
  | false => simp
  | true =>
    cases fitsRollingTokens policy usedTokens projectedTokens with
    | false => simp
    | true =>
      cases fitsRollingBytes policy usedBytes projectedBytes with
      | false => simp
      | true => simp

variable {controller : BurstBudgetController}

variable (hmode : policy.mode = .enforce)
include hmode

theorem admitOptional_eq {callId : ℕ} (hmem : callId ∈ controller.generation.keys) (now : ℚ)
    (projectedTokens projectedBytes : ℕ) :
    admitOptional policy controller now callId projectedTokens projectedBytes =
      let admission := decideAdmission policy (decayRollingWindow policy controller now) callId
        projectedTokens projectedBytes
      (.ok admission, charge (decayRollingWindow policy controller now) now admission.admitted
        projectedTokens projectedBytes) := by
  have hoff : policy.mode ≠ .off := by
    rw [hmode]
    decide
  cases hget : (decayRollingWindow policy controller now).generation.get callId with
  | none => exact absurd hmem (OrderedMap.get_eq_none_iff.mp hget)
  | some entry => simp only [admitOptional, hoff, if_false, hget]

theorem decideAdmission_admitted (controller : BurstBudgetController)
    (callId projectedTokens projectedBytes : ℕ) :
    (decideAdmission policy controller callId projectedTokens projectedBytes).admitted = true ↔
      fitsShare policy (rankIndex controller callId) projectedTokens = true ∧
        fitsRollingTokens policy (tokensUsed controller.rollingWindow) projectedTokens = true ∧
        fitsRollingBytes policy (bytesUsed controller.rollingWindow) projectedBytes = true := by
  simp only [decideAdmission, hmode, if_true]
  exact refusalReason_isNone

theorem admitOptional_unknown {callId : ℕ} (hmem : callId ∉ controller.generation.keys) (now : ℚ)
    (projectedTokens projectedBytes : ℕ) :
    admitOptional policy controller now callId projectedTokens projectedBytes =
      (.error "unknown burst reservation", decayRollingWindow policy controller now) := by
  have hoff : policy.mode ≠ .off := by
    rw [hmode]
    decide
  have hget : (decayRollingWindow policy controller now).generation.get callId = none :=
    OrderedMap.get_eq_none_iff.mpr hmem
  simp only [admitOptional, hoff, if_false, hget]

theorem withinBudget_applyBurst_iff (hwithin : WithinBudget policy run)
    (operation : BurstOperation) :
    WithinBudget policy (applyBurst policy run operation) ↔ FitsRemainder policy run operation := by
  cases operation with
  | reserveEnvelope => exact ⟨fun _ => trivial, fun _ => hwithin⟩
  | updatePriority callId isBlocking => exact ⟨fun _ => trivial, fun _ => hwithin⟩
  | release callId =>
    refine ⟨fun _ => trivial, fun _ => ?_⟩
    simp only [applyBurst, WithinBudget]
    split
    · exact Nat.zero_le _
    · exact hwithin
  | dispose => exact ⟨fun _ => trivial, fun _ => Nat.zero_le _⟩
  | admitOptional now callId projectedTokens projectedBytes =>
    simp only [applyBurst, WithinBudget, FitsRemainder]
    by_cases hmem : callId ∈ run.controller.generation.keys
    · rw [admitOptional_eq hmode hmem]
      have hiff := decideAdmission_admitted hmode (decayRollingWindow policy run.controller now)
        callId projectedTokens projectedBytes
      simp only [tokensAdmitted]
      constructor
      · intro hnext _ hshare htokens hbytes
        rwa [if_pos (hiff.mpr ⟨hshare, htokens, hbytes⟩)] at hnext
      · intro hfits
        split
        · rename_i hcase
          obtain ⟨hshare, htokens, hbytes⟩ := hiff.mp hcase
          exact hfits hmem hshare htokens hbytes
        · exact hwithin
    · rw [admitOptional_unknown hmode hmem]
      exact ⟨fun _ hknown => absurd hknown hmem, fun _ => hwithin⟩

end Steps

section Interleavings

def enforcedPolicy : BurstBudgetPolicy := { defaultBurstBudgetPolicy with mode := .enforce }

end Interleavings

section Ranks

/-- The position of an element in a sorted list is the number of the elements before it. -/
theorem findIdx_insertionSort {α : Type} {r : α → α → Prop} [DecidableRel r] [Std.Total r]
    [IsTrans α r] {l : List α} {a : α} {p : α → Bool} (hmem : a ∈ l) (hnodup : l.Nodup)
    (hp : ∀ b ∈ l, p b = true ↔ b = a) (hanti : ∀ b ∈ l, r a b → r b a → b = a) :
    (l.insertionSort r).findIdx p = l.countP fun b => decide (r b a) && !p b := by
  have hperm := l.perm_insertionSort r
  have hsorted := l.pairwise_insertionSort r
  rw [← hperm.countP_eq]
  have hmem' : ∀ b, b ∈ l.insertionSort r → b ∈ l := fun b hb => hperm.mem_iff.mp hb
  have hnodup' : (l.insertionSort r).Nodup := hperm.nodup_iff.mpr hnodup
  obtain ⟨before, after, hsplit⟩ := List.append_of_mem (hperm.mem_iff.mpr hmem)
  rw [hsplit] at hsorted hmem' hnodup' ⊢
  have hbefore : ∀ b ∈ before, (decide (r b a) && !p b) = true := by
    intro b hb
    have hrel : r b a := (List.pairwise_append.mp hsorted).2.2 b hb a List.mem_cons_self
    have hne : b ≠ a := by
      rintro rfl
      exact (List.nodup_append.mp hnodup').2.2 b hb b List.mem_cons_self rfl
    have hnot : p b = false := by
      have hiff := hp b (hmem' b (List.mem_append_left _ hb))
      simpa [hne] using hiff
    simp [hrel, hnot]
  have hafter : ∀ b ∈ a :: after, (decide (r b a) && !p b) ≠ true := by
    intro b hb
    have hb' := hmem' b (List.mem_append_right _ hb)
    rcases List.mem_cons.mp hb with rfl | hb
    · simp [(hp b hb').mpr rfl]
    · intro hrel
      simp only [Bool.and_eq_true, decide_eq_true_eq, Bool.not_eq_true'] at hrel
      have hle : r a b :=
        (List.pairwise_cons.mp (List.pairwise_append.mp hsorted).2.1).1 b hb
      have heq := hanti b hb' hle hrel.1
      rw [(hp b hb').mpr heq] at hrel
      exact absurd hrel.2 (by decide)
  have hnone : ∀ b ∈ before, p b = false := by
    intro b hb
    have hboth := hbefore b hb
    simp only [Bool.and_eq_true, Bool.not_eq_true'] at hboth
    exact hboth.2
  have hself : p a = true := (hp a hmem).mpr rfl
  rw [List.findIdx_append, List.findIdx_eq_length.mpr hnone, if_neg (lt_irrefl _),
    List.findIdx_cons, hself, List.countP_append, List.countP_eq_length.mpr hbefore,
    List.countP_eq_zero.mpr hafter]
  simp

end Ranks

section Cohorts

structure CohortCall where
  tokens : ℕ
  bytes : ℕ
  isBlocking : Bool

inductive CohortEvent (n : ℕ) where
  | updatePriority (call : Fin n)
  | admitOptional (call : Fin n) (now : ℚ)

/-- The clock during a burst: its readings keep the same entries of the window, and each other's
charges. -/
structure BurstClock (policy : BurstBudgetPolicy) (window : List RollingEntry) where
  readings : ℚ → Prop
  start : ℚ
  start_mem : readings start
  steady : ∀ now now', readings now → readings now' → ∀ entry ∈ window,
    isRecent policy now entry = isRecent policy now' entry
  within : ∀ now now', readings now → readings now' → now - policy.rollingWindowMs ≤ now'

variable {n : ℕ} {policy : BurstBudgetPolicy} {window : List RollingEntry}

/-- The events lead from the calls that are `pending` or `waiting` to those that are so after
them. A call waits when it knows its priority and has not asked yet. -/
inductive Performs (clock : BurstClock policy window) : Finset (Fin n) → Finset (Fin n) →
    List (CohortEvent n) → Finset (Fin n) → Finset (Fin n) → Prop
  | done {pending waiting} : Performs clock pending waiting [] pending waiting
  | update {pending waiting call events pending' waiting'} (hcall : call ∈ pending)
      (hrest : Performs clock (pending.erase call) (insert call waiting) events pending' waiting') :
      Performs clock pending waiting (.updatePriority call :: events) pending' waiting'
  | ask {pending waiting call now events pending' waiting'} (hcall : call ∈ waiting)
      (hnow : clock.readings now)
      (hrest : Performs clock pending (waiting.erase call) events pending' waiting') :
      Performs clock pending waiting (.admitOptional call now :: events) pending' waiting'

/-- Each call performs `updatePriority` and then `admitOptional`. -/
def IsOrder (clock : BurstClock policy window) (events : List (CohortEvent n)) : Prop :=
  Performs clock Finset.univ ∅ events ∅ ∅

def idleController (first : ℕ) (window : List RollingEntry) : BurstBudgetController :=
  { generation := .empty, openCallIds := ∅, rollingWindow := window, nextCallId := first
    disposed := false }

def reserveCalls (controller : BurstBudgetController) : ℕ → BurstBudgetController
  | 0 => controller
  | n + 1 => (reserveEnvelope (reserveCalls controller n)).2

structure CohortRun (n : ℕ) where
  controller : BurstBudgetController
  admitted : Finset (Fin n)

variable (policy) (calls : Fin n → CohortCall) (first : ℕ)

def isAdmitted (outcome : Except String BurstAdmission) : Bool :=
  match outcome with
  | .ok admission => admission.admitted
  | .error _ => false

def performEvent (run : CohortRun n) : CohortEvent n → CohortRun n
  | .updatePriority call =>
      { run with controller :=
          updatePriority run.controller (first + call) (calls call).isBlocking }
  | .admitOptional call now =>
      let (outcome, controller) := admitOptional policy run.controller now (first + call)
        (calls call).tokens (calls call).bytes
      ⟨controller, if isAdmitted outcome then insert call run.admitted else run.admitted⟩

def admittedCalls (window : List RollingEntry) (events : List (CohortEvent n)) : Finset (Fin n) :=
  (events.foldl (performEvent policy calls first)
    ⟨reserveCalls (idleController first window) n, ∅⟩).admitted

end Cohorts

section Counting

variable {n : ℕ} (policy : BurstBudgetPolicy) (calls : Fin n → CohortCall)

def cohortTier (resolved : Finset (Fin n)) (call : Fin n) : ℕ :=
  if call ∈ resolved then if (calls call).isBlocking then 0 else 2 else 1

/-- Whether a call has a higher rank than another one. -/
def precedesIn (resolved : Finset (Fin n)) (left right : Fin n) : Bool :=
  decide (cohortTier calls resolved left < cohortTier calls resolved right ∨
    (cohortTier calls resolved left = cohortTier calls resolved right ∧ left < right))

def rankAmong (resolved : Finset (Fin n)) (call : Fin n) : ℕ :=
  (List.finRange n).countP fun other => precedesIn calls resolved other call

structure CohortState (n : ℕ) where
  resolved : Finset (Fin n)
  usedTokens : ℕ
  usedBytes : ℕ
  admitted : Finset (Fin n)

def fitsCohort (rank usedTokens usedBytes : ℕ) (call : CohortCall) : Bool :=
  fitsShare policy rank call.tokens && fitsRollingTokens policy usedTokens call.tokens &&
    fitsRollingBytes policy usedBytes call.bytes

def verdict (state : CohortState n) (call : Fin n) : Bool :=
  fitsCohort policy (rankAmong calls state.resolved call) state.usedTokens state.usedBytes
    (calls call)

def countEvent (state : CohortState n) : CohortEvent n → CohortState n
  | .updatePriority call => { state with resolved := insert call state.resolved }
  | .admitOptional call _ =>
      let admitted := verdict policy calls state call
      { state with
        usedTokens := state.usedTokens + chargedTokens admitted (calls call).tokens
        usedBytes := state.usedBytes + chargedBytes admitted (calls call).bytes
        admitted := if admitted then insert call state.admitted else state.admitted }

end Counting

section Mirroring

variable {n : ℕ} {policy : BurstBudgetPolicy} {calls : Fin n → CohortCall} {first : ℕ}
variable {window : List RollingEntry} {clock : BurstClock policy window}
variable {resolved : Finset (Fin n)}

def cohortEntry (calls : Fin n → CohortCall) (first : ℕ) (resolved : Finset (Fin n))
    (call : Fin n) : InFlightEntry :=
  { callId := first + call
    isBlocking := decide (call ∈ resolved) && (calls call).isBlocking
    resolved := decide (call ∈ resolved)
    sequence := first + call }

def cohortEntries (calls : Fin n → CohortCall) (first : ℕ) (resolved : Finset (Fin n)) :
    List (ℕ × InFlightEntry) :=
  (List.finRange n).map fun call : Fin n =>
    (first + (call : ℕ), cohortEntry calls first resolved call)

theorem priorityTier_cohortEntry (call : Fin n) :
    priorityTier (cohortEntry calls first resolved call) = cohortTier calls resolved call := by
  unfold priorityTier cohortEntry cohortTier
  by_cases hcall : call ∈ resolved
  · simp [hcall]
  · simp [hcall]

theorem cohortEntry_injective : Function.Injective (cohortEntry calls first resolved) := by
  intro call call' h
  have hid := congrArg InFlightEntry.callId h
  simp only [cohortEntry] at hid
  exact Fin.ext (by omega)

variable {state : CohortState n} {run : CohortRun n} {controller : BurstBudgetController}
variable {events : List (CohortEvent n)}

theorem rankIndex_cohortEntries
    (h : controller.generation.entries = cohortEntries calls first resolved) (call : Fin n) :
    rankIndex controller (first + call) = rankAmong calls resolved call := by
  have hvalues : controller.generation.values =
      (List.finRange n).map (cohortEntry calls first resolved) := by
    simp [OrderedMap.values, h, cohortEntries, Function.comp_def]
  have htotal : Std.Total fun left right : InFlightEntry => outranks left right = true := by
    constructor
    intro left right
    simp only [outranks, decide_eq_true_eq]
    omega
  have htrans : IsTrans InFlightEntry fun left right => outranks left right = true := by
    constructor
    intro left middle right
    simp only [outranks, decide_eq_true_eq]
    omega
  have hid : ∀ other : Fin n, decide ((cohortEntry calls first resolved other).callId =
      first + call) = true ↔ other = call := by
    intro other
    rw [decide_eq_true_eq]
    simp only [cohortEntry]
    constructor
    · intro heq
      exact Fin.ext (by omega)
    · rintro rfl
      rfl
  unfold rankIndex rankAmong
  rw [hvalues, findIdx_insertionSort (a := cohortEntry calls first resolved call)
    (List.mem_map_of_mem (List.mem_finRange call))
    ((List.nodup_finRange n).map cohortEntry_injective)]
  · rw [List.countP_map]
    apply List.countP_congr
    intro other _
    simp only [Function.comp_apply, Bool.and_eq_true, Bool.not_eq_true', decide_eq_false_iff_not,
      precedesIn, outranks, decide_eq_true_eq, priorityTier_cohortEntry]
    have hne : (cohortEntry calls first resolved other).callId = first + call ↔
        (other : ℕ) = call := by
      simp only [cohortEntry]
      omega
    have hseq : (cohortEntry calls first resolved other).sequence = first + other := rfl
    have hseq' : (cohortEntry calls first resolved call).sequence = first + call := rfl
    have hsame : (other : ℕ) = call →
        cohortTier calls resolved other = cohortTier calls resolved call := by
      intro heq
      rw [Fin.ext heq]
    rw [hne, hseq, hseq', Fin.lt_def]
    omega
  · intro entry hentry
    obtain ⟨other, _, rfl⟩ := List.mem_map.mp hentry
    rw [hid other]
    exact ⟨fun heq => by rw [heq], fun heq => cohortEntry_injective heq⟩
  · intro entry hentry hle hge
    obtain ⟨other, _, rfl⟩ := List.mem_map.mp hentry
    simp only [outranks, decide_eq_true_eq] at hle hge
    have hseq : (cohortEntry calls first resolved other).sequence = first + other := rfl
    have hseq' : (cohortEntry calls first resolved call).sequence = first + call := rfl
    rw [hseq, hseq'] at hle hge
    have hother : other = call := Fin.ext (by omega)
    rw [hother]

/-- The entries that are left at a reading of the clock. -/
def recentEntries (policy : BurstBudgetPolicy) (now : ℚ) (window : List RollingEntry) :
    List RollingEntry :=
  window.filter fun entry => isRecent policy now entry

/-- The controller holds what the counting state counts. -/
structure Mirrors (calls : Fin n → CohortCall) (first : ℕ) (clock : BurstClock policy window)
    (run : CohortRun n) (state : CohortState n) : Prop where
  generation : run.controller.generation.entries = cohortEntries calls first state.resolved
  steady : ∀ now now', clock.readings now → clock.readings now' →
    ∀ entry ∈ run.controller.rollingWindow,
      isRecent policy now entry = isRecent policy now' entry
  usedTokens : ∀ now, clock.readings now →
    tokensUsed (recentEntries policy now run.controller.rollingWindow) = state.usedTokens
  usedBytes : ∀ now, clock.readings now →
    bytesUsed (recentEntries policy now run.controller.rollingWindow) = state.usedBytes
  admitted : run.admitted = state.admitted

theorem mem_keys_cohortEntries
    (h : controller.generation.entries = cohortEntries calls first resolved) (call : Fin n) :
    first + (call : ℕ) ∈ controller.generation.keys := by
  simp only [OrderedMap.keys, h, cohortEntries, List.map_map, List.mem_map]
  exact ⟨call, List.mem_finRange call, rfl⟩

theorem Mirrors.updatePriority (h : Mirrors calls first clock run state) (call : Fin n) :
    Mirrors calls first clock (performEvent policy calls first run (.updatePriority call))
      (countEvent policy calls state (.updatePriority call)) := by
  have hget : run.controller.generation.get (first + call) =
      some (cohortEntry calls first state.resolved call) := by
    rw [OrderedMap.get_eq_some_iff, h.generation]
    exact List.mem_map_of_mem (List.mem_finRange call)
  have hwindow : (performEvent policy calls first run
      (.updatePriority call)).controller.rollingWindow = run.controller.rollingWindow := by
    simp only [performEvent, ContextRuntime.updatePriority, hget]
  constructor
  · simp only [performEvent, ContextRuntime.updatePriority, hget, countEvent]
    have hset : ∀ entry : InFlightEntry, (run.controller.generation.set (first + call)
        entry).entries = run.controller.generation.entries.map fun e =>
          if e.1 = first + call then (first + (call : ℕ), entry) else e :=
      fun entry => if_pos (mem_keys_cohortEntries h.generation call)
    rw [hset, h.generation]
    simp only [cohortEntries, List.map_map]
    apply List.map_congr_left
    intro other _
    simp only [Function.comp_apply]
    by_cases hother : other = call
    · subst hother
      simp [cohortEntry]
    · have hne : ¬ first + (other : ℕ) = first + call := fun heq => hother (Fin.ext (by omega))
      rw [if_neg hne]
      simp [cohortEntry, hother]
  · rw [hwindow]
    exact h.steady
  · rw [hwindow]
    exact h.usedTokens
  · rw [hwindow]
    exact h.usedBytes
  · exact h.admitted

theorem recentEntries_append (policy : BurstBudgetPolicy) (now : ℚ) (entries : List RollingEntry)
    {entry : RollingEntry} (h : isRecent policy now entry = true) :
    recentEntries policy now (entries ++ [entry]) = recentEntries policy now entries ++ [entry] := by
  simp [recentEntries, h]

theorem Mirrors.admitOptional (hmode : policy.mode = .enforce)
    (h : Mirrors calls first clock run state) (call : Fin n) {now : ℚ} (hnow : clock.readings now) :
    Mirrors calls first clock (performEvent policy calls first run (.admitOptional call now))
      (countEvent policy calls state (.admitOptional call now)) := by
  have hmem := mem_keys_cohortEntries h.generation call
  have hrank : rankIndex (decayRollingWindow policy run.controller now) (first + call) =
      rankAmong calls state.resolved call := rankIndex_cohortEntries h.generation call
  have hverdict : (decideAdmission policy (decayRollingWindow policy run.controller now)
      (first + call) (calls call).tokens (calls call).bytes).admitted =
        verdict policy calls state call := by
    rw [Bool.eq_iff_iff, decideAdmission_admitted hmode, hrank]
    have htokens : tokensUsed (decayRollingWindow policy run.controller now).rollingWindow =
        state.usedTokens := h.usedTokens now hnow
    have hbytes : bytesUsed (decayRollingWindow policy run.controller now).rollingWindow =
        state.usedBytes := h.usedBytes now hnow
    rw [htokens, hbytes]
    simp only [verdict, fitsCohort, Bool.and_eq_true, and_assoc]
  have hsame : ∀ now', clock.readings now' → recentEntries policy now'
      (recentEntries policy now run.controller.rollingWindow) =
        recentEntries policy now' run.controller.rollingWindow := by
    intro now' hnow'
    unfold recentEntries
    rw [List.filter_filter]
    apply List.filter_congr
    intro entry hentry
    rw [h.steady now now' hnow hnow' entry hentry, Bool.and_self]
  have hcharged : ∀ now', clock.readings now' → ∀ tokens bytes,
      isRecent policy now' ⟨now, tokens, bytes⟩ = true := by
    intro now' hnow' tokens bytes
    exact decide_eq_true (clock.within now' now hnow' hnow)
  simp only [performEvent, admitOptional_eq hmode hmem, isAdmitted, hverdict, countEvent]
  generalize verdict policy calls state call = admitted
  constructor
  · exact h.generation
  · intro now₁ now₂ h₁ h₂ entry hentry
    rcases List.mem_append.mp hentry with hentry | hentry
    · exact h.steady now₁ now₂ h₁ h₂ entry (List.mem_of_mem_filter hentry)
    · rw [List.mem_singleton.mp hentry, hcharged now₁ h₁, hcharged now₂ h₂]
  · intro now' hnow'
    have hrecent : recentEntries policy now' (recentEntries policy now
        run.controller.rollingWindow ++ [⟨now, chargedTokens admitted (calls call).tokens,
          chargedBytes admitted (calls call).bytes⟩]) = _ :=
      recentEntries_append policy now' _ (hcharged now' hnow' _ _)
    rw [hsame now' hnow'] at hrecent
    refine (congrArg tokensUsed hrecent).trans ?_
    simp [tokensUsed, ← h.usedTokens now' hnow']
  · intro now' hnow'
    have hrecent : recentEntries policy now' (recentEntries policy now
        run.controller.rollingWindow ++ [⟨now, chargedTokens admitted (calls call).tokens,
          chargedBytes admitted (calls call).bytes⟩]) = _ :=
      recentEntries_append policy now' _ (hcharged now' hnow' _ _)
    rw [hsame now' hnow'] at hrecent
    refine (congrArg bytesUsed hrecent).trans ?_
    simp [bytesUsed, ← h.usedBytes now' hnow']
  · simp only [h.admitted]

theorem Mirrors.foldl (hmode : policy.mode = .enforce) (h : Mirrors calls first clock run state)
    {pending waiting pending' waiting' : Finset (Fin n)}
    (hevents : Performs clock pending waiting events pending' waiting') :
    Mirrors calls first clock (events.foldl (performEvent policy calls first) run)
      (events.foldl (countEvent policy calls) state) := by
  induction hevents generalizing run state with
  | done => exact h
  | update hcall hrest ih => exact ih (h.updatePriority _)
  | ask hcall hnow hrest ih => exact ih (h.admitOptional hmode _ hnow)

theorem reserveCalls_eq (first : ℕ) (window : List RollingEntry) (n : ℕ) :
    (reserveCalls (idleController first window) n).generation.entries =
        (List.range n).map (fun k => (first + k, (⟨first + k, false, false, first + k⟩ :
          InFlightEntry))) ∧
      (reserveCalls (idleController first window) n).rollingWindow = window ∧
      (reserveCalls (idleController first window) n).nextCallId = first + n ∧
      (reserveCalls (idleController first window) n).disposed = false := by
  induction n with
  | zero => exact ⟨rfl, rfl, rfl, rfl⟩
  | succ n ih =>
    obtain ⟨hentries, hwindow, hnext, hdisposed⟩ := ih
    have hnew : first + n ∉ (reserveCalls (idleController first window) n).generation.keys := by
      simp only [OrderedMap.keys, hentries, List.map_map, List.mem_map, List.mem_range,
        Function.comp_apply]
      rintro ⟨k, hk, heq⟩
      omega
    have hset : ((reserveCalls (idleController first window) n).generation.set (first + n)
        ⟨first + n, false, false, first + n⟩).entries = _ ++ [_] :=
      OrderedMap.setEntries_of_not_mem hnew
    simp only [reserveCalls, reserveEnvelope, hdisposed, Bool.false_eq_true, if_false, hnext]
    refine ⟨?_, hwindow, rfl, trivial⟩
    rw [hset, hentries, List.range_succ, List.map_append]
    rfl

def initialState (policy : BurstBudgetPolicy) (window : List RollingEntry) (start : ℚ) :
    CohortState n :=
  { resolved := ∅
    usedTokens := tokensUsed (recentEntries policy start window)
    usedBytes := bytesUsed (recentEntries policy start window)
    admitted := ∅ }

theorem mirrors_initial (calls : Fin n → CohortCall) (first : ℕ)
    (clock : BurstClock policy window) :
    Mirrors calls first clock ⟨reserveCalls (idleController first window) n, ∅⟩
      (initialState policy window clock.start) := by
  obtain ⟨hentries, hwindow, _, _⟩ := reserveCalls_eq first window n
  have hrecent : ∀ now, clock.readings now →
      recentEntries policy now window = recentEntries policy clock.start window := by
    intro now hnow
    apply List.filter_congr
    intro entry hentry
    exact clock.steady now clock.start hnow clock.start_mem entry hentry
  constructor
  · rw [hentries, ← List.map_coe_finRange_eq_range, List.map_map]
    apply List.map_congr_left
    intro call _
    simp [cohortEntry, initialState]
  · intro now now' hnow hnow' entry hentry
    exact clock.steady now now' hnow hnow' entry (hwindow ▸ hentry)
  · intro now hnow
    rw [hwindow, hrecent now hnow]
    rfl
  · intro now hnow
    rw [hwindow, hrecent now hnow]
    rfl
  · rfl

theorem admittedCalls_eq (hmode : policy.mode = .enforce) (hevents : IsOrder clock events) :
    admittedCalls policy calls first window events =
      (events.foldl (countEvent policy calls)
        (initialState policy window clock.start)).admitted :=
  ((mirrors_initial calls first clock).foldl hmode hevents).admitted

end Mirroring

end Mottainai.ContextRuntime

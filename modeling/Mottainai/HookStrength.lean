import Mottainai.ExecutionManifests
import Mottainai.KeyedLists

/-!
# Dispatch of managed hooks

A hook event gets the decision of the policy first, its baseline. The providers are then asked, all
at once and under one timeout; the strongest of the baseline and what the authoritative ones answer
is the decision, in whatever order they are given. Where the timeout passes or the capability
resolver fails, the failure mode of the operation decides.
-/

namespace Mottainai.ManagedHooks

open JavaScriptValues JsonValues

section Contract

inductive HookClient where
  | claude | codex
  deriving DecidableEq

inductive HookOperation where
  | sourceRead | sourceSearch | sourceWrite | processExec | gitMutate | other
  deriving DecidableEq

inductive HookRolloutMode where
  | observe | warn | enforce
  deriving DecidableEq

inductive HookFailureMode where
  | isOpen | isClosed
  deriving DecidableEq

inductive HookDecisionKind where
  | allow | warn | deny | redirect
  deriving DecidableEq

inductive HookProviderName where
  | generic | workflow | context | semantic
  deriving DecidableEq

inductive HookProviderState where
  | notApplicable | authoritative | unavailable | unsupported | stale
  deriving DecidableEq

def HookOperation.text : HookOperation → String
  | .sourceRead => "source.read"
  | .sourceSearch => "source.search"
  | .sourceWrite => "source.write"
  | .processExec => "process.exec"
  | .gitMutate => "git.mutate"
  | .other => "other"

def HookDecisionKind.text : HookDecisionKind → String
  | .allow => "allow"
  | .warn => "warn"
  | .deny => "deny"
  | .redirect => "redirect"

def HookProviderName.text : HookProviderName → String
  | .generic => "generic"
  | .workflow => "workflow"
  | .context => "context"
  | .semantic => "semantic"

def HookProviderState.text : HookProviderState → String
  | .notApplicable => "not_applicable"
  | .authoritative => "authoritative"
  | .unavailable => "unavailable"
  | .unsupported => "unsupported"
  | .stale => "stale"

/-- A value of the metadata of an event: a string, a number as it is printed, or a boolean. -/
inductive MetadataValue where
  | string (text : String)
  | number (literal : String)
  | boolean (value : Bool)
  deriving DecidableEq

/-- The parts of an event that the dispatcher reads. The identity of a decision is a digest of the
whole event, which is passed as its JSON text. -/
structure HookEvent where
  client : HookClient
  operation : HookOperation
  metadata : String → Option MetadataValue
  text : String

structure HookDecision where
  decision : HookDecisionKind
  reason : String
  replacement : Option String := none
  decisionId : Option String := none
  diagnostic : Option String := none
  provider : Option HookProviderName := none
  rule : Option String := none
  providerState : Option HookProviderState := none
  deriving DecidableEq

def hookDecisionMaxBytes : ℕ := 512

def hookReasonMaxLength : ℕ := 64

def hookReplacementMaxLength : ℕ := 96

def hookDiagnosticMaxLength : ℕ := 160

/-- The characters `\u0000` to `\u001f` and `\u007f`. -/
def isControl (c : Char) : Bool := c.toNat ≤ 0x1F || c.toNat = 0x7F

def bounded (value : Option String) (maximum : ℕ) : Option String :=
  value.map fun value =>
    let normalized :=
      ExecutionManifests.trim (String.ofList (value.toList.map fun c => if isControl c then ' ' else c))
    if utf16Length normalized ≤ maximum then normalized else slice (maximum - 1) normalized ++ "…"

def HookDecision.toJson (decision : HookDecision) : JsonValue :=
  .object ([("version", .number "1"), ("decision", .string decision.decision.text),
      ("reason", .string decision.reason)] ++
    optionalProperty "replacement" (decision.replacement.map .string) ++
    optionalProperty "decisionId" (decision.decisionId.map .string) ++
    optionalProperty "diagnostic" (decision.diagnostic.map .string) ++
    optionalProperty "provider" (decision.provider.map fun name => .string name.text) ++
    optionalProperty "rule" (decision.rule.map .string) ++
    optionalProperty "providerState" (decision.providerState.map fun state => .string state.text))

/-- Keep ordinary hook output small. -/
def boundHookDecision (decision : HookDecision) (maximumBytes : ℕ) : HookDecision :=
  let boundedDecision : HookDecision := {
    decision := decision.decision
    reason := (bounded (some decision.reason) hookReasonMaxLength).getD decision.reason
    replacement := bounded decision.replacement hookReplacementMaxLength
    decisionId := bounded decision.decisionId 80
    diagnostic := bounded decision.diagnostic hookDiagnosticMaxLength
    provider := decision.provider
    rule := bounded decision.rule hookReasonMaxLength
    providerState := decision.providerState }
  if bytes boundedDecision.toJson ≤ maximumBytes then boundedDecision
  else { decision := boundedDecision.decision, reason := boundedDecision.reason }

end Contract

section Policy

structure HookPolicy where
  mode : HookRolloutMode
  operationModes : HookOperation → Option HookRolloutMode
  failureModes : HookOperation → Option HookFailureMode
  timeoutMs : ℤ

def resolveHookMode (policy : HookPolicy) (operation : HookOperation) : HookRolloutMode :=
  (policy.operationModes operation).getD policy.mode

def resolveFailureMode (policy : HookPolicy) (operation : HookOperation) : Option HookFailureMode :=
  (policy.failureModes operation).or (policy.failureModes .other)

structure ManagedCapabilityIdentity where
  client : HookClient
  registrationId : String
  capabilityId : HookOperation
  toolName : String

structure ManagedCapability where
  replacement : String
  available : Bool
  identity : Option ManagedCapabilityIdentity

abbrev ManagedCapabilityRegistry : Type := HookOperation → HookEvent → Option ManagedCapability

def managedCapabilityRegistrationId : String := "mottainai:mcp:managed:v1"

def managedMcpExecToolName : String := "mcp__mottainai__mottainai_exec"

def isVerifiedManagedCapabilityIdentity (value : ManagedCapabilityIdentity)
    (operation : HookOperation) (client : HookClient) : Bool :=
  value.client = client && value.registrationId = managedCapabilityRegistrationId &&
    value.capabilityId = operation && value.toolName = managedMcpExecToolName

end Policy

section Providers

structure HookProviderResult where
  provider : HookProviderName
  state : HookProviderState
  reason : String
  action : Option HookDecisionKind := none
  replacement : Option String := none
  rule : Option String := none
  diagnostic : Option String := none
  deriving DecidableEq

/-- What has come of an asynchronous call when the timeout passes. An error is told by its message,
where it is an instance of `Error`. -/
inductive Reply (α : Type) where
  | returned (value : α)
  | threw (message : Option String)
  | pending

structure HookPolicyProvider where
  provider : HookProviderName
  evaluate : HookEvent → ℤ → Reply HookProviderResult

structure HookDispatchOptions where
  policy : HookPolicy
  capabilities : ManagedCapabilityRegistry
  /-- What the clock says, each time it is read. -/
  now : ℕ → ℕ
  /-- The digest in hexadecimal digits. -/
  sha256 : String → String
  localeCompare : String → String → Ordering
  capabilityResolver : Option (HookOperation → HookEvent → ℤ → Reply Unit) := none
  providers : List HookPolicyProvider := []
  timeoutMs : Option ℤ := none

end Providers

section Baseline

def decisionId (event : HookEvent) (options : HookDispatchOptions) (time : ℕ) : String :=
  let identity := "\x7b\"event\":" ++ event.text ++ ",\"at\":" ++ toString time ++ "\x7d"
  "hd_" ++ slice 16 (options.sha256 identity)

def onManagedPath (event : HookEvent) (capability : ManagedCapability) : Bool :=
  match capability.identity with
  | none => false
  | some identity =>
    event.operation = .processExec &&
      event.metadata "boundary" = some (.string "managed-capability") &&
      event.metadata "managedPath" = some (.boolean true) &&
      isVerifiedManagedCapabilityIdentity identity .processExec event.client &&
      event.metadata "managedRegistrationId" = some (.string identity.registrationId) &&
      event.metadata "managedCapabilityId" = some (.string identity.capabilityId.text) &&
      event.metadata "tool" = some (.string identity.toolName) &&
      capability.available && !isBlank capability.replacement

def decideHook (event : HookEvent) (options : HookDispatchOptions) : HookDecision :=
  let id := some (decisionId event options (options.now 0))
  let closed := decide (resolveFailureMode options.policy event.operation = some .isClosed)
  let unavailable : HookDecision := boundHookDecision {
    decisionId := id
    decision := if closed then .deny else .allow
    reason := if event.operation = .other then "unsupported_operation"
      else "managed_capability_unavailable"
    diagnostic := some (if closed then "failure_mode=closed" else "failure_mode=open") }
    hookDecisionMaxBytes
  match options.capabilities event.operation event with
  | none => unavailable
  | some capability =>
    if onManagedPath event capability then
      boundHookDecision { decisionId := id, decision := .allow, reason := "managed_capability_path" }
        hookDecisionMaxBytes
    else if capability.available = false ∨ isBlank capability.replacement then unavailable
    else match resolveHookMode options.policy event.operation with
      | .observe => boundHookDecision {
          decisionId := id
          decision := .allow
          reason := "observe_only"
          replacement := some capability.replacement } hookDecisionMaxBytes
      | .warn => boundHookDecision {
          decisionId := id
          decision := .warn
          reason := "managed_capability_available"
          replacement := some capability.replacement } hookDecisionMaxBytes
      | .enforce => boundHookDecision {
          decisionId := id
          decision := .redirect
          reason := "managed_capability_available"
          replacement := some capability.replacement } hookDecisionMaxBytes

def failureDecision (event : HookEvent) (options : HookDispatchOptions) (reason : String) :
    HookDecision :=
  let closed := decide (resolveFailureMode options.policy event.operation = some .isClosed)
  boundHookDecision {
    decisionId := some (decisionId event options (options.now 1))
    decision := if closed then .deny else .allow
    reason := reason
    diagnostic := some (if closed then "failure_mode=closed" else "failure_mode=open") }
    hookDecisionMaxBytes

end Baseline

section Composition

structure HookDecisionTrace where
  baseline : HookDecision
  decision : HookDecision
  providers : List HookProviderResult

def decisionStrength : HookDecisionKind → ℕ
  | .allow => 1
  | .warn => 2
  | .redirect => 3
  | .deny => 4

def providerRank : HookProviderName → ℕ
  | .generic => 0
  | .workflow => 1
  | .context => 2
  | .semantic => 3

def actionFor (result : HookProviderResult) : HookDecisionKind := result.action.getD .allow

def candidateFor (result : HookProviderResult) (baseline : HookDecision) : Option HookDecision :=
  if result.state = .authoritative then
    some (boundHookDecision {
      decision := actionFor result
      reason := result.reason
      replacement := result.replacement.or baseline.replacement
      decisionId := baseline.decisionId
      diagnostic := result.diagnostic
      provider := some result.provider
      rule := result.rule
      providerState := some result.state } hookDecisionMaxBytes)
  else none

def nonAuthoritativeCandidate (result : HookProviderResult) (baseline : HookDecision) :
    Option HookDecision :=
  if result.state = .notApplicable ∨ result.state = .authoritative then none
  else if decisionStrength baseline.decision > decisionStrength .allow then none
  else some (boundHookDecision { baseline with
    reason := result.reason
    diagnostic := result.diagnostic.or baseline.diagnostic
    provider := some result.provider
    rule := result.rule.or baseline.rule
    providerState := some result.state } hookDecisionMaxBytes)

def shouldReplace (current candidate : HookDecision) : Bool :=
  let currentStrength := decisionStrength current.decision
  let candidateStrength := decisionStrength candidate.decision
  if candidateStrength ≠ currentStrength then candidateStrength > currentStrength
  else if current.provider.getD .generic = .generic ∧ candidate.provider.isSome then true
  else providerRank (candidate.provider.getD .generic) < providerRank (current.provider.getD .generic)

def considerResult (baseline selected : HookDecision) (result : HookProviderResult) :
    HookDecision :=
  match (candidateFor result baseline).or (nonAuthoritativeCandidate result baseline) with
  | some candidate => if shouldReplace selected candidate then candidate else selected
  | none => selected

def orderResults (localeCompare : String → String → Ordering) (results : List HookProviderResult) :
    List HookProviderResult :=
  results.insertionSort fun left right =>
    providerRank left.provider < providerRank right.provider ∨
      providerRank left.provider = providerRank right.provider ∧
        localeCompare left.reason right.reason ≠ .gt

def composeHookDecision (localeCompare : String → String → Ordering) (baseline : HookDecision)
    (providerResults : List HookProviderResult) : HookDecisionTrace :=
  let ordered := orderResults localeCompare providerResults
  let selected :=
    ordered.foldl (considerResult baseline) (boundHookDecision baseline hookDecisionMaxBytes)
  { baseline := boundHookDecision baseline hookDecisionMaxBytes
    decision := boundHookDecision selected hookDecisionMaxBytes
    providers := ordered }

end Composition

section Dispatch

def providerFailure (provider : HookPolicyProvider) : HookProviderResult where
  provider := provider.provider
  state := .unavailable
  reason := "provider_unavailable"
  diagnostic := some "provider_error"

def evaluateProvider (event : HookEvent) (timeoutMs : ℤ) (provider : HookPolicyProvider) :
    Option HookProviderResult :=
  match provider.evaluate event timeoutMs with
  | .returned result =>
    some (if result.provider = provider.provider then result else providerFailure provider)
  | .threw _ => some (providerFailure provider)
  | .pending => none

def effectiveTimeoutMs (options : HookDispatchOptions) : ℤ :=
  min (max (options.timeoutMs.getD options.policy.timeoutMs) 1) options.policy.timeoutMs

def capabilityReply (event : HookEvent) (options : HookDispatchOptions) : Reply Unit :=
  match options.capabilityResolver with
  | none => .returned ()
  | some resolver => resolver event.operation event (effectiveTimeoutMs options)

def gatherResults (event : HookEvent) (options : HookDispatchOptions) :
    Except (Option String) (List HookProviderResult) :=
  match capabilityReply event options with
  | .threw message => .error message
  | .pending => .error (some "hook timeout")
  | .returned () =>
    match options.providers.mapM (evaluateProvider event (effectiveTimeoutMs options)) with
    | none => .error (some "hook timeout")
    | some results => .ok results

def dispatchHookDetailed (event : HookEvent) (options : HookDispatchOptions) : HookDecisionTrace :=
  let baseline := decideHook event options
  match gatherResults event options with
  | .ok results => composeHookDecision options.localeCompare baseline results
  | .error message =>
    { baseline := baseline
      decision := failureDecision event options
        (if message = some "hook timeout" then "hook_timeout" else "hook_error")
      providers := [] }

def dispatchHook (event : HookEvent) (options : HookDispatchOptions) : HookDecision :=
  (dispatchHookDetailed event options).decision

end Dispatch

open StableSorting

section Statement

/-- The decision is one of those given and none of them is stronger. -/
def IsStrongest (decision : HookDecisionKind) (among : List HookDecisionKind) : Prop :=
  decision ∈ among ∧ ∀ other ∈ among, decisionStrength other ≤ decisionStrength decision

/-- The action of a provider that answers in time, for itself and with authority. -/
def authoritativeAction (event : HookEvent) (timeoutMs : ℤ) (provider : HookPolicyProvider) :
    Option HookDecisionKind :=
  match provider.evaluate event timeoutMs with
  | .returned result =>
    if result.provider = provider.provider ∧ result.state = .authoritative then
      some (actionFor result)
    else none
  | _ => none

def authoritativeDecisions (event : HookEvent) (options : HookDispatchOptions) :
    List HookDecisionKind :=
  options.providers.filterMap (authoritativeAction event (effectiveTimeoutMs options))

/-- The decision is no weaker than the baseline, it is the strongest of the baseline and the
decisions of the authoritative providers, and it is the same for every order of the providers. -/
def NeverWeakened (event : HookEvent) (options : HookDispatchOptions) : Prop :=
  decisionStrength (decideHook event options).decision ≤
      decisionStrength (dispatchHook event options).decision ∧
    IsStrongest (dispatchHook event options).decision
      ((decideHook event options).decision :: authoritativeDecisions event options) ∧
    ∀ providers, options.providers.Perm providers →
      dispatchHook event { options with providers } = dispatchHook event options

/-- The capability resolver, if there is one, returns before the timeout passes, and every provider
has returned or thrown by then. -/
def Completes (event : HookEvent) (options : HookDispatchOptions) : Prop :=
  capabilityReply event options = .returned () ∧
    ∀ provider ∈ options.providers,
      provider.evaluate event (effectiveTimeoutMs options) ≠ .pending

end Statement

section Composition

variable {baseline selected candidate : HookDecision} {result : HookProviderResult}
variable {results : List HookProviderResult} {among : List HookDecisionKind}

theorem decisionStrength_injective : Function.Injective decisionStrength := by
  intro left right h
  cases left <;> cases right <;> first | rfl | exact absurd h (by decide)

@[simp] theorem decision_boundHookDecision (decision : HookDecision) (maximumBytes : ℕ) :
    (boundHookDecision decision maximumBytes).decision = decision.decision := by
  unfold boundHookDecision
  dsimp only
  split <;> rfl

theorem le_of_shouldReplace (h : shouldReplace selected candidate = true) :
    decisionStrength selected.decision ≤ decisionStrength candidate.decision := by
  unfold shouldReplace at h
  by_cases heq : decisionStrength candidate.decision = decisionStrength selected.decision
  · exact heq.ge
  · rw [if_pos heq] at h
    exact (of_decide_eq_true h).le

theorem le_of_not_shouldReplace (h : ¬ shouldReplace selected candidate = true) :
    decisionStrength candidate.decision ≤ decisionStrength selected.decision := by
  unfold shouldReplace at h
  by_cases heq : decisionStrength candidate.decision = decisionStrength selected.decision
  · exact heq.le
  · rw [if_pos heq] at h
    exact not_lt.mp fun hlt => h (decide_eq_true hlt)

theorem candidateFor_authoritative (baseline : HookDecision) (h : result.state = .authoritative) :
    ∃ candidate, candidateFor result baseline = some candidate ∧
      candidate.decision = actionFor result := by
  unfold candidateFor
  rw [if_pos h]
  exact ⟨_, rfl, decision_boundHookDecision _ _⟩

theorem candidateFor_other (h : result.state ≠ .authoritative) :
    candidateFor result baseline = none := if_neg h

theorem decision_nonAuthoritativeCandidate
    (h : nonAuthoritativeCandidate result baseline = some candidate) :
    candidate.decision = baseline.decision := by
  unfold nonAuthoritativeCandidate at h
  split_ifs at h
  rw [← Option.some.inj h, decision_boundHookDecision]

theorem considerResult_authoritative (baseline : HookDecision) (h : IsStrongest selected.decision among)
    (hstate : result.state = .authoritative) :
    IsStrongest (considerResult baseline selected result).decision
      (among ++ [actionFor result]) := by
  obtain ⟨candidate, hcandidate, hdecision⟩ := candidateFor_authoritative baseline hstate
  have heq : considerResult baseline selected result =
      if shouldReplace selected candidate then candidate else selected := by
    rw [considerResult, hcandidate]
    rfl
  rw [heq]
  by_cases hreplace : shouldReplace selected candidate = true
  · have hle := le_of_shouldReplace hreplace
    rw [if_pos hreplace, hdecision]
    rw [hdecision] at hle
    refine ⟨by simp, fun other hother => ?_⟩
    rcases List.mem_append.mp hother with hother | hother
    · exact (h.2 other hother).trans hle
    · rw [List.mem_singleton.mp hother]
  · have hle := le_of_not_shouldReplace hreplace
    rw [if_neg hreplace]
    rw [hdecision] at hle
    refine ⟨List.mem_append_left _ h.1, fun other hother => ?_⟩
    rcases List.mem_append.mp hother with hother | hother
    · exact h.2 other hother
    · rw [List.mem_singleton.mp hother]
      exact hle

theorem considerResult_other (h : IsStrongest selected.decision among)
    (hbaseline : baseline.decision ∈ among) (hstate : result.state ≠ .authoritative) :
    (considerResult baseline selected result).decision = selected.decision := by
  rw [considerResult, candidateFor_other hstate, Option.none_or]
  cases hcandidate : nonAuthoritativeCandidate result baseline with
  | none => rfl
  | some candidate =>
    have hdecision := decision_nonAuthoritativeCandidate hcandidate
    change HookDecision.decision (if _ then candidate else selected) = _
    by_cases hreplace : shouldReplace selected candidate = true
    · rw [if_pos hreplace]
      have hle := le_of_shouldReplace hreplace
      rw [hdecision] at hle ⊢
      exact decisionStrength_injective (le_antisymm (h.2 _ hbaseline) hle)
    · rw [if_neg hreplace]

def authoritativeActions (results : List HookProviderResult) : List HookDecisionKind :=
  (results.filter (·.state = .authoritative)).map actionFor

theorem foldl_considerResult (results : List HookProviderResult) (h : IsStrongest selected.decision among)
    (hbaseline : baseline.decision ∈ among) :
    IsStrongest (results.foldl (considerResult baseline) selected).decision
      (among ++ authoritativeActions results) := by
  induction results generalizing selected among with
  | nil => simpa [authoritativeActions] using h
  | cons result results ih =>
    rw [List.foldl_cons]
    by_cases hstate : result.state = .authoritative
    · have hnext := ih (considerResult_authoritative baseline h hstate)
        (List.mem_append_left _ hbaseline)
      simpa [authoritativeActions, hstate] using hnext
    · have hsame : IsStrongest (considerResult baseline selected result).decision among := by
        rw [considerResult_other h hbaseline hstate]
        exact h
      have hnext := ih hsame hbaseline
      simpa [authoritativeActions, hstate] using hnext

theorem IsStrongest.of_mem_iff {decision : HookDecisionKind} {among' : List HookDecisionKind}
    (h : IsStrongest decision among) (hmem : ∀ other, other ∈ among ↔ other ∈ among') :
    IsStrongest decision among' :=
  ⟨(hmem decision).mp h.1, fun other hother => h.2 other ((hmem other).mpr hother)⟩

theorem composeHookDecision_strongest (localeCompare : String → String → Ordering)
    (baseline : HookDecision) (results : List HookProviderResult) :
    IsStrongest (composeHookDecision localeCompare baseline results).decision.decision
      (baseline.decision :: authoritativeActions results) := by
  have hstart : IsStrongest (boundHookDecision baseline hookDecisionMaxBytes).decision
      [baseline.decision] := by
    rw [decision_boundHookDecision]
    exact ⟨List.mem_singleton.mpr rfl, fun other hother => by rw [List.mem_singleton.mp hother]⟩
  have hfold := foldl_considerResult (orderResults localeCompare results) hstart
    (List.mem_singleton.mpr rfl)
  rw [composeHookDecision, decision_boundHookDecision]
  refine hfold.of_mem_iff fun other => ?_
  have hperm : (orderResults localeCompare results).Perm results := List.perm_insertionSort _ _
  have hactions : (authoritativeActions (orderResults localeCompare results)).Perm
      (authoritativeActions results) := (hperm.filter _).map actionFor
  rw [List.singleton_append, List.mem_cons, List.mem_cons, hactions.mem_iff]

end Composition

section Order

variable {results results' : List HookProviderResult}

theorem providerRank_injective : Function.Injective providerRank := by
  intro left right h
  cases left <;> cases right <;> first | rfl | exact absurd h (by decide)

theorem orderResults_eq (localeCompare : String → String → Ordering)
    (h : (results.map (·.provider)).Nodup) :
    orderResults localeCompare results = results.insertionSort fun left right =>
      providerRank left.provider ≤ providerRank right.provider := by
  refine insertionSort_congr ((List.pairwise_map.mp h).imp fun {left right} hne => ?_)
  have hrank : providerRank left.provider ≠ providerRank right.provider :=
    fun heq => hne (providerRank_injective heq)
  constructor
  · rintro (hlt | ⟨heq, -⟩)
    · exact hlt.le
    · exact absurd heq hrank
  · exact fun hle => .inl (lt_of_le_of_ne hle hrank)

theorem orderResults_perm (localeCompare : String → String → Ordering) (hperm : results.Perm results')
    (h : (results.map (·.provider)).Nodup) :
    orderResults localeCompare results = orderResults localeCompare results' := by
  rw [orderResults_eq localeCompare h,
    orderResults_eq localeCompare ((hperm.map _).nodup_iff.mp h)]
  have : Std.Total fun left right : HookProviderResult =>
      providerRank left.provider ≤ providerRank right.provider := ⟨fun _ _ => le_total _ _⟩
  have : IsTrans HookProviderResult fun left right =>
      providerRank left.provider ≤ providerRank right.provider := ⟨fun _ _ _ => le_trans⟩
  refine List.Perm.eq_of_pairwise ?_ (List.pairwise_insertionSort _ results)
    (List.pairwise_insertionSort _ results')
    (((List.perm_insertionSort _ results).trans hperm).trans (List.perm_insertionSort _ results').symm)
  intro left right hleft hright hle hge
  have hleft := (List.mem_insertionSort _).mp hleft
  have hright := hperm.mem_iff.mpr ((List.mem_insertionSort _).mp hright)
  exact List.inj_on_of_nodup_map h hleft hright (providerRank_injective (le_antisymm hle hge))

end Order

section Dispatch

variable {event : HookEvent} {options : HookDispatchOptions} {results : List HookProviderResult}

/-- A list is mapped as a whole where each of its elements is. -/
theorem mapM_eq_some_iff {α β : Type} {f : α → Option β} {l : List α} {m : List β} :
    l.mapM f = some m ↔ (∀ a ∈ l, (f a).isSome) ∧ m = l.filterMap f := by
  induction l generalizing m with
  | nil =>
    rw [List.mapM_nil, List.filterMap_nil]
    constructor
    · intro h
      exact ⟨fun a ha => absurd ha List.not_mem_nil, (Option.some.inj h).symm⟩
    · rintro ⟨-, rfl⟩
      rfl
  | cons a l ih =>
    cases ha : f a with
    | none => simp [List.mapM_cons, ha]
    | some b =>
      rw [List.mapM_cons, ha, List.filterMap_cons_some ha, List.forall_mem_cons, ha]
      simp only [Option.bind_eq_bind, Option.bind_some, Option.bind_eq_some_iff, ih,
        Option.pure_def, Option.some.injEq, Option.isSome_some, true_and]
      constructor
      · rintro ⟨m', ⟨hall, rfl⟩, rfl⟩
        exact ⟨hall, rfl⟩
      · rintro ⟨hall, rfl⟩
        exact ⟨_, ⟨hall, rfl⟩, rfl⟩

theorem mapM_perm {α β : Type} (f : α → Option β) {l l' : List α} (hperm : l.Perm l') :
    l.mapM f = none ∧ l'.mapM f = none ∨
      ∃ m m', l.mapM f = some m ∧ l'.mapM f = some m' ∧ m.Perm m' := by
  cases hl : l.mapM f with
  | some m =>
    obtain ⟨hall, rfl⟩ := mapM_eq_some_iff.mp hl
    refine .inr ⟨_, _, rfl, mapM_eq_some_iff.mpr ⟨fun a ha => ?_, rfl⟩, hperm.filterMap f⟩
    exact hall a (hperm.mem_iff.mpr ha)
  | none =>
    refine .inl ⟨rfl, ?_⟩
    by_contra hne
    obtain ⟨m', hm'⟩ := Option.ne_none_iff_exists'.mp hne
    obtain ⟨hall, -⟩ := mapM_eq_some_iff.mp hm'
    have hsome := mapM_eq_some_iff.mpr ⟨fun a ha => hall a (hperm.mem_iff.mp ha), rfl⟩
    rw [hl] at hsome
    cases hsome

variable {providers : List HookPolicyProvider} {provider : HookPolicyProvider} {timeoutMs : ℤ}

theorem evaluateProvider_isSome :
    (evaluateProvider event timeoutMs provider).isSome ↔
      provider.evaluate event timeoutMs ≠ .pending := by
  unfold evaluateProvider
  cases provider.evaluate event timeoutMs <;> simp

theorem provider_of_evaluateProvider {result : HookProviderResult}
    (h : evaluateProvider event timeoutMs provider = some result) :
    result.provider = provider.provider := by
  unfold evaluateProvider at h
  split at h
  · rw [← Option.some.inj h]
    split
    · assumption
    · rfl
  · rw [← Option.some.inj h]
    rfl
  · cases h

theorem authoritativeAction_eq (timeoutMs : ℤ) (provider : HookPolicyProvider) :
    authoritativeAction event timeoutMs provider =
      (evaluateProvider event timeoutMs provider).bind fun result =>
        if result.state = .authoritative then some (actionFor result) else none := by
  unfold authoritativeAction evaluateProvider
  cases provider.evaluate event timeoutMs with
  | returned result =>
    by_cases hprovider : result.provider = provider.provider
    · simp [hprovider]
    · simp [hprovider, providerFailure]
  | threw message => simp [providerFailure]
  | pending => rfl

def resultsOf (event : HookEvent) (options : HookDispatchOptions) : List HookProviderResult :=
  options.providers.filterMap (evaluateProvider event (effectiveTimeoutMs options))

theorem authoritativeActions_resultsOf (event : HookEvent) (options : HookDispatchOptions) :
    authoritativeActions (resultsOf event options) = authoritativeDecisions event options := by
  have hfilter : ∀ l : List HookProviderResult, authoritativeActions l =
      l.filterMap fun result =>
        if result.state = .authoritative then some (actionFor result) else none := by
    intro l
    induction l with
    | nil => rfl
    | cons result l ih =>
      by_cases hstate : result.state = .authoritative
      · simpa [authoritativeActions, hstate] using ih
      · simpa [authoritativeActions, hstate] using ih
  rw [hfilter, resultsOf, List.filterMap_filterMap, authoritativeDecisions]
  exact List.filterMap_congr fun provider _ => (authoritativeAction_eq _ provider).symm

theorem nodup_resultsOf (h : (options.providers.map (·.provider)).Nodup) :
    ((resultsOf event options).map (·.provider)).Nodup := by
  have hsublist : ∀ l : List HookPolicyProvider,
      ((l.filterMap (evaluateProvider event (effectiveTimeoutMs options))).map (·.provider)).Sublist
        (l.map (·.provider)) := by
    intro l
    induction l with
    | nil => exact .slnil
    | cons provider l ih =>
      cases hresult : evaluateProvider event (effectiveTimeoutMs options) provider with
      | none =>
        rw [List.filterMap_cons_none hresult]
        exact ih.cons _
      | some result =>
        rw [List.filterMap_cons_some hresult, List.map_cons, List.map_cons,
          provider_of_evaluateProvider hresult]
        exact ih.cons_cons _
  exact h.sublist (hsublist options.providers)

theorem gatherResults_of_completes (h : Completes event options) :
    gatherResults event options = .ok (resultsOf event options) := by
  have hall : options.providers.mapM (evaluateProvider event (effectiveTimeoutMs options)) =
      some (resultsOf event options) :=
    mapM_eq_some_iff.mpr ⟨fun provider hprovider =>
      evaluateProvider_isSome.mpr (h.2 provider hprovider), rfl⟩
  rw [gatherResults, h.1, hall]

theorem completes_of_gatherResults (h : gatherResults event options = .ok results) :
    Completes event options := by
  unfold gatherResults at h
  cases hreply : capabilityReply event options with
  | threw message => simp [hreply] at h
  | pending => simp [hreply] at h
  | returned value =>
    refine ⟨hreply, fun provider hprovider => ?_⟩
    cases hall : options.providers.mapM (evaluateProvider event (effectiveTimeoutMs options)) with
    | none => simp [hreply, hall] at h
    | some gathered =>
      exact evaluateProvider_isSome.mp ((mapM_eq_some_iff.mp hall).1 provider hprovider)

/-- Another order of the providers gives the same error, or the same results in another order. -/
theorem gatherResults_perm (event : HookEvent) (hperm : options.providers.Perm providers) :
    gatherResults event { options with providers } = gatherResults event options ∨
      ∃ results results', gatherResults event options = .ok results ∧
        gatherResults event { options with providers } = .ok results' ∧ results.Perm results' := by
  have hreply : capabilityReply event { options with providers } = capabilityReply event options :=
    rfl
  cases hcapability : capabilityReply event options with
  | threw message => exact .inl (by rw [gatherResults, gatherResults, hreply, hcapability])
  | pending => exact .inl (by rw [gatherResults, gatherResults, hreply, hcapability])
  | returned value =>
    have htimeout : effectiveTimeoutMs { options with providers } = effectiveTimeoutMs options := rfl
    rw [gatherResults, gatherResults, hreply, hcapability, htimeout]
    dsimp only
    rcases mapM_perm (evaluateProvider event (effectiveTimeoutMs options)) hperm with
      ⟨hnone, hnone'⟩ | ⟨results, results', hsome, hsome', hresults⟩
    · exact .inl (by rw [hnone, hnone'])
    · exact .inr ⟨results, results', by rw [hsome], by rw [hsome'], hresults⟩

theorem dispatchHook_ok (h : gatherResults event options = .ok results) :
    dispatchHook event options =
      (composeHookDecision options.localeCompare (decideHook event options) results).decision := by
  rw [dispatchHook, dispatchHookDetailed, h]

theorem dispatchHook_error {message : Option String} (h : gatherResults event options = .error message) :
    (dispatchHook event options).decision =
      if resolveFailureMode options.policy event.operation = some .isClosed then .deny else .allow := by
  rw [dispatchHook, dispatchHookDetailed, h]
  change (failureDecision _ _ _).decision = _
  rw [failureDecision, decision_boundHookDecision]
  by_cases hclosed : resolveFailureMode options.policy event.operation = some .isClosed <;>
    simp [hclosed]

theorem dispatchHook_perm (distinct : (options.providers.map (·.provider)).Nodup)
    (hperm : options.providers.Perm providers) :
    dispatchHook event { options with providers } = dispatchHook event options := by
  rcases gatherResults_perm event hperm with heq | ⟨results, results', h, h', hresults⟩
  · rw [dispatchHook, dispatchHookDetailed, heq]
    rfl
  · have hresultsOf : results = resultsOf event options :=
      Except.ok.inj (h.symm.trans (gatherResults_of_completes (completes_of_gatherResults h)))
    have hnodup : (results.map (·.provider)).Nodup := by
      rw [hresultsOf]
      exact nodup_resultsOf distinct
    rw [dispatchHook_ok h, dispatchHook_ok h', composeHookDecision, composeHookDecision]
    rw [orderResults_perm options.localeCompare hresults hnodup]
    rfl

theorem neverWeakened_of_completes (distinct : (options.providers.map (·.provider)).Nodup)
    (h : Completes event options) : NeverWeakened event options := by
  have hstrongest := composeHookDecision_strongest options.localeCompare (decideHook event options)
    (resultsOf event options)
  rw [authoritativeActions_resultsOf, ← dispatchHook_ok (gatherResults_of_completes h)] at hstrongest
  exact ⟨hstrongest.2 _ List.mem_cons_self, hstrongest, fun _ hperm => dispatchHook_perm distinct hperm⟩

/-- A dispatch that completes is never weakened; the failure mode of the operation decides every
other, and neither depends on the order of the providers. -/
theorem dispatch_never_weakened (event : HookEvent) (options : HookDispatchOptions)
    (distinct : (options.providers.map (·.provider)).Nodup) :
    (Completes event options → NeverWeakened event options) ∧
      (¬ Completes event options → (dispatchHook event options).decision =
        if resolveFailureMode options.policy event.operation = some .isClosed then .deny
        else .allow) ∧
      ∀ providers, options.providers.Perm providers →
        dispatchHook event { options with providers } = dispatchHook event options := by
  refine ⟨neverWeakened_of_completes distinct, fun hfails => ?_, fun _ hperm =>
    dispatchHook_perm distinct hperm⟩
  cases hgather : gatherResults event options with
  | ok results => exact absurd (completes_of_gatherResults hgather) hfails
  | error message => exact dispatchHook_error hgather

def enforcedRead : HookEvent where
  client := .claude
  operation := .sourceRead
  metadata := fun _ => none
  text := "\x7b\"version\":1,\"client\":\"claude\",\"operation\":\"source.read\"\x7d"

/-- The managed replacement is there. -/
def enforcedOptions (providers : List HookPolicyProvider) : HookDispatchOptions where
  policy := {
    mode := .enforce
    operationModes := fun _ => none
    failureModes := fun operation => match operation with
      | .sourceWrite | .processExec | .gitMutate => some .isClosed
      | _ => some .isOpen
    timeoutMs := 1000 }
  capabilities := fun _ _ =>
    some { replacement := "mottainai_read", available := true, identity := none }
  now := id
  sha256 := id
  localeCompare := compare
  providers := providers

def answering : List HookPolicyProvider := [
  { provider := .context, evaluate := fun _ _ => .threw none },
  { provider := .workflow
    evaluate := fun _ _ => .returned {
      provider := .workflow
      state := .authoritative
      reason := "workflow_worktree"
      action := some .deny } }]

theorem deniedRead_never_weakened : NeverWeakened enforcedRead (enforcedOptions answering) := by
  refine (dispatch_never_weakened enforcedRead (enforcedOptions answering) (by decide)).1 ⟨rfl, ?_⟩
  intro provider hprovider
  rcases List.mem_cons.mp hprovider with rfl | hprovider
  · intro h
    cases h
  · rw [List.mem_singleton.mp hprovider]
    intro h
    cases h

def unanswering : List HookPolicyProvider :=
  [{ provider := .workflow, evaluate := fun _ _ => .pending }]

theorem timedOutRead_weakened :
    ((enforcedOptions unanswering).providers.map (·.provider)).Nodup ∧
      ¬ NeverWeakened enforcedRead (enforcedOptions unanswering) := by
  refine ⟨by decide, fun h => ?_⟩
  have hbaseline : (decideHook enforcedRead (enforcedOptions unanswering)).decision = .redirect := by
    have hblank : JavaScriptValues.isBlank "mottainai_read" = false := by decide
    simp [decideHook, enforcedOptions, onManagedPath, hblank, resolveHookMode]
  have hfinal : (dispatchHook enforcedRead (enforcedOptions unanswering)).decision = .allow :=
    dispatchHook_error rfl
  have hle := h.1
  rw [hbaseline, hfinal] at hle
  exact absurd hle (by decide)

end Dispatch

end Mottainai.ManagedHooks

import Mottainai.PolicyResolution
import Mottainai.StateFingerprint

/-!
# Verification of a push

A push is planned after read-only checks of the request, of the branch's upstream, of the protected
branches, of the worktree and of the relation to the upstream. The verified context of the task is
an argument, as are the answers of git, one runner for each command: between two commands anything
may change. The target is the tracked upstream if and only if the upstream that git names for the
relation is the one that the request and the first answer of git lead to.
-/

namespace Mottainai.WorkflowGit

open JavaScriptValues JsonValues ValidationGovernor WorkflowPolicy

section ProtectedBranches

inductive WorkflowOperation where
  | sourceWrite | stage | commit | directPush | forcePush | destructiveBranchOp
  | repoSync | worktreeManagement
  deriving DecidableEq

structure ProtectedBranchRule where
  sourceWrite : RuleMode
  stage : RuleMode
  commit : RuleMode
  directPush : RuleMode
  forcePush : RuleMode
  destructiveBranchOp : RuleMode

def ProtectedBranchRule.mode? (rule : ProtectedBranchRule) : WorkflowOperation → Option RuleMode
  | .sourceWrite => some rule.sourceWrite
  | .stage => some rule.stage
  | .commit => some rule.commit
  | .directPush => some rule.directPush
  | .forcePush => some rule.forcePush
  | .destructiveBranchOp => some rule.destructiveBranchOp
  | .repoSync => none
  | .worktreeManagement => none

inductive ControlPlaneRole where
  | primaryCheckout | any
  deriving DecidableEq

structure WorkflowPolicyDocument where
  protectedBranches : List String
  protectedBranchRule : ProtectedBranchRule
  controlPlaneRole : ControlPlaneRole

structure ProtectedBranchMatch where
  matched : Bool
  pattern : Option String

def unmatched : ProtectedBranchMatch := { matched := false, pattern := none }

/-- `patternToRegExp`: each `*` is `.*`, and the other characters stand for themselves. -/
def patternTokens (pattern : String) : List GlobToken :=
  (pattern.toList.flatMap utf16).map fun unit =>
    if unit = star then .anything else .literal unit

def matchesProtectedBranch (branch : String) (patterns : List String) : ProtectedBranchMatch :=
  match patterns.find? fun pattern =>
      matchTokens (patternTokens pattern) (branch.toList.flatMap utf16) with
  | some pattern => { matched := true, pattern := some pattern }
  | none => unmatched

inductive ProtectedBranchDecisionReason where
  | notProtected | ruleOff | ruleAdvisory | ruleActive | controlPlaneManagementAllowed
  | controlPlaneSourceDenied | detachedHeadTreatedAsUnprotected
  deriving DecidableEq

def ProtectedBranchDecisionReason.text : ProtectedBranchDecisionReason → String
  | .notProtected => "not-protected"
  | .ruleOff => "rule-off"
  | .ruleAdvisory => "rule-advisory"
  | .ruleActive => "rule-active"
  | .controlPlaneManagementAllowed => "control-plane-management-allowed"
  | .controlPlaneSourceDenied => "control-plane-source-denied"
  | .detachedHeadTreatedAsUnprotected => "detached-head-treated-as-unprotected"

structure ProtectedBranchDecision where
  allowed : Bool
  operation : WorkflowOperation
  mode : RuleMode
  branchMatch : ProtectedBranchMatch
  reason : ProtectedBranchDecisionReason

def isSourceChangeOperation (operation : WorkflowOperation) : Bool :=
  operation = .sourceWrite || operation = .stage || operation = .commit

def modeAllows (mode : RuleMode) : Bool := mode = .off || mode = .advisory

def decideBranch (policy : WorkflowPolicyDocument) (branch : Option String)
    (operation : WorkflowOperation) (mode : RuleMode) : ProtectedBranchDecision :=
  match branch with
  | none =>
    { allowed := true, operation := operation, mode := .off, branchMatch := unmatched
      reason := .detachedHeadTreatedAsUnprotected }
  | some branch =>
    let branchMatch := matchesProtectedBranch branch policy.protectedBranches
    if branchMatch.matched = false then
      { allowed := true, operation := operation, mode := .off, branchMatch := branchMatch
        reason := .notProtected }
    else if modeAllows mode then
      { allowed := true, operation := operation, mode := mode, branchMatch := branchMatch
        reason := if mode = .advisory then .ruleAdvisory else .ruleOff }
    else
      { allowed := false, operation := operation, mode := mode, branchMatch := branchMatch
        reason := .ruleActive }

def decideProtectedBranchOperation (policy : WorkflowPolicyDocument) (branch : Option String)
    (operation : WorkflowOperation) (isPrimaryCheckout : Bool) : ProtectedBranchDecision :=
  match policy.protectedBranchRule.mode? operation with
  | none =>
    { allowed := true, operation := operation, mode := .off, branchMatch := unmatched
      reason := .controlPlaneManagementAllowed }
  | some mode =>
    if policy.controlPlaneRole = .primaryCheckout ∧ isPrimaryCheckout ∧
        isSourceChangeOperation operation then
      { allowed := false, operation := operation, mode := .enforce, branchMatch := unmatched
        reason := .controlPlaneSourceDenied }
    else decideBranch policy branch operation mode

end ProtectedBranches

section Inputs

structure PushPolicyControls where
  allowDirtyWorktree : Option Bool
  allowUpstreamCreation : Option Bool
  allowRemoteBehind : Option Bool
  allowDiverged : Option Bool
  allowForcePush : Option Bool
  allowProtectedBranch : Option Bool
  requiredValidationEvidence : Option (List String)

structure ValidationEvidence where
  name : String
  status : String

/-- `PushOperationInput`, with what its store lists for an instance and a commit. -/
structure PushOperationInput where
  policy : WorkflowPolicyDocument
  pushPolicy : Option PushPolicyControls
  remote : Option String
  remoteBranch : Option String
  force : Option Bool
  createUpstream : Option Bool
  listValidationEvidence : String → String → List ValidationEvidence

def PushOperationInput.allows (input : PushOperationInput)
    (control : PushPolicyControls → Option Bool) : Prop :=
  input.pushPolicy.bind control = some true

instance (input : PushOperationInput) (control : PushPolicyControls → Option Bool) :
    Decidable (input.allows control) := by
  unfold PushOperationInput.allows
  infer_instance

/-- `VerifiedWorkflowContext`, as far as a push reads it. -/
structure VerifiedWorkflowContext where
  instanceId : String
  workspaceRoot : String
  branch : String
  isPrimaryCheckout : Bool
  headCommit : String
  deriving DecidableEq

structure BoundedPathList where
  paths : List String
  truncated : Bool
  deriving DecidableEq

structure PushFailure where
  code : String
  detail : String
  dirtyPaths : Option BoundedPathList := none
  missingEvidence : Option (List String) := none
  gitCode : Option String := none
  deriving DecidableEq

inductive RemoteRelation where
  | noUpstream | upToDate | ahead | behind | diverged
  deriving DecidableEq

structure PushVerificationSuccess where
  context : VerifiedWorkflowContext
  remote : String
  remoteBranch : String
  relation : RemoteRelation
  dirtyPaths : BoundedPathList
  force : Bool
  createUpstream : Bool
  pushArguments : List String
  deriving DecidableEq

structure PushAnswers where
  upstream : GitRunner
  refFormat : GitRunner
  status : GitRunner
  upstreamAgain : GitRunner
  relation : GitRunner

end Inputs

section Checks

def pathReportLimit : ℕ := 32

def boundPaths (paths : List String) : BoundedPathList :=
  let uniquePaths := sortKeys (firstOccurrences paths)
  { paths := uniquePaths.take pathReportLimit
    truncated := pathReportLimit < uniquePaths.length }

def isAsciiAlphanumeric (c : Char) : Bool :=
  'A' ≤ c && c ≤ 'Z' || 'a' ≤ c && c ≤ 'z' || '0' ≤ c && c ≤ '9'

/-- `SAFE_REMOTE_NAME.test(remote)`. -/
def isSafeRemoteName (remote : String) : Bool :=
  match remote.toList with
  | [] => false
  | c :: cs => isAsciiAlphanumeric c &&
      cs.all fun c => isAsciiAlphanumeric c || c = '.' || c = '_' || c = '-'

def inspectionFailure (result : RunResult) : PushFailure :=
  let failure := gitCommandFailure result
  { code := "remote-inspection-failed", detail := failure.detail, gitCode := some failure.reason }

def resolveUpstream (git : GitRunner) : Except PushFailure (Option String) :=
  let result := git ["rev-parse", "--abbrev-ref", "--symbolic-full-name", "@\x7bupstream\x7d"]
  if result.usable = false then .error (inspectionFailure result)
  else if result.exitCode ≠ some 0 then .ok none
  else
    let upstream := ExecutionManifests.trim result.stdout
    if upstream = "" ∨ '/' ∉ upstream.toList then
      .error { code := "remote-inspection-failed"
               detail := "upstream reference has an unexpected format" }
    else .ok (some upstream)

structure UpstreamTarget where
  remote : String
  branch : String
  deriving DecidableEq

def splitUpstream (upstream : String) : Option UpstreamTarget :=
  let remote := upstream.toList.takeWhile (· ≠ '/')
  let branch := (upstream.toList.drop remote.length).drop 1
  if remote = [] ∨ branch = [] then none
  else some { remote := String.ofList remote, branch := String.ofList branch }

def validateRemoteBranch (git : GitRunner) (branch : String) : Except PushFailure Unit :=
  let result := git ["check-ref-format", "--branch", branch]
  if result.usable = false then .error (inspectionFailure result)
  else require (result.exitCode = some 0)
    { code := "invalid-remote-branch", detail := "git rejected the remote branch name" }

/-- The parts of a text that `split` gives at each run of white space, where none is at an end. -/
def splitWhiteSpace (text : String) : List String :=
  if text = "" then [""]
  else ((text.toList.splitOnP isWhiteSpace).filter (· ≠ [])).map String.ofList

def relationOf (ahead behind : ℕ) : RemoteRelation :=
  if 0 < ahead ∧ 0 < behind then .diverged
  else if 0 < behind then .behind
  else if 0 < ahead then .ahead
  else .upToDate

/-- `readRemoteRelation`. The natural number that `Number` makes of a text, if it is one, is given
by a function. -/
def readRemoteRelation (number : String → Option ℕ) (upstreamAgain relation : GitRunner) :
    Except PushFailure RemoteRelation := do
  match ← resolveUpstream upstreamAgain with
  | none => return .noUpstream
  | some _ =>
    let result := relation ["rev-list", "--left-right", "--count", "HEAD...@\x7bupstream\x7d"]
    require result.succeeded (inspectionFailure result)
    match (splitWhiteSpace (ExecutionManifests.trim result.stdout)).map number with
    | [some ahead, some behind] => return relationOf ahead behind
    | _ => throw { code := "remote-inspection-failed"
                   detail := "remote ancestry counts were not numeric" }

variable (input : PushOperationInput) (context : VerifiedWorkflowContext)

def missingEvidence : List String :=
  let required := (input.pushPolicy.bind (·.requiredValidationEvidence)).getD []
  let recorded := input.listValidationEvidence context.instanceId context.headCommit
  let passed := (recorded.filter (·.status = "passed")).map (·.name)
  (firstOccurrences required).filter (· ∉ passed)

def requiredEvidenceFailure : Except PushFailure Unit :=
  require (missingEvidence input context = [])
    { code := "missing-validation-evidence"
      detail := "required validation evidence is missing, failed, or was not recorded " ++
        "against the current HEAD commit"
      missingEvidence := some (missingEvidence input context) }

def pushOperation (force : Bool) : WorkflowOperation := if force then .forcePush else .directPush

def protectedBranchFailure (remoteBranch : String) (force : Bool) : Except PushFailure Unit :=
  if (matchesProtectedBranch remoteBranch input.policy.protectedBranches).matched = false then .ok ()
  else do
    require (input.allows (·.allowProtectedBranch))
      { code := "protected-branch"
        detail := s!"push to protected branch {remoteBranch} requires explicit " ++
          "allowProtectedBranch policy" }
    let decision := decideProtectedBranchOperation input.policy (some remoteBranch)
      (pushOperation force) context.isPrimaryCheckout
    require decision.allowed
      { code := "protected-branch"
        detail := s!"push to protected branch {remoteBranch} denied: {decision.reason.text}" }

def relationFailure (relation : RemoteRelation) (force : Bool) : Except PushFailure Unit :=
  match relation with
  | .behind => require (input.allows (·.allowRemoteBehind))
      { code := "remote-behind", detail := "remote contains commits not present locally" }
  | .diverged => do
    require (input.allows (·.allowDiverged))
      { code := "remote-diverged", detail := "local and remote histories have diverged" }
    require (force = true)
      { code := "force-required-for-diverged"
        detail := "diverged history requires an explicitly requested force push" }
  | _ => .ok ()

def upstreamCreationFailure (relation : RemoteRelation) : Except PushFailure Unit :=
  if relation = .noUpstream then do
    require (input.createUpstream = some true)
      { code := "upstream-missing"
        detail := "branch has no upstream; upstream creation must be requested explicitly" }
    require (input.allows (·.allowUpstreamCreation))
      { code := "upstream-creation-disabled"
        detail := "upstream creation is disabled by push policy" }
  else require (input.createUpstream ≠ some true)
    { code := "upstream-target-mismatch"
      detail := "upstream already exists; creation request is not applicable" }

/-- The target of the upstream that was found, which the request must not contradict. -/
def checkedTarget (upstream : Option String) : Except PushFailure (Option UpstreamTarget) :=
  match upstream with
  | none => .ok none
  | some upstream =>
    match splitUpstream upstream with
    | none => .error { code := "remote-inspection-failed"
                       detail := "upstream reference could not be split into remote and branch" }
    | some target => do
      require (input.remote.all (· = target.remote) ∧ input.remoteBranch.all (· = target.branch))
        { code := "upstream-target-mismatch"
          detail := "requested push target differs from the tracked upstream" }
      return some target

def readDirtyPaths (git : GitRunner) : Except PushFailure BoundedPathList :=
  match readGitStatus git with
  | .error failure => .error { code := failure.reason, detail := failure.detail }
  | .ok entries => do
    let dirtyPaths := boundPaths (entries.map (·.path))
    require (entries = [] ∨ input.allows (·.allowDirtyWorktree))
      { code := "dirty-worktree", detail := "push requires a clean worktree under the current policy"
        dirtyPaths := some dirtyPaths }
    return dirtyPaths

def requestedRemote : String := input.remote.getD "origin"

def chosenBranch (target : Option UpstreamTarget) : String :=
  (input.remoteBranch.or (target.map (·.branch))).getD context.branch

def pushArguments (force : Bool) (relation : RemoteRelation) (remote remoteBranch : String) :
    List String :=
  ["push"] ++ (if force then ["--force-with-lease"] else []) ++
    (if relation = .noUpstream then ["--set-upstream"] else []) ++
      [remote, "HEAD:refs/heads/" ++ remoteBranch]

/-- `verifyPush`, from the context that was verified. -/
def verifyPush (number : String → Option ℕ) (answers : PushAnswers) :
    Except PushFailure PushVerificationSuccess := do
  require (isSafeRemoteName (requestedRemote input))
    { code := "invalid-remote"
      detail := "remote must be a local Git remote name without URL or credential syntax" }
  let target ← checkedTarget input (← resolveUpstream answers.upstream)
  let remoteBranch := chosenBranch input context target
  validateRemoteBranch answers.refFormat remoteBranch
  let force := decide (input.force = some true)
  protectedBranchFailure input context remoteBranch force
  let dirtyPaths ← readDirtyPaths input answers.status
  requiredEvidenceFailure input context
  require (force = true → input.allows (·.allowForcePush))
    { code := "force-disabled"
      detail := "force push was requested but the push policy does not permit it" }
  let relation ← readRemoteRelation number answers.upstreamAgain answers.relation
  upstreamCreationFailure input relation
  relationFailure input relation force
  return { context := context, remote := requestedRemote input, remoteBranch := remoteBranch
           relation := relation, dirtyPaths := dirtyPaths, force := force
           createUpstream := relation = .noUpstream
           pushArguments := pushArguments force relation (requestedRemote input) remoteBranch }

end Checks

variable {number : String → Option ℕ} {input : PushOperationInput}
  {context : VerifiedWorkflowContext} {answers : PushAnswers} {verified : PushVerificationSuccess}

section Properties

/-- The plan of a push is what was verified, and what the policy and the request allow. -/
structure GoesWhereVerified (number : String → Option ℕ) (input : PushOperationInput)
    (context : VerifiedWorkflowContext) (answers : PushAnswers)
    (verified : PushVerificationSuccess) : Prop where
  arguments : ∃ flags, verified.pushArguments =
      "push" :: flags ++ [verified.remote, "HEAD:refs/heads/" ++ verified.remoteBranch] ∧
    flags ⊆ ["--force-with-lease", "--set-upstream"] ∧
    ("--force-with-lease" ∈ flags ↔ verified.force = true) ∧
    ("--set-upstream" ∈ flags ↔ verified.createUpstream = true)
  relation : readRemoteRelation number answers.upstreamAgain answers.relation =
    .ok verified.relation
  upstream : ∀ upstream, resolveUpstream answers.upstreamAgain = .ok (some upstream) →
    splitUpstream upstream = some { remote := verified.remote, branch := verified.remoteBranch }
  protection : (decideProtectedBranchOperation input.policy (some verified.remoteBranch)
    (if verified.force then .forcePush else .directPush) context.isPrimaryCheckout).allowed = true
  force : verified.force = true → input.allows (·.allowForcePush)
  behind : verified.relation = .behind → input.allows (·.allowRemoteBehind)
  diverged : verified.relation = .diverged →
    input.allows (·.allowDiverged) ∧ verified.force = true
  created : verified.createUpstream = true →
    resolveUpstream answers.upstreamAgain = .ok none ∧
      input.createUpstream = some true ∧ input.allows (·.allowUpstreamCreation)

structure AsRequested (input : PushOperationInput) (context : VerifiedWorkflowContext)
    (answers : PushAnswers) (target : UpstreamTarget) : Prop where
  remote : target.remote = input.remote.getD "origin"
  tracked : ∀ upstream first, resolveUpstream answers.upstream = .ok (some upstream) →
    splitUpstream upstream = some first → target.branch = first.branch
  untracked : resolveUpstream answers.upstream = .ok none →
    target.branch = input.remoteBranch.getD context.branch

/-- An upstream that git names for the relation has the requested target. -/
def KeepsUpstream (input : PushOperationInput) (context : VerifiedWorkflowContext)
    (answers : PushAnswers) : Prop :=
  ∀ upstream, resolveUpstream answers.upstreamAgain = .ok (some upstream) →
    ∃ target, splitUpstream upstream = some target ∧ AsRequested input context answers target

end Properties

section Checks

variable {target : Option UpstreamTarget} {force : Bool}

theorem checkedTarget_none (h : checkedTarget input none = .ok target) : target = none :=
  (Except.ok.inj h).symm

theorem checkedTarget_some {upstream : String}
    (h : checkedTarget input (some upstream) = .ok target) :
    ∃ first, target = some first ∧ splitUpstream upstream = some first ∧
      ∀ branch, input.remoteBranch = some branch → branch = first.branch := by
  unfold checkedTarget at h
  cases hsplit : splitUpstream upstream with
  | none => simp [hsplit] at h
  | some first =>
    simp only [hsplit] at h
    obtain ⟨_, hmatch, htarget⟩ := bind_eq_ok.mp h
    rw [require_eq_ok] at hmatch
    refine ⟨first, (Except.ok.inj htarget).symm, rfl, fun branch hbranch => ?_⟩
    have hall := hmatch.2
    rw [hbranch] at hall
    simpa using hall

theorem relationOf_ne_noUpstream (ahead behind : ℕ) : relationOf ahead behind ≠ .noUpstream := by
  unfold relationOf
  split_ifs <;> simp

theorem readRemoteRelation_noUpstream {upstreamAgain relation : GitRunner}
    (h : readRemoteRelation number upstreamAgain relation = .ok .noUpstream) :
    resolveUpstream upstreamAgain = .ok none := by
  obtain ⟨upstream, hupstream, h⟩ := bind_eq_ok.mp h
  cases upstream with
  | none => exact hupstream
  | some upstream =>
    obtain ⟨_, -, h⟩ := bind_eq_ok.mp h
    split at h
    · exact absurd (Except.ok.inj h) (relationOf_ne_noUpstream _ _)
    · cases h

theorem protectedBranchFailure_ok {remoteBranch : String}
    (h : protectedBranchFailure input context remoteBranch force = .ok ()) :
    (decideProtectedBranchOperation input.policy (some remoteBranch) (pushOperation force)
      context.isPrimaryCheckout).allowed = true := by
  unfold protectedBranchFailure at h
  split_ifs at h with hmatched
  · cases force <;>
      simp [decideProtectedBranchOperation, ProtectedBranchRule.mode?, pushOperation,
        isSourceChangeOperation, decideBranch, hmatched]
  · obtain ⟨_, -, hallowed⟩ := bind_eq_ok.mp h
    exact require_eq_ok.mp hallowed

theorem relationFailure_behind (h : relationFailure input .behind force = .ok ()) :
    input.allows (·.allowRemoteBehind) :=
  require_eq_ok.mp h

theorem relationFailure_diverged (h : relationFailure input .diverged force = .ok ()) :
    input.allows (·.allowDiverged) ∧ force = true := by
  obtain ⟨_, hallows, hforce⟩ := bind_eq_ok.mp h
  exact ⟨require_eq_ok.mp hallows, require_eq_ok.mp hforce⟩

theorem upstreamCreationFailure_noUpstream
    (h : upstreamCreationFailure input .noUpstream = .ok ()) :
    input.createUpstream = some true ∧ input.allows (·.allowUpstreamCreation) := by
  obtain ⟨_, hrequested, hallows⟩ := bind_eq_ok.mp h
  exact ⟨require_eq_ok.mp hrequested, require_eq_ok.mp hallows⟩

theorem pushArguments_flags (force : Bool) (relation : RemoteRelation) (remote branch : String) :
    ∃ flags, pushArguments force relation remote branch =
        "push" :: flags ++ [remote, "HEAD:refs/heads/" ++ branch] ∧
      flags ⊆ ["--force-with-lease", "--set-upstream"] ∧
      ("--force-with-lease" ∈ flags ↔ force = true) ∧
      ("--set-upstream" ∈ flags ↔ decide (relation = .noUpstream) = true) := by
  refine ⟨(if force then ["--force-with-lease"] else []) ++
    (if relation = .noUpstream then ["--set-upstream"] else []), ?_, ?_, ?_, ?_⟩
  · simp [pushArguments]
  all_goals
    cases force <;> by_cases hrelation : relation = .noUpstream <;> simp [hrelation]

end Checks

section Plans

structure Checked (number : String → Option ℕ) (input : PushOperationInput)
    (context : VerifiedWorkflowContext) (answers : PushAnswers) (first : Option String)
    (target : Option UpstreamTarget) (relation : RemoteRelation) : Prop where
  resolved : resolveUpstream answers.upstream = .ok first
  accepted : checkedTarget input first = .ok target
  protection : protectedBranchFailure input context (chosenBranch input context target)
    (input.force = some true) = .ok ()
  force : decide (input.force = some true) = true → input.allows (·.allowForcePush)
  inspected : readRemoteRelation number answers.upstreamAgain answers.relation = .ok relation
  creation : upstreamCreationFailure input relation = .ok ()
  related : relationFailure input relation (input.force = some true) = .ok ()

theorem verifyPush_ok (h : verifyPush input context number answers = .ok verified) :
    ∃ first target relation dirtyPaths,
      Checked number input context answers first target relation ∧
        verified =
          { context := context, remote := requestedRemote input
            remoteBranch := chosenBranch input context target
            relation := relation, dirtyPaths := dirtyPaths, force := input.force = some true
            createUpstream := relation = .noUpstream
            pushArguments := pushArguments (input.force = some true) relation
              (requestedRemote input) (chosenBranch input context target) } := by
  obtain ⟨_, -, h⟩ := bind_eq_ok.mp h
  obtain ⟨first, hfirst, h⟩ := bind_eq_ok.mp h
  obtain ⟨target, htarget, h⟩ := bind_eq_ok.mp h
  obtain ⟨_, -, h⟩ := bind_eq_ok.mp h
  obtain ⟨_, hprotection, h⟩ := bind_eq_ok.mp h
  obtain ⟨dirtyPaths, -, h⟩ := bind_eq_ok.mp h
  obtain ⟨_, -, h⟩ := bind_eq_ok.mp h
  obtain ⟨_, hforce, h⟩ := bind_eq_ok.mp h
  obtain ⟨relation, hrelation, h⟩ := bind_eq_ok.mp h
  obtain ⟨_, hcreation, h⟩ := bind_eq_ok.mp h
  obtain ⟨_, hrelated, h⟩ := bind_eq_ok.mp h
  exact ⟨first, target, relation, dirtyPaths,
    ⟨hfirst, htarget, hprotection, require_eq_ok.mp hforce, hrelation, hcreation, hrelated⟩,
    (Except.ok.inj h).symm⟩

theorem chosenBranch_eq {first : Option String} {target : Option UpstreamTarget}
    {relation : RemoteRelation}
    (h : Checked number input context answers first target relation) (branch : String) :
    branch = chosenBranch input context target ↔
      (∀ upstream t, resolveUpstream answers.upstream = .ok (some upstream) →
        splitUpstream upstream = some t → branch = t.branch) ∧
      (resolveUpstream answers.upstream = .ok none →
        branch = input.remoteBranch.getD context.branch) := by
  rw [h.resolved]
  cases first with
  | none =>
    have htarget := checkedTarget_none h.accepted
    have hchosen : chosenBranch input context target = input.remoteBranch.getD context.branch := by
      rw [htarget, chosenBranch]
      cases input.remoteBranch <;> rfl
    rw [hchosen]
    constructor
    · intro hbranch
      exact ⟨fun _ _ hsome => (by cases hsome), fun _ => hbranch⟩
    · intro hboth
      exact hboth.2 rfl
  | some upstream =>
    obtain ⟨t, htarget, hsplit, hrequested⟩ := checkedTarget_some h.accepted
    have hchosen : chosenBranch input context target = t.branch := by
      rw [htarget, chosenBranch]
      cases hbranch : input.remoteBranch with
      | none => rfl
      | some branch => exact hrequested branch hbranch
    rw [hchosen]
    constructor
    · intro hbranch
      refine ⟨fun upstream' t' hupstream ht' => ?_, fun hnone => (by cases hnone)⟩
      obtain rfl : upstream = upstream' := Option.some.inj (Except.ok.inj hupstream)
      obtain rfl := Option.some.inj (hsplit.symm.trans ht')
      exact hbranch
    · intro hboth
      exact hboth.1 upstream t rfl hsplit

/-- A verified push goes where it was verified if and only if the upstream that git names for the
relation has the requested target. -/
theorem verifyPush_target_iff (number : String → Option ℕ) (input : PushOperationInput)
    (context : VerifiedWorkflowContext) (answers : PushAnswers)
    (verified : PushVerificationSuccess)
    (h : verifyPush input context number answers = .ok verified) :
    GoesWhereVerified number input context answers verified ↔
      KeepsUpstream input context answers := by
  obtain ⟨first, target, relation, dirtyPaths, hchecked, rfl⟩ := verifyPush_ok h
  constructor
  · intro hgoes upstream hupstream
    have hsplit := hgoes.upstream upstream hupstream
    obtain ⟨htracked, huntracked⟩ := (chosenBranch_eq hchecked _).mp rfl
    exact ⟨_, hsplit, rfl, htracked, huntracked⟩
  · intro hkeeps
    refine ⟨pushArguments_flags _ _ _ _, hchecked.inspected, fun upstream hupstream => ?_, ?_,
      hchecked.force, fun hbehind => ?_, fun hdiverged => ?_, fun hcreated => ?_⟩
    · obtain ⟨⟨remote, branch⟩, hsplit, hremote, htracked, huntracked⟩ := hkeeps upstream hupstream
      have hbranch : branch = chosenBranch input context target :=
        (chosenBranch_eq hchecked branch).mpr ⟨htracked, huntracked⟩
      rw [hsplit, ← hbranch]
      exact congrArg (fun remote => some (UpstreamTarget.mk remote branch)) hremote
    · exact protectedBranchFailure_ok hchecked.protection
    · obtain rfl : relation = .behind := hbehind
      exact relationFailure_behind hchecked.related
    · obtain rfl : relation = .diverged := hdiverged
      exact relationFailure_diverged hchecked.related
    · obtain rfl : relation = .noUpstream := of_decide_eq_true hcreated
      exact ⟨readRemoteRelation_noUpstream hchecked.inspected,
        upstreamCreationFailure_noUpstream hchecked.creation⟩

end Plans

section Runs

/-- `Number`, on texts of decimal digits. -/
def decimalNumber (text : String) : Option ℕ :=
  if text.toList ≠ [] ∧ text.toList.all (fun c => '0' ≤ c && c ≤ '9') then
    some (text.toList.foldl (fun n c => 10 * n + (c.toNat - '0'.toNat)) 0)
  else none

/-- Answers of git in a clean worktree, one commit ahead of an upstream. -/
def trackingGit (upstream : String) : GitRunner := fun command =>
  { stdout := match command.head? with
      | some "rev-parse" => upstream ++ "\n"
      | some "rev-list" => "1\t0\n"
      | _ => ""
    exitCode := some 0 }

def trackingAnswers (upstream : String) : PushAnswers :=
  { upstream := trackingGit upstream, refFormat := trackingGit upstream
    status := trackingGit upstream, upstreamAgain := trackingGit upstream
    relation := trackingGit upstream }

def enforcedRule : ProtectedBranchRule :=
  { sourceWrite := .enforce, stage := .enforce, commit := .enforce, directPush := .enforce
    forcePush := .enforce, destructiveBranchOp := .enforce }

/-- A request that names nothing, with `main` protected. -/
def plainPush : PushOperationInput :=
  { policy := { protectedBranches := ["main"], protectedBranchRule := enforcedRule
                controlPlaneRole := .any }
    pushPolicy := none, remote := none, remoteBranch := none, force := none
    createUpstream := none, listValidationEvidence := fun _ _ => [] }

def taskContext : VerifiedWorkflowContext :=
  { instanceId := "instance", workspaceRoot := "/work", branch := "fix/one"
    isPrimaryCheckout := false, headCommit := "c0ffee" }

def plainPlan : PushVerificationSuccess :=
  { context := taskContext, remote := "origin", remoteBranch := "fix/one", relation := .ahead
    dirtyPaths := { paths := [], truncated := false }, force := false, createUpstream := false
    pushArguments := ["push", "origin", "HEAD:refs/heads/fix/one"] }

theorem verifyPush_tracking : verifyPush plainPush taskContext decimalNumber
    (trackingAnswers "origin/fix/one") = .ok plainPlan := by
  decide

theorem verifyPush_fork : verifyPush plainPush taskContext decimalNumber
    (trackingAnswers "fork/fix/one") = .ok plainPlan := by
  decide

theorem resolveUpstream_tracking : resolveUpstream (trackingGit "origin/fix/one") =
    .ok (some "origin/fix/one") := by
  decide

theorem resolveUpstream_fork : resolveUpstream (trackingGit "fork/fix/one") =
    .ok (some "fork/fix/one") := by
  decide

theorem splitUpstream_origin : splitUpstream "origin/fix/one" =
    some { remote := "origin", branch := "fix/one" } := by
  decide

theorem splitUpstream_fork : splitUpstream "fork/fix/one" =
    some { remote := "fork", branch := "fix/one" } := by
  decide

/-- An upstream of `origin` is pushed to. -/
theorem push_origin : GoesWhereVerified decimalNumber plainPush taskContext
    (trackingAnswers "origin/fix/one") plainPlan := by
  refine (verifyPush_target_iff decimalNumber plainPush taskContext
    (trackingAnswers "origin/fix/one") plainPlan verifyPush_tracking).mpr ?_
  intro upstream hupstream
  obtain rfl : "origin/fix/one" = upstream :=
    Option.some.inj (Except.ok.inj (resolveUpstream_tracking.symm.trans hupstream))
  refine ⟨_, splitUpstream_origin, rfl, fun upstream first hfirst hsplit => ?_, fun hnone => ?_⟩
  · obtain rfl : "origin/fix/one" = upstream :=
      Option.some.inj (Except.ok.inj (resolveUpstream_tracking.symm.trans hfirst))
    exact congrArg UpstreamTarget.branch (Option.some.inj (splitUpstream_origin.symm.trans hsplit))
  · cases resolveUpstream_tracking.symm.trans hnone

/-- An upstream of another remote is inspected, and `origin` is pushed to. -/
theorem push_fork : ¬ ∀ (number : String → Option ℕ) (input : PushOperationInput)
    (context : VerifiedWorkflowContext) (answers : PushAnswers)
    (verified : PushVerificationSuccess),
    verifyPush input context number answers = .ok verified →
      GoesWhereVerified number input context answers verified := by
  intro hgoes
  have hfork := (hgoes decimalNumber plainPush taskContext (trackingAnswers "fork/fix/one") plainPlan
    verifyPush_fork).upstream "fork/fix/one" resolveUpstream_fork
  have hremote := congrArg UpstreamTarget.remote
    (Option.some.inj (splitUpstream_fork.symm.trans hfork))
  exact absurd hremote (by decide)

end Runs

end Mottainai.WorkflowGit

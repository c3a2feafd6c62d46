import Mathlib.Data.List.Basic

/-!
# The task lifecycle

The states of an issue-bound task, the table of transitions between them, and the
check that a requested transition is in the table. The two states in which a task no
longer claims its issue, `abandoned` and `cleaned`, are closed under the table.
-/

namespace Mottainai.TaskLifecycle

/-- `LIFECYCLE_STATES`. -/
inductive LifecycleState where
  | planned
  | active
  | committed
  | pushed
  | pullRequestOpen
  | merged
  | abandoned
  | orphaned
  | cleaned
  deriving DecidableEq, Repr

open LifecycleState

/-- The text stored in `lifecycle_state`. -/
def LifecycleState.text : LifecycleState → String
  | planned => "planned"
  | active => "active"
  | committed => "committed"
  | pushed => "pushed"
  | pullRequestOpen => "pull-request-open"
  | merged => "merged"
  | abandoned => "abandoned"
  | orphaned => "orphaned"
  | cleaned => "cleaned"

/-- `TRANSITIONS`. -/
def transitions : LifecycleState → List LifecycleState
  | planned => [active, abandoned, orphaned]
  | active => [committed, abandoned, orphaned]
  | committed => [pushed, abandoned, orphaned]
  | pushed => [pullRequestOpen, abandoned, orphaned]
  | pullRequestOpen => [merged, abandoned, orphaned]
  | merged => [cleaned]
  | abandoned => [cleaned]
  | orphaned => [cleaned, active, abandoned]
  | cleaned => []

def allowedNextTransitions (state : LifecycleState) : List LifecycleState := transitions state

/-- `TransitionBlockedInfo`. -/
structure TransitionBlockedInfo where
  currentState : LifecycleState
  requestedTransition : LifecycleState
  blockingRule : String
  allowedNextTransitions : List LifecycleState
  deriving DecidableEq, Repr

/-- `TransitionValidation`. -/
inductive TransitionValidation where
  | allowed (source target : LifecycleState)
  | blocked (info : TransitionBlockedInfo)
  deriving DecidableEq, Repr

/-- `values.join(", ") || "(none)"`. -/
def joined (states : List LifecycleState) : String :=
  if states = [] then "(none)" else ", ".intercalate (states.map (·.text))

def blockingRuleFor (source target : LifecycleState) : String :=
  if (transitions source).length = 0 then
    s!"{source.text} is a terminal state; no further transitions are allowed"
  else if source = target then
    s!"{source.text} is already the current state; re-entrant transitions are not modeled"
  else
    s!"no direct transition from {source.text} to {target.text}; allowed: {joined (transitions source)}"

def validateTransition (source target : LifecycleState) : TransitionValidation :=
  if target ∈ transitions source then .allowed source target
  else .blocked
    { currentState := source
      requestedTransition := target
      blockingRule := blockingRuleFor source target
      allowedNextTransitions := allowedNextTransitions source }

def Edge (source target : LifecycleState) : Prop := target ∈ transitions source

instance (source target : LifecycleState) : Decidable (Edge source target) :=
  inferInstanceAs (Decidable (_ ∈ _))

/-- `lifecycle_state NOT IN ('cleaned', 'abandoned')`. -/
def LifecycleState.isOpen (state : LifecycleState) : Bool :=
  !(state = cleaned || state = abandoned)

variable {source target : LifecycleState}

/-- A task that gave up its issue never claims it again. -/
theorem Edge.isOpen_source (h : Edge source target) (hopen : target.isOpen = true) :
    source.isOpen = true := by
  cases source <;> first | rfl | (cases target <;> revert h hopen <;> decide)

theorem validateTransition_allowed (h : Edge source target) :
    validateTransition source target = .allowed source target := if_pos h

theorem validateTransition_blocked (h : ¬ Edge source target) :
    validateTransition source target = .blocked
      { currentState := source
        requestedTransition := target
        blockingRule := blockingRuleFor source target
        allowedNextTransitions := allowedNextTransitions source } := if_neg h

end Mottainai.TaskLifecycle

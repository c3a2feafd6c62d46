import Mathlib.Algebra.Order.Field.Rat
import Mottainai.JavaScriptValues
import Mottainai.OrderedMaps

/-!
# The registry of managed processes

The processes that a connection has started and not yet forgotten. An entry is active until the
registry has seen that its child exited; then it is terminal, and only the latest of these are kept.
A child exits at any time, and the callback attached to its exit runs later. Reaping is what every
call begins with: it kills no child whose lifetime has not passed, and after it no exit is unseen.
Readings of the clock need not be whole.
-/

namespace Mottainai.ManagedProcesses

open JavaScriptValues OrderedMaps

section Policies

structure ManagedProcessPolicy where
  maxActiveProcesses : ℕ
  maxRetainedHandles : ℕ
  maxLifetimeMs : ℕ

structure ManagedProcessPolicyConfig where
  maxActiveProcesses : Option ℤ
  maxRetainedHandles : Option ℤ
  maxLifetimeMs : Option ℤ

/-- `DEFAULT_MANAGED_PROCESS_POLICY`. -/
def defaultManagedProcessPolicy : ManagedProcessPolicy :=
  { maxActiveProcesses := 8, maxRetainedHandles := 32, maxLifetimeMs := 5 * 60 * 1000 }

/-- The greatest of each, as `MAX_ACTIVE_PROCESSES` and the constants beside it. -/
def maxManagedProcessPolicy : ManagedProcessPolicy :=
  { maxActiveProcesses := 1024, maxRetainedHandles := 4096, maxLifetimeMs := 2147483647 }

def minRetainedHandles : ℕ := 1

def boundedInteger (value : Option ℤ) (fallback : ℕ) (field : String) (minimum maximum : ℕ) :
    Except String ℕ := do
  let resolved := value.getD fallback
  require (isSafeInteger resolved ∧ minimum ≤ resolved ∧ resolved ≤ maximum)
    ("invalid managed process policy " ++ field)
  return resolved.toNat

def resolveManagedProcessPolicy (config : ManagedProcessPolicyConfig) :
    Except String ManagedProcessPolicy := do
  let maxActiveProcesses ← boundedInteger config.maxActiveProcesses
    defaultManagedProcessPolicy.maxActiveProcesses "maxActiveProcesses" 1
    maxManagedProcessPolicy.maxActiveProcesses
  let maxRetainedHandles ← boundedInteger config.maxRetainedHandles
    defaultManagedProcessPolicy.maxRetainedHandles "maxRetainedHandles" minRetainedHandles
    maxManagedProcessPolicy.maxRetainedHandles
  let maxLifetimeMs ← boundedInteger config.maxLifetimeMs
    defaultManagedProcessPolicy.maxLifetimeMs "maxLifetimeMs" 1
    maxManagedProcessPolicy.maxLifetimeMs
  return { maxActiveProcesses := maxActiveProcesses, maxRetainedHandles := maxRetainedHandles
           maxLifetimeMs := maxLifetimeMs }

end Policies

section Processes

structure RunResult where
  stdout : String
  stderr : String
  exitCode : Option ℤ
  signal : Option String
  timedOut : Bool
  outputLimit : Bool
  spawnError : Option String

structure ChildResult where
  stdout : String
  stderr : String
  exitCode : Option ℤ
  signal : Option String
  outputLimit : Bool
  spawnError : Option String

/-- What spawning a child comes to: it fails, or there is a child, with its process id. -/
inductive Spawn where
  | failed (message : String)
  | child (pid : Option ℕ)

inductive ManagedProcessState where
  | running | exited
  deriving DecidableEq

/-- `ManagedProcess`: its result once it has settled, and how often it was asked to be killed
before it had. -/
structure ManagedProcess where
  pid : Option ℕ
  timedOut : Bool
  settled : Option RunResult
  sigkills : ℕ

def ManagedProcess.new : Spawn → ManagedProcess
  | .failed message =>
      { pid := none, timedOut := false, sigkills := 0
        settled := some { stdout := "", stderr := "", exitCode := none, signal := none
                          timedOut := false, outputLimit := false
                          spawnError := some message } }
  | .child pid => { pid := pid, timedOut := false, settled := none, sigkills := 0 }

namespace ManagedProcess

def state (process : ManagedProcess) : ManagedProcessState :=
  if process.settled.isSome then .exited else .running

def forceTerminate (process : ManagedProcess) : ManagedProcess :=
  if process.settled.isSome then process else { process with sigkills := process.sigkills + 1 }

def expire (process : ManagedProcess) : ManagedProcess :=
  if process.settled.isSome then process else forceTerminate { process with timedOut := true }

def finish (result : ChildResult) (process : ManagedProcess) : ManagedProcess :=
  if process.settled.isSome then process
  else { process with
    settled := some { stdout := result.stdout, stderr := result.stderr
                      exitCode := result.exitCode, signal := result.signal
                      timedOut := process.timedOut, outputLimit := result.outputLimit
                      spawnError := result.spawnError } }

end ManagedProcess

end Processes

section Handles

/-- `HandleRegistry`, whose disposers act on a world outside of it. -/
structure HandleRegistry (T World : Type) where
  entries : OrderedMap String T
  disposers : OrderedMap String (T → World → World)

variable {T World : Type}

namespace HandleRegistry

def empty : HandleRegistry T World := ⟨.empty, .empty⟩

def handleOf (id : String) : String := "mh_" ++ id

def register (registry : HandleRegistry T World) (id : String) (value : T)
    (onDispose : T → World → World) : HandleRegistry T World :=
  { entries := registry.entries.set (handleOf id) value
    disposers := registry.disposers.set (handleOf id) onDispose }

def disposeOne (registry : HandleRegistry T World) (handle : String) (value : T)
    (world : World) : World :=
  match registry.disposers.get handle with
  | none => world
  | some onDispose => onDispose value world

def delete (registry : HandleRegistry T World) (handle : String) (world : World) :
    HandleRegistry T World × World :=
  match registry.entries.get handle with
  | none => (registry, world)
  | some value =>
      ({ entries := registry.entries.delete handle
         disposers := registry.disposers.delete handle },
       registry.disposeOne handle value world)

def dispose (registry : HandleRegistry T World) (world : World) :
    HandleRegistry T World × World :=
  (.empty,
   registry.entries.entries.foldl (fun world e => registry.disposeOne e.1 e.2 world) world)

end HandleRegistry

end Handles

section Registries

inductive ProcessEntryState where
  | active | terminal
  deriving DecidableEq

/-- `ProcessEntry`, of which `managed` is the number of the process. -/
structure ProcessEntry where
  managed : ℕ
  command : String
  cwd : String
  startedAt : ℚ
  state : ProcessEntryState
  expired : Bool
  lifetimeTimer : Bool

/-- The children, by their number. -/
abbrev Processes := List ManagedProcess

/-- The disposer that `start` registers. -/
def terminateManaged (managed : ℕ) (processes : Processes) : Processes :=
  processes.modify managed ManagedProcess.forceTerminate

structure ProcessRegistry where
  handles : HandleRegistry ℕ Processes
  entries : OrderedMap String ProcessEntry
  terminalOrder : List String
  policy : ManagedProcessPolicy
  activeCount : ℤ
  disposed : Bool

def ProcessRegistry.new (policy : ManagedProcessPolicy) : ProcessRegistry :=
  { handles := .empty, entries := .empty, terminalOrder := [], policy := policy, activeCount := 0
    disposed := false }

def ProcessRegistry.create (config : ManagedProcessPolicyConfig) :
    Except String ProcessRegistry :=
  (resolveManagedProcessPolicy config).map ProcessRegistry.new

/-- A registry, its children, and the callbacks on their exit that are still to run: each is
for the entry that was registered under a handle. -/
structure World where
  registry : ProcessRegistry
  processes : Processes
  callbacks : List (String × ℕ)

def World.initial (registry : ProcessRegistry) : World := ⟨registry, [], []⟩

namespace World

def managedState (world : World) (managed : ℕ) : Option ManagedProcessState :=
  world.processes[managed]?.map ManagedProcess.state

def get (world : World) (handle : String) : Option ProcessEntry :=
  world.registry.entries.get handle

def setEntry (world : World) (handle : String) (entry : ProcessEntry) : World :=
  { world with
    registry := { world.registry with entries := world.registry.entries.set handle entry } }

def forget (world : World) (handle : String) : World :=
  let deleted := world.registry.handles.delete handle world.processes
  { world with
    registry := { world.registry with
      entries := world.registry.entries.delete handle
      terminalOrder := world.registry.terminalOrder.erase handle
      handles := deleted.1 }
    processes := deleted.2 }

def forgetTerminal (world : World) (handle : String) : World :=
  match world.get handle with
  | none => world
  | some entry => if entry.state = .terminal then world.forget handle else world

/-- One turn of the loop of `trimTerminalHandles`. -/
def evictOldest (world : World) : World :=
  match world.registry.terminalOrder with
  | [] => world
  | handle :: rest =>
      forgetTerminal { world with registry := { world.registry with terminalOrder := rest } }
        handle

/-- The loop of `trimTerminalHandles`, which takes no more turns than there are handles. -/
def trimLoop : ℕ → World → World
  | 0, world => world
  | turns + 1, world =>
      if world.registry.policy.maxRetainedHandles < world.registry.terminalOrder.length then
        trimLoop turns world.evictOldest
      else world

def trimTerminalHandles (world : World) : World :=
  trimLoop world.registry.terminalOrder.length world

def recordTerminal (world : World) (handle : String) (entry : ProcessEntry) : World :=
  { world with
    registry := { world.registry with
      entries := world.registry.entries.set handle
        { entry with state := .terminal, lifetimeTimer := false }
      activeCount := world.registry.activeCount - 1
      terminalOrder := world.registry.terminalOrder ++ [handle] } }

/-- `markTerminal`, for the entry of a process. -/
def markTerminal (world : World) (handle : String) (managed : ℕ) : World :=
  if world.registry.disposed then world
  else match world.get handle with
    | none => world
    | some entry =>
        if entry.managed ≠ managed ∨ entry.state = .terminal then world
        else (world.recordTerminal handle entry).trimTerminalHandles

end World

def ProcessEntry.overdue (policy : ManagedProcessPolicy) (now : ℚ) (entry : ProcessEntry) : Bool :=
  !entry.expired && decide ((policy.maxLifetimeMs : ℚ) ≤ now - entry.startedAt)

namespace World

def expireEntry (world : World) (handle : String) (entry : ProcessEntry) : World :=
  { world.setEntry handle { entry with expired := true } with
    processes := world.processes.modify entry.managed ManagedProcess.expire }

/-- What the loop of `reap` does at an entry. -/
def reapEntry (now : ℚ) (world : World) (handle : String) : World :=
  match world.get handle with
  | none => world
  | some entry =>
      if entry.state = .terminal then world
      else if world.managedState entry.managed = some .exited then
        world.markTerminal handle entry.managed
      else if entry.overdue world.registry.policy now then world.expireEntry handle entry
      else world

def reap (now : ℚ) (world : World) : World :=
  if world.registry.disposed then world
  else (world.registry.entries.keys.foldl (reapEntry now) world).trimTerminalHandles

end World

end Registries

section Calls

inductive ProcessResourceErrorCode where
  | activeCapacityExceeded | registryDisposed
  deriving DecidableEq

def ProcessResourceErrorCode.text : ProcessResourceErrorCode → String
  | .activeCapacityExceeded => "managed_process_active_capacity_exceeded"
  | .registryDisposed => "managed_process_registry_disposed"

structure ManagedProcessResourceError where
  code : ProcessResourceErrorCode
  limit : ℕ
  activeCount : ℤ
  retainedCount : ℤ

def ManagedProcessResourceError.message (error : ManagedProcessResourceError) : String :=
  if error.code = .registryDisposed then "managed process registry is disposed"
  else "managed process resource limit exceeded"

structure StartedProcess where
  handle : String
  pid : Option ℕ

/-- What `start` is given: its arguments, what spawning the child comes to, the id that is drawn
for the handle, and the readings of the clock before and after. -/
structure StartCall where
  command : String
  cwd : String
  spawn : Spawn
  id : String
  reapedAt : ℚ
  startedAt : ℚ

def ProcessRegistry.retainedCount (registry : ProcessRegistry) : ℤ :=
  registry.entries.size - registry.activeCount

namespace World

/-- The entry, the handle and the process that `start` adds. -/
def register (world : World) (call : StartCall) : World :=
  let handle := HandleRegistry.handleOf call.id
  let managed := world.processes.length
  { registry := { world.registry with
      handles := world.registry.handles.register call.id managed terminateManaged
      entries := world.registry.entries.set handle
        { managed := managed, command := call.command, cwd := call.cwd
          startedAt := call.startedAt, state := .active, expired := false
          lifetimeTimer := false }
      activeCount := world.registry.activeCount + 1 }
    processes := world.processes ++ [ManagedProcess.new call.spawn]
    callbacks := world.callbacks ++ [(handle, managed)] }

def scheduleLifetime (world : World) (handle : String) : World :=
  match world.get handle with
  | none => world
  | some entry => world.setEntry handle { entry with lifetimeTimer := true }

/-- A child that could not be spawned has exited already. -/
def admitProcess (world : World) (call : StartCall) : World :=
  let handle := HandleRegistry.handleOf call.id
  let registered := world.register call
  if registered.managedState world.processes.length = some .exited then
    registered.markTerminal handle world.processes.length
  else registered.scheduleLifetime handle

def start (world : World) (call : StartCall) :
    Except ManagedProcessResourceError StartedProcess × World :=
  if world.registry.disposed then
    (.error { code := .registryDisposed, limit := 0, activeCount := 0, retainedCount := 0 }, world)
  else
    let reaped := world.reap call.reapedAt
    if (reaped.registry.policy.maxActiveProcesses : ℤ) ≤ reaped.registry.activeCount then
      (.error { code := .activeCapacityExceeded, limit := reaped.registry.policy.maxActiveProcesses
                activeCount := reaped.registry.activeCount
                retainedCount := reaped.registry.retainedCount }, reaped)
    else
      (.ok { handle := HandleRegistry.handleOf call.id
             pid := (ManagedProcess.new call.spawn).pid }, reaped.admitProcess call)

def has (world : World) (now : ℚ) (handle : String) : Bool × World :=
  let reaped := world.reap now
  ((reaped.get handle).isSome, reaped)

def describe (world : World) (now : ℚ) (handle : String) : Option (String × String) × World :=
  let reaped := world.reap now
  ((reaped.get handle).map fun entry => (entry.command, entry.cwd), reaped)

def release (world : World) (now : ℚ) (handle : String) : World :=
  let reaped := world.reap now
  match reaped.get handle with
  | none => reaped
  | some entry => if entry.state = .active then reaped else reaped.forget handle

def size (world : World) (now : ℚ) : ℕ × World :=
  let reaped := world.reap now
  (reaped.registry.entries.size, reaped)

def activeSize (world : World) (now : ℚ) : ℤ × World :=
  let reaped := world.reap now
  (reaped.registry.activeCount, reaped)

def retainedSize (world : World) (now : ℚ) : ℤ × World :=
  let reaped := world.reap now
  (reaped.registry.retainedCount, reaped)

/-- The timers are cancelled with the entries. -/
def dispose (world : World) : World :=
  if world.registry.disposed then world
  else
    let disposed := world.registry.handles.dispose world.processes
    { world with
      registry := { world.registry with
        disposed := true, handles := disposed.1, entries := .empty, terminalOrder := []
        activeCount := 0 }
      processes := disposed.2 }

end World

inductive AwaitOutcome where
  | terminal (result : RunResult) (elapsedMs : ℚ)
  | timeout (elapsedMs : ℚ)
  | awaitCancelled (elapsedMs : ℚ) (processState : ManagedProcessState)

/-- Where `awaitHandle` stands when it returns to its caller: the handle is not known, the
process has exited and its result is at hand, or the wait is on, since a time. -/
inductive Await where
  | unknown
  | finished (outcome : AwaitOutcome)
  | waiting (managed : ℕ) (startedAt : ℚ)

/-- What may end a wait. -/
inductive Wake where
  | settled | timer | abort

namespace World

/-- `awaitHandle`, until it has to wait. The clock is read when it reaps, when it starts to wait
and when it answers. -/
def awaitHandle (world : World) (now startedAt answeredAt : ℚ) (handle : String)
    (aborted : Bool) : Await × World :=
  let reaped := world.reap now
  match reaped.get handle with
  | none => (.unknown, reaped)
  | some entry =>
      match (reaped.processes[entry.managed]?).bind (·.settled) with
      | some result => (.finished (.terminal result (answeredAt - startedAt)), reaped)
      | none =>
          (if aborted then .finished (.awaitCancelled (answeredAt - startedAt) .running)
           else .waiting entry.managed startedAt, reaped)

/-- What a wait comes to when it is woken, if it ends: an exit that is there wins over a timer
and over an abort. -/
def wake (world : World) (now : ℚ) (managed : ℕ) (startedAt : ℚ) : Wake → Option AwaitOutcome
  | .settled => ((world.processes[managed]?).bind (·.settled)).map
      fun result => .terminal result (now - startedAt)
  | .timer => if world.managedState managed = some .exited then none
      else some (.timeout (now - startedAt))
  | .abort => if world.managedState managed = some .exited then none
      else some (.awaitCancelled (now - startedAt) .running)

end World

end Calls

section Events

/-- What can happen to a registry and to its children. -/
inductive Event where
  | start (call : StartCall)
  | childExit (managed : ℕ) (result : ChildResult)
  | callback (handle : String) (managed : ℕ)
  | lifetimeTimer (handle : String) (now : ℚ)
  | reap (now : ℚ)
  | release (now : ℚ) (handle : String)
  | has (now : ℚ) (handle : String)
  | describe (now : ℚ) (handle : String)
  | awaitHandle (now startedAt answeredAt : ℚ) (handle : String) (aborted : Bool)
  | size (now : ℚ)
  | activeSize (now : ℚ)
  | retainedSize (now : ℚ)
  | dispose

namespace World

def childExit (world : World) (managed : ℕ) (result : ChildResult) : World :=
  { world with processes := world.processes.modify managed (ManagedProcess.finish result) }

def runCallback (world : World) (handle : String) (managed : ℕ) : World :=
  if (handle, managed) ∈ world.callbacks ∧ world.managedState managed = some .exited then
    World.markTerminal { world with callbacks := world.callbacks.erase (handle, managed) }
      handle managed
  else world

def fireTimer (world : World) (handle : String) (now : ℚ) : World :=
  if (world.get handle).any (·.lifetimeTimer) then world.reap now else world

def step (world : World) : Event → World
  | .start call => (world.start call).2
  | .childExit managed result => world.childExit managed result
  | .callback handle managed => world.runCallback handle managed
  | .lifetimeTimer handle now => world.fireTimer handle now
  | .reap now => world.reap now
  | .release now handle => world.release now handle
  | .has now handle => (world.has now handle).2
  | .describe now handle => (world.describe now handle).2
  | .awaitHandle now startedAt answeredAt handle aborted =>
      (world.awaitHandle now startedAt answeredAt handle aborted).2
  | .size now => (world.size now).2
  | .activeSize now => (world.activeSize now).2
  | .retainedSize now => (world.retainedSize now).2
  | .dispose => world.dispose

def run (world : World) (events : List Event) : World := events.foldl step world

end World

def Event.id? : Event → Option String
  | .start call => some call.id
  | _ => none

def Event.isCall : Event → Bool
  | .childExit _ _ => false
  | .callback _ _ => false
  | .lifetimeTimer _ _ => false
  | _ => true

end Events

open OrderedMap

namespace ManagedProcess

variable {process : ManagedProcess}

@[simp] theorem state_forceTerminate : process.forceTerminate.state = process.state := by
  unfold forceTerminate
  split_ifs <;> rfl

@[simp] theorem state_expire : process.expire.state = process.state := by
  unfold expire
  split_ifs with h
  · rfl
  · rw [state_forceTerminate]
    rfl

@[simp] theorem state_finish (result : ChildResult) :
    (process.finish result).state = .exited := by
  unfold finish
  split_ifs with h
  · exact if_pos h
  · rfl

theorem forceTerminate_of_exited (h : process.state = .exited) :
    process.forceTerminate = process := by
  apply if_pos
  by_contra hsettled
  rw [state, if_neg hsettled] at h
  cases h

end ManagedProcess

section Invariants

def ProcessEntry.isActive (entry : ProcessEntry) : Bool := decide (entry.state = .active)

structure Consistent (policy : ManagedProcessPolicy) (ids : List String) (w : World) : Prop where
  policy_eq : w.registry.policy = policy
  activeCount_eq : w.registry.activeCount = w.registry.entries.count ProcessEntry.isActive
  activeCount_le : w.registry.activeCount ≤ policy.maxActiveProcesses
  order_nodup : w.registry.terminalOrder.Nodup
  mem_order : ∀ handle, handle ∈ w.registry.terminalOrder ↔
    ∃ entry, w.get handle = some entry ∧ entry.state = .terminal
  exited_of_terminal : ∀ handle entry, w.get handle = some entry → entry.state = .terminal →
    w.managedState entry.managed = some .exited
  callback_of_active : ∀ handle entry, w.get handle = some entry → entry.state = .active →
    (handle, entry.managed) ∈ w.callbacks
  managed_lt : ∀ handle entry, w.get handle = some entry → entry.managed < w.processes.length
  managed_inj : ∀ handle handle' entry entry', w.get handle = some entry →
    w.get handle' = some entry' → entry.managed = entry'.managed → handle = handle'
  handles_get : ∀ handle, w.registry.handles.entries.get handle =
    (w.get handle).map ProcessEntry.managed
  disposers : ∀ handle onDispose, w.registry.handles.disposers.get handle = some onDispose →
    onDispose = terminateManaged
  drawn : ∀ handle entry, w.get handle = some entry →
    ∃ id ∈ ids, handle = HandleRegistry.handleOf id
  empty_of_disposed : w.registry.disposed = true → w.registry.entries = .empty

/-- No more terminal entries are retained than the policy allows. -/
def Trimmed (w : World) : Prop :=
  w.registry.terminalOrder.length ≤ w.registry.policy.maxRetainedHandles

/-- The registry has seen the exit of the child of a handle, if it has exited. -/
def SeesExit (w : World) (handle : String) : Prop :=
  ∀ entry, w.get handle = some entry → entry.state = .active →
    w.managedState entry.managed = some .running

/-- How reaping at a time may change a world. -/
structure Reaps (now : ℚ) (w w' : World) : Prop where
  policy_eq : w'.registry.policy = w.registry.policy
  disposed_eq : w'.registry.disposed = w.registry.disposed
  callbacks_eq : w'.callbacks = w.callbacks
  state_eq : ∀ managed, w'.managedState managed = w.managedState managed
  comesFrom : ∀ handle entry', w'.get handle = some entry' → ∃ entry, w.get handle = some entry ∧
    entry'.managed = entry.managed ∧ entry'.startedAt = entry.startedAt ∧
    (entry.expired = true → entry'.expired = true) ∧
    (entry'.state = .active → entry.state = .active)
  kept : ∀ handle entry, w.get handle = some entry →
    w.managedState entry.managed = some .running →
    ∃ entry', w'.get handle = some entry' ∧ entry'.managed = entry.managed
  signals : ∀ managed, w'.processes[managed]? = w.processes[managed]? ∨
    ∃ handle entry, w.get handle = some entry ∧ entry.managed = managed ∧
      entry.overdue w.registry.policy now = true

variable {policy : ManagedProcessPolicy} {ids : List String} {now : ℚ} {w w' w'' : World}

theorem Reaps.refl (w : World) : Reaps now w w where
  policy_eq := rfl
  disposed_eq := rfl
  callbacks_eq := rfl
  state_eq := fun _ => rfl
  comesFrom := fun _ entry h => ⟨entry, h, rfl, rfl, id, id⟩
  kept := fun _ entry h _ => ⟨entry, h, rfl⟩
  signals := fun _ => .inl rfl

theorem ProcessEntry.overdue_of_later {entry entry' : ProcessEntry}
    (h : entry'.overdue policy now = true) (hstart : entry'.startedAt = entry.startedAt)
    (hexpired : entry.expired = true → entry'.expired = true) :
    entry.overdue policy now = true := by
  simp only [overdue, Bool.and_eq_true, Bool.not_eq_true', decide_eq_true_eq] at h ⊢
  rw [hstart] at h
  refine ⟨?_, h.2⟩
  by_contra hne
  have hexp := hexpired (by simpa using hne)
  rw [hexp] at h
  exact absurd h.1 (by decide)

theorem Reaps.trans (h : Reaps now w w') (h' : Reaps now w' w'') : Reaps now w w'' where
  policy_eq := h'.policy_eq.trans h.policy_eq
  disposed_eq := h'.disposed_eq.trans h.disposed_eq
  callbacks_eq := h'.callbacks_eq.trans h.callbacks_eq
  state_eq := fun managed => (h'.state_eq managed).trans (h.state_eq managed)
  comesFrom := by
    intro handle entry'' hget
    obtain ⟨entry', hget', hmanaged', hstart', hexpired', hactive'⟩ :=
      h'.comesFrom handle entry'' hget
    obtain ⟨entry, hget, hmanaged, hstart, hexpired, hactive⟩ := h.comesFrom handle entry' hget'
    exact ⟨entry, hget, hmanaged'.trans hmanaged, hstart'.trans hstart,
      fun he => hexpired' (hexpired he), fun ha => hactive (hactive' ha)⟩
  kept := by
    intro handle entry hget hrunning
    obtain ⟨entry', hget', hmanaged'⟩ := h.kept handle entry hget hrunning
    have hrunning' : w'.managedState entry'.managed = some .running := by
      rw [hmanaged', h.state_eq]
      exact hrunning
    obtain ⟨entry'', hget'', hmanaged''⟩ := h'.kept handle entry' hget' hrunning'
    exact ⟨entry'', hget'', hmanaged''.trans hmanaged'⟩
  signals := by
    intro managed
    rcases h'.signals managed with hsame' | ⟨handle, entry', hget', hmanaged', hoverdue'⟩
    · rw [hsame']
      exact h.signals managed
    · obtain ⟨entry, hget, hmanaged, hstart, hexpired, -⟩ := h.comesFrom handle entry' hget'
      rw [h.policy_eq] at hoverdue'
      exact .inr ⟨handle, entry, hget, hmanaged.symm.trans hmanaged',
        ProcessEntry.overdue_of_later hoverdue' hstart hexpired⟩

/-- Reaping does not make an exit unseen that the registry has seen. -/
theorem Reaps.seesExit (h : Reaps now w w') {handle : String} (hsees : SeesExit w handle) :
    SeesExit w' handle := by
  intro entry' hget' hactive'
  obtain ⟨entry, hget, hmanaged, -, -, hactive⟩ := h.comesFrom handle entry' hget'
  rw [hmanaged, h.state_eq]
  exact hsees entry hget (hactive hactive')

end Invariants

section Updates

variable {policy : ManagedProcessPolicy} {ids : List String} {now : ℚ} {w : World}
  {handle : String} {entry : ProcessEntry}

variable {f : ManagedProcess → ManagedProcess}

theorem managedState_modify (hf : ∀ process, (f process).state = process.state) (w : World)
    (n managed : ℕ) :
    World.managedState { w with processes := w.processes.modify n f } managed =
      w.managedState managed := by
  simp only [World.managedState, List.getElem?_modify]
  cases w.processes[managed]? with
  | none => rfl
  | some process =>
    by_cases h : n = managed
    · simp [h, hf]
    · simp [h]

theorem Consistent.modify (h : Consistent policy ids w)
    (hf : ∀ process, (f process).state = process.state) (n : ℕ) :
    Consistent policy ids { w with processes := w.processes.modify n f } :=
  { h with
    exited_of_terminal := by
      intro handle entry hget hterminal
      rw [managedState_modify hf]
      exact h.exited_of_terminal handle entry hget hterminal
    managed_lt := by
      intro handle entry hget
      rw [List.length_modify]
      exact h.managed_lt handle entry hget }

theorem Consistent.setEntry (h : Consistent policy ids w) (hget : w.get handle = some entry)
    (entry' : ProcessEntry) (hmanaged : entry'.managed = entry.managed)
    (hstate : entry'.state = entry.state) :
    Consistent policy ids (w.setEntry handle entry') := by
  have hcases : ∀ k e, (w.setEntry handle entry').get k = some e → ∃ e₀, w.get k = some e₀ ∧
      e.managed = e₀.managed ∧ e.state = e₀.state := by
    intro k e hk
    rcases get_set_eq_some_iff.mp hk with ⟨rfl, rfl⟩ | ⟨_, hk⟩
    · exact ⟨entry, hget, hmanaged, hstate⟩
    · exact ⟨e, hk, rfl, rfl⟩
  have hconverse : ∀ k e₀, w.get k = some e₀ → ∃ e, (w.setEntry handle entry').get k = some e ∧
      e.managed = e₀.managed ∧ e.state = e₀.state := by
    intro k e₀ hk
    by_cases hkey : k = handle
    · subst hkey
      obtain rfl : entry = e₀ := Option.some.inj (hget.symm.trans hk)
      exact ⟨entry', get_set_self, hmanaged, hstate⟩
    · exact ⟨e₀, (get_set_of_ne hkey).trans hk, rfl, rfl⟩
  exact
    { policy_eq := h.policy_eq
      activeCount_eq := by
        have hcount := count_set_of_get ProcessEntry.isActive hget entry'
        have hactive : entry'.isActive = entry.isActive := by
          rw [ProcessEntry.isActive, ProcessEntry.isActive, hstate]
        rw [hactive, Nat.add_right_cancel_iff] at hcount
        rw [World.setEntry, hcount]
        exact h.activeCount_eq
      activeCount_le := h.activeCount_le
      order_nodup := h.order_nodup
      mem_order := by
        intro k
        refine (h.mem_order k).trans ⟨?_, ?_⟩
        · rintro ⟨e₀, hk, hterminal⟩
          obtain ⟨e, hk', -, hs⟩ := hconverse k e₀ hk
          exact ⟨e, hk', hs.trans hterminal⟩
        · rintro ⟨e, hk, hterminal⟩
          obtain ⟨e₀, hk', -, hs⟩ := hcases k e hk
          exact ⟨e₀, hk', hs.symm.trans hterminal⟩
      exited_of_terminal := by
        intro k e hk hterminal
        obtain ⟨e₀, hk', hm, hs⟩ := hcases k e hk
        rw [hm]
        exact h.exited_of_terminal k e₀ hk' (hs.symm.trans hterminal)
      callback_of_active := by
        intro k e hk hactive
        obtain ⟨e₀, hk', hm, hs⟩ := hcases k e hk
        rw [hm]
        exact h.callback_of_active k e₀ hk' (hs.symm.trans hactive)
      managed_lt := by
        intro k e hk
        obtain ⟨e₀, hk', hm, -⟩ := hcases k e hk
        rw [hm]
        exact h.managed_lt k e₀ hk'
      managed_inj := by
        intro k k' e e' hk hk' heq
        obtain ⟨e₀, hk₀, hm, -⟩ := hcases k e hk
        obtain ⟨e₁, hk₁, hm', -⟩ := hcases k' e' hk'
        exact h.managed_inj k k' e₀ e₁ hk₀ hk₁ (hm.symm.trans (heq.trans hm'))
      handles_get := by
        intro k
        refine (h.handles_get k).trans ?_
        cases hk : w.get k with
        | none =>
          have hne : k ≠ handle := by
            rintro rfl
            rw [hget] at hk
            cases hk
          have hk' : (w.setEntry handle entry').get k = none := (get_set_of_ne hne).trans hk
          rw [hk']
        | some e₀ =>
          obtain ⟨e, hk', hm, -⟩ := hconverse k e₀ hk
          rw [hk', Option.map_some, Option.map_some, hm]
      disposers := h.disposers
      drawn := by
        intro k e hk
        obtain ⟨e₀, hk', -, -⟩ := hcases k e hk
        exact h.drawn k e₀ hk'
      empty_of_disposed := by
        intro hdisposed
        have hnone : w.get handle = none := by
          rw [World.get, h.empty_of_disposed hdisposed]
          rfl
        rw [hget] at hnone
        cases hnone }

theorem Reaps.expireEntry (hget : w.get handle = some entry)
    (hoverdue : entry.overdue w.registry.policy now = true) :
    Reaps now w (w.expireEntry handle entry) where
  policy_eq := rfl
  disposed_eq := rfl
  callbacks_eq := rfl
  state_eq := managedState_modify (fun _ => ManagedProcess.state_expire) w entry.managed
  comesFrom := by
    intro k e hk
    rcases get_set_eq_some_iff.mp hk with ⟨rfl, rfl⟩ | ⟨_, hk⟩
    · exact ⟨entry, hget, rfl, rfl, fun _ => rfl, id⟩
    · exact ⟨e, hk, rfl, rfl, id, id⟩
  kept := by
    intro k e hk _
    by_cases hkey : k = handle
    · subst hkey
      obtain rfl : entry = e := Option.some.inj (hget.symm.trans hk)
      exact ⟨{ entry with expired := true }, get_set_self, rfl⟩
    · exact ⟨e, (get_set_of_ne hkey).trans hk, rfl⟩
  signals := by
    intro managed
    by_cases hmanaged : entry.managed = managed
    · exact .inr ⟨handle, entry, hget, hmanaged, hoverdue⟩
    · left
      exact List.getElem?_modify_ne _ _ hmanaged

theorem Consistent.expireEntry (h : Consistent policy ids w) (hget : w.get handle = some entry) :
    Consistent policy ids (w.expireEntry handle entry) :=
  (h.setEntry hget { entry with expired := true } rfl rfl).modify
    (fun _ => ManagedProcess.state_expire) entry.managed

end Updates

section Forgetting

variable {policy : ManagedProcessPolicy} {ids : List String} {now : ℚ} {w : World}
  {handle : String} {entry : ProcessEntry}

theorem modify_eq_self {f : ManagedProcess → ManagedProcess} {processes : Processes} {n : ℕ}
    (h : ∀ process, processes[n]? = some process → f process = process) :
    processes.modify n f = processes := by
  apply List.ext_getElem?
  intro i
  rw [List.getElem?_modify]
  by_cases hi : n = i
  · subst hi
    cases hprocess : processes[n]? with
    | none => rfl
    | some process => simp [h process hprocess]
  · simp [hi]

/-- The disposer of a terminal entry finds that its child has exited. -/
theorem Consistent.forget_processes (h : Consistent policy ids w)
    (hget : w.get handle = some entry) (hterminal : entry.state = .terminal) :
    (w.forget handle).processes = w.processes := by
  have hvalue : w.registry.handles.entries.get handle = some entry.managed := by
    rw [h.handles_get handle, hget]
    rfl
  have hexited := h.exited_of_terminal handle entry hget hterminal
  have hdispose : w.registry.handles.disposeOne handle entry.managed w.processes =
      w.processes := by
    unfold HandleRegistry.disposeOne
    cases hdisposer : w.registry.handles.disposers.get handle with
    | none => rfl
    | some onDispose =>
      rw [h.disposers handle onDispose hdisposer]
      apply modify_eq_self
      intro process hprocess
      apply ManagedProcess.forceTerminate_of_exited
      rw [World.managedState, hprocess] at hexited
      exact Option.some.inj hexited
  simpa [World.forget, HandleRegistry.delete, hvalue] using hdispose

theorem Consistent.forget_handles (h : Consistent policy ids w) (hget : w.get handle = some entry) :
    (w.forget handle).registry.handles = ⟨w.registry.handles.entries.delete handle,
      w.registry.handles.disposers.delete handle⟩ := by
  have hvalue : w.registry.handles.entries.get handle = some entry.managed := by
    rw [h.handles_get handle, hget]
    rfl
  simp [World.forget, HandleRegistry.delete, hvalue]

theorem get_forget {k : String} {e : ProcessEntry} :
    (w.forget handle).get k = some e ↔ k ≠ handle ∧ w.get k = some e :=
  get_delete_eq_some_iff

variable (h : Consistent policy ids w)
include h

theorem Consistent.managedState_forget (hget : w.get handle = some entry)
    (hterminal : entry.state = .terminal) (managed : ℕ) :
    (w.forget handle).managedState managed = w.managedState managed := by
  rw [World.managedState, h.forget_processes hget hterminal, World.managedState]

theorem Consistent.forget (hget : w.get handle = some entry) (hterminal : entry.state = .terminal) :
    Consistent policy ids (w.forget handle) where
  policy_eq := h.policy_eq
  activeCount_eq := by
    have hcount := count_delete ProcessEntry.isActive hget
    have hactive : entry.isActive = false := by simp [ProcessEntry.isActive, hterminal]
    rw [hactive] at hcount
    rw [World.forget, show (w.registry.entries.delete handle).count ProcessEntry.isActive =
      w.registry.entries.count ProcessEntry.isActive from hcount]
    exact h.activeCount_eq
  activeCount_le := h.activeCount_le
  order_nodup := h.order_nodup.erase handle
  mem_order := by
    intro k
    have hmem : k ∈ (w.forget handle).registry.terminalOrder ↔
        k ≠ handle ∧ k ∈ w.registry.terminalOrder := h.order_nodup.mem_erase_iff
    rw [hmem, h.mem_order k]
    constructor
    · rintro ⟨hne, e, hk, he⟩
      exact ⟨e, get_forget.mpr ⟨hne, hk⟩, he⟩
    · rintro ⟨e, hk, he⟩
      obtain ⟨hne, hk⟩ := get_forget.mp hk
      exact ⟨hne, e, hk, he⟩
  exited_of_terminal := by
    intro k e hk he
    rw [h.managedState_forget hget hterminal]
    exact h.exited_of_terminal k e (get_forget.mp hk).2 he
  callback_of_active := fun k e hk => h.callback_of_active k e (get_forget.mp hk).2
  managed_lt := by
    intro k e hk
    rw [h.forget_processes hget hterminal]
    exact h.managed_lt k e (get_forget.mp hk).2
  managed_inj := fun k k' e e' hk hk' =>
    h.managed_inj k k' e e' (get_forget.mp hk).2 (get_forget.mp hk').2
  handles_get := by
    intro k
    rw [h.forget_handles hget]
    by_cases hkey : k = handle
    · subst hkey
      have hnone : (w.forget k).get k = none := get_delete_self
      rw [hnone]
      exact get_delete_self
    · have hsame : (w.forget handle).get k = w.get k := get_delete_of_ne hkey
      rw [hsame, ← h.handles_get k]
      exact get_delete_of_ne hkey
  disposers := by
    intro k onDispose hk
    rw [h.forget_handles hget] at hk
    exact h.disposers k onDispose (get_delete_eq_some_iff.mp hk).2
  drawn := fun k e hk => h.drawn k e (get_forget.mp hk).2
  empty_of_disposed := by
    intro hdisposed
    have hempty := h.empty_of_disposed hdisposed
    rw [World.get, hempty] at hget
    cases hget

theorem Reaps.forget (hget : w.get handle = some entry) (hterminal : entry.state = .terminal) :
    Reaps now w (w.forget handle) where
  policy_eq := rfl
  disposed_eq := rfl
  callbacks_eq := rfl
  state_eq := h.managedState_forget hget hterminal
  comesFrom := fun k e hk => ⟨e, (get_forget.mp hk).2, rfl, rfl, id, id⟩
  kept := by
    intro k e hk hrunning
    refine ⟨e, get_forget.mpr ⟨?_, hk⟩, rfl⟩
    rintro rfl
    obtain rfl : entry = e := Option.some.inj (hget.symm.trans hk)
    rw [h.exited_of_terminal k entry hget hterminal] at hrunning
    cases hrunning
  signals := by
    intro managed
    left
    rw [h.forget_processes hget hterminal]

theorem Consistent.evictOldest_eq {rest : List String}
    (horder : w.registry.terminalOrder = handle :: rest) : w.evictOldest = w.forget handle := by
  obtain ⟨entry, hget, hterminal⟩ := (h.mem_order handle).mp (by simp [horder])
  have hnodup := h.order_nodup
  rw [horder, List.nodup_cons] at hnodup
  have hrest : rest.erase handle = rest := List.erase_of_not_mem hnodup.1
  have herase : w.registry.terminalOrder.erase handle = rest := by
    rw [horder, List.erase_cons_head]
  have hget' : World.get { w with registry := { w.registry with terminalOrder := rest } } handle =
      some entry := hget
  rw [World.evictOldest, horder]
  simp only [World.forgetTerminal, hget', hterminal, if_true]
  simp only [World.forget, hrest, herase]

theorem Consistent.trimLoop (now : ℚ) (turns : ℕ) :
    Consistent policy ids (w.trimLoop turns) ∧ Reaps now w (w.trimLoop turns) := by
  induction turns generalizing w with
  | zero => exact ⟨h, Reaps.refl w⟩
  | succ turns ih =>
    rw [World.trimLoop]
    split_ifs with hlength
    · cases horder : w.registry.terminalOrder with
      | nil => simp [horder] at hlength
      | cons handle rest =>
        obtain ⟨entry, hget, hterminal⟩ := (h.mem_order handle).mp (by simp [horder])
        rw [h.evictOldest_eq horder]
        obtain ⟨hconsistent, hreaps⟩ := ih (h.forget hget hterminal)
        exact ⟨hconsistent, (Reaps.forget h hget hterminal).trans hreaps⟩
    · exact ⟨h, Reaps.refl w⟩

theorem Consistent.trimmed_trimLoop {turns : ℕ} (hturns : w.registry.terminalOrder.length ≤ turns) :
    Trimmed (w.trimLoop turns) := by
  induction turns generalizing w with
  | zero => exact hturns.trans (Nat.zero_le _)
  | succ turns ih =>
    rw [World.trimLoop]
    split_ifs with hlength
    · cases horder : w.registry.terminalOrder with
      | nil => simp [horder] at hlength
      | cons handle rest =>
        obtain ⟨entry, hget, hterminal⟩ := (h.mem_order handle).mp (by simp [horder])
        rw [h.evictOldest_eq horder]
        apply ih (h.forget hget hterminal)
        have horder' : (w.forget handle).registry.terminalOrder = rest := by
          rw [World.forget, horder, List.erase_cons_head]
        rw [horder']
        rw [horder, List.length_cons] at hturns
        omega
    · exact Nat.le_of_not_lt hlength

theorem Consistent.trimTerminalHandles (now : ℚ) :
    Consistent policy ids w.trimTerminalHandles ∧ Reaps now w w.trimTerminalHandles ∧
      Trimmed w.trimTerminalHandles :=
  ⟨(h.trimLoop now _).1, (h.trimLoop now _).2, h.trimmed_trimLoop le_rfl⟩

end Forgetting

section Reaping

variable {policy : ManagedProcessPolicy} {ids : List String} {now : ℚ} {w : World}
  {handle : String} {entry : ProcessEntry}

theorem get_recordTerminal {k : String} {e : ProcessEntry} :
    (w.recordTerminal handle entry).get k = some e ↔
      (k = handle ∧ e = { entry with state := .terminal, lifetimeTimer := false }) ∨
        (k ≠ handle ∧ w.get k = some e) :=
  get_set_eq_some_iff

theorem Consistent.recordTerminal (h : Consistent policy ids w) (hget : w.get handle = some entry)
    (hactive : entry.state = .active) (hexited : w.managedState entry.managed = some .exited) :
    Consistent policy ids (w.recordTerminal handle entry) where
  policy_eq := h.policy_eq
  activeCount_eq := by
    have hcount : (w.recordTerminal handle entry).registry.entries.count ProcessEntry.isActive + 1 =
        w.registry.entries.count ProcessEntry.isActive := by
      simpa [hactive, ProcessEntry.isActive, World.recordTerminal] using
        count_set_of_get ProcessEntry.isActive hget
          { entry with state := .terminal, lifetimeTimer := false }
    have heq := h.activeCount_eq
    have hminus : (w.recordTerminal handle entry).registry.activeCount =
        w.registry.activeCount - 1 := rfl
    omega
  activeCount_le := by
    have hle := h.activeCount_le
    simp only [World.recordTerminal]
    omega
  order_nodup := by
    apply List.nodup_append.mpr
    refine ⟨h.order_nodup, List.nodup_singleton handle, ?_⟩
    intro k hk k' hk' heq
    obtain rfl : k' = handle := List.mem_singleton.mp hk'
    obtain ⟨e, hget', hterminal⟩ := (h.mem_order k).mp hk
    rw [heq, hget] at hget'
    obtain rfl := Option.some.inj hget'
    rw [hactive] at hterminal
    cases hterminal
  mem_order := by
    intro k
    simp only [World.recordTerminal, List.mem_append, List.mem_singleton]
    constructor
    · rintro (hk | rfl)
      · obtain ⟨e, hget', hterminal⟩ := (h.mem_order k).mp hk
        by_cases hkey : k = handle
        · exact ⟨_, get_recordTerminal.mpr (.inl ⟨hkey, rfl⟩), rfl⟩
        · exact ⟨e, get_recordTerminal.mpr (.inr ⟨hkey, hget'⟩), hterminal⟩
      · exact ⟨_, get_recordTerminal.mpr (.inl ⟨rfl, rfl⟩), rfl⟩
    · rintro ⟨e, hk, hterminal⟩
      rcases get_recordTerminal.mp hk with ⟨rfl, -⟩ | ⟨-, hk⟩
      · exact .inr rfl
      · exact .inl ((h.mem_order k).mpr ⟨e, hk, hterminal⟩)
  exited_of_terminal := by
    intro k e hk hterminal
    rcases get_recordTerminal.mp hk with ⟨-, rfl⟩ | ⟨-, hk⟩
    · exact hexited
    · exact h.exited_of_terminal k e hk hterminal
  callback_of_active := by
    intro k e hk he
    rcases get_recordTerminal.mp hk with ⟨-, rfl⟩ | ⟨-, hk⟩
    · cases he
    · exact h.callback_of_active k e hk he
  managed_lt := by
    intro k e hk
    rcases get_recordTerminal.mp hk with ⟨-, rfl⟩ | ⟨-, hk⟩
    · exact h.managed_lt handle entry hget
    · exact h.managed_lt k e hk
  managed_inj := by
    intro k k' e e' hk hk' heq
    rcases get_recordTerminal.mp hk with ⟨rfl, rfl⟩ | ⟨-, hk₀⟩
    · rcases get_recordTerminal.mp hk' with ⟨rfl, -⟩ | ⟨-, hk₁⟩
      · rfl
      · exact h.managed_inj k k' entry e' hget hk₁ heq
    · rcases get_recordTerminal.mp hk' with ⟨rfl, rfl⟩ | ⟨-, hk₁⟩
      · exact h.managed_inj k k' e entry hk₀ hget heq
      · exact h.managed_inj k k' e e' hk₀ hk₁ heq
  handles_get := by
    intro k
    refine (h.handles_get k).trans ?_
    by_cases hkey : k = handle
    · subst hkey
      have hself : (w.recordTerminal k entry).get k =
          some { entry with state := .terminal, lifetimeTimer := false } := get_set_self
      rw [hself, hget]
      rfl
    · have hsame : (w.recordTerminal handle entry).get k = w.get k := get_set_of_ne hkey
      rw [hsame]
  disposers := h.disposers
  drawn := by
    intro k e hk
    rcases get_recordTerminal.mp hk with ⟨rfl, -⟩ | ⟨-, hk⟩
    · exact h.drawn k entry hget
    · exact h.drawn k e hk
  empty_of_disposed := by
    intro hdisposed
    have hempty := h.empty_of_disposed hdisposed
    rw [World.get, hempty] at hget
    cases hget

theorem Reaps.recordTerminal (hget : w.get handle = some entry)
    (hactive : entry.state = .active) : Reaps now w (w.recordTerminal handle entry) where
  policy_eq := rfl
  disposed_eq := rfl
  callbacks_eq := rfl
  state_eq := fun _ => rfl
  comesFrom := by
    intro k e hk
    rcases get_recordTerminal.mp hk with ⟨rfl, rfl⟩ | ⟨-, hk⟩
    · exact ⟨entry, hget, rfl, rfl, id, fun _ => hactive⟩
    · exact ⟨e, hk, rfl, rfl, id, id⟩
  kept := by
    intro k e hk _
    by_cases hkey : k = handle
    · subst hkey
      obtain rfl : entry = e := Option.some.inj (hget.symm.trans hk)
      exact ⟨_, get_recordTerminal.mpr (.inl ⟨rfl, rfl⟩), rfl⟩
    · exact ⟨e, get_recordTerminal.mpr (.inr ⟨hkey, hk⟩), rfl⟩
  signals := fun _ => .inl rfl

theorem Consistent.running_or_exited (h : Consistent policy ids w)
    (hget : w.get handle = some entry) :
    w.managedState entry.managed = some .running ∨ w.managedState entry.managed = some .exited := by
  have hlt := h.managed_lt handle entry hget
  rw [World.managedState, List.getElem?_eq_getElem hlt, Option.map_some]
  cases w.processes[entry.managed].state with
  | running => exact .inl rfl
  | exited => exact .inr rfl

theorem seesExit_recordTerminal : SeesExit (w.recordTerminal handle entry) handle := by
  intro e hk he
  rcases get_recordTerminal.mp hk with ⟨-, rfl⟩ | ⟨hne, -⟩
  · cases he
  · exact absurd rfl hne

variable (h : Consistent policy ids w)
include h

theorem Consistent.markTerminal (now : ℚ) (handle : String) {managed : ℕ}
    (hexited : w.managedState managed = some .exited) :
    Consistent policy ids (w.markTerminal handle managed) ∧
      Reaps now w (w.markTerminal handle managed) ∧
      (Trimmed w → Trimmed (w.markTerminal handle managed)) ∧
      (∀ entry, w.get handle = some entry → entry.managed = managed →
        SeesExit (w.markTerminal handle managed) handle) := by
  unfold World.markTerminal
  split_ifs with hdisposed
  · refine ⟨h, Reaps.refl w, id, ?_⟩
    intro entry hget
    rw [World.get, h.empty_of_disposed hdisposed] at hget
    cases hget
  cases hget : w.get handle with
  | none =>
    refine ⟨h, Reaps.refl w, id, ?_⟩
    intro entry hentry
    cases hentry
  | some entry =>
    simp only []
    split_ifs with hskip
    · refine ⟨h, Reaps.refl w, id, ?_⟩
      intro e he hmanaged e' hget' hactive'
      obtain rfl : entry = e := Option.some.inj he
      obtain rfl : entry = e' := Option.some.inj (hget.symm.trans hget')
      rcases hskip with hne | hterminal
      · exact absurd hmanaged hne
      · rw [hterminal] at hactive'
        cases hactive'
    · rw [not_or, not_not] at hskip
      obtain ⟨hmanaged, hstate⟩ := hskip
      have hactive : entry.state = .active := by
        cases hcase : entry.state with
        | active => rfl
        | terminal => exact absurd hcase hstate
      rw [← hmanaged] at hexited
      have hrecorded := h.recordTerminal hget hactive hexited
      obtain ⟨hconsistent, hreaps, htrimmed⟩ := hrecorded.trimTerminalHandles now
      refine ⟨hconsistent, (Reaps.recordTerminal hget hactive).trans hreaps, fun _ => htrimmed, ?_⟩
      intro _ _ _
      exact hreaps.seesExit seesExit_recordTerminal

theorem Consistent.reapEntry (now : ℚ) (handle : String) :
    Consistent policy ids (w.reapEntry now handle) ∧ Reaps now w (w.reapEntry now handle) ∧
      SeesExit (w.reapEntry now handle) handle := by
  unfold World.reapEntry
  cases hget : w.get handle with
  | none =>
    refine ⟨h, Reaps.refl w, ?_⟩
    intro entry hentry
    rw [hget] at hentry
    cases hentry
  | some entry =>
    simp only []
    split_ifs with hterminal hexited hoverdue
    · refine ⟨h, Reaps.refl w, ?_⟩
      intro e hentry hactive
      obtain rfl : entry = e := Option.some.inj (hget.symm.trans hentry)
      rw [hterminal] at hactive
      cases hactive
    · obtain ⟨hconsistent, hreaps, -, hsees⟩ := h.markTerminal now handle hexited
      exact ⟨hconsistent, hreaps, hsees entry hget rfl⟩
    all_goals
      have hrunning : SeesExit w handle := by
        intro e hentry _
        obtain rfl : entry = e := Option.some.inj (hget.symm.trans hentry)
        exact (h.running_or_exited hget).resolve_right hexited
    · have hreaps : Reaps now w (w.expireEntry handle entry) := Reaps.expireEntry hget hoverdue
      exact ⟨h.expireEntry hget, hreaps, hreaps.seesExit hrunning⟩
    · exact ⟨h, Reaps.refl w, hrunning⟩

theorem Consistent.reapEntries (now : ℚ) (handles : List String) :
    Consistent policy ids (handles.foldl (World.reapEntry now) w) ∧
      Reaps now w (handles.foldl (World.reapEntry now) w) ∧
      ∀ handle ∈ handles, SeesExit (handles.foldl (World.reapEntry now) w) handle := by
  induction handles generalizing w with
  | nil =>
    refine ⟨h, Reaps.refl w, ?_⟩
    intro handle hmem
    cases hmem
  | cons first handles ih =>
    obtain ⟨hfirst, hreapsFirst, hseesFirst⟩ := h.reapEntry now first
    obtain ⟨hconsistent, hreaps, hsees⟩ := ih hfirst
    refine ⟨hconsistent, hreapsFirst.trans hreaps, ?_⟩
    intro handle hmem
    rcases List.mem_cons.mp hmem with rfl | hmem
    · exact hreaps.seesExit hseesFirst
    · exact hsees handle hmem

theorem Consistent.reap (now : ℚ) :
    Consistent policy ids (w.reap now) ∧ Reaps now w (w.reap now) ∧
      (Trimmed w → Trimmed (w.reap now)) ∧ ∀ handle, SeesExit (w.reap now) handle := by
  unfold World.reap
  split_ifs with hdisposed
  · refine ⟨h, Reaps.refl w, id, ?_⟩
    intro handle entry hget
    rw [World.get, h.empty_of_disposed hdisposed] at hget
    cases hget
  · obtain ⟨hentries, hreapsEntries, hseesEntries⟩ := h.reapEntries now w.registry.entries.keys
    obtain ⟨hconsistent, hreaps, htrimmed⟩ := hentries.trimTerminalHandles now
    refine ⟨hconsistent, hreapsEntries.trans hreaps, fun _ => htrimmed, ?_⟩
    intro handle
    apply hreaps.seesExit
    by_cases hmem : handle ∈ w.registry.entries.keys
    · exact hseesEntries handle hmem
    · apply hreapsEntries.seesExit
      intro entry hget
      exact absurd (mem_keys_of_get hget) hmem

end Reaping

end Mottainai.ManagedProcesses

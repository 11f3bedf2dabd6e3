set_option autoImplicit false

/-!
# Lifecycle: the state machine

The decision core of the System VM's lifecycle is a hierarchical state machine whose
handlers only emit effects.  A state that does not decide an event leaves it to its
superstate, and that one to the root.
-/

namespace Arcbox.Engine.Lifecycle

/-- The states of the machine. -/
inductive State
  | notExist
  | created
  | stopped
  | failed
  | creating
  | starting
  | running
  | idle
  | stopping
  | removing
deriving DecidableEq, Repr

/-- What the actor publishes. -/
inductive VmLifecycleState
  | notExist
  | creating
  | created
  | starting
  | running
  | idle
  | stopping
  | stopped
  | failed
deriving DecidableEq, Repr

namespace VmLifecycleState

/-- The VM serves. -/
def isReady : VmLifecycleState → Bool
  | .running | .idle => true
  | _ => false

/-- A start would boot it. -/
def needsStart : VmLifecycleState → Bool
  | .notExist | .created | .stopped | .failed => true
  | _ => false

/-- The states `on_storage_check` turns away: a boot or a stop is under way. -/
def inTransition : VmLifecycleState → Bool
  | .creating | .starting | .stopping => true
  | _ => false

end VmLifecycleState

/-- The machine's events. -/
inductive VmEvent
  | start (create : Bool) (timeoutMs : Nat)
  | activity
  | agentReady
  | failure
  | idleTimeout
  | stop
  | stopped
  | removed
  | forceStop
  | stopStorage
  | stopUnready
  | guestReset (timeoutMs : Nat)
deriving DecidableEq, Repr

/-- Events for the bus. -/
inductive Notify
  | started
  | idle
  | stopped
deriving DecidableEq, Repr

/-- What a transition asks of the actor. -/
inductive Effect
  | spawnBoot (create : Bool) (timeoutMs : Nat)
  | spawnStop
  | spawnStorageStop
  | spawnReboot (timeoutMs : Nat)
  | abortInflight
  | removeMachine
  | bumpGeneration
  | publish (notify : Notify)
  | readyWaiters
  | failWaiters (reason : String)
deriving DecidableEq, Repr

/-- What a handler decides. -/
inductive Outcome
  | handled
  | super
  | transition (target : State)
deriving DecidableEq, Repr

/-! ## Handlers, from the root down -/

/-- Start removal and fail the callers of the superseded boot. -/
def forceStop : Outcome × List Effect :=
  (.transition .removing, [.abortInflight, .removeMachine, .failWaiters "force stopped"])

/-- The root, which handles what no other state does. -/
def managed : VmEvent → Outcome × List Effect
  | .stopUnready => (.transition .stopping, [.spawnStop])
  | .stopStorage =>
    (.transition .stopping, [.spawnStorageStop, .failWaiters "storage recovery stopped"])
  | .forceStop => forceStop
  | .failure => (.transition .failed, [])
  | _ => (.handled, [])

/-- Nothing runs. -/
def resting : VmEvent → Outcome × List Effect
  | .start create timeoutMs =>
    (.transition (if create = true then .creating else .starting), [.spawnBoot create timeoutMs])
  | _ => (.super, [])

/-- A boot is in flight. -/
def booting : VmEvent → Outcome × List Effect
  | .agentReady => (.transition .running, [.publish .started, .readyWaiters])
  | _ => (.super, [])

/-- The VM is up. -/
def active : VmEvent → Outcome × List Effect
  | .stop => (.transition .stopping, [.spawnStop])
  | .guestReset timeoutMs => (.transition .starting, [.bumpGeneration, .spawnReboot timeoutMs])
  | _ => (.super, [])

/-- The VM is up and in use. -/
def running : VmEvent → Outcome × List Effect
  | .idleTimeout => (.transition .idle, [.publish .idle])
  | .activity => (.handled, [])
  | .start _ _ => (.handled, [])
  | _ => (.super, [])

/-- The VM is up and unused. -/
def idle : VmEvent → Outcome × List Effect
  | .activity => (.transition .running, [])
  | .start _ _ => (.transition .running, [])
  | _ => (.super, [])

/-- A stop is in flight. -/
def stopping : VmEvent → Outcome × List Effect
  | .stopped => (.transition .stopped, [.bumpGeneration, .publish .stopped])
  | _ => (.super, [])

/-- A removal is in flight. -/
def removing : VmEvent → Outcome × List Effect
  | .removed => (.transition .notExist, [.bumpGeneration, .publish .stopped])
  | .forceStop => (.handled, [])
  | _ => (.super, [])

namespace State

/-- The handler of the state itself. -/
def handler : State → VmEvent → Outcome × List Effect
  | .running => Lifecycle.running
  | .idle => Lifecycle.idle
  | .stopping => Lifecycle.stopping
  | .removing => Lifecycle.removing
  | _ => fun _ => (.super, [])

/-- The handler of its superstate. -/
def superHandler : State → VmEvent → Outcome × List Effect
  | .notExist | .created | .stopped | .failed => resting
  | .creating | .starting => booting
  | .running | .idle => active
  | .stopping | .removing => managed

/-- An event climbs until a handler decides it. -/
def handle (s : State) (event : VmEvent) : State × List Effect :=
  let decided := fun (out : Outcome × List Effect) (climb : State × List Effect) =>
    match out with
    | (.handled, effects) => (s, effects)
    | (.transition target, effects) => (target, effects)
    | (.super, effects) => (climb.1, effects ++ climb.2)
  decided (s.handler event)
    (decided (s.superHandler event) (decided (managed event) (s, [])))

/-- The published form of a state. -/
def toPublic : State → VmLifecycleState
  | .notExist => .notExist
  | .creating => .creating
  | .created => .created
  | .starting => .starting
  | .running => .running
  | .idle => .idle
  | .stopping | .removing => .stopping
  | .stopped => .stopped
  | .failed => .failed

/-- A boot is in flight. -/
def isBooting : State → Bool
  | .creating | .starting => true
  | _ => false

end State

end Arcbox.Engine.Lifecycle

import Arcbox.Engine.StopOwner
import Arcbox.Engine.Lifecycle.Machine

set_option autoImplicit false

/-!
# Lifecycle: the actor

The actor owns the state machine, executes its effects and parks the callers that must
wait.  Each boot, stop or removal runs in a sub-task that reports once, tagged with the
epoch it was spawned under; the actor drops reports of an earlier epoch.  What the
machine registry and the storage reservations answer is the world's choice, input by
input.
-/

namespace Arcbox.Engine.Lifecycle

/-- Why a command was refused or failed. -/
inductive Error
  | vm (reason : String)
  | invalidState (message : String)
  | storage (message : String)
  | machine (message : String)
deriving DecidableEq, Repr

/-- Who sent a command and waits for its reply. -/
abbrev Caller := Nat

/-- What a client may send to the actor. -/
inductive Command
  | checkStorage (caller : Caller)
  | stopStorage (caller : Caller)
  | resumeStorage (caller : Caller)
  | ensureReady (timeoutMs : Nat) (caller : Caller)
  | shutdown (caller : Caller)
  | forceStop (caller : Caller)
  | activity
deriving DecidableEq, Repr

/-- What a background task reports. -/
inductive InternalEvent
  | agentReady
  | bootFailed (reason : String)
  | stopped
  | stopFailed (reason : String)
  | removed
  | removeFailed (reason : String)
deriving DecidableEq, Repr

/-- A report, with the epoch of its task. -/
structure Completion where
  epoch : Nat
  outcome : InternalEvent
deriving DecidableEq, Repr

/-- The background tasks. -/
inductive TaskKind
  | boot (create : Bool) (timeoutMs : Nat)
  | storageBoot (timeoutMs : Nat)
  | reboot (timeoutMs : Nat)
  | stop
  | storageStop
  | removal
deriving DecidableEq, Repr

/-- The outcomes a sub-task of each kind can report. -/
def TaskKind.reports : TaskKind → InternalEvent → Bool
  | .boot _ _, .agentReady | .boot _ _, .bootFailed _ => true
  | .storageBoot _, .agentReady | .storageBoot _, .bootFailed _ => true
  | .reboot _, .agentReady | .reboot _, .bootFailed _ => true
  | .stop, .stopped | .stop, .stopFailed _ => true
  | .storageStop, .stopped | .storageStop, .stopFailed _ => true
  | .removal, .removed | .removal, .removeFailed _ => true
  | _, _ => false

/-- A background task, with its epoch. -/
structure Task where
  epoch : Nat
  kind : TaskKind
deriving DecidableEq, Repr

/-- What a caller is told. -/
inductive Reply
  | ready (cid : Nat)
  | done
  | error (e : Error)
deriving DecidableEq, Repr

/-- What the balloon is told. -/
inductive BalloonCommand
  | enterIdle
  | exitIdle
deriving DecidableEq, Repr

/-- `VmLifecycleConfig`, as far as the actor reads it. -/
structure Config where
  autoStop : Bool
  idleTimeoutSecs : Nat
deriving DecidableEq, Repr

/-- What the actor reads from outside while it handles one input. -/
structure World where
  /-- `ensure_storage_available`: the error's text while a reservation is held. -/
  storage : Option String
  belongs : Bool
  cancelled : Bool
  machine : Option MachineState
  cid : Option Nat
  /-- The startup budget under the effective backend. -/
  startupTimeoutMs : Nat
  kubernetesHold : Bool
  activeOps : Nat
  idleSeconds : Nat
  vmSelfStopped : Option Bool
deriving DecidableEq, Repr

/-- The actor's state, and what it has sent. -/
structure LifecycleActor where
  config : Config
  state : State
  published : VmLifecycleState
  waiters : List Caller
  stopWaiters : List Caller
  pendingTimeout : Option Nat
  pendingStop : Bool
  inflight : Option Task
  epoch : Nat
  /-- Whether each storage slot is occupied. -/
  storageStart : Bool
  storageCancel : Bool
  storageStop : Bool
  storageStopping : Bool
  storageBootDone : Option Task
  restartGeneration : Nat
  events : List Notify
  balloon : List BalloonCommand
  /-- Every state published, with the generation at that time. -/
  history : List (VmLifecycleState × Nat)
  replies : List (Caller × Reply)
  /-- The sub-tasks that have not reported. -/
  outstanding : List Task
  /-- An `unwrap` of an empty slot. -/
  panicked : Bool
deriving DecidableEq, Repr

namespace LifecycleActor

/-- The actor before any turn. -/
def new (config : Config) : LifecycleActor where
  config := config
  state := .notExist
  published := .notExist
  waiters := []
  stopWaiters := []
  pendingTimeout := none
  pendingStop := false
  inflight := none
  epoch := 0
  storageStart := false
  storageCancel := false
  storageStop := false
  storageStopping := false
  storageBootDone := none
  restartGeneration := 0
  events := []
  balloon := []
  history := []
  replies := []
  outstanding := []
  panicked := false

variable (a : LifecycleActor)

/-! ## Replies -/

variable (w : World) (caller : Caller)

/-- One caller gets its reply. -/
def answer (reply : Reply) : LifecycleActor := { a with replies := a.replies ++ [(caller, reply)] }

/-- Drain the parked `ensure_ready` callers. -/
def answerWaiters (reply : Reply) : LifecycleActor :=
  { a with
    replies := a.replies ++ a.waiters.map fun caller => (caller, reply)
    waiters := [] }

/-- Drain the parked `shutdown` callers. -/
def answerStopWaiters (reply : Reply) : LifecycleActor :=
  { a with
    replies := a.replies ++ a.stopWaiters.map fun caller => (caller, reply)
    stopWaiters := [] }

/-- The reply to a caller that waited for the VM. -/
def cidReply : Reply :=
  match w.cid with
  | some cid => .ready cid
  | none => .error (.machine "default machine has no CID")

/-! ## Effects -/

/-- The task's handle is dropped; its report will be stale. -/
def abortInflight : LifecycleActor := { a with inflight := none, epoch := a.epoch + 1 }

/-- A new sub-task under the current epoch. -/
def launch (kind : TaskKind) : LifecycleActor :=
  { a with
    inflight := some ⟨a.epoch, kind⟩
    outstanding := a.outstanding ++ [⟨a.epoch, kind⟩] }

/-- `spawn_boot`: a new epoch, and the boot under it. -/
def spawnBoot (create : Bool) (timeoutMs : Nat) : LifecycleActor :=
  let a := a.abortInflight
  let kind : TaskKind := if a.storageStart then .storageBoot timeoutMs else .boot create timeoutMs
  ({ a with storageStart := false }).launch kind

/-- The running sub-task is joined by the new one, not aborted. -/
def spawnStorageStop : LifecycleActor :=
  let a := { a with
    storageCancel := false
    storageBootDone := if a.inflight.isSome then a.storageBootDone else none
    epoch := a.epoch + 1
    panicked := a.panicked || !a.storageStop
    storageStop := false }
  a.launch .storageStop

/-- `apply`: one effect of a transition. -/
def apply (a : LifecycleActor) : Effect → LifecycleActor
  | .spawnBoot create timeoutMs => a.spawnBoot create timeoutMs
  | .spawnStorageStop => a.spawnStorageStop
  | .spawnStop => a.abortInflight.launch .stop
  | .spawnReboot timeoutMs => a.abortInflight.launch (.reboot timeoutMs)
  | .abortInflight => a.abortInflight
  | .removeMachine => a.launch .removal
  | .bumpGeneration => { a with restartGeneration := a.restartGeneration + 1 }
  | .publish notify => { a with events := a.events ++ [notify] }
  | .readyWaiters => a.answerWaiters (cidReply w)
  | .failWaiters reason => a.answerWaiters (.error (.vm reason))

/-- Publish a change of the public state, and tell the balloon about idleness. -/
def publishState (before after : VmLifecycleState) : LifecycleActor :=
  if before = after then a
  else
    { a with
      published := after
      history := a.history ++ [(after, a.restartGeneration)]
      balloon :=
        if after = .idle then a.balloon ++ [.enterIdle]
        else if before = .idle then a.balloon ++ [.exitIdle]
        else a.balloon }

/-- `dispatch`: the transition, the published state, the effects. -/
def dispatch (event : VmEvent) : LifecycleActor :=
  let next := a.state.handle event
  let a' := ({ a with state := next.1 }).publishState a.state.toPublic next.1.toPublic
  next.2.foldl (apply w) a'

/-! ## Commands -/

/-- A boot recreates the machine only when no record exists. -/
def decideCreate : Bool := w.machine.isNone

/-- `CheckStorage`: may storage maintenance begin. -/
def onStorageCheck : LifecycleActor :=
  if !w.belongs || a.published.inTransition then
    a.answer caller
      (.error (.invalidState "storage recovery requires a stable System VM lifecycle"))
  else a.answer caller .done

/-- `StopStorage`: stop the VM for maintenance. -/
def onStorageStop : LifecycleActor :=
  if w.belongs = false then
    a.answer caller (.error (.invalidState "foreign storage maintenance reservation"))
  else
    let a := { a with stopWaiters := a.stopWaiters ++ [caller] }
    if a.storageStopping then a
    else
      ({ a with
        storageStopping := true
        storageStop := true
        pendingTimeout := none
        pendingStop := false }).dispatch w .stopStorage

/-- `ResumeStorage`: boot for verification under the reservation. -/
def onResumeStorage : LifecycleActor :=
  if !w.belongs || w.cancelled || !a.published.needsStart || a.inflight.isSome then
    a.answer caller (.error (.invalidState "storage recovery requires its stopped System VM"))
  else
    ({ a with
      storageStart := true
      storageCancel := true
      waiters := a.waiters ++ [caller] }).dispatch w (.start false w.startupTimeoutMs)

/-- `EnsureReady`: the caller waits for a VM that serves. -/
def onEnsureReady (timeoutMs : Nat) (caller : Caller) : LifecycleActor :=
  match w.storage with
  | some error => a.answer caller (.error (.storage error))
  | none =>
    if a.published.isReady then (a.dispatch w .activity).answer caller (cidReply w)
    else
      let a' := { a with waiters := a.waiters ++ [caller] }
      if a.published.needsStart && a.inflight.isNone then
        a'.dispatch w (.start (decideCreate w) timeoutMs)
      else { a' with pendingTimeout := some (a.pendingTimeout.getD timeoutMs) }

/-- `Shutdown`: a stop that lets the guest finish. -/
def onShutdown : LifecycleActor :=
  let parked := { a with stopWaiters := a.stopWaiters ++ [caller] }
  match a.published with
  | .stopping => parked
  | .creating | .starting => { parked with pendingStop := true }
  | .running | .idle => parked.dispatch w .stop
  | _ =>
    if a.inflight.isNone && (w.machine = some .running || w.machine = some .stopping) then
      parked.dispatch w .stopUnready
    else a.answer caller .done

/-- `ForceStop`: abort what is in flight and remove the VM. -/
def onForceStop : LifecycleActor :=
  match w.storage with
  | some error => a.answer caller (.error (.storage error))
  | none =>
    let a := { a with stopWaiters := a.stopWaiters ++ [caller] }
    if a.state = .removing then a
    else
      { a.dispatch w .forceStop with
        pendingTimeout := none
        pendingStop := false }

/-- Each command to its handler. -/
def onCommand : Command → LifecycleActor
  | .checkStorage caller => a.onStorageCheck w caller
  | .stopStorage caller => a.onStorageStop w caller
  | .resumeStorage caller => a.onResumeStorage w caller
  | .ensureReady timeoutMs caller => a.onEnsureReady w timeoutMs caller
  | .shutdown caller => a.onShutdown w caller
  | .forceStop caller => a.onForceStop w caller
  | .activity => a.dispatch w .activity

/-! ## Completions -/

/-- `start_if_pending`: boot for the callers that parked while a stop was in flight. -/
def startIfPending : LifecycleActor :=
  match w.storage with
  | some error =>
    ({ a with pendingTimeout := none }).answerWaiters (.error (.invalidState error))
  | none =>
    if a.waiters.isEmpty || !a.published.needsStart || a.inflight.isSome then a
    else
      ({ a with pendingTimeout := none }).dispatch w
        (.start (decideCreate w) (a.pendingTimeout.getD w.startupTimeoutMs))

/-- A report of the current epoch. -/
def onOutcome : InternalEvent → LifecycleActor
  | .agentReady =>
    let a := a.dispatch w .agentReady
    if a.pendingStop then ({ a with pendingStop := false }).dispatch w .stop else a
  | .bootFailed reason =>
    let a := (a.dispatch w .failure).answerWaiters (.error (.vm reason))
    if a.pendingStop then ({ a with pendingStop := false }).answerStopWaiters .done else a
  | .stopped => (a.dispatch w .stopped).answerStopWaiters .done
  | .removed => (a.dispatch w .removed).answerStopWaiters .done
  | .stopFailed reason => (a.dispatch w .failure).answerStopWaiters (.error (.vm reason))
  | .removeFailed reason =>
    let a := (a.dispatch w .failure).answerStopWaiters (.error (.vm reason))
    { a.apply w (.failWaiters reason) with pendingTimeout := none }

/-- The task with this epoch has reported. -/
def reported (epoch : Nat) : LifecycleActor :=
  { a with outstanding := a.outstanding.filter fun task => task.epoch ≠ epoch }

/-- The sub-task in flight is done.  The handle of a recovery boot is kept until its
maintenance owner joins the stop. -/
def finished : LifecycleActor :=
  { a with
    inflight := none
    storageCancel := false
    storageBootDone :=
      if a.storageCancel && !a.storageStopping then a.inflight else a.storageBootDone
    storageStopping := false }

/-- A report; one of an older epoch only clears its record. -/
def onInternal (completion : Completion) : LifecycleActor :=
  let a := a.reported completion.epoch
  if completion.epoch ≠ a.epoch then a
  else (a.finished.onOutcome w completion.outcome).startIfPending w

/-! ## Ticks -/

/-- The idle timer: a VM unused for long enough goes idle. -/
def onIdleTick : LifecycleActor :=
  if !a.config.autoStop || w.kubernetesHold || decide (0 < w.activeOps) ||
      a.published ≠ .running then a
  else if a.config.idleTimeoutSecs ≤ w.idleSeconds then a.dispatch w .idleTimeout
  else a

/-- The liveness timer: a guest that stopped itself is restarted. -/
def onLivenessTick : LifecycleActor :=
  if a.published.isReady && w.storage.isNone && w.vmSelfStopped = some true then
    a.dispatch w (.guestReset w.startupTimeoutMs)
  else a

end LifecycleActor

/-- What wakes the actor. -/
inductive Input
  | command (c : Command)
  | internal (c : Completion)
  | idleTick
  | livenessTick
deriving DecidableEq, Repr

/-- One turn of the actor's loop. -/
def LifecycleActor.react (a : LifecycleActor) (i : World × Input) : LifecycleActor :=
  match i.2 with
  | .command c => a.onCommand i.1 c
  | .internal c => a.onInternal i.1 c
  | .idleTick => a.onIdleTick i.1
  | .livenessTick => a.onLivenessTick i.1

/-- Sub-tasks report once, with an outcome of their kind; everything else is free. -/
def Input.Possible (a : LifecycleActor) : Input → Prop
  | .internal c => ∃ task ∈ a.outstanding, task.epoch = c.epoch ∧ task.kind.reports c.outcome = true
  | _ => True

instance (a : LifecycleActor) (i : Input) : Decidable (i.Possible a) := by
  cases i <;> unfold Input.Possible <;> infer_instance

end Arcbox.Engine.Lifecycle

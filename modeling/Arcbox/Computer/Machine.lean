import Arcbox.Computer.Record

set_option autoImplicit false

/-!
# Computer: the lifecycle machine

`lifecycle/machine.rs`, `event.rs`, `effect.rs` and `projection.rs` of
`arcbox-computer-runtime`.  The machine is hierarchical: a state that answers `Super`
leaves the event to its superstate, which is written here as a call of the superstate's
handler.  A handler emits effects and never runs them; the actor does.
-/

namespace Arcbox.Computer.Lifecycle

/-! ## What the machine is told -/

/-- Why a restore is running. -/
inductive RestoreOrigin where
  | restore
  | warmCreate
  deriving DecidableEq, Repr

/-- How a provisioned computer comes up. -/
inductive Provision where
  | boot (warm : Bool)
  | restore (origin : RestoreOrigin)
  deriving DecidableEq, Repr

inductive PauseReason where
  | requested
  | idleTimeout
  deriving DecidableEq, Repr

/-- Which caller takes the single workload slot. -/
inductive WorkloadClaim where
  | api
  | initial
  deriving DecidableEq, Repr

inductive Event where
  -- Commands of the manager.
  | provision (provision : Provision)
  | checkpoint
  | pause (reason : PauseReason)
  | resume
  | stop (budgetMs : BitVec 64)
  | remove (force : Bool)
  | detach
  | claimWorkload (claim : WorkloadClaim)
  | workloadExited
  | workloadReleased
  -- Completions of sub-tasks.
  | resourcesHandedOff
  | agentReady
  | restored
  | gated
  | captureDone (snapshotId : String)
  | releasedForPause
  | stopDone
  | removeDone
  | detached
  | failure
  | frozen
  | stranded
  -- Observations.
  | vmExited
  | ttlExpired
  | idleExpired (action : IdleAction)
  | recovered (phase : PersistPhase)
  | adopted
  deriving DecidableEq, Repr

/-! ## What the machine asks for -/

/-- A notification that a transition asks the actor to publish. -/
inductive Notify where
  | created
  | ready
  | running
  | idle
  | stopping
  | stopped
  | failed
  | removed
  | pausing
  | paused
  | resumed
  deriving DecidableEq, Repr

/-- What an unconfirmed durable write costs the caller. -/
inductive Unconfirmed where
  | ack
  | unavailable
  | revertToPaused
  deriving DecidableEq, Repr

/-- How hard a durable write is pushed. -/
inductive Durability where
  | warn
  | gateJournal
  | report (unconfirmed : Unconfirmed)
  deriving DecidableEq, Repr

/-- Which resources a release drops. -/
inductive ReleaseScope where
  | runtime
  | keepDisk
  | full
  deriving DecidableEq, Repr

/-- How a durable record ends. -/
inductive RecordEnd where
  | aborted
  | removed
  deriving DecidableEq, Repr

inductive Timer where
  | ttl
  | idle
  deriving DecidableEq, Repr

/-- A reply that a transition owes parked callers. -/
inductive Answer where
  | ready
  | resumed
  | paused
  | stopped
  | removed
  | detached
  deriving DecidableEq, Repr

inductive Effect where
  | persistPhase (phase : PersistPhase) (durability : Durability)
  | commitRestored (durability : Durability)
  | forgetRecord (recordEnd : RecordEnd)
  | spawnBoot (warm : Bool)
  | spawnRestore (origin : RestoreOrigin)
  | spawnGate
  | spawnCheckpoint (hold : Bool)
  | spawnResume
  | spawnStop (budgetMs : BitVec 64) (drain : Bool)
  | spawnRelease (scope : ReleaseScope)
  | detach
  | abortInflight
  | publish (notify : Notify)
  | armTimer (timer : Timer)
  | cancelTimer (timer : Timer)
  | answer (answer : Answer)
  | clearJournal
  deriving DecidableEq, Repr

namespace Effects

/-- `Effects::stop`. -/
def stop (budgetMs : BitVec 64) (drain : Bool) : List Effect :=
  [.persistPhase .stopping .warn, .cancelTimer .idle, .publish .stopping,
    .spawnStop budgetMs drain]

/-- `Effects::removal`. -/
def removal : List Effect :=
  [.abortInflight, .cancelTimer .ttl, .cancelTimer .idle, .persistPhase .removing .warn,
    .spawnRelease .full]

/-- `Effects::failure`. -/
def failure : List Effect :=
  [.persistPhase .failed .gateJournal, .spawnRelease .runtime, .clearJournal,
    .cancelTimer .idle, .cancelTimer .ttl, .publish .failed]

end Effects

/-! ## States -/

inductive State where
  | provisioning
  | staging
  | booting
  | restoring (origin : RestoreOrigin)
  | gating (committed claimed : Bool)
  | ready
  | running
  | checkpointing
  | capturing
  | releasing
  | paused
  | resuming
  | stopping
  | stopped
  | failed
  | removing
  | detached
  | gone
  deriving DecidableEq, Repr

/-- What a caller sees. -/
inductive ComputerState where
  | starting
  | ready
  | running
  | stopping
  | stopped
  | failed
  | pausing
  | paused
  deriving DecidableEq, Repr

/-- The state's `Display`. -/
def ComputerState.text : ComputerState → String
  | .starting => "starting"
  | .ready => "ready"
  | .running => "running"
  | .stopping => "stopping"
  | .stopped => "stopped"
  | .failed => "failed"
  | .pausing => "pausing"
  | .paused => "paused"

namespace State

/-- `State::to_public`. -/
def toPublic : State → ComputerState
  | provisioning | staging | booting | restoring _ | resuming => .starting
  | gating _ false => .starting
  | gating _ true => .running
  | ready | checkpointing => .ready
  | running => .running
  | capturing | releasing => .pausing
  | paused => .paused
  | stopping | removing => .stopping
  | detached => .ready
  | stopped | gone => .stopped
  | failed => .failed

/-- `launching`: the state's launch is still in flight. -/
def launching : State → Bool
  | provisioning | staging | booting | restoring _ | gating _ _ | resuming => true
  | _ => false

end State

/-! ## The handlers -/

/-- A handler's outcome: where it transitions to, `none` for `Handled`, and what it
emitted. -/
structure Outcome where
  target : Option State
  effects : List Effect
  deriving DecidableEq, Repr

def handled : Outcome := ⟨none, []⟩

def transition (target : State) (effects : List Effect) : Outcome := ⟨some target, effects⟩

namespace Machine

def computer : Event → Outcome
  | .remove _ | .ttlExpired => transition .removing Effects.removal
  | .frozen | .failure | .stranded | .vmExited => transition .failed Effects.failure
  | _ => handled

/-- What recovery's verdict makes of a provisioning computer. -/
def recovered : PersistPhase → Outcome
  | .creating => handled
  | .starting | .ready | .stopping | .pausing | .resuming | .failed => transition .failed []
  | .stopped => transition .stopped []
  | .paused => transition .paused []
  | .removing => transition .removing []

def provisioning : Event → Outcome
  | .provision (.boot warm) =>
    transition .staging
      [.persistPhase .starting (.report .ack), .spawnBoot warm, .publish .created,
        .armTimer .ttl]
  | .provision (.restore origin) => transition (.restoring origin) [.spawnRestore origin]
  | .failure => transition .gone [.forgetRecord .aborted]
  | .recovered phase => recovered phase
  | .adopted => transition .ready []
  | .remove false => handled
  | event => computer event

def staging : Event → Outcome
  | .resourcesHandedOff => transition .booting []
  | .remove false => handled
  | event => computer event

def launching : Event → Outcome
  | .resourcesHandedOff | .remove false => handled
  | event => computer event

def booting : Event → Outcome
  | .agentReady => transition (.gating false false) [.spawnGate]
  | event => launching event

def restoring (origin : RestoreOrigin) : Event → Outcome
  | .restored =>
    transition (.gating true false)
      (.commitRestored (.report .ack) ::
        (if origin = .warmCreate then [.publish .created] else []) ++
        [.armTimer .ttl, .spawnGate])
  | .failure | .stranded | .vmExited | .frozen => transition .removing Effects.removal
  | event => launching event

def gating (committed claimed : Bool) : Event → Outcome
  | .gated =>
    let ready : List Effect :=
      (if committed then [] else [.persistPhase .ready (.report .unavailable)]) ++
        [.publish .ready, .answer .ready]
    if claimed then transition .running ready
    else transition .ready (ready ++ [.armTimer .idle])
  | .claimWorkload .initial =>
    if claimed then handled else transition (.gating committed true) [.publish .running]
  | .workloadExited | .workloadReleased =>
    if claimed then transition (.gating committed false) [.publish .idle] else handled
  | .failure =>
    if committed then transition .removing Effects.removal else computer .failure
  | .frozen =>
    if committed then transition .removing Effects.removal else computer .frozen
  | .stranded =>
    if committed then transition .removing Effects.removal else computer .stranded
  | .claimWorkload .api | .remove false => handled
  | event => computer event

def active : Event → Outcome
  | .stop budgetMs => transition .stopping (Effects.stop budgetMs false)
  -- The port call decides whether the machine moves.
  | .detach => ⟨none, [.detach]⟩
  | .detached =>
    transition .detached [.answer .detached, .cancelTimer .ttl, .cancelTimer .idle]
  | event => computer event

def ready : Event → Outcome
  | .claimWorkload _ => transition .running [.cancelTimer .idle, .publish .running]
  -- An idle pause is handled as a pause; the reason is not the machine's.
  | .pause _ | .idleExpired .pause =>
    transition .capturing
      [.persistPhase .pausing .warn, .cancelTimer .idle, .publish .pausing,
        .spawnCheckpoint true]
  | .idleExpired .kill => transition .removing Effects.removal
  | .checkpoint => transition .checkpointing [.cancelTimer .idle, .spawnCheckpoint false]
  | event => active event

def running : Event → Outcome
  | .workloadExited | .workloadReleased => transition .ready [.publish .idle, .armTimer .idle]
  | .stop budgetMs => transition .stopping (Effects.stop budgetMs true)
  | .claimWorkload _ | .pause _ | .checkpoint | .idleExpired _ | .remove false => handled
  | event => active event

def checkpointing : Event → Outcome
  | .captureDone _ | .failure => transition .ready [.armTimer .idle]
  | .claimWorkload _ | .pause _ | .checkpoint | .detach | .detached | .idleExpired _ => handled
  | event => active event

def suspending : Event → Outcome
  | .stop _ => handled
  | event => computer event

def capturing : Event → Outcome
  | .captureDone _ => transition .releasing [.spawnRelease .keepDisk]
  | .failure =>
    transition .ready [.persistPhase .ready .warn, .publish .ready, .armTimer .idle]
  | event => suspending event

def releasing : Event → Outcome
  | .releasedForPause =>
    transition .paused
      [.persistPhase .paused .gateJournal, .clearJournal, .publish .paused, .answer .paused]
  | event => suspending event

def paused : Event → Outcome
  | .resume =>
    transition .resuming [.persistPhase .resuming (.report .revertToPaused), .spawnResume]
  | .pause _ => handled
  | event => computer event

def resuming : Event → Outcome
  | .restored =>
    transition .ready
      [.persistPhase .ready .warn, .publish .resumed, .answer .resumed, .armTimer .idle]
  | .failure => transition .paused [.persistPhase .paused .warn, .publish .paused]
  | .remove false => handled
  | event => computer event

def stopping : Event → Outcome
  | .stopDone =>
    transition .stopped
      [.persistPhase .stopped .gateJournal, .clearJournal, .cancelTimer .ttl,
        .publish .stopped, .answer .stopped]
  | .vmExited => handled
  | event => computer event

def resting : Event → Outcome
  | .ttlExpired | .idleExpired _ | .vmExited | .failure | .stranded | .frozen => handled
  | event => computer event

def removing : Event → Outcome
  | .removeDone =>
    transition .gone [.forgetRecord .removed, .publish .removed, .answer .removed]
  | .remove _ | .ttlExpired | .failure | .stranded | .frozen | .vmExited => handled
  | event => computer event

end Machine

/-- The handler of a state. -/
def State.handler : State → Event → Outcome
  | provisioning => Machine.provisioning
  | staging => Machine.staging
  | booting => Machine.booting
  | restoring origin => Machine.restoring origin
  | gating committed claimed => Machine.gating committed claimed
  | ready => Machine.ready
  | running => Machine.running
  | checkpointing => Machine.checkpointing
  | capturing => Machine.capturing
  | releasing => Machine.releasing
  | paused => Machine.paused
  | resuming => Machine.resuming
  | stopping => Machine.stopping
  | stopped => Machine.resting
  | failed => Machine.resting
  | removing => Machine.removing
  -- Not under `computer`: a computer that was handed over, or forgotten, swallows all.
  | detached => fun _ => handled
  | gone => fun _ => handled

/-- `handle_with_context`: the state afterwards and the effects emitted. -/
def step (state : State) (event : Event) : State × List Effect :=
  ((state.handler event).target.getD state, (state.handler event).effects)

/-! ## The transition table -/

/-- The states that a teardown may be started from. -/
def State.removable : State → Bool
  | removing | detached | gone => false
  | _ => true

/-- The event degrades the computer to `failed` in this state. -/
def State.fails : State → Event → Bool
  | restoring _, _ | stopped, _ | failed, _ | removing, _ | detached, _ | gone, _ => false
  | gating true _, event => event == .vmExited
  | stopping, event => event == .failure || event == .frozen || event == .stranded
  | provisioning, event | checkpointing, event | capturing, event | resuming, event =>
    event == .vmExited || event == .frozen || event == .stranded
  | _, event =>
    event == .vmExited || event == .failure || event == .frozen || event == .stranded

/-- Everything a step can do: the event is swallowed, or it makes one of these moves. -/
inductive Moves : State → Event → State → List Effect → Prop
  | stay (s : State) (e : Event) : Moves s e s []
  | removal (s : State) (e : Event) (hs : s.removable) : Moves s e .removing Effects.removal
  | failure (s : State) (e : Event) (hs : s.fails e) : Moves s e .failed Effects.failure
  | boot (warm : Bool) :
      Moves .provisioning (.provision (.boot warm)) .staging
        [.persistPhase .starting (.report .ack), .spawnBoot warm, .publish .created,
          .armTimer .ttl]
  | restore (origin : RestoreOrigin) :
      Moves .provisioning (.provision (.restore origin)) (.restoring origin)
        [.spawnRestore origin]
  | abortProvision : Moves .provisioning .failure .gone [.forgetRecord .aborted]
  | recovered (phase : PersistPhase) (s : State)
      (hs : (Machine.recovered phase).target = some s) :
      Moves .provisioning (.recovered phase) s []
  | adopted : Moves .provisioning .adopted .ready []
  | handedOff : Moves .staging .resourcesHandedOff .booting []
  | agentReady : Moves .booting .agentReady (.gating false false) [.spawnGate]
  | restored (origin : RestoreOrigin) :
      Moves (.restoring origin) .restored (.gating true false)
        (.commitRestored (.report .ack) ::
          (if origin = .warmCreate then [.publish .created] else []) ++
          [.armTimer .ttl, .spawnGate])
  | gated (committed claimed : Bool) :
      Moves (.gating committed claimed) .gated (if claimed then .running else .ready)
        ((if committed then [] else [.persistPhase .ready (.report .unavailable)]) ++
          ([.publish .ready, .answer .ready] ++ if claimed then [] else [.armTimer .idle]))
  | claimInitial (committed : Bool) :
      Moves (.gating committed false) (.claimWorkload .initial) (.gating committed true)
        [.publish .running]
  | unclaim (committed : Bool) (e : Event) (he : e = .workloadExited ∨ e = .workloadReleased) :
      Moves (.gating committed true) e (.gating committed false) [.publish .idle]
  | stop (s : State) (budgetMs : BitVec 64) (drain : Bool)
      (hs : s = .ready ∨ s = .running ∨ s = .checkpointing) :
      Moves s (.stop budgetMs) .stopping (Effects.stop budgetMs drain)
  | detach (s : State) (hs : s = .ready ∨ s = .running) : Moves s .detach s [.detach]
  | detached (s : State) (hs : s = .ready ∨ s = .running) :
      Moves s .detached .detached [.answer .detached, .cancelTimer .ttl, .cancelTimer .idle]
  | claim (claim : WorkloadClaim) :
      Moves .ready (.claimWorkload claim) .running [.cancelTimer .idle, .publish .running]
  | pause (e : Event) (he : (∃ reason, e = .pause reason) ∨ e = .idleExpired .pause) :
      Moves .ready e .capturing
        [.persistPhase .pausing .warn, .cancelTimer .idle, .publish .pausing,
          .spawnCheckpoint true]
  | checkpoint :
      Moves .ready .checkpoint .checkpointing [.cancelTimer .idle, .spawnCheckpoint false]
  | unclaimed (e : Event) (he : e = .workloadExited ∨ e = .workloadReleased) :
      Moves .running e .ready [.publish .idle, .armTimer .idle]
  | checkpointed (e : Event) (he : (∃ id, e = .captureDone id) ∨ e = .failure) :
      Moves .checkpointing e .ready [.armTimer .idle]
  | captureDone (snapshotId : String) :
      Moves .capturing (.captureDone snapshotId) .releasing [.spawnRelease .keepDisk]
  | captureFailed :
      Moves .capturing .failure .ready
        [.persistPhase .ready .warn, .publish .ready, .armTimer .idle]
  | released :
      Moves .releasing .releasedForPause .paused
        [.persistPhase .paused .gateJournal, .clearJournal, .publish .paused, .answer .paused]
  | resume :
      Moves .paused .resume .resuming
        [.persistPhase .resuming (.report .revertToPaused), .spawnResume]
  | resumed :
      Moves .resuming .restored .ready
        [.persistPhase .ready .warn, .publish .resumed, .answer .resumed, .armTimer .idle]
  | resumeFailed :
      Moves .resuming .failure .paused [.persistPhase .paused .warn, .publish .paused]
  | stopDone :
      Moves .stopping .stopDone .stopped
        [.persistPhase .stopped .gateJournal, .clearJournal, .cancelTimer .ttl,
          .publish .stopped, .answer .stopped]
  | removeDone :
      Moves .removing .removeDone .gone
        [.forgetRecord .removed, .publish .removed, .answer .removed]

theorem moves_recovered (phase : PersistPhase) :
    Moves .provisioning (.recovered phase) (step .provisioning (.recovered phase)).1
      (step .provisioning (.recovered phase)).2 := by
  cases phase <;> first
    | exact .stay _ _
    | exact .recovered _ _ rfl

theorem moves_gated (committed claimed : Bool) :
    Moves (.gating committed claimed) .gated (step (.gating committed claimed) .gated).1
      (step (.gating committed claimed) .gated).2 := by
  cases committed <;> cases claimed <;> exact .gated _ _

/-- A step makes a move of the table. -/
theorem moves_step (s : State) (e : Event) : Moves s e (step s e).1 (step s e).2 := by
  cases s <;> cases e
  case provisioning.provision p => cases p <;> first | exact .boot _ | exact .restore _
  case provisioning.recovered phase => exact moves_recovered phase
  case gating.gated committed claimed => exact moves_gated committed claimed
  case gating.claimWorkload claimed claim =>
    cases claim <;> cases claimed <;> first | exact .stay _ _ | exact .claimInitial _
  case gating.workloadExited claimed =>
    cases claimed <;> first | exact .stay _ _ | exact .unclaim _ _ (.inl rfl)
  case gating.workloadReleased claimed =>
    cases claimed <;> first | exact .stay _ _ | exact .unclaim _ _ (.inr rfl)
  case gating.failure committed _ | gating.frozen committed _ | gating.stranded committed _ =>
    cases committed <;> first | exact .removal _ _ rfl | exact .failure _ _ rfl
  case gating.vmExited committed _ => cases committed <;> exact .failure _ _ rfl
  case ready.idleExpired action =>
    cases action <;> first | exact .removal _ _ rfl | exact .pause _ (.inr rfl)
  case running.workloadExited => exact .unclaimed _ (.inl rfl)
  case running.workloadReleased => exact .unclaimed _ (.inr rfl)
  case checkpointing.captureDone id => exact .checkpointed _ (.inl ⟨id, rfl⟩)
  case checkpointing.failure => exact .checkpointed _ (.inr rfl)
  case provisioning.remove force | staging.remove force | booting.remove force
      | restoring.remove force | gating.remove force | running.remove force
      | resuming.remove force => cases force <;> first | exact .stay _ _ | exact .removal _ _ rfl
  -- Most events leave the state, or end every state alike.
  any_goals exact .stay _ _
  any_goals exact .removal _ _ rfl
  any_goals exact .failure _ _ rfl
  case ready.stop => exact .stop _ _ _ (.inl rfl)
  case ready.detach => exact .detach _ (.inl rfl)
  case ready.detached => exact .detached _ (.inl rfl)
  case running.stop => exact .stop _ _ _ (.inr (.inl rfl))
  case running.detach => exact .detach _ (.inr rfl)
  case running.detached => exact .detached _ (.inr rfl)
  case checkpointing.stop => exact .stop _ _ _ (.inr (.inr rfl))
  all_goals first
    | exact .abortProvision
    | exact .adopted
    | exact .handedOff
    | exact .agentReady
    | exact .restored _
    | exact .claim _
    | exact .pause _ (.inl ⟨_, rfl⟩)
    | exact .checkpoint
    | exact .captureDone _
    | exact .captureFailed
    | exact .released
    | exact .resume
    | exact .resumed
    | exact .resumeFailed
    | exact .stopDone
    | exact .removeDone


end Arcbox.Computer.Lifecycle

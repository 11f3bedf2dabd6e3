import Arcbox.Computer.Machine
import Arcbox.Computer.RecordStore

set_option autoImplicit false

/-!
# Computer: the lifecycle actor

`lifecycle/actor/{mod,commands,effects,inflight}.rs`.  The actor owns one computer's
machine and runs the effects that a transition emits.  It takes one input at a time; what
the outside decides while it works on one (the record store's files, the joins it waits
for, the clock) is a `World`.  A ghost log notes what the actor did.

The actor's fields are grouped: `Desk` is what it owes its callers, `Work` the sub-task in
flight and the teardown that waits, `Journal` the two flags of the crash journal.
-/

namespace Arcbox.Computer.Lifecycle

/-! ## Sub-tasks -/

/-- What a user checkpoint records in the catalog. -/
structure CaptureSpec where
  name : String
  labels : List (String × String)
  deriving DecidableEq, Repr

structure CheckpointInfo where
  snapshotId : String
  snapshotDir : String
  createdAt : String
  deriving DecidableEq, Repr

/-- The flows that the actor spawns. -/
inductive Task where
  | boot (warm : Bool)
  | gate
  | restore (origin : RestoreOrigin)
  | checkpoint (hold : Bool) (spec : Option CaptureSpec)
  | resume
  | stop (budgetMs : BitVec 64) (drain : Bool)
  | release (scope : ReleaseScope)
  deriving DecidableEq, Repr

inductive FailureClass where
  | recoverable
  | frozen
  | stranded
  deriving DecidableEq, Repr

/-- The event that a failure drives the machine with. -/
def FailureClass.event : FailureClass → Event
  | .recoverable => .failure
  | .frozen => .frozen
  | .stranded => .stranded

structure TaskFailure where
  kind : FailureClass
  error : ComputerError
  deriving DecidableEq, Repr

/-- What a completed sub-task tells the actor. -/
inductive Report where
  | booted
  | restored (outcome : ComputerProvisionOutcome)
  | resumed
  | gated
  | captured (info : CheckpointInfo)
  | released (scope : ReleaseScope)
  | stopped
  | failed (failure : TaskFailure)
  deriving DecidableEq, Repr

/-- The reports a flow ends with: its own success, or a failure. -/
def Task.mayReport : Task → Report → Bool
  | _, .failed _ => true
  | .boot _, .booted => true
  | .gate, .gated => true
  | .restore _, .restored _ => true
  | .checkpoint _ _, .captured _ => true
  | .resume, .resumed => true
  | .stop _ _, .stopped => true
  | .release scope, .released scope' => scope == scope'
  | _, _ => false

/-- What a teardown may do to the sub-task it preempts. -/
inductive Handoff where
  | awaited
  | abortable
  | joinOnly
  deriving DecidableEq, Repr

/-- The in-flight sub-task. -/
structure Preemptible where
  task : Task
  handoff : Handoff
  deriving DecidableEq, Repr

/-- What a stalled teardown is waiting on. -/
inductive StalledStep where
  | handoff
  | record (recordEnd : RecordEnd)
  deriving DecidableEq, Repr

/-- A teardown parked on a step that could not complete yet. -/
structure Stalled where
  retry : StalledStep
  state : State
  effects : List Effect
  deriving DecidableEq, Repr

/-- Whether the effect drain may continue. -/
inductive Flow where
  | proceed
  | stalled
  | refused
  deriving DecidableEq, Repr

/-- `RETRY_INITIAL`, 250 ms. -/
def retryInitial : Nat := 250000000

/-- `RETRY_MAX`, 5 s. -/
def retryMax : Nat := 5000000000

/-! ## What the outside decides -/

/-- The bounded wait of a teardown for the boot's resource handoff. -/
inductive Signal where
  | landed
  | dropped
  | elapsed
  deriving DecidableEq, Repr

/-- The bounded join of a preempted sub-task: it ended or was cancelled, it panicked, or
the wait elapsed. -/
inductive Join where
  | ended
  | panicked (error : String)
  | elapsed
  deriving DecidableEq, Repr

/-- The port call that gives the VM up, bounded by `DETACH_TIMEOUT`. -/
inductive Handover where
  | done
  | failed (error : ComputerError)
  | elapsed
  deriving DecidableEq, Repr

/-- What one input's processing meets.  The store is called several times; each of the
waits happens at most once. -/
structure World where
  io : Nat → StoreIo
  signal : Signal
  join : Join
  handover : Handover
  /-- Whether a boot's signal is in its channel when its completion is taken. -/
  handedOff : Bool
  timersEnabled : Bool
  now : Nat

/-! ## What the actor did -/

/-- A parked caller. -/
abbrev Caller := Nat

/-- How a durable write ended. -/
inductive Verdict where
  | confirmed
  | unconfirmed
  | refused
  deriving DecidableEq, Repr

def Verdict.of {α : Type} : Except ComputerError (DurableCommit α) → Verdict
  | .error _ => .refused
  | .ok commit => if commit.durabilityError.isSome then .unconfirmed else .confirmed

inductive Note where
  | replied (caller : Caller) (result : Except ComputerError Unit)
  | captured (caller : Caller) (result : Except ComputerError CheckpointInfo)
  | published (notify : Notify)
  | wrote (phase : PersistPhase) (verdict : Verdict)
  | deleted (verdict : Verdict)
  | spawned (task : Task)
  | aborted (handoff : Handoff)
  | panicked
  | reported (task : Option Task) (report : Report)
  /-- `clear_state_record` was called, with a sub-task in flight or without. -/
  | cleared (inflight : Bool)
  | unregistered
  deriving Repr

/-! ## The actor -/

/-- The deadline policy of one computer. -/
structure Deadlines where
  ttl : Option Nat
  idleTimeoutSeconds : BitVec 32
  onIdle : IdleAction
  deriving DecidableEq, Repr

structure Desk where
  waiters : List (Answer × Caller)
  captureReply : Option Caller
  pendingStop : Option Nat
  unconfirmed : Option String
  answerError : Option String
  unwinding : Option ComputerError
  deriving DecidableEq, Repr

structure Work where
  inflight : Option Preemptible
  epoch : Nat
  /-- The sub-tasks that were spawned and have not reported, with their epochs. -/
  live : List (Nat × Task)
  stalled : Option Stalled
  stalledOn : StalledStep
  retryBackoff : Nat
  retry : Option Nat
  deriving DecidableEq, Repr

structure Journal where
  clearAfterRelease : Bool
  blocked : Bool
  deriving DecidableEq, Repr

/-- The deadlines and the two timers, each armed with what is left of it. -/
structure Timers where
  deadlines : Deadlines
  ttl : Option Nat
  idle : Option Nat
  deriving DecidableEq, Repr

/-- What the durable writes carry, and what the next capture records. -/
structure Details where
  error : Option String
  pauseSnapshotId : Option String
  outcome : ComputerProvisionOutcome
  capture : Option CaptureSpec
  deriving DecidableEq, Repr

structure Actor where
  id : String
  generation : Option Uuid
  state : State
  queued : List Event
  desk : Desk
  work : Work
  journal : Journal
  timers : Timers
  details : Details
  file : RecordFile
  /-- How often the record store was called. -/
  calls : Nat
  exited : Bool
  log : List Note
  deriving Repr

namespace Actor

variable (w : World) (a : Actor)

def note (n : Note) : Actor := { a with log := a.log ++ [n] }

/-- What every reader sees; republished whenever the machine moves. -/
def publicState : ComputerState := a.state.toPublic

def wrongState (expected : String) : ComputerError := .wrongState a.id expected a.publicState.text

/-! ## Replies -/

def reply (caller : Caller) (result : Except ComputerError Unit) : Actor :=
  a.note (.replied caller result)

variable (phase : PersistPhase) (error : ComputerError)

/-- The typed error goes to the first caller; the others get its text. -/
def failures : List Caller → List Note
  | [] => []
  | first :: rest =>
    .replied first (.error error) ::
      rest.map fun caller => .replied caller (.error (.other error.text))

/-- `fail_parked`, with how many heard it. -/
def failParked (removalsToo : Bool) : Actor × Nat :=
  let heard := a.desk.waiters.filter fun w => w.1 != .removed || removalsToo
  let remaining := a.desk.waiters.filter fun w => !(w.1 != .removed || removalsToo)
  ({ a with
      desk.waiters := remaining
      log := a.log ++ failures error (heard.map Prod.snd) },
    heard.length)

def failWaiters : Actor := (a.failParked error false).1

def failEveryWaiter : Actor × Nat := a.failParked error true

/-- What the callers of a flow that reached its answer are told. -/
def verdict : Except ComputerError Unit :=
  match a.desk.answerError, a.desk.unconfirmed with
  | some detail, _ => .error (.unavailable detail)
  | none, some detail => .error (.ackUnconfirmed a.id detail)
  | none, none => .ok ()

def answer (kind : Answer) : Actor :=
  let heard := a.desk.waiters.filter fun w => w.1 == kind
  { a with
    desk := { a.desk with
      waiters := a.desk.waiters.filter fun w => w.1 != kind
      unconfirmed := none
      answerError := none }
    log := a.log ++ heard.map fun w => .replied w.2 a.verdict }

def park (kind : Answer) (caller : Caller) : Actor :=
  match a.desk.answerError with
  | some detail =>
    { a with desk.answerError := none }.reply caller (.error (.unavailable detail))
  | none => { a with desk.waiters := a.desk.waiters ++ [(kind, caller)] }

/-- `acknowledged`, sent to the caller whose flow is under way. -/
def acknowledge (caller : Caller) : Actor :=
  match a.desk.answerError with
  | some detail =>
    { a with desk.answerError := none }.reply caller (.error (.unavailable detail))
  | none =>
    match a.desk.unconfirmed with
    | some detail =>
      { a with desk.unconfirmed := none }.reply caller (.error (.ackUnconfirmed a.id detail))
    | none => a.reply caller (.ok ())

/-- `abandon_capture`. -/
def abandonCapture : Actor :=
  match a.desk.captureReply with
  | none => a
  | some caller =>
    { a with desk.captureReply := none }.note (.captured caller (.error (.unavailable
      ("computer " ++ a.id ++ ": the checkpoint was preempted by another operation"))))

/-! ## Durable writes -/

/-- One call of the store's `transition`. -/
def write (generation : Uuid) (tr : ComputerTransition) :
    Except ComputerError (DurableCommit ComputerRecord) × Actor :=
  let result := RecordStore.transition (w.io a.calls) a.id generation tr a.file
  (result.1,
    { a with file := result.2, calls := a.calls + 1 }.note (.wrote tr.phase (.of result.1)))

def failWrite (detail : String) : Actor × Flow :=
  let message := "computer " ++ a.id ++ " " ++ detail
  let error := ComputerError.unavailable message
  let failed := { a with details.error := some error.text }.failEveryWaiter error
  let a := if failed.2 = 0 then { failed.1 with desk.answerError := some message } else failed.1
  ({ a with queued := a.queued ++ [.failure] }, .refused)

def refusedText : String := "recording " ++ phase.asStr ++ " failed: " ++ error.text

def unconfirmedText (error : String) : String :=
  "state is visible, but durability is unconfirmed: " ++ error

/-- `commit` at `Durability::Warn`: an unconfirmed write is good enough. -/
def commitWarn (tr : ComputerTransition) : Actor × Flow :=
  match a.generation with
  | none => (a, .proceed)
  | some generation =>
    match a.write w generation tr with
    | (.error error, a) => a.failWrite (refusedText phase error)
    | (.ok _, a) => (a, .proceed)

/-- The transition that parks the record at `Paused`. -/
def pausedTransition : ComputerTransition := .paused (a.details.pauseSnapshotId.getD "")

def commit (w : World) (a : Actor) (phase : PersistPhase) (tr : ComputerTransition)
    (durability : Durability) : Actor × Flow :=
  match a.generation with
  | none => (a, .proceed)
  | some generation =>
    match a.write w generation tr with
    | (.error error, a) =>
      if durability = .gateJournal then ({ a with journal.blocked := true }, .proceed)
      else a.failWrite (refusedText phase error)
    | (.ok commit, a) =>
      match commit.durabilityError with
      | none => (a, .proceed)
      | some error =>
        match durability with
        | .warn => (a, .proceed)
        | .gateJournal => ({ a with journal.blocked := true }, .proceed)
        | .report .ack => ({ a with desk.unconfirmed := some error }, .proceed)
        | .report .unavailable => a.failWrite (unconfirmedText error)
        | .report .revertToPaused =>
          match a.commitWarn w .paused a.pausedTransition with
          -- A revert that was refused has failed the flow already.
          | (a, .refused) => (a, .refused)
          | (a, _) => a.failWrite (unconfirmedText error)

/-- The transition that records a phase; the provisioning intent is nobody's to write. -/
def transitionFor : PersistPhase → Option ComputerTransition
  | .starting => some (.starting a.details.outcome)
  | .ready => some .ready
  | .stopping => some .stopping
  | .stopped => some .stopped
  | .failed => some (.failed (a.details.error.getD ""))
  | .removing => some .removing
  | .pausing => some .pausing
  | .paused => some a.pausedTransition
  | .resuming => some .resuming
  | .creating => none

def persist (durability : Durability) : Actor × Flow :=
  match a.transitionFor phase with
  | none => (a, .proceed)
  | some tr => a.commit w phase tr durability

def scheduleRetry : Actor :=
  { a with
    work.retry := some a.work.retryBackoff
    work.retryBackoff := min (2 * a.work.retryBackoff) retryMax }

/-- The store's call that ends a record. -/
def endRecord (generation : Uuid) (recordEnd : RecordEnd) :
    Except ComputerError (DurableCommit Unit) × RecordFile :=
  match recordEnd with
  | .aborted => RecordStore.abortProvision (w.io a.calls) a.id generation a.file
  | .removed => RecordStore.finishRemove (w.io a.calls) a.id generation a.file

def forget (recordEnd : RecordEnd) : Actor × Flow :=
  match a.generation with
  | none => (a.note .unregistered, .proceed)
  | some generation =>
    let result := a.endRecord w generation recordEnd
    let a := { a with file := result.2, calls := a.calls + 1 }.note (.deleted (.of result.1))
    match result.1 with
    | .ok commit =>
      ({ a with
          desk.unconfirmed := commit.durabilityError.or a.desk.unconfirmed
          desk.answerError := none
          work.retryBackoff := retryInitial }.note .unregistered,
        .proceed)
    | .error error =>
      ({ a with
          desk.answerError :=
            some ("computer " ++ a.id ++ ": the record would not delete: " ++ error.text)
          work.stalledOn := .record recordEnd }.scheduleRetry,
        .stalled)

/-- `clear_journal`: a blocked clear is skipped, and the block is used up. -/
def clearJournal : Actor :=
  if a.journal.blocked then { a with journal.blocked := false }
  else a.note (.cleared a.work.inflight.isSome)

/-! ## The sub-task in flight -/

def spawn (task : Task) (handoff : Handoff) : Actor :=
  let a :=
    match a.work.inflight with
    | none => a
    | some previous => (a.note (.aborted previous.handoff)).abandonCapture
  { a with
    work.inflight := some ⟨task, handoff⟩
    work.epoch := a.work.epoch + 1
    work.live := a.work.live ++ [(a.work.epoch + 1, task)] }.note (.spawned task)

/-- Re-park a sub-task that still owns resources. -/
def stall (task : Preemptible) : Actor × Flow :=
  ({ a with work.inflight := some task, work.stalledOn := .handoff }.scheduleRetry, .stalled)

/-- The join at the end of `abort_inflight`. -/
def joinInflight (task : Preemptible) : Actor × Flow :=
  match w.join with
  | .elapsed => a.stall task
  | .panicked error =>
    let a := ((a.note .panicked).failEveryWaiter
      (.process ("computer " ++ a.id ++ " sub-task panicked: " ++ error))).1
    ({ a with work.epoch := a.work.epoch + 1 }, .stalled)
  | .ended =>
    ({ a with
        work.epoch := a.work.epoch + 1
        work.retryBackoff := retryInitial }.abandonCapture, .proceed)

def abortInflight : Actor × Flow :=
  match a.work.inflight with
  | none => ({ a with work.epoch := a.work.epoch + 1 }, .proceed)
  | some task =>
    let a := { a with work.inflight := none }
    match task.handoff with
    | .awaited =>
      match w.signal with
      | .landed => (a.note (.aborted .abortable)).joinInflight w ⟨task.task, .abortable⟩
      -- The producer is tearing down what it never handed over.
      | .dropped => a.joinInflight w ⟨task.task, .joinOnly⟩
      | .elapsed => a.stall task
    | .abortable => (a.note (.aborted .abortable)).joinInflight w task
    | .joinOnly => a.joinInflight w task

/-! ## Timers -/

/-- `deadlines::ttl_due`. -/
def ttlDue (state : ComputerState) (deadline : Option Nat) : Option Nat :=
  match state with
  | .stopped | .failed => none
  | _ => deadline

/-- `deadlines::idle_due`. -/
def idleDue (state : ComputerState) (timeoutSeconds : BitVec 32) : Option Nat :=
  if state = .ready ∧ timeoutSeconds ≠ 0 then some (seconds timeoutSeconds) else none

def arm (timer : Timer) (state : State) : Actor :=
  if !w.timersEnabled then a
  else
    match timer with
    | .ttl =>
      { a with timers.ttl :=
          (ttlDue state.toPublic a.timers.deadlines.ttl).map fun deadline => deadline - w.now }
    | .idle =>
      { a with timers.idle := idleDue state.toPublic a.timers.deadlines.idleTimeoutSeconds }

def rearm : Actor := (a.arm w .ttl a.state).arm w .idle a.state

/-! ## Effects -/

/-- `Effect::Detach`, the one port call that the actor awaits itself. -/
def handOver : Actor :=
  match w.handover with
  | .done => { a with queued := a.queued ++ [.detached] }
  | .failed error => a.failWaiters error
  | .elapsed =>
    a.failWaiters (.process
      ("handing computer " ++ a.id ++ " over did not finish within 5s"))

/-- `Effect::Answer`: a removal that unwound a failed flow answers that flow's callers. -/
def answerEffect (kind : Answer) : Actor :=
  match kind, a.desk.unwinding with
  | .removed, some error =>
    ({ a with desk.unwinding := none }.failWaiters error).answer .removed
  | kind, _ => a.answer kind

def apply (state : State) : Effect → Actor × Flow
  | .persistPhase phase durability => a.persist w phase durability
  | .commitRestored durability =>
    a.commit w .ready (.readyWithOutcome a.details.outcome) durability
  | .forgetRecord recordEnd => a.forget w recordEnd
  | .clearJournal =>
    (if a.work.inflight.isSome then { a with journal.clearAfterRelease := true }
      else a.clearJournal, .proceed)
  | .spawnBoot warm => (a.spawn (.boot warm) .awaited, .proceed)
  | .spawnGate => (a.spawn .gate .abortable, .proceed)
  | .spawnRestore origin => (a.spawn (.restore origin) .joinOnly, .proceed)
  | .spawnCheckpoint hold =>
    ({ a with details.capture := none }.spawn (.checkpoint hold a.details.capture) .abortable,
      .proceed)
  | .spawnResume => (a.spawn .resume .joinOnly, .proceed)
  | .spawnStop budgetMs drain => (a.spawn (.stop budgetMs drain) .abortable, .proceed)
  | .spawnRelease scope => (a.spawn (.release scope) .abortable, .proceed)
  | .detach => (a.handOver w, .proceed)
  | .abortInflight => a.abortInflight w
  | .publish notify => (a.note (.published notify), .proceed)
  | .armTimer timer => (a.arm w timer state, .proceed)
  | .cancelTimer .ttl => ({ a with timers.ttl := none }, .proceed)
  | .cancelTimer .idle => ({ a with timers.idle := none }, .proceed)
  | .answer kind => (a.answerEffect kind, .proceed)

/-- `park_stalled`. -/
def parkStalled (state : State) (effects : List Effect) : Actor :=
  { a with
    work.stalled := some ⟨a.work.stalledOn, state, effects⟩
    work.stalledOn := .handoff }

/-- The effect drain: a stalled one is parked with what it did not reach, a refused one
drops the rest. -/
def runEffects (w : World) (state : State) : List Effect → Actor → Actor
  | [], a => a
  | effect :: rest, a =>
    match a.apply w state effect with
    | (a, .proceed) => runEffects w state rest a
    | (a, .stalled) => a.parkStalled state rest
    | (a, .refused) => a

/-! ## Dispatch -/

/-- One event through the machine and its effects, with whether the machine acted. -/
def handle (event : Event) : Actor × Bool :=
  let next := step a.state event
  (runEffects w next.1 next.2 { a with state := next.1 },
    !next.2.isEmpty || next.1 != a.state)

/-- The events that effects asked for, in order. -/
def drain (w : World) : Nat → Actor → Actor
  | 0, a => a
  | fuel + 1, a =>
    match a.queued with
    | [] => a
    | event :: rest => drain w fuel ({ a with queued := rest }.handle w event).1

def dispatch (event : Event) : Actor × Bool :=
  let handled := a.handle w event
  (drain w (handled.1.queued.length + 2) handled.1, handled.2)

/-! ## Teardowns that waited -/

/-- `resume_stalled`. -/
def resumeStalled : Actor :=
  match a.work.stalled with
  | none => a
  | some stalled =>
    let a := { a with work.stalled := none }
    let retried :=
      match stalled.retry with
      | .handoff => a.abortInflight w
      | .record recordEnd => a.forget w recordEnd
    match retried with
    | (a, .stalled) => { a with work.stalled := some stalled }
    | (a, _) => runEffects w stalled.state stalled.effects a

/-- `restart_teardown`. -/
def restartTeardown : Actor :=
  if a.work.stalled.isSome then a.resumeStalled w
  else runEffects w a.state Effects.removal a

/-! ## Commands -/

end Actor

structure LifecycleUpdate where
  ttlSeconds : Option (BitVec 32)
  idleTimeoutSeconds : Option (BitVec 32)
  onIdle : Option IdleAction
  deriving DecidableEq, Repr

/-- A verb addressed to one computer. -/
inductive Command where
  | provision (provision : Provision) (outcome : ComputerProvisionOutcome) (caller : Caller)
  | checkpoint (spec : CaptureSpec) (caller : Caller)
  | pause (reason : PauseReason) (caller : Caller)
  | resume (caller : Caller)
  | stop (budget : Nat) (caller : Caller)
  | remove (force : Bool) (caller : Caller)
  | detach (caller : Caller)
  | claimWorkload (claim : WorkloadClaim) (caller : Caller)
  | workloadExited
  | releaseWorkload
  | setLifecycle (update : LifecycleUpdate) (caller : Caller)
  | vmExited
  deriving DecidableEq, Repr

namespace Actor

/-- Milliseconds of a duration, `u64::MAX` where they do not fit. -/
def budgetMs (budget : Nat) : BitVec 64 :=
  if budget / 1000000 < 2 ^ 64 then BitVec.ofNat 64 (budget / 1000000) else BitVec.allOnes 64

variable (w : World) (a : Actor)

/-- `refuse_handed_over`. -/
def refuseHandedOver : Command → Actor
  | .provision _ _ caller | .pause _ caller | .resume caller | .stop _ caller
  | .remove _ caller | .claimWorkload _ caller | .setLifecycle _ caller | .detach caller =>
    a.reply caller (.error (a.wrongState "a computer this process still owns"))
  | .checkpoint _ caller =>
    a.note (.captured caller (.error (a.wrongState "a computer this process still owns")))
  | .workloadExited | .releaseWorkload | .vmExited => a

variable (caller : Caller)

/-- `finish_stop`, sent to the caller of the retried stop. -/
def finishStop : Actor :=
  match a.generation with
  | none => a.reply caller (.ok ())
  | some generation =>
    match a.write w generation .stopped with
    | (.error error, a) => a.reply caller (.error error)
    | (.ok commit, a) =>
      match commit.confirmed "computer stop retry" with
      | .error error => a.reply caller (.error error)
      | .ok _ => ({ a with journal.blocked := false }.clearJournal).reply caller (.ok ())

def onProvision (provision : Provision) (outcome : ComputerProvisionOutcome) (caller : Caller) :
    Actor :=
  match { a with details.outcome := outcome }.dispatch w (.provision provision) with
  | (a, false) => a.reply caller (.error (a.wrongState "a fresh computer"))
  | (a, true) =>
    match provision with
    | .restore _ => a.park .ready caller
    | .boot _ => a.acknowledge caller

def onCheckpoint (spec : CaptureSpec) (caller : Caller) : Actor :=
  match { a with details.capture := some spec }.dispatch w .checkpoint with
  | (a, true) => { a with desk.captureReply := some caller }
  | (a, false) =>
    { a with details.capture := none }.note (.captured caller (.error (a.wrongState "Ready")))

def onPause (reason : PauseReason) (caller : Caller) : Actor :=
  match a.dispatch w (.pause reason) with
  | (a, true) => a.park .paused caller
  | (a, false) =>
    a.reply caller (if a.publicState = .paused then .ok () else .error (a.wrongState "Ready"))

def onResume : Actor :=
  match a.dispatch w .resume with
  | (a, true) => a.park .resumed caller
  | (a, false) =>
    a.reply caller
      (if a.publicState = .ready ∨ a.publicState = .running then .ok () else .error (a.wrongState "Paused"))

def onStop (budget : Nat) (caller : Caller) : Actor :=
  match a.dispatch w (.stop (budgetMs budget)) with
  | (a, true) => a.park .stopped caller
  | (a, false) =>
    -- Deferred until the launch resolves.
    if a.state.launching then
      { a with
        desk.pendingStop := a.desk.pendingStop.or (some budget)
        desk.waiters := a.desk.waiters ++ [(Answer.stopped, caller)] }
    else
      match a.publicState with
      | .stopping => a.park .stopped caller
      | .stopped => a.finishStop w caller
      | _ => a.reply caller (.error (a.wrongState "Ready, Running, or Stopping"))

/-- Answer the caller that was parked last. -/
def answerLast (result : Except ComputerError Unit) : Actor :=
  match a.desk.waiters.getLast? with
  | none => a
  | some (_, caller) =>
    { a with desk.waiters := a.desk.waiters.dropLast }.reply caller result

def onRemove (force : Bool) (caller : Caller) : Actor :=
  -- Parked before the dispatch: the teardown may fail during it.
  match { a with desk.waiters := a.desk.waiters ++ [(Answer.removed, caller)] }.dispatch w
      (.remove force) with
  | (a, true) => a
  | (a, false) =>
    match a.state with
    | .removing =>
      if a.work.inflight.isNone ∧ a.work.retry.isNone then a.restartTeardown w else a
    | .gone =>
      if a.work.stalled.isSome then (if a.work.retry.isNone then a.resumeStalled w else a)
      else a.answer .removed
    | _ => a.answerLast (.error (a.wrongState "non-running (pass force=true to override)"))

/-- The states that hold nothing a handover could lose. -/
def nothingToHandOver : State → Bool
  | .provisioning | .paused | .stopped | .failed | .gone | .detached => true
  | _ => false

def onDetach : Actor :=
  -- What an earlier flow left unreported is dropped: the handover answers for itself.
  match { a with desk := { a.desk with
      answerError := none, unconfirmed := none
      waiters := a.desk.waiters ++ [(Answer.detached, caller)] } }.dispatch w .detach with
  | (a, true) => a
  | (a, false) =>
    a.answerLast
      (if nothingToHandOver a.state then .ok ()
        else .error
          (a.wrongState "a computer with no launch, capture, or teardown in flight"))

def onClaimWorkload (claim : WorkloadClaim) (caller : Caller) : Actor :=
  match a.dispatch w (.claimWorkload claim) with
  | (a, true) => a.reply caller (.ok ())
  | (a, false) =>
    a.reply caller (.error (a.wrongState
      (match claim with
        | .api => "Ready"
        | .initial => "Starting or Ready")))

/-- The patch of `SetLifecycle` on the deadlines. -/
def updatedDeadlines (now : Nat) (d : Deadlines) (update : LifecycleUpdate) : Deadlines where
  ttl :=
    match update.ttlSeconds with
    | none => d.ttl
    | some ttl => if 0 < ttl then some (now + seconds ttl) else none
  idleTimeoutSeconds := update.idleTimeoutSeconds.getD d.idleTimeoutSeconds
  onIdle := update.onIdle.getD d.onIdle

/-- `persist_lifecycle`. -/
def persistLifecycle : Except ComputerError Unit × Actor :=
  match a.generation with
  | none => (.ok (), a)
  | some generation =>
    let d := a.timers.deadlines
    let result := RecordStore.updateLifecycle (w.io a.calls) a.id generation d.ttl
      d.idleTimeoutSeconds d.onIdle a.file
    (match result.1 with
      | .error error => .error error
      | .ok commit => commit.confirmed "computer lifecycle update",
      { a with file := result.2, calls := a.calls + 1 })

def onSetLifecycle (update : LifecycleUpdate) (caller : Caller) : Actor :=
  match a.publicState with
  | .stopping | .stopped | .failed =>
    a.reply caller
      (.error (a.wrongState "a live computer (not stopping, stopped, or failed)"))
  | _ =>
    match { a with timers.deadlines :=
        updatedDeadlines w.now a.timers.deadlines update }.persistLifecycle w with
    | (persisted, a) => (a.rearm w).reply caller persisted

def onVmExited : Actor :=
  ({ a with details.error :=
      a.details.error.or (some ("computer " ++ a.id ++ " exited unexpectedly")) }.dispatch w
    .vmExited).1

def onCommand (command : Command) : Actor :=
  match a.state, command with
  | .detached, .detach caller => a.onDetach w caller
  | .detached, command => a.refuseHandedOver command
  | _, .provision provision outcome caller => a.onProvision w provision outcome caller
  | _, .checkpoint spec caller => a.onCheckpoint w spec caller
  | _, .pause reason caller => a.onPause w reason caller
  | _, .resume caller => a.onResume w caller
  | _, .stop budget caller => a.onStop w budget caller
  | _, .remove force caller => a.onRemove w force caller
  | _, .detach caller => a.onDetach w caller
  | _, .claimWorkload claim caller => a.onClaimWorkload w claim caller
  | _, .workloadExited => (a.dispatch w .workloadExited).1
  | _, .releaseWorkload => (a.dispatch w .workloadReleased).1
  | _, .setLifecycle update caller => a.onSetLifecycle w update caller
  | _, .vmExited => a.onVmExited w

/-! ## Completions -/

/-- `serve_pending_stop`. -/
def servePendingStop : Actor :=
  match a.desk.pendingStop with
  | none => a
  | some budget =>
    if a.state.launching then a
    else
      let a := { a with desk.pendingStop := none }
      match a.publicState with
      | .ready | .running => (a.dispatch w (.stop (budgetMs budget))).1
      | _ => a.answer .stopped

/-- The sub-task in flight is a boot whose handoff signal has landed unseen. -/
def handedOff : Bool :=
  match a.work.inflight with
  | some ⟨_, .awaited⟩ => w.handedOff
  | _ => false

/-- The sub-task that reported is taken; a boot's handoff goes to the machine first. -/
def takeInflight : Actor :=
  if a.handedOff w then
    ({ a with work.inflight := none }.dispatch w .resourcesHandedOff).1
  else { a with work.inflight := none }

/-- The journal clear that a failure deferred to its release. -/
def clearDeferred (report : Report) : Actor :=
  let deferred := a.journal.clearAfterRelease
  let a := { a with journal.clearAfterRelease := false }
  match deferred, report with
  | true, .released _ => a.clearJournal
  | _, _ => a

/-- The capture's caller gets the typed error, and the others then its text. -/
def tellCapture (error : ComputerError) : Actor × ComputerError :=
  match a.desk.captureReply with
  | none => (a, error)
  | some caller =>
    ({ a with desk.captureReply := none }.note (.captured caller (.error error)),
      .other error.text)

/-- A launch that failed has nothing left to stop: a stop deferred behind it got what it
asked for. -/
def answerPendingStop : Actor :=
  if a.desk.pendingStop.isSome then { a with desk.pendingStop := none }.answer .stopped else a

/-- A removal's own failure reaches everyone; another is kept until it is clear whether a
removal unwinds it. -/
def keepFailure (error : ComputerError) : Actor :=
  if a.state = .removing then
    match a.desk.unwinding with
    | some cause =>
      ({ a with desk.unwinding := none }.failEveryWaiter (.unavailable
        (cause.text ++ "; teardown incomplete: " ++ error.text))).1
    | none => (a.failEveryWaiter error).1
  else { a with desk.unwinding := some error }

/-- `Report::Failed`, up to the event. -/
def onFailed (failure : TaskFailure) : Actor :=
  let told := { a with details.error := some failure.error.text }.tellCapture failure.error
  told.1.answerPendingStop.keepFailure told.2

def answerCapture (info : CheckpointInfo) : Actor :=
  match a.desk.captureReply with
  | none => a
  | some caller => { a with desk.captureReply := none }.note (.captured caller (.ok info))

/-- What a report does before the machine hears of it, and the event it becomes. -/
def onReport : Report → Actor × Option Event
  | .booted => (a, some .agentReady)
  | .restored outcome => ({ a with details.outcome := outcome }, some .restored)
  | .resumed => (a, some .restored)
  | .gated => (a, some .gated)
  | .captured info =>
    ({ a.answerCapture info with details.pauseSnapshotId := some info.snapshotId },
      some (.captureDone info.snapshotId))
  | .released .full => (a, some .removeDone)
  | .released .keepDisk => (a, some .releasedForPause)
  | .released .runtime => (a, none)
  | .stopped => (a, some .stopDone)
  | .failed failure => (a.onFailed failure, some failure.kind.event)

/-- The failure of a flow that was not unwound by a removal reaches its callers. -/
def failUnwound : Actor :=
  match a.desk.unwinding with
  | none => a
  | some error =>
    if a.state = .removing then a else { a with desk.unwinding := none }.failWaiters error

/-- `on_completion`, for the sub-task of the current epoch. -/
def onCurrent (report : Report) : Actor :=
  let taken := (a.note (.reported (a.work.inflight.map (·.task)) report)).takeInflight w
  let told := (taken.clearDeferred report).onReport report
  let a :=
    match told.2 with
    | some event => (told.1.dispatch w event).1.failUnwound
    | none => told.1
  a.servePendingStop w

def onCompletion (epoch : Nat) (report : Report) : Actor :=
  if epoch ≠ a.work.epoch then a else a.onCurrent w report

/-! ## The loop -/

/-- The end of `run`: whoever is still parked is told that the computer is gone. -/
def exit : Actor :=
  let aborted : Actor :=
    match a.work.inflight with
    | none => a
    | some task => { a with work.inflight := none }.note (.aborted task.handoff)
  let answered :=
    { aborted.note .unregistered with
      desk.waiters := []
      log := (aborted.note .unregistered).log ++
        aborted.desk.waiters.map fun w : Answer × Caller => Note.replied w.2 (.error (.notFound a.id)) }
  let captured : Actor :=
    match answered.desk.captureReply with
    | none => answered
    | some caller =>
      { answered with desk.captureReply := none }.note
        (.captured caller (.error (.notFound a.id)))
  { captured with exited := true }

end Actor

/-- What the select loop takes next. -/
inductive Input where
  | command (command : Command)
  | completion (epoch : Nat) (report : Report)
  | handoff (landed : Bool)
  | ttl
  | idle
  | retry
  | timersChanged
  /-- Every command sender was dropped. -/
  | closed
  deriving DecidableEq, Repr

namespace Actor

/-- One arm of the select loop; an input that cannot arrive changes nothing. -/
def select (w : World) (a : Actor) : Input → Actor
  | .command command => a.onCommand w command
  | .completion epoch report =>
    match a.work.live.find? fun t => t.1 == epoch with
    | none => a
    | some (_, task) =>
      if task.mayReport report then
        { a with work.live := a.work.live.filter fun t => t.1 != epoch }.onCompletion w
          epoch report
      else a
  | .handoff landed =>
    match a.work.inflight with
    | some ⟨task, .awaited⟩ =>
      if landed then
        ({ a with work.inflight := some ⟨task, .abortable⟩ }.dispatch w .resourcesHandedOff).1
      else { a with work.inflight := some ⟨task, .joinOnly⟩ }
    | _ => a
  | .ttl =>
    if a.timers.ttl.isSome then ({ a with timers.ttl := none }.dispatch w .ttlExpired).1 else a
  | .idle =>
    if a.timers.idle.isSome then
      ({ a with timers.idle := none }.dispatch w
        (.idleExpired a.timers.deadlines.onIdle)).1
    else a
  | .retry =>
    if a.work.retry.isSome then { a with work.retry := none }.resumeStalled w else a
  | .timersChanged => a.rearm w
  | .closed => a.exit

/-- One turn of the loop. -/
def react (w : World) (a : Actor) (input : Input) : Actor :=
  if a.exited then a
  else
    let a := a.select w input
    if a.exited then a
    else if a.state = .gone ∧ a.work.stalled.isNone then a.exit
    else a

end Actor

/-! ## Seeds and runs -/

/-- How a computer's machine starts. -/
inductive Seeded where
  | fresh
  | recovered (phase : PersistPhase)
  | adopted
  deriving DecidableEq, Repr

/-- What one actor is built from. -/
structure ComputerSeed where
  id : String
  generation : Option Uuid
  deadlines : Deadlines
  seeded : Seeded
  /-- The pause checkpoint that the runtime of a reinstated computer carries. -/
  pauseSnapshotId : Option String
  file : RecordFile
  deriving DecidableEq, Repr

namespace Actor

def new (seed : ComputerSeed) : Actor where
  id := seed.id
  generation := seed.generation
  state := .provisioning
  queued := []
  desk := ⟨[], none, none, none, none, none⟩
  work := ⟨none, 0, [], none, .handoff, retryInitial, none⟩
  journal := ⟨false, false⟩
  timers := ⟨seed.deadlines, none, none⟩
  details := ⟨none, seed.pauseSnapshotId, ⟨""⟩, none⟩
  file := seed.file
  calls := 0
  exited := false
  log := []

/-- `run` up to its loop. -/
def start (w : World) (seed : ComputerSeed) : Actor :=
  match seed.seeded with
  | .fresh => (new seed).rearm w
  | .recovered phase => (((new seed).dispatch w (.recovered phase)).1).rearm w
  | .adopted => (((new seed).dispatch w .adopted).1).rearm w

/-- The actor after any inputs, each with what its processing met. -/
def run (w : World) (seed : ComputerSeed) (inputs : List (World × Input)) : Actor :=
  inputs.foldl (fun a i => a.react i.1 i.2) (start w seed)

end Actor

end Arcbox.Computer.Lifecycle

import Arcbox.Runner.Admission

set_option autoImplicit false

/-!
# Runner agent: the supervisor, one access at a time

The attach task delivers what the gateway sends, one message after another.  The jobs it takes
run in tasks of their own, and an operator's restart waits in another.  All of them share two
concurrent maps and a few flags.  A move of the model is one access to one of these, by one of
the tasks; what an access finds is decided when it happens.  An access to a map entry that
another task holds waits, so the move leaves everything as it is.
-/

namespace Arcbox.Runner

open Foundation

/-! ## Tasks -/

structure Entry where
  slot : JobSlot
  held : Bool
deriving DecidableEq, Repr

/-- Where the task of a job stands. -/
inductive Phase where
  | starting
  | started
  | failed (reason : Refusal)
  /-- The start is settled; these offers are still to be answered, the entry is held. -/
  | accepting (offers : List Token)
  | rejecting (reason : Refusal) (offers : List Token)
  | running
  | exited
  /-- The runner is gone; the slot is to be released. -/
  | releasing
deriving DecidableEq, Repr

structure Task where
  jobId : JobId
  token : Token
  phase : Phase
deriving DecidableEq, Repr

/-- What a task meets outside the maps. -/
inductive Outcome where
  | starts
  | startFails (error : String)
  | observesCancel
  | exits
  | panics
deriving DecidableEq, Repr

inductive Answer where
  | accept
  | reject (reason : Refusal)
deriving DecidableEq, Repr

/-- Where the handling of an offer stands: the access that comes next. -/
inductive Pc where
  | idle
  | checkReplay (order : ProvisionRunner)
  | checkInFlight (order : ProvisionRunner)
  | checkUnacked (order : ProvisionRunner)
  | checkDraining (order : ProvisionRunner)
  | checkHandover (order : ProvisionRunner)
  | checkHost (order : ProvisionRunner)
  | getSlot (order : ProvisionRunner)
  /-- An answer is to be recorded; `held` says that the job's entry is held. -/
  | answer (order : ProvisionRunner) (answer : Answer) (held : Bool)
  | reserve (order : ProvisionRunner) (backend : Backend)
  | spawn (order : ProvisionRunner) (backend : Backend)
deriving DecidableEq, Repr

/-- How far a wait before a handover has come. -/
inductive Quiesce where
  | jobs
  | acks
  | done
deriving DecidableEq, Repr

/-- The attach task besides its dispatch. -/
inductive Stream where
  | serving (update : Option Quiesce)
  | disconnected
  /-- Off the stream, a required update waits for the jobs. -/
  | updating
  | applying
  /-- The loop has been left; the runners are being stopped. -/
  | stopping
deriving DecidableEq, Repr

/-- The answer to an attach handshake. -/
inductive Handshake where
  | accepted
  | rejected
  | failed
deriving DecidableEq, Repr

/-- What is reported of a run. -/
inductive Event where
  | issued (job : JobId)
  | runnerStarted (job : JobId)
  | cancelled (job : JobId)
  | accepted (job : JobId) (token : Token)
  | startRejected (job : JobId) (token : Token)
  /-- The rejection of an offer that started nothing. -/
  | refused (job : JobId) (token : Token)
  | acked (token : Token)
  | released (job : JobId)
  | committed
  /-- A job in flight is cancelled by the teardown. -/
  | killed (job : JobId)
deriving DecidableEq, Repr

/-! ## The state -/

structure Supervisor where
  inFlight : Table JobId Entry
  outstanding : Table Token Msg
  draining : Bool
  reason : Reason
  shutdown : Bool
  stream : Stream
  pc : Pc
  tasks : Nat → Option Task
  nextTask : Nat
  restarts : Nat → Option Quiesce
  nextRestart : Nat
  panicked : Bool
  log : List Event

namespace Supervisor

/-- A new attachment of a process that is not on its way out. -/
def fresh : Supervisor where
  inFlight := ∅
  outstanding := ∅
  draining := false
  reason := .none
  shutdown := false
  stream := .disconnected
  pc := .idle
  tasks := fun _ => none
  nextTask := 0
  restarts := fun _ => none
  nextRestart := 0
  panicked := false
  log := []

variable (s : Supervisor) (job : JobId)

def tell (e : Event) : Supervisor := { s with log := s.log ++ [e] }

/-- Another task holds the job's entry. -/
def busy : Bool :=
  match s.inFlight.lookup job with
  | some entry => entry.held
  | none => false

def setEntry (entry : Entry) : Supervisor := { s with inFlight := s.inFlight.insert job entry }

variable (token : Token)

def sendVerdict (msg : Msg) : Supervisor := { s with outstanding := s.outstanding.insert token msg }

def accept : Supervisor :=
  (s.sendVerdict token (.runnerAccepted job token)).tell (.accepted job token)

def reject (reason : Refusal) (e : Event) : Supervisor :=
  (s.sendVerdict token (.runnerRejected job token reason)).tell e

/-! ## Dispatch -/

/-- Let go of a held entry. -/
def letGo : Supervisor :=
  match s.inFlight.lookup job with
  | some entry => s.setEntry job { entry with held := false }
  | none => s

/-- Answer an offer: from the job's slot, which is held meanwhile, or without one. -/
def answer (order : ProvisionRunner) (a : Answer) (held : Bool) : Supervisor :=
  match a, held with
  | .accept, true =>
    { (s.accept order.jobId order.offerToken).letGo order.jobId with pc := .idle }
  | .accept, false => { s.accept order.jobId order.offerToken with pc := .idle }
  | .reject reason, true =>
    { (s.reject order.jobId order.offerToken reason
        (.startRejected order.jobId order.offerToken)).letGo order.jobId with pc := .idle }
  | .reject reason, false =>
    { s.reject order.jobId order.offerToken reason (.refused order.jobId order.offerToken) with
      pc := .idle }

/-- A redelivery meets the slot of its job, unless that has gone meanwhile. -/
def duplicate (order : ProvisionRunner) : Supervisor :=
  match s.inFlight.lookup order.jobId with
  | none => { s with pc := .checkInFlight order }
  | some entry =>
    match entry.slot.duplicateVerdict order.offerToken with
    | (.deferred, slot) => { s.setEntry order.jobId { entry with slot := slot } with pc := .idle }
    | (.accept, _) =>
      { s.setEntry order.jobId { entry with held := true } with pc := .answer order .accept true }
    | (.reject reason, _) =>
      { s.setEntry order.jobId { entry with held := true } with
        pc := .answer order (.reject reason) true }
    | (.ignore, _) => { s with pc := .idle }

/-- The next access of the handling of an offer. -/
def dispatch (host : HostView) : Supervisor :=
  match s.pc with
  | .idle => s
  | .checkReplay order =>
    if (s.outstanding.lookup order.offerToken).isSome then { s with pc := .idle }
    else { s with pc := .checkInFlight order }
  | .checkInFlight order =>
    if s.busy order.jobId then s
    else if (s.inFlight.lookup order.jobId).isSome then { s with pc := .getSlot order }
    else { s with pc := .checkUnacked order }
  | .checkUnacked order =>
    if hasUnackedAccept s.outstanding order.jobId then { s with pc := .answer order .accept false }
    else { s with pc := .checkDraining order }
  | .checkDraining order =>
    if s.draining then { s with pc := .answer order (.reject .draining) false }
    else { s with pc := .checkHandover order }
  | .checkHandover order =>
    if s.reason.pending then { s with pc := .answer order (.reject .draining) false }
    else { s with pc := .checkHost order }
  | .checkHost order =>
    match host.headroom order.os order.arch with
    | .error refusal => { s with pc := .answer order (.reject refusal) false }
    | .ok backend => { s with pc := .reserve order backend }
  | .getSlot order => if s.busy order.jobId then s else s.duplicate order
  | .answer order a held => s.answer order a held
  | .reserve order backend =>
    { (s.setEntry order.jobId ⟨.new, false⟩).tell (.issued order.jobId) with
      pc := .spawn order backend }
  | .spawn order _ =>
    { s with
      tasks := Function.update s.tasks s.nextTask
        (some ⟨order.jobId, order.offerToken, .starting⟩)
      nextTask := s.nextTask + 1
      pc := .idle }

def handleCancel (e : Event) : Supervisor :=
  match s.inFlight.lookup job with
  | none => s
  | some entry =>
    if entry.held then s
    else (s.setEntry job { entry with slot := entry.slot.cancel }).tell e

/-! ## The task of a job -/

variable (id : Nat)

def setTask (task : Task) : Supervisor := { s with tasks := Function.update s.tasks id (some task) }

/-- The job's token has been cancelled. -/
def cancelledNow : Bool :=
  match s.inFlight.lookup job with
  | some entry => entry.slot.cancelled
  | none => false

def settle (s : Supervisor) (id : Nat) (task : Task) (settle : JobSlot → Settling × JobSlot)
    (answering : List Token → Phase) : Supervisor :=
  match s.inFlight.lookup task.jobId with
  | none => { s with panicked := true }
  | some entry =>
    if entry.held then s
    else
      match settle entry.slot with
      | (.panics, _) => { s with panicked := true }
      | (.cancelled, _) => s.setTask id { task with phase := .releasing }
      | (.settled parked, slot) =>
        (s.setEntry task.jobId ⟨slot, true⟩).setTask id
          { task with phase := answering (task.token :: parked) }

/-- The guard's drop. -/
def release (job : JobId) : Supervisor :=
  if s.busy job then s
  else
    { s with
      inFlight := s.inFlight.erase job
      tasks := Function.update s.tasks id none }.tell (.released job)

/-- The next access of a job's task. -/
def advance (task : Task) (outcome : Outcome) : Supervisor :=
  match task.phase with
  | .starting =>
    match outcome with
    | .starts => (s.setTask id { task with phase := .started }).tell (.runnerStarted task.jobId)
    | .startFails error => s.setTask id { task with phase := .failed (.startFailed error) }
    | .observesCancel =>
      if s.cancelledNow task.jobId then s.setTask id { task with phase := .releasing } else s
    | .panics => s.setTask id { task with phase := .releasing }
    | .exits => s
  | .started => s.settle id task JobSlot.acceptStart .accepting
  | .failed reason => s.settle id task (JobSlot.rejectStart · reason) (.rejecting reason)
  | .accepting [] => (s.letGo task.jobId).setTask id { task with phase := .running }
  | .accepting (offer :: offers) =>
    (s.accept task.jobId offer).setTask id { task with phase := .accepting offers }
  | .rejecting _ [] => (s.letGo task.jobId).setTask id { task with phase := .releasing }
  | .rejecting reason (offer :: offers) =>
    (s.reject task.jobId offer reason (.startRejected task.jobId offer)).setTask id
      { task with phase := .rejecting reason offers }
  | .running =>
    match outcome with
    | .exits => s.setTask id { task with phase := .exited }
    | .observesCancel =>
      if s.cancelledNow task.jobId then s.setTask id { task with phase := .releasing } else s
    | .panics => s.setTask id { task with phase := .releasing }
    | .starts => s
    | .startFails _ => s
  | .exited =>
    (s.sendVerdict (exitToken task.jobId)
      (.runnerExited task.jobId (exitToken task.jobId))).setTask id
        { task with phase := .releasing }
  | .releasing => s.release id task.jobId

/-! ## Handover -/

/-- One poll of a wait for the work to settle. -/
def quiesce (elapsed : Bool) : Quiesce → Quiesce
  | .jobs => if s.inFlight.entries.isEmpty then .acks else .jobs
  | .acks => if s.outstanding.entries.isEmpty || elapsed then .done else .acks
  | .done => .done

def commit : Supervisor := { s with shutdown := true }.tell .committed

/-- The waiting task of a graceful restart. -/
def awaitRestart (elapsed : Bool) : Supervisor :=
  match s.restarts id with
  | none => s
  | some .done => { s.commit with restarts := Function.update s.restarts id none }
  | some wait =>
    { s with restarts := Function.update s.restarts id (some (s.quiesce elapsed wait)) }

/-- An operator's graceful restart; a request that finds one in force rides it. -/
def restart : Supervisor :=
  match requested s.reason .restart with
  | .recorded =>
    { s with
      reason := s.reason.escalate .restart
      restarts := Function.update s.restarts s.nextRestart (some .jobs)
      nextRestart := s.nextRestart + 1 }
  | .alreadyPending => { s with reason := s.reason.escalate .restart }
  | .shuttingDown => s

def requestUpdate : Supervisor := { s with reason := s.reason.escalate .update }

/-! ## Moves -/

inductive Move where
  | provision (order : ProvisionRunner)
  | cancel (job : JobId)
  | drain
  | ack (token : Token)
  | pushUpdate
  /-- The attach task's other accesses. -/
  | dispatch (host : HostView)
  | pollUpdate (elapsed : Bool)
  | disconnect
  | connect (handshake : Handshake)
  | pollSwap
  | apply (works : Bool)
  | stop
  | kill (job : JobId)
  | task (id : Nat) (outcome : Outcome)
  | restart
  | awaitRestart (id : Nat) (elapsed : Bool)
  | operatorDrain
  | resume
deriving Inhabited

/-- The attach task is on a stream and free for the next message. -/
def free : Bool :=
  match s.stream, s.pc with
  | .serving _, .idle => true
  | _, _ => false

def pollUpdate (elapsed : Bool) : Supervisor :=
  match s.stream with
  | .serving (some .done) => { s.requestUpdate with stream := .updating }
  | .serving (some wait) => { s with stream := .serving (some (s.quiesce elapsed wait)) }
  | _ => s

def connect (handshake : Handshake) : Supervisor :=
  match s.stream, handshake with
  | .disconnected, .accepted =>
    { s with reason := s.reason.revokeUpdate, stream := .serving none }
  | .disconnected, .rejected => { s.requestUpdate with stream := .updating }
  | _, _ => s

/-- Off the stream no ack can arrive, so only the jobs are waited for. -/
def pollSwap : Supervisor :=
  match s.stream with
  | .updating => if s.inFlight.entries.isEmpty then { s with stream := .applying } else s
  | _ => s

def apply (works : Bool) : Supervisor :=
  match s.stream with
  | .applying =>
    if works then { s.commit with stream := .stopping, draining := true }
    else { s with stream := .disconnected }
  | _ => s

/-- The loop sees the shutdown token between two messages. -/
def stop : Supervisor :=
  match s.shutdown, s.stream, s.pc with
  | true, .serving _, .idle => { s with stream := .stopping, draining := true }
  | true, .disconnected, _ => { s with stream := .stopping, draining := true }
  | true, .updating, _ => { s with stream := .stopping, draining := true }
  | _, _, _ => s

def next : Move → Supervisor
  | .provision order => if s.free then { s with pc := .checkReplay order } else s
  | .cancel job => if s.free then s.handleCancel job (.cancelled job) else s
  | .drain => if s.free then { s with draining := true } else s
  | .ack token =>
    if s.free then { s with outstanding := s.outstanding.erase token }.tell (.acked token) else s
  | .pushUpdate =>
    match s.stream, s.pc with
    | .serving none, .idle => { s.requestUpdate with stream := .serving (some .jobs) }
    | _, _ => s
  | .dispatch host => s.dispatch host
  | .pollUpdate elapsed => if s.free then s.pollUpdate elapsed else s
  | .disconnect => if s.free then { s with stream := .disconnected } else s
  | .connect handshake => s.connect handshake
  | .pollSwap => s.pollSwap
  | .apply works => s.apply works
  | .stop => s.stop
  | .kill job => if s.stream = .stopping then s.handleCancel job (.killed job) else s
  | .task id outcome =>
    match s.tasks id with
    | none => s
    | some task => s.advance id task outcome
  | .restart => s.restart
  | .awaitRestart id elapsed => s.awaitRestart id elapsed
  | .operatorDrain => { s with draining := true }
  | .resume => { s with draining := false }

/-! ## Parts of runs -/

def offer : List Move :=
  .provision ⟨job, "linux", "x86_64", token⟩ :: List.replicate 8 (.dispatch .roomy)

/-- The start of a task's runner, its settling and the answer to its one offer. -/
def startup : List Move := List.replicate 4 (.task id .starts)

/-- The exit of a task's runner, its report and the release of the slot. -/
def wrapUp : List Move := List.replicate 3 (.task id .exits)

end Supervisor

end Arcbox.Runner

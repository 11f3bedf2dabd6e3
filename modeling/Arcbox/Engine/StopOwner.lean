import Mathlib.Data.List.Induction
import Mathlib.Data.List.Perm.Basic
import Arcbox.Foundation.History

set_option autoImplicit false

/-!
# Engine: who owns a machine's stop

A stop of one machine run is owned by one graceful attempt and at most one forced
takeover of it.  Both report to the same registered operation, in either order, and
the operation's phase decides who publishes the outcome.  The manager is modelled
with the part of it the two calls read and write; the stop attempts themselves, and
whatever restarts or kills the virtual machine meanwhile, are the environment.
-/

namespace Arcbox.Engine

open List

open Foundation (History.Throughout History.after History.throughout_concat History.throughout_nil
  History.after_append)

/-! ## The manager -/

/-- The System VM's name; its events stay off the bus. -/
def defaultMachineName : String := "default"

/-- `MachineState`, of a machine that exists. -/
inductive MachineState
  | created
  | starting
  | running
  | stopping
  | stopped
deriving DecidableEq, Repr

/-- The errors a stop can end with. -/
inductive EngineError
  | invalidState (message : String)
  | other (message : String)
deriving DecidableEq, Repr

/-- What the bus says of a stop. -/
inductive Event
  | machineStopping (name : String)
  | machineStopped (name : String)
  | machineStopCancelled (name : String)
deriving DecidableEq, Repr

/-- Identity of one start or reboot of the machine's VM entry: it grows with each. -/
abbrev VmIncarnation := Nat

/-- The VM entry: which run it is, and whether its VMM runs. -/
structure VmEntry where
  runIncarnation : VmIncarnation
  live : Bool
deriving DecidableEq, Repr

/-- A shared stop run.  `id` is the identity of the shared pointer. -/
structure StopRun where
  id : Nat
  expected : VmIncarnation
deriving DecidableEq, Repr

/-- What a forced stop knows of the graceful one it replaced. -/
inductive Predecessor
  | pending
  | complete (stopped : Bool)
deriving DecidableEq, Repr

/-- Who owns the completion. -/
inductive Phase
  | graceful
  | forced (predecessor : Option Predecessor)
deriving DecidableEq, Repr

/-- The stop registered for a run. -/
structure StopOperation where
  run : StopRun
  phase : Phase
deriving DecidableEq, Repr

/-- How a participant's own work ended. -/
inductive Completion
  | graceful (result : Except EngineError Bool)
  | forced (result : Except EngineError Unit)

/-- The manager's entry for one machine. -/
structure MachineManager where
  name : String
  state : MachineState
  vm : VmEntry
  stopOperation : Option StopOperation
  /-- The identity the next shared stop run gets. -/
  nextRun : Nat
  events : List Event
deriving DecidableEq, Repr

namespace MachineManager

variable (m : MachineManager) (expected : VmIncarnation)

/-- `publish_event`. -/
def publishEvent (event : Event) : MachineManager :=
  if m.name = defaultMachineName then m else { m with events := m.events ++ [event] }

/-- The machine has been restarted since. -/
def runChanged : EngineError := .invalidState "VM run incarnation changed"

/-- `with_run_incarnation`: act while the VM entry still is the expected run. -/
def withRunIncarnation (publish : MachineManager → MachineManager) :
    Except EngineError MachineManager :=
  if m.vm.runIncarnation = expected then .ok (publish m) else .error runChanged

/-- `with_network_incarnation`: the same for a run that is also live. -/
def withNetworkIncarnation (publish : MachineManager → MachineManager) :
    Except EngineError MachineManager :=
  if m.vm.live = false then .error (.invalidState "VM network is not running")
  else if m.vm.runIncarnation = expected then .ok (publish m)
  else .error (.invalidState "VM network incarnation changed")

/-- The machine is in no state to stop. -/
def cannotBegin (name : String) : EngineError :=
  .invalidState ("machine '" ++ name ++ "' cannot begin this stop")

/-- The run has a stop that this one cannot join. -/
def anotherStopOwns : EngineError := .invalidState "another stop owns this machine run"

/-- The operation is closed, or not a forced one. -/
def superseded : EngineError := .invalidState "stop operation was superseded"

/-- A graceful stop ends after a forced one took over. -/
def forcedStopOwns : EngineError := .invalidState "forced stop owns completion"

/-- The registered operation, when it is one of the expected run. -/
def operationOf : Option StopOperation :=
  m.stopOperation.filter fun operation => operation.run.expected = expected

variable (run : StopRun)

/-- The registered operation, when `run` is its shared run. -/
def operationFor : Option StopOperation :=
  m.stopOperation.filter fun operation => operation.run = run

/-- The machine is stopping, with `operation` registered. -/
def beginStop (operation : StopOperation) : MachineManager :=
  ({ m with stopOperation := some operation, state := .stopping }).publishEvent
    (.machineStopping m.name)

/-- `admit_stop`: begin a stop, or take over the graceful one of this run. -/
def admitStop (graceful : Bool) : Except EngineError (StopRun × MachineManager) :=
  if m.state ≠ .running ∧ (graceful = true ∨ m.state ≠ .stopping) then
    .error (cannotBegin m.name)
  else if m.vm.runIncarnation ≠ expected then .error runChanged
  else
    match m.operationOf expected with
    | some operation =>
      if graceful = true ∨ operation.phase ≠ .graceful then .error anotherStopOwns
      else
        .ok (operation.run,
          m.beginStop { operation with phase := .forced (some .pending) })
    | none =>
      let run : StopRun := ⟨m.nextRun, expected⟩
      let phase : Phase := if graceful = true then .graceful else .forced none
      .ok (run, ({ m with nextRun := m.nextRun + 1 }).beginStop ⟨run, phase⟩)

/-- A forced stop still owns the operation. -/
def requireForceOwner : Except EngineError Unit :=
  match m.operationFor run with
  | some ⟨_, .forced _⟩ => .ok ()
  | _ => .error superseded

/-- The machine has stopped, if it is still this run. -/
def publishStopped : Except EngineError MachineManager :=
  m.withRunIncarnation expected fun m =>
    ({ m with state := .stopped }).publishEvent (.machineStopped m.name)

/-- The stop was cancelled, if the run is still live. -/
def restoreRunning : MachineManager :=
  match m.withNetworkIncarnation expected fun m =>
      ({ m with state := .running }).publishEvent (.machineStopCancelled m.name) with
  | .ok m => m
  | .error _ => m

variable (phase : Phase)

/-- The registered operation goes on in another phase. -/
def setPhase : MachineManager := { m with stopOperation := some ⟨run, phase⟩ }

/-- The operation is removed and its outcome published. -/
def closeStop (result : Except EngineError Bool) : Except EngineError Bool × MachineManager :=
  let m := { m with stopOperation := none }
  match result with
  | .ok stopped =>
    match m.publishStopped run.expected with
    | .ok m => (.ok stopped, m)
    | .error error => (.error error, m)
  | .error error => (.error error, m.restoreRunning run.expected)

/-- A graceful participant reports. -/
def finishGraceful (result : Except EngineError Bool) : Except EngineError Bool × MachineManager :=
  match phase, result with
  | .forced _, .ok true => (.ok true, m.setPhase run (.forced (some (.complete true))))
  | .forced _, .ok false =>
    (.error forcedStopOwns, m.setPhase run (.forced (some (.complete false))))
  | .forced _, .error error =>
    (.error error, m.setPhase run (.forced (some (.complete false))))
  | .graceful, .ok false => (.ok false, m.setPhase run (.forced none))
  | .graceful, .ok true => m.closeStop run (.ok true)
  | .graceful, .error error => m.closeStop run (.error error)

/-- A forced participant reports. -/
def finishForced (result : Except EngineError Unit) : Except EngineError Bool × MachineManager :=
  match result with
  | .ok () => m.closeStop run (.ok true)
  | .error error =>
    match phase with
    | .forced (some .pending) => (.error error, m.setPhase run .graceful)
    | .forced (some (.complete true)) => m.closeStop run (.ok true)
    | _ => m.closeStop run (.error error)

/-- `finish_stop`: a participant reports, and may close. -/
def finishStop (completion : Completion) : Except EngineError Bool × MachineManager :=
  match m.operationFor run with
  | none => (.error superseded, m)
  | some operation =>
    match completion with
    | .graceful result => m.finishGraceful run operation.phase result
    | .forced result => m.finishForced run operation.phase result

end MachineManager

/-! ## Stop attempts -/

/-- An admitted attempt that still owes a report. -/
structure Participant where
  run : StopRun
  forced : Bool
deriving DecidableEq, Repr

namespace Participant

variable (p : Participant)

/-- A result in the form its participant reports it. -/
def completion (result : Except EngineError Bool) : Completion :=
  if p.forced = true then .forced (result.map fun _ => ()) else .graceful result

/-- The attempt saw the virtual machine stop: a forced one whenever it succeeds. -/
def observed : Except EngineError Bool → Bool
  | .ok stopped => p.forced || stopped
  | .error _ => false

/-- A graceful attempt told `false` goes on as the forced owner of the same run. -/
def continued : Except EngineError Bool → List Participant
  | .ok false => if p.forced = true then [] else [⟨p.run, true⟩]
  | _ => []

/-- Two attempts on one machine run have different roles. -/
def Apart (q : Participant) : Prop := p.run.expected = q.run.expected → p.forced ≠ q.forced

end Participant

open Participant (Apart)

/-- One call of `finish_stop`, with the manager around it and the attempts left after it. -/
structure Report where
  participant : Participant
  result : Except EngineError Bool
  before : MachineManager
  reply : Except EngineError Bool
  after : MachineManager
  active : List Participant

namespace Report

/-- The report found its operation registered. -/
def registered (r : Report) : Bool := (r.before.operationFor r.participant.run).isSome

/-- The report closed its operation. -/
def closes (r : Report) : Bool := r.registered && (r.after.operationFor r.participant.run).isNone

/-- The report saw the machine stopped. -/
def observed (r : Report) : Bool := r.participant.observed r.result

/-- The runs whose stop a participant has observed while the operation was registered. -/
def observe (seen : List StopRun) (r : Report) : List StopRun :=
  if r.registered && r.observed then r.participant.run :: seen else seen

/-- The report published this event and nothing else. -/
def announces (r : Report) (e : Event) : Bool := decide (r.after.events = r.before.events ++ [e])

/-- The machine has an audience, and still is in the run that the report is about. -/
def current (r : Report) : Bool :=
  decide (r.before.name ≠ defaultMachineName ∧
    r.before.vm.runIncarnation = r.participant.run.expected)

end Report

/-- The manager, who is stopping, and what was reported. -/
structure StopSystem where
  manager : MachineManager
  active : List Participant
  reports : List Report

/-- What can happen to a machine that is being stopped. -/
inductive StopAction
  | attempt (expected : VmIncarnation) (graceful : Bool)
  | report (p : Participant) (result : Except EngineError Bool)
  /-- The machine is started anew, by whatever starts it. -/
  | restart (state : MachineState) (live : Bool)
  /-- The VMM of the current run comes up or goes down. -/
  | power (live : Bool)

namespace StopSystem

/-- No stop has been asked for. -/
def start (m : MachineManager) : StopSystem := ⟨{ m with stopOperation := none }, [], []⟩

/-- A participant reports and leaves. -/
def report (s : StopSystem) (p : Participant) (result : Except EngineError Bool) : StopSystem :=
  let (reply, manager) := s.manager.finishStop p.run (p.completion result)
  let active := s.active.erase p ++ p.continued reply
  ⟨manager, active, s.reports ++ [⟨p, result, s.manager, reply, manager, active⟩]⟩

/-- One action. -/
def step (s : StopSystem) : StopAction → StopSystem
  | .attempt expected graceful =>
    match s.manager.admitStop expected graceful with
    | .ok (run, manager) => ⟨manager, s.active ++ [⟨run, !graceful⟩], s.reports⟩
    | .error _ => s
  | .report p result => if p ∈ s.active then s.report p result else s
  | .restart state live =>
    { s with manager :=
        { s.manager with state := state, vm := ⟨s.manager.vm.runIncarnation + 1, live⟩ } }
  | .power live =>
    { s with manager := { s.manager with vm := ⟨s.manager.vm.runIncarnation, live⟩ } }

/-- A whole history. -/
def runActions (s : StopSystem) (actions : List StopAction) : StopSystem := actions.foldl step s

end StopSystem

/-! ## What the attempts agree on -/

/-- The outcome of a closed operation, from whether anyone saw the machine stop. -/
def MachineManager.concluded (m : MachineManager) (run : StopRun) (stopped : Bool) :
    MachineManager :=
  let m := { m with stopOperation := none }
  if m.vm.runIncarnation ≠ run.expected then m
  else if stopped = true then
    ({ m with state := .stopped }).publishEvent (.machineStopped m.name)
  else if m.vm.live = true then
    ({ m with state := .running }).publishEvent (.machineStopCancelled m.name)
  else m

/-- What one report may do, given the runs whose stop had been observed before it. -/
structure Decided (seen : List StopRun) (r : Report) : Prop where
  /-- A participant of a superseded or closed operation changes nothing. -/
  bystander : r.registered = false → r.after = r.before
  /-- A report that leaves the operation open leaves the machine alone. -/
  quiet : r.closes = false → r.after.state = r.before.state ∧ r.after.events = r.before.events
  /-- Closing publishes what was observed, by this report or by an earlier one. -/
  closed : r.closes = true →
    r.after = r.before.concluded r.participant.run
      (r.observed || decide (r.participant.run ∈ seen))
  /-- An operation nobody saw succeed is closed by its last participant. -/
  last : r.closes = true → r.observed = false → r.participant.run ∉ seen →
    ∀ p ∈ r.active, p.run ≠ r.participant.run

/-- How often the operation of `run` was closed. -/
abbrev closings (reports : List Report) (run : StopRun) : Nat :=
  reports.countP fun r => r.closes && decide (r.participant.run = run)

/-- How often a report on the operation of `run` published the event. -/
abbrev announcements (reports : List Report) (run : StopRun) (e : Event) : Nat :=
  reports.countP fun r => r.announces e && decide (r.participant.run = run)

/-- The runs that a participant saw stop before their operation was closed. -/
abbrev StopSystem.seen (s : StopSystem) : List StopRun :=
  History.after Report.observe [] s.reports

/-- The events of a run of the system that started with the manager `m`. -/
structure Published (m : MachineManager) (s : StopSystem) : Prop where
  /-- Only reports publish anything but the beginning of a stop. -/
  counted : ∀ e, e ≠ .machineStopping m.name →
    s.manager.events.count e = m.events.count e + s.reports.countP (·.announces e)
  /-- A closed operation was published as stopped if its run was seen to stop. -/
  stopped : ∀ run, announcements s.reports run (.machineStopped m.name) =
    if run ∈ s.seen then closings (s.reports.filter (·.current)) run else 0
  /-- Otherwise the machine was restored, when it was live. -/
  cancelled : ∀ run, announcements s.reports run (.machineStopCancelled m.name) =
    if run ∈ s.seen then 0
    else closings (s.reports.filter fun r => r.current && r.before.vm.live) run

/-- What every history leaves true of its reports and events. -/
structure Agreed (m : MachineManager) (s : StopSystem) : Prop where
  apart : s.active.Pairwise Apart
  decided : History.Throughout Report.observe [] Decided s.reports
  once : ∀ run, closings s.reports run ≤ 1
  published : Published m s
  attended : ∀ operation, s.manager.stopOperation = some operation →
    ∃ p ∈ s.active, p.run = operation.run
  /-- Whoever is active in the forced role may go on to stop the virtual machine. -/
  owner : ∀ operation, s.manager.stopOperation = some operation →
    ⟨operation.run, true⟩ ∈ s.active → s.manager.requireForceOwner operation.run = .ok ()

/-- The machine's run is current and can be stopped, and nobody is active on it but a graceful
attempt that a forced one takes over. -/
def Admissible (s : StopSystem) (expected : VmIncarnation) (graceful : Bool) : Prop :=
  (s.manager.state = .running ∨ graceful = false ∧ s.manager.state = .stopping) ∧
    s.manager.vm.runIncarnation = expected ∧
    ∀ p ∈ s.active, p.run.expected = expected → graceful = false ∧ p.forced = false

/-- An admission registers the attempt and announces the stop, and does nothing else. -/
structure Begun (s s' : StopSystem) (expected : VmIncarnation) (graceful : Bool) : Prop where
  joined : ∃ operation, s'.manager.stopOperation = some operation ∧
    operation.run.expected = expected ∧ s'.active = s.active ++ [⟨operation.run, !graceful⟩]
  stopping : s'.manager.state = .stopping
  announced : s'.manager.events = if s.manager.name = defaultMachineName then s.manager.events
    else s.manager.events ++ [.machineStopping s.manager.name]
  name : s'.manager.name = s.manager.name
  vm : s'.manager.vm = s.manager.vm
  reports : s'.reports = s.reports

/-- What an attempt is told, and what it changes. -/
def Admission (s : StopSystem) : StopAction → Prop
  | .attempt expected graceful =>
    (Admissible s expected graceful →
      Begun s (s.step (.attempt expected graceful)) expected graceful) ∧
    (¬ Admissible s expected graceful → s.step (.attempt expected graceful) = s)
  | _ => True

/-! ## The invariant -/

/-- Which participants an operation has in each phase, and whether one saw the stop. -/
def Owned (active : List Participant) (seen : List StopRun) (run : StopRun) : Phase → Prop
  | .graceful => ⟨run, false⟩ ∈ active ∧ ⟨run, true⟩ ∉ active ∧ run ∉ seen
  | .forced none => ⟨run, false⟩ ∉ active ∧ ⟨run, true⟩ ∈ active ∧ run ∉ seen
  | .forced (some .pending) => ⟨run, false⟩ ∈ active ∧ ⟨run, true⟩ ∈ active ∧ run ∉ seen
  | .forced (some (.complete stopped)) =>
    ⟨run, false⟩ ∉ active ∧ ⟨run, true⟩ ∈ active ∧ (run ∈ seen ↔ stopped = true)

/-- The registered operation, its participants and its run's place in time. -/
structure Registered (s : StopSystem) (seen : List StopRun) (operation : StopOperation) :
    Prop where
  owned : Owned s.active seen operation.run operation.phase
  issued : operation.run.id < s.manager.nextRun
  begun : operation.run.expected ≤ s.manager.vm.runIncarnation
  /-- Everyone active on its machine run is one of its participants. -/
  sole : ∀ p ∈ s.active, p.run.expected = operation.run.expected → p.run = operation.run
  unclosed : closings s.reports operation.run = 0

/-- What every action keeps. -/
structure Sound (s : StopSystem) (seen : List StopRun) : Prop where
  apart : s.active.Pairwise Apart
  issued : ∀ p ∈ s.active, p.run.id < s.manager.nextRun
  begun : ∀ p ∈ s.active, p.run.expected ≤ s.manager.vm.runIncarnation
  noted : ∀ run ∈ seen, run.id < s.manager.nextRun
  reported : ∀ r ∈ s.reports, r.participant.run.id < s.manager.nextRun
  once : ∀ run, closings s.reports run ≤ 1
  registered : ∀ operation, s.manager.stopOperation = some operation →
    Registered s seen operation
  /-- Nobody is active on a run that could be stopped but has no operation. -/
  vacant : s.manager.state = .running ∨ s.manager.state = .stopping →
    s.manager.operationOf s.manager.vm.runIncarnation = none →
    ∀ p ∈ s.active, p.run.expected ≠ s.manager.vm.runIncarnation

variable {active : List Participant} {q : Participant} {operation : StopOperation}
  {reply : Except EngineError Bool}

theorem nodup_of_apart (h : active.Pairwise Apart) : active.Nodup := by
  refine h.imp fun {p q} hpq heq => ?_
  cases heq
  exact hpq rfl rfl

/-- Who is left when `p` has reported. -/
theorem mem_erase (h : active.Pairwise Apart) {p : Participant} :
    q ∈ active.erase p ↔ q ≠ p ∧ q ∈ active := (nodup_of_apart h).mem_erase_iff

theorem operationFor_eq_some {m : MachineManager} {run : StopRun} :
    m.operationFor run = some operation ↔
      m.stopOperation = some operation ∧ operation.run = run := by
  unfold MachineManager.operationFor
  rw [Option.filter_eq_some_iff, decide_eq_true_iff]

theorem operationOf_eq_none {m : MachineManager} {expected : VmIncarnation} :
    m.operationOf expected = none ↔
      ∀ operation, m.stopOperation = some operation → operation.run.expected ≠ expected := by
  unfold MachineManager.operationOf
  simp only [Option.filter_eq_none_iff, decide_eq_true_iff, ne_eq]

/-! ### Frame lemmas -/

namespace MachineManager

variable (m : MachineManager)
variable (e : Event) (run : StopRun)

@[simp] theorem publishEvent_state : (m.publishEvent e).state = m.state := by
  unfold publishEvent
  split <;> rfl

@[simp] theorem publishEvent_vm : (m.publishEvent e).vm = m.vm := by
  unfold publishEvent
  split <;> rfl

@[simp] theorem publishEvent_nextRun : (m.publishEvent e).nextRun = m.nextRun := by
  unfold publishEvent
  split <;> rfl

@[simp] theorem publishEvent_name : (m.publishEvent e).name = m.name := by
  unfold publishEvent
  split <;> rfl

@[simp] theorem publishEvent_stopOperation :
    (m.publishEvent e).stopOperation = m.stopOperation := by
  unfold publishEvent
  split <;> rfl

variable (stopped : Bool)

@[simp] theorem concluded_vm : (m.concluded run stopped).vm = m.vm := by
  unfold concluded
  dsimp only
  split_ifs <;> simp only [publishEvent_vm]

@[simp] theorem concluded_nextRun : (m.concluded run stopped).nextRun = m.nextRun := by
  unfold concluded
  dsimp only
  split_ifs <;> simp only [publishEvent_nextRun]

@[simp] theorem concluded_stopOperation : (m.concluded run stopped).stopOperation = none := by
  unfold concluded
  dsimp only
  split_ifs <;> simp only [publishEvent_stopOperation]

@[simp] theorem concluded_name : (m.concluded run stopped).name = m.name := by
  unfold concluded
  dsimp only
  split_ifs <;> simp only [publishEvent_name]

/-- What closing the operation publishes. -/
def verdict : List Event :=
  if m.name = defaultMachineName ∨ m.vm.runIncarnation ≠ run.expected then []
  else if stopped = true then [.machineStopped m.name]
  else if m.vm.live = true then [.machineStopCancelled m.name]
  else []

theorem verdict_stopped : m.verdict run stopped = [.machineStopped m.name] ↔
    (m.name ≠ defaultMachineName ∧ m.vm.runIncarnation = run.expected) ∧ stopped = true := by
  unfold verdict
  by_cases hname : m.name = defaultMachineName <;>
    by_cases hrun : m.vm.runIncarnation = run.expected <;> cases stopped <;>
    cases m.vm.live <;> simp [hname, hrun]

theorem verdict_cancelled : m.verdict run stopped = [.machineStopCancelled m.name] ↔
    (m.name ≠ defaultMachineName ∧ m.vm.runIncarnation = run.expected) ∧
      m.vm.live = true ∧ stopped = false := by
  unfold verdict
  by_cases hname : m.name = defaultMachineName <;>
    by_cases hrun : m.vm.runIncarnation = run.expected <;> cases stopped <;>
    cases m.vm.live <;> simp [hname, hrun]

theorem concluded_events :
    (m.concluded run stopped).events = m.events ++ m.verdict run stopped := by
  unfold concluded verdict publishEvent
  dsimp only
  by_cases hname : m.name = defaultMachineName <;>
    by_cases hrun : m.vm.runIncarnation = run.expected <;> cases stopped <;>
    cases m.vm.live <;> simp [hname, hrun]

/-- A closed operation of another run leaves the machine's state. -/
theorem concluded_state_of_ne {run : StopRun} (h : m.vm.runIncarnation ≠ run.expected)
    (stopped : Bool) : (m.concluded run stopped).state = m.state := by
  unfold concluded
  rw [if_pos h]

theorem concluded_state_of_stopped {run : StopRun} (h : m.vm.runIncarnation = run.expected) :
    (m.concluded run true).state = .stopped := by
  unfold concluded
  rw [if_neg (not_not.mpr h), if_pos rfl]
  exact publishEvent_state _ _

theorem closeStop_ok :
    (m.closeStop run (.ok true)).2 = m.concluded run true ∧
      (m.closeStop run (.ok true)).1 ≠ .ok false := by
  unfold closeStop publishStopped withRunIncarnation concluded
  dsimp only
  by_cases h : m.vm.runIncarnation = run.expected
  · rw [if_pos h, if_neg (not_not.mpr h), if_pos rfl]
    exact ⟨rfl, by simp⟩
  · rw [if_neg h, if_pos h]
    exact ⟨rfl, by simp⟩

theorem closeStop_error (error : EngineError) :
    m.closeStop run (.error error) = (.error error, m.concluded run false) := by
  unfold closeStop restoreRunning withNetworkIncarnation concluded
  dsimp only
  by_cases hrun : m.vm.runIncarnation = run.expected
  · rw [if_pos hrun, if_neg (not_not.mpr hrun), if_neg Bool.false_ne_true]
    cases m.vm.live <;> rfl
  · rw [if_neg hrun, if_pos hrun]
    cases m.vm.live <;> rfl

end MachineManager

open MachineManager

theorem continued_of_ne (p : Participant) (h : reply ≠ .ok false) : p.continued reply = [] := by
  unfold Participant.continued
  split
  · exact absurd rfl h
  · rfl

/-! ### One report -/

/-- What a report leads to: the operation goes on with the participants its phase
asks for, or it is closed. -/
inductive Handled (s : StopSystem) (seen : List StopRun) (p : Participant) (observed : Bool) :
    Except EngineError Bool × MachineManager → Prop
  | kept (reply : Except EngineError Bool) (phase : Phase)
      (more : p.continued reply = [] ∨ ⟨p.run, true⟩ ∉ s.active)
      (owned : Owned (s.active.erase p ++ p.continued reply)
        (if observed = true then p.run :: seen else seen) p.run phase) :
      Handled s seen p observed (reply, s.manager.setPhase p.run phase)
  | closed (reply : Except EngineError Bool) (done : p.continued reply = [])
      (last : observed = false → p.run ∉ seen → ∀ q ∈ s.active.erase p, q.run ≠ p.run) :
      Handled s seen p observed
        (reply, s.manager.concluded p.run (observed || decide (p.run ∈ seen)))

section OneReport

variable {s : StopSystem} {seen : List StopRun} {p : Participant} {run : StopRun} {phase : Phase}

theorem Handled.of_ok {observed : Bool} (h : observed = true ∨ p.run ∈ seen) :
    Handled s seen p observed (s.manager.closeStop p.run (.ok true)) := by
  obtain ⟨heq, hne⟩ := s.manager.closeStop_ok p.run
  have hstopped : (observed || decide (p.run ∈ seen)) = true := by
    rcases h with h | h
    · rw [h, Bool.true_or]
    · rw [decide_eq_true h, Bool.or_true]
  have hclosed : Handled s seen p observed
      ((s.manager.closeStop p.run (.ok true)).1,
        s.manager.concluded p.run (observed || decide (p.run ∈ seen))) := by
    refine .closed _ (continued_of_ne p hne) fun hobs hseen => ?_
    rcases h with h | h
    · rw [h] at hobs
      cases hobs
    · exact absurd h hseen
  rw [hstopped, ← heq] at hclosed
  exact hclosed

theorem Handled.of_error (error : EngineError) (hseen : p.run ∉ seen)
    (hlast : ∀ q ∈ s.active.erase p, q.run ≠ p.run) :
    Handled s seen p false (s.manager.closeStop p.run (.error error)) := by
  have hclosed : Handled s seen p false
      (.error error, s.manager.concluded p.run (false || decide (p.run ∈ seen))) :=
    .closed _ rfl fun _ _ => hlast
  rw [decide_eq_false hseen, Bool.or_false] at hclosed
  rw [s.manager.closeStop_error]
  exact hclosed

section

variable (hapart : s.active.Pairwise Apart)

include hapart

theorem not_mem_erase_self (p : Participant) :
    p ∉ s.active.erase p := fun h => (mem_erase hapart).mp h |>.1 rfl

/-- A participant without its counterpart is the last one of its run. -/
theorem last_of_not_mem (forced : Bool) (h : ⟨run, !forced⟩ ∉ s.active) :
    ∀ q ∈ s.active.erase ⟨run, forced⟩, q.run ≠ run := by
  intro q hq hrun
  obtain ⟨hne, hmem⟩ := (mem_erase hapart).mp hq
  obtain ⟨r, f⟩ := q
  cases hrun
  by_cases hf : f = forced
  · exact hne (by rw [hf])
  · rw [Bool.eq_not_of_ne hf] at hmem
    exact h hmem

/-- The counterpart of a participant that has reported is still active. -/
theorem mem_erase_append (forced : Bool) (h : ⟨run, !forced⟩ ∈ s.active) (more : List Participant) :
    ⟨run, !forced⟩ ∈ s.active.erase ⟨run, forced⟩ ++ more := by
  refine mem_append_left _ ((mem_erase hapart).mpr ⟨fun heq => ?_, h⟩)
  cases forced <;> cases heq

theorem handled_graceful (howned : Owned s.active seen run phase) (hmem : ⟨run, false⟩ ∈ s.active)
    (result : Except EngineError Bool) :
    Handled s seen ⟨run, false⟩ (Participant.observed ⟨run, false⟩ result)
      (s.manager.finishGraceful run phase result) := by
  have hgone := not_mem_erase_self hapart ⟨run, false⟩
  match phase with
  | .graceful =>
    obtain ⟨-, hforced, hseen⟩ := howned
    match result with
    | .ok true => exact .of_ok (.inl rfl)
    | .ok false =>
      refine .kept (.ok false) (.forced none) (.inr hforced) ⟨?_, ?_, hseen⟩
      · intro h
        rcases mem_append.mp h with h | h
        · exact hgone h
        · cases mem_singleton.mp h
      · exact mem_concat_self
    | .error error => exact .of_error error hseen (last_of_not_mem hapart false hforced)
  | .forced (some .pending) =>
    obtain ⟨-, hforced, hseen⟩ := howned
    have hleft := mem_erase_append hapart false hforced []
    rw [← append_nil (s.active.erase ⟨run, false⟩)] at hgone
    match result with
    | .ok true =>
      exact .kept (.ok true) _ (.inl rfl) ⟨hgone, hleft, fun _ => rfl, fun _ => mem_cons_self⟩
    | .ok false =>
      exact .kept (.error _) _ (.inl rfl) ⟨hgone, hleft, fun h => absurd h hseen, nofun⟩
    | .error error =>
      exact .kept (.error error) _ (.inl rfl) ⟨hgone, hleft, fun h => absurd h hseen, nofun⟩
  | .forced none => exact absurd hmem howned.1
  | .forced (some (.complete _)) => exact absurd hmem howned.1

theorem handled_forced (howned : Owned s.active seen run phase) (hmem : ⟨run, true⟩ ∈ s.active)
    (result : Except EngineError Bool) :
    Handled s seen ⟨run, true⟩ (Participant.observed ⟨run, true⟩ result)
      (s.manager.finishForced run phase (result.map fun _ => ())) := by
  match result with
  | .ok _ => exact .of_ok (.inl rfl)
  | .error error =>
    match phase with
    | .graceful => exact absurd hmem howned.2.1
    | .forced (some .pending) =>
      obtain ⟨hgraceful, -, hseen⟩ := howned
      have hgone := not_mem_erase_self hapart ⟨run, true⟩
      rw [← append_nil (s.active.erase ⟨run, true⟩)] at hgone
      exact .kept (.error error) _ (.inl rfl) ⟨mem_erase_append hapart true hgraceful [], hgone, hseen⟩
    | .forced (some (.complete true)) => exact .of_ok (.inr (howned.2.2.mpr rfl))
    | .forced (some (.complete false)) =>
      refine .of_error error (fun h => ?_) (last_of_not_mem hapart true howned.1)
      cases howned.2.2.mp h
    | .forced none => exact .of_error error howned.2.2 (last_of_not_mem hapart true howned.1)

end

/-- Every report of an active participant to its registered operation. -/
theorem handled_finishStop (h : Sound s seen) (hmem : p ∈ s.active)
    (hop : s.manager.operationFor p.run = some operation) (result : Except EngineError Bool) :
    Handled s seen p (p.observed result)
      (s.manager.finishStop p.run (p.completion result)) := by
  obtain ⟨hreg, hrun⟩ := operationFor_eq_some.mp hop
  have howned := (h.registered _ hreg).owned
  obtain ⟨run, forced⟩ := p
  unfold finishStop
  rw [hop]
  cases hrun
  cases forced
  · exact handled_graceful h.apart howned hmem result
  · exact handled_forced h.apart howned hmem result

end OneReport

/-! ### Reports keep the invariant -/

section Reports

variable {s : StopSystem} {seen : List StopRun} {p : Participant}

theorem closings_concat (reports : List Report) (r : Report) (run : StopRun) :
    closings (reports ++ [r]) run =
      closings reports run + if r.closes && decide (r.participant.run = run) then 1 else 0 := by
  unfold closings
  rw [countP_append, countP_singleton]

variable {r : Report} {seen' : List StopRun}

theorem closings_open {reports : List Report} (h : r.closes = false) (run : StopRun) :
    closings (reports ++ [r]) run = closings reports run := by
  rw [closings_concat, h]
  simp only [Bool.false_and, Bool.false_eq_true, if_false, Nat.add_zero]

theorem closings_other {reports : List Report} {run : StopRun} (h : r.participant.run ≠ run) :
    closings (reports ++ [r]) run = closings reports run := by
  rw [closings_concat, decide_eq_false h]
  simp only [Bool.and_false, Bool.false_eq_true, if_false, Nat.add_zero]

/-- Owning an operation depends on the participants of its run alone. -/
theorem Owned.congr {active' : List Participant} {run : StopRun} {phase : Phase}
    (h : Owned active seen run phase)
    (hactive : ∀ forced, ⟨run, forced⟩ ∈ active' ↔ ⟨run, forced⟩ ∈ active)
    (hseen : run ∈ seen' ↔ run ∈ seen) : Owned active' seen' run phase := by
  match phase, h with
  | .graceful, h | .forced none, h | .forced (some .pending), h
  | .forced (some (.complete _)), h =>
    unfold Owned at h ⊢
    rw [hactive, hactive, hseen]
    exact h

/-- Every phase leaves someone who has yet to report. -/
theorem Owned.attended {seen : List StopRun} {run : StopRun} {phase : Phase}
    (h : Owned active seen run phase) : ∃ p ∈ active, p.run = run := by
  match phase, h with
  | .graceful, h => exact ⟨_, h.1, rfl⟩
  | .forced none, h | .forced (some .pending), h | .forced (some (.complete _)), h =>
    exact ⟨_, h.2.1, rfl⟩

theorem Owned.forced_mem {run : StopRun} {phase : Phase} (h : Owned active seen run phase)
    (hphase : phase ≠ .graceful) : ⟨run, true⟩ ∈ active := by
  match phase, h with
  | .graceful, _ => exact absurd rfl hphase
  | .forced none, h | .forced (some .pending), h | .forced (some (.complete _)), h => exact h.2.1

theorem mem_erase_append_nil (hapart : s.active.Pairwise Apart) :
    q ∈ s.active.erase p ++ [] ↔ q ≠ p ∧ q ∈ s.active := by
  rw [append_nil]
  exact mem_erase hapart

theorem mem_continued (h : q ∈ p.continued reply) : q = ⟨p.run, true⟩ := by
  unfold Participant.continued at h
  split at h
  · split at h
    · cases h
    · exact mem_singleton.mp h
  · cases h

theorem Sound.reported_concat (h : Sound s seen) (hmem : p ∈ s.active) (hrun : r.participant = p) :
    ∀ r' ∈ s.reports ++ [r], r'.participant.run.id < s.manager.nextRun := by
  refine forall_mem_append.mpr ⟨h.reported, forall_mem_singleton.mpr ?_⟩
  rw [hrun]
  exact h.issued p hmem

/-- A participant of an operation that is no longer registered drops out. -/
theorem sound_bystander (h : Sound s seen) (hmem : p ∈ s.active)
    (hop : s.manager.operationFor p.run = none) (hrun : r.participant = p)
    (hopen : r.closes = false) :
    Sound ⟨s.manager, s.active.erase p ++ [], s.reports ++ [r]⟩ seen := by
  have hsub : ∀ q ∈ s.active.erase p ++ [], q ∈ s.active :=
    fun q hq => ((mem_erase_append_nil h.apart).mp hq).2
  refine
    { apart := ?_
      issued := fun q hq => h.issued q (hsub q hq)
      begun := fun q hq => h.begun q (hsub q hq)
      noted := h.noted
      reported := h.reported_concat hmem hrun
      once := fun run => by rw [closings_open hopen]; exact h.once run
      registered := fun operation hreg => ?_
      vacant := fun hstate hnone q hq => h.vacant hstate hnone q (hsub q hq) }
  · rw [append_nil]
    exact h.apart.sublist erase_sublist
  have hold := h.registered operation hreg
  have hne : operation.run ≠ p.run := by
    intro heq
    rw [operationFor_eq_some.mpr ⟨hreg, heq⟩] at hop
    cases hop
  refine ⟨hold.owned.congr (fun forced => ?_) Iff.rfl, hold.issued, hold.begun,
    fun q hq => hold.sole q (hsub q hq), by rw [closings_open hopen]; exact hold.unclosed⟩
  rw [mem_erase_append_nil h.apart]
  exact and_iff_right fun heq => hne (congrArg Participant.run heq)

/-- A report that leaves the operation open. -/
theorem sound_kept (h : Sound s seen) (hmem : p ∈ s.active)
    (hop : s.manager.operationFor p.run = some operation) {phase : Phase}
    (hseen : ∀ run ∈ seen', run = p.run ∨ run ∈ seen)
    (hmore : p.continued reply = [] ∨ ⟨p.run, true⟩ ∉ s.active)
    (howned : Owned (s.active.erase p ++ p.continued reply) seen' p.run phase)
    (hrun : r.participant = p) (hopen : r.closes = false) :
    Sound ⟨s.manager.setPhase p.run phase, s.active.erase p ++ p.continued reply,
      s.reports ++ [r]⟩ seen' := by
  obtain ⟨hreg, hopRun⟩ := operationFor_eq_some.mp hop
  have hold := h.registered _ hreg
  -- everyone left was active before, or is `p` again in its forced role
  have hrunOf : ∀ q ∈ s.active.erase p ++ p.continued reply, ∃ q' ∈ s.active, q'.run = q.run := by
    refine forall_mem_append.mpr ⟨?_, ?_⟩
    · exact fun q hq => ⟨q, mem_of_mem_erase hq, rfl⟩
    · exact fun q hq => ⟨p, hmem, by rw [mem_continued hq]⟩
  refine
    { apart := ?_
      issued := fun q hq => ?_
      begun := fun q hq => ?_
      noted := fun run hr => ?_
      reported := h.reported_concat hmem hrun
      once := fun run => by rw [closings_open hopen]; exact h.once run
      registered := fun operation' hreg' => ?_
      vacant := fun hstate hnone q hq => ?_ }
  · refine pairwise_append.mpr ⟨h.apart.sublist erase_sublist, ?_, ?_⟩
    · unfold Participant.continued
      split
      · split
        · exact .nil
        · exact pairwise_singleton _ _
      · exact .nil
    intro q hq q' hq' hexp hforced
    obtain rfl := mem_continued hq'
    have hq := mem_of_mem_erase hq
    have hqrun : q.run = p.run := (hold.sole q hq (by rw [hexp, hopRun])).trans hopRun
    rcases hmore with hmore | hmore
    · rw [hmore] at hq'
      cases hq'
    refine hmore ?_
    obtain ⟨run, forced⟩ := q
    cases hforced
    cases hqrun
    exact hq
  · obtain ⟨q', hq', heq⟩ := hrunOf q hq
    rw [← heq]
    exact h.issued q' hq'
  · obtain ⟨q', hq', heq⟩ := hrunOf q hq
    rw [← heq]
    exact h.begun q' hq'
  · rcases hseen run hr with rfl | hr
    · exact h.issued p hmem
    · exact h.noted run hr
  · cases hreg'
    refine ⟨howned, h.issued p hmem, h.begun p hmem, fun q hq hexp => ?_, ?_⟩
    · obtain ⟨q', hq', heq⟩ := hrunOf q hq
      rw [← heq] at hexp ⊢
      exact (hold.sole q' hq' (by rw [hexp, hopRun])).trans hopRun
    · rw [closings_open hopen, ← hopRun]
      exact hold.unclosed
  · -- the run of `p` has the operation, so it is another run that is vacant
    have hne := operationOf_eq_none.mp hnone _ rfl
    obtain ⟨q', hq', heq⟩ := hrunOf q hq
    rw [← heq]
    refine h.vacant hstate (operationOf_eq_none.mpr fun operation' hreg' => ?_) q' hq'
    rw [hreg] at hreg'
    cases hreg'
    rw [hopRun]
    exact hne

/-- A report that closes the operation. -/
theorem sound_closed (h : Sound s seen) (hmem : p ∈ s.active)
    (hop : s.manager.operationFor p.run = some operation)
    (hseen : ∀ run ∈ seen', run = p.run ∨ run ∈ seen) (stopped : Bool)
    (hlast : stopped = false → ∀ q ∈ s.active.erase p, q.run ≠ p.run) (hrun : r.participant = p) :
    Sound ⟨s.manager.concluded p.run stopped, s.active.erase p ++ [], s.reports ++ [r]⟩ seen' := by
  obtain ⟨hreg, hopRun⟩ := operationFor_eq_some.mp hop
  have hold := h.registered _ hreg
  have hsub : ∀ q ∈ s.active.erase p ++ [], q ∈ s.active :=
    fun q hq => ((mem_erase_append_nil h.apart).mp hq).2
  refine
    { apart := ?_
      issued := fun q hq => ?_
      begun := fun q hq => ?_
      noted := fun run hr => ?_
      reported := by rw [concluded_nextRun]; exact h.reported_concat hmem hrun
      once := fun run => ?_
      registered := fun operation' hreg' => ?_
      vacant := fun hstate hnone q hq => ?_ }
  · rw [append_nil]
    exact h.apart.sublist erase_sublist
  · rw [concluded_nextRun]
    exact h.issued q (hsub q hq)
  · rw [concluded_vm]
    exact h.begun q (hsub q hq)
  · rw [concluded_nextRun]
    rcases hseen run hr with rfl | hr
    · exact h.issued p hmem
    · exact h.noted run hr
  · by_cases heq : r.participant.run = run
    · have hzero : closings s.reports run = 0 := by
        rw [← heq, hrun, ← hopRun]
        exact hold.unclosed
      rw [closings_concat, hzero]
      split <;> omega
    · rw [closings_other heq]
      exact h.once run
  · rw [concluded_stopOperation] at hreg'
    cases hreg'
  rw [concluded_vm]
  by_cases hcur : s.manager.vm.runIncarnation = p.run.expected
  · cases stopped with
    | true =>
      -- published as stopped: the run cannot be stopped again
      rw [concluded_state_of_stopped _ hcur] at hstate
      rcases hstate with hstate | hstate <;> cases hstate
    | false =>
      intro hexp
      refine hlast rfl q (by rw [append_nil] at hq; exact hq) ?_
      exact (hold.sole q (hsub q hq) (by rw [hexp, hcur, hopRun])).trans hopRun
  rw [concluded_state_of_ne _ hcur] at hstate
  refine h.vacant hstate (operationOf_eq_none.mpr fun operation' hreg' => ?_) q (hsub q hq)
  rw [hreg] at hreg'
  cases hreg'
  rw [hopRun]
  exact fun heq => hcur heq.symm

theorem operationFor_setPhase (m : MachineManager) (run : StopRun) (phase : Phase) :
    (m.setPhase run phase).operationFor run = some ⟨run, phase⟩ :=
  operationFor_eq_some.mpr ⟨rfl, rfl⟩

theorem operationFor_concluded (m : MachineManager) (run : StopRun) (stopped : Bool) :
    (m.concluded run stopped).operationFor run = none := by
  unfold operationFor
  rw [concluded_stopOperation]
  rfl

theorem decided_of_open (hopen : r.closes = false) (hby : r.registered = false → r.after = r.before)
    (hquiet : r.after.state = r.before.state ∧ r.after.events = r.before.events) :
    Decided seen r := by
  have hnot : ¬ r.closes = true := by
    rw [hopen]
    exact Bool.false_ne_true
  exact ⟨hby, fun _ => hquiet, fun h => absurd h hnot, fun h => absurd h hnot⟩

theorem sound_report (h : Sound s seen) (hmem : p ∈ s.active) (result : Except EngineError Bool) :
    ∃ r, (s.report p result).reports = s.reports ++ [r] ∧ r.before = s.manager ∧
      r.after = (s.report p result).manager ∧ (s.report p result).manager.name = s.manager.name ∧
      Decided seen r ∧ Sound (s.report p result) (Report.observe seen r) := by
  unfold StopSystem.report
  cases hop : s.manager.operationFor p.run with
  | none =>
    have hfinish : s.manager.finishStop p.run (p.completion result) =
        (.error superseded, s.manager) := by
      unfold finishStop
      rw [hop]
    rw [hfinish]
    let r : Report := ⟨p, result, s.manager, .error superseded, s.manager,
      s.active.erase p ++ []⟩
    have hreg : r.registered = false := by
      change (s.manager.operationFor p.run).isSome = false
      rw [hop]
      rfl
    have hopen : r.closes = false := by
      unfold Report.closes
      rw [hreg, Bool.false_and]
    refine ⟨r, rfl, rfl, rfl, rfl, decided_of_open hopen (fun _ => rfl) ⟨rfl, rfl⟩, ?_⟩
    unfold Report.observe
    rw [hreg]
    exact sound_bystander h hmem hop rfl hopen
  | some operation =>
    have hhandled := handled_finishStop h hmem hop result
    have hseen : ∀ run ∈ (if p.observed result = true then p.run :: seen else seen),
        run = p.run ∨ run ∈ seen := by
      intro run hr
      split at hr
      · exact mem_cons.mp hr
      · exact .inr hr
    have hreg : (s.manager.operationFor p.run).isSome = true := by
      rw [hop]
      rfl
    generalize s.manager.finishStop p.run (p.completion result) = out at hhandled ⊢
    cases hhandled with
    | kept reply phase hmore howned =>
      let r : Report := ⟨p, result, s.manager, reply, s.manager.setPhase p.run phase,
        s.active.erase p ++ p.continued reply⟩
      have hreg : r.registered = true := hreg
      have hopen : r.closes = false := by
        change (r.registered && ((s.manager.setPhase p.run phase).operationFor p.run).isNone) = false
        rw [operationFor_setPhase, hreg]
        rfl
      refine ⟨r, rfl, rfl, rfl, rfl, decided_of_open hopen (fun hunreg => ?_) ⟨rfl, rfl⟩, ?_⟩
      · rw [hreg] at hunreg
        cases hunreg
      · unfold Report.observe
        rw [hreg, Bool.true_and]
        exact sound_kept h hmem hop hseen hmore howned rfl hopen
    | closed reply hdone hlast =>
      let stopped : Bool := p.observed result || decide (p.run ∈ seen)
      let r : Report := ⟨p, result, s.manager, reply, s.manager.concluded p.run stopped,
        s.active.erase p ++ p.continued reply⟩
      have hreg : r.registered = true := hreg
      have hclosed : r.closes = true := by
        change (r.registered && ((s.manager.concluded p.run stopped).operationFor p.run).isNone) = true
        rw [operationFor_concluded, hreg]
        rfl
      refine ⟨r, rfl, rfl, rfl, concluded_name _ _ _, ⟨?_, ?_, fun _ => rfl, ?_⟩, ?_⟩
      · intro hunreg
        rw [hreg] at hunreg
        cases hunreg
      · intro hopen
        rw [hclosed] at hopen
        cases hopen
      · intro _ hobs hnot q hq
        change q ∈ s.active.erase p ++ p.continued reply at hq
        rw [hdone, append_nil] at hq
        exact hlast hobs hnot q hq
      unfold Report.observe
      rw [hreg, Bool.true_and]
      dsimp only
      rw [hdone]
      refine sound_closed h hmem hop hseen stopped (fun hstopped => ?_) rfl
      obtain ⟨hobs, hnot⟩ := Bool.or_eq_false_iff.mp hstopped
      exact hlast hobs (of_decide_eq_false hnot)

/-! ### What reports publish -/

variable {e : Event} {reports : List Report} {run : StopRun}

theorem closings_filter_concat (f : Report → Bool) :
    closings ((reports ++ [r]).filter f) run = closings (reports.filter f) run +
      if f r && (r.closes && decide (r.participant.run = run)) then 1 else 0 := by
  rw [filter_append]
  cases hf : f r with
  | true => rw [filter_singleton, hf, cond_true, closings_concat, Bool.true_and]
  | false => rw [filter_singleton, hf, cond_false, append_nil]; rfl

theorem announcements_concat :
    announcements (reports ++ [r]) run e = announcements reports run e +
      if r.announces e && decide (r.participant.run = run) then 1 else 0 := by
  unfold announcements
  rw [countP_append, countP_singleton]

theorem announces_of_events {published : List Event}
    (h : r.after.events = r.before.events ++ published) :
    r.announces e = decide (published = [e]) := by
  unfold Report.announces
  rw [h]
  exact decide_eq_decide.mpr (append_right_inj _)

theorem Decided.events (h : Decided seen r) : r.after.events = r.before.events ++
    if r.closes = true then r.before.verdict r.participant.run
      (r.observed || decide (r.participant.run ∈ seen)) else [] := by
  cases hclosed : r.closes with
  | true => rw [h.closed hclosed, concluded_events, if_pos rfl]
  | false => rw [(h.quiet hclosed).2, if_neg Bool.false_ne_true, append_nil]

theorem count_of_length_le {published : List Event} (h : published.length ≤ 1) :
    published.count e = if decide (published = [e]) = true then 1 else 0 := by
  match published, h with
  | [], _ => rfl
  | [x], _ =>
    rw [count_singleton]
    exact if_congr (by simp) rfl rfl

theorem length_verdict (m : MachineManager) (stopped : Bool) :
    (m.verdict run stopped).length ≤ 1 := by
  unfold verdict
  split_ifs <;> simp

/-- One report and the announcements of an event that a closing makes just when `f` holds and the
run was seen to stop, or was not, as `want` says. -/
theorem announced_report {f : Report → Bool} (want : Bool)
    (h : announcements reports run e =
      if decide (run ∈ seen) = want then closings (reports.filter f) run else 0)
    (hclosed : r.closes = true → r.announces e =
      (f r && ((r.observed || decide (r.participant.run ∈ seen)) == want)))
    (hopen : r.closes = false → r.announces e = false)
    (hunclosed : r.registered = true → r.participant.run = run → closings reports run = 0) :
    announcements (reports ++ [r]) run e = if decide (run ∈ r.observe seen) = want then
      closings ((reports ++ [r]).filter f) run else 0 := by
  rw [announcements_concat, closings_filter_concat, h]
  by_cases hrun : r.participant.run = run
  swap
  · have hseen : run ∈ r.observe seen ↔ run ∈ seen := by
      unfold Report.observe
      split
      · rw [mem_cons, or_iff_right (Ne.symm hrun)]
      · exact Iff.rfl
    simp only [decide_eq_false hrun, Bool.and_false, Bool.false_eq_true, if_false, Nat.add_zero,
      hseen]
  cases hreg : r.registered with
  | false =>
    have hcl : r.closes = false := by rw [Report.closes, hreg, Bool.false_and]
    rw [hopen hcl, hcl, show r.observe seen = seen by rw [Report.observe, hreg]; rfl]
    simp only [Bool.false_and, Bool.and_false, Bool.false_eq_true, if_false, Nat.add_zero]
  | true =>
    -- an operation that is still registered has not been closed, so nothing was announced before
    have hzero : closings (reports.filter f) run = 0 :=
      Nat.le_zero.mp (hunclosed hreg hrun ▸ filter_sublist.countP_le)
    have hseen : decide (run ∈ r.observe seen) =
        (r.observed || decide (r.participant.run ∈ seen)) := by
      unfold Report.observe
      rw [hreg, Bool.true_and, hrun]
      cases r.observed <;> simp
    rw [hzero, ite_self, hseen, decide_eq_true hrun, Bool.and_true, Bool.and_true]
    cases hcl : r.closes with
    | false => rw [hopen hcl, Bool.and_false]; simp
    | true =>
      rw [hclosed hcl, Bool.and_true]
      cases f r <;> simp

theorem Published.report {m : MachineManager} {s' : StopSystem} (h : Published m s)
    (hsound : Sound s s.seen) (hname : s.manager.name = m.name)
    (hreports : s'.reports = s.reports ++ [r]) (hbefore : r.before = s.manager)
    (hafter : r.after = s'.manager) (hdecided : Decided s.seen r) : Published m s' := by
  have hevents := hdecided.events
  have hopen : r.closes = false → ∀ e, r.announces e = false := by
    intro hcl e
    rw [hcl, if_neg Bool.false_ne_true] at hevents
    rw [announces_of_events hevents]
    rfl
  have hclosed : r.closes = true → ∀ e, r.announces e = decide (r.before.verdict r.participant.run
      (r.observed || decide (r.participant.run ∈ s.seen)) = [e]) := by
    intro hcl e
    rw [if_pos hcl] at hevents
    exact announces_of_events hevents
  have hunclosed : ∀ run, r.registered = true → r.participant.run = run →
      closings s.reports run = 0 := by
    intro run hreg hrun
    unfold Report.registered at hreg
    obtain ⟨operation, hop⟩ := Option.isSome_iff_exists.mp hreg
    rw [hbefore] at hop
    obtain ⟨hop, heq⟩ := operationFor_eq_some.mp hop
    rw [← hrun, ← heq]
    exact (hsound.registered operation hop).unclosed
  have hseen : s'.seen = r.observe s.seen := by
    unfold StopSystem.seen
    rw [hreports, History.after_append]
    rfl
  refine ⟨fun e he => ?_, fun run => ?_, fun run => ?_⟩
  · have hlength : (if r.closes = true then r.before.verdict r.participant.run
        (r.observed || decide (r.participant.run ∈ s.seen)) else []).length ≤ 1 := by
      split
      · exact length_verdict _ _
      · exact Nat.zero_le _
    rw [← hafter, hevents, count_append, count_of_length_le hlength, ← announces_of_events hevents,
      hbefore, h.counted e he, hreports, countP_append, countP_singleton, Nat.add_assoc]
  · have hstep := announced_report true (by simpa using h.stopped run)
      (fun hcl => ?_) (fun hcl => hopen hcl _) (hunclosed run)
    · rw [hseen, hreports]
      simpa using hstep
    rw [hclosed hcl, ← hname, ← hbefore, Bool.eq_iff_iff]
    simp only [decide_eq_true_iff, verdict_stopped, Report.current, Bool.and_eq_true, beq_iff_eq]
  · have hstep := announced_report (f := fun r => r.current && r.before.vm.live) false
      (by simpa using h.cancelled run)
      (fun hcl => ?_) (fun hcl => hopen hcl _) (hunclosed run)
    · rw [hseen, hreports]
      simpa using hstep
    rw [hclosed hcl, ← hname, ← hbefore, Bool.eq_iff_iff]
    simp only [decide_eq_true_iff, verdict_cancelled, Report.current, Bool.and_eq_true, beq_iff_eq,
      and_assoc]

end Reports

/-! ### Admissions and the environment -/

section Steps

variable {s : StopSystem} {seen : List StopRun}
variable (m : MachineManager)

theorem beginStop_fields (operation : StopOperation) :
    (m.beginStop operation).stopOperation = some operation ∧
      (m.beginStop operation).vm = m.vm ∧ (m.beginStop operation).nextRun = m.nextRun := by
  exact ⟨publishEvent_stopOperation _ _, publishEvent_vm _ _,
    publishEvent_nextRun _ _⟩

theorem beginStop_events (operation : StopOperation) :
    (m.beginStop operation).events = if m.name = defaultMachineName then m.events
      else m.events ++ [.machineStopping m.name] := by
  unfold beginStop publishEvent
  dsimp only
  split <;> rfl

/-- What an admission does: it takes a graceful operation over, or begins a new one on a run that
has none. -/
inductive Admitted (m : MachineManager) (expected : VmIncarnation) (graceful : Bool) :
    StopRun × MachineManager → Prop
  | takeover (run : StopRun) (hgraceful : graceful = false)
      (hreg : m.stopOperation = some ⟨run, .graceful⟩) (hrun : run.expected = expected) :
      Admitted m expected graceful (run, m.beginStop ⟨run, .forced (some .pending)⟩)
  | begun (hstate : m.state = .running ∨ m.state = .stopping)
      (hnone : m.operationOf expected = none) :
      Admitted m expected graceful (⟨m.nextRun, expected⟩,
        ({ m with nextRun := m.nextRun + 1 }).beginStop
          ⟨⟨m.nextRun, expected⟩, if graceful = true then .graceful else .forced none⟩)

theorem admitted_of_ok {m : MachineManager} {expected : VmIncarnation} {graceful : Bool}
    {out : StopRun × MachineManager} (h : m.admitStop expected graceful = .ok out) :
    m.vm.runIncarnation = expected ∧ Admitted m expected graceful out := by
  unfold admitStop at h
  split at h
  · cases h
  rename_i hstate
  split at h
  · cases h
  rename_i hcur
  refine ⟨not_not.mp hcur, ?_⟩
  split at h
  next operation hop =>
    split at h
    · cases h
    rename_i hown
    obtain ⟨hgraceful, hphase⟩ := not_or.mp hown
    obtain ⟨run, phase⟩ := operation
    cases h
    unfold operationOf at hop
    rw [Option.filter_eq_some_iff, decide_eq_true_iff] at hop
    obtain rfl : phase = .graceful := not_not.mp hphase
    exact .takeover run (Bool.eq_false_iff.mpr hgraceful) hop.1 hop.2
  rename_i hnone
  cases h
  refine .begun ?_ hnone
  by_contra hneither
  obtain ⟨hrunning, hstopping⟩ := not_or.mp hneither
  exact hstate ⟨hrunning, .inr hstopping⟩

/-- A forced attempt joins a graceful one. -/
theorem sound_takeover (h : Sound s seen) {run : StopRun}
    (hreg : s.manager.stopOperation = some ⟨run, .graceful⟩)
    (hcur : s.manager.vm.runIncarnation = run.expected) :
    Sound ⟨s.manager.beginStop ⟨run, .forced (some .pending)⟩, s.active ++ [⟨run, true⟩],
      s.reports⟩ seen := by
  obtain ⟨hstop, hvm, hnext⟩ := beginStop_fields s.manager ⟨run, .forced (some .pending)⟩
  have hold := h.registered _ hreg
  obtain ⟨hgraceful, hforced, hnot⟩ := hold.owned
  have hrunOf : ∀ q ∈ s.active ++ [(⟨run, true⟩ : Participant)], ∃ q' ∈ s.active, q'.run = q.run := by
    exact forall_mem_append.mpr
      ⟨fun q hq => ⟨q, hq, rfl⟩, forall_mem_singleton.mpr ⟨⟨run, false⟩, hgraceful, rfl⟩⟩
  refine
    { apart := ?_
      issued := fun q hq => ?_
      begun := fun q hq => ?_
      noted := fun r hr => by rw [hnext]; exact h.noted r hr
      reported := fun r hr => by rw [hnext]; exact h.reported r hr
      once := h.once
      registered := fun operation hreg' => ?_
      vacant := fun hstate hnone q hq => ?_ }
  · refine pairwise_append.mpr ⟨h.apart, pairwise_singleton _ _, ?_⟩
    intro q hq q' hq' hexp hrole
    obtain rfl := mem_singleton.mp hq'
    have hqrun : q.run = run := hold.sole q hq hexp
    refine hforced ?_
    obtain ⟨r, f⟩ := q
    cases hqrun
    cases hrole
    exact hq
  · obtain ⟨q', hq', heq⟩ := hrunOf q hq
    rw [hnext, ← heq]
    exact h.issued q' hq'
  · obtain ⟨q', hq', heq⟩ := hrunOf q hq
    rw [hvm, ← heq]
    exact h.begun q' hq'
  · rw [hstop] at hreg'
    cases hreg'
    refine ⟨⟨mem_append_left _ hgraceful, mem_concat_self,
      hnot⟩, by rw [hnext]; exact hold.issued, by rw [hvm]; exact hold.begun,
      fun q hq hexp => ?_, hold.unclosed⟩
    obtain ⟨q', hq', heq⟩ := hrunOf q hq
    rw [← heq] at hexp ⊢
    exact hold.sole q' hq' hexp
  refine absurd hcur.symm ?_
  have hne := operationOf_eq_none.mp hnone _ hstop
  rw [hvm] at hne
  exact hne

/-- A new operation on a run that has none. -/
theorem sound_begun (h : Sound s seen)
    (hstate : s.manager.state = .running ∨ s.manager.state = .stopping)
    (hnone : s.manager.operationOf s.manager.vm.runIncarnation = none) (graceful : Bool) :
    Sound ⟨({ s.manager with nextRun := s.manager.nextRun + 1 }).beginStop
        ⟨⟨s.manager.nextRun, s.manager.vm.runIncarnation⟩,
          if graceful = true then .graceful else .forced none⟩,
      s.active ++ [⟨⟨s.manager.nextRun, s.manager.vm.runIncarnation⟩, !graceful⟩],
      s.reports⟩ seen := by
  generalize hrun : (⟨s.manager.nextRun, s.manager.vm.runIncarnation⟩ : StopRun) = run
  have hid : run.id = s.manager.nextRun := by rw [← hrun]
  have hexp : run.expected = s.manager.vm.runIncarnation := by rw [← hrun]
  generalize hphase : (if graceful = true then Phase.graceful else .forced none) = phase
  obtain ⟨hstop, hvm, hnext⟩ :=
    beginStop_fields { s.manager with nextRun := s.manager.nextRun + 1 } ⟨run, phase⟩
  have hvacant := h.vacant hstate hnone
  have hfresh : ∀ forced, (⟨run, forced⟩ : Participant) ∉ s.active := by
    intro forced hmem
    exact absurd hexp (hvacant _ hmem)
  have hunseen : run ∉ seen := by
    intro hmem
    have hlt := h.noted run hmem
    omega
  refine
    { apart := ?_
      issued := ?_
      begun := ?_
      noted := fun r hr => ?_
      reported := fun r hr => ?_
      once := h.once
      registered := fun operation hreg => ?_
      vacant := fun _ hnone' q hq => ?_ }
  · refine pairwise_append.mpr ⟨h.apart, pairwise_singleton _ _, ?_⟩
    intro q hq q' hq' hsame
    obtain rfl := mem_singleton.mp hq'
    exact absurd (hsame.trans hexp) (hvacant q hq)
  · rw [hnext]
    refine forall_mem_append.mpr ⟨fun q hq => Nat.lt_succ_of_lt (h.issued q hq), ?_⟩
    rw [forall_mem_singleton, hid]
    exact Nat.lt_succ_self _
  · rw [hvm]
    exact forall_mem_append.mpr ⟨h.begun, forall_mem_singleton.mpr (Nat.le_of_eq hexp)⟩
  · rw [hnext]
    exact Nat.lt_succ_of_lt (h.noted r hr)
  · rw [hnext]
    exact Nat.lt_succ_of_lt (h.reported r hr)
  · rw [hstop] at hreg
    cases hreg
    refine ⟨?_, by rw [hnext, hid]; exact Nat.lt_succ_self _, by rw [hvm]; exact Nat.le_of_eq hexp,
      fun q hq hsame => ?_, ?_⟩
    · rw [← hphase]
      cases graceful
      · refine ⟨fun hmem => ?_, mem_concat_self, hunseen⟩
        rcases mem_append.mp hmem with hmem | hmem
        · exact hfresh _ hmem
        · cases mem_singleton.mp hmem
      refine ⟨mem_concat_self, fun hmem => ?_, hunseen⟩
      rcases mem_append.mp hmem with hmem | hmem
      · exact hfresh _ hmem
      · cases mem_singleton.mp hmem
    · rcases mem_append.mp hq with hq | hq
      · exact absurd (hsame.trans hexp) (hvacant q hq)
      · rw [mem_singleton.mp hq]
    -- no report can have named a run that did not exist yet
    refine countP_eq_zero.mpr fun r hr hclosed => ?_
    have hlt := h.reported r hr
    rw [Bool.and_eq_true, decide_eq_true_iff] at hclosed
    have hsame : r.participant.run = run := hclosed.2
    rw [hsame, hid] at hlt
    exact absurd hlt (Nat.lt_irrefl _)
  · refine absurd hexp ?_
    have hne := operationOf_eq_none.mp hnone' _ hstop
    rw [hvm] at hne
    exact hne

theorem sound_restart (h : Sound s seen) (state : MachineState) (live : Bool) :
    Sound (s.step (.restart state live)) seen := by
  have hlater : ∀ {i : VmIncarnation}, i ≤ s.manager.vm.runIncarnation →
      i ≤ s.manager.vm.runIncarnation + 1 := Nat.le_succ_of_le
  refine ⟨h.apart, h.issued, fun p hp => hlater (h.begun p hp), h.noted, h.reported, h.once,
    fun operation hreg => ?_, fun _ _ p hp => Nat.ne_of_lt (Nat.lt_succ_of_le (h.begun p hp))⟩
  have hold := h.registered operation hreg
  exact ⟨hold.owned, hold.issued, hlater hold.begun, hold.sole, hold.unclosed⟩

theorem sound_power (h : Sound s seen) (live : Bool) : Sound (s.step (.power live)) seen := by
  refine ⟨h.apart, h.issued, h.begun, h.noted, h.reported, h.once, fun operation hreg => ?_,
    h.vacant⟩
  have hold := h.registered operation hreg
  exact ⟨hold.owned, hold.issued, hold.begun, hold.sole, hold.unclosed⟩

theorem sound_attempt (h : Sound s seen) (expected : VmIncarnation) (graceful : Bool) :
    Sound (s.step (.attempt expected graceful)) seen ∧
      (s.step (.attempt expected graceful)).reports = s.reports := by
  unfold StopSystem.step
  dsimp only
  cases hout : s.manager.admitStop expected graceful with
  | error e => exact ⟨h, rfl⟩
  | ok out =>
    obtain ⟨hcur, hadmitted⟩ := admitted_of_ok hout
    cases hadmitted with
    | takeover run hgraceful hreg hrun =>
      rw [hgraceful]
      exact ⟨sound_takeover h hreg (hcur.trans hrun.symm), rfl⟩
    | begun hstate hnone =>
      rw [← hcur] at hnone ⊢
      exact ⟨sound_begun h hstate hnone graceful, rfl⟩

/-- The manager admits exactly the attempts that nobody active stands in the way of. -/
theorem admitStop_ok_iff (h : Sound s seen) {expected : VmIncarnation} {graceful : Bool} :
    (∃ out, s.manager.admitStop expected graceful = .ok out) ↔ Admissible s expected graceful := by
  unfold admitStop
  split
  next hstate =>
    refine ⟨nofun, fun hadm => absurd hadm.1 fun hor => ?_⟩
    rcases hor with hrunning | ⟨hforced, hstopping⟩
    · exact hstate.1 hrunning
    · rcases hstate.2 with hgraceful | hne
      · exact Bool.false_ne_true (hforced.symm.trans hgraceful)
      · exact hne hstopping
  next hstate =>
  have hcan : s.manager.state = .running ∨ graceful = false ∧ s.manager.state = .stopping := by
    by_contra hnot
    obtain ⟨hrunning, hstopping⟩ := not_or.mp hnot
    refine hstate ⟨hrunning, ?_⟩
    by_contra hneither
    obtain ⟨hgraceful, hne⟩ := not_or.mp hneither
    exact hstopping ⟨Bool.eq_false_iff.mpr hgraceful, not_not.mp hne⟩
  split
  next hcur => exact ⟨nofun, fun hadm => absurd hadm.2.1 hcur⟩
  next hcur =>
  cases hop : s.manager.operationOf expected with
  | none =>
    refine ⟨fun _ => ⟨hcan, not_not.mp hcur, fun p hp hexp => ?_⟩, fun _ => ⟨_, rfl⟩⟩
    rw [← not_not.mp hcur] at hop hexp
    exact absurd hexp (h.vacant (hcan.imp_right And.right) hop p hp)
  | some operation =>
    unfold operationOf at hop
    rw [Option.filter_eq_some_iff, decide_eq_true_iff] at hop
    have hold := h.registered operation hop.1
    dsimp only
    split
    next hown =>
      refine ⟨nofun, fun hadm => ?_⟩
      rcases hown with hgraceful | hphase
      · obtain ⟨p, hp, hrun⟩ := hold.owned.attended
        have hforced := (hadm.2.2 p hp (by rw [hrun]; exact hop.2)).1
        exact absurd (hforced.symm.trans hgraceful) Bool.false_ne_true
      · have hforced := hold.owned.forced_mem hphase
        exact absurd (hadm.2.2 _ hforced hop.2).2 nofun
    next hown =>
      obtain ⟨hgraceful, hphase⟩ := not_or.mp hown
      refine ⟨fun _ => ⟨hcan, not_not.mp hcur, fun p hp hexp => ?_⟩, fun _ => ⟨_, rfl⟩⟩
      refine ⟨Bool.eq_false_iff.mpr hgraceful, Bool.eq_false_iff.mpr fun hforced => ?_⟩
      have howned := hold.owned
      rw [not_not.mp hphase] at howned
      obtain ⟨run, forced⟩ := p
      cases hforced
      cases hold.sole _ hp (hexp.trans hop.2.symm)
      exact howned.2.1 hp

theorem admission (h : Sound s seen) (action : StopAction) : Admission s action := by
  cases action with
  | report p result | restart state live | power live => trivial
  | attempt expected graceful =>
    unfold Admission StopSystem.step
    dsimp only
    cases hout : s.manager.admitStop expected graceful with
    | error e =>
      refine ⟨fun hadm => ?_, fun _ => rfl⟩
      obtain ⟨out, hok⟩ := (admitStop_ok_iff h).mpr hadm
      rw [hout] at hok
      cases hok
    | ok out =>
      refine ⟨fun _ => ?_, fun hnot => absurd ((admitStop_ok_iff h).mp ⟨out, hout⟩) hnot⟩
      obtain ⟨-, hadmitted⟩ := admitted_of_ok hout
      cases hadmitted with
      | takeover run _ _ hrun =>
        exact ⟨⟨_, (beginStop_fields _ _).1, hrun, rfl⟩, publishEvent_state _ _,
          beginStop_events _ _, publishEvent_name _ _, (beginStop_fields _ _).2.1, rfl⟩
      | begun =>
        exact ⟨⟨_, (beginStop_fields _ _).1, rfl, rfl⟩, publishEvent_state _ _,
          beginStop_events _ _, publishEvent_name _ _, (beginStop_fields _ _).2.1, rfl⟩

/-- What holds in every state: the invariant, for the runs the reports so far observed. -/
structure Holds (m : MachineManager) (s : StopSystem) : Prop where
  sound : Sound s s.seen
  decided : History.Throughout Report.observe [] Decided s.reports
  name : s.manager.name = m.name
  published : Published m s

variable {m}

/-- A step without a report publishes nothing, or that a stop begins. -/
theorem Published.unreported {s' : StopSystem} (h : Published m s)
    (hreports : s'.reports = s.reports) (hevents : s'.manager.events = s.manager.events ∨
      s'.manager.events = s.manager.events ++ [.machineStopping m.name]) : Published m s' := by
  refine ⟨fun e he => ?_, ?_, ?_⟩
  · rw [hreports, ← h.counted e he]
    rcases hevents with heq | heq
    · rw [heq]
    · rw [heq, count_append, count_singleton, if_neg (by simpa using Ne.symm he), Nat.add_zero]
  · unfold StopSystem.seen
    rw [hreports]
    exact h.stopped
  · unfold StopSystem.seen
    rw [hreports]
    exact h.cancelled

theorem Holds.step (h : Holds m s) (action : StopAction) : Holds m (s.step action) := by
  cases action with
  | attempt expected graceful =>
    obtain ⟨hsound, hreports⟩ := sound_attempt h.sound expected graceful
    obtain ⟨hbegun, hrefused⟩ := admission h.sound (.attempt expected graceful)
    by_cases hadm : Admissible s expected graceful
    · have hbegun := hbegun hadm
      refine ⟨?_, by rw [hreports]; exact h.decided, ?_, h.published.unreported hreports ?_⟩
      · unfold StopSystem.seen
        rw [hreports]
        exact hsound
      · rw [hbegun.name]
        exact h.name
      · rw [hbegun.announced, h.name]
        split
        · exact .inl rfl
        · exact .inr rfl
    · rw [hrefused hadm]
      exact h
  | restart state live =>
    exact ⟨sound_restart h.sound state live, h.decided, h.name, h.published.unreported rfl (.inl rfl)⟩
  | power live =>
    exact ⟨sound_power h.sound live, h.decided, h.name, h.published.unreported rfl (.inl rfl)⟩
  | report p result =>
    unfold StopSystem.step
    dsimp only
    split
    next hmem =>
      obtain ⟨r, hreports, hbefore, hafter, hname, hdecided, hsound⟩ :=
        sound_report h.sound hmem result
      refine ⟨?_, ?_, hname.trans h.name,
        h.published.report h.sound h.name hreports hbefore hafter hdecided⟩
      · unfold StopSystem.seen
        rw [hreports, History.after_append]
        exact hsound
      · rw [hreports]
        exact History.throughout_concat.mpr ⟨h.decided, hdecided⟩
    · exact h

variable (m)

theorem holds_start : Holds m (StopSystem.start m) := by
  refine ⟨⟨.nil, ?_, ?_, ?_, ?_, fun _ => Nat.zero_le _, ?_, ?_⟩, History.throughout_nil, rfl,
    ⟨fun _ _ => rfl, fun _ => rfl, fun _ => rfl⟩⟩
  · exact forall_mem_nil _
  · exact forall_mem_nil _
  · exact forall_mem_nil _
  · exact forall_mem_nil _
  · exact nofun
  · exact fun _ _ p hp => absurd hp not_mem_nil

theorem holds_runActions (actions : List StopAction) :
    Holds m ((StopSystem.start m).runActions actions) := by
  exact foldlRecOn _ _ (holds_start m) fun _ h action _ => h.step action

end Steps

/-! ## Agreement -/

/-- A forced attempt that is still active owns the operation it was admitted to. -/
theorem Owned.requireForceOwner {m : MachineManager} {seen : List StopRun} {run : StopRun}
    {phase : Phase} (h : Owned active seen run phase) (hreg : m.stopOperation = some ⟨run, phase⟩)
    (hmem : ⟨run, true⟩ ∈ active) : m.requireForceOwner run = .ok () := by
  unfold MachineManager.requireForceOwner
  rw [operationFor_eq_some.mpr ⟨hreg, rfl⟩]
  match phase, h with
  | .graceful, h => exact absurd hmem h.2.1
  | .forced _, _ => rfl

/-- However stop attempts on a machine are admitted and report, and whatever restarts
or kills its virtual machine meanwhile, they agree on one outcome. -/
theorem stop_attempts_agree (m : MachineManager) (actions : List StopAction) :
    Agreed m ((StopSystem.start m).runActions actions) ∧
      History.Throughout StopSystem.step (StopSystem.start m) Admission actions := by
  refine ⟨?_, fun pre action post _ => admission (holds_runActions m pre).sound action⟩
  obtain ⟨hsound, hdecided, -, hpublished⟩ := holds_runActions m actions
  refine ⟨hsound.apart, hdecided, hsound.once, hpublished, fun operation hreg => ?_,
    fun operation hreg hmem => ?_⟩
  · exact (hsound.registered operation hreg).owned.attended
  · exact (hsound.registered operation hreg).owned.requireForceOwner hreg hmem

/-- The graceful attempt saw the stop, so the takeover that fails after it publishes it. -/
example :
    ((StopSystem.start ⟨"box", .running, ⟨1, true⟩, none, 0, []⟩).runActions
      [.attempt 1 true, .attempt 1 false, .report ⟨⟨0, 1⟩, false⟩ (.ok true),
        .report ⟨⟨0, 1⟩, true⟩ (.error (.other "teardown"))]).manager =
      ⟨"box", .stopped, ⟨1, true⟩, none, 1,
        [.machineStopping "box", .machineStopping "box", .machineStopped "box"]⟩ := by
  decide

end Arcbox.Engine

import Arcbox.Foundation.Table

set_option autoImplicit false

/-!
# Runner agent: offers, slots and the handover cell

The agent is the admission authority: it decides on each offer against live host state.
A job that it takes has a slot, whose state arbitrates between the runner's start,
redelivered offers and cancellation.  The handover cell says whether this process image is
on its way out; it only climbs, except that a self-update can become moot.
-/

namespace Arcbox.Runner

open Foundation

abbrev JobId := String
abbrev Token := String

inductive Backend where
  | docker
  | hostRunner
  | vm
  | unspecified
deriving DecidableEq, Repr

/-- Why an offer is declined. -/
inductive Refusal where
  | draining
  | noCapability (os arch : String)
  | loadTooHigh (perCore : Rat)
  | lowMemory (freeMib : Nat)
  | startFailed (error : String)
deriving DecidableEq, Repr

structure ProvisionRunner where
  jobId : JobId
  os : String
  arch : String
  offerToken : Token
deriving DecidableEq, Repr

/-- What the agent tells the gateway and repeats until it is acknowledged. -/
inductive Msg where
  | runnerAccepted (jobId : JobId) (offerToken : Token)
  | runnerRejected (jobId : JobId) (offerToken : Token) (reason : Refusal)
  | runnerExited (jobId : JobId) (ackToken : Token)
deriving DecidableEq, Repr

def exitToken (job : JobId) : Token := "exit:" ++ job

/-! ## The handover cell -/

inductive Reason where
  | none
  | update
  | restart
  | forcedRestart
  | terminating
deriving DecidableEq, Repr

namespace Reason

def rank : Reason → Nat
  | .none => 0
  | .update => 1
  | .restart => 2
  | .forcedRestart => 3
  | .terminating => 4

/-- This image is on its way out. -/
def pending (r : Reason) : Bool := r ≠ .none

/-- Record the higher of the two. -/
def escalate (r next : Reason) : Reason := if r.rank < next.rank then next else r

/-- Back to none from exactly an update. -/
def revokeUpdate (r : Reason) : Reason := if r = .update then .none else r

end Reason

/-- What a request for a handover did. -/
inductive Requested where
  | recorded
  | alreadyPending
  | shuttingDown
deriving DecidableEq, Repr

def requested (previous next : Reason) : Requested :=
  if previous = .terminating then .shuttingDown
  else if next.rank ≤ previous.rank then .alreadyPending
  else .recorded

/-! ## Slots -/

inductive JobState where
  /-- Startup has not settled; redeliveries wait for its outcome. -/
  | starting (parkedOffers : List Token)
  | started
  | rejected (reason : Refusal)
  /-- The platform concluded the job; no verdict is owed. -/
  | cancelled
deriving DecidableEq, Repr

/-- Supervision state of one in-flight job. -/
structure JobSlot where
  /-- The level-triggered signal that the job's task observes. -/
  cancelled : Bool
  state : JobState
deriving DecidableEq, Repr

inductive DuplicateVerdict where
  | deferred
  | accept
  | reject (reason : Refusal)
  | ignore
deriving DecidableEq, Repr

/-- How startup settles: cancellation has won, or the parked offers get the same answer.
The source panics where the slot was settled before. -/
inductive Settling where
  | panics
  | cancelled
  | settled (parkedOffers : List Token)
deriving DecidableEq, Repr

namespace JobSlot

def new : JobSlot := ⟨false, .starting []⟩

def duplicateVerdict (slot : JobSlot) (token : Token) : DuplicateVerdict × JobSlot :=
  match slot.state with
  | .starting parked =>
    (.deferred,
      { slot with state := .starting (if token ∈ parked then parked else parked ++ [token]) })
  | .started => (.accept, slot)
  | .rejected reason => (.reject reason, slot)
  | .cancelled => (.ignore, slot)

def acceptStart (slot : JobSlot) : Settling × JobSlot :=
  match slot.state with
  | .starting parked => (.settled parked, { slot with state := .started })
  | .cancelled => (.cancelled, slot)
  | .started => (.panics, slot)
  | .rejected _ => (.panics, slot)

def rejectStart (slot : JobSlot) (reason : Refusal) : Settling × JobSlot :=
  match slot.state with
  | .starting parked => (.settled parked, { slot with state := .rejected reason })
  | .cancelled => (.cancelled, slot)
  | .started => (.panics, slot)
  | .rejected _ => (.panics, slot)

def cancel (_ : JobSlot) : JobSlot := ⟨true, .cancelled⟩

end JobSlot

/-! ## The admission decision -/

structure HostTelemetry where
  loadAvg1m : Rat
  cpuCount : Nat
  memAvailableMib : Nat

/-- What admission reads of the host. -/
structure HostView where
  backendFor : String → String → Option Backend
  telemetry : HostTelemetry
  loadCeiling : Rat
  memFloorMib : Nat

namespace HostView

def loadPerCore (h : HostView) : Rat :=
  if 0 < h.telemetry.cpuCount then h.telemetry.loadAvg1m / h.telemetry.cpuCount
  else h.telemetry.loadAvg1m

def headroom (h : HostView) (os arch : String) : Except Refusal Backend :=
  match h.backendFor os arch with
  | none => .error (.noCapability os arch)
  | some backend =>
    if h.loadCeiling < h.loadPerCore then .error (.loadTooHigh h.loadPerCore)
    else if h.telemetry.memAvailableMib < h.memFloorMib then
      .error (.lowMemory h.telemetry.memAvailableMib)
    else .ok backend

/-- A host with room for anything. -/
def roomy : HostView where
  backendFor := fun _ _ => some .vm
  telemetry := ⟨0, 8, 16384⟩
  loadCeiling := 1
  memFloorMib := 1024

end HostView

inductive Admission where
  | accept (backend : Backend)
  | duplicate
  | replayAccepted
  | reject (reason : Refusal)
deriving DecidableEq, Repr

def hasUnackedAccept (outstanding : Table Token Msg) (job : JobId) : Bool :=
  outstanding.entries.any fun entry =>
    match entry.2 with
    | .runnerAccepted accepted _ => accepted = job
    | _ => false

/-- Decide on an offer: a redelivery is never a fresh runner, then drain and handover, then the
host. -/
def admitJob (inFlight : JobId → Bool) (outstanding : Table Token Msg) (draining : Bool)
    (reason : Reason) (h : HostView) (order : ProvisionRunner) : Admission :=
  if inFlight order.jobId then .duplicate
  else if hasUnackedAccept outstanding order.jobId then .replayAccepted
  else if draining || reason.pending then .reject .draining
  else
    match h.headroom order.os order.arch with
    | .error refusal => .reject refusal
    | .ok backend => .accept backend

theorem hasUnackedAccept_iff {outstanding : Table Token Msg} {job : JobId} :
    hasUnackedAccept outstanding job = true ↔
      ∃ key token, outstanding.lookup key = some (.runnerAccepted job token) := by
  unfold hasUnackedAccept
  rw [List.any_eq_true]
  constructor
  · rintro ⟨⟨key, msg⟩, hmem, h⟩
    cases msg with
    | runnerAccepted accepted token =>
      obtain rfl : accepted = job := of_decide_eq_true h
      exact ⟨key, token, Table.lookup_eq_some_iff.mpr hmem⟩
    | runnerRejected | runnerExited => cases h
  · rintro ⟨key, token, h⟩
    exact ⟨_, Table.lookup_eq_some_iff.mp h, decide_eq_true rfl⟩

end Arcbox.Runner

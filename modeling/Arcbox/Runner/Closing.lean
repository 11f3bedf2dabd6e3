import Arcbox.Foundation.History
import Arcbox.Runner.Admission

set_option autoImplicit false

/-!
# Runner agent: what keeps admission closed

A drain pushed by the gateway, a drain of the operator, a handover and the end of an attachment
all close admission.  The supervisor folds the drains into one flag of its own and into another,
process-wide one that is published together with the handover.  Drains and resumes write these
flags one after the other: the gateway's on the attach task, the operator's under the state lock.
-/

namespace Arcbox.Runner

open Foundation Foundation.History

/-! ## The state -/

/-- What closes admission besides a handover. -/
structure Causes where
  gateway : Bool := false
  operator : Bool := false
  shutdown : Bool := false
deriving DecidableEq, Repr

/-- A drain is in force. -/
@[grind] def Causes.drained (c : Causes) : Bool := c.gateway || c.operator

/-- The attachment, as the enrollment state shows it. -/
inductive Link where
  | absent
  | attached
  /-- An unenroll or a detach waits for the attach task. -/
  | leaving
deriving DecidableEq, Repr

/-- The next access of the operation that holds the state lock. -/
inductive Held where
  | close
  | reopen
  | mark (draining : Bool)
  | publish
  /-- A new attachment. -/
  | clear
  | announce
  | spawn
deriving DecidableEq, Repr

/-- The next access of the attach task's own drain, or of its shutdown. -/
inductive Pushed where
  | close
  | mark
  | publish
  | stop
deriving DecidableEq, Repr

/-- A fresh job, with what was in force when it was admitted. -/
structure Admitted where
  order : ProvisionRunner
  causes : Causes
  reason : Reason

structure Gate where
  /-- The flag of the current supervisor. -/
  draining : Bool
  /-- The process-wide flag behind the published one. -/
  operatorDraining : Bool
  reason : Reason
  published : Bool
  link : Link
  serving : Bool
  cancelled : Bool
  holder : Option Held
  task : Option Pushed
  /-- Changes of the handover that are yet to be published. -/
  late : Nat
  /-- The drains in force on the current attachment. -/
  causes : Causes
  log : List Admitted

namespace Gate

def fresh : Gate where
  draining := false
  operatorDraining := false
  reason := .none
  published := false
  link := .absent
  serving := false
  cancelled := false
  holder := none
  task := none
  late := 0
  causes := {}
  log := []

/-! ## Accesses -/

variable (s : Gate)

/-- Both inputs are read under the lock of the published state. -/
@[grind] def refreshDraining : Gate :=
  { s with published := s.operatorDraining || s.reason.pending }

@[grind] def stopAccepting (causes : Causes) : Gate := { s with draining := true, causes := causes }

/-- The next access under the state lock. -/
def lockStep : Gate :=
  match s.holder with
  | none => s
  | some .close =>
    { s.stopAccepting { s.causes with operator := true } with holder := some (.mark true) }
  | some .reopen =>
    { s with
      draining := false
      causes := { s.causes with operator := false }
      holder := some (.mark false) }
  | some (.mark draining) =>
    { s with operatorDraining := draining, holder := some .publish }
  | some .publish => { s.refreshDraining with holder := none }
  | some .clear => { s with operatorDraining := false, holder := some .announce }
  | some .announce => { s.refreshDraining with holder := some .spawn }
  | some .spawn =>
    { s with
      draining := false
      causes := {}
      link := .attached
      serving := true
      holder := none }

/-- The next access of the attach task. -/
def taskStep : Gate :=
  match s.task with
  | none => s
  | some .close =>
    { s.stopAccepting { s.causes with gateway := true } with task := some .mark }
  | some .mark => { s with operatorDraining := true, task := some .publish }
  | some .publish => { s.refreshDraining with task := none }
  | some .stop => { s.stopAccepting { s.causes with shutdown := true } with task := none }

/-- The attach task is between two messages. -/
def free : Bool := s.serving && s.task.isNone

/-- The state lock can be had, and shows a live attachment. -/
def operable : Bool := decide (s.link = .attached) && s.holder.isNone

/-- Decide on an offer. -/
def decideOffer (inFlight : JobId → Bool) (outstanding : Table Token Msg) (host : HostView)
    (order : ProvisionRunner) : Gate :=
  match admitJob inFlight outstanding s.draining s.reason host order with
  | .accept _ => { s with log := s.log ++ [⟨order, s.causes, s.reason⟩] }
  | _ => s

/-! ## Moves -/

inductive Move where
  | offer (inFlight : JobId → Bool) (outstanding : Table Token Msg) (host : HostView)
      (order : ProvisionRunner)
  | gatewayDrain
  | taskStep
  | stopServing
  | abort
  | operatorDrain
  | resume
  | attach
  | lockStep
  | leave
  | left
  /-- The handover. -/
  | request (reason : Reason)
  | updateBecameMoot
  | terminate
  | mirror
  | commit

def next : Move → Gate
  | .offer inFlight outstanding host order =>
    if s.free then s.decideOffer inFlight outstanding host order else s
  | .gatewayDrain => if s.free then { s with task := some .close } else s
  | .taskStep => s.taskStep
  | .stopServing =>
    if s.free && (decide (s.link = .leaving) || s.cancelled) then
      { s with serving := false, task := some .stop }
    else s
  | .abort =>
    if s.free && decide (s.link = .leaving) then { s with serving := false } else s
  | .operatorDrain => if s.operable then { s with holder := some .close } else s
  | .resume => if s.operable then { s with holder := some .reopen } else s
  | .attach =>
    if decide (s.link = .absent) && s.holder.isNone then { s with holder := some .clear } else s
  | .lockStep => s.lockStep
  | .leave => if s.operable then { s with link := .leaving } else s
  | .left =>
    if decide (s.link = .leaving) && !s.serving && s.task.isNone then { s with link := .absent }
    else s
  | .request reason => { s with reason := s.reason.escalate reason, late := s.late + 1 }
  | .updateBecameMoot =>
    if s.reason = .update then { s with reason := .none, late := s.late + 1 } else s
  | .terminate => { s with reason := .terminating, late := s.late + 1 }
  | .mirror =>
    if s.late = 0 then s else { s.refreshDraining with late := s.late - 1 }
  | .commit => { s with cancelled := true }

/-! ## The invariant -/

/-- No operation is in progress. -/
def Settled : Prop := s.holder = none ∧ s.task = none ∧ s.late = 0

/-- The process-wide flag is about to be written. -/
@[grind] def Marking : Prop :=
  s.task = some .mark ∨ (∃ draining, s.holder = some (.mark draining)) ∨
    s.holder = some .announce ∨ s.holder = some .spawn

/-- The published flag is about to be written. -/
@[grind] def Publishing : Prop :=
  s.task = some .publish ∨ s.holder = some .publish ∨ s.holder = some .announce ∨ s.late ≠ 0

structure Sound (s : Gate) : Prop where
  absent : s.link = .absent → s.serving = false ∧ s.task = none
  attaching : ∀ h, s.holder = some h → h = .clear ∨ h = .announce ∨ h = .spawn →
    s.link = .absent
  cleared : s.holder = some .announce ∨ s.holder = some .spawn → s.operatorDraining = false
  stopping : s.task = some .stop → s.serving = false
  running : s.serving = true → s.causes.shutdown = false
  accepting : s.serving = true → s.draining = false → s.causes = {}
  pushed : s.task = some .mark ∨ s.task = some .publish → s.causes.gateway = true
  closing : s.holder = some (.mark true) → s.causes.operator = true
  reopening : s.holder = some .reopen ∨ s.holder = some (.mark false) →
    s.causes.gateway = false ∧ s.task ≠ some .close
  reopened : s.holder = some (.mark false) → s.causes.operator = false
  marked : ¬ s.Marking → s.operatorDraining = s.causes.drained
  published : ¬ s.Publishing → s.published = (s.operatorDraining || s.reason.pending)
  admitted : ∀ a ∈ s.log, a.causes = {} ∧ a.reason.pending = false

theorem sound_fresh : Sound fresh where
  absent := fun _ => ⟨rfl, rfl⟩
  attaching := nofun
  cleared := by rintro (h | h) <;> cases h
  stopping := nofun
  running := nofun
  accepting := nofun
  pushed := by rintro (h | h) <;> cases h
  closing := nofun
  reopening := by rintro (h | h) <;> cases h
  reopened := nofun
  marked := fun _ => rfl
  published := fun _ => rfl
  admitted := fun _ h => absurd h List.not_mem_nil

/-- What the code leaves to the others: a resume is not started while a drain of the gateway is in
force or being recorded, and no drain of the gateway is started while a resume is lifting one. -/
def allowed : Move → Bool
  | .resume => !s.operable || (!s.causes.gateway && decide (s.task ≠ some .close))
  | .gatewayDrain =>
    !s.free || (decide (s.holder ≠ some .reopen) && decide (s.holder ≠ some (.mark false)))
  | _ => true

variable {s : Gate}

/-! ## Under the state lock -/

variable {draining : Bool}

section

variable (h : Sound s)

include h

/-- A drain of the operator, up to the process-wide flag. -/
theorem sound_close (hholder : s.holder = some .close) :
    Sound
      { s.stopAccepting { s.causes with operator := true } with holder := some (.mark true) } := by
  cases h
  constructor <;> grind

/-- A resume has nothing but the operator's drain to lift: the gateway has none in force and the
attach task still serves. -/
theorem sound_reopen (hholder : s.holder = some .reopen) :
    Sound
      { s with
        draining := false
        causes := { s.causes with operator := false }
        holder := some (.mark false) } := by
  obtain ⟨hgateway, -⟩ := h.reopening (.inl hholder)
  have hopen : s.serving = true → ({ s.causes with operator := false } : Causes) = {} := by
    intro hserving
    dsimp only
    rw [hgateway, h.running hserving]
  cases h
  constructor <;> grind

/-- What is written to the process-wide flag is whether a drain is in force. -/
theorem Sound.mark_eq_drained (hholder : s.holder = some (.mark draining)) :
    draining = s.causes.drained := by
  unfold Causes.drained
  cases draining with
  | true => rw [h.closing hholder, Bool.or_true]
  | false => rw [(h.reopening (.inr hholder)).1, h.reopened hholder, Bool.or_false]

theorem sound_mark (hholder : s.holder = some (.mark draining)) :
    Sound { s with operatorDraining := draining, holder := some .publish } := by
  have hdrained := h.mark_eq_drained hholder
  cases h
  constructor <;> grind

theorem sound_publish (hholder : s.holder = some .publish) :
    Sound { s.refreshDraining with holder := none } := by
  cases h
  constructor <;> grind

theorem sound_clear (hholder : s.holder = some .clear) :
    Sound { s with operatorDraining := false, holder := some .announce } := by
  cases h
  constructor <;> grind

theorem sound_announce (hholder : s.holder = some .announce) :
    Sound { s.refreshDraining with holder := some .spawn } := by
  cases h
  constructor <;> grind

/-- A new attachment starts accepting. -/
theorem sound_spawn (hholder : s.holder = some .spawn) :
    Sound
      { s with
        draining := false
        causes := {}
        link := .attached
        serving := true
        holder := none } := by
  have habsent := h.attaching .spawn hholder (.inr (.inr rfl))
  obtain ⟨-, htask⟩ := h.absent habsent
  have hcleared := h.cleared (.inr hholder)
  cases h
  constructor <;> grind

theorem sound_lockStep : Sound s.lockStep := by
  unfold lockStep
  cases hholder : s.holder with
  | none => exact h
  | some held =>
    cases held with
    | close => exact sound_close h hholder
    | reopen => exact sound_reopen h hholder
    | mark draining => exact sound_mark h hholder
    | publish => exact sound_publish h hholder
    | clear => exact sound_clear h hholder
    | announce => exact sound_announce h hholder
    | spawn => exact sound_spawn h hholder

/-! ## The attach task -/

/-- A drain of the gateway overtakes no resume. -/
theorem sound_push_close (htask : s.task = some .close) :
    Sound
      { s.stopAccepting { s.causes with gateway := true } with task := some .mark } := by
  have hno : s.holder ≠ some .reopen ∧ s.holder ≠ some (.mark false) :=
    ⟨fun hheld => (h.reopening (.inl hheld)).2 htask,
      fun hheld => (h.reopening (.inr hheld)).2 htask⟩
  cases h
  constructor <;> grind

theorem sound_push_mark (htask : s.task = some .mark) :
    Sound { s with operatorDraining := true, task := some .publish } := by
  have hgateway := h.pushed (.inl htask)
  have hpresent : s.link ≠ .absent := by
    intro habsent
    rw [(h.absent habsent).2] at htask
    cases htask
  cases h
  constructor <;> grind

theorem sound_push_publish (htask : s.task = some .publish) :
    Sound { s.refreshDraining with task := none } := by
  cases h
  constructor <;> grind

theorem sound_push_stop (htask : s.task = some .stop) :
    Sound { s.stopAccepting { s.causes with shutdown := true } with task := none } := by
  have hserving := h.stopping htask
  cases h
  constructor <;> grind

theorem sound_taskStep : Sound s.taskStep := by
  unfold taskStep
  cases htask : s.task with
  | none => exact h
  | some pushed =>
    cases pushed with
    | close => exact sound_push_close h htask
    | mark => exact sound_push_mark h htask
    | publish => exact sound_push_publish h htask
    | stop => exact sound_push_stop h htask

end

theorem free_iff : s.free = true ↔ s.serving = true ∧ s.task = none := by
  unfold free
  rw [Bool.and_eq_true, Option.isNone_iff_eq_none]

theorem operable_iff : s.operable = true ↔ s.link = .attached ∧ s.holder = none := by
  unfold operable
  rw [Bool.and_eq_true, Option.isNone_iff_eq_none, decide_eq_true_iff]

theorem admit_accept {inFlight : JobId → Bool} {outstanding : Table Token Msg} {reason : Reason}
    {host : HostView} {order : ProvisionRunner} {backend : Backend}
    (h : admitJob inFlight outstanding draining reason host order = .accept backend) :
    draining = false ∧ reason.pending = false := by
  unfold admitJob at h
  split at h
  · cases h
  split at h
  · cases h
  split at h
  · cases h
  next hopen =>
    exact Bool.or_eq_false_iff.mp (Bool.eq_false_iff.mpr hopen)

theorem sound_offer (h : Sound s) (hfree : s.free = true) (inFlight : JobId → Bool)
    (outstanding : Table Token Msg) (host : HostView) (order : ProvisionRunner) :
    Sound (s.decideOffer inFlight outstanding host order) := by
  unfold decideOffer
  split
  next backend hadmit =>
    obtain ⟨hdraining, hreason⟩ := admit_accept hadmit
    have hcauses := h.accepting (free_iff.mp hfree).1 hdraining
    refine { h with admitted := fun a ha => ?_ }
    rcases List.mem_append.mp ha with ha | ha
    · exact h.admitted a ha
    · cases List.mem_singleton.mp ha
      exact ⟨hcauses, hreason⟩
  · exact h

/-! ## Whole runs -/

theorem sound_gatewayDrain (h : Sound s) (hallowed : s.allowed .gatewayDrain = true) :
    Sound (s.next .gatewayDrain) := by
  unfold next
  dsimp only
  split
  next hfree =>
    obtain ⟨hserving, htask⟩ := free_iff.mp hfree
    unfold allowed at hallowed
    cases h
    constructor <;> grind
  · exact h

theorem sound_stopServing (h : Sound s) : Sound (s.next .stopServing) := by
  unfold next
  dsimp only
  split
  next hcond =>
    obtain ⟨hserving, htask⟩ := free_iff.mp (Bool.and_eq_true_iff.mp hcond).1
    cases h
    constructor <;> grind
  · exact h

theorem sound_operatorDrain (h : Sound s) : Sound (s.next .operatorDrain) := by
  unfold next
  dsimp only
  split
  next hoperable =>
    obtain ⟨hlink, hholder⟩ := operable_iff.mp hoperable
    cases h
    constructor <;> grind
  · exact h

theorem sound_resume (h : Sound s) (hallowed : s.allowed .resume = true) :
    Sound (s.next .resume) := by
  unfold next
  dsimp only
  split
  next hoperable =>
    obtain ⟨hlink, hholder⟩ := operable_iff.mp hoperable
    unfold allowed at hallowed
    cases h
    constructor <;> grind
  · exact h

theorem sound_attach (h : Sound s) : Sound (s.next .attach) := by
  unfold next
  dsimp only
  split
  · cases h
    constructor <;> grind
  · exact h

theorem sound_next (h : Sound s) (m : Move) (hallowed : s.allowed m = true) : Sound (s.next m) := by
  cases m with
  | offer inFlight outstanding host order =>
    unfold next
    dsimp only
    split
    · exact sound_offer h ‹_› inFlight outstanding host order
    · exact h
  | gatewayDrain => exact sound_gatewayDrain h hallowed
  | taskStep => exact sound_taskStep h
  | stopServing => exact sound_stopServing h
  | abort =>
    unfold next
    dsimp only
    split
    · exact
        { h with
          absent := fun hlink => ⟨rfl, (h.absent hlink).2⟩
          stopping := fun _ => rfl
          running := nofun
          accepting := nofun }
    · exact h
  | operatorDrain => exact sound_operatorDrain h
  | resume => exact sound_resume h hallowed
  | attach => exact sound_attach h
  | lockStep => exact sound_lockStep h
  | leave =>
    unfold next
    dsimp only
    split
    next hoperable =>
      obtain ⟨-, hholder⟩ := operable_iff.mp hoperable
      refine { h with absent := nofun, attaching := fun held hheld => ?_ }
      rw [hholder] at hheld
      cases hheld
    · exact h
  | left =>
    unfold next
    dsimp only
    split
    next hcond =>
      obtain ⟨hleft, htask⟩ := Bool.and_eq_true_iff.mp hcond
      obtain ⟨-, hserving⟩ := Bool.and_eq_true_iff.mp hleft
      exact
        { h with
          absent := fun _ => ⟨Bool.not_eq_true' _ ▸ hserving, Option.isNone_iff_eq_none.mp htask⟩
          attaching := fun _ _ _ => rfl }
    · exact h
  | request reason =>
    exact { h with published := fun hno => absurd (.inr (.inr (.inr (Nat.succ_ne_zero _)))) hno }
  | updateBecameMoot =>
    unfold next
    dsimp only
    split
    · exact { h with published := fun hno => absurd (.inr (.inr (.inr (Nat.succ_ne_zero _)))) hno }
    · exact h
  | terminate =>
    exact { h with published := fun hno => absurd (.inr (.inr (.inr (Nat.succ_ne_zero _)))) hno }
  | mirror =>
    unfold next
    dsimp only
    split
    · exact h
    · exact { h with published := fun _ => rfl }
  | commit => exact { h with }

/-- In every run in which the operator does not resume against a drain of the gateway: a fresh
job is admitted only while nothing closes admission, and with no operation in progress the
published flag says whether a drain is in force or a handover pending. -/
theorem admission_stays_closed (moves : List Move)
    (hallowed : Throughout next fresh (fun s m => s.allowed m = true) moves) :
    (∀ a ∈ (after next fresh moves).log, a.causes = {} ∧ a.reason.pending = false) ∧
    (Settled (after next fresh moves) → (after next fresh moves).published =
      ((after next fresh moves).causes.drained || (after next fresh moves).reason.pending)) := by
  have h : Sound (after next fresh moves) :=
    keeps (fun s m hs hm => sound_next hs m hm) sound_fresh hallowed
  refine ⟨h.admitted, fun ⟨hholder, htask, hlate⟩ => ?_⟩
  have hmarked : ¬ Marking (after next fresh moves) := by
    unfold Marking
    rw [hholder, htask]
    rintro (heq | ⟨_, heq⟩ | heq | heq) <;> cases heq
  have hpublished : ¬ Publishing (after next fresh moves) := by
    unfold Publishing
    rw [hholder, htask, hlate]
    rintro (heq | heq | heq | hne)
    · cases heq
    · cases heq
    · cases heq
    · exact hne rfl
  rw [h.published hpublished, h.marked hmarked]

instance decidableSettled (s : Gate) : Decidable (Settled s) :=
  inferInstanceAs (Decidable (s.holder = none ∧ s.task = none ∧ s.late = 0))

/-- The moves of an operation under the state lock, and of a drain of the gateway. -/
def locked (m : Move) : List Move := m :: List.replicate 3 .lockStep

def pushedDrain : List Move := .gatewayDrain :: List.replicate 3 .taskStep

/-- An offer that a host with room for it decides on. -/
def offered (job : JobId) : Move := .offer (fun _ => false) ∅ .roomy ⟨job, "linux", "x86_64", job⟩

def drainedTwice : List Move :=
  locked .attach ++ [offered "J"] ++ locked .operatorDrain ++ [offered "K"] ++ locked .resume ++
    pushedDrain ++ [offered "L"]

theorem admission_stays_closed_drained :
    (after next fresh drainedTwice).log.map (·.order.jobId) = ["J"] ∧
    (after next fresh drainedTwice).published = true ∧
    ∀ a ∈ (after next fresh drainedTwice).log, a.causes = {} ∧ a.reason.pending = false :=
  ⟨by decide +kernel, by decide +kernel,
    (admission_stays_closed drainedTwice (by decide +kernel)).1⟩

/-- The operator's resume reopens a host that the gateway has drained, and a resume that a drain
of the gateway comes in between leaves the drained host published as accepting. -/
theorem resume_lifts_gateway_drain :
    (∃ a ∈ (after next fresh (locked .attach ++ pushedDrain ++ locked .resume ++
      [offered "J"])).log, a.causes.gateway = true) ∧
    Settled (after next fresh (locked .attach ++ [.resume, .lockStep] ++ pushedDrain ++
      [.lockStep, .lockStep])) ∧
    (after next fresh (locked .attach ++ [.resume, .lockStep] ++ pushedDrain ++
      [.lockStep, .lockStep])).draining = true ∧
    (after next fresh (locked .attach ++ [.resume, .lockStep] ++ pushedDrain ++
      [.lockStep, .lockStep])).published = false := by
  decide +kernel

end Gate

end Arcbox.Runner

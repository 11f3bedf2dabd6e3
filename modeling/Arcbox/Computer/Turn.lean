import Mathlib.Tactic.Spread
import Arcbox.Computer.Actor

set_option autoImplicit false

/-!
# Computer: what one event does to the actor

The effects of a transition are run one after another until one of them stalls or is
refused.  Here each effect is described once, by what it does to the sub-task in flight,
to the parked callers and to the queue of events; a drain of effects is described from
that, and the invariants of later modules only use the description.
-/

namespace Arcbox.Computer.Lifecycle

open List Effect

/-! ## Kinds of sub-tasks -/

inductive Kind where
  | boot
  | gate
  | restore
  | checkpoint
  | resume
  | stop
  | release (scope : ReleaseScope)
  deriving DecidableEq, Repr

def Task.kind : Task → Kind
  | .boot _ => .boot
  | .gate => .gate
  | .restore _ => .restore
  | .checkpoint _ _ => .checkpoint
  | .resume => .resume
  | .stop _ _ => .stop
  | .release scope => .release scope

namespace Effect

/-- The kind of sub-task that an effect spawns. -/
def kind : Effect → Option Kind
  | spawnBoot _ => some .boot
  | spawnRestore _ => some .restore
  | spawnGate => some .gate
  | spawnCheckpoint _ => some .checkpoint
  | spawnResume => some .resume
  | spawnStop _ _ => some .stop
  | spawnRelease scope => some (.release scope)
  | _ => none

/-- The durable writes that stop a drain when they are refused. -/
def refusable : Effect → Bool
  | persistPhase _ durability => durability != .gateJournal
  | commitRestored _ => true
  | _ => false

/-- The effects that neither stall nor are refused, nor ask for an event. -/
def plain : Effect → Bool
  | persistPhase _ _ | commitRestored _ | forgetRecord _ | detach | abortInflight => false
  | _ => true

end Effect

/-- The sub-task in flight after the effects, by its kind. -/
def kindAfter : List Effect → Option Kind → Option Kind
  | [], kind => kind
  | effect :: rest, kind => kindAfter rest (effect.kind.or kind)

namespace Actor

def kind (a : Actor) : Option Kind := a.work.inflight.map (·.task.kind)

theorem isSome_kind {a : Actor} : a.kind.isSome = a.work.inflight.isSome := Option.isSome_map

/-! ## What the parts keep -/

/-- Every completion that is still to come carries an older epoch, or is the one of the
sub-task in flight. -/
structure Current (work : Work) : Prop where
  older : ∀ t ∈ work.live, t.1 ≤ work.epoch
  current : ∀ t ∈ work.live, t.1 = work.epoch → work.inflight.map (·.task) = some t.2

/-- The effects ran to their end. -/
structure Settled (effects : List Effect) (a a' : Actor) : Prop where
  state : a'.state = a.state
  queued : a'.queued = a.queued
  exited : a'.exited = a.exited
  kind : a'.kind = kindAfter effects a.kind
  stalled : a'.work.stalled = a.work.stalled
  retry : a'.work.retry = a.work.retry
  stalledOn : a'.work.stalledOn = a.work.stalledOn
  current : Current a.work → Current a'.work
  log : a.log <+: a'.log

variable (w : World) (a : Actor) {b c : Actor} {e : Effect} (state : State)

theorem Settled.refl : Settled [] a a where
  state := rfl
  queued := rfl
  exited := rfl
  kind := rfl
  stalled := rfl
  retry := rfl
  stalledOn := rfl
  current h := h
  log := prefix_rfl

theorem kindAfter_append (xs ys : List Effect) (k : Option Kind) :
    kindAfter (xs ++ ys) k = kindAfter ys (kindAfter xs k) := by
  induction xs generalizing k with
  | nil => rfl
  | cons x xs ih => exact ih _

variable {es : List Effect}

theorem Settled.append {xs ys : List Effect} {a : Actor} (h : Settled xs a b)
    (h' : Settled ys b c) : Settled (xs ++ ys) a c where
  state := h'.state.trans h.state
  queued := h'.queued.trans h.queued
  exited := h'.exited.trans h.exited
  kind := by rw [h'.kind, h.kind, kindAfter_append]
  stalled := h'.stalled.trans h.stalled
  retry := h'.retry.trans h.retry
  stalledOn := h'.stalledOn.trans h.stalledOn
  current hc := h'.current (h.current hc)
  log := h.log.trans h'.log

/-- Nothing that the drain is about changed. -/
structure Kept (a a' : Actor) : Prop where
  state : a'.state = a.state
  queued : a'.queued = a.queued
  exited : a'.exited = a.exited
  work : a'.work = a.work
  log : a.log <+: a'.log

variable {a' : Actor}

theorem Kept.refl : Kept a a := ⟨rfl, rfl, rfl, rfl, prefix_rfl⟩

theorem Kept.trans {a : Actor} (h : Kept a b) (h' : Kept b c) : Kept a c where
  state := h'.state.trans h.state
  queued := h'.queued.trans h.queued
  exited := h'.exited.trans h.exited
  work := h'.work.trans h.work
  log := h.log.trans h'.log

theorem Kept.settled {a : Actor} (h : Kept a a') (hk : e.kind = none) :
    Settled [e] a a' where
  __ := h
  kind := by
    unfold Actor.kind
    rw [h.work, kindAfter, hk]
    rfl
  stalled := by rw [h.work]
  retry := by rw [h.work]
  stalledOn := by rw [h.work]
  current hc := by rw [h.work]; exact hc

/-! ## Plain effects -/

theorem kept_note (n : Note) : Kept a (a.note n) := ⟨rfl, rfl, rfl, rfl, prefix_append _ _⟩

theorem kept_arm (timer : Timer) (state : State) : Kept a (a.arm w timer state) := by
  unfold arm
  split
  · exact .refl a
  · cases timer <;> exact ⟨rfl, rfl, rfl, rfl, prefix_rfl⟩

theorem kept_clearJournal : Kept a a.clearJournal := by
  unfold clearJournal
  split
  · exact ⟨rfl, rfl, rfl, rfl, prefix_rfl⟩
  · exact kept_note a _

theorem kept_answerEffect (kind : Answer) : Kept a (a.answerEffect kind) := by
  unfold answerEffect
  split
  · exact ⟨rfl, rfl, rfl, rfl, (prefix_append _ _).trans (prefix_append _ _)⟩
  · exact ⟨rfl, rfl, rfl, rfl, prefix_append _ _⟩

theorem abandonCapture_eq :
    ∃ log, a.log <+: log ∧
      a.abandonCapture = { a with desk.captureReply := none, log := log } := by
  unfold abandonCapture
  split
  next h =>
    refine ⟨a.log, prefix_rfl, ?_⟩
    rw [← h]
  · exact ⟨_, prefix_append _ _, rfl⟩

theorem Current.spawn {work : Work} (h : Current work) (task : Task) (handoff : Handoff) :
    Current { work with
      inflight := some ⟨task, handoff⟩, epoch := work.epoch + 1
      live := work.live ++ [(work.epoch + 1, task)] } := by
  refine ⟨forall_mem_append.mpr ⟨?_, forall_mem_singleton.mpr (Nat.le_refl _)⟩,
    forall_mem_append.mpr ⟨?_, forall_mem_singleton.mpr fun _ => rfl⟩⟩
  · exact fun t ht => Nat.le_succ_of_le (h.older t ht)
  · exact fun t ht heq => absurd heq (Nat.ne_of_lt (Nat.lt_succ_of_le (h.older t ht)))

theorem settled_spawn (task : Task) (handoff : Handoff) (hk : e.kind = some task.kind) :
    Settled [e] a (a.spawn task handoff) := by
  have hkind (k : Option Kind) : some task.kind = kindAfter [e] k := by rw [kindAfter, hk]; rfl
  unfold spawn
  split
  · exact
      { state := rfl, queued := rfl, exited := rfl, kind := hkind _, stalled := rfl
        retry := rfl, stalledOn := rfl, current := fun h => h.spawn task handoff
        log := prefix_append _ _ }
  rename_i previous hsome
  obtain ⟨log, hlog, hab⟩ := abandonCapture_eq (a.note (.aborted previous.handoff))
  rw [hab]
  exact
    { state := rfl, queued := rfl, exited := rfl, kind := hkind _, stalled := rfl
      retry := rfl, stalledOn := rfl, current := fun h => h.spawn task handoff
      log := ((prefix_append _ _).trans hlog).trans (prefix_append _ _) }

/-- A plain effect runs to its end. -/
theorem settled_plain (state : State) (he : e.plain) :
    (a.apply w state e).2 = .proceed ∧ Settled [e] a (a.apply w state e).1 := by
  cases e with
  | persistPhase | commitRestored | forgetRecord | detach | abortInflight => cases he
  | spawnBoot | spawnRestore | spawnGate | spawnResume | spawnStop | spawnRelease =>
    exact ⟨rfl, settled_spawn a _ _ rfl⟩
  | spawnCheckpoint hold =>
    have hspawn := settled_spawn { a with details.capture := none }
      (.checkpoint hold a.details.capture) .abortable (e := .spawnCheckpoint hold) rfl
    exact ⟨rfl, { hspawn with }⟩
  | publish notify => exact ⟨rfl, (kept_note a _).settled rfl⟩
  | armTimer timer => exact ⟨rfl, (kept_arm w a timer state).settled rfl⟩
  | cancelTimer timer =>
    have hkept (timers : Timers) : Kept a { a with timers := timers } :=
      ⟨rfl, rfl, rfl, rfl, prefix_rfl⟩
    cases timer <;> exact ⟨rfl, (hkept _).settled rfl⟩
  | answer kind => exact ⟨rfl, (kept_answerEffect a kind).settled rfl⟩
  | clearJournal =>
    refine ⟨rfl, Kept.settled ?_ rfl⟩
    change Kept a (if a.work.inflight.isSome then _ else _)
    split
    · exact ⟨rfl, rfl, rfl, rfl, prefix_rfl⟩
    · exact kept_clearJournal a

theorem settled_runEffects (hes : ∀ e ∈ es, e.plain) (a : Actor) :
    Settled es a (runEffects w state es a) := by
  induction es generalizing a with
  | nil => exact .refl a
  | cons e es ih =>
    obtain ⟨hflow, hsettled⟩ := settled_plain w a state (hes e mem_cons_self)
    have hrest := ih (forall_mem_cons.mp hes).2 (a.apply w state e).1
    have hrun : runEffects w state (e :: es) a
        = runEffects w state es (a.apply w state e).1 := by
      generalize hr : a.apply w state e = r at hflow
      obtain ⟨a', flow⟩ := r
      simp only [runEffects, hr]
      cases hflow
      rfl
    rw [hrun]
    exact hsettled.append hrest

/-! ## Durable writes -/

/-- A durable write was refused: a failure is queued. -/
structure Refused (a a' : Actor) : Prop where
  state : a'.state = a.state
  queued : a'.queued = a.queued ++ [.failure]
  exited : a'.exited = a.exited
  work : a'.work = a.work
  log : a.log <+: a'.log

theorem Kept.refused {a : Actor} (h : Kept a b) (h' : Refused b c) : Refused a c where
  state := h'.state.trans h.state
  queued := by rw [h'.queued, h.queued]
  exited := h'.exited.trans h.exited
  work := h'.work.trans h.work
  log := h.log.trans h'.log

theorem refused_failWrite (detail : String) :
    (a.failWrite detail).2 = .refused ∧ Refused a (a.failWrite detail).1 := by
  refine ⟨rfl, ?_⟩
  unfold failWrite
  dsimp only
  split <;> exact ⟨rfl, rfl, rfl, rfl, prefix_append _ _⟩

theorem kept_write (generation : Uuid) (tr : ComputerTransition) :
    Kept a (a.write w generation tr).2 := ⟨rfl, rfl, rfl, rfl, prefix_append _ _⟩

/-- The write's note is the last of the log. -/
theorem log_write (generation : Uuid) (tr : ComputerTransition) :
    (a.write w generation tr).2.log
      = a.log ++ [.wrote tr.phase (.of (a.write w generation tr).1)] := rfl

variable (a : Actor) (phase : PersistPhase)

theorem commitWarn_cases (tr : ComputerTransition) :
    ((a.commitWarn w phase tr).2 = .proceed ∧ Kept a (a.commitWarn w phase tr).1) ∨
      ((a.commitWarn w phase tr).2 = .refused ∧ Refused a (a.commitWarn w phase tr).1) := by
  unfold commitWarn
  split
  · exact .inl ⟨rfl, .refl a⟩
  rename_i generation _
  have hkept := kept_write w a generation tr
  split
  next error a' hwrite =>
    rw [hwrite] at hkept
    obtain ⟨hflow, hrefused⟩ := refused_failWrite a' (refusedText phase error)
    exact .inr ⟨hflow, hkept.refused hrefused⟩
  next a' hwrite =>
    rw [hwrite] at hkept
    exact .inl ⟨rfl, hkept⟩

theorem commit_cases (tr : ComputerTransition) (durability : Durability) :
    ((a.commit w phase tr durability).2 = .proceed ∧
        Kept a (a.commit w phase tr durability).1) ∨
      ((a.commit w phase tr durability).2 = .refused ∧ durability ≠ .gateJournal ∧
        Refused a (a.commit w phase tr durability).1 ∧
        (durability = .warn →
          a.log ++ [.wrote tr.phase .refused] <+: (a.commit w phase tr durability).1.log)) := by
  unfold commit
  split
  · exact .inl ⟨rfl, .refl a⟩
  rename_i generation _
  have hkept := kept_write w a generation tr
  have hlog := log_write w a generation tr
  split
  next error a' hwrite =>
    rw [hwrite] at hkept hlog
    split
    · exact .inl ⟨rfl, hkept.trans ⟨rfl, rfl, rfl, rfl, prefix_rfl⟩⟩
    next hgate =>
      obtain ⟨hflow, hrefused⟩ := refused_failWrite a' (refusedText phase error)
      exact .inr ⟨hflow, hgate, hkept.refused hrefused, fun _ => hlog ▸ hrefused.log⟩
  rename_i commit a' hwrite
  rw [hwrite] at hkept
  split
  · exact .inl ⟨rfl, hkept⟩
  rename_i error _
  cases durability with
  | warn => exact .inl ⟨rfl, hkept⟩
  | gateJournal => exact .inl ⟨rfl, hkept.trans ⟨rfl, rfl, rfl, rfl, prefix_rfl⟩⟩
  | report unconfirmed =>
    have hfail := refused_failWrite a' (unconfirmedText error)
    cases unconfirmed with
    | ack => exact .inl ⟨rfl, hkept.trans ⟨rfl, rfl, rfl, rfl, prefix_rfl⟩⟩
    | unavailable =>
      exact .inr ⟨hfail.1, Durability.noConfusion, hkept.refused hfail.2,
        nofun⟩
    | revertToPaused =>
      dsimp only
      have hwarn := commitWarn_cases w a' .paused a'.pausedTransition
      split
      next a₂ heq =>
        rw [heq] at hwarn
        rcases hwarn with ⟨hflow, -⟩ | ⟨-, hrefused⟩
        · cases hflow
        · exact .inr ⟨rfl, Durability.noConfusion, hkept.refused hrefused,
            nofun⟩
      rename_i a₂ flow hne heq
      rw [heq] at hwarn
      rcases hwarn with ⟨-, hkept'⟩ | ⟨hflow, -⟩
      · obtain ⟨hflow, hrefused⟩ := refused_failWrite a₂ (unconfirmedText error)
        exact .inr ⟨hflow, Durability.noConfusion,
          hkept.refused (hkept'.refused hrefused), nofun⟩
      · exact absurd hflow hne

/-! ## Preempting the sub-task in flight -/

theorem Current.bump {work : Work} (h : Current work) (inflight : Option Preemptible)
    (backoff : Nat) :
    Current { work with
      inflight := inflight, epoch := work.epoch + 1, retryBackoff := backoff } := by
  refine ⟨fun t ht => Nat.le_succ_of_le (h.older t ht), fun t ht heq => ?_⟩
  exact absurd heq (Nat.ne_of_lt (Nat.lt_succ_of_le (h.older t ht)))

/-- The sub-task was joined, or there was none. -/
structure Ended (a a' : Actor) : Prop where
  state : a'.state = a.state
  queued : a'.queued = a.queued
  exited : a'.exited = a.exited
  inflight : a'.work.inflight = none
  stalled : a'.work.stalled = a.work.stalled
  retry : a'.work.retry = a.work.retry
  stalledOn : a'.work.stalledOn = a.work.stalledOn
  current : Current a.work → Current a'.work
  log : a.log <+: a'.log

/-- The sub-task would not end: it is in flight still, and a retry is scheduled. -/
structure Waiting (a a' : Actor) : Prop where
  state : a'.state = a.state
  queued : a'.queued = a.queued
  retry : a'.work.retry.isSome
  stalledOn : a'.work.stalledOn = .handoff
  current : Current a.work → Current a'.work
  log : a.log <+: a'.log

/-- The sub-task panicked: nothing retries. -/
structure Panicked (a a' : Actor) : Prop where
  state : a'.state = a.state
  queued : a'.queued = a.queued
  inflight : a'.work.inflight = none
  stalledOn : a'.work.stalledOn = a.work.stalledOn
  current : Current a.work → Current a'.work
  noted : ∃ log, a.log <+: log ∧ log ++ [.panicked] <+: a'.log

/-- How a preemption ends. -/
inductive Preempts (w : World) (a : Actor) : Actor × Flow → Prop
  | ended (a' : Actor) (h : Ended a a') : Preempts w a (a', .proceed)
  | waiting (a' : Actor) (h : Waiting a a') : Preempts w a (a', .stalled)
  | panicked (a' : Actor) (h : Panicked a a') : Preempts w a (a', .stalled)

theorem waiting_stall {a : Actor} {task task' : Preemptible}
    (htask : a.work.inflight = some task) (hsame : task'.task = task.task) {log : List Note}
    (hlog : a.log <+: log) :
    Waiting a (({ a with work.inflight := none, log := log } : Actor).stall task').1 where
  state := rfl
  queued := rfl
  retry := rfl
  stalledOn := rfl
  current := by
    intro h
    refine ⟨h.older, fun t ht heq => ?_⟩
    have hcur := h.current t ht heq
    rw [htask] at hcur
    exact (congrArg some hsame).trans hcur
  log := hlog

theorem preempts_joinInflight {a : Actor} {task : Preemptible}
    (htask : a.work.inflight = some task) (task' : Preemptible) (hsame : task'.task = task.task)
    {log : List Note} (hlog : a.log <+: log) :
    Preempts w a (({ a with work.inflight := none, log := log } : Actor).joinInflight w task') := by
  unfold joinInflight
  split
  · exact .waiting _ (waiting_stall htask hsame hlog)
  · refine .panicked _ ?_
    exact
      { state := rfl, queued := rfl, inflight := rfl, stalledOn := rfl
        current := fun h => h.bump none a.work.retryBackoff
        noted := ⟨log, hlog, prefix_append _ _⟩ }
  refine .ended _ ?_
  obtain ⟨log', hlog', hab⟩ := abandonCapture_eq ({ a with
    work := { a.work with
      inflight := none, epoch := a.work.epoch + 1, retryBackoff := retryInitial }
    log := log } : Actor)
  refine (congrArg (Ended a) hab).mpr ?_
  exact
    { state := rfl, queued := rfl, exited := rfl, inflight := rfl, stalled := rfl
      retry := rfl, stalledOn := rfl, current := fun h => h.bump none retryInitial
      log := hlog.trans hlog' }

theorem preempts_abortInflight : Preempts w a (a.abortInflight w) := by
  unfold abortInflight
  split
  next hnone =>
    refine .ended _ ?_
    exact
      { state := rfl, queued := rfl, exited := rfl, inflight := hnone, stalled := rfl
        retry := rfl, stalledOn := rfl
        current := fun h => h.bump a.work.inflight a.work.retryBackoff
        log := prefix_rfl }
  rename_i task htask
  split
  · split
    · exact preempts_joinInflight w htask ⟨task.task, .abortable⟩ rfl (prefix_append _ _)
    · exact preempts_joinInflight w htask ⟨task.task, .joinOnly⟩ rfl prefix_rfl
    · exact .waiting _ (waiting_stall htask rfl prefix_rfl)
  · exact preempts_joinInflight w htask task rfl (prefix_append _ _)
  · exact preempts_joinInflight w htask task rfl prefix_rfl

/-! ## Forgetting the record, and handing the VM over -/

theorem forget_cases (recordEnd : RecordEnd) :
    ((a.forget w recordEnd).2 = .proceed ∧
        Settled [.forgetRecord recordEnd] a (a.forget w recordEnd).1) ∨
      ((a.forget w recordEnd).2 = .stalled ∧ (a.forget w recordEnd).1.state = a.state) := by
  unfold forget
  split
  · exact .inl ⟨rfl, (kept_note a _).settled rfl⟩
  dsimp only
  split
  · refine .inl ⟨rfl, ?_⟩
    exact
      { state := rfl, queued := rfl, exited := rfl, kind := rfl, stalled := rfl, retry := rfl
        stalledOn := rfl, current := fun h => ⟨h.older, h.current⟩
        log := (prefix_append _ _).trans (prefix_append _ _) }
  · exact .inr ⟨rfl, rfl⟩

/-- The VM is handed over, or the callers of the handover heard that it was not. -/
theorem handOver_cases :
    a.handOver w = { a with queued := a.queued ++ [.detached] } ∨ Kept a (a.handOver w) := by
  unfold handOver
  split
  · exact .inl rfl
  · exact .inr ⟨rfl, rfl, rfl, rfl, prefix_append _ _⟩
  · exact .inr ⟨rfl, rfl, rfl, rfl, prefix_append _ _⟩

/-! ## Drains -/

/-- How the effects of a move run, in the state that the machine moved to. -/
inductive Ran (w : World) (state : State) (a : Actor) : List Effect → Actor → Prop
  | settled (es : List Effect) (a' : Actor) (h : Settled es a a') : Ran w state a es a'
  | refused (e : Effect) (es : List Effect) (a' : Actor) (he : e.refusable)
      (h : Refused a a') : Ran w state a (e :: es) a'
  | notRemoving (a₁ a' : Actor) (h₁ : Ended a a₁) (h : Refused a₁ a')
      (hnote : a₁.log ++ [.wrote .removing .refused] <+: a'.log) : Ran w state a Effects.removal a'
  | waiting (a₁ : Actor) (h : Waiting a a₁) :
      Ran w state a Effects.removal (a₁.parkStalled state Effects.removal.tail)
  | panicked (a₁ : Actor) (h : Panicked a a₁) :
      Ran w state a Effects.removal (a₁.parkStalled state Effects.removal.tail)
  | undeleted (recordEnd : RecordEnd) (es : List Effect) (a₁ : Actor)
      (h : a₁.state = a.state) :
      Ran w state a (.forgetRecord recordEnd :: es) (a₁.parkStalled state es)
  | handedOver : Ran w state a [.detach] { a with queued := a.queued ++ [.detached] }

theorem ran_write
    (hwrite : ∃ phase tr durability, a.apply w state e = a.commit w phase tr durability ∧
      (durability ≠ .gateJournal → e.refusable))
    (hk : e.kind = none) (hes : ∀ e ∈ es, e.plain) :
    Ran w state a (e :: es) (runEffects w state (e :: es) a) := by
  obtain ⟨phase, tr, durability, happly, hgate⟩ := hwrite
  unfold runEffects
  rw [happly]
  have hcases := commit_cases w a phase tr durability
  generalize a.commit w phase tr durability = r at hcases
  obtain ⟨a', flow⟩ := r
  rcases hcases with ⟨hflow, hkept⟩ | ⟨hflow, hne, hrefused, -⟩ <;> cases hflow
  · have hrest := settled_runEffects w state hes a'
    exact .settled _ _ ((hkept.settled hk).append hrest)
  · exact .refused e es a' (hgate hne) hrefused

theorem ran_persist (durability : Durability) (hphase : phase ≠ .creating)
    (hes : ∀ e ∈ es, e.plain) : Ran w state a (.persistPhase phase durability :: es)
      (runEffects w state (.persistPhase phase durability :: es) a) := by
  refine ran_write w state a ?_ rfl hes
  have hgate : durability ≠ .gateJournal → (persistPhase phase durability).refusable := by
    intro h
    simpa [refusable] using h
  cases phase with
  | creating => exact absurd rfl hphase
  | _ => exact ⟨_, _, durability, rfl, hgate⟩

/-- The drain after one effect. -/
def drained (w : World) (state : State) (rest : List Effect) : Actor × Flow → Actor
  | (a, .proceed) => runEffects w state rest a
  | (a, .stalled) => a.parkStalled state rest
  | (a, .refused) => a

theorem ran_forget (recordEnd : RecordEnd) (hes : ∀ e ∈ es, e.plain) :
    Ran w state a (.forgetRecord recordEnd :: es)
      (runEffects w state (.forgetRecord recordEnd :: es) a) := by
  have hcases := forget_cases w a recordEnd
  change Ran w state a _ (drained w state es (a.forget w recordEnd))
  generalize a.forget w recordEnd = r at hcases
  obtain ⟨a', flow⟩ := r
  rcases hcases with ⟨hflow, h⟩ | ⟨hflow, h⟩ <;> cases hflow
  · exact .settled _ _ (h.append (settled_runEffects w state hes a'))
  · exact .undeleted recordEnd es a' h

theorem removal_tail : Settled Effects.removal.tail a (runEffects w state Effects.removal.tail a) ∨
      (Refused a (runEffects w state Effects.removal.tail a) ∧
        a.log ++ [.wrote .removing .refused]
          <+: (runEffects w state Effects.removal.tail a).log) := by
  have hcancel : Kept a { a with timers := { a.timers with ttl := none, idle := none } } :=
    ⟨rfl, rfl, rfl, rfl, prefix_rfl⟩
  have hrun : runEffects w state Effects.removal.tail a
      = drained w state [.spawnRelease .full]
        (({ a with timers := { a.timers with ttl := none, idle := none } } : Actor).commit w
          .removing .removing .warn) := rfl
  rw [hrun]
  have hcases := commit_cases w { a with timers := { a.timers with ttl := none, idle := none } }
    .removing .removing .warn
  generalize ({ a with timers := { a.timers with ttl := none, idle := none } } : Actor).commit w
    .removing .removing .warn = r at hcases
  obtain ⟨a', flow⟩ := r
  rcases hcases with ⟨hflow, hkept⟩ | ⟨hflow, -, hrefused, hnote⟩ <;> cases hflow
  · left
    have hplain : ∀ e ∈ [spawnRelease .full], e.plain := by simp [plain]
    have hspawn := settled_runEffects w state hplain a'
    have hhead : Settled [.cancelTimer .ttl, .cancelTimer .idle, .persistPhase .removing .warn]
        a a' :=
      ((hcancel.settled rfl).append ((Kept.refl _).settled rfl)).append (hkept.settled rfl)
    exact hhead.append hspawn
  · exact .inr ⟨hcancel.refused hrefused, hnote rfl⟩

theorem Ended.settled {a a₁ : Actor} (h : Ended a a₁) (h' : Settled es a₁ a')
    (hspawns : kindAfter es none = kindAfter es a.kind) : Settled (.abortInflight :: es) a a' where
  state := h'.state.trans h.state
  queued := h'.queued.trans h.queued
  exited := h'.exited.trans h.exited
  kind := by
    have hnone : a₁.kind = none := by
      unfold Actor.kind
      rw [h.inflight]
      rfl
    rw [h'.kind, hnone, hspawns]
    rfl
  stalled := h'.stalled.trans h.stalled
  retry := h'.retry.trans h.retry
  stalledOn := h'.stalledOn.trans h.stalledOn
  current hc := h'.current (h.current hc)
  log := h.log.trans h'.log

theorem ran_removal : Ran w state a Effects.removal (runEffects w state Effects.removal a) := by
  have hrun : runEffects w state Effects.removal a
      = drained w state Effects.removal.tail (a.abortInflight w) := rfl
  rw [hrun]
  have hpre := preempts_abortInflight w a
  generalize a.abortInflight w = r at hpre
  cases hpre with
  | ended a₁ hended =>
    rcases removal_tail w state a₁ with hsettled | ⟨hrefused, hnote⟩
    · exact .settled _ _ (hended.settled hsettled rfl)
    · exact .notRemoving a₁ _ hended hrefused hnote
  | waiting a₁ hwaiting => exact .waiting a₁ hwaiting
  | panicked a₁ hpanicked => exact .panicked a₁ hpanicked

theorem ran_detach : Ran w state a [.detach] (runEffects w state [.detach] a) := by
  change Ran w state a [.detach] (a.handOver w)
  rcases handOver_cases w a with h | h
  · rw [h]
    exact .handedOver
  · exact .settled _ _ (h.settled rfl)

theorem ran_of_moves {s s' : State} {e : Event} (hmoves : Moves s e s' es) (a : Actor) :
    Ran w s' a es (runEffects w s' es a) := by
  have hnil : Ran w s' a [] a := .settled _ _ (.refl a)
  cases hmoves with
  | stay | recovered | adopted | handedOff => exact hnil
  | removal => exact ran_removal w _ a
  | detach => exact ran_detach w _ a
  | abortProvision | removeDone => exact ran_forget w _ a _ (by simp [plain])
  | failure | boot | stop | pause | captureFailed | released | resume | resumed | resumeFailed
  | stopDone =>
    exact ran_persist w _ a _ _ (by decide) (by simp [plain])
  | restored origin =>
    refine ran_write w _ a ⟨_, _, _, rfl, fun _ => rfl⟩ rfl ?_
    cases origin <;> simp [plain]
  | gated committed claimed =>
    cases committed with
    | true =>
      refine .settled _ _ (settled_runEffects w _ ?_ a)
      cases claimed <;> simp [plain]
    | false =>
      refine ran_persist w _ a .ready _ (by decide) ?_
      cases claimed <;> simp [plain]
  | _ => exact .settled _ _ (settled_runEffects w _ (by simp [plain]) a)

theorem ran_handle (e : Event) :
    Ran w (step a.state e).1 { a with state := (step a.state e).1 } (step a.state e).2
      (a.handle w e).1 :=
  ran_of_moves w (moves_step a.state e) _

end Actor

end Arcbox.Computer.Lifecycle

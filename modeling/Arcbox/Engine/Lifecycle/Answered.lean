import Arcbox.Engine.Lifecycle.Actor

set_option autoImplicit false

/-!
# Lifecycle: every caller is answered

A caller is parked only while a sub-task of the current epoch is in flight, and the
completion of that sub-task answers it or hands it to the next one.  The state of the
machine says which sub-task that is; replies and parked callers together are always
exactly the callers so far.
-/

namespace Arcbox.Engine.Lifecycle

open List LifecycleActor State

open Foundation (History.Throughout History.after History.keeps)

/-- The caller a command brings. -/
def Command.callers : Command → List Caller
  | .checkStorage caller | .stopStorage caller | .resumeStorage caller | .ensureReady _ caller
  | .shutdown caller | .forceStop caller => [caller]
  | .activity => []

/-- The callers an input brings. -/
def Input.callers : Input → List Caller
  | .command c => c.callers
  | _ => []

variable {a' : LifecycleActor}

namespace LifecycleActor

variable {a : LifecycleActor} (w : World)

/-! ## No caller is lost or answered twice -/

/-- Everyone answered or parked. -/
def callers (a : LifecycleActor) : List Caller :=
  a.replies.map Prod.fst ++ a.waiters ++ a.stopWaiters

/-- From `a` to `a'`, the callers `brought` are answered or parked, and no answer is taken back. -/
def Accounts (a : LifecycleActor) (brought : List Caller) (a' : LifecycleActor) : Prop :=
  a'.callers.Perm (a.callers ++ brought) ∧ a.replies <+: a'.replies

theorem Accounts.quiet (hcallers : a'.callers = a.callers) (hreplies : a'.replies = a.replies) :
    Accounts a [] a' :=
  ⟨by rw [hcallers, append_nil], hreplies ▸ prefix_rfl⟩

theorem Accounts.comp {a'' : LifecycleActor} {brought : List Caller} (h' : Accounts a' [] a'')
    (h : Accounts a brought a') : Accounts a brought a'' :=
  ⟨(append_nil a'.callers ▸ h'.1).trans h.1, h.2.trans h'.2⟩

variable (caller : Caller) (reply : Reply)

theorem accounts_answer : Accounts a [caller] (a.answer caller reply) := by
  refine ⟨?_, prefix_append _ _⟩
  unfold callers answer
  refine perm_iff_count.mpr fun c => ?_
  simp only [map_append, map_cons, map_nil, count_append]
  omega

theorem map_fst_replies (callers : List Caller) :
    (callers.map fun caller => (caller, reply)).map Prod.fst = callers := by
  rw [map_map]
  exact map_id callers

theorem accounts_answerWaiters : Accounts a [] (a.answerWaiters reply) := by
  refine ⟨?_, prefix_append _ _⟩
  unfold callers answerWaiters
  refine perm_iff_count.mpr fun c => ?_
  simp only [map_append, map_fst_replies, count_append, count_nil]
  omega

theorem accounts_answerStopWaiters : Accounts a [] (a.answerStopWaiters reply) := by
  refine ⟨?_, prefix_append _ _⟩
  unfold callers answerStopWaiters
  refine perm_iff_count.mpr fun c => ?_
  simp only [map_append, map_fst_replies, count_append, count_nil]
  omega

theorem accounts_apply (e : Effect) : Accounts a [] (a.apply w e) := by
  cases e with
  | readyWaiters | failWaiters => exact accounts_answerWaiters _
  | _ => exact .quiet rfl rfl

theorem accounts_dispatch (event : VmEvent) : Accounts a [] (a.dispatch w event) := by
  refine foldlRecOn (motive := (Accounts a [] ·)) _ _ ?_ fun _ hx e _ => (accounts_apply w e).comp hx
  unfold publishState
  split <;> exact .quiet rfl rfl

theorem accounts_park_waiter (hreplies : a'.replies = a.replies)
    (hwaiters : a'.waiters = a.waiters ++ [caller]) (hstop : a'.stopWaiters = a.stopWaiters) :
    Accounts a [caller] a' := by
  refine ⟨?_, hreplies ▸ prefix_rfl⟩
  unfold callers
  rw [hreplies, hwaiters, hstop]
  refine perm_iff_count.mpr fun c => ?_
  simp only [count_append]
  omega

theorem accounts_park_stop (hreplies : a'.replies = a.replies) (hwaiters : a'.waiters = a.waiters)
    (hstop : a'.stopWaiters = a.stopWaiters ++ [caller]) : Accounts a [caller] a' := by
  refine ⟨?_, hreplies ▸ prefix_rfl⟩
  unfold callers
  rw [hreplies, hwaiters, hstop, ← append_assoc]

theorem accounts_onCommand (c : Command) : Accounts a c.callers (a.onCommand w c) := by
  cases c with
  | checkStorage caller =>
    unfold onCommand onStorageCheck
    dsimp only
    split
    · exact accounts_answer _ _
    · exact accounts_answer _ _
  | stopStorage caller =>
    unfold onCommand onStorageStop
    dsimp only
    split
    · exact accounts_answer _ _
    · split
      · exact accounts_park_stop caller rfl rfl rfl
      · exact (accounts_dispatch w _).comp (accounts_park_stop caller rfl rfl rfl)
  | resumeStorage caller =>
    unfold onCommand onResumeStorage
    dsimp only
    split
    · exact accounts_answer _ _
    · exact (accounts_dispatch w _).comp (accounts_park_waiter caller rfl rfl rfl)
  | ensureReady timeoutMs caller =>
    unfold onCommand onEnsureReady
    dsimp only
    split
    · exact accounts_answer _ _
    split
    · have hactive := accounts_dispatch (a := a) w .activity
      have hanswered := accounts_answer (a := a.dispatch w .activity) caller (cidReply w)
      have hsame := append_nil a.callers ▸ hactive.1
      exact ⟨hanswered.1.trans (hsame.append_right _), hactive.2.trans hanswered.2⟩
    · split
      · exact (accounts_dispatch w _).comp (accounts_park_waiter caller rfl rfl rfl)
      · exact accounts_park_waiter caller rfl rfl rfl
  | shutdown caller =>
    unfold onCommand onShutdown
    dsimp only
    split
    · exact accounts_park_stop caller rfl rfl rfl
    · exact accounts_park_stop caller rfl rfl rfl
    · exact accounts_park_stop caller rfl rfl rfl
    · exact (accounts_dispatch w _).comp (accounts_park_stop caller rfl rfl rfl)
    · exact (accounts_dispatch w _).comp (accounts_park_stop caller rfl rfl rfl)
    · split
      · exact (accounts_dispatch w _).comp (accounts_park_stop caller rfl rfl rfl)
      · exact accounts_answer _ _
  | forceStop caller =>
    unfold onCommand onForceStop
    dsimp only
    split
    · exact accounts_answer _ _
    · split
      · exact accounts_park_stop caller rfl rfl rfl
      · exact (accounts_dispatch w _).comp (accounts_park_stop caller rfl rfl rfl)
  | activity => exact accounts_dispatch w _

theorem accounts_startIfPending : Accounts a [] (a.startIfPending w) := by
  unfold startIfPending
  split
  · exact accounts_answerWaiters _
  · split
    · exact .quiet rfl rfl
    · exact accounts_dispatch w _

theorem accounts_onOutcome (outcome : InternalEvent) : Accounts a [] (a.onOutcome w outcome) := by
  cases outcome with
  | agentReady =>
    unfold onOutcome
    dsimp only
    split
    · exact (accounts_dispatch w .stop).comp (accounts_dispatch w .agentReady)
    · exact accounts_dispatch w _
  | bootFailed reason =>
    have hfailed := (accounts_answerWaiters (.error (.vm reason))).comp
      (accounts_dispatch (a := a) w .failure)
    unfold onOutcome
    dsimp only
    split
    · exact (accounts_answerStopWaiters .done).comp hfailed
    · exact hfailed
  | stopped | removed | stopFailed =>
    exact (accounts_answerStopWaiters _).comp (accounts_dispatch w _)
  | removeFailed reason =>
    exact (accounts_apply w (.failWaiters reason)).comp
      ((accounts_answerStopWaiters _).comp (accounts_dispatch w _))

/-- One turn answers or parks exactly the caller it brings. -/
theorem accounts_react (i : World × Input) : Accounts a i.2.callers (a.react i) := by
  obtain ⟨w, i⟩ := i
  cases i with
  | command c => exact accounts_onCommand w c
  | internal c =>
    unfold react onInternal
    dsimp only
    split
    · exact .quiet rfl rfl
    · exact (accounts_startIfPending w).comp (accounts_onOutcome w c.outcome)
  | idleTick =>
    unfold react onIdleTick
    dsimp only
    split
    · exact .quiet rfl rfl
    · split
      · exact accounts_dispatch w _
      · exact .quiet rfl rfl
  | livenessTick =>
    unfold react onLivenessTick
    dsimp only
    split
    · exact accounts_dispatch w _
    · exact .quiet rfl rfl

end LifecycleActor

/-! ## What each state waits for -/

namespace State

/-- The sub-task in flight in each state of the machine. -/
def fits : State → Option TaskKind → Bool
  | .creating, some (.boot _ _) | .creating, some (.storageBoot _) | .creating, some (.reboot _)
  | .starting, some (.boot _ _) | .starting, some (.storageBoot _) | .starting, some (.reboot _)
  | .stopping, some .stop | .stopping, some .storageStop
  | .removing, some .removal => true
  | .notExist, none | .created, none | .stopped, none | .failed, none
  | .running, none | .idle, none => true
  | _, _ => false

variable {s : State}

theorem handle_start (h : s.toPublic.needsStart = true) (create : Bool) (timeoutMs : Nat) :
    s.handle (.start create timeoutMs) =
      (if create = true then .creating else .starting, [.spawnBoot create timeoutMs]) := by
  cases s <;> first | rfl | cases h

theorem handle_stop (h : s.toPublic.isReady = true) :
    s.handle .stop = (.stopping, [.spawnStop]) := by
  cases s <;> first | rfl | cases h

theorem handle_guestReset (h : s.toPublic.isReady = true) (timeoutMs : Nat) :
    s.handle (.guestReset timeoutMs) = (.starting, [.bumpGeneration, .spawnReboot timeoutMs]) := by
  cases s <;> first | rfl | cases h

theorem handle_forceStop (h : s ≠ .removing) : s.handle .forceStop =
      (.removing, [.abortInflight, .removeMachine, .failWaiters "force stopped"]) := by
  cases s <;> first | rfl | exact absurd rfl h

theorem handle_stopStorage (s : State) : s.handle .stopStorage =
      (.stopping, [.spawnStorageStop, .failWaiters "storage recovery stopped"]) := by
  cases s <;> rfl

theorem handle_stopUnready (s : State) : s.handle .stopUnready = (.stopping, [.spawnStop]) := by
  cases s <;> rfl

theorem handle_failure (s : State) : s.handle .failure = (.failed, []) := by
  cases s <;> rfl

theorem handle_agentReady (h : s.isBooting = true) :
    s.handle .agentReady = (.running, [.publish .started, .readyWaiters]) := by
  cases s <;> first | rfl | cases h

theorem handle_stopped (h : s = .stopping) :
    s.handle .stopped = (.stopped, [.bumpGeneration, .publish .stopped]) := by
  rw [h]
  rfl

theorem handle_removed (h : s = .removing) :
    s.handle .removed = (.notExist, [.bumpGeneration, .publish .stopped]) := by
  rw [h]
  rfl

theorem handle_idleTimeout (h : s = .running) :
    s.handle .idleTimeout = (.idle, [.publish .idle]) := by
  rw [h]
  rfl

/-- Activity only ends idleness. -/
theorem handle_activity (s : State) :
    s.handle .activity = (if s = .idle then .running else s, []) := by
  cases s <;> rfl

theorem fits_activity {k : Option TaskKind} (h : s.fits k = true) :
    (if s = .idle then State.running else s).fits k = true := by
  cases s with
  | idle =>
    cases k with
    | none => rfl
    | some k => cases k <;> cases h
  | _ => exact h

/-- A boot or a stop under way has its sub-task. -/
theorem fits_ne_none (h : s.toPublic.inTransition = true) : s.fits none = false := by
  cases s <;> first | rfl | cases h

theorem eq_none_of_fits {k : Option TaskKind} (h : s.fits k = true)
    (hs : s.toPublic.inTransition = false) : k = none := by
  cases k with
  | none => rfl
  | some k =>
    cases s <;> cases k <;>
      first | exact absurd h Bool.false_ne_true | exact absurd hs.symm Bool.false_ne_true

/-- What the report of a sub-task that fits says about the state. -/
theorem state_of_reports {k : TaskKind} {outcome : InternalEvent} (h : s.fits (some k) = true)
    (hk : k.reports outcome = true) : match outcome with
    | .agentReady | .bootFailed _ => s.isBooting = true
    | .stopped | .stopFailed _ => s = .stopping
    | .removed | .removeFailed _ => s = .removing := by
  cases outcome <;> cases s <;> cases k <;>
    first | rfl | exact absurd h Bool.false_ne_true | cases hk

end State

namespace LifecycleActor

variable {a : LifecycleActor} (w : World)

/-- What holds between turns. -/
structure Inv (a : LifecycleActor) : Prop where
  published : a.published = a.state.toPublic
  fits : a.state.fits (a.inflight.map Task.kind) = true
  /-- The sub-task in flight has not reported and will report under the current epoch. -/
  tracked : ∀ task, a.inflight = some task → task.epoch = a.epoch ∧ task ∈ a.outstanding
  /-- Every other sub-task that may still report is of an earlier epoch. -/
  stale : ∀ task ∈ a.outstanding, task.epoch ≤ a.epoch ∧
    (task.epoch = a.epoch → a.inflight = some task)
  quiet : a.inflight = none → a.waiters = [] ∧ a.stopWaiters = []
  /-- Whoever asked for a stop during a boot gets it when the boot resolves. -/
  deferred : a.state.isBooting = true → a.stopWaiters ≠ [] → a.pendingStop = true
  storage : a.storageStopping = true → a.state = .stopping ∨ a.state = .removing
  unwrapped : a.panicked = false

/-- Nothing is in flight, and nothing of the current epoch can still report. -/
structure Free (a : LifecycleActor) : Prop where
  published : a.published = a.state.toPublic
  still : a.inflight = none
  past : ∀ task ∈ a.outstanding, task.epoch < a.epoch
  storage : a.storageStopping = false
  unwrapped : a.panicked = false

theorem inv_new (config : Config) : (new config).Inv := by
  refine ⟨rfl, rfl, fun _ h => ?_, forall_mem_nil _,
    fun _ => ⟨rfl, rfl⟩, fun h => absurd h Bool.false_ne_true,
    fun h => absurd h Bool.false_ne_true, rfl⟩
  cases h

/-- The states published so far, with that of a transition to `next`. -/
def recorded (a : LifecycleActor) (next : State) : List (VmLifecycleState × Nat) :=
  if a.state.toPublic = next.toPublic then a.history
  else a.history ++ [(next.toPublic, a.restartGeneration)]

/-- A dispatch is the machine's transition, published, and then its effects. -/
theorem dispatch_eq (hpub : a.published = a.state.toPublic) {event : VmEvent} {next : State}
    {effects : List Effect} (hnext : a.state.handle event = (next, effects)) :
    ∃ b, a.dispatch w event = effects.foldl (apply w) { a with
      state := next, published := next.toPublic, balloon := b, history := a.recorded next } := by
  unfold dispatch publishState recorded
  rw [hnext]
  dsimp only
  by_cases heq : a.state.toPublic = next.toPublic
  · refine ⟨a.balloon, ?_⟩
    rw [if_pos heq, if_pos heq, ← heq, ← hpub]
  · refine ⟨if next.toPublic = .idle then a.balloon ++ [.enterIdle]
      else if a.state.toPublic = .idle then a.balloon ++ [.exitIdle] else a.balloon, ?_⟩
    rw [if_neg heq, if_neg heq]

/-- The same as a rule. -/
theorem of_transition {P : LifecycleActor → Prop} {w : World} {event : VmEvent} {next : State}
    {effects : List Effect} (hpub : a.published = a.state.toPublic)
    (hnext : a.state.handle event = (next, effects)) (hP : ∀ b, P (effects.foldl (apply w)
      { a with state := next, published := next.toPublic, balloon := b, history := a.recorded next })) :
    P (a.dispatch w event) := by
  obtain ⟨b, heq⟩ := dispatch_eq w hpub hnext
  rw [heq]
  exact hP b

/-! ## Building the invariant -/

theorem inv_launch (kind : TaskKind) (hpub : a.published = a.state.toPublic)
    (hfits : a.state.fits (some kind) = true) (hpast : ∀ task ∈ a.outstanding, task.epoch < a.epoch)
    (hdeferred : a.state.isBooting = true → a.stopWaiters ≠ [] → a.pendingStop = true)
    (hstorage : a.storageStopping = true → a.state = .stopping ∨ a.state = .removing)
    (hpanicked : a.panicked = false) : (a.launch kind).Inv := by
  refine ⟨hpub, hfits, ?_, ?_, nofun, hdeferred, hstorage, hpanicked⟩
  · intro task htask
    cases htask
    exact ⟨rfl, mem_concat_self⟩
  refine forall_mem_append.mpr ⟨fun task htask => ?_, forall_mem_singleton.mpr ⟨.refl, fun _ => rfl⟩⟩
  have hlt := hpast task htask
  exact ⟨Nat.le_of_lt hlt, fun heq => absurd heq (Nat.ne_of_lt hlt)⟩

/-- Epochs only grow, so a bumped one has no task yet. -/
theorem Inv.past_succ (h : a.Inv) : ∀ task ∈ a.outstanding, task.epoch < a.epoch + 1 :=
  fun task htask => Nat.lt_succ_of_le (h.stale task htask).1

theorem Free.past_succ (h : a.Free) : ∀ task ∈ a.outstanding, task.epoch < a.epoch + 1 :=
  fun task htask => Nat.lt_succ_of_lt (h.past task htask)

theorem Free.inv (h : a.Free) (hfits : a.state.fits none = true) (hwaiters : a.waiters = [])
    (hstop : a.stopWaiters = []) : a.Inv := by
  refine ⟨h.published, by rw [h.still]; exact hfits, ?_, ?_, fun _ => ⟨hwaiters, hstop⟩,
    fun _ hne => absurd hstop hne, ?_, h.unwrapped⟩
  · intro task htask
    rw [h.still] at htask
    cases htask
  · intro task htask
    have hlt := h.past task htask
    exact ⟨Nat.le_of_lt hlt, fun heq => absurd heq (Nat.ne_of_lt hlt)⟩
  · intro hstorage
    rw [h.storage] at hstorage
    cases hstorage

theorem Inv.free (h : a.Inv) (hs : a.state.toPublic.inTransition = false) : a.Free := by
  have hnone : a.inflight = none := Option.map_eq_none_iff.mp (eq_none_of_fits h.fits hs)
  refine ⟨h.published, hnone, fun task htask => ?_, ?_, h.unwrapped⟩
  · obtain ⟨hle, hcurrent⟩ := h.stale task htask
    refine Nat.lt_of_le_of_ne hle fun heq => ?_
    rw [hnone] at hcurrent
    cases hcurrent heq
  · refine Bool.eq_false_iff.mpr fun hstorage => ?_
    rcases h.storage hstorage with heq | heq <;> rw [heq] at hs <;> cases hs

theorem Inv.inflight_ne (h : a.Inv) (hs : a.state.toPublic.inTransition = true) :
    a.inflight ≠ none := by
  intro hnone
  have hfits := h.fits
  rw [hnone] at hfits
  rw [show (Option.map Task.kind none) = none from rfl, fits_ne_none hs] at hfits
  cases hfits

theorem Inv.answer (h : a.Inv) (caller : Caller) (reply : Reply) : (a.answer caller reply).Inv :=
  ⟨h.published, h.fits, h.tracked, h.stale, h.quiet, h.deferred, h.storage, h.unwrapped⟩

theorem Inv.answerWaiters (h : a.Inv) (reply : Reply) : (a.answerWaiters reply).Inv :=
  ⟨h.published, h.fits, h.tracked, h.stale, fun hnone => ⟨rfl, (h.quiet hnone).2⟩, h.deferred,
    h.storage, h.unwrapped⟩

/-- A caller may park while a sub-task is in flight; one that asks for a stop during a
boot leaves the request behind. -/
theorem Inv.park (h : a.Inv) (hne : a.inflight ≠ none)
    (hsame : a'.published = a.published ∧ a'.state = a.state ∧ a'.inflight = a.inflight ∧
      a'.epoch = a.epoch ∧ a'.outstanding = a.outstanding ∧ a'.storageStopping = a.storageStopping ∧
      a'.panicked = a.panicked)
    (hdeferred : a.state.isBooting = true → a'.stopWaiters ≠ [] → a'.pendingStop = true) :
    a'.Inv := by
  obtain ⟨hpub, hstate, hinflight, hepoch, hout, hstorage, hpanicked⟩ := hsame
  refine ⟨by rw [hpub, hstate]; exact h.published, by rw [hstate, hinflight]; exact h.fits,
    by rw [hinflight, hepoch, hout]; exact h.tracked,
    by rw [hinflight, hepoch, hout]; exact h.stale, fun hnone => ?_,
    by rw [hstate]; exact hdeferred, by rw [hstorage, hstate]; exact h.storage,
    by rw [hpanicked]; exact h.unwrapped⟩
  rw [hinflight] at hnone
  exact absurd hnone hne

/-! ## Dispatches -/

/-- A boot from a resting state. -/
theorem inv_dispatch_start {create : Bool} {timeoutMs : Nat} (h : a.Free)
    (hs : a.state.toPublic.needsStart = true) (hstop : a.stopWaiters = []) :
    (a.dispatch w (.start create timeoutMs)).Inv := by
  refine of_transition h.published (handle_start hs create timeoutMs) fun _ => ?_
  refine inv_launch _ rfl ?_ h.past_succ (fun _ hne => absurd hstop hne) (fun hst => ?_) h.unwrapped
  · dsimp only [abortInflight]
    cases create <;> cases a.storageStart <;> rfl
  · exact absurd (h.storage.symm.trans hst) Bool.false_ne_true

section

variable (hpub : a.published = a.state.toPublic)

include hpub

section

variable (hpast : ∀ task ∈ a.outstanding, task.epoch < a.epoch + 1)

include hpast

/-- A graceful stop of a ready machine, or of one that never became ready. -/
theorem inv_stop (hpanicked : a.panicked = false) {event : VmEvent}
    (hnext : a.state.handle event = (.stopping, [.spawnStop])) : (a.dispatch w event).Inv := by
  refine of_transition hpub hnext fun _ => ?_
  exact inv_launch .stop rfl rfl hpast nofun (fun _ => .inl rfl) hpanicked

theorem inv_dispatch_stopStorage (hpanicked : a.panicked = false) (hslot : a.storageStop = true) :
    (a.dispatch w .stopStorage).Inv := by
  refine of_transition hpub (handle_stopStorage a.state) fun _ => ?_
  refine Inv.answerWaiters ?_ _
  refine inv_launch .storageStop rfl rfl hpast nofun (fun _ => .inl rfl) ?_
  rw [hpanicked, hslot]
  rfl

theorem inv_dispatch_forceStop (hpanicked : a.panicked = false) (hs : a.state ≠ .removing) :
    (a.dispatch w .forceStop).Inv ∧ (a.dispatch w .forceStop).state = .removing := by
  obtain ⟨b, heq⟩ := dispatch_eq w hpub (handle_forceStop hs)
  rw [heq]
  refine ⟨Inv.answerWaiters ?_ _, rfl⟩
  exact inv_launch .removal rfl rfl hpast nofun (fun _ => .inr rfl)
    hpanicked

end

end

theorem inv_dispatch_activity (h : a.Inv) : (a.dispatch w .activity).Inv := by
  refine of_transition h.published (handle_activity a.state) fun _ => ?_
  refine ⟨rfl, fits_activity h.fits, h.tracked, h.stale, h.quiet, fun hboot => ?_,
    fun hst => ?_, h.unwrapped⟩
  · by_cases hidle : a.state = .idle
    · dsimp only [List.foldl] at hboot
      rw [if_pos hidle] at hboot
      cases hboot
    · dsimp only [List.foldl] at hboot
      rw [if_neg hidle] at hboot
      exact h.deferred hboot
  · rcases h.storage hst with hs | hs
    · exact .inl (by dsimp only [List.foldl]; rw [hs]; rfl)
    · exact .inr (by dsimp only [List.foldl]; rw [hs]; rfl)

/-! ## Commands -/

theorem needsStart_inTransition {p : VmLifecycleState} (h : p.needsStart = true) :
    p.inTransition = false := by
  cases p <;> first | rfl | cases h

theorem isReady_inTransition {p : VmLifecycleState} (h : p.isReady = true) :
    p.inTransition = false := by
  cases p <;> first | rfl | cases h

theorem inv_onStorageStop (h : a.Inv) (caller : Caller) : (a.onStorageStop w caller).Inv := by
  unfold onStorageStop
  split
  · exact h.answer _ _
  dsimp only
  split
  next hstopping =>
    -- a maintenance stop is under way: its completion answers this caller too
    have hs := h.storage hstopping
    refine h.park (h.inflight_ne ?_) ⟨rfl, rfl, rfl, rfl, rfl, rfl, rfl⟩ fun hboot => ?_
    · rcases hs with hs | hs <;> rw [hs] <;> rfl
    · rcases hs with hs | hs <;> rw [hs] at hboot <;> cases hboot
  · exact inv_dispatch_stopStorage w h.published h.past_succ h.unwrapped rfl

theorem inv_boot {start cancel create : Bool} {parked : List Caller} {timeoutMs : Nat} (h : a.Inv)
    (hneeds : a.published.needsStart = true) :
    ({ a with storageStart := start, storageCancel := cancel, waiters := parked }.dispatch w
      (.start create timeoutMs)).Inv := by
  rw [h.published] at hneeds
  have hfree := h.free (needsStart_inTransition hneeds)
  have hquiet := h.quiet hfree.still
  exact inv_dispatch_start w { hfree with } hneeds hquiet.2

theorem inv_onResumeStorage (h : a.Inv) (caller : Caller) : (a.onResumeStorage w caller).Inv := by
  unfold onResumeStorage
  split
  · exact h.answer _ _
  rename_i hrefused
  simp only [Bool.or_eq_true, Bool.not_eq_true', not_or, Bool.not_eq_false,
    Bool.not_eq_true] at hrefused
  exact inv_boot w h hrefused.1.2

theorem inv_onEnsureReady (h : a.Inv) (timeoutMs : Nat) (caller : Caller) :
    (a.onEnsureReady w timeoutMs caller).Inv := by
  unfold onEnsureReady
  split
  · exact h.answer _ _
  split
  · exact (inv_dispatch_activity w h).answer _ _
  rename_i hready
  split
  next hstart =>
    exact inv_boot w h (Bool.and_eq_true_iff.mp hstart).1
  rename_i hstart
  refine h.park (fun hnone => ?_) ⟨rfl, rfl, rfl, rfl, rfl, rfl, rfl⟩ h.deferred
  -- neither ready nor to be started: a boot or a stop is under way
  rw [hnone, Option.isNone_none, Bool.and_true] at hstart
  have hfits := h.fits
  rw [hnone] at hfits
  rw [h.published] at hready hstart
  revert hready hstart hfits
  cases a.state <;> decide

theorem inv_onShutdown (h : a.Inv) (caller : Caller) : (a.onShutdown w caller).Inv := by
  have hstate := h.published
  have hstop : ∀ {event}, a.state.handle event = (.stopping, [.spawnStop]) →
      ({ a with stopWaiters := a.stopWaiters ++ [caller] }.dispatch w event).Inv :=
    inv_stop w (a := { a with stopWaiters := _ ++ [caller] }) h.published h.past_succ h.unwrapped
  unfold onShutdown
  split
  next hpub =>
    rw [hpub] at hstate
    refine h.park (h.inflight_ne (by rw [← hstate]; rfl)) ⟨rfl, rfl, rfl, rfl, rfl, rfl, rfl⟩
      fun hboot => absurd hboot ?_
    revert hstate
    cases a.state <;> decide
  next hpub =>
    rw [hpub] at hstate
    exact h.park (h.inflight_ne (by rw [← hstate]; rfl)) ⟨rfl, rfl, rfl, rfl, rfl, rfl, rfl⟩
      fun _ _ => rfl
  next hpub =>
    rw [hpub] at hstate
    exact h.park (h.inflight_ne (by rw [← hstate]; rfl)) ⟨rfl, rfl, rfl, rfl, rfl, rfl, rfl⟩
      fun _ _ => rfl
  next hpub =>
    rw [hpub] at hstate
    exact hstop (handle_stop (by rw [← hstate]; rfl))
  next hpub =>
    rw [hpub] at hstate
    exact hstop (handle_stop (by rw [← hstate]; rfl))
  · split
    · exact hstop (handle_stopUnready _)
    · exact h.answer _ _

theorem inv_onForceStop (h : a.Inv) (caller : Caller) : (a.onForceStop w caller).Inv := by
  unfold onForceStop
  split
  · exact h.answer _ _
  dsimp only
  split
  next hs =>
    refine h.park (h.inflight_ne (by rw [hs]; rfl)) ⟨rfl, rfl, rfl, rfl, rfl, rfl, rfl⟩
      fun hboot => ?_
    rw [hs] at hboot
    cases hboot
  rename_i hs
  obtain ⟨hinv, hremoving⟩ := inv_dispatch_forceStop w
    (a := { a with stopWaiters := a.stopWaiters ++ [caller] }) h.published h.past_succ
    h.unwrapped hs
  refine ⟨hinv.published, hinv.fits, hinv.tracked, hinv.stale, hinv.quiet, fun hboot => ?_,
    hinv.storage, hinv.unwrapped⟩
  rw [hremoving] at hboot
  cases hboot

theorem inv_onCommand (h : a.Inv) (c : Command) : (a.onCommand w c).Inv := by
  cases c with
  | checkStorage caller =>
    change (a.onStorageCheck w caller).Inv
    unfold onStorageCheck
    split
    · exact h.answer _ _
    · exact h.answer _ _
  | stopStorage caller => exact inv_onStorageStop w h caller
  | resumeStorage caller => exact inv_onResumeStorage w h caller
  | ensureReady timeoutMs caller => exact inv_onEnsureReady w h timeoutMs caller
  | shutdown caller => exact inv_onShutdown w h caller
  | forceStop caller => exact inv_onForceStop w h caller
  | activity => exact inv_dispatch_activity w h

/-! ## Completions -/

/-- A stop has landed: its callers are answered, those of the next boot may be parked. -/
structure Landed (a : LifecycleActor) : Prop where
  free : a.Free
  resting : a.state.toPublic.needsStart = true
  answered : a.stopWaiters = []

theorem needsStart_fits {s : State} (h : s.toPublic.needsStart = true) : s.fits none = true := by
  cases s <;> first | rfl | cases h

theorem Landed.inv (h : a.Landed) (hwaiters : a.waiters = []) : a.Inv :=
  h.free.inv (needsStart_fits h.resting) hwaiters h.answered

/-- Whoever parked during the stop gets a boot, or the storage error. -/
theorem inv_startIfPending_of_landed (h : a.Landed) : (a.startIfPending w).Inv := by
  obtain ⟨hfree, hresting, hstop⟩ := h
  unfold startIfPending
  split
  · exact Landed.inv ⟨⟨hfree.published, hfree.still, hfree.past, hfree.storage,
      hfree.unwrapped⟩, hresting, hstop⟩ rfl
  split
  next hnothing =>
    refine Landed.inv ⟨hfree, hresting, hstop⟩ (List.isEmpty_iff.mp ?_)
    rw [hfree.published, hresting, hfree.still] at hnothing
    simpa using hnothing
  exact inv_dispatch_start w { hfree with } hresting hstop

/-- Nobody is parked, or something is in flight: there is nothing to start. -/
theorem inv_startIfPending (h : a.Inv) : (a.startIfPending w).Inv := by
  unfold startIfPending
  split
  · have hinv : ({ a with pendingTimeout := none } : LifecycleActor).Inv :=
      ⟨h.published, h.fits, h.tracked, h.stale, h.quiet, h.deferred, h.storage, h.unwrapped⟩
    exact hinv.answerWaiters _
  split
  · exact h
  rename_i hpending
  simp only [Bool.or_eq_true, not_or, Bool.not_eq_true, Option.isSome_eq_false_iff,
    Option.isNone_iff_eq_none] at hpending
  rw [(h.quiet hpending.2).1] at hpending
  exact absurd hpending.1.1 Bool.noConfusion

/-- The reporting task is the one in flight, and its kind says where the machine is. -/
theorem Inv.task_of_report (h : a.Inv) {c : Completion} (hpos : (Input.internal c).Possible a)
    (hepoch : c.epoch = a.epoch) :
    ∃ kind, a.state.fits (some kind) = true ∧ kind.reports c.outcome = true := by
  obtain ⟨task, hmem, htask, hreports⟩ := hpos
  have hinflight := (h.stale task hmem).2 (htask.trans hepoch)
  have hfits := h.fits
  rw [hinflight] at hfits
  exact ⟨task.kind, hfits, hreports⟩

/-- The actor once a current completion was taken in, before its outcome. -/
theorem Inv.free_finished (h : a.Inv) : (a.reported a.epoch).finished.Free := by
  refine ⟨h.published, rfl, fun task htask => ?_, rfl, h.unwrapped⟩
  obtain ⟨hmem, hne⟩ := mem_filter.mp htask
  exact Nat.lt_of_le_of_ne (h.stale task hmem).1 (of_decide_eq_true hne)

theorem inv_agentReady (h : a.Free) (hboot : a.state.isBooting = true)
    (hdeferred : a.stopWaiters ≠ [] → a.pendingStop = true) : (a.onOutcome w .agentReady).Inv := by
  obtain ⟨b, heq⟩ := dispatch_eq w h.published (handle_agentReady hboot)
  unfold onOutcome
  dsimp only
  rw [heq]
  split
  · refine inv_stop w ?_ ?_ ?_ ?_
    · rfl
    · exact h.past_succ
    · exact h.unwrapped
    · rfl
  rename_i hpending
  refine Free.inv { h with published := rfl } rfl rfl ?_
  by_contra hne
  exact hpending (hdeferred hne)

theorem inv_bootFailed (h : a.Free) (hdeferred : a.stopWaiters ≠ [] → a.pendingStop = true)
    (reason : String) : (a.onOutcome w (.bootFailed reason)).Inv := by
  obtain ⟨b, heq⟩ := dispatch_eq w h.published (handle_failure a.state)
  unfold onOutcome
  dsimp only
  rw [heq]
  split
  · exact Free.inv { h with published := rfl } rfl rfl rfl
  rename_i hpending
  refine Free.inv { h with published := rfl } rfl rfl ?_
  by_contra hne
  exact hpending (hdeferred hne)

theorem landed_onOutcome (h : a.Free) {outcome : InternalEvent}
    (ho : (outcome = .stopped ∧ a.state = .stopping) ∨
      (outcome = .removed ∧ a.state = .removing) ∨ ∃ reason, outcome = .stopFailed reason) :
    (a.onOutcome w outcome).Landed := by
  rcases ho with ⟨rfl, hs⟩ | ⟨rfl, hs⟩ | ⟨reason, rfl⟩
  · obtain ⟨b, heq⟩ := dispatch_eq w h.published (handle_stopped hs)
    unfold onOutcome
    rw [heq]
    exact ⟨{ h with published := rfl }, rfl, rfl⟩
  · obtain ⟨b, heq⟩ := dispatch_eq w h.published (handle_removed hs)
    unfold onOutcome
    rw [heq]
    exact ⟨{ h with published := rfl }, rfl, rfl⟩
  obtain ⟨b, heq⟩ := dispatch_eq w h.published (handle_failure a.state)
  unfold onOutcome
  rw [heq]
  exact ⟨{ h with published := rfl }, rfl, rfl⟩

theorem inv_removeFailed (h : a.Free) (reason : String) :
    (a.onOutcome w (.removeFailed reason)).Inv := by
  obtain ⟨b, heq⟩ := dispatch_eq w h.published (handle_failure a.state)
  unfold onOutcome
  rw [heq]
  exact Free.inv { h with published := rfl } rfl rfl rfl

/-- A stale report only leaves the list of those outstanding. -/
theorem inv_reported (h : a.Inv) {epoch : Nat} (hne : epoch ≠ a.epoch) :
    (a.reported epoch).Inv := by
  refine ⟨h.published, h.fits, fun task htask => ?_, fun task htask => ?_, h.quiet, h.deferred,
    h.storage, h.unwrapped⟩
  · obtain ⟨hepoch, hmem⟩ := h.tracked task htask
    refine ⟨hepoch, mem_filter.mpr ⟨hmem, decide_eq_true ?_⟩⟩
    rw [hepoch]
    exact hne.symm
  · exact h.stale task (mem_filter.mp htask).1

theorem inv_onInternal (h : a.Inv) (c : Completion) (hpos : (Input.internal c).Possible a) :
    (a.onInternal w c).Inv := by
  unfold onInternal
  dsimp only
  split
  next hne =>
    exact inv_reported h hne
  rename_i heq
  have hepoch : c.epoch = a.epoch := not_not.mp heq
  obtain ⟨kind, hfits, hreports⟩ := h.task_of_report hpos hepoch
  have hs := state_of_reports hfits hreports
  have hfree := h.free_finished
  obtain ⟨epoch, outcome⟩ := c
  cases hepoch
  cases outcome with
  | agentReady => exact inv_startIfPending w (inv_agentReady w hfree hs (h.deferred hs))
  | bootFailed reason => exact inv_startIfPending w (inv_bootFailed w hfree (h.deferred hs) reason)
  | stopped => exact inv_startIfPending_of_landed w (landed_onOutcome w hfree (.inl ⟨rfl, hs⟩))
  | stopFailed reason =>
    exact inv_startIfPending_of_landed w (landed_onOutcome w hfree (.inr (.inr ⟨reason, rfl⟩)))
  | removed =>
    exact inv_startIfPending_of_landed w (landed_onOutcome w hfree (.inr (.inl ⟨rfl, hs⟩)))
  | removeFailed reason => exact inv_startIfPending w (inv_removeFailed w hfree reason)

/-! ## Every turn -/

/-- The idle tick acts on a running machine only. -/
theorem Inv.running {p : Bool} (h : a.Inv) (hgate : ¬ (p || a.published ≠ .running) = true) :
    a.state = .running := by
  have hpub : a.published = .running := by
    by_contra hne
    exact hgate (by simp [hne])
  have heq := h.published.symm.trans hpub
  revert heq
  cases a.state <;> decide

theorem inv_onIdleTick (h : a.Inv) : (a.onIdleTick w).Inv := by
  unfold onIdleTick
  split
  · exact h
  rename_i hgate
  split
  · have hs := h.running hgate
    have hfree := h.free (by rw [hs]; rfl)
    have hquiet := h.quiet hfree.still
    refine of_transition h.published (handle_idleTimeout hs) fun _ => ?_
    exact Free.inv ⟨rfl, hfree.still, hfree.past, hfree.storage, hfree.unwrapped⟩ rfl
      hquiet.1 hquiet.2
  · exact h

theorem inv_onLivenessTick (h : a.Inv) : (a.onLivenessTick w).Inv := by
  unfold onLivenessTick
  split
  next hgate =>
    simp only [Bool.and_eq_true] at hgate
    have hready := hgate.1.1
    rw [h.published] at hready
    have hfree := h.free (isReady_inTransition hready)
    refine of_transition h.published (handle_guestReset hready w.startupTimeoutMs) fun _ => ?_
    refine inv_launch (.reboot w.startupTimeoutMs) rfl rfl hfree.past_succ (fun _ hne => ?_)
      (fun hst => absurd (hfree.storage.symm.trans hst) Bool.false_ne_true) hfree.unwrapped
    exact absurd (h.quiet hfree.still).2 hne
  · exact h

theorem inv_react (h : a.Inv) (i : World × Input) (hpos : i.2.Possible a) : (a.react i).Inv := by
  obtain ⟨w, i⟩ := i
  cases i with
  | command c => exact inv_onCommand w h c
  | internal c => exact inv_onInternal w h c hpos
  | idleTick => exact inv_onIdleTick w h
  | livenessTick => exact inv_onLivenessTick w h

theorem inv_run (h : a.Inv) (inputs : List (World × Input))
    (hpos : History.Throughout react a (fun a i => i.2.Possible a) inputs) :
    (History.after react a inputs).Inv := History.keeps (fun _ i ha hi => inv_react ha i hi) h hpos

theorem callers_run (inputs : List (World × Input)) : (History.after react a inputs).callers.Perm
      (a.callers ++ inputs.flatMap fun i => i.2.callers) := by
  induction inputs generalizing a with
  | nil =>
    rw [flatMap_nil, append_nil]
    exact .refl _
  | cons i inputs ih =>
    rw [flatMap_cons, ← append_assoc]
    exact ih.trans ((accounts_react i).1.append_right _)

end LifecycleActor

/-- What the actor owes its callers. -/
structure Answered (a : LifecycleActor) (callers : List Caller) : Prop where
  /-- Whoever waits, waits for a sub-task that reports under the current epoch. -/
  inflight : a.waiters ≠ [] ∨ a.stopWaiters ≠ [] →
    ∃ task, a.inflight = some task ∧ task.epoch = a.epoch ∧ task ∈ a.outstanding
  empty : a.inflight = none → a.waiters = [] ∧ a.stopWaiters = []
  /-- Every caller so far was answered once or waits, and nobody else. -/
  conserved : (a.replies.map Prod.fst ++ a.waiters ++ a.stopWaiters).Perm callers
  /-- No slot was found empty. -/
  unwrapped : a.panicked = false

/-- In every run of the lifecycle actor whose sub-tasks report once, each caller is
answered or waits for a sub-task in flight. -/
theorem lifecycle_callers_answered (config : Config) (inputs : List (World × Input))
    (hpossible : History.Throughout LifecycleActor.react (LifecycleActor.new config)
      (fun a i => i.2.Possible a) inputs) :
    Answered (History.after LifecycleActor.react (LifecycleActor.new config) inputs)
      (inputs.flatMap fun i => i.2.callers) := by
  have hinv := inv_run (inv_new config) inputs hpossible
  refine ⟨fun hwaits => ?_, hinv.quiet, callers_run inputs, hinv.unwrapped⟩
  cases hinflight : (History.after react (new config) inputs).inflight with
  | none =>
    obtain ⟨hwaiters, hstop⟩ := hinv.quiet hinflight
    rcases hwaits with hne | hne
    · exact absurd hwaiters hne
    · exact absurd hstop hne
  | some task => exact ⟨task, rfl, hinv.tracked task hinflight⟩

/-- A world without a storage hold, in which the machine has a CID. -/
def calmWorld : World := ⟨none, true, false, none, some 3, 90000, false, 0, 0, none⟩

/-- A boot, a shutdown that waits for it, and a caller that parks behind the stop. -/
def bootAndStop : List (World × Input) :=
  [(calmWorld, .command (.ensureReady 1000 1)), (calmWorld, .command (.shutdown 2)),
    (calmWorld, .internal ⟨1, .agentReady⟩), (calmWorld, .command (.ensureReady 1000 3)),
    (calmWorld, .internal ⟨2, .stopped⟩)]

theorem lifecycle_callers_answered_boot :
    Answered (History.after LifecycleActor.react (LifecycleActor.new ⟨true, 60⟩) bootAndStop)
      [1, 2, 3] := lifecycle_callers_answered ⟨true, 60⟩ bootAndStop (by decide)

/-! ## The sub-task of a state -/

/-- The sub-task in flight is the one the published state needs. -/
structure InStep (a : LifecycleActor) : Prop where
  published : a.published = a.state.toPublic
  working : a.inflight.isSome = a.published.inTransition
  /-- A boot while booting, a removal while removing, and else a stop. -/
  kind : ∀ task, a.inflight = some task →
    task.kind.reports .agentReady = a.state.isBooting ∧
      task.kind.reports .removed = decide (a.state = .removing)
  /-- Of the sub-tasks that may still report no other is heard. -/
  heard : ∀ task ∈ a.outstanding, task.epoch = a.epoch → a.inflight = some task

theorem kind_of_fits {s : State} {k : TaskKind} (h : s.fits (some k) = true) :
    k.reports .agentReady = s.isBooting ∧ k.reports .removed = decide (s = .removing) := by
  cases s <;> cases k <;> first | exact ⟨rfl, rfl⟩ | cases h

/-- In every run the published state tells whether a sub-task is in flight and of which kind. -/
theorem published_state_in_step (config : Config) (inputs : List (World × Input))
    (hpossible : History.Throughout react (new config) (fun a i => i.2.Possible a) inputs) :
    InStep (History.after react (new config) inputs) := by
  have hinv := inv_run (inv_new config) inputs hpossible
  generalize History.after react (new config) inputs = a at hinv
  have hfits := hinv.fits
  refine ⟨hinv.published, ?_, fun task htask => ?_, fun task hmem => (hinv.stale task hmem).2⟩
  · rw [hinv.published]
    cases hinflight : a.inflight with
    | none =>
      refine (Bool.eq_false_iff.mpr fun htrans => ?_).symm
      rw [hinflight, Option.map_none, State.fits_ne_none htrans] at hfits
      cases hfits
    | some task =>
      refine (Bool.of_not_eq_false fun hrest => ?_).symm
      rw [hinflight] at hfits
      cases State.eq_none_of_fits hfits hrest
  · rw [htask] at hfits
    exact kind_of_fits hfits

theorem published_state_in_step_boot :
    InStep (History.after react (new ⟨true, 60⟩) bootAndStop) :=
  published_state_in_step ⟨true, 60⟩ bootAndStop (by decide)

end Arcbox.Engine.Lifecycle

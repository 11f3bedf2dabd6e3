import Mathlib.Data.List.Infix
import Mathlib.Data.List.Induction
import Arcbox.Engine.Lifecycle.Answered

set_option autoImplicit false

/-!
# Lifecycle: whose budget a deferred boot uses

The first caller to park records its budget for the boot that `start_if_pending` may dispatch.
A boot that resolves answers the parked callers and leaves the budget where it is.
-/

namespace Arcbox.Engine.Lifecycle

open Foundation List LifecycleActor State

/-- The timeout of the boot that `start_if_pending` dispatches, if it dispatches one. -/
def LifecycleActor.deferredTimeout (a : LifecycleActor) (w : World) : Option Nat :=
  if w.storage = none ∧ a.waiters ≠ [] ∧ a.published.needsStart = true ∧ a.inflight = none then
    some (a.pendingTimeout.getD w.startupTimeoutMs)
  else none

/-- A client asks for a ready VM, with a budget. -/
def asked (w : World) (timeoutMs : Nat) (caller : Caller) : World × Input :=
  (w, .command (.ensureReady timeoutMs caller))

/-- The actor after some turns. -/
def ran (config : Config) (turns : List (World × Input)) : LifecycleActor :=
  History.after react (new config) turns

/-- An `EnsureReady` with this timeout came in, and its caller has been parked ever since. -/
def Parked (config : Config) (turns : List (World × Input)) (a : LifecycleActor) (timeoutMs : Nat) :
    Prop :=
  ∃ w caller front back, turns = front ++ asked w timeoutMs caller :: back ∧ caller ∈ a.waiters ∧
    ∀ back' ∈ back.inits, caller ∈ (ran config (front ++ asked w timeoutMs caller :: back')).waiters

/-- The timeout with which a boot sub-task was launched. -/
def TaskKind.budget : TaskKind → Option Nat
  | .boot _ timeoutMs | .storageBoot timeoutMs | .reboot timeoutMs => some timeoutMs
  | .stop | .storageStop | .removal => none

/-- The boot in flight after the completion of a sub-task has the timeout of a parked caller, or
the default where no parked caller came with one. -/
def Budgeted (config : Config) (inputs : List (World × Input)) : Prop :=
  ∀ pre w c post task timeoutMs, inputs = pre ++ (w, .internal c) :: post →
    let a' := ran config (pre ++ [(w, .internal c)])
    c.epoch = (ran config pre).epoch → a'.inflight = some task →
    task.kind.budget = some timeoutMs →
    Parked config pre a' timeoutMs ∨
      timeoutMs = w.startupTimeoutMs ∧ ∀ t, ¬ Parked config pre a' t

/-- A boot that resolves finds no budget recorded. -/
def unclaimed (a : LifecycleActor) (i : World × Input) : Bool :=
  match i.2 with
  | .internal ⟨epoch, .agentReady⟩ | .internal ⟨epoch, .bootFailed _⟩ =>
    epoch ≠ a.epoch || a.pendingTimeout.isNone
  | _ => true

/-! ## What a turn makes of the parked callers and the recorded budget -/

/-- No caller waits and no budget is kept. -/
def Settled (a : LifecycleActor) : Prop := a.waiters = [] ∧ a.pendingTimeout = none

/-- What a turn leaves to the callers that waited. -/
inductive Turn (a : LifecycleActor) (i : World × Input) (a' : LifecycleActor) : Prop
  | settled (hsettled : Settled a')
  | boots (hboot : a'.state.isBooting = true) (hbudget : a'.pendingTimeout = none)
  | same (hwaiters : a'.waiters = a.waiters) (hbudget : a'.pendingTimeout = a.pendingTimeout)
    (hboot : a.state.isBooting = true → a'.state.isBooting = true)
  | parks (w : World) (timeoutMs : Nat) (caller : Caller) (hi : i = asked w timeoutMs caller)
    (hwaiters : a'.waiters = a.waiters ++ [caller])
    (hbudget : a'.pendingTimeout = some (a.pendingTimeout.getD timeoutMs))

section

variable {a a' : LifecycleActor} {w : World} {i : World × Input}

theorem turn_start {create : Bool} {timeoutMs : Nat} (hpub : a'.published = a'.state.toPublic)
    (hneeds : a'.published.needsStart = true) (hbudget : a'.pendingTimeout = none) :
    Turn a i (a'.dispatch w (.start create timeoutMs)) := by
  rw [hpub] at hneeds
  refine of_transition hpub (handle_start hneeds create timeoutMs) fun _ => ?_
  cases create <;> exact .boots rfl hbudget

theorem turn_onCommand (h : a.Inv) (hidle : a.inflight = none → a.pendingTimeout = none)
    (c : Command) : Turn a (w, .command c) (a.onCommand w c) := by
  have hactive : a.state.isBooting = true →
      (if a.state = .idle then State.running else a.state).isBooting = true := by
    cases a.state <;> exact id
  have hquiet : a.inflight = none → Settled a := fun hnone => ⟨(h.quiet hnone).1, hidle hnone⟩
  cases c with
  | checkStorage caller =>
    unfold onCommand onStorageCheck
    dsimp only
    split <;> exact .same rfl rfl id
  | stopStorage caller =>
    unfold onCommand onStorageStop
    dsimp only
    split
    · exact .same rfl rfl id
    split
    · exact .same rfl rfl id
    · exact of_transition h.published (handle_stopStorage _) fun _ => .settled ⟨rfl, rfl⟩
  | resumeStorage caller =>
    unfold onCommand onResumeStorage
    dsimp only
    split
    · exact .same rfl rfl id
    next hrefused =>
      simp only [Bool.or_eq_true, Bool.not_eq_true', not_or, Bool.not_eq_false,
        Option.isSome_iff_ne_none, not_not] at hrefused
      exact turn_start h.published hrefused.1.2 (hidle hrefused.2)
  | ensureReady timeoutMs caller =>
    unfold onCommand onEnsureReady
    dsimp only
    split
    · exact .same rfl rfl id
    split
    · exact of_transition (P := fun x => Turn a _ (x.answer caller _)) h.published
        (handle_activity _) fun _ => .same rfl rfl hactive
    split
    next hstart =>
      simp only [Bool.and_eq_true, Option.isNone_iff_eq_none] at hstart
      exact turn_start h.published hstart.1 (hidle hstart.2)
    · exact .parks w timeoutMs caller rfl rfl rfl
  | shutdown caller =>
    have hstop : ∀ {event}, a.state.handle event = (.stopping, [.spawnStop]) → a.inflight = none →
        Turn a (w, .command (.shutdown caller))
          ({ a with stopWaiters := a.stopWaiters ++ [caller] }.dispatch w event) :=
      fun hnext hnone => of_transition h.published hnext fun _ => .settled (hquiet hnone)
    unfold onCommand onShutdown
    dsimp only
    split
    · exact .same rfl rfl id
    · exact .same rfl rfl id
    · exact .same rfl rfl id
    next hpub =>
      rw [h.published] at hpub
      exact hstop (handle_stop (by rw [hpub]; rfl)) (h.free (by rw [hpub]; rfl)).still
    next hpub =>
      rw [h.published] at hpub
      exact hstop (handle_stop (by rw [hpub]; rfl)) (h.free (by rw [hpub]; rfl)).still
    split
    next hnone =>
      simp only [Bool.and_eq_true, Option.isNone_iff_eq_none] at hnone
      exact hstop (handle_stopUnready _) hnone.1
    · exact .same rfl rfl id
  | forceStop caller =>
    unfold onCommand onForceStop
    dsimp only
    split
    · exact .same rfl rfl id
    split
    · exact .same rfl rfl id
    next hs =>
      exact .settled ⟨of_transition (P := (·.waiters = [])) h.published (handle_forceStop hs)
        fun _ => rfl, rfl⟩
  | activity =>
    exact of_transition h.published (handle_activity _) fun _ => .same rfl rfl hactive

/-- Whoever parked during a stop still is when the stop lands. -/
structure Waiting (a b : LifecycleActor) : Prop where
  waiters : b.waiters = a.waiters
  budget : b.pendingTimeout = a.pendingTimeout
  stopped : a.state.isBooting = false
  published : b.published = b.state.toPublic

/-- No boot is in flight. -/
def Bootless (b : LifecycleActor) : Prop :=
  ∀ task, b.inflight = some task → task.kind.budget = none

theorem bootless_of_still (h : a.inflight = none) : Bootless a :=
  fun _ htask => absurd (h.symm.trans htask) nofun

/-- What `start_if_pending` finds after a completion: only a deferred stop may be in flight. -/
def Found (a b : LifecycleActor) : Prop := Bootless b ∧ (Settled b ∨ Waiting a b)

theorem found_onOutcome (h : a.Inv) {c : Completion} (hepoch : c.epoch = a.epoch)
    (hpos : (Input.internal c).Possible a) (hunclaimed : unclaimed a (w, .internal c) = true) :
    Found a ((a.reported c.epoch).finished.onOutcome w c.outcome) := by
  obtain ⟨kind, hfits, hreports⟩ := h.task_of_report hpos hepoch
  have hs := state_of_reports hfits hreports
  obtain ⟨epoch, outcome⟩ := c
  cases hepoch
  have hpub := h.free_finished.published
  cases outcome with
  | agentReady =>
    have hnone : a.pendingTimeout = none := by simpa [unclaimed] using hunclaimed
    obtain ⟨b, heq⟩ := dispatch_eq w hpub (handle_agentReady hs)
    unfold onOutcome
    dsimp only
    rw [heq]
    split
    · refine of_transition (P := Found a) rfl (handle_stop rfl) fun _ =>
        ⟨fun task htask => ?_, .inl ⟨rfl, hnone⟩⟩
      cases htask
      rfl
    · exact ⟨bootless_of_still rfl, .inl ⟨rfl, hnone⟩⟩
  | bootFailed reason =>
    have hnone : a.pendingTimeout = none := by simpa [unclaimed] using hunclaimed
    obtain ⟨b, heq⟩ := dispatch_eq w hpub (handle_failure a.state)
    unfold onOutcome
    dsimp only
    rw [heq]
    split <;> exact ⟨bootless_of_still rfl, .inl ⟨rfl, hnone⟩⟩
  | stopped =>
    exact of_transition (P := fun x => Found a (x.answerStopWaiters _)) hpub (handle_stopped hs)
      fun _ => ⟨bootless_of_still rfl, .inr ⟨rfl, rfl, hs ▸ rfl, rfl⟩⟩
  | removed =>
    exact of_transition (P := fun x => Found a (x.answerStopWaiters _)) hpub (handle_removed hs)
      fun _ => ⟨bootless_of_still rfl, .inr ⟨rfl, rfl, hs ▸ rfl, rfl⟩⟩
  | stopFailed reason =>
    exact of_transition (P := fun x => Found a (x.answerStopWaiters _)) hpub (handle_failure _)
      fun _ => ⟨bootless_of_still rfl, .inr ⟨rfl, rfl, hs ▸ rfl, rfl⟩⟩
  | removeFailed reason =>
    obtain ⟨b, heq⟩ := dispatch_eq w hpub (handle_failure a.state)
    unfold onOutcome
    dsimp only
    rw [heq]
    exact ⟨bootless_of_still rfl, .inl ⟨rfl, rfl⟩⟩

theorem startIfPending_eq (hw : w.storage = none) :
    a.startIfPending w = match a.deferredTimeout w with
      | some timeoutMs =>
        ({ a with pendingTimeout := none }).dispatch w (.start (decideCreate w) timeoutMs)
      | none => a := by
  unfold startIfPending deferredTimeout
  rw [hw]
  cases a.waiters <;> cases a.published.needsStart <;> cases a.inflight <;> rfl

theorem of_deferredTimeout {timeoutMs : Nat} (h : a.deferredTimeout w = some timeoutMs) :
    a.waiters ≠ [] ∧ a.published.needsStart = true ∧
      timeoutMs = a.pendingTimeout.getD w.startupTimeoutMs := by
  unfold deferredTimeout at h
  split at h
  next hfires => exact ⟨hfires.2.1, hfires.2.2.1, (Option.some.inj h).symm⟩
  · cases h

/-- A dispatched start launches a boot with the timeout it was given. -/
theorem launched_start (create : Bool) (timeoutMs : Nat) (hpub : a.published = a.state.toPublic)
    (hneeds : a.published.needsStart = true) :
    (a.dispatch w (.start create timeoutMs)).waiters = a.waiters ∧
      ∀ task, (a.dispatch w (.start create timeoutMs)).inflight = some task →
        task.kind.budget = some timeoutMs := by
  rw [hpub] at hneeds
  refine of_transition (P := fun x => x.waiters = a.waiters ∧ ∀ task, x.inflight = some task →
    task.kind.budget = some timeoutMs) hpub (handle_start hneeds create timeoutMs) fun _ => ?_
  refine ⟨rfl, fun task htask => ?_⟩
  cases htask
  change (if a.storageStart = true then TaskKind.storageBoot timeoutMs
    else .boot create timeoutMs).budget = some timeoutMs
  split <;> rfl

/-- A boot in flight after a completion is one that `start_if_pending` has dispatched. -/
theorem deferredTimeout_of_boot {b : LifecycleActor} (hbootless : Bootless b)
    (hpub : b.waiters ≠ [] → b.published = b.state.toPublic) {task : Task} {timeoutMs : Nat}
    (htask : (b.startIfPending w).inflight = some task)
    (hbudget : task.kind.budget = some timeoutMs) :
    b.deferredTimeout w = some timeoutMs ∧ (b.startIfPending w).waiters = b.waiters := by
  have hno : b.inflight = some task → False := fun h =>
    absurd ((hbootless task h).symm.trans hbudget) nofun
  cases hw : w.storage with
  | some error =>
    unfold startIfPending at htask
    rw [hw] at htask
    exact (hno htask).elim
  | none =>
    rw [startIfPending_eq hw] at htask ⊢
    split at htask
    next t hdeferred =>
      obtain ⟨hne, hneeds, -⟩ := of_deferredTimeout hdeferred
      obtain ⟨hwaiters, hlaunched⟩ := launched_start (w := w)
        (a := { b with pendingTimeout := none }) (decideCreate w) t (hpub hne) hneeds
      have ht : t = timeoutMs := Option.some.inj ((hlaunched task htask).symm.trans hbudget)
      rw [hdeferred, ← ht]
      exact ⟨rfl, hwaiters⟩
    · exact (hno htask).elim

theorem turn_onInternal (h : a.Inv) (c : Completion) (hpos : (Input.internal c).Possible a)
    (hunclaimed : unclaimed a (w, .internal c) = true) : Turn a i (a.onInternal w c) := by
  unfold onInternal
  dsimp only
  split
  · exact .same rfl rfl id
  rename_i hepoch
  cases hw : w.storage with
  | some error =>
    unfold startIfPending
    rw [hw]
    exact .settled ⟨rfl, rfl⟩
  | none =>
    have hfound := (found_onOutcome h (not_not.mp hepoch) hpos hunclaimed).2
    rw [startIfPending_eq hw]
    split
    next hdeferred =>
      obtain ⟨hne, hneeds, -⟩ := of_deferredTimeout hdeferred
      rcases hfound with hsettled | hwaiting
      · exact absurd hsettled.1 hne
      · exact turn_start hwaiting.published hneeds rfl
    · rcases hfound with hsettled | hwaiting
      · exact .settled hsettled
      · exact .same hwaiting.waiters hwaiting.budget (by rw [hwaiting.stopped]; nofun)

theorem turn_react (h : a.Inv) (hidle : a.inflight = none → a.pendingTimeout = none)
    (hpos : i.2.Possible a) (hunclaimed : unclaimed a i = true) : Turn a i (a.react i) := by
  obtain ⟨w, i⟩ := i
  cases i with
  | command c => exact turn_onCommand h hidle c
  | internal c => exact turn_onInternal h c hpos hunclaimed
  | idleTick =>
    unfold react onIdleTick
    dsimp only
    split
    · exact .same rfl rfl id
    next hgate =>
      have hs := h.running hgate
      split
      · exact of_transition h.published (handle_idleTimeout hs) fun _ =>
          .same rfl rfl (by rw [hs]; nofun)
      · exact .same rfl rfl id
  | livenessTick =>
    unfold react onLivenessTick
    dsimp only
    split
    next hgate =>
      simp only [Bool.and_eq_true, h.published] at hgate
      exact of_transition h.published (handle_guestReset hgate.1.1 _) fun _ =>
        .boots rfl (hidle (h.free (isReady_inTransition hgate.1.1)).still)
    · exact .same rfl rfl id

end

/-! ## Runs -/

section

variable {config : Config} {i : World × Input} {turns : List (World × Input)}

variable (config turns) in
/-- A recorded budget is that of a parked caller, and whoever parked during a stop recorded one.
-/
structure Recorded : Prop where
  inv : (ran config turns).Inv
  parked : ∀ t, (ran config turns).pendingTimeout = some t →
    Parked config turns (ran config turns) t
  stopping : (ran config turns).waiters ≠ [] →
    (ran config turns).state.isBooting = true ∨ (ran config turns).pendingTimeout ≠ none

theorem ran_concat : ran config (turns ++ [i]) = (ran config turns).react i :=
  History.after_append _ _

theorem Recorded.idle (h : Recorded config turns) (hnone : (ran config turns).inflight = none) :
    (ran config turns).pendingTimeout = none := by
  by_contra hne
  obtain ⟨t, ht⟩ := Option.ne_none_iff_exists'.mp hne
  obtain ⟨-, caller, -, -, -, hcaller, -⟩ := h.parked t ht
  exact absurd hcaller ((h.inv.quiet hnone).1.symm ▸ not_mem_nil)

/-- The caller of a budget stays parked for one more turn. -/
theorem Parked.concat {t : Nat} (h : Parked config turns (ran config turns) t)
    (hsub : (ran config turns).waiters ⊆ (ran config (turns ++ [i])).waiters) :
    Parked config (turns ++ [i]) (ran config (turns ++ [i])) t := by
  obtain ⟨w, caller, front, back, rfl, hcaller, hsince⟩ := h
  refine ⟨w, caller, front, back ++ [i], by simp, hsub hcaller, fun back' hback => ?_⟩
  rcases prefix_concat_iff.mp ((mem_inits _ _).mp hback) with rfl | hback
  · rw [← cons_append, ← append_assoc]
    exact hsub hcaller
  · exact hsince back' ((mem_inits _ _).mpr hback)

theorem recorded_concat (h : Recorded config turns) (hpos : i.2.Possible (ran config turns))
    (hunclaimed : unclaimed (ran config turns) i = true) : Recorded config (turns ++ [i]) := by
  have hinv := inv_react h.inv i hpos
  have hturn := turn_react h.inv h.idle hpos hunclaimed
  rw [← ran_concat] at hinv hturn
  cases hturn with
  | settled hsettled =>
    exact ⟨hinv, fun t ht => absurd (hsettled.2.symm.trans ht) nofun, absurd hsettled.1⟩
  | boots hboot hbudget =>
    exact ⟨hinv, fun t ht => absurd (hbudget.symm.trans ht) nofun, fun _ => .inl hboot⟩
  | same hwaiters hbudget hboot =>
    refine ⟨hinv, fun t ht => (h.parked t (hbudget.symm.trans ht)).concat ?_, ?_⟩
    · rw [hwaiters]
      exact Subset.refl _
    · rw [hwaiters, hbudget]
      exact fun hne => (h.stopping hne).imp_left hboot
  | parks w timeoutMs caller hi hwaiters hbudget =>
    subst hi
    refine ⟨hinv, fun t ht => ?_, fun _ => .inr (by rw [hbudget]; exact nofun)⟩
    rw [hbudget] at ht
    cases hearlier : (ran config turns).pendingTimeout with
    | none =>
      rw [hearlier] at ht
      cases ht
      have hcaller := hwaiters ▸ mem_concat_self
      exact ⟨w, caller, turns, [], rfl, hcaller, forall_mem_singleton.mpr hcaller⟩
    | some earlier =>
      -- the first budget stays, and its caller was parked before
      rw [hearlier] at ht
      refine (h.parked t (hearlier.trans ht)).concat ?_
      rw [hwaiters]
      exact subset_append_left _ _

end

theorem recorded_run (config : Config) (inputs : List (World × Input))
    (hpossible : History.Throughout react (new config) (fun a i => i.2.Possible a) inputs)
    (hunclaimed : History.Throughout react (new config) (fun a i => unclaimed a i = true) inputs) :
    Recorded config inputs := by
  induction inputs using reverseRecOn with
  | nil => exact ⟨inv_new config, nofun, absurd rfl⟩
  | append_singleton inputs i ih =>
    rw [History.throughout_concat] at hpossible hunclaimed
    exact recorded_concat (ih hpossible.1 hunclaimed.1) hpossible.2 hunclaimed.2

/-- Where no boot resolves with a budget recorded, a deferred boot uses that of a caller who waits
for it. -/
theorem deferred_boot_budgeted (config : Config) (inputs : List (World × Input))
    (hpossible : History.Throughout react (new config) (fun a i => i.2.Possible a) inputs)
    (hunclaimed : History.Throughout react (new config) (fun a i => unclaimed a i = true) inputs) :
    Budgeted config inputs := by
  rintro pre w c post task timeoutMs rfl a' hepoch htask hbudget
  have hrecorded := recorded_run config pre ((History.throughout_append _ _).mp hpossible).1
    ((History.throughout_append _ _).mp hunclaimed).1
  have hpos : (Input.internal c).Possible (ran config pre) := hpossible _ _ _ rfl
  obtain ⟨hbootless, hfound⟩ :=
    found_onOutcome (w := w) hrecorded.inv hepoch hpos (hunclaimed _ _ _ rfl)
  set b := ((ran config pre).reported c.epoch).finished.onOutcome w c.outcome
  have ha' : a' = b.startIfPending w := by
    have hturn : a' = (ran config pre).onInternal w c := ran_concat
    rw [hturn, onInternal, if_neg (show ¬ c.epoch ≠ ((ran config pre).reported c.epoch).epoch from
      not_not.mpr hepoch)]
  rw [ha'] at htask ⊢
  have hwaits : b.waiters ≠ [] → Waiting (ran config pre) b := fun hne =>
    hfound.resolve_left fun hsettled => hne hsettled.1
  obtain ⟨hdeferred, hkept⟩ :=
    deferredTimeout_of_boot hbootless (fun hne => (hwaits hne).published) htask hbudget
  obtain ⟨hne, -, rfl⟩ := of_deferredTimeout hdeferred
  have hwaiting := hwaits hne
  rcases hrecorded.stopping (hwaiting.waiters ▸ hne) with hboot | hsome
  · exact absurd (hwaiting.stopped.symm.trans hboot) Bool.false_ne_true
  obtain ⟨t, ht⟩ := Option.ne_none_iff_exists'.mp hsome
  obtain ⟨w', caller, front, back, hpre, hcaller, hsince⟩ := hrecorded.parked t ht
  rw [show b.pendingTimeout = some t from hwaiting.budget.trans ht]
  exact .inl ⟨w', caller, front, back, hpre, hkept ▸ hwaiting.waiters ▸ hcaller, hsince⟩

theorem deferred_boot_budgeted_stop : Budgeted ⟨true, 60⟩ bootAndStop :=
  deferred_boot_budgeted ⟨true, 60⟩ bootAndStop (by decide) (by decide)

/-- A caller parks during a boot, which answers it; another one parks during the stop. -/
def outlived : List (World × Input) :=
  [asked calmWorld 1000 1, asked calmWorld 5000 2, (calmWorld, .internal ⟨1, .agentReady⟩),
    (calmWorld, .command (.shutdown 3)), asked calmWorld 7 4]

/-- The boot for the last caller has the budget of one answered before. -/
theorem deferred_boot_outlived :
    let inputs := outlived ++ [(calmWorld, .internal ⟨2, .stopped⟩)]
    History.Throughout react (new ⟨true, 60⟩) (fun a i => i.2.Possible a) inputs ∧
      ¬ Budgeted ⟨true, 60⟩ inputs := by
  refine ⟨by decide, fun h => ?_⟩
  rcases h outlived calmWorld ⟨2, .stopped⟩ [] ⟨3, .boot true 5000⟩ 5000 rfl (by decide)
      (by decide) rfl with
    ⟨w, caller, front, back, hturns, hcaller, -⟩ | ⟨hdefault, -⟩
  · have hturn : asked w 5000 caller ∈ outlived := hturns ▸ mem_append_cons_self
    have hsecond : w = calmWorld ∧ caller = 2 := by simpa [outlived, asked] using hturn
    rw [hsecond.2] at hcaller
    exact absurd hcaller (by decide)
  · exact absurd hdefault (by decide)

end Arcbox.Engine.Lifecycle

import Mathlib.Data.List.Induction
import Arcbox.Computer.Shape

set_option autoImplicit false

/-!
# Computer: a removal along a run

Every command, completion and timer keeps what drives a removal.  So it holds in every
state that a run reaches, whatever the callers ask for and whatever the sub-tasks, the
store and the runtime do.
-/

namespace Arcbox.Computer.Lifecycle

open List

/-- Where the machine stands when the loop begins. -/
def Seeded.state : Seeded → State
  | .fresh => .provisioning
  | .recovered phase => (step .provisioning (.recovered phase)).1
  | .adopted => .ready

theorem Seeded.removing_of_state {seeded : Seeded} (h : seeded.state = .removing) :
    seeded = .recovered .removing := by
  cases seeded with
  | fresh => cases h
  | recovered phase => cases phase <;> first | rfl | cases h
  | adopted => cases h

namespace Actor

/-! ## What leaves the machine and its work alone -/

section Kept

variable (w : World) (a : Actor)

theorem kept_park (kind : Answer) (caller : Caller) : Kept a (a.park kind caller) := by
  unfold park
  split
  · exact ⟨rfl, rfl, rfl, rfl, prefix_append _ _⟩
  · exact ⟨rfl, rfl, rfl, rfl, prefix_rfl⟩

theorem kept_acknowledge (caller : Caller) : Kept a (a.acknowledge caller) := by
  unfold acknowledge
  split
  · exact ⟨rfl, rfl, rfl, rfl, prefix_append _ _⟩
  · split <;> exact ⟨rfl, rfl, rfl, rfl, prefix_append _ _⟩

theorem kept_answer (kind : Answer) : Kept a (a.answer kind) :=
  ⟨rfl, rfl, rfl, rfl, prefix_append _ _⟩

theorem kept_rearm : Kept a (a.rearm w) := (kept_arm w a _ _).trans (kept_arm w _ _ _)

theorem kept_answerLast (result : Except ComputerError Unit) : Kept a (a.answerLast result) := by
  unfold answerLast
  split
  · exact .refl a
  · exact ⟨rfl, rfl, rfl, rfl, prefix_append _ _⟩

theorem kept_finishStop (caller : Caller) : Kept a (a.finishStop w caller) := by
  unfold finishStop
  split
  · exact kept_note a _
  rename_i generation _
  have hwrite := kept_write w a generation .stopped
  split
  next heq =>
    rw [heq] at hwrite
    exact hwrite.trans (kept_note _ _)
  rename_i b heq
  rw [heq] at hwrite
  split
  · exact hwrite.trans (kept_note _ _)
  · have hopen : Kept b { b with journal.blocked := false } := ⟨rfl, rfl, rfl, rfl, prefix_rfl⟩
    exact ((hwrite.trans hopen).trans (kept_clearJournal _)).trans (kept_note _ _)

theorem kept_persistLifecycle : Kept a (a.persistLifecycle w).2 := by
  unfold persistLifecycle
  split
  · exact .refl a
  · exact ⟨rfl, rfl, rfl, rfl, prefix_rfl⟩

theorem kept_onSetLifecycle (update : LifecycleUpdate) (caller : Caller) :
    Kept a (a.onSetLifecycle w update caller) := by
  unfold onSetLifecycle
  split
  · exact kept_note a _
  · exact kept_note a _
  · exact kept_note a _
  have hset : Kept a { a with
      timers.deadlines := updatedDeadlines w.now a.timers.deadlines update } :=
    ⟨rfl, rfl, rfl, rfl, prefix_rfl⟩
  have hkept := hset.trans (kept_persistLifecycle w _)
  split
  rename_i heq
  rw [heq] at hkept
  exact (hkept.trans (kept_rearm w _)).trans (kept_note _ _)

theorem kept_refuseHandedOver (command : Command) : Kept a (a.refuseHandedOver command) := by
  unfold refuseHandedOver
  split <;> first | exact kept_note a _ | exact .refl a

theorem kept_clearDeferred (report : Report) : Kept a (a.clearDeferred report) := by
  have hset : Kept a { a with journal.clearAfterRelease := false } :=
    ⟨rfl, rfl, rfl, rfl, prefix_rfl⟩
  unfold clearDeferred
  dsimp only
  split
  · exact hset.trans (kept_clearJournal _)
  · exact hset

theorem kept_tellCapture (error : ComputerError) : Kept a (a.tellCapture error).1 := by
  unfold tellCapture
  split
  · exact .refl a
  · exact ⟨rfl, rfl, rfl, rfl, prefix_append _ _⟩

theorem kept_answerPendingStop : Kept a a.answerPendingStop := by
  unfold answerPendingStop
  split
  · exact ⟨rfl, rfl, rfl, rfl, prefix_append _ _⟩
  · exact .refl a

theorem kept_keepFailure (error : ComputerError) : Kept a (a.keepFailure error) := by
  unfold keepFailure
  split
  · split <;> exact ⟨rfl, rfl, rfl, rfl, prefix_append _ _⟩
  · exact ⟨rfl, rfl, rfl, rfl, prefix_rfl⟩

theorem kept_onFailed (failure : TaskFailure) : Kept a (a.onFailed failure) := by
  have htold := kept_tellCapture { a with details.error := some failure.error.text } failure.error
  have hset : Kept a { a with details.error := some failure.error.text } :=
    ⟨rfl, rfl, rfl, rfl, prefix_rfl⟩
  exact ((hset.trans htold).trans (kept_answerPendingStop _)).trans (kept_keepFailure _ _)

theorem kept_onReport (report : Report) : Kept a (a.onReport report).1 := by
  cases report with
  | failed failure => exact kept_onFailed a failure
  | captured info =>
    change Kept a { a.answerCapture info with details.pauseSnapshotId := _ }
    unfold answerCapture
    split
    · exact ⟨rfl, rfl, rfl, rfl, prefix_rfl⟩
    · exact ⟨rfl, rfl, rfl, rfl, prefix_append _ _⟩
  | released scope => cases scope <;> exact .refl a
  | restored => exact ⟨rfl, rfl, rfl, rfl, prefix_rfl⟩
  | _ => exact .refl a

theorem kept_failUnwound : Kept a a.failUnwound := by
  unfold failUnwound
  split
  · exact .refl a
  · split
    · exact .refl a
    · exact ⟨rfl, rfl, rfl, rfl, prefix_append _ _⟩

end Kept

section Shape

variable {before : List Note} {started : Prop} {a : Actor}

/-! ## Teardowns that waited -/

theorem state_apply (w : World) (a : Actor) (state : State) (e : Effect) :
    (a.apply w state e).1.state = a.state := by
  cases e with
  | persistPhase phase durability =>
    change (a.persist w phase durability).1.state = a.state
    unfold persist
    split
    · rfl
    · rcases commit_cases w a phase _ durability with ⟨-, h⟩ | ⟨-, -, h, -⟩ <;> exact h.state
  | commitRestored durability =>
    rcases commit_cases w a .ready (.readyWithOutcome a.details.outcome) durability with
      ⟨-, h⟩ | ⟨-, -, h, -⟩ <;> exact h.state
  | forgetRecord recordEnd =>
    rcases forget_cases w a recordEnd with ⟨-, h⟩ | ⟨-, h⟩
    · exact h.state
    · exact h
  | detach =>
    change (a.handOver w).state = a.state
    rcases handOver_cases w a with h | h
    · rw [h]
    · exact h.state
  | abortInflight =>
    have h := preempts_abortInflight w a
    change (a.abortInflight w).1.state = a.state
    generalize a.abortInflight w = r at h ⊢
    cases h with
    | ended _ h | waiting _ h | panicked _ h => exact h.state
  | _ => exact (settled_plain w a state rfl).2.state

theorem state_runEffects (w : World) (state : State) (es : List Effect) (a : Actor) :
    (runEffects w state es a).state = a.state := by
  induction es generalizing a with
  | nil => rfl
  | cons e es ih =>
    have happly := state_apply w a state e
    unfold runEffects
    split <;> rename_i b heq <;> rw [heq] at happly
    · exact (ih b).trans happly
    · exact happly
    · exact happly

/-- A teardown does not move the machine. -/
theorem state_resumeStalled (w : World) (a : Actor) : (a.resumeStalled w).state = a.state := by
  unfold resumeStalled
  split
  · rfl
  rename_i stalled _
  cases stalled.retry with
  | handoff =>
    have hstate := state_apply w { a with work.stalled := none } a.state .abortInflight
    change (abortInflight w _).1.state = _ at hstate
    dsimp only
    split <;> rename_i heq <;> rw [heq] at hstate
    · exact hstate
    · exact (state_runEffects w _ _ _).trans hstate
  | record recordEnd =>
    have hstate := state_apply w { a with work.stalled := none } a.state
      (.forgetRecord recordEnd)
    change (forget w _ recordEnd).1.state = _ at hstate
    dsimp only
    split <;> rename_i heq <;> rw [heq] at hstate
    · exact hstate
    · exact (state_runEffects w _ _ _).trans hstate

/-- The step that a teardown waits for is retried. -/
theorem shaped_resumeStalled (h : Shape before started a) (w : World) (hstalled : a.work.stalled.isSome) :
    Shaped before started ({ a with work.retry := none }.resumeStalled w) := by
  obtain ⟨stalled, hst⟩ := Option.isSome_iff_exists.mp hstalled
  obtain ⟨hs, rfl⟩ := h.parked stalled hst
  intro _
  unfold resumeStalled
  rw [hst]
  dsimp only [waitingTeardown]
  have hcurrent : Current { a.work with retry := none, stalled := none } :=
    ⟨h.current.older, h.current.current⟩
  have hbare : Bare before { a with work := { a.work with retry := none, stalled := none } } :=
    ⟨h.since, h.queued, rfl, rfl, h.stalledOn, hcurrent⟩
  have hpre := preempts_abortInflight w
    { a with work := { a.work with retry := none, stalled := none } }
  generalize ({ a with work := { a.work with retry := none, stalled := none } } :
    Actor).abortInflight w = r at hpre ⊢
  cases hpre with
  | ended a₁ h' => exact (hbare.ended h').removal_tail h'.inflight w started
  | waiting a₁ h' =>
    exact shape_of_parked (h.since.trans h'.log) (h'.state.trans hs) (h'.queued.symm ▸ h.queued) rfl
      h'.stalledOn ⟨(h'.current hcurrent).older, (h'.current hcurrent).current⟩ (.inl h'.retry)
  | panicked a₁ h' =>
    have hbroken := h'.broken h.since
    exact shape_of_parked hbroken.grows (h'.state.trans hs) (h'.queued.symm ▸ h.queued) rfl
      (h'.stalledOn.trans h.stalledOn)
      ⟨(h'.current hcurrent).older, (h'.current hcurrent).current⟩ (.inr ⟨h'.kind, hbroken⟩)

/-- A teardown that came to rest is driven again. -/
theorem shaped_restartTeardown (h : Shape before started a) (w : World) (hs : a.state = .removing)
    (hretry : a.work.retry = none) : Shaped before started (a.restartTeardown w) := by
  unfold restartTeardown
  split
  next hsome =>
    have hresumed := shaped_resumeStalled h w hsome
    rw [← hretry] at hresumed
    exact hresumed
  rename_i hnone
  refine shaped_of_ran started ⟨h.since, h.queued, Option.not_isSome_iff_eq_none.mp hnone, hretry,
    h.stalledOn, h.current⟩ (ran_removal w a.state a) (fun _ => rfl) (fun _ => hs)
    fun _ _ heq => ?_
  cases heq

/-! ## Commands -/

section

variable (h : Shaped before started a) (w : World)

include h

theorem shaped_onRemove (force : Bool) (caller : Caller) :
    Shaped before started (a.onRemove w force caller) := by
  have hparked : Shaped before started { a with desk.waiters := a.desk.waiters ++ [(.removed, caller)] } :=
    h.kept ⟨rfl, rfl, rfl, rfl, prefix_rfl⟩
  have hshape := shaped_dispatch hparked w (e := .remove force) fun _ => Event.noConfusion
  unfold onRemove
  split <;> rename_i b heq <;> rw [heq] at hshape
  · exact hshape
  split
  next hs =>
    split
    next hrest =>
      exact shaped_restartTeardown (hshape (by rw [hs]; exact State.noConfusion)) w hs
        (Option.isNone_iff_eq_none.mp hrest.2)
    · exact hshape
  next hs =>
    split
    · split
      · exact shaped_of_gone ((state_resumeStalled w b).trans hs)
      · exact hshape
    · exact hshape.kept (kept_answer _ _)
  · exact hshape.kept (kept_answerLast _ _)

theorem shaped_onProvision (provision : Provision) (outcome : ComputerProvisionOutcome)
    (caller : Caller) : Shaped before started (a.onProvision w provision outcome caller) := by
  have hset : Shaped before started { a with details.outcome := outcome } :=
    h.kept ⟨rfl, rfl, rfl, rfl, prefix_rfl⟩
  have hshape := shaped_dispatch hset w (e := .provision provision) fun _ => Event.noConfusion
  unfold onProvision
  split <;> rename_i heq <;> rw [heq] at hshape
  · exact hshape.kept (kept_note _ _)
  · split
    · exact hshape.kept (kept_park _ _ _)
    · exact hshape.kept (kept_acknowledge _ _)

theorem shaped_onCheckpoint (spec : CaptureSpec) (caller : Caller) :
    Shaped before started (a.onCheckpoint w spec caller) := by
  have hset : Shaped before started { a with details.capture := some spec } :=
    h.kept ⟨rfl, rfl, rfl, rfl, prefix_rfl⟩
  have hshape := shaped_dispatch hset w (e := .checkpoint) fun _ => Event.noConfusion
  unfold onCheckpoint
  split <;> rename_i heq <;> rw [heq] at hshape
  · exact hshape.kept ⟨rfl, rfl, rfl, rfl, prefix_rfl⟩
  · exact hshape.kept ⟨rfl, rfl, rfl, rfl, prefix_append _ _⟩

theorem shaped_onPause (reason : PauseReason) (caller : Caller) :
    Shaped before started (a.onPause w reason caller) := by
  have hshape := shaped_dispatch h w (e := .pause reason) fun _ => Event.noConfusion
  unfold onPause
  split <;> rename_i heq <;> rw [heq] at hshape
  · exact hshape.kept (kept_park _ _ _)
  · exact hshape.kept (kept_note _ _)

theorem shaped_onResume (caller : Caller) : Shaped before started (a.onResume w caller) := by
  have hshape := shaped_dispatch h w (e := .resume) fun _ => Event.noConfusion
  unfold onResume
  split <;> rename_i heq <;> rw [heq] at hshape
  · exact hshape.kept (kept_park _ _ _)
  · exact hshape.kept (kept_note _ _)

theorem shaped_onStop (budget : Nat) (caller : Caller) :
    Shaped before started (a.onStop w budget caller) := by
  have hshape := shaped_dispatch h w (e := .stop (budgetMs budget)) fun _ => Event.noConfusion
  unfold onStop
  split <;> rename_i heq <;> rw [heq] at hshape
  · exact hshape.kept (kept_park _ _ _)
  split
  · exact hshape.kept ⟨rfl, rfl, rfl, rfl, prefix_rfl⟩
  split
  · exact hshape.kept (kept_park _ _ _)
  · exact hshape.kept (kept_finishStop w _ _)
  · exact hshape.kept (kept_note _ _)

theorem shaped_onDetach (caller : Caller) : Shaped before started (a.onDetach w caller) := by
  have hset : Shaped before started { a with desk := { a.desk with
      answerError := none, unconfirmed := none
      waiters := a.desk.waiters ++ [(.detached, caller)] } } :=
    h.kept ⟨rfl, rfl, rfl, rfl, prefix_rfl⟩
  have hshape := shaped_dispatch hset w (e := .detach) fun _ => Event.noConfusion
  unfold onDetach
  split <;> rename_i heq <;> rw [heq] at hshape
  · exact hshape
  · exact hshape.kept (kept_answerLast _ _)

theorem shaped_onClaimWorkload (claim : WorkloadClaim) (caller : Caller) :
    Shaped before started (a.onClaimWorkload w claim caller) := by
  have hshape := shaped_dispatch h w (e := .claimWorkload claim) fun _ => Event.noConfusion
  unfold onClaimWorkload
  split <;> rename_i heq <;> rw [heq] at hshape <;> exact hshape.kept (kept_note _ _)

theorem shaped_onVmExited : Shaped before started (a.onVmExited w) := by
  refine shaped_dispatch ?_ w fun _ => Event.noConfusion
  exact h.kept ⟨rfl, rfl, rfl, rfl, prefix_rfl⟩

theorem shaped_onCommand (command : Command) : Shaped before started (a.onCommand w command) := by
  unfold onCommand
  split
  · exact shaped_onDetach h w _
  · exact h.kept (kept_refuseHandedOver _ _)
  · exact shaped_onProvision h w _ _ _
  · exact shaped_onCheckpoint h w _ _
  · exact shaped_onPause h w _ _
  · exact shaped_onResume h w _
  · exact shaped_onStop h w _ _
  · exact shaped_onRemove h w _ _
  · exact shaped_onDetach h w _
  · exact shaped_onClaimWorkload h w _ _
  · exact shaped_dispatch h w fun _ => Event.noConfusion
  · exact shaped_dispatch h w fun _ => Event.noConfusion
  · exact h.kept (kept_onSetLifecycle w _ _ _)
  · exact shaped_onVmExited h w

/-! ## Completions -/

theorem shaped_servePendingStop : Shaped before started (a.servePendingStop w) := by
  unfold servePendingStop
  split
  · exact h
  split
  · exact h
  have hset : Shaped before started { a with desk.pendingStop := none } :=
    h.kept ⟨rfl, rfl, rfl, rfl, prefix_rfl⟩
  dsimp only
  split
  · exact shaped_dispatch hset w fun _ => Event.noConfusion
  · exact shaped_dispatch hset w fun _ => Event.noConfusion
  · exact hset.kept (kept_answer _ _)

end

theorem onReport_ne_recovered (report : Report) (phase : PersistPhase) :
    (a.onReport report).2 ≠ some (.recovered phase) := by
  cases report with
  | failed failure =>
    intro heq
    have hevent := Option.some.inj heq
    cases hkind : failure.kind <;> rw [hkind] at hevent <;> cases hevent
  | released scope => cases scope <;> exact nofun
  | _ => exact nofun

theorem onReport_full {report : Report} (h : (Task.release .full).mayReport report) :
    (a.onReport report).2 = some .removeDone ∨ ∃ failure, report = .failed failure := by
  cases report with
  | failed failure => exact .inr ⟨failure, rfl⟩
  | released scope =>
    cases scope with
    | full => exact .inl rfl
    | runtime | keepDisk => cases h
  | _ => cases h

/-- The actor once the sub-task has been taken: as before, but for a removal that the
sub-task drove. -/
theorem shaped_takeInflight (h : Shaped before started a) (w : World)
    (hfresh : ∀ t ∈ a.work.live, t.1 ≠ a.work.epoch) :
    (a.state = .removing ∧ ∃ queued, a.takeInflight w =
        { a with work.inflight := none, queued := queued } ∧
        ∀ e ∈ queued, e = .failure ∨ e = .detached) ∨
      Shaped before started (a.takeInflight w) := by
  by_cases hs : a.state = .removing
  · left
    have hqueued := (h (by rw [hs]; exact State.noConfusion)).queued
    refine ⟨hs, ?_⟩
    unfold takeInflight
    split
    · obtain ⟨queued, hdispatch, hq⟩ := dispatch_removing (e := .resourcesHandedOff)
        (a := { a with work.inflight := none }) w hs hqueued Event.noConfusion
      exact ⟨queued, congrArg Prod.fst hdispatch, hq⟩
    · exact ⟨a.queued, rfl, hqueued⟩
  right
  have htaken : Shaped before started { a with work := { a.work with inflight := none } } :=
    fun hgone => ⟨(h hgone).since, (h hgone).queued, (h hgone).parked, (h hgone).retry,
      (h hgone).stalledOn, ⟨(h hgone).current.older, fun t ht heq => absurd heq (hfresh t ht)⟩,
      fun hs' => absurd hs' hs⟩
  unfold takeInflight
  split
  · exact shaped_dispatch htaken w fun _ => Event.noConfusion
  · exact htaken

theorem kind_of_task {task : Task} (h : a.work.inflight.map (·.task) = some task) :
    a.kind = some task.kind := by
  unfold Actor.kind
  cases hin : a.work.inflight with
  | none =>
    rw [hin] at h
    cases h
  | some p =>
    rw [hin] at h
    cases h
    rfl

/-- A removal whose sub-task was taken is driven by its retry, unless the release of
everything has failed. -/
theorem shape_taken (h : Shape before started a) (hs : a.state = .removing) {task : Task}
    (htask : a.work.inflight.map (·.task) = some task)
    (hfresh : ∀ t ∈ a.work.live, t.1 ≠ a.work.epoch) {queued : List Event}
    (hqueued : ∀ e ∈ queued, e = .failure ∨ e = .detached)
    (hbroken : task = .release .full → Broken before a.log) :
    Shape before started { a with work.inflight := none, queued := queued } := by
  refine ⟨h.since, hqueued, h.parked, h.retry, h.stalledOn,
    ⟨h.current.older, fun t ht heq => absurd heq (hfresh t ht)⟩, fun _ => ?_⟩
  have hkind := kind_of_task htask
  rcases h.driven hs with (hfull | hretry) | ⟨hnone, -⟩
  · refine .inr ⟨rfl, fun _ => hbroken ?_⟩
    rw [hkind] at hfull
    cases task <;> cases hfull
    rfl
  · exact .inl (.inr hretry)
  · rw [hkind] at hnone
    cases hnone

theorem shaped_onCurrent (h : Shaped before started a) (w : World) {task : Task}
    (htask : a.state ≠ .gone → a.work.inflight.map (·.task) = some task)
    (hfresh : ∀ t ∈ a.work.live, t.1 ≠ a.work.epoch) {report : Report}
    (hreport : task.mayReport report) : Shaped before started (a.onCurrent w report) := by
  have hnoted := h.kept (kept_note a (.reported (a.work.inflight.map (·.task)) report))
  refine shaped_servePendingStop ?_ w
  generalize htaken : (a.note _).takeInflight w = taken
  have hkept := (kept_clearDeferred taken report).trans (kept_onReport _ report)
  -- The end of a removal is heard in any condition; otherwise the shape holds when it is heard.
  have hready : ((taken.clearDeferred report).onReport report).1.state = .removing ∧
        ((taken.clearDeferred report).onReport report).2 = some .removeDone ∨
      Shaped before started ((taken.clearDeferred report).onReport report).1 := by
    rcases shaped_takeInflight hnoted w hfresh with ⟨hs, queued, htake, hq⟩ | htake
    · rw [htaken] at htake
      by_cases hdone : ((taken.clearDeferred report).onReport report).2 = some .removeDone
      · refine .inl ⟨hkept.state.trans ?_, hdone⟩
        rw [htake]
        exact hs
      right
      refine Shaped.kept (fun hgone => ?_) hkept
      rw [htake]
      have hlive : a.state ≠ .gone := fun hg => State.noConfusion (hs.symm.trans hg)
      refine shape_taken (hnoted hlive) hs (htask hlive) hfresh hq ?_
      rintro rfl
      obtain ⟨failure, rfl⟩ := (onReport_full hreport).resolve_left hdone
      refine ⟨a.log, _, (h hlive).since, ?_, prefix_rfl⟩
      rw [htask hlive]
      rfl
    · rw [htaken] at htake
      exact .inr (htake.kept hkept)
  have hne := onReport_ne_recovered (a := taken.clearDeferred report) report
  generalize (taken.clearDeferred report).onReport report = told at hready hne
  obtain ⟨b, event⟩ := told
  cases event with
  | none => exact hready.resolve_left fun hend => by cases hend.2
  | some e =>
    refine (shaped_dispatch_of w (fun phase heq => hne phase (congrArg some heq))
      (hready.imp_left fun hend => ⟨hend.1, Option.some.inj hend.2⟩)).kept (kept_failUnwound _)

/-! ## Runs -/

variable (w : World) (seed : ComputerSeed)

theorem run_concat (inputs : List (World × Input)) (input : World × Input) :
    run w seed (inputs ++ [input]) = (run w seed inputs).react input.1 input.2 := by
  unfold run
  rw [foldl_append]
  rfl

/-- The shape does not depend on a sub-task's handoff, nor on completions that are still
to come. -/
theorem Shaped.of_work (h : Shaped before started a) {inflight : Option Preemptible}
    {live : List (Nat × Task)} (hkind : inflight.map (·.task) = a.work.inflight.map (·.task))
    (hlive : live.Sublist a.work.live) :
    Shaped before started { a with work := { a.work with inflight := inflight, live := live } } := by
  have hkind' : ({ a with work := { a.work with inflight := inflight, live := live } } :
      Actor).kind = a.kind := by
    have hmap (o : Option Preemptible) : o.map (·.task.kind) = (o.map (·.task)).map Task.kind := by
      cases o <;> rfl
    change inflight.map (·.task.kind) = a.work.inflight.map (·.task.kind)
    rw [hmap, hmap, hkind]
  intro hgone
  have h := h hgone
  refine ⟨h.since, h.queued, h.parked, h.retry, h.stalledOn,
    ⟨fun t ht => h.current.older t (hlive.subset ht),
      fun t ht heq => hkind.trans (h.current.current t (hlive.subset ht) heq)⟩, ?_⟩
  rw [Driven, hkind']
  exact h.driven

theorem shaped_select (h : Shaped before started a) (w : World) (input : Input) :
    (a.select w input).exited ∨ Shaped before started (a.select w input) := by
  cases input with
  | command command => exact .inr (shaped_onCommand h w command)
  | completion epoch report =>
    right
    unfold select
    dsimp only
    split
    · exact h
    rename_i n task hfind
    split
    next hreport =>
      have hmem := mem_of_find?_eq_some hfind
      have hepoch : n = epoch := by simpa using List.find?_some hfind
      subst hepoch
      have hset : Shaped before started { a with work := { a.work with
          live := a.work.live.filter fun t => t.1 != n } } :=
        h.of_work rfl filter_sublist
      unfold onCompletion
      split
      · exact hset
      rename_i hcurrent
      have hcurrent : n = a.work.epoch := Decidable.not_not.mp hcurrent
      refine shaped_onCurrent hset w
        (fun hgone => (h hgone).current.current _ hmem hcurrent) ?_ hreport
      intro t ht heq
      have hne : t.1 ≠ n := by simpa using (mem_filter.mp ht).2
      exact hne (heq.trans hcurrent.symm)
    · exact h
  | handoff landed =>
    right
    unfold select
    dsimp only
    split
    next task htask =>
      have hset (handoff : Handoff) : Shaped before started
          { a with work := { a.work with inflight := some ⟨task, handoff⟩ } } :=
        h.of_work (by rw [htask]; rfl) (List.Sublist.refl _)
      split
      · exact shaped_dispatch (hset .abortable) w fun _ => Event.noConfusion
      · exact hset .joinOnly
    · exact h
  | ttl | idle =>
    right
    unfold select
    dsimp only
    split
    · refine shaped_dispatch ?_ w fun _ => Event.noConfusion
      exact h.kept ⟨rfl, rfl, rfl, rfl, prefix_rfl⟩
    · exact h
  | retry =>
    right
    unfold select
    dsimp only
    split
    next hretry =>
      by_cases hgone : a.state = .gone
      · exact shaped_of_gone ((state_resumeStalled w { a with work.retry := none }).trans hgone)
      · exact shaped_resumeStalled (h hgone) w ((h hgone).retry hretry)
    · exact h
  | timersChanged => exact .inr (h.kept (kept_rearm w a))
  | closed => exact .inl rfl

theorem shaped_react (h : Shaped before started a) (w : World) (input : Input) :
    (a.react w input).exited ∨ Shaped before started (a.react w input) := by
  unfold react
  split
  · exact .inr h
  dsimp only
  split
  · exact .inl ‹_›
  split
  · exact .inl rfl
  next hexited _ =>
    exact .inr ((shaped_select h w input).resolve_left hexited)
/-- An input that does not end the machine ends nothing else. -/
theorem react_of_select {w : World} {input : Input} (hexited : a.exited = false)
    (hselect : (a.select w input).exited = false) (hstate : (a.select w input).state ≠ .gone) :
    a.react w input = a.select w input := by
  unfold react
  rw [hexited]
  dsimp only
  rw [hselect, if_neg Bool.false_ne_true, if_neg Bool.false_ne_true,
    if_neg fun h => hstate h.1]

theorem start_eq : start w seed = { new seed with state := seed.seeded.state }.rearm w := by
  have hsilent {e : Event} {s' : State} (h : step (new seed).state e = (s', [])) :
      ((new seed).dispatch w e).1 = { new seed with state := s' } := by
    unfold dispatch
    dsimp only
    rw [handle_of_step h]
    rfl
  unfold start
  split
  next hs =>
    rw [hs]
    rfl
  next phase hs =>
    have hstep : step (new seed).state (.recovered phase)
        = ((Seeded.recovered phase).state, []) := by
      cases phase <;> rfl
    rw [hsilent hstep, hs]
  rename_i hs
  have hstep : step (new seed).state .adopted = (.ready, []) := rfl
  rw [hsilent hstep, hs]
  rfl

theorem shaped_start : Shaped [] False (start w seed) := by
  rw [start_eq]
  refine Shaped.kept (fun _ => ?_) (kept_rearm w _)
  exact ⟨ nil_prefix, fun e he => (by cases he), fun stalled hst => (by cases hst),
    fun hr => (by cases hr), rfl, ⟨fun t ht => (by cases ht), fun t ht => (by cases ht)⟩,
    fun _ => .inr ⟨rfl, False.elim⟩⟩

/-- From any moment of a run on. -/
theorem shaped_foldl (h : a.exited ∨ Shaped before started a) (inputs : List (World × Input)) :
    (inputs.foldl (fun a input => a.react input.1 input.2) a).exited ∨
      Shaped before started (inputs.foldl (fun a input => a.react input.1 input.2) a) := by
  refine foldlRecOn (motive := fun a => a.exited ∨ Shaped before started a) _ _ h ?_
  rintro a (hexited | hshape) input -
  · exact .inl (by unfold react; rw [if_pos hexited]; exact hexited)
  · exact shaped_react hshape input.1 input.2

theorem shaped_run (inputs : List (World × Input)) : (run w seed inputs).exited ∨
    Shaped [] False (run w seed inputs) :=
  shaped_foldl (.inr (shaped_start w seed)) inputs

/-- The same actor seen from now on. -/
theorem Shaped.cut (h : Shaped before started a) :
    Shaped a.log (a.state = .removing → a.Driven) a := fun hgone => by
  have h := h hgone
  refine ⟨prefix_rfl, h.queued, h.parked, h.retry, h.stalledOn, h.current, fun hs => ?_⟩
  exact (h.driven hs).elim .inl fun hrest =>
    (em a.Driven).imp_right fun hnot => ⟨hrest.1, fun hcut => absurd (hcut hs) hnot⟩

end Shape

/-! ## A removal that has started -/

/-- A teardown is taken up, unless the store refuses to record `Removing`. -/
structure Redriven (a a' : Actor) : Prop where
  state : a'.state = a.state
  exited : a'.exited = a.exited
  driven : a'.Driven ∨ a.log ++ [.wrote .removing .refused] <+: a'.log

theorem redriven_removal_tail (w : World) (a : Actor) :
    Redriven a (runEffects w .removing Effects.removal.tail a) := by
  rcases removal_tail w .removing a with hsettled | ⟨hrefused, hlog⟩
  · refine ⟨hsettled.state, hsettled.exited, .inl (.inl ?_)⟩
    rw [hsettled.kind]
    rfl
  · exact ⟨hrefused.state, hrefused.exited, .inr hlog⟩

theorem redriven_restartTeardown {before : List Note} {started : Prop} {a : Actor}
    (h : Shape before started a) (w : World)
    (hs : a.state = .removing) (hinflight : a.work.inflight = none) :
    Redriven a (a.restartTeardown w) := by
  have habort (b : Actor) (hb : b.work.inflight = none) :
      b.abortInflight w = ({ b with work.epoch := b.work.epoch + 1 }, .proceed) := by
    unfold abortInflight
    rw [hb]
  unfold restartTeardown
  split
  next hsome =>
    obtain ⟨stalled, hstalled⟩ := Option.isSome_iff_exists.mp hsome
    obtain ⟨-, rfl⟩ := h.parked stalled hstalled
    unfold resumeStalled
    rw [hstalled]
    dsimp only
    rw [habort { a with work.stalled := none } hinflight]
    have htail := redriven_removal_tail w { a with
      work := { a.work with stalled := none, epoch := a.work.epoch + 1 } }
    exact ⟨htail.state, htail.exited, htail.driven⟩
  have hrun : runEffects w .removing Effects.removal a
      = drained w .removing Effects.removal.tail (a.abortInflight w) := rfl
  rw [hs, hrun, habort a hinflight]
  have htail := redriven_removal_tail w { a with work.epoch := a.work.epoch + 1 }
  exact ⟨htail.state, htail.exited, htail.driven⟩

/-- A `Remove` takes up a teardown that came to rest. -/
theorem redriven_onRemove {before : List Note} {started : Prop} {a : Actor}
    (h : Shape before started a) (w : World)
    (force : Bool) (caller : Caller) (hs : a.state = .removing) :
    Redriven a (a.onRemove w force caller) := by
  obtain ⟨queued, hdispatch, hq⟩ := dispatch_removing (e := .remove force)
    (a := { a with desk.waiters := a.desk.waiters ++ [(.removed, caller)] }) w hs h.queued
    Event.noConfusion
  have hparked : Shape before started { a with
      desk.waiters := a.desk.waiters ++ [(.removed, caller)], queued := queued } :=
    ⟨h.since, hq, h.parked, h.retry, h.stalledOn, h.current, h.driven⟩
  unfold onRemove
  rw [hdispatch]
  dsimp only
  split
  · split
    next hrest =>
      have hdriven := redriven_restartTeardown hparked w hs
        (Option.isNone_iff_eq_none.mp hrest.1)
      exact ⟨hdriven.state, hdriven.exited, hdriven.driven⟩
    rename_i hrest
    -- Nothing was done, so something is in flight or scheduled.
    refine ⟨rfl, rfl, .inl ?_⟩
    rcases h.driven hs with hdriven | ⟨hnone, -⟩
    · exact hdriven
    cases hretry : a.work.retry with
    | some _ => exact .inr (by rw [hretry]; rfl)
    | none =>
      refine absurd ⟨?_, by rw [hretry]; rfl⟩ hrest
      rw [← Option.not_isSome, ← isSome_kind, hnone]
      rfl
  next hg =>
    exact absurd (hs.symm.trans hg) State.noConfusion
  next hne _ =>
    exact absurd hs hne

/-- Take any moment of a run at which no removal is under way, or one is being driven.  In every
later state in which a removal is under way the release of everything is in flight or a retry is
scheduled, unless since that moment a preempted sub-task panicked, the write of `Removing` was
refused or the full release failed.  The start is such a moment unless the record was recovered in
`Removing`, and whatever happened before, a `Remove` makes one, unless the store refuses that
write. -/
theorem removal_keeps_driven (w : World) (seed : ComputerSeed)
    (inputs later : List (World × Input)) (hexited : (run w seed (inputs ++ later)).exited = false)
    (hstate : (run w seed (inputs ++ later)).state = .removing) :
    let a := run w seed inputs
    let a' := run w seed (inputs ++ later)
    ((a.state = .removing → a.Driven) →
      (∀ n ∈ a'.log.drop a.log.length, n.breaksRemoval = false) → a'.Driven) ∧
    (seed.seeded ≠ .recovered .removing → (run w seed []).state ≠ .removing) ∧
    ∀ w' force caller,
      let b := run w seed (inputs ++ later ++ [(w', .command (.remove force caller))])
      b.Driven ∨ a'.log ++ [.wrote .removing .refused] <+: b.log := by
  intro a a'
  have hnotGone : a'.state ≠ .gone := by
    rw [hstate]
    exact State.noConfusion
  have hnotExited : ¬ a'.exited := by
    rw [hexited]
    exact Bool.false_ne_true
  refine ⟨fun hcut hlog => ?_, fun hseed hs => hseed (Seeded.removing_of_state ?_),
    fun w' force caller => ?_⟩
  · have hrun : later.foldl (fun a input => a.react input.1 input.2) a = a' :=
      foldl_append.symm
    have hshaped := shaped_foldl ((shaped_run w seed inputs).imp_right Shaped.cut) later
    rw [hrun] at hshaped
    refine ((hshaped.resolve_left hnotExited hnotGone).driven hstate).resolve_right fun hrest => ?_
    obtain ⟨n, hn, hbreaks⟩ := (hrest.2 hcut).mem
    rw [hlog n hn] at hbreaks
    cases hbreaks
  · change (start w seed).state = .removing at hs
    rw [start_eq, (kept_rearm w _).state] at hs
    exact hs
  have hshape := (shaped_run w seed (inputs ++ later)).resolve_left hnotExited hnotGone
  have hdriven := redriven_onRemove hshape w' force caller hstate
  have hselect : a'.select w' (.command (.remove force caller)) = a'.onRemove w' force caller := by
    unfold select onCommand
    rw [hstate]
  rw [run_concat, react_of_select hexited, hselect]
  · exact hdriven.driven
  · rw [hselect, hdriven.exited, hexited]
  · rw [hselect, hdriven.state, hstate]
    exact State.noConfusion

/-- A store, a clock and sub-tasks that do what they are asked. -/
def healthyWorld : World :=
  ⟨fun _ => RecordStore.healthyIo 9, .landed, .ended, .done, true, true, 0⟩

/-- The record of a computer `box` that was provisioned under generation 1. -/
def boxRecord (phase : ComputerPhase) : ComputerRecord :=
  ⟨recordVersion, "box", 1, "key", ⟨some "box", "", [], [], "", "", [], 60, none, 0, .kill⟩,
    phase, some ⟨"10.0.0.2"⟩, 0, none, none, none, some 60000000000⟩

/-- `box`, adopted by this process with a deadline. -/
def boxSeed : ComputerSeed :=
  ⟨"box", some 1, ⟨some 60000000000, 0, .kill⟩, .adopted, none, some (boxRecord .ready)⟩

/-- The deadline starts the removal, and its teardown is in flight. -/
theorem removal_keeps_driven_box : (run healthyWorld boxSeed [(healthyWorld, .ttl)]).Driven :=
  (removal_keeps_driven healthyWorld boxSeed [] [(healthyWorld, .ttl)] rfl rfl).1
    (fun h => absurd h (by decide)) (by decide)

/-- The deadline starts the removal, the release of its resources fails, and nothing is
left that would try it again, with the record still in `Removing`. -/
theorem deadline_removal_rests :
    let a := run healthyWorld boxSeed
      [(healthyWorld, .ttl),
        (healthyWorld, .completion 2 (.failed ⟨.recoverable, .process "EBUSY"⟩))]
    a.exited = false ∧ a.state = .removing ∧ a.work.inflight = none ∧ a.work.retry = none ∧
      a.queued = [] ∧ a.file.map (·.phase) = some .removing := by
  decide

/-- While the actor of a computer runs, a sub-task that may still report is of an earlier epoch or
the one in flight, a retry is scheduled only for a stalled teardown, and a teardown is stalled only
in `Removing`, waiting to be handed over. -/
theorem sub_tasks_accounted_for (w : World) (seed : ComputerSeed) (inputs : List (World × Input))
    (hexited : (run w seed inputs).exited = false) (hgone : (run w seed inputs).state ≠ .gone) :
    let a := run w seed inputs
    (∀ t ∈ a.work.live, t.1 < a.work.epoch ∨
      t.1 = a.work.epoch ∧ a.work.inflight.map (·.task) = some t.2) ∧
    (a.work.retry.isSome → a.work.stalled.isSome) ∧
    ∀ stalled, a.work.stalled = some stalled → a.state = .removing ∧ stalled = waitingTeardown := by
  intro a
  rcases shaped_run w seed inputs with hend | hshaped
  · rw [hexited] at hend
    cases hend
  have h := hshaped hgone
  refine ⟨fun t ht => ?_, h.retry, h.parked⟩
  rcases Nat.lt_or_eq_of_le (h.current.older t ht) with holder | hepoch
  · exact .inl holder
  · exact .inr ⟨hepoch, h.current.current t ht hepoch⟩

/-- The deadline has started the removal, and its teardown is in flight. -/
theorem sub_tasks_accounted_for_box :
    let a := run healthyWorld boxSeed [(healthyWorld, .ttl)]
    a.work.live ≠ [] ∧ ∀ t ∈ a.work.live, t.1 < a.work.epoch ∨
      t.1 = a.work.epoch ∧ a.work.inflight.map (·.task) = some t.2 :=
  ⟨by decide, (sub_tasks_accounted_for healthyWorld boxSeed [(healthyWorld, .ttl)] (by decide)
    (by decide)).1⟩

end Actor

end Arcbox.Computer.Lifecycle

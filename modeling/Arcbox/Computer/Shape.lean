import Arcbox.Computer.Turn

set_option autoImplicit false

/-!
# Computer: a removal under way

Between two inputs the actor's work tells what drives a removal: the release of everything
is in flight, or a retry of the teardown is scheduled.  What may break this leaves a note
in the log.  A computer that is gone stays so, and nothing more is said about it.
-/

namespace Arcbox.Computer.Lifecycle

open List

/-! ## Moves into a removal -/

section Table

variable {s s' : State} {e : Event} {es : List Effect}

theorem removal_of_moves (hmoves : Moves s e s' es) (hs : s ≠ .removing)
    (he : ∀ phase, e ≠ .recovered phase) (hs' : s' = .removing) : es = Effects.removal := by
  cases hmoves with
  | removal => rfl
  | stay | detach => exact absurd hs' hs
  | recovered phase => exact absurd rfl (he phase)
  | gated committed claimed => cases claimed <;> cases hs'
  | _ => cases hs'

theorem removing_of_moves (hmoves : Moves s e s' Effects.removal) : s' = .removing := by
  generalize hlist : Effects.removal = list at hmoves
  cases hmoves with
  | removal => rfl
  | gated committed claimed => cases committed <;> cases hlist
  | _ => cases hlist

theorem gone_of_moves {recordEnd : RecordEnd}
    (hmoves : Moves s e s' (.forgetRecord recordEnd :: es)) : s' = .gone := by
  generalize hlist : Effect.forgetRecord recordEnd :: es = list at hmoves
  cases hmoves with
  | abortProvision | removeDone => rfl
  | gated committed claimed => cases committed <;> cases hlist
  | _ => cases hlist

end Table

/-- What may leave a removal undriven: a sub-task that panicked, a refused write of
`Removing`, and a failed release of everything. -/
def Note.breaksRemoval : Note → Bool
  | .panicked => true
  | .wrote .removing .refused => true
  | .reported (some (.release .full)) (.failed _) => true
  | _ => false

/-- A note after those of `before` says so. -/
def Broken (before log : List Note) : Prop :=
  ∃ log₀ n, before <+: log₀ ∧ n.breaksRemoval ∧ log₀ ++ [n] <+: log

theorem Broken.mono {before log log' : List Note} (h : Broken before log) (hlog : log <+: log') :
    Broken before log' := by
  obtain ⟨log₀, n, hsince, hbreaks, hn⟩ := h
  exact ⟨log₀, n, hsince, hbreaks, hn.trans hlog⟩

theorem Broken.grows {before log : List Note} (h : Broken before log) : before <+: log := by
  obtain ⟨log₀, n, hsince, -, hn⟩ := h
  exact hsince.trans ((prefix_append _ _).trans hn)

theorem Broken.mem {before log : List Note} (h : Broken before log) :
    ∃ n ∈ log.drop before.length, n.breaksRemoval := by
  obtain ⟨_, n, ⟨rest, rfl⟩, hbreaks, ⟨later, rfl⟩⟩ := h
  refine ⟨n, ?_, hbreaks⟩
  rw [append_assoc, append_assoc, drop_left]
  exact mem_append_right _ mem_cons_self

namespace Actor

/-! ## The shape of an actor -/

/-- A teardown that waits for the sub-task it preempts. -/
def waitingTeardown : Stalled := ⟨.handoff, .removing, Effects.removal.tail⟩

/-- The release of everything is in flight, or a retry is scheduled. -/
def Driven (a : Actor) : Prop := a.kind = some (.release .full) ∨ a.work.retry.isSome

instance (a : Actor) : Decidable a.Driven := inferInstanceAs (Decidable (_ ∨ _))

/-- The actor of a computer that is not gone, seen from the moment when its log was `before`.
`started` says that a removal under way at that moment was being driven. -/
structure Shape (before : List Note) (started : Prop) (a : Actor) : Prop where
  since : before <+: a.log
  queued : ∀ e ∈ a.queued, e = .failure ∨ e = .detached
  parked : ∀ stalled, a.work.stalled = some stalled →
    a.state = .removing ∧ stalled = waitingTeardown
  retry : a.work.retry.isSome → a.work.stalled.isSome
  stalledOn : a.work.stalledOn = .handoff
  current : Current a.work
  driven : a.state = .removing →
    a.Driven ∨ a.kind = none ∧ (started → Broken before a.log)

def Shaped (before : List Note) (started : Prop) (a : Actor) : Prop :=
  a.state ≠ .gone → Shape before started a

/-- No teardown waits. -/
structure Bare (before : List Note) (a : Actor) : Prop where
  since : before <+: a.log
  queued : ∀ e ∈ a.queued, e = .failure ∨ e = .detached
  stalled : a.work.stalled = none
  retry : a.work.retry = none
  stalledOn : a.work.stalledOn = .handoff
  current : Current a.work

section Shape

variable {before : List Note} {started : Prop} {a a' : Actor}

theorem shaped_of_gone (h : a.state = .gone) : Shaped before started a := fun hgone => absurd h hgone

theorem Panicked.broken (h : Panicked a a') (hsince : before <+: a.log) :
    Broken before a'.log := by
  obtain ⟨log, hlog, hnoted⟩ := h.noted
  exact ⟨log, _, hsince.trans hlog, rfl, hnoted⟩

theorem Panicked.kind (h : Panicked a a') : a'.kind = none := by
  rw [Actor.kind, h.inflight]
  rfl

theorem Kept.kind (h : Kept a a') : a'.kind = a.kind := by
  unfold Actor.kind
  rw [h.work]

theorem Shaped.kept (h : Shaped before started a) (h' : Kept a a') : Shaped before started a' := by
  intro hgone
  have h := h (h'.state ▸ hgone)
  refine ⟨h.since.trans h'.log, ?_, ?_, ?_, ?_, ?_, fun hs => ?_⟩
  · rw [h'.queued]
    exact h.queued
  · rw [h'.work, h'.state]
    exact h.parked
  · rw [h'.work]
    exact h.retry
  · rw [h'.work]
    exact h.stalledOn
  · rw [h'.work]
    exact h.current
  · rw [Driven, h'.kind, h'.work]
    refine (h.driven (h'.state ▸ hs)).imp_right fun hrest => ?_
    exact ⟨hrest.1, fun hstarted => (hrest.2 hstarted).mono h'.log⟩

theorem Shape.bare (h : Shape before started a) (hs : a.state ≠ .removing) : Bare before a := by
  have hstalled : a.work.stalled = none :=
    Option.eq_none_iff_forall_ne_some.mpr fun stalled hst => hs (h.parked stalled hst).1
  refine ⟨h.since, h.queued, hstalled, Option.not_isSome_iff_eq_none.mp fun hr => ?_, h.stalledOn,
    h.current⟩
  have hsome := h.retry hr
  rw [hstalled] at hsome
  cases hsome

theorem Bare.shape (h : Bare before a)
    (hdriven : a.state = .removing →
      a.kind = some (.release .full) ∨ a.kind = none ∧ Broken before a.log) :
    Shape before started a where
  __ := h
  parked stalled hst := by
    rw [h.stalled] at hst
    cases hst
  retry hr := by
    rw [h.retry] at hr
    cases hr
  driven hs := (hdriven hs).imp .inl fun hrest => ⟨hrest.1, fun _ => hrest.2⟩

variable {e : Event} {es : List Effect}

/-- One more event in the queue, asked for by a refused write or by a handover. -/
theorem mem_queued {queued : List Event} (h : ∀ e ∈ queued, e = .failure ∨ e = .detached)
    (he : e = .failure ∨ e = .detached) : ∀ e' ∈ queued ++ [e], e' = .failure ∨ e' = .detached := by
  exact forall_mem_append.mpr ⟨h, forall_mem_singleton.mpr he⟩

section

variable (h : Bare before a)

include h

theorem Bare.settled (h' : Settled es a a') : Bare before a' :=
  ⟨h.since.trans h'.log, h'.queued ▸ h.queued, h'.stalled.trans h.stalled, h'.retry.trans h.retry,
    h'.stalledOn.trans h.stalledOn, h'.current h.current⟩

theorem Bare.ended (h' : Ended a a') : Bare before a' :=
  ⟨h.since.trans h'.log, h'.queued ▸ h.queued, h'.stalled.trans h.stalled, h'.retry.trans h.retry,
    h'.stalledOn.trans h.stalledOn, h'.current h.current⟩

theorem Bare.refused (h' : Refused a a') : Bare before a' := by
  refine ⟨h.since.trans h'.log, h'.queued ▸ mem_queued h.queued (.inl rfl), ?_, ?_, ?_, ?_⟩ <;>
    rw [h'.work]
  · exact h.stalled
  · exact h.retry
  · exact h.stalledOn
  · exact h.current

/-- What is left of a removal once the sub-task is out of the way. -/
theorem Bare.removal_tail (hinflight : a.work.inflight = none) (w : World) (started : Prop) :
    Shape before started (runEffects w .removing Effects.removal.tail a) := by
  rcases Actor.removal_tail w .removing a with h' | ⟨h', hnote⟩
  · refine (h.settled h').shape fun _ => .inl ?_
    rw [h'.kind]
    rfl
  · refine (h.refused h').shape fun _ => .inr ⟨?_, a.log, _, h.since, rfl, hnote⟩
    rw [Actor.kind, h'.work, hinflight]
    rfl

end

theorem shape_of_parked (hsince : before <+: a.log) (hstate : a.state = .removing)
    (hqueued : ∀ e ∈ a.queued, e = .failure ∨ e = .detached)
    (hstalled : a.work.stalled = some waitingTeardown) (hstalledOn : a.work.stalledOn = .handoff)
    (hcurrent : Current a.work)
    (hdriven : a.work.retry.isSome ∨ a.kind = none ∧ Broken before a.log) :
    Shape before started a where
  since := hsince
  queued := hqueued
  parked stalled hst := ⟨hstate, Option.some.inj (hst.symm.trans hstalled)⟩
  retry _ := by
    rw [hstalled]
    rfl
  stalledOn := hstalledOn
  current := hcurrent
  driven _ := hdriven.imp .inr fun hrest => ⟨hrest.1, fun _ => hrest.2⟩

variable {w : World}

theorem shaped_of_ran (started : Prop) (h : Bare before a) (hran : Ran w a.state a es a')
    (hremoval : a.state = .removing → es = Effects.removal)
    (hremoving : es = Effects.removal → a.state = .removing)
    (hforget : ∀ recordEnd rest, es = .forgetRecord recordEnd :: rest → a.state = .gone) :
    Shaped before started a' := by
  intro hgone
  cases hran with
  | settled _ _ h' =>
    refine (h.settled h').shape fun hs => .inl ?_
    rw [h'.kind, hremoval (h'.state ▸ hs)]
    rfl
  | refused e es _ he h' =>
    refine (h.refused h').shape fun hs => ?_
    injection hremoval (h'.state ▸ hs) with hhead
    rw [hhead] at he
    cases he
  | notRemoving a₁ _ h₁ h' hnote =>
    refine ((h.ended h₁).refused h').shape fun _ => .inr ⟨?_, a₁.log, _, h.since.trans h₁.log, rfl,
      hnote⟩
    rw [Actor.kind, h'.work, h₁.inflight]
    rfl
  | waiting a₁ h' =>
    have hs := hremoving rfl
    refine shape_of_parked (h.since.trans h'.log) (h'.state.trans hs) (h'.queued.symm ▸ h.queued) ?_ rfl
      ⟨(h'.current h.current).older, (h'.current h.current).current⟩ (.inl h'.retry)
    rw [hs, parkStalled, h'.stalledOn]
    rfl
  | panicked a₁ h' =>
    have hs := hremoving rfl
    have hbroken := h'.broken h.since
    refine shape_of_parked (hbroken.grows) (h'.state.trans hs) (h'.queued.symm ▸ h.queued) ?_ rfl
      ⟨(h'.current h.current).older, (h'.current h.current).current⟩ (.inr ⟨h'.kind, hbroken⟩)
    rw [hs, parkStalled, h'.stalledOn, h.stalledOn]
    rfl
  | undeleted recordEnd es a₁ h' => exact absurd (h'.trans (hforget _ _ rfl)) hgone
  | handedOver =>
    refine Bare.shape ⟨h.since, mem_queued h.queued (.inr rfl), h.stalled, h.retry, h.stalledOn, h.current⟩
      fun hs => ?_
    cases hremoval hs

/-! ## Dispatch -/

theorem step_removing (he : e ≠ .removeDone) : step .removing e = (.removing, []) := by
  cases e <;> first | rfl | exact absurd rfl he

/-- A transition without effects only moves the machine. -/
theorem handle_of_step {s' : State} (h : step a.state e = (s', [])) :
    (a.handle w e).1 = { a with state := s' } := by
  unfold handle
  rw [h]
  rfl

/-- While a teardown is under way every other event is swallowed. -/
theorem handle_removing (hs : a.state = .removing) (he : e ≠ .removeDone) :
    a.handle w e = (a, false) := by
  unfold handle
  rw [hs, step_removing he]
  change ({ a with state := .removing }, false) = (a, false)
  rw [← hs]

theorem Ran.state {s : State} (h : Ran w s a es a') : a'.state = a.state := by
  cases h with
  | settled _ _ h | refused _ _ _ _ h => exact h.state
  | notRemoving _ _ h₁ h => exact h.state.trans h₁.state
  | waiting _ h | panicked _ h => exact h.state
  | undeleted _ _ _ h => exact h
  | handedOver => rfl

theorem state_handle (e : Event) : (a.handle w e).1.state = (step a.state e).1 :=
  (ran_handle w a e).state

variable (w : World)

/-- One event.  The end of a removal may be heard in any condition. -/
theorem shaped_handle (he : ∀ phase, e ≠ .recovered phase)
    (h : (a.state = .removing ∧ e = .removeDone) ∨ Shaped before started a) :
    Shaped before started (a.handle w e).1 := by
  by_cases hgone : a.state = .gone
  · refine shaped_of_gone ?_
    rw [state_handle, hgone]
    rfl
  by_cases hs : a.state = .removing
  · by_cases hdone : e = .removeDone
    · refine shaped_of_gone ?_
      rw [state_handle, hs, hdone]
      rfl
    · rw [handle_removing hs hdone]
      exact h.resolve_left fun hend => hdone hend.2
  have hbare := ((h.resolve_left fun hend => hs hend.1) hgone).bare hs
  have hmoves := moves_step a.state e
  exact shaped_of_ran started (a := { a with state := (step a.state e).1 })
    ⟨hbare.since, hbare.queued, hbare.stalled, hbare.retry, hbare.stalledOn, hbare.current⟩
    (ran_handle w a e) (removal_of_moves hmoves hs he)
    (fun heq => removing_of_moves (heq ▸ hmoves))
    (fun _ _ heq => gone_of_moves (heq ▸ hmoves))

theorem shaped_drain (n : Nat) (h : Shaped before started a) : Shaped before started (drain w n a) := by
  induction n generalizing a with
  | zero => exact h
  | succ n ih =>
    unfold drain
    split
    · exact h
    rename_i e rest hq
    refine ih ?_
    by_cases hgone : a.state = .gone
    · refine shaped_of_gone ?_
      rw [state_handle]
      change (step a.state e).1 = _
      rw [hgone]
      rfl
    have hshape := h hgone
    have he := hshape.queued e (hq ▸ mem_cons_self)
    refine shaped_handle w (fun phase heq => ?_) (.inr fun _ => ?_)
    · rcases he with rfl | rfl <;> cases heq
    · exact { hshape with
        queued := fun e' he' => hshape.queued e' (hq ▸ mem_cons_of_mem _ he') }

theorem shaped_dispatch_of (he : ∀ phase, e ≠ .recovered phase)
    (h : (a.state = .removing ∧ e = .removeDone) ∨ Shaped before started a) :
    Shaped before started (a.dispatch w e).1 := shaped_drain w _ (shaped_handle w he h)

theorem shaped_dispatch (h : Shaped before started a) (w : World) (he : ∀ phase, e ≠ .recovered phase) :
    Shaped before started (a.dispatch w e).1 := shaped_dispatch_of w he (.inr h)

theorem drain_removing (n : Nat) (hs : a.state = .removing)
    (hqueued : ∀ e ∈ a.queued, e = .failure ∨ e = .detached) :
    ∃ queued, drain w n a = { a with queued := queued } ∧
      ∀ e ∈ queued, e = .failure ∨ e = .detached := by
  induction n generalizing a with
  | zero => exact ⟨a.queued, rfl, hqueued⟩
  | succ n ih =>
    unfold drain
    split
    · exact ⟨a.queued, rfl, hqueued⟩
    rename_i e rest hq
    have he : e ≠ .removeDone := by
      rintro rfl
      rcases hqueued _ (hq ▸ mem_cons_self) with heq | heq <;> cases heq
    rw [handle_removing (a := { a with queued := rest }) hs he]
    exact ih hs fun e' he' => hqueued e' (hq ▸ mem_cons_of_mem _ he')

/-- A dispatch while a teardown is under way only drops events from the queue. -/
theorem dispatch_removing (hs : a.state = .removing)
    (hqueued : ∀ e ∈ a.queued, e = .failure ∨ e = .detached) (he : e ≠ .removeDone) :
    ∃ queued, a.dispatch w e = ({ a with queued := queued }, false) ∧
      ∀ e ∈ queued, e = .failure ∨ e = .detached := by
  obtain ⟨queued, hdrain, hq⟩ := drain_removing w (a.queued.length + 2) hs hqueued
  refine ⟨queued, ?_, hq⟩
  unfold dispatch
  rw [handle_removing hs he]
  exact congrArg (·, false) hdrain

end Shape

end Actor

end Arcbox.Computer.Lifecycle

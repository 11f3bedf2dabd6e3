import Mathlib.Data.List.Induction
import Arcbox.Engine.Lifecycle.Answered

set_option autoImplicit false

/-!
# Lifecycle: what a successful force stop means

Callers of every kind of stop wait in one list, which the next completion of the current epoch
answers.  A maintenance stop that takes over from a removal answers its callers too.
-/

namespace Arcbox.Engine.Lifecycle

open Foundation List LifecycleActor

/-- The turn that brings a force stop. -/
def forced (w : World) (caller : Caller) : World × Input := (w, .command (.forceStop caller))

/-- Whoever is answered with success after a force stop, its only command, is so after the report
of a removal that has succeeded since the request. -/
def Truthful (config : Config) (inputs : List (World × Input)) : Prop :=
  ∀ pre w caller mid post, inputs = pre ++ forced w caller :: mid ++ post →
    (∀ i ∈ pre ++ mid, caller ∉ i.2.callers) →
    (caller, .done) ∈ (History.after react (new config) (pre ++ forced w caller :: mid)).replies →
    ∃ j ∈ mid, ∃ epoch, j.2 = .internal ⟨epoch, .removed⟩

/-- A maintenance stop does not take over from a removal. -/
def spares (a : LifecycleActor) (i : World × Input) : Bool :=
  match i.2 with
  | .command (.stopStorage _) => a.state ≠ .removing || !i.1.belongs
  | _ => true

section

variable {a : LifecycleActor} {w : World}

/-! ## A force stop and its caller -/

/-- Where the caller of a force stop stands until a removal has succeeded. -/
inductive Unconfirmed (caller : Caller) (a : LifecycleActor) : Prop
  | waits (hstate : a.state = .removing) (hcaller : caller ∈ a.stopWaiters)
  | failed (e : Error) (hreply : (caller, .error e) ∈ a.replies)

theorem unconfirmed_onForceStop (h : a.Inv) (caller : Caller) :
    Unconfirmed caller (a.onForceStop w caller) := by
  unfold onForceStop
  dsimp only
  split
  · exact .failed _ mem_concat_self
  split
  next hs => exact .waits hs mem_concat_self
  next hs =>
    refine .waits ?_ ?_
    · exact (inv_dispatch_forceStop w (a := { a with stopWaiters := a.stopWaiters ++ [caller] })
        h.published h.past_succ h.unwrapped hs).2
    · exact of_transition (P := (caller ∈ ·.stopWaiters)) h.published (State.handle_forceStop hs)
        fun _ => mem_concat_self

/-- A removal goes on, and whoever waits for it waits on. -/
def GoesOn (a a' : LifecycleActor) : Prop := a'.state = .removing ∧ a.stopWaiters <+: a'.stopWaiters

theorem goesOn_command (h : a.Inv) (hs : a.state = .removing) {c : Command}
    (hspares : spares a (w, .command c) = true) : GoesOn a (a.onCommand w c) := by
  have hpub : a.published = .stopping := by rw [h.published, hs]; rfl
  cases c with
  | checkStorage caller =>
    unfold onCommand onStorageCheck
    dsimp only
    split <;> exact ⟨hs, prefix_rfl⟩
  | stopStorage caller =>
    unfold onCommand onStorageStop
    dsimp only
    rw [if_pos (by simpa [spares, hs] using hspares)]
    exact ⟨hs, prefix_rfl⟩
  | resumeStorage caller =>
    unfold onCommand onResumeStorage
    dsimp only
    rw [hpub, if_pos (by simp [VmLifecycleState.needsStart])]
    exact ⟨hs, prefix_rfl⟩
  | ensureReady timeoutMs caller =>
    unfold onCommand onEnsureReady
    dsimp only
    rw [hpub]
    split <;> exact ⟨hs, prefix_rfl⟩
  | shutdown caller =>
    unfold onCommand onShutdown
    dsimp only
    rw [hpub]
    exact ⟨hs, prefix_append _ _⟩
  | forceStop caller =>
    unfold onCommand onForceStop
    dsimp only
    split
    · exact ⟨hs, prefix_rfl⟩
    · rw [if_pos hs]
      exact ⟨hs, prefix_append _ _⟩
  | activity =>
    refine of_transition h.published (State.handle_activity _) fun _ => ⟨?_, prefix_rfl⟩
    rw [hs]
    rfl

theorem removeFailed_answers (h : a.Inv) (reason : String) {caller : Caller}
    (hcaller : caller ∈ a.stopWaiters) : (caller, .error (.vm reason)) ∈
      (a.onInternal w ⟨a.epoch, .removeFailed reason⟩).replies := by
  have hreplies : (a.onInternal w ⟨a.epoch, .removeFailed reason⟩).replies = a.replies ++
      (a.stopWaiters ++ a.waiters).map fun caller => (caller, .error (.vm reason)) := by
    obtain ⟨b, heq⟩ := dispatch_eq w h.free_finished.published (State.handle_failure a.state)
    unfold onInternal
    rw [if_neg (show ¬ a.epoch ≠ (a.reported a.epoch).epoch from not_not.mpr rfl)]
    unfold onOutcome
    rw [heq, map_append, ← append_assoc]
    unfold startIfPending
    split
    · exact append_nil _
    · rw [if_pos (by rfl)]
      rfl
  rw [hreplies]
  exact mem_append_right _ (mem_map_of_mem (mem_append_left _ hcaller))

/-- A turn during a removal, other than a maintenance stop: the removal goes on, or it reports. -/
theorem removing_react (h : a.Inv) (hs : a.state = .removing) {i : World × Input}
    (hpos : i.2.Possible a) (hspares : spares a i = true) :
    GoesOn a (a.react i) ∨ i.2 = .internal ⟨a.epoch, .removed⟩ ∨
      ∃ e, ∀ caller ∈ a.stopWaiters, (caller, .error e) ∈ (a.react i).replies := by
  have hpub : a.published = .stopping := by rw [h.published, hs]; rfl
  obtain ⟨w, i⟩ := i
  cases i with
  | command c => exact .inl (goesOn_command h hs hspares)
  | idleTick =>
    refine .inl ?_
    unfold react onIdleTick
    rw [if_pos (by simp [hpub])]
    exact ⟨hs, prefix_rfl⟩
  | livenessTick =>
    refine .inl ?_
    unfold react onLivenessTick
    rw [if_neg (by simp [hpub, VmLifecycleState.isReady])]
    exact ⟨hs, prefix_rfl⟩
  | internal c =>
    by_cases hepoch : c.epoch = a.epoch
    · obtain ⟨kind, hfits, hreports⟩ := h.task_of_report hpos hepoch
      obtain ⟨epoch, outcome⟩ := c
      cases hepoch
      rw [hs] at hfits
      cases kind with
      | removal =>
        cases outcome with
        | removed => exact .inr (.inl rfl)
        | removeFailed reason => exact .inr (.inr ⟨_, fun _ => removeFailed_answers h reason⟩)
        | _ => cases hreports
      | _ => cases hfits
    refine .inl ?_
    unfold react onInternal
    dsimp only
    rw [if_pos (show c.epoch ≠ (a.reported c.epoch).epoch from hepoch)]
    exact ⟨hs, prefix_rfl⟩

theorem Unconfirmed.react {caller : Caller} (hun : Unconfirmed caller a) (h : a.Inv)
    {i : World × Input} (hpos : i.2.Possible a) (hspares : spares a i = true) :
    Unconfirmed caller (a.react i) ∨ i.2 = .internal ⟨a.epoch, .removed⟩ := by
  cases hun with
  | failed e hreply => exact .inl (.failed e ((accounts_react i).2.subset hreply))
  | waits hs hcaller =>
    rcases removing_react h hs hpos hspares with hon | hok | ⟨e, hfailed⟩
    · exact .inl (.waits hon.1 (hon.2.subset hcaller))
    · exact .inr hok
    · exact .inl (.failed e (hfailed caller hcaller))

/-- A caller of one command has one answer, or one place in a list of waiters. -/
theorem Unconfirmed.not_done {caller : Caller} (hun : Unconfirmed caller a)
    (honce : a.callers.count caller = 1) : (caller, .done) ∉ a.replies := by
  intro hdone
  unfold callers at honce
  rw [count_append, count_append] at honce
  obtain ⟨front, back, heq⟩ := append_of_mem hdone
  rw [heq, map_append, map_cons, count_append, count_cons_self] at honce
  cases hun with
  | waits _ hcaller =>
    have hwaits := count_pos_iff.mpr hcaller
    omega
  | failed e hreply =>
    rw [heq, mem_append, mem_cons] at hreply
    rcases hreply with hfront | hsame | hback
    · have hfront := count_pos_iff.mpr (mem_map_of_mem (f := Prod.fst) hfront)
      dsimp only at hfront
      omega
    · cases hsame
    · have hback := count_pos_iff.mpr (mem_map_of_mem (f := Prod.fst) hback)
      dsimp only at hback
      omega

/-- Every turn after the request: the caller has not been confirmed, or a removal has succeeded. -/
theorem unconfirmed_run {caller : Caller} (hun : Unconfirmed caller a) (h : a.Inv)
    (inputs : List (World × Input))
    (hpos : History.Throughout LifecycleActor.react a (fun a i => i.2.Possible a) inputs)
    (hspares : History.Throughout LifecycleActor.react a (fun a i => spares a i = true) inputs) :
    Unconfirmed caller (History.after LifecycleActor.react a inputs) ∨
      ∃ j ∈ inputs, ∃ epoch, j.2 = .internal ⟨epoch, .removed⟩ := by
  induction inputs using reverseRecOn with
  | nil => exact .inl hun
  | append_singleton inputs i ih =>
    rw [History.throughout_concat] at hpos hspares
    rcases ih hpos.1 hspares.1 with hun | ⟨j, hj, hok⟩
    · rw [History.after_append]
      rcases hun.react (inv_run h inputs hpos.1) hpos.2 hspares.2 with hun | hok
      · exact .inl hun
      · exact .inr ⟨i, mem_concat_self, _, hok⟩
    · exact .inr ⟨j, mem_append_left _ hj, hok⟩

end

/-- Where no maintenance stop takes over from a removal, a force stop is confirmed only after a
removal has succeeded. -/
theorem force_stop_truthful (config : Config) (inputs : List (World × Input))
    (hpossible : History.Throughout react (new config) (fun a i => i.2.Possible a) inputs)
    (hspares : History.Throughout react (new config) (fun a i => spares a i = true) inputs) :
    Truthful config inputs := by
  rintro pre w caller mid post rfl hfresh hdone
  rw [History.throughout_append, append_cons, History.throughout_append] at hpossible hspares
  have hinv := inv_run (inv_new config) _ hpossible.1.1
  have hun : Unconfirmed caller (History.after react (new config) (pre ++ [forced w caller])) := by
    rw [History.throughout_append] at hpossible
    rw [History.after_append]
    exact unconfirmed_onForceStop (inv_run (inv_new config) pre hpossible.1.1.1) caller
  refine (unconfirmed_run hun hinv mid hpossible.1.2 hspares.1.2).resolve_left fun hun => ?_
  rw [← History.after_append, ← append_cons] at hun
  refine hun.not_done ?_ hdone
  -- the caller of the force stop is the caller of no other command
  have hcount : ∀ {turns : List (World × Input)}, (∀ i ∈ turns, caller ∉ i.2.callers) →
      (turns.flatMap fun i => i.2.callers).count caller = 0 := fun hturns =>
    count_eq_zero.mpr fun hmem => by
      obtain ⟨i, hi, hcaller⟩ := mem_flatMap.mp hmem
      exact hturns i hi hcaller
  rw [(callers_run _).count_eq, count_append, flatMap_append, flatMap_cons, count_append,
    count_append, hcount fun i hi => hfresh i (mem_append_left _ hi),
    hcount fun i hi => hfresh i (mem_append_right _ hi)]
  have hself : count caller (forced w caller).2.callers = 1 := count_singleton_self
  have hnew : count caller (new config).callers = 0 := rfl
  omega

/-- A client starts the VM, and it comes up. -/
def booted : List (World × Input) :=
  [(calmWorld, .command (.ensureReady 1000 1)), (calmWorld, .internal ⟨1, .agentReady⟩)]

theorem force_stop_truthful_removed :
    Truthful ⟨true, 60⟩ (booted ++ [forced calmWorld 2, (calmWorld, .internal ⟨2, .removed⟩)]) :=
  force_stop_truthful ⟨true, 60⟩ _ (by decide) (by decide)

/-- A maintenance stop, before the report that the removal has failed is handled. -/
def overtaken : List (World × Input) :=
  [(calmWorld, .command (.stopStorage 3)), (calmWorld, .internal ⟨2, .removeFailed "record"⟩)]

/-- The removal has failed, and its caller is answered with the success of the maintenance stop. -/
theorem overtaken_removal_confirmed :
    let inputs := booted ++ forced calmWorld 2 :: overtaken ++ [(calmWorld, .internal ⟨3, .stopped⟩)]
    History.Throughout react (new ⟨true, 60⟩) (fun a i => i.2.Possible a) inputs ∧
      ¬ Truthful ⟨true, 60⟩ inputs := by
  refine ⟨by decide, fun h => ?_⟩
  obtain ⟨j, hj, epoch, hok⟩ := h booted calmWorld 2
    (overtaken ++ [(calmWorld, .internal ⟨3, .stopped⟩)]) [] rfl (by decide) (by decide)
  simp only [overtaken, cons_append, nil_append, mem_cons, not_mem_nil, or_false] at hj
  rcases hj with rfl | rfl | rfl <;> cases hok

end Arcbox.Engine.Lifecycle

import Arcbox.Engine.Lifecycle.Answered

set_option autoImplicit false

/-!
# Lifecycle: generations separate incarnations

A client that compares restart generations sees a reboot when the generation grew since
the machine last ran.  Every way out of the running states bumps it before the machine
can run again, except through `failed`: a stop or a removal that fails bumps nothing.
-/

namespace Arcbox.Engine.Lifecycle

open List

open Foundation (History.Throughout History.after History.keeps
  History.throughout_concat History.throughout_nil History.after_append History.after_cons
  History.after_nil)

/-! ## The generations a client may have seen -/

/-- Two entries into `Running` with the machine not ready in between are in different
generations, the later one in the higher. -/
def Separated (history : List (VmLifecycleState × Nat)) : Prop :=
  ∀ pre g mid g' post, history = pre ++ (.running, g) :: mid ++ (.running, g') :: post →
    (∃ x ∈ mid, x.1.isReady = false) → g < g'

/-- Generations of entries into `Running` since the machine became ready, and before. -/
structure Seen where
  current : List Nat
  left : List Nat

/-- One published value, as a subscriber sees it. -/
def Seen.next (k : Seen) (x : VmLifecycleState × Nat) : Seen :=
  if x.1.isReady = false then ⟨[], k.current ++ k.left⟩
  else if x.1 = .running then ⟨x.2 :: k.current, k.left⟩
  else k

/-- An entry into `Running` is above every generation that was left. -/
def Seen.Fresh (k : Seen) (x : VmLifecycleState × Nat) : Prop :=
  x.1 = .running → ∀ g ∈ k.left, g < x.2

variable {g : Nat}
variable {k : Seen} {event : VmEvent} {s : State}

theorem Seen.mem_next (x : VmLifecycleState × Nat) (h : g ∈ k.current ∨ g ∈ k.left) :
    g ∈ (k.next x).current ∨ g ∈ (k.next x).left := by
  unfold Seen.next
  split
  · exact .inr (mem_append.mpr h)
  · split
    · exact h.imp_left (mem_cons_of_mem _)
    · exact h

theorem Seen.mem_left_next (x : VmLifecycleState × Nat) (h : g ∈ k.left) : g ∈ (k.next x).left := by
  unfold Seen.next
  split
  · exact mem_append_right _ h
  · split <;> exact h

theorem Seen.mem_left_after (mid : List (VmLifecycleState × Nat)) (h : g ∈ k.left) :
    g ∈ (History.after Seen.next k mid).left := by
  induction mid generalizing k with
  | nil => exact h
  | cons x mid ih => exact ih (Seen.mem_left_next x h)

/-- Once the machine was not ready, the generation is among those left. -/
theorem Seen.left_of_mid (mid : List (VmLifecycleState × Nat)) (h : g ∈ k.current ∨ g ∈ k.left)
    (hmid : ∃ x ∈ mid, x.1.isReady = false) : g ∈ (History.after Seen.next k mid).left := by
  induction mid generalizing k with
  | nil =>
    obtain ⟨x, hx, -⟩ := hmid
    cases hx
  | cons y mid ih =>
    by_cases hy : y.1.isReady = false
    · refine Seen.mem_left_after mid ?_
      unfold Seen.next
      rw [if_pos hy]
      exact mem_append.mpr h
    obtain ⟨x, hx, hready⟩ := hmid
    refine ih (Seen.mem_next y h) ⟨x, ?_, hready⟩
    refine (mem_cons.mp hx).resolve_left fun heq => hy ?_
    rw [← heq]
    exact hready

variable {history : List (VmLifecycleState × Nat)}

theorem separated_of_fresh (h : History.Throughout Seen.next ⟨[], []⟩ Seen.Fresh history) :
    Separated history := by
  intro pre g mid g' post heq hmid
  refine h (pre ++ (.running, g) :: mid) (.running, g') post heq rfl g ?_
  rw [History.after_append, History.after_cons]
  exact Seen.left_of_mid mid (.inl mem_cons_self) hmid

/-! ## Transitions and bumps -/

namespace State

/-- The machine waits for a stop or a removal, whose success will bump. -/
def leaving : State → Bool
  | .stopping | .removing => true
  | _ => false

/-- Whether a transition with so many bumps keeps every generation left behind. -/
def bumps (s next : State) (n : Nat) : Bool :=
  if next.leaving then true
  else if next.toPublic.isReady then !s.leaving
  else decide (0 < n) || !(s.leaving || s.toPublic.isReady)

/-- Every event but a failure bumps when it has to. -/
theorem bumps_handle (s : State) (h : event ≠ .failure) :
    s.bumps (s.handle event).1 ((s.handle event).2.count .bumpGeneration) = true := by
  cases event with
  | failure => exact absurd rfl h
  | start create timeoutMs => cases create <;> cases s <;> rfl
  | _ => cases s <;> rfl

/-- A failed boot leaves a state that owes no bump. -/
theorem bumps_failure (h : s.isBooting = true) :
    s.bumps (s.handle .failure).1 ((s.handle .failure).2.count .bumpGeneration) = true := by
  cases s <;> first | rfl | cases h

theorem leaving_iff (s : State) : s.leaving = true ↔ s.toPublic = .stopping := by
  cases s <;> decide

end State

/-- Every generation left behind is below the current one, unless a bump is still due. -/
structure Kept (s : State) (history : List (VmLifecycleState × Nat)) (generation : Nat) : Prop where
  fresh : History.Throughout Seen.next ⟨[], []⟩ Seen.Fresh history
  current : ∀ g ∈ (History.after Seen.next ⟨[], []⟩ history).current, g ≤ generation
  left : ∀ g ∈ (History.after Seen.next ⟨[], []⟩ history).left, g ≤ generation
  behind : s.leaving = false →
    ∀ g ∈ (History.after Seen.next ⟨[], []⟩ history).left, g < generation
  away : s.toPublic.isReady = false →
    (History.after Seen.next ⟨[], []⟩ history).current = []

/-- A transition that does not change the public state. -/
theorem Kept.stay {next : State} {generation : Nat} (h : Kept s history generation)
    (hsame : s.toPublic = next.toPublic) (n : Nat) : Kept next history (generation + n) := by
  refine ⟨h.fresh, fun g hg => Nat.le_add_right_of_le (h.current g hg),
    fun g hg => Nat.le_add_right_of_le (h.left g hg), fun hnext g hg => ?_, fun haway => ?_⟩
  · refine Nat.lt_add_right n (h.behind ?_ g hg)
    rw [Bool.eq_false_iff, ne_eq, State.leaving_iff] at hnext ⊢
    rw [hsame]
    exact hnext
  · rw [← hsame] at haway
    exact h.away haway

/-- A published transition. -/
theorem Kept.move {next : State} {generation n : Nat} (h : Kept s history generation)
    (hbumps : s.bumps next n = true) :
    Kept next (history ++ [(next.toPublic, generation)]) (generation + n) := by
  have hnext : History.after Seen.next ⟨[], []⟩ (history ++ [(next.toPublic, generation)]) =
      (History.after Seen.next ⟨[], []⟩ history).next (next.toPublic, generation) := by
    rw [History.after_append, History.after_cons, History.after_nil]
  by_cases hready : next.toPublic.isReady = false
  · -- the machine is left: what it saw last joins what was left before
    have hseen : (History.after Seen.next ⟨[], []⟩ history).next (next.toPublic, generation) =
        ⟨[], (History.after Seen.next ⟨[], []⟩ history).current ++
          (History.after Seen.next ⟨[], []⟩ history).left⟩ := by
      unfold Seen.next
      rw [if_pos hready]
    have hleft : ∀ g ∈ (History.after Seen.next ⟨[], []⟩ history).current ++
        (History.after Seen.next ⟨[], []⟩ history).left, g ≤ generation :=
      forall_mem_append.mpr ⟨h.current, h.left⟩
    refine ⟨History.throughout_concat.mpr ⟨h.fresh, fun hrunning => ?_⟩, ?_, ?_, ?_, ?_⟩
    · have hpub : next.toPublic = .running := hrunning
      rw [hpub] at hready
      cases hready
    · rw [hnext, hseen]
      exact forall_mem_nil _
    · rw [hnext, hseen]
      exact fun g hg => Nat.le_add_right_of_le (hleft g hg)
    · rw [hnext, hseen]
      intro hleaving g hg
      unfold State.bumps at hbumps
      rw [if_neg (by rw [hleaving]; exact Bool.false_ne_true),
        if_neg (by rw [hready]; exact Bool.false_ne_true), Bool.or_eq_true] at hbumps
      rcases hbumps with hbump | hquiet
      · have hle := hleft g hg
        have hpos := of_decide_eq_true hbump
        omega
      · rw [Bool.not_eq_true', Bool.or_eq_false_iff] at hquiet
        rw [h.away hquiet.2, nil_append] at hg
        exact Nat.lt_add_right n (h.behind hquiet.1 g hg)
    · rw [hnext, hseen]
      exact fun _ => rfl
  · have hentry : s.leaving = false := by
      unfold State.bumps at hbumps
      have hleaving : next.leaving = false := by
        rw [Bool.eq_false_iff, ne_eq, State.leaving_iff]
        intro hstopping
        rw [hstopping] at hready
        exact hready rfl
      rw [if_neg (by rw [hleaving]; exact Bool.false_ne_true),
        if_pos ((Bool.not_eq_false _).mp hready)] at hbumps
      rw [Bool.not_eq_true'] at hbumps
      exact hbumps
    have hleft : ((History.after Seen.next ⟨[], []⟩ history).next
        (next.toPublic, generation)).left = (History.after Seen.next ⟨[], []⟩ history).left := by
      unfold Seen.next
      rw [if_neg hready]
      split <;> rfl
    refine ⟨History.throughout_concat.mpr ⟨h.fresh, fun _ => h.behind hentry⟩, ?_, ?_, ?_, ?_⟩
    · rw [hnext]
      intro g hg
      unfold Seen.next at hg
      rw [if_neg hready] at hg
      refine Nat.le_add_right_of_le ?_
      split at hg
      · rcases mem_cons.mp hg with rfl | hg
        · exact .refl
        · exact h.current g hg
      · exact h.current g hg
    · rw [hnext, hleft]
      exact fun g hg => Nat.le_add_right_of_le (h.left g hg)
    · rw [hnext, hleft]
      exact fun _ g hg => Nat.lt_add_right n (h.behind hentry g hg)
    · exact fun haway => absurd haway hready

namespace LifecycleActor

variable {a : LifecycleActor} (w : World)

/-- What a client can compare generations by. -/
def GenerationKept (a : LifecycleActor) : Prop := Kept a.state a.history a.restartGeneration

/-- Effects touch neither the machine nor what was published, and count bumps. -/
theorem effects_frame (effects : List Effect) :
    (effects.foldl (apply w) a).state = a.state ∧ (effects.foldl (apply w) a).history = a.history ∧
      (effects.foldl (apply w) a).restartGeneration =
        a.restartGeneration + effects.count .bumpGeneration := by
  induction effects generalizing a with
  | nil => exact ⟨rfl, rfl, rfl⟩
  | cons e effects ih =>
    obtain ⟨hstate, hhistory, hgen⟩ := ih (a := a.apply w e)
    rw [foldl_cons, hstate, hhistory, hgen, count_cons]
    cases e with
    | bumpGeneration =>
      refine ⟨rfl, rfl, ?_⟩
      change a.restartGeneration + 1 + _ = _
      simp only [beq_self_eq_true, if_true]
      omega
    | _ => exact ⟨rfl, rfl, rfl⟩

theorem kept_dispatch (h : a.GenerationKept) (hbumps : a.state.bumps (a.state.handle event).1
      ((a.state.handle event).2.count .bumpGeneration) = true) :
    (a.dispatch w event).GenerationKept := by
  unfold GenerationKept dispatch
  obtain ⟨hstate, hhistory, hgen⟩ := effects_frame w (a := publishState
    { a with state := (a.state.handle event).1 } a.state.toPublic
      (a.state.handle event).1.toPublic) (a.state.handle event).2
  rw [hstate, hhistory, hgen]
  unfold publishState
  split
  next hsame =>
    exact Kept.stay h hsame _
  · exact Kept.move h hbumps

theorem kept_event (h : a.GenerationKept) (hne : event ≠ .failure) :
    (a.dispatch w event).GenerationKept := kept_dispatch w h (State.bumps_handle a.state hne)

/-! ## Every turn -/

theorem kept_onCommand (h : a.GenerationKept) (c : Command) : (a.onCommand w c).GenerationKept := by
  cases c with
  | checkStorage caller =>
    unfold onCommand onStorageCheck
    dsimp only
    split <;> exact h
  | stopStorage caller =>
    unfold onCommand onStorageStop
    dsimp only
    split
    · exact h
    split
    · exact h
    · exact kept_event w h nofun
  | resumeStorage caller =>
    unfold onCommand onResumeStorage
    dsimp only
    split
    · exact h
    · exact kept_event w h nofun
  | ensureReady timeoutMs caller =>
    unfold onCommand onEnsureReady
    dsimp only
    split
    · exact h
    split
    · exact kept_event w h nofun
    split
    · exact kept_event w h nofun
    · exact h
  | shutdown caller =>
    unfold onCommand onShutdown
    dsimp only
    split
    · exact h
    · exact h
    · exact h
    · exact kept_event w h nofun
    · exact kept_event w h nofun
    split
    · exact kept_event w h nofun
    · exact h
  | forceStop caller =>
    unfold onCommand onForceStop
    dsimp only
    split
    · exact h
    split
    · exact h
    · exact kept_event w h nofun
  | activity => exact kept_event w h nofun

theorem kept_startIfPending (h : a.GenerationKept) : (a.startIfPending w).GenerationKept := by
  unfold startIfPending
  split
  · exact h
  split
  · exact h
  · exact kept_event w h nofun

/-- Every outcome but a failed stop or removal. -/
theorem kept_onOutcome (h : a.GenerationKept) {outcome : InternalEvent}
    (hboot : ∀ reason, outcome = .bootFailed reason → a.state.isBooting = true)
    (hclean : ∀ reason, outcome ≠ .stopFailed reason ∧ outcome ≠ .removeFailed reason) :
    (a.onOutcome w outcome).GenerationKept := by
  cases outcome with
  | agentReady =>
    have hready : (a.dispatch w .agentReady).GenerationKept := kept_event w h nofun
    unfold onOutcome
    dsimp only
    split
    · exact kept_event w hready nofun
    · exact hready
  | bootFailed reason =>
    have hfailed : (a.dispatch w .failure).GenerationKept :=
      kept_dispatch w h (State.bumps_failure (hboot reason rfl))
    unfold onOutcome
    dsimp only
    split
    · exact hfailed
    · exact hfailed
  | stopped =>
    have hstopped : (a.dispatch w .stopped).GenerationKept := kept_event w h nofun
    exact hstopped
  | removed =>
    have hremoved : (a.dispatch w .removed).GenerationKept := kept_event w h nofun
    exact hremoved
  | stopFailed reason => exact absurd rfl (hclean reason).1
  | removeFailed reason => exact absurd rfl (hclean reason).2

end LifecycleActor

/-- No sub-task of the current epoch reports that a stop or a removal failed. -/
def Input.Clean (a : LifecycleActor) : Input → Prop
  | .internal ⟨epoch, .stopFailed _⟩ => epoch ≠ a.epoch
  | .internal ⟨epoch, .removeFailed _⟩ => epoch ≠ a.epoch
  | _ => True

instance (a : LifecycleActor) (i : Input) : Decidable (i.Clean a) := by
  unfold Input.Clean
  split <;> infer_instance

namespace LifecycleActor

variable {a : LifecycleActor} (w : World)

theorem kept_onInternal (hinv : a.Inv) (h : a.GenerationKept) (c : Completion)
    (hpos : (Input.internal c).Possible a) (hclean : (Input.internal c).Clean a) :
    (a.onInternal w c).GenerationKept := by
  unfold onInternal
  dsimp only
  split
  · exact h
  rename_i heq
  have hepoch : c.epoch = a.epoch := not_not.mp heq
  obtain ⟨kind, hfits, hreports⟩ := hinv.task_of_report hpos hepoch
  refine kept_startIfPending w (kept_onOutcome w ?_ ?_ ?_)
  · exact h
  · intro reason ho
    rw [ho] at hreports
    exact State.state_of_reports hfits hreports
  · intro reason
    obtain ⟨epoch, outcome⟩ := c
    constructor <;> rintro rfl <;> exact hclean hepoch

theorem kept_react (hinv : a.Inv) (h : a.GenerationKept) (i : World × Input)
    (hi : i.2.Possible a ∧ i.2.Clean a) : (a.react i).GenerationKept := by
  obtain ⟨w, i⟩ := i
  cases i with
  | command c => exact kept_onCommand w h c
  | internal c => exact kept_onInternal w hinv h c hi.1 hi.2
  | idleTick =>
    change (a.onIdleTick w).GenerationKept
    unfold onIdleTick
    split
    · exact h
    · split
      · exact kept_event w h nofun
      · exact h
  | livenessTick =>
    change (a.onLivenessTick w).GenerationKept
    unfold onLivenessTick
    split
    · exact kept_event w h nofun
    · exact h

theorem kept_run (hinv : a.Inv) (h : a.GenerationKept) (inputs : List (World × Input))
    (hinputs : History.Throughout react a (fun a i => i.2.Possible a ∧ i.2.Clean a) inputs) :
    (History.after react a inputs).GenerationKept :=
  (History.keeps (I := fun a => a.Inv ∧ a.GenerationKept)
    (fun _ i ha hi => ⟨inv_react ha.1 i hi.1, kept_react ha.1 ha.2 i hi⟩) ⟨hinv, h⟩ hinputs).2

theorem kept_new (config : Config) : (new config).GenerationKept :=
  ⟨History.throughout_nil, forall_mem_nil _,
    forall_mem_nil _, fun _ => forall_mem_nil _,
    fun _ => rfl⟩

end LifecycleActor

/-- In every run in which no stop or removal fails, two visits of `Running` with the machine
down in between are told apart by the restart generation. -/
theorem generations_separate (config : Config) (inputs : List (World × Input))
    (hinputs : History.Throughout LifecycleActor.react (LifecycleActor.new config)
      (fun a i => i.2.Possible a ∧ i.2.Clean a) inputs) :
    Separated (History.after LifecycleActor.react (LifecycleActor.new config) inputs).history :=
  separated_of_fresh (LifecycleActor.kept_run (LifecycleActor.inv_new config)
    (LifecycleActor.kept_new config) inputs hinputs).fresh

/-- A shutdown and a second boot. -/
theorem generations_separate_stop :
    Separated (History.after LifecycleActor.react (LifecycleActor.new ⟨true, 60⟩)
      (bootAndStop ++ [(calmWorld, .internal ⟨3, .agentReady⟩)])).history :=
  generations_separate ⟨true, 60⟩ _ (by decide)

/-- A boot, a forced removal that fails, and the boot after it. -/
def failedRemoval : List (World × Input) :=
  [(calmWorld, .command (.ensureReady 1000 1)), (calmWorld, .internal ⟨1, .agentReady⟩),
    (calmWorld, .command (.forceStop 2)), (calmWorld, .internal ⟨2, .removeFailed "record"⟩),
    (calmWorld, .command (.ensureReady 1000 3)), (calmWorld, .internal ⟨3, .agentReady⟩)]

/-- Both boots reach `Running` in generation 0. -/
theorem failed_removal_keeps_generation :
    History.Throughout LifecycleActor.react (LifecycleActor.new ⟨true, 60⟩)
        (fun a i => i.2.Possible a) failedRemoval ∧
      ¬ Separated (History.after LifecycleActor.react (LifecycleActor.new ⟨true, 60⟩)
        failedRemoval).history := by
  refine ⟨by decide, fun h => ?_⟩
  have hlt := h [(.creating, 0)] 0 [(.stopping, 0), (.failed, 0), (.creating, 0)] 0 [] rfl
    ⟨(.stopping, 0), mem_cons_self, rfl⟩
  exact absurd hlt (Nat.lt_irrefl 0)

end Arcbox.Engine.Lifecycle

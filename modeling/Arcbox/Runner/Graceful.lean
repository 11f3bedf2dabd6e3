import Arcbox.Foundation.History
import Arcbox.Runner.Supervisor

set_option autoImplicit false

/-!
# Runner agent: a graceful handover leaves the jobs alone

A restart or an update waits until no job is in flight and then takes the process down.  It
relies on admission being closed from the request on.  An offer that has read the handover flag
before the request and reserves its slot after the wait has found the slots gone is the one gap.
-/

namespace Arcbox.Runner.Supervisor

open Foundation Foundation.History Function List AList

variable {s s' : Supervisor}

/-! ## Steps that start and end no flight -/

/-- A step that starts and ends no flight, leaves the handover alone and kills nothing. -/
structure Calm (s s' : Supervisor) : Prop where
  flights : ∀ job, (s'.inFlight.lookup job).isSome = (s.inFlight.lookup job).isSome
  tasks : ∀ id, (s'.tasks id).map Task.jobId = (s.tasks id).map Task.jobId
  reason : s'.reason = s.reason
  shutdown : s'.shutdown = s.shutdown
  stream : s'.stream = s.stream
  restarts : s'.restarts = s.restarts
  kills : ∀ job, .killed job ∈ s'.log → .killed job ∈ s.log

theorem Calm.refl (s : Supervisor) : Calm s s :=
  ⟨fun _ => rfl, fun _ => rfl, rfl, rfl, rfl, rfl, fun _ h => h⟩

theorem Calm.trans {s'' : Supervisor} (h : Calm s s') (h' : Calm s' s'') : Calm s s'' :=
  ⟨fun job => (h'.flights job).trans (h.flights job), fun id => (h'.tasks id).trans (h.tasks id),
    h'.reason.trans h.reason, h'.shutdown.trans h.shutdown, h'.stream.trans h.stream,
    h'.restarts.trans h.restarts, fun job hk => h.kills job (h'.kills job hk)⟩

theorem calm_withPc (s : Supervisor) (pc : Pc) : Calm s { s with pc := pc } :=
  ⟨fun _ => rfl, fun _ => rfl, rfl, rfl, rfl, rfl, fun _ h => h⟩

variable {e : Event} {id : Nat} {t : Task} {r : Reason}

theorem calm_tell (s : Supervisor) (he : ∀ job, e ≠ .killed job) : Calm s (s.tell e) := by
  refine ⟨fun _ => rfl, fun _ => rfl, rfl, rfl, rfl, rfl, fun job hk => ?_⟩
  rcases mem_append.mp hk with hk | hk
  · exact hk
  · exact absurd (mem_singleton.mp hk).symm (he job)

theorem calm_setEntry {job : JobId} {e e' : Entry} (hlook : s.inFlight.lookup job = some e) :
    Calm s (s.setEntry job e') := by
  refine ⟨fun other => ?_, fun _ => rfl, rfl, rfl, rfl, rfl, fun _ h => h⟩
  by_cases hother : other = job
  · subst hother
    change ((s.inFlight.insert other e').lookup other).isSome = _
    rw [lookup_insert, hlook]
    rfl
  · exact congrArg Option.isSome (lookup_insert_ne hother)

theorem calm_setTask {t' : Task} (ht : s.tasks id = some t) (hjob : t'.jobId = t.jobId) :
    Calm s (s.setTask id t') := by
  refine ⟨fun _ => rfl, fun other => ?_, rfl, rfl, rfl, rfl, fun _ h => h⟩
  change (Function.update s.tasks id (some t') other).map Task.jobId = _
  by_cases hother : other = id
  · subst hother
    rw [update_self, ht]
    exact congrArg some hjob
  · rw [update_of_ne hother]

theorem calm_sendVerdict (s : Supervisor) (token : Token) (msg : Msg) :
    Calm s (s.sendVerdict token msg) :=
  ⟨fun _ => rfl, fun _ => rfl, rfl, rfl, rfl, rfl, fun _ h => h⟩

theorem calm_accept (s : Supervisor) (job : JobId) (token : Token) : Calm s (s.accept job token) :=
  (calm_sendVerdict s token _).trans (calm_tell _ nofun)

theorem calm_reject (s : Supervisor) (job : JobId) (token : Token) (reason : Refusal)
    (he : ∀ job, e ≠ .killed job) : Calm s (s.reject job token reason e) :=
  (calm_sendVerdict s token _).trans (calm_tell _ he)

theorem calm_letGo (s : Supervisor) (job : JobId) : Calm s (s.letGo job) := by
  unfold letGo
  split
  · exact calm_setEntry ‹_›
  · exact Calm.refl s

theorem letGo_tasks (s : Supervisor) (job : JobId) : (s.letGo job).tasks = s.tasks := by
  unfold letGo
  split
  · rfl
  · rfl

theorem calm_handleCancel (s : Supervisor) (job : JobId) (he : ∀ job, e ≠ .killed job) :
    Calm s (s.handleCancel job e) := by
  unfold handleCancel
  split
  · exact Calm.refl s
  · split
    · exact Calm.refl s
    · exact (calm_setEntry ‹_›).trans (calm_tell _ he)

theorem calm_settle (ht : s.tasks id = some t) (settling : JobSlot → Settling × JobSlot)
    (answering : List Token → Phase) : Calm s (s.settle id t settling answering) := by
  have hpanic : Calm s { s with panicked := true } :=
    ⟨fun _ => rfl, fun _ => rfl, rfl, rfl, rfl, rfl, fun _ h => h⟩
  unfold settle
  split
  · exact hpanic
  rename_i entry hlook
  split
  · exact Calm.refl s
  split
  · exact hpanic
  · exact calm_setTask ht rfl
  · exact (calm_setEntry hlook).trans (calm_setTask (s := s.setEntry _ _) ht rfl)

/-- A task's accesses up to the release of its slot. -/
theorem calm_advance (ht : s.tasks id = some t) (outcome : Outcome)
    (hphase : t.phase ≠ .releasing) : Calm s (s.advance id t outcome) := by
  unfold advance
  cases hp : t.phase with
  | releasing => exact absurd hp hphase
  | starting =>
    cases outcome with
    | starts =>
      have hset : Calm s (s.setTask id { t with phase := .started }) := calm_setTask ht rfl
      exact hset.trans (calm_tell _ nofun)
    | startFails error => exact calm_setTask ht rfl
    | observesCancel =>
      dsimp only
      split
      · exact calm_setTask ht rfl
      · exact Calm.refl s
    | panics => exact calm_setTask ht rfl
    | exits => exact Calm.refl s
  | started | failed => exact calm_settle ht _ _
  | accepting offers =>
    cases offers with
    | nil =>
      exact (calm_letGo s t.jobId).trans
        (calm_setTask (s := s.letGo _) ((congrFun (letGo_tasks s t.jobId) id).trans ht) rfl)
    | cons offer offers =>
      exact (calm_accept s t.jobId offer).trans (calm_setTask (s := s.accept _ _) ht rfl)
  | rejecting reason offers =>
    cases offers with
    | nil =>
      exact (calm_letGo s t.jobId).trans
        (calm_setTask (s := s.letGo _) ((congrFun (letGo_tasks s t.jobId) id).trans ht) rfl)
    | cons offer offers =>
      exact (calm_reject s t.jobId offer reason (e := .startRejected t.jobId offer)
        nofun).trans
        (calm_setTask (s := s.reject _ _ _ _) ht rfl)
  | running =>
    cases outcome with
    | starts | startFails => exact Calm.refl s
    | observesCancel =>
      dsimp only
      split
      · exact calm_setTask ht rfl
      · exact Calm.refl s
    | panics | exits => exact calm_setTask ht rfl
  | exited =>
    exact (calm_sendVerdict s _ _).trans (calm_setTask (s := s.sendVerdict _ _) ht rfl)

theorem letGo_pc (s : Supervisor) (job : JobId) : (s.letGo job).pc = s.pc := by
  unfold letGo
  split
  · rfl
  · rfl

theorem settle_pc (s : Supervisor) (id : Nat) (t : Task)
    (settling : JobSlot → Settling × JobSlot) (answering : List Token → Phase) :
    (s.settle id t settling answering).pc = s.pc := by
  unfold settle
  split
  · rfl
  · split
    · rfl
    · split <;> rfl

theorem advance_pc (s : Supervisor) (id : Nat) (t : Task) (outcome : Outcome) :
    (s.advance id t outcome).pc = s.pc := by
  unfold advance
  cases t.phase with
  | starting =>
    cases outcome with
    | observesCancel => dsimp only; split <;> rfl
    | starts | startFails | panics | exits => rfl
  | started | failed => exact settle_pc s id t _ _
  | accepting offers | rejecting _ offers =>
    cases offers with
    | nil => exact letGo_pc s t.jobId
    | cons _ _ => rfl
  | running =>
    cases outcome with
    | observesCancel => dsimp only; split <;> rfl
    | starts | startFails | panics | exits => rfl
  | exited => rfl
  | releasing =>
    change (s.release id t.jobId).pc = s.pc
    unfold release
    split <;> rfl

/-! ## The invariant -/

/-- The offer has passed the check of the handover and has no task yet. -/
def admitted : Pc → Bool
  | .checkHost _ => true
  | .reserve _ _ => true
  | .spawn _ _ => true
  | _ => false

/-- What the accesses made for an offer have established about its job. -/
def At (s : Supervisor) : Pc → Prop
  | .checkUnacked order => s.inFlight.lookup order.jobId = none
  | .checkDraining order => s.inFlight.lookup order.jobId = none
  | .checkHandover order => s.inFlight.lookup order.jobId = none
  | .checkHost order => s.inFlight.lookup order.jobId = none
  | .reserve order _ => s.inFlight.lookup order.jobId = none
  | .spawn order _ => (s.inFlight.lookup order.jobId).isSome = true ∧
      ∀ id t, s.tasks id = some t → t.jobId ≠ order.jobId
  | _ => True

/-- No job is in flight and none is about to be. -/
def Deserted (s : Supervisor) : Prop :=
  (∀ job, s.inFlight.lookup job = none) ∧ admitted s.pc = false

/-- A wait that has found the slots gone. -/
inductive Found (s : Supervisor) : Prop
  | shutdown (h : s.shutdown = true)
  | restart (id : Nat) (w : Quiesce) (h : s.restarts id = some w) (hw : w ≠ .jobs)
  | update (w : Quiesce) (h : s.stream = .serving (some w)) (hw : w ≠ .jobs)
  | applying (h : s.stream = .applying)

theorem Found.of_eq (hf : Found s') (hshutdown : s'.shutdown = s.shutdown)
    (hrestarts : s'.restarts = s.restarts) (hstream : s'.stream = s.stream) : Found s := by
  cases hf with
  | shutdown h => exact .shutdown (hshutdown ▸ h)
  | restart id w h hw => exact .restart id w (hrestarts ▸ h) hw
  | update w h hw => exact .update w (hstream ▸ h) hw
  | applying h => exact .applying (hstream ▸ h)

/-- An update is under way, or the loop has been left. -/
def leaving : Stream → Bool
  | .serving update => update.isSome
  | .disconnected => false
  | .updating => true
  | .applying => true
  | .stopping => true

structure Orderly (s : Supervisor) : Prop where
  single : ∀ a b ta tb, s.tasks a = some ta → s.tasks b = some tb → ta.jobId = tb.jobId → a = b
  manned : ∀ id t, s.tasks id = some t → (s.inFlight.lookup t.jobId).isSome = true
  at_pc : s.At s.pc
  on_stream : s.pc ≠ .idle → ∃ update, s.stream = .serving update
  restarting : ∀ id w, s.restarts id = some w → Reason.restart.rank ≤ s.reason.rank
  committed : s.shutdown = true → Reason.restart.rank ≤ s.reason.rank ∨ s.stream = .stopping
  stopping : s.stream = .stopping → s.shutdown = true
  leaving : leaving s.stream = true → s.reason.pending = true
  deserted : Found s → s.Deserted
  unkilled : ∀ job, .killed job ∉ s.log

theorem Orderly.unkilled_tell (h : Orderly s) (he : ∀ job, e ≠ .killed job) (job : JobId) :
    .killed job ∉ (s.tell e).log :=
  fun hk => h.unkilled job ((calm_tell s he).kills job hk)

theorem orderly_fresh : Orderly fresh where
  single := nofun
  manned := nofun
  at_pc := trivial
  on_stream := fun h => absurd rfl h
  restarting := nofun
  committed := nofun
  stopping := nofun
  leaving := nofun
  deserted := fun _ => ⟨fun _ => rfl, rfl⟩
  unkilled := fun _ => not_mem_nil

theorem pending_of_rank (h : Reason.restart.rank ≤ r.rank) : r.pending = true := by
  cases r with
  | none => cases h
  | update | restart | forcedRestart | terminating => rfl

/-- From the moment a wait has found the slots gone, admission is closed. -/
theorem Orderly.pending (h : Orderly s) (hf : Found s) : s.reason.pending = true := by
  cases hf with
  | shutdown hs =>
    rcases h.committed hs with hrank | hstop
    · exact pending_of_rank hrank
    · exact h.leaving (by rw [hstop]; rfl)
  | restart id w hw => exact pending_of_rank (h.restarting id w hw)
  | update w hw => exact h.leaving (by rw [hw]; rfl)
  | applying hs => exact h.leaving (by rw [hs]; rfl)

/-! ## Calm steps -/

theorem lookup_none_of_calm (hc : Calm s s') {job : JobId} (h : s.inFlight.lookup job = none) :
    s'.inFlight.lookup job = none := by
  have hsome := hc.flights job
  rw [h] at hsome
  exact Option.not_isSome_iff_eq_none.mp (by rw [hsome]; exact Bool.false_ne_true)

theorem task_of_calm (hc : Calm s s') {t' : Task} (ht' : s'.tasks id = some t') :
    ∃ t, s.tasks id = some t ∧ t.jobId = t'.jobId := by
  have hmap := hc.tasks id
  rw [ht'] at hmap
  exact Option.map_eq_some_iff.mp hmap.symm

theorem At.calm {pc : Pc} (h : s.At pc) (hc : Calm s s') : s'.At pc := by
  cases pc with
  | spawn order backend =>
    refine ⟨(hc.flights _).trans h.1, fun id t' ht' => ?_⟩
    obtain ⟨t, ht, hjob⟩ := task_of_calm hc ht'
    rw [← hjob]
    exact h.2 id t ht
  | checkUnacked | checkDraining | checkHandover | checkHost | reserve =>
    exact lookup_none_of_calm hc h
  | idle | checkReplay | checkInFlight | getSlot | answer => trivial

section

variable (h : Orderly s)

include h

/-- A calm step keeps the invariant when the offer being handled passes the check of the handover
only while none is pending. -/
theorem Orderly.calm (hc : Calm s s') (hat : s.At s'.pc)
    (hon : s'.pc ≠ .idle → ∃ update, s.stream = .serving update)
    (hadmitted : admitted s'.pc = true → admitted s.pc = true ∨ s.reason.pending = false) :
    Orderly s' where
  single := by
    intro a b ta tb hta htb hjob
    obtain ⟨ta₀, ha, hja⟩ := task_of_calm hc hta
    obtain ⟨tb₀, hb, hjb⟩ := task_of_calm hc htb
    exact h.single a b ta₀ tb₀ ha hb (hja.trans (hjob.trans hjb.symm))
  manned := by
    intro id t' ht'
    obtain ⟨t, ht, hjob⟩ := task_of_calm hc ht'
    rw [hc.flights, ← hjob]
    exact h.manned id t ht
  at_pc := hat.calm hc
  on_stream := by
    intro hpc
    rw [hc.stream]
    exact hon hpc
  restarting := by
    rw [hc.restarts, hc.reason]
    exact h.restarting
  committed := by
    rw [hc.shutdown, hc.reason, hc.stream]
    exact h.committed
  stopping := by
    rw [hc.shutdown, hc.stream]
    exact h.stopping
  leaving := by
    rw [hc.reason, hc.stream]
    exact h.leaving
  deserted := by
    intro hf
    have hbefore := hf.of_eq hc.shutdown hc.restarts hc.stream
    obtain ⟨hnone, hpc⟩ := h.deserted hbefore
    refine ⟨fun job => lookup_none_of_calm hc (hnone job), ?_⟩
    refine Bool.eq_false_iff.mpr fun htrue => ?_
    rcases hadmitted htrue with hbefore' | hopen
    · rw [hpc] at hbefore'
      cases hbefore'
    · rw [h.pending hbefore] at hopen
      cases hopen
  unkilled := fun job hk => h.unkilled job (hc.kills job hk)

/-- Steps of the other tasks. -/
theorem Orderly.aside (hc : Calm s s') (hpc : s'.pc = s.pc) : Orderly s' :=
  h.calm hc (hpc ▸ h.at_pc) (fun hne => h.on_stream (hpc ▸ hne)) (fun ha => .inl (hpc ▸ ha))

/-! ## The handling of an offer -/

/-- On to the next access for an offer. -/
theorem Orderly.goto (hne : s.pc ≠ .idle) {pc : Pc} (hat : s.At pc)
    (hadmitted : admitted pc = true → admitted s.pc = true ∨ s.reason.pending = false) :
    Orderly { s with pc := pc } :=
  h.calm (calm_withPc s pc) hat (fun _ => h.on_stream hne) hadmitted

theorem Orderly.not_found (hpc : admitted s.pc = true) : ¬ Found s := by
  intro hf
  rw [(h.deserted hf).2] at hpc
  cases hpc

theorem orderly_answer (order : ProvisionRunner) (a : Answer) (held : Bool) :
    Orderly (s.answer order a held) := by
  have hstart : ∀ job, Event.startRejected order.jobId order.offerToken ≠ .killed job :=
    nofun
  have hrefuse : ∀ job, Event.refused order.jobId order.offerToken ≠ .killed job :=
    nofun
  cases a with
  | accept =>
    have hsent := calm_accept s order.jobId order.offerToken
    cases held with
    | true =>
      exact h.calm ((hsent.trans (calm_letGo _ order.jobId)).trans (calm_withPc _ .idle)) trivial
        (absurd rfl) nofun
    | false =>
      exact h.calm (hsent.trans (calm_withPc _ .idle)) trivial (absurd rfl)
        nofun
  | reject reason =>
    cases held with
    | true =>
      have hsent := calm_reject s order.jobId order.offerToken reason hstart
      exact h.calm ((hsent.trans (calm_letGo _ order.jobId)).trans (calm_withPc _ .idle)) trivial
        (absurd rfl) nofun
    | false =>
      have hsent := calm_reject s order.jobId order.offerToken reason hrefuse
      exact h.calm (hsent.trans (calm_withPc _ .idle)) trivial (absurd rfl)
        nofun

theorem orderly_duplicate (hne : s.pc ≠ .idle) (order : ProvisionRunner) :
    Orderly (s.duplicate order) := by
  unfold duplicate
  split
  · exact h.goto hne trivial nofun
  rename_i entry hlook
  split
  · exact h.calm ((calm_setEntry hlook).trans (calm_withPc _ .idle)) trivial
      (absurd rfl) nofun
  · exact h.calm ((calm_setEntry hlook).trans (calm_withPc _ (.answer order .accept true)))
      trivial (fun _ => h.on_stream hne) nofun
  · exact h.calm ((calm_setEntry hlook).trans (calm_withPc _ (.answer order (.reject _) true)))
      trivial (fun _ => h.on_stream hne) nofun
  · exact h.goto hne trivial nofun

/-- The reservation starts a flight: no wait has found the slots gone. -/
theorem orderly_reserve {order : ProvisionRunner} {backend : Backend}
    (hpc : s.pc = .reserve order backend) :
    Orderly
      { (s.setEntry order.jobId ⟨.new, false⟩).tell (.issued order.jobId) with
        pc := .spawn order backend } := by
  have hnone : s.inFlight.lookup order.jobId = none := by
    have hat := h.at_pc
    rw [hpc] at hat
    exact hat
  have hopen : ¬ Found s := h.not_found (by rw [hpc]; rfl)
  have hsome : ∀ {job}, (s.inFlight.lookup job).isSome = true →
      ((s.inFlight.insert order.jobId ⟨.new, false⟩).lookup job).isSome = true := by
    intro job hjob
    by_cases heq : job = order.jobId
    · rw [heq, lookup_insert]
      rfl
    · rw [lookup_insert_ne heq]
      exact hjob
  refine { h with manned := ?_, at_pc := ⟨?_, ?_⟩, on_stream := ?_, deserted := ?_, unkilled := ?_ }
  · exact fun id t ht => hsome (h.manned id t ht)
  · exact congrArg Option.isSome (lookup_insert s.inFlight)
  · intro id t ht hjob
    have hmanned := h.manned id t ht
    rw [hjob, hnone] at hmanned
    cases hmanned
  · exact fun _ => h.on_stream (by rw [hpc]; exact nofun)
  · exact fun hf => absurd (hf.of_eq (s := s) rfl rfl rfl) hopen
  exact h.unkilled_tell nofun

theorem orderly_spawn {order : ProvisionRunner} {backend : Backend}
    (hpc : s.pc = .spawn order backend) :
    Orderly
      { s with
        tasks := Function.update s.tasks s.nextTask
          (some ⟨order.jobId, order.offerToken, .starting⟩)
        nextTask := s.nextTask + 1
        pc := .idle } := by
  have hat := h.at_pc
  rw [hpc] at hat
  have hopen : ¬ Found s := h.not_found (by rw [hpc]; rfl)
  refine { h with single := ?_, manned := ?_, at_pc := trivial,
                  on_stream := absurd rfl, deserted := ?_ }
  · intro a b ta tb hta htb hjob
    rcases of_update_some hta with ⟨ha, rfl⟩ | ⟨-, ha⟩ <;>
      rcases of_update_some htb with ⟨hb, rfl⟩ | ⟨-, hb⟩
    · rw [ha, hb]
    · exact absurd hjob.symm (hat.2 b tb hb)
    · exact absurd hjob (hat.2 a ta ha)
    · exact h.single a b ta tb ha hb hjob
  · intro id t ht
    rcases of_update_some ht with ⟨-, rfl⟩ | ⟨-, ht⟩
    · exact hat.1
    · exact h.manned id t ht
  · exact fun hf => absurd (hf.of_eq (s := s) rfl rfl rfl) hopen

theorem orderly_dispatch (host : HostView) : Orderly (s.dispatch host) := by
  have hat := h.at_pc
  unfold dispatch
  by_cases hne : s.pc = .idle
  · rw [hne]
    exact h
  cases hpc : s.pc with
  | idle => exact absurd hpc hne
  | checkReplay order =>
    dsimp only
    split
    · exact h.goto hne trivial nofun
    · exact h.goto hne trivial nofun
  | checkInFlight order =>
    dsimp only
    split
    · exact h
    split
    · exact h.goto hne trivial nofun
    next hnone =>
      exact h.goto hne (Option.not_isSome_iff_eq_none.mp hnone) nofun
  | checkUnacked | checkDraining =>
    rw [hpc] at hat
    dsimp only
    split
    · exact h.goto hne trivial nofun
    · exact h.goto hne hat nofun
  | checkHandover order =>
    rw [hpc] at hat
    dsimp only
    split
    · exact h.goto hne trivial nofun
    next hopen =>
      exact h.goto hne hat fun _ => .inr (Bool.eq_false_iff.mpr hopen)
  | checkHost order =>
    rw [hpc] at hat
    dsimp only
    split
    · exact h.goto hne trivial nofun
    · exact h.goto hne hat fun _ => .inl (by rw [hpc]; rfl)
  | getSlot order =>
    dsimp only
    split
    · exact h
    · exact orderly_duplicate h hne order
  | answer order a held => exact orderly_answer h order a held
  | reserve order backend => exact orderly_reserve h hpc
  | spawn order backend => exact orderly_spawn h hpc

/-! ## The release of a slot -/

theorem orderly_release (ht : s.tasks id = some t) : Orderly (s.release id t.jobId) := by
  unfold release
  split
  · exact h
  have hkept : ∀ {id' t'}, Function.update s.tasks id none id' = some t' →
      s.tasks id' = some t' ∧ t'.jobId ≠ t.jobId := by
    intro id' t' ht'
    obtain ⟨hid, ht'⟩ := of_update_none ht'
    exact ⟨ht', fun hjob => hid (h.single id' id t' t ht' ht hjob)⟩
  have hnone : ∀ {job}, s.inFlight.lookup job = none →
      (s.inFlight.erase t.jobId).lookup job = none := by
    intro job hjob
    by_cases heq : job = t.jobId
    · rw [heq]
      exact lookup_erase t.jobId s.inFlight
    · rw [lookup_erase_ne heq]
      exact hjob
  refine { h with single := ?_, manned := ?_, at_pc := ?_, deserted := ?_, unkilled := ?_ }
  · exact fun a b ta tb hta htb => h.single a b ta tb (hkept hta).1 (hkept htb).1
  · intro id' t' ht'
    obtain ⟨hold, hjob⟩ := hkept ht'
    exact (congrArg Option.isSome (lookup_erase_ne hjob)).trans (h.manned id' t' hold)
  · have hat := h.at_pc
    cases hpc : s.pc with
    | spawn order backend =>
      rw [hpc] at hat
      have hne : order.jobId ≠ t.jobId := fun heq => hat.2 id t ht heq.symm
      refine ⟨(congrArg Option.isSome (lookup_erase_ne hne)).trans hat.1, ?_⟩
      exact fun id' t' ht' => hat.2 id' t' (hkept ht').1
    | checkUnacked | checkDraining | checkHandover | checkHost | reserve =>
      rw [hpc] at hat; exact hnone hat
    | idle | checkReplay | checkInFlight | getSlot | answer => trivial
  · intro hf
    have hbefore : Found s := hf.of_eq rfl rfl rfl
    exact ⟨fun job => hnone ((h.deserted hbefore).1 job), (h.deserted hbefore).2⟩
  exact h.unkilled_tell nofun

end

/-! ## Requests, waits and commits -/

theorem rank_le_escalate (r next : Reason) : r.rank ≤ (r.escalate next).rank := by
  unfold Reason.escalate
  split
  · omega
  · exact le_refl _

theorem le_rank_escalate (r next : Reason) : next.rank ≤ (r.escalate next).rank := by
  unfold Reason.escalate
  split
  · exact le_refl _
  · omega

theorem pending_iff : r.pending = true ↔ 0 < r.rank := by
  cases r <;> decide

theorem pending_escalate (next : Reason) (h : r.pending = true) :
    (r.escalate next).pending = true :=
  pending_iff.mpr (Nat.lt_of_lt_of_le (pending_iff.mp h) (rank_le_escalate r next))

theorem pending_requestUpdate (r : Reason) : (r.escalate .update).pending = true :=
  pending_iff.mpr (Nat.lt_of_lt_of_le Nat.zero_lt_one (le_rank_escalate r .update))

theorem rank_revokeUpdate (h : Reason.restart.rank ≤ r.rank) :
    Reason.restart.rank ≤ r.revokeUpdate.rank := by
  cases r with
  | none => cases h
  | update => exact absurd h (by decide)
  | restart | forcedRestart | terminating => exact h

theorem lookup_none_of_isEmpty (h : s.inFlight.entries.isEmpty = true) (job : JobId) :
    s.inFlight.lookup job = none := by
  refine lookup_eq_none.mpr fun hmem => ?_
  have hkeys : job ∈ s.inFlight.keys := hmem
  unfold AList.keys at hkeys
  rw [List.isEmpty_iff.mp h] at hkeys
  cases hkeys

/-- Off the stream no offer is being handled. -/
theorem Orderly.idle (h : Orderly s) (hstream : ∀ update, s.stream ≠ .serving update) :
    s.pc = .idle := by
  by_contra hne
  obtain ⟨update, hserving⟩ := h.on_stream hne
  exact hstream update hserving

theorem free_iff : s.free = true ↔ s.pc = .idle ∧ ∃ update, s.stream = .serving update := by
  unfold free
  split
  · exact ⟨fun _ => ⟨‹_›, _, ‹_›⟩, fun _ => rfl⟩
  rename_i hnot
  refine ⟨nofun, ?_⟩
  rintro ⟨hpc, update, hstream⟩
  exact absurd hpc (hnot update hstream)

theorem orderly_restart (h : Orderly s) : Orderly s.restart := by
  unfold restart
  split
  · refine { h with restarting := ?_, committed := ?_, leaving := ?_, deserted := ?_ }
    · exact fun _ _ _ => le_rank_escalate _ _
    · exact fun _ => .inl (le_rank_escalate _ _)
    · exact fun hl => pending_escalate _ (h.leaving hl)
    intro hf
    have hbefore : Found s := by
      cases hf with
      | shutdown hs => exact .shutdown hs
      | restart id w hw hne =>
        change Function.update s.restarts s.nextRestart (some .jobs) id = some w at hw
        by_cases hid : id = s.nextRestart
        · rw [hid, update_self] at hw
          exact absurd (Option.some.inj hw).symm hne
        · rw [update_of_ne hid] at hw
          exact .restart id w hw hne
      | update w hw hne => exact .update w hw hne
      | applying hs => exact .applying hs
    exact h.deserted hbefore
  · exact
      { h with
        restarting := fun _ _ _ => le_rank_escalate _ _
        committed := fun _ => .inl (le_rank_escalate _ _)
        leaving := fun hl => pending_escalate _ (h.leaving hl)
        deserted := fun hf => h.deserted (hf.of_eq rfl rfl rfl) }
  · exact h

/-- A restart whose wait finds the slots gone while an offer is between the check of the handover
and its reservation. -/
def hasty (s : Supervisor) : Move → Bool
  | .awaitRestart id _ =>
    decide (s.restarts id = some .jobs) && s.inFlight.entries.isEmpty && admitted s.pc
  | _ => false

section

variable (h : Orderly s)

include h

/-- A wait of a restart goes on. -/
theorem orderly_wait {w w' : Quiesce} (hw : s.restarts id = some w)
    (hdeserted : w' ≠ .jobs → s.Deserted) :
    Orderly { s with restarts := Function.update s.restarts id (some w') } := by
  refine { h with restarting := ?_, deserted := ?_ }
  · intro id' w'' hw'
    by_cases hid : id' = id
    · exact h.restarting id w hw
    · exact h.restarting id' w'' ((update_of_ne hid _ _).symm.trans hw')
  intro hf
  cases hf with
  | shutdown hs => exact h.deserted (.shutdown hs)
  | restart id' w'' hw' hne =>
    change Function.update s.restarts id (some w') id' = some w'' at hw'
    by_cases hid : id' = id
    · rw [hid, update_self] at hw'
      cases hw'
      exact hdeserted hne
    · rw [update_of_ne hid] at hw'
      exact h.deserted (.restart id' w'' hw' hne)
  | update w hw hne => exact h.deserted (.update w hw hne)
  | applying hs => exact h.deserted (.applying hs)

theorem orderly_awaitRestart {elapsed : Bool} (hcare : hasty s (.awaitRestart id elapsed) = false) :
    Orderly (s.awaitRestart id elapsed) := by
  unfold awaitRestart
  cases hw : s.restarts id with
  | none => exact h
  | some w =>
    cases w with
    | jobs =>
      refine orderly_wait h hw fun hne => ?_
      unfold quiesce at hne
      dsimp only at hne
      split at hne
      next hempty =>
        refine ⟨lookup_none_of_isEmpty hempty, ?_⟩
        unfold hasty at hcare
        dsimp only at hcare
        rw [hw, hempty] at hcare
        exact hcare
      · exact absurd rfl hne
    | acks =>
      exact orderly_wait h hw fun _ => h.deserted (.restart id .acks hw nofun)
    | done =>
      have hfound : Found s := .restart id .done hw nofun
      refine { h with restarting := ?_, committed := ?_, stopping := fun _ => rfl,
                      deserted := fun _ => h.deserted hfound, unkilled := ?_ }
      · intro id' w' _
        exact h.restarting id .done hw
      · exact fun _ => .inl (h.restarting id .done hw)
      · exact h.unkilled_tell (e := .committed) nofun

/-! ## The attach task besides its dispatch -/

theorem orderly_stream {reason : Reason} {stream : Stream}
    (hon : s.pc ≠ .idle → ∃ update, stream = .serving update)
    (hrank : Reason.restart.rank ≤ s.reason.rank → Reason.restart.rank ≤ reason.rank)
    (hstopping : decide (stream = .stopping) = decide (s.stream = .stopping))
    (hleaving : leaving stream = true → reason.pending = true)
    (hupdate : ∀ w, stream = .serving (some w) → w ≠ .jobs → s.Deserted)
    (happlying : stream = .applying → s.Deserted) :
    Orderly { s with reason := reason, stream := stream } := by
  have hstopping : stream = .stopping ↔ s.stream = .stopping := decide_eq_decide.mp hstopping
  refine { h with on_stream := hon, restarting := ?_, committed := ?_, stopping := ?_,
                  leaving := hleaving, deserted := ?_ }
  · exact fun id w hw => hrank (h.restarting id w hw)
  · exact fun hs => (h.committed hs).imp hrank hstopping.mpr
  · exact fun hs => h.stopping (hstopping.mp hs)
  intro hf
  cases hf with
  | shutdown hs => exact h.deserted (.shutdown hs)
  | restart id w hw hne => exact h.deserted (.restart id w hw hne)
  | update w hw hne => exact hupdate w hw hne
  | applying hs => exact happlying hs

theorem orderly_pushUpdate (hstream : s.stream = .serving none) :
    Orderly { s.requestUpdate with stream := .serving (some .jobs) } := by
  refine orderly_stream h (fun _ => ⟨_, rfl⟩) (fun hr => Nat.le_trans hr (rank_le_escalate _ _)) ?_
    (fun _ => pending_requestUpdate _) ?_ nofun
  · rw [hstream]
    rfl
  · intro w hw hne
    cases hw
    exact absurd rfl hne

theorem orderly_pollUpdate (hfree : s.free = true) (elapsed : Bool) :
    Orderly (s.pollUpdate elapsed) := by
  obtain ⟨hpc, -⟩ := free_iff.mp hfree
  unfold pollUpdate
  split
  next hstream =>
    refine orderly_stream h (absurd hpc)
      (fun hr => Nat.le_trans hr (rank_le_escalate _ _)) ?_ (fun _ => pending_requestUpdate _)
      nofun nofun
    rw [hstream]
    rfl
  next w _ hstream =>
    refine orderly_stream h (absurd hpc) id ?_
      (fun _ => h.leaving (by rw [hstream]; rfl)) ?_ nofun
    · rw [hstream]
      rfl
    intro w' hw' hne
    cases hw'
    cases w with
    | jobs =>
      unfold quiesce at hne
      dsimp only at hne
      split at hne
      next hempty =>
        exact ⟨lookup_none_of_isEmpty hempty, by rw [hpc]; rfl⟩
      · exact absurd rfl hne
    | acks => exact h.deserted (.update .acks hstream nofun)
    | done => exact h.deserted (.update .done hstream nofun)
  · exact h

theorem orderly_disconnect (hfree : s.free = true) :
    Orderly { s with stream := .disconnected } := by
  obtain ⟨hpc, update, hstream⟩ := free_iff.mp hfree
  refine orderly_stream h (absurd hpc) id ?_
    nofun nofun nofun
  rw [hstream]
  rfl

theorem orderly_connect (handshake : Handshake) : Orderly (s.connect handshake) := by
  unfold connect
  split
  next hstream =>
    refine orderly_stream h (fun _ => ⟨_, rfl⟩) rank_revokeUpdate ?_ nofun ?_
      nofun
    · rw [hstream]
      rfl
    · exact nofun
  next hstream =>
    have hidle := h.idle (by rw [hstream]; exact nofun)
    refine orderly_stream h (absurd hidle)
      (fun hr => Nat.le_trans hr (rank_le_escalate _ _)) ?_ (fun _ => pending_requestUpdate _)
      nofun nofun
    rw [hstream]
    rfl
  · exact h

theorem orderly_pollSwap : Orderly s.pollSwap := by
  unfold pollSwap
  split
  next hstream =>
    have hidle := h.idle (by rw [hstream]; exact nofun)
    split
    next hempty =>
      refine orderly_stream h (absurd hidle) id ?_
        (fun _ => h.leaving (by rw [hstream]; rfl)) nofun
        (fun _ => ⟨lookup_none_of_isEmpty hempty, by rw [hidle]; rfl⟩)
      rw [hstream]
      rfl
    · exact h
  · exact h

/-- The loop is left once the shutdown token is cancelled. -/
theorem orderly_stopping (hidle : s.pc = .idle) (hfound : Found s) {shutdown : Bool}
    (hshutdown : shutdown = true) {log : List Event} (hlog : ∀ job, .killed job ∉ log) :
    Orderly { s with shutdown := shutdown, stream := .stopping, draining := true, log := log } :=
  { h with
    on_stream := absurd hidle
    committed := fun _ => .inr rfl
    stopping := fun _ => hshutdown
    leaving := fun _ => h.pending hfound
    deserted := fun _ => h.deserted hfound
    unkilled := hlog }

theorem orderly_apply (works : Bool) : Orderly (s.apply works) := by
  unfold apply
  split
  next hstream =>
    have hidle := h.idle (by rw [hstream]; exact nofun)
    split
    · exact orderly_stopping h hidle (.applying hstream) rfl (h.unkilled_tell nofun)
    refine orderly_stream h (absurd hidle) id ?_
      nofun nofun nofun
    rw [hstream]
    rfl
  · exact h

theorem orderly_stop : Orderly s.stop := by
  have hleave : s.shutdown = true → s.pc = .idle →
      Orderly { s with stream := .stopping, draining := true } :=
    fun hs hidle => orderly_stopping h hidle (.shutdown hs) hs h.unkilled
  unfold stop
  split
  · exact hleave ‹_› ‹_›
  next hs hstream =>
    exact hleave hs (h.idle (by rw [hstream]; exact nofun))
  next hs hstream =>
    exact hleave hs (h.idle (by rw [hstream]; exact nofun))
  · exact h

/-- The teardown finds no job to cancel. -/
theorem orderly_kill (hstream : s.stream = .stopping) (job : JobId) (e : Event) :
    Orderly (s.handleCancel job e) := by
  have hnone := (h.deserted (.shutdown (h.stopping hstream))).1 job
  unfold handleCancel
  rw [hnone]
  exact h

/-! ## Whole runs -/

theorem orderly_next (m : Move) (hcare : hasty s m = false) : Orderly (s.next m) := by
  cases m with
  | provision order =>
    unfold next
    dsimp only
    split
    next hfree =>
      exact h.calm (calm_withPc s (.checkReplay order)) trivial
        (fun _ => (free_iff.mp hfree).2) nofun
    · exact h
  | cancel job =>
    unfold next
    dsimp only
    split
    · refine h.aside (calm_handleCancel s job nofun) ?_
      unfold handleCancel
      split
      · rfl
      · split <;> rfl
    · exact h
  | drain =>
    unfold next
    dsimp only
    split
    · exact { h with deserted := fun hf => h.deserted (hf.of_eq rfl rfl rfl) }
    · exact h
  | ack token =>
    unfold next
    dsimp only
    split
    · have hcalm : Calm s { s with outstanding := s.outstanding.erase token } :=
        ⟨fun _ => rfl, fun _ => rfl, rfl, rfl, rfl, rfl, fun _ hk => hk⟩
      exact h.aside (hcalm.trans (calm_tell _ (e := .acked token) nofun)) rfl
    · exact h
  | pushUpdate =>
    unfold next
    dsimp only
    split
    · exact orderly_pushUpdate h ‹_›
    · exact h
  | dispatch host => exact orderly_dispatch h host
  | pollUpdate elapsed =>
    unfold next
    dsimp only
    split
    · exact orderly_pollUpdate h ‹_› elapsed
    · exact h
  | disconnect =>
    unfold next
    dsimp only
    split
    · exact orderly_disconnect h ‹_›
    · exact h
  | connect handshake => exact orderly_connect h handshake
  | pollSwap => exact orderly_pollSwap h
  | apply works => exact orderly_apply h works
  | stop => exact orderly_stop h
  | kill job =>
    unfold next
    dsimp only
    split
    · exact orderly_kill h ‹_› job _
    · exact h
  | task id outcome =>
    unfold next
    dsimp only
    cases ht : s.tasks id with
    | none => exact h
    | some t =>
      by_cases hphase : t.phase = .releasing
      · change Orderly (s.advance id t outcome)
        unfold advance
        rw [hphase]
        exact orderly_release h ht
      · exact h.aside (calm_advance ht outcome hphase) (advance_pc s id t outcome)
  | restart => exact orderly_restart h
  | awaitRestart id elapsed => exact orderly_awaitRestart h hcare
  | operatorDrain | resume =>
    exact { h with deserted := fun hf => h.deserted (hf.of_eq rfl rfl rfl) }

end

/-- In every run in which no restart's wait is hasty: once the process has been told to shut
down, no job is in flight, no task runs and no offer can be admitted any more, and no job has
been killed. -/
theorem graceful_handover_kills_nothing (moves : List Move)
    (hcare : Throughout next fresh (fun s m => hasty s m = false) moves) :
    ((after next fresh moves).shutdown = true →
      (∀ job, (after next fresh moves).inFlight.lookup job = none) ∧
      (∀ id, (after next fresh moves).tasks id = none) ∧
      admitted (after next fresh moves).pc = false ∧
      (after next fresh moves).reason.pending = true) ∧
    ∀ job, .killed job ∉ (after next fresh moves).log := by
  have h : Orderly (after next fresh moves) :=
    keeps (fun s m hs hm => orderly_next hs m hm) orderly_fresh hcare
  refine ⟨fun hshutdown => ?_, h.unkilled⟩
  obtain ⟨hnone, hpc⟩ := h.deserted (.shutdown hshutdown)
  refine ⟨hnone, fun id => ?_, hpc, h.pending (.shutdown hshutdown)⟩
  cases ht : (after next fresh moves).tasks id with
  | none => rfl
  | some t =>
    have hmanned := h.manned id t ht
    rw [hnone] at hmanned
    cases hmanned

/-- A restart that waits for the job in flight, its exit and the acks. -/
def patientRestart : List Move :=
  .connect .accepted :: offer "J" "t" ++ startup 0 ++ [.restart, .awaitRestart 0 false] ++
    wrapUp 0 ++ [.ack "t", .ack (exitToken "J")] ++ List.replicate 3 (.awaitRestart 0 false) ++
    [.stop, .kill "J"]

theorem graceful_handover_kills_nothing_patient :
    (after next fresh patientRestart).shutdown = true ∧
    Event.issued "J" ∈ (after next fresh patientRestart).log ∧
    ∀ job, .killed job ∉ (after next fresh patientRestart).log :=
  ⟨by decide +kernel, by decide +kernel,
    (graceful_handover_kills_nothing patientRestart (by decide +kernel)).2⟩

/-- The offer has read the handover flag; the restart is requested and finds no slot; the offer
reserves its slot and its runner starts; the restart commits and the teardown kills the job. -/
def hastyRestart : List Move :=
  [.connect .accepted, .provision ⟨"J", "linux", "x86_64", "t"⟩] ++
    List.replicate 5 (.dispatch .roomy) ++
    [.restart, .awaitRestart 0 false, .awaitRestart 0 false] ++
    List.replicate 3 (.dispatch .roomy) ++ startup 0 ++ [.awaitRestart 0 false]

theorem hasty_restart_kills :
    ((after next fresh hastyRestart).shutdown = true ∧
      ((after next fresh hastyRestart).tasks 0).map Task.phase = some .running) ∧
    .killed "J" ∈ (after next fresh (hastyRestart ++ [.stop, .kill "J"])).log := by
  decide +kernel

end Arcbox.Runner.Supervisor

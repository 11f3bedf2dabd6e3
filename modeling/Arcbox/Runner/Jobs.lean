import Arcbox.Foundation.History
import Arcbox.Runner.Supervisor

set_option autoImplicit false

/-!
# Runner agent: jobs, tasks and verdicts

An observer of one job follows what the supervisor reports: whether a start is in flight,
whether its runner has started, whether it was cancelled or accepted, and which accepts the
gateway has not acknowledged.  The invariant ties the slot of a job, the phase of its task, the
offer being handled and the outstanding verdicts to what the observer knows.
-/

namespace Arcbox.Runner

open Foundation Foundation.History

/-! ## The observer of a job -/

/-- What is known of one job: about its latest start, and the accepts without an ack. -/
structure Watch where
  flying : Bool := false
  started : Bool := false
  cancelled : Bool := false
  accepted : Bool := false
  unacked : List Token := []
deriving DecidableEq, Repr

def Watch.next (job : JobId) (w : Watch) : Event → Watch
  | .issued j => if j = job then { flying := true, unacked := w.unacked } else w
  | .runnerStarted j => if j = job then { w with started := true } else w
  | .cancelled j => if j = job then { w with cancelled := true } else w
  | .killed j => if j = job then { w with cancelled := true } else w
  | .accepted j token =>
    if j = job then { w with accepted := true, unacked := token :: w.unacked } else w
  | .startRejected _ _ => w
  | .refused _ _ => w
  | .acked token => { w with unacked := w.unacked.filter (· ≠ token) }
  | .released j => if j = job then { w with flying := false } else w
  | .committed => w

/-- A start is issued only while the job is not in flight and no accept for it awaits its ack;
an accept follows the start of a runner that was not cancelled before, or repeats one; and a
cancelled start is not answered. -/
def Permitted (job : JobId) (w : Watch) : Event → Prop
  | .issued j => j = job → w.flying = false ∧ w.unacked = []
  | .accepted j _ => j = job → w.accepted = true ∨ (w.started = true ∧ w.cancelled = false)
  | .startRejected j _ => j = job → w.cancelled = false
  | _ => True

instance decidablePermitted (job : JobId) (w : Watch) : ∀ e, Decidable (Permitted job w e)
  | .issued j => inferInstanceAs (Decidable (j = job → w.flying = false ∧ w.unacked = []))
  | .accepted j _ => inferInstanceAs
    (Decidable (j = job → w.accepted = true ∨ (w.started = true ∧ w.cancelled = false)))
  | .startRejected j _ => inferInstanceAs (Decidable (j = job → w.cancelled = false))
  | .runnerStarted _ => .isTrue trivial
  | .cancelled _ => .isTrue trivial
  | .killed _ => .isTrue trivial
  | .refused _ _ => .isTrue trivial
  | .acked _ => .isTrue trivial
  | .released _ => .isTrue trivial
  | .committed => .isTrue trivial

namespace Supervisor

/-- What the observer of a job knows. -/
def watch (s : Supervisor) (job : JobId) : Watch := after (Watch.next job) {} s.log

@[simp] theorem watch_tell (s : Supervisor) (e : Event) (job : JobId) :
    (s.tell e).watch job = Watch.next job (s.watch job) e := by
  unfold watch tell
  rw [after_append, after_cons, after_nil]

/-- No accept for the job is outstanding. -/
def NoAccept (outstanding : Table Token Msg) (job : JobId) : Prop :=
  ∀ key token, outstanding.lookup key ≠ some (.runnerAccepted job token)

/-! ## The invariant -/

/-- A start that has not settled, or that was cancelled before. -/
def Unsettled (e : Entry) : Prop :=
  ((∃ parked, e.slot.state = .starting parked) ∨ e.slot.state = .cancelled) ∧ e.held = false

def Fits (e : Entry) (w : Watch) : Phase → Prop
  | .starting => Unsettled e
  | .started => Unsettled e ∧ w.started = true
  | .failed _ => Unsettled e
  | .accepting _ => e.slot.state = .started ∧ e.held = true
  | .rejecting reason _ => e.slot.state = .rejected reason ∧ e.held = true
  | .running => True
  | .exited => True
  | .releasing => True

/-- What a slot says about its start. -/
structure SlotOk (w : Watch) (outstanding : Table Token Msg) (job : JobId) (e : Entry) :
    Prop where
  uncancelled : e.slot.state ≠ .cancelled → w.cancelled = false
  started : e.slot.state = .started → w.started = true
  starting : ∀ parked, e.slot.state = .starting parked → NoAccept outstanding job
  rejected : ∀ reason, e.slot.state = .rejected reason → NoAccept outstanding job

variable {e : Entry} {w : Watch} {id : Nat} {t : Task} {p : Phase}

theorem SlotOk.live {outstanding : Table Token Msg} {job : JobId} {state : JobState}
    (h : SlotOk w outstanding job e) (hstate : e.slot.state = state) (hne : state ≠ .cancelled) :
    w.cancelled = false := h.uncancelled (hstate ▸ hne)

/-- The job is neither in flight nor accepted without an ack. -/
def Clear (s : Supervisor) (job : JobId) : Prop :=
  s.inFlight.lookup job = none ∧ NoAccept s.outstanding job

/-- The task holds the entry of its job while it answers the offers. -/
def holds : Phase → Bool
  | .accepting _ => true
  | .rejecting _ _ => true
  | _ => false

/-- No task of the job is answering its offers. -/
def Unheld (s : Supervisor) (job : JobId) : Prop :=
  ∀ id t, s.tasks id = some t → t.jobId = job → holds t.phase = false

/-- What the accesses made so far for an offer have established. -/
def PcOk (s : Supervisor) : Pc → Prop
  | .checkUnacked order => s.inFlight.lookup order.jobId = none
  | .checkDraining order => s.Clear order.jobId
  | .checkHandover order => s.Clear order.jobId
  | .checkHost order => s.Clear order.jobId
  | .reserve order _ => s.Clear order.jobId
  | .spawn order _ => (∃ e, s.inFlight.lookup order.jobId = some e ∧ Unsettled e) ∧
      ∀ id t, s.tasks id = some t → t.jobId ≠ order.jobId
  | .answer order .accept false =>
    s.inFlight.lookup order.jobId = none ∧ (s.watch order.jobId).accepted = true
  | .answer order (.reject _) false => s.Clear order.jobId
  | .answer order .accept true =>
    (∃ e, s.inFlight.lookup order.jobId = some e ∧ e.slot.state = .started ∧ e.held = true) ∧
      s.Unheld order.jobId
  | .answer order (.reject reason) true =>
    (∃ e, s.inFlight.lookup order.jobId = some e ∧ e.slot.state = .rejected reason ∧
      e.held = true) ∧ s.Unheld order.jobId
  | _ => True

/-- The order an access is made for. -/
def orderOf : Pc → Option ProvisionRunner
  | .idle => none
  | .checkReplay order => some order
  | .checkInFlight order => some order
  | .checkUnacked order => some order
  | .checkDraining order => some order
  | .checkHandover order => some order
  | .checkHost order => some order
  | .getSlot order => some order
  | .answer order _ _ => some order
  | .reserve order _ => some order
  | .spawn order _ => some order

/-- The offers a task is about to answer. -/
def offersOf : Phase → List Token
  | .accepting offers => offers
  | .rejecting _ offers => offers
  | _ => []

/-- The invariant; `owner` names the one job a token is used for. -/
structure Sound (owner : Token → Option JobId) (s : Supervisor) : Prop where
  fresh : ∀ id, s.nextTask ≤ id → s.tasks id = none
  single : ∀ a b ta tb, s.tasks a = some ta → s.tasks b = some tb → ta.jobId = tb.jobId → a = b
  manned : ∀ id t, s.tasks id = some t →
    ∃ e, s.inFlight.lookup t.jobId = some e ∧ Fits e (s.watch t.jobId) t.phase
  slots : ∀ job e, s.inFlight.lookup job = some e → SlotOk (s.watch job) s.outstanding job e
  flying : ∀ job, (s.watch job).flying = (s.inFlight.lookup job).isSome
  pc : s.PcOk s.pc
  accepts : ∀ key job token, s.outstanding.lookup key = some (.runnerAccepted job token) →
    key = token ∧ (s.watch job).accepted = true ∧ owner token = some job
  unacked : ∀ job, ∀ token ∈ (s.watch job).unacked,
    s.outstanding.lookup token = some (.runnerAccepted job token)
  ordered : ∀ order, orderOf s.pc = some order → owner order.offerToken = some order.jobId
  offered : ∀ id t, s.tasks id = some t → owner t.token = some t.jobId ∧
    ∀ offer ∈ offersOf t.phase, owner offer = some t.jobId
  parked : ∀ job e offers, s.inFlight.lookup job = some e → e.slot.state = .starting offers →
    ∀ offer ∈ offers, owner offer = some job
  told : ∀ job, Throughout (Watch.next job) {} (Permitted job) s.log
  calm : s.panicked = false

variable {owner : Token → Option JobId} {s : Supervisor}

theorem sound_fresh : Sound owner fresh where
  fresh := fun _ _ => rfl
  single := fun _ _ _ _ h => (nomatch h)
  manned := fun _ _ h => (nomatch h)
  slots := fun _ _ h => (nomatch h)
  flying := fun _ => rfl
  pc := trivial
  accepts := fun _ _ _ h => (nomatch h)
  unacked := fun _ _ h => (nomatch h)
  ordered := fun _ h => (nomatch h)
  offered := fun _ _ h => (nomatch h)
  parked := fun _ _ _ h => (nomatch h)
  told := fun _ => throughout_nil
  calm := rfl

variable {job : JobId}

/-- An accept without an ack is an outstanding one. -/
theorem Sound.unacked_eq_nil (h : Sound owner s) (hno : NoAccept s.outstanding job) :
    (s.watch job).unacked = [] := by
  refine List.eq_nil_iff_forall_not_mem.mpr fun token htoken => ?_
  exact hno token token (h.unacked job token htoken)

/-! ## Steps that change the handling of an offer only -/

variable {pc : Pc}

theorem Sound.withPc (h : Sound owner s) (hpc : s.PcOk pc)
    (hordered : ∀ order, orderOf pc = some order → owner order.offerToken = some order.jobId) :
    Sound owner { s with pc := pc } := { h with pc := hpc, ordered := hordered }

/-- What the invariant speaks of: not the flags of drain and handover, the stream or the waits. -/
def jobs (s : Supervisor) :=
  (s.inFlight, s.outstanding, s.pc, s.tasks, s.nextTask, s.panicked, s.log)

variable {s' : Supervisor}

theorem Sound.flags (h : Sound owner s) (hsame : s'.jobs = s.jobs) : Sound owner s' := by
  cases s'
  cases s
  obtain ⟨rfl, rfl, rfl, rfl, rfl, rfl, rfl⟩ := hsame
  exact { h with }

/-! ## What an offer in progress relies on -/

/-- Steps that leave the job of the order alone keep what its accesses have established. -/
theorem PcOk.frame (h : s.PcOk pc)
    (hflight : ∀ o, orderOf pc = some o → s'.inFlight.lookup o.jobId = s.inFlight.lookup o.jobId)
    (hclear : ∀ o, orderOf pc = some o → s.Clear o.jobId → NoAccept s'.outstanding o.jobId)
    (haccepted : ∀ o, orderOf pc = some o → (s.watch o.jobId).accepted = true →
      (s'.watch o.jobId).accepted = true)
    (htasks : ∀ o, orderOf pc = some o → ∀ id t', s'.tasks id = some t' → t'.jobId = o.jobId →
      ∃ t, s.tasks id = some t ∧ t.jobId = o.jobId ∧
      (holds t.phase = false → holds t'.phase = false)) : s'.PcOk pc := by
  have hnone : ∀ o, orderOf pc = some o → s.Clear o.jobId → s'.Clear o.jobId :=
    fun o ho hc => ⟨(hflight o ho).trans hc.1, hclear o ho hc⟩
  have hunheld : ∀ o, orderOf pc = some o → s.Unheld o.jobId → s'.Unheld o.jobId := by
    intro o ho hfree id t' ht' hjob
    obtain ⟨t, ht, htjob, hkeep⟩ := htasks o ho id t' ht' hjob
    exact hkeep (hfree id t ht htjob)
  cases pc with
  | idle | checkReplay | checkInFlight | getSlot => trivial
  | checkUnacked o => exact (hflight o rfl).trans h
  | checkDraining o | checkHandover o | checkHost o | reserve o => exact hnone o rfl h
  | spawn o b =>
    obtain ⟨⟨e, hlook, he⟩, hno⟩ := h
    refine ⟨⟨e, (hflight o rfl).trans hlook, he⟩, fun id t' ht' hjob => ?_⟩
    obtain ⟨t, ht, htjob, -⟩ := htasks o rfl id t' ht' hjob
    exact hno id t ht htjob
  | answer o a held =>
    cases a with
    | accept =>
      cases held with
      | false => exact ⟨(hflight o rfl).trans h.1, haccepted o rfl h.2⟩
      | true =>
        obtain ⟨⟨e, hlook, he⟩, hfree⟩ := h
        exact ⟨⟨e, (hflight o rfl).trans hlook, he⟩, hunheld o rfl hfree⟩
    | reject reason =>
      cases held with
      | false => exact hnone o rfl h
      | true =>
        obtain ⟨⟨e, hlook, he⟩, hfree⟩ := h
        exact ⟨⟨e, (hflight o rfl).trans hlook, he⟩, hunheld o rfl hfree⟩

variable {o : ProvisionRunner}

/-- An offer whose job is in flight and which does not hold the entry itself: what is known of
the job does not matter to it, unless its own task is yet to be spawned. -/
theorem PcOk.of_flying (h : s.PcOk pc) (ho : orderOf pc = some o)
    (hlook : s.inFlight.lookup o.jobId = some e) (hfree : ∀ a, pc ≠ .answer o a true) :
    (∀ s' : Supervisor, s'.PcOk pc) ∨ ∃ backend, pc = .spawn o backend := by
  have hnot : ¬ s.inFlight.lookup o.jobId = none := by
    rw [hlook]
    exact Option.some_ne_none e
  cases pc with
  | idle => cases ho
  | checkReplay | checkInFlight | getSlot => exact .inl fun _ => trivial
  | checkUnacked _ => cases ho; exact absurd h hnot
  | checkDraining | checkHandover | checkHost | reserve => cases ho; exact absurd h.1 hnot
  | spawn _ backend => cases ho; exact .inr ⟨backend, rfl⟩
  | answer _ a held =>
    cases ho
    cases held with
    | true => exact absurd rfl (hfree a)
    | false =>
      cases a with
      | accept | reject => exact absurd h.1 hnot

theorem PcOk.held {a : Answer} (h : s.PcOk (.answer o a true)) :
    (∃ e, s.inFlight.lookup o.jobId = some e ∧ e.held = true) ∧ s.Unheld o.jobId := by
  cases a with
  | accept | reject =>
    obtain ⟨⟨e, hlook, -, hheld⟩, hunheld⟩ := h
    exact ⟨⟨e, hlook, hheld⟩, hunheld⟩

theorem PcOk.not_held (h : s.PcOk pc) (hlook : s.inFlight.lookup o.jobId = some e)
    (hheld : e.held = false) (a : Answer) : pc ≠ .answer o a true := by
  rintro rfl
  obtain ⟨⟨e', hlook', hheld'⟩, -⟩ := h.held
  rw [hlook] at hlook'
  cases hlook'
  rw [hheld] at hheld'
  cases hheld'

/-- A task of a job relates to an offer of that job only through the slot: whatever the task
does, the offer can go on, if either does not hold the entry or the task does. -/
theorem Sound.pcOk_elsewhere (h : Sound owner s) (ht : s.tasks id = some t)
    (hlook : s.inFlight.lookup t.jobId = some e) (hwho : e.held = false ∨ holds t.phase = true)
    (hflight : ∀ j, j ≠ t.jobId → s'.inFlight.lookup j = s.inFlight.lookup j)
    (hclear : ∀ j, j ≠ t.jobId → NoAccept s.outstanding j → NoAccept s'.outstanding j)
    (haccepted : ∀ j, j ≠ t.jobId → (s.watch j).accepted = true → (s'.watch j).accepted = true)
    (htasks : ∀ id' t', s'.tasks id' = some t' → t'.jobId ≠ t.jobId → s.tasks id' = some t') :
    s'.PcOk s.pc := by
  have hok := h.pc
  by_cases hjob : ∃ o, orderOf s.pc = some o ∧ o.jobId = t.jobId
  · obtain ⟨o, ho, hjob⟩ := hjob
    rw [← hjob] at hlook
    have hfree : ∀ a, s.pc ≠ .answer o a true := by
      rcases hwho with hheld | hholds
      · exact hok.not_held hlook hheld
      intro a hpc
      rw [hpc] at hok
      have hunheld := hok.held.2 id t ht hjob.symm
      rw [hholds] at hunheld
      cases hunheld
    rcases hok.of_flying ho hlook hfree with hall | ⟨backend, hpc⟩
    · exact hall s'
    · rw [hpc] at hok
      exact absurd hjob.symm (hok.2 id t ht)
  · have hne : ∀ o, orderOf s.pc = some o → o.jobId ≠ t.jobId := fun o ho heq => hjob ⟨o, ho, heq⟩
    refine hok.frame (fun o ho => hflight _ (hne o ho)) (fun o ho hc => hclear _ (hne o ho) hc.2)
      (fun o ho => haccepted _ (hne o ho)) (fun o ho id' t' ht' hjob' => ?_)
    exact ⟨t', htasks id' t' ht' (hjob'.symm ▸ hne o ho), hjob', fun hf => hf⟩

/-! ## Steps of a task that leave the maps alone -/

/-- A task that is only elsewhere in its run. -/
theorem rephased (ht : s.tasks id = some t) (p : Phase) {id' : Nat} {t' : Task}
    (ht' : (s.setTask id { t with phase := p }).tasks id' = some t') :
    ∃ t₀, s.tasks id' = some t₀ ∧ t₀.jobId = t'.jobId := by
  rcases of_update_some ht' with ⟨rfl, rfl⟩ | ⟨-, ht'⟩
  · exact ⟨t, ht, rfl⟩
  · exact ⟨t', ht', rfl⟩

theorem Sound.setPhase (h : Sound owner s) (ht : s.tasks id = some t)
    (hfits : ∀ e, s.inFlight.lookup t.jobId = some e →
      Fits e (s.watch t.jobId) t.phase → Fits e (s.watch t.jobId) p)
    (hoffers : ∀ offer ∈ offersOf p, owner offer = some t.jobId)
    (hpc : (s.setTask id { t with phase := p }).PcOk s.pc) :
    Sound owner (s.setTask id { t with phase := p }) where
  __ := h
  fresh := by
    intro id' hid'
    have hne : id' ≠ id := by
      rintro rfl
      rw [h.fresh id' hid'] at ht
      cases ht
    exact (Function.update_of_ne hne _ _).trans (h.fresh id' hid')
  single := by
    intro a b ta tb hta htb hjob
    obtain ⟨ta₀, ha, hja⟩ := rephased ht p hta
    obtain ⟨tb₀, hb, hjb⟩ := rephased ht p htb
    exact h.single a b ta₀ tb₀ ha hb (hja.trans (hjob.trans hjb.symm))
  manned := by
    intro id' t' ht'
    rcases of_update_some ht' with ⟨-, rfl⟩ | ⟨-, ht₀⟩
    · obtain ⟨e, hlook, he⟩ := h.manned id t ht
      exact ⟨e, hlook, hfits e hlook he⟩
    · exact h.manned id' t' ht₀
  pc := hpc
  offered := by
    intro id' t' ht'
    rcases of_update_some ht' with ⟨-, rfl⟩ | ⟨-, ht₀⟩
    · exact ⟨(h.offered id t ht).1, hoffers⟩
    · exact h.offered id' t' ht₀

theorem pcOk_setPhase (h : Sound owner s) (ht : s.tasks id = some t)
    (hholds : holds t.phase = false → holds p = false) :
    (s.setTask id { t with phase := p }).PcOk s.pc := by
  refine h.pc.frame (fun _ _ => rfl) (fun _ _ hc => hc.2) (fun _ _ ha => ha) ?_
  intro o ho id' t' ht' hjob
  rcases of_update_some ht' with ⟨rfl, rfl⟩ | ⟨-, ht₀⟩
  · exact ⟨t, ht, hjob, hholds⟩
  · exact ⟨t', ht₀, hjob, fun hfree => hfree⟩

/-! ## Steps that change the entry of a job -/

theorem lookup_setEntry (s : Supervisor) (job : JobId) (e : Entry) :
    (s.setEntry job e).inFlight.lookup job = some e := AList.lookup_insert _

theorem lookup_setEntry_of_ne (s : Supervisor) {other : JobId} (e : Entry) (h : other ≠ job) :
    (s.setEntry job e).inFlight.lookup other = s.inFlight.lookup other := AList.lookup_insert_ne h

/-- Another entry for a job that is in flight. -/
theorem Sound.setEntry (h : Sound owner s) {e' : Entry} (hlook : s.inFlight.lookup job = some e)
    (hslot : SlotOk (s.watch job) s.outstanding job e')
    (hfits : ∀ id t, s.tasks id = some t → t.jobId = job → Fits e (s.watch job) t.phase →
      Fits e' (s.watch job) t.phase)
    (hparked : ∀ offers, e'.slot.state = .starting offers →
      ∀ offer ∈ offers, owner offer = some job)
    (hpc : (s.setEntry job e').PcOk s.pc) : Sound owner (s.setEntry job e') where
  __ := h
  manned := by
    intro id t ht
    obtain ⟨e₀, hlook₀, he₀⟩ := h.manned id t ht
    by_cases hjob : t.jobId = job
    · rw [hjob] at hlook₀ he₀ ⊢
      rw [hlook] at hlook₀
      cases hlook₀
      exact ⟨e', lookup_setEntry s job e', hfits id t ht hjob he₀⟩
    · exact ⟨e₀, (lookup_setEntry_of_ne s e' hjob).trans hlook₀, he₀⟩
  slots := by
    intro other e₀ hlook₀
    rcases Table.of_lookup_insert hlook₀ with ⟨rfl, rfl⟩ | ⟨-, hlook₀⟩
    · exact hslot
    · exact h.slots other e₀ hlook₀
  flying := by
    intro other
    by_cases hother : other = job
    · subst hother
      rw [lookup_setEntry]
      have hbefore := h.flying other
      rw [hlook] at hbefore
      exact hbefore
    · rw [lookup_setEntry_of_ne s e' hother]
      exact h.flying other
  pc := hpc
  parked := by
    intro other e₀ offers hlook₀ hstate
    rcases Table.of_lookup_insert hlook₀ with ⟨rfl, rfl⟩ | ⟨-, hlook₀⟩
    · exact hparked offers hstate
    · exact h.parked other e₀ offers hlook₀ hstate

/-! ## Reports and verdicts -/

theorem Fits.mono {w' : Watch} (hstarted : w.started = true → w'.started = true) (h : Fits e w p) :
    Fits e w' p := by
  cases p with
  | started => exact ⟨h.1, hstarted h.2⟩
  | starting | failed | accepting | rejecting => exact h
  | running | exited | releasing => trivial

theorem Fits.resettle {e' : Entry} (h : Fits e w p) (hfree : holds p = false)
    (hsettled : Unsettled e → Unsettled e') : Fits e' w p := by
  cases p with
  | starting => exact hsettled h
  | started => exact ⟨hsettled h.1, h.2⟩
  | failed _ => exact hsettled h
  | accepting | rejecting => cases hfree
  | running | exited | releasing => trivial

structure Quiet (s : Supervisor) (e : Event) (job : JobId) : Prop where
  permitted : Permitted job (s.watch job) e
  flying : (Watch.next job (s.watch job) e).flying = (s.watch job).flying
  accepted : (Watch.next job (s.watch job) e).accepted = (s.watch job).accepted
  unacked : (Watch.next job (s.watch job) e).unacked = (s.watch job).unacked
  started : (s.watch job).started = true → (Watch.next job (s.watch job) e).started = true
  cancelled : (Watch.next job (s.watch job) e).cancelled = (s.watch job).cancelled ∨
    ∀ entry, s.inFlight.lookup job = some entry → entry.slot.state = .cancelled

theorem Sound.tell (h : Sound owner s) {e : Event} (hquiet : ∀ job, s.Quiet e job) :
    Sound owner (s.tell e) where
  __ := h
  manned := by
    intro id t ht
    obtain ⟨entry, hlook, hfits⟩ := h.manned id t ht
    refine ⟨entry, hlook, hfits.mono fun hstarted => ?_⟩
    rw [watch_tell]
    exact (hquiet t.jobId).started hstarted
  slots := by
    intro job entry hlook
    have hold := h.slots job entry hlook
    rw [watch_tell]
    refine ⟨fun hstate => ?_, fun hstate => (hquiet job).started (hold.started hstate),
      hold.starting, hold.rejected⟩
    rcases (hquiet job).cancelled with hsame | hall
    · exact hsame.trans (hold.uncancelled hstate)
    · exact absurd (hall entry hlook) hstate
  flying := by
    intro job
    rw [watch_tell, (hquiet job).flying]
    exact h.flying job
  pc := by
    refine h.pc.frame (fun _ _ => rfl) (fun _ _ hc => hc.2) (fun o _ ha => ?_)
      (fun _ _ _ t' ht' hjob => ⟨t', ht', hjob, id⟩)
    rw [watch_tell, (hquiet o.jobId).accepted]
    exact ha
  accepts := by
    intro key job token hlook
    rw [watch_tell, (hquiet job).accepted]
    exact h.accepts key job token hlook
  unacked := by
    intro job
    rw [watch_tell, (hquiet job).unacked]
    exact h.unacked job
  told := fun job => throughout_concat.mpr ⟨h.told job, (hquiet job).permitted⟩

variable {token : Token}

theorem Sound.sendVerdict (h : Sound owner s) {msg : Msg}
    (hmsg : ∀ job t, msg ≠ .runnerAccepted job t)
    (hfree : ∀ job t, s.outstanding.lookup token ≠ some (.runnerAccepted job t)) :
    Sound owner (s.sendVerdict token msg) := by
  have hold : ∀ {key job t}, (s.sendVerdict token msg).outstanding.lookup key =
      some (.runnerAccepted job t) → s.outstanding.lookup key = some (.runnerAccepted job t) := by
    intro key job t hlook
    rcases Table.of_lookup_insert hlook with ⟨-, heq⟩ | ⟨-, hold⟩
    · exact absurd heq (hmsg job t)
    · exact hold
  have hno : ∀ {job}, NoAccept s.outstanding job →
      NoAccept (s.sendVerdict token msg).outstanding job :=
    fun hnone key t hlook => hnone key t (hold hlook)
  refine { h with slots := ?_, pc := ?_, accepts := ?_, unacked := ?_ }
  · intro job e hlook
    have he := h.slots job e hlook
    exact ⟨he.uncancelled, he.started, fun parked hs => hno (he.starting parked hs),
      fun reason hs => hno (he.rejected reason hs)⟩
  · exact h.pc.frame (fun _ _ => rfl) (fun _ _ hc => hno hc.2) (fun _ _ ha => ha)
      (fun _ _ _ t' ht' hjob => ⟨t', ht', hjob, id⟩)
  · exact fun key job t hlook => h.accepts key job t (hold hlook)
  intro job t ht
  have hbefore := h.unacked job t ht
  have hne : t ≠ token := by
    rintro rfl
    exact hfree job t hbefore
  exact (AList.lookup_insert_ne hne).trans hbefore

/-- A rejection of a job without outstanding accepts. -/
theorem Sound.reject (h : Sound owner s) (reason : Refusal) (hown : owner token = some job)
    (hno : NoAccept s.outstanding job) {e : Event} (hquiet : ∀ j, s.Quiet e j) :
    Sound owner (s.reject job token reason e) := by
  have hfree : ∀ j t, s.outstanding.lookup token ≠ some (.runnerAccepted j t) := by
    intro j t hlook
    obtain ⟨rfl, -, hj⟩ := h.accepts token j t hlook
    rw [hown] at hj
    cases hj
    exact hno token token hlook
  exact (h.sendVerdict (fun _ _ heq => by cases heq) hfree).tell
    fun j => ⟨(hquiet j).permitted, (hquiet j).flying, (hquiet j).accepted, (hquiet j).unacked,
      (hquiet j).started, (hquiet j).cancelled⟩

theorem watch_accept (s : Supervisor) (job : JobId) (token : Token) (j : JobId) :
    (s.accept job token).watch j = Watch.next j (s.watch j) (.accepted job token) :=
  watch_tell _ _ _

theorem watch_accept_self (s : Supervisor) (job : JobId) (token : Token) :
    (s.accept job token).watch job =
      { s.watch job with accepted := true, unacked := token :: (s.watch job).unacked } := by
  rw [watch_accept]
  exact if_pos rfl

theorem watch_accept_of_ne (s : Supervisor) (token : Token) {j : JobId} (h : job ≠ j) :
    (s.accept job token).watch j = s.watch j := by
  rw [watch_accept]
  exact if_neg h

theorem lookup_accept (s : Supervisor) (job : JobId) (token : Token) :
    (s.accept job token).outstanding.lookup token = some (.runnerAccepted job token) :=
  AList.lookup_insert _

theorem lookup_accept_of_ne (s : Supervisor) (job : JobId) {key : Token} (h : key ≠ token) :
    (s.accept job token).outstanding.lookup key = s.outstanding.lookup key :=
  AList.lookup_insert_ne h

/-- The other jobs' outstanding accepts. -/
theorem noAccept_accept {j : JobId} (hne : job ≠ j) (hno : NoAccept s.outstanding j) :
    NoAccept (s.accept job token).outstanding j := by
  intro key t hlook
  rcases Table.of_lookup_insert hlook with ⟨rfl, heq⟩ | ⟨-, hlook⟩
  · cases heq
    exact hne rfl
  · exact hno key t hlook

theorem Sound.accept (h : Sound owner s) (hown : owner token = some job)
    (hperm : (s.watch job).accepted = true ∨ ((s.watch job).started = true ∧
      (s.watch job).cancelled = false))
    (hslot : ∀ e, s.inFlight.lookup job = some e → e.slot.state = .started ∨
      e.slot.state = .cancelled)
    (hpc : ∀ o, orderOf s.pc = some o → o.jobId = job → ¬ s.Clear job) :
    Sound owner (s.accept job token) := by
  have hstarted : ∀ j, (s.watch j).started = true →
      ((s.accept job token).watch j).started = true := by
    intro j hj
    by_cases hjob : job = j
    · subst hjob
      rw [watch_accept_self]
      exact hj
    · rw [watch_accept_of_ne s token hjob]
      exact hj
  have haccepted : ∀ j, (s.watch j).accepted = true →
      ((s.accept job token).watch j).accepted = true := by
    intro j hj
    by_cases hjob : job = j
    · subst hjob
      rw [watch_accept_self]
    · rw [watch_accept_of_ne s token hjob]
      exact hj
  refine { h with manned := ?_, slots := ?_, flying := ?_, pc := ?_, accepts := ?_,
                  unacked := ?_, told := ?_ }
  · intro id t ht
    obtain ⟨e, hlook, hfits⟩ := h.manned id t ht
    exact ⟨e, hlook, hfits.mono (hstarted t.jobId)⟩
  · intro j e hlook
    have he := h.slots j e hlook
    by_cases hjob : job = j
    · subst hjob
      rw [watch_accept_self]
      refine ⟨he.uncancelled, he.started, fun parked hs => ?_, fun reason hs => ?_⟩
      · rcases hslot e hlook with h' | h' <;> rw [hs] at h' <;> cases h'
      · rcases hslot e hlook with h' | h' <;> rw [hs] at h' <;> cases h'
    rw [watch_accept_of_ne s token hjob]
    exact ⟨he.uncancelled, he.started,
      fun parked hs => noAccept_accept hjob (he.starting parked hs),
      fun reason hs => noAccept_accept hjob (he.rejected reason hs)⟩
  · intro j
    by_cases hjob : job = j
    · subst hjob
      rw [watch_accept_self]
      exact h.flying job
    · rw [watch_accept_of_ne s token hjob]
      exact h.flying j
  · refine h.pc.frame (fun _ _ => rfl) (fun o ho hc => ?_) (fun o _ => haccepted o.jobId)
      (fun _ _ _ t' ht' hjob => ⟨t', ht', hjob, id⟩)
    refine noAccept_accept (fun hjob => ?_) hc.2
    subst hjob
    exact hpc o ho rfl hc
  · intro key j t hlook
    rcases Table.of_lookup_insert hlook with ⟨rfl, heq⟩ | ⟨-, hlook⟩
    · cases heq
      refine ⟨rfl, ?_, hown⟩
      rw [watch_accept_self]
    · obtain ⟨htoken, hacc, howner⟩ := h.accepts key j t hlook
      exact ⟨htoken, haccepted j hacc, howner⟩
  · intro j t ht
    by_cases htoken : t = token
    · subst htoken
      by_cases hjob : job = j
      · subst hjob
        exact lookup_accept s job t
      rw [watch_accept_of_ne s t hjob] at ht
      have hbefore := (h.accepts t j t (h.unacked j t ht)).2.2
      rw [hown] at hbefore
      exact absurd (Option.some.inj hbefore) hjob
    rw [lookup_accept_of_ne s job htoken]
    by_cases hjob : job = j
    · subst hjob
      rw [watch_accept_self] at ht
      rcases List.mem_cons.mp ht with heq | hmem
      · exact absurd heq htoken
      · exact h.unacked job t hmem
    · rw [watch_accept_of_ne s token hjob] at ht
      exact h.unacked j t ht
  · intro j
    refine throughout_concat.mpr ⟨h.told j, fun hj => ?_⟩
    subst hj
    exact hperm

/-! ## Letting go of an entry -/

theorem letGo_eq (hlook : s.inFlight.lookup job = some e) :
    s.letGo job = s.setEntry job { e with held := false } := by
  unfold letGo
  rw [hlook]

theorem letGo_withPc (s : Supervisor) (job : JobId) (pc : Pc) :
    { s.letGo job with pc := pc } = ({ s with pc := pc } : Supervisor).letGo job := by
  unfold letGo
  cases s.inFlight.lookup job <;> rfl

theorem Sound.letGo (h : Sound owner s) (hlook : s.inFlight.lookup job = some e)
    (hunheld : s.Unheld job) (hpc : (s.setEntry job { e with held := false }).PcOk s.pc) :
    Sound owner (s.letGo job) := by
  rw [letGo_eq hlook]
  have hslot := h.slots job e hlook
  refine h.setEntry hlook ⟨hslot.uncancelled, hslot.started, hslot.starting, hslot.rejected⟩
    (fun id t ht hjob hfits => ?_) (fun offers hs => h.parked job e offers hlook hs) hpc
  exact hfits.resettle (hunheld id t ht hjob) fun hu => ⟨hu.1, rfl⟩

end Supervisor

end Arcbox.Runner

import Arcbox.Runner.Jobs

set_option autoImplicit false

/-!
# Runner agent: one runner per job

Every access of the attach task and of the jobs' tasks keeps the invariant, so a run in which a
token stands for the offers of one job starts no job twice.
-/

namespace Arcbox.Runner

open Foundation Foundation.History List Function Option

namespace Supervisor

variable {owner : Token → Option JobId} {s : Supervisor}

/-! ## The handling of an offer -/

variable {job : JobId}

/-- An answer from the job's slot finds no outstanding accept where that is rejected. -/
theorem quiet_startRejected (token : Token) (h : (s.watch job).cancelled = false) (j : JobId) :
    s.Quiet (.startRejected job token) j := ⟨fun hj => hj ▸ h, rfl, rfl, rfl, id, .inl rfl⟩

theorem quiet_refused (job : JobId) (token : Token) (j : JobId) : s.Quiet (.refused job token) j :=
  ⟨trivial, rfl, rfl, rfl, id, .inl rfl⟩

variable {order : ProvisionRunner}
variable {e : Entry}

section

variable (h : Sound owner s)

include h

theorem sound_answer {a : Answer} {held : Bool} (hpc : s.pc = .answer order a held) :
    Sound owner (s.answer order a held) := by
  have hok := h.pc
  have hown := h.ordered order (by rw [hpc]; rfl)
  rw [hpc] at hok
  have hidle : Sound owner { s with pc := .idle } :=
    h.withPc trivial nofun
  have hfree : ∀ o, orderOf ({ s with pc := .idle } : Supervisor).pc = some o →
      o.jobId = order.jobId → ¬ Clear { s with pc := .idle } order.jobId :=
    nofun
  cases a with
  | accept =>
    cases held with
    | false =>
      refine hidle.accept hown (.inl hok.2) (fun e hlook => ?_) hfree
      rw [hok.1] at hlook
      cases hlook
    | true =>
      obtain ⟨⟨e, hlook, hstate, -⟩, hunheld⟩ := hok
      have hslot := h.slots _ e hlook
      have hlive := hslot.live hstate nofun
      have hsent : Sound owner ({ s with pc := .idle }.accept order.jobId order.offerToken) := by
        refine hidle.accept hown (.inr ⟨hslot.started hstate, hlive⟩)
          (fun e' hlook' => ?_) hfree
        rw [hlook] at hlook'
        cases hlook'
        exact .inl hstate
      change Sound owner
        { (s.accept order.jobId order.offerToken).letGo order.jobId with pc := .idle }
      rw [letGo_withPc]
      exact hsent.letGo hlook hunheld trivial
  | reject reason =>
    cases held with
    | false => exact hidle.reject reason hown hok.2 (quiet_refused _ _)
    | true =>
      obtain ⟨⟨e, hlook, hstate, -⟩, hunheld⟩ := hok
      have hslot := h.slots _ e hlook
      have hlive := hslot.live hstate nofun
      have hsent : Sound owner ({ s with pc := .idle }.reject order.jobId order.offerToken reason
          (.startRejected order.jobId order.offerToken)) :=
        hidle.reject reason hown (hslot.rejected reason hstate)
          (quiet_startRejected _ hlive)
      change Sound owner { (s.reject order.jobId order.offerToken reason
        (.startRejected order.jobId order.offerToken)).letGo order.jobId with pc := .idle }
      rw [letGo_withPc]
      exact hsent.letGo hlook hunheld trivial

/-- An entry that is not held belongs to no task that is answering offers. -/
theorem Sound.unheld (hlook : s.inFlight.lookup job = some e) (hheld : e.held = false) :
    s.Unheld job := by
  intro id t ht hjob
  obtain ⟨e', hlook', hfits⟩ := h.manned id t ht
  rw [hjob, hlook] at hlook'
  cases hlook'
  cases hphase : t.phase with
  | accepting | rejecting => rw [hphase] at hfits; rw [hfits.2] at hheld; cases hheld
  | starting | started | failed | running | exited | releasing => rfl

/-- Taking hold of a settled entry for an answer. -/
theorem Sound.hold (hlook : s.inFlight.lookup order.jobId = some e) (hheld : e.held = false)
    (hsettled : ¬ Unsettled e) (hpc : s.pc = .getSlot order) {a : Answer}
    (hok : PcOk (s.setEntry order.jobId { e with held := true }) (.answer order a true)) :
    Sound owner
      { s.setEntry order.jobId { e with held := true } with pc := .answer order a true } := by
  have hslot := h.slots _ e hlook
  have hunheld := h.unheld hlook hheld
  have hset : Sound owner (s.setEntry order.jobId { e with held := true }) := by
    refine h.setEntry hlook ⟨hslot.uncancelled, hslot.started, hslot.starting, hslot.rejected⟩
      (fun id t ht hjob hfits => ?_) (fun offers hs => h.parked _ e offers hlook hs)
      (by rw [hpc]; trivial)
    exact hfits.resettle (hunheld id t ht hjob) fun hu => absurd hu hsettled
  refine hset.withPc hok fun o ho => ?_
  cases ho
  exact h.ordered order (by rw [hpc]; rfl)

theorem sound_duplicate (hpc : s.pc = .getSlot order) (hbusy : s.busy order.jobId = false) :
    Sound owner (s.duplicate order) := by
  have hown := h.ordered order (by rw [hpc]; rfl)
  unfold duplicate
  cases hlook : s.inFlight.lookup order.jobId with
  | none =>
    refine h.withPc trivial fun o ho => ?_
    cases ho
    exact hown
  | some e =>
    have hheld : e.held = false := by
      unfold busy at hbusy
      rw [hlook] at hbusy
      exact hbusy
    have hslot := h.slots _ e hlook
    have hunheld := h.unheld hlook hheld
    unfold JobSlot.duplicateVerdict
    dsimp only
    cases hstate : e.slot.state with
    | starting parked =>
      have hparked : ∀ offer ∈ (if order.offerToken ∈ parked then parked
          else parked ++ [order.offerToken]), owner offer = some order.jobId := by
        have hall := h.parked _ e parked hlook hstate
        split
        · exact hall
        · exact forall_mem_append.mpr ⟨hall, forall_mem_singleton.mpr hown⟩
      dsimp only
      generalize (if order.offerToken ∈ parked then parked
          else parked ++ [order.offerToken]) = parked' at hparked ⊢
      have hset : Sound owner
          (s.setEntry order.jobId ⟨⟨e.slot.cancelled, .starting parked'⟩, e.held⟩) := by
        refine h.setEntry hlook ⟨fun _ => ?_, nofun, fun _ _ => ?_,
          nofun⟩ (fun id t ht hjob hfits => ?_) (fun offers hs => ?_)
          (by rw [hpc]; trivial)
        · exact hslot.uncancelled (by rw [hstate]; exact nofun)
        · exact hslot.starting parked hstate
        · exact hfits.resettle (hunheld id t ht hjob) fun _ => ⟨.inl ⟨_, rfl⟩, hheld⟩
        · cases hs
          exact hparked
      exact hset.withPc trivial nofun
    | started | rejected =>
      refine h.hold hlook hheld ?_ hpc
        ⟨⟨{ e with held := true }, lookup_setEntry s _ _, hstate, rfl⟩, hunheld⟩
      rintro ⟨⟨_, hs⟩ | hs, -⟩ <;> rw [hstate] at hs <;> cases hs
    | cancelled => exact h.withPc trivial nofun

theorem sound_reserve {backend : Backend} (hpc : s.pc = .reserve order backend) :
    Sound owner
      { (s.setEntry order.jobId ⟨.new, false⟩).tell (.issued order.jobId) with
        pc := .spawn order backend } := by
  have hclear := h.pc
  have hown := h.ordered order (by rw [hpc]; rfl)
  rw [hpc] at hclear
  obtain ⟨hnone, hno⟩ := hclear
  have hwatch : ∀ j, watch { (s.setEntry order.jobId ⟨.new, false⟩).tell (.issued order.jobId) with
      pc := .spawn order backend } j = Watch.next j (s.watch j) (.issued order.jobId) :=
    fun j => watch_tell _ _ _
  have hself : Watch.next order.jobId (s.watch order.jobId) (.issued order.jobId) =
      { flying := true, unacked := (s.watch order.jobId).unacked } := if_pos rfl
  have hother : ∀ {j}, j ≠ order.jobId →
      Watch.next j (s.watch j) (.issued order.jobId) = s.watch j := fun hj => if_neg (Ne.symm hj)
  -- Tasks have their jobs in flight, so none is of this job.
  have hidle : ∀ id t, s.tasks id = some t → t.jobId ≠ order.jobId := by
    intro id t ht hjob
    obtain ⟨e, hlook, -⟩ := h.manned id t ht
    rw [hjob, hnone] at hlook
    cases hlook
  refine { fresh := h.fresh, single := h.single, manned := ?_, slots := ?_, flying := ?_, pc := ?_,
           accepts := ?_, unacked := ?_, ordered := ?_, offered := h.offered, parked := ?_,
           told := ?_, calm := h.calm }
  · intro id t ht
    have hjob := hidle id t ht
    obtain ⟨e, hlook, hfits⟩ := h.manned id t ht
    refine ⟨e, (lookup_setEntry_of_ne s _ hjob).trans hlook, ?_⟩
    rw [hwatch, hother hjob]
    exact hfits
  · intro job e hlook
    rw [hwatch]
    by_cases hjob : job = order.jobId
    · subst hjob
      rw [hself]
      obtain rfl := some.inj ((lookup_setEntry s _ _).symm.trans hlook)
      exact ⟨fun _ => rfl, nofun, fun _ _ => hno, nofun⟩
    · rw [hother hjob]
      exact h.slots job e ((lookup_setEntry_of_ne s _ hjob).symm.trans hlook)
  · intro job
    rw [hwatch]
    by_cases hjob : job = order.jobId
    · subst hjob
      rw [hself]
      exact (congrArg isSome (lookup_setEntry s _ _)).symm
    · rw [hother hjob]
      exact (h.flying job).trans (congrArg isSome (lookup_setEntry_of_ne s _ hjob)).symm
  · exact ⟨⟨⟨.new, false⟩, lookup_setEntry s _ _, .inl ⟨[], rfl⟩, rfl⟩, hidle⟩
  · intro key job token hlook
    have hjob : job ≠ order.jobId := by
      rintro rfl
      exact hno key token hlook
    rw [hwatch, hother hjob]
    exact h.accepts key job token hlook
  · intro job token htoken
    rw [hwatch] at htoken
    by_cases hjob : job = order.jobId
    · subst hjob
      rw [hself] at htoken
      exact h.unacked _ token htoken
    · rw [hother hjob] at htoken
      exact h.unacked job token htoken
  · intro o ho
    cases ho
    exact hown
  · intro job e offers hlook hstate
    by_cases hjob : job = order.jobId
    · subst hjob
      obtain rfl := some.inj ((lookup_setEntry s _ _).symm.trans hlook)
      cases hstate
      exact forall_mem_nil _
    · exact h.parked job e offers ((lookup_setEntry_of_ne s _ hjob).symm.trans hlook) hstate
  intro job
  refine throughout_concat.mpr ⟨h.told job, fun hjob => ?_⟩
  subst hjob
  refine ⟨?_, h.unacked_eq_nil hno⟩
  exact (h.flying order.jobId).trans (congrArg isSome hnone)

theorem sound_spawn {backend : Backend} (hpc : s.pc = .spawn order backend) :
    Sound owner
      { s with
        tasks := Function.update s.tasks s.nextTask
          (some ⟨order.jobId, order.offerToken, .starting⟩)
        nextTask := s.nextTask + 1
        pc := .idle } := by
  have hok := h.pc
  have hown := h.ordered order (by rw [hpc]; rfl)
  rw [hpc] at hok
  obtain ⟨⟨e, hlook, he⟩, hidle⟩ := hok
  refine { h with fresh := ?_, single := ?_, manned := ?_, pc := trivial, ordered := ?_,
                  offered := ?_ }
  · intro id hid
    have hne : id ≠ s.nextTask := by
      change s.nextTask + 1 ≤ id at hid
      omega
    refine (update_of_ne hne _ _).trans (h.fresh id ?_)
    change s.nextTask + 1 ≤ id at hid
    omega
  · intro a b ta tb hta htb hjob
    rcases of_update_some hta with ⟨rfl, rfl⟩ | ⟨-, hta⟩
    · rcases of_update_some htb with ⟨rfl, rfl⟩ | ⟨-, htb⟩
      · rfl
      · exact absurd hjob.symm (hidle b tb htb)
    · rcases of_update_some htb with ⟨rfl, rfl⟩ | ⟨-, htb⟩
      · exact absurd hjob (hidle a ta hta)
      · exact h.single a b ta tb hta htb hjob
  · intro id t ht
    rcases of_update_some ht with ⟨-, rfl⟩ | ⟨-, ht⟩
    · exact ⟨e, hlook, he⟩
    · exact h.manned id t ht
  · exact nofun
  intro id t ht
  rcases of_update_some ht with ⟨-, rfl⟩ | ⟨-, ht⟩
  · exact ⟨hown, forall_mem_nil _⟩
  · exact h.offered id t ht

/-- The next access for an offer. -/
theorem sound_dispatch (host : HostView) : Sound owner (s.dispatch host) := by
  have hown : ∀ order, orderOf s.pc = some order → ∀ o, some order = some o →
      owner o.offerToken = some o.jobId := by
    intro order horder o ho
    cases ho
    exact h.ordered order horder
  have hidle : Sound owner { s with pc := .idle } := h.withPc trivial nofun
  have hok := h.pc
  unfold dispatch
  cases hpc : s.pc with
  | idle => exact h
  | checkReplay order =>
    rw [hpc] at hown
    dsimp only
    split
    case isTrue => exact hidle
    case isFalse => exact h.withPc trivial (hown order rfl)
  | checkInFlight order =>
    rw [hpc] at hown
    dsimp only
    split
    case isTrue => exact h
    case isFalse =>
      split
      case isTrue => exact h.withPc trivial (hown order rfl)
      case isFalse hnone =>
        exact h.withPc (not_isSome_iff_eq_none.mp hnone) (hown order rfl)
  | checkUnacked order =>
    rw [hpc] at hown hok
    dsimp only
    split
    case isTrue hsome =>
      obtain ⟨key, token, hlook⟩ := hasUnackedAccept_iff.mp hsome
      exact h.withPc ⟨hok, (h.accepts key _ token hlook).2.1⟩ (hown order rfl)
    case isFalse hnone =>
      refine h.withPc ⟨hok, fun key token hlook => ?_⟩ (hown order rfl)
      exact hnone (hasUnackedAccept_iff.mpr ⟨key, token, hlook⟩)
  | checkDraining order | checkHandover order =>
    rw [hpc] at hown hok
    dsimp only
    split
    case isTrue => exact h.withPc hok (hown order rfl)
    case isFalse => exact h.withPc hok (hown order rfl)
  | checkHost order =>
    rw [hpc] at hown hok
    dsimp only
    cases host.headroom order.os order.arch with
    | error | ok => exact h.withPc hok (hown order rfl)
  | getSlot order =>
    dsimp only
    split
    case isTrue => exact h
    case isFalse hbusy => exact sound_duplicate h hpc (Bool.not_eq_true _ ▸ hbusy)
  | answer order a held => exact sound_answer h hpc
  | reserve order backend => exact sound_reserve h hpc
  | spawn order backend => exact sound_spawn h hpc

/-! ## Cancellation and acks -/

theorem pcOk_cancel (hlook : s.inFlight.lookup job = some e) (hheld : e.held = false) :
    (s.setEntry job { e with slot := e.slot.cancel }).PcOk s.pc := by
  have hok := h.pc
  cases ho : orderOf s.pc with
  | none =>
    refine hok.frame (fun o ho' => ?_) (fun _ _ hc => hc.2) (fun _ _ ha => ha)
      (fun _ _ _ t' ht' hjob => ⟨t', ht', hjob, id⟩)
    rw [ho] at ho'
    cases ho'
  | some o =>
    by_cases hjob : o.jobId = job
    · subst hjob
      rcases hok.of_flying ho hlook (hok.not_held hlook hheld) with hall | ⟨backend, hpc⟩
      · exact hall _
      · rw [hpc] at hok ⊢
        exact ⟨⟨_, lookup_setEntry s _ _, .inr rfl, hheld⟩, hok.2⟩
    refine hok.frame (fun o' ho' => ?_) (fun _ _ hc => hc.2) (fun _ _ ha => ha)
      (fun _ _ _ t' ht' hjob => ⟨t', ht', hjob, id⟩)
    rw [ho] at ho'
    cases ho'
    exact lookup_setEntry_of_ne s _ hjob

/-- A cancellation, of whichever cause, marks the slot and is reported. -/
theorem sound_handleCancel {e : Event}
    (he : ∀ j w, Watch.next j w e = if job = j then { w with cancelled := true } else w)
    (hperm : ∀ j w, Permitted j w e) : Sound owner (s.handleCancel job e) := by
  unfold handleCancel
  cases hlook : s.inFlight.lookup job with
  | none => exact h
  | some entry =>
    dsimp only
    split
    case isTrue => exact h
    case isFalse hheld =>
      have hfree : entry.held = false := Bool.not_eq_true _ ▸ hheld
      have hunheld := h.unheld hlook hfree
      have hset : Sound owner (s.setEntry job { entry with slot := entry.slot.cancel }) := by
        refine h.setEntry hlook ⟨absurd rfl, nofun,
          nofun, nofun⟩ (fun id t ht hjob hfits => ?_)
          nofun ?_
        · exact hfits.resettle (hunheld id t ht hjob) fun _ => ⟨.inr rfl, hfree⟩
        · exact pcOk_cancel h hlook hfree
      refine hset.tell fun j => ⟨hperm j _, ?_, ?_, ?_, ?_, ?_⟩
      all_goals rw [he]
      · split <;> rfl
      · split <;> rfl
      · split <;> rfl
      · split <;> exact id
      split
      case isTrue hj =>
        subst hj
        refine .inr fun entry' hlook' => ?_
        rw [lookup_setEntry] at hlook'
        cases hlook'
        rfl
      case isFalse => exact .inl rfl

theorem sound_ack (token : Token) :
    Sound owner ({ s with outstanding := s.outstanding.erase token }.tell (.acked token)) := by
  have hwatch : ∀ j,
      watch ({ s with outstanding := s.outstanding.erase token }.tell (.acked token)) j =
      { s.watch j with unacked := (s.watch j).unacked.filter (· ≠ token) } :=
    fun j => watch_tell _ _ _
  have hold : ∀ {key job t}, (s.outstanding.erase token).lookup key =
      some (.runnerAccepted job t) → s.outstanding.lookup key = some (.runnerAccepted job t) := by
    intro key job t hlook
    obtain ⟨hkey, hlook⟩ := Table.of_lookup_erase hlook
    exact hlook
  have hno : ∀ {job}, NoAccept s.outstanding job → NoAccept (s.outstanding.erase token) job :=
    fun hnone key t hlook => hnone key t (hold hlook)
  refine { h with manned := ?_, slots := ?_, flying := ?_, pc := ?_, accepts := ?_,
                  unacked := ?_, told := ?_ }
  · intro id t ht
    obtain ⟨e, hlook, hfits⟩ := h.manned id t ht
    refine ⟨e, hlook, ?_⟩
    rw [hwatch]
    exact hfits.mono (fun hw => hw)
  · intro job e hlook
    have he := h.slots job e hlook
    rw [hwatch]
    exact ⟨he.uncancelled, he.started, fun parked hs => hno (he.starting parked hs),
      fun reason hs => hno (he.rejected reason hs)⟩
  · intro job
    rw [hwatch]
    exact h.flying job
  · refine h.pc.frame (fun _ _ => rfl) (fun _ _ hc => hno hc.2) (fun o _ ha => ?_)
      (fun _ _ _ t' ht' hjob => ⟨t', ht', hjob, id⟩)
    rw [hwatch]
    exact ha
  · intro key job t hlook
    rw [hwatch]
    exact h.accepts key job t (hold hlook)
  · intro job t ht
    rw [hwatch] at ht
    obtain ⟨hmem, hne⟩ := mem_filter.mp ht
    exact (AList.lookup_erase_ne (of_decide_eq_true hne)).trans (h.unacked job t hmem)
  · intro job
    exact throughout_concat.mpr ⟨h.told job, trivial⟩

end

/-! ## The task of a job -/

theorem setTask_setTask (s : Supervisor) (id : Nat) (t t' : Task) :
    (s.setTask id t).setTask id t' = s.setTask id t' := by
  unfold setTask
  rw [update_idem]

section

variable (h : Sound owner s) {id : Nat} {t : Task} (ht : s.tasks id = some t)

include h ht

/-- The entry of a task's job, and how it fits. -/
theorem sound_starts (hphase : t.phase = .starting) :
    Sound owner ((s.setTask id { t with phase := .started }).tell (.runnerStarted t.jobId)) := by
  have htold : Sound owner (s.tell (.runnerStarted t.jobId)) := by
    refine h.tell fun j => ⟨trivial, ?_, ?_, ?_, ?_, .inl ?_⟩
    all_goals unfold Watch.next; dsimp only; split
    all_goals first | rfl | exact fun _ => rfl | exact fun hw => hw
  refine htold.setPhase (t := t) ht (fun e _ hfits => ?_)
    (forall_mem_nil _) (pcOk_setPhase htold ht fun _ => rfl)
  rw [hphase] at hfits
  refine ⟨hfits, ?_⟩
  rw [watch_tell]
  exact congrArg Watch.started (if_pos rfl)

theorem Sound.wind {p : Phase}
    (hp : ∀ e w, Fits e w p) (hoffers : offersOf p = []) (hholds : holds p = false) :
    Sound owner (s.setTask id { t with phase := p }) :=
  h.setPhase ht (fun e _ _ => hp e _)
    (fun _ hoffer => by rw [hoffers] at hoffer; exact absurd hoffer not_mem_nil)
    (pcOk_setPhase h ht fun _ => hholds)

/-- Startup settles through the slot: the task takes hold of the entry and has all the offers of
the job to answer. -/
theorem Sound.settleTo (hlook : s.inFlight.lookup t.jobId = some e) {parked : List Token}
    (hstate : e.slot.state = .starting parked) (hheld : e.held = false) {state : JobState}
    (hslot : SlotOk (s.watch t.jobId) s.outstanding t.jobId ⟨⟨e.slot.cancelled, state⟩, true⟩)
    (hstarting : ∀ offers, state ≠ .starting offers) {p : List Token → Phase}
    (hfits : ∀ offers, Fits ⟨⟨e.slot.cancelled, state⟩, true⟩ (s.watch t.jobId) (p offers))
    (hp : ∀ offers, offersOf (p offers) = offers) :
    Sound owner ((s.setEntry t.jobId ⟨⟨e.slot.cancelled, state⟩, true⟩).setTask id
      { t with phase := p (t.token :: parked) }) := by
  have hpc : ∀ {s' : Supervisor},
      s'.inFlight = (s.setEntry t.jobId ⟨⟨e.slot.cancelled, state⟩, true⟩).inFlight →
      s'.outstanding = s.outstanding → s'.log = s.log →
      (∀ id' t', s'.tasks id' = some t' → t'.jobId ≠ t.jobId → s.tasks id' = some t') →
      s'.PcOk s.pc := by
    intro s' hflight hout hlog htasks
    refine h.pcOk_elsewhere ht hlook (.inl hheld) (fun j hj => ?_) (fun j _ hno => ?_)
      (fun j _ ha => ?_) htasks
    · rw [hflight]
      exact lookup_setEntry_of_ne s _ hj
    · rw [hout]
      exact hno
    · unfold watch at ha ⊢
      rw [hlog]
      exact ha
  -- On the way through a phase that asks nothing of the entry.
  have hwound : Sound owner (s.setTask id { t with phase := .running }) :=
    h.wind ht (fun _ _ => trivial) rfl rfl
  have hset : Sound owner ((s.setTask id { t with phase := .running }).setEntry t.jobId
      ⟨⟨e.slot.cancelled, state⟩, true⟩) := by
    refine hwound.setEntry hlook hslot (fun id' t' ht' hjob _ => ?_)
      (fun offers hs => absurd hs (hstarting offers)) (hpc rfl rfl rfl ?_)
    · rcases of_update_some ht' with ⟨-, rfl⟩ | ⟨hne, ht₀⟩
      · trivial
      · exact absurd (h.single id' id t' t ht₀ ht hjob) hne
    intro id' t' ht' hjob
    rcases of_update_some ht' with ⟨-, rfl⟩ | ⟨-, ht₀⟩
    · exact absurd rfl hjob
    · exact ht₀
  have hthere : ((s.setTask id { t with phase := .running }).setEntry t.jobId
      ⟨⟨e.slot.cancelled, state⟩, true⟩).tasks id = some { t with phase := .running } :=
    update_self _ _ _
  have hdone := hset.setPhase hthere (p := p (t.token :: parked)) (fun e' hlook' _ => ?_)
    (fun offer hoffer => ?_) (hpc rfl rfl rfl ?_)
  · exact setTask_setTask (s.setEntry t.jobId _) id { t with phase := .running } _ ▸ hdone
  · rw [lookup_setEntry] at hlook'
    cases hlook'
    exact hfits _
  · rw [hp] at hoffer
    rcases mem_cons.mp hoffer with rfl | hmem
    · exact (h.offered id t ht).1
    · exact h.parked _ e parked hlook hstate offer hmem
  intro id' t' ht' hjob
  change Function.update (Function.update s.tasks id _) id _ id' = some t' at ht'
  rw [update_idem] at ht'
  rcases of_update_some ht' with ⟨-, rfl⟩ | ⟨-, ht₀⟩
  · exact absurd rfl hjob
  · exact ht₀

/-- Settling never finds an entry missing, nor one that a start has settled before. -/
theorem sound_settle (hlook : s.inFlight.lookup t.jobId = some e) (hunsettled : Unsettled e)
    {settling : JobSlot → Settling × JobSlot} (state : JobState) {answering : List Token → Phase}
    (hstart : ∀ cancelled parked, settling ⟨cancelled, .starting parked⟩ =
      (.settled parked, ⟨cancelled, state⟩))
    (hcancel : ∀ cancelled, settling ⟨cancelled, .cancelled⟩ =
      (.cancelled, ⟨cancelled, .cancelled⟩))
    (hslot : ∀ parked, e.slot.state = .starting parked →
      SlotOk (s.watch t.jobId) s.outstanding t.jobId ⟨⟨e.slot.cancelled, state⟩, true⟩)
    (hstarting : ∀ offers, state ≠ .starting offers)
    (hfits : ∀ offers, Fits ⟨⟨e.slot.cancelled, state⟩, true⟩ (s.watch t.jobId) (answering offers))
    (hoffers : ∀ offers, offersOf (answering offers) = offers) :
    Sound owner (s.settle id t settling answering) := by
  obtain ⟨hstate, hheld⟩ := hunsettled
  have hslotEq : e.slot = ⟨e.slot.cancelled, e.slot.state⟩ := rfl
  unfold settle
  rw [hlook]
  dsimp only
  rw [hheld, hslotEq]
  rcases hstate with ⟨parked, hparked⟩ | hcancelled
  · rw [hparked, hstart]
    exact h.settleTo ht hlook hparked hheld (hslot parked hparked) hstarting hfits hoffers
  · rw [hcancelled, hcancel]
    exact h.wind ht (fun _ _ => trivial) rfl rfl

theorem sound_started
    (hphase : t.phase = .started) : Sound owner (s.settle id t JobSlot.acceptStart .accepting) := by
  obtain ⟨e, hlook, hfits⟩ := h.manned id t ht
  rw [hphase] at hfits
  refine sound_settle h ht hlook hfits.1 .started (fun _ _ => rfl) (fun _ => rfl)
    (fun parked hparked => ?_) nofun (fun _ => ⟨rfl, rfl⟩) (fun _ => rfl)
  exact ⟨fun _ => (h.slots _ e hlook).live hparked nofun, fun _ => hfits.2,
    nofun, nofun⟩

theorem sound_failed {reason : Refusal} (hphase : t.phase = .failed reason) :
    Sound owner (s.settle id t (JobSlot.rejectStart · reason) (.rejecting reason)) := by
  obtain ⟨e, hlook, hfits⟩ := h.manned id t ht
  rw [hphase] at hfits
  refine sound_settle h ht hlook hfits (.rejected reason) (fun _ _ => rfl) (fun _ => rfl)
    (fun parked hparked => ?_) nofun (fun _ => ⟨rfl, rfl⟩) (fun _ => rfl)
  have hslot := h.slots _ e hlook
  exact ⟨fun _ => hslot.live hparked nofun, nofun,
    nofun, fun _ _ => hslot.starting parked hparked⟩

theorem sound_answered (hholds : holds t.phase = true) {p : Phase} (hp : ∀ e w, Fits e w p)
    (hoffers : offersOf p = []) (hfree : holds p = false) :
    Sound owner ((s.letGo t.jobId).setTask id { t with phase := p }) := by
  obtain ⟨e, hlook, -⟩ := h.manned id t ht
  have hwound : Sound owner (s.setTask id { t with phase := p }) := h.wind ht hp hoffers hfree
  have heq : (s.letGo t.jobId).setTask id { t with phase := p } =
      (s.setTask id { t with phase := p }).letGo t.jobId := by
    rw [letGo_eq hlook]
    exact (letGo_eq (s := s.setTask id { t with phase := p }) hlook).symm
  have hothers : ∀ id' t', (s.setTask id { t with phase := p }).tasks id' = some t' →
      t'.jobId = t.jobId → t'.phase = p := by
    intro id' t' ht' hjob
    rcases of_update_some ht' with ⟨-, rfl⟩ | ⟨hne, ht₀⟩
    · rfl
    · exact absurd (h.single id' id t' t ht₀ ht hjob) hne
  rw [heq]
  refine hwound.letGo hlook (fun id' t' ht' hjob => ?_) ?_
  · rw [hothers id' t' ht' hjob]
    exact hfree
  refine h.pcOk_elsewhere ht hlook (.inr hholds) (fun j hj => lookup_setEntry_of_ne _ _ hj)
    (fun _ _ hno => hno) (fun _ _ ha => ha) (fun id' t' ht' hjob => ?_)
  rcases of_update_some ht' with ⟨-, rfl⟩ | ⟨-, ht₀⟩
  · exact absurd rfl hjob
  · exact ht₀

theorem sound_accepting {offer : Token}
    {offers : List Token} (hphase : t.phase = .accepting (offer :: offers)) :
    Sound owner ((s.accept t.jobId offer).setTask id { t with phase := .accepting offers }) := by
  obtain ⟨e, hlook, hfits⟩ := h.manned id t ht
  have hown := (h.offered id t ht).2
  rw [hphase] at hfits hown
  have hslot := h.slots _ e hlook
  have hlive := hslot.live hfits.1 nofun
  have hsent : Sound owner (s.accept t.jobId offer) := by
    refine h.accept (hown offer mem_cons_self)
      (.inr ⟨hslot.started hfits.1, hlive⟩) (fun e' hlook' => ?_)
      (fun o _ _ hclear => ?_)
    · rw [hlook] at hlook'
      cases hlook'
      exact .inl hfits.1
    · rw [hclear.1] at hlook
      cases hlook
  refine hsent.setPhase (t := t) ht (fun e' _ hfits' => ?_)
    (forall_mem_cons.mp hown).2
    (pcOk_setPhase hsent ht fun hf => ?_)
  · rw [hphase] at hfits'
    exact hfits'
  · rw [hphase] at hf
    cases hf

theorem sound_rejecting {reason : Refusal}
    {offer : Token} {offers : List Token} (hphase : t.phase = .rejecting reason (offer :: offers)) :
    Sound owner ((s.reject t.jobId offer reason (.startRejected t.jobId offer)).setTask id
      { t with phase := .rejecting reason offers }) := by
  obtain ⟨e, hlook, hfits⟩ := h.manned id t ht
  have hown := (h.offered id t ht).2
  rw [hphase] at hfits hown
  have hslot := h.slots _ e hlook
  have hlive := hslot.live hfits.1 nofun
  have hsent : Sound owner (s.reject t.jobId offer reason (.startRejected t.jobId offer)) :=
    h.reject reason (hown offer mem_cons_self) (hslot.rejected reason hfits.1)
      (quiet_startRejected _ hlive)
  refine hsent.setPhase (t := t) ht (fun e' _ hfits' => ?_)
    (forall_mem_cons.mp hown).2
    (pcOk_setPhase hsent ht fun hf => ?_)
  · rw [hphase] at hfits'
    exact hfits'
  · rw [hphase] at hf
    cases hf

end

/-- The exit is reported under a token of its own. -/
theorem sound_exited (hexit : ∀ job, owner (exitToken job) = none) (h : Sound owner s) {id : Nat}
    {t : Task} (ht : s.tasks id = some t) :
    Sound owner ((s.sendVerdict (exitToken t.jobId)
      (.runnerExited t.jobId (exitToken t.jobId))).setTask id { t with phase := .releasing }) := by
  have hsent : Sound owner (s.sendVerdict (exitToken t.jobId)
      (.runnerExited t.jobId (exitToken t.jobId))) := by
    refine h.sendVerdict nofun fun j token hlook => ?_
    obtain ⟨htoken, -, hown⟩ := h.accepts _ j token hlook
    rw [← htoken, hexit] at hown
    cases hown
  exact hsent.wind (t := t) ht (fun _ _ => trivial) rfl rfl

/-- The guard's drop ends the flight. -/
theorem sound_release (h : Sound owner s) {id : Nat} {t : Task} (ht : s.tasks id = some t) :
    Sound owner (s.release id t.jobId) := by
  unfold release
  split
  · exact h
  rename_i hbusy
  obtain ⟨e, hlook, -⟩ := h.manned id t ht
  have hheld : e.held = false := by
    unfold busy at hbusy
    rw [hlook] at hbusy
    exact Bool.eq_false_iff.mpr hbusy
  have hkept : ∀ {id' t'}, Function.update s.tasks id none id' = some t' →
      s.tasks id' = some t' ∧ t'.jobId ≠ t.jobId := by
    intro id' t' ht'
    obtain ⟨hid, ht'⟩ := of_update_none ht'
    exact ⟨ht', fun hjob => hid (h.single id' id t' t ht' ht hjob)⟩
  have hwatch : ∀ j, (Supervisor.tell { s with
        inFlight := s.inFlight.erase t.jobId
        tasks := Function.update s.tasks id none } (.released t.jobId)).watch j =
      if t.jobId = j then { s.watch j with flying := false } else s.watch j :=
    fun j => watch_tell _ _ _
  have hne : ∀ {j}, j ≠ t.jobId →
      (s.inFlight.erase t.jobId).lookup j = s.inFlight.lookup j :=
    fun hj => AList.lookup_erase_ne hj
  have hflight : ∀ {j e'}, (s.inFlight.erase t.jobId).lookup j = some e' →
      j ≠ t.jobId ∧ s.inFlight.lookup j = some e' := by
    intro j e' hlook'
    by_cases hj : j = t.jobId
    · subst hj
      rw [AList.lookup_erase] at hlook'
      cases hlook'
    · exact ⟨hj, (hne hj).symm.trans hlook'⟩
  refine
    { fresh := ?_, single := ?_, manned := ?_, slots := ?_, flying := ?_, pc := ?_,
      accepts := ?_, unacked := ?_, ordered := h.ordered, offered := ?_, parked := ?_,
      told := ?_, calm := h.calm }
  · intro id' hid'
    change Function.update s.tasks id none id' = none
    by_cases hid : id' = id
    · rw [hid, update_self]
    · rw [update_of_ne hid]
      exact h.fresh id' hid'
  · exact fun a b ta tb hta htb hjob => h.single a b ta tb (hkept hta).1 (hkept htb).1 hjob
  · intro id' t' ht'
    obtain ⟨hold, hjob⟩ := hkept ht'
    obtain ⟨e', hlook', hfits'⟩ := h.manned id' t' hold
    refine ⟨e', (hne hjob).trans hlook', ?_⟩
    rw [hwatch, if_neg fun heq => hjob heq.symm]
    exact hfits'
  · intro j e' hlook'
    obtain ⟨hj, hbefore⟩ := hflight hlook'
    rw [hwatch, if_neg fun heq => hj heq.symm]
    exact h.slots j e' hbefore
  · intro j
    rw [hwatch]
    by_cases hj : t.jobId = j
    · subst hj
      rw [if_pos rfl]
      exact (congrArg isSome (AList.lookup_erase t.jobId s.inFlight)).symm
    · rw [if_neg hj]
      exact (h.flying j).trans (congrArg isSome (hne fun heq => hj heq.symm)).symm
  · refine h.pcOk_elsewhere ht hlook (.inl hheld) (fun j hj => hne hj) (fun _ _ hno => hno)
      (fun j hj ha => ?_) (fun id' t' ht' _ => (hkept ht').1)
    rw [hwatch, if_neg fun heq => hj heq.symm]
    exact ha
  · intro key j token hlook'
    obtain ⟨hkey, hacc, hown⟩ := h.accepts key j token hlook'
    refine ⟨hkey, ?_, hown⟩
    rw [hwatch]
    split
    · exact hacc
    · exact hacc
  · intro j token htoken
    rw [hwatch] at htoken
    split at htoken
    · exact h.unacked j token htoken
    · exact h.unacked j token htoken
  · exact fun id' t' ht' => h.offered id' t' (hkept ht').1
  · exact fun j e' offers hlook' => h.parked j e' offers (hflight hlook').2
  · exact fun j => throughout_concat.mpr ⟨h.told j, trivial⟩

theorem sound_advance (hexit : ∀ job, owner (exitToken job) = none) (h : Sound owner s) {id : Nat}
    {t : Task} (ht : s.tasks id = some t) (outcome : Outcome) :
    Sound owner (s.advance id t outcome) := by
  unfold advance
  cases hphase : t.phase with
  | starting =>
    cases outcome with
    | starts => exact sound_starts h ht hphase
    | startFails error =>
      refine h.setPhase ht (fun e _ hfits => ?_) (forall_mem_nil _)
        (pcOk_setPhase h ht fun _ => rfl)
      rw [hphase] at hfits
      exact hfits
    | observesCancel =>
      dsimp only
      split
      · exact h.wind ht (fun _ _ => trivial) rfl rfl
      · exact h
    | panics => exact h.wind ht (fun _ _ => trivial) rfl rfl
    | exits => exact h
  | started => exact sound_started h ht hphase
  | failed reason => exact sound_failed h ht hphase
  | accepting offers =>
    cases offers with
    | nil => exact sound_answered h ht (by rw [hphase]; rfl) (fun _ _ => trivial) rfl rfl
    | cons offer offers => exact sound_accepting h ht hphase
  | rejecting reason offers =>
    cases offers with
    | nil => exact sound_answered h ht (by rw [hphase]; rfl) (fun _ _ => trivial) rfl rfl
    | cons offer offers => exact sound_rejecting h ht hphase
  | running =>
    cases outcome with
    | starts | startFails => exact h
    | observesCancel =>
      dsimp only
      split
      · exact h.wind ht (fun _ _ => trivial) rfl rfl
      · exact h
    | panics | exits => exact h.wind ht (fun _ _ => trivial) rfl rfl
  | exited => exact sound_exited hexit h ht
  | releasing => exact sound_release h ht

/-! ## Whole runs -/

section

variable (h : Sound owner s)

include h

theorem sound_commit : Sound owner s.commit :=
  Sound.tell (s := { s with shutdown := true })
    (h.flags rfl)
    fun _ => ⟨trivial, rfl, rfl, rfl, fun hw => hw, .inl rfl⟩

theorem sound_awaitRestart (id : Nat) (elapsed : Bool) :
    Sound owner (s.awaitRestart id elapsed) := by
  unfold awaitRestart
  cases s.restarts id with
  | none => exact h
  | some wait =>
    cases wait with
    | jobs | acks => exact h.flags rfl
    | done => exact (sound_commit h).flags rfl

theorem sound_restart : Sound owner s.restart := by
  unfold restart
  split
  · exact h.flags rfl
  · exact h.flags rfl
  · exact h

theorem sound_pollUpdate (elapsed : Bool) : Sound owner (s.pollUpdate elapsed) := by
  unfold pollUpdate
  split
  · exact h.flags rfl
  · exact h.flags rfl
  · exact h

theorem sound_connect (handshake : Handshake) : Sound owner (s.connect handshake) := by
  unfold connect
  split
  · exact h.flags rfl
  · exact h.flags rfl
  · exact h

theorem sound_pollSwap : Sound owner s.pollSwap := by
  unfold pollSwap
  split
  · split
    · exact h.flags rfl
    · exact h
  · exact h

theorem sound_apply (works : Bool) : Sound owner (s.apply works) := by
  unfold apply
  split
  · split
    · exact (sound_commit h).flags rfl
    · exact h.flags rfl
  · exact h

theorem sound_stop : Sound owner s.stop := by
  unfold stop
  split
  · exact h.flags rfl
  · exact h.flags rfl
  · exact h.flags rfl
  · exact h

/-- A move that is not admitted changes nothing. -/
theorem Sound.orStay {c : Prop} [Decidable c] {s' : Supervisor} (h' : c → Sound owner s') :
    Sound owner (if c then s' else s) := by
  split
  next hc =>
    exact h' hc
  · exact h

end

/-- One move of any party. -/
theorem sound_next (hexit : ∀ job, owner (exitToken job) = none) (h : Sound owner s) (m : Move)
    (hown : ∀ order, m = .provision order → owner order.offerToken = some order.jobId) :
    Sound owner (s.next m) := by
  cases m with
  | provision order =>
    unfold next
    dsimp only
    split
    · refine h.withPc trivial fun o ho => ?_
      cases ho
      exact hown order rfl
    · exact h
  | cancel job => exact h.orStay fun _ => sound_handleCancel h (fun _ _ => rfl) fun _ _ => trivial
  | drain => exact h.orStay fun _ => h.flags rfl
  | ack token => exact h.orStay fun _ => sound_ack h token
  | pushUpdate =>
    unfold next
    dsimp only
    split
    · exact h.flags rfl
    · exact h
  | dispatch host => exact sound_dispatch h host
  | pollUpdate elapsed => exact h.orStay fun _ => sound_pollUpdate h elapsed
  | disconnect => exact h.orStay fun _ => h.flags rfl
  | connect handshake => exact sound_connect h handshake
  | pollSwap => exact sound_pollSwap h
  | apply works => exact sound_apply h works
  | stop => exact sound_stop h
  | kill job => exact h.orStay fun _ => sound_handleCancel h (fun _ _ => rfl) fun _ _ => trivial
  | task id outcome =>
    unfold next
    dsimp only
    cases ht : s.tasks id with
    | none => exact h
    | some t => exact sound_advance hexit h ht outcome
  | restart => exact sound_restart h
  | awaitRestart id elapsed => exact sound_awaitRestart h id elapsed
  | operatorDrain | resume => exact h.flags rfl

theorem sound_run (hexit : ∀ job, owner (exitToken job) = none) (moves : List Move)
    (hown : ∀ order, .provision order ∈ moves → owner order.offerToken = some order.jobId) :
    Sound owner (after next fresh moves) := by
  have hall : Throughout next fresh (fun _ m => ∀ order, m = .provision order →
      owner order.offerToken = some order.jobId) moves := by
    rintro pre m post rfl order rfl
    exact hown order mem_append_cons_self
  exact keeps (fun s m hs hm => sound_next hexit hs m hm) sound_fresh hall

/-! ## One job per token -/

/-- Offers that come under one token are for one job, and no offer comes under a token that an
exit is reported under. -/
structure Disciplined (moves : List Move) : Prop where
  oneJob : ∀ a b : ProvisionRunner, .provision a ∈ moves → .provision b ∈ moves →
    a.offerToken = b.offerToken → a.jobId = b.jobId
  noExit : ∀ (order : ProvisionRunner) (job : JobId), .provision order ∈ moves →
    order.offerToken ≠ exitToken job

/-- The job that a move offers under the token. -/
def offeredBy (token : Token) : Move → Option JobId
  | .provision order => if order.offerToken = token then some order.jobId else none
  | _ => none

/-- The job that a run offers under the token. -/
def ownerIn (moves : List Move) (token : Token) : Option JobId := moves.findSome? (offeredBy token)

theorem offeredBy_eq_some {token : Token} {m : Move} (h : offeredBy token m = some job) :
    ∃ order, m = .provision order ∧ order.offerToken = token ∧ order.jobId = job := by
  unfold offeredBy at h
  split at h
  · split at h
    next order htoken =>
      exact ⟨order, rfl, htoken, some.inj h⟩
    · cases h
  · cases h

theorem Disciplined.ownerIn_eq {moves : List Move} (h : Disciplined moves)
    (hmem : .provision order ∈ moves) : ownerIn moves order.offerToken = some order.jobId := by
  have hsome : (ownerIn moves order.offerToken).isSome := by
    refine List.findSome?_isSome_iff.mpr ⟨_, hmem, ?_⟩
    unfold offeredBy
    dsimp only
    rw [if_pos rfl]
    rfl
  obtain ⟨job, hjob⟩ := isSome_iff_exists.mp hsome
  obtain ⟨m, hm, hfound⟩ := exists_of_findSome?_eq_some hjob
  obtain ⟨other, rfl, htoken, rfl⟩ := offeredBy_eq_some hfound
  rw [hjob, h.oneJob other order hm hmem htoken]

theorem Disciplined.ownerIn_exit {moves : List Move} (h : Disciplined moves) (job : JobId) :
    ownerIn moves (exitToken job) = none := by
  refine List.findSome?_eq_none_iff.mpr fun m hm => ?_
  refine eq_none_iff_forall_ne_some.mpr fun other hfound => ?_
  obtain ⟨order, rfl, htoken, -⟩ := offeredBy_eq_some hfound
  exact h.noExit order job hm htoken

/-- In every run in which a token stands for the offers of one job: a job never has two tasks at
once, no slot is found inconsistent, and every start and every verdict reported is permitted. -/
theorem one_runner_per_job (moves : List Move) (hdisciplined : Disciplined moves) :
    (∀ a b ta tb, (after next fresh moves).tasks a = some ta →
      (after next fresh moves).tasks b = some tb → ta.jobId = tb.jobId → a = b) ∧
    (after next fresh moves).panicked = false ∧
    ∀ job, Throughout (Watch.next job) {} (Permitted job) (after next fresh moves).log := by
  have h := sound_run hdisciplined.ownerIn_exit moves fun order hmem => hdisciplined.ownerIn_eq hmem
  exact ⟨h.single, h.calm, h.told⟩

/-- A start, a redelivery of its offer, the runner's exit, the ack and another start. -/
def redelivered : List Move :=
  .connect .accepted :: offer "J" "t" ++ startup 0 ++ offer "J" "t" ++ wrapUp 0 ++ [.ack "t"] ++
    offer "J" "u"

theorem ne_exitToken {token : Token} (h : token.length < 5) (job : JobId) :
    token ≠ exitToken job := by
  rintro rfl
  unfold exitToken at h
  rw [String.length_append] at h
  have hlen : "exit:".length = 5 := rfl
  omega

theorem provision_mem_redelivered (h : .provision order ∈ redelivered) :
    order = ⟨"J", "linux", "x86_64", "t"⟩ ∨ order = ⟨"J", "linux", "x86_64", "u"⟩ := by
  simpa [redelivered, offer, startup, wrapUp] using h

theorem one_runner_per_job_redelivered :
    (after next fresh redelivered).log.count (.issued "J") = 2 ∧
    (after next fresh redelivered).panicked = false ∧
    ∀ job, Throughout (Watch.next job) {} (Permitted job) (after next fresh redelivered).log := by
  refine ⟨by decide +kernel, (one_runner_per_job redelivered ⟨?_, ?_⟩).2⟩
  · intro a b ha hb _
    rcases provision_mem_redelivered ha with rfl | rfl <;>
      rcases provision_mem_redelivered hb with rfl | rfl <;> rfl
  intro order job hmem
  rcases provision_mem_redelivered hmem with rfl | rfl
  · exact ne_exitToken (by decide) job
  · exact ne_exitToken (by decide) job

/-- Two jobs offered under one token: the second accept replaces the first one's verdict, and the
first job is started again while its accept awaits the ack.  An offer under a token that an exit
is reported under loses its accept the same way. -/
theorem shared_token_starts_again :
    ¬ Throughout (Watch.next "J") {} (Permitted "J")
      (after next fresh (.connect .accepted :: offer "J" "t" ++ offer "K" "t" ++ startup 0 ++
        startup 1 ++ wrapUp 0 ++ offer "J" "u")).log ∧
    ¬ Throughout (Watch.next "J") {} (Permitted "J")
      (after next fresh (.connect .accepted :: offer "J" (exitToken "J") ++ startup 0 ++
        wrapUp 0 ++ offer "J" "u")).log := by
  decide +kernel

end Supervisor

end Arcbox.Runner

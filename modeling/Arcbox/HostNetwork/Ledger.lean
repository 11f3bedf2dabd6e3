import Arcbox.HostNetwork.Runtime

set_option autoImplicit false

/-!
# Host networking: the generation tells what has happened

Every writer advances the generation when it begins, so a snapshot whose generation is still
current has seen no writer since its capture.  The invariant relates the generation, the leases
and the outstanding snapshots to the log, and is kept by every step.
-/

namespace Arcbox.HostNetwork

open Foundation Foundation.History List

/-! ## Reading the log -/

/-- The events that come with an advance of the generation. -/
def Event.advances : Event → Bool
  | .leaseBegun _ | .leaseDropped _ | .hostWrite | .retiring | .admitted
  | .invalidated _ => true
  | _ => false

/-- The events that make the capture at `mark` stale: what mutations, host writers, retirements and
the commits of other snapshots do. -/
def Event.disturbs (mark : Nat) : Event → Bool
  | .leaseBegun _ | .leaseDropped _ | .mutated _ | .hostWrite | .hostEffect | .retiring
  | .retired => true
  | .invalidated other | .emptied other => other != mark
  | _ => false

/-- The leases that have begun and have not been dropped. -/
def liveLeases : List Event → List Lease
  | [] => []
  | .leaseBegun lease :: log => lease :: liveLeases log
  | .leaseDropped lease :: log => (liveLeases log).erase lease
  | _ :: log => liveLeases log

/-- Since the log had length `mark`, no lease has been live and nothing has been written. -/
structure Undisturbed (log : List Event) (mark : Nat) : Prop where
  split : ∃ recent older, log = recent ++ older ∧ older.length = mark ∧
    (∀ e ∈ recent, e.disturbs mark = false) ∧
    ∀ moment, older <:+ moment → moment <:+ log → liveLeases moment = []

/-- The number of advances. -/
def advances (log : List Event) : Nat := log.countP Event.advances

theorem advances_cons (e : Event) (log : List Event) :
    advances (e :: log) = advances log + if e.advances then 1 else 0 := countP_cons

theorem advances_append (recent older : List Event) :
    advances (recent ++ older) = advances recent + advances older := countP_append

/-- Neither begins nor ends a lease. -/
def Event.leaseless : Event → Bool
  | .leaseBegun _ | .leaseDropped _ => false
  | _ => true

/-- A snapshot commit that returns true. -/
def Event.commits : Event → Bool
  | .committed .. => true
  | _ => false

variable {e : Event} {snapshot : Snapshot} {mark : Nat} {lease : Lease}

theorem liveLeases_cons (he : e.leaseless = true) (log : List Event) :
    liveLeases (e :: log) = liveLeases log := by
  cases e <;> first | rfl | cases he

theorem leaseless_of_still (he : e.advances = false) : e.leaseless = true := by
  cases e <;> first | rfl | cases he

theorem leaseless_of_quiet (he : e.disturbs mark = false) : e.leaseless = true := by
  cases e <;> first | rfl | cases he

/-! ## Snapshots -/

/-- The generation of a snapshot is the number of advances before its capture.  No lease was
live then, and whoever has disturbed it since has advanced the generation. -/
def Taken (log : List Event) (snapshot : Snapshot) : Prop :=
  ∃ recent older, log = recent ++ older ∧ older.length = snapshot.mark ∧
    snapshot.generation = advances older ∧ liveLeases older = [] ∧
    ((∃ e ∈ recent, e.disturbs snapshot.mark = true) → 0 < advances recent)

/-- The generation has moved on. -/
def Stale (log : List Event) (snapshot : Snapshot) : Prop := snapshot.generation < advances log

variable {log : List Event}

theorem Stale.cons (h : Stale log snapshot) (e : Event) : Stale (e :: log) snapshot := by
  unfold Stale at h ⊢
  rw [advances_cons]
  omega

theorem Taken.stale_cons (h : Taken log snapshot) (he : e.advances = true) :
    Stale (e :: log) snapshot := by
  obtain ⟨recent, older, rfl, -, hgen, -, -⟩ := h
  unfold Stale
  rw [advances_cons, advances_append, hgen, if_pos he]
  omega

/-- An event is added after the capture: if it disturbs, it advances or the generation has
moved on already. -/
theorem Taken.cons (h : Taken log snapshot)
    (he : e.disturbs snapshot.mark = true → e.advances = true ∨ Stale log snapshot) :
    Taken (e :: log) snapshot := by
  obtain ⟨recent, older, rfl, hlen, hgen, hnone, hadv⟩ := h
  refine ⟨e :: recent, older, rfl, hlen, hgen, hnone, ?_⟩
  rintro ⟨e', hmem, hdist⟩
  rw [advances_cons]
  rcases mem_cons.mp hmem with rfl | hmem
  · rcases he hdist with hyes | hstale
    · rw [if_pos hyes]
      omega
    · unfold Stale at hstale
      rw [advances_append, hgen] at hstale
      omega
  · have := hadv ⟨e', hmem, hdist⟩
    omega

theorem undisturbed_now (hnone : liveLeases log = []) : Undisturbed log log.length := by
  refine ⟨[], log, rfl, rfl, nofun, fun moment hafter hbefore => ?_⟩
  rw [hbefore.eq_of_length_le hafter.length_le, hnone]

theorem Undisturbed.leases_eq (h : Undisturbed log mark) : liveLeases log = [] := by
  obtain ⟨recent, older, rfl, -, -, hnone⟩ := h.split
  exact hnone _ (suffix_append recent older) suffix_rfl

theorem Undisturbed.cons (h : Undisturbed log mark) (he : e.disturbs mark = false) :
    Undisturbed (e :: log) mark := by
  have hnow := h.leases_eq
  obtain ⟨recent, older, rfl, hlen, hquiet, hnone⟩ := h.split
  refine ⟨e :: recent, older, rfl, hlen, forall_mem_cons.mpr ⟨he, hquiet⟩, ?_⟩
  intro moment hafter hbefore
  rcases suffix_cons_iff.mp hbefore with rfl | hbefore
  · rw [liveLeases_cons (leaseless_of_quiet he), hnow]
  · exact hnone moment hafter hbefore

theorem Undisturbed.append {older : List Event} (h : Undisturbed older mark) (recent : List Event)
    (hquiet : ∀ e ∈ recent, e.disturbs mark = false) : Undisturbed (recent ++ older) mark := by
  induction recent with
  | nil => exact h
  | cons e recent ih =>
    exact (ih fun e' he' => hquiet e' (mem_cons_of_mem e he')).cons
      (hquiet e mem_cons_self)

theorem Taken.undisturbed (h : Taken log snapshot) (hgen : advances log = snapshot.generation) :
    Undisturbed log snapshot.mark := by
  obtain ⟨recent, older, rfl, hlen, hcount, hnone, hadv⟩ := h
  rw [← hlen]
  refine (undisturbed_now hnone).append recent fun e he => ?_
  rw [Bool.eq_false_iff]
  intro hdist
  have hpos := hadv ⟨e, he, hlen ▸ hdist⟩
  rw [advances_append] at hgen
  omega

/-! ## The invariant -/

/-- The task at an await is backed by a live lease, or by a snapshot that is undisturbed. -/
def Task.Backed (leases : List Lease) (log : List Event) : Task → Prop
  | .mutation lease _ => lease ∈ leases
  | .snapshot taken _ => Undisturbed log taken.mark
  | _ => True

/-- The work in progress is backed by the log. -/
def Pc.Backed (leases : List Lease) (log : List Event) : Pc → Prop
  | .preparing task | .ports task _ | .publishing task => task.Backed leases log
  | .listing snapshot _ => Undisturbed log snapshot.mark
  | _ => True

variable {task : Task}

variable {leases : List Lease}

theorem Task.Backed.clearing {log : List Event} (h : task.Backed leases log) :
    task.Backed leases (task.clearing :: log) := by
  cases task with
  | snapshot taken containers => exact Undisturbed.cons h (bne_self_eq_false _)
  | _ => exact h

theorem Task.Backed.cleared {log : List Event} (h : task.Backed leases log) :
    task.Backed leases (task.cleared :: log) := by
  cases task with
  | snapshot taken containers => exact Undisturbed.cons h (bne_self_eq_false _)
  | _ => exact h

/-- A lease in use by another task is dropped.  With a live lease no snapshot is undisturbed. -/
theorem Task.Backed.dropLease {log : List Event} (h : task.Backed leases log)
    (hlive : liveLeases log ≠ [])
    (hother : ∀ held change, task = .mutation held change → held ≠ lease) :
    task.Backed (leases.erase lease) (.leaseDropped lease :: log) := by
  cases task with
  | mutation held change => exact (mem_erase_of_ne (hother held change rfl)).mpr h
  | snapshot taken containers => exact absurd (Undisturbed.leases_eq h) hlive
  | webIndex | loadBalancers => trivial

theorem Pc.Backed.dropLease {log : List Event} {pc : Pc} (h : pc.Backed leases log)
    (hlive : liveLeases log ≠ []) (hunused : pc.uses lease = false) :
    pc.Backed (leases.erase lease) (.leaseDropped lease :: log) := by
  cases pc with
  | preparing task | ports task todo | publishing task =>
    refine Task.Backed.dropLease h hlive fun held change heq => ?_
    subst heq
    exact ne_of_beq_false hunused
  | listing snapshot containers => exact absurd (Undisturbed.leases_eq h) hlive
  | retiring | cleaning | writing | shuttingDown => trivial

/-- The awaits before which the generation has been advanced. -/
def Pc.outdates : Pc → Bool
  | .retiring | .preparing _ | .writing _ | .shuttingDown => true
  | _ => false

/-- Counts, leases and snapshots agree with the log. -/
structure Ledger (activity : Activity) (leases : List Lease) (snapshots : List Snapshot)
    (holder : Option Pc) (log : List Event) : Prop where
  counts : activity.closed = false → activity.generation = advances log
  active : activity.active = leases.length
  leases_eq : leases = liveLeases log
  taken : ∀ snapshot ∈ snapshots, Taken log snapshot
  /-- While a mutation or a writer is at work, no snapshot is current. -/
  stale : leases ≠ [] ∨ (∃ pc, holder = some pc ∧ pc.outdates = true) →
    ∀ snapshot ∈ snapshots, Stale log snapshot
  backed : ∀ pc, holder = some pc → pc.Backed leases log
  committed : ∀ newer mark containers older,
    log = newer ++ .committed mark containers :: older → Undisturbed older mark

namespace Ledger

variable {activity : Activity} {snapshots : List Snapshot} {holder : Option Pc}

theorem committed_cons (h : Ledger activity leases snapshots holder log)
    (he : ∀ mark containers, e = .committed mark containers → Undisturbed log mark) :
    ∀ newer mark containers older,
      e :: log = newer ++ .committed mark containers :: older → Undisturbed older mark := by
  intro newer mark containers older heq
  cases newer with
  | nil =>
    obtain ⟨rfl, rfl⟩ := cons_eq_cons.mp heq
    exact he mark containers rfl
  | cons e' newer =>
    obtain ⟨-, rfl⟩ := cons_eq_cons.mp heq
    exact h.committed newer mark containers older rfl

theorem release (h : Ledger activity leases snapshots holder log) :
    Ledger activity leases snapshots none log :=
  { h with
    stale := by
      rintro (hne | ⟨pc, hpc, -⟩)
      · exact h.stale (.inl hne)
      · cases hpc
    backed := nofun }

theorem park (h : Ledger activity leases snapshots none log) {pc : Pc}
    (hbacked : pc.Backed leases log)
    (hstale : pc.outdates = true → ∀ snapshot ∈ snapshots, Stale log snapshot) :
    Ledger activity leases snapshots (some pc) log :=
  { h with
    stale := by
      rintro (hne | ⟨pc', hpc, hout⟩)
      · exact h.stale (.inl hne)
      · cases hpc
        exact hstale hout
    backed := by
      intro pc' hpc
      cases hpc
      exact hbacked }

/-- One more event without an advance, while nobody holds the lock. -/
theorem note (h : Ledger activity leases snapshots none log) (hadv : e.advances = false)
    (hcommitted : ∀ mark containers, e = .committed mark containers → Undisturbed log mark)
    (hdist : ∀ snapshot ∈ snapshots, e.disturbs snapshot.mark = true → Stale log snapshot) :
    Ledger activity leases snapshots none (e :: log) where
  counts hopen := by
    rw [h.counts hopen, advances_cons, hadv]
    rfl
  active := h.active
  leases_eq := by rw [liveLeases_cons (leaseless_of_still hadv), ← h.leases_eq]
  taken snapshot hs := (h.taken snapshot hs).cons fun hd => .inr (hdist snapshot hs hd)
  stale hcause snapshot hs := (h.stale hcause snapshot hs).cons e
  backed pc hpc := (nomatch hpc)
  committed := h.committed_cons hcommitted

theorem counts_advance {n : Nat} (h : activity.closed = false → activity.generation = n)
    (hopen : activity.advance.closed = false) : activity.advance.generation = n + 1 := by
  unfold Activity.advance at hopen ⊢
  split
  next hlt =>
    rw [if_pos hlt] at hopen
    exact congrArg (· + 1) (h hopen)
  next hlt =>
    rw [if_neg hlt] at hopen
    cases hopen

theorem active_advance : activity.advance.active = activity.active := by
  unfold Activity.advance
  split <;> rfl

theorem closed_advance (h : activity.closed = true) : activity.advance.closed = true := by
  unfold Activity.advance
  split
  · exact h
  · rfl

/-- One more event with an advance. -/
theorem tick (h : Ledger activity leases snapshots none log) (hleaseless : e.leaseless = true)
    (hadv : e.advances = true) :
    Ledger activity.advance leases snapshots none (e :: log) ∧
      ∀ snapshot ∈ snapshots, Stale (e :: log) snapshot := by
  have hstale : ∀ snapshot ∈ snapshots, Stale (e :: log) snapshot := fun snapshot hs =>
    (h.taken snapshot hs).stale_cons hadv
  refine ⟨⟨fun hopen => ?_, ?_, ?_, ?_, fun _ => hstale, nofun, ?_⟩, hstale⟩
  · rw [counts_advance h.counts hopen, advances_cons, hadv]
    rfl
  · rw [active_advance, h.active]
  · rw [liveLeases_cons hleaseless, ← h.leases_eq]
  · exact fun snapshot hs => (h.taken snapshot hs).cons fun _ => .inl hadv
  · refine h.committed_cons fun mark containers heq => ?_
    subst heq
    cases hadv

theorem dropSnapshot (h : Ledger activity leases snapshots holder log) (snapshot : Snapshot) :
    Ledger activity leases (snapshots.erase snapshot) holder log :=
  { h with
    taken := fun s hs => h.taken s (mem_of_mem_erase hs)
    stale := fun hcause s hs => h.stale hcause s (mem_of_mem_erase hs) }

/-- Once admission has closed, the generation no longer counts. -/
theorem closing (h : Ledger activity leases snapshots holder log) {activity' : Activity}
    (hclosed : activity'.closed = true) (hactive : activity'.active = activity.active) :
    Ledger activity' leases snapshots holder log :=
  { h with
    counts := fun hopen => by rw [hclosed] at hopen; cases hopen
    active := hactive.trans h.active }

theorem beginLease (h : Ledger activity leases snapshots none log) (lease : Lease) :
    Ledger { activity.advance with active := activity.active + 1 } (lease :: leases) snapshots none
      (.leaseBegun lease :: log) where
  counts hopen := by
    rw [advances_cons]
    exact counts_advance h.counts hopen
  active := congrArg (· + 1) h.active
  leases_eq := congrArg (lease :: ·) h.leases_eq
  taken snapshot hs := (h.taken snapshot hs).cons fun _ => .inl rfl
  stale _ snapshot hs := (h.taken snapshot hs).stale_cons rfl
  backed pc hpc := (nomatch hpc)
  committed := h.committed_cons nofun

theorem dropLease (h : Ledger activity leases snapshots holder log) (hmem : lease ∈ leases)
    (hunused : holder.any (·.uses lease) = false) :
    Ledger { activity with active := activity.active - 1 }.advance (leases.erase lease) snapshots
      holder (.leaseDropped lease :: log) where
  counts hopen := by
    rw [advances_cons]
    exact counts_advance h.counts hopen
  active := by
    rw [active_advance, length_erase_of_mem hmem]
    exact congrArg (· - 1) h.active
  leases_eq := congrArg (List.erase · lease) h.leases_eq
  taken snapshot hs := (h.taken snapshot hs).cons fun _ => .inl rfl
  stale _ snapshot hs := (h.taken snapshot hs).stale_cons rfl
  backed pc hpc := by
    rw [hpc] at hunused
    exact (h.backed pc hpc).dropLease (h.leases_eq ▸ ne_nil_of_mem hmem) hunused
  committed := h.committed_cons nofun

/-- A capture, while no lease is live and nobody holds the lock. -/
theorem capture (h : Ledger activity leases snapshots none log) (hopen : activity.closed = false)
    (hidle : activity.active = 0) (vm : VmIncarnation) :
    Ledger activity leases (⟨vm, activity.generation, log.length⟩ :: snapshots) none log := by
  have hleases : leases = [] := eq_nil_of_length_eq_zero (h.active.symm.trans hidle)
  exact { h with
    taken := by
      refine forall_mem_cons.mpr ⟨?_, h.taken⟩
      refine ⟨[], log, rfl, rfl, h.counts hopen, h.leases_eq.symm.trans hleases, ?_⟩
      rintro ⟨e, he, -⟩
      cases he
    stale := by
      rintro (hne | ⟨pc, hpc, -⟩)
      · exact absurd hleases hne
      · cases hpc }

end Ledger

end Arcbox.HostNetwork

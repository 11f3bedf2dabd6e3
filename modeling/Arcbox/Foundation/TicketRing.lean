import Arcbox.Foundation.PowerOfTwo
import Arcbox.Foundation.Table

set_option autoImplicit false

/-!
# Ticket rings

A bounded queue that any number of threads fill and empty without locks.  Positions
are claimed one after another, for filling from `head` and for emptying from `tail`;
position `p` lives in slot `p % cap`.  A slot's sequence number says whose turn it
is: `p` means free for position `p`, `p + 1` means filled at position `p`, and
emptying position `p` leaves `p + cap`.  Every access to a shared cell is one step,
and the threads' steps interleave in any order.

A thread may give up or start over whenever it has looked at a slot; what it does
once it holds a position is fixed.  With at least two slots the meanings of a
sequence number never collide, and `Inv` holds in every reachable state.
-/

namespace Arcbox.Foundation.TicketRing

open List Function

/-! ## What the threads report -/

/-- The moments of a call that matter to the others: a position claimed for an item,
the item published there, a position taken, its item returned. -/
inductive Event (P α : Type) where
  | claimed (p : P) (a : α)
  | published (p : P)
  | refused (a : α)
  | taken (p : P)
  | returned (p : P) (a : α)
  | empty
  deriving DecidableEq, Repr

section Logs

variable {P Q α : Type}

/-- The same event at renamed positions. -/
def Event.map (f : P → Q) : Event P α → Event Q α
  | .claimed p a => .claimed (f p) a
  | .published p => .published (f p)
  | .refused a => .refused a
  | .taken p => .taken (f p)
  | .returned p a => .returned (f p) a
  | .empty => .empty

variable (log : List (Event P α))

def claims : List (P × α) := log.filterMap fun | .claimed p a => some (p, a) | _ => none

/-- The positions whose `enqueue` succeeded. -/
def published : List P := log.filterMap fun | .published p => some p | _ => none

/-- The positions taken, in the order of the claims on the tail. -/
def takes : List P := log.filterMap fun | .taken p => some p | _ => none

def returns : List (P × α) := log.filterMap fun | .returned p a => some (p, a) | _ => none

variable (l l' : List (Event P α))

@[simp] theorem claims_append : claims (l ++ l') = claims l ++ claims l' := filterMap_append ..

@[simp] theorem published_append : published (l ++ l') = published l ++ published l' :=
  filterMap_append ..

@[simp] theorem takes_append : takes (l ++ l') = takes l ++ takes l' := filterMap_append ..

@[simp] theorem returns_append : returns (l ++ l') = returns l ++ returns l' := filterMap_append ..

variable (f : P → Q)

variable (l : List (Event P α))

@[simp] theorem claims_map : claims (l.map (Event.map f)) = (claims l).map (Prod.map f id) := by
  simp only [claims, filterMap_map, map_filterMap]
  congr 1
  funext e
  cases e <;> rfl

@[simp] theorem published_map : published (l.map (Event.map f)) = (published l).map f := by
  simp only [published, filterMap_map, map_filterMap]
  congr 1
  funext e
  cases e <;> rfl

@[simp] theorem takes_map : takes (l.map (Event.map f)) = (takes l).map f := by
  simp only [takes, filterMap_map, map_filterMap]
  congr 1
  funext e
  cases e <;> rfl

@[simp] theorem returns_map : returns (l.map (Event.map f)) = (returns l).map (Prod.map f id) := by
  simp only [returns, filterMap_map, map_filterMap]
  congr 1
  funext e
  cases e <;> rfl

end Logs

/-! ## Threads -/

/-- Where a thread is. -/
inductive Phase (α : Type) where
  | idle
  /-- It has an item to put, and knows no position. -/
  | offering (a : α)
  /-- It has read the head `p`. -/
  | aiming (a : α) (p : Nat)
  /-- It has seen the slot of `p` free for `p`. -/
  | ready (a : α) (p : Nat)
  /-- It has claimed `p`. -/
  | writing (a : α) (p : Nat)
  /-- It has written its item to the slot of `p`. -/
  | written (a : α) (p : Nat)
  | asking
  | aimingOut (p : Nat)
  | readyOut (p : Nat)
  /-- It has taken `p`. -/
  | reading (p : Nat)
  /-- It has read the item of `p`. -/
  | read (p : Nat) (a : α)

/-- The position a thread may write. -/
def Phase.writes {α : Type} : Phase α → Option Nat
  | .writing _ p | .written _ p => some p
  | _ => none

/-- The position a thread may read. -/
def Phase.reads {α : Type} : Phase α → Option Nat
  | .reading p | .read p _ => some p
  | _ => none

/-- The ring with the threads at work on it. -/
structure State (ι α : Type) where
  head : Nat
  tail : Nat
  seq : Nat → Nat
  data : Nat → Option α
  phase : ι → Phase α
  log : List (Event Nat α)

variable {ι α : Type} [DecidableEq ι]

/-! ## Tickets

Positions are handed out in order, each to one holder, and each is done with once. -/

/-- The tickets below `bound` are each done with, or in the hands of one holder. -/
structure Tickets (done : List Nat) (bound : Nat) (holds : ι → Option Nat) : Prop where
  lt : ∀ t p, holds t = some p → p < bound
  unique : ∀ t t' p, holds t = some p → holds t' = some p → t = t'
  done_iff : ∀ p, p ∈ done ↔ p < bound ∧ ∀ t, holds t ≠ some p
  nodup : done.Nodup

section Tickets

variable {done : List Nat} {bound : Nat} {holds : ι → Option Nat} {t : ι}

omit [DecidableEq ι] in
theorem tickets_zero : Tickets [] 0 (fun _ : ι => none) := ⟨by simp, by simp, by simp, nodup_nil⟩

theorem Tickets.hand (h : Tickets done bound holds) (ht : holds t = none) :
    Tickets done (bound + 1) (Function.update holds t (some bound)) := by
  have hfresh : ∀ t', holds t' ≠ some bound := fun t' heq => Nat.lt_irrefl _ (h.lt t' bound heq)
  refine ⟨?_, ?_, ?_, h.nodup⟩
  · intro t' p hp
    rcases of_update_some hp with ⟨-, rfl⟩ | ⟨-, hp⟩
    · exact Nat.lt_succ_self _
    · exact Nat.lt_succ_of_lt (h.lt t' p hp)
  · intro t₁ t₂ p h1 h2
    rcases of_update_some h1 with ⟨ht₁, rfl⟩ | ⟨-, h1⟩
    · rcases of_update_some h2 with ⟨ht₂, -⟩ | ⟨-, h2⟩
      · exact ht₁.trans ht₂.symm
      · exact absurd h2 (hfresh t₂)
    · rcases of_update_some h2 with ⟨-, rfl⟩ | ⟨-, h2⟩
      · exact absurd h1 (hfresh t₁)
      · exact h.unique t₁ t₂ p h1 h2
  intro p
  rw [h.done_iff]
  constructor
  · rintro ⟨hlt, hno⟩
    refine ⟨Nat.lt_succ_of_lt hlt, fun t' hp => ?_⟩
    rcases of_update_some hp with ⟨-, heq⟩ | ⟨-, hp⟩
    · omega
    · exact hno t' hp
  rintro ⟨hlt, hno⟩
  have hself := hno t
  rw [update_self] at hself
  have hne : bound ≠ p := fun heq => hself (by rw [heq])
  refine ⟨by omega, fun t' hp => hno t' ?_⟩
  rcases eq_or_ne t' t with rfl | hne'
  · rw [ht] at hp
    cases hp
  · rwa [update_of_ne hne']

theorem Tickets.finish {p : Nat} (h : Tickets done bound holds) (ht : holds t = some p) :
    Tickets (done ++ [p]) bound (Function.update holds t none) := by
  have hold : ∀ t' q, Function.update holds t none t' = some q → t' ≠ t ∧ holds t' = some q :=
    fun t' q hq => of_update_none hq
  have hnotdone : p ∉ done := fun hmem => ((h.done_iff p).mp hmem).2 t ht
  refine ⟨fun t' q hq => h.lt t' q (hold t' q hq).2, ?_, ?_, ?_⟩
  · intro t₁ t₂ q h1 h2
    exact h.unique t₁ t₂ q (hold t₁ q h1).2 (hold t₂ q h2).2
  · intro q
    rw [mem_append, h.done_iff, mem_singleton]
    constructor
    · rintro (⟨hlt, hno⟩ | rfl)
      · exact ⟨hlt, fun t' hq => hno t' (hold t' q hq).2⟩
      · refine ⟨h.lt t q ht, fun t' hq => ?_⟩
        exact (hold t' q hq).1 (h.unique t' t q (hold t' q hq).2 ht)
    rintro ⟨hlt, hno⟩
    by_cases hqp : q = p
    · exact .inr hqp
    refine .inl ⟨hlt, fun t' hq => hno t' ?_⟩
    rcases eq_or_ne t' t with rfl | hne
    · exact absurd (Option.some.inj (hq.symm.trans ht)) hqp
    · rwa [update_of_ne hne]
  · rw [nodup_append]
    refine ⟨h.nodup, nodup_singleton p, ?_⟩
    intro q hq q' hq'
    rw [mem_singleton] at hq'
    rintro rfl
    exact hnotdone (hq' ▸ hq)

end Tickets

/-! ## Steps -/

/-- Thread `t` moves on and reports. -/
def State.move (s : State ι α) (t : ι) (ph : Phase α) (es : List (Event Nat α)) : State ι α :=
  { s with phase := Function.update s.phase t ph, log := s.log ++ es }

/-- A step of one thread on a ring of `cap` slots. -/
inductive Step (cap : Nat) : State ι α → State ι α → Prop where
  | offer {s : State ι α} {t : ι} (a : α) : s.phase t = .idle →
      Step cap s (s.move t (.offering a) [])
  | aim {s : State ι α} {t : ι} {a : α} : s.phase t = .offering a →
      Step cap s (s.move t (.aiming a s.head) [])
  | see {s : State ι α} {t : ι} {a : α} {p : Nat} : s.phase t = .aiming a p →
      s.seq (p % cap) = p → Step cap s (s.move t (.ready a p) [])
  | refuse {s : State ι α} {t : ι} {a : α} {p : Nat} : s.phase t = .aiming a p →
      Step cap s (s.move t .idle [.refused a])
  | again {s : State ι α} {t : ι} {a : α} {p : Nat} : s.phase t = .aiming a p →
      Step cap s (s.move t (.offering a) [])
  | lose {s : State ι α} {t : ι} {a : α} {p : Nat} : s.phase t = .ready a p →
      Step cap s (s.move t (.aiming a s.head) [])
  | claim {s : State ι α} {t : ι} {a : α} {p : Nat} : s.phase t = .ready a p → s.head = p →
      Step cap s { s.move t (.writing a p) [.claimed p a] with head := p + 1 }
  | write {s : State ι α} {t : ι} {a : α} {p : Nat} : s.phase t = .writing a p →
      Step cap s { s.move t (.written a p) [] with data := Function.update s.data (p % cap) (some a) }
  | publish {s : State ι α} {t : ι} {a : α} {p : Nat} : s.phase t = .written a p →
      Step cap s { s.move t .idle [.published p] with
        seq := Function.update s.seq (p % cap) (p + 1) }
  | ask {s : State ι α} {t : ι} : s.phase t = .idle → Step cap s (s.move t .asking [])
  | aimOut {s : State ι α} {t : ι} : s.phase t = .asking →
      Step cap s (s.move t (.aimingOut s.tail) [])
  | seeOut {s : State ι α} {t : ι} {p : Nat} : s.phase t = .aimingOut p →
      s.seq (p % cap) = p + 1 → Step cap s (s.move t (.readyOut p) [])
  | giveUp {s : State ι α} {t : ι} {p : Nat} : s.phase t = .aimingOut p →
      Step cap s (s.move t .idle [.empty])
  | againOut {s : State ι α} {t : ι} {p : Nat} : s.phase t = .aimingOut p →
      Step cap s (s.move t .asking [])
  | loseOut {s : State ι α} {t : ι} {p : Nat} : s.phase t = .readyOut p →
      Step cap s (s.move t (.aimingOut s.tail) [])
  | take {s : State ι α} {t : ι} {p : Nat} : s.phase t = .readyOut p → s.tail = p →
      Step cap s { s.move t (.reading p) [.taken p] with tail := p + 1 }
  | read {s : State ι α} {t : ι} {p : Nat} {a : α} : s.phase t = .reading p →
      s.data (p % cap) = some a → Step cap s (s.move t (.read p a) [])
  | release {s : State ι α} {t : ι} {p : Nat} {a : α} : s.phase t = .read p a →
      Step cap s { s.move t .idle [.returned p a] with
        seq := Function.update s.seq (p % cap) (p + cap) }

/-! ## The invariant -/

/-- What a thread in a phase can rely on. -/
def PhaseOk (cap : Nat) (s : State ι α) : Phase α → Prop
  | .idle | .offering _ | .aiming _ _ | .asking => True
  | .ready _ p => p < s.head ∨ s.seq (p % cap) = p
  | .writing a p => s.seq (p % cap) = p ∧ s.tail ≤ p ∧ p < s.head ∧ (p, a) ∈ claims s.log
  | .written a p =>
    (s.seq (p % cap) = p ∧ s.tail ≤ p ∧ p < s.head ∧ (p, a) ∈ claims s.log)
      ∧ s.data (p % cap) = some a
  | .aimingOut p => p ≤ s.tail
  | .readyOut p => p ≤ s.tail ∧ (p < s.tail ∨ s.seq (p % cap) = p + 1)
  | .reading p =>
    (s.seq (p % cap) = p + 1 ∧ p < s.tail ∧ s.head ≤ p + cap)
      ∧ ∃ a, s.data (p % cap) = some a ∧ (p, a) ∈ claims s.log
  | .read p a =>
    (s.seq (p % cap) = p + 1 ∧ p < s.tail ∧ s.head ≤ p + cap) ∧ (p, a) ∈ claims s.log

/-- What the sequence number of slot `i` says about position `p`. -/
inductive SlotOk (cap : Nat) (s : State ι α) (i p : Nat) : Prop where
  | free : s.seq i = p → s.head ≤ p → p < s.tail + cap → SlotOk cap s i p
  | claimed : s.seq i = p → s.tail ≤ p → p < s.head → p ∉ published s.log → SlotOk cap s i p
  | filled (a : α) : s.seq i = p + 1 → s.tail ≤ p → p < s.head → s.data i = some a →
      (p, a) ∈ claims s.log → SlotOk cap s i p
  | taken : s.seq i = p + 1 → p < s.tail → s.head ≤ p + cap → SlotOk cap s i p

/-- Every slot belongs to one position of the current lap, every claimed position is
published or in the hands of one thread, every taken one returned or in the hands of
one thread. -/
structure Inv (cap : Nat) (s : State ι α) : Prop where
  tail_le : s.tail ≤ s.head
  head_le : s.head ≤ s.tail + cap
  claims_eq : (claims s.log).map Prod.fst = List.range s.head
  takes_eq : takes s.log = List.range s.tail
  phase : ∀ t, PhaseOk cap s (s.phase t)
  slot : ∀ i, i < cap → ∃ p, p % cap = i ∧ SlotOk cap s i p
  writers : Tickets (published s.log) s.head fun t => (s.phase t).writes
  readers : Tickets ((returns s.log).map Prod.fst) s.tail fun t => (s.phase t).reads
  returned_claimed : ∀ x ∈ returns s.log, x ∈ claims s.log

section Counts

omit [DecidableEq ι]

variable {cap : Nat} {s : State ι α}

theorem Inv.head_eq (h : Inv cap s) : s.head = (claims s.log).length := by
  have hlen := congrArg List.length h.claims_eq
  rwa [length_map, length_range, eq_comm] at hlen

theorem Inv.tail_eq (h : Inv cap s) : s.tail = (takes s.log).length := by
  rw [h.takes_eq, length_range]

/-- A ring with all slots free for the first lap and all threads at rest. -/
theorem inv_start (hcap : 2 ≤ cap) (hhead : s.head = 0) (htail : s.tail = 0)
    (hseq : ∀ i, i < cap → s.seq i = i) (hphase : ∀ t, s.phase t = .idle) (hlog : s.log = []) :
    Inv cap s := by
  have hwrites : (fun t => (s.phase t).writes) = fun _ => none := by
    funext t
    rw [hphase]
    rfl
  have hreads : (fun t => (s.phase t).reads) = fun _ => none := by
    funext t
    rw [hphase]
    rfl
  refine ⟨by omega, by omega, ?_, ?_, ?_, ?_, ?_, ?_, ?_⟩
  · rw [hlog, hhead]
    rfl
  · rw [hlog, htail]
    rfl
  · intro t
    rw [hphase]
    trivial
  · intro i hi
    exact ⟨i, Nat.mod_eq_of_lt hi, .free (hseq i hi) (by omega) (by omega)⟩
  · rw [hwrites, hlog, hhead]
    exact tickets_zero
  · rw [hreads, hlog, htail]
    exact tickets_zero
  · rw [hlog]
    intro x hx
    cases hx

end Counts

/-- Neighbouring positions live in different slots. -/
theorem succ_mod_ne {cap : Nat} (hcap : 2 ≤ cap) (p : Nat) : (p + 1) % cap ≠ p % cap := by
  intro heq
  have := eq_of_mod_eq_of_lt heq.symm (Nat.le_succ p) (by omega)
  omega

section Phases

omit [DecidableEq ι]

variable {cap : Nat} {s s' : State ι α} {ph : Phase α}

theorem PhaseOk.of_writes {p : Nat} (h : PhaseOk cap s ph) (hw : ph.writes = some p) :
    s.seq (p % cap) = p ∧ s.tail ≤ p ∧ p < s.head := by
  cases ph with
  | writing a q =>
    cases hw
    exact ⟨h.1, h.2.1, h.2.2.1⟩
  | written a q =>
    cases hw
    exact ⟨h.1.1, h.1.2.1, h.1.2.2.1⟩
  | idle | offering | aiming | ready | asking | aimingOut | readyOut | reading | read => cases hw

theorem PhaseOk.of_reads {p : Nat} (h : PhaseOk cap s ph) (hr : ph.reads = some p) :
    s.seq (p % cap) = p + 1 ∧ p < s.tail ∧ s.head ≤ p + cap := by
  cases ph with
  | reading | read =>
    cases hr
    exact h.1
  | idle | offering | aiming | ready | writing | written | asking | aimingOut | readyOut => cases hr

/-- A phase stays sound as the counters grow, if a slot seen ready stays ready until
its position is claimed, and the slot in the thread's own hands is left alone. -/
theorem PhaseOk.transport (h : PhaseOk cap s ph) (hhead : s.head ≤ s'.head)
    (htail : s.tail ≤ s'.tail) (hclaims : ∀ x ∈ claims s.log, x ∈ claims s'.log)
    (hready : ∀ p, s.seq (p % cap) = p → p < s'.head ∨ s'.seq (p % cap) = p)
    (hreadyOut : ∀ p, s.seq (p % cap) = p + 1 → p < s'.tail ∨ s'.seq (p % cap) = p + 1)
    (hwrites : ∀ p, ph.writes = some p → s'.tail ≤ p ∧ s'.seq (p % cap) = s.seq (p % cap)
      ∧ s'.data (p % cap) = s.data (p % cap))
    (hreads : ∀ p, ph.reads = some p → s'.head ≤ p + cap ∧ s'.seq (p % cap) = s.seq (p % cap)
      ∧ s'.data (p % cap) = s.data (p % cap)) : PhaseOk cap s' ph := by
  cases ph with
  | idle | offering | aiming | asking => trivial
  | ready a p => exact h.elim (fun hlt => .inl (Nat.lt_of_lt_of_le hlt hhead)) (hready p)
  | writing a p =>
    obtain ⟨ht, hs, -⟩ := hwrites p rfl
    exact ⟨hs.trans h.1, ht, Nat.lt_of_lt_of_le h.2.2.1 hhead, hclaims _ h.2.2.2⟩
  | written a p =>
    obtain ⟨ht, hs, hd⟩ := hwrites p rfl
    exact ⟨⟨hs.trans h.1.1, ht, Nat.lt_of_lt_of_le h.1.2.2.1 hhead, hclaims _ h.1.2.2.2⟩,
      hd.trans h.2⟩
  | aimingOut p => exact Nat.le_trans h htail
  | readyOut p =>
    exact ⟨Nat.le_trans h.1 htail,
      h.2.elim (fun hlt => .inl (Nat.lt_of_lt_of_le hlt htail)) (hreadyOut p)⟩
  | reading p =>
    obtain ⟨hle, hs, hd⟩ := hreads p rfl
    obtain ⟨a, hdata, hmem⟩ := h.2
    exact ⟨⟨hs.trans h.1.1, Nat.lt_of_lt_of_le h.1.2.1 htail, hle⟩, a, hd.trans hdata,
      hclaims _ hmem⟩
  | read p a =>
    obtain ⟨hle, hs, -⟩ := hreads p rfl
    exact ⟨⟨hs.trans h.1.1, Nat.lt_of_lt_of_le h.1.2.1 htail, hle⟩, hclaims _ h.2⟩

/-- A slot stays sound while the counters stand still and its own cells are left alone. -/
theorem SlotOk.transport {i p : Nat} (h : SlotOk cap s i p) (hhead : s'.head = s.head)
    (htail : s'.tail = s.tail) (hseq : s'.seq i = s.seq i)
    (hdata : s.seq i = p + 1 → s'.data i = s.data i)
    (hclaims : ∀ x ∈ claims s.log, x ∈ claims s'.log)
    (hpub : p ∉ published s.log → p ∉ published s'.log) : SlotOk cap s' i p := by
  cases h with
  | free h1 h2 h3 => exact .free (hseq ▸ h1) (hhead ▸ h2) (htail ▸ h3)
  | claimed h1 h2 h3 h4 => exact .claimed (hseq ▸ h1) (htail ▸ h2) (hhead ▸ h3) (hpub h4)
  | filled a h1 h2 h3 h4 h5 =>
    exact .filled a (hseq ▸ h1) (htail ▸ h2) (hhead ▸ h3) ((hdata h1).trans h4) (hclaims _ h5)
  | taken h1 h2 h3 => exact .taken (hseq ▸ h1) (htail ▸ h2) (hhead ▸ h3)

end Phases

/-! ## Steps that claim nothing -/

section Move

variable {cap : Nat} {s : State ι α} {t : ι} {ph : Phase α} {es : List (Event Nat α)}

/-- Nothing the invariant speaks of is reported. -/
structure Quiet (es : List (Event Nat α)) : Prop where
  claims : claims es = []
  published : published es = []
  takes : takes es = []
  returns : returns es = []

theorem quiet_nil : Quiet ([] : List (Event Nat α)) := ⟨rfl, rfl, rfl, rfl⟩

theorem quiet_refused (a : α) : Quiet [.refused a] := ⟨rfl, rfl, rfl, rfl⟩

theorem quiet_empty : Quiet ([.empty] : List (Event Nat α)) := ⟨rfl, rfl, rfl, rfl⟩

/-- What each thread holds, `g`, after one thread has moved on. -/
theorem holds_update (g : Phase α → Option Nat) (ph : Phase α) :
    (fun t' => g (Function.update s.phase t ph t'))
      = Function.update (fun t' => g (s.phase t')) t (g ph) := comp_update g s.phase t ph

/-- A step after which the thread holds the positions it held. -/
theorem holds_stay (g : Phase α → Option Nat) (ph : Phase α) (hg : g ph = g (s.phase t)) :
    (fun t' => g (Function.update s.phase t ph t')) = fun t' => g (s.phase t') := by
  rw [holds_update, hg]
  exact update_eq_self t _

/-- A step that leaves the cells and the claims as they are. -/
theorem Inv.move (h : Inv cap s) (hes : Quiet es) (hw : ph.writes = (s.phase t).writes)
    (hr : ph.reads = (s.phase t).reads) (hph : PhaseOk cap s ph) : Inv cap (s.move t ph es) := by
  have hclaims : claims (s.move t ph es).log = claims s.log := by simp [State.move, hes.claims]
  have hpub : published (s.move t ph es).log = published s.log := by
    simp [State.move, hes.published]
  have htakes : takes (s.move t ph es).log = takes s.log := by simp [State.move, hes.takes]
  have hret : returns (s.move t ph es).log = returns s.log := by simp [State.move, hes.returns]
  have hok : ∀ ph', PhaseOk cap s ph' → PhaseOk cap (s.move t ph es) ph' := by
    intro ph' hph'
    exact hph'.transport .refl .refl (fun x hx => hclaims ▸ hx)
      (fun p hp => .inr hp) (fun p hp => .inr hp)
      (fun p hp => ⟨(hph'.of_writes hp).2.1, rfl, rfl⟩)
      (fun p hp => ⟨(hph'.of_reads hp).2.2, rfl, rfl⟩)
  refine ⟨h.tail_le, h.head_le, hclaims ▸ h.claims_eq, htakes ▸ h.takes_eq, ?_, ?_, ?_, ?_, ?_⟩
  · intro t'
    apply hok
    simp only [State.move]
    rcases eq_or_ne t' t with rfl | hne
    · rwa [update_self]
    · rw [update_of_ne hne]
      exact h.phase t'
  · intro i hi
    obtain ⟨p, hp, hslot⟩ := h.slot i hi
    exact ⟨p, hp, hslot.transport rfl rfl rfl (fun _ => rfl) (fun x hx => hclaims ▸ hx)
      (fun h4 => hpub ▸ h4)⟩
  · have hwriters := h.writers
    rw [← holds_stay Phase.writes ph hw, ← hpub] at hwriters
    exact hwriters
  · have hreaders := h.readers
    rw [← holds_stay Phase.reads ph hr, ← hret] at hreaders
    exact hreaders
  intro x hx
  rw [hret] at hx
  rw [hclaims]
  exact h.returned_claimed x hx

end Move

/-! ## Steps that claim, fill, take and release a position -/

section Owned

variable {cap : Nat} {s : State ι α} {t : ι} {a : α} {p : Nat}

omit [DecidableEq ι] in
/-- A slot free for `p`, or claimed for it, is no slot filled at another position. -/
theorem seq_ne_succ (hcap : 2 ≤ cap) {q : Nat} (hp : s.seq (p % cap) = p)
    (hq : s.seq (q % cap) = q + 1) : p % cap ≠ q % cap := by
  intro hmod
  rw [hmod, hq] at hp
  exact succ_mod_ne hcap q (by rw [hp, hmod])

/-- The position a thread may write or read. -/
def Phase.owns (ph : Phase α) : Option Nat := ph.writes <|> ph.reads

theorem Phase.owns_eq_some_iff {ph : Phase α} {p : Nat} :
    ph.owns = some p ↔ ph.writes = some p ∨ ph.reads = some p := by
  cases ph <;> simp [owns, writes, reads]

section

variable (hcap : 2 ≤ cap) (h : Inv cap s)

include hcap h

omit [DecidableEq ι] in
/-- No slot is in the hands of two threads. -/
theorem Inv.exclusive {t' : ι} {q : Nat} (ht : (s.phase t).owns = some p)
    (ht' : (s.phase t').owns = some q) (hmod : p % cap = q % cap) : t = t' := by
  rw [Phase.owns_eq_some_iff] at ht ht'
  rcases ht with hw | hr <;> rcases ht' with hw' | hr'
  · have h1 := ((h.phase t).of_writes hw).1
    have h2 := ((h.phase t').of_writes hw').1
    rw [hmod, h2] at h1
    exact h.writers.unique t t' p hw (h1 ▸ hw')
  · have h1 := ((h.phase t).of_writes hw).1
    have h2 := ((h.phase t').of_reads hr').1
    exact absurd hmod (seq_ne_succ hcap h1 h2)
  · have h1 := ((h.phase t).of_reads hr).1
    have h2 := ((h.phase t').of_writes hw').1
    exact absurd hmod.symm (seq_ne_succ hcap h2 h1)
  have h1 := ((h.phase t).of_reads hr).1
  have h2 := ((h.phase t').of_reads hr').1
  rw [hmod, h2] at h1
  exact h.readers.unique t t' p hr (Nat.succ.inj h1 ▸ hr')

theorem Inv.claim (ht : s.phase t = .ready a p) (hhead : s.head = p) :
    Inv cap { s.move t (.writing a p) [.claimed p a] with head := p + 1 } := by
  have hpos : 0 < cap := by omega
  have hready := h.phase t
  rw [ht] at hready
  have hseq : s.seq (p % cap) = p := hready.resolve_left (by omega)
  have htail := h.tail_le
  have hroom : p < s.tail + cap := by
    obtain ⟨q, hq, hslot⟩ := h.slot (p % cap) (Nat.mod_lt p hpos)
    cases hslot with
    | free | claimed => omega
    | filled _ h1 | taken h1 => exact absurd hq.symm (seq_ne_succ hcap hseq (hq ▸ h1))
  -- a position still being read is less than a lap behind the one claimed now
  have hlap : ∀ q, s.seq (q % cap) = q + 1 → s.head ≤ q + cap → p + 1 ≤ q + cap := by
    intro q hq hle
    have hne : p ≠ q + cap := by
      rintro rfl
      exact seq_ne_succ hcap hseq hq (Nat.add_mod_right q cap)
    omega
  have hclaims : claims (s.log ++ [.claimed p a]) = claims s.log ++ [(p, a)] := claims_append ..
  have hpub : published (s.log ++ [.claimed p a]) = published s.log := by simp [published]
  have hret : returns (s.log ++ [.claimed p a]) = returns s.log := by simp [returns]
  refine ⟨?_, ?_, ?_, ?_, ?_, ?_, ?_, ?_, ?_⟩
  · exact Nat.le_succ_of_le (hhead ▸ htail)
  · exact hroom
  · simp only [State.move, hclaims, map_append, h.claims_eq, hhead, range_succ]
    rfl
  · simpa [State.move, takes] using h.takes_eq
  · simp only [State.move]
    rw [forall_update_iff s.phase fun _ ph => PhaseOk cap _ ph]
    refine ⟨⟨hseq, hhead ▸ htail, Nat.lt_succ_self p, ?_⟩, fun t' _ => ?_⟩
    · exact hclaims ▸ mem_concat_self
    refine (h.phase t').transport (hhead ▸ Nat.le_succ _) .refl ?_
      (fun q hq => .inr hq) (fun q hq => .inr hq) ?_ ?_
    · intro x hx
      exact hclaims ▸ mem_append_left _ hx
    · intro q hq
      exact ⟨((h.phase t').of_writes hq).2.1, rfl, rfl⟩
    · intro q hq
      obtain ⟨h1, -, h3⟩ := (h.phase t').of_reads hq
      exact ⟨hlap q h1 h3, rfl, rfl⟩
  · intro i hi
    obtain ⟨q, rfl, hslot⟩ := h.slot i hi
    refine ⟨q, rfl, ?_⟩
    cases hslot with
    | free h1 h2 h3 =>
      rcases Nat.eq_or_lt_of_le h2 with heq | hlt
      · refine .claimed h1 (heq ▸ htail) (show q < p + 1 by omega) ?_
        rw [State.move, hpub, h.writers.done_iff]
        exact fun hlt => absurd hlt.1 (by omega)
      · exact .free h1 (hhead ▸ hlt) h3
    | claimed h1 h2 h3 h4 =>
      refine .claimed h1 h2 (show q < p + 1 by omega) ?_
      rwa [State.move, hpub]
    | filled b h1 h2 h3 h4 h5 =>
      refine .filled b h1 h2 (show q < p + 1 by omega) h4 ?_
      exact hclaims ▸ mem_append_left _ h5
    | taken h1 h2 h3 => exact .taken h1 h2 (hlap q h1 h3)
  · have hwriters := h.writers.hand (t := t) (by rw [ht]; rfl)
    rw [hhead] at hwriters
    simp only [State.move, hpub, holds_update Phase.writes]
    exact hwriters
  · have hreaders := h.readers
    simp only [State.move, hret, holds_stay Phase.reads (.writing a p) (s := s) (t := t) (by rw [ht]; rfl)]
    exact hreaders
  · intro x hx
    rw [State.move, hret] at hx
    exact hclaims ▸ mem_append_left _ (h.returned_claimed x hx)

/-- A step of a thread on the cells of the slot it owns; the counters stand still. -/
theorem Inv.touch {s' : State ι α} {ph : Phase α} (hown : (s.phase t).owns = some p)
    (hphase : s'.phase = Function.update s.phase t ph) (hhead : s'.head = s.head)
    (htail : s'.tail = s.tail) (hseq : ∀ i, i ≠ p % cap → s'.seq i = s.seq i)
    (hdata : ∀ i, i ≠ p % cap → s'.data i = s.data i) (hclaims : claims s'.log = claims s.log)
    (htakes : takes s'.log = takes s.log)
    (hpub : ∀ q, q % cap ≠ p % cap → q ∉ published s.log → q ∉ published s'.log)
    (hself : PhaseOk cap s' ph) (hslot : ∃ q, q % cap = p % cap ∧ SlotOk cap s' (p % cap) q)
    (hready : ∀ q, q % cap = p % cap → s.seq (q % cap) = q → q < s'.head ∨ s'.seq (q % cap) = q)
    (hreadyOut : ∀ q, q % cap = p % cap → s.seq (q % cap) = q + 1 → q < s'.tail ∨
      s'.seq (q % cap) = q + 1)
    (hwriters : Tickets (published s'.log) s'.head fun t => (s'.phase t).writes)
    (hreaders : Tickets ((returns s'.log).map Prod.fst) s'.tail fun t => (s'.phase t).reads)
    (hret : ∀ x ∈ returns s'.log, x ∈ claims s'.log) : Inv cap s' := by
  have hothers : ∀ t', t' ≠ t → ∀ q, (s.phase t').owns = some q → q % cap ≠ p % cap :=
    fun t' hne q hq hmod => hne (h.exclusive hcap hq hown hmod)
  refine ⟨?_, ?_, ?_, ?_, ?_, ?_, hwriters, hreaders, hret⟩
  · rw [hhead, htail]
    exact h.tail_le
  · rw [hhead, htail]
    exact h.head_le
  · rw [hclaims, hhead]
    exact h.claims_eq
  · rw [htakes, htail]
    exact h.takes_eq
  · rw [hphase, forall_update_iff s.phase fun _ ph => PhaseOk cap s' ph]
    refine ⟨hself, fun t' hne => ?_⟩
    refine (h.phase t').transport (Nat.le_of_eq hhead.symm) (Nat.le_of_eq htail.symm) (fun x hx => hclaims ▸ hx) ?_ ?_ ?_ ?_
    · intro q hq
      by_cases hmod : q % cap = p % cap
      · exact hready q hmod hq
      · exact .inr ((hseq _ hmod).trans hq)
    · intro q hq
      by_cases hmod : q % cap = p % cap
      · exact hreadyOut q hmod hq
      · exact .inr ((hseq _ hmod).trans hq)
    · intro q hq
      have hmod := hothers t' hne q (Phase.owns_eq_some_iff.mpr (.inl hq))
      exact ⟨htail ▸ ((h.phase t').of_writes hq).2.1, hseq _ hmod, hdata _ hmod⟩
    · intro q hq
      have hmod := hothers t' hne q (Phase.owns_eq_some_iff.mpr (.inr hq))
      exact ⟨hhead ▸ ((h.phase t').of_reads hq).2.2, hseq _ hmod, hdata _ hmod⟩
  · intro i hi
    rcases eq_or_ne i (p % cap) with rfl | hne
    · exact hslot
    · obtain ⟨q, rfl, hq⟩ := h.slot i hi
      exact ⟨q, rfl, hq.transport hhead htail (hseq _ hne) (fun _ => hdata _ hne)
        (fun x hx => hclaims ▸ hx) (hpub q hne)⟩

theorem Inv.write (ht : s.phase t = .writing a p) :
    Inv cap { s.move t (.written a p) [] with
      data := Function.update s.data (p % cap) (some a) } := by
  have hself := h.phase t
  rw [ht] at hself
  obtain ⟨hseq, htail, hlt, hmem⟩ := hself
  simp only [State.move, append_nil]
  refine h.touch hcap (p := p) (by rw [ht]; rfl) rfl rfl rfl (fun _ _ => rfl)
    (fun i hi => update_of_ne hi _ _) rfl rfl (fun _ _ h4 => h4)
    ⟨⟨hseq, htail, hlt, hmem⟩, update_self ..⟩ ⟨p, rfl, ?_⟩ (fun _ _ hq => .inr hq)
    (fun _ _ hq => .inr hq) ?_ ?_ h.returned_claimed
  · exact .claimed hseq htail hlt ((h.writers.done_iff p).not.mpr fun hp => hp.2 t (by rw [ht]; rfl))
  · simp only [holds_stay Phase.writes (.written a p) (s := s) (t := t) (by rw [ht]; rfl)]
    exact h.writers
  · simp only [holds_stay Phase.reads (.written a p) (s := s) (t := t) (by rw [ht]; rfl)]
    exact h.readers

theorem Inv.publish (ht : s.phase t = .written a p) :
    Inv cap { s.move t .idle [.published p] with
      seq := Function.update s.seq (p % cap) (p + 1) } := by
  have hself := h.phase t
  rw [ht] at hself
  obtain ⟨⟨hseq, htail, hlt, hmem⟩, hdata⟩ := hself
  have hclaims : claims (s.log ++ [.published p]) = claims s.log := by simp [claims]
  have hret : returns (s.log ++ [.published p]) = returns s.log := by simp [returns]
  have hpub : published (s.log ++ [.published p]) = published s.log ++ [p] := published_append ..
  refine h.touch hcap (p := p) (by rw [ht]; rfl) rfl rfl rfl
    (fun i hi => update_of_ne hi _ _) (fun _ _ => rfl) hclaims (by simp [State.move, takes])
    ?_ trivial
    ⟨p, rfl, .filled a (update_self ..) htail hlt hdata (hclaims ▸ hmem)⟩ ?_ ?_ ?_ ?_ ?_
  · intro q hmod h4
    rw [State.move, hpub, mem_append, mem_singleton]
    rintro (hq | rfl)
    · exact h4 hq
    · exact hmod rfl
  · intro q hmod hq
    obtain rfl : q = p := by rw [← hq, hmod, hseq]
    exact .inl hlt
  · intro q hmod hq
    exact absurd hmod.symm (seq_ne_succ hcap hseq hq)
  · have hwriters := h.writers.finish (t := t) (p := p) (by rw [ht]; rfl)
    simp only [State.move, hpub, holds_update Phase.writes]
    exact hwriters
  · simp only [State.move, hret, holds_stay Phase.reads .idle (s := s) (t := t) (by rw [ht]; rfl)]
    exact h.readers
  · intro x hx
    rw [State.move, hret] at hx
    exact hclaims ▸ h.returned_claimed x hx

theorem Inv.take (ht : s.phase t = .readyOut p) (htail : s.tail = p) :
    Inv cap { s.move t (.reading p) [.taken p] with tail := p + 1 } := by
  have hpos : 0 < cap := by omega
  have hready := h.phase t
  rw [ht] at hready
  have hseq : s.seq (p % cap) = p + 1 := hready.2.resolve_left (by omega)
  have hhead := h.head_le
  -- the slot can only be one that is filled at this position
  obtain ⟨a, hlt, hdata, hmem⟩ : ∃ a, p < s.head ∧ s.data (p % cap) = some a
      ∧ (p, a) ∈ claims s.log := by
    obtain ⟨q, hq, hslot⟩ := h.slot (p % cap) (Nat.mod_lt p hpos)
    cases hslot with
    | free h1 | claimed h1 => exact absurd hq (seq_ne_succ hcap (hq ▸ h1) hseq)
    | filled b h1 h2 h3 h4 h5 =>
      obtain rfl : q = p := by omega
      exact ⟨b, h3, h4, h5⟩
    | taken h1 h2 h3 => omega
  have hclaims : claims (s.log ++ [.taken p]) = claims s.log := by simp [claims]
  have hret : returns (s.log ++ [.taken p]) = returns s.log := by simp [returns]
  have hpub : published (s.log ++ [.taken p]) = published s.log := by simp [published]
  refine ⟨hlt, show s.head ≤ p + 1 + cap by omega, ?_, ?_, ?_, ?_, ?_, ?_, ?_⟩
  · simpa [State.move, claims] using h.claims_eq
  · simp only [State.move, takes_append, h.takes_eq, htail, range_succ]
    rfl
  · simp only [State.move]
    rw [forall_update_iff s.phase fun _ ph => PhaseOk cap _ ph]
    refine ⟨⟨⟨hseq, Nat.lt_succ_self p, htail ▸ hhead⟩, a, hdata, hclaims ▸ hmem⟩,
      fun t' _ => ?_⟩
    refine (h.phase t').transport .refl (htail ▸ Nat.le_succ _) (fun x hx => hclaims ▸ hx)
      (fun q hq => .inr hq) (fun q hq => .inr hq) ?_ ?_
    · intro q hq
      obtain ⟨h1, h2, -⟩ := (h.phase t').of_writes hq
      have hne : q ≠ p := by
        rintro rfl
        omega
      exact ⟨show p + 1 ≤ q by omega, rfl, rfl⟩
    · intro q hq
      exact ⟨((h.phase t').of_reads hq).2.2, rfl, rfl⟩
  · intro i hi
    obtain ⟨q, rfl, hslot⟩ := h.slot i hi
    refine ⟨q, rfl, ?_⟩
    cases hslot with
    | free h1 h2 h3 => exact .free h1 h2 (show q < p + 1 + cap by omega)
    | claimed h1 h2 h3 h4 =>
      have hne : q ≠ p := by
        rintro rfl
        omega
      refine .claimed h1 (show p + 1 ≤ q by omega) h3 ?_
      rwa [State.move, hpub]
    | filled b h1 h2 h3 h4 h5 =>
      rcases Nat.eq_or_lt_of_le h2 with heq | hlt'
      · exact .taken h1 (show q < p + 1 by omega) (show s.head ≤ q + cap by omega)
      · exact .filled b h1 (show p + 1 ≤ q by omega) h3 h4 (hclaims ▸ h5)
    | taken h1 h2 h3 => exact .taken h1 (show q < p + 1 by omega) h3
  · simp only [State.move, hpub, holds_stay Phase.writes (.reading p) (s := s) (t := t) (by rw [ht]; rfl)]
    exact h.writers
  · have hreaders := h.readers.hand (t := t) (by rw [ht]; rfl)
    rw [htail] at hreaders
    simp only [State.move, hret, holds_update Phase.reads]
    exact hreaders
  · intro x hx
    rw [State.move, hret] at hx
    exact hclaims ▸ h.returned_claimed x hx

theorem Inv.release (ht : s.phase t = .read p a) :
    Inv cap { s.move t .idle [.returned p a] with
      seq := Function.update s.seq (p % cap) (p + cap) } := by
  have hself := h.phase t
  rw [ht] at hself
  obtain ⟨⟨hseq, hlt, hhead⟩, hmem⟩ := hself
  have hclaims : claims (s.log ++ [.returned p a]) = claims s.log := by simp [claims]
  have hret : returns (s.log ++ [.returned p a]) = returns s.log ++ [(p, a)] := returns_append ..
  have hpub : published (s.log ++ [.returned p a]) = published s.log := by simp [published]
  refine h.touch hcap (p := p) (by rw [ht]; rfl) rfl rfl rfl
    (fun i hi => update_of_ne hi _ _) (fun _ _ => rfl) hclaims (by simp [State.move, takes])
    (fun _ _ h4 => hpub ▸ h4) trivial ⟨p + cap, Nat.add_mod_right p cap, ?_⟩ ?_ ?_ ?_ ?_ ?_
  · exact .free (update_self ..) hhead (Nat.add_lt_add_right hlt cap)
  · intro q hmod hq
    exact absurd hmod (seq_ne_succ hcap hq hseq)
  · intro q hmod hq
    obtain rfl : q = p := by
      rw [hmod] at hq
      omega
    exact .inl hlt
  · simp only [State.move, hpub, holds_stay Phase.writes .idle (s := s) (t := t) (by rw [ht]; rfl)]
    exact h.writers
  · have hreaders := h.readers.finish (t := t) (p := p) (by rw [ht]; rfl)
    simp only [State.move, hret, map_append, holds_update Phase.reads]
    exact hreaders
  intro x hx
  rw [State.move, hret, mem_append, mem_singleton] at hx
  rcases hx with hx | rfl
  · exact hclaims ▸ h.returned_claimed x hx
  · exact hclaims ▸ hmem

end

end Owned

/-! ## Every step keeps the invariant -/

section Steps

variable {cap : Nat} {s s' : State ι α}

theorem Inv.step (hcap : 2 ≤ cap) (h : Inv cap s) (hstep : Step cap s s') : Inv cap s' := by
  cases hstep with
  | offer _ ht | aim ht => exact h.move quiet_nil (by rw [ht]; rfl) (by rw [ht]; rfl) trivial
  | see ht hseq => exact h.move quiet_nil (by rw [ht]; rfl) (by rw [ht]; rfl) (.inr hseq)
  | refuse ht => exact h.move (quiet_refused _) (by rw [ht]; rfl) (by rw [ht]; rfl) trivial
  | again ht | lose ht => exact h.move quiet_nil (by rw [ht]; rfl) (by rw [ht]; rfl) trivial
  | claim ht hhead => exact h.claim hcap ht hhead
  | write ht => exact h.write hcap ht
  | publish ht => exact h.publish hcap ht
  | ask ht => exact h.move quiet_nil (by rw [ht]; rfl) (by rw [ht]; rfl) trivial
  | aimOut ht => exact h.move quiet_nil (by rw [ht]; rfl) (by rw [ht]; rfl) .refl
  | @seeOut t p ht hseq =>
    have hle := h.phase t
    rw [ht] at hle
    exact h.move quiet_nil (by rw [ht]; rfl) (by rw [ht]; rfl) ⟨hle, .inr hseq⟩
  | giveUp ht => exact h.move quiet_empty (by rw [ht]; rfl) (by rw [ht]; rfl) trivial
  | againOut ht => exact h.move quiet_nil (by rw [ht]; rfl) (by rw [ht]; rfl) trivial
  | loseOut ht => exact h.move quiet_nil (by rw [ht]; rfl) (by rw [ht]; rfl) .refl
  | take ht htail => exact h.take hcap ht htail
  | @read t p a ht hdata =>
    have hself := h.phase t
    rw [ht] at hself
    obtain ⟨hcells, b, hb, hmem⟩ := hself
    obtain rfl : b = a := Option.some.inj (hb.symm.trans hdata)
    exact h.move quiet_nil (by rw [ht]; rfl) (by rw [ht]; rfl) ⟨hcells, hmem⟩
  | release ht => exact h.release hcap ht

end Steps

/-! ## What the invariant gives -/

section Consequences

omit [DecidableEq ι]

variable {cap : Nat} {s : State ι α}

/-- A published item that was not taken waits in its slot. -/
theorem Inv.awaiting (hcap : 2 ≤ cap) (h : Inv cap s) {p : Nat} (hp : p ∈ published s.log)
    (htail : s.tail ≤ p) :
    ∃ a, s.seq (p % cap) = p + 1 ∧ s.data (p % cap) = some a ∧ (p, a) ∈ claims s.log := by
  have hlt : p < s.head := ((h.writers.done_iff p).mp hp).1
  obtain ⟨q, hq, hslot⟩ := h.slot (p % cap) (Nat.mod_lt p (by omega))
  have hhead := h.head_le
  cases hslot with
  | free h1 h2 h3 =>
    have := eq_of_mod_eq_of_lt hq.symm (by omega) (by omega)
    omega
  | claimed h1 h2 h3 h4 =>
    have heq : p = q := eq_of_mod_eq_of_near hq.symm (by omega) (by omega)
    exact absurd (heq ▸ hp) h4
  | filled a h1 h2 h3 h4 h5 =>
    have heq : p = q := eq_of_mod_eq_of_near hq.symm (by omega) (by omega)
    subst heq
    exact ⟨a, h1, h4, h5⟩
  | taken h1 h2 h3 =>
    have := eq_of_mod_eq_of_lt hq (by omega) (by omega)
    omega

theorem Inv.taken (h : Inv cap s) {p : Nat} (htail : p < s.tail) :
    p ∈ (returns s.log).map Prod.fst ∨ ∃ t, (s.phase t).reads = some p := by
  by_cases hex : ∃ t, (s.phase t).reads = some p
  · exact .inr hex
  · exact .inl ((h.readers.done_iff p).mpr ⟨htail, fun t ht => hex ⟨t, ht⟩⟩)

end Consequences

end Arcbox.Foundation.TicketRing

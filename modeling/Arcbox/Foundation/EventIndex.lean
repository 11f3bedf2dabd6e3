import Arcbox.Foundation.Serial

set_option autoImplicit false

/-!
# Event-index notification

A producer and a consumer share a ring through a counter of published entries.
To save notifications, the consumer stores in an event cell the count at which it
wants to be woken, and the producer notifies only if its last update of the counter
passed that count.  The consumer sleeps only after it has stored the event and found
the counter unmoved.

Every access to a shared cell is one step here, and the steps of the two sides come
in any order.  The counters are `w` bits wide and wrap; as long as fewer than
`2 ^ w` entries are outstanding, no wakeup is lost.
-/

namespace Arcbox.Foundation.EventIndex

open Foundation.Serial

variable {w : Nat}

/-- The counter moved from `oldIdx` to `newIdx` over the entry that `event` asks
for. -/
def needEvent (event newIdx oldIdx : BitVec w) : Bool :=
  decide ((newIdx - event - 1).toNat < (newIdx - oldIdx).toNat)

/-- Where the producer is. -/
inductive ProducerPhase where
  /-- This many entries are in the ring and not published; none when it is idle. -/
  | filling (entries : Nat)
  /-- The counter was advanced by this many. -/
  | published (entries : Nat)
  /-- The event cell was read. -/
  | decided (notify : Bool)
  deriving DecidableEq, Repr

/-- Where the consumer is. -/
inductive ConsumerPhase where
  /-- About to read the counter. -/
  | draining
  | popping
  /-- It found none. -/
  | drained
  /-- The event cell is stored. -/
  | armed
  | sleeping
  deriving DecidableEq, Repr

/-- A channel: the shared counter and event cell, the consumer's cursor, the
notification on its way, and how many entries were published and consumed in all. -/
structure Channel (w : Nat) where
  idx : BitVec w
  event : BitVec w
  cursor : BitVec w
  signal : Bool
  producer : ProducerPhase
  consumer : ConsumerPhase
  produced : Nat
  consumed : Nat
  deriving DecidableEq, Repr

/-- A step of either side, with at most `size` entries outstanding. -/
inductive Step (size : Nat) : Channel w → Channel w → Prop where
  | fill {s : Channel w} {k : Nat} : s.producer = .filling k → s.produced + k < s.consumed + size →
      Step size s { s with producer := .filling (k + 1) }
  | publish {s : Channel w} {n : Nat} : s.producer = .filling n → 0 < n →
      Step size s { s with
        idx := s.idx + BitVec.ofNat w n, producer := .published n, produced := s.produced + n }
  | readEvent {s : Channel w} {n : Nat} : s.producer = .published n →
      Step size s { s with
        producer := .decided (needEvent s.event s.idx (s.idx - BitVec.ofNat w n)) }
  | notify {s : Channel w} {b : Bool} : s.producer = .decided b →
      Step size s { s with producer := .filling 0, signal := s.signal || b }
  | check {s : Channel w} : s.consumer = .draining →
      Step size s { s with consumer := if s.idx = s.cursor then .drained else .popping }
  | pop {s : Channel w} : s.consumer = .popping →
      Step size s { s with
        cursor := s.cursor + 1, consumer := .draining, consumed := s.consumed + 1 }
  | arm {s : Channel w} : s.consumer = .drained →
      Step size s { s with event := s.cursor, consumer := .armed }
  | recheck {s : Channel w} : s.consumer = .armed →
      Step size s { s with consumer := if s.idx = s.cursor then .sleeping else .draining }
  | wake {s : Channel w} : s.consumer = .sleeping → s.signal = true →
      Step size s { s with consumer := .draining, signal := false }

structure Empty (s : Channel w) : Prop where
  idx : s.idx = s.cursor
  producer : s.producer = .filling 0
  counts : s.produced = 0 ∧ s.consumed = 0
  consumer : s.consumer = .draining ∨ (s.consumer = .sleeping ∧ s.event = s.cursor)

/-! ## The invariant -/

/-- Entries published or about to be. -/
def ProducerPhase.pending : ProducerPhase → Nat
  | .filling k => k
  | _ => 0

/-- Whatever the consumer sleeps on, the producer is about to notify it. -/
def Due (s : Channel w) : Prop :=
  s.produced = s.consumed
    ∨ (∃ n, s.producer = .published n ∧ s.produced = s.consumed + n)
    ∨ s.producer = .decided true

/-- The invariant of a channel whose counter started at `base`. -/
structure Inv (size : Nat) (base : BitVec w) (s : Channel w) : Prop where
  idx : s.idx = seqAt base s.produced
  cursor : s.cursor = seqAt base s.consumed
  le : s.consumed ≤ s.produced
  bound : s.produced + s.producer.pending ≤ s.consumed + size
  published : ∀ n, s.producer = .published n → 0 < n ∧ n ≤ size
  popping : s.consumer = .popping → s.consumed < s.produced
  armed : s.consumer = .armed ∨ s.consumer = .sleeping → s.event = s.cursor
  due : s.consumer = .sleeping → s.signal = false → Due s

variable {s : Channel w} {base : BitVec w} {size : Nat}

theorem inv_of_empty (h : Empty s) (size : Nat) : Inv size s.idx s where
  idx := by rw [h.counts.1, seqAt_zero]
  cursor := by rw [h.counts.2, seqAt_zero, h.idx]
  le := Nat.le_of_eq (by rw [h.counts.1, h.counts.2])
  bound := by rw [h.producer, h.counts.1]; exact Nat.zero_le _
  published n hn := by rw [h.producer] at hn; cases hn
  popping hp := by rcases h.consumer with hc | hc <;> simp_all
  armed hp := by rcases h.consumer with hc | hc <;> simp_all
  due _ _ := .inl (h.counts.1.trans h.counts.2.symm)

/-- A consumer that has consumed everything and asked for the next entry is woken by
any update. -/
theorem needEvent_of_armed (base : BitVec w) {c n : Nat} (hn : 0 < n) (hlt : n < 2 ^ w) :
    needEvent (seqAt base c) (seqAt base (c + n)) (seqAt base (c + n) - BitVec.ofNat w n)
      = true := by
  have hnew : seqAt base (c + n) - seqAt base c = BitVec.ofNat w n := by
    rw [sub_seqAt_of_le base (Nat.le_add_right _ _), Nat.add_sub_cancel_left]
  have hone : BitVec.ofNat w n - 1 = BitVec.ofNat w (n - 1) := by
    obtain ⟨m, rfl⟩ := Nat.exists_eq_succ_of_ne_zero (Nat.pos_iff_ne_zero.mp hn)
    rw [Nat.succ_sub_one, Nat.succ_eq_add_one, BitVec.ofNat_add]
    exact BitVec.add_sub_cancel _ _
  have hold : seqAt base (c + n) - BitVec.ofNat w n = seqAt base c := by
    rw [← seqAt_add, BitVec.add_sub_cancel]
  simp only [needEvent, hold, hnew, hone, BitVec.toNat_ofNat, decide_eq_true_eq]
  rw [Nat.mod_eq_of_lt hlt, Nat.mod_eq_of_lt (by omega)]
  omega

theorem Inv.idx_eq_cursor_iff (h : Inv size base s) (hsize : size < 2 ^ w) :
    s.idx = s.cursor ↔ s.produced = s.consumed := by
  have hle := h.le
  have hbound := h.bound
  rw [h.idx, h.cursor, seqAt_inj base (by omega) (by omega)]

theorem Inv.step {s' : Channel w} (h : Inv size base s) (hsize : size < 2 ^ w)
    (hs : Step size s s') : Inv size base s' := by
  have hiff := h.idx_eq_cursor_iff hsize
  obtain ⟨hidx, hcursor, hle, hbound, hpub, hpop, harmed, hdue⟩ := h
  cases hs with
  | fill hp hroom =>
      refine ⟨hidx, hcursor, hle, ?_, nofun, hpop, harmed, fun hc hsig => ?_⟩
      · exact hroom
      rcases hdue hc hsig with heq | ⟨n, hn, -⟩ | hd
      · exact .inl heq
      · exact absurd (hp.symm.trans hn) (by simp)
      · exact absurd (hp.symm.trans hd) (by simp)
  | @publish n hp hn =>
      rw [hp] at hbound
      refine ⟨?_, hcursor, by dsimp only; omega, hbound, ?_, fun hc => ?_, harmed, fun hc hsig => ?_⟩
      · rw [hidx, seqAt_add]
      · intro m hm
        dsimp only at hm
        rw [ProducerPhase.published.injEq] at hm
        subst hm
        simp only [ProducerPhase.pending] at hbound
        exact ⟨hn, by omega⟩
      · have := hpop hc
        dsimp only
        omega
      rcases hdue hc hsig with heq | ⟨m, hm, -⟩ | hd
      · exact .inr (.inl ⟨n, rfl, by dsimp only; omega⟩)
      · exact absurd (hp.symm.trans hm) (by simp)
      · exact absurd (hp.symm.trans hd) (by simp)
  | @readEvent n hp =>
      obtain ⟨hpos, hn⟩ := hpub n hp
      refine ⟨hidx, hcursor, hle, by rw [hp] at hbound; exact hbound, nofun, hpop, harmed,
        fun hc hsig => ?_⟩
      rcases hdue hc hsig with heq | ⟨m, hm, heq⟩ | hd
      · exact .inl heq
      · -- The event cell holds the cursor, and the update started there.
        have hmn : m = n := by
          have := hm.symm.trans hp
          simpa using this
        subst hmn
        refine .inr (.inr ?_)
        show ProducerPhase.decided _ = _
        rw [harmed (.inr hc), hcursor, hidx, heq,
          needEvent_of_armed base hpos (by omega)]
      · exact absurd (hp.symm.trans hd) (by simp)
  | @notify b hp =>
      refine ⟨hidx, hcursor, hle, by rw [hp] at hbound; exact hbound, nofun, hpop, harmed,
        fun hc hsig => ?_⟩
      simp only [Bool.or_eq_false_iff] at hsig
      rcases hdue hc hsig.1 with heq | ⟨m, hm, -⟩ | hd
      · exact .inl heq
      · exact absurd (hp.symm.trans hm) (by simp)
      · have := hp.symm.trans hd
        simp_all
  | check hc =>
      refine ⟨hidx, hcursor, hle, hbound, hpub, fun hp => ?_, fun ha => ?_, fun hsl => ?_⟩
      · dsimp only at hp ⊢
        split at hp
        · cases hp
        next hne =>
          have := mt hiff.mpr hne
          omega
      · dsimp only at ha
        split at ha <;> exact absurd ha (by simp)
      · dsimp only at hsl
        split at hsl <;> cases hsl
  | pop hc =>
      have hlt := hpop hc
      refine ⟨hidx, ?_, hlt, by dsimp only; omega, hpub, nofun, by simp, nofun⟩
      rw [hcursor]
      exact seqAt_add base s.consumed 1
  | arm hc => exact ⟨hidx, hcursor, hle, hbound, hpub, nofun, fun _ => rfl, nofun⟩
  | recheck hc =>
      refine ⟨hidx, hcursor, hle, hbound, hpub, fun hp => ?_, fun _ => harmed (.inl hc),
        fun hsl _ => ?_⟩
      · dsimp only at hp
        split at hp <;> cases hp
      dsimp only at hsl
      split at hsl
      next heq =>
        exact .inl (hiff.mp heq)
      · cases hsl
  | wake hc hsig => exact ⟨hidx, hcursor, hle, hbound, hpub, nofun, by simp, nofun⟩

/-- A consumer that sleeps with no notification on its way, while the producer is
filling at most, has consumed all that was published. -/
theorem Inv.nothing_lost (h : Inv size base s) (hsleep : s.consumer = .sleeping)
    (hsig : s.signal = false) {k : Nat} (hidle : s.producer = .filling k) :
    s.produced = s.consumed ∧ s.idx = s.cursor := by
  rcases h.due hsleep hsig with heq | ⟨n, hn, -⟩ | hd
  · exact ⟨heq, by rw [h.idx, h.cursor, heq]⟩
  · exact absurd (hidle.symm.trans hn) (by simp)
  · exact absurd (hidle.symm.trans hd) (by simp)

end Arcbox.Foundation.EventIndex

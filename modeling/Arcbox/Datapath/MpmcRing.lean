import Arcbox.Foundation.PowerOfTwo
import Arcbox.Foundation.Serial

set_option autoImplicit false

/-!
# Datapath: the MPMC ring, one call at a time

`MpmcRing` is a bounded queue whose slots carry sequence numbers; `usize` is a
64-bit word with the wrapping arithmetic of a release build.  This module has the
ring as calls made one after another see it: each accessor of the atomics, the
retry loops of `enqueue` and `dequeue`, and the refinement of a bounded FIFO.
-/

namespace Arcbox.Datapath

open Foundation Foundation.Serial List

variable {α : Type}

/-- `next_power_of_two`. -/
def nextPowerOfTwo (n : BitVec 64) : BitVec 64 :=
  if n = 0 then 1
  else
    let n := n - 1
    let n := n ||| n >>> 1
    let n := n ||| n >>> 2
    let n := n ||| n >>> 4
    let n := n ||| n >>> 8
    let n := n ||| n >>> 16
    let n := n ||| n >>> 32
    n + 1

variable {n : BitVec 64}

/-- The result is a power of two, or `0` where that power does not fit the word. -/
theorem toNat_nextPowerOfTwo (h : 1 ≤ n.toNat) :
    (nextPowerOfTwo n).toNat = 2 ^ (n.toNat - 1).size % 2 ^ 64 := by
  have hne : n ≠ 0 := by
    rintro rfl
    cases h
  have hpred : (n - 1).toNat = n.toNat - 1 := BitVec.toNat_sub_of_le h
  have hsmear := (((((smeared_self (n - 1)).double).double).double).double).double.double.toNat_eq
  rw [hpred] at hsmear
  have hpos := Nat.two_pow_pos (n.toNat - 1).size
  simp only [nextPowerOfTwo, if_neg hne]
  rw [BitVec.toNat_add, hsmear]
  show (2 ^ (n.toNat - 1).size - 1 + 1) % 2 ^ 64 = _
  rw [Nat.sub_add_cancel hpos]

/-! ## The ring -/

structure MpmcSlot (α : Type) where
  seq : BitVec 64
  data : Option α
  deriving DecidableEq, Repr

/-- The ring buffer. -/
structure MpmcRing (α : Type) where
  buffer : List (MpmcSlot α)
  capacity : BitVec 64
  mask : BitVec 64
  head : BitVec 64
  tail : BitVec 64
  deriving DecidableEq, Repr

namespace MpmcRing

/-- `MpmcRing::new`; `none` where the assertion on the capacity fails. -/
def new (capacity : BitVec 64) : Option (MpmcRing α) :=
  if capacity = 0 then none
  else
    let capacity := nextPowerOfTwo capacity
    some
      { buffer := (List.range capacity.toNat).map fun i => ⟨BitVec.ofNat 64 i, none⟩
        capacity := capacity
        mask := capacity - 1
        head := 0
        tail := 0 }

variable (r : MpmcRing α) (pos : BitVec 64)

/-- `len`. -/
def len : BitVec 64 := r.head - r.tail

/-- `self.buffer[pos & self.mask]`; `none` where the index is out of bounds. -/
def slotAt : Option (MpmcSlot α) := r.buffer[(pos &&& r.mask).toNat]?

def modifySlot (f : MpmcSlot α → MpmcSlot α) : MpmcRing α :=
  { r with buffer := r.buffer.modify (pos &&& r.mask).toNat f }

/-- `slot.data.write(item)` for the slot of a position. -/
def writeData (item : α) : MpmcRing α :=
  r.modifySlot pos fun slot => { slot with data := some item }

/-- `slot.seq.store(seq)` for the slot of a position. -/
def storeSeq (seq : BitVec 64) : MpmcRing α := r.modifySlot pos fun slot => { slot with seq := seq }

/-- `head.compare_exchange_weak(current, new)`, which may fail spuriously. -/
def casHead (fails : Bool) (current new : BitVec 64) : Except (BitVec 64) (MpmcRing α) :=
  if r.head = current ∧ fails = false then .ok { r with head := new } else .error r.head

/-- `tail.compare_exchange_weak(current, new)`, which may fail spuriously. -/
def casTail (fails : Bool) (current new : BitVec 64) : Except (BitVec 64) (MpmcRing α) :=
  if r.tail = current ∧ fails = false then .ok { r with tail := new } else .error r.tail

/-- The loop of `enqueue`, with one entry of `passes` for each pass: whether a
compare-exchange made on that pass fails spuriously.  `none` where the passes run
out, or where an index is out of bounds. -/
def enqueueLoop (item : α) :
    List Bool → BitVec 64 → MpmcRing α → Option (MpmcRing α × Except α Unit)
  | [], _, _ => none
  | fails :: passes, head, r =>
    match r.slotAt head with
    | none => none
    | some slot =>
      let diff := (slot.seq - head).toInt
      if diff = 0 then
        match r.casHead fails head (head + 1) with
        | .ok r => some ((r.writeData head item).storeSeq head (head + 1), .ok ())
        | .error h => enqueueLoop item passes h r
      else if diff < 0 then some (r, .error item)
      else enqueueLoop item passes r.head r

/-- `enqueue`. -/
def enqueue (item : α) (passes : List Bool) : Option (MpmcRing α × Except α Unit) :=
  enqueueLoop item passes r.head r

/-- The loop of `dequeue`.  Reading a slot that was never written is no value either. -/
def dequeueLoop : List Bool → BitVec 64 → MpmcRing α → Option (MpmcRing α × Option α)
  | [], _, _ => none
  | fails :: passes, tail, r =>
    match r.slotAt tail with
    | none => none
    | some slot =>
      let diff := (slot.seq - (tail + 1)).toInt
      if diff = 0 then
        match r.casTail fails tail (tail + 1) with
        | .ok r => slot.data.map fun item => (r.storeSeq tail (tail + r.capacity), some item)
        | .error t => dequeueLoop passes t r
      else if diff < 0 then some (r, none)
      else dequeueLoop passes r.tail r

/-- `dequeue`. -/
def dequeue (passes : List Bool) : Option (MpmcRing α × Option α) := dequeueLoop passes r.tail r

/-! ## Shape -/

structure Shaped (r : MpmcRing α) : Prop where
  pow : ∃ k, r.capacity.toNat = 2 ^ k
  mask : r.mask = r.capacity - 1
  length : r.buffer.length = r.capacity.toNat

section Shaped

variable {r : MpmcRing α} (h : r.Shaped)

include h

theorem Shaped.capacity_pos : 0 < r.capacity.toNat := by
  obtain ⟨k, hk⟩ := h.pow
  rw [hk]
  exact Nat.two_pow_pos k

theorem Shaped.capacity_le : r.capacity.toNat ≤ 2 ^ 63 := by
  obtain ⟨k, hk⟩ := h.pow
  have hlt := r.capacity.isLt
  rw [hk] at hlt ⊢
  have hk64 : k < 64 := (Nat.pow_lt_pow_iff_right (by decide)).mp hlt
  exact Nat.pow_le_pow_right (by decide) (by omega)

theorem Shaped.index (pos : BitVec 64) : (pos &&& r.mask).toNat = pos.toNat % r.capacity.toNat := by
  obtain ⟨k, hk⟩ := h.pow
  rw [h.mask, toNat_and_sub_one hk]

theorem Shaped.index_seqAt (p : Nat) :
    (seqAt (0 : BitVec 64) p &&& r.mask).toNat = p % r.capacity.toNat := by
  have hpos : (seqAt (0 : BitVec 64) p).toNat = p % 2 ^ 64 := by simp [seqAt]
  obtain ⟨k, hk⟩ := h.pow
  have hlt := r.capacity.isLt
  rw [hk] at hlt
  have hk64 : k < 64 := (Nat.pow_lt_pow_iff_right (by decide)).mp hlt
  rw [h.index, hpos, hk]
  exact Nat.mod_mod_of_dvd p (Nat.pow_dvd_pow 2 (Nat.le_of_lt hk64))

theorem Shaped.slotAt_lap (p : Nat) :
    r.slotAt (seqAt 0 (p + r.capacity.toNat)) = r.slotAt (seqAt 0 p) := by
  rw [slotAt, slotAt, h.index_seqAt, h.index_seqAt, Nat.add_mod_right]

theorem Shaped.withHead (head : BitVec 64) : { r with head := head }.Shaped :=
  ⟨h.pow, h.mask, h.length⟩

theorem Shaped.withTail (tail : BitVec 64) : { r with tail := tail }.Shaped :=
  ⟨h.pow, h.mask, h.length⟩

theorem Shaped.modifySlot (pos : BitVec 64) (f : MpmcSlot α → MpmcSlot α) :
    (r.modifySlot pos f).Shaped :=
  ⟨h.pow, h.mask, by simpa only [MpmcRing.modifySlot, length_modify] using h.length⟩

end Shaped

theorem slotAt_modifySlot (r : MpmcRing α) (pos pos' : BitVec 64) (f : MpmcSlot α → MpmcSlot α) :
    (r.modifySlot pos f).slotAt pos'
      = if (pos &&& r.mask).toNat = (pos' &&& r.mask).toNat then (r.slotAt pos').map f
        else r.slotAt pos' := by
  simp only [slotAt, modifySlot, List.getElem?_modify]
  split <;> simp

/-- Within a lap, a change to the slot of one position is seen at that position alone. -/
theorem Shaped.slotAt_modifySlot_seqAt {r : MpmcRing α} (h : r.Shaped) (p : Nat) {j k : Nat}
    (hj : j < r.capacity.toNat) (hk : k < r.capacity.toNat) (f : MpmcSlot α → MpmcSlot α) :
    (r.modifySlot (seqAt 0 (p + j)) f).slotAt (seqAt 0 (p + k))
      = if k = j then (r.slotAt (seqAt 0 (p + k))).map f else r.slotAt (seqAt 0 (p + k)) := by
  rw [slotAt_modifySlot, h.index_seqAt, h.index_seqAt]
  split
  next hmod =>
    have heq : p + j = p + k := eq_of_mod_eq_of_near hmod (by omega) (by omega)
    rw [if_pos (Nat.add_left_cancel heq).symm]
  next hmod =>
    rw [if_neg fun hkj => hmod (by rw [hkj])]

/-! ## A ring at rest

Between calls the ring holds a queue: from the tail position on, one slot for each
item with the sequence number of a filled slot, and the rest of the lap free. -/

/-- The ring at rest, holding `q` from position `tail` on. -/
structure Holds (r : MpmcRing α) (tail : Nat) (q : List α) : Prop where
  shaped : r.Shaped
  tail_eq : r.tail = seqAt 0 tail
  head_eq : r.head = seqAt 0 (tail + q.length)
  room : q.length ≤ r.capacity.toNat
  filled : ∀ k a, q[k]? = some a →
    r.slotAt (seqAt 0 (tail + k)) = some ⟨seqAt 0 (tail + k + 1), some a⟩
  free : ∀ k, q.length ≤ k → k < r.capacity.toNat →
    ∃ data, r.slotAt (seqAt 0 (tail + k)) = some ⟨seqAt 0 (tail + k), data⟩

theorem holds_new {r : MpmcRing α} (hnew : new n = some r) (hn : n.toNat ≤ 2 ^ 63) :
    r.Holds 0 [] := by
  unfold new at hnew
  split at hnew
  · cases hnew
  rename_i hne
  cases hnew
  have hpos : 1 ≤ n.toNat := Nat.one_le_iff_ne_zero.mpr fun hz => hne (BitVec.eq_of_toNat_eq hz)
  have hsize : (n.toNat - 1).size ≤ 63 := Nat.size_le.mpr (by omega)
  have hcap : (nextPowerOfTwo n).toNat = 2 ^ (n.toNat - 1).size := by
    rw [toNat_nextPowerOfTwo hpos]
    exact Nat.mod_eq_of_lt (Nat.pow_lt_pow_right (by decide) (by omega))
  have hshaped : Shaped (α := α)
      { buffer := (List.range (nextPowerOfTwo n).toNat).map fun i => ⟨BitVec.ofNat 64 i, none⟩
        capacity := nextPowerOfTwo n, mask := nextPowerOfTwo n - 1, head := 0, tail := 0 } :=
    ⟨⟨_, hcap⟩, rfl, by simp⟩
  refine ⟨hshaped, by simp, by simp, Nat.zero_le _, by simp, ?_⟩
  intro k _ hk
  refine ⟨none, ?_⟩
  rw [slotAt, hshaped.index_seqAt]
  simp only [Nat.zero_add] at hk ⊢
  rw [Nat.mod_eq_of_lt hk, List.getElem?_map, List.getElem?_range hk]
  simp [seqAt]

section Holds

variable {r : MpmcRing α} {tail : Nat} {q : List α} (h : r.Holds tail q)

include h

theorem Holds.len_eq : r.len.toNat = q.length := by
  have hle := h.shaped.capacity_le
  have hroom := h.room
  rw [len, h.head_eq, h.tail_eq, toNat_sub_of_le 0 (Nat.le_add_right _ _) (by omega),
    Nat.add_sub_cancel_left]

end Holds

/-! ## Calls on a ring at rest -/

/-- The ring after an `enqueue` that claimed the head. -/
def enqueued (r : MpmcRing α) (item : α) : MpmcRing α :=
  ({ r with head := r.head + 1 }.writeData r.head item).storeSeq r.head (r.head + 1)

/-- The ring after a `dequeue` that claimed the tail. -/
def dequeued (r : MpmcRing α) : MpmcRing α :=
  { r with tail := r.tail + 1 }.storeSeq r.tail (r.tail + r.capacity)

theorem enqueued_eq (r : MpmcRing α) (item : α) :
    r.enqueued item
      = { r.modifySlot r.head fun _ => ⟨r.head + 1, some item⟩ with head := r.head + 1 } := by
  simp only [enqueued, storeSeq, writeData, modifySlot, modify_modify_eq]
  rfl

variable (item : α) {a : α}

section Loops

variable {r : MpmcRing α} {slot : MpmcSlot α} {passes : List Bool}

theorem enqueueLoop_of_free (hslot : r.slotAt r.head = some slot) (hseq : slot.seq = r.head)
    (hfair : false ∈ passes) :
    enqueueLoop item passes r.head r = some (r.enqueued item, .ok ()) := by
  induction passes with
  | nil => cases hfair
  | cons fails passes ih =>
    have hdiff : (slot.seq - r.head).toInt = 0 := by
      rw [hseq, BitVec.sub_self]
      rfl
    simp only [enqueueLoop, hslot, hdiff, if_true]
    cases fails with
    | true =>
      simp only [casHead, Bool.true_eq_false, and_false, if_false]
      exact ih (by simpa using hfair)
    | false =>
      simp only [casHead, and_self, if_true]
      rfl

theorem enqueueLoop_of_behind (hslot : r.slotAt r.head = some slot)
    (hseq : (slot.seq - r.head).toInt < 0) (hfair : false ∈ passes) :
    enqueueLoop item passes r.head r = some (r, .error item) := by
  cases passes with
  | nil => cases hfair
  | cons fails passes =>
    have hne := Int.ne_of_lt hseq
    simp only [enqueueLoop, hslot, hne, hseq, if_false, if_true]

theorem dequeueLoop_of_filled (hslot : r.slotAt r.tail = some ⟨r.tail + 1, some a⟩)
    (hfair : false ∈ passes) : dequeueLoop passes r.tail r = some (r.dequeued, some a) := by
  induction passes with
  | nil => cases hfair
  | cons fails passes ih =>
    have hdiff : (r.tail + 1 - (r.tail + 1)).toInt = 0 := by
      rw [BitVec.sub_self]
      rfl
    simp only [dequeueLoop, hslot, hdiff, if_true]
    cases fails with
    | true =>
      simp only [casTail, Bool.true_eq_false, and_false, if_false]
      exact ih (by simpa using hfair)
    | false =>
      simp only [casTail, and_self, if_true]
      rfl

theorem dequeueLoop_of_behind (hslot : r.slotAt r.tail = some slot)
    (hseq : (slot.seq - (r.tail + 1)).toInt < 0) (hfair : false ∈ passes) :
    dequeueLoop passes r.tail r = some (r, none) := by
  cases passes with
  | nil => cases hfair
  | cons fails passes =>
    have hne := Int.ne_of_lt hseq
    simp only [dequeueLoop, hslot, hne, hseq, if_false, if_true]

end Loops

section Calls

variable {r : MpmcRing α} {tail : Nat} {q : List α} (h : r.Holds tail q)

include h

theorem Holds.enqueued (hroom : q.length < r.capacity.toNat) :
    (r.enqueued item).Holds tail (q ++ [item]) := by
  have hshaped : (r.enqueued item).Shaped :=
    ((h.shaped.withHead _).modifySlot _ _).modifySlot _ _
  obtain ⟨data, hdata⟩ := h.free q.length .refl hroom
  have hslots : ∀ k, k < r.capacity.toNat →
      (r.enqueued item).slotAt (seqAt 0 (tail + k))
        = if k = q.length then some ⟨seqAt 0 (tail + k + 1), some item⟩
          else r.slotAt (seqAt 0 (tail + k)) := by
    intro k hk
    rw [enqueued_eq, h.head_eq]
    change (r.modifySlot _ _).slotAt _ = _
    rw [h.shaped.slotAt_modifySlot_seqAt tail hroom hk]
    split
    next hkq =>
      rw [hkq, hdata, Option.map_some, seqAt_succ]
    · rfl
  have hcap : (r.enqueued item).capacity = r.capacity := rfl
  refine ⟨hshaped, h.tail_eq, ?_, ?_, ?_, ?_⟩
  · rw [length_append, length_singleton, ← Nat.add_assoc, seqAt_succ, ← h.head_eq]
    rfl
  · rw [hcap, length_append, length_singleton]
    omega
  · intro k a ha
    rw [List.getElem?_append] at ha
    split at ha
    next hk =>
      rw [hslots k (by omega), if_neg (by omega), h.filled k a ha]
    rename_i hk
    obtain ⟨hkq, rfl⟩ : k = q.length ∧ item = a := by
      rw [List.getElem?_singleton] at ha
      split at ha
      · exact ⟨by omega, Option.some.inj ha⟩
      · cases ha
    rw [hslots k (by omega), if_pos hkq]
  intro k hk hlt
  rw [length_append, length_singleton] at hk
  rw [hcap] at hlt
  rw [hslots k hlt, if_neg (by omega)]
  exact h.free k (by omega) hlt

theorem Holds.dequeued {rest : List α} (hq : q = a :: rest) : r.dequeued.Holds (tail + 1) rest := by
  subst hq
  have hroom := h.room
  rw [length_cons] at hroom
  have hshaped : r.dequeued.Shaped := (h.shaped.withTail _).modifySlot _ _
  have hpos := h.shaped.capacity_pos
  have hcap : r.dequeued.capacity = r.capacity := rfl
  have hslots : ∀ k, k < r.capacity.toNat →
      r.dequeued.slotAt (seqAt 0 (tail + k))
        = if k = 0 then some ⟨seqAt 0 (tail + r.capacity.toNat), some a⟩
          else r.slotAt (seqAt 0 (tail + k)) := by
    intro k hk
    rw [MpmcRing.dequeued, h.tail_eq]
    change (r.modifySlot _ _).slotAt _ = _
    have hmod := h.shaped.slotAt_modifySlot_seqAt tail hpos hk
      fun slot => { slot with seq := seqAt 0 tail + r.capacity }
    rw [Nat.add_zero] at hmod
    rw [hmod]
    split
    next hk0 =>
      subst hk0
      have hlap : seqAt 0 (tail + r.capacity.toNat) = seqAt 0 tail + r.capacity := by
        rw [← seqAt_add, BitVec.ofNat_toNat, BitVec.setWidth_eq]
      rw [h.filled 0 a rfl, Option.map_some, hlap]
    · rfl
  refine ⟨hshaped, ?_, ?_, ?_, ?_, ?_⟩
  · rw [seqAt_succ, ← h.tail_eq]
    rfl
  · rw [show tail + 1 + rest.length = tail + (a :: rest).length by simp; omega, ← h.head_eq]
    rfl
  · rw [hcap]
    omega
  · intro k b hb
    have hk : k < rest.length := (List.getElem?_eq_some_iff.mp hb).1
    rw [Nat.add_assoc tail, Nat.add_comm 1, hslots (k + 1) (by omega), if_neg (by omega)]
    exact h.filled (k + 1) b hb
  intro k hk hlt
  rw [hcap] at hlt
  rcases Nat.lt_or_ge (k + 1) r.capacity.toNat with hlap | hlap
  · rw [Nat.add_assoc tail, Nat.add_comm 1, hslots (k + 1) hlap, if_neg (by omega)]
    exact h.free (k + 1) (by rw [length_cons]; omega) hlap
  -- the last position of the lap is the one just released
  have hk1 : tail + 1 + k = tail + r.dequeued.capacity.toNat := by rw [hcap]; omega
  have hfreed := hslots 0 hpos
  rw [if_pos rfl, Nat.add_zero] at hfreed
  exact ⟨some a, by rw [hk1, hshaped.slotAt_lap, hfreed]; rfl⟩

variable {passes : List Bool}

/-- `enqueue` fills a free slot, or finds the ring full and leaves it. -/
theorem Holds.enqueue (hfair : false ∈ passes) (hcap : 2 ≤ r.capacity.toNat) :
    r.enqueue item passes
      = if q.length = r.capacity.toNat then some (r, .error item)
        else some (r.enqueued item, .ok ()) := by
  have hroom := h.room
  split
  next hfull =>
    -- the slot at the head is the one at the tail, a lap earlier and still filled
    have hne : 0 < q.length := by omega
    obtain ⟨a, ha⟩ : ∃ a, q[0]? = some a := ⟨q[0], List.getElem?_eq_getElem hne⟩
    have hslot : r.slotAt r.head = some ⟨seqAt 0 (tail + 1), some a⟩ := by
      rw [h.head_eq, hfull, h.shaped.slotAt_lap]
      exact h.filled 0 a ha
    refine enqueueLoop_of_behind item hslot ?_ hfair
    have hle := h.shaped.capacity_le
    rw [h.head_eq, toInt_sub_seqAt 0 (by omega) (by omega)]
    omega
  rename_i hfull
  obtain ⟨data, hslot⟩ := h.free q.length .refl (by omega)
  rw [← h.head_eq] at hslot
  exact enqueueLoop_of_free item hslot rfl hfair

/-- `dequeue` finds an empty ring empty and leaves it. -/
theorem Holds.dequeue_nil (hfair : false ∈ passes) (hq : q = []) :
    r.dequeue passes = some (r, none) := by
  subst hq
  obtain ⟨data, hslot⟩ := h.free 0 (Nat.zero_le _) h.shaped.capacity_pos
  rw [Nat.add_zero, ← h.tail_eq] at hslot
  refine dequeueLoop_of_behind hslot ?_ hfair
  rw [h.tail_eq, ← seqAt_succ, toInt_sub_seqAt 0 (by omega) (by omega)]
  omega

theorem Holds.dequeue_cons (hfair : false ∈ passes) {rest : List α} (hq : q = a :: rest) :
    r.dequeue passes = some (r.dequeued, some a) := by
  subst hq
  have hslot := h.filled 0 a rfl
  rw [Nat.add_zero, seqAt_succ, ← h.tail_eq] at hslot
  exact dequeueLoop_of_filled hslot hfair

end Calls

end MpmcRing

/-! ## Sequences of calls -/

inductive RingCall (α : Type) where
  | enqueue (item : α) (passes : List Bool)
  | dequeue (passes : List Bool)
  | len
  deriving Repr

/-- Not every compare-exchange the call may make fails spuriously. -/
def RingCall.Fair : RingCall α → Prop
  | .enqueue _ passes | .dequeue passes => false ∈ passes
  | .len => True

instance : DecidablePred (RingCall.Fair (α := α)) := fun call =>
  match call with
  | .enqueue _ _ | .dequeue _ => inferInstanceAs (Decidable (_ ∈ _))
  | .len => inferInstanceAs (Decidable True)

/-- What a call returned. -/
inductive RingReply (α : Type) where
  | enqueued (result : Except α Unit)
  | dequeued (result : Option α)
  | len (n : Nat)

/-- One call; `none` where it does not return. -/
def MpmcRing.call (r : MpmcRing α) : RingCall α → Option (MpmcRing α × RingReply α)
  | .enqueue item passes => (r.enqueue item passes).map fun (r, result) => (r, .enqueued result)
  | .dequeue passes => (r.dequeue passes).map fun (r, result) => (r, .dequeued result)
  | .len => some (r, .len r.len.toNat)

/-- The answers to calls made one at a time; `none` where one does not return. -/
def MpmcRing.replies (r : MpmcRing α) : List (RingCall α) → Option (List (RingReply α))
  | [] => some []
  | call :: calls =>
    match r.call call with
    | none => none
    | some (r, reply) => (r.replies calls).map (reply :: ·)

/-- What a queue bounded by `cap` that holds `q` answers, and what it holds then. -/
def fifoCall (cap : Nat) (q : List α) : RingCall α → List α × RingReply α
  | .enqueue item _ =>
    if q.length = cap then (q, .enqueued (.error item)) else (q ++ [item], .enqueued (.ok ()))
  | .dequeue _ =>
    match q with
    | [] => ([], .dequeued none)
    | a :: rest => (rest, .dequeued (some a))
  | .len => (q, .len q.length)

/-- The answers of a queue bounded by `cap` that holds `q`. -/
def fifoReplies (cap : Nat) : List α → List (RingCall α) → List (RingReply α)
  | _, [] => []
  | q, call :: calls => (fifoCall cap q call).2 :: fifoReplies cap (fifoCall cap q call).1 calls

variable {r : MpmcRing α}

theorem MpmcRing.Holds.call {tail : Nat} {q : List α} (h : r.Holds tail q)
    (hcap : 2 ≤ r.capacity.toNat) {call : RingCall α} (hfair : call.Fair) :
    ∃ r' tail', r.call call = some (r', (fifoCall r.capacity.toNat q call).2)
      ∧ r'.Holds tail' (fifoCall r.capacity.toNat q call).1 ∧ r'.capacity = r.capacity := by
  cases call with
  | enqueue item passes =>
    simp only [MpmcRing.call, fifoCall, h.enqueue item hfair hcap]
    split
    · exact ⟨r, tail, rfl, h, rfl⟩
    next hfull =>
      have hroom := h.room
      exact ⟨r.enqueued item, tail, rfl, h.enqueued item (by omega), rfl⟩
  | dequeue passes =>
    cases q with
    | nil =>
      refine ⟨r, tail, ?_, h, rfl⟩
      simp only [MpmcRing.call, fifoCall, h.dequeue_nil hfair rfl, Option.map_some]
    | cons a rest =>
      refine ⟨r.dequeued, tail + 1, ?_, h.dequeued rfl, rfl⟩
      simp only [MpmcRing.call, fifoCall, h.dequeue_cons hfair rfl, Option.map_some]
  | len =>
    refine ⟨r, tail, ?_, h, rfl⟩
    simp only [MpmcRing.call, fifoCall, h.len_eq]

theorem MpmcRing.Holds.replies {tail : Nat} {q : List α} (h : r.Holds tail q)
    (hcap : 2 ≤ r.capacity.toNat) {calls : List (RingCall α)} (hfair : ∀ call ∈ calls, call.Fair) :
    r.replies calls = some (fifoReplies r.capacity.toNat q calls) := by
  induction calls generalizing r tail q with
  | nil => rfl
  | cons call calls ih =>
    obtain ⟨r', tail', hcall, h', hsame⟩ := h.call hcap (hfair call (mem_cons_self ..))
    have hrest := ih h' (hsame ▸ hcap) (forall_mem_cons.mp hfair).2
    rw [hsame] at hrest
    simp only [MpmcRing.replies, hcall, hrest, fifoReplies, Option.map_some]

/-! ## Which capacities give a bounded queue -/

theorem nextPowerOfTwo_eq_zero (hn : 2 ^ 63 < n.toNat) : nextPowerOfTwo n = 0 := by
  apply BitVec.eq_of_toNat_eq
  have hlt := n.isLt
  have hsize : (n.toNat - 1).size = 64 := by
    refine Nat.le_antisymm (Nat.size_le.mpr (by omega)) (Nat.lt_size.mpr ?_)
    omega
  rw [toNat_nextPowerOfTwo (by omega), hsize]
  rfl

theorem two_le_capacity (hnew : MpmcRing.new n = some r) (htwo : 2 ≤ n.toNat)
    (hn : n.toNat ≤ 2 ^ 63) : 2 ≤ r.capacity.toNat := by
  have hsize : (n.toNat - 1).size ≤ 63 := Nat.size_le.mpr (by omega)
  have hone : 1 ≤ (n.toNat - 1).size := Nat.lt_size.mpr (by omega)
  have hne : n ≠ 0 := by
    rintro rfl
    cases htwo
  simp only [MpmcRing.new, if_neg hne, Option.some.injEq] at hnew
  subst hnew
  rw [toNat_nextPowerOfTwo (by omega), Nat.mod_eq_of_lt (Nat.pow_lt_pow_right (by decide) (by omega))]
  exact Nat.pow_le_pow_right Nat.two_pos hone

/-- A ring of one slot takes a second item over the first: the slot it just filled
carries the sequence number of a slot that is free for the next position. -/
theorem mpmc_ring_one_slot_overwrites :
    ∃ r : MpmcRing Nat, MpmcRing.new 1 = some r ∧ r.capacity = 1
      ∧ r.replies [.enqueue 7 [false], .enqueue 8 [false], .len]
          = some [.enqueued (.ok ()), .enqueued (.ok ()), .len 2]
      ∧ fifoReplies r.capacity.toNat [] [.enqueue 7 [false], .enqueue 8 [false], .len]
          = [.enqueued (.ok ()), .enqueued (.error 8), .len 1] := ⟨_, rfl, rfl, rfl, rfl⟩

/-- The second `enqueue` on one slot is let through. -/
theorem replies_one_slot (a : α) {r : MpmcRing α} (hnew : MpmcRing.new 1 = some r) :
    r.replies [.enqueue a [false], .enqueue a [false]]
      = some [.enqueued (.ok ()), .enqueued (.ok ())] := by
  have hone : MpmcRing.new 1 = some (⟨[⟨0, none⟩], 1, 0, 0, 0⟩ : MpmcRing α) := rfl
  cases hone.symm.trans hnew
  simp [MpmcRing.replies, MpmcRing.call, MpmcRing.enqueue, MpmcRing.enqueueLoop, MpmcRing.slotAt,
    MpmcRing.casHead, MpmcRing.writeData, MpmcRing.storeSeq, MpmcRing.modifySlot]

/-- Without slots the first access is out of bounds. -/
theorem replies_no_slot (hn : 2 ^ 63 < n.toNat) {r : MpmcRing α} (hnew : MpmcRing.new n = some r) :
    r.replies [.dequeue [false]] = none := by
  have hne : n ≠ 0 := by
    rintro rfl
    cases hn
  simp only [MpmcRing.new, if_neg hne, nextPowerOfTwo_eq_zero hn, Option.some.injEq] at hnew
  subst hnew
  rfl

/-- The ring answers every sequence of calls as a queue bounded by `capacity()` does
exactly when the requested capacity is at least two and its power of two fits the
word. -/
theorem mpmc_ring_fifo_iff [Inhabited α] {n : BitVec 64} (hn : 1 ≤ n.toNat) :
    (∀ r : MpmcRing α, MpmcRing.new n = some r →
        ∀ calls : List (RingCall α), (∀ call ∈ calls, call.Fair) →
          r.replies calls = some (fifoReplies r.capacity.toNat [] calls))
      ↔ 2 ≤ n.toNat ∧ n.toNat ≤ 2 ^ 63 := by
  constructor
  · intro hfifo
    obtain ⟨r, hnew⟩ : ∃ r : MpmcRing α, MpmcRing.new n = some r := by
      unfold MpmcRing.new
      split
      next hzero =>
        rw [hzero] at hn
        cases hn
      · exact ⟨_, rfl⟩
    refine ⟨?_, ?_⟩
    · rcases Nat.lt_or_ge n.toNat 2 with hlt | hge
      · obtain rfl : n = 1 := BitVec.eq_of_toNat_eq (Nat.le_antisymm (Nat.le_of_lt_succ hlt) hn)
        have hcalls := hfifo r hnew [.enqueue default [false], .enqueue default [false]]
          (by simp [RingCall.Fair])
        rw [replies_one_slot default hnew] at hcalls
        cases hnew
        cases hcalls
      · exact hge
    rcases Nat.lt_or_ge (2 ^ 63) n.toNat with hlt | hge
    · have hcalls := hfifo r hnew [.dequeue [false]] (by simp [RingCall.Fair])
      rw [replies_no_slot hlt hnew] at hcalls
      cases hcalls
    · exact hge
  · rintro ⟨htwo, hle⟩ r hnew calls hfair
    exact (MpmcRing.holds_new hnew hle).replies (two_le_capacity hnew htwo hle) hfair

theorem mpmc_ring_fifo_iff_three :
    1 ≤ (3 : BitVec 64).toNat
      ∧ ((∀ r : MpmcRing Nat, MpmcRing.new 3 = some r →
          ∀ calls : List (RingCall Nat), (∀ call ∈ calls, call.Fair) →
            r.replies calls = some (fifoReplies r.capacity.toNat [] calls))
        ↔ 2 ≤ (3 : BitVec 64).toNat ∧ (3 : BitVec 64).toNat ≤ 2 ^ 63) :=
  ⟨by decide, mpmc_ring_fifo_iff (by decide)⟩

end Arcbox.Datapath

import Arcbox.Foundation.Bytes

set_option autoImplicit false

/-!
# Virtio: guest memory and split queues

`GuestMemWriter` (`guest_mem.rs`) and `SplitQueue` (`split_queue.rs`) of
`arcbox-virtio-core`.  Guest memory is a byte string mapped at `gpaBase`; reads
outside it return zero and writes outside it do nothing.  Guest physical
addresses are natural numbers, so the additions of the source that stay below
`2 ^ 64` are exact.
-/

namespace Arcbox.Virtio

open Foundation List

/-! ## Guest memory -/

/-- `GuestMemWriter`. -/
structure GuestMem where
  ram : Bytes
  gpaBase : Nat
  deriving DecidableEq, Repr

namespace GuestMem

variable (mem : GuestMem) (gpa : Nat)

/-- `gpa_to_offset`. -/
def gpaToOffset (accessLen : Nat) : Option Nat :=
  if mem.gpaBase ≤ gpa ∧ gpa - mem.gpaBase + accessLen ≤ mem.ram.length then
    some (gpa - mem.gpaBase)
  else none

/-- The little-endian number in the `n` bytes at `gpa`, zero out of bounds. -/
def readLe (n : Nat) : Nat :=
  match mem.gpaToOffset gpa n with
  | some off => ((mem.ram.drop off).take n).foldr (fun b acc => b.toNat + 256 * acc) 0
  | none => 0

/-- `read_u16`. -/
def readU16 : BitVec 16 := BitVec.ofNat 16 (mem.readLe gpa 2)

/-- `read_u32`. -/
def readU32 : BitVec 32 := BitVec.ofNat 32 (mem.readLe gpa 4)

/-- `read_u64`. -/
def readU64 : BitVec 64 := BitVec.ofNat 64 (mem.readLe gpa 8)

/-- Copy bytes into the mapping, or do nothing out of bounds. -/
def write (src : Bytes) : GuestMem :=
  match mem.gpaToOffset gpa src.length with
  | some off => { mem with ram := overwrite mem.ram off src }
  | none => mem

/-- `write_u16`. -/
def writeU16 (val : BitVec 16) : GuestMem :=
  mem.write gpa [UInt8.ofNat val.toNat, UInt8.ofNat (val.toNat / 2 ^ 8)]

/-- `write_u32`. -/
def writeU32 (val : BitVec 32) : GuestMem :=
  mem.write gpa [UInt8.ofNat val.toNat, UInt8.ofNat (val.toNat / 2 ^ 8),
    UInt8.ofNat (val.toNat / 2 ^ 16), UInt8.ofNat (val.toNat / 2 ^ 24)]

/-- A range of guest memory. -/
def Mapped (len : Nat) : Prop := mem.gpaBase ≤ gpa ∧ gpa - mem.gpaBase + len ≤ mem.ram.length

instance (mem : GuestMem) (gpa len : Nat) : Decidable (mem.Mapped gpa len) :=
  inferInstanceAs (Decidable (_ ∧ _))

variable {mem : GuestMem} {gpa : Nat}

theorem gpaToOffset_of_mapped {len : Nat} (h : mem.Mapped gpa len) :
    mem.gpaToOffset gpa len = some (gpa - mem.gpaBase) := if_pos h

@[simp] theorem gpaBase_write (mem : GuestMem) (gpa : Nat) (src : Bytes) :
    (mem.write gpa src).gpaBase = mem.gpaBase := by
  simp only [write]
  split <;> rfl

@[simp] theorem length_write (mem : GuestMem) (gpa : Nat) (src : Bytes) :
    (mem.write gpa src).ram.length = mem.ram.length := by
  simp only [write, gpaToOffset]
  split
  next off hoff =>
    split at hoff
    next hmapped =>
      rw [← Option.some.inj hoff]
      exact length_overwrite hmapped.2
    · cases hoff
  · rfl

@[simp] theorem mapped_write {gpa' len : Nat} {src : Bytes} :
    (mem.write gpa src).Mapped gpa' len ↔ mem.Mapped gpa' len := by
  simp only [Mapped, gpaBase_write, length_write]

theorem readU16_write_of_disjoint {src : Bytes} (gpa' : Nat)
    (h : gpa' + 2 ≤ gpa ∨ gpa + src.length ≤ gpa') :
    (mem.write gpa src).readU16 gpa' = mem.readU16 gpa' := by
  by_cases hsrc : mem.Mapped gpa src.length
  · by_cases hread : mem.Mapped gpa' 2
    · have hread' : (mem.write gpa src).Mapped gpa' 2 := mapped_write.mpr hread
      simp only [readU16, readLe, gpaToOffset_of_mapped hread, gpaToOffset_of_mapped hread',
        gpaBase_write]
      have hram : (mem.write gpa src).ram = overwrite mem.ram (gpa - mem.gpaBase) src := by
        simp only [write, gpaToOffset_of_mapped hsrc]
      have hbytes : ((mem.write gpa src).ram.drop (gpa' - mem.gpaBase)).take 2
          = (mem.ram.drop (gpa' - mem.gpaBase)).take 2 := by
        apply ext_getElem?
        intro i
        rw [hram, List.getElem?_take, List.getElem?_take]
        split
        · rw [List.getElem?_drop, List.getElem?_drop]
          have hbase := hread.1
          have hbase' := hsrc.1
          exact getElem?_overwrite_of_outside hsrc.2 (by omega)
        · rfl
      rw [hbytes]
    · have hread' : ¬ (mem.write gpa src).Mapped gpa' 2 := fun hm => hread (mapped_write.mp hm)
      have hnone : mem.gpaToOffset gpa' 2 = none := if_neg hread
      have hnone' : (mem.write gpa src).gpaToOffset gpa' 2 = none := if_neg hread'
      simp only [readU16, readLe, hnone, hnone']
  · have hnone : mem.gpaToOffset gpa src.length = none := if_neg hsrc
    simp only [write, hnone]

theorem readU16_writeU16 (h : mem.Mapped gpa 2) (val : BitVec 16) :
    (mem.writeU16 gpa val).readU16 gpa = val := by
  have hread : (mem.writeU16 gpa val).Mapped gpa 2 := mapped_write.mpr h
  have hram : (mem.writeU16 gpa val).ram = overwrite mem.ram (gpa - mem.gpaBase)
      [UInt8.ofNat val.toNat, UInt8.ofNat (val.toNat / 2 ^ 8)] := by
    simp only [writeU16, write, length_cons, length_nil, gpaToOffset_of_mapped h]
  have hbytes : ((mem.writeU16 gpa val).ram.drop (gpa - mem.gpaBase)).take 2
      = [UInt8.ofNat val.toNat, UInt8.ofNat (val.toNat / 2 ^ 8)] := by
    obtain ⟨-, hlen⟩ := h
    rw [hram, overwrite, append_assoc, drop_left' (by rw [length_take]; omega)]
    rfl
  have hbase : (mem.writeU16 gpa val).gpaBase = mem.gpaBase := gpaBase_write _ _ _
  simp only [readU16, readLe, gpaToOffset_of_mapped hread, hbase, hbytes, List.foldr]
  apply BitVec.eq_of_toNat_eq
  have hval := val.isLt
  rw [BitVec.toNat_ofNat, UInt8.toNat_ofNat', UInt8.toNat_ofNat']
  omega

end GuestMem

/-! ## Split queues -/

/-- `VirtqDesc`. -/
structure VirtqDesc where
  addr : BitVec 64
  len : BitVec 32
  flags : BitVec 16
  next : BitVec 16
  deriving DecidableEq, Repr

/-- `VirtqDesc::is_write`. -/
def VirtqDesc.isWrite (d : VirtqDesc) : Bool := d.flags &&& 2 != 0

/-- `VirtqDesc::has_next`. -/
def VirtqDesc.hasNext (d : VirtqDesc) : Bool := d.flags &&& 1 != 0

/-- `vring_need_event`: `event_idx` lies in `(old_idx, new_idx]`, modulo `2 ^ 16`
and shifted by one. -/
def vringNeedEvent (eventIdx newIdx oldIdx : BitVec 16) : Bool :=
  decide ((newIdx - eventIdx - 1).toNat < (newIdx - oldIdx).toNat)

/-- `SplitQueue`. -/
structure SplitQueue where
  mem : GuestMem
  size : BitVec 16
  descGpa : Nat
  availGpa : Nat
  usedGpa : Nat
  lastAvailIdx : BitVec 16
  usedIdx : BitVec 16
  eventIdx : Bool
  deriving DecidableEq, Repr

namespace SplitQueue

variable (q : SplitQueue)

/-- Where `avail.idx` is. -/
def availIdxGpa : Nat := q.availGpa + 2

/-- Where `used_event` is, behind the available ring. -/
def usedEventGpa : Nat := q.availGpa + 4 + q.size.toNat * 2

/-- Where `used.idx` is. -/
def usedIdxGpa : Nat := q.usedGpa + 2

/-- Where `avail_event` is, behind the used ring. -/
def availEventGpa : Nat := q.usedGpa + 4 + q.size.toNat * 8

/-- `avail_idx`. -/
def availIdx : BitVec 16 := q.mem.readU16 q.availIdxGpa

/-- `avail_ring_entry`. -/
def availRingEntry (pos : BitVec 16) : BitVec 16 :=
  q.mem.readU16 (q.availGpa + 4 + pos.toNat % q.size.toNat * 2)

/-- `read_descriptor`. -/
def readDescriptor (idx : BitVec 16) : VirtqDesc :=
  let base := q.descGpa + idx.toNat * 16
  ⟨q.mem.readU64 base, q.mem.readU32 (base + 8), q.mem.readU16 (base + 12),
    q.mem.readU16 (base + 14)⟩

/-- `has_avail`. -/
def hasAvail : Bool := q.availIdx != q.lastAvailIdx

/-- `next_avail_head`. -/
def nextAvailHead : Option (BitVec 16 × SplitQueue) :=
  if q.availIdx = q.lastAvailIdx then none
  else some (q.availRingEntry q.lastAvailIdx, { q with lastAvailIdx := q.lastAvailIdx + 1 })

/-- `write_used_entry`. -/
def writeUsedEntry (headIdx : BitVec 16) (len : BitVec 32) : SplitQueue :=
  let off := q.usedGpa + 4 + q.usedIdx.toNat % q.size.toNat * 8
  { q with mem := (q.mem.writeU32 off (headIdx.setWidth 32)).writeU32 (off + 4) len }

/-- `should_notify`. -/
def shouldNotify (oldUsed newUsed : BitVec 16) : Bool :=
  if oldUsed = newUsed then false
  else if q.eventIdx then vringNeedEvent (q.mem.readU16 q.usedEventGpa) newUsed oldUsed
  else q.mem.readU16 q.availGpa &&& 1 == 0

/-- The store of `used.idx`. -/
def publishUsed : SplitQueue := { q with mem := q.mem.writeU16 q.usedIdxGpa q.usedIdx }

/-- `push_used`. -/
def pushUsed (headIdx : BitVec 16) (len : BitVec 32) : SplitQueue × Bool :=
  let entered := q.writeUsedEntry headIdx len
  let pushed := { entered with usedIdx := q.usedIdx + 1 }.publishUsed
  (pushed, pushed.shouldNotify q.usedIdx pushed.usedIdx)

/-- `write_avail_event`. -/
def writeAvailEvent : SplitQueue := { q with mem := q.mem.writeU16 q.availEventGpa q.lastAvailIdx }

/-- `enable_notification`. -/
def enableNotification : SplitQueue × Bool :=
  let armed := q.writeAvailEvent
  (armed, armed.hasAvail)

end SplitQueue

end Arcbox.Virtio

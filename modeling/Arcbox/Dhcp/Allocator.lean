import Mathlib.Data.Finset.Basic

set_option autoImplicit false

/-!
# DHCP: the address pool

`IpAllocator` hands out the addresses of one contiguous range, the next free one in
rotation or a given one.  The range is never empty and the rotation never leaves it.
-/

namespace Arcbox.Dhcp

/-- An IPv4 address as the `u32` the allocator works with. -/
abbrev Ipv4 := BitVec 32

structure IpAllocator where
  start : Ipv4
  /-- End of the range, inclusive. -/
  last : Ipv4
  allocated : Finset Ipv4
  next : Ipv4
  ordered : start ≤ last
  start_le_next : start ≤ next
  next_le_last : next ≤ last

namespace IpAllocator

/-- `none` is the failed assertion that the range is not empty. -/
def new (start last : Ipv4) : Option IpAllocator :=
  if h : start ≤ last then
    some ⟨start, last, ∅, start, h, BitVec.le_refl start, h⟩
  else none

variable (a : IpAllocator)

/-- Move the rotation on, back to the start from the end. -/
def advance : IpAllocator :=
  { a with
    next := if a.last ≤ a.next then a.start else a.next + 1
    start_le_next := by
      have hlow := a.start_le_next
      have hlast := a.last.isLt
      split
      · exact BitVec.le_refl _
      · bv_omega
    next_le_last := by
      have hord := a.ordered
      split
      · exact hord
      · bv_omega }

variable (ip : Ipv4)

/-- Record an address as allocated. -/
def mark : IpAllocator := { a with allocated := insert ip a.allocated }

/-- The loop of `allocate`, for the number of turns left. -/
def allocateLoop : Nat → IpAllocator → Option Ipv4 × IpAllocator
  | 0, a => (none, a)
  | n + 1, a =>
    if a.next ∈ a.allocated then allocateLoop n a.advance
    else (some a.next, (a.mark a.next).advance)

def allocate : Option Ipv4 × IpAllocator := allocateLoop (a.last.toNat - a.start.toNat + 1) a

def isAvailable : Bool := decide (a.start ≤ ip) && decide (ip ≤ a.last) && decide (ip ∉ a.allocated)

def allocateSpecific : Bool × IpAllocator :=
  if ip < a.start ∨ a.last < ip then (false, a)
  else if ip ∈ a.allocated then (false, a)
  else (true, a.mark ip)

def release : IpAllocator := { a with allocated := a.allocated.erase ip }

/-! ## What the operations do to the pool -/

theorem advance_next :
    a.advance.next = if a.last ≤ a.next then a.start else a.next + 1 := rfl

theorem isAvailable_iff :
    a.isAvailable ip = true ↔ (a.start ≤ ip ∧ ip ≤ a.last) ∧ ip ∉ a.allocated := by
  unfold isAvailable
  rw [Bool.and_eq_true, Bool.and_eq_true, decide_eq_true_iff, decide_eq_true_iff,
    decide_eq_true_iff]

theorem allocateSpecific_eq : a.allocateSpecific ip =
      if a.isAvailable ip = true then (true, a.mark ip) else (false, a) := by
  unfold allocateSpecific
  by_cases hav : a.isAvailable ip = true
  · obtain ⟨⟨hlow, hhigh⟩, hfree⟩ := (a.isAvailable_iff ip).mp hav
    rw [if_pos hav, if_neg (by bv_omega), if_neg hfree]
  rw [if_neg hav]
  split
  · rfl
  rename_i hrange
  split
  · rfl
  rename_i hfree
  refine absurd ((a.isAvailable_iff ip).mpr ⟨?_, hfree⟩) hav
  obtain ⟨hlow, hhigh⟩ := not_or.mp hrange
  exact ⟨BitVec.not_lt.mp hlow, BitVec.not_lt.mp hhigh⟩

variable {ip : Ipv4} {n : Nat}

/-- An address from the rotation was free, and is the only one that changes. -/
theorem allocateLoop_some {a : IpAllocator} (h : (allocateLoop n a).1 = some ip) :
    ip ∉ a.allocated ∧ (allocateLoop n a).2.allocated = insert ip a.allocated := by
  induction n generalizing a with
  | zero => cases h
  | succ n ih =>
    unfold allocateLoop at h ⊢
    split at h
    next htaken =>
      rw [if_pos htaken]
      exact ih h
    rename_i hfree
    rw [if_neg hfree]
    cases h
    exact ⟨hfree, rfl⟩

theorem allocateLoop_none {a : IpAllocator} (h : (allocateLoop n a).1 = none) :
    (allocateLoop n a).2.allocated = a.allocated := by
  induction n generalizing a with
  | zero => rfl
  | succ n ih =>
    unfold allocateLoop at h ⊢
    split at h
    next htaken =>
      rw [if_pos htaken]
      exact ih h
    · cases h

/-! ## The rotation reaches every address -/

/-- How many turns from `next` to `ip`. -/
def turnsTo (ip : Ipv4) : Nat :=
  if a.next ≤ ip then ip.toNat - a.next.toNat
  else ip.toNat - a.start.toNat + (a.last.toNat - a.next.toNat + 1)

variable {a}

theorem turnsTo_advance (hlow : a.start ≤ ip) (hhigh : ip ≤ a.last) (hne : ip ≠ a.next) :
    a.advance.turnsTo ip + 1 = a.turnsTo ip := by
  have hslow := a.start_le_next
  have hshigh := a.next_le_last
  have hlast := a.last.isLt
  unfold turnsTo
  rw [advance_next]
  change (if _ ≤ ip then _ else ip.toNat - a.start.toNat + (a.last.toNat - _ + 1)) + 1 = _
  by_cases hwrap : a.last ≤ a.next
  · have hnot : ¬ a.next ≤ ip := by bv_omega
    rw [if_pos hwrap, if_pos hlow, if_neg hnot]
    bv_omega
  rw [if_neg hwrap]
  by_cases hle : a.next ≤ ip
  · have hle' : a.next + 1 ≤ ip := by bv_omega
    rw [if_pos hle, if_pos hle']
    bv_omega
  · have hle' : ¬ a.next + 1 ≤ ip := by bv_omega
    rw [if_neg hle, if_neg hle']
    bv_omega

theorem allocateLoop_none_taken (h : (allocateLoop n a).1 = none) (hlow : a.start ≤ ip)
    (hhigh : ip ≤ a.last) (hturns : a.turnsTo ip < n) : ip ∈ a.allocated := by
  induction n generalizing a with
  | zero => exact absurd hturns (Nat.not_lt_zero _)
  | succ n ih =>
    unfold allocateLoop at h
    split at h
    next htaken =>
      by_cases heq : ip = a.next
      · rw [heq]
        exact htaken
      · have hstep := turnsTo_advance hlow hhigh heq
        exact ih (a := a.advance) h hlow hhigh (by omega)
    · cases h

/-- The pool is exhausted only when every address of the range is allocated. -/
theorem allocated_of_allocate_none (h : a.allocate.1 = none) (hlow : a.start ≤ ip)
    (hhigh : ip ≤ a.last) : ip ∈ a.allocated := by
  refine allocateLoop_none_taken h hlow hhigh ?_
  have hslow := a.start_le_next
  have hshigh := a.next_le_last
  unfold turnsTo
  split <;> bv_omega

end IpAllocator

end Arcbox.Dhcp

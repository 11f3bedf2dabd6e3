import Mathlib.Algebra.Group.Nat.Defs

set_option autoImplicit false

/-!
# Serial numbers: wrapping counters over unbounded positions

A protocol counts positions of an unbounded stream but keeps only the low `w`
bits of each position.  `seqAt base k` is the `w`-bit number of position `k` of
a stream whose position `0` carries the number `base`.  The lemmas below say
when a wrapped difference still determines the difference of the positions: it
does whenever the two positions are less than `2 ^ w` apart, and its sign can be
read off the top bit whenever they are less than half of that apart.
-/

namespace Arcbox.Foundation.Serial

variable {w : Nat}

/-- The `w`-bit number of stream position `k`, position `0` being `base`. -/
def seqAt (base : BitVec w) (k : Nat) : BitVec w := base + BitVec.ofNat w k

variable (base : BitVec w)

@[simp] theorem seqAt_zero : seqAt base 0 = base := by
  simp [seqAt]

theorem seqAt_add (k n : Nat) : seqAt base k + BitVec.ofNat w n = seqAt base (k + n) := by
  simp [seqAt, BitVec.ofNat_add, BitVec.add_assoc]

theorem seqAt_succ (k : Nat) : seqAt base (k + 1) = seqAt base k + 1 := (seqAt_add base k 1).symm

variable {j k : Nat}

theorem sub_seqAt_of_le (h : j ≤ k) : seqAt base k - seqAt base j = BitVec.ofNat w (k - j) := by
  obtain ⟨d, rfl⟩ := Nat.exists_eq_add_of_le h
  rw [← seqAt_add, Nat.add_sub_cancel_left, BitVec.add_comm, BitVec.add_sub_cancel]

theorem toNat_sub_mod (h : j ≤ k) : (seqAt base k - seqAt base j).toNat = (k - j) % 2 ^ w := by
  rw [sub_seqAt_of_le base h, BitVec.toNat_ofNat]

theorem toNat_sub_of_le (h : j ≤ k) (hlt : k - j < 2 ^ w) :
    (seqAt base k - seqAt base j).toNat = k - j := by
  rw [sub_seqAt_of_le base h, BitVec.toNat_ofNat, Nat.mod_eq_of_lt hlt]

/-- The wrapped difference of two positions in the wrong order is the
complement of their distance. -/
theorem toNat_sub_of_lt (h : k < j) (hlt : j - k < 2 ^ w) :
    (seqAt base k - seqAt base j).toNat = 2 ^ w - (j - k) := by
  have hswap : seqAt base k - seqAt base j = -(seqAt base j - seqAt base k) := by
    rw [BitVec.neg_sub, BitVec.sub_eq_add_neg, BitVec.add_comm]
  rw [hswap, BitVec.toNat_neg, toNat_sub_of_le base (Nat.le_of_lt h) hlt]
  exact Nat.mod_eq_of_lt (by omega)

/-- Which of two positions less than half a wrap apart comes first is the top bit
of the wrapped difference. -/
theorem half_le_toNat_sub_iff (hjk : j - k < 2 ^ (w - 1)) (hkj : k - j < 2 ^ (w - 1)) :
    2 ^ (w - 1) ≤ (seqAt base k - seqAt base j).toNat ↔ k < j := by
  have hw : 2 ^ (w - 1) ≤ 2 ^ w := Nat.pow_le_pow_right (by decide) (Nat.sub_le _ _)
  have hdouble : 0 < w → 2 ^ w = 2 ^ (w - 1) + 2 ^ (w - 1) := by
    intro hpos
    obtain ⟨v, rfl⟩ := Nat.exists_eq_succ_of_ne_zero (Nat.pos_iff_ne_zero.mp hpos)
    rw [Nat.succ_sub_one, Nat.pow_succ, Nat.mul_two]
  rcases Nat.lt_or_ge k j with h | h
  · rw [toNat_sub_of_lt base h (by omega)]
    rcases Nat.eq_zero_or_pos w with rfl | hpos
    · simp only [Nat.zero_sub, Nat.pow_zero] at hjk
      omega
    · have := hdouble hpos
      omega
  · rw [toNat_sub_of_le base h (by omega)]
    omega

/-- Read as a signed number, the wrapped difference of two positions less than
half a wrap apart is the difference of the positions. -/
theorem toInt_sub_seqAt (hjk : j - k < 2 ^ (w - 1)) (hkj : k - j < 2 ^ (w - 1)) :
    (seqAt base k - seqAt base j).toInt = (k : Int) - j := by
  have hpos : 0 < w ∨ w = 0 := by omega
  rcases hpos with hpos | rfl
  · obtain ⟨v, rfl⟩ := Nat.exists_eq_succ_of_ne_zero (Nat.pos_iff_ne_zero.mp hpos)
    rw [Nat.succ_sub_one] at hjk hkj
    have hdouble : 2 ^ (v + 1) = 2 ^ v + 2 ^ v := by rw [Nat.pow_succ, Nat.mul_two]
    rw [BitVec.toInt_eq_toNat_cond]
    rcases Nat.lt_or_ge k j with h | h
    · rw [toNat_sub_of_lt base h (by omega), hdouble]
      split <;> omega
    · rw [toNat_sub_of_le base h (by omega), hdouble]
      split <;> omega
  simp only [Nat.zero_sub, Nat.pow_zero] at hjk hkj
  have heq : k = j := by omega
  subst heq
  simp

/-- Equal numbers name equal positions, unless the positions are at least a full
wrap apart. -/
theorem seqAt_inj (hjk : j - k < 2 ^ w) (hkj : k - j < 2 ^ w) :
    seqAt base k = seqAt base j ↔ k = j := by
  constructor
  · intro heq
    have hzero : (seqAt base k - seqAt base j).toNat = 0 := by rw [heq]; simp
    rcases Nat.lt_or_ge k j with h | h
    · rw [toNat_sub_of_lt base h hjk] at hzero
      omega
    · rw [toNat_sub_of_le base h hkj] at hzero
      omega
  · rintro rfl
    rfl

theorem exists_seqAt (x : BitVec w) (k : Nat) : ∃ d, d < 2 ^ w ∧ x = seqAt base (k + d) := by
  refine ⟨(x - seqAt base k).toNat, (x - seqAt base k).isLt, ?_⟩
  rw [← seqAt_add, BitVec.ofNat_toNat, BitVec.setWidth_eq, BitVec.add_comm, BitVec.sub_add_cancel]

end Arcbox.Foundation.Serial

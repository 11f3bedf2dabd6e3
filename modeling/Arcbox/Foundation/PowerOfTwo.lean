import Mathlib.Algebra.Group.Nat.Defs
import Mathlib.Data.Nat.Size

set_option autoImplicit false

/-!
# Powers of two by shifting, and masks as remainders

Rounding a word up to a power of two is done by spreading each set bit over all
lower positions.  `Smeared n x s` says that `x` is `n` with each bit spread over
the `s` positions ending at its own; shifting by `s` doubles the spread, and a
word spread over its whole width is one less than a power of two.
-/

namespace Arcbox.Foundation

open BitVec

variable {w : Nat}

/-- Bit `i` of `x` is set exactly when one of the `s` bits of `n` from `i` on is. -/
def Smeared (n x : BitVec w) (s : Nat) : Prop :=
  ∀ i, x.getLsbD i = true ↔ ∃ j, i ≤ j ∧ j < i + s ∧ n.getLsbD j = true

theorem smeared_self (n : BitVec w) : Smeared n n 1 := by
  intro i
  constructor
  · intro h
    exact ⟨i, Nat.le_refl i, Nat.lt_succ_self i, h⟩
  · rintro ⟨j, hij, hji, h⟩
    obtain rfl : j = i := by omega
    exact h

theorem Smeared.double {n x : BitVec w} {s : Nat} (h : Smeared n x s) :
    Smeared n (x ||| x >>> s) (s + s) := by
  intro i
  rw [getLsbD_or, getLsbD_ushiftRight, Bool.or_eq_true, h i, h (s + i)]
  constructor
  · rintro (⟨j, hij, hji, hj⟩ | ⟨j, hij, hji, hj⟩)
    · exact ⟨j, hij, by omega, hj⟩
    · exact ⟨j, by omega, by omega, hj⟩
  rintro ⟨j, hij, hji, hj⟩
  rcases Nat.lt_or_ge j (i + s) with hlt | hge
  · exact .inl ⟨j, hij, hlt, hj⟩
  · exact .inr ⟨j, by omega, by omega, hj⟩

theorem Smeared.toNat_eq {n x : BitVec w} (h : Smeared n x w) : x.toNat = 2 ^ n.toNat.size - 1 := by
  apply Nat.eq_of_testBit_eq
  intro i
  rw [Nat.testBit_two_pow_sub_one, Bool.eq_iff_iff, decide_eq_true_eq, Nat.lt_size,
    testBit_toNat, h i]
  constructor
  · rintro ⟨j, hij, -, hj⟩
    rw [← testBit_toNat] at hj
    exact Nat.le_trans (Nat.pow_le_pow_right Nat.two_pos hij) (Nat.ge_two_pow_of_testBit hj)
  intro hle
  obtain ⟨j, hij, hj⟩ := Nat.exists_ge_and_testBit_of_ge_two_pow hle
  rw [testBit_toNat] at hj
  have hjw : j < w := lt_of_getLsbD hj
  exact ⟨j, hij, by omega, hj⟩

theorem toNat_and_sub_one {x c : BitVec w} {k : Nat} (hc : c.toNat = 2 ^ k) :
    (x &&& c - 1).toNat = x.toNat % c.toNat := by
  have hmask : (c - 1).toNat = 2 ^ k - 1 := by
    have hpos : 0 < c.toNat := by rw [hc]; exact Nat.two_pow_pos k
    have hlt := c.isLt
    have hwide : 1 < 2 ^ w := by omega
    have hone : (1 : BitVec w).toNat = 1 := by
      rw [ofNat_eq_ofNat, toNat_ofNat, Nat.mod_eq_of_lt hwide]
    rw [toNat_sub, hone, ← hc]
    rw [show 2 ^ w - 1 + c.toNat = (c.toNat - 1) + 2 ^ w by omega, Nat.add_mod_right]
    exact Nat.mod_eq_of_lt (by omega)
  rw [toNat_and, hmask, Nat.and_two_pow_sub_one_eq_mod, hc]

/-- Two positions less than a lap apart that share a slot are the same. -/
theorem eq_of_mod_eq_of_lt {c p q : Nat} (hmod : p % c = q % c) (hle : p ≤ q) (hlt : q < p + c) :
    p = q := by
  have hzero : (q - p) % c = 0 := Nat.sub_mod_eq_zero_of_mod_eq hmod.symm
  rw [Nat.mod_eq_of_lt (by omega)] at hzero
  omega

theorem eq_of_mod_eq_of_near {c p q : Nat} (hmod : p % c = q % c) (hpq : p < q + c)
    (hqp : q < p + c) : p = q := by
  rcases Nat.le_total p q with hle | hle
  · exact eq_of_mod_eq_of_lt hmod hle hqp
  · exact (eq_of_mod_eq_of_lt hmod.symm hle hpq).symm

end Arcbox.Foundation

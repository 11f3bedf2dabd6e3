import Arcbox.Foundation.Bytes

set_option autoImplicit false

/-!
# Ones'-complement sums

The Internet checksum adds 16-bit words and folds the carries back in.  The
fold is computed here as the loop that carries it out, and described by a closed
form: a positive sum folds to its residue modulo `65535`, taken in `1 .. 65535`.
Everything about checksums then is arithmetic modulo `65535`.
-/

namespace Arcbox.Foundation.OnesComplement

open Foundation

variable (sum : Nat)

/-- One turn of the end-around carry: the low word plus the carries. -/
theorem carry_eq : (sum &&& 0xFFFF) + (sum >>> 16) = sum % 65536 + sum / 65536 := by
  rw [Nat.shiftRight_eq_div_pow, show (0xFFFF : Nat) = 2 ^ 16 - 1 by rfl,
    Nat.and_two_pow_sub_one_eq_mod]

/-- `while sum > 0xFFFF { sum = (sum & 0xFFFF) + (sum >> 16) }`. -/
def fold (sum : Nat) : Nat := if 0xFFFF < sum then fold ((sum &&& 0xFFFF) + (sum >>> 16)) else sum
termination_by sum
decreasing_by rw [carry_eq]; omega

/-- A positive sum folds to its residue modulo `65535` in `1 .. 65535`. -/
theorem fold_eq : fold sum = if sum = 0 then 0 else (sum - 1) % 65535 + 1 := by
  induction sum using Nat.strongRecOn with
  | ind sum ih =>
    rw [fold]
    by_cases hbig : 0xFFFF < sum
    · rw [if_pos hbig, carry_eq, ih _ (by omega), if_neg (by omega), if_neg (by omega)]
      omega
    · rw [if_neg hbig]
      split <;> omega

theorem fold_le : fold sum ≤ 65535 := by
  rw [fold_eq]
  split <;> omega

/-- The ones' complement of a 16-bit word. -/
def complement (x : Nat) : Nat := 0xFFFF - x

theorem complement_inj {x y : Nat} (hx : x ≤ 65535) (hy : y ≤ 65535) :
    complement x = complement y ↔ x = y := by
  simp only [complement]
  omega

theorem fold_add_complement : fold (sum + complement (fold sum)) = 0xFFFF := by
  rw [fold_eq (sum + _), complement, fold_eq sum]
  split <;> split <;> omega

theorem fold_eq_fold_iff {a b : Nat} (ha : 0 < a) (hb : 0 < b) :
    fold a = fold b ↔ a % 65535 = b % 65535 := by
  rw [fold_eq a, fold_eq b, if_neg (by omega), if_neg (by omega)]
  omega

/-- Modulo `65535`, adding a residue or its negation comes to the same only for the
zero residue. -/
private theorem add_neg_mod_iff {s r : Nat} (hs : s < 65535) (hr : r < 65535) :
    (s + (65534 - r)) % 65535 = (r + 1 + s) % 65535 ↔ r = 65534 := by
  have hneg : (s + (65534 - r)) % 65535 = if s ≤ r then s + (65534 - r) else s - r - 1 := by
    split <;> omega
  have hpos : (r + 1 + s) % 65535 = if r + s < 65534 then r + 1 + s else r + s - 65534 := by
    split <;> omega
  rw [hneg, hpos]
  split <;> split <;> omega

/-- Adding the complement of a folded sum in place of the sum leads to the same
checksum exactly when the sum is a multiple of `65535`. -/
theorem complement_fold_eq_iff {base sum : Nat} (hbase : 0 < base) (hsum : 0 < sum) :
    complement (fold (sum + complement (fold base))) = complement (fold (base + sum))
      ↔ 65535 ∣ base := by
  have hs : sum % 65535 < 65535 := Nat.mod_lt _ (by decide)
  have hr : (base - 1) % 65535 < 65535 := Nat.mod_lt _ (by decide)
  have hneg : (sum + (0xFFFF - ((base - 1) % 65535 + 1))) % 65535
      = (sum % 65535 + (65534 - (base - 1) % 65535)) % 65535 := by omega
  have hpos : (base + sum) % 65535 = ((base - 1) % 65535 + 1 + sum % 65535) % 65535 := by omega
  rw [complement_inj (fold_le _) (fold_le _), fold_eq_fold_iff (by omega) (by omega), complement,
    fold_eq base, if_neg (by omega), hneg, hpos, add_neg_mod_iff hs hr]
  omega

/-! ## Word sums -/

/-- The sum of the big-endian 16-bit words of a byte string, an odd last byte
being the high byte of a word. -/
def wordSum : Bytes → Nat
  | hi :: lo :: rest => (hi.toNat * 256 + lo.toNat) + wordSum rest
  | [hi] => hi.toNat * 256
  | [] => 0

@[simp] theorem wordSum_nil : wordSum [] = 0 := rfl

@[simp] theorem wordSum_cons_cons (hi lo : UInt8) (rest : Bytes) :
    wordSum (hi :: lo :: rest) = (hi.toNat * 256 + lo.toNat) + wordSum rest := rfl

theorem wordSum_append : ∀ (xs ys : Bytes), xs.length % 2 = 0 →
    wordSum (xs ++ ys) = wordSum xs + wordSum ys
  | [], ys, _ => by simp
  | [x], ys, h => by simp at h
  | x :: x' :: xs, ys, h => by
    have hlen : xs.length % 2 = 0 := by simp only [List.length_cons] at h; omega
    simp only [List.cons_append, wordSum_cons_cons, wordSum_append xs ys hlen]
    omega

theorem wordSum_le : ∀ xs : Bytes, wordSum xs ≤ 65535 * ((xs.length + 1) / 2)
  | [] => by simp
  | [x] => by
    have := x.toNat_lt
    simp only [wordSum, List.length_singleton]
    omega
  | x :: x' :: xs => by
    have hx := x.toNat_lt
    have hx' := x'.toNat_lt
    have ih := wordSum_le xs
    simp only [wordSum_cons_cons, List.length_cons]
    omega

@[simp] theorem wordSum_beBytes16 (x : BitVec 16) : wordSum (beBytes16 x) = x.toNat := by
  have hx := x.isLt
  simp only [beBytes16, wordSum_cons_cons, wordSum_nil, UInt8.toNat_ofNat']
  omega

end Arcbox.Foundation.OnesComplement

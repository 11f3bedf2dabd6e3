import Mathlib.Algebra.GroupWithZero.Nat

set_option autoImplicit false

/-!
# Chunks of a list

Splitting a list into consecutive pieces of a fixed length, the last one holding
the rest.  Each piece carries the offset it starts at.
-/

namespace Arcbox.Foundation

open List

variable {α : Type}

/-- The consecutive pieces of `data` of length `n`, each with its offset. -/
def chunks (n : Nat) (data : List α) : List (Nat × List α) :=
  (List.range ((data.length + n - 1) / n)).map fun i => (i * n, (data.drop (i * n)).take n)

theorem length_chunks (n : Nat) (data : List α) :
    (chunks n data).length = (data.length + n - 1) / n := by
  rw [chunks, length_map, length_range]

variable {n : Nat} {data : List α}

/-- There is a piece for every multiple of `n` inside the list. -/
theorem lt_length_chunks_iff (hn : 0 < n) {i : Nat} :
    i < (chunks n data).length ↔ i * n < data.length := by
  rw [length_chunks, Nat.lt_iff_add_one_le, Nat.le_div_iff_mul_le hn, Nat.succ_mul]
  omega

/-- The pieces are exactly the runs of at most `n` elements at the multiples of
`n` inside the list. -/
theorem mem_chunks_iff (hn : 0 < n) {piece : Nat × List α} :
    piece ∈ chunks n data ↔
      ∃ i, i * n < data.length ∧ piece = (i * n, (data.drop (i * n)).take n) := by
  simp only [← lt_length_chunks_iff hn, length_chunks]
  simp only [chunks, mem_map, mem_range]
  constructor
  · rintro ⟨i, hi, rfl⟩
    exact ⟨i, hi, rfl⟩
  · rintro ⟨i, hi, rfl⟩
    exact ⟨i, hi, rfl⟩

theorem getElem?_chunks {i : Nat} (h : i < (chunks n data).length) :
    (chunks n data)[i]? = some (i * n, (data.drop (i * n)).take n) := by
  rw [length_chunks] at h
  rw [chunks, List.getElem?_map, List.getElem?_range h, Option.map_some]

theorem flatten_take_chunks {k : Nat} (h : k ≤ (chunks n data).length) :
    (((chunks n data).map Prod.snd).take k).flatten = data.take (k * n) := by
  induction k with
  | zero => simp
  | succ k ih =>
    have hk := getElem?_chunks (show k < (chunks n data).length from h)
    rw [take_add_one, List.getElem?_map, hk, flatten_append, ih (Nat.le_of_succ_le h),
      Nat.succ_mul, take_add]
    simp

theorem flatten_chunks (hn : 0 < n) (data : List α) :
    ((chunks n data).map Prod.snd).flatten = data := by
  have hall := @flatten_take_chunks α n data (chunks n data).length (Nat.le_refl _)
  have hcover : data.length ≤ (chunks n data).length * n := by
    rw [length_chunks]
    have := Nat.lt_div_mul_add hn (a := data.length + n - 1)
    omega
  rw [take_of_length_le (by simp), take_of_length_le hcover] at hall
  exact hall

theorem take_length_take (l : List α) (n : Nat) : l.take n = l.take (l.take n).length := by
  rw [length_take, ← take_eq_take_min]

end Arcbox.Foundation

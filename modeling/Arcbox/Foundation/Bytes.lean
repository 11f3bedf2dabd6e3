import Mathlib.Algebra.Group.Nat.Defs

set_option autoImplicit false

/-!
# Byte strings: fields and in-place writes

Network code reads and writes fixed-width big-endian fields and copies slices
into buffers.  Both are fixed here once: the field encodings with their round
trips, and `overwrite`, the effect of copying a slice over part of a buffer.  At the
end are encodings that can be told from what follows them.
-/

namespace Arcbox.Foundation

open List

/-- A byte string. -/
abbrev Bytes := List UInt8

/-- The two-byte big-endian field with the given bytes. -/
def be16 (hi lo : UInt8) : BitVec 16 := BitVec.ofNat 16 (hi.toNat * 256 + lo.toNat)

/-- The big-endian encoding of a 16-bit field. -/
def beBytes16 (x : BitVec 16) : Bytes := [UInt8.ofNat (x.toNat / 256), UInt8.ofNat x.toNat]

/-- The big-endian encoding of a 32-bit field. -/
def beBytes32 (x : BitVec 32) : Bytes :=
  [UInt8.ofNat (x.toNat / 2 ^ 24), UInt8.ofNat (x.toNat / 2 ^ 16),
    UInt8.ofNat (x.toNat / 2 ^ 8), UInt8.ofNat x.toNat]

@[simp] theorem length_beBytes16 (x : BitVec 16) : (beBytes16 x).length = 2 := rfl

theorem toNat_be16 (hi lo : UInt8) : (be16 hi lo).toNat = hi.toNat * 256 + lo.toNat := by
  have hhi := hi.toNat_lt
  have hlo := lo.toNat_lt
  rw [be16, BitVec.toNat_ofNat, Nat.mod_eq_of_lt (by omega)]

theorem be16_beBytes16 (x : BitVec 16) :
    be16 (UInt8.ofNat (x.toNat / 256)) (UInt8.ofNat x.toNat) = x := by
  apply BitVec.eq_of_toNat_eq
  have hx := x.isLt
  rw [toNat_be16, UInt8.toNat_ofNat', UInt8.toNat_ofNat']
  omega

/-! ## In-place writes -/

/-- The buffer `buf` after `src` was copied over it from offset `off` on. -/
def overwrite {α : Type} (buf : List α) (off : Nat) (src : List α) : List α :=
  buf.take off ++ src ++ buf.drop (off + src.length)

section Overwrite

variable {α : Type} {buf src : List α} {off : Nat}

theorem overwrite_append {pre old post : List α} (hpre : pre.length = off)
    (hlen : old.length = src.length) :
    overwrite (pre ++ old ++ post) off src = pre ++ src ++ post := by
  have hdrop : (pre ++ old ++ post).drop (off + src.length) = post :=
    drop_left' (by rw [length_append, hpre, hlen])
  rw [overwrite, hdrop, append_assoc pre, take_left' hpre]

theorem overwrite_append_left {buf' : List α} (h : off + src.length ≤ buf.length) :
    overwrite (buf ++ buf') off src = overwrite buf off src ++ buf' := by
  rw [overwrite, overwrite, take_append_of_le_length (by omega),
    drop_append_of_le_length h, append_assoc, append_assoc, append_assoc]

/-- Of two writes of one length to one place the second counts. -/
theorem overwrite_overwrite {src' : List α} (hlen : src.length = src'.length)
    (h : off ≤ buf.length) :
    overwrite (overwrite buf off src) off src' = overwrite buf off src' := by
  have hpre : (buf.take off).length = off := by rw [length_take, Nat.min_eq_left h]
  show overwrite (buf.take off ++ src ++ buf.drop (off + src.length)) off src' = _
  rw [overwrite_append hpre hlen, overwrite, hlen]

section

variable (h : off + src.length ≤ buf.length)

include h

theorem length_overwrite : (overwrite buf off src).length = buf.length := by
  simp only [overwrite, length_append, length_take, length_drop]
  omega

theorem getElem?_overwrite_of_outside {i : Nat} (hi : i < off ∨ off + src.length ≤ i) :
    (overwrite buf off src)[i]? = buf[i]? := by
  have hoff : off ≤ buf.length := by omega
  rcases hi with hi | hi
  · rw [overwrite, append_assoc, List.getElem?_append_left (by simp; omega),
      List.getElem?_take_of_lt hi]
  rw [overwrite, List.getElem?_append_right (by simp; omega), List.getElem?_drop]
  congr 1
  simp only [length_append, length_take]
  omega

theorem getElem?_overwrite_inside {i : Nat} (hlo : off ≤ i) (hhi : i < off + src.length) :
    (overwrite buf off src)[i]? = src[i - off]? := by
  have hlen : (buf.take off).length = off := by simp; omega
  rw [overwrite, append_assoc, List.getElem?_append_right (by omega), hlen,
    List.getElem?_append_left (by omega)]

theorem slice_overwrite : ((overwrite buf off src).take (off + src.length)).drop off = src := by
  have hpre : (buf.take off).length = off := by rw [length_take, Nat.min_eq_left (by omega)]
  rw [overwrite, take_left' (by rw [length_append, hpre]), drop_left' hpre]

end

end Overwrite

theorem overwrite_beBytes16 {pre post : Bytes} {off : Nat} (hpre : pre.length = off)
    (x y : BitVec 16) :
    overwrite (pre ++ beBytes16 x ++ post) off (beBytes16 y) = pre ++ beBytes16 y ++ post :=
  overwrite_append hpre (by rw [length_beBytes16, length_beBytes16])

theorem slice_congr {α : Type} {l l' : List α} {start stop : Nat}
    (h : ∀ i, start ≤ i → i < stop → l[i]? = l'[i]?) :
    (l.take stop).drop start = (l'.take stop).drop start := by
  refine ext_getElem? fun j => ?_
  rw [List.getElem?_drop, List.getElem?_drop, List.getElem?_take, List.getElem?_take]
  split
  · exact h _ (Nat.le_add_right _ _) ‹_›
  · rfl

/-! ## Encodings that end by themselves -/

/-- What `f` writes can be read back from whatever it is followed by. -/
def PrefixFree {α : Type} (f : α → Bytes) : Prop :=
  ∀ ⦃a b xs ys⦄, f a ++ xs = f b ++ ys → a = b ∧ xs = ys

theorem PrefixFree.flatMap {α : Type} {f : α → Bytes} (hf : PrefixFree f) {as bs : List α}
    {xs ys : Bytes} (h : as.flatMap f ++ xs = bs.flatMap f ++ ys)
    (hlen : as.length = bs.length) : as = bs ∧ xs = ys := by
  induction as generalizing bs with
  | nil =>
    cases bs with
    | nil => exact ⟨rfl, h⟩
    | cons b bs => cases hlen
  | cons a as ih =>
    cases bs with
    | nil => cases hlen
    | cons b bs =>
      simp only [flatMap_cons, append_assoc] at h
      obtain ⟨rfl, hrest⟩ := hf h
      obtain ⟨rfl, hxs⟩ := ih hrest (Nat.succ.inj hlen)
      exact ⟨rfl, hxs⟩

/-- The little-endian encoding of a 64-bit field. -/
def leBytes64 (x : BitVec 64) : Bytes :=
  (range 8).map fun i => UInt8.ofNat (x.toNat / 256 ^ i)

theorem prefixFree_leBytes64 : PrefixFree leBytes64 := by
  intro x y xs ys h
  obtain ⟨hbytes, hxs⟩ := append_inj h rfl
  refine ⟨BitVec.eq_of_toNat_eq ?_, hxs⟩
  have hx := x.isLt
  have hy := y.isLt
  simp only [leBytes64, range_succ, range_zero, nil_append, cons_append, map_cons, map_nil,
    cons.injEq, and_true, ← UInt8.toNat_inj, UInt8.toNat_ofNat'] at hbytes
  omega

end Arcbox.Foundation

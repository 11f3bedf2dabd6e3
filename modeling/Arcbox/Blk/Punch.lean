import Mathlib.Order.Interval.Set.LinearOrder
import Arcbox.Foundation.Bytes

set_option autoImplicit false

/-!
# Block worker: zeroing and discarding against a host that may refuse

`zero_range` with every answer its system calls can give: the hole punch may fail, and each
`pwrite` may fail, take nothing or take a part.  Whatever happens, only the named range changes.
A discard punches the aligned interior of each range that its payload names; a hole that the host
does not punch stays allocated.  Descriptor chains and logging are left out.
-/

namespace Arcbox.Blk

open Foundation List Set

/-! ## The calls -/

/-- The loop of `zero_pwrite` with `left` bytes to go, over the answers of `pwrite`: an error, or
the number of bytes taken.  Nothing taken is an error too. -/
def zeroLoop : List (Option Nat) → Bytes → Nat → Nat → Bool × Bytes
  | _, file, _, 0 => (true, file)
  | some (n + 1) :: answers, file, off, left + 1 =>
    let taken := min (n + 1) (left + 1)
    zeroLoop answers (overwrite file off (replicate taken 0)) (off + taken) (left + 1 - taken)
  | _, file, _, _ => (false, file)

/-- `zero_pwrite`: an empty range takes no call. -/
def zeroPwrite (answers : List (Option Nat)) (file : Bytes) (start stop : Nat) : Bool × Bytes :=
  if stop ≤ start then (true, file) else zeroLoop answers file start (stop - start)

/-- `?` between two calls. -/
def andThen (z : Bool × Bytes) (next : Bytes → Bool × Bytes) : Bool × Bytes :=
  if z.1 then next z.2 else z

/-- `block_aligned_interior` with the saturating addition of `u64`. -/
def blockAlignedInterior (start stop : Nat) : Option (Nat × Nat) :=
  let alignedStart := min (start + 4095) (2 ^ 64 - 1) / 4096 * 4096
  let alignedStop := stop / 4096 * 4096
  if alignedStart < alignedStop then some (alignedStart, alignedStop) else none

/-- `zero_range`, given whether the host punches the hole and the answers to the `pwrite` calls for
the interior or the whole range, the head and the tail. -/
def zeroRange (punched : Bool) (interior head tail : List (Option Nat)) (file : Bytes)
    (start stop : Nat) : Bool × Bytes :=
  if stop ≤ start then (true, file)
  else
    match blockAlignedInterior start stop with
    | none => zeroPwrite interior file start stop
    | some (alignedStart, alignedStop) =>
      andThen
        (andThen
          (if punched then
            (true, overwrite file alignedStart (replicate (alignedStop - alignedStart) 0))
          else zeroPwrite interior file alignedStart alignedStop)
          fun file => zeroPwrite head file start alignedStart)
        fun file => zeroPwrite tail file alignedStop stop

/-! ## Discard requests -/

/-- The device's geometry, of `BlkWorkerContext`. -/
structure BlkWorkerContext where
  blkSize : BitVec 32
  capacitySectors : BitVec 64

/-- The little-endian number of some bytes. -/
def leNat (bytes : Bytes) : Nat := bytes.foldr (fun b acc => b.toNat + 256 * acc) 0

/-- One entry of a range list: sector, number of sectors and flags. -/
structure DiscardWriteZeroesRange where
  sector : Nat
  numSectors : Nat
  flags : BitVec 32

/-- The first `k` entries of a range list, sixteen bytes each. -/
def rangeEntries : Nat → Bytes → List DiscardWriteZeroesRange
  | 0, _ => []
  | k + 1, bytes =>
    ⟨leNat (bytes.take 8), leNat ((bytes.drop 8).take 4),
      BitVec.ofNat 32 (leNat ((bytes.drop 12).take 4))⟩ :: rangeEntries k (bytes.drop 16)

/-- `parse_range_list`: whole entries, at least one. -/
def parseRangeList (bytes : Bytes) : Option (List DiscardWriteZeroesRange) :=
  if bytes = [] ∨ bytes.length % 16 ≠ 0 then none else some (rangeEntries (bytes.length / 16) bytes)

section

variable (ctx : BlkWorkerContext)

/-- `checked_byte_range`: within the capacity, and no product or sum overflows. -/
def checkedByteRange (r : DiscardWriteZeroesRange) : Option (Nat × Nat) :=
  let block := ctx.blkSize.toNat
  if 2 ^ 64 ≤ r.sector + r.numSectors ∨ ctx.capacitySectors.toNat < r.sector + r.numSectors ∨
      2 ^ 64 ≤ r.sector * block ∨ 2 ^ 64 ≤ r.numSectors * block ∨
      2 ^ 64 ≤ r.sector * block + r.numSectors * block then none
  else some (r.sector * block, r.sector * block + r.numSectors * block)

/-- `MAX_DISCARD_SECTORS`. -/
def maxDiscardSectors : Nat := 32768

/-- The byte ranges of a payload, all of them valid: no flag, and not above the maximum. -/
def discardByteRanges (payload : Bytes) : Option (List (Nat × Nat)) :=
  (parseRangeList payload).bind fun ranges =>
    ranges.mapM fun r =>
      if r.flags ≠ 0 ∨ maxDiscardSectors < r.numSectors then none else checkedByteRange ctx r

/-- `punch_discard_ranges`, given which holes the host punches: the status, the holes asked for
and the file.  Zeros inside a hole; the file keeps its size. -/
def punchDiscardRanges (punches : Nat × Nat → Bool) (file payload : Bytes) :
    UInt8 × List (Nat × Nat) × Bytes :=
  match discardByteRanges ctx payload with
  | none => (1, [], file)
  | some ranges =>
    let holes := ranges.filterMap fun r => blockAlignedInterior r.1 r.2
    (0, holes, holes.foldl (fun file hole =>
      if punches hole then overwrite file hole.1 (replicate (hole.2 - hole.1) 0) else file) file)

end

/-! ## What a call leaves -/

/-- Only bytes at `places` have changed, and after a success they are zeros. -/
structure Zeroes (places : Set Nat) (file : Bytes) (z : Bool × Bytes) : Prop where
  length : z.2.length = file.length
  frame : ∀ i ∉ places, z.2[i]? = file[i]?
  zero : z.1 = true → ∀ i ∈ places, z.2[i]? = some 0

section

variable {file : Bytes} {places places' : Set Nat} {z : Bool × Bytes}

theorem zeroes_nothing (file : Bytes) : Zeroes ∅ file (true, file) :=
  ⟨rfl, fun _ _ => rfl, fun _ _ hi => absurd hi (notMem_empty _)⟩

/-- A second call is made if the first succeeded. -/
theorem Zeroes.andThen (h : Zeroes places file z) {f : Bytes → Bool × Bytes}
    (hnext : Zeroes places' z.2 (f z.2)) : Zeroes (places ∪ places') file (andThen z f) := by
  unfold Blk.andThen
  split
  next hok =>
    refine ⟨hnext.length.trans h.length, fun i hi => ?_, fun hok' i hi => ?_⟩
    · obtain ⟨hout, hout'⟩ := not_or.mp hi
      rw [hnext.frame i hout', h.frame i hout]
    by_cases hmem : i ∈ places'
    · exact hnext.zero hok' i hmem
    · rw [hnext.frame i hmem]
      exact h.zero hok i (hi.resolve_right hmem)
  next hfail =>
    exact ⟨h.length, fun i hi => h.frame i fun hmem => hi (.inl hmem), fun hok => absurd hok hfail⟩

theorem zeroes_overwrite {off n : Nat} (h : off + n ≤ file.length) :
    Zeroes (Ico off (off + n)) file (true, overwrite file off (replicate n 0)) := by
  have hlen : off + (replicate n (0 : UInt8)).length ≤ file.length := by rwa [length_replicate]
  refine ⟨length_overwrite hlen, fun i hi => getElem?_overwrite_of_outside hlen ?_, fun _ i hi => ?_⟩
  · rw [mem_Ico] at hi
    rw [length_replicate]
    omega
  · obtain ⟨hlo, hhi⟩ := hi
    rw [getElem?_overwrite_inside hlen hlo (by rwa [length_replicate]),
      getElem?_replicate_of_lt (by omega)]

theorem zeroes_zeroLoop (answers : List (Option Nat)) {off left : Nat}
    (h : off + left ≤ file.length) :
    Zeroes (Ico off (off + left)) file (zeroLoop answers file off left) := by
  induction answers, file, off, left using zeroLoop.induct with
  | case1 answers file off =>
    rw [zeroLoop, Nat.add_zero, Ico_self]
    exact zeroes_nothing file
  | case2 n answers file off left taken ih =>
    rw [zeroLoop]
    have htaken : taken ≤ left + 1 := Nat.min_le_right _ _
    have hfits : off + taken ≤ file.length := by omega
    have hwrite := zeroes_overwrite hfits
    have hall := hwrite.andThen (f := fun file => zeroLoop answers file (off + taken)
      (left + 1 - taken)) (ih (by rw [hwrite.length]; omega))
    have hend : off + taken + (left + 1 - taken) = off + (left + 1) := by omega
    rw [hend, Ico_union_Ico_eq_Ico (by omega) (by omega)] at hall
    exact hall
  | case3 answers file off left hne =>
    rw [zeroLoop]
    · exact ⟨rfl, fun _ _ => rfl, nofun⟩
    · exact hne
    · assumption

theorem zeroes_zeroPwrite (answers : List (Option Nat)) {start stop : Nat}
    (h : stop ≤ file.length) :
    Zeroes (Ico start stop) file (zeroPwrite answers file start stop) := by
  unfold zeroPwrite
  split
  · rw [Ico_eq_empty (by omega)]
    exact zeroes_nothing file
  · have hfits : start + (stop - start) ≤ file.length := by omega
    have hloop := zeroes_zeroLoop answers hfits
    rwa [Nat.add_sub_cancel' (by omega)] at hloop

end

theorem blockAlignedInterior_spec {start stop a b : Nat} (hstop : stop < 2 ^ 64)
    (h : blockAlignedInterior start stop = some (a, b)) :
    4096 ∣ a ∧ 4096 ∣ b ∧ start ≤ a ∧ a < b ∧ b ≤ stop := by
  unfold blockAlignedInterior at h
  dsimp only at h
  split at h
  next hlt =>
    cases h
    refine ⟨Nat.dvd_mul_left _ _, Nat.dvd_mul_left _ _, ?_, hlt, Nat.div_mul_le_self _ _⟩
    -- where the addition saturates, the rounded end is not above the rounded start
    omega
  · cases h

theorem zeroes_zeroRange (punched : Bool) (interior head tail : List (Option Nat)) {file : Bytes}
    {start stop : Nat} (h : stop ≤ file.length) (hstop : stop < 2 ^ 64) :
    Zeroes (Ico start stop) file (zeroRange punched interior head tail file start stop) := by
  unfold zeroRange
  split
  case isTrue hle =>
    rw [Ico_eq_empty (by omega)]
    exact zeroes_nothing file
  case isFalse =>
    split
    case h_1 => exact zeroes_zeroPwrite interior h
    case h_2 a b hinterior =>
      obtain ⟨-, -, hlo, hab, hhi⟩ := blockAlignedInterior_spec hstop hinterior
      have hfirst : Zeroes (Ico a b) file (if punched = true then
          (true, overwrite file a (replicate (b - a) 0)) else zeroPwrite interior file a b) := by
        split
        · have hfits : a + (b - a) ≤ file.length := by omega
          have hpunch := zeroes_overwrite hfits
          rwa [Nat.add_sub_cancel' hab.le] at hpunch
        · exact zeroes_zeroPwrite interior (hhi.trans h)
      have hhead := hfirst.andThen (f := fun file => zeroPwrite head file start a)
        (zeroes_zeroPwrite head (by rw [hfirst.length]; omega))
      have hall := hhead.andThen (f := fun file => zeroPwrite tail file b stop)
        (zeroes_zeroPwrite tail (by rw [hhead.length]; exact h))
      rwa [union_comm (Ico a b), Ico_union_Ico_eq_Ico hlo hab.le,
        Ico_union_Ico_eq_Ico (hlo.trans hab.le) hhi] at hall

/-! ## Discards -/

theorem exists_of_mem_mapM {α β : Type} {f : α → Option β} {l : List α} {l' : List β}
    (h : l.mapM f = some l') {y : β} (hy : y ∈ l') : ∃ x ∈ l, f x = some y := by
  induction l generalizing l' with
  | nil =>
    cases h
    cases hy
  | cons x l ih =>
    rw [mapM_cons] at h
    obtain ⟨y', hx, h⟩ := Option.bind_eq_some_iff.mp h
    obtain ⟨ys, hl, h⟩ := Option.bind_eq_some_iff.mp h
    cases h
    rcases mem_cons.mp hy with rfl | hy
    · exact ⟨x, mem_cons_self, hx⟩
    · obtain ⟨x', hx', hf⟩ := ih hl hy
      exact ⟨x', mem_cons_of_mem _ hx', hf⟩

theorem checkedByteRange_spec {ctx : BlkWorkerContext} {e : DiscardWriteZeroesRange}
    {r : Nat × Nat} (h : checkedByteRange ctx e = some r) :
    r.1 = e.sector * ctx.blkSize.toNat ∧ r.2 = (e.sector + e.numSectors) * ctx.blkSize.toNat ∧
      r.2 ≤ ctx.capacitySectors.toNat * ctx.blkSize.toNat ∧ r.2 < 2 ^ 64 := by
  unfold checkedByteRange at h
  dsimp only at h
  split at h
  · cases h
  cases h
  refine ⟨rfl, (Nat.add_mul _ _ _).symm, ?_, by omega⟩
  rw [← Nat.add_mul]
  exact Nat.mul_le_mul_right _ (by omega)

/-- A hole that is asked for is aligned and inside one of the ranges named. -/
structure Named (ctx : BlkWorkerContext) (entries : List DiscardWriteZeroesRange)
    (hole : Nat × Nat) : Prop where
  aligned : 4096 ∣ hole.1 ∧ 4096 ∣ hole.2 ∧ hole.1 < hole.2
  inside : ∃ e ∈ entries, e.sector * ctx.blkSize.toNat ≤ hole.1 ∧
    hole.2 ≤ (e.sector + e.numSectors) * ctx.blkSize.toNat
  capacity : hole.2 ≤ ctx.capacitySectors.toNat * ctx.blkSize.toNat

theorem named_of_mem {ctx : BlkWorkerContext} {payload : Bytes} {ranges : List (Nat × Nat)}
    (h : discardByteRanges ctx payload = some ranges) :
    ∃ entries, parseRangeList payload = some entries ∧
      ∀ hole ∈ ranges.filterMap fun r => blockAlignedInterior r.1 r.2, Named ctx entries hole := by
  obtain ⟨entries, hentries, hranges⟩ := Option.bind_eq_some_iff.mp h
  refine ⟨entries, hentries, fun hole hhole => ?_⟩
  obtain ⟨r, hr, hinterior⟩ := mem_filterMap.mp hhole
  obtain ⟨e, he, hchecked⟩ := exists_of_mem_mapM hranges hr
  split at hchecked
  · cases hchecked
  obtain ⟨hstart, hstop, hcapacity, hlt⟩ := checkedByteRange_spec hchecked
  obtain ⟨ha, hb, hlo, hab, hhi⟩ := blockAlignedInterior_spec hlt hinterior
  exact ⟨⟨ha, hb, hab⟩, ⟨e, he, hstart ▸ hlo, hstop ▸ hhi⟩, hhi.trans hcapacity⟩

/-- A byte outside the holes is left alone, whichever of them are punched. -/
theorem punched_frame (punches : Nat × Nat → Bool) {holes : List (Nat × Nat)} {file : Bytes}
    (hfits : ∀ hole ∈ holes, hole.1 ≤ hole.2 ∧ hole.2 ≤ file.length) {i : Nat}
    (hout : ∀ hole ∈ holes, i ∉ Set.Ico hole.1 hole.2) :
    let file' := holes.foldl (fun file hole =>
      if punches hole then overwrite file hole.1 (replicate (hole.2 - hole.1) 0) else file) file
    file'.length = file.length ∧ file'[i]? = file[i]? := by
  induction holes generalizing file with
  | nil => exact ⟨rfl, rfl⟩
  | cons hole holes ih =>
    obtain ⟨⟨hle, hstop⟩, hfits⟩ := forall_mem_cons.mp hfits
    obtain ⟨hfirst, hout⟩ := forall_mem_cons.mp hout
    rw [foldl_cons]
    split
    · have hwrite := zeroes_overwrite (show hole.1 + (hole.2 - hole.1) ≤ file.length by omega)
      rw [Nat.add_sub_cancel' hle] at hwrite
      have hlen := hwrite.length
      obtain ⟨hrest, hsame⟩ := ih (fun h hh => hlen ▸ hfits h hh) hout
      exact ⟨hrest.trans hlen, hsame.trans (hwrite.frame i hfirst)⟩
    · exact ih hfits hout

/-- Zeroing changes the named range only, to zeros if it succeeds, and a discard asks for aligned
parts of the ranges it names and changes nothing else. -/
theorem zeroing_exact :
    (∀ (punched : Bool) (interior head tail : List (Option Nat)) (file : Bytes) (start stop : Nat),
      start ≤ stop → stop ≤ file.length → stop < 2 ^ 64 →
      Zeroes (Ico start stop) file (zeroRange punched interior head tail file start stop)) ∧
    ∀ (ctx : BlkWorkerContext) (payload : Bytes) (ranges : List (Nat × Nat))
      (punches : Nat × Nat → Bool) (file : Bytes), discardByteRanges ctx payload = some ranges →
      let out := punchDiscardRanges ctx punches file payload
      (∃ entries, parseRangeList payload = some entries ∧
        ∀ hole ∈ out.2.1, Named ctx entries hole) ∧
      (ctx.capacitySectors.toNat * ctx.blkSize.toNat ≤ file.length →
        out.2.2.length = file.length ∧
          ∀ i, (∀ hole ∈ out.2.1, i ∉ Set.Ico hole.1 hole.2) → out.2.2[i]? = file[i]?) := by
  refine ⟨fun punched interior head tail file start stop _ =>
    zeroes_zeroRange punched interior head tail, fun ctx payload ranges punches file h => ?_⟩
  obtain ⟨entries, hentries, hnamed⟩ := named_of_mem h
  simp only [punchDiscardRanges, h]
  refine ⟨⟨entries, hentries, hnamed⟩, fun hfile => ?_⟩
  have hfits : ∀ hole ∈ ranges.filterMap fun r => blockAlignedInterior r.1 r.2,
      hole.1 ≤ hole.2 ∧ hole.2 ≤ file.length := fun hole hhole =>
    ⟨(hnamed hole hhole).aligned.2.2.le, (hnamed hole hhole).capacity.trans hfile⟩
  refine ⟨?_, fun i hout => (punched_frame punches hfits hout).2⟩
  -- the length, seen from a byte behind every hole
  refine (punched_frame punches hfits (i := file.length) fun hole hhole hmem => ?_).1
  exact absurd hmem.2 (Nat.not_lt.mpr (hfits hole hhole).2)

/-- A host that takes one byte and then fails, and a discard of one block. -/
theorem zeroing_exact_short_write :
    Zeroes (Ico 0 3) [7, 7, 7, 7] (zeroRange false [some 1, none] [] [] [7, 7, 7, 7] 0 3) ∧
    discardByteRanges ⟨512, 8⟩ (replicate 8 0 ++ 8 :: replicate 7 0) = some [(0, 4096)] ∧
    ∃ entries, parseRangeList (replicate 8 0 ++ 8 :: replicate 7 0) = some entries ∧
      ∀ hole ∈ (punchDiscardRanges ⟨512, 8⟩ (fun _ => true) []
        (replicate 8 0 ++ 8 :: replicate 7 0)).2.1, Named ⟨512, 8⟩ entries hole :=
  ⟨zeroing_exact.1 false [some 1, none] [] [] [7, 7, 7, 7] 0 3 (by decide) (by decide) (by decide),
    by decide, (zeroing_exact.2 ⟨512, 8⟩ _ [(0, 4096)] (fun _ => true) [] (by decide)).1⟩

end Arcbox.Blk

import Arcbox.Foundation.Ranges
import Arcbox.Foundation.Table
import Arcbox.Packet.Tcp

set_option autoImplicit false

/-!
# Reassembly: the IPv4 fragment reassembler

`FragmentReassembler` of `fragment.rs` for IPv4, from the frame's bytes to the
rebuilt frame.  Frames of IP version 6 are handed to the IPv6 reassembler, which
is a parameter here: its state type and its `push`.  Instants are nanoseconds.
-/

namespace Arcbox.Reassembly

open Foundation List
open Packet

/-- `MAX_REASSEMBLED_PAYLOAD`. -/
def maxReassembledPayload : Nat := 65535 - 20

/-- `MAX_ENTRIES`. -/
def maxEntries : Nat := 32

/-- `MAX_RANGES`. -/
def maxRanges : Nat := 64

/-- `REASSEMBLY_TIMEOUT`, three seconds. -/
def reassemblyTimeout : Nat := 3 * 10 ^ 9

/-- `Key`: source, destination, protocol and identification. -/
structure Key where
  src : Ipv4Addr
  dst : Ipv4Addr
  protocol : UInt8
  id : BitVec 16
  deriving DecidableEq, Repr

/-! ## Reading a frame -/

variable (frame : Bytes)

/-- The big-endian 16-bit field at index `i`. -/
def fieldAt (i : Nat) : BitVec 16 := be16 (frame.getD i 0) (frame.getD (i + 1) 0)

/-- The header length the IPv4 header states. -/
def ihlOf : Nat := (frame.getD ethHeaderLen 0 &&& 0x0F).toNat * 4

/-- The test that hands a frame to the IPv6 reassembler. -/
def isIpv6 : Bool := frame[ethHeaderLen]?.any fun byte : UInt8 => byte >>> 4 == 6

/-- `key_of`. -/
def keyOf : Key :=
  let ip := fun i => frame.getD (ethHeaderLen + i) 0
  { src := ⟨ip 12, ip 13, ip 14, ip 15⟩
    dst := ⟨ip 16, ip 17, ip 18, ip 19⟩
    protocol := ip 9
    id := be16 (ip 4) (ip 5) }

variable {xs ys : Bytes}
variable {i : Nat}

theorem getD_append (h : i < xs.length) : (xs ++ ys).getD i 0 = xs.getD i 0 := by
  rw [getD_eq_getElem?_getD, getD_eq_getElem?_getD, List.getElem?_append_left h]

theorem fieldAt_append (h : i + 1 < xs.length) : fieldAt (xs ++ ys) i = fieldAt xs i := by
  rw [fieldAt, fieldAt, getD_append (by omega), getD_append h]

theorem keyOf_append (h : ethHeaderLen + 20 ≤ xs.length) : keyOf (xs ++ ys) = keyOf xs := by
  simp only [keyOf]
  repeat rw [getD_append (by omega)]

/-- `frame[..ip_start + ihl]`: an Ethernet and an IPv4 header of the length the
latter states, which is at least the minimum. -/
@[ext]
structure Header where
  bytes : Bytes
  length_bytes : bytes.length = ethHeaderLen + ihlOf bytes
  min_length : 20 ≤ ihlOf bytes
  deriving DecidableEq, Repr

theorem Header.le_length (h : Header) : ethHeaderLen + 20 ≤ h.bytes.length := by
  have := h.length_bytes
  have := h.min_length
  omega

/-- The length of the IPv4 header alone. -/
def Header.ihl (h : Header) : Nat := h.bytes.length - ethHeaderLen

/-- What `push` reads off an accepted frame: the correlation key, the headers, the
payload's place in the datagram and the payload. -/
structure Fragment where
  key : Key
  header : Header
  offset : Nat
  more : Bool
  data : Bytes
  deriving DecidableEq, Repr

/-- `end`: the payload position after the fragment. -/
def Fragment.stop (f : Fragment) : Nat := f.offset + f.data.length

theorem ihlOf_take {frame : Bytes} {n : Nat} (h : ethHeaderLen < n) :
    ihlOf (frame.take n) = ihlOf frame := by
  simp only [ihlOf, getD_eq_getElem?_getD, List.getElem?_take_of_lt h]

def headerOf (hmin : 20 ≤ ihlOf frame) (hfits : ethHeaderLen + ihlOf frame ≤ frame.length) :
    Header where
  bytes := frame.take (ethHeaderLen + ihlOf frame)
  length_bytes := by
    rw [ihlOf_take (by omega), length_take, Nat.min_eq_left hfits]
  min_length := by
    rw [ihlOf_take (by omega)]
    exact hmin

/-- The length and alignment checks at the start of `push`; `none` drops the
frame. -/
def Fragment.parse : Option Fragment :=
  let ipTotal := (fieldAt frame (ethHeaderLen + 2)).toNat
  let flagsFrag := fieldAt frame (ethHeaderLen + 6)
  let more := flagsFrag &&& 0x2000 != 0
  let data := (frame.take (ethHeaderLen + ipTotal)).drop (ethHeaderLen + ihlOf frame)
  if frame.length < ethHeaderLen + 20 then none
  else if h : ihlOf frame < 20 ∨ ipTotal < ihlOf frame
      ∨ frame.length < ethHeaderLen + ipTotal then none
  else if more ∧ (data = [] ∨ data.length % 8 ≠ 0) then none
  else
    some { key := keyOf frame
           header := headerOf frame (by omega) (by omega)
           offset := (flagsFrag &&& 0x1FFF).toNat * 8
           more := more
           data := data }

/-! ## One datagram -/

/-- `Entry`. -/
structure Entry where
  header : Option Header
  payload : Bytes
  ranges : List (Nat × Nat)
  totalLen : Option Nat
  firstSeen : Nat
  deriving Repr

/-- The entry `or_insert_with` creates. -/
def Entry.new (now : Nat) : Entry :=
  { header := none, payload := [], ranges := [], totalLen := none, firstSeen := now }

variable (e : Entry)

/-- `Entry::is_complete`. -/
def Entry.isComplete : Bool :=
  match e.header, e.totalLen with
  | some _, some total => decide (e.ranges = [(0, total)])
  | _, _ => false

/-- `merge_range`. -/
def mergeRange (ranges : List (Nat × Nat)) (start stop : Nat) : List (Nat × Nat) :=
  Ranges.insert ranges start stop

variable (f : Fragment)

/-- A final fragment fixes the total length; `none` when another final fragment
has fixed a different one. -/
def Entry.fixTotal : Option Entry :=
  if f.more then some e
  else
    match e.totalLen with
    | some total =>
        if total ≠ f.stop then none else some { e with totalLen := some f.stop }
    | none => some { e with totalLen := some f.stop }

/-- The fragment reaches beyond the final fragment. -/
def Entry.beyondTotal : Bool :=
  match e.totalLen with
  | some total => decide (f.stop > total)
  | none => false

/-- The header comes from the first fragment seen at offset 0. -/
def Entry.captureHeader : Entry :=
  if f.offset = 0 ∧ e.header.isNone then { e with header := some f.header } else e

/-- The scan of the received ranges: whether one of those met before it stopped
contains `[offset, stop)`, and whether it stopped at one that overlaps otherwise. -/
def classify (offset stop : Nat) (fullyContained : Bool) : List (Nat × Nat) → Bool × Bool
  | [] => (fullyContained, false)
  | (s, e) :: rest =>
      if offset < e ∧ s < stop then
        if s ≤ offset ∧ stop ≤ e then classify offset stop true rest
        else (fullyContained, true)
      else classify offset stop fullyContained rest

/-- `entry.payload[offset..end]`. -/
def Entry.stored : Bytes := (e.payload.take f.stop).drop f.offset

/-- Grow the payload to the fragment's end if needed and copy the fragment in. -/
def Entry.store : Entry :=
  { e with
    payload := overwrite (e.payload ++ List.replicate (f.stop - e.payload.length) 0) f.offset f.data
    ranges := mergeRange e.ranges f.offset f.stop }

/-- The overlap checks and the copy: `none` drops the whole entry, and a
byte-identical repeat changes nothing. -/
def Entry.place : Option Entry :=
  match classify f.offset f.stop false e.ranges with
  | (_, true) => none
  | (true, false) => if e.stored f ≠ f.data then none else some e
  | (false, false) =>
      if (e.store f).ranges.length > maxRanges then none else some (e.store f)

/-- Take a fragment into its entry; `none` drops the whole entry. -/
def Entry.accept : Option Entry :=
  match e.fixTotal f with
  | none => none
  | some e => if e.beyondTotal f then none else (e.captureHeader f).place f

/-! ### What a fragment does to an entry -/

section Accept

variable {e e' : Entry} {f : Fragment}

theorem classify_conflict_iff {offset stop : Nat} {contained : Bool} {ranges : List (Nat × Nat)} :
    (classify offset stop contained ranges).2 = true ↔
      ∃ r ∈ ranges, (offset < r.2 ∧ r.1 < stop) ∧ ¬(r.1 ≤ offset ∧ stop ≤ r.2) := by
  induction ranges generalizing contained with
  | nil => simp [classify]
  | cons r rest ih =>
    obtain ⟨s, e⟩ := r
    rw [classify, exists_mem_cons_iff]
    split
    next hmeet =>
      split
      next hin =>
        rw [ih]
        exact ⟨.inr, fun h => h.resolve_left fun h => h.2 hin⟩
      next hin =>
        exact iff_of_true rfl (.inl ⟨hmeet, hin⟩)
    next hmeet =>
      rw [ih]
      exact ⟨.inr, fun h => h.resolve_left fun h => hmeet h.1⟩

theorem classify_contained_iff {offset stop : Nat} {contained : Bool}
    {ranges : List (Nat × Nat)} (h : (classify offset stop contained ranges).2 = false) :
    (classify offset stop contained ranges).1 = true ↔
      contained = true ∨ ∃ r ∈ ranges, offset < r.2 ∧ r.1 < stop := by
  induction ranges generalizing contained with
  | nil => simp [classify]
  | cons r rest ih =>
    obtain ⟨s, e⟩ := r
    rw [classify] at h ⊢
    rw [exists_mem_cons_iff]
    split at h
    next hmeet =>
      split at h
      next hin =>
        rw [if_pos hmeet, if_pos hin, ih h]
        exact iff_of_true (.inl rfl) (.inr (.inl hmeet))
      · simp at h
    next hmeet =>
      rw [if_neg hmeet, ih h]
      exact or_congr_right ⟨.inr, fun h => h.resolve_left hmeet⟩

def Entry.withTotal (e : Entry) (f : Fragment) : Entry :=
  { e with totalLen := if f.more then e.totalLen else some f.stop }

/-- Final fragments agree on the total length. -/
theorem fixTotal_eq_some_iff {e₁ : Entry} : e.fixTotal f = some e₁ ↔
    (f.more = false → e.totalLen = none ∨ e.totalLen = some f.stop) ∧ e₁ = e.withTotal f := by
  rw [Entry.fixTotal, Entry.withTotal]
  cases f.more with
  | true =>
    simp only [if_true, Bool.true_eq_false, false_imp_iff, true_and, Option.some.injEq]
    exact eq_comm
  | false =>
    cases htotal : e.totalLen with
    | none => simp [eq_comm]
    | some total =>
      by_cases hne : total = f.stop
      · simp [hne, eq_comm]
      · simp [hne]

@[simp] theorem captureHeader_payload : (e.captureHeader f).payload = e.payload := by
  rw [Entry.captureHeader]
  split <;> rfl

@[simp] theorem captureHeader_ranges : (e.captureHeader f).ranges = e.ranges := by
  rw [Entry.captureHeader]
  split <;> rfl

@[simp] theorem captureHeader_totalLen : (e.captureHeader f).totalLen = e.totalLen := by
  rw [Entry.captureHeader]
  split <;> rfl

@[simp] theorem captureHeader_firstSeen : (e.captureHeader f).firstSeen = e.firstSeen := by
  rw [Entry.captureHeader]
  split <;> rfl

theorem captureHeader_header : (e.captureHeader f).header
    = if f.offset = 0 ∧ e.header = none then some f.header else e.header := by
  simp only [Entry.captureHeader, Option.isNone_iff_eq_none]
  split <;> rfl

/-- The fragment shares a position with the range. -/
def Fragment.Meets (f : Fragment) (r : Nat × Nat) : Prop := f.offset < r.2 ∧ r.1 < f.stop

/-- The fragment lies inside the range. -/
def Fragment.Inside (f : Fragment) (r : Nat × Nat) : Prop := r.1 ≤ f.offset ∧ f.stop ≤ r.2

/-- A fragment is stored when it meets no range; one that meets some is kept only
inside them and with the bytes already there. -/
theorem place_eq_some_iff : e.place f = some e' ↔
    ((∀ r ∈ e.ranges, ¬f.Meets r) ∧ (e.store f).ranges.length ≤ maxRanges ∧ e' = e.store f)
    ∨ ((∃ r ∈ e.ranges, f.Meets r) ∧ (∀ r ∈ e.ranges, f.Meets r → f.Inside r)
      ∧ e.stored f = f.data ∧ e' = e) := by
  have hconflict := @classify_conflict_iff f.offset f.stop false e.ranges
  have hcontained := @classify_contained_iff f.offset f.stop false e.ranges
  rw [Entry.place]
  split
  next hclass =>
    rw [hclass] at hconflict
    obtain ⟨r, hr, hmeets, hout⟩ := hconflict.mp rfl
    refine iff_of_false (by simp) ?_
    rintro (⟨hnone, -⟩ | ⟨-, hall, -⟩)
    · exact hnone r hr hmeets
    · exact hout (hall r hr hmeets)
  next hclass =>
    rw [hclass] at hconflict hcontained
    have hsome : ∃ r ∈ e.ranges, f.Meets r := ((hcontained rfl).mp rfl).resolve_left (by simp)
    have hall : ∀ r ∈ e.ranges, f.Meets r → f.Inside r := by
      intro r hr hmeets
      by_contra hout
      simpa using hconflict.mpr ⟨r, hr, hmeets, hout⟩
    obtain ⟨r, hr, hmeets⟩ := hsome
    constructor
    · intro h
      split at h
      · simp at h
      next hbytes =>
        exact .inr ⟨⟨r, hr, hmeets⟩, hall, Decidable.not_not.mp hbytes, (Option.some.inj h).symm⟩
    · rintro (⟨hnone, -⟩ | ⟨-, -, hbytes, rfl⟩)
      · exact absurd hmeets (hnone r hr)
      · rw [if_neg (not_not_intro hbytes)]
  next hclass =>
    rw [hclass] at hcontained
    have hnone : ∀ r ∈ e.ranges, ¬f.Meets r := by
      intro r hr hmeets
      simpa using (hcontained rfl).mpr (.inr ⟨r, hr, hmeets⟩)
    constructor
    · intro h
      split at h
      · simp at h
      next hcap =>
        exact .inl ⟨hnone, Nat.le_of_not_gt hcap, (Option.some.inj h).symm⟩
    · rintro (⟨-, hcap, rfl⟩ | ⟨⟨r, hr, hmeets⟩, -⟩)
      · rw [if_neg (Nat.not_lt_of_ge hcap)]
      · exact absurd hmeets (hnone r hr)

/-- The entry a fragment is compared with: total length and header brought up to
date, the bytes as they were. -/
def Entry.prepare (e : Entry) (f : Fragment) : Entry := (e.withTotal f).captureHeader f

@[simp] theorem prepare_payload : (e.prepare f).payload = e.payload := captureHeader_payload

@[simp] theorem prepare_ranges : (e.prepare f).ranges = e.ranges := captureHeader_ranges

@[simp] theorem prepare_firstSeen : (e.prepare f).firstSeen = e.firstSeen := captureHeader_firstSeen

@[simp] theorem prepare_totalLen :
    (e.prepare f).totalLen = if f.more then e.totalLen else some f.stop := captureHeader_totalLen

@[simp] theorem prepare_header : (e.prepare f).header
    = if f.offset = 0 ∧ e.header = none then some f.header else e.header := captureHeader_header

/-- When an entry takes a fragment in, and what it holds then. -/
theorem accept_eq_some_iff : e.accept f = some e' ↔
    (f.more = false → e.totalLen = none ∨ e.totalLen = some f.stop)
    ∧ (∀ total, (e.prepare f).totalLen = some total → f.stop ≤ total)
    ∧ (e.prepare f).place f = some e' := by
  have hfix := @fixTotal_eq_some_iff e f
  rw [Entry.accept]
  split
  next hnone =>
    refine iff_of_false (by simp) fun ⟨hagrees, _⟩ => ?_
    simpa [hnone] using hfix.mpr ⟨hagrees, rfl⟩
  rename_i e₁ hsome
  obtain ⟨hagrees, rfl⟩ := hfix.mp hsome
  have hbeyond : ¬(e.withTotal f).beyondTotal f
      ↔ ∀ total, (e.prepare f).totalLen = some total → f.stop ≤ total := by
    rw [prepare_totalLen, Entry.beyondTotal, Entry.withTotal]
    dsimp only
    split <;> rename_i htotal <;> simp [htotal]
  rw [← hbeyond]
  split
  next hover =>
    exact iff_of_false (by simp) fun h => h.2.1 hover
  next hover =>
    exact ⟨fun h => ⟨hagrees, hover, h⟩, fun h => h.2.2⟩

theorem firstSeen_of_accept (h : e.accept f = some e') : e'.firstSeen = e.firstSeen := by
  rcases place_eq_some_iff.mp (accept_eq_some_iff.mp h).2.2 with ⟨-, -, rfl⟩ | ⟨-, -, -, rfl⟩
  · exact prepare_firstSeen
  · exact prepare_firstSeen

end Accept

/-- `rebuild_frame`, of an entry's header, payload and total length. -/
def rebuildFrame (header : Header) (payload : Bytes) (total : Nat) : Bytes :=
  let ihl := header.ihl
  let out := header.bytes ++ payload.take total
  let out := overwrite out (ethHeaderLen + 2) (beBytes16 (BitVec.ofNat 16 (ihl + total)))
  let out := overwrite out (ethHeaderLen + 6) [0, 0]
  let out := overwrite out (ethHeaderLen + 10) [0, 0]
  let cksum := ipv4HeaderChecksum ((out.drop ethHeaderLen).take ihl)
  overwrite out (ethHeaderLen + 10) (beBytes16 cksum)

/-- The frame of a complete entry, unless its length does not fit the 16-bit
total-length field. -/
def Entry.finish (e : Entry) : Option Bytes :=
  match e.header, e.totalLen with
  | some header, some total =>
      if header.ihl + total > 65535 then none
      else some (rebuildFrame header e.payload total)
  | _, _ => none

/-! ### The rebuilt frame -/

def unfragmented (header : Bytes) (total : Nat) : Bytes :=
  overwrite (overwrite header (ethHeaderLen + 2) (beBytes16 (BitVec.ofNat 16 total)))
    (ethHeaderLen + 6) [0, 0]

/-- The header of the rebuilt frame. -/
def restoreHeader (header : Bytes) (total : Nat) : Bytes :=
  let blank := overwrite (unfragmented header total) (ethHeaderLen + 10) [0, 0]
  overwrite blank (ethHeaderLen + 10) (beBytes16 (ipv4HeaderChecksum (blank.drop ethHeaderLen)))

section Rebuild

variable {header : Bytes} {total : Nat}

section

variable (h : ethHeaderLen + 20 ≤ header.length)

include h

theorem length_unfragmented : (unfragmented header total).length = header.length := by
  have hlen : (overwrite header (ethHeaderLen + 2) (beBytes16 (BitVec.ofNat 16 total))).length
      = header.length := length_overwrite (by simp only [length_beBytes16]; omega)
  rw [unfragmented, length_overwrite (by simp only [hlen, length_cons, length_nil]; omega),
    hlen]

theorem restoreHeader_eq :
    restoreHeader header total
    = overwrite (unfragmented header total) (ethHeaderLen + 10) (beBytes16 (ipv4HeaderChecksum
        ((overwrite (unfragmented header total) (ethHeaderLen + 10) [0, 0]).drop
          ethHeaderLen))) := by
  rw [restoreHeader, overwrite_overwrite (by rfl)]
  rw [length_unfragmented h]
  omega

theorem length_restoreHeader : (restoreHeader header total).length = header.length := by
  have hlen : (unfragmented header total).length = header.length := length_unfragmented h
  rw [restoreHeader_eq h, length_overwrite (by rw [hlen, length_beBytes16]; omega), hlen]

end

theorem rebuildFrame_eq (header : Header) (payload : Bytes) (total : Nat) :
    rebuildFrame header payload total
      = restoreHeader header.bytes (header.ihl + total) ++ payload.take total := by
  have h := header.le_length
  have hfield : ∀ x : BitVec 16, (beBytes16 x).length = 2 := length_beBytes16
  have hzero : ([0, 0] : Bytes).length = 2 := rfl
  have hlen := fun n => @length_unfragmented header.bytes n h
  have hblank : ∀ n, (overwrite (unfragmented header.bytes n) (ethHeaderLen + 10) [0, 0]).length
      = header.bytes.length := by
    intro n
    rw [length_overwrite (by rw [hlen, hzero]; omega), hlen]
  have hset : ∀ x : BitVec 16, (overwrite header.bytes (ethHeaderLen + 2) (beBytes16 x)).length
      = header.bytes.length := fun x => length_overwrite (by rw [hfield]; omega)
  rw [rebuildFrame, overwrite_append_left (by rw [hfield]; omega),
    overwrite_append_left (by rw [hset, hzero]; omega), ← unfragmented,
    overwrite_append_left (by rw [hlen, hzero]; omega),
    overwrite_append_left (by rw [hblank, hfield]; omega), restoreHeader]
  congr 4
  rw [drop_append_of_le_length (by rw [hblank]; omega),
    take_left' (by rw [length_drop, hblank, Header.ihl])]

theorem getElem?_unfragmented (h : ethHeaderLen + 20 ≤ header.length)
    (hlen : i ≠ ethHeaderLen + 2 ∧ i ≠ ethHeaderLen + 3)
    (hfrag : i ≠ ethHeaderLen + 6 ∧ i ≠ ethHeaderLen + 7) :
    (unfragmented header total)[i]? = header[i]? := by
  have hfield : (beBytes16 (BitVec.ofNat 16 total)).length = 2 := length_beBytes16 _
  have hzero : ([0, 0] : Bytes).length = 2 := rfl
  have hset : (overwrite header (ethHeaderLen + 2) (beBytes16 (BitVec.ofNat 16 total))).length
      = header.length := length_overwrite (by rw [hfield]; omega)
  rw [unfragmented,
    getElem?_overwrite_of_outside (by rw [hset, hzero]; omega) (by rw [hzero]; omega),
    getElem?_overwrite_of_outside (by rw [hfield]; omega) (by rw [hfield]; omega)]

/-- The total-length, fragment and checksum fields are all that changes. -/
theorem getElem?_restoreHeader (h : ethHeaderLen + 20 ≤ header.length)
    (hlen : i ≠ ethHeaderLen + 2 ∧ i ≠ ethHeaderLen + 3)
    (hfrag : i ≠ ethHeaderLen + 6 ∧ i ≠ ethHeaderLen + 7)
    (hsum : i ≠ ethHeaderLen + 10 ∧ i ≠ ethHeaderLen + 11) :
    (restoreHeader header total)[i]? = header[i]? := by
  have hun : (unfragmented header total).length = header.length := length_unfragmented h
  rw [restoreHeader_eq h, getElem?_overwrite_of_outside (by rw [length_beBytes16]; omega)
    (by rw [length_beBytes16]; omega), getElem?_unfragmented h hlen hfrag]

theorem fieldAt_overwrite {buf : Bytes} (x : BitVec 16) (h : i + 2 ≤ buf.length) :
    fieldAt (overwrite buf i (beBytes16 x)) i = x := by
  rw [fieldAt, getD_eq_getElem?_getD, getD_eq_getElem?_getD,
    getElem?_overwrite_inside h (Nat.le_refl i) (by rw [length_beBytes16]; omega),
    getElem?_overwrite_inside h (by omega) (by rw [length_beBytes16]; omega),
    Nat.sub_self, Nat.add_sub_cancel_left]
  exact be16_beBytes16 x

theorem fieldAt_overwrite_of_ne {buf : Bytes} {j : Nat} (x : BitVec 16) (h : i + 2 ≤ buf.length)
    (hj : j + 2 ≤ i ∨ i + 2 ≤ j) : fieldAt (overwrite buf i (beBytes16 x)) j = fieldAt buf j := by
  rw [fieldAt, fieldAt, getD_eq_getElem?_getD, getD_eq_getElem?_getD,
    getElem?_overwrite_of_outside h (by rw [length_beBytes16]; omega),
    getElem?_overwrite_of_outside h (by rw [length_beBytes16]; omega),
    getD_eq_getElem?_getD, getD_eq_getElem?_getD]

section

variable (h : ethHeaderLen + 20 ≤ header.length)

include h

theorem fieldAt_restoreHeader_of_lt {j : Nat} (hj : j + 2 ≤ ethHeaderLen + 10) :
    fieldAt (restoreHeader header total) j =
      fieldAt (overwrite (overwrite header (ethHeaderLen + 2) (beBytes16 (BitVec.ofNat 16 total)))
        (ethHeaderLen + 6) (beBytes16 0)) j := by
  have hun : (unfragmented header total).length = header.length := length_unfragmented h
  rw [restoreHeader_eq h, fieldAt_overwrite_of_ne _ (by omega) (by omega)]
  rfl

/-- The restored header states the new total length. -/
theorem fieldAt_restoreHeader_total :
    fieldAt (restoreHeader header total) (ethHeaderLen + 2) = BitVec.ofNat 16 total := by
  rw [fieldAt_restoreHeader_of_lt h (by omega), fieldAt_overwrite_of_ne _ ?_ (by omega),
    fieldAt_overwrite _ (by omega)]
  rw [length_overwrite (by rw [length_beBytes16]; omega)]
  omega

/-- The restored header has no fragment field. -/
theorem fieldAt_restoreHeader_fragment :
    fieldAt (restoreHeader header total) (ethHeaderLen + 6) = 0 := by
  rw [fieldAt_restoreHeader_of_lt h (by omega), fieldAt_overwrite]
  rw [length_overwrite (by rw [length_beBytes16]; omega)]
  omega

/-- The restored header verifies. -/
theorem headerVerifies_restoreHeader (heven : header.length % 2 = 0) :
    HeaderVerifies ((restoreHeader header total).drop ethHeaderLen) := by
  have hun : (unfragmented header total).length = header.length := length_unfragmented h
  have hsplit : ∀ field : BitVec 16,
      (overwrite (unfragmented header total) (ethHeaderLen + 10) (beBytes16 field)).drop ethHeaderLen
        = ((unfragmented header total).take (ethHeaderLen + 10)).drop ethHeaderLen
          ++ beBytes16 field ++ (unfragmented header total).drop (ethHeaderLen + 10 + 2) := by
    intro field
    rw [overwrite, length_beBytes16, append_assoc, drop_append_of_le_length
      (by rw [length_take]; omega), append_assoc]
  rw [restoreHeader_eq h, show ([0, 0] : Bytes) = beBytes16 0 from rfl, hsplit, hsplit]
  refine header_verifies ?_ ?_
  · rw [length_drop, length_take, hun]
    omega
  · have heth : ethHeaderLen = 14 := rfl
    rw [length_drop, hun]
    omega

end

end Rebuild

theorem Header.even_length (h : Header) : h.bytes.length % 2 = 0 := by
  have hlen := h.length_bytes
  rw [ihlOf, ethHeaderLen] at hlen
  omega

/-- The payload of the IPv4 packet in a frame. -/
def ipPayload : Bytes := frame.drop (ethHeaderLen + ihlOf frame)

theorem ihlOf_rebuildFrame (header : Header) (payload : Bytes) (total : Nat) :
    ihlOf (rebuildFrame header payload total) = ihlOf header.bytes := by
  have hle := header.le_length
  have hlen := @length_restoreHeader header.bytes (header.ihl + total) hle
  rw [rebuildFrame_eq, ihlOf, ihlOf, getD_eq_getElem?_getD, getD_eq_getElem?_getD,
    List.getElem?_append_left (by omega),
    getElem?_restoreHeader hle (by omega) (by omega) (by omega)]

/-- A rebuilt frame carries the reassembled payload. -/
theorem ipPayload_rebuildFrame (header : Header) (payload : Bytes) (total : Nat) :
    ipPayload (rebuildFrame header payload total) = payload.take total := by
  rw [ipPayload, ihlOf_rebuildFrame, rebuildFrame_eq]
  exact drop_left' (by rw [length_restoreHeader header.le_length, header.length_bytes])

theorem isComplete_iff {e : Entry} : e.isComplete = true ↔
    ∃ header total, e.header = some header ∧ e.totalLen = some total
      ∧ e.ranges = [(0, total)] := by
  rw [Entry.isComplete]
  split
  next header total hheader htotal =>
    simp [hheader, htotal]
  rename_i hnot
  refine iff_of_false (by simp) ?_
  rintro ⟨header, total, hheader, htotal, -⟩
  exact hnot header total hheader htotal

/-! ## The table of datagrams -/

/-- `FragmentReassembler`, over the state `σ` of the IPv6 reassembler. -/
structure FragmentReassembler (σ : Type) where
  entries : Table Key Entry
  ipv6 : σ

namespace FragmentReassembler

variable {σ : Type}

/-- `FragmentReassembler::new`. -/
def new (ipv6 : σ) : FragmentReassembler σ := { entries := ∅, ipv6 := ipv6 }

variable (r : FragmentReassembler σ)

/-- `evict_expired`. -/
def evictExpired (now : Nat) : FragmentReassembler σ :=
  { r with
    entries := r.entries.retain fun _ e => decide (now - e.firstSeen < reassemblyTimeout) }

variable (key : Key)

/-- A new datagram finds the table full. -/
def isFullFor : Bool := decide (key ∉ r.entries ∧ maxEntries ≤ r.entries.keys.length)

/-- The entry of `key`, created when it is missing. -/
def entryOf (now : Nat) : Entry := (r.entries.lookup key).getD (Entry.new now)

/-- `self.entries.remove(&key)`. -/
def remove : FragmentReassembler σ := { r with entries := r.entries.erase key }

/-- The table with `entry` under `key`. -/
def put (entry : Entry) : FragmentReassembler σ := { r with entries := r.entries.insert key entry }

theorem lookup_evictExpired (now : Nat) (k : Key) : (r.evictExpired now).entries.lookup k
      = (r.entries.lookup k).filter fun e => decide (now - e.firstSeen < reassemblyTimeout) :=
  Table.lookup_retain _ _ _

theorem lookup_remove_self (k : Key) :
    (r.remove k).entries.lookup k = none := AList.lookup_erase _ _

variable {r : FragmentReassembler σ} {k : Key} {f : Fragment}

theorem lookup_remove_of_ne {k' : Key} (h : k' ≠ k) :
    (r.remove k).entries.lookup k' = r.entries.lookup k' := AList.lookup_erase_ne h

theorem lookup_put_self (r : FragmentReassembler σ) (k : Key) (e : Entry) :
    (r.put k e).entries.lookup k = some e := AList.lookup_insert _

theorem lookup_put_of_ne {k' : Key} (h : k' ≠ k) (e : Entry) :
    (r.put k e).entries.lookup k' = r.entries.lookup k' := AList.lookup_insert_ne h

/-- The part of `push` after the frame has been read. -/
def pushFragment (r : FragmentReassembler σ) (f : Fragment) (now : Nat) :
    FragmentReassembler σ × Option Bytes :=
  if f.stop > maxReassembledPayload then (r.remove f.key, none)
  else if r.isFullFor f.key then (r, none)
  else
    match (r.entryOf f.key now).accept f with
    | none => (r.remove f.key, none)
    | some entry =>
        if entry.isComplete then (r.remove f.key, entry.finish)
        else (r.put f.key entry, none)

def offer (r : FragmentReassembler σ) (f : Fragment) (now : Nat) : Option Entry :=
  if f.stop ≤ maxReassembledPayload ∧ r.isFullFor f.key = false then
    (r.entryOf f.key now).accept f
  else none

variable {now : Nat}

theorem pushFragment_of_offer {e : Entry} (h : r.offer f now = some e) :
    r.pushFragment f now
      = if e.isComplete then (r.remove f.key, e.finish) else (r.put f.key e, none) := by
  rw [offer] at h
  split at h
  next hfits =>
    rw [pushFragment, if_neg (Nat.not_lt_of_ge hfits.1), if_neg (by simp [hfits.2]), h]
  · simp at h

theorem pushFragment_of_refused (h : r.offer f now = none) :
    r.pushFragment f now = (r.remove f.key, none) ∨ r.pushFragment f now = (r, none) := by
  rw [pushFragment]
  split
  · exact .inl rfl
  rename_i hbound
  split
  · exact .inr rfl
  rename_i hfull
  rw [offer, if_pos ⟨Nat.le_of_not_gt hbound, by simpa using hfull⟩] at h
  rw [h]
  exact .inl rfl

theorem lookup_pushFragment_of_ne (r : FragmentReassembler σ) (f : Fragment) (now : Nat)
    (h : k ≠ f.key) : (r.pushFragment f now).1.entries.lookup k = r.entries.lookup k := by
  rw [pushFragment]
  repeat' split
  · exact lookup_remove_of_ne h
  · rfl
  · exact lookup_remove_of_ne h
  · exact lookup_remove_of_ne h
  · exact lookup_put_of_ne h _

/-- `FragmentReassembler::push`. -/
def push (ipv6Push : σ → Bytes → Nat → σ × Option Bytes) (r : FragmentReassembler σ)
    (frame : Bytes) (now : Nat) : FragmentReassembler σ × Option Bytes :=
  if isIpv6 frame then
    let (ipv6, out) := ipv6Push r.ipv6 frame now
    ({ r with ipv6 := ipv6 }, out)
  else
    match Fragment.parse frame with
    | none => (r.evictExpired now, none)
    | some f => (r.evictExpired now).pushFragment f now

theorem push_of_parse {ipv6Push : σ → Bytes → Nat → σ × Option Bytes} {frame : Bytes}
    (hv4 : isIpv6 frame = false) (hparse : Fragment.parse frame = some f) :
    r.push ipv6Push frame now = (r.evictExpired now).pushFragment f now := by
  rw [push, if_neg (by simp [hv4]), hparse]

end FragmentReassembler

end Arcbox.Reassembly

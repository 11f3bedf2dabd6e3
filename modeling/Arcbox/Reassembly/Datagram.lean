import Arcbox.Reassembly.Accepted

set_option autoImplicit false

/-!
# Reassembly: a fragmented datagram comes back whole

A datagram cut into consistent fragments, and the frames that carry them.  In any
order, with repeats and among the fragments of other datagrams, the frame that
supplies the last missing fragment makes `push` return the whole datagram.
-/

namespace Arcbox.Reassembly

open Foundation List
open Foundation.Ranges
open Packet

/-- `MAX_RANGES` runs of received fragments need at most this many fragments. -/
def maxFragments : Nat := 2 * maxRanges

/-- A datagram cut into fragments: the headers of the first fragment and the
payloads of all of them. -/
structure Datagram where
  header : Header
  pieces : List Bytes
  nonempty : pieces ≠ []
  count : pieces.length ≤ maxFragments
  aligned : ∀ piece ∈ pieces.dropLast, piece ≠ [] ∧ piece.length % 8 = 0
  fits : header.ihl + pieces.flatten.length ≤ 65535

namespace Datagram

variable {d : Datagram}

/-- The key every fragment has. -/
def key (d : Datagram) : Key := keyOf d.header.bytes

/-- The payload that was cut. -/
def payload (d : Datagram) : Bytes := d.pieces.flatten

/-- Where fragment `i` starts. -/
def offset (d : Datagram) (i : Nat) : Nat := (d.pieces.take i).flatten.length

/-- The whole datagram: the first fragment's headers for an unfragmented packet of
the whole length, then the payload. -/
def whole (d : Datagram) : Bytes :=
  restoreHeader d.header.bytes (d.header.ihl + d.payload.length) ++ d.payload

/-! ## The grid of fragments -/

theorem offset_zero : d.offset 0 = 0 := rfl

theorem offset_length : d.offset d.pieces.length = d.payload.length := by
  rw [offset, take_length, payload]

variable {piece : Bytes}

variable {i : Nat}

theorem offset_succ (h : d.pieces[i]? = some piece) :
    d.offset (i + 1) = d.offset i + piece.length := by
  rw [offset, offset, take_add_one, h, flatten_append, length_append]
  simp

theorem offset_mono (d : Datagram) : Monotone d.offset := by
  refine monotone_nat_of_le_succ fun i => ?_
  rw [offset, offset, take_add_one, flatten_append, length_append]
  exact Nat.le_add_right _ _

/-- Only the last fragment can be empty. -/
theorem piece_nonempty (h : d.pieces[i]? = some piece) (hi : i + 1 < d.pieces.length) :
    piece ≠ [] ∧ piece.length % 8 = 0 := by
  refine d.aligned piece (mem_of_getElem? (i := i) ?_)
  rw [dropLast_eq_take, List.getElem?_take_of_lt (by omega), h]

theorem offset_lt {j : Nat} (hij : i < j) (hj : j < d.pieces.length) : d.offset i < d.offset j := by
  have hi : d.pieces[i]? = some d.pieces[i] := List.getElem?_eq_getElem (by omega)
  have hne := length_pos_iff.mpr (piece_nonempty hi (by omega)).1
  have hmono := d.offset_mono (show i + 1 ≤ j from hij)
  have hsucc := offset_succ hi
  omega

theorem eq_of_offset_eq {j : Nat} (hi : i < d.pieces.length) (hj : j < d.pieces.length)
    (h : d.offset i = d.offset j) : i = j := by
  rcases Nat.lt_trichotomy i j with hlt | heq | hgt
  · have := offset_lt hlt hj
    omega
  · exact heq
  · have := offset_lt hgt hi
    omega

/-- The payload around a fragment. -/
theorem payload_eq (h : d.pieces[i]? = some piece) :
    d.payload = (d.pieces.take i).flatten ++ piece ++ (d.pieces.drop (i + 1)).flatten := by
  obtain ⟨hi, rfl⟩ := List.getElem?_eq_some_iff.mp h
  conv_lhs => rw [payload, ← take_append_drop i d.pieces, drop_eq_getElem_cons hi]
  rw [flatten_append, flatten_cons, append_assoc]

/-- A fragment is its slice of the payload. -/
theorem slice_payload (h : d.pieces[i]? = some piece) :
    (d.payload.take (d.offset (i + 1))).drop (d.offset i) = piece := by
  have hstart : (d.pieces.take i).flatten.length = d.offset i := rfl
  rw [payload_eq h, take_left' (by rw [offset_succ h, length_append, hstart]),
    drop_left' hstart]

/-! ## The whole datagram -/

/-- The frame of the datagram, unfragmented: the original payload after the first
fragment's headers, in which the total length is the datagram's, the fragment field
is zero, the checksum verifies and every other byte is as it was. -/
structure Reassembles (d : Datagram) (out : Bytes) : Prop where
  payload : ipPayload out = d.payload
  headers : out.take d.header.bytes.length ++ d.payload = out
  total : (fieldAt out (ethHeaderLen + 2)).toNat = d.header.ihl + d.payload.length
  fragment : fieldAt out (ethHeaderLen + 6) = 0
  checksum : HeaderVerifies ((out.take d.header.bytes.length).drop ethHeaderLen)
  rest : ∀ i < d.header.bytes.length,
    (i ≠ ethHeaderLen + 2 ∧ i ≠ ethHeaderLen + 3) → (i ≠ ethHeaderLen + 6 ∧ i ≠ ethHeaderLen + 7) →
    (i ≠ ethHeaderLen + 10 ∧ i ≠ ethHeaderLen + 11) → out[i]? = d.header.bytes[i]?

theorem whole_reassembles (d : Datagram) : d.Reassembles d.whole := by
  have hle := d.header.le_length
  have hlen := @length_restoreHeader d.header.bytes (d.header.ihl + d.payload.length) hle
  have htake : d.whole.take d.header.bytes.length
      = restoreHeader d.header.bytes (d.header.ihl + d.payload.length) := by
    rw [whole, take_left' hlen]
  have hrebuilt : d.whole = rebuildFrame d.header d.payload d.payload.length := by
    rw [rebuildFrame_eq, take_length, whole]
  have hfits : d.header.ihl + d.payload.length ≤ 65535 := d.fits
  constructor
  · rw [hrebuilt, ipPayload_rebuildFrame, take_length]
  · rw [htake, whole]
  · rw [whole, fieldAt_append (by rw [hlen]; omega), fieldAt_restoreHeader_total hle,
      BitVec.toNat_ofNat, Nat.mod_eq_of_lt (by omega)]
  · rw [whole, fieldAt_append (by rw [hlen]; omega), fieldAt_restoreHeader_fragment hle]
  · rw [htake]
    exact headerVerifies_restoreHeader hle d.header.even_length
  · intro i hi hlength hfrag hsum
    rw [whole, List.getElem?_append_left (by rw [hlen]; exact hi),
      getElem?_restoreHeader hle hlength hfrag hsum]

/-! ## Frames that carry a fragment -/

/-- The headers of a frame that carries `piece` as fragment `i`. -/
structure FragmentHeader (d : Datagram) (i : Nat) (piece : Bytes) (header : Header) : Prop where
  version : isIpv6 header.bytes = false
  key : keyOf header.bytes = d.key
  total : (fieldAt header.bytes (ethHeaderLen + 2)).toNat = header.ihl + piece.length
  more : (fieldAt header.bytes (ethHeaderLen + 6) &&& 0x2000 != 0) = decide (i + 1 < d.pieces.length)
  offset : (fieldAt header.bytes (ethHeaderLen + 6) &&& 0x1FFF).toNat * 8 = d.offset i
  first : i = 0 → header = d.header

/-- The frame carries fragment `i`: headers, the fragment's payload, perhaps
Ethernet padding. -/
def IsFragment (d : Datagram) (i : Nat) (frame : Bytes) : Prop :=
  ∃ header piece padding, d.pieces[i]? = some piece ∧ d.FragmentHeader i piece header
    ∧ frame = header.bytes ++ piece ++ padding

/-- What `push` reads off such a frame. -/
structure Piece (d : Datagram) (i : Nat) (f : Fragment) : Prop where
  data : d.pieces[i]? = some f.data
  key : f.key = d.key
  offset : f.offset = d.offset i
  more : f.more = decide (i + 1 < d.pieces.length)
  first : i = 0 → f.header = d.header

theorem Piece.lt {f : Fragment} (h : d.Piece i f) : i < d.pieces.length :=
  (List.getElem?_eq_some_iff.mp h.data).1

theorem Piece.stop {f : Fragment} (h : d.Piece i f) : f.stop = d.offset (i + 1) := by
  rw [Fragment.stop, offset_succ h.data, h.offset]

/-- A frame of fragment `i` is read as fragment `i`. -/
theorem IsFragment.parse {frame : Bytes} (h : d.IsFragment i frame) :
    isIpv6 frame = false ∧ ∃ f, Fragment.parse frame = some f ∧ d.Piece i f := by
  obtain ⟨header, piece, padding, hpiece, hheader, hframe⟩ := h
  have hle := header.le_length
  have hlen := header.length_bytes
  have hihl : header.ihl = ihlOf header.bytes := by rw [Header.ihl, hlen]; omega
  rw [append_assoc] at hframe
  have hihl' : ihlOf frame = ihlOf header.bytes := by
    rw [hframe, ihlOf, ihlOf, getD_append (by omega)]
  have htotal : (fieldAt frame (ethHeaderLen + 2)).toNat = ihlOf header.bytes + piece.length := by
    rw [hframe, fieldAt_append (by omega), hheader.total, hihl]
  have hflags : fieldAt frame (ethHeaderLen + 6) = fieldAt header.bytes (ethHeaderLen + 6) := by
    rw [hframe, fieldAt_append (by omega)]
  have hdata : (frame.take (ethHeaderLen + (fieldAt frame (ethHeaderLen + 2)).toNat)).drop
      (ethHeaderLen + ihlOf frame) = piece := by
    rw [htotal, hihl', hframe, ← append_assoc,
      take_left' (by rw [length_append, hlen]; omega), drop_left' hlen]
  have hlength : frame.length = ethHeaderLen + ihlOf header.bytes + piece.length + padding.length := by
    rw [hframe, length_append, length_append, hlen]
    omega
  have hmin := header.min_length
  refine ⟨?_, ?_⟩
  · rw [isIpv6, hframe, List.getElem?_append_left (by omega)]
    exact hheader.version
  rw [Fragment.parse, if_neg (by omega), dif_neg (by rw [htotal, hihl']; omega), if_neg]
  · refine ⟨_, rfl, ?_⟩
    constructor
    · exact hdata.symm ▸ hpiece
    · show keyOf frame = d.key
      rw [hframe, keyOf_append hle, hheader.key]
    · rw [hflags, hheader.offset]
    · rw [hflags, hheader.more]
    intro hfirst
    rw [← hheader.first hfirst]
    refine Header.ext ?_
    show frame.take (ethHeaderLen + ihlOf frame) = header.bytes
    rw [hihl', hframe, take_left' hlen]
  rw [hdata, hflags, hheader.more, decide_eq_true_eq]
  rintro ⟨hmore, hbad⟩
  obtain ⟨hne, haligned⟩ := piece_nonempty hpiece hmore
  exact hbad.elim hne fun h => h haligned

/-! ## Collecting the fragments

The entry is the record of fragments of `d`, and its ranges are runs of whole
fragments. -/

/-- The entry holds the fragments `accepted` of the datagram and nothing else. -/
structure Collects (d : Datagram) (e : Entry) (accepted : List Fragment) : Prop where
  records : Records e accepted
  pieces : ∀ f ∈ accepted, ∃ i, d.Piece i f
  grid : ∀ r ∈ e.ranges, OnGrid d.offset d.pieces.length r

theorem collects_new (now : Nat) : d.Collects (Entry.new now) [] where
  records := records_new now
  pieces := by simp
  grid := by simp [Entry.new]

section Collect

variable {e e' : Entry} {accepted : List Fragment} {f : Fragment}

theorem Piece.stop_le (h : d.Piece i f) : f.stop ≤ d.payload.length := by
  rw [h.stop, ← offset_length]
  exact d.offset_mono h.lt

/-- The final fragment ends where the payload does. -/
theorem Piece.stop_of_final (h : d.Piece i f) (hfinal : f.more = false) :
    i + 1 = d.pieces.length ∧ f.stop = d.payload.length := by
  have hlt := h.lt
  have hmore := h.more
  rw [hfinal, eq_comm, decide_eq_false_iff_not] at hmore
  have hlast : i + 1 = d.pieces.length := by omega
  exact ⟨hlast, by rw [h.stop, hlast, offset_length]⟩

theorem Piece.getElem? (h : d.Piece i f) {p : Nat} (hp : f.Carries p) :
    d.payload[p]? = f.data[p - f.offset]? := by
  have hlo := hp.1
  have hhi := hp.2
  rw [← slice_payload h.data, List.getElem?_drop, List.getElem?_take_of_lt
    (by rw [← h.stop, ← h.offset]; omega), ← h.offset]
  congr 1
  omega

section

variable (h : d.Collects e accepted)

include h

/-- A known total length is the datagram's. -/
theorem Collects.totalLen {total : Nat} (htotal : e.totalLen = some total) :
    total = d.payload.length := by
  obtain ⟨g, hg, hfinal⟩ := h.records.total_origin total htotal
  obtain ⟨j, hj⟩ := h.pieces g hg
  have hstop := h.records.total_some g hg hfinal
  rw [htotal, Option.some.injEq] at hstop
  rw [hstop, (hj.stop_of_final hfinal).2]

variable {r : Nat × Nat}

/-- Received positions hold the payload's bytes. -/
theorem Collects.getElem? (hr : r ∈ e.ranges) {p : Nat} (hlo : r.1 ≤ p) (hhi : p < r.2) :
    e.payload[p]? = d.payload[p]? := by
  obtain ⟨g, hg, hcarries⟩ := h.records.origin r hr p hlo hhi
  obtain ⟨j, hj⟩ := h.pieces g hg
  rw [getElem?_of_stored (h.records.bytes g hg) hcarries, hj.getElem? hcarries]

/-- A fragment inside a received range repeats what is there. -/
theorem Collects.stored (hf : d.Piece i f) (hr : r ∈ e.ranges) (hin : f.Inside r) :
    e.stored f = f.data := by
  have hslice := slice_payload hf.data
  rw [← hf.stop, ← hf.offset] at hslice
  rw [← hslice, Entry.stored]
  refine slice_congr fun p hlo hhi => h.getElem? hr ?_ ?_
  · exact hin.1.trans hlo
  · exact hhi.trans_le hin.2

/-- Inserting a fragment keeps the ranges runs of fragments, hence below the cap. -/
theorem Collects.insert (hf : d.Piece i f) :
    (∀ r ∈ Ranges.insert e.ranges f.offset f.stop, OnGrid d.offset d.pieces.length r)
      ∧ (Ranges.insert e.ranges f.offset f.stop).length ≤ maxRanges := by
  have hgrid : ∀ r ∈ Ranges.insert e.ranges f.offset f.stop,
      OnGrid d.offset d.pieces.length r :=
    h.records.separated.forall_mem_insert (joinClosed_onGrid d.offset_mono) h.grid
      ⟨i, i, Nat.le_refl i, hf.lt, by rw [hf.offset, hf.stop]⟩
  refine ⟨hgrid, ?_⟩
  have hruns := Separated.length_le_of_onGrid d.offset_mono
    (h.records.separated.insert f.offset_le_stop).gap hgrid
  have hcount := d.count
  rw [maxFragments] at hcount
  omega

/-- A fragment of the datagram is always taken in. -/
theorem Collects.exists_accept (hf : d.Piece i f) : ∃ e', e.accept f = some e' := by
  have hagrees : f.more = false → e.totalLen = none ∨ e.totalLen = some f.stop := by
    intro hfinal
    cases htotal : e.totalLen with
    | none => exact .inl rfl
    | some total => rw [(hf.stop_of_final hfinal).2, h.totalLen htotal]; exact .inr rfl
  have hwithin : ∀ total, (e.prepare f).totalLen = some total → f.stop ≤ total := by
    intro total htotal
    rw [prepare_totalLen] at htotal
    split at htotal
    · rw [h.totalLen htotal]
      exact hf.stop_le
    · exact Nat.le_of_eq (Option.some.inj htotal)
  by_cases hmeets : ∃ r ∈ e.ranges, f.Meets r
  · obtain ⟨r, hr, hm⟩ := hmeets
    have hinside : ∀ x ∈ e.ranges, f.Meets x → f.Inside x := by
      intro x hx hxm
      rw [Fragment.Meets, hf.offset, hf.stop] at hxm
      rw [Fragment.Inside, hf.offset, hf.stop]
      exact (h.grid x hx).contains d.offset_mono hxm.1 hxm.2
    refine ⟨e.prepare f, accept_eq_some_iff.mpr ⟨hagrees, hwithin, place_eq_some_iff.mpr
      (.inr ⟨?_, ?_, ?_, rfl⟩)⟩⟩
    · rw [prepare_ranges]
      exact ⟨r, hr, hm⟩
    · rw [prepare_ranges]
      exact hinside
    · rw [stored_eq_of_payload_eq prepare_payload]
      exact h.stored hf hr (hinside r hr hm)
  · refine ⟨(e.prepare f).store f, accept_eq_some_iff.mpr ⟨hagrees, hwithin,
      place_eq_some_iff.mpr (.inl ⟨?_, ?_, rfl⟩)⟩⟩
    · rw [prepare_ranges]
      exact fun r hr hm => hmeets ⟨r, hr, hm⟩
    · show (Ranges.insert (e.prepare f).ranges f.offset f.stop).length ≤ maxRanges
      rw [prepare_ranges]
      exact (h.insert hf).2

/-- The entry that took a fragment of the datagram in still collects it. -/
theorem Collects.accept (hf : d.Piece i f) (haccept : e.accept f = some e') :
    d.Collects e' (accepted ++ [f]) where
  records := h.records.accept haccept
  pieces := forall_mem_append.mpr ⟨h.pieces, forall_mem_singleton.mpr ⟨i, hf⟩⟩
  grid := by
    rcases place_eq_some_iff.mp (accept_eq_some_iff.mp haccept).2.2 with
      ⟨-, -, rfl⟩ | ⟨-, -, -, rfl⟩
    · show ∀ r ∈ Ranges.insert (e.prepare f).ranges f.offset f.stop, _
      rw [prepare_ranges]
      exact (h.insert hf).1
    · rw [prepare_ranges]
      exact h.grid

/-- A range of the entry lies inside the payload. -/
theorem Collects.stop_le (hr : r ∈ e.ranges) : r.2 ≤ d.payload.length := by
  obtain ⟨a, b, -, hb, rfl⟩ := h.grid r hr
  rw [← offset_length]
  exact d.offset_mono hb

/-- A complete entry has every fragment. -/
theorem Collects.supplied (hcomplete : e.isComplete = true) (j : Nat) (hj : j < d.pieces.length) :
    ∃ g ∈ accepted, d.Piece j g := by
  obtain ⟨header, total, -, htotal, hranges⟩ := isComplete_iff.mp hcomplete
  have hwhole : (0, total) ∈ e.ranges := by rw [hranges]; exact mem_singleton_self _
  rcases Nat.lt_or_ge (j + 1) d.pieces.length with hmiddle | hlast
  · -- a fragment that is not the last has a first byte, which some accepted one carries
    have hlt := offset_lt (Nat.lt_succ_self j) hmiddle
    have hpos : d.offset j < total := by
      rw [h.totalLen htotal, ← offset_length]
      exact hlt.trans_le (d.offset_mono hmiddle.le)
    obtain ⟨g, hg, hlo, hhi⟩ := h.records.origin _ hwhole (d.offset j) (Nat.zero_le _) hpos
    obtain ⟨k, hk⟩ := h.pieces g hg
    rw [hk.offset] at hlo
    rw [hk.stop] at hhi
    have hjk : j < k + 1 := d.offset_mono.reflect_lt hhi
    have hkj : k < j + 1 := d.offset_mono.reflect_lt (hlo.trans_lt hlt)
    obtain rfl : j = k := by omega
    exact ⟨g, hg, hk⟩
  · obtain ⟨g, hg, hfinal⟩ := h.records.total_origin total htotal
    obtain ⟨k, hk⟩ := h.pieces g hg
    have hkl := (hk.stop_of_final hfinal).1
    obtain rfl : j = k := by omega
    exact ⟨g, hg, hk⟩

/-- An entry with every fragment is complete. -/
theorem Collects.isComplete (hall : ∀ j < d.pieces.length, ∃ g ∈ accepted, d.Piece j g) :
    e.isComplete = true := by
  have hpos : 0 < d.pieces.length := length_pos_iff.mpr d.nonempty
  obtain ⟨first, hfirst, hfirstPiece⟩ := hall 0 hpos
  obtain ⟨last, hlast, hlastPiece⟩ := hall (d.pieces.length - 1) (by omega)
  have hheader := h.records.header_some first hfirst (by rw [hfirstPiece.offset, offset_zero])
  have hfinal : last.more = false := by
    rw [hlastPiece.more, decide_eq_false_iff_not]
    omega
  have htotal := h.records.total_some last hlast hfinal
  rw [(hlastPiece.stop_of_final hfinal).2] at htotal
  obtain ⟨header, hheader⟩ := Option.ne_none_iff_exists'.mp hheader
  refine isComplete_iff.mpr ⟨header, d.payload.length, hheader, htotal, ?_⟩
  refine h.records.separated.eq_singleton ?_ ?_ ?_
  · obtain ⟨r, hr, -⟩ := h.records.inside first hfirst
    exact ne_nil_of_mem hr
  · exact fun r hr => ⟨Nat.zero_le _, h.stop_le hr⟩
  intro p _ hp
  rw [← offset_length] at hp
  obtain ⟨j, hj, hlo, hhi⟩ := exists_cell (Nat.zero_le p) hp
  obtain ⟨g, hg, hgPiece⟩ := hall j hj
  obtain ⟨r, hr, hrlo, hrhi⟩ := h.records.inside g hg
  rw [hgPiece.offset] at hrlo
  rw [hgPiece.stop] at hrhi
  exact ⟨r, hr, hrlo.trans hlo, hhi.trans_le hrhi⟩

theorem Collects.finish (hcomplete : e.isComplete = true) : e.finish = some d.whole := by
  obtain ⟨header, total, hheader, htotal, hranges⟩ := isComplete_iff.mp hcomplete
  have hwhole : (0, total) ∈ e.ranges := by rw [hranges]; exact mem_singleton_self _
  have hheaderEq : header = d.header := by
    obtain ⟨g, hg, hoffset, hgHeader⟩ := h.records.header_origin header hheader
    obtain ⟨j, hj⟩ := h.pieces g hg
    have hjzero : j = 0 := eq_of_offset_eq hj.lt ((Nat.zero_le j).trans_lt hj.lt)
      (by rw [← hj.offset, hoffset, offset_zero])
    rw [← hgHeader, hj.first hjzero]
  have htotalEq := h.totalLen htotal
  have hpayload : e.payload.take total = d.payload := by
    rw [htotalEq]
    refine ext_getElem? fun p => ?_
    rcases Nat.lt_or_ge p d.payload.length with hp | hp
    · rw [List.getElem?_take_of_lt hp, h.getElem? hwhole (Nat.zero_le p) (by omega)]
    · rw [List.getElem?_eq_none (by rw [length_take]; omega), List.getElem?_eq_none hp]
  have hfits : ¬d.header.ihl + d.payload.length > 65535 := Nat.not_lt_of_ge d.fits
  rw [Entry.finish, hheader, htotal]
  dsimp only
  rw [hheaderEq, htotalEq, if_neg hfits, rebuildFrame_eq, ← htotalEq, hpayload, htotalEq, whole]

end

end Collect

end Datagram

end Arcbox.Reassembly

import Arcbox.Packet.Udp
import Arcbox.Reassembly.Correct

set_option autoImplicit false

/-!
# Reassembly: the UDP builder's fragments

The builder that fragments (`udp.rs`) and the reassembler (`fragment.rs`) meet in
the bytes of the IPv4 header.  The fragments of one datagram, pushed in any order,
come back as the frame the builder makes when nothing has to be fragmented.
-/

namespace Arcbox.Reassembly

open Foundation List Nat
open Packet
open Packet.Udp

section Header

variable (srcIp dstIp : Ipv4Addr) (ipId : BitVec 16) (offset : Nat) (more : Bool) (len : Nat)
  (srcMac dstMac : Mac)

theorem getD_frameHeader (k : Nat) :
    (frameHeader srcIp dstIp ipId offset more len srcMac dstMac).getD (ethHeaderLen + k) 0
      = (ipv4Header (BitVec.ofNat 16 (20 + len)) ipId (flagsFrag offset more) 17 srcIp dstIp).getD
          k 0 := by
  have hlen := length_ethernetHeader dstMac srcMac (show [(0x08 : UInt8), 0x00].length = 2 from rfl)
  rw [frameHeader, getD_eq_getElem?_getD, getD_eq_getElem?_getD,
    getElem?_append_right (by rw [hlen, ethHeaderLen]; omega), hlen, ethHeaderLen,
    Nat.add_sub_cancel_left]

theorem ihlOf_frameHeader :
    ihlOf (frameHeader srcIp dstIp ipId offset more len srcMac dstMac) = 20 := by
  have hfirst : (ipv4Header (BitVec.ofNat 16 (20 + len)) ipId (flagsFrag offset more) 17 srcIp
      dstIp).getD 0 0 = 0x45 := rfl
  rw [ihlOf, ← add_zero ethHeaderLen, getD_frameHeader, hfirst]
  rfl

theorem fieldAt_frameHeader_total :
    fieldAt (frameHeader srcIp dstIp ipId offset more len srcMac dstMac) (ethHeaderLen + 2)
      = BitVec.ofNat 16 (20 + len) := by
  rw [fieldAt, getD_frameHeader, add_assoc, getD_frameHeader]
  exact be16_beBytes16 _

theorem fieldAt_frameHeader_fragment :
    fieldAt (frameHeader srcIp dstIp ipId offset more len srcMac dstMac) (ethHeaderLen + 6)
      = flagsFrag offset more := by
  rw [fieldAt, getD_frameHeader, add_assoc, getD_frameHeader]
  exact be16_beBytes16 _

theorem keyOf_frameHeader :
    keyOf (frameHeader srcIp dstIp ipId offset more len srcMac dstMac) = ⟨srcIp, dstIp, 17, ipId⟩ := by
  simp only [keyOf, getD_frameHeader, Key.mk.injEq]
  exact ⟨rfl, rfl, rfl, be16_beBytes16 _⟩

theorem isIpv6_frameHeader :
    isIpv6 (frameHeader srcIp dstIp ipId offset more len srcMac dstMac) = false := by
  have hlen := length_ethernetHeader dstMac srcMac (show [(0x08 : UInt8), 0x00].length = 2 from rfl)
  rw [isIpv6, frameHeader, getElem?_append_right (by rw [hlen, ethHeaderLen]), hlen]
  rfl

/-- The headers of a built frame. -/
def builtHeader : Header where
  bytes := frameHeader srcIp dstIp ipId offset more len srcMac dstMac
  length_bytes := by rw [ihlOf_frameHeader, length_frameHeader, ethHeaderLen]
  min_length := by rw [ihlOf_frameHeader]

/-- An Ethernet and an IPv4 header with the given total length, fragment field and
checksum. -/
def rawHeader (eth addresses : Bytes) (ipId total flags cksum : BitVec 16) : Bytes :=
  eth ++ ([0x45, 0] ++ beBytes16 total ++ beBytes16 ipId ++ beBytes16 flags ++ [64, 17]
    ++ beBytes16 cksum ++ addresses)

theorem frameHeader_eq : frameHeader srcIp dstIp ipId offset more len srcMac dstMac
    = rawHeader (ethernetHeader dstMac srcMac [0x08, 0x00]) (srcIp.octets ++ dstIp.octets) ipId
      (BitVec.ofNat 16 (20 + len)) (flagsFrag offset more)
      (ipv4HeaderChecksum ((rawHeader [] (srcIp.octets ++ dstIp.octets) ipId
        (BitVec.ofNat 16 (20 + len)) (flagsFrag offset more) 0))) := rfl

section Raw

variable {eth addresses : Bytes} {total flags cksum : BitVec 16} (heth : eth.length = ethHeaderLen)

include heth

theorem overwrite_rawHeader_total (total' : BitVec 16) :
    overwrite (rawHeader eth addresses ipId total flags cksum) (ethHeaderLen + 2)
      (beBytes16 total') = rawHeader eth addresses ipId total' flags cksum := by
  have hparts : ∀ t, rawHeader eth addresses ipId t flags cksum
      = (eth ++ [0x45, 0]) ++ beBytes16 t ++ (beBytes16 ipId ++ beBytes16 flags ++ [64, 17]
        ++ beBytes16 cksum ++ addresses) := by
    intro t
    simp only [rawHeader, append_assoc]
  rw [hparts, hparts, overwrite_beBytes16 (by rw [length_append, heth]; rfl)]

theorem overwrite_rawHeader_fragment (flags' : BitVec 16) :
    overwrite (rawHeader eth addresses ipId total flags cksum) (ethHeaderLen + 6)
      (beBytes16 flags') = rawHeader eth addresses ipId total flags' cksum := by
  have hparts : ∀ f, rawHeader eth addresses ipId total f cksum
      = (eth ++ ([0x45, 0] ++ beBytes16 total ++ beBytes16 ipId)) ++ beBytes16 f
        ++ ([64, 17] ++ beBytes16 cksum ++ addresses) := by
    intro f
    simp only [rawHeader, append_assoc]
  rw [hparts, hparts, overwrite_beBytes16 (by rw [length_append, heth]; rfl)]

theorem overwrite_rawHeader_checksum (cksum' : BitVec 16) :
    overwrite (rawHeader eth addresses ipId total flags cksum) (ethHeaderLen + 10)
      (beBytes16 cksum') = rawHeader eth addresses ipId total flags cksum' := by
  have hparts : ∀ c, rawHeader eth addresses ipId total flags c
      = (eth ++ ([0x45, 0] ++ beBytes16 total ++ beBytes16 ipId ++ beBytes16 flags ++ [64, 17]))
        ++ beBytes16 c ++ addresses := by
    intro c
    simp only [rawHeader, append_assoc]
  rw [hparts, hparts, overwrite_beBytes16 (by rw [length_append, heth]; rfl)]

end Raw

theorem restoreHeader_frameHeader (n : Nat) :
    restoreHeader (frameHeader srcIp dstIp ipId offset more len srcMac dstMac) (20 + n)
      = frameHeader srcIp dstIp ipId 0 false n srcMac dstMac := by
  have heth : (ethernetHeader dstMac srcMac [0x08, 0x00]).length = ethHeaderLen :=
    length_ethernetHeader _ _ rfl
  have hzero : ([0, 0] : Bytes) = beBytes16 0 := rfl
  rw [restoreHeader, unfragmented, frameHeader_eq, hzero, overwrite_rawHeader_total _ heth,
    overwrite_rawHeader_fragment _ heth, overwrite_rawHeader_checksum _ heth,
    overwrite_rawHeader_checksum _ heth, frameHeader_eq]
  rw [show (flagsFrag 0 false) = 0 from rfl]
  congr 2
  rw [rawHeader, drop_left' heth]
  rfl

end Header

/-! ## The fragments of one call -/

/-- The arguments of a call that may fragment: a payload that fits a datagram, an
MTU that keeps the fragments below the reassembler's cap. -/
structure Call where
  srcIp : Ipv4Addr
  dstIp : Ipv4Addr
  srcPort : BitVec 16
  dstPort : BitVec 16
  payload : Bytes
  srcMac : Mac
  dstMac : Mac
  mtu : Nat
  ipId : BitVec 16
  payload_le : payload.length ≤ maxUdpPayload
  le_mtu : 548 ≤ mtu

variable {part : Nat × Bytes}
variable {frame : Bytes}

namespace Call

variable (c : Call)

/-- The IP payload to be cut. -/
def datagram : Bytes := udpDatagram c.srcIp c.dstIp c.srcPort c.dstPort c.payload

/-- The pieces with their offsets. -/
def parts : List (Nat × Bytes) := chunks (fragmentChunk c.mtu) c.datagram

/-- The headers of the frame for a piece. -/
def partHeader (part : Nat × Bytes) : Header :=
  builtHeader c.srcIp c.dstIp c.ipId part.1 (decide (part.1 + part.2.length < 8 + c.payload.length))
    part.2.length c.srcMac c.dstMac

/-- The frame for a piece. -/
def partFrame (part : Nat × Bytes) : Bytes :=
  Udp.buildFrame c.srcIp c.dstIp c.ipId part.1 (decide (part.1 + part.2.length < 8 + c.payload.length))
    part.2 c.srcMac c.dstMac

/-- The frame of the datagram when nothing is fragmented. -/
def wholeFrame : Bytes := Udp.buildFrame c.srcIp c.dstIp c.ipId 0 false c.datagram c.srcMac c.dstMac

theorem length_datagram : c.datagram.length = 8 + c.payload.length := length_udpDatagram _ _ _ _ _

theorem length_datagram_le : c.datagram.length ≤ 65515 := by
  have hle := c.payload_le
  rw [maxUdpPayload] at hle
  rw [length_datagram]
  omega

theorem chunk_bounds : 528 ≤ fragmentChunk c.mtu ∧ fragmentChunk c.mtu ≤ c.mtu - 20
    ∧ fragmentChunk c.mtu % 8 = 0 := by
  have hmtu := c.le_mtu
  rw [fragmentChunk]
  omega

theorem chunk_pos : 0 < fragmentChunk c.mtu := lt_of_lt_of_le (by decide) c.chunk_bounds.1

theorem length_parts_le : c.parts.length ≤ maxFragments := by
  have hlen := c.length_datagram_le
  have hchunk := c.chunk_bounds.1
  rw [parts, length_chunks]
  refine le_of_lt_succ ((div_lt_iff_lt_mul c.chunk_pos).mpr ?_)
  rw [maxFragments, maxRanges]
  omega

variable {i : Nat}

/-- Piece `i`: its offset, and that it is full unless it is the last. -/
theorem part_eq (h : c.parts[i]? = some part) :
    part = (i * fragmentChunk c.mtu,
        (c.datagram.drop (i * fragmentChunk c.mtu)).take (fragmentChunk c.mtu))
      ∧ i * fragmentChunk c.mtu < c.datagram.length := by
  have hi := (List.getElem?_eq_some_iff.mp h).1
  rw [parts, getElem?_chunks hi, Option.some.injEq] at h
  exact ⟨h.symm, (lt_length_chunks_iff c.chunk_pos).mp hi⟩

/-- Offsets are in whole units and fit the 13-bit field. -/
theorem part_offset (h : part ∈ c.parts) : part.1 % 8 = 0 ∧ part.1 / 8 < 2 ^ 13 := by
  obtain ⟨i, hi, rfl⟩ := (mem_chunks_iff c.chunk_pos).mp h
  have hlen := c.length_datagram_le
  refine ⟨?_, by omega⟩
  rw [Nat.mul_mod, c.chunk_bounds.2.2, Nat.mul_zero]

theorem length_part_le (h : part ∈ c.parts) : part.2.length ≤ fragmentChunk c.mtu := by
  obtain ⟨i, hi, rfl⟩ := (mem_chunks_iff c.chunk_pos).mp h
  exact length_take_le _ _

theorem length_part (h : c.parts[i]? = some part) :
    part.2.length = min (fragmentChunk c.mtu) (c.datagram.length - i * fragmentChunk c.mtu) := by
  rw [(c.part_eq h).1, length_take, length_drop]

/-- More fragments follow every piece but the last. -/
theorem more_iff (h : c.parts[i]? = some part) :
    part.1 + part.2.length < 8 + c.payload.length ↔ i + 1 < c.parts.length := by
  obtain ⟨hpart, hi⟩ := c.part_eq h
  have hlen := c.length_part h
  have hoffset : part.1 = i * fragmentChunk c.mtu := by rw [hpart]
  rw [parts, lt_length_chunks_iff c.chunk_pos, succ_mul, hoffset, hlen, ← length_datagram]
  omega

theorem parts_pos : 0 < c.parts.length := by
  rw [parts, lt_length_chunks_iff c.chunk_pos, length_datagram]
  omega

/-- The first piece. -/
def firstPart : Nat × Bytes := (0, c.datagram.take (fragmentChunk c.mtu))

theorem getElem?_parts_zero : c.parts[0]? = some c.firstPart := by
  rw [parts, getElem?_chunks c.parts_pos, zero_mul, drop_zero, firstPart]

theorem ihl_partHeader (part : Nat × Bytes) : (c.partHeader part).ihl = 20 := by
  show (frameHeader _ _ _ _ _ _ _ _).length - ethHeaderLen = 20
  rw [length_frameHeader]
  rfl

/-- The fragmented datagram, as the reassembler sees it. -/
def toDatagram : Datagram where
  header := c.partHeader c.firstPart
  pieces := c.parts.map Prod.snd
  nonempty := by
    have hpos := c.parts_pos
    intro hnil
    rw [map_eq_nil_iff] at hnil
    simp [hnil] at hpos
  count := by
    rw [length_map]
    exact c.length_parts_le
  aligned := by
    intro piece hpiece
    obtain ⟨i, hi, rfl⟩ := mem_iff_getElem.mp hpiece
    rw [length_dropLast, length_map] at hi
    have hpart : c.parts[i]? = some c.parts[i] := List.getElem?_eq_getElem (by omega)
    have hnext : (i + 1) * fragmentChunk c.mtu < c.datagram.length :=
      (lt_length_chunks_iff c.chunk_pos).mp (show i + 1 < c.parts.length by omega)
    have hfull : (c.parts[i]).2.length = fragmentChunk c.mtu := by
      rw [c.length_part hpart]
      rw [Nat.succ_mul] at hnext
      omega
    have hbounds := c.chunk_bounds
    rw [getElem_dropLast, getElem_map]
    refine ⟨ne_nil_of_length_pos ?_, by rw [hfull]; exact hbounds.2.2⟩
    omega
  fits := by
    have hlen := c.length_datagram_le
    rw [ihl_partHeader, parts, flatten_chunks c.chunk_pos]
    omega

theorem payload_toDatagram : c.toDatagram.payload = c.datagram :=
  flatten_chunks c.chunk_pos c.datagram

theorem offset_toDatagram (hi : i < c.parts.length) :
    c.toDatagram.offset i = i * fragmentChunk c.mtu := by
  have hlt : i * fragmentChunk c.mtu < c.datagram.length :=
    (lt_length_chunks_iff c.chunk_pos).mp hi
  show ((c.parts.map Prod.snd).take i).flatten.length = _
  rw [parts, flatten_take_chunks hi.le, length_take, min_eq_left hlt.le]

theorem whole_toDatagram : c.toDatagram.whole = c.wholeFrame := by
  have hbytes : c.toDatagram.header.bytes = frameHeader c.srcIp c.dstIp c.ipId c.firstPart.1
      (decide (c.firstPart.1 + c.firstPart.2.length < 8 + c.payload.length))
      c.firstPart.2.length c.srcMac c.dstMac := rfl
  have hihl : c.toDatagram.header.ihl = 20 := c.ihl_partHeader c.firstPart
  rw [Datagram.whole, hbytes, hihl, payload_toDatagram, restoreHeader_frameHeader]
  rfl

/-- Every frame of the call carries its fragment. -/
theorem isFragment_partFrame (h : c.parts[i]? = some part) :
    c.toDatagram.IsFragment i (c.partFrame part) := by
  have hmem : part ∈ c.parts := mem_of_getElem? h
  have hi : i < c.parts.length := (List.getElem?_eq_some_iff.mp h).1
  obtain ⟨haligned, hfield⟩ := c.part_offset hmem
  have hlen := c.length_part h
  have hsmall := c.length_datagram_le
  refine ⟨c.partHeader part, part.2, [], ?_, ⟨?_, ?_, ?_, ?_, ?_, ?_⟩, ?_⟩
  · show (c.parts.map Prod.snd)[i]? = some part.2
    rw [getElem?_map, h, Option.map_some]
  · exact isIpv6_frameHeader _ _ _ _ _ _ _ _
  · exact (keyOf_frameHeader _ _ _ _ _ _ _ _).trans (keyOf_frameHeader _ _ _ _ _ _ _ _).symm
  · rw [ihl_partHeader, show (c.partHeader part).bytes = frameHeader _ _ _ _ _ _ _ _ from rfl,
      fieldAt_frameHeader_total, BitVec.toNat_ofNat, mod_eq_of_lt (by omega)]
  · rw [show (c.partHeader part).bytes = frameHeader _ _ _ _ _ _ _ _ from rfl,
      fieldAt_frameHeader_fragment, flagsFrag_more hfield]
    have hcount : c.toDatagram.pieces.length = c.parts.length := length_map _
    rw [hcount]
    exact decide_eq_decide.mpr (c.more_iff h)
  · rw [show (c.partHeader part).bytes = frameHeader _ _ _ _ _ _ _ _ from rfl,
      fieldAt_frameHeader_fragment, flagsFrag_offset hfield, c.offset_toDatagram hi]
    have hoffset : part.1 = i * fragmentChunk c.mtu := by rw [(c.part_eq h).1]
    omega
  · rintro rfl
    rw [getElem?_parts_zero, Option.some.injEq] at h
    rw [← h]
    rfl
  · rw [append_nil]
    rfl

/-! ## The call and its frames -/

theorem mem_frames_iff : frame ∈ c.parts.map c.partFrame ↔
    ∃ (i : Nat) (part : Nat × Bytes), c.parts[i]? = some part ∧ c.partFrame part = frame := by
  rw [mem_map]
  constructor
  · rintro ⟨part, hpart, rfl⟩
    obtain ⟨i, hi⟩ := mem_iff_getElem?.mp hpart
    exact ⟨i, part, hi, rfl⟩
  · rintro ⟨i, part, hi, rfl⟩
    exact ⟨part, mem_of_getElem? hi, rfl⟩

/-- No two frames of a call are equal. -/
theorem nodup_frames : (c.parts.map c.partFrame).Nodup := by
  rw [nodup_iff_getElem?_ne_getElem?]
  intro i j hij hj heq
  rw [length_map] at hj
  have hpi : c.parts[i]? = some (c.parts[i]) := getElem?_eq_getElem (by omega)
  have hpj : c.parts[j]? = some (c.parts[j]) := getElem?_eq_getElem hj
  rw [getElem?_map, getElem?_map, hpi, hpj, Option.map_some, Option.map_some,
    Option.some.injEq] at heq
  have hfrag := c.isFragment_partFrame hpi
  rw [heq] at hfrag
  have := hfrag.index_unique (c.isFragment_partFrame hpj)
  omega

/-- One frame of a call carries a given fragment. -/
theorem frame_unique {frame' : Bytes} (hframe : frame ∈ c.parts.map c.partFrame)
    (hframe' : frame' ∈ c.parts.map c.partFrame) (h : c.toDatagram.IsFragment i frame)
    (h' : c.toDatagram.IsFragment i frame') : frame = frame' := by
  obtain ⟨j, part, hpart, rfl⟩ := c.mem_frames_iff.mp hframe
  obtain ⟨j', part', hpart', rfl⟩ := c.mem_frames_iff.mp hframe'
  obtain rfl := h.index_unique (c.isFragment_partFrame hpart)
  obtain rfl := h'.index_unique (c.isFragment_partFrame hpart')
  rw [hpart, Option.some.injEq] at hpart'
  rw [hpart']

section Push

variable {σ : Type} (ipv6Push : σ → Bytes → Nat → σ × Option Bytes) (ipv6 : σ)

/-- The frames, pushed in any order within the timeout, come back as the whole
datagram at the last push. -/
theorem outputs_of_perm {pushes : List Push}
    (hperm : (pushes.map Push.frame).Perm (c.parts.map c.partFrame))
    (htimes : ∀ p ∈ pushes, ∀ q ∈ pushes, q.now - p.now < reassemblyTimeout) :
    (FragmentReassembler.new ipv6).outputs ipv6Push pushes
      = replicate (pushes.length - 1) none ++ [some c.wholeFrame] := by
  have hours : ∀ p ∈ pushes, ∃ i, c.toDatagram.IsFragment i p.frame := by
    intro p hp
    obtain ⟨i, part, hpart, hframe⟩ :=
      c.mem_frames_iff.mp (hperm.subset (mem_map_of_mem hp))
    exact ⟨i, hframe ▸ c.isFragment_partFrame hpart⟩
  have hall : ∀ i < c.toDatagram.pieces.length, ∃ p ∈ pushes, c.toDatagram.IsFragment i p.frame := by
    intro i hi
    have hi' : i < c.parts.length := by simpa [toDatagram] using hi
    have hpart : c.parts[i]? = some (c.parts[i]) := getElem?_eq_getElem hi'
    obtain ⟨p, hp, hframe⟩ := mem_map.mp
      (hperm.symm.subset (c.mem_frames_iff.mpr ⟨i, _, hpart, rfl⟩))
    exact ⟨p, hp, hframe ▸ c.isFragment_partFrame hpart⟩
  have hnodup : (pushes.map Push.frame).Nodup := hperm.nodup_iff.mpr c.nodup_frames
  have hdelivery : c.toDatagram.Delivery [] (FragmentReassembler.new ipv6) pushes :=
    { count := by decide
      key := by simp
      start := rfl
      keys := fun k hk => absurd hk (AList.notMem_empty k)
      frames := fun p hp => .inl (hours p hp)
      times := htimes }
  rcases eq_nil_or_concat' pushes with rfl | ⟨before, last, rfl⟩
  · obtain ⟨p, hp, -⟩ := hall 0 (length_pos_iff.mpr c.toDatagram.nonempty)
    simp at hp
  have hlast : c.toDatagram.LastMissing before last := by
    obtain ⟨i, hi⟩ := hours last (by simp)
    refine ⟨⟨i, hi, fun q hq hqi => ?_⟩, hall⟩
    -- a frame that comes last has not come before, and no other carries its fragment
    have hin : ∀ p ∈ before ++ [last], p.frame ∈ c.parts.map c.partFrame :=
      fun p hp => hperm.subset (mem_map_of_mem hp)
    have hsame := c.frame_unique (hin q (mem_append_left _ hq)) (hin last (by simp)) hqi hi
    rw [map_append, nodup_append] at hnodup
    exact hnodup.2.2 q.frame (mem_map_of_mem hq) last.frame (by simp) hsame
  have hdelivered : c.toDatagram.Delivered [] (FragmentReassembler.new ipv6) ipv6Push before last :=
    hdelivery.delivered hlast
  rw [hdelivered.outputs (forall_mem_append.mp hours).1, whole_toDatagram,
    length_append, length_singleton, Nat.add_sub_cancel]

end Push

/-- The frames of the call. -/
def frames : List Bytes :=
  if 20 + (8 + c.payload.length) ≤ c.mtu then [c.wholeFrame] else c.parts.map c.partFrame

theorem build_eq : buildUdpIpEthernet c.srcIp c.dstIp c.srcPort c.dstPort c.payload c.srcMac
    c.dstMac c.mtu c.ipId = some (c.frames, c.ipId + 1) := by
  have hmtu := c.le_mtu
  rw [buildUdpIpEthernet, if_neg (by omega), if_neg (not_lt_of_ge c.payload_le), frames]
  dsimp only
  split <;> rfl

/-- With an MTU above every datagram's length the call yields one frame. -/
theorem build_unlimited {unlimited : Nat} (h : 65535 ≤ unlimited) :
    buildUdpIpEthernet c.srcIp c.dstIp c.srcPort c.dstPort c.payload c.srcMac c.dstMac unlimited
      c.ipId = some ([c.wholeFrame], c.ipId + 1) := by
  have hle := c.payload_le
  rw [maxUdpPayload] at hle
  rw [buildUdpIpEthernet, if_neg (by omega), if_neg (not_lt_of_ge c.payload_le)]
  dsimp only
  rw [if_pos (by omega)]
  rfl

/-- A datagram above the MTU needs more than one frame. -/
theorem frames_cases : c.frames = [c.wholeFrame]
    ∨ 1 < c.frames.length ∧ c.frames = c.parts.map c.partFrame := by
  rw [frames]
  split
  · exact .inl rfl
  rename_i hlong
  refine .inr ⟨?_, rfl⟩
  rw [length_map, parts, lt_length_chunks_iff c.chunk_pos, one_mul, length_datagram]
  have hchunk := c.chunk_bounds.2.1
  have hmtu := c.le_mtu
  omega

theorem ipPayload_wholeFrame : ipPayload c.wholeFrame = c.datagram := by
  rw [← whole_toDatagram, c.toDatagram.whole_reassembles.payload, payload_toDatagram]

end Call

/-- What is required of a frame that `build_frame` makes for the bytes of `datagram`
from `offset` on: it fits the link, and the offset is in whole units that fit the
13-bit field. -/
structure FragmentOk (mtu : Nat) (datagram frame : Bytes) (offset : Nat) (part : Bytes) :
    Prop where
  length : frame.length ≤ mtu + 14
  aligned : offset % 8 = 0
  field : offset / 8 < 2 ^ 13
  stored : (fieldAt frame (ethHeaderLen + 6) &&& 0x1FFF).toNat = offset / 8
  slice : part = (datagram.drop offset).take part.length

namespace Call

variable (c : Call)

theorem length_partFrame (part : Nat × Bytes) : (c.partFrame part).length = 34 + part.2.length := by
  rw [partFrame, Udp.buildFrame, length_append, length_frameHeader]

theorem fieldAt_partFrame (part : Nat × Bytes) :
    fieldAt (c.partFrame part) (ethHeaderLen + 6)
      = flagsFrag part.1 (decide (part.1 + part.2.length < 8 + c.payload.length)) := by
  rw [partFrame, Udp.buildFrame, fieldAt_append (by rw [length_frameHeader, ethHeaderLen]; omega),
    fieldAt_frameHeader_fragment]

theorem fragmentOk_part (h : part ∈ c.parts) :
    FragmentOk c.mtu c.datagram (c.partFrame part) part.1 part.2 := by
  obtain ⟨haligned, hfield⟩ := c.part_offset h
  have hchunk := c.chunk_bounds.2.1
  have hmtu := c.le_mtu
  have hlen := c.length_part_le h
  refine ⟨by rw [length_partFrame]; omega, haligned, hfield, ?_, ?_⟩
  · rw [fieldAt_partFrame, flagsFrag_offset hfield]
  · obtain ⟨i, hi, rfl⟩ := (mem_chunks_iff c.chunk_pos).mp h
    exact take_length_take _ _

/-- Every frame of the call is in order. -/
theorem fragmentOk_frames (h : frame ∈ c.frames) :
    ∃ offset more part,
      frame = Udp.buildFrame c.srcIp c.dstIp c.ipId offset more part c.srcMac c.dstMac
        ∧ FragmentOk c.mtu c.datagram frame offset part := by
  rw [frames] at h
  split at h
  next hfits =>
    obtain rfl := mem_singleton.mp h
    refine ⟨0, false, c.datagram, rfl, ⟨?_, rfl, by decide, ?_, ?_⟩⟩
    · rw [wholeFrame, Udp.buildFrame, length_append, length_frameHeader, length_datagram]
      omega
    · rw [wholeFrame, Udp.buildFrame, fieldAt_append (by rw [length_frameHeader, ethHeaderLen]; omega),
        fieldAt_frameHeader_fragment]
      rfl
    · rw [drop_zero, take_length]
  · obtain ⟨part, hpart, rfl⟩ := mem_map.mp h
    exact ⟨part.1, _, part.2, rfl, c.fragmentOk_part hpart⟩

end Call

/-- Fragmentation and reassembly are inverse.  For every payload that fits a datagram and
every MTU from 548 on, the frames of the builder, pushed to a new reassembler in any
order within the timeout, return exactly one frame, at the last push: the one the
builder makes of the datagram without an MTU.  Every fragment fits the link and states
its offset, and the UDP checksum verifies. -/
theorem udp_round_trip (srcIp dstIp : Ipv4Addr) (srcPort dstPort : BitVec 16) (payload : Bytes)
    (srcMac dstMac : Mac) (mtu : Nat) (ipId : BitVec 16)
    (hpayload : payload.length ≤ maxUdpPayload) (hmtu : 548 ≤ mtu) :
    ∃ frames whole,
      buildUdpIpEthernet srcIp dstIp srcPort dstPort payload srcMac dstMac mtu ipId
        = some (frames, ipId + 1)
      ∧ (∀ unlimited, 65535 ≤ unlimited →
        buildUdpIpEthernet srcIp dstIp srcPort dstPort payload srcMac dstMac unlimited ipId
          = some ([whole], ipId + 1))
      ∧ (frames = [whole] ∨ 1 < frames.length)
      ∧ (1 < frames.length →
        ∀ {σ : Type} (ipv6Push : σ → Bytes → Nat → σ × Option Bytes) (ipv6 : σ)
          (pushes : List Push), (pushes.map Push.frame).Perm frames →
          (∀ p ∈ pushes, ∀ q ∈ pushes, q.now - p.now < reassemblyTimeout) →
          (FragmentReassembler.new ipv6).outputs ipv6Push pushes
            = List.replicate (pushes.length - 1) none ++ [some whole])
      ∧ (∀ frame ∈ frames, ∃ offset more part,
        frame = Udp.buildFrame srcIp dstIp ipId offset more part srcMac dstMac
          ∧ FragmentOk mtu (ipPayload whole) frame offset part)
      ∧ UdpVerifies srcIp dstIp (ipPayload whole) := by
  let c : Call := ⟨srcIp, dstIp, srcPort, dstPort, payload, srcMac, dstMac, mtu, ipId, hpayload,
    hmtu⟩
  refine ⟨c.frames, c.wholeFrame, c.build_eq, fun unlimited h => c.build_unlimited h,
    c.frames_cases.imp id And.left, ?_, ?_, ?_⟩
  · intro hmany σ ipv6Push ipv6 pushes hperm htimes
    rcases c.frames_cases with hone | ⟨-, hparts⟩
    · simp [hone] at hmany
    · exact c.outputs_of_perm ipv6Push ipv6 (hparts ▸ hperm) htimes
  · rw [c.ipPayload_wholeFrame]
    exact fun frame h => c.fragmentOk_frames h
  · rw [c.ipPayload_wholeFrame]
    exact udpVerifies_udpDatagram _ _ _ _ _

/-- A datagram of 608 bytes over a link of 548. -/
def twoFrameCall : Call where
  srcIp := ⟨10, 0, 2, 1⟩
  dstIp := ⟨10, 0, 2, 2⟩
  srcPort := 53
  dstPort := 40000
  payload := List.replicate 600 7
  srcMac := ⟨List.replicate 6 1, rfl⟩
  dstMac := ⟨List.replicate 6 2, rfl⟩
  mtu := 548
  ipId := 1
  payload_le := by rw [length_replicate]; decide
  le_mtu := by decide

theorem length_frames_twoFrameCall : 1 < twoFrameCall.frames.length := by
  have hlong : ¬20 + (8 + twoFrameCall.payload.length) ≤ twoFrameCall.mtu := by
    simp only [twoFrameCall, length_replicate]
    decide
  rcases twoFrameCall.frames_cases with hone | ⟨hmany, -⟩
  · rw [Call.frames, if_neg hlong] at hone
    have hlen := congrArg length hone
    rw [length_map, Call.parts, length_chunks, Call.length_datagram] at hlen
    simp only [twoFrameCall, length_replicate] at hlen
    cases hlen
  · exact hmany

theorem udp_round_trip_two_frames :
    ∃ frames whole, 1 < frames.length
      ∧ buildUdpIpEthernet ⟨10, 0, 2, 1⟩ ⟨10, 0, 2, 2⟩ 53 40000 (List.replicate 600 7)
        ⟨List.replicate 6 1, rfl⟩ ⟨List.replicate 6 2, rfl⟩ 548 1 = some (frames, 2)
      ∧ (FragmentReassembler.new ()).outputs noIpv6
          (frames.reverse.map fun frame => ⟨frame, 0⟩)
        = List.replicate (frames.length - 1) none ++ [some whole] := by
  obtain ⟨frames, whole, hbuild, -, -, hpush, -⟩ :=
    udp_round_trip ⟨10, 0, 2, 1⟩ ⟨10, 0, 2, 2⟩ 53 40000 (replicate 600 7)
      ⟨replicate 6 1, rfl⟩ ⟨replicate 6 2, rfl⟩ 548 1
      (by rw [length_replicate]; decide) (by decide)
  have hframes : frames = twoFrameCall.frames := by
    have hsame := hbuild.symm.trans twoFrameCall.build_eq
    rw [Option.some.injEq, Prod.mk.injEq] at hsame
    exact hsame.1
  have hmany : 1 < frames.length := by
    rw [hframes]
    exact length_frames_twoFrameCall
  refine ⟨frames, whole, hmany, hbuild, ?_⟩
  have houtputs := hpush hmany noIpv6 () (frames.reverse.map fun frame => ⟨frame, 0⟩) ?_ ?_
  · rwa [length_map, length_reverse] at houtputs
  · have hmap : (frames.reverse.map fun frame => (⟨frame, 0⟩ : Push)).map Push.frame
        = frames.reverse := by
      rw [map_map]
      exact map_id _
    rw [hmap]
    exact frames.reverse_perm
  intro p hp q hq
  simp only [mem_map] at hp hq
  obtain ⟨_, _, rfl⟩ := hp
  obtain ⟨_, _, rfl⟩ := hq
  exact (by decide : 0 - 0 < reassemblyTimeout)

end Arcbox.Reassembly

import Arcbox.Bridge.Conn
import Arcbox.Inject.InlineConn
import Arcbox.Virtio.SplitQueue

set_option autoImplicit false

/-!
# Injection: one frame into the receive queue

`inject_one_frame` (`arcbox-net-inject`, `queue.rs`) puts a virtio-net header in
front of a frame and writes both into the next descriptor chain.  Frames longer
than an Ethernet frame are stamped for checksum and segmentation offload.  The
bridge decides on its own which of its frames have a partial checksum, so the two
decisions are compared here.
-/

namespace Arcbox.Inject

open Foundation Packet Virtio Bridge List

/-- `VIRTIO_NET_HDR_SIZE`. -/
def virtioNetHdrSize : Nat := 12

variable (q : SplitQueue) (frame : Bytes)

/-- The test for offload: a TCP over IPv4 frame without IP options, longer than
1500 bytes. -/
def offloads : Bool :=
  decide (1500 < frame.length) && decide (54 ≤ frame.length) && frame[12]? == some 0x08
    && frame[13]? == some 0x00 && frame[23]? == some 6
    && frame[14]?.any fun b => b &&& 0x0F == 5

/-- The part of the virtio-net header that goes into a buffer: `hdrBytes` bytes of
it, `written` being there already. -/
def headerPart (written hdrBytes : Nat) : Bytes :=
  let hdr : Bytes := List.replicate hdrBytes 0
  let hdr :=
    if written ≤ 10 ∧ 10 < written + hdrBytes ∧ 10 - written + 2 ≤ hdrBytes then
      overwrite hdr (10 - written) (leBytes16 1)
    else hdr
  if written = 0 ∧ 10 ≤ hdrBytes ∧ offloads frame then
    overwrite hdr 0 ([1, 1] ++ leBytes16 54 ++ leBytes16 1460 ++ leBytes16 34 ++ leBytes16 16)
  else hdr

/-- What goes into a buffer that takes `toWrite` bytes. -/
def bufferBytes (written toWrite : Nat) : Bytes :=
  if written < virtioNetHdrSize then
    let hdrBytes := min (virtioNetHdrSize - written) toWrite
    headerPart frame written hdrBytes ++ frame.take (toWrite - hdrBytes)
  else (frame.drop (written - virtioNetHdrSize)).take toWrite

structure Injected where
  queue : SplitQueue
  written : Nat
  writes : List (Nat × Bytes)

/-- The body of the descriptor loop.  A buffer outside guest memory ends the loop. -/
def fillBuffer (st : Injected) (desc : VirtqDesc) : Option Injected :=
  if desc.isWrite ∧ 0 < desc.len.toNat then
    match st.queue.mem.gpaToOffset desc.addr.toNat desc.len.toNat with
    | none => none
    | some _ =>
        let toWrite := min (virtioNetHdrSize + frame.length - st.written) desc.len.toNat
        let bytes := bufferBytes frame st.written toWrite
        some {
          queue := { st.queue with mem := st.queue.mem.write desc.addr.toNat bytes }
          written := st.written + toWrite
          writes := st.writes ++ [(desc.addr.toNat, bytes)] }
  else some st

/-- The descriptor loop.  `ttl` is the bound of `chain_iter`, and descriptors are
read as the loop reaches them. -/
def injectChain (frame : Bytes) : Nat → BitVec 16 → Injected → Injected
  | 0, _, st => st
  | ttl + 1, idx, st =>
      if st.queue.size.toNat ≤ idx.toNat then st
      else
        let desc := st.queue.readDescriptor idx
        match fillBuffer frame st desc with
        | none => st
        | some st' =>
            if virtioNetHdrSize + frame.length ≤ st'.written then st'
            else if desc.hasNext then injectChain frame ttl desc.next st'
            else st'

/-- `inject_one_frame`: the queue afterwards, what the source returns, and the
writes to descriptor buffers. -/
def injectOneFrame : SplitQueue × Option Bool × List (Nat × Bytes) :=
  if q.size = 0 then (q, none, [])
  else
    match q.nextAvailHead with
    | none => (q, none, [])
    | some (headIdx, popped) =>
        let st := injectChain frame q.size.toNat headIdx ⟨popped, 0, []⟩
        if st.written = 0 then
          ({ st.queue with lastAvailIdx := q.lastAvailIdx }, none, st.writes)
        else
          let pushed := st.queue.pushUsed headIdx (BitVec.ofNat 32 st.written)
          (pushed.1, some pushed.2, st.writes)

/-- The frame is injected with `VIRTIO_NET_HDR_F_NEEDS_CSUM` in the flags of its
header, the first byte written. -/
def stampsNeedsCsum : Bool :=
  match (injectOneFrame q frame).2.2 with
  | (_, flags :: _) :: _ => flags == 1
  | _ => false

/-! ## What a chain receives -/

/-- A descriptor that the loop does not skip. -/
def usable (desc : VirtqDesc) : List VirtqDesc :=
  if desc.isWrite ∧ 0 < desc.len.toNat then [desc] else []

/-- The buffers that the descriptor loop fills: usable and in guest memory. -/
def buffers (frame : Bytes) : Nat → BitVec 16 → Injected → List VirtqDesc
  | 0, _, _ => []
  | ttl + 1, idx, st =>
      if st.queue.size.toNat ≤ idx.toNat then []
      else
        let desc := st.queue.readDescriptor idx
        match fillBuffer frame st desc with
        | none => []
        | some st' => usable desc ++
            if virtioNetHdrSize + frame.length ≤ st'.written then []
            else if desc.hasNext then buffers frame ttl desc.next st'
            else []

/-- The room in the buffers. -/
def capacity (bufs : List VirtqDesc) : Nat := (bufs.map fun d => d.len.toNat).sum

/-- The frame behind the header that a buffer large enough for both gets. -/
def packet : Bytes := headerPart frame 0 virtioNetHdrSize ++ frame

/-- Bytes laid out over the buffers in order. -/
def scatter : List VirtqDesc → Bytes → List (Nat × Bytes)
  | [], _ => []
  | d :: ds, bytes =>
      (d.addr.toNat, bytes.take d.len.toNat) :: scatter ds (bytes.drop d.len.toNat)

/-- What the loop writes into the buffers. -/
def pieces (frame : Bytes) : Nat → List VirtqDesc → List (Nat × Bytes)
  | _, [] => []
  | written, d :: ds =>
      let toWrite := min (virtioNetHdrSize + frame.length - written) d.len.toNat
      (d.addr.toNat, bufferBytes frame written toWrite) :: pieces frame (written + toWrite) ds

/-- The queue with the writes done. -/
def writeAll (ws : List (Nat × Bytes)) : SplitQueue :=
  { q with mem := ws.foldl (fun mem w => mem.write w.1 w.2) q.mem }

/-- What the loop does with a buffer. -/
def Injected.fill (st : Injected) (d : VirtqDesc) : Injected :=
  let toWrite := min (virtioNetHdrSize + frame.length - st.written) d.len.toNat
  let piece := (d.addr.toNat, bufferBytes frame st.written toWrite)
  ⟨writeAll st.queue [piece], st.written + toWrite, st.writes ++ [piece]⟩

/-- A buffer may end here: not between the two bytes of `num_buffers`, and not within
the offload fields of a frame that has them. -/
def MayEnd (offset : Nat) : Prop := offset ≠ 11 ∧ (offloads frame → offset = 0 ∨ 10 ≤ offset)

section Pieces

variable {frame : Bytes} {written : Nat}

theorem length_headerPart : (headerPart frame 0 virtioNetHdrSize).length = 12 := by
  unfold headerPart
  cases offloads frame <;> rfl

set_option synthInstance.maxSize 1000 in
theorem headerPart_eq_iff (written hdrBytes : Nat) (hpart : written + hdrBytes ≤ 12)
    (hstart : MayEnd frame written) :
    headerPart frame written hdrBytes
        = ((headerPart frame 0 virtioNetHdrSize).drop written).take hdrBytes
      ↔ MayEnd frame (written + hdrBytes) := by
  have hw : written < 13 := by omega
  have hh : hdrBytes < 13 := by omega
  unfold headerPart MayEnd at *
  generalize offloads frame = stamped at *
  revert hpart hstart
  revert hdrBytes
  revert written
  revert stamped
  decide +kernel

theorem bufferBytes_eq_iff (toWrite : Nat) (hstart : MayEnd frame written) :
    bufferBytes frame written toWrite = ((packet frame).drop written).take toWrite
      ↔ MayEnd frame (written + toWrite) := by
  have hhdr : (headerPart frame 0 virtioNetHdrSize).length = 12 := length_headerPart
  rw [bufferBytes, packet, drop_append, take_append, length_drop, hhdr]
  split
  next hw =>
    simp only [virtioNetHdrSize] at hw hhdr ⊢
    have hpart : ((headerPart frame 0 12).drop written).take toWrite
        = ((headerPart frame 0 12).drop written).take (min (12 - written) toWrite) := by
      rw [take_eq_take_min, length_drop, hhdr, Nat.min_comm]
    have hrest : toWrite - min (12 - written) toWrite = toWrite - (12 - written) := by omega
    have hend : MayEnd frame (written + min (12 - written) toWrite)
        ↔ MayEnd frame (written + toWrite) :=
      and_congr (by omega) (imp_congr_right fun _ => by omega)
    rw [hpart, hrest, Nat.sub_eq_zero_of_le (Nat.le_of_lt hw), drop_zero, append_left_inj]
    exact (headerPart_eq_iff written _ (by omega) hstart).trans hend
  rename_i hw
  simp only [virtioNetHdrSize] at hw hhdr ⊢
  have hpast : (headerPart frame 0 12).drop written = [] := drop_of_length_le (by omega)
  have hzero : 12 - written = 0 := by omega
  rw [hpast, take_nil, nil_append, hzero, Nat.sub_zero]
  exact iff_of_true rfl ⟨by omega, fun _ => by omega⟩

theorem pieces_eq_scatter_iff (bufs : List VirtqDesc) (hstart : MayEnd frame written)
    (hw : written ≤ virtioNetHdrSize + frame.length) :
    pieces frame written bufs = scatter bufs ((packet frame).drop written)
      ↔ ∀ k, MayEnd frame (written + capacity (bufs.take k)) := by
  induction bufs generalizing written with
  | nil =>
    refine iff_of_true rfl fun k => ?_
    rw [take_nil]
    exact hstart
  | cons d ds ih =>
    have hlen : (packet frame).length = virtioNetHdrSize + frame.length := by
      rw [packet, length_append, length_headerPart, virtioNetHdrSize]
    have hslice := take_eq_take_min (l := (packet frame).drop written) (i := d.len.toNat)
    have hrest : ((packet frame).drop written).drop d.len.toNat = (packet frame).drop
        (written + min (virtioNetHdrSize + frame.length - written) d.len.toNat) := by
      rw [drop_drop, drop_eq_drop_iff, hlen]
      omega
    rw [length_drop, hlen, Nat.min_comm] at hslice
    rw [pieces, scatter, cons.injEq, Prod.mk.injEq, hslice, hrest, bufferBytes_eq_iff _ hstart]
    have hend : ∀ n, MayEnd frame
        (written + min (virtioNetHdrSize + frame.length - written) d.len.toNat + n)
          ↔ MayEnd frame (written + (d.len.toNat + n)) := fun n => by
      simp only [virtioNetHdrSize] at hw ⊢
      exact and_congr (by omega) (imp_congr_right fun _ => by omega)
    constructor
    · rintro ⟨⟨-, hd⟩, hds⟩ (_ | k)
      · exact hstart
      · exact (hend _).mp ((ih hd (by omega)).mp hds k)
    intro h
    have hk := fun k => (hend _).mpr (h (k + 1))
    refine ⟨⟨rfl, hk 0⟩, (ih ?_ (by omega)).mpr hk⟩
    exact hk 0

theorem foldl_fill (bufs : List VirtqDesc) (st : Injected)
    (hw : st.written ≤ virtioNetHdrSize + frame.length) :
    bufs.foldl (Injected.fill frame) st = ⟨writeAll st.queue (pieces frame st.written bufs),
      min (virtioNetHdrSize + frame.length) (st.written + capacity bufs),
      st.writes ++ pieces frame st.written bufs⟩ := by
  induction bufs generalizing st with
  | nil => simp [writeAll, pieces, capacity, Nat.min_eq_right hw]
  | cons d ds ih =>
    rw [foldl_cons, ih _ (by simp only [Injected.fill]; omega)]
    simp only [Injected.fill, Injected.mk.injEq, append_assoc]
    refine ⟨rfl, ?_, rfl⟩
    simp only [capacity, map_cons, sum_cons]
    omega

theorem injectChain_eq (frame : Bytes) (ttl : Nat) (idx : BitVec 16) (st : Injected) :
    injectChain frame ttl idx st = (buffers frame ttl idx st).foldl (Injected.fill frame) st := by
  induction ttl generalizing idx st with
  | zero => rfl
  | succ ttl ih =>
    rw [injectChain, buffers]
    split
    · rfl
    dsimp only
    split
    · rfl
    rename_i st' hfill
    have hturn : st' = (usable (st.queue.readDescriptor idx)).foldl (Injected.fill frame) st := by
      simp only [fillBuffer] at hfill
      split at hfill
      next huse =>
        rw [usable, if_pos huse]
        split at hfill
        · cases hfill
        · exact (Option.some.inj hfill).symm
      next hskip =>
        rw [usable, if_neg hskip]
        exact (Option.some.inj hfill).symm
    rw [foldl_append, ← hturn]
    repeat' split
    · rfl
    · exact ih _ _
    · rfl

end Pieces

/-! ## The header of a frame -/

/-- The first buffer of a chain that the device may write. -/
def firstBuffer (q : SplitQueue) : Nat → BitVec 16 → Option VirtqDesc
  | 0, _ => none
  | ttl + 1, idx =>
      if q.size.toNat ≤ idx.toNat then none
      else
        let desc := q.readDescriptor idx
        if desc.isWrite ∧ 0 < desc.len.toNat then some desc
        else if desc.hasNext then firstBuffer q ttl desc.next
        else none

/-- The next chain of the queue starts with a buffer in guest memory that holds the
whole virtio-net header. -/
def HoldsHeader : Prop :=
  q.size ≠ 0 ∧ ∃ popped, q.nextAvailHead = some popped
    ∧ ∃ desc, firstBuffer popped.2 q.size.toNat popped.1 = some desc
      ∧ virtioNetHdrSize ≤ desc.len.toNat
      ∧ (q.mem.gpaToOffset desc.addr.toNat desc.len.toNat).isSome

/-- The loop starts with the first writable buffer. -/
theorem buffers_of_firstBuffer (frame : Bytes) {q : SplitQueue} {desc : VirtqDesc}
    (hmem : (q.mem.gpaToOffset desc.addr.toNat desc.len.toNat).isSome) :
    ∀ (ttl : Nat) (idx : BitVec 16), firstBuffer q ttl idx = some desc →
      ∃ rest, buffers frame ttl idx ⟨q, 0, []⟩ = desc :: rest := by
  intro ttl
  induction ttl with
  | zero => exact fun _ h => absurd h (by simp [firstBuffer])
  | succ ttl ih =>
      intro idx hfirst
      simp only [firstBuffer] at hfirst
      simp only [buffers]
      split at hfirst
      · cases hfirst
      rename_i hidx
      rw [if_neg hidx]
      split at hfirst
      next hwrite =>
        rw [Option.some.injEq] at hfirst
        subst hfirst
        obtain ⟨off, hoff⟩ := Option.isSome_iff_exists.mp hmem
        simp only [fillBuffer, usable, if_pos hwrite, hoff]
        exact ⟨_, rfl⟩
      rename_i hskip
      simp only [fillBuffer, usable, if_neg hskip, nil_append]
      rw [if_neg (by simp [virtioNetHdrSize])]
      split at hfirst
      next hnext =>
        rw [if_pos hnext]
        exact ih _ hfirst
      · cases hfirst

/-- The first byte of a header that is written whole. -/
theorem head?_bufferBytes (frame : Bytes) {toWrite : Nat} (h : virtioNetHdrSize ≤ toWrite) :
    (bufferBytes frame 0 toWrite).head? = some (if offloads frame then 1 else 0) := by
  have hmin : min (virtioNetHdrSize - 0) toWrite = 12 := Nat.min_eq_left h
  simp only [bufferBytes, hmin, headerPart]
  cases offloads frame <;> rfl

theorem stampsNeedsCsum_iff {q : SplitQueue} (hq : HoldsHeader q) (frame : Bytes) :
    stampsNeedsCsum q frame = offloads frame := by
  obtain ⟨hsize, popped, hpop, desc, hdesc, hlen, hmem⟩ := hq
  have hmem' : popped.2.mem = q.mem := by
    simp only [SplitQueue.nextAvailHead] at hpop
    split at hpop
    · cases hpop
    · rw [← Option.some.inj hpop]
  rw [← hmem'] at hmem
  obtain ⟨rest, hbufs⟩ := buffers_of_firstBuffer frame hmem _ _ hdesc
  have hhead := head?_bufferBytes frame
    (Nat.le_min.mpr ⟨Nat.le_add_right _ frame.length, hlen⟩)
  have hlog : (injectOneFrame q frame).2.2
      = (injectChain frame q.size.toNat popped.1 ⟨popped.2, 0, []⟩).writes := by
    simp only [injectOneFrame, if_neg hsize, hpop]
    split <;> rfl
  rw [stampsNeedsCsum, hlog, injectChain_eq, hbufs, foldl_fill _ _ (Nat.zero_le _)]
  simp only [pieces, nil_append, Nat.sub_zero]
  generalize bufferBytes frame 0 _ = bytes at hhead
  cases bytes with
  | nil => cases hhead
  | cons flags tail =>
      rw [List.head?_cons, Option.some.injEq] at hhead
      rw [hhead]
      cases offloads frame <;> rfl

/-! ## Frames of the bridge -/

theorem offloads_frame (dst src : Mac) (totalLen : BitVec 16) (srcIp dstIp : Ipv4Addr)
    (segment : Bytes) :
    offloads (ethernetHeader dst src [0x08, 0x00]
      ++ ipv4Header totalLen 0 0x4000 6 srcIp dstIp ++ segment)
      = decide (1466 < segment.length) := by
  have hmacs : (dst.octets ++ src.octets).length = 12 := by simp
  have hget : ∀ i, (ethernetHeader dst src [0x08, 0x00]
      ++ ipv4Header totalLen 0 0x4000 6 srcIp dstIp ++ segment)[12 + i]?
        = ([0x08, 0x00] ++ ipv4Header totalLen 0 0x4000 6 srcIp dstIp ++ segment)[i]? := by
    intro i
    rw [ethernetHeader, append_assoc, append_assoc,
      List.getElem?_append_right (by omega), hmacs, Nat.add_sub_cancel_left, append_assoc]
  have hlen : (ethernetHeader dst src [0x08, 0x00]
      ++ ipv4Header totalLen 0 0x4000 6 srcIp dstIp ++ segment).length = 34 + segment.length := by
    simp only [length_append, length_ethernetHeader, length_ipv4Header, length_cons,
      length_nil]
  generalize ethernetHeader dst src [0x08, 0x00] ++ _ ++ segment = frame at hget hlen ⊢
  have h₁₂ : frame[12]? = some 0x08 := (hget 0).trans rfl
  have h₁₃ : frame[13]? = some 0x00 := (hget 1).trans rfl
  have h₁₄ : frame[14]? = some 0x45 := (hget 2).trans rfl
  have h₂₃ : frame[23]? = some 6 := (hget 11).trans rfl
  have hihl : (some (0x45 : UInt8)).any (fun b => b &&& 0x0F == 5) = true := by decide
  rw [offloads, h₁₂, h₁₃, h₁₄, h₂₃, hihl, hlen]
  simp only [BEq.rfl, Bool.and_true, ← Bool.decide_and]
  exact decide_eq_decide.mpr (by omega)

variable (p : TcpFrameParams Ipv4Addr) {payload : Bytes}

theorem offloads_data (h : 40 + payload.length ≤ 65535) :
    ∃ bytes, buildTcpDataFrame p.toIp payload = some bytes
      ∧ offloads bytes = decide (1447 ≤ payload.length) := by
  refine ⟨_, buildFrame_toIp p 0x18 [] payload (by simpa using h), ?_⟩
  rw [offloads_frame, length_tcpSegment, length_nil]
  exact decide_eq_decide.mpr (by omega)

theorem offloads_dataPartialCsum (h : 40 + payload.length ≤ 65535) :
    ∃ bytes, buildTcpDataFramePartialCsum p payload = some bytes
      ∧ offloads bytes = decide (1447 ≤ payload.length) := by
  refine ⟨_, if_pos (by omega), ?_⟩
  rw [offloads_frame, length_tcpSegment, length_nil]
  exact decide_eq_decide.mpr (by omega)

/-- A frame is stamped `NEEDS_CSUM` if and only if it was built with a partial
checksum. -/
def StampAgrees (f : TcpFrame) : Prop :=
  ∃ bytes, f.bytes = some bytes ∧ stampsNeedsCsum q bytes = f.isPartialCsum

section Emitted

variable {q : SplitQueue} (hq : HoldsHeader q) {ctx : FrameCtx} {c : FastPathConn}
  {remoteIp guestIp : Ipv4Addr}

include hq

theorem stampAgrees_data (h : 40 + payload.length ≤ 65535) :
    StampAgrees q (.data p.toIp payload) ↔ payload.length < 1447 := by
  obtain ⟨bytes, hbytes, hoff⟩ := offloads_data p h
  have hiff : StampAgrees q (.data p.toIp payload) ↔ offloads bytes = false := by
    constructor
    · rintro ⟨bytes', hbytes', hstamp⟩
      rw [← Option.some.inj (hbytes'.symm.trans hbytes)]
      exact (stampsNeedsCsum_iff hq bytes').symm.trans hstamp
    · exact fun hfalse => ⟨bytes, hbytes, (stampsNeedsCsum_iff hq bytes).trans hfalse⟩
  rw [hiff, hoff, decide_eq_false_iff_not, Nat.not_le]

theorem stampAgrees_dataPartialCsum (h : 40 + payload.length ≤ 65535)
    (hlong : 1447 ≤ payload.length) : StampAgrees q (.dataPartialCsum p payload) := by
  obtain ⟨bytes, hbytes, hoff⟩ := offloads_dataPartialCsum p h
  refine ⟨bytes, hbytes, ?_⟩
  rw [stampsNeedsCsum_iff hq, hoff]
  exact decide_eq_true hlong

theorem stampAgrees_emitLargeFrames {seqStart : BitVec 32} {data : Bytes} {f : TcpFrame}
    (hf : f ∈ emitLargeFrames ctx c remoteIp guestIp seqStart data) : StampAgrees q f := by
  simp only [emitLargeFrames, mem_map] at hf
  obtain ⟨piece, hpiece, rfl⟩ := hf
  have hlen : piece.2.length ≤ 32 * 1024 := by
    obtain ⟨i, hi, rfl⟩ := (mem_chunks_iff (by decide)).mp hpiece
    exact length_take_le _ _
  split
  next hlong =>
    simp only [ethHeaderLen] at hlong
    exact stampAgrees_dataPartialCsum _ hq (by omega) (by omega)
  next hshort =>
    simp only [ethHeaderLen] at hshort
    exact (stampAgrees_data _ hq (by omega)).mpr (by omega)

/-- On the MSS-clamped path they are the same exactly if no segment is longer than
an Ethernet frame. -/
theorem stampAgrees_emitSegments_iff (hr : c.remoteIp = .v4 remoteIp) (hg : c.guestIp = .v4 guestIp)
    (seqStart : BitVec 32) (data : Bytes) :
    (∀ f ∈ emitSegments ctx c seqStart data, StampAgrees q f)
      ↔ min (segmentSize ctx c) data.length < 1447 := by
  have hsize : segmentSize ctx c ≤ 65495 := by
    have hmss := ctx.guestMss.property.2
    simp only [segmentSize, familyMss, hg, IpAddr.isIpv6]
    simp only [Bool.false_eq_true, if_false]
    omega
  have hframe : ∀ (seq : BitVec 32) (payload : Bytes), payload.length ≤ 65495 →
      (StampAgrees q (.data (c.frameParams ctx.macs seq 65535) payload) ↔ payload.length < 1447) := by
    intro seq payload hlen
    have hparams : c.frameParams ctx.macs seq 65535
        = TcpFrameParams.toIp ⟨remoteIp, guestIp, c.remotePort, c.guestPort, seq, c.lastAck, 65535,
          ctx.macs.gw, ctx.macs.guest⟩ := by
      simp only [FastPathConn.frameParams, TcpFrameParams.toIp, hr, hg]
    rw [hparams]
    exact stampAgrees_data _ hq (by omega)
  have hpos := segmentSize_pos ctx c
  simp only [emitSegments, mem_map, forall_exists_index, and_imp, forall_apply_eq_imp_iff₂]
  constructor
  · intro hall
    rcases Nat.eq_zero_or_pos data.length with hnil | hdata
    · omega
    have hfirst := hall (0, data.take (segmentSize ctx c))
      ((mem_chunks_iff hpos).mpr ⟨0, by omega, by simp⟩)
    rw [hframe _ _ (Nat.le_trans (length_take_le _ _) hsize), length_take] at hfirst
    exact hfirst
  intro hmin piece hpiece
  obtain ⟨i, hi, rfl⟩ := (mem_chunks_iff hpos).mp hpiece
  have hlen : ((data.drop (i * segmentSize ctx c)).take (segmentSize ctx c)).length
      ≤ min (segmentSize ctx c) data.length := by
    rw [length_take, length_drop]
    omega
  dsimp only
  exact (hframe _ _ (by omega)).mpr (by omega)

end Emitted

/-- **Offload stamping.**  With large frames enabled, the frames of an IPv4 flow are
stamped `NEEDS_CSUM` exactly as they were built, unless the peer's MSS lies just
below the large-frame threshold and a segment of that size makes a frame longer
than an Ethernet frame. -/
theorem stamping_agrees_iff {q : SplitQueue} (hq : HoldsHeader q) {ctx : FrameCtx}
    (hlarge : ctx.largeFrames = true) {c : FastPathConn} {remoteIp guestIp : Ipv4Addr}
    (hr : c.remoteIp = .v4 remoteIp) (hg : c.guestIp = .v4 guestIp) (seqStart : BitVec 32)
    (data : Bytes) :
    (∀ f ∈ emitDataFrames ctx c seqStart data, StampAgrees q f)
      ↔ ¬ (1447 ≤ c.peerMss.toNat ∧ c.peerMss.toNat ≤ 1459 ∧ 1447 ≤ ctx.guestMss.val
        ∧ 1447 ≤ data.length) := by
  by_cases hmss : gsoSegmentMss ≤ c.peerMss.toNat
  · have hpath : emitDataFrames ctx c seqStart data
        = emitLargeFrames ctx c remoteIp guestIp seqStart data := by
      simp [emitDataFrames, hr, hg, hlarge, hmss]
    rw [hpath]
    simp only [gsoSegmentMss] at hmss
    exact iff_of_true (fun f hf => stampAgrees_emitLargeFrames hq hf) (by omega)
  have hpath : emitDataFrames ctx c seqStart data = emitSegments ctx c seqStart data := by
    simp [emitDataFrames, hr, hg, hlarge, hmss]
  rw [hpath, stampAgrees_emitSegments_iff hq hr hg]
  simp only [gsoSegmentMss] at hmss
  simp only [segmentSize, familyMss, hg, IpAddr.isIpv6, tcpMinMss, Bool.false_eq_true, if_false]
  omega

/-- A queue of one descriptor whose buffer holds exactly the virtio-net header: the
descriptor table at 0, the available ring at 16, the used ring at 24, the buffer at
40. -/
def headerQueue : SplitQueue where
  mem := ⟨[40, 0, 0, 0, 0, 0, 0, 0, 12, 0, 0, 0, 2, 0, 0, 0] ++ [0, 0, 1, 0, 0, 0, 0, 0]
    ++ List.replicate 28 0, 0⟩
  size := 1
  descGpa := 0
  availGpa := 16
  usedGpa := 24
  lastAvailIdx := 0
  usedIdx := 0
  eventIdx := true

theorem holdsHeader_headerQueue : HoldsHeader headerQueue :=
  ⟨by decide, (0, { headerQueue with lastAvailIdx := 1 }), by decide, ⟨40, 12, 2, 0⟩, by decide,
    by decide, by decide⟩

/-- The theorem for a peer that accepts 1460-byte segments. -/
theorem stamping_agrees_iff_large :
    let key : SynFlowKey := ⟨.v4 ⟨10, 0, 0, 2⟩, 40000, .v4 ⟨10, 0, 0, 1⟩, 80⟩
    let c : FastPathConn := .promoted key ⟨5001, 1001, 1460, none, 65535⟩ false false 0
    let ctx : FrameCtx := ⟨true, ⟨1460, by decide⟩, ⟨Mac.broadcast, Mac.broadcast⟩⟩
    (∀ f ∈ emitDataFrames ctx c 5001 (List.replicate 1450 0), StampAgrees headerQueue f)
      ↔ ¬ (1447 ≤ c.peerMss.toNat ∧ c.peerMss.toNat ≤ 1459 ∧ 1447 ≤ ctx.guestMss.val
        ∧ 1447 ≤ (List.replicate 1450 0 : Bytes).length) := by
  intro key c ctx
  exact stamping_agrees_iff holdsHeader_headerQueue rfl rfl rfl 5001 (List.replicate 1450 0)

/-- A peer with an MSS of 1450 gets a full-checksum frame of 1504 bytes, which is
stamped `NEEDS_CSUM`. -/
theorem stamping_disagrees :
    let key : SynFlowKey := ⟨.v4 ⟨10, 0, 0, 2⟩, 40000, .v4 ⟨10, 0, 0, 1⟩, 80⟩
    let c : FastPathConn := .promoted key ⟨5001, 1001, 1450, none, 65535⟩ false false 0
    let ctx : FrameCtx := ⟨true, ⟨1460, by decide⟩, ⟨Mac.broadcast, Mac.broadcast⟩⟩
    HoldsHeader headerQueue
      ∧ ¬ ∀ f ∈ emitDataFrames ctx c 5001 (List.replicate 1450 0), StampAgrees headerQueue f := by
  intro key c ctx
  have hpath : emitDataFrames ctx c 5001 (List.replicate 1450 0)
      = emitSegments ctx c 5001 (List.replicate 1450 0) := rfl
  have hsize : segmentSize ctx c = 1450 := by decide
  rw [hpath, stampAgrees_emitSegments_iff holdsHeader_headerQueue rfl rfl, hsize,
    length_replicate]
  exact ⟨holdsHeader_headerQueue, by decide⟩

/-! ## Chains -/

/-- Every chain that is posted gets the packet whole, laid out over its buffers, or has
no room for it and the frame is not reported as injected. -/
def InjectsWhole (q : SplitQueue) (frame : Bytes) : Prop :=
  ∀ headIdx popped, q.nextAvailHead = some (headIdx, popped) →
    let bufs := buffers frame q.size.toNat headIdx ⟨popped, 0, []⟩
    if virtioNetHdrSize + frame.length ≤ capacity bufs then
      ∃ used : BitVec 32, used.toNat = virtioNetHdrSize + frame.length
        ∧ injectOneFrame q frame =
          let pushed := (writeAll popped (scatter bufs (packet frame))).pushUsed headIdx used
          (pushed.1, some pushed.2, scatter bufs (packet frame))
    else (injectOneFrame q frame).2.1 = none

/-- **Injection over a chain.**  A frame is injected whole or not at all exactly if the
chain has no room at all, or has room for it and each of its buffers may end where it
does. -/
theorem injection_whole_iff (q : SplitQueue) (frame : Bytes) :
    InjectsWhole q frame ↔ ∀ headIdx popped, q.nextAvailHead = some (headIdx, popped) →
      let bufs := buffers frame q.size.toNat headIdx ⟨popped, 0, []⟩
      if virtioNetHdrSize + frame.length ≤ capacity bufs then
        virtioNetHdrSize + frame.length < 2 ^ 32 ∧ ∀ k, MayEnd frame (capacity (bufs.take k))
      else capacity bufs = 0 := by
  refine forall₂_congr fun headIdx popped => imp_congr_right fun hpop => ?_
  have hpos : 0 < virtioNetHdrSize + frame.length := Nat.add_pos_left (by decide) _
  by_cases hsize : q.size = 0
  · have hnone : buffers frame q.size.toNat headIdx ⟨popped, 0, []⟩ = [] := by
      rw [hsize]
      rfl
    have hfull : ¬ virtioNetHdrSize + frame.length ≤ capacity [] := Nat.not_le.mpr hpos
    dsimp only
    rw [hnone, if_neg hfull, if_neg hfull, injectOneFrame, if_pos hsize]
    exact iff_of_true rfl rfl
  have hchain := injectChain_eq frame q.size.toNat headIdx ⟨popped, 0, []⟩
  rw [foldl_fill _ _ (Nat.zero_le _)] at hchain
  rw [injectOneFrame, if_neg hsize, hpop]
  dsimp only
  rw [hchain]
  generalize buffers frame q.size.toNat headIdx ⟨popped, 0, []⟩ = bufs
  have hlayout : pieces frame 0 bufs = scatter bufs (packet frame)
      ↔ ∀ k, MayEnd frame (0 + capacity (bufs.take k)) :=
    pieces_eq_scatter_iff bufs ⟨by omega, fun _ => .inl rfl⟩ (Nat.zero_le _)
  simp only [Nat.zero_add, nil_append] at hlayout ⊢
  split
  next hroom =>
    rw [Nat.min_eq_left hroom, if_neg (Nat.ne_of_gt hpos)]
    constructor
    · rintro ⟨used, hused, heq⟩
      exact ⟨hused ▸ used.isLt, hlayout.mp (congrArg (fun r => r.2.2) heq)⟩
    · rintro ⟨hlt, hends⟩
      rw [hlayout.mpr hends]
      exact ⟨_, (BitVec.toNat_ofNat _ _).trans (Nat.mod_eq_of_lt hlt), rfl⟩
  rename_i hroom
  rw [Nat.min_eq_right (Nat.le_of_not_le hroom)]
  split
  next hempty =>
    exact iff_of_true rfl hempty
  next hsome =>
    exact iff_of_false (by simp) hsome

/-- A queue of two descriptors, chained: buffers of 11 and 2 bytes at 60 and 71 behind the
descriptor table, the available ring at 32 and the used ring at 40. -/
def splitHeaderQueue : SplitQueue where
  mem := ⟨[60, 0, 0, 0, 0, 0, 0, 0, 11, 0, 0, 0, 3, 0, 1, 0]
    ++ [71, 0, 0, 0, 0, 0, 0, 0, 2, 0, 0, 0, 2, 0, 0, 0] ++ [0, 0, 1, 0, 0, 0, 0, 0]
    ++ List.replicate 33 0, 0⟩
  size := 2
  descGpa := 0
  availGpa := 32
  usedGpa := 40
  lastAvailIdx := 0
  usedIdx := 0
  eventIdx := false

/-- A frame of one byte fits, but its header has no `num_buffers`; one of two bytes does
not fit and is reported as injected. -/
theorem split_header_injected :
    ¬ InjectsWhole splitHeaderQueue [7] ∧ ¬ InjectsWhole splitHeaderQueue [7, 7] := by
  constructor
  · intro h
    obtain ⟨used, -, heq⟩ := (if_pos (by decide)).mp (h 0 _ rfl)
    have hwrites : (injectOneFrame splitHeaderQueue [7]).2.2 = scatter
        [⟨60, 11, 3, 1⟩, ⟨71, 2, 2, 0⟩] (packet [7]) := congrArg (fun r => r.2.2) heq
    cases hwrites
  · intro h
    exact absurd ((if_neg (by decide)).mp (h 0 _ rfl)) (by decide)

end Arcbox.Inject

import Mathlib.Algebra.GroupWithZero.Nat
import Arcbox.Packet.Tcp

set_option autoImplicit false

/-!
# Injection: headers written into guest buffers

The injection thread (`arcbox-net-inject`, `inline_conn.rs`) writes the
virtio-net, Ethernet, IPv4 and TCP headers of a segment straight into a guest
buffer, with the TCP checksum left for the guest to complete.  The second part is
about that completion: which stored values lead to the checksum that
`build_tcp_data_frame` computes.  The last is about the buffers that `poll_inline_conns`
gathers for one `readv`: it looks at the cap on the payload for every buffer but the first.
-/

namespace Arcbox.Inject

open Foundation Foundation.OnesComplement Packet List

/-- `TOTAL_HDR_LEN`: virtio-net, Ethernet, IPv4 and TCP headers. -/
def totalHdrLen : Nat := 66

/-- The fields of an `InlineConn` its headers are made from. -/
structure InlineConn where
  remoteIp : Ipv4Addr
  guestIp : Ipv4Addr
  remotePort : BitVec 16
  guestPort : BitVec 16
  ourSeq : BitVec 32
  lastAck : BitVec 32
  gwMac : Mac
  guestMac : Mac
  deriving DecidableEq, Repr

variable (buf : Bytes) (conn : InlineConn)

/-- What the frames of a connection have in common with those of the builders. -/
def InlineConn.frameParams (window : BitVec 16) : TcpFrameParams Ipv4Addr :=
  { srcIp := conn.remoteIp, dstIp := conn.guestIp, srcPort := conn.remotePort,
    dstPort := conn.guestPort, seq := conn.ourSeq, ack := conn.lastAck, window := window,
    srcMac := conn.gwMac, dstMac := conn.guestMac }

/-- The little-endian encoding of a 16-bit field. -/
def leBytes16 (x : BitVec 16) : Bytes := [UInt8.ofNat x.toNat, UInt8.ofNat (x.toNat / 256)]

@[simp] theorem length_leBytes16 (x : BitVec 16) : (leBytes16 x).length = 2 := rfl

/-- The virtio-net header of a frame whose checksum the guest completes: flags,
`gso_type`, `hdr_len`, `gso_size`, `csum_start`, `csum_offset`, `num_buffers`. -/
def needsCsumHeader (gso : Bool) (numBuffers : BitVec 16) : Bytes :=
  [1, if gso then 1 else 0] ++ leBytes16 (if gso then 54 else 0)
    ++ leBytes16 (if gso then 1460 else 0) ++ leBytes16 34 ++ leBytes16 16
    ++ leBytes16 numBuffers

@[simp] theorem length_needsCsumHeader (gso : Bool) (numBuffers : BitVec 16) :
    (needsCsumHeader gso numBuffers).length = 12 := rfl

/-- The Ethernet, IPv4 and TCP headers of a segment, the checksum field holding
`tcp_pseudo_header_checksum`.  The length is cast to the 16-bit field. -/
def tcpHeaders (flags : UInt8) (window : BitVec 16) (payloadLen : Nat) : Bytes :=
  ethernetHeader conn.guestMac conn.gwMac [0x08, 0x00]
    ++ ipv4Header (BitVec.ofNat 16 (20 + (20 + payloadLen))) 0 0x4000 6 conn.remoteIp conn.guestIp
    ++ tcpSegment (conn.frameParams window) flags [] []
        (tcpPseudoHeaderChecksum conn.remoteIp conn.guestIp (20 + payloadLen))

@[simp] theorem length_tcpHeaders (flags : UInt8) (window : BitVec 16) (payloadLen : Nat) :
    (tcpHeaders conn flags window payloadLen).length = 54 := by
  simp [tcpHeaders]

theorem tcpHeaders_append (flags : UInt8) (window : BitVec 16) (payload : Bytes) :
    tcpHeaders conn flags window payload.length ++ payload
      = ethernetHeader conn.guestMac conn.gwMac [0x08, 0x00]
        ++ ipv4Header (BitVec.ofNat 16 (20 + (20 + payload.length))) 0 0x4000 6 conn.remoteIp
            conn.guestIp
        ++ tcpSegment (conn.frameParams window) flags [] payload
            (tcpPseudoHeaderChecksum conn.remoteIp conn.guestIp (20 + payload.length)) := by
  simp only [tcpHeaders, tcpSegment, append_assoc, append_nil]

/-- `write_inline_headers`: the buffer afterwards and the number of bytes written. -/
def writeInlineHeaders (payloadLen : Nat) (numBuffers : BitVec 16) : Bytes × Nat :=
  if buf.length < totalHdrLen then (buf, 0)
  else
    let ethTotalLen := 14 + (20 + (20 + payloadLen))
    (overwrite buf 0 (needsCsumHeader (decide (1500 < ethTotalLen)) numBuffers
      ++ tcpHeaders conn 0x18 65535 payloadLen), totalHdrLen)

/-- `write_ctrl_headers`. -/
def writeCtrlHeaders (tcpFlags : UInt8) (window : BitVec 16) : Bytes × Nat :=
  if buf.length < totalHdrLen then (buf, 0)
  else (overwrite buf 0 (needsCsumHeader false 1 ++ tcpHeaders conn tcpFlags window 0), totalHdrLen)

/-- `write_fin_headers`. -/
def writeFinHeaders : Bytes × Nat := writeCtrlHeaders buf conn 0x11 65535

/-- `write_rst_headers`. -/
def writeRstHeaders : Bytes × Nat := writeCtrlHeaders buf conn 0x14 0

def frameIn (written : Bytes × Nat) (payload : Bytes) : Bytes :=
  (written.1.take written.2).drop 12 ++ payload

theorem frameIn_writeInlineHeaders {buf : Bytes} (h : totalHdrLen ≤ buf.length) (conn : InlineConn)
    (payloadLen : Nat) (numBuffers : BitVec 16) (payload : Bytes) :
    frameIn (writeInlineHeaders buf conn payloadLen numBuffers) payload
      = tcpHeaders conn 0x18 65535 payloadLen ++ payload := by
  rw [writeInlineHeaders, if_neg (Nat.not_lt.mpr h)]
  simp [frameIn, overwrite, totalHdrLen, take_append]

theorem frameIn_writeCtrlHeaders {buf : Bytes} (h : totalHdrLen ≤ buf.length) (conn : InlineConn)
    (tcpFlags : UInt8) (window : BitVec 16) :
    frameIn (writeCtrlHeaders buf conn tcpFlags window) [] = tcpHeaders conn tcpFlags window 0 := by
  rw [writeCtrlHeaders, if_neg (Nat.not_lt.mpr h)]
  simp [frameIn, overwrite, totalHdrLen, take_append]

/-! ## Completing a checksum -/

/-- The `VIRTIO_NET_HDR_F_NEEDS_CSUM` rule for `csum_start = 34` and
`csum_offset = 16`: the checksum of everything from the TCP header on, the stored
field included, replaces the field. -/
def completeChecksum (frame : Bytes) : Bytes :=
  overwrite frame (34 + 16)
    (beBytes16 (BitVec.ofNat 16 (complement (fold (wordSum (frame.drop 34))))))

section Segment

variable {A : Type} (p : TcpFrameParams A) (flags : UInt8) (options payload : Bytes)

theorem wordSum_tcpSegment (checksum : BitVec 16) :
    wordSum (tcpSegment p flags options payload checksum)
      = wordSum (tcpSegment p flags options payload 0) + checksum.toNat := by
  have hfield : ∀ field : BitVec 16, wordSum (tcpSegment p flags options payload field)
      = wordSum (tcpHeaderStart p.srcPort p.dstPort p.seq p.ack (20 + options.length) flags p.window)
        + (field.toNat + wordSum ([0, 0] ++ options ++ payload)) := by
    intro field
    rw [tcpSegment, append_assoc, wordSum_append _ _ (by simp), wordSum_append _ _ (by simp),
      wordSum_beBytes16]
  rw [hfield checksum, hfield 0, show (0 : BitVec 16).toNat = 0 from rfl]
  omega

theorem wordSum_tcpSegment_pos (checksum : BitVec 16) :
    0 < wordSum (tcpSegment p flags [] payload checksum) := by
  simp only [tcpSegment, tcpHeaderStart, beBytes16, beBytes32, cons_append, nil_append,
    wordSum_cons_cons, length_nil]
  have hoffset : (UInt8.ofNat ((20 + 0) / 4) <<< 4).toNat = 80 := by decide
  omega

/-- Two segments that differ in the checksum differ. -/
theorem tcpSegment_inj {x y : BitVec 16} :
    tcpSegment p flags options payload x = tcpSegment p flags options payload y ↔ x = y := by
  constructor
  · intro heq
    simp only [tcpSegment, append_assoc, append_cancel_left_eq] at heq
    have hpair := (append_inj heq rfl).1
    rw [← be16_beBytes16 x, ← be16_beBytes16 y]
    simp only [beBytes16, List.cons.injEq, and_true] at hpair
    rw [hpair.1, hpair.2]
  · rintro rfl
    rfl

/-- `tcp_checksum` of a segment whose field is zero, when it fits an IP packet. -/
theorem tcpChecksum_tcpSegment (src dst : Ipv4Addr)
    (h : 40 + options.length + payload.length ≤ 65535) :
    tcpChecksum src dst (tcpSegment p flags options payload 0)
      = BitVec.ofNat 16 (complement (fold
          (pseudoHeaderSum src dst 6 (20 + options.length + payload.length)
            + wordSum (tcpSegment p flags options payload 0)))) := by
  have hlen := length_tcpSegment p flags options payload 0
  have hfield : (tcpSegment p flags options payload 0)[16]? = some 0
      ∧ (tcpSegment p flags options payload 0)[17]? = some 0 := ⟨rfl, rfl⟩
  have hsum := wordSum_le (tcpSegment p flags options payload 0)
  have hpseudo : pseudoHeaderSum src dst 6 (20 + options.length + payload.length)
      < 4 * 65536 + 6 + 65536 := by
    have h₁ := (be16 src.a src.b).isLt
    have h₂ := (be16 src.c src.d).isLt
    have h₃ := (be16 dst.a dst.b).isLt
    have h₄ := (be16 dst.c dst.d).isLt
    simp only [pseudoHeaderSum]
    omega
  rw [hlen] at hsum
  simp only [tcpChecksum, hfield.1, hfield.2, checksumAdd, hlen]
  rw [checksumAddScalar_eq _ (by rw [hlen]; omega), Nat.mod_eq_of_lt (by omega)]
  rfl

end Segment

theorem completeChecksum_append {A : Type} (p : TcpFrameParams A) (flags : UInt8) (payload : Bytes)
    (stored : BitVec 16) {headers : Bytes} (h : headers.length = 34) :
    completeChecksum (headers ++ tcpSegment p flags [] payload stored)
      = headers ++ tcpSegment p flags [] payload (BitVec.ofNat 16 (complement (fold
          (wordSum (tcpSegment p flags [] payload stored))))) := by
  rw [completeChecksum, drop_left' h]
  generalize BitVec.ofNat 16 _ = completed
  simp only [tcpSegment, ← append_assoc headers]
  exact overwrite_append (by simp [h]) rfl

def CompletesTo (src dst : Ipv4Addr) (frame : Bytes) (full : Option Bytes) : Prop :=
  some (completeChecksum frame) = full ∧ TcpVerifies src dst ((completeChecksum frame).drop 34)

theorem tcpVerifies_tcpSegment {A : Type} (p : TcpFrameParams A) (flags : UInt8) (payload : Bytes)
    (src dst : Ipv4Addr) (h : 40 + payload.length ≤ 65535) :
    TcpVerifies src dst (tcpSegment p flags [] payload
      (tcpChecksum src dst (tcpSegment p flags [] payload 0))) := by
  rw [TcpVerifies, wordSum_tcpSegment, length_tcpSegment,
    tcpChecksum_tcpSegment p flags [] payload src dst (by simpa using h), toNat_complement_fold,
    ← Nat.add_assoc]
  exact fold_add_complement _

/-- A frame that holds `tcp_pseudo_header_checksum` completes to the frame with the
full checksum exactly when the pseudo-header sum is a multiple of `65535`. -/
theorem completesTo_iff {A : Type} (p : TcpFrameParams A) (flags : UInt8) (payload : Bytes)
    (src dst : Ipv4Addr) (h : 40 + payload.length ≤ 65535) {headers : Bytes}
    (hheaders : headers.length = 34) :
    CompletesTo src dst
        (headers ++ tcpSegment p flags [] payload
          (tcpPseudoHeaderChecksum src dst (20 + payload.length)))
        (some (headers ++ tcpSegment p flags [] payload
          (tcpChecksum src dst (tcpSegment p flags [] payload 0))))
      ↔ 65535 ∣ pseudoHeaderSum src dst 6 (20 + payload.length) := by
  have hpos : 0 < pseudoHeaderSum src dst 6 (20 + payload.length) := by
    simp only [pseudoHeaderSum]
    omega
  have hiff := complement_fold_eq_iff hpos (wordSum_tcpSegment_pos p flags payload 0)
  have hfull := tcpChecksum_tcpSegment p flags [] payload src dst (by simpa using h)
  simp only [length_nil, Nat.add_zero] at hfull
  have heq : BitVec.ofNat 16 (complement (fold (wordSum (tcpSegment p flags [] payload
        (tcpPseudoHeaderChecksum src dst (20 + payload.length))))))
      = tcpChecksum src dst (tcpSegment p flags [] payload 0)
      ↔ 65535 ∣ pseudoHeaderSum src dst 6 (20 + payload.length) := by
    rw [hfull, wordSum_tcpSegment, tcpPseudoHeaderChecksum, toNat_complement_fold, ← hiff,
      ← BitVec.toNat_inj, toNat_complement_fold, toNat_complement_fold]
  rw [CompletesTo, completeChecksum_append p flags payload _ hheaders, Option.some.injEq,
    append_cancel_left_eq, tcpSegment_inj, heq, drop_left' hheaders]
  constructor
  · exact And.left
  · intro hdvd
    rw [heq.mpr hdvd]
    exact ⟨hdvd, tcpVerifies_tcpSegment p flags payload src dst h⟩

/-- The same against the frame `build_frame` makes. -/
theorem completesTo_full_iff (p : TcpFrameParams Ipv4Addr) (flags : UInt8) (payload : Bytes)
    (h : 40 + payload.length ≤ 65535) :
    CompletesTo p.srcIp p.dstIp
        (ethernetHeader p.dstMac p.srcMac [0x08, 0x00]
          ++ ipv4Header (BitVec.ofNat 16 (20 + (20 + payload.length))) 0 0x4000 6 p.srcIp p.dstIp
          ++ tcpSegment p flags [] payload
            (tcpPseudoHeaderChecksum p.srcIp p.dstIp (20 + payload.length)))
        (buildFrame p.toIp flags [] payload)
      ↔ 65535 ∣ pseudoHeaderSum p.srcIp p.dstIp 6 (20 + payload.length) := by
  rw [buildFrame_toIp p flags [] payload (by simpa using h)]
  exact completesTo_iff p flags payload p.srcIp p.dstIp h (by simp)

/-- **Partial checksums.**  The stored field of `build_tcp_data_frame_partial_csum`,
`write_inline_headers` and `write_ctrl_headers` completes to the full checksum
exactly when the pseudo-header sum is a multiple of `65535`: the field holds the
complement of the sum, and the completion rule expects the sum. -/
theorem partial_checksum_completes_iff (p : TcpFrameParams Ipv4Addr) (conn : InlineConn)
    (payload buf : Bytes) (tcpFlags : UInt8) (window numBuffers : BitVec 16)
    (hpayload : 40 + payload.length ≤ 65535) (hbuf : totalHdrLen ≤ buf.length) :
    ((∃ frame, buildTcpDataFramePartialCsum p payload = some frame
        ∧ CompletesTo p.srcIp p.dstIp frame (buildTcpDataFrame p.toIp payload))
      ↔ 65535 ∣ pseudoHeaderSum p.srcIp p.dstIp 6 (20 + payload.length))
    ∧ (CompletesTo conn.remoteIp conn.guestIp
        (frameIn (writeInlineHeaders buf conn payload.length numBuffers) payload)
        (buildTcpDataFrame (conn.frameParams 65535).toIp payload)
      ↔ 65535 ∣ pseudoHeaderSum conn.remoteIp conn.guestIp 6 (20 + payload.length))
    ∧ (CompletesTo conn.remoteIp conn.guestIp
        (frameIn (writeCtrlHeaders buf conn tcpFlags window) [])
        (buildFrame (conn.frameParams window).toIp tcpFlags [] [])
      ↔ 65535 ∣ pseudoHeaderSum conn.remoteIp conn.guestIp 6 20) := by
  refine ⟨?_, ?_, ?_⟩
  · rw [buildTcpDataFramePartialCsum, if_pos (by omega)]
    simp only [Option.some.injEq, exists_eq_left']
    exact completesTo_full_iff p 0x18 payload hpayload
  · rw [frameIn_writeInlineHeaders hbuf, tcpHeaders_append]
    exact completesTo_full_iff (conn.frameParams 65535) 0x18 payload hpayload
  · rw [frameIn_writeCtrlHeaders hbuf]
    exact completesTo_full_iff (conn.frameParams window) tcpFlags [] (by decide)

/-- The theorem at a payload that makes the pseudo-header sum `65535`. -/
theorem partial_checksum_completes_iff_zero_sum : let p : TcpFrameParams Ipv4Addr :=
      ⟨⟨0xFF, 0xE4, 0, 0⟩, ⟨0, 0, 0, 0⟩, 80, 40000, 1, 1, 65535, Mac.broadcast, Mac.broadcast⟩
    let conn : InlineConn :=
      ⟨p.srcIp, p.dstIp, 80, 40000, 1, 1, Mac.broadcast, Mac.broadcast⟩
    let buf : Bytes := List.replicate 66 0
    ((∃ frame, buildTcpDataFramePartialCsum p [7] = some frame
        ∧ CompletesTo p.srcIp p.dstIp frame (buildTcpDataFrame p.toIp [7]))
      ↔ 65535 ∣ pseudoHeaderSum p.srcIp p.dstIp 6 21)
    ∧ (CompletesTo conn.remoteIp conn.guestIp (frameIn (writeInlineHeaders buf conn 1 1) [7])
        (buildTcpDataFrame (conn.frameParams 65535).toIp [7])
      ↔ 65535 ∣ pseudoHeaderSum conn.remoteIp conn.guestIp 6 21)
    ∧ (CompletesTo conn.remoteIp conn.guestIp (frameIn (writeCtrlHeaders buf conn 0x11 65535) [])
        (buildFrame (conn.frameParams 65535).toIp 0x11 [] [])
      ↔ 65535 ∣ pseudoHeaderSum conn.remoteIp conn.guestIp 6 20) := by
  intro p conn buf
  exact partial_checksum_completes_iff p conn [7] buf 0x11 65535 1 (by decide) (by decide)

/-- A one-byte segment between 10.0.2.1 and 10.0.2.2, from the builder and as headers
for data and for a FIN in a guest buffer: none completes to the frame with the full
checksum. -/
theorem partial_checksum_incomplete : let p : TcpFrameParams Ipv4Addr :=
      ⟨⟨10, 0, 2, 1⟩, ⟨10, 0, 2, 2⟩, 80, 40000, 1, 1, 65535, Mac.broadcast, Mac.broadcast⟩
    let conn : InlineConn :=
      ⟨p.srcIp, p.dstIp, 80, 40000, 1, 1, Mac.broadcast, Mac.broadcast⟩
    let buf : Bytes := List.replicate 66 0
    (∃ frame, buildTcpDataFramePartialCsum p [7] = some frame
        ∧ ¬ CompletesTo p.srcIp p.dstIp frame (buildTcpDataFrame p.toIp [7]))
    ∧ ¬ CompletesTo conn.remoteIp conn.guestIp (frameIn (writeInlineHeaders buf conn 1 1) [7])
        (buildTcpDataFrame (conn.frameParams 65535).toIp [7])
    ∧ ¬ CompletesTo conn.remoteIp conn.guestIp
        (frameIn (writeCtrlHeaders buf conn 0x11 65535) [])
        (buildFrame (conn.frameParams 65535).toIp 0x11 [] []) := by
  intro p conn buf
  have hsum : ∀ len, len = 20 ∨ len = 21 → ¬ 65535 ∣ pseudoHeaderSum p.srcIp p.dstIp 6 len := by
    rintro len (rfl | rfl) <;> decide
  refine ⟨⟨_, rfl, ?_⟩, ?_, ?_⟩
  · exact fun h => hsum 21 (.inr rfl) ((completesTo_full_iff p 0x18 [7] (by decide)).mp h)
  · exact fun h => hsum 21 (.inr rfl)
      ((completesTo_full_iff (conn.frameParams 65535) 0x18 [7] (by decide)).mp h)
  · exact fun h => hsum 20 (.inl rfl)
      ((completesTo_full_iff (conn.frameParams 65535) 0x11 [] (by decide)).mp h)

/-! ## How long an inline frame can get -/

/-- The head descriptor of an available entry, and whether it lies in guest memory. -/
structure Posted where
  len : BitVec 32
  isWrite : Bool
  mapped : Bool
deriving DecidableEq, Repr

def maxMerge : Nat := 16

def maxFramePayload : Nat := 60000

/-- The gather loop: the room for payload in each buffer taken, after `count` of them with room
for `total` bytes.  The first buffer also takes the headers; an entry without a descriptor is
`none`. -/
def gather (count total : Nat) : List (Option Posted) → List Nat
  | some desc :: rest =>
    let iovCap := if count = 0 then desc.len.toNat - totalHdrLen else desc.len.toNat
    if count < maxMerge ∧ desc.isWrite ∧ 0 < iovCap ∧ desc.mapped ∧
        (0 < count → total + iovCap ≤ maxFramePayload) then
      iovCap :: gather (count + 1) (total + iovCap) rest
    else []
  | _ => []

/-- The capacities handed to `readv`: those of the buffers, clamped to the send budget. -/
def iovCaps (budget : Nat) : List Nat → List Nat
  | fullCap :: caps =>
    let cap := min fullCap budget
    if cap = 0 then [] else cap :: iovCaps (budget - cap) caps
  | [] => []

/-- What one `readv` can deliver. -/
def readable (posted : List (Option Posted)) (budget : Nat) : Nat :=
  (iovCaps budget (gather 0 0 posted)).sum

def totalLength (frame : Bytes) : Nat :=
  match frame.drop 16 with
  | hi :: lo :: _ => (be16 hi lo).toNat
  | _ => 0

/-- Whatever a `readv` delivers, the frame's length field is its length. -/
def LengthFits (posted : List (Option Posted)) (budget : Nat) : Prop :=
  ∀ payload : Bytes, payload.length ≤ readable posted budget → 40 + payload.length ≤ 65535 ∧
    ∀ buf conn numBuffers, totalHdrLen ≤ buf.length →
      let frame := frameIn (writeInlineHeaders buf conn payload.length numBuffers) payload
      14 + totalLength frame = frame.length

theorem sum_gather_le (count total : Nat) (posted : List (Option Posted)) (hcount : 0 < count) :
    total + (gather count total posted).sum ≤ max total maxFramePayload := by
  fun_induction gather count total posted with
  | case1 count total desc rest iovCap htaken ih =>
    have hle := htaken.2.2.2.2 hcount
    have hrest := ih (Nat.succ_pos count)
    rw [sum_cons]
    omega
  | case2 => exact Nat.le_max_left _ _
  | case3 => exact Nat.le_max_left _ _

/-- The head entry's descriptor, where the loop takes it, leaves no more room than a packet has. -/
def FirstFits (posted : List (Option Posted)) : Prop :=
  ∀ desc, posted.head? = some (some desc) → desc.isWrite = true → desc.mapped = true →
    desc.len.toNat ≤ totalHdrLen + 65495

theorem sum_gather_first {posted : List (Option Posted)} (hfirst : FirstFits posted) :
    (gather 0 0 posted).sum ≤ 65495 := by
  fun_cases gather 0 0 posted with
  | case1 desc rest iovCap htaken =>
    have hlen := hfirst desc rfl htaken.2.1 htaken.2.2.2.1
    have hrest := sum_gather_le (0 + 1) (0 + iovCap) rest (Nat.succ_pos 0)
    have hcap : iovCap = desc.len.toNat - totalHdrLen := rfl
    rw [sum_cons]
    unfold maxFramePayload at hrest
    omega
  | case2 => exact Nat.zero_le _
  | case3 => exact Nat.zero_le _

/-- A first buffer that is too long is taken whole, up to the budget. -/
theorem readable_of_not_firstFits {posted : List (Option Posted)} {budget : Nat}
    (hbudget : 65495 < budget) (h : ¬ FirstFits posted) : 65495 < readable posted budget := by
  simp only [FirstFits, Classical.not_forall, Nat.not_le] at h
  obtain ⟨desc, hhead, hwrite, hmapped, hlong⟩ := h
  obtain ⟨rest, rfl⟩ : ∃ rest, posted = some desc :: rest := by
    cases posted with
    | nil => cases hhead
    | cons entry rest =>
      cases hhead
      exact ⟨rest, rfl⟩
  have htaken : 0 < maxMerge ∧ desc.isWrite = true ∧ 0 < desc.len.toNat - totalHdrLen ∧
      desc.mapped = true ∧ (0 < 0 → 0 + (desc.len.toNat - totalHdrLen) ≤ maxFramePayload) :=
    ⟨by decide, hwrite, by omega, hmapped, fun h => absurd h (Nat.lt_irrefl 0)⟩
  have hcap : min (desc.len.toNat - totalHdrLen) budget ≠ 0 := by omega
  simp only [readable, gather, if_true, if_pos htaken, iovCaps, if_neg hcap, sum_cons]
  omega

theorem sum_iovCaps_le (budget : Nat) (caps : List Nat) :
    (iovCaps budget caps).sum ≤ min budget caps.sum := by
  fun_induction iovCaps budget caps with
  | case1 => exact Nat.zero_le _
  | case2 budget fullCap caps cap hcap ih =>
    rw [sum_cons, sum_cons]
    omega
  | case3 => exact Nat.zero_le _

theorem totalLength_frameIn {buf payload : Bytes} (h : totalHdrLen ≤ buf.length) (conn : InlineConn)
    (numBuffers : BitVec 16) :
    totalLength (frameIn (writeInlineHeaders buf conn payload.length numBuffers) payload) =
      (40 + payload.length) % 2 ^ 16 := by
  have heth : (ethernetHeader conn.guestMac conn.gwMac [0x08, 0x00]).length = 14 :=
    length_ethernetHeader _ _ rfl
  rw [frameIn_writeInlineHeaders h, tcpHeaders_append, append_assoc, totalLength, drop_append,
    heth, drop_eq_nil_of_le (by omega)]
  refine (congrArg BitVec.toNat (be16_beBytes16 _)).trans ?_
  rw [BitVec.toNat_ofNat, ← Nat.add_assoc]

/-- The length field is right, whatever is read, exactly where the budget or the first buffer leaves
no more than a packet; a first buffer that the loop refuses leaves nothing. -/
theorem inline_length_fits_iff (posted : List (Option Posted)) (budget : Nat) :
    LengthFits posted budget ↔ budget ≤ 65495 ∨ FirstFits posted := by
  constructor
  · intro h
    refine Classical.byContradiction fun hlong => ?_
    obtain ⟨hbudget, hfirst⟩ := not_or.mp hlong
    have hread := readable_of_not_firstFits (Nat.not_le.mp hbudget) hfirst
    have hfits := (h (replicate 65496 0) (by rw [length_replicate]; exact hread)).1
    rw [length_replicate] at hfits
    omega
  intro h payload hread
  have hsum := sum_iovCaps_le budget (gather 0 0 posted)
  have hfits : 40 + payload.length ≤ 65535 := by
    unfold readable at hread
    rcases h with hbudget | hfirst
    · omega
    · have hgather := sum_gather_first hfirst
      omega
  refine ⟨hfits, fun buf conn numBuffers hbuf => ?_⟩
  dsimp only
  rw [totalLength_frameIn hbuf, Nat.mod_eq_of_lt (by omega), frameIn_writeInlineHeaders hbuf]
  simp
  omega

/-- One buffer of 70066 bytes: 70000 bytes of payload make a packet of 70040 bytes. -/
theorem inline_length_exceeded : ¬ LengthFits [some ⟨70066, true, true⟩] 262144 := by
  intro h
  have hfits := (h (replicate 70000 0) (by rw [length_replicate]; decide)).1
  rw [length_replicate] at hfits
  omega

end Arcbox.Inject

import Arcbox.Foundation.Chunks
import Arcbox.Packet.Tcp

set_option autoImplicit false

/-!
# Bridge: flows and the frames they exchange

The data of `splicetcp`'s TCP bridge (`tcp_bridge/mod.rs`): the guest segments it
parses, the frames it emits, and `FastPathConn`, the state of one flow.  The
cursors a flow shares with its inline reader through atomics are plain fields
here; a step of the reader is a change of those fields.

A frame is kept as the builder call that makes it (`TcpFrame`), and
`TcpFrame.bytes` runs the builder.
-/

namespace Arcbox.Bridge

open Foundation List
open Packet

/-! ## Constants -/

/-- `HONORED_WINDOW_CAP`. -/
def honoredWindowCap : Nat := 256 * 1024

/-- `OOO_REASSEMBLY_CAP`. -/
def oooReassemblyCap : Nat := 4 * 1024 * 1024

/-- `OOO_MAX_SEGMENTS`. -/
def oooMaxSegments : Nat := 4096

/-- `TCP_MIN_MSS`. -/
def tcpMinMss : Nat := 536

/-- `GSO_SEGMENT_MSS`. -/
def gsoSegmentMss : Nat := 1460

/-- `LARGE_FRAME_MAX_PAYLOAD`. -/
def largeFrameMaxPayload : Nat := 32 * 1024

/-- Half of the 32-bit sequence space; a difference at or above it is negative. -/
def half : Nat := 0x80000000

/-- A point in time, in nanoseconds.  `Instant::duration_since` saturates at
zero, as subtraction here does. -/
abbrev Instant := Nat

/-- One millisecond. -/
def msec : Nat := 1000000

/-- `INITIAL_RTO`. -/
def initialRto : Nat := 200 * msec

/-- `MAX_RTO`. -/
def maxRto : Nat := 2000 * msec

/-- `ZERO_WINDOW_PERSIST_INTERVAL`. -/
def zeroWindowPersistInterval : Nat := 200 * msec

/-- `HALF_CLOSE_TIMEOUT`. -/
def halfCloseTimeout : Nat := 120000 * msec

/-! ## Guest segments -/

/-- `SynFlowKey`: the four-tuple, as the guest sends it. -/
structure SynFlowKey where
  srcIp : IpAddr
  srcPort : BitVec 16
  dstIp : IpAddr
  dstPort : BitVec 16
  deriving DecidableEq, Repr

/-- `TcpPacketView`: what the validating parser hands on about one guest frame.
The IP length field bounds the payload. -/
structure TcpView where
  key : SynFlowKey
  seq : BitVec 32
  ack : BitVec 32
  flags : UInt8
  window : BitVec 16
  payload : Bytes
  payload_le : payload.length ≤ 65535
  deriving DecidableEq, Repr

namespace TcpView

variable (t : TcpView)

/-- `flags & 0x01 != 0`. -/
def isFin : Bool := t.flags &&& 0x01 != 0

/-- `flags & 0x02 != 0`. -/
def isSyn : Bool := t.flags &&& 0x02 != 0

/-- `flags & 0x04 != 0`. -/
def isRst : Bool := t.flags &&& 0x04 != 0

/-- `flags & 0x10 != 0`. -/
def isAck : Bool := t.flags &&& 0x10 != 0

/-- The sequence number after the payload. -/
def seqEnd : BitVec 32 := t.seq + BitVec.ofNat 32 t.payload.length

end TcpView

/-! ## Emitted frames -/

/-- A frame toward the guest, by the builder that makes it. -/
inductive TcpFrame where
  | ack (p : TcpFrameParams IpAddr)
  | data (p : TcpFrameParams IpAddr) (payload : Bytes)
  | dataPartialCsum (p : TcpFrameParams Ipv4Addr) (payload : Bytes)
  | fin (p : TcpFrameParams IpAddr)
  | rst (p : TcpFrameParams IpAddr)
  deriving DecidableEq, Repr

namespace TcpFrame

/-- The bytes of the frame. -/
def bytes : TcpFrame → Option Bytes
  | ack p => buildTcpAckFrame p
  | data p payload => buildTcpDataFrame p payload
  | dataPartialCsum p payload => buildTcpDataFramePartialCsum p payload
  | fin p => buildTcpFinFrame p
  | rst p => buildTcpRstFrame p

/-- The parameters the frame was built from. -/
def params : TcpFrame → TcpFrameParams IpAddr
  | ack p => p
  | data p _ => p
  | dataPartialCsum p _ => p.toIp
  | fin p => p
  | rst p => p

/-- The payload the frame carries. -/
def payload : TcpFrame → Bytes
  | data _ payload => payload
  | dataPartialCsum _ payload => payload
  | ack _ | fin _ | rst _ => []

/-- The frame has the FIN flag set. -/
def isFin : TcpFrame → Bool
  | fin _ => true
  | ack _ | data _ _ | dataPartialCsum _ _ | rst _ => false

/-- The TCP checksum field holds only the pseudo-header checksum. -/
def isPartialCsum : TcpFrame → Bool
  | dataPartialCsum _ _ => true
  | ack _ | data _ _ | fin _ | rst _ => false

/-- The flow the frame belongs to, named as the guest names it. -/
def flow (f : TcpFrame) : SynFlowKey :=
  ⟨f.params.dstIp, f.params.dstPort, f.params.srcIp, f.params.srcPort⟩

end TcpFrame

/-! ## One flow -/

/-- The host socket of a flow, by what went through it: the bytes it accepted,
the bytes its reads returned, and whether its write side was shut down. -/
structure HostStream where
  written : Bytes
  received : Bytes
  writeShut : Bool
  deriving DecidableEq, Repr

/-- `RetxRing`: the sequence number of the first buffered byte, the sent bytes
not yet acknowledged, and the position of the FIN once sent. -/
structure RetxRing where
  base : BitVec 32
  buf : Bytes
  finSeq : Option (BitVec 32)
  deriving DecidableEq, Repr

/-- `FastPathConn`. -/
structure FastPathConn where
  stream : HostStream
  ourSeq : BitVec 32
  lastAck : BitVec 32
  lastAckShared : Option (BitVec 32)
  remoteIp : IpAddr
  guestIp : IpAddr
  remotePort : BitVec 16
  guestPort : BitVec 16
  peerMss : BitVec 16
  guestWscale : Fin 15
  guestAcked : BitVec 32
  guestWindow : BitVec 32
  upWouldBlock : Nat
  upShortWrites : Nat
  upOutOfOrder : Nat
  oooSegs : List (BitVec 32 × Bytes)
  oooBytes : Nat
  upOooDropped : Nat
  windowStalled : Bool
  windowStalledAt : Option Instant
  retransmitBuf : Bytes
  retransmitSeq : BitVec 32
  lastProgress : Instant
  rto : Nat
  dupAcks : Nat
  fastRetransmit : Bool
  finSeq : Option (BitVec 32)
  retransmits : Nat
  hostEof : Bool
  guestFinAt : Option Instant
  inlineOwned : Bool
  upBytes : Nat
  downBytes : Nat
  downShared : Option Nat
  dead : Option Bool
  lastGuestActivity : Instant
  solicitingSince : Option Instant
  retx : Option RetxRing
  deriving DecidableEq, Repr

/-- `FastPathInit`: what the handshake established.  The window shift is at most
14. -/
structure FastPathInit where
  ourSeq : BitVec 32
  lastAck : BitVec 32
  peerMss : BitVec 16
  peerWscale : Option (Fin 15)
  guestWindow : BitVec 32
  deriving DecidableEq, Repr

/-- The flow `promote_to_fast_path` enters into the table.  `inlineOwned` says
whether the connection sink took a clone of the socket, and `observed` whether a
flow observer is installed. -/
def FastPathConn.promoted (key : SynFlowKey) (init : FastPathInit) (inlineOwned observed : Bool)
    (now : Instant) : FastPathConn where
  stream := ⟨[], [], false⟩
  ourSeq := init.ourSeq
  lastAck := init.lastAck
  lastAckShared := some init.lastAck
  remoteIp := key.dstIp
  guestIp := key.srcIp
  remotePort := key.dstPort
  guestPort := key.srcPort
  peerMss := init.peerMss
  guestWscale := init.peerWscale.getD 0
  guestAcked := init.ourSeq
  guestWindow := init.guestWindow
  upWouldBlock := 0
  upShortWrites := 0
  upOutOfOrder := 0
  oooSegs := []
  oooBytes := 0
  upOooDropped := 0
  windowStalled := false
  windowStalledAt := none
  retransmitBuf := []
  retransmitSeq := init.ourSeq
  lastProgress := now
  rto := initialRto
  dupAcks := 0
  fastRetransmit := false
  finSeq := none
  retransmits := 0
  hostEof := false
  guestFinAt := none
  inlineOwned := inlineOwned
  upBytes := 0
  downBytes := 0
  downShared := if inlineOwned && observed then some 0 else none
  dead := if inlineOwned then some false else none
  lastGuestActivity := now
  solicitingSince := none
  retx := if inlineOwned then some ⟨init.ourSeq, [], none⟩ else none

namespace FastPathConn

def key (c : FastPathConn) : SynFlowKey := ⟨c.guestIp, c.guestPort, c.remoteIp, c.remotePort⟩

/-- `set_last_ack`. -/
def setLastAck (c : FastPathConn) (ack : BitVec 32) : FastPathConn :=
  { c with lastAck := ack, lastAckShared := c.lastAckShared.map fun _ => ack }

end FastPathConn

/-- `send_budget`. -/
def sendBudget (ourSeq guestAcked : BitVec 32) (guestWindow : Nat) : Nat :=
  let inFlight := (ourSeq - guestAcked).toNat
  if half ≤ inFlight then guestWindow else guestWindow - inFlight

/-! ## Segmentation (`tcp_bridge/segmentation.rs`) -/

/-- The MAC addresses frames are built with: the gateway's and the guest's. -/
structure LinkMacs where
  gw : Mac
  guest : Mac
  deriving DecidableEq, Repr

/-- A segmentation budget: `set_fast_path_mtu` clamps it to what an IPv4 packet
can carry. -/
def SegmentBudget := { n : Nat // 1 ≤ n ∧ n ≤ 65495 }

/-- `FrameCtx`. -/
structure FrameCtx where
  largeFrames : Bool
  guestMss : SegmentBudget
  macs : LinkMacs

variable (ctx : FrameCtx) (c : FastPathConn)

/-- The parameters of every frame of a flow: it goes from the remote end to the
guest and acknowledges what the flow has taken so far. -/
def FastPathConn.frameParams (macs : LinkMacs) (seq : BitVec 32) (window : BitVec 16) :
    TcpFrameParams IpAddr :=
  { srcIp := c.remoteIp, dstIp := c.guestIp, srcPort := c.remotePort, dstPort := c.guestPort,
    seq := seq, ack := c.lastAck, window := window, srcMac := macs.gw, dstMac := macs.guest }

/-- `family_mss`. -/
def familyMss (ip : IpAddr) (ipv4Mss : Nat) : Nat :=
  if ip.isIpv6 then max (ipv4Mss - 20) 1 else ipv4Mss

/-- The segment size of the MSS-clamped path. -/
def segmentSize : Nat :=
  let peerMss := if c.guestIp.isIpv6 then max c.peerMss.toNat 1 else max c.peerMss.toNat tcpMinMss
  min (familyMss c.guestIp ctx.guestMss.val) peerMss

/-- The frames of the MSS-clamped path, one per segment. -/
def emitSegments (seqStart : BitVec 32) (data : Bytes) : List TcpFrame :=
  (chunks (segmentSize ctx c) data).map fun piece =>
    .data (c.frameParams ctx.macs (seqStart + BitVec.ofNat 32 piece.1) 65535) piece.2

/-- The frames of the large-frame path: one per `LARGE_FRAME_MAX_PAYLOAD` bytes,
with a partial checksum as soon as the frame exceeds an Ethernet frame. -/
def emitLargeFrames (remoteIp guestIp : Ipv4Addr) (seqStart : BitVec 32) (data : Bytes) :
    List TcpFrame :=
  (chunks largeFrameMaxPayload data).map fun piece =>
    let params : TcpFrameParams Ipv4Addr :=
      { srcIp := remoteIp, dstIp := guestIp, srcPort := c.remotePort, dstPort := c.guestPort,
        seq := seqStart + BitVec.ofNat 32 piece.1, ack := c.lastAck, window := 65535,
        srcMac := ctx.macs.gw, dstMac := ctx.macs.guest }
    if 1500 < ethHeaderLen + 40 + piece.2.length then
      .dataPartialCsum params piece.2
    else
      .data params.toIp piece.2

/-- `emit_data_frames`. -/
def emitDataFrames (seqStart : BitVec 32) (data : Bytes) : List TcpFrame :=
  match c.remoteIp, c.guestIp with
  | .v4 remoteIp, .v4 guestIp =>
      if ctx.largeFrames && decide (gsoSegmentMss ≤ c.peerMss.toNat) then
        emitLargeFrames ctx c remoteIp guestIp seqStart data
      else emitSegments ctx c seqStart data
  | _, _ => emitSegments ctx c seqStart data

theorem segmentSize_pos : 0 < segmentSize ctx c := by
  have hmss := ctx.guestMss.property.1
  simp only [segmentSize, familyMss, tcpMinMss]
  split <;> omega

/-- Each emitted data frame carries a run of the data at the sequence number of
its offset, and acknowledges the flow's `last_ack`. -/
theorem mem_emitDataFrames {ctx : FrameCtx} {c : FastPathConn} {seqStart : BitVec 32}
    {data : Bytes} {f : TcpFrame} (hf : f ∈ emitDataFrames ctx c seqStart data) :
    ∃ off n, off < data.length ∧ f.params = c.frameParams ctx.macs (seqStart + BitVec.ofNat 32 off) 65535
      ∧ f.payload = (data.drop off).take n ∧ f.isFin = false ∧ f.payload ≠ [] := by
  have hlarge : ∀ remoteIp guestIp, c.remoteIp = .v4 remoteIp → c.guestIp = .v4 guestIp →
      f ∈ emitLargeFrames ctx c remoteIp guestIp seqStart data →
      ∃ off n, off < data.length ∧
        f.params = c.frameParams ctx.macs (seqStart + BitVec.ofNat 32 off) 65535
        ∧ f.payload = (data.drop off).take n ∧ f.isFin = false ∧ f.payload ≠ [] := by
    intro remoteIp guestIp hr hg hmem
    simp only [emitLargeFrames, mem_map] at hmem
    obtain ⟨piece, hpiece, hfeq⟩ := hmem
    obtain ⟨i, hi, rfl⟩ := (mem_chunks_iff (by decide)).mp hpiece
    have hne : (data.drop (i * largeFrameMaxPayload)).take largeFrameMaxPayload ≠ [] := by
      rw [← length_pos_iff, length_take, length_drop]
      simp only [largeFrameMaxPayload] at hi ⊢
      omega
    refine ⟨i * largeFrameMaxPayload, largeFrameMaxPayload, hi, ?_⟩
    split at hfeq <;> subst hfeq <;>
      exact ⟨by simp [TcpFrame.params, TcpFrameParams.toIp, FastPathConn.frameParams, hr, hg],
        rfl, rfl, hne⟩
  have hseg : f ∈ emitSegments ctx c seqStart data →
      ∃ off n, off < data.length ∧
        f.params = c.frameParams ctx.macs (seqStart + BitVec.ofNat 32 off) 65535
        ∧ f.payload = (data.drop off).take n ∧ f.isFin = false ∧ f.payload ≠ [] := by
    intro hmem
    simp only [emitSegments, mem_map] at hmem
    obtain ⟨piece, hpiece, rfl⟩ := hmem
    have hpos := segmentSize_pos ctx c
    obtain ⟨i, hi, rfl⟩ := (mem_chunks_iff hpos).mp hpiece
    have hne : (data.drop (i * segmentSize ctx c)).take (segmentSize ctx c) ≠ [] := by
      rw [← length_pos_iff, length_take, length_drop]
      omega
    exact ⟨i * segmentSize ctx c, segmentSize ctx c, hi, rfl, rfl, rfl, hne⟩
  unfold emitDataFrames at hf
  split at hf
  next remoteIp guestIp hr hg =>
    split at hf
    · exact hlarge remoteIp guestIp hr hg hf
    · exact hseg hf
  · exact hseg hf

end Arcbox.Bridge

import Arcbox.Packet.Checksum

set_option autoImplicit false

/-!
# Packet: TCP frame construction

The TCP builders of `arcbox-packet` (`ethernet/tcp.rs`).  The source fills a
zeroed buffer field by field; here the same bytes are written in wire order.  A
builder that panics in the source, because the addresses are of different
families or the packet does not fit the 16-bit length field, returns `none`.
-/

namespace Arcbox.Packet

open Foundation
open Foundation.OnesComplement

/-- `ETH_HEADER_LEN`. -/
def ethHeaderLen : Nat := 14

/-- `TcpFrameParams<A>`. -/
structure TcpFrameParams (A : Type) where
  srcIp : A
  dstIp : A
  srcPort : BitVec 16
  dstPort : BitVec 16
  seq : BitVec 32
  ack : BitVec 32
  window : BitVec 16
  srcMac : Mac
  dstMac : Mac
  deriving DecidableEq, Repr

/-- The parameters of an IPv4 flow, as the family-generic builder takes them. -/
def TcpFrameParams.toIp (p : TcpFrameParams Ipv4Addr) : TcpFrameParams IpAddr :=
  { p with srcIp := .v4 p.srcIp, dstIp := .v4 p.dstIp }

/-! ## Headers -/

def ethernetHeader (dst src : Mac) (etherType : Bytes) : Bytes :=
  dst.octets ++ src.octets ++ etherType

/-- The part of an option-free IPv4 header before its checksum: version and IHL,
TOS, total length, identification, flags and fragment offset, TTL, protocol. -/
def ipv4HeaderStart (totalLen id flagsFrag : BitVec 16) (protocol : UInt8) : Bytes :=
  [0x45, 0] ++ beBytes16 totalLen ++ beBytes16 id ++ beBytes16 flagsFrag ++ [64, protocol]

def ipv4Header (totalLen id flagsFrag : BitVec 16) (protocol : UInt8)
    (src dst : Ipv4Addr) : Bytes :=
  let start := ipv4HeaderStart totalLen id flagsFrag protocol
  let addresses := src.octets ++ dst.octets
  start ++ beBytes16 (ipv4HeaderChecksum (start ++ beBytes16 0 ++ addresses)) ++ addresses

/-- The 40-byte IPv6 header of a TCP packet. -/
def ipv6Header (payloadLen : BitVec 16) (src dst : Ipv6Addr) : Bytes :=
  [0x60, 0, 0, 0] ++ beBytes16 payloadLen ++ [6, 64] ++ src.octets ++ dst.octets

def tcpHeaderStart (srcPort dstPort : BitVec 16) (seq ack : BitVec 32) (headerLen : Nat)
    (flags : UInt8) (window : BitVec 16) : Bytes :=
  beBytes16 srcPort ++ beBytes16 dstPort ++ beBytes32 seq ++ beBytes32 ack
    ++ [UInt8.ofNat (headerLen / 4) <<< 4, flags] ++ beBytes16 window

def tcpSegment {A : Type} (p : TcpFrameParams A) (flags : UInt8) (options payload : Bytes)
    (checksum : BitVec 16) : Bytes :=
  tcpHeaderStart p.srcPort p.dstPort p.seq p.ack (20 + options.length) flags p.window
    ++ beBytes16 checksum ++ ([0, 0] ++ options ++ payload)

/-- The checksum of a TCP segment over IPv6. -/
def tcpChecksumV6 (src dst : Ipv6Addr) (segment : Bytes) : BitVec 16 :=
  BitVec.ofNat 16 (complement (fold
    (checksumAdd src.octets + checksumAdd dst.octets + segment.length + 6
      + checksumAdd segment)))

/-! ## Builders -/

variable (p : TcpFrameParams IpAddr)

/-- `build_frame`. -/
def buildFrame (flags : UInt8) (options payload : Bytes) : Option Bytes :=
  let tcpLen := 20 + options.length + payload.length
  match p.srcIp, p.dstIp with
  | .v4 src, .v4 dst =>
      if 20 + tcpLen ≤ 65535 then
        let checksum := tcpChecksum src dst (tcpSegment p flags options payload 0)
        some (ethernetHeader p.dstMac p.srcMac [0x08, 0x00]
          ++ ipv4Header (BitVec.ofNat 16 (20 + tcpLen)) 0 0x4000 6 src dst
          ++ tcpSegment p flags options payload checksum)
      else none
  | .v6 src, .v6 dst =>
      if tcpLen ≤ 65535 then
        let checksum := tcpChecksumV6 src dst (tcpSegment p flags options payload 0)
        some (ethernetHeader p.dstMac p.srcMac [0x86, 0xdd]
          ++ ipv6Header (BitVec.ofNat 16 tcpLen) src dst
          ++ tcpSegment p flags options payload checksum)
      else none
  | _, _ => none

/-- `build_tcp_ack_frame`. -/
def buildTcpAckFrame : Option Bytes := buildFrame p 0x10 [] []

/-- `build_tcp_data_frame`. -/
def buildTcpDataFrame (payload : Bytes) : Option Bytes := buildFrame p 0x18 [] payload

/-- `build_tcp_fin_frame`: the receive window is forced to 65535. -/
def buildTcpFinFrame : Option Bytes := buildFrame { p with window := 65535 } 0x11 [] []

/-- `build_tcp_rst_frame`: the receive window is forced to zero. -/
def buildTcpRstFrame : Option Bytes := buildFrame { p with window := 0 } 0x14 [] []

/-- `build_tcp_data_frame_partial_csum`: the TCP checksum field holds
`tcp_pseudo_header_checksum` instead of the checksum. -/
def buildTcpDataFramePartialCsum (p : TcpFrameParams Ipv4Addr) (payload : Bytes) : Option Bytes :=
  let tcpTotalLen := 20 + payload.length
  let ipTotalLen := 20 + tcpTotalLen
  if ipTotalLen ≤ 65535 then
    some (ethernetHeader p.dstMac p.srcMac [0x08, 0x00]
      ++ ipv4Header (BitVec.ofNat 16 ipTotalLen) 0 0x4000 6 p.srcIp p.dstIp
      ++ tcpSegment p 0x18 [] payload (tcpPseudoHeaderChecksum p.srcIp p.dstIp tcpTotalLen))
  else none

/-! ## Lengths -/

@[simp] theorem length_ethernetHeader (dst src : Mac) {etherType : Bytes}
    (h : etherType.length = 2) : (ethernetHeader dst src etherType).length = 14 := by
  simp [ethernetHeader, h]

@[simp] theorem length_ipv4Header (totalLen id flagsFrag : BitVec 16) (protocol : UInt8)
    (src dst : Ipv4Addr) : (ipv4Header totalLen id flagsFrag protocol src dst).length = 20 := rfl

@[simp] theorem length_tcpHeaderStart (srcPort dstPort : BitVec 16) (seq ack : BitVec 32)
    (headerLen : Nat) (flags : UInt8) (window : BitVec 16) :
    (tcpHeaderStart srcPort dstPort seq ack headerLen flags window).length = 16 := rfl

@[simp] theorem length_tcpSegment {A : Type} (p : TcpFrameParams A) (flags : UInt8)
    (options payload : Bytes) (checksum : BitVec 16) :
    (tcpSegment p flags options payload checksum).length
      = 20 + options.length + payload.length := by
  simp only [tcpSegment, List.length_append, length_tcpHeaderStart, length_beBytes16,
    List.length_cons, List.length_nil]
  omega

theorem buildFrame_toIp (p : TcpFrameParams Ipv4Addr) (flags : UInt8) (options payload : Bytes)
    (h : 40 + options.length + payload.length ≤ 65535) :
    buildFrame p.toIp flags options payload
      = some (ethernetHeader p.dstMac p.srcMac [0x08, 0x00]
          ++ ipv4Header (BitVec.ofNat 16 (20 + (20 + options.length + payload.length)))
              0 0x4000 6 p.srcIp p.dstIp
          ++ tcpSegment p flags options payload
              (tcpChecksum p.srcIp p.dstIp (tcpSegment p flags options payload 0))) := by
  simp only [buildFrame, TcpFrameParams.toIp]
  rw [if_pos (by omega)]
  rfl

end Arcbox.Packet

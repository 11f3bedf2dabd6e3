import Mathlib.Data.Nat.Bitwise
import Arcbox.Foundation.Chunks
import Arcbox.Packet.Tcp

set_option autoImplicit false

/-!
# Packet: UDP frame construction

`build_udp_ip_ethernet` of `arcbox-packet` (`ethernet/udp.rs`): a datagram as one
frame or as IPv4 fragments.  The identification counter the source keeps in a static
atomic is passed in and handed back.
-/

namespace Arcbox.Packet.Udp

open Foundation

/-- `MAX_UDP_PAYLOAD`. -/
def maxUdpPayload : Nat := 65507

/-- The flags and fragment offset field: more-fragments is bit 13, the offset is in
units of eight bytes. -/
def flagsFrag (fragOffsetBytes : Nat) (moreFragments : Bool) : BitVec 16 :=
  (BitVec.ofNat 16 moreFragments.toNat <<< 13) ||| BitVec.ofNat 16 (fragOffsetBytes / 8)

/-- The Ethernet and IPv4 headers `build_frame` writes for a payload of `len` bytes. -/
def frameHeader (srcIp dstIp : Ipv4Addr) (ipId : BitVec 16) (fragOffsetBytes : Nat)
    (moreFragments : Bool) (len : Nat) (srcMac dstMac : Mac) : Bytes :=
  ethernetHeader dstMac srcMac [0x08, 0x00]
    ++ ipv4Header (BitVec.ofNat 16 (20 + len)) ipId (flagsFrag fragOffsetBytes moreFragments) 17
      srcIp dstIp

/-- `build_frame`. -/
def buildFrame (srcIp dstIp : Ipv4Addr) (ipId : BitVec 16) (fragOffsetBytes : Nat)
    (moreFragments : Bool) (ipPayload : Bytes) (srcMac dstMac : Mac) : Bytes :=
  frameHeader srcIp dstIp ipId fragOffsetBytes moreFragments ipPayload.length srcMac dstMac
    ++ ipPayload

def udpDatagram (srcIp dstIp : Ipv4Addr) (srcPort dstPort : BitVec 16) (payload : Bytes) : Bytes :=
  let start := beBytes16 srcPort ++ beBytes16 dstPort
    ++ beBytes16 (BitVec.ofNat 16 (8 + payload.length))
  start ++ beBytes16 (udpChecksum srcIp dstIp (start ++ beBytes16 0 ++ payload)) ++ payload

/-- `(mtu - 20) & !7`: the payload of a fragment under the MTU, rounded down to the
offset unit. -/
def fragmentChunk (mtu : Nat) : Nat := (mtu - 20) - (mtu - 20) % 8

/-- `build_udp_ip_ethernet`: the frames and the next identification; `none` where the
source panics. -/
def buildUdpIpEthernet (srcIp dstIp : Ipv4Addr) (srcPort dstPort : BitVec 16) (payload : Bytes)
    (srcMac dstMac : Mac) (mtu : Nat) (nextIpId : BitVec 16) : Option (List Bytes × BitVec 16) :=
  if mtu < 36 then none
  else if payload.length > maxUdpPayload then some ([], nextIpId)
  else
    let udpLen := 8 + payload.length
    let datagram := udpDatagram srcIp dstIp srcPort dstPort payload
    if 20 + udpLen ≤ mtu then
      some ([buildFrame srcIp dstIp nextIpId 0 false datagram srcMac dstMac], nextIpId + 1)
    else
      let frames := (chunks (fragmentChunk mtu) datagram).map fun part =>
        buildFrame srcIp dstIp nextIpId part.1 (decide (part.1 + part.2.length < udpLen)) part.2
          srcMac dstMac
      some (frames, nextIpId + 1)

/-! ## Lengths and fields -/

@[simp] theorem length_frameHeader (srcIp dstIp : Ipv4Addr) (ipId : BitVec 16) (offset : Nat)
    (more : Bool) (len : Nat) (srcMac dstMac : Mac) :
    (frameHeader srcIp dstIp ipId offset more len srcMac dstMac).length = 34 := by
  rw [frameHeader, List.length_append, length_ethernetHeader _ _ rfl, length_ipv4Header]

@[simp] theorem length_udpDatagram (srcIp dstIp : Ipv4Addr) (srcPort dstPort : BitVec 16)
    (payload : Bytes) :
    (udpDatagram srcIp dstIp srcPort dstPort payload).length = 8 + payload.length := by
  simp only [udpDatagram, List.length_append, length_beBytes16]

theorem udpVerifies_udpDatagram (srcIp dstIp : Ipv4Addr) (srcPort dstPort : BitVec 16)
    (payload : Bytes) : UdpVerifies srcIp dstIp (udpDatagram srcIp dstIp srcPort dstPort payload) :=
  udp_verifies rfl

/-- The field's value: the offset units below bit 13. -/
theorem toNat_flagsFrag {offset : Nat} (h : offset / 8 < 2 ^ 13) (more : Bool) :
    (flagsFrag offset more).toNat = 2 ^ 13 * more.toNat + offset / 8 := by
  have hx : (BitVec.ofNat 16 (offset / 8)).toNat = offset / 8 := by
    rw [BitVec.toNat_ofNat, Nat.mod_eq_of_lt (by omega)]
  rw [flagsFrag, BitVec.toNat_or, hx, Nat.two_pow_add_eq_or_of_lt h]
  cases more <;> rfl

theorem flagsFrag_more {offset : Nat} (h : offset / 8 < 2 ^ 13) (more : Bool) :
    (flagsFrag offset more &&& 0x2000 != 0) = more := by
  have hand : (flagsFrag offset more &&& 0x2000).toNat = more.toNat * 2 ^ 13 := by
    rw [BitVec.toNat_and, toNat_flagsFrag h, show (0x2000 : BitVec 16).toNat = 2 ^ 13 from rfl,
      Nat.and_two_pow]
    cases more with
    | false => simp [Nat.testBit_lt_two_pow h]
    | true =>
      rw [Bool.toNat_true, Nat.mul_one, Nat.testBit_two_pow_add_eq, Nat.testBit_lt_two_pow h]
      rfl
  cases more with
  | false =>
    have hzero : flagsFrag offset false &&& 0x2000 = 0 := BitVec.eq_of_toNat_eq (by simpa using hand)
    rw [hzero]
    rfl
  | true =>
    rw [bne_iff_ne]
    intro hzero
    rw [hzero] at hand
    simp at hand

theorem flagsFrag_offset {offset : Nat} (h : offset / 8 < 2 ^ 13) (more : Bool) :
    (flagsFrag offset more &&& 0x1FFF).toNat = offset / 8 := by
  rw [BitVec.toNat_and, toNat_flagsFrag h, show (0x1FFF : BitVec 16).toNat = 2 ^ 13 - 1 from rfl,
    Nat.and_two_pow_sub_one_eq_mod]
  omega

end Arcbox.Packet.Udp

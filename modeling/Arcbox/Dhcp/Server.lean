import Arcbox.Foundation.Table
import Arcbox.Dhcp.Allocator

set_option autoImplicit false

/-!
# DHCP: the server

Four tables say who has which address: the leases and the reservations, by client,
the declined addresses in quarantine, and the allocator's own set.  Every operation
of the server is here, over packets as their parser returns them.
-/

namespace Arcbox.Dhcp

open Foundation (Table)

abbrev Mac := BitVec 48

/-- A point in time, in nanoseconds. -/
abbrev Instant := Nat

inductive DhcpMessageType
  | discover
  | offer
  | request
  | decline
  | ack
  | nak
  | release
  | inform
deriving DecidableEq, Repr

inductive DhcpError
  | protocol (message : String)
  | poolExhausted
deriving DecidableEq, Repr

def unspecified : Ipv4 := 0#32

def broadcast : Ipv4 := BitVec.allOnes 32

/-- The fields of a packet that the server reads or sets. -/
structure DhcpPacket where
  op : UInt8 := 0
  xid : BitVec 32 := 0#32
  flags : BitVec 16 := 0#16
  ciaddr : Ipv4 := unspecified
  yiaddr : Ipv4 := unspecified
  siaddr : Ipv4 := unspecified
  chaddr : BitVec 128 := 0#128
  messageType : Option DhcpMessageType := none
  requestedIp : Option Ipv4 := none
  hostname : Option String := none
deriving DecidableEq, Repr

/-- The first six of the sixteen hardware address bytes. -/
def DhcpPacket.clientMac (p : DhcpPacket) : Mac := p.chaddr.extractLsb' 80 48

structure DhcpLease where
  mac : Mac
  ip : Ipv4
  hostname : Option String
  leaseStart : Instant
  leaseDuration : Nat
deriving DecidableEq, Repr

def DhcpLease.isExpired (lease : DhcpLease) (now : Instant) : Bool :=
  decide (lease.leaseDuration ≤ now - lease.leaseStart)

structure DhcpReply where
  payload : DhcpPacket
  destination : Ipv4
deriving DecidableEq, Repr

structure DhcpConfig where
  serverIp : Ipv4
  leaseDuration : Nat
  poolStart : Ipv4
  poolEnd : Ipv4
deriving DecidableEq, Repr

/-- Five minutes. -/
def declineQuarantine : Nat := 300 * 1000000000

structure DhcpServer where
  config : DhcpConfig
  allocator : IpAllocator
  leases : Table Mac DhcpLease
  reservations : Table Mac Ipv4
  declinedIps : Table Ipv4 Instant

namespace DhcpServer

/-- `none` is the allocator's failed assertion. -/
def new (config : DhcpConfig) : Option DhcpServer :=
  (IpAllocator.new config.poolStart config.poolEnd).map fun allocator =>
    ⟨config, allocator, ∅, ∅, ∅⟩

variable (s : DhcpServer)

/-- `none` is the failed assertion that the address is available. -/
def reserveIp (mac : Mac) (ip : Ipv4) : Option DhcpServer :=
  if s.allocator.isAvailable ip = true then
    some { s with
      allocator := (s.allocator.allocateSpecific ip).2
      reservations := s.reservations.insert mac ip }
  else none

def removeReservation (mac : Mac) : DhcpServer :=
  match s.reservations.lookup mac with
  | some ip =>
    { s with
      reservations := s.reservations.erase mac
      allocator := s.allocator.release ip }
  | none => s

/-! ## Cleanup -/

/-- Drop the lease of one expired client. -/
def expire (s : DhcpServer) (mac : Mac) : DhcpServer :=
  match s.leases.lookup mac with
  | some lease =>
    { s with
      leases := s.leases.erase mac
      allocator := s.allocator.release lease.ip }
  | none => s

variable (packet : DhcpPacket) (now : Instant)

/-- The clients whose lease has expired and who have no reservation. -/
def expired : List Mac :=
  (s.leases.entries.filter fun e =>
    e.2.isExpired now && !(s.reservations.lookup e.1).isSome).map Sigma.fst

/-- End the quarantine of one address, and give it back unless someone uses it. -/
def endQuarantine (s : DhcpServer) (ip : Ipv4) : DhcpServer :=
  let s := { s with declinedIps := s.declinedIps.erase ip }
  let reserved := s.reservations.entries.any fun e => decide (e.2 = ip)
  let leased := s.leases.entries.any fun e => decide (e.2.ip = ip)
  if reserved || leased then s else { s with allocator := s.allocator.release ip }

/-- The addresses whose quarantine has elapsed. -/
def expiredDeclines : List Ipv4 :=
  (s.declinedIps.entries.filter fun e => decide (declineQuarantine ≤ now - e.2)).map Sigma.fst

def cleanupExpiredLeases : DhcpServer :=
  let s := (s.expired now).foldl expire s
  (s.expiredDeclines now).foldl endQuarantine s

/-! ## Packets -/

/-- Record a lease on `ip` for the sender. -/
def grant (ip : Ipv4) (now : Instant) : DhcpServer :=
  { s with
    leases := s.leases.insert packet.clientMac
      ⟨packet.clientMac, ip, packet.hostname, now, s.config.leaseDuration⟩ }

def response (messageType : DhcpMessageType) (yiaddr : Ipv4) : DhcpPacket :=
  { op := 2
    xid := packet.xid
    yiaddr := yiaddr
    siaddr := s.config.serverIp
    flags := packet.flags
    chaddr := packet.chaddr
    messageType := some messageType }

/-- The next address of the rotation. -/
def allocateNext : Option Ipv4 × DhcpServer :=
  ((s.allocator.allocate).1, { s with allocator := (s.allocator.allocate).2 })

/-- The address to offer, after cleanup. -/
def chooseOffer : Option Ipv4 × DhcpServer :=
  match s.reservations.lookup packet.clientMac with
  | some reserved => (some reserved, s)
  | none =>
    match s.leases.lookup packet.clientMac with
    | some lease => (some lease.ip, s)
    | none =>
      match packet.requestedIp with
      | some requested =>
        if s.allocator.isAvailable requested = true then
          (some requested, { s with allocator := (s.allocator.allocateSpecific requested).2 })
        else s.allocateNext
      | none => s.allocateNext

def handleDiscover : Except DhcpError DhcpPacket × DhcpServer :=
  match (s.cleanupExpiredLeases now).chooseOffer packet with
  | (none, s) => (.error .poolExhausted, s)
  | (some ip, s) => (.ok (s.response packet .offer ip), s.grant packet ip now)

def requestedAddress : Option Ipv4 :=
  packet.requestedIp.or
    (if packet.ciaddr ≠ unspecified then some packet.ciaddr else none)

/-- Whether the sender may have `requested`; a new client's address is allocated here. -/
def validate (mac : Mac) (requested : Ipv4) : Bool × DhcpServer :=
  match s.leases.lookup mac with
  | some lease => (decide (lease.ip = requested), s)
  | none =>
    match s.reservations.lookup mac with
    | some reserved => (decide (reserved = requested), s)
    | none =>
      ((s.allocator.allocateSpecific requested).1,
        { s with allocator := (s.allocator.allocateSpecific requested).2 })

def handleRequest : Except DhcpError DhcpPacket × DhcpServer :=
  match requestedAddress packet with
  | none => (.error (.protocol "no IP requested"), s)
  | some requested =>
    match s.validate packet.clientMac requested with
    | (false, s) => (.ok (s.response packet .nak unspecified), s)
    | (true, s) => (.ok (s.response packet .ack requested), s.grant packet requested now)

def handleRelease : DhcpServer :=
  match s.leases.lookup packet.clientMac with
  | some lease =>
    if (s.reservations.lookup packet.clientMac).isSome = true then
      { s with leases := s.leases.erase packet.clientMac }
    else
      { s with
        leases := s.leases.erase packet.clientMac
        allocator := s.allocator.release lease.ip }
  | none => s

def handleDecline : DhcpServer :=
  match packet.requestedIp with
  | none => s
  | some ip =>
    let leaseIp := (s.leases.lookup packet.clientMac).map DhcpLease.ip
    let reservedIp := s.reservations.lookup packet.clientMac
    if leaseIp = some ip ∨ reservedIp = some ip then
      { s with
        leases := if leaseIp = some ip then s.leases.erase packet.clientMac else s.leases
        declinedIps := s.declinedIps.insert ip now }
    else s

/-- Where a response goes. -/
def destination (response : DhcpPacket) : Ipv4 :=
  if response.messageType = some .nak ∨ packet.ciaddr = unspecified then broadcast
  else packet.ciaddr

/-- Address a response. -/
def reply (out : Except DhcpError DhcpPacket × DhcpServer) :
    Except DhcpError (Option DhcpReply) × DhcpServer :=
  (out.1.map fun response => some ⟨response, destination packet response⟩, out.2)

def handlePacket : Except DhcpError (Option DhcpReply) × DhcpServer :=
  if packet.op ≠ 1 then (.ok none, s)
  else
    match packet.messageType with
    | some .discover => reply packet (s.handleDiscover packet now)
    | some .request => reply packet (s.handleRequest packet now)
    | some .release => (.ok none, s.handleRelease packet)
    | some .decline => (.ok none, s.handleDecline packet now)
    | _ => (.ok none, s)

end DhcpServer

/-! ## The server as a machine -/

inductive DhcpCall
  | reserveIp (mac : Mac) (ip : Ipv4)
  | removeReservation (mac : Mac)
  | handlePacket (packet : DhcpPacket) (now : Instant)
  | cleanupExpiredLeases (now : Instant)

def DhcpServer.call (s : DhcpServer) : DhcpCall → DhcpServer
  | .reserveIp mac ip => (s.reserveIp mac ip).getD s
  | .removeReservation mac => s.removeReservation mac
  | .handlePacket packet now => (s.handlePacket packet now).2
  | .cleanupExpiredLeases now => s.cleanupExpiredLeases now

end Arcbox.Dhcp

import Arcbox.Foundation.Bytes

set_option autoImplicit false

/-!
# Vsock: packets and connections

`protocol.rs`, `manager/ops.rs` and `manager/connection.rs` of `arcbox-virtio-vsock`:
the packet header, the pending operations of a connection as a bit mask, and the
connection with its credit counters.  The counters are `Wrapping<u32>`.
-/

namespace Arcbox.Vsock

open Foundation

/-! ## The wire protocol -/

/-- The operations of the wire. -/
inductive VsockOp where
  | invalid
  | request
  | response
  | rst
  | shutdown
  | rw
  | creditUpdate
  | creditRequest
  deriving DecidableEq, Repr

namespace VsockOp

/-- The discriminant of an operation. -/
def toU16 : VsockOp → BitVec 16
  | .invalid => 0
  | .request => 1
  | .response => 2
  | .rst => 3
  | .shutdown => 4
  | .rw => 5
  | .creditUpdate => 6
  | .creditRequest => 7

/-- `VsockOp::from_u16`. -/
def fromU16 (val : BitVec 16) : Option VsockOp :=
  if val = 0 then some .invalid
  else if val = 1 then some .request
  else if val = 2 then some .response
  else if val = 3 then some .rst
  else if val = 4 then some .shutdown
  else if val = 5 then some .rw
  else if val = 6 then some .creditUpdate
  else if val = 7 then some .creditRequest
  else none

@[simp] theorem fromU16_toU16 (op : VsockOp) : fromU16 op.toU16 = some op := by
  cases op <;> rfl

end VsockOp

/-- A vsock address. -/
structure VsockAddr where
  cid : BitVec 64
  port : BitVec 32
  deriving DecidableEq, Repr

/-- `HOST_CID`. -/
def hostCid : BitVec 64 := 2

/-- `VsockAddr::host`. -/
def VsockAddr.host (port : BitVec 32) : VsockAddr := ⟨hostCid, port⟩

/-- The packet's header. -/
structure VsockHeader where
  srcCid : BitVec 64
  dstCid : BitVec 64
  srcPort : BitVec 32
  dstPort : BitVec 32
  len : BitVec 32
  socketType : BitVec 16
  op : BitVec 16
  flags : BitVec 32
  bufAlloc : BitVec 32
  fwdCnt : BitVec 32
  deriving DecidableEq, Repr

namespace VsockHeader

/-- `VsockHeader::SIZE`. -/
def size : Nat := 44

/-- `VsockHeader::new`. -/
def new (src dst : VsockAddr) (op : VsockOp) : VsockHeader where
  srcCid := src.cid
  dstCid := dst.cid
  srcPort := src.port
  dstPort := dst.port
  len := 0
  socketType := 1
  op := op.toU16
  flags := 0
  bufAlloc := 64 * 1024
  fwdCnt := 0

/-- The header's operation, if it is one. -/
def operation (hdr : VsockHeader) : Option VsockOp := VsockOp.fromU16 hdr.op

theorem operation_ne_rw {hdr : VsockHeader} (op : VsockOp) (h : hdr.op = op.toU16)
    (hne : op ≠ .rw) : hdr.operation ≠ some .rw := by
  rw [operation, h, VsockOp.fromU16_toU16]
  exact fun heq => hne (Option.some.inj heq)

end VsockHeader

/-! ## Pending operations -/

/-- `RxOps`: a set bit is a pending operation, the lowest bit goes first. -/
structure RxOps where
  bits : BitVec 8
  deriving DecidableEq, Repr

namespace RxOps

/-- A connection request is to be sent. -/
def request : BitVec 8 := 0x01
/-- The peer is to be asked for its credit. -/
def creditRequest : BitVec 8 := 0x02
/-- Data is to be read from the host. -/
def rw : BitVec 8 := 0x04
/-- A response is to be sent. -/
def response : BitVec 8 := 0x08
/-- The guest is to be told our credit. -/
def creditUpdate : BitVec 8 := 0x10
/-- A reset is to be sent. -/
def reset : BitVec 8 := 0x20

/-- `RxOps::default`. -/
def empty : RxOps := ⟨0⟩

variable (ops : RxOps)

/-- Something is to be sent. -/
def pending : Bool := ops.bits != 0

/-- One more operation to send. -/
def enqueue (op : BitVec 8) : RxOps := ⟨ops.bits ||| op⟩

/-- The operation, zero if there is none, and what stays pending. -/
def dequeue : BitVec 8 × RxOps :=
  if ops.bits = 0 then (0, ops)
  else
    let op := ops.bits &&& -ops.bits
    (op, ⟨ops.bits &&& ~~~op⟩)

/-- The lowest bit set. -/
def peek : BitVec 8 := if ops.bits = 0 then 0 else ops.bits &&& -ops.bits

end RxOps

/-! ## Connections -/

/-- The key of a connection. -/
structure VsockConnectionId where
  hostPort : BitVec 32
  guestPort : BitVec 32
  deriving DecidableEq, Repr

/-- `TX_BUFFER_SIZE`. -/
def txBufferSize : BitVec 32 := 64 * 1024

/-- `CREDIT_UPDATE_THRESHOLD`. -/
def creditUpdateThreshold : BitVec 32 := 4096

/-- `VSOCK_SHUTDOWN_F_RECEIVE`. -/
def vsockShutdownFReceive : BitVec 32 := 1

/-- `VSOCK_SHUTDOWN_F_BOTH`. -/
def vsockShutdownFBoth : BitVec 32 := 3

/-- `VsockConnection`.  The host end of the socket pair is the environment's;
`injectedNotify` says that the sender that unblocks the daemon is still there. -/
structure VsockConnection where
  id : VsockConnectionId
  injectedNotify : Bool
  guestCid : BitVec 64
  connect : Bool
  rxQueue : RxOps
  fwdCnt : BitVec 32
  lastFwdCnt : BitVec 32
  peerBufAlloc : BitVec 32
  peerFwdCnt : BitVec 32
  rxCnt : BitVec 32
  creditRequestPending : Bool
  peerNoRecv : Bool
  rwParked : Bool
  deriving DecidableEq, Repr

namespace VsockConnection

variable (conn : VsockConnection)

/-- Set bits of `rx_queue`. -/
def enqueue (op : BitVec 8) : VsockConnection := { conn with rxQueue := conn.rxQueue.enqueue op }

/-- `VsockConnection::new_local_init`. -/
def newLocalInit (id : VsockConnectionId) (guestCid : BitVec 64) : VsockConnection where
  id := id
  injectedNotify := true
  guestCid := guestCid
  connect := false
  rxQueue := RxOps.empty.enqueue RxOps.request
  fwdCnt := 0
  lastFwdCnt := 0
  peerBufAlloc := 0
  peerFwdCnt := 0
  rxCnt := 0
  creditRequestPending := false
  peerNoRecv := false
  rwParked := false

/-- `peer_avail_credit`, with its wrapping arithmetic. -/
def peerAvailCredit : Nat := (conn.peerBufAlloc - (conn.rxCnt - conn.peerFwdCnt)).toNat

/-- The connection, and whether a parked RW may be retried. -/
def updatePeerCredit (bufAlloc fwdCnt : BitVec 32) : VsockConnection × Bool :=
  let conn := { conn with
    peerBufAlloc := bufAlloc, peerFwdCnt := fwdCnt, creditRequestPending := false }
  if conn.rwParked ∧ 0 < conn.peerAvailCredit then
    ({ conn with rwParked := false }.enqueue RxOps.rw, true)
  else (conn, false)

/-- Data waits for credit. -/
def parkRw : VsockConnection := { conn with rwParked := true }

/-- Below half of the peer's buffer, ask once. -/
def maybeRequestCredit : VsockConnection :=
  if conn.creditRequestPending ∨ conn.peerBufAlloc = 0 then conn
  else if conn.peerAvailCredit < conn.peerBufAlloc.toNat / 2 then
    { conn.enqueue RxOps.creditRequest with creditRequestPending := true }
  else conn

/-- The question is on its way. -/
def noteCreditRequestSent : VsockConnection := { conn with creditRequestPending := true }

/-- The guest will receive no more. -/
def markPeerNoRecv : VsockConnection := { conn with peerNoRecv := true }

/-- Bytes were forwarded; a large step is announced. -/
def advanceFwdCnt (bytes : BitVec 32) : VsockConnection :=
  let conn := { conn with fwdCnt := conn.fwdCnt + bytes }
  if creditUpdateThreshold ≤ conn.fwdCnt - conn.lastFwdCnt then conn.enqueue RxOps.creditUpdate
  else conn

/-- Bytes were sent to the guest. -/
def recordRx (bytes : BitVec 32) : VsockConnection := { conn with rxCnt := conn.rxCnt + bytes }

/-- The guest knows the current count. -/
def markCreditSent : VsockConnection := { conn with lastFwdCnt := conn.fwdCnt }

end VsockConnection

/-! ## The credit account

What a connection counts, apart from its flags and its pending operations. -/

/-- The four counters of the credit scheme. -/
structure Account where
  peerBufAlloc : BitVec 32
  peerFwdCnt : BitVec 32
  rxCnt : BitVec 32
  fwdCnt : BitVec 32
  deriving DecidableEq, Repr

namespace Account

/-- The account of a new connection. -/
def zero : Account := ⟨0, 0, 0, 0⟩

/-- The credit that `peer_avail_credit` computes. -/
def credit (a : Account) : Nat := (a.peerBufAlloc - (a.rxCnt - a.peerFwdCnt)).toNat

end Account

namespace VsockConnection

/-- The connection's credit counters. -/
def account (conn : VsockConnection) : Account :=
  ⟨conn.peerBufAlloc, conn.peerFwdCnt, conn.rxCnt, conn.fwdCnt⟩

variable (conn : VsockConnection)

theorem credit_account : conn.account.credit = conn.peerAvailCredit := rfl

@[simp] theorem account_newLocalInit (id : VsockConnectionId) (guestCid : BitVec 64) :
    (newLocalInit id guestCid).account = Account.zero := rfl

@[simp] theorem account_enqueue (op : BitVec 8) : (conn.enqueue op).account = conn.account := rfl

@[simp] theorem account_updatePeerCredit (bufAlloc fwdCnt : BitVec 32) :
    (conn.updatePeerCredit bufAlloc fwdCnt).1.account
      = { conn.account with peerBufAlloc := bufAlloc, peerFwdCnt := fwdCnt } := by
  simp only [updatePeerCredit]
  split <;> rfl

@[simp] theorem account_maybeRequestCredit : conn.maybeRequestCredit.account = conn.account := by
  simp only [maybeRequestCredit]
  split
  · rfl
  · split <;> rfl

@[simp] theorem account_advanceFwdCnt (bytes : BitVec 32) :
    (conn.advanceFwdCnt bytes).account
      = { conn.account with fwdCnt := conn.account.fwdCnt + bytes } := by
  simp only [advanceFwdCnt]
  split <;> rfl

@[simp] theorem account_recordRx (bytes : BitVec 32) :
    (conn.recordRx bytes).account = { conn.account with rxCnt := conn.account.rxCnt + bytes } := rfl

end VsockConnection

end Arcbox.Vsock

import Arcbox.Foundation.Table
import Arcbox.Vsock.Connection

set_option autoImplicit false

/-!
# Vsock: the connection manager

`VsockConnectionManager` (`manager/mod.rs` and `manager/host_connections.rs`): the
table of connections and the queue of connections with something to tell the guest.
The doorbell only wakes the injection thread and is left out.
-/

namespace Arcbox.Vsock

open Foundation Function

/-- The connections and the queue of those with work. -/
structure VsockConnectionManager where
  connections : Table VsockConnectionId VsockConnection
  backendRxq : List VsockConnectionId
  nextHostPort : BitVec 32
  closed : Bool

namespace VsockConnectionManager

/-- `EPHEMERAL_PORT_BASE`. -/
def ephemeralPortBase : BitVec 32 := 50000

/-- No connection. -/
def new : VsockConnectionManager := ⟨∅, [], ephemeralPortBase, false⟩

variable (mgr : VsockConnectionManager) (id : VsockConnectionId)

/-- Store a connection in its entry. -/
def put (conn : VsockConnection) : VsockConnectionManager :=
  { mgr with connections := mgr.connections.insert id conn }

/-- `backend_rxq.push_back`. -/
def push : VsockConnectionManager := { mgr with backendRxq := mgr.backendRxq ++ [id] }

/-- Update a connection, if it is there. -/
def modify (f : VsockConnection → VsockConnection) : VsockConnectionManager :=
  match mgr.connections.lookup id with
  | some conn => mgr.put id (f conn)
  | none => mgr

/-- `resume_host_ports_at`. -/
def resumeHostPortsAt (port : BitVec 32) : VsockConnectionManager :=
  { mgr with nextHostPort := port }

/-- The id that `allocate` gives a connection to `guest_port`. -/
def nextId (guestPort : BitVec 32) : VsockConnectionId := ⟨mgr.nextHostPort, guestPort⟩

/-- `allocate`: a host port, and the connection under it. -/
def allocate (guestPort : BitVec 32) (guestCid : BitVec 64) : VsockConnectionManager :=
  let id := mgr.nextId guestPort
  let mgr := { mgr with nextHostPort := mgr.nextHostPort + 1 }
  (mgr.put id (.newLocalInit id guestCid)).push id

/-- The connections whose descriptor is polled. -/
def connectedFds : List VsockConnectionId :=
  (mgr.connections.entries.filter fun e => e.2.connect).map fun e => e.1

/-- Make an operation pending and queue the connection, if it is there. -/
def enqueueOp (op : BitVec 8) (mgr : VsockConnectionManager) (id : VsockConnectionId) :
    VsockConnectionManager :=
  match mgr.connections.lookup id with
  | some conn => (mgr.put id (conn.enqueue op)).push id
  | none => mgr

/-- The host's socket may have data. -/
def enqueueRw : VsockConnectionManager → VsockConnectionId → VsockConnectionManager :=
  enqueueOp RxOps.rw

/-- The connection is to be reset. -/
def enqueueReset : VsockConnectionManager → VsockConnectionId → VsockConnectionManager :=
  enqueueOp RxOps.reset

/-- The connection and its place in the queue go. -/
def remove : VsockConnectionManager :=
  match mgr.connections.lookup id with
  | some _ =>
    { mgr with
      connections := mgr.connections.erase id
      backendRxq := mgr.backendRxq.filter fun qid => qid ≠ id }
  | none => mgr

/-- `remove_all`. -/
def removeAll : VsockConnectionManager := mgr.connections.keys.foldl remove mgr

/-- No connection after this. -/
def close : VsockConnectionManager := { mgr with closed := true }.removeAll

/-- `connections_with_pending_rx`. -/
def connectionsWithPendingRx : List VsockConnectionId :=
  (mgr.connections.entries.filter fun e =>
    e.2.rxQueue.pending && !mgr.backendRxq.contains e.1).map fun e => e.1

/-! ## The device's view of the manager -/

/-- `fd_for`: whether there is a descriptor to write to. -/
def fdFor : Bool := (mgr.connections.lookup id).any (·.connect)

/-- The connection is established. -/
def markConnected : VsockConnectionManager :=
  mgr.modify id fun conn => { conn with connect := true }

/-- What a packet says of the peer's credit. -/
def updatePeerCredit (bufAlloc fwdCnt : BitVec 32) : VsockConnectionManager :=
  match mgr.connections.lookup id with
  | some conn =>
    let updated := conn.updatePeerCredit bufAlloc fwdCnt
    if updated.2 then (mgr.put id updated.1).push id else mgr.put id updated.1
  | none => mgr

/-- Bytes were forwarded; the guest may have to be told. -/
def advanceFwdCnt (bytes : BitVec 32) : VsockConnectionManager :=
  match mgr.connections.lookup id with
  | some conn =>
    let conn := conn.advanceFwdCnt bytes
    if conn.rxQueue.pending then (mgr.put id conn).push id else mgr.put id conn
  | none => mgr

/-- The guest is to be told our credit. -/
def enqueueCreditUpdate : VsockConnectionManager → VsockConnectionId → VsockConnectionManager :=
  enqueueOp RxOps.creditUpdate

/-- `handle_shutdown`.  The half-close of the sending side only shuts the host end of
the socket pair. -/
def handleShutdown (flags : BitVec 32) : VsockConnectionManager :=
  if flags = 0 ∨ flags &&& vsockShutdownFBoth = vsockShutdownFBoth then mgr.remove id
  else if flags &&& vsockShutdownFReceive ≠ 0 then mgr.modify id .markPeerNoRecv
  else mgr

/-! ## Accounts

No operation touches another connection than the one it names, and only three of them
touch the account of that one. -/

/-- The account of every connection there is. -/
def accounts : Option Account := (mgr.connections.lookup id).map VsockConnection.account

@[simp] theorem accounts_push : (mgr.push id).accounts = mgr.accounts := rfl

@[simp] theorem accounts_put (conn : VsockConnection) :
    (mgr.put id conn).accounts = Function.update mgr.accounts id (some conn.account) := by
  funext k
  simp only [accounts, put]
  rcases eq_or_ne k id with rfl | hne
  · rw [AList.lookup_insert, update_self, Option.map_some]
  · rw [AList.lookup_insert_ne hne, update_of_ne hne, accounts]

variable {mgr id}

/-- Storing a connection with the account it had changes no account. -/
theorem accounts_put_of_eq {conn conn' : VsockConnection}
    (hlook : mgr.connections.lookup id = some conn) (haccount : conn'.account = conn.account) :
    (mgr.put id conn').accounts = mgr.accounts := by
  rw [accounts_put, haccount]
  refine update_eq_self_iff.mpr ?_
  rw [accounts, hlook, Option.map_some]

theorem accounts_modify_of_eq {f : VsockConnection → VsockConnection}
    (haccount : ∀ conn, (f conn).account = conn.account) :
    (mgr.modify id f).accounts = mgr.accounts := by
  simp only [modify]
  split
  next conn hlook =>
    exact accounts_put_of_eq hlook (haccount conn)
  · rfl

variable (mgr id)

theorem accounts_allocate (guestPort : BitVec 32) (guestCid : BitVec 64) :
    (mgr.allocate guestPort guestCid).accounts
      = Function.update mgr.accounts (mgr.nextId guestPort) (some Account.zero) := by
  simp only [allocate, accounts_push, accounts_put, VsockConnection.account_newLocalInit]
  rfl

theorem accounts_enqueueOp (op : BitVec 8) : (enqueueOp op mgr id).accounts = mgr.accounts := by
  simp only [enqueueOp]
  split
  next conn hlook =>
    exact accounts_put_of_eq hlook rfl
  · rfl

@[simp] theorem accounts_markConnected : (mgr.markConnected id).accounts = mgr.accounts :=
  accounts_modify_of_eq fun _ => rfl

@[simp] theorem accounts_remove :
    (mgr.remove id).accounts = Function.update mgr.accounts id none := by
  funext k
  simp only [remove]
  rcases eq_or_ne k id with rfl | hne
  · rw [update_self]
    split
    · simp only [accounts, AList.lookup_erase, Option.map_none]
    next hlook =>
      rw [accounts, hlook, Option.map_none]
  rw [update_of_ne hne]
  split
  · simp only [accounts, AList.lookup_erase_ne hne]
  · rfl

/-- Credit fields are taken for the connection named, if it is there. -/
theorem accounts_updatePeerCredit (bufAlloc fwdCnt : BitVec 32) :
    (mgr.updatePeerCredit id bufAlloc fwdCnt).accounts
      = Function.update mgr.accounts id ((mgr.accounts id).map fun a =>
          { a with peerBufAlloc := bufAlloc, peerFwdCnt := fwdCnt }) := by
  simp only [updatePeerCredit]
  split
  next conn hlook =>
    have hput : ∀ mgr' : VsockConnectionManager,
        mgr' = mgr.put id (conn.updatePeerCredit bufAlloc fwdCnt).1 →
        mgr'.accounts = Function.update mgr.accounts id ((mgr.accounts id).map fun a =>
          { a with peerBufAlloc := bufAlloc, peerFwdCnt := fwdCnt }) := by
      rintro mgr' rfl
      rw [accounts_put, VsockConnection.account_updatePeerCredit, accounts, hlook]
      rfl
    split
    · rw [accounts_push, hput _ rfl]
    · rw [hput _ rfl]
  next hlook =>
    have hnone : mgr.accounts id = none := by rw [accounts, hlook, Option.map_none]
    rw [hnone, Option.map_none, ← hnone, update_eq_self]

theorem accounts_advanceFwdCnt (bytes : BitVec 32) :
    (mgr.advanceFwdCnt id bytes).accounts
      = Function.update mgr.accounts id ((mgr.accounts id).map fun a =>
          { a with fwdCnt := a.fwdCnt + bytes }) := by
  simp only [advanceFwdCnt]
  split
  next conn hlook =>
    have hput : (mgr.put id (conn.advanceFwdCnt bytes)).accounts
        = Function.update mgr.accounts id ((mgr.accounts id).map fun a =>
          { a with fwdCnt := a.fwdCnt + bytes }) := by
      rw [accounts_put, VsockConnection.account_advanceFwdCnt, accounts, hlook]
      rfl
    split
    · rw [accounts_push, hput]
    · rw [hput]
  next hlook =>
    have hnone : mgr.accounts id = none := by rw [accounts, hlook, Option.map_none]
    rw [hnone, Option.map_none, ← hnone, update_eq_self]

end VsockConnectionManager

end Arcbox.Vsock

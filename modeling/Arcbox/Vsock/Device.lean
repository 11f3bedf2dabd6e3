import Arcbox.Vsock.Manager
import Mathlib.Algebra.GroupWithZero.Nat
import Mathlib.Data.List.Infix

set_option autoImplicit false

/-!
# Vsock: the device

`VirtioVsock` (`device.rs`, `device/rx_injection.rs`, `device/virtio_device.rs`): packets
of the guest are forwarded to host sockets, and host data is written into the guest's
RX ring within the credit the guest granted.  What the sockets and the ring answer is
the environment's choice.

The device keeps a log of what happened on each connection.  Seen from one connection
the device is a small machine, `ConnStep`, and every call is a run of it.
-/

namespace Arcbox.Vsock

open Foundation Relation Function List VsockConnectionManager VsockHeader Option

/-! ## Writing to a host socket -/

/-- What one `write(2)` on a non-blocking socket does: it returns a count, or fails with
`EAGAIN`, with `EINTR` or with another error. -/
inductive WriteOutcome where
  | returned (n : Nat)
  | again
  | interrupted
  | failed
  deriving DecidableEq, Repr

/-- `MAX_POLL_RETRIES`. -/
def maxPollRetries : Nat := 16

/-- The loop of `write_all_with_backoff`: the offset reached and the bytes the socket
took.  `none` where the outcomes do not say how the loop ends. -/
def writeLoop (buf : Bytes) : List WriteOutcome → Nat → Nat → Bytes → Option (Nat × Bytes)
  | [], offset, _, taken => if buf.length ≤ offset then some (offset, taken) else none
  | outcome :: rest, offset, eagainRetries, taken =>
    if buf.length ≤ offset then some (offset, taken)
    else
      match outcome with
      | .returned n =>
        let ret := min n (buf.length - offset)
        if 0 < ret then writeLoop buf rest (offset + ret) 0 (taken ++ (buf.drop offset).take ret)
        else some (offset, taken)
      | .again =>
        if maxPollRetries ≤ eagainRetries then some (offset, taken)
        else writeLoop buf rest offset (eagainRetries + 1) taken
      | .interrupted => writeLoop buf rest offset eagainRetries taken
      | .failed => some (offset, taken)

/-- `write_all_with_backoff`. -/
def writeAllWithBackoff (buf : Bytes) (writes : List WriteOutcome) : Option (Nat × Bytes) :=
  writeLoop buf writes 0 0 []

/-- The loop writes the buffer from the front, without a gap. -/
theorem writeLoop_taken (buf : Bytes) (writes : List WriteOutcome) {offset retries : Nat}
    {taken : Bytes} {result : Nat × Bytes} (htaken : taken = buf.take offset)
    (hle : offset ≤ buf.length) (h : writeLoop buf writes offset retries taken = some result) :
    result.2 = buf.take result.1 ∧ result.1 ≤ buf.length := by
  induction writes generalizing offset retries taken with
  | nil =>
    simp only [writeLoop] at h
    split at h
    · cases h
      exact ⟨htaken, hle⟩
    · cases h
  | cons outcome rest ih =>
    cases outcome with
    | returned n =>
      simp only [writeLoop] at h
      split at h
      · cases h
        exact ⟨htaken, hle⟩
      split at h
      · refine ih ?_ (by omega) h
        rw [htaken, take_add]
      · cases h
        exact ⟨htaken, hle⟩
    | again =>
      simp only [writeLoop] at h
      split at h
      · cases h
        exact ⟨htaken, hle⟩
      split at h
      · cases h
        exact ⟨htaken, hle⟩
      · exact ih htaken hle h
    | interrupted =>
      simp only [writeLoop] at h
      split at h
      · cases h
        exact ⟨htaken, hle⟩
      · exact ih htaken hle h
    | failed =>
      simp only [writeLoop] at h
      split at h <;> cases h <;> exact ⟨htaken, hle⟩

theorem writeAllWithBackoff_taken {buf : Bytes} {writes : List WriteOutcome}
    {result : Nat × Bytes} (h : writeAllWithBackoff buf writes = some result) :
    result.2 = buf.take result.1 ∧ result.1 ≤ buf.length :=
  writeLoop_taken buf writes rfl (Nat.zero_le _) h

/-- The bytes an answer of `write(2)` says were taken. -/
def WriteOutcome.count : WriteOutcome → Nat
  | .returned n => n
  | _ => 0

/-- The first answers of the socket add up to `n` bytes before it fails, takes nothing, or answers
`EAGAIN` more than sixteen times in a row. -/
def Delivers (n : Nat) (writes : List WriteOutcome) : Prop :=
  ∃ answers ∈ writes.inits, n ≤ (answers.map WriteOutcome.count).sum ∧
    (∀ answer ∈ answers, answer ≠ .failed ∧ answer ≠ .returned 0) ∧
    ¬ replicate (maxPollRetries + 1) .again <:+: answers.filter (· ≠ .interrupted)

instance (n : Nat) (writes : List WriteOutcome) : Decidable (Delivers n writes) :=
  inferInstanceAs (Decidable (∃ answers ∈ writes.inits, _))

/-- The loop gets through the buffer if the answers to come add up to what is left; `retries` of the
`EAGAIN`s in a row have come already. -/
theorem writeLoop_whole (buf : Bytes) {answers writes : List WriteOutcome}
    (hanswers : answers <+: writes) {offset retries : Nat} {taken : Bytes} {result : Nat × Bytes}
    (hsum : buf.length ≤ offset + (answers.map WriteOutcome.count).sum)
    (hgood : ∀ answer ∈ answers, answer ≠ .failed ∧ answer ≠ .returned 0)
    (hpatient : ¬ replicate (maxPollRetries + 1) .again <:+:
      replicate retries .again ++ answers.filter (· ≠ .interrupted))
    (h : writeLoop buf writes offset retries taken = some result) : buf.length ≤ result.1 := by
  have hdone : ∀ {offset retries taken writes}, buf.length ≤ offset →
      writeLoop buf writes offset retries taken = some result → buf.length ≤ result.1 := by
    intro offset retries taken writes hle h
    rw [writeLoop.eq_def] at h
    split at h <;> rw [if_pos hle] at h <;> cases h <;> exact hle
  induction answers generalizing writes offset retries taken with
  | nil => exact hdone (by simpa using hsum) h
  | cons answer answers ih =>
    obtain ⟨rest, rfl, hrest⟩ := cons_prefix_iff.mp hanswers
    obtain ⟨hanswer, hrestGood⟩ := forall_mem_cons.mp hgood
    rw [map_cons, sum_cons] at hsum
    by_cases hle : buf.length ≤ offset
    · exact hdone hle h
    rw [writeLoop.eq_def] at h
    dsimp only at h
    rw [if_neg hle] at h
    cases answer with
    | returned n =>
      have hpos : n ≠ 0 := fun hz => hanswer.2 (by rw [hz])
      change (if 0 < min n (buf.length - offset) then _ else _) = _ at h
      rw [if_pos (by omega)] at h
      refine ih hrest ?_ hrestGood (fun hinfix => hpatient ?_) h
      · change buf.length ≤ offset + (n + _) at hsum
        omega
      · exact hinfix.trans ⟨replicate retries .again ++ [.returned n], [], by simp⟩
    | again =>
      change (if maxPollRetries ≤ retries then _ else _) = _ at h
      have hrun : replicate (retries + 1) WriteOutcome.again ++ answers.filter (· ≠ .interrupted)
          = replicate retries .again ++ (.again :: answers).filter (· ≠ .interrupted) := by
        rw [replicate_succ', append_assoc]
        rfl
      rw [if_neg] at h
      · exact ih hrest (by simpa [WriteOutcome.count] using hsum) hrestGood (by rwa [hrun]) h
      · intro hmany
        refine hpatient (hrun ▸ ?_)
        have hmore : retries + 1 = retries - maxPollRetries + (maxPollRetries + 1) := by omega
        refine ⟨replicate (retries - maxPollRetries) .again, answers.filter (· ≠ .interrupted), ?_⟩
        rw [hmore, replicate_append_replicate]
    | interrupted =>
      exact ih hrest (by simpa [WriteOutcome.count] using hsum) hrestGood (by simpa using hpatient) h
    | failed => exact absurd rfl hanswer.1

/-- Without a positive answer nothing is taken. -/
theorem writeLoop_nothing (buf : Bytes) {writes : List WriteOutcome}
    (hnone : ∀ n, .returned (n + 1) ∉ writes) {offset retries : Nat} {taken : Bytes}
    {result : Nat × Bytes} (h : writeLoop buf writes offset retries taken = some result) :
    result.2 = taken := by
  induction writes generalizing retries with
  | nil =>
    rw [writeLoop] at h
    split at h <;> cases h
    rfl
  | cons answer rest ih =>
    have hrest : ∀ n, .returned (n + 1) ∉ rest := fun n hmem => hnone n (mem_cons_of_mem _ hmem)
    rw [writeLoop.eq_def] at h
    dsimp only at h
    split at h
    · cases h
      rfl
    cases answer with
    | returned n =>
      cases n with
      | zero =>
        simp only [Nat.zero_min, Nat.lt_irrefl, if_false] at h
        cases h
        rfl
      | succ n => exact absurd mem_cons_self (hnone n)
    | again =>
      dsimp only at h
      split at h
      · cases h
        rfl
      · exact ih hrest h
    | interrupted => exact ih hrest h
    | failed =>
      cases h
      rfl

/-- What the socket took of an `OP_RW` packet, by its answers. -/
structure Forwarded (payload : Bytes) (writes : List WriteOutcome) (taken : Bytes) : Prop where
  ordered : taken <+: payload
  whole : Delivers payload.length writes → taken = payload
  nothing : (∀ n, .returned (n + 1) ∉ writes) → taken = []

theorem forwarded_writeAllWithBackoff {buf : Bytes} {writes : List WriteOutcome}
    {result : Nat × Bytes} (h : writeAllWithBackoff buf writes = some result) :
    Forwarded buf writes result.2 := by
  obtain ⟨htaken, hle⟩ := writeAllWithBackoff_taken h
  refine ⟨htaken ▸ take_prefix _ _, ?_, fun hnone => writeLoop_nothing buf hnone h⟩
  rintro ⟨answers, hanswers, hsum, hgood, hpatient⟩
  have hwhole := writeLoop_whole buf ((mem_inits _ _).mp hanswers) (by simpa using hsum) hgood
    (by simpa using hpatient) h
  rw [htaken, take_of_length_le hwhole]

/-- Without a host socket nothing is asked and nothing taken. -/
theorem forwarded_nil (payload : Bytes) : Forwarded payload [] [] := by
  refine ⟨ nil_prefix, ?_, fun _ => rfl⟩
  rintro ⟨answers, hanswers, hsum, -⟩
  cases prefix_nil.mp ((mem_inits _ _).mp hanswers)
  rw [map_nil, sum_nil] at hsum
  exact (eq_nil_of_length_eq_zero (Nat.le_zero.mp hsum)).symm

/-! ## The device and its log -/

/-- What happened on a connection: it was opened, a packet of the guest granted credit,
a packet was built for the guest, or an `OP_RW` packet arrived, on which the host socket
answered `writes` and of which it took `taken`. -/
inductive ConnEvent where
  | opened
  | credit (bufAlloc fwdCnt : BitVec 32)
  | packet (hdr : VsockHeader) (payload : Bytes)
  | received (payload : Bytes) (writes : List WriteOutcome) (taken : Bytes)
  deriving DecidableEq, Repr

/-- The manager, and the log of what passed. -/
structure Device where
  mgr : VsockConnectionManager
  log : List (VsockConnectionId × ConnEvent)

/-- A packet of the guest with the outcomes of the writes it leads to; `packet` is `none`
where the chain is shorter than a header. -/
structure TxChain where
  packet : Option (VsockHeader × Bytes)
  writes : List WriteOutcome
  deriving DecidableEq, Repr

/-- One pass of the RX loop: the capacity of the posted buffer, the bytes `read(2)` finds
(`none` where it fails, empty at the end of the stream), and what writing the packet into
the ring returns. -/
structure Turn where
  rxCapacity : Nat
  read : Option Bytes
  written : Option Nat
  deriving DecidableEq, Repr

/-- What the host's socket has to read. -/
inductive PeekOutcome where
  | data
  | eof
  | nothing
  deriving DecidableEq, Repr

/-- What a call of `poll_rx_injection` meets.  Hash maps are visited in an order of their
own, so the round says in which order. -/
structure Round where
  resetHandled : Bool
  peeks : List (VsockConnectionId × PeekOutcome)
  ringUsable : Bool
  turns : List Turn
  eventIdx : Bool
  notifyNeeded : Bool
  tx : Option (List TxChain)
  requeue : List VsockConnectionId
  deriving DecidableEq, Repr

/-- What one round of injection did. -/
structure RxRound where
  wrote : Bool
  raise : Bool
  deriving DecidableEq, Repr

/-! ## Packets for the guest -/

/-- A header from the host to the guest's end of a connection. -/
def headerFor (id : VsockConnectionId) (conn : VsockConnection) (op : VsockOp) : VsockHeader :=
  .new (.host id.hostPort) ⟨conn.guestCid, id.guestPort⟩ op

/-- The same with the host's credit fields. -/
def creditHeaderFor (id : VsockConnectionId) (conn : VsockConnection) (op : VsockOp) :
    VsockHeader := { headerFor id conn op with bufAlloc := txBufferSize, fwdCnt := conn.fwdCnt }

/-- The connection after a read of `data`, at most `maxRead` bytes, went out. -/
def afterRead (conn : VsockConnection) (data : Bytes) (maxRead : Nat) : VsockConnection :=
  let conn := (conn.recordRx (BitVec.ofNat 32 data.length)).maybeRequestCredit
  if data.length = maxRead then conn.enqueue RxOps.rw else conn

/-- The branch of the RX loop for `RxOps::RW`; no packet where the source continues. -/
def buildRw (mgr : VsockConnectionManager) (id : VsockConnectionId) (conn : VsockConnection)
    (turn : Turn) : VsockConnectionManager × Option (VsockHeader × Bytes) :=
  if conn.peerNoRecv then (mgr.put id conn, none)
  else if !conn.connect then (mgr.remove id, some (headerFor id conn .rst, []))
  else if conn.peerAvailCredit = 0 then
    if conn.creditRequestPending then (mgr.put id conn.parkRw, none)
    else
      (mgr.put id conn.parkRw.noteCreditRequestSent,
        some (creditHeaderFor id conn .creditRequest, []))
  else
    let maxRead := min conn.peerAvailCredit (turn.rxCapacity - VsockHeader.size)
    if maxRead = 0 then (mgr.put id (conn.enqueue RxOps.rw), none)
    else
      match turn.read with
      | none => (mgr.put id conn, none)
      | some bytes =>
        let data := bytes.take maxRead
        if data = [] then
          (mgr.put id conn, some ({ creditHeaderFor id conn .shutdown with flags := 3 }, []))
        else
          (mgr.put id (afterRead conn data maxRead),
            some ({ creditHeaderFor id conn .rw with len := BitVec.ofNat 32 data.length }, data))

/-- The packet for the operation that goes first on a connection. -/
def buildPacket (mgr : VsockConnectionManager) (id : VsockConnectionId) (turn : Turn) :
    VsockConnectionManager × Option (VsockHeader × Bytes) :=
  match mgr.connections.lookup id with
  | none => (mgr, none)
  | some conn =>
    if conn.rxQueue.peek = RxOps.reset then (mgr.remove id, some (headerFor id conn .rst, []))
    else
      let op := conn.rxQueue.dequeue.1
      let conn := { conn with rxQueue := conn.rxQueue.dequeue.2 }
      if op = RxOps.request then (mgr.put id conn, some (headerFor id conn .request, []))
      else if op = RxOps.response then
        (mgr.put id { conn with connect := true }, some (headerFor id conn .response, []))
      else if op = RxOps.rw then buildRw mgr id conn turn
      else if op = RxOps.creditUpdate then
        (mgr.put id conn.markCreditSent, some (creditHeaderFor id conn .creditUpdate, []))
      else if op = RxOps.creditRequest then
        (mgr.put id conn, some (creditHeaderFor id conn .creditRequest, []))
      else (mgr.put id conn, none)

namespace Device

/-- No connection. -/
def new : Device := ⟨.new, []⟩

variable (d : Device) (id : VsockConnectionId)

/-- Log an event of a connection. -/
def report (e : ConnEvent) : Device := { d with log := d.log ++ [(id, e)] }

/-- Log an event of a connection that is there. -/
def reportIfPresent (e : ConnEvent) : Device :=
  if (d.mgr.connections.lookup id).isSome then d.report id e else d

/-! ## Packets of the guest -/

/-- `update_peer_credit` for a packet of the guest. -/
def takeCredit (hdr : VsockHeader) : Device :=
  { d.reportIfPresent id (.credit hdr.bufAlloc hdr.fwdCnt) with
    mgr := d.mgr.updatePeerCredit id hdr.bufAlloc hdr.fwdCnt }

/-- The host socket took `taken` of an `OP_RW` packet. -/
def forward (payload : Bytes) (writes : List WriteOutcome) (forwarded : Nat) (taken : Bytes) :
    Device :=
  let d := d.reportIfPresent id (.received payload writes taken)
  if 0 < forwarded then { d with mgr := d.mgr.advanceFwdCnt id (BitVec.ofNat 32 forwarded) }
  else d

/-- `handle_tx_packet_with_fds`. -/
def handleTxPacketWithFds (hdr : VsockHeader) (payload : Bytes) (writes : List WriteOutcome) :
    Option Device :=
  let id : VsockConnectionId := ⟨hdr.dstPort, hdr.srcPort⟩
  match hdr.operation with
  | some .response =>
    let d := d.takeCredit id hdr
    some { d with mgr := d.mgr.markConnected id }
  | some .rw =>
    let d := d.takeCredit id hdr
    if d.mgr.fdFor id ∧ payload ≠ [] then
      match writeAllWithBackoff payload writes with
      | none => none
      | some (forwarded, taken) => some (d.forward id payload writes forwarded taken)
    else some (d.forward id payload [] 0 [])
  | some .shutdown => some { d with mgr := d.mgr.handleShutdown id hdr.flags }
  | some .rst => some { d with mgr := d.mgr.remove id }
  | some .creditUpdate => some (d.takeCredit id hdr)
  | some .creditRequest =>
    let d := d.takeCredit id hdr
    some { d with mgr := d.mgr.enqueueCreditUpdate id }
  | _ => some d

/-- `process_queue` on the TX queue. -/
def processQueue (d : Device) : List TxChain → Option Device
  | [] => some d
  | chain :: rest =>
    match chain.packet with
    | none => processQueue d rest
    | some (hdr, payload) =>
      match d.handleTxPacketWithFds hdr payload chain.writes with
      | none => none
      | some d => processQueue d rest

/-! ## Rounds -/

/-- Phase 1 for one descriptor. -/
def peek (peeked : VsockConnectionId × PeekOutcome) : Device :=
  match peeked.2 with
  | .data => { d with mgr := d.mgr.enqueueRw peeked.1 }
  | .eof => { d with mgr := d.mgr.enqueueReset peeked.1 }
  | .nothing => d

/-- What follows a packet in the RX loop: the daemon is told if it landed, and the
connection is queued again if it has more to send. -/
def afterWrite (mgr : VsockConnectionManager) (id : VsockConnectionId) (written : Option Nat) :
    VsockConnectionManager :=
  let mgr :=
    if written.any (0 < ·) then mgr.modify id fun conn => { conn with injectedNotify := false }
    else mgr
  if (mgr.connections.lookup id).any (·.rxQueue.pending) then mgr.push id else mgr

/-- Phase 2: the device, whether a chain was used, and whether the ring ran dry with
connections waiting. -/
def drain : List Turn → Device → Bool → Device × Bool × Bool
  | [], d, wrote => (d, wrote, !d.mgr.backendRxq.isEmpty)
  | turn :: rest, d, wrote =>
    match d.mgr.backendRxq with
    | [] => (d, wrote, false)
    | id :: queue =>
      let built := buildPacket { d.mgr with backendRxq := queue } id turn
      match built.2 with
      | none => drain rest { d with mgr := built.1 } wrote
      | some (hdr, payload) =>
        let d := report { d with mgr := built.1 } id (.packet hdr payload)
        drain rest { d with mgr := afterWrite d.mgr id turn.written }
          (wrote || turn.written.isSome)

/-- `poll_rx_injection`; `none` where the round's orders are not orders of the maps
visited, or a forwarded packet does not say how its writes end. -/
def pollRxInjection (round : Round) : Option (Device × RxRound) :=
  if !round.resetHandled then some (d, ⟨false, false⟩)
  else if !(round.peeks.map Prod.fst).isPerm d.mgr.connectedFds then none
  else
    let d := round.peeks.foldl peek d
    if !round.ringUsable then some (d, ⟨false, false⟩)
    else
      let drained := drain round.turns d false
      let wrote := drained.2.1
      let raise := if round.eventIdx then wrote && round.notifyNeeded else wrote || drained.2.2
      match round.tx with
      | none => some (drained.1, ⟨wrote, raise⟩)
      | some chains =>
        match drained.1.processQueue chains with
        | none => none
        | some d =>
          if chains.isEmpty then some (d, ⟨wrote, raise⟩)
          else if round.requeue.isPerm d.mgr.connectionsWithPendingRx then
            some ({ d with mgr := round.requeue.foldl .push d.mgr }, ⟨wrote, true⟩)
          else none

/-- The calls that reach the device and its manager. -/
inductive Call where
  | allocate (guestPort : BitVec 32) (guestCid : BitVec 64)
  | resumeHostPortsAt (port : BitVec 32)
  | removeAll
  | close
  | transmit (chains : List TxChain)
  | poll (round : Round)
  deriving Repr

/-- One call into the device. -/
def call : Call → Option Device
  | .allocate guestPort guestCid =>
    some ({ d with mgr := d.mgr.allocate guestPort guestCid }.report (d.mgr.nextId guestPort)
      .opened)
  | .resumeHostPortsAt port => some { d with mgr := d.mgr.resumeHostPortsAt port }
  | .removeAll => some { d with mgr := d.mgr.removeAll }
  | .close => some { d with mgr := d.mgr.close }
  | .transmit chains => d.processQueue chains
  | .poll round => (d.pollRxInjection round).map Prod.fst

/-- Calls in a row, until one is not admitted. -/
def run (d : Device) : List Call → Option Device
  | [] => some d
  | c :: rest =>
    match d.call c with
    | none => none
    | some d => run d rest

end Device

/-! ## One connection -/

/-- What one connection shows: its account, if it is there, and its events. -/
abbrev ConnView := Option Account × List ConnEvent

/-- A step of one connection. -/
inductive ConnStep : ConnView → ConnView → Prop
  | opened (a : Option Account) (l : List ConnEvent) :
      ConnStep (a, l) (some Account.zero, l ++ [.opened])
  | removed (a : Option Account) (l : List ConnEvent) : ConnStep (a, l) (none, l)
  | credit (a : Account) (l : List ConnEvent) (bufAlloc fwdCnt : BitVec 32) :
      ConnStep (some a, l)
        (some { a with peerBufAlloc := bufAlloc, peerFwdCnt := fwdCnt },
          l ++ [.credit bufAlloc fwdCnt])
  | control (a : Option Account) (l : List ConnEvent) (hdr : VsockHeader)
      (hop : hdr.operation ≠ some .rw) : ConnStep (a, l) (a, l ++ [.packet hdr []])
  | data (a : Account) (l : List ConnEvent) (hdr : VsockHeader) (payload : Bytes)
      (hle : payload.length ≤ a.credit) :
      ConnStep (some a, l)
        (some { a with rxCnt := a.rxCnt + BitVec.ofNat 32 payload.length },
          l ++ [.packet hdr payload])
  | received (a : Account) (l : List ConnEvent) {payload taken : Bytes}
      {writes : List WriteOutcome} (hforwarded : Forwarded payload writes taken) :
      ConnStep (some a, l)
        (some { a with fwdCnt := a.fwdCnt + BitVec.ofNat 32 taken.length },
          l ++ [.received payload writes taken])

namespace Device

/-- The events of one connection. -/
def eventsOf (id : VsockConnectionId) (log : List (VsockConnectionId × ConnEvent)) :
    List ConnEvent := log.filterMap fun entry => if entry.1 = id then some entry.2 else none

/-- What the device shows of one connection. -/
def view (d : Device) (id : VsockConnectionId) : ConnView := (d.mgr.accounts id, eventsOf id d.log)

/-- Every connection makes steps of its own between two states of the device. -/
def Acts (d d' : Device) : Prop := ∀ id, ReflTransGen ConnStep (d.view id) (d'.view id)

theorem Acts.trans {d₁ d₂ d₃ : Device} (h₁ : Acts d₁ d₂) (h₂ : Acts d₂ d₃) : Acts d₁ d₃ :=
  fun id => (h₁ id).trans (h₂ id)

theorem acts_refl (d : Device) : Acts d d := fun _ => .refl

variable {d d' : Device} {id : VsockConnectionId}

/-- Queues, flags and pending operations do not show. -/
theorem acts_of_accounts_eq (haccounts : d'.mgr.accounts = d.mgr.accounts) (hlog : d'.log = d.log) :
    Acts d d' := by
  intro id
  rw [view, view, haccounts, hlog]

theorem acts_remove (d : Device) (id : VsockConnectionId) :
    Acts d { d with mgr := d.mgr.remove id } := by
  intro k
  simp only [view, accounts_remove]
  rcases eq_or_ne k id with rfl | hne
  · rw [update_self]
    exact .single (.removed _ _)
  · rw [update_of_ne hne]

@[simp] theorem eventsOf_append (id : VsockConnectionId)
    (l l' : List (VsockConnectionId × ConnEvent)) :
    eventsOf id (l ++ l') = eventsOf id l ++ eventsOf id l' := filterMap_append

@[simp] theorem eventsOf_self (id : VsockConnectionId) (e : ConnEvent) :
    eventsOf id [(id, e)] = [e] := by
  simp [eventsOf]

theorem eventsOf_of_ne {k : VsockConnectionId} (hne : k ≠ id) (e : ConnEvent) :
    eventsOf k [(id, e)] = [] := by
  simp [eventsOf, hne.symm]

/-- A reported step of one connection. -/
theorem acts_of_step {x : Option Account} {e : ConnEvent}
    (haccounts : d'.mgr.accounts = Function.update d.mgr.accounts id x)
    (hlog : d'.log = d.log ++ [(id, e)])
    (hstep : ConnStep (d.view id) (x, eventsOf id d.log ++ [e])) : Acts d d' := by
  intro k
  rw [view, view, haccounts, hlog, eventsOf_append]
  rcases eq_or_ne k id with rfl | hne
  · rw [update_self, eventsOf_self]
    exact .single hstep
  · rw [update_of_ne hne, eventsOf_of_ne hne, append_nil]

/-! ## Every call is made of steps of connections -/

theorem acts_takeCredit (d : Device) (id : VsockConnectionId) (hdr : VsockHeader) :
    Acts d (d.takeCredit id hdr) := by
  have haccounts := d.mgr.accounts_updatePeerCredit id hdr.bufAlloc hdr.fwdCnt
  simp only [takeCredit, reportIfPresent]
  cases hlook : d.mgr.connections.lookup id with
  | none =>
    refine acts_of_accounts_eq ?_ rfl
    have hnone : d.mgr.accounts id = none := by
      rw [accounts, hlook, map_none]
    rw [haccounts, hnone, map_none, ← hnone, update_eq_self]
  | some conn =>
    have hsome : d.mgr.accounts id = some conn.account := by
      rw [accounts, hlook, map_some]
    refine acts_of_step haccounts rfl ?_
    rw [view, hsome]
    exact .credit _ _ _ _

theorem acts_forward (d : Device) (id : VsockConnectionId) {payload taken : Bytes}
    {writes : List WriteOutcome} {forwarded : Nat} (hforwarded : Forwarded payload writes taken)
    (hlen : taken.length = forwarded) : Acts d (d.forward id payload writes forwarded taken) := by
  have haccounts := d.mgr.accounts_advanceFwdCnt id (BitVec.ofNat 32 forwarded)
  simp only [forward, reportIfPresent]
  cases hlook : d.mgr.connections.lookup id with
  | none =>
    have hnone : d.mgr.accounts id = none := by
      rw [accounts, hlook, map_none]
    rw [hnone, map_none, ← hnone, update_eq_self] at haccounts
    split
    · exact acts_of_accounts_eq haccounts rfl
    · exact acts_refl d
  | some conn =>
    have hsome : d.mgr.accounts id = some conn.account := by
      rw [accounts, hlook, map_some]
    have hstep := ConnStep.received conn.account (eventsOf id d.log) hforwarded
    rw [hlen] at hstep
    split
    · refine acts_of_step (x := some { conn.account with
        fwdCnt := conn.account.fwdCnt + BitVec.ofNat 32 forwarded }) ?_ rfl ?_
      · simp only [isSome_some, if_true, report]
        rw [haccounts, hsome, map_some]
      · rw [view, hsome]
        exact hstep
    rename_i hzero
    have hzero : forwarded = 0 := Nat.eq_zero_of_not_pos hzero
    subst hzero
    refine acts_of_step (x := some conn.account) ?_ rfl ?_
    · rw [← hsome, update_eq_self]
      rfl
    · rw [view, hsome]
      simpa using hstep

theorem acts_handleTxPacketWithFds {hdr : VsockHeader} {payload : Bytes}
    {writes : List WriteOutcome} (h : d.handleTxPacketWithFds hdr payload writes = some d') :
    Acts d d' := by
  simp only [handleTxPacketWithFds] at h
  split at h
  · cases h
    refine (acts_takeCredit d _ hdr).trans (acts_of_accounts_eq ?_ rfl)
    exact accounts_markConnected _ _
  · split at h
    · split at h
      · cases h
      rename_i forwarded taken hwrites
      cases h
      obtain ⟨htaken, hle⟩ := writeAllWithBackoff_taken hwrites
      refine (acts_takeCredit d _ hdr).trans
        (acts_forward _ _ (forwarded_writeAllWithBackoff hwrites) ?_)
      exact (congrArg length htaken).trans (length_take_of_le hle)
    · cases h
      exact (acts_takeCredit d _ hdr).trans (acts_forward _ _ (forwarded_nil payload) rfl)
  · cases h
    simp only [handleShutdown]
    split
    · exact acts_remove d _
    · split
      · exact acts_of_accounts_eq (accounts_modify_of_eq fun _ => rfl) rfl
      · exact acts_refl d
  · cases h
    exact acts_remove d _
  · cases h
    exact acts_takeCredit d _ hdr
  · cases h
    refine (acts_takeCredit d _ hdr).trans (acts_of_accounts_eq ?_ rfl)
    exact accounts_enqueueOp _ _ _
  · cases h
    exact acts_refl d

theorem acts_processQueue (chains : List TxChain) (h : d.processQueue chains = some d') :
    Acts d d' := by
  induction chains generalizing d with
  | nil =>
    cases h
    exact acts_refl _
  | cons chain rest ih =>
    rw [processQueue] at h
    split at h
    · exact ih h
    split at h
    · cases h
    next hhandle =>
      exact (acts_handleTxPacketWithFds hhandle).trans (ih h)

theorem acts_peek (d : Device) (peeked : VsockConnectionId × PeekOutcome) :
    Acts d (d.peek peeked) := by
  rw [peek]
  split
  · exact acts_of_accounts_eq (accounts_enqueueOp _ _ _) rfl
  · exact acts_of_accounts_eq (accounts_enqueueOp _ _ _) rfl
  · exact acts_refl d

theorem acts_removeAll (d : Device) : Acts d { d with mgr := d.mgr.removeAll } := by
  have hremove : ∀ (ids : List VsockConnectionId) (mgr : VsockConnectionManager),
      Acts { d with mgr := mgr } { d with mgr := ids.foldl .remove mgr } := by
    intro ids
    induction ids with
    | nil => exact fun _ => acts_refl _
    | cons id ids ih => exact fun mgr => (acts_remove { d with mgr := mgr } id).trans (ih _)
  exact hremove _ _

theorem accounts_foldl_push (ids : List VsockConnectionId) (mgr : VsockConnectionManager) :
    (ids.foldl .push mgr).accounts = mgr.accounts := by
  induction ids generalizing mgr with
  | nil => rfl
  | cons id ids ih => exact ih _

/-- What building a packet for a connection does to the accounts. -/
inductive Built (mgr : VsockConnectionManager) (id : VsockConnectionId)
    (mgr' : VsockConnectionManager) : Option (VsockHeader × Bytes) → Prop
  | quiet (h : mgr'.accounts = mgr.accounts) : Built mgr id mgr' none
  | control (hdr : VsockHeader) (hop : hdr.operation ≠ some .rw)
      (h : mgr'.accounts = mgr.accounts) : Built mgr id mgr' (some (hdr, []))
  | reset (hdr : VsockHeader) (hop : hdr.operation ≠ some .rw)
      (h : mgr'.accounts = Function.update mgr.accounts id none) :
      Built mgr id mgr' (some (hdr, []))
  | data (a : Account) (hdr : VsockHeader) (payload : Bytes)
      (ha : mgr.accounts id = some a) (hle : payload.length ≤ a.credit)
      (h : mgr'.accounts = Function.update mgr.accounts id
        (some { a with rxCnt := a.rxCnt + BitVec.ofNat 32 payload.length })) :
      Built mgr id mgr' (some (hdr, payload))

theorem account_afterRead (conn : VsockConnection) (data : Bytes) (maxRead : Nat) :
    (afterRead conn data maxRead).account
      = { conn.account with rxCnt := conn.account.rxCnt + BitVec.ofNat 32 data.length } := by
  simp only [afterRead]
  split <;> simp only [VsockConnection.account_enqueue, VsockConnection.account_maybeRequestCredit,
    VsockConnection.account_recordRx]

theorem built_buildRw {mgr : VsockConnectionManager} {conn conn' : VsockConnection} (turn : Turn)
    (hlook : mgr.connections.lookup id = some conn') (haccount : conn.account = conn'.account) :
    Built mgr id (buildRw mgr id conn turn).1 (buildRw mgr id conn turn).2 := by
  have hput : ∀ c : VsockConnection, c.account = conn.account →
      (mgr.put id c).accounts = mgr.accounts := fun c hc =>
    accounts_put_of_eq hlook (hc.trans haccount)
  simp only [buildRw]
  split
  · exact .quiet (hput _ rfl)
  split
  · exact .reset _ (operation_ne_rw .rst rfl (by decide)) (by simp)
  split
  · split
    · exact .quiet (hput _ rfl)
    · exact .control _ (operation_ne_rw .creditRequest rfl (by decide)) (hput _ rfl)
  split
  · exact .quiet (hput _ rfl)
  split
  · exact .quiet (hput _ rfl)
  split
  · exact .control _ (operation_ne_rw .shutdown rfl (by decide)) (hput _ rfl)
  refine .data conn.account _ _ ?_ ?_ ?_
  · rw [accounts, hlook, map_some, haccount]
  · rw [VsockConnection.credit_account, length_take]
    omega
  · rw [accounts_put, account_afterRead]

theorem built_buildPacket (mgr : VsockConnectionManager) (id : VsockConnectionId) (turn : Turn) :
    Built mgr id (buildPacket mgr id turn).1 (buildPacket mgr id turn).2 := by
  simp only [buildPacket]
  split
  · exact .quiet rfl
  rename_i conn hlook
  have hput : ∀ c : VsockConnection, c.account = conn.account →
      (mgr.put id c).accounts = mgr.accounts := fun c hc =>
    accounts_put_of_eq hlook hc
  split
  · exact .reset _ (operation_ne_rw .rst rfl (by decide)) (by simp)
  split
  · exact .control _ (operation_ne_rw .request rfl (by decide)) (hput _ rfl)
  split
  · exact .control _ (operation_ne_rw .response rfl (by decide)) (hput _ rfl)
  split
  · exact built_buildRw turn hlook rfl
  split
  · exact .control _ (operation_ne_rw .creditUpdate rfl (by decide)) (hput _ rfl)
  split
  · exact .control _ (operation_ne_rw .creditRequest rfl (by decide)) (hput _ rfl)
  · exact .quiet (hput _ rfl)

theorem accounts_afterWrite (mgr : VsockConnectionManager) (id : VsockConnectionId)
    (written : Option Nat) : (afterWrite mgr id written).accounts = mgr.accounts := by
  have hmodify : (mgr.modify id fun conn => { conn with injectedNotify := false }).accounts
      = mgr.accounts := accounts_modify_of_eq fun _ => rfl
  simp only [afterWrite]
  split <;> split
  · rw [accounts_push, hmodify]
  · rw [hmodify]
  · rfl
  · rfl

theorem acts_drain (turns : List Turn) (d : Device) (wrote : Bool) :
    Acts d (drain turns d wrote).1 := by
  induction turns generalizing d wrote with
  | nil => exact acts_refl d
  | cons turn rest ih =>
    rw [drain]
    split
    · exact acts_refl d
    rename_i id queue hqueue
    have hbuilt := built_buildPacket { d.mgr with backendRxq := queue } id turn
    generalize buildPacket { d.mgr with backendRxq := queue } id turn = built at hbuilt ⊢
    obtain ⟨mgr', packet⟩ := built
    cases hbuilt with
    | quiet h =>
      have hquiet : Acts d { d with mgr := mgr' } := acts_of_accounts_eq h rfl
      exact hquiet.trans (ih _ _)
    | control hdr hop h =>
      refine Acts.trans (acts_of_step (x := d.mgr.accounts id) ?_ rfl (.control _ _ hdr hop))
        (ih _ _)
      rw [update_eq_self]
      exact (accounts_afterWrite _ _ _).trans h
    | reset hdr hop h =>
      refine ((acts_remove d id).trans ?_).trans (ih _ _)
      refine acts_of_step (x := none) ?_ rfl ?_
      · rw [accounts_remove, update_idem]
        exact (accounts_afterWrite _ _ _).trans h
      · simp only [view, accounts_remove, update_self]
        exact .control _ _ hdr hop
    | data a hdr payload ha hle h =>
      have ha : d.mgr.accounts id = some a := ha
      refine Acts.trans (acts_of_step ((accounts_afterWrite _ _ _).trans h) rfl ?_) (ih _ _)
      rw [view, ha]
      exact .data a _ hdr payload hle

theorem acts_pollRxInjection {round : Round} {result : Device × RxRound}
    (h : d.pollRxInjection round = some result) : Acts d result.1 := by
  simp only [pollRxInjection] at h
  split at h
  · cases h
    exact acts_refl d
  split at h
  · cases h
  have hpeeks : Acts d (round.peeks.foldl _ d) :=
    foldlRecOn _ _ (acts_refl d) fun _ h peek _ => h.trans (acts_peek _ peek)
  split at h
  · cases h
    exact hpeeks
  have hdrain := hpeeks.trans (acts_drain round.turns _ false)
  split at h
  · cases h
    exact hdrain
  split at h
  · cases h
  rename_i d' hprocess
  have hprocess := hdrain.trans (acts_processQueue _ hprocess)
  split at h
  · cases h
    exact hprocess
  split at h
  · cases h
    refine hprocess.trans (acts_of_accounts_eq ?_ rfl)
    exact accounts_foldl_push _ _
  · cases h

theorem acts_call {c : Call} (h : d.call c = some d') : Acts d d' := by
  cases c with
  | allocate guestPort guestCid =>
    cases h
    exact acts_of_step (d.mgr.accounts_allocate guestPort guestCid) rfl (.opened _ _)
  | resumeHostPortsAt port =>
    cases h
    exact acts_of_accounts_eq rfl rfl
  | removeAll =>
    cases h
    exact acts_removeAll d
  | close =>
    cases h
    exact acts_removeAll { d with mgr := { d.mgr with closed := true } }
  | transmit chains => exact acts_processQueue chains h
  | poll round =>
    obtain ⟨result, hresult, rfl⟩ := map_eq_some_iff.mp h
    exact acts_pollRxInjection hresult

/-- A run of the device is, on each connection, a run of the connection's machine. -/
theorem acts_run (calls : List Call) (h : d.run calls = some d') : Acts d d' := by
  induction calls generalizing d with
  | nil =>
    cases h
    exact acts_refl _
  | cons c rest ih =>
    rw [run] at h
    split at h
    · cases h
    next hcall =>
      exact (acts_call hcall).trans (ih h)

end Device

end Arcbox.Vsock

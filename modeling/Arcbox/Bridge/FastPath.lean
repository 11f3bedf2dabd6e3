import Arcbox.Bridge.Upload

set_option autoImplicit false

/-!
# Bridge: one flow's fast path

`TcpBridge::intercept_open_at` and `TcpBridge::poll_fast_path`
(`tcp_bridge/fast_path.rs`), seen from the flow they work on.  The clock, the
cancellation flag and the outcomes of the socket calls of a call are its
environment.  A result says what became of the flow, which frames go to the
guest, and whether the bridge closes the flow.
-/

namespace Arcbox.Bridge

open Foundation List
open Packet

namespace FastPathConn

variable (c : FastPathConn) (macs : LinkMacs)

/-- The RST that ends the flow at its current cursors (`reset_frame`). -/
def resetFrame : TcpFrame := .rst (c.frameParams macs c.ourSeq 0)

/-- A pure acknowledgement at the current cursors. -/
def ackFrame : TcpFrame := .ack (c.frameParams macs c.ourSeq 65535)

/-! ## Interception -/

/-- A repeated acknowledgement while data is in flight, or one that moves on.
`sent` is the send cursor as it was loaded. -/
def countDupAck (sent : BitVec 32) (t : TcpView) (scaledWin : BitVec 32) : FastPathConn :=
  let advance := (t.ack - c.guestAcked).toNat
  let plainAck := t.flags &&& (0x01 ||| 0x02 ||| 0x04) == 0
  if advance = 0 ∧ t.payload = [] ∧ plainAck ∧ scaledWin = c.guestWindow then
    let inFlight := (sent - t.ack).toNat
    if 0 < inFlight ∧ inFlight < half then
      let dupAcks := min (c.dupAcks + 1) 255
      { c with dupAcks := dupAcks, fastRetransmit := c.fastRetransmit || decide (3 ≤ dupAcks) }
    else c
  else if 0 < advance then { c with dupAcks := 0 } else c

/-- The acknowledgement a segment carries is one the flow may take: not behind
the last one, and not beyond what was sent. -/
def acceptsAck (sent ack : BitVec 32) : Prop :=
  (ack - c.guestAcked).toNat < half ∧ ¬ ((ack - sent).toNat ≠ 0 ∧ (ack - sent).toNat < half)

instance (c : FastPathConn) (sent ack : BitVec 32) : Decidable (c.acceptsAck sent ack) :=
  inferInstanceAs (Decidable (_ ∧ _))

variable (now : Instant) (t : TcpView)

/-- The window a segment advertises, in bytes. -/
def scaledWindow : BitVec 32 := t.window.setWidth 32 <<< c.guestWscale.val

/-- Take a segment's acknowledgement. -/
def storeAcked (sent : BitVec 32) (t : TcpView) : FastPathConn :=
  { c.countDupAck sent t (c.scaledWindow t) with guestAcked := t.ack }

/-- Take a segment's window. -/
def storeWindow (window : BitVec 32) : FastPathConn := { c with guestWindow := window }

/-- Download flow control: what a segment's ACK says about our stream. -/
def handleAck : FastPathConn :=
  if t.isAck ∧ c.acceptsAck c.ourSeq t.ack then
    (c.storeAcked c.ourSeq t).storeWindow (c.scaledWindow t)
  else c

/-- The environment of an `intercept_open_at` call. -/
structure InterceptEnv where
  now : Instant
  cancelled : Bool
  writes : List WriteOutcome
  deriving DecidableEq, Repr

/-- The batch of a segment that reaches past the cursor: its fresh bytes, and the
frames that continue it when nothing is parked. -/
def uploadBatch (following : List (Option TcpView)) : UploadBatch :=
  let overlap := (c.lastAck - t.seq).toNat
  let batch : UploadBatch := ⟨[t.payload.drop overlap]⟩
  if overlap = 0 ∧ c.oooSegs = [] then batch.extend t following t.seqEnd else batch

/-- The upload of a segment: the flow afterwards, the frames consumed, and
whether the cursor advanced in order; `none` when the host write failed. -/
def takePayload (env : InterceptEnv) (t : TcpView) (following : List (Option TcpView)) :
    FastPathConn × Nat × Option Bool :=
  if t.payload = [] then (c, 1, some false)
  else
    let fresh := (t.seqEnd - c.lastAck).toNat
    if fresh = 0 ∨ half ≤ fresh then (c, 1, some false)
    else if half ≤ (c.lastAck - t.seq).toNat then
      ({ c with upOutOfOrder := c.upOutOfOrder + 1 }.bufferUploadSegment t.seq t.payload, 1,
        some false)
    else
      let batch := c.uploadBatch t following
      let sent := batch.send (env.writes.headD .wouldBlock) c
      (sent.1, batch.count, sent.2)

/-- What an intercepted segment leads to. -/
structure Intercepted where
  conn : FastPathConn
  consumed : Nat
  reply : Option TcpFrame
  close : Bool

/-- The reply to a segment whose payload is dealt with: the guest's FIN once
everything before it is written, and an acknowledgement for what calls for one. -/
def replyTo (consumed : Nat) : Intercepted :=
  if t.isFin ∧ t.seqEnd = c.lastAck then
    let c := c.setLastAck (c.lastAck + 1)
    if c.inlineOwned then ⟨c, consumed, some (.fin (c.frameParams macs c.ourSeq 65535)), true⟩
    else
      let c := { c with stream := { c.stream with writeShut := true }, guestFinAt := some now }
      ⟨c, consumed, some (c.ackFrame macs), false⟩
  else if t.payload = [] ∧ t.flags &&& (0x01 ||| 0x02) = 0 then ⟨c, consumed, none, false⟩
  else ⟨c, consumed, some (c.ackFrame macs), false⟩

/-- The part of `intercept_open_at` after the flow is found. -/
def intercept (env : InterceptEnv) (t : TcpView) (following : List (Option TcpView)) :
    Intercepted :=
  let c := { c with lastGuestActivity := env.now }
  if t.isRst then ⟨c, 1, none, true⟩
  else if env.cancelled then ⟨c, 1, some (c.resetFrame macs), true⟩
  else
    match (c.handleAck t).takePayload env t following with
    | (c, consumed, none) => ⟨c, consumed, some (c.resetFrame macs), true⟩
    | (c, consumed, some advanced) =>
        if advanced ∧ c.oooSegs ≠ [] then
          match c.drainParkedSegments env.writes.tail with
          | (c, false) => ⟨c, consumed, some (c.resetFrame macs), true⟩
          | (c, true) => c.replyTo macs env.now t consumed
        else c.replyTo macs env.now t consumed

/-! ## Polling: loss recovery -/

/-- The guest acknowledged more of our stream. -/
def noteProgress : FastPathConn := { c with lastProgress := now, rto := initialRto, dupAcks := 0 }

/-- Everything past the guest's acknowledgement was sent again. -/
def noteRetransmit : FastPathConn :=
  { c with
    fastRetransmit := false
    dupAcks := 0
    retransmits := c.retransmits + 1
    lastProgress := now
    rto := min (c.rto * 2) maxRto }

def parkClock : FastPathConn := { c with lastProgress := now, fastRetransmit := false }

/-- Start, keep or stop the clock of a flow that waits for the guest. -/
def solicit (soliciting : Bool) (now : Instant) : FastPathConn :=
  { c with solicitingSince := if soliciting then some (c.solicitingSince.getD now) else none }

/-- Both the soliciting clock and the guest's last sign of life are stale. -/
def givesUp (timeout : Instant) : Bool :=
  (c.solicitingSince.any fun since => decide (timeout ≤ now - since))
    && decide (timeout ≤ now - c.lastGuestActivity)

/-- Loss recovery is due. -/
def retransmitDue : Bool := c.fastRetransmit || decide (c.rto ≤ now - c.lastProgress)

def resendFin (finSeq : Option (BitVec 32)) (sent acked : BitVec 32) : List TcpFrame :=
  match finSeq with
  | none => []
  | some finSeq =>
      if (sent - finSeq).toNat < half ∧ (finSeq - acked).toNat < half then
        [.fin (c.frameParams macs finSeq 65535)]
      else []

end FastPathConn

/-- Bytes or a FIN are in flight. -/
def inFlight (sent acked : BitVec 32) : Bool :=
  decide (0 < (sent - acked).toNat ∧ (sent - acked).toNat < half)

/-- What polling a flow leads to. -/
structure Polled where
  conn : FastPathConn
  frames : List TcpFrame
  remove : Bool

namespace FastPathConn

/-! ## Polling: inline flows -/

variable (c : FastPathConn) (ctx : FrameCtx)

/-- Drain the acknowledged part of the ring. -/
def drainRing (ring : RetxRing) (acked : BitVec 32) (now : Instant) : FastPathConn :=
  let drained := (acked - ring.base).toNat
  if 0 < drained ∧ drained < half then
    { c with retx := some { ring with base := acked, buf := ring.buf.drop drained } }.noteProgress now
  else c

/-- What the ring sends again: the bytes past the guest's acknowledgement, no
more than are in flight, then the FIN. -/
def resendRing (ring : RetxRing) (sent acked : BitVec 32) : List TcpFrame :=
  let offset := (acked - ring.base).toNat
  (if offset < ring.buf.length then
      emitDataFrames ctx c acked ((ring.buf.drop offset).take (sent - acked).toNat)
    else []) ++ c.resendFin ctx.macs ring.finSeq sent acked

variable (now : Instant)

/-- Loss recovery of an inline flow, with the ring locked.  `sent` and `acked`
are the cursors loaded before. -/
def recoverRing (ring : RetxRing) (sent acked : BitVec 32) : FastPathConn × List TcpFrame :=
  let c := c.drainRing ring acked now
  let ring := c.retx.getD ring
  if inFlight sent acked then
    if c.retransmitDue now then (c.noteRetransmit now, c.resendRing ctx ring sent acked)
    else (c, [])
  else (c.parkClock now, [])

def probeInline (macs : LinkMacs) (now : Instant) (sent acked : BitVec 32) (window : Nat) :
    FastPathConn × List TcpFrame :=
  if sendBudget sent acked window = 0 ∧ inFlight sent acked = false then
    match c.windowStalledAt with
    | none => ({ c with windowStalledAt := some now }, [])
    | some stalledAt =>
        if zeroWindowPersistInterval ≤ now - stalledAt then
          ({ c with windowStalledAt := some now },
            [.data (c.frameParams macs (sent - 1) 65535) [0]])
        else (c, [])
  else ({ c with windowStalledAt := none }, [])

variable (deadFlowTimeout : Instant)

/-- The inline branch of `poll_fast_path`, after the cursors were loaded. -/
def pollInline (sent acked : BitVec 32) (window : Nat) : Polled :=
  let c := c.solicit (inFlight sent acked || c.windowStalledAt.isSome) now
  if c.givesUp now deadFlowTimeout then ⟨c, [.rst (c.frameParams ctx.macs sent 0)], true⟩
  else
    let recovered := match c.retx with
      | none => (c, [])
      | some ring => c.recoverRing ctx now ring sent acked
    let probed := recovered.1.probeInline ctx.macs now sent acked window
    ⟨probed.1, recovered.2 ++ probed.2, false⟩

/-! ## Polling: polled flows -/

/-- A half-closed flow whose FIN is acknowledged, or that has been idle for too
long. -/
def reapsHalfClosed : Bool :=
  match c.guestFinAt with
  | none => false
  | some finAt =>
      (c.hostEof && c.finSeq.any fun finSeq =>
        decide (1 ≤ (c.guestAcked - finSeq).toNat ∧ (c.guestAcked - finSeq).toNat < half))
      || decide (halfCloseTimeout ≤ now - finAt)

def drainRetransmit : FastPathConn :=
  let drained := (c.guestAcked - c.retransmitSeq).toNat
  if 0 < drained ∧ drained < half then
    { c with
      retransmitBuf := c.retransmitBuf.drop drained
      retransmitSeq := c.guestAcked }.noteProgress now
  else c

/-- What the retransmission buffer sends again, and the FIN. -/
def resendBuffered : List TcpFrame :=
  let offset := (c.guestAcked - c.retransmitSeq).toNat
  (if offset < c.retransmitBuf.length then
      emitDataFrames ctx c c.guestAcked (c.retransmitBuf.drop offset)
    else []) ++ c.resendFin ctx.macs c.finSeq c.ourSeq c.guestAcked

/-- Loss recovery of a polled flow. -/
def recoverPolled : FastPathConn × List TcpFrame :=
  if inFlight c.ourSeq c.guestAcked then
    if c.retransmitDue now then (c.noteRetransmit now, c.resendBuffered ctx) else (c, [])
  else (c.parkClock now, [])

/-- What one `read` on the host socket returns.  `ok` may hold more than the
caller asks for; an empty result is end of stream. -/
inductive ReadOutcome where
  | ok (data : Bytes)
  | wouldBlock
  | failed
  deriving DecidableEq, Repr

/-- The host reached end of stream: FIN to the guest. -/
def sendFin (macs : LinkMacs) : Polled :=
  ⟨{ c with hostEof := true, finSeq := some c.ourSeq, ourSeq := c.ourSeq + 1 },
    [.fin (c.frameParams macs c.ourSeq 65535)], false⟩

/-- Bytes from the host go to the guest. -/
def sendData (data : Bytes) : Polled :=
  ⟨{ c with
      stream := { c.stream with received := c.stream.received ++ data }
      downBytes := c.downBytes + data.length
      guestFinAt := c.guestFinAt.map fun _ => now
      retransmitBuf := c.retransmitBuf ++ data
      ourSeq := c.ourSeq + BitVec.ofNat 32 data.length },
    emitDataFrames ctx c c.ourSeq data, false⟩

/-- Read at most `cap` bytes from the host and send them on. -/
def readHost (read : ReadOutcome) (cap : Nat) : Polled :=
  match read with
  | .ok data =>
      if data.take cap = [] then c.sendFin ctx.macs else c.sendData ctx now (data.take cap)
  | .wouldBlock => ⟨c, [], false⟩
  | .failed => ⟨c, [c.resetFrame ctx.macs], true⟩

/-- The window the flow honours. -/
def honoredWindow : Nat := min c.guestWindow.toNat honoredWindowCap

/-- The window has closed. -/
def stallWindow : FastPathConn :=
  if c.windowStalled then c else { c with windowStalled := true, windowStalledAt := some now }

/-- The window is open again. -/
def reopenWindow : FastPathConn :=
  if c.windowStalled then { c with windowStalled := false, windowStalledAt := none } else c

/-- The persist timer of a closed window has run out. -/
def probeDue : Bool :=
  c.windowStalledAt.any fun stalledAt => decide (zeroWindowPersistInterval ≤ now - stalledAt)

/-- How many bytes may be read now, with the window bookkeeping: none at a zero
budget, except for the one byte of a probe that is due. -/
def readCap (bufCap : Nat) : FastPathConn × Option Nat :=
  let budget := sendBudget c.ourSeq c.guestAcked c.honoredWindow
  if budget = 0 then
    let stalled := c.stallWindow now
    if inFlight c.ourSeq c.guestAcked = false ∧ stalled.probeDue now then
      ({ stalled with windowStalledAt := some now }, some 1)
    else (stalled, none)
  else (c.reopenWindow, some (min budget bufCap))

/-- The read part of the polled branch. -/
def pollRead (bufCap : Nat) (read : ReadOutcome) : Polled :=
  if c.hostEof then ⟨c, [], false⟩
  else
    match c.readCap now bufCap with
    | (c, none) => ⟨c, [], false⟩
    | (c, some cap) => c.readHost ctx now read cap

/-- The polled branch of `poll_fast_path`. -/
def pollStream (bufCap : Nat) (read : ReadOutcome) : Polled :=
  if c.reapsHalfClosed now then ⟨c, [], true⟩
  else
    let c := c.drainRetransmit now
    let c := c.solicit (inFlight c.ourSeq c.guestAcked || c.windowStalledAt.isSome) now
    if c.givesUp now deadFlowTimeout then
      ⟨c, [.rst (c.frameParams ctx.macs c.ourSeq 0)], true⟩
    else
      let recovered := c.recoverPolled ctx now
      let readPart := recovered.1.pollRead ctx now bufCap read
      ⟨readPart.conn, recovered.2 ++ readPart.frames, readPart.remove⟩

/-! ## Polling -/

/-- The environment of one flow in a `poll_fast_path` call. -/
structure PollEnv where
  cancelled : Bool
  writes : List WriteOutcome
  read : ReadOutcome
  deriving DecidableEq, Repr

/-- The parked upload, and the acknowledgement if that moved the cursor; `none`
when the host write failed. -/
def pollUpload (macs : LinkMacs) (writes : List WriteOutcome) :
    FastPathConn × Option (List TcpFrame) :=
  if c.oooSegs = [] then (c, some [])
  else
    match c.drainParkedSegments writes with
    | (c', false) => (c', none)
    | (c', true) => (c', some (if c'.lastAck = c.lastAck then [] else [c'.ackFrame macs]))

/-- One flow's turn in `poll_fast_path`. -/
def poll (bufCap : Nat) (env : PollEnv) : Polled :=
  if env.cancelled then ⟨c, [c.resetFrame ctx.macs], true⟩
  else if c.dead = some true then ⟨c, [], true⟩
  else
    match c.pollUpload ctx.macs env.writes with
    | (c, none) => ⟨c, [c.resetFrame ctx.macs], true⟩
    | (c, some acks) =>
        let polled := if c.inlineOwned then
            c.pollInline ctx now deadFlowTimeout c.ourSeq c.guestAcked c.honoredWindow
          else c.pollStream ctx now deadFlowTimeout bufCap env.read
        ⟨polled.conn, acks ++ polled.frames, polled.remove⟩

/-! ## What the download path leaves alone -/

/-- `c'` has the upload fields, the addresses and the owner of `c`; a half-close
stays a half-close. -/
structure SameUpload (c c' : FastPathConn) : Prop where
  part : c'.uploadPart = c.uploadPart
  key : c'.key = c.key
  guestFin : c'.guestFinAt.isSome = c.guestFinAt.isSome
  inlineOwned : c'.inlineOwned = c.inlineOwned

theorem SameUpload.refl : SameUpload c c := ⟨rfl, rfl, rfl, rfl⟩

variable {c' : FastPathConn}
variable {c : FastPathConn} {macs : LinkMacs} {acked sent : BitVec 32} {read : ReadOutcome}

theorem SameUpload.trans {c'' : FastPathConn} (h : SameUpload c c') (h' : SameUpload c' c'') :
    SameUpload c c'' :=
  ⟨h'.part.trans h.part, h'.key.trans h.key, h'.guestFin.trans h.guestFin,
    h'.inlineOwned.trans h.inlineOwned⟩

theorem SameUpload.lastAck (h : SameUpload c c') : c'.lastAck = c.lastAck :=
  congrArg UploadPart.lastAck h.part

theorem SameUpload.frameParams (h : SameUpload c c') (macs : LinkMacs) (seq : BitVec 32)
    (window : BitVec 16) : c'.frameParams macs seq window = c.frameParams macs seq window := by
  have hkey := h.key
  simp only [FastPathConn.key, SynFlowKey.mk.injEq] at hkey
  obtain ⟨h1, h2, h3, h4⟩ := hkey
  simp only [FastPathConn.frameParams, h1, h2, h3, h4, h.lastAck]

theorem sameUpload_handleAck (c : FastPathConn) (t : TcpView) : SameUpload c (c.handleAck t) := by
  simp only [handleAck, storeAcked, storeWindow, countDupAck]
  repeat' split
  all_goals exact ⟨rfl, rfl, rfl, rfl⟩

theorem sameUpload_recoverRing (c : FastPathConn) (ctx : FrameCtx) (now : Instant)
    (ring : RetxRing) (sent acked : BitVec 32) :
    SameUpload c (c.recoverRing ctx now ring sent acked).1 := by
  simp only [recoverRing, drainRing]
  repeat' split
  all_goals exact ⟨rfl, rfl, rfl, rfl⟩

theorem sameUpload_probeInline (c : FastPathConn) (macs : LinkMacs) (now : Instant)
    (sent acked : BitVec 32) (window : Nat) :
    SameUpload c (c.probeInline macs now sent acked window).1 := by
  simp only [probeInline]
  repeat' split
  all_goals exact ⟨rfl, rfl, rfl, rfl⟩

theorem sameUpload_pollInline (c : FastPathConn) (ctx : FrameCtx) (now timeout : Instant)
    (sent acked : BitVec 32) (window : Nat) :
    SameUpload c (c.pollInline ctx now timeout sent acked window).conn := by
  simp only [pollInline]
  split
  · exact ⟨rfl, rfl, rfl, rfl⟩
  refine SameUpload.trans ?_ (sameUpload_probeInline _ _ _ _ _ _)
  split
  · exact ⟨rfl, rfl, rfl, rfl⟩
  · refine SameUpload.trans ?_ (sameUpload_recoverRing _ _ _ _ _ _)
    exact ⟨rfl, rfl, rfl, rfl⟩

theorem sameUpload_readCap (c : FastPathConn) (now : Instant) (bufCap : Nat) :
    SameUpload c (c.readCap now bufCap).1 := by
  simp only [readCap, stallWindow, reopenWindow]
  repeat' split
  all_goals exact ⟨rfl, rfl, rfl, rfl⟩

theorem sameUpload_readHost (c : FastPathConn) (ctx : FrameCtx) (now : Instant)
    (read : ReadOutcome) (cap : Nat) : SameUpload c (c.readHost ctx now read cap).conn := by
  simp only [readHost, sendFin, sendData]
  repeat' split
  all_goals exact ⟨rfl, rfl, by simp, rfl⟩

theorem sameUpload_pollRead (c : FastPathConn) (ctx : FrameCtx) (now : Instant) (bufCap : Nat)
    (read : ReadOutcome) : SameUpload c (c.pollRead ctx now bufCap read).conn := by
  have hcap := sameUpload_readCap c now bufCap
  simp only [pollRead]
  split
  · exact SameUpload.refl c
  split
  next c' heq =>
    rwa [heq] at hcap
  next c' cap heq =>
    rw [heq] at hcap
    exact hcap.trans (sameUpload_readHost c' ctx now read cap)

theorem sameUpload_recoverPolled (c : FastPathConn) (ctx : FrameCtx) (now : Instant) :
    SameUpload c (c.recoverPolled ctx now).1 := by
  simp only [recoverPolled]
  repeat' split
  all_goals exact ⟨rfl, rfl, rfl, rfl⟩

theorem sameUpload_drainRetransmit (c : FastPathConn) (now : Instant) :
    SameUpload c (c.drainRetransmit now) := by
  simp only [drainRetransmit]
  split <;> exact ⟨rfl, rfl, rfl, rfl⟩

theorem sameUpload_pollStream (c : FastPathConn) (ctx : FrameCtx) (now timeout : Instant)
    (bufCap : Nat) (read : ReadOutcome) :
    SameUpload c (c.pollStream ctx now timeout bufCap read).conn := by
  have hdrain := sameUpload_drainRetransmit c now
  simp only [pollStream]
  split
  · exact SameUpload.refl c
  split
  · exact hdrain.trans ⟨rfl, rfl, rfl, rfl⟩
  · refine SameUpload.trans ?_ (sameUpload_pollRead _ _ _ _ _)
    refine SameUpload.trans ?_ (sameUpload_recoverPolled _ _ _)
    exact hdrain.trans ⟨rfl, rfl, rfl, rfl⟩

/-! ## Whose frames these are -/

/-- The frame is built from the parameters of the flow: its addresses, and its
acknowledgement. -/
def Emits (c : FastPathConn) (macs : LinkMacs) (f : TcpFrame) : Prop :=
  ∃ seq window, f.params = c.frameParams macs seq window

variable {f : TcpFrame}

theorem Emits.flow_eq (h : c.Emits macs f) : f.flow = c.key := by
  obtain ⟨seq, window, hp⟩ := h
  simp only [TcpFrame.flow, hp]
  rfl

theorem SameUpload.emits_iff (h : SameUpload c c') : c'.Emits macs f ↔ c.Emits macs f := by
  simp only [Emits, h.frameParams]

variable {ctx : FrameCtx}

theorem emits_emitDataFrames {seqStart : BitVec 32} {data : Bytes}
    (hf : f ∈ emitDataFrames ctx c seqStart data) : c.Emits ctx.macs f := by
  obtain ⟨off, n, -, hp, -⟩ := mem_emitDataFrames hf
  exact ⟨_, _, hp⟩

theorem emits_resendFin {finSeq : Option (BitVec 32)}
    (hf : f ∈ c.resendFin macs finSeq sent acked) : c.Emits macs f := by
  simp only [resendFin] at hf
  repeat' split at hf
  all_goals simp only [mem_singleton, not_mem_nil] at hf
  subst hf
  exact ⟨_, _, rfl⟩

theorem emits_resendRing {ring : RetxRing} (hf : f ∈ c.resendRing ctx ring sent acked) :
    c.Emits ctx.macs f := by
  rcases mem_append.mp hf with h | h
  · split at h
    · exact emits_emitDataFrames h
    · cases h
  · exact emits_resendFin h

theorem emits_resendBuffered (hf : f ∈ c.resendBuffered ctx) : c.Emits ctx.macs f := by
  rcases mem_append.mp hf with h | h
  · split at h
    · exact emits_emitDataFrames h
    · cases h
  · exact emits_resendFin h

variable {now : Instant}

theorem emits_recoverRing {ring : RetxRing} (hf : f ∈ (c.recoverRing ctx now ring sent acked).2) :
    c.Emits ctx.macs f := by
  have hdrain : SameUpload c (c.drainRing ring acked now) := by
    simp only [drainRing]
    split <;> exact ⟨rfl, rfl, rfl, rfl⟩
  simp only [recoverRing] at hf
  repeat' split at hf
  · exact hdrain.emits_iff.mp (emits_resendRing hf)
  all_goals cases hf

theorem emits_probeInline {window : Nat} (hf : f ∈ (c.probeInline macs now sent acked window).2) :
    c.Emits macs f := by
  simp only [probeInline] at hf
  repeat' split at hf
  all_goals simp only [mem_singleton, not_mem_nil] at hf
  subst hf
  exact ⟨_, _, rfl⟩

variable {timeout : Instant}

theorem emits_pollInline {window : Nat}
    (hf : f ∈ (c.pollInline ctx now timeout sent acked window).frames) : c.Emits ctx.macs f := by
  simp only [pollInline] at hf
  generalize hc : c.solicit _ now = c₁ at hf
  have hsame : SameUpload c c₁ := by
    subst hc
    exact ⟨rfl, rfl, rfl, rfl⟩
  rw [← hsame.emits_iff]
  split at hf
  · rw [mem_singleton] at hf
    subst hf
    exact ⟨_, _, rfl⟩
  cases hr : c₁.retx with
  | none =>
    simp only [hr, nil_append] at hf
    exact emits_probeInline hf
  | some ring =>
    simp only [hr] at hf
    rcases mem_append.mp hf with h | h
    · exact emits_recoverRing h
    · exact (sameUpload_recoverRing c₁ ctx now ring sent acked).emits_iff.mp
        (emits_probeInline h)

theorem emits_readHost {cap : Nat} (hf : f ∈ (c.readHost ctx now read cap).frames) :
    c.Emits ctx.macs f := by
  cases read with
  | ok data =>
    simp only [readHost] at hf
    split at hf
    · rw [sendFin, mem_singleton] at hf
      subst hf
      exact ⟨_, _, rfl⟩
    · exact emits_emitDataFrames hf
  | wouldBlock => cases hf
  | failed =>
    rw [readHost, mem_singleton] at hf
    subst hf
    exact ⟨_, _, rfl⟩

variable {bufCap : Nat}

theorem emits_pollRead (hf : f ∈ (c.pollRead ctx now bufCap read).frames) : c.Emits ctx.macs f := by
  have hcap := sameUpload_readCap c now bufCap
  simp only [pollRead] at hf
  split at hf
  · cases hf
  split at hf
  · cases hf
  next c' cap heq =>
    rw [heq] at hcap
    exact hcap.emits_iff.mp (emits_readHost hf)

theorem emits_recoverPolled (hf : f ∈ (c.recoverPolled ctx now).2) : c.Emits ctx.macs f := by
  simp only [recoverPolled] at hf
  repeat' split at hf
  · exact emits_resendBuffered hf
  all_goals cases hf

theorem emits_pollStream (hf : f ∈ (c.pollStream ctx now timeout bufCap read).frames) :
    c.Emits ctx.macs f := by
  simp only [pollStream] at hf
  generalize hc : (c.drainRetransmit now).solicit _ now = c₁ at hf
  have hsame : SameUpload c c₁ := by
    subst hc
    exact (sameUpload_drainRetransmit c now).trans ⟨rfl, rfl, rfl, rfl⟩
  rw [← hsame.emits_iff]
  repeat' split at hf
  · cases hf
  · rw [mem_singleton] at hf
    subst hf
    exact ⟨_, _, rfl⟩
  · rcases mem_append.mp hf with h | h
    · exact emits_recoverPolled h
    · exact (sameUpload_recoverPolled c₁ ctx now).emits_iff.mp (emits_pollRead h)

/-! ## Whole calls -/

theorem poll_spec (c : FastPathConn) (ctx : FrameCtx) (now timeout : Instant) (bufCap : Nat)
    (env : PollEnv) :
    ∃ c₁, (c₁ = c ∨ c₁ = (c.drainParkedSegments env.writes).1)
      ∧ SameUpload c₁ (c.poll ctx now timeout bufCap env).conn
      ∧ ∀ f ∈ (c.poll ctx now timeout bufCap env).frames, c₁.Emits ctx.macs f := by
  have hreset : ∀ c' : FastPathConn, ∀ f ∈ [c'.resetFrame ctx.macs], c'.Emits ctx.macs f :=
    fun _ => forall_mem_singleton.mpr ⟨_, _, rfl⟩
  simp only [poll]
  split
  · exact ⟨c, .inl rfl, SameUpload.refl c, hreset c⟩
  split
  · exact ⟨c, .inl rfl, SameUpload.refl c, by simp⟩
  have hupload : ((c.pollUpload ctx.macs env.writes).1 = c
        ∨ (c.pollUpload ctx.macs env.writes).1 = (c.drainParkedSegments env.writes).1)
      ∧ ∀ acks ∈ (c.pollUpload ctx.macs env.writes).2, ∀ f ∈ acks,
          (c.pollUpload ctx.macs env.writes).1.Emits ctx.macs f := by
    simp only [pollUpload]
    split
    · simp
    cases c.drainParkedSegments env.writes with
    | mk c' ok =>
      cases ok with
      | false => simp
      | true =>
        refine ⟨.inr rfl, ?_⟩
        simp only [Option.mem_def, Option.some.injEq]
        rintro acks rfl f hf
        split at hf
        · cases hf
        · rw [mem_singleton] at hf
          subst hf
          exact ⟨_, _, rfl⟩
  revert hupload
  cases hpu : c.pollUpload ctx.macs env.writes with
  | mk c₁ acks? =>
    rintro ⟨hc₁, hacks⟩
    cases acks? with
    | none => exact ⟨c₁, hc₁, SameUpload.refl c₁, hreset c₁⟩
    | some acks =>
      refine ⟨c₁, hc₁, ?_, ?_⟩
      · dsimp only
        split
        · exact sameUpload_pollInline _ _ _ _ _ _ _
        · exact sameUpload_pollStream _ _ _ _ _ _
      intro f hf
      rcases mem_append.mp hf with h | h
      · exact hacks acks rfl f h
      · split at h
        · exact emits_pollInline h
        · exact emits_pollStream h

theorem key_poll (c : FastPathConn) (ctx : FrameCtx) (now timeout : Instant) (bufCap : Nat)
    (env : PollEnv) : (c.poll ctx now timeout bufCap env).conn.key = c.key := by
  obtain ⟨c₁, hc₁, hsame, -⟩ := poll_spec c ctx now timeout bufCap env
  rw [hsame.key]
  rcases hc₁ with rfl | rfl
  · rfl
  · exact (uploads_drainParkedSegments _ _).only.key_eq

theorem flow_poll {env : PollEnv} (hf : f ∈ (c.poll ctx now timeout bufCap env).frames) :
    f.flow = c.key := by
  obtain ⟨c₁, hc₁, -, hemits⟩ := poll_spec c ctx now timeout bufCap env
  rw [(hemits f hf).flow_eq]
  rcases hc₁ with rfl | rfl
  · rfl
  · exact (uploads_drainParkedSegments _ _).only.key_eq

theorem onlyUpload_takePayload (c : FastPathConn) (env : InterceptEnv) (t : TcpView)
    (following : List (Option TcpView)) :
    ∃ n, OnlyUpload { c with upOutOfOrder := n } (c.takePayload env t following).1 := by
  simp only [takePayload]
  repeat' split
  · exact ⟨c.upOutOfOrder, rfl⟩
  · exact ⟨c.upOutOfOrder, rfl⟩
  · exact ⟨c.upOutOfOrder + 1, onlyUpload_bufferUploadSegment _ _ _⟩
  · exact ⟨c.upOutOfOrder, (uploads_send _ _ _).only⟩

theorem replyTo_spec (c : FastPathConn) (macs : LinkMacs) (now : Instant) (t : TcpView)
    (consumed : Nat) :
    (c.replyTo macs now t consumed).conn.key = c.key ∧
      ∀ f ∈ (c.replyTo macs now t consumed).reply,
        (c.replyTo macs now t consumed).conn.Emits macs f := by
  simp only [replyTo]
  repeat' split
  all_goals refine ⟨rfl, ?_⟩
  all_goals simp only [Option.mem_def, Option.some.injEq, reduceCtorEq, false_implies, implies_true]
  all_goals rintro f rfl
  all_goals exact ⟨_, _, rfl⟩

/-- An intercepted segment leaves the flow its addresses, and the reply is built
from the flow as it is left. -/
theorem intercept_spec (c : FastPathConn) (macs : LinkMacs) (env : InterceptEnv) (t : TcpView)
    (following : List (Option TcpView)) :
    (c.intercept macs env t following).conn.key = c.key ∧
      ∀ f ∈ (c.intercept macs env t following).reply,
        (c.intercept macs env t following).conn.Emits macs f := by
  have hreset : ∀ c' : FastPathConn, ∀ f ∈ some (c'.resetFrame macs), c'.Emits macs f := by
    intro c' f hf
    rw [Option.mem_def, Option.some.injEq] at hf
    subst hf
    exact ⟨_, _, rfl⟩
  simp only [intercept]
  generalize hc₀ : ({ c with lastGuestActivity := env.now } : FastPathConn) = c₀
  have hkey₀ : c₀.key = c.key := by
    subst hc₀
    rfl
  split
  · exact ⟨hkey₀, by simp⟩
  split
  · exact ⟨hkey₀, hreset c₀⟩
  have hkey₁ : ((c₀.handleAck t).takePayload env t following).1.key = c.key := by
    obtain ⟨n, honly⟩ := onlyUpload_takePayload (c₀.handleAck t) env t following
    exact honly.key_eq.trans ((sameUpload_handleAck c₀ t).key.trans hkey₀)
  revert hkey₁
  rcases (c₀.handleAck t).takePayload env t following with ⟨c₁, consumed, wrote⟩
  intro hkey₁
  cases wrote with
  | none => exact ⟨hkey₁, hreset c₁⟩
  | some advanced =>
    dsimp only
    split
    · have hkey₂ := (uploads_drainParkedSegments env.writes.tail c₁).only.key_eq
      revert hkey₂
      rcases c₁.drainParkedSegments env.writes.tail with ⟨c₂, ok⟩
      intro hkey₂
      cases ok with
      | false => exact ⟨hkey₂.trans hkey₁, hreset c₂⟩
      | true =>
        obtain ⟨hkey, hreply⟩ := replyTo_spec c₂ macs env.now t consumed
        exact ⟨hkey.trans (hkey₂.trans hkey₁), hreply⟩
    · obtain ⟨hkey, hreply⟩ := replyTo_spec c₁ macs env.now t consumed
      exact ⟨hkey.trans hkey₁, hreply⟩

end FastPathConn

end Arcbox.Bridge

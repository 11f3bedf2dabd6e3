import Arcbox.Bridge.FastPath

set_option autoImplicit false

/-!
# The retransmission ring of an inline flow

An inline flow is read by its owner, the `read_promoted_conn` task
(`direct_rx.rs`) or the injection thread (`inject.rs`), while the bridge
acknowledges and retransmits.  The two share the flow's cells: the cursors
`our_seq`, `guest_acked` and `guest_window`, the `dead` flag and the ring.  Here
each access to a cell is a step of its own, and the steps of the owner, of the
bridge and of the guest come in any order.
-/

namespace Arcbox.Bridge

open Foundation Foundation.Serial List

/-! ## The parties -/

/-- Where the owner is.  The two owners differ only in how they cut what they
read: the task into segments of `guest_mss`, the injection thread not at all. -/
inductive OwnerPhase where
  /-- At the top of its loop. -/
  | idle
  /-- `guest_acked` is loaded. -/
  | ackedLoaded (acked : BitVec 32)
  | reading (budget : Nat)
  /-- These bytes of the read are still to be sent. -/
  | sending (rest : Bytes)
  /-- A frame is built at `seq`. -/
  | built (seq : BitVec 32) (chunk rest : Bytes)
  /-- `our_seq` is advanced over the frame. -/
  | counted (seq : BitVec 32) (chunk rest : Bytes)
  | teed (seq : BitVec 32) (chunk rest : Bytes)
  | finBuilt (seq : BitVec 32)
  /-- The ring holds the FIN's position. -/
  | finRecorded (seq : BitVec 32)
  /-- `our_seq` is advanced over the FIN. -/
  | finCounted (seq : BitVec 32)
  /-- It has returned, with these bytes unsent; `fin` says whether after a FIN. -/
  | stopped (rest : Bytes) (fin : Bool)

namespace OwnerPhase

/-- Bytes counted in `our_seq` that the ring does not hold yet. -/
@[simp] def unteed : OwnerPhase → Bytes
  | .counted _ chunk _ => chunk
  | _ => []

/-- Bytes read and not counted in `our_seq` yet. -/
@[simp] def unsent : OwnerPhase → Bytes
  | .sending rest | .counted _ _ rest | .teed _ _ rest | .stopped rest _ => rest
  | .built _ chunk rest => chunk ++ rest
  | _ => []

/-- The ring holds the FIN's position. -/
@[simp] def isFinRecorded : OwnerPhase → Bool
  | .finRecorded _ | .finCounted _ => true
  | .stopped _ fin => fin
  | _ => false

/-- `our_seq` counts the FIN. -/
@[simp] def isFinCounted : OwnerPhase → Bool
  | .finCounted _ => true
  | .stopped _ fin => fin
  | _ => false

/-- What the shared cells depend on. -/
def view (phase : OwnerPhase) : Bytes × Bytes × Bool × Bool :=
  (phase.unteed, phase.unsent, phase.isFinRecorded, phase.isFinCounted)

end OwnerPhase

/-- Where the bridge is. -/
inductive BridgePhase where
  | idle
  /-- Taking a segment's acknowledgement: `our_seq` is loaded. -/
  | ackLoaded (t : TcpView) (sent : BitVec 32)
  /-- `guest_acked` is stored, the window is not. -/
  | ackStored (window : BitVec 32)
  /-- Polling: `our_seq` is loaded. -/
  | sentLoaded (sent : BitVec 32)
  | ackedLoaded (sent acked : BitVec 32)
  | windowLoaded (sent acked : BitVec 32) (window : Nat)
  /-- The flow is out of the table. -/
  | closed

/-- An inline flow and the parties at work on it.  `read` is what the owner has
read of the host stream, and no byte or FIN at or past `offered` has been handed
to the guest. -/
structure InlineFlow where
  conn : FastPathConn
  owner : OwnerPhase
  bridge : BridgePhase
  read : Bytes
  offered : Nat

namespace InlineFlow

/-- The flow as it is promoted. -/
def promoted (key : SynFlowKey) (init : FastPathInit) (observed : Bool) (now : Instant) :
    InlineFlow := ⟨.promoted key init true observed now, .idle, .idle, [], 0⟩

variable (s : InlineFlow)

/-- How many bytes of the host stream the ring has been given. -/
def teedLength : Nat := s.read.length - s.owner.unsent.length - s.owner.unteed.length

/-- The position `our_seq` stands at. -/
def sentPos : Nat := s.read.length - s.owner.unsent.length + s.owner.isFinCounted.toNat

/-- Enter the owner's next phase. -/
def ownerAt (owner : OwnerPhase) : InlineFlow := { s with owner := owner }

/-- Enter the bridge's next phase. -/
def bridgeAt (bridge : BridgePhase) : InlineFlow := { s with bridge := bridge }

/-- What the bridge hands to the guest reaches at most this far. -/
def reach (frames : List TcpFrame) : Nat :=
  if frames.any TcpFrame.isFin then s.read.length + 1
  else if frames = [] then 0 else s.teedLength

end InlineFlow

/-- A frame of the owner. -/
structure OwnerFrame where
  seq : BitVec 32
  payload : Bytes
  fin : Bool

/-- Append to the ring. -/
def RetxRing.extend (ring : RetxRing) (chunk : Bytes) : RetxRing :=
  { ring with buf := ring.buf ++ chunk }

/-- Record the FIN. -/
def RetxRing.recordFin (ring : RetxRing) (seq : BitVec 32) : RetxRing :=
  { ring with finSeq := some seq }

variable (c : FastPathConn)

/-- `our_seq.fetch_add`. -/
def FastPathConn.advanceSeq (n : Nat) : FastPathConn :=
  { c with ourSeq := c.ourSeq + BitVec.ofNat 32 n }

/-- Write the ring under its lock. -/
def FastPathConn.setRetx (f : RetxRing → RetxRing) : FastPathConn := { c with retx := c.retx.map f }

/-- `dead.store(true)`. -/
def FastPathConn.setDead : FastPathConn := { c with dead := some true }

/-- A step of the owner, whose frames carry at most `mss` bytes.  The label is the
frame it hands to the guest. -/
inductive OwnerStep (mss : Nat) : InlineFlow → Option OwnerFrame → InlineFlow → Prop where
  | returnDead {s : InlineFlow} : s.owner = .idle → s.conn.dead = some true →
      OwnerStep mss s none (s.ownerAt (.stopped [] false))
  | loadAcked {s : InlineFlow} : s.owner = .idle →
      OwnerStep mss s none (s.ownerAt (.ackedLoaded s.conn.guestAcked))
  | loadWindow {s : InlineFlow} {acked : BitVec 32} : s.owner = .ackedLoaded acked →
      OwnerStep mss s none
        (let budget := sendBudget s.conn.ourSeq acked s.conn.honoredWindow
         s.ownerAt (if budget = 0 then .idle else .reading budget))
  | wouldBlock {s : InlineFlow} {budget : Nat} : s.owner = .reading budget →
      OwnerStep mss s none (s.ownerAt .idle)
  | read {s : InlineFlow} {budget : Nat} {data : Bytes} : s.owner = .reading budget →
      data.length ≤ budget →
      OwnerStep mss s none { s with owner := .sending data, read := s.read ++ data }
  -- A read error: the RST carries no byte of the stream.
  | readError {s : InlineFlow} {budget : Nat} : s.owner = .reading budget →
      OwnerStep mss s none { s with owner := .stopped [] false, conn := s.conn.setDead }
  | sent {s : InlineFlow} : s.owner = .sending [] → OwnerStep mss s none (s.ownerAt .idle)
  | build {s : InlineFlow} {rest : Bytes} : s.owner = .sending rest → rest ≠ [] →
      OwnerStep mss s none
        (s.ownerAt (.built s.conn.ourSeq (rest.take mss) (rest.drop mss)))
  | count {s : InlineFlow} {seq : BitVec 32} {chunk rest : Bytes} :
      s.owner = .built seq chunk rest →
      OwnerStep mss s none
        { s with owner := .counted seq chunk rest, conn := s.conn.advanceSeq chunk.length }
  | tee {s : InlineFlow} {seq : BitVec 32} {chunk rest : Bytes} :
      s.owner = .counted seq chunk rest →
      OwnerStep mss s none
        { s with owner := .teed seq chunk rest, conn := s.conn.setRetx (·.extend chunk) }
  | publish {s : InlineFlow} {seq : BitVec 32} {chunk rest : Bytes} :
      s.owner = .teed seq chunk rest →
      OwnerStep mss s (some ⟨seq, chunk, false⟩)
        { s with owner := .sending rest, offered := max s.offered s.teedLength }
  -- The channel to the guest is gone.
  | sinkGone {s : InlineFlow} {seq : BitVec 32} {chunk rest : Bytes} :
      s.owner = .teed seq chunk rest →
      OwnerStep mss s none (s.ownerAt (.stopped rest false))
  | readEof {s : InlineFlow} {budget : Nat} : s.owner = .reading budget →
      OwnerStep mss s none (s.ownerAt (.finBuilt s.conn.ourSeq))
  | recordFin {s : InlineFlow} {seq : BitVec 32} : s.owner = .finBuilt seq →
      OwnerStep mss s none
        { s with owner := .finRecorded seq, conn := s.conn.setRetx (·.recordFin seq) }
  | countFin {s : InlineFlow} {seq : BitVec 32} : s.owner = .finRecorded seq →
      OwnerStep mss s none
        { s with owner := .finCounted seq, conn := s.conn.advanceSeq 1 }
  | publishFin {s : InlineFlow} {seq : BitVec 32} : s.owner = .finCounted seq →
      OwnerStep mss s (some ⟨seq, [], true⟩)
        { s with owner := .stopped [] true, offered := s.read.length + 1 }

/-- Work of the bridge that leaves the shared cells alone: taking payload,
draining parked segments, replying. -/
structure SameCells (c c' : FastPathConn) : Prop where
  ourSeq : c'.ourSeq = c.ourSeq
  guestAcked : c'.guestAcked = c.guestAcked
  guestWindow : c'.guestWindow = c.guestWindow
  dead : c'.dead = c.dead
  retx : c'.retx = c.retx

/-- A guest acknowledges what it has been handed, and no segment arrives half a
wrap late.  Position `0` has the number `isn`. -/
def AcksOffered (isn : BitVec 32) (offered : Nat) (t : TcpView) : Prop :=
  ∃ k, t.ack = seqAt isn k ∧ k ≤ offered ∧ offered < k + half

inductive BridgeStep (isn : BitVec 32) : InlineFlow → List TcpFrame → InlineFlow → Prop where
  | other {s : InlineFlow} {c : FastPathConn} : s.bridge = .idle → SameCells s.conn c →
      BridgeStep isn s [] { s with conn := c }
  | loadSent {s : InlineFlow} {t : TcpView} : s.bridge = .idle → t.isAck = true →
      AcksOffered isn s.offered t →
      BridgeStep isn s [] (s.bridgeAt (.ackLoaded t s.conn.ourSeq))
  | dropAck {s : InlineFlow} {t : TcpView} {sent : BitVec 32} : s.bridge = .ackLoaded t sent →
      ¬ s.conn.acceptsAck sent t.ack → BridgeStep isn s [] (s.bridgeAt .idle)
  | storeAcked {s : InlineFlow} {t : TcpView} {sent : BitVec 32} :
      s.bridge = .ackLoaded t sent → s.conn.acceptsAck sent t.ack →
      BridgeStep isn s []
        { s with
          conn := s.conn.storeAcked sent t, bridge := .ackStored (s.conn.scaledWindow t) }
  | storeWindow {s : InlineFlow} {window : BitVec 32} : s.bridge = .ackStored window →
      BridgeStep isn s [] { s with conn := s.conn.storeWindow window, bridge := .idle }
  | loadPollSent {s : InlineFlow} : s.bridge = .idle →
      BridgeStep isn s [] (s.bridgeAt (.sentLoaded s.conn.ourSeq))
  | loadPollAcked {s : InlineFlow} {sent : BitVec 32} : s.bridge = .sentLoaded sent →
      BridgeStep isn s [] (s.bridgeAt (.ackedLoaded sent s.conn.guestAcked))
  | loadPollWindow {s : InlineFlow} {sent acked : BitVec 32} :
      s.bridge = .ackedLoaded sent acked →
      BridgeStep isn s [] (s.bridgeAt (.windowLoaded sent acked s.conn.honoredWindow))
  -- The rest of the poll holds the ring's lock while it touches a shared cell.
  | poll {s : InlineFlow} {sent acked : BitVec 32} {window : Nat} {ctx : FrameCtx}
      {now timeout : Instant} : s.bridge = .windowLoaded sent acked window →
      BridgeStep isn s (s.conn.pollInline ctx now timeout sent acked window).frames
        (let polled := s.conn.pollInline ctx now timeout sent acked window
         { s with
           conn := polled.conn
           bridge := if polled.remove then .closed else .idle
           offered := max s.offered (s.reach polled.frames) })
  | close {s : InlineFlow} : s.bridge = .idle →
      BridgeStep isn s [] { s with conn := s.conn.setDead, bridge := .closed }

inductive InlineReachable (mss : Nat) (key : SynFlowKey) (init : FastPathInit) (observed : Bool)
    (now : Instant) : InlineFlow → Prop where
  | promoted : InlineReachable mss key init observed now (.promoted key init observed now)
  | owner {s s' : InlineFlow} {out : Option OwnerFrame} :
      InlineReachable mss key init observed now s → OwnerStep mss s out s' →
      InlineReachable mss key init observed now s'
  | bridge {s s' : InlineFlow} {frames : List TcpFrame} :
      InlineReachable mss key init observed now s → BridgeStep init.ourSeq s frames s' →
      InlineReachable mss key init observed now s'

/-! ## The shared cells -/

/-- The cells when the ring has been given `teed`, `our_seq` stands at position
`counted`, the guest has acknowledged `acked` and the ring starts at `base`. -/
structure CellsOk (isn : BitVec 32) (c : FastPathConn) (teed : Bytes) (counted base acked : Nat)
    (finRecorded : Bool) : Prop where
  ourSeq : c.ourSeq = seqAt isn counted
  guestAcked : c.guestAcked = seqAt isn acked
  retx : c.retx = some ⟨seqAt isn base, teed.drop base,
    if finRecorded then some (seqAt isn teed.length) else none⟩
  base_le : base ≤ acked
  acked_le : acked ≤ counted

variable {isn : BitVec 32} {c c' : FastPathConn} {teed : Bytes} {counted base acked : Nat}
  {fin : Bool}

theorem CellsOk.congr (h : CellsOk isn c teed counted base acked fin)
    (hseq : c'.ourSeq = c.ourSeq) (hack : c'.guestAcked = c.guestAcked)
    (hretx : c'.retx = c.retx) : CellsOk isn c' teed counted base acked fin :=
  ⟨hseq.trans h.ourSeq, hack.trans h.guestAcked, hretx.trans h.retx, h.base_le, h.acked_le⟩

theorem CellsOk.advanceSeq (h : CellsOk isn c teed counted base acked fin) (n : Nat) :
    CellsOk isn (c.advanceSeq n) teed (counted + n) base acked fin :=
  ⟨by rw [← seqAt_add, ← h.ourSeq]; rfl, h.guestAcked, h.retx, h.base_le,
    Nat.le_trans h.acked_le (Nat.le_add_right _ _)⟩

/-- What is appended to the ring follows what the ring was given. -/
theorem CellsOk.extend (h : CellsOk isn c teed counted base acked false)
    (hacked : acked ≤ teed.length) (chunk : Bytes) :
    CellsOk isn (c.setRetx (·.extend chunk)) (teed ++ chunk) counted base acked false := by
  refine ⟨h.ourSeq, h.guestAcked, ?_, h.base_le, h.acked_le⟩
  rw [drop_append_of_le_length (Nat.le_trans h.base_le hacked)]
  simp only [FastPathConn.setRetx, h.retx, Option.map_some]
  rfl

theorem CellsOk.recordFin (h : CellsOk isn c teed counted base acked false) :
    CellsOk isn (c.setRetx (·.recordFin (seqAt isn teed.length))) teed counted base acked true := by
  refine ⟨h.ourSeq, h.guestAcked, ?_, h.base_le, h.acked_le⟩
  simp only [FastPathConn.setRetx, h.retx, Option.map_some]
  rfl

variable {j : Nat}
variable {sent : BitVec 32} {phase : BridgePhase} {offered : Nat}

/-- An acknowledgement of something handed out that the bridge takes moves the
acknowledged position forward, up to what was sent. -/
theorem le_of_acceptsAck {k : Nat} {ack : BitVec 32} (hacked : c.guestAcked = seqAt isn acked)
    (hack : ack = seqAt isn k) (hsent : sent = seqAt isn j) (hle : acked ≤ j) (hkj : k ≤ j + 1)
    (hold : j < k + 2 ^ 32) (haccept : c.acceptsAck sent ack) : acked ≤ k ∧ k ≤ j := by
  obtain ⟨hadvance, hbeyond⟩ := haccept
  rw [hack, hacked] at hadvance
  rw [hack, hsent] at hbeyond
  simp only [half] at hadvance hbeyond
  constructor
  · rcases Nat.lt_or_ge k acked with hlt | hge
    · rw [toNat_sub_of_lt isn hlt (by omega)] at hadvance
      rw [toNat_sub_of_lt isn (by omega : k < j) (by omega)] at hbeyond
      omega
    · exact hge
  rcases Nat.lt_or_ge j k with hlt | hge
  · rw [toNat_sub_of_le isn (Nat.le_of_lt hlt) (by omega)] at hbeyond
    omega
  · exact hge

theorem CellsOk.storeAcked {k : Nat} {t : TcpView} (h : CellsOk isn c teed counted base acked fin)
    (hack : t.ack = seqAt isn k) (hacked : acked ≤ k) (hk : k ≤ counted) :
    CellsOk isn (c.storeAcked sent t) teed counted base k fin := by
  have hframe : (c.countDupAck sent t (c.scaledWindow t)).ourSeq = c.ourSeq
      ∧ (c.countDupAck sent t (c.scaledWindow t)).retx = c.retx := by
    simp only [FastPathConn.countDupAck]
    repeat' split
    all_goals exact ⟨rfl, rfl⟩
  exact ⟨hframe.1.trans h.ourSeq, hack, hframe.2.trans h.retx, Nat.le_trans h.base_le hacked, hk⟩

/-! ## The poll step -/

/-- A frame the bridge hands out while the cells are as in `CellsOk`.  Its data is
that of the stream at its sequence number and was given to the ring, except for
the zero-window probe, whose one byte stands right before the position the guest
has acknowledged; its FIN is the one in the ring. -/
structure ResentFrame (isn : BitVec 32) (c : FastPathConn) (teed : Bytes) (base acked : Nat)
    (probing : Prop) (f : TcpFrame) : Prop where
  data : f.payload ≠ [] →
    (∃ k, f.params.seq = seqAt isn k ∧ k + f.payload.length ≤ teed.length
      ∧ f.payload = (teed.drop k).take f.payload.length ∧ (acked < base + 2 ^ 32 → acked ≤ k))
    ∨ (probing ∧ f.payload = [0] ∧ f.params.seq + 1 = c.guestAcked)
  fin : f.isFin = true → ∃ ring, c.retx = some ring ∧ ring.finSeq = some f.params.seq

variable {f : TcpFrame} {probing : Prop}

theorem resentFrame_control (hpay : f.payload = []) (hfin : f.isFin = false) :
    ResentFrame isn c teed base acked probing f :=
  ⟨absurd hpay, fun ht => by rw [hfin] at ht; exact absurd ht (by decide)⟩

section

variable (h : CellsOk isn c teed counted base acked fin)

include h

variable {ring : RetxRing}

/-- Draining the ring moves its start towards the acknowledged position, by the
distance modulo a wrap. -/
theorem CellsOk.drainRing (hring : c.retx = some ring) (now : Instant) :
    ∃ base', CellsOk isn (c.drainRing ring c.guestAcked now) teed counted base' acked fin
      ∧ base ≤ base' := by
  have heq : ring = ⟨seqAt isn base, teed.drop base,
      if fin then some (seqAt isn teed.length) else none⟩ :=
    Option.some.inj (hring.symm.trans h.retx)
  simp only [FastPathConn.drainRing]
  split
  · have hd : (c.guestAcked - ring.base).toNat = (acked - base) % 2 ^ 32 := by
      rw [h.guestAcked, heq]
      exact toNat_sub_mod isn h.base_le
    rw [hd]
    have hmod : (acked - base) % 2 ^ 32 ≤ acked - base := Nat.mod_le _ _
    have hbase := h.base_le
    refine ⟨base + (acked - base) % 2 ^ 32, ⟨h.ourSeq, h.guestAcked, ?_, by omega, h.acked_le⟩,
      Nat.le_add_right _ _⟩
    have hnum : c.guestAcked = seqAt isn (base + (acked - base) % 2 ^ 32) := by
      rw [← seqAt_add, ← hd, heq, BitVec.ofNat_toNat, BitVec.setWidth_eq, BitVec.add_comm,
        BitVec.sub_add_cancel]
    simp only [FastPathConn.noteProgress]
    rw [hnum, heq, drop_drop]
  · exact ⟨base, h, .refl⟩

theorem CellsOk.resendRing (hring : c.retx = some ring) {ctx : FrameCtx}
    (hf : f ∈ c.resendRing ctx ring sent c.guestAcked) : ResentFrame isn c teed base acked probing f := by
  have heq : ring = ⟨seqAt isn base, teed.drop base,
      if fin then some (seqAt isn teed.length) else none⟩ :=
    Option.some.inj (hring.symm.trans h.retx)
  have hoffset : (c.guestAcked - ring.base).toNat = (acked - base) % 2 ^ 32 := by
    rw [h.guestAcked, heq]
    exact toNat_sub_mod isn h.base_le
  simp only [FastPathConn.resendRing, mem_append] at hf
  rcases hf with hdata | hfin
  · split at hdata
    · obtain ⟨off, n, hoff, hparams, hpay, hnfin, -⟩ := mem_emitDataFrames hdata
      refine ⟨fun _ => .inl ⟨base + ((acked - base) % 2 ^ 32 + off), ?_, ?_, ?_, ?_⟩, ?_⟩
      · rw [hparams]
        simp only [FastPathConn.frameParams]
        rw [← Nat.add_assoc, ← seqAt_add, ← seqAt_add, ← hoffset, heq, BitVec.ofNat_toNat, BitVec.setWidth_eq,
          BitVec.add_comm (seqAt isn base), BitVec.sub_add_cancel]
      · rw [hpay, hoffset, heq]
        rw [hoffset, heq] at hoff
        simp only [length_take, length_drop] at hoff ⊢
        omega
      · rw [hpay, hoffset, heq, drop_take, drop_drop, drop_drop, take_take]
        exact take_length_take _ _
      · intro hlt
        have hbase := h.base_le
        rw [Nat.mod_eq_of_lt (by omega)]
        omega
      · rw [hnfin]
        exact fun h => by cases h
    · cases hdata
  · simp only [FastPathConn.resendFin] at hfin
    split at hfin
    · cases hfin
    rename_i finSeq hsome
    split at hfin
    · rw [mem_singleton] at hfin
      subst hfin
      exact ⟨absurd rfl, fun _ => ⟨ring, hring, hsome⟩⟩
    · cases hfin

/-- Frames of a flow whose ring was drained are frames of the flow. -/
theorem ResentFrame.of_drained {base' : Nat} (h' : CellsOk isn c' teed counted base' acked fin)
    (hle : base ≤ base') (hf : ResentFrame isn c' teed base' acked probing f) :
    ResentFrame isn c teed base acked probing f := by
  refine ⟨fun hne => ?_, fun hfin => ?_⟩
  · rcases hf.data hne with ⟨k, hseq, hlen, hpay, hk⟩ | ⟨hprobing, hpay, hseq⟩
    · exact .inl ⟨k, hseq, hlen, hpay, fun hlt => hk (by omega)⟩
    · exact .inr ⟨hprobing, hpay, by rw [hseq, h.guestAcked, h'.guestAcked]⟩
  · obtain ⟨ring, hring, hseq⟩ := hf.fin hfin
    have heq := Option.some.inj (hring.symm.trans h'.retx)
    exact ⟨_, h.retx, by rw [heq] at hseq; exact hseq⟩

/-- Loss recovery with the ring locked. -/
theorem CellsOk.recoverRing (hring : c.retx = some ring) (ctx : FrameCtx) (now : Instant)
    (sent : BitVec 32) :
    (∃ base', CellsOk isn (c.recoverRing ctx now ring sent c.guestAcked).1 teed counted base' acked
        fin ∧ base ≤ base')
      ∧ ∀ f ∈ (c.recoverRing ctx now ring sent c.guestAcked).2,
        ResentFrame isn c teed base acked probing f := by
  obtain ⟨base', hdrained, hle⟩ := h.drainRing hring now
  have hack : (c.drainRing ring c.guestAcked now).guestAcked = c.guestAcked :=
    hdrained.guestAcked.trans h.guestAcked.symm
  simp only [FastPathConn.recoverRing]
  generalize c.drainRing ring c.guestAcked now = d at hdrained hack
  split
  · split
    · refine ⟨⟨base', hdrained.congr rfl rfl rfl, hle⟩, fun f hf => ?_⟩
      rw [hdrained.retx, Option.getD_some, ← hack] at hf
      exact (hdrained.resendRing hdrained.retx hf).of_drained h hdrained hle
    · exact ⟨⟨base', hdrained, hle⟩, forall_mem_nil _⟩
  · exact ⟨⟨base', hdrained.congr rfl rfl rfl, hle⟩, forall_mem_nil _⟩

theorem CellsOk.probeInline (macs : LinkMacs) (now : Instant) (window : Nat)
    (hsent : sent = seqAt isn j) (hle : acked ≤ j) (hfly : j < acked + half) :
    CellsOk isn (c.probeInline macs now sent c.guestAcked window).1 teed counted base acked fin
      ∧ ∀ f ∈ (c.probeInline macs now sent c.guestAcked window).2,
        ResentFrame isn c teed base acked (sent = seqAt isn acked ∧ window = 0) f := by
  simp only [FastPathConn.probeInline]
  split
  next hidle =>
    have hzero : sent = c.guestAcked := by
      have hnone := hidle.2
      simp only [inFlight, decide_eq_false_iff_not] at hnone
      rw [hsent, h.guestAcked, toNat_sub_of_le isn hle (by simp only [half] at hfly; omega)]
        at hnone
      have hj : j = acked := by omega
      rw [hsent, h.guestAcked, hj]
    split
    · exact ⟨h.congr rfl rfl rfl, forall_mem_nil _⟩
    split
    · refine ⟨h.congr rfl rfl rfl, fun f hf => ?_⟩
      rw [mem_singleton] at hf
      subst hf
      refine ⟨fun _ => Or.inr ⟨⟨hzero.trans h.guestAcked, ?_⟩, rfl, ?_⟩, fun h => by cases h⟩
      · have hbudget := hidle.1
        rw [hzero, sendBudget, BitVec.sub_self] at hbudget
        simpa using hbudget
      · show sent - 1 + 1 = c.guestAcked
        rw [BitVec.sub_add_cancel, hzero]
    · exact ⟨h, forall_mem_nil _⟩
  · exact ⟨h.congr rfl rfl rfl, forall_mem_nil _⟩

/-- The rest of a poll, `our_seq` having been loaded at position `j`. -/
theorem CellsOk.pollInline (ctx : FrameCtx) (now timeout : Instant) (window : Nat)
    (hsent : sent = seqAt isn j) (hle : acked ≤ j) (hfly : j < acked + half) :
    (∃ base', CellsOk isn (c.pollInline ctx now timeout sent c.guestAcked window).conn teed counted
        base' acked fin)
      ∧ ∀ f ∈ (c.pollInline ctx now timeout sent c.guestAcked window).frames,
        ResentFrame isn c teed base acked (sent = seqAt isn acked ∧ window = 0) f := by
  generalize hs : c.solicit (inFlight sent c.guestAcked || c.windowStalledAt.isSome) now = s
  have hsolicit : CellsOk isn s teed counted base acked fin := by
    rw [← hs]
    exact h.congr rfl rfl rfl
  have hback : ∀ f, ResentFrame isn s teed base acked (sent = seqAt isn acked ∧ window = 0) f →
      ResentFrame isn c teed base acked (sent = seqAt isn acked ∧ window = 0) f :=
    fun f hf => hf.of_drained h hsolicit .refl
  have hack : c.guestAcked = s.guestAcked := h.guestAcked.trans hsolicit.guestAcked.symm
  simp only [FastPathConn.pollInline, hs]
  split
  · refine ⟨⟨base, hsolicit⟩, fun f hf => ?_⟩
    rw [mem_singleton] at hf
    subst hf
    exact resentFrame_control rfl rfl
  rw [hack]
  simp only [hsolicit.retx]
  obtain ⟨⟨base', hrec, hbase⟩, hframes⟩ := hsolicit.recoverRing hsolicit.retx ctx now sent
  generalize s.recoverRing ctx now _ sent s.guestAcked = recovered at hrec hframes
  have hrack : s.guestAcked = recovered.1.guestAcked :=
    hsolicit.guestAcked.trans hrec.guestAcked.symm
  rw [hrack]
  obtain ⟨hprobe, hprobes⟩ := hrec.probeInline ctx.macs now window hsent hle hfly
  exact ⟨⟨base', hprobe⟩, fun f hf => hback f (forall_mem_append.mpr
    ⟨hframes, fun f hf => (hprobes f hf).of_drained hsolicit hrec hbase⟩ f hf)⟩

end

/-! ## The invariant -/

/-- What the owner's phase says, the guest having acknowledged `acked`, the ring
having been given `teed` and `length` bytes having been read. -/
def OwnerOk (isn : BitVec 32) (acked length : Nat) (teed : Bytes) : OwnerPhase → Prop
  | .ackedLoaded a => ∃ j, a = seqAt isn j ∧ j ≤ acked ∧ length ≤ j + honoredWindowCap
  | .reading budget => 0 < budget ∧ length + budget ≤ acked + honoredWindowCap
  | .built seq _ _ | .counted seq _ _ => seq = seqAt isn teed.length
  | .teed seq chunk _ => ∃ k, seq = seqAt isn k ∧ k + chunk.length = teed.length
      ∧ teed.drop k = chunk
  | .finBuilt seq | .finRecorded seq =>
      seq = seqAt isn length ∧ length + 1 ≤ acked + honoredWindowCap
  | .finCounted seq => seq = seqAt isn length
  | .stopped rest fin => fin = true → rest = []
  | _ => True

/-- A cursor loaded from `our_seq` when the guest had acknowledged `acked`. -/
structure LoadedSent (isn : BitVec 32) (acked counted : Nat) (sent : BitVec 32) (j : Nat) :
    Prop where
  eq : sent = seqAt isn j
  acked_le : acked ≤ j
  le_counted : j ≤ counted
  window : j ≤ acked + honoredWindowCap

/-- What the bridge's phase says. -/
def BridgeOk (isn : BitVec 32) (acked offered counted : Nat) : BridgePhase → Prop
  | .ackLoaded t sent => ∃ k j, t.ack = seqAt isn k ∧ LoadedSent isn acked counted sent j
      ∧ k ≤ offered ∧ k ≤ j + 1 ∧ j < k + 2 ^ 32
  | .sentLoaded sent => ∃ j, LoadedSent isn acked counted sent j
  | .ackedLoaded sent a | .windowLoaded sent a _ =>
      a = seqAt isn acked ∧ ∃ j, LoadedSent isn acked counted sent j
  | _ => True

/-- The invariant of an inline flow.  The bytes read are those the ring was given,
those counted only, and those not sent; nothing past what the ring was given has
been handed to the guest, except the recorded FIN. -/
structure InlineInv (isn : BitVec 32) (s : InlineFlow) (teed : Bytes) (base acked : Nat) : Prop where
  cells : CellsOk isn s.conn teed s.sentPos base acked s.owner.isFinRecorded
  read_eq : s.read = teed ++ s.owner.unteed ++ s.owner.unsent
  acked_le : acked ≤ s.offered
  offered_le : s.offered ≤ teed.length + s.owner.isFinRecorded.toNat
  window : s.read.length + s.owner.isFinCounted.toNat ≤ acked + honoredWindowCap
  owner : OwnerOk isn acked s.read.length teed s.owner
  bridge : BridgeOk isn acked s.offered s.sentPos s.bridge

theorem LoadedSent.mono {counted' : Nat} (h : LoadedSent isn acked counted sent j)
    (hle : counted ≤ counted') : LoadedSent isn acked counted' sent j :=
  ⟨h.eq, h.acked_le, Nat.le_trans h.le_counted hle, h.window⟩

theorem BridgeOk.mono {offered' counted' : Nat} (h : BridgeOk isn acked offered counted phase)
    (hoff : offered ≤ offered') (hcnt : counted ≤ counted') :
    BridgeOk isn acked offered' counted' phase := by
  cases phase with
  | ackLoaded t sent =>
      obtain ⟨k, j, hack, hsent, hk, hrest⟩ := h
      exact ⟨k, j, hack, hsent.mono hcnt, Nat.le_trans hk hoff, hrest⟩
  | sentLoaded sent =>
      obtain ⟨j, hsent⟩ := h
      exact ⟨j, hsent.mono hcnt⟩
  | ackedLoaded sent a | windowLoaded sent a _ =>
      obtain ⟨ha, j, hsent⟩ := h
      exact ⟨ha, j, hsent.mono hcnt⟩
  | idle | ackStored _ | closed => trivial

theorem OwnerOk.mono {acked' length : Nat} {phase : OwnerPhase}
    (h : OwnerOk isn acked length teed phase) (hle : acked ≤ acked') :
    OwnerOk isn acked' length teed phase := by
  cases phase with
  | ackedLoaded a =>
      obtain ⟨j, ha, hj, hlen⟩ := h
      exact ⟨j, ha, Nat.le_trans hj hle, hlen⟩
  | reading budget => exact ⟨h.1, by have := h.2; omega⟩
  | finBuilt seq | finRecorded seq => exact ⟨h.1, by have := h.2; omega⟩
  | idle | sending _ | built _ _ _ | counted _ _ _ | teed _ _ _ | finCounted _ | stopped _ _ =>
      exact h

/-! ## The owner's steps -/

variable {s s' : InlineFlow} {mss : Nat}

section

variable (h : InlineInv isn s teed base acked)

include h

/-- `our_seq` counts what the ring was given, what it will be given next, and the
FIN. -/
theorem InlineInv.sentPos_eq :
    s.sentPos = teed.length + s.owner.unteed.length + s.owner.isFinCounted.toNat := by
  simp only [InlineFlow.sentPos, h.read_eq, length_append]
  omega

theorem InlineInv.teedLength_eq : s.teedLength = teed.length := by
  simp only [InlineFlow.teedLength, h.read_eq, length_append]
  omega

/-- A phase that differs in nothing the cells depend on. -/
theorem InlineInv.ownerAt {phase : OwnerPhase} (hview : phase.view = s.owner.view)
    (hok : OwnerOk isn acked s.read.length teed phase) :
    InlineInv isn (s.ownerAt phase) teed base acked := by
  simp only [OwnerPhase.view, Prod.mk.injEq] at hview
  obtain ⟨hunteed, hunsent, hrec, hcnt⟩ := hview
  obtain ⟨hcells, hread, hacked, hoff, hwin, -, hbridge⟩ := h
  simp only [InlineFlow.sentPos, ← hunsent, ← hrec, ← hcnt] at hcells hbridge
  rw [← hunteed, ← hunsent] at hread
  rw [← hrec] at hoff
  rw [← hcnt] at hwin
  exact ⟨hcells, hread, hacked, hoff, hwin, hok, hbridge⟩

theorem InlineInv.moved {c : FastPathConn} {phase : OwnerPhase} {read teed' : Bytes}
    (hread : read = teed' ++ phase.unteed ++ phase.unsent)
    (hcells : CellsOk isn c teed' (teed'.length + phase.unteed.length + phase.isFinCounted.toNat)
      base acked phase.isFinRecorded)
    (hpos : s.sentPos ≤ teed'.length + phase.unteed.length + phase.isFinCounted.toNat)
    (hle : s.offered ≤ offered) (hoff : offered ≤ teed'.length + phase.isFinRecorded.toNat)
    (hwin : read.length + phase.isFinCounted.toNat ≤ acked + honoredWindowCap)
    (hok : OwnerOk isn acked read.length teed' phase) :
    InlineInv isn ⟨c, phase, s.bridge, read, offered⟩ teed' base acked := by
  have hnew : (InlineFlow.mk c phase s.bridge read offered).sentPos
      = teed'.length + phase.unteed.length + phase.isFinCounted.toNat := by
    simp only [InlineFlow.sentPos, hread, length_append]
    omega
  exact ⟨hnew ▸ hcells, hread, Nat.le_trans h.acked_le hle, hoff, hwin, hok,
    h.bridge.mono hle (hnew ▸ hpos)⟩

end

/-- The budget is what the honoured window leaves beyond the bytes in flight. -/
theorem sendBudget_le (isn : BitVec 32) {window length : Nat}
    (hlen : length ≤ j + honoredWindowCap) (hj : j ≤ length) (hwin : window ≤ honoredWindowCap) :
    length + sendBudget (seqAt isn length) (seqAt isn j) window ≤ j + honoredWindowCap := by
  have hcap : honoredWindowCap < half := by decide
  simp only [sendBudget]
  rw [toNat_sub_of_le isn hj (by simp only [half] at hcap; omega)]
  split <;> omega

section

variable (h : InlineInv isn s teed base acked)

include h

theorem InlineInv.loadWindow {read : BitVec 32} (hown : s.owner = .ackedLoaded read) :
    InlineInv isn
      (let budget := sendBudget s.conn.ourSeq read s.conn.honoredWindow
       s.ownerAt (if budget = 0 then .idle else .reading budget)) teed base acked := by
  have hpos := h.sentPos_eq
  have hok := h.owner
  have hread := h.read_eq
  rw [hown] at hok hread hpos
  obtain ⟨j, ha, hj, hlen⟩ := hok
  have hlength : s.sentPos = s.read.length := by
    rw [hpos, hread]
    simp
  have hbudget := sendBudget_le isn hlen (hlength ▸ Nat.le_trans hj h.cells.acked_le)
    (Nat.min_le_right s.conn.guestWindow.toNat honoredWindowCap)
  rw [← hlength, ← h.cells.ourSeq, ← ha] at hbudget
  refine h.ownerAt ?_ ?_
  · rw [hown]
    split <;> rfl
  · split
    · trivial
    · exact ⟨Nat.pos_of_ne_zero ‹_›, by rw [← hlength]; exact Nat.le_trans hbudget (by omega)⟩

theorem InlineInv.read {budget : Nat} {data : Bytes} (hown : s.owner = .reading budget)
    (hle : data.length ≤ budget) :
    InlineInv isn { s with owner := .sending data, read := s.read ++ data } teed base acked := by
  have ⟨hcells, hread, _, hoff, hwin, hok, _⟩ := h
  have hpos := h.sentPos_eq
  rw [hown] at hok hpos hread hcells hoff hwin
  refine h.moved ?_ (hpos ▸ hcells) (Nat.le_of_eq hpos) .refl hoff ?_ trivial
  · simpa using hread
  · have := hok.2
    simp only [length_append, OwnerPhase.isFinCounted, Bool.toNat_false]
    omega

theorem InlineInv.readEof {budget : Nat} (hown : s.owner = .reading budget) :
    InlineInv isn (s.ownerAt (.finBuilt s.conn.ourSeq)) teed base acked := by
  have hpos := h.sentPos_eq
  have hok := h.owner
  have hread := h.read_eq
  rw [hown] at hok hpos hread
  refine h.ownerAt (by rw [hown]; rfl) ⟨?_, ?_⟩
  · rw [h.cells.ourSeq, hpos, hread]
    simp
  · have := hok.1
    have := hok.2
    omega

section Chunk

variable {seq : BitVec 32} {chunk rest : Bytes}

theorem InlineInv.count (hown : s.owner = .built seq chunk rest) :
    InlineInv isn
      { s with owner := .counted seq chunk rest, conn := s.conn.advanceSeq chunk.length }
      teed base acked := by
  have ⟨hcells, hread, _, hoff, hwin, hok, _⟩ := h
  have hpos := h.sentPos_eq
  rw [hown] at hok hpos hread hcells hoff hwin
  rw [hpos] at hcells
  refine h.moved ?_ ?_ ?_ .refl hoff hwin hok
  · simpa using hread
  · exact hcells.advanceSeq chunk.length
  · simp only [hpos, OwnerPhase.unteed, OwnerPhase.isFinCounted, length_nil]
    omega

theorem InlineInv.tee (hown : s.owner = .counted seq chunk rest) :
    InlineInv isn { s with owner := .teed seq chunk rest, conn := s.conn.setRetx (·.extend chunk) }
      (teed ++ chunk) base acked := by
  have ⟨hcells, hread, hacked, hoff, hwin, hok, _⟩ := h
  have hpos := h.sentPos_eq
  rw [hown] at hok hpos hread hcells hoff hwin
  rw [hpos] at hcells
  have hle : acked ≤ teed.length := Nat.le_trans hacked hoff
  refine h.moved ?_ ?_ ?_ .refl ?_ hwin ⟨teed.length, hok, ?_, ?_⟩
  · simpa using hread
  · simpa using hcells.extend hle chunk
  · simp [hpos]
  · simp only [length_append, OwnerPhase.isFinRecorded, Bool.toNat_false] at hoff ⊢
    omega
  · simp
  · simp

theorem InlineInv.publish (hown : s.owner = .teed seq chunk rest) :
    InlineInv isn { s with owner := .sending rest, offered := max s.offered s.teedLength }
      teed base acked := by
  have ⟨hcells, hread, _, hoff, hwin, _, _⟩ := h
  have hpos := h.sentPos_eq
  rw [hown] at hpos hread hcells hoff hwin
  refine h.moved hread (hpos ▸ hcells) (Nat.le_of_eq hpos) (Nat.le_max_left _ _) ?_ hwin trivial
  rw [h.teedLength_eq]
  exact Nat.max_le.mpr ⟨hoff, Nat.le_add_right _ _⟩

end Chunk

section Fin

variable {seq : BitVec 32}

theorem InlineInv.recordFin (hown : s.owner = .finBuilt seq) :
    InlineInv isn { s with owner := .finRecorded seq, conn := s.conn.setRetx (·.recordFin seq) }
      teed base acked := by
  have ⟨hcells, hread, _, hoff, hwin, hok, _⟩ := h
  have hpos := h.sentPos_eq
  rw [hown] at hok hpos hread hcells hoff hwin
  rw [hpos] at hcells
  have hlen : s.read.length = teed.length := by simp [hread]
  rw [hlen] at hok
  refine h.moved hread ?_ (Nat.le_of_eq hpos) .refl ?_ hwin (hlen ▸ hok)
  · rw [hok.1]
    exact hcells.recordFin
  · exact Nat.le_trans hoff (Nat.le_succ _)

theorem InlineInv.countFin (hown : s.owner = .finRecorded seq) :
    InlineInv isn { s with owner := .finCounted seq, conn := s.conn.advanceSeq 1 }
      teed base acked := by
  have ⟨hcells, hread, _, hoff, _, hok, _⟩ := h
  have hpos := h.sentPos_eq
  rw [hown] at hok hpos hread hcells hoff
  rw [hpos] at hcells
  exact h.moved hread (hcells.advanceSeq 1) (hpos ▸ Nat.le_succ _) .refl hoff hok.2 hok.1

theorem InlineInv.publishFin (hown : s.owner = .finCounted seq) :
    InlineInv isn { s with owner := .stopped [] true, offered := s.read.length + 1 }
      teed base acked := by
  have ⟨hcells, hread, _, hoff, hwin, _, _⟩ := h
  have hpos := h.sentPos_eq
  rw [hown] at hpos hread hcells hoff hwin
  have hlen : s.read.length = teed.length := by simp [hread]
  exact h.moved hread (hpos ▸ hcells) (Nat.le_of_eq hpos) (hlen ▸ hoff)
    (Nat.le_of_eq (by rw [hlen]; rfl)) hwin fun _ => rfl

end Fin

theorem InlineInv.ownerStep {out : Option OwnerFrame} (hs : OwnerStep mss s out s') :
    ∃ teed', InlineInv isn s' teed' base acked := by
  cases hs with
  | returnDead hown _ => exact ⟨teed, h.ownerAt (by rw [hown]; rfl) nofun⟩
  | wouldBlock hown | sent hown => exact ⟨teed, h.ownerAt (by rw [hown]; rfl) trivial⟩
  | loadAcked hown =>
      have hwin := h.window
      rw [hown] at hwin
      exact ⟨teed, h.ownerAt (by rw [hown]; rfl) ⟨acked, h.cells.guestAcked, .refl, hwin⟩⟩
  | loadWindow hown => exact ⟨teed, h.loadWindow hown⟩
  | readError hown =>
      have hstopped : InlineInv isn (s.ownerAt (.stopped [] false)) teed base acked :=
        h.ownerAt (by rw [hown]; rfl) nofun
      exact ⟨teed, { hstopped with cells := hstopped.cells.congr rfl rfl rfl }⟩
  | build hown hne =>
      have hpos := h.sentPos_eq
      rw [hown] at hpos
      refine ⟨teed, h.ownerAt ?_ ?_⟩
      · rw [hown]
        simp [OwnerPhase.view]
      · show s.conn.ourSeq = _
        rw [h.cells.ourSeq, hpos]
        rfl
  | sinkGone hown => exact ⟨teed, h.ownerAt (by rw [hown]; rfl) nofun⟩
  | readEof hown => exact ⟨teed, h.readEof hown⟩
  | read hown hle => exact ⟨teed, h.read hown hle⟩
  | count hown => exact ⟨teed, h.count hown⟩
  | @tee _ chunk _ hown => exact ⟨teed ++ chunk, h.tee hown⟩
  | publish hown => exact ⟨teed, h.publish hown⟩
  | recordFin hown => exact ⟨teed, h.recordFin hown⟩
  | countFin hown => exact ⟨teed, h.countFin hown⟩
  | publishFin hown => exact ⟨teed, h.publishFin hown⟩

/-! ## The bridge's steps -/

/-- The invariant after a step of the bridge, which leaves `our_seq` alone. -/
theorem InlineInv.bridged {c : FastPathConn} {base' acked' : Nat}
    (hcells : CellsOk isn c teed s.sentPos base' acked' s.owner.isFinRecorded)
    (hle : acked ≤ acked') (hacked : acked' ≤ offered)
    (hoff : offered ≤ teed.length + s.owner.isFinRecorded.toNat)
    (hok : BridgeOk isn acked' offered s.sentPos phase) :
    InlineInv isn ⟨c, s.owner, phase, s.read, offered⟩ teed base' acked' :=
  ⟨hcells, h.read_eq, hacked, hoff, Nat.le_trans h.window (Nat.add_le_add_right hle _),
    h.owner.mono hle, hok⟩

theorem InlineInv.bridgeAt (hok : BridgeOk isn acked s.offered s.sentPos phase) :
    InlineInv isn (s.bridgeAt phase) teed base acked :=
  h.bridged h.cells .refl h.acked_le h.offered_le hok

theorem InlineInv.sentPos_le : s.sentPos ≤ acked + honoredWindowCap := by
  have hwin := h.window
  simp only [InlineFlow.sentPos]
  omega

theorem InlineInv.loadedSent : LoadedSent isn acked s.sentPos s.conn.ourSeq s.sentPos :=
  ⟨h.cells.ourSeq, h.cells.acked_le, .refl, h.sentPos_le⟩

/-- Only a recorded FIN is handed out before it is counted. -/
theorem InlineInv.offered_le_sentPos : s.offered ≤ s.sentPos + 1 := by
  have hoff := h.offered_le
  rw [h.sentPos_eq]
  have := s.owner.isFinRecorded.toNat_le
  omega

theorem InlineInv.read_eq_teed (hrec : s.owner.isFinRecorded = true) : s.read = teed := by
  have hread := h.read_eq
  have hown := h.owner
  cases hphase : s.owner <;> rw [hphase] at hread hown hrec <;> simp_all [OwnerOk]

theorem InlineInv.fin_of_resent (hf : ResentFrame isn s.conn teed base acked probing f)
    (hfin : f.isFin = true) :
    s.owner.isFinRecorded = true ∧ f.params.seq = seqAt isn s.read.length := by
  obtain ⟨ring, hring, hseq⟩ := hf.fin hfin
  rw [h.cells.retx, Option.some.injEq] at hring
  rw [← hring] at hseq
  rcases hrec : s.owner.isFinRecorded with _ | _
  · rw [hrec] at hseq
    cases hseq
  · rw [hrec, if_pos rfl, Option.some.injEq] at hseq
    rw [h.read_eq_teed hrec]
    exact ⟨rfl, hseq.symm⟩

variable {frames : List TcpFrame}

/-- What a poll hands out is in the ring, or is its FIN. -/
theorem InlineInv.reach_le
    (hframes : ∀ f ∈ frames, ResentFrame isn s.conn teed base acked probing f) :
    s.reach frames ≤ teed.length + s.owner.isFinRecorded.toNat := by
  simp only [InlineFlow.reach]
  split
  next hany =>
    obtain ⟨f, hf, hfin⟩ := any_eq_true.mp hany
    have hrec := (h.fin_of_resent (hframes f hf) hfin).1
    rw [h.read_eq_teed hrec, hrec]
    exact .refl
  split
  · exact Nat.zero_le _
  · rw [h.teedLength_eq]
    exact Nat.le_add_right _ _

/-- The bridge polls with nothing in flight and a closed window. -/
def InlineFlow.Probing (s : InlineFlow) : Prop :=
  ∃ sent acked, s.bridge = .windowLoaded sent acked 0 ∧ sent = s.conn.guestAcked

theorem InlineInv.resentFrame (hs : BridgeStep isn s frames s') :
    ∀ f ∈ frames, ResentFrame isn s.conn teed base acked s.Probing f := by
  cases hs with
  | poll hbridge =>
      have hok := h.bridge
      rw [hbridge] at hok
      obtain ⟨ha, j, hsent⟩ := hok
      have hcap : honoredWindowCap < half := by decide
      have hfly := hsent.window
      rw [ha, ← h.cells.guestAcked]
      intro f hf
      have hold := (h.cells.pollInline _ _ _ _ hsent.eq hsent.acked_le (by omega)).2 f hf
      refine ⟨fun hne => (hold.data hne).imp_right fun ⟨⟨heq, hwindow⟩, hrest⟩ => ?_, hold.fin⟩
      exact ⟨⟨_, _, hwindow ▸ hbridge, heq.trans h.cells.guestAcked.symm⟩, hrest⟩
  | _ => exact forall_mem_nil _

theorem InlineInv.bridgeStep (hs : BridgeStep isn s frames s') :
    ∃ base' acked', InlineInv isn s' teed base' acked' := by
  have hok := h.bridge
  have hframes := h.resentFrame hs
  have hcap : honoredWindowCap < half := by decide
  cases hs with
  | other hidle hsame =>
      exact ⟨base, acked, h.bridged (h.cells.congr hsame.ourSeq hsame.guestAcked hsame.retx)
        .refl h.acked_le h.offered_le hok⟩
  | loadSent hidle hisAck hacks =>
      obtain ⟨k, hack, hk, hold⟩ := hacks
      have hsent := h.sentPos_le
      have hacked := h.acked_le
      have hoff := h.offered_le_sentPos
      simp only [half] at hold hcap
      exact ⟨base, acked, h.bridgeAt ⟨k, s.sentPos, hack, h.loadedSent, hk, by omega, by omega⟩⟩
  | dropAck _ _ => exact ⟨base, acked, h.bridgeAt trivial⟩
  | storeAcked hbridge haccept =>
      rw [hbridge] at hok
      obtain ⟨k, j, hack, hsent, hk, hkj, hold⟩ := hok
      obtain ⟨hle, hkj⟩ :=
        le_of_acceptsAck h.cells.guestAcked hack hsent.eq hsent.acked_le hkj hold haccept
      exact ⟨base, k, h.bridged (h.cells.storeAcked hack hle (Nat.le_trans hkj hsent.le_counted))
        hle hk h.offered_le trivial⟩
  | storeWindow _ =>
      exact ⟨base, acked, h.bridged (h.cells.congr rfl rfl rfl) .refl h.acked_le
        h.offered_le trivial⟩
  | loadPollSent _ => exact ⟨base, acked, h.bridgeAt ⟨s.sentPos, h.loadedSent⟩⟩
  | loadPollAcked hbridge =>
      rw [hbridge] at hok
      exact ⟨base, acked, h.bridgeAt ⟨h.cells.guestAcked, hok⟩⟩
  | loadPollWindow hbridge =>
      rw [hbridge] at hok
      exact ⟨base, acked, h.bridgeAt hok⟩
  | @poll sent acked₀ window ctx now timeout hbridge =>
      rw [hbridge] at hok
      obtain ⟨ha, j, hsent⟩ := hok
      have hfly := hsent.window
      rw [ha, ← h.cells.guestAcked] at hframes ⊢
      obtain ⟨⟨base', hcells⟩, -⟩ :=
        h.cells.pollInline ctx now timeout window hsent.eq hsent.acked_le (by omega)
      refine ⟨base', acked, h.bridged hcells (Nat.le_refl _)
        (Nat.le_trans h.acked_le (Nat.le_max_left _ _))
        (Nat.max_le.mpr ⟨h.offered_le, h.reach_le hframes⟩) ?_⟩
      split <;> trivial
  | close _ =>
      exact ⟨base, acked, h.bridged (h.cells.congr rfl rfl rfl) .refl h.acked_le
        h.offered_le trivial⟩

end

/-! ## The ring in every reachable state -/

/-- The ring holds a run of the host stream: its byte `i` is the byte of the
stream at position `base + i`, whose number is `ring.base + i`, and it ends at or
before the position of `our_seq`. -/
structure RingWhole (isn : BitVec 32) (s : InlineFlow) (base acked : Nat) : Prop where
  ourSeq : s.conn.ourSeq = seqAt isn s.sentPos
  guestAcked : s.conn.guestAcked = seqAt isn acked
  base_le : base ≤ acked
  acked_le : acked ≤ s.sentPos
  ring : ∃ ring, s.conn.retx = some ring ∧ ring.base = seqAt isn base
    ∧ base + ring.buf.length ≤ s.sentPos
    ∧ ∀ i, i < ring.buf.length → ring.buf[i]? = s.read[base + i]?

/-- A frame the bridge hands out.  Its data is the run of the host stream at its
sequence number and counted in `our_seq`; as long as the ring starts less than a
wrap behind what the guest has acknowledged, the run is the one the guest expects
there.  The zero-window probe, sent with nothing in flight, is no retransmission: its
byte stands right before what the guest has acknowledged.  A FIN stands at the position the ring records,
the end of the stream. -/
structure Reemitted (isn : BitVec 32) (s : InlineFlow) (base acked : Nat) (f : TcpFrame) : Prop where
  data : f.payload ≠ [] →
    (∃ k, f.params.seq = seqAt isn k ∧ k + f.payload.length ≤ s.sentPos
      ∧ f.payload = (s.read.drop k).take f.payload.length
      ∧ (acked < base + 2 ^ 32 → acked ≤ k))
    ∨ (s.Probing ∧ f.payload = [0] ∧ f.params.seq + 1 = s.conn.guestAcked)
  fin : f.isFin = true → f.params.seq = seqAt isn s.read.length
    ∧ ∃ ring, s.conn.retx = some ring ∧ ring.finSeq = some f.params.seq

theorem InlineInv.ringWhole (h : InlineInv isn s teed base acked) : RingWhole isn s base acked := by
  refine ⟨h.cells.ourSeq, h.cells.guestAcked, h.cells.base_le, h.cells.acked_le, _, h.cells.retx,
    rfl, ?_, fun i hi => ?_⟩
  · have hpos := h.sentPos_eq
    have hbase := Nat.le_trans h.cells.base_le h.cells.acked_le
    simp only [length_drop]
    omega
  · simp only [length_drop] at hi
    rw [List.getElem?_drop, h.read_eq, append_assoc, List.getElem?_append_left (by omega)]

theorem InlineInv.reemitted (h : InlineInv isn s teed base acked)
    (hf : ResentFrame isn s.conn teed base acked s.Probing f) : Reemitted isn s base acked f := by
  have hpos := h.sentPos_eq
  refine ⟨fun hne => ?_, fun hfin => ?_⟩
  · rcases hf.data hne with ⟨k, hseq, hlen, hpay, hk⟩ | hprobe
    · refine .inl ⟨k, hseq, by omega, ?_, hk⟩
      rw [h.read_eq, append_assoc, drop_append_of_le_length (by omega),
        take_append_of_le_length (by rw [length_drop]; omega)]
      exact hpay
    · exact .inr hprobe
  · exact ⟨(h.fin_of_resent hf hfin).2, hf.fin hfin⟩

/-- A frame of the owner carries the run of the host stream at its sequence number,
all counted in `our_seq` and held by the ring. -/
theorem InlineInv.ownerFrame (h : InlineInv isn s teed base acked) {f : OwnerFrame}
    (hs : OwnerStep mss s (some f) s') :
    ∃ k, f.seq = seqAt isn k ∧ k + f.payload.length + f.fin.toNat ≤ s.sentPos
      ∧ f.payload = (s.read.drop k).take f.payload.length := by
  have hok := h.owner
  have hread := h.read_eq
  have hpos := h.sentPos_eq
  cases hs with
  | @publish seq chunk rest hown =>
      rw [hown] at hok hread hpos
      obtain ⟨k, hseq, hlen, hchunk⟩ := hok
      simp only [OwnerPhase.unteed, OwnerPhase.unsent, append_nil] at hread
      refine ⟨k, hseq, by simp only [Bool.toNat_false]; omega, ?_⟩
      rw [hread, drop_append_of_le_length (by omega), hchunk, take_left]
  | publishFin hown =>
      rw [hown] at hok hread hpos
      refine ⟨s.read.length, hok, ?_, rfl⟩
      rw [hpos, hread]
      simp

theorem inlineInv_promoted (key : SynFlowKey) (init : FastPathInit) (observed : Bool)
    (now : Instant) : InlineInv init.ourSeq (.promoted key init observed now) [] 0 0 :=
  ⟨⟨(seqAt_zero _).symm, (seqAt_zero _).symm, by rw [seqAt_zero]; rfl, .refl,
    .refl⟩, rfl, .refl, .refl, Nat.zero_le _, trivial, trivial⟩

theorem inlineInv_reachable {key : SynFlowKey} {init : FastPathInit} {observed : Bool}
    {now : Instant} (hs : InlineReachable mss key init observed now s) :
    ∃ teed base acked, InlineInv init.ourSeq s teed base acked := by
  induction hs with
  | promoted => exact ⟨[], 0, 0, inlineInv_promoted key init observed now⟩
  | owner _ hstep ih =>
      obtain ⟨teed, base, acked, h⟩ := ih
      obtain ⟨teed', h'⟩ := h.ownerStep hstep
      exact ⟨teed', base, acked, h'⟩
  | bridge _ hstep ih =>
      obtain ⟨teed, base, acked, h⟩ := ih
      obtain ⟨base', acked', h'⟩ := h.bridgeStep hstep
      exact ⟨teed, base', acked', h'⟩

/-- **The retransmission ring of an inline flow.**  In whatever order the owner,
the bridge and the guest take their steps, the ring is a run of the host stream
that ends at or before `our_seq`, and each frame the bridge sends again is such a
run at its sequence number, or the recorded FIN.  So are the owner's frames. -/
theorem inline_ring_whole {key : SynFlowKey} {init : FastPathInit} {observed : Bool}
    {now : Instant} (hs : InlineReachable mss key init observed now s) :
    ∃ base acked, RingWhole init.ourSeq s base acked
      ∧ (∀ frames s', BridgeStep init.ourSeq s frames s' →
        ∀ f ∈ frames, Reemitted init.ourSeq s base acked f)
      ∧ ∀ f s', OwnerStep mss s (some f) s' →
        ∃ k, f.seq = seqAt init.ourSeq k ∧ k + f.payload.length + f.fin.toNat ≤ s.sentPos
          ∧ f.payload = (s.read.drop k).take f.payload.length := by
  obtain ⟨teed, base, acked, h⟩ := inlineInv_reachable hs
  exact ⟨base, acked, h.ringWhole,
    fun frames s' hstep f hf => h.reemitted (h.resentFrame hstep f hf),
    fun f s' hstep => h.ownerFrame hstep⟩

/-- A flow whose sequence numbers wrap after two bytes. -/
def ringKey : SynFlowKey := ⟨.v4 ⟨10, 0, 2, 1⟩, 5, .v4 ⟨10, 0, 2, 2⟩, 6⟩

@[inherit_doc ringKey]
def ringInit : FastPathInit := ⟨0xFFFFFFFE, 7, 1460, none, 8⟩

@[inherit_doc ringKey]
def ringCtx : FrameCtx := ⟨false, ⟨1460, by decide⟩, ⟨Packet.Mac.broadcast, Packet.Mac.broadcast⟩⟩

/-- The bridge retransmits a payload that the owner has put into the ring and not
published yet. -/
theorem inline_ring_whole_unpublished :
    ∃ s frames s', InlineReachable 1460 ringKey ringInit false 0 s
    ∧ BridgeStep ringInit.ourSeq s frames s' ∧ frames.map TcpFrame.payload = [[1, 2, 3]] ∧ s.offered = 0
    ∧ ∃ base acked, RingWhole ringInit.ourSeq s base acked
      ∧ (∀ frames s', BridgeStep ringInit.ourSeq s frames s' →
        ∀ f ∈ frames, Reemitted ringInit.ourSeq s base acked f)
      ∧ ∀ f s', OwnerStep 1460 s (some f) s' →
        ∃ k, f.seq = seqAt ringInit.ourSeq k ∧ k + f.payload.length + f.fin.toNat ≤ s.sentPos
          ∧ f.payload = (s.read.drop k).take f.payload.length := by
  have h₀ : InlineReachable 1460 ringKey ringInit false 0 (.promoted ringKey ringInit false 0) :=
    .promoted
  have h₁ := h₀.owner (.loadAcked rfl)
  have h₂ := h₁.owner (.loadWindow rfl)
  have h₃ := h₂.owner (.read rfl (show ([1, 2, 3] : Bytes).length ≤ 8 by decide))
  have h₄ := h₃.owner (.build rfl (cons_ne_nil _ _))
  have h₅ := h₄.owner (.count rfl)
  have h₆ := h₅.owner (.tee rfl)
  have h₇ := h₆.bridge (.loadPollSent rfl)
  have h₈ := h₇.bridge (.loadPollAcked rfl)
  have h₉ := h₈.bridge (.loadPollWindow rfl)
  exact ⟨_, _, _, h₉, @BridgeStep.poll _ _ _ _ _ ringCtx (2000 * msec) (60000 * msec) rfl,
    by decide, rfl, inline_ring_whole h₉⟩

/-- **The window of an inline flow.**  In whatever order the owner, the bridge and the
guest take their steps, the guest has acknowledged no more than it was handed, and the
owner has read and counted at most `HONORED_WINDOW_CAP` beyond what it acknowledged. -/
theorem inline_window_honored {key : SynFlowKey} {init : FastPathInit} {observed : Bool}
    {now : Instant} (hs : InlineReachable mss key init observed now s) :
    ∃ acked, s.conn.guestAcked = seqAt init.ourSeq acked ∧ acked ≤ s.offered
      ∧ s.offered ≤ s.read.length + 1 ∧ s.conn.ourSeq = seqAt init.ourSeq s.sentPos
      ∧ max s.read.length s.sentPos ≤ acked + honoredWindowCap := by
  obtain ⟨teed, base, acked, h⟩ := inlineInv_reachable hs
  have hwindow := h.window
  have hoffered := h.offered_le
  have hread := congrArg length h.read_eq
  have hfin := s.owner.isFinRecorded.toNat_le
  simp only [length_append] at hread
  exact ⟨acked, h.cells.guestAcked, h.acked_le, by omega, h.cells.ourSeq,
    Nat.max_le.mpr ⟨by omega, h.sentPos_le⟩⟩

/-- The owner has read three bytes and sent none. -/
theorem inline_window_honored_read : ∃ s, InlineReachable 1460 ringKey ringInit false 0 s
    ∧ s.read = [1, 2, 3] ∧ s.offered = 0
    ∧ ∃ acked, s.conn.guestAcked = seqAt ringInit.ourSeq acked ∧ acked ≤ s.offered
      ∧ s.offered ≤ s.read.length + 1 ∧ s.conn.ourSeq = seqAt ringInit.ourSeq s.sentPos
      ∧ max s.read.length s.sentPos ≤ acked + honoredWindowCap := by
  have h₀ : InlineReachable 1460 ringKey ringInit false 0 (.promoted ringKey ringInit false 0) :=
    .promoted
  have h₁ := (h₀.owner (.loadAcked rfl)).owner (.loadWindow rfl)
  have h₂ := h₁.owner (.read rfl (show ([1, 2, 3] : Bytes).length ≤ 8 by decide))
  exact ⟨_, h₂, rfl, rfl, inline_window_honored h₂⟩

end Arcbox.Bridge

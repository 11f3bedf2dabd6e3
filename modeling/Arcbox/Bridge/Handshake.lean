import Arcbox.Bridge.TcpBridge

set_option autoImplicit false

/-!
# Bridge: handshakes in progress

The handshakes the bridge synthesizes (`tcp_bridge/handshake.rs`): an entry of
`handshake_conns`, its turn in `poll_handshakes`, and the resets that tell the guest
about an entry the bridge gives up.
-/

namespace Arcbox.Bridge

open Foundation List
open Packet

/-- `HANDSHAKE_RETRANSMIT_DELAYS`. -/
def handshakeRetransmitDelays : List Nat := [200 * msec, 400 * msec, 800 * msec]

/-- `HANDSHAKE_MAX_RETRANSMITS`. -/
def handshakeMaxRetransmits : Nat := 3

/-- `HANDSHAKE_TOTAL_TTL`. -/
def handshakeTotalTtl : Nat := 7000 * msec

/-- `SHIM_WSCALE`. -/
def shimWscale : Fin 15 := ⟨7, by decide⟩

/-! ## Entries -/

/-- `HandshakeRole`. -/
inductive HandshakeRole where
  | passiveOpen
  | activeOpen
  deriving DecidableEq, Repr

/-- A SYN, or a SYN-ACK if `acks`, with its MSS and window scale options. -/
structure SynFrame where
  acks : Bool
  params : TcpFrameParams IpAddr
  mss : BitVec 16
  wscale : Option (Fin 15)
  deriving DecidableEq, Repr

/-- A frame toward the guest: one of an established flow, one of
`build_tcp_rst_only_frame`, or one that opens a flow. -/
inductive ShimFrame where
  | tcp (f : TcpFrame)
  | rstOnly (p : TcpFrameParams IpAddr)
  | syn (f : SynFrame)
  deriving DecidableEq, Repr

namespace ShimFrame

/-- The parameters the frame was built from. -/
def params : ShimFrame → TcpFrameParams IpAddr
  | tcp f => f.params
  | rstOnly p => p
  | syn f => f.params

def flow (f : ShimFrame) : SynFlowKey :=
  ⟨f.params.dstIp, f.params.dstPort, f.params.srcIp, f.params.srcPort⟩

/-- The frame has the RST flag set. -/
def isRst : ShimFrame → Bool
  | tcp (.rst _) | rstOnly _ => true
  | tcp _ | syn _ => false

end ShimFrame

/-- `HandshakeConn`.  Of the host stream and of the pending connect only their
presence matters; an abandon signal is known by its number. -/
structure HandshakeConn where
  role : HandshakeRole
  ourIsn : BitVec 32
  peerIsn : BitVec 32
  peerSynEnd : BitVec 32
  hostStream : Bool
  abandon : Option Nat
  connectRx : Bool
  peerWscale : Option (Fin 15)
  peerMss : BitVec 16
  gwMac : Mac
  guestMac : Mac
  retransmitCount : Nat
  lastSent : Option Instant
  savedFrame : Option SynFrame
  created : Instant
  deriving DecidableEq, Repr

/-- What `try_recv` on the pending connect returns.  A connect comes with its
abandon signal, and `into_std` on its stream may fail. -/
inductive ConnectResult where
  | connect (abandon : Option Nat) (intoStd : Bool)
  | reject
  | drop
  | empty
  | closed
  deriving DecidableEq, Repr

/-- The environment of an entry's turn: the pending connect, the abandon signals,
whether the host stream is cancelled and whether its client reset it. -/
structure HandshakeEnv where
  connect : ConnectResult
  raised : Nat → Bool
  cancelled : Bool
  hostReset : Bool

/-- The entry once the pending connect has been looked at. -/
inductive ConnectStep where
  | going (c : HandshakeConn)
  | failed
  | dropped
  deriving DecidableEq, Repr

/-- The end of an entry's turn: the frames it emitted, the entry, and whether it
is to be removed. -/
structure HandshakeTurn where
  frames : List ShimFrame
  conn : HandshakeConn
  abort : Bool

namespace HandshakeConn

variable (c : HandshakeConn) (key : SynFlowKey)

def frameParams (seq ack : BitVec 32) (window : BitVec 16) : TcpFrameParams IpAddr :=
  { srcIp := key.dstIp, dstIp := key.srcIp, srcPort := key.dstPort, dstPort := key.srcPort,
    seq := seq, ack := ack, window := window, srcMac := c.gwMac, dstMac := c.guestMac }

/-- `handshake_abort_rst`. -/
def handshakeAbortRst : ShimFrame :=
  let params := c.frameParams key (if c.savedFrame.isSome then c.ourIsn + 1 else 0)
    (c.peerIsn + 1) 0
  if c.role = .activeOpen then .rstOnly params else .tcp (.rst params)

variable (advertisedMss : BitVec 16) (now : Instant)

/-- `should_retransmit`. -/
def shouldRetransmit : Bool :=
  match c.lastSent with
  | none => false
  | some last =>
      let idx := min c.retransmitCount (handshakeRetransmitDelays.length - 1)
      decide (handshakeRetransmitDelays.getD idx 0 ≤ now - last)

/-- The abandon signal is raised. -/
def abandoned (raised : Nat → Bool) : Bool := c.abandon.any raised

/-- Look at the pending connect of a passive open. -/
def takeConnect (result : ConnectResult) : ConnectStep :=
  if c.role = .passiveOpen ∧ c.hostStream = false then
    if c.connectRx then
      match result with
      | .connect abandon true =>
          .going { c with abandon := abandon, hostStream := true, connectRx := false }
      | .connect _ false | .reject | .closed => .failed
      | .drop => .dropped
      | .empty => .going c
    else .failed
  else .going c

/-- Emit the opening frame, or emit it again when its timer has run out.  At the
limit the entry is given up. -/
def sendOpening (frame : SynFrame) : HandshakeTurn :=
  match c.savedFrame with
  | none => ⟨[.syn frame], { c with savedFrame := some frame, lastSent := some now }, false⟩
  | some saved =>
      if c.shouldRetransmit now then
        if handshakeMaxRetransmits ≤ c.retransmitCount then ⟨[], c, true⟩
        else
          ⟨[.syn saved],
            { c with retransmitCount := c.retransmitCount + 1, lastSent := some now }, false⟩
      else ⟨[], c, false⟩

def openingFrame : SynFrame :=
  let mss := BitVec.ofNat 16 (familyMss key.srcIp advertisedMss.toNat)
  match c.role with
  | .passiveOpen =>
      ⟨true, c.frameParams key c.ourIsn (c.peerIsn + 1) 65535, mss,
        c.peerWscale.map fun _ => shimWscale⟩
  | .activeOpen => ⟨false, c.frameParams key c.ourIsn 0 65535, mss, some shimWscale⟩

/-- The part of the turn that follows the connect. -/
def drive (env : HandshakeEnv) : HandshakeTurn :=
  if c.abandoned env.raised then ⟨[], c, true⟩
  else if c.hostStream && env.cancelled then
    ⟨if c.role = .passiveOpen ∨ c.savedFrame.isSome then [c.handshakeAbortRst key] else [], c, true⟩
  else if handshakeTotalTtl < now - c.created then ⟨[c.handshakeAbortRst key], c, true⟩
  else
    match c.role with
    | .passiveOpen =>
        if c.hostStream then c.sendOpening now (c.openingFrame key advertisedMss)
        else ⟨[], c, false⟩
    | .activeOpen =>
        if c.hostStream && env.hostReset then
          ⟨if c.savedFrame.isSome then [.tcp (.rst (c.frameParams key (c.ourIsn + 1) 0 0))] else [],
            c, true⟩
        else c.sendOpening now (c.openingFrame key advertisedMss)

/-- The turn of one entry in `poll_handshakes`. -/
def turn (env : HandshakeEnv) : HandshakeTurn :=
  match c.takeConnect env.connect with
  | .going c => c.drive key advertisedMss now env
  | .failed => ⟨[c.handshakeAbortRst key], c, true⟩
  | .dropped => ⟨[], c, true⟩

end HandshakeConn

/-! ## The poll -/

/-- `poll_handshakes` on the table of entries. -/
def pollHandshakes (conns : Table SynFlowKey HandshakeConn) (advertisedMss : BitVec 16)
    (now : Instant) (env : SynFlowKey → HandshakeEnv) :
    Table SynFlowKey HandshakeConn × List ShimFrame :=
  let turn := fun (key : SynFlowKey) (c : HandshakeConn) => c.turn key advertisedMss now (env key)
  (Table.mapVal (fun key c => (turn key c).conn)
      (Table.retain (fun key c => !(turn key c).abort) conns),
    conns.entries.flatMap fun e => (turn e.1 e.2).frames)

/-- A passive open that the poll removes is reset, unless the egress dropped it or its
abandon signal is raised. -/
def GiveUpSignalled (conns : Table SynFlowKey HandshakeConn) (advertisedMss : BitVec 16)
    (now : Instant) (env : SynFlowKey → HandshakeEnv) : Prop :=
  ∀ key c, conns.lookup key = some c → c.role = .passiveOpen →
    (pollHandshakes conns advertisedMss now env).1.lookup key = none →
    c.takeConnect (env key).connect ≠ .dropped →
    (∀ c', c.takeConnect (env key).connect = .going c' → c'.abandoned (env key).raised = false) →
    ∃ f ∈ (pollHandshakes conns advertisedMss now env).2, f.isRst = true ∧ f.flow = key

variable {f : ShimFrame}

namespace HandshakeConn

/-- The connected entry has sent its SYN-ACK as often as it may, and the timer has run
out once more before the total TTL. -/
def LimitReached (c : HandshakeConn) (now : Instant) (env : HandshakeEnv) : Prop :=
  c.abandoned env.raised = false ∧ c.hostStream = true ∧ env.cancelled = false ∧
    now - c.created ≤ handshakeTotalTtl ∧ c.savedFrame.isSome ∧
    c.shouldRetransmit now = true ∧ handshakeMaxRetransmits ≤ c.retransmitCount

variable {c c' : HandshakeConn} {key : SynFlowKey} {advertisedMss : BitVec 16} {now : Instant}
  {env : HandshakeEnv}

theorem flow_handshakeAbortRst : (c.handshakeAbortRst key).flow = key := by
  by_cases hrole : c.role = .activeOpen <;> simp only [handshakeAbortRst, hrole] <;> rfl

theorem isRst_handshakeAbortRst : (c.handshakeAbortRst key).isRst = true := by
  by_cases hrole : c.role = .activeOpen <;> simp only [handshakeAbortRst, hrole] <;> rfl

theorem role_of_takeConnect {result : ConnectResult} (h : c.takeConnect result = .going c') :
    c'.role = c.role := by
  unfold takeConnect at h
  split at h
  · split at h
    · split at h <;> cases h <;> rfl
    · cases h
  · cases h
    rfl

theorem not_isRst_of_sendOpening (frame : SynFrame) :
    ∀ f ∈ (c.sendOpening now frame).frames, f.isRst = false := by
  have hsyn : ∀ f : SynFrame, (ShimFrame.syn f).isRst = false := fun _ => rfl
  grind [sendOpening]

theorem flow_of_turn (h : f ∈ (c.turn key advertisedMss now env).frames) (hrst : f.isRst = true) :
    f.flow = key := by
  have habort (c : HandshakeConn) : (c.handshakeAbortRst key).flow = key :=
    flow_handshakeAbortRst
  have hopen := @not_isRst_of_sendOpening
  have hreset (c : HandshakeConn) (seq : BitVec 32) :
      (ShimFrame.tcp (.rst (c.frameParams key seq 0 0))).flow = key := rfl
  grind [turn, drive]

theorem drive_of_limitReached (hrole : c.role = .passiveOpen) (h : c.LimitReached now env) :
    c.drive key advertisedMss now env = ⟨[], c, true⟩ := by
  obtain ⟨habandon, hstream, hcancel, httl, hsaved, hdue, hcount⟩ := h
  obtain ⟨saved, hsaved⟩ := Option.isSome_iff_exists.mp hsaved
  simp [drive, sendOpening, habandon, hcancel, Nat.not_lt.mpr httl, hrole, hstream, hsaved, hdue,
    hcount]

theorem isRst_of_drive (hrole : c.role = .passiveOpen) (hlimit : ¬ c.LimitReached now env)
    (habandon : c.abandoned env.raised = false)
    (h : (c.drive key advertisedMss now env).abort = true) :
    ∃ f ∈ (c.drive key advertisedMss now env).frames, f.isRst = true := by
  -- Of the timers only the one of the opening frame leaves silently, and at the limit alone.
  have hopen (frame : SynFrame) (ht : (c.sendOpening now frame).abort = true) :
      c.savedFrame.isSome ∧ c.shouldRetransmit now = true ∧
        handshakeMaxRetransmits ≤ c.retransmitCount := by
    grind [sendOpening]
  have hreset : ∃ f ∈ [c.handshakeAbortRst key], f.isRst = true :=
    ⟨_, mem_cons_self, isRst_handshakeAbortRst⟩
  grind [drive, LimitReached]

end HandshakeConn

section

variable {conns : Table SynFlowKey HandshakeConn} {advertisedMss : BitVec 16} {now : Instant}
  {env : SynFlowKey → HandshakeEnv} {key : SynFlowKey} {c : HandshakeConn}
  (hlook : conns.lookup key = some c)

include hlook

theorem lookup_pollHandshakes_eq_none :
    (pollHandshakes conns advertisedMss now env).1.lookup key = none
      ↔ (c.turn key advertisedMss now (env key)).abort = true := by
  simp [pollHandshakes, Table.lookup_retain, hlook, Option.filter]

theorem mem_frames_pollHandshakes (h : f ∈ (c.turn key advertisedMss now (env key)).frames) :
    f ∈ (pollHandshakes conns advertisedMss now env).2 :=
  mem_flatMap.mpr ⟨⟨key, c⟩, Table.lookup_eq_some_iff.mp hlook, h⟩

theorem of_mem_frames_pollHandshakes (h : f ∈ (pollHandshakes conns advertisedMss now env).2)
    (hrst : f.isRst = true) (hflow : f.flow = key) :
    f ∈ (c.turn key advertisedMss now (env key)).frames := by
  obtain ⟨⟨key', c'⟩, hmem, hf⟩ := mem_flatMap.mp h
  have hkey : key' = key := by rw [← hflow, HandshakeConn.flow_of_turn hf hrst]
  subst hkey
  have hc : c' = c := Option.some.inj ((Table.lookup_eq_some_iff.mpr hmem).symm.trans hlook)
  rwa [hc] at hf

end

/-- Every handshake the poll gives up is signalled exactly if no connected passive open
reaches its retransmission limit in it. -/
theorem handshake_give_up_signalled_iff (conns : Table SynFlowKey HandshakeConn)
    (advertisedMss : BitVec 16) (now : Instant) (env : SynFlowKey → HandshakeEnv) :
    GiveUpSignalled conns advertisedMss now env
      ↔ ∀ key c c', conns.lookup key = some c → c.role = .passiveOpen →
          c.takeConnect (env key).connect = .going c' → ¬ c'.LimitReached now (env key) := by
  constructor
  · intro hall key c c' hlook hrole hgoing hlimit
    have hturn : c.turn key advertisedMss now (env key) = ⟨[], c', true⟩ := by
      unfold HandshakeConn.turn
      simp only [hgoing]
      exact HandshakeConn.drive_of_limitReached
        ((HandshakeConn.role_of_takeConnect hgoing).trans hrole) hlimit
    have hnone : (pollHandshakes conns advertisedMss now env).1.lookup key = none := by
      rw [lookup_pollHandshakes_eq_none hlook, hturn]
    obtain ⟨f, hf, hrst, hflow⟩ := hall key c hlook hrole hnone (by simp [hgoing]) fun c'' hc'' => by
      rw [hgoing] at hc''
      cases hc''
      exact hlimit.1
    have hmem := of_mem_frames_pollHandshakes hlook hf hrst hflow
    rw [hturn] at hmem
    exact not_mem_nil hmem
  · intro hlimit key c hlook hrole hnone hdrop habandon
    rw [lookup_pollHandshakes_eq_none hlook] at hnone
    have hrst : ∃ f ∈ (c.turn key advertisedMss now (env key)).frames, f.isRst = true := by
      unfold HandshakeConn.turn at hnone ⊢
      split
      next c' hgoing =>
        simp only [hgoing] at hnone
        exact HandshakeConn.isRst_of_drive
          ((HandshakeConn.role_of_takeConnect hgoing).trans hrole)
          (hlimit key c c' hlook hrole hgoing) (habandon c' hgoing) hnone
      · exact ⟨_, mem_cons_self, HandshakeConn.isRst_handshakeAbortRst⟩
      next hdropped =>
        exact absurd hdropped hdrop
    obtain ⟨f, hf, hrst⟩ := hrst
    exact ⟨f, mem_frames_pollHandshakes hlook hf, hrst, HandshakeConn.flow_of_turn hf hrst⟩

/-- A guest that never answers the SYN-ACK is given up without a reset, well before the
total TTL. -/
theorem handshake_limit_silent :
    let key : SynFlowKey := ⟨.v4 ⟨10, 0, 2, 2⟩, 40000, .v4 ⟨93, 184, 216, 34⟩, 80⟩
    let entry : HandshakeConn :=
      { role := .passiveOpen, ourIsn := 1000, peerIsn := 7, peerSynEnd := 8, hostStream := false,
        abandon := none, connectRx := true, peerWscale := none, peerMss := 1460,
        gwMac := Mac.broadcast, guestMac := Mac.broadcast, retransmitCount := 0, lastSent := none,
        savedFrame := none, created := 0 }
    let env : SynFlowKey → HandshakeEnv :=
      fun _ => ⟨.connect none true, fun _ => false, false, false⟩
    let poll := fun (conns : Table SynFlowKey HandshakeConn) (now : Instant) =>
      (pollHandshakes conns 1460 now env).1
    let waiting := [0, 200 * msec, 600 * msec, 1400 * msec].foldl poll (AList.singleton key entry)
    (waiting.lookup key).isSome ∧ ((poll waiting (2200 * msec)).lookup key) = none ∧
      (pollHandshakes waiting 1460 (2200 * msec) env).2 = [] := by
  decide +kernel

end Arcbox.Bridge

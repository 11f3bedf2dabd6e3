import Arcbox.Foundation.History
import Arcbox.Bridge.Handshake

set_option autoImplicit false

/-!
# Bridge: handshakes, flows and abandoned flows together

The calls of `TcpBridge` over all of its tables
(`tcp_bridge/{handshake,settings,promotion,close,abandon}.rs`): a handshake is opened by a
guest's SYN or by an accepted host connection, its completion promotes it to a flow, and a
flow ends by a close, an abort or its abandon signal.  `closed` of the bridge holds what was
reported to the flow observer.
-/

namespace Arcbox.Bridge

open Foundation Foundation.History List
open Packet

/-- `MAX_PENDING_SYNS`. -/
def maxPendingSyns : Nat := 256

/-- `INBOUND_EPHEMERAL_START`. -/
def inboundEphemeralStart : BitVec 16 := 61000

/-- `INBOUND_EPHEMERAL_END`. -/
def inboundEphemeralEnd : BitVec 16 := 65535

/-! ## Interception with abandon signals -/

/-- The environment of an `intercept_at` call: that of the interception, and the abandon
signals as they are read before and after it. -/
structure ControlEnv where
  intercept : FastPathConn.InterceptEnv
  raisedBefore : Nat → Bool
  raisedAfter : Nat → Bool

namespace AbandonedConn

/-- What a segment moves: the cursor over bytes in order, and the guest's FIN behind them. -/
def receive (a : AbandonedConn) (t : TcpView) (now : Instant) : AbandonedConn :=
  let a := { a with lastActivity := now }
  if a.guestFin = false ∧ (t.seq - a.lastAck).toInt ≤ 0 then
    let a := if 0 < (t.seqEnd - a.lastAck).toInt then { a with lastAck := t.seqEnd } else a
    if t.isFin ∧ t.seqEnd = a.lastAck then
      { a with lastAck := a.lastAck + 1, guestFin := true }
    else a
  else a

end AbandonedConn

namespace TcpBridge

variable (b : TcpBridge)

/-- `intercept_abandoned`. -/
def interceptAbandoned (t : TcpView) (now : Instant) : TcpBridge × Option TcpFrame :=
  if t.isRst then ({ b with abandonedConns := b.abandonedConns.erase t.key }, none)
  else
    match b.abandonedConns.lookup t.key with
    | none => (b, none)
    | some a =>
        let a := a.receive t now
        ({ b with abandonedConns := b.abandonedConns.insert t.key a },
          if t.payload = [] ∧ t.flags &&& (0x01 ||| 0x02) = 0 ∧ t.seq ≠ a.lastAck - 1 then none
          else some (.ack
            { srcIp := t.key.dstIp, dstIp := t.key.srcIp, srcPort := t.key.dstPort,
              dstPort := t.key.srcPort, seq := a.ourSeq, ack := a.lastAck, window := 65535,
              srcMac := b.macs.gw, dstMac := b.macs.guest }))

def abandonRaised (key : SynFlowKey) (raised : Nat → Bool) (control : Option Nat)
    (before : Option AbandonedConn) : TcpBridge :=
  match before with
  | some state => if control.any raised then b.abandonFlow key state else b
  | none => b

/-- `intercept_at` on the parsed frames. -/
def interceptAt (bareIp : Bool) (env : ControlEnv) (frames : List (Option TcpView)) :
    TcpBridge × Option (Nat × Option TcpFrame) :=
  if b.flowControls.entries = [] ∧ b.abandonedConns.entries = [] then
    b.interceptOpenAt bareIp env.intercept frames
  else
    match frames with
    | some t :: _ =>
        let now := env.intercept.now
        let control := b.flowControls.lookup t.key
        let before := control.bind fun _ =>
          (b.fastPathConns.lookup t.key).map fun c => AbandonedConn.ofConn c now
        let b := b.abandonRaised t.key env.raisedBefore control before
        if t.key ∈ b.abandonedConns then
          let (b, reply) := b.interceptAbandoned t now
          (b, some (1, reply))
        else
          let (b, reply) := b.interceptOpenAt bareIp env.intercept frames
          if before.isSome ∧ control.any env.raisedAfter then
            let (b, reply) :=
              (b.abandonRaised t.key env.raisedAfter control before).interceptAbandoned t now
            (b, some (1, reply))
          else (b, reply)
    | none :: _ | [] => (b, none)

/-- The flows of `abort`: each is reported, and its entry dropped. -/
def abortFlows : TcpBridge :=
  { b with
    flowControls := ∅
    abandonedConns := ∅
    fastPathConns := ∅
    closed := (b.fastPathConns.entries.map fun e => (e.1, e.2)) ++ b.closed }

end TcpBridge

/-! ## The whole bridge -/

/-- `TcpBridge` with its handshakes.  `promotions` counts the calls of
`promote_to_fast_path`, and `picked` holds the keys that `initiate_inbound` chose, the last
one first. -/
structure Shim where
  bridge : TcpBridge
  handshakeConns : Table SynFlowKey HandshakeConn
  nextEphemeral : BitVec 16
  advertisedMss : BitVec 16
  promotions : Nat
  picked : List SynFlowKey

/-- The options `parse_tcp_syn_options` finds in a SYN. -/
structure SynOptions where
  mss : Option (BitVec 16)
  wscale : Option (Fin 15)
  deriving DecidableEq, Repr

/-- A SYN from the guest: the frame with its source address, the addresses of the link, and
what the handshake takes from outside. -/
structure SynArrival where
  frame : TcpView
  srcMac : Mac
  gatewayMac : Mac
  guestMac : Mac
  options : SynOptions
  isn : BitVec 32

/-- A connection that `InboundListenerManager` accepted. -/
structure Inbound where
  containerPort : BitVec 16
  guestIp : Ipv4Addr
  gatewayIp : Ipv4Addr
  isn : BitVec 32
  now : Instant
  deriving DecidableEq, Repr

/-- What a frame meets that may complete a handshake. -/
structure CompleteEnv where
  control : ControlEnv
  options : SynOptions
  cancelled : Bool
  sinkTakes : Bool

inductive ShimCall where
  | intercept (bareIp : Bool) (env : ControlEnv) (frames : List (Option TcpView))
  | poll (env : BridgePollEnv)
  | reader (key : SynFlowKey) (cells : TcpBridge.OwnerCells)
  | promote (key : SynFlowKey) (init : FastPathInit) (sinkTakes : Bool) (now : Instant)
  | outboundSyn (syn : SynArrival) (env : ControlEnv)
  | inbound (conn : Inbound)
  | pollHandshakes (now : Instant) (env : SynFlowKey → HandshakeEnv)
  | complete (t : TcpView) (env : CompleteEnv)
  | abort

namespace Shim

/-- `TcpBridge::new`. -/
def new : Shim := ⟨TcpBridge.new, ∅, inboundEphemeralStart, 1460, 0, []⟩

variable (s : Shim) (t : TcpView)

/-- `promote_to_fast_path`, with an observer installed. -/
def promote (key : SynFlowKey) (init : FastPathInit) (sinkTakes : Bool) (now : Instant) : Shim :=
  { s with
    bridge := s.bridge.promoteToFastPath key init sinkTakes true now
    promotions := s.promotions + 1 }

/-- `handle_outbound_syn`. -/
def handleOutboundSyn (syn : SynArrival) (env : ControlEnv) : Shim × Option TcpFrame :=
  let t := syn.frame
  let tried := s.bridge.interceptAt false env [some t]
  if s.bridge.abandonedConns.entries ≠ [] ∧ tried.2.isSome then
    ({ s with bridge := tried.1 }, tried.2.bind Prod.snd)
  else
    let s := if s.bridge.abandonedConns.entries ≠ [] then { s with bridge := tried.1 } else s
    if t.flags &&& 0x12 ≠ 0x02 then (s, none)
    else if (s.handshakeConns.lookup t.key).any fun c =>
        c.role == .passiveOpen && c.peerIsn == t.seq then (s, none)
    else
      let pending := s.handshakeConns.erase t.key
      if maxPendingSyns ≤ pending.entries.length then
        ({ s with handshakeConns := pending },
          some (.rst
            { srcIp := t.key.dstIp, dstIp := t.key.srcIp, srcPort := t.key.dstPort,
              dstPort := t.key.srcPort, seq := 0, ack := t.seqEnd + 1, window := 0,
              srcMac := syn.gatewayMac, dstMac := syn.srcMac }))
      else
        ({ s with
            handshakeConns := pending.insert t.key
              { role := .passiveOpen, ourIsn := syn.isn, peerIsn := t.seq
                peerSynEnd := t.seqEnd + 1 + if t.isFin then 1 else 0
                hostStream := false, abandon := none, connectRx := true
                peerWscale := syn.options.wscale
                peerMss := syn.options.mss.getD (if t.key.srcIp.isIpv6 then 1220 else 536)
                gwMac := syn.gatewayMac, guestMac := syn.guestMac, retransmitCount := 0
                lastSent := none, savedFrame := none, created := env.intercept.now } },
          none)

/-- The key that `initiate_inbound` gives the connection. -/
def inboundKey (conn : Inbound) : SynFlowKey :=
  ⟨.v4 conn.guestIp, conn.containerPort, .v4 conn.gatewayIp, s.nextEphemeral⟩

/-- `allocate_ephemeral`: the port after this one. -/
def nextPort (port : BitVec 16) : BitVec 16 :=
  if port = inboundEphemeralEnd then inboundEphemeralStart else port + 1

/-- `initiate_inbound` with `initiate_active_handshake`. -/
def initiateInbound (conn : Inbound) : Shim :=
  let key := s.inboundKey conn
  { s with
    nextEphemeral := nextPort s.nextEphemeral
    picked := key :: s.picked
    handshakeConns := s.handshakeConns.insert key
      { role := .activeOpen, ourIsn := conn.isn, peerIsn := 0, peerSynEnd := 0
        hostStream := true, abandon := none, connectRx := false, peerWscale := some shimWscale
        peerMss := 1460, gwMac := s.bridge.macs.gw, guestMac := s.bridge.macs.guest
        retransmitCount := 0, lastSent := none, savedFrame := none, created := conn.now } }

def establish (key : SynFlowKey) (conn : HandshakeConn) (init : FastPathInit) (sinkTakes : Bool)
    (now : Instant) : Shim :=
  let controls := match conn.abandon with
    | some signal => s.bridge.flowControls.insert key signal
    | none => s.bridge.flowControls
  { s with bridge := { s.bridge with flowControls := controls } }.promote key init sinkTakes now

variable (env : CompleteEnv)

/-- The guest's ACK of our SYN-ACK. -/
def completePassive (conn : HandshakeConn) : Shim × Option (List ShimFrame) :=
  let removed := { s with handshakeConns := s.handshakeConns.erase t.key }
  if t.flags &&& (0x02 ||| 0x10) ≠ 0x10 ∨ t.flags &&& (0x04 ||| 0x01) ≠ 0 then
    (if t.isRst then removed else s, none)
  else if t.ack ≠ conn.ourIsn + 1 then (s, none)
  else if conn.hostStream = false then (removed, some [])
  else
    let s := removed.establish t.key conn
      ⟨conn.ourIsn + 1, conn.peerIsn + 1, conn.peerMss, conn.peerWscale,
        t.window.setWidth 32 <<< (conn.peerWscale.map Fin.val).getD 0⟩
      env.sinkTakes env.control.intercept.now
    -- The final ACK may carry data.
    let (bridge, reply) := s.bridge.interceptAt false env.control [some t]
    ({ s with bridge := bridge }, some ((reply.bind Prod.snd).toList.map .tcp))

/-- The guest's SYN-ACK for our SYN. -/
def completeActive (conn : HandshakeConn) : Shim × Option (List ShimFrame) :=
  if t.flags &&& 0x12 ≠ 0x12 then (s, none)
  else if t.ack ≠ conn.ourIsn + 1 then (s, none)
  else
    let removed := { s with handshakeConns := s.handshakeConns.erase t.key }
    let ack := ShimFrame.tcp (.ack (conn.frameParams t.key (conn.ourIsn + 1) (t.seq + 1) 65535))
    if conn.hostStream = false then (removed, some [ack])
    else
      (removed.establish t.key conn
        ⟨conn.ourIsn + 1, t.seq + 1, env.options.mss.getD conn.peerMss, env.options.wscale,
          t.window.setWidth 32⟩
        env.sinkTakes env.control.intercept.now, some [ack])

/-- `try_complete_handshake`. -/
def tryCompleteHandshake : Shim × Option (List ShimFrame) :=
  match s.handshakeConns.lookup t.key with
  | none => (s, none)
  | some conn =>
      let removed := { s with handshakeConns := s.handshakeConns.erase t.key }
      if conn.abandoned env.control.raisedBefore then (removed, some [])
      else if conn.hostStream && env.cancelled then
        (removed, some (if t.isRst then [] else [conn.handshakeAbortRst t.key]))
      else
        match conn.role with
        | .passiveOpen => s.completePassive t env conn
        | .activeOpen => s.completeActive t env conn

/-- The bridge after a call. -/
def next : ShimCall → Shim
  | .intercept bareIp env frames => { s with bridge := (s.bridge.interceptAt bareIp env frames).1 }
  | .poll env => { s with bridge := (s.bridge.pollFastPath env).1 }
  | .reader key cells => { s with bridge := (s.bridge.step (.reader key cells)).1 }
  | .promote key init sinkTakes now => s.promote key init sinkTakes now
  | .outboundSyn syn env => (s.handleOutboundSyn syn env).1
  | .inbound conn => s.initiateInbound conn
  | .pollHandshakes now env =>
      { s with handshakeConns := (pollHandshakes s.handshakeConns s.advertisedMss now env).1 }
  | .complete t env => (s.tryCompleteHandshake t env).1
  | .abort => { s with handshakeConns := ∅, bridge := s.bridge.abortFlows }

end Shim

/-! ## Accounting -/

namespace TcpBridge

/-- The flows that were reported, and those in the table. -/
def accounted (b : TcpBridge) : Nat := b.closed.length + b.fastPathConns.keys.length

variable (b : TcpBridge)
variable (key : SynFlowKey)

theorem accounted_closeFastPath : (b.closeFastPath key).accounted = b.accounted := by
  have hsize := Table.size_erase b.fastPathConns key
  simp only [accounted, closeFastPath, length_append, length_map]
  omega

theorem accounted_foldl {α : Type} {f : TcpBridge → α → TcpBridge}
    (hf : ∀ b a, (f b a).accounted = b.accounted) (l : List α) (b : TcpBridge) :
    (l.foldl f b).accounted = b.accounted := by
  induction l generalizing b with
  | nil => rfl
  | cons a rest ih => rw [foldl_cons, ih, hf]

theorem accounted_setConn {b : TcpBridge} {key : SynFlowKey} {c : FastPathConn}
    (h : b.fastPathConns.lookup key = some c) (c' : FastPathConn) :
    (b.setConn key c').accounted = b.accounted := by
  have hsize := Table.size_insert b.fastPathConns key c'
  rw [h] at hsize
  exact congrArg (b.closed.length + ·) (Nat.succ.inj hsize)

theorem accounted_abandonFlow (state : AbandonedConn) :
    (b.abandonFlow key state).accounted = b.accounted := accounted_closeFastPath b key

theorem accounted_pollFastPath (env : BridgePollEnv) :
    (b.pollFastPath env).1.accounted = b.accounted := by
  refine (accounted_foldl accounted_closeFastPath _ _).trans ?_
  refine (accounted_foldl (fun b conn => ?_) _ _).trans ?_
  · split
    · rfl
    · exact accounted_abandonFlow b conn.key conn.before
  · refine Eq.trans (congrArg (_ + List.length ·) (Table.keys_mapVal _ _)) ?_
    exact accounted_foldl
      (fun b (conn : ControlledPoll) => accounted_abandonFlow b conn.key conn.before) _ _

theorem accounted_interceptOpenAt (bareIp : Bool) (env : FastPathConn.InterceptEnv)
    (frames : List (Option TcpView)) :
    (b.interceptOpenAt bareIp env frames).1.accounted = b.accounted := by
  rcases interceptOpenAt_cases b bareIp env frames with heq | ⟨t, following, c, -, hc, heq⟩
  · rw [heq]
  rw [heq]
  dsimp only
  split
  · exact (accounted_closeFastPath _ _).trans (accounted_setConn hc _)
  · exact accounted_setConn hc _

theorem accounted_interceptAbandoned (t : TcpView) (now : Instant) :
    (b.interceptAbandoned t now).1.accounted = b.accounted := by
  unfold interceptAbandoned
  split
  · rfl
  · split <;> rfl

theorem accounted_abandonRaised (raised : Nat → Bool) (control : Option Nat)
    (before : Option AbandonedConn) :
    (b.abandonRaised key raised control before).accounted = b.accounted := by
  unfold abandonRaised
  split
  · split
    · exact accounted_abandonFlow b key _
    · rfl
  · rfl

theorem accounted_interceptAt (bareIp : Bool) (env : ControlEnv) (frames : List (Option TcpView)) :
    (b.interceptAt bareIp env frames).1.accounted = b.accounted := by
  unfold interceptAt
  split
  · exact accounted_interceptOpenAt b bareIp env.intercept frames
  split
  · dsimp only
    split
    · rw [accounted_interceptAbandoned, accounted_abandonRaised]
    split
    · rw [accounted_interceptAbandoned, accounted_abandonRaised, accounted_interceptOpenAt,
        accounted_abandonRaised]
    · rw [accounted_interceptOpenAt, accounted_abandonRaised]
  · rfl
  · rfl

theorem accounted_reader (cells : OwnerCells) :
    (b.step (.reader key cells)).1.accounted = b.accounted := by
  unfold step
  dsimp only
  split
  next c hc =>
    split
    · exact accounted_setConn hc _
    · rfl
  · rfl

/-- A promotion adds a flow, unless it replaces one. -/
theorem accounted_promoteToFastPath (init : FastPathInit) (sinkTakes observed : Bool)
    (now : Instant) :
    (b.promoteToFastPath key init sinkTakes observed now).accounted +
      (b.fastPathConns.lookup key).toList.length = b.accounted + 1 := by
  have hsize := Table.size_insert b.fastPathConns key
    (FastPathConn.promoted key init (b.promotesInline key init sinkTakes) observed now)
  simp only [accounted, promoteToFastPath]
  omega

end TcpBridge

namespace Shim

variable (s : Shim) (call : ShimCall)

/-- The frame completes a handshake whose host stream is there. -/
def completes (t : TcpView) (env : CompleteEnv) : Bool :=
  (s.handshakeConns.lookup t.key).any fun conn =>
    !conn.abandoned env.control.raisedBefore && !env.cancelled && conn.hostStream &&
      t.ack == conn.ourIsn + 1 &&
      match conn.role with
      | .passiveOpen => t.flags &&& (0x02 ||| 0x10) == 0x10 && t.flags &&& (0x04 ||| 0x01) == 0
      | .activeOpen => t.flags &&& 0x12 == 0x12

/-- The key that the call promotes. -/
def promotes : ShimCall → Option SynFlowKey
  | .promote key _ _ _ => some key
  | .complete t env => if s.completes t env then some t.key else none
  | _ => none

/-- Every promoted flow was reported, or is in the table. -/
def Accounted : Prop := s.promotions = s.bridge.accounted

theorem handleOutboundSyn_cases (syn : SynArrival) (env : ControlEnv) :
    ∃ bridge conns, (s.handleOutboundSyn syn env).1 =
        { s with bridge := bridge, handshakeConns := conns } ∧
      (bridge = s.bridge ∨ bridge = (s.bridge.interceptAt false env [some syn.frame]).1) := by
  unfold handleOutboundSyn
  dsimp only
  split
  · exact ⟨_, _, rfl, .inr rfl⟩
  by_cases habandoned : s.bridge.abandonedConns.entries = []
  · simp only [habandoned, ne_eq, not_true_eq_false, if_false]
    split
    · exact ⟨_, _, rfl, .inl rfl⟩
    · split
      · exact ⟨_, _, rfl, .inl rfl⟩
      · split <;> exact ⟨_, _, rfl, .inl rfl⟩
  simp only [habandoned, ne_eq, not_false_eq_true, if_true]
  split
  · exact ⟨_, _, rfl, .inr rfl⟩
  · split
    · exact ⟨_, _, rfl, .inr rfl⟩
    · split <;> exact ⟨_, _, rfl, .inr rfl⟩

theorem tryCompleteHandshake_cases (t : TcpView) (env : CompleteEnv) : (s.completes t env = false ∧
        ∃ conns, (s.tryCompleteHandshake t env).1 = { s with handshakeConns := conns }) ∨
      (s.completes t env = true ∧ ∃ conns conn init bridge,
        let flow := { s with handshakeConns := conns }.establish t.key conn init env.sinkTakes
          env.control.intercept.now
        (s.tryCompleteHandshake t env).1 = { flow with bridge := bridge } ∧
          (bridge = flow.bridge ∨
            bridge = (flow.bridge.interceptAt false env.control [some t]).1)) := by
  unfold tryCompleteHandshake completes
  cases hlook : s.handshakeConns.lookup t.key with
  | none => exact .inl ⟨rfl, s.handshakeConns, rfl⟩
  | some conn =>
    simp only [Option.any_some]
    cases habandon : conn.abandoned env.control.raisedBefore with
    | true => exact .inl ⟨by simp, _, rfl⟩
    | false =>
      by_cases hcancel : (conn.hostStream && env.cancelled) = true
      · have hcancelled := Bool.and_eq_true_iff.mp hcancel
        exact .inl ⟨by simp [hcancelled.2], by simp [hcancel]⟩
      simp only [hcancel, Bool.false_eq_true, if_false]
      have hlive (hstream : ¬ conn.hostStream = false) : env.cancelled = false := by
        rw [Bool.not_eq_false] at hstream
        simpa [hstream] using hcancel
      cases hrole : conn.role with
      | passiveOpen =>
        dsimp only
        unfold completePassive
        split
        next hflags =>
          refine .inl ⟨?_, ?_⟩
          · rcases hflags with h | h <;> simp [h]
          · split <;> exact ⟨_, rfl⟩
        rename_i hflags
        split
        next hack =>
          refine .inl ⟨?_, _, rfl⟩
          simp only [beq_false_of_ne hack, Bool.and_false, Bool.false_and]
        rename_i hack
        split
        next hstream =>
          exact .inl ⟨by simp [hstream], _, rfl⟩
        rename_i hstream
        refine .inr ⟨?_, _, conn, _, _, rfl, .inr rfl⟩
        rw [not_or, not_not, not_not] at hflags
        simp [hlive hstream, eq_true_of_ne_false hstream, not_not.mp hack,
          hflags.1, hflags.2]
      | activeOpen =>
        dsimp only
        unfold completeActive
        split
        next hflags =>
          exact .inl ⟨by simp [hflags], _, rfl⟩
        rename_i hflags
        split
        next hack =>
          refine .inl ⟨?_, _, rfl⟩
          simp only [beq_false_of_ne hack, Bool.and_false, Bool.false_and]
        rename_i hack
        dsimp only
        split
        next hstream =>
          exact .inl ⟨by simp [hstream], _, rfl⟩
        rename_i hstream
        refine .inr ⟨?_, _, conn, _, _, rfl, .inl rfl⟩
        simp [hlive hstream, eq_true_of_ne_false hstream, not_not.mp hack,
          not_not.mp hflags]

theorem accounted_next : (s.promotes call = none ∧ (s.next call).promotions = s.promotions ∧
        (s.next call).bridge.accounted = s.bridge.accounted) ∨
      ∃ key, s.promotes call = some key ∧ (s.next call).promotions = s.promotions + 1 ∧
        (s.next call).bridge.accounted + (s.bridge.fastPathConns.lookup key).toList.length =
          s.bridge.accounted + 1 := by
  cases call with
  | intercept bareIp env frames =>
    exact .inl ⟨rfl, rfl, s.bridge.accounted_interceptAt bareIp env frames⟩
  | poll env => exact .inl ⟨rfl, rfl, s.bridge.accounted_pollFastPath env⟩
  | reader key cells => exact .inl ⟨rfl, rfl, s.bridge.accounted_reader key cells⟩
  | promote key init sinkTakes now =>
    exact .inr ⟨key, rfl, rfl, s.bridge.accounted_promoteToFastPath key init sinkTakes true now⟩
  | outboundSyn syn env =>
    obtain ⟨bridge, conns, heq, hbridge⟩ := s.handleOutboundSyn_cases syn env
    change s.next (.outboundSyn syn env) = _ at heq
    rw [heq]
    rcases hbridge with rfl | rfl
    · exact .inl ⟨rfl, rfl, rfl⟩
    · exact .inl ⟨rfl, rfl, s.bridge.accounted_interceptAt false env _⟩
  | inbound | pollHandshakes => exact .inl ⟨rfl, rfl, rfl⟩
  | abort =>
    refine .inl ⟨rfl, rfl, ?_⟩
    change (_ ++ s.bridge.closed).length + 0 = s.bridge.accounted
    rw [length_append, length_map, Nat.add_comm s.bridge.fastPathConns.entries.length]
    exact congrArg (s.bridge.closed.length + ·) (length_map Sigma.fst).symm
  | complete t env =>
    rcases s.tryCompleteHandshake_cases t env with
      ⟨hno, conns, heq⟩ | ⟨hyes, conns, conn, init, bridge, heq, hbridge⟩
    · change s.next (.complete t env) = _ at heq
      rw [heq]
      exact .inl ⟨if_neg (by simp [hno]), rfl, rfl⟩
    have hpromote := s.bridge.accounted_promoteToFastPath t.key init env.sinkTakes true
      env.control.intercept.now
    change s.next (.complete t env) = _ at heq
    rw [heq]
    refine .inr ⟨t.key, if_pos hyes, rfl, ?_⟩
    rcases hbridge with rfl | rfl
    · exact hpromote
    · rw [TcpBridge.accounted_interceptAt]
      exact hpromote

/-- A flow promoted under the key of a live one replaces it. -/
def Unclaimed : Prop := ∀ key ∈ s.promotes call, s.bridge.fastPathConns.lookup key = none

theorem accounted_next_iff (h : s.Accounted) : (s.next call).Accounted ↔ s.Unclaimed call := by
  unfold Accounted at h ⊢
  unfold Unclaimed
  rcases s.accounted_next call with ⟨hnone, hcount, hsame⟩ | ⟨key, hsome, hcount, hmore⟩
  · simp [hnone, hcount, hsame, h]
  rw [hsome, hcount]
  cases hlook : s.bridge.fastPathConns.lookup key with
  | none =>
    rw [hlook] at hmore
    simp only [Option.toList_none, length_nil] at hmore
    simp [hlook]
    omega
  | some old =>
    rw [hlook] at hmore
    simp only [Option.toList_some, length_singleton] at hmore
    simp [hlook]
    omega

/-- Every promoted flow is in the table or was reported, all along a run, exactly when no flow
is promoted under the key of a live one. -/
theorem flows_accounted_iff (calls : List ShimCall) :
    (∀ before rest, calls = before ++ rest → (History.after next new before).Accounted) ↔
      Throughout next new Unclaimed calls :=
  (throughout_iff (J := fun _ => True) (fun _ _ _ => trivial)
    (fun s call _ h => accounted_next_iff s call h) trivial (show new.Accounted from rfl)).symm

/-- A guest that opens its four-tuple again while the flow is live: the second promotion drops
the first flow, and nothing is reported. -/
theorem reused_flow_unreported :
    let key : SynFlowKey := ⟨.v4 ⟨10, 0, 2, 2⟩, 40000, .v4 ⟨93, 184, 216, 34⟩, 80⟩
    let quiet : Nat → Bool := fun _ => false
    let env : ControlEnv := ⟨⟨0, false, []⟩, quiet, quiet⟩
    let syn := fun seq : BitVec 32 => ShimCall.outboundSyn
      ⟨⟨key, seq, 0, 0x02, 65535, [], by decide⟩, Mac.broadcast, Mac.broadcast, Mac.broadcast,
        ⟨none, none⟩, 1000⟩ env
    let connected := ShimCall.pollHandshakes 0
      fun _ => ⟨.connect none true, quiet, false, false⟩
    let ack := fun seq : BitVec 32 => ShimCall.complete
      ⟨key, seq, 1001, 0x10, 65535, [], by decide⟩ ⟨env, ⟨none, none⟩, false, true⟩
    let s := History.after next new [syn 7, connected, ack 8, syn 500, connected, ack 501]
    s.promotions = 2 ∧ s.bridge.closed = [] ∧ s.bridge.fastPathConns.keys = [key] := by
  decide +kernel


/-! ## Inbound keys -/

/-- The keys of live entries. -/
def liveKeys : List SynFlowKey := s.bridge.fastPathConns.keys ++ s.handshakeConns.keys

/-- `initiate_inbound` picks a key that no live entry has. -/
def Fresh : ShimCall → Prop
  | .inbound conn => s.inboundKey conn ∉ s.liveKeys
  | _ => True

/-- A live entry between the endpoints of an inbound connection, on a port of the ephemeral
range, has one of the last 4535 keys picked: the counter has not come round to it. -/
def Recent : ShimCall → Prop
  | .inbound conn => ∀ key ∈ s.liveKeys,
      key.srcIp = .v4 conn.guestIp → key.srcPort = conn.containerPort →
        key.dstIp = .v4 conn.gatewayIp → inboundEphemeralStart ≤ key.dstPort →
          key ∈ s.picked.take 4535
  | _ => True

theorem nextPort_offset {port : BitVec 16} (h : 61000 ≤ port.toNat) :
    61000 ≤ (nextPort port).toNat ∧
      (nextPort port).toNat - 61000 = (port.toNat - 61000 + 1) % 4536 := by
  unfold nextPort
  split
  next heq =>
    subst heq
    decide
  rename_i hne
  have hlt : port.toNat < 65535 := by
    have hmax : port.toNat ≠ 65535 := fun h => hne (BitVec.eq_of_toNat_eq h)
    have := port.isLt
    omega
  rw [BitVec.toNat_add, Nat.mod_eq_of_lt (by simp; omega)]
  simp
  omega

/-- The key picked `i` connections ago lies that far behind the counter. -/
structure Counted (s : Shim) : Prop where
  start : 61000 ≤ s.nextEphemeral.toNat
  behind : ∀ i key, s.picked[i]? = some key →
    (key.dstPort.toNat - 61000 + i + 1) % 4536 = s.nextEphemeral.toNat - 61000

variable {s : Shim}

theorem counted_inbound (h : s.Counted) (conn : Inbound) : (s.initiateInbound conn).Counted := by
  obtain ⟨hstart, hnext⟩ := nextPort_offset h.start
  have hmoved : (s.initiateInbound conn).nextEphemeral = nextPort s.nextEphemeral := rfl
  refine ⟨by rw [hmoved]; exact hstart, fun i key hkey => ?_⟩
  rw [hmoved, hnext]
  cases i with
  | zero =>
    have hhead : s.inboundKey conn = key := Option.some.inj hkey
    have hport : key.dstPort.toNat = s.nextEphemeral.toNat := by rw [← hhead, inboundKey]
    omega
  | succ i =>
    rw [← h.behind i key hkey, Nat.mod_add_mod, ← Nat.add_assoc]

theorem counter_next (s : Shim) (call : ShimCall) (h : ∀ conn, call ≠ .inbound conn) :
    (s.next call).nextEphemeral = s.nextEphemeral ∧ (s.next call).picked = s.picked := by
  cases call with
  | inbound conn => exact absurd rfl (h conn)
  | outboundSyn syn env =>
    obtain ⟨bridge, conns, heq, -⟩ := s.handleOutboundSyn_cases syn env
    change s.next (.outboundSyn syn env) = _ at heq
    rw [heq]
    exact ⟨rfl, rfl⟩
  | complete t env =>
    rcases s.tryCompleteHandshake_cases t env with
      ⟨-, conns, heq⟩ | ⟨-, conns, conn, init, bridge, heq, -⟩ <;>
    · change s.next (.complete t env) = _ at heq
      rw [heq]
      exact ⟨rfl, rfl⟩
  | intercept | poll | reader | promote | pollHandshakes | abort => exact ⟨rfl, rfl⟩

theorem counted_next (h : s.Counted) (call : ShimCall) : (s.next call).Counted := by
  by_cases hinbound : ∃ conn, call = .inbound conn
  · obtain ⟨conn, rfl⟩ := hinbound
    exact counted_inbound h conn
  · obtain ⟨hport, hpicked⟩ := s.counter_next call fun conn heq => hinbound ⟨conn, heq⟩
    exact ⟨hport ▸ h.start, by rw [hport, hpicked]; exact h.behind⟩

theorem inboundKey_not_recent (h : s.Counted) (conn : Inbound) :
    s.inboundKey conn ∉ s.picked.take 4535 := by
  intro hmem
  obtain ⟨i, hi⟩ := mem_iff_getElem?.mp hmem
  rw [getElem?_take] at hi
  split at hi
  · have hbehind := h.behind i _ hi
    have hlt := s.nextEphemeral.isLt
    have hstart := h.start
    change (s.nextEphemeral.toNat - 61000 + i + 1) % 4536 = _ at hbehind
    omega
  · exact (nomatch hi)

theorem fresh_of_recent (h : s.Counted) (call : ShimCall) (hrecent : s.Recent call) :
    s.Fresh call := by
  cases call with
  | inbound conn =>
    intro hlive
    exact inboundKey_not_recent h conn (hrecent _ hlive rfl rfl rfl h.start)
  | intercept | poll | reader | promote | outboundSyn | pollHandshakes | complete | abort =>
    trivial

/-- In a run where the counter never comes round to a live entry of the same endpoints, every
inbound connection gets a key of its own. -/
theorem inbound_keys_fresh (calls : List ShimCall) (h : Throughout next new Recent calls) :
    Throughout next new Fresh calls := by
  intro before call rest heq
  have hcounted : (History.after next new before).Counted :=
    keeps (P := fun _ _ => True) (fun _ call hs _ => counted_next hs call)
      ⟨by decide, nofun⟩ fun _ _ _ _ => trivial
  exact fresh_of_recent hcounted call (h before call rest heq)

/-- Two connections to one container port, the first still in its handshake. -/
theorem inbound_keys_fresh_pair :
    let web : Inbound := ⟨80, ⟨10, 0, 2, 2⟩, ⟨10, 0, 2, 1⟩, 1000, 0⟩
    Throughout next new Fresh [.inbound web, .inbound web] :=
  inbound_keys_fresh _ (throughout_cons.mpr ⟨forall_mem_nil _,
    throughout_cons.mpr ⟨fun _ hkey _ _ _ _ => hkey, throughout_nil⟩⟩)

/-- Inbound connections leave the flows alone and move the counter once each. -/
theorem after_inbounds (h : 61000 ≤ s.nextEphemeral.toNat) (conn : Inbound) (n : Nat) :
    let t := History.after next s (replicate n (.inbound conn))
    t.bridge = s.bridge ∧ 61000 ≤ t.nextEphemeral.toNat ∧
      t.nextEphemeral.toNat - 61000 = (s.nextEphemeral.toNat - 61000 + n) % 4536 := by
  induction n generalizing s with
  | zero =>
    have hlt := s.nextEphemeral.isLt
    exact ⟨rfl, h, by simp only [replicate_zero, after_nil]; omega⟩
  | succ n ih =>
    obtain ⟨hstart, hnext⟩ := nextPort_offset h
    obtain ⟨hbridge, hlast, hoffset⟩ := ih (s := s.initiateInbound conn) hstart
    refine ⟨hbridge, hlast, hoffset.trans ?_⟩
    change ((nextPort s.nextEphemeral).toNat - 61000 + n) % 4536 = _
    omega

/-- After 4535 connections the counter is back at the port before it. -/
theorem inboundKey_wraps (h : s.nextEphemeral.toNat = 61001) {web : Inbound}
    (hlive : ⟨.v4 web.guestIp, web.containerPort, .v4 web.gatewayIp, 61000⟩ ∈
      s.bridge.fastPathConns) (conn : Inbound) :
    (History.after next s (replicate 4535 (.inbound conn))).inboundKey web ∈
      (History.after next s (replicate 4535 (.inbound conn))).bridge.fastPathConns := by
  obtain ⟨hbridge, hstart, hoffset⟩ := after_inbounds (s := s) (by omega) conn 4535
  generalize History.after next s (replicate 4535 (.inbound conn)) = t at *
  have hport : t.nextEphemeral = 61000 := by
    refine BitVec.eq_of_toNat_eq ?_
    have hzero : (61001 - 61000 + 4535) % 4536 = 0 := rfl
    have hvalue : (61000 : BitVec 16).toNat = 61000 := rfl
    rw [h] at hoffset
    omega
  rw [hbridge, inboundKey, hport]
  exact hlive

/-- An established inbound flow, 4535 connections to another port, and the next connection to
the first port gets the key of the live flow. -/
theorem inbound_key_reused :
    let web : Inbound := ⟨80, ⟨10, 0, 2, 2⟩, ⟨10, 0, 2, 1⟩, 1000, 0⟩
    let other : Inbound := ⟨81, ⟨10, 0, 2, 2⟩, ⟨10, 0, 2, 1⟩, 1000, 0⟩
    let quiet : Nat → Bool := fun _ => false
    let synAck : TcpView :=
      ⟨⟨.v4 ⟨10, 0, 2, 2⟩, 80, .v4 ⟨10, 0, 2, 1⟩, 61000⟩, 7, 1001, 0x12, 65535, [], by decide⟩
    let opened := History.after next new [.inbound web,
      .complete synAck ⟨⟨⟨0, false, []⟩, quiet, quiet⟩, ⟨none, none⟩, false, true⟩]
    (History.after next opened (replicate 4535 (.inbound other))).inboundKey web ∈
      (History.after next opened (replicate 4535 (.inbound other))).bridge.fastPathConns := by
  intro web other quiet synAck opened
  have hport : opened.nextEphemeral.toNat = 61001 := by decide +kernel
  have hlive : ⟨.v4 web.guestIp, web.containerPort, .v4 web.gatewayIp, 61000⟩ ∈
      opened.bridge.fastPathConns := by decide +kernel
  exact inboundKey_wraps hport hlive other

end Shim

end Arcbox.Bridge

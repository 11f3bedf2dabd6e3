import Arcbox.Foundation.Table
import Arcbox.Bridge.FastPath

set_option autoImplicit false

/-!
# Bridge: the table of flows

`TcpBridge` with the tables its fast path works on: the promoted flows, the
abandon signals of controlled flows and the abandoned flows
(`tcp_bridge/{mod,fast_path,close,abandon}.rs`).  `closed` records the flows
`close_fast_path` removed, in the state they had then.

`FlowStep` says once what a call can do to one flow; `step_flow` says that every
call of the bridge does one of these things to each flow it holds.
-/

namespace Arcbox.Bridge

open Foundation List
open Packet

/-- `ABANDON_IDLE_TIMEOUT`. -/
def abandonIdleTimeout : Nat := 120000 * msec

/-- `MAX_ABANDONED_CONNS`. -/
def maxAbandonedConns : Nat := 4096

/-- `AbandonedConn`. -/
structure AbandonedConn where
  ourSeq : BitVec 32
  lastAck : BitVec 32
  guestFin : Bool
  lastActivity : Instant
  deriving DecidableEq, Repr

/-- `AbandonedConn::from`. -/
def AbandonedConn.ofConn (c : FastPathConn) (now : Instant) : AbandonedConn :=
  ⟨c.ourSeq, c.lastAck, c.guestFinAt.isSome, now⟩

/-- `TcpBridge`: the state of the fast path.  A flow control is known by the
number of the shared signal behind it. -/
structure TcpBridge where
  fastPathConns : Table SynFlowKey FastPathConn
  fastPathReadBuf : Nat
  fastPathGatewayMac : Mac
  fastPathGuestMac : Option Mac
  largeFramesEnabled : Bool
  fastPathGuestMss : SegmentBudget
  deadFlowTimeout : Nat
  flowControls : Table SynFlowKey Nat
  abandonedConns : Table SynFlowKey AbandonedConn
  closed : List (SynFlowKey × FastPathConn)

/-- `FAST_PATH_GUEST_MSS`: what a datagram frame holds behind its headers. -/
def fastPathGuestMssDefault : SegmentBudget := ⟨2048 - (ethHeaderLen + 20 + 20), by decide⟩

/-- `DEAD_FLOW_TIMEOUT`. -/
def deadFlowTimeoutDefault : Nat := 300000 * msec

/-- `TcpBridge::new`. -/
def TcpBridge.new : TcpBridge where
  fastPathConns := ∅
  fastPathReadBuf := 0
  fastPathGatewayMac := ⟨[0, 0, 0, 0, 0, 0], rfl⟩
  fastPathGuestMac := none
  largeFramesEnabled := false
  fastPathGuestMss := fastPathGuestMssDefault
  deadFlowTimeout := deadFlowTimeoutDefault
  flowControls := ∅
  abandonedConns := ∅
  closed := []

/-- `ControlledPoll`. -/
structure ControlledPoll where
  key : SynFlowKey
  signal : Nat
  before : AbandonedConn

/-- The environment of a `poll_fast_path` call: the clock, the signals as they
are read before and after the flows are polled, and the flows' own. -/
structure BridgePollEnv where
  preparedAt : Instant
  now : Instant
  raisedBefore : Nat → Bool
  raisedAfter : Nat → Bool
  flow : SynFlowKey → FastPathConn.PollEnv

namespace TcpBridge

variable (b : TcpBridge) (env : BridgePollEnv)

/-- The addresses frames are built with. -/
def macs : LinkMacs := ⟨b.fastPathGatewayMac, b.fastPathGuestMac.getD Mac.broadcast⟩

/-- The frame context of a poll. -/
def frameCtx : FrameCtx := ⟨b.largeFramesEnabled, b.fastPathGuestMss, b.macs⟩

variable (now : Instant) (key : SynFlowKey)

/-- `close_fast_path`. -/
def closeFastPath : TcpBridge :=
  { b with
    flowControls := b.flowControls.erase key
    fastPathConns := b.fastPathConns.erase key
    closed := ((b.fastPathConns.lookup key).toList.map fun c => (key, c)) ++ b.closed }

/-- Store the state of a flow. -/
def setConn (c : FastPathConn) : TcpBridge :=
  { b with fastPathConns := b.fastPathConns.insert key c }

/-- `intercept_open_at` on the parsed frames: the frames consumed and the reply,
or `none` for a frame the classifier handles.  `bareIp` says that the frames
start with the IP header. -/
def interceptOpenAt (bareIp : Bool) (env : FastPathConn.InterceptEnv)
    (frames : List (Option TcpView)) : TcpBridge × Option (Nat × Option TcpFrame) :=
  match frames with
  | some t :: following =>
      if bareIp && t.isSyn then (b, none)
      else
        match b.fastPathConns.lookup t.key with
        | none => (b, none)
        | some c =>
            let r := c.intercept b.macs env t following
            let b := b.setConn t.key r.conn
            (if r.close then b.closeFastPath t.key else b, some (r.consumed, r.reply))
  | none :: _ | [] => (b, none)

/-- The least recently active abandoned flow. -/
def oldestAbandoned : List (Sigma fun _ : SynFlowKey => AbandonedConn) → Option SynFlowKey
  | [] => none
  | e :: rest =>
      some (rest.foldl (fun oldest e =>
        if e.2.lastActivity < oldest.2.lastActivity then e else oldest) e).1

/-- `abandon_flow`. -/
def abandonFlow (state : AbandonedConn) : TcpBridge :=
  let state := match b.fastPathConns.lookup key with
    | some c => { state with lastAck := c.lastAck, guestFin := c.guestFinAt.isSome }
    | none => state
  let b := b.closeFastPath key
  let evicted := match oldestAbandoned b.abandonedConns.entries with
    | some oldest =>
        if maxAbandonedConns ≤ b.abandonedConns.entries.length then b.abandonedConns.erase oldest
        else b.abandonedConns
    | none => b.abandonedConns
  { b with abandonedConns := evicted.insert key state }

def controlledFlows : List ControlledPoll :=
  b.flowControls.entries.filterMap fun e =>
    (b.fastPathConns.lookup e.1).map fun c => ⟨e.1, e.2, .ofConn c now⟩

def dropIdleAbandoned : TcpBridge :=
  let recent := fun (_ : SynFlowKey) (conn : AbandonedConn) =>
    decide (now - conn.lastActivity < abandonIdleTimeout)
  { b with abandonedConns := Table.retain recent b.abandonedConns }

/-- `prepare_controlled_poll`. -/
def prepareControlledPoll (raised : Nat → Bool) : TcpBridge × List ControlledPoll :=
  let b := b.dropIdleAbandoned now
  let controlled := b.controlledFlows now
  ((controlled.filter fun conn => raised conn.signal).foldl
      (fun b conn => b.abandonFlow conn.key conn.before) b,
    controlled.filter fun conn => !raised conn.signal)

/-- `finish_controlled_poll`: the flows abandoned while polling are dropped, and
so are their frames. -/
def finishControlledPoll (controlled : List ControlledPoll) (raised : Nat → Bool)
    (frames : List TcpFrame) : TcpBridge × List TcpFrame :=
  let abandoned := controlled.filter fun conn => raised conn.signal
  (abandoned.foldl
      (fun b conn => if conn.key ∈ b.abandonedConns then b else b.abandonFlow conn.key conn.before) b,
    frames.filter fun f => !(abandoned.map ControlledPoll.key).contains f.flow)

/-- How many bytes a poll may read at once. -/
def readBufCap : Nat := if b.largeFramesEnabled then largeFrameMaxPayload else b.fastPathReadBuf

/-- The turn of one flow. -/
def pollFlow (c : FastPathConn) : Polled :=
  c.poll b.frameCtx env.now b.deadFlowTimeout b.readBufCap (env.flow key)

/-- The bridge after the flows had their turn, before the flows abandoned
meanwhile and the removed ones are dropped. -/
def polledConns : TcpBridge :=
  { b with
    fastPathConns := Table.mapVal (fun key c => (b.pollFlow env key c).conn) b.fastPathConns }

/-- The frames of all flows. -/
def polledFrames : List TcpFrame :=
  b.fastPathConns.entries.flatMap fun e => (b.pollFlow env e.1 e.2).frames

def toRemove : List SynFlowKey :=
  (b.fastPathConns.entries.filter fun e => (b.pollFlow env e.1 e.2).remove).map Sigma.fst

/-- `poll_fast_path`. -/
def pollFastPath : TcpBridge × List TcpFrame :=
  let (b, controlled) := b.prepareControlledPoll env.preparedAt env.raisedBefore
  let (polled, frames) := (b.polledConns env).finishControlledPoll controlled env.raisedAfter
    (b.polledFrames env)
  ((b.toRemove env).foldl closeFastPath polled, frames)

/-- The cells of a flow its inline reader writes. -/
structure OwnerCells where
  ourSeq : BitVec 32
  retx : Option RetxRing
  dead : Option Bool
  downShared : Option Nat
  deriving DecidableEq, Repr

end TcpBridge

/-- The inline reader has written its cells. -/
def FastPathConn.setOwnerCells (c : FastPathConn) (cells : TcpBridge.OwnerCells) : FastPathConn :=
  { c with
    ourSeq := cells.ourSeq, retx := cells.retx, dead := cells.dead,
    downShared := cells.downShared }

namespace TcpBridge

/-! ## Runs -/

inductive Event where
  | intercept (bareIp : Bool) (env : FastPathConn.InterceptEnv) (frames : List (Option TcpView))
  | poll (env : BridgePollEnv)
  | reader (key : SynFlowKey) (cells : OwnerCells)

variable (b : TcpBridge) (key : SynFlowKey)

def step : Event → TcpBridge × List TcpFrame
  | .intercept bareIp env frames =>
      let (b, result) := b.interceptOpenAt bareIp env frames
      (b, (result.bind Prod.snd).toList)
  | .poll env => b.pollFastPath env
  | .reader key cells =>
      match b.fastPathConns.lookup key with
      | some c =>
          if c.inlineOwned then (b.setConn key (c.setOwnerCells cells), []) else (b, [])
      | none => (b, [])

/-- What one event of a run did. -/
structure Record where
  before : TcpBridge
  event : Event
  frames : List TcpFrame
  after : TcpBridge

/-- The records of a run. -/
def run : TcpBridge → List Event → List Record
  | _, [] => []
  | b, e :: rest => ⟨b, e, (b.step e).2, (b.step e).1⟩ :: run (b.step e).1 rest

/-- The state of a flow: as the table holds it, or as it was closed. -/
def flow? : Option FastPathConn :=
  b.fastPathConns.lookup key <|> (b.closed.find? fun e => e.1 == key).map Prod.snd

/-! ## Promotion -/

/-- Whether the flow goes to an inline reader: it is eligible, and the sink, if
there is one, took the clone of the socket. -/
def promotesInline (init : FastPathInit) (sinkTakes : Bool) : Bool :=
  let inlineEligible := decide (gsoSegmentMss ≤ init.peerMss.toNat) && decide (key ∉ b.flowControls)
  sinkTakes && inlineEligible && !key.srcIp.isIpv6 && !key.dstIp.isIpv6

/-- `promote_to_fast_path`.  `observed` says whether an observer is installed. -/
def promoteToFastPath (init : FastPathInit) (sinkTakes observed : Bool) (now : Instant) :
    TcpBridge :=
  let inlineOwned := b.promotesInline key init sinkTakes
  { b with
    fastPathReadBuf :=
      if !inlineOwned && b.fastPathReadBuf == 0 then 128 * 1024 else b.fastPathReadBuf
    fastPathConns :=
      b.fastPathConns.insert key (FastPathConn.promoted key init inlineOwned observed now) }

/-- Every flow is stored under its own addresses. -/
def Keyed : Prop := ∀ key c, b.fastPathConns.lookup key = some c → c.key = key

theorem keyed_new : TcpBridge.new.Keyed := by
  intro key c hc
  simp [TcpBridge.new] at hc

theorem keyed_promoteToFastPath {b : TcpBridge} (hb : b.Keyed) (key : SynFlowKey)
    (init : FastPathInit) (sinkTakes observed : Bool) (now : Instant) :
    (b.promoteToFastPath key init sinkTakes observed now).Keyed := by
  intro k c hc
  simp only [promoteToFastPath] at hc
  rcases Table.of_lookup_insert hc with ⟨rfl, rfl⟩ | ⟨-, hold⟩
  · rfl
  · exact hb k c hold

/-! ## What a call does to one flow -/

/-- The flow `key` is in state `c`: in the table if `live`, else closed in that
state. -/
def Has (c : FastPathConn) (live : Bool) : Prop :=
  b.fastPathConns.lookup key = (if live then some c else none) ∧
    (live = false → b.closed.find? (fun e => e.1 == key) = some (key, c))

/-- The effects a call can have on one flow: frames that hold all those handed out
for it, its state afterwards, and whether it is still in the table. -/
inductive FlowStep (key : SynFlowKey) (e : Event) (c : FastPathConn) :
    List TcpFrame → FastPathConn → Bool → Prop
  /-- The call is about other flows. -/
  | idle (hidle : ∀ env, e ≠ .poll env) : FlowStep key e c [] c true
  | abandoned : FlowStep key e c [] c false
  | intercept {bareIp : Bool} {env : FastPathConn.InterceptEnv} {t : TcpView}
      {following : List (Option TcpView)} (macs : LinkMacs)
      (he : e = .intercept bareIp env (some t :: following)) (hkey : t.key = key) :
      FlowStep key e c (c.intercept macs env t following).reply.toList
        (c.intercept macs env t following).conn !(c.intercept macs env t following).close
  /-- The flow is polled; a signal raised meanwhile abandons it and mutes it. -/
  | poll (ctx : FrameCtx) (now timeout : Instant) (bufCap : Nat) (env : FastPathConn.PollEnv)
      {live : Bool} (hlive : live = true → (c.poll ctx now timeout bufCap env).remove = false) :
      FlowStep key e c (c.poll ctx now timeout bufCap env).frames
        (c.poll ctx now timeout bufCap env).conn live
  | reader (cells : OwnerCells) (hinline : c.inlineOwned = true) :
      FlowStep key e c [] (c.setOwnerCells cells) true

section Has

variable {b : TcpBridge} {key : SynFlowKey} {c : FastPathConn} {live : Bool}

section

variable (h : b.Has key c live)

include h

theorem has_closeFastPath (key' : SynFlowKey) :
    (b.closeFastPath key').Has key c (live && key' != key) := by
  obtain ⟨hlook, hclosed⟩ := h
  by_cases hk : key' = key
  · subst hk
    simp only [bne_self_eq_false, Bool.and_false, Has, closeFastPath, AList.lookup_erase,
      Bool.false_eq_true, if_false, true_and, forall_true_left]
    cases live with
    | true => simp [hlook]
    | false => simpa [hlook] using hclosed rfl
  have hne : (key' != key) = true := by simpa using hk
  rw [hne, Bool.and_true]
  refine ⟨?_, fun hlive => ?_⟩
  · simp only [closeFastPath]
    rw [AList.lookup_erase_ne (Ne.symm hk), hlook]
  simp only [closeFastPath, List.find?_append]
  have hskip : ((b.fastPathConns.lookup key').toList.map fun c => (key', c)).find?
      (fun e => e.1 == key) = none := by
    simp [List.find?_eq_none, hk]
  rw [hskip, Option.none_or]
  exact hclosed hlive

theorem has_abandonFlow (key' : SynFlowKey) (state : AbandonedConn) :
    ∃ live', (b.abandonFlow key' state).Has key c live' ∧ (live' = true → live = true) :=
  ⟨_, has_closeFastPath h key', fun ht => (Bool.and_eq_true _ _ ▸ ht).1⟩

theorem has_foldl_close (keys : List SynFlowKey) :
    (keys.foldl closeFastPath b).Has key c (live && !keys.contains key) := by
  induction keys generalizing b live with
  | nil => simpa using h
  | cons k rest ih =>
    have hstep := ih (has_closeFastPath h k)
    rw [foldl_cons, contains_cons]
    have hcomm : (live && (k != key) && !rest.contains key) = (live && !(key == k || rest.contains key)) := by
      rw [Bool.beq_comm]
      cases live <;> cases hk : (k == key) <;> simp [bne, hk]
    rwa [hcomm] at hstep

/-- A loop of steps that reopen no flow. -/
theorem has_foldl {α : Type} {f : TcpBridge → α → TcpBridge}
    (hf : ∀ b live a, b.Has key c live →
      ∃ live', (f b a).Has key c live' ∧ (live' = true → live = true)) (l : List α) :
    ∃ live', (l.foldl f b).Has key c live' ∧ (live' = true → live = true) := by
  refine foldlRecOn (motive := fun b => ∃ live', b.Has key c live' ∧ (live' = true → live = true))
    l f ⟨live, h, id⟩ fun b hb a _ => ?_
  obtain ⟨live₁, hhas₁, hlive₁⟩ := hb
  obtain ⟨live₂, hhas₂, hlive₂⟩ := hf b live₁ a hhas₁
  exact ⟨live₂, hhas₂, hlive₁ ∘ hlive₂⟩

theorem has_prepareControlledPoll (now : Instant) (raised : Nat → Bool) :
    ∃ live', (b.prepareControlledPoll now raised).1.Has key c live'
      ∧ (live' = true → live = true) := by
  have hretained : (b.dropIdleAbandoned now).Has key c live := h
  exact has_foldl hretained (fun _ _ conn hb => has_abandonFlow hb conn.key conn.before) _

theorem has_foldl_finish (flows : List ControlledPoll) :
    ∃ live', (flows.foldl (fun b conn =>
          if conn.key ∈ b.abandonedConns then b else b.abandonFlow conn.key conn.before) b).Has
        key c live'
      ∧ (live' = true → live = true) := by
  refine has_foldl h (fun b live conn hb => ?_) flows
  split
  · exact ⟨live, hb, id⟩
  · exact has_abandonFlow hb conn.key conn.before

end

end Has

variable {b : TcpBridge}

theorem keyed_closeFastPath (hb : b.Keyed) (key : SynFlowKey) : (b.closeFastPath key).Keyed := by
  intro k c hc
  simp only [closeFastPath] at hc
  exact hb k c (Table.of_lookup_erase hc).2

theorem keyed_setConn (hb : b.Keyed) {key : SynFlowKey} {c : FastPathConn} (hc : c.key = key) :
    (b.setConn key c).Keyed := by
  intro k c' hk
  simp only [setConn] at hk
  rcases Table.of_lookup_insert hk with ⟨rfl, rfl⟩ | ⟨-, hold⟩
  · exact hc
  · exact hb k c' hold

theorem keyed_prepareControlledPoll (hb : b.Keyed) (now : Instant) (raised : Nat → Bool) :
    (b.prepareControlledPoll now raised).1.Keyed :=
  foldlRecOn _ _ hb fun _ h conn _ => keyed_closeFastPath h conn.key

theorem keyed_polledConns (hb : b.Keyed) (env : BridgePollEnv) : (b.polledConns env).Keyed := by
  intro k c hc
  simp only [polledConns, Table.lookup_mapVal, Option.map_eq_some_iff] at hc
  obtain ⟨c₀, hc₀, rfl⟩ := hc
  rw [pollFlow, FastPathConn.key_poll]
  exact hb k c₀ hc₀

theorem keyed_pollFastPath (hb : b.Keyed) (env : BridgePollEnv) : (b.pollFastPath env).1.Keyed := by
  have hprep := keyed_prepareControlledPoll hb env.preparedAt env.raisedBefore
  have hpolled := keyed_polledConns hprep env
  refine foldlRecOn _ _ ?_ fun _ h key _ => keyed_closeFastPath h key
  refine foldlRecOn _ _ hpolled fun b h conn _ => ?_
  split
  · exact h
  · exact keyed_closeFastPath h conn.key

theorem interceptOpenAt_cases (b : TcpBridge) (bareIp : Bool) (env : FastPathConn.InterceptEnv)
    (frames : List (Option TcpView)) :
    b.interceptOpenAt bareIp env frames = (b, none) ∨
      ∃ t following c, frames = some t :: following ∧ b.fastPathConns.lookup t.key = some c ∧
        b.interceptOpenAt bareIp env frames =
          let r := c.intercept b.macs env t following
          (if r.close then (b.setConn t.key r.conn).closeFastPath t.key else b.setConn t.key r.conn,
            some (r.consumed, r.reply)) := by
  cases frames with
  | nil => exact .inl rfl
  | cons frame following =>
    cases frame with
    | none => exact .inl rfl
    | some t =>
      simp only [interceptOpenAt]
      split
      · exact .inl rfl
      split
      · exact .inl rfl
      next c hc =>
        exact .inr ⟨t, following, c, rfl, hc, rfl⟩

theorem keyed_step (hb : b.Keyed) (e : Event) : (b.step e).1.Keyed := by
  cases e with
  | intercept bareIp env frames =>
    simp only [step]
    rcases interceptOpenAt_cases b bareIp env frames with heq | ⟨t, following, c, rfl, hc, heq⟩
    · rw [heq]
      exact hb
    have hkey : (c.intercept b.macs env t following).conn.key = t.key :=
      (FastPathConn.intercept_spec c b.macs env t following).1.trans (hb t.key c hc)
    rw [heq]
    dsimp only
    split
    · exact keyed_closeFastPath (keyed_setConn hb hkey) t.key
    · exact keyed_setConn hb hkey
  | poll env => exact keyed_pollFastPath hb env
  | reader key cells =>
    simp only [step]
    split
    next c hc =>
      split
      · exact keyed_setConn hb (hb key c hc)
      · exact hb
    · exact hb

section StepFlow

variable {key : SynFlowKey} {c : FastPathConn}

theorem has_of_lookup (h : b.fastPathConns.lookup key = some c) : b.Has key c true := ⟨h, nofun⟩

theorem has_setConn_self (b : TcpBridge) (key : SynFlowKey) (c : FastPathConn) :
    (b.setConn key c).Has key c true := has_of_lookup (AList.lookup_insert _)

theorem has_setConn_ne {live : Bool} (h : b.Has key c live) {key' : SynFlowKey}
    (hne : key ≠ key') (c' : FastPathConn) : (b.setConn key' c').Has key c live :=
  ⟨(AList.lookup_insert_ne hne).trans h.1, h.2⟩

theorem step_flow_intercept (hb : b.Keyed) (h : b.fastPathConns.lookup key = some c)
    (bareIp : Bool) (env : FastPathConn.InterceptEnv) (frames : List (Option TcpView)) :
    ∃ out c' live, FlowStep key (.intercept bareIp env frames) c out c' live
      ∧ (b.step (.intercept bareIp env frames)).1.Has key c' live
      ∧ ∀ f ∈ (b.step (.intercept bareIp env frames)).2, f.flow = key → f ∈ out := by
  simp only [step]
  rcases interceptOpenAt_cases b bareIp env frames with heq | ⟨t, following, c₀, rfl, hc₀, heq⟩
  · rw [heq]
    exact ⟨[], c, true, .idle nofun, has_of_lookup h, by simp⟩
  rw [heq]
  by_cases hk : t.key = key
  · subst hk
    rw [h, Option.some.injEq] at hc₀
    subst hc₀
    refine ⟨_, _, _, .intercept b.macs rfl rfl, ?_, ?_⟩
    · have hset := has_setConn_self b t.key (c.intercept b.macs env t following).conn
      cases hclose : (c.intercept b.macs env t following).close with
      | false => simpa [hclose] using hset
      | true => simpa [hclose] using has_closeFastPath hset t.key
    · intro f hf _
      simpa using hf
  have hset := has_setConn_ne (has_of_lookup h) (Ne.symm hk)
    (c₀.intercept b.macs env t following).conn
  refine ⟨[], c, true, .idle nofun, ?_, ?_⟩
  · dsimp only
    split
    · have hclosed := has_closeFastPath hset t.key
      rwa [bne_iff_ne.mpr hk] at hclosed
    · exact hset
  intro f hf hflow
  obtain ⟨hkey, hemits⟩ := FastPathConn.intercept_spec c₀ b.macs env t following
  simp only [Option.bind_some, Option.mem_toList] at hf
  have := (hemits f hf).flow_eq
  rw [hkey, hb t.key c₀ hc₀, hflow] at this
  exact absurd this.symm hk

theorem mem_polledFrames (hb : b.Keyed) (env : BridgePollEnv) {f : TcpFrame}
    (hf : f ∈ b.polledFrames env) (hflow : f.flow = key) :
    ∃ c, b.fastPathConns.lookup key = some c ∧ f ∈ (b.pollFlow env key c).frames := by
  simp only [polledFrames, mem_flatMap] at hf
  obtain ⟨⟨k, c'⟩, hmem, hf⟩ := hf
  have hlook : b.fastPathConns.lookup k = some c' := Table.lookup_eq_some_iff.mpr hmem
  have hk : f.flow = k := (FastPathConn.flow_poll hf).trans (hb k c' hlook)
  rw [hflow] at hk
  subst hk
  exact ⟨c', hlook, hf⟩

theorem poll_closed (hb : b.Keyed) (h : b.Has key c false) (env : BridgePollEnv)
    (controlled : List ControlledPoll) :
    let finished := (b.polledConns env).finishControlledPoll controlled env.raisedAfter
      (b.polledFrames env)
    ((b.toRemove env).foldl closeFastPath finished.1).Has key c false
      ∧ ∀ f ∈ finished.2, f.flow ≠ key := by
  have hlook : b.fastPathConns.lookup key = none := h.1
  have hhas₂ : (b.polledConns env).Has key c false := by
    refine ⟨?_, h.2⟩
    rw [polledConns, Table.lookup_mapVal, hlook]
    rfl
  obtain ⟨live₃, hhas₃, hlive₃⟩ := has_foldl_finish hhas₂
    (controlled.filter fun conn => env.raisedAfter conn.signal)
  have hlive : live₃ = false := Bool.eq_false_iff.mpr fun ht => absurd (hlive₃ ht) (by decide)
  subst hlive
  refine ⟨has_foldl_close hhas₃ (b.toRemove env), ?_⟩
  intro f hf hflow
  obtain ⟨c', hc', -⟩ := mem_polledFrames hb env (mem_filter.mp hf).1 hflow
  rw [hlook] at hc'
  cases hc'

theorem step_flow_poll (hb : b.Keyed) (h : b.fastPathConns.lookup key = some c)
    (env : BridgePollEnv) :
    ∃ out c' live, FlowStep key (.poll env) c out c' live
      ∧ (b.step (.poll env)).1.Has key c' live
      ∧ ∀ f ∈ (b.step (.poll env)).2, f.flow = key → f ∈ out := by
  simp only [step, pollFastPath]
  have hb₁ := keyed_prepareControlledPoll hb env.preparedAt env.raisedBefore
  obtain ⟨live₁, hhas₁, -⟩ :=
    has_prepareControlledPoll (has_of_lookup h) env.preparedAt env.raisedBefore
  generalize (b.prepareControlledPoll env.preparedAt env.raisedBefore).2 = controlled
  generalize (b.prepareControlledPoll env.preparedAt env.raisedBefore).1 = b₁ at hb₁ hhas₁
  have hframes : ∀ f ∈ ((b₁.polledConns env).finishControlledPoll controlled env.raisedAfter
      (b₁.polledFrames env)).2, f ∈ b₁.polledFrames env := by
    intro f hf
    exact (mem_filter.mp hf).1
  cases live₁ with
  | true =>
    have hlook : b₁.fastPathConns.lookup key = some c := hhas₁.1
    have hhas₂ : (b₁.polledConns env).Has key (b₁.pollFlow env key c).conn true := by
      refine has_of_lookup ?_
      rw [polledConns, Table.lookup_mapVal, hlook]
      rfl
    obtain ⟨live₃, hhas₃, -⟩ := has_foldl_finish hhas₂
      (controlled.filter fun conn => env.raisedAfter conn.signal)
    have hhas₄ := has_foldl_close hhas₃ (b₁.toRemove env)
    refine ⟨_, _, _, .poll b₁.frameCtx env.now b₁.deadFlowTimeout b₁.readBufCap (env.flow key) ?_,
      hhas₄, ?_⟩
    · intro hlive
      rw [Bool.and_eq_true, Bool.not_eq_true', contains_eq_mem, decide_eq_false_iff_not] at hlive
      refine Bool.eq_false_iff.mpr fun hremove => hlive.2 ?_
      refine mem_map.mpr ⟨⟨key, c⟩, mem_filter.mpr ⟨?_, hremove⟩, rfl⟩
      exact Table.lookup_eq_some_iff.mp hlook
    intro f hf hflow
    obtain ⟨c', hc', hmem⟩ := mem_polledFrames hb₁ env (hframes f hf) hflow
    rw [hlook, Option.some.injEq] at hc'
    subst hc'
    exact hmem
  | false =>
    obtain ⟨hhas, hsilent⟩ := poll_closed hb₁ hhas₁ env controlled
    exact ⟨[], c, false, .abandoned, hhas, fun f hf hflow => absurd hflow (hsilent f hf)⟩

theorem step_flow (hb : b.Keyed) (h : b.fastPathConns.lookup key = some c) (e : Event) :
    ∃ out c' live, FlowStep key e c out c' live ∧ (b.step e).1.Has key c' live
      ∧ ∀ f ∈ (b.step e).2, f.flow = key → f ∈ out := by
  cases e with
  | intercept bareIp env frames => exact step_flow_intercept hb h bareIp env frames
  | poll env => exact step_flow_poll hb h env
  | reader key' cells =>
    simp only [step]
    split
    next c' hc' =>
      split
      next hinline =>
        by_cases hk : key' = key
        · subst hk
          rw [h, Option.some.injEq] at hc'
          subst hc'
          exact ⟨[], _, true, .reader cells hinline, has_setConn_self b key' _, by simp⟩
        · exact ⟨[], c, true, .idle nofun, has_setConn_ne (has_of_lookup h) (Ne.symm hk) _, by simp⟩
      · exact ⟨[], c, true, .idle nofun, has_of_lookup h, by simp⟩
    · exact ⟨[], c, true, .idle nofun, has_of_lookup h, by simp⟩

theorem step_closed (hb : b.Keyed) (h : b.Has key c false) (e : Event) :
    (b.step e).1.Has key c false ∧ ∀ f ∈ (b.step e).2, f.flow ≠ key := by
  have hlook : b.fastPathConns.lookup key = none := h.1
  cases e with
  | intercept bareIp env frames =>
    simp only [step]
    rcases interceptOpenAt_cases b bareIp env frames with heq | ⟨t, following, c₀, rfl, hc₀, heq⟩
    · rw [heq]
      exact ⟨h, by simp⟩
    have hne : key ≠ t.key := by
      rintro rfl
      rw [hlook] at hc₀
      cases hc₀
    have hset := has_setConn_ne h hne (c₀.intercept b.macs env t following).conn
    obtain ⟨hkey, hemits⟩ := FastPathConn.intercept_spec c₀ b.macs env t following
    rw [heq]
    refine ⟨?_, ?_⟩
    · dsimp only
      split
      · exact has_closeFastPath hset t.key
      · exact hset
    intro f hf hflow
    simp only [Option.bind_some, Option.mem_toList] at hf
    have hfk := (hemits f hf).flow_eq
    rw [hkey, hb t.key c₀ hc₀, hflow] at hfk
    exact hne hfk
  | poll env =>
    obtain ⟨live, hhas, hlive⟩ := has_prepareControlledPoll h env.preparedAt env.raisedBefore
    have hdead : live = false := Bool.eq_false_iff.mpr fun ht => absurd (hlive ht) (by decide)
    subst hdead
    exact poll_closed (keyed_prepareControlledPoll hb env.preparedAt env.raisedBefore) hhas env _
  | reader key' cells =>
    simp only [step]
    split
    next c' hc' =>
      have hne : key ≠ key' := by
        rintro rfl
        rw [hlook] at hc'
        cases hc'
      split
      · exact ⟨has_setConn_ne h hne _, by simp⟩
      · exact ⟨h, by simp⟩
    · exact ⟨h, by simp⟩

end StepFlow

/-! ## What a run does to one flow -/

/-- What a record says about the flow `key`: a step from a state that satisfies
`Inv`, or the silence of a flow closed in a state that satisfies `Done`. -/
inductive RecordOk (key : SynFlowKey) (Inv Done : FastPathConn → Prop) (r : Record) : Prop
  | step {c c' : FastPathConn} {out : List TcpFrame} {live : Bool}
      (before : r.before.fastPathConns.lookup key = some c) (inv : Inv c)
      (flowStep : FlowStep key r.event c out c' live) (after : r.after.Has key c' live)
      (frames : ∀ f ∈ r.frames, f.flow = key → f ∈ out)
  | closed {c : FastPathConn} (before : r.before.Has key c false) (done : Done c)
      (after : r.after.Has key c false) (frames : ∀ f ∈ r.frames, f.flow ≠ key)

variable {key : SynFlowKey}

/-- The invariant rule for one flow in a run.  If every step of the flow the guard
allows keeps `Inv` while the flow lives and establishes `Done`, then every record
of a guarded run is as described. -/
theorem run_flow {Inv Done : FastPathConn → Prop} {Guard : FastPathConn → Event → Prop}
    (hstep : ∀ e c out c' live, Inv c → Guard c e → FlowStep key e c out c' live →
      (live = true → Inv c') ∧ Done c') (es : List Event) {b : TcpBridge} (hb : b.Keyed)
    (hflow : (∃ c, b.fastPathConns.lookup key = some c ∧ Inv c) ∨ ∃ c, b.Has key c false ∧ Done c)
    (hguard : ∀ r ∈ run b es, ∀ c, r.before.fastPathConns.lookup key = some c →
      Guard c r.event) : ∀ r ∈ run b es, RecordOk key Inv Done r := by
  induction es generalizing b with
  | nil => simp [run]
  | cons e rest ih =>
    simp only [run, forall_mem_cons] at hguard ⊢
    obtain ⟨hguard₀, hguards⟩ := hguard
    rcases hflow with ⟨c, hlook, hinv⟩ | ⟨c, hhas, hdone⟩
    · obtain ⟨out, c', live, hfs, hhas, hout⟩ := step_flow hb hlook e
      obtain ⟨hlive, hdone⟩ := hstep e c out c' live hinv (hguard₀ c hlook) hfs
      refine ⟨.step hlook hinv hfs hhas hout, ih (keyed_step hb e) ?_ hguards⟩
      cases live with
      | true => exact .inl ⟨c', hhas.1, hlive rfl⟩
      | false => exact .inr ⟨c', hhas, hdone⟩
    · obtain ⟨hhas', hsilent⟩ := step_closed hb hhas e
      exact ⟨.closed hhas hdone hhas' hsilent,
        ih (keyed_step hb e) (.inr ⟨c, hhas', hdone⟩) hguards⟩

theorem flow?_eq_of_has {c : FastPathConn} {live : Bool} (h : b.Has key c live) :
    b.flow? key = some c := by
  rw [flow?, h.1]
  cases live with
  | true => rfl
  | false =>
    rw [h.2 rfl]
    rfl

end TcpBridge

end Arcbox.Bridge

import Arcbox.Vsock.Credit
import Mathlib.Data.List.Infix

set_option autoImplicit false

/-!
# Vsock: guest-to-host streams

The payloads of a connection's `OP_RW` packets are one stream, and the host socket
should read a prefix of it.  Within a packet the write loop keeps the order, but it may
give up: after sixteen retries on `EAGAIN`, on an error, or when the socket takes
nothing.  The rest of that packet is gone, the connection stays, and the next packet is
written as if nothing were missing.
-/

namespace Arcbox.Vsock

open Foundation Foundation.History Relation List

/-- The guest's bytes on a connection, those the host socket took, and whether its answers failed
to deliver some packet. -/
structure Stream where
  received : Bytes
  written : Bytes
  broken : Bool
  deriving DecidableEq, Repr

namespace Stream

/-- A new connection's stream. -/
def fresh : Stream := ⟨[], [], false⟩

/-- The stream after an event. -/
def next (s : Stream) : ConnEvent → Stream
  | .opened => fresh
  | .received payload writes taken =>
    ⟨s.received ++ payload, s.written ++ taken,
      s.broken || !decide (Delivers payload.length writes)⟩
  | _ => s

/-- Once the answers of the host socket failed to deliver a packet, none of them is positive. -/
def Steady (s : Stream) : ConnEvent → Prop
  | .received _ writes _ => s.broken = true → ∀ answer ∈ writes, answer.count = 0
  | _ => True

/-- The bytes written are a prefix of the guest's. -/
def Gapless (s : Stream) : Prop := s.written <+: s.received

instance (s : Stream) : ∀ e, Decidable (s.Steady e)
  | .opened => .isTrue trivial
  | .credit _ _ => .isTrue trivial
  | .packet _ _ => .isTrue trivial
  | .received _ writes _ =>
    inferInstanceAs (Decidable (_ → ∀ answer ∈ writes, answer.count = 0))

instance (s : Stream) : Decidable s.Gapless := inferInstanceAs (Decidable (_ <+: _))

/-- The stream of a connection, from its events. -/
def of (l : List ConnEvent) : Stream := after next fresh l

theorem of_concat (l : List ConnEvent) (e : ConnEvent) : of (l ++ [e]) = (of l).next e := by
  rw [of, after_append, after_cons, after_nil, of]

/-- Nothing is missing until a packet was not delivered, and nothing is out of order after. -/
structure Whole (s : Stream) : Prop where
  gapless : s.Gapless
  all : s.broken = false → s.written = s.received

theorem Whole.received {s : Stream} (h : s.Whole) {payload taken : Bytes}
    {writes : List WriteOutcome} (hforwarded : Forwarded payload writes taken)
    (hsteady : s.Steady (.received payload writes taken)) :
    (s.next (.received payload writes taken)).Whole := by
  cases hbroken : s.broken with
  | true =>
    have hnothing : taken = [] := hforwarded.nothing fun n hmem =>
      Nat.succ_ne_zero n (hsteady hbroken _ hmem)
    refine ⟨?_, fun hwhole => ?_⟩
    · show s.written ++ taken <+: s.received ++ payload
      rw [hnothing, append_nil]
      exact h.gapless.trans (prefix_append _ _)
    · rw [next, hbroken] at hwhole
      cases hwhole
  | false =>
    have heq := h.all hbroken
    refine ⟨?_, fun hwhole => ?_⟩
    · show s.written ++ taken <+: s.received ++ payload
      rw [heq]
      exact (prefix_append_right_inj _).mpr hforwarded.ordered
    · simp only [next, hbroken, Bool.false_or, Bool.not_eq_false', decide_eq_true_eq] at hwhole
      show s.written ++ taken = s.received ++ payload
      rw [heq, hforwarded.whole hwhole]

end Stream

/-! ## Every run -/

/-- `fwd_cnt` counts the bytes written, and a steady socket leaves no gap. -/
structure StreamKept (v : ConnView) : Prop where
  fwdCnt : ∀ a, v.1 = some a → a.fwdCnt = BitVec.ofNat 32 (Stream.of v.2).written.length
  gapless : Throughout Stream.next .fresh Stream.Steady v.2 →
    (Stream.of v.2).Whole ∧ Throughout Stream.next .fresh (fun s e => (s.next e).Gapless) v.2

theorem StreamKept.keep {a : Option Account} {l : List ConnEvent} (h : StreamKept (a, l))
    {a' : Option Account} {e : ConnEvent} (hfwd : ∀ c', a' = some c' → ∃ c, a = some c ∧
      c'.fwdCnt = c.fwdCnt) (he : ∀ s : Stream, s.next e = s) : StreamKept (a', l ++ [e]) where
  fwdCnt := by
    intro c' hc'
    obtain ⟨c, hc, heq⟩ := hfwd c' hc'
    rw [Stream.of_concat, he, heq]
    exact h.fwdCnt c hc
  gapless := by
    intro hsteady
    have hkept := h.gapless (throughout_concat.mp hsteady).1
    rw [Stream.of_concat, he]
    refine ⟨hkept.1, throughout_concat.mpr ⟨hkept.2, ?_⟩⟩
    rw [he]
    exact hkept.1.gapless

theorem StreamKept.step {v v' : ConnView} (h : StreamKept v) (hstep : ConnStep v v') :
    StreamKept v' := by
  cases hstep with
  | opened a l =>
    refine ⟨?_, fun hsteady => ?_⟩
    · rintro a' ⟨⟩
      rw [Stream.of_concat]
      rfl
    · have hkept := h.gapless (throughout_concat.mp hsteady).1
      rw [Stream.of_concat]
      exact ⟨⟨ nil_prefix, fun _ => rfl⟩, throughout_concat.mpr ⟨hkept.2, nil_prefix⟩⟩
  | removed a l =>
    refine ⟨?_, h.gapless⟩
    rintro a' ⟨⟩
  | credit a l bufAlloc fwdCnt =>
    refine h.keep ?_ fun _ => rfl
    rintro c' ⟨⟩
    exact ⟨a, rfl, rfl⟩
  | control a l hdr hop => exact h.keep (fun c hc => ⟨c, hc, rfl⟩) fun _ => rfl
  | data a l hdr payload hle =>
    refine h.keep ?_ fun _ => rfl
    rintro c' ⟨⟩
    exact ⟨a, rfl, rfl⟩
  | @received a l payload taken writes hforwarded =>
    refine ⟨?_, fun hsteady => ?_⟩
    · rintro a' ⟨⟩
      have hwritten : (Stream.of (l ++ [.received payload writes taken])).written.length
          = (Stream.of l).written.length + taken.length := by
        rw [Stream.of_concat]
        exact length_append
      rw [hwritten, BitVec.ofNat_add, ← h.fwdCnt a rfl]
    rw [throughout_concat] at hsteady
    have hkept := h.gapless hsteady.1
    have hnext := hkept.1.received hforwarded hsteady.2
    rw [Stream.of_concat]
    exact ⟨hnext, throughout_concat.mpr ⟨hkept.2, hnext.gapless⟩⟩

theorem StreamKept.run {v v' : ConnView} (h : StreamKept v) (hrun : ReflTransGen ConnStep v v') :
    StreamKept v' := by
  induction hrun with
  | refl => exact h
  | tail _ hstep ih => exact ih.step hstep

theorem streamKept_start : StreamKept (none, []) where
  fwdCnt := by rintro a ⟨⟩
  gapless := fun _ => ⟨⟨ nil_prefix, fun _ => rfl⟩, throughout_nil⟩

/-- In every run in which the answers of a connection's host socket deliver every packet, or are
never positive again after a packet they did not deliver, what was written is at all times a
prefix of the guest's payloads, and `fwd_cnt` is the number of bytes written, modulo `2 ^ 32`. -/
theorem tx_stream_gapless (calls : List Device.Call) (d : Device) (id : VsockConnectionId)
    (hrun : Device.new.run calls = some d)
    (hsteady : Throughout Stream.next .fresh Stream.Steady (Device.eventsOf id d.log)) :
    Throughout Stream.next .fresh (fun s e => (s.next e).Gapless) (Device.eventsOf id d.log) ∧
      ∀ conn, d.mgr.connections.lookup id = some conn →
        conn.fwdCnt.toNat = (Stream.of (Device.eventsOf id d.log)).written.length % 2 ^ 32 := by
  have hacts : ReflTransGen ConnStep (none, []) (d.view id) := Device.acts_run calls hrun id
  have hkept := streamKept_start.run hacts
  refine ⟨(hkept.gapless hsteady).2, fun conn hlook => ?_⟩
  have hfwd : conn.account.fwdCnt
      = BitVec.ofNat 32 (Stream.of (Device.eventsOf id d.log)).written.length :=
    hkept.fwdCnt conn.account (by
      rw [Device.view, VsockConnectionManager.accounts, hlook, Option.map_some])
  have hfwd : conn.fwdCnt
      = BitVec.ofNat 32 (Stream.of (Device.eventsOf id d.log)).written.length := hfwd
  rw [hfwd, BitVec.toNat_ofNat]

/-! ## A slow reader -/

/-- A packet of the guest on the first connection. -/
def streamPacket (op : VsockOp) (payload : Bytes) (writes : List WriteOutcome) : TxChain :=
  ⟨some (VsockHeader.new ⟨3, 1024⟩ (.host 50000) op, payload), writes⟩

/-- The guest sends two packets; the socket takes one byte of the first, answers the rest
of it with `stall`, and takes the second. -/
def slowReaderCalls (stall : List WriteOutcome) : List Device.Call :=
  [.allocate 1024 3, .transmit [streamPacket .response [] []],
    .transmit [streamPacket .rw [1, 2] (.returned 1 :: stall),
      streamPacket .rw [3] [.returned 1]]]

/-- A reader that stalls for seventeen writes and comes back misses a byte. -/
theorem tx_stream_has_gap :
    ∃ d, Device.new.run (slowReaderCalls (List.replicate 17 .again)) = some d ∧
      ¬ (Stream.of (Device.eventsOf firstConnection d.log)).Gapless := ⟨_, rfl, by decide⟩

theorem tx_stream_gapless_sixteen :
    ∃ d, Device.new.run (slowReaderCalls (List.replicate 16 .again ++ [.returned 5])) = some d ∧
      Throughout Stream.next .fresh (fun s e => (s.next e).Gapless)
        (Device.eventsOf firstConnection d.log) :=
  ⟨_, rfl, (tx_stream_gapless (slowReaderCalls (List.replicate 16 .again ++ [.returned 5])) _
    firstConnection rfl (by decide)).1⟩

end Arcbox.Vsock

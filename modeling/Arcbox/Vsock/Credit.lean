import Arcbox.Foundation.History
import Arcbox.Vsock.Device

set_option autoImplicit false

/-!
# Vsock: host-to-guest credit

A packet for the guest has to fit into the buffer space the guest advertised, less
what is still in flight.  The device keeps the three counters modulo `2 ^ 32` and
subtracts them with wrap-around.  The ledger of a connection keeps them exactly.

The subtraction is exact as long as the guest's buffer covers what is in flight.  A
guest that lowers `buf_alloc` below that makes it wrap, and the device then believes
in a window of almost `2 ^ 32` bytes.
-/

namespace Arcbox.Vsock

open Foundation Foundation.History Relation BitVec

/-! ## The exact ledger -/

/-- The payload bytes sent on a connection, how many of them the guest has forwarded,
and the buffer it advertised. -/
structure Ledger where
  sent : Nat
  acked : Nat
  bufAlloc : Nat
  deriving DecidableEq, Repr

namespace Ledger

/-- A new connection's counters. -/
def fresh : Ledger := ⟨0, 0, 0⟩

variable (L : Ledger)

/-- The total that a packet's `fwd_cnt` stands for: the counter only advances. -/
def advance (fwdCnt : BitVec 32) : Nat := L.acked + (fwdCnt - BitVec.ofNat 32 L.acked).toNat

/-- The counters after an event. -/
def next : ConnEvent → Ledger
  | .opened => fresh
  | .credit bufAlloc fwdCnt => { L with acked := L.advance fwdCnt, bufAlloc := bufAlloc.toNat }
  | .packet _ payload => { L with sent := L.sent + payload.length }
  | .received _ _ _ => L

/-- The guest forwards only what was delivered. -/
def Delivered : ConnEvent → Prop
  | .credit _ fwdCnt => L.advance fwdCnt ≤ L.sent
  | _ => True

/-- The buffer the guest advertises covers what is in flight. -/
def Covered : ConnEvent → Prop
  | .credit bufAlloc fwdCnt => L.sent - L.advance fwdCnt ≤ bufAlloc.toNat
  | _ => True

/-- A packet fits into the advertised buffer next to what is in flight. -/
def WithinCredit : ConnEvent → Prop
  | .packet _ payload => payload.length ≤ L.bufAlloc - (L.sent - L.acked)
  | _ => True

instance (L : Ledger) : ∀ e, Decidable (L.Delivered e)
  | .opened => .isTrue trivial
  | .credit _ _ => Nat.decLe _ _
  | .packet _ _ => .isTrue trivial
  | .received _ _ _ => .isTrue trivial

instance (L : Ledger) : ∀ e, Decidable (L.Covered e)
  | .opened => .isTrue trivial
  | .credit _ _ => Nat.decLe _ _
  | .packet _ _ => .isTrue trivial
  | .received _ _ _ => .isTrue trivial

instance (L : Ledger) : ∀ e, Decidable (L.WithinCredit e)
  | .opened => .isTrue trivial
  | .credit _ _ => .isTrue trivial
  | .packet _ _ => Nat.decLe _ _
  | .received _ _ _ => .isTrue trivial

/-- The ledger of a connection, from its events. -/
def of (l : List ConnEvent) : Ledger := after next fresh l

theorem of_concat (l : List ConnEvent) (e : ConnEvent) : of (l ++ [e]) = (of l).next e := by
  rw [of, after_append, after_cons, after_nil, of]

theorem ofNat_advance (fwdCnt : BitVec 32) : BitVec.ofNat 32 (L.advance fwdCnt) = fwdCnt := by
  rw [advance, BitVec.ofNat_add, BitVec.ofNat_toNat, BitVec.setWidth_eq, BitVec.add_comm,
    sub_add_cancel]

end Ledger

/-! ## The account follows the ledger -/

/-- The account counts the ledger modulo `2 ^ 32`, and the window is not negative. -/
structure Tracks (a : Account) (L : Ledger) : Prop where
  rxCnt : a.rxCnt = BitVec.ofNat 32 L.sent
  peerFwdCnt : a.peerFwdCnt = BitVec.ofNat 32 L.acked
  peerBufAlloc : a.peerBufAlloc.toNat = L.bufAlloc
  acked_le : L.acked ≤ L.sent
  inFlight_le : L.sent - L.acked ≤ L.bufAlloc

theorem tracks_fresh : Tracks Account.zero Ledger.fresh := ⟨rfl, rfl, rfl, .refl, .refl⟩

namespace Tracks

variable {a : Account} {L : Ledger}

theorem toNat_inFlight (h : Tracks a L) : (a.rxCnt - a.peerFwdCnt).toNat = L.sent - L.acked := by
  have hbuf := a.peerBufAlloc.isLt
  have hle := h.acked_le
  have hin := h.inFlight_le
  rw [h.peerBufAlloc] at hbuf
  rw [h.rxCnt, h.peerFwdCnt, toNat_sub, toNat_ofNat, toNat_ofNat]
  omega

/-- The wrapping subtraction of `peer_avail_credit` is exact. -/
theorem credit_eq (h : Tracks a L) : a.credit = L.bufAlloc - (L.sent - L.acked) := by
  have hle : a.rxCnt - a.peerFwdCnt ≤ a.peerBufAlloc := by
    rw [le_def, h.toNat_inFlight, h.peerBufAlloc]
    exact h.inFlight_le
  rw [Account.credit, toNat_sub_of_le hle, h.toNat_inFlight, h.peerBufAlloc]

theorem credit (h : Tracks a L) {bufAlloc fwdCnt : BitVec 32}
    (hdelivered : L.Delivered (.credit bufAlloc fwdCnt))
    (hcovered : L.Covered (.credit bufAlloc fwdCnt)) :
    Tracks { a with peerBufAlloc := bufAlloc, peerFwdCnt := fwdCnt }
      (L.next (.credit bufAlloc fwdCnt)) where
  rxCnt := h.rxCnt
  peerFwdCnt := (L.ofNat_advance fwdCnt).symm
  peerBufAlloc := rfl
  acked_le := hdelivered
  inFlight_le := hcovered

theorem data (h : Tracks a L) (hdr : VsockHeader) {payload : Bytes}
    (hle : payload.length ≤ a.credit) :
    Tracks { a with rxCnt := a.rxCnt + BitVec.ofNat 32 payload.length }
      (L.next (.packet hdr payload)) where
  __ := h
  rxCnt := by
    rw [h.rxCnt, ← ofNat_add]
    rfl
  acked_le := Nat.le_trans h.acked_le (Nat.le_add_right _ _)
  inFlight_le := by
    have hcredit := h.credit_eq
    have hin := h.inFlight_le
    have hacked := h.acked_le
    show L.sent + payload.length - L.acked ≤ L.bufAlloc
    omega

end Tracks

/-! ## Every run stays within credit -/

/-- What a connection keeps while its guest is honest and covers what is in flight. -/
def CreditKept (v : ConnView) : Prop :=
  Throughout Ledger.next .fresh Ledger.Delivered v.2 →
    Throughout Ledger.next .fresh Ledger.Covered v.2 →
      (∀ a, v.1 = some a → Tracks a (Ledger.of v.2)) ∧
        Throughout Ledger.next .fresh Ledger.WithinCredit v.2

/-- One more event, from what the connection kept before it. -/
theorem CreditKept.note {x x' : Option Account} {l : List ConnEvent} {e : ConnEvent}
    (h : CreditKept (x, l))
    (hnext : (∀ a, x = some a → Tracks a (Ledger.of l)) → (Ledger.of l).Delivered e →
      (Ledger.of l).Covered e → (∀ a, x' = some a → Tracks a ((Ledger.of l).next e)) ∧
        (Ledger.of l).WithinCredit e) : CreditKept (x', l ++ [e]) := by
  intro hdelivered hcovered
  rw [throughout_concat] at hdelivered hcovered
  have hkept := h hdelivered.1 hcovered.1
  obtain ⟨htracks, hwithin⟩ := hnext hkept.1 hdelivered.2 hcovered.2
  refine ⟨?_, throughout_concat.mpr ⟨hkept.2, hwithin⟩⟩
  rw [Ledger.of_concat]
  exact htracks

theorem CreditKept.step {v v' : ConnView} (h : CreditKept v) (hstep : ConnStep v v') :
    CreditKept v' := by
  cases hstep with
  | opened a l =>
    refine h.note fun _ _ _ => ⟨?_, trivial⟩
    rintro a' ⟨⟩
    exact tracks_fresh
  | removed a l =>
    intro hdelivered hcovered
    refine ⟨?_, (h hdelivered hcovered).2⟩
    rintro a' ⟨⟩
  | credit a l bufAlloc fwdCnt =>
    refine h.note fun hkept hdelivered hcovered => ⟨?_, trivial⟩
    rintro a' ⟨⟩
    exact (hkept a rfl).credit hdelivered hcovered
  | control a l hdr hop => exact h.note fun hkept _ _ => ⟨hkept, Nat.zero_le _⟩
  | data a l hdr payload hle =>
    refine h.note fun hkept _ _ => ⟨?_, ?_⟩
    · rintro a' ⟨⟩
      exact (hkept a rfl).data hdr hle
    · rw [(hkept a rfl).credit_eq] at hle
      exact hle
  | received a l hforwarded =>
    refine h.note fun hkept _ _ => ⟨?_, trivial⟩
    rintro a' ⟨⟩
    have htracks := hkept a rfl
    exact ⟨htracks.rxCnt, htracks.peerFwdCnt, htracks.peerBufAlloc, htracks.acked_le,
      htracks.inFlight_le⟩

theorem CreditKept.run {v v' : ConnView} (h : CreditKept v) (hrun : ReflTransGen ConnStep v v') :
    CreditKept v' := by
  induction hrun with
  | refl => exact h
  | tail _ hstep ih => exact ih.step hstep

theorem creditKept_start : CreditKept (none, []) := by
  refine fun _ _ => ⟨?_, throughout_nil⟩
  rintro a ⟨⟩

/-- In every run whose guest forwards only delivered bytes and never advertises a buffer
below what is in flight, every packet of the connection stays within the exact credit,
and `rx_cnt` is the number of payload bytes sent, modulo `2 ^ 32`. -/
theorem poll_rx_injection_within_credit (calls : List Device.Call) (d : Device)
    (id : VsockConnectionId) (hrun : Device.new.run calls = some d)
    (hdelivered : Throughout Ledger.next .fresh Ledger.Delivered (Device.eventsOf id d.log))
    (hcovered : Throughout Ledger.next .fresh Ledger.Covered (Device.eventsOf id d.log)) :
    Throughout Ledger.next .fresh Ledger.WithinCredit (Device.eventsOf id d.log) ∧
      ∀ conn, d.mgr.connections.lookup id = some conn →
        conn.rxCnt.toNat = (Ledger.of (Device.eventsOf id d.log)).sent % 2 ^ 32 := by
  have hacts : ReflTransGen ConnStep (none, []) (d.view id) := Device.acts_run calls hrun id
  have hkept := creditKept_start.run hacts hdelivered hcovered
  refine ⟨hkept.2, fun conn hlook => ?_⟩
  have htracks := hkept.1 conn.account (by
    rw [Device.view, VsockConnectionManager.accounts, hlook, Option.map_some])
  have hrx : conn.rxCnt = BitVec.ofNat 32 (Ledger.of (Device.eventsOf id d.log)).sent :=
    htracks.rxCnt
  rw [hrx, toNat_ofNat]

/-! ## Two runs

A connection to port 1024 of guest 3 is opened, the guest accepts it with a window of
two bytes and the host sends two.  The guest then advertises a buffer of four bytes, or
of one. -/

/-- The connection that the first `allocate` opens. -/
def firstConnection : VsockConnectionId := ⟨50000, 1024⟩

/-- A packet of the guest on the first connection. -/
def guestPacket (op : VsockOp) (bufAlloc fwdCnt : BitVec 32) : TxChain :=
  ⟨some ({ VsockHeader.new ⟨3, 1024⟩ (.host 50000) op with bufAlloc := bufAlloc, fwdCnt := fwdCnt },
    []), []⟩

/-- A round that finds `peeks` on the sockets and fills the ring. -/
def plainRound (peeks : List (VsockConnectionId × PeekOutcome)) (turns : List Turn) : Round where
  resetHandled := true
  peeks := peeks
  ringUsable := true
  turns := turns
  eventIdx := false
  notifyNeeded := false
  tx := none
  requeue := []

/-- A round that finds `bytes` on the first connection. -/
def dataRound (bytes : Bytes) : Device.Call :=
  .poll (plainRound [(firstConnection, .data)]
    [⟨4096, some bytes, some 46⟩, ⟨4096, some [], some 44⟩, ⟨4096, none, none⟩])

/-- The guest advertises `bufAlloc` bytes after two were sent, none of them forwarded. -/
def windowCalls (bufAlloc : BitVec 32) : List Device.Call :=
  [.allocate 1024 3, .poll (plainRound [] [⟨4096, none, some 44⟩]),
    .transmit [guestPacket .response 2 0], dataRound [7, 8],
    .transmit [guestPacket .creditUpdate bufAlloc 0], dataRound [9]]

/-- The guest lowers its buffer to one byte while two are in flight: the next `OP_RW`
carries a byte although the window is closed. -/
theorem poll_rx_injection_overruns :
    ∃ d, Device.new.run (windowCalls 1) = some d ∧
      Throughout Ledger.next .fresh Ledger.Delivered (Device.eventsOf firstConnection d.log) ∧
      ¬ Throughout Ledger.next .fresh Ledger.WithinCredit
        (Device.eventsOf firstConnection d.log) := ⟨_, rfl, by decide, by decide⟩

theorem poll_rx_injection_within_credit_four :
    ∃ d, Device.new.run (windowCalls 4) = some d ∧
      Throughout Ledger.next .fresh Ledger.WithinCredit (Device.eventsOf firstConnection d.log) :=
  ⟨_, rfl, (poll_rx_injection_within_credit (windowCalls 4) _ firstConnection rfl (by decide)
    (by decide)).1⟩

end Arcbox.Vsock

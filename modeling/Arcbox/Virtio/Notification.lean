import Arcbox.Foundation.EventIndex
import Arcbox.Virtio.SplitQueue

set_option autoImplicit false

/-!
# Virtio: the EVENT_IDX handshake

A driver and a device work on one split queue in guest memory, each access to a
shared cell being one step.  Four roles step in any order: the driver posts to the
available ring and reaps the used ring, the device pops the available ring and
pushes to the used ring.  The device's steps are those of the `SplitQueue`
functions; the driver's are the counterparts the virtio specification asks for.

Each ring is an event-index channel: the steps on the queue are steps of the two
channels, and what holds of every channel then holds of the queue.
-/

namespace Arcbox.Virtio

open Foundation Foundation.EventIndex List SplitQueue BitVec Or

namespace SplitQueue

/-! ## The driver's accesses -/

variable (q : SplitQueue)

/-- The driver writes the `k`-th entry after the published ones. -/
def postEntry (k : Nat) (headIdx : BitVec 16) : SplitQueue :=
  let pos := q.availIdx + BitVec.ofNat 16 k
  { q with
    mem := q.mem.writeU16 (q.availGpa + 4 + pos.toNat % q.size.toNat * 2) headIdx }

/-- The driver advances `avail.idx`, of which it is the only writer. -/
def publishAvail (n : Nat) : SplitQueue :=
  { q with mem := q.mem.writeU16 q.availIdxGpa (q.availIdx + BitVec.ofNat 16 n) }

/-- The driver reads `avail_event`. -/
def availEvent : BitVec 16 := q.mem.readU16 q.availEventGpa

/-- The driver reads `used.idx`. -/
def usedIdxCell : BitVec 16 := q.mem.readU16 q.usedIdxGpa

/-- The cell `used_event`. -/
def usedEvent : BitVec 16 := q.mem.readU16 q.usedEventGpa

/-- The driver stores `used_event`. -/
def writeUsedEvent (lastUsed : BitVec 16) : SplitQueue :=
  { q with mem := q.mem.writeU16 q.usedEventGpa lastUsed }

/-! ## The device's accesses -/

/-- `pop_avail` after it has found an entry: it reads the entry and advances its
cursor. -/
def advanceAvail : SplitQueue := { q with lastAvailIdx := q.lastAvailIdx + 1 }

/-- `push_used` up to the store of `used.idx`. -/
def enterUsed (headIdx : BitVec 16) (len : BitVec 32) : SplitQueue :=
  { q.writeUsedEntry headIdx len with usedIdx := q.usedIdx + 1 }

/-! ## The cells -/

/-- Both rings are in guest memory and do not overlap. -/
structure RingsMapped (q : SplitQueue) : Prop where
  size : 0 < q.size.toNat
  avail : q.mem.Mapped q.availGpa (6 + q.size.toNat * 2)
  used : q.mem.Mapped q.usedGpa (6 + q.size.toNat * 8)
  disjoint : q.availGpa + (6 + q.size.toNat * 2) ≤ q.usedGpa
    ∨ q.usedGpa + (6 + q.size.toNat * 8) ≤ q.availGpa

/-- The four cells of the handshake. -/
inductive Cell where
  | availIdx
  | availEvent
  | usedIdx
  | usedEvent
  deriving DecidableEq, Repr

/-- Where a cell is. -/
def cellGpa : Cell → Nat
  | .availIdx => q.availIdxGpa
  | .availEvent => q.availEventGpa
  | .usedIdx => q.usedIdxGpa
  | .usedEvent => q.usedEventGpa

/-- The contents of the cells. -/
def cells (c : Cell) : BitVec 16 := q.mem.readU16 (q.cellGpa c)

def withMem (mem : GuestMem) : SplitQueue := { q with mem := mem }

/-- A store to a cell. -/
def store (c : Cell) (val : BitVec 16) : SplitQueue := q.withMem (q.mem.writeU16 (q.cellGpa c) val)

theorem publishAvail_eq (n : Nat) :
    q.publishAvail n = q.store .availIdx (q.cells .availIdx + BitVec.ofNat 16 n) := rfl

theorem writeAvailEvent_eq : q.writeAvailEvent = q.store .availEvent q.lastAvailIdx := rfl

theorem publishUsed_eq : q.publishUsed = q.store .usedIdx q.usedIdx := rfl

theorem writeUsedEvent_eq (lastUsed : BitVec 16) :
    q.writeUsedEvent lastUsed = q.store .usedEvent lastUsed := rfl

section Cells

variable {q : SplitQueue} (h : q.RingsMapped)

include h

theorem RingsMapped.write (gpa : Nat) (src : Bytes) :
    (q.withMem (q.mem.write gpa src)).RingsMapped :=
  ⟨h.size, GuestMem.mapped_write.mpr h.avail, GuestMem.mapped_write.mpr h.used, h.disjoint⟩

theorem RingsMapped.advanceAvail : q.advanceAvail.RingsMapped :=
  ⟨h.size, h.avail, h.used, h.disjoint⟩

theorem RingsMapped.enterUsed (headIdx : BitVec 16) (len : BitVec 32) :
    (q.enterUsed headIdx len).RingsMapped :=
  have hwrite := RingsMapped.write (RingsMapped.write h _ _) _ _
  ⟨hwrite.size, hwrite.avail, hwrite.used, hwrite.disjoint⟩

theorem RingsMapped.mapped_cell (c : Cell) : q.mem.Mapped (q.cellGpa c) 2 := by
  have havail := h.avail
  have hused := h.used
  simp only [GuestMem.Mapped] at havail hused ⊢
  cases c <;> simp only [cellGpa, availIdxGpa, availEventGpa, usedIdxGpa, usedEventGpa] <;> omega

theorem cells_store (c : Cell) (val : BitVec 16) (c' : Cell) :
    (q.store c val).cells c' = if c' = c then val else q.cells c' := by
  have hdisj := h.disjoint
  split
  next heq =>
    subst heq
    exact GuestMem.readU16_writeU16 (h.mapped_cell c') val
  rename_i hne
  refine GuestMem.readU16_write_of_disjoint (q.cellGpa c') ?_
  simp only [length_cons, length_nil]
  cases c <;> cases c' <;>
    simp only [cellGpa, availIdxGpa, availEventGpa, usedIdxGpa, usedEventGpa,
      not_true_eq_false] at hne ⊢ <;> omega

theorem cells_postEntry (k : Nat) (headIdx : BitVec 16) (c : Cell) :
    (q.postEntry k headIdx).cells c = q.cells c := by
  have hslot : (q.availIdx + BitVec.ofNat 16 k).toNat % q.size.toNat < q.size.toNat :=
    Nat.mod_lt _ h.size
  have hdisj := h.disjoint
  refine GuestMem.readU16_write_of_disjoint (q.cellGpa c) ?_
  simp only [length_cons, length_nil]
  cases c <;> simp only [cellGpa, availIdxGpa, availEventGpa, usedIdxGpa, usedEventGpa] <;> omega

theorem cells_enterUsed (headIdx : BitVec 16) (len : BitVec 32) (c : Cell) :
    (q.enterUsed headIdx len).cells c = q.cells c := by
  have hslot : q.usedIdx.toNat % q.size.toNat < q.size.toNat := Nat.mod_lt _ h.size
  have hdisj := h.disjoint
  refine (GuestMem.readU16_write_of_disjoint (q.cellGpa c) ?_).trans
    (GuestMem.readU16_write_of_disjoint (q.cellGpa c) ?_)
  all_goals
    simp only [length_cons, length_nil]
    cases c <;> simp only [cellGpa, availIdxGpa, availEventGpa, usedIdxGpa, usedEventGpa] <;> omega

end Cells

end SplitQueue

/-! ## The system -/

/-- A queue with the driver and the device at work on it: the notifications on their
way, where each of the four roles is, the driver's cursor in the used ring, and how
many entries went through each ring in all. -/
structure QueueSystem where
  q : SplitQueue
  kick : Bool
  irq : Bool
  driverPosts : ProducerPhase
  devicePops : ConsumerPhase
  devicePushes : ProducerPhase
  driverReaps : ConsumerPhase
  lastUsed : BitVec 16
  posted : Nat
  popped : Nat
  pushed : Nat
  reaped : Nat

namespace QueueSystem

/-- A step of one of the roles.  At most queue-size entries are outstanding in either
ring. -/
inductive Step : QueueSystem → QueueSystem → Prop where
  -- The driver posts: entry, `avail.idx`, `avail_event`, kick.
  | postEntry {s : QueueSystem} {k : Nat} {headIdx : BitVec 16} : s.driverPosts = .filling k →
      s.posted + k < s.popped + s.q.size.toNat →
      Step s { s with q := s.q.postEntry k headIdx, driverPosts := .filling (k + 1) }
  | publishAvail {s : QueueSystem} {n : Nat} : s.driverPosts = .filling n → 0 < n →
      Step s { s with
        q := s.q.publishAvail n, driverPosts := .published n, posted := s.posted + n }
  | readAvailEvent {s : QueueSystem} {n : Nat} : s.driverPosts = .published n →
      Step s { s with
        driverPosts :=
          .decided (vringNeedEvent s.q.availEvent s.q.availIdx (s.q.availIdx - BitVec.ofNat 16 n)) }
  | kick {s : QueueSystem} {b : Bool} : s.driverPosts = .decided b →
      Step s { s with driverPosts := .filling 0, kick := s.kick || b }
  -- The device pops until empty, then `enable_notification`.
  | checkAvail {s : QueueSystem} : s.devicePops = .draining →
      Step s { s with devicePops := if s.q.hasAvail then .popping else .drained }
  | popAvail {s : QueueSystem} : s.devicePops = .popping →
      Step s { s with q := s.q.advanceAvail, devicePops := .draining, popped := s.popped + 1 }
  | writeAvailEvent {s : QueueSystem} : s.devicePops = .drained →
      Step s { s with q := s.q.writeAvailEvent, devicePops := .armed }
  | recheckAvail {s : QueueSystem} : s.devicePops = .armed →
      Step s { s with devicePops := if s.q.hasAvail then .draining else .sleeping }
  | wakeDevice {s : QueueSystem} : s.devicePops = .sleeping → s.kick = true →
      Step s { s with devicePops := .draining, kick := false }
  -- The device pushes: entries, `used.idx`, `should_notify`, interrupt.
  | enterUsed {s : QueueSystem} {k : Nat} {headIdx : BitVec 16} {len : BitVec 32} :
      s.devicePushes = .filling k → s.pushed + k < s.reaped + s.q.size.toNat →
      Step s { s with q := s.q.enterUsed headIdx len, devicePushes := .filling (k + 1) }
  | publishUsed {s : QueueSystem} {n : Nat} : s.devicePushes = .filling n → 0 < n →
      Step s { s with
        q := s.q.publishUsed, devicePushes := .published n, pushed := s.pushed + n }
  | shouldNotify {s : QueueSystem} {n : Nat} : s.devicePushes = .published n →
      Step s { s with
        devicePushes := .decided (s.q.shouldNotify (s.q.usedIdx - BitVec.ofNat 16 n) s.q.usedIdx) }
  | interrupt {s : QueueSystem} {b : Bool} : s.devicePushes = .decided b →
      Step s { s with devicePushes := .filling 0, irq := s.irq || b }
  -- The driver reaps until empty, re-arms `used_event` and checks again.
  | checkUsed {s : QueueSystem} : s.driverReaps = .draining →
      Step s { s with
        driverReaps := if s.q.usedIdxCell = s.lastUsed then .drained else .popping }
  | reapUsed {s : QueueSystem} : s.driverReaps = .popping →
      Step s { s with
        lastUsed := s.lastUsed + 1, driverReaps := .draining, reaped := s.reaped + 1 }
  | writeUsedEvent {s : QueueSystem} : s.driverReaps = .drained →
      Step s { s with q := s.q.writeUsedEvent s.lastUsed, driverReaps := .armed }
  | recheckUsed {s : QueueSystem} : s.driverReaps = .armed →
      Step s { s with
        driverReaps := if s.q.usedIdxCell = s.lastUsed then .sleeping else .draining }
  | wakeDriver {s : QueueSystem} : s.driverReaps = .sleeping → s.irq = true →
      Step s { s with driverReaps := .draining, irq := false }

/-- What the steps lead to. -/
inductive Reachable (s₀ : QueueSystem) : QueueSystem → Prop where
  | refl : Reachable s₀ s₀
  | step {s s' : QueueSystem} : Reachable s₀ s → Step s s' → Reachable s₀ s'

/-! ## Calls of the device as runs of its steps -/

/-- `pop_avail`: look at `avail.idx`, then take the entry or go on to arm the event. -/
theorem reachable_nextAvailHead {s : QueueSystem} (hp : s.devicePops = .draining) :
    match s.q.nextAvailHead with
    | some (_, q) => Reachable s { s with q := q, devicePops := .draining, popped := s.popped + 1 }
    | none => Reachable s { s with devicePops := .drained } := by
  have hcheck := Reachable.refl.step (.checkAvail hp)
  unfold hasAvail at hcheck
  unfold nextAvailHead
  by_cases hempty : s.q.availIdx = s.q.lastAvailIdx
  · rw [if_pos hempty]
    rw [hempty, bne_self_eq_false] at hcheck
    exact hcheck
  · rw [if_neg hempty]
    rw [bne_iff_ne.mpr hempty] at hcheck
    exact hcheck.step (.popAvail rfl)

/-- `enable_notification`: arm the event, then look again. -/
theorem reachable_enableNotification {s : QueueSystem} (hp : s.devicePops = .drained) :
    Reachable s { s with
      q := s.q.enableNotification.1
      devicePops := if s.q.enableNotification.2 then .draining else .sleeping } :=
  (Reachable.refl.step (.writeAvailEvent hp)).step (.recheckAvail rfl)

/-- `push_used`: one entry, `used.idx`, and the decision to interrupt. -/
theorem reachable_pushUsed {s : QueueSystem} (hp : s.devicePushes = .filling 0)
    (hroom : s.pushed < s.reaped + s.q.size.toNat) (headIdx : BitVec 16) (len : BitVec 32) :
    Reachable s { s with
      q := (s.q.pushUsed headIdx len).1
      devicePushes := .filling 0
      pushed := s.pushed + 1
      irq := s.irq || (s.q.pushUsed headIdx len).2 } := by
  have hentered : Reachable s
      { s with q := s.q.enterUsed headIdx len, devicePushes := .filling 1 } :=
    Reachable.refl.step (.enterUsed hp hroom)
  have hpublished := hentered.step (.publishUsed (n := 1) rfl Nat.one_pos)
  have hdecided := (hpublished.step (.shouldNotify (n := 1) rfl)).step (.interrupt rfl)
  have hold : (s.q.enterUsed headIdx len).publishUsed.usedIdx - BitVec.ofNat 16 1 = s.q.usedIdx :=
    BitVec.add_sub_cancel _ _
  rw [hold] at hdecided
  exact hdecided

/-- The available ring as a channel from the driver to the device. -/
def availChannel (s : QueueSystem) : Channel 16 :=
  ⟨s.q.cells .availIdx, s.q.cells .availEvent, s.q.lastAvailIdx, s.kick, s.driverPosts,
    s.devicePops, s.posted, s.popped⟩

def usedChannel (s : QueueSystem) : Channel 16 :=
  ⟨s.q.cells .usedIdx, s.q.cells .usedEvent, s.lastUsed, s.irq, s.devicePushes, s.driverReaps,
    s.pushed, s.reaped⟩

structure Ready (s : QueueSystem) : Prop where
  rings : s.q.RingsMapped
  eventIdx : s.q.eventIdx = true
  usedIdx : s.q.usedIdx = s.q.usedIdxCell
  avail : Empty s.availChannel
  used : Empty s.usedChannel

/-- What every step keeps, besides the channels. -/
structure Sound (size : Nat) (s : QueueSystem) : Prop where
  rings : s.q.RingsMapped
  size : s.q.size.toNat = size
  eventIdx : s.q.eventIdx = true
  usedIdx : s.q.usedIdx = s.q.cells .usedIdx + BitVec.ofNat 16 s.devicePushes.pending

/-- A step of the channel, or none. -/
def StepOrStay (size : Nat) (c c' : Channel 16) : Prop := EventIndex.Step size c c' ∨ c' = c

/-- With EVENT_IDX, `should_notify` is the test of the channel: it excludes an empty
update on its own, which the test does too. -/
theorem shouldNotify_eq {q : SplitQueue} (h : q.eventIdx = true) (oldUsed newUsed : BitVec 16) :
    q.shouldNotify oldUsed newUsed = needEvent (q.cells .usedEvent) newUsed oldUsed := by
  simp only [shouldNotify, h, if_true]
  split
  next heq =>
    rw [heq, needEvent, BitVec.sub_self]
    simp
  · rfl

theorem ite_hasAvail {α : Type} (q : SplitQueue) (a b : α) :
    (if q.hasAvail then a else b) = if q.cells .availIdx = q.lastAvailIdx then b else a := by
  simp only [hasAvail, bne_iff_ne, ne_eq, ite_not]
  rfl

/-- A step of the queue is a step of the two channels, or leaves them as they are. -/
def Simulated (size : Nat) (s s' : QueueSystem) : Prop :=
  Sound size s' ∧ StepOrStay size s.availChannel s'.availChannel
    ∧ StepOrStay size s.usedChannel s'.usedChannel

section Stages

variable {size : Nat} {s : QueueSystem} (h : Sound size s)

include h

theorem simulated_postEntry {k : Nat} (headIdx : BitVec 16) (hp : s.driverPosts = .filling k)
    (hroom : s.posted + k < s.popped + s.q.size.toNat) : Simulated size s
      { s with q := s.q.postEntry k headIdx, driverPosts := .filling (k + 1) } := by
  have hcells := cells_postEntry h.rings k headIdx
  refine ⟨⟨h.rings.write _ _, h.size, h.eventIdx, by rw [hcells]; exact h.usedIdx⟩, inl ?_, inr ?_⟩
  · simp only [availChannel, hcells]
    exact .fill hp (h.size ▸ hroom)
  · simp only [usedChannel, hcells]

theorem simulated_publishAvail {n : Nat} (hp : s.driverPosts = .filling n) (hn : 0 < n) :
    Simulated size s { s with
      q := s.q.publishAvail n, driverPosts := .published n, posted := s.posted + n } := by
  have hcells := cells_store h.rings .availIdx (s.q.cells .availIdx + BitVec.ofNat 16 n)
  rw [publishAvail_eq]
  refine ⟨⟨h.rings.write _ _, h.size, h.eventIdx, ?_⟩, inl ?_, inr ?_⟩
  · rw [hcells]
    exact h.usedIdx
  · simp only [availChannel, hcells]
    exact .publish hp hn
  · simp only [usedChannel, hcells]
    rfl

theorem simulated_writeAvailEvent (hp : s.devicePops = .drained) :
    Simulated size s { s with q := s.q.writeAvailEvent, devicePops := .armed } := by
  have hcells := cells_store h.rings .availEvent s.q.lastAvailIdx
  rw [writeAvailEvent_eq]
  refine ⟨⟨h.rings.write _ _, h.size, h.eventIdx, ?_⟩, inl ?_, inr ?_⟩
  · rw [hcells]
    exact h.usedIdx
  · simp only [availChannel, hcells]
    exact .arm hp
  · simp only [usedChannel, hcells]
    rfl

theorem simulated_enterUsed {k : Nat} (headIdx : BitVec 16) (len : BitVec 32)
    (hp : s.devicePushes = .filling k) (hroom : s.pushed + k < s.reaped + s.q.size.toNat) :
    Simulated size s
      { s with q := s.q.enterUsed headIdx len, devicePushes := .filling (k + 1) } := by
  have hcells := cells_enterUsed h.rings headIdx len
  have hused := h.usedIdx
  rw [hp] at hused
  refine ⟨⟨h.rings.enterUsed headIdx len, h.size, h.eventIdx, ?_⟩, inr ?_, inl ?_⟩
  · rw [hcells]
    show s.q.usedIdx + 1 = s.q.cells .usedIdx + BitVec.ofNat 16 (k + 1)
    rw [hused, BitVec.ofNat_add, ← BitVec.add_assoc]
    rfl
  · simp only [availChannel, hcells]
    rfl
  · simp only [usedChannel, hcells]
    exact .fill hp (h.size ▸ hroom)

theorem simulated_publishUsed {n : Nat} (hp : s.devicePushes = .filling n) (hn : 0 < n) :
    Simulated size s { s with
      q := s.q.publishUsed, devicePushes := .published n, pushed := s.pushed + n } := by
  have hcells := cells_store h.rings .usedIdx s.q.usedIdx
  have hused := h.usedIdx
  rw [publishUsed_eq]
  rw [hp] at hused
  refine ⟨⟨h.rings.write _ _, h.size, h.eventIdx, ?_⟩, inr ?_, inl ?_⟩
  · rw [hcells]
    simp [ProducerPhase.pending, store, withMem]
  · simp only [availChannel, hcells]
    rfl
  · simp only [usedChannel, hcells, if_true]
    rw [hused]
    exact .publish hp hn

theorem simulated_shouldNotify {n : Nat} (hp : s.devicePushes = .published n) :
    Simulated size s { s with
      devicePushes :=
        .decided (s.q.shouldNotify (s.q.usedIdx - BitVec.ofNat 16 n) s.q.usedIdx) } := by
  have hused := h.usedIdx
  rw [hp] at hused
  have hidx : s.q.usedIdx = s.q.cells .usedIdx := by
    rw [hused]
    exact BitVec.add_zero _
  refine ⟨⟨h.rings, h.size, h.eventIdx, hused⟩, inr rfl, inl ?_⟩
  simp only [usedChannel, shouldNotify_eq h.eventIdx, hidx]
  exact .readEvent hp

theorem simulated_writeUsedEvent (hp : s.driverReaps = .drained) :
    Simulated size s { s with q := s.q.writeUsedEvent s.lastUsed, driverReaps := .armed } := by
  have hcells := cells_store h.rings .usedEvent s.lastUsed
  rw [writeUsedEvent_eq]
  refine ⟨⟨h.rings.write _ _, h.size, h.eventIdx, ?_⟩, inr ?_, inl ?_⟩
  · rw [hcells]
    exact h.usedIdx
  · simp only [availChannel, hcells]
    rfl
  · simp only [usedChannel, hcells]
    exact .arm hp

end Stages

theorem Sound.step {size : Nat} {s s' : QueueSystem} (h : Sound size s) (hs : Step s s') :
    Simulated size s s' := by
  cases hs with
  | postEntry hp hroom => exact simulated_postEntry h _ hp hroom
  | publishAvail hp hn => exact simulated_publishAvail h hp hn
  | readAvailEvent hp => exact ⟨{ h with }, inl (.readEvent hp), inr rfl⟩
  | kick hp => exact ⟨{ h with }, inl (.notify hp), inr rfl⟩
  | checkAvail hp =>
      refine ⟨{ h with }, inl ?_, inr rfl⟩
      simp only [availChannel, ite_hasAvail]
      exact .check hp
  | popAvail hp => exact ⟨{ h with rings := h.rings.advanceAvail }, inl (.pop hp), inr rfl⟩
  | writeAvailEvent hp => exact simulated_writeAvailEvent h hp
  | recheckAvail hp =>
      refine ⟨{ h with }, inl ?_, inr rfl⟩
      simp only [availChannel, ite_hasAvail]
      exact .recheck hp
  | wakeDevice hp hk => exact ⟨{ h with }, inl (.wake hp hk), inr rfl⟩
  | enterUsed hp hroom => exact simulated_enterUsed h _ _ hp hroom
  | publishUsed hp hn => exact simulated_publishUsed h hp hn
  | shouldNotify hp => exact simulated_shouldNotify h hp
  | interrupt hp =>
      have hused := h.usedIdx
      rw [hp] at hused
      exact ⟨{ h with usedIdx := hused }, inr rfl, inl (.notify hp)⟩
  | checkUsed hp => exact ⟨{ h with }, inr rfl, inl (.check hp)⟩
  | reapUsed hp => exact ⟨{ h with }, inr rfl, inl (.pop hp)⟩
  | writeUsedEvent hp => exact simulated_writeUsedEvent h hp
  | recheckUsed hp => exact ⟨{ h with }, inr rfl, inl (.recheck hp)⟩
  | wakeDriver hp hi => exact ⟨{ h with }, inr rfl, inl (.wake hp hi)⟩

theorem inv_reachable {s₀ s : QueueSystem} (h₀ : Ready s₀) (hs : Reachable s₀ s) :
    Sound s₀.q.size.toNat s
      ∧ Inv s₀.q.size.toNat (s₀.q.cells .availIdx) s.availChannel
      ∧ Inv s₀.q.size.toNat (s₀.q.cells .usedIdx) s.usedChannel := by
  have hsize : s₀.q.size.toNat < 2 ^ 16 := s₀.q.size.isLt
  induction hs with
  | refl =>
      refine ⟨⟨h₀.rings, rfl, h₀.eventIdx, ?_⟩, inv_of_empty h₀.avail _, inv_of_empty h₀.used _⟩
      rw [show s₀.devicePushes = .filling 0 from h₀.used.producer]
      exact h₀.usedIdx.trans (BitVec.add_zero _).symm
  | step _ hstep ih =>
      obtain ⟨hsound, havail, hused⟩ := ih
      obtain ⟨hsound', hstepA, hstepU⟩ := hsound.step hstep
      refine ⟨hsound', ?_, ?_⟩
      · rcases hstepA with hstepA | heq
        · exact havail.step hsize hstepA
        · exact heq ▸ havail
      · rcases hstepU with hstepU | heq
        · exact hused.step hsize hstepU
        · exact heq ▸ hused

/-- **No lost wakeup.**  A device that sleeps with no kick pending while the driver is
idle has consumed the whole available ring, and a driver that sleeps with no interrupt
pending while the device is idle has seen the whole used ring. -/
theorem no_lost_wakeup {s₀ s : QueueSystem} (h₀ : Ready s₀) (hs : Reachable s₀ s) :
    (s.devicePops = .sleeping → s.kick = false → s.driverPosts = .filling 0 →
      s.posted = s.popped ∧ s.q.hasAvail = false)
    ∧ (s.driverReaps = .sleeping → s.irq = false → s.devicePushes = .filling 0 →
      s.pushed = s.reaped ∧ s.q.usedIdxCell = s.lastUsed) := by
  obtain ⟨-, havail, hused⟩ := inv_reachable h₀ hs
  constructor
  · intro hsleep hkick hidle
    obtain ⟨heq, hidx⟩ := havail.nothing_lost hsleep hkick hidle
    refine ⟨heq, ?_⟩
    have hidx' : s.q.availIdx = s.q.lastAvailIdx := hidx
    simp [hasAvail, hidx']
  · intro hsleep hirq hidle
    exact hused.nothing_lost hsleep hirq hidle

/-- A queue of one entry over zeroed rings, with the device and the driver asleep. -/
def freshSystem : QueueSystem where
  q := {
    mem := ⟨List.replicate 40 0, 0⟩, size := 1, descGpa := 0, availGpa := 16, usedGpa := 24,
    lastAvailIdx := 0, usedIdx := 0, eventIdx := true }
  kick := false
  irq := false
  driverPosts := .filling 0
  devicePops := .sleeping
  devicePushes := .filling 0
  driverReaps := .sleeping
  lastUsed := 0
  posted := 0
  popped := 0
  pushed := 0
  reaped := 0

theorem ready_freshSystem : Ready freshSystem where
  rings := ⟨by decide, by decide, by decide, by decide⟩
  eventIdx := rfl
  usedIdx := by decide
  avail := ⟨by decide, rfl, ⟨rfl, rfl⟩, inr ⟨rfl, by decide⟩⟩
  used := ⟨by decide, rfl, ⟨rfl, rfl⟩, inr ⟨rfl, by decide⟩⟩

/-- One entry is posted, wakes the device, and is popped before the device sleeps
again. -/
theorem no_lost_wakeup_one_entry : ∃ s, Ready freshSystem ∧ Reachable freshSystem s
    ∧ s.posted = 1 ∧ s.devicePops = .sleeping ∧ s.kick = false ∧ s.driverPosts = .filling 0
    ∧ (s.devicePops = .sleeping → s.kick = false → s.driverPosts = .filling 0 →
      s.posted = s.popped ∧ s.q.hasAvail = false)
    ∧ (s.driverReaps = .sleeping → s.irq = false → s.devicePushes = .filling 0 →
      s.pushed = s.reaped ∧ s.q.usedIdxCell = s.lastUsed) := by
  have h₁ := Reachable.refl.step (@Step.postEntry freshSystem 0 0 rfl (by decide))
  have h₂ := h₁.step (.publishAvail (n := 1) rfl (by decide))
  have h₃ := h₂.step (.readAvailEvent (n := 1) rfl)
  have h₄ := h₃.step (.kick (b := true) (by decide))
  have h₅ := h₄.step (.wakeDevice rfl (by decide))
  have h₆ := h₅.step (.checkAvail rfl)
  have h₇ := h₆.step (.popAvail (by decide))
  have h₈ := h₇.step (.checkAvail rfl)
  have h₉ := h₈.step (.writeAvailEvent (by decide))
  have h₁₀ := h₉.step (.recheckAvail rfl)
  exact ⟨_, ready_freshSystem, h₁₀, rfl, by decide, rfl, rfl,
    no_lost_wakeup ready_freshSystem h₁₀⟩

end QueueSystem

end Arcbox.Virtio

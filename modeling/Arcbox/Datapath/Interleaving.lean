import Arcbox.Datapath.MpmcRing
import Arcbox.Foundation.TicketRing

set_option autoImplicit false

/-!
# Datapath: the MPMC ring under concurrency

Any number of threads call `enqueue` and `dequeue`; each atomic load,
compare-exchange and store, and each access to the data of a slot, is one step, and
steps of different threads interleave in any order.  The steps are those of a
ticket ring whose numbers are the values of the 64-bit counters, as long as these do
not wrap.
-/

namespace Arcbox.Datapath

open Foundation Foundation.TicketRing List Function

/-! ## The system -/

/-- Where a thread is: the access it makes next. -/
inductive Pc (α : Type) where
  | idle
  | enqueueLoadHead (item : α)
  | enqueueLoadSeq (item : α) (head : BitVec 64)
  | enqueueCas (item : α) (head : BitVec 64)
  | enqueueWrite (item : α) (head : BitVec 64)
  | enqueueStoreSeq (item : α) (head : BitVec 64)
  | dequeueLoadTail
  | dequeueLoadSeq (tail : BitVec 64)
  | dequeueCas (tail : BitVec 64)
  | dequeueRead (tail : BitVec 64)
  | dequeueStoreSeq (tail : BitVec 64) (item : α)
  deriving DecidableEq, Repr

/-- A ring, the threads at work on it, and what they reported so far. -/
structure System (ι α : Type) where
  ring : MpmcRing α
  pc : ι → Pc α
  log : List (Event (BitVec 64) α)

/-- A thread starts a call, or makes the next access of the one it is in; a
compare-exchange may fail spuriously. -/
inductive Act (α : Type) where
  | enqueue (item : α)
  | dequeue
  | access (fails : Bool)
  deriving DecidableEq, Repr

namespace System

variable {ι α : Type} [DecidableEq ι]

/-- All threads at rest on a ring. -/
def start (r : MpmcRing α) : System ι α := ⟨r, fun _ => .idle, []⟩

/-- Thread `t` moves on and reports. -/
def move (s : System ι α) (t : ι) (pc : Pc α) (es : List (Event (BitVec 64) α)) : System ι α :=
  { s with pc := Function.update s.pc t pc, log := s.log ++ es }

/-- The next access of a call; `none` where an index is out of bounds or an unwritten
slot is read. -/
def access (s : System ι α) (t : ι) (fails : Bool) : Option (System ι α) :=
  match s.pc t with
  | .idle => none
  | .enqueueLoadHead item => some (s.move t (.enqueueLoadSeq item s.ring.head) [])
  | .enqueueLoadSeq item head =>
    match s.ring.slotAt head with
    | none => none
    | some slot =>
      let diff := (slot.seq - head).toInt
      if diff = 0 then some (s.move t (.enqueueCas item head) [])
      else if diff < 0 then some (s.move t .idle [.refused item])
      else some (s.move t (.enqueueLoadHead item) [])
  | .enqueueCas item head =>
    match s.ring.casHead fails head (head + 1) with
    | .ok ring => some { s.move t (.enqueueWrite item head) [.claimed head item] with ring := ring }
    | .error h => some (s.move t (.enqueueLoadSeq item h) [])
  | .enqueueWrite item head =>
    some { s.move t (.enqueueStoreSeq item head) [] with ring := s.ring.writeData head item }
  | .enqueueStoreSeq _ head =>
    some { s.move t .idle [.published head] with ring := s.ring.storeSeq head (head + 1) }
  | .dequeueLoadTail => some (s.move t (.dequeueLoadSeq s.ring.tail) [])
  | .dequeueLoadSeq tail =>
    match s.ring.slotAt tail with
    | none => none
    | some slot =>
      let diff := (slot.seq - (tail + 1)).toInt
      if diff = 0 then some (s.move t (.dequeueCas tail) [])
      else if diff < 0 then some (s.move t .idle [.empty])
      else some (s.move t .dequeueLoadTail [])
  | .dequeueCas tail =>
    match s.ring.casTail fails tail (tail + 1) with
    | .ok ring => some { s.move t (.dequeueRead tail) [.taken tail] with ring := ring }
    | .error h => some (s.move t (.dequeueLoadSeq h) [])
  | .dequeueRead tail =>
    match (s.ring.slotAt tail).bind MpmcSlot.data with
    | none => none
    | some item => some (s.move t (.dequeueStoreSeq tail item) [])
  | .dequeueStoreSeq tail item =>
    some { s.move t .idle [.returned tail item] with
      ring := s.ring.storeSeq tail (tail + s.ring.capacity) }

/-- A step of thread `t`. -/
def step (s : System ι α) (t : ι) : Act α → Option (System ι α)
  | .enqueue item =>
    match s.pc t with
    | .idle => some (s.move t (.enqueueLoadHead item) [])
    | _ => none
  | .dequeue =>
    match s.pc t with
    | .idle => some (s.move t .dequeueLoadTail [])
    | _ => none
  | .access fails => s.access t fails

/-- Steps in the order of a schedule; `none` where one of them cannot be made. -/
def run (s : System ι α) : List (ι × Act α) → Option (System ι α)
  | [] => some s
  | (t, act) :: acts =>
    match s.step t act with
    | none => none
    | some s => s.run acts

end System

/-! ## The ticket ring behind it -/

variable {pos : BitVec 64}

namespace MpmcRing

variable {α : Type}

/-- The values of the sequence counters. -/
def seqs (r : MpmcRing α) (i : Nat) : Nat := ((r.buffer[i]?).map fun slot => slot.seq.toNat).getD 0

/-- The data of the slots. -/
def datas (r : MpmcRing α) (i : Nat) : Option α := (r.buffer[i]?).bind MpmcSlot.data

section

variable {r : MpmcRing α} (h : r.Shaped)

include h

theorem Shaped.index_lt (pos : BitVec 64) : pos.toNat % r.capacity.toNat < r.buffer.length := by
  rw [h.length]
  exact Nat.mod_lt _ h.capacity_pos

theorem Shaped.slotAt_eq (pos : BitVec 64) :
    r.slotAt pos = r.buffer[pos.toNat % r.capacity.toNat]? := by
  rw [slotAt, h.index]

theorem Shaped.seqs_of_slotAt {slot : MpmcSlot α} (hslot : r.slotAt pos = some slot) :
    r.seqs (pos.toNat % r.capacity.toNat) = slot.seq.toNat := by
  rw [h.slotAt_eq] at hslot
  rw [seqs, hslot]
  rfl

theorem Shaped.datas_eq (pos : BitVec 64) :
    r.datas (pos.toNat % r.capacity.toNat) = (r.slotAt pos).bind MpmcSlot.data := by
  rw [h.slotAt_eq, datas]

theorem Shaped.seqs_storeSeq (pos seq : BitVec 64) :
    (r.storeSeq pos seq).seqs
      = Function.update r.seqs (pos.toNat % r.capacity.toNat) seq.toNat := by
  funext i
  have hlt := h.index_lt pos
  simp only [seqs, storeSeq, MpmcRing.modifySlot, h.index, List.getElem?_modify]
  rcases eq_or_ne i (pos.toNat % r.capacity.toNat) with rfl | hne
  · simp [List.getElem?_eq_getElem hlt]
  · rw [update_of_ne hne]
    simp [seqs, hne.symm]

theorem Shaped.datas_writeData (pos : BitVec 64) (item : α) :
    (r.writeData pos item).datas
      = Function.update r.datas (pos.toNat % r.capacity.toNat) (some item) := by
  funext i
  have hlt := h.index_lt pos
  simp only [datas, writeData, MpmcRing.modifySlot, h.index, List.getElem?_modify]
  rcases eq_or_ne i (pos.toNat % r.capacity.toNat) with rfl | hne
  · simp [List.getElem?_eq_getElem hlt]
  · rw [update_of_ne hne]
    simp [datas, hne.symm]

end

theorem datas_storeSeq (r : MpmcRing α) (pos seq : BitVec 64) :
    (r.storeSeq pos seq).datas = r.datas := by
  funext i
  simp only [datas, storeSeq, modifySlot, List.getElem?_modify]
  cases r.buffer[i]? with
  | none | some => split <;> rfl

theorem seqs_writeData (r : MpmcRing α) (pos : BitVec 64) (item : α) :
    (r.writeData pos item).seqs = r.seqs := by
  funext i
  simp only [seqs, writeData, modifySlot, List.getElem?_modify]
  cases r.buffer[i]? with
  | none | some => split <;> rfl

end MpmcRing

/-- The phase of a thread, with the values of its counters. -/
def Pc.phase {α : Type} : Pc α → Phase α
  | .idle => .idle
  | .enqueueLoadHead item => .offering item
  | .enqueueLoadSeq item head => .aiming item head.toNat
  | .enqueueCas item head => .ready item head.toNat
  | .enqueueWrite item head => .writing item head.toNat
  | .enqueueStoreSeq item head => .written item head.toNat
  | .dequeueLoadTail => .asking
  | .dequeueLoadSeq tail => .aimingOut tail.toNat
  | .dequeueCas tail => .readyOut tail.toNat
  | .dequeueRead tail => .reading tail.toNat
  | .dequeueStoreSeq tail item => .read tail.toNat item

variable {fails : Bool}

namespace System

variable {ι α : Type}

/-- The ticket ring a system is. -/
def tickets (s : System ι α) : State ι α where
  head := s.ring.head.toNat
  tail := s.ring.tail.toNat
  seq := s.ring.seqs
  data := s.ring.datas
  phase t := (s.pc t).phase
  log := s.log.map (Event.map BitVec.toNat)

variable [DecidableEq ι]

theorem tickets_move (s : System ι α) (t : ι) (pc : Pc α) (es : List (Event (BitVec 64) α)) :
    (s.move t pc es).tickets = s.tickets.move t pc.phase (es.map (Event.map BitVec.toNat)) := by
  simp only [tickets, move, State.move, map_append, State.mk.injEq, true_and, and_true]
  funext t'
  rcases eq_or_ne t' t with rfl | hne
  · rw [update_self, update_self]
  · rw [update_of_ne hne, update_of_ne hne]

theorem tickets_move_ring (s : System ι α) (t : ι) (pc : Pc α) (es : List (Event (BitVec 64) α))
    (ring : MpmcRing α) :
    { s.move t pc es with ring := ring }.tickets
      = { s.tickets.move t pc.phase (es.map (Event.map BitVec.toNat)) with
          head := ring.head.toNat, tail := ring.tail.toNat, seq := ring.seqs, data := ring.datas } := by
  rw [← tickets_move]
  rfl

/-- The operations that took effect: positions claimed by an `enqueue` or taken by a
`dequeue`.  A call does either at most once, so there are no more of them than calls. -/
def operations (s : System ι α) : Nat := (claims s.log).length + (takes s.log).length

section Simulation

variable {s s' : System ι α} {t : ι}

omit [DecidableEq ι] in
theorem head_lt (hinv : Inv s.ring.capacity.toNat s.tickets) (hops : s.operations < 2 ^ 63) :
    s.ring.head.toNat < 2 ^ 63 := by
  have hhead : s.ring.head.toNat = _ := hinv.head_eq
  simp only [tickets, claims_map, length_map] at hhead
  rw [operations] at hops
  omega

omit [DecidableEq ι] in
theorem tail_lt (hinv : Inv s.ring.capacity.toNat s.tickets) (hops : s.operations < 2 ^ 63) :
    s.ring.tail.toNat < 2 ^ 63 := by
  have htail : s.ring.tail.toNat = _ := hinv.tail_eq
  simp only [tickets, takes_map, length_map] at htail
  rw [operations] at hops
  omega

theorem toNat_succ (h : pos.toNat < 2 ^ 63) : (pos + 1).toNat = pos.toNat + 1 := by
  rw [BitVec.toNat_add]
  exact Nat.mod_eq_of_lt (by simp; omega)

theorem eq_of_toInt_sub {x y : BitVec 64} (h : (x - y).toInt = 0) : x = y := by
  have hzero : x - y = 0 := BitVec.toInt_inj.mp (h.trans (by decide))
  bv_omega

/-! ## One access is one step on the tickets -/

section Accesses

variable {item : α} {head tail : BitVec 64}

theorem tickets_enqueueLoadSeq (hshape : s.ring.Shaped) (hpc : s.pc t = .enqueueLoadSeq item head)
    (hstep : s.access t fails = some s') :
    Step s.ring.capacity.toNat s.tickets s'.tickets := by
  have hphase : s.tickets.phase t = (s.pc t).phase := rfl
  rw [hpc] at hphase
  simp only [access, hpc] at hstep
  split at hstep
  · cases hstep
  rename_i slot hslot
  split at hstep
  next hdiff =>
    cases hstep
    rw [tickets_move]
    refine .see hphase ?_
    have hseq := hshape.seqs_of_slotAt hslot
    rwa [eq_of_toInt_sub hdiff] at hseq
  split at hstep
  · cases hstep
    rw [tickets_move]
    exact .refuse hphase
  · cases hstep
    rw [tickets_move]
    exact .again hphase

theorem tickets_enqueueCas (hhead : s.ring.head.toNat < 2 ^ 63)
    (hpc : s.pc t = .enqueueCas item head) (hstep : s.access t fails = some s') :
    Step s.ring.capacity.toNat s.tickets s'.tickets := by
  have hphase : s.tickets.phase t = (s.pc t).phase := rfl
  rw [hpc] at hphase
  simp only [access, hpc, MpmcRing.casHead] at hstep
  split at hstep
  next ring hcas =>
    split at hcas
    next heq =>
      cases hcas
      cases hstep
      obtain ⟨rfl, -⟩ := heq
      have hclaim : Step s.ring.capacity.toNat s.tickets _ := .claim hphase rfl
      rw [tickets_move_ring]
      rw [toNat_succ hhead]
      exact hclaim
    · cases hcas
  rename_i h hcas
  split at hcas
  · cases hcas
  · cases hcas
    cases hstep
    rw [tickets_move]
    exact .lose hphase

theorem tickets_enqueueWrite (hshape : s.ring.Shaped) (hpc : s.pc t = .enqueueWrite item head)
    (hstep : s.access t fails = some s') :
    Step s.ring.capacity.toNat s.tickets s'.tickets := by
  have hphase : s.tickets.phase t = (s.pc t).phase := rfl
  unfold access at hstep
  rw [hpc] at hstep hphase
  cases hstep
  have hwrite : Step s.ring.capacity.toNat s.tickets _ := .write hphase
  rw [tickets_move_ring]
  rw [hshape.datas_writeData, MpmcRing.seqs_writeData]
  exact hwrite

theorem tickets_enqueueStoreSeq (hshape : s.ring.Shaped)
    (hhead : head.toNat < 2 ^ 63) (hpc : s.pc t = .enqueueStoreSeq item head)
    (hstep : s.access t fails = some s') :
    Step s.ring.capacity.toNat s.tickets s'.tickets := by
  have hphase : s.tickets.phase t = (s.pc t).phase := rfl
  unfold access at hstep
  rw [hpc] at hstep hphase
  cases hstep
  have hpublish : Step s.ring.capacity.toNat s.tickets _ := .publish hphase
  rw [tickets_move_ring]
  rw [hshape.seqs_storeSeq, MpmcRing.datas_storeSeq, toNat_succ hhead]
  exact hpublish

theorem tickets_dequeueLoadSeq (hshape : s.ring.Shaped) (htail : tail.toNat < 2 ^ 63)
    (hpc : s.pc t = .dequeueLoadSeq tail) (hstep : s.access t fails = some s') :
    Step s.ring.capacity.toNat s.tickets s'.tickets := by
  have hphase : s.tickets.phase t = (s.pc t).phase := rfl
  rw [hpc] at hphase
  simp only [access, hpc] at hstep
  split at hstep
  · cases hstep
  rename_i slot hslot
  split at hstep
  next hdiff =>
    cases hstep
    rw [tickets_move]
    refine .seeOut hphase ?_
    have hseq := hshape.seqs_of_slotAt hslot
    rwa [eq_of_toInt_sub hdiff, toNat_succ htail] at hseq
  split at hstep
  · cases hstep
    rw [tickets_move]
    exact .giveUp hphase
  · cases hstep
    rw [tickets_move]
    exact .againOut hphase

theorem tickets_dequeueCas (htail : s.ring.tail.toNat < 2 ^ 63)
    (hpc : s.pc t = .dequeueCas tail) (hstep : s.access t fails = some s') :
    Step s.ring.capacity.toNat s.tickets s'.tickets := by
  have hphase : s.tickets.phase t = (s.pc t).phase := rfl
  rw [hpc] at hphase
  simp only [access, hpc, MpmcRing.casTail] at hstep
  split at hstep
  next ring hcas =>
    split at hcas
    next heq =>
      cases hcas
      cases hstep
      obtain ⟨rfl, -⟩ := heq
      have htake : Step s.ring.capacity.toNat s.tickets _ := .take hphase rfl
      rw [tickets_move_ring]
      rw [toNat_succ htail]
      exact htake
    · cases hcas
  rename_i h hcas
  split at hcas
  · cases hcas
  · cases hcas
    cases hstep
    rw [tickets_move]
    exact .loseOut hphase

theorem tickets_dequeueRead (hshape : s.ring.Shaped) (hpc : s.pc t = .dequeueRead tail)
    (hstep : s.access t fails = some s') :
    Step s.ring.capacity.toNat s.tickets s'.tickets := by
  have hphase : s.tickets.phase t = (s.pc t).phase := rfl
  rw [hpc] at hphase
  simp only [access, hpc] at hstep
  split at hstep
  · cases hstep
  next item hdata =>
    cases hstep
    rw [tickets_move]
    exact .read hphase ((hshape.datas_eq tail).trans hdata)

theorem tickets_dequeueStoreSeq (hshape : s.ring.Shaped) (htail : tail.toNat < 2 ^ 63)
    (hpc : s.pc t = .dequeueStoreSeq tail item) (hstep : s.access t fails = some s') :
    Step s.ring.capacity.toNat s.tickets s'.tickets := by
  have hphase : s.tickets.phase t = (s.pc t).phase := rfl
  unfold access at hstep
  rw [hpc] at hstep hphase
  cases hstep
  have hle := hshape.capacity_le
  have hrelease : Step s.ring.capacity.toNat s.tickets _ := .release hphase
  have hlap : (tail + s.ring.capacity).toNat = tail.toNat + s.ring.capacity.toNat := by
    rw [BitVec.toNat_add]
    exact Nat.mod_eq_of_lt (by omega)
  rw [tickets_move_ring]
  rw [hshape.seqs_storeSeq, MpmcRing.datas_storeSeq, hlap]
  exact hrelease

end Accesses

theorem access_tickets (hshape : s.ring.Shaped) (hinv : Inv s.ring.capacity.toNat s.tickets)
    (hops : s.operations < 2 ^ 63) (hstep : s.access t fails = some s') :
    Step s.ring.capacity.toNat s.tickets s'.tickets := by
  have hphase : s.tickets.phase t = (s.pc t).phase := rfl
  have hok := hinv.phase t
  rw [hphase] at hok
  have hhead := head_lt hinv hops
  have htail := tail_lt hinv hops
  have haccess := hstep
  unfold access at hstep
  cases hpc : s.pc t with
  | idle =>
    rw [hpc] at hstep
    cases hstep
  | enqueueLoadHead item =>
    rw [hpc] at hstep hphase
    cases hstep
    rw [tickets_move]
    exact .aim hphase
  | enqueueLoadSeq item head => exact tickets_enqueueLoadSeq hshape hpc haccess
  | enqueueCas item head => exact tickets_enqueueCas hhead hpc haccess
  | enqueueWrite item head => exact tickets_enqueueWrite hshape hpc haccess
  | enqueueStoreSeq item head =>
    rw [hpc] at hok
    have hlt : head.toNat < s.ring.head.toNat := hok.1.2.2.1
    exact tickets_enqueueStoreSeq hshape (Nat.lt_trans hlt hhead) hpc haccess
  | dequeueLoadTail =>
    rw [hpc] at hstep hphase
    cases hstep
    rw [tickets_move]
    exact .aimOut hphase
  | dequeueLoadSeq tail =>
    rw [hpc] at hok
    have hle : tail.toNat ≤ s.ring.tail.toNat := hok
    exact tickets_dequeueLoadSeq hshape (Nat.lt_of_le_of_lt hle htail) hpc haccess
  | dequeueCas tail => exact tickets_dequeueCas htail hpc haccess
  | dequeueRead tail => exact tickets_dequeueRead hshape hpc haccess
  | dequeueStoreSeq tail item =>
    rw [hpc] at hok
    have hlt : tail.toNat < s.ring.tail.toNat := hok.1.2.1
    exact tickets_dequeueStoreSeq hshape (Nat.lt_trans hlt htail) hpc haccess

theorem step_tickets (hshape : s.ring.Shaped) (hinv : Inv s.ring.capacity.toNat s.tickets)
    (hops : s.operations < 2 ^ 63) {act : Act α} (hstep : s.step t act = some s') :
    Step s.ring.capacity.toNat s.tickets s'.tickets := by
  have hphase : s.tickets.phase t = (s.pc t).phase := rfl
  cases act with
  | enqueue item =>
    simp only [step] at hstep
    split at hstep
    next hpc =>
      rw [hpc] at hphase
      cases hstep
      rw [tickets_move]
      exact .offer item hphase
    · cases hstep
  | dequeue =>
    simp only [step] at hstep
    split at hstep
    next hpc =>
      rw [hpc] at hphase
      cases hstep
      rw [tickets_move]
      exact .ask hphase
    · cases hstep
  | access fails => exact access_tickets hshape hinv hops hstep

end Simulation

end System

/-! ## What a step leaves alone -/

/-- The ways a single access changes the ring. -/
inductive MpmcRing.Access {α : Type} (r : MpmcRing α) : MpmcRing α → Prop where
  | load : r.Access r
  | head (pos : BitVec 64) : r.Access { r with head := pos }
  | tail (pos : BitVec 64) : r.Access { r with tail := pos }
  | slot (pos : BitVec 64) (f : MpmcSlot α → MpmcSlot α) : r.Access (r.modifySlot pos f)

theorem MpmcRing.Access.shaped {α : Type} {r r' : MpmcRing α} (h : r.Access r')
    (hshape : r.Shaped) : r'.Shaped ∧ r'.capacity = r.capacity := by
  cases h with
  | load => exact ⟨hshape, rfl⟩
  | head pos => exact ⟨hshape.withHead pos, rfl⟩
  | tail pos => exact ⟨hshape.withTail pos, rfl⟩
  | slot pos f => exact ⟨hshape.modifySlot pos f, rfl⟩

namespace System

variable {ι α : Type} [DecidableEq ι] {s s' : System ι α} {t : ι}
variable {r : MpmcRing α} {act : Act α}

theorem casHead_access {r' : MpmcRing α} {old new : BitVec 64}
    (h : r.casHead fails old new = .ok r') : r.Access r' := by
  unfold MpmcRing.casHead at h
  split at h
  · cases h
    exact .head new
  · cases h

theorem casTail_access {r' : MpmcRing α} {old new : BitVec 64}
    (h : r.casTail fails old new = .ok r') : r.Access r' := by
  unfold MpmcRing.casTail at h
  split at h
  · cases h
    exact .tail new
  · cases h

/-- A step moves its own thread, adds to the log, and makes one access. -/
theorem step_cases (hstep : s.step t act = some s') :
    ∃ pc es ring, s' = { s.move t pc es with ring := ring } ∧ s.ring.Access ring := by
  cases act with
  | enqueue | dequeue =>
    simp only [step] at hstep
    split at hstep
    · cases hstep
      exact ⟨_, _, _, rfl, .load⟩
    · cases hstep
  | access fails =>
    simp only [step, access] at hstep
    repeat' split at hstep
    all_goals cases hstep
    -- all but the stores and the exchanges that succeed are loads
    any_goals exact ⟨_, _, _, rfl, .load⟩
    any_goals exact ⟨_, _, _, rfl, .slot _ _⟩
    next hcas => exact ⟨_, _, _, rfl, casHead_access hcas⟩
    next hcas => exact ⟨_, _, _, rfl, casTail_access hcas⟩

theorem operations_le_step (hstep : s.step t act = some s') : s.operations ≤ s'.operations := by
  obtain ⟨pc, es, ring, rfl, -⟩ := step_cases hstep
  simp only [operations, move, claims_append, takes_append, length_append]
  omega

structure Sound (s : System ι α) : Prop where
  shaped : s.ring.Shaped
  two_le : 2 ≤ s.ring.capacity.toNat
  tickets : Inv s.ring.capacity.toNat s.tickets

theorem Sound.step (h : s.Sound) (hops : s.operations < 2 ^ 63) (hstep : s.step t act = some s') :
    s'.Sound := by
  have htickets := h.tickets.step h.two_le (step_tickets h.shaped h.tickets hops hstep)
  obtain ⟨pc, es, ring, rfl, haccess⟩ := step_cases hstep
  obtain ⟨hshaped, hcap⟩ := haccess.shaped h.shaped
  rw [← hcap] at htickets
  exact ⟨hshaped, hcap ▸ h.two_le, htickets⟩

theorem run_sound {acts : List (ι × Act α)} (hrun : s.run acts = some s')
    (hops : s'.operations < 2 ^ 63) : s.operations ≤ s'.operations ∧ (s.Sound → s'.Sound) := by
  induction acts generalizing s with
  | nil =>
    cases hrun
    exact ⟨.refl, id⟩
  | cons ta acts ih =>
    obtain ⟨t, act⟩ := ta
    simp only [System.run] at hrun
    split at hrun
    · cases hrun
    next s₁ hstep =>
      obtain ⟨hle₁, hsound⟩ := ih hrun
      have hle := Nat.le_trans (operations_le_step hstep) hle₁
      exact ⟨hle, fun h => hsound (h.step (Nat.lt_of_le_of_lt hle hops) hstep)⟩

omit [DecidableEq ι] in
theorem sound_start {n : BitVec 64} (hnew : MpmcRing.new n = some r) (hcap : 2 ≤ r.capacity.toNat) :
    (start r : System ι α).Sound := by
  have hle : n.toNat ≤ 2 ^ 63 := by
    rcases Nat.lt_or_ge (2 ^ 63) n.toNat with hlt | hge
    · have hne : n ≠ 0 := by
        rintro rfl
        cases hlt
      simp only [MpmcRing.new, if_neg hne, Option.some.injEq] at hnew
      subst hnew
      have hzero : (nextPowerOfTwo n).toNat = 0 := by
        rw [nextPowerOfTwo_eq_zero hlt]
        rfl
      exact absurd (hzero ▸ hcap) (by decide)
    · exact hge
  have hholds := MpmcRing.holds_new hnew hle
  refine ⟨hholds.shaped, hcap, inv_start hcap ?_ ?_ ?_ (fun _ => rfl) rfl⟩
  · have hhead : r.head = 0 := by simpa using hholds.head_eq
    change r.head.toNat = 0
    rw [hhead]
    rfl
  · have htail : r.tail = 0 := by simpa using hholds.tail_eq
    change r.tail.toNat = 0
    rw [htail]
    rfl
  intro i (hi : i < r.capacity.toNat)
  obtain ⟨data, hslot⟩ := hholds.free i (Nat.zero_le _) hi
  have hpos : (Serial.seqAt (0 : BitVec 64) (0 + i)).toNat = i := by
    have hlt := r.capacity.isLt
    have hmod : i % 2 ^ 64 = i := Nat.mod_eq_of_lt (by omega)
    simpa [Serial.seqAt] using hmod
  have hseq := hholds.shaped.seqs_of_slotAt hslot
  rwa [hpos, Nat.mod_eq_of_lt hi] at hseq

/-! ## Safety -/

/-- The slot a thread may write or read. -/
def owns (s : System ι α) (t : ι) : Option Nat :=
  match s.pc t with
  | .enqueueWrite _ pos | .enqueueStoreSeq _ pos | .dequeueRead pos | .dequeueStoreSeq pos _ =>
    some (pos &&& s.ring.mask).toNat
  | _ => none

/-- Slot `i` holds the item of position `pos`, for a consumer to take. -/
def Awaits (s : System ι α) (i : Nat) (pos : BitVec 64) (item : α) : Prop :=
  i = (pos &&& s.ring.mask).toNat ∧ s.ring.buffer[i]? = some ⟨pos + 1, some item⟩

/-- A `dequeue` of thread `t` has taken position `pos` and is about to return its item. -/
def Returning (s : System ι α) (t : ι) (pos : BitVec 64) : Prop :=
  s.pc t = .dequeueRead pos ∨ ∃ item, s.pc t = .dequeueStoreSeq pos item

/-- Nothing is lost, nothing is delivered twice, and no slot has two owners. -/
structure Safe (s : System ι α) : Prop where
  claims_in_order : (claims s.log).map Prod.fst
    = (List.range (claims s.log).length).map (BitVec.ofNat 64)
  takes_in_order : takes s.log = (List.range (takes s.log).length).map (BitVec.ofNat 64)
  /-- A published item waits in exactly one slot and nobody took it, or exactly one
  `dequeue` took it: one that is about to return it, or one that has returned it. -/
  published_once : ∀ pos ∈ published s.log, ∃ item, (pos, item) ∈ claims s.log
    ∧ ((pos ∉ takes s.log ∧ ∃! i, s.Awaits i pos item)
      ∨ (pos ∈ takes s.log ∧ pos ∉ (returns s.log).map Prod.fst ∧ ∃! t, s.Returning t pos)
      ∨ (pos ∈ takes s.log ∧ (pos, item) ∈ returns s.log
        ∧ ((returns s.log).map Prod.fst).count pos = 1 ∧ ∀ t, ¬ s.Returning t pos))
  /-- What comes out went in at that position. -/
  returns_claimed : ∀ x ∈ returns s.log,
    x ∈ claims s.log ∧ x.1 ∈ published s.log ∧ x.1 ∈ takes s.log
  exclusive : ∀ t t' i, s.owns t = some i → s.owns t' = some i → t = t'

variable {item : α}

section Safe

omit [DecidableEq ι]

theorem map_ofNat_toNat (l : List (BitVec 64)) :
    (l.map BitVec.toNat).map (BitVec.ofNat 64) = l := by
  simp [comp_def]

theorem mem_map_toNat {l : List (BitVec 64)} : pos.toNat ∈ l.map BitVec.toNat ↔ pos ∈ l :=
  mem_map_of_injective fun _ _ h => BitVec.eq_of_toNat_eq h

theorem mem_map_toNat_fst {l : List (BitVec 64 × α)} :
    (pos.toNat, item) ∈ l.map (Prod.map BitVec.toNat id) ↔ (pos, item) ∈ l := by
  constructor
  · intro h
    obtain ⟨⟨pos', item'⟩, hmem, heq⟩ := mem_map.mp h
    obtain ⟨hpos, rfl⟩ := Prod.mk.inj heq
    obtain rfl := BitVec.eq_of_toNat_eq hpos
    exact hmem
  · intro h
    exact mem_map.mpr ⟨_, h, rfl⟩

theorem map_fst_map (l : List (BitVec 64 × α)) :
    (l.map (Prod.map BitVec.toNat id)).map Prod.fst = (l.map Prod.fst).map BitVec.toNat := by
  simp [comp_def]

theorem returning_iff : s.Returning t pos ↔ (s.tickets.phase t).reads = some pos.toNat := by
  have hinj : ∀ x y : BitVec 64, x.toNat = y.toNat ↔ x = y :=
    fun x y => ⟨BitVec.eq_of_toNat_eq, congrArg _⟩
  simp only [Returning, tickets]
  cases s.pc t <;> simp [Pc.phase, Phase.reads, hinj]

theorem owns_eq (hshape : s.ring.Shaped) :
    s.owns t = (s.tickets.phase t).owns.map (· % s.ring.capacity.toNat) := by
  simp only [owns, tickets]
  cases s.pc t <;> simp [Pc.phase, Phase.owns, Phase.writes, Phase.reads, hshape.index]

theorem mem_takes_iff (hinv : Inv s.ring.capacity.toNat s.tickets) :
    pos ∈ takes s.log ↔ pos.toNat < s.ring.tail.toNat := by
  have htakes := hinv.takes_eq
  simp only [tickets, takes_map] at htakes
  rw [← mem_map_toNat, htakes, mem_range]

theorem mem_published_iff : pos ∈ published s.log ↔ pos.toNat ∈ published s.tickets.log := by
  simp only [tickets, published_map, mem_map_toNat]

theorem mem_returns_iff :
    pos ∈ (returns s.log).map Prod.fst ↔ pos.toNat ∈ (returns s.tickets.log).map Prod.fst := by
  simp only [tickets, returns_map, map_fst_map, mem_map_toNat]

theorem mem_claims_iff : (pos, item) ∈ claims s.log ↔ (pos.toNat, item) ∈ claims s.tickets.log := by
  simp only [tickets, claims_map, mem_map_toNat_fst]

/-- A slot that waits for a consumer holds the item of its position. -/
theorem awaits_of_tickets (hshape : s.ring.Shaped) (hlt : pos.toNat < 2 ^ 63)
    (hseq : s.tickets.seq (pos.toNat % s.ring.capacity.toNat) = pos.toNat + 1)
    (hdata : s.tickets.data (pos.toNat % s.ring.capacity.toNat) = some item) :
    ∃! i, s.Awaits i pos item := by
  have hslot := hshape.slotAt_eq pos
  rw [List.getElem?_eq_getElem (hshape.index_lt pos)] at hslot
  have hseq' : s.ring.seqs _ = _ := hseq
  have hdata' : s.ring.datas _ = _ := hdata
  rw [hshape.seqs_of_slotAt hslot, ← toNat_succ hlt] at hseq'
  rw [hshape.datas_eq, hslot] at hdata'
  refine ⟨_, ⟨rfl, ?_⟩, fun j hj => hj.1⟩
  change s.ring.slotAt pos = _
  rw [hslot]
  rw [← BitVec.eq_of_toNat_eq hseq', ← hdata']
  rfl

/-- The ticket ring's invariant is safety of the system. -/
theorem Sound.safe (h : s.Sound) (hops : s.operations < 2 ^ 63) : s.Safe := by
  obtain ⟨hshape, hcap, hinv⟩ := h
  have hheadlt := head_lt hinv hops
  refine ⟨?_, ?_, ?_, ?_, ?_⟩
  · have hclaims := hinv.claims_eq
    rw [hinv.head_eq] at hclaims
    simp only [System.tickets, claims_map, map_fst_map, length_map] at hclaims
    rw [← hclaims, map_ofNat_toNat]
  · have htakes := hinv.takes_eq
    rw [hinv.tail_eq] at htakes
    simp only [System.tickets, takes_map, length_map] at htakes
    rw [← htakes, map_ofNat_toNat]
  · intro pos hpos
    have hpub := mem_published_iff.mp hpos
    have hlt : pos.toNat < s.ring.head.toNat := ((hinv.writers.done_iff _).mp hpub).1
    rcases Nat.lt_or_ge pos.toNat s.ring.tail.toNat with htaken | hwaits
    · have hmem := (mem_takes_iff hinv).mpr htaken
      by_cases hret : pos ∈ (returns s.log).map Prod.fst
      · obtain ⟨⟨pos', item⟩, hx, rfl⟩ := mem_map.mp hret
        have hclaim : (pos'.toNat, item) ∈ claims s.tickets.log := by
          refine hinv.returned_claimed _ ?_
          simpa only [System.tickets, returns_map, mem_map_toNat_fst] using hx
        refine ⟨item, mem_claims_iff.mpr hclaim, .inr (.inr ⟨hmem, hx, ?_, ?_⟩)⟩
        · have hnodup := hinv.readers.nodup
          simp only [System.tickets, returns_map, map_fst_map] at hnodup
          exact count_eq_one_of_mem (hnodup.of_map _) hret
        · intro t ht
          exact ((hinv.readers.done_iff _).mp (mem_returns_iff.mp hret)).2 t
            (returning_iff.mp ht)
      obtain ⟨t, ht⟩ := (hinv.taken htaken).resolve_left fun h => hret (mem_returns_iff.mpr h)
      obtain ⟨⟨p, item⟩, hclaim, hp⟩ : ∃ x ∈ claims s.tickets.log, x.1 = pos.toNat := by
        rw [← mem_map, hinv.claims_eq, mem_range]
        exact hlt
      subst hp
      refine ⟨item, mem_claims_iff.mpr hclaim, .inr (.inl ⟨hmem, hret, t, ?_, ?_⟩)⟩
      · exact returning_iff.mpr ht
      · intro t' ht'
        exact hinv.readers.unique t' t _ (returning_iff.mp ht') ht
    · obtain ⟨item, hseq, hdata, hclaim⟩ := hinv.awaiting hcap hpub hwaits
      refine ⟨item, mem_claims_iff.mpr hclaim, .inl ⟨?_, ?_⟩⟩
      · rw [mem_takes_iff hinv]
        omega
      · exact awaits_of_tickets hshape (by omega) hseq hdata
  · rintro ⟨pos, item⟩ hx
    have hmem : pos ∈ (returns s.log).map Prod.fst := mem_map_of_mem hx
    have hret := (hinv.readers.done_iff _).mp (mem_returns_iff.mp hmem)
    refine ⟨?_, ?_, (mem_takes_iff hinv).mpr hret.1⟩
    · refine mem_claims_iff.mpr (hinv.returned_claimed _ ?_)
      simpa only [System.tickets, returns_map, mem_map_toNat_fst] using hx
    · refine mem_published_iff.mpr ((hinv.writers.done_iff _).mpr ⟨?_, ?_⟩)
      · exact Nat.lt_of_lt_of_le hret.1 hinv.tail_le
      · intro t ht
        exact Nat.not_lt_of_le ((hinv.phase t).of_writes ht).2.1 hret.1
  · intro t t' i ht ht'
    rw [owns_eq hshape, Option.map_eq_some_iff] at ht ht'
    obtain ⟨p, hp, rfl⟩ := ht
    obtain ⟨q, hq, hmod⟩ := ht'
    exact hinv.exclusive hcap hp hq hmod.symm

end Safe

/-! ## A call that runs alone

The whole-call functions of the ring are the schedules in which one thread runs from
the start of its call to the end. -/

/-- Steps of thread `t` alone lead from one state to the other. -/
inductive Alone (t : ι) : System ι α → System ι α → Prop where
  | refl (s : System ι α) : Alone t s s
  | step {s s₁ s' : System ι α} {act : Act α} : s.step t act = some s₁ → Alone t s₁ s' → Alone t s s'

theorem Alone.trans {s₁ s₂ s₃ : System ι α} (h : Alone t s₁ s₂) (h' : Alone t s₂ s₃) :
    Alone t s₁ s₃ := by
  induction h with
  | refl s => exact h'
  | step hstep _ ih => exact .step hstep (ih h')

theorem Alone.exists_run (h : Alone t s s') : ∃ acts, s.run acts = some s' := by
  induction h with
  | refl s => exact ⟨[], rfl⟩
  | @step s s₁ s' act hstep _ ih =>
    obtain ⟨acts, hrun⟩ := ih
    refine ⟨(t, act) :: acts, ?_⟩
    simp only [run, hstep, hrun]

/-- What an `enqueue` at head position `head` reports. -/
def enqueueEvents (item : α) (head : BitVec 64) : Except α Unit → List (Event (BitVec 64) α)
  | .ok () => [.claimed head item, .published head]
  | .error item => [.refused item]

/-- The moves of a thread before its last one leave no trace but their reports. -/
theorem move_then (s : System ι α) (t : ι) (pc pc' : Pc α) (es : List (Event (BitVec 64) α))
    (ring : MpmcRing α) :
    { (s.move t pc []).move t pc' es with ring := ring } = { s.move t pc' es with ring := ring } := by
  simp only [move, update_idem, append_nil]

theorem step_loadHead (s : System ι α) (t : ι) (item : α) (fails : Bool) :
    (s.move t (.enqueueLoadHead item) []).step t (.access fails)
      = some (s.move t (.enqueueLoadSeq item s.ring.head) []) := by
  simp only [step, access, move, update_self, update_idem, append_nil]

theorem alone_enqueueLoop {passes : List Bool} {head : BitVec 64} {result : Except α Unit}
    (hpc : s.pc t = .enqueueLoadSeq item head)
    (hloop : MpmcRing.enqueueLoop item passes head s.ring = some (r, result)) :
    Alone t s { s.move t .idle (enqueueEvents item s.ring.head result) with ring := r } := by
  induction passes generalizing s head with
  | nil => cases hloop
  | cons fails passes ih =>
    simp only [MpmcRing.enqueueLoop] at hloop
    split at hloop
    · cases hloop
    rename_i slot hslot
    split at hloop
    next hdiff =>
      have hsee : s.step t (.access fails) = some (s.move t (.enqueueCas item head) []) := by
        simp only [step, access, hpc, hslot, hdiff, if_true]
      refine .step hsee ?_
      split at hloop
      · -- the exchange went through: write the data, publish it
        rename_i ring hcas
        cases hloop
        have hhead : s.ring.head = head := by
          unfold MpmcRing.casHead at hcas
          split at hcas
          next heq =>
            exact heq.1
          · cases hcas
        have hclaim : (s.move t (.enqueueCas item head) []).step t (.access fails)
            = some { s.move t (.enqueueWrite item head) [.claimed head item] with ring := ring } := by
          simp only [step, access, move, update_self, hcas, update_idem,
            append_nil]
        have hwrite : ({ s.move t (.enqueueWrite item head) [.claimed head item] with
              ring := ring } : System ι α).step t (.access fails)
            = some { s.move t (.enqueueStoreSeq item head) [.claimed head item] with
                ring := ring.writeData head item } := by
          simp only [step, access, move, update_self, update_idem,
            append_nil]
        have hpublish : ({ s.move t (.enqueueStoreSeq item head) [.claimed head item] with
              ring := ring.writeData head item } : System ι α).step t (.access fails)
            = some { s.move t .idle [.claimed head item, .published head] with
                ring := (ring.writeData head item).storeSeq head (head + 1) } := by
          simp only [step, access, move, update_self, update_idem,
            append_assoc, cons_append, nil_append]
        rw [hhead]
        exact .step hclaim (.step hwrite (.step hpublish (.refl _)))
      next h hcas =>
        have hlose : (s.move t (.enqueueCas item head) []).step t (.access fails)
            = some (s.move t (.enqueueLoadSeq item h) []) := by
          simp only [step, access, move, update_self, hcas, update_idem,
            append_nil]
        have hrest := ih (s := s.move t (.enqueueLoadSeq item h) []) (update_self ..) hloop
        rw [move_then] at hrest
        exact .step hlose hrest
    next hdiff =>
      split at hloop
      next hlt =>
        cases hloop
        have hfull : s.step t (.access fails) = some (s.move t .idle [.refused item]) := by
          simp only [step, access, hpc, hslot, hdiff, hlt, if_false, if_true]
        exact .step hfull (.refl _)
      rename_i hge
      have hagain : s.step t (.access fails) = some (s.move t (.enqueueLoadHead item) []) := by
        simp only [step, access, hpc, hslot, hdiff, hge, if_false]
      have hrest := ih (s := s.move t (.enqueueLoadSeq item s.ring.head) [])
        (update_self ..) hloop
      rw [move_then] at hrest
      exact .step hagain (.step (step_loadHead s t item fails) hrest)

/-- `enqueue` is its own steps without interruption. -/
theorem alone_enqueue {passes : List Bool} {result : Except α Unit} (hpc : s.pc t = .idle)
    (hcall : s.ring.enqueue item passes = some (r, result)) :
    Alone t s { s with ring := r, log := s.log ++ enqueueEvents item s.ring.head result } := by
  have hstart : s.step t (.enqueue item) = some (s.move t (.enqueueLoadHead item) []) := by
    simp only [step, hpc]
  have hrest := alone_enqueueLoop (s := s.move t (.enqueueLoadSeq item s.ring.head) [])
    (update_self ..) hcall
  rw [move_then] at hrest
  have hidle : Function.update s.pc t .idle = s.pc := by
    rw [← hpc]
    exact update_eq_self t s.pc
  have hend : ({ s with ring := r, log := s.log ++ enqueueEvents item s.ring.head result } : System ι α)
      = { s.move t .idle (enqueueEvents item s.ring.head result) with ring := r } := by
    simp only [move, hidle]
  rw [hend]
  exact .step hstart (.step (step_loadHead s t item false) hrest)

end System

end Arcbox.Datapath

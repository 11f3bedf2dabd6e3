import Arcbox.Datapath.Interleaving

set_option autoImplicit false

/-!
# Datapath: the packet pool

`PacketPool` keeps the indices of its free buffers in an MPMC ring: `alloc` dequeues
one, `free` enqueues it again and spins while the ring looks full.  Indices change
hands between threads, and only the holder of an index frees it.
-/

namespace Arcbox.Datapath

open Foundation Foundation.TicketRing List Function Option Datapath.System

/-! ## The pool -/

/-- `PacketBuffer`, without the packet's bytes. -/
structure PacketBuffer where
  len : BitVec 32
  index : BitVec 32
  refcount : BitVec 32
  deriving DecidableEq, Repr

/-- `PacketBuffer::new`. -/
def PacketBuffer.new (index : BitVec 32) : PacketBuffer := ⟨0, index, 0⟩

/-- `PacketBuffer::reset`. -/
def PacketBuffer.reset (buffer : PacketBuffer) : PacketBuffer := { buffer with len := 0, refcount := 0 }

@[simp] theorem PacketBuffer.reset_index (buffer : PacketBuffer) :
    buffer.reset.index = buffer.index := rfl

structure PacketPool where
  buffers : List PacketBuffer
  freeIndices : MpmcRing (BitVec 32)
  capacity : BitVec 64
  deriving DecidableEq, Repr

/-- `size_of::<PacketBuffer>()`: the 65535 bytes of a packet and three words, aligned to
64 bytes. -/
def packetBufferSize : Nat := 65600

/-- The user address space of the 64-bit targets; the allocator has no more to give. -/
def addressSpace : Nat := 2 ^ 48

/-- The passes of an `enqueue` whose compare-exchange fails spuriously `n` times. -/
def spuriousPasses (n : Nat) : List Bool := List.replicate n true ++ [false]

/-- The loop of `PacketPool::new` that seeds the ring with indices. -/
def seed (spurious : Nat → Nat) :
    MpmcRing (BitVec 32) → List Nat → Option (MpmcRing (BitVec 32))
  | ring, [] => some ring
  | ring, i :: rest =>
    match ring.enqueue (BitVec.ofNat 32 i) (spuriousPasses (spurious i)) with
    | none => none
    | some (ring, _) => seed spurious ring rest

/-- `PacketPool::new`; `none` where the buffers cannot be allocated. -/
def PacketPool.new (spurious : Nat → Nat) (capacity : BitVec 64) : Option PacketPool :=
  let capacity := if capacity = 0 then 1 else capacity
  if addressSpace < capacity.toNat * packetBufferSize then none
  else
    match MpmcRing.new capacity with
    | none => none
    | some ring =>
      (seed spurious ring (List.range capacity.toNat)).map fun ring =>
        { buffers := (List.range capacity.toNat).map fun i => .new (BitVec.ofNat 32 i)
          freeIndices := ring
          capacity := capacity }

/-! ## Threads at work on a pool -/

/-- A pool with the threads at work on its ring, and who holds which index. -/
structure PoolSystem (ι : Type) where
  buffers : List PacketBuffer
  sys : System ι (BitVec 32)
  holders : List (ι × BitVec 32)

/-- A thread allocates, frees an index it holds, hands one on, or makes the next
access of the call it is in. -/
inductive PoolAct (ι : Type) where
  | alloc
  | free (idx : BitVec 32)
  | pass (heir : ι) (idx : BitVec 32)
  | access (fails : Bool)

namespace PoolSystem

variable {ι : Type} [DecidableEq ι]

/-- What seeding the ring with `m` indices from `k` on reports. -/
def seedEvents (k m : Nat) : List (Event (BitVec 64) (BitVec 32)) :=
  (List.range' k m).flatMap fun i =>
    [.claimed (BitVec.ofNat 64 i) (BitVec.ofNat 32 i), .published (BitVec.ofNat 64 i)]

/-- A new pool: no index is held. -/
def start (pool : PacketPool) : PoolSystem ι where
  buffers := pool.buffers
  sys := ⟨pool.freeIndices, fun _ => .idle, seedEvents 0 pool.capacity.toNat⟩
  holders := []

/-- What the pool does when a call on its ring has ended: a `dequeue` that returned an
index makes the thread its holder, an `enqueue` that was refused is tried again.
`none` where the index is not one of a buffer. -/
def afterAccess (s : PoolSystem ι) (t : ι) (sys : System ι (BitVec 32)) : Option (PoolSystem ι) :=
  match s.sys.pc t, sys.pc t with
  | .dequeueStoreSeq _ idx, _ =>
    if idx.toNat < s.buffers.length then
      some
        { buffers := s.buffers.modify idx.toNat fun buffer => { buffer with refcount := 1 }
          sys := sys
          holders := (t, idx) :: s.holders }
    else none
  | .enqueueLoadSeq idx _, .idle => (sys.step t (.enqueue idx)).map fun sys => { s with sys := sys }
  | _, _ => some { s with sys := sys }

/-- A step of thread `t`. -/
def step (s : PoolSystem ι) (t : ι) : PoolAct ι → Option (PoolSystem ι)
  | .alloc => (s.sys.step t .dequeue).map fun sys => { s with sys := sys }
  | .free idx =>
    if (t, idx) ∈ s.holders then
      match s.buffers[idx.toNat]? with
      | none => none
      | some buffer =>
        (s.sys.step t (.enqueue buffer.index)).map fun sys =>
          { buffers := s.buffers.modify idx.toNat .reset
            sys := sys
            holders := s.holders.erase (t, idx) }
    else none
  | .pass heir idx =>
    if (t, idx) ∈ s.holders then
      some { s with holders := (heir, idx) :: s.holders.erase (t, idx) }
    else none
  | .access fails =>
    match s.sys.step t (.access fails) with
    | none => none
    | some sys => s.afterAccess t sys

/-- Steps in the order of a schedule; `none` where one of them cannot be made. -/
def run (s : PoolSystem ι) : List (ι × PoolAct ι) → Option (PoolSystem ι)
  | [] => some s
  | (t, act) :: acts =>
    match s.step t act with
    | none => none
    | some s => s.run acts

end PoolSystem

/-! ## What an access does to the items -/

/-- The item a thread is about to put, before it has claimed a position. -/
def Pc.offers {α : Type} : Pc α → Option α
  | .enqueueLoadHead item | .enqueueLoadSeq item _ | .enqueueCas item _ => some item
  | _ => none

/-- An access claims a position for an item, is refused, returns an item, or leaves
every item where it is. -/
inductive System.Outcome {ι α : Type} [DecidableEq ι] (s : System ι α) (t : ι) :
    System ι α → Prop where
  | claim {item : α} {head : BitVec 64} (ring : MpmcRing α) : s.pc t = .enqueueCas item head →
      head = s.ring.head →
      Outcome s t { s.move t (.enqueueWrite item head) [.claimed head item] with ring := ring }
  | refuse {item : α} {head : BitVec 64} : s.pc t = .enqueueLoadSeq item head →
      Outcome s t (s.move t .idle [.refused item])
  | give {item : α} {tail : BitVec 64} (ring : MpmcRing α) : s.pc t = .dequeueStoreSeq tail item →
      Outcome s t { s.move t .idle [.returned tail item] with ring := ring }
  | stay {pc : Pc α} {es : List (Event (BitVec 64) α)} (ring : MpmcRing α) :
      pc.offers = (s.pc t).offers → (∀ tail item, s.pc t ≠ .dequeueStoreSeq tail item) →
      claims es = [] → returns es = [] → Outcome s t { s.move t pc es with ring := ring }

theorem System.access_outcome {ι α : Type} [DecidableEq ι] {s s' : System ι α} {t : ι}
    {fails : Bool} (hstep : s.access t fails = some s') : s.Outcome t s' := by
  unfold access at hstep
  cases hpc : s.pc t with
  | idle =>
    rw [hpc] at hstep
    cases hstep
  | enqueueLoadHead | enqueueWrite | enqueueStoreSeq | dequeueLoadTail =>
    rw [hpc] at hstep
    cases hstep
    exact .stay _ (by rw [hpc]; rfl) (by simp [hpc]) rfl rfl
  | enqueueLoadSeq item head =>
    simp only [hpc] at hstep
    split at hstep
    · cases hstep
    split at hstep
    · cases hstep
      exact .stay s.ring (by rw [hpc]; rfl) (by simp [hpc]) rfl rfl
    split at hstep
    · cases hstep
      exact .refuse hpc
    · cases hstep
      exact .stay s.ring (by rw [hpc]; rfl) (by simp [hpc]) rfl rfl
  | enqueueCas item head =>
    simp only [hpc, MpmcRing.casHead] at hstep
    split at hstep
    next ring hcas =>
      split at hcas
      next heq =>
        cases hstep
        exact .claim ring hpc heq.1.symm
      · cases hcas
    · cases hstep
      exact .stay s.ring (by rw [hpc]; rfl) (by simp [hpc]) rfl rfl
  | dequeueLoadSeq tail =>
    simp only [hpc] at hstep
    split at hstep
    · cases hstep
    split at hstep
    · cases hstep
      exact .stay s.ring (by rw [hpc]; rfl) (by simp [hpc]) rfl rfl
    · split at hstep <;> cases hstep <;>
        exact .stay s.ring (by rw [hpc]; rfl) (by simp [hpc]) rfl rfl
  | dequeueCas | dequeueRead =>
    simp only [hpc] at hstep
    split at hstep <;> cases hstep
    all_goals exact .stay _ (by rw [hpc]; rfl) (by simp [hpc]) rfl rfl
  | dequeueStoreSeq tail item =>
    rw [hpc] at hstep
    cases hstep
    exact .give _ hpc

/-! ## Every index is in one place -/

/-- Where an index can be: held, about to be put back by a thread, or at a position of
the ring that has not been returned. -/
inductive Place (ι : Type) where
  | held
  | freeing (t : ι)
  | queued (pos : BitVec 64)

/-- No token is in two places. -/
def SinglePlaced {X K : Type} (placed : X → K → Prop) : Prop :=
  ∀ k x y, placed x k → placed y k → x = y

section SinglePlaced

variable {X K : Type} {A A' : X → K → Prop}

theorem SinglePlaced.mono (h : SinglePlaced A) (hsub : ∀ x k, A' x k → A x k) : SinglePlaced A' :=
  fun k x y hx hy => h k x y (hsub x k hx) (hsub y k hy)

/-- A token moves from one place to another. -/
theorem SinglePlaced.move (h : SinglePlaced A) {k₀ : K} {src : X} (dst : X) (hsrc : A src k₀)
    (hnew : ∀ x k, A' x k → (A x k ∧ ¬ (x = src ∧ k = k₀)) ∨ (x = dst ∧ k = k₀)) :
    SinglePlaced A' := by
  intro k x y hx hy
  rcases hnew x k hx with ⟨hAx, hx'⟩ | ⟨rfl, rfl⟩ <;> rcases hnew y k hy with ⟨hAy, hy'⟩ | ⟨rfl, hk⟩
  · exact h k x y hAx hAy
  · subst hk
    exact absurd ⟨h k x src hAx hsrc, rfl⟩ hx'
  · exact absurd ⟨h k y src hAy hsrc, rfl⟩ hy'
  · rfl

end SinglePlaced

variable {idx : BitVec 32}

namespace PoolSystem

variable {ι : Type} [DecidableEq ι]

/-- Index `idx` is in a place. -/
def At (s : PoolSystem ι) : Place ι → BitVec 32 → Prop
  | .held, idx => idx ∈ s.holders.map Prod.snd
  | .freeing t, idx => (s.sys.pc t).offers = some idx
  | .queued pos, idx => (pos, idx) ∈ claims s.sys.log ∧ pos ∉ (returns s.sys.log).map Prod.fst

/-- The ring is sound, buffers carry their own index, and no index is in two places or
has two holders. -/
structure Sound (s : PoolSystem ι) : Prop where
  sys : s.sys.Sound
  indices : ∀ i buffer, s.buffers[i]? = some buffer → buffer.index = BitVec.ofNat 32 i
  nodup : (s.holders.map Prod.snd).Nodup
  single : SinglePlaced s.At

section Step

variable {s s' : PoolSystem ι} {t : ι}

omit [DecidableEq ι] in
theorem indices_modify {buffers : List PacketBuffer} (f : PacketBuffer → PacketBuffer)
    (hf : ∀ buffer, (f buffer).index = buffer.index) (j : Nat)
    (h : ∀ i buffer, buffers[i]? = some buffer → buffer.index = BitVec.ofNat 32 i) :
    ∀ i buffer, (buffers.modify j f)[i]? = some buffer → buffer.index = BitVec.ofNat 32 i := by
  intro i buffer hi
  rw [List.getElem?_modify] at hi
  obtain ⟨b, hb, hbuf⟩ := map_eq_some_iff.mp hi
  split at hbuf
  · subst hbuf
    rw [hf]
    exact h i b hb
  · subst hbuf
    exact h i b hb

/-- What a thread offers to the ring after a move: its own thread's new offer, or an old one. -/
theorem offers_move {pc : Pc (BitVec 32)} {t' : ι} {k : BitVec 32}
    (h : (update s.sys.pc t pc t').offers = some k) :
    t' = t ∧ pc.offers = some k ∨ t' ≠ t ∧ (s.sys.pc t').offers = some k := by
  rcases eq_or_ne t' t with rfl | hne
  · exact .inl ⟨rfl, by rwa [update_self] at h⟩
  · exact .inr ⟨hne, by rwa [update_of_ne hne] at h⟩

theorem Sound.alloc (h : s.Sound) (hops : s.sys.operations < 2 ^ 63)
    (hstep : s.step t .alloc = some s') : s'.Sound := by
  simp only [step] at hstep
  obtain ⟨sys, hsys, rfl⟩ := map_eq_some_iff.mp hstep
  refine ⟨h.sys.step hops hsys, h.indices, h.nodup, h.single.mono ?_⟩
  simp only [System.step] at hsys
  split at hsys
  · cases hsys
    intro x k hx
    cases x with
    | held => exact hx
    | freeing t' =>
      rcases offers_move hx with ⟨-, hnone⟩ | ⟨-, hold⟩
      · cases hnone
      · exact hold
    | queued pos => simpa only [At, move, append_nil] using hx
  · cases hsys

theorem Sound.free (h : s.Sound) (hops : s.sys.operations < 2 ^ 63)
    (hstep : s.step t (.free idx) = some s') : s'.Sound := by
  simp only [step] at hstep
  split at hstep
  next hmem =>
    split at hstep
    · cases hstep
    rename_i buffer hbuffer
    obtain ⟨sys, hsys, rfl⟩ := map_eq_some_iff.mp hstep
    have hindex : buffer.index = idx := by
      rw [h.indices _ _ hbuffer, BitVec.ofNat_toNat, BitVec.setWidth_eq]
    have hheld : s.At .held idx := mem_map_of_mem hmem
    have hperm : (idx :: (s.holders.erase (t, idx)).map Prod.snd).Perm
        (s.holders.map Prod.snd) := ((perm_cons_erase hmem).map Prod.snd).symm
    have hnodup := hperm.nodup_iff.mpr h.nodup
    rw [nodup_cons] at hnodup
    refine ⟨h.sys.step hops hsys, indices_modify _ PacketBuffer.reset_index _ h.indices, hnodup.2,
      h.single.move (.freeing t) hheld ?_⟩
    simp only [System.step] at hsys
    split at hsys
    · cases hsys
      intro x k hx
      cases x with
      | held =>
        refine .inl ⟨hperm.mem_iff.mp (mem_cons_of_mem _ hx), ?_⟩
        rintro ⟨-, rfl⟩
        exact hnodup.1 hx
      | freeing t' =>
        rcases offers_move hx with ⟨rfl, hnew⟩ | ⟨-, hold⟩
        · exact .inr ⟨rfl, (some.inj hnew).symm.trans hindex⟩
        · exact .inl ⟨hold, fun hk => by cases hk.1⟩
      | queued pos =>
        refine .inl ⟨?_, fun hk => by cases hk.1⟩
        simpa only [At, move, append_nil] using hx
    · cases hsys
  · cases hstep

theorem Sound.pass (h : s.Sound) {heir : ι} (hstep : s.step t (.pass heir idx) = some s') :
    s'.Sound := by
  simp only [step] at hstep
  split at hstep
  next hmem =>
    cases hstep
    have hperm : ((heir, idx) :: s.holders.erase (t, idx)).map Prod.snd |>.Perm
        (s.holders.map Prod.snd) := by
      have := (perm_cons_erase hmem).map Prod.snd
      exact this.symm
    refine ⟨h.sys, h.indices, hperm.nodup_iff.mpr h.nodup, h.single.mono ?_⟩
    intro x k hx
    cases x with
    | held => exact hperm.mem_iff.mp hx
    | freeing | queued => exact hx
  · cases hstep

omit [DecidableEq ι] in
/-- The item a `dequeue` is about to return is still at its position. -/
theorem Sound.queued (h : s.Sound) {tail : BitVec 64}
    (hpc : s.sys.pc t = .dequeueStoreSeq tail idx) : s.At (.queued tail) idx := by
  have hphase : s.sys.tickets.phase t = .read tail.toNat idx := congrArg Pc.phase hpc
  have hok := h.sys.tickets.phase t
  rw [hphase] at hok
  refine ⟨mem_claims_iff.mpr hok.2, fun hret => ?_⟩
  have hdone := (h.sys.tickets.readers.done_iff _).mp (mem_returns_iff.mp hret)
  exact hdone.2 t (by rw [hphase]; rfl)

theorem afterAccess_stay {pc : Pc (BitVec 32)} {sys : System ι (BitVec 32)}
    (hpc : sys.pc t = pc) (hoffers : pc.offers = (s.sys.pc t).offers)
    (hret : ∀ tail item, s.sys.pc t ≠ .dequeueStoreSeq tail item) :
    s.afterAccess t sys = some { s with sys := sys } := by
  unfold afterAccess
  split
  next tail idx hold =>
    exact absurd hold (hret tail idx)
  next idx head hold hidle =>
    rw [hold, ← hpc, hidle] at hoffers
    cases hoffers
  · rfl

/-! ## Where an access leaves the indices -/

/-- A won CAS takes the index from its thread to a position of the ring. -/
theorem Sound.single_claim (h : s.Sound) {head : BitVec 64} (ring : MpmcRing (BitVec 32))
    (hpc : s.sys.pc t = .enqueueCas idx head) :
    SinglePlaced (PoolSystem.At { s with
      sys := { s.sys.move t (.enqueueWrite idx head) [.claimed head idx] with ring := ring } }) := by
  have hsrc : s.At (.freeing t) idx := by simp only [At, hpc, Pc.offers]
  refine h.single.move (.queued head) hsrc ?_
  intro x k hx
  cases x with
  | held => exact .inl ⟨hx, fun hk => by cases hk.1⟩
  | freeing t' =>
    rcases offers_move hx with ⟨-, hnone⟩ | ⟨hne, hold⟩
    · cases hnone
    · exact .inl ⟨hold, fun hk => hne (Place.freeing.inj hk.1)⟩
  | queued pos =>
    obtain ⟨hmem, hret⟩ := hx
    simp only [move, claims_append, returns_append, mem_append] at hmem hret
    rcases hmem with hmem | hmem
    · refine .inl ⟨⟨hmem, fun hpos => hret ?_⟩, fun hk => by cases hk.1⟩
      rw [map_append]
      exact mem_append_left _ hpos
    · obtain ⟨rfl, rfl⟩ := Prod.mk.inj (mem_singleton.mp hmem)
      exact .inr ⟨rfl, rfl⟩

/-- A `dequeue` that returns takes the index from its position to the caller. -/
theorem Sound.single_give (h : s.Sound) {tail : BitVec 64} (ring : MpmcRing (BitVec 32))
    (buffers : List PacketBuffer) (hpc : s.sys.pc t = .dequeueStoreSeq tail idx) :
    SinglePlaced (PoolSystem.At { s with
      sys := { s.sys.move t .idle [.returned tail idx] with ring := ring }
      buffers := buffers
      holders := (t, idx) :: s.holders }) := by
  refine h.single.move .held (h.queued hpc) ?_
  intro x k hx
  cases x with
  | held =>
    simp only [At, map_cons, mem_cons] at hx
    rcases hx with rfl | hx
    · exact .inr ⟨rfl, rfl⟩
    · exact .inl ⟨hx, fun hk => by cases hk.1⟩
  | freeing t' =>
    rcases offers_move hx with ⟨-, hnone⟩ | ⟨-, hold⟩
    · cases hnone
    · exact .inl ⟨hold, fun hk => by cases hk.1⟩
  | queued pos =>
    obtain ⟨hmem, hret⟩ := hx
    simp only [move, claims_append, returns_append, map_append,
      mem_append, not_or] at hmem hret
    refine .inl ⟨⟨?_, hret.1⟩, ?_⟩
    · exact hmem.resolve_right (by simp [claims])
    · rintro ⟨hpos, -⟩
      cases hpos
      exact hret.2 (by simp [returns])

/-- Any other access leaves every index where it is. -/
theorem Sound.single_stay (h : s.Sound) (pc : Pc (BitVec 32))
    (es : List (Event (BitVec 64) (BitVec 32))) (ring : MpmcRing (BitVec 32))
    (hoffers : pc.offers = (s.sys.pc t).offers) (hclaims : claims es = [])
    (hreturns : returns es = []) :
    SinglePlaced (PoolSystem.At { s with sys := { s.sys.move t pc es with ring := ring } }) := by
  refine h.single.mono ?_
  intro x k hx
  cases x with
  | held => exact hx
  | freeing t' =>
    rcases offers_move hx with ⟨rfl, hnew⟩ | ⟨-, hold⟩
    · exact hoffers.symm.trans hnew
    · exact hold
  | queued pos =>
    simpa only [At, move, claims_append, returns_append, hclaims, hreturns,
      append_nil] using hx

theorem Sound.access (h : s.Sound) {fails : Bool} (hops : s.sys.operations < 2 ^ 63)
    (hstep : s.step t (.access fails) = some s') (hops' : s'.sys.operations < 2 ^ 63) :
    s'.Sound := by
  simp only [step] at hstep
  split at hstep
  · cases hstep
  rename_i sys hsys
  have hsound := h.sys.step hops hsys
  cases access_outcome hsys with
  | @claim idx head ring hpc hhead =>
    simp only [afterAccess, hpc] at hstep
    cases hstep
    exact ⟨hsound, h.indices, h.nodup, h.single_claim ring hpc⟩
  | @refuse idx head hpc =>
    have hidle : (s.sys.move t .idle [.refused idx]).pc t = .idle := update_self ..
    simp only [afterAccess, hpc, hidle] at hstep
    obtain ⟨sys', hsys', rfl⟩ := map_eq_some_iff.mp hstep
    have hle := operations_le_step hsys'
    refine ⟨hsound.step (Nat.lt_of_le_of_lt hle hops') hsys', h.indices, h.nodup, ?_⟩
    -- The index is offered again at once, so the two moves are one.
    simp only [System.step, hidle, Option.some.injEq] at hsys'
    subst hsys'
    have hstay := h.single_stay (t := t) (.enqueueLoadHead idx) [.refused idx] s.sys.ring
      (by rw [hpc]; rfl) rfl rfl
    simpa only [move, update_idem, append_nil] using hstay
  | @give idx tail ring hpc =>
    simp only [afterAccess, hpc] at hstep
    split at hstep
    · cases hstep
      refine ⟨hsound, indices_modify (fun buffer => { buffer with refcount := 1 })
        (fun _ => rfl) _ h.indices, ?_, h.single_give ring _ hpc⟩
      rw [map_cons, nodup_cons]
      have hnot : idx ∉ s.holders.map Prod.snd := fun hheld => by
        cases h.single idx .held (.queued tail) hheld (h.queued hpc)
      exact ⟨hnot, h.nodup⟩
    · cases hstep
  | @stay pc es ring hoffers hret hclaims hreturns =>
    rw [afterAccess_stay (update_self ..) hoffers hret] at hstep
    cases hstep
    exact ⟨hsound, h.indices, h.nodup, h.single_stay pc es ring hoffers hclaims hreturns⟩

theorem operations_le_step {act : PoolAct ι} (hstep : s.step t act = some s') :
    s.sys.operations ≤ s'.sys.operations := by
  cases act with
  | alloc =>
    obtain ⟨sys, hsys, rfl⟩ := map_eq_some_iff.mp hstep
    exact operations_le_step hsys
  | free idx =>
    simp only [step] at hstep
    split at hstep
    · split at hstep
      · cases hstep
      · obtain ⟨sys, hsys, rfl⟩ := map_eq_some_iff.mp hstep
        exact operations_le_step hsys
    · cases hstep
  | pass heir idx =>
    simp only [step] at hstep
    split at hstep
    · cases hstep
      exact .refl
    · cases hstep
  | access fails =>
    simp only [step] at hstep
    split at hstep
    · cases hstep
    rename_i sys hsys
    refine Nat.le_trans (System.operations_le_step hsys) ?_
    unfold afterAccess at hstep
    split at hstep
    · split at hstep
      · cases hstep
        exact .refl
      · cases hstep
    · obtain ⟨sys', hsys', rfl⟩ := map_eq_some_iff.mp hstep
      exact operations_le_step hsys'
    · cases hstep
      exact .refl

theorem Sound.step {act : PoolAct ι} (h : s.Sound) (hstep : s.step t act = some s')
    (hops : s'.sys.operations < 2 ^ 63) : s'.Sound := by
  have hlt := Nat.lt_of_le_of_lt (operations_le_step hstep) hops
  cases act with
  | alloc => exact h.alloc hlt hstep
  | free idx => exact h.free hlt hstep
  | pass heir idx => exact h.pass hstep
  | access fails => exact h.access hlt hstep hops

theorem run_sound {acts : List (ι × PoolAct ι)} (hrun : s.run acts = some s')
    (hops : s'.sys.operations < 2 ^ 63) :
    s.sys.operations ≤ s'.sys.operations ∧ (s.Sound → s'.Sound) := by
  induction acts generalizing s with
  | nil =>
    cases hrun
    exact ⟨.refl, id⟩
  | cons ta acts ih =>
    obtain ⟨t, act⟩ := ta
    simp only [PoolSystem.run] at hrun
    split at hrun
    · cases hrun
    next s₁ hstep =>
      obtain ⟨hle, hsound⟩ := ih hrun
      exact ⟨Nat.le_trans (operations_le_step hstep) hle,
        fun h => hsound (h.step hstep (Nat.lt_of_le_of_lt hle hops))⟩

end Step

end PoolSystem

/-! ## A new pool -/

theorem fair_spuriousPasses (n : Nat) : false ∈ spuriousPasses n := by simp [spuriousPasses]

namespace PoolSystem

theorem seedEvents_succ (k m : Nat) :
    seedEvents k (m + 1) = [.claimed (BitVec.ofNat 64 k) (BitVec.ofNat 32 k),
      .published (BitVec.ofNat 64 k)] ++ seedEvents (k + 1) m := by
  simp only [seedEvents, List.range'_succ, flatMap_cons]

/-- Seeding is a run of the thread that makes the pool. -/
theorem alone_seed {ι : Type} [DecidableEq ι] (t : ι) {spurious : Nat → Nat}
    {ring ring' : MpmcRing (BitVec 32)} {q : List (BitVec 32)} (h : ring.Holds 0 q)
    (hcap : 2 ≤ ring.capacity.toNat) {k m : Nat} (hk : q.length = k)
    (hroom : k + m ≤ ring.capacity.toNat)
    (hseed : seed spurious ring (List.range' k m) = some ring')
    (log : List (Event (BitVec 64) (BitVec 32))) :
    System.Alone t ⟨ring, fun _ => .idle, log⟩ ⟨ring', fun _ => .idle, log ++ seedEvents k m⟩ := by
  induction m generalizing ring q k log with
  | zero =>
    cases hseed
    simp only [seedEvents, List.range'_zero, flatMap_nil, append_nil]
    exact .refl _
  | succ m ih =>
    have hcall := h.enqueue (BitVec.ofNat 32 k) (fair_spuriousPasses (spurious k)) hcap
    rw [if_neg (by omega)] at hcall
    rw [List.range'_succ] at hseed
    simp only [seed, hcall] at hseed
    have hhead : ring.head = BitVec.ofNat 64 k := by
      rw [h.head_eq, hk]
      simp [Serial.seqAt]
    have hfirst := alone_enqueue (s := ⟨ring, fun _ => .idle, log⟩) (t := t) rfl hcall
    have hrest := ih (h.enqueued _ (by omega)) hcap (by simp [hk]) (by
      change k + 1 + m ≤ ring.capacity.toNat
      omega) hseed (log ++ [.claimed (BitVec.ofNat 64 k) (BitVec.ofNat 32 k),
        .published (BitVec.ofNat 64 k)])
    simp only [hhead, enqueueEvents] at hfirst
    rw [seedEvents_succ, ← append_assoc]
    exact hfirst.trans hrest

theorem claims_seedEvents (k m : Nat) :
    claims (seedEvents k m)
      = (List.range' k m).map fun i => (BitVec.ofNat 64 i, BitVec.ofNat 32 i) := by
  induction m generalizing k with
  | zero => rfl
  | succ m ih =>
    rw [seedEvents_succ, claims_append, ih, List.range'_succ, map_cons]
    rfl

theorem mem_claims_seedEvents {m : Nat} {pos : BitVec 64}
    (h : (pos, idx) ∈ claims (seedEvents 0 m)) :
    ∃ i, i < m ∧ pos = BitVec.ofNat 64 i ∧ idx = BitVec.ofNat 32 i := by
  rw [claims_seedEvents, List.mem_map] at h
  obtain ⟨i, hi, heq⟩ := h
  obtain ⟨rfl, rfl⟩ := Prod.mk.inj heq
  exact ⟨i, by simpa using hi, rfl, rfl⟩

theorem le_capacity {α : Type} {n : BitVec 64} {r : MpmcRing α} (hnew : MpmcRing.new n = some r)
    (hn : n.toNat ≤ 2 ^ 63) : n.toNat ≤ r.capacity.toNat := by
  unfold MpmcRing.new at hnew
  split at hnew
  · cases hnew
  rename_i hne
  cases hnew
  have hpos : 1 ≤ n.toNat := Nat.one_le_iff_ne_zero.mpr fun hz => hne (BitVec.eq_of_toNat_eq hz)
  have hsize : (n.toNat - 1).size ≤ 63 := Nat.size_le.mpr (by omega)
  have hself := Nat.lt_size_self (n.toNat - 1)
  dsimp only
  rw [toNat_nextPowerOfTwo hpos, Nat.mod_eq_of_lt (Nat.pow_lt_pow_right (by decide) (by omega))]
  omega

theorem sound_start {ι : Type} [DecidableEq ι] (t : ι) {spurious : Nat → Nat} {c : BitVec 64}
    {pool : PacketPool} (hnew : PacketPool.new spurious c = some pool) (htwo : 2 ≤ c.toNat)
    (hops : (start pool : PoolSystem ι).sys.operations < 2 ^ 63) :
    (start pool : PoolSystem ι).Sound := by
  have hne : c ≠ 0 := by
    rintro rfl
    cases htwo
  simp only [PacketPool.new, if_neg hne] at hnew
  split at hnew
  · cases hnew
  rename_i hfits
  have hc : c.toNat ≤ 2 ^ 32 := by
    simp only [addressSpace, packetBufferSize] at hfits
    omega
  split at hnew
  · cases hnew
  rename_i ring hring
  obtain ⟨ring', hseed, rfl⟩ := map_eq_some_iff.mp hnew
  have hcap := two_le_capacity hring htwo (by omega)
  have hroom := le_capacity hring (by omega)
  rw [range_eq_range'] at hseed
  have halone := alone_seed t (MpmcRing.holds_new hring (by omega)) hcap length_nil
    (by omega) hseed []
  obtain ⟨acts, hrun⟩ := halone.exists_run
  refine ⟨(System.run_sound hrun hops).2 (System.sound_start hring hcap), ?_, nodup_nil, ?_⟩
  · intro i buffer hbuffer
    simp only [start, List.getElem?_map, map_eq_some_iff] at hbuffer
    obtain ⟨j, hj, rfl⟩ := hbuffer
    obtain ⟨_, rfl⟩ := List.getElem?_eq_some_iff.mp hj
    simp [PacketBuffer.new]
  intro idx x y hx hy
  cases x with
  | held | freeing => cases hx
  | queued pos =>
    cases y with
    | held | freeing => cases hy
    | queued pos' =>
      obtain ⟨i, hi, rfl, rfl⟩ := mem_claims_seedEvents hx.1
      obtain ⟨j, hj, rfl, heq⟩ := mem_claims_seedEvents hy.1
      have hij := congrArg BitVec.toNat heq
      simp only [BitVec.toNat_ofNat] at hij hi hj
      obtain rfl : i = j := by omega
      rfl

end PoolSystem

/-- In every interleaving nothing that went into the ring is lost or comes out twice, no
slot has two owners, and items come out in the order of their claims; and the pool
never has two holders of one index. -/
theorem mpmc_ring_safe {ι α : Type} [DecidableEq ι] :
    (∀ (n : BitVec 64) (r : MpmcRing α), MpmcRing.new n = some r → 2 ≤ r.capacity.toNat →
      ∀ (acts : List (ι × Act α)) (s : System ι α), (System.start r).run acts = some s →
        s.operations < 2 ^ 63 → s.Safe)
    ∧ (∀ (spurious : Nat → Nat) (c : BitVec 64) (pool : PacketPool),
      PacketPool.new spurious c = some pool → 2 ≤ c.toNat →
      ∀ (acts : List (ι × PoolAct ι)) (s : PoolSystem ι),
        (PoolSystem.start pool).run acts = some s → s.sys.operations < 2 ^ 63 →
          (s.holders.map Prod.snd).Nodup) := by
  refine ⟨?_, ?_⟩
  · intro n r hnew hcap acts s hrun hops
    exact ((run_sound hrun hops).2 (sound_start hnew hcap)).safe hops
  intro spurious c pool hnew htwo acts s hrun hops
  cases acts with
  | nil =>
    cases hrun
    exact nodup_nil
  | cons ta acts =>
    obtain ⟨hle, hsound⟩ := PoolSystem.run_sound hrun hops
    have hstart := Nat.lt_of_le_of_lt hle hops
    exact (hsound (PoolSystem.sound_start ta.1 hnew htwo hstart)).nodup

/-- Two threads put into a ring of two slots at once, and one of them takes an item. -/
def twoProducers : List (Bool × Act Nat) :=
  [(true, .enqueue 5), (false, .enqueue 6), (true, .access false), (false, .access false),
    (true, .access false), (false, .access false), (true, .access true), (false, .access false),
    (true, .access false), (true, .access false), (true, .access false), (false, .access false),
    (true, .access false), (false, .access false), (true, .access false), (false, .dequeue),
    (false, .access false), (false, .access false), (false, .access false), (false, .access false),
    (false, .access false)]

/-- A new ring of two slots. -/
def twoSlots : MpmcRing Nat := ⟨[⟨0, none⟩, ⟨1, none⟩], 2, 1, 0, 0⟩

theorem isSome_run_twoProducers : ((start twoSlots).run twoProducers).isSome = true := by
  decide

theorem mpmc_ring_safe_two_producers :
    MpmcRing.new 2 = some twoSlots ∧ 2 ≤ twoSlots.capacity.toNat
      ∧ (((System.start twoSlots).run twoProducers).get isSome_run_twoProducers).operations < 2 ^ 63
      ∧ (((System.start twoSlots).run twoProducers).get isSome_run_twoProducers).Safe :=
  ⟨rfl, by decide, by decide, mpmc_ring_safe.1 2 twoSlots rfl (by decide) twoProducers _
    (Option.some_get _).symm (by decide)⟩

end Arcbox.Datapath

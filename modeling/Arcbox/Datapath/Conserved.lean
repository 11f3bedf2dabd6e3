import Arcbox.Datapath.PacketPool

set_option autoImplicit false

/-!
# Datapath: no buffer is lost

A step of the pool moves at most one index from one place to another, so every index of
a buffer stays held, on its way back, or in the ring.
-/

namespace Arcbox.Datapath

open Foundation Foundation.TicketRing List Function Option Datapath.System

namespace PoolSystem

variable {ι : Type} [DecidableEq ι] {s s' : PoolSystem ι} {t : ι} {idx k : BitVec 32} {x : Place ι}

omit [DecidableEq ι] in
/-- A position is claimed for one item. -/
theorem Sound.claim_unique (h : s.Sound) {pos : BitVec 64} (hk : (pos, k) ∈ claims s.sys.log)
    (hidx : (pos, idx) ∈ claims s.sys.log) : k = idx := by
  have hnodup : ((claims s.sys.tickets.log).map Prod.fst).Nodup := by
    rw [h.sys.tickets.claims_eq]
    exact nodup_range
  have heq := inj_on_of_nodup_map hnodup (mem_claims_iff.mp hk) (mem_claims_iff.mp hidx) rfl
  exact (Prod.mk.inj heq).2

omit [DecidableEq ι] in
/-- The next position has not been returned. -/
theorem Sound.head_not_returned (h : s.Sound) :
    s.sys.ring.head ∉ (returns s.sys.log).map Prod.fst := by
  intro hret
  obtain ⟨⟨pos, item⟩, hmem, rfl⟩ := List.mem_map.mp (mem_returns_iff.mp hret)
  have hclaimed := mem_map_of_mem (f := Prod.fst) (h.sys.tickets.returned_claimed _ hmem)
  rw [h.sys.tickets.claims_eq, mem_range] at hclaimed
  exact Nat.lt_irrefl _ hclaimed

/-- A thread moves on, possibly with more holders: an index stays where it is unless the thread
was about to put it back and no longer is, or has returned it. -/
theorem at_moved {pc : Pc (BitVec 32)} {es : List (Event (BitVec 64) (BitVec 32))}
    {ring : MpmcRing (BitVec 32)} {buffers : List PacketBuffer} {holders : List (ι × BitVec 32)}
    (hx : s.At x k) (hheld : x = .held → k ∈ holders.map Prod.snd)
    (hfreeing : x = .freeing t → pc.offers = some k)
    (hqueued : ∀ pos, x = .queued pos → pos ∉ (returns es).map Prod.fst) :
    At ⟨buffers, { s.sys.move t pc es with ring := ring }, holders⟩ x k := by
  cases x with
  | held => exact hheld rfl
  | freeing t' =>
    simp only [At, move] at hx ⊢
    rcases eq_or_ne t' t with rfl | hne
    · rw [update_self]
      exact hfreeing rfl
    · rwa [update_of_ne hne]
  | queued pos =>
    simp only [At, move, claims_append, returns_append, map_append, mem_append, not_or]
    exact ⟨.inl hx.1, hx.2, hqueued pos rfl⟩

omit [DecidableEq ι] in
theorem not_freeing (hx : s.At x k) (hpc : (s.sys.pc t).offers = none) : x ≠ .freeing t := by
  rintro rfl
  simp only [At, hpc] at hx
  cases hx

theorem exists_at_free (hx : s.At x k) (hstep : s.step t (.free idx) = some s') (h : s.Sound) :
    ∃ y, s'.At y k := by
  simp only [step] at hstep
  split at hstep
  next hmem =>
    split at hstep
    · cases hstep
    rename_i buffer hbuffer
    obtain ⟨sys, hsys, rfl⟩ := map_eq_some_iff.mp hstep
    simp only [System.step] at hsys
    split at hsys
    next hidle =>
      cases hsys
      have hnot : x ≠ .freeing t := not_freeing hx (by rw [hidle]; rfl)
      by_cases hgone : x = .held ∧ k = idx
      · obtain ⟨rfl, rfl⟩ := hgone
        have hindex : buffer.index = k := by
          rw [h.indices _ _ hbuffer, BitVec.ofNat_toNat, BitVec.setWidth_eq]
        exact ⟨.freeing t, by simp only [At, move, update_self, Pc.offers, hindex]⟩
      · refine ⟨x, at_moved hx (fun hheld => ?_) (fun heq => absurd heq hnot) fun _ _ => not_mem_nil⟩
        subst hheld
        have hperm := (perm_cons_erase hmem).map Prod.snd
        exact (mem_cons.mp (hperm.mem_iff.mp hx)).resolve_left fun heq => hgone ⟨rfl, heq⟩
    · cases hsys
  · cases hstep

theorem exists_at_access {fails : Bool} (hx : s.At x k)
    (hstep : s.step t (.access fails) = some s') (h : s.Sound) : ∃ y, s'.At y k := by
  simp only [step] at hstep
  split at hstep
  · cases hstep
  rename_i sys hsys
  have hheld : x = .held → k ∈ s.holders.map Prod.snd := by
    rintro rfl
    exact hx
  cases access_outcome hsys with
  | @claim idx head ring hpc hhead =>
    simp only [afterAccess, hpc] at hstep
    cases hstep
    by_cases hfree : x = .freeing t
    · subst hfree
      simp only [At, hpc, Pc.offers, Option.some.injEq] at hx
      refine ⟨.queued head, ?_, ?_⟩
      · simp [move, claims, hx]
      · simpa [move, returns_append, returns, hhead] using h.head_not_returned
    · exact ⟨x, at_moved hx hheld (fun heq => absurd heq hfree) fun _ _ => not_mem_nil⟩
  | @refuse idx head hpc =>
    have hidle : (s.sys.move t .idle [.refused idx]).pc t = .idle := update_self ..
    simp only [afterAccess, hpc, hidle] at hstep
    obtain ⟨sys', hsys', rfl⟩ := map_eq_some_iff.mp hstep
    simp only [System.step, hidle, Option.some.injEq] at hsys'
    subst hsys'
    have hagain : (s.sys.move t .idle [.refused idx]).move t (.enqueueLoadHead idx) []
        = s.sys.move t (.enqueueLoadHead idx) [.refused idx] := by
      simp only [move, update_idem, append_nil]
    rw [hagain]
    refine ⟨x, at_moved hx hheld ?_ fun _ _ => not_mem_nil⟩
    rintro rfl
    simpa only [At, hpc, Pc.offers] using hx
  | @give idx tail ring hpc =>
    simp only [afterAccess, hpc] at hstep
    split at hstep
    · cases hstep
      have hnot : x ≠ .freeing t := not_freeing hx (by rw [hpc]; rfl)
      by_cases hgone : x = .queued tail
      · subst hgone
        obtain rfl := h.claim_unique hx.1 (h.queued hpc).1
        exact ⟨.held, mem_cons_self⟩
      · refine ⟨x, at_moved hx (fun heq => mem_cons_of_mem _ (hheld heq))
          (fun heq => absurd heq hnot) fun pos heq hpos => hgone ?_⟩
        rw [heq, mem_singleton.mp hpos]
    · cases hstep
  | @stay pc es ring hoffers hret hclaims hreturns =>
    rw [afterAccess_stay (update_self ..) hoffers hret] at hstep
    cases hstep
    refine ⟨x, at_moved hx hheld ?_ fun _ _ => ?_⟩
    · rintro rfl
      exact hoffers.trans hx
    · rw [hreturns]
      exact not_mem_nil

theorem exists_at_step {act : PoolAct ι} (hx : s.At x k) (hstep : s.step t act = some s')
    (h : s.Sound) : ∃ y, s'.At y k := by
  cases act with
  | alloc =>
    obtain ⟨sys, hsys, rfl⟩ := map_eq_some_iff.mp hstep
    simp only [System.step] at hsys
    split at hsys
    next hidle =>
      cases hsys
      refine ⟨x, at_moved hx ?_ (fun heq => absurd heq (not_freeing hx (by rw [hidle]; rfl)))
        fun _ _ => not_mem_nil⟩
      rintro rfl
      exact hx
    · cases hsys
  | free idx => exact exists_at_free hx hstep h
  | pass heir idx =>
    simp only [step] at hstep
    split at hstep
    next hmem =>
      cases hstep
      refine ⟨x, ?_⟩
      cases x with
      | held => exact ((perm_cons_erase hmem).map Prod.snd).mem_iff.mp hx
      | freeing | queued => exact hx
    · cases hstep
  | access fails => exact exists_at_access hx hstep h

theorem exists_at_run {acts : List (ι × PoolAct ι)} (hx : s.At x k) (hrun : s.run acts = some s')
    (hops : s'.sys.operations < 2 ^ 63) (h : s.Sound) : ∃ y, s'.At y k := by
  induction acts generalizing s x with
  | nil =>
    cases hrun
    exact ⟨x, hx⟩
  | cons ta acts ih =>
    simp only [PoolSystem.run] at hrun
    split at hrun
    · cases hrun
    next s₁ hstep =>
      obtain ⟨y, hy⟩ := exists_at_step hx hstep h
      have hle := (run_sound hrun hops).1
      exact ih hy hrun (h.step hstep (Nat.lt_of_le_of_lt hle hops))

theorem returns_seedEvents (k m : Nat) : returns (seedEvents k m) = [] := by
  induction m generalizing k with
  | zero => rfl
  | succ m ih =>
    rw [seedEvents_succ, returns_append, ih]
    rfl

omit [DecidableEq ι] in
/-- In a new pool every index waits at its own position. -/
theorem at_start {spurious : Nat → Nat} {c : BitVec 64} {pool : PacketPool}
    (hnew : PacketPool.new spurious c = some pool) (htwo : 2 ≤ c.toNat) {i : Nat}
    (hi : i < c.toNat) :
    (start pool : PoolSystem ι).At (.queued (BitVec.ofNat 64 i)) (BitVec.ofNat 32 i) := by
  have hne : c ≠ 0 := by
    rintro rfl
    cases htwo
  simp only [PacketPool.new, if_neg hne] at hnew
  split at hnew
  · cases hnew
  split at hnew
  · cases hnew
  obtain ⟨ring, -, rfl⟩ := map_eq_some_iff.mp hnew
  refine ⟨?_, ?_⟩
  · simp only [start, claims_seedEvents, List.mem_map, mem_range'_1]
    exact ⟨i, by omega, rfl⟩
  · simp only [start, returns_seedEvents, map_nil]
    exact not_mem_nil

/-- In every interleaving each index of a buffer is in one place: it has a holder, or one thread
is putting it back, or it is at one position of the ring. -/
theorem pool_conserves_buffers [Inhabited ι] (spurious : Nat → Nat) (c : BitVec 64)
    (pool : PacketPool) (hnew : PacketPool.new spurious c = some pool) (htwo : 2 ≤ c.toNat)
    (acts : List (ι × PoolAct ι)) (s : PoolSystem ι) (hrun : (start pool).run acts = some s)
    (hops : s.sys.operations < 2 ^ 63) (i : Nat) (hi : i < c.toNat) :
    ∃! x, s.At x (BitVec.ofNat 32 i) := by
  obtain ⟨hle, hsound⟩ := run_sound hrun hops
  have hstart := sound_start default hnew htwo (Nat.lt_of_le_of_lt hle hops)
  obtain ⟨x, hx⟩ := exists_at_run (at_start hnew htwo hi) hrun hops hstart
  exact ⟨x, hx, fun y hy => (hsound hstart).single _ y x hy hx⟩

/-- A pool of two buffers, its ring seeded with their indices. -/
def twoBuffers : PacketPool :=
  ⟨[.new 0, .new 1], ⟨[⟨1, some 0⟩, ⟨2, some 1⟩], 2, 1, 2, 0⟩, 2⟩

/-- One thread allocates the first buffer and hands it to another, which is putting it back. -/
def handedOn : List (Bool × PoolAct Bool) :=
  [(true, .alloc), (true, .access false), (true, .access false), (true, .access false),
    (true, .access false), (true, .access false), (true, .pass false 0), (false, .free 0),
    (false, .access false)]

theorem isSome_run_handedOn : ((start twoBuffers).run handedOn).isSome = true := by decide

theorem pool_conserves_buffers_handed_on :
    PacketPool.new (fun _ => 0) 2 = some twoBuffers
      ∧ (((start twoBuffers).run handedOn).get isSome_run_handedOn).At (.freeing false) 0
      ∧ ∃! x, (((start twoBuffers).run handedOn).get isSome_run_handedOn).At x 0 :=
  ⟨by decide, rfl, pool_conserves_buffers (fun _ => 0) 2 twoBuffers (by decide) (by decide)
    handedOn _ (Option.some_get _).symm (by decide) 0 (by decide)⟩

end PoolSystem

end Arcbox.Datapath

import Arcbox.Conntrack.Cache
import Arcbox.Foundation.PowerOfTwo

set_option autoImplicit false

/-!
# Conntrack: unambiguous NAT mappings

Replies are told apart by the remote end, the protocol and the NAT port.  The
allocator hands out ports in turn without a look at the live connections, so a
connection shares its port with those whose turn came a whole number of rounds before.
The mappings stay unambiguous exactly in the runs in which no live connection to the
same remote end is one of them.
-/

namespace Arcbox.Conntrack

open Foundation List

namespace ConnTrackTable

/-- No two live connections share a remote end, a protocol and a NAT port, and a
reply to a live connection is found to belong to it. -/
structure Unambiguous (t : ConnTrackTable) : Prop where
  distinct : ∀ k₁ k₂ e₁ e₂, t.entries.lookup k₁ = some e₁ → t.entries.lookup k₂ = some e₂ →
    k₁ ≠ k₂ → ¬ (k₁.dstIp = k₂.dstIp ∧ k₁.dstPort = k₂.dstPort ∧ k₁.protocol = k₂.protocol
      ∧ e₁.natSrc.port = e₂.natSrc.port)
  reverse : ∀ k e, t.entries.lookup k = some e →
    (t.lookupReverse (t.natKey k e.natSrc.port)).2 = some e

/-- The place in the range `lo..=hi` of the connection made after `n` others.  The counter of
the allocator is a `u32`. -/
def turn (lo hi : BitVec 16) (n : Nat) : Nat := n % 2 ^ 32 % (hi - lo + 1).toNat

/-- An operation that makes no connection, or makes one while `apart` holds of the number of
connections made before it and before each live connection to the same remote end. -/
def Spaced (apart : Nat → Nat → Prop) (t : ConnTrackTable) : Op → Prop
  | .getOrCreate key _ => t.entries.lookup key = none → ∀ k e, t.entries.lookup k = some e →
      k.dstIp = key.dstIp ∧ k.dstPort = key.dstPort ∧ k.protocol = key.protocol →
      apart e.id t.nextId
  | _ => True

/-- An operation that makes no connection, or makes one with a port that no live
connection to the same remote end holds. -/
def FreshPort (t : ConnTrackTable) : Op → Prop
  | .getOrCreate key _ => t.entries.lookup key = none →
      ∀ natPort portAlloc, t.portAlloc.allocate = some (natPort, portAlloc) →
      ∀ k e, t.entries.lookup k = some e →
        ¬ (k.dstIp = key.dstIp ∧ k.dstPort = key.dstPort ∧ k.protocol = key.protocol
          ∧ e.natSrc.port = natPort)
  | _ => True

/-- The invariant: the reverse map is the inverse of the mappings, and the cache
holds live entries, each in the slot of its key. -/
structure Consistent (t : ConnTrackTable) : Prop where
  distinct : ∀ {k₁ k₂ : ConnTrackKey} {e₁ e₂ : ConnTrackEntry}, t.entries.lookup k₁ = some e₁ →
    t.entries.lookup k₂ = some e₂ →
    t.natKey k₁ e₁.natSrc.port = t.natKey k₂ e₂.natSrc.port → k₁ = k₂
  reverse : ∀ {k : ConnTrackKey} {e : ConnTrackEntry}, t.entries.lookup k = some e →
    t.reverse.lookup (t.natKey k e.natSrc.port) = some k
  cache : ∀ {i : Nat} {ce : FastCacheEntry}, t.fastCache[i]? = some (some ce) →
    t.entries.lookup ce.key = some ce.entry ∧ t.cacheIdx ce.key = i

theorem natKey_inj {t : ConnTrackTable} {k₁ k₂ : ConnTrackKey} {p₁ p₂ : BitVec 16} :
    t.natKey k₁ p₁ = t.natKey k₂ p₂ ↔ k₁.dstIp = k₂.dstIp ∧ k₁.dstPort = k₂.dstPort
      ∧ k₁.protocol = k₂.protocol ∧ p₁ = p₂ := by
  simp only [natKey, ConnTrackKey.mk.injEq, true_and]
  constructor
  · rintro ⟨h₁, h₂, h₃, h₄⟩
    exact ⟨h₁, h₂, h₄, h₃⟩
  · rintro ⟨h₁, h₂, h₃, h₄⟩
    exact ⟨h₁, h₂, h₄, h₃⟩

variable {t : ConnTrackTable} {key : ConnTrackKey}

theorem Consistent.cacheSound (h : Consistent t) : CacheSound t := ⟨h.cache⟩

theorem Consistent.of_uncached {u : ConnTrackTable} (h : Consistent t) (hc : CacheSound u)
    (hu : u.uncached = t.uncached) : Consistent u := by
  have hmapped : Consistent u.uncached := by
    rw [hu]
    exact ⟨h.distinct, h.reverse, (cacheSound_uncached t).cache⟩
  exact ⟨hmapped.distinct, hmapped.reverse, hc.cache⟩

theorem Consistent.lookup (h : Consistent t) (key : ConnTrackKey) : Consistent (t.lookup key).1 :=
  h.of_uncached (h.cacheSound.lookup key).1 (uncached_lookup t key)

theorem Consistent.lookupReverse (h : Consistent t) (natKey : ConnTrackKey) :
    Consistent (t.lookupReverse natKey).1 := by
  simp only [ConnTrackTable.lookupReverse]
  split
  · exact h.lookup _
  · exact h

/-- The invariant is what the mappings need to be unambiguous. -/
theorem Consistent.unambiguous (h : Consistent t) : Unambiguous t where
  distinct k₁ k₂ e₁ e₂ h₁ h₂ hne heq := hne (h.distinct h₁ h₂ (natKey_inj.mpr heq))
  reverse k e hk := by
    simp only [ConnTrackTable.lookupReverse, h.reverse hk]
    rw [(h.cacheSound.lookup k).2, hk]

variable {portAlloc : PortAllocator} {now : BitVec 32}

theorem Consistent.create (h : Consistent t) {natPort : BitVec 16}
    (hnew : t.entries.lookup key = none)
    (hfresh : ∀ k e, t.entries.lookup k = some e →
      t.natKey k e.natSrc.port ≠ t.natKey key natPort) :
    Consistent (t.create key now natPort portAlloc).1 := by
  have hlook : ∀ {k : ConnTrackKey} {e : ConnTrackEntry},
      (t.create key now natPort portAlloc).1.entries.lookup k = some e →
      (k = key ∧ e.natSrc.port = natPort) ∨ t.entries.lookup k = some e := by
    intro k e hk
    rcases Table.of_lookup_insert hk with ⟨hkey, rfl⟩ | ⟨-, hold⟩
    · exact .inl ⟨hkey, rfl⟩
    · exact .inr hold
  refine ⟨fun {k₁ k₂ e₁ e₂} h₁ h₂ heq => ?_, fun {k e} hk => ?_,
    (h.cacheSound.create hnew natPort).cache⟩
  · rcases hlook h₁ with ⟨rfl, hport₁⟩ | hold₁ <;> rcases hlook h₂ with ⟨rfl, hport₂⟩ | hold₂
    · rfl
    · rw [hport₁] at heq
      exact absurd heq.symm (hfresh k₂ e₂ hold₂)
    · rw [hport₂] at heq
      exact absurd heq (hfresh k₁ e₁ hold₁)
    · exact h.distinct hold₁ hold₂ heq
  show (t.reverse.insert (t.natKey key natPort) key).lookup (t.natKey k _) = some k
  rcases hlook hk with ⟨rfl, rfl⟩ | hk
  · rw [AList.lookup_insert]
  · rw [AList.lookup_insert_ne (hfresh k e hk)]
    exact h.reverse hk

theorem Consistent.remove (h : Consistent t) (key : ConnTrackKey) : Consistent (t.remove key) := by
  have hc := h.cacheSound.remove key
  cases hentry : t.entries.lookup key with
  | none =>
      simp only [ConnTrackTable.remove, hentry]
      exact h
  | some entry =>
      simp only [ConnTrackTable.remove, hentry] at hc ⊢
      have herased : Consistent (uncached { t with
          entries := t.entries.erase key
          reverse := t.reverse.erase (t.natKey key entry.natSrc.port) }) := by
        refine ⟨fun h₁ h₂ heq => ?_, fun {k e} hk => ?_, (cacheSound_uncached _).cache⟩
        · exact h.distinct (Table.of_lookup_erase h₁).2 (Table.of_lookup_erase h₂).2 heq
        obtain ⟨hne, hk⟩ := Table.of_lookup_erase hk
        show (t.reverse.erase _).lookup (t.natKey k e.natSrc.port) = some k
        rw [AList.lookup_erase_ne fun heq => hne (h.distinct hk hentry heq)]
        exact h.reverse hk
      exact herased.of_uncached hc (uncached_invalidate _ key)

/-- A table without connections. -/
theorem CacheSound.consistent (hc : CacheSound t) (hempty : t.entries = ∅) : Consistent t := by
  refine ⟨fun h₁ => ?_, fun hk => ?_, hc.cache⟩
  · rw [hempty] at h₁
    cases h₁
  · rw [hempty] at hk
    cases hk

variable {t' : ConnTrackTable}

theorem step_getOrCreate_of_new {natPort : BitVec 16} (hnew : t.entries.lookup key = none)
    (halloc : t.portAlloc.allocate = some (natPort, portAlloc)) :
    t.step (.getOrCreate key now) = some (t.create key now natPort portAlloc).1 := by
  simp [ConnTrackTable.step, getOrCreate, hnew, halloc]

/-- An operation that makes no connection with a port in use keeps the invariant. -/
theorem Consistent.step (h : Consistent t) {op : Op} (hstep : t.step op = some t')
    (hfresh : FreshPort t op) : Consistent t' := by
  cases op with
  | getOrCreate key now =>
      rcases step_getOrCreate hstep with ⟨rfl, -⟩ | ⟨hnew, natPort, portAlloc, halloc, rfl⟩
      · exact h.lookup key
      · exact h.create hnew fun k e hk heq =>
          hfresh hnew natPort portAlloc halloc k e hk (natKey_inj.mp heq)
  | lookup key => rw [← Option.some.inj hstep]; exact h.lookup key
  | lookupReverse natKey => rw [← Option.some.inj hstep]; exact h.lookupReverse natKey
  | expireOld now =>
      rw [← Option.some.inj hstep]
      exact List.foldlRecOn _ _ h fun _ h key _ => h.remove key
  | remove key => rw [← Option.some.inj hstep]; exact h.remove key
  | clear => exact (h.cacheSound.step hstep).consistent (Option.some.inj hstep ▸ rfl)
  | touch id now =>
      rw [← Option.some.inj hstep]
      exact ⟨h.distinct, h.reverse, h.cache⟩

/-- A connection made with a port in use is ambiguous. -/
theorem freshPort_of_unambiguous {op : Op} (hstep : t.step op = some t') (h : Unambiguous t') :
    FreshPort t op := by
  cases op with
  | getOrCreate key now =>
      intro hnew natPort portAlloc halloc k e hk hshared
      rcases step_getOrCreate hstep with ⟨-, hlive⟩ | ⟨-, natPort', portAlloc', halloc', rfl⟩
      · exact hlive hnew
      have hports := Option.some.inj (halloc.symm.trans halloc')
      rw [Prod.mk.injEq] at hports
      have hne : k ≠ key := by
        rintro rfl
        exact absurd (hnew.symm.trans hk) (by simp)
      refine h.distinct k key e (t.create key now natPort' portAlloc').2 ?_ (AList.lookup_insert _)
        hne ⟨hshared.1, hshared.2.1, hshared.2.2.1, hshared.2.2.2.trans hports.1⟩
      exact (AList.lookup_insert_ne hne).trans hk
  | lookup _ | lookupReverse _ | expireOld _ | remove _ | clear | touch _ _ => trivial

theorem Consistent.run (h : Consistent t) {ops : List Op}
    (hfresh : ∀ r ∈ run t ops, FreshPort r.before r.op) {r : Record} (hr : r ∈ run t ops) :
    Consistent r.before ∧ Consistent r.after := by
  induction ops generalizing t with
  | nil => cases hr
  | cons op ops ih =>
      simp only [ConnTrackTable.run] at hfresh hr
      split at hr
      next t' hstep =>
        rw [hstep] at hfresh
        have h' := h.step hstep (hfresh _ mem_cons_self)
        rcases mem_cons.mp hr with rfl | hr
        · exact ⟨h, h'⟩
        · exact ih h' (forall_mem_cons.mp hfresh).2 hr
      · cases hr

/-! ## Turns -/

/-- Ports follow the order in which the connections were made. -/
structure Drawn (lo hi : BitVec 16) (t : ConnTrackTable) : Prop where
  start : t.portAlloc.start = lo
  last : t.portAlloc.last = hi
  current : t.portAlloc.current = t.portAlloc.start.setWidth 32 + BitVec.ofNat 32 t.nextId
  made : ∀ k e, t.entries.lookup k = some e → e.id < t.nextId ∧
    e.natSrc.port = lo + BitVec.ofNat 16 (turn lo hi e.id)

variable {lo hi : BitVec 16}

/-- The port handed out next is that of the connection's turn. -/
theorem Drawn.allocate (h : Drawn lo hi t) {natPort : BitVec 16}
    (halloc : t.portAlloc.allocate = some (natPort, portAlloc)) :
    natPort = lo + BitVec.ofNat 16 (turn lo hi t.nextId) ∧
      portAlloc = ⟨t.portAlloc.current + 1, lo, hi⟩ ∧
      hi - lo + 1 ≠ 0 := by
  unfold PortAllocator.allocate at halloc
  dsimp only at halloc
  split at halloc
  · cases halloc
  rename_i hne
  cases halloc
  rw [h.start, h.last] at hne ⊢
  refine ⟨congrArg (lo + ·) (BitVec.eq_of_toNat_eq ?_), rfl, fun hz => hne ?_⟩
  · rw [h.current, h.start, BitVec.add_comm, BitVec.add_sub_cancel, BitVec.toNat_setWidth,
      BitVec.toNat_umod, BitVec.toNat_setWidth_of_le (by decide), BitVec.toNat_ofNat,
      BitVec.toNat_ofNat, turn]
  · rw [hz]
    rfl

theorem turn_lt (hne : hi - lo + 1 ≠ 0) (n : Nat) :
    turn lo hi n < (hi - lo + 1).toNat :=
  Nat.mod_lt _ (Nat.pos_of_ne_zero fun hz => hne (BitVec.eq_of_toNat_eq hz))

/-- Two connections have one port exactly if it was their turn at the same place. -/
theorem port_eq_iff (hne : hi - lo + 1 ≠ 0) (m n : Nat) :
    lo + BitVec.ofNat 16 (turn lo hi m) = lo + BitVec.ofNat 16 (turn lo hi n)
      ↔ turn lo hi m = turn lo hi n := by
  have hwide := (hi - lo + 1).isLt
  have hm := turn_lt hne m
  have hn := turn_lt hne n
  rw [BitVec.add_right_inj, ← BitVec.toNat_inj, BitVec.toNat_ofNat, BitVec.toNat_ofNat,
    Nat.mod_eq_of_lt (Nat.lt_trans hm hwide), Nat.mod_eq_of_lt (Nat.lt_trans hn hwide)]

theorem Drawn.of_uncached {u : ConnTrackTable} (h : Drawn lo hi t) (hu : u.uncached = t.uncached) :
    Drawn lo hi u := by
  have hplain : Drawn lo hi u.uncached := by
    rw [hu]
    exact ⟨h.start, h.last, h.current, h.made⟩
  exact ⟨hplain.start, hplain.last, hplain.current, hplain.made⟩

theorem Drawn.step (h : Drawn lo hi t) {op : Op} (hstep : t.step op = some t') : Drawn lo hi t' := by
  refine step_keeps hstep h h.of_uncached (fun {key _ _ _} _ halloc => ?_) (fun {u} key hu => ?_)
    ⟨h.start, h.last, h.current, fun k e hk => ?_⟩ fun _ _ => ⟨h.start, h.last, h.current, h.made⟩
  · obtain ⟨rfl, rfl, -⟩ := h.allocate halloc
    refine ⟨rfl, rfl, ?_, fun k e hk => ?_⟩
    · show t.portAlloc.current + 1 = lo.setWidth 32 + BitVec.ofNat 32 (t.nextId + 1)
      rw [h.current, h.start, BitVec.ofNat_add, BitVec.add_assoc]
      rfl
    rcases Table.of_lookup_insert hk with ⟨-, rfl⟩ | ⟨-, hold⟩
    · exact ⟨Nat.lt_succ_self _, rfl⟩
    · exact ⟨Nat.lt_succ_of_lt (h.made k e hold).1, (h.made k e hold).2⟩
  · simp only [ConnTrackTable.remove]
    split
    next entry hentry =>
      refine of_uncached (t := { u with
        entries := u.entries.erase key
        reverse := u.reverse.erase (u.natKey key entry.natSrc.port) })
        ⟨hu.start, hu.last, hu.current, fun k e hk => ?_⟩ (uncached_invalidate _ key)
      exact hu.made k e (Table.of_lookup_erase hk).2
    · exact hu
  · cases hk

/-- The port handed out is fresh exactly if no live connection to the remote end has its turn. -/
theorem Drawn.freshPort_iff (h : Drawn lo hi t) {op : Op} (hstep : t.step op = some t') :
    FreshPort t op ↔ Spaced (fun m n => turn lo hi m ≠ turn lo hi n) t op := by
  cases op with
  | getOrCreate key now =>
    refine forall_congr' fun hnew => ?_
    rcases step_getOrCreate hstep with ⟨-, hlive⟩ | ⟨-, natPort, portAlloc, halloc, -⟩
    · exact absurd hnew hlive
    obtain ⟨hport, -, hne⟩ := h.allocate halloc
    constructor
    · intro hfresh k e hk hremote heq
      refine hfresh natPort portAlloc halloc k e hk ⟨hremote.1, hremote.2.1, hremote.2.2, ?_⟩
      rw [hport, (h.made k e hk).2, port_eq_iff hne]
      exact heq
    · rintro hspaced natPort' portAlloc' halloc' k e hk ⟨hip, hremote, hprotocol, heq⟩
      refine hspaced k e hk ⟨hip, hremote, hprotocol⟩ ((port_eq_iff hne _ _).mp ?_)
      rw [← (h.made k e hk).2, heq, ← hport]
      exact congrArg Prod.fst (Option.some.inj (halloc'.symm.trans halloc))
  | lookup _ | lookupReverse _ | expireOld _ | remove _ | clear | touch _ _ => exact Iff.rfl

/-- Fewer connections than the range has ports, with no wrap of the counter in between: the turns
are different. -/
theorem Drawn.spaced (h : Drawn lo hi t) {op : Op} (hspaced : Spaced (fun m n =>
      n < m + (hi - lo + 1).toNat ∧ m / 2 ^ 32 = n / 2 ^ 32) t op) :
    Spaced (fun m n => turn lo hi m ≠ turn lo hi n) t op := by
  cases op with
  | getOrCreate key now =>
    intro hnew k e hk hremote heq
    obtain ⟨hnear, hround⟩ := hspaced hnew k e hk hremote
    have hbefore := (h.made k e hk).1
    have hcount := eq_of_mod_eq_of_lt heq (by omega) (by omega)
    omega
  | lookup _ | lookupReverse _ | expireOld _ | remove _ | clear | touch _ _ => trivial

theorem drawn_new (externalIp : Packet.Ipv4Addr) (lo hi : BitVec 16)
    (fastCacheSize : Fin (2 ^ 63 + 1)) (timeoutSecs : BitVec 32) :
    Drawn lo hi (new externalIp lo hi fastCacheSize timeoutSecs) :=
  ⟨rfl, rfl, (BitVec.add_zero _).symm, fun k e hk => by cases hk⟩

/-- **NAT mappings.**  The mappings are unambiguous in every state of a run exactly if no
connection is made when it is the turn of a live connection to the same remote end; fewer
connections than the range has ports, made since each of those and with no wrap of the counter in
between, are enough. -/
theorem nat_unambiguous_iff (externalIp : Packet.Ipv4Addr) (portStart portEnd : BitVec 16)
    (fastCacheSize : Fin (2 ^ 63 + 1)) (timeoutSecs : BitVec 32) (ops : List Op) :
    let records := run (new externalIp portStart portEnd fastCacheSize timeoutSecs) ops
    ((∀ r ∈ records, Unambiguous r.before ∧ Unambiguous r.after) ↔
      ∀ r ∈ records, Spaced (fun m n => turn portStart portEnd m ≠ turn portStart portEnd n)
        r.before r.op) ∧
    ((∀ r ∈ records, Spaced (fun m n => n < m + (portEnd - portStart + 1).toNat ∧
        m / 2 ^ 32 = n / 2 ^ 32) r.before r.op) →
      ∀ r ∈ records, Unambiguous r.before ∧ Unambiguous r.after) := by
  intro records
  have hcache := cacheSound_new externalIp portStart portEnd fastCacheSize timeoutSecs
  have hdrawn : ∀ r ∈ records, Drawn portStart portEnd r.before ∧
      r.before.step r.op = some r.after := fun r hr => by
    have h := run_keeps (fun h hstep => h.step hstep)
      (drawn_new externalIp portStart portEnd fastCacheSize timeoutSecs) hr
    exact ⟨h.1.1, h.2⟩
  have hiff : (∀ r ∈ records, Unambiguous r.before ∧ Unambiguous r.after) ↔
      ∀ r ∈ records, Spaced (fun m n => turn portStart portEnd m ≠ turn portStart portEnd n)
        r.before r.op := by
    constructor
    · intro h r hr
      exact ((hdrawn r hr).1.freshPort_iff (hdrawn r hr).2).mp
        (freshPort_of_unambiguous (hdrawn r hr).2 (h r hr).2)
    · intro h r hr
      have hc := (hcache.consistent rfl).run (fun r hr =>
        ((hdrawn r hr).1.freshPort_iff (hdrawn r hr).2).mpr (h r hr)) hr
      exact ⟨hc.1.unambiguous, hc.2.unambiguous⟩
  exact ⟨hiff, fun h => hiff.mpr fun r hr => (hdrawn r hr).1.spaced (h r hr)⟩

/-- A range of one port and two connections to the same server: the second gets the
port of the first. -/
theorem nat_ambiguous :
    let guest (port : BitVec 16) : ConnTrackKey := ⟨⟨10, 0, 2, 15⟩, ⟨1, 1, 1, 1⟩, port, 443, 6⟩
    let ops : List Op := [.getOrCreate (guest 40000) 0, .getOrCreate (guest 40001) 1]
    ¬ ∀ r ∈ run (new ⟨192, 168, 1, 2⟩ 5000 5000 16 300) ops,
      Unambiguous r.before ∧ Unambiguous r.after := by
  intro guest ops h
  let t := new ⟨192, 168, 1, 2⟩ 5000 5000 16 300
  let t₁ := (t.create (guest 40000) 0 5000 ⟨5001, 5000, 5000⟩).1
  let t₂ := (t₁.create (guest 40001) 1 5000 ⟨5002, 5000, 5000⟩).1
  have halloc₁ : t.portAlloc.allocate = some (5000, ⟨5001, 5000, 5000⟩) := by decide
  have halloc₂ : t₁.portAlloc.allocate = some (5000, ⟨5002, 5000, 5000⟩) := by decide
  have hnew₁ : t.entries.lookup (guest 40000) = none := rfl
  have hnew₂ : t₁.entries.lookup (guest 40001) = none := by decide
  have hmem : (⟨t₁, .getOrCreate (guest 40001) 1, t₂⟩ : Record) ∈ run t ops := by
    simp only [ops, run, step_getOrCreate_of_new hnew₁ halloc₁]
    rw [show (t.create (guest 40000) 0 5000 ⟨5001, 5000, 5000⟩).1 = t₁ from rfl]
    simp only [step_getOrCreate_of_new hnew₂ halloc₂]
    exact mem_cons_of_mem _ mem_cons_self
  have hfresh := freshPort_of_unambiguous (step_getOrCreate_of_new hnew₂ halloc₂) (h _ hmem).2
  exact hfresh hnew₂ 5000 ⟨5002, 5000, 5000⟩ halloc₂ (guest 40000) _ (AList.lookup_insert _)
    ⟨rfl, rfl, rfl, rfl⟩

end ConnTrackTable

end Arcbox.Conntrack

import Arcbox.Conntrack.Unambiguous

set_option autoImplicit false

/-!
# Conntrack: what the table answers fits the packet

Mappings can be ambiguous, and then a reply may find no connection.  It never finds a wrong
one: a mapping that is there leads to a live connection that has the mapping's NAT port.
-/

namespace Arcbox.Conntrack

open Foundation List

namespace ConnTrackTable

/-- The entry is that of a connection with `key`, translated to `ip` and a port of the range. -/
structure MadeFor (ip : Packet.Ipv4Addr) (lo hi : BitVec 16) (key : ConnTrackKey)
    (e : ConnTrackEntry) : Prop where
  origSrc : e.origSrc = ⟨key.srcIp, key.srcPort⟩
  origDst : e.origDst = ⟨key.dstIp, key.dstPort⟩
  protocol : e.protocol = key.protocol
  natIp : e.natSrc.ip = ip
  natPort : lo ≤ e.natSrc.port ∧ e.natSrc.port ≤ hi

/-- The reply with key `natKey` is one to the connection of the entry. -/
structure ReplyTo (e : ConnTrackEntry) (natKey : ConnTrackKey) : Prop where
  src : e.origDst = ⟨natKey.srcIp, natKey.srcPort⟩
  dst : e.natSrc = ⟨natKey.dstIp, natKey.dstPort⟩
  protocol : e.protocol = natKey.protocol

/-- The invariant: entries are those of their keys, and a mapping leads to a live connection
whose NAT key it is. -/
structure Translates (ip : Packet.Ipv4Addr) (lo hi : BitVec 16) (t : ConnTrackTable) : Prop where
  external : t.externalIp = ip
  start : t.portAlloc.start = lo
  last : t.portAlloc.last = hi
  entry : ∀ k e, t.entries.lookup k = some e → MadeFor ip lo hi k e
  reverse : ∀ natKey k, t.reverse.lookup natKey = some k →
    ∃ e, t.entries.lookup k = some e ∧ natKey = t.natKey k e.natSrc.port

variable {ip : Packet.Ipv4Addr} {lo hi : BitVec 16} {t t' : ConnTrackTable} {key : ConnTrackKey}
  {now : BitVec 32}

theorem translates_new (ip : Packet.Ipv4Addr) (lo hi : BitVec 16) (fastCacheSize : Fin (2 ^ 63 + 1))
    (timeoutSecs : BitVec 32) : Translates ip lo hi (new ip lo hi fastCacheSize timeoutSecs) :=
  ⟨rfl, rfl, rfl, nofun, nofun⟩

/-- The ports the allocator hands out are those of its range. -/
theorem allocate_mem_range {a a' : PortAllocator} {port : BitVec 16} (hrange : a.start ≤ a.last)
    (h : a.allocate = some (port, a')) :
    (a.start ≤ port ∧ port ≤ a.last) ∧ a'.start = a.start ∧ a'.last = a.last := by
  unfold PortAllocator.allocate at h
  dsimp only at h
  split at h
  · cases h
  rename_i hne
  cases h
  refine ⟨?_, rfl, rfl⟩
  have hoff : ((a.current - a.start.setWidth 32) % (a.last - a.start + 1).setWidth 32).toNat
      < (a.last - a.start + 1).toNat := by
    have hlt := BitVec.umod_lt (a.current - a.start.setWidth 32) (BitVec.lt_def.mpr (Nat.pos_of_ne_zero
      fun hz => hne (BitVec.eq_of_toNat_eq hz)))
    rwa [BitVec.lt_def, BitVec.toNat_setWidth_of_le (by decide)] at hlt
  revert hoff
  generalize (a.current - a.start.setWidth 32) % (a.last - a.start + 1).setWidth 32 = offset
  bv_omega

/-- The cache has no part in it. -/
theorem Translates.of_uncached {u : ConnTrackTable} (h : Translates ip lo hi t)
    (hu : u.uncached = t.uncached) : Translates ip lo hi u := by
  have hmapped : Translates ip lo hi u.uncached := by
    rw [hu]
    exact ⟨h.external, h.start, h.last, h.entry, h.reverse⟩
  exact ⟨hmapped.external, hmapped.start, hmapped.last, hmapped.entry, hmapped.reverse⟩

theorem Translates.create (h : Translates ip lo hi t) (hrange : lo ≤ hi) {natPort : BitVec 16}
    {portAlloc : PortAllocator} (hnew : t.entries.lookup key = none)
    (halloc : t.portAlloc.allocate = some (natPort, portAlloc)) :
    Translates ip lo hi (t.create key now natPort portAlloc).1 := by
  obtain ⟨hport, hstart, hlast⟩ := allocate_mem_range (by rwa [h.start, h.last]) halloc
  rw [h.start, h.last] at hport
  refine ⟨h.external, hstart.trans h.start, hlast.trans h.last, fun k e hk => ?_,
    fun natKey k hk => ?_⟩
  · rcases Table.of_lookup_insert hk with ⟨rfl, rfl⟩ | ⟨-, hold⟩
    · exact ⟨rfl, rfl, rfl, h.external, hport⟩
    · exact h.entry k e hold
  · rcases Table.of_lookup_insert hk with ⟨rfl, rfl⟩ | ⟨-, hold⟩
    · exact ⟨_, AList.lookup_insert _, rfl⟩
    · obtain ⟨e, he, hnat⟩ := h.reverse natKey k hold
      -- The connection is new, so no mapping has led to its key.
      have hne : k ≠ key := by
        rintro rfl
        rw [hnew] at he
        cases he
      exact ⟨e, (AList.lookup_insert_ne hne).trans he, hnat⟩

theorem Translates.remove (h : Translates ip lo hi t) (key : ConnTrackKey) :
    Translates ip lo hi (t.remove key) := by
  simp only [ConnTrackTable.remove]
  split
  next entry hentry =>
    refine of_uncached (t := { t with
      entries := t.entries.erase key
      reverse := t.reverse.erase (t.natKey key entry.natSrc.port) }) ⟨h.external, h.start, h.last,
        fun k e hk => ?_, fun natKey k hk => ?_⟩ (uncached_invalidate _ key)
    · exact h.entry k e (Table.of_lookup_erase hk).2
    · obtain ⟨hne, hk⟩ := Table.of_lookup_erase hk
      obtain ⟨e, he, hnat⟩ := h.reverse natKey k hk
      have hkey : k ≠ key := by
        rintro rfl
        rw [hentry] at he
        cases he
        exact hne hnat
      exact ⟨e, (AList.lookup_erase_ne hkey).trans he, hnat⟩
  · exact h

theorem Translates.step (h : Translates ip lo hi t) (hrange : lo ≤ hi) {op : Op}
    (hstep : t.step op = some t') : Translates ip lo hi t' := by
  refine step_keeps hstep h h.of_uncached (h.create hrange) (fun key h => h.remove key) ?_
    fun _ _ => ⟨h.external, h.start, h.last, h.entry, h.reverse⟩
  refine ⟨h.external, h.start, h.last, fun k e he => ?_, fun natKey k hk => ?_⟩
  · cases he
  · cases hk

/-- After every operation of every run, a lookup answers with an entry made for its key, with a
port of the configured range, and a reply is matched only with a connection it is a reply to. -/
theorem answers_fit_packets (ip : Packet.Ipv4Addr) (lo hi : BitVec 16)
    (fastCacheSize : Fin (2 ^ 63 + 1)) (timeoutSecs : BitVec 32) (hrange : lo ≤ hi) (ops : List Op) :
    ∀ r ∈ run (new ip lo hi fastCacheSize timeoutSecs) ops,
      (∀ key e, (r.after.lookup key).2 = some e → MadeFor ip lo hi key e) ∧
        ∀ natKey e, (r.after.lookupReverse natKey).2 = some e → ReplyTo e natKey := by
  intro r hr
  have h := (run_keeps (fun h hstep => h.step hrange hstep)
    (translates_new ip lo hi fastCacheSize timeoutSecs) hr).1.2
  have hc := (run_keeps (fun h hstep => h.step hstep)
    (cacheSound_new ip lo hi fastCacheSize timeoutSecs) hr).1.2
  refine ⟨fun key e hfound => h.entry key e ((hc.lookup key).2.symm.trans hfound),
    fun natKey e hfound => ?_⟩
  simp only [ConnTrackTable.lookupReverse] at hfound
  split at hfound
  next k hk =>
    obtain ⟨e', he', rfl⟩ := h.reverse natKey k hk
    rw [(hc.lookup k).2, he'] at hfound
    cases hfound
    have hmade := h.entry k e he'
    refine ⟨hmade.origDst, ?_, hmade.protocol⟩
    rw [natKey, h.external, ← hmade.natIp]
  · cases hfound

/-- Two connections to one server share the only port: the reply goes to the later one. -/
def sharedPort : List Op :=
  [.getOrCreate ⟨⟨10, 0, 2, 15⟩, ⟨1, 1, 1, 1⟩, 40000, 443, 6⟩ 0,
    .getOrCreate ⟨⟨10, 0, 2, 15⟩, ⟨1, 1, 1, 1⟩, 40001, 443, 6⟩ 1]

theorem answers_fit_packets_shared_port :
    (run (new ⟨192, 168, 1, 2⟩ 5000 5000 16 300) sharedPort).length = 2 ∧
      ∀ r ∈ run (new ⟨192, 168, 1, 2⟩ 5000 5000 16 300) sharedPort,
        (∀ key e, (r.after.lookup key).2 = some e →
          MadeFor ⟨192, 168, 1, 2⟩ 5000 5000 key e) ∧
        ∀ natKey e, (r.after.lookupReverse natKey).2 = some e → ReplyTo e natKey :=
  ⟨by decide, answers_fit_packets _ _ _ _ _ (by decide) sharedPort⟩

end ConnTrackTable

end Arcbox.Conntrack

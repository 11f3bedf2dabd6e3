import Arcbox.Conntrack.Table

set_option autoImplicit false

/-!
# Conntrack: the fast cache

A direct-mapped cache stands in front of the connections.  It is filled on the two
paths that hand out an entry and emptied slot by slot as connections go; the table
answers as one that has no cache.
-/

namespace Arcbox.Conntrack.ConnTrackTable

open Foundation List ConnTrackTable Option

/-- The table without its fast cache: no slot is ever read or filled. -/
def uncached (t : ConnTrackTable) : ConnTrackTable := { t with fastCache := [] }

structure CacheSound (t : ConnTrackTable) : Prop where
  cache : ∀ {i : Nat} {ce : FastCacheEntry}, t.fastCache[i]? = some (some ce) →
    t.entries.lookup ce.key = some ce.entry ∧ t.cacheIdx ce.key = i

variable {t t' : ConnTrackTable} {key : ConnTrackKey}

theorem cached_eq_some {ce : FastCacheEntry} :
    t.cached key = some ce ↔ t.fastCache[t.cacheIdx key]? = some (some ce) := by
  simp only [cached, join_eq_some_iff]

/-! ## What touches nothing but the cache -/

theorem uncached_lookup (t : ConnTrackTable) (key : ConnTrackKey) :
    (t.lookup key).1.uncached = t.uncached := by
  simp only [lookup, lookupSlow]
  repeat' split
  all_goals rfl

theorem uncached_invalidate (t : ConnTrackTable) (key : ConnTrackKey) :
    (t.invalidate key).uncached = t.uncached := by
  simp only [invalidate]
  repeat' split
  all_goals rfl

theorem lookup_uncached (t : ConnTrackTable) (key : ConnTrackKey) :
    t.uncached.lookup key = (t.uncached, t.entries.lookup key) := by
  simp only [lookup, cached, uncached, List.getElem?_nil, join_none,
    lookupSlow]
  split <;> simp_all [setCache]

theorem invalidate_of_nil (h : t.fastCache = []) : t.invalidate key = t := by
  simp only [invalidate, cached, h, List.getElem?_nil, join_none]

/-! ## The cache stays sound -/

theorem CacheSound.setCache (h : CacheSound t) {slot : Option FastCacheEntry}
    (hslot : ∀ ce, slot = some ce → ce.key = key ∧ t.entries.lookup key = some ce.entry) :
    CacheSound (t.setCache key slot) := by
  refine ⟨fun {i ce} hce => ?_⟩
  simp only [ConnTrackTable.setCache, List.getElem?_set] at hce
  split at hce
  next hidx =>
    split at hce
    · obtain ⟨hkey, hentry⟩ := hslot ce (some.inj hce)
      rw [hkey]
      exact ⟨hentry, hidx⟩
    · cases hce
  · exact h.cache hce

/-- `lookup` finds what the table holds, through the cache or not. -/
theorem CacheSound.lookup (h : CacheSound t) (key : ConnTrackKey) :
    CacheSound (t.lookup key).1 ∧ (t.lookup key).2 = t.entries.lookup key := by
  have hslow : CacheSound (t.lookupSlow key).1
      ∧ (t.lookupSlow key).2 = t.entries.lookup key := by
    simp only [lookupSlow]
    split
    next entry hentry =>
      refine ⟨h.setCache fun ce hce => ?_, hentry.symm⟩
      rw [← some.inj hce]
      exact ⟨rfl, hentry⟩
    next hentry =>
      exact ⟨h, hentry.symm⟩
  simp only [ConnTrackTable.lookup]
  split
  next ce hce =>
    split
    next hkey =>
      refine ⟨h, ?_⟩
      rw [← hkey.2]
      exact (h.cache (cached_eq_some.mp hce)).1.symm
    · exact hslow
  · exact hslow

variable {portAlloc : PortAllocator} {now : BitVec 32}

/-- A new connection is in no slot yet, and goes into its own. -/
theorem CacheSound.create (h : CacheSound t) (hnew : t.entries.lookup key = none)
    (natPort : BitVec 16) : CacheSound (t.create key now natPort portAlloc).1 := by
  have henter : ∀ entry, CacheSound (t.enter key entry portAlloc now) := by
    refine fun entry => ⟨fun {i ce} hce => ⟨?_, (h.cache hce).2⟩⟩
    have hne : ce.key ≠ key := by
      intro hkey
      rw [← hkey] at hnew
      exact absurd (hnew.symm.trans (h.cache hce).1) (by simp)
    exact (AList.lookup_insert_ne hne).trans (h.cache hce).1
  refine (henter _).setCache fun ce hce => ?_
  rw [← some.inj hce]
  exact ⟨rfl, AList.lookup_insert _⟩

theorem ne_of_mem_invalidate {i : Nat} {ce : FastCacheEntry}
    (hce : (t.invalidate key).fastCache[i]? = some (some ce))
    (hidx : t.fastCache[i]? = some (some ce) → t.cacheIdx ce.key = i) :
    ce.key ≠ key ∧ t.fastCache[i]? = some (some ce) := by
  have hslot : t.fastCache[i]? = some (some ce) → ce.key = key → t.cached key = some ce := by
    rintro hmem rfl
    rw [cached_eq_some, hidx hmem]
    exact hmem
  simp only [invalidate] at hce
  split at hce
  next held hheld =>
    split at hce
    · simp only [setCache, List.getElem?_set] at hce
      split at hce
      · split at hce <;> cases hce
      rename_i hne
      refine ⟨fun hkey => hne ?_, hce⟩
      rw [← hkey]
      exact hidx hce
    rename_i hother
    refine ⟨fun hkey => hother ?_, hce⟩
    rw [← some.inj ((hslot hce hkey).symm.trans hheld)]
    exact hkey
  next hnone =>
    exact ⟨fun hkey => absurd (hnone.symm.trans (hslot hce hkey)) (by simp), hce⟩

theorem CacheSound.remove (h : CacheSound t) (key : ConnTrackKey) : CacheSound (t.remove key) := by
  simp only [ConnTrackTable.remove]
  split
  · refine ⟨fun {i ce} hce => ?_⟩
    obtain ⟨hne, hmem⟩ := ne_of_mem_invalidate hce fun hmem => (h.cache hmem).2
    refine ⟨(congrArg (fun u => u.entries.lookup ce.key) (uncached_invalidate _ key)).trans ?_,
      (congrArg (fun u => u.cacheIdx ce.key) (uncached_invalidate _ key)).trans ?_⟩
    · exact (AList.lookup_erase_ne hne).trans (h.cache hmem).1
    · exact (h.cache hmem).2
  · exact h

theorem cacheSound_uncached (t : ConnTrackTable) : CacheSound t.uncached := by
  refine ⟨fun {i ce} hce => ?_⟩
  simp only [uncached, List.getElem?_nil] at hce
  cases hce

theorem cacheSound_new (externalIp : Packet.Ipv4Addr) (portStart portEnd : BitVec 16)
    (fastCacheSize : Fin (2 ^ 63 + 1)) (timeoutSecs : BitVec 32) :
    CacheSound (new externalIp portStart portEnd fastCacheSize timeoutSecs) := by
  refine ⟨fun {i ce} hce => ?_⟩
  simp only [new, List.getElem?_replicate] at hce
  split at hce <;> cases hce

/-- `get_or_create` looks up a live connection and creates any other. -/
theorem step_getOrCreate (hstep : t.step (.getOrCreate key now) = some t') :
    (t' = (t.lookup key).1 ∧ t.entries.lookup key ≠ none)
    ∨ (t.entries.lookup key = none ∧ ∃ natPort portAlloc,
        t.portAlloc.allocate = some (natPort, portAlloc)
        ∧ t' = (t.create key now natPort portAlloc).1) := by
  simp only [step, getOrCreate, map_eq_some_iff] at hstep
  obtain ⟨result, hresult, rfl⟩ := hstep
  split at hresult
  next hsome =>
    refine .inl ⟨?_, fun hnone => by rw [hnone] at hsome; exact absurd hsome (by simp)⟩
    obtain ⟨entry, -, rfl⟩ := map_eq_some_iff.mp hresult
    rfl
  next hnone =>
    obtain ⟨⟨natPort, portAlloc⟩, halloc, rfl⟩ := map_eq_some_iff.mp hresult
    exact .inr ⟨by simpa using hnone, natPort, portAlloc, halloc, rfl⟩

theorem CacheSound.step (h : CacheSound t) {op : Op} (hstep : t.step op = some t') :
    CacheSound t' := by
  cases op with
  | getOrCreate key now =>
      rcases step_getOrCreate hstep with ⟨rfl, -⟩ | ⟨hnew, natPort, portAlloc, -, rfl⟩
      · exact (h.lookup key).1
      · exact h.create hnew natPort
  | lookup key => rw [← some.inj hstep]; exact (h.lookup key).1
  | lookupReverse natKey =>
      rw [← some.inj hstep]
      simp only [lookupReverse]
      split
      · exact (h.lookup _).1
      · exact h
  | expireOld now =>
      rw [← some.inj hstep]
      exact foldlRecOn _ _ h fun _ h key _ => h.remove key
  | remove key => rw [← some.inj hstep]; exact h.remove key
  | clear =>
      rw [← some.inj hstep]
      refine ⟨fun hce => ?_⟩
      simp only [clear, List.getElem?_map, map_eq_some_iff] at hce
      obtain ⟨_, _, hnone⟩ := hce
      cases hnone
  | touch id now => rw [← some.inj hstep]; exact ⟨h.cache⟩

/-- A property that the cache has no part in is kept by a step if making one connection, removing
one, `clear` and `touch` keep it. -/
theorem step_keeps {P : ConnTrackTable → Prop} {op : Op} (hstep : t.step op = some t') (h : P t)
    (huncached : ∀ {u : ConnTrackTable}, u.uncached = t.uncached → P u)
    (hcreate : ∀ {key now natPort portAlloc}, t.entries.lookup key = none →
      t.portAlloc.allocate = some (natPort, portAlloc) → P (t.create key now natPort portAlloc).1)
    (hremove : ∀ {u : ConnTrackTable} (key : ConnTrackKey), P u → P (u.remove key))
    (hclear : P t.clear) (htouch : ∀ id now, P (t.touch id now)) : P t' := by
  cases op with
  | getOrCreate key now =>
    rcases step_getOrCreate hstep with ⟨rfl, -⟩ | ⟨hnew, natPort, portAlloc, halloc, rfl⟩
    · exact huncached (uncached_lookup t key)
    · exact hcreate hnew halloc
  | lookup key => exact some.inj hstep ▸ huncached (uncached_lookup t key)
  | lookupReverse natKey =>
    rw [← some.inj hstep]
    simp only [lookupReverse]
    split
    · exact huncached (uncached_lookup t _)
    · exact h
  | expireOld now =>
    rw [← some.inj hstep]
    exact foldlRecOn _ _ h fun _ h key _ => hremove key h
  | remove key => exact some.inj hstep ▸ hremove key h
  | clear => exact some.inj hstep ▸ hclear
  | touch id now => exact some.inj hstep ▸ htouch id now

/-- What every step keeps holds around each step of a run. -/
theorem run_keeps {P : ConnTrackTable → Prop}
    (hkeeps : ∀ {t op t'}, P t → ConnTrackTable.step t op = some t' → P t') (h : P t)
    {ops : List Op} {r : Record} (hr : r ∈ run t ops) :
    (P r.before ∧ P r.after) ∧ r.before.step r.op = some r.after := by
  induction ops generalizing t with
  | nil => cases hr
  | cons op ops ih =>
    simp only [run] at hr
    split at hr
    next t' hstep =>
      rcases mem_cons.mp hr with rfl | hr
      · exact ⟨⟨h, hkeeps h hstep⟩, hstep⟩
      · exact ih (hkeeps h hstep) hr
    · cases hr

/-! ## The table without the cache does the same -/

theorem remove_uncached (t : ConnTrackTable) (key : ConnTrackKey) :
    t.uncached.remove key = (t.remove key).uncached := by
  have hentries : t.uncached.entries = t.entries := rfl
  simp only [remove, hentries]
  split
  · rw [uncached_invalidate]
    exact invalidate_of_nil rfl
  · rfl

theorem foldl_remove_uncached (keys : List ConnTrackKey) (t : ConnTrackTable) :
    keys.foldl remove t.uncached = (keys.foldl remove t).uncached := by
  induction keys generalizing t with
  | nil => rfl
  | cons key keys ih =>
      rw [foldl_cons, foldl_cons, remove_uncached]
      exact ih (t.remove key)

theorem CacheSound.step_uncached (h : CacheSound t) (op : Op) :
    t.uncached.step op = (t.step op).map uncached := by
  cases op with
  | getOrCreate key now =>
      have hentries : t.uncached.entries = t.entries := rfl
      simp only [ConnTrackTable.step, getOrCreate, hentries]
      split
      · simp only [lookup_uncached, (h.lookup key).2, Option.map_map]
        cases t.entries.lookup key with
        | none => rfl
        | some entry => exact congrArg some (uncached_lookup t key).symm
      · have halloc : t.uncached.portAlloc = t.portAlloc := rfl
        simp only [halloc, Option.map_map]
        cases t.portAlloc.allocate <;> rfl
  | lookup key =>
      simp only [ConnTrackTable.step, lookup_uncached, Option.map_some, uncached_lookup]
  | lookupReverse natKey =>
      have hreverse : t.uncached.reverse = t.reverse := rfl
      simp only [ConnTrackTable.step, lookupReverse, hreverse, Option.map_some]
      split
      · rw [lookup_uncached, uncached_lookup]
      · rfl
  | expireOld now => exact congrArg some (foldl_remove_uncached _ t)
  | remove key => exact congrArg some (remove_uncached t key)
  | clear | touch id now => rfl

theorem CacheSound.run_uncached (h : CacheSound t) (ops : List Op) :
    ops.foldlM ConnTrackTable.step t.uncached = (ops.foldlM ConnTrackTable.step t).map uncached
      ∧ ∀ t' ∈ ops.foldlM ConnTrackTable.step t, CacheSound t' := by
  induction ops generalizing t with
  | nil => exact ⟨rfl, fun t' ht' => some.inj ht' ▸ h⟩
  | cons op ops ih =>
      rw [foldlM_cons, foldlM_cons, h.step_uncached op]
      cases hstep : t.step op with
      | none => exact ⟨rfl, nofun⟩
      | some t₁ => exact ih (h.step hstep)

/-- **The cache is transparent.**  After any operations `lookup` answers what the
connections hold, which is what the table without the cache answers after them. -/
theorem fast_cache_transparent (externalIp : Packet.Ipv4Addr) (portStart portEnd : BitVec 16)
    (fastCacheSize : Fin (2 ^ 63 + 1)) (timeoutSecs : BitVec 32) (ops : List Op)
    (key : ConnTrackKey) :
    let t := new externalIp portStart portEnd fastCacheSize timeoutSecs
    (ops.foldlM step t).map (fun u => (u.lookup key).2)
        = (ops.foldlM step t.uncached).map (fun u => (u.lookup key).2)
      ∧ ∀ u ∈ ops.foldlM step t, (u.lookup key).2 = u.entries.lookup key := by
  intro t
  obtain ⟨hrun, hsound⟩ := (cacheSound_new externalIp portStart portEnd fastCacheSize
    timeoutSecs).run_uncached ops
  refine ⟨?_, fun u hu => ((hsound u hu).lookup key).2⟩
  rw [hrun, Option.map_map]
  refine Option.map_congr fun u hu => ?_
  rw [((hsound u hu).lookup key).2, Function.comp_apply, lookup_uncached]

end Arcbox.Conntrack.ConnTrackTable

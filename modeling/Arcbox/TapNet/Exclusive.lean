import Mathlib.Data.Finset.Lattice.Lemmas
import Arcbox.Foundation.History
import Arcbox.TapNet.Pool

set_option autoImplicit false

/-!
# TAP network: addresses in use are never handed out

A node is a ledger directory, the manager of the running process, and the leases of its
sandboxes: those this process reserved or adopted, and those whose guests outlived the
process before it.  The pool has one set of taken addresses and does not know who took
one, so a teardown is safe only while nobody else has that address or that TAP.
-/

namespace Arcbox.TapNet

open Foundation Finset TapNetwork

/-- A sandbox and its address. -/
abbrev Lease := String × Ipv4

structure Node where
  /-- None after a start that failed. -/
  manager : Option TapNetwork
  ledger : Ledger
  live : Finset Lease
  /-- Left by an earlier process, and neither adopted nor torn down. -/
  surviving : Finset Lease
  /-- Quarantined on disk and not finalized. -/
  durable : Finset Lease
  /-- Withheld for this manager's lifetime. -/
  held : Finset Ipv4
  /-- Leases whose TAP the teardown of another sandbox destroyed. -/
  cut : Finset Lease

/-- A call on the manager, with what its kernel and file operations come to. -/
inductive Call where
  | reserve (vm token : String)
  | adopt (readopted : Except TapNetError Unit) (vm : String) (a : NetworkAllocation)
  | holdAddress (ip : Ipv4)
  | release (down : TapNetwork.Teardown) (vm : String) (a : NetworkAllocation)
  | quarantine (out : IoOutcome) (down : TapNetwork.Teardown) (vm : String) (a : NetworkAllocation)
      (token : String)
  | finalizeQuarantine (destroyed : Except TapNetError Unit) (out : IoOutcome) (vm token : String)
  | markReconciled
  | finalizeStartupCleanup (token : String)

inductive Event where
  | call (c : Call)
  /-- A new process, with the leases whose guests outlived the old one. -/
  | restart (c : Config) (opened : Except TapNetError Unit) (survivors : Finset Lease)

namespace Node

variable (s : Node) (t : TapNetwork)

/-- The leases whose TAP has the name `tap`. -/
def onTap (tap : String) : Finset Lease :=
  (s.live ∪ s.surviving).filter fun p => tapNameFromIp p.2 = tap

def pairs (quarantined : Table String NetworkAllocation) : Finset Lease :=
  (quarantined.entries.map fun e => (e.1, e.2.ipAddress)).toFinset

/-- `lease` is over, and its TAP `tap` destroyed if `destroyed`. -/
def tornDown (lease : Lease) (tap : String) (destroyed : Bool) : Node :=
  { s with
    manager := some t
    live := s.live.erase lease
    surviving := s.surviving.erase lease
    cut := if destroyed then s.cut ∪ (s.onTap tap).erase lease else s.cut }

/-- A quarantine with a ledger: once the record is there the lease is over. -/
def quarantined (out : IoOutcome) (down : TapNetwork.Teardown) (vm : String)
    (a : NetworkAllocation) (token : String) : Node :=
  match t.quarantineChecked out down s.ledger vm a token with
  | (_, t', dir) =>
    match t.quarantineRecord out s.ledger vm a token with
    | (.error _, _, _) => { s with manager := some t', ledger := dir }
    | (.ok (), _, _) =>
      { s.tornDown t' (vm, a.ipAddress) a.tapName down.deactivated.isOk with
        ledger := dir
        durable :=
          if (t.quarantined.lookup vm).isNone then insert (vm, a.ipAddress) s.durable
          else s.durable }

/-- After a finalization that asked for the destruction of `tap` and was made for `generation`:
what is left of its marker decides whether the quarantine is durable. -/
def finalized (tap : Option String) (dir : Ledger) (vm : String)
    (generation : Option NetworkAllocation) : Node :=
  { s with
    manager := some t
    ledger := dir
    durable :=
      match generation with
      | some a =>
        if dir.lookup (markerPath vm) = none then s.durable.erase (vm, a.ipAddress) else s.durable
      | none => s.durable
    cut := s.cut ∪ tap.elim ∅ s.onTap }

/-- A call on the running manager. -/
def called (lib : Library) (s : Node) (t : TapNetwork) : Call → Node
  | .reserve vm token =>
    match t.reserve lib vm token with
    | (.ok a, t') => { s with manager := some t', live := insert (vm, a.ipAddress) s.live }
    | (.error _, t') => { s with manager := some t' }
  | .adopt readopted vm a =>
    match t.adopt lib readopted vm a with
    | (.ok (), t') =>
      { s with
        manager := some t'
        live := insert (vm, a.ipAddress) s.live
        surviving := s.surviving.erase (vm, a.ipAddress) }
    | (.error _, t') => { s with manager := some t' }
  | .holdAddress ip => { s with manager := some (t.holdAddress ip), held := insert ip s.held }
  | .release down vm a =>
    s.tornDown (t.releaseChecked down a).2 (vm, a.ipAddress) a.tapName true
  | .quarantine out down vm a token =>
    if t.quarantineDir = false then
      s.tornDown (t.quarantineChecked out down s.ledger vm a token).2.1 (vm, a.ipAddress) a.tapName
        true
    else s.quarantined t out down vm a token
  | .finalizeQuarantine destroyed out vm token =>
    match t.finalizeQuarantine destroyed out s.ledger vm token with
    | (_, tap, t', dir) => s.finalized t' tap dir vm (t.generation vm token)
  | .markReconciled => { s with manager := some t.markReconciled }
  | .finalizeStartupCleanup token =>
    { s with manager := some (t.finalizeStartupCleanup token).2 }

def step (lib : Library) (s : Node) : Event → Node
  | .restart c opened survivors =>
    match TapNetwork.new lib c opened s.ledger with
    | .error _ =>
      { s with manager := none, live := ∅, surviving := (s.live ∪ s.surviving) ∩ survivors,
               held := ∅ }
    | .ok (t, held) =>
      { s with manager := some t, live := ∅, surviving := (s.live ∪ s.surviving) ∩ survivors,
               durable := s.durable ∪ pairs t.quarantined, held := held }
  | .call c =>
    match s.manager with
    | none => s
    | some t => s.called lib t c

/-- Before the first start: what an earlier process left. -/
def initial (ledger : Ledger) (surviving : Finset Lease) : Node :=
  ⟨none, ledger, ∅, surviving, ∅, ∅, ∅⟩

/-- The address is that of a live sandbox, of a pending quarantine, or held. -/
def InUse (ip : Ipv4) : Prop :=
  (∃ vm, (vm, ip) ∈ s.live ∪ s.surviving) ∨
    (∃ t id a, s.manager = some t ∧ t.quarantined.lookup id = some a ∧ a.ipAddress = ip) ∨
    (∃ id, (id, ip) ∈ s.durable) ∨ ip ∈ s.held

/-- No reservation answers with an address in use, the pool has not freed the address of a
live sandbox, and no teardown took the TAP of another. -/
structure Exclusive (lib : Library) (s : Node) : Prop where
  unused : ∀ t, s.manager = some t → ∀ vm token a,
    (t.reserve lib vm token).1 = .ok a → ¬ s.InUse a.ipAddress
  kept : ∀ t, s.manager = some t → ∀ p ∈ s.live, p.2 ∈ t.allocated
  uncut : s.cut = ∅

/-! ## The invariant -/

/-- The pool of the running manager covers everything in use; the leases of an earlier
process only once their replay is declared complete. -/
structure Covered (s : Node) (t : TapNetwork) : Prop where
  live : ∀ p ∈ s.live, p.2 ∈ t.allocated
  pending : ∀ id a, t.quarantined.lookup id = some a → a.ipAddress ∈ t.allocated
  durable : ∀ p ∈ s.durable, p.2 ∈ t.allocated
  held : s.held ⊆ t.allocated
  surviving : t.startupReconciled = true → ∀ p ∈ s.surviving, p.2 ∈ t.allocated
  gate : t.startupBarrier = false ∨ t.startupHostCleaned = true → t.startupReconciled = true
  single : ∀ id a, t.quarantined.lookup id = some a → ∀ ip, (id, ip) ∈ s.durable →
    ip = a.ipAddress
  ledgered : ∀ id a, t.quarantined.lookup id = some a → t.quarantineDir = true

/-- A durable quarantine has its marker. -/
def Marked : Prop :=
  ∀ p ∈ s.durable, ∃ a : NetworkAllocation, a.ipAddress = p.2 ∧
    s.ledger.lookup (markerPath p.1) = some ⟨true, some ⟨p.1, a⟩⟩

structure Sound (s : Node) : Prop where
  uncut : s.cut = ∅
  marked : s.Marked
  covered : ∀ t, s.manager = some t → s.Covered t

variable {s : Node} {t : TapNetwork} {lib : Library}

theorem sound_of_covered (hcut : s.cut = ∅) (hmarked : s.Marked) (hmanager : s.manager = some t)
    (hcovered : s.Covered t) : s.Sound := by
  refine ⟨hcut, hmarked, fun t' ht' => ?_⟩
  cases hmanager.symm.trans ht'
  exact hcovered

/-- Behind an open gate a free address is not in use. -/
theorem Covered.not_inUse (h : s.Covered t) (hmanager : s.manager = some t)
    (hgate : t.startupBarrier = false) {ip : Ipv4} (hfree : ip ∉ t.allocated) : ¬ s.InUse ip := by
  rintro (⟨vm, hvm⟩ | ⟨t', id, a, ht', hlookup, rfl⟩ | ⟨id, hid⟩ | hheld)
  · rcases mem_union.mp hvm with hlive | hsurviving
    · exact hfree (h.live _ hlive)
    · exact hfree (h.surviving (h.gate (.inl hgate)) _ hsurviving)
  · cases hmanager.symm.trans ht'
    exact hfree (h.pending id a hlookup)
  · exact hfree (h.durable _ hid)
  · exact hfree (h.held hheld)

theorem Sound.exclusive (h : s.Sound) : s.Exclusive lib := by
  refine ⟨fun t ht vm token a hreserve => ?_, fun t ht => (h.covered t ht).live, h.uncut⟩
  rcases reserve_cases lib vm token (t := t) with ⟨e, heq⟩ | ⟨a', hgate, hfree, heq⟩
  · rw [heq] at hreserve
    cases hreserve
  · rw [heq] at hreserve
    cases hreserve
    exact (h.covered t ht).not_inUse ht hgate hfree

/-! ## One call -/

theorem Covered.grow (h : s.Covered t) (ip : Ipv4) :
    s.Covered { t with allocated := insert ip t.allocated } := by
  refine ⟨?_, ?_, ?_, ?_, ?_, h.gate, h.single, h.ledgered⟩
  · exact fun p hp => mem_insert_of_mem (h.live p hp)
  · exact fun id a hlookup => mem_insert_of_mem (h.pending id a hlookup)
  · exact fun p hp => mem_insert_of_mem (h.durable p hp)
  · exact h.held.trans (subset_insert _ _)
  · exact fun hrec p hp => mem_insert_of_mem (h.surviving hrec p hp)

theorem Marked.write (h : s.Marked) {vm : String} {a x : NetworkAllocation} {dir : Ledger}
    (hwrites : TapNetwork.Writes s.ledger dir vm a x) (hnone : ∀ p ∈ s.durable, p.1 ≠ vm) :
    ∀ p ∈ s.durable, ∃ a : NetworkAllocation, a.ipAddress = p.2 ∧
      dir.lookup (markerPath p.1) = some ⟨true, some ⟨p.1, a⟩⟩ := by
  intro p hp
  obtain ⟨b, hip, hlookup⟩ := h p hp
  refine ⟨b, hip, ?_⟩
  rw [hwrites.2, AList.lookup_insert_ne]
  · exact hlookup
  · intro heq
    exact hnone p hp (congrArg Prod.fst heq)

/-- The marker of another sandbox survives a removal, and its own goes with the record. -/
theorem Marked.remove (h : s.Marked) {vm : String} {a : NetworkAllocation} {dir : Ledger}
    (hdir : dir = s.ledger ∨ dir = s.ledger.erase (markerPath vm))
    (hsingle : ∀ ip, (vm, ip) ∈ s.durable → ip = a.ipAddress) :
    ∀ p ∈ (if dir.lookup (markerPath vm) = none then s.durable.erase (vm, a.ipAddress)
        else s.durable),
      ∃ a : NetworkAllocation, a.ipAddress = p.2 ∧
        dir.lookup (markerPath p.1) = some ⟨true, some ⟨p.1, a⟩⟩ := by
  intro p hp
  have hold : p ∈ s.durable := by
    split at hp
    · exact mem_of_mem_erase hp
    · exact hp
  obtain ⟨b, hip, hlookup⟩ := h p hold
  refine ⟨b, hip, ?_⟩
  rcases hdir with rfl | rfl
  · exact hlookup
  by_cases hvm : p.1 = vm
  · rw [if_pos (AList.lookup_erase _ _)] at hp
    refine absurd ?_ (ne_of_mem_erase hp)
    obtain ⟨vm', ip⟩ := p
    cases hvm
    rw [hsingle ip hold]
  · rw [AList.lookup_erase_ne fun heq => hvm (congrArg Prod.fst heq)]
    exact hlookup

section

variable (h : s.Sound) (hmanager : s.manager = some t)

include h hmanager

theorem sound_reserve (vm token : String) : (s.called lib t (.reserve vm token)).Sound := by
  have hcovered := h.covered t hmanager
  unfold called
  dsimp only
  rcases reserve_cases lib vm token (t := t) with ⟨e, heq⟩ | ⟨a, hgate, hfree, heq⟩
  · rw [heq]
    exact sound_of_covered h.uncut h.marked rfl
      { hcovered with }
  rw [heq]
  have hgrown := hcovered.grow a.ipAddress
  refine sound_of_covered h.uncut h.marked rfl { hgrown with live := fun p hp => ?_ }
  rcases mem_insert.mp hp with rfl | hp
  · exact mem_insert_self _ _
  · exact hgrown.live p hp

theorem sound_adopt (readopted : Except TapNetError Unit) (vm : String) (a : NetworkAllocation) :
    (s.called lib t (.adopt readopted vm a)).Sound := by
  have hcovered := h.covered t hmanager
  unfold called
  dsimp only
  rcases adopt_cases lib readopted vm a (t := t) with ⟨e, heq⟩ | ⟨hfree, heq⟩
  · rw [heq]
    exact sound_of_covered h.uncut h.marked rfl
      { hcovered with }
  rw [heq]
  have hgrown := hcovered.grow a.ipAddress
  refine sound_of_covered h.uncut h.marked rfl
    { hgrown with
      live := fun p hp => ?_
      surviving := fun hrec p hp => hgrown.surviving hrec p (mem_of_mem_erase hp) }
  rcases mem_insert.mp hp with rfl | hp
  · exact mem_insert_self _ _
  · exact hgrown.live p hp

theorem sound_holdAddress (ip : Ipv4) : (s.called lib t (.holdAddress ip)).Sound := by
  have hgrown := (h.covered t hmanager).grow ip
  refine sound_of_covered h.uncut h.marked rfl { hgrown with held := ?_ }
  exact insert_subset (mem_insert_self _ _) hgrown.held

/-- Nobody but `lease` has its address, and no other lease the TAP `tap`. -/
structure Sole (s : Node) (t : TapNetwork) (lease : Lease) (tap : String) : Prop where
  leases : ∀ p ∈ s.live ∪ s.surviving, p.2 = lease.2 → p = lease
  taps : (s.onTap tap).erase lease = ∅
  pending : ∀ e ∈ t.quarantined.entries, e.2.ipAddress ≠ lease.2
  durable : ∀ p ∈ s.durable, p.2 ≠ lease.2
  held : lease.2 ∉ s.held

instance (s : Node) (t : TapNetwork) (lease : Lease) (tap : String) :
    Decidable (s.Sole t lease tap) :=
  decidable_of_iff
    ((∀ p ∈ s.live ∪ s.surviving, p.2 = lease.2 → p = lease) ∧ (s.onTap tap).erase lease = ∅ ∧
      (∀ e ∈ t.quarantined.entries, e.2.ipAddress ≠ lease.2) ∧
      (∀ p ∈ s.durable, p.2 ≠ lease.2) ∧ lease.2 ∉ s.held)
    ⟨fun ⟨h₁, h₂, h₃, h₄, h₅⟩ => ⟨h₁, h₂, h₃, h₄, h₅⟩,
      fun h => ⟨h.leases, h.taps, h.pending, h.durable, h.held⟩⟩

theorem sound_freed {lease : Lease} {tap : String} (hsole : s.Sole t lease tap) :
    (s.tornDown { t with allocated := t.allocated.erase lease.2 } lease tap true).Sound := by
  have hcovered := h.covered t hmanager
  refine sound_of_covered ?_ h.marked rfl
    ⟨fun p hp => ?_, fun id a hlookup => ?_, fun p hp => ?_, fun ip hip => ?_, fun hrec p hp => ?_,
      hcovered.gate, hcovered.single, hcovered.ledgered⟩
  · change s.cut ∪ (s.onTap tap).erase lease = ∅
    rw [h.uncut, hsole.taps, union_empty]
  · obtain ⟨hne, hlive⟩ := mem_erase.mp hp
    refine mem_erase.mpr ⟨fun heq => ?_, hcovered.live p hlive⟩
    exact hne (hsole.leases p (mem_union_left _ hlive) heq)
  · refine mem_erase.mpr ⟨?_, hcovered.pending id a hlookup⟩
    exact hsole.pending ⟨id, a⟩ (Table.lookup_eq_some_iff.mp hlookup)
  · exact mem_erase.mpr ⟨hsole.durable p hp, hcovered.durable p hp⟩
  · refine mem_erase.mpr ⟨fun heq => ?_, hcovered.held hip⟩
    exact hsole.held (heq ▸ hip)
  · obtain ⟨hne, hsurviving⟩ := mem_erase.mp hp
    refine mem_erase.mpr ⟨fun heq => ?_, hcovered.surviving hrec p hsurviving⟩
    exact hne (hsole.leases p (mem_union_right _ hsurviving) heq)

theorem sound_quarantined
    (hdir : t.quarantineDir ≠ false) (out : IoOutcome) (down : TapNetwork.Teardown) (vm : String)
    (a : NetworkAllocation) (token : String)
    (htaps : (s.onTap a.tapName).erase (vm, a.ipAddress) = ∅)
    (hover : t.quarantined.lookup vm = none → ∀ p ∈ s.durable, p.1 ≠ vm) :
    (s.quarantined t out down vm a token).Sound := by
  have hcovered := h.covered t hmanager
  have hcut : ∀ destroyed : Bool,
      (if destroyed then s.cut ∪ (s.onTap a.tapName).erase (vm, a.ipAddress) else s.cut) = ∅ := by
    intro destroyed
    rw [h.uncut, htaps, union_empty, ite_self]
  have hshrunk : ∀ (lease : Lease) (set : Finset Lease) (allocated : Finset Ipv4),
      (∀ p ∈ set, p.2 ∈ allocated) → ∀ p ∈ set.erase lease, p.2 ∈ allocated :=
    fun lease set allocated hset p hp => hset p (mem_of_mem_erase hp)
  unfold quarantined quarantineChecked
  rw [if_neg hdir]
  rcases quarantineRecord_cases out s.ledger vm a token (t := t) with
    ⟨e, heq⟩ | ⟨e, x, dir, hlookup, hwrites, heq⟩ | ⟨existing, hlookup, hip, heq⟩ |
    ⟨x, dir, hlookup, hwrites, heq⟩
  · rw [heq]
    exact sound_of_covered h.uncut h.marked rfl
      { hcovered with }
  · rw [heq]
    exact sound_of_covered h.uncut (h.marked.write hwrites (hover hlookup)) rfl
      { hcovered with }
  · rw [heq, hlookup]
    exact sound_of_covered (hcut _) h.marked rfl
      { hcovered with
        live := hshrunk _ _ _ hcovered.live
        surviving := fun hrec => hshrunk _ _ _ (hcovered.surviving hrec) }
  rw [heq, hlookup]
  have hgrown := hcovered.grow a.ipAddress
  have hnone := hover hlookup
  refine sound_of_covered (hcut _) (fun p hp => ?_) rfl
    ⟨hshrunk _ _ _ hgrown.live, fun id b hb => ?_, fun p hp => ?_, hgrown.held,
      fun hrec => hshrunk _ _ _ (hgrown.surviving hrec), hgrown.gate, fun id b hb ip hip => ?_,
      fun _ _ _ => (Bool.not_eq_false _).mp hdir⟩
  · rcases mem_insert.mp hp with rfl | hp
    · refine ⟨x, hwrites.1, ?_⟩
      rw [hwrites.2]
      exact AList.lookup_insert _
    · exact h.marked.write hwrites hnone p hp
  · rcases Table.of_lookup_insert hb with ⟨rfl, rfl⟩ | ⟨hid, hb⟩
    · rw [hwrites.1]
      exact mem_insert_self _ _
    · exact hgrown.pending id b hb
  · rcases mem_insert.mp hp with rfl | hp
    · exact mem_insert_self _ _
    · exact hgrown.durable p hp
  rcases Table.of_lookup_insert hb with ⟨rfl, rfl⟩ | ⟨hid, hb⟩
  · rcases mem_insert.mp hip with heq' | hold
    · rw [hwrites.1]
      exact congrArg Prod.snd heq'
    · exact absurd rfl (hnone _ hold)
  · rcases mem_insert.mp hip with heq' | hold
    · exact absurd (congrArg Prod.fst heq') hid
    · exact hcovered.single id b hb ip hold

/-- Nobody but the quarantine of `vm` has its address, and no lease its TAP. -/
structure Last (s : Node) (t : TapNetwork) (vm : String) (a : NetworkAllocation) : Prop where
  leases : ∀ p ∈ s.live ∪ s.surviving, p.2 ≠ a.ipAddress
  taps : s.onTap a.tapName = ∅
  pending : ∀ e ∈ t.quarantined.entries, e.2.ipAddress = a.ipAddress → e.1 = vm
  durable : ∀ p ∈ s.durable, p.2 = a.ipAddress → p.1 = vm
  held : a.ipAddress ∉ s.held

instance (s : Node) (t : TapNetwork) (vm : String) (a : NetworkAllocation) :
    Decidable (s.Last t vm a) :=
  decidable_of_iff
    ((∀ p ∈ s.live ∪ s.surviving, p.2 ≠ a.ipAddress) ∧ s.onTap a.tapName = ∅ ∧
      (∀ e ∈ t.quarantined.entries, e.2.ipAddress = a.ipAddress → e.1 = vm) ∧
      (∀ p ∈ s.durable, p.2 = a.ipAddress → p.1 = vm) ∧ a.ipAddress ∉ s.held)
    ⟨fun ⟨h₁, h₂, h₃, h₄, h₅⟩ => ⟨h₁, h₂, h₃, h₄, h₅⟩,
      fun h => ⟨h.leases, h.taps, h.pending, h.durable, h.held⟩⟩

theorem sound_finalizeQuarantine
    (destroyed : Except TapNetError Unit) (out : IoOutcome) (vm token : String)
    (hlast : ∀ a, t.generation vm token = some a → s.Last t vm a) :
    (s.called lib t (.finalizeQuarantine destroyed out vm token)).Sound := by
  have hcovered := h.covered t hmanager
  unfold called
  dsimp only
  rcases t.validateQuarantine_cases vm token with
    ⟨⟨e, hrefused⟩, hnone⟩ | ⟨a, hvalid, hgeneration, hlookup⟩
  · rw [finalizeQuarantine_refused destroyed out s.ledger hrefused, hnone]
    exact sound_of_covered ((union_empty _).trans h.uncut) h.marked rfl { hcovered with }
  · have hl := hlast a hgeneration
    have hsingle : ∀ ip, (vm, ip) ∈ s.durable → ip = a.ipAddress := hcovered.single vm a hlookup
    obtain ⟨r, t', dir, heq, hdir, ht'⟩ :=
      finalizeQuarantine_cases destroyed out s.ledger hvalid
    rw [heq, hgeneration]
    have hcut : s.cut ∪ s.onTap a.tapName = ∅ := by
      rw [h.uncut, hl.taps, union_empty]
    have hdurable : ∀ p ∈ (s.finalized t' (some a.tapName) dir vm (some a)).durable, p ∈ s.durable := by
      intro p hp
      unfold finalized at hp
      dsimp only at hp
      split at hp
      · exact mem_of_mem_erase hp
      · exact hp
    rcases ht' with rfl | ⟨rfl, herased⟩
    · exact sound_of_covered hcut (h.marked.remove hdir hsingle) rfl
        { hcovered with
          durable := fun p hp => hcovered.durable p (hdurable p hp)
          single := fun id b hb ip hip => hcovered.single id b hb ip (hdurable _ hip) }
    have hother : ∀ id b, (t.quarantined.erase vm).lookup id = some b →
        id ≠ vm ∧ t.quarantined.lookup id = some b := fun _ _ => Table.of_lookup_erase
    refine sound_of_covered hcut (h.marked.remove hdir hsingle) rfl
      ⟨fun p hp => ?_, fun id b hb => ?_, fun p hp => ?_, fun ip hip => ?_, fun hrec p hp => ?_,
        fun hgate => ?_, fun id b hb ip hip => ?_, fun id b hb => ?_⟩
    · exact mem_erase.mpr
        ⟨hl.leases p (mem_union_left _ hp), hcovered.live p hp⟩
    · obtain ⟨hid, hb⟩ := hother id b hb
      refine mem_erase.mpr ⟨fun hip => hid ?_, hcovered.pending id b hb⟩
      exact hl.pending ⟨id, b⟩ (Table.lookup_eq_some_iff.mp hb) hip
    · refine mem_erase.mpr ⟨fun hip => ?_, hcovered.durable p (hdurable p hp)⟩
      -- the marker went with the record, so the record at this address is not durable
      have hgone : dir.lookup (markerPath vm) = none := by
        rw [herased (hcovered.ledgered vm a hlookup)]
        exact AList.lookup_erase _ _
      have hvm := hl.durable p (hdurable p hp) hip
      unfold finalized at hp
      dsimp only at hp
      rw [if_pos hgone] at hp
      exact ne_of_mem_erase hp (Prod.ext hvm hip)
    · refine mem_erase.mpr ⟨fun heq => ?_, hcovered.held hip⟩
      exact hl.held (heq ▸ hip)
    · exact mem_erase.mpr
        ⟨hl.leases p (mem_union_right _ hp), hcovered.surviving hrec p hp⟩
    · refine hcovered.gate ?_
      rcases hgate with hopen | hcleaned
      · rcases Bool.and_eq_false_iff.mp hopen with hopen | hopen
        · exact .inl hopen
        · rw [Bool.not_eq_false', Bool.and_eq_true] at hopen
          exact .inr hopen.2
      · exact .inr hcleaned
    · exact hcovered.single id b (hother id b hb).2 ip (hdurable _ hip)
    · exact hcovered.ledgered id b (hother id b hb).2

theorem sound_markReconciled (hreplayed : ∀ p ∈ s.surviving, p.2 ∈ t.allocated) :
    (s.called lib t .markReconciled).Sound := by
  have hcovered := h.covered t hmanager
  exact sound_of_covered h.uncut h.marked rfl
    { hcovered with surviving := fun _ => hreplayed, gate := fun _ => rfl }

theorem sound_finalizeStartupCleanup
    (token : String) : (s.called lib t (.finalizeStartupCleanup token)).Sound := by
  have hcovered := h.covered t hmanager
  unfold called
  dsimp only
  rcases finalizeStartupCleanup_cases token (t := t) with ⟨e, heq⟩ | ⟨hrec, heq⟩
  · rw [heq]
    exact sound_of_covered h.uncut h.marked rfl
      { hcovered with }
  · rw [heq]
    exact sound_of_covered h.uncut h.marked rfl
      { hcovered with gate := fun _ => hrec }

end

theorem mem_pairs {quarantined : Table String NetworkAllocation} {p : Lease} :
    p ∈ pairs quarantined ↔ ∃ a, quarantined.lookup p.1 = some a ∧ a.ipAddress = p.2 := by
  unfold pairs
  rw [List.mem_toFinset, List.mem_map]
  constructor
  · rintro ⟨⟨id, a⟩, hmem, rfl⟩
    exact ⟨a, Table.lookup_eq_some_iff.mpr hmem, rfl⟩
  · rintro ⟨a, hlookup, hip⟩
    exact ⟨⟨p.1, a⟩, Table.lookup_eq_some_iff.mp hlookup, Prod.ext rfl hip⟩

/-- A new process: its pool covers what the ledger names, and without a ledger there must
be nothing left to cover. -/
theorem sound_restart (h : s.Sound) (c : Config) (opened : Except TapNetError Unit)
    (survivors : Finset Lease)
    (hclean : c.quarantineDir = false → s.durable = ∅ ∧ (s.live ∪ s.surviving) ∩ survivors = ∅) :
    (s.step lib (.restart c opened survivors)).Sound := by
  unfold step
  dsimp only
  cases hnew : new lib c opened s.ledger with
  | error e => exact ⟨h.uncut, h.marked, nofun⟩
  | ok out =>
    obtain ⟨t, held⟩ := out
    obtain ⟨hheld, hpending, hledger, hbare⟩ := new_cases hnew
    have hmarked : ∀ p ∈ s.durable ∪ pairs t.quarantined, ∃ a : NetworkAllocation,
        a.ipAddress = p.2 ∧ s.ledger.lookup (markerPath p.1) = some ⟨true, some ⟨p.1, a⟩⟩ := by
      intro p hp
      rcases mem_union.mp hp with hold | hloaded
      · exact h.marked p hold
      · obtain ⟨a, hlookup, hip⟩ := mem_pairs.mp hloaded
        exact ⟨a, hip, (hpending p.1 a hlookup).2.2⟩
    have hdurable : ∀ p ∈ s.durable ∪ pairs t.quarantined, p.2 ∈ t.allocated := by
      intro p hp
      cases hdir : c.quarantineDir with
      | false =>
        rw [(hclean hdir).1, empty_union] at hp
        obtain ⟨a, hlookup, hip⟩ := mem_pairs.mp hp
        rw [← hip]
        exact (hpending p.1 a hlookup).2.1
      | true =>
        obtain ⟨a, hip, hlookup⟩ := hmarked p hp
        rw [← hip]
        exact (hledger hdir).2.2.2 p.1 _ hlookup
    refine sound_of_covered h.uncut hmarked rfl
      ⟨nofun, fun id a hlookup => (hpending id a hlookup).2.1, hdurable, hheld,
        fun hrec p hp => ?_, fun hgate => ?_, fun id a hlookup ip hip => ?_,
        fun id a hlookup => (hpending id a hlookup).1⟩
    · cases hdir : c.quarantineDir with
      | false =>
        rw [(hclean hdir).2] at hp
        cases hp
      | true => cases (hledger hdir).2.2.1.symm.trans hrec
    · cases hdir : c.quarantineDir with
      | false => exact hbare hdir
      | true =>
        rcases hgate with hopen | hcleaned
        · cases (hledger hdir).1.symm.trans hopen
        · cases (hledger hdir).2.1.symm.trans hcleaned
    · obtain ⟨b, hb, hmarker⟩ := hmarked (id, ip) hip
      cases (hpending id a hlookup).2.2.symm.trans hmarker
      exact hb.symm

end Node

/-! ## Every run -/

/-- The calls that are safe: a teardown whose address and TAP nobody else has, a quarantine
that takes no other lease's TAP and overwrites no other record, and a replay declared
complete once every surviving lease is covered. -/
def Call.Orderly (s : Node) (t : TapNetwork) : Call → Prop
  | .release _ vm a => s.Sole t (vm, a.ipAddress) a.tapName
  | .quarantine _ _ vm a _ =>
    if t.quarantineDir = false then s.Sole t (vm, a.ipAddress) a.tapName
    else (s.onTap a.tapName).erase (vm, a.ipAddress) = ∅ ∧
      (t.quarantined.lookup vm = none → ∀ p ∈ s.durable, p.1 ≠ vm)
  | .finalizeQuarantine _ _ vm token =>
    match t.generation vm token with
    | some a => s.Last t vm a
    | none => True
  | .markReconciled => ∀ p ∈ s.surviving, p.2 ∈ t.allocated
  | _ => True

instance (s : Node) (t : TapNetwork) (c : Call) : Decidable (c.Orderly s t) := by
  unfold Call.Orderly
  split
  · infer_instance
  · split <;> infer_instance
  · split <;> infer_instance
  · infer_instance
  · infer_instance

/-- A start without a ledger is safe only when nothing is left from before. -/
def Event.Orderly (s : Node) : Event → Prop
  | .call c =>
    match s.manager with
    | some t => c.Orderly s t
    | none => True
  | .restart c _ survivors =>
    c.quarantineDir = false → s.durable = ∅ ∧ (s.live ∪ s.surviving) ∩ survivors = ∅

instance (s : Node) (e : Event) : Decidable (e.Orderly s) := by
  unfold Event.Orderly
  split
  · split <;> infer_instance
  · infer_instance

namespace Node

variable {s : Node} {t : TapNetwork} {lib : Library}

theorem sound_called (h : s.Sound) (hmanager : s.manager = some t) (c : Call)
    (hc : c.Orderly s t) : (s.called lib t c).Sound := by
  cases c with
  | reserve vm token => exact sound_reserve h hmanager vm token
  | adopt readopted vm a => exact sound_adopt h hmanager readopted vm a
  | holdAddress ip => exact sound_holdAddress h hmanager ip
  | release down vm a => exact sound_freed h hmanager hc
  | quarantine out down vm a token =>
    unfold Call.Orderly at hc
    unfold called
    dsimp only at hc ⊢
    by_cases hdir : t.quarantineDir = false
    · rw [if_pos hdir] at hc ⊢
      unfold quarantineChecked
      rw [if_pos hdir]
      exact sound_freed h hmanager hc
    · rw [if_neg hdir] at hc ⊢
      exact sound_quarantined h hmanager hdir out down vm a token hc.1 hc.2
  | finalizeQuarantine destroyed out vm token =>
    refine sound_finalizeQuarantine h hmanager destroyed out vm token fun a hgeneration => ?_
    unfold Call.Orderly at hc
    dsimp only at hc
    rw [hgeneration] at hc
    exact hc
  | markReconciled => exact sound_markReconciled h hmanager hc
  | finalizeStartupCleanup token => exact sound_finalizeStartupCleanup h hmanager token

theorem sound_step (h : s.Sound) (e : Event) (he : e.Orderly s) : (s.step lib e).Sound := by
  cases e with
  | restart c opened survivors => exact sound_restart h c opened survivors he
  | call c =>
    unfold Event.Orderly at he
    unfold step
    cases hmanager : s.manager with
    | none => exact h
    | some t =>
      rw [hmanager] at he
      exact sound_called h hmanager c he

theorem sound_run (h : s.Sound) (events : List Event)
    (hevents : History.Throughout (step lib) s (fun s e => e.Orderly s) events) :
    (History.after (step lib) s events).Sound :=
  History.keeps (fun _ e hs he => sound_step hs e he) h hevents

theorem sound_initial (ledger : Ledger) (surviving : Finset Lease) :
    (initial ledger surviving).Sound := by
  refine ⟨rfl, fun p hp => ?_, fun t ht => ?_⟩
  · cases hp
  · cases ht

end Node

/-- From any ledger and any leases left by an earlier process, every run of orderly calls
and restarts keeps the addresses in use out of the pool's hands. -/
theorem addresses_exclusive (lib : Library) (ledger : Ledger) (surviving : Finset Lease)
    (events : List Event)
    (hevents : History.Throughout (Node.step lib) (Node.initial ledger surviving)
      (fun s e => e.Orderly s) events) :
    (History.after (Node.step lib) (Node.initial ledger surviving) events).Exclusive lib :=
  (Node.sound_run (Node.sound_initial ledger surviving) events hevents).exclusive

/-! ## Two records of one address -/

/-- A hasher that tells two sandboxes apart, and a parser that takes every token. -/
def twinLibrary : Library := ⟨fun id => if id = "a" then 1#64 else 2#64, fun _ => true⟩

/-- 10.0.0.2 in a pool of five addresses. -/
def twinAddress : Ipv4 := 0x0a000002#32

/-- The journaled network of `vm`. -/
def journaled (vm token : String) : NetworkAllocation :=
  ⟨tapNameFromIp twinAddress, twinAddress, 29, 0x0a000001#32, macFromVmId twinLibrary vm, [], token⟩

def twinConfig : Config := ⟨0x0a000000#32, 29, 0x0a000001#32, [], true, "generation"⟩

/-- Both journals name one address: the first sandbox is adopted, the second refused, torn
down and its cleanup finalized. -/
def twinRun : List Event :=
  [.restart twinConfig (.ok ()) {("a", twinAddress), ("b", twinAddress)},
    .call (.adopt (.ok ()) "a" (journaled "a" "token-a")),
    .call (.adopt (.ok ()) "b" (journaled "b" "token-b")),
    .call (.quarantine .done ⟨.ok (), .ok ()⟩ "b" (journaled "b" "token-b") "fresh"),
    .call .markReconciled,
    .call (.finalizeQuarantine (.ok ()) .done "b" "token-b"),
    .call (.finalizeStartupCleanup "generation")]

def twinNode : Node :=
  History.after (Node.step twinLibrary)
    (Node.initial ∅ {("a", twinAddress), ("b", twinAddress)}) twinRun

/-- The adopted sandbox is live, its TAP is gone, and the next reservation is its address. -/
theorem refused_twin_frees_holder :
    ("a", twinAddress) ∈ twinNode.live ∧ ("a", twinAddress) ∈ twinNode.cut ∧
      ∃ t a, twinNode.manager = some t ∧ (t.reserve twinLibrary "c" "token-c").1 = .ok a ∧
        a.ipAddress = twinAddress := by
  refine ⟨?_, ?_, _, _, rfl, rfl, rfl⟩
  · decide +kernel
  · decide +kernel

/-- The same start with one journal: the sandbox is adopted, quarantined and finalized, and
its address is reserved again. -/
theorem addresses_exclusive_adopted :
    (History.after (Node.step twinLibrary) (Node.initial ∅ {("a", twinAddress)})
      [.restart twinConfig (.ok ()) {("a", twinAddress)},
        .call (.adopt (.ok ()) "a" (journaled "a" "token-a")),
        .call .markReconciled,
        .call (.finalizeStartupCleanup "generation"),
        .call (.quarantine .done ⟨.ok (), .ok ()⟩ "a" (journaled "a" "token-a") "fresh"),
        .call (.finalizeQuarantine (.ok ()) .done "a" "token-a"),
        .call (.reserve "c" "token-c")]).Exclusive twinLibrary := by
  refine addresses_exclusive twinLibrary _ _ _ ?_
  decide +kernel

/-- In every run of orderly calls and restarts a quarantine that is durable has its marker on
disk, with its address, and a running manager keeps that address out of the pool and has no
other address quarantined for the sandbox. -/
theorem quarantine_survives (lib : Library) (ledger : Ledger) (surviving : Finset Lease)
    (events : List Event)
    (hevents : History.Throughout (Node.step lib) (Node.initial ledger surviving)
      (fun s e => e.Orderly s) events) :
    let s := History.after (Node.step lib) (Node.initial ledger surviving) events
    ∀ p ∈ s.durable,
      (∃ a : NetworkAllocation, a.ipAddress = p.2 ∧
        s.ledger.lookup (markerPath p.1) = some ⟨true, some ⟨p.1, a⟩⟩) ∧
      ∀ t, s.manager = some t → p.2 ∈ t.allocated ∧
        ∀ a, t.quarantined.lookup p.1 = some a → a.ipAddress = p.2 := by
  intro s p hp
  have h := Node.sound_run (Node.sound_initial ledger surviving) events hevents
  exact ⟨h.marked p hp, fun t ht => ⟨(h.covered t ht).durable p hp,
    fun a ha => ((h.covered t ht).single p.1 a ha p.2 hp).symm⟩⟩

/-- A sandbox is quarantined, and the process replaced. -/
def quarantinedRun : List Event :=
  [.restart twinConfig (.ok ()) {("a", twinAddress)},
    .call (.adopt (.ok ()) "a" (journaled "a" "token-a")),
    .call (.quarantine .done ⟨.ok (), .ok ()⟩ "a" (journaled "a" "token-a") "fresh"),
    .restart twinConfig (.ok ()) ∅]

theorem quarantine_survives_restart :
    let s := History.after (Node.step twinLibrary) (Node.initial ∅ {("a", twinAddress)})
      quarantinedRun
    ("a", twinAddress) ∈ s.durable ∧ ∀ t, s.manager = some t → twinAddress ∈ t.allocated := by
  intro s
  have hmem : ("a", twinAddress) ∈ s.durable := by decide +kernel
  exact ⟨hmem, fun t ht => ((quarantine_survives twinLibrary _ _ quarantinedRun
    (by decide +kernel) _ hmem).2 t ht).1⟩

end Arcbox.TapNet

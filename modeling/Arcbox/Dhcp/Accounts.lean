import Arcbox.Foundation.History
import Arcbox.Foundation.Ownership
import Arcbox.Dhcp.Server

set_option autoImplicit false

/-!
# DHCP: no collisions and no leaks

The books of the server: a client holds its lease and its reservation, a declined
address is parked, and the allocator's set is what must not be handed out.  The books
stay balanced under every call, except under three that drop or free an address the
tables still (or no longer) name; the condition on a call says which.
-/

namespace Arcbox.Dhcp

open List IpAllocator AList

open Foundation (Table Ownership History.Throughout History.after History.keeps)

variable {mac : Mac}

namespace DhcpServer

variable (s : DhcpServer)

/-- The address of a client's recorded lease. -/
def leaseIp (mac : Mac) : Option Ipv4 := (s.leases.lookup mac).map DhcpLease.ip

def Quarantined (ip : Ipv4) : Prop := (s.declinedIps.lookup ip).isSome = true

instance (ip : Ipv4) : Decidable (s.Quarantined ip) := by
  unfold Quarantined
  infer_instance

/-- The client has a lease or a reservation on the address. -/
def Holds (mac : Mac) (ip : Ipv4) : Prop :=
  s.leaseIp mac = some ip ∨ s.reservations.lookup mac = some ip

def book : Ownership Mac Ipv4 where
  held mac := { ip | s.Holds mac ip }
  parked := { ip | s.Quarantined ip }
  allocated := { ip | ip ∈ s.allocator.allocated }

/-- No address has two clients, recorded leases and reservations together; the allocator's
set is exactly what is leased, reserved or quarantined; and as long as an address of the
pool is not, the allocator gives it out on demand and has one to offer. -/
structure Accounted : Prop where
  balanced : s.book.Balanced
  reusable : ∀ ip, s.allocator.start ≤ ip → ip ≤ s.allocator.last → ¬ s.book.InUse ip →
    (s.allocator.allocateSpecific ip).1 = true ∧ s.allocator.allocate.1 ≠ none

/-- The books balance, and a client whose lease is on a quarantined address has it reserved. -/
structure Sound : Prop where
  balanced : s.book.Balanced
  aside : ∀ mac ip, s.leaseIp mac = some ip → s.Quarantined ip →
    s.reservations.lookup mac = some ip

variable {s}

theorem Sound.accounted (h : s.Sound) : s.Accounted := by
  refine ⟨h.balanced, fun ip hlow hhigh hfree => ?_⟩
  have hnot : ip ∉ s.allocator.allocated := fun hmem => hfree ((h.balanced.accounted ip).mp hmem)
  constructor
  · rw [allocateSpecific_eq,
      if_pos ((s.allocator.isAvailable_iff ip).mpr ⟨⟨hlow, hhigh⟩, hnot⟩)]
  · exact fun hnone => hnot (allocated_of_allocate_none hnone hlow hhigh)

theorem sound_new {config : DhcpConfig} (h : DhcpServer.new config = some s) : s.Sound := by
  obtain ⟨allocator, halloc, rfl⟩ := Option.map_eq_some_iff.mp h
  unfold IpAllocator.new at halloc
  split at halloc
  · cases halloc
    refine ⟨⟨?_, fun ip => ?_⟩, ?_⟩
    · rintro mac mac' ip (hmac | hmac) <;> cases hmac
    · refine ⟨fun hmem => absurd hmem (Finset.notMem_empty ip), ?_⟩
      rintro (⟨mac, hmac | hmac⟩ | hparked)
      · cases hmac
      · cases hmac
      · cases hparked
    · rintro mac ip hmac
      cases hmac
  · cases halloc

/-! ## Leases in the table -/

theorem leaseIp_of_lookup {lease : DhcpLease} (h : s.leases.lookup mac = some lease) :
    s.leaseIp mac = some lease.ip := by
  unfold leaseIp
  rw [h]
  rfl

theorem leaseIp_of_lookup_none (h : s.leases.lookup mac = none) : s.leaseIp mac = none := by
  unfold leaseIp
  rw [h]
  rfl

theorem leaseIp_insert (mac : Mac) (lease : DhcpLease) :
    ({ s with leases := s.leases.insert mac lease } : DhcpServer).leaseIp mac = some lease.ip := by
  unfold leaseIp
  rw [lookup_insert]
  rfl

variable {mac' : Mac}

theorem leaseIp_insert_ne (h : mac' ≠ mac) (lease : DhcpLease) :
    ({ s with leases := s.leases.insert mac lease } : DhcpServer).leaseIp mac' = s.leaseIp mac' := by
  unfold leaseIp
  rw [lookup_insert_ne h]

theorem leaseIp_erase (mac : Mac) :
    ({ s with leases := s.leases.erase mac } : DhcpServer).leaseIp mac = none := by
  unfold leaseIp
  rw [lookup_erase]
  rfl

theorem leaseIp_erase_ne (h : mac' ≠ mac) :
    ({ s with leases := s.leases.erase mac } : DhcpServer).leaseIp mac' = s.leaseIp mac' := by
  unfold leaseIp
  rw [lookup_erase_ne h]

variable {ip : Ipv4}

theorem leaseIp_of_erase
    (h : ({ s with leases := s.leases.erase mac } : DhcpServer).leaseIp mac' = some ip) :
    mac' ≠ mac ∧ s.leaseIp mac' = some ip := by
  by_cases heq : mac' = mac
  · rw [heq, leaseIp_erase] at h
    cases h
  · rw [leaseIp_erase_ne heq] at h
    exact ⟨heq, h⟩

/-! ## Dropped leases -/

/-- The server after the leases of `macs` were dropped. -/
structure Expired (macs : List Mac) (s s' : DhcpServer) : Prop where
  reservations : s'.reservations = s.reservations
  declinedIps : s'.declinedIps = s.declinedIps
  leaseIp : ∀ mac, s'.leaseIp mac = if mac ∈ macs then none else s.leaseIp mac
  allocated : ∀ ip, ip ∈ s'.allocator.allocated ↔
    ip ∈ s.allocator.allocated ∧ ∀ mac ∈ macs, s.leaseIp mac ≠ some ip

theorem expired_expire (mac : Mac) : Expired [mac] s (s.expire mac) := by
  unfold expire
  cases hlookup : s.leases.lookup mac with
  | none =>
    have hnone : s.leaseIp mac = none := leaseIp_of_lookup_none hlookup
    refine ⟨rfl, rfl, fun mac' => ?_, fun ip => ⟨fun hi => ⟨hi, fun mac' hmem => ?_⟩, And.left⟩⟩
    · by_cases hmem : mac' ∈ [mac]
      · rw [if_pos hmem, mem_singleton.mp hmem]
        exact hnone
      · rw [if_neg hmem]
    · rw [mem_singleton.mp hmem, hnone]
      exact nofun
  | some lease =>
    have hlease : s.leaseIp mac = some lease.ip := leaseIp_of_lookup hlookup
    refine ⟨rfl, rfl, fun mac' => ?_, fun ip => ?_⟩
    · by_cases hmem : mac' ∈ [mac]
      · rw [if_pos hmem, mem_singleton.mp hmem]
        exact leaseIp_erase mac
      · rw [if_neg hmem]
        exact leaseIp_erase_ne fun heq => hmem (mem_singleton.mpr heq)
    refine Finset.mem_erase.trans (and_comm.trans (and_congr_right fun _ => ?_))
    constructor
    · intro hne mac' hmem heq
      rw [mem_singleton.mp hmem, hlease] at heq
      exact hne (Option.some.inj heq).symm
    · intro hall heq
      exact hall mac (mem_singleton_self _) (by rw [hlease, heq])

/-! ## Reservations -/

variable {s' : DhcpServer}

section

variable (h : s.Sound)

include h

/-- A call that concerns one client: the others and the quarantine stay, the client
takes only what was free, and the allocator follows it. -/
theorem balanced_update (mac : Mac) (hlease : ∀ mac', mac' ≠ mac → s'.leaseIp mac' = s.leaseIp mac')
    (hres : ∀ mac', mac' ≠ mac → s'.reservations.lookup mac' = s.reservations.lookup mac')
    (hdeclined : s'.declinedIps = s.declinedIps)
    (hfresh : ∀ ip, s'.Holds mac ip → s.Holds mac ip ∨ ip ∉ s.allocator.allocated)
    (haccounts : ∀ ip, ip ∈ s'.allocator.allocated ↔ s'.Holds mac ip ∨ (ip ∈ s.allocator.allocated ∧
      (s.Holds mac ip → s.Quarantined ip))) :
    s'.book.Balanced := by
  have hheld : ∀ mac', mac' ≠ mac → s'.book.held mac' = s.book.held mac' := by
    intro mac' hne
    ext ip
    change s'.Holds mac' ip ↔ s.Holds mac' ip
    unfold Holds
    rw [hlease mac' hne, hres mac' hne]
  have hparked : s'.book.parked = s.book.parked := by
    ext ip
    change s'.Quarantined ip ↔ s.Quarantined ip
    unfold Quarantined
    rw [hdeclined]
  exact (h.balanced.update_iff hheld hparked hfresh).mpr haccounts

theorem Sound.allocated_of_lease (hlease : s.leaseIp mac = some ip) : ip ∈ s.allocator.allocated :=
  h.balanced.allocated_of_held (k := mac) (.inl hlease)

theorem Sound.allocated_of_reservation (hres : s.reservations.lookup mac = some ip) :
    ip ∈ s.allocator.allocated := h.balanced.allocated_of_held (k := mac) (.inr hres)

theorem sound_reserve (hav : s.allocator.isAvailable ip = true)
    (hcond : ∀ old, s.reservations.lookup mac = some old →
      (s.leaseIp mac = some old ↔ ¬ s.Quarantined old)) :
    ({ s with allocator := s.allocator.mark ip,
              reservations := s.reservations.insert mac ip } : DhcpServer).Sound := by
  obtain ⟨-, hfree⟩ := (s.allocator.isAvailable_iff ip).mp hav
  have hself : (s.reservations.insert mac ip).lookup mac = some ip := lookup_insert _
  have hother : ∀ mac', mac' ≠ mac →
      (s.reservations.insert mac ip).lookup mac' = s.reservations.lookup mac' :=
    fun mac' hne => lookup_insert_ne hne
  refine ⟨balanced_update h mac (fun _ _ => rfl) hother rfl ?_ ?_, ?_⟩
  · rintro i (hi | hi)
    · exact .inl (.inl hi)
    · cases hself.symm.trans hi
      exact .inr hfree
  · intro i
    refine Iff.trans Finset.mem_insert ⟨?_, ?_⟩
    · rintro (rfl | hi)
      · exact .inl (.inr hself)
      by_cases hlease : s.leaseIp mac = some i
      · exact .inl (.inl hlease)
      refine .inr ⟨hi, ?_⟩
      rintro (hl | hr)
      · exact absurd hl hlease
      · exact not_not.mp fun hq => hlease ((hcond i hr).mpr hq)
    rintro ((hi | hi) | ⟨hi, -⟩)
    · exact .inr (h.allocated_of_lease hi)
    · cases hself.symm.trans hi
      exact .inl rfl
    · exact .inr hi
  · intro mac' i hlease hq
    have hres := h.aside mac' i hlease hq
    by_cases heq : mac' = mac
    · subst heq
      exact absurd hq ((hcond i hres).mp hlease)
    · exact (hother mac' heq).trans hres

theorem sound_removeReservation
    (hcond : ∀ ip, s.reservations.lookup mac = some ip → s.leaseIp mac ≠ some ip ∧
      ¬ s.Quarantined ip) : (s.removeReservation mac).Sound := by
  unfold removeReservation
  cases hres : s.reservations.lookup mac with
  | none => exact h
  | some ip =>
    obtain ⟨hlease, hq⟩ := hcond ip hres
    have hself : (s.reservations.erase mac).lookup mac = none := lookup_erase _ _
    have hother : ∀ mac', mac' ≠ mac →
        (s.reservations.erase mac).lookup mac' = s.reservations.lookup mac' :=
      fun mac' hne => lookup_erase_ne hne
    refine ⟨balanced_update h mac (fun _ _ => rfl) hother rfl ?_ ?_, ?_⟩
    · rintro i (hi | hi)
      · exact .inl (.inl hi)
      · cases hself.symm.trans hi
    · intro i
      refine Iff.trans Finset.mem_erase ⟨?_, ?_⟩
      · rintro ⟨hne, hi⟩
        by_cases hl : s.leaseIp mac = some i
        · exact .inl (.inl hl)
        refine .inr ⟨hi, ?_⟩
        rintro (hl' | hr)
        · exact absurd hl' hl
        · cases hres.symm.trans hr
          exact absurd rfl hne
      rintro ((hi | hi) | ⟨hi, hpark⟩)
      · exact ⟨fun heq => hlease (heq ▸ hi), h.allocated_of_lease hi⟩
      · cases hself.symm.trans hi
      · refine ⟨?_, hi⟩
        rintro rfl
        exact hq (hpark (.inr hres))
    · intro mac' i hl hqi
      have hold := h.aside mac' i hl hqi
      by_cases heq : mac' = mac
      · subst heq
        cases hres.symm.trans hold
        exact absurd hl hlease
      · exact (hother mac' heq).trans hold

/-! ## Leases -/

variable (packet : DhcpPacket)

/-- A lease for the sender of a packet, on an address that is its own or was free. -/
theorem sound_grant (now : Instant) (hleases : s'.leases = s.leases)
    (hres : s'.reservations = s.reservations) (hdeclined : s'.declinedIps = s.declinedIps)
    (hown : (s.Holds packet.clientMac ip ∧ s'.allocator.allocated = s.allocator.allocated) ∨
      (ip ∉ s.allocator.allocated ∧ s'.allocator.allocated = insert ip s.allocator.allocated))
    (hold : ∀ l, s.leaseIp packet.clientMac = some l → l = ip) :
    (s'.grant packet ip now).Sound := by
  have hself : (s'.grant packet ip now).leaseIp packet.clientMac = some ip := leaseIp_insert _ _
  have hother : ∀ mac', mac' ≠ packet.clientMac →
      (s'.grant packet ip now).leaseIp mac' = s.leaseIp mac' := by
    intro mac' hne
    refine (leaseIp_insert_ne hne _).trans ?_
    unfold leaseIp
    rw [hleases]
  have hres' : ∀ mac', (s'.grant packet ip now).reservations.lookup mac' =
      s.reservations.lookup mac' := fun mac' => by
    change s'.reservations.lookup mac' = _
    rw [hres]
  refine ⟨balanced_update h packet.clientMac hother (fun mac' _ => hres' mac') hdeclined ?_ ?_, ?_⟩
  · rintro i (hi | hi)
    · cases hself.symm.trans hi
      rcases hown with ⟨hmine, -⟩ | ⟨hfree, -⟩
      · exact .inl hmine
      · exact .inr hfree
    · exact .inl (.inr ((hres' _).symm.trans hi))
  · intro i
    change i ∈ s'.allocator.allocated ↔ _
    have hmem : i ∈ s'.allocator.allocated ↔ i = ip ∨ i ∈ s.allocator.allocated := by
      rcases hown with ⟨hmine, halloc⟩ | ⟨-, halloc⟩
      · rw [halloc]
        refine ⟨.inr, ?_⟩
        rintro (rfl | hi)
        · exact h.balanced.allocated_of_held hmine
        · exact hi
      · rw [halloc, Finset.mem_insert]
    rw [hmem]
    constructor
    · rintro (rfl | hi)
      · exact .inl (.inl hself)
      by_cases hlease : s.leaseIp packet.clientMac = some i
      · rw [hold i hlease]
        exact .inl (.inl hself)
      by_cases hresv : s.reservations.lookup packet.clientMac = some i
      · exact .inl (.inr ((hres' _).trans hresv))
      refine .inr ⟨hi, ?_⟩
      rintro (hl | hr)
      · exact absurd hl hlease
      · exact absurd hr hresv
    rintro ((hi | hi) | ⟨hi, -⟩)
    · cases hself.symm.trans hi
      exact .inl rfl
    · exact .inr (h.allocated_of_reservation ((hres' _).symm.trans hi))
    · exact .inr hi
  · intro mac' i hlease hq
    have hq : s.Quarantined i := by
      unfold Quarantined at hq ⊢
      change (s'.declinedIps.lookup i).isSome = true at hq
      rw [hdeclined] at hq
      exact hq
    rw [hres']
    by_cases heq : mac' = packet.clientMac
    · subst heq
      cases hself.symm.trans hlease
      rcases hown with ⟨hmine | hmine, -⟩ | ⟨hfree, -⟩
      · exact h.aside _ _ hmine hq
      · exact hmine
      · exact absurd (h.balanced.allocated_of_parked hq) hfree
    · exact h.aside mac' i ((hother mac' heq).symm.trans hlease) hq

/-- The lease of a client without a reservation goes, with its address. -/
theorem Sound.expired (hexp : Expired [mac] s s') (hnone : s.reservations.lookup mac = none) :
    s'.Sound := by
  have hself : s'.leaseIp mac = none := by
    rw [hexp.leaseIp, if_pos (mem_singleton_self mac)]
  have hother : ∀ mac', mac' ≠ mac → s'.leaseIp mac' = s.leaseIp mac' := by
    intro mac' hne
    rw [hexp.leaseIp, if_neg fun hmem => hne (mem_singleton.mp hmem)]
  have hres : s'.reservations = s.reservations := hexp.reservations
  have hfree : ∀ i, ¬ s'.Holds mac i := by
    rintro i (hi | hi)
    · cases hself.symm.trans hi
    · rw [hres, hnone] at hi
      cases hi
  refine ⟨balanced_update h mac hother (fun _ _ => by rw [hres]) hexp.declinedIps
    (fun i hi => absurd hi (hfree i)) fun i => ?_, fun mac' i hi hq => ?_⟩
  · refine (hexp.allocated i).trans ⟨fun hi => .inr ⟨hi.1, ?_⟩, ?_⟩
    · rintro (hl | hr)
      · exact absurd hl (hi.2 mac (mem_singleton_self mac))
      · cases hnone.symm.trans hr
    rintro (hi | ⟨hi, hpark⟩)
    · exact absurd hi (hfree i)
    · refine ⟨hi, fun mac' hmem hl => ?_⟩
      rw [mem_singleton.mp hmem] at hl
      cases hnone.symm.trans (h.aside mac i hl (hpark (.inl hl)))
  unfold Quarantined at hq
  rw [hexp.declinedIps] at hq
  rw [hexp.leaseIp] at hi
  split at hi
  · cases hi
  · rw [hres]
    exact h.aside mac' i hi hq

theorem sound_release
    (hcond : ∀ l r, s.leaseIp packet.clientMac = some l →
      s.reservations.lookup packet.clientMac = some r → l = r) :
    (s.handleRelease packet).Sound := by
  have hexp := expired_expire (s := s) packet.clientMac
  unfold expire at hexp
  unfold handleRelease
  cases hlookup : s.leases.lookup packet.clientMac with
  | none => exact h
  | some lease =>
    rw [hlookup] at hexp
    have hlease : s.leaseIp packet.clientMac = some lease.ip := leaseIp_of_lookup hlookup
    dsimp only
    split
    · -- the address stays reserved
      rename_i hsome
      obtain ⟨r, hres⟩ := Option.isSome_iff_exists.mp hsome
      have hsame : ∀ i, s.leaseIp packet.clientMac = some i →
          s.reservations.lookup packet.clientMac = some i := by
        intro i hi
        rw [hres, hcond i r hi hres]
      refine ⟨(h.balanced.shrink_iff ?_).mpr fun i => (h.balanced.accounted i).trans ?_, ?_⟩
      · rintro mac' i (hi | hi)
        · exact .inl (leaseIp_of_erase hi).2
        · exact .inr hi
      · refine or_congr_left (exists_congr fun mac' => ⟨?_, ?_⟩)
        · rintro (hi | hi)
          · by_cases heq : mac' = packet.clientMac
            · subst heq
              exact .inr (hsame i hi)
            · exact .inl ((leaseIp_erase_ne heq).trans hi)
          · exact .inr hi
        · rintro (hi | hi)
          · exact .inl (leaseIp_of_erase hi).2
          · exact .inr hi
      · intro mac' i hl hq
        exact h.aside mac' i (leaseIp_of_erase hl).2 hq
    next hnone =>
      exact h.expired hexp (Option.not_isSome_iff_eq_none.mp hnone)

theorem sound_setAside {leases : Table Mac DhcpLease} (now : Instant) (hheld : s.Holds mac ip)
    (hsub : ∀ mac' i, ({ s with leases := leases } : DhcpServer).leaseIp mac' = some i →
      s.leaseIp mac' = some i ∧ ¬ (mac' = mac ∧ i = ip))
    (hkept : ∀ mac' i, s.leaseIp mac' = some i → i ≠ ip →
      ({ s with leases := leases } : DhcpServer).leaseIp mac' = some i) :
    ({ s with leases := leases, declinedIps := s.declinedIps.insert ip now } : DhcpServer).Sound := by
  have hquarantined : ∀ i, ((s.declinedIps.insert ip now).lookup i).isSome = true ↔
      i = ip ∨ s.Quarantined i := by
    intro i
    by_cases heq : i = ip
    · rw [heq, lookup_insert]
      exact ⟨fun _ => .inl rfl, fun _ => rfl⟩
    · rw [lookup_insert_ne heq]
      exact ⟨.inr, fun hor => hor.resolve_left heq⟩
  refine ⟨h.balanced.park hheld rfl hquarantined ?_ ?_, ?_⟩
  · rintro mac' i (hi | hi)
    · exact .inl (hsub mac' i hi).1
    · exact .inr hi
  · rintro mac' i (hi | hi) hne
    · exact .inl (hkept mac' i hi hne)
    · exact .inr hi
  intro mac' i hlease hq
  obtain ⟨hold, hnot⟩ := hsub mac' i hlease
  rcases (hquarantined i).mp hq with rfl | hq
  · exact absurd ⟨h.balanced.exclusive mac' _ i (.inl hold) hheld, rfl⟩ hnot
  · exact h.aside mac' i hold hq

theorem sound_decline (now : Instant) : (s.handleDecline packet now).Sound := by
  unfold handleDecline
  cases packet.requestedIp with
  | none => exact h
  | some ip =>
    dsimp only
    split
    next hoffered =>
      split
      next hcovers =>
        refine sound_setAside h now hoffered (fun mac' i hi => ?_) fun mac' i hi hne => ?_
        · obtain ⟨hother, hold⟩ := leaseIp_of_erase hi
          exact ⟨hold, fun hboth => hother hboth.1⟩
        · refine (leaseIp_erase_ne ?_).trans hi
          rintro rfl
          exact hne (Option.some.inj (hi.symm.trans hcovers))
      rename_i hcovers
      refine sound_setAside h now hoffered (fun mac' i hi => ⟨hi, ?_⟩) fun mac' i hi _ => hi
      rintro ⟨rfl, rfl⟩
      exact hcovers hi
    · exact h

end

/-! ## Cleanup -/

theorem mem_expired {now : Instant} (h : mac ∈ s.expired now) :
    s.reservations.lookup mac = none := by
  obtain ⟨e, hmem, rfl⟩ := mem_map.mp h
  have htest := (mem_filter.mp hmem).2
  rw [Bool.and_eq_true, Bool.not_eq_true', Option.isSome_eq_false_iff] at htest
  exact Option.isNone_iff_eq_none.mp htest.2

/-- Someone has the address leased or reserved. -/
def Claimed (s : DhcpServer) (ip : Ipv4) : Prop := ∃ mac, s.Holds mac ip

theorem claimed_iff (ip : Ipv4) :
    ((s.reservations.entries.any fun e => decide (e.2 = ip)) ||
      s.leases.entries.any fun e => decide (e.2.ip = ip)) = true ↔ s.Claimed ip := by
  rw [Bool.or_eq_true, any_eq_true, any_eq_true]
  constructor
  · rintro (⟨e, hmem, htest⟩ | ⟨e, hmem, htest⟩)
    · rw [← of_decide_eq_true htest]
      exact ⟨e.1, .inr (Table.lookup_eq_some_iff.mpr hmem)⟩
    · rw [← of_decide_eq_true htest]
      exact ⟨e.1, .inl (leaseIp_of_lookup (Table.lookup_eq_some_iff.mpr hmem))⟩
  rintro ⟨mac, hlease | hres⟩
  · obtain ⟨lease, hlookup, hip⟩ := Option.map_eq_some_iff.mp hlease
    exact .inr ⟨⟨mac, lease⟩, Table.lookup_eq_some_iff.mp hlookup, decide_eq_true hip⟩
  · exact .inl ⟨⟨mac, ip⟩, Table.lookup_eq_some_iff.mp hres, decide_eq_true rfl⟩

/-- The server after the quarantine of `ips` ended. -/
structure Lifted (ips : List Ipv4) (s s' : DhcpServer) : Prop where
  reservations : s'.reservations = s.reservations
  leases : s'.leases = s.leases
  quarantined : ∀ ip, s'.Quarantined ip ↔ s.Quarantined ip ∧ ip ∉ ips
  allocated : ∀ ip, ip ∈ s'.allocator.allocated ↔
    ip ∈ s.allocator.allocated ∧ (ip ∈ ips → s.Claimed ip)

theorem lifted_endQuarantine (ip : Ipv4) : Lifted [ip] s (s.endQuarantine ip) := by
  have hquarantined : ∀ i, ((s.declinedIps.erase ip).lookup i).isSome = true ↔
      s.Quarantined i ∧ i ∉ [ip] := by
    intro i
    rw [mem_singleton]
    by_cases heq : i = ip
    · rw [heq, lookup_erase]
      exact ⟨fun hsome => absurd hsome Bool.false_ne_true, fun hboth => absurd rfl hboth.2⟩
    · rw [lookup_erase_ne heq]
      exact ⟨fun hq => ⟨hq, heq⟩, And.left⟩
  unfold endQuarantine
  dsimp only
  split
  next hused =>
    refine ⟨rfl, rfl, hquarantined, fun i => ⟨fun hi => ⟨hi, fun hmem => ?_⟩, And.left⟩⟩
    rw [mem_singleton.mp hmem]
    exact (claimed_iff ip).mp hused
  rename_i hfree
  refine ⟨rfl, rfl, hquarantined, fun i => ?_⟩
  refine Finset.mem_erase.trans (and_comm.trans (and_congr_right fun _ => ?_))
  constructor
  · exact fun hne hmem => absurd (mem_singleton.mp hmem) hne
  · rintro hclaimed rfl
    exact hfree ((claimed_iff i).mpr (hclaimed (mem_singleton_self _)))

theorem Sound.lifted {ips : List Ipv4} (h : s.Sound) (hlift : Lifted ips s s') : s'.Sound := by
  have hlease : ∀ mac, s'.leaseIp mac = s.leaseIp mac := by
    intro mac
    unfold leaseIp
    rw [hlift.leases]
  have hholds : ∀ mac i, s'.Holds mac i ↔ s.Holds mac i := by
    intro mac i
    unfold Holds
    rw [hlease, hlift.reservations]
  have hshrink : ∀ mac, s'.book.held mac ⊆ s.book.held mac := fun mac i => (hholds mac i).mp
  refine ⟨(h.balanced.shrink_iff hshrink).mpr fun i => ?_, fun mac i hi hq => ?_⟩
  · change i ∈ s'.allocator.allocated ↔ (∃ mac, s'.Holds mac i) ∨ s'.Quarantined i
    rw [hlift.allocated, hlift.quarantined, exists_congr fun mac => hholds mac i]
    constructor
    · rintro ⟨halloc, hclaimed⟩
      by_cases hmem : i ∈ ips
      · exact .inl (hclaimed hmem)
      · exact ((h.balanced.accounted i).mp halloc).imp_right fun hq => ⟨hq, hmem⟩
    · rintro (hclaimed | ⟨hq, hmem⟩)
      · exact ⟨(h.balanced.accounted i).mpr (.inl hclaimed), fun _ => hclaimed⟩
      · exact ⟨h.balanced.allocated_of_parked hq, fun hin => absurd hin hmem⟩
  · rw [hlift.reservations]
    exact h.aside mac i ((hlease mac).symm.trans hi) ((hlift.quarantined i).mp hq).1

/-- A sound server with the reservations of `s` and none but its leases. -/
structure Trimmed (s s' : DhcpServer) : Prop where
  sound : s'.Sound
  reservations : s'.reservations = s.reservations
  leaseIp : ∀ mac ip, s'.leaseIp mac = some ip → s.leaseIp mac = some ip

/-- Cleanup gives back what only an expired lease or an ended quarantine kept. -/
theorem trimmed_cleanup (h : s.Sound) (now : Instant) : Trimmed s (s.cleanupExpiredLeases now) := by
  refine foldlRecOn _ endQuarantine ?_ fun s₂ h₂ ip _ => ?_
  · refine foldlRecOn _ expire ⟨h, rfl, fun _ _ hi => hi⟩ fun s₁ h₁ mac hmem => ?_
    have hexp := expired_expire (s := s₁) mac
    have hnone : s₁.reservations.lookup mac = none := by
      rw [h₁.reservations]
      exact mem_expired hmem
    refine ⟨h₁.sound.expired hexp hnone, hexp.reservations.trans h₁.reservations,
      fun mac' i hi => h₁.leaseIp mac' i ?_⟩
    rw [hexp.leaseIp] at hi
    split at hi
    · cases hi
    · exact hi
  have hlift := lifted_endQuarantine (s := s₂) ip
  refine ⟨h₂.sound.lifted hlift, hlift.reservations.trans h₂.reservations,
    fun mac i hi => h₂.leaseIp mac i ?_⟩
  unfold DhcpServer.leaseIp at hi ⊢
  rw [hlift.leases] at hi
  exact hi

/-! ## Packets -/

/-- The lease and the reservation of a client, when it has both, are on one address. -/
def Agrees (s : DhcpServer) (mac : Mac) : Prop :=
  ∀ l r, s.leaseIp mac = some l → s.reservations.lookup mac = some r → l = r

/-- Moving the rotation on changes nothing in the books. -/
theorem Sound.with_allocator (h : s.Sound) {allocator : IpAllocator}
    (halloc : allocator.allocated = s.allocator.allocated) :
    ({ s with allocator := allocator } : DhcpServer).Sound := by
  have hbook : ({ s with allocator := allocator } : DhcpServer).book = s.book := by
    unfold book
    rw [halloc]
    rfl
  exact ⟨hbook ▸ h.balanced, h.aside⟩

theorem sound_grant_fresh (h : s.Sound) (packet : DhcpPacket) (now : Instant)
    (hnone : s.leaseIp packet.clientMac = none) {allocator : IpAllocator}
    (hfree : ip ∉ s.allocator.allocated)
    (halloc : allocator.allocated = insert ip s.allocator.allocated) :
    (({ s with allocator := allocator } : DhcpServer).grant packet ip now).Sound := by
  refine sound_grant h packet now rfl rfl rfl (.inr ⟨hfree, halloc⟩) fun l hl => ?_
  cases hnone.symm.trans hl

/-- What an offer comes to: a lease for the client, or a pool that has nothing left. -/
def Offered (packet : DhcpPacket) (now : Instant) : Option Ipv4 × DhcpServer → Prop
  | (some ip, s) => (s.grant packet ip now).Sound
  | (none, s) => s.Sound

theorem offered_allocateNext (h : s.Sound) (packet : DhcpPacket) (now : Instant)
    (hnone : s.leaseIp packet.clientMac = none) : Offered packet now s.allocateNext := by
  unfold allocateNext
  cases hip : s.allocator.allocate.1 with
  | some ip =>
    obtain ⟨hfree, halloc⟩ := allocateLoop_some hip
    exact sound_grant_fresh h packet now hnone hfree halloc
  | none => exact h.with_allocator (allocateLoop_none hip)

theorem offered_chooseOffer (h : s.Sound) (packet : DhcpPacket) (now : Instant)
    (hagrees : s.Agrees packet.clientMac) : Offered packet now (s.chooseOffer packet) := by
  unfold chooseOffer
  cases hres : s.reservations.lookup packet.clientMac with
  | some reserved =>
    exact sound_grant h packet now rfl rfl rfl (.inl ⟨.inr hres, rfl⟩)
      fun l hl => hagrees l reserved hl hres
  | none =>
    cases hlookup : s.leases.lookup packet.clientMac with
    | some lease =>
      have hlease : s.leaseIp packet.clientMac = some lease.ip := leaseIp_of_lookup hlookup
      exact sound_grant h packet now rfl rfl rfl (.inl ⟨.inl hlease, rfl⟩)
        fun l hl => Option.some.inj (hl.symm.trans hlease)
    | none =>
      have hnone : s.leaseIp packet.clientMac = none := leaseIp_of_lookup_none hlookup
      cases packet.requestedIp with
      | none => exact offered_allocateNext h packet now hnone
      | some requested =>
        dsimp only
        split
        next hav =>
          rw [allocateSpecific_eq, if_pos hav]
          have hfree := ((s.allocator.isAvailable_iff requested).mp hav).2
          exact sound_grant_fresh h packet now hnone hfree rfl
        · exact offered_allocateNext h packet now hnone

theorem sound_discover (h : s.Sound) (packet : DhcpPacket) (now : Instant)
    (hagrees : s.Agrees packet.clientMac) : (s.handleDiscover packet now).2.Sound := by
  have htrim := trimmed_cleanup h now
  have hclean : (s.cleanupExpiredLeases now).Agrees packet.clientMac := by
    intro l r hl hr
    rw [htrim.reservations] at hr
    exact hagrees l r (htrim.leaseIp _ l hl) hr
  have hoffer := offered_chooseOffer htrim.sound packet now hclean
  unfold handleDiscover
  generalize (s.cleanupExpiredLeases now).chooseOffer packet = out at hoffer ⊢
  obtain ⟨_ | ip, s'⟩ := out
  · exact hoffer
  · exact hoffer

/-- What a validated request comes to. -/
def Validated (packet : DhcpPacket) (requested : Ipv4) (now : Instant) : Bool × DhcpServer → Prop
  | (true, s) => (s.grant packet requested now).Sound
  | (false, s) => s.Sound

theorem validated_validate (h : s.Sound) (packet : DhcpPacket) (requested : Ipv4)
    (now : Instant) : Validated packet requested now (s.validate packet.clientMac requested) := by
  unfold validate
  cases hlookup : s.leases.lookup packet.clientMac with
  | some lease =>
    have hlease : s.leaseIp packet.clientMac = some lease.ip := leaseIp_of_lookup hlookup
    dsimp only
    by_cases heq : lease.ip = requested
    · rw [heq] at hlease
      rw [decide_eq_true heq]
      exact sound_grant h packet now rfl rfl rfl (.inl ⟨.inl hlease, rfl⟩)
        fun l hl => Option.some.inj (hl.symm.trans hlease)
    · rw [decide_eq_false heq]
      exact h
  | none =>
    have hnone : s.leaseIp packet.clientMac = none := leaseIp_of_lookup_none hlookup
    cases hres : s.reservations.lookup packet.clientMac with
    | some reserved =>
      dsimp only
      by_cases heq : reserved = requested
      · rw [heq] at hres
        rw [decide_eq_true heq]
        refine sound_grant h packet now rfl rfl rfl (.inl ⟨.inr hres, rfl⟩) fun l hl => ?_
        cases hnone.symm.trans hl
      · rw [decide_eq_false heq]
        exact h
    | none =>
      rw [allocateSpecific_eq]
      by_cases hav : s.allocator.isAvailable requested = true
      · rw [if_pos hav]
        have hfree := ((s.allocator.isAvailable_iff requested).mp hav).2
        exact sound_grant_fresh h packet now hnone hfree rfl
      · rw [if_neg hav]
        exact h

theorem sound_request (h : s.Sound) (packet : DhcpPacket) (now : Instant) :
    (s.handleRequest packet now).2.Sound := by
  unfold handleRequest
  cases requestedAddress packet with
  | none => exact h
  | some requested =>
    have hvalid := validated_validate h packet requested now
    dsimp only
    generalize s.validate packet.clientMac requested = out at hvalid ⊢
    obtain ⟨_ | _, s'⟩ := out
    · exact hvalid
    · exact hvalid

end DhcpServer

/-! ## Every run -/

/-- The calls that keep the books: a reservation replaces one whose address stays leased
or quarantined, a removed reservation was the last use of its address, and a client that
has both a lease and a reservation has them on one address when it discovers or releases. -/
def DhcpCall.Orderly (s : DhcpServer) : DhcpCall → Prop
  | .reserveIp mac _ =>
    match s.reservations.lookup mac with
    | some old => s.leaseIp mac = some old ↔ ¬ s.Quarantined old
    | none => True
  | .removeReservation mac =>
    match s.reservations.lookup mac with
    | some ip => s.leaseIp mac ≠ some ip ∧ ¬ s.Quarantined ip
    | none => True
  | .handlePacket packet _ =>
    packet.messageType = some .discover ∨ packet.messageType = some .release →
      match s.leaseIp packet.clientMac, s.reservations.lookup packet.clientMac with
      | some l, some r => l = r
      | _, _ => True
  | .cleanupExpiredLeases _ => True

instance (s : DhcpServer) (c : DhcpCall) : Decidable (c.Orderly s) := by
  unfold DhcpCall.Orderly
  split
  · split <;> infer_instance
  · split <;> infer_instance
  · split <;> infer_instance
  · infer_instance

namespace DhcpServer

variable {s : DhcpServer}

theorem agrees_of_match
    (h : match s.leaseIp mac, s.reservations.lookup mac with | some l, some r => l = r | _, _ => True) :
    s.Agrees mac := by
  intro l r hl hr
  rw [hl, hr] at h
  exact h

theorem sound_handlePacket (h : s.Sound) (packet : DhcpPacket) (now : Instant)
    (hcall : (DhcpCall.handlePacket packet now).Orderly s) :
    (s.handlePacket packet now).2.Sound := by
  unfold handlePacket
  split
  · exact h
  split
  next htype =>
    exact sound_discover h packet now (agrees_of_match (hcall (.inl htype)))
  · exact sound_request h packet now
  next htype =>
    exact sound_release h packet (agrees_of_match (hcall (.inr htype)))
  · exact sound_decline h packet now
  · exact h

theorem sound_call (h : s.Sound) (c : DhcpCall) (hcall : c.Orderly s) : (s.call c).Sound := by
  cases c with
  | reserveIp mac ip =>
    unfold call reserveIp
    dsimp only
    by_cases hav : s.allocator.isAvailable ip = true
    · rw [if_pos hav, allocateSpecific_eq, if_pos hav]
      refine sound_reserve h hav fun old hold => ?_
      unfold DhcpCall.Orderly at hcall
      dsimp only at hcall
      rw [hold] at hcall
      exact hcall
    · rw [if_neg hav]
      exact h
  | removeReservation mac =>
    refine sound_removeReservation h fun ip hip => ?_
    unfold DhcpCall.Orderly at hcall
    dsimp only at hcall
    rw [hip] at hcall
    exact hcall
  | handlePacket packet now => exact sound_handlePacket h packet now hcall
  | cleanupExpiredLeases now => exact (trimmed_cleanup h now).sound

theorem sound_calls (h : s.Sound) (calls : List DhcpCall)
    (hcalls : History.Throughout call s (fun s c => c.Orderly s) calls) :
    (History.after call s calls).Sound :=
  History.keeps (fun _ c hs hc => sound_call hs c hc) h hcalls

end DhcpServer

/-- In every run of orderly calls from a new server, no two clients have an address and
the allocator's set is exactly what is leased, reserved or quarantined. -/
theorem leases_accounted {config : DhcpConfig} {server : DhcpServer}
    (hnew : DhcpServer.new config = some server) (calls : List DhcpCall)
    (hcalls : History.Throughout DhcpServer.call server (fun s c => c.Orderly s) calls) :
    (History.after DhcpServer.call server calls).Accounted :=
  (DhcpServer.sound_calls (DhcpServer.sound_new hnew) calls hcalls).accounted

/-! ## A removed reservation frees a leased address -/

/-- Packets of two clients, told apart by the first byte of their hardware address. -/
def packetFrom (first : BitVec 8) (messageType : DhcpMessageType) (requested : Option Ipv4) :
    DhcpPacket :=
  { op := 1
    chaddr := first ++ 0#120
    messageType := some messageType
    requestedIp := requested }

/-- A pool of two addresses, 10.0.0.2 and 10.0.0.3, with day-long leases. -/
def smallPool : DhcpConfig := ⟨0x0a000001#32, 86400 * 1000000000, 0x0a000002#32, 0x0a000003#32⟩

def smallServer : DhcpServer := ⟨smallPool, ⟨0x0a000002#32, 0x0a000003#32, ∅, 0x0a000002#32,
  by decide, by decide, by decide⟩, ∅, ∅, ∅⟩

/-- The first client discovers its reserved address, the reservation is removed, and the
second client asks for that address. -/
def sharedRun : List DhcpCall :=
  [.reserveIp (packetFrom 1#8 .discover none).clientMac 0x0a000002#32,
    .handlePacket (packetFrom 1#8 .discover none) 0,
    .removeReservation (packetFrom 1#8 .discover none).clientMac,
    .handlePacket (packetFrom 2#8 .discover (some 0x0a000002#32)) 0]

/-- Both clients now have an unexpired lease on one address. -/
theorem removed_reservation_collides :
    DhcpServer.new smallPool = some smallServer ∧
      ∃ l₁ l₂, (History.after DhcpServer.call smallServer sharedRun).leases.lookup
          (packetFrom 1#8 .discover none).clientMac = some l₁ ∧
        (History.after DhcpServer.call smallServer sharedRun).leases.lookup
          (packetFrom 2#8 .discover none).clientMac = some l₂ ∧
        l₁.mac ≠ l₂.mac ∧ l₁.ip = l₂.ip ∧ l₁.isExpired 0 = false ∧ l₂.isExpired 0 = false := by
  refine ⟨rfl, _, _, rfl, rfl, ?_⟩
  decide

/-- The same run with the lease released before its reservation is removed is orderly. -/
theorem leases_accounted_released :
    (History.after DhcpServer.call smallServer
      [.reserveIp (packetFrom 1#8 .discover none).clientMac 0x0a000002#32,
        .handlePacket (packetFrom 1#8 .discover none) 0,
        .handlePacket (packetFrom 1#8 .release none) 1,
        .removeReservation (packetFrom 1#8 .discover none).clientMac,
        .handlePacket (packetFrom 2#8 .discover (some 0x0a000002#32)) 2]).Accounted := by
  have hnew : DhcpServer.new smallPool = some smallServer := rfl
  refine leases_accounted hnew _ ?_
  decide

end Arcbox.Dhcp

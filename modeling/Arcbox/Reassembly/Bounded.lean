import Arcbox.Reassembly.Accepted

set_option autoImplicit false

/-!
# Reassembly: what a guest can make the host buffer

Fragments come from the guest, so every frame may be forged.  Whatever it sends, the table of
datagrams stays within its limits.
-/

namespace Arcbox.Reassembly

open Foundation List

/-- An entry within its limits. -/
structure Entry.Limited (e : Entry) : Prop where
  payload : e.payload.length ≤ maxReassembledPayload
  ranges : e.ranges.length ≤ maxRanges

theorem Entry.limited_new (now : Nat) : (Entry.new now).Limited :=
  ⟨Nat.zero_le _, Nat.zero_le _⟩

theorem Entry.Limited.accept {e e' : Entry} {f : Fragment} (h : e.Limited)
    (hstop : f.stop ≤ maxReassembledPayload) (haccept : e.accept f = some e') : e'.Limited := by
  obtain ⟨-, -, hplace⟩ := accept_eq_some_iff.mp haccept
  rcases place_eq_some_iff.mp hplace with ⟨-, hranges, rfl⟩ | ⟨-, -, -, rfl⟩
  · refine ⟨?_, hranges⟩
    rw [length_store, prepare_payload]
    exact Nat.max_le.mpr ⟨h.payload, hstop⟩
  · exact ⟨by rw [prepare_payload]; exact h.payload, by rw [prepare_ranges]; exact h.ranges⟩

namespace FragmentReassembler

variable {σ : Type} {r : FragmentReassembler σ} {f : Fragment} {now : Nat}

/-- The table is within its limits. -/
structure Limited (r : FragmentReassembler σ) : Prop where
  size : r.entries.keys.length ≤ maxEntries
  entry : ∀ k e, r.entries.lookup k = some e → e.Limited

theorem Limited.evictExpired (h : r.Limited) (now : Nat) : (r.evictExpired now).Limited := by
  refine ⟨?_, fun k e hk => ?_⟩
  · simp only [FragmentReassembler.evictExpired, Table.retain, AList.keys, List.keys, length_map]
    refine (length_filter_le _ _).trans ?_
    simpa only [AList.keys, List.keys, length_map] using h.size
  · rw [lookup_evictExpired, Option.filter_eq_some_iff] at hk
    exact h.entry k e hk.1

theorem Limited.remove (h : r.Limited) (k : Key) : (r.remove k).Limited := by
  refine ⟨?_, fun k' e hk => h.entry k' e (Table.of_lookup_erase hk).2⟩
  exact (Nat.le_of_add_right_le (Table.size_erase r.entries k).le).trans h.size

/-- A datagram is entered only where there is room or an entry for it. -/
theorem Limited.put (h : r.Limited) (hroom : r.isFullFor f.key = false) {e : Entry}
    (he : e.Limited) : (r.put f.key e).Limited := by
  refine ⟨?_, fun k e' hk => ?_⟩
  · have hsize := Table.size_insert r.entries f.key e
    have hmax := h.size
    simp only [isFullFor, decide_eq_false_iff_not, not_and, Nat.not_le] at hroom
    change (r.entries.insert f.key e).keys.length ≤ maxEntries
    cases hlook : r.entries.lookup f.key with
    | none =>
      have hlt := hroom (AList.lookup_eq_none.mp hlook)
      rw [hlook, Option.toList_none, length_nil] at hsize
      omega
    | some e' =>
      rw [hlook, Option.toList_some, length_singleton] at hsize
      omega
  · rcases Table.of_lookup_insert hk with ⟨rfl, rfl⟩ | ⟨-, hold⟩
    · exact he
    · exact h.entry k e' hold

theorem Limited.pushFragment (h : r.Limited) (f : Fragment) (now : Nat) :
    (r.pushFragment f now).1.Limited := by
  unfold FragmentReassembler.pushFragment
  split
  · exact h.remove _
  rename_i hstop
  split
  · exact h
  rename_i hfull
  have hentry : (r.entryOf f.key now).Limited := by
    unfold entryOf
    cases hlook : r.entries.lookup f.key with
    | none => exact Entry.limited_new now
    | some e => exact h.entry f.key e hlook
  split
  · exact h.remove _
  next e haccept =>
    split
    · exact h.remove _
    · exact h.put (Bool.eq_false_iff.mpr hfull) (hentry.accept (Nat.le_of_not_gt hstop) haccept)

theorem Limited.push (h : r.Limited) (ipv6Push : σ → Bytes → Nat → σ × Option Bytes)
    (frame : Bytes) (now : Nat) : (r.push ipv6Push frame now).1.Limited := by
  unfold FragmentReassembler.push
  split
  · exact ⟨h.size, h.entry⟩
  · split
    · exact h.evictExpired now
    · exact (h.evictExpired now).pushFragment _ now

/-- Whatever frames arrive and whenever, at most `MAX_ENTRIES` datagrams are kept, each with at
most `MAX_RANGES` ranges and `MAX_REASSEMBLED_PAYLOAD` bytes. -/
theorem reassembly_memory_bounded (ipv6Push : σ → Bytes → Nat → σ × Option Bytes) (ipv6 : σ)
    (pushes : List Push) : ((new ipv6).run ipv6Push pushes).Limited :=
  List.foldlRecOn _ _ ⟨Nat.zero_le _, nofun⟩ fun _ h p _ => h.push ipv6Push p.frame p.now

end FragmentReassembler

end Arcbox.Reassembly

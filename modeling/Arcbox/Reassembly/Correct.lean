import Mathlib.Data.List.Induction
import Arcbox.Reassembly.Datagram

set_option autoImplicit false

/-!
# Reassembly: the table of datagrams

Whole runs of the reassembler.  While the fragments of one datagram arrive among
those of others, its entry collects them and no other push touches it; the push
that supplies the last missing fragment returns the datagram.
-/

namespace Arcbox.Reassembly

open Foundation List FragmentReassembler
open Packet

/-- The frame is not for the datagram: an IPv6 frame, one that is dropped unread, or
a fragment under another key. -/
def Foreign (others : List Key) (frame : Bytes) : Prop :=
  isIpv6 frame = true ∨ Fragment.parse frame = none
    ∨ ∃ f, Fragment.parse frame = some f ∧ f.key ∈ others

variable {f : Fragment}

section Keys

variable {σ : Type} {r : FragmentReassembler σ} {others : List Key} {now : Nat}

/-- The keys in the table are among `keys`. -/
def KeysIn (r : FragmentReassembler σ) (keys : List Key) : Prop := ∀ k ∈ r.entries, k ∈ keys

theorem mem_entries_iff {k : Key} : k ∈ r.entries ↔ ∃ e, r.entries.lookup k = some e := by
  rw [← AList.lookup_isSome, Option.isSome_iff_exists]

theorem KeysIn.evictExpired {keys : List Key} (h : KeysIn r keys) :
    KeysIn (r.evictExpired now) keys := by
  intro k hk
  obtain ⟨e, he⟩ := mem_entries_iff.mp hk
  rw [lookup_evictExpired, Option.filter_eq_some_iff] at he
  exact h k (mem_entries_iff.mpr ⟨e, he.1⟩)

/-- A fragment adds at most its own key. -/
theorem KeysIn.pushFragment {keys : List Key} (h : KeysIn r keys) (hf : f.key ∈ keys) :
    KeysIn (r.pushFragment f now).1 keys := by
  intro k hk
  by_cases hkey : k = f.key
  · rw [hkey]
    exact hf
  · obtain ⟨e, he⟩ := mem_entries_iff.mp hk
    rw [lookup_pushFragment_of_ne _ _ _ hkey] at he
    exact h k (mem_entries_iff.mpr ⟨e, he⟩)

/-- With at most `MAX_ENTRIES - 1` other datagrams there is room for one more. -/
theorem KeysIn.not_full {key : Key} (h : KeysIn r (key :: others))
    (hcount : others.length ≤ maxEntries - 1) : r.isFullFor key = false := by
  rw [isFullFor, decide_eq_false_iff_not]
  rintro ⟨hmissing, hfull⟩
  have hsubset : r.entries.keys ⊆ others := by
    intro k hk
    have hk' : k ∈ r.entries := hk
    rcases mem_cons.mp (h k hk') with rfl | hk''
    · exact absurd hk' hmissing
    · exact hk''
  have hle : r.entries.keys.length ≤ others.length :=
    (subperm_of_subset r.entries.nodupKeys hsubset).length_le
  rw [maxEntries] at hcount hfull
  omega

end Keys

/-! ## One datagram among others -/

namespace Datagram

variable {d : Datagram} {others : List Key} {frame : Bytes} {i j : Nat}

/-- A frame carries one fragment only. -/
theorem Piece.index_unique (hi : d.Piece i f) (hj : d.Piece j f) : i = j :=
  eq_of_offset_eq hi.lt hj.lt (by rw [← hi.offset, hj.offset])

theorem IsFragment.index_unique (hi : d.IsFragment i frame) (hj : d.IsFragment j frame) :
    i = j := by
  obtain ⟨-, f, hparse, hf⟩ := hi.parse
  obtain ⟨-, g, hparse', hg⟩ := hj.parse
  rw [hparse, Option.some.injEq] at hparse'
  exact hf.index_unique (hparse' ▸ hg)

theorem IsFragment.lt (h : d.IsFragment i frame) : i < d.pieces.length := by
  obtain ⟨-, f, -, hf⟩ := h.parse
  exact hf.lt

theorem IsFragment.not_foreign (h : d.IsFragment i frame) (hkey : d.key ∉ others) :
    ¬Foreign others frame := by
  obtain ⟨hv4, f, hparse, hf⟩ := h.parse
  rintro (hv6 | hnone | ⟨g, hg, hmem⟩)
  · simp [hv4] at hv6
  · simp [hparse] at hnone
  · rw [hparse, Option.some.injEq] at hg
    rw [← hg, hf.key] at hmem
    exact hkey hmem

/-- After the pushes `seen` the table holds the fragments `accepted` of the datagram
under its key: an entry that collects them, or none if there are none. -/
structure Tracks {σ : Type} (d : Datagram) (others : List Key) (r : FragmentReassembler σ)
    (accepted : List Fragment) (seen : List Push) : Prop where
  keys : KeysIn r (d.key :: others)
  entry : (r.entries.lookup d.key = none ∧ accepted = [])
    ∨ ∃ e, r.entries.lookup d.key = some e ∧ d.Collects e accepted
      ∧ ∃ q ∈ seen, e.firstSeen = q.now
  supplied : ∀ i, (∃ f ∈ accepted, d.Piece i f) ↔ ∃ q ∈ seen, d.IsFragment i q.frame

section Step

variable {σ : Type} {ipv6Push : σ → Bytes → Nat → σ × Option Bytes}
  {r : FragmentReassembler σ} {accepted : List Fragment} {seen : List Push} {p : Push}

section

variable (h : d.Tracks others r accepted seen)

include h

/-- The datagram's entry is not evicted in time. -/
theorem Tracks.lookup_evictExpired (htime : ∀ q ∈ seen, p.now - q.now < reassemblyTimeout) :
    (r.evictExpired p.now).entries.lookup d.key = r.entries.lookup d.key := by
  rw [FragmentReassembler.lookup_evictExpired]
  rcases h.entry with ⟨hnone, -⟩ | ⟨e, hsome, -, q, hq, hseen⟩
  · rw [hnone]
    rfl
  · rw [hsome, Option.filter_some, if_pos]
    rw [decide_eq_true_eq, hseen]
    exact htime q hq

/-- A push for others leaves the datagram's entry. -/
theorem Tracks.foreign (hkey : d.key ∉ others)
    (htime : ∀ q ∈ seen, p.now - q.now < reassemblyTimeout) (hforeign : Foreign others p.frame) :
    d.Tracks others (r.push ipv6Push p.frame p.now).1 accepted (seen ++ [p]) := by
  have hlookup : (r.push ipv6Push p.frame p.now).1.entries.lookup d.key
      = r.entries.lookup d.key
      ∧ KeysIn (r.push ipv6Push p.frame p.now).1 (d.key :: others) := by
    rw [push]
    split
    · exact ⟨rfl, h.keys⟩
    rename_i hv4
    have hevict := h.lookup_evictExpired htime
    split
    · exact ⟨hevict, h.keys.evictExpired⟩
    rename_i f hparse
    obtain ⟨g, hg, hmem⟩ := (hforeign.resolve_left hv4).resolve_left (by simp [hparse])
    obtain rfl : f = g := by rw [hparse] at hg; exact Option.some.inj hg
    have hne : d.key ≠ f.key := fun heq => hkey (heq ▸ hmem)
    refine ⟨?_, h.keys.evictExpired.pushFragment (mem_cons_of_mem _ hmem)⟩
    rw [lookup_pushFragment_of_ne _ _ _ hne]
    exact hevict
  refine ⟨hlookup.2, ?_, fun i => ?_⟩
  · rw [hlookup.1]
    refine h.entry.imp id ?_
    rintro ⟨e, he, hcollects, q, hq, hseen⟩
    exact ⟨e, he, hcollects, q, mem_append_left _ hq, hseen⟩
  rw [h.supplied i]
  constructor
  · rintro ⟨q, hq, hfrag⟩
    exact ⟨q, mem_append_left _ hq, hfrag⟩
  rintro ⟨q, hq, hfrag⟩
  rcases mem_append.mp hq with hq | hq
  · exact ⟨q, hq, hfrag⟩
  · obtain rfl := mem_singleton.mp hq
    exact absurd hforeign (hfrag.not_foreign hkey)

theorem Tracks.keys_push (hfrag : d.IsFragment i p.frame) :
    KeysIn (r.push ipv6Push p.frame p.now).1 (d.key :: others) := by
  obtain ⟨hv4, f, hparse, hf⟩ := hfrag.parse
  rw [push_of_parse hv4 hparse]
  exact h.keys.evictExpired.pushFragment (by rw [hf.key]; exact mem_cons_self)

/-- A fragment of the datagram is taken into its entry. -/
theorem Tracks.offer (hcount : others.length ≤ maxEntries - 1)
    (htime : ∀ q ∈ seen, p.now - q.now < reassemblyTimeout) (hf : d.Piece i f) :
    ∃ e, (r.evictExpired p.now).offer f p.now = some e ∧ d.Collects e (accepted ++ [f])
      ∧ ∃ q ∈ seen ++ [p], e.firstSeen = q.now := by
  have hfull : (r.evictExpired p.now).isFullFor f.key = false := by
    rw [hf.key]
    exact h.keys.evictExpired.not_full hcount
  have hbound : f.stop ≤ maxReassembledPayload := by
    have hstop := hf.stop_le
    have hfits := d.fits
    have hmin := d.header.le_length
    rw [Header.ihl] at hfits
    rw [payload] at hstop
    rw [maxReassembledPayload]
    omega
  have hentry : d.Collects ((r.evictExpired p.now).entryOf f.key p.now) accepted
      ∧ ∃ q ∈ seen ++ [p], ((r.evictExpired p.now).entryOf f.key p.now).firstSeen = q.now := by
    rw [entryOf, hf.key, h.lookup_evictExpired htime]
    rcases h.entry with ⟨hnone, rfl⟩ | ⟨e, hsome, hcollects, q, hq, hseen⟩
    · rw [hnone]
      exact ⟨collects_new p.now, p, by simp, rfl⟩
    · rw [hsome]
      exact ⟨hcollects, q, mem_append_left _ hq, hseen⟩
  obtain ⟨hcollects, q, hq, hseen⟩ := hentry
  obtain ⟨e, he⟩ := hcollects.exists_accept hf
  refine ⟨e, ?_, hcollects.accept hf he, q, hq, ?_⟩
  · rw [FragmentReassembler.offer, if_pos ⟨hbound, hfull⟩, he]
  · rw [firstSeen_of_accept he, hseen]

theorem Tracks.supplied_append (hfrag : d.IsFragment i p.frame) (hf : d.Piece i f) (j : Nat) :
    (∃ g ∈ accepted ++ [f], d.Piece j g) ↔ ∃ q ∈ seen ++ [p], d.IsFragment j q.frame := by
  simp only [mem_append, mem_singleton, or_and_right, exists_or, exists_eq_left,
    h.supplied j]
  refine or_congr_right ⟨fun hj => ?_, fun hj => ?_⟩
  · rw [hj.index_unique hf]
    exact hfrag
  · rw [hj.index_unique hfrag]
    exact hf

theorem Tracks.pending (hcount : others.length ≤ maxEntries - 1)
    (htime : ∀ q ∈ seen, p.now - q.now < reassemblyTimeout) (hfrag : d.IsFragment i p.frame)
    (hmissing : ∃ j < d.pieces.length, ∀ q ∈ seen ++ [p], ¬d.IsFragment j q.frame) :
    r.returned ipv6Push p = none ∧ ∃ accepted',
      d.Tracks others (r.push ipv6Push p.frame p.now).1 accepted' (seen ++ [p]) := by
  obtain ⟨hv4, f, hparse, hf⟩ := hfrag.parse
  obtain ⟨e, hoffer, hcollects, hseen⟩ := h.offer hcount htime hf
  have hsupplied := h.supplied_append hfrag hf
  have hincomplete : ¬e.isComplete = true := by
    intro hcomplete
    obtain ⟨j, hj, hnot⟩ := hmissing
    obtain ⟨q, hq, hq'⟩ := (hsupplied j).mp (hcollects.supplied hcomplete j hj)
    exact hnot q hq hq'
  have hpush : r.push ipv6Push p.frame p.now = ((r.evictExpired p.now).put f.key e, none) := by
    rw [push_of_parse hv4 hparse,
      pushFragment_of_offer hoffer, if_neg hincomplete]
  have hkeys : KeysIn (r.push ipv6Push p.frame p.now).1 (d.key :: others) := h.keys_push hfrag
  rw [hpush] at hkeys
  rw [returned, hpush]
  refine ⟨rfl, accepted ++ [f], hkeys, .inr ⟨e, ?_, hcollects, hseen⟩, hsupplied⟩
  rw [← hf.key]
  exact lookup_put_self _ _ _

theorem Tracks.last (hcount : others.length ≤ maxEntries - 1)
    (htime : ∀ q ∈ seen, p.now - q.now < reassemblyTimeout) (hfrag : d.IsFragment i p.frame)
    (hall : ∀ j < d.pieces.length, ∃ q ∈ seen ++ [p], d.IsFragment j q.frame) :
    r.returned ipv6Push p = some d.whole
      ∧ d.Tracks others (r.push ipv6Push p.frame p.now).1 [] [] := by
  obtain ⟨hv4, f, hparse, hf⟩ := hfrag.parse
  obtain ⟨e, hoffer, hcollects, -⟩ := h.offer hcount htime hf
  have hcomplete : e.isComplete = true :=
    hcollects.isComplete fun j hj => (h.supplied_append hfrag hf j).mpr (hall j hj)
  have hpush : r.push ipv6Push p.frame p.now
      = ((r.evictExpired p.now).remove f.key, e.finish) := by
    rw [push_of_parse hv4 hparse,
      pushFragment_of_offer hoffer, if_pos hcomplete]
  have hkeys : KeysIn (r.push ipv6Push p.frame p.now).1 (d.key :: others) := h.keys_push hfrag
  rw [hpush] at hkeys
  rw [returned, hpush]
  refine ⟨hcollects.finish hcomplete, hkeys, .inl ⟨?_, rfl⟩, by simp⟩
  rw [← hf.key]
  exact lookup_remove_self _ _

end

end Step

/-! ## Whole runs -/

/-- Pushes of fragments of the datagram among those of at most `MAX_ENTRIES - 1`
others, all within `REASSEMBLY_TIMEOUT`, to a table that has none of its fragments
yet. -/
structure Delivery {σ : Type} (d : Datagram) (others : List Key) (r : FragmentReassembler σ)
    (pushes : List Push) : Prop where
  count : others.length ≤ maxEntries - 1
  key : d.key ∉ others
  start : r.entries.lookup d.key = none
  keys : KeysIn r others
  frames : ∀ p ∈ pushes, (∃ i, d.IsFragment i p.frame) ∨ Foreign others p.frame
  times : ∀ p ∈ pushes, ∀ q ∈ pushes, q.now - p.now < reassemblyTimeout

/-- The push `p` supplies the fragment that was missing last. -/
structure LastMissing (d : Datagram) (before : List Push) (p : Push) : Prop where
  missing : ∃ i, d.IsFragment i p.frame ∧ ∀ q ∈ before, ¬d.IsFragment i q.frame
  all : ∀ i < d.pieces.length, ∃ q ∈ before ++ [p], d.IsFragment i q.frame

section Run

variable {σ : Type} {ipv6Push : σ → Bytes → Nat → σ × Option Bytes}
  {r : FragmentReassembler σ} {pushes : List Push}

theorem Delivery.of_append {post : List Push} (h : d.Delivery others r (pushes ++ post)) :
    d.Delivery others r pushes where
  __ := h
  frames := (forall_mem_append.mp h.frames).1
  times := fun p hp q hq => h.times p (mem_append_left _ hp) q (mem_append_left _ hq)

theorem Delivery.tracks_start (h : d.Delivery others r pushes) : d.Tracks others r [] [] where
  keys := fun k hk => mem_cons_of_mem _ (h.keys k hk)
  entry := Or.inl ⟨h.start, rfl⟩
  supplied := by simp

/-- As long as a fragment is missing the entry collects the others. -/
theorem Delivery.tracks (h : d.Delivery others r pushes)
    (hmissing : ∃ j < d.pieces.length, ∀ q ∈ pushes, ¬d.IsFragment j q.frame) :
    ∃ accepted, d.Tracks others (r.run ipv6Push pushes) accepted pushes := by
  induction pushes using List.reverseRecOn with
  | nil => exact ⟨[], h.tracks_start⟩
  | append_singleton pushes p ih =>
    obtain ⟨j, hj, hnot⟩ := hmissing
    obtain ⟨accepted, htracks⟩ :=
      ih h.of_append ⟨j, hj, (forall_mem_append.mp hnot).1⟩
    have htime : ∀ q ∈ pushes, p.now - q.now < reassemblyTimeout :=
      fun q hq => h.times q (mem_append_left _ hq) p (by simp)
    rw [run_append]
    rcases h.frames p (by simp) with ⟨i, hi⟩ | hforeign
    · exact (htracks.pending h.count htime hi ⟨j, hj, hnot⟩).2
    · exact ⟨accepted, htracks.foreign h.key htime hforeign⟩

variable {before : List Push}
variable {after : List Push} {p : Push}

theorem Delivery.returned_none {q : Push} {i : Nat} (h : d.Delivery others r (before ++ q :: after))
    (hq : d.IsFragment i q.frame)
    (hmissing : ∃ j < d.pieces.length, ∀ p ∈ before ++ q :: after, ¬d.IsFragment j p.frame) :
    (r.run ipv6Push before).returned ipv6Push q = none := by
  obtain ⟨j, hj, hnot⟩ := hmissing
  obtain ⟨accepted, htracks⟩ : ∃ accepted,
      d.Tracks others (r.run ipv6Push before) accepted before :=
    h.of_append.tracks ⟨j, hj, (forall_mem_append.mp hnot).1⟩
  obtain ⟨hbefore, hafter⟩ := forall_mem_append.mp hnot
  refine (htracks.pending h.count (fun p hp => ?_) hq ⟨j, hj, ?_⟩).1
  · exact h.times p (mem_append_left _ hp) q (by simp)
  · exact forall_mem_append.mpr
      ⟨hbefore, forall_mem_singleton.mpr (hafter q mem_cons_self)⟩

theorem Delivery.returned_whole (h : d.Delivery others r (before ++ p :: after))
    (hlast : d.LastMissing before p) :
    (r.run ipv6Push before).returned ipv6Push p = some d.whole
      ∧ d.Tracks others (r.run ipv6Push (before ++ [p])) [] [] := by
  obtain ⟨i, hi, hnot⟩ := hlast.missing
  obtain ⟨accepted, htracks⟩ : ∃ accepted,
      d.Tracks others (r.run ipv6Push before) accepted before :=
    h.of_append.tracks ⟨i, hi.lt, hnot⟩
  rw [run_append]
  refine htracks.last h.count (fun q hq => ?_) hi hlast.all
  exact h.times q (mem_append_left _ hq) p (by simp)

theorem exists_lastMissing
    (hall : ∀ i < d.pieces.length, ∃ p ∈ pushes, d.IsFragment i p.frame) :
    ∃ before p after, pushes = before ++ p :: after ∧ d.LastMissing before p := by
  induction pushes using List.reverseRecOn with
  | nil =>
    obtain ⟨p, hp, -⟩ := hall 0 (length_pos_iff.mpr d.nonempty)
    simp at hp
  | append_singleton pushes p ih =>
    by_cases hbefore : ∀ i < d.pieces.length, ∃ q ∈ pushes, d.IsFragment i q.frame
    · obtain ⟨before, q, after, rfl, hlast⟩ := ih hbefore
      exact ⟨before, q, after ++ [p], by simp, hlast⟩
    push Not at hbefore
    obtain ⟨i, hi, hnot⟩ := hbefore
    refine ⟨pushes, p, [], rfl, ⟨i, ?_, hnot⟩, hall⟩
    obtain ⟨q, hq, hqi⟩ := hall i hi
    rcases mem_append.mp hq with hq | hq
    · exact absurd hqi (hnot q hq)
    · rw [← mem_singleton.mp hq]
      exact hqi

/-- What becomes of a delivery at the push `p` of the last missing fragment: `push`
returns the datagram there and for no earlier fragment of it, and afterwards the
table is ready for another delivery. -/
structure Delivered (d : Datagram) (others : List Key) (r : FragmentReassembler σ)
    (ipv6Push : σ → Bytes → Nat → σ × Option Bytes) (before : List Push) (p : Push) : Prop where
  returned : (r.run ipv6Push before).returned ipv6Push p = some d.whole
  silent : ∀ before' q after' i, before = before' ++ q :: after' → d.IsFragment i q.frame →
    (r.run ipv6Push before').returned ipv6Push q = none
  freed : (r.run ipv6Push (before ++ [p])).entries.lookup d.key = none
  keys : KeysIn (r.run ipv6Push (before ++ [p])) others

theorem Delivery.delivered (h : d.Delivery others r (before ++ p :: after))
    (hlast : d.LastMissing before p) : d.Delivered others r ipv6Push before p := by
  obtain ⟨hreturned, htracks⟩ := h.returned_whole hlast
  have hfreed : (r.run ipv6Push (before ++ [p])).entries.lookup d.key = none := by
    rcases htracks.entry with ⟨hnone, -⟩ | ⟨_, _, _, _, hmem, _⟩
    · exact hnone
    · simp at hmem
  refine ⟨hreturned, ?_, hfreed, fun k hk => ?_⟩
  · rintro before' q after' i rfl hq
    obtain ⟨j, hj, hnot⟩ := hlast.missing
    exact h.of_append.returned_none hq ⟨j, hj.lt, hnot⟩
  refine (mem_cons.mp (htracks.keys k hk)).resolve_left ?_
  rintro rfl
  obtain ⟨e, he⟩ := mem_entries_iff.mp hk
  simp [hfreed] at he

/-- If only fragments of the datagram are pushed, the last missing one last, that push
alone returns something. -/
theorem Delivered.outputs (h : d.Delivered others r ipv6Push before p)
    (hours : ∀ q ∈ before, ∃ i, d.IsFragment i q.frame) :
    r.outputs ipv6Push (before ++ [p]) = List.replicate before.length none ++ [some d.whole] := by
  have hsilent : ∀ pushes, pushes <+: before →
      r.outputs ipv6Push pushes = List.replicate pushes.length none := by
    intro pushes
    induction pushes using List.reverseRecOn with
    | nil => exact fun _ => rfl
    | append_singleton pushes q ih =>
      rintro ⟨after, hafter⟩
      rw [append_assoc] at hafter
      obtain ⟨i, hi⟩ := hours q (by rw [← hafter]; simp)
      rw [outputs_append_singleton, ih ⟨_, hafter⟩,
        h.silent pushes q after i hafter.symm hi, length_append, length_singleton,
        replicate_succ']
  rw [outputs_append_singleton, hsilent before (prefix_rfl), h.returned]

end Run

end Datagram

/-- Reassembly is correct.  A datagram whose fragments all arrive, in any order, with
repeats and among those of others, is returned whole by the push that supplies the
last missing fragment.  And whatever is pushed, a returned frame has at each position
the byte that every fragment accepted into its entry carries there, and no accepted
fragment is ever overwritten. -/
theorem reassembly_correct {σ : Type} (ipv6Push : σ → Bytes → Nat → σ × Option Bytes) :
    (∀ (d : Datagram) (others : List Key) (r : FragmentReassembler σ) (pushes : List Push),
      d.Delivery others r pushes →
      (∀ i < d.pieces.length, ∃ p ∈ pushes, d.IsFragment i p.frame) →
      d.Reassembles d.whole
      ∧ (∃ before p after, pushes = before ++ p :: after ∧ d.LastMissing before p)
      ∧ ∀ before p after, pushes = before ++ p :: after → d.LastMissing before p →
          d.Delivered others r ipv6Push before p)
    ∧ ∀ (ipv6 : σ) (pushes : List Push),
      (∀ p out, isIpv6 p.frame = false →
        ((FragmentReassembler.new ipv6).run ipv6Push pushes).returned ipv6Push p = some out →
        ∃ f, Fragment.parse p.frame = some f
          ∧ f ∈ Logged.acceptedSince ipv6Push ipv6 (pushes ++ [p]) f.key
          ∧ Agrees out (Logged.acceptedSince ipv6Push ipv6 (pushes ++ [p]) f.key))
      ∧ ∀ k e, ((FragmentReassembler.new ipv6).run ipv6Push pushes).entries.lookup k = some e →
          ∀ f ∈ Logged.acceptedSince ipv6Push ipv6 pushes k, e.stored f = f.data := by
  refine ⟨fun d others r pushes hdelivery hall => ⟨d.whole_reassembles,
    Datagram.exists_lastMissing hall, ?_⟩, fun ipv6 pushes => ⟨?_, ?_⟩⟩
  · rintro before p after rfl hlast
    exact hdelivery.delivered hlast
  · intro p out hv4 hout
    have hsound := (Logged.sound_new ipv6).run ipv6Push pushes
    rw [← Logged.run_new_reassembler] at hout
    simp only [Logged.acceptedSince, Logged.run_append_singleton]
    exact hsound.output hv4 hout
  intro k e hlookup f hf
  have hsound := (Logged.sound_new ipv6).run ipv6Push pushes
  rw [← Logged.run_new_reassembler] at hlookup
  exact (hsound k e hlookup).bytes f hf

/-! ### Two fragments, the second first -/

/-- Headers of a fragment from `10.0.2.2` to `10.0.2.1`. -/
def twoPiecesHeader (total flags offset : UInt8) : Bytes :=
  [2, 2, 2, 2, 2, 2, 1, 1, 1, 1, 1, 1, 8, 0] ++ [0x45, 0, 0, total, 0, 1, flags, offset, 64, 17,
    0, 0, 10, 0, 2, 2, 10, 0, 2, 1]

def twoPiecesFirst : Header := ⟨twoPiecesHeader 28 0x20 0, by decide, by decide⟩

def twoPiecesSecond : Header := ⟨twoPiecesHeader 21 0 1, by decide, by decide⟩

/-- Nine bytes cut after the eighth. -/
def twoPieces : Datagram where
  header := twoPiecesFirst
  pieces := [[1, 2, 3, 4, 5, 6, 7, 8], [9]]
  nonempty := by decide
  count := by decide
  aligned := by decide
  fits := by decide

/-- The push of the second fragment, padded. -/
def pushSecond : Push := ⟨twoPiecesSecond.bytes ++ [9] ++ [0, 0], 5⟩

/-- The push of the first fragment, a nanosecond later. -/
def pushFirst : Push := ⟨twoPiecesFirst.bytes ++ [1, 2, 3, 4, 5, 6, 7, 8] ++ [], 6⟩

/-- An IPv6 reassembler that returns nothing. -/
def noIpv6 : Unit → Bytes → Nat → Unit × Option Bytes := fun _ _ _ => ((), none)

theorem isFragment_pushSecond : twoPieces.IsFragment 1 pushSecond.frame :=
  ⟨twoPiecesSecond, [9], [0, 0], rfl,
    ⟨by decide, by decide, by decide, by decide, by decide, by decide⟩, rfl⟩

theorem isFragment_pushFirst : twoPieces.IsFragment 0 pushFirst.frame :=
  ⟨twoPiecesFirst, [1, 2, 3, 4, 5, 6, 7, 8], [], rfl,
    ⟨by decide, by decide, by decide, by decide, by decide, fun _ => rfl⟩, rfl⟩

theorem twoPieces_delivery :
    twoPieces.Delivery [] (new ()) [pushSecond, pushFirst] where
  count := by decide
  key := by decide
  start := rfl
  keys := fun k hk => absurd hk (AList.notMem_empty k)
  frames := by
    intro p hp
    rcases mem_pair.mp hp with rfl | rfl
    · exact .inl ⟨1, isFragment_pushSecond⟩
    · exact .inl ⟨0, isFragment_pushFirst⟩
  times := by decide

theorem twoPieces_supplied (i : Nat) (hi : i < twoPieces.pieces.length) :
    ∃ p ∈ [pushSecond, pushFirst], twoPieces.IsFragment i p.frame := by
  match i with
  | 0 => exact ⟨pushFirst, by simp, isFragment_pushFirst⟩
  | 1 => exact ⟨pushSecond, by simp, isFragment_pushSecond⟩
  | _ + 2 => exact absurd hi (by simp [twoPieces])

theorem twoPieces_lastMissing : twoPieces.LastMissing [pushSecond] pushFirst where
  missing := by
    refine ⟨0, isFragment_pushFirst, fun q hq hfrag => ?_⟩
    obtain rfl := mem_singleton.mp hq
    exact absurd (hfrag.index_unique isFragment_pushSecond) (by decide)
  all := twoPieces_supplied

theorem reassembly_correct_two_pieces :
    twoPieces.Delivered [] (FragmentReassembler.new ()) noIpv6 [pushSecond] pushFirst
    ∧ ∃ f, Fragment.parse pushFirst.frame = some f
      ∧ Agrees twoPieces.whole (Logged.acceptedSince noIpv6 () [pushSecond, pushFirst] f.key) := by
  have hdelivered : twoPieces.Delivered [] (new ()) noIpv6 [pushSecond]
      pushFirst :=
    ((reassembly_correct noIpv6).1 twoPieces [] (new ())
      [pushSecond, pushFirst] twoPieces_delivery twoPieces_supplied).2.2 [pushSecond] pushFirst []
      rfl twoPieces_lastMissing
  obtain ⟨f, hparse, -, hagrees⟩ := ((reassembly_correct noIpv6).2 () [pushSecond]).1 pushFirst
    twoPieces.whole isFragment_pushFirst.parse.1 hdelivered.returned
  exact ⟨hdelivered, f, hparse, hagrees⟩

end Arcbox.Reassembly

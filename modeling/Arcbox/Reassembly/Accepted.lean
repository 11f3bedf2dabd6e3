import Arcbox.Reassembly.Ipv4

set_option autoImplicit false

/-!
# Reassembly: what an entry has taken in

The reassembler against a log of the fragments it has taken into each entry since
the entry was created.  Whatever is pushed, an entry holds at every position the
byte that each logged fragment carries there, and nothing that no logged fragment
carries.
-/

namespace Arcbox.Reassembly

open Foundation List FragmentReassembler Entry
open Foundation.Ranges
open Packet

/-- The fragment carries a byte for position `i`. -/
def Fragment.Carries (f : Fragment) (i : Nat) : Prop := f.offset ≤ i ∧ i < f.stop

theorem Fragment.offset_le_stop (f : Fragment) : f.offset ≤ f.stop := Nat.le_add_right _ _

/-- The entry is the record of the fragments `accepted`. -/
structure Records (e : Entry) (accepted : List Fragment) : Prop where
  separated : Separated e.ranges
  within : ∀ r ∈ e.ranges, r.2 ≤ e.payload.length
  inside : ∀ f ∈ accepted, ∃ r ∈ e.ranges, f.Inside r
  bytes : ∀ f ∈ accepted, e.stored f = f.data
  origin : ∀ r ∈ e.ranges, ∀ i, r.1 ≤ i → i < r.2 → ∃ f ∈ accepted, f.Carries i
  header_origin : ∀ h, e.header = some h → ∃ f ∈ accepted, f.offset = 0 ∧ f.header = h
  header_some : ∀ f ∈ accepted, f.offset = 0 → e.header ≠ none
  total_origin : ∀ total, e.totalLen = some total → ∃ f ∈ accepted, f.more = false
  total_some : ∀ f ∈ accepted, f.more = false → e.totalLen = some f.stop

/-- A new entry is the record of nothing. -/
theorem records_new (now : Nat) : Records (new now) [] where
  separated := ⟨List.Pairwise.nil, by simp [Entry.new]⟩
  within := by simp [Entry.new]
  inside := by simp
  bytes := by simp
  origin := by simp [Entry.new]
  header_origin := by simp [Entry.new]
  header_some := by simp
  total_origin := by simp [Entry.new]
  total_some := by simp

/-! ## One fragment -/

section Accept

variable {e e' : Entry} {f : Fragment} {accepted : List Fragment}

theorem stored_eq_of_payload_eq {g : Fragment} (h : e'.payload = e.payload) :
    e'.stored g = e.stored g := by
  rw [stored, stored, h]

section

variable (h : Records e accepted)

include h

/-- Taking the fragment's total length and header in keeps the record of the
others. -/
theorem Records.prepare_header_origin (header : Header)
    (hheader : (e.prepare f).header = some header) :
    ∃ g ∈ accepted ++ [f], g.offset = 0 ∧ g.header = header := by
  rw [prepare_header] at hheader
  split at hheader
  next hfirst =>
    exact ⟨f, by simp, hfirst.1, Option.some.inj hheader⟩
  · obtain ⟨g, hg, horigin⟩ := h.header_origin header hheader
    exact ⟨g, mem_append_left _ hg, horigin⟩

theorem Records.prepare_header_some :
    ∀ g ∈ accepted ++ [f], g.offset = 0 → (e.prepare f).header ≠ none := by
  intro g hg hoffset
  rw [prepare_header]
  split
  · simp
  rename_i hkeep
  rcases mem_append.mp hg with hg | hg
  · exact h.header_some g hg hoffset
  · obtain rfl := mem_singleton.mp hg
    exact fun hnone => hkeep ⟨hoffset, hnone⟩

theorem Records.prepare_total_origin (total : Nat) (htotal : (e.prepare f).totalLen = some total) :
    ∃ g ∈ accepted ++ [f], g.more = false := by
  rw [prepare_totalLen] at htotal
  split at htotal
  · obtain ⟨g, hg, hfinal⟩ := h.total_origin total htotal
    exact ⟨g, mem_append_left _ hg, hfinal⟩
  next hfinal =>
    exact ⟨f, by simp, by simpa using hfinal⟩

theorem Records.prepare_total_some
    (hagrees : f.more = false → e.totalLen = none ∨ e.totalLen = some f.stop) :
    ∀ g ∈ accepted ++ [f], g.more = false → (e.prepare f).totalLen = some g.stop := by
  intro g hg hfinal
  rw [prepare_totalLen]
  rcases mem_append.mp hg with hg | hg
  · have hsome := h.total_some g hg hfinal
    split
    · exact hsome
    rename_i hf
    rcases hagrees (by simpa using hf) with hnone | hstop
    · simp [hsome] at hnone
    · rw [← hstop, hsome]
  · obtain rfl := mem_singleton.mp hg
    rw [if_neg (by simp [hfinal])]

theorem Records.repeat (hin : ∃ r ∈ e.ranges, f.Inside r) (hbytes : e.stored f = f.data)
    (hagrees : f.more = false → e.totalLen = none ∨ e.totalLen = some f.stop) :
    Records (e.prepare f) (accepted ++ [f]) where
  separated := by rw [prepare_ranges]; exact h.separated
  within := by rw [prepare_ranges, prepare_payload]; exact h.within
  inside := by
    rw [prepare_ranges]
    exact forall_mem_append.mpr ⟨h.inside, forall_mem_singleton.mpr hin⟩
  bytes := by
    simp only [stored_eq_of_payload_eq prepare_payload]
    exact forall_mem_append.mpr ⟨h.bytes, forall_mem_singleton.mpr hbytes⟩
  origin := by
    rw [prepare_ranges]
    intro r hr i hlo hhi
    obtain ⟨g, hg, hcarries⟩ := h.origin r hr i hlo hhi
    exact ⟨g, mem_append_left _ hg, hcarries⟩
  header_origin := h.prepare_header_origin
  header_some := h.prepare_header_some
  total_origin := h.prepare_total_origin
  total_some := h.prepare_total_some hagrees

end

theorem le_length_grown : f.offset + f.data.length
    ≤ (e.payload ++ List.replicate (f.stop - e.payload.length) (0 : UInt8)).length := by
  rw [length_append, length_replicate, Fragment.stop]
  omega

theorem length_store : (e.store f).payload.length = max e.payload.length f.stop := by
  rw [store, length_overwrite le_length_grown, length_append, length_replicate]
  omega

/-- The copied fragment can be read back. -/
theorem stored_store_self : (e.store f).stored f = f.data := by
  rw [stored, store, Fragment.stop]
  exact slice_overwrite le_length_grown

theorem store_prepare_payload : ((e.prepare f).store f).payload = (e.store f).payload := by
  rw [store, store, prepare_payload]

theorem getElem?_store {i : Nat} (hi : i < e.payload.length) (hout : ¬f.Carries i) :
    (e.store f).payload[i]? = e.payload[i]? := by
  rw [store, getElem?_overwrite_of_outside le_length_grown, List.getElem?_append_left hi]
  rw [Fragment.Carries, Fragment.stop] at hout
  omega

theorem Records.stored_store (h : Records e accepted) (hfree : ∀ r ∈ e.ranges, ¬f.Meets r)
    {g : Fragment} (hg : g ∈ accepted) : (e.store f).stored g = e.stored g := by
  obtain ⟨r, hr, hlo, hhi⟩ := h.inside g hg
  refine slice_congr fun i hi₁ hi₂ => getElem?_store ?_ fun hcarries => hfree r hr ?_
  · exact (hi₂.trans_le hhi).trans_le (h.within r hr)
  · exact ⟨by have := hcarries.1; omega, by have := hcarries.2; omega⟩

/-- A fragment for free positions joins the record. -/
theorem Records.store (h : Records e accepted) (hfree : ∀ r ∈ e.ranges, ¬f.Meets r)
    (hagrees : f.more = false → e.totalLen = none ∨ e.totalLen = some f.stop) :
    Records ((e.prepare f).store f) (accepted ++ [f]) where
  separated := by
    show Separated (Ranges.insert (e.prepare f).ranges f.offset f.stop)
    rw [prepare_ranges]
    exact h.separated.insert f.offset_le_stop
  within := by
    show ∀ r ∈ Ranges.insert (e.prepare f).ranges f.offset f.stop, _
    rw [length_store, prepare_ranges, prepare_payload]
    refine h.separated.forall_mem_insert (joinClosed_stop_le _) ?_ (Nat.le_max_right _ _)
    exact fun r hr => (h.within r hr).trans (Nat.le_max_left _ _)
  inside := by
    show ∀ g ∈ accepted ++ [f], ∃ r ∈ Ranges.insert (e.prepare f).ranges f.offset f.stop, _
    rw [prepare_ranges]
    refine forall_mem_append.mpr ⟨fun g hg => ?_,
      forall_mem_singleton.mpr (h.separated.exists_mem_insert (.inl rfl))⟩
    obtain ⟨r, hr, hlo, hhi⟩ := h.inside g hg
    obtain ⟨x, hx, hxlo, hxhi⟩ := h.separated.exists_mem_insert (.inr hr)
    exact ⟨x, hx, hxlo.trans hlo, hhi.trans hxhi⟩
  bytes := by
    simp only [stored_eq_of_payload_eq store_prepare_payload]
    refine forall_mem_append.mpr ⟨fun g hg => ?_, forall_mem_singleton.mpr stored_store_self⟩
    rw [h.stored_store hfree hg]
    exact h.bytes g hg
  origin := by
    show ∀ r ∈ Ranges.insert (e.prepare f).ranges f.offset f.stop, _
    rw [prepare_ranges]
    refine h.separated.forall_mem_insert (joinClosed_covered _) ?_ ?_
    · intro r hr i hlo hhi
      obtain ⟨g, hg, hcarries⟩ := h.origin r hr i hlo hhi
      exact ⟨g, mem_append_left _ hg, hcarries⟩
    · exact fun i hlo hhi => ⟨f, by simp, hlo, hhi⟩
  header_origin := h.prepare_header_origin
  header_some := h.prepare_header_some
  total_origin := h.prepare_total_origin
  total_some := h.prepare_total_some hagrees

theorem Records.accept (h : Records e accepted) (haccept : e.accept f = some e') :
    Records e' (accepted ++ [f]) := by
  obtain ⟨hagrees, -, hplace⟩ := accept_eq_some_iff.mp haccept
  rcases place_eq_some_iff.mp hplace with ⟨hfree, -, rfl⟩ | ⟨⟨r, hr, hmeets⟩, hall, hbytes, rfl⟩
  · exact h.store (by rwa [prepare_ranges] at hfree) hagrees
  · rw [prepare_ranges] at hr hall
    rw [stored_eq_of_payload_eq prepare_payload] at hbytes
    exact h.repeat ⟨r, hr, hall r hr hmeets⟩ hbytes hagrees

end Accept

/-- The frame carries every byte of every fragment, and no byte of its own. -/
structure Agrees (out : Bytes) (accepted : List Fragment) : Prop where
  carried : ∀ f ∈ accepted, ∀ i, f.Carries i → (ipPayload out)[i]? = f.data[i - f.offset]?
  within : ∀ f ∈ accepted, f.stop ≤ (ipPayload out).length
  origin : ∀ i, i < (ipPayload out).length → ∃ f ∈ accepted, f.Carries i

theorem getElem?_of_stored {e : Entry} {f : Fragment} (h : e.stored f = f.data) {i : Nat}
    (hi : f.Carries i) : e.payload[i]? = f.data[i - f.offset]? := by
  rw [← h, stored, List.getElem?_drop, List.getElem?_take_of_lt (by have := hi.1; have := hi.2; omega)]
  congr 1
  have := hi.1
  omega

theorem Records.finish {e : Entry} {accepted : List Fragment} {out : Bytes}
    (h : Records e accepted) (hcomplete : e.isComplete = true) (hout : e.finish = some out) :
    Agrees out accepted := by
  obtain ⟨header, total, hheader, htotal, hranges⟩ := isComplete_iff.mp hcomplete
  have hrebuilt : out = rebuildFrame header e.payload total := by
    rw [Entry.finish, hheader, htotal] at hout
    dsimp only at hout
    split at hout
    · simp at hout
    · exact (Option.some.inj hout).symm
  have hpayload : ipPayload out = e.payload.take total := by
    rw [hrebuilt, ipPayload_rebuildFrame]
  have hwhole : (0, total) ∈ e.ranges := by rw [hranges]; exact mem_singleton_self _
  have hlength : (ipPayload out).length = total := by
    rw [hpayload, length_take, Nat.min_eq_left (h.within _ hwhole)]
  have hstop : ∀ f ∈ accepted, f.stop ≤ total := by
    intro f hf
    obtain ⟨r, hr, -, hhi⟩ := h.inside f hf
    rw [hranges] at hr
    obtain rfl := mem_singleton.mp hr
    exact hhi
  refine ⟨fun f hf i hi => ?_, fun f hf => ?_, fun i hi => ?_⟩
  · rw [hpayload, List.getElem?_take_of_lt (hi.2.trans_le (hstop f hf))]
    exact getElem?_of_stored (h.bytes f hf) hi
  · rw [hlength]
    exact hstop f hf
  · exact h.origin _ hwhole i (Nat.zero_le i) (by omega)

/-! ## Any sequence of pushes -/

/-- A frame handed to the reassembler and the instant it is. -/
structure Push where
  frame : Bytes
  now : Nat
  deriving Repr

namespace FragmentReassembler

variable {σ : Type}

section Run

variable (ipv6Push : σ → Bytes → Nat → σ × Option Bytes)

variable (r : FragmentReassembler σ) (pushes : List Push)

/-- The reassembler after a sequence of pushes. -/
def run : FragmentReassembler σ := pushes.foldl (fun r p => (r.push ipv6Push p.frame p.now).1) r

theorem run_append (pushes' : List Push) :
    r.run ipv6Push (pushes ++ pushes') = (r.run ipv6Push pushes).run ipv6Push pushes' :=
  foldl_append

/-- What the next push returns. -/
def returned (p : Push) : Option Bytes := (r.push ipv6Push p.frame p.now).2

def outputs (r : FragmentReassembler σ) : List Push → List (Option Bytes)
  | [] => []
  | p :: rest => r.returned ipv6Push p :: outputs (r.push ipv6Push p.frame p.now).1 rest

theorem outputs_append_singleton (p : Push) : r.outputs ipv6Push (pushes ++ [p])
      = r.outputs ipv6Push pushes ++ [(r.run ipv6Push pushes).returned ipv6Push p] := by
  induction pushes generalizing r with
  | nil => rfl
  | cons q rest ih => exact congrArg (List.cons _) (ih _)

end Run

def acceptedBy (r : FragmentReassembler σ) (p : Push) : Option Fragment :=
  if isIpv6 p.frame then none
  else (Fragment.parse p.frame).filter fun f => ((r.evictExpired p.now).offer f p.now).isSome

end FragmentReassembler

structure Logged (σ : Type) where
  reassembler : FragmentReassembler σ
  accepted : Key → List Fragment

namespace Logged

variable {σ : Type} (ipv6Push : σ → Bytes → Nat → σ × Option Bytes)

/-- The new reassembler, nothing logged. -/
def new (ipv6 : σ) : Logged σ := { reassembler := .new ipv6, accepted := fun _ => [] }

variable (l : Logged σ) (pushes : List Push)

/-- The log of the entry a fragment is offered to; a new entry has none. -/
def earlier (p : Push) (f : Fragment) : List Fragment :=
  if f.key ∈ (l.reassembler.evictExpired p.now).entries then l.accepted f.key else []

def logPush (p : Push) : Key → List Fragment :=
  match l.reassembler.acceptedBy p with
  | none => l.accepted
  | some f => fun k => if k = f.key then l.earlier p f ++ [f] else l.accepted k

/-- One push, logged. -/
def push (p : Push) : Logged σ × Option Bytes :=
  let (reassembler, out) := l.reassembler.push ipv6Push p.frame p.now
  ({ reassembler, accepted := l.logPush p }, out)

/-- A sequence of pushes, logged. -/
def run : Logged σ := pushes.foldl (fun l p => (l.push ipv6Push p).1) l

theorem run_append_singleton (p : Push) :
    l.run ipv6Push (pushes ++ [p]) = ((l.run ipv6Push pushes).push ipv6Push p).1 := by
  rw [run, run, foldl_append]
  rfl

/-- The log does not influence the reassembler. -/
theorem run_reassembler :
    (l.run ipv6Push pushes).reassembler = l.reassembler.run ipv6Push pushes := by
  induction pushes generalizing l with
  | nil => rfl
  | cons p rest ih => exact ih (l.push ipv6Push p).1

theorem run_new_reassembler (ipv6 : σ) (pushes : List Push) :
    ((new ipv6).run ipv6Push pushes).reassembler
      = (FragmentReassembler.new ipv6).run ipv6Push pushes :=
  run_reassembler ipv6Push (new ipv6) pushes

def acceptedSince (ipv6 : σ) (pushes : List Push) : Key → List Fragment :=
  ((new ipv6).run ipv6Push pushes).accepted

/-- Every entry is the record of its log. -/
def Sound : Prop := ∀ k e, l.reassembler.entries.lookup k = some e → Records e (l.accepted k)

section Step

variable {ipv6Push} {l : Logged σ} {p : Push} {f : Fragment}
variable {e : Entry} {k : Key}

/-- Eviction only forgets entries. -/
theorem Sound.evictExpired (h : l.Sound) (now : Nat)
    (hlookup : (l.reassembler.evictExpired now).entries.lookup k = some e) :
    Records e (l.accepted k) := by
  rw [lookup_evictExpired, Option.filter_eq_some_iff] at hlookup
  exact h k e hlookup.1

theorem Sound.entryOf (h : l.Sound) :
    Records ((l.reassembler.evictExpired p.now).entryOf f.key p.now) (l.earlier p f) := by
  rw [FragmentReassembler.entryOf, earlier]
  cases hlookup : (l.reassembler.evictExpired p.now).entries.lookup f.key with
  | none =>
    rw [if_neg (AList.lookup_eq_none.mp hlookup)]
    exact records_new p.now
  | some e =>
    rw [if_pos (AList.lookup_isSome.mp (by rw [hlookup]; rfl))]
    exact h.evictExpired p.now hlookup

theorem Sound.offer (h : l.Sound)
    (hoffer : (l.reassembler.evictExpired p.now).offer f p.now = some e) :
    Records e (l.earlier p f ++ [f]) := by
  rw [FragmentReassembler.offer] at hoffer
  split at hoffer
  · exact h.entryOf.accept hoffer
  · simp at hoffer

theorem Sound.refused (h : l.Sound)
    (hoffer : (l.reassembler.evictExpired p.now).offer f p.now = none)
    (hlookup : ((l.reassembler.evictExpired p.now).pushFragment f p.now).1.entries.lookup k
      = some e) : Records e (l.accepted k) := by
  rcases pushFragment_of_refused hoffer with hpush | hpush
  · rw [hpush] at hlookup
    exact h.evictExpired p.now (Table.of_lookup_erase hlookup).2
  · rw [hpush] at hlookup
    exact h.evictExpired p.now hlookup

theorem Sound.accepted (h : l.Sound) {e₁ : Entry}
    (hoffer : (l.reassembler.evictExpired p.now).offer f p.now = some e₁)
    (hlookup : ((l.reassembler.evictExpired p.now).pushFragment f p.now).1.entries.lookup k
      = some e) : Records e (if k = f.key then l.earlier p f ++ [f] else l.accepted k) := by
  by_cases hk : k = f.key
  · rw [if_pos hk]
    rw [hk, pushFragment_of_offer hoffer] at hlookup
    split at hlookup
    · rw [lookup_remove_self] at hlookup
      simp at hlookup
    · rw [lookup_put_self] at hlookup
      obtain rfl := Option.some.inj hlookup
      exact h.offer hoffer
  · rw [if_neg hk]
    rw [lookup_pushFragment_of_ne _ _ _ hk] at hlookup
    exact h.evictExpired p.now hlookup

theorem logPush_of_refused (h : l.reassembler.acceptedBy p = none) : l.logPush p = l.accepted := by
  rw [logPush, h]

theorem logPush_of_accepted (h : l.reassembler.acceptedBy p = some f) (k : Key) :
    l.logPush p k = if k = f.key then l.earlier p f ++ [f] else l.accepted k := by
  rw [logPush, h]

theorem Sound.push (h : l.Sound) (p : Push) : (l.push ipv6Push p).1.Sound := by
  intro k e hlookup
  change ((l.reassembler.push ipv6Push p.frame p.now).1).entries.lookup k = some e at hlookup
  show Records e (l.logPush p k)
  rw [FragmentReassembler.push] at hlookup
  by_cases hv6 : isIpv6 p.frame
  · rw [if_pos hv6] at hlookup
    rw [logPush_of_refused (by rw [acceptedBy, if_pos hv6])]
    exact h k e hlookup
  rw [if_neg hv6] at hlookup
  cases hparse : Fragment.parse p.frame with
  | none =>
    rw [hparse] at hlookup
    rw [logPush_of_refused (by rw [acceptedBy, if_neg hv6, hparse]; rfl)]
    exact h.evictExpired p.now hlookup
  | some f =>
    rw [hparse] at hlookup
    cases hoffer : (l.reassembler.evictExpired p.now).offer f p.now with
    | none =>
      rw [logPush_of_refused (by
        rw [acceptedBy, if_neg hv6, hparse, Option.filter_some, hoffer]; rfl)]
      exact h.refused hoffer hlookup
    | some e₁ =>
      rw [logPush_of_accepted (by
        rw [acceptedBy, if_neg hv6, hparse, Option.filter_some, hoffer]; rfl)]
      exact h.accepted hoffer hlookup

theorem Sound.output (h : l.Sound) (hv4 : isIpv6 p.frame = false) {out : Bytes}
    (hout : (l.push ipv6Push p).2 = some out) :
    ∃ f, Fragment.parse p.frame = some f ∧ f ∈ (l.push ipv6Push p).1.accepted f.key
      ∧ Agrees out ((l.push ipv6Push p).1.accepted f.key) := by
  change (l.reassembler.push ipv6Push p.frame p.now).2 = some out at hout
  have hv6 : ¬isIpv6 p.frame := by simp [hv4]
  rw [FragmentReassembler.push, if_neg hv6] at hout
  cases hparse : Fragment.parse p.frame with
  | none => simp [hparse] at hout
  | some f =>
    rw [hparse] at hout
    refine ⟨f, rfl, ?_⟩
    show f ∈ l.logPush p f.key ∧ Agrees out (l.logPush p f.key)
    cases hoffer : (l.reassembler.evictExpired p.now).offer f p.now with
    | none =>
      rcases pushFragment_of_refused hoffer with hpush | hpush
      · simp [hpush] at hout
      · simp [hpush] at hout
    | some e =>
      rw [logPush_of_accepted (by
        rw [acceptedBy, if_neg hv6, hparse, Option.filter_some, hoffer]; rfl),
        if_pos rfl]
      refine ⟨by simp, ?_⟩
      dsimp only at hout
      rw [pushFragment_of_offer hoffer] at hout
      split at hout
      next hcomplete =>
        exact (h.offer hoffer).finish hcomplete hout
      · simp at hout

end Step

theorem sound_new (ipv6 : σ) : (new ipv6).Sound := by
  intro k e hlookup
  simp [new, FragmentReassembler.new] at hlookup

theorem Sound.run {l : Logged σ} (h : l.Sound) (pushes : List Push) :
    (l.run ipv6Push pushes).Sound := by
  induction pushes generalizing l with
  | nil => exact h
  | cons p rest ih => exact ih (h.push p)

end Logged

end Arcbox.Reassembly

import Mathlib.Order.Monotone.Basic

set_option autoImplicit false

/-!
# Foundation: sets of positions as sorted range lists

A set of positions kept as a list of half-open ranges `(start, stop)`, sorted and
with a gap between neighbours.  Inserting a range puts it in its place and then
coalesces ranges that touch or overlap.  Three facts describe the insertion: the
list stays separated, a property that survives the joining of two ranges survives
the insertion, and every range that went in is inside a range that comes out.
-/

namespace Arcbox.Foundation.Ranges

open List Nat

structure Separated (ranges : List (Nat × Nat)) : Prop where
  gap : ranges.Pairwise fun a b => a.2 < b.1
  forward : ∀ r ∈ ranges, r.1 ≤ r.2

/-- Coalesce the ranges that follow into the last range produced, `last`. -/
def coalesceFrom (last : Nat × Nat) : List (Nat × Nat) → List (Nat × Nat)
  | [] => [last]
  | r :: rest =>
      if r.1 ≤ last.2 then coalesceFrom (last.1, max last.2 r.2) rest
      else last :: coalesceFrom r rest

/-- Join the ranges of a list sorted by start that touch or overlap. -/
def coalesce : List (Nat × Nat) → List (Nat × Nat)
  | [] => []
  | r :: rest => coalesceFrom r rest

def insert (ranges : List (Nat × Nat)) (start stop : Nat) : List (Nat × Nat) :=
  let idx := (ranges.takeWhile fun r => decide (r.1 < start)).length
  coalesce (ranges.take idx ++ (start, stop) :: ranges.drop idx)

/-- A property of ranges that passes to the union of two touching ranges. -/
def JoinClosed (P : Nat × Nat → Prop) : Prop :=
  ∀ a b : Nat × Nat, P a → P b → a.1 ≤ b.1 → b.1 ≤ a.2 → P (a.1, max a.2 b.2)

theorem joinClosed_covered (Q : Nat → Prop) : JoinClosed fun r => ∀ i, r.1 ≤ i → i < r.2 → Q i := by
  intro a b ha hb _ htouch i hlo hhi
  rcases lt_or_ge i a.2 with hi | hi
  · exact ha i hlo hi
  · exact hb i (by omega) (by dsimp only at hhi; omega)

theorem joinClosed_stop_le (bound : Nat) : JoinClosed fun r => r.2 ≤ bound :=
  fun _ _ ha hb _ _ => Nat.max_le.mpr ⟨ha, hb⟩

/-! ## Coalescing -/

section Coalesce

variable {last : Nat × Nat} {rest : List (Nat × Nat)}

theorem le_of_mem_coalesceFrom (hsorted : (last :: rest).Pairwise fun a b => a.1 ≤ b.1) :
    ∀ r ∈ coalesceFrom last rest, last.1 ≤ r.1 := by
  induction rest generalizing last with
  | nil => simp [coalesceFrom]
  | cons r rest ih =>
    rw [pairwise_cons] at hsorted
    obtain ⟨hlast, hrest⟩ := hsorted
    have hr : last.1 ≤ r.1 := hlast r mem_cons_self
    rw [coalesceFrom]
    split
    · refine ih (pairwise_cons.mpr ⟨?_, hrest.tail⟩)
      exact fun x hx => hlast x (mem_cons_of_mem r hx)
    · rintro x (_ | ⟨_, hx⟩)
      · exact .refl
      · exact hr.trans (ih hrest x hx)

theorem separated_coalesceFrom (hsorted : (last :: rest).Pairwise fun a b => a.1 ≤ b.1)
    (hforward : ∀ r ∈ last :: rest, r.1 ≤ r.2) : Separated (coalesceFrom last rest) := by
  induction rest generalizing last with
  | nil => exact ⟨pairwise_singleton _ _, hforward⟩
  | cons r rest ih =>
    have hlast := hforward last mem_cons_self
    rw [pairwise_cons] at hsorted
    obtain ⟨hle, hrest⟩ := hsorted
    rw [coalesceFrom]
    split
    · refine ih (pairwise_cons.mpr ⟨?_, hrest.tail⟩) ?_
      · exact fun x hx => hle x (mem_cons_of_mem r hx)
      · rintro x (_ | ⟨_, hx⟩)
        · exact hlast.trans (le_max_left _ _)
        · exact hforward x (mem_cons_of_mem _ (mem_cons_of_mem r hx))
    rename_i hgap
    have htail := ih hrest (forall_mem_cons.mp hforward).2
    refine ⟨pairwise_cons.mpr ⟨fun x hx => ?_, htail.gap⟩, ?_⟩
    · have := le_of_mem_coalesceFrom hrest x hx
      omega
    · rintro x (_ | ⟨_, hx⟩)
      · exact hlast
      · exact htail.forward x hx

theorem forall_mem_coalesceFrom {P : Nat × Nat → Prop} (hjoin : JoinClosed P)
    (hsorted : (last :: rest).Pairwise fun a b => a.1 ≤ b.1) (hP : ∀ r ∈ last :: rest, P r) :
    ∀ r ∈ coalesceFrom last rest, P r := by
  induction rest generalizing last with
  | nil => exact hP
  | cons r rest ih =>
    have hlast := hP last mem_cons_self
    have hr := hP r (mem_cons_of_mem _ mem_cons_self)
    rw [pairwise_cons] at hsorted
    obtain ⟨hle, hrest⟩ := hsorted
    rw [coalesceFrom]
    split
    next htouch =>
      refine ih (pairwise_cons.mpr ⟨?_, hrest.tail⟩) ?_
      · exact fun x hx => hle x (mem_cons_of_mem r hx)
      · rintro x (_ | ⟨_, hx⟩)
        · exact hjoin last r hlast hr (hle r mem_cons_self) htouch
        · exact hP x (mem_cons_of_mem _ (mem_cons_of_mem r hx))
    · rintro x (_ | ⟨_, hx⟩)
      · exact hlast
      · exact ih hrest (forall_mem_cons.mp hP).2 x hx

theorem exists_mem_coalesceFrom (hsorted : (last :: rest).Pairwise fun a b => a.1 ≤ b.1) :
    ∀ r ∈ last :: rest, ∃ x ∈ coalesceFrom last rest, x.1 ≤ r.1 ∧ r.2 ≤ x.2 := by
  induction rest generalizing last with
  | nil =>
    intro r hr
    exact ⟨r, hr, .refl, .refl⟩
  | cons r rest ih =>
    rw [pairwise_cons] at hsorted
    obtain ⟨hle, hrest⟩ := hsorted
    have hr : last.1 ≤ r.1 := hle r mem_cons_self
    rw [coalesceFrom]
    split
    · have hjoined : ((last.1, max last.2 r.2) :: rest).Pairwise fun a b => a.1 ≤ b.1 :=
        pairwise_cons.mpr
          ⟨fun x hx => hle x (mem_cons_of_mem r hx), hrest.tail⟩
      -- both joined ranges lie in their union, the others are covered already
      obtain ⟨u, hu, hlo, hhi⟩ := ih hjoined _ mem_cons_self
      dsimp only at hlo hhi
      refine forall_mem_cons.mpr ⟨⟨u, hu, hlo, by omega⟩, forall_mem_cons.mpr ⟨?_, ?_⟩⟩
      · exact ⟨u, hu, by omega, by omega⟩
      · exact (forall_mem_cons.mp (ih hjoined)).2
    intro x hx
    rcases mem_cons.mp hx with rfl | hx
    · exact ⟨x, mem_cons_self, .refl, .refl⟩
    · obtain ⟨u, hu, hin⟩ := ih hrest x hx
      exact ⟨u, mem_cons_of_mem _ hu, hin⟩

end Coalesce

/-! ## Insertion -/

variable {r : Nat × Nat}

section Insert

variable {ranges : List (Nat × Nat)} {start stop : Nat}

theorem Separated.sorted (h : Separated ranges) : ranges.Pairwise fun a b => a.1 ≤ b.1 := by
  refine h.gap.imp_of_mem fun {a b} ha _ hab => ?_
  have := h.forward a ha
  omega

/-- The list handed to `coalesce`, by the two sides of the insertion point. -/
theorem insert_eq : insert ranges start stop
    = coalesce ((ranges.takeWhile fun r => decide (r.1 < start)) ++ (start, stop)
        :: ranges.dropWhile fun r => decide (r.1 < start)) := by
  have hsplit := takeWhile_append_dropWhile (p := fun r : Nat × Nat => decide (r.1 < start))
    (l := ranges)
  rw [insert]
  congr 1
  generalize ranges.takeWhile (fun r => decide (r.1 < start)) = below at *
  generalize ranges.dropWhile (fun r => decide (r.1 < start)) = above at *
  rw [← hsplit, take_left, drop_left]

theorem le_of_mem_dropWhile (hsorted : ranges.Pairwise fun a b => a.1 ≤ b.1) :
    ∀ r ∈ ranges.dropWhile fun r => decide (r.1 < start), start ≤ r.1 := by
  induction ranges with
  | nil => simp
  | cons r rest ih =>
    rw [pairwise_cons] at hsorted
    rw [dropWhile_cons]
    split
    · exact ih hsorted.2
    rename_i hr
    have hstart : start ≤ r.1 := by simpa using hr
    rintro x (_ | ⟨_, hx⟩)
    · exact hstart
    · exact hstart.trans (hsorted.1 x hx)

theorem sorted_around (hsorted : ranges.Pairwise fun a b => a.1 ≤ b.1) :
    ((ranges.takeWhile fun r => decide (r.1 < start)) ++ (start, stop)
      :: ranges.dropWhile fun r => decide (r.1 < start)).Pairwise fun a b => a.1 ≤ b.1 := by
  have hbelow : ∀ r ∈ ranges.takeWhile fun r => decide (r.1 < start), r.1 < start := by
    intro r hr
    simpa using all_eq_true.mp all_takeWhile r hr
  have habove : ∀ r ∈ ranges.dropWhile fun r => decide (r.1 < start), start ≤ r.1 :=
    le_of_mem_dropWhile hsorted
  refine pairwise_append.mpr ⟨hsorted.sublist (takeWhile_sublist _), ?_, ?_⟩
  · exact pairwise_cons.mpr ⟨habove, hsorted.sublist (dropWhile_sublist _)⟩
  · rintro a ha b (_ | ⟨_, hb⟩)
    · exact le_of_lt (hbelow a ha)
    · exact (le_of_lt (hbelow a ha)).trans (habove b hb)

theorem mem_around :
    (r ∈ (ranges.takeWhile fun r => decide (r.1 < start)) ++ (start, stop)
      :: ranges.dropWhile fun r => decide (r.1 < start)) ↔ r = (start, stop) ∨ r ∈ ranges := by
  conv_rhs =>
    rw [← takeWhile_append_dropWhile (p := fun r : Nat × Nat => decide (r.1 < start))
      (l := ranges)]
  simp only [mem_append, mem_cons]
  exact or_left_comm

theorem insert_eq_coalesceFrom (ranges : List (Nat × Nat)) (start stop : Nat) :
    ∃ r rest, (ranges.takeWhile fun r => decide (r.1 < start)) ++ (start, stop)
        :: (ranges.dropWhile fun r => decide (r.1 < start)) = r :: rest ∧
      insert ranges start stop = coalesceFrom r rest := by
  rw [insert_eq]
  cases (ranges.takeWhile fun r => decide (r.1 < start)) with
  | nil => exact ⟨_, _, rfl, rfl⟩
  | cons r rest => exact ⟨_, _, rfl, rfl⟩

theorem Separated.insert (h : Separated ranges) (hle : start ≤ stop) :
    Separated (insert ranges start stop) := by
  obtain ⟨r, rest, hl, hcoalesce⟩ := insert_eq_coalesceFrom ranges start stop
  rw [hcoalesce]
  refine separated_coalesceFrom (hl ▸ sorted_around h.sorted) fun x hx => ?_
  rcases mem_around.mp (hl ▸ hx) with rfl | hx
  · exact hle
  · exact h.forward x hx

theorem Separated.forall_mem_insert {P : Nat × Nat → Prop} (h : Separated ranges)
    (hjoin : JoinClosed P) (hP : ∀ r ∈ ranges, P r) (hnew : P (start, stop)) :
    ∀ r ∈ Ranges.insert ranges start stop, P r := by
  obtain ⟨r, rest, hl, hcoalesce⟩ := insert_eq_coalesceFrom ranges start stop
  rw [hcoalesce]
  refine forall_mem_coalesceFrom hjoin (hl ▸ sorted_around h.sorted) fun x hx => ?_
  rcases mem_around.mp (hl ▸ hx) with rfl | hx
  · exact hnew
  · exact hP x hx

theorem Separated.exists_mem_insert (h : Separated ranges) (hr : r = (start, stop) ∨ r ∈ ranges) :
    ∃ x ∈ Ranges.insert ranges start stop, x.1 ≤ r.1 ∧ r.2 ≤ x.2 := by
  obtain ⟨first, rest, hl, hcoalesce⟩ := insert_eq_coalesceFrom ranges start stop
  rw [hcoalesce]
  exact exists_mem_coalesceFrom (hl ▸ sorted_around h.sorted) r (hl ▸ mem_around.mpr hr)

end Insert

/-! ## A whole range

A separated list that covers every position of an interval and reaches nothing
outside is that interval. -/

theorem Separated.eq_singleton {ranges : List (Nat × Nat)} {lo hi : Nat}
    (h : Separated ranges) (hne : ranges ≠ []) (hwithin : ∀ r ∈ ranges, lo ≤ r.1 ∧ r.2 ≤ hi)
    (hcover : ∀ i, lo ≤ i → i < hi → ∃ r ∈ ranges, r.1 ≤ i ∧ i < r.2) : ranges = [(lo, hi)] := by
  cases ranges with
  | nil => exact absurd rfl hne
  | cons r rest =>
    obtain ⟨hgap, -⟩ := pairwise_cons.mp h.gap
    obtain ⟨hlo, hhi⟩ := hwithin r mem_cons_self
    have hforward := h.forward r mem_cons_self
    -- a position not above the first range's stop is covered by the first range or by none
    have hfirst : ∀ i, lo ≤ i → i < hi → i ≤ r.2 → r.1 ≤ i ∧ i < r.2 := by
      intro i hi₁ hi₂ hi₃
      obtain ⟨x, hx, hx₁, hx₂⟩ := hcover i hi₁ hi₂
      rcases mem_cons.mp hx with rfl | hx
      · exact ⟨hx₁, hx₂⟩
      · have := hgap x hx
        omega
    have hstop : r.2 = hi := by
      rcases lt_or_ge r.2 hi with hlt | hge
      · have := hfirst r.2 (by omega) hlt .refl
        omega
      · omega
    have hstart : r.1 = lo := by
      rcases lt_or_ge lo hi with hlt | hge
      · have := hfirst lo .refl hlt (by omega)
        omega
      · omega
    have hrest : rest = [] := by
      cases rest with
      | nil => rfl
      | cons x rest =>
        have hx := hgap x mem_cons_self
        have hxhi := (hwithin x (mem_cons_of_mem r mem_cons_self)).2
        have hxfwd := h.forward x (mem_cons_of_mem r mem_cons_self)
        omega
    rw [hrest, ← hstart, ← hstop]

/-! ## Ranges on a grid

The cells of a grid are the pieces between consecutive values of a monotone
function. -/

section Grid

variable {off : Nat → Nat} {n : Nat}

/-- The range is a run of cells of the grid with `n` cells. -/
def OnGrid (off : Nat → Nat) (n : Nat) (r : Nat × Nat) : Prop :=
  ∃ a b, a ≤ b ∧ b < n ∧ r = (off a, off (b + 1))

theorem joinClosed_onGrid (hoff : Monotone off) : JoinClosed (OnGrid off n) := by
  rintro _ _ ⟨a, b, hab, hb, rfl⟩ ⟨a', b', hab', hb', rfl⟩ - -
  rcases le_total (off (b' + 1)) (off (b + 1)) with hle | hle
  · exact ⟨a, b, hab, hb, by rw [max_eq_left hle]⟩
  rcases le_total a b' with ha | ha
  · exact ⟨a, b', ha, hb', by rw [max_eq_right hle]⟩
  · -- the second run ends below the first one's start, so both stops coincide
    have hback := hoff (show b' + 1 ≤ b + 1 by omega)
    exact ⟨a, b, hab, hb, by rw [max_eq_left hback]⟩

theorem exists_cell {p : Nat} (hlo : off 0 ≤ p) (hhi : p < off n) :
    ∃ i < n, off i ≤ p ∧ p < off (i + 1) := by
  induction n with
  | zero => omega
  | succ n ih =>
    rcases lt_or_ge p (off n) with hlt | hge
    · obtain ⟨i, hi, hcell⟩ := ih hlt
      exact ⟨i, lt_succ_of_lt hi, hcell⟩
    · exact ⟨n, lt_succ_self n, hge, hhi⟩

/-- A cell that meets a run of cells is part of it. -/
theorem OnGrid.contains (hoff : Monotone off) (h : OnGrid off n r) {i : Nat} (hlo : off i < r.2)
    (hhi : r.1 < off (i + 1)) : r.1 ≤ off i ∧ off (i + 1) ≤ r.2 := by
  obtain ⟨a, b, hab, hb, rfl⟩ := h
  have hib : i < b + 1 := hoff.reflect_lt hlo
  have hai : a < i + 1 := hoff.reflect_lt hhi
  exact ⟨hoff (by omega), hoff (by omega)⟩

/-- Between two separated runs a cell is left out, so at most every other cell
starts a run. -/
theorem Separated.length_le_of_onGrid (hoff : Monotone off) {ranges : List (Nat × Nat)}
    (h : ranges.Pairwise fun a b => a.2 < b.1) (hgrid : ∀ r ∈ ranges, OnGrid off n r) :
    2 * ranges.length ≤ n + 1 := by
  suffices hfrom : ∀ lo,
      (∀ r ∈ ranges, ∃ a b, lo ≤ a ∧ a ≤ b ∧ b < n ∧ r = (off a, off (b + 1))) →
      ranges = [] ∨ 2 * ranges.length + lo ≤ n + 1 by
    rcases hfrom 0 (fun r hr => by
      obtain ⟨a, b, hab⟩ := hgrid r hr
      exact ⟨a, b, zero_le a, hab⟩) with rfl | hlen
    · simp
    · omega
  clear hgrid
  induction ranges with
  | nil => exact fun lo _ => .inl rfl
  | cons r rest ih =>
    intro lo hr
    obtain ⟨hgap, hrest⟩ := pairwise_cons.mp h
    obtain ⟨a, b, hloa, hab, hbn, rfl⟩ := hr r mem_cons_self
    right
    have hnext : ∀ x ∈ rest,
        ∃ a' b', b + 2 ≤ a' ∧ a' ≤ b' ∧ b' < n ∧ x = (off a', off (b' + 1)) := by
      intro x hx
      obtain ⟨a', b', -, hab', hb', rfl⟩ := hr x (mem_cons_of_mem _ hx)
      have hskip : b + 1 < a' := hoff.reflect_lt (hgap _ hx)
      exact ⟨a', b', hskip, hab', hb', rfl⟩
    rw [length_cons]
    rcases ih hrest (b + 2) hnext with rfl | hlen
    · simp only [length_nil]
      omega
    · omega

end Grid

end Arcbox.Foundation.Ranges

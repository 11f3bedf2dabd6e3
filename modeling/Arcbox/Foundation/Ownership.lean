import Mathlib.Data.Set.Basic

set_option autoImplicit false

/-!
# Foundation: who uses a pooled resource

Clients hold resources of a pool, some resources are parked in nobody's hands, and the
pool keeps a set of those it must not hand out.  The books balance when that set is
exactly what is held or parked and no resource has two holders.
-/

namespace Arcbox.Foundation

/-- Holdings of clients `κ` in resources `ι`. -/
structure Ownership (κ ι : Type) where
  held : κ → Set ι
  parked : Set ι
  allocated : Set ι

namespace Ownership

variable {κ ι : Type}

def InUse (o : Ownership κ ι) (i : ι) : Prop := (∃ k, i ∈ o.held k) ∨ i ∈ o.parked

structure Balanced (o : Ownership κ ι) : Prop where
  exclusive : ∀ k k' i, i ∈ o.held k → i ∈ o.held k' → k = k'
  accounted : ∀ i, i ∈ o.allocated ↔ o.InUse i

variable {o o' : Ownership κ ι}

section

variable (h : o.Balanced)

include h

theorem Balanced.allocated_of_held {k : κ} {i : ι} (hi : i ∈ o.held k) :
    i ∈ o.allocated := (h.accounted i).mpr (.inl ⟨k, hi⟩)

theorem Balanced.allocated_of_parked {i : ι} (hi : i ∈ o.parked) :
    i ∈ o.allocated := (h.accounted i).mpr (.inr hi)

/-- When nobody holds more than before, only the accounts are in question. -/
theorem Balanced.shrink_iff (hheld : ∀ k, o'.held k ⊆ o.held k) :
    o'.Balanced ↔ ∀ i, i ∈ o'.allocated ↔ o'.InUse i :=
  ⟨Balanced.accounted, fun hacc =>
    ⟨fun k k' i hk hk' => h.exclusive k k' i (hheld k hk) (hheld k' hk'), hacc⟩⟩

/-- What is in use apart from the holdings of one client. -/
theorem Balanced.others_iff (k : κ) (i : ι) :
    ((∃ k', k' ≠ k ∧ i ∈ o.held k') ∨ i ∈ o.parked)
      ↔ i ∈ o.allocated ∧ (i ∈ o.held k → i ∈ o.parked) := by
  constructor
  · rintro (⟨k', hne, hi⟩ | hi)
    · exact ⟨h.allocated_of_held hi, fun hk => absurd (h.exclusive k' k i hi hk) hne⟩
    · exact ⟨h.allocated_of_parked hi, fun _ => hi⟩
  rintro ⟨halloc, hparked⟩
  rcases (h.accounted i).mp halloc with ⟨k', hi⟩ | hi
  · by_cases heq : k' = k
    · subst heq
      exact .inr (hparked hi)
    · exact .inl ⟨k', heq, hi⟩
  · exact .inr hi

/-- One client changes its holdings, taking only what was free: the books balance
exactly when the pool follows that client. -/
theorem Balanced.update_iff {k : κ} (hothers : ∀ k', k' ≠ k → o'.held k' = o.held k')
    (hparked : o'.parked = o.parked) (hfresh : ∀ i ∈ o'.held k, i ∈ o.held k ∨ i ∉ o.allocated) :
    o'.Balanced ↔ ∀ i, i ∈ o'.allocated ↔
      i ∈ o'.held k ∨ (i ∈ o.allocated ∧ (i ∈ o.held k → i ∈ o.parked)) := by
  have huse : ∀ i, o'.InUse i ↔
      i ∈ o'.held k ∨ (i ∈ o.allocated ∧ (i ∈ o.held k → i ∈ o.parked)) := by
    intro i
    rw [← h.others_iff k i]
    unfold InUse
    rw [hparked]
    constructor
    · rintro (⟨k', hi⟩ | hi)
      · by_cases heq : k' = k
        · subst heq
          exact .inl hi
        · rw [hothers k' heq] at hi
          exact .inr (.inl ⟨k', heq, hi⟩)
      · exact .inr (.inr hi)
    rintro (hi | ⟨k', hne, hi⟩ | hi)
    · exact .inl ⟨k, hi⟩
    · rw [← hothers k' hne] at hi
      exact .inl ⟨k', hi⟩
    · exact .inr hi
  -- a resource the client took was free, so no other client holds it
  have halone : ∀ k' i, k' ≠ k → i ∈ o'.held k → i ∉ o'.held k' := by
    intro k' i hne hk hk'
    rw [hothers k' hne] at hk'
    rcases hfresh i hk with hold | hfree
    · exact hne (h.exclusive k' k i hk' hold)
    · exact hfree (h.allocated_of_held hk')
  constructor
  · intro hbal i
    rw [hbal.accounted i, huse i]
  intro hacc
  refine ⟨fun k₁ k₂ i h₁ h₂ => ?_, fun i => by rw [hacc i, huse i]⟩
  by_cases heq₁ : k₁ = k
  · subst heq₁
    by_contra hne
    exact halone k₂ i (Ne.symm hne) h₁ h₂
  by_cases heq₂ : k₂ = k
  · subst heq₂
    exact absurd h₁ (halone k₁ i heq₁ h₂)
  · rw [hothers k₁ heq₁] at h₁
    rw [hothers k₂ heq₂] at h₂
    exact h.exclusive k₁ k₂ i h₁ h₂

/-- A client parks a resource it holds, and keeps everything else. -/
theorem Balanced.park {k : κ} {i : ι} (hi : i ∈ o.held k) (hallocated : o'.allocated = o.allocated)
    (hparked : ∀ j, j ∈ o'.parked ↔ j = i ∨ j ∈ o.parked) (hheld : ∀ k', o'.held k' ⊆ o.held k')
    (hkept : ∀ k' j, j ∈ o.held k' → j ≠ i → j ∈ o'.held k') : o'.Balanced := by
  refine (h.shrink_iff hheld).mpr fun j => ?_
  rw [hallocated, h.accounted j]
  constructor
  · rintro (⟨k', hj⟩ | hj)
    · by_cases heq : j = i
      · exact .inr ((hparked j).mpr (.inl heq))
      · exact .inl ⟨k', hkept k' j hj heq⟩
    · exact .inr ((hparked j).mpr (.inr hj))
  rintro (⟨k', hj⟩ | hj)
  · exact .inl ⟨k', hheld k' hj⟩
  · rcases (hparked j).mp hj with rfl | hj
    · exact .inl ⟨k, hi⟩
    · exact .inr hj

end

end Ownership

end Arcbox.Foundation

import Mathlib.Data.List.AList

set_option autoImplicit false

/-!
# Foundation: tables

A hash map of the source is an association list with distinct keys.  Mathlib has
lookup, insertion and removal; the bulk operations the modelled code uses, an update of
every entry, a filter and the insertion of a list, are added here.
-/

namespace Arcbox.Foundation

open List Function AList

variable {κ α β : Type}

/-- A finite map. -/
abbrev Table (κ : Type) (α : Type) := AList fun _ : κ => α

namespace Table

private theorem keys_map (l : List (Sigma fun _ : κ => α)) (f : κ → α → β) :
    List.keys (l.map fun e => (⟨e.1, f e.1 e.2⟩ : Sigma fun _ : κ => β)) = l.keys := by
  simp only [List.keys, map_map]
  rfl

private theorem nodupKeys_map {l : List (Sigma fun _ : κ => α)} (f : κ → α → β) (h : l.NodupKeys) :
    (l.map fun e => (⟨e.1, f e.1 e.2⟩ : Sigma fun _ : κ => β)).NodupKeys := by
  rw [List.NodupKeys, keys_map]
  exact h

/-- Replace every value. -/
def mapVal (f : κ → α → β) (t : Table κ α) : Table κ β :=
  ⟨t.entries.map fun e => ⟨e.1, f e.1 e.2⟩, nodupKeys_map f t.nodupKeys⟩

theorem keys_mapVal (f : κ → α → β) (t : Table κ α) : (mapVal f t).keys = t.keys :=
  keys_map t.entries f

/-- Keep the entries that satisfy `p`. -/
def retain (p : κ → α → Bool) (t : Table κ α) : Table κ α :=
  ⟨t.entries.filter fun e => p e.1 e.2,
    List.NodupKeys.sublist filter_sublist t.nodupKeys⟩

variable [DecidableEq κ]

variable {t : Table κ α}

theorem lookup_eq_some_iff {k : κ} {a : α} :
    t.lookup k = some a ↔ (⟨k, a⟩ : Sigma fun _ : κ => α) ∈ t.entries := mem_lookup_iff

theorem of_lookup_insert {k k' : κ} {a a' : α} (h : (t.insert k a).lookup k' = some a') :
    (k' = k ∧ a = a') ∨ (k' ≠ k ∧ t.lookup k' = some a') := by
  by_cases hk : k' = k
  · rw [hk, lookup_insert] at h
    exact .inl ⟨hk, Option.some.inj h⟩
  · rw [lookup_insert_ne hk] at h
    exact .inr ⟨hk, h⟩

theorem of_lookup_erase {k k' : κ} {a : α} (h : (t.erase k).lookup k' = some a) :
    k' ≠ k ∧ t.lookup k' = some a := by
  by_cases hk : k' = k
  · rw [hk, lookup_erase] at h
    cases h
  · rw [lookup_erase_ne hk] at h
    exact ⟨hk, h⟩

@[simp] theorem lookup_mapVal (f : κ → α → β) (t : Table κ α) (k : κ) :
    (mapVal f t).lookup k = (t.lookup k).map (f k) := by
  refine Option.ext fun b => ?_
  rw [lookup_eq_some_iff, Option.map_eq_some_iff]
  simp only [mapVal, mem_map, Sigma.mk.injEq]
  constructor
  · rintro ⟨⟨k', a⟩, hmem, rfl, hb⟩
    exact ⟨a, lookup_eq_some_iff.mpr hmem, eq_of_heq hb⟩
  · rintro ⟨a, hlook, rfl⟩
    exact ⟨⟨k, a⟩, lookup_eq_some_iff.mp hlook, rfl, HEq.rfl⟩

theorem lookup_retain (p : κ → α → Bool) (t : Table κ α) (k : κ) :
    (retain p t).lookup k = (t.lookup k).filter (p k) := by
  refine Option.ext fun a => ?_
  rw [lookup_eq_some_iff, Option.filter_eq_some_iff, lookup_eq_some_iff]
  simp only [retain, mem_filter]

/-! ### The number of entries -/

theorem size_erase (t : Table κ α) (k : κ) :
    (t.erase k).keys.length + (t.lookup k).toList.length = t.keys.length := by
  rw [keys_erase, length_erase]
  cases hlook : t.lookup k with
  | none =>
    rw [if_neg (fun hk => AList.lookup_eq_none.mp hlook (AList.mem_keys.mpr hk))]
    rfl
  | some a =>
    have hk : k ∈ t.keys := mem_keys.mp (lookup_isSome.mp (by rw [hlook]; rfl))
    rw [if_pos hk]
    exact Nat.sub_add_cancel (length_pos_of_mem hk)

theorem size_insert (t : Table κ α) (k : κ) (a : α) :
    (t.insert k a).keys.length + (t.lookup k).toList.length = t.keys.length + 1 := by
  rw [← size_erase t k, keys_erase, keys_insert, length_cons]
  omega

/-- Insert the elements of `l` in order, each under its own key. -/
def insertAll (key : β → κ) (val : β → α) (l : List β) (t : Table κ α) : Table κ α :=
  l.foldl (fun t b => t.insert (key b) (val b)) t

section InsertAll

variable {key : β → κ} {val : β → α} {l : List β} {k : κ} {a : α}

theorem insertAll_cons (b : β) :
    insertAll key val (b :: l) t = insertAll key val l (t.insert (key b) (val b)) := rfl

theorem isSome_lookup_insertAll :
    ((insertAll key val l t).lookup k).isSome ↔ (∃ b ∈ l, key b = k) ∨ (t.lookup k).isSome := by
  induction l generalizing t with
  | nil => simp [insertAll]
  | cons b l ih =>
    rw [insertAll_cons, ih, exists_mem_cons_iff]
    by_cases hk : k = key b
    · subst hk
      simp [lookup_insert]
    · rw [lookup_insert_ne hk]
      simp [Ne.symm hk]

theorem of_lookup_insertAll (h : (insertAll key val l t).lookup k = some a) :
    (∃ b ∈ l, key b = k ∧ val b = a) ∨ t.lookup k = some a := by
  induction l generalizing t with
  | nil => exact .inr h
  | cons b l ih =>
    rw [insertAll_cons] at h
    rcases ih h with ⟨b', hmem, hb'⟩ | hlook
    · exact .inl ⟨b', mem_cons_of_mem b hmem, hb'⟩
    by_cases hk : k = key b
    · subst hk
      rw [lookup_insert] at hlook
      exact .inl ⟨b, mem_cons_self, rfl, Option.some.inj hlook⟩
    · rw [lookup_insert_ne hk] at hlook
      exact .inr hlook

theorem lookup_insertAll_of_not_mem (h : ∀ b ∈ l, key b ≠ k) :
    (insertAll key val l t).lookup k = t.lookup k := by
  induction l generalizing t with
  | nil => rfl
  | cons b l ih =>
    rw [insertAll_cons, ih fun b' hb' => h b' (mem_cons_of_mem b hb'),
      lookup_insert_ne (h b mem_cons_self).symm]

/-- With distinct keys nothing of the list is overwritten. -/
theorem lookup_insertAll_of_mem (hdistinct : (l.map key).Nodup) {b : β} (hb : b ∈ l) :
    (insertAll key val l t).lookup (key b) = some (val b) := by
  induction l generalizing t with
  | nil => exact (nomatch hb)
  | cons b' l ih =>
    rw [map_cons, nodup_cons] at hdistinct
    rw [insertAll_cons]
    rcases mem_cons.mp hb with rfl | hb
    · rw [lookup_insertAll_of_not_mem, lookup_insert]
      intro b' hb' heq
      exact hdistinct.1 (mem_map.mpr ⟨b', hb', heq⟩)
    · exact ih hdistinct.2 hb

end InsertAll

end Table

/-! ## Functions with one value changed -/

theorem of_update_some [DecidableEq κ] {f : κ → Option α} {k k' : κ} {a a' : α}
    (h : Function.update f k (some a) k' = some a') :
    (k' = k ∧ a = a') ∨ (k' ≠ k ∧ f k' = some a') := by
  by_cases hk : k' = k
  · rw [hk, update_self] at h
    exact .inl ⟨hk, Option.some.inj h⟩
  · rw [update_of_ne hk] at h
    exact .inr ⟨hk, h⟩

theorem of_update_none [DecidableEq κ] {f : κ → Option α} {k k' : κ} {a : α}
    (h : Function.update f k none k' = some a) : k' ≠ k ∧ f k' = some a := by
  by_cases hk : k' = k
  · rw [hk, update_self] at h
    cases h
  · rw [update_of_ne hk] at h
    exact ⟨hk, h⟩

end Arcbox.Foundation

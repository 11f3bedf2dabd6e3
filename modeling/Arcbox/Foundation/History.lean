set_option autoImplicit false

/-!
# Foundation: histories and their observers

A history is the list of events a system has reported, oldest first.  An observer
folds it into what it knows, and a property of an event is judged by what the
observer knew when the event happened.
-/

namespace Arcbox.Foundation.History

open List

variable {σ ε : Type}

/-- What the observer knows after the history `h`. -/
def after (next : σ → ε → σ) (start : σ) (h : List ε) : σ := h.foldl next start

/-- Every event of `h` meets `P`, judged by what the observer knew before it. -/
def Throughout (next : σ → ε → σ) (start : σ) (P : σ → ε → Prop) (h : List ε) : Prop :=
  ∀ pre e post, h = pre ++ e :: post → P (after next start pre) e

variable {next : σ → ε → σ} {start : σ} {P : σ → ε → Prop} {e : ε} {h : List ε}

@[simp] theorem after_nil : after next start [] = start := rfl

@[simp] theorem after_cons : after next start (e :: h) = after next (next start e) h := rfl

@[simp] theorem after_append (h₁ h₂ : List ε) :
    after next start (h₁ ++ h₂) = after next (after next start h₁) h₂ := foldl_append

theorem throughout_nil : Throughout next start P [] := by
  intro pre e post heq
  cases pre <;> cases heq

theorem throughout_cons :
    Throughout next start P (e :: h) ↔ P start e ∧ Throughout next (next start e) P h := by
  constructor
  · intro hall
    refine ⟨hall [] e h rfl, fun pre e' post heq => ?_⟩
    exact hall (e :: pre) e' post (by rw [heq, cons_append])
  rintro ⟨he, hrest⟩ pre e' post heq
  cases pre with
  | nil =>
    cases heq
    exact he
  | cons e'' pre =>
    cases heq
    exact hrest pre e' post rfl

theorem throughout_append (h₁ h₂ : List ε) :
    Throughout next start P (h₁ ++ h₂)
      ↔ Throughout next start P h₁ ∧ Throughout next (after next start h₁) P h₂ := by
  induction h₁ generalizing start with
  | nil => simp only [nil_append, after_nil, throughout_nil, true_and]
  | cons e h₁ ih =>
    rw [cons_append, throughout_cons, throughout_cons, ih, after_cons, and_assoc]

theorem throughout_concat :
    Throughout next start P (h ++ [e]) ↔ Throughout next start P h ∧ P (after next start h) e := by
  simp only [throughout_append, throughout_cons, throughout_nil, and_true]

/-- What every event that meets `P` keeps, a history of such events keeps. -/
theorem keeps {I : σ → Prop} (hstep : ∀ s e, I s → P s e → I (next s e)) (hstart : I start)
    (hall : Throughout next start P h) : I (after next start h) := by
  induction h generalizing start with
  | nil => exact hstart
  | cons e h ih =>
    obtain ⟨he, hrest⟩ := throughout_cons.mp hall
    exact ih (hstep start e hstart he) hrest

/-- Where the events that meet `P` are exactly those that keep `I`, a history meets `P` throughout
just when `I` holds in every state it passes. -/
theorem throughout_iff {I J : σ → Prop} (hkeep : ∀ s e, J s → J (next s e))
    (hstep : ∀ s e, J s → I s → (I (next s e) ↔ P s e)) (hJ : J start) (hI : I start) :
    Throughout next start P h ↔ ∀ pre post, h = pre ++ post → I (after next start pre) := by
  induction h generalizing start with
  | nil =>
    refine ⟨fun _ pre post heq => ?_, fun _ => throughout_nil⟩
    obtain ⟨rfl, -⟩ := append_eq_nil_iff.mp heq.symm
    exact hI
  | cons e h ih =>
    rw [throughout_cons]
    constructor
    · rintro ⟨he, hrest⟩ pre post heq
      cases pre with
      | nil => exact hI
      | cons e' pre =>
        cases heq
        exact (ih (hkeep _ _ hJ) ((hstep _ _ hJ hI).mpr he)).mp hrest pre post rfl
    intro hall
    have hnext : I (next start e) := hall [e] h rfl
    refine ⟨(hstep _ _ hJ hI).mp hnext, (ih (hkeep _ _ hJ) hnext).mpr fun pre post heq => ?_⟩
    exact hall (e :: pre) post (by rw [heq, cons_append])

instance decidableThroughout [∀ s e, Decidable (P s e)] (start : σ) :
    ∀ h : List ε, Decidable (Throughout next start P h)
  | [] => .isTrue throughout_nil
  | e :: h =>
    have := decidableThroughout (next start e) h
    decidable_of_iff (P start e ∧ Throughout next (next start e) P h) throughout_cons.symm

end Arcbox.Foundation.History

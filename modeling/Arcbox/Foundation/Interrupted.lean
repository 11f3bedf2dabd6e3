import Mathlib.Logic.Relation

/-!
# Programs that can be interrupted

A program over a state `σ` performs its operations one after another.  What becomes of each is
chosen from outside: it is carried out, it fails and changes nothing, or the process ends before
it.  A failure is an error the program may handle; the end of the process is not.

`Triple T P p Q R` says of every such choice: from a state in `P` the program moves by steps of
`T` only, wherever it is cut short, and if it comes to its end it returns in `Q` or raises in `R`.
An invariant that the steps of `T` keep is therefore kept by every run, killed or not.
-/

set_option autoImplicit false

namespace Arcbox.Foundation

/-- What becomes of one operation. -/
inductive Fate where
  | runs
  | fails
  | dies
deriving DecidableEq, Repr

/-- How a run comes to its end. -/
inductive Ending (ε α : Type) where
  | returned (value : α)
  | raised (error : ε)
  | killed
deriving DecidableEq, Repr

/-- A run consumes one fate an operation; where none is left, operations are carried out. -/
def Program (σ ε α : Type) : Type := List Fate → σ → Ending ε α × List Fate × σ

namespace Program

variable {σ ε α β : Type}

protected def pure (value : α) : Program σ ε α := fun fates s => (.returned value, fates, s)

variable (p : Program σ ε α)

protected def bind (next : α → Program σ ε β) : Program σ ε β :=
  fun fates s =>
    match p fates s with
    | (.returned value, rest, t) => next value rest t
    | (.raised error, rest, t) => (.raised error, rest, t)
    | (.killed, rest, t) => (.killed, rest, t)

instance : Monad (Program σ ε) where
  pure := Program.pure
  bind := Program.bind

/-- Stop with an error. -/
def raise (error : ε) : Program σ ε α := fun fates s => (.raised error, fates, s)

/-- A computation that touches nothing. -/
def lift : Except ε α → Program σ ε α
  | .ok value => pure value
  | .error error => raise error

/-- The errors of a program as values; a killed process stays killed. -/
def attempt : Program σ ε (Except ε α) :=
  fun fates s =>
    match p fates s with
    | (.returned value, rest, t) => (.returned (.ok value), rest, t)
    | (.raised error, rest, t) => (.returned (.error error), rest, t)
    | (.killed, rest, t) => (.killed, rest, t)

/-- A step of the program itself, which nothing interrupts. -/
def inner (f : σ → α × σ) : Program σ ε α := fun fates s => (.returned (f s).1, fates, (f s).2)

/-- Carry out an operation; one that finds an error changes nothing. -/
def perform (f : σ → Except ε (α × σ)) (fates : List Fate) (s : σ) : Ending ε α × List Fate × σ :=
  match f s with
  | .ok (value, t) => (.returned value, fates, t)
  | .error error => (.raised error, fates, s)

/-- One operation: it does `f`, or fails with `error` and changes nothing, or is not reached. -/
def operation (error : ε) (f : σ → Except ε (α × σ)) : Program σ ε α
  | [], s => perform f [] s
  | .runs :: rest, s => perform f rest s
  | .fails :: rest, s => (.raised error, rest, s)
  | .dies :: rest, s => (.killed, rest, s)

/-- The state a run leaves. -/
def leaves (fates : List Fate) (s : σ) : σ := (p fates s).2.2

/-! ## What holds of every run -/

def Meets (Q : α → σ → Prop) (R : ε → σ → Prop) : Ending ε α → σ → Prop
  | .returned value, t => Q value t
  | .raised error, t => R error t
  | .killed, _ => True

/-- Whatever the fates, a run from `P` moves by steps of `T` and returns in `Q` or raises in `R`,
unless it is killed on the way. -/
def Triple (T : σ → σ → Prop) (P : σ → Prop) (p : Program σ ε α) (Q : α → σ → Prop)
    (R : ε → σ → Prop) : Prop :=
  ∀ fates s, P s → Relation.ReflTransGen T s (p fates s).2.2 ∧
    Meets Q R (p fates s).1 (p fates s).2.2

variable {value : α} {f : σ → Except ε (α × σ)}
variable {p : Program σ ε α} {error : ε}

section Rules

variable {T : σ → σ → Prop} {P P' : σ → Prop} {Q Q' : α → σ → Prop} {R R' : ε → σ → Prop}

theorem Meets.imp {e : Ending ε α} {t : σ} (h : Meets Q R e t) (hreturned : ∀ a, Q a t → Q' a t)
    (hraised : ∀ x, R x t → R' x t) : Meets Q' R' e t := by
  cases e with
  | returned value => exact hreturned value h
  | raised error => exact hraised error h
  | killed => trivial

/-- Every run moves by steps of `T`. -/
theorem Triple.moves (h : Triple T P p Q R) (fates : List Fate) {s : σ} (hs : P s) :
    Relation.ReflTransGen T s (p.leaves fates s) := (h fates s hs).1

theorem Triple.consequence (h : Triple T P p Q R) (hpre : ∀ s, P' s → P s)
    (hreturned : ∀ a s, Q a s → Q' a s) (hraised : ∀ x s, R x s → R' x s) : Triple T P' p Q' R' :=
  fun fates s hs =>
    ⟨(h fates s (hpre s hs)).1,
      (h fates s (hpre s hs)).2.imp (fun a => hreturned a _) (fun x => hraised x _)⟩

theorem Triple.weaken (h : Triple T P p Q R) (hreturned : ∀ a s, Q a s → Q' a s)
    (hraised : ∀ x s, R x s → R' x s) : Triple T P p Q' R' :=
  h.consequence (fun _ => id) hreturned hraised

theorem Triple.strengthen (h : Triple T P p Q R) (hpre : ∀ s, P' s → P s) : Triple T P' p Q R :=
  h.consequence hpre (fun _ _ => id) (fun _ _ => id)

/-- What a precondition says about something other than the state may be assumed. -/
theorem Triple.assume {f : Prop} (hfact : ∀ s, P s → f) (h : f → Triple T P p Q R) :
    Triple T P p Q R := fun fates s hs => h (hfact s hs) fates s hs

theorem triple_pure (h : ∀ s, P s → Q value s) : Triple T P (pure value : Program σ ε α) Q R :=
  fun _ s hs => ⟨.refl, h s hs⟩

theorem triple_raise (h : ∀ s, P s → R error s) : Triple T P (raise error : Program σ ε α) Q R :=
  fun _ s hs => ⟨.refl, h s hs⟩

theorem triple_lift {e : Except ε α} (hok : ∀ value, e = .ok value → ∀ s, P s → Q value s)
    (herror : ∀ error, e = .error error → ∀ s, P s → R error s) : Triple T P (lift e) Q R := by
  cases e with
  | ok value => exact triple_pure (hok value rfl)
  | error error => exact triple_raise (herror error rfl)

theorem triple_inner {f : σ → α × σ} (hmove : ∀ s, P s → Relation.ReflTransGen T s (f s).2)
    (h : ∀ s, P s → Q (f s).1 (f s).2) : Triple T P (inner f : Program σ ε α) Q R :=
  fun _ s hs => ⟨hmove s hs, h s hs⟩

theorem Triple.bind {next : α → Program σ ε β} {Q' : β → σ → Prop} (hfirst : Triple T P p Q R)
    (hnext : ∀ value, Triple T (Q value) (next value) Q' R) : Triple T P (p >>= next) Q' R := by
  intro fates s hs
  obtain ⟨hmove, hmid⟩ := hfirst fates s hs
  change Relation.ReflTransGen T s (Program.bind p next fates s).2.2 ∧
    Meets Q' R (Program.bind p next fates s).1 (Program.bind p next fates s).2.2
  unfold Program.bind
  rcases hrun : p fates s with ⟨ending, rest, t⟩
  rw [hrun] at hmove hmid
  cases ending with
  | returned value =>
      obtain ⟨hrest, hend⟩ := hnext value rest t hmid
      exact ⟨hmove.trans hrest, hend⟩
  | raised error => exact ⟨hmove, hmid⟩
  | killed => exact ⟨hmove, trivial⟩

theorem Triple.attempt {Q' : Except ε α → σ → Prop} {R' : ε → σ → Prop}
    (h : Triple T P p (fun a => Q' (.ok a)) (fun x => Q' (.error x))) :
    Triple T P (Program.attempt p) Q' R' := by
  intro fates s hs
  obtain ⟨hmove, hend⟩ := h fates s hs
  unfold Program.attempt
  rcases hrun : p fates s with ⟨ending, rest, t⟩
  rw [hrun] at hmove hend
  cases ending with
  | returned | raised => exact ⟨hmove, hend⟩
  | killed => exact ⟨hmove, trivial⟩

theorem triple_operation
    (hok : ∀ s value t, P s → f s = .ok (value, t) → Relation.ReflTransGen T s t ∧ Q value t)
    (herror : ∀ s x, P s → f s = .error x → R x s) (hfails : ∀ s, P s → R error s) :
    Triple T P (operation error f) Q R := by
  have hperform : ∀ rest s, P s → Relation.ReflTransGen T s (perform f rest s).2.2 ∧
      Meets Q R (perform f rest s).1 (perform f rest s).2.2 := by
    intro rest s hs
    unfold perform
    cases hf : f s with
    | ok result => exact hok s result.1 result.2 hs hf
    | error x => exact ⟨.refl, herror s x hs hf⟩
  intro fates s hs
  rcases fates with _ | ⟨fate, rest⟩
  · exact hperform [] s hs
  cases fate with
  | runs => exact hperform rest s hs
  | fails => exact ⟨.refl, hfails s hs⟩
  | dies => exact ⟨.refl, trivial⟩

end Rules

theorem keeps_of_moves {T : σ → σ → Prop} {I : σ → Prop} (hstep : ∀ s t, I s → T s t → I t)
    {s t : σ} (hmoves : Relation.ReflTransGen T s t) (hs : I s) : I t := by
  induction hmoves with
  | refl => exact hs
  | tail _ hlast ih => exact hstep _ _ ih hlast

/-! ## Runs step by step -/

section Runs

variable {fates rest : List Fate} {s t : σ}

theorem bind_returned {next : α → Program σ ε β} (h : p fates s = (.returned value, rest, t)) :
    (p >>= next) fates s = next value rest t := by
  change Program.bind p next fates s = _
  unfold Program.bind
  rw [h]

theorem attempt_returned (h : p fates s = (.returned value, rest, t)) :
    attempt p fates s = (.returned (.ok value), rest, t) := by
  unfold attempt
  rw [h]

theorem attempt_raised (h : p fates s = (.raised error, rest, t)) :
    attempt p fates s = (.returned (.error error), rest, t) := by
  unfold attempt
  rw [h]

theorem operation_runs (h : f s = .ok (value, t)) :
    operation error f [] s = (.returned value, [], t) := by
  change perform f [] s = _
  unfold perform
  rw [h]

theorem operation_errs {x : ε} (h : f s = .error x) :
    operation error f [] s = (.raised x, [], s) := by
  change perform f [] s = _
  unfold perform
  rw [h]

theorem lift_ok {e : Except ε α} (h : e = .ok value) :
    lift e fates s = (.returned value, fates, s) := by
  subst h
  rfl

/-- A run that returns meets what is proved of every run. -/
theorem Triple.of_returned {T : σ → σ → Prop} {P : σ → Prop} {Q : α → σ → Prop} {R : ε → σ → Prop}
    (h : Triple T P p Q R) (hs : P s) (hrun : p fates s = (.returned value, rest, t)) :
    Q value t := by
  have hend := (h fates s hs).2
  rw [hrun] at hend
  exact hend

end Runs

end Program

end Arcbox.Foundation

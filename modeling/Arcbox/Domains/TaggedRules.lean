import Arcbox.Foundation.Table

set_option autoImplicit false

/-!
# Container domains: tagged rules

The rules an agent component owns in the nat PREROUTING chain carry a comment made of
the owner and the container.  The owner keeps a ledger of what it holds per container,
and replaces a container's rules as a set: the new ones go in, then the stale ones come
out, and every command of that may fail without effect.
-/

namespace Arcbox.Domains

open Foundation List

/-- One agent-owned rule: everything after the chain name. -/
structure NatRule where
  spec : List String
deriving DecidableEq, Repr

/-- The nat PREROUTING chain, first rule first. -/
abbrev Chain := List NatRule

/-- What the two commands of one rule change come to.  An `error` is what the tool
reported; a command that reports one has changed nothing. -/
inductive Attempt where
  | works
  | checkFails (error : String)
  | changeFails (error : String)
deriving DecidableEq, Repr

namespace NatRule

def new (owner containerId : String) (matching target : List String) : NatRule :=
  ⟨matching ++ ["-m", "comment", "--comment", owner ++ containerId] ++ target⟩

/-- The comment of the rule is `tag`. -/
def TaggedBy (rule : NatRule) (tag : String) : Prop :=
  ("--comment", tag) ∈ rule.spec.zip rule.spec.tail

instance (rule : NatRule) (tag : String) : Decidable (rule.TaggedBy tag) :=
  inferInstanceAs (Decidable (_ ∈ _))

def ensure (attempt : Attempt) (rule : NatRule) (chain : Chain) : Except String Chain :=
  match attempt with
  | .checkFails error => .error error
  | .changeFails error => if rule ∈ chain then .ok chain else .error error
  | .works => if rule ∈ chain then .ok chain else .ok (rule :: chain)

/-- Delete the rule if it is present. -/
def delete (attempt : Attempt) (rule : NatRule) (chain : Chain) : Except String Chain :=
  match attempt with
  | .checkFails error => .error error
  | .changeFails error => if rule ∈ chain then .error error else .ok chain
  | .works => if rule ∈ chain then .ok (chain.erase rule) else .ok chain

end NatRule

/-! ## One change for each of several rules -/

/-- What a pass over several rules has done. -/
structure Pass where
  done : List NatRule
  failed : List (NatRule × String)
  attempts : List Attempt
  chain : Chain
deriving DecidableEq, Repr

def pass (change : Attempt → NatRule → Chain → Except String Chain) :
    List NatRule → List Attempt → Chain → Pass
  | [], attempts, chain => ⟨[], [], attempts, chain⟩
  | rule :: rules, attempts, chain =>
    match change (attempts.headD .works) rule chain with
    | .ok chain' =>
      let rest := pass change rules attempts.tail chain'
      { rest with done := rule :: rest.done }
    | .error error =>
      let rest := pass change rules attempts.tail chain
      { rest with failed := (rule, error) :: rest.failed }

section Pass

variable {change : Attempt → NatRule → Chain → Except String Chain} {rule : NatRule}
  {rules : List NatRule} {attempts : List Attempt} {chain chain' : Chain} {error : String}

theorem pass_ok (h : change (attempts.headD .works) rule chain = .ok chain') :
    pass change (rule :: rules) attempts chain =
      { pass change rules attempts.tail chain' with
        done := rule :: (pass change rules attempts.tail chain').done } := by
  rw [pass, h]

theorem pass_error (h : change (attempts.headD .works) rule chain = .error error) :
    pass change (rule :: rules) attempts chain =
      { pass change rules attempts.tail chain with
        failed := (rule, error) :: (pass change rules attempts.tail chain).failed } := by
  rw [pass, h]

theorem pass_frame
    (hchange : ∀ {a r c c'}, change a r c = .ok c' → ∀ q, q ≠ r → c'.count q = c.count q)
    {q : NatRule} (hq : q ∉ rules) :
    (pass change rules attempts chain).chain.count q = chain.count q := by
  induction rules generalizing attempts chain with
  | nil => rfl
  | cons rule rules ih =>
    rw [mem_cons, not_or] at hq
    obtain ⟨hne, hrest⟩ := hq
    cases h : change (attempts.headD .works) rule chain with
    | ok chain' =>
      rw [pass_ok h]
      exact (ih hrest).trans (hchange h q hne)
    | error error =>
      rw [pass_error h]
      exact ih hrest

theorem pass_keeps {P : Chain → Prop}
    (hchange : ∀ {a r c c'}, change a r c = .ok c' → P c → P c') (h : P chain) :
    P (pass change rules attempts chain).chain := by
  induction rules generalizing attempts chain with
  | nil => exact h
  | cons rule rules ih =>
    cases heq : change (attempts.headD .works) rule chain with
    | ok chain' =>
      rw [pass_ok heq]
      exact ih (hchange heq h)
    | error error =>
      rw [pass_error heq]
      exact ih h

end Pass

/-! ## What the two changes do to the chain -/

section Changes

variable {attempt : Attempt} {rule q : NatRule} {chain chain' : Chain}

theorem ensure_ok (h : rule.ensure attempt chain = .ok chain') :
    rule ∈ chain' ∧ (chain' = chain ∨ chain' = rule :: chain) := by
  cases attempt with
  | works =>
    unfold NatRule.ensure at h
    dsimp only at h
    split at h
    case isTrue hmem =>
      cases h
      exact ⟨hmem, .inl rfl⟩
    case isFalse =>
      cases h
      exact ⟨mem_cons_self, .inr rfl⟩
  | checkFails error => cases h
  | changeFails error =>
    unfold NatRule.ensure at h
    dsimp only at h
    split at h
    case isTrue hmem =>
      cases h
      exact ⟨hmem, .inl rfl⟩
    case isFalse => cases h

theorem delete_ok (h : rule.delete attempt chain = .ok chain') : chain' = chain.erase rule := by
  cases attempt with
  | works =>
    unfold NatRule.delete at h
    dsimp only at h
    split at h
    case isTrue => cases h; rfl
    case isFalse hmem => cases h; exact (erase_of_not_mem hmem).symm
  | checkFails error => cases h
  | changeFails error =>
    unfold NatRule.delete at h
    dsimp only at h
    split at h
    case isTrue => cases h
    case isFalse hmem => cases h; exact (erase_of_not_mem hmem).symm

theorem ensure_frame (h : rule.ensure attempt chain = .ok chain') (hq : q ≠ rule) :
    chain'.count q = chain.count q := by
  obtain ⟨-, rfl | rfl⟩ := ensure_ok h
  · rfl
  · exact count_cons_of_ne hq.symm

theorem delete_frame (h : rule.delete attempt chain = .ok chain') (hq : q ≠ rule) :
    chain'.count q = chain.count q := by
  rw [delete_ok h]
  exact count_erase_of_ne hq

theorem ensure_keeps (h : rule.ensure attempt chain = .ok chain') (hq : q ∈ chain) :
    q ∈ chain' := by
  obtain ⟨-, rfl | rfl⟩ := ensure_ok h
  · exact hq
  · exact mem_cons_of_mem _ hq

end Changes

section Passes

variable {rules : List NatRule} {attempts : List Attempt} {chain : Chain} {q : NatRule}

theorem ensured_keeps (hq : q ∈ chain) : q ∈ (pass NatRule.ensure rules attempts chain).chain :=
  pass_keeps (P := (q ∈ ·)) ensure_keeps hq

theorem ensured_all (hfailed : (pass NatRule.ensure rules attempts chain).failed = []) :
    (pass NatRule.ensure rules attempts chain).done = rules ∧
      ∀ r ∈ rules, r ∈ (pass NatRule.ensure rules attempts chain).chain := by
  induction rules generalizing attempts chain with
  | nil => exact ⟨rfl, nofun⟩
  | cons rule rules ih =>
    cases h : rule.ensure (attempts.headD .works) chain with
    | ok chain' =>
      rw [pass_ok h] at hfailed ⊢
      obtain ⟨hdone, hall⟩ := ih hfailed
      exact ⟨congrArg (rule :: ·) hdone,
        forall_mem_cons.mpr ⟨ensured_keeps (ensure_ok h).1, hall⟩⟩
    | error error =>
      rw [pass_error h] at hfailed
      cases hfailed

theorem deleted_all (hfailed : (pass NatRule.delete rules attempts chain).failed = [])
    (q : NatRule) : (pass NatRule.delete rules attempts chain).chain.count q =
      chain.count q - rules.count q := by
  induction rules generalizing attempts chain with
  | nil => rfl
  | cons rule rules ih =>
    cases h : rule.delete (attempts.headD .works) chain with
    | ok chain' =>
      rw [pass_ok h] at hfailed ⊢
      refine (ih hfailed).trans ?_
      rw [delete_ok h]
      by_cases hq : q = rule
      · subst hq
        rw [count_erase_self, count_cons_self]
        omega
      · rw [count_erase_of_ne hq, count_cons_of_ne (Ne.symm hq)]
    | error error =>
      rw [pass_error h] at hfailed
      cases hfailed

end Passes

/-! ## The ledger -/

structure TaggedRules where
  owner : String
  held : Table String (List NatRule)
deriving DecidableEq

namespace TaggedRules

variable (t : TaggedRules) (id : String)

/-- What the ledger records for a container. -/
def heldFor : List NatRule := (t.held.lookup id).getD []

variable (rules : List NatRule) (attempts : List Attempt)

/-- The first half of a replacement: the new rules go in. -/
def installing (chain : Chain) : Pass := pass NatRule.ensure rules attempts chain

/-- The recorded rules that are no longer wanted. -/
def stale : List NatRule := (t.heldFor id).filter fun rule => rule ∉ rules

/-- The second half: the stale ones come out. -/
def removing (first : Pass) : Pass :=
  pass NatRule.delete (t.stale id rules) first.attempts first.chain

/-- Record what is left of the two halves. -/
def settle (held : List NatRule) : TaggedRules :=
  if held = [] then { t with held := t.held.erase id } else { t with held := t.held.insert id held }

/-- Make `rules` the container's whole set.  A stale rule that fails to come out stays
recorded for the next call. -/
def replace (chain : Chain) : Except String Unit × TaggedRules × Chain :=
  let first := installing rules attempts chain
  let second := t.removing id rules first
  let failures := (first.failed ++ second.failed).map Prod.snd
  (if failures = [] then .ok ()
    else .error (t.owner ++ " rule change(s) failed for " ++ id ++ ": " ++
      "; ".intercalate failures),
    t.settle id (first.done ++ second.failed.map Prod.fst), second.chain)

/-- Remove every rule held for the container. -/
def remove (chain : Chain) : Except String Unit × TaggedRules × Chain :=
  t.replace id [] attempts chain

variable {t : TaggedRules} {id other : String} {rules : List NatRule} {attempts : List Attempt}
  {chain : Chain} {q : NatRule}

@[simp] theorem heldFor_settle (held : List NatRule) : (t.settle id held).heldFor id = held := by
  unfold settle heldFor
  split
  case isTrue h =>
    rw [AList.lookup_erase, h]
    rfl
  case isFalse =>
    rw [AList.lookup_insert]
    rfl

theorem heldFor_settle_of_ne (held : List NatRule) (h : other ≠ id) :
    (t.settle id held).heldFor other = t.heldFor other := by
  unfold settle heldFor
  split
  case isTrue => rw [AList.lookup_erase_ne h]
  case isFalse => rw [AList.lookup_insert_ne h]

theorem mem_stale : q ∈ t.stale id rules ↔ q ∈ t.heldFor id ∧ q ∉ rules := by
  unfold stale
  rw [mem_filter, decide_eq_true_iff]

theorem count_stale (hq : q ∉ rules) : (t.stale id rules).count q = (t.heldFor id).count q := by
  exact count_filter (by simpa using hq)

/-! ## What a replacement leaves -/

theorem heldFor_replace_of_ne (h : other ≠ id) :
    (t.replace id rules attempts chain).2.1.heldFor other = t.heldFor other :=
  heldFor_settle_of_ne _ h

/-- A replacement that reports success has put every wanted rule in, and has taken out as
many occurrences of any other rule as the ledger recorded. -/
theorem replace_ok (h : (t.replace id rules attempts chain).1 = .ok ()) :
    (∀ r ∈ rules, r ∈ (t.replace id rules attempts chain).2.2) ∧
      ∀ r, r ∉ rules → (t.replace id rules attempts chain).2.2.count r =
        chain.count r - (t.heldFor id).count r := by
  have hfailures : ((installing rules attempts chain).failed ++
      (t.removing id rules (installing rules attempts chain)).failed).map Prod.snd = [] := by
    unfold replace at h
    dsimp only at h
    split at h
    case isTrue hnone => exact hnone
    case isFalse => cases h
  obtain ⟨hfirst, hsecond⟩ := append_eq_nil_iff.mp (map_eq_nil_iff.mp hfailures)
  have hcount := deleted_all hsecond
  refine ⟨fun r hr => ?_, fun r hr => ?_⟩
  · have hin : r ∈ (installing rules attempts chain).chain := (ensured_all hfirst).2 r hr
    have hnone : (t.stale id rules).count r = 0 :=
      count_eq_zero.mpr fun hmem => (mem_stale.mp hmem).2 hr
    have heq : (t.replace id rules attempts chain).2.2.count r =
        (installing rules attempts chain).chain.count r := by
      refine (hcount r).trans ?_
      rw [hnone, Nat.sub_zero]
    exact count_pos_iff.mp (heq ▸ count_pos_iff.mpr hin)
  · refine (hcount r).trans ?_
    rw [count_stale hr]
    exact congrArg (· - _) (pass_frame (fun h _ => ensure_frame h) hr)

end TaggedRules

end Arcbox.Domains

import Mathlib.Order.Basic
import Arcbox.Foundation.History
import Arcbox.Domains.TaggedRules

set_option autoImplicit false

/-!
# Container domains: what the ledger covers

A ledger is made up from the outcome of every command.  It covers the chain when each rule there
that carries a container's tag is recorded for that container.
-/

namespace Arcbox.Domains

open Foundation Foundation.History List NatRule TaggedRules

/-- The owner of the rules of the container domains. -/
def ruleOwner : String := "arcbox-domain:"

/-! ## Tags -/

/-- The comment on a container's rules. -/
def tagOf (id : String) : String := ruleOwner ++ id

/-- A rule of one container only. -/
def MadeFor (id : String) (rule : NatRule) : Prop :=
  ∀ other, rule.TaggedBy (tagOf other) ↔ other = id

theorem toList_tagOf (id : String) :
    (tagOf id).toList = 'a' :: ("rcbox-domain:".toList ++ id.toList) := by
  unfold tagOf ruleOwner
  rw [String.toList_append]
  rfl

theorem tagOf_inj {a b : String} (h : tagOf a = tagOf b) : a = b := by
  have hlist := congrArg String.toList h
  rw [toList_tagOf, toList_tagOf, List.cons.injEq, append_right_inj] at hlist
  exact String.toList_inj.mp hlist.2

theorem ne_tagOf {s : String} (hs : s.toList.head? ≠ some 'a') (id : String) : s ≠ tagOf id := by
  rintro rfl
  rw [toList_tagOf] at hs
  exact hs rfl

theorem madeFor_new (id ip port : String) {target flag : String} (destination : String)
    (htarget : target ≠ "--comment") (hflag : flag ≠ "--comment") :
    MadeFor id (NatRule.new ruleOwner id ["-d", ip, "-p", "tcp", "--dport", port]
      ["-j", target, flag, destination]) := by
  intro other
  have hp : tagOf other ≠ "-p" := (ne_tagOf (by decide) other).symm
  have hm : tagOf other ≠ "-m" := (ne_tagOf (by decide) other).symm
  have hj : tagOf other ≠ "-j" := (ne_tagOf (by decide) other).symm
  have htag : tagOf other = ruleOwner ++ id ↔ other = id := ⟨tagOf_inj, fun h => congrArg tagOf h⟩
  unfold NatRule.TaggedBy NatRule.new
  simp [hp, hm, hj, htag, htarget.symm, hflag.symm]

def Attempt.checks : Attempt → Bool
  | .checkFails _ => false
  | _ => true

/-- One call of `replace`, or of `remove` where no rule is wanted. -/
structure Call (owner : String) where
  id : String
  rules : List NatRule
  attempts : List Attempt
  made : ∀ rule ∈ rules, ∀ other, rule.TaggedBy (owner ++ other) ↔ other = id

variable {owner : String}

def calling (s : TaggedRules × Chain) (c : Call owner) : TaggedRules × Chain :=
  (s.1.replace c.id c.rules c.attempts s.2).2

def ChecksHeld (s : TaggedRules × Chain) (c : Call owner) : Prop :=
  ∀ p ∈ c.rules.zip c.attempts, p.1 ∈ s.2 → p.2.checks = true

instance (s : TaggedRules × Chain) (c : Call owner) : Decidable (ChecksHeld s c) :=
  inferInstanceAs (Decidable (∀ p ∈ _, _))

section

variable {rules : List NatRule} {attempts : List Attempt} {chain : Chain} {q : NatRule}

/-- A wanted rule that is in the chain after the first half is recorded. -/
theorem ensured_done (hrules : q ∈ rules)
    (hcheck : ∀ p ∈ rules.zip attempts, p.1 = q → q ∈ chain → p.2.checks = true)
    (hq : q ∈ (pass ensure rules attempts chain).chain) :
    q ∈ (pass ensure rules attempts chain).done := by
  induction rules generalizing attempts chain with
  | nil => cases hrules
  | cons rule rules ih =>
    have hzip : ∀ p ∈ rules.zip attempts.tail, p ∈ (rule :: rules).zip attempts := by
      cases attempts with
      | nil => simp
      | cons => exact fun _ => mem_cons_of_mem _
    cases h : rule.ensure (attempts.headD .works) chain with
    | ok chain' =>
      rw [pass_ok h] at hq ⊢
      by_cases heq : q = rule
      · exact heq ▸ mem_cons_self
      refine mem_cons_of_mem _ (ih ((mem_cons.mp hrules).resolve_left heq) ?_ hq)
      intro p hp hpq hin
      have hcount := ensure_frame h heq
      exact hcheck p (hzip p hp) hpq (count_pos_iff.mp (hcount ▸ count_pos_iff.mpr hin))
    | error error =>
      rw [pass_error h] at hq ⊢
      by_cases hrest : q ∈ rules
      · exact ih hrest (fun p hp => hcheck p (hzip p hp)) hq
      -- The command has failed for a rule that was in the chain, so its check has.
      cases (mem_cons.mp hrules).resolve_right hrest
      rw [← count_pos_iff, pass_frame (fun h _ => ensure_frame h) hrest, count_pos_iff] at hq
      cases attempts with
      | nil => simp [ensure, hq] at h
      | cons a attempts =>
        have hchecks := hcheck (q, a) mem_cons_self rfl hq
        cases a with
        | checkFails => cases hchecks
        | works => simp [ensure, hq] at h
        | changeFails => simp [ensure, hq] at h

/-- A stale rule that is still in the chain after the second half is recorded. -/
theorem deleted_failed (hrules : q ∈ rules) (hone : chain.count q ≤ 1)
    (hq : q ∈ (pass delete rules attempts chain).chain) :
    q ∈ (pass delete rules attempts chain).failed.map Prod.fst := by
  induction rules generalizing attempts chain with
  | nil => cases hrules
  | cons rule rules ih =>
    cases h : rule.delete (attempts.headD .works) chain with
    | ok chain' =>
      rw [pass_ok h] at hq ⊢
      cases delete_ok h
      by_cases hrest : q ∈ rules
      · exact ih hrest ((erase_sublist.count_le q).trans hone) hq
      · cases (mem_cons.mp hrules).resolve_right hrest
        rw [← count_pos_iff, pass_frame (fun h _ => delete_frame h) hrest, count_erase_self] at hq
        omega
    | error error =>
      rw [pass_error h] at hq ⊢
      by_cases heq : q = rule
      · exact heq ▸ mem_cons_self
      · exact mem_cons_of_mem _ (ih ((mem_cons.mp hrules).resolve_left heq) hone hq)

theorem ensure_single {rule : NatRule} {attempt : Attempt} {chain' : Chain}
    (h : rule.ensure attempt chain = .ok chain') (hone : chain.count q ≤ 1) :
    chain'.count q ≤ 1 := by
  by_cases heq : q = rule
  · subst heq
    by_cases hin : q ∈ chain
    · have hsame : chain = chain' := by
        cases attempt <;> simp only [ensure, if_pos hin, Except.ok.injEq, reduceCtorEq] at h <;> exact h
      exact hsame ▸ hone
    · obtain ⟨-, rfl | rfl⟩ := ensure_ok h
      · exact hone
      · rw [count_cons_self, count_eq_zero.mpr hin]
  · exact (ensure_frame h heq).trans_le hone

theorem count_ensured_le (hone : chain.count q ≤ 1) :
    (pass ensure rules attempts chain).chain.count q ≤ 1 :=
  pass_keeps (P := fun chain => chain.count q ≤ 1) ensure_single hone

theorem count_deleted_le : (pass delete rules attempts chain).chain.count q ≤ chain.count q := by
  refine pass_keeps (P := fun chain' => chain'.count q ≤ chain.count q) (fun h hle => ?_) le_rfl
  rw [delete_ok h]
  exact (erase_sublist.count_le q).trans hle

end

structure Covers (owner : String) (s : TaggedRules × Chain) : Prop where
  held : ∀ id, ∀ q ∈ s.2, q.TaggedBy (owner ++ id) → q ∈ s.1.heldFor id
  once : ∀ id q, q.TaggedBy (owner ++ id) → s.2.count q ≤ 1

/-- No call puts a second copy of a rule into the chain, whatever fails. -/
theorem single_calling {s : TaggedRules × Chain} {q : NatRule} (hone : s.2.count q ≤ 1)
    (c : Call owner) : (calling s c).2.count q ≤ 1 :=
  count_deleted_le.trans (count_ensured_le hone)

theorem covers_calling {s : TaggedRules × Chain} {c : Call owner} (h : Covers owner s)
    (hchecks : ChecksHeld s c) : Covers owner (calling s c) := by
  obtain ⟨t, chain⟩ := s
  obtain ⟨id, rules, attempts, made⟩ := c
  refine ⟨fun other q hq htag => ?_, fun other q htag => single_calling (h.once other q htag) _⟩
  have hfirst : q ∈ (pass ensure rules attempts chain).chain :=
    count_pos_iff.mp ((count_pos_iff.mpr hq).trans_le count_deleted_le)
  by_cases hrules : q ∈ rules
  · cases (made q hrules other).mp htag
    have hdone := ensured_done hrules (fun p hp heq hin => hchecks p hp (heq ▸ hin)) hfirst
    exact (heldFor_settle _).symm ▸ mem_append_left _ hdone
  rw [← count_pos_iff, pass_frame (fun h _ => ensure_frame h) hrules, count_pos_iff] at hfirst
  have hheld := h.held other q hfirst htag
  by_cases hid : other = id
  · subst hid
    have hfailed := deleted_failed (mem_stale.mpr ⟨hheld, hrules⟩)
      (count_ensured_le (h.once other q htag)) hq
    exact (heldFor_settle _).symm ▸ mem_append_right _ hfailed
  · exact (heldFor_replace_of_ne hid).symm ▸ hheld

/-- A rule of the owner is never in the chain twice.  Where no check fails for a wanted rule that
is in the chain, every rule of the owner there is recorded, so that a removal that succeeds leaves
none. -/
theorem ledger_forgets_nothing (owner : String) (chain : Chain)
    (hnone : ∀ q ∈ chain, ∀ id, ¬ q.TaggedBy (owner ++ id)) (calls : List (Call owner)) :
    let s := after calling (⟨owner, ∅⟩, chain) calls
    (∀ id q, q.TaggedBy (owner ++ id) → s.2.count q ≤ 1) ∧
    (Throughout calling (⟨owner, ∅⟩, chain) ChecksHeld calls →
      Covers owner s ∧ ∀ id attempts, (s.1.remove id attempts s.2).1 = .ok () →
        ∀ q ∈ (s.1.remove id attempts s.2).2.2, ¬ q.TaggedBy (owner ++ id)) := by
  intro s
  have hstart : ∀ id q, q.TaggedBy (owner ++ id) → chain.count q ≤ 1 := by
    intro id q htag
    rw [count_eq_zero.mpr fun hq => hnone q hq id htag]
    exact Nat.zero_le 1
  refine ⟨fun id q htag => ?_, fun hchecks => ?_⟩
  · exact foldlRecOn (motive := fun s : TaggedRules × Chain => s.2.count q ≤ 1) _ _
      (hstart id q htag) fun _ hone c _ => single_calling hone c
  have hcovers : Covers owner s := by
    refine keeps (fun s c => covers_calling) ⟨fun id q hq htag => ?_, hstart⟩ hchecks
    exact absurd htag (hnone q hq id)
  refine ⟨hcovers, fun id attempts hok q hq htag => ?_⟩
  have hcount := (replace_ok hok).2 q not_mem_nil
  have hpos := count_pos_iff.mpr hq
  have hin : q ∈ s.2 := count_pos_iff.mp (by unfold remove at hpos; omega)
  have hheld := count_pos_iff.mpr (hcovers.held id q hin htag)
  have hone := hcovers.once id q htag
  unfold remove at hpos
  omega

/-- One rule of the container `web`. -/
def webRule : NatRule :=
  .new ruleOwner "web" ["-d", "10.0.0.2", "-p", "tcp", "--dport", "80"]
    ["-j", "DNAT", "--to-destination", "10.0.0.2:8080"]

def wanting (attempts : List Attempt) : Call ruleOwner where
  id := "web"
  rules := [webRule]
  attempts := attempts
  made := forall_mem_singleton.mpr
    (madeFor_new "web" "10.0.0.2" "80" "10.0.0.2:8080" (by decide) (by decide))

theorem ledger_forgets_nothing_failing :
    let s := after calling (⟨ruleOwner, ∅⟩, []) [wanting [.checkFails "lock"], wanting []]
    Covers ruleOwner s ∧ ∀ id attempts, (s.1.remove id attempts s.2).1 = .ok () →
      ∀ q ∈ (s.1.remove id attempts s.2).2.2, ¬ q.TaggedBy (ruleOwner ++ id) :=
  (ledger_forgets_nothing ruleOwner [] nofun _).2 (by decide +kernel)

/-- The check of a rule that is wanted again fails: it is forgotten, and a removal leaves it. -/
theorem held_rule_forgotten :
    let s := after calling (⟨ruleOwner, ∅⟩, []) [wanting [], wanting [.checkFails "lock"]]
    webRule ∈ s.2 ∧ webRule.TaggedBy (ruleOwner ++ "web") ∧ webRule ∉ s.1.heldFor "web" ∧
      (s.1.remove "web" [] s.2).1 = .ok () ∧ webRule ∈ (s.1.remove "web" [] s.2).2.2 := by
  decide +kernel

end Arcbox.Domains

import Arcbox.Foundation.History
import Arcbox.Foundation.Table

set_option autoImplicit false

/-!
# Runner agent: enrollment and the stored credential

`Enroll` exchanges a token for a credential, persists the settings and the credential, and
attaches.  `Unenroll` takes the agent down, becomes enrollable again and only then tells the
gateway and clears the store.  The participation reconciler detaches and reattaches in between.
Every access between two awaits is a step, and so is each of the writes an enrollment ends with.
-/

namespace Arcbox.Runner.Enrollment

open Foundation Foundation.History Function

abbrev Gateway := String

structure Credential where
  hostId : String
  hostToken : String
deriving DecidableEq, Repr

/-- Where credentials are kept: one owner-only file, or a keychain. -/
inductive Backing where
  | file
  | keyring
deriving DecidableEq, Repr

def slotOf : Backing → Gateway → Option Gateway
  | .file, _ => none
  | .keyring, gateway => some gateway

/-! ## The state -/

inductive State where
  | unenrolled
  | enrolling
  | unenrolling
  | detaching
  | detached (credential : Credential) (credentialGateway : Gateway)
  | attached (credential : Credential) (credentialGateway : Gateway)
deriving DecidableEq, Repr

/-- How far the one enrollment under way has come. -/
inductive Enrolling where
  | asking (controlPlane : Option Gateway) (gateway : Gateway)
  | persisting (controlPlane : Option Gateway) (gateway : Gateway) (credential : Credential)
  | storing (gateway : Gateway) (credential : Credential)
  | attaching (gateway : Gateway) (credential : Credential)
  | failing
deriving DecidableEq, Repr

/-- How far an unenroll has come: until the attach task has stopped, and from then on. -/
inductive Leaving where
  | joining (credential : Credential) (gateway : Gateway)
  | clearing (credential : Credential) (gateway : Gateway)
deriving DecidableEq, Repr

/-- What the store has seen. -/
inductive Event where
  | stored (slot : Option Gateway) (credential : Credential)
  /-- An unenroll has returned without error. -/
  | unenrolled (slot : Option Gateway)
deriving DecidableEq, Repr

structure Agent where
  state : State
  enroll : Option Enrolling
  unenrolls : Nat → Option Leaving
  nextUnenroll : Nat
  /-- The attachment the reconciler is taking down. -/
  reconciler : Option (Credential × Gateway)
  gatewayTarget : Gateway
  settingsGateway : Gateway
  store : Option Gateway → Option Credential
  log : List Event

def Agent.startup (backing : Backing) (participate : Bool) (gateway : Gateway)
    (store : Option Gateway → Option Credential) (log : List Event) : Agent where
  state :=
    match store (slotOf backing gateway) with
    | none => .unenrolled
    | some credential =>
      if participate then .attached credential gateway else .detached credential gateway
  enroll := none
  unenrolls := fun _ => none
  nextUnenroll := 0
  reconciler := none
  gatewayTarget := gateway
  settingsGateway := gateway
  store := store
  log := log

/-! ## Moves -/

/-- How the write of the credential ends: an error may come before or after the write. -/
inductive Written where
  | stored
  | failed (written : Bool)
deriving DecidableEq, Repr

inductive Move where
  | enroll (controlPlane : Option Gateway)
  /-- The gateway's answer: a credential, or none whatever the failure. -/
  | answer (credential : Option Credential)
  | persistSettings (works : Bool)
  | storeCredential (outcome : Written)
  | attach
  | rollBack
  | unenroll
  | joined (id : Nat)
  /-- The gateway has been told, or not; the store is cleared regardless. -/
  | clear (id : Nat) (works : Bool)
  | reconcile (participate : Bool)
  | detached
  | restart (participate : Bool)
deriving DecidableEq, Repr

namespace Agent

def save (s : Agent) (slot : Option Gateway) (credential : Credential) : Agent :=
  { s with
    store := Function.update s.store slot (some credential)
    log := s.log ++ [.stored slot credential] }

def leave (s : Agent) (credential : Credential) (gateway : Gateway) : Agent :=
  { s with
    state := .unenrolling
    unenrolls := Function.update s.unenrolls s.nextUnenroll (some (.joining credential gateway))
    nextUnenroll := s.nextUnenroll + 1 }

def clearStore (backing : Backing) (s : Agent) (id : Nat) (gateway : Gateway) (works : Bool) :
    Agent :=
  if works then
    { s with
      unenrolls := Function.update s.unenrolls id none
      store := Function.update s.store (slotOf backing gateway) none
      log := s.log ++ [.unenrolled (slotOf backing gateway)] }
  else { s with unenrolls := Function.update s.unenrolls id none }

def reconcileParticipation (s : Agent) (participate : Bool) : Agent :=
  match s.state, participate with
  | .attached credential gateway, false =>
    { s with state := .detaching, reconciler := some (credential, gateway) }
  | .detached credential gateway, true => { s with state := .attached credential gateway }
  | _, _ => s

def next (backing : Backing) (s : Agent) : Move → Agent
  | .enroll controlPlane =>
    match s.state with
    | .unenrolled =>
      { s with
        state := .enrolling
        enroll := some (.asking controlPlane (controlPlane.getD s.gatewayTarget)) }
    | _ => s
  | .answer response =>
    match s.enroll, response with
    | some (.asking controlPlane gateway), some credential =>
      { s with enroll := some (.persisting controlPlane gateway credential) }
    | some (.asking _ _), none => { s with enroll := some .failing }
    | _, _ => s
  | .persistSettings works =>
    match s.enroll with
    | some (.persisting controlPlane gateway credential) =>
      -- The target moves before the settings are written, and stays when that fails.
      let target := controlPlane.getD s.gatewayTarget
      if works then
        { s with
          gatewayTarget := target
          settingsGateway := target
          enroll := some (.storing gateway credential) }
      else { s with gatewayTarget := target, enroll := some .failing }
    | _ => s
  | .storeCredential outcome =>
    match s.enroll with
    | some (.storing gateway credential) =>
      match outcome with
      | .stored =>
        { s.save (slotOf backing gateway) credential with
          enroll := some (.attaching gateway credential) }
      | .failed true =>
        { s.save (slotOf backing gateway) credential with enroll := some .failing }
      | .failed false => { s with enroll := some .failing }
    | _ => s
  | .attach =>
    match s.enroll with
    | some (.attaching gateway credential) =>
      { s with state := .attached credential gateway, enroll := none }
    | _ => s
  | .rollBack =>
    match s.enroll with
    | some .failing => { s with state := .unenrolled, enroll := none }
    | _ => s
  | .unenroll =>
    match s.state with
    | .attached credential gateway => s.leave credential gateway
    | .detached credential gateway => s.leave credential gateway
    | _ => s
  | .joined id =>
    match s.unenrolls id with
    | some (.joining credential gateway) =>
      { s with
        state := .unenrolled
        unenrolls := Function.update s.unenrolls id (some (.clearing credential gateway)) }
    | _ => s
  | .clear id works =>
    match s.unenrolls id with
    | some (.clearing _ gateway) => s.clearStore backing id gateway works
    | _ => s
  | .reconcile participate =>
    match s.reconciler with
    | none => s.reconcileParticipation participate
    | some _ => s
  | .detached =>
    match s.reconciler with
    | some (credential, gateway) =>
      { s with state := .detached credential gateway, reconciler := none }
    | none => s
  | .restart participate => startup backing participate s.settingsGateway s.store s.log

end Agent

/-! ## What is in use -/

def liveAs (state : State) (enroll : Option Enrolling)
    (reconciler : Option (Credential × Gateway)) : Option (Credential × Gateway) :=
  match state with
  | .attached credential gateway => some (credential, gateway)
  | .detached credential gateway => some (credential, gateway)
  | .detaching => reconciler
  | .enrolling =>
    match enroll with
    | some (.attaching gateway credential) => some (credential, gateway)
    | _ => none
  | .unenrolling => none
  | .unenrolled => none

def Agent.enrolledAs (s : Agent) : Option (Credential × Gateway) :=
  liveAs s.state s.enroll s.reconciler

def Agent.untimely (backing : Backing) (s : Agent) : Move → Bool
  | .clear id true =>
    match s.unenrolls id, s.enrolledAs with
    | some (.clearing _ gateway), some (_, live) => slotOf backing gateway = slotOf backing live
    | _, _ => false
  | _ => false

def emptied (slot : Option Gateway) (before : Bool) : Event → Bool
  | .stored slot' _ => if slot' = slot then false else before
  | .unenrolled slot' => if slot' = slot then true else before

/-! ## The invariant -/

structure Agent.Sound (backing : Backing) (s : Agent) : Prop where
  enrolling : ∀ e, s.enroll = some e → s.state = .enrolling
  detaching : ∀ held, s.reconciler = some held → s.state = .detaching
  leaving : ∀ id credential gateway, s.unenrolls id = some (.joining credential gateway) →
    s.state = .unenrolling
  single : ∀ a b ca ga cb gb, s.unenrolls a = some (.joining ca ga) →
    s.unenrolls b = some (.joining cb gb) → a = b
  asked : ∀ controlPlane gateway, s.enroll = some (.asking controlPlane gateway) →
    gateway = controlPlane.getD s.gatewayTarget
  answered : ∀ controlPlane gateway credential,
    s.enroll = some (.persisting controlPlane gateway credential) →
    gateway = controlPlane.getD s.gatewayTarget
  persisted : ∀ gateway credential, s.enroll = some (.storing gateway credential) →
    s.settingsGateway = gateway
  stored : ∀ credential gateway, s.enrolledAs = some (credential, gateway) →
    s.store (slotOf backing gateway) = some credential ∧ s.settingsGateway = gateway
  emptied : ∀ slot, after (emptied slot) false s.log = true → s.store slot = none

namespace Agent

variable {backing : Backing} {s : Agent}

theorem sound_startup (participate : Bool) (gateway : Gateway)
    (store : Option Gateway → Option Credential) {log : List Event}
    (hlog : ∀ slot, after (emptied slot) false log = true → store slot = none) :
    Sound backing (startup backing participate gateway store log) where
  enrolling := nofun
  detaching := nofun
  leaving := nofun
  single := nofun
  asked := nofun
  answered := nofun
  persisted := nofun
  stored := by
    intro credential gateway' h
    unfold enrolledAs liveAs startup at h
    cases hstore : store (slotOf backing gateway) with
    | none =>
      rw [hstore] at h
      cases h
    | some held =>
      rw [hstore] at h
      cases participate <;> cases h <;> exact ⟨hstore, rfl⟩
  emptied := hlog

/-! ## Enrolling -/

/-- A step of the enrollment that has not stored its credential, and will not attach by it. -/
theorem Sound.setEnroll (h : Sound backing s) (hstate : s.state = .enrolling) {e : Enrolling}
    {target settings : Gateway}
    (hasked : ∀ controlPlane gateway, e = .asking controlPlane gateway →
      gateway = controlPlane.getD target)
    (hanswered : ∀ controlPlane gateway credential,
      e = .persisting controlPlane gateway credential → gateway = controlPlane.getD target)
    (hpersisted : ∀ gateway credential, e = .storing gateway credential → settings = gateway)
    (hne : ∀ gateway credential, e ≠ .attaching gateway credential) :
    Sound backing
      { s with
        enroll := some e
        gatewayTarget := target
        settingsGateway := settings } where
  __ := h
  enrolling := fun _ _ => hstate
  asked := fun _ _ heq => hasked _ _ (Option.some.inj heq)
  answered := fun _ _ _ heq => hanswered _ _ _ (Option.some.inj heq)
  persisted := fun _ _ heq => hpersisted _ _ (Option.some.inj heq)
  stored := by
    intro credential gateway heq
    rw [hstate] at heq
    cases e with
    | attaching gateway credential => exact absurd rfl (hne gateway credential)
    | asking | persisting | storing | failing => cases heq

theorem sound_enroll (h : Sound backing s) (hstate : s.state = .unenrolled)
    (controlPlane : Option Gateway) :
    Sound backing
      { s with
        state := .enrolling
        enroll := some (.asking controlPlane (controlPlane.getD s.gatewayTarget)) } where
  __ := h
  enrolling := fun _ _ => rfl
  detaching := by
    intro held hheld
    have hbefore := h.detaching held hheld
    rw [hstate] at hbefore
    cases hbefore
  leaving := by
    intro id credential gateway hjoining
    have hbefore := h.leaving id credential gateway hjoining
    rw [hstate] at hbefore
    cases hbefore
  asked := by
    intro _ _ heq
    cases heq
    rfl
  answered := nofun
  persisted := nofun
  stored := nofun

theorem sound_answer (h : Sound backing s) (response : Option Credential) :
    Sound backing (s.next backing (.answer response)) := by
  unfold next
  dsimp only
  split
  next controlPlane gateway credential henroll =>
    have hasked := h.asked controlPlane gateway henroll
    refine h.setEnroll (h.enrolling _ henroll) nofun ?_
      nofun nofun
    intro _ _ _ heq
    cases heq
    exact hasked
  next henroll =>
    exact h.setEnroll (h.enrolling _ henroll) nofun
      nofun nofun
      nofun
  · exact h

theorem sound_persistSettings (h : Sound backing s) (works : Bool) :
    Sound backing (s.next backing (.persistSettings works)) := by
  unfold next
  dsimp only
  split
  next controlPlane gateway credential henroll =>
    have hanswered := h.answered controlPlane gateway credential henroll
    split
    · refine h.setEnroll (h.enrolling _ henroll) nofun
        nofun ?_ nofun
      intro _ _ heq
      cases heq
      exact hanswered.symm
    · exact h.setEnroll (h.enrolling _ henroll) nofun
        nofun nofun
        nofun
  · exact h

theorem emptied_save (hlog : ∀ slot, after (emptied slot) false s.log = true → s.store slot = none)
    (saved : Option Gateway) (credential : Credential) (slot : Option Gateway)
    (h : after (emptied slot) false (s.save saved credential).log = true) :
    (s.save saved credential).store slot = none := by
  change after (emptied slot) false (s.log ++ [.stored saved credential]) = true at h
  rw [after_append, after_cons, after_nil] at h
  unfold emptied at h
  dsimp only at h
  by_cases hslot : saved = slot
  · rw [if_pos hslot] at h
    cases h
  · rw [if_neg hslot] at h
    exact (update_of_ne (Ne.symm hslot) _ _).trans (hlog slot h)

section

variable (h : Sound backing s)

include h

/-- The credential is written while the state lets nobody else in. -/
theorem sound_save {gateway : Gateway} {credential : Credential}
    (henroll : s.enroll = some (.storing gateway credential)) {e : Enrolling}
    (he : e = .attaching gateway credential ∨ e = .failing) :
    Sound backing { s.save (slotOf backing gateway) credential with enroll := some e } := by
  have hstate := h.enrolling _ henroll
  refine
    { h with enrolling := fun _ _ => hstate, asked := ?_, answered := ?_, persisted := ?_,
             stored := ?_, emptied := ?_ }
  · rintro _ _ heq
    rcases he with rfl | rfl <;> cases heq
  · rintro _ _ _ heq
    rcases he with rfl | rfl <;> cases heq
  · rintro _ _ heq
    rcases he with rfl | rfl <;> cases heq
  · intro credential' gateway' heq
    change liveAs s.state (some e) s.reconciler = _ at heq
    rw [hstate] at heq
    rcases he with rfl | rfl
    · cases heq
      exact ⟨update_self _ _ _, h.persisted gateway credential henroll⟩
    · cases heq
  · exact fun slot hslot => emptied_save h.emptied (slotOf backing gateway) credential slot hslot

theorem sound_storeCredential (outcome : Written) :
    Sound backing (s.next backing (.storeCredential outcome)) := by
  unfold next
  dsimp only
  split
  next gateway credential henroll =>
    cases outcome with
    | stored => exact sound_save h henroll (.inl rfl)
    | failed written =>
      cases written with
      | true => exact sound_save h henroll (.inr rfl)
      | false =>
        exact h.setEnroll (h.enrolling _ henroll) nofun
          nofun nofun
          nofun
  · exact h

theorem Sound.endEnroll {e : Enrolling} (henroll : s.enroll = some e) {state : State}
    (hstored : ∀ credential gateway, liveAs state none s.reconciler = some (credential, gateway) →
      s.store (slotOf backing gateway) = some credential ∧ s.settingsGateway = gateway) :
    Sound backing { s with state := state, enroll := none } := by
  have hbefore := h.enrolling e henroll
  refine
    { h with enrolling := nofun, detaching := ?_, leaving := ?_,
             asked := nofun, answered := nofun,
             persisted := nofun, stored := hstored }
  · intro held hheld
    have hdetaching := h.detaching held hheld
    rw [hbefore] at hdetaching
    cases hdetaching
  intro id credential gateway hjoining
  have hleaving := h.leaving id credential gateway hjoining
  rw [hbefore] at hleaving
  cases hleaving

theorem sound_attach : Sound backing (s.next backing .attach) := by
  unfold next
  dsimp only
  split
  next gateway credential henroll =>
    refine h.endEnroll henroll fun credential' gateway' heq => ?_
    cases heq
    refine h.stored credential gateway ?_
    unfold enrolledAs
    rw [h.enrolling _ henroll, henroll]
    rfl
  · exact h

theorem sound_rollBack : Sound backing (s.next backing .rollBack) := by
  unfold next
  dsimp only
  split
  next henroll =>
    exact h.endEnroll henroll nofun
  · exact h

/-! ## Unenrolling -/

theorem Sound.enroll_eq_none (hstate : s.state ≠ .enrolling) : s.enroll = none := by
  cases henroll : s.enroll with
  | none => rfl
  | some e => exact absurd (h.enrolling e henroll) hstate

theorem Sound.reconciler_eq_none (hstate : s.state ≠ .detaching) : s.reconciler = none := by
  cases hheld : s.reconciler with
  | none => rfl
  | some held => exact absurd (h.detaching held hheld) hstate

theorem Sound.no_joining (hstate : s.state ≠ .unenrolling) (id : Nat) (credential : Credential)
    (gateway : Gateway) : s.unenrolls id ≠ some (.joining credential gateway) :=
  fun hjoining => hstate (h.leaving id credential gateway hjoining)

theorem Sound.setState (henroll : s.enroll = none) {state : State}
    {unenrolls : Nat → Option Leaving} {nextUnenroll : Nat}
    {reconciler : Option (Credential × Gateway)}
    (hheld : ∀ held, reconciler = some held → state = .detaching)
    (hleaving : ∀ id credential gateway, unenrolls id = some (.joining credential gateway) →
      state = .unenrolling)
    (hsingle : ∀ a b ca ga cb gb, unenrolls a = some (.joining ca ga) →
      unenrolls b = some (.joining cb gb) → a = b)
    (hstored : ∀ credential gateway, liveAs state none reconciler = some (credential, gateway) →
      s.enrolledAs = some (credential, gateway)) :
    Sound backing
      { s with
        state := state
        unenrolls := unenrolls
        nextUnenroll := nextUnenroll
        reconciler := reconciler } := by
  have hnone : ∀ e, s.enroll ≠ some e := by
    intro e heq
    rw [henroll] at heq
    cases heq
  refine
    { enrolling := fun e heq => absurd heq (hnone e)
      detaching := hheld
      leaving := hleaving
      single := hsingle
      asked := h.asked
      answered := h.answered
      persisted := h.persisted
      stored := fun credential gateway heq => ?_
      emptied := h.emptied }
  rw [henroll] at heq
  exact h.stored credential gateway (hstored credential gateway heq)

theorem sound_leave {credential : Credential} {gateway : Gateway}
    (hstate : s.state = .attached credential gateway ∨ s.state = .detached credential gateway) :
    Sound backing (s.leave credential gateway) := by
  have hnoEnroll : s.state ≠ .enrolling := by
    rcases hstate with heq | heq <;> rw [heq] <;> exact nofun
  have hnoHeld : s.state ≠ .detaching := by
    rcases hstate with heq | heq <;> rw [heq] <;> exact nofun
  have hnoJoining := h.no_joining (by
    rcases hstate with heq | heq <;> rw [heq] <;> exact nofun)
  have hnew : ∀ {id c g}, Function.update s.unenrolls s.nextUnenroll
      (some (.joining credential gateway)) id = some (.joining c g) → id = s.nextUnenroll := by
    intro id c g hjoining
    by_contra hid
    rw [update_of_ne hid] at hjoining
    exact hnoJoining id c g hjoining
  have hheld := h.reconciler_eq_none hnoHeld
  refine h.setState (h.enroll_eq_none hnoEnroll) (fun held hsome => ?_) (fun _ _ _ _ => rfl)
    (fun a b _ _ _ _ ha hb => (hnew ha).trans (hnew hb).symm) nofun
  rw [hheld] at hsome
  cases hsome

theorem sound_unenroll : Sound backing (s.next backing .unenroll) := by
  unfold next
  dsimp only
  split
  · exact sound_leave h (.inl ‹_›)
  · exact sound_leave h (.inr ‹_›)
  · exact h

/-- The attach task has stopped: the agent is enrollable again, with its store still full. -/
theorem sound_joined (id : Nat) : Sound backing (s.next backing (.joined id)) := by
  unfold next
  dsimp only
  split
  next credential gateway hjoining =>
    have hstate := h.leaving id credential gateway hjoining
    have hheld : s.reconciler = none :=
      h.reconciler_eq_none (by rw [hstate]; exact nofun)
    have hgone : ∀ {id' c g}, Function.update s.unenrolls id
        (some (.clearing credential gateway)) id' ≠ some (.joining c g) := by
      intro id' c g heq
      rcases of_update_some heq with ⟨-, hsame⟩ | ⟨hid, heq⟩
      · cases hsame
      · exact hid (h.single id' id c g credential gateway heq hjoining)
    refine h.setState (h.enroll_eq_none (by rw [hstate]; exact nofun))
      (fun held hsome => ?_) (fun _ _ _ heq => absurd heq hgone)
      (fun _ _ _ _ _ _ heq => absurd heq hgone) nofun
    rw [hheld] at hsome
    cases hsome
  · exact h

theorem sound_clear {id : Nat} {works : Bool}
    (htimely : s.untimely backing (.clear id works) = false) :
    Sound backing (s.next backing (.clear id works)) := by
  unfold next
  dsimp only
  split
  next credential gateway hclearing =>
    have hkept : ∀ {id' c g}, Function.update s.unenrolls id none id' = some (.joining c g) →
        s.unenrolls id' = some (.joining c g) := by
      intro id' c g heq
      obtain ⟨hid, heq⟩ := of_update_none heq
      exact heq
    unfold clearStore
    split
    next hworks =>
      refine
        { h with leaving := fun id' c g heq => h.leaving id' c g (hkept heq),
                 single := fun a b _ _ _ _ ha hb => h.single a b _ _ _ _ (hkept ha) (hkept hb),
                 stored := fun c g heq => ?_, emptied := fun slot hslot => ?_ }
      · obtain ⟨hstored, hsettings⟩ := h.stored c g heq
        refine ⟨?_, hsettings⟩
        have hne : slotOf backing gateway ≠ slotOf backing g := by
          intro hsame
          change s.enrolledAs = some (c, g) at heq
          unfold untimely at htimely
          rw [hworks] at htimely
          dsimp only at htimely
          rw [hclearing, heq] at htimely
          exact of_decide_eq_false htimely hsame
        exact (update_of_ne hne.symm _ _).trans hstored
      change after (Enrollment.emptied slot) false
        (s.log ++ [.unenrolled (slotOf backing gateway)]) = true at hslot
      change Function.update s.store (slotOf backing gateway) none slot = none
      by_cases hsame : slot = slotOf backing gateway
      · rw [hsame, update_self]
      rw [update_of_ne hsame]
      rw [after_append, after_cons, after_nil] at hslot
      unfold Enrollment.emptied at hslot
      dsimp only at hslot
      rw [if_neg (Ne.symm hsame)] at hslot
      exact h.emptied slot hslot
    · exact
        { h with
          leaving := fun id' c g heq => h.leaving id' c g (hkept heq)
          single := fun a b _ _ _ _ ha hb => h.single a b _ _ _ _ (hkept ha) (hkept hb) }
  · exact h

/-! ## Participation -/

theorem sound_reconcile (participate : Bool) :
    Sound backing (s.next backing (.reconcile participate)) := by
  unfold next
  dsimp only
  split
  next hheld =>
    unfold reconcileParticipation
    split
    next credential gateway hstate =>
      have hnoJoining := h.no_joining (by rw [hstate]; exact nofun)
      refine h.setState (h.enroll_eq_none (by rw [hstate]; exact nofun))
        (fun _ _ => rfl) (fun id c g heq => absurd heq (hnoJoining id c g)) h.single
        (fun c g heq => ?_)
      cases heq
      unfold enrolledAs
      rw [hstate]
      rfl
    next credential gateway hstate =>
      have hnoJoining := h.no_joining (by rw [hstate]; exact nofun)
      refine h.setState (h.enroll_eq_none (by rw [hstate]; exact nofun))
        (fun held hsome => ?_) (fun id c g heq => absurd heq (hnoJoining id c g)) h.single
        (fun c g heq => ?_)
      · rw [hheld] at hsome
        cases hsome
      cases heq
      unfold enrolledAs
      rw [hstate]
      rfl
    · exact h
  · exact h

theorem sound_detached : Sound backing (s.next backing .detached) := by
  unfold next
  dsimp only
  split
  next credential gateway hheld =>
    have hstate := h.detaching _ hheld
    have hnoJoining := h.no_joining (by rw [hstate]; exact nofun)
    refine h.setState (h.enroll_eq_none (by rw [hstate]; exact nofun))
      nofun (fun id c g heq => absurd heq (hnoJoining id c g)) h.single
      (fun c g heq => ?_)
    cases heq
    unfold enrolledAs
    rw [hstate, hheld]
    rfl
  · exact h

/-! ## Whole runs -/

theorem sound_next (m : Move) (htimely : s.untimely backing m = false) :
    Sound backing (s.next backing m) := by
  cases m with
  | enroll controlPlane =>
    unfold next
    dsimp only
    split
    · exact sound_enroll h ‹_› controlPlane
    · exact h
  | answer response => exact sound_answer h response
  | persistSettings works => exact sound_persistSettings h works
  | storeCredential outcome => exact sound_storeCredential h outcome
  | attach => exact sound_attach h
  | rollBack => exact sound_rollBack h
  | unenroll => exact sound_unenroll h
  | joined id => exact sound_joined h id
  | clear id works => exact sound_clear h htimely
  | reconcile participate => exact sound_reconcile h participate
  | detached => exact sound_detached h
  | restart participate => exact sound_startup participate s.settingsGateway s.store h.emptied

end

/-- In every run in which no unenroll clears a store that a later enrollment has stored in: an
attached or detached agent's credential is the stored one and a restart finds it again, and a
slot whose latest event is a successful unenroll is empty. -/
theorem enrolled_credential_is_stored (backing : Backing) (participate : Bool) (gateway : Gateway)
    (store : Option Gateway → Option Credential) (moves : List Move)
    (htimely : Throughout (next backing) (startup backing participate gateway store [])
      (fun s m => s.untimely backing m = false) moves) :
    let s := after (next backing) (startup backing participate gateway store []) moves
    (∀ c g, s.state = .attached c g ∨ s.state = .detached c g →
      s.store (slotOf backing g) = some c ∧
      ∀ p, (s.next backing (.restart p)).state = if p then .attached c g else .detached c g) ∧
    ∀ slot, after (emptied slot) false s.log = true → s.store slot = none := by
  intro s
  have h : Sound backing s :=
    keeps (fun s m hs hm => sound_next hs m hm)
      (sound_startup participate gateway store nofun) htimely
  refine ⟨fun c g hstate => ?_, h.emptied⟩
  have hlive : s.enrolledAs = some (c, g) := by
    unfold enrolledAs
    rcases hstate with heq | heq <;> rw [heq] <;> rfl
  obtain ⟨hstored, hsettings⟩ := h.stored c g hlive
  refine ⟨hstored, fun p => ?_⟩
  change (startup backing p s.settingsGateway s.store s.log).state = _
  unfold startup
  rw [hsettings, hstored]

/-- A new agent that enrolls with the gateway of its settings. -/
def newcomer (backing : Backing) : Agent := startup backing true "gateway" (fun _ => none) []

def enrolled (credential : Credential) : List Move :=
  [.enroll none, .answer (some credential), .persistSettings true, .storeCredential .stored,
    .attach]

/-- Enrolled, detached, reattached and unenrolled, then enrolled again. -/
def reenrolled : List Move :=
  enrolled ⟨"rhost_1", "one"⟩ ++ [.reconcile false, .detached, .reconcile true, .unenroll,
    .joined 0, .clear 0 true] ++ enrolled ⟨"rhost_2", "two"⟩

theorem enrolled_credential_is_stored_reenrolled :
    (after (next .keyring) (newcomer .keyring) reenrolled).state =
      .attached ⟨"rhost_2", "two"⟩ "gateway" ∧
    (after (next .keyring) (newcomer .keyring) reenrolled).store (some "gateway") =
      some ⟨"rhost_2", "two"⟩ :=
  have hstate : (after (next .keyring) (newcomer .keyring) reenrolled).state =
      .attached ⟨"rhost_2", "two"⟩ "gateway" := by decide +kernel
  ⟨hstate, ((enrolled_credential_is_stored .keyring true "gateway" (fun _ => none) reenrolled
    (by decide +kernel)).1 _ _ (.inl hstate)).1⟩

def lateClear : List Move :=
  enrolled ⟨"rhost_1", "one"⟩ ++ [.unenroll, .joined 0] ++ enrolled ⟨"rhost_2", "two"⟩ ++
    [.clear 0 true]

/-- The late clear takes the new credential, with either backing. -/
theorem late_clear_removes_new_credential :
    ((after (next .file) (newcomer .file) lateClear).state =
        .attached ⟨"rhost_2", "two"⟩ "gateway" ∧
      (after (next .file) (newcomer .file) lateClear).store none = none) ∧
    ((after (next .keyring) (newcomer .keyring) lateClear).state =
        .attached ⟨"rhost_2", "two"⟩ "gateway" ∧
      (after (next .keyring) (newcomer .keyring) lateClear).store (some "gateway") = none) := by
  decide +kernel

end Agent

end Arcbox.Runner.Enrollment

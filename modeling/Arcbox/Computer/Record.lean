import Mathlib.Algebra.Group.Nat.Defs

set_option autoImplicit false

/-!
# Computer: the durable record

`sandbox/record/phase.rs` of `arcbox-computer-runtime`: what a record says about one
generation of a computer, which moves between phases are legal, and which records are
well formed.  Of the specification only the fields that this code reads or clears are
kept.  Time is a number of nanoseconds.
-/

namespace Arcbox.Computer

/-! ## Errors -/

/-- The variants of `ComputerError` that the modelled code builds. -/
inductive ComputerError where
  | notFound (id : String)
  | alreadyExists (id : String)
  | wrongState (id expected actual : String)
  | io (error : String)
  | process (message : String)
  | config (message : String)
  | unavailable (message : String)
  | ackUnconfirmed (id detail : String)
  | other (message : String)
  deriving DecidableEq, Repr

namespace ComputerError

/-- The error's `Display`. -/
def text : ComputerError → String
  | .notFound id => "VM not found: " ++ id
  | .alreadyExists id => "VM already exists: " ++ id
  | .wrongState id expected actual =>
    "VM '" ++ id ++ "' is in wrong state: expected " ++ expected ++ ", got " ++ actual
  | .io error => "I/O error: " ++ error
  | .process message => "process error: " ++ message
  | .config message => "configuration error: " ++ message
  | .unavailable message => "service unavailable: " ++ message
  | .ackUnconfirmed id detail =>
    "sandbox " ++ id ++ " committed, but ACK durability is unconfirmed: " ++ detail
  | .other message => message

end ComputerError

/-! ## Phases -/

inductive ComputerPhase where
  | creating
  | starting
  | ready
  | stopping
  | stopped
  | failed
  | removing
  | pausing
  | paused
  | resuming
  deriving DecidableEq, Repr

/-- The durable phase, under the name the lifecycle uses. -/
abbrev PersistPhase := ComputerPhase

namespace ComputerPhase

def canTransitionTo (self next : ComputerPhase) : Bool :=
  self == next ||
    match self, next with
    | .creating, .starting | .creating, .failed | .creating, .removing
    | .starting, .ready | .starting, .stopping | .starting, .failed | .starting, .removing
    | .ready, .stopping | .ready, .pausing | .ready, .failed | .ready, .removing
    | .stopping, .stopped | .stopping, .failed | .stopping, .removing
    | .stopped, .removing | .failed, .removing
    | .pausing, .paused | .pausing, .ready | .pausing, .failed | .pausing, .removing
    | .resuming, .paused | .resuming, .ready | .resuming, .failed | .resuming, .removing
    | .paused, .resuming | .paused, .failed | .paused, .removing => true
    | _, _ => false

def asStr : ComputerPhase → String
  | .creating => "creating"
  | .starting => "starting"
  | .ready => "ready"
  | .stopping => "stopping"
  | .stopped => "stopped"
  | .failed => "failed"
  | .removing => "removing"
  | .pausing => "pausing"
  | .paused => "paused"
  | .resuming => "resuming"

/-- The phases in which a provisioning outcome was acknowledged. -/
def provisioned : ComputerPhase → Bool
  | .starting | .ready | .stopping | .stopped | .pausing | .paused | .resuming => true
  | .creating | .failed | .removing => false

/-- The phases that need the pause checkpoint. -/
def suspended : ComputerPhase → Bool
  | .paused | .resuming => true
  | _ => false

/-- Acknowledged phases other than the first are reached from acknowledged ones. -/
theorem provisioned_of_canTransitionTo {phase next : ComputerPhase}
    (h : phase.canTransitionTo next) (hnext : next.provisioned) (hne : next ≠ .starting) :
    phase.provisioned := by
  cases next <;> first
    | exact absurd rfl hne
    | exact absurd hnext (by decide)
    | cases phase <;> first | rfl | cases h

theorem suspended_of_canTransitionTo_resuming {phase : ComputerPhase}
    (h : phase.canTransitionTo .resuming) : phase.suspended := by
  cases phase <;> first | rfl | cases h

theorem canTransitionTo_self (phase : ComputerPhase) : phase.canTransitionTo phase := by
  cases phase <;> rfl

end ComputerPhase

/-! ## Records -/

/-- A `Uuid`. -/
abbrev Uuid := BitVec 128

/-- The hyphenated form of a `Uuid`, eight, four, four, four and twelve digits. -/
def uuidText (u : Uuid) : String :=
  let digits := (List.range 32).map fun i => Nat.digitChar (u.toNat / 16 ^ (31 - i) % 16)
  let part (start len : Nat) : String := String.ofList ((digits.drop start).take len)
  part 0 8 ++ "-" ++ part 8 4 ++ "-" ++ part 12 4 ++ "-" ++ part 16 4 ++ "-" ++ part 20 12

structure ComputerProvisionOutcome where
  ipAddress : String
  deriving DecidableEq, Repr

/-- The outcome's `Debug`. -/
def ComputerProvisionOutcome.debug (outcome : ComputerProvisionOutcome) : String :=
  "ComputerProvisionOutcome \x7b ip_address: " ++ outcome.ipAddress.quote ++ " \x7d"

inductive IdleAction where
  | kill
  | pause
  deriving DecidableEq, Repr

structure ComputerMountSpec where
  source : String
  target : String
  readonly : Bool
  deriving DecidableEq, Repr

structure ComputerSpec where
  id : Option String
  bootArgs : String
  cmd : List String
  env : List (String × String)
  workingDir : String
  user : String
  mounts : List ComputerMountSpec
  ttlSeconds : BitVec 32
  sshPublicKey : Option String
  idleTimeoutSeconds : BitVec 32
  onIdle : IdleAction
  deriving DecidableEq, Repr

/-- `RECORD_VERSION`. -/
def recordVersion : BitVec 32 := 1

structure ComputerRecord where
  version : BitVec 32
  id : String
  generation : Uuid
  requestKey : String
  effectiveSpec : ComputerSpec
  phase : ComputerPhase
  provisionOutcome : Option ComputerProvisionOutcome
  createdAt : Nat
  error : Option String
  pauseSnapshotId : Option String
  pausedAt : Option Nat
  ttlDeadline : Option Nat
  deriving DecidableEq, Repr

inductive ComputerTransition where
  | starting (outcome : ComputerProvisionOutcome)
  | readyWithOutcome (outcome : ComputerProvisionOutcome)
  | ready
  | stopping
  | stopped
  | failed (error : String)
  | removing
  | pausing
  | paused (snapshotId : String)
  | resuming
  deriving DecidableEq, Repr

def ComputerTransition.phase : ComputerTransition → ComputerPhase
  | .starting _ => .starting
  | .readyWithOutcome _ => .ready
  | .ready => .ready
  | .stopping => .stopping
  | .stopped => .stopped
  | .failed _ => .failed
  | .removing => .removing
  | .pausing => .pausing
  | .paused _ => .paused
  | .resuming => .resuming

/-- The provisioning outcome that a transition carries. -/
def ComputerTransition.outcome : ComputerTransition → Option ComputerProvisionOutcome
  | .starting outcome => some outcome
  | .readyWithOutcome outcome => some outcome
  | _ => none

/-- Nanoseconds of a number of seconds. -/
def seconds (n : BitVec 32) : Nat := n.toNat * 1000000000

/-- `redact_runtime_inputs`, on the specification. -/
def ComputerSpec.redactRuntimeInputs (spec : ComputerSpec) : ComputerSpec :=
  { spec with
    bootArgs := "", cmd := [], env := [], workingDir := "", user := "", mounts := []
    ttlSeconds := 0, sshPublicKey := none }

namespace ComputerRecord

/-- `ComputerRecord::new` at `now`, with the generation drawn. -/
def new (id requestKey : String) (effectiveSpec : ComputerSpec) (now : Nat) (generation : Uuid) :
    ComputerRecord where
  version := recordVersion
  id := id
  generation := generation
  requestKey := requestKey
  effectiveSpec := effectiveSpec
  phase := .creating
  provisionOutcome := none
  createdAt := now
  error := none
  pauseSnapshotId := none
  pausedAt := none
  ttlDeadline :=
    if 0 < effectiveSpec.ttlSeconds then some (now + seconds effectiveSpec.ttlSeconds) else none

variable (record : ComputerRecord)

def redactRuntimeInputs : ComputerRecord :=
  { record with effectiveSpec := record.effectiveSpec.redactRuntimeInputs }

/-- The check of `apply` for the outcome a transition carries: one that is recorded may
only be recorded again. -/
def checkOutcome (transition : ComputerTransition) : Except ComputerError Unit :=
  match record.provisionOutcome, transition.outcome with
  | some existing, some outcome =>
    if existing ≠ outcome then
      .error (.wrongState record.id ("provision outcome " ++ existing.debug)
        ("provision outcome " ++ outcome.debug))
    else .ok ()
  | _, _ => .ok ()

/-- The restore path's hop from `Creating` to `Ready`. -/
def atomicReady : ComputerTransition → Bool
  | .readyWithOutcome _ => record.phase == .creating
  | _ => false

/-- What `apply` writes, once it let the transition pass. -/
def applied (now : Nat) : ComputerTransition → ComputerRecord
  | .starting outcome =>
    { record with phase := .starting, provisionOutcome := some outcome, error := none }
  | .readyWithOutcome outcome =>
    redactRuntimeInputs
      { record with phase := .ready, provisionOutcome := some outcome, error := none }
  | .ready =>
    redactRuntimeInputs
      { record with phase := .ready, error := none, pauseSnapshotId := none, pausedAt := none }
  | .stopping => redactRuntimeInputs { record with phase := .stopping, error := none }
  | .stopped => { record with phase := .stopped, error := none }
  | .failed error => redactRuntimeInputs { record with phase := .failed, error := some error }
  | .removing => redactRuntimeInputs { record with phase := .removing }
  | .pausing => { record with phase := .pausing, error := none }
  -- Stamped once per pause: a failed resume comes back here.
  | .paused snapshotId =>
    { record with
      phase := .paused, pauseSnapshotId := some snapshotId
      pausedAt := some (record.pausedAt.getD now), error := none }
  | .resuming => { record with phase := .resuming, error := none }

/-- `ComputerRecord::apply` at `now`. -/
def apply (transition : ComputerTransition) (now : Nat) : Except ComputerError ComputerRecord :=
  if !record.atomicReady transition && !record.phase.canTransitionTo transition.phase then
    .error (.wrongState record.id ("a valid transition from " ++ record.phase.asStr)
      transition.phase.asStr)
  else
    match record.checkOutcome transition with
    | .error e => .error e
    | .ok () => .ok (record.applied now transition)

end ComputerRecord

/-! ## Provisioning again -/

inductive ExistingProvision where
  | pending
  | replay
  | blocked
  deriving DecidableEq, Repr

def classifyExistingProvision (record : ComputerRecord) (requestKey : String) :
    Except ComputerError ExistingProvision :=
  if record.requestKey ≠ requestKey then .error (.alreadyExists record.id)
  else
    .ok <|
      match record.phase with
      | .creating => .pending
      | .starting | .ready => .replay
      | .stopping | .stopped | .failed | .removing | .pausing | .paused | .resuming => .blocked

/-! ## Well-formed records -/

/-- `validate_id`. -/
def validateId (kind id : String) : Except ComputerError Unit :=
  if id = "" then .error (.config (kind ++ " must not be empty"))
  else if !id.toList.all fun c => c.isAlphanum || c == '-' || c == '_' then
    .error (.config ("invalid " ++ kind ++ " " ++ id.quote ++
      ": only ASCII letters, digits, '-' and '_' are allowed"))
  else .ok ()

def validateRecord (id : String) (record : ComputerRecord) : Except ComputerError Unit :=
  match validateId "sandbox id" id with
  | .error e => .error e
  | .ok () =>
    if record.version ≠ recordVersion then
      .error (.config ("unsupported sandbox record version " ++ toString record.version.toNat ++
        " for " ++ id))
    else if record.id ≠ id then
      .error (.config ("sandbox record id mismatch: expected " ++ id ++ ", got " ++ record.id))
    else if record.effectiveSpec.id ≠ some id then
      .error (.config ("sandbox record spec id mismatch for " ++ id))
    else if record.requestKey = "" then
      .error (.config ("sandbox record provision request key is empty for " ++ id))
    else if record.phase = .creating ∧ record.provisionOutcome.isSome then
      .error (.config ("creating sandbox record unexpectedly has a provision outcome for " ++ id))
    else if record.phase.provisioned ∧ record.provisionOutcome.isNone then
      .error (.config ("sandbox record has no provision outcome in phase " ++ record.phase.asStr ++
        " for " ++ id))
    else if record.phase.suspended ∧ record.pauseSnapshotId.isNone then
      .error (.config ("sandbox record has no pause snapshot in phase " ++ record.phase.asStr ++
        " for " ++ id))
    else .ok ()

/-- What `validate_record` checks. -/
structure Valid (id : String) (record : ComputerRecord) : Prop where
  idOk : validateId "sandbox id" id = .ok ()
  version : record.version = recordVersion
  recordId : record.id = id
  specId : record.effectiveSpec.id = some id
  requestKey : record.requestKey ≠ ""
  unprovisioned : record.phase = .creating → record.provisionOutcome = none
  provisioned : record.phase.provisioned → record.provisionOutcome.isSome
  suspended : record.phase.suspended → record.pauseSnapshotId.isSome

theorem validateRecord_eq_ok_iff {id : String} {record : ComputerRecord} :
    validateRecord id record = .ok () ↔ Valid id record := by
  constructor
  · intro h
    simp only [validateRecord] at h
    split at h
    · cases h
    rename_i hid
    split at h
    · cases h
    split at h
    · cases h
    split at h
    · cases h
    split at h
    · cases h
    split at h
    · cases h
    split at h
    · cases h
    split at h
    · cases h
    rename_i hversion hrecord hspec hkey hcreating hprov hsusp
    refine ⟨hid, Decidable.not_not.mp hversion, Decidable.not_not.mp hrecord,
      Decidable.not_not.mp hspec, hkey, ?_, ?_, ?_⟩
    · intro hphase
      exact Option.not_isSome_iff_eq_none.mp fun hsome => hcreating ⟨hphase, hsome⟩
    · intro hphase
      cases hout : record.provisionOutcome with
      | none => exact absurd ⟨hphase, by rw [hout]; rfl⟩ hprov
      | some _ => rfl
    intro hphase
    cases hsnap : record.pauseSnapshotId with
    | none => exact absurd ⟨hphase, by rw [hsnap]; rfl⟩ hsusp
    | some _ => rfl
  · intro h
    simp only [validateRecord, h.idOk, h.version, h.recordId, h.specId, h.requestKey]
    have hcreating : ¬ (record.phase = .creating ∧ record.provisionOutcome.isSome) := by
      rintro ⟨hphase, hsome⟩
      rw [h.unprovisioned hphase] at hsome
      cases hsome
    have hprov : ¬ (record.phase.provisioned ∧ record.provisionOutcome.isNone) := by
      rintro ⟨hphase, hnone⟩
      have hsome := h.provisioned hphase
      rw [Option.isNone_iff_eq_none.mp hnone] at hsome
      cases hsome
    have hsusp : ¬ (record.phase.suspended ∧ record.pauseSnapshotId.isNone) := by
      rintro ⟨hphase, hnone⟩
      have hsome := h.suspended hphase
      rw [Option.isNone_iff_eq_none.mp hnone] at hsome
      cases hsome
    simp only [ne_eq, not_true_eq_false, if_false, hcreating, hprov, hsusp]

/-! ## What a transition does -/

/-- A phase may follow another in one generation. -/
def ComputerPhase.Follows (next phase : ComputerPhase) : Prop :=
  phase.canTransitionTo next ∨ (phase = .creating ∧ next = .ready)

instance (next phase : ComputerPhase) : Decidable (next.Follows phase) :=
  inferInstanceAs (Decidable (_ ∨ _))

/-- What every update of a record keeps, and how its phase moves. -/
structure Succeeds (next record : ComputerRecord) : Prop where
  generation : next.generation = record.generation
  requestKey : next.requestKey = record.requestKey
  phase : next.phase.Follows record.phase
  outcome : ∀ outcome, record.provisionOutcome = some outcome →
    next.provisionOutcome = some outcome

namespace ComputerRecord

variable {record next : ComputerRecord} {transition : ComputerTransition} {now : Nat}

theorem checkOutcome_eq_ok_iff :
    record.checkOutcome transition = .ok () ↔
      ∀ existing outcome, record.provisionOutcome = some existing →
        transition.outcome = some outcome → existing = outcome := by
  rw [checkOutcome]
  cases record.provisionOutcome with
  | none => simp
  | some existing =>
    cases transition.outcome with
    | none => simp
    | some outcome => by_cases h : existing = outcome <;> simp [h]

/-- `apply` succeeds on a legal edge that does not contradict the recorded outcome. -/
theorem apply_eq_ok_iff :
    record.apply transition now = .ok next ↔
      (record.atomicReady transition ∨ record.phase.canTransitionTo transition.phase) ∧
        record.checkOutcome transition = .ok () ∧ next = record.applied now transition := by
  rw [apply]
  split
  next hedge =>
    simp only [Bool.and_eq_true, Bool.not_eq_true'] at hedge
    simp [hedge.1, hedge.2]
  rename_i hedge
  have hpass : record.atomicReady transition ∨ record.phase.canTransitionTo transition.phase := by
    cases h : record.atomicReady transition with
    | true => exact .inl rfl
    | false =>
      rw [h] at hedge
      exact .inr (by simpa using hedge)
  cases hcheck : record.checkOutcome transition with
  | error e => simp
  | ok u =>
    constructor
    · intro h
      exact ⟨hpass, rfl, (Except.ok.inj h).symm⟩
    · rintro ⟨-, -, rfl⟩
      rfl

@[simp] theorem phase_applied : (record.applied now transition).phase = transition.phase := by
  cases transition <;> rfl

@[simp] theorem generation_applied :
    (record.applied now transition).generation = record.generation := by
  cases transition <;> rfl

@[simp] theorem requestKey_applied :
    (record.applied now transition).requestKey = record.requestKey := by
  cases transition <;> rfl

theorem provisionOutcome_applied :
    (record.applied now transition).provisionOutcome
      = transition.outcome.or record.provisionOutcome := by
  cases transition <;> rfl

theorem atomicReady_iff :
    record.atomicReady transition ↔
      (∃ outcome, transition = .readyWithOutcome outcome) ∧ record.phase = .creating := by
  cases transition <;> simp [atomicReady]

theorem succeeds_of_apply (h : record.apply transition now = .ok next) : Succeeds next record := by
  obtain ⟨hedge, hcheck, rfl⟩ := apply_eq_ok_iff.mp h
  rw [checkOutcome_eq_ok_iff] at hcheck
  refine ⟨generation_applied, requestKey_applied, ?_, ?_⟩
  · rw [phase_applied]
    rcases hedge with hatomic | hedge
    · obtain ⟨⟨outcome, rfl⟩, hphase⟩ := atomicReady_iff.mp hatomic
      exact .inr ⟨hphase, rfl⟩
    · exact .inl hedge
  intro existing hexisting
  rw [provisionOutcome_applied, hexisting]
  cases hout : transition.outcome with
  | none => rfl
  | some outcome =>
    rw [hcheck existing outcome hexisting hout]
    rfl

theorem valid_of_apply {id : String} (hvalid : Valid id record)
    (h : record.apply transition now = .ok next) : Valid id next := by
  obtain ⟨hedge, -, rfl⟩ := apply_eq_ok_iff.mp h
  have hprov := hvalid.provisioned
  have hsusp := hvalid.suspended
  have hfields : (record.applied now transition).version = recordVersion ∧
      (record.applied now transition).id = id ∧
      (record.applied now transition).effectiveSpec.id = some id := by
    cases transition <;> exact ⟨hvalid.version, hvalid.recordId, hvalid.specId⟩
  refine ⟨hvalid.idOk, hfields.1, hfields.2.1, hfields.2.2, ?_, ?_, ?_, ?_⟩
  · rw [requestKey_applied]
    exact hvalid.requestKey
  · rw [phase_applied]
    cases transition <;> simp [ComputerTransition.phase]
  · intro hnext
    rw [phase_applied] at hnext
    rw [provisionOutcome_applied]
    cases hout : transition.outcome with
    | some outcome => rfl
    | none =>
      refine hprov ?_
      rcases hedge with hatomic | hedge
      · obtain ⟨⟨outcome, rfl⟩, -⟩ := atomicReady_iff.mp hatomic
        cases hout
      refine ComputerPhase.provisioned_of_canTransitionTo hedge hnext fun hstarting => ?_
      cases transition with
      | starting | readyWithOutcome => cases hout
      | _ => cases hstarting
  · intro hnext
    rw [phase_applied] at hnext
    cases transition with
    | paused snapshotId => rfl
    | resuming =>
      rcases hedge with hatomic | hedge
      · cases hatomic
      · exact hsusp (ComputerPhase.suspended_of_canTransitionTo_resuming hedge)
    | _ => cases hnext

end ComputerRecord

end Arcbox.Computer

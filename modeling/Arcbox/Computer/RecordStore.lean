import Arcbox.Computer.Record

set_option autoImplicit false

/-!
# Computer: the record store

`ComputerRecordStore` (`sandbox/record/store.rs`).  Every operation names one id, takes
the store's lock and reads the id's file again, so the store is modelled as the file of
one id: the record it holds, if any.  Reads, writes and syncs may fail; a write that was
renamed but not synced is visible.
-/

namespace Arcbox.Computer

open List

/-! ## Writes -/

/-- What `arcbox_atomic_file::write` reports: the new contents are durable, they are
visible but the directory was not synced, or the file was left as it was. -/
inductive AtomicWrite where
  | committed
  | uncertain (error : String)
  | notCommitted (error : String)
  deriving DecidableEq, Repr

/-- What an operation meets: the lock, the file system, the clock and the random
generator. -/
structure StoreIo where
  poisoned : Bool
  readError : Option String
  write : AtomicWrite
  unlinkError : Option String
  syncError : Option String
  now : Nat
  uuid : Uuid
  deriving DecidableEq, Repr

structure DurableCommit (α : Type) where
  value : α
  durabilityError : Option String
  deriving DecidableEq, Repr

def DurableCommit.confirmed {α : Type} (commit : DurableCommit α) (operation : String) :
    Except ComputerError α :=
  match commit.durabilityError with
  | some error =>
    .error (.unavailable (operation ++ " is visible but its durability is unconfirmed: " ++ error))
  | none => .ok commit.value

inductive ProvisionIntent where
  | created (record : ComputerRecord)
  | resume (record : ComputerRecord)
  | replay (record : ComputerRecord)
  | blocked (record : ComputerRecord)
  deriving DecidableEq, Repr

/-- The file of one id. -/
abbrev RecordFile := Option ComputerRecord

namespace RecordStore

variable (io : StoreIo) (id : String)

def lock : Except ComputerError Unit :=
  if io.poisoned then .error (.other "sandbox record store mutex poisoned") else .ok ()

variable (requestKey : String) (file : RecordFile)

def loadUnlocked : Except ComputerError (Option ComputerRecord) :=
  match validateId "sandbox id" id with
  | .error e => .error e
  | .ok () =>
    match io.readError with
    | some error => .error (.io error)
    | none =>
      match file with
      | none => .ok none
      | some record =>
        match validateRecord id record with
        | .error e => .error e
        | .ok () => .ok (some record)

/-- `save_unlocked`, with the file afterwards. -/
def saveUnlocked (record : ComputerRecord) (file : RecordFile) :
    Except ComputerError (Option String) × RecordFile :=
  match validateRecord record.id record with
  | .error e => (.error e, file)
  | .ok () =>
    match io.write with
    | .committed => (.ok none, some record)
    | .notCommitted error => (.error (.io error), file)
    | .uncertain error => (.ok (some error), some record)

def generationMismatch (expected actual : Uuid) : ComputerError :=
  .wrongState id ("generation " ++ uuidText expected) ("generation " ++ uuidText actual)

/-- Lock and load. -/
def load : Except ComputerError (Option ComputerRecord) :=
  match lock io with
  | .error e => .error e
  | .ok () => loadUnlocked io id file

/-- Lock, load, and refuse another generation than the expected one. -/
def loadGeneration (generation : Uuid) (file : RecordFile) : Except ComputerError ComputerRecord :=
  match load io id file with
  | .error e => .error e
  | .ok none => .error (.notFound id)
  | .ok (some record) =>
    if record.generation ≠ generation then
      .error (generationMismatch id record.generation generation)
    else .ok record

/-- Save a record and report its durability. -/
def saveCommit {α : Type} (io : StoreIo) (record : ComputerRecord) (value : α)
    (file : RecordFile) : Except ComputerError (DurableCommit α) × RecordFile :=
  match saveUnlocked io record file with
  | (.error e, file) => (.error e, file)
  | (.ok durabilityError, file) => (.ok ⟨value, durabilityError⟩, file)

def transition (generation : Uuid) (tr : ComputerTransition) (file : RecordFile) :
    Except ComputerError (DurableCommit ComputerRecord) × RecordFile :=
  match loadGeneration io id generation file with
  | .error e => (.error e, file)
  | .ok record =>
    match record.apply tr io.now with
    | .error e => (.error e, file)
    | .ok record => saveCommit io record record file

def updateLifecycle (generation : Uuid) (ttlDeadline : Option Nat)
    (idleTimeoutSeconds : BitVec 32) (onIdle : IdleAction) (file : RecordFile) :
    Except ComputerError (DurableCommit Unit) × RecordFile :=
  match loadGeneration io id generation file with
  | .error e => (.error e, file)
  | .ok record =>
    let spec := { record.effectiveSpec with
      idleTimeoutSeconds := idleTimeoutSeconds, onIdle := onIdle }
    saveCommit io { record with ttlDeadline := ttlDeadline, effectiveSpec := spec } () file

/-- `confirm_root_unlocked`. -/
def confirmRootUnlocked (operation : String) : Except ComputerError Unit :=
  match io.syncError with
  | some error =>
    .error (.unavailable (operation ++ " durability could not be confirmed: " ++ error))
  | none => .ok ()

/-- `validate_provision_input`. -/
def validateProvisionInput : Except ComputerError Unit :=
  match validateId "sandbox id" id with
  | .error e => .error e
  | .ok () =>
    if requestKey = "" then
      .error (.config "sandbox provision request key must not be empty")
    else .ok ()

/-- Check the input, lock, and load. -/
def loadProvision : Except ComputerError (Option ComputerRecord) :=
  match validateProvisionInput id requestKey with
  | .error e => .error e
  | .ok () => load io id file

/-- `replay_provision`; it writes nothing. -/
def replayProvision : Except ComputerError (Option ComputerProvisionOutcome) :=
  match loadProvision io id requestKey file with
  | .error e => .error e
  | .ok none => .ok none
  | .ok (some record) =>
    match classifyExistingProvision record requestKey with
    | .error e => .error e
    | .ok .pending => .ok none
    | .ok .replay =>
      match confirmRootUnlocked io "provision replay" with
      | .error e => .error e
      | .ok () => .ok record.provisionOutcome
    | .ok .blocked =>
      match confirmRootUnlocked io "provision collision" with
      | .error e => .error e
      | .ok () => .error (.alreadyExists id)

/-- How `provision_intent` answers for a record that is there. -/
def classifyIntent (record : ComputerRecord) (requestKey : String) :
    Except ComputerError ProvisionIntent :=
  match classifyExistingProvision record requestKey with
  | .error e => .error e
  | .ok .pending => .ok (.resume record)
  | .ok .replay =>
    match confirmRootUnlocked io "provision replay" with
    | .error e => .error e
    | .ok () => .ok (.replay record)
  | .ok .blocked =>
    match confirmRootUnlocked io "provision collision" with
    | .error e => .error e
    | .ok () => .ok (.blocked record)

def provisionIntent (effectiveSpec : ComputerSpec) (file : RecordFile) :
    Except ComputerError ProvisionIntent × RecordFile :=
  match loadProvision io id requestKey file with
  | .error e => (.error e, file)
  | .ok (some record) => (classifyIntent io record requestKey, file)
  | .ok none =>
    let record := ComputerRecord.new id requestKey effectiveSpec io.now io.uuid
    match saveUnlocked io record file with
    | (.error e, file) => (.error e, file)
    | (.ok _, file) => (.ok (.created record), file)

def deleteUnlocked : Except ComputerError (DurableCommit Unit) × RecordFile :=
  match io.unlinkError with
  | some error => (.error (.io error), file)
  | none => (.ok ⟨(), io.syncError⟩, none)

def deleteRecord (generation : Uuid) (expectedPhase : ComputerPhase) (file : RecordFile) :
    Except ComputerError (DurableCommit Unit) × RecordFile :=
  match load io id file with
  | .error e => (.error e, file)
  | .ok none => (.ok ⟨(), io.syncError⟩, file)
  | .ok (some record) =>
    if record.generation ≠ generation then
      (.error (generationMismatch id record.generation generation), file)
    else if record.phase ≠ expectedPhase then
      (.error (.wrongState id expectedPhase.asStr record.phase.asStr), file)
    else deleteUnlocked io file

def abortProvision (generation : Uuid) (file : RecordFile) :
    Except ComputerError (DurableCommit Unit) × RecordFile :=
  deleteRecord io id generation .creating file

def finishRemove (generation : Uuid) (file : RecordFile) :
    Except ComputerError (DurableCommit Unit) × RecordFile :=
  deleteRecord io id generation .removing file

def cancelPendingOrMissing : Except ComputerError (DurableCommit Unit) × RecordFile :=
  match load io id file with
  | .error e => (.error e, file)
  | .ok none => (.ok ⟨(), io.syncError⟩, file)
  | .ok (some record) =>
    if record.phase ≠ .creating ∨ record.provisionOutcome.isSome then
      (.error (.alreadyExists id), file)
    else deleteUnlocked io file

/-! ## What the parts do -/

variable {io : StoreIo} {id : String} {file file' : RecordFile} {record : ComputerRecord}

theorem load_eq_ok {found : Option ComputerRecord} (h : load io id file = .ok found) :
    found = file ∧ ∀ record, found = some record → Valid id record := by
  unfold load at h
  split at h
  · cases h
  unfold loadUnlocked at h
  split at h
  · cases h
  split at h
  · cases h
  split at h
  · cases h
    exact ⟨rfl, fun _ h => by cases h⟩
  split at h
  · cases h
  rename_i hvalid
  cases h
  refine ⟨rfl, fun record hrecord => ?_⟩
  cases hrecord
  exact validateRecord_eq_ok_iff.mp hvalid

variable {requestKey : String}

theorem loadProvision_eq_ok {found : Option ComputerRecord}
    (h : loadProvision io id requestKey file = .ok found) :
    found = file ∧ ∀ record, found = some record → Valid id record := by
  unfold loadProvision at h
  split at h
  · cases h
  · exact load_eq_ok h

theorem loadGeneration_eq_ok {generation : Uuid}
    (h : loadGeneration io id generation file = .ok record) :
    file = some record ∧ record.generation = generation ∧ Valid id record := by
  unfold loadGeneration at h
  split at h
  · cases h
  · cases h
  rename_i found hload
  obtain ⟨hfile, hvalid⟩ := load_eq_ok hload
  split at h
  · cases h
  next hgeneration =>
    cases h
    exact ⟨hfile.symm, Decidable.not_not.mp hgeneration, hvalid _ rfl⟩

theorem saveUnlocked_file (io : StoreIo) (record : ComputerRecord) (file : RecordFile) :
    (saveUnlocked io record file).2 = file ∨
      ((saveUnlocked io record file).2 = some record ∧ Valid record.id record) := by
  unfold saveUnlocked
  split
  · exact .inl rfl
  rename_i hvalid
  have hvalid := validateRecord_eq_ok_iff.mp hvalid
  split
  · exact .inr ⟨rfl, hvalid⟩
  · exact .inl rfl
  · exact .inr ⟨rfl, hvalid⟩

theorem saveCommit_file {α : Type} (io : StoreIo) (record : ComputerRecord) (value : α)
    (file : RecordFile) :
    (saveCommit io record value file).2 = file ∨
      ((saveCommit io record value file).2 = some record ∧ Valid record.id record) := by
  have hsave := saveUnlocked_file io record file
  unfold saveCommit
  split <;> (rename_i heq; rw [heq] at hsave; exact hsave)

theorem deleteUnlocked_file (io : StoreIo) (file : RecordFile) :
    (deleteUnlocked io file).2 = file ∨ (deleteUnlocked io file).2 = none := by
  unfold deleteUnlocked
  split
  · exact .inl rfl
  · exact .inr rfl

/-! ## Operations on one id -/

inductive Op where
  | provisionIntent (requestKey : String) (effectiveSpec : ComputerSpec)
  | replayProvision (requestKey : String)
  | transition (generation : Uuid) (tr : ComputerTransition)
  | updateLifecycle (generation : Uuid) (ttlDeadline : Option Nat)
      (idleTimeoutSeconds : BitVec 32) (onIdle : IdleAction)
  | abortProvision (generation : Uuid)
  | finishRemove (generation : Uuid)
  | cancelPendingOrMissing
  deriving DecidableEq, Repr

/-- The generation an operation carries. -/
def Op.generation : Op → Option Uuid
  | .transition generation _ => some generation
  | .updateLifecycle generation _ _ _ => some generation
  | .abortProvision generation => some generation
  | .finishRemove generation => some generation
  | .provisionIntent _ _ => none
  | .replayProvision _ => none
  | .cancelPendingOrMissing => none

inductive Reply where
  | intent (result : Except ComputerError ProvisionIntent)
  | replay (result : Except ComputerError (Option ComputerProvisionOutcome))
  | record (result : Except ComputerError (DurableCommit ComputerRecord))
  | done (result : Except ComputerError (DurableCommit Unit))

def perform (io : StoreIo) (id : String) (file : RecordFile) : Op → Reply × RecordFile
  | .provisionIntent requestKey effectiveSpec =>
    let result := provisionIntent io id requestKey effectiveSpec file
    (.intent result.1, result.2)
  | .replayProvision requestKey => (.replay (replayProvision io id requestKey file), file)
  | .transition generation tr =>
    let result := transition io id generation tr file
    (.record result.1, result.2)
  | .updateLifecycle generation ttlDeadline idleTimeoutSeconds onIdle =>
    let result := updateLifecycle io id generation ttlDeadline idleTimeoutSeconds onIdle file
    (.done result.1, result.2)
  | .abortProvision generation =>
    let result := abortProvision io id generation file
    (.done result.1, result.2)
  | .finishRemove generation =>
    let result := finishRemove io id generation file
    (.done result.1, result.2)
  | .cancelPendingOrMissing =>
    let result := cancelPendingOrMissing io id file
    (.done result.1, result.2)

/-- How an operation that carries `generation`, if any, may change the file, `uuid` being
the generation that is drawn for a new record. -/
inductive Change (id : String) (generation : Option Uuid) (uuid : Uuid) :
    RecordFile → RecordFile → Prop
  | kept (file : RecordFile) : Change id generation uuid file file
  | updated (record next : ComputerRecord) (hvalid : Valid id next) (hnext : Succeeds next record)
      (hgeneration : generation = some record.generation) :
      Change id generation uuid (some record) (some next)
  | removed (record : ComputerRecord)
      (hgeneration : generation = some record.generation ∨ generation = none) :
      Change id generation uuid (some record) none
  | created (record : ComputerRecord) (hvalid : Valid id record)
      (hgeneration : record.generation = uuid) (hnone : generation = none) :
      Change id generation uuid none (some record)

theorem change_transition (io : StoreIo) (id : String) (generation uuid : Uuid)
    (tr : ComputerTransition) (file : RecordFile) :
    Change id (some generation) uuid file (transition io id generation tr file).2 := by
  unfold transition
  split
  · exact .kept file
  rename_i record hload
  obtain ⟨rfl, hgeneration, hvalid⟩ := loadGeneration_eq_ok hload
  split
  · exact .kept _
  rename_i next happly
  rcases saveCommit_file io next next (some record) with hfile | ⟨hfile, hnext⟩
  · rw [hfile]
    exact .kept _
  · rw [hfile]
    exact .updated record next (ComputerRecord.valid_of_apply hvalid happly)
      (ComputerRecord.succeeds_of_apply happly) (congrArg some hgeneration.symm)

theorem change_updateLifecycle (io : StoreIo) (id : String) (generation uuid : Uuid)
    (ttlDeadline : Option Nat) (idleTimeoutSeconds : BitVec 32) (onIdle : IdleAction)
    (file : RecordFile) :
    Change id (some generation) uuid file
      (updateLifecycle io id generation ttlDeadline idleTimeoutSeconds onIdle file).2 := by
  unfold updateLifecycle
  split
  · exact .kept file
  rename_i record hload
  obtain ⟨rfl, hgeneration, hvalid⟩ := loadGeneration_eq_ok hload
  dsimp only
  generalize hnext : ({ record with
    ttlDeadline := ttlDeadline, effectiveSpec := _ } : ComputerRecord) = next
  rcases saveCommit_file io next () (some record) with hfile | ⟨hfile, -⟩
  · rw [hfile]
    exact .kept _
  rw [hfile]
  subst hnext
  refine .updated record _ ?_ ⟨rfl, rfl, .inl ?_, fun _ h => h⟩ (congrArg some hgeneration.symm)
  · exact ⟨hvalid.idOk, hvalid.version, hvalid.recordId, hvalid.specId, hvalid.requestKey,
      hvalid.unprovisioned, hvalid.provisioned, hvalid.suspended⟩
  · exact ComputerPhase.canTransitionTo_self _

theorem change_deleteRecord (io : StoreIo) (id : String) (generation uuid : Uuid)
    (phase : ComputerPhase) (file : RecordFile) :
    Change id (some generation) uuid file (deleteRecord io id generation phase file).2 := by
  unfold deleteRecord
  split
  · exact .kept file
  · exact .kept file
  rename_i record hload
  obtain ⟨rfl, -⟩ := load_eq_ok hload
  split
  · exact .kept _
  rename_i hgeneration
  have hgeneration := Decidable.not_not.mp hgeneration
  split
  · exact .kept _
  rcases deleteUnlocked_file io (some record) with hfile | hfile
  · rw [hfile]
    exact .kept _
  · rw [hfile]
    exact .removed record (.inl (congrArg some hgeneration.symm))

theorem change_cancelPendingOrMissing (io : StoreIo) (id : String) (uuid : Uuid)
    (file : RecordFile) : Change id none uuid file (cancelPendingOrMissing io id file).2 := by
  unfold cancelPendingOrMissing
  split
  · exact .kept file
  · exact .kept file
  rename_i record hload
  obtain ⟨rfl, -⟩ := load_eq_ok hload
  split
  · exact .kept _
  rcases deleteUnlocked_file io (some record) with hfile | hfile
  · rw [hfile]
    exact .kept _
  · rw [hfile]
    exact .removed record (.inr rfl)

theorem change_provisionIntent (io : StoreIo) (id requestKey : String)
    (effectiveSpec : ComputerSpec) (file : RecordFile) :
    Change id none io.uuid file (provisionIntent io id requestKey effectiveSpec file).2 := by
  unfold provisionIntent
  split
  · exact .kept file
  · exact .kept file
  rename_i hload
  obtain ⟨rfl, -⟩ := loadProvision_eq_ok hload
  have hsave := saveUnlocked_file io
    (ComputerRecord.new id requestKey effectiveSpec io.now io.uuid) none
  dsimp only
  split <;>
  next heq =>
    rw [heq] at hsave
    rcases hsave with hfile | ⟨hfile, hvalid⟩
    · rw [hfile]
      exact .kept _
    · rw [hfile]
      exact .created _ hvalid rfl rfl

/-- Every operation changes the file in one of four ways. -/
theorem change_perform (io : StoreIo) (id : String) (file : RecordFile) (op : Op) :
    Change id op.generation io.uuid file (perform io id file op).2 := by
  cases op with
  | provisionIntent requestKey effectiveSpec =>
    exact change_provisionIntent io id requestKey effectiveSpec file
  | replayProvision requestKey => exact .kept file
  | transition generation tr => exact change_transition io id generation io.uuid tr file
  | updateLifecycle generation ttlDeadline idleTimeoutSeconds onIdle =>
    exact change_updateLifecycle io id generation io.uuid ttlDeadline idleTimeoutSeconds onIdle file
  | abortProvision generation =>
    exact change_deleteRecord io id generation io.uuid .creating file
  | finishRemove generation => exact change_deleteRecord io id generation io.uuid .removing file
  | cancelPendingOrMissing => exact change_cancelPendingOrMissing io id io.uuid file

/-! ## Replayed answers -/

/-- The generation and the outcome that a replayed provision answers with. -/
def replayed (before : RecordFile) : Reply → Option (Uuid × Option ComputerProvisionOutcome)
  | .intent (.ok (.replay record)) => some (record.generation, record.provisionOutcome)
  | .replay (.ok (some outcome)) => before.map fun record => (record.generation, some outcome)
  | _ => none

theorem provisioned_of_classify (h : classifyExistingProvision record requestKey = .ok .replay) :
    record.phase.provisioned := by
  unfold classifyExistingProvision at h
  split at h
  · cases h
  · cases hphase : record.phase <;> rw [hphase] at h <;> first | rfl | cases h

theorem provisionIntent_replay {effectiveSpec : ComputerSpec}
    (h : (provisionIntent io id requestKey effectiveSpec file).1 = .ok (.replay record)) :
    file = some record ∧ record.provisionOutcome.isSome := by
  unfold provisionIntent at h
  split at h
  · cases h
  next found hload =>
    obtain ⟨rfl, hvalid⟩ := loadProvision_eq_ok hload
    unfold classifyIntent at h
    split at h
    · cases h
    · cases h
    next hclassify =>
      split at h
      · cases h
      · cases h
        exact ⟨rfl, (hvalid _ rfl).provisioned (provisioned_of_classify hclassify)⟩
    · split at h <;> cases h
  · dsimp only at h
    split at h <;> cases h

theorem replayProvision_some {outcome : ComputerProvisionOutcome}
    (h : replayProvision io id requestKey file = .ok (some outcome)) :
    ∃ record, file = some record ∧ record.provisionOutcome = some outcome := by
  unfold replayProvision at h
  split at h
  · cases h
  · cases h
  rename_i found hload
  obtain ⟨rfl, -⟩ := loadProvision_eq_ok hload
  split at h
  · cases h
  · cases h
  · split at h
    · cases h
    · exact ⟨found, rfl, Except.ok.inj h⟩
  · split at h <;> cases h

theorem replayed_perform {op : Op} {generation : Uuid} {outcome : Option ComputerProvisionOutcome}
    (h : replayed file (perform io id file op).1 = some (generation, outcome)) :
    ∃ record, file = some record ∧ record.generation = generation ∧
      record.provisionOutcome = outcome ∧ outcome.isSome := by
  cases op with
  | provisionIntent requestKey effectiveSpec =>
    simp only [perform, replayed] at h
    split at h
    next record heq =>
      cases h
      obtain ⟨hfile, hsome⟩ := provisionIntent_replay (Reply.intent.inj heq)
      exact ⟨record, hfile, rfl, rfl, hsome⟩
    next heq =>
      cases heq
    · cases h
  | replayProvision requestKey =>
    simp only [perform, replayed] at h
    split at h
    next heq =>
      cases heq
    next outcome' heq =>
      obtain ⟨record, hfile, houtcome⟩ := replayProvision_some (Reply.replay.inj heq)
      rw [hfile] at h
      cases h
      exact ⟨record, hfile, rfl, houtcome, rfl⟩
    · cases h
  | _ => cases h

/-! ## Runs -/

/-- One operation of a run, with the file before and after it. -/
structure Entry where
  before : RecordFile
  op : Op
  reply : Reply
  after : RecordFile

/-- The file of an id, the generations drawn so far, and what happened. -/
structure Run where
  file : RecordFile
  minted : List Uuid
  log : List Entry

namespace Run

def start (file : RecordFile) : Run := ⟨file, file.toList.map ComputerRecord.generation, []⟩

/-- An operation; `none` where the random generator would repeat itself. -/
def step (id : String) (s : Run) (op : Op) (io : StoreIo) : Option Run :=
  if io.uuid ∈ s.minted then none
  else
    let result := perform io id s.file op
    some
      { file := result.2
        minted := io.uuid :: s.minted
        log := s.log ++ [⟨s.file, op, result.1, result.2⟩] }

def steps (id : String) (s : Run) : List (Op × StoreIo) → Option Run
  | [] => some s
  | (op, io) :: rest =>
    match s.step id op io with
    | none => none
    | some s => steps id s rest

end Run

/-- What holds of every operation: the file stays well formed, a record is only followed
by one of its generation on a legal edge with its key and its outcome, and another
generation than the record's changes nothing. -/
structure Sound (id : String) (e : Entry) : Prop where
  valid : ∀ record, e.after = some record → validateRecord id record = .ok ()
  succeeds : ∀ record next, e.before = some record → e.after = some next → Succeeds next record
  fenced : ∀ generation, e.op.generation = some generation →
    (∀ record, e.before = some record → record.generation ≠ generation) → e.after = e.before

theorem succeeds_refl (record : ComputerRecord) : Succeeds record record :=
  ⟨rfl, rfl, .inl (ComputerPhase.canTransitionTo_self _), fun _ h => h⟩

theorem sound_perform (hvalid : ∀ record, file = some record → Valid id record) (op : Op) :
    Sound id ⟨file, op, (perform io id file op).1, (perform io id file op).2⟩ := by
  have hchange := change_perform io id file op
  generalize (perform io id file op).1 = reply
  generalize (perform io id file op).2 = after at hchange
  cases hchange with
  | kept file =>
    refine ⟨fun record h => validateRecord_eq_ok_iff.mpr (hvalid record h), ?_, fun _ _ _ => rfl⟩
    intro record next hbefore hafter
    cases Option.some.inj (hbefore.symm.trans hafter)
    exact succeeds_refl record
  | updated record next hnextValid hnext hgeneration =>
    refine ⟨?_, ?_, ?_⟩
    · rintro next' ⟨⟩
      exact validateRecord_eq_ok_iff.mpr hnextValid
    · rintro record' next' ⟨⟩ ⟨⟩
      exact hnext
    · intro generation hop hstale
      have heq := Option.some.inj (hop.symm.trans hgeneration)
      exact absurd heq.symm (hstale record rfl)
  | removed record hgeneration =>
    refine ⟨(fun _ h => by cases h), (fun _ _ _ h => by cases h), ?_⟩
    intro generation hop hstale
    rcases hgeneration with hgeneration | hgeneration
    · have heq := Option.some.inj (hop.symm.trans hgeneration)
      exact absurd heq.symm (hstale record rfl)
    · cases hop.symm.trans hgeneration
  | created record hrecordValid hgeneration hnone =>
    refine ⟨?_, (fun _ _ h => by cases h), ?_⟩
    · rintro record' ⟨⟩
      exact validateRecord_eq_ok_iff.mpr hrecordValid
    · intro generation hop
      cases hop.symm.trans hnone

/-- What a run keeps. -/
structure Kept (id : String) (s : Run) : Prop where
  valid : ∀ record, s.file = some record → Valid id record
  drawn : ∀ record, s.file = some record → record.generation ∈ s.minted
  sound : ∀ e ∈ s.log, Sound id e
  answers : ∀ e ∈ s.log, ∀ generation outcome,
    replayed e.before e.reply = some (generation, outcome) →
      outcome.isSome ∧ generation ∈ s.minted ∧
        ∀ record, s.file = some record → record.generation = generation →
          record.provisionOutcome = outcome
  agree : ∀ e ∈ s.log, ∀ e' ∈ s.log, ∀ generation outcome outcome',
    replayed e.before e.reply = some (generation, outcome) →
      replayed e'.before e'.reply = some (generation, outcome') → outcome = outcome'

theorem kept_start (hvalid : ∀ record, file = some record → Valid id record) :
    Kept id (.start file) where
  valid := hvalid
  drawn := by
    rintro record h
    have h : file = some record := h
    rw [h]
    exact mem_singleton.mpr rfl
  sound := fun _ h => by cases h
  answers := fun _ h => by cases h
  agree := fun _ h => by cases h

theorem Change.origin {generation : Option Uuid} {uuid : Uuid} {next : ComputerRecord}
    (h : Change id generation uuid file (some next)) :
    (∃ record, file = some record ∧ Succeeds next record) ∨ next.generation = uuid := by
  cases h with
  | kept => exact .inl ⟨next, rfl, succeeds_refl next⟩
  | updated record _ _ hnext _ => exact .inl ⟨record, rfl, hnext⟩
  | created _ _ hgeneration _ => exact .inr hgeneration

theorem Kept.step {s s' : Run} {op : Op} (h : Kept id s) (hstep : s.step id op io = some s') :
    Kept id s' := by
  unfold Run.step at hstep
  split at hstep
  · cases hstep
  rename_i hfresh
  cases hstep
  have hchange := change_perform io id s.file op
  have hsound : Sound id ⟨s.file, op, (perform io id s.file op).1, (perform io id s.file op).2⟩ :=
    sound_perform h.valid op
  -- An earlier answer still agrees with the record: its generation is not the one just drawn.
  have hanswers : ∀ generation outcome, outcome.isSome → generation ∈ s.minted →
      (∀ record, s.file = some record → record.generation = generation →
        record.provisionOutcome = outcome) →
      ∀ record, (perform io id s.file op).2 = some record → record.generation = generation →
        record.provisionOutcome = outcome := by
    intro generation outcome hsome hminted hold record hafter hgeneration
    rw [hafter] at hchange
    rcases hchange.origin with ⟨record', hfile, hnext⟩ | hnew
    · have houtcome := hold record' hfile (hnext.generation ▸ hgeneration)
      obtain ⟨o, rfl⟩ := Option.isSome_iff_exists.mp hsome
      exact hnext.outcome o houtcome
    · exact absurd (hnew ▸ hgeneration ▸ hminted) hfresh
  -- The new answer is the outcome of the record that was there.
  have hnew : ∀ generation outcome,
      replayed s.file (perform io id s.file op).1 = some (generation, outcome) →
        outcome.isSome ∧ generation ∈ s.minted ∧
          ∀ record, s.file = some record → record.generation = generation →
            record.provisionOutcome = outcome := by
    intro generation outcome hreplayed
    obtain ⟨record, hfile, hgeneration, houtcome, hsome⟩ := replayed_perform hreplayed
    refine ⟨hsome, hgeneration ▸ h.drawn record hfile, fun record' hfile' _ => ?_⟩
    cases Option.some.inj (hfile.symm.trans hfile')
    exact houtcome
  refine ⟨?_, ?_, ?_, ?_, ?_⟩
  · intro record hrecord
    exact validateRecord_eq_ok_iff.mp (hsound.valid record hrecord)
  · intro record hrecord
    have hrecord : (perform io id s.file op).2 = some record := hrecord
    rw [hrecord] at hchange
    rcases hchange.origin with ⟨record', hfile, hnext⟩ | hgeneration
    · exact mem_cons_of_mem _ (hnext.generation ▸ h.drawn record' hfile)
    · exact mem_cons.mpr (.inl hgeneration)
  · exact forall_mem_append.mpr ⟨h.sound, forall_mem_singleton.mpr hsound⟩
  · intro e he generation outcome hreplayed
    have hkept := forall_mem_append.mpr ⟨h.answers, forall_mem_singleton.mpr hnew⟩
      e he generation outcome hreplayed
    exact ⟨hkept.1, mem_cons_of_mem _ hkept.2.1,
      hanswers generation outcome hkept.1 hkept.2.1 hkept.2.2⟩
  -- Two answers for a generation: both old, or one is the outcome of the current record.
  have hboth : ∀ e ∈ s.log, ∀ generation outcome outcome',
      replayed e.before e.reply = some (generation, outcome) →
        replayed s.file (perform io id s.file op).1 = some (generation, outcome') →
          outcome = outcome' := by
    intro e he generation outcome outcome' hold hreplayed
    obtain ⟨record, hfile, hgeneration, houtcome, -⟩ := replayed_perform hreplayed
    exact ((h.answers e he generation outcome hold).2.2 record hfile hgeneration).symm.trans
      houtcome
  intro e he e' he' generation outcome outcome' hrep hrep'
  rcases mem_append.mp he with he | he <;> rcases mem_append.mp he' with he' | he'
  · exact h.agree e he e' he' generation outcome outcome' hrep hrep'
  · cases mem_singleton.mp he'
    exact hboth e he generation outcome outcome' hrep hrep'
  · cases mem_singleton.mp he
    exact (hboth e' he' generation outcome' outcome hrep' hrep).symm
  cases mem_singleton.mp he
  cases mem_singleton.mp he'
  cases Option.some.inj (hrep.symm.trans hrep')
  rfl

theorem Kept.steps {s s' : Run} (ops : List (Op × StoreIo)) (h : Kept id s)
    (hsteps : s.steps id ops = some s') : Kept id s' := by
  induction ops generalizing s with
  | nil =>
    cases hsteps
    exact h
  | cons op ops ih =>
    unfold Run.steps at hsteps
    split at hsteps
    · cases hsteps
    next hstep =>
      exact ih (h.step hstep) hsteps

/-- **Idempotent provisioning.**  Over every sequence of operations on an id, with any
generations, keys and write outcomes: every operation keeps the file well formed, moves
the record of a generation along legal edges with its key and its outcome, and changes
nothing for a stale generation; and all replays of a generation answer alike. -/
theorem record_store_idempotent (id : String) (file : RecordFile) (ops : List (Op × StoreIo))
    (s : Run) (hstart : ∀ record, file = some record → validateRecord id record = .ok ())
    (hrun : (Run.start file).steps id ops = some s) :
    (∀ e ∈ s.log, Sound id e) ∧
      (∀ record, s.file = some record → validateRecord id record = .ok ()) ∧
      ∀ e ∈ s.log, ∀ e' ∈ s.log, ∀ generation outcome outcome',
        replayed e.before e.reply = some (generation, outcome) →
          replayed e'.before e'.reply = some (generation, outcome') → outcome = outcome' := by
  have hkept := (kept_start fun record h => validateRecord_eq_ok_iff.mp (hstart record h)).steps
    ops hrun
  exact ⟨hkept.sound, fun record h => validateRecord_eq_ok_iff.mpr (hkept.valid record h),
    hkept.agree⟩

/-- A healthy file system that draws `uuid` next. -/
def healthyIo (uuid : Uuid) : StoreIo := ⟨false, none, .committed, none, none, 0, uuid⟩

/-- A computer `box` is provisioned, acknowledged over an unsynced directory, and asked
for twice more, the second time under a stale generation. -/
def boxOps : List (Op × StoreIo) :=
  let spec : ComputerSpec := ⟨some "box", "", [], [], "", "", [], 0, none, 0, .kill⟩
  [(.provisionIntent "key" spec, healthyIo 1),
    (.transition 1 (.starting ⟨"10.0.0.2"⟩), { healthyIo 2 with write := .uncertain "EIO" }),
    (.provisionIntent "key" spec, healthyIo 3), (.transition 9 .ready, healthyIo 4),
    (.replayProvision "key", healthyIo 5)]

theorem record_store_idempotent_box :
    ∃ s, (Run.start none).steps "box" boxOps = some s ∧
      (s.log.filterMap fun e => replayed e.before e.reply)
        = [(1, some ⟨"10.0.0.2"⟩), (1, some ⟨"10.0.0.2"⟩)] ∧ ∀ e ∈ s.log, Sound "box" e :=
  ⟨_, rfl, by decide, (record_store_idempotent "box" none boxOps _ (fun _ h => by cases h) rfl).1⟩

end RecordStore

end Arcbox.Computer

import Arcbox.Foundation.History

set_option autoImplicit false

/-!
# Storage recovery: the hold on the System VM's disks

A hold file keeps the System VM from booting.  A recovery operation writes it before anything
else, checks copies of the disks, restarts the VM and verifies its writes, and only then removes
the file; a journal tells the next daemon what has happened.  Files are written atomically, but
a write may be refused, or visible without being durable, and the daemon may crash at any point.

A step is what happens between two awaits of the recovery worker.  Where it writes several files,
a crash in between is a crash after the step with the later writes refused.
-/

namespace Arcbox.Storage.Hold

open Foundation Foundation.History List

abbrev OperationId := Nat

/-! ## Files -/

/-- What readers see of a file, and what a power loss leaves of it. -/
structure File (α : Type) where
  visible : Option α
  durable : Option α

/-- How an atomic write ends. -/
inductive Written where
  | applied
  | refused
  /-- The new contents are visible, but the directory may still lose them. -/
  | uncertain
deriving DecidableEq, Repr

def File.write {α : Type} (f : File α) (a : α) : Written → File α
  | .applied => ⟨some a, some a⟩
  | .refused => f
  | .uncertain => { f with visible := some a }

/-- A crash, with or without the loss of what was not durable. -/
def File.crash {α : Type} (f : File α) (lost : Bool) : File α :=
  if lost then { f with visible := f.durable } else f

/-! ## Progress -/

inductive Action where
  | checkOnly
  | recover
deriving DecidableEq, Repr

inductive Phase where
  | stopping
  | preserving
  | checking
  | restarting
  | verifying
  | complete
  | failed
deriving DecidableEq, Repr

def Phase.terminal : Phase → Bool
  | .complete | .failed => true
  | _ => false

structure Progress where
  operationId : OperationId
  phase : Phase
  storageProtected : Bool
deriving DecidableEq, Repr

inductive Verdict where
  | passed
  | staleFreeSpaceTree
  | failed
deriving DecidableEq, Repr

/-- How far the worker has come: the step it is about to end. -/
inductive Stage where
  | stopping
  | preserving
  | checking
  | repairing
  | rebinding
  | restarting
  | verifying
  | completing
  /-- The hold is written again after a verification that failed. -/
  | reholding
  /-- `run_storage_recovery` returns without error. -/
  | returning (lifted : Bool)
  | failing
  | finishing (lifted : Bool)
deriving DecidableEq, Repr

/-- Once `run_storage_recovery` has returned, its reservation and the operation lock are gone. -/
def Stage.busy : Stage → Bool
  | .failing | .finishing _ => false
  | _ => true

structure Worker where
  action : Action
  operationId : OperationId
  stage : Stage
deriving DecidableEq, Repr

inductive Event where
  /-- A hold has been written durably. -/
  | held (id : OperationId)
  | checked (id : OperationId)
  | restarted (id : OperationId)
  | verified (id : OperationId)
  /-- The hold file has been removed. -/
  | lifted (id : OperationId) (action : Action)
  /-- No reservation is left. -/
  | released (id : OperationId)
  | published (progress : Progress)
deriving DecidableEq, Repr

/-- What `subscribe` reads: the newest progress published. -/
def lastPublished : List Event → Option Progress
  | [] => none
  | .published progress :: _ => some progress
  | _ :: older => lastPublished older

/-! ## The daemon -/

structure Process where
  /-- The owner retains the reservation. -/
  retained : Bool
  storageProtected : Bool
  cancelled : Bool
  cleanupError : Bool
  /-- A worker has panicked. -/
  joinError : Bool
  worker : Option Worker
deriving DecidableEq, Repr

def Process.busy (p : Process) : Bool := p.worker.any (·.stage.busy)

/-- The flag of `storage_maintenance`: some reservation is left. -/
def Process.reserved (p : Process) : Bool := p.retained || p.busy

structure Daemon where
  hold : File OperationId
  journal : File Progress
  /-- None after a crash, until `StorageRecovery::load` has succeeded. -/
  process : Option Process
  /-- The uuid of the next recovery. -/
  nextId : OperationId
  /-- Newest first. -/
  log : List Event

def Daemon.start : Daemon := ⟨⟨none, none⟩, ⟨none, none⟩, none, 0, []⟩

/-- What the awaits and the writes of one step come to. -/
structure Answer where
  works : Bool
  cleans : Bool
  verdict : Verdict
  unlinks : Bool
  syncs : Bool
  write : Written
deriving DecidableEq, Repr

namespace Daemon

variable (d : Daemon) (p : Process)

/-- `storage_permit`, for the System VM. -/
def storagePermit : Bool :=
  match d.process with
  | none => false
  | some p => !p.reserved && d.hold.visible.isNone

def note (e : Event) : Daemon := { d with log := e :: d.log }

def writeHold (id : OperationId) (w : Written) : Daemon :=
  { d with
    hold := d.hold.write id w
    log := if w = .applied then .held id :: d.log else d.log }

/-- `publish`: live only once the journal is written. -/
def publish (progress : Progress) (w : Written) : Daemon :=
  { d with
    journal := d.journal.write progress w
    log := if w = .applied then .published progress :: d.log else d.log }

def withProcess : Daemon := { d with process := some p }

/-! ## The worker -/

variable (w : Worker)

/-- The journal and then the next stage; without the journal the operation fails. -/
def enter (phase : Phase) (next : Stage) (works : Bool) (write : Written) (otherwise : Stage) :
    Daemon :=
  if works then
    (d.publish ⟨w.operationId, phase, true⟩ write).withProcess
      { p with worker := some { w with stage := if write = .applied then next else otherwise } }
  else d.withProcess { p with worker := some { w with stage := otherwise } }

variable (a : Answer)

/-- The offline check, with the cleanup of its guest. -/
def check : Daemon :=
  let p := { p with cleanupError := !a.cleans }
  if a.works && a.cleans && !p.cancelled && a.verdict ≠ .failed then
    let d := if a.verdict = .passed then d.note (.checked w.operationId) else d
    match w.action with
    | .checkOnly => d.enter p w .complete (.returning false) true a.write .failing
    | .recover =>
      if a.verdict = .passed then
        d.withProcess { p with worker := some { w with stage := .rebinding } }
      else d.enter p w .checking .repairing true a.write .failing
  else d.withProcess { p with worker := some { w with stage := .failing } }

/-- `Owner::complete`: the hold goes first, the journal says so, the reservation goes last. -/
def complete : Daemon :=
  let rehold := { p with worker := some { w with stage := .reholding } }
  if p.cancelled || !a.unlinks then d.withProcess rehold
  else
    let unlinked :=
      { d with
        hold := { d.hold with visible := none }
        log := .lifted w.operationId w.action :: d.log }
    if !a.syncs then unlinked.withProcess rehold
    else
      let synced := { unlinked with hold := ⟨none, none⟩ }
      let recorded :=
        { synced with journal := d.journal.write ⟨w.operationId, .complete, false⟩ a.write }
      if a.write = .applied then
        recorded.withProcess { p with
          retained := false
          storageProtected := false
          worker := some { w with stage := .returning true } }
      else recorded.withProcess rehold

/-- The worker ends the step it is in. -/
def work : Daemon :=
  let ok := a.works && !p.cancelled
  let goTo (stage : Stage) : Process := { p with worker := some { w with stage := stage } }
  match w.stage with
  | .stopping => d.enter p w .preserving .preserving ok a.write .failing
  | .preserving => d.enter p w .checking .checking ok a.write .failing
  | .checking => d.check p w a
  | .repairing =>
    if ok && a.cleans then (d.note (.checked w.operationId)).withProcess (goTo .rebinding)
    else d.withProcess { goTo .failing with cleanupError := !a.cleans }
  | .rebinding => d.enter p w .restarting .restarting a.works a.write .failing
  | .restarting =>
    if a.works then
      (d.note (.restarted w.operationId)).enter p w .verifying .verifying true a.write .reholding
    else d.withProcess (goTo .reholding)
  | .verifying =>
    if a.works then (d.note (.verified w.operationId)).withProcess (goTo .completing)
    else d.withProcess (goTo .reholding)
  | .completing => d.complete p w a
  | .reholding => (d.writeHold w.operationId a.write).withProcess (goTo .failing)
  | .returning lifted =>
    -- Dropping the worker's reservation releases the disks unless the owner retains its own.
    (if p.retained then d else d.note (.released w.operationId)).withProcess
      (goTo (.finishing lifted))
  | .failing =>
    -- The observation is published even where the journal could not be written.
    ({ d with journal := d.journal.write ⟨w.operationId, .failed, true⟩ a.write }.note
      (.published ⟨w.operationId, .failed, true⟩)).withProcess { p with worker := none }
  | .finishing lifted =>
    (d.note (.published ⟨w.operationId, .complete, !lifted⟩)).withProcess { p with worker := none }

/-! ## The other operations -/

/-- `persist_storage_protection`: the flag and the reservation, the hold, the journal.  Outside
the worker the owner alone has reservations, so it is never refused one. -/
def persistProtection (progress : Progress) (hold journal : Written) : Daemon :=
  let p := { p with storageProtected := true, retained := true }
  let failed : Event := .published { progress with phase := .failed }
  let held := d.writeHold progress.operationId hold
  if hold = .applied then
    let recorded := held.publish progress journal
    (if journal = .applied then recorded else recorded.note failed).withProcess p
  else (held.note failed).withProcess p

/-- `retain_worker_failure`: the operation last published has failed, and is protected. -/
def retainWorkerFailure (hold journal : Written) : Daemon :=
  match lastPublished d.log with
  | none => d
  | some progress => d.persistProtection p ⟨progress.operationId, .failed, true⟩ hold journal

/-- `recover_storage`: it joins the last worker, and starts one once protection is on disk. -/
def recoverStorage (action : Action) (works : Bool) (hold journal : Written) : Daemon :=
  if p.cancelled || p.worker.isSome || !works then d
  else if p.joinError then d.retainWorkerFailure p hold journal
  else if p.cleanupError then d
  else
    let started : Option Worker :=
      if hold = .applied ∧ journal = .applied then some ⟨action, d.nextId, .stopping⟩ else none
    { d with nextId := d.nextId + 1 }.persistProtection { p with worker := started }
      ⟨d.nextId, .stopping, true⟩ hold journal

/-- `close_storage_recovery`, after the worker has been joined. -/
def closeJoined (hold journal : Written) : Daemon :=
  if p.worker.isSome then d
  else
    let d := if p.joinError then d.retainWorkerFailure p hold journal else d
    match d.process with
    | none => d
    | some p =>
      if p.storageProtected ∨ !d.storagePermit then d.withProcess { p with retained := true }
      else d

/-- The worker's task panics; what it holds is dropped. -/
def panicked : Daemon :=
  (if p.retained || !w.stage.busy then d else d.note (.released w.operationId)).withProcess
    { p with joinError := true, worker := none }

def loaded : Daemon := d.withProcess ⟨false, d.hold.visible.isSome, false, false, false, none⟩

def reconcile (id : OperationId) (hold journal : Written) : Daemon :=
  let held := d.writeHold id hold
  if hold = .applied then
    let recorded := held.publish ⟨id, .failed, true⟩ journal
    if journal = .applied then recorded.loaded else recorded
  else held

/-- `StorageRecovery::load`. -/
def load (hold journal : Written) : Daemon :=
  match d.journal.visible, d.hold.visible with
  | none, none => d.loaded
  | none, some id =>
    let recorded := d.publish ⟨id, .failed, true⟩ journal
    if journal = .applied then recorded.loaded else recorded
  | some record, found =>
    if found.any (· ≠ record.operationId) then d.reconcile (found.getD 0) hold journal
    else if !record.phase.terminal then d.reconcile record.operationId hold journal
    else if record.storageProtected && found.isNone then
      let held := d.writeHold record.operationId hold
      if hold = .applied then held.loaded else held
    else d.loaded

/-! ## Histories -/

inductive Move where
  | recoverStorage (action : Action) (works : Bool) (hold journal : Written)
  | work (answer : Answer)
  | protectFailedStart (id : OperationId) (hold journal : Written)
  /-- A boot that was admitted finds the disk pair invalid. -/
  | holdFailedBoot (id : OperationId) (hold : Written)
  | close
  | closeJoined (hold journal : Written)
  | panicked
  | crash (holdLost journalLost : Bool)
  | load (hold journal : Written)
deriving DecidableEq, Repr

def next (m : Move) : Daemon :=
  match m, d.process with
  | .crash holdLost journalLost, _ =>
    { d with
      hold := d.hold.crash holdLost
      journal := d.journal.crash journalLost
      process := none }
  | .load hold journal, none => d.load hold journal
  | .recoverStorage action works hold journal, some p =>
    d.recoverStorage p action works hold journal
  | .work answer, some p =>
    match p.worker with
    | none => d
    | some w => d.work p w answer
  | .protectFailedStart id hold journal, some p =>
    if p.busy then d else d.persistProtection p ⟨id, .failed, true⟩ hold journal
  | .holdFailedBoot id hold, some _ => if d.storagePermit then d.writeHold id hold else d
  | .close, some p => d.withProcess { p with cancelled := true }
  | .closeJoined hold journal, some p => d.closeJoined p hold journal
  | .panicked, some p =>
    match p.worker with
    | none => d
    | some w => d.panicked p w
  | _, _ => d

def run (moves : List Move) : Daemon := after next start moves

/-! ## What the log must show -/

end Daemon

/-- A hold has been written since the last verification. -/
def owed : List Event → Bool
  | [] => false
  | .held _ :: _ => true
  | .verified _ :: _ => false
  | _ :: older => owed older

/-- What must have happened before an event. -/
def Event.Earned (older : List Event) : Event → Prop
  | .verified id => .checked id ∈ older ∧ .restarted id ∈ older
  | .lifted id action => action = .recover ∧ .verified id ∈ older
  | .published ⟨id, .complete, false⟩ => .lifted id .recover ∈ older ∧ .released id ∈ older
  | _ => True

def Lawful : List Event → Prop
  | [] => True
  | e :: older => e.Earned older ∧ Lawful older

theorem Lawful.earned {newer older : List Event} {e : Event} (h : Lawful (newer ++ e :: older)) :
    e.Earned older := by
  induction newer with
  | nil => exact h.1
  | cons _ _ ih => exact ih h.2

theorem owed_of_held {newer older : List Event} {id : OperationId}
    (h : ∀ op, .verified op ∉ newer) : owed (newer ++ .held id :: older) = true := by
  induction newer with
  | nil => rfl
  | cons e newer ih =>
    have ih := ih fun op hop => h op (mem_cons_of_mem _ hop)
    cases e with
    | verified op => exact absurd mem_cons_self (h op)
    | held _ => rfl
    | _ => exact ih

/-! ## The invariant -/

/-- What the worker's stage says about the log. -/
def Worker.Sound (w : Worker) (retained : Bool) (log : List Event) : Prop :=
  match w.stage with
  | .repairing => w.action = .recover
  | .rebinding | .restarting => w.action = .recover ∧ .checked w.operationId ∈ log
  | .verifying =>
    w.action = .recover ∧ .checked w.operationId ∈ log ∧ .restarted w.operationId ∈ log
  | .completing => w.action = .recover ∧ .verified w.operationId ∈ log ∧ owed log = false
  | .returning lifted => lifted = true → retained = false ∧ .lifted w.operationId .recover ∈ log
  | .finishing lifted =>
    lifted = true → .lifted w.operationId .recover ∈ log ∧ .released w.operationId ∈ log
  | _ => True

/-- A worker that has left its operation says only what has happened. -/
theorem Worker.Sound.idle {w : Worker} {retained retained' : Bool} {log log' : List Event}
    (h : w.Sound retained log) (hbusy : w.stage.busy = false) (hlog : log ⊆ log') :
    w.Sound retained' log' := by
  obtain ⟨action, id, stage⟩ := w
  cases stage with
  | finishing lifted => exact fun hl => ⟨hlog (h hl).1, hlog (h hl).2⟩
  | failing => trivial
  | _ => simp [Stage.busy] at hbusy

namespace Daemon

/-- The part of the invariant that survives a crash. -/
structure Recorded (d : Daemon) : Prop where
  kept : owed d.log = true → d.hold.visible.isSome ∧ d.hold.durable.isSome
  lawful : Lawful d.log

structure Sound (d : Daemon) : Prop extends Recorded d where
  worker : ∀ p w, d.process = some p → p.worker = some w → w.Sound p.retained d.log

variable {d : Daemon} {p : Process} {w : Worker} {id : OperationId} {wr : Written}

theorem Recorded.note (h : d.Recorded) (e : Event) (hearned : e.Earned d.log)
    (hheld : ∀ id, e ≠ .held id := by simp) : (d.note e).Recorded := by
  refine ⟨fun howed => h.kept ?_, hearned, h.lawful⟩
  cases e with
  | held id => exact absurd rfl (hheld id)
  | verified id => simp [Daemon.note, owed] at howed
  | _ => exact howed

theorem Recorded.writeHold (h : d.Recorded) : (d.writeHold id wr).Recorded := by
  cases wr with
  | applied => exact ⟨fun _ => ⟨rfl, rfl⟩, trivial, h.lawful⟩
  | refused => exact ⟨h.kept, h.lawful⟩
  | uncertain => exact ⟨fun howed => ⟨rfl, (h.kept howed).2⟩, h.lawful⟩

theorem earned_protected (log : List Event) (id : OperationId) (phase : Phase) :
    Event.Earned log (.published ⟨id, phase, true⟩) := by
  cases phase <;> trivial

variable {phase : Phase} (a : Answer) {journal hold : Written}

section

variable (h : d.Recorded)

include h

theorem Recorded.publish : (d.publish ⟨id, phase, true⟩ wr).Recorded := by
  have hnoted := h.note _ (earned_protected d.log id phase)
  cases wr with
  | applied => exact ⟨hnoted.kept, hnoted.lawful⟩
  | refused | uncertain => exact ⟨h.kept, h.lawful⟩

theorem Recorded.withProcess (hworker : ∀ w, p.worker = some w → w.Sound p.retained d.log) :
    (d.withProcess p).Sound := ⟨⟨h.kept, h.lawful⟩, by rintro _ w ⟨⟩ hw; exact hworker w hw⟩

/-- The form the worker's own steps take. -/
theorem Recorded.goTo (hp : p.worker = some w) (hw : w.Sound p.retained d.log) :
    (d.withProcess p).Sound := h.withProcess fun w' hw' => by rw [hp] at hw'; cases hw'; exact hw

theorem Recorded.loaded : d.loaded.Sound := h.withProcess fun _ hw => nomatch hw

theorem Recorded.down (hp : d.process = none) : d.Sound := ⟨h, fun p w hp' => by simp [hp] at hp'⟩

/-! ## Steps of the worker -/

theorem Recorded.enter {next otherwise : Stage} {works : Bool}
    (hnext : { w with stage := next : Worker }.Sound p.retained
      (.published ⟨w.operationId, phase, true⟩ :: d.log))
    (hother : ∀ log, { w with stage := otherwise : Worker }.Sound p.retained log) :
    (d.enter p w phase next works wr otherwise).Sound := by
  unfold Daemon.enter
  cases works with
  | false => exact h.goTo rfl (hother _)
  | true =>
    refine h.publish.goTo rfl ?_
    cases wr with
    | applied => exact hnext
    | refused | uncertain => exact hother _

end

theorem Recorded.check (h : d.Recorded) : (d.check p w a).Sound := by
  have hchecked : (d.note (.checked w.operationId)).Recorded :=
    h.note _ trivial
  obtain ⟨action, id, stage⟩ := w
  unfold Daemon.check
  dsimp only
  split
  · by_cases hpassed : a.verdict = .passed
    · simp only [if_pos hpassed]
      cases action with
      | checkOnly => exact hchecked.enter (fun hl => nomatch hl) (fun _ => trivial)
      | recover => exact hchecked.goTo rfl ⟨rfl, mem_cons_self⟩
    simp only [if_neg hpassed]
    cases action with
    | checkOnly => exact h.enter (fun hl => nomatch hl) (fun _ => trivial)
    | recover => exact h.enter rfl (fun _ => trivial)
  · exact h.goTo rfl trivial

theorem Recorded.complete (h : d.Recorded) (haction : w.action = .recover)
    (hverified : .verified w.operationId ∈ d.log) (hfree : owed d.log = false) :
    (d.complete p w a).Sound := by
  have hunlinked (file : File OperationId) (journal : File Progress) :
      Recorded ⟨file, journal, d.process, d.nextId, .lifted w.operationId w.action :: d.log⟩ :=
    ⟨fun howed => absurd howed (by simp [owed, hfree]), ⟨haction, hverified⟩, h.lawful⟩
  unfold Daemon.complete
  split
  · exact h.goTo rfl trivial
  dsimp only
  split
  · exact (hunlinked _ _).goTo rfl trivial
  split
  · refine (hunlinked _ _).goTo rfl (fun _ => ⟨rfl, ?_⟩)
    simp [haction]
  · exact (hunlinked _ _).goTo rfl trivial

theorem Sound.work (h : d.Sound) (hw : w.Sound p.retained d.log) : (d.work p w a).Sound := by
  have hr := h.toRecorded
  obtain ⟨action, id, stage⟩ := w
  cases stage with
  | stopping | preserving => exact hr.enter trivial (fun _ => trivial)
  | checking => exact hr.check a
  | repairing =>
    unfold Daemon.work
    dsimp only
    split
    · exact (hr.note (.checked id) trivial).goTo rfl ⟨hw, mem_cons_self⟩
    · exact hr.goTo rfl trivial
  | rebinding => exact hr.enter ⟨hw.1, mem_cons_of_mem _ hw.2⟩ (fun _ => trivial)
  | restarting =>
    unfold Daemon.work
    dsimp only
    split
    · refine (hr.note (.restarted id) trivial).enter ?_ (fun _ => trivial)
      exact ⟨hw.1, by simp [Daemon.note, hw.2], by simp [Daemon.note]⟩
    · exact hr.goTo rfl trivial
  | verifying =>
    unfold Daemon.work
    dsimp only
    split
    · exact (hr.note (.verified id) hw.2).goTo rfl ⟨hw.1, mem_cons_self, rfl⟩
    · exact hr.goTo rfl trivial
  | completing => exact hr.complete a hw.1 hw.2.1 hw.2.2
  | reholding => exact hr.writeHold.goTo rfl trivial
  | returning lifted =>
    unfold Daemon.work
    dsimp only
    split
    next hretained =>
      exact hr.goTo rfl (fun hl => absurd hretained (by simp [(hw hl).1]))
    · exact (hr.note (.released id) trivial).goTo rfl
        (fun hl => ⟨mem_cons_of_mem _ (hw hl).2, mem_cons_self⟩)
  | failing =>
    have hnoted := hr.note _ (earned_protected d.log id .failed)
    exact Recorded.withProcess ⟨hnoted.kept, hnoted.lawful⟩ (fun _ hw => nomatch hw)
  | finishing lifted =>
    refine (hr.note (.published ⟨id, .complete, !lifted⟩) ?_).withProcess (fun _ hw => nomatch hw)
    cases lifted with
    | true => exact hw rfl
    | false => trivial

/-! ## The other steps -/

theorem log_writeHold : d.log ⊆ (d.writeHold id wr).log := by
  unfold Daemon.writeHold
  dsimp only
  split <;> simp

theorem Recorded.persistProtection (h : d.Recorded)
    (hworker : ∀ w log, p.worker = some w → d.log ⊆ log → w.Sound true log) :
    (d.persistProtection p ⟨id, phase, true⟩ hold journal).Sound := by
  have hheld : (d.writeHold id hold).Recorded := h.writeHold
  have hfailed {d' : Daemon} (hd : d'.Recorded) :=
    hd.note _ (earned_protected d'.log id .failed)
  have hpublish : (d.writeHold id hold).log ⊆
      ((d.writeHold id hold).publish ⟨id, phase, true⟩ journal).log := by
    unfold Daemon.publish
    dsimp only
    split <;> simp
  unfold Daemon.persistProtection
  dsimp only
  split
  · split
    · exact hheld.publish.withProcess fun w hw =>
        hworker w _ hw (List.Subset.trans log_writeHold hpublish)
    · exact (hfailed hheld.publish).withProcess fun w hw =>
        hworker w _ hw (subset_cons_of_subset _ (List.Subset.trans log_writeHold hpublish))
  · exact (hfailed hheld).withProcess fun w hw =>
      hworker w _ hw (subset_cons_of_subset _ log_writeHold)

theorem Sound.retainWorkerFailure (h : d.Sound) (hw : p.worker = none) :
    (d.retainWorkerFailure p hold journal).Sound := by
  unfold Daemon.retainWorkerFailure
  split
  · exact h
  · exact h.toRecorded.persistProtection fun w _ hw' _ => by simp [hw] at hw'

theorem Sound.recoverStorage {action : Action} {works : Bool} (h : d.Sound) :
    (d.recoverStorage p action works hold journal).Sound := by
  unfold Daemon.recoverStorage
  split
  · exact h
  next hidle =>
  split
  · exact h.retainWorkerFailure (by simp at hidle; exact hidle.1.2)
  split
  · exact h
  refine Recorded.persistProtection ⟨h.kept, h.lawful⟩ fun w log hw _ => ?_
  dsimp only at hw
  split at hw
  · cases hw
    trivial
  · cases hw

theorem worker_retainWorkerFailure {p' : Process} (hp : d.process = some p)
    (hp' : (d.retainWorkerFailure p hold journal).process = some p') : p'.worker = p.worker := by
  unfold Daemon.retainWorkerFailure Daemon.persistProtection at hp'
  split at hp'
  · rw [hp] at hp'
    cases hp'
    rfl
  · dsimp only at hp'
    split at hp' <;> cases hp' <;> rfl

theorem Sound.closeJoined (h : d.Sound) (hp : d.process = some p) :
    (d.closeJoined p hold journal).Sound := by
  unfold Daemon.closeJoined
  split
  · exact h
  next hidle =>
  have hidle : p.worker = none := by simpa using hidle
  have hretained : (if p.joinError then d.retainWorkerFailure p hold journal else d).Sound ∧
      ∀ p', (if p.joinError then d.retainWorkerFailure p hold journal else d).process = some p' →
        p'.worker = none := by
    split
    · exact ⟨h.retainWorkerFailure hidle,
        fun p' hp' => (worker_retainWorkerFailure hp hp').trans hidle⟩
    · refine ⟨h, fun p' hp' => ?_⟩
      rw [← Option.some.inj (hp.symm.trans hp')]
      exact hidle
  dsimp only
  generalize (if p.joinError then d.retainWorkerFailure p hold journal else d) = d' at hretained ⊢
  split
  · exact hretained.1
  next p' hp' =>
  split
  · exact hretained.1.toRecorded.withProcess fun w hw => by
      simp [hretained.2 p' hp'] at hw
  · exact hretained.1

theorem Recorded.panicked (h : d.Recorded) : (d.panicked p w).Sound := by
  unfold Daemon.panicked
  split
  · exact h.withProcess fun _ hw => nomatch hw
  · exact (h.note (.released w.operationId) trivial).withProcess fun _ hw => nomatch hw

theorem Recorded.reconcile (h : d.Recorded) (hp : d.process = none) :
    (d.reconcile id hold journal).Sound := by
  unfold Daemon.reconcile
  dsimp only
  split
  · split
    · exact h.writeHold.publish.loaded
    · exact h.writeHold.publish.down hp
  · exact h.writeHold.down hp

theorem Recorded.load (h : d.Recorded) (hp : d.process = none) : (d.load hold journal).Sound := by
  unfold Daemon.load
  split
  · exact h.loaded
  · dsimp only
    split
    · exact h.publish.loaded
    · exact h.publish.down hp
  split
  · exact h.reconcile hp
  split
  · exact h.reconcile hp
  split
  · dsimp only
    split
    · exact h.writeHold.loaded
    · exact h.writeHold.down hp
  · exact h.loaded

theorem File.crash_isSome {α : Type} {f : File α} {lost : Bool}
    (h : f.visible.isSome ∧ f.durable.isSome) :
    (f.crash lost).visible.isSome ∧ (f.crash lost).durable.isSome := by
  cases lost with
  | false => exact h
  | true => exact ⟨h.2, h.2⟩

/-- Without a busy worker anyone may write a hold. -/
theorem Sound.idle {log : List Event} {retained : Bool} (h : d.Sound) (hp : d.process = some p)
    (hbusy : p.busy = false) (hw : p.worker = some w) (hlog : d.log ⊆ log) : w.Sound retained log :=
  (h.worker p w hp hw).idle (by simpa [Process.busy, hw] using hbusy) hlog

theorem Sound.next (m : Move) (h : d.Sound) : (d.next m).Sound := by
  unfold Daemon.next
  split
  · exact ⟨⟨fun howed => File.crash_isSome (h.kept howed), h.lawful⟩, fun _ _ hp => nomatch hp⟩
  next hp =>
    exact h.load hp
  · exact h.recoverStorage
  next p hp =>
    split
    · exact h
    next w hw =>
      exact h.work _ (h.worker p w hp hw)
  next p hp =>
    split
    · exact h
    next hbusy =>
      exact h.toRecorded.persistProtection fun w log hw hlog =>
        h.idle hp (by simpa using hbusy) hw hlog
  next p hp =>
    split
    next hpermit =>
      have hbusy : p.busy = false := by
        simp [storagePermit, hp, Process.reserved] at hpermit
        exact hpermit.1.2
      refine ⟨h.toRecorded.writeHold, fun p' w hp' hw => ?_⟩
      rw [show p' = p from Option.some.inj (hp'.symm.trans hp)] at hw ⊢
      exact h.idle hp hbusy hw log_writeHold
    · exact h
  next p hp =>
    exact h.toRecorded.withProcess fun w hw => h.worker p w hp hw
  next hp =>
    exact h.closeJoined hp
  · split
    · exact h
    · exact h.toRecorded.panicked
  · exact h

theorem sound_run (moves : List Move) : (run moves).Sound := by
  refine keeps (P := fun _ _ => True) (fun _ m h _ => h.next m) ?_ (fun _ _ _ _ => trivial)
  exact ⟨⟨fun howed => (nomatch howed), trivial⟩, fun _ _ hp => (nomatch hp)⟩

theorem storagePermit_of_owed (h : d.Recorded) (howed : owed d.log = true) :
    d.storagePermit = false := by
  obtain ⟨id, hid⟩ := Option.isSome_iff_exists.mp (h.kept howed).1
  unfold Daemon.storagePermit
  split
  · rfl
  · simp [hid]

/-- In every history, a hold written durably and not followed by a verification of writes is still
on file, and keeps the System VM from booting.  Every verification follows the same operation's offline check and
restart, only a verified recovery removes the hold, and a live outcome without protection comes
after the hold is gone and the reservation released. -/
theorem hold_lifted_only_by_verified_recovery (moves : List Move) :
    (∀ newer older id, (run moves).log = newer ++ .held id :: older →
      (∀ op, .verified op ∉ newer) →
      (run moves).hold.visible.isSome ∧ (run moves).storagePermit = false) ∧
    (∀ newer older op, (run moves).log = newer ++ .verified op :: older →
      .checked op ∈ older ∧ .restarted op ∈ older) ∧
    (∀ newer older op action, (run moves).log = newer ++ .lifted op action :: older →
      action = .recover ∧ .verified op ∈ older) ∧
    (∀ newer older op, (run moves).log = newer ++ .published ⟨op, .complete, false⟩ :: older →
      .lifted op .recover ∈ older ∧ .released op ∈ older) := by
  have hsound := sound_run moves
  have hlawful := hsound.lawful
  refine ⟨fun newer older id hlog hnone => ?_, fun newer older op hlog => ?_,
    fun newer older op action hlog => ?_, fun newer older op hlog => ?_⟩
  · have howed : owed (run moves).log = true := by
      rw [hlog]
      exact owed_of_held hnone
    exact ⟨(hsound.kept howed).1, storagePermit_of_owed hsound.toRecorded howed⟩
  all_goals
    rw [hlog] at hlawful
    exact hlawful.earned

/-- A recovery whose completion crashes between the hold and the journal is protected by the
next daemon; the recovery after that completes, and the System VM may boot. -/
theorem hold_lifted_only_by_verified_recovery_after_crash :
    let ok : Answer := ⟨true, true, .passed, true, true, .applied⟩
    let recovery := Move.recoverStorage .recover true .applied .applied
    let crashed := [.load .applied .applied, recovery] ++ List.replicate 6 (.work ok) ++
      [.work { ok with write := .refused }, .crash true true]
    let protectedAgain := crashed ++ [.load .applied .applied]
    let recovered := protectedAgain ++ [recovery] ++ List.replicate 9 (.work ok)
    (run crashed).hold.visible = none ∧ (run protectedAgain).storagePermit = false ∧
      (run recovered).storagePermit = true ∧
      .published ⟨1, .complete, false⟩ ∈ (run recovered).log := by
  intro ok recovery crashed protectedAgain recovered
  refine ⟨by decide +kernel, ?_, by decide +kernel, by decide +kernel⟩
  exact ((hold_lifted_only_by_verified_recovery protectedAgain).1
    [.published ⟨0, .failed, true⟩] (run crashed).log 0 (by decide +kernel) (by simp)).2

end Daemon

end Arcbox.Storage.Hold

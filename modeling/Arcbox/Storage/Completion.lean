import Arcbox.Storage.Recovery

/-!
# The call that nothing interrupts

A pair that can be taken up is brought to its end by one undisturbed call, operation by operation:
from the manifest that is there, or from nothing.
-/

set_option autoImplicit false

namespace Arcbox.Storage

open Foundation StorageManifest
open Foundation.Program

/-! ## Operations that go through -/

section Operations

variable {d : Disk}

theorem inspect_runs {α : Type} {f : Disk → Except Error α} {value : α} (h : f d = .ok value) :
    inspect f [] d = (.returned value, [], d) := operation_runs (by rw [h]; rfl)

theorem inspect_errs {α : Type} {f : Disk → Except Error α} {error : Error}
    (h : f d = .error error) : inspect f [] d = (.raised error, [], d) :=
  operation_errs (by rw [h]; rfl)

variable {name : Name}

theorem identity_runs {image : ImageIdentity} (h : d.dir.entry name = some (.regular image)) :
    identity name [] d = (.returned image, [], d) := inspect_runs (by rw [h]; rfl)

theorem identity_missing (h : d.dir.entry name = none) :
    identity name [] d = (.raised .notFound, [], d) := inspect_errs (by rw [h]; rfl)

theorem tryExists_missing (h : d.dir.entry name = none) :
    tryExists name [] d = (.returned false, [], d) := inspect_runs (by rw [h]; rfl)

theorem verifyAt_runs {m : StorageManifest} {role : VolumeRole} {image : ImageIdentity}
    (hentry : d.dir.entry name = some (.regular image))
    (hverify : m.verifyVolume role (.entry name) (d.file image) = .ok ()) :
    verifyAt m role (.entry name) [] d = (.returned (), [], d) := by
  have hopened : d.opened (.entry name) = .ok (d.file image) := by
    unfold Disk.opened
    dsimp only
    rw [hentry]
  have hopen : openFile (.entry name) [] d = (.returned (d.file image), [], d) :=
    inspect_runs hopened
  unfold verifyAt
  rw [bind_returned hopen, lift_ok hverify]

theorem hardLink_runs {original link : Name} {entry : Entry}
    (horiginal : d.dir.entry original = some entry) (hfree : d.dir.entry link = none) :
    hardLink original link [] d = (.returned (), [], d.setEntry link (some entry)) :=
  operation_runs (by rw [horiginal, hfree]; rfl)

theorem removeFile_runs {entry : Entry} (h : d.dir.entry name = some entry) :
    removeFile name [] d = (.returned (), [], d.setEntry name none) :=
  operation_runs (by rw [h]; rfl)

theorem createNew_runs (h : d.dir.entry name = none) :
    createNew name [] d = (.returned d.fresh, [], d.create name) := operation_runs (by rw [h]; rfl)

theorem modify_runs (image : ImageIdentity) (f : File → File) :
    modify image f [] d = (.returned (), [], d.setFile image (f (d.file image))) :=
  operation_runs rfl

theorem syncDirectory_runs : syncDirectory [] d = (.returned (), [], d.synced) := operation_runs rfl

theorem save_runs {m : StorageManifest} (h : m.Valid) :
    save m [] d = (.returned (), [], (d.setManifest m).synced) := by
  unfold save atomicWrite
  rw [bind_returned (lift_ok ((m.validate_eq_ok_iff).mpr h)), bind_returned (operation_runs rfl),
    bind_returned (operation_runs rfl), operation_runs rfl]

end Operations

/-! ## Publishing -/

section Publishing

variable {pair : Pair} {m : StorageManifest} {d : Disk}

section

variable (h : Resumes pair d.file m d.dir)

include h

theorem Resumes.verifies (role : VolumeRole) (path : Path) :
    m.verifyVolume role path (d.file (m.volume role).image) = .ok () := by
  unfold verifyVolume
  rw [h.new role]
  exact (verifyNewVolume_eq_ok_iff _ _ _).mpr (h.header role)

theorem publishImage_runs (role : VolumeRole) :
    ∃ d', publishImage m role [] d = (.returned (), [], d') ∧ d'.file = d.file ∧
      Resumes pair d'.file m d'.dir := by
  unfold publishImage
  rcases h.holds role with ⟨hfree, hstaged⟩ | ⟨hplaced, -⟩
  · refine ⟨d.setEntry (.file (m.volume role).filename) (some (.regular (m.volume role).image)),
      ?_, rfl, h.link hstaged⟩
    rw [bind_returned (attempt_raised (identity_missing hfree))]
    dsimp only
    rw [if_neg (by simp [h.new role]), bind_returned (identity_runs hstaged),
      if_neg (by simp), bind_returned (verifyAt_runs hstaged (h.verifies role _)),
      hardLink_runs hstaged hfree]
  refine ⟨d, ?_, rfl, h⟩
  rw [bind_returned (attempt_returned (identity_runs hplaced))]
  dsimp only
  rw [if_pos rfl, verifyAt_runs hplaced (h.verifies role _)]

theorem unstageImage_runs {role : VolumeRole} (hplaced : Placed m role d) :
    ∃ d', unstageImage m role [] d = (.returned (), [], d') ∧ d'.file = d.file ∧
      Resumes pair d'.file m d'.dir := by
  have hstaged : d.dir.entry (.staged (m.volume role).filesystemUuid) = none ∨
      d.dir.entry (.staged (m.volume role).filesystemUuid) =
        some (.regular (m.volume role).image) := by
    rcases h.holds role with ⟨-, hthere⟩ | ⟨-, heither⟩
    · exact .inr hthere
    · exact heither
  unfold unstageImage
  rcases hstaged with hgone | hthere
  · refine ⟨d, ?_, rfl, h⟩
    rw [bind_returned (attempt_raised (identity_missing hgone))]
    rfl
  refine ⟨d.setEntry (.staged (m.volume role).filesystemUuid) none, ?_, rfl, h.unstage hplaced⟩
  rw [bind_returned (attempt_returned (identity_runs hthere))]
  dsimp only
  rw [if_pos rfl, removeFile_runs hthere]

theorem publishBoth_runs :
    ∃ d₁ d₂, publishImage m .data [] d = (.returned (), [], d₁) ∧
      publishImage m .metadata [] d₁ = (.returned (), [], d₂) ∧ Resumes pair d₂.file m d₂.dir ∧
      ∀ role, Placed m role d₂ := by
  obtain ⟨d₁, hrun₁, -, h₁⟩ := publishImage_runs h .data
  obtain ⟨d₂, hrun₂, -, h₂⟩ := publishImage_runs h₁ .metadata
  have hdata : Triple (PrepareStep pair 0 True) _ _ _ _ :=
    triple_publishImage m .data fun _ => False
  have hmetadata : Triple (PrepareStep pair 0 True) _ _ _ _ :=
    triple_publishImage m .metadata fun r => False ∨ r = .data
  have hrecorded : Recorded m (fun _ => False) d := ⟨h.manifest, fun _ hfalse => hfalse.elim⟩
  have hboth := hmetadata.of_returned (hdata.of_returned hrecorded hrun₁) hrun₂
  refine ⟨d₁, d₂, hrun₁, hrun₂, h₂, fun role => hboth.placed role ?_⟩
  cases role with
  | data => exact .inl (.inr rfl)
  | metadata => exact .inr rfl

theorem publishImages_runs :
    ∃ d', publishImages m [] d = (.returned (), [], d') ∧ Resumes pair d'.file m d'.dir ∧
      ∀ role, Placed m role d' := by
  obtain ⟨d₁, d₂, hrun₁, hrun₂, h₂, hplaced₂⟩ := publishBoth_runs h
  obtain ⟨d₃, hrun₃, -, h₃⟩ :=
    unstageImage_runs (d := d₂.synced) h₂ (hplaced₂ .data)
  have hunstage : Triple (PrepareStep pair 0 True) _ _ _ _ :=
    triple_unstageImage m .data (fun _ => True) trivial
  have hrecorded₃ := hunstage.of_returned (s := d₂.synced)
    ⟨h₂.manifest, fun role _ => hplaced₂ role⟩ hrun₃
  obtain ⟨d₄, hrun₄, -, h₄⟩ := unstageImage_runs h₃ (hrecorded₃.placed .metadata trivial)
  have hunstage' : Triple (PrepareStep pair 0 True) _ _ _ _ :=
    triple_unstageImage m .metadata (fun _ => True) trivial
  have hrecorded₄ := hunstage'.of_returned hrecorded₃ hrun₄
  refine ⟨d₄.synced, ?_, h₄, fun role => hrecorded₄.placed role trivial⟩
  unfold publishImages
  rw [bind_returned hrun₁, bind_returned hrun₂, bind_returned syncDirectory_runs,
    bind_returned hrun₃, bind_returned hrun₄, syncDirectory_runs]

end

/-- The two images are where the manifest says, and carry their headers. -/
def Provisioned (m : StorageManifest) (d : Disk) : Prop :=
  ∀ role, Placed m role d ∧
    carriesHeader (d.file (m.volume role).image) (m.volume role).filesystemUuid = true

theorem growImage_runs (h : Provisioned m d) (role : VolumeRole) (size : Nat) :
    ∃ d', growImage (m.volume role).filename size [] d = (.returned (), [], d') ∧
      Provisioned m d' := by
  refine ⟨d.setFile (m.volume role).image (if (d.file (m.volume role).image).length < size then
    (d.file (m.volume role).image).setLen size else d.file (m.volume role).image), ?_, ?_⟩
  · unfold growImage
    rw [bind_returned (identity_runs (h role).1), modify_runs]
  intro other
  refine ⟨(h other).1, ?_⟩
  by_cases hsame : (m.volume other).image = (m.volume role).image
  · rw [hsame, Disk.file_setFile_same, ← hsame]
    exact carriesHeader_of_extends (extends_grown _ size) (h other).2
  · rw [Disk.file_setFile_ne _ _ hsame]
    exact (h other).2

theorem publishAndGrow_runs (h : Resumes pair d.file m d.dir) (dataSize metadataSize : Nat) :
    ∃ d', publishAndGrow pair m dataSize metadataSize [] d = (.returned m, [], d') ∧
      Provisioned m d' := by
  obtain ⟨d₁, hrun₁, h₁, hplaced⟩ := publishImages_runs h
  obtain ⟨d₂, hrun₂, h₂⟩ := growImage_runs (d := d₁) (fun role => ⟨hplaced role, h₁.header role⟩)
    .data dataSize
  obtain ⟨d₃, hrun₃, h₃⟩ := growImage_runs h₂ .metadata metadataSize
  rw [h.names .data] at hrun₂
  rw [h.names .metadata] at hrun₃
  refine ⟨d₃, ?_, h₃⟩
  unfold publishAndGrow
  rw [bind_returned hrun₁]
  change (growImage (pair.filename .data) dataSize >>= _) [] d₁ = _
  rw [bind_returned hrun₂]
  change (growImage (pair.filename .metadata) metadataSize >>= _) [] d₂ = _
  rw [bind_returned hrun₃]
  rfl

end Publishing

/-! ## Beginning from nothing -/

/-- The UUIDs a call draws can be used: they are two, neither is nil and none is in use. -/
structure Drawn.Usable (drawn : Drawn) (d : Disk) : Prop where
  data : drawn.data.isNil = false
  metadata : drawn.metadata.isNil = false
  distinct : drawn.data ≠ drawn.metadata
  freeData : d.dir.entry (.staged drawn.data) = none
  freeMetadata : d.dir.entry (.staged drawn.metadata) = none

section Beginning

variable {pair : Pair} {d : Disk} {base : Nat}

theorem createImage_runs (pair : Pair) (filename : String) (size : Nat) {uuid : Uuid} (h : Unrecorded base d)
    (hfree : d.dir.entry (.staged uuid) = none) :
    ∃ record d', createImage filename size uuid [] d = (.returned record, [], d') ∧
      Unrecorded base d' ∧ Adds d uuid d' ∧ Made base d' record ∧
      record.filename = filename ∧ record.filesystemUuid = uuid := by
  have hrun : ∃ record d', createImage filename size uuid [] d = (.returned record, [], d') :=
    ⟨_, _, (bind_returned (createNew_runs hfree)).trans <| (bind_returned rfl).trans <|
      (bind_returned (modify_runs _ _)).trans <| (bind_returned (modify_runs _ _)).trans <|
      (bind_returned syncDirectory_runs).trans <|
      (bind_returned (identity_runs (by exact Disk.entry_setEntry_same d _ _))).trans rfl⟩
  obtain ⟨record, d', hrun⟩ := hrun
  have htriple : Triple (PrepareStep pair base True) _ _ _ _ :=
    triple_createImage filename size uuid h
  exact ⟨record, d', hrun, htriple.of_returned rfl hrun⟩

theorem drawRecords_runs (dataSize metadataSize : Nat) {drawn : Drawn} (h : Unrecorded base d)
    (hdrawn : drawn.Usable d) :
    ∃ data metadata d', drawRecords pair dataSize metadataSize drawn false false [] d =
        (.returned (data, metadata, .fresh), [], d') ∧
      (data.filename = pair.data ∧ data.filesystemUuid = drawn.data ∧ Made base d' data) ∧
      (metadata.filename = pair.metadata ∧ metadata.filesystemUuid = drawn.metadata ∧
        Made base d' metadata) ∧
      d'.dir.manifest = none ∧
      ∀ filename, d'.dir.entry (.file filename) = d.dir.entry (.file filename) := by
  obtain ⟨data, d₁, hrun₁, h₁, hadds₁, hmade₁, hname₁, huuid₁⟩ :=
    createImage_runs pair pair.data dataSize h hdrawn.freeData
  have hfree : d₁.dir.entry (.staged drawn.metadata) = none := by
    rw [hadds₁.others _ fun hsame => hdrawn.distinct (Name.staged.inj hsame).symm]
    exact hdrawn.freeMetadata
  obtain ⟨metadata, d₂, hrun₂, h₂, hadds₂, hmade₂, hname₂, huuid₂⟩ :=
    createImage_runs pair pair.metadata metadataSize h₁ hfree
  refine ⟨data, metadata, d₂, ?_, ⟨hname₁, huuid₁, hmade₁.adds hadds₂⟩, ⟨hname₂, huuid₂, hmade₂⟩,
    h₂.absent, fun filename => ?_⟩
  · exact (bind_returned hrun₁).trans ((bind_returned hrun₂).trans rfl)
  · rw [hadds₂.others _ (by intro hsame; cases hsame), hadds₁.others _ (by intro hsame; cases hsame)]

theorem valid_fresh {data metadata : VolumeRecord} {drawn : Drawn} (hdrawn : drawn.Usable d)
    (hdata : data.filename = pair.data ∧ data.filesystemUuid = drawn.data)
    (hmetadata : metadata.filename = pair.metadata ∧ metadata.filesystemUuid = drawn.metadata) :
    StorageManifest.Valid { version := 1, data, metadata, layout := .fresh } where
  version := rfl
  records role := by
    cases role with
    | data =>
        change validRecord data = true
        unfold validRecord
        rw [hdata.1, hdata.2, pair.plainData, hdrawn.data]
        rfl
    | metadata =>
        change validRecord metadata = true
        unfold validRecord
        rw [hmetadata.1, hmetadata.2, pair.plainMetadata, hdrawn.metadata]
        rfl
  filenames := by
    rw [hdata.1, hmetadata.1]
    exact pair.distinct
  uuids := by
    change data.filesystemUuid ≠ metadata.filesystemUuid
    rw [hdata.2, hmetadata.2]
    exact hdrawn.distinct
  states := rfl

theorem provision_runs (dataSize metadataSize : Nat) {drawn : Drawn} (h : Unrecorded base d)
    (hvacant : d.dir.Vacant pair) (hdrawn : drawn.Usable d) :
    ∃ m d', provision pair dataSize metadataSize drawn [] d = (.returned m, [], d') ∧
      (∀ role, (m.volume role).filename = pair.filename role) ∧ Provisioned m d' := by
  obtain ⟨data, metadata, d₁, hrun₁, ⟨hname, huuid, hmade⟩, ⟨hname', huuid', hmade'⟩, habsent,
    hfiles⟩ := drawRecords_runs dataSize metadataSize h hdrawn
  have hvalid := valid_fresh hdrawn ⟨hname, huuid⟩ ⟨hname', huuid'⟩
  have hnames : ∀ role, (volume
      { version := 1, data, metadata, layout := .fresh } role).filename = pair.filename role := by
    rintro (_ | _)
    · exact hname
    · exact hname'
  have hmades : ∀ role, Made base d₁ (volume
      { version := 1, data, metadata, layout := .fresh } role) := by
    rintro (_ | _)
    · exact hmade
    · exact hmade'
  have hresumes := resumes_of_made
    ⟨habsent, fun role => (hfiles _).trans (hvacant.2 role)⟩ hvalid hnames hmades
  have hrecord : recordPair pair dataSize metadataSize drawn false false [] d =
      (.returned { version := 1, data, metadata, layout := .fresh }, [],
        (d₁.setManifest { version := 1, data, metadata, layout := .fresh }).synced) := by
    unfold recordPair
    rw [bind_returned hrun₁]
    dsimp only
    rw [bind_returned (save_runs hvalid)]
    rfl
  obtain ⟨d₂, hrun₂, hprovisioned⟩ := publishAndGrow_runs
    (d := (d₁.setManifest { version := 1, data, metadata, layout := .fresh }).synced) hresumes
    dataSize metadataSize
  have hdata : d.dir.entry (.file pair.data) = none := hvacant.2 .data
  have hmetadata : d.dir.entry (.file pair.metadata) = none := hvacant.2 .metadata
  refine ⟨_, d₂, ?_, hnames, hprovisioned⟩
  unfold provision
  rw [bind_returned (tryExists_missing hdata), bind_returned (tryExists_missing hmetadata),
    bind_returned (attempt_returned hrecord)]
  exact hrun₂

end Beginning

/-! ## The whole call -/

theorem openLock_runs {pair : Pair} {d : Disk} (h : Resumable pair d)
    (hlockable : d.dir.Lockable) :
    ∃ d', openLock [] d = (.returned (), [], d') ∧ Resumable pair d' ∧ d'.staged = d.staged ∧
      d'.dir.manifest = d.dir.manifest ∧
      ∀ name, name ≠ .lock → d'.dir.entry name = d.dir.entry name := by
  match hentry : d.dir.entry .lock with
  | none =>
    have hlock : PrepareStep pair 0 True d (d.create .lock) := .lock d hentry
    exact ⟨d.create .lock, operation_runs (by rw [hentry]), h.step hlock, rfl, rfl,
      fun name hname => Disk.entry_setEntry_ne d _ hname⟩
  | some (.regular _) => exact ⟨d, operation_runs (by rw [hentry]), h, rfl, rfl, fun _ _ => rfl⟩
  | some (.other present reads) => exact absurd hentry (hlockable present reads)

theorem matchesPaths_ok {pair : Pair} {m : StorageManifest}
    (hnames : ∀ role, (m.volume role).filename = pair.filename role) :
    matchesPaths pair m = .ok () := by
  have hdata : m.data.filename = pair.data := hnames .data
  have hmetadata : m.metadata.filename = pair.metadata := hnames .metadata
  unfold matchesPaths
  rw [if_neg (by simp [hdata, hmetadata])]

/-- One undisturbed call brings a pair that can be taken up to its end. -/
theorem preparePair_runs {pair : Pair} {d : Disk} (h : Resumable pair d)
    (hlockable : d.dir.Lockable) (dataSize metadataSize : Nat) {drawn : Drawn} (hdrawn : drawn.Usable d) :
    ∃ m d', preparePair pair dataSize metadataSize drawn [] d = (.returned m, [], d') ∧
      (∀ role, (m.volume role).filename = pair.filename role) ∧ Provisioned m d' := by
  have hbegun : Resumable pair { d with staged := [] } := ⟨h.given, h.version, h.unmade⟩
  obtain ⟨d₁, hlock, h₁, hstaged, hmanifest, hentries⟩ := openLock_runs hbegun hlockable
  cases hvisible : d₁.dir.manifest with
  | none =>
      have hread : readManifest [] d₁ = (.raised .notFound, [], d₁) :=
        inspect_errs (by rw [hvisible]; rfl)
      have hunrecorded : Unrecorded d₁.nextInode d₁ := by
        refine ⟨hvisible, Nat.le_refl _, ?_, ?_⟩
        all_goals rw [hstaged]
        · intro uuid hmem
          cases hmem
        · exact List.nodup_nil
      have husable : drawn.Usable d₁ :=
        { hdrawn with
          freeData := (hentries _ (by intro hsame; cases hsame)).trans hdrawn.freeData
          freeMetadata := (hentries _ (by intro hsame; cases hsame)).trans hdrawn.freeMetadata }
      obtain ⟨m, d₂, hrun, hnames, hprovisioned⟩ :=
        provision_runs dataSize metadataSize hunrecorded (h₁.vacant hvisible) husable
      exact ⟨m, d₂, (bind_returned rfl).trans <| (bind_returned hlock).trans <|
        (bind_returned (attempt_raised hread)).trans hrun, hnames, hprovisioned⟩
  | some bytes =>
      have hread : readManifest [] d₁ = (.returned bytes, [], d₁) :=
        inspect_runs (by rw [hvisible]; rfl)
      rcases h₁.version d₁.dir List.mem_cons_self with hvacant | ⟨m, hm⟩
      · rw [hvacant.1] at hvisible
        cases hvisible
      have hparse : parse bytes = .ok m := by
        have hsame := hm.manifest
        rw [hvisible] at hsame
        cases hsame
        rfl
      obtain ⟨d₂, hrun, hprovisioned⟩ := publishAndGrow_runs hm dataSize metadataSize
      exact ⟨m, d₂, (bind_returned rfl).trans <| (bind_returned hlock).trans <|
        (bind_returned (attempt_returned hread)).trans <| (bind_returned (lift_ok hparse)).trans <|
        (bind_returned (lift_ok ((m.validate_eq_ok_iff).mpr hm.valid))).trans <|
        (bind_returned (lift_ok (matchesPaths_ok hm.names))).trans hrun, hm.names, hprovisioned⟩

theorem after_append (pair : Pair) (d : Disk) (before since : List Attempt) :
    d.after pair (before ++ since) = (d.after pair before).after pair since := List.foldl_append

/-- Whatever interrupts the calls on a directory, nothing that was there is overwritten or deleted
and an image that a durable manifest records is not made again; and if there was neither an image
nor a manifest, and nothing but a regular file in the lock's place, a call that nothing interrupts
returns a manifest of two images that are there. -/
theorem pair_recovers (pair : FreePair) (start : Disk) (hpast : start.past = [])
    (hgiven : start.Given) (attempts : List Attempt) :
    let after := start.after pair.toPair
    Untouched start (after attempts) ∧
      (∀ before since m, attempts = before ++ since → (after before).Durable m →
        Settled m (after before) (after attempts)) ∧
      (start.dir.Vacant pair.toPair → start.dir.Lockable → ∀ dataSize metadataSize drawn,
        Drawn.Usable drawn (after attempts) →
        ∃ m d', preparePair pair.toPair dataSize metadataSize drawn [] (after attempts) =
            (.returned m, [], d') ∧
          (∀ role, (m.volume role).filename = pair.filename role) ∧ Provisioned m d') := by
  intro after
  refine ⟨untouched_after hpast hgiven attempts, ?_, ?_⟩
  · intro before since m hsplit hdurable
    change Settled m (start.after pair.toPair before) (start.after pair.toPair attempts)
    rw [hsplit, after_append]
    exact settled_after hdurable since
  · intro hvacant hlock dataSize metadataSize drawn hdrawn
    exact preparePair_runs (resumable_after hpast hgiven hvacant attempts)
      (lockable_after hpast hlock attempts) dataSize metadataSize hdrawn

/-! ### An interrupted pair, and one that was lost -/

/-- The first call is killed before the directory with the manifest is synchronised, the second
when one image is in place. -/
def killedTwice : List Attempt :=
  [⟨0x11000, 0x11000, dockerDrawn, List.replicate 16 .runs ++ [.dies], some 0⟩,
    ⟨0x11000, 0x11000, dockerDrawn, List.replicate 6 .runs ++ [.dies], none⟩]

/-- Other UUIDs than those of the interrupted calls. -/
def laterDrawn : Drawn := ⟨⟨Vector.replicate 16 3⟩, ⟨Vector.replicate 16 4⟩⟩

theorem pair_recovers_killed :
    emptyDisk.dir.Vacant dockerPair ∧
      Untouched emptyDisk (emptyDisk.after dockerPair killedTwice) ∧
      ∃ m d', preparePair dockerPair 0x11000 0x11000 laterDrawn []
            (emptyDisk.after dockerPair killedTwice) = (.returned m, [], d') ∧
          (∀ role, (m.volume role).filename = dockerPair.filename role) ∧ Provisioned m d' := by
  have hvacant : emptyDisk.dir.Vacant dockerPair := ⟨rfl, fun _ => rfl⟩
  have hrecovers := pair_recovers freeDockerPair emptyDisk rfl nofun killedTwice
  refine ⟨hvacant, hrecovers.1, hrecovers.2.2 hvacant nofun 0x11000 0x11000 laterDrawn ?_⟩
  refine ⟨by decide, by decide, by decide, ?_, ?_⟩
  · exact Option.isNone_iff_eq_none.mp (by decide +kernel)
  · exact Option.isNone_iff_eq_none.mp (by decide +kernel)

/-- The record of an image that is gone. -/
def lostRecord (filename : String) (uuid : Uuid) : VolumeRecord :=
  { filename, image := ⟨1, 5⟩, filesystemUuid := uuid, state := .new }

/-- A directory that has the manifest of a pair and no image. -/
def lostPair : Disk :=
  emptyDisk.setManifest
    { version := 1
      data := lostRecord "docker.img" dockerDrawn.data
      metadata := lostRecord "docker-meta.img" dockerDrawn.metadata
      layout := .fresh }

/-- An existing manifest is authoritative: with both images absent the call fails for good. -/
theorem lost_pair_not_recreated :
    lostPair.synced.dir.entry (.file dockerPair.data) = none ∧
      lostPair.synced.dir.entry (.file dockerPair.metadata) = none ∧
      (preparePair dockerPair 0x11000 0x11000 laterDrawn [] lostPair.synced).1 =
        .raised .notFound := ⟨rfl, rfl, by decide +kernel⟩

end Arcbox.Storage

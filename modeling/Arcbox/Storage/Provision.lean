import Mathlib.Logic.Function.Basic
import Arcbox.Foundation.Interrupted
import Arcbox.Storage.Manifest

/-!
# Provisioning a pair of volumes

The host prepares the pair before a machine starts: it creates the images under staging names,
records them in the manifest, links them into place and removes the staging names.  The guest
formats a new volume and moves its record on.  Every call is a program over the images' directory
whose file operations may fail or be the last one the process performs.

The directory is kept with the versions of it that a loss of power may bring back: the one that
was last synchronised and every one since.  A file's contents are durable when the code goes on,
as every write to one is followed by `sync_all` before anything names the file.
-/

set_option autoImplicit false

namespace Arcbox.Storage

open Foundation Function
open Foundation.Program

/-! ## The directory -/

/-- What a name stands for. -/
inductive Entry where
  | regular (image : ImageIdentity)
  /-- A symbolic link, a directory: `present` is what `try_exists` finds through it and `reads`
  what opening it gives. -/
  | other (present : Bool) (reads : Option File)

/-- One version of the directory.  The manifest is absent, or has bytes that parse or do not. -/
structure Dir where
  entry : Name → Option Entry
  manifest : Option (Option StorageManifest)

/-- What happened to a volume: kept for the properties only, nothing reads it. -/
inductive Deed where
  | adopted (role : VolumeRole) (uuid : Uuid)
  /-- The formatter was started for `uuid` on a device that held `found`, when these were the
  versions of the directory. -/
  | formatted (role : VolumeRole) (uuid : Uuid) (found : File) (versions : List Dir)

def Deed.adoptedUuid : Deed → Option Uuid
  | .adopted _ uuid => some uuid
  | .formatted _ _ _ _ => none

def Deed.formattedUuid : Deed → Option Uuid
  | .adopted _ _ => none
  | .formatted _ uuid _ _ => some uuid

structure Disk where
  dir : Dir
  /-- The versions before the visible one that a loss of power may bring back, the last first. -/
  past : List Dir
  file : ImageIdentity → File
  /-- The host filesystem of the directory, and the next inode it gives out. -/
  device : Nat
  nextInode : Nat
  /-- `prepare_pair`'s local vector: the staging files the running call created. -/
  staged : List Uuid
  deeds : List Deed

namespace Disk

variable (d : Disk)

/-- The versions a loss of power may leave. -/
def versions : List Dir := d.dir :: d.past

/-- Replace the visible directory; the one before may still come back. -/
def change (dir : Dir) : Disk := { d with dir, past := d.dir :: d.past }

def setEntry (name : Name) (entry : Option Entry) : Disk :=
  d.change { d.dir with entry := Function.update d.dir.entry name entry }

/-- The rename that puts a manifest in place. -/
def setManifest (m : StorageManifest) : Disk := d.change { d.dir with manifest := some (some m) }

def setFile (image : ImageIdentity) (f : File) : Disk :=
  { d with file := Function.update d.file image f }

/-- The identity the next file gets. -/
def fresh : ImageIdentity := ⟨d.device, d.nextInode⟩

/-- A new, empty file under a name. -/
def create (name : Name) : Disk :=
  { (d.setEntry name (some (.regular d.fresh))).setFile d.fresh File.empty with
    nextInode := d.nextInode + 1 }

/-- The directory is on disk as it is visible. -/
def synced : Disk := { d with past := [] }

def noted (deed : Deed) : Disk := { d with deeds := deed :: d.deeds }

theorem entry_setEntry_same (name : Name) (entry : Option Entry) :
    (d.setEntry name entry).dir.entry name = entry := update_self _ _ _

theorem entry_setEntry_ne {name other : Name} (entry : Option Entry) (hne : other ≠ name) :
    (d.setEntry name entry).dir.entry other = d.dir.entry other := update_of_ne hne _ _

theorem file_setFile_same (image : ImageIdentity) (f : File) : (d.setFile image f).file image = f :=
  update_self _ _ _

theorem file_setFile_ne {image other : ImageIdentity} (f : File) (hne : other ≠ image) :
    (d.setFile image f).file other = d.file other := update_of_ne hne _ _

/-- The directory after a loss of power: some version since the last synchronised one. -/
def afterPowerLoss (version : Nat) : Disk :=
  { d with dir := d.versions.getD version d.dir, past := [] }

/-- A loss of power leaves one of the versions. -/
theorem mem_versions_of_powerLoss {d : Disk} {version : Nat} {v : Dir}
    (hv : v ∈ (d.afterPowerLoss version).versions) : v ∈ d.versions := by
  obtain rfl := List.mem_singleton.mp hv
  change d.versions.getD version d.dir ∈ d.versions
  rw [List.getD_eq_getElem?_getD]
  cases hget : d.versions[version]? with
  | none => exact List.mem_cons_self
  | some v => exact List.mem_of_getElem? hget

end Disk

/-! ## File operations -/

/-- A program of file operations. -/
abbrev Io (α : Type) := Program Disk Error α

/-- An operation that changes nothing. -/
def inspect {α : Type} (f : Disk → Except Error α) : Io α := operation .io fun d => (f d).map (·, d)

/-- `fs::read` of the manifest. -/
def readManifest : Io (Option StorageManifest) :=
  inspect fun d => d.dir.manifest.elim (.error .notFound) .ok

/-- `serde_json::from_slice`. -/
def parse (bytes : Option StorageManifest) : Except Error StorageManifest :=
  bytes.elim (.error .manifest) .ok

/-- Open the lock for writing, and create it where it is missing: a directory of that name cannot
be opened so, and a link only if it leads to a file. -/
def openLock : Io Unit :=
  operation .io fun d =>
    match d.dir.entry .lock with
    | none => .ok ((), d.create .lock)
    | some (.regular _) | some (.other _ (some _)) => .ok ((), d)
    | some (.other _ none) => .error .io

/-- `try_exists`: through a link. -/
def Entry.exists_ : Option Entry → Bool
  | none => false
  | some (.regular _) => true
  | some (.other present _) => present

variable (name : Name)

def tryExists : Io Bool := inspect fun d => .ok (Entry.exists_ (d.dir.entry name))

/-- `ImageIdentity::read`: of a regular file only. -/
def identityOf : Option Entry → Except Error ImageIdentity
  | none => .error .notFound
  | some (.regular image) => .ok image
  | some (.other _ _) => .error (.recoveryRequired (.notRegular name))

def identity : Io ImageIdentity := inspect fun d => identityOf name (d.dir.entry name)

/-- What opening a path for reading gives. -/
def Disk.opened (d : Disk) : Path → Except Error File
  | .device image => .ok (d.file image)
  | .entry name =>
      match d.dir.entry name with
      | none => .error .notFound
      | some (.regular image) => .ok (d.file image)
      | some (.other _ none) => .error .io
      | some (.other _ (some f)) => .ok f

def openFile (path : Path) : Io File := inspect fun d => d.opened path

/-- `create_new`: never an existing file. -/
def createNew : Io ImageIdentity :=
  operation .io fun d =>
    if (d.dir.entry name).isSome then .error .alreadyExists
    else .ok (d.fresh, d.create name)

/-- A write to an open file, and its `sync_all`. -/
def modify (image : ImageIdentity) (f : File → File) : Io Unit :=
  operation .io fun d => .ok ((), d.setFile image (f (d.file image)))

def syncDirectory : Io Unit := operation .io fun d => .ok ((), d.synced)

/-- `hard_link`: never over an existing name. -/
def hardLink (original link : Name) : Io Unit :=
  operation .io fun d =>
    match d.dir.entry original with
    | none => .error .notFound
    | some entry =>
        if (d.dir.entry link).isSome then .error .alreadyExists
        else .ok ((), d.setEntry link (some entry))

def removeFile : Io Unit :=
  operation .io fun d =>
    if (d.dir.entry name).isNone then .error .notFound
    else .ok ((), d.setEntry name none)

/-! ## The manifest on disk -/

def load : Io StorageManifest := do
  let bytes ← readManifest
  let m ← lift (parse bytes)
  lift m.validate
  pure m

variable (m : StorageManifest)

/-- `arcbox_atomic_file::write`.  The temporary sibling has a name that no other file has and is
left out: a failure to write it, or to rename it, leaves the destination as it was. -/
def atomicWrite : Io Unit := do
  operation .notCommitted fun d => .ok ((), d)
  operation .notCommitted fun d => .ok ((), d.setManifest m)
  operation .durabilityUncertain fun d => .ok ((), d.synced)

def save : Io Unit := do
  lift m.validate
  atomicWrite m

/-- `verify_volume` of the file at a path. -/
def verifyAt (role : VolumeRole) (path : Path) : Io Unit := do
  let f ← openFile path
  lift (m.verifyVolume role path f)

/-! ## `prepare_pair` -/

/-- The names of the two images, which share a directory. -/
structure Pair where
  data : String
  metadata : String
  plainData : isBasename data = true
  plainMetadata : isBasename metadata = true
  distinct : data ≠ metadata

variable (pair : Pair)

def Pair.filename : VolumeRole → String
  | .data => pair.data
  | .metadata => pair.metadata

/-- `Path::file_stem`: the name up to its last dot, unless it starts with it. -/
def fileStem (name : String) : String :=
  match name.toList.reverse.dropWhile (· ≠ '.') with
  | _ :: first :: before => String.ofList (first :: before).reverse
  | _ => name

/-- `Path::with_extension` on a name. -/
def withExtension (name extension : String) : String := fileStem name ++ "." ++ extension

/-- The names in the directory that are not free for an image: those of the lock, of the manifest
and of staging files. -/
def Pair.reserved (name : String) : Bool :=
  name == withExtension pair.data "storage.lock" || name == withExtension pair.data "storage.json" ||
    ".arcbox-volume-".toList.isPrefixOf name.toList

/-- A pair whose images have names of their own, as `Name` takes for granted. -/
structure FreePair extends Pair where
  free : ∀ role, toPair.reserved (toPair.filename role) = false

/-- The UUIDs one call draws for the images it creates. -/
structure Drawn where
  data : Uuid
  metadata : Uuid

def createImage (filename : String) (size : Nat) (uuid : Uuid) : Io VolumeRecord := do
  let file ← createNew (.staged uuid)
  inner fun d => ((), { d with staged := d.staged ++ [uuid] })
  modify file fun f => f.setLen size
  modify file fun f => writeProvisionHeader f uuid
  syncDirectory
  let image ← identity (.staged uuid)
  pure { filename, image, filesystemUuid := uuid, state := .new }

variable (role : VolumeRole)

/-- The filesystem UUID an existing image is adopted with. -/
def recognized (found : Option Uuid) : Except Error Uuid :=
  match found.filter fun uuid => !uuid.isNil with
  | none => .error (.recoveryRequired (.unrecognizedFilesystem name role))
  | some uuid => .ok uuid

def adoptImage (filename : String) (role : VolumeRole) : Io VolumeRecord := do
  let f ← openFile (.entry (.file filename))
  let found ← lift (filesystemUuid f role)
  let uuid ← lift (recognized (.file filename) role found)
  let image ← identity (.file filename)
  inner fun d => ((), d.noted (.adopted role uuid))
  pure { filename, image, filesystemUuid := uuid, state := .ready }

/-- One round of the loop that puts the images in place. -/
def publishImage : Io Unit := do
  match ← attempt (identity (.file (m.volume role).filename)) with
  | .ok found =>
      if found = (m.volume role).image then
        verifyAt m role (.entry (.file (m.volume role).filename))
      else raise (.recoveryRequired (.replaced (.file (m.volume role).filename)))
  | .error .notFound =>
      if (m.volume role).state ≠ .new then
        raise (.recoveryRequired
          (.noAuthorizedStagedImage (.file (m.volume role).filename)))
      else
        let found ← identity (.staged (m.volume role).filesystemUuid)
        if found ≠ (m.volume role).image then
          raise (.recoveryRequired
            (.noAuthorizedStagedImage (.file (m.volume role).filename)))
        else
          verifyAt m role (.entry (.staged (m.volume role).filesystemUuid))
          hardLink (.staged (m.volume role).filesystemUuid) (.file (m.volume role).filename)
  | .error error => raise error

/-- One round of the loop that removes the staging names. -/
def unstageImage : Io Unit := do
  match ← attempt (identity (.staged (m.volume role).filesystemUuid)) with
  | .ok found =>
      if found = (m.volume role).image then removeFile (.staged (m.volume role).filesystemUuid)
      else
        raise (.recoveryRequired (.stagedReplaced (.staged (m.volume role).filesystemUuid)))
  | .error .notFound => pure ()
  | .error error => raise error

def publishImages : Io Unit := do
  publishImage m .data
  publishImage m .metadata
  syncDirectory
  unstageImage m .data
  unstageImage m .metadata
  syncDirectory

def growImage (filename : String) (size : Nat) : Io Unit := do
  let image ← identity (.file filename)
  modify image fun f => if f.length < size then f.setLen size else f

def publishAndGrow (m : StorageManifest) (dataSize metadataSize : Nat) : Io StorageManifest := do
  publishImages m
  growImage pair.data dataSize
  growImage pair.metadata metadataSize
  pure m

/-- The records of a pair that has no manifest, by which of the two images exist. -/
def drawRecords (dataSize metadataSize : Nat) (drawn : Drawn) :
    Bool → Bool → Io (VolumeRecord × VolumeRecord × StorageLayout)
  | false, false => do
      let data ← createImage pair.data dataSize drawn.data
      let metadata ← createImage pair.metadata metadataSize drawn.metadata
      pure (data, metadata, .fresh)
  | true, true => do
      let data ← adoptImage pair.data .data
      let metadata ← adoptImage pair.metadata .metadata
      pure (data, metadata, .legacyPair)
  | true, false => do
      let data ← adoptImage pair.data .data
      let metadata ← createImage pair.metadata metadataSize drawn.metadata
      pure (data, metadata, .legacyMigration)
  | false, true => raise (.recoveryRequired .dataMissing)

/-- The closure `prepared`. -/
def recordPair (dataSize metadataSize : Nat) (drawn : Drawn) (dataExists metadataExists : Bool) :
    Io StorageManifest := do
  let (data, metadata, layout) ←
    drawRecords pair dataSize metadataSize drawn dataExists metadataExists
  save { version := 1, data, metadata, layout }
  pure { version := 1, data, metadata, layout }

def removeStaged (error : Error) : List Uuid → Io Unit
  | [] => pure ()
  | uuid :: rest => do
      match ← attempt (removeFile (.staged uuid)) with
      | .ok () => removeStaged error rest
      | .error cleanup => raise (.removeStaged error uuid cleanup)

/-- The directory has no manifest: record the pair.  After an error the call's own staging files
go, unless the manifest may have survived. -/
def provision (dataSize metadataSize : Nat) (drawn : Drawn) : Io StorageManifest := do
  let dataExists ← tryExists (.file pair.data)
  let metadataExists ← tryExists (.file pair.metadata)
  match ← attempt (recordPair pair dataSize metadataSize drawn dataExists metadataExists) with
  | .ok m => publishAndGrow pair m dataSize metadataSize
  | .error .durabilityUncertain => raise .durabilityUncertain
  | .error error =>
      let staged ← inner fun d => (d.staged, d)
      removeStaged error staged
      raise error

def matchesPaths (m : StorageManifest) : Except Error Unit :=
  if m.data.filename ≠ pair.data ∨ m.metadata.filename ≠ pair.metadata then
    .error (.recoveryRequired .pathsDoNotMatch)
  else .ok ()

/-- An existing manifest is authoritative: a missing member is never recreated. -/
def preparePair (dataSize metadataSize : Nat) (drawn : Drawn) : Io StorageManifest := do
  inner fun d => ((), { d with staged := [] })
  openLock
  match ← attempt readManifest with
  | .ok bytes =>
      let m ← lift (parse bytes)
      lift m.validate
      lift (matchesPaths pair m)
      publishAndGrow pair m dataSize metadataSize
  | .error .notFound => provision pair dataSize metadataSize drawn
  | .error error => raise error

/-! ## The other calls on a pair -/

def loadPair : Io StorageManifest := do
  let m ← load
  lift (matchesPaths pair m)
  pure m

def verifyFilesystems : Io Unit := do
  verifyAt m .data (.entry (.file m.data.filename))
  verifyAt m .metadata (.entry (.file m.metadata.filename))

def rebindImages : Io StorageManifest := do
  verifyFilesystems m
  let data ← identity (.file m.data.filename)
  let metadata ← identity (.file m.metadata.filename)
  pure { m with
    data := { m.data with image := data }
    metadata := { m.metadata with image := metadata } }

def rebindPair : Io StorageManifest := do
  let m ← loadPair pair
  let rebound ← rebindImages m
  if rebound ≠ m then
    save rebound
    pure rebound
  else pure rebound

structure Formatter where
  begun : File
  done : File

variable (device : ImageIdentity)

/-- The call of the formatter, interrupted at any point or run to its end. -/
def format (formatter : Formatter) (uuid : Uuid) : Io Unit := do
  operation (.recoveryRequired .formatterFailed) fun d =>
    .ok ((), (d.noted (.formatted role uuid (d.file device) d.versions)).setFile device
      formatter.begun)
  operation (.recoveryRequired .formatterFailed) fun d =>
    .ok ((), d.setFile device formatter.done)

/-- The steps of a volume that is `new`. -/
def formatNew (formatter : Formatter) : Io Unit := do
  if role = .metadata ∧ m.layout = .legacyMigration then
    raise (.recoveryRequired .legacyMetadataUnverified)
  else
    save (m.setState role .formatting)
    format role device formatter (m.volume role).filesystemUuid
    verifyAt (m.setState role .formatting) role (.device device)

def ensureFilesystem (formatter : Formatter) : Io Unit := do
  let m ← load
  verifyAt m role (.device device)
  match (m.volume role).state with
  | .ready => pure ()
  | .new =>
      formatNew m role device formatter
      save (m.setState role .ready)
  | .formatting => save (m.setState role .ready)

/-- `sources`: whether the guest could verify the original metadata. -/
def authorizeLegacyMigration (sources : Bool) : Io StorageLayout := do
  let m ← load
  if m.layout = .legacyMigration then
    if !sources then raise (.recoveryRequired .legacyMetadataUnverified)
    else
      save { m with layout := .migrating }
      pure .migrating
  else pure m.layout

def finishMetadataSetup : Io Unit := do
  let m ← load
  if m.layout ≠ .paired then save { m with layout := .paired }

/-! ## A pair in an empty directory -/

/-- A directory with nothing in it. -/
def emptyDisk : Disk :=
  { dir := ⟨fun _ => none, none⟩, past := [], file := fun _ => File.empty, device := 1,
    nextInode := 10, staged := [], deeds := [] }

def dockerPair : Pair := ⟨"docker.img", "docker-meta.img", by decide, by decide, by decide⟩

def freeDockerPair : FreePair where
  toPair := dockerPair
  free role := by cases role <;> decide +kernel

def dockerDrawn : Drawn := ⟨⟨Vector.replicate 16 1⟩, ⟨Vector.replicate 16 2⟩⟩

end Arcbox.Storage

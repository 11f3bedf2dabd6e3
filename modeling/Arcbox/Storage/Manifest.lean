/-!
# The storage manifest and the probes of a volume

The runtime keeps its state on two disk images, a Btrfs data volume and an ext4 metadata volume.
A manifest beside them names both files, the identity and the filesystem UUID each must have, and
how far its initialization has come.  This module has the manifest with its validation, the bytes
of an image and what the probes read from them: the one-time header of a volume that was
provisioned and not yet formatted, and the UUID of a filesystem.
-/

set_option autoImplicit false

namespace Arcbox.Storage

structure Uuid where
  bytes : Vector UInt8 16
deriving DecidableEq

def Uuid.isNil (u : Uuid) : Bool := u.bytes == Vector.replicate 16 0

inductive VolumeRole where
  | data
  | metadata
deriving DecidableEq, Repr

/-- The durable formatting authority of one image. -/
inductive VolumeState where
  | new
  | formatting
  | ready
deriving DecidableEq, Repr

inductive StorageLayout where
  | fresh
  | legacyMigration
  | migrating
  | legacyPair
  | paired
deriving DecidableEq, Repr

/-- The host's identity of a file, whatever its name. -/
structure ImageIdentity where
  device : Nat
  inode : Nat
deriving DecidableEq, Repr

structure VolumeRecord where
  filename : String
  image : ImageIdentity
  filesystemUuid : Uuid
  state : VolumeState
deriving DecidableEq

structure StorageManifest where
  version : Nat
  data : VolumeRecord
  metadata : VolumeRecord
  layout : StorageLayout
deriving DecidableEq

/-- The names the code uses in the images' directory.  The manifest itself is kept apart. -/
inductive Name where
  | file (filename : String)
  /-- `.arcbox-volume-` with the UUID and `.pending`. -/
  | staged (uuid : Uuid)
  /-- The data image's name with the extension `storage.lock`. -/
  | lock
deriving DecidableEq

/-- What a probe opens: a name on the host, or the block device the guest was given a file as. -/
inductive Path where
  | entry (name : Name)
  | device (image : ImageIdentity)
deriving DecidableEq

/-- Why storage needs the operator. -/
inductive Recovery where
  | unsupportedVersion (version : Nat)
  | invalidVolumeIdentity
  | identitiesNotDistinct
  | statesConflictWithLayout
  | replaced (name : Name)
  | unexpectedFilesystem (path : Path) (role : VolumeRole)
  | lacksAuthorization (path : Path)
  | legacyMetadataUnverified
  | notRegular (name : Name)
  | pathsDoNotMatch
  | dataMissing
  | noAuthorizedStagedImage (name : Name)
  | stagedReplaced (name : Name)
  | unrecognizedFilesystem (name : Name) (role : VolumeRole)
  | formatterFailed
deriving DecidableEq

inductive Error where
  | recoveryRequired (reason : Recovery)
  /-- A staged image could not be removed after `error`; also a demand for recovery. -/
  | removeStaged (error : Error) (staged : Uuid) (cleanup : Error)
  | notFound
  | alreadyExists
  | io
  | manifest
  | notCommitted
  | durabilityUncertain
deriving DecidableEq

/-! ## The manifest -/

/-- `Path::new(name).file_name() == Some(name)`: one plain component. -/
def isBasename (name : String) : Bool :=
  name != "" && name != "." && name != ".." && !name.toList.contains '/'

namespace StorageManifest

variable (m : StorageManifest)

def volume : VolumeRole → VolumeRecord
  | .data => m.data
  | .metadata => m.metadata

variable (role : VolumeRole) (record : VolumeRecord)

/-- `volume_mut`: the manifest with the record of `role` replaced. -/
def setVolume : StorageManifest :=
  match role with
  | .data => { m with data := record }
  | .metadata => { m with metadata := record }

def setState (state : VolumeState) : StorageManifest :=
  m.setVolume role { m.volume role with state }

def validRecord : Bool := isBasename record.filename && !record.filesystemUuid.isNil

def validStates : Bool :=
  match m.layout with
  | .fresh => true
  | .legacyMigration => m.data.state == .ready && m.metadata.state == .new
  | .migrating => m.data.state == .ready
  | .legacyPair | .paired => m.data.state == .ready && m.metadata.state == .ready

def validate : Except Error Unit :=
  if m.version ≠ 1 then .error (.recoveryRequired (.unsupportedVersion m.version))
  else if !validRecord m.data then .error (.recoveryRequired .invalidVolumeIdentity)
  else if !validRecord m.metadata then .error (.recoveryRequired .invalidVolumeIdentity)
  else if m.data.filename = m.metadata.filename ∨
      m.data.filesystemUuid = m.metadata.filesystemUuid then
    .error (.recoveryRequired .identitiesNotDistinct)
  else if !m.validStates then .error (.recoveryRequired .statesConflictWithLayout)
  else .ok ()

/-- What a manifest that was validated has. -/
structure Valid (m : StorageManifest) : Prop where
  version : m.version = 1
  records : ∀ role, validRecord (m.volume role) = true
  filenames : m.data.filename ≠ m.metadata.filename
  uuids : m.data.filesystemUuid ≠ m.metadata.filesystemUuid
  states : m.validStates = true

theorem validate_eq_ok_iff : m.validate = .ok () ↔ m.Valid := by
  unfold validate
  constructor
  · intro h
    split at h
    · cases h
    split at h
    · cases h
    split at h
    · cases h
    split at h
    · cases h
    split at h
    · cases h
    rename_i hversion hdata hmetadata hdistinct hstates
    rw [not_or] at hdistinct
    rw [Bool.not_eq_true, Bool.not_eq_false'] at hdata hmetadata hstates
    refine ⟨Decidable.not_not.mp hversion, ?_, hdistinct.1, hdistinct.2, hstates⟩
    intro role
    cases role with
    | data => exact hdata
    | metadata => exact hmetadata
  · intro h
    have hdata := h.records .data
    have hmetadata := h.records .metadata
    unfold volume at hdata hmetadata
    rw [if_neg (by simp [h.version]), if_neg (by simp [hdata]), if_neg (by simp [hmetadata]),
      if_neg (by simp [h.filenames, h.uuids]), if_neg (by simp [h.states])]

theorem Valid.uuid_ne {m : StorageManifest} (h : m.Valid) {r r' : VolumeRole} (hne : r ≠ r') :
    (m.volume r).filesystemUuid ≠ (m.volume r').filesystemUuid := by
  cases r <;> cases r'
  · exact absurd rfl hne
  · exact h.uuids
  · exact fun heq => h.uuids heq.symm
  · exact absurd rfl hne

@[simp] theorem volume_setVolume_same : (m.setVolume role record).volume role = record := by
  cases role <;> rfl

theorem volume_setVolume_ne {role other : VolumeRole} (record : VolumeRecord) (hne : other ≠ role) :
    (m.setVolume role record).volume other = m.volume other := by
  cases role <;> cases other <;> first | rfl | exact absurd rfl hne

end StorageManifest

/-! ## The bytes of an image -/

/-- A file; what `byte` has at `length` and beyond is not part of it. -/
structure File where
  length : Nat
  byte : Nat → UInt8

variable {f g : File} {n : Nat}

namespace File

/-- A new, empty file. -/
def empty : File := ⟨0, fun _ => 0⟩

/-- `read_exact` at an offset: nothing short of all the bytes. -/
def readExact (f : File) (offset n : Nat) : Option (Vector UInt8 n) :=
  if offset + n ≤ f.length then some (Vector.ofFn fun i => f.byte (offset + i)) else none

/-- `set_len`: what a longer file gains is zero. -/
def setLen (f : File) (length : Nat) : File :=
  { length, byte := fun i => if i < f.length then f.byte i else 0 }

/-- `write_all` at an offset no further than the end of the file. -/
def writeAll {n : Nat} (f : File) (offset : Nat) (bytes : Vector UInt8 n) : File :=
  { length := max f.length (offset + n)
    byte := fun i =>
      if h : offset ≤ i ∧ i < offset + n then bytes[i - offset] else f.byte i }

/-- The bytes of `f` are the first bytes of `g`. -/
structure Extends (f g : File) : Prop where
  length : f.length ≤ g.length
  byte : ∀ i, i < f.length → g.byte i = f.byte i

theorem Extends.refl (f : File) : f.Extends f := ⟨.refl, fun _ _ => rfl⟩

theorem Extends.trans {h : File} (hfg : f.Extends g) (hgh : g.Extends h) : f.Extends h where
  length := Nat.le_trans hfg.length hgh.length
  byte i hi := (hgh.byte i (Nat.lt_of_lt_of_le hi hfg.length)).trans (hfg.byte i hi)

theorem extends_setLen (h : f.length ≤ n) : f.Extends (f.setLen n) where
  length := h
  byte i hi := by
    exact if_pos hi

theorem readExact_of_extends (h : f.Extends g) {offset : Nat} {bytes : Vector UInt8 n}
    (hread : f.readExact offset n = some bytes) : g.readExact offset n = some bytes := by
  unfold readExact at hread ⊢
  split at hread
  next hfits =>
    rw [if_pos (Nat.le_trans hfits h.length), ← hread]
    congr 2
    funext i
    exact h.byte _ (by omega)
  · cases hread

end File

/-! ## The probes -/

/-- `ARCBOX-NEW-VOL-1`. -/
def provisionMagic : Vector UInt8 16 :=
  #v[65, 82, 67, 66, 79, 88, 45, 78, 69, 87, 45, 86, 79, 76, 45, 49]

/-- The signature of a primary superblock: where its magic is, the magic, where its UUID is. -/
structure Signature where
  magicOffset : Nat
  magicLength : Nat
  magic : Vector UInt8 magicLength
  uuidOffset : Nat

def VolumeRole.signature : VolumeRole → Signature
  | .data => ⟨0x10040, 8, #v[95, 66, 72, 82, 102, 83, 95, 77], 0x10020⟩
  | .metadata => ⟨0x438, 2, #v[0x53, 0xef], 0x468⟩

def filesystemUuid (f : File) (role : VolumeRole) : Except Error (Option Uuid) :=
  match f.readExact role.signature.magicOffset role.signature.magicLength with
  | none => .error .io
  | some magic =>
      if magic ≠ role.signature.magic then .ok none
      else
        match f.readExact role.signature.uuidOffset 16 with
        | none => .error .io
        | some bytes => .ok (some ⟨bytes⟩)

def writeProvisionHeader (f : File) (uuid : Uuid) : File :=
  (f.writeAll 0 provisionMagic).writeAll 16 uuid.bytes

/-- The file begins with the provisioning header of `uuid`. -/
def carriesHeader (f : File) (uuid : Uuid) : Bool :=
  f.readExact 0 16 == some provisionMagic && f.readExact 16 16 == some uuid.bytes

/-- `read_exact` of 32 bytes, then the two halves compared. -/
def verifyNewVolume (path : Path) (f : File) (uuid : Uuid) : Except Error Unit :=
  if f.length < 32 then .error .io
  else if !carriesHeader f uuid then .error (.recoveryRequired (.lacksAuthorization path))
  else .ok ()

def StorageManifest.verifyVolume (m : StorageManifest) (role : VolumeRole) (path : Path)
    (f : File) : Except Error Unit :=
  match (m.volume role).state with
  | .new => verifyNewVolume path f (m.volume role).filesystemUuid
  | .formatting | .ready =>
      match Storage.filesystemUuid f role with
      | .error error => .error error
      | .ok found =>
          if found ≠ some (m.volume role).filesystemUuid then
            .error (.recoveryRequired (.unexpectedFilesystem path role))
          else .ok ()

theorem length_of_carriesHeader {uuid : Uuid} (h : carriesHeader f uuid = true) :
    32 ≤ f.length := by
  unfold carriesHeader at h
  rw [Bool.and_eq_true] at h
  have hsecond := beq_iff_eq.mp h.2
  unfold File.readExact at hsecond
  split at hsecond
  · assumption
  · cases hsecond

theorem verifyNewVolume_eq_ok_iff (path : Path) (f : File) (uuid : Uuid) :
    verifyNewVolume path f uuid = .ok () ↔ carriesHeader f uuid = true := by
  unfold verifyNewVolume
  constructor
  · intro h
    split at h
    · cases h
    split at h
    · cases h
    next hheader =>
      simpa using hheader
  · intro h
    rw [if_neg (Nat.not_lt.mpr (length_of_carriesHeader h)), if_neg (by simp [h])]

/-- Lengthening a file keeps its header. -/
theorem carriesHeader_of_extends {uuid : Uuid} (h : f.Extends g)
    (hheader : carriesHeader f uuid = true) : carriesHeader g uuid = true := by
  unfold carriesHeader at hheader ⊢
  rw [Bool.and_eq_true] at hheader
  rw [File.readExact_of_extends h (beq_iff_eq.mp hheader.1),
    File.readExact_of_extends h (beq_iff_eq.mp hheader.2)]
  simp

theorem readExact_writeAll_same (f : File) (offset : Nat) (bytes : Vector UInt8 n) :
    (f.writeAll offset bytes).readExact offset n = some bytes := by
  unfold File.readExact File.writeAll
  rw [if_pos (Nat.le_max_right _ _)]
  congr 1
  ext i hi
  simp

theorem readExact_writeAll_before {k : Nat} (f : File) {offset start : Nat} (bytes : Vector UInt8 n)
    (hbefore : start + k ≤ offset) {found : Vector UInt8 k}
    (hread : f.readExact start k = some found) :
    (f.writeAll offset bytes).readExact start k = some found := by
  unfold File.readExact at hread ⊢
  split at hread
  next hfits =>
    have hlong : start + k ≤ (f.writeAll offset bytes).length :=
      Nat.le_trans hfits (Nat.le_max_left _ _)
    rw [if_pos hlong, ← hread]
    congr 2
    funext i
    exact dif_neg (by omega)
  · cases hread

theorem carriesHeader_writeProvisionHeader (f : File) (uuid : Uuid) :
    carriesHeader (writeProvisionHeader f uuid) uuid = true := by
  unfold carriesHeader writeProvisionHeader
  rw [readExact_writeAll_same,
    readExact_writeAll_before _ _ .refl (readExact_writeAll_same f 0 provisionMagic)]
  simp

end Arcbox.Storage

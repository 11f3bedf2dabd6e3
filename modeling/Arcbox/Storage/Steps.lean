import Mathlib.Tactic.Spread
import Arcbox.Storage.Provision

/-!
# The steps of `prepare_pair`

Everything `prepare_pair` does to the directory is one of eleven steps, each under a condition
that the code has established when it takes the step.  A run of the call, interrupted anywhere, is
a sequence of such steps (`preparePair_moves`); what the call keeps is read off the steps alone.
-/

set_option autoImplicit false

namespace Arcbox.Storage

open Foundation List
open Foundation.Program

/-! ## Rules for the operations that change nothing -/

variable {name : Name} {m : StorageManifest}

section Inspection

variable {α : Type} {T : Disk → Disk → Prop} {P : Disk → Prop} {R : Error → Disk → Prop}

theorem triple_inspect {f : Disk → Except Error α} {Q : α → Disk → Prop}
    (hok : ∀ d value, P d → f d = .ok value → Q value d)
    (herror : ∀ d error, P d → f d = .error error → R error d)
    (hfails : ∀ d, P d → R .io d) : Triple T P (inspect f) Q R := by
  refine triple_operation ?_ ?_ hfails
  · intro d value t hd hrun
    cases hf : f d with
    | ok found =>
        rw [hf] at hrun
        obtain ⟨rfl, rfl⟩ : found = value ∧ d = t := by simpa [Except.map] using hrun
        exact ⟨.refl, hok d found hd hf⟩
    | error x =>
        rw [hf] at hrun
        simp [Except.map] at hrun
  intro d x hd hrun
  cases hf : f d with
  | ok found =>
      rw [hf] at hrun
      simp [Except.map] at hrun
  | error y =>
      rw [hf] at hrun
      obtain rfl : y = x := by simpa [Except.map] using hrun
      exact herror d y hd hf

theorem triple_inspect_any {f : Disk → Except Error α} {Q : α → Disk → Prop}
    (hok : ∀ d value, P d → f d = .ok value → Q value d) : Triple T P (inspect f) Q (fun _ => P) :=
  triple_inspect hok (fun _ _ hd _ => hd) (fun _ hd => hd)

theorem identityOf_eq_ok {entry : Option Entry} {image : ImageIdentity}
    (h : identityOf name entry = .ok image) : entry = some (.regular image) := by
  unfold identityOf at h
  split at h
  · cases h
  · cases h
    rfl
  · cases h

theorem identityOf_eq_notFound {entry : Option Entry}
    (h : identityOf name entry = .error .notFound) : entry = none := by
  unfold identityOf at h
  split at h
  · rfl
  · cases h
  · cases h

theorem triple_identity (name : Name) :
    Triple T P (identity name) (fun image d => P d ∧ d.dir.entry name = some (.regular image))
      (fun _ => P) := triple_inspect_any fun _ _ hd hrun => ⟨hd, identityOf_eq_ok hrun⟩

theorem triple_attempt_identity (name : Name) :
    Triple T P (attempt (identity name))
      (fun found d => P d ∧ (∀ image, found = .ok image → d.dir.entry name = some (.regular image)) ∧
        (found = .error .notFound → d.dir.entry name = none)) R := by
  refine Triple.attempt (triple_inspect ?_ ?_ ?_)
  · intro d image hd hrun
    refine ⟨hd, fun other hother => ?_, fun hmissing => (by cases hmissing)⟩
    cases hother
    exact identityOf_eq_ok hrun
  · intro d error hd hrun
    refine ⟨hd, fun other hother => (by cases hother), fun hmissing => ?_⟩
    cases hmissing
    exact identityOf_eq_notFound hrun
  · intro d hd
    exact ⟨hd, fun other hother => (by cases hother), fun hmissing => (by cases hmissing)⟩

theorem triple_verifyAt (m : StorageManifest) (role : VolumeRole) (path : Path) :
    Triple T P (verifyAt m role path)
      (fun _ d => P d ∧ ∃ f, d.opened path = .ok f ∧ m.verifyVolume role path f = .ok ())
      (fun _ => P) := by
  refine Triple.bind
    (Q := fun f d => P d ∧ d.opened path = .ok f) (triple_inspect_any fun _ _ hd hrun => ⟨hd, hrun⟩)
    fun f => ?_
  refine triple_lift ?_ fun _ _ _ hd => hd.1
  intro _ hverify d hd
  exact ⟨hd.1, f, hd.2, hverify⟩

theorem triple_readManifest :
    Triple T P readManifest (fun bytes d => P d ∧ d.dir.manifest = some bytes) (fun _ => P) := by
  refine triple_inspect_any fun d bytes hd hrun => ⟨hd, ?_⟩
  cases hmanifest : d.dir.manifest with
  | none =>
      rw [hmanifest] at hrun
      cases hrun
  | some found =>
      rw [hmanifest] at hrun
      cases hrun
      rfl

theorem parse_eq_ok {bytes : Option StorageManifest} (h : parse bytes = .ok m) :
    bytes = some m := by
  cases bytes with
  | none => cases h
  | some found =>
      cases h
      rfl

theorem triple_load :
    Triple T P load (fun m d => P d ∧ d.dir.manifest = some (some m) ∧ m.Valid) (fun _ => P) := by
  refine triple_readManifest.bind fun bytes => ?_
  refine Triple.bind
    (Q := fun m d => P d ∧ d.dir.manifest = some (some m))
    (triple_lift (fun m hparse d hd => ⟨hd.1, ?_⟩) fun _ _ _ hd => hd.1) fun m => ?_
  · rw [hd.2, parse_eq_ok hparse]
  refine Triple.bind
    (Q := fun _ d => P d ∧ d.dir.manifest = some (some m) ∧ m.Valid)
    (triple_lift (fun _ hvalid d hd => ⟨hd.1, hd.2, ?_⟩) fun _ _ _ hd => hd.1) fun _ => ?_
  · exact (m.validate_eq_ok_iff).mp hvalid
  exact triple_pure fun _ hd => hd

end Inspection

/-! ## The steps -/

structure Made (base : Nat) (d : Disk) (record : VolumeRecord) : Prop where
  state : record.state = .new
  staged : d.dir.entry (.staged record.filesystemUuid) = some (.regular record.image)
  header : carriesHeader (d.file record.image) record.filesystemUuid = true
  own : base ≤ record.image.inode
  given : record.image.inode < d.nextInode

/-- A record of an image that was there. -/
structure Found (d : Disk) (record : VolumeRecord) : Prop where
  state : record.state = .ready
  present : d.dir.entry (.file record.filename) = some (.regular record.image)

/-- Some image was adopted with this UUID. -/
def Disk.Adopted (d : Disk) (uuid : Uuid) : Prop := uuid ∈ d.deeds.filterMap Deed.adoptedUuid

instance (d : Disk) (uuid : Uuid) : Decidable (d.Adopted uuid) :=
  inferInstanceAs (Decidable (_ ∈ _))

/-- One step of a call of `prepare_pair` that began when `base` was the next inode; `F` says that
the UUIDs it draws were those of no adopted filesystem. -/
inductive PrepareStep (pair : Pair) (base : Nat) (F : Prop) : Disk → Disk → Prop where
  /-- The call's local vector. -/
  | local_ (d : Disk) (staged : List Uuid) : PrepareStep pair base F d { d with staged }
  | lock (d : Disk) (hfree : d.dir.entry .lock = none) : PrepareStep pair base F d (d.create .lock)
  | stage (d : Disk) (uuid : Uuid) (habsent : d.dir.manifest = none)
      (hfree : d.dir.entry (.staged uuid) = none) :
      PrepareStep pair base F d (d.create (.staged uuid))
  | write (d : Disk) (image : ImageIdentity) (f : File) (habsent : d.dir.manifest = none)
      (hown : base ≤ image.inode) : PrepareStep pair base F d (d.setFile image f)
  | drop (d : Disk) (uuid : Uuid) (image : ImageIdentity) (habsent : d.dir.manifest = none)
      (hstaged : d.dir.entry (.staged uuid) = some (.regular image)) (hown : base ≤ image.inode) :
      PrepareStep pair base F d (d.setEntry (.staged uuid) none)
  | adopt (d : Disk) (role : VolumeRole) (uuid : Uuid) (habsent : d.dir.manifest = none) :
      PrepareStep pair base F d (d.noted (.adopted role uuid))
  | record (d : Disk) (m : StorageManifest) (habsent : d.dir.manifest = none) (hvalid : m.Valid)
      (hnames : ∀ role, (m.volume role).filename = pair.filename role)
      (hrecords : ∀ role, Made base d (m.volume role) ∨ Found d (m.volume role))
      (hfresh : F → ∀ role, (m.volume role).state = .new →
        ¬d.Adopted (m.volume role).filesystemUuid) :
      PrepareStep pair base F d (d.setManifest m)
  | link (d : Disk) (m : StorageManifest) (role : VolumeRole)
      (hmanifest : d.dir.manifest = some (some m)) (hnew : (m.volume role).state = .new)
      (hfree : d.dir.entry (.file (m.volume role).filename) = none)
      (hstaged : d.dir.entry (.staged (m.volume role).filesystemUuid) =
        some (.regular (m.volume role).image)) :
      PrepareStep pair base F d
        (d.setEntry (.file (m.volume role).filename) (some (.regular (m.volume role).image)))
  | unstage (d : Disk) (m : StorageManifest) (role : VolumeRole)
      (hmanifest : d.dir.manifest = some (some m))
      (hplaced : d.dir.entry (.file (m.volume role).filename) =
        some (.regular (m.volume role).image))
      (hstaged : d.dir.entry (.staged (m.volume role).filesystemUuid) =
        some (.regular (m.volume role).image)) :
      PrepareStep pair base F d (d.setEntry (.staged (m.volume role).filesystemUuid) none)
  | sync (d : Disk) : PrepareStep pair base F d d.synced
  | grow (d : Disk) (image : ImageIdentity) (f : File) (hgrown : (d.file image).Extends f) :
      PrepareStep pair base F d (d.setFile image f)

section Steps

variable {pair : Pair} {base : Nat} {F : Prop}
variable {d : Disk} (filename : String) {uuid : Uuid} {record : VolumeRecord}

theorem moves_of_step {d' : Disk} (h : PrepareStep pair base F d d') :
    Relation.ReflTransGen (PrepareStep pair base F) d d' := .single h

/-! ### Putting the images in place -/

/-- The image of a role is where its record says. -/
def Placed (m : StorageManifest) (role : VolumeRole) (d : Disk) : Prop :=
  d.dir.entry (.file (m.volume role).filename) = some (.regular (m.volume role).image)

/-- The manifest is visible, and images of the given roles are in place. -/
structure Recorded (m : StorageManifest) (placed : VolumeRole → Prop) (d : Disk) : Prop where
  manifest : d.dir.manifest = some (some m)
  placed : ∀ role, placed role → Placed m role d

variable {placed : VolumeRole → Prop} {role : VolumeRole}

theorem Recorded.placedToo (h : Recorded m placed d) (hplaced : Placed m role d) :
    Recorded m (fun r => placed r ∨ r = role) d where
  manifest := h.manifest
  placed r hr := by
    rcases hr with hr | rfl
    · exact h.placed r hr
    · exact hplaced

theorem Recorded.link (h : Recorded m placed d)
    (hfree : d.dir.entry (.file (m.volume role).filename) = none) :
    Recorded m (fun r => placed r ∨ r = role)
      (d.setEntry (.file (m.volume role).filename) (some (.regular (m.volume role).image))) where
  manifest := h.manifest
  placed r hr := by
    unfold Placed
    rcases hr with hr | rfl
    · have hother := h.placed r hr
      unfold Placed at hother
      rw [Disk.entry_setEntry_ne, hother]
      intro hsame
      rw [hsame, hfree] at hother
      cases hother
    · exact Disk.entry_setEntry_same _ _ _

theorem Recorded.unstage (h : Recorded m placed d) (uuid : Uuid) :
    Recorded m placed (d.setEntry (.staged uuid) none) where
  manifest := h.manifest
  placed r hr := by
    unfold Placed
    rw [Disk.entry_setEntry_ne d none (by intro hsame; cases hsame)]
    exact h.placed r hr

theorem triple_hardLink (m : StorageManifest) (role : VolumeRole) (placed : VolumeRole → Prop)
    (hnew : (m.volume role).state = .new) :
    Triple (PrepareStep pair base F)
      (fun d => Recorded m placed d ∧ d.dir.entry (.staged (m.volume role).filesystemUuid) =
        some (.regular (m.volume role).image))
      (hardLink (.staged (m.volume role).filesystemUuid) (.file (m.volume role).filename))
      (fun _ => Recorded m (fun r => placed r ∨ r = role)) (fun _ _ => True) := by
  refine triple_operation ?_ (fun _ _ _ _ => trivial) (fun _ _ => trivial)
  rintro d _ t ⟨hrecorded, hstaged⟩ hrun
  rw [hstaged] at hrun
  dsimp only at hrun
  split at hrun
  · cases hrun
  rename_i hfree
  have hfree : d.dir.entry (.file (m.volume role).filename) = none := by simpa using hfree
  cases hrun
  exact ⟨moves_of_step (.link d m role hrecorded.manifest hnew hfree hstaged),
    hrecorded.link hfree⟩

theorem triple_publishImage (m : StorageManifest) (role : VolumeRole) (placed : VolumeRole → Prop) :
    Triple (PrepareStep pair base F) (Recorded m placed) (publishImage m role)
      (fun _ => Recorded m (fun r => placed r ∨ r = role)) (fun _ _ => True) := by
  refine (triple_attempt_identity _).bind fun found => ?_
  split
  next image =>
    split
    next hsame =>
      refine (triple_verifyAt m role _).consequence (P := fun d => Recorded m placed d ∧ Placed m role d)
        ?_ ?_ fun _ _ _ => trivial
      · intro d hd
        refine ⟨hd.1, ?_⟩
        rw [Placed, ← hsame]
        exact hd.2.1 image rfl
      · intro _ d hd
        exact hd.1.1.placedToo hd.1.2
    · exact triple_raise fun _ _ => trivial
  · split
    · exact triple_raise fun _ _ => trivial
    rename_i hstate
    have hnew : (m.volume role).state = .new := by simpa using hstate
    refine Triple.bind ((triple_identity _).weaken (fun _ _ => id) fun _ _ _ => trivial)
      fun staged => ?_
    split
    · exact triple_raise fun _ _ => trivial
    rename_i hsame
    have hsame : staged = (m.volume role).image := by simpa using hsame
    refine Triple.bind ((triple_verifyAt m role _).weaken (fun _ _ => id) fun _ _ _ => trivial)
      fun _ => ?_
    refine (triple_hardLink m role placed hnew).strengthen ?_
    intro d hd
    exact ⟨hd.1.1.1, by rw [← hsame]; exact hd.1.2⟩
  · exact triple_raise fun _ _ => trivial

theorem triple_syncDirectory {P : Disk → Prop} (hsync : ∀ d, P d → P d.synced) :
    Triple (PrepareStep pair base F) P syncDirectory (fun _ => P) (fun _ => P) := by
  refine triple_operation ?_ (fun _ _ hd _ => hd) (fun _ hd => hd)
  intro d _ t hd hrun
  cases hrun
  exact ⟨moves_of_step (.sync d), hsync d hd⟩

theorem triple_unstageImage (m : StorageManifest) (role : VolumeRole) (placed : VolumeRole → Prop)
    (hplaced : placed role) :
    Triple (PrepareStep pair base F) (Recorded m placed) (unstageImage m role)
      (fun _ => Recorded m placed) (fun _ _ => True) := by
  refine (triple_attempt_identity _).bind fun found => ?_
  split
  next image =>
    split
    next hsame =>
      refine triple_operation ?_ (fun _ _ _ _ => trivial) (fun _ _ => trivial)
      rintro d _ t ⟨hrecorded, hstaged, -⟩ hrun
      have hstaged := hstaged image rfl
      rw [hsame] at hstaged
      split at hrun
      · cases hrun
      cases hrun
      exact ⟨moves_of_step
        (.unstage d m role hrecorded.manifest (hrecorded.placed role hplaced) hstaged),
        hrecorded.unstage _⟩
    · exact triple_raise fun _ _ => trivial
  · exact triple_pure fun _ hd => hd.1
  · exact triple_raise fun _ _ => trivial

theorem triple_publishImages (m : StorageManifest) :
    Triple (PrepareStep pair base F) (Recorded m fun _ => False) (publishImages m)
      (fun _ => Recorded m fun _ => True) (fun _ _ => True) := by
  have hsync : ∀ d, Recorded m (fun _ => True) d → Recorded m (fun _ => True) d.synced :=
    fun d hd => ⟨hd.manifest, hd.placed⟩
  have hloose : Triple (PrepareStep pair base F) (Recorded m fun _ => True) syncDirectory
      (fun _ => Recorded m fun _ => True) (fun _ _ => True) :=
    (triple_syncDirectory hsync).weaken (fun _ _ => id) fun _ _ _ => trivial
  refine (triple_publishImage m .data _).bind fun _ => ?_
  refine Triple.bind (Q := fun _ => Recorded m fun _ => True)
    ((triple_publishImage m .metadata _).weaken (fun _ d hd => ?_) fun _ _ => id) fun _ => ?_
  · refine ⟨hd.manifest, fun role _ => hd.placed role ?_⟩
    cases role with
    | data => exact .inl (.inr rfl)
    | metadata => exact .inr rfl
  refine hloose.bind fun _ => ?_
  refine (triple_unstageImage m .data _ trivial).bind fun _ => ?_
  refine (triple_unstageImage m .metadata _ trivial).bind fun _ => ?_
  exact hloose

theorem extends_grown (f : File) (size : Nat) :
    f.Extends (if f.length < size then f.setLen size else f) := by
  split
  next hlt =>
    exact File.extends_setLen (Nat.le_of_lt hlt)
  · exact File.Extends.refl f

theorem triple_growImage (size : Nat) :
    Triple (PrepareStep pair base F) (fun _ => True) (growImage filename size) (fun _ _ => True)
      (fun _ _ => True) := by
  refine Triple.bind ((triple_identity (P := fun _ => True) _).weaken (fun _ _ => id)
    fun _ _ _ => trivial) fun image => ?_
  refine triple_operation ?_ (fun _ _ _ _ => trivial) (fun _ _ => trivial)
  intro d _ t _ hrun
  cases hrun
  exact ⟨moves_of_step (.grow d image _ (extends_grown (d.file image) size)), trivial⟩

theorem triple_publishAndGrow (m : StorageManifest) (dataSize metadataSize : Nat) :
    Triple (PrepareStep pair base F) (fun d => d.dir.manifest = some (some m))
      (publishAndGrow pair m dataSize metadataSize) (fun _ _ => True) (fun _ _ => True) := by
  refine Triple.bind ((triple_publishImages m).consequence (fun d hd => ⟨hd, fun _ h => h.elim⟩)
    (fun _ _ _ => trivial) (fun _ _ => id)) fun _ => ?_
  refine (triple_growImage pair.data dataSize).bind fun _ => ?_
  refine (triple_growImage pair.metadata metadataSize).bind fun _ => ?_
  exact triple_pure fun _ _ => trivial

/-! ### Recording a pair that has no manifest -/

structure Unrecorded (base : Nat) (d : Disk) : Prop where
  absent : d.dir.manifest = none
  floor : base ≤ d.nextInode
  own : ∀ uuid ∈ d.staged, ∃ image,
    d.dir.entry (.staged uuid) = some (.regular image) ∧ base ≤ image.inode
  nodup : d.staged.Nodup

/-- `d` has all that `d₀` had, and the staging name of `uuid` besides. -/
structure Adds (d₀ : Disk) (uuid : Uuid) (d : Disk) : Prop where
  free : d₀.dir.entry (.staged uuid) = none
  others : ∀ name, name ≠ .staged uuid → d.dir.entry name = d₀.dir.entry name
  file : ∀ image : ImageIdentity, image.inode < d₀.nextInode → d.file image = d₀.file image
  deeds : d.deeds = d₀.deeds
  inodes : d₀.nextInode ≤ d.nextInode

variable {d₀ : Disk}

theorem Adds.entry (h : Adds d₀ uuid d) {entry : Entry} (hentry : d₀.dir.entry name = some entry) :
    d.dir.entry name = some entry := by
  rw [h.others, hentry]
  rintro rfl
  rw [h.free] at hentry
  cases hentry

theorem Made.adds (h : Made base d₀ record) (hadds : Adds d₀ uuid d) : Made base d record where
  __ := h
  staged := hadds.entry h.staged
  header := by
    rw [hadds.file _ h.given]
    exact h.header
  given := Nat.lt_of_lt_of_le h.given hadds.inodes

theorem Found.adds (h : Found d₀ record) (hadds : Adds d₀ uuid d) : Found d record :=
  ⟨h.state, hadds.entry h.present⟩

/-- The staging file of `uuid` has been created since `d₀`. -/
structure Staging (base : Nat) (d₀ : Disk) (uuid : Uuid) (d : Disk) : Prop where
  unrecorded : Unrecorded base d
  adds : Adds d₀ uuid d
  entry : d.dir.entry (.staged uuid) = some (.regular d₀.fresh)
  given : d₀.nextInode < d.nextInode

theorem staging_create (h₀ : Unrecorded base d₀) (hfree : d₀.dir.entry (.staged uuid) = none) :
    Staging base d₀ uuid (d₀.create (.staged uuid)) := by
  have hadds : Adds d₀ uuid (d₀.create (.staged uuid)) := by
    refine ⟨hfree, fun name hname => Disk.entry_setEntry_ne d₀ _ hname, fun image hgiven => ?_, rfl,
      Nat.le_succ _⟩
    refine Disk.file_setFile_ne _ _ ?_
    rintro rfl
    exact Nat.lt_irrefl _ hgiven
  refine ⟨⟨h₀.absent, Nat.le_succ_of_le h₀.floor, fun other hother => ?_, h₀.nodup⟩, hadds,
    Disk.entry_setEntry_same d₀ _ _, Nat.lt_succ_self _⟩
  obtain ⟨image, hentry, hown⟩ := h₀.own other hother
  exact ⟨image, hadds.entry hentry, hown⟩

theorem Staging.push (h : Staging base d₀ uuid d) (h₀ : base ≤ d₀.nextInode)
    (hnew : uuid ∉ d.staged) :
    Staging base d₀ uuid { d with staged := d.staged ++ [uuid] } where
  __ := h
  unrecorded :=
    { absent := h.unrecorded.absent
      floor := h.unrecorded.floor
      own := forall_mem_append.mpr
        ⟨h.unrecorded.own, forall_mem_singleton.mpr ⟨d₀.fresh, h.entry, h₀⟩⟩
      nodup := by
        refine nodup_append.mpr ⟨h.unrecorded.nodup, nodup_cons.mpr ⟨not_mem_nil, nodup_nil⟩, ?_⟩
        intro a ha b hb hsame
        obtain rfl := mem_singleton.mp hb
        exact hnew (hsame ▸ ha) }
  adds := ⟨h.adds.free, h.adds.others, h.adds.file, h.adds.deeds, h.adds.inodes⟩

theorem Staging.setFile (h : Staging base d₀ uuid d) (f : File) :
    Staging base d₀ uuid (d.setFile d₀.fresh f) where
  __ := h
  unrecorded :=
    ⟨h.unrecorded.absent, h.unrecorded.floor, h.unrecorded.own, h.unrecorded.nodup⟩
  adds :=
    { free := h.adds.free
      others := h.adds.others
      file := by
        intro image hgiven
        rw [Disk.file_setFile_ne, h.adds.file image hgiven]
        rintro rfl
        exact Nat.lt_irrefl _ hgiven
      deeds := h.adds.deeds
      inodes := h.adds.inodes }

theorem Staging.synced (h : Staging base d₀ uuid d) :
    Staging base d₀ uuid d.synced where
  __ := h
  unrecorded :=
    ⟨h.unrecorded.absent, h.unrecorded.floor, h.unrecorded.own, h.unrecorded.nodup⟩
  adds := ⟨h.adds.free, h.adds.others, h.adds.file, h.adds.deeds, h.adds.inodes⟩

/-- A write to the file that was just created. -/
theorem triple_modify_staged (h₀ : base ≤ d₀.nextInode) (f : File → File) :
    Triple (PrepareStep pair base F) (Staging base d₀ uuid) (modify d₀.fresh f)
      (fun _ d => Staging base d₀ uuid d ∧ ∃ old, d.file d₀.fresh = f old)
      (fun _ => Unrecorded base) := by
  refine triple_operation ?_ (fun _ _ hd _ => hd.unrecorded) (fun _ hd => hd.unrecorded)
  intro d _ t hd hrun
  cases hrun
  exact ⟨moves_of_step (.write d d₀.fresh _ hd.unrecorded.absent h₀), hd.setFile _, _,
    Disk.file_setFile_same _ _ _⟩

theorem triple_createNew (uuid : Uuid) (h₀ : Unrecorded base d₀) :
    Triple (PrepareStep pair base F) (fun d => d = d₀) (createNew (.staged uuid))
      (fun file d => file = d₀.fresh ∧ uuid ∉ d.staged ∧ Staging base d₀ uuid d)
      (fun _ => Unrecorded base) := by
  have hsame : ∀ d, d = d₀ → Unrecorded base d := by
    rintro d rfl
    exact h₀
  refine triple_operation ?_ (fun d _ hd _ => hsame d hd) hsame
  rintro d file t rfl hrun
  split at hrun
  · cases hrun
  rename_i hfree
  have hfree : d.dir.entry (.staged uuid) = none := by simpa using hfree
  cases hrun
  refine ⟨moves_of_step (.stage d uuid h₀.absent hfree), rfl, ?_, staging_create h₀ hfree⟩
  intro hmem
  obtain ⟨image, hentry, -⟩ := h₀.own uuid hmem
  rw [hfree] at hentry
  cases hentry

theorem triple_createImage (size : Nat) (uuid : Uuid) (h₀ : Unrecorded base d₀) :
    Triple (PrepareStep pair base F) (fun d => d = d₀) (createImage filename size uuid)
      (fun record d => Unrecorded base d ∧ Adds d₀ uuid d ∧ Made base d record ∧
        record.filename = filename ∧ record.filesystemUuid = uuid)
      (fun _ => Unrecorded base) := by
  refine (triple_createNew uuid h₀).bind fun file => ?_
  refine Triple.assume (f := file = d₀.fresh) (fun _ hd => hd.1) ?_
  rintro rfl
  refine Triple.bind (Q := fun _ => Staging base d₀ uuid)
    (triple_inner (fun d _ => moves_of_step (.local_ d _))
      fun d hd => hd.2.2.push h₀.floor hd.2.1) fun _ => ?_
  refine Triple.bind ((triple_modify_staged h₀.floor _).weaken (fun _ _ hd => hd.1)
    fun _ _ => id) fun _ => ?_
  refine (triple_modify_staged h₀.floor _).bind fun _ => ?_
  refine Triple.bind ((triple_syncDirectory fun d hd => ?_).weaken (fun _ _ => id)
    fun _ _ hd => hd.1.unrecorded) fun _ => ?_
  · exact ⟨hd.1.synced, hd.2⟩
  refine Triple.bind ((triple_identity _).weaken (fun _ _ => id) fun _ _ hd => hd.1.unrecorded)
    fun image => ?_
  refine triple_pure ?_
  rintro d ⟨⟨hstaging, old, hwritten⟩, hentry⟩
  obtain rfl : d₀.fresh = image := by
    rw [hstaging.entry] at hentry
    cases hentry
    rfl
  refine ⟨hstaging.unrecorded, hstaging.adds, ⟨rfl, hstaging.entry, ?_, h₀.floor, hstaging.given⟩,
    rfl, rfl⟩
  rw [hwritten]
  exact carriesHeader_writeProvisionHeader old uuid

theorem unrecorded_noted (h : Unrecorded base d) (deed : Deed) : Unrecorded base (d.noted deed) :=
  ⟨h.absent, h.floor, h.own, h.nodup⟩

theorem triple_adoptImage (role : VolumeRole) (h₀ : Unrecorded base d₀) :
    Triple (PrepareStep pair base F) (fun d => d = d₀) (adoptImage filename role)
      (fun record d => d = d₀.noted (.adopted role record.filesystemUuid) ∧ Found d record ∧
        record.filename = filename)
      (fun _ => Unrecorded base) := by
  have hsame : ∀ d, d = d₀ → Unrecorded base d := by
    rintro d rfl
    exact h₀
  refine Triple.bind ((triple_inspect_any fun d _ (hd : d = d₀) _ => hd).weaken (fun _ _ => id)
    fun _ => hsame) fun f => ?_
  refine Triple.bind (Q := fun _ d => d = d₀)
    (triple_lift (fun _ _ _ hd => hd) fun _ _ => hsame) fun found => ?_
  refine Triple.bind (Q := fun _ d => d = d₀)
    (triple_lift (fun _ _ _ hd => hd) fun _ _ => hsame) fun uuid => ?_
  refine ((triple_identity _).weaken (fun _ _ => id) fun _ => hsame).bind fun image => ?_
  refine Triple.bind
    (Q := fun _ d => d = d₀.noted (.adopted role uuid) ∧
      d.dir.entry (.file filename) = some (.regular image))
    (triple_inner (fun d hd => ?_) fun d hd => ?_) fun _ => ?_
  · obtain ⟨rfl, -⟩ := hd
    exact moves_of_step (.adopt d role uuid h₀.absent)
  · obtain ⟨rfl, hentry⟩ := hd
    exact ⟨rfl, hentry⟩
  · refine triple_pure ?_
    rintro d ⟨rfl, hentry⟩
    exact ⟨rfl, ⟨rfl, hentry⟩, rfl⟩

/-- The draft of a manifest for a pair that had none: each record was made or found, and only the
UUIDs of found ones have been adopted meanwhile. -/
structure Drafted (pair : Pair) (base : Nat) (drawn : Drawn) (d₀ : Disk) (m : StorageManifest)
    (d : Disk) : Prop where
  unrecorded : Unrecorded base d
  names : ∀ role, (m.volume role).filename = pair.filename role
  records : ∀ role, Made base d (m.volume role) ∨ Found d (m.volume role)
  drawn : ∀ role, (m.volume role).state = .new →
    (m.volume role).filesystemUuid = drawn.data ∨ (m.volume role).filesystemUuid = drawn.metadata
  adopted : ∀ uuid, d.Adopted uuid → d₀.Adopted uuid ∨
    ∃ role, (m.volume role).state = .ready ∧ (m.volume role).filesystemUuid = uuid

/-- The UUIDs a call draws are not those of filesystems that were adopted. -/
def Drawn.Fresh (drawn : Drawn) (d : Disk) : Prop :=
  ¬d.Adopted drawn.data ∧ ¬d.Adopted drawn.metadata

instance (drawn : Drawn) (d : Disk) : Decidable (drawn.Fresh d) :=
  inferInstanceAs (Decidable (_ ∧ _))

theorem Drafted.fresh {drawn : Drawn} (h : Drafted pair base drawn d₀ m d) (hdrawn : drawn.Fresh d₀)
    (hvalid : m.Valid) (hnew : (m.volume role).state = .new) :
    ¬d.Adopted (m.volume role).filesystemUuid := by
  intro hadopted
  rcases h.adopted _ hadopted with hbefore | ⟨other, hready, hsame⟩
  · rcases h.drawn role hnew with huuid | huuid
    · exact hdrawn.1 (huuid ▸ hbefore)
    · exact hdrawn.2 (huuid ▸ hbefore)
  by_cases hrole : other = role
  · subst hrole
    rw [hnew] at hready
    cases hready
  · exact hvalid.uuid_ne hrole hsame

theorem adopted_noted {other : Uuid} (h : (d.noted (.adopted role uuid)).Adopted other) :
    d.Adopted other ∨ other = uuid := by
  rcases mem_cons.mp h with hhere | hbefore
  · exact .inr hhere
  · exact .inl hbefore

theorem adopted_of_adds {added : Uuid} (hadds : Adds d₀ added d) (h : d.Adopted uuid) :
    d₀.Adopted uuid := by
  unfold Disk.Adopted at h ⊢
  rw [hadds.deeds] at h
  exact h

theorem found_noted (h : Found d record) (deed : Deed) : Found (d.noted deed) record :=
  ⟨h.state, h.present⟩

theorem triple_drawRecords (dataSize metadataSize : Nat) (drawn : Drawn)
    (dataExists metadataExists : Bool) (h₀ : Unrecorded base d₀) :
    Triple (PrepareStep pair base F) (fun d => d = d₀)
      (drawRecords pair dataSize metadataSize drawn dataExists metadataExists)
      (fun records => Drafted pair base drawn d₀
        { version := 1, data := records.1, metadata := records.2.1, layout := records.2.2 })
      (fun _ => Unrecorded base) := by
  cases dataExists <;> cases metadataExists
  -- both images are created
  · unfold drawRecords
    refine (triple_createImage pair.data dataSize drawn.data h₀).bind fun data => ?_
    intro fates d₁ hd₁
    obtain ⟨hunrecorded, hadds, hmade, hname, huuid⟩ := hd₁
    refine Triple.bind (triple_createImage pair.metadata metadataSize drawn.metadata hunrecorded)
      (fun metadata => triple_pure fun d hd => ?_) fates d₁ rfl
    obtain ⟨hunrecorded', hadds', hmade', hname', huuid'⟩ := hd
    refine ⟨hunrecorded', ?_, ?_, ?_, ?_⟩
    · rintro (_ | _)
      · exact hname
      · exact hname'
    · rintro (_ | _)
      · exact .inl (hmade.adds hadds')
      · exact .inl hmade'
    · rintro (_ | _) -
      · exact .inl huuid
      · exact .inr huuid'
    · intro uuid hadopted
      exact .inl (adopted_of_adds hadds (adopted_of_adds hadds' hadopted))
  · exact triple_raise fun _ hd => hd ▸ h₀
  -- the data image is adopted and the metadata image created
  · unfold drawRecords
    refine (triple_adoptImage pair.data .data h₀).bind fun data => ?_
    intro fates d₁ hd₁
    obtain ⟨rfl, hfound, hname⟩ := hd₁
    refine Triple.bind
      (triple_createImage pair.metadata metadataSize drawn.metadata (unrecorded_noted h₀ _))
      (fun metadata => triple_pure fun d hd => ?_) fates _ rfl
    obtain ⟨hunrecorded', hadds', hmade', hname', huuid'⟩ := hd
    refine ⟨hunrecorded', ?_, ?_, ?_, ?_⟩
    · rintro (_ | _)
      · exact hname
      · exact hname'
    · rintro (_ | _)
      · exact .inr (hfound.adds hadds')
      · exact .inl hmade'
    · rintro (_ | _) hnew
      · have hready := hfound.state
        change data.state = _ at hnew
        rw [hready] at hnew
        cases hnew
      · exact .inr huuid'
    intro uuid hadopted
    rcases adopted_noted (adopted_of_adds hadds' hadopted) with hbefore | rfl
    · exact .inl hbefore
    · exact .inr ⟨.data, hfound.state, rfl⟩
  -- both images are adopted
  · unfold drawRecords
    refine (triple_adoptImage pair.data .data h₀).bind fun data => ?_
    intro fates d₁ hd₁
    obtain ⟨rfl, hfound, hname⟩ := hd₁
    refine Triple.bind (triple_adoptImage pair.metadata .metadata (unrecorded_noted h₀ _))
      (fun metadata => triple_pure fun d hd => ?_) fates _ rfl
    obtain ⟨rfl, hfound', hname'⟩ := hd
    refine ⟨unrecorded_noted (unrecorded_noted h₀ _) _, ?_, ?_, ?_, ?_⟩
    · rintro (_ | _)
      · exact hname
      · exact hname'
    · rintro (_ | _)
      · exact .inr (found_noted hfound _)
      · exact .inr hfound'
    · rintro (_ | _) hnew
      · have hready := hfound.state
        change data.state = _ at hnew
        rw [hready] at hnew
        cases hnew
      have hready := hfound'.state
      change metadata.state = _ at hnew
      rw [hready] at hnew
      cases hnew
    intro uuid hadopted
    rcases adopted_noted hadopted with hbefore | rfl
    · rcases adopted_noted hbefore with hbefore | rfl
      · exact .inl hbefore
      · exact .inr ⟨.data, hfound.state, rfl⟩
    · exact .inr ⟨.metadata, hfound'.state, rfl⟩

/-- After an error the call's staging files are still its own, unless the manifest may be there. -/
def Refused (base : Nat) (error : Error) (d : Disk) : Prop :=
  error ≠ .durabilityUncertain → Unrecorded base d

theorem triple_save {drawn : Drawn} (hdrawn : F → drawn.Fresh d₀) (m : StorageManifest) :
    Triple (PrepareStep pair base F) (Drafted pair base drawn d₀ m) (save m)
      (fun _ d => d.dir.manifest = some (some m)) (Refused base) := by
  refine Triple.bind (Q := fun _ d => Drafted pair base drawn d₀ m d ∧ m.Valid)
    (triple_lift (fun _ hvalid d hd => ⟨hd, (m.validate_eq_ok_iff).mp hvalid⟩)
      fun _ _ d hd _ => hd.unrecorded) fun _ => ?_
  refine Triple.bind (Q := fun _ d => Drafted pair base drawn d₀ m d ∧ m.Valid)
    (triple_operation ?_ nofun fun d hd _ => hd.1.unrecorded)
    fun _ => ?_
  · intro d _ t hd hrun
    cases hrun
    exact ⟨.refl, hd⟩
  refine Triple.bind (Q := fun _ d => d.dir.manifest = some (some m))
    (triple_operation ?_ nofun fun d hd _ => hd.1.unrecorded)
    fun _ => ?_
  · rintro d _ t ⟨hd, hvalid⟩ hrun
    cases hrun
    exact ⟨moves_of_step (.record d m hd.unrecorded.absent hvalid hd.names hd.records
      fun hfresh role => hd.fresh (hdrawn hfresh) hvalid), rfl⟩
  refine triple_operation ?_ nofun fun _ _ hcertain =>
    absurd rfl hcertain
  intro d _ t hd hrun
  cases hrun
  exact ⟨moves_of_step (.sync d), hd⟩

theorem triple_recordPair (dataSize metadataSize : Nat) {drawn : Drawn}
    (hdrawn : F → drawn.Fresh d₀) (dataExists metadataExists : Bool) (h₀ : Unrecorded base d₀) :
    Triple (PrepareStep pair base F) (fun d => d = d₀)
      (recordPair pair dataSize metadataSize drawn dataExists metadataExists)
      (fun m d => d.dir.manifest = some (some m)) (Refused base) := by
  refine Triple.bind ((triple_drawRecords dataSize metadataSize drawn _ _ h₀).weaken
    (fun _ _ => id) fun _ _ hd _ => hd) fun records => ?_
  obtain ⟨data, metadata, layout⟩ := records
  refine (triple_save hdrawn _).bind fun _ => ?_
  exact triple_pure fun _ hd => hd

/-! ### Removing what was staged -/

theorem triple_removeStaged (error : Error) (staged : List Uuid) :
    Triple (PrepareStep pair base F)
      (fun d => d.dir.manifest = none ∧ staged.Nodup ∧ ∀ uuid ∈ staged, ∃ image,
        d.dir.entry (.staged uuid) = some (.regular image) ∧ base ≤ image.inode)
      (removeStaged error staged) (fun _ _ => True) (fun _ _ => True) := by
  induction staged with
  | nil => exact triple_pure fun _ _ => trivial
  | cons uuid rest ih =>
      refine Triple.bind (Q := fun result d => ∀ u, result = .ok u →
        d.dir.manifest = none ∧ rest.Nodup ∧ ∀ uuid ∈ rest, ∃ image,
          d.dir.entry (.staged uuid) = some (.regular image) ∧ base ≤ image.inode)
        (Triple.attempt (triple_operation ?_ ?_ ?_)) fun result => ?_
      · rintro d _ t ⟨habsent, hnodup, hown⟩ hrun
        obtain ⟨hhead, hrest⟩ := nodup_cons.mp hnodup
        obtain ⟨image, hentry, hbase⟩ := hown uuid mem_cons_self
        rw [hentry] at hrun
        cases hrun
        refine ⟨moves_of_step (.drop d uuid image habsent hentry hbase), fun _ _ =>
          ⟨habsent, hrest, fun other hother => ?_⟩⟩
        obtain ⟨image', hentry', hbase'⟩ := hown other (mem_cons_of_mem _ hother)
        refine ⟨image', ?_, hbase'⟩
        rw [Disk.entry_setEntry_ne, hentry']
        intro hsame
        cases hsame
        exact hhead hother
      · intro d _ _ _ u hu
        cases hu
      · intro d _ u hu
        cases hu
      · cases result with
        | ok u => exact ih.strengthen fun d hd => hd u rfl
        | error cleanup => exact triple_raise fun _ _ => trivial

theorem triple_provision (dataSize metadataSize : Nat) {drawn : Drawn}
    (hdrawn : F → drawn.Fresh d₀) (h₀ : Unrecorded base d₀) :
    Triple (PrepareStep pair base F) (fun d => d = d₀)
      (provision pair dataSize metadataSize drawn) (fun _ _ => True) (fun _ _ => True) := by
  refine Triple.bind ((triple_inspect_any fun d _ (hd : d = d₀) _ => hd).weaken (fun _ _ => id)
    fun _ _ _ => trivial) fun dataExists => ?_
  refine Triple.bind ((triple_inspect_any fun d _ (hd : d = d₀) _ => hd).weaken (fun _ _ => id)
    fun _ _ _ => trivial) fun metadataExists => ?_
  refine Triple.bind (Q := fun result d =>
      (∀ m, result = .ok m → d.dir.manifest = some (some m)) ∧
      ∀ error, result = .error error → Refused base error d)
    (Triple.attempt ((triple_recordPair dataSize metadataSize hdrawn _ _ h₀).weaken ?_ ?_))
    fun result => ?_
  · intro m d hd
    exact ⟨fun other hother => (by cases hother; exact hd), fun error herror => (by cases herror)⟩
  · intro error d hd
    exact ⟨fun m hm => (by cases hm), fun other hother => (by cases hother; exact hd)⟩
  split
  · exact (triple_publishAndGrow _ _ _).strengthen fun d hd => hd.1 _ rfl
  · exact triple_raise fun _ _ => trivial
  rename_i error hother
  refine Triple.bind (Q := fun staged d => d.dir.manifest = none ∧ staged.Nodup ∧
      ∀ uuid ∈ staged, ∃ image,
        d.dir.entry (.staged uuid) = some (.regular image) ∧ base ≤ image.inode)
    (triple_inner (fun _ _ => .refl) fun d hd => ?_) fun staged => ?_
  · have hunrecorded := hd.2 error rfl fun huncertain => hother (huncertain ▸ rfl)
    exact ⟨hunrecorded.absent, hunrecorded.nodup, hunrecorded.own⟩
  refine (triple_removeStaged error staged).bind fun _ => ?_
  exact triple_raise fun _ _ => trivial

/-! ### The whole call -/

theorem triple_attempt_readManifest {P : Disk → Prop} {R : Error → Disk → Prop} :
    Triple (PrepareStep pair base F) P (attempt readManifest)
      (fun result d => P d ∧ (∀ bytes, result = .ok bytes → d.dir.manifest = some bytes) ∧
        (result = .error .notFound → d.dir.manifest = none)) R := by
  refine Triple.attempt (triple_inspect ?_ ?_ ?_)
  · intro d bytes hd hrun
    refine ⟨hd, fun other hother => ?_, fun hmissing => (by cases hmissing)⟩
    cases hother
    cases hmanifest : d.dir.manifest with
    | none =>
        rw [hmanifest] at hrun
        cases hrun
    | some found =>
        rw [hmanifest] at hrun
        cases hrun
        rfl
  · intro d error hd hrun
    refine ⟨hd, fun other hother => (by cases hother), fun _ => ?_⟩
    cases hmanifest : d.dir.manifest with
    | none => rfl
    | some found =>
        rw [hmanifest] at hrun
        cases hrun
  · intro d hd
    exact ⟨hd, fun other hother => (by cases hother), fun hmissing => (by cases hmissing)⟩

/-- The call has begun: nothing is staged yet. -/
structure Begun (d₀ d : Disk) : Prop where
  staged : d.staged = []
  inodes : d₀.nextInode ≤ d.nextInode
  deeds : d.deeds = d₀.deeds

theorem triple_openLock (d₀ : Disk) :
    Triple (PrepareStep pair base F) (Begun d₀) openLock (fun _ => Begun d₀) (fun _ _ => True) := by
  refine triple_operation ?_ (fun _ _ _ _ => trivial) (fun _ _ => trivial)
  intro d _ t hd hrun
  split at hrun
  next hfree =>
    cases hrun
    exact ⟨moves_of_step (.lock d hfree), hd.staged, Nat.le_succ_of_le hd.inodes, hd.deeds⟩
  · cases hrun
    exact ⟨.refl, hd⟩
  · cases hrun
    exact ⟨.refl, hd⟩
  · cases hrun

theorem Begun.unrecorded (h : Begun d₀ d) (habsent : d.dir.manifest = none) :
    Unrecorded d₀.nextInode d where
  absent := habsent
  floor := h.inodes
  own := by
    rw [h.staged]
    intro uuid hmem
    cases hmem
  nodup := by
    rw [h.staged]
    exact nodup_nil

theorem Begun.drawn (h : Begun d₀ d) {drawn : Drawn} (hdrawn : drawn.Fresh d₀) : drawn.Fresh d := by
  unfold Drawn.Fresh Disk.Adopted at hdrawn ⊢
  rw [h.deeds]
  exact hdrawn

end Steps

/-- Wherever it is interrupted, a call of `prepare_pair` has only taken its steps. -/
theorem preparePair_moves (pair : Pair) (dataSize metadataSize : Nat) (drawn : Drawn)
    (d : Disk) (fates : List Fate) :
    Relation.ReflTransGen (PrepareStep pair d.nextInode (drawn.Fresh d)) d
      ((preparePair pair dataSize metadataSize drawn).leaves fates d) := by
  have htriple : Triple (PrepareStep pair d.nextInode (drawn.Fresh d)) (fun d' => d' = d)
      (preparePair pair dataSize metadataSize drawn) (fun _ _ => True) (fun _ _ => True) := by
    refine Triple.bind (Q := fun _ => Begun d)
      (triple_inner (fun d' _ => moves_of_step (.local_ d' [])) ?_) fun _ => ?_
    · rintro d' rfl
      exact ⟨rfl, .refl, rfl⟩
    refine (triple_openLock d).bind fun _ => ?_
    refine triple_attempt_readManifest.bind fun result => ?_
    split
    next bytes =>
      refine Triple.bind (Q := fun m d' => d'.dir.manifest = some (some m))
        (triple_lift (fun m hparse d' hd' => ?_) fun _ _ _ _ => trivial) fun m => ?_
      · rw [hd'.2.1 bytes rfl, parse_eq_ok hparse]
      refine Triple.bind (Q := fun _ d' => d'.dir.manifest = some (some m))
        (triple_lift (fun _ _ _ hd' => hd') fun _ _ _ _ => trivial) fun _ => ?_
      refine Triple.bind (Q := fun _ d' => d'.dir.manifest = some (some m))
        (triple_lift (fun _ _ _ hd' => hd') fun _ _ _ _ => trivial) fun _ => ?_
      exact triple_publishAndGrow m dataSize metadataSize
    · intro rest d' hd'
      exact triple_provision dataSize metadataSize hd'.1.drawn
        (hd'.1.unrecorded (hd'.2.2 rfl)) rest d' rfl
    · exact triple_raise fun _ _ => trivial
  exact htriple.moves fates rfl

end Arcbox.Storage

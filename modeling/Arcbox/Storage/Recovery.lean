import Arcbox.Foundation.History
import Arcbox.Storage.Steps

/-!
# Provisioning recovers from every interruption

`prepare_pair` is called again and again on one directory, each time interrupted by an error, by
the end of the process or by a loss of power.  Three things hold of every such history, read off
the steps of the call: what was in the directory stays (`Untouched`), an image that a durable
manifest records is not made a second time (`Settled`), and a pair that began with nothing can be
taken up where it was left (`Resumable`).  In the last case a call that nothing interrupts
succeeds.
-/

set_option autoImplicit false

namespace Arcbox.Storage

open Foundation List Disk
open Foundation.Program

/-! ## Histories of interrupted calls -/

/-- One call of `prepare_pair`, and the loss of power after it, if there is one. -/
structure Attempt where
  dataSize : Nat
  metadataSize : Nat
  drawn : Drawn
  fates : List Fate
  powerLoss : Option Nat

namespace Disk

def attempt (pair : Pair) (d : Disk) (a : Attempt) : Disk :=
  match a.powerLoss with
  | none => (preparePair pair a.dataSize a.metadataSize a.drawn).leaves a.fates d
  | some version =>
      ((preparePair pair a.dataSize a.metadataSize a.drawn).leaves a.fates d).afterPowerLoss version

/-- The directory after a history of attempts. -/
def after (pair : Pair) (d : Disk) (attempts : List Attempt) : Disk :=
  attempts.foldl (attempt pair) d

/-- Every inode in use has been given out. -/
def Given (d : Disk) : Prop :=
  ∀ name image, d.dir.entry name = some (.regular image) → image.inode < d.nextInode

end Disk

/-- What the steps of calls and losses of power keep, a history of attempts keeps.  The calls begin
when the inodes below `low` have been given out. -/
theorem keeps_attempts {pair : Pair} {low : Nat} {I : Disk → Prop}
    (hlow : ∀ {d : Disk}, I d → low ≤ d.nextInode)
    (hstep : ∀ {base : Nat} {F : Prop} {d d' : Disk}, low ≤ base → I d →
      PrepareStep pair base F d d' → I d')
    (hloss : ∀ {d : Disk} (version : Nat), I d → I (d.afterPowerLoss version))
    {d : Disk} (h : I d) (attempts : List Attempt) : I (d.after pair attempts) := by
  have hcall : ∀ (a : Attempt) {d : Disk}, I d →
      I ((preparePair pair a.dataSize a.metadataSize a.drawn).leaves a.fates d) := by
    intro a d hd
    exact keeps_of_moves (I := I) (fun _ _ hs => hstep (hlow hd) hs)
      (preparePair_moves pair a.dataSize a.metadataSize a.drawn d a.fates) hd
  induction attempts generalizing d with
  | nil => exact h
  | cons a rest ih =>
      refine ih ?_
      unfold Disk.attempt
      split
      · exact hcall a h
      · exact hloss _ (hcall a h)

/-! ## What was there stays -/

/-- In this version the file under `name` is there; the staging name of an image that is in place
may have gone. -/
def Dir.Keeps (v : Dir) (name : Name) (entry : Entry) : Prop :=
  v.entry name = some entry ∨ ∃ uuid image filename, name = .staged uuid ∧
    entry = .regular image ∧ v.entry (.file filename) = some (.regular image)

/-- Nothing that `start` had was overwritten or deleted. -/
structure Untouched (start d : Disk) : Prop where
  inodes : start.nextInode ≤ d.nextInode
  manifest : ∀ bytes, start.dir.manifest = some bytes → ∀ v ∈ d.versions, v.manifest = some bytes
  entry : ∀ name entry, start.dir.entry name = some entry → ∀ v ∈ d.versions, v.Keeps name entry
  file : ∀ image : ImageIdentity, image.inode < start.nextInode →
    (start.file image).Extends (d.file image)

variable {dir : Dir} {name : Name} {d' : Disk} {base : Nat}

namespace Untouched

variable {start d : Disk}

section

variable (h : Untouched start d)

include h

/-- The next version, from what it does to the visible one. -/
theorem change (hmanifest : ∀ bytes, d.dir.manifest = some bytes → dir.manifest = some bytes)
    (hentry : ∀ name entry, start.dir.entry name = some entry → d.dir.Keeps name entry →
      dir.Keeps name entry) :
    Untouched start (d.change dir) where
  __ := h
  manifest bytes hbytes :=
    have hall := h.manifest bytes hbytes
    forall_mem_cons.mpr ⟨hmanifest bytes (hall d.dir mem_cons_self), hall⟩
  entry name entry hname :=
    have hall := h.entry name entry hname
    forall_mem_cons.mpr ⟨hentry name entry hname (hall d.dir mem_cons_self), hall⟩

/-- A name is bound that stood for nothing. -/
theorem bind (entry : Entry) (hfree : d.dir.entry name = none) :
    Untouched start (d.setEntry name (some entry)) := by
  have hother : ∀ {other : Name} {e : Entry}, d.dir.entry other = some e → other ≠ name := by
    rintro other e he rfl
    rw [hfree] at he
    cases he
  refine h.change (fun _ => id) fun other e _ hkeeps => ?_
  rcases hkeeps with hhere | ⟨uuid, image, filename, hname, he, hplaced⟩
  · exact .inl ((entry_setEntry_ne d _ (hother hhere)).trans hhere)
  · exact .inr ⟨uuid, image, filename, hname, he,
      (entry_setEntry_ne d _ (hother hplaced)).trans hplaced⟩

theorem unbind (uuid : Uuid)
    (hgone : ∀ entry, start.dir.entry (.staged uuid) = some entry →
      d.dir.entry (.staged uuid) = some entry → ∃ image filename, entry = .regular image ∧
      d.dir.entry (.file filename) = some (.regular image)) :
    Untouched start (d.setEntry (.staged uuid) none) := by
  have hplain : ∀ filename,
      (d.setEntry (.staged uuid) none).dir.entry (.file filename) = d.dir.entry (.file filename) :=
    fun filename => entry_setEntry_ne d _ nofun
  refine h.change (fun _ => id) fun other e hstart hkeeps => ?_
  rcases hkeeps with hhere | ⟨u, image, filename, hname, he, hplaced⟩
  · by_cases hsame : other = .staged uuid
    · subst hsame
      obtain ⟨image, filename, he, hplaced⟩ := hgone e hstart hhere
      exact .inr ⟨uuid, image, filename, rfl, he, (hplain filename).trans hplaced⟩
    · exact .inl ((entry_setEntry_ne d _ hsame).trans hhere)
  · exact .inr ⟨u, image, filename, hname, he, (hplain filename).trans hplaced⟩

/-- A file that came later is written. -/
theorem write {image : ImageIdentity} (f : File) (hlater : start.nextInode ≤ image.inode) :
    Untouched start (d.setFile image f) where
  __ := h
  file other hother := by
    rw [file_setFile_ne]
    · exact h.file other hother
    · rintro rfl
      exact Nat.lt_irrefl _ (Nat.lt_of_lt_of_le hother hlater)

theorem create (hfree : d.dir.entry name = none) : Untouched start (d.create name) := by
  have hbound : Untouched start
      ((d.setEntry name (some (.regular d.fresh))).setFile d.fresh File.empty) :=
    (h.bind (.regular d.fresh) hfree).write File.empty h.inodes
  exact ⟨Nat.le_succ_of_le hbound.inodes, hbound.manifest, hbound.entry, hbound.file⟩

theorem grow {image : ImageIdentity} {f : File} (hgrown : (d.file image).Extends f) :
    Untouched start (d.setFile image f) where
  __ := h
  file other hother := by
    by_cases hsame : other = image
    · subst hsame
      rw [file_setFile_same]
      exact (h.file other hother).trans hgrown
    · rw [file_setFile_ne _ _ hsame]
      exact h.file other hother

theorem versions (hversions : ∀ v ∈ d'.versions, v ∈ d.versions)
    (hinodes : d'.nextInode = d.nextInode) (hfile : d'.file = d.file) : Untouched start d' where
  inodes := by
    rw [hinodes]
    exact h.inodes
  manifest bytes hbytes v hv := h.manifest bytes hbytes v (hversions v hv)
  entry name entry hname v hv := h.entry name entry hname v (hversions v hv)
  file := by
    rw [hfile]
    exact h.file

end

theorem step {pair : Pair} {F : Prop} (hgiven : start.Given) (hbase : start.nextInode ≤ base)
    (h : Untouched start d) (hstep : PrepareStep pair base F d d') : Untouched start d' := by
  cases hstep with
  | local_ staged => exact h.versions (fun _ => id) rfl rfl
  | lock hfree | stage _ _ hfree => exact h.create hfree
  | write image f _ hown => exact h.write f (Nat.le_trans hbase hown)
  | drop uuid image _ hstaged hown =>
      -- the call's own file: an inode of the start is smaller
      refine h.unbind uuid fun entry hstart hhere => ?_
      rw [hstaged] at hhere
      cases hhere
      have hold := hgiven _ _ hstart
      exact absurd (Nat.le_trans hbase hown) (Nat.not_le.mpr hold)
  | adopt role uuid _ => exact h.versions (fun _ => id) rfl rfl
  | record m habsent _ _ _ _ =>
      refine h.change (fun bytes hbytes => ?_) fun _ _ _ => id
      rw [habsent] at hbytes
      cases hbytes
  | link m role _ _ hfree _ => exact h.bind _ hfree
  | unstage m role _ hplaced hstaged =>
      refine h.unbind _ fun entry _ hhere => ?_
      rw [hstaged] at hhere
      cases hhere
      exact ⟨_, _, rfl, hplaced⟩
  | sync =>
      exact h.versions (forall_mem_singleton.mpr mem_cons_self) rfl rfl
  | grow image f hgrown => exact h.grow hgrown

theorem start_self (hpast : start.past = []) : Untouched start start where
  inodes := Nat.le_refl _
  manifest bytes hbytes v hv := by
    unfold Disk.versions at hv
    rw [hpast] at hv
    obtain rfl := mem_singleton.mp hv
    exact hbytes
  entry name entry hname v hv := by
    unfold Disk.versions at hv
    rw [hpast] at hv
    obtain rfl := mem_singleton.mp hv
    exact .inl hname
  file _ _ := File.Extends.refl _

end Untouched

theorem untouched_after {pair : Pair} {start : Disk} (hpast : start.past = [])
    (hgiven : start.Given) (attempts : List Attempt) :
    Untouched start (start.after pair attempts) :=
  keeps_attempts (I := Untouched start) (fun h => h.inodes)
    (fun hbase h hstep => h.step hgiven hbase hstep)
    (fun _ h => h.versions (fun _ hv => Disk.mem_versions_of_powerLoss hv) rfl rfl)
    (Untouched.start_self hpast) attempts

/-! ## An image that is recorded is not made again -/

/-- Whatever comes back after a loss of power records `m`. -/
def Disk.Durable (d : Disk) (m : StorageManifest) : Prop :=
  ∀ v ∈ d.versions, v.manifest = some (some m)

/-- Since `m` was durable in `d₀` nothing was made but the lock: every other name stands for what
it stood for, or a recorded name for the recorded file, which was staged. -/
structure Settled (m : StorageManifest) (d₀ d : Disk) : Prop where
  durable : d.Durable m
  entry : ∀ v ∈ d.versions, ∀ name entry, name ≠ .lock → v.entry name = some entry →
    (∃ v₀ ∈ d₀.versions, v₀.entry name = some entry) ∨
      ∃ role, name = .file (m.volume role).filename ∧ entry = .regular (m.volume role).image ∧
        ∃ v₀ ∈ d₀.versions, v₀.entry (.staged (m.volume role).filesystemUuid) = some entry

namespace Settled

variable {m : StorageManifest} {d₀ d : Disk}

section

variable (h : Settled m d₀ d)

include h

theorem visible : d.dir.manifest = some (some m) := h.durable d.dir mem_cons_self

theorem not_absent (habsent : d.dir.manifest = none) : False := by
  rw [h.visible] at habsent
  cases habsent

theorem change (hmanifest : dir.manifest = d.dir.manifest)
    (hentry : ∀ name entry, name ≠ .lock → dir.entry name = some entry →
      d.dir.entry name = some entry ∨ ∃ role, name = .file (m.volume role).filename ∧
      entry = .regular (m.volume role).image ∧
      d.dir.entry (.staged (m.volume role).filesystemUuid) = some entry) :
    Settled m d₀ (d.change dir) where
  durable := forall_mem_cons.mpr ⟨hmanifest.trans h.visible, h.durable⟩
  entry := by
    refine forall_mem_cons.mpr ⟨fun name entry hname hhere => ?_, h.entry⟩
    rcases hentry name entry hname hhere with hbefore | ⟨role, hfile, himage, hstaged⟩
    · exact h.entry d.dir mem_cons_self name entry hname hbefore
    refine .inr ⟨role, hfile, himage, ?_⟩
    rcases h.entry d.dir mem_cons_self _ entry (by intro hsame; cases hsame) hstaged with
      hthere | ⟨other, hother, -⟩
    · exact hthere
    · cases hother

theorem versions (hversions : ∀ v ∈ d'.versions, v ∈ d.versions) : Settled m d₀ d' where
  durable v hv := h.durable v (hversions v hv)
  entry v hv := h.entry v (hversions v hv)

theorem step {pair : Pair} {F : Prop} (hstep : PrepareStep pair base F d d') : Settled m d₀ d' := by
  cases hstep with
  | local_ staged => exact h.versions fun _ => id
  | lock hfree =>
      have hlocked : Settled m d₀ (d.setEntry .lock (some (.regular d.fresh))) :=
        h.change rfl fun name entry hname hhere =>
          .inl ((entry_setEntry_ne d _ hname).symm.trans hhere)
      exact hlocked.versions fun _ => id
  | stage _ habsent | write _ _ habsent | drop _ _ habsent | adopt _ _ habsent
  | record _ habsent => exact (h.not_absent habsent).elim
  | link m' role hmanifest _ _ hstaged =>
      obtain rfl : m = m' := by
        rw [h.visible] at hmanifest
        cases hmanifest
        rfl
      refine h.change rfl fun name entry _ hhere => ?_
      by_cases hsame : name = .file (m.volume role).filename
      · subst hsame
        have hentry := (entry_setEntry_same d _ _).symm.trans hhere
        cases hentry
        exact .inr ⟨role, rfl, rfl, hstaged⟩
      · exact .inl ((entry_setEntry_ne d _ hsame).symm.trans hhere)
  | unstage m' role _ _ _ =>
      refine h.change rfl fun name entry _ hhere => .inl ?_
      by_cases hsame : name = .staged (m'.volume role).filesystemUuid
      · subst hsame
        have hentry := (entry_setEntry_same d _ _).symm.trans hhere
        cases hentry
      · exact (entry_setEntry_ne d _ hsame).symm.trans hhere
  | sync =>
      exact h.versions (forall_mem_singleton.mpr mem_cons_self)
  | grow image f hgrown => exact h.versions fun _ => id

end

theorem start_self (hdurable : d₀.Durable m) : Settled m d₀ d₀ where
  durable := hdurable
  entry v hv _ _ _ hhere := .inl ⟨v, hv, hhere⟩

end Settled

theorem settled_after {pair : Pair} {m : StorageManifest} {d : Disk} (hdurable : d.Durable m)
    (attempts : List Attempt) : Settled m d (d.after pair attempts) :=
  keeps_attempts (I := Settled m d) (fun _ => Nat.zero_le _) (fun _ h hstep => h.step hstep)
    (fun _ h => h.versions fun _ hv => Disk.mem_versions_of_powerLoss hv)
    (Settled.start_self hdurable) attempts

/-! ## A pair that began with nothing can be taken up again -/

/-- No manifest and no image. -/
def Dir.Vacant (v : Dir) (pair : Pair) : Prop :=
  v.manifest = none ∧ ∀ role, v.entry (.file (pair.filename role)) = none

/-- The image of a record is staged, or in place. -/
def Dir.Holds (v : Dir) (record : VolumeRecord) : Prop :=
  (v.entry (.file record.filename) = none ∧
      v.entry (.staged record.filesystemUuid) = some (.regular record.image)) ∨
    (v.entry (.file record.filename) = some (.regular record.image) ∧
      (v.entry (.staged record.filesystemUuid) = none ∨
        v.entry (.staged record.filesystemUuid) = some (.regular record.image)))

variable {v : Dir}

theorem Dir.Holds.congr {w : Dir} {record : VolumeRecord} (h : v.Holds record)
    (hfile : w.entry (.file record.filename) = v.entry (.file record.filename))
    (hstaged : w.entry (.staged record.filesystemUuid) = v.entry (.staged record.filesystemUuid)) :
    w.Holds record := by
  unfold Dir.Holds
  rw [hfile, hstaged]
  exact h

/-- The directory records two new volumes, and has them. -/
structure Resumes (pair : Pair) (file : ImageIdentity → File) (m : StorageManifest) (v : Dir) :
    Prop where
  manifest : v.manifest = some (some m)
  valid : m.Valid
  names : ∀ role, (m.volume role).filename = pair.filename role
  new : ∀ role, (m.volume role).state = .new
  header : ∀ role, carriesHeader (file (m.volume role).image) (m.volume role).filesystemUuid = true
  holds : ∀ role, v.Holds (m.volume role)

theorem Resumes.given {pair : Pair} {file : ImageIdentity → File} {m : StorageManifest}
    (h : Resumes pair file m v) {next : Nat}
    (hgiven : ∀ name image, v.entry name = some (.regular image) → image.inode < next)
    (role : VolumeRole) : (m.volume role).image.inode < next := by
  rcases h.holds role with ⟨-, hstaged⟩ | ⟨hplaced, -⟩
  · exact hgiven _ _ hstaged
  · exact hgiven _ _ hplaced

theorem Resumes.files {pair : Pair} {file file' : ImageIdentity → File} {m : StorageManifest}
    (h : Resumes pair file m v)
    (hheader : ∀ role, carriesHeader (file' (m.volume role).image) (m.volume role).filesystemUuid =
      true) : Resumes pair file' m v := ⟨h.manifest, h.valid, h.names, h.new, hheader, h.holds⟩

variable {role : VolumeRole}

theorem filename_ne {m : StorageManifest} (hvalid : m.Valid) {other : VolumeRole}
    (hne : other ≠ role) : (m.volume other).filename ≠ (m.volume role).filename := by
  cases role <;> cases other
  · exact absurd rfl hne
  · exact fun heq => hvalid.filenames heq.symm
  · exact hvalid.filenames
  · exact absurd rfl hne

/-- An image that is staged is put in place. -/
theorem Resumes.link {pair : Pair} {d : Disk} {m : StorageManifest}
    (h : Resumes pair d.file m d.dir)
    (hstaged : d.dir.entry (.staged (m.volume role).filesystemUuid) =
      some (.regular (m.volume role).image)) :
    Resumes pair d.file m
      (d.setEntry (.file (m.volume role).filename) (some (.regular (m.volume role).image))).dir where
  __ := h
  holds other := by
    have hkept : ∀ uuid, (d.setEntry (.file (m.volume role).filename)
        (some (.regular (m.volume role).image))).dir.entry (.staged uuid) =
        d.dir.entry (.staged uuid) :=
      fun uuid => entry_setEntry_ne d _ nofun
    by_cases hrole : other = role
    · subst hrole
      exact .inr ⟨entry_setEntry_same d _ _, .inr ((hkept _).trans hstaged)⟩
    have hfile : Name.file (m.volume other).filename ≠ .file (m.volume role).filename := by
      intro hsame
      exact filename_ne h.valid hrole (Name.file.inj hsame)
    exact (h.holds other).congr (entry_setEntry_ne d _ hfile) (hkept _)

/-- The staging name of an image that is in place goes. -/
theorem Resumes.unstage {pair : Pair} {d : Disk} {m : StorageManifest}
    (h : Resumes pair d.file m d.dir)
    (hplaced : d.dir.entry (.file (m.volume role).filename) =
      some (.regular (m.volume role).image)) :
    Resumes pair d.file m (d.setEntry (.staged (m.volume role).filesystemUuid) none).dir where
  __ := h
  holds other := by
    have hkept : ∀ filename,
        (d.setEntry (.staged (m.volume role).filesystemUuid) none).dir.entry (.file filename) =
          d.dir.entry (.file filename) :=
      fun filename => entry_setEntry_ne d _ nofun
    by_cases hrole : other = role
    · subst hrole
      exact .inr ⟨(hkept _).trans hplaced, .inl (entry_setEntry_same d _ _)⟩
    have hstaged : Name.staged (m.volume other).filesystemUuid ≠
        .staged (m.volume role).filesystemUuid := by
      intro hsame
      exact h.valid.uuid_ne hrole (Name.staged.inj hsame)
    exact (h.holds other).congr (hkept _) (entry_setEntry_ne d _ hstaged)

/-- Images that were just made are staged. -/
theorem resumes_of_made {pair : Pair} {d : Disk} {m : StorageManifest}
    (hvacant : d.dir.Vacant pair) (hvalid : m.Valid)
    (hnames : ∀ role, (m.volume role).filename = pair.filename role)
    (hmade : ∀ role, Made base d (m.volume role)) :
    Resumes pair d.file m (d.setManifest m).dir where
  manifest := rfl
  valid := hvalid
  names := hnames
  new role := (hmade role).state
  header role := (hmade role).header
  holds role := by
    refine .inl ⟨?_, (hmade role).staged⟩
    rw [hnames role]
    exact hvacant.2 role

structure Resumable (pair : Pair) (d : Disk) : Prop where
  given : ∀ v ∈ d.versions, ∀ name image, v.entry name = some (.regular image) →
    image.inode < d.nextInode
  version : ∀ v ∈ d.versions, v.Vacant pair ∨ ∃ m, Resumes pair d.file m v
  unmade : d.dir.manifest = none → ∀ v ∈ d.versions, v.Vacant pair

namespace Resumable

variable {pair : Pair} {d : Disk}

section

variable (h : Resumable pair d)

include h

theorem vacant (habsent : d.dir.manifest = none) : d.dir.Vacant pair :=
  h.unmade habsent d.dir mem_cons_self

theorem change
    (hgiven : ∀ name image, dir.entry name = some (.regular image) → image.inode < d.nextInode)
    (hvacant : d.dir.manifest = none → dir.Vacant pair)
    (hresumes : ∀ m, Resumes pair d.file m d.dir → Resumes pair d.file m dir) :
    Resumable pair (d.change dir) where
  given := forall_mem_cons.mpr ⟨hgiven, h.given⟩
  version := by
    refine forall_mem_cons.mpr ⟨?_, h.version⟩
    rcases h.version d.dir mem_cons_self with hvisible | ⟨m, hm⟩
    · exact .inl (hvacant hvisible.1)
    · exact .inr ⟨m, hresumes m hm⟩
  unmade habsent := by
    have hbefore : d.dir.manifest = none := by
      rcases h.version d.dir mem_cons_self with hvisible | ⟨m, hm⟩
      · exact hvisible.1
      have hafter := (hresumes m hm).manifest
      change dir.manifest = none at habsent
      rw [habsent] at hafter
      cases hafter
    exact forall_mem_cons.mpr ⟨hvacant hbefore, h.unmade hbefore⟩

/-- Files that are recorded keep their headers. -/
theorem files (hversions : d'.versions = d.versions) (hinodes : d.nextInode ≤ d'.nextInode)
    (hfiles : d.dir.manifest ≠ none →
      ∀ (image : ImageIdentity) (uuid : Uuid), image.inode < d.nextInode →
      carriesHeader (d.file image) uuid = true → carriesHeader (d'.file image) uuid = true) :
    Resumable pair d' := by
  have hdir : d'.dir = d.dir := by
    exact (List.cons.inj hversions).1
  refine ⟨?_, ?_, ?_⟩
  · rw [hversions]
    intro v hv name image hentry
    exact Nat.lt_of_lt_of_le (h.given v hv name image hentry) hinodes
  · rw [hversions]
    intro v hv
    rcases h.version v hv with hvacant | ⟨m, hm⟩
    · exact .inl hvacant
    refine .inr ⟨m, hm.files fun role => hfiles (fun habsent => ?_) _ _
      (hm.given (h.given v hv) role) (hm.header role)⟩
    have hnone := (h.unmade habsent v hv).1
    rw [hm.manifest] at hnone
    cases hnone
  · rw [hversions, hdir]
    exact h.unmade

theorem versions (hversions : ∀ v ∈ d'.versions, v ∈ d.versions)
    (hinodes : d'.nextInode = d.nextInode) (hfile : d'.file = d.file)
    (hunmade : d'.dir.manifest = none → ∀ v ∈ d'.versions, v.manifest = none) :
    Resumable pair d' where
  given v hv := by
    rw [hinodes]
    exact h.given v (hversions v hv)
  version v hv := by
    rw [hfile]
    exact h.version v (hversions v hv)
  unmade habsent v hv := by
    rcases h.version v (hversions v hv) with hvacant | ⟨m, hm⟩
    · exact hvacant
    · have hnone := hunmade habsent v hv
      rw [hm.manifest] at hnone
      cases hnone

/-- One name changes its meaning. -/
theorem setEntry {entry : Option Entry}
    (hgiven : ∀ image, entry = some (.regular image) → image.inode < d.nextInode)
    (hvacant : d.dir.manifest = none → ∀ filename, name ≠ .file filename)
    (hresumes : ∀ m, Resumes pair d.file m d.dir →
      Resumes pair d.file m (d.setEntry name entry).dir) :
    Resumable pair (d.setEntry name entry) := by
  refine h.change (fun other image hentry => ?_) (fun habsent => ⟨habsent, fun role => ?_⟩) hresumes
  · by_cases hsame : other = name
    · subst hsame
      exact hgiven image ((entry_setEntry_same d _ _).symm.trans hentry)
    · exact h.given d.dir mem_cons_self other image
        ((entry_setEntry_ne d _ hsame).symm.trans hentry)
  · exact (entry_setEntry_ne d _ (hvacant habsent _).symm).trans ((h.vacant habsent).2 role)

theorem record {m : StorageManifest} (habsent : d.dir.manifest = none) (hvalid : m.Valid)
    (hnames : ∀ role, (m.volume role).filename = pair.filename role)
    (hrecords : ∀ role, Made base d (m.volume role) ∨ Found d (m.volume role)) :
    Resumable pair (d.setManifest m) := by
  have hmade : ∀ role, Made base d (m.volume role) := by
    intro role
    rcases hrecords role with hmade | hfound
    · exact hmade
    · have hpresent := hfound.present
      rw [hnames role, (h.vacant habsent).2 role] at hpresent
      cases hpresent
  have hresumes := resumes_of_made (h.vacant habsent) hvalid hnames hmade
  refine ⟨?_, ?_, nofun⟩
  · exact forall_mem_cons.mpr ⟨h.given d.dir mem_cons_self, h.given⟩
  · exact forall_mem_cons.mpr ⟨.inr ⟨m, hresumes⟩, fun v hv => .inl (h.unmade habsent v hv)⟩

theorem create (hname : ∀ filename, name ≠ .file filename)
    (hstaged : d.dir.manifest ≠ none → ∀ uuid, name ≠ .staged uuid) :
    Resumable pair (d.create name) := by
  have hfresh : Resumable pair
      { d.setFile d.fresh File.empty with nextInode := d.nextInode + 1 } := by
    refine h.files rfl (Nat.le_succ _) fun _ image uuid hgiven hheader => ?_
    refine (congrArg (carriesHeader · uuid) (file_setFile_ne d _ ?_)).trans hheader
    rintro rfl
    exact Nat.lt_irrefl _ hgiven
  have hfile : ∀ filename, (d.setEntry name (some (.regular d.fresh))).dir.entry (.file filename) =
      d.dir.entry (.file filename) :=
    fun filename => entry_setEntry_ne d _ (hname filename).symm
  refine hfresh.change (fun other image hentry => ?_) (fun habsent => ?_) fun m hm => ?_
  · by_cases hsame : other = name
    · subst hsame
      have hnew := (entry_setEntry_same d _ _).symm.trans hentry
      cases hnew
      exact Nat.lt_succ_self _
    · have hold := (entry_setEntry_ne d _ hsame).symm.trans hentry
      exact Nat.lt_succ_of_lt (h.given d.dir mem_cons_self other image hold)
  · exact ⟨habsent, fun role => (hfile _).trans ((h.vacant habsent).2 role)⟩
  refine ⟨hm.manifest, hm.valid, hm.names, hm.new, hm.header, fun role => ?_⟩
  have hrecorded : d.dir.manifest ≠ none := by
    intro habsent
    have hmanifest := hm.manifest
    change d.dir.manifest = _ at hmanifest
    rw [habsent] at hmanifest
    cases hmanifest
  exact (hm.holds role).congr (hfile _) (entry_setEntry_ne d _ (hstaged hrecorded _).symm)

theorem step {F : Prop} (hstep : PrepareStep pair base F d d') : Resumable pair d' := by
  cases hstep with
  | local_ staged => exact ⟨h.given, h.version, h.unmade⟩
  | lock hfree =>
      exact h.create nofun nofun
  | stage uuid habsent hfree =>
      exact h.create nofun fun hrecorded => absurd habsent hrecorded
  | write image f habsent _ =>
      exact h.files rfl (Nat.le_refl _) fun hrecorded => absurd habsent hrecorded
  | drop uuid image habsent _ _ =>
      refine h.setEntry nofun nofun
        fun m hm => ?_
      have hmanifest := hm.manifest
      rw [habsent] at hmanifest
      cases hmanifest
  | adopt role uuid _ => exact ⟨h.given, h.version, h.unmade⟩
  | record m habsent hvalid hnames hrecords _ => exact h.record habsent hvalid hnames hrecords
  | link m role hmanifest _ _ hstaged =>
      refine h.setEntry (fun image hsame => ?_) (fun habsent => ?_) fun m' hm' => ?_
      · cases hsame
        exact h.given d.dir mem_cons_self _ _ hstaged
      · rw [hmanifest] at habsent
        cases habsent
      · obtain rfl : m = m' := Option.some.inj (Option.some.inj (hmanifest.symm.trans hm'.manifest))
        exact hm'.link hstaged
  | unstage m role hmanifest hplaced _ =>
      refine h.setEntry nofun nofun
        fun m' hm' => ?_
      obtain rfl : m = m' := Option.some.inj (Option.some.inj (hmanifest.symm.trans hm'.manifest))
      exact hm'.unstage hplaced
  | sync =>
      exact h.versions (forall_mem_singleton.mpr mem_cons_self) rfl rfl
        fun habsent => forall_mem_singleton.mpr habsent
  | grow image f hgrown =>
      refine h.files rfl (Nat.le_refl _) fun _ other uuid _ hheader => ?_
      by_cases hsame : other = image
      · subst hsame
        rw [file_setFile_same]
        exact carriesHeader_of_extends hgrown hheader
      · rw [file_setFile_ne _ _ hsame]
        exact hheader

end

theorem start_self (hpast : d.past = []) (hgiven : d.Given) (hvacant : d.dir.Vacant pair) :
    Resumable pair d := by
  refine ⟨?_, ?_, ?_⟩
  all_goals
    unfold Disk.versions
    rw [hpast]
  · exact forall_mem_singleton.mpr hgiven
  · exact forall_mem_singleton.mpr (.inl hvacant)
  · exact fun _ => forall_mem_singleton.mpr hvacant

end Resumable

/-- The lock is missing or a regular file. -/
def Dir.Lockable (dir : Dir) : Prop :=
  ∀ present reads, dir.entry .lock ≠ some (.other present reads)

/-- The only entry a call makes under the lock's name is a regular file. -/
theorem lockable_step {pair : Pair} {base : Nat} {F : Prop} {d d' : Disk}
    (h : ∀ v ∈ d.versions, v.Lockable) (hstep : PrepareStep pair base F d d') :
    ∀ v ∈ d'.versions, v.Lockable := by
  have hset : ∀ {name entry}, (name = .lock → ∀ present reads, entry ≠ some (.other present reads)) →
      ∀ v ∈ (d.setEntry name entry).versions, v.Lockable := by
    intro name entry hentry
    refine forall_mem_cons.mpr ⟨fun present reads hlock => ?_, h⟩
    by_cases hname : Name.lock = name
    · subst hname
      exact hentry rfl present reads ((entry_setEntry_same d _ _).symm.trans hlock)
    · exact h d.dir mem_cons_self present reads ((entry_setEntry_ne d _ hname).symm.trans hlock)
  cases hstep with
  | local_ | write | adopt | grow => exact h
  | lock | stage => exact hset fun _ => nofun
  | drop | unstage | link => exact hset nofun
  | record => exact forall_mem_cons.mpr ⟨h d.dir mem_cons_self, h⟩
  | sync => exact forall_mem_singleton.mpr (h d.dir mem_cons_self)

theorem lockable_after {pair : Pair} {start : Disk} (hpast : start.past = [])
    (hlock : start.dir.Lockable) (attempts : List Attempt) :
    (start.after pair attempts).dir.Lockable := by
  have hstart : ∀ v ∈ start.versions, v.Lockable := by
    unfold Disk.versions
    rw [hpast]
    exact forall_mem_singleton.mpr hlock
  refine keeps_attempts (I := fun d => ∀ v ∈ d.versions, v.Lockable) (fun _ => Nat.zero_le _)
    (fun _ h hstep => lockable_step h hstep) (fun _ h v hv => h v (mem_versions_of_powerLoss hv))
    hstart attempts _ mem_cons_self

theorem resumable_after {pair : Pair} {start : Disk} (hpast : start.past = [])
    (hgiven : start.Given) (hvacant : start.dir.Vacant pair) (attempts : List Attempt) :
    Resumable pair (start.after pair attempts) := by
  refine keeps_attempts (I := Resumable pair) (fun _ => Nat.zero_le _) (fun _ h hstep => h.step hstep)
    (fun version h => ?_) (Resumable.start_self hpast hgiven hvacant) attempts
  exact h.versions (fun _ hv => mem_versions_of_powerLoss hv) rfl rfl
    fun habsent => forall_mem_singleton.mpr habsent

end Arcbox.Storage

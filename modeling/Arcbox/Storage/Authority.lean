import Arcbox.Foundation.History
import Arcbox.Storage.Steps

/-!
# User data is never formatted

A volume may be formatted once, by the call that moves its record from `new` to `formatting`, and
only while it carries the header of the UUID its record has.  The theorem is about every sequence
of the calls on a pair, each interrupted anywhere, with losses of power and third parties that
replace the images in between.
-/

set_option autoImplicit false

namespace Arcbox.Storage

open Foundation List StorageManifest
open Foundation.Program

/-! ## Histories of a pair -/

/-- What happens to a pair: the calls of the host and the guest, one at a time, a loss of power,
and third parties, who leave the manifest alone. -/
inductive Event where
  | prepare (dataSize metadataSize : Nat) (drawn : Drawn) (fates : List Fate)
  | rebind (fates : List Fate)
  | authorize (sources : Bool) (fates : List Fate)
  | ensure (role : VolumeRole) (device : ImageIdentity) (formatter : Formatter)
      (fates : List Fate)
  | finish (fates : List Fate)
  | thirdParty (entry : Name → Option Entry) (file : ImageIdentity → File) (nextInode : Nat)
  | powerLoss (version : Nat)

namespace Disk

def step (pair : Pair) (d : Disk) : Event → Disk
  | .prepare dataSize metadataSize drawn fates =>
      (preparePair pair dataSize metadataSize drawn).leaves fates d
  | .rebind fates => (rebindPair pair).leaves fates d
  | .authorize sources fates => (authorizeLegacyMigration sources).leaves fates d
  | .ensure role device formatter fates => (ensureFilesystem role device formatter).leaves fates d
  | .finish fates => finishMetadataSetup.leaves fates d
  | .thirdParty entry file nextInode =>
      { d.change { d.dir with entry } with file, nextInode }
  | .powerLoss version => d.afterPowerLoss version

/-- The formatter was started for this UUID. -/
def Formatted (d : Disk) (uuid : Uuid) : Prop := uuid ∈ d.deeds.filterMap Deed.formattedUuid

end Disk

/-- A call draws UUIDs that no adopted filesystem has. -/
def Event.Fresh (d : Disk) : Event → Prop
  | .prepare _ _ drawn _ => drawn.Fresh d
  | _ => True

instance (d : Disk) : ∀ e : Event, Decidable (e.Fresh d)
  | .prepare _ _ drawn _ => inferInstanceAs (Decidable (drawn.Fresh d))
  | .rebind _ | .authorize _ _ | .ensure _ _ _ _ | .finish _ | .thirdParty _ _ _ | .powerLoss _ =>
      .isTrue trivial

/-- In this version of the directory the volume of `role` has the UUID and a state in `P`. -/
def Dir.Shows (v : Dir) (role : VolumeRole) (uuid : Uuid) (P : VolumeState → Prop) : Prop :=
  ∃ m, v.manifest = some (some m) ∧ (m.volume role).filesystemUuid = uuid ∧
    P (m.volume role).state

/-- What is to hold of the formatter. -/
structure Disk.Guarded (d : Disk) : Prop where
  /-- It was started on a volume with the header of its UUID, when every version of the directory
  that could come back recorded the volume as `formatting`. -/
  licensed : ∀ role uuid found versions, Deed.formatted role uuid found versions ∈ d.deeds →
    carriesHeader found uuid = true ∧
      ∀ v ∈ versions, v.Shows role uuid fun state => state = .formatting
  /-- At most once for a UUID. -/
  once : (d.deeds.filterMap Deed.formattedUuid).Nodup
  /-- Never for a filesystem that was adopted. -/
  spared : ∀ uuid, d.Formatted uuid → ¬d.Adopted uuid

/-! ## The invariant -/

/-- A volume that is still `new` in some version was never formatted nor adopted; one that was
formatted is `new` in no version. -/
structure Sound (d : Disk) : Prop where
  guarded : d.Guarded
  unspent : ∀ v ∈ d.versions, ∀ m, v.manifest = some (some m) → ∀ role,
    (m.volume role).state = .new →
      ¬d.Formatted (m.volume role).filesystemUuid ∧ ¬d.Adopted (m.volume role).filesystemUuid
  spent : ∀ role uuid found versions, Deed.formatted role uuid found versions ∈ d.deeds →
    ∀ v ∈ d.versions, v.Shows role uuid fun state => state ≠ .new
  unmade : d.dir.manifest = none → ∀ v ∈ d.versions, v.manifest = none

variable {d : Disk} (pair : Pair)

theorem formatted_iff {uuid : Uuid} :
    d.Formatted uuid ↔
      ∃ role found versions, Deed.formatted role uuid found versions ∈ d.deeds := by
  unfold Disk.Formatted
  rw [mem_filterMap]
  constructor
  · rintro ⟨deed, hmem, huuid⟩
    cases deed with
    | adopted role other => cases huuid
    | formatted role other found versions =>
        cases huuid
        exact ⟨role, found, versions, hmem⟩
  · rintro ⟨role, found, versions, hmem⟩
    exact ⟨_, hmem, rfl⟩

theorem Sound.not_formatted (h : Sound d) (habsent : d.dir.manifest = none) (uuid : Uuid) :
    ¬d.Formatted uuid := by
  intro hformatted
  obtain ⟨role, found, versions, hmem⟩ := formatted_iff.mp hformatted
  obtain ⟨m, hmanifest, -⟩ := h.spent role uuid found versions hmem d.dir mem_cons_self
  rw [habsent] at hmanifest
  cases hmanifest

variable {d' : Disk}

theorem Sound.of_manifests (h : Sound d) (hdeeds : d'.deeds = d.deeds)
    (hversions : ∀ v' ∈ d'.versions, ∃ v ∈ d.versions, v.manifest = v'.manifest)
    (hunmade : d'.dir.manifest = none → ∀ v' ∈ d'.versions, v'.manifest = none) : Sound d' where
  guarded := by
    refine ⟨?_, ?_, ?_⟩
    · rw [hdeeds]
      exact h.guarded.licensed
    · rw [hdeeds]
      exact h.guarded.once
    · unfold Disk.Formatted Disk.Adopted
      rw [hdeeds]
      exact h.guarded.spared
  unspent := by
    intro v' hv' m hm role hnew
    obtain ⟨v, hv, hsame⟩ := hversions v' hv'
    unfold Disk.Formatted Disk.Adopted
    rw [hdeeds]
    exact h.unspent v hv m (hsame.trans hm) role hnew
  spent := by
    intro role uuid found versions hmem v' hv'
    rw [hdeeds] at hmem
    obtain ⟨v, hv, hsame⟩ := hversions v' hv'
    obtain ⟨m, hm, hrest⟩ := h.spent role uuid found versions hmem v hv
    exact ⟨m, hsame.symm.trans hm, hrest⟩
  unmade := hunmade

theorem Sound.of_change (h : Sound d) (hdeeds : d'.deeds = d.deeds)
    (hmanifest : d'.dir.manifest = d.dir.manifest) (hpast : ∀ v ∈ d'.past, v ∈ d.versions) :
    Sound d' := by
  have hversions : ∀ v' ∈ d'.versions, ∃ v ∈ d.versions, v.manifest = v'.manifest := by
    exact forall_mem_cons.mpr
      ⟨⟨d.dir, mem_cons_self, hmanifest.symm⟩, fun v' hv' => ⟨v', hpast v' hv', rfl⟩⟩
  refine h.of_manifests hdeeds hversions fun habsent v' hv' => ?_
  obtain ⟨v, hv, hsame⟩ := hversions v' hv'
  rw [← hsame]
  exact h.unmade (hmanifest.symm.trans habsent) v hv

theorem Sound.setEntry (h : Sound d) (name : Name) (entry : Option Entry) :
    Sound (d.setEntry name entry) := h.of_change rfl rfl fun _ hv => hv

theorem Sound.create (h : Sound d) (name : Name) : Sound (d.create name) :=
  h.of_change rfl rfl fun _ hv => hv

theorem Sound.setFile (h : Sound d) (image : ImageIdentity) (f : File) :
    Sound (d.setFile image f) := h.of_change rfl rfl fun _ hv => mem_cons_of_mem _ hv

theorem Sound.synced (h : Sound d) : Sound d.synced := h.of_change rfl rfl nofun

theorem Sound.adopt (h : Sound d) (role : VolumeRole) (uuid : Uuid)
    (habsent : d.dir.manifest = none) : Sound (d.noted (.adopted role uuid)) where
  guarded :=
    { licensed := by
        intro r u found versions hmem
        rcases mem_cons.mp hmem with hhere | hbefore
        · cases hhere
        · exact h.guarded.licensed r u found versions hbefore
      once := h.guarded.once
      spared := fun u hformatted => absurd hformatted (h.not_formatted habsent u) }
  unspent := by
    intro v hv m hm
    rw [h.unmade habsent v hv] at hm
    cases hm
  spent := by
    intro r u found versions hmem
    rcases mem_cons.mp hmem with hhere | hbefore
    · cases hhere
    · exact h.spent r u found versions hbefore
  unmade := h.unmade

variable {m : StorageManifest}

/-- The first manifest of a pair. -/
theorem Sound.record (h : Sound d) (habsent : d.dir.manifest = none)
    (hfresh : ∀ role, (m.volume role).state = .new → ¬d.Adopted (m.volume role).filesystemUuid) :
    Sound (d.setManifest m) where
  guarded := ⟨h.guarded.licensed, h.guarded.once, h.guarded.spared⟩
  unspent := by
    intro v hv m' hm' role hnew
    refine ⟨h.not_formatted habsent _, ?_⟩
    rcases mem_cons.mp hv with rfl | hold
    · cases hm'
      exact hfresh role hnew
    · rw [h.unmade habsent v hold] at hm'
      cases hm'
  spent := by
    intro role uuid found versions hmem
    exact absurd (formatted_iff.mpr ⟨role, found, versions, hmem⟩) (h.not_formatted habsent uuid)
  unmade := by
    intro hnone
    cases hnone

theorem sound_prepareStep {pair : Pair} {base : Nat} {F : Prop} (hdrawn : F) (h : Sound d)
    (hstep : PrepareStep pair base F d d') : Sound d' := by
  cases hstep with
  | local_ staged => exact h.of_change rfl rfl fun _ hv => mem_cons_of_mem _ hv
  | lock | stage => exact h.create _
  | write => exact h.setFile _ _
  | drop => exact h.setEntry _ _
  | adopt role uuid habsent => exact h.adopt role uuid habsent
  | record m habsent _ _ _ hfresh => exact h.record habsent (hfresh hdrawn)
  | link | unstage => exact h.setEntry _ _
  | sync => exact h.synced
  | grow => exact h.setFile _ _

/-! ## The calls that move a manifest on -/

/-- `m'` has the volumes of `m`, and none that is `new` again. -/
structure Advances (m m' : StorageManifest) : Prop where
  uuid : ∀ role, (m'.volume role).filesystemUuid = (m.volume role).filesystemUuid
  state : ∀ role, (m'.volume role).state = .new → (m.volume role).state = .new

theorem advances_setState (m : StorageManifest) (role : VolumeRole) {state : VolumeState}
    (hstate : state ≠ .new) : Advances m (m.setState role state) where
  uuid r := by
    by_cases hrole : r = role
    · subst hrole
      unfold setState
      rw [volume_setVolume_same]
    · unfold setState
      rw [volume_setVolume_ne m _ hrole]
  state r hnew := by
    by_cases hrole : r = role
    · subst hrole
      unfold setState at hnew
      rw [volume_setVolume_same] at hnew
      exact absurd hnew hstate
    · unfold setState at hnew
      rw [volume_setVolume_ne m _ hrole] at hnew
      exact hnew

variable {m' : StorageManifest}

/-- What leaves both records but their identities alone. -/
theorem advances_of_same
    (hsame : ∀ role, (m'.volume role).filesystemUuid = (m.volume role).filesystemUuid ∧
      (m'.volume role).state = (m.volume role).state) :
    Advances m m' where
  uuid role := (hsame role).1
  state role hnew := (hsame role).2.symm.trans hnew

theorem Sound.advance (h : Sound d) (hmanifest : d.dir.manifest = some (some m))
    (hadvances : Advances m m') : Sound (d.setManifest m') where
  guarded := ⟨h.guarded.licensed, h.guarded.once, h.guarded.spared⟩
  unspent := by
    refine forall_mem_cons.mpr ⟨fun m'' hm'' role hnew => ?_, h.unspent⟩
    cases hm''
    rw [hadvances.uuid role]
    exact h.unspent d.dir mem_cons_self m hmanifest role (hadvances.state role hnew)
  spent := by
    intro role uuid found versions hmem
    have hall := h.spent role uuid found versions hmem
    refine forall_mem_cons.mpr ⟨?_, hall⟩
    obtain ⟨m₀, hm₀, huuid, hstate⟩ := hall d.dir mem_cons_self
    rw [hmanifest] at hm₀
    cases hm₀
    exact ⟨m', rfl, (hadvances.uuid role).trans huuid,
      fun hnew => hstate (hadvances.state role hnew)⟩
  unmade := by
    intro hnone
    cases hnone

/-- The start of the formatter, when the record is durably `formatting` and was `new` before. -/
theorem Sound.format (h : Sound d) (hvalid : m.Valid)
    (hdurable : ∀ v ∈ d.versions, v.manifest = some (some m)) {role : VolumeRole}
    (hstate : (m.volume role).state = .formatting) {found : File}
    (hheader : carriesHeader found (m.volume role).filesystemUuid = true)
    (hformatted : ¬d.Formatted (m.volume role).filesystemUuid)
    (hadopted : ¬d.Adopted (m.volume role).filesystemUuid) :
    Sound (d.noted (.formatted role (m.volume role).filesystemUuid found d.versions)) where
  guarded :=
    { licensed := by
        intro r u f versions hmem
        rcases mem_cons.mp hmem with hhere | hbefore
        · cases hhere
          exact ⟨hheader, fun v hv => ⟨m, hdurable v hv, rfl, hstate⟩⟩
        · exact h.guarded.licensed r u f versions hbefore
      once := nodup_cons.mpr ⟨hformatted, h.guarded.once⟩
      spared := forall_mem_cons.mpr ⟨hadopted, h.guarded.spared⟩ }
  unspent := by
    intro v hv m' hm' r hnew
    obtain ⟨hnot, hspared⟩ := h.unspent v hv m' hm' r hnew
    refine ⟨fun hspent => ?_, hspared⟩
    rcases mem_cons.mp hspent with hhere | hbefore
    · -- the other volume is still `new`, and has another UUID
      obtain rfl : m = m' := by
        rw [hdurable v hv] at hm'
        cases hm'
        rfl
      have hrole : r ≠ role := by
        rintro rfl
        rw [hstate] at hnew
        cases hnew
      exact hvalid.uuid_ne hrole hhere
    · exact hnot hbefore
  spent := by
    intro r u f versions hmem v hv
    rcases mem_cons.mp hmem with hhere | hbefore
    · cases hhere
      refine ⟨m, hdurable v hv, rfl, ?_⟩
      rw [hstate]
      intro hnew
      cases hnew
    · exact h.spent r u f versions hbefore v hv
  unmade := h.unmade

/-! ### Their programs -/

/-- A step that keeps the invariant. -/
def Keeps (d d' : Disk) : Prop := Sound d → Sound d'

/-- A manifest that is saved moves the loaded one on; once saved it is the only one that can come
back. -/
theorem triple_save_advance (hadvances : Advances m m') {d₀ : Disk}
    (hmanifest : d₀.dir.manifest = some (some m)) :
    Triple Keeps (fun d => d = d₀) (save m')
      (fun _ d => m'.Valid ∧ (∀ v ∈ d.versions, v.manifest = some (some m')) ∧ d.file = d₀.file ∧
        d.deeds = d₀.deeds) (fun _ _ => True) := by
  refine Triple.bind (Q := fun _ d => d = d₀ ∧ m'.Valid)
    (triple_lift (fun _ hvalid d hd => ⟨hd, (m'.validate_eq_ok_iff).mp hvalid⟩)
      fun _ _ _ _ => trivial) fun _ => ?_
  refine Triple.bind (Q := fun _ d => d = d₀ ∧ m'.Valid)
    (triple_operation ?_ (fun _ _ _ _ => trivial) fun _ _ => trivial) fun _ => ?_
  · intro d _ t hd hrun
    cases hrun
    exact ⟨.refl, hd⟩
  refine Triple.bind (Q := fun _ d => d = d₀.setManifest m' ∧ m'.Valid)
    (triple_operation ?_ (fun _ _ _ _ => trivial) fun _ _ => trivial) fun _ => ?_
  · rintro d _ t ⟨rfl, hvalid⟩ hrun
    cases hrun
    exact ⟨.single fun hsound => hsound.advance hmanifest hadvances, rfl, hvalid⟩
  refine triple_operation ?_ (fun _ _ _ _ => trivial) fun _ _ => trivial
  rintro d _ t ⟨rfl, hvalid⟩ hrun
  cases hrun
  exact ⟨.single fun hsound => hsound.synced, hvalid, forall_mem_singleton.mpr rfl, rfl, rfl⟩

/-- Saving on the way to the end of a call. -/
theorem triple_save_last (hadvances : Advances m m') :
    Triple Keeps (fun d => d.dir.manifest = some (some m)) (save m') (fun _ _ => True)
      (fun _ _ => True) := by
  intro fates d hd
  exact (triple_save_advance hadvances hd).weaken (fun _ _ _ => trivial) (fun _ _ => id) fates d rfl

theorem triple_matchesPaths {P : Disk → Prop} (m : StorageManifest) :
    Triple Keeps P (lift (matchesPaths pair m)) (fun _ => P) (fun _ _ => True) :=
  triple_lift (fun _ _ _ hd => hd) fun _ _ _ _ => trivial

theorem triple_rebindPair :
    Triple Keeps (fun _ => True) (rebindPair pair) (fun _ _ => True) (fun _ _ => True) := by
  refine Triple.bind (Q := fun m d => d.dir.manifest = some (some m)) ?_ fun m => ?_
  · refine (triple_load.weaken (fun _ _ hd => hd.2.1) fun _ _ => id).bind fun m => ?_
    refine (triple_matchesPaths pair m).bind fun _ => ?_
    exact triple_pure fun _ hd => hd
  refine Triple.bind
    (Q := fun rebound d => d.dir.manifest = some (some m) ∧ Advances m rebound) ?_ fun rebound => ?_
  · unfold rebindImages verifyFilesystems
    refine Triple.bind (Q := fun _ d => d.dir.manifest = some (some m)) ?_ fun _ => ?_
    · refine Triple.bind ((triple_verifyAt m _ _).weaken (fun _ _ hd => hd.1) fun _ _ _ => trivial)
        fun _ => ?_
      exact (triple_verifyAt m _ _).weaken (fun _ _ hd => hd.1) fun _ _ _ => trivial
    refine Triple.bind ((triple_identity _).weaken (fun _ _ hd => hd.1) fun _ _ _ => trivial)
      fun data => ?_
    refine Triple.bind ((triple_identity _).weaken (fun _ _ hd => hd.1) fun _ _ _ => trivial)
      fun metadata => ?_
    refine triple_pure fun d hd => ⟨hd, advances_of_same ?_⟩
    rintro (_ | _)
    · exact ⟨rfl, rfl⟩
    · exact ⟨rfl, rfl⟩
  refine Triple.assume (fun _ hd => hd.2) fun hadvances => ?_
  split
  · refine ((triple_save_last hadvances).strengthen fun _ hd => hd.1).bind fun _ => ?_
    exact triple_pure fun _ _ => trivial
  · exact triple_pure fun _ _ => trivial

theorem triple_authorizeLegacyMigration (sources : Bool) :
    Triple Keeps (fun _ => True) (authorizeLegacyMigration sources) (fun _ _ => True)
      (fun _ _ => True) := by
  refine (triple_load.weaken (fun _ _ hd => hd.2.1) fun _ _ => id).bind fun m => ?_
  split
  · split
    · exact triple_raise fun _ _ => trivial
    refine (triple_save_last (advances_of_same ?_)).bind fun _ => ?_
    · rintro (_ | _)
      · exact ⟨rfl, rfl⟩
      · exact ⟨rfl, rfl⟩
    · exact triple_pure fun _ _ => trivial
  · exact triple_pure fun _ _ => trivial

theorem triple_finishMetadataSetup :
    Triple Keeps (fun _ => True) finishMetadataSetup (fun _ _ => True) (fun _ _ => True) := by
  refine (triple_load.weaken (fun _ _ hd => hd.2.1) fun _ _ => id).bind fun m => ?_
  split
  · refine triple_save_last (advances_of_same ?_)
    rintro (_ | _)
    · exact ⟨rfl, rfl⟩
    · exact ⟨rfl, rfl⟩
  · exact triple_pure fun _ _ => trivial

/-- The manifest that authorizes a format, as it is when the formatter is started. -/
structure Authorized (m : StorageManifest) (role : VolumeRole) (device : ImageIdentity)
    (d : Disk) : Prop where
  valid : m.Valid
  durable : ∀ v ∈ d.versions, v.manifest = some (some m)
  state : (m.volume role).state = .formatting
  header : carriesHeader (d.file device) (m.volume role).filesystemUuid = true
  formatted : ¬d.Formatted (m.volume role).filesystemUuid
  adopted : ¬d.Adopted (m.volume role).filesystemUuid

theorem triple_format (m : StorageManifest) (role : VolumeRole) (device : ImageIdentity)
    (formatter : Formatter) :
    Triple Keeps (Authorized m role device)
      (format role device formatter (m.volume role).filesystemUuid)
      (fun _ d => d.dir.manifest = some (some m)) (fun _ _ => True) := by
  refine Triple.bind (Q := fun _ d => d.dir.manifest = some (some m))
    (triple_operation ?_ (fun _ _ _ _ => trivial) fun _ _ => trivial) fun _ => ?_
  · intro d _ t hd hrun
    cases hrun
    refine ⟨.single fun hsound => ?_, hd.durable d.dir mem_cons_self⟩
    exact (hsound.format hd.valid hd.durable hd.state hd.header hd.formatted hd.adopted).setFile _ _
  refine triple_operation ?_ (fun _ _ _ _ => trivial) fun _ _ => trivial
  intro d _ t hd hrun
  cases hrun
  exact ⟨.single fun hsound => hsound.setFile _ _, hd⟩

theorem setState_setState (m : StorageManifest) (role : VolumeRole) (state state' : VolumeState) :
    (m.setState role state).setState role state' = m.setState role state' := by
  cases role <;> rfl

/-- A `new` volume that was verified: after the save, which changes neither the device nor the
deeds, the formatter is authorized. -/
theorem triple_formatNew {role : VolumeRole} {device : ImageIdentity} (formatter : Formatter)
    {d₀ : Disk} (hsound : Sound d₀) (hmanifest : d₀.dir.manifest = some (some m))
    (hnew : (m.volume role).state = .new)
    (hheader : carriesHeader (d₀.file device) (m.volume role).filesystemUuid = true) :
    Triple Keeps (fun d => d = d₀) (formatNew m role device formatter)
      (fun _ d => d.dir.manifest = some (some (m.setState role .formatting)))
      (fun _ _ => True) := by
  obtain ⟨hformatted, hadopted⟩ := hsound.unspent d₀.dir mem_cons_self m hmanifest role hnew
  have hstate : VolumeState.formatting ≠ .new := by decide
  have huuid := (advances_setState m role hstate).uuid role
  unfold formatNew
  split
  · exact triple_raise fun _ _ => trivial
  refine Triple.bind (Q := fun _ => Authorized (m.setState role .formatting) role device)
    ((triple_save_advance (advances_setState m role hstate) hmanifest).weaken ?_ fun _ _ => id)
    fun _ => ?_
  · rintro _ d ⟨hvalid, hdurable, hfile, hdeeds⟩
    refine ⟨hvalid, hdurable, ?_, ?_, ?_, ?_⟩
    · unfold setState
      rw [volume_setVolume_same]
    · rw [hfile, huuid]
      exact hheader
    · unfold Disk.Formatted
      rw [hdeeds, huuid]
      exact hformatted
    · unfold Disk.Adopted
      rw [hdeeds, huuid]
      exact hadopted
  refine Triple.bind (Q := fun _ d => d.dir.manifest = some (some (m.setState role .formatting)))
    ?_ fun _ => ?_
  · have htriple := triple_format (m.setState role .formatting) role device formatter
    rw [huuid] at htriple
    exact htriple
  · exact (triple_verifyAt _ _ _).weaken (fun _ _ hd => hd.1) fun _ _ _ => trivial

theorem triple_ensureFilesystem (role : VolumeRole) (device : ImageIdentity)
    (formatter : Formatter) :
    Triple Keeps Sound (ensureFilesystem role device formatter) (fun _ _ => True)
      (fun _ _ => True) := by
  have hready : VolumeState.ready ≠ .new := by decide
  refine (triple_load.weaken (fun _ _ => id) fun _ _ _ => trivial).bind fun m => ?_
  refine Triple.bind ((triple_verifyAt m role _).weaken (fun _ _ => id) fun _ _ _ => trivial)
    fun _ => ?_
  split
  · exact triple_pure fun _ _ => trivial
  next hnew =>
    refine Triple.bind
      (Q := fun _ d => d.dir.manifest = some (some (m.setState role .formatting))) ?_ fun _ => ?_
    · rintro fates d ⟨⟨hsound, hmanifest, -⟩, f, hopened, hverify⟩
      refine triple_formatNew formatter hsound hmanifest hnew ?_ fates d rfl
      unfold verifyVolume at hverify
      rw [hnew] at hverify
      cases hopened
      exact (verifyNewVolume_eq_ok_iff _ _ _).mp hverify
    · rw [← setState_setState m role .formatting .ready]
      exact triple_save_last (advances_setState _ role hready)
  · refine (triple_save_last (advances_setState m role hready)).strengthen fun d hd => ?_
    exact hd.1.2.1

/-! ## Every history -/

theorem sound_of_moves (h : Sound d) (hmoves : Relation.ReflTransGen Keeps d d') : Sound d' :=
  keeps_of_moves (fun _ _ hs hkeeps => hkeeps hs) hmoves h

theorem sound_step (d : Disk) (e : Event) (h : Sound d) (he : e.Fresh d) :
    Sound (d.step pair e) := by
  cases e with
  | prepare dataSize metadataSize drawn fates =>
      exact keeps_of_moves (I := Sound) (fun _ _ hs hstep => sound_prepareStep he hs hstep)
        (preparePair_moves pair dataSize metadataSize drawn d fates) h
  | rebind fates => exact sound_of_moves h ((triple_rebindPair pair).moves fates trivial)
  | authorize sources fates =>
      exact sound_of_moves h ((triple_authorizeLegacyMigration sources).moves fates trivial)
  | ensure role device formatter fates =>
      exact sound_of_moves h ((triple_ensureFilesystem role device formatter).moves fates h)
  | finish fates => exact sound_of_moves h (triple_finishMetadataSetup.moves fates trivial)
  | thirdParty entry file nextInode => exact h.of_change rfl rfl fun _ hv => hv
  | powerLoss version =>
      exact h.of_manifests rfl (fun v hv => ⟨v, Disk.mem_versions_of_powerLoss hv, rfl⟩)
        fun habsent => forall_mem_singleton.mpr habsent

theorem sound_start (hpast : d.past = []) (hdeeds : d.deeds = []) : Sound d where
  guarded := by
    refine ⟨?_, ?_, ?_⟩
    · rw [hdeeds]
      intro _ _ _ _ hmem
      cases hmem
    · rw [hdeeds]
      exact nodup_nil
    unfold Disk.Formatted
    rw [hdeeds]
    intro _ hmem
    cases hmem
  unspent := by
    unfold Disk.Formatted Disk.Adopted
    rw [hdeeds]
    intro _ _ _ _ _ _
    exact ⟨not_mem_nil, not_mem_nil⟩
  spent := by
    rw [hdeeds]
    intro _ _ _ _ hmem
    cases hmem
  unmade := by
    unfold Disk.versions
    rw [hpast]
    exact fun habsent => forall_mem_singleton.mpr habsent

/-- Whatever happens to a pair, the formatter runs only on a volume that carries the header of
its UUID and is durably `formatting`, once for a UUID, and never for an adopted filesystem. -/
theorem formatter_guarded (pair : Pair) (d : Disk) (hpast : d.past = []) (hdeeds : d.deeds = [])
    (events : List Event)
    (hevents : History.Throughout (Disk.step pair) d (fun d e => e.Fresh d) events) :
    (History.after (Disk.step pair) d events).Guarded :=
  (History.keeps (sound_step pair) (sound_start hpast hdeeds) hevents).guarded

/-! ## A volume that is formatted after an uncertain write -/

/-- A Btrfs filesystem with the data volume's UUID. -/
def btrfsImage : File :=
  ((File.empty.setLen 0x11000).writeAll 0x10040 VolumeRole.data.signature.magic).writeAll 0x10020
    dockerDrawn.data.bytes

/-- The directory is not synchronised after the first attempt recorded `formatting`; power is lost
and the older manifest is back; the second attempt formats, the third does not. -/
def uncertainFormat : List Event :=
  [.prepare 0x11000 0x11000 dockerDrawn [],
    .ensure .data ⟨1, 11⟩ ⟨File.empty, btrfsImage⟩ [.runs, .runs, .runs, .runs, .fails],
    .powerLoss 1,
    .ensure .data ⟨1, 11⟩ ⟨File.empty, btrfsImage⟩ [],
    .ensure .data ⟨1, 11⟩ ⟨File.empty, btrfsImage⟩ []]

theorem formatter_guarded_uncertain :
    (History.after (Disk.step dockerPair) emptyDisk uncertainFormat).deeds.filterMap
        Deed.formattedUuid = [dockerDrawn.data] ∧
      (History.after (Disk.step dockerPair) emptyDisk uncertainFormat).Guarded :=
  ⟨by decide +kernel, formatter_guarded dockerPair emptyDisk rfl rfl uncertainFormat
    (by decide +kernel)⟩

/-- Whatever happens to a pair, no version of the directory that may come back records a
formatted volume as `new`, and one that is still `new` in some version was neither formatted
nor adopted. -/
theorem formatted_never_new (pair : Pair) (d : Disk) (hpast : d.past = []) (hdeeds : d.deeds = [])
    (events : List Event)
    (hevents : History.Throughout (Disk.step pair) d (fun d e => e.Fresh d) events) :
    let d' := History.after (Disk.step pair) d events
    (∀ role uuid found versions, .formatted role uuid found versions ∈ d'.deeds →
      ∀ v ∈ d'.versions, v.Shows role uuid fun state => state ≠ .new) ∧
    ∀ v ∈ d'.versions, ∀ m, v.manifest = some (some m) → ∀ role, (m.volume role).state = .new →
      ¬d'.Formatted (m.volume role).filesystemUuid ∧
        ¬d'.Adopted (m.volume role).filesystemUuid := by
  have h := History.keeps (sound_step pair) (sound_start hpast hdeeds) hevents
  exact ⟨h.spent, h.unspent⟩

theorem formatted_never_new_uncertain :
    let d' := History.after (Disk.step dockerPair) emptyDisk uncertainFormat
    d'.Formatted dockerDrawn.data ∧
      ∀ role uuid found versions, .formatted role uuid found versions ∈ d'.deeds →
        ∀ v ∈ d'.versions, v.Shows role uuid fun state => state ≠ .new := by
  refine ⟨?_, (formatted_never_new dockerPair emptyDisk rfl rfl uncertainFormat
    (by decide +kernel)).1⟩
  unfold Disk.Formatted
  decide +kernel

end Arcbox.Storage

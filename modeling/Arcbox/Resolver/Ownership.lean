import Arcbox.Foundation.History
import Arcbox.Resolver.Leases

set_option autoImplicit false

/-!
# Resolver leases: who owns which file

The invariant ties the files of the directory to the records of the live connections.  Writing and
removing single files keeps it as long as the record is noted first and dropped last, so a failure
may cut an update short anywhere.
-/

namespace Arcbox.Resolver

open Foundation Foundation.History List Function File

namespace Store

/-! ## The invariant -/

/-- A record of a live connection. -/
def Records (s : Store) (c : Connection) (record : Record) : Prop :=
  ∃ lease, s.connections.lookup c = some lease ∧ record ∈ lease.records

/-- The lease has one record, of what was accepted for the connection, and its files are there
unless a third party has changed them. -/
def Holds (s : Store) (c : Connection) (lease : Lease) (accepted : Accepted) : Prop :=
  ∃ record, lease.records = [record] ∧ record.stamp.revision = accepted.revision ∧
    record.stamp.port = accepted.port ∧ record.stamp.connection = c ∧
    ∀ root ∈ record.roots, s.touched root = false →
      s.files root = some (File.written record.contents)

structure Sound (s : Store) : Prop where
  ids : ∀ c lease, s.connections.lookup c = some lease → c.toNat ≤ s.nextConnection.toNat
  disjoint : ∀ c c' record record', s.Records c record → s.Records c' record' → c ≠ c' →
    ∀ root ∈ record.roots, root ∉ record'.roots
  covered : ∀ root f, s.files root = some f → f.ours = true →
    ∃ c record, s.Records c record ∧ root ∈ record.roots ∧ f = File.written record.contents
  /-- The third parties' files cannot pass for a lease. -/
  foreign : ∀ root f, s.files root = some f → f.ours = false → f.plain = true → ¬ IsLease f.bytes
  held : ∀ c lease accepted, s.connections.lookup c = some lease → lease.failed = false →
    lease.accepted = some accepted → s.Holds c lease accepted
  missing : s.directory = .missing → ∀ root, s.files root = none
  undisturbed : ∀ d ∈ s.log, d.file.ours = true

variable {s s' : Store}

theorem sound_new {directory : Directory} {files : Domain → Option File}
    (hmissing : directory = .missing → ∀ root, files root = none)
    (hforeign : ∀ root f, files root = some f →
      f.ours = false ∧ (f.plain = true → ¬ IsLease f.bytes)) :
    Sound (new directory files) where
  ids := nofun
  disjoint := by
    rintro _ _ _ _ ⟨_, h, _⟩
    cases h
  covered := by
    intro root f hfile hours
    rw [(hforeign root f hfile).1] at hours
    cases hours
  foreign := fun root f hfile _ => (hforeign root f hfile).2
  held := nofun
  missing := hmissing
  undisturbed := forall_mem_nil _

theorem Sound.ours_of_plain (h : Sound s) {root : Domain} {f : File}
    (hfile : s.files root = some f) (hplain : f.plain = true) {record : Record}
    (hbytes : f.bytes = record.contents) : f.ours = true := by
  by_contra hours
  exact h.foreign root f hfile (Bool.eq_false_iff.mpr hours) hplain ⟨record.stamp, hbytes⟩

/-! ## Single files -/

theorem mem_disturb {root : Domain} {d : Disturbed} (h : d ∈ s.disturb root) :
    d ∈ s.log ∨ s.files root = some d.file := by
  unfold disturb at h
  split at h
  next file hfile =>
    rcases mem_append.mp h with h | h
    · exact .inl h
    · cases mem_singleton.mp h
      exact .inr hfile
  · exact .inl h

/-- A root is claimed by a connection that is not in good standing: any file may be there. -/
def Claimed (s : Store) (root : Domain) : Prop :=
  ∃ c lease record, s.connections.lookup c = some lease ∧ lease.failed = true ∧
    record ∈ lease.records ∧ root ∈ record.roots

theorem Sound.setFile (h : Sound s) {root : Domain} {entry : Option File} {touched : Domain → Bool}
    {log : List Disturbed} (hroot : touched root = true ∨ s.Claimed root)
    (htouched : ∀ root', root' ≠ root → touched root' = s.touched root')
    (hours : ∀ f, entry = some f → f.ours = true →
      ∃ c record, s.Records c record ∧ root ∈ record.roots ∧ f = written record.contents)
    (hforeign : ∀ f, entry = some f → f.ours = false → f.plain = true → ¬ IsLease f.bytes)
    (hmissing : s.directory = .missing → entry = none) (hlog : ∀ d ∈ log, d.file.ours = true) :
    Sound { s with files := update s.files root entry, touched := touched, log := log } := by
  have hcases : ∀ {root' e}, update s.files root entry root' = e →
      (root' = root ∧ entry = e) ∨ s.files root' = e := by
    intro root' e hfile
    by_cases heq : root' = root
    · rw [heq, update_self] at hfile
      exact .inl ⟨heq, hfile⟩
    · rw [update_of_ne heq] at hfile
      exact .inr hfile
  refine ⟨h.ids, h.disjoint, ?_, ?_, ?_, ?_, hlog⟩
  · intro root' f hfile hours'
    rcases hcases hfile with ⟨rfl, hentry⟩ | hfile
    · exact hours f hentry hours'
    · exact h.covered root' f hfile hours'
  · intro root' f hfile
    rcases hcases hfile with ⟨-, hentry⟩ | hfile
    · exact hforeign f hentry
    · exact h.foreign root' f hfile
  · intro c lease accepted hlook hfailed haccepted
    obtain ⟨record, hone, hrevision, hport, hconnection, hfiles⟩ :=
      h.held c lease accepted hlook hfailed haccepted
    refine ⟨record, hone, hrevision, hport, hconnection, fun root' hroot' hsame => ?_⟩
    have hne : root' ≠ root := by
      rintro rfl
      rcases hroot with htrue | ⟨c', lease', record', hlook', hfailed', hrecord', hclaim⟩
      · exact absurd (htrue.symm.trans hsame) nofun
      have hc : c' ≠ c := by
        rintro rfl
        rw [hlook] at hlook'
        cases hlook'
        exact absurd (hfailed.symm.trans hfailed') nofun
      exact h.disjoint c' c record' record ⟨lease', hlook', hrecord'⟩
        ⟨lease, hlook, hone ▸ mem_singleton_self record⟩ hc root' hclaim hroot'
    exact (update_of_ne hne _ _).trans
      (hfiles root' hroot' ((htouched root' hne).symm.trans hsame))
  · intro hnone root'
    by_cases heq : root' = root
    · exact heq ▸ (update_self ..).trans (hmissing hnone)
    · exact (update_of_ne heq _ _).trans (h.missing hnone root')

/-- The connection has been marked as failing. -/
structure Failing (s : Store) (c : Connection) (lease : Lease) : Prop where
  look : s.connections.lookup c = some lease
  failed : lease.failed = true

theorem Failing.of_eq {c : Connection} {lease : Lease} (h : Failing s c lease)
    (heq : s'.connections = s.connections) : Failing s' c lease := ⟨heq ▸ h.look, h.failed⟩

variable {roots : List Domain} {records : List Record}

section Failing

variable {c : Connection} {lease : Lease} {record : Record} {root : Domain}

theorem Sound.undisturbed_of_ours (h : Sound s)
    (hours : ∀ f, s.files root = some f → f.ours = true) :
    ∀ d ∈ s.disturb root, d.file.ours = true := by
  intro d hd
  rcases mem_disturb hd with hd | hfile
  · exact h.undisturbed d hd
  · exact hours d.file hfile

/-- The file of a noted record is written over nothing, or over a file of the store. -/
theorem Sound.put (h : Sound s) (hc : Failing s c lease) (hrecord : record ∈ lease.records)
    (hroot : root ∈ record.roots) (hours : ∀ f, s.files root = some f → f.ours = true)
    (hdirectory : s.directory ≠ .missing) : Sound (s.put root record.contents) := by
  refine h.setFile (.inr ⟨c, lease, record, hc.look, hc.failed, hrecord, hroot⟩)
    (fun _ hne => update_of_ne hne _ _) (fun f heq _ => ?_) (fun f heq hours => ?_)
    (fun hmissing => absurd hmissing hdirectory) (h.undisturbed_of_ours hours)
  · cases heq
    exact ⟨c, record, ⟨lease, hc.look, hrecord⟩, hroot, rfl⟩
  · cases heq
    cases hours

theorem Sound.unlink (h : Sound s) (hc : Failing s c lease) (hrecord : record ∈ lease.records)
    (hroot : root ∈ record.roots) (hours : ∀ f, s.files root = some f → f.ours = true) :
    Sound (s.unlink root) :=
  h.setFile (.inr ⟨c, lease, record, hc.look, hc.failed, hrecord, hroot⟩) (fun _ _ => rfl)
    nofun nofun (fun _ => rfl)
    (h.undisturbed_of_ours hours)

/-! ## Writing the files of a record -/

/-- What writing files does not concern. -/
structure Same (s s' : Store) : Prop where
  connections : s'.connections = s.connections
  directory : s'.directory = s.directory

theorem Same.refl (s : Store) : Same s s := ⟨rfl, rfl⟩

theorem writeAll_cons (s : Store) (bytes : List UInt8) (write : Domain → Outcome) (root : Domain)
    (roots : List Domain) :
    s.writeAll bytes write (root :: roots) =
      (match write root with
      | .done => (s.put root bytes).writeAll bytes write roots
      | .failed true => (false, s.put root bytes)
      | .failed false => (false, s)) := by
  cases hwrite : write root with
  | done =>
    conv => lhs; unfold writeAll
    rw [hwrite]
    rfl
  | failed tookEffect =>
    unfold writeAll
    rw [hwrite]
    cases tookEffect <;> rfl

theorem sound_writeAll (hrecord : record ∈ lease.records) (write : Domain → Outcome)
    (hroots : ∀ root ∈ roots, root ∈ record.roots) (h : Sound s) (hc : Failing s c lease)
    (hdirectory : s.directory ≠ .missing)
    (hours : ∀ root ∈ roots, ∀ f, s.files root = some f → f.ours = true) :
    Sound (s.writeAll record.contents write roots).2 ∧
      Same s (s.writeAll record.contents write roots).2 := by
  induction roots generalizing s with
  | nil => exact ⟨h, Same.refl s⟩
  | cons root roots ih =>
    have hput : Sound (s.put root record.contents) :=
      h.put hc hrecord (hroots root mem_cons_self) (hours root mem_cons_self) hdirectory
    rw [writeAll_cons]
    split
    · have hnext : ∀ r ∈ roots, ∀ f, (s.put root record.contents).files r = some f →
          f.ours = true := by
        intro r hr f hfile
        change update s.files root (some (written record.contents)) r = some f
          at hfile
        rcases of_update_some hfile with ⟨-, rfl⟩ | ⟨-, hfile⟩
        · rfl
        · exact hours r (mem_cons_of_mem _ hr) f hfile
      obtain ⟨hsound, hsame⟩ := ih (s := s.put root record.contents)
        (forall_mem_cons.mp hroots).2 hput ⟨hc.look, hc.failed⟩ hdirectory hnext
      exact ⟨hsound, ⟨hsame.connections, hsame.directory⟩⟩
    · exact ⟨hput, ⟨rfl, rfl⟩⟩
    · exact ⟨h, Same.refl s⟩

/-- A root that has been written stays so. -/
theorem writeAll_keeps (bytes : List UInt8) (write : Domain → Outcome) {root : Domain}
    (hfile : s.files root = some (written bytes)) :
    (s.writeAll bytes write roots).2.files root = some (written bytes) := by
  induction roots generalizing s with
  | nil => exact hfile
  | cons r roots ih =>
    have hput : (s.put r bytes).files root = some (written bytes) := by
      change update s.files r (some (written bytes)) root = _
      by_cases heq : root = r
      · rw [heq, update_self]
      · rw [update_of_ne heq]
        exact hfile
    rw [writeAll_cons]
    split
    · exact ih hput
    · exact hput
    · exact hfile

theorem writeAll_done (bytes : List UInt8) (write : Domain → Outcome)
    (hdone : (s.writeAll bytes write roots).1 = true) :
    ∀ root ∈ roots, (s.writeAll bytes write roots).2.files root = some (written bytes) := by
  induction roots generalizing s with
  | nil => exact forall_mem_nil _
  | cons r roots ih =>
    rw [writeAll_cons] at hdone ⊢
    split at hdone
    · exact forall_mem_cons.mpr ⟨writeAll_keeps bytes write (update_self _ _ _), ih hdone⟩
    · cases hdone
    · cases hdone

/-! ## Removing the files of records -/

/-- What a removal leaves: files only go, and none of a kept root. -/
structure Pruned (keep : List Domain) (s s' : Store) : Prop where
  connections : s'.connections = s.connections
  directory : s'.directory = s.directory
  touched : s'.touched = s.touched
  files : ∀ root, s'.files root = s.files root ∨ (s'.files root = none ∧ root ∉ keep)

theorem Pruned.refl (keep : List Domain) (s : Store) : Pruned keep s s :=
  ⟨rfl, rfl, rfl, fun _ => .inl rfl⟩

theorem Pruned.trans {keep : List Domain} {s'' : Store} (h : Pruned keep s s')
    (h' : Pruned keep s' s'') : Pruned keep s s'' where
  connections := h'.connections.trans h.connections
  directory := h'.directory.trans h.directory
  touched := h'.touched.trans h.touched
  files := by
    intro root
    rcases h'.files root with heq | hgone
    · rw [heq]
      exact h.files root
    · exact .inr hgone

/-- A file that is not there is not there afterwards. -/
theorem Pruned.ne {keep : List Domain} (h : Pruned keep s s') {root : Domain} {f : File}
    (hne : s.files root ≠ some f) : s'.files root ≠ some f := by
  rcases h.files root with heq | ⟨hgone, -⟩
  · rw [heq]
    exact hne
  · rw [hgone]
    exact nofun

/-- The removals of one record: what is established on the way of the loop. -/
structure Swept (keep : List Domain) (s : Store) (result : Bool × Store) : Prop where
  sound : Sound result.2
  pruned : Pruned keep s result.2

/-- A removal that aims at the files `targets`: without error none of them is left. -/
structure Cleared (keep : List Domain) (targets : List (Domain × List UInt8)) (s : Store)
    (result : Bool × Store) : Prop extends Swept keep s result where
  done : result.1 = true → ∀ t ∈ targets, result.2.files t.1 ≠ some (File.written t.2)

variable {keep : List Domain} {targets : List (Domain × List UInt8)}

/-- Nothing is removed. -/
theorem Sound.cleared (h : Sound s) {done : Bool}
    (hdone : done = true → ∀ t ∈ targets, s.files t.1 ≠ some (written t.2)) :
    Cleared keep targets s (done, s) := ⟨⟨h, Pruned.refl keep s⟩, hdone⟩

/-- Two removals, one after the other. -/
theorem Cleared.append {one rest : Bool × Store} {targets' : List (Domain × List UInt8)}
    (h : Cleared keep targets s one) (h' : Cleared keep targets' one.2 rest) :
    Cleared keep (targets ++ targets') s (one.1 && rest.1, rest.2) := by
  refine ⟨⟨h'.sound, h.pruned.trans h'.pruned⟩, fun hboth => ?_⟩
  obtain ⟨hfirst, hlast⟩ := Bool.and_eq_true_iff.mp hboth
  exact forall_mem_append.mpr ⟨fun t ht => h'.pruned.ne (h.done hfirst t ht), h'.done hlast⟩

theorem ne_written_of_inspect {managed : ManagedFile} {fails : Bool} (hnot : managed ≠ .owned)
    (hinspect : inspect (s.files root) (fun bytes => decide (bytes = record.contents)) fails
      = some managed) : s.files root ≠ some (written record.contents) := by
  intro hfile
  rw [hfile] at hinspect
  unfold inspect at hinspect
  split at hinspect
  · cases hinspect
  have hplain : (written record.contents).plain = true := plain_written record.stamp
  simp only [hplain, bytes_written, decide_true, Bool.and_self, if_true] at hinspect
  exact hnot (Option.some.inj hinspect).symm

theorem cleared_removeOne (hrecord : record ∈ lease.records) (sweep : Sweep) (h : Sound s)
    (hc : Failing s c lease) (hroot : root ∈ record.roots) (hkeep : root ∉ keep) :
    Cleared keep [(root, record.contents)] s (s.removeOne sweep record root) := by
  unfold removeOne
  split
  · exact h.cleared nofun
  next howned =>
    obtain ⟨f, hfile, hplain, hbytes⟩ := inspect_owned howned
    have hours : ∀ f', s.files root = some f' → f'.ours = true := by
      intro f' hfile'
      rw [hfile] at hfile'
      cases hfile'
      exact h.ours_of_plain hfile hplain (of_decide_eq_true hbytes)
    have hgone : (s.unlink root).files root = none := update_self _ _ _
    split
    · refine ⟨⟨h.unlink hc hrecord hroot hours, rfl, rfl, rfl, fun root' => ?_⟩, fun _ t ht => ?_⟩
      · by_cases heq : root' = root
        · subst heq
          exact .inr ⟨hgone, hkeep⟩
        · exact .inl (update_of_ne heq _ _)
      · rw [mem_singleton.mp ht, hgone]
        exact nofun
    rename_i hnone
    refine h.cleared fun hdone => absurd ?_ hnone
    cases hremove : sweep.remove record root with
    | done => rfl
    | failed tookEffect =>
      rw [hremove] at hdone
      cases hdone
  next managed hnot hinspect =>
    refine h.cleared fun _ => forall_mem_singleton.mpr ?_
    dsimp only
    exact ne_written_of_inspect hnot hinspect

theorem cleared_removeRoots (hrecord : record ∈ lease.records) (sweep : Sweep)
    (hroots : ∀ root ∈ roots, root ∈ record.roots ∧ root ∉ keep) (h : Sound s)
    (hc : Failing s c lease) :
    Cleared keep (roots.map (·, record.contents)) s (s.removeRoots sweep record roots) := by
  induction roots generalizing s with
  | nil => exact h.cleared fun _ => forall_mem_nil _
  | cons root roots ih =>
    obtain ⟨hroot, hkeep⟩ := hroots root mem_cons_self
    have hone := cleared_removeOne hrecord sweep h hc hroot hkeep
    exact hone.append (ih (forall_mem_cons.mp hroots).2 hone.sound
      (hc.of_eq hone.pruned.connections))

/-- The files of the records, besides those of the kept roots. -/
def unkept (keep : List Domain) (records : List Record) : List (Domain × List UInt8) :=
  records.flatMap fun record => (record.roots.filter (· ∉ keep)).map (·, record.contents)

theorem cleared_removeRecords (sweep : Sweep)
    (hrecords : ∀ record ∈ records, record ∈ lease.records) (h : Sound s) (hc : Failing s c lease) :
    Cleared keep (unkept keep records) s (s.removeRecords sweep keep records) := by
  induction records generalizing s with
  | nil => exact h.cleared fun _ => forall_mem_nil _
  | cons record records ih =>
    have hroots : ∀ root ∈ record.roots.filter (· ∉ keep), root ∈ record.roots ∧ root ∉ keep := by
      intro root hroot
      rw [mem_filter, decide_eq_true_iff] at hroot
      exact hroot
    have hone := cleared_removeRoots (hrecords record mem_cons_self) sweep hroots h hc
    exact hone.append (ih (forall_mem_cons.mp hrecords).2 hone.sound
      (hc.of_eq hone.pruned.connections))

theorem cleared_remove (keep : List Domain) (sweep : Sweep)
    (hrecords : ∀ record ∈ records, record ∈ lease.records) (h : Sound s) (hc : Failing s c lease) :
    Cleared keep (unkept keep records) s (s.remove sweep records keep) := by
  unfold remove
  split
  next hempty =>
    refine h.cleared fun _ _ ht => ?_
    rw [List.isEmpty_iff.mp hempty] at ht
    cases ht
  split
  · exact h.cleared nofun
  split
  next hmissing =>
    refine h.cleared fun _ t _ => ?_
    rw [h.missing hmissing t.1]
    exact nofun
  · exact h.cleared nofun
  · exact cleared_removeRecords sweep hrecords h hc

/-- A removal without error leaves no file of the records, besides those of the kept roots. -/
theorem Cleared.gone {result : Bool × Store} (h : Cleared keep (unkept keep records) s result)
    (hdone : result.1 = true) :
    ∀ record ∈ records, ∀ root ∈ record.roots, root ∉ keep →
      result.2.files root ≠ some (written record.contents) := by
  intro record hrecord root hroot hkeep
  have hmem : (root, record.contents) ∈ unkept keep records := by
    refine mem_flatMap_of_mem hrecord (mem_map_of_mem (mem_filter.mpr ⟨hroot, ?_⟩))
    exact decide_eq_true hkeep
  simpa only using h.done hdone _ hmem

end Failing

/-! ## Changes of a lease -/

theorem lookup_setLease (s : Store) (c : Connection) (lease : Lease) :
    (s.setLease c lease).connections.lookup c = some lease := AList.lookup_insert _

variable {c' : Connection}

theorem lookup_setLease_of_ne (s : Store) {c : Connection} (lease : Lease) (hne : c' ≠ c) :
    (s.setLease c lease).connections.lookup c' = s.connections.lookup c' :=
  AList.lookup_insert_ne hne

variable {lease' : Lease}

theorem lookup_setLease_cases {c : Connection} {lease : Lease}
    (h : (s.setLease c lease).connections.lookup c' = some lease') :
    (c' = c ∧ lease' = lease) ∨ (c' ≠ c ∧ s.connections.lookup c' = some lease') := by
  by_cases hc : c' = c
  · subst hc
    rw [lookup_setLease] at h
    exact .inl ⟨rfl, (Option.some.inj h).symm⟩
  · rw [lookup_setLease_of_ne s lease hc] at h
    exact .inr ⟨hc, h⟩

theorem records_setLease_cases {c : Connection} {lease : Lease} {record : Record}
    (h : (s.setLease c lease).Records c' record) :
    (c' = c ∧ record ∈ lease.records) ∨ (c' ≠ c ∧ s.Records c' record) := by
  obtain ⟨lease', hlook, hrecord⟩ := h
  rcases lookup_setLease_cases hlook with ⟨hc, rfl⟩ | ⟨hc, hlook⟩
  · exact .inl ⟨hc, hrecord⟩
  · exact .inr ⟨hc, lease', hlook, hrecord⟩

/-- Another lease for a connection: its records are among those it had or are new to the others,
and no file loses its record. -/
theorem Sound.setLease (h : Sound s) {c : Connection} {lease : Lease}
    (hlook : s.connections.lookup c = some lease)
    (hdisjoint : ∀ record ∈ lease'.records, ∀ c' record', c' ≠ c → s.Records c' record' →
      ∀ root ∈ record.roots, root ∉ record'.roots)
    (hcovered : ∀ record ∈ lease.records, ∀ root ∈ record.roots,
      s.files root = some (written record.contents) →
      ∃ record' ∈ lease'.records, root ∈ record'.roots ∧
      written record.contents = written record'.contents)
    (hheld : ∀ accepted, lease'.failed = false → lease'.accepted = some accepted →
      s.Holds c lease' accepted) :
    Sound (s.setLease c lease') where
  __ := h
  ids := by
    intro c' lease'' hlook'
    rcases lookup_setLease_cases hlook' with ⟨rfl, -⟩ | ⟨-, hlook'⟩
    · exact h.ids c' lease hlook
    · exact h.ids c' lease'' hlook'
  disjoint := by
    intro c₁ c₂ r₁ r₂ h₁ h₂ hne root hroot
    rcases records_setLease_cases h₁ with ⟨hc₁, hmem₁⟩ | ⟨hc₁, hother₁⟩ <;>
      rcases records_setLease_cases h₂ with ⟨hc₂, hmem₂⟩ | ⟨hc₂, hother₂⟩
    · exact absurd (hc₁.trans hc₂.symm) hne
    · exact hdisjoint r₁ hmem₁ c₂ r₂ hc₂ hother₂ root hroot
    · exact fun hroot' => hdisjoint r₂ hmem₂ c₁ r₁ hc₁ hother₁ root hroot' hroot
    · exact h.disjoint c₁ c₂ r₁ r₂ hother₁ hother₂ hne root hroot
  covered := by
    intro root f hfile hours
    obtain ⟨c', record, hrecord, hroot, rfl⟩ := h.covered root f hfile hours
    obtain ⟨lease₀, hlook₀, hmem⟩ := hrecord
    by_cases hc : c' = c
    · subst hc
      rw [hlook] at hlook₀
      cases hlook₀
      obtain ⟨record', hrecord', hroot', heq⟩ := hcovered record hmem root hroot hfile
      exact ⟨c', record', ⟨lease', lookup_setLease s c' lease', hrecord'⟩, hroot', heq⟩
    · exact ⟨c', record, ⟨lease₀, (lookup_setLease_of_ne s lease' hc).trans hlook₀, hmem⟩, hroot,
        rfl⟩
  held := by
    intro c' lease'' accepted hlook' hfailed haccepted
    rcases lookup_setLease_cases hlook' with ⟨rfl, rfl⟩ | ⟨-, hlook'⟩
    · exact hheld accepted hfailed haccepted
    · exact h.held c' lease'' accepted hlook' hfailed haccepted

/-- A lease that fails or retires keeps its records. -/
theorem Sound.relabel (h : Sound s) {c : Connection} {lease : Lease}
    (hlook : s.connections.lookup c = some lease) (hrecords : lease'.records = lease.records)
    (hheld : lease'.failed = true ∨ (lease'.failed = lease.failed ∧
      lease'.accepted = lease.accepted)) : Sound (s.setLease c lease') := by
  refine h.setLease hlook (fun record hrecord c' record' hne hother => ?_)
    (fun record hrecord root hroot _ => ?_) (fun accepted hfailed haccepted => ?_)
  · rw [hrecords] at hrecord
    exact h.disjoint c c' record record' ⟨lease, hlook, hrecord⟩ hother hne.symm
  · exact ⟨record, hrecords ▸ hrecord, hroot, rfl⟩
  rcases hheld with hfail | ⟨hsame, hacc⟩
  · rw [hfail] at hfailed
    cases hfailed
  · obtain ⟨record, hone, hrest⟩ :=
      h.held c lease accepted hlook (hsame ▸ hfailed) (hacc ▸ haccepted)
    exact ⟨record, hrecords.trans hone, hrest⟩

/-! ## Publication -/

theorem not_taken {c : Connection} (h : s.taken c roots = false) {record : Record} (hne : c' ≠ c)
    (hrecord : s.Records c' record) {root : Domain} (hroot : root ∈ roots) :
    root ∉ record.roots := by
  obtain ⟨lease, hlook, hmem⟩ := hrecord
  intro hroot'
  have htaken : s.taken c roots = true := by
    refine any_eq_true.mpr ⟨⟨c', lease⟩, Table.lookup_eq_some_iff.mp hlook, ?_⟩
    refine Bool.and_eq_true_iff.mpr ⟨decide_eq_true hne, ?_⟩
    refine any_eq_true.mpr ⟨record, hmem, ?_⟩
    exact any_eq_true.mpr ⟨root, hroot', decide_eq_true hroot⟩
  rw [h] at htaken
  cases htaken

section

variable (h : Sound s)

include h

theorem Sound.ours_of_checkRoots {faults : Faults}
    (hcheck : s.checkRoots records faults roots = none) :
    ∀ root ∈ roots, ∀ f, s.files root = some f → f.ours = true := by
  induction roots with
  | nil => exact forall_mem_nil _
  | cons r roots ih =>
    unfold checkRoots at hcheck
    intro root hroot f hfile
    split at hcheck
    · cases hcheck
    · cases hcheck
    rename_i managed hnot hinspect
    rcases mem_cons.mp hroot with rfl | hroot
    · cases managed with
      | foreign => exact absurd rfl hnot
      | missing =>
        rw [inspect_missing hinspect] at hfile
        cases hfile
      | owned =>
        obtain ⟨f', hfile', hplain, howns⟩ := inspect_owned hinspect
        rw [hfile] at hfile'
        cases hfile'
        obtain ⟨record, -, hrecord⟩ := any_eq_true.mp howns
        exact h.ours_of_plain hfile hplain
          (of_decide_eq_true (Bool.and_eq_true_iff.mp hrecord).2)
    · exact ih hcheck root hroot f hfile

variable {c : Connection} {lease : Lease} {next : Record}

/-- The attempted record is noted before any file is written. -/
theorem Sound.note (hlook : s.connections.lookup c = some lease)
    (hfree : s.taken c next.roots = false) :
    Sound (s.setLease c { lease with failed := true, records := lease.records ++ [next] }) := by
  refine h.setLease hlook (fun record hrecord c' record' hne hother => ?_)
    (fun record hrecord root hroot _ => ?_) nofun
  · rcases mem_append.mp hrecord with hold | hnew
    · exact h.disjoint c c' record record' ⟨lease, hlook, hold⟩ hother hne.symm
    · cases mem_singleton.mp hnew
      exact fun root hroot => not_taken hfree hne hother hroot
  · exact ⟨record, mem_append_left _ hrecord, hroot, rfl⟩

theorem Sound.settle {old : List Record} (hlook : s.connections.lookup c = some lease)
    (hrecords : lease.records = old ++ [next])
    (hwritten : ∀ root ∈ next.roots, s.files root = some (written next.contents))
    (hgone : ∀ record ∈ old, ∀ root ∈ record.roots, root ∉ next.roots →
      s.files root ≠ some (written record.contents))
    {nonce : BitVec 128} (hconnection : next.stamp.connection = c) (retiring : Bool) :
    Sound (s.setLease c
      ⟨some nonce, some ⟨next.stamp.revision, next.stamp.port⟩, false, retiring, [next]⟩) := by
  have hnext : next ∈ lease.records := by
    rw [hrecords]
    exact mem_concat_self
  refine h.setLease hlook (fun record hrecord c' record' hne hother => ?_)
    (fun record hrecord root hroot hfile => ?_) (fun accepted _ haccepted => ?_)
  · cases mem_singleton.mp hrecord
    exact h.disjoint c c' next record' ⟨lease, hlook, hnext⟩ hother hne.symm
  · refine ⟨next, mem_singleton_self next, ?_⟩
    rw [hrecords] at hrecord
    rcases mem_append.mp hrecord with hold | hnew
    · by_cases hkept : root ∈ next.roots
      · refine ⟨hkept, ?_⟩
        rw [hwritten root hkept] at hfile
        exact (Option.some.inj hfile).symm
      · exact absurd hfile (hgone record hold root hroot hkept)
    · cases mem_singleton.mp hnew
      exact ⟨hroot, rfl⟩
  · cases haccepted
    exact ⟨next, rfl, rfl, rfl, hconnection, fun root hroot _ => hwritten root hroot⟩

theorem sound_replaceFiles {old : List Record} (hc : Failing s c lease)
    (hrecords : lease.records = old ++ [next]) (faults : Faults)
    (hdirectory : s.directory ≠ .missing)
    (hours : ∀ root ∈ next.roots, ∀ f, s.files root = some f → f.ours = true) :
    Sound (s.replaceFiles faults old next).2 ∧
      (s.replaceFiles faults old next).2.connections = s.connections ∧
      ((s.replaceFiles faults old next).1 = true →
        (∀ root ∈ next.roots,
          (s.replaceFiles faults old next).2.files root = some (written next.contents)) ∧
        ∀ record ∈ old, ∀ root ∈ record.roots, root ∉ next.roots →
          (s.replaceFiles faults old next).2.files root ≠
            some (written record.contents)) := by
  have hnext : next ∈ lease.records := by
    rw [hrecords]
    exact mem_concat_self
  have hold : ∀ record ∈ old, record ∈ lease.records := by
    intro record hrecord
    rw [hrecords]
    exact mem_append_left _ hrecord
  obtain ⟨hwritten, hsame⟩ := sound_writeAll hnext faults.write (fun _ hroot => hroot) h hc
    hdirectory hours
  have hc' := hc.of_eq hsame.connections
  unfold replaceFiles
  dsimp only
  split
  next hwrote =>
    have hswept := cleared_remove next.roots faults.prune hold hwritten hc'
    refine ⟨hswept.sound, hswept.pruned.connections.trans hsame.connections, fun hremoved => ?_⟩
    refine ⟨fun root hroot => ?_, hswept.gone hremoved⟩
    rcases hswept.pruned.files root with heq | ⟨-, hnot⟩
    · rw [heq]
      exact writeAll_done next.contents faults.write hwrote root hroot
    · exact absurd hroot hnot
  next hwrote =>
    exact ⟨hwritten, hsame.connections, fun htrue => absurd htrue hwrote⟩

theorem sound_attempt {current : Lease} {update : Update} {faults : Faults}
    (hlook : s.connections.lookup c = some { current with failed := true })
    (hfree : s.taken c next.roots = false) (hdirectory : s.directory ≠ .missing)
    (hours : ∀ root ∈ next.roots, ∀ f, s.files root = some f → f.ours = true)
    (hrevision : next.stamp.revision = update.revision) (hport : next.stamp.port = update.port)
    (hconnection : next.stamp.connection = c) :
    Sound (s.attempt c current update next faults).2 := by
  have hnoted : Failing (s.setLease c _) c
      { current with failed := true, records := current.records ++ [next] } :=
    ⟨lookup_setLease s c _, rfl⟩
  obtain ⟨hreplaced, hconnections, hdone⟩ :=
    sound_replaceFiles (h.note hlook hfree) hnoted rfl faults hdirectory hours
  have hc := hnoted.of_eq hconnections
  unfold attempt
  dsimp only
  split
  next htrue =>
    obtain ⟨hwritten, hgone⟩ := hdone htrue
    rw [← hrevision, ← hport]
    exact hreplaced.settle hc.look rfl hwritten hgone hconnection current.retiring
  · exact (cleared_remove [] faults.cleanup (fun _ hrecord => hrecord) hreplaced hc).sound

/-- The directory is made where it is missing; nothing else changes. -/
theorem sound_prepareDirectory (faults : Faults) :
    Sound (s.prepareDirectory faults).2 ∧
      (s.prepareDirectory faults).2.connections = s.connections ∧
      ((s.prepareDirectory faults).1 = none →
        (s.prepareDirectory faults).2.directory ≠ .missing) := by
  have hpresent : s.createDirectory.directory ≠ .missing := by
    unfold createDirectory
    split
    · exact nofun
    · assumption
  have hmade : Sound s.createDirectory :=
    { h with missing := fun hmissing => absurd hmissing hpresent }
  unfold prepareDirectory
  split
  · exact ⟨h, rfl, nofun⟩
  split
  · exact ⟨hmade, rfl, nofun⟩
  split
  · exact ⟨hmade, rfl, nofun⟩
  · exact ⟨hmade, rfl, fun _ => hpresent⟩

theorem sound_publish (c : Connection) (uid : BitVec 32) (update : Update) (faults : Faults) :
    Sound (s.publish c uid update faults).2 := by
  unfold publish
  split
  · exact h
  rename_i current hlook
  split
  · exact h
  have hmarked : Sound (s.setLease c { current with failed := true }) :=
    h.relabel hlook rfl (.inl rfl)
  dsimp only
  split
  · exact hmarked
  split
  · exact hmarked
  rename_i hfree
  obtain ⟨hprepared, hconnections, hready⟩ := sound_prepareDirectory hmarked faults
  split
  · exact hprepared
  rename_i hnone
  split
  · exact hprepared
  rename_i hcheck
  refine sound_attempt hprepared (hconnections ▸ lookup_setLease s c _) ?_ (hready hnone)
    (hprepared.ours_of_checkRoots hcheck) rfl rfl rfl
  unfold taken at hfree ⊢
  rw [hconnections]
  exact Bool.eq_false_iff.mpr hfree

/-! ## The other operations -/

theorem sound_connection : Sound s.connection := by
  unfold connection
  split
  · exact h
  rename_i hlast
  have hnext : (s.nextConnection + 1).toNat = s.nextConnection.toNat + 1 := by
    rw [BitVec.toNat_add]
    have hlt := s.nextConnection.isLt
    have hne : s.nextConnection.toNat ≠ 2 ^ 64 - 1 := by
      intro heq
      refine hlast (BitVec.eq_of_toNat_eq ?_)
      rw [heq, BitVec.toNat_allOnes]
    have hone : (1 : BitVec 64).toNat = 1 := rfl
    omega
  have hfresh : s.connections.lookup (s.nextConnection + 1) = none := by
    cases hlook : s.connections.lookup (s.nextConnection + 1) with
    | none => rfl
    | some lease =>
      have hle := h.ids _ lease hlook
      omega
  have hrecords : ∀ {c record}, Records { s with
      nextConnection := s.nextConnection + 1
      connections := s.connections.insert (s.nextConnection + 1) {} } c record →
      s.Records c record := by
    rintro c record ⟨lease, hlook, hmem⟩
    rcases Table.of_lookup_insert hlook with ⟨-, rfl⟩ | ⟨-, hlook⟩
    · cases hmem
    · exact ⟨lease, hlook, hmem⟩
  refine { h with ids := ?_, disjoint := ?_, covered := ?_, held := ?_ }
  · intro c lease hlook
    change c.toNat ≤ (s.nextConnection + 1).toNat
    rcases Table.of_lookup_insert hlook with ⟨rfl, -⟩ | ⟨-, hlook⟩
    · exact .refl
    · have hle := h.ids c lease hlook
      omega
  · exact fun c c' r r' hr hr' => h.disjoint c c' r r' (hrecords hr) (hrecords hr')
  · intro root f hfile hours
    obtain ⟨c, record, ⟨lease, hlook, hmem⟩, hrest⟩ := h.covered root f hfile hours
    have hne : c ≠ s.nextConnection + 1 := by
      rintro rfl
      rw [hfresh] at hlook
      cases hlook
    exact ⟨c, record, ⟨lease, (AList.lookup_insert_ne hne).trans hlook, hmem⟩, hrest⟩
  intro c lease accepted hlook hfailed haccepted
  rcases Table.of_lookup_insert hlook with ⟨-, rfl⟩ | ⟨-, hlook⟩
  · cases haccepted
  · exact h.held c lease accepted hlook hfailed haccepted

theorem sound_invalidate (c : Connection) : Sound (s.invalidate c) := by
  unfold invalidate
  split
  next hlook =>
    exact h.relabel hlook rfl (.inl rfl)
  · exact h

theorem sound_retire (c : Connection) : Sound (s.retire c) := by
  unfold retire
  split
  next hlook =>
    exact h.relabel hlook rfl (.inr ⟨rfl, rfl⟩)
  · exact h

theorem Sound.drop (hlook : s.connections.lookup c = some lease)
    (hgone : ∀ record ∈ lease.records, ∀ root ∈ record.roots,
      s.files root ≠ some (written record.contents)) :
    Sound { s with connections := s.connections.erase c } := by
  have hrecords : ∀ {c' record}, Records { s with connections := s.connections.erase c } c' record →
      s.Records c' record := by
    rintro c' record ⟨lease', hlook', hmem⟩
    exact ⟨lease', (Table.of_lookup_erase hlook').2, hmem⟩
  refine { h with ids := ?_, disjoint := ?_, covered := ?_, held := ?_ }
  · exact fun c' lease' hlook' => h.ids c' lease' (Table.of_lookup_erase hlook').2
  · exact fun c₁ c₂ r r' hr hr' => h.disjoint c₁ c₂ r r' (hrecords hr) (hrecords hr')
  · intro root f hfile hours
    obtain ⟨c', record, ⟨lease', hlook', hmem⟩, hroot, rfl⟩ := h.covered root f hfile hours
    have hne : c' ≠ c := by
      rintro rfl
      rw [hlook] at hlook'
      cases hlook'
      exact hgone record hmem root hroot hfile
    exact ⟨c', record, ⟨lease', (AList.lookup_erase_ne hne).trans hlook', hmem⟩, hroot, rfl⟩
  · exact fun c' lease' accepted hlook' =>
      h.held c' lease' accepted (Table.of_lookup_erase hlook').2

theorem sound_release (c : Connection) (sweep : Sweep) : Sound (s.release c sweep).2 := by
  unfold release
  split
  · exact h
  rename_i lease hlook
  have hmarked : Sound (s.setLease c { lease with failed := true }) :=
    h.relabel hlook rfl (.inl rfl)
  have hc : Failing (s.setLease c _) c { lease with failed := true } :=
    ⟨lookup_setLease s c _, rfl⟩
  have hswept := cleared_remove [] sweep (fun _ hrecord => hrecord) hmarked hc
  dsimp only
  split
  next hremoved =>
    exact hswept.sound.drop (hc.of_eq hswept.pruned.connections).look
      fun record hrecord root hroot => hswept.gone hremoved record hrecord root hroot not_mem_nil
  · exact hswept.sound

end

/-! ## Third parties -/

/-- A third party leaves no file that can pass for a lease of the helper. -/
def Honest : Move → Prop
  | .edit _ (some f) => f.plain = true → ¬ IsLease f.bytes
  | _ => True

theorem sound_edit (h : Sound s) {root : Domain} {entry : Option File}
    (hhonest : Honest (.edit root entry)) (hdirectory : s.directory ≠ .missing) :
    Sound
      { s with
        files := update s.files root (entry.map disown)
        touched := update s.touched root true } := by
  refine h.setFile (.inl (update_self ..)) (fun _ hne => update_of_ne hne _ _)
    (fun f heq hours => ?_) (fun f heq hours => ?_) (fun hmissing => absurd hmissing hdirectory)
    h.undisturbed
  · obtain ⟨f', -, rfl⟩ := Option.map_eq_some_iff.mp heq
    cases hours
  · obtain ⟨f', rfl, rfl⟩ := Option.map_eq_some_iff.mp heq
    exact hhonest

theorem sound_chdir (h : Sound s) (directory : Directory) : Sound (s.next (.chdir directory)) := by
  cases directory with
  | missing =>
    refine { h with covered := ?_, foreign := ?_, held := ?_, missing := fun _ _ => rfl }
    · exact nofun
    · exact nofun
    intro c lease accepted hlook hfailed haccepted
    obtain ⟨record, hone, hrevision, hport, hconnection, -⟩ :=
      h.held c lease accepted hlook hfailed haccepted
    exact ⟨record, hone, hrevision, hport, hconnection, nofun⟩
  | trusted | untrusted => exact { h with missing := nofun }

/-! ## Whole runs -/

theorem sound_next (h : Sound s) (m : Move) (hhonest : Honest m) : Sound (s.next m) := by
  cases m with
  | connection => exact sound_connection h
  | update c uid update faults => exact sound_publish h c uid update faults
  | invalidate c => exact sound_invalidate h c
  | retire c => exact sound_retire h c
  | release c sweep => exact sound_release h c sweep
  | edit root entry =>
    unfold next
    dsimp only
    split
    · exact h
    · exact sound_edit h hhonest ‹_›
  | chdir directory => exact sound_chdir h directory

/-- In every run of the store between which third parties write no lease of this helper: no root
is recorded by two connections; every file the store wrote is covered by a record of a live one;
the roots of an accepted lease that has not failed hold its contents unless a third party changed
them; no file of a third party was overwritten or removed; and without connections no file of the
store is left. -/
theorem leases_own_their_files (directory : Directory) (files : Domain → Option File)
    (moves : List Move) (hmissing : directory = .missing → ∀ root, files root = none)
    (hforeign : ∀ root f, files root = some f →
      f.ours = false ∧ (f.plain = true → ¬ IsLease f.bytes)) (hhonest : ∀ m ∈ moves, Honest m) :
    let s := after next (new directory files) moves
    (∀ c c' record record', s.Records c record → s.Records c' record' → c ≠ c' →
      ∀ root ∈ record.roots, root ∉ record'.roots) ∧
    (∀ root f, s.files root = some f → f.ours = true →
      ∃ c record, s.Records c record ∧ root ∈ record.roots ∧ f.bytes = record.contents) ∧
    (∀ c lease accepted, s.connections.lookup c = some lease → lease.failed = false →
      lease.accepted = some accepted → ∃ record, lease.records = [record] ∧
        record.stamp.revision = accepted.revision ∧ record.stamp.port = accepted.port ∧
        record.stamp.connection = c ∧
        ∀ root ∈ record.roots, s.touched root = false →
          s.files root = some (File.written record.contents)) ∧
    (∀ d ∈ s.log, d.file.ours = true) ∧
    (s.connections = ∅ → ∀ root f, s.files root = some f → f.ours = false) := by
  intro s
  have hall : Throughout next (new directory files) (fun _ m => Honest m) moves := by
    rintro pre m post rfl
    exact hhonest m mem_append_cons_self
  have h : Sound s :=
    keeps (fun s m hs hm => sound_next hs m hm) (sound_new hmissing hforeign) hall
  refine ⟨h.disjoint, fun root f hfile hours => ?_, h.held, h.undisturbed,
    fun hempty root f hfile => ?_⟩
  · obtain ⟨c, record, hrecord, hroot, rfl⟩ := h.covered root f hfile hours
    exact ⟨c, record, hrecord, hroot, bytes_written _⟩
  refine Bool.eq_false_iff.mpr fun hours => ?_
  obtain ⟨c, record, ⟨lease, hlook, -⟩, -⟩ := h.covered root f hfile hours
  rw [hempty] at hlook
  cases hlook

/-- Accesses that all work. -/
def Sweep.clean : Sweep := ⟨false, fun _ _ => false, fun _ _ => .done⟩

def Faults.none : Faults := ⟨false, false, fun _ => false, fun _ => .done, .clean, .clean⟩

/-- A directory with a link that somebody else has made. -/
def linked (root : Domain) : Option File :=
  if root = "corp" then some ⟨false, 1, true, false, [], false⟩ else none

/-- A lease, an attempt at the linked root by another connection, and both releases. -/
def leasedAndReleased : List Move :=
  [.connection, .update 1 501 ⟨.production, 7, 1, 5553, ["arcbox"]⟩ .none, .connection,
    .update 2 501 ⟨.development, 9, 1, 5554, ["test", "corp"]⟩ .none, .edit "test" none,
    .release 1 .clean, .release 2 .clean]

theorem linked_foreign (root : Domain) (f : File) (h : linked root = some f) :
    f.ours = false ∧ (f.plain = true → ¬ IsLease f.bytes) := by
  unfold linked at h
  split at h
  · cases h
    exact ⟨rfl, nofun⟩
  · cases h

theorem leases_own_their_files_released :
    (((after next (new .trusted linked) (leasedAndReleased.take 5)).files "arcbox").map File.ours =
      some true ∧
    (after next (new .trusted linked) (leasedAndReleased.take 5)).files "test" = none) ∧
    (after next (new .trusted linked) leasedAndReleased).connections = ∅ ∧
    ∀ root f, (after next (new .trusted linked) leasedAndReleased).files root = some f →
      f.ours = false := by
  have hempty : (after next (new .trusted linked) leasedAndReleased).connections = ∅ :=
    AList.ext (by decide +kernel)
  refine ⟨by decide +kernel, hempty, ?_⟩
  refine (leases_own_their_files .trusted linked leasedAndReleased nofun
    linked_foreign ?_).2.2.2.2 hempty
  intro m hm
  simp only [leasedAndReleased, mem_cons, not_mem_nil, or_false] at hm
  rcases hm with rfl | rfl | rfl | rfl | rfl | rfl | rfl <;> trivial

end Store

end Arcbox.Resolver

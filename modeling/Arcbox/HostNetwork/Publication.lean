import Arcbox.HostNetwork.Ledger

set_option autoImplicit false

/-!
# Host networking: what is published

Container aliases and DNS names belong to the VM of the commit state, and a snapshot commit
that returns true leaves exactly the containers of the snapshot.  Together with the ledger of
generations: a stale snapshot never overwrites what is newer.
-/

namespace Arcbox.HostNetwork

open Foundation Foundation.History Table

/-- Published for the VM of the commit state, or registered by the host itself. -/
def Origin.For (incarnation : Option VmIncarnation) : Origin → Prop
  | .vm published => incarnation = some published
  | .host => True

/-- The tables hold exactly the containers of a snapshot. -/
structure Matches (aliases : Table String Alias) (registry : Table String Registration)
    (containers : List ContainerNetwork) : Prop where
  aliases : ∀ name id, (aliases.lookup name).map Alias.id = some id ↔
    ∃ c ∈ containers, c.metadata.name = name ∧ c.metadata.id = id
  owners : ∀ owner, isContainerDnsOwner owner = true →
    ((registry.lookup owner).isSome = true ↔ ∃ c ∈ containers, c.metadata.id = owner)

/-- After its preparation a task finds its VM in the commit state. -/
def Pc.Ready (incarnation : Option VmIncarnation) : Pc → Prop
  | .ports task _ | .publishing task => incarnation = some task.vm
  | .listing snapshot _ => incarnation = some snapshot.vm
  | _ => True

/-- Every published entry has a commit in the log. -/
structure Published (incarnation : Option VmIncarnation) (aliases : Table String Alias)
    (registry : Table String Registration) (holder : Option Pc) (log : List Event) : Prop where
  aliasesFor : ∀ name entry, aliases.lookup name = some entry → entry.origin.For incarnation
  registryFor : ∀ owner registration, isContainerDnsOwner owner = true →
    registry.lookup owner = some registration → registration.origin.For incarnation
  ready : ∀ pc, holder = some pc → pc.Ready incarnation
  /-- Right after a snapshot commit. -/
  current : ∀ mark containers, log.head? = some (.committed mark containers) →
    (containers.map (·.metadata.name)).Nodup → Matches aliases registry containers

/-! ## Changes of the tables -/

variable {e : Event} {pc : Pc}

namespace Published

variable {incarnation : Option VmIncarnation} {aliases : Table String Alias}
  {registry : Table String Registration} {holder : Option Pc} {log : List Event}

section

variable (h : Published incarnation aliases registry holder log)

include h

theorem release : Published incarnation aliases registry none log := { h with ready := nofun }

theorem park (hready : pc.Ready incarnation) :
    Published incarnation aliases registry (some pc) log :=
  { h with
    ready := by
      intro pc' hpc
      cases hpc
      exact hready }

theorem note (he : e.commits = false) : Published incarnation aliases registry holder (e :: log) :=
  { h with current := fun mark containers heq => by cases heq; cases he }

end

/-- Without a commit at its head, the log says nothing of the tables. -/
def Unremarkable (log : List Event) : Prop :=
  ∀ mark containers, log.head? ≠ some (.committed mark containers)

theorem unremarkable_cons (he : e.commits = false) : Unremarkable (e :: log) :=
  fun mark containers heq => by cases heq; cases he

section

variable (h : Published incarnation aliases registry holder log)

include h

theorem setDns (hlog : Unremarkable log) {owner : String} {registration : Registration}
    (horigin : isContainerDnsOwner owner = true → registration.origin.For incarnation) :
    Published incarnation aliases (registry.insert owner registration) holder log :=
  { h with
    registryFor := by
      intro owner' registration' hcontainer hlook
      rcases of_lookup_insert hlook with ⟨rfl, rfl⟩ | ⟨hsame, hlook⟩
      · exact horigin hcontainer
      · exact h.registryFor owner' registration' hcontainer hlook
    current := fun mark containers heq => absurd heq (hlog mark containers) }

theorem eraseDns (hlog : Unremarkable log) (owner : String) :
    Published incarnation aliases (registry.erase owner) holder log :=
  { h with
    registryFor := by
      intro owner' registration' hcontainer hlook
      obtain ⟨hsame, hlook⟩ := of_lookup_erase hlook
      exact h.registryFor owner' registration' hcontainer hlook
    current := fun mark containers heq => absurd heq (hlog mark containers) }

theorem retainAliases (hlog : Unremarkable log) (keep : String → Alias → Bool) :
    Published incarnation (Table.retain keep aliases) registry holder log :=
  { h with
    aliasesFor := by
      intro name entry hlook
      rw [lookup_retain, Option.filter_eq_some_iff] at hlook
      exact h.aliasesFor name entry hlook.1
    current := fun mark containers heq => absurd heq (hlog mark containers) }

theorem setAlias (hlog : Unremarkable log) (name : String) {entry : Alias}
    (horigin : entry.origin.For incarnation) :
    Published incarnation (aliases.insert name entry) registry holder log :=
  { h with
    aliasesFor := by
      intro name' entry' hlook
      rcases of_lookup_insert hlook with ⟨rfl, rfl⟩ | ⟨hsame, hlook⟩
      · exact horigin
      · exact h.aliasesFor name' entry' hlook
    current := fun mark containers heq => absurd heq (hlog mark containers) }

end

end Published

/-! ## The invariant of the runtime -/

namespace Runtime

open Published (Unremarkable unremarkable_cons)

/-- What every step keeps. -/
def Sound (s : Runtime) : Prop :=
  Ledger s.activity s.leases s.snapshots s.holder s.log ∧
    Published s.incarnation s.aliases s.registry s.holder s.log

/-- The same with the lock put back. -/
def Idle (s : Runtime) : Prop :=
  Ledger s.activity s.leases s.snapshots none s.log ∧
    Published s.incarnation s.aliases s.registry none s.log

variable {s : Runtime}

theorem Sound.idle (h : s.Sound) : s.Idle := ⟨h.1.release, h.2.release⟩

theorem Sound.of_idle (h : s.Idle) (hfree : s.holder = none) : s.Sound := by
  unfold Sound
  rw [hfree]
  exact h

theorem Idle.park (h : s.Idle) (hbacked : pc.Backed s.leases s.log)
    (hready : pc.Ready s.incarnation)
    (hstale : pc.outdates = true → ∀ snapshot ∈ s.snapshots, Stale s.log snapshot) :
    (s.park pc).Sound := ⟨h.1.park hbacked hstale, h.2.park hready⟩

/-- An advance, after which every snapshot is stale. -/
theorem Idle.tick (h : s.Idle) (hleaseless : e.leaseless = true) (hadv : e.advances = true) :
    (s.tick e).Idle ∧ ∀ snapshot ∈ s.snapshots, Stale (e :: s.log) snapshot := by
  obtain ⟨hledger, hstale⟩ := h.1.tick hleaseless hadv
  refine ⟨⟨hledger, h.2.note ?_⟩, hstale⟩
  cases e <;> first | rfl | cases hadv

theorem Idle.note (h : s.Idle) (hadv : e.advances = false) (hcommits : e.commits = false)
    (hdist : ∀ snapshot ∈ s.snapshots, e.disturbs snapshot.mark = true → Stale s.log snapshot) :
    (s.note e).Idle :=
  ⟨h.1.note hadv (fun _ _ heq => by subst heq; cases hcommits) hdist, h.2.note hcommits⟩

/-! ## Changes of the tables -/

section Tables

variable {incarnation : Option VmIncarnation} {log : List Event}

section

variable (h : Published incarnation s.aliases s.registry none log)

include h

theorem published_setContainer (hlog : Unremarkable log) (container : ContainerMetadata)
    {origin : Origin} (horigin : origin.For incarnation) :
    Published incarnation (s.setContainer container origin).aliases
      (s.setContainer container origin).registry none log :=
  ((h.retainAliases hlog _).setAlias hlog _ horigin).setDns hlog fun _ => horigin

theorem published_deregister (hlog : Unremarkable log) (owner : String) :
    Published incarnation (s.deregister owner).aliases (s.deregister owner).registry none log :=
  (h.retainAliases hlog fun _ a => a.id != owner).eraseDns hlog owner

/-- A host writer changes the two tables only. -/
theorem applyEffect_eq (hlog : Unremarkable log) (effect : HostEffect) :
    ∃ aliases registry, s.applyEffect effect = { s with aliases := aliases, registry := registry } ∧
      Published incarnation aliases registry none log := by
  cases effect with
  | elsewhere => exact ⟨_, _, rfl, h⟩
  | setDns owner claims address => exact ⟨_, _, rfl, h.setDns hlog fun _ => trivial⟩
  | setAlias name id =>
    unfold applyEffect
    dsimp only
    split
    · exact ⟨_, _, rfl, h⟩
    · exact ⟨_, _, rfl, (h.retainAliases hlog _).setAlias hlog _ trivial⟩
  | setContainer container =>
    unfold applyEffect
    dsimp only
    split
    · exact ⟨_, _, rfl, h⟩
    · exact ⟨_, _, rfl, published_setContainer h hlog container trivial⟩
  | deregister owner => exact ⟨_, _, rfl, published_deregister h hlog owner⟩

end

theorem foldl_applyEffect_eq (effects : List HostEffect)
    (h : Published incarnation s.aliases s.registry none log) (hlog : Unremarkable log) :
    ∃ aliases registry,
      effects.foldl applyEffect s = { s with aliases := aliases, registry := registry } ∧
        Published incarnation aliases registry none log := by
  induction effects generalizing s with
  | nil => exact ⟨_, _, rfl, h⟩
  | cons effect effects ih =>
    obtain ⟨aliases, registry, heq, hone⟩ := applyEffect_eq h hlog effect
    obtain ⟨aliases', registry', heq', hrest⟩ :=
      ih (s := { s with aliases := aliases, registry := registry }) hone
    exact ⟨aliases', registry', by rw [List.foldl_cons, heq, heq'], hrest⟩

/-- Nothing is published for any VM once an incarnation has been cleared. -/
theorem published_clearIncarnation (incarnation : Option VmIncarnation) (hlog : Unremarkable log) :
    Published incarnation s.clearIncarnation.aliases s.clearIncarnation.registry none log where
  aliasesFor name entry hlook := by
    rw [clearIncarnation, AList.lookup_empty] at hlook
    cases hlook
  registryFor owner registration hcontainer hlook := by
    rw [clearIncarnation, lookup_retain, Option.filter_eq_some_iff, hcontainer] at hlook
    cases hlook.2
  ready pc hpc := (nomatch hpc)
  current mark containers heq := absurd heq (hlog mark containers)

theorem published_empty (incarnation : Option VmIncarnation) (hlog : Unremarkable log) :
    Published incarnation ∅ ∅ none log where
  aliasesFor name _ hlook := (nomatch (AList.lookup_empty name).symm.trans hlook)
  registryFor owner _ _ hlook := (nomatch (AList.lookup_empty owner).symm.trans hlook)
  ready _ hpc := (nomatch hpc)
  current mark containers heq := absurd heq (hlog mark containers)

end Tables

/-- The closure of a snapshot commit leaves its containers and nothing else. -/
theorem matches_replaceContainers (vm : VmIncarnation) {containers : List ContainerNetwork}
    (hdistinct : (containers.map (·.metadata.name)).Nodup) :
    Matches (s.replaceContainers vm containers).aliases
      (s.replaceContainers vm containers).registry containers := by
  unfold replaceContainers
  constructor
  · intro name id
    rw [Option.map_eq_some_iff]
    constructor
    · rintro ⟨entry, hlook, rfl⟩
      rcases of_lookup_insertAll hlook with ⟨c, hmem, hname, rfl⟩ | hlook
      · exact ⟨c, hmem, hname, rfl⟩
      · rw [AList.lookup_empty] at hlook
        cases hlook
    · rintro ⟨c, hmem, rfl, rfl⟩
      exact ⟨_, lookup_insertAll_of_mem hdistinct hmem, rfl⟩
  intro owner hcontainer
  rw [isSome_lookup_insertAll, or_iff_left_iff_imp, lookup_retain]
  intro hkept
  -- What is kept of the old registrations is not a container's, or is in the snapshot.
  obtain ⟨registration, hlook⟩ := Option.isSome_iff_exists.mp hkept
  have hdesired := (Option.filter_eq_some_iff.mp hlook).2
  rw [hcontainer] at hdesired
  simpa using hdesired

theorem idle_replaceContainers (h : s.Idle) {vm : VmIncarnation}
    (hvm : s.incarnation = some vm) {mark : Nat} (hquiet : Undisturbed s.log mark)
    (containers : List ContainerNetwork) :
    ((s.replaceContainers vm containers).note (.committed mark containers)).Idle := by
  refine ⟨h.1.note rfl (fun _ _ heq => ?_) nofun, ?_⟩
  · cases heq
    exact hquiet
  refine ⟨fun name entry hlook => ?_, fun owner registration hcontainer hlook => ?_,
    nofun, fun mark' containers' heq hdistinct => ?_⟩
  · rcases of_lookup_insertAll hlook with ⟨c, -, -, rfl⟩ | hlook
    · exact hvm
    · rw [AList.lookup_empty] at hlook
      cases hlook
  · rcases of_lookup_insertAll hlook with ⟨c, -, -, rfl⟩ | hlook
    · exact hvm
    · rw [lookup_retain, Option.filter_eq_some_iff] at hlook
      exact h.2.registryFor owner registration hcontainer hlook.1
  · cases heq
    exact matches_replaceContainers vm hdistinct

/-! ## Between two awaits -/

variable {task : Task}

theorem sound_prepared (h : s.Idle) (hbacked : task.Backed s.leases s.log)
    (hvm : s.incarnation = some task.vm) : (s.prepared task).Sound := by
  cases task with
  | mutation | snapshot | loadBalancers => exact h.park hbacked hvm nofun
  | webIndex expected claims address =>
    unfold prepared
    dsimp only
    split
    · have hnoted := h.note (e := .webIndex) rfl rfl nofun
      exact ⟨hnoted.1, hnoted.2.setDns (unremarkable_cons rfl)
        fun hcontainer => absurd hcontainer (by decide +kernel)⟩
    · exact h

theorem sound_prepare (h : s.Idle) (hbacked : task.Backed s.leases s.log) :
    (s.prepare task).Sound := by
  unfold prepare
  split
  next hvm =>
    exact sound_prepared h hbacked hvm
  · obtain ⟨htick, hstale⟩ := h.tick (e := task.clearing) (by cases task <;> rfl)
      (by cases task <;> rfl)
    exact htick.park hbacked.clearing trivial fun _ => hstale

theorem sound_finishPreparing (h : s.Idle) (hbacked : task.Backed s.leases s.log)
    (hstale : ∀ snapshot ∈ s.snapshots, Stale s.log snapshot) : (s.finishPreparing task).Sound := by
  have hledger := (h.note (e := task.cleared) (by cases task <;> rfl) (by cases task <;> rfl)
    fun snapshot hs _ => hstale snapshot hs).1
  have hlog : Unremarkable (task.cleared :: s.log) := unremarkable_cons (by cases task <;> rfl)
  have hpublished (incarnation : Option VmIncarnation) :=
    s.published_clearIncarnation incarnation hlog
  unfold finishPreparing
  split
  · exact sound_prepared (s := { s.clearIncarnation.note task.cleared with
      incarnation := some task.vm }) ⟨hledger, hpublished _⟩ hbacked.cleared rfl
  · exact ⟨hledger, hpublished none⟩

theorem sound_fail (h : s.Idle) (task : Task) : (s.fail task).Sound := by
  cases task with
  | mutation lease change => exact h.park trivial trivial nofun
  | snapshot taken containers =>
    unfold fail
    dsimp only
    split
    · exact h
    · exact h.park trivial trivial nofun
  | webIndex | loadBalancers => exact h

theorem sound_nextPort (h : s.Idle) (task : Task) (hbacked : task.Backed s.leases s.log)
    (hvm : s.incarnation = some task.vm) (todo : List PortOp) : (s.nextPort task todo).Sound := by
  cases todo with
  | nil => exact h.park hbacked hvm nofun
  | cons op todo =>
    unfold nextPort
    dsimp only
    split
    · exact h.park hbacked hvm nofun
    · exact sound_fail h task

theorem sound_publish (h : s.Idle) (hbacked : task.Backed s.leases s.log)
    (hvm : s.incarnation = some task.vm) : (s.publish task).Sound := by
  cases task with
  | mutation lease change =>
    -- The mutation's own lease outdates every snapshot.
    have hnoted := h.note (e := .mutated lease) rfl rfl
      fun snapshot hs _ => h.1.stale (.inl (List.ne_nil_of_mem hbacked)) snapshot hs
    cases change with
    | publish container bindings =>
      exact ⟨hnoted.1, published_setContainer hnoted.2 (unremarkable_cons rfl) container hvm⟩
    | remove id => exact ⟨hnoted.1, published_deregister hnoted.2 (unremarkable_cons rfl) id⟩
  | snapshot taken containers => exact idle_replaceContainers h hvm hbacked containers
  | webIndex | loadBalancers => exact h

section

variable (h : s.Sound)

include h

theorem sound_resume (reply : Reply) (hpc : s.holder = some pc) : (s.resume reply pc).Sound := by
  have hidle := h.idle
  have hbacked := h.1.backed pc hpc
  have hready := h.2.ready pc hpc
  have hstale (hout : pc.outdates = true) := h.1.stale (.inr ⟨pc, hpc, hout⟩)
  cases pc with
  | retiring =>
    exact ⟨(hidle.note (e := .retired) rfl rfl fun snapshot hs _ => hstale rfl snapshot hs).1,
      s.published_clearIncarnation none (unremarkable_cons rfl)⟩
  | preparing task => exact sound_finishPreparing hidle hbacked (hstale rfl)
  | listing snapshot containers =>
    exact sound_nextPort hidle (.snapshot snapshot containers) hbacked hready _
  | ports task todo =>
    have htask : task.Backed s.leases s.log ∧ s.incarnation = some task.vm := ⟨hbacked, hready⟩
    cases task with
    | loadBalancers expected => exact hidle
    | mutation lease change | snapshot taken containers | webIndex expected claims address =>
      unfold resume
      dsimp only
      split
      · exact sound_nextPort hidle _ htask.1 htask.2 _
      · exact sound_fail hidle _
  | publishing task =>
    unfold resume
    dsimp only
    split
    · exact sound_publish hidle hbacked hready
    · exact sound_fail hidle task
  | cleaning todo =>
    rcases todo with _ | ⟨id, _ | ⟨id', todo⟩⟩
    · exact hidle
    · exact hidle
    · exact hidle.park trivial trivial nofun
  | writing todo =>
    rcases todo with _ | ⟨effect, todo⟩
    · exact hidle
    have hnoted := hidle.note (e := .hostEffect) rfl rfl fun snapshot hs _ =>
      hstale rfl snapshot hs
    obtain ⟨aliases, registry, heq, hpublished⟩ :=
      applyEffect_eq (s := s) hnoted.2 (unremarkable_cons rfl) effect
    rcases todo with _ | ⟨effect', todo⟩
    · unfold resume
      dsimp only
      rw [heq]
      exact ⟨hnoted.1, hpublished⟩
    unfold resume
    dsimp only
    rw [heq]
    exact ⟨hnoted.1.park trivial fun _ snapshot hs => (hstale rfl snapshot hs).cons _,
      hpublished.park trivial⟩
  | shuttingDown =>
    exact ⟨(hidle.note (e := .retired) rfl rfl fun snapshot hs _ => hstale rfl snapshot hs).1,
      published_empty none (unremarkable_cons rfl)⟩

/-! ## Steps -/

section

variable (hfree : s.holder = none)

include hfree

theorem sound_beginContainerMutation (vm : VmIncarnation) :
    (s.beginContainerMutation vm).Sound := by
  unfold beginContainerMutation
  split
  · exact h
  split
  · exact ⟨h.1.closing rfl rfl, h.2⟩
  split
  next hclosed =>
    exact ⟨h.1.closing hclosed Ledger.active_advance, h.2⟩
  · exact Sound.of_idle ⟨h.idle.1.beginLease _, h.idle.2.note rfl⟩ hfree

theorem sound_captureContainerSnapshot : s.captureContainerSnapshot.Sound := by
  unfold captureContainerSnapshot
  split
  · exact h
  rename_i vm hvm
  split
  · exact h
  rename_i hok
  obtain ⟨hopen, hidle⟩ := not_or.mp hok
  exact Sound.of_idle
    ⟨h.idle.1.capture (Bool.eq_false_iff.mpr hopen) (not_not.mp hidle) vm, h.idle.2⟩ hfree

theorem sound_commitSnapshot (snapshot : Snapshot) (containers : List ContainerNetwork) :
    (s.commitSnapshot snapshot containers).Sound := by
  unfold commitSnapshot
  split
  next hmem =>
    dsimp only
    split
    · exact ⟨h.1.dropSnapshot snapshot, h.2⟩
    rename_i hok
    obtain ⟨hopen, hrest⟩ := not_or.mp hok
    have hcount : advances s.log = snapshot.generation :=
      (h.1.counts (Bool.eq_false_iff.mpr hopen)).symm.trans (not_not.mp (not_or.mp hrest).2)
    have hquiet := (h.1.taken snapshot hmem).undisturbed hcount
    have hadmitted :
        ({ s with snapshots := s.snapshots.erase snapshot }.tick .admitted).Idle :=
      (Idle.tick (s := { s with snapshots := s.snapshots.erase snapshot })
        ⟨h.idle.1.dropSnapshot snapshot, h.idle.2⟩ rfl rfl).1
    split
    · exact sound_prepare hadmitted (hquiet.cons rfl)
    · exact Sound.of_idle hadmitted hfree
  · exact h

theorem sound_beginHostWrite (write : HostWrite) : (s.beginHostWrite write).Sound := by
  unfold beginHostWrite
  split
  · exact h
  split
  next hclosed =>
    exact ⟨h.1.closing hclosed.2 Ledger.active_advance, h.2⟩
  obtain ⟨htick, hstale⟩ := h.idle.tick (e := .hostWrite) rfl rfl
  obtain ⟨aliases, registry, heq, hpublished⟩ :=
    foldl_applyEffect_eq write.atOnce htick.2 (unremarkable_cons rfl)
  rw [heq]
  split
  · exact Sound.of_idle (s := { s.tick .hostWrite with aliases, registry })
      ⟨htick.1, hpublished⟩ hfree
  · exact ⟨htick.1.park trivial fun _ => hstale, hpublished.park trivial⟩

theorem sound_acquire (op : Op) : (s.acquire op).Sound := by
  have hidle := h.idle
  unfold acquire
  cases op with
  | beginContainerMutation vm => exact sound_beginContainerMutation h hfree vm
  | captureContainerSnapshot => exact sound_captureContainerSnapshot h hfree
  | commitSnapshot snapshot containers => exact sound_commitSnapshot h hfree snapshot containers
  | hostWrite write => exact sound_beginHostWrite h hfree write
  | commitMutation lease change =>
    dsimp only
    split
    next hlease =>
      exact sound_prepare hidle hlease.1
    · exact h
  | retireSystemVmContainerNetworking =>
    dsimp only
    split
    · exact h
    · obtain ⟨htick, hstale⟩ := hidle.tick (e := .retiring) rfl rfl
      exact htick.park trivial trivial fun _ => hstale
  | publishWebIndex expected claims address | applyLoadBalancers expected =>
    dsimp only
    split
    · exact sound_prepare hidle trivial
    · exact h
  | withdrawWebIndex =>
    have hnoted := hidle.note (e := .webIndex) rfl rfl nofun
    exact Sound.of_idle ⟨hnoted.1, hnoted.2.eraseDns (unremarkable_cons rfl) webIndexOwner⟩ hfree
  | clearHostNetworkForShutdown =>
    obtain ⟨htick, hstale⟩ := hidle.tick (e := .retiring) rfl rfl
    exact htick.park trivial trivial fun _ => hstale

end

theorem sound_next (step : Step) : (s.next step).Sound := by
  cases step with
  | lock op =>
    unfold next
    dsimp only
    split
    · exact h
    next hfree =>
      exact sound_acquire h (Option.not_isSome_iff_eq_none.mp hfree) op
  | resume reply =>
    unfold next
    dsimp only
    split
    · exact h
    next pc hpc =>
      exact sound_resume h reply hpc
  | cancel => exact h.idle
  | dropLease lease =>
    unfold next dropLease
    dsimp only
    split
    next hcond =>
      exact ⟨h.1.dropLease hcond.1 (by simpa using hcond.2), h.2.note rfl⟩
    · exact h
  | dropSnapshot snapshot => exact ⟨h.1.dropSnapshot snapshot, h.2⟩
  | replaceVm vm => exact h
  | closeHostNetworkAdmission =>
    exact ⟨h.1.closing (Ledger.closed_advance rfl) Ledger.active_advance, h.2⟩

end

theorem sound_run (vm : Option VmIncarnation) (steps : List Step) : (run vm steps).Sound := by
  refine keeps (P := fun _ _ => True) (fun s step h _ => sound_next h step) ⟨?_, ?_⟩
    (fun _ _ _ _ => trivial)
  · refine ⟨fun _ => rfl, rfl, rfl, nofun, nofun,
      nofun, fun newer mark containers older heq => ?_⟩
    cases newer <;> cases heq
  · exact published_empty none nofun

/-! ## Snapshots are current, and publications are the VM's -/

/-- In every run: a snapshot commit that returned true was undisturbed since its capture; right
after it the tables hold its containers; and at every moment what is published for a VM is
published for the VM of the commit state. -/
theorem snapshot_commits_are_current (vm : Option VmIncarnation) (steps : List Step) :
    (∀ newer mark containers older,
      (run vm steps).log = newer ++ .committed mark containers :: older →
        Undisturbed older mark) ∧
    (∀ mark containers, (run vm steps).log.head? = some (.committed mark containers) →
      (containers.map (·.metadata.name)).Nodup →
        Matches (run vm steps).aliases (run vm steps).registry containers) ∧
    (∀ name entry, (run vm steps).aliases.lookup name = some entry →
      entry.origin.For (run vm steps).incarnation) ∧
    ∀ owner registration, isContainerDnsOwner owner = true →
      (run vm steps).registry.lookup owner = some registration →
        registration.origin.For (run vm steps).incarnation :=
  ⟨(sound_run vm steps).1.committed, (sound_run vm steps).2.current,
    (sound_run vm steps).2.aliasesFor, (sound_run vm steps).2.registryFor⟩

def web : ContainerNetwork := ⟨⟨"c0ffee", "web", ["web.arcbox.local"], some 0xac110002⟩, []⟩

def database : ContainerNetwork := ⟨⟨"beef", "db", ["db.arcbox.local"], none⟩, []⟩

/-- A snapshot of two containers is committed for the first VM. -/
def snapshotRun : List Step :=
  [.lock .captureContainerSnapshot, .lock (.commitSnapshot ⟨⟨1⟩, 0, 0⟩ [web, database]),
    .resume ⟨true, []⟩, .resume ⟨true, []⟩, .resume ⟨true, []⟩, .resume ⟨true, []⟩,
    .resume ⟨true, []⟩]

theorem snapshot_commits_are_current_two_containers :
    ((run (some ⟨1⟩) snapshotRun).log.head? = some (.committed 0 [web, database]) ∧
      ([web, database].map (·.metadata.name)).Nodup) ∧
    Matches (run (some ⟨1⟩) snapshotRun).aliases (run (some ⟨1⟩) snapshotRun).registry
      [web, database] ∧ (run (some ⟨1⟩) snapshotRun).incarnation = some ⟨1⟩ := by
  have hhead : (run (some ⟨1⟩) snapshotRun).log.head? = some (.committed 0 [web, database]) := by
    decide +kernel
  have hdistinct : ([web, database].map (·.metadata.name)).Nodup := by decide +kernel
  exact ⟨⟨hhead, hdistinct⟩, (snapshot_commits_are_current (some ⟨1⟩) snapshotRun).2.1 0
    [web, database] hhead hdistinct, by decide +kernel⟩

/-- The VM has been replaced when a host registration names a container: the commit state still
has the first VM, and the registration none. -/
theorem host_registration_names_no_vm :
    let s := run (some ⟨1⟩) (snapshotRun ++ [.replaceVm (some ⟨2⟩),
      .lock (.hostWrite (.registerContainerDns ⟨"cafe", "cache", [], none⟩)), .resume ⟨true, []⟩])
    s.incarnation = some ⟨1⟩ ∧ s.vm = some ⟨2⟩ ∧
      s.aliases.lookup "cache" = some ⟨"cafe", .host⟩ ∧
      (s.registry.lookup "cafe").map Registration.origin = some .host := by
  decide +kernel

/-- After every sequence of steps the counter is the number of live leases, the generation counts
the advances as long as mutations are admitted, and while a lease is live no snapshot taken
before can be committed. -/
theorem activity_matches_log (vm : Option VmIncarnation) (steps : List Step) :
    let s := run vm steps
    s.activity.active = (liveLeases s.log).length ∧
    (s.activity.closed = false → s.activity.generation = advances s.log) ∧
    (liveLeases s.log ≠ [] → ∀ snapshot ∈ s.snapshots, snapshot.generation < advances s.log) := by
  intro s
  have h := (sound_run vm steps).1
  refine ⟨?_, h.counts, fun hlive => h.stale (.inl ?_)⟩
  · rw [h.active, h.leases_eq]
  · rwa [h.leases_eq]

end Runtime

end Arcbox.HostNetwork

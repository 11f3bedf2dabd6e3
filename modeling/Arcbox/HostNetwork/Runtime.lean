import Mathlib.Algebra.Group.Nat.Defs
import Arcbox.Foundation.History
import Arcbox.Foundation.Table

set_option autoImplicit false

/-!
# Host networking: who may publish, and when

Guest mutations, host writers, retirements and snapshot commits publish container aliases and
DNS names under one commit lock.  A mutation keeps a lease while it talks to the guest without
the lock, and a snapshot is captured long before it is committed; a generation that every
writer advances tells a commit whether its snapshot is still current.

What happens between two awaits is one step.  The task that holds the lock is resumed, or
cancelled, at each await; everything that needs no lock happens in between.
-/

namespace Arcbox.HostNetwork

open Foundation Foundation.History

/-- The identity of one physical run of a VM. -/
structure VmIncarnation where
  id : Nat
deriving DecidableEq, Repr

/-- A host address, host port, container port and protocol. -/
abbrev Binding := String × BitVec 16 × BitVec 16 × String

/-- What a validated inspect says, its DNS claims already derived. -/
structure ContainerMetadata where
  id : String
  name : String
  claims : List String
  primaryIpv4 : Option (BitVec 32)
deriving DecidableEq, Repr

/-- A container as a snapshot lists it. -/
structure ContainerNetwork where
  metadata : ContainerMetadata
  bindings : List Binding
deriving DecidableEq, Repr

/-- What a mutation commits. -/
inductive ContainerChange where
  | publish (container : ContainerMetadata) (bindings : List Binding)
  | remove (id : String)
deriving DecidableEq, Repr

/-- The container it is about. -/
def ContainerChange.id : ContainerChange → String
  | .publish container _ => container.id
  | .remove id => id

/-! ## Activity -/

/-- The largest `u64`. -/
def u64Max : Nat := 2 ^ 64 - 1

/-- Mutations in progress, and whether more may begin. -/
structure Activity where
  generation : Nat
  active : Nat
  closed : Bool
deriving DecidableEq, Repr

/-- An exhausted generation closes admission instead of wrapping. -/
def Activity.advance (a : Activity) : Activity :=
  if a.generation < u64Max then { a with generation := a.generation + 1 }
  else { a with closed := true }

/-! ## What is published -/

/-- For which VM an entry was published; a direct host registration names none. -/
inductive Origin where
  | vm (incarnation : VmIncarnation)
  | host
deriving DecidableEq, Repr

/-- A name, with whom it is for and who wrote it. -/
structure Alias where
  id : String
  origin : Origin
deriving DecidableEq, Repr

/-- A DNS owner's entry. -/
structure Registration where
  claims : List String
  address : Option (BitVec 32)
  origin : Origin
deriving DecidableEq, Repr

/-- Owners without a reserved scheme are containers. -/
def isContainerDnsOwner (owner : String) : Bool :=
  !owner.startsWith "sandbox:" && !owner.startsWith "system:" && !owner.startsWith "machine:"

/-- The owner of the web index. -/
def webIndexOwner : String := "system:index"

/-- The owner of the host's own names. -/
def hostDnsOwner : String := "system:host"

/-- The owner of a sandbox's names. -/
def sandboxDnsOwner (id : String) : String := "sandbox:" ++ id

/-! ## Leases and snapshots -/

/-- An admitted mutation. -/
structure Lease where
  id : Nat
  vm : VmIncarnation
deriving DecidableEq, Repr

/-- A capture, to be committed later. -/
structure Snapshot where
  vm : VmIncarnation
  generation : Nat
  /-- How long the log was at the capture. -/
  mark : Nat
deriving DecidableEq, Repr

/-! ## Host writers -/

/-- The functions that write host networking state for no mutation and no snapshot.  DNS claims
are those derived from the hostnames. -/
inductive HostWrite where
  | startPortForwardingFor
  | exposeSandboxPort
  | stopPortForwardingById
  | unexposeSandboxPort
  | removeSandboxPorts
  | stopPortForwardingAll
  | registerSandboxDns (id : String) (claims : List String) (ip : BitVec 32)
  | registerHostDns (claims : List String) (ip : BitVec 32)
  | registerDns (owner : String) (claims : List String) (ip : BitVec 32)
  | registerContainerDns (container : ContainerMetadata)
  | registerContainerAlias (name : String) (id : String)
  | deregisterSandboxDns (id : String)
  | deregisterDnsById (owner : String)
  | clearSandboxHostState (hostOwned : List String)
deriving DecidableEq, Repr

/-- The others only invalidate snapshots: they work after admission has closed. -/
def HostWrite.needsAdmission : HostWrite → Bool
  | .startPortForwardingFor | .exposeSandboxPort | .registerSandboxDns .. | .registerHostDns ..
  | .registerDns .. | .registerContainerDns _ | .registerContainerAlias .. => true
  | _ => false

/-- What a host writer does to the two tables between two of its awaits. -/
inductive HostEffect where
  /-- Listeners, or the lists of sandbox ports and names: neither table changes. -/
  | elsewhere
  | setDns (owner : String) (claims : List String) (address : Option (BitVec 32))
  | setAlias (name : String) (id : String)
  | setContainer (container : ContainerMetadata)
  | deregister (owner : String)
deriving DecidableEq, Repr

/-- What is done before the first await. -/
def HostWrite.atOnce : HostWrite → List HostEffect
  | .registerSandboxDns id claims ip => [.setDns (sandboxDnsOwner id) claims (some ip)]
  | .registerHostDns claims ip => [.setDns hostDnsOwner claims (some ip)]
  | .registerDns owner claims ip => [.setDns owner claims (some ip)]
  | _ => []

/-- What is done after an await each. -/
def HostWrite.awaited (registry : Table String Registration) : HostWrite → List HostEffect
  | .registerHostDns .. | .registerDns .. => []
  | .registerContainerDns container => [.setContainer container]
  | .registerContainerAlias name id => [.setAlias name id]
  | .deregisterSandboxDns id => [.deregister (sandboxDnsOwner id), .elsewhere]
  | .deregisterDnsById owner => [.deregister owner]
  | .clearSandboxHostState hostOwned =>
    .elsewhere :: (registry.keys.filter fun owner =>
      owner.startsWith "sandbox:" && !(hostOwned.map sandboxDnsOwner).contains owner).map
        .deregister ++ [.elsewhere]
  | _ => [.elsewhere]

/-! ## The holder of the commit lock -/

/-- The tasks that first prepare the commit state for their VM. -/
inductive Task where
  | mutation (lease : Lease) (change : ContainerChange)
  | snapshot (snapshot : Snapshot) (containers : List ContainerNetwork)
  | webIndex (expected : VmIncarnation) (claims : List String) (address : Option (BitVec 32))
  | loadBalancers (expected : VmIncarnation)
deriving DecidableEq, Repr

/-- The VM a task was admitted for. -/
def Task.vm : Task → VmIncarnation
  | .mutation lease _ => lease.vm
  | .snapshot taken _ => taken.vm
  | .webIndex expected _ _ => expected
  | .loadBalancers expected => expected

/-- What the port listeners are told. -/
inductive PortOp where
  | clear (id : String)
  | update (id : String) (bindings : List Binding)
deriving DecidableEq, Repr

/-- Ports are cleared where there are no bindings. -/
def PortOp.forBindings (id : String) (bindings : List Binding) : PortOp :=
  if bindings = [] then .clear id else .update id bindings

/-- The listeners' part of a change. -/
def ContainerChange.portOp : ContainerChange → PortOp
  | .publish container bindings => .forBindings container.id bindings
  | .remove id => .clear id

/-- The await at which the holder of the commit lock is suspended. -/
inductive Pc where
  /-- In `clear_container_incarnation`, called by a retirement. -/
  | retiring
  /-- In `clear_container_incarnation`, called by `prepare_container_incarnation`. -/
  | preparing (task : Task)
  /-- In `registered_container_ids`. -/
  | listing (snapshot : Snapshot) (containers : List ContainerNetwork)
  /-- In the first of these port operations. -/
  | ports (task : Task) (todo : List PortOp)
  /-- At the lock of the aliases. -/
  | publishing (task : Task)
  /-- In the port cleanup after an error. -/
  | cleaning (todo : List String)
  | writing (todo : List HostEffect)
  | shuttingDown
deriving DecidableEq, Repr

/-- The work in progress is under this lease. -/
def Pc.uses (lease : Lease) : Pc → Bool
  | .preparing (.mutation held _) | .ports (.mutation held _) _
  | .publishing (.mutation held _) => held == lease
  | _ => false

/-! ## The runtime -/

/-- What happens to host networking, for the record. -/
inductive Event where
  | leaseBegun (lease : Lease)
  | leaseDropped (lease : Lease)
  /-- A mutation has published its change. -/
  | mutated (lease : Lease)
  | hostWrite
  /-- A host writer has changed the tables. -/
  | hostEffect
  /-- A retirement has begun: on its own, at shutdown or on behalf of another task. -/
  | retiring
  | retired
  | admitted
  /-- The commit of the snapshot taken at `mark` clears the tables of another VM, in two halves. -/
  | invalidated (mark : Nat)
  | emptied (mark : Nat)
  /-- A snapshot commit returns true. -/
  | committed (mark : Nat) (containers : List ContainerNetwork)
  | webIndex
deriving DecidableEq, Repr

/-- What is recorded when a task begins to clear the containers of an earlier VM. -/
def Task.clearing : Task → Event
  | .snapshot taken _ => .invalidated taken.mark
  | _ => .retiring

/-- What is recorded when they are gone. -/
def Task.cleared : Task → Event
  | .snapshot taken _ => .emptied taken.mark
  | _ => .retired

/-- The network runtime, and who holds its lock. -/
structure Runtime where
  /-- The ready System VM. -/
  vm : Option VmIncarnation
  activity : Activity
  /-- The commit state. -/
  incarnation : Option VmIncarnation
  aliases : Table String Alias
  registry : Table String Registration
  leases : List Lease
  issued : Nat
  snapshots : List Snapshot
  holder : Option Pc
  /-- Newest first. -/
  log : List Event

/-- Nothing is published. -/
def Runtime.start (vm : Option VmIncarnation) : Runtime where
  vm := vm
  activity := ⟨0, 0, false⟩
  incarnation := none
  aliases := ∅
  registry := ∅
  leases := []
  issued := 0
  snapshots := []
  holder := none
  log := []

namespace Runtime

variable (s : Runtime) (task : Task)

/-- `with_host_network_incarnation`: admission is open and the VM is still the expected one. -/
def live (vm : VmIncarnation) : Bool := !s.activity.closed && s.vm == some vm

/-- An event for the log. -/
def note (e : Event) : Runtime := { s with log := e :: s.log }

/-- An event that makes older snapshots stale. -/
def tick (e : Event) : Runtime := { s with activity := s.activity.advance, log := e :: s.log }

/-- The lock is free. -/
def release : Runtime := { s with holder := none }

/-- The holder awaits, with the lock. -/
def park (pc : Pc) : Runtime := { s with holder := some pc }

/-! ## Changes of the tables -/

/-- An owner's DNS entry is replaced. -/
def setDns (owner : String) (registration : Registration) : Runtime :=
  { s with registry := s.registry.insert owner registration }

/-- A container has one name. -/
def setAlias (name : String) (entry : Alias) : Runtime :=
  { s with aliases := (Table.retain (fun _ a => a.id != entry.id) s.aliases).insert name entry }

/-- A container's alias and DNS entry. -/
def setContainer (container : ContainerMetadata) (origin : Origin) : Runtime :=
  (s.setAlias container.name ⟨container.id, origin⟩).setDns container.id
    ⟨container.claims, container.primaryIpv4, origin⟩

/-- An owner's entries go. -/
def deregister (owner : String) : Runtime :=
  { s with
    aliases := Table.retain (fun _ a => a.id != owner) s.aliases
    registry := s.registry.erase owner }

/-- The synchronous end of `clear_container_incarnation`. -/
def clearIncarnation : Runtime :=
  { s with
    aliases := ∅
    registry := Table.retain (fun owner _ => !(isContainerDnsOwner owner || owner == webIndexOwner))
      s.registry
    incarnation := none }

/-- The synchronous end of `clear_host_network_for_shutdown`. -/
def clearAll : Runtime := { s with aliases := ∅, registry := ∅, incarnation := none }

/-- A snapshot replaces the aliases and the registrations of containers. -/
def replaceContainers (vm : VmIncarnation) (containers : List ContainerNetwork) : Runtime :=
  let desired := containers.map (·.metadata.id)
  { s with
    registry := Table.insertAll (·.metadata.id)
      (fun c => ⟨c.metadata.claims, c.metadata.primaryIpv4, .vm vm⟩) containers
      (Table.retain (fun owner _ => !(isContainerDnsOwner owner && !desired.contains owner))
        s.registry)
    aliases := Table.insertAll (·.metadata.name) (fun c => ⟨c.metadata.id, .vm vm⟩) containers ∅ }

/-- One write of the host's. -/
def applyEffect : HostEffect → Runtime
  | .elsewhere => s
  | .setDns owner claims address => s.setDns owner ⟨claims, address, .host⟩
  | .setAlias name id => if s.activity.closed then s else s.setAlias name ⟨id, .host⟩
  | .setContainer container => if s.activity.closed then s else s.setContainer container .host
  | .deregister owner => s.deregister owner

/-- `registered_container_ids`, given the owners of listeners that are containers. -/
def registeredContainerIds (listeners : List String) : List String :=
  (s.registry.keys.filter isContainerDnsOwner ++ s.aliases.entries.map (·.2.id)
    ++ listeners).eraseDups

/-! ## Between two awaits of the holder -/

/-- After `prepare_container_incarnation`. -/
def prepared : Runtime :=
  match task with
  | .mutation _ change => s.park (.ports task [change.portOp])
  | .snapshot snapshot containers => s.park (.listing snapshot containers)
  | .webIndex expected claims address =>
    if s.live expected then
      ((s.setDns webIndexOwner ⟨claims, address, .vm expected⟩).note .webIndex).release
    else s.release
  | .loadBalancers _ => s.park (.ports task [])

/-- `prepare_container_incarnation` up to its first await. -/
def prepare : Runtime :=
  if s.incarnation = some task.vm then s.prepared task
  else (s.tick task.clearing).park (.preparing task)

/-- `prepare_container_incarnation` from its last await on. -/
def finishPreparing : Runtime :=
  if s.live task.vm then
    prepared { s.clearIncarnation.note task.cleared with incarnation := some task.vm } task
  else (s.clearIncarnation.note task.cleared).release

/-- An error: a mutation clears its ports, a snapshot only those of a VM that is gone. -/
def fail : Runtime :=
  match task with
  | .mutation _ change => s.park (.cleaning [change.id])
  | .snapshot snapshot containers =>
    if s.live snapshot.vm then s.release
    else s.park (.cleaning (containers.map (·.metadata.id)).eraseDups)
  | _ => s.release

/-- On to the next port operation, or to the lock of the aliases. -/
def nextPort : List PortOp → Runtime
  | [] => s.park (.publishing task)
  | op :: todo => if s.live task.vm then s.park (.ports task (op :: todo)) else s.fail task

/-- The closure a task publishes with. -/
def publish : Runtime :=
  match task with
  | .mutation lease (.publish container _) =>
    ((s.setContainer container (.vm lease.vm)).note (.mutated lease)).release
  | .mutation lease (.remove id) => ((s.deregister id).note (.mutated lease)).release
  | .snapshot snapshot containers =>
    ((s.replaceContainers snapshot.vm containers).note
      (.committed snapshot.mark containers)).release
  | _ => s.release

/-- How an await ended: whether the port operation worked, and the listeners that were found. -/
structure Reply where
  works : Bool
  listeners : List String
deriving DecidableEq, Repr

/-- The await of the holder returns. -/
def resume (reply : Reply) : Pc → Runtime
  | .retiring => (s.clearIncarnation.note .retired).release
  | .preparing task => s.finishPreparing task
  | .listing snapshot containers =>
    let desired := containers.map (·.metadata.id)
    let obsolete := (s.registeredContainerIds reply.listeners).filter (!desired.contains ·)
    s.nextPort (.snapshot snapshot containers)
      (obsolete.map .clear ++ containers.map fun c => .forBindings c.metadata.id c.bindings)
  | .ports (.loadBalancers _) _ => s.release
  | .ports task todo => if reply.works then s.nextPort task todo.tail else s.fail task
  | .publishing task => if s.live task.vm then s.publish task else s.fail task
  | .cleaning [] | .cleaning [_] => s.release
  | .cleaning (_ :: todo) => s.park (.cleaning todo)
  | .writing [] => s.release
  | .writing [effect] => ((s.applyEffect effect).note .hostEffect).release
  | .writing (effect :: todo) => ((s.applyEffect effect).note .hostEffect).park (.writing todo)
  | .shuttingDown => (s.clearAll.note .retired).release

/-! ## Taking the lock -/

/-- What is done with the commit lock, up to the first await. -/
inductive Op where
  | beginContainerMutation (vm : VmIncarnation)
  | commitMutation (lease : Lease) (change : ContainerChange)
  | captureContainerSnapshot
  | commitSnapshot (snapshot : Snapshot) (containers : List ContainerNetwork)
  | retireSystemVmContainerNetworking
  | publishWebIndex (expected : VmIncarnation) (claims : List String)
      (address : Option (BitVec 32))
  | withdrawWebIndex
  | applyLoadBalancers (expected : VmIncarnation)
  | hostWrite (write : HostWrite)
  | clearHostNetworkForShutdown
deriving DecidableEq, Repr

/-- `begin_container_mutation`. -/
def beginContainerMutation (vm : VmIncarnation) : Runtime :=
  if s.vm ≠ some vm ∨ s.activity.closed then s
  else if s.activity.active = u64Max then
    { s with activity := { s.activity with closed := true } }
  else if s.activity.advance.closed then { s with activity := s.activity.advance }
  else
    { s with
      activity := { s.activity.advance with active := s.activity.active + 1 }
      leases := ⟨s.issued, vm⟩ :: s.leases
      issued := s.issued + 1
      log := .leaseBegun ⟨s.issued, vm⟩ :: s.log }

/-- `capture_container_snapshot`. -/
def captureContainerSnapshot : Runtime :=
  match s.vm with
  | none => s
  | some vm =>
    if s.activity.closed ∨ s.activity.active ≠ 0 then s
    else { s with snapshots := ⟨vm, s.activity.generation, s.log.length⟩ :: s.snapshots }

/-- The snapshot is used up whatever comes of it. -/
def commitSnapshot (snapshot : Snapshot) (containers : List ContainerNetwork) : Runtime :=
  if snapshot ∈ s.snapshots then
    let s₁ := { s with snapshots := s.snapshots.erase snapshot }
    if s.activity.closed ∨ s.activity.active ≠ 0 ∨ s.activity.generation ≠ snapshot.generation then
      s₁
    else
      let s₂ := s₁.tick .admitted
      if s₂.live snapshot.vm then s₂.prepare (.snapshot snapshot containers) else s₂
  else s

/-- A host write; one that needs admission is refused after the close. -/
def beginHostWrite (write : HostWrite) : Runtime :=
  if write.needsAdmission = true ∧ s.activity.closed = true then s
  else if write.needsAdmission = true ∧ s.activity.advance.closed = true then
    { s with activity := s.activity.advance }
  else
    let s₁ := write.atOnce.foldl applyEffect (s.tick .hostWrite)
    match write.awaited s.registry with
    | [] => s₁
    | effect :: todo => s₁.park (.writing (effect :: todo))

/-- What an operation does once it has the lock. -/
def acquire : Op → Runtime
  | .beginContainerMutation vm => s.beginContainerMutation vm
  | .commitMutation lease change =>
    if lease ∈ s.leases ∧ s.live lease.vm then s.prepare (.mutation lease change) else s
  | .captureContainerSnapshot => s.captureContainerSnapshot
  | .commitSnapshot snapshot containers => s.commitSnapshot snapshot containers
  | .retireSystemVmContainerNetworking =>
    if s.vm.isSome ∧ s.incarnation = s.vm then s else (s.tick .retiring).park .retiring
  | .publishWebIndex expected claims address =>
    if s.live expected then s.prepare (.webIndex expected claims address) else s
  | .withdrawWebIndex => { s with registry := s.registry.erase webIndexOwner }.note .webIndex
  | .applyLoadBalancers expected =>
    if s.live expected then s.prepare (.loadBalancers expected) else s
  | .hostWrite write => s.beginHostWrite write
  | .clearHostNetworkForShutdown => (s.tick .retiring).park .shuttingDown

/-! ## Steps and runs -/

/-- What can happen next. -/
inductive Step where
  | lock (op : Op)
  | resume (reply : Reply)
  /-- The holder of the lock is dropped at its await. -/
  | cancel
  | dropLease (lease : Lease)
  | dropSnapshot (snapshot : Snapshot)
  | replaceVm (vm : Option VmIncarnation)
  | closeHostNetworkAdmission
deriving DecidableEq, Repr

/-- A lease is not dropped while its commit runs. -/
def dropLease (lease : Lease) : Runtime :=
  if lease ∈ s.leases ∧ !s.holder.any (·.uses lease) then
    { s with
      activity := { s.activity with active := s.activity.active - 1 }.advance
      leases := s.leases.erase lease
      log := .leaseDropped lease :: s.log }
  else s

/-- One step. -/
def next : Step → Runtime
  | .lock op => if s.holder.isSome then s else s.acquire op
  | .resume reply =>
    match s.holder with
    | none => s
    | some pc => s.resume reply pc
  | .cancel => s.release
  | .dropLease lease => s.dropLease lease
  | .dropSnapshot snapshot => { s with snapshots := s.snapshots.erase snapshot }
  | .replaceVm vm => { s with vm := vm }
  | .closeHostNetworkAdmission =>
    { s with activity := { s.activity with closed := true }.advance }

/-- A whole history. -/
def run (vm : Option VmIncarnation) (steps : List Step) : Runtime := after next (start vm) steps

end Runtime

end Arcbox.HostNetwork

import Arcbox.Foundation.Table
import Arcbox.Resolver.Files

set_option autoImplicit false

/-!
# Resolver leases: the store

A connection leases roots; the file of each root carries the lease.  A changed set of roots is
published file by file: the attempted record is noted first, the new files are written, the old
ones that are not kept are removed, and a failure anywhere is answered by removing everything the
records of the connection cover.  All of it happens under one lock.
-/

namespace Arcbox.Resolver

open Foundation

/-! ## Leases -/

abbrev Connection := BitVec 64

/-- The roots that were attempted together, and what their files say. -/
structure Record where
  roots : List Domain
  stamp : Stamp
deriving DecidableEq, Repr

def Record.contents (r : Record) : List UInt8 := recordContents r.stamp

structure Accepted where
  revision : BitVec 64
  port : BitVec 16
deriving DecidableEq, Repr

structure Lease where
  nonce : Option (BitVec 128) := none
  accepted : Option Accepted := none
  failed : Bool := false
  retiring : Bool := false
  records : List Record := []
deriving DecidableEq, Repr

/-- A validated request for a set of roots. -/
structure Update where
  profile : ArcboxProfile
  nonce : BitVec 128
  revision : BitVec 64
  port : BitVec 16
  roots : List Domain
deriving DecidableEq, Repr

inductive HelperError where
  | closed
  | failed
  /-- The resolver lease is invalid, stale, or has a different nonce. -/
  | invalid
  /-- A resolver root belongs to another connection. -/
  | taken
  | foreignManaged
  | io
deriving DecidableEq, Repr

/-! ## The directory -/

inductive Directory where
  | missing
  | trusted
  /-- Writable by others, with an access list, or not of the expected owner. -/
  | untrusted
deriving DecidableEq, Repr

/-- How a write or a removal ends: a failure may come after the effect. -/
inductive Outcome where
  | done
  | failed (tookEffect : Bool)
deriving DecidableEq, Repr

def Outcome.takesEffect : Outcome → Bool
  | .done => true
  | .failed tookEffect => tookEffect

def Outcome.isDone : Outcome → Bool
  | .done => true
  | .failed _ => false

/-- A file of the directory that the store replaced or removed. -/
structure Disturbed where
  root : Domain
  file : File
deriving DecidableEq, Repr

structure Store where
  nextConnection : Connection
  connections : Table Connection Lease
  directory : Directory
  files : Domain → Option File
  /-- Roots whose entry a third party has changed since the store last wrote it. -/
  touched : Domain → Bool
  log : List Disturbed

namespace Store

def new (directory : Directory) (files : Domain → Option File) : Store where
  nextConnection := 0
  connections := ∅
  directory := directory
  files := files
  touched := fun _ => false
  log := []

variable (s : Store)

def setLease (connection : Connection) (lease : Lease) : Store :=
  { s with connections := s.connections.insert connection lease }

variable (root : Domain)

/-- The entry of a root is replaced or removed. -/
def disturb : List Disturbed :=
  match s.files root with
  | some file => s.log ++ [⟨root, file⟩]
  | none => s.log

def put (bytes : List UInt8) : Store :=
  { s with
    files := Function.update s.files root (some (File.written bytes))
    touched := Function.update s.touched root false
    log := s.disturb root }

def unlink : Store :=
  { s with
    files := Function.update s.files root none
    log := s.disturb root }

def writeAll (s : Store) (bytes : List UInt8) (write : Domain → Outcome) :
    List Domain → Bool × Store
  | [] => (true, s)
  | root :: roots =>
    let after := if (write root).takesEffect then s.put root bytes else s
    if (write root).isDone then writeAll after bytes write roots else (false, after)

/-- What the accesses of one removal run into. -/
structure Sweep where
  openFails : Bool
  inspectFails : Record → Domain → Bool
  remove : Record → Domain → Outcome

def removeOne (sweep : Sweep) (record : Record) (root : Domain) : Bool × Store :=
  match inspect (s.files root) (fun bytes => decide (bytes = record.contents))
      (sweep.inspectFails record root) with
  | none => (false, s)
  | some .owned =>
    ((sweep.remove record root).isDone,
      if (sweep.remove record root).takesEffect then s.unlink root else s)
  | some _ => (true, s)

/-- The loop over the roots of a record that are not kept; errors are collected. -/
def removeRoots (s : Store) (sweep : Sweep) (record : Record) : List Domain → Bool × Store
  | [] => (true, s)
  | root :: roots =>
    let one := s.removeOne sweep record root
    let rest := removeRoots one.2 sweep record roots
    (one.1 && rest.1, rest.2)

def removeRecords (s : Store) (sweep : Sweep) (keep : List Domain) :
    List Record → Bool × Store
  | [] => (true, s)
  | record :: records =>
    let one := s.removeRoots sweep record (record.roots.filter (· ∉ keep))
    let rest := removeRecords one.2 sweep keep records
    (one.1 && rest.1, rest.2)

/-- Remove the files that the records cover, besides those of the kept roots. -/
def remove (sweep : Sweep) (records : List Record) (keep : List Domain) : Bool × Store :=
  if records.isEmpty then (true, s)
  else if sweep.openFails then (false, s)
  else
    match s.directory with
    | .missing => (true, s)
    | .untrusted => (false, s)
    | .trusted => s.removeRecords sweep keep records

/-! ## Publication -/

/-- What the accesses of one update run into. -/
structure Faults where
  createFails : Bool
  openFails : Bool
  inspectFails : Domain → Bool
  write : Domain → Outcome
  prune : Sweep
  cleanup : Sweep

def taken (connection : Connection) (roots : List Domain) : Bool :=
  s.connections.entries.any fun entry =>
    decide (entry.1 ≠ connection) &&
      entry.2.records.any fun record => record.roots.any (· ∈ roots)

/-- Create the directory where it is missing. -/
def createDirectory : Store :=
  { s with directory := if s.directory = .missing then .trusted else s.directory }

def prepareDirectory (faults : Faults) : Option HelperError × Store :=
  if faults.createFails then (some .io, s)
  else if faults.openFails then (some .io, s.createDirectory)
  else if s.createDirectory.directory = .untrusted then (some .foreignManaged, s.createDirectory)
  else (none, s.createDirectory)

/-- No root may have a file that the records of the connection do not cover. -/
def checkRoots (s : Store) (records : List Record) (faults : Faults) :
    List Domain → Option HelperError
  | [] => none
  | root :: roots =>
    match inspect (s.files root) (fun bytes =>
        records.any fun record => decide (root ∈ record.roots) && decide (bytes = record.contents))
        (faults.inspectFails root) with
    | none => some .io
    | some .foreign => some .foreignManaged
    | some _ => checkRoots s records faults roots

/-- Write the new files and remove the old ones. -/
def replaceFiles (faults : Faults) (records : List Record) (next : Record) : Bool × Store :=
  let wrote := s.writeAll next.contents faults.write next.roots
  if wrote.1 then wrote.2.remove faults.prune records next.roots else wrote

def attempt (connection : Connection) (current : Lease) (update : Update) (next : Record)
    (faults : Faults) : Except HelperError Unit × Store :=
  let noted := s.setLease connection
    { current with failed := true, records := current.records ++ [next] }
  let replaced := noted.replaceFiles faults current.records next
  if replaced.1 then
    (.ok (), replaced.2.setLease connection
      { current with
        nonce := some update.nonce
        accepted := some ⟨update.revision, update.port⟩
        failed := false
        records := [next] })
  else
    (.error .io, (replaced.2.remove faults.cleanup (current.records ++ [next]) []).2)

def publish (connection : Connection) (uid : BitVec 32) (update : Update) (faults : Faults) :
    Except HelperError Unit × Store :=
  match s.connections.lookup connection with
  | none => (.error .closed, s)
  | some current =>
    if current.failed then (.error .failed, s)
    else
      -- Whatever goes wrong from here on, the lease has failed.
      let marked := s.setLease connection { current with failed := true }
      if update.revision ≤ (current.accepted.map Accepted.revision).getD 0 ∨
          current.nonce.any (· ≠ update.nonce) then (.error .invalid, marked)
      else if marked.taken connection update.roots then (.error .taken, marked)
      else
        let prepared := marked.prepareDirectory faults
        match prepared.1 with
        | some error => (.error error, prepared.2)
        | none =>
          match prepared.2.checkRoots current.records faults update.roots with
          | some error => (.error error, prepared.2)
          | none =>
            prepared.2.attempt connection current update
              ⟨update.roots, update.port, uid, update.profile, update.nonce, update.revision,
                connection⟩ faults

/-! ## The other operations -/

/-- The identity of a new connection; the source panics when they run out. -/
def connection : Store :=
  if s.nextConnection = BitVec.allOnes 64 then s
  else
    { s with
      nextConnection := s.nextConnection + 1
      connections := s.connections.insert (s.nextConnection + 1) {} }

def invalidate (connection : Connection) : Store :=
  match s.connections.lookup connection with
  | some lease => s.setLease connection { lease with failed := true }
  | none => s

def retire (connection : Connection) : Store :=
  match s.connections.lookup connection with
  | some lease => s.setLease connection { lease with retiring := true }
  | none => s

def release (connection : Connection) (sweep : Sweep) : Bool × Store :=
  match s.connections.lookup connection with
  | none => (true, s)
  | some lease =>
    let removed := (s.setLease connection { lease with failed := true }).remove sweep lease.records []
    if removed.1 then
      (true, { removed.2 with connections := removed.2.connections.erase connection })
    else (false, removed.2)

/-! ## Moves -/

inductive Move where
  | connection
  | update (connection : Connection) (uid : BitVec 32) (update : Update) (faults : Faults)
  | invalidate (connection : Connection)
  | retire (connection : Connection)
  | release (connection : Connection) (sweep : Sweep)
  | edit (root : Domain) (entry : Option File)
  /-- A third party creates, deletes or changes the directory. -/
  | chdir (directory : Directory)

/-- What a third party leaves behind is its own. -/
def disown (f : File) : File := { f with ours := false }

def next : Move → Store
  | .connection => s.connection
  | .update connection uid update faults => (s.publish connection uid update faults).2
  | .invalidate connection => s.invalidate connection
  | .retire connection => s.retire connection
  | .release connection sweep => (s.release connection sweep).2
  | .edit root entry =>
    if s.directory = .missing then s
    else
      { s with
        files := Function.update s.files root (entry.map disown)
        touched := Function.update s.touched root true }
  | .chdir .missing =>
    { s with directory := .missing, files := fun _ => none, touched := fun _ => true }
  | .chdir directory => { s with directory := directory }

end Store

end Arcbox.Resolver

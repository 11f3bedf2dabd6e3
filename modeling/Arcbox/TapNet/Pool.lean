import Mathlib.Algebra.Group.Nat.Defs
import Mathlib.Data.Finset.Basic
import Arcbox.Foundation.Table

set_option autoImplicit false

/-!
# TAP network: the address pool and the quarantine ledger

`TapNetwork` keeps one set of addresses it must not hand out: those of live leases, of
quarantined ones, and those held for durable state this build cannot read.  The ledger
directory outlives the process; a new manager is built from what it finds there.

What a kernel or file operation comes to is an argument of each call.  The translation of
a TAP (eBPF or packet filter) is only present as the outcome of removing it.
-/

namespace Arcbox.TapNet

open Foundation

abbrev Ipv4 := BitVec 32

inductive TapNetError where
  | network (message : String)
  | unavailable (message : String)
  | wrongState (id expected actual : String)
  | io (message : String)
  deriving DecidableEq, Repr

def octet (ip : Ipv4) (i : Nat) : Nat := (ip.toNat / 256 ^ (3 - i)) % 256

def dotted (ip : Ipv4) : String :=
  toString (octet ip 0) ++ "." ++ toString (octet ip 1) ++ "." ++ toString (octet ip 2) ++ "." ++
    toString (octet ip 3)

/-- The last two octets, with a delimiter. -/
def tapNameFromIp (ip : Ipv4) : String :=
  "vmtap" ++ toString (octet ip 2) ++ "-" ++ toString (octet ip 3)

structure Library where
  hash : String → BitVec 64
  isUuid : String → Bool

def hexDigit (n : Nat) : Char := "0123456789abcdef".toList.getD n '0'

def hexByte (b : BitVec 64) : List Char := [hexDigit (b.toNat / 16), hexDigit (b.toNat % 16)]

/-- The guest MAC of `vm_id`: deterministic, locally administered, unicast. -/
def macFromVmId (lib : Library) (vmId : String) : String :=
  let h := lib.hash vmId
  let bytes := [0x02#64 ||| ((h >>> 40) &&& 0xfe#64), (h >>> 32) &&& 0xff#64,
    (h >>> 24) &&& 0xff#64, (h >>> 16) &&& 0xff#64, (h >>> 8) &&& 0xff#64, h &&& 0xff#64]
  String.ofList (List.intercalate [':'] (bytes.map hexByte))

structure NetworkAllocation where
  tapName : String
  ipAddress : Ipv4
  prefixLen : Nat
  gateway : Ipv4
  macAddress : String
  dnsServers : List String
  cleanupToken : String
  deriving DecidableEq

/-- A subnet: its base as configured and the length of its mask, which `new` accepts only
between 1 and 30. -/
structure Subnet where
  base : Ipv4
  prefixLen : Nat
  gateway : Ipv4
  in_range : 1 ≤ prefixLen ∧ prefixLen ≤ 30

namespace Subnet

variable (n : Subnet)

def mask : Ipv4 := ~~~((1#32 <<< (32 - n.prefixLen)) - 1)

/-- The base with its host bits masked away. -/
def network : Ipv4 := n.base &&& n.mask

/-- The last offset that is neither the network nor the broadcast address. -/
def hostMax : Ipv4 := (1#32 <<< (32 - n.prefixLen)) - 2

end Subnet

/-- `VmId::new`: 1 to 64 bytes, each an ASCII letter, a digit or a dash. -/
def validateId (id : String) : Except TapNetError Unit :=
  if id.utf8ByteSize = 0 then .error (.network "invalid spec: vm id must not be empty")
  else if 64 < id.utf8ByteSize then
    .error (.network ("invalid spec: vm id `" ++ id ++ "` exceeds 64 characters"))
  else
    match id.toList.find? fun c => !(c.isAlphanum || c == '-') with
    | some bad =>
      .error (.network ("invalid spec: vm id `" ++ id ++ "` contains `" ++ bad.toString ++
        "`; allowed: A-Z a-z 0-9 -"))
    | none => .ok ()

variable (lib : Library) (n : Subnet)

/-- Whether `allocation` is one this network could have written for `id`. -/
def validateAllocation (id : String) (a : NetworkAllocation) : Except TapNetError Unit :=
  if a.ipAddress &&& n.mask ≠ n.network ∨ a.ipAddress ≤ n.network + 1 ∨ a.ipAddress = n.gateway ∨
      a.ipAddress = n.network ||| ~~~n.mask then
    .error (.network ("sandbox network record " ++ id ++ " has non-allocatable IP " ++
      dotted a.ipAddress))
  else if a.prefixLen ≠ n.prefixLen ∨ a.gateway ≠ n.gateway ∨
      a.tapName ≠ tapNameFromIp a.ipAddress ∨ a.macAddress ≠ macFromVmId lib id then
    .error (.network ("sandbox network record " ++ id ++
      " metadata does not match the current network"))
  else .ok ()

/-! ## The ledger directory -/

/-- The contents of a marker. -/
structure NetworkQuarantine where
  id : String
  allocation : NetworkAllocation
  deriving DecidableEq

/-- An entry of the directory; `marker` is what its bytes decode to. -/
structure LedgerFile where
  isFile : Bool
  marker : Option NetworkQuarantine
  deriving DecidableEq

/-- The directory, by file stem and extension. -/
abbrev Ledger := Table (String × Option String) LedgerFile

/-- What a durable change of the directory comes to: done, refused with nothing changed, or
visible with its sync failed. -/
inductive IoOutcome where
  | done
  | refused (error : TapNetError)
  | uncertain (error : TapNetError)
  deriving DecidableEq

def markerPath (id : String) : String × Option String := (id, some "json")

def writeQuarantine (out : IoOutcome) (dir : Ledger) (id : String) (a : NetworkAllocation) :
    Except TapNetError Unit × Ledger :=
  match validateId id with
  | .error e => (.error e, dir)
  | .ok () =>
    match out with
    | .done => (.ok (), dir.insert (markerPath id) ⟨true, some ⟨id, a⟩⟩)
    | .refused e => (.error e, dir)
    | .uncertain e => (.error e, dir.insert (markerPath id) ⟨true, some ⟨id, a⟩⟩)

/-- A marker already gone counts as removed. -/
def removeQuarantine (out : IoOutcome) (dir : Ledger) (id : String) :
    Except TapNetError Unit × Ledger :=
  match out with
  | .done => (.ok (), dir.erase (markerPath id))
  | .refused e => (.error e, dir)
  | .uncertain e => (.error e, dir.erase (markerPath id))

def checkMarker (stem : String) (m : NetworkQuarantine) : Except TapNetError Unit :=
  match validateId m.id with
  | .error e => .error e
  | .ok () =>
    if lib.isUuid m.allocation.cleanupToken = false then
      .error (.network ("sandbox network quarantine " ++ m.id ++ " has an invalid cleanup token"))
    else
      match validateAllocation lib n m.id m.allocation with
      | .error e => .error e
      | .ok () =>
        if stem ≠ m.id then
          .error (.network ("sandbox network quarantine filename does not match " ++ m.id))
        else .ok ()

/-- What one ledger load found. -/
structure LoadedQuarantines where
  pending : Table String NetworkAllocation
  held : Finset Ipv4
  tokens : Finset String

/-- One directory entry of the load. -/
def loadFile (path : String × Option String) (f : LedgerFile) (l : LoadedQuarantines) :
    Except TapNetError LoadedQuarantines :=
  if f.isFile = false ∨ path.2 ≠ some "json" then .ok l
  else
    match f.marker with
    -- a marker that does not decode names nothing, so nothing is held
    | none => .ok l
    | some m =>
      match checkMarker lib n path.1 m with
      | .error _ => .ok { l with held := insert m.allocation.ipAddress l.held }
      | .ok () =>
        if m.allocation.cleanupToken ∈ l.tokens then
          .error (.network ("duplicate sandbox network quarantine token for " ++ m.id))
        else if (l.pending.lookup m.id).isSome then
          .error (.network ("duplicate sandbox network quarantine " ++ m.id))
        else
          .ok { l with
            pending := l.pending.insert m.id m.allocation
            tokens := insert m.allocation.cleanupToken l.tokens }

def loadLoop (lib : Library) (n : Subnet) :
    List (Sigma fun _ : String × Option String => LedgerFile) → LoadedQuarantines →
      Except TapNetError LoadedQuarantines
  | [], l => .ok l
  | e :: rest, l =>
    match loadFile lib n e.1 e.2 l with
    | .error e => .error e
    | .ok l => loadLoop lib n rest l

def loadQuarantines (dir : Ledger) :
    Except TapNetError LoadedQuarantines := loadLoop lib n dir.entries ⟨∅, ∅, ∅⟩

/-! ## The manager -/

structure TapNetwork where
  subnet : Subnet
  dns : List String
  allocated : Finset Ipv4
  quarantined : Table String NetworkAllocation
  /-- Whether a ledger directory is kept. -/
  quarantineDir : Bool
  startupBarrier : Bool
  startupToken : String
  startupHostCleaned : Bool
  startupReconciled : Bool

/-- The configuration of a manager; `token` is the fresh token of its process generation. -/
structure Config where
  base : Ipv4
  prefixLen : Nat
  gateway : Ipv4
  dns : List String
  quarantineDir : Bool
  token : String

def takePending : List (Sigma fun _ : String => NetworkAllocation) → Finset Ipv4 →
    Except TapNetError (Finset Ipv4)
  | [], allocated => .ok allocated
  | ⟨_, a⟩ :: rest, allocated =>
    if a.ipAddress ∈ allocated then
      .error (.network ("duplicate quarantined sandbox IP " ++ dotted a.ipAddress))
    else takePending rest (insert a.ipAddress allocated)

/-- `new_inner`; `opened` is an I/O failure met while opening the ledger.  The second
component is the set of addresses held for markers that cannot be acted on. -/
def TapNetwork.new (c : Config) (opened : Except TapNetError Unit) (dir : Ledger) :
    Except TapNetError (TapNetwork × Finset Ipv4) :=
  if hrange : 1 ≤ c.prefixLen ∧ c.prefixLen ≤ 30 then
    let subnet : Subnet := ⟨c.base, c.prefixLen, c.gateway, hrange⟩
    if c.quarantineDir = false then
      .ok (⟨subnet, c.dns, ∅, ∅, false, false, "", true, true⟩, ∅)
    else
      match opened with
      | .error e => .error e
      | .ok () =>
        match loadQuarantines lib subnet dir with
        | .error e => .error e
        | .ok l =>
          match takePending l.pending.entries ∅ with
          | .error e => .error e
          | .ok allocated =>
            .ok (⟨subnet, c.dns, allocated ∪ l.held, l.pending, true, true, c.token, false, false⟩,
              l.held)
  else
    .error (.network ("prefix length " ++ toString c.prefixLen ++ " out of range 1–30"))

namespace TapNetwork

variable (t : TapNetwork)

/-- The first free address among the next `count` offsets. -/
def scan (allocated : Finset Ipv4) (network : Ipv4) : Nat → Ipv4 → Option Ipv4
  | 0, _ => none
  | count + 1, offset =>
    if network + offset ∈ allocated then scan allocated network count (offset + 1)
    else some (network + offset)

/-- Offset 0 is the network address and 1 the gateway; the search starts at 2. -/
def nextIp : Except TapNetError Ipv4 × TapNetwork :=
  match scan t.allocated t.subnet.network (t.subnet.hostMax.toNat - 1) 2 with
  | some ip => (.ok ip, { t with allocated := insert ip t.allocated })
  | none => (.error (.network "IP pool exhausted"), t)

def ensureStartupCleanupComplete : Except TapNetError Unit :=
  if t.startupBarrier then
    .error (.unavailable "sandbox startup cleanup is awaiting host finalization")
  else .ok ()

/-- `token` is the fresh cleanup token of the allocation. -/
def reserve (lib : Library) (vmId token : String) :
    Except TapNetError NetworkAllocation × TapNetwork :=
  match validateId vmId with
  | .error e => (.error e, t)
  | .ok () =>
    match t.ensureStartupCleanupComplete with
    | .error e => (.error e, t)
    | .ok () =>
      if (t.quarantined.lookup vmId).isSome then
        (.error (.unavailable ("sandbox " ++ vmId ++
          " network cleanup is awaiting host finalization")), t)
      else
        match t.nextIp with
        | (.error e, t) => (.error e, t)
        | (.ok ip, t) =>
          (.ok ⟨tapNameFromIp ip, ip, t.subnet.prefixLen, t.subnet.gateway, macFromVmId lib vmId,
            t.dns, token⟩, t)

/-- `readopted` is what re-establishing the host state comes to. -/
def adopt (lib : Library) (readopted : Except TapNetError Unit) (vmId : String)
    (a : NetworkAllocation) : Except TapNetError Unit × TapNetwork :=
  match validateId vmId with
  | .error e => (.error e, t)
  | .ok () =>
    match validateAllocation lib t.subnet vmId a with
    | .error e => (.error e, t)
    | .ok () =>
      if (t.quarantined.lookup vmId).isSome then
        (.error (.wrongState vmId "no pending cleanup" "cleanup awaiting host finalization"), t)
      else if a.ipAddress ∈ t.allocated then
        (.error (.network ("sandbox " ++ vmId ++ " cannot adopt " ++ dotted a.ipAddress ++
          ": the address is already allocated")), t)
      else
        match readopted with
        | .ok () => (.ok (), { t with allocated := insert a.ipAddress t.allocated })
        -- a refused adoption gives the address back
        | .error e =>
          (.error e, { t with allocated := (insert a.ipAddress t.allocated).erase a.ipAddress })

def holdAddress (ip : Ipv4) : TapNetwork := { t with allocated := insert ip t.allocated }

/-- What tearing a TAP down comes to. -/
structure Teardown where
  deactivated : Except TapNetError Unit
  destroyed : Except TapNetError Unit

/-- The address goes back to the pool whatever the teardown comes to. -/
def releaseChecked (down : Teardown) (a : NetworkAllocation) :
    Except TapNetError Unit × TapNetwork :=
  (match down.deactivated with
    | .error e => .error e
    | .ok () => down.destroyed,
    { t with allocated := t.allocated.erase a.ipAddress })

def sameAllocation (existing requested : NetworkAllocation) : Bool :=
  if existing = requested then true
  else if requested.cleanupToken.isEmpty then
    existing = { requested with cleanupToken := existing.cleanupToken }
  else false

/-- The part of `quarantine_checked` that makes the record durable; `token` is the fresh
token of an allocation that has none. -/
def quarantineRecord (out : IoOutcome) (dir : Ledger) (id : String) (a : NetworkAllocation)
    (token : String) : Except TapNetError Unit × TapNetwork × Ledger :=
  match t.quarantined.lookup id with
  | some existing =>
    if sameAllocation existing a then (.ok (), t, dir)
    else
      (.error (.unavailable ("sandbox " ++ id ++ " has a different quarantined network allocation")),
        t, dir)
  | none =>
    let stored := if a.cleanupToken.isEmpty then { a with cleanupToken := token } else a
    match writeQuarantine out dir id stored with
    | (.error e, dir) => (.error e, t, dir)
    | (.ok (), dir) =>
      (.ok (), { t with
        quarantined := t.quarantined.insert id stored
        allocated := insert a.ipAddress t.allocated }, dir)

/-- Deactivate a TAP and keep its address until host cleanup is confirmed. -/
def quarantineChecked (out : IoOutcome) (down : Teardown) (dir : Ledger) (id : String)
    (a : NetworkAllocation) (token : String) : Except TapNetError Unit × TapNetwork × Ledger :=
  if t.quarantineDir = false then
    let (result, t) := t.releaseChecked down a
    (result, t, dir)
  else
    match t.quarantineRecord out dir id a token with
    | (.error e, t, dir) => (.error e, t, dir)
    | (.ok (), t, dir) =>
      (match down.deactivated with
        | .error e => .error e
        | .ok () => down.destroyed,
        t, dir)

def validateQuarantine (id token : String) : Except TapNetError NetworkAllocation :=
  match t.quarantined.lookup id with
  | none => .error (.wrongState id "cleanup awaiting host finalization" "no pending cleanup")
  | some a =>
    if a.cleanupToken = token then .ok a
    else .error (.wrongState id ("cleanup token " ++ a.cleanupToken) token)

/-- Recycle one exact quarantined generation.  The second part is the TAP whose destruction is
asked of the kernel, which comes to `destroyed`. -/
def finalizeQuarantine (destroyed : Except TapNetError Unit) (out : IoOutcome) (dir : Ledger)
    (id token : String) : Except TapNetError Unit × Option String × TapNetwork × Ledger :=
  match t.validateQuarantine id token with
  | .error e => (.error e, none, t, dir)
  | .ok a =>
    match destroyed with
    | .error e => (.error e, some a.tapName, t, dir)
    | .ok () =>
      match (if t.quarantineDir then removeQuarantine out dir id else (.ok (), dir)) with
      | (.error e, dir) => (.error e, some a.tapName, t, dir)
      | (.ok (), dir) =>
        let quarantined := t.quarantined.erase id
        (.ok (), some a.tapName, { t with
          quarantined := quarantined
          allocated := t.allocated.erase a.ipAddress
          startupBarrier :=
            t.startupBarrier && !(quarantined.entries.isEmpty && t.startupHostCleaned) }, dir)

def markReconciled : TapNetwork := { t with startupReconciled := true }

def validateStartupCleanup (token : String) : Except TapNetError Unit :=
  if t.startupReconciled = false then
    .error (.unavailable "sandbox startup cleanup is awaiting the owner's durable-state replay")
  else if t.startupBarrier = false ∨ t.startupHostCleaned = true ∨ token ≠ t.startupToken then
    .error (.wrongState "startup" "current sandbox startup cleanup generation" token)
  else .ok ()

/-- Open the allocation gate, refused while a quarantine is pending. -/
def finalizeStartupCleanup (token : String) : Except TapNetError Unit × TapNetwork :=
  match t.validateStartupCleanup token with
  | .error e => (.error e, t)
  | .ok () =>
    if t.quarantined.entries.isEmpty = false then
      (.error (.unavailable "sandbox cleanup generations remain pending"), t)
    else (.ok (), { t with startupHostCleaned := true, startupBarrier := false })

/-! ## What the calls come to -/

theorem scan_free {allocated : Finset Ipv4} {network ip : Ipv4} {count : Nat} {offset : Ipv4}
    (h : scan allocated network count offset = some ip) : ip ∉ allocated := by
  induction count generalizing offset with
  | zero => cases h
  | succ count ih =>
    unfold scan at h
    split at h
    · exact ih h
    next hfree =>
      cases h
      exact hfree

variable {t : TapNetwork}

theorem reserve_cases (lib : Library) (vm token : String) :
    (∃ e, t.reserve lib vm token = (.error e, t)) ∨
      ∃ a : NetworkAllocation, t.startupBarrier = false ∧ a.ipAddress ∉ t.allocated ∧
        t.reserve lib vm token =
          (.ok a, { t with allocated := insert a.ipAddress t.allocated }) := by
  unfold reserve
  cases validateId vm with
  | error e => exact .inl ⟨e, rfl⟩
  | ok =>
    unfold ensureStartupCleanupComplete
    by_cases hgate : t.startupBarrier = true
    · rw [if_pos hgate]
      exact .inl ⟨_, rfl⟩
    rw [if_neg hgate]
    dsimp only
    split
    · exact .inl ⟨_, rfl⟩
    unfold nextIp
    split
    next heq =>
      split at heq
      · cases heq
      · cases heq
        exact .inl ⟨_, rfl⟩
    rename_i heq
    split at heq
    next hscan =>
      cases heq
      exact .inr ⟨_, Bool.eq_false_iff.mpr hgate, scan_free hscan, rfl⟩
    · cases heq

theorem adopt_cases (lib : Library) (readopted : Except TapNetError Unit) (vm : String)
    (a : NetworkAllocation) :
    (∃ e, t.adopt lib readopted vm a = (.error e, t)) ∨
      a.ipAddress ∉ t.allocated ∧ t.adopt lib readopted vm a =
        (.ok (), { t with allocated := insert a.ipAddress t.allocated }) := by
  unfold adopt
  cases validateId vm with
  | error e => exact .inl ⟨e, rfl⟩
  | ok =>
    cases validateAllocation lib t.subnet vm a with
    | error e => exact .inl ⟨e, rfl⟩
    | ok =>
      dsimp only
      split
      · exact .inl ⟨_, rfl⟩
      split
      · exact .inl ⟨_, rfl⟩
      rename_i hfree
      cases readopted with
      | ok => exact .inr ⟨hfree, rfl⟩
      | error e =>
        refine .inl ⟨e, ?_⟩
        rw [Finset.erase_insert hfree]

theorem sameAllocation_ip {existing requested : NetworkAllocation}
    (h : sameAllocation existing requested = true) : existing.ipAddress = requested.ipAddress := by
  unfold sameAllocation at h
  split at h
  next heq =>
    rw [heq]
  · split at h
    · rw [of_decide_eq_true h]
    · cases h

/-- The marker a quarantine writes, for some allocation at the address of `a`. -/
def Writes (dir dir' : Ledger) (id : String) (a x : NetworkAllocation) : Prop :=
  x.ipAddress = a.ipAddress ∧ dir' = dir.insert (markerPath id) ⟨true, some ⟨id, x⟩⟩

variable (out : IoOutcome) (dir : Ledger)

theorem writeQuarantine_cases (id : String) (x : NetworkAllocation) :
    (∃ e, writeQuarantine out dir id x = (.error e, dir)) ∨
      ∃ r, writeQuarantine out dir id x = (r, dir.insert (markerPath id) ⟨true, some ⟨id, x⟩⟩) := by
  unfold writeQuarantine
  cases validateId id with
  | error e => exact .inl ⟨e, rfl⟩
  | ok =>
    cases out with
    | done => exact .inr ⟨_, rfl⟩
    | refused e => exact .inl ⟨e, rfl⟩
    | uncertain e => exact .inr ⟨_, rfl⟩

/-- A record is refused, refused with its marker left behind, found, or made. -/
theorem quarantineRecord_cases (id : String) (a : NetworkAllocation) (token : String) :
    (∃ e, t.quarantineRecord out dir id a token = (.error e, t, dir)) ∨
    (∃ e x dir', t.quarantined.lookup id = none ∧ Writes dir dir' id a x ∧
      t.quarantineRecord out dir id a token = (.error e, t, dir')) ∨
    (∃ existing, t.quarantined.lookup id = some existing ∧
      existing.ipAddress = a.ipAddress ∧
      t.quarantineRecord out dir id a token = (.ok (), t, dir)) ∨
    (∃ x dir', t.quarantined.lookup id = none ∧ Writes dir dir' id a x ∧
      t.quarantineRecord out dir id a token =
        (.ok (), { t with
          quarantined := t.quarantined.insert id x
          allocated := insert a.ipAddress t.allocated }, dir')) := by
  unfold quarantineRecord
  cases hlookup : t.quarantined.lookup id with
  | some existing =>
    dsimp only
    by_cases hsame : sameAllocation existing a = true
    · rw [if_pos hsame]
      exact .inr (.inr (.inl ⟨existing, rfl, sameAllocation_ip hsame, rfl⟩))
    · rw [if_neg hsame]
      exact .inl ⟨_, rfl⟩
  | none =>
    dsimp only
    have hip : (if a.cleanupToken.isEmpty then { a with cleanupToken := token } else a).ipAddress
        = a.ipAddress := by
      split <;> rfl
    generalize (if a.cleanupToken.isEmpty then { a with cleanupToken := token } else a) = x at hip ⊢
    obtain ⟨e, heq⟩ | ⟨r, heq⟩ := writeQuarantine_cases out dir id x
    · rw [heq]
      exact .inl ⟨e, rfl⟩
    rw [heq]
    cases r with
    | error e => exact .inr (.inl ⟨e, x, _, rfl, ⟨hip, rfl⟩, rfl⟩)
    | ok => exact .inr (.inr (.inr ⟨x, _, rfl, ⟨hip, rfl⟩, rfl⟩))

theorem removeQuarantine_cases (id : String) :
    (∃ e, removeQuarantine out dir id = (.error e, dir)) ∨
      ∃ r, removeQuarantine out dir id = (r, dir.erase (markerPath id)) := by
  cases out with
  | done => exact .inr ⟨_, rfl⟩
  | refused e => exact .inl ⟨e, rfl⟩
  | uncertain e => exact .inr ⟨_, rfl⟩

/-- The pending quarantine of `id`, if its token is `token`. -/
def generation (t : TapNetwork) (id token : String) : Option NetworkAllocation :=
  (t.quarantined.lookup id).filter (·.cleanupToken = token)

/-- `validate_quarantine` accepts the generation that the token names, and no other call. -/
theorem validateQuarantine_cases (id token : String) :
    (∃ e, t.validateQuarantine id token = .error e) ∧ t.generation id token = none ∨
      ∃ a, t.validateQuarantine id token = .ok a ∧ t.generation id token = some a ∧
        t.quarantined.lookup id = some a := by
  unfold validateQuarantine generation
  cases t.quarantined.lookup id with
  | none => exact .inl ⟨⟨_, rfl⟩, rfl⟩
  | some a =>
    by_cases htoken : a.cleanupToken = token
    · refine .inr ⟨a, if_pos htoken, ?_, rfl⟩
      rw [Option.filter_some, if_pos (decide_eq_true htoken)]
    · refine .inl ⟨⟨_, if_neg htoken⟩, ?_⟩
      rw [Option.filter_some, if_neg (by simpa using htoken)]

/-- The manager once a generation is recycled. -/
def recycled (t : TapNetwork) (id : String) (a : NetworkAllocation) : TapNetwork :=
  { t with
    quarantined := t.quarantined.erase id
    allocated := t.allocated.erase a.ipAddress
    startupBarrier := t.startupBarrier &&
      !((t.quarantined.erase id).entries.isEmpty && t.startupHostCleaned) }

theorem finalizeQuarantine_refused (destroyed : Except TapNetError Unit) (out : IoOutcome)
    (dir : Ledger) {id token : String} {e : TapNetError}
    (h : t.validateQuarantine id token = .error e) :
    t.finalizeQuarantine destroyed out dir id token = (.error e, none, t, dir) := by
  unfold finalizeQuarantine
  rw [h]

/-- A known generation is recycled with its marker, or only its marker may be gone. -/
theorem finalizeQuarantine_cases (destroyed : Except TapNetError Unit) (out : IoOutcome)
    (dir : Ledger) {id token : String} {a : NetworkAllocation}
    (h : t.validateQuarantine id token = .ok a) :
    ∃ r t' dir', t.finalizeQuarantine destroyed out dir id token = (r, some a.tapName, t', dir') ∧
      (dir' = dir ∨ dir' = dir.erase (markerPath id)) ∧
      (t' = t ∨ t' = t.recycled id a ∧
        (t.quarantineDir = true → dir' = dir.erase (markerPath id))) := by
  unfold finalizeQuarantine
  rw [h]
  cases destroyed with
  | error e => exact ⟨_, _, _, rfl, .inl rfl, .inl rfl⟩
  | ok =>
    by_cases hdir : t.quarantineDir = true
    · rw [if_pos hdir]
      obtain ⟨e, heq⟩ | ⟨r, heq⟩ := removeQuarantine_cases out dir id
      · rw [heq]
        exact ⟨_, _, _, rfl, .inl rfl, .inl rfl⟩
      rw [heq]
      cases r with
      | error e => exact ⟨_, _, _, rfl, .inr rfl, .inl rfl⟩
      | ok => exact ⟨_, _, _, rfl, .inr rfl, .inr ⟨rfl, fun _ => rfl⟩⟩
    · rw [if_neg hdir]
      exact ⟨_, _, _, rfl, .inl rfl, .inr ⟨rfl, fun hdir' => absurd hdir' hdir⟩⟩

/-- The gate is opened only after the replay is declared complete. -/
theorem finalizeStartupCleanup_cases (token : String) :
    (∃ e, t.finalizeStartupCleanup token = (.error e, t)) ∨
      t.startupReconciled = true ∧ t.finalizeStartupCleanup token =
        (.ok (), { t with startupHostCleaned := true, startupBarrier := false }) := by
  unfold finalizeStartupCleanup validateStartupCleanup
  by_cases hrec : t.startupReconciled = false
  · rw [if_pos hrec]
    exact .inl ⟨_, rfl⟩
  rw [if_neg hrec]
  split
  · exact .inl ⟨_, rfl⟩
  · split
    · exact .inl ⟨_, rfl⟩
    · exact .inr ⟨(Bool.not_eq_false _).mp hrec, rfl⟩

end TapNetwork

/-! ## What a load finds -/

/-- The addresses a load withholds. -/
def LoadedQuarantines.Withholds (l : LoadedQuarantines) (ip : Ipv4) : Prop :=
  ip ∈ l.held ∨ ∃ id a, l.pending.lookup id = some a ∧ a.ipAddress = ip

section Load

variable {lib : Library} {n : Subnet}

theorem checkMarker_stem {stem : String} {m : NetworkQuarantine}
    (h : checkMarker lib n stem m = .ok ()) : stem = m.id := by
  unfold checkMarker at h
  split at h
  · cases h
  split at h
  · cases h
  split at h
  · cases h
  split at h
  · cases h
  next hstem =>
    exact not_not.mp hstem

variable {l l' : LoadedQuarantines}

/-- What reading the entries does: what was withheld stays so, the address of a marker
becomes so, and a pending record that is added is the marker of that name. -/
structure Loads (entries : List (Sigma fun _ : String × Option String => LedgerFile))
    (l l' : LoadedQuarantines) : Prop where
  keeps : ∀ ip, l.Withholds ip → l'.Withholds ip
  covers : ∀ id m, ⟨markerPath id, ⟨true, some m⟩⟩ ∈ entries → l'.Withholds m.allocation.ipAddress
  pending : ∀ id a, l'.pending.lookup id = some a →
    l.pending.lookup id = some a ∨ ⟨markerPath id, ⟨true, some ⟨id, a⟩⟩⟩ ∈ entries

theorem loads_loadFile {path : String × Option String} {f : LedgerFile}
    (h : loadFile lib n path f l = .ok l') : Loads [⟨path, f⟩] l l' := by
  unfold loadFile at h
  split at h
  next hskip =>
    cases h
    refine ⟨fun _ hip => hip, fun id m hmem => ?_, fun _ _ hlookup => .inl hlookup⟩
    cases List.mem_singleton.mp hmem
    rcases hskip with hskip | hskip
    · cases hskip
    · exact absurd rfl hskip
  rename_i hskip
  obtain ⟨hfile, hext⟩ := not_or.mp hskip
  cases hm : f.marker with
  | none =>
    rw [hm] at h
    cases h
    refine ⟨fun _ hip => hip, fun id m hmem => ?_, fun _ _ hlookup => .inl hlookup⟩
    cases List.mem_singleton.mp hmem
    cases hm
  | some m =>
    rw [hm] at h
    dsimp only at h
    cases hcheck : checkMarker lib n path.1 m with
    | error e =>
      rw [hcheck] at h
      cases h
      refine ⟨fun ip hip => ?_, fun id m' hmem => ?_, fun _ _ hlookup => .inl hlookup⟩
      · rcases hip with hheld | hpending
        · exact .inl (Finset.mem_insert_of_mem hheld)
        · exact .inr hpending
      · cases List.mem_singleton.mp hmem
        cases hm
        exact .inl (Finset.mem_insert_self _ _)
    | ok =>
      rw [hcheck] at h
      dsimp only at h
      split at h
      · cases h
      split at h
      · cases h
      rename_i hfresh
      cases h
      refine ⟨fun ip hip => ?_, fun id m' hmem => ?_, fun id a hlookup => ?_⟩
      · rcases hip with hheld | ⟨id, a, hlookup, hip⟩
        · exact .inl hheld
        refine .inr ⟨id, a, ?_, hip⟩
        have hne : id ≠ m.id := by
          rintro rfl
          rw [hlookup] at hfresh
          exact hfresh rfl
        exact (AList.lookup_insert_ne hne).trans hlookup
      · cases List.mem_singleton.mp hmem
        cases hm
        exact .inr ⟨_, _, AList.lookup_insert _, rfl⟩
      rcases Table.of_lookup_insert hlookup with ⟨rfl, rfl⟩ | ⟨heq, hlookup⟩
      · have hpath : path = markerPath m.id :=
          Prod.ext (checkMarker_stem hcheck) (not_not.mp hext)
        obtain ⟨isFile, marker⟩ := f
        cases hm
        have hregular : isFile = true := (Bool.not_eq_false _).mp hfile
        rw [hpath, hregular]
        exact .inr List.mem_cons_self
      · exact .inl hlookup

theorem loads_loadLoop {entries : List (Sigma fun _ : String × Option String => LedgerFile)}
    (h : loadLoop lib n entries l = .ok l') : Loads entries l l' := by
  induction entries generalizing l with
  | nil =>
    cases h
    exact ⟨fun _ hip => hip, nofun, fun _ _ hlookup => .inl hlookup⟩
  | cons e entries ih =>
    unfold loadLoop at h
    split at h
    · cases h
    rename_i l₁ hfile
    have hone := loads_loadFile hfile
    have hrest := ih h
    refine ⟨fun ip hip => hrest.keeps ip (hone.keeps ip hip), fun id m hmem => ?_,
      fun id a hlookup => ?_⟩
    · rcases List.mem_cons.mp hmem with rfl | hmem
      · exact hrest.keeps _ (hone.covers id m List.mem_cons_self)
      · exact hrest.covers id m hmem
    rcases hrest.pending id a hlookup with hl₁ | hmem
    · refine (hone.pending id a hl₁).imp_right fun hmem => ?_
      rw [List.mem_singleton.mp hmem]
      exact List.mem_cons_self
    · exact .inr (List.mem_cons_of_mem _ hmem)

theorem takePending_covers {entries : List (Sigma fun _ : String => NetworkAllocation)}
    {start allocated : Finset Ipv4} (h : takePending entries start = .ok allocated) :
    start ⊆ allocated ∧ ∀ e ∈ entries, e.2.ipAddress ∈ allocated := by
  induction entries generalizing start with
  | nil =>
    cases h
    exact ⟨Finset.Subset.refl _, nofun⟩
  | cons e entries ih =>
    unfold takePending at h
    split at h
    · cases h
    obtain ⟨hstart, hrest⟩ := ih h
    refine ⟨fun ip hip => hstart (Finset.mem_insert_of_mem hip), fun e' he' => ?_⟩
    rcases List.mem_cons.mp he' with rfl | he'
    · exact hstart (Finset.mem_insert_self _ _)
    · exact hrest e' he'

/-- A new manager with a ledger withholds every address a marker names, and its pending
quarantines are markers of the directory. -/
theorem new_cases {c : Config} {opened : Except TapNetError Unit} {dir : Ledger} {t : TapNetwork}
    {held : Finset Ipv4} (h : TapNetwork.new lib c opened dir = .ok (t, held)) :
    held ⊆ t.allocated ∧
    (∀ id a, t.quarantined.lookup id = some a → t.quarantineDir = true ∧
      a.ipAddress ∈ t.allocated ∧ dir.lookup (markerPath id) = some ⟨true, some ⟨id, a⟩⟩) ∧
    (c.quarantineDir = true → t.startupBarrier = true ∧ t.startupHostCleaned = false ∧
      t.startupReconciled = false ∧
      ∀ id m, dir.lookup (markerPath id) = some ⟨true, some m⟩ →
        m.allocation.ipAddress ∈ t.allocated) ∧
    (c.quarantineDir = false → t.startupReconciled = true) := by
  unfold TapNetwork.new at h
  split at h
  · dsimp only at h
    split at h
    next hdir =>
      cases h
      refine ⟨Finset.Subset.refl _, nofun, fun hdir' => ?_,
        fun _ => rfl⟩
      cases hdir.symm.trans hdir'
    rename_i hdir
    split at h
    · cases h
    split at h
    · cases h
    rename_i l hload
    split at h
    · cases h
    rename_i allocated htake
    cases h
    obtain ⟨-, htaken⟩ := takePending_covers htake
    have hpending : ∀ id a, l.pending.lookup id = some a →
        a.ipAddress ∈ allocated ∪ l.held := fun id a hlookup =>
      Finset.mem_union_left _ (htaken ⟨id, a⟩ (Table.lookup_eq_some_iff.mp hlookup))
    refine ⟨Finset.subset_union_right, fun id a hlookup => ⟨rfl, hpending id a hlookup, ?_⟩,
      fun _ => ⟨rfl, rfl, rfl, fun id m hmarker => ?_⟩, fun hdir' => absurd hdir' hdir⟩
    · rcases (loads_loadLoop hload).pending id a hlookup with hnone | hmem
      · cases hnone
      · exact Table.lookup_eq_some_iff.mpr hmem
    have hmem := Table.lookup_eq_some_iff.mp hmarker
    rcases (loads_loadLoop hload).covers id m hmem with hheld | ⟨id', a, hl, hip⟩
    · exact Finset.mem_union_right _ hheld
    · rw [← hip]
      exact hpending id' a hl
  · cases h

end Load

end Arcbox.TapNet

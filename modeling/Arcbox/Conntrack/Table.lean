import Arcbox.Foundation.Table
import Arcbox.Packet.Checksum

set_option autoImplicit false

/-!
# Conntrack: the NAT connection table

`ConnTrackTable` of `arcbox-conntrack` (`conntrack.rs`).  Timestamps are passed in;
`EPOCH.elapsed()` at a call is an argument of the operation.  An entry behind an
`Arc` is named by its `id`, and the one atomic field the table reads, `last_seen`,
is kept by `id`, since every holder of the `Arc` may `touch` it.  Unsigned
arithmetic wraps, as in a release build; `allocate` panics on an empty range, which
makes the operation `none`.
-/

namespace Arcbox.Conntrack

open Foundation Packet

/-- `SocketAddrV4`. -/
structure SocketAddrV4 where
  ip : Ipv4Addr
  port : BitVec 16
  deriving DecidableEq, Repr

/-- `ConnState`. -/
inductive ConnState where
  | new
  | established
  | finWait
  | closing
  | timedOut
  deriving DecidableEq, Repr

/-- `ConnTrackKey`. -/
structure ConnTrackKey where
  srcIp : Ipv4Addr
  dstIp : Ipv4Addr
  srcPort : BitVec 16
  dstPort : BitVec 16
  protocol : UInt8
  deriving DecidableEq, Repr

/-- `ConnTrackKey::fast_hash`: FNV-1a over the octets, the ports and the protocol. -/
def ConnTrackKey.fastHash (key : ConnTrackKey) : BitVec 64 :=
  let mix (hash : BitVec 64) (x : Nat) : BitVec 64 := (hash ^^^ BitVec.ofNat 64 x) * 0x0100000001b3
  ((key.srcIp.octets ++ key.dstIp.octets).map UInt8.toNat
      ++ [key.srcPort.toNat, key.dstPort.toNat, key.protocol.toNat]).foldl mix 0xcbf29ce484222325

/-- The fields of a `ConnTrackEntry` that do not change, and which entry it is. -/
structure ConnTrackEntry where
  id : Nat
  origSrc : SocketAddrV4
  origDst : SocketAddrV4
  natSrc : SocketAddrV4
  natDst : SocketAddrV4
  state : ConnState
  protocol : UInt8
  flags : UInt8
  createdAt : BitVec 32
  deriving DecidableEq, Repr

/-- `ConnTrackEntry::new_snat`. -/
def ConnTrackEntry.newSnat (id : Nat) (origSrc origDst natSrc : SocketAddrV4) (protocol : UInt8)
    (now : BitVec 32) : ConnTrackEntry :=
  ⟨id, origSrc, origDst, natSrc, origDst, .new, protocol, 1, now⟩

/-- `FastCacheEntry`. -/
structure FastCacheEntry where
  keyHash : BitVec 64
  key : ConnTrackKey
  entry : ConnTrackEntry
  deriving DecidableEq, Repr

/-- `FastCacheEntry::new`. -/
def FastCacheEntry.new (key : ConnTrackKey) (entry : ConnTrackEntry) : FastCacheEntry :=
  ⟨key.fastHash, key, entry⟩

/-- `PortAllocator`. -/
structure PortAllocator where
  current : BitVec 32
  start : BitVec 16
  last : BitVec 16
  deriving DecidableEq, Repr

/-- `PortAllocator::new`. -/
def PortAllocator.new (start last : BitVec 16) : PortAllocator := ⟨start.setWidth 32, start, last⟩

/-- `PortAllocator::allocate`. -/
def PortAllocator.allocate (a : PortAllocator) : Option (BitVec 16 × PortAllocator) :=
  let range := (a.last - a.start + 1).setWidth 32
  if range = 0 then none
  else
    let port := a.current
    some (a.start + ((port - a.start.setWidth 32) % range).setWidth 16,
      { a with current := a.current + 1 })

/-- `ConnTrackTable`. -/
structure ConnTrackTable where
  entries : Table ConnTrackKey ConnTrackEntry
  reverse : Table ConnTrackKey ConnTrackKey
  fastCache : List (Option FastCacheEntry)
  fastCacheMask : Nat
  portAlloc : PortAllocator
  externalIp : Ipv4Addr
  timeoutSecs : BitVec 32
  /-- The number of entries ever made. -/
  nextId : Nat
  /-- `last_seen` of the entries. -/
  lastSeen : Nat → BitVec 32

namespace ConnTrackTable

/-- A table with a cache of the next power of two.  Above `2 ^ 63` that power is no `usize`: it
wraps to an empty cache, whose first access panics, so such sizes are not among the arguments. -/
def new (externalIp : Ipv4Addr) (portStart portEnd : BitVec 16) (fastCacheSize : Fin (2 ^ 63 + 1))
    (timeoutSecs : BitVec 32) : ConnTrackTable where
  entries := ∅
  reverse := ∅
  fastCache := List.replicate fastCacheSize.val.nextPowerOfTwo none
  fastCacheMask := fastCacheSize.val.nextPowerOfTwo - 1
  portAlloc := .new portStart portEnd
  externalIp := externalIp
  timeoutSecs := timeoutSecs
  nextId := 0
  lastSeen := fun _ => 0

variable (t : ConnTrackTable) (key : ConnTrackKey)

/-- The cache slot of a key. -/
def cacheIdx : Nat := key.fastHash.toNat &&& t.fastCacheMask

/-- What the cache holds for a key. -/
def cached : Option FastCacheEntry := t.fastCache[t.cacheIdx key]?.join

/-- Fill or empty the cache slot of a key. -/
def setCache (slot : Option FastCacheEntry) : ConnTrackTable :=
  { t with fastCache := t.fastCache.set (t.cacheIdx key) slot }

/-- The part of `lookup` behind the cache. -/
def lookupSlow : ConnTrackTable × Option ConnTrackEntry :=
  match t.entries.lookup key with
  | some entry => (t.setCache key (some (.new key entry)), some entry)
  | none => (t, none)

/-- `lookup`. -/
def lookup : ConnTrackTable × Option ConnTrackEntry :=
  match t.cached key with
  | some ce => if ce.keyHash = key.fastHash ∧ ce.key = key then (t, some ce.entry) else t.lookupSlow key
  | none => t.lookupSlow key

/-- `lookup_reverse`. -/
def lookupReverse (natKey : ConnTrackKey) : ConnTrackTable × Option ConnTrackEntry :=
  match t.reverse.lookup natKey with
  | some origKey => t.lookup origKey
  | none => (t, none)

/-- The key replies to a connection arrive with, when it uses `natPort`. -/
def natKey (natPort : BitVec 16) : ConnTrackKey :=
  ⟨key.dstIp, t.externalIp, key.dstPort, natPort, key.protocol⟩

/-- Enter a new connection into both maps. -/
def enter (entry : ConnTrackEntry) (portAlloc : PortAllocator) (now : BitVec 32) : ConnTrackTable :=
  { t with
    portAlloc := portAlloc
    reverse := t.reverse.insert (t.natKey key entry.natSrc.port) key
    entries := t.entries.insert key entry
    nextId := t.nextId + 1
    lastSeen := fun id => if id = t.nextId then now else t.lastSeen id }

variable (now : BitVec 32)

/-- The part of `get_or_create` after a port was allocated. -/
def create (natPort : BitVec 16) (portAlloc : PortAllocator) : ConnTrackTable × ConnTrackEntry :=
  let entry := ConnTrackEntry.newSnat t.nextId ⟨key.srcIp, key.srcPort⟩ ⟨key.dstIp, key.dstPort⟩
    ⟨t.externalIp, natPort⟩ key.protocol now
  ((t.enter key entry portAlloc now).setCache key (some (.new key entry)), entry)

/-- `get_or_create`. -/
def getOrCreate : Option (ConnTrackTable × ConnTrackEntry) :=
  if (t.entries.lookup key).isSome then
    let (t, entry) := t.lookup key
    entry.map fun entry => (t, entry)
  else t.portAlloc.allocate.map fun (natPort, portAlloc) => t.create key now natPort portAlloc

/-- Invalidate the cache slot of a key, if it holds the key. -/
def invalidate : ConnTrackTable :=
  match t.cached key with
  | some ce => if ce.key = key then t.setCache key none else t
  | none => t

/-- `remove`. -/
def remove : ConnTrackTable :=
  match t.entries.lookup key with
  | some entry =>
      { t with
        entries := t.entries.erase key
        reverse := t.reverse.erase (t.natKey key entry.natSrc.port) }.invalidate key
  | none => t

/-- `ConnTrackEntry::is_expired`. -/
def isExpired (entry : ConnTrackEntry) (now : BitVec 32) : Bool :=
  decide (t.timeoutSecs.toNat < now.toNat - (t.lastSeen entry.id).toNat)

/-- `expire_old`. -/
def expireOld : ConnTrackTable × Nat :=
  let expiredKeys := (t.entries.entries.filter fun e => t.isExpired e.2 now).map Sigma.fst
  (expiredKeys.foldl remove t, expiredKeys.length)

/-- `clear`. -/
def clear : ConnTrackTable :=
  { t with entries := ∅, reverse := ∅, fastCache := t.fastCache.map fun _ => none }

/-- `ConnTrackEntry::touch`, by any holder of the entry. -/
def touch (id : Nat) (now : BitVec 32) : ConnTrackTable :=
  { t with lastSeen := fun i => if i = id then now else t.lastSeen i }

/-! ## Runs -/

/-- The operations. -/
inductive Op where
  | getOrCreate (key : ConnTrackKey) (now : BitVec 32)
  | lookup (key : ConnTrackKey)
  | lookupReverse (natKey : ConnTrackKey)
  | expireOld (now : BitVec 32)
  | remove (key : ConnTrackKey)
  | clear
  | touch (id : Nat) (now : BitVec 32)
  deriving DecidableEq, Repr

def step : Op → Option ConnTrackTable
  | .getOrCreate key now => (t.getOrCreate key now).map Prod.fst
  | .lookup key => some (t.lookup key).1
  | .lookupReverse natKey => some (t.lookupReverse natKey).1
  | .expireOld now => some (t.expireOld now).1
  | .remove key => some (t.remove key)
  | .clear => some t.clear
  | .touch id now => some (t.touch id now)

/-- What one operation of a run did. -/
structure Record where
  before : ConnTrackTable
  op : Op
  after : ConnTrackTable

/-- The records of a run, up to a panic. -/
def run : ConnTrackTable → List Op → List Record
  | _, [] => []
  | t, op :: ops =>
      match t.step op with
      | some t' => ⟨t, op, t'⟩ :: run t' ops
      | none => []

end ConnTrackTable

end Arcbox.Conntrack

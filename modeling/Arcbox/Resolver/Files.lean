import Mathlib.Data.Nat.Digits.Defs

set_option autoImplicit false

/-!
# Resolver leases: the files of the resolver directory

What a lease file says, and the inspection that tells the helper's own files from foreign ones.
A file is trusted only where it is a regular file with one link, written by its owner alone,
without an access list and of at most 256 bytes.
-/

namespace Arcbox.Resolver

abbrev Domain := String

/-! ## Contents -/

inductive ArcboxProfile where
  | production
  | development
deriving DecidableEq, Repr

def ArcboxProfile.asStr : ArcboxProfile → String
  | .production => "production"
  | .development => "development"

/-- The first lines of a resolver file. -/
def contents (port : BitVec 16) : List Char :=
  "# managed by arcbox-helper\nnameserver 127.0.0.1\nport ".toList ++ Nat.toDigits 10 port.toNat ++
    "\nsearch_order 1\ntimeout 5\n".toList

/-- Hexadecimal, in 32 places. -/
def hex32 (nonce : BitVec 128) : List Char := (Nat.toDigits 16 nonce.toNat).leftpad 32 '0'

/-- What a lease file says of its lease. -/
structure Stamp where
  port : BitVec 16
  uid : BitVec 32
  profile : ArcboxProfile
  nonce : BitVec 128
  revision : BitVec 64
  connection : BitVec 64
deriving DecidableEq, Repr

variable (s : Stamp)

def recordText : List Char :=
  contents s.port ++ "# lease ".toList ++ Nat.toDigits 10 s.uid.toNat ++ " ".toList ++
    s.profile.asStr.toList ++ " ".toList ++ hex32 s.nonce ++ " ".toList ++
    Nat.toDigits 10 s.revision.toNat ++ " ".toList ++ Nat.toDigits 10 s.connection.toNat ++
    "\n".toList

/-- The text is plain ASCII. -/
def recordContents : List UInt8 := (recordText s).map fun c => UInt8.ofNat c.toNat

def IsLease (bytes : List UInt8) : Prop := ∃ s, bytes = recordContents s

theorem length_decimal {w : Nat} (e : Nat) (he : 0 < e) (hw : 2 ^ w ≤ 10 ^ e) (n : BitVec w) :
    (Nat.toDigits 10 n.toNat).length ≤ e := Nat.toDigits_length 10 n.toNat e he (n.isLt.trans_le hw)

theorem length_hex32 (nonce : BitVec 128) : (hex32 nonce).length = 32 := by
  unfold hex32
  rw [List.length_leftpad]
  refine Nat.max_eq_left (Nat.toDigits_length 16 nonce.toNat 32 (by decide) ?_)
  exact nonce.isLt.trans_le (by decide)

theorem length_asStr (p : ArcboxProfile) : p.asStr.toList.length ≤ 11 := by
  cases p <;> decide

/-- The files the helper writes are short enough for its own inspection. -/
theorem length_recordContents : (recordContents s).length ≤ 256 := by
  have hport := length_decimal 5 (by decide) (by decide) s.port
  have huid := length_decimal 10 (by decide) (by decide) s.uid
  have hprofile := length_asStr s.profile
  have hnonce := length_hex32 s.nonce
  have hrevision := length_decimal 20 (by decide) (by decide) s.revision
  have hconnection := length_decimal 20 (by decide) (by decide) s.connection
  have hhead : "# managed by arcbox-helper\nnameserver 127.0.0.1\nport ".toList.length = 53 := by
    decide
  have htail : "\nsearch_order 1\ntimeout 5\n".toList.length = 26 := by decide
  have hlease : "# lease ".toList.length = 8 := by decide
  have hblank : " ".toList.length = 1 := by decide
  have hend : "\n".toList.length = 1 := by decide
  unfold recordContents recordText contents
  simp only [List.length_map, List.length_append]
  omega

/-! ## Files -/

structure File where
  /-- Neither a symbolic link nor a directory or device. -/
  regular : Bool
  nlink : Nat
  /-- Of the expected owner, and written by the owner alone. -/
  privateWriter : Bool
  acl : Bool
  bytes : List UInt8
  /-- Written by the store and not changed since; no part of the file system. -/
  ours : Bool
deriving DecidableEq, Repr

/-- The helper can tell such a file by its bytes. -/
def File.plain (f : File) : Bool :=
  f.regular && decide (f.nlink = 1) && f.privateWriter && !f.acl && decide (f.bytes.length ≤ 256)

/-- What an atomic write leaves behind. -/
def File.written (bytes : List UInt8) : File := ⟨true, 1, true, false, bytes, true⟩

theorem bytes_written (bytes : List UInt8) : (File.written bytes).bytes = bytes := rfl

inductive ManagedFile where
  | missing
  | foreign
  | owned
deriving DecidableEq, Repr

/-- The entry of a root that is asked for, if the access works. -/
def inspect (entry : Option File) (owns : List UInt8 → Bool) (fails : Bool) : Option ManagedFile :=
  if fails then none
  else
    match entry with
    | none => some .missing
    | some f => some (if f.plain && owns f.bytes then .owned else .foreign)

theorem plain_written : (File.written (recordContents s)).plain = true := by
  unfold File.plain File.written
  simp only [decide_true, Bool.and_self, Bool.not_false, Bool.true_and, decide_eq_true_eq]
  exact length_recordContents s

theorem inspect_owned {entry : Option File} {owns : List UInt8 → Bool} {fails : Bool}
    (h : inspect entry owns fails = some .owned) :
    ∃ f, entry = some f ∧ f.plain = true ∧ owns f.bytes = true := by
  unfold inspect at h
  split at h
  · cases h
  split at h
  · cases h
  rename_i f
  split at h
  next howns =>
    exact ⟨f, rfl, Bool.and_eq_true_iff.mp howns⟩
  · cases h

theorem inspect_missing {entry : Option File} {owns : List UInt8 → Bool} {fails : Bool}
    (h : inspect entry owns fails = some .missing) : entry = none := by
  unfold inspect at h
  split at h
  · cases h
  split at h
  · rfl
  · split at h <;> cases h

end Arcbox.Resolver

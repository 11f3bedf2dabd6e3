import Mathlib.Data.List.Basic
import Arcbox.Foundation.Bytes

set_option autoImplicit false

/-!
# Computer: what a warm key is the hash of

Texts end in a NUL byte, numbers have eight bytes and the build of macOS is tagged, so that every
part of the hashed bytes ends by itself.
-/

namespace Arcbox.Computer

open Foundation List

def utf8 (s : String) : Bytes := s.toByteArray.data.toList

/-- A string without a NUL byte. -/
def Text : Type := { s : String // 0 ∉ utf8 s }
deriving DecidableEq, Repr

/-- The `i64` times by their bits. -/
structure FileFingerprint where
  dev : BitVec 64
  ino : BitVec 64
  mtime : BitVec 64
  mtimeNsec : BitVec 64
  size : BitVec 64
deriving DecidableEq, Repr

/-- The fields of the spec that `warm_key` reads, and its other arguments. -/
structure WarmInput where
  kernel : Text
  rootfs : Text
  bootArgs : Text
  vcpus : BitVec 32
  memoryMib : BitVec 64
  kernelFile : FileFingerprint
  rootfsFile : FileFingerprint
  osBuild : Option Text
deriving DecidableEq, Repr

def terminated (text : Text) : Bytes := utf8 text.1 ++ [0]

def tagged : Option Text → Bytes
  | none => [0]
  | some build => 1 :: terminated build

def FileFingerprint.numbers (f : FileFingerprint) : List (BitVec 64) :=
  [f.dev, f.ino, f.size, f.mtime, f.mtimeNsec]

/-- The bytes that `warm_key` feeds to its hasher. -/
def warmKeyBytes (i : WarmInput) : Bytes :=
  tagged i.osBuild ++ ([i.kernel, i.rootfs, i.bootArgs].flatMap terminated ++
    (i.vcpus.setWidth 64 :: i.memoryMib :: (i.kernelFile.numbers ++ i.rootfsFile.numbers)).flatMap
      leBytes64)

theorem utf8_inj {s t : String} (h : utf8 s = utf8 t) : s = t :=
  String.toByteArray_inj.mp (ByteArray.ext (Array.toList_inj.mp h))

theorem prefixFree_terminated : PrefixFree terminated := by
  rintro ⟨s, hs⟩ ⟨t, ht⟩ xs ys h
  simp only [terminated, append_assoc, cons_append, nil_append] at h
  have hidx := congrArg (idxOf 0) h
  simp only [idxOf_append_of_notMem hs, idxOf_append_of_notMem ht, idxOf_cons_self] at hidx
  obtain ⟨hst, hrest⟩ := append_inj h hidx
  exact ⟨Subtype.ext (utf8_inj hst), (cons.inj hrest).2⟩

theorem prefixFree_tagged : PrefixFree tagged := by
  intro a b xs ys h
  cases a with
  | none =>
    cases b with
    | none => exact ⟨rfl, (cons.inj h).2⟩
    | some build' => cases (cons.inj h).1
  | some build =>
    cases b with
    | none => cases (cons.inj h).1
    | some build' =>
      obtain ⟨rfl, hxs⟩ := prefixFree_terminated (cons.inj h).2
      exact ⟨rfl, hxs⟩

/-- Equal hashed bytes come from equal inputs. -/
theorem warmKeyBytes_injective : Function.Injective warmKeyBytes := by
  intro i j h
  obtain ⟨hbuild, hrest⟩ := prefixFree_tagged h
  obtain ⟨htexts, hnumbers⟩ := prefixFree_terminated.flatMap hrest rfl
  obtain ⟨hnumbers, -⟩ := prefixFree_leBytes64.flatMap (congrArg (· ++ []) hnumbers) rfl
  have hvcpus : i.vcpus = j.vcpus := by
    have hwide := (cons.inj hnumbers).1
    bv_omega
  obtain ⟨kernel, rootfs, bootArgs, vcpus, memoryMib, ⟨⟩, ⟨⟩, osBuild⟩ := i
  obtain ⟨kernel', rootfs', bootArgs', vcpus', memoryMib', ⟨⟩, ⟨⟩, osBuild'⟩ := j
  cases hbuild
  cases htexts
  cases hvcpus
  cases (cons.inj hnumbers).2
  rfl

end Arcbox.Computer

import Arcbox.Foundation.OnesComplement

set_option autoImplicit false

/-!
# Packet: addresses and checksums

The address types of the packet builders and the checksum functions of
`arcbox-packet` (`ethernet/checksum.rs`, `checksum.rs`).  Sums are natural
numbers here; where the source accumulates in a `u32` with wrapping addition the
reduction modulo `2 ^ 32` is explicit.
-/

namespace Arcbox.Packet

open Foundation List
open Foundation.OnesComplement

/-- `Ipv4Addr`, by its four octets. -/
structure Ipv4Addr where
  a : UInt8
  b : UInt8
  c : UInt8
  d : UInt8
  deriving DecidableEq, Repr, Inhabited

/-- `Ipv4Addr::octets`. -/
def Ipv4Addr.octets (ip : Ipv4Addr) : Bytes := [ip.a, ip.b, ip.c, ip.d]

/-- `Ipv6Addr`, by its sixteen octets. -/
structure Ipv6Addr where
  octets : Bytes
  length_octets : octets.length = 16
  deriving DecidableEq, Repr

/-- `IpAddr`. -/
inductive IpAddr where
  | v4 (ip : Ipv4Addr)
  | v6 (ip : Ipv6Addr)
  deriving DecidableEq, Repr

/-- `IpAddr::is_ipv6`. -/
def IpAddr.isIpv6 : IpAddr → Bool
  | .v4 _ => false
  | .v6 _ => true

/-- A MAC address, `[u8; 6]`. -/
structure Mac where
  octets : Bytes
  length_octets : octets.length = 6
  deriving DecidableEq, Repr

/-- The broadcast address `[0xFF; 6]` used until the guest's is learned. -/
def Mac.broadcast : Mac := ⟨List.replicate 6 0xFF, rfl⟩

attribute [simp] Ipv6Addr.length_octets Mac.length_octets

@[simp] theorem Ipv4Addr.length_octets (ip : Ipv4Addr) : ip.octets.length = 4 := rfl

/-- The word loop shared by the header checksums: it adds the big-endian words
from index `i` on, leaves out the word at index `skip`, and hands an odd last
byte to `tail`. -/
def sumSkipping (skip : Nat) (tail : UInt8 → Nat) : Nat → Bytes → Nat
  | i, hi :: lo :: rest =>
      (if i ≠ skip then (be16 hi lo).toNat else 0) + sumSkipping skip tail (i + 2) rest
  | _, [b] => tail b
  | _, [] => 0

/-- `ipv4_header_checksum`: skips the checksum field at offset 10 and ignores an
odd last byte. -/
def ipv4HeaderChecksum (header : Bytes) : BitVec 16 :=
  BitVec.ofNat 16 (complement (fold (sumSkipping 10 (fun _ => 0) 0 header)))

/-- The pseudo-header sum every transport checksum starts from: the address
words, the protocol and the segment length. -/
def pseudoHeaderSum (src dst : Ipv4Addr) (protocol len : Nat) : Nat :=
  (be16 src.a src.b).toNat + (be16 src.c src.d).toNat
    + (be16 dst.a dst.b).toNat + (be16 dst.c dst.d).toNat + protocol + len

/-- `udp_checksum`: the checksum field at offset 6 is skipped, and a computed
zero is sent as `0xFFFF`. -/
def udpChecksum (src dst : Ipv4Addr) (segment : Bytes) : BitVec 16 :=
  let sum := pseudoHeaderSum src dst 17 segment.length
    + sumSkipping 6 (fun b => b.toNat <<< 8) 0 segment
  let result := complement (fold sum)
  if result = 0 then 0xFFFF else BitVec.ofNat 16 result

/-- `checksum_add_scalar`: the wrapping `u32` sum of the words. -/
def checksumAddScalar : Bytes → Nat
  | hi :: lo :: rest => ((be16 hi lo).toNat + checksumAddScalar rest) % 2 ^ 32
  | [hi] => hi.toNat <<< 8
  | [] => 0

/-- `checksum_add`, as built for a target without a SIMD path: there
`checksum_add_fast` is `checksum_add_scalar`, so both sides of the length
threshold are. -/
def checksumAdd (data : Bytes) : Nat := checksumAddScalar data

/-- `tcp_checksum`: sums the whole segment and subtracts the stored field. -/
def tcpChecksum (src dst : Ipv4Addr) (segment : Bytes) : BitVec 16 :=
  let sum := (pseudoHeaderSum src dst 6 segment.length + checksumAdd segment) % 2 ^ 32
  let sum := match segment[16]?, segment[17]? with
    | some hi, some lo => sum - (be16 hi lo).toNat
    | _, _ => sum
  BitVec.ofNat 16 (complement (fold sum))

/-- `tcp_pseudo_header_checksum`. -/
def tcpPseudoHeaderChecksum (src dst : Ipv4Addr) (tcpLen : Nat) : BitVec 16 :=
  BitVec.ofNat 16 (complement (fold (pseudoHeaderSum src dst 6 tcpLen)))

/-! ## The loops are word sums -/

theorem sumSkipping_append (skip : Nat) (tail : UInt8 → Nat) :
    ∀ (xs ys : Bytes) (i : Nat), xs.length % 2 = 0 → i + xs.length ≤ skip →
      sumSkipping skip tail i (xs ++ ys)
        = wordSum xs + sumSkipping skip tail (i + xs.length) ys
  | [], ys, i, _, _ => by simp
  | [x], ys, i, h, _ => by simp at h
  | x :: x' :: xs, ys, i, h, hi => by
    simp only [length_cons] at h hi
    simp only [cons_append, sumSkipping, wordSum_cons_cons, length_cons]
    rw [sumSkipping_append skip tail xs ys (i + 2) (by omega) (by omega),
      if_pos (by omega), toNat_be16]
    have hidx : i + (xs.length + 1 + 1) = i + 2 + xs.length := by omega
    rw [hidx]
    omega

theorem sumSkipping_past (skip : Nat) (tail : UInt8 → Nat) :
    ∀ (xs : Bytes) (i : Nat), skip < i →
      (xs.length % 2 = 0 ∨ tail = fun b => b.toNat <<< 8) →
      sumSkipping skip tail i xs = wordSum xs
  | [], i, _, _ => by simp [sumSkipping]
  | [x], i, _, h => by
    rcases h with h | rfl
    · simp at h
    · simp [sumSkipping, wordSum, Nat.shiftLeft_eq]
  | x :: x' :: xs, i, hi, h => by
    have h' : xs.length % 2 = 0 ∨ tail = fun b => b.toNat <<< 8 := by
      rcases h with h | h
      · exact .inl (by simp only [length_cons] at h; omega)
      · exact .inr h
    simp only [sumSkipping, wordSum_cons_cons]
    rw [sumSkipping_past skip tail xs (i + 2) (by omega) h', if_pos (by omega), toNat_be16]

variable {pre post : Bytes} {field : BitVec 16}

theorem sumSkipping_eq {skip : Nat} {tail : UInt8 → Nat} (hpre : pre.length = skip)
    (heven : skip % 2 = 0) (htail : post.length % 2 = 0 ∨ tail = fun b => b.toNat <<< 8) :
    sumSkipping skip tail 0 (pre ++ beBytes16 field ++ post) = wordSum pre + wordSum post := by
  rw [append_assoc, sumSkipping_append skip tail pre _ 0 (by omega) (by omega)]
  simp only [beBytes16, cons_append, nil_append, sumSkipping]
  rw [if_neg (by omega), sumSkipping_past skip tail post _ (by omega) htail]
  omega

/-- Below `2 ^ 17` bytes the wrapping sum does not wrap. -/
theorem checksumAddScalar_eq : ∀ xs : Bytes, xs.length < 2 ^ 17 →
    checksumAddScalar xs = wordSum xs
  | [], _ => rfl
  | [x], _ => by simp [checksumAddScalar, wordSum, Nat.shiftLeft_eq]
  | x :: x' :: xs, h => by
    have hle := wordSum_le (x :: x' :: xs)
    simp only [length_cons, wordSum_cons_cons] at h hle
    simp only [checksumAddScalar, wordSum_cons_cons]
    rw [checksumAddScalar_eq xs (by omega), toNat_be16, Nat.mod_eq_of_lt (by omega)]

/-! ## Verification -/

def HeaderVerifies (header : Bytes) : Prop := fold (wordSum header) = 0xFFFF

def UdpVerifies (src dst : Ipv4Addr) (segment : Bytes) : Prop :=
  fold (pseudoHeaderSum src dst 17 segment.length + wordSum segment) = 0xFFFF

def TcpVerifies (src dst : Ipv4Addr) (segment : Bytes) : Prop :=
  fold (pseudoHeaderSum src dst 6 segment.length + wordSum segment) = 0xFFFF

theorem toNat_complement_fold (sum : Nat) :
    (BitVec.ofNat 16 (complement (fold sum))).toNat = complement (fold sum) := by
  rw [BitVec.toNat_ofNat, Nat.mod_eq_of_lt]
  simp only [complement]
  omega

/-- Storing `ipv4_header_checksum` in a header makes the header verify, whatever
the field held while the checksum was computed. -/
theorem header_verifies (hpre : pre.length = 10) (hpost : post.length % 2 = 0) :
    HeaderVerifies
      (pre ++ beBytes16 (ipv4HeaderChecksum (pre ++ beBytes16 field ++ post)) ++ post) := by
  rw [HeaderVerifies, append_assoc, wordSum_append _ _ (by omega),
    wordSum_append _ _ (by simp), wordSum_beBytes16, ipv4HeaderChecksum,
    sumSkipping_eq hpre rfl (.inl hpost), toNat_complement_fold]
  have hsum := fold_add_complement (wordSum pre + wordSum post)
  rw [← hsum]
  congr 1
  omega

theorem udp_verifies {src dst : Ipv4Addr} (hpre : pre.length = 6) :
    UdpVerifies src dst
      (pre ++ beBytes16 (udpChecksum src dst (pre ++ beBytes16 field ++ post)) ++ post) := by
  have hlen : ∀ f : BitVec 16, (pre ++ beBytes16 f ++ post).length = 8 + post.length := by
    intro f
    simp only [length_append, length_beBytes16, hpre]
  rw [UdpVerifies, hlen, append_assoc, wordSum_append _ _ (by omega),
    wordSum_append _ _ (by simp), wordSum_beBytes16, udpChecksum]
  simp only [hlen, sumSkipping_eq hpre (rfl : 6 % 2 = 0) (.inr rfl)]
  generalize pseudoHeaderSum src dst 17 (8 + post.length) = base
  have hsum := fold_add_complement (base + (wordSum pre + wordSum post))
  split
  · -- a computed zero is stored as all ones, which adds nothing modulo `65535`
    rename_i hzero
    rw [hzero] at hsum
    rw [show (0xFFFF : BitVec 16).toNat = 65535 by rfl]
    rw [fold_eq] at hsum ⊢
    split at hsum <;> split <;> omega
  · rw [toNat_complement_fold, ← hsum]
    congr 1
    omega

end Arcbox.Packet

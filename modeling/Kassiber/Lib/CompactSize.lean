import Mathlib

/-!
Little-endian numbers and compact sizes: a size is written in the shortest of four forms, so that a size has
one encoding only.
-/

namespace Lib.CompactSize

abbrev Bytes := List UInt8

def littleEndian : Bytes → Nat
  | [] => 0
  | byte :: rest => byte.toNat + 256 * littleEndian rest

def leBytes : Nat → Nat → Bytes
  | 0, _ => []
  | width + 1, n => UInt8.ofNat (n % 256) :: leBytes width (n / 256)

theorem littleEndian_lt (bytes : Bytes) : littleEndian bytes < 256 ^ bytes.length := by
  induction bytes with
  | nil => simp [littleEndian]
  | cons byte rest ih =>
    have small := byte.toNat_lt
    rw [littleEndian, List.length_cons, pow_succ]
    omega

theorem leBytes_littleEndian (bytes : Bytes) : leBytes bytes.length (littleEndian bytes) = bytes := by
  induction bytes with
  | nil => rfl
  | cons byte rest ih =>
    have small := byte.toNat_lt
    have low : (byte.toNat + 256 * littleEndian rest) % 256 = byte.toNat := by omega
    have high : (byte.toNat + 256 * littleEndian rest) / 256 = littleEndian rest := by omega
    rw [littleEndian, List.length_cons, leBytes, low, high, ih, UInt8.ofNat_toNat]

def encodeCompact (n : Nat) : Bytes :=
  if n < 253 then [UInt8.ofNat n]
  else if n < 65536 then 253 :: leBytes 2 n
  else if n < 2 ^ 32 then 254 :: leBytes 4 n
  else 255 :: leBytes 8 n

theorem encodeCompact_single {byte : UInt8} (small : byte.toNat < 253) : encodeCompact byte.toNat = [byte] := by
  rw [encodeCompact, if_pos small, UInt8.ofNat_toNat]

variable {payload : Bytes}

theorem encodeCompact_two (length : payload.length = 2) (least : 253 ≤ littleEndian payload) :
    encodeCompact (littleEndian payload) = 253 :: payload := by
  have bound := littleEndian_lt payload
  have same := leBytes_littleEndian payload
  rw [length] at bound same
  rw [encodeCompact, if_neg (by omega), if_pos (by omega), same]

theorem encodeCompact_four (length : payload.length = 4) (least : 65536 ≤ littleEndian payload) :
    encodeCompact (littleEndian payload) = 254 :: payload := by
  have bound := littleEndian_lt payload
  have same := leBytes_littleEndian payload
  rw [length] at bound same
  rw [encodeCompact, if_neg (by omega), if_neg (by omega), if_pos (by omega), same]

theorem encodeCompact_eight (length : payload.length = 8) (least : 2 ^ 32 ≤ littleEndian payload) :
    encodeCompact (littleEndian payload) = 255 :: payload := by
  have same := leBytes_littleEndian payload
  rw [length] at same
  rw [encodeCompact, if_neg (by omega), if_neg (by omega), if_neg (by omega), same]

end Lib.CompactSize

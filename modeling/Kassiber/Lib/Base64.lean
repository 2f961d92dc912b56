import Mathlib

/-!
Base64 with the alphabet that is safe in an address.
-/

namespace Lib.Base64
open List

def alphabet : List Char := "ABCDEFGHIJKLMNOPQRSTUVWXYZabcdefghijklmnopqrstuvwxyz0123456789-_".toList

def digit (n : Nat) : Char := alphabet.getD n '='

/-- The value of a digit. The two digits of the usual alphabet are read as well. -/
def sextet (c : Char) : Option Nat :=
  if c = '+' then some 62
  else if c = '/' then some 63
  else alphabet.findIdx? fun other => other = c

def encode : List UInt8 → List Char
  | [] => []
  | [a] => [digit (a.toNat / 4), digit (a.toNat % 4 * 16), '=', '=']
  | [a, b] => [digit (a.toNat / 4), digit (a.toNat % 4 * 16 + b.toNat / 16), digit (b.toNat % 16 * 4), '=']
  | a :: b :: c :: rest =>
    digit (a.toNat / 4) :: digit (a.toNat % 4 * 16 + b.toNat / 16) :: digit (b.toNat % 16 * 4 + c.toNat / 64) ::
      digit (c.toNat % 64) :: encode rest

/-- The bytes from here: the digits read of the group, the bits left over and the padding since the last digit. -/
def decodeFrom (position left pads : Nat) : List Char → Option (List UInt8)
  | [] => if position = 0 then some [] else none
  | c :: rest =>
    if c = '=' then
      if 2 ≤ position then
        if 4 ≤ position + (pads + 1) then some [] else decodeFrom position left (pads + 1) rest
      else decodeFrom position left pads rest
    else
      match sextet c with
      | none => decodeFrom position left pads rest
      | some value =>
        if position = 0 then decodeFrom 1 value 0 rest
        else if position = 1 then (decodeFrom 2 (value % 16) 0 rest).map (UInt8.ofNat (left * 4 + value / 16) :: ·)
        else if position = 2 then (decodeFrom 3 (value % 4) 0 rest).map (UInt8.ofNat (left * 16 + value / 4) :: ·)
        else (decodeFrom 0 0 0 rest).map (UInt8.ofNat (left * 64 + value) :: ·)

def decode (chars : List Char) : Option (List UInt8) := decodeFrom 0 0 0 chars

def strip (chars : List Char) : List Char := chars.rdropWhile (· = '=')

def padding (chars : List Char) : List Char := replicate ((4 - chars.length % 4) % 4) '='

theorem sextet_digit : ∀ n < 64, sextet (digit n) = some n := by decide +kernel

theorem digit_ne_pad : ∀ n < 64, digit n ≠ '=' := by decide +kernel

theorem digit_ascii : ∀ n < 64, (digit n).toNat < 128 := by decide +kernel

section
variable {n : Nat} (small : n < 64) (left pads : Nat) (rest : List Char)
include small

theorem decodeFrom_first : decodeFrom 0 left pads (digit n :: rest) = decodeFrom 1 n 0 rest := by
  rw [decodeFrom, if_neg (digit_ne_pad n small), sextet_digit n small]
  rfl

theorem decodeFrom_second : decodeFrom 1 left pads (digit n :: rest) =
    (decodeFrom 2 (n % 16) 0 rest).map (UInt8.ofNat (left * 4 + n / 16) :: ·) := by
  rw [decodeFrom, if_neg (digit_ne_pad n small), sextet_digit n small]
  rfl

theorem decodeFrom_third : decodeFrom 2 left pads (digit n :: rest) =
    (decodeFrom 3 (n % 4) 0 rest).map (UInt8.ofNat (left * 16 + n / 4) :: ·) := by
  rw [decodeFrom, if_neg (digit_ne_pad n small), sextet_digit n small]
  rfl

theorem decodeFrom_fourth : decodeFrom 3 left pads (digit n :: rest) =
    (decodeFrom 0 0 0 rest).map (UInt8.ofNat (left * 64 + n) :: ·) := by
  rw [decodeFrom, if_neg (digit_ne_pad n small), sextet_digit n small]
  rfl

end

theorem byte_eq {a : UInt8} {n : Nat} (value : n = a.toNat) : UInt8.ofNat n = a := by
  rw [value, UInt8.ofNat_toNat]

theorem decode_encode (bytes : List UInt8) : decode (encode bytes) = some bytes := by
  fun_induction encode bytes with
  | case1 => rfl
  | case2 a =>
    have range := a.toNat_lt
    rw [decode, decodeFrom_first (by omega), decodeFrom_second (by omega),
      byte_eq (show a.toNat / 4 * 4 + a.toNat % 4 * 16 / 16 = a.toNat by omega)]
    rfl
  | case3 a b =>
    have first := a.toNat_lt
    have second := b.toNat_lt
    rw [decode, decodeFrom_first (by omega), decodeFrom_second (by omega), decodeFrom_third (by omega),
      byte_eq (show a.toNat / 4 * 4 + (a.toNat % 4 * 16 + b.toNat / 16) / 16 = a.toNat by omega),
      byte_eq (show (a.toNat % 4 * 16 + b.toNat / 16) % 16 * 16 + b.toNat % 16 * 4 / 4 = b.toNat by omega)]
    rfl
  | case4 a b c rest ih =>
    have first := a.toNat_lt
    have second := b.toNat_lt
    have third := c.toNat_lt
    unfold decode at ih
    rw [decode, decodeFrom_first (by omega), decodeFrom_second (by omega), decodeFrom_third (by omega),
      decodeFrom_fourth (by omega), ih,
      byte_eq (show a.toNat / 4 * 4 + (a.toNat % 4 * 16 + b.toNat / 16) / 16 = a.toNat by omega),
      byte_eq (show (a.toNat % 4 * 16 + b.toNat / 16) % 16 * 16 + (b.toNat % 16 * 4 + c.toNat / 64) / 4 = b.toNat by omega),
      byte_eq (show (b.toNat % 16 * 4 + c.toNat / 64) % 4 * 64 + c.toNat % 64 = c.toNat by omega)]
    rfl

theorem strip_padding (bytes : List UInt8) : strip (encode bytes) ++ padding (strip (encode bytes)) = encode bytes := by
  have shape : ∃ digits pads, encode bytes = digits ++ replicate pads '=' ∧
      (∀ c ∈ digits, c ≠ '=') ∧ pads = (4 - digits.length % 4) % 4 := by
    fun_induction encode bytes with
    | case1 => exact ⟨[], 0, rfl, by simp, rfl⟩
    | case2 a =>
      have range := a.toNat_lt
      refine ⟨[digit (a.toNat / 4), digit (a.toNat % 4 * 16)], 2, rfl, fun c member => ?_, rfl⟩
      simp only [mem_cons, not_mem_nil, or_false] at member
      rcases member with rfl | rfl <;> exact digit_ne_pad _ (by omega)
    | case3 a b =>
      have first := a.toNat_lt
      have second := b.toNat_lt
      refine ⟨[digit (a.toNat / 4), digit (a.toNat % 4 * 16 + b.toNat / 16), digit (b.toNat % 16 * 4)], 1, rfl,
        fun c member => ?_, rfl⟩
      simp only [mem_cons, not_mem_nil, or_false] at member
      rcases member with rfl | rfl | rfl <;> exact digit_ne_pad _ (by omega)
    | case4 a b c rest ih =>
      have first := a.toNat_lt
      have second := b.toNat_lt
      have third := c.toNat_lt
      obtain ⟨digits, pads, same, plain, count⟩ := ih
      refine ⟨digit (a.toNat / 4) :: digit (a.toNat % 4 * 16 + b.toNat / 16) ::
        digit (b.toNat % 16 * 4 + c.toNat / 64) :: digit (c.toNat % 64) :: digits, pads, by rw [same]; rfl,
        fun other member => ?_, ?_⟩
      · simp only [mem_cons] at member
        rcases member with rfl | rfl | rfl | rfl | later
        · exact digit_ne_pad _ (by omega)
        · exact digit_ne_pad _ (by omega)
        · exact digit_ne_pad _ (by omega)
        · exact digit_ne_pad _ (by omega)
        · exact plain other later
      · rw [count]
        simp only [length_cons]
        omega
  obtain ⟨digits, pads, same, plain, count⟩ := shape
  have bare : strip (encode bytes) = digits := by
    rw [same, strip, rdropWhile, reverse_append, reverse_replicate, dropWhile_append_of_pos (by simp)]
    rw [dropWhile_eq_self_iff.2, reverse_reverse]
    intro nonempty
    have member : digits.reverse[0] ∈ digits := mem_reverse.1 (getElem_mem _)
    simpa using plain _ member
  rw [bare, padding, ← count, same]

theorem decode_strip (bytes : List UInt8) :
    decode (strip (encode bytes) ++ padding (strip (encode bytes))) = some bytes := by
  rw [strip_padding, decode_encode]

theorem encode_ascii (bytes : List UInt8) : ∀ c ∈ encode bytes, c.toNat < 128 := by
  have pad : ('=' : Char).toNat < 128 := by decide
  fun_induction encode bytes with
  | case1 => simp
  | case2 a =>
    have range := a.toNat_lt
    simp only [forall_mem_cons]
    exact ⟨digit_ascii _ (by omega), digit_ascii _ (by omega), pad, pad, by simp⟩
  | case3 a b =>
    have first := a.toNat_lt
    have second := b.toNat_lt
    simp only [forall_mem_cons]
    exact ⟨digit_ascii _ (by omega), digit_ascii _ (by omega), digit_ascii _ (by omega), pad, by simp⟩
  | case4 a b c rest ih =>
    have first := a.toNat_lt
    have second := b.toNat_lt
    have third := c.toNat_lt
    simp only [forall_mem_cons]
    exact ⟨digit_ascii _ (by omega), digit_ascii _ (by omega), digit_ascii _ (by omega), digit_ascii _ (by omega), ih⟩

end Lib.Base64

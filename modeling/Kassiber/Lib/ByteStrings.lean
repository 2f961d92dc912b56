import Mathlib

/-!
Byte strings as a cursor reads them. A reader may give up without a result, and reading past the
end raises. A string holds a text at a position when the text stands there in full.
-/

namespace Lib.ByteStrings
open List Option

abbrev Bytes := List UInt8

inductive IndexError where
  | outOfRange
  deriving DecidableEq

abbrev Scan := OptionT (Except IndexError)

def byteAt (bytes : Bytes) (position : Nat) : Scan UInt8 :=
  OptionT.mk (match bytes[position]? with
    | some byte => .ok (some byte)
    | none => .error .outOfRange)

def stopIf (condition : Prop) [Decidable condition] : Scan Unit :=
  OptionT.mk (.ok (if condition then none else some ()))

def expect (bytes : Bytes) (position : Nat) (byte : UInt8) : Scan Unit := do
  let found ← byteAt bytes position
  stopIf (found ≠ byte)

def slice (bytes : Bytes) (position size : Nat) : Bytes := (bytes.drop position).take size

section
variable {α β : Type}

def Returns (scan : Scan α) (value : α) : Prop := scan.run = .ok (some value)

def Raises (scan : Scan α) : Prop := scan.run = .error .outOfRange

@[simp] theorem returns_pure {value result : α} : Returns (pure value) result ↔ value = result := by
  simp [Returns, pure, OptionT.pure, OptionT.mk, OptionT.run, Except.pure]

@[simp] theorem raises_pure {value : α} : ¬Raises (pure value : Scan α) := by
  simp [Raises, pure, OptionT.pure, OptionT.mk, OptionT.run, Except.pure]

@[simp] theorem returns_failure {value : α} : ¬Returns failure value := by
  simp [Returns, pure, Except.pure]

@[simp] theorem raises_failure : ¬Raises (failure : Scan α) := by
  simp [Raises, pure, Except.pure]

variable {scan : Scan α}

theorem returns_bind {next : α → Scan β} {value : β} :
    Returns (scan >>= next) value ↔ ∃ found, Returns scan found ∧ Returns (next found) value := by
  unfold Returns
  rw [OptionT.run_bind]
  rcases outcome : scan.run with error | (_ | found) <;>
    simp [Bind.bind, Except.bind, pure, Except.pure, elimM]

theorem raises_bind {next : α → Scan β} :
    Raises (scan >>= next) ↔ Raises scan ∨ ∃ found, Returns scan found ∧ Raises (next found) := by
  unfold Raises Returns
  rw [OptionT.run_bind]
  rcases outcome : scan.run with error | (_ | found) <;>
    simp [Bind.bind, Except.bind, pure, Except.pure, elimM]

theorem Returns.unique {left right : α} (one : Returns scan left) (other : Returns scan right) :
    left = right := by
  have same := one.symm.trans other
  simpa using same

@[simp] theorem returns_byteAt {bytes : Bytes} {position : Nat} {byte : UInt8} :
    Returns (byteAt bytes position) byte ↔ bytes[position]? = some byte := by
  unfold Returns byteAt
  cases bytes[position]? <;> simp [OptionT.run, OptionT.mk]

@[simp] theorem raises_byteAt {bytes : Bytes} {position : Nat} :
    Raises (byteAt bytes position) ↔ bytes.length ≤ position := by
  rw [← List.getElem?_eq_none_iff]
  unfold Raises byteAt
  cases bytes[position]? <;> simp [OptionT.run, OptionT.mk]

@[simp] theorem returns_stopIf {condition : Prop} [Decidable condition] {u : Unit} :
    Returns (stopIf condition) u ↔ ¬condition := by
  by_cases held : condition <;> simp [Returns, stopIf, OptionT.run, OptionT.mk, held]

@[simp] theorem raises_stopIf {condition : Prop} [Decidable condition] : ¬Raises (stopIf condition) := by
  simp [Raises, stopIf, OptionT.run, OptionT.mk]

@[simp] theorem returns_expect {bytes : Bytes} {position : Nat} {byte : UInt8} {u : Unit} :
    Returns (expect bytes position byte) u ↔ bytes[position]? = some byte := by
  simp [expect, returns_bind]

@[simp] theorem raises_expect {bytes : Bytes} {position : Nat} {byte : UInt8} :
    Raises (expect bytes position byte) ↔ bytes.length ≤ position := by
  simp [expect, raises_bind]

end

def Holds (text bytes : Bytes) (position : Nat) : Prop := text <+: bytes.drop position

variable {bytes text : Bytes} {position size : Nat}

theorem holds_nil : Holds [] bytes position := nil_prefix

theorem holds_append {left right : Bytes} :
    Holds (left ++ right) bytes position ↔
      Holds left bytes position ∧ Holds right bytes (position + left.length) := by
  unfold Holds
  rw [← drop_drop]
  constructor
  · rintro ⟨rest, whole⟩
    rw [← whole, List.append_assoc, drop_left]
    exact ⟨prefix_append _ _, prefix_append _ _⟩
  · rintro ⟨⟨after, whole⟩, next⟩
    rw [← whole, drop_left] at next
    rw [← whole]
    exact (prefix_append_right_inj left).2 next

theorem holds_cons {byte : UInt8} :
    Holds (byte :: text) bytes position ↔ bytes[position]? = some byte ∧ Holds text bytes (position + 1) := by
  rw [← singleton_append, holds_append, length_singleton]
  refine and_congr_left' ?_
  unfold Holds
  rw [← head?_drop]
  cases bytes.drop position <;> simp [eq_comm]

theorem Holds.length_le (held : Holds text bytes position) :
    text.length ≤ bytes.length - position := by
  simpa using List.IsPrefix.length_le held

theorem holds_slice : Holds (slice bytes position size) bytes position :=
  take_prefix _ _

theorem length_slice (fits : position + size ≤ bytes.length) :
    (slice bytes position size).length = size := by
  rw [slice, length_take, length_drop]
  omega

theorem Holds.eq_slice (held : Holds text bytes position) :
    text = slice bytes position text.length := prefix_iff_eq_take.1 held

theorem holds_whole : text = bytes ↔ Holds text bytes 0 ∧ text.length = bytes.length := by
  constructor
  · rintro rfl
    exact ⟨prefix_refl _, rfl⟩
  · rintro ⟨held, size⟩
    exact List.IsPrefix.eq_of_length (by simpa [Holds] using held) size

theorem lt_of_read {byte : UInt8} (read : bytes[position]? = some byte) :
    position < bytes.length := (List.getElem?_eq_some_iff.1 read).1

def hex (bytes : Bytes) : String :=
  String.ofList (bytes.flatMap fun byte => [Nat.digitChar (byte.toNat / 16), Nat.digitChar (byte.toNat % 16)])

def hexDigit (c : Char) : Option Nat := (List.range 16).find? fun n => Nat.digitChar n = c

def fromHexDigits : List Char → Option Bytes
  | [] => some []
  | [_] => none
  | high :: low :: rest => do
    let high ← hexDigit high
    let low ← hexDigit low
    let bytes ← fromHexDigits rest
    pure (.ofNat (16 * high + low) :: bytes)

def fromHex (text : String) : Option Bytes := fromHexDigits text.toList

theorem hexDigit_digitChar : ∀ n < 16, hexDigit (Nat.digitChar n) = some n := by decide

theorem fromHex_hex (bytes : Bytes) : fromHex (hex bytes) = some bytes := by
  unfold fromHex hex
  rw [String.toList_ofList]
  induction bytes with
  | nil => rfl
  | cons byte rest ih =>
    have high := hexDigit_digitChar (byte.toNat / 16) (by have := byte.toNat_lt; omega)
    have low := hexDigit_digitChar (byte.toNat % 16) (Nat.mod_lt _ (by decide))
    rw [flatMap_cons, cons_append, cons_append, nil_append, fromHexDigits, high, low, ih]
    change some (UInt8.ofNat (16 * (byte.toNat / 16) + byte.toNat % 16) :: rest) = some (byte :: rest)
    rw [Nat.div_add_mod, UInt8.ofNat_toNat]

end Lib.ByteStrings

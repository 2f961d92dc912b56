import Mathlib

/-!
Identifiers assembled from parts: a part of known length, a part without the separator, and a
decimal number can each be read back from the text they start.
-/

namespace Lib.Text
open List hiding take_append

variable {a b c x y : String}

theorem append_ne_empty (nonempty : a ≠ "") : a ++ b ≠ "" := by
  intro empty
  have chars := congrArg String.toList empty
  rw [String.toList_append] at chars
  exact nonempty (String.toList_injective (append_eq_nil_iff.1 chars).1)

theorem toUpper_toUpper (text : String) : text.toUpper.toUpper = text.toUpper := by
  apply String.toList_inj.1
  simp [String.toUpper, String.toList_map]

theorem append_left_cancel (same : a ++ b = a ++ c) : b = c := by
  have chars := congrArg String.toList same
  rw [String.toList_append, String.toList_append] at chars
  exact String.toList_injective (append_cancel_left chars)

theorem append_right_cancel (same : a ++ c = b ++ c) : a = b := by
  have chars := congrArg String.toList same
  rw [String.toList_append, String.toList_append] at chars
  exact String.toList_injective (append_cancel_right chars)

theorem append_inj_of_length (width : a.length = b.length) (same : a ++ x = b ++ y) :
    a = b ∧ x = y := by
  have chars := congrArg String.toList same
  rw [String.toList_append, String.toList_append] at chars
  have parts := append_inj chars (by rw [String.length_toList, String.length_toList, width])
  exact ⟨String.toList_injective parts.1, String.toList_injective parts.2⟩

theorem split_inj {α : Type*} {sep : α} {a b x y : List α} (left : sep ∉ a) (right : sep ∉ b)
    (same : a ++ sep :: x = b ++ sep :: y) : a = b ∧ x = y := by
  induction a generalizing b with
  | nil =>
    cases b with
    | nil => simpa using same
    | cons c rest =>
      have head : sep = c := by simpa using congrArg head? same
      exact absurd mem_cons_self (head ▸ right)
  | cons c rest ih =>
    cases b with
    | nil =>
      have head : c = sep := by simpa using congrArg head? same
      exact absurd mem_cons_self (head ▸ left)
    | cons d others =>
      simp only [cons_append, List.cons.injEq] at same
      obtain ⟨rfl, tails⟩ := same
      obtain ⟨rfl, rfl⟩ := ih (fun h => left (.tail _ h)) (fun h => right (.tail _ h)) tails
      exact ⟨rfl, rfl⟩

def ColonFree (text : String) : Prop := ':' ∉ text.toList

theorem colon_inj (left : ColonFree a) (right : ColonFree b)
    (same : a ++ ":" ++ x = b ++ ":" ++ y) : a = b ∧ x = y := by
  have chars := congrArg String.toList same
  simp only [String.toList_append, List.append_assoc] at chars
  have parts := split_inj left right chars
  exact ⟨String.toList_injective parts.1, String.toList_injective parts.2⟩

theorem last_colon_inj (left : ColonFree x) (right : ColonFree y)
    (same : a ++ ":" ++ x = b ++ ":" ++ y) : a = b ∧ x = y := by
  have chars := congrArg (fun text => text.toList.reverse) same
  simp only [String.toList_append, reverse_append, List.append_assoc] at chars
  have without : ∀ {text : String}, ColonFree text → ':' ∉ text.toList.reverse := fun free inside =>
    free (mem_reverse.1 inside)
  have parts := split_inj (without left) (without right) chars
  exact ⟨String.toList_injective (reverse_injective parts.2), String.toList_injective (reverse_injective parts.1)⟩

theorem nat_colonFree (n : Nat) : ColonFree (toString n) := by
  intro member
  have digit := Nat.isDigit_of_mem_toDigits (by decide) (by decide)
    (show ':' ∈ Nat.toDigits 10 n by simpa [toString, Nat.repr] using member)
  exact absurd digit (by decide)

theorem int_toString_inj {m n : Int} (same : toString m = toString n) : m = n := Int.repr_injective same

theorem int_colonFree {n : Int} (nonneg : 0 ≤ n) : ColonFree (toString n) := by
  obtain ⟨k, rfl⟩ := Int.eq_ofNat_of_zero_le nonneg
  exact nat_colonFree k

theorem take_append {n : Nat} (within : n ≤ a.length) : (a ++ b).toList.take n = a.toList.take n := by
  rw [String.toList_append, take_append_of_le_length]
  rwa [String.length_toList]

end Lib.Text

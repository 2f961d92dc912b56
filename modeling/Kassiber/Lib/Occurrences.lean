import Mathlib.Data.List.Basic

/-!
The first occurrence of a nonempty word, and how much of a text's end may still start one.
-/

namespace Lib.Occurrences
open List Bool
variable {α : Type*} [DecidableEq α] {word text : List α} {i : Nat}

def indexOf (word text : List α) : Option Nat :=
  (List.range (text.length + 1)).find? fun i => word.isPrefixOf (text.drop i)

theorem indexOf_some : indexOf word text = some i ↔
    i ≤ text.length ∧ word <+: text.drop i ∧ ∀ j < i, ¬word <+: text.drop j := by
  simp only [indexOf, find?_range_eq_some, isPrefixOf_iff_prefix, mem_range, Nat.lt_succ_iff,
    not_eq_true', ← not_eq_true]
  tauto

theorem indexOf_none (nonempty : word ≠ []) : indexOf word text = none ↔ ∀ i, ¬word <+: text.drop i := by
  simp only [indexOf, find?_range_eq_none, not_eq_true', ← not_eq_true, isPrefixOf_iff_prefix]
  refine ⟨fun absent i occurs => ?_, fun absent i _ => absent i⟩
  by_cases within : i < text.length + 1
  · exact absent i within occurs
  · rw [drop_eq_nil_of_le (by omega)] at occurs
    exact nonempty (prefix_nil.1 occurs)

/-- An occurrence ends within the text. -/
theorem indexOf_within (found : indexOf word text = some i) : i + word.length ≤ text.length := by
  obtain ⟨within, occurs, -⟩ := indexOf_some.1 found
  have fits := occurs.length_le
  rw [length_drop] at fits
  omega

theorem indexOf_append (found : indexOf word text = some i) (rest : List α) :
    indexOf word (text ++ rest) = some i := by
  have within := indexOf_within found
  obtain ⟨-, occurs, first⟩ := indexOf_some.1 found
  refine indexOf_some.2 ⟨by rw [length_append]; omega, ?_, fun j before other => first j before ?_⟩
  · rw [drop_append_of_le_length (by omega)]
    exact occurs.trans (prefix_append _ _)
  · rw [drop_append_of_le_length (by omega)] at other
    refine prefix_of_prefix_length_le other (prefix_append _ _) ?_
    rw [length_drop]
    omega

/-- Where no occurrence starts in the first part, the first one is that of the second part. -/
theorem indexOf_shift (nonempty : word ≠ []) {before rest : List α}
    (late : ∀ j < before.length, ¬word <+: (before ++ rest).drop j) :
    indexOf word (before ++ rest) = (indexOf word rest).map (before.length + ·) := by
  have shifted : ∀ i, (before ++ rest).drop (before.length + i) = rest.drop i := fun i => by
    rw [← drop_drop, drop_left]
  cases found : indexOf word rest with
  | none =>
    refine (indexOf_none nonempty).2 fun i occurs => ?_
    by_cases early : i < before.length
    · exact late i early occurs
    · rw [show i = before.length + (i - before.length) by omega, shifted] at occurs
      exact (indexOf_none nonempty).1 found _ occurs
  | some i =>
    obtain ⟨within, occurs, first⟩ := indexOf_some.1 found
    rw [Option.map_some]
    refine indexOf_some.2 ⟨by rw [length_append]; omega, by rwa [shifted], fun j before' other => ?_⟩
    by_cases early : j < before.length
    · exact late j early other
    · rw [show j = before.length + (j - before.length) by omega, shifted] at other
      exact first _ (by omega) other

/-- The length of the longest end of the text, of at most `k` symbols, that `word` starts with. -/
def openEnd (word text : List α) : Nat → Nat
  | 0 => 0
  | k + 1 => if (text.drop (text.length - (k + 1))).isPrefixOf word then k + 1 else openEnd word text k

theorem openEnd_le (k : Nat) : openEnd word text k ≤ k := by
  fun_induction openEnd word text k <;> omega

theorem openEnd_longest {k n : Nat} (starts : text.drop (text.length - n) <+: word) (within : n ≤ k) :
    n ≤ openEnd word text k := by
  induction k with
  | zero => exact within
  | succ k ih =>
    rw [openEnd]
    split
    · exact within
    · rename_i other
      rcases Nat.le_succ_iff.1 within with smaller | rfl
      · exact ih smaller
      · exact absurd ( isPrefixOf_iff_prefix.2 starts) other

/-- An occurrence that the text does not hold yet starts in its open end. -/
theorem late_of_openEnd (absent : indexOf word text = none) (rest : List α) {i : Nat}
    (early : i < text.length - openEnd word text (min text.length (word.length - 1))) :
    ¬word <+: (text ++ rest).drop i := by
  intro occurs
  rw [drop_append_of_le_length (by omega)] at occurs
  have nonempty : word ≠ [] := fun empty => by
    rw [empty] at absent
    cases (indexOf_some.2 ⟨Nat.zero_le _, nil_prefix, fun _ before => absurd before (Nat.not_lt_zero _)⟩).symm.trans
      absent
  by_cases whole : word.length ≤ (text.drop i).length
  · exact (indexOf_none nonempty).1 absent i (prefix_of_prefix_length_le occurs (prefix_append _ _) whole)
  · have cut : text.drop i <+: word := prefix_of_prefix_length_le (prefix_append _ _) occurs (by omega)
    rw [length_drop] at whole
    have longest : text.length - i ≤ openEnd word text (min text.length (word.length - 1)) :=
      openEnd_longest (by rwa [show text.length - (text.length - i) = i by omega]) (by omega)
    omega

end Lib.Occurrences

import Mathlib

/-!
Bisection of a sorted list: the position where a test that holds up to some point starts to fail, and the
slice between two such positions.
-/

namespace Lib.Bisect
open List

section
variable {α : Type*}

def bisect (test : α → Bool) (xs : List α) : Nat → Nat → Nat → Nat
  | 0, lo, _ => lo
  | rounds + 1, lo, hi =>
    if lo < hi then
      match xs[(lo + hi) / 2]? with
      | some x => if test x then bisect test xs rounds ((lo + hi) / 2 + 1) hi else bisect test xs rounds lo ((lo + hi) / 2)
      | none => lo
    else lo

def Partitioned (test : α → Bool) (xs : List α) : Prop := xs.Pairwise fun x y => test y = true → test x = true

variable {test : α → Bool} {xs : List α}

theorem filter_of_failing {x : α} (partitioned : Partitioned test (x :: xs)) (fails : test x ≠ true) :
    xs.filter test = [] :=
  filter_eq_nil_iff.2 fun y member holds => fails ((pairwise_cons.1 partitioned).1 y member holds)

theorem take_filter (partitioned : Partitioned test xs) : xs.take (xs.filter test).length = xs.filter test := by
  induction xs with
  | nil => rfl
  | cons x rest ih =>
    by_cases holds : test x = true
    · rw [filter_cons_of_pos holds, length_cons, take_succ_cons, ih (pairwise_cons.1 partitioned).2]
    · rw [filter_cons_of_neg holds, filter_of_failing partitioned holds]
      rfl

theorem drop_filter (partitioned : Partitioned test xs) :
    xs.drop (xs.filter test).length = xs.filter fun x => !test x := by
  induction xs with
  | nil => rfl
  | cons x rest ih =>
    by_cases holds : test x = true
    · rw [filter_cons_of_pos holds, length_cons, drop_succ_cons, ih (pairwise_cons.1 partitioned).2,
        filter_cons_of_neg (by simpa using holds)]
    · have others := filter_eq_nil_iff.1 (filter_of_failing partitioned holds)
      rw [filter_cons_of_neg holds, filter_of_failing partitioned holds, length_nil, drop_zero,
        filter_cons_of_pos (by simpa using holds), filter_eq_self.2 fun y member => by simpa using others y member]

theorem test_iff (partitioned : Partitioned test xs) {i : Nat} {x : α} (found : xs[i]? = some x) :
    test x = true ↔ i < (xs.filter test).length := by
  have inside := (List.getElem?_eq_some_iff.1 found).1
  constructor
  · intro holds
    by_contra beyond
    have later : x ∈ xs.drop (xs.filter test).length := by
      refine mem_of_getElem? (i := i - (xs.filter test).length) ?_
      rw [getElem?_drop, Nat.add_sub_cancel' (not_lt.1 beyond), found]
    rw [drop_filter partitioned] at later
    have fails := (mem_filter.1 later).2
    rw [holds] at fails
    cases fails
  · intro before
    have early : x ∈ xs.take (xs.filter test).length := by
      refine mem_of_getElem? (i := i) ?_
      rw [getElem?_take, if_pos before, found]
    rw [take_filter partitioned] at early
    exact (mem_filter.1 early).2

theorem bisect_between (partitioned : Partitioned test xs) {rounds lo hi : Nat} (low : lo ≤ (xs.filter test).length)
    (high : (xs.filter test).length ≤ hi) (within : hi ≤ xs.length) (enough : hi - lo ≤ rounds) :
    bisect test xs rounds lo hi = (xs.filter test).length := by
  induction rounds generalizing lo hi with
  | zero =>
    rw [bisect]
    omega
  | succ rounds ih =>
    rw [bisect]
    by_cases running : lo < hi
    · rw [if_pos running]
      cases found : xs[(lo + hi) / 2]? with
      | none =>
        have beyond := List.getElem?_eq_none_iff.1 found
        omega
      | some x =>
        have position := test_iff partitioned found
        dsimp only
        by_cases holds : test x = true
        · have before := position.1 holds
          rw [if_pos holds]
          exact ih (by omega) high within (by omega)
        · have after := mt position.2 holds
          rw [if_neg holds]
          exact ih low (by omega) (by omega) (by omega)
    · rw [if_neg running]
      omega

theorem bisect_eq (partitioned : Partitioned test xs) : bisect test xs xs.length 0 xs.length = (xs.filter test).length :=
  bisect_between partitioned (Nat.zero_le _) (length_filter_le _ _) le_rfl le_rfl

end

section
variable {τ : Type*} [LinearOrder τ]

def bisectLeft (xs : List τ) (x : τ) : Nat := bisect (fun y => y < x) xs xs.length 0 xs.length

def bisectRight (xs : List τ) (x : τ) : Nat := bisect (fun y => !decide (x < y)) xs xs.length 0 xs.length

variable {α : Type*} {time : α → τ} {xs : List α}

theorem bisectLeft_eq (sorted : xs.Pairwise (time · ≤ time ·)) (x : τ) :
    bisectLeft (xs.map time) x = (xs.filter fun y => time y < x).length := by
  have partitioned : Partitioned (fun y => decide (y < x)) (xs.map time) :=
    (pairwise_map.2 sorted).imp fun le below => decide_eq_true (le.trans_lt (of_decide_eq_true below))
  rw [bisectLeft, bisect_eq partitioned, filter_map, length_map]
  rfl

theorem bisectRight_eq (sorted : xs.Pairwise (time · ≤ time ·)) (x : τ) :
    bisectRight (xs.map time) x = (xs.filter fun y => time y ≤ x).length := by
  have partitioned : Partitioned (fun y => !decide (x < y)) (xs.map time) := by
    refine (pairwise_map.2 sorted).imp fun {a b} le within => ?_
    rw [Bool.not_eq_true', decide_eq_false_iff_not] at within ⊢
    exact fun above => within (above.trans_le le)
  rw [bisectRight, bisect_eq partitioned, filter_map, length_map]
  simp only [Function.comp_def, ← decide_not, not_lt]

theorem slice_between {first second : α → Bool} (low : Partitioned first xs) (high : Partitioned second xs) :
    (xs.take (xs.filter second).length).drop (xs.filter first).length = xs.filter fun x => second x && !first x := by
  induction xs with
  | nil => rfl
  | cons x rest ih =>
    by_cases passes : second x = true
    · by_cases early : first x = true
      · rw [filter_cons_of_pos passes, filter_cons_of_pos early, length_cons, length_cons,
          take_succ_cons, drop_succ_cons, ih (pairwise_cons.1 low).2 (pairwise_cons.1 high).2,
          filter_cons_of_neg (by simp [early])]
      · have none_early := filter_eq_nil_iff.1 (filter_of_failing low early)
        rw [filter_cons_of_neg early, filter_of_failing low early, length_nil, drop_zero, take_filter high]
        refine filter_congr fun y member => ?_
        rcases mem_cons.1 member with rfl | later
        · simp [early]
        · simp [none_early y later]
    · have none_passes := filter_eq_nil_iff.1 (filter_of_failing high passes)
      rw [filter_cons_of_neg passes, filter_of_failing high passes, length_nil, take_zero, drop_nil,
        filter_cons_of_neg (by simp [passes]), eq_comm]
      exact filter_eq_nil_iff.2 fun y member => by simp [none_passes y member]

theorem slice_of_two {first second : α → τ} (low : xs.Pairwise (first · ≤ first ·))
    (high : xs.Pairwise (second · ≤ second ·)) (lo hi : τ) :
    (xs.take (bisectRight (xs.map second) hi)).drop (bisectLeft (xs.map first) lo) =
      xs.filter fun y => lo ≤ first y ∧ second y ≤ hi := by
  have below : Partitioned (fun y => decide (first y < lo)) xs :=
    low.imp fun le less => decide_eq_true (le.trans_lt (of_decide_eq_true less))
  have upto : Partitioned (fun y => decide (second y ≤ hi)) xs :=
    high.imp fun le within => decide_eq_true (le.trans (of_decide_eq_true within))
  rw [bisectLeft_eq low, bisectRight_eq high, slice_between below upto]
  refine filter_congr fun y _ => ?_
  rw [Bool.decide_and, Bool.and_comm, ← decide_not]
  simp only [not_lt]

theorem slice_eq (sorted : xs.Pairwise (time · ≤ time ·)) (lo hi : τ) :
    (xs.take (bisectRight (xs.map time) hi)).drop (bisectLeft (xs.map time) lo) =
      xs.filter fun y => lo ≤ time y ∧ time y ≤ hi :=
  slice_of_two sorted sorted lo hi

end

end Lib.Bisect

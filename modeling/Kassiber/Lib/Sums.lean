import Kassiber.Lib.Outcome
import Kassiber.Lib.Sorting

/-!
Sums over lists of keyed items: a sum is the sum of its fibres, and a sum over a flattened list is
the sum of the sums.
-/

namespace Lib.Sums
open Lib.Outcome Lib.Sorting List

universe u
variable {α β κ M : Type*} [AddCommMonoid M]

theorem sum_flatMap (f : α → List β) (weight : β → M) (xs : List α) :
    ((xs.flatMap f).map weight).sum = (xs.map fun x => ((f x).map weight).sum).sum := by
  induction xs with
  | nil => rfl
  | cons x rest ih => rw [flatMap_cons, map_append, sum_append, ih, map_cons, sum_cons]

theorem sum_filter (keep : α → Prop) [DecidablePred keep] (weight : α → M) (xs : List α) :
    ((xs.filter fun x => keep x).map weight).sum = (xs.map fun x => if keep x then weight x else 0).sum := by
  induction xs with
  | nil => rfl
  | cons x rest ih =>
    by_cases held : keep x
    · rw [filter_cons_of_pos (by simpa using held)]
      simp [held, ih]
    · rw [filter_cons_of_neg (by simpa using held)]
      simp [held, ih]

theorem sum_filter_split (keep part : α → Prop) [DecidablePred keep] [DecidablePred part] (weight : α → M) (xs : List α) :
    ((xs.filter fun x => keep x).map weight).sum =
      (((xs.filter fun x => ¬part x).filter fun x => keep x).map weight).sum +
        ((xs.filter fun x => keep x ∧ part x).map weight).sum := by
  rw [filter_filter]
  induction xs with
  | nil => simp
  | cons x rest ih =>
    by_cases kept : keep x
    · by_cases inside : part x
      · simp [kept, inside, ih, add_left_comm]
      · simp [kept, inside, ih, add_assoc]
    · simp [kept, ih]

theorem sum_filterMap (f : α → Option β) (weight : β → M) (xs : List α) :
    ((xs.filterMap f).map weight).sum = (xs.map fun x => ((f x).map weight).getD 0).sum := by
  induction xs with
  | nil => rfl
  | cons x rest ih =>
    cases image : f x with
    | none => simp [image, ih]
    | some y => simp [image, ih]

theorem sum_mapM {ε : Type*} {α β : Type u} {f : α → Except ε (List β)} {weight : β → M} {total : α → M} {xs : List α}
    {parts : List (List β)} (run : xs.mapM f = .ok parts)
    (step : ∀ x ∈ xs, ∀ part, f x = .ok part → (part.map weight).sum = total x) :
    (parts.flatten.map weight).sum = (xs.map total).sum := by
  have paired := mapM_ok.1 run
  clear run
  induction paired with
  | nil => rfl
  | cons head _ ih =>
    rw [flatten_cons, map_append, sum_append, map_cons, sum_cons,
      step _ (.head _) _ head, ih fun x member => step x (.tail _ member)]

theorem sum_swap (f : α → β → M) (xs : List α) (ys : List β) :
    (xs.map fun x => (ys.map fun y => f x y).sum).sum = (ys.map fun y => (xs.map fun x => f x y).sum).sum := by
  simpa using @Multiset.sum_map_sum_map _ _ _ _ (xs : Multiset α) (ys : Multiset β) f

theorem sum_first {κ : Type*} [LinearOrder κ] {key : α → κ} {xs : List α} (strict : xs.Pairwise (key · < key ·))
    (p : α → Prop) [DecidablePred p] (m : M) :
    (xs.map fun x => if p x ∧ ∀ y ∈ xs, key y < key x → ¬p y then m else 0).sum = if ∃ x ∈ xs, p x then m else 0 := by
  cases found : xs.find? fun x => p x with
  | none =>
    have none : ∀ x ∈ xs, ¬p x := by simpa using found
    rw [if_neg (by rintro ⟨x, member, held⟩; exact none x member held)]
    refine sum_eq_zero ?_
    intro w member
    obtain ⟨x, inside, rfl⟩ := mem_map.1 member
    exact if_neg fun held => none x inside held.1
  | some x =>
    obtain ⟨held, before, after, rfl, clean⟩ := List.find?_eq_some_iff_append.1 found
    have held : p x := by simpa using held
    have clean : ∀ y ∈ before, ¬p y := by simpa using clean
    rw [if_pos ⟨x, by simp, held⟩, map_append, map_cons, sum_append, sum_cons]
    have early : (before.map fun y => if p y ∧ ∀ z ∈ before ++ x :: after, key z < key y → ¬p z then m else 0).sum = 0 := by
      refine sum_eq_zero ?_
      intro w member
      obtain ⟨y, inside, rfl⟩ := mem_map.1 member
      exact if_neg fun held => clean y inside held.1
    have late : (after.map fun y => if p y ∧ ∀ z ∈ before ++ x :: after, key z < key y → ¬p z then m else 0).sum = 0 := by
      refine sum_eq_zero ?_
      intro w member
      obtain ⟨y, inside, rfl⟩ := mem_map.1 member
      refine if_neg fun first => first.2 x (by simp) ?_ held
      exact (pairwise_cons.1 (pairwise_append.1 strict).2.1).1 y inside
    have own : p x ∧ ∀ z ∈ before ++ x :: after, key z < key x → ¬p z :=
      ⟨held, fun z member less => clean z ((mem_before_iff strict).2 ⟨member, less⟩)⟩
    rw [early, late, if_pos own, zero_add, add_zero]

variable [DecidableEq κ]

theorem sum_indicator {keys : List κ} (nodup : keys.Nodup) {k : κ} (member : k ∈ keys) (m : M) :
    (keys.map fun other => if k = other then m else 0).sum = m := by
  induction keys with
  | nil => cases member
  | cons first rest ih =>
    obtain ⟨fresh, later⟩ := nodup_cons.1 nodup
    rw [map_cons, sum_cons]
    rcases mem_cons.1 member with rfl | old
    · have zero : (rest.map fun other => if k = other then m else 0).sum = 0 := by
        refine sum_eq_zero ?_
        intro y present
        obtain ⟨other, inside, rfl⟩ := mem_map.1 present
        exact if_neg fun same : k = other => fresh (same ▸ inside)
      rw [zero, if_pos rfl, add_zero]
    · rw [if_neg fun same : k = first => fresh (same ▸ old), zero_add]
      exact ih later old

theorem sum_fibers (key : α → κ) {keys : List κ} (nodup : keys.Nodup) (weight : α → M) {xs : List α}
    (keyed : ∀ x ∈ xs, key x ∈ keys) :
    (xs.map weight).sum = (keys.map fun k => ((xs.filter fun x => key x = k).map weight).sum).sum := by
  induction xs with
  | nil => simp
  | cons x rest ih =>
    have split : ∀ k, (((x :: rest).filter fun y => key y = k).map weight).sum =
        (if key x = k then weight x else 0) + ((rest.filter fun y => key y = k).map weight).sum := by
      intro k
      by_cases same : key x = k
      · simp [same]
      · simp [same]
    simp only [split, sum_map_add]
    rw [sum_indicator nodup (keyed x mem_cons_self), map_cons, sum_cons, ih fun y member => keyed y (.tail _ member)]

end Lib.Sums

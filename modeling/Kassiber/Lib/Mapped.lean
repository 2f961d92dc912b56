import Kassiber.Lib.Dict
import Kassiber.Lib.Sorting

/-!
Lookups, sorts and groupings of mapped items are those of the items, under the keys of their images.
-/

namespace Lib.Mapped
open Lib.Dict Lib.Sorting
open List hiding lookup

variable {α β κ : Type*}

theorem lookup_map [DecidableEq κ] (key : β → κ) (f : α → β) (xs : List α) (k : κ) :
    lookup ((xs.map f).map fun y => (key y, y)) k = (lookup (xs.map fun x => (key (f x), x)) k).map f := by
  unfold lookup
  rw [map_map, ← map_reverse, ← map_reverse, find?_map, find?_map, Option.map_map,
    Option.map_map, Option.map_map]
  rfl

theorem sortedBy_map [LinearOrder κ] (key : β → κ) (f : α → β) (xs : List α) :
    sortedBy key (xs.map f) = (sortedBy (fun x => key (f x)) xs).map f :=
  (map_insertionSort _ _ f xs fun _ _ _ _ => Iff.rfl).symm

theorem appendTo_map [DecidableEq κ] (f : α → β) (k : κ) (x : α) (groups : List (κ × List α)) :
    appendTo k (f x) (groups.map (Prod.map id (map f))) = (appendTo k x groups).map (Prod.map id (map f)) := by
  induction groups with
  | nil => rfl
  | cons group rest ih =>
    rw [map_cons]
    unfold appendTo
    by_cases same : group.1 = k
    · rw [if_pos same, if_pos (show (Prod.map id (map f) group).1 = k from same), map_cons]
      congr 1
      exact Prod.ext rfl (by simp)
    · rw [if_neg same, if_neg (show ¬ (Prod.map id (map f) group).1 = k from same), map_cons, ih]

theorem groupBy_map [DecidableEq κ] (key : β → κ) (f : α → β) (xs : List α) :
    groupBy key (xs.map f) = (groupBy (fun x => key (f x)) xs).map (Prod.map id (map f)) := by
  unfold groupBy
  rw [foldl_map]
  suffices general : ∀ groups : List (κ × List α),
      xs.foldl (fun found x => appendTo (key (f x)) (f x) found) (groups.map (Prod.map id (map f))) =
        (xs.foldl (fun found x => appendTo (key (f x)) x found) groups).map (Prod.map id (map f)) from general []
  induction xs with
  | nil => exact fun groups => rfl
  | cons x rest ih =>
    intro groups
    rw [foldl_cons, foldl_cons, appendTo_map, ih]

end Lib.Mapped

import Kassiber.Lib.Sums

/-!
Consecutive intervals of given lengths on a line, and the overlaps of two such rows of intervals up to an
amount.
-/

namespace Lib.Overlaps
open Lib.Sorting Lib.Sums List
open Option (map_some getD_some)
open Prod (fst snd)

variable {α β : Type*}

def total (lengths : List (α × Int)) : Int := (lengths.map snd).sum

/-- The intervals that lengths cover one after the other from a start. -/
def intervals : Int → List (α × Int) → List (α × Int × Int)
  | _, [] => []
  | start, (label, length) :: rest => (label, start, start + length) :: intervals (start + length) rest

@[simp] theorem total_nil : total ([] : List (α × Int)) = 0 := rfl

@[simp] theorem total_cons (entry : α × Int) (rest : List (α × Int)) :
    total (entry :: rest) = entry.2 + total rest := by
  simp [total]

@[simp] theorem total_append (xs ys : List (α × Int)) : total (xs ++ ys) = total xs + total ys := by simp [total]

variable {xs : List (α × Int)}

theorem total_nonneg (nonneg : ∀ entry ∈ xs, 0 ≤ entry.2) : 0 ≤ total xs := by
  refine sum_nonneg fun length member => ?_
  obtain ⟨entry, inside, rfl⟩ := mem_map.1 member
  exact nonneg entry inside

theorem intervals_append (start : Int) (xs ys : List (α × Int)) :
    intervals start (xs ++ ys) = intervals start xs ++ intervals (start + total xs) ys := by
  induction xs generalizing start with
  | nil => simp [intervals]
  | cons entry rest ih =>
    rw [cons_append, intervals, ih, intervals, cons_append, total_cons, add_assoc]

theorem intervals_getElem? (start : Int) (xs : List (α × Int)) (i : Nat) :
    (intervals start xs)[i]? =
      xs[i]?.map fun entry => (entry.1, start + total (xs.take i), start + total (xs.take i) + entry.2) := by
  induction xs generalizing start i with
  | nil => simp [intervals]
  | cons entry rest ih =>
    cases i with
    | zero => simp [intervals]
    | succ i =>
      rw [intervals, getElem?_cons_succ, ih, getElem?_cons_succ, take_succ_cons, total_cons, add_assoc]

theorem intervals_length (start : Int) (xs : List (α × Int)) : (intervals start xs).length = xs.length := by
  induction xs generalizing start with
  | nil => rfl
  | cons entry rest ih => rw [intervals, length_cons, length_cons, ih]

theorem intervals_bounds {start : Int} (nonneg : ∀ entry ∈ xs, 0 ≤ entry.2)
    {label : α} {lo hi : Int} (member : (label, lo, hi) ∈ intervals start xs) :
    start ≤ lo ∧ lo ≤ hi ∧ hi ≤ start + total xs := by
  induction xs generalizing start with
  | nil => cases member
  | cons entry rest ih =>
    have first := nonneg entry (.head _)
    have later := total_nonneg fun other inside => nonneg other (.tail _ inside)
    rw [total_cons]
    rcases mem_cons.1 member with same | tail
    · cases same
      omega
    · have bounds := ih (fun other inside => nonneg other (.tail _ inside)) tail
      omega

variable {i : Nat} {entry : α × Int}

theorem total_take_mono (nonneg : ∀ entry ∈ xs, 0 ≤ entry.2) {j : Nat} (le : i ≤ j) :
    total (xs.take i) ≤ total (xs.take j) := by
  have split : xs.take j = xs.take i ++ (xs.take j).drop i := by
    conv_lhs => rw [← take_append_drop i (xs.take j), take_take, min_eq_left le]
  rw [split, total_append]
  have rest : 0 ≤ total ((xs.take j).drop i) := total_nonneg fun entry member =>
    nonneg entry (mem_of_mem_take (mem_of_mem_drop member))
  omega

theorem total_take_succ (found : xs[i]? = some entry) :
    total (xs.take (i + 1)) = total (xs.take i) + entry.2 := by
  rw [take_add_one, found, Option.toList_some, total_append, total_cons, total_nil, add_zero]

theorem total_take_length (xs : List (α × Int)) (beyond : xs.length ≤ i) : total (xs.take i) = total xs := by
  rw [take_of_length_le beyond]

/-- A part that an interval of one row shares with an interval of the other, with its offsets inside both. -/
structure Overlap (α β : Type*) where
  left : α
  right : β
  length : Int
  leftStart : Int
  rightStart : Int

def overlap (amount : Int) (x : α × Int × Int) (y : β × Int × Int) : Option (Overlap α β) :=
  let lo := max x.2.1 y.2.1
  let hi := min (min x.2.2 y.2.2) amount
  if lo < hi then
    some { left := x.1, right := y.1, length := hi - lo, leftStart := lo - x.2.1, rightStart := lo - y.2.1 }
  else none

/-- The non-empty overlaps of two rows of intervals inside an amount, from the first to the last. -/
def overlaps (amount : Int) (xs : List (α × Int)) (ys : List (β × Int)) : List (Overlap α β) :=
  (intervals 0 xs).flatMap fun x => (intervals 0 ys).filterMap fun y => overlap amount x y

section
variable {amount later : Int} {x : α × Int × Int} {y : β × Int × Int}

theorem overlap_settled (le : amount ≤ later) (settled : x.2.2 ≤ amount ∨ y.2.2 ≤ amount) :
    overlap later x y = overlap amount x y := by
  have same : min (min x.2.2 y.2.2) later = min (min x.2.2 y.2.2) amount := by
    rcases settled with end_x | end_y <;> omega
  unfold overlap
  rw [same]

theorem overlap_beyond (beyond : amount ≤ x.2.1 ∨ amount ≤ y.2.1) : overlap amount x y = none := by
  refine if_neg ?_
  omega

end

theorem overlaps_zero {ys : List (β × Int)} (nonneg : ∀ entry ∈ xs, 0 ≤ entry.2) :
    overlaps 0 xs ys = [] := by
  refine flatMap_eq_nil_iff.2 fun x member => filterMap_eq_nil_iff.2 fun y _ => overlap_beyond (.inl ?_)
  exact (intervals_bounds nonneg member).1

theorem split_at (found : xs[i]? = some entry) :
    xs = xs.take i ++ entry :: xs.drop (i + 1) := by
  obtain ⟨inside, rfl⟩ := List.getElem?_eq_some_iff.1 found
  rw [← drop_eq_getElem_cons inside, take_append_drop]

theorem intervals_split (nonneg : ∀ entry ∈ xs, 0 ≤ entry.2) (found : xs[i]? = some entry) :
    ∃ before after, intervals 0 xs = before ++ (entry.1, total (xs.take i), total (xs.take i) + entry.2) :: after ∧
      (∀ x ∈ before, x.2.2 ≤ total (xs.take i)) ∧ ∀ x ∈ after, total (xs.take i) + entry.2 ≤ x.2.1 := by
  refine ⟨intervals 0 (xs.take i), intervals (total (xs.take i) + entry.2) (xs.drop (i + 1)), ?_, fun x member => ?_,
    fun x member => ?_⟩
  · conv_lhs => rw [split_at found, intervals_append, zero_add, intervals]
  · have bounds := intervals_bounds (fun other inside => nonneg other (mem_of_mem_take inside)) member
    rw [zero_add] at bounds
    exact bounds.2.2
  · exact (intervals_bounds (fun other inside => nonneg other (mem_of_mem_drop inside)) member).1

section
variable {xs : List (α × Int)} {ys : List (β × Int)} {i j : Nat} {source : α × Int} {sink : β × Int}
  {amount later : Int}

theorem overlap_row_snoc (nonneg : ∀ entry ∈ ys, 0 ≤ entry.2) (there : ys[j]? = some sink) (less : amount < later)
    (starts : amount = max (total (xs.take i)) (total (ys.take j))) (ends : later ≤ total (xs.take i) + source.2)
    (ends' : later ≤ total (ys.take j) + sink.2) :
    (intervals 0 ys).filterMap (overlap later (source.1, total (xs.take i), total (xs.take i) + source.2)) =
      (intervals 0 ys).filterMap (overlap amount (source.1, total (xs.take i), total (xs.take i) + source.2)) ++
        [{ left := source.1, right := sink.1, length := later - amount, leftStart := amount - total (xs.take i)
           rightStart := amount - total (ys.take j) }] := by
  obtain ⟨before, after, rows, settled, beyond⟩ := intervals_split nonneg there
  have first : ∀ y ∈ before, overlap later (source.1, total (xs.take i), total (xs.take i) + source.2) y =
      overlap amount (source.1, total (xs.take i), total (xs.take i) + source.2) y := by
    intro y member
    have ended := settled y member
    exact overlap_settled less.le (.inr (by omega))
  have last : ∀ bound ≤ later, after.filterMap
      (overlap bound (source.1, total (xs.take i), total (xs.take i) + source.2)) = [] := by
    intro bound within
    refine filterMap_eq_nil_iff.2 fun y member => overlap_beyond (.inr ?_)
    have begun := beyond y member
    omega
  have empty : overlap amount (source.1, total (xs.take i), total (xs.take i) + source.2)
      (sink.1, total (ys.take j), total (ys.take j) + sink.2) = none := if_neg (by dsimp only; omega)
  have starting : max (total (xs.take i)) (total (ys.take j)) = amount := starts.symm
  have ending : min (min (total (xs.take i) + source.2) (total (ys.take j) + sink.2)) later = later := by omega
  have filled : overlap later (source.1, total (xs.take i), total (xs.take i) + source.2)
      (sink.1, total (ys.take j), total (ys.take j) + sink.2) =
        some { left := source.1, right := sink.1, length := later - amount, leftStart := amount - total (xs.take i)
               rightStart := amount - total (ys.take j) } := by
    unfold overlap
    dsimp only
    rw [starting, ending, if_pos less]
  rw [rows, filterMap_append, filterMap_append, filterMap_cons, filterMap_cons, empty, filled,
    filterMap_congr first, last later le_rfl, last amount less.le, append_nil]

theorem overlaps_snoc (nonneg : ∀ entry ∈ xs, 0 ≤ entry.2) (nonneg' : ∀ entry ∈ ys, 0 ≤ entry.2)
    (here : xs[i]? = some source) (there : ys[j]? = some sink) (less : amount < later)
    (starts : amount = max (total (xs.take i)) (total (ys.take j))) (ends : later ≤ total (xs.take i) + source.2)
    (ends' : later ≤ total (ys.take j) + sink.2) :
    overlaps later xs ys = overlaps amount xs ys ++
      [{ left := source.1, right := sink.1, length := later - amount, leftStart := amount - total (xs.take i)
         rightStart := amount - total (ys.take j) }] := by
  obtain ⟨before, after, rows, settled, beyond⟩ := intervals_split nonneg here
  have first : ∀ x ∈ before,
      (intervals 0 ys).filterMap (overlap later x) = (intervals 0 ys).filterMap (overlap amount x) := by
    intro x member
    refine filterMap_congr fun y _ => overlap_settled less.le (.inl ?_)
    have ended := settled x member
    omega
  have last : ∀ bound ≤ later, ∀ x ∈ after, (intervals 0 ys).filterMap (overlap bound x) = [] := by
    intro bound within x member
    refine filterMap_eq_nil_iff.2 fun y _ => overlap_beyond (.inl ?_)
    have begun := beyond x member
    omega
  unfold overlaps
  rw [rows, flatMap_append, flatMap_append, flatMap_cons, flatMap_cons, flatMap_congr first,
    flatMap_eq_nil_iff.2 (last later le_rfl), flatMap_eq_nil_iff.2 (last amount less.le), append_nil,
    append_nil, overlap_row_snoc nonneg' there less starts ends ends', List.append_assoc]

end

section
variable {amount : Int} {x : α × Int × Int}

def shared (amount : Int) (x : α × Int × Int) (y : β × Int × Int) : Int :=
  max 0 (min (min x.2.2 y.2.2) amount - max x.2.1 y.2.1)

theorem shared_comm (amount : Int) (x : α × Int × Int) (y : β × Int × Int) : shared amount x y = shared amount y x := by
  unfold shared
  rw [min_comm x.2.2, max_comm x.2.1]

theorem overlap_length (amount : Int) (x : α × Int × Int) (y : β × Int × Int) :
    ((overlap amount x y).map Overlap.length).getD 0 = shared amount x y := by
  unfold overlap shared
  dsimp only
  split
  · rw [map_some, getD_some]
    dsimp only
    omega
  · rw [Option.map_none, Option.getD_none]
    omega

theorem overlap_some {y : β × Int × Int} {o : Overlap α β} (found : overlap amount x y = some o) :
    o.left = x.1 ∧ o.right = y.1 ∧ 0 < o.length := by
  unfold overlap at found
  dsimp only at found
  split at found
  · cases found
    exact ⟨rfl, rfl, by dsimp only; omega⟩
  · cases found

variable {ys : List (β × Int)}

theorem sum_shared (nonneg : ∀ entry ∈ ys, 0 ≤ entry.2) (start : Int) :
    ((intervals start ys).map (shared amount x)).sum =
      max 0 (min (min x.2.2 (start + total ys)) amount - max x.2.1 start) := by
  induction ys generalizing start with
  | nil =>
    rw [intervals, map_nil, sum_nil, total_nil]
    omega
  | cons entry rest ih =>
    have first := nonneg entry (.head _)
    have later := total_nonneg fun other inside => nonneg other (.tail _ inside)
    rw [intervals, map_cons, sum_cons, ih (fun other inside => nonneg other (mem_cons_of_mem _ inside)),
      total_cons, shared]
    dsimp only
    omega

theorem sum_first_started (nonneg : ∀ entry ∈ ys, 0 ≤ entry.2) {start : Int} (m : Int)
    (started : x.2.1 < start) :
    ((intervals start ys).map fun y =>
      ((overlap amount x y).map fun o => if o.leftStart = 0 then m else 0).getD 0).sum = 0 := by
  refine sum_eq_zero fun value listed => ?_
  obtain ⟨⟨label, lo, hi⟩, member, rfl⟩ := mem_map.1 listed
  have bounds := intervals_bounds nonneg member
  unfold overlap
  dsimp only
  split
  · rw [map_some, getD_some, if_neg]
    dsimp only
    omega
  · rfl

theorem sum_first_offset (nonneg : ∀ entry ∈ ys, 0 ≤ entry.2) {start : Int} (m : Int)
    (before : start ≤ x.2.1) (positive : x.2.1 < x.2.2) (within : x.2.2 ≤ amount) (covered : x.2.2 ≤ start + total ys) :
    ((intervals start ys).map fun y =>
      ((overlap amount x y).map fun o => if o.leftStart = 0 then m else 0).getD 0).sum = m := by
  induction ys generalizing start with
  | nil =>
    rw [total_nil] at covered
    omega
  | cons entry rest ih =>
    have first := nonneg entry (.head _)
    have later : ∀ other ∈ rest, 0 ≤ other.2 := fun other inside => nonneg other (.tail _ inside)
    rw [total_cons] at covered
    rw [intervals, map_cons, sum_cons]
    by_cases ends : start + entry.2 ≤ x.2.1
    · rw [ih later ends (by omega), overlap, if_neg (by dsimp only; omega)]
      exact zero_add m
    · have offset : max x.2.1 start - x.2.1 = 0 := by omega
      rw [sum_first_started later m (not_le.1 ends), overlap, if_pos (by dsimp only; omega), map_some,
        getD_some]
      dsimp only
      rw [if_pos offset, add_zero]

theorem sum_first_empty (start m : Int) (empty : x.2.2 ≤ x.2.1) :
    ((intervals start ys).map fun y =>
      ((overlap amount x y).map fun o => if o.leftStart = 0 then m else 0).getD 0).sum = 0 := by
  refine sum_eq_zero fun value listed => ?_
  obtain ⟨y, -, rfl⟩ := mem_map.1 listed
  have beyond : ¬ max x.2.1 y.2.1 < min (min x.2.2 y.2.2) amount := by omega
  rw [overlap, if_neg beyond]
  rfl

end

section
variable {amount : Int} {xs : List (α × Int)} {ys : List (β × Int)}

theorem intervals_labels (start : Int) (xs : List (α × Int)) : (intervals start xs).map fst = xs.map fst := by
  induction xs generalizing start with
  | nil => rfl
  | cons entry rest ih => rw [intervals, map_cons, map_cons, ih]

variable {entry : α × Int} {o : Overlap α β}

theorem mem_intervals (start : Int) {xs : List (α × Int)} (member : entry ∈ xs) :
    ∃ lo, (entry.1, lo, lo + entry.2) ∈ intervals start xs := by
  obtain ⟨i, inside, rfl⟩ := getElem_of_mem member
  refine ⟨start + total (xs.take i), mem_of_getElem? (i := i) ?_⟩
  rw [intervals_getElem?, getElem?_eq_getElem inside, map_some]

def row (amount : Int) (ys : List (β × Int)) (x : α × Int × Int) : List (Overlap α β) :=
  (intervals 0 ys).filterMap (overlap amount x)

theorem overlaps_rows (amount : Int) (xs : List (α × Int)) (ys : List (β × Int)) :
    overlaps amount xs ys = (intervals 0 xs).flatMap (row amount ys) := rfl

theorem row_label {x : α × Int × Int} (member : o ∈ row amount ys x) : o.left = x.1 := by
  obtain ⟨y, -, found⟩ := mem_filterMap.1 member
  exact (overlap_some found).1

theorem overlaps_left (member : o ∈ overlaps amount xs ys) : o.left ∈ xs.map fst := by
  obtain ⟨x, inside, own⟩ := mem_flatMap.1 member
  rw [row_label own, ← intervals_labels 0 xs]
  exact mem_map_of_mem inside

theorem overlaps_right (member : o ∈ overlaps amount xs ys) : o.right ∈ ys.map fst := by
  obtain ⟨x, -, own⟩ := mem_flatMap.1 member
  obtain ⟨y, inside, found⟩ := mem_filterMap.1 own
  rw [(overlap_some found).2.1, ← intervals_labels 0 ys]
  exact mem_map_of_mem inside

theorem filter_left [DecidableEq α] (distinct : (xs.map fst).Nodup) {x : α × Int × Int}
    (member : x ∈ intervals 0 xs) : (overlaps amount xs ys).filter (fun o => o.left = x.1) = row amount ys x := by
  rw [overlaps_rows]
  have labels : ((intervals 0 xs).map fst).Nodup := intervals_labels 0 xs ▸ distinct
  exact filter_flatMap_key (fun _ _ _ => row_label) labels member

theorem sum_left [DecidableEq α] (distinct : (xs.map fst).Nodup) (nonneg : ∀ entry ∈ xs, 0 ≤ entry.2)
    (nonneg' : ∀ entry ∈ ys, 0 ≤ entry.2) (within : total xs ≤ amount) (covered : total xs ≤ total ys)
    (member : entry ∈ xs) :
    (((overlaps amount xs ys).filter fun o => o.left = entry.1).map Overlap.length).sum = entry.2 := by
  obtain ⟨lo, inside⟩ := mem_intervals 0 member
  have bounds := intervals_bounds nonneg inside
  have own := nonneg entry member
  rw [filter_left distinct inside, row, sum_filterMap]
  simp only [overlap_length]
  rw [sum_shared nonneg']
  dsimp only
  omega

theorem sum_left_first [DecidableEq α] (distinct : (xs.map fst).Nodup) (nonneg : ∀ entry ∈ xs, 0 ≤ entry.2)
    (nonneg' : ∀ entry ∈ ys, 0 ≤ entry.2) (within : total xs ≤ amount) (covered : total xs ≤ total ys)
    (member : entry ∈ xs) (m : Int) :
    (((overlaps amount xs ys).filter fun o => o.left = entry.1).map fun o =>
      if o.leftStart = 0 then m else 0).sum = if 0 < entry.2 then m else 0 := by
  obtain ⟨lo, inside⟩ := mem_intervals 0 member
  have bounds := intervals_bounds nonneg inside
  rw [filter_left distinct inside, row, sum_filterMap]
  split
  · exact sum_first_offset nonneg' m bounds.1 (by dsimp only; omega) (by dsimp only; omega) (by dsimp only; omega)
  · exact sum_first_empty 0 m (by dsimp only; omega)

theorem sum_right [DecidableEq β] (distinct : (ys.map fst).Nodup) (nonneg : ∀ entry ∈ xs, 0 ≤ entry.2)
    (nonneg' : ∀ entry ∈ ys, 0 ≤ entry.2) (within : total ys ≤ amount) (covered : total ys ≤ total xs)
    {entry : β × Int} (member : entry ∈ ys) :
    (((overlaps amount xs ys).filter fun o => o.right = entry.1).map Overlap.length).sum = entry.2 := by
  obtain ⟨lo, inside⟩ := mem_intervals 0 member
  have bounds := intervals_bounds nonneg' inside
  have own := nonneg' entry member
  have labels : ((intervals 0 ys).map fst).Nodup := intervals_labels 0 ys ▸ distinct
  have cell : ∀ x : α × Int × Int, (((row amount ys x).filter fun o => o.right = entry.1).map Overlap.length).sum =
      shared amount (entry.1, lo, lo + entry.2) x := by
    intro x
    obtain ⟨before, after, split⟩ := append_of_mem inside
    rw [split, map_append, map_cons, nodup_middle, nodup_cons] at labels
    have foreign : ∀ part : List (β × Int × Int), (∀ y ∈ part, y.1 ≠ entry.1) →
        (part.filterMap (overlap amount x)).filter (fun o => o.right = entry.1) = [] := by
      intro part apart
      rw [filter_eq_nil_iff]
      intro o listed same
      obtain ⟨y, member, found⟩ := mem_filterMap.1 listed
      exact apart y member ((overlap_some found).2.1.symm.trans (of_decide_eq_true same))
    have apart : ∀ y ∈ before ++ after, y.1 ≠ entry.1 :=
      fun y member same => labels.1 (map_append ▸ same ▸ mem_map_of_mem member)
    rw [row, split, filterMap_append, filterMap_cons, filter_append,
      foreign before fun y member => apart y (mem_append_left _ member), nil_append]
    have rest := foreign after fun y member => apart y (mem_append_right _ member)
    rw [shared_comm, ← overlap_length]
    cases found : overlap amount x (entry.1, lo, lo + entry.2) with
    | none =>
      dsimp only
      rw [rest]
      rfl
    | some o =>
      dsimp only
      rw [filter_cons, if_pos (decide_eq_true (overlap_some found).2.1), rest]
      exact add_zero _
  rw [overlaps_rows, filter_flatMap, sum_flatMap]
  simp only [cell]
  rw [sum_shared nonneg]
  dsimp only
  omega

theorem overlaps_pairs (distinct : (xs.map fst).Nodup) (distinct' : (ys.map fst).Nodup) :
    ((overlaps amount xs ys).map fun o => (o.left, o.right)).Nodup := by
  rw [overlaps_rows, map_flatMap, nodup_flatMap]
  refine ⟨fun x _ => ?_, ?_⟩
  · have labels : ((intervals 0 ys).map fst).Nodup := intervals_labels 0 ys ▸ distinct'
    refine List.Nodup.of_map snd (List.Nodup.sublist ?_ labels)
    rw [map_map, row]
    generalize intervals 0 ys = part
    induction part with
    | nil => exact List.Sublist.slnil
    | cons y rest ih =>
      rw [filterMap_cons]
      cases found : overlap amount x y with
      | none => exact ih.cons y.1
      | some o =>
        have same : o.right = y.1 := (overlap_some found).2.1
        rw [map_cons, map_cons, Function.comp_apply, same]
        exact ih.cons_cons y.1
  · have labels : ((intervals 0 xs).map fst).Nodup := intervals_labels 0 xs ▸ distinct
    refine (pairwise_map.1 labels).imp fun {x x'} apart pair inRow inRow' => apart ?_
    obtain ⟨o, member, rfl⟩ := mem_map.1 inRow
    obtain ⟨o', member', same⟩ := mem_map.1 inRow'
    rw [← row_label member, ← row_label member']
    exact (Prod.mk.inj same).1.symm

end

end Lib.Overlaps

import Mathlib

/-!
Half-open ranges that tile an interval: consecutive, non-empty, without gap or overlap.
-/

namespace Lib.Tiling
open List

variable {κ : Type*} [LinearOrder κ]

/-- `ranges` tile `[lo, hi)` from left to right. -/
def Tiles : κ → List (κ × κ) → κ → Prop
  | lo, [], hi => lo = hi
  | lo, r :: rest, hi => r.1 = lo ∧ r.1 < r.2 ∧ Tiles r.2 rest hi

/-- `ranges` tile `[lo, hi)` in some order. -/
def Partitions (lo : κ) (ranges : List (κ × κ)) (hi : κ) : Prop :=
  ∃ ordered, ordered.Perm ranges ∧ Tiles lo ordered hi

variable {ranges : List (κ × κ)} {lo hi cursor : κ}

theorem tiles_le (tiles : Tiles lo ranges hi) : lo ≤ hi := by
  induction ranges generalizing lo with
  | nil => exact le_of_eq tiles
  | cons r rest ih =>
    obtain ⟨rfl, proper, later⟩ := tiles
    exact le_of_lt (lt_of_lt_of_le proper (ih later))

theorem tiles_append {mid : κ} {left right : List (κ × κ)} (first : Tiles lo left mid)
    (second : Tiles mid right hi) : Tiles lo (left ++ right) hi := by
  induction left generalizing lo with
  | nil =>
    have same : lo = mid := first
    rw [same]
    exact second
  | cons r rest ih =>
    obtain ⟨start, proper, later⟩ := first
    exact ⟨start, proper, ih later⟩

theorem tiles_empty_iff : Tiles lo ranges lo ↔ ranges = [] := by
  cases ranges with
  | nil => simp [Tiles]
  | cons r rest =>
    refine ⟨?_, by simp⟩
    rintro ⟨rfl, proper, later⟩
    exact absurd (tiles_le later) (not_le.2 proper)

theorem tiles_bounds (tiles : Tiles lo ranges hi) {r : κ × κ}
    (member : r ∈ ranges) : lo ≤ r.1 ∧ r.1 < r.2 ∧ r.2 ≤ hi := by
  induction ranges generalizing lo with
  | nil => simp at member
  | cons s rest ih =>
    obtain ⟨rfl, proper, later⟩ := tiles
    rcases mem_cons.1 member with rfl | old
    · exact ⟨le_rfl, proper, tiles_le later⟩
    · obtain ⟨above, inner, below⟩ := ih later old
      exact ⟨le_trans (le_of_lt proper) above, inner, below⟩

theorem tiles_pairwise (tiles : Tiles lo ranges hi) : ranges.Pairwise fun r s => r.2 ≤ s.1 := by
  induction ranges generalizing lo with
  | nil => exact List.Pairwise.nil
  | cons r rest ih =>
    obtain ⟨-, -, later⟩ := tiles
    exact pairwise_cons.2 ⟨fun s member => (tiles_bounds later member).1, ih later⟩

theorem tiles_strict (tiles : Tiles lo ranges hi) : ranges.Pairwise fun r s => r.1 < s.1 := by
  have follow := tiles_pairwise tiles
  refine (pairwise_iff_forall_sublist.2 ?_)
  intro r s sub
  have proper := (tiles_bounds tiles (sub.subset (by simp) : r ∈ ranges)).2.1
  exact lt_of_lt_of_le proper (pairwise_iff_forall_sublist.1 follow sub)

theorem partitions_perm {ranges others : List (κ × κ)} (parts : Partitions lo ranges hi)
    (perm : ranges.Perm others) : Partitions lo others hi := by
  obtain ⟨ordered, same, tiles⟩ := parts
  exact ⟨ordered, same.trans perm, tiles⟩

def segments (cuts : List κ) : List (κ × κ) := cuts.zip cuts.tail

theorem segments_tile {a : κ} {rest : List κ} (strict : (a :: rest).Pairwise (· < ·)) :
    Tiles a (segments (a :: rest)) ((a :: rest).getLast (cons_ne_nil a rest)) := by
  induction rest generalizing a with
  | nil => rfl
  | cons b rest ih =>
    obtain ⟨first, later⟩ := pairwise_cons.1 strict
    exact ⟨rfl, first b (.head _), ih later⟩

theorem segments_tiles {cuts : List κ} (strict : cuts.Pairwise (· < ·)) (low : lo ∈ cuts)
    (high : hi ∈ cuts) (bounded : ∀ c ∈ cuts, lo ≤ c ∧ c ≤ hi) : Tiles lo (segments cuts) hi := by
  cases cuts with
  | nil => simp at low
  | cons a rest =>
    obtain ⟨first, -⟩ := pairwise_cons.1 strict
    have start : a = lo := by
      rcases mem_cons.1 low with same | later
      · exact same.symm
      · exact absurd (first lo later) (not_lt.2 (bounded a (.head _)).1)
    have final : (a :: rest).getLast (cons_ne_nil a rest) = hi := by
      refine le_antisymm (bounded _ (getLast_mem _)).2 ?_
      obtain ⟨i, hi', rfl⟩ := getElem_of_mem high
      rw [getLast_eq_getElem]
      rcases Nat.lt_or_ge i ((a :: rest).length - 1) with before | last
      · exact le_of_lt (pairwise_iff_getElem.1 strict i _ hi' (by simp) before)
      · have same : i = (a :: rest).length - 1 := by omega
        simp only [same, le_refl]
    have tiles := segments_tile strict
    rw [final] at tiles
    exact start ▸ tiles

/-- What `ranges`, in order, leave uncovered between `cursor` and `hi`. -/
def gaps : κ → List (κ × κ) → κ → List (κ × κ)
  | cursor, [], hi => if cursor < hi then [(cursor, hi)] else []
  | cursor, r :: rest, hi => (if cursor < r.1 then [(cursor, r.1)] else []) ++ gaps r.2 rest hi

/-- Disjoint ranges in order, all inside `[cursor, hi)`. -/
def Spaced : κ → List (κ × κ) → κ → Prop
  | cursor, [], hi => cursor ≤ hi
  | cursor, r :: rest, hi => cursor ≤ r.1 ∧ r.1 < r.2 ∧ Spaced r.2 rest hi

theorem gaps_partition (spaced : Spaced cursor ranges hi) :
    Partitions cursor (ranges ++ gaps cursor ranges hi) hi := by
  induction ranges generalizing cursor with
  | nil =>
    by_cases room : cursor < hi
    · exact ⟨[(cursor, hi)], by simp [gaps, room], rfl, room, rfl⟩
    · exact ⟨[], by simp [gaps, room], le_antisymm spaced (not_lt.1 room)⟩
  | cons r rest ih =>
    obtain ⟨ahead, proper, later⟩ := spaced
    obtain ⟨ordered, perm, tiles⟩ := ih later
    by_cases room : cursor < r.1
    · refine ⟨(cursor, r.1) :: r :: ordered, ?_, rfl, room, rfl, proper, tiles⟩
      have moved : (r :: rest ++ ((cursor, r.1) :: gaps r.2 rest hi)).Perm
          ((cursor, r.1) :: r :: (rest ++ gaps r.2 rest hi)) := by
        simpa using @perm_middle _ (cursor, r.1) (r :: rest) (gaps r.2 rest hi)
      simpa [gaps, room] using ((perm.cons r).cons (cursor, r.1)).trans moved.symm
    · have same : cursor = r.1 := le_antisymm ahead (not_lt.1 room)
      refine ⟨r :: ordered, ?_, same.symm, proper, tiles⟩
      simpa [gaps, room] using perm.cons r

theorem spaced_mono {far : κ} (spaced : Spaced cursor ranges hi) (beyond : hi ≤ far) :
    Spaced cursor ranges far := by
  induction ranges generalizing cursor with
  | nil => exact le_trans spaced beyond
  | cons r rest ih => exact ⟨spaced.1, spaced.2.1, ih spaced.2.2⟩

theorem spaced_append {r : κ × κ} (spaced : Spaced cursor ranges hi)
    (ahead : hi ≤ r.1) (proper : r.1 < r.2) : Spaced cursor (ranges ++ [r]) r.2 := by
  induction ranges generalizing cursor with
  | nil => exact ⟨le_trans spaced ahead, proper, le_rfl⟩
  | cons first rest ih => exact ⟨spaced.1, spaced.2.1, ih spaced.2.2⟩

theorem spaced_bounds (spaced : Spaced cursor ranges hi) {r : κ × κ}
    (member : r ∈ ranges) : cursor ≤ r.1 ∧ r.1 < r.2 := by
  induction ranges generalizing cursor with
  | nil => cases member
  | cons first rest ih =>
    obtain ⟨ahead, proper, later⟩ := spaced
    rcases mem_cons.1 member with rfl | old
    · exact ⟨ahead, proper⟩
    · obtain ⟨above, inner⟩ := ih later old
      exact ⟨le_trans (le_trans ahead (le_of_lt proper)) above, inner⟩

theorem spaced_pairwise (spaced : Spaced cursor ranges hi) :
    ranges.Pairwise fun r s => r.2 ≤ s.1 := by
  induction ranges generalizing cursor with
  | nil => exact List.Pairwise.nil
  | cons first rest ih =>
    obtain ⟨-, -, later⟩ := spaced
    exact pairwise_cons.2 ⟨fun s member => (spaced_bounds later member).1, ih later⟩

theorem spaced_of_pairwise (room : lo ≤ hi) (inside : ∀ r ∈ ranges, lo ≤ r.1 ∧ r.1 < r.2 ∧ r.2 ≤ hi)
    (disjoint : ranges.Pairwise fun r s => r.2 ≤ s.1) : Spaced lo ranges hi := by
  induction ranges generalizing lo with
  | nil => exact room
  | cons r rest ih =>
    obtain ⟨follow, later⟩ := pairwise_cons.1 disjoint
    obtain ⟨above, proper, below⟩ := inside r (.head _)
    refine ⟨above, proper, ih below ?_ later⟩
    intro s member
    obtain ⟨-, inner, bounded⟩ := inside s (.tail _ member)
    exact ⟨follow s member, inner, bounded⟩

theorem gaps_bounds (spaced : Spaced cursor ranges hi) {g : κ × κ}
    (member : g ∈ gaps cursor ranges hi) : cursor ≤ g.1 ∧ g.1 < g.2 ∧ g.2 ≤ hi := by
  obtain ⟨ordered, perm, tiles⟩ := gaps_partition spaced
  exact tiles_bounds tiles (perm.mem_iff.2 (mem_append_right _ member))

section
variable {G : Type*} [LinearOrder G] [AddCommGroup G] {ranges : List (G × G)}

theorem tiles_sum {lo hi : G} (tiles : Tiles lo ranges hi) : (ranges.map fun r => r.2 - r.1).sum = hi - lo := by
  induction ranges generalizing lo with
  | nil =>
    have same : lo = hi := tiles
    simp [same]
  | cons r rest ih =>
    obtain ⟨rfl, -, later⟩ := tiles
    rw [map_cons, sum_cons, ih later]
    abel

theorem partitions_sum {lo hi : G} (parts : Partitions lo ranges hi) :
    (ranges.map fun r => r.2 - r.1).sum = hi - lo := by
  obtain ⟨ordered, perm, tiles⟩ := parts
  rw [← (perm.map fun r => r.2 - r.1).sum_eq]
  exact tiles_sum tiles

theorem spaced_sum_le [IsOrderedAddMonoid G] {cursor hi : G} (spaced : Spaced cursor ranges hi) :
    (ranges.map fun r => r.2 - r.1).sum ≤ hi - cursor := by
  induction ranges generalizing cursor with
  | nil => simpa [Spaced] using spaced
  | cons r rest ih =>
    obtain ⟨ahead, -, later⟩ := spaced
    rw [map_cons, sum_cons]
    calc r.2 - r.1 + (rest.map fun r => r.2 - r.1).sum ≤ r.2 - r.1 + (hi - r.2) := by gcongr; exact ih later
      _ = hi - r.1 := by abel
      _ ≤ hi - cursor := by gcongr

theorem tiles_of_sum [IsOrderedAddMonoid G] {cursor hi : G} (spaced : Spaced cursor ranges hi)
    (full : (ranges.map fun r => r.2 - r.1).sum = hi - cursor) : Tiles cursor ranges hi := by
  induction ranges generalizing cursor with
  | nil =>
    have zero : hi - cursor = 0 := by simpa using full.symm
    exact (sub_eq_zero.1 zero).symm
  | cons r rest ih =>
    obtain ⟨ahead, proper, later⟩ := spaced
    rw [map_cons, sum_cons] at full
    have short := spaced_sum_le later
    have start : r.1 = cursor := by
      refine le_antisymm ?_ ahead
      have bound : hi - cursor ≤ r.2 - r.1 + (hi - r.2) := by
        rw [← full]
        gcongr
      have same : r.2 - r.1 + (hi - r.2) = hi - r.1 := by abel
      rw [same] at bound
      exact (sub_le_sub_iff_left hi).1 bound
    refine ⟨start, proper, ih later ?_⟩
    have rest_sum : (rest.map fun r => r.2 - r.1).sum = hi - cursor - (r.2 - r.1) := eq_sub_of_add_eq' full
    rw [rest_sum, start]
    abel

end

end Lib.Tiling

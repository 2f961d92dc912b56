import Kassiber.Lib.Sorting

/-!
Texts that people type: stripping blanks, and lists of labels that differ by a folded key, each kept as
it was first written and listed in the order of the keys.
-/

namespace Lib.Labelling
open Lib.Sorting List

def isBlank (c : Char) : Bool :=
  let n := c.toNat
  (9 ≤ n && n ≤ 13) || (28 ≤ n && n ≤ 32) || n == 0x85 || n == 0xa0 || n == 0x1680 || (0x2000 ≤ n && n ≤ 0x200a) ||
    n == 0x2028 || n == 0x2029 || n == 0x202f || n == 0x205f || n == 0x3000

def strip (text : String) : String := String.ofList ((text.toList.dropWhile isBlank).rdropWhile isBlank)

theorem strip_strip (text : String) : strip (strip text) = strip text := by
  have trimmed : ∀ cs : List Char, ((cs.dropWhile isBlank).rdropWhile isBlank).dropWhile isBlank =
      (cs.dropWhile isBlank).rdropWhile isBlank := by
    intro cs
    rw [dropWhile_eq_self_iff]
    intro nonempty
    have early := rdropWhile_prefix (p := isBlank) (l := cs.dropWhile isBlank)
    rw [early.getElem nonempty]
    exact dropWhile_get_zero_not isBlank cs (lt_of_lt_of_le nonempty early.length_le)
  rw [strip, strip, String.toList_ofList, trimmed, rdropWhile_idempotent]

section
variable {α κ : Type*} [DecidableEq κ] (key : α → κ)

def firstPer : List κ → List α → List α
  | _, [] => []
  | seen, x :: rest => if key x ∈ seen then firstPer seen rest else x :: firstPer (key x :: seen) rest

variable {key} {seen : List κ} {xs : List α}

theorem firstPer_sublist : (firstPer key seen xs).Sublist xs := by
  induction xs generalizing seen with
  | nil => exact .slnil
  | cons x rest ih =>
    rw [firstPer]
    split
    · exact ih.cons x
    · exact ih.cons_cons x

theorem firstPer_eq_self (distinct : (xs.map key).Nodup) (apart : ∀ x ∈ xs, key x ∉ seen) : firstPer key seen xs = xs := by
  induction xs generalizing seen with
  | nil => rfl
  | cons x rest ih =>
    rw [map_cons, nodup_cons] at distinct
    rw [firstPer, if_neg (apart x mem_cons_self), ih distinct.2]
    intro y member inside
    rcases mem_cons.1 inside with same | earlier
    · exact distinct.1 (same ▸ mem_map_of_mem member)
    · exact apart y (.tail _ member) earlier

theorem firstPer_keys : ((firstPer key seen xs).map key).Nodup ∧ ∀ x ∈ firstPer key seen xs, key x ∉ seen := by
  induction xs generalizing seen with
  | nil => exact ⟨nodup_nil, fun x member => by cases member⟩
  | cons x rest ih =>
    rw [firstPer]
    split
    · exact ih
    · rename_i new
      obtain ⟨distinct, apart⟩ := @ih (key x :: seen)
      refine ⟨?_, fun y member => ?_⟩
      · rw [map_cons, nodup_cons]
        refine ⟨fun inside => ?_, distinct⟩
        obtain ⟨y, member, same⟩ := mem_map.1 inside
        exact apart y member (same ▸ mem_cons_self)
      · rcases mem_cons.1 member with rfl | later
        · exact new
        · exact fun inside => apart y later (.tail _ inside)

end

section
variable {κ : Type} [LinearOrder κ] (lower : String → κ)

/-- Stripped, without the empty ones, the first of each folded label, in the order of the folded labels. -/
def canonicalLabels (labels : List String) : List String :=
  sortedBy lower (firstPer lower [] ((labels.map strip).filter (· ≠ "")))

/-- Labels as they are kept: stripped, not empty, no two the same when folded. -/
structure Clean (labels : List String) : Prop where
  stripped : ∀ label ∈ labels, strip label = label ∧ label ≠ ""
  distinct : (labels.map lower).Nodup

variable {lower} {labels other : List String}

omit [LinearOrder κ] in
theorem Clean.perm (clean : Clean lower labels) (perm : labels.Perm other) : Clean lower other where
  stripped label member := clean.stripped label (perm.mem_iff.2 member)
  distinct := (perm.map lower).nodup_iff.1 clean.distinct

theorem canonicalLabels_clean : Clean lower (canonicalLabels lower labels) := by
  refine Clean.perm ⟨fun label member => ?_, firstPer_keys.1⟩ (sortedBy_perm lower _).symm
  have kept := mem_filter.1 (firstPer_sublist.subset member)
  obtain ⟨source, _, rfl⟩ := mem_map.1 kept.1
  exact ⟨strip_strip source, by simpa using kept.2⟩

theorem canonicalLabels_of_clean (clean : Clean lower labels) : canonicalLabels lower labels = sortedBy lower labels := by
  have same : labels.map strip = labels := by
    conv_rhs => rw [← map_id labels]
    exact map_congr_left (fun label member => (clean.stripped label member).1)
  have all : labels.filter (· ≠ "") = labels :=
    filter_eq_self.2 (fun label member => by simpa using (clean.stripped label member).2)
  rw [canonicalLabels, same, all, firstPer_eq_self clean.distinct (by simp)]

theorem strip_map_strip : (other.map strip).map strip = other.map strip := by
  rw [map_map]
  exact map_congr_left (fun label _ => strip_strip label)

theorem canonicalLabels_of_perm (clean : Clean lower labels) (perm : (other.map strip).Perm labels) :
    canonicalLabels lower other = canonicalLabels lower labels := by
  have same : canonicalLabels lower other = canonicalLabels lower (other.map strip) := by
    rw [canonicalLabels, canonicalLabels, strip_map_strip]
  have clean' := clean.perm perm.symm
  rw [same, canonicalLabels_of_clean clean, canonicalLabels_of_clean clean']
  exact sortedBy_eq_of_perm perm (fun x hx y hy => inj_on_of_nodup_map clean'.distinct hx hy)

theorem canonicalLabels_canonical : canonicalLabels lower (canonicalLabels lower labels) = canonicalLabels lower labels := by
  rw [canonicalLabels_of_clean canonicalLabels_clean]
  exact sortedBy_of_pairwise (sortedBy_pairwise lower _)

end

end Lib.Labelling

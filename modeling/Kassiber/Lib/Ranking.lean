import Kassiber.Lib.Dict
import Kassiber.Lib.Sorting

/-!
Ranks in a sorted list: which items stand among the first ones, and which one is the best of those that
satisfy a test.
-/

namespace Lib.Ranking
open Lib.Sorting Lib.Dict
open List hiding lookup

variable {α κ : Type*} [LinearOrder κ]

theorem mem_take_middle {before after : List α} {x : α} (fresh : x ∉ before) (n : Nat) :
    x ∈ (before ++ x :: after).take n ↔ before.length < n := by
  constructor
  · intro taken
    by_contra few
    rw [take_append_of_le_length (Nat.le_of_not_lt few)] at taken
    exact fresh (mem_of_mem_take taken)
  · intro room
    rw [take_append]
    refine mem_append_right _ ?_
    obtain ⟨more, same⟩ : ∃ more, n - before.length = more + 1 := ⟨n - before.length - 1, by omega⟩
    rw [same, take_succ_cons]
    exact .head _

theorem mem_take_sortedBy {key : α → κ} {xs : List α} (distinct : (xs.map key).Nodup) {x : α} (member : x ∈ xs) (n : Nat) :
    x ∈ (sortedBy key xs).take n ↔ (xs.filter fun y => key y < key x).length < n := by
  have strict := sortedBy_strict distinct
  obtain ⟨before, after, split⟩ := append_of_mem ((mem_sortedBy : _ ∈ sortedBy key _ ↔ _).2 member)
  rw [split] at strict
  have kept : (sortedBy key xs).filter (fun y => key y < key x) = before := by
    obtain ⟨-, rest, across⟩ := pairwise_append.1 strict
    rw [split, filter_append, filter_eq_self.2, filter_eq_nil_iff.2, append_nil]
    · intro y late smaller
      have early := (mem_before_iff strict).2 ⟨mem_append_right _ late, of_decide_eq_true smaller⟩
      rcases mem_cons.1 late with rfl | later
      · exact lt_irrefl _ (of_decide_eq_true smaller)
      · exact lt_asymm ((pairwise_cons.1 rest).1 y later) (of_decide_eq_true smaller)
    · intro y early
      exact decide_eq_true (across y early x (.head _))
  have fresh : x ∉ before := by
    intro early
    exact lt_irrefl _ ((mem_before_iff strict).1 early).2
  rw [← ((sortedBy_perm key xs).filter _).length_eq, kept, split]
  exact mem_take_middle fresh n

theorem find_top (key : α → κ) {xs : List α} (test : α → Bool) {x : α} (member : x ∈ xs) (passes : test x = true) :
    ∃ top, (sortedBy key xs).reverse.find? test = some top ∧ key x ≤ key top := by
  have inside : x ∈ (sortedBy key xs).reverse := mem_reverse.2 (mem_sortedBy.2 member)
  have falling : (sortedBy key xs).reverse.Pairwise (fun y z => key z ≤ key y) :=
    pairwise_reverse.2 (sortedBy_pairwise key xs)
  generalize (sortedBy key xs).reverse = ranked at inside falling
  induction ranked with
  | nil => cases inside
  | cons first rest ih =>
    obtain ⟨above, falling⟩ := pairwise_cons.1 falling
    by_cases accepted : test first = true
    · refine ⟨first, find?_cons_of_pos accepted, ?_⟩
      rcases mem_cons.1 inside with rfl | later
      · exact le_refl _
      · exact above x later
    · rcases mem_cons.1 inside with rfl | later
      · exact absurd passes accepted
      · obtain ⟨top, found, higher⟩ := ih later falling
        exact ⟨top, by rw [find?_cons_of_neg accepted]; exact found, higher⟩

theorem eraseDups_nodup {ι : Type*} [BEq ι] [LawfulBEq ι] (keys : List ι) : keys.eraseDups.Nodup := by
  induction size : keys.length using Nat.strong_induction_on generalizing keys with
  | _ size ih =>
    cases keys with
    | nil => simp
    | cons key rest =>
      rw [eraseDups_cons, nodup_cons]
      refine ⟨?_, ih _ ?_ _ rfl⟩
      · intro repeated
        have kept := mem_filter.1 (mem_eraseDups.1 repeated)
        simp at kept
      · rw [← size]
        exact Nat.lt_succ_of_le (length_filter_le _ _)

theorem items_nodup {ι β : Type*} [DecidableEq ι] (entries : List (ι × β)) : ((items entries).map Prod.fst).Nodup := by
  have keys : ∀ names : List ι, ((names.filterMap fun key => (lookup entries key).map fun value => (key, value)).map
      Prod.fst).Sublist names := by
    intro names
    induction names with
    | nil => exact List.Sublist.slnil
    | cons name rest ih =>
      cases found : lookup entries name with
      | none => simpa [found] using ih.cons name
      | some value => simpa [found] using ih
  exact (eraseDups_nodup _).sublist (keys _)

theorem items_of_key {ι β : Type*} [DecidableEq ι] {entries : List (ι × β)} {key : ι} {given : β}
    (member : (key, given) ∈ entries) : ∃ value, (key, value) ∈ items entries ∧ (key, value) ∈ entries := by
  obtain ⟨value, found⟩ := Option.isSome_iff_exists.1 (lookup_isSome.2 (mem_map.2 ⟨_, member, rfl⟩))
  exact ⟨value, mem_items.2 found, mem_of_lookup found⟩

theorem mem_of_items {ι β : Type*} [DecidableEq ι] {entries : List (ι × β)} {entry : ι × β}
    (member : entry ∈ items entries) : entry ∈ entries :=
  mem_of_lookup (mem_items.1 member)

end Lib.Ranking

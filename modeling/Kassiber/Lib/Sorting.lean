import Mathlib

/-!
Stable sorting by a key, the sorted list of a set, and grouping in first-occurrence order:
the three ways a program makes the order of its output independent of the order of its input.
-/

namespace Lib.Sorting
open List hiding le_total
open Prod (fst snd)

variable {α κ : Type*}

section
variable [LinearOrder κ]

/-- A stable sort: items with equal keys keep the order they came in. -/
def sortedBy (key : α → κ) (xs : List α) : List α := xs.insertionSort fun x y => key x ≤ key y

theorem sortedBy_perm (key : α → κ) (xs : List α) : (sortedBy key xs).Perm xs := perm_insertionSort _ xs

variable {xs ys : List α}

@[simp] theorem mem_sortedBy {key : α → κ} {x : α} : x ∈ sortedBy key xs ↔ x ∈ xs :=
  (sortedBy_perm key xs).mem_iff

theorem sortedBy_pairwise (key : α → κ) (xs : List α) : (sortedBy key xs).Pairwise (key · ≤ key ·) := by
  have total : Std.Total (fun x y : α => key x ≤ key y) := ⟨fun x y => le_total (key x) (key y)⟩
  have trans : IsTrans α (fun x y => key x ≤ key y) := ⟨fun _ _ _ => le_trans⟩
  exact pairwise_insertionSort _ xs

theorem sortedBy_eq_of_perm {key : α → κ} (perm : xs.Perm ys)
    (distinct : ∀ x ∈ xs, ∀ y ∈ xs, key x = key y → x = y) : sortedBy key xs = sortedBy key ys := by
  refine List.Perm.eq_of_pairwise ?_ (sortedBy_pairwise key xs) (sortedBy_pairwise key ys)
    ((sortedBy_perm key xs).trans (perm.trans (sortedBy_perm key ys).symm))
  intro x y hx hy xy yx
  exact distinct x (mem_sortedBy.1 hx) y (perm.mem_iff.2 (mem_sortedBy.1 hy)) (le_antisymm xy yx)

theorem eq_of_perm_of_strict (key : α → κ) (perm : xs.Perm ys)
    (left : xs.Pairwise (key · ≤ key ·)) (right : ys.Pairwise (key · < key ·)) : xs = ys := by
  refine List.Perm.eq_of_pairwise ?_ left (right.imp le_of_lt) perm
  intro x y hx hy xy yx
  by_contra different
  rcases pairwise_iff_getElem.1 right with ordered
  obtain ⟨i, hi, rfl⟩ := getElem_of_mem (perm.mem_iff.1 hx)
  obtain ⟨j, hj, rfl⟩ := getElem_of_mem hy
  rcases Nat.lt_trichotomy i j with before | same | after
  · exact absurd (ordered i j hi hj before) (not_lt.2 yx)
  · subst same
    exact different rfl
  · exact absurd (ordered j i hj hi after) (not_lt.2 xy)

def sortedSet (xs : List κ) : List κ := sortedBy id xs.dedup

@[simp] theorem mem_sortedSet {xs : List κ} {x : κ} : x ∈ sortedSet xs ↔ x ∈ xs := by
  simp [sortedSet]

theorem sortedSet_nodup (xs : List κ) : (sortedSet xs).Nodup := (sortedBy_perm id xs.dedup).nodup_iff.2 xs.nodup_dedup

theorem sortedSet_strict (xs : List κ) : (sortedSet xs).Pairwise (· < ·) :=
  ((sortedBy_pairwise id xs.dedup).and (sortedSet_nodup xs)).imp fun ⟨le, ne⟩ => lt_of_le_of_ne le ne

theorem sortedSet_eq_of_mem {xs ys : List κ} (same : ∀ x, x ∈ xs ↔ x ∈ ys) : sortedSet xs = sortedSet ys :=
  sortedBy_eq_of_perm ((perm_ext_iff_of_nodup xs.nodup_dedup ys.nodup_dedup).2 (by simpa using same))
    fun _ _ _ _ h => h

end

section
variable [DecidableEq κ]

/-- Append `x` to the entry for `k`, which is created at the end when it is new. -/
def appendTo (k : κ) (x : α) : List (κ × List α) → List (κ × List α)
  | [] => [(k, [x])]
  | entry :: rest => if entry.1 = k then (entry.1, entry.2 ++ [x]) :: rest else entry :: appendTo k x rest

/-- Group items by key, keys in the order they first occur and members in the order they came in. -/
def groupBy (key : α → κ) (xs : List α) : List (κ × List α) := xs.foldl (fun groups x => appendTo (key x) x groups) []

def IsGrouping (key : α → κ) (xs : List α) (groups : List (κ × List α)) : Prop :=
  (groups.map fst).Nodup ∧ (∀ g ∈ groups, g.2 = xs.filter fun x => key x = g.1) ∧
    ∀ k, k ∈ groups.map fst ↔ k ∈ xs.map key

theorem mem_appendTo {k : κ} {x : α} {groups : List (κ × List α)} (nodup : (groups.map fst).Nodup)
    {g : κ × List α} : g ∈ appendTo k x groups ↔
      (g ∈ groups ∧ g.1 ≠ k) ∨ (∃ old, (k, old) ∈ groups ∧ g = (k, old ++ [x])) ∨
      (k ∉ groups.map fst ∧ g = (k, [x])) := by
  induction groups with
  | nil => simp [appendTo]
  | cons entry rest ih =>
    obtain ⟨name, members⟩ := entry
    simp only [map_cons, nodup_cons] at nodup
    by_cases same : name = k
    · subst same
      have fresh : ∀ h ∈ rest, h.1 ≠ name := fun h member equal =>
        nodup.1 (mem_map.2 ⟨h, member, equal⟩)
      simp only [appendTo, if_true, mem_cons, map_cons]
      constructor
      · rintro (rfl | later)
        · exact .inr (.inl ⟨members, .inl rfl, rfl⟩)
        · exact .inl ⟨.inr later, fresh g later⟩
      · rintro (⟨rfl | later, different⟩ | ⟨old, first | later, rfl⟩ | ⟨absent, -⟩)
        · exact absurd rfl different
        · exact .inr later
        · cases first
          exact .inl rfl
        · exact absurd rfl (fresh _ later)
        · exact absurd (.inl trivial) absent
    · simp only [appendTo, if_neg same, mem_cons, map_cons, ih nodup.2]
      constructor
      · rintro (rfl | ⟨later, different⟩ | ⟨old, later, rfl⟩ | ⟨absent, rfl⟩)
        · exact .inl ⟨.inl rfl, same⟩
        · exact .inl ⟨.inr later, different⟩
        · exact .inr (.inl ⟨old, .inr later, rfl⟩)
        · exact .inr (.inr ⟨fun h => h.elim (fun h => same h.symm) absent, rfl⟩)
      · rintro (⟨rfl | later, different⟩ | ⟨old, first | later, rfl⟩ | ⟨absent, rfl⟩)
        · exact .inl rfl
        · exact .inr (.inl ⟨later, different⟩)
        · cases first
          exact absurd rfl same
        · exact .inr (.inr (.inl ⟨old, later, rfl⟩))
        · exact .inr (.inr (.inr ⟨fun h => absent (.inr h), rfl⟩))

theorem keys_appendTo (k : κ) (x : α) (groups : List (κ × List α)) :
    (appendTo k x groups).map fst = if k ∈ groups.map fst then groups.map fst else groups.map fst ++ [k] := by
  induction groups with
  | nil => simp [appendTo]
  | cons entry rest ih =>
    by_cases same : entry.1 = k
    · simp [appendTo, same]
    · simp only [appendTo, if_neg same, map_cons, ih, mem_cons, Ne.symm same, false_or]
      split <;> simp

theorem appendTo_grouping {key : α → κ} {xs : List α} {groups : List (κ × List α)} (x : α)
    (grouping : IsGrouping key xs groups) : IsGrouping key (xs ++ [x]) (appendTo (key x) x groups) := by
  obtain ⟨nodup, members, keys⟩ := grouping
  refine ⟨?_, ?_, ?_⟩
  · rw [keys_appendTo]
    split
    · exact nodup
    · rename_i absent
      exact nodup_append.2 ⟨nodup, nodup_singleton _, by
        intro k old new fresh
        rw [mem_singleton] at fresh
        rintro rfl
        exact absent (fresh ▸ old)⟩
  · intro g member
    rcases (mem_appendTo nodup).1 member with ⟨old, different⟩ | ⟨old, stored, rfl⟩ | ⟨absent, rfl⟩
    · rw [members g old, filter_append]
      simp [Ne.symm different]
    · have content := members _ stored
      simp only at content
      rw [filter_append, ← content]
      simp
    · have none : xs.filter (fun y => key y = key x) = [] := by
        rw [filter_eq_nil_iff]
        intro y present same
        exact absent ((keys _).2 (mem_map.2 ⟨y, present, by simpa using same⟩))
      rw [filter_append]
      simp [none]
  · intro k
    rw [keys_appendTo, map_append, mem_append]
    split
    · rename_i present
      rw [keys k]
      constructor
      · exact Or.inl
      · rintro (old | new)
        · exact old
        · have same : k = key x := by simpa using new
          rw [same]
          exact (keys _).1 present
    · rw [mem_append, keys k]
      simp

theorem groupBy_grouping (key : α → κ) (xs : List α) : IsGrouping key xs (groupBy key xs) := by
  have run : ∀ (ys done : List α) (groups : List (κ × List α)), IsGrouping key done groups →
      IsGrouping key (done ++ ys) (ys.foldl (fun groups x => appendTo (key x) x groups) groups) := by
    intro ys
    induction ys with
    | nil => intro done groups grouping; simpa using grouping
    | cons y rest ih =>
      intro done groups grouping
      have next := ih (done ++ [y]) _ (appendTo_grouping y grouping)
      simpa using next
  exact run xs [] [] ⟨nodup_nil, by simp, by simp⟩

theorem groupBy_keys_nodup (key : α → κ) (xs : List α) : ((groupBy key xs).map fst).Nodup :=
  (groupBy_grouping key xs).1

theorem mem_groupBy {key : α → κ} {xs : List α} {k : κ} {members : List α} :
    (k, members) ∈ groupBy key xs ↔ members = xs.filter (fun x => key x = k) ∧ k ∈ xs.map key := by
  obtain ⟨_, content, keys⟩ := groupBy_grouping key xs
  constructor
  · intro member
    exact ⟨content _ member, (keys k).1 (mem_map.2 ⟨_, member, rfl⟩)⟩
  · rintro ⟨rfl, present⟩
    obtain ⟨g, member, rfl⟩ := mem_map.1 ((keys k).2 present)
    rw [← content g member]
    exact member

theorem exists_group (key : α → κ) {xs : List α} {x : α} (member : x ∈ xs) :
    (key x, xs.filter fun y => key y = key x) ∈ groupBy key xs :=
  mem_groupBy.2 ⟨rfl, mem_map_of_mem member⟩

theorem appendTo_flatten (k : κ) (x : α) (groups : List (κ × List α)) :
    ((appendTo k x groups).flatMap snd).Perm (groups.flatMap snd ++ [x]) := by
  induction groups with
  | nil => simp [appendTo]
  | cons entry rest ih =>
    by_cases same : entry.1 = k
    · simp only [appendTo, same, if_true, flatMap_cons, List.append_assoc]
      exact perm_append_comm.append_left entry.2
    · simp only [appendTo, same, if_false, flatMap_cons, List.append_assoc]
      exact ih.append_left entry.2

theorem groupBy_flatten (key : α → κ) (xs : List α) : ((groupBy key xs).flatMap snd).Perm xs := by
  have run : ∀ (ys : List α) (groups : List (κ × List α)),
      ((ys.foldl (fun groups x => appendTo (key x) x groups) groups).flatMap snd).Perm
        (groups.flatMap snd ++ ys) := by
    intro ys
    induction ys with
    | nil => intro groups; simp
    | cons y rest ih =>
      intro groups
      have next := (ih (appendTo (key y) y groups)).trans ((appendTo_flatten (key y) y groups).append_right rest)
      simpa using next
  simpa [groupBy] using run xs []

end

theorem filter_flatMap_key {α γ κ : Type*} [DecidableEq κ] {parts : List γ} {key : γ → κ} {f : γ → List α}
    {keyOf : α → κ} (own : ∀ part ∈ parts, ∀ x ∈ f part, keyOf x = key part) (distinct : (parts.map key).Nodup)
    {part : γ} (member : part ∈ parts) : (parts.flatMap f).filter (fun x => keyOf x = key part) = f part := by
  induction parts with
  | nil => cases member
  | cons first rest ih =>
    obtain ⟨notin, nodup⟩ := nodup_cons.1 distinct
    rw [flatMap_cons, filter_append]
    have later := fun other inside => own other (.tail _ inside)
    rcases mem_cons.1 member with rfl | inside
    · rw [filter_eq_self.2 fun x belongs => decide_eq_true (own _ mem_cons_self x belongs),
        filter_eq_nil_iff.2, append_nil]
      intro x belongs same
      obtain ⟨other, listed, found⟩ := mem_flatMap.1 belongs
      have keys := (later other listed x found).symm.trans (of_decide_eq_true same)
      exact notin (keys ▸ mem_map_of_mem listed)
    · rw [filter_eq_nil_iff.2, nil_append]
      · exact ih later nodup inside
      · intro x belongs same
        have keys := (own _ (.head _) x belongs).symm.trans (of_decide_eq_true same)
        exact notin (keys ▸ mem_map_of_mem inside)

theorem flatMap_fibers_perm {α κ : Type*} [DecidableEq κ] {f : α → Option κ} {keys : List κ} (distinct : keys.Nodup)
    {xs : List α} (covered : ∀ x ∈ xs, ∀ k, f x = some k → k ∈ keys) :
    (keys.flatMap fun k => xs.filter fun x => f x = some k).Perm (xs.filter fun x => (f x).isSome) := by
  induction xs with
  | nil => simp
  | cons x rest ih =>
    have later := ih fun y member => covered y (.tail _ member)
    cases key : f x with
    | none =>
      have skipped : ∀ k, (x :: rest).filter (fun y => f y = some k) = rest.filter fun y => f y = some k :=
        fun k => filter_cons_of_neg (by simp [key])
      simp only [skipped]
      rw [filter_cons_of_neg (by simp [key])]
      exact later
    | some k =>
      obtain ⟨before, after, rfl⟩ := append_of_mem (covered x (.head _) k key)
      have fresh := nodup_cons.1 (nodup_middle.1 distinct)
      have others : ∀ part : List κ, k ∉ part → (part.flatMap fun j => (x :: rest).filter fun y => f y = some j) =
          part.flatMap fun j => rest.filter fun y => f y = some j := by
        intro part absent
        refine flatMap_congr fun j member => filter_cons_of_neg ?_
        have apart : k ≠ j := fun same => absent (same ▸ member)
        simp [key, apart]
      rw [flatMap_append, flatMap_cons] at later ⊢
      rw [others before fun member => fresh.1 (mem_append_left _ member),
        others after fun member => fresh.1 (mem_append_right _ member),
        filter_cons_of_pos (by simp [key]), filter_cons_of_pos (by simp [key])]
      exact perm_middle.trans (later.cons x)

theorem nodup_of_fibers {α κ β : Type*} [DecidableEq κ] {f : α → κ} {g : α → β} {xs : List α}
    (fibers : ∀ k, ((xs.filter fun x => f x = k).map g).Nodup) : (xs.map fun x => (f x, g x)).Nodup := by
  induction xs with
  | nil => exact nodup_nil
  | cons x rest ih =>
    rw [map_cons, nodup_cons]
    refine ⟨?_, ih ?_⟩
    · intro repeated
      obtain ⟨y, member, same⟩ := mem_map.1 repeated
      obtain ⟨first, second⟩ := Prod.mk.inj same
      have own := fibers (f x)
      rw [filter_cons_of_pos (by simp), map_cons, nodup_cons] at own
      exact own.1 (mem_map.2 ⟨y, mem_filter.2 ⟨member, decide_eq_true first⟩, second⟩)
    · intro k
      refine (fibers k).sublist (List.Sublist.map _ ?_)
      exact (sublist_cons_self x rest).filter _

theorem sortedBy_strict {α κ : Type*} [LinearOrder κ] {key : α → κ} {xs : List α} (distinct : (xs.map key).Nodup) :
    (sortedBy key xs).Pairwise (key · < key ·) := by
  have sorted := sortedBy_pairwise key xs
  have apart : (sortedBy key xs).Pairwise (key · ≠ key ·) :=
    pairwise_map.1 (((sortedBy_perm key xs).map key).nodup_iff.2 distinct)
  exact (sorted.and apart).imp fun both => lt_of_le_of_ne both.1 both.2

theorem mem_before_iff {α κ : Type*} [LinearOrder κ] {key : α → κ} {before after : List α} {x : α}
    (strict : (before ++ x :: after).Pairwise (key · < key ·)) {y : α} :
    y ∈ before ↔ y ∈ before ++ x :: after ∧ key y < key x := by
  obtain ⟨-, rest, across⟩ := pairwise_append.1 strict
  constructor
  · intro early
    exact ⟨mem_append_left _ early, across y early x (.head _)⟩
  · rintro ⟨member, less⟩
    rcases mem_append.1 member with early | late
    · exact early
    · rcases mem_cons.1 late with rfl | later
      · exact absurd less (lt_irrefl _)
      · exact absurd less (lt_asymm ((pairwise_cons.1 rest).1 y later))

theorem sortedBy_of_pairwise {α κ : Type} [LinearOrder κ] {key : α → κ} {xs : List α} (ordered : xs.Pairwise (key · ≤ key ·)) :
    sortedBy key xs = xs :=
  List.Pairwise.insertionSort_eq ordered

theorem sortedBy_filter {α κ : Type} [LinearOrder κ] {key : α → κ} (injective : Function.Injective key) (p : α → Bool)
    (xs : List α) : (sortedBy key xs).filter p = sortedBy key (xs.filter p) := by
  refine List.Perm.eq_of_pairwise ?_ ((sortedBy_pairwise key xs).sublist filter_sublist) (sortedBy_pairwise key _)
    (((sortedBy_perm key xs).filter p).trans (sortedBy_perm key _).symm)
  exact fun x y _ _ xy yx => injective (le_antisymm xy yx)

end Lib.Sorting

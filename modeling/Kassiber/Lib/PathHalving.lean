import Kassiber.Lib.UnionFind
import Kassiber.Lib.Sorting

/-!
Union-find over a parent map that lookups rewrite: every other node on the way to a root is linked past its
parent.
-/

namespace Kassiber.Lib.UnionFind
open Lib.Sorting List
open Function (update update_self update_of_ne)

section
variable {κ : Type*} [LinearOrder κ]

theorem unions_snoc (edges : List (κ × κ)) (edge : κ × κ) : unions (edges ++ [edge]) = union (unions edges) edge := by
  unfold unions
  rw [foldl_append, foldl_cons, foldl_nil]

theorem unions_le (edges : List (κ × κ)) (x : κ) : unions edges x ≤ x := by
  induction edges using reverseRecOn generalizing x with
  | nil => exact le_rfl
  | append_singleton edges edge ih =>
    rw [unions_snoc]
    unfold union
    split
    · rename_i joined
      exact (min_le_max.trans joined.ge).trans (ih x)
    · exact ih x

theorem unions_idem (edges : List (κ × κ)) (x : κ) : unions edges (unions edges x) = unions edges x := by
  induction edges using reverseRecOn generalizing x with
  | nil => rfl
  | append_singleton edges edge ih =>
    have least : unions edges (min (unions edges edge.1) (unions edges edge.2)) =
        min (unions edges edge.1) (unions edges edge.2) := by
      rcases min_choice (unions edges edge.1) (unions edges edge.2) with same | same <;> rw [same, ih]
    rw [unions_snoc]
    unfold union
    by_cases joined : unions edges x = max (unions edges edge.1) (unions edges edge.2)
    · rw [if_pos joined, least]
      split <;> rfl
    · rw [if_neg joined, ih, if_neg joined]

theorem unions_connected (edges : List (κ × κ)) (x : κ) : Connected edges (unions edges x) x :=
  (unions_same edges _ x).1 (unions_idem edges x)

theorem unions_least {edges : List (κ × κ)} {x y : κ} (connected : Connected edges x y) : unions edges x ≤ y :=
  ((unions_same edges x y).2 connected).le.trans (unions_le edges y)

def find : Nat → (κ → κ) → κ → (κ → κ) × κ
  | 0, parent, node => (parent, node)
  | rounds + 1, parent, node =>
    if parent node = node then (parent, node)
    else find rounds (update parent node (parent (parent node))) (parent (parent node))

def join (rounds : Nat) (parent : κ → κ) (edge : κ × κ) : κ → κ :=
  let first := find rounds parent edge.1
  let second := find rounds first.1 edge.2
  if first.2 = second.2 then second.1
  else if first.2 < second.2 then update second.1 second.2 first.2
  else update second.1 first.2 second.2

structure Represents (keys : List κ) (root parent : κ → κ) : Prop where
  inside : ∀ x ∈ keys, parent x ∈ keys
  below : ∀ x, parent x ≤ x
  leads : ∀ x, root (parent x) = root x
  fixed : ∀ x, parent x = x ↔ root x = x

section
variable {keys : List κ} {root parent : κ → κ}

theorem Represents.start : Represents keys id id where
  inside _ member := member
  below _ := le_rfl
  leads _ := rfl
  fixed _ := Iff.rfl

theorem filter_below_lt {x y : κ} (member : x ∈ keys) (less : x < y) :
    (keys.filter (· < x)).length < (keys.filter (· < y)).length := by
  have nested : (keys.filter (· < y)).filter (· < x) = keys.filter (· < x) := by
    rw [filter_filter]
    refine filter_congr fun z _ => ?_
    rw [← Bool.decide_and]
    exact decide_eq_decide.2 ⟨fun both => both.1, fun below => ⟨below, below.trans less⟩⟩
  rw [← nested, length_filter_lt_length_iff_exists]
  exact ⟨x, mem_filter.2 ⟨member, decide_eq_true less⟩, by simp⟩

variable {node : κ}

theorem Represents.relink (state : Represents keys root parent) {target : κ} (inside : node ∈ keys → target ∈ keys)
    (down : target < node) (same_root : root target = root node) (moved : root node ≠ node) :
    Represents keys root (update parent node target) := by
  refine ⟨fun x member => ?_, fun x => ?_, fun x => ?_, fun x => ?_⟩ <;> by_cases same : x = node
  · rw [same, update_self]
    exact inside (same ▸ member)
  · rw [update_of_ne same]
    exact state.inside x member
  · rw [same, update_self]
    exact down.le
  · rw [update_of_ne same]
    exact state.below x
  · rw [same, update_self, same_root]
  · rw [update_of_ne same]
    exact state.leads x
  · rw [same, update_self]
    exact ⟨fun still => absurd still down.ne, fun own => absurd own moved⟩
  · rw [update_of_ne same]
    exact state.fixed x

theorem Represents.halve (state : Represents keys root parent) (linked : parent node ≠ node) :
    Represents keys root (update parent node (parent (parent node))) :=
  state.relink (fun member => state.inside _ (state.inside _ member))
    (lt_of_le_of_lt (state.below _) (lt_of_le_of_ne (state.below node) linked)) (by rw [state.leads, state.leads])
    fun own => linked ((state.fixed node).2 own)

theorem Represents.lowest (state : Represents keys root parent) (member : node ∈ keys)
    (none_below : (keys.filter (· < node)).length ≤ 0) : root node = node := by
  rw [Nat.le_zero, length_eq_zero_iff] at none_below
  refine (state.fixed node).1 ?_
  by_contra linked
  have below : parent node ∈ keys.filter (· < node) :=
    mem_filter.2 ⟨state.inside node member, decide_eq_true (lt_of_le_of_ne (state.below node) linked)⟩
  rw [none_below] at below
  cases below

theorem Represents.find_spec (state : Represents keys root parent) {rounds : Nat} (member : node ∈ keys)
    (enough : (keys.filter (· < node)).length ≤ rounds) :
    (find rounds parent node).2 = root node ∧ root node ∈ keys ∧ Represents keys root (find rounds parent node).1 := by
  induction rounds generalizing parent node with
  | zero =>
    have own := state.lowest member enough
    exact ⟨own.symm, own.symm ▸ member, state⟩
  | succ rounds ih =>
    unfold find
    by_cases still : parent node = node
    · rw [if_pos still]
      have own := (state.fixed node).1 still
      exact ⟨own.symm, own.symm ▸ member, state⟩
    · rw [if_neg still]
      have down : parent (parent node) < node := lt_of_le_of_lt (state.below _) (lt_of_le_of_ne (state.below node) still)
      have inside := state.inside _ (state.inside _ member)
      have fewer := filter_below_lt inside down
      have rest := ih (state.halve still) inside (by omega)
      rw [state.leads, state.leads] at rest
      exact rest

theorem Represents.link (state : Represents keys root parent) {edge : κ × κ} {low high : κ} (less : low < high)
    (lowRoot : root low = low) (highRoot : root high = high) (member : low ∈ keys)
    (ends : max (root edge.1) (root edge.2) = high ∧ min (root edge.1) (root edge.2) = low) :
    Represents keys (union root edge) (update parent high low) := by
  have joined : ∀ x, union root edge x = if root x = high then low else root x := by
    intro x
    rw [union, ends.1, ends.2]
  refine ⟨fun x inside => ?_, fun x => ?_, fun x => ?_, fun x => ?_⟩ <;> by_cases same : x = high
  · rw [same, update_self]
    exact member
  · rw [update_of_ne same]
    exact state.inside x inside
  · rw [same, update_self]
    exact less.le
  · rw [update_of_ne same]
    exact state.below x
  · rw [same, update_self, joined, joined, lowRoot, highRoot, if_neg less.ne, if_pos rfl]
  · rw [update_of_ne same, joined, joined, state.leads]
  · rw [same, update_self, joined, highRoot, if_pos rfl]
  · rw [update_of_ne same, joined, state.fixed]
    by_cases moved : root x = high
    · rw [if_pos moved, moved]
      refine ⟨fun eq => absurd eq.symm same, fun eq => ?_⟩
      subst eq
      exact absurd (moved.symm.trans lowRoot).symm less.ne
    · rw [if_neg moved]

theorem Represents.join_spec (state : Represents keys root parent) (idem : ∀ x, root (root x) = root x) {edge : κ × κ}
    (left : edge.1 ∈ keys) (right : edge.2 ∈ keys) : Represents keys (union root edge) (join keys.length parent edge) := by
  obtain ⟨rootA, memberA, halved⟩ := state.find_spec left (length_filter_le (· < edge.1) keys)
  obtain ⟨rootB, memberB, halved'⟩ := halved.find_spec right (length_filter_le (· < edge.2) keys)
  have lowest : ∀ {x}, root (root x) = root x := fun {x} => idem x
  unfold join
  dsimp only
  rw [rootA, rootB]
  rcases lt_trichotomy (root edge.1) (root edge.2) with less | same | greater
  · rw [if_neg less.ne, if_pos less]
    exact halved'.link less lowest lowest memberA ⟨max_eq_right less.le, min_eq_left less.le⟩
  · rw [if_pos same]
    have unchanged : union root edge = root := by
      funext x
      rw [union, same, max_self, min_self]
      exact ite_eq_right_iff.2 Eq.symm
    rw [unchanged]
    exact halved'
  · rw [if_neg greater.ne', if_neg greater.not_gt]
    exact halved'.link greater lowest lowest memberB ⟨max_eq_left greater.le, min_eq_right greater.le⟩

end

theorem joins_spec {keys : List κ} {edges : List (κ × κ)} (ends : ∀ edge ∈ edges, edge.1 ∈ keys ∧ edge.2 ∈ keys) :
    Represents keys (unions edges) (edges.foldl (join keys.length) id) := by
  induction edges using reverseRecOn with
  | nil => exact Represents.start
  | append_singleton edges edge ih =>
    rw [unions_snoc, foldl_append]
    obtain ⟨left, right⟩ := ends edge (mem_append_right _ (mem_singleton_self edge))
    exact (ih fun other member => ends other (mem_append_left _ member)).join_spec (unions_idem edges) left right

end

section
variable {ι κ : Type*} [DecidableEq ι]

def siblingEdges (entries : List (ι × κ)) : List (κ × κ) :=
  (groupBy Prod.fst entries).flatMap fun entry =>
    match entry.2 with
    | [] => []
    | first :: rest => rest.map fun sibling => (first.2, sibling.2)

variable {entries : List (ι × κ)} {group : ι} {x y : κ}

theorem siblings_connected (left : (group, x) ∈ entries) (right : (group, y) ∈ entries) :
    Connected (siblingEdges entries) x y := by
  have listed := exists_group (κ := ι) Prod.fst left
  have joined : ∀ {siblings : List (ι × κ)}, (group, siblings) ∈ groupBy Prod.fst entries → ∀ {x y : κ},
      (group, x) ∈ siblings → (group, y) ∈ siblings → Connected (siblingEdges entries) x y := by
    intro siblings member x y hx hy
    cases siblings with
    | nil => cases hx
    | cons first rest =>
      have edge : ∀ {z : κ}, (group, z) ∈ first :: rest → Connected (siblingEdges entries) first.2 z := by
        intro z inside
        rcases mem_cons.1 inside with same | later
        · rw [← same]
          exact .refl _
        · exact .edge (mem_flatMap.2 ⟨_, member, mem_map.2 ⟨_, later, rfl⟩⟩)
      exact (edge hx).symm.trans (edge hy)
  refine joined listed ?_ ?_
  · exact mem_filter.2 ⟨left, by simp⟩
  · exact mem_filter.2 ⟨right, by simp⟩

theorem siblings_share (edge : (x, y) ∈ siblingEdges entries) :
    ∃ group, (group, x) ∈ entries ∧ (group, y) ∈ entries := by
  obtain ⟨⟨group, siblings⟩, member, inside⟩ := mem_flatMap.1 edge
  obtain ⟨content, -⟩ := mem_groupBy.1 member
  have own : ∀ entry ∈ siblings, (group, entry.2) ∈ entries := by
    intro entry listed
    rw [content] at listed
    obtain ⟨stored, same⟩ := mem_filter.1 listed
    rw [← of_decide_eq_true same]
    exact stored
  cases siblings with
  | nil => cases inside
  | cons first rest =>
    obtain ⟨sibling, later, same⟩ := mem_map.1 inside
    cases same
    exact ⟨group, own first (.head _), own sibling (.tail _ later)⟩

end

end Kassiber.Lib.UnionFind

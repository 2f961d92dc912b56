import Kassiber.Lib.PathHalving

/-!
Union-find whose lookups link every node on the way directly to the root they found.
-/

namespace Kassiber.Lib.UnionFind

section
variable {κ : Type*} [LinearOrder κ]

def rootFrom : Nat → (κ → κ) → κ → κ
  | 0, _, node => node
  | rounds + 1, parent, node => if parent node = node then node else rootFrom rounds parent (parent node)

def compress : Nat → (κ → κ) → κ → κ → (κ → κ)
  | 0, parent, _, _ => parent
  | rounds + 1, parent, root, node =>
    if parent node = node then parent else compress rounds (Function.update parent node root) root (parent node)

def lookupRoot (rounds : Nat) (parent : κ → κ) (node : κ) : (κ → κ) × κ :=
  let root := rootFrom rounds parent node
  (compress rounds parent root node, root)

def joinRoots (rounds : Nat) (parent : κ → κ) (edge : κ × κ) : κ → κ :=
  let left := lookupRoot rounds parent edge.1
  let right := lookupRoot rounds left.1 edge.2
  if left.2 ≠ right.2 then Function.update right.1 (max left.2 right.2) (min left.2 right.2) else right.1

variable {keys : List κ} {root parent : κ → κ} {node : κ}

theorem Represents.rootFrom_eq (state : Represents keys root parent) {rounds : Nat} (member : node ∈ keys)
    (enough : (keys.filter (· < node)).length ≤ rounds) : rootFrom rounds parent node = root node ∧ root node ∈ keys := by
  induction rounds generalizing node with
  | zero =>
    have own := state.lowest member enough
    exact ⟨own.symm, own.symm ▸ member⟩
  | succ rounds ih =>
    unfold rootFrom
    by_cases still : parent node = node
    · rw [if_pos still]
      have own := (state.fixed node).1 still
      exact ⟨own.symm, own.symm ▸ member⟩
    · rw [if_neg still]
      have inside := state.inside _ member
      have fewer := filter_below_lt inside (lt_of_le_of_ne (state.below node) still)
      have rest := ih inside (by omega)
      rw [state.leads] at rest
      exact rest

theorem Represents.root_lt (state : Represents keys root parent) (low : ∀ x, root x ≤ x)
    (linked : parent node ≠ node) : root node < node :=
  lt_of_le_of_ne (low node) fun same => linked ((state.fixed node).2 same)

theorem Represents.compress (state : Represents keys root parent) (idem : ∀ x, root (root x) = root x)
    (low : ∀ x, root x ≤ x) (rounds : Nat) (member : node ∈ keys) (top : root node ∈ keys) :
    Represents keys root (compress rounds parent (root node) node) := by
  induction rounds generalizing parent node with
  | zero => exact state
  | succ rounds ih =>
    unfold UnionFind.compress
    by_cases still : parent node = node
    · rw [if_pos still]
      exact state
    · rw [if_neg still]
      have down := state.root_lt low still
      have shorter := state.relink (fun _ => top) down (idem node) down.ne
      have onward := ih shorter (state.inside _ member)
      rw [state.leads] at onward
      exact onward top

theorem Represents.lookupRoot_spec (state : Represents keys root parent) (idem : ∀ x, root (root x) = root x)
    (low : ∀ x, root x ≤ x) (member : node ∈ keys) :
    (lookupRoot keys.length parent node).2 = root node ∧ root node ∈ keys ∧
      Represents keys root (lookupRoot keys.length parent node).1 := by
  obtain ⟨found, top⟩ := state.rootFrom_eq member (List.length_filter_le (· < node) keys)
  refine ⟨found, top, ?_⟩
  unfold lookupRoot
  rw [found]
  exact state.compress idem low keys.length member top

theorem Represents.joinRoots_spec (state : Represents keys root parent) (idem : ∀ x, root (root x) = root x)
    (low : ∀ x, root x ≤ x) {edge : κ × κ} (left : edge.1 ∈ keys) (right : edge.2 ∈ keys) :
    Represents keys (union root edge) (joinRoots keys.length parent edge) := by
  obtain ⟨rootA, memberA, first⟩ := state.lookupRoot_spec idem low left
  obtain ⟨rootB, memberB, second⟩ := first.lookupRoot_spec idem low right
  unfold joinRoots
  dsimp only
  rw [rootA, rootB]
  rcases lt_trichotomy (root edge.1) (root edge.2) with less | same | greater
  · rw [if_pos less.ne]
    refine second.link (min_lt_max.2 less.ne) ?_ ?_ ?_ ⟨rfl, rfl⟩
    · rw [min_eq_left less.le, idem]
    · rw [max_eq_right less.le, idem]
    · rw [min_eq_left less.le]
      exact memberA
  · rw [if_neg (not_not.2 same)]
    have unchanged : union root edge = root := by
      funext x
      rw [union, same, max_self, min_self]
      exact ite_eq_right_iff.2 Eq.symm
    rw [unchanged]
    exact second
  · rw [if_pos greater.ne']
    refine second.link (min_lt_max.2 greater.ne') ?_ ?_ ?_ ⟨rfl, rfl⟩
    · rw [min_eq_right greater.le, idem]
    · rw [max_eq_left greater.le, idem]
    · rw [min_eq_right greater.le]
      exact memberB

theorem joinsRoots_spec {keys : List κ} {edges : List (κ × κ)} (ends : ∀ edge ∈ edges, edge.1 ∈ keys ∧ edge.2 ∈ keys) :
    Represents keys (unions edges) (edges.foldl (joinRoots keys.length) id) := by
  induction edges using List.reverseRecOn with
  | nil => exact Represents.start
  | append_singleton edges edge ih =>
    rw [unions_snoc, List.foldl_append]
    obtain ⟨left, right⟩ := ends edge (List.mem_append_right _ (List.mem_singleton_self edge))
    exact (ih fun other member => ends other (List.mem_append_left _ member)).joinRoots_spec (unions_idem edges)
      (unions_le edges) left right

end

end Kassiber.Lib.UnionFind

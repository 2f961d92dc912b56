import Kassiber.Lib.SpreadOrder
import Kassiber.Tax.Coherence

/-!
The block closure over every order in which its sets may be walked.
-/

namespace Kassiber.Tax
open Lib.Propagation Lib.Sorting List

section
variable {blocked : List String} {edges : List (String × String)}

/-- An order of the blocked transactions, first taken first, and of every transaction's neighbours. -/
structure Enumeration (blocked : List String) (edges : List (String × String)) where
  order : List String
  neighbors : String → List String
  order_nodup : order.Nodup
  mem_order : ∀ id, id ∈ order ↔ id ∈ blocked
  neighbors_nodup : ∀ id, (neighbors id).Nodup
  mem_neighbors : ∀ a b, b ∈ neighbors a ↔ (a, b) ∈ edges ∨ (b, a) ∈ edges

def Enumeration.closure (e : Enumeration blocked edges) : Spread String :=
  spread e.neighbors e.order.toFinset (e.order.length + (moveAnchors edges).length * e.order.length)
    (start e.order.toFinset e.order)

def Enumeration.blockedBy (e : Enumeration blocked edges) (id : String) : List String :=
  (sortedSet blocked).filter fun root => root ∈ e.closure.origins id

def sortedEnumeration (blocked : List String) (edges : List (String × String)) : Enumeration blocked edges where
  order := sortedSet blocked
  neighbors := moveNeighbors edges
  order_nodup := sortedSet_nodup blocked
  mem_order := fun _ => mem_sortedSet
  neighbors_nodup := fun _ => sortedSet_nodup _
  mem_neighbors := fun _ _ => mem_moveNeighbors

def Linked (edges : List (String × String)) (a b : String) : Prop := (a, b) ∈ edges ∨ (b, a) ∈ edges

def MovePath (edges : List (String × String)) : String → String → Prop := Relation.ReflTransGen (Linked edges)

def OpenPath (blocked : List String) (edges : List (String × String)) (a b : String) : Prop :=
  ∃ n, Linked edges a n ∧ Relation.ReflTransGen (fun x y => x ∉ blocked ∧ Linked edges x y) n b

/-- Every blocked transaction that a dependent one is connected to has an open path to it. -/
def Unshadowed (blocked : List String) (edges : List (String × String)) : Prop :=
  ∀ id ∉ blocked, ∀ root ∈ blocked, MovePath edges root id → OpenPath blocked edges root id

/-- The loop ends, blocks exactly the connected transactions, and names the same causes in every order. -/
def PathAtomic (blocked : List String) (edges : List (String × String)) : Prop :=
  (∀ e : Enumeration blocked edges, e.closure.frontier = [] ∧
    ∀ id, id ∈ e.closure.reached ↔ ∃ root ∈ blocked, MovePath edges root id) ∧
  ∀ e e' : Enumeration blocked edges, ∀ id ∈ e.closure.reached, id ∉ blocked → e.blockedBy id = e'.blockedBy id

namespace Enumeration
variable (e : Enumeration blocked edges) {id root : String}

theorem mem_roots : id ∈ e.order.toFinset ↔ id ∈ blocked := by
  rw [mem_toFinset, e.mem_order]

theorem known : ∀ a, ∀ b ∈ e.neighbors a, b ∈ (moveAnchors edges).toFinset := by
  intro a b near
  unfold moveAnchors
  rw [mem_toFinset, mem_sortedSet, mem_append, mem_map, mem_map]
  rcases (e.mem_neighbors a b).1 near with out | inbound
  · exact .inr ⟨_, out, rfl⟩
  · exact .inl ⟨_, inbound, rfl⟩

theorem enough : e.order.length + (moveAnchors edges).toFinset.card * e.order.toFinset.card ≤
    e.order.length + (moveAnchors edges).length * e.order.length := by
  have anchors : (moveAnchors edges).toFinset.card = (moveAnchors edges).length :=
    toFinset_card_of_nodup (sortedSet_nodup _)
  rw [anchors, toFinset_card_of_nodup e.order_nodup]

theorem done : e.closure.frontier = [] := start_done e.known e.enough

theorem connected_eq : Connected e.neighbors = MovePath edges := by
  have linked : (fun a b => b ∈ e.neighbors a) = Linked edges := by
    funext a b
    exact propext (e.mem_neighbors a b)
  unfold Connected MovePath
  rw [linked]

theorem passes_iff {a b : String} : Passes e.neighbors e.order.toFinset a b ↔ OpenPath blocked edges a b := by
  have linked : (fun x y => x ∉ e.order.toFinset ∧ y ∈ e.neighbors x) =
      fun x y => x ∉ blocked ∧ Linked edges x y := by
    funext x y
    rw [e.mem_roots, e.mem_neighbors]
    rfl
  unfold Passes FreePath OpenPath
  rw [linked]
  simp only [e.mem_neighbors]
  rfl

theorem mem_reached : id ∈ e.closure.reached ↔ ∃ root ∈ blocked, MovePath edges root id := by
  rw [← e.connected_eq]
  simp only [← e.mem_roots]
  exact mem_spread_reached e.known (fun _ => mem_toFinset.symm) e.enough

theorem mem_blockedBy : root ∈ e.blockedBy id ↔ root ∈ e.closure.origins id := by
  unfold blockedBy
  rw [mem_filter, mem_sortedSet, decide_eq_true_eq]
  exact and_iff_right_of_imp fun held => e.mem_roots.1 (labels_connected held).1

theorem blockedBy_bounds :
    (root ∈ e.blockedBy id → root ∈ blocked ∧ MovePath edges root id) ∧
      (root ∈ blocked → OpenPath blocked edges root id → root ∈ e.blockedBy id) := by
  rw [e.mem_blockedBy]
  refine ⟨fun held => ?_, fun member openPath => ?_⟩
  · obtain ⟨rooted, path⟩ := labels_connected held
    exact ⟨e.mem_roots.1 rooted, e.connected_eq ▸ path⟩
  · exact passes_labels (fun _ => mem_toFinset.symm) e.done (e.mem_roots.2 member) (e.passes_iff.2 openPath)

end Enumeration

def reordered (e : Enumeration blocked edges) (order : List String) (perm : order.Perm e.order) :
    Enumeration blocked edges where
  order := order
  neighbors := e.neighbors
  order_nodup := perm.nodup_iff.2 e.order_nodup
  mem_order := fun id => perm.mem_iff.trans (e.mem_order id)
  neighbors_nodup := e.neighbors_nodup
  mem_neighbors := e.mem_neighbors

theorem order_matters {id root : String} (dependent : id ∉ blocked) (member : root ∈ blocked)
    (path : MovePath edges root id) (hidden : ¬OpenPath blocked edges root id) :
    ∃ e e' : Enumeration blocked edges, e.blockedBy id ≠ e'.blockedBy id := by
  classical
  let e := sortedEnumeration blocked edges
  have plain : id ∉ e.order.toFinset := fun rooted => dependent (e.mem_roots.1 rooted)
  obtain ⟨first, isFirst, last, isLast, misses, onward, into⟩ := shadowing_pair plain (e.mem_roots.2 member)
    (e.connected_eq.symm ▸ path) (fun passes => hidden (e.passes_iff.1 passes))
  have different : first ≠ last := fun same => misses (same ▸ onward)
  -- The causes with an open path first.
  let upper := e.order.filter fun k => Passes e.neighbors e.order.toFinset k id
  let lower := e.order.filter fun k => ¬Passes e.neighbors e.order.toFinset k id
  have split : (upper ++ lower).Perm e.order := by
    simpa [upper, lower] using filter_append_perm (fun k => decide (Passes e.neighbors e.order.toFinset k id)) e.order
  let gathered := reordered e (upper ++ lower) split
  have same : gathered.order.toFinset = e.order.toFinset := toFinset_eq_of_perm _ _ split
  have absent : first ∉ gathered.blockedBy id := by
    intro named
    have held := gathered.mem_blockedBy.1 named
    unfold Enumeration.closure at held
    rw [same] at held
    refine misses (only_passing plain (fun k inside => ?_) (fun k inside => ?_) held)
    · obtain ⟨listed, passes⟩ := mem_filter.1 inside
      exact ⟨mem_toFinset.2 listed, of_decide_eq_true passes⟩
    · obtain ⟨listed, misses⟩ := mem_filter.1 inside
      exact ⟨mem_toFinset.2 listed, of_decide_eq_true misses⟩
  -- The hidden cause first and the one before it last.
  let middle := (e.order.erase first).erase last
  have lastLater : last ∈ e.order.erase first := (mem_erase_of_ne different.symm).2 (mem_toFinset.1 isLast)
  have around : (first :: (middle ++ [last])).Perm e.order := by
    refine (List.Perm.cons first ?_).trans (perm_cons_erase (mem_toFinset.1 isFirst)).symm
    exact (perm_append_singleton last middle).trans (perm_cons_erase lastLater).symm
  let through := reordered e (first :: (middle ++ [last])) around
  have same' : through.order.toFinset = e.order.toFinset := toFinset_eq_of_perm _ _ around
  have distinct : (e.order.erase first).Nodup := e.order_nodup.erase first
  have present : first ∈ through.blockedBy id := by
    refine through.mem_blockedBy.2 ?_
    have ended := through.done
    unfold Enumeration.closure at ended ⊢
    rw [same'] at ended ⊢
    refine passes_through different (fun k => ?_) (fun k inside equal => ?_) into onward ended
    · rw [around.mem_iff, mem_toFinset]
    · exact (List.Nodup.mem_erase_iff distinct).1 inside |>.1 equal
  exact ⟨gathered, through, fun equal => absent (equal ▸ present)⟩

/-- Blocking is path-atomic exactly when no blocked transaction hides another from a dependent one. -/
theorem path_atomic_iff (blocked : List String) (edges : List (String × String)) :
    PathAtomic blocked edges ↔ Unshadowed blocked edges := by
  constructor
  · rintro ⟨ends, confluent⟩ id dependent root member path
    by_contra hidden
    obtain ⟨e, e', differ⟩ := order_matters dependent member path hidden
    exact differ (confluent e e' id ((ends e).2 id |>.2 ⟨root, member, path⟩) dependent)
  · intro unshadowed
    refine ⟨fun e => ⟨e.done, fun id => e.mem_reached⟩, fun e e' id _ dependent => ?_⟩
    have exactly : ∀ (e : Enumeration blocked edges) root, root ∈ e.closure.origins id ↔
        root ∈ blocked ∧ MovePath edges root id := by
      intro e root
      rw [← e.mem_blockedBy]
      refine ⟨e.blockedBy_bounds.1, fun ⟨member, path⟩ => ?_⟩
      exact e.blockedBy_bounds.2 member (unshadowed id dependent root member path)
    unfold Enumeration.blockedBy
    refine filter_congr fun root _ => ?_
    exact decide_eq_decide.2 ((exactly e root).trans (exactly e' root).symm)

def sharedReceipt : List (String × String) := [("pay-1", "receipt"), ("pay-2", "receipt"), ("pay-2", "change")]

def paymentsIn (order : List String) (perm : order.Perm (sortedSet ["pay-1", "pay-2"])) :
    Enumeration ["pay-1", "pay-2"] sharedReceipt :=
  reordered (sortedEnumeration _ _) order perm

/-- The change depends on both payments when the first is taken first, and on its own only otherwise. -/
theorem shared_receipt_not_atomic : ¬PathAtomic ["pay-1", "pay-2"] sharedReceipt := by
  rintro ⟨-, confluent⟩
  have equal := confluent (paymentsIn ["pay-1", "pay-2"] (by decide)) (paymentsIn ["pay-2", "pay-1"] (by decide))
    "change" (by decide +kernel) (by decide)
  revert equal
  decide +kernel

end

/-- In whatever order the sets are walked: two lists block together what each of them blocks, and to block
what is blocked blocks nothing more. -/
theorem blocking_composes {first second : List String} {edges : List (String × String)} (e : Enumeration first edges)
    (e' : Enumeration second edges) (both : Enumeration (first ++ second) edges)
    (again : Enumeration e.closure.reached.toList edges) :
    both.closure.reached = e.closure.reached ∪ e'.closure.reached ∧ again.closure.reached = e.closure.reached := by
  constructor
  · ext id
    simp only [Finset.mem_union, Enumeration.mem_reached, mem_append, or_and_right, exists_or]
  · ext id
    rw [again.mem_reached, e.mem_reached]
    constructor
    · rintro ⟨through, blocked, path⟩
      obtain ⟨root, member, onward⟩ := e.mem_reached.1 (Finset.mem_toList.1 blocked)
      exact ⟨root, member, onward.trans path⟩
    · rintro ⟨root, member, path⟩
      exact ⟨id, Finset.mem_toList.2 (e.mem_reached.2 ⟨root, member, path⟩), .refl⟩

end Kassiber.Tax

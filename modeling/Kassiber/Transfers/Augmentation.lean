import Kassiber.Transfers.FlowSearch

/-!
Every round adds at least one unit along a path with room; without a path the reached nodes are a full cut.
-/

namespace Kassiber.Transfers
open Lib.Dict Lib.Flows List

variable {net : Network} {nodes : Finset Node} {amount total : Int}

def Network.flow (net : Network) (u v : Node) : Int := net.capacity u v - net.residual u v

/-- A network that carries an amount of flow, with a link wherever there is capacity. -/
structure Carrying (nodes : Finset Node) (net : Network) (amount : Int) : Prop where
  within : net.Within nodes
  sink : .sink ∈ nodes
  linked : ∀ u v, v ∉ net.adjacency u → net.capacity u v = 0 ∧ net.capacity v u = 0
  isFlow : IsFlow nodes .source .sink net.capacity net.flow
  value : outflow nodes net.flow .source = amount

theorem Carrying.residual_nonneg (carrying : Carrying nodes net amount) (u v : Node) : 0 ≤ net.residual u v := by
  have bounded := carrying.isFlow.bounded u v
  unfold Network.flow at bounded
  omega

theorem Carrying.adjacent_of_room (carrying : Carrying nodes net amount) {u v : Node} (room : 0 < net.residual u v) :
    v ∈ net.adjacency u := by
  by_contra absent
  obtain ⟨forward, backward⟩ := carrying.linked u v absent
  have skew := carrying.isFlow.skew u v
  have reverse := carrying.residual_nonneg v u
  unfold Network.flow at skew
  omega

theorem bump_apply (table : Node → Node → Int) (left right : Node) (change : Int) (u v : Node) :
    bump table left right change u v = table u v + if left = u ∧ right = v then change else 0 := by
  unfold bump
  by_cases here : u = left ∧ v = right
  · rw [if_pos here, if_pos (here.imp Eq.symm Eq.symm)]
  · rw [if_neg here, if_neg fun same => here (same.imp Eq.symm Eq.symm), add_zero]

theorem push_apply (increment : Int) (residual : Node → Node → Int) (a b u v : Node) :
    push increment residual (a, b) u v = residual u v - increment * carried [(a, b)] u v := by
  rw [carried_cons, push, bump_apply, bump_apply]
  simp only [carried, count_nil, and_comm (a := b = u)]
  split_ifs <;> ring

theorem push_path (increment : Int) (path : List (Node × Node)) (residual : Node → Node → Int) (u v : Node) :
    path.foldl (push increment) residual u v = residual u v - increment * carried path u v := by
  induction path generalizing residual with
  | nil => simp [carried]
  | cons edge rest ih =>
    obtain ⟨a, b⟩ := edge
    rw [foldl_cons, ih, push_apply, carried_cons a b rest, carried_cons a b []]
    simp only [carried, count_nil]
    ring

def Network.pushed (net : Network) (increment : Int) (path : List (Node × Node)) : Network :=
  { net with residual := path.foldl (push increment) net.residual }

theorem flow_pushed (increment : Int) (path : List (Node × Node)) :
    (net.pushed increment path).flow = augmented net.flow increment path := by
  funext u v
  dsimp only [Network.flow, augmented, Network.pushed]
  rw [push_path]
  ring

theorem foldl_least (net : Network) (path : List (Node × Node)) (start : Int) :
    path.foldl (fun least edge => min least (net.residual edge.1 edge.2)) start ≤ start ∧
      (∀ edge ∈ path,
        path.foldl (fun least edge => min least (net.residual edge.1 edge.2)) start ≤ net.residual edge.1 edge.2) ∧
      (0 < start → (∀ edge ∈ path, 0 < net.residual edge.1 edge.2) →
        0 < path.foldl (fun least edge => min least (net.residual edge.1 edge.2)) start) := by
  induction path generalizing start with
  | nil => simp
  | cons edge rest ih =>
    obtain ⟨below, each, positive⟩ := ih (min start (net.residual edge.1 edge.2))
    rw [foldl_cons]
    refine ⟨below.trans (min_le_left _ _), ?_, fun ahead room => ?_⟩
    · intro other member
      rcases mem_cons.1 member with rfl | inside
      · exact below.trans (min_le_right _ _)
      · exact each other inside
    · refine positive (lt_min ahead (room edge (.head _))) ?_
      exact fun other inside => room other (.tail _ inside)

theorem Carrying.pushed (carrying : Carrying nodes net amount) {parents : Parents} (tree : Tree net parents)
    {path : List (Node × Node)} (sound : TreePath net parents path .sink) {increment : Int} (positive : 0 ≤ increment)
    (room : ∀ edge ∈ path, increment ≤ net.residual edge.1 edge.2) :
    Carrying nodes (net.pushed increment path) (amount + increment) := by
  have inside : ∀ edge ∈ path, edge.1 ∈ nodes ∧ edge.2 ∈ nodes := fun edge member =>
    (sound.reached edge member).imp (tree.subset carrying.within _) (tree.subset carrying.within _)
  have distinct : path.Nodup := List.Nodup.of_map _ sound.heads
  refine ⟨⟨carrying.within.source, carrying.within.adjacent⟩, carrying.sink, carrying.linked, ?_, ?_⟩
  · rw [flow_pushed]
    refine carrying.isFlow.augment sound.walk distinct inside positive fun edge member => ?_
    have fits := room edge member
    unfold Network.flow
    omega
  · rw [flow_pushed, outflow_augment sound.walk inside (by decide), carrying.value]

theorem Carrying.maximal (carrying : Carrying nodes net amount) {parents : Parents} (tree : Tree net parents)
    (closed : ∀ node ∈ parents.keys, Reached net parents node (net.adjacency node)) (missed : .sink ∉ parents.keys)
    {other : Node → Node → Int} (rival : IsFlow nodes .source .sink net.capacity other) :
    outflow nodes other .source ≤ amount := by
  rw [← carrying.value]
  have within : parents.keys.toFinset ⊆ nodes := fun node member =>
    tree.subset carrying.within node (mem_toFinset.1 member)
  refine carrying.isFlow.maximal rival within (mem_toFinset.2 tree.source_mem)
    (fun member => missed (mem_toFinset.1 member)) ?_
  intro u left v right
  have full : net.residual u v = 0 := by
    refine le_antisymm (not_lt.1 fun room => ?_) (carrying.residual_nonneg u v)
    refine (Finset.mem_sdiff.1 right).2 (mem_toFinset.2 ?_)
    exact closed u (mem_toFinset.1 left) v (carrying.adjacent_of_room room) room
  rw [Network.flow, full, sub_zero]

/-- What the augmentation leaves behind: as much as was asked for, or a largest flow. -/
structure Augmented (nodes : Finset Node) (start : Network) (total : Int) (result : Network × Int) : Prop where
  carrying : Carrying nodes result.1 result.2
  capacity : result.1.capacity = start.capacity
  atMost : result.2 ≤ total
  largest : result.2 = total ∨
    ∀ other, IsFlow nodes .source .sink start.capacity other → outflow nodes other .source ≤ result.2

def leastRoom (net : Network) (left : Int) (path : List (Node × Node)) : Int :=
  path.foldl (fun least edge => min least (net.residual edge.1 edge.2)) left

inductive AugmentRun (total : Int) : Network → Int → Network × Int → Prop where
  | filled (net : Network) {amount : Int} : total ≤ amount → AugmentRun total net amount (net, amount)
  | blocked {net : Network} {amount : Int} {parents : Parents} : amount < total →
    SearchRun net [(.source, none)] [.source] parents → parents.seen .sink = false →
      AugmentRun total net amount (net, amount)
  | round {net : Network} {amount : Int} {parents : Parents} {path : List (Node × Node)} {result : Network × Int} :
    amount < total → SearchRun net [(.source, none)] [.source] parents → parents.seen .sink = true →
      PathRun parents .sink path →
        AugmentRun total (net.pushed (leastRoom net (total - amount) path) path)
          (amount + leastRoom net (total - amount) path) result →
          AugmentRun total net amount result

theorem augment_filled (size rounds : Nat) (filled : total ≤ amount) :
    augment size total rounds net amount = (net, amount) := by
  cases rounds with
  | zero => rfl
  | succ rounds => rw [augment, if_pos filled]

theorem augment_spec {size : Nat} (enough : nodes.card ≤ size) (rounds : Nat) :
    ∀ (net : Network) (amount : Int), Carrying nodes net amount → amount ≤ total → total ≤ amount + rounds →
      Augmented nodes net total (augment size total rounds net amount) ∧
        AugmentRun total net amount (augment size total rounds net amount) := by
  induction rounds with
  | zero =>
    intro net amount carrying atMost left
    have filled : total ≤ amount := by omega
    rw [augment_filled _ _ filled]
    exact ⟨⟨carrying, rfl, atMost, .inl (le_antisymm atMost filled)⟩, .filled net filled⟩
  | succ rounds ih =>
    intro net amount carrying atMost left
    by_cases filled : total ≤ amount
    · rw [augment_filled _ _ filled]
      exact ⟨⟨carrying, rfl, atMost, .inl (le_antisymm atMost filled)⟩, .filled net filled⟩
    · have below := not_le.1 filled
      obtain ⟨tree, exhausted, searched⟩ := search_spec carrying.within size _ _ frontier_start
        (by simp only [length_singleton]; omega)
      by_cases arrived : .sink ∈ (search net size [(.source, none)] [.source]).keys
      · obtain ⟨path, sound, walked, short⟩ := tree.path .sink arrived
        have few := tree.length_le carrying.within
        obtain ⟨most, fits, positive⟩ := foldl_least net path (total - amount)
        have ahead := positive (by omega) sound.room
        have next := carrying.pushed tree sound ahead.le fits
        obtain ⟨done, run⟩ := ih _ _ next (by omega) (by push_cast at left; omega)
        rw [augment, if_neg filled, if_pos (seen_iff.2 arrived), walked.read (by omega)]
        exact ⟨⟨done.carrying, done.capacity, done.atMost, done.largest⟩,
          .round below searched (seen_iff.2 arrived) walked run⟩
      · have missed : (search net size [(.source, none)] [.source]).seen .sink ≠ true := fun seen =>
          arrived (seen_iff.1 seen)
        rw [augment, if_neg filled, if_neg missed]
        refine ⟨⟨carrying, rfl, atMost, .inr fun other rival => ?_⟩,
          .blocked below searched (Bool.eq_false_iff.2 missed)⟩
        exact carrying.maximal tree (exhausted.resolve_left arrived) arrived rival

end Kassiber.Transfers

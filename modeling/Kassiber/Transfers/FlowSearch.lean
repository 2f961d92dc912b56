import Kassiber.Lib.Flows
import Kassiber.Transfers.PairAllocation

/-!
The breadth-first search of the flow allocation.
-/

namespace Kassiber.Transfers
open Lib.Dict Lib.Flows
open List hiding lookup lookup_append lookup_singleton keys_append

variable {net : Network} {nodes : Finset Node}

def Parents.keys (parents : Parents) : List Node := parents.map Prod.fst

variable {parents : Parents} {node : Node}

theorem seen_iff : parents.seen node = true ↔ node ∈ parents.keys := by
  simp only [Parents.seen, Parents.keys, contains_iff_mem]

/-- Nodes with the node they were reached from, over edges with room. -/
inductive Tree (net : Network) : Parents → Prop where
  | root : Tree net [(.source, none)]
  | grow {parents : Parents} {u v : Node} : Tree net parents → u ∈ parents.keys → v ∉ parents.keys →
    v ∈ net.adjacency u → 0 < net.residual u v → Tree net (parents ++ [(v, some u)])

theorem keys_append {parents more : Parents} : (parents ++ more).keys = parents.keys ++ more.keys := by
  simp [Parents.keys]

theorem Tree.nodup (tree : Tree net parents) : parents.keys.Nodup := by
  induction tree with
  | root => simp [Parents.keys]
  | @grow parents u v tree _ fresh _ _ ih =>
    rw [keys_append, nodup_append]
    refine ⟨ih, by simp [Parents.keys], ?_⟩
    intro a old b new same
    rw [show b = v by simpa [Parents.keys] using new] at same
    exact fresh (same ▸ old)

theorem Tree.source_mem (tree : Tree net parents) : .source ∈ parents.keys := by
  induction tree with
  | root => simp [Parents.keys]
  | grow _ _ _ _ _ ih =>
    rw [keys_append]
    exact mem_append_left _ ih

structure Network.Within (net : Network) (nodes : Finset Node) : Prop where
  source : .source ∈ nodes
  adjacent : ∀ u, ∀ v ∈ net.adjacency u, v ∈ nodes

theorem Tree.subset (tree : Tree net parents) (within : net.Within nodes) : ∀ node ∈ parents.keys, node ∈ nodes := by
  induction tree with
  | root =>
    intro node member
    rw [show node = .source by simpa [Parents.keys] using member]
    exact within.source
  | @grow parents u v _ _ _ adjacent _ ih =>
    intro node member
    rw [keys_append, mem_append] at member
    rcases member with old | new
    · exact ih node old
    · rw [show node = v by simpa [Parents.keys] using new]
      exact within.adjacent u v adjacent

theorem Tree.length_le (tree : Tree net parents) (within : net.Within nodes) : parents.length ≤ nodes.card := by
  have sized : parents.length = parents.keys.toFinset.card := by
    rw [toFinset_card_of_nodup tree.nodup, Parents.keys, length_map]
  rw [sized]
  refine Finset.card_le_card ?_
  intro node member
  exact tree.subset within node (mem_toFinset.1 member)

def Reached (net : Network) (parents : Parents) (node : Node) (neighbors : List Node) : Prop :=
  ∀ v ∈ neighbors, 0 < net.residual node v → v ∈ parents.keys

theorem scanNeighbors_spec (neighbors : List Node) (adjacent : ∀ v ∈ neighbors, v ∈ net.adjacency node) :
    ∀ (parents : Parents) (queue : List Node), Tree net parents → node ∈ parents.keys →
      ∃ new : Parents, scanNeighbors net node neighbors parents queue = (parents ++ new, queue ++ new.keys) ∧
        Tree net (parents ++ new) ∧
        (.sink ∈ (parents ++ new).keys ∨ Reached net (parents ++ new) node neighbors) := by
  induction neighbors with
  | nil =>
    intro parents queue tree _
    refine ⟨[], by simp [scanNeighbors, Parents.keys], by simpa using tree, .inr ?_⟩
    intro v member
    cases member
  | cons neighbor rest ih =>
    intro parents queue tree present
    have later : ∀ v ∈ rest, v ∈ net.adjacency node := fun v member => adjacent v (.tail _ member)
    rw [scanNeighbors]
    by_cases skipped : (parents.seen neighbor || net.residual node neighbor ≤ 0) = true
    · rw [if_pos skipped]
      obtain ⟨new, run, grown, closed⟩ := ih later parents queue tree present
      refine ⟨new, run, grown, closed.imp_right fun reached v member room => ?_⟩
      rcases mem_cons.1 member with rfl | inside
      · rcases Bool.or_eq_true _ _ ▸ skipped with seen | full
        · rw [keys_append]
          exact mem_append_left _ (seen_iff.1 seen)
        · exact absurd room (not_lt.2 (of_decide_eq_true full))
      · exact reached v inside room
    · rw [if_neg skipped]
      simp only [Bool.or_eq_true, decide_eq_true_eq, not_or, not_le, seen_iff] at skipped
      have grown := Tree.grow tree present skipped.1 (adjacent neighbor (.head _)) skipped.2
      by_cases final : neighbor = .sink
      · rw [if_pos final]
        refine ⟨[(neighbor, some node)], by simp [Parents.keys], grown, .inl ?_⟩
        rw [keys_append, final]
        exact mem_append_right _ (by simp [Parents.keys])
      · rw [if_neg final]
        have still : node ∈ (parents ++ [(neighbor, some node)]).keys := by
          rw [keys_append]
          exact mem_append_left _ present
        obtain ⟨new, run, whole, closed⟩ := ih later _ (queue ++ [neighbor]) grown still
        refine ⟨(neighbor, some node) :: new, ?_, ?_, ?_⟩
        · rw [run]
          simp [Parents.keys]
        · simpa using whole
        · rw [show parents ++ (neighbor, some node) :: new = parents ++ [(neighbor, some node)] ++ new by simp]
          refine closed.imp_right fun reached v member room => ?_
          rcases mem_cons.1 member with rfl | inside
          · rw [keys_append, keys_append]
            exact mem_append_left _ (mem_append_right _ (by simp [Parents.keys]))
          · exact reached v inside room

/-- What a search has reached, with the nodes it still has to visit. -/
structure Frontier (net : Network) (parents : Parents) (queue : List Node) : Prop where
  tree : Tree net parents
  queued : ∀ node ∈ queue, node ∈ parents.keys
  visited : .sink ∈ parents.keys ∨ ∀ node ∈ parents.keys, node ∉ queue → Reached net parents node (net.adjacency node)

theorem frontier_start : Frontier net [(.source, none)] [.source] where
  tree := .root
  queued := by simp [Parents.keys]
  visited := .inr fun node member absent => by simp_all [Parents.keys]

theorem Frontier.visit {queue : List Node}
    (frontier : Frontier net parents (node :: queue)) (open' : .sink ∉ parents.keys) :
    ∃ new : Parents, scanNeighbors net node (net.adjacency node) parents queue = (parents ++ new, queue ++ new.keys) ∧
      Frontier net (parents ++ new) (queue ++ new.keys) := by
  have present := frontier.queued node (.head _)
  obtain ⟨new, run, grown, closed⟩ :=
    scanNeighbors_spec (net.adjacency node) (fun _ member => member) parents queue frontier.tree present
  refine ⟨new, run, grown, ?_, closed.imp_right fun reached other member absent => ?_⟩
  · intro other member
    rw [keys_append]
    rcases mem_append.1 member with old | fresh
    · exact mem_append_left _ (frontier.queued other (.tail _ old))
    · exact mem_append_right _ fresh
  · rw [mem_append, not_or] at absent
    rw [keys_append] at member
    have old : other ∈ parents.keys := (mem_append.1 member).resolve_right absent.2
    by_cases own : other = node
    · exact own ▸ reached
    · intro v adjacent room
      rw [keys_append]
      refine mem_append_left _ ?_
      refine frontier.visited.resolve_left open' other old ?_ v adjacent room
      exact fun inside => (mem_cons.1 inside).elim own absent.1

/-- A finished search: at the sink, or with every neighbour behind an edge with room reached. -/
def Exhausted (net : Network) (parents : Parents) : Prop :=
  .sink ∈ parents.keys ∨ ∀ node ∈ parents.keys, Reached net parents node (net.adjacency node)

inductive SearchRun (net : Network) : Parents → List Node → Parents → Prop where
  | drained (parents : Parents) : SearchRun net parents [] parents
  | arrived {parents : Parents} (queue : List Node) : parents.seen .sink = true → SearchRun net parents queue parents
  | visit {parents found result : Parents} {node : Node} {queue queued : List Node} :
    parents.seen .sink = false → scanNeighbors net node (net.adjacency node) parents queue = (found, queued) →
      SearchRun net found queued result → SearchRun net parents (node :: queue) result

theorem search_spec (within : net.Within nodes) (rounds : Nat) :
    ∀ (parents : Parents) (queue : List Node), Frontier net parents queue →
      nodes.card + queue.length ≤ parents.length + rounds →
        Tree net (search net rounds parents queue) ∧ Exhausted net (search net rounds parents queue) ∧
          SearchRun net parents queue (search net rounds parents queue) := by
  have idle : ∀ (rounds : Nat) (parents : Parents), search net rounds parents [] = parents := by
    intro rounds parents
    cases rounds <;> rfl
  have drained : ∀ parents, Frontier net parents [] → Exhausted net parents := fun parents frontier =>
    frontier.visited.imp_right fun closed node member => closed node member not_mem_nil
  induction rounds with
  | zero =>
    intro parents queue frontier enough
    have bound := frontier.tree.length_le within
    have empty : queue = [] := eq_nil_of_length_eq_zero (by omega)
    subst empty
    rw [idle]
    exact ⟨frontier.tree, drained parents frontier, .drained parents⟩
  | succ rounds ih =>
    intro parents queue frontier enough
    cases queue with
    | nil =>
      rw [idle]
      exact ⟨frontier.tree, drained parents frontier, .drained parents⟩
    | cons node queue =>
      by_cases arrived : parents.seen .sink = true
      · rw [search, if_pos arrived]
        exact ⟨frontier.tree, .inl (seen_iff.1 arrived), .arrived _ arrived⟩
      · obtain ⟨new, run, next⟩ := frontier.visit fun reached => arrived (seen_iff.2 reached)
        have sized : new.keys.length = new.length := length_map _
        have left := ih _ _ next (by
          rw [length_append, length_append, sized]
          rw [length_cons] at enough
          omega)
        rw [search, if_neg arrived, run]
        exact ⟨left.1, left.2.1, .visit (Bool.eq_false_iff.2 arrived) run left.2.2⟩

/-- A path of the tree: from the source, over edges with room, with no node reached twice. -/
structure TreePath (net : Network) (parents : Parents) (path : List (Node × Node)) (last : Node) : Prop where
  walk : Walk .source path last
  heads : (path.map Prod.snd).Nodup
  reached : ∀ edge ∈ path, edge.1 ∈ parents.keys ∧ edge.2 ∈ parents.keys
  room : ∀ edge ∈ path, 0 < net.residual edge.1 edge.2

theorem lookup_grown {u v node : Node} (fresh : v ∉ parents.keys) (old : node ∈ parents.keys) :
    lookup (parents ++ [(v, some u)]) node = lookup parents node := by
  have other : v ≠ node := fun same => fresh (same ▸ old)
  rw [lookup_append, lookup_singleton, if_neg other, Option.none_or]

inductive PathRun (parents : Parents) : Node → List (Node × Node) → Prop where
  | root {node : Node} : (lookup parents node).join = none → PathRun parents node []
  | step {node previous : Node} {path : List (Node × Node)} : (lookup parents node).join = some previous →
    PathRun parents previous path → PathRun parents node ((previous, node) :: path)

theorem PathRun.read {path : List (Node × Node)} (run : PathRun parents node path)
    {steps : Nat} (enough : path.length < steps) : pathTo parents steps node = path := by
  induction run generalizing steps with
  | root found =>
    cases steps with
    | zero => rfl
    | succ steps => rw [pathTo, found]
  | @step node previous path found _ ih =>
    cases steps with
    | zero => exact absurd enough (Nat.not_lt_zero _)
    | succ steps =>
      rw [pathTo, found]
      dsimp only
      rw [ih (by rw [length_cons] at enough; omega)]

theorem PathRun.grown {u v : Node} (fresh : v ∉ parents.keys)
    {path : List (Node × Node)} (run : PathRun parents node path) (old : node ∈ parents.keys)
    (reached : ∀ edge ∈ path, edge.1 ∈ parents.keys ∧ edge.2 ∈ parents.keys) :
    PathRun (parents ++ [(v, some u)]) node path := by
  induction run with
  | root found =>
    refine .root ?_
    rw [lookup_grown fresh old]
    exact found
  | step found _ ih =>
    refine .step ?_ (ih (reached _ (.head _)).1 fun edge inside => reached edge (.tail _ inside))
    rw [lookup_grown fresh old]
    exact found

theorem Tree.path (tree : Tree net parents) :
    ∀ node ∈ parents.keys, ∃ path, TreePath net parents path node ∧ PathRun parents node path ∧
      path.length < parents.length := by
  induction tree with
  | root =>
    intro node member
    have same : node = .source := by simpa [Parents.keys] using member
    subst same
    exact ⟨[], ⟨.nil, nodup_nil, by simp, by simp⟩, .root rfl, by simp⟩
  | @grow parents u v tree present fresh _ room ih =>
    intro node member
    rw [keys_append, mem_append] at member
    have sized : (parents ++ [(v, some u)]).length = parents.length + 1 := by simp
    have wider : ∀ path : List (Node × Node), (∀ edge ∈ path, edge.1 ∈ parents.keys ∧ edge.2 ∈ parents.keys) →
        ∀ edge ∈ path, edge.1 ∈ (parents ++ [(v, some u)]).keys ∧ edge.2 ∈ (parents ++ [(v, some u)]).keys := by
      intro path reached edge inside
      rw [keys_append]
      exact (reached edge inside).imp (mem_append_left _) (mem_append_left _)
    rcases member with old | new
    · obtain ⟨path, sound, run, short⟩ := ih node old
      refine ⟨path, ⟨sound.walk, sound.heads, wider path sound.reached, sound.room⟩, ?_, by omega⟩
      exact run.grown fresh old sound.reached
    · have same : node = v := by simpa [Parents.keys] using new
      subst same
      obtain ⟨path, sound, run, short⟩ := ih u present
      refine ⟨(u, node) :: path, ⟨.step node sound.walk, ?_, ?_, ?_⟩, ?_, ?_⟩
      · rw [map_cons, nodup_cons]
        refine ⟨fun repeated => ?_, sound.heads⟩
        obtain ⟨edge, inside, same⟩ := mem_map.1 repeated
        change edge.2 = node at same
        exact fresh (same ▸ (sound.reached edge inside).2)
      · intro edge inside
        rcases mem_cons.1 inside with rfl | inside
        · rw [keys_append]
          exact ⟨mem_append_left _ present, mem_append_right _ (by simp [Parents.keys])⟩
        · exact wider path sound.reached edge inside
      · intro edge inside
        rcases mem_cons.1 inside with rfl | inside
        · exact room
        · exact sound.room edge inside
      · refine .step ?_ (run.grown fresh present sound.reached)
        rw [lookup_append, lookup_singleton, if_pos rfl]
        rfl
      · rw [length_cons]
        omega

end Kassiber.Transfers

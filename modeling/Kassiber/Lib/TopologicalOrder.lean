import Mathlib

/-!
Directed graphs as the targets of every node: edges that close no cycle, a walk from some nodes, and the order
that takes a node once all its predecessors are taken.
-/

namespace Lib.TopologicalOrder
open List
open Function (update update_self update_of_ne)
variable {ν : Type*} [DecidableEq ν]

def Edge (graph : ν → List ν) (x y : ν) : Prop := y ∈ graph x

def Acyclic (graph : ν → List ν) : Prop := ∀ x, ¬ Relation.TransGen (Edge graph) x x

structure Within (nodes : List ν) (graph : ν → List ν) : Prop where
  ends : ∀ x y, Edge graph x y → x ∈ nodes ∧ y ∈ nodes
  distinct : ∀ x, (graph x).Nodup

def addEdge (graph : ν → List ν) (x y : ν) : ν → List ν :=
  update graph x (if y ∈ graph x then graph x else graph x ++ [y])

section
variable {nodes : List ν} {graph : ν → List ν} {x y : ν}

theorem edge_addEdge {a b : ν} : Edge (addEdge graph x y) a b ↔ Edge graph a b ∨ (a = x ∧ b = y) := by
  unfold Edge addEdge
  by_cases same : a = x
  · subst same
    rw [update_self]
    split
    · rename_i present
      exact ⟨.inl, fun either => either.elim (fun old => old) fun new => new.2 ▸ present⟩
    · rw [mem_append, mem_singleton]
      exact ⟨fun either => either.imp (fun old => old) fun new => ⟨rfl, new⟩, fun either => either.imp (fun old => old) And.right⟩
  · rw [update_of_ne same]
    exact ⟨.inl, fun either => either.elim (fun old => old) fun new => absurd new.1 same⟩

theorem Within.addEdge (within : Within nodes graph) (left : x ∈ nodes) (right : y ∈ nodes) :
    Within nodes (addEdge graph x y) := by
  refine ⟨fun a b edge => ?_, fun a => ?_⟩
  · rcases edge_addEdge.1 edge with old | ⟨rfl, rfl⟩
    · exact within.ends a b old
    · exact ⟨left, right⟩
  · unfold TopologicalOrder.addEdge
    by_cases same : a = x
    · subst same
      rw [update_self]
      split
      · exact within.distinct a
      · rename_i absent
        exact nodup_append.2 ⟨within.distinct a, nodup_singleton y, fun b inside c single => by
          rw [mem_singleton.1 single]
          exact fun same => absent (same ▸ inside)⟩
    · rw [update_of_ne same]
      exact within.distinct a

theorem path_addEdge (unreached : ¬ Relation.ReflTransGen (Edge graph) y x) {a b : ν}
    (path : Relation.TransGen (Edge (addEdge graph x y)) a b) :
    Relation.TransGen (Edge graph) a b ∨
      (Relation.ReflTransGen (Edge graph) a x ∧ Relation.ReflTransGen (Edge graph) y b) := by
  induction path with
  | single edge =>
    rcases edge_addEdge.1 edge with old | ⟨rfl, rfl⟩
    · exact .inl (.single old)
    · exact .inr ⟨.refl, .refl⟩
  | tail _ edge ih =>
    rcases edge_addEdge.1 edge with old | ⟨rfl, rfl⟩
    · exact ih.imp (fun before => before.tail old) fun across => ⟨across.1, across.2.tail old⟩
    · rcases ih with before | across
      · exact .inr ⟨before.to_reflTransGen, .refl⟩
      · exact absurd across.2 unreached

theorem Acyclic.addEdge (acyclic : Acyclic graph) (unreached : ¬ Relation.ReflTransGen (Edge graph) y x) :
    Acyclic (addEdge graph x y) := by
  intro a cycle
  rcases path_addEdge unreached cycle with old | ⟨before, after⟩
  · exact acyclic a old
  · exact unreached (after.trans before)

end

/-- Visits what some nodes lead to, until it comes to a node that stops it. -/
def walk (stops : ν → Bool) (graph : ν → List ν) : Nat → List ν → List ν → Option (List ν)
  | 0, _, visited => some visited
  | _ + 1, [], visited => some visited
  | rounds + 1, current :: pending, visited =>
    if stops current then none
    else if current ∈ visited then walk stops graph rounds pending visited
    else walk stops graph rounds (graph current ++ pending) (current :: visited)

def unvisitedTargets (nodes : List ν) (graph : ν → List ν) (visited : List ν) : Nat :=
  ∑ x ∈ nodes.toFinset with x ∉ visited, (graph x).length

section
variable {nodes : List ν} {graph : ν → List ν} {stops : ν → Bool}

theorem unvisited_cons {visited : List ν} {x : ν} (member : x ∈ nodes) (fresh : x ∉ visited) :
    (graph x).length + unvisitedTargets nodes graph (x :: visited) = unvisitedTargets nodes graph visited := by
  have inside : x ∈ nodes.toFinset.filter (· ∉ visited) := Finset.mem_filter.2 ⟨mem_toFinset.2 member, fresh⟩
  unfold unvisitedTargets
  rw [← Finset.add_sum_erase _ _ inside]
  congr 2
  ext y
  simp only [Finset.mem_filter, Finset.mem_erase, mem_cons, not_or]
  tauto

/-- Nodes that hold some others and all that these lead to, none of which stops the walk. -/
structure Explored (stops : ν → Bool) (graph : ν → List ν) (given seen : List ν) : Prop where
  covers : ∀ x ∈ given, x ∈ seen
  passed : ∀ x ∈ seen, stops x = false
  closed : ∀ x ∈ seen, ∀ y, Edge graph x y → y ∈ seen

omit [DecidableEq ν] in
theorem Explored.reaches {given seen : List ν} (explored : Explored stops graph given seen) {x y : ν} (member : x ∈ given)
    (path : Relation.ReflTransGen (Edge graph) x y) : y ∈ seen := by
  induction path with
  | refl => exact explored.covers x member
  | tail _ edge ih => exact explored.closed _ ih _ edge

theorem walk_spec (within : Within nodes graph) {rounds : Nat} {pending visited : List ν}
    (inside : ∀ x ∈ pending, x ∈ nodes) (passed : ∀ x ∈ visited, stops x = false)
    (closed : ∀ x ∈ visited, ∀ y, Edge graph x y → y ∈ visited ++ pending)
    (enough : pending.length + unvisitedTargets nodes graph visited ≤ rounds) :
    (walk stops graph rounds pending visited = none →
      ∃ x ∈ pending, ∃ y, Relation.ReflTransGen (Edge graph) x y ∧ stops y = true) ∧
    ∀ seen, walk stops graph rounds pending visited = some seen → Explored stops graph (visited ++ pending) seen := by
  induction rounds generalizing pending visited with
  | zero =>
    obtain rfl : pending = [] := length_eq_zero_iff.1 (by omega)
    rw [append_nil] at closed ⊢
    refine ⟨fun fails => (by cases fails), fun seen same => ?_⟩
    cases same
    exact ⟨fun x member => member, passed, closed⟩
  | succ rounds ih =>
    cases pending with
    | nil =>
      rw [append_nil] at closed ⊢
      refine ⟨fun fails => (by cases fails), fun seen same => ?_⟩
      cases same
      exact ⟨fun x member => member, passed, closed⟩
    | cons current rest =>
      rw [length_cons] at enough
      unfold walk
      by_cases stop : stops current = true
      · rw [if_pos stop]
        exact ⟨fun _ => ⟨current, .head _, current, .refl, stop⟩, fun seen same => by cases same⟩
      rw [if_neg stop]
      by_cases known : current ∈ visited
      · rw [if_pos known]
        have listed : ∀ x ∈ visited ++ current :: rest, x ∈ visited ++ rest := by
          intro x member
          rcases mem_append.1 member with old | queued
          · exact mem_append_left _ old
          · rcases mem_cons.1 queued with rfl | later
            · exact mem_append_left _ known
            · exact mem_append_right _ later
        obtain ⟨stopped, done⟩ := ih (fun x member => inside x (.tail _ member)) passed
          (fun x member y edge => listed y (closed x member y edge)) (by omega)
        refine ⟨fun fails => ?_, fun seen same => ?_⟩
        · obtain ⟨x, member, path⟩ := stopped fails
          exact ⟨x, .tail _ member, path⟩
        · have explored := done seen same
          exact ⟨fun x member => explored.covers x (listed x member), explored.passed, explored.closed⟩
      · rw [if_neg known]
        have here := inside current (.head _)
        have fewer := @unvisited_cons _ _ _ graph _ _ here known
        have listed : ∀ x ∈ visited ++ current :: rest, x ∈ (current :: visited) ++ (graph current ++ rest) := by
          intro x member
          rcases mem_append.1 member with old | queued
          · exact mem_append_left _ (.tail _ old)
          · rcases mem_cons.1 queued with rfl | later
            · exact mem_append_left _ (.head _)
            · exact mem_append_right _ (mem_append_right _ later)
        have inside' : ∀ x ∈ graph current ++ rest, x ∈ nodes := by
          intro x member
          rcases mem_append.1 member with target | later
          · exact (within.ends current x target).2
          · exact inside x (.tail _ later)
        have passed' : ∀ x ∈ current :: visited, stops x = false :=
          forall_mem_cons.2 ⟨Bool.eq_false_iff.2 stop, passed⟩
        have closed' : ∀ x ∈ current :: visited, ∀ y, Edge graph x y → y ∈ (current :: visited) ++ (graph current ++ rest) := by
          intro x member y edge
          rcases mem_cons.1 member with rfl | old
          · exact mem_append_right _ (mem_append_left _ edge)
          · exact listed y (closed x old y edge)
        have enough' : (graph current ++ rest).length + unvisitedTargets nodes graph (current :: visited) ≤ rounds := by
          rw [length_append]
          omega
        obtain ⟨stopped, done⟩ := ih inside' passed' closed' enough'
        refine ⟨fun fails => ?_, fun seen same => ?_⟩
        · obtain ⟨x, member, y, path, stopping⟩ := stopped fails
          rcases mem_append.1 member with target | later
          · exact ⟨current, .head _, y, .head target path, stopping⟩
          · exact ⟨x, .tail _ later, y, path, stopping⟩
        · have explored := done seen same
          exact ⟨fun x member => explored.covers x (listed x member), explored.passed, explored.closed⟩

def walkRounds (nodes : List ν) (graph : ν → List ν) : Nat := 1 + (nodes.map fun x => (graph x).length).sum

theorem unvisited_le (visited : List ν) (distinct : nodes.Nodup) :
    unvisitedTargets nodes graph visited ≤ (nodes.map fun x => (graph x).length).sum := by
  rw [← sum_toFinset _ distinct]
  exact Finset.sum_le_sum_of_subset (Finset.filter_subset _ _)

theorem walk_stops (within : Within nodes graph) (distinct : nodes.Nodup) {x : ν} (member : x ∈ nodes) :
    walk stops graph (walkRounds nodes graph) [x] [] = none ↔
      ∃ y, Relation.ReflTransGen (Edge graph) x y ∧ stops y = true := by
  have inside : ∀ y ∈ [x], y ∈ nodes := fun y inside => mem_singleton.1 inside ▸ member
  have enough : [x].length + unvisitedTargets nodes graph [] ≤ walkRounds nodes graph := by
    have room := @unvisited_le _ _ _ graph [] distinct
    rw [walkRounds, length_singleton]
    omega
  obtain ⟨stopped, done⟩ := @walk_spec _ _ _ _ stops within _ _ _ inside (fun y listed => absurd listed not_mem_nil)
    (fun y listed => absurd listed not_mem_nil) enough
  constructor
  · intro fails
    obtain ⟨y, inside, path⟩ := stopped fails
    rwa [mem_singleton.1 inside] at path
  · rintro ⟨y, path, stopping⟩
    cases ran : walk stops graph (walkRounds nodes graph) [x] [] with
    | none => rfl
    | some seen =>
      have explored := done seen ran
      have reached := explored.reaches (mem_singleton_self x) path
      rw [explored.passed y reached] at stopping
      cases stopping

end

/-- One edge less into a target, which becomes ready with its last one. -/
def release (progress : (ν → Int) × List ν) (target : ν) : (ν → Int) × List ν :=
  let count := progress.1 target - 1
  (update progress.1 target count, if count = 0 then progress.2 ++ [target] else progress.2)

/-- Takes the first ready node, and arranges anew what is ready after it. -/
def takeReady (arrange : List ν → List ν) (graph : ν → List ν) : Nat → (ν → Int) → List ν → List ν → List ν
  | 0, _, _, ordered => ordered
  | _ + 1, _, [], ordered => ordered
  | rounds + 1, incoming, node :: ready, ordered =>
    let released := (arrange (graph node)).foldl release (incoming, ready)
    takeReady arrange graph rounds released.1 (arrange released.2) (ordered ++ [node])

def countIncoming (nodes : List ν) (graph : ν → List ν) : ν → Int :=
  nodes.foldl (fun counts node => (graph node).foldl (fun counts target =>
    update counts target (counts target + 1)) counts) fun _ => 0

def waiting (nodes : List ν) (graph : ν → List ν) (ordered : List ν) (y : ν) : Finset ν :=
  nodes.toFinset.filter fun x => x ∉ ordered ∧ y ∈ graph x

section
variable {nodes : List ν} {graph : ν → List ν}

theorem release_fold {targets : List ν} (distinct : targets.Nodup) (incoming : ν → Int) (ready : List ν) :
    targets.foldl release (incoming, ready) =
      (fun y => incoming y - if y ∈ targets then 1 else 0, ready ++ targets.filter fun y => incoming y = 1) := by
  induction targets generalizing incoming ready with
  | nil => simp
  | cons target rest ih =>
    obtain ⟨absent, distinct'⟩ := nodup_cons.1 distinct
    rw [foldl_cons, release, ih distinct']
    have others : ∀ y ∈ rest, update incoming target (incoming target - 1) y = incoming y := by
      intro y member
      refine update_of_ne ?_ _ _
      rintro rfl
      exact absent member
    refine Prod.ext (funext fun y => ?_) ?_
    · dsimp only
      by_cases same : y = target
      · subst same
        rw [update_self, if_neg absent, if_pos mem_cons_self, sub_zero]
      · rw [update_of_ne same]
        simp only [mem_cons, same, false_or]
    · dsimp only
      rw [filter_congr fun y member => by rw [others y member]]
      by_cases last : incoming target = 1
      · rw [if_pos (by omega), filter_cons, if_pos (decide_eq_true last), List.append_assoc, singleton_append]
      · rw [if_neg (by omega), filter_cons, if_neg (by simpa using last)]

theorem countIncoming_fold (distinct : ∀ x, (graph x).Nodup) (y : ν) {xs : List ν} (nodup : xs.Nodup) (counts : ν → Int) :
    xs.foldl (fun counts node => (graph node).foldl (fun counts target =>
      update counts target (counts target + 1)) counts) counts y =
        counts y + ((xs.toFinset.filter fun x => y ∈ graph x).card : Int) := by
  have inner : ∀ {targets : List ν}, targets.Nodup → ∀ counts : ν → Int, targets.foldl (fun counts target =>
      update counts target (counts target + 1)) counts y = counts y + if y ∈ targets then 1 else 0 := by
    intro targets nodup
    induction targets with
    | nil => simp
    | cons target rest ih =>
      intro counts
      obtain ⟨absent, nodup'⟩ := nodup_cons.1 nodup
      rw [foldl_cons, ih nodup']
      by_cases same : y = target
      · subst same
        rw [update_self, if_neg absent, if_pos mem_cons_self, add_zero]
      · rw [update_of_ne same]
        simp only [mem_cons, same, false_or]
  induction xs generalizing counts with
  | nil => simp
  | cons x rest ih =>
    obtain ⟨absent, nodup'⟩ := nodup_cons.1 nodup
    rw [foldl_cons, ih nodup', inner (distinct x), toFinset_cons, Finset.filter_insert]
    split
    · rw [Finset.card_insert_of_notMem fun inside => absent (mem_toFinset.1 (Finset.mem_filter.1 inside).1)]
      push_cast
      ring
    · rw [add_zero]

theorem countIncoming_eq (within : Within nodes graph) (distinct : nodes.Nodup) (y : ν) :
    countIncoming nodes graph y = ((waiting nodes graph [] y).card : Int) := by
  rw [countIncoming, countIncoming_fold within.distinct y distinct, zero_add]
  simp [waiting]

/-- The state of the order: what is taken or ready is exactly what waits for nothing. -/
structure Taking (nodes : List ν) (graph : ν → List ν) (incoming : ν → Int) (ready ordered : List ν) : Prop where
  distinct : (ordered ++ ready).Nodup
  inside : ∀ x ∈ ordered ++ ready, x ∈ nodes
  counts : ∀ y, incoming y = ((waiting nodes graph ordered y).card : Int)
  due : ∀ y ∈ nodes, y ∈ ordered ++ ready ↔ incoming y = 0
  respects : ordered.Pairwise fun x y => ¬ Edge graph y x
  loopless : ∀ x ∈ ordered, ¬ Edge graph x x

variable {arrange : List ν → List ν} {incoming : ν → Int} {ready ordered order : List ν}

theorem Taking.start (within : Within nodes graph) (distinct : nodes.Nodup)
    (arranged : ∀ xs, (arrange xs).Perm xs) :
    Taking nodes graph (countIncoming nodes graph) (arrange (nodes.filter fun x => countIncoming nodes graph x = 0)) [] := by
  have perm := arranged (nodes.filter fun x => countIncoming nodes graph x = 0)
  refine ⟨?_, fun x member => ?_, countIncoming_eq within distinct, fun y member => ?_, List.Pairwise.nil,
    fun x taken => absurd taken not_mem_nil⟩
  · exact perm.nodup_iff.2 (distinct.filter _)
  · exact (mem_filter.1 (perm.mem_iff.1 member)).1
  · rw [nil_append, perm.mem_iff, mem_filter, decide_eq_true_eq]
    exact ⟨And.right, fun zero => ⟨member, zero⟩⟩

theorem waiting_snoc (ordered : List ν) (node y : ν) :
    waiting nodes graph (ordered ++ [node]) y = (waiting nodes graph ordered y).erase node := by
  ext x
  simp only [waiting, Finset.mem_filter, Finset.mem_erase, mem_append, mem_singleton, not_or]
  tauto

theorem Taking.step (within : Within nodes graph) (arranged : ∀ xs, (arrange xs).Perm xs)
    {node : ν} (state : Taking nodes graph incoming (node :: ready) ordered) :
    Taking nodes graph (((arrange (graph node)).foldl release (incoming, ready)).1)
      (arrange ((arrange (graph node)).foldl release (incoming, ready)).2) (ordered ++ [node]) := by
  have perm := arranged (graph node)
  rw [release_fold (perm.nodup_iff.2 (within.distinct node))]
  dsimp only
  simp only [perm.mem_iff]
  generalize freed : (arrange (graph node)).filter (fun y => incoming y = 1) = fresh
  have mem_fresh : ∀ y, y ∈ fresh ↔ y ∈ graph node ∧ incoming y = 1 := by
    intro y
    rw [← freed, mem_filter, perm.mem_iff, decide_eq_true_eq]
  have member : node ∈ ordered ++ node :: ready := by simp
  have here := state.inside node member
  have untaken : node ∉ ordered := by
    intro taken
    have apart := (nodup_append.1 state.distinct).2.2 node taken node (.head _)
    exact apart rfl
  have waits : ∀ y, y ∈ graph node → node ∈ waiting nodes graph ordered y := fun y edge =>
    Finset.mem_filter.2 ⟨mem_toFinset.2 here, untaken, edge⟩
  have positive : ∀ y, y ∈ graph node → incoming y ≠ 0 := by
    intro y edge zero
    rw [state.counts, Nat.cast_eq_zero, Finset.card_eq_zero] at zero
    have inside := waits y edge
    rw [zero] at inside
    cases inside
  have counts' : ∀ y, incoming y - (if y ∈ graph node then 1 else 0) =
      ((waiting nodes graph (ordered ++ [node]) y).card : Int) := by
    intro y
    rw [waiting_snoc]
    split
    · rename_i edge
      have some_left := Finset.card_pos.2 ⟨node, waits y edge⟩
      rw [Finset.card_erase_of_mem (waits y edge), state.counts, Nat.cast_sub some_left, Nat.cast_one]
    · rename_i unlinked
      rw [Finset.erase_eq_of_notMem fun inside => unlinked (Finset.mem_filter.1 inside).2.2, sub_zero, state.counts]
  have shuffled : ((ordered ++ [node]) ++ arrange (ready ++ fresh)).Perm ((ordered ++ node :: ready) ++ fresh) := by
    refine ((arranged _).append_left _).trans (List.Perm.of_eq ?_)
    simp
  refine ⟨?_, fun x listed => ?_, counts', fun y known => ?_, ?_, fun x taken edge => ?_⟩
  · rw [shuffled.nodup_iff, nodup_append]
    refine ⟨state.distinct, ?_, fun x old y new same => ?_⟩
    · rw [← freed]
      exact (perm.nodup_iff.2 (within.distinct node)).filter _
    · subst same
      have zero := (state.due x (state.inside x old)).1 old
      have one := ((mem_fresh x).1 new).2
      omega
  · rcases mem_append.1 (shuffled.mem_iff.1 listed) with old | new
    · exact state.inside x old
    · exact (within.ends node x ((mem_fresh x).1 new).1).2
  · rw [shuffled.mem_iff, mem_append, mem_fresh, state.due y known]
    split
    · rename_i edge
      have nonzero := positive y edge
      constructor
      · rintro (zero | ⟨-, one⟩)
        · exact absurd zero nonzero
        · omega
      · intro zero
        exact .inr ⟨edge, by omega⟩
    · rename_i unlinked
      constructor
      · rintro (zero | ⟨edge, -⟩)
        · omega
        · exact absurd edge unlinked
      · intro zero
        exact .inl (by omega)
  · refine pairwise_append.2 ⟨state.respects, pairwise_singleton _ _, fun x taken y single => ?_⟩
    rw [mem_singleton.1 single]
    intro edge
    have taken' := mem_append_left (node :: ready) taken
    exact positive x edge ((state.due x (state.inside x taken')).1 taken')
  · rcases mem_append.1 taken with old | new
    · exact state.loopless x old edge
    · rw [mem_singleton.1 new] at edge
      exact positive node edge ((state.due node here).1 member)

theorem Taking.run (within : Within nodes graph) (arranged : ∀ xs, (arrange xs).Perm xs)
    {rounds : Nat} (state : Taking nodes graph incoming ready ordered)
    (enough : nodes.length ≤ rounds + ordered.length) :
    ∃ incoming', Taking nodes graph incoming' [] (takeReady arrange graph rounds incoming ready ordered) := by
  induction rounds generalizing incoming ready ordered with
  | zero =>
    have bound := (subperm_of_subset state.distinct state.inside).length_le
    rw [length_append] at bound
    obtain rfl : ready = [] := length_eq_zero_iff.1 (by omega)
    exact ⟨incoming, state⟩
  | succ rounds ih =>
    cases ready with
    | nil => exact ⟨incoming, state⟩
    | cons node ready =>
      refine ih (state.step within arranged) ?_
      rw [length_append, length_singleton]
      omega

theorem edge_forward (respects : order.Pairwise fun x y => ¬ Edge graph y x)
    (loopless : ∀ x ∈ order, ¬ Edge graph x x) {x y : ν} (left : x ∈ order) (right : y ∈ order) (edge : Edge graph x y) :
    order.idxOf x < order.idxOf y := by
  by_contra backward
  have here := idxOf_lt_length_of_mem left
  have there := idxOf_lt_length_of_mem right
  rcases Nat.lt_or_eq_of_le (not_lt.1 backward) with less | same
  · have against := pairwise_iff_getElem.1 respects _ _ there here less
    rw [getElem_idxOf, getElem_idxOf] at against
    exact against edge
  · have equal : y = x := (idxOf_inj right).1 same
    exact loopless x left (equal ▸ edge)

theorem Taking.acyclic (within : Within nodes graph)
    (state : Taking nodes graph incoming [] ordered) (complete : ∀ x ∈ nodes, x ∈ ordered) : Acyclic graph := by
  have forward : ∀ {x y}, Edge graph x y → ordered.idxOf x < ordered.idxOf y := fun edge =>
    edge_forward state.respects state.loopless (complete _ (within.ends _ _ edge).1) (complete _ (within.ends _ _ edge).2) edge
  intro x cycle
  have rises : ∀ {y}, Relation.TransGen (Edge graph) x y → ordered.idxOf x < ordered.idxOf y := by
    intro y path
    induction path with
    | single edge => exact forward edge
    | tail _ edge ih => exact ih.trans (forward edge)
  exact lt_irrefl _ (rises cycle)

theorem Taking.complete (acyclic : Acyclic graph)
    (state : Taking nodes graph incoming [] ordered) : ∀ x ∈ nodes, x ∈ ordered := by
  have irrefl : IsStrictOrder ν (Relation.TransGen (Edge graph)) :=
    { irrefl := acyclic, trans := fun _ _ _ => Relation.TransGen.trans }
  have founded := (nodes.toFinset.finite_toSet).wellFoundedOn (r := Relation.TransGen (Edge graph))
  by_contra incomplete
  obtain ⟨first, member, missing⟩ := not_forall₂.1 incomplete
  obtain ⟨⟨least, inside⟩, untaken, minimal⟩ := founded.has_min { x | x.1 ∉ ordered }
    ⟨⟨first, mem_toFinset.2 member⟩, missing⟩
  have waits := mt (state.due least (mem_toFinset.1 inside)).2 (by rwa [append_nil])
  rw [state.counts, Nat.cast_eq_zero, Finset.card_eq_zero] at waits
  obtain ⟨earlier, listed⟩ := Finset.nonempty_iff_ne_empty.2 waits
  obtain ⟨known, untaken', edge⟩ := Finset.mem_filter.1 listed
  exact minimal ⟨earlier, known⟩ untaken' (.single edge)

theorem takeReady_spec (within : Within nodes graph) (distinct : nodes.Nodup)
    (arranged : ∀ xs, (arrange xs).Perm xs)
    (taken : takeReady arrange graph nodes.length (countIncoming nodes graph)
      (arrange (nodes.filter fun x => countIncoming nodes graph x = 0)) [] = order) :
    (∀ x ∈ order, ∀ y ∈ order, Edge graph x y → order.idxOf x < order.idxOf y) ∧
      (order.length = nodes.length → order.Perm nodes) ∧ (order.length = nodes.length ↔ Acyclic graph) := by
  obtain ⟨incoming, state⟩ := (Taking.start within distinct arranged).run within arranged (Nat.le_add_right _ _)
  rw [taken] at state
  have nodup : order.Nodup := by
    have once := state.distinct
    rwa [append_nil] at once
  have inside : ∀ x ∈ order, x ∈ nodes := fun x member => state.inside x (mem_append_left _ member)
  have all : order.length = nodes.length → order.Perm nodes := fun length =>
    (subperm_of_subset nodup inside).perm_of_length_le length.ge
  refine ⟨fun x left y right edge => edge_forward state.respects state.loopless left right edge, all, fun length => ?_,
    fun acyclic => ?_⟩
  · exact state.acyclic within fun x member => (all length).mem_iff.2 member
  · exact (subperm_of_subset nodup inside).length_le.antisymm
      (subperm_of_subset distinct (state.complete acyclic)).length_le

end

end Lib.TopologicalOrder

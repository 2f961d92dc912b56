import Mathlib

/-!
Flows in finite networks with integer capacities, as skew-symmetric net amounts.
-/

namespace Lib.Flows
open Finset

variable {V : Type*}

def outflow (nodes : Finset V) (net : V → V → ℤ) (node : V) : ℤ := ∑ other ∈ nodes, net node other

structure IsFlow (nodes : Finset V) (source sink : V) (capacity net : V → V → ℤ) : Prop where
  skew : ∀ u v, net u v = -net v u
  bounded : ∀ u v, net u v ≤ capacity u v
  conserved : ∀ v ∈ nodes, v ≠ source → v ≠ sink → outflow nodes net v = 0

theorem sum_skew {cut : Finset V} {net : V → V → ℤ} (skew : ∀ u v, net u v = -net v u) : ∑ u ∈ cut, ∑ v ∈ cut, net u v = 0 := by
  have mirrored : ∑ u ∈ cut, ∑ v ∈ cut, net u v = -∑ u ∈ cut, ∑ v ∈ cut, net u v := by
    calc ∑ u ∈ cut, ∑ v ∈ cut, net u v = ∑ u ∈ cut, ∑ v ∈ cut, net v u := sum_comm
      _ = ∑ u ∈ cut, ∑ v ∈ cut, -net u v := sum_congr rfl fun u _ => sum_congr rfl fun v _ => skew v u
      _ = -∑ u ∈ cut, ∑ v ∈ cut, net u v := by simp only [sum_neg_distrib]
  omega

variable [DecidableEq V]

section
variable {nodes cut : Finset V} {source sink : V} {capacity net other : V → V → ℤ}

theorem IsFlow.outflow_cut (flow : IsFlow nodes source sink capacity net) (within : cut ⊆ nodes)
    (inside : source ∈ cut) (outside : sink ∉ cut) :
    outflow nodes net source = ∑ u ∈ cut, ∑ v ∈ nodes \ cut, net u v := by
  have only : ∑ u ∈ cut, outflow nodes net u = outflow nodes net source := by
    refine sum_eq_single_of_mem source inside ?_
    intro u member different
    exact flow.conserved u (within member) different fun same => outside (same ▸ member)
  have split : ∀ u, outflow nodes net u = ∑ v ∈ nodes \ cut, net u v + ∑ v ∈ cut, net u v :=
    fun u => (sum_sdiff within).symm
  rw [← only, sum_congr rfl fun u _ => split u, sum_add_distrib, sum_skew flow.skew, add_zero]

theorem IsFlow.maximal (flow : IsFlow nodes source sink capacity net)
    (rival : IsFlow nodes source sink capacity other) (within : cut ⊆ nodes) (inside : source ∈ cut)
    (outside : sink ∉ cut) (full : ∀ u ∈ cut, ∀ v ∈ nodes \ cut, net u v = capacity u v) :
    outflow nodes other source ≤ outflow nodes net source := by
  rw [rival.outflow_cut within inside outside, flow.outflow_cut within inside outside]
  refine sum_le_sum fun u left => sum_le_sum fun v right => ?_
  rw [full u left v right]
  exact rival.bounded u v

theorem IsFlow.arrives (flow : IsFlow nodes source sink capacity net) (start : source ∈ nodes) (stop : sink ∈ nodes)
    (different : source ≠ sink) : outflow nodes net sink = -outflow nodes net source := by
  have cut := flow.outflow_cut (erase_subset sink nodes) (mem_erase.2 ⟨different, start⟩) (notMem_erase sink nodes)
  rw [sdiff_erase_self stop] at cut
  simp only [sum_singleton] at cut
  have own : net sink sink = 0 := by
    have skew := flow.skew sink sink
    omega
  rw [cut, outflow, ← sum_erase_add _ _ stop, own, add_zero, ← sum_neg_distrib]
  exact sum_congr rfl fun v _ => flow.skew sink v

end

inductive Walk (source : V) : List (V × V) → V → Prop where
  | nil : Walk source [] source
  | step {path : List (V × V)} {u : V} (v : V) : Walk source path u → Walk source ((u, v) :: path) v

def carried (path : List (V × V)) (u v : V) : ℤ := path.count (u, v) - path.count (v, u)

theorem carried_cons (a b : V) (path : List (V × V)) (u v : V) :
    carried ((a, b) :: path) u v =
      carried path u v + (if a = u ∧ b = v then 1 else 0) - if a = v ∧ b = u then 1 else 0 := by
  simp only [carried, List.count_cons, beq_iff_eq, Prod.mk.injEq]
  push_cast
  ring

theorem sum_edge (nodes : Finset V) (a b node : V) (inside : b ∈ nodes) :
    ∑ v ∈ nodes, (if a = node ∧ b = v then (1 : ℤ) else 0) = if a = node then 1 else 0 := by
  by_cases same : a = node
  · simp [same, inside]
  · simp [same]

variable {path : List (V × V)}

theorem Walk.outflow {nodes : Finset V} {source last : V} (walk : Walk source path last)
    (inside : ∀ edge ∈ path, edge.1 ∈ nodes ∧ edge.2 ∈ nodes) (node : V) :
    outflow nodes (carried path) node = (if source = node then 1 else 0) - if last = node then 1 else 0 := by
  induction walk with
  | nil => simp [Flows.outflow, carried]
  | @step path u v walk ih =>
    have tail := ih fun edge member => inside edge (.tail _ member)
    obtain ⟨left, right⟩ := inside (u, v) (.head _)
    unfold Flows.outflow at tail ⊢
    simp only [carried_cons, sum_sub_distrib, sum_add_distrib]
    rw [tail, sum_edge nodes u v node right]
    simp only [and_comm (a := u = _)]
    rw [sum_edge nodes v u node left]
    ring

theorem carried_le_one (distinct : path.Nodup) (u v : V) : carried path u v ≤ 1 := by
  have once := List.nodup_iff_count_le_one.1 distinct (u, v)
  unfold carried
  omega

theorem carried_nonpos {u v : V} (absent : (u, v) ∉ path) : carried path u v ≤ 0 := by
  unfold carried
  rw [List.count_eq_zero_of_not_mem absent]
  omega

section
variable {nodes : Finset V} {source sink : V} {capacity net : V → V → ℤ} {path : List (V × V)} {increment : ℤ}

def augmented (net : V → V → ℤ) (increment : ℤ) (path : List (V × V)) (u v : V) : ℤ :=
  net u v + increment * carried path u v

theorem outflow_augmented (node : V) :
    outflow nodes (augmented net increment path) node =
      outflow nodes net node + increment * outflow nodes (carried path) node := by
  simp only [outflow, augmented, sum_add_distrib, mul_sum]

theorem IsFlow.augment (flow : IsFlow nodes source sink capacity net) (walk : Walk source path sink)
    (distinct : path.Nodup) (inside : ∀ edge ∈ path, edge.1 ∈ nodes ∧ edge.2 ∈ nodes) (positive : 0 ≤ increment)
    (room : ∀ edge ∈ path, increment ≤ capacity edge.1 edge.2 - net edge.1 edge.2) :
    IsFlow nodes source sink capacity (augmented net increment path) where
  skew := by
    intro u v
    unfold augmented carried
    rw [flow.skew u v]
    ring
  bounded := by
    intro u v
    unfold augmented
    by_cases member : (u, v) ∈ path
    · have most := mul_le_mul_of_nonneg_left (carried_le_one distinct u v) positive
      have fits := room (u, v) member
      dsimp only at fits
      linarith
    · have least := mul_nonpos_of_nonneg_of_nonpos positive (carried_nonpos member)
      linarith [flow.bounded u v]
  conserved := by
    intro v member start stop
    rw [outflow_augmented, flow.conserved v member start stop, walk.outflow inside, if_neg (Ne.symm start),
      if_neg (Ne.symm stop)]
    ring

theorem outflow_augment (walk : Walk source path sink) (inside : ∀ edge ∈ path, edge.1 ∈ nodes ∧ edge.2 ∈ nodes)
    (different : source ≠ sink) :
    outflow nodes (augmented net increment path) source = outflow nodes net source + increment := by
  rw [outflow_augmented, walk.outflow inside, if_pos rfl, if_neg different.symm]
  ring

end

end Lib.Flows

import Kassiber.Lib.Ranking
import Kassiber.Transfers.FlowNetwork

/-!
The allocation of supplies over reviewed edges.
-/

namespace Kassiber.Transfers
open Lib.Dict Lib.Flows Lib.Ranking Lib.Sums Int
open List hiding mem_filter
open Finset (mem_filter sum_nonneg sum_congr sum_const_zero sum_eq_zero)

def knownEdges (supplies demands : Amounts) (edges : List (String × String)) : Finset (String × String) :=
  edges.toFinset.filter fun edge => edge.1 ∈ supplies.ids ∧ edge.2 ∈ demands.ids

structure Meets (supplies demands : Amounts) (known : Finset (String × String)) (assigned : String × String → ℕ) :
    Prop where
  sent : ∀ entry ∈ supplies.entries, ∑ edge ∈ known with edge.1 = entry.1, (assigned edge : ℤ) = entry.2
  received : ∀ entry ∈ demands.entries, ∑ edge ∈ known with edge.2 = entry.1, (assigned edge : ℤ) = entry.2

section
variable {supplies demands : Amounts} {edges : List (String × String)} {known : Finset (String × String)}

theorem mem_reviewed {edge : String × String} :
    edge ∈ reviewedEdges supplies.entries demands.entries edges ↔ edge ∈ knownEdges supplies demands edges := by
  rw [reviewedEdges, knownEdges, List.mem_filter, mem_eraseDups, mem_filter, mem_toFinset]
  simp only [Bool.and_eq_true, contains_iff_mem, Amounts.ids, mem_toFinset]

theorem nodup_reviewed : (reviewedEdges supplies.entries demands.entries edges).Nodup :=
  List.Nodup.filter _ (eraseDups_nodup edges)

theorem toFinset_reviewed :
    (reviewedEdges supplies.entries demands.entries edges).toFinset = knownEdges supplies demands edges := by
  ext edge
  rw [mem_toFinset, mem_reviewed]

def Between (supplies demands : Amounts) (known : Finset (String × String)) : Prop :=
  ∀ edge ∈ known, edge.1 ∈ supplies.ids ∧ edge.2 ∈ demands.ids

theorem between_known : Between supplies demands (knownEdges supplies demands edges) :=
  fun _ member => (mem_filter.1 member).2

theorem sum_row (between : Between supplies demands known) (f : String × String → ℤ) (outId : String) :
    ∑ edge ∈ known with edge.1 = outId, f edge =
      ∑ inId ∈ demands.ids, if (outId, inId) ∈ known then f (outId, inId) else 0 := by
  rw [← Finset.sum_filter]
  refine Finset.sum_nbij' (fun edge => edge.2) (fun inId => (outId, inId)) ?_ ?_ ?_ ?_ ?_
  · rintro ⟨left, right⟩ member
    obtain ⟨inside, rfl⟩ := mem_filter.1 member
    exact mem_filter.2 ⟨(between _ inside).2, inside⟩
  · intro inId member
    exact mem_filter.2 ⟨(mem_filter.1 member).2, rfl⟩
  · rintro ⟨left, right⟩ member
    rw [← (mem_filter.1 member).2]
  · exact fun _ _ => rfl
  · rintro ⟨left, right⟩ member
    rw [← (mem_filter.1 member).2]

theorem sum_column (between : Between supplies demands known) (f : String × String → ℤ) (inId : String) :
    ∑ edge ∈ known with edge.2 = inId, f edge =
      ∑ outId ∈ supplies.ids, if (outId, inId) ∈ known then f (outId, inId) else 0 := by
  rw [← Finset.sum_filter]
  refine Finset.sum_nbij' (fun edge => edge.1) (fun outId => (outId, inId)) ?_ ?_ ?_ ?_ ?_
  · rintro ⟨left, right⟩ member
    obtain ⟨inside, rfl⟩ := mem_filter.1 member
    exact mem_filter.2 ⟨(between _ inside).1, inside⟩
  · intro outId member
    exact mem_filter.2 ⟨(mem_filter.1 member).2, rfl⟩
  · rintro ⟨left, right⟩ member
    rw [← (mem_filter.1 member).2]
  · exact fun _ _ => rfl
  · rintro ⟨left, right⟩ member
    rw [← (mem_filter.1 member).2]

/-- The amounts between the nodes of the component when an assignment is carried out. -/
def assignedFlow (supplies demands : Amounts) (known : Finset (String × String)) (f : String × String → ℤ) :
    Node → Node → ℤ
  | .source, .out id => supplies.of id
  | .out id, .source => -supplies.of id
  | .into id, .sink => demands.of id
  | .sink, .into id => -demands.of id
  | .out outId, .into inId => if (outId, inId) ∈ known then f (outId, inId) else 0
  | .into inId, .out outId => -if (outId, inId) ∈ known then f (outId, inId) else 0
  | _, _ => 0

variable {assigned : String × String → ℕ}

theorem Meets.sent_of (meets : Meets supplies demands known assigned) {id : String} (member : id ∈ supplies.ids) :
    ∑ edge ∈ known with edge.1 = id, (assigned edge : ℤ) = supplies.of id :=
  (Amounts.forall_ids (p := fun id amount => ∑ edge ∈ known with edge.1 = id, (assigned edge : ℤ) = amount)).1
    meets.sent id member

theorem Meets.received_of (meets : Meets supplies demands known assigned) {id : String} (member : id ∈ demands.ids) :
    ∑ edge ∈ known with edge.2 = id, (assigned edge : ℤ) = demands.of id :=
  (Amounts.forall_ids (p := fun id amount => ∑ edge ∈ known with edge.2 = id, (assigned edge : ℤ) = amount)).1
    meets.received id member

theorem Meets.of_ids
    (sent : ∀ id ∈ supplies.ids, ∑ edge ∈ known with edge.1 = id, (assigned edge : ℤ) = supplies.of id)
    (received : ∀ id ∈ demands.ids, ∑ edge ∈ known with edge.2 = id, (assigned edge : ℤ) = demands.of id) :
    Meets supplies demands known assigned where
  sent := fun entry member => (sent entry.1 (Amounts.mem_ids.2 ⟨_, member⟩)).trans (Amounts.of_entry member)
  received := fun entry member => (received entry.1 (Amounts.mem_ids.2 ⟨_, member⟩)).trans (Amounts.of_entry member)

theorem Meets.supplies_nonneg (meets : Meets supplies demands known assigned) :
    ∀ entry ∈ supplies.entries, 0 ≤ entry.2 := fun entry member =>
  meets.sent entry member ▸ sum_nonneg fun edge _ => natCast_nonneg (assigned edge)

theorem Meets.demands_nonneg (meets : Meets supplies demands known assigned) :
    ∀ entry ∈ demands.entries, 0 ≤ entry.2 := fun entry member =>
  meets.received entry member ▸ sum_nonneg fun edge _ => natCast_nonneg (assigned edge)

theorem Meets.le_total (meets : Meets supplies demands known assigned) (between : Between supplies demands known)
    {edge : String × String} (member : edge ∈ known) : (assigned edge : ℤ) ≤ supplies.total := by
  have row := meets.sent_of (between edge member).1
  have own : (assigned edge : ℤ) ≤ supplies.of edge.1 := by
    rw [← row]
    exact Finset.single_le_sum (f := fun edge => (assigned edge : ℤ)) (fun other _ => natCast_nonneg _)
      (mem_filter.2 ⟨member, rfl⟩)
  refine own.trans ?_
  rw [← Amounts.sum_of]
  exact Finset.single_le_sum (f := supplies.of) (fun id _ => Amounts.of_nonneg meets.supplies_nonneg id)
    (between edge member).1

theorem Meets.totals (meets : Meets supplies demands known assigned) (between : Between supplies demands known) :
    supplies.total = demands.total := by
  rw [← Amounts.sum_of, ← Amounts.sum_of, ← sum_congr rfl fun id member => meets.sent_of member,
    ← sum_congr rfl fun id member => meets.received_of member]
  simp only [sum_row between, sum_column between]
  exact Finset.sum_comm

theorem Meets.isFlow (meets : Meets supplies demands known assigned) (between : Between supplies demands known)
    {reviewed : List (String × String)} (listed : ∀ edge, edge ∈ reviewed ↔ edge ∈ known) :
    IsFlow (nodesOf supplies demands) .source .sink (limit supplies demands reviewed supplies.total)
      (assignedFlow supplies demands known fun edge => assigned edge) where
  skew := by
    intro u v
    cases u <;> cases v <;> simp [assignedFlow]
  bounded := by
    have fromSource := Amounts.of_nonneg meets.supplies_nonneg
    have intoSink := Amounts.of_nonneg meets.demands_nonneg
    intro u v
    cases u <;> cases v <;> simp only [assignedFlow, limit, le_refl, Left.neg_nonpos_iff, fromSource, intoSink]
    · rename_i outId inId
      simp only [listed]
      split
      · rename_i member
        exact meets.le_total between member
      · exact le_refl 0
    · split
      · exact natCast_nonneg _
      · exact le_refl 0
  conserved := by
    intro node member notSource notSink
    rw [outflow, sum_nodes]
    cases node with
    | source => exact absurd rfl notSource
    | sink => exact absurd rfl notSink
    | out id =>
      have inside : id ∈ supplies.ids := by simpa [nodesOf] using member
      have row := meets.sent_of inside
      rw [sum_row between fun edge => (assigned edge : ℤ)] at row
      simp only [assignedFlow, sum_const_zero, row]
      ring
    | into id =>
      have inside : id ∈ demands.ids := by simpa [nodesOf] using member
      have column := meets.received_of inside
      rw [sum_column between fun edge => (assigned edge : ℤ)] at column
      simp only [assignedFlow, sum_const_zero, Finset.sum_neg_distrib, column]
      ring

theorem outflow_assigned (f : String × String → ℤ) :
    outflow (nodesOf supplies demands) (assignedFlow supplies demands known f) .source = supplies.total := by
  rw [outflow, sum_nodes]
  simp only [assignedFlow, sum_const_zero, Amounts.sum_of]
  ring

end

section
variable {supplies demands : Amounts} {reviewed : List (String × String)} {f : Node → Node → ℤ}

theorem flow_zero {nodes : Finset Node} {start stop : Node} {capacity f : Node → Node → ℤ}
    (flow : IsFlow nodes start stop capacity f) {u v : Node} (forward : capacity u v = 0)
    (backward : capacity v u = 0) : f u v = 0 := by
  have up := flow.bounded u v
  have down := flow.bounded v u
  have skew := flow.skew u v
  omega

variable (flow : IsFlow (nodesOf supplies demands) .source .sink (limit supplies demands reviewed supplies.total) f)
  (value : outflow (nodesOf supplies demands) f .source = supplies.total)
include flow value

variable {id : String}

theorem supply_saturated (member : id ∈ supplies.ids) : f .source (.out id) = supplies.of id := by
  have whole : ∑ id ∈ supplies.ids, f .source (.out id) = ∑ id ∈ supplies.ids, supplies.of id := by
    rw [outflow, sum_nodes, flow_zero flow rfl rfl, flow_zero (v := .sink) flow rfl rfl] at value
    rw [Amounts.sum_of, ← value, sum_eq_zero fun id _ => flow_zero (u := .source) (v := .into id) flow rfl rfl]
    ring
  exact (Finset.sum_eq_sum_iff_of_le fun id _ => flow.bounded .source (.out id)).1 whole id member

theorem demand_saturated (totals : supplies.total = demands.total) (member : id ∈ demands.ids) :
    f (.into id) .sink = demands.of id := by
  have arrives := flow.arrives (by simp [nodesOf]) (by simp [nodesOf]) (by decide)
  have whole : ∑ id ∈ demands.ids, f (.into id) .sink = ∑ id ∈ demands.ids, demands.of id := by
    rw [outflow, sum_nodes, flow_zero (v := .source) flow rfl rfl, flow_zero (v := .sink) flow rfl rfl,
      sum_eq_zero fun id _ => flow_zero (u := .sink) (v := .out id) flow rfl rfl, value,
      sum_congr rfl fun id _ => flow.skew .sink (.into id), Finset.sum_neg_distrib] at arrives
    rw [Amounts.sum_of, ← totals]
    linarith
  exact (Finset.sum_eq_sum_iff_of_le fun id _ => flow.bounded (.into id) .sink).1 whole id member

omit value in
theorem edge_nonneg (outId inId : String) : 0 ≤ f (.out outId) (.into inId) := by
  have back := flow.bounded (.into inId) (.out outId)
  rw [flow.skew] at back
  have zero : limit supplies demands reviewed supplies.total (.into inId) (.out outId) = 0 := rfl
  omega

omit value in
theorem edge_unknown {outId inId : String} (absent : (outId, inId) ∉ reviewed) : f (.out outId) (.into inId) = 0 :=
  flow_zero flow (if_neg absent) rfl

theorem row_saturated (member : id ∈ supplies.ids) :
    ∑ inId ∈ demands.ids, f (.out id) (.into inId) = supplies.of id := by
  have conserved := flow.conserved (.out id) (by simp [nodesOf, member]) (by simp) (by simp)
  rw [outflow, sum_nodes, flow.skew _ .source, supply_saturated flow value member,
    flow_zero (v := .sink) flow rfl rfl,
    sum_eq_zero fun other _ => flow_zero (u := .out id) (v := .out other) flow rfl rfl] at conserved
  linarith

theorem column_saturated (totals : supplies.total = demands.total) (member : id ∈ demands.ids) :
    ∑ outId ∈ supplies.ids, f (.out outId) (.into id) = demands.of id := by
  have conserved := flow.conserved (.into id) (by simp [nodesOf, member]) (by simp) (by simp)
  rw [outflow, sum_nodes, demand_saturated flow value totals member, flow_zero (v := .source) flow rfl rfl,
    sum_eq_zero fun other _ => flow_zero (u := .into id) (v := .into other) flow rfl rfl,
    sum_congr rfl fun other _ => flow.skew (.into id) (.out other), Finset.sum_neg_distrib] at conserved
  linarith

end

/-- Flows over distinct known edges that use up every supply and fill every demand. -/
structure Delivers (supplies demands : Amounts) (known : Finset (String × String))
    (flows : List (String × String × Int)) : Prop where
  once : (flows.map fun flow => (flow.1, flow.2.1)).Nodup
  listed : ∀ flow ∈ flows, (flow.1, flow.2.1) ∈ known
  positive : ∀ flow ∈ flows, 0 < flow.2.2
  sent : ∀ entry ∈ supplies.entries,
    ((flows.filter fun flow => flow.1 = entry.1).map fun flow => flow.2.2).sum = entry.2
  received : ∀ entry ∈ demands.entries,
    ((flows.filter fun flow => flow.2.1 = entry.1).map fun flow => flow.2.2).sum = entry.2

section
variable {supplies demands : Amounts} {edges : List (String × String)}

def flowsOf (reviewed : List (String × String)) (f : String × String → Int) : List (String × String × Int) :=
  reviewed.filterMap fun edge => if 0 < f edge then some (edge.1, edge.2, f edge) else none

variable {reviewed : List (String × String)} {f : String × String → Int}

theorem mem_flowsOf {flow : String × String × Int} :
    flow ∈ flowsOf reviewed f ↔ (flow.1, flow.2.1) ∈ reviewed ∧ 0 < f (flow.1, flow.2.1) ∧
      flow.2.2 = f (flow.1, flow.2.1) := by
  rw [flowsOf, mem_filterMap]
  constructor
  · rintro ⟨edge, member, found⟩
    split at found
    · rename_i positive
      cases found
      exact ⟨member, positive, rfl⟩
    · cases found
  · rintro ⟨member, positive, amount⟩
    refine ⟨_, member, ?_⟩
    rw [if_pos positive, ← amount]

theorem nodup_flowsOf (distinct : reviewed.Nodup) (f : String × String → Int) :
    ((flowsOf reviewed f).map fun flow => (flow.1, flow.2.1)).Nodup := by
  refine distinct.sublist ?_
  induction reviewed with
  | nil => exact List.Sublist.refl _
  | cons edge rest ih =>
    have tail := ih (nodup_cons.1 distinct).2
    unfold flowsOf at tail ⊢
    rw [filterMap_cons]
    by_cases positive : 0 < f edge
    · rw [if_pos positive]
      exact tail.cons_cons edge
    · rw [if_neg positive]
      exact tail.cons edge

theorem sum_flowsOf (distinct : reviewed.Nodup)
    (nonneg : ∀ edge, 0 ≤ f edge) (keep : String × String → Prop) [DecidablePred keep] :
    (((flowsOf reviewed f).filter fun flow => keep (flow.1, flow.2.1)).map fun flow => flow.2.2).sum =
      ∑ edge ∈ reviewed.toFinset with keep edge, f edge := by
  rw [sum_filter, flowsOf, sum_filterMap, Finset.sum_filter, sum_toFinset _ distinct]
  refine congrArg sum (map_congr_left fun edge _ => ?_)
  by_cases positive : 0 < f edge
  · rw [if_pos positive]
    rfl
  · rw [if_neg positive, le_antisymm (not_lt.1 positive) (nonneg edge), ite_self]
    rfl

theorem delivers_flowsOf (nonneg : ∀ edge, 0 ≤ f edge)
    (meets : Meets supplies demands (knownEdges supplies demands edges) fun edge => (f edge).toNat) :
    Delivers supplies demands (knownEdges supplies demands edges)
      (flowsOf (reviewedEdges supplies.entries demands.entries edges) f) where
  once := nodup_flowsOf nodup_reviewed f
  listed := fun flow member => mem_reviewed.1 (mem_flowsOf.1 member).1
  positive := by
    intro flow member
    obtain ⟨-, positive, amount⟩ := mem_flowsOf.1 member
    rw [amount]
    exact positive
  sent := by
    intro entry member
    have total := meets.sent entry member
    simp only [toNat_of_nonneg (nonneg _)] at total
    rw [sum_flowsOf nodup_reviewed nonneg fun edge => edge.1 = entry.1, toFinset_reviewed, total]
  received := by
    intro entry member
    have total := meets.received entry member
    simp only [toNat_of_nonneg (nonneg _)] at total
    rw [sum_flowsOf nodup_reviewed nonneg fun edge => edge.2 = entry.1, toFinset_reviewed, total]

theorem start_flow (reviewed : List (String × String)) (total : Int) :
    (network supplies.entries demands.entries reviewed total).flow = fun _ _ => 0 := by
  funext u v
  obtain ⟨capacity, residual⟩ := addLinks_tables (links supplies demands reviewed total) {} u v
  rw [Network.flow, network_eq, capacity, residual]
  exact sub_self _

theorem start_capacity {total : Int} (distinct : reviewed.Nodup)
    (nonneg : 0 ≤ total) (suppliesNonneg : ∀ entry ∈ supplies.entries, 0 ≤ entry.2)
    (demandsNonneg : ∀ entry ∈ demands.entries, 0 ≤ entry.2) :
    (network supplies.entries demands.entries reviewed total).capacity = limit supplies demands reviewed total := by
  funext u v
  rw [network_eq, (addLinks_tables (links supplies demands reviewed total) {} u v).1,
    limitOf_links distinct nonneg suppliesNonneg demandsNonneg]
  exact zero_add _

theorem links_within {total : Int} (between : ∀ edge ∈ reviewed, edge.1 ∈ supplies.ids ∧ edge.2 ∈ demands.ids) :
    ∀ link ∈ links supplies demands reviewed total,
      link.1 ∈ nodesOf supplies demands ∧ link.2.1 ∈ nodesOf supplies demands := by
  intro link member
  rw [links, mem_append, mem_append] at member
  rcases member with (fromSource | intoSink) | middle
  · obtain ⟨entry, inside, rfl⟩ := mem_map.1 fromSource
    have known : entry.1 ∈ supplies.ids := Amounts.mem_ids.2 ⟨entry.2, inside⟩
    simp [nodesOf, known]
  · obtain ⟨entry, inside, rfl⟩ := mem_map.1 intoSink
    have known : entry.1 ∈ demands.ids := Amounts.mem_ids.2 ⟨entry.2, inside⟩
    simp [nodesOf, known]
  · obtain ⟨edge, inside, rfl⟩ := mem_map.1 middle
    obtain ⟨left, right⟩ := between edge inside
    simp [nodesOf, left, right]

theorem limitOf_unlinked {list : List (Node × Node × Int)} {u v : Node}
    (absent : ∀ link ∈ list, ¬(link.1 = u ∧ link.2.1 = v)) : limitOf list u v = 0 := by
  have none : list.filter (fun link => link.1 = u ∧ link.2.1 = v) = [] :=
    filter_eq_nil_iff.2 fun link member same => absent link member (of_decide_eq_true same)
  rw [limitOf, none]
  rfl

theorem carrying_start {total : Int} (distinct : reviewed.Nodup)
    (nonneg : 0 ≤ total) (suppliesNonneg : ∀ entry ∈ supplies.entries, 0 ≤ entry.2)
    (demandsNonneg : ∀ entry ∈ demands.entries, 0 ≤ entry.2)
    (between : ∀ edge ∈ reviewed, edge.1 ∈ supplies.ids ∧ edge.2 ∈ demands.ids) :
    Carrying (nodesOf supplies demands) (network supplies.entries demands.entries reviewed total) 0 where
  within := by
    refine ⟨by simp [nodesOf], fun u v adjacent => ?_⟩
    rw [network_eq, mem_adjacency] at adjacent
    rcases adjacent with none | ⟨link, member, ⟨-, rfl⟩ | ⟨rfl, -⟩⟩
    · cases none
    · exact (links_within between link member).2
    · exact (links_within between link member).1
  sink := by simp [nodesOf]
  linked := by
    intro u v apart
    rw [network_eq, mem_adjacency, not_or] at apart
    have tables := addLinks_tables (links supplies demands reviewed total) {}
    rw [network_eq, (tables u v).1, (tables v u).1, limitOf_unlinked fun link member same =>
      apart.2 ⟨link, member, .inl same⟩, limitOf_unlinked fun link member same => apart.2 ⟨link, member, .inr same⟩]
    exact ⟨rfl, rfl⟩
  isFlow := by
    rw [start_flow, start_capacity distinct nonneg suppliesNonneg demandsNonneg]
    refine ⟨fun _ _ => rfl, fun u v => ?_, fun _ _ _ _ => sum_const_zero⟩
    have fromSource := Amounts.of_nonneg suppliesNonneg
    have intoSink := Amounts.of_nonneg demandsNonneg
    cases u <;> cases v <;> simp only [limit, le_refl, fromSource, intoSink]
    split
    · exact nonneg
    · exact le_refl 0
  value := by
    rw [start_flow]
    exact sum_const_zero

def component (supplies demands : Amounts) (edges : List (String × String)) : Network × Int :=
  augment (supplies.entries.length + demands.entries.length + 2) supplies.total supplies.total.toNat
    (network supplies.entries demands.entries (reviewedEdges supplies.entries demands.entries edges) supplies.total) 0

theorem component_spec (suppliesNonneg : ∀ entry ∈ supplies.entries, 0 ≤ entry.2)
    (demandsNonneg : ∀ entry ∈ demands.entries, 0 ≤ entry.2) :
    Augmented (nodesOf supplies demands)
        (network supplies.entries demands.entries (reviewedEdges supplies.entries demands.entries edges) supplies.total)
        supplies.total (component supplies demands edges) ∧
      AugmentRun supplies.total
        (network supplies.entries demands.entries (reviewedEdges supplies.entries demands.entries edges) supplies.total)
        0 (component supplies demands edges) := by
  have nonneg : 0 ≤ supplies.total := by
    rw [← Amounts.sum_of]
    exact sum_nonneg fun id _ => Amounts.of_nonneg suppliesNonneg id
  have between : ∀ edge ∈ reviewedEdges supplies.entries demands.entries edges,
      edge.1 ∈ supplies.ids ∧ edge.2 ∈ demands.ids := fun edge member => between_known edge (mem_reviewed.1 member)
  exact augment_spec card_nodes _ _ 0 (carrying_start nodup_reviewed nonneg suppliesNonneg demandsNonneg between)
    nonneg (by omega)

theorem meets_of_full {f : Node → Node → ℤ}
    (listed : ∀ edge, edge ∈ reviewed ↔ edge ∈ knownEdges supplies demands edges)
    (flow : IsFlow (nodesOf supplies demands) .source .sink (limit supplies demands reviewed supplies.total) f)
    (value : outflow (nodesOf supplies demands) f .source = supplies.total) (totals : supplies.total = demands.total) :
    Meets supplies demands (knownEdges supplies demands edges)
      fun edge => (f (.out edge.1) (.into edge.2)).toNat := by
  have unknown : ∀ outId inId, (if (outId, inId) ∈ knownEdges supplies demands edges then
      f (.out outId) (.into inId) else 0) = f (.out outId) (.into inId) := by
    intro outId inId
    split
    · rfl
    · rename_i absent
      exact (edge_unknown flow fun member => absent ((listed _).1 member)).symm
  have column : ∀ id ∈ demands.ids, ∑ edge ∈ knownEdges supplies demands edges with edge.2 = id,
      ((f (.out edge.1) (.into edge.2)).toNat : ℤ) = demands.of id := by
    intro id member
    simp only [toNat_of_nonneg (edge_nonneg flow _ _)]
    rw [sum_column between_known fun edge => f (.out edge.1) (.into edge.2)]
    simp only [unknown]
    exact column_saturated flow value totals member
  have row : ∀ id ∈ supplies.ids, ∑ edge ∈ knownEdges supplies demands edges with edge.1 = id,
      ((f (.out edge.1) (.into edge.2)).toNat : ℤ) = supplies.of id := by
    intro id member
    simp only [toNat_of_nonneg (edge_nonneg flow _ _)]
    rw [sum_row between_known fun edge => f (.out edge.1) (.into edge.2)]
    simp only [unknown]
    exact row_saturated flow value member
  exact Meets.of_ids row column

theorem any_negative {amounts : Amounts} :
    (amounts.entries.any fun entry => entry.2 < 0) = false ↔ ∀ entry ∈ amounts.entries, 0 ≤ entry.2 := by
  simp only [any_eq_false, decide_eq_true_eq, not_lt]

theorem all_zero {amounts : Amounts} (nonneg : ∀ entry ∈ amounts.entries, 0 ≤ entry.2) (zero : amounts.total = 0) :
    ∀ entry ∈ amounts.entries, entry.2 = 0 := by
  rw [← Amounts.sum_of] at zero
  have each := (Finset.sum_eq_zero_iff_of_nonneg fun id _ => Amounts.of_nonneg nonneg id).1 zero
  exact (Amounts.forall_ids (p := fun _ amount => amount = 0)).2 each

theorem allocate_eq (suppliesNonneg : ∀ entry ∈ supplies.entries, 0 ≤ entry.2)
    (demandsNonneg : ∀ entry ∈ demands.entries, 0 ≤ entry.2) (totals : supplies.total = demands.total) :
    allocateBipartiteFlowMsat supplies.entries demands.entries edges =
      if supplies.total = 0 then some []
      else if (component supplies demands edges).2 ≠ supplies.total then none
      else some (flowsOf (reviewedEdges supplies.entries demands.entries edges)
        fun edge => (component supplies demands edges).1.flow (.out edge.1) (.into edge.2)) := by
  have positive : ((supplies.entries.any fun entry => entry.2 < 0) ||
      (demands.entries.any fun entry => entry.2 < 0)) = false := by
    rw [any_negative.2 suppliesNonneg, any_negative.2 demandsNonneg]
    rfl
  have same : ¬(supplies.entries.map Prod.snd).sum ≠ (demands.entries.map Prod.snd).sum := not_not.2 totals
  unfold allocateBipartiteFlowMsat
  rw [positive, if_neg Bool.false_ne_true, if_neg same]
  rfl

theorem allocate_none (refused : ¬((∀ entry ∈ supplies.entries, 0 ≤ entry.2) ∧
    (∀ entry ∈ demands.entries, 0 ≤ entry.2) ∧ supplies.total = demands.total)) :
    allocateBipartiteFlowMsat supplies.entries demands.entries edges = none := by
  unfold allocateBipartiteFlowMsat
  cases negative : ((supplies.entries.any fun entry => entry.2 < 0) ||
      (demands.entries.any fun entry => entry.2 < 0)) with
  | true => rfl
  | false =>
    rw [Bool.or_eq_false_iff, any_negative, any_negative] at negative
    have differ : supplies.total ≠ demands.total := fun totals => refused ⟨negative.1, negative.2, totals⟩
    rw [if_neg Bool.false_ne_true]
    exact if_pos differ

theorem delivers_of_allocated {flows : List (String × String × Int)}
    (found : allocateBipartiteFlowMsat supplies.entries demands.entries edges = some flows) :
    Delivers supplies demands (knownEdges supplies demands edges) flows ∧
      ∃ assigned, Meets supplies demands (knownEdges supplies demands edges) assigned := by
  by_cases accepted : (∀ entry ∈ supplies.entries, 0 ≤ entry.2) ∧
      (∀ entry ∈ demands.entries, 0 ≤ entry.2) ∧ supplies.total = demands.total
  · obtain ⟨suppliesNonneg, demandsNonneg, totals⟩ := accepted
    rw [allocate_eq suppliesNonneg demandsNonneg totals] at found
    split at found
    · rename_i zero
      cases found
      have noSupply := all_zero suppliesNonneg zero
      have noDemand := all_zero demandsNonneg (totals ▸ zero)
      refine ⟨⟨nodup_nil, by simp, by simp, fun entry member => (noSupply entry member).symm,
        fun entry member => (noDemand entry member).symm⟩, fun _ => 0, ?_, ?_⟩
      · intro entry member
        simp [noSupply entry member]
      · intro entry member
        simp [noDemand entry member]
    · split at found
      · cases found
      · rename_i _ full
        cases found
        have spec := (@component_spec _ _ edges suppliesNonneg demandsNonneg).1
        have nonneg : 0 ≤ supplies.total := by
          rw [← Amounts.sum_of]
          exact sum_nonneg fun id _ => Amounts.of_nonneg suppliesNonneg id
        have flow := spec.carrying.isFlow
        rw [spec.capacity, start_capacity nodup_reviewed nonneg suppliesNonneg demandsNonneg] at flow
        have value := spec.carrying.value.trans (not_not.1 full)
        have meets := meets_of_full (fun edge => mem_reviewed) flow value totals
        exact ⟨delivers_flowsOf (fun edge => edge_nonneg flow edge.1 edge.2) meets, _, meets⟩
  · rw [allocate_none accepted] at found
    cases found

theorem allocated_of_meets {assigned : String × String → ℕ}
    (meets : Meets supplies demands (knownEdges supplies demands edges) assigned) :
    (allocateBipartiteFlowMsat supplies.entries demands.entries edges).isSome = true := by
  rw [allocate_eq meets.supplies_nonneg meets.demands_nonneg (meets.totals between_known)]
  split
  · rfl
  · have spec := (@component_spec _ _ edges meets.supplies_nonneg meets.demands_nonneg).1
    have nonneg : 0 ≤ supplies.total := by
      rw [← Amounts.sum_of]
      exact sum_nonneg fun id _ => Amounts.of_nonneg meets.supplies_nonneg id
    have rival := @Meets.isFlow _ _ _ _ meets between_known (reviewedEdges supplies.entries demands.entries edges)
      fun edge => mem_reviewed
    rw [← start_capacity nodup_reviewed nonneg meets.supplies_nonneg meets.demands_nonneg] at rival
    have full : (component supplies demands edges).2 = supplies.total := by
      rcases spec.largest with full | largest
      · exact full
      · refine le_antisymm spec.atMost ?_
        rw [← @outflow_assigned _ _ (knownEdges supplies demands edges) fun edge => (assigned edge : ℤ)]
        exact largest _ rival
    rw [if_neg (not_not.2 full)]
    rfl

/-- The allocation ends, finds an assignment exactly when there is one, and returns one. -/
theorem allocation_exact (supplies demands : Amounts) (edges : List (String × String)) :
    ((∀ entry ∈ supplies.entries, 0 ≤ entry.2) → (∀ entry ∈ demands.entries, 0 ≤ entry.2) →
      AugmentRun supplies.total
        (network supplies.entries demands.entries (reviewedEdges supplies.entries demands.entries edges) supplies.total)
        0 (component supplies demands edges)) ∧
    ((allocateBipartiteFlowMsat supplies.entries demands.entries edges).isSome = true ↔
      (∀ entry ∈ supplies.entries, 0 ≤ entry.2) ∧ (∀ entry ∈ demands.entries, 0 ≤ entry.2) ∧
        ∃ assigned, Meets supplies demands (knownEdges supplies demands edges) assigned) ∧
    ∀ flows, allocateBipartiteFlowMsat supplies.entries demands.entries edges = some flows →
      Delivers supplies demands (knownEdges supplies demands edges) flows := by
  refine ⟨fun suppliesNonneg demandsNonneg => (component_spec suppliesNonneg demandsNonneg).2, ?_, ?_⟩
  · constructor
    · intro returned
      obtain ⟨flows, found⟩ := Option.isSome_iff_exists.1 returned
      obtain ⟨-, assigned, meets⟩ := delivers_of_allocated found
      exact ⟨meets.supplies_nonneg, meets.demands_nonneg, assigned, meets⟩
    · rintro ⟨-, -, assigned, meets⟩
      exact allocated_of_meets meets
  · exact fun flows found => (delivers_of_allocated found).1

end

end Kassiber.Transfers

import Kassiber.Transfers.Transportation

/-!
The allocation of a component with fees. A sink under a fresh name takes the unexplained fee, so the
fees and the receipts are one transportation problem.
-/

namespace Kassiber.Transfers
open Lib.Dict Lib.Sums
open List hiding mem_filter
open Finset (mem_filter sum_congr)
open Prod (fst)

def feeSink (destinations : Amounts) : String :=
  freshSink (destinations.entries.map fst) (destinations.entries.length + 1) "__kassiber_unexplained_transfer_fee__"

theorem freshSink_tries (destinations : List String) (tries : Nat) :
    ∀ (name : String) (used : List String), used.Nodup → (∀ u ∈ used, u ∈ destinations ∧ u.length < name.length) →
      freshSink destinations tries name ∈ destinations → used.length + tries < destinations.length := by
  have room : ∀ (name : String) (used : List String), used.Nodup →
      (∀ u ∈ used, u ∈ destinations ∧ u.length < name.length) → name ∈ destinations →
        (name :: used).Nodup ∧ (name :: used).length ≤ destinations.length := by
    intro name used distinct shorter member
    have fresh : (name :: used).Nodup :=
      nodup_cons.2 ⟨fun inside => absurd (shorter name inside).2 (lt_irrefl _), distinct⟩
    refine ⟨fresh, (subperm_of_subset fresh fun u inside => ?_).length_le⟩
    rcases mem_cons.1 inside with rfl | old
    · exact member
    · exact (shorter u old).1
  induction tries with
  | zero =>
    intro name used distinct shorter member
    have bound := (room name used distinct shorter member).2
    rw [length_cons] at bound
    omega
  | succ tries ih =>
    intro name used distinct shorter member
    rw [freshSink] at member
    split at member
    · rename_i taken
      have fresh := (room name used distinct shorter (contains_iff_mem.1 taken)).1
      have longer : (name ++ "_").length = name.length + 1 := by rw [String.length_append]; rfl
      have bound := ih (name ++ "_") (name :: used) fresh (fun u inside => ?_) member
      · rw [length_cons] at bound
        omega
      · rcases mem_cons.1 inside with rfl | old
        · exact ⟨contains_iff_mem.1 taken, by omega⟩
        · exact ⟨(shorter u old).1, by have := (shorter u old).2; omega⟩
    · rename_i free
      exact absurd (contains_iff_mem.2 member) free

theorem feeSink_fresh (destinations : Amounts) : feeSink destinations ∉ destinations.entries.map fst := by
  intro taken
  have bound := freshSink_tries _ _ _ [] nodup_nil (by simp) taken
  rw [length_map, length_nil] at bound
  omega

section
variable (sent explicitFees destinations : Amounts) (edges : List (String × String)) (implicitIds : List String)

def sourceOrder : List String :=
  ((sent.entries.map fst).filter implicitIds.contains) ++
    ((sent.entries.map fst).filter fun id => !implicitIds.contains id)

theorem sourceOrder_perm : (sourceOrder sent implicitIds).Perm (sent.entries.map fst) := filter_append_perm _ _

def explicitBySource : Amounts where
  entries := sent.entries.map fun entry => (entry.1, explicitFees.of entry.1)
  distinct := by
    rw [map_map]
    exact sent.distinct

def remainingSupply : Amounts where
  entries := (sourceOrder sent implicitIds).map fun id => (id, sent.of id - (explicitBySource sent explicitFees).of id)
  distinct := by
    rw [map_map]
    exact (map_id _).symm ▸ (sourceOrder_perm sent implicitIds).nodup_iff.2 sent.distinct

/-- What the sources sent beyond the explicit fees and the receipts. -/
def unexplainedFee : Int := sent.total - destinations.total - (explicitBySource sent explicitFees).total

def augmentedDemands : Amounts where
  entries := (feeSink destinations, unexplainedFee sent explicitFees destinations) :: destinations.entries
  distinct := nodup_cons.2 ⟨feeSink_fresh destinations, destinations.distinct⟩

def augmentedEdges : List (String × String) := (sourceOrder sent implicitIds).map (·, feeSink destinations) ++ edges

def allocationOf (allocated : List (String × String × Int)) : Allocation where
  principal := allocated.filter fun flow => flow.2.1 ≠ feeSink destinations
  feeBySource := (explicitBySource sent explicitFees).entries.map fun entry =>
    (entry.1, entry.2 + ((allocated.filter fun flow => flow.1 = entry.1 ∧ flow.2.1 = feeSink destinations).map
      fun flow => flow.2.2).sum)

variable {sent explicitFees destinations edges implicitIds}

theorem allocate_component :
    allocateTransferComponentFlowMsat sent.entries explicitFees.entries destinations.entries edges implicitIds =
      if (sent.entries.any fun entry => entry.2 < 0) || (destinations.entries.any fun entry => entry.2 < 0) then none
      else if (explicitBySource sent explicitFees).entries.any fun entry =>
        entry.2 < 0 || sent.of entry.1 < entry.2 then none
      else if explicitFees.entries.any fun entry => !(sent.entries.map fst).contains entry.1 then none
      else if sent.total - destinations.total < 0 ∨ unexplainedFee sent explicitFees destinations < 0 then none
      else (allocateBipartiteFlowMsat (remainingSupply sent explicitFees implicitIds).entries
        (augmentedDemands sent explicitFees destinations).entries
        (augmentedEdges sent destinations edges implicitIds)).map (allocationOf sent explicitFees destinations) :=
  rfl

variable {id : String}

theorem mem_remaining_ids : id ∈ (remainingSupply sent explicitFees implicitIds).ids ↔ id ∈ sent.ids := by
  rw [Amounts.ids, Amounts.ids, mem_toFinset, mem_toFinset, remainingSupply, map_map]
  rw [← (sourceOrder_perm sent implicitIds).mem_iff]
  exact iff_of_eq (congrArg (id ∈ ·) (map_id _))

theorem of_explicitBySource (member : id ∈ sent.ids) :
    (explicitBySource sent explicitFees).of id = explicitFees.of id := by
  obtain ⟨amount, inside⟩ := Amounts.mem_ids.1 member
  have listed : (id, explicitFees.of id) ∈ (explicitBySource sent explicitFees).entries :=
    mem_map.2 ⟨(id, amount), inside, rfl⟩
  exact Amounts.of_entry listed

theorem ids_explicitBySource : (explicitBySource sent explicitFees).ids = sent.ids := by
  rw [Amounts.ids, Amounts.ids, explicitBySource, map_map]
  rfl

theorem of_remaining (member : id ∈ sent.ids) :
    (remainingSupply sent explicitFees implicitIds).of id = sent.of id - explicitFees.of id := by
  have ordered : id ∈ sourceOrder sent implicitIds :=
    (sourceOrder_perm sent implicitIds).mem_iff.2 (mem_toFinset.1 member)
  have listed : (id, sent.of id - explicitFees.of id) ∈ (remainingSupply sent explicitFees implicitIds).entries := by
    refine mem_map.2 ⟨id, ordered, ?_⟩
    rw [of_explicitBySource member]
  exact Amounts.of_entry listed

theorem mem_augmented {edge : String × String} :
    edge ∈ knownEdges (remainingSupply sent explicitFees implicitIds) (augmentedDemands sent explicitFees destinations)
        (augmentedEdges sent destinations edges implicitIds) ↔
      edge.1 ∈ sent.ids ∧ edge.2 = feeSink destinations ∨ edge ∈ knownEdges sent destinations edges := by
  obtain ⟨outId, inId⟩ := edge
  have demanded : inId ∈ (augmentedDemands sent explicitFees destinations).ids ↔
      inId = feeSink destinations ∨ inId ∈ destinations.ids := by
    simp [Amounts.ids, augmentedDemands]
  have ordered : outId ∈ sourceOrder sent implicitIds ↔ outId ∈ sent.ids := by
    rw [(sourceOrder_perm sent implicitIds).mem_iff, Amounts.ids, mem_toFinset]
  have listed : (outId, inId) ∈ augmentedEdges sent destinations edges implicitIds ↔
      outId ∈ sent.ids ∧ inId = feeSink destinations ∨ (outId, inId) ∈ edges := by
    rw [augmentedEdges, mem_append, mem_map]
    refine or_congr_left ⟨?_, ?_⟩
    · rintro ⟨id, member, same⟩
      cases same
      exact ⟨ordered.1 member, rfl⟩
    · rintro ⟨member, rfl⟩
      exact ⟨outId, ordered.2 member, rfl⟩
  simp only [knownEdges, mem_filter, mem_toFinset, mem_remaining_ids, demanded, listed]
  tauto

theorem known_not_sink {edge : String × String} (member : edge ∈ knownEdges sent destinations edges) :
    edge.2 ≠ feeSink destinations := by
  intro same
  refine feeSink_fresh destinations ?_
  rw [← same]
  exact mem_toFinset.1 (between_known edge member).2

variable {f : String × String → ℤ}

theorem sum_augmented_row (member : id ∈ sent.ids) :
    ∑ edge ∈ knownEdges (remainingSupply sent explicitFees implicitIds)
        (augmentedDemands sent explicitFees destinations)
        (augmentedEdges sent destinations edges implicitIds) with edge.1 = id, f edge =
      f (id, feeSink destinations) + ∑ edge ∈ knownEdges sent destinations edges with edge.1 = id, f edge := by
  rw [← Finset.sum_insert (f := f)]
  · refine sum_congr ?_ fun _ _ => rfl
    ext ⟨outId, inId⟩
    rw [mem_filter, mem_augmented, Finset.mem_insert, mem_filter, Prod.mk.injEq]
    dsimp only
    constructor
    · rintro ⟨⟨-, same⟩ | known, own⟩
      · exact .inl ⟨own, same⟩
      · exact .inr ⟨known, own⟩
    · rintro (⟨rfl, rfl⟩ | ⟨known, own⟩)
      · exact ⟨.inl ⟨member, rfl⟩, rfl⟩
      · exact ⟨.inr known, own⟩
  · exact fun inside => known_not_sink (mem_filter.1 inside).1 rfl

theorem sum_augmented_column (other : id ≠ feeSink destinations) :
    ∑ edge ∈ knownEdges (remainingSupply sent explicitFees implicitIds)
        (augmentedDemands sent explicitFees destinations)
        (augmentedEdges sent destinations edges implicitIds) with edge.2 = id, f edge =
      ∑ edge ∈ knownEdges sent destinations edges with edge.2 = id, f edge := by
  refine sum_congr ?_ fun _ _ => rfl
  ext edge
  rw [mem_filter, mem_filter, mem_augmented]
  constructor
  · rintro ⟨⟨-, same⟩ | known, own⟩
    · exact absurd (own.symm.trans same) other
    · exact ⟨known, own⟩
  · rintro ⟨known, own⟩
    exact ⟨.inr known, own⟩

theorem sum_augmented_sink :
    ∑ edge ∈ knownEdges (remainingSupply sent explicitFees implicitIds)
        (augmentedDemands sent explicitFees destinations)
        (augmentedEdges sent destinations edges implicitIds) with edge.2 = feeSink destinations, f edge =
      ∑ id ∈ sent.ids, f (id, feeSink destinations) := by
  refine Finset.sum_nbij' (fun edge => edge.1) (fun id => (id, feeSink destinations)) ?_ ?_ ?_ ?_ ?_
  · intro edge member
    rw [mem_filter, mem_augmented] at member
    rcases member with ⟨⟨inside, -⟩ | known, -⟩
    · exact inside
    · exact (between_known edge known).1
  · intro id member
    exact mem_filter.2 ⟨mem_augmented.2 (.inl ⟨member, rfl⟩), rfl⟩
  · rintro ⟨left, right⟩ member
    rw [← (mem_filter.1 member).2]
  · exact fun _ _ => rfl
  · rintro ⟨left, right⟩ member
    rw [← (mem_filter.1 member).2]

end

/-- Every destination receives its amount over reviewed edges, and every source's flow and fee are what it sent. -/
structure Conserves (sent explicitFees destinations : Amounts) (reviewed : Finset (String × String))
    (assigned : String × String → ℕ) (fee : String → Int) : Prop where
  received : ∀ entry ∈ destinations.entries, ∑ edge ∈ reviewed with edge.2 = entry.1, (assigned edge : ℤ) = entry.2
  spent : ∀ entry ∈ sent.entries, ∑ edge ∈ reviewed with edge.1 = entry.1, (assigned edge : ℤ) + fee entry.1 = entry.2
  explicit : ∀ entry ∈ sent.entries, explicitFees.of entry.1 ≤ fee entry.1

structure Allocates (sent explicitFees destinations : Amounts) (reviewed : Finset (String × String))
    (allocation : Allocation) : Prop where
  once : (allocation.principal.map fun flow => (flow.1, flow.2.1)).Nodup
  reviewed : ∀ flow ∈ allocation.principal, (flow.1, flow.2.1) ∈ reviewed ∧ flow.2.1 ≠ feeSink destinations
  positive : ∀ flow ∈ allocation.principal, 0 < flow.2.2
  received : ∀ entry ∈ destinations.entries,
    ((allocation.principal.filter fun flow => flow.2.1 = entry.1).map fun flow => flow.2.2).sum = entry.2
  sources : allocation.feeBySource.map fst = sent.entries.map fst
  spent : ∀ entry ∈ sent.entries, ∀ fee, (entry.1, fee) ∈ allocation.feeBySource →
    allocation.principalOf entry.1 + fee = entry.2 ∧ explicitFees.of entry.1 ≤ fee

section
variable {sent explicitFees destinations : Amounts} {edges : List (String × String)} {implicitIds : List String}

variable {assigned : String × String → ℕ} {fee : String → Int}

theorem Conserves.spent_of {reviewed : Finset (String × String)}
    (conserves : Conserves sent explicitFees destinations reviewed assigned fee) {id : String}
    (member : id ∈ sent.ids) :
    ∑ edge ∈ reviewed with edge.1 = id, (assigned edge : ℤ) + fee id = sent.of id ∧ explicitFees.of id ≤ fee id := by
  obtain ⟨amount, inside⟩ := Amounts.mem_ids.1 member
  rw [show sent.of id = amount from Amounts.of_entry inside]
  exact ⟨conserves.spent _ inside, conserves.explicit _ inside⟩

theorem total_explicitBySource :
    (explicitBySource sent explicitFees).total = ∑ id ∈ sent.ids, explicitFees.of id := by
  rw [← Amounts.sum_of, ids_explicitBySource]
  exact sum_congr rfl fun id member => of_explicitBySource member

theorem of_destination {id : String} (member : id ∈ destinations.ids) :
    (augmentedDemands sent explicitFees destinations).of id = destinations.of id := by
  obtain ⟨amount, inside⟩ := Amounts.mem_ids.1 member
  rw [show destinations.of id = amount from Amounts.of_entry inside]
  have listed : (id, amount) ∈ (augmentedDemands sent explicitFees destinations).entries := mem_cons_of_mem _ inside
  exact Amounts.of_entry listed

theorem of_sink : (augmentedDemands sent explicitFees destinations).of (feeSink destinations) =
    unexplainedFee sent explicitFees destinations := by
  have listed : (feeSink destinations, unexplainedFee sent explicitFees destinations) ∈
      (augmentedDemands sent explicitFees destinations).entries := mem_cons_self
  exact Amounts.of_entry listed

theorem sink_not_destination {id : String} (member : id ∈ destinations.ids) : id ≠ feeSink destinations :=
  fun same => feeSink_fresh destinations (same ▸ mem_toFinset.1 member)

def withFees (explicitFees destinations : Amounts) (assigned : String × String → ℕ) (fee : String → Int)
    (edge : String × String) : ℕ :=
  if edge.2 = feeSink destinations then (fee edge.1 - explicitFees.of edge.1).toNat else assigned edge

theorem Conserves.meets
    (conserves : Conserves sent explicitFees destinations (knownEdges sent destinations edges) assigned fee) :
    Meets (remainingSupply sent explicitFees implicitIds) (augmentedDemands sent explicitFees destinations)
      (knownEdges (remainingSupply sent explicitFees implicitIds) (augmentedDemands sent explicitFees destinations)
        (augmentedEdges sent destinations edges implicitIds))
      (withFees explicitFees destinations assigned fee) := by
  have onEdges : ∀ (keep : String × String → Prop) [DecidablePred keep],
      ∑ edge ∈ knownEdges sent destinations edges with keep edge,
          (withFees explicitFees destinations assigned fee edge : ℤ) =
        ∑ edge ∈ knownEdges sent destinations edges with keep edge, (assigned edge : ℤ) := by
    intro keep _
    refine sum_congr rfl fun edge member => ?_
    rw [withFees, if_neg (known_not_sink (mem_filter.1 member).1)]
  have onSink : ∀ id ∈ sent.ids,
      (withFees explicitFees destinations assigned fee (id, feeSink destinations) : ℤ) =
        fee id - explicitFees.of id := by
    intro id member
    have atLeast := (conserves.spent_of member).2
    rw [withFees, if_pos rfl, Int.toNat_of_nonneg (by dsimp only; omega)]
  have columns : ∀ id ∈ destinations.ids,
      ∑ edge ∈ knownEdges sent destinations edges with edge.2 = id, (assigned edge : ℤ) = destinations.of id := by
    intro id member
    obtain ⟨amount, inside⟩ := Amounts.mem_ids.1 member
    rw [show destinations.of id = amount from Amounts.of_entry inside]
    exact conserves.received _ inside
  refine Meets.of_ids (fun id member => ?_) (fun id member => ?_)
  · rw [mem_remaining_ids] at member
    rw [sum_augmented_row (f := fun edge => (withFees explicitFees destinations assigned fee edge : ℤ)) member,
      onEdges, onSink id member, of_remaining member, ← (conserves.spent_of member).1]
    ring
  · have demanded : id = feeSink destinations ∨ id ∈ destinations.ids := by
      simpa [Amounts.ids, augmentedDemands] using member
    rcases demanded with rfl | known
    · rw [sum_augmented_sink (f := fun edge => (withFees explicitFees destinations assigned fee edge : ℤ)), of_sink,
        sum_congr rfl onSink, Finset.sum_sub_distrib, unexplainedFee, total_explicitBySource]
      have received : destinations.total = ∑ id ∈ sent.ids,
          ∑ edge ∈ knownEdges sent destinations edges with edge.1 = id, (assigned edge : ℤ) := by
        rw [← Amounts.sum_of, ← sum_congr rfl columns]
        simp only [sum_row between_known, sum_column between_known]
        exact Finset.sum_comm
      have all : sent.total = ∑ id ∈ sent.ids,
          (∑ edge ∈ knownEdges sent destinations edges with edge.1 = id, (assigned edge : ℤ) + fee id) := by
        rw [← Amounts.sum_of]
        exact sum_congr rfl fun id member => (conserves.spent_of member).1.symm
      rw [Finset.sum_add_distrib] at all
      omega
    · rw [sum_augmented_column (f := fun edge => (withFees explicitFees destinations assigned fee edge : ℤ))
        (sink_not_destination known), onEdges, columns id known, of_destination known]

theorem conserves_of_meets
    (meets : Meets (remainingSupply sent explicitFees implicitIds) (augmentedDemands sent explicitFees destinations)
      (knownEdges (remainingSupply sent explicitFees implicitIds) (augmentedDemands sent explicitFees destinations)
        (augmentedEdges sent destinations edges implicitIds)) assigned) :
    Conserves sent explicitFees destinations (knownEdges sent destinations edges) assigned
      fun id => explicitFees.of id + assigned (id, feeSink destinations) where
  received := by
    intro entry member
    have known : entry.1 ∈ destinations.ids := Amounts.mem_ids.2 ⟨_, member⟩
    rw [← sum_augmented_column (f := fun edge => (assigned edge : ℤ)) (sink_not_destination known)]
    exact meets.received entry (.tail _ member)
  spent := by
    intro entry member
    have known : entry.1 ∈ sent.ids := Amounts.mem_ids.2 ⟨_, member⟩
    have row := meets.sent_of (mem_remaining_ids.2 known)
    rw [sum_augmented_row (f := fun edge => (assigned edge : ℤ)) known, of_remaining known,
      Amounts.of_entry member] at row
    omega
  explicit := by
    intro entry _
    omega

theorem allocates_of_delivers {allocated : List (String × String × Int)}
    (delivers : Delivers (remainingSupply sent explicitFees implicitIds)
      (augmentedDemands sent explicitFees destinations)
      (knownEdges (remainingSupply sent explicitFees implicitIds) (augmentedDemands sent explicitFees destinations)
        (augmentedEdges sent destinations edges implicitIds)) allocated) :
    Allocates sent explicitFees destinations (knownEdges sent destinations edges)
      (allocationOf sent explicitFees destinations allocated) where
  once := delivers.once.sublist (List.Sublist.map _ filter_sublist)
  reviewed := by
    intro flow member
    obtain ⟨inside, principal⟩ := List.mem_filter.1 member
    have other := of_decide_eq_true principal
    exact ⟨(mem_augmented.1 (delivers.listed flow inside)).resolve_left fun sink => other sink.2, other⟩
  positive := fun flow member => delivers.positive flow (List.mem_filter.1 member).1
  received := by
    intro entry member
    have known : entry.1 ∈ destinations.ids := Amounts.mem_ids.2 ⟨_, member⟩
    rw [← delivers.received entry (mem_cons_of_mem _ member), allocationOf, filter_filter]
    refine congrArg (fun flows : List (String × String × Int) => (flows.map fun flow => flow.2.2).sum) ?_
    refine filter_congr fun flow _ => ?_
    by_cases own : flow.2.1 = entry.1
    · simp [own, sink_not_destination known]
    · simp [own]
  sources := by
    rw [allocationOf, explicitBySource, map_map, map_map]
    rfl
  spent := by
    rintro ⟨id, amount⟩ member fee listed
    have known : id ∈ sent.ids := Amounts.mem_ids.2 ⟨_, member⟩
    have fees : fee = explicitFees.of id +
        ((allocated.filter fun flow => flow.1 = id ∧ flow.2.1 = feeSink destinations).map fun flow => flow.2.2).sum := by
      obtain ⟨source, inside, same⟩ := mem_map.1 listed
      obtain ⟨row, present, rfl⟩ := mem_map.1 inside
      obtain ⟨rfl, rfl⟩ := Prod.mk.inj same
      rfl
    have given := (Amounts.forall_ids (p := fun id amount =>
      ((allocated.filter fun flow => flow.1 = id).map fun flow => flow.2.2).sum = amount)).1 delivers.sent id
        (mem_remaining_ids.2 known)
    have whole : sent.of id = amount := Amounts.of_entry member
    have parts : ((allocated.filter fun flow => flow.1 = id).map fun flow => flow.2.2).sum =
        (allocationOf sent explicitFees destinations allocated).principalOf id +
          ((allocated.filter fun flow => flow.1 = id ∧ flow.2.1 = feeSink destinations).map fun flow => flow.2.2).sum := by
      exact sum_filter_split (fun flow : String × String × Int => flow.1 = id)
        (fun flow => flow.2.1 = feeSink destinations) (fun flow => flow.2.2) allocated
    have nonneg : 0 ≤ ((allocated.filter fun flow => flow.1 = id ∧ flow.2.1 = feeSink destinations).map
        fun flow => flow.2.2).sum := by
      refine sum_nonneg fun value inside => ?_
      obtain ⟨flow, kept, rfl⟩ := mem_map.1 inside
      exact (delivers.positive flow (List.mem_filter.1 kept).1).le
    rw [of_remaining known] at given
    dsimp only
    constructor <;> omega

theorem any_unknown (known : ∀ entry ∈ explicitFees.entries, entry.1 ∈ sent.ids) :
    (explicitFees.entries.any fun entry => !(sent.entries.map fst).contains entry.1) = false := by
  refine any_eq_false.2 fun entry member => ?_
  have listed : entry.1 ∈ sent.entries.map fst := mem_toFinset.1 (known entry member)
  simpa using listed

theorem allocate_of_conserves
    (sentNonneg : ∀ entry ∈ sent.entries, 0 ≤ entry.2) (feesNonneg : ∀ entry ∈ explicitFees.entries, 0 ≤ entry.2)
    (destinationsNonneg : ∀ entry ∈ destinations.entries, 0 ≤ entry.2)
    (known : ∀ entry ∈ explicitFees.entries, entry.1 ∈ sent.ids)
    (conserves : Conserves sent explicitFees destinations (knownEdges sent destinations edges) assigned fee) :
    (allocateTransferComponentFlowMsat sent.entries explicitFees.entries destinations.entries edges
      implicitIds).isSome = true := by
  have meets := @Conserves.meets _ _ _ _ implicitIds _ _ conserves
  have fees : ((explicitBySource sent explicitFees).entries.any fun entry =>
      entry.2 < 0 || sent.of entry.1 < entry.2) = false := by
    refine any_eq_false.2 fun entry member => ?_
    obtain ⟨row, inside, rfl⟩ := mem_map.1 member
    have listed : row.1 ∈ sent.ids := Amounts.mem_ids.2 ⟨_, inside⟩
    have atLeast := Amounts.of_nonneg feesNonneg row.1
    have spent := conserves.spent_of listed
    have principal : 0 ≤ ∑ edge ∈ knownEdges sent destinations edges with edge.1 = row.1, (assigned edge : ℤ) :=
      Finset.sum_nonneg fun edge _ => Int.natCast_nonneg _
    simp only [Bool.or_eq_true, decide_eq_true_eq, not_or, not_lt]
    constructor <;> omega
  have rest : 0 ≤ unexplainedFee sent explicitFees destinations := by
    rw [← of_sink]
    exact Amounts.of_nonneg meets.demands_nonneg _
  have explained : 0 ≤ (explicitBySource sent explicitFees).total := by
    rw [total_explicitBySource]
    exact Finset.sum_nonneg fun id _ => Amounts.of_nonneg feesNonneg id
  have aggregate : ¬(sent.total - destinations.total < 0 ∨ unexplainedFee sent explicitFees destinations < 0) := by
    unfold unexplainedFee at rest ⊢
    omega
  rw [allocate_component, any_negative.2 sentNonneg, any_negative.2 destinationsNonneg, fees, any_unknown known,
    if_neg aggregate]
  simpa using allocated_of_meets meets

theorem allocated_of_component {allocation : Allocation}
    (found : allocateTransferComponentFlowMsat sent.entries explicitFees.entries destinations.entries edges
      implicitIds = some allocation) :
    ∃ allocated, allocateBipartiteFlowMsat (remainingSupply sent explicitFees implicitIds).entries
        (augmentedDemands sent explicitFees destinations).entries
        (augmentedEdges sent destinations edges implicitIds) = some allocated ∧
      allocationOf sent explicitFees destinations allocated = allocation := by
  rw [allocate_component] at found
  split at found
  · cases found
  split at found
  · cases found
  split at found
  · cases found
  split at found
  · cases found
  · exact Option.map_eq_some_iff.1 found

/-- The allocation returns exactly on the components that conserve, and what it returns conserves. -/
theorem component_allocation_exact (sent explicitFees destinations : Amounts) (edges : List (String × String))
    (implicitIds : List String) (sentNonneg : ∀ entry ∈ sent.entries, 0 ≤ entry.2)
    (feesNonneg : ∀ entry ∈ explicitFees.entries, 0 ≤ entry.2)
    (destinationsNonneg : ∀ entry ∈ destinations.entries, 0 ≤ entry.2)
    (known : ∀ entry ∈ explicitFees.entries, entry.1 ∈ sent.ids) :
    ((allocateTransferComponentFlowMsat sent.entries explicitFees.entries destinations.entries edges
        implicitIds).isSome = true ↔
      ∃ assigned fee,
        Conserves sent explicitFees destinations (knownEdges sent destinations edges) assigned fee) ∧
    ∀ allocation, allocateTransferComponentFlowMsat sent.entries explicitFees.entries destinations.entries edges
        implicitIds = some allocation →
      Allocates sent explicitFees destinations (knownEdges sent destinations edges) allocation := by
  constructor
  · constructor
    · intro returned
      obtain ⟨allocation, found⟩ := Option.isSome_iff_exists.1 returned
      obtain ⟨allocated, flows, -⟩ := allocated_of_component found
      obtain ⟨-, assigned, meets⟩ := delivers_of_allocated flows
      exact ⟨assigned, _, conserves_of_meets meets⟩
    · rintro ⟨assigned, fee, conserves⟩
      exact allocate_of_conserves sentNonneg feesNonneg destinationsNonneg known conserves
  · intro allocation found
    obtain ⟨allocated, flows, rfl⟩ := allocated_of_component found
    exact allocates_of_delivers (delivers_of_allocated flows).1

/-- A destination with the sink's name, with an edge to it and one from an unknown source. -/
def sinkNamed : Amounts where
  entries := [("__kassiber_unexplained_transfer_fee__", 60), ("in", 30)]
  distinct := by decide

def twoSources : Amounts where
  entries := [("a", 70), ("b", 30)]
  distinct := by decide

def recordedFee : Amounts where
  entries := [("b", 4)]
  distinct := by decide

theorem sink_named_destination_allocated :
    ((allocateTransferComponentFlowMsat twoSources.entries recordedFee.entries sinkNamed.entries
        [("a", "__kassiber_unexplained_transfer_fee__"), ("b", "in"), ("a", "in"), ("c", "in")] ["a"]).isSome = true ↔
      ∃ assigned fee, Conserves twoSources recordedFee sinkNamed
        (knownEdges twoSources sinkNamed
          [("a", "__kassiber_unexplained_transfer_fee__"), ("b", "in"), ("a", "in"), ("c", "in")]) assigned fee) ∧
    ∀ allocation, allocateTransferComponentFlowMsat twoSources.entries recordedFee.entries sinkNamed.entries
        [("a", "__kassiber_unexplained_transfer_fee__"), ("b", "in"), ("a", "in"), ("c", "in")] ["a"] =
          some allocation →
      Allocates twoSources recordedFee sinkNamed
        (knownEdges twoSources sinkNamed
          [("a", "__kassiber_unexplained_transfer_fee__"), ("b", "in"), ("a", "in"), ("c", "in")]) allocation :=
  component_allocation_exact twoSources recordedFee sinkNamed _ _ (by decide) (by decide) (by decide) (by decide)

end

end Kassiber.Transfers

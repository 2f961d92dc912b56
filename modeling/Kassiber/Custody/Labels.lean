import Kassiber.Lib.Mapped
import Kassiber.Custody.AuthoredBook

/-!
The checks of a component's own rows do not read the component and the profile its legs are stored under, so a planned
component is judged like the stored one.
-/

namespace Kassiber.Custody.Book
open Lib.Outcome Lib.Dict Lib.Sorting Lib.UnionFind Lib.Mapped List Function

def Leg.under (component profile : String) (leg : Leg) : Leg := { leg with componentId := component, profileId := profile }

section
variable (cid pid : String)

def ValueEdge.under (edge : ValueEdge) : ValueEdge :=
  { edge with source := edge.source.under cid pid, sink := edge.sink.under cid pid }

def Movement.under (movement : Movement) : Movement := { movement with leg := movement.leg.under cid pid }

variable (imported : Imported) (clock : String → Option Int) (header : ReviewHeader) (legs : List Leg)
  (allocations : List Allocation) (mode : ConservationMode)

theorem filter_under {p : Leg → Bool} (blind : ∀ leg, p (leg.under cid pid) = p leg) (legs : List Leg) :
    (legs.map (Leg.under cid pid)).filter p = (legs.filter p).map (Leg.under cid pid) := by
  rw [filter_map]
  congr 1
  exact filter_congr fun leg _ => blind leg

theorem positiveSources_under : positiveSources (legs.map (Leg.under cid pid)) =
    (positiveSources legs).map (Leg.under cid pid) := filter_under cid pid (fun _ => rfl) legs

theorem positiveSinks_under : positiveSinks (legs.map (Leg.under cid pid)) =
    (positiveSinks legs).map (Leg.under cid pid) := filter_under cid pid (fun _ => rfl) legs

theorem legNamed_under (id : String) : legNamed (legs.map (Leg.under cid pid)) id =
    (legNamed legs id).map (Leg.under cid pid) :=
  lookup_map Leg.id (Leg.under cid pid) legs id

theorem edge_under (allocation : Allocation) :
    allocation.edge (legs.map (Leg.under cid pid)) = (allocation.edge legs).map (ValueEdge.under cid pid) := by
  unfold Allocation.edge
  rw [legNamed_under, legNamed_under]
  cases legNamed legs allocation.sourceLegId <;> cases legNamed legs allocation.sinkLegId <;> rfl

theorem inferred_under (sources sinks : List Leg) (mode : ConservationMode) :
    inferredAllocationLegPairs (sources.map (Leg.under cid pid)) (sinks.map (Leg.under cid pid)) mode =
      (inferredAllocationLegPairs sources sinks mode).map (Prod.map (Leg.under cid pid) (Leg.under cid pid)) := by
  cases mode with
  | conversion =>
    rcases sources with _ | ⟨source, _ | ⟨second, sources⟩⟩
    · rfl
    · rcases sinks with _ | ⟨sink, _ | ⟨other, sinks⟩⟩ <;> rfl
    · rfl
  | quantity =>
    unfold inferredAllocationLegPairs
    rw [filter_under cid pid (fun _ => rfl) sinks, filter_under cid pid (fun _ => rfl) sinks]
    generalize sinks.filter (fun sink => sink.role = .destination ∨ sink.role = .retained) = owned
    generalize sinks.filter (fun sink => sink.role = .fee ∨ sink.role = .external ∨ sink.role = .suspense) = attributed
    -- Only a single owned sink beside no attributed one is inferred, whatever the sources are.
    rcases sources with _ | ⟨source, _ | ⟨second, sources⟩⟩
    · rcases owned with _ | ⟨only, _ | ⟨other, owned⟩⟩
      · rfl
      · cases attributed <;> rfl
      · rfl
    · simp [comp_def]
    · rcases owned with _ | ⟨only, _ | ⟨other, owned⟩⟩
      · rfl
      · cases attributed with
        | nil => simp [comp_def]
        | cons loss losses => rfl
      · rfl

theorem allocationPairs_under :
    allocationPairs (legs.map (Leg.under cid pid)) allocations mode =
      (allocationPairs legs allocations mode).map (ValueEdge.under cid pid) := by
  unfold allocationPairs
  split
  · rw [map_filterMap]
    exact filterMap_congr fun allocation _ => edge_under cid pid legs allocation
  · rw [positiveSources_under, positiveSinks_under, inferred_under, map_map, map_map]
    rfl

/-! ### Chronology and continuity -/

theorem chronology_under :
    allocationChronologyIssues clock (legs.map (Leg.under cid pid)) allocations mode =
      allocationChronologyIssues clock legs allocations mode := by
  unfold allocationChronologyIssues
  rw [allocationPairs_under, List.mapM_map]
  rfl

theorem timed_under : timed clock (legs.map (Leg.under cid pid)) =
    (timed clock legs).map (map (Prod.map id (Leg.under cid pid))) := by
  unfold timed
  induction legs with
  | nil => rfl
  | cons leg rest ih =>
    rw [map_cons, mapM_cons, mapM_cons, ih]
    show ((leg.moment clock).map fun moment => (moment, leg.under cid pid)) >>= _ = _
    cases leg.moment clock with
    | none => rfl
    | some moment =>
      cases rest.mapM (fun leg => (leg.moment clock).map fun moment => (moment, leg)) <;> rfl

theorem intermediateSpend_under (credits : List (Int × Leg)) (source : Int × Leg) :
    intermediateSpend (credits.map (Prod.map id (Leg.under cid pid))) (Prod.map id (Leg.under cid pid) source) =
      (intermediateSpend credits source).map (Option.map (Movement.under cid pid)) := by
  have earlier : (∃ credit ∈ credits.map (Prod.map id (Leg.under cid pid)), credit.1 < source.1) ↔
      ∃ credit ∈ credits, credit.1 < source.1 := by
    constructor
    · rintro ⟨credit, member, before⟩
      obtain ⟨old, oldMember, rfl⟩ := mem_map.1 member
      exact ⟨old, oldMember, before⟩
    · rintro ⟨credit, member, before⟩
      exact ⟨_, mem_map_of_mem member, before⟩
  unfold intermediateSpend
  show (if source.2.transactionId = none then _ else _) = _
  split
  · cases run : afterTolerance source.1 <;> simp [Prod.map, run, bind, Except.bind, pure, Except.pure, Except.map, Movement.under]
  · simp only [Prod.map_fst, id_eq, earlier]
    split <;> rfl

theorem continuityMovements_under (credits sources : List (Int × Leg)) :
    continuityMovements (credits.map (Prod.map id (Leg.under cid pid)))
        (sources.map (Prod.map id (Leg.under cid pid))) =
      (continuityMovements credits sources).map (map (Movement.under cid pid)) := by
  have spends : (sources.map (Prod.map id (Leg.under cid pid))).mapM
        (intermediateSpend (credits.map (Prod.map id (Leg.under cid pid)))) =
      (sources.mapM (intermediateSpend credits)).map (map (Option.map (Movement.under cid pid))) := by
    induction sources with
    | nil => rfl
    | cons source rest ih =>
      rw [map_cons, mapM_cons, mapM_cons, ih, intermediateSpend_under]
      cases intermediateSpend credits source with
      | error e => rfl
      | ok spend => cases rest.mapM (intermediateSpend credits) <;> rfl
  unfold continuityMovements
  rw [spends]
  cases sources.mapM (intermediateSpend credits) with
  | error e => rfl
  | ok found =>
    show Except.ok _ = Except.ok _
    congr 1
    rw [map_append, map_map, map_map, filterMap_map, map_filterMap]
    congr 1

theorem overspend_under (available : Int) (movements : List Movement) :
    overspend available (movements.map (Movement.under cid pid)) =
      (overspend available movements).map (Movement.under cid pid) := by
  induction movements generalizing available with
  | nil => rfl
  | cons movement rest ih =>
    rw [map_cons]
    unfold overspend
    show (if movement.spends then if available < movement.leg.amountMsat then _ else _ else _) = _
    split
    · split
      · rfl
      · exact ih _
    · exact ih _

theorem continuityIssue_under :
    continuityIssue clock (legs.map (Leg.under cid pid)) = continuityIssue clock legs := by
  unfold continuityIssue
  rw [filter_under cid pid (fun _ => rfl) legs, filter_under cid pid (fun _ => rfl) legs]
  simp only [map_eq_nil_iff, timed_under]
  split
  · rfl
  generalize timed clock (legs.filter fun leg => leg.role = .destination ∨ leg.role = .retained) = credits
  generalize timed clock (legs.filter fun leg => leg.role = .source) = spends
  rcases credits with _ | credits
  · rfl
  rcases spends with _ | spends
  · rfl
  dsimp only [Option.map_some]
  rw [continuityMovements_under]
  cases continuityMovements credits spends with
  | error e => rfl
  | ok movements =>
    have sorted : sortedBy Movement.key (movements.map (Movement.under cid pid)) =
        (sortedBy Movement.key movements).map (Movement.under cid pid) :=
      sortedBy_map Movement.key (Movement.under cid pid) movements
    have drawn : overspend 0 (sortedBy Movement.key (movements.map (Movement.under cid pid))) =
        (overspend 0 (sortedBy Movement.key movements)).map (Movement.under cid pid) := by
      rw [sorted, overspend_under]
    dsimp only [Except.map, Bind.bind, Except.bind]
    rw [drawn]
    cases overspend 0 (sortedBy Movement.key movements) <;> rfl

theorem locationContinuity_under :
    locationContinuityIssues clock (legs.map (Leg.under cid pid)) = locationContinuityIssues clock legs := by
  have places : sortedBy (fun place => place.1.key)
        (groupBy Leg.place ((legs.map (Leg.under cid pid)).filter Leg.moves)) =
      (sortedBy (fun place => place.1.key) (groupBy Leg.place (legs.filter Leg.moves))).map
        (Prod.map id (map (Leg.under cid pid))) := by
    have grouped : groupBy Leg.place ((legs.filter Leg.moves).map (Leg.under cid pid)) =
        (groupBy Leg.place (legs.filter Leg.moves)).map (Prod.map id (map (Leg.under cid pid))) :=
      groupBy_map Leg.place (Leg.under cid pid) (legs.filter Leg.moves)
    rw [filter_under cid pid (fun _ => rfl) legs, grouped]
    exact sortedBy_map (fun place : PlaceKey × List Leg => place.1.key) _ _
  unfold locationContinuityIssues
  dsimp only
  rw [places, List.mapM_map]
  simp only [comp_def, Prod.map_snd, continuityIssue_under]

/-! ### Balances, suspense and conversions -/

theorem amounts_under : amounts (legs.map (Leg.under cid pid)) = amounts legs := by
  unfold amounts
  rw [map_map]
  rfl

theorem quantityResiduals_under :
    quantityResiduals (legs.map (Leg.under cid pid)) = quantityResiduals legs := by
  unfold quantityResiduals
  rw [map_map]
  rfl

theorem valuationResiduals_under :
    valuationResiduals (legs.map (Leg.under cid pid)) = valuationResiduals legs := by
  unfold valuationResiduals
  rw [filterMap_map]
  rfl

theorem exists_under {p : Leg → Prop} (blind : ∀ leg, p (leg.under cid pid) ↔ p leg) (legs : List Leg) :
    (∃ leg ∈ legs.map (Leg.under cid pid), p leg) ↔ ∃ leg ∈ legs, p leg := by
  constructor
  · rintro ⟨leg, member, holds⟩
    obtain ⟨old, oldMember, rfl⟩ := mem_map.1 member
    exact ⟨old, oldMember, (blind old).1 holds⟩
  · rintro ⟨leg, member, holds⟩
    exact ⟨_, mem_map_of_mem member, (blind leg).2 holds⟩

theorem occurrence_under :
    occurrenceIssues clock (legs.map (Leg.under cid pid)) = occurrenceIssues clock legs := by
  unfold occurrenceIssues flag
  congr 1
  · congr 1
    · exact if_congr (exists_under cid pid (fun _ => Iff.rfl) legs) rfl rfl
    · exact if_congr (exists_under cid pid (fun _ => Iff.rfl) legs) rfl rfl
  · exact if_congr (exists_under cid pid (fun _ => Iff.rfl) legs) rfl rfl

theorem suspenseAllocation_under (allocation : Allocation) :
    suspenseAllocationIssues clock (legs.map (Leg.under cid pid)) allocation =
      suspenseAllocationIssues clock legs allocation := by
  unfold suspenseAllocationIssues
  rw [legNamed_under, legNamed_under]
  cases legNamed legs allocation.sinkLegId <;> cases legNamed legs allocation.sourceLegId <;> rfl

theorem suspense_under :
    suspenseIssues clock header (legs.map (Leg.under cid pid)) allocations =
      suspenseIssues clock header legs allocations := by
  unfold suspenseIssues
  dsimp only
  rw [filter_under cid pid (fun _ => rfl) legs]
  have each : suspenseAllocationIssues clock (legs.map (Leg.under cid pid)) =
      suspenseAllocationIssues clock legs := funext fun allocation =>
    suspenseAllocation_under cid pid clock legs allocation
  simp only [map_eq_nil_iff, flatMap_map, each]
  rfl

theorem retainedContinuations_under : retainedContinuations (legs.map (Leg.under cid pid)) =
    (retainedContinuations legs).map (Leg.under cid pid) := by
  unfold retainedContinuations
  rw [positiveSources_under, filter_under cid pid (fun _ => rfl) legs]
  match positiveSources legs with
  | [] => rfl
  | [source] => exact filter_under cid pid (fun _ => rfl) _
  | _ :: _ :: _ => rfl

theorem under_mem {legs : List Leg} (distinct : (legs.map Leg.id).Nodup) {some : List Leg} (inside : ∀ leg ∈ some, leg ∈ legs)
    {leg : Leg} (member : leg ∈ legs) :
    leg.under cid pid ∈ some.map (Leg.under cid pid) ↔ leg ∈ some := by
  rw [mem_map]
  constructor
  · rintro ⟨other, listed, same⟩
    have ids : (other.under cid pid).id = (leg.under cid pid).id := by rw [same]
    exact inj_on_of_nodup_map distinct (inside other listed) member ids ▸ listed
  · exact fun listed => ⟨leg, listed, rfl⟩

def resized (legs continuations : List Leg) (allocation : Allocation) : Bool :=
  (match legNamed legs allocation.sinkLegId with
    | some sink => decide (sink ∈ continuations)
    | none => false) && decide (allocation.sourceAmountMsat ≠ allocation.sinkAmountMsat)

theorem conversionIssues_eq :
    conversionIssues header legs allocations =
      flag ((positiveSources legs).length ≠ 1 ∨ (conversionTopology legs).1.length ≠ 1) "conversion_topology_unsupported" ++
      flag ((conversionTopology legs).2 ≠ [] ∧ allocations.filter (resized legs (conversionTopology legs).2) ≠ [])
        "conversion_retained_quantity_mismatch"
        ((allocations.filter (resized legs (conversionTopology legs).2)).map Allocation.id) ++
      flag (header.conversionReviewed = false) "conversion_not_reviewed" ++
      flag (strip (header.conversionPolicy.getD "") = "") "conversion_policy_missing" ++
      flag (∃ leg ∈ legs, (0 < leg.amountMsat ∨ 0 < leg.valuationAmount.getD 0) ∧
        (leg.valuationUnit = none ∨ leg.valuationAmount = none)) "conversion_valuation_missing" ++
      flag (valuationResiduals legs = []) "conversion_valuation_missing" ++
      flag (∃ row ∈ valuationResiduals legs, row.2 ≠ 0) "unbalanced_conversion_valuation" := rfl

theorem retainedContinuations_inside {legs : List Leg} : ∀ leg ∈ retainedContinuations legs, leg ∈ legs := by
  intro leg member
  unfold retainedContinuations at member
  split at member
  · exact (mem_filter.1 (mem_filter.1 member).1).1
  · cases member

section
variable {legs : List Leg} (distinct : (legs.map Leg.id).Nodup)
include distinct

theorem conversionOutputs_under : conversionOutputs (legs.map (Leg.under cid pid)) =
    (conversionOutputs legs).map (Leg.under cid pid) := by
  unfold conversionOutputs
  dsimp only
  rw [positiveSources_under, filter_under cid pid (fun _ => rfl) legs,
    filter_under cid pid (fun _ => rfl) legs, retainedContinuations_under]
  have sold : ((legs.filter fun leg => leg.role = .retained ∧ 0 < leg.amountMsat).map (Leg.under cid pid)).filter
        (fun leg => leg ∉ (retainedContinuations legs).map (Leg.under cid pid)) =
      ((legs.filter fun leg => leg.role = .retained ∧ 0 < leg.amountMsat).filter fun leg =>
        leg ∉ retainedContinuations legs).map (Leg.under cid pid) := by
    rw [filter_map]
    congr 1
    refine filter_congr fun leg listed => ?_
    show decide (leg.under cid pid ∉ (retainedContinuations legs).map (Leg.under cid pid)) = _
    simp only [under_mem cid pid distinct retainedContinuations_inside (mem_filter.1 listed).1]
  match positiveSources legs with
  | [] => simp
  | [source] =>
    rw [map_append]
    exact congrArg (List.append _) sold
  | _ :: _ :: _ => simp

theorem conversionTopology_under : conversionTopology (legs.map (Leg.under cid pid)) =
    ((conversionTopology legs).1.map (Leg.under cid pid), (conversionTopology legs).2.map (Leg.under cid pid)) := by
  unfold conversionTopology
  rw [conversionOutputs_under cid pid distinct, retainedContinuations_under]
  match conversionOutputs legs, retainedContinuations legs with
  | [], [] => rfl
  | [], _ :: _ => rfl
  | _ :: _, _ => rfl

omit distinct in
theorem conversionTopology_inside : ∀ leg ∈ (conversionTopology legs).2, leg ∈ legs := by
  have inside := @retainedContinuations_inside legs
  unfold conversionTopology
  split
  · rename_i first rest _ found
    exact fun leg member => inside leg (found ▸ mem_cons_of_mem _ member)
  · exact inside

theorem resized_under (allocation : Allocation) :
    resized (legs.map (Leg.under cid pid)) ((conversionTopology legs).2.map (Leg.under cid pid))
        allocation = resized legs (conversionTopology legs).2 allocation := by
  unfold resized
  rw [legNamed_under]
  cases found : legNamed legs allocation.sinkLegId with
  | none => rfl
  | some sink =>
    dsimp only [Option.map_some]
    simp only [under_mem cid pid distinct conversionTopology_inside (legNamed_mem found)]

theorem conversion_under (header : ReviewHeader) (allocations : List Allocation) :
    conversionIssues header (legs.map (Leg.under cid pid)) allocations =
      conversionIssues header legs allocations := by
  have changed : resized (legs.map (Leg.under cid pid))
      ((conversionTopology legs).2.map (Leg.under cid pid)) = resized legs (conversionTopology legs).2 :=
    funext (resized_under cid pid distinct)
  rw [conversionIssues_eq, conversionIssues_eq, conversionTopology_under cid pid distinct, changed,
    positiveSources_under, valuationResiduals_under]
  simp only [length_map, ne_eq, map_eq_nil_iff]
  congr 3
  exact if_congr (exists_under cid pid (fun _ => Iff.rfl) legs) rfl rfl

end

theorem ends_under (allocation : Allocation) :
    allocation.ends (legs.map (Leg.under cid pid)) =
      (allocation.ends legs).map (Prod.map (Leg.under cid pid) (Leg.under cid pid)) := by
  unfold Allocation.ends
  rw [legNamed_under, legNamed_under]
  cases legNamed legs allocation.sourceLegId with
  | none => rfl
  | some source =>
    cases legNamed legs allocation.sinkLegId with
    | none => rfl
    | some sink =>
      show (if source.role = .source ∧ sink.role ≠ .source then _ else _) = _
      dsimp only
      split <;> rfl

theorem allocationIssues_under (allocation : Allocation) :
    allocationIssues (legs.map (Leg.under cid pid)) mode allocation = allocationIssues legs mode allocation := by
  unfold allocationIssues
  rw [ends_under]
  cases allocation.ends legs <;> rfl

theorem validAllocations_under :
    validAllocations (legs.map (Leg.under cid pid)) allocations = validAllocations legs allocations := by
  unfold validAllocations
  refine filter_congr fun allocation _ => ?_
  rw [ends_under, Option.isSome_map]

/-- The source that an allocation charges with a fee, or with other value. -/
def charged (legs : List Leg) (fee : Bool) (allocation : Allocation) : Option String :=
  (allocation.ends legs).bind fun ends =>
    if 0 < allocation.sourceAmountMsat ∧ decide (ends.2.role = .fee) = fee then some ends.1.id else none

theorem orphans_eq : orphanFeeSources legs allocations =
    sortedSet ((allocations.filterMap (charged legs true)).filter fun id =>
      id ∉ allocations.filterMap (charged legs false)) := rfl

theorem orphans_under :
    orphanFeeSources (legs.map (Leg.under cid pid)) allocations = orphanFeeSources legs allocations := by
  have same : ∀ fee, charged (legs.map (Leg.under cid pid)) fee = charged legs fee := by
    intro fee
    funext allocation
    unfold charged
    rw [ends_under]
    cases allocation.ends legs <;> rfl
  rw [orphans_eq, orphans_eq, same, same]

theorem coverageIssues_under :
    coverageIssues (legs.map (Leg.under cid pid)) allocations = coverageIssues legs allocations := by
  unfold coverageIssues sourceCoverage sinkCoverage
  rw [orphans_under, positiveSources_under, positiveSinks_under, validAllocations_under, flatMap_map, flatMap_map]
  rfl

theorem inferredIssues_under :
    inferredAllocationIssues (legs.map (Leg.under cid pid)) mode = inferredAllocationIssues legs mode := by
  unfold inferredAllocationIssues
  dsimp only
  rw [positiveSources_under, positiveSinks_under, filter_under cid pid (fun _ => rfl) (positiveSinks legs),
    filter_under cid pid (fun _ => rfl) (positiveSinks legs),
    filter_under cid pid (fun _ => rfl) (positiveSinks legs)]
  simp only [length_map, map_map, ne_eq, map_eq_nil_iff]
  congr 1
  match positiveSources legs with
  | [] => rfl
  | [source] => exact flatMap_map _ _ _
  | _ :: _ :: _ => rfl

theorem scopeIssues_under :
    quantityAllocationScopeIssues (legs.map (Leg.under cid pid)) allocations mode =
      quantityAllocationScopeIssues legs allocations mode := by
  cases mode with
  | conversion => rfl
  | quantity =>
    unfold quantityAllocationScopeIssues
    rw [allocationPairs_under, map_map, filterMap_map, filterMap_map]
    rfl

theorem validateAllocations_under :
    validateAllocations (legs.map (Leg.under cid pid)) allocations mode =
      validateAllocations legs allocations mode := by
  have each : allocationIssues (legs.map (Leg.under cid pid)) mode = allocationIssues legs mode :=
    funext (allocationIssues_under cid pid legs mode)
  unfold validateAllocations
  rw [each, coverageIssues_under, inferredIssues_under, scopeIssues_under]

theorem allocationEdges_under :
    allocationEdges (legs.map (Leg.under cid pid)) allocations mode = allocationEdges legs allocations mode := by
  unfold allocationEdges
  rw [allocationPairs_under, filter_map, map_map]
  rfl

theorem placeEdges_under : placeEdges (legs.map (Leg.under cid pid)) = placeEdges legs := by
  have grouped : groupBy Leg.place ((legs.filter Leg.moves).map (Leg.under cid pid)) =
      (groupBy Leg.place (legs.filter Leg.moves)).map (Prod.map id (map (Leg.under cid pid))) :=
    groupBy_map Leg.place (Leg.under cid pid) (legs.filter Leg.moves)
  unfold placeEdges
  rw [filter_under cid pid (fun _ => rfl) legs, grouped, flatMap_map]
  refine congrArg (flatMap · _) (funext fun place => ?_)
  match place with
  | (_, []) => rfl
  | (_, first :: rest) => exact map_map

theorem domainsOf_under : domainsOf (legs.map (Leg.under cid pid)) = domainsOf legs := by
  unfold domainsOf
  rw [filterMap_map]
  rfl

theorem connectivity_under :
    quantityScopeConnectivityIssues (legs.map (Leg.under cid pid)) allocations mode = [] ↔
      quantityScopeConnectivityIssues legs allocations mode = [] := by
  cases mode with
  | conversion => exact Iff.rfl
  | quantity =>
    unfold quantityScopeConnectivityIssues
    dsimp only
    rw [filter_under cid pid (fun _ => rfl) legs, allocationEdges_under, placeEdges_under,
      groupBy_map, filterMap_map, filterMap_eq_nil_iff, filterMap_eq_nil_iff]
    refine forall₂_congr fun route _ => ?_
    show (if (domainsOf (route.2.map (Leg.under cid pid))).length ≤ 1 then none else some _) = none ↔ _
    rw [domainsOf_under]
    by_cases one : (domainsOf route.2).length ≤ 1 <;> simp [one]

/-! ### A clean component stays clean -/

theorem balance_under {legs : List Leg} (distinct : (legs.map Leg.id).Nodup) (header : ReviewHeader)
    (allocations : List Allocation) :
    balanceIssues header (legs.map (Leg.under cid pid)) allocations = balanceIssues header legs allocations := by
  unfold balanceIssues
  cases header.conservationMode with
  | quantity =>
    dsimp only
    rw [quantityResiduals_under]
  | conversion => exact conversion_under cid pid distinct header allocations

theorem conservation_clean_under {legs : List Leg} (distinct : (legs.map Leg.id).Nodup)
    (clock : String → Option Int) (header : ReviewHeader) (allocations : List Allocation) :
    validateConservation clock header (legs.map (Leg.under cid pid)) allocations = .ok [] ↔
      validateConservation clock header legs allocations = .ok [] := by
  have roles := @exists_under cid pid (fun leg => leg.role ∉ legRoles) (fun _ => Iff.rfl) legs
  have total : ∀ p : Leg → Bool, (∀ leg, p (leg.under cid pid) = p leg) →
      amounts ((legs.map (Leg.under cid pid)).filter p) = amounts (legs.filter p) := by
    intro p blind
    rw [filter_under cid pid blind legs, amounts_under]
  have sources := total (fun leg => leg.role = .source) (fun _ => rfl)
  have owned := total (fun leg => leg.role = .destination ∨ leg.role = .retained) (fun _ => rfl)
  unfold validateConservation
  simp only [roles]
  split
  · exact Iff.rfl
  rw [chronology_under, locationContinuity_under]
  simp only [bind_ok, pure_ok, append_eq_nil_iff, sources, owned, suspense_under, occurrence_under, balance_under cid pid distinct, validateAllocations_under,
    connectivity_under, map_eq_nil_iff]

theorem scopedLeg_under (leg : Leg) :
    imported.scopedLeg (leg.under cid pid) = (imported.scopedLeg leg).under cid pid := by
  have same : imported.evidence (leg.under cid pid) = imported.evidence leg := rfl
  unfold Imported.scopedLeg
  rw [same]
  cases imported.evidence leg <;> rfl

theorem scopedLegs_under : (legs.map (Leg.under cid pid)).map imported.scopedLeg =
    (legs.map imported.scopedLeg).map (Leg.under cid pid) := by
  rw [map_map, map_map]
  exact map_congr_left fun leg _ => scopedLeg_under cid pid imported leg

namespace Tables

theorem coverageOf_under (partialLegs : List String) (transaction : String) :
    coverageOf imported (legs.map (Leg.under cid pid)) partialLegs transaction =
      coverageOf imported legs partialLegs transaction := by
  unfold coverageOf
  cases imported.transactions transaction with
  | none => rfl
  | some row =>
    have covered : ∀ anchored : List Leg,
        coveredAmount row (anchored.map (Leg.under cid pid)) = coveredAmount row anchored := by
      intro anchored
      unfold coveredAmount
      rw [filter_under cid pid (fun _ => rfl) anchored, amounts_under]
    dsimp only
    rw [filter_under cid pid (fun _ => rfl) legs, covered, any_map]
    rfl

theorem suspenseFee_under (source : String) :
    suspenseFeeIssues imported (legs.map (Leg.under cid pid)) allocations source =
      suspenseFeeIssues imported legs allocations source := by
  have roles : ∀ id, (legNamed (legs.map (Leg.under cid pid)) id).map Leg.role = (legNamed legs id).map Leg.role := by
    intro id
    rw [legNamed_under]
    cases legNamed legs id <;> rfl
  have read : ((legNamed (legs.map (Leg.under cid pid)) source).bind fun leg =>
      (present leg.transactionId).bind imported.transactions) =
        (legNamed legs source).bind fun leg => (present leg.transactionId).bind imported.transactions := by
    rw [legNamed_under]
    cases legNamed legs source <;> rfl
  unfold suspenseFeeIssues
  simp only [roles, read]

theorem liveTransactions_under :
    liveTransactions (legs.map (Leg.under cid pid)) = liveTransactions legs := by
  unfold liveTransactions
  rw [filterMap_map]
  rfl

theorem anchors_clean_under (partialLegs : List String) :
    anchorIssues imported (legs.map (Leg.under cid pid)) allocations mode partialLegs = .ok [] ↔
      anchorIssues imported legs allocations mode partialLegs = .ok [] := by
  have each : (legs.map (Leg.under cid pid)).flatMap (legAnchorIssues imported) =
      legs.flatMap (legAnchorIssues imported) := flatMap_map _ _ _
  have chronology : scopedChronologyIssues imported (legs.map (Leg.under cid pid)) allocations mode =
      scopedChronologyIssues imported legs allocations mode := by
    cases mode with
    | conversion => rfl
    | quantity =>
      unfold scopedChronologyIssues
      rw [scopedLegs_under, chronology_under]
  have fees : suspenseFeeIssues imported (legs.map (Leg.under cid pid)) allocations =
      suspenseFeeIssues imported legs allocations :=
    funext (suspenseFee_under cid pid imported legs allocations)
  have coverage : coverageOf imported (legs.map (Leg.under cid pid)) partialLegs =
      coverageOf imported legs partialLegs := funext (coverageOf_under cid pid imported legs partialLegs)
  unfold anchorIssues
  simp only [bind_ok, pure_ok, append_eq_nil_iff, each, chronology, fees, coverage, liveTransactions_under,
    scopedLegs_under, scopeIssues_under, connectivity_under]

end Tables

/-! ### Allocations stored under a component -/

def Allocation.under (allocation : Allocation) : Allocation := { allocation with componentId := cid }

theorem pairs_stored :
    allocationPairs legs (allocations.map (Allocation.under cid)) mode = allocationPairs legs allocations mode := by
  unfold allocationPairs
  simp only [ne_eq, map_eq_nil_iff, filterMap_map]
  rfl

theorem edges_stored :
    allocationEdges legs (allocations.map (Allocation.under cid)) mode = allocationEdges legs allocations mode := by
  unfold allocationEdges
  rw [pairs_stored]

theorem chronology_stored : allocationChronologyIssues clock legs (allocations.map (Allocation.under cid)) mode =
      allocationChronologyIssues clock legs allocations mode := by
  unfold allocationChronologyIssues
  rw [pairs_stored]

theorem connectivity_stored :
    quantityScopeConnectivityIssues legs (allocations.map (Allocation.under cid)) mode =
      quantityScopeConnectivityIssues legs allocations mode := by
  cases mode with
  | conversion => rfl
  | quantity =>
    unfold quantityScopeConnectivityIssues
    dsimp only
    rw [edges_stored]

theorem scopeIssues_stored :
    quantityAllocationScopeIssues legs (allocations.map (Allocation.under cid)) mode =
      quantityAllocationScopeIssues legs allocations mode := by
  cases mode with
  | conversion => rfl
  | quantity =>
    unfold quantityAllocationScopeIssues
    rw [pairs_stored]

theorem suspense_stored :
    suspenseIssues clock header legs (allocations.map (Allocation.under cid)) =
      suspenseIssues clock header legs allocations := by
  unfold suspenseIssues
  simp only [map_eq_nil_iff, flatMap_map]
  rfl

theorem conversion_stored :
    conversionIssues header legs (allocations.map (Allocation.under cid)) =
      conversionIssues header legs allocations := by
  have changed : (allocations.map (Allocation.under cid)).filter (resized legs (conversionTopology legs).2) =
      (allocations.filter (resized legs (conversionTopology legs).2)).map (Allocation.under cid) := filter_map
  rw [conversionIssues_eq, conversionIssues_eq, changed]
  simp only [ne_eq, map_eq_nil_iff, map_map]
  rfl

theorem validateAllocations_stored :
    validateAllocations legs (allocations.map (Allocation.under cid)) mode =
      validateAllocations legs allocations mode := by
  have valid : validAllocations legs (allocations.map (Allocation.under cid)) =
      (validAllocations legs allocations).map (Allocation.under cid) := filter_map
  have sources : sourceCoverage legs (allocations.map (Allocation.under cid)) = sourceCoverage legs allocations := by
    funext id
    unfold sourceCoverage
    rw [valid, map_map]
    rfl
  have sinks : sinkCoverage legs (allocations.map (Allocation.under cid)) = sinkCoverage legs allocations := by
    funext id
    unfold sinkCoverage
    rw [valid, map_map]
    rfl
  have orphans : orphanFeeSources legs (allocations.map (Allocation.under cid)) = orphanFeeSources legs allocations := by
    rw [orphans_eq, orphans_eq, filterMap_map, filterMap_map]
    rfl
  unfold validateAllocations coverageIssues
  rw [sources, sinks, orphans, scopeIssues_stored, flatMap_map]
  simp only [ne_eq, map_eq_nil_iff]
  rfl

theorem conservation_stored :
    validateConservation clock header legs (allocations.map (Allocation.under cid)) =
      validateConservation clock header legs allocations := by
  have balance : balanceIssues header legs (allocations.map (Allocation.under cid)) =
      balanceIssues header legs allocations := by
    unfold balanceIssues
    rw [conversion_stored]
  unfold validateConservation
  rw [chronology_stored, suspense_stored, balance, validateAllocations_stored, connectivity_stored]

theorem anchors_stored (partialLegs : List String) :
    Tables.anchorIssues imported legs (allocations.map (Allocation.under cid)) mode partialLegs =
      Tables.anchorIssues imported legs allocations mode partialLegs := by
  have chronology : Tables.scopedChronologyIssues imported legs (allocations.map (Allocation.under cid)) mode =
      Tables.scopedChronologyIssues imported legs allocations mode := by
    cases mode with
    | conversion => rfl
    | quantity => exact chronology_stored cid imported.clock _ allocations .quantity
  have fees : Tables.suspenseFeeIssues imported legs (allocations.map (Allocation.under cid)) =
      Tables.suspenseFeeIssues imported legs allocations := by
    funext source
    have own : (allocations.map (Allocation.under cid)).filter (fun allocation => allocation.sourceLegId = source) =
        (allocations.filter fun allocation => allocation.sourceLegId = source).map (Allocation.under cid) :=
      filter_map
    unfold Tables.suspenseFeeIssues
    dsimp only
    rw [own, map_map]
    have any : ∀ own : List Allocation, (∃ allocation ∈ own.map (Allocation.under cid),
        (legNamed legs allocation.sinkLegId).map Leg.role = some .suspense) ↔
          ∃ allocation ∈ own, (legNamed legs allocation.sinkLegId).map Leg.role = some .suspense := by
      intro own
      constructor
      · rintro ⟨allocation, member, role⟩
        obtain ⟨old, oldMember, rfl⟩ := mem_map.1 member
        exact ⟨old, oldMember, role⟩
      · rintro ⟨allocation, member, role⟩
        exact ⟨_, mem_map_of_mem member, role⟩
    simp only [any]
    rfl
  have sources : (allocations.map (Allocation.under cid)).map Allocation.sourceLegId =
      allocations.map Allocation.sourceLegId := map_map
  unfold Tables.anchorIssues
  simp only [chronology, fees, sources, scopeIssues_stored, connectivity_stored]

end

end Kassiber.Custody.Book

import Kassiber.Lib.Clusters
import Kassiber.Custody.Arbitration

/-!
Two sources must not consume one inbound msat.
-/

namespace Kassiber.Custody
open Lib.Sorting Lib.Clusters List

/-- A decision that lost its claim: it keeps its source and no destination. -/
def ArbitratedSlice.demote (d : ArbitratedSlice) (reason : String) (ids : List String) : ArbitratedSlice :=
  { d with
    state := .conflicting
    reason := reason
    selectedClaimId := none
    target := none
    destinationKind := none
    externalEconomicSubtype := none
    contenderClaimIds := ids }

/-- What reconciliation does to a decision: nothing, or it demotes it. -/
def Reconciled (before after : ArbitratedSlice) : Prop :=
  after = before ∨ ∃ reason ids, after = before.demote reason ids

theorem Reconciled.source {before after : ArbitratedSlice} (step : Reconciled before after) :
    after.source = before.source := by
  rcases step with rfl | ⟨_, _, rfl⟩ <;> rfl

theorem Reconciled.trans {a b c : ArbitratedSlice} (first : Reconciled a b) (second : Reconciled b c) :
    Reconciled a c := by
  rcases second with rfl | ⟨reason, ids, rfl⟩
  · exact first
  · rcases first with rfl | ⟨_, _, rfl⟩
    · exact .inr ⟨reason, ids, rfl⟩
    · exact .inr ⟨reason, ids, rfl⟩

theorem Reconciled.kept {before after : ArbitratedSlice} (step : Reconciled before after)
    (selects : after.selectedClaimId ≠ none ∨ after.target ≠ none ∨ after.state ≠ .conflicting) : after = before := by
  rcases step with same | ⟨_, _, rfl⟩
  · exact same
  · simp [ArbitratedSlice.demote] at selects

abbrev Targeted := QuantitySlice × ArbitratedSlice × Nat

def targetedDecisions (decisions : List ArbitratedSlice) : List Targeted :=
  decisions.zipIdx.filterMap fun entry => entry.1.target.map fun t => (t, entry)

def targetClusters (decisions : List ArbitratedSlice) : List (List Targeted) :=
  (groupBy (fun x : Targeted => x.1.observationHash) (targetedDecisions decisions)).flatMap fun group =>
    clusters (fun x : Targeted => x.1.startMsat) (fun x : Targeted => x.1.endMsat) (-1)
      (sortedBy (fun x : Targeted => toLex x.1.range) group.2)

/-- The claims selected by the conflicting cluster that holds the decision at `place`. -/
def overlapContenders (decisions : List ArbitratedSlice) (place : Nat) : List String :=
  sortedSet (((targetClusters decisions).filter fun cluster =>
      2 ≤ cluster.length ∧ place ∈ cluster.map fun x => x.2.2).flatMap fun cluster =>
    cluster.filterMap fun x => x.2.1.selectedClaimId.filter fun id => id ≠ "")

def failClosedDestinationOverlaps (decisions : List ArbitratedSlice) : List ArbitratedSlice :=
  decisions.zipIdx.map fun entry =>
    let ids := overlapContenders decisions entry.2
    if ids ≠ [] then entry.1.demote "destination_slice_claimed_twice" ids else entry.1

theorem overlaps_getElem? (decisions : List ArbitratedSlice) (i : Nat) :
    (failClosedDestinationOverlaps decisions)[i]? = decisions[i]?.map fun d =>
      if overlapContenders decisions i ≠ [] then
        d.demote "destination_slice_claimed_twice" (overlapContenders decisions i) else d := by
  simp [failClosedDestinationOverlaps, getElem?_map, getElem?_zipIdx, Option.map_map, Function.comp_def]

theorem reconciled_zipIdx {f : ArbitratedSlice × Nat → ArbitratedSlice}
    (step : ∀ entry, Reconciled entry.1 (f entry)) (decisions : List ArbitratedSlice) (first : Nat) :
    Forall₂ Reconciled decisions ((decisions.zipIdx first).map f) := by
  induction decisions generalizing first with
  | nil => exact .nil
  | cons d rest ih =>
    rw [zipIdx_cons, map_cons]
    exact .cons (step (d, first)) (ih (first + 1))

theorem overlaps_reconciled (decisions : List ArbitratedSlice) :
    Forall₂ Reconciled decisions (failClosedDestinationOverlaps decisions) := by
  refine reconciled_zipIdx ?_ decisions 0
  intro entry
  dsimp only
  split
  · exact .inr ⟨_, _, rfl⟩
  · exact .inl rfl

variable {before after : List ArbitratedSlice}

theorem reconciled_trans {between : List ArbitratedSlice} (first : Forall₂ Reconciled before between)
    (second : Forall₂ Reconciled between after) : Forall₂ Reconciled before after := by
  induction first generalizing after with
  | nil =>
    cases second
    exact .nil
  | cons head _ ih =>
    cases second with
    | cons next later => exact .cons (head.trans next) (ih later)

theorem reconciled_sources (steps : Forall₂ Reconciled before after) :
    after.map (·.source) = before.map (·.source) := by
  induction steps with
  | nil => rfl
  | cons head _ ih => rw [map_cons, map_cons, head.source, ih]

variable {e d : ArbitratedSlice}

theorem reconciled_origin (steps : Forall₂ Reconciled before after)
    (member : e ∈ after) : ∃ d ∈ before, Reconciled d e := by
  induction steps with
  | nil => cases member
  | cons head _ ih =>
    rcases mem_cons.1 member with rfl | later
    · exact ⟨_, .head _, head⟩
    · obtain ⟨d, present, step⟩ := ih later
      exact ⟨d, .tail _ present, step⟩

def QuantitySlice.Apart (t u : QuantitySlice) : Prop :=
  t.observationHash = u.observationHash → t.endMsat ≤ u.startMsat ∨ u.endMsat ≤ t.startMsat

variable {decisions : List ArbitratedSlice}

theorem mem_targetedDecisions {t : QuantitySlice} {i : Nat} :
    (t, d, i) ∈ targetedDecisions decisions ↔ decisions[i]? = some d ∧ d.target = some t := by
  simp only [targetedDecisions, mem_filterMap, Option.map_eq_some_iff]
  constructor
  · rintro ⟨⟨e, j⟩, member, u, present, same⟩
    cases same
    exact ⟨mk_mem_zipIdx_iff_getElem?.1 member, present⟩
  · rintro ⟨found, present⟩
    exact ⟨(d, i), mk_mem_zipIdx_iff_getElem?.2 found, t, present, rfl⟩

theorem overlap_contends {i j : Nat} {t u : QuantitySlice}
    {id : String} (different : i ≠ j) (first : decisions[i]? = some d) (second : decisions[j]? = some e)
    (firstTarget : d.target = some t) (secondTarget : e.target = some u) (overlap : ¬t.Apart u)
    (selects : d.selectedClaimId = some id) (named : id ≠ "") : id ∈ overlapContenders decisions i := by
  simp only [QuantitySlice.Apart, Classical.not_imp, not_or, not_le] at overlap
  obtain ⟨same, tu, ut⟩ := overlap
  have memberD := mem_targetedDecisions.2 ⟨first, firstTarget⟩
  have memberE := mem_targetedDecisions.2 ⟨second, secondTarget⟩
  have group := exists_group (fun x : Targeted => x.1.observationHash) memberD
  have ordered : (sortedBy (fun x : Targeted => toLex x.1.range)
      ((targetedDecisions decisions).filter fun x => x.1.observationHash = t.observationHash)).Pairwise
        (fun x y => x.1.startMsat ≤ y.1.startMsat) :=
    (sortedBy_pairwise _ _).imp fun {x y} le => by
      rcases (Prod.Lex.toLex_le_toLex).1 le with less | ⟨equal, -⟩
      · exact le_of_lt less
      · exact le_of_eq equal
  have insideD : (t, d, i) ∈ sortedBy (fun x : Targeted => toLex x.1.range)
      ((targetedDecisions decisions).filter fun x => x.1.observationHash = t.observationHash) :=
    mem_sortedBy.2 (mem_filter.2 ⟨memberD, by simp⟩)
  have insideE : (u, e, j) ∈ sortedBy (fun x : Targeted => toLex x.1.range)
      ((targetedDecisions decisions).filter fun x => x.1.observationHash = t.observationHash) :=
    mem_sortedBy.2 (mem_filter.2 ⟨memberE, by simp [same]⟩)
  obtain ⟨cluster, swept, heldD, heldE⟩ := overlapping_share_cluster (fun x : Targeted => x.1.endMsat) (-1) ordered
    insideD insideE ut tu
  have clustered : cluster ∈ targetClusters decisions := mem_flatMap.2 ⟨_, group, swept⟩
  have crowded : 2 ≤ cluster.length := by
    by_contra few
    have single : cluster.length = 1 := by
      have := length_pos_of_mem heldD
      omega
    obtain ⟨x, only⟩ := length_eq_one_iff.1 single
    rw [only, mem_singleton] at heldD heldE
    exact different (congrArg (fun x : Targeted => x.2.2) (heldD.trans heldE.symm))
  refine mem_sortedSet.2 (mem_flatMap.2 ⟨cluster, mem_filter.2 ⟨clustered, ?_⟩, ?_⟩)
  · simpa using ⟨crowded, t, d, heldD⟩
  · refine mem_filterMap.2 ⟨(t, d, i), heldD, ?_⟩
    simp [selects, named]

theorem overlaps_apart (claimed : ∀ d ∈ decisions, d.target ≠ none → ∃ id, d.selectedClaimId = some id ∧ id ≠ "") :
    ((failClosedDestinationOverlaps decisions).filterMap (·.target)).Pairwise QuantitySlice.Apart := by
  rw [pairwise_filterMap, pairwise_iff_getElem]
  intro i j hi hj less t survivesT u survivesU
  have kept : ∀ (k : Nat) (hk : k < (failClosedDestinationOverlaps decisions).length) (s : QuantitySlice),
      ((failClosedDestinationOverlaps decisions)[k]).target = some s →
      ∃ d, decisions[k]? = some d ∧ d.target = some s ∧ overlapContenders decisions k = [] := by
    intro k hk s survives
    have found := getElem?_eq_getElem hk
    rw [overlaps_getElem?] at found
    obtain ⟨d, stored, result⟩ := Option.map_eq_some_iff.1 found
    rw [← result] at survives
    split at survives
    · cases survives
    · rename_i quiet
      exact ⟨d, stored, survives, not_not.1 quiet⟩
  obtain ⟨d, storedD, targetD, quiet⟩ := kept i hi t survivesT
  obtain ⟨e, storedE, targetE, -⟩ := kept j hj u survivesU
  by_contra overlap
  obtain ⟨id, selects, named⟩ := claimed d (mem_of_getElem? storedD) (by simp [targetD])
  have contends := overlap_contends (Nat.ne_of_lt less) storedD storedE targetD targetE overlap selects named
  rw [quiet] at contends
  cases contends

end Kassiber.Custody

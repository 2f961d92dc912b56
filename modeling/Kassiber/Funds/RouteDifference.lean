import Kassiber.Lib.Dict
import Kassiber.Lib.Sorting

/-!
The difference between what a reviewed route requires upstream and its target, and when a report calls it
network fees.
-/

namespace Kassiber.Funds.RouteDifference
open Lib.Dict Lib.Sorting
open Bool (not_eq_true)
open List hiding lookup
open Prod (fst snd)

structure ReportRow where
  id : String
  amount : Int
  fee : Option Int
  privacyBoundary : Option String

structure TxNode where
  id : String
  transactionId : String
  amountMsat : Int
  feeMsat : Int
  requiredAmountMsat : Option Int
  privacyBoundary : Option String := none

def txNode (row : ReportRow) (requiredMsat : Option Int) : TxNode :=
  { id := "tx:" ++ row.id, transactionId := row.id, amountMsat := row.amount, feeMsat := row.fee.getD 0,
    requiredAmountMsat := requiredMsat }

structure ReportEdge where
  parent : String
  child : String
  allocationAmountMsat : Option Int
  fromAllocationAmountMsat : Option Int

/-- What the traversal leaves: rows by node id, edges, and the sources by asset and type. -/
structure Traced where
  rows : List (String × ReportRow × Option Int)
  edges : List ReportEdge
  sourceMix : List ((String × String) × Int)
  targetAsset : String
  targetAmountMsat : Int

def Traced.rowAt (traced : Traced) (node : String) : Option ReportRow := (lookup traced.rows node).map fst

def Traced.nodeAt (traced : Traced) (node : String) : Option TxNode :=
  (lookup traced.rows node).map fun entry => txNode entry.1 entry.2

def grossByAsset (traced : Traced) : List (String × Int) :=
  (groupBy (fun entry : (String × String) × Int => entry.1.1) traced.sourceMix).map fun group =>
    (group.1, (group.2.map snd).sum)

def routeDifferenceMsat (traced : Traced) : Option Int :=
  match grossByAsset traced with
  | [(asset, gross)] => if asset = traced.targetAsset then some (gross - traced.targetAmountMsat) else none
  | _ => none

/-- What an edge takes from its source beyond what it brings to its target; no source amount means an equal one. -/
def ReportEdge.consumed (edge : ReportEdge) : Int :=
  let allocation := edge.allocationAmountMsat.getD 0
  let fromAllocation := edge.fromAllocationAmountMsat.getD 0
  (if fromAllocation = 0 then allocation else fromAllocation) - allocation

def incoming (traced : Traced) : List ReportEdge := traced.edges.filter fun edge => (traced.nodeAt edge.child).isSome

def consumedByNode (traced : Traced) : List (String × Int) :=
  (groupBy ReportEdge.child (incoming traced)).map fun group => (group.1, (group.2.map ReportEdge.consumed).sum)

def hops (traced : Traced) : List (String × Int) := (consumedByNode traced).filter fun entry => entry.2 ≠ 0

structure Explanation where
  kind : String
  feeMsat : Int
  hopCount : Nat
  deriving DecidableEq

def disqualified (traced : Traced) (hop : String × Int) : Bool :=
  decide (hop.2 < 0) || (traced.nodeAt hop.1).any (fun node => node.privacyBoundary.any (· ≠ "")) ||
    decide (hop.2 ≠ ((traced.nodeAt hop.1).map TxNode.feeMsat).getD 0)

def routeDifferenceExplanation (traced : Traced) : Option Explanation :=
  match routeDifferenceMsat traced with
  | none => none
  | some difference =>
    if difference ≤ 0 ∨ (incoming traced).any (fun edge => edge.allocationAmountMsat.isNone) ∨
        (hops traced).any (disqualified traced) then none
    else
      let total := ((hops traced).map snd).sum
      if hops traced = [] ∨ total ≠ difference then none
      else some { kind := "network_fees", feeMsat := total, hopCount := (hops traced).length }

def consumedAt (traced : Traced) (node : String) : Int :=
  ((traced.edges.filter fun edge => edge.child = node).map ReportEdge.consumed).sum

def recordedFee (traced : Traced) (node : String) : Int := ((traced.rowAt node).bind ReportRow.fee).getD 0

def nodeIds (traced : Traced) : List String := (traced.rows.map fst).dedup

def bounded (row : ReportRow) : Bool := row.privacyBoundary.any (· ≠ "")

/-- The recorded fees account for a positive difference: each node takes nothing or exactly its fee. -/
structure FeesClose (traced : Traced) (difference : Int) : Prop where
  route : routeDifferenceMsat traced = some difference
  positive : 0 < difference
  total : difference = ((nodeIds traced).map (consumedAt traced)).sum
  fees : ∀ node ∈ nodeIds traced, consumedAt traced node ≠ 0 → consumedAt traced node = recordedFee traced node

/-- No node that takes something stands on a row with a privacy boundary. -/
def Unbounded (traced : Traced) : Prop :=
  ∀ node ∈ nodeIds traced, consumedAt traced node ≠ 0 → ∀ row, traced.rowAt node = some row → bounded row = false

def Provable (traced : Traced) : Prop := (∃ difference, FeesClose traced difference) ∧ Unbounded traced

/-- The route closes on its recorded fees, all edges into transactions state an allocation and none brings more than
it takes. -/
structure Accounted (traced : Traced) : Prop where
  stated : ∀ edge ∈ incoming traced, edge.allocationAmountMsat.isSome = true
  close : ∃ difference, FeesClose traced difference
  losing : ∀ node ∈ nodeIds traced, 0 ≤ consumedAt traced node

variable {traced : Traced}

variable {node : String}

theorem nodeAt_isSome : (traced.nodeAt node).isSome = true ↔ node ∈ nodeIds traced := by
  rw [Traced.nodeAt, Option.isSome_map, lookup_isSome, nodeIds, mem_dedup]

theorem incoming_at (known : node ∈ nodeIds traced) :
    (incoming traced).filter (fun edge => edge.child = node) = traced.edges.filter fun edge => edge.child = node := by
  rw [incoming, filter_filter]
  refine filter_congr fun edge _ => ?_
  by_cases same : edge.child = node
  · simp [same, nodeAt_isSome.2 known]
  · simp [same]

theorem mem_hops {consumed : Int} :
    (node, consumed) ∈ hops traced ↔ node ∈ nodeIds traced ∧ consumed = consumedAt traced node ∧ consumed ≠ 0 := by
  simp only [hops, consumedByNode, mem_filter, mem_map, decide_eq_true_eq, Prod.exists, Prod.mk.injEq]
  constructor
  · rintro ⟨⟨child, edges, grouped, rfl, rfl⟩, nonzero⟩
    obtain ⟨rfl, present⟩ := mem_groupBy.1 grouped
    obtain ⟨edge, listed, rfl⟩ := mem_map.1 present
    have known := nodeAt_isSome.1 (mem_filter.1 listed).2
    refine ⟨known, ?_, nonzero⟩
    rw [consumedAt, ← incoming_at known]
  · rintro ⟨known, rfl, nonzero⟩
    refine ⟨⟨node, _, mem_groupBy.2 ⟨rfl, ?_⟩, rfl, by rw [incoming_at known]; rfl⟩, nonzero⟩
    by_contra absent
    refine nonzero ?_
    rw [consumedAt, ← incoming_at known, filter_eq_nil_iff.2]
    · rfl
    · exact fun edge member same => absent (mem_map.2 ⟨edge, member, of_decide_eq_true same⟩)

theorem hops_total : ((hops traced).map snd).sum = ((nodeIds traced).map (consumedAt traced)).sum := by
  have distinct : ((hops traced).map fst).Nodup := by
    refine (filter_sublist.map fst).nodup ?_
    rw [consumedByNode, map_map]
    exact groupBy_keys_nodup ReportEdge.child (incoming traced)
  have values : (hops traced).map snd = ((hops traced).map fst).map (consumedAt traced) := by
    rw [map_map]
    exact map_congr_left fun hop member => (mem_hops.1 member).2.1
  have perm : ((hops traced).map fst).Perm ((nodeIds traced).filter fun node => consumedAt traced node ≠ 0) := by
    refine (perm_ext_iff_of_nodup distinct ((nodup_dedup _).filter _)).2 fun node => ?_
    simp only [mem_map, Prod.exists, exists_and_right, exists_eq_right, mem_filter, decide_eq_true_eq]
    constructor
    · rintro ⟨consumed, member⟩
      obtain ⟨known, rfl, nonzero⟩ := mem_hops.1 member
      exact ⟨known, nonzero⟩
    · rintro ⟨known, nonzero⟩
      exact ⟨_, mem_hops.2 ⟨known, rfl, nonzero⟩⟩
  rw [values, (perm.map _).sum_eq]
  generalize nodeIds traced = nodes
  induction nodes with
  | nil => rfl
  | cons node rest ih =>
    rw [map_cons, sum_cons, ← ih]
    by_cases zero : consumedAt traced node = 0
    · simp [zero]
    · simp [zero]

theorem disqualified_iff (known : node ∈ nodeIds traced) (nonzero : consumedAt traced node ≠ 0) :
    disqualified traced (node, consumedAt traced node) = false ↔
      consumedAt traced node = recordedFee traced node ∧ 0 < consumedAt traced node := by
  obtain ⟨entry, found⟩ := Option.isSome_iff_exists.1 (lookup_isSome.2 (mem_dedup.1 known))
  have fee : (traced.nodeAt node).map TxNode.feeMsat = some (recordedFee traced node) := by
    simp [Traced.nodeAt, recordedFee, Traced.rowAt, found, txNode]
  have silent : (traced.nodeAt node).any (fun n => n.privacyBoundary.any (· ≠ "")) = false := by
    simp [Traced.nodeAt, found, txNode]
  simp only [disqualified, fee, silent, Option.getD_some, Bool.or_false, Bool.or_eq_false_iff, decide_eq_false_iff_not,
    not_not, not_lt]
  omega

theorem qualified_iff : (hops traced).any (disqualified traced) = false ↔
    ∀ node ∈ nodeIds traced, 0 ≤ consumedAt traced node ∧
      (consumedAt traced node ≠ 0 → consumedAt traced node = recordedFee traced node) := by
  rw [any_eq_false]
  constructor
  · intro none node known
    by_cases zero : consumedAt traced node = 0
    · exact ⟨zero.ge, absurd zero⟩
    · have fine := none _ (mem_hops.2 ⟨known, rfl, zero⟩)
      rw [not_eq_true, disqualified_iff known zero] at fine
      exact ⟨fine.2.le, fun _ => fine.1⟩
  · rintro all ⟨node, consumed⟩ member
    obtain ⟨known, rfl, nonzero⟩ := mem_hops.1 member
    obtain ⟨nonneg, fee⟩ := all node known
    rw [not_eq_true, disqualified_iff known nonzero]
    exact ⟨fee nonzero, lt_of_le_of_ne nonneg (Ne.symm nonzero)⟩

theorem explained_iff : (∃ explanation, routeDifferenceExplanation traced = some explanation) ↔ Accounted traced := by
  unfold routeDifferenceExplanation
  constructor
  · rintro ⟨explanation, given⟩
    cases route : routeDifferenceMsat traced with
    | none => simp [route] at given
    | some difference =>
      simp only [route] at given
      split_ifs at given with refused unequal
      simp only [not_or, not_le, not_eq_true, not_not] at refused unequal
      obtain ⟨positive, stated, qualified⟩ := refused
      have each := qualified_iff.1 qualified
      refine ⟨fun edge member => ?_, ⟨difference, route, positive, ?_, fun node known => (each node known).2⟩,
        fun node known => (each node known).1⟩
      · have here := any_eq_false.1 stated edge member
        rwa [not_eq_true, Option.isNone_eq_false_iff] at here
      · rw [← hops_total, unequal.2]
  · rintro ⟨stated, ⟨difference, route, positive, total, fees⟩, losing⟩
    have clear : ¬ (difference ≤ 0 ∨ (incoming traced).any (fun edge => edge.allocationAmountMsat.isNone) = true ∨
        (hops traced).any (disqualified traced) = true) := by
      rw [not_or, not_or, not_le, not_eq_true, not_eq_true]
      refine ⟨positive, any_eq_false.2 fun edge member => ?_, qualified_iff.2 fun node known =>
        ⟨losing node known, fees node known⟩⟩
      rw [not_eq_true, Option.isNone_eq_false_iff]
      exact stated edge member
    have some_hop : ¬ (hops traced = [] ∨ ((hops traced).map snd).sum ≠ difference) := by
      rw [not_or, not_not, hops_total]
      refine ⟨fun empty => positive.ne' ?_, total.symm⟩
      rw [total, ← hops_total, empty]
      rfl
    simp only [route, if_neg clear, if_neg some_hop]
    exact ⟨_, rfl⟩

/-- A difference that is explained is provably a fee exactly on the routes that do not close on their recorded fees
through a privacy boundary. -/
theorem explanation_provable_iff :
    (∀ explanation, routeDifferenceExplanation traced = some explanation → Provable traced) ↔
      (Accounted traced → Unbounded traced) := by
  constructor
  · intro proves accounted
    obtain ⟨explanation, given⟩ := explained_iff.2 accounted
    exact (proves explanation given).2
  · intro unbounded explanation given
    have accounted := explained_iff.1 ⟨explanation, given⟩
    exact ⟨accounted.close, unbounded accounted⟩

/-- A purchase brought into a coinjoin that records the fee between what it took and what it holds. -/
def coinjoinHop : Traced where
  rows := [("tx:mix", { id := "mix", amount := 100000000, fee := some 500000, privacyBoundary := some "coinjoin" },
    some 100000000)]
  edges := [{ parent := "source:buy", child := "tx:mix", allocationAmountMsat := some 100000000,
              fromAllocationAmountMsat := some 100500000 }]
  sourceMix := [(("BTC", "fiat_purchase"), 100500000)]
  targetAsset := "BTC"
  targetAmountMsat := 100000000

theorem explanation_ignores_privacy_boundary :
    routeDifferenceExplanation coinjoinHop = some { kind := "network_fees", feeMsat := 500000, hopCount := 1 } ∧
      ¬ Provable coinjoinHop := by
  refine ⟨by decide +kernel, fun provable => ?_⟩
  have silent := provable.2 "tx:mix" (by decide +kernel) (by decide +kernel) _ rfl
  revert silent
  decide +kernel

end Kassiber.Funds.RouteDifference

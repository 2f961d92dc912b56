import Kassiber.Lib.Text
import Kassiber.Transfers.Agreement
import Kassiber.Transfers.ComponentFlow

/-!
What a booked component conserves. A component with several sources is booked along distinct edges and always
conserves; one with a single source is booked record by record, and conserves when no two records share an edge.
-/

namespace Kassiber.Transfers
open Lib.Dict Lib.Outcome Lib.Sorting Lib.Sums Lib.Text Lib.Ranking
open List hiding lookup
open Prod (fst snd)

theorem absorbFee_spec {remaining : Int} (nonneg : 0 ≤ remaining) (bases : List Int) :
    (absorbFee remaining bases).1.length = bases.length ∧ (∀ part ∈ (absorbFee remaining bases).1, 0 ≤ part) ∧
      0 ≤ (absorbFee remaining bases).2 ∧ (absorbFee remaining bases).1.sum + (absorbFee remaining bases).2 = remaining := by
  induction bases generalizing remaining with
  | nil => exact ⟨rfl, by simp [absorbFee], nonneg, by simp [absorbFee]⟩
  | cons base rest ih =>
    have portion : 0 ≤ (if remaining ≤ 0 then 0 else min (max 0 base) remaining) ∧
        (if remaining ≤ 0 then 0 else min (max 0 base) remaining) ≤ remaining := by
      split <;> omega
    unfold absorbFee
    dsimp only
    generalize (if remaining ≤ 0 then 0 else min (max 0 base) remaining) = part at portion
    obtain ⟨length, parts, left, sum⟩ := ih (sub_nonneg.2 portion.2)
    refine ⟨by rw [length_cons, length, length_cons], ?_, left, ?_⟩
    · exact forall_mem_cons.2 ⟨portion.1, parts⟩
    · rw [sum_cons]
      omega

theorem addToLast_length (extra : Int) (parts : List Int) : (addToLast extra parts).length = parts.length := by
  induction parts using addToLast.induct with
  | case1 => rfl
  | case2 => rfl
  | case3 x y rest ih =>
    rw [addToLast, length_cons, ih]
    rfl

theorem addToLast_sum (extra : Int) {parts : List Int} (nonempty : parts ≠ []) :
    (addToLast extra parts).sum = parts.sum + extra := by
  induction parts using addToLast.induct with
  | case1 => exact absurd rfl nonempty
  | case2 => simp [addToLast]
  | case3 x y rest ih =>
    have later := ih (cons_ne_nil _ _)
    rw [addToLast, sum_cons, later, ← add_assoc]
    rfl

theorem addToLast_nonneg {extra : Int} (nonneg : 0 ≤ extra) {parts : List Int} (each : ∀ part ∈ parts, 0 ≤ part) :
    ∀ part ∈ addToLast extra parts, 0 ≤ part := by
  induction parts using addToLast.induct with
  | case1 => exact each
  | case2 x => simpa [addToLast] using add_nonneg (each x mem_cons_self) nonneg
  | case3 x y rest ih =>
    obtain ⟨first, later⟩ := forall_mem_cons.1 each
    exact forall_mem_cons.2 ⟨first, ih later⟩

theorem allocateFeeMsat_spec (totalFee : Int) (bases : List Int) :
    (allocateFeeMsat totalFee bases).length = bases.length ∧ (∀ part ∈ allocateFeeMsat totalFee bases, 0 ≤ part) ∧
      (bases ≠ [] → (allocateFeeMsat totalFee bases).sum = max 0 totalFee) := by
  obtain ⟨length, parts, left, sum⟩ := absorbFee_spec (le_max_left 0 totalFee) bases
  unfold allocateFeeMsat
  dsimp only
  split
  · refine ⟨by rw [addToLast_length, length], addToLast_nonneg left parts, fun nonempty => ?_⟩
    have legs : (absorbFee (max 0 totalFee) bases).1 ≠ [] := fun none =>
      nonempty (length_eq_zero_iff.1 (by rw [← length, none]; rfl))
    rw [addToLast_sum _ legs, sum]
  · rename_i settled
    refine ⟨length, parts, fun _ => ?_⟩
    omega

theorem trimExcess_length (excess : Int) (amounts : List Int) : (trimExcess excess amounts).length = amounts.length := by
  induction amounts generalizing excess with
  | nil => rfl
  | cons amount rest ih =>
    unfold trimExcess
    split
    · rfl
    · dsimp only
      rw [length_cons, ih, length_cons]

theorem clampedComponentReceiptsMsat_length (sent : Int) (received : List Int) :
    (clampedComponentReceiptsMsat sent received).length = received.length := by
  unfold clampedComponentReceiptsMsat
  dsimp only
  split
  · rw [length_map]
  · rw [length_reverse, trimExcess_length, length_reverse, length_map]

section
variable (orderedPairs : List Pair)

theorem adjusted_keys : (adjustedReceivedByInId orderedPairs).map fst = (inRowsById orderedPairs).map fst := by
  unfold adjustedReceivedByInId
  rw [map_fst_zip]
  rw [clampedComponentReceiptsMsat_length, length_map, length_map]

def receipts : Amounts where
  entries := adjustedReceivedByInId orderedPairs
  distinct := by rw [adjusted_keys]; exact items_nodup _

def outflows : Amounts where
  entries := sourceSentMsat orderedPairs
  distinct := by
    unfold sourceSentMsat sourceEvidenceByOutId
    rw [map_map, map_map]
    exact items_nodup _

def explicitFees : Amounts where
  entries := sourceExplicitFeeMsat orderedPairs
  distinct := by
    unfold sourceExplicitFeeMsat sourceEvidenceByOutId
    rw [map_map, map_map]
    exact items_nodup _

variable {orderedPairs}

theorem mem_items_keys {β : Type*} {entries : List (String × β)} {id : String} :
    id ∈ (items entries).map fst ↔ id ∈ entries.map fst := by
  have keyed : (lookup entries id).isSome = true ↔ id ∈ entries.map fst := lookup_isSome
  rw [← keyed, Option.isSome_iff_exists]
  constructor
  · intro member
    obtain ⟨⟨key, value⟩, inside, rfl⟩ := mem_map.1 member
    exact ⟨value, mem_items.1 inside⟩
  · rintro ⟨value, found⟩
    exact mem_map.2 ⟨(id, value), mem_items.2 found, rfl⟩

theorem mem_receipts_ids {id : String} : id ∈ (receipts orderedPairs).ids ↔ id ∈ orderedPairs.map (·.inRow.id) := by
  have keys : (receipts orderedPairs).entries.map fst = (inRowsById orderedPairs).map fst :=
    adjusted_keys orderedPairs
  rw [Amounts.ids, mem_toFinset, keys, inRowsById, mem_items_keys, map_map]
  rfl

theorem mem_outRows_ids {id : String} : id ∈ (outRowsById orderedPairs).map fst ↔
    id ∈ orderedPairs.map (·.outRow.id) := by
  rw [outRowsById, mem_items_keys, map_map]
  rfl

theorem sourceEvidence_outflow {entry : String × Evidence} (member : entry ∈ sourceEvidenceByOutId orderedPairs) :
    (entry.1, entry.2.sent) ∈ (outflows orderedPairs).entries :=
  mem_map.2 ⟨entry, member, rfl⟩

end

/-- Distinct transfers that carry every source's outflow and every destination's receipt. -/
structure BookedExactly (component : List Pair) (transfers : List Transfer) : Prop where
  ids : (transfers.map (·.transferId)).Nodup
  sent : ∀ entry ∈ sourceEvidenceByOutId (orderedPairComponent component),
    ((transfers.filter fun transfer => transfer.outTransactionId = entry.1).map (·.sent)).sum = entry.2.sent
  received : ∀ entry ∈ adjustedReceivedByInId (orderedPairComponent component),
    ((transfers.filter fun transfer => transfer.inTransactionId = entry.1).map (·.received)).sum = entry.2
  balanced : ∀ transfer ∈ transfers, transfer.sent = transfer.received + transfer.fee ∧ 0 ≤ transfer.fee

section
variable {orderedPairs : List Pair}

theorem map_zip_left {α β γ : Type*} {xs : List α} {ys : List β} (lengths : ys.length = xs.length) (f : α → γ) :
    ((xs.zip ys).map fun entry => f entry.1) = xs.map f := by
  conv_rhs => rw [← map_fst_zip lengths.ge, map_map]
  rfl

theorem map_zip_right {α β : Type*} {xs : List α} {ys : List β} (lengths : ys.length = xs.length) :
    ((xs.zip ys).map fun entry => entry.2) = ys :=
  map_snd_zip lengths.le

theorem single_source {entry : String × Row} (single : outRowsById orderedPairs = [entry]) {pair : Pair}
    (member : pair ∈ orderedPairs) : pair.outRow.id = entry.1 := by
  have inside : pair.outRow.id ∈ (outRowsById orderedPairs).map fst := mem_outRows_ids.2 (mem_map_of_mem member)
  rw [single, map_singleton, mem_singleton] at inside
  exact inside

theorem single_fees_length (orderedPairs : List Pair) :
    (allocateFeeMsat (totalSentMsat orderedPairs - totalReceivedMsat orderedPairs)
      (orderedPairs.map (adjustedReceipt orderedPairs))).length = orderedPairs.length := by
  rw [(allocateFeeMsat_spec _ _).1, length_map]

theorem single_transferIds : (singleSourceTransfers orderedPairs).map (·.transferId) = orderedPairs.map fun pair =>
    some (componentGroupId orderedPairs ++ ":" ++ pair.outRow.id ++ "->" ++ pair.inRow.id) := by
  unfold singleSourceTransfers
  dsimp only
  rw [map_map]
  exact map_zip_left (single_fees_length orderedPairs) fun pair =>
    some (componentGroupId orderedPairs ++ ":" ++ pair.outRow.id ++ "->" ++ pair.inRow.id)

theorem single_received : (singleSourceTransfers orderedPairs).map
    (fun transfer => (transfer.inTransactionId, transfer.received)) =
    orderedPairs.map fun pair => (pair.inRow.id, (receipts orderedPairs).of pair.inRow.id) := by
  unfold singleSourceTransfers
  dsimp only
  rw [map_map]
  exact map_zip_left (single_fees_length orderedPairs) fun pair =>
    (pair.inRow.id, (receipts orderedPairs).of pair.inRow.id)

theorem single_sent (nonempty : orderedPairs ≠ []) (balanced : totalReceivedMsat orderedPairs ≤ totalSentMsat orderedPairs) :
    ((singleSourceTransfers orderedPairs).map (·.sent)).sum =
      (orderedPairs.map fun pair => (receipts orderedPairs).of pair.inRow.id).sum +
        (totalSentMsat orderedPairs - totalReceivedMsat orderedPairs) := by
  have fees := (allocateFeeMsat_spec (totalSentMsat orderedPairs - totalReceivedMsat orderedPairs)
    (orderedPairs.map (adjustedReceipt orderedPairs))).2.2 (by simpa using nonempty)
  have split : (singleSourceTransfers orderedPairs).map (·.sent) =
      (orderedPairs.zip (allocateFeeMsat (totalSentMsat orderedPairs - totalReceivedMsat orderedPairs)
        (orderedPairs.map (adjustedReceipt orderedPairs)))).map fun entry =>
          adjustedReceipt orderedPairs entry.1 + entry.2 := by
    unfold singleSourceTransfers
    dsimp only
    rw [map_map]
    rfl
  rw [split, sum_map_add, map_zip_left (single_fees_length orderedPairs), map_zip_right (single_fees_length orderedPairs),
    fees, max_eq_right (sub_nonneg.2 balanced)]
  rfl

theorem single_booked {entry : String × Row} (single : outRowsById orderedPairs = [entry])
    (balanced : totalReceivedMsat orderedPairs ≤ totalSentMsat orderedPairs)
    (distinct : (orderedPairs.map (·.inRow.id)).Nodup) :
    (∀ source ∈ sourceEvidenceByOutId orderedPairs,
      (((singleSourceTransfers orderedPairs).filter fun transfer => transfer.outTransactionId = source.1).map (·.sent)).sum =
        source.2.sent) ∧
    ∀ receipt ∈ adjustedReceivedByInId orderedPairs,
      (((singleSourceTransfers orderedPairs).filter fun transfer => transfer.inTransactionId = receipt.1).map
        (·.received)).sum = receipt.2 := by
  have keys : (orderedPairs.map (·.inRow.id)).Perm ((receipts orderedPairs).entries.map fst) := by
    refine (perm_ext_iff_of_nodup distinct (receipts orderedPairs).distinct).2 fun id => ?_
    rw [← mem_receipts_ids, Amounts.ids, mem_toFinset]
  have delivered : (orderedPairs.map fun pair => (pair.inRow.id, (receipts orderedPairs).of pair.inRow.id)).Perm
      (receipts orderedPairs).entries := by
    have paired := keys.map fun id => (id, (receipts orderedPairs).of id)
    rw [map_map, map_map] at paired
    refine paired.trans (List.Perm.of_eq ?_)
    conv_rhs => rw [← map_id (receipts orderedPairs).entries]
    exact map_congr_left fun receipt member => Prod.ext rfl (Amounts.of_entry member)
  have nonempty : orderedPairs ≠ [] := by
    rintro rfl
    cases single
  constructor
  · intro source member
    have evidence : sourceEvidenceByOutId orderedPairs = [(entry.1, outboundTransferEvidenceMsat entry.2)] := by
      rw [sourceEvidenceByOutId, single, map_singleton]
    have total : totalSentMsat orderedPairs = source.2.sent := by
      rw [evidence, mem_singleton] at member
      rw [totalSentMsat, evidence, map_singleton, sum_singleton, member]
    rw [evidence, mem_singleton] at member
    have own : ∀ transfer ∈ singleSourceTransfers orderedPairs, transfer.outTransactionId = source.1 := by
      intro transfer inside
      obtain ⟨⟨pair, fee⟩, zipped, rfl⟩ := mem_map.1 inside
      rw [member]
      exact single_source single (of_mem_zip zipped).1
    have receivedTotal := (delivered.map snd).sum_eq
    rw [map_map] at receivedTotal
    rw [filter_eq_self.2 fun transfer inside => decide_eq_true (own transfer inside),
      single_sent nonempty balanced, ← total]
    have same : (orderedPairs.map fun pair => (receipts orderedPairs).of pair.inRow.id).sum = totalReceivedMsat orderedPairs :=
      receivedTotal
    rw [same]
    omega
  · intro receipt member
    have projected : (((singleSourceTransfers orderedPairs).filter fun transfer =>
        transfer.inTransactionId = receipt.1).map (·.received)) =
        (((singleSourceTransfers orderedPairs).map fun transfer => (transfer.inTransactionId, transfer.received)).filter
          fun entry => entry.1 = receipt.1).map snd := by
      rw [filter_map, map_map]
      rfl
    rw [projected, single_received, ((delivered.filter _).map snd).sum_eq]
    exact (Amounts.sum_entries id rfl receipt.1).trans (Amounts.of_entry member)

end

section
variable {orderedPairs : List Pair} {allocation : Allocation}

def sourceFlows (orderedPairs : List Pair) (allocation : Allocation) (outId : String) : List (Pair × Int) :=
  (allocation.principal.filter fun flow => flow.1 = outId).filterMap fun flow =>
    (lookup (firstPairByEdge orderedPairs) (flow.1, flow.2.1)).map fun pair => (pair, flow.2.2)

theorem firstPairByEdge_edge {edge : String × String} {pair : Pair}
    (found : lookup (firstPairByEdge orderedPairs) edge = some pair) : pair.edge = edge := by
  have inv : ∀ entry ∈ firstPairByEdge orderedPairs, entry.2.edge = entry.1 := by
    refine foldl_prefix (fun _ (entries : List ((String × String) × Pair)) => ∀ entry ∈ entries, entry.2.edge = entry.1)
      (fun _ member => nomatch member) fun _ pair _ entries _ held entry member => ?_
    split at member
    · exact held entry member
    · rcases mem_append.1 member with old | new
      · exact held entry old
      · rw [mem_singleton.1 new]
  exact inv _ (mem_of_lookup found)

theorem sourceFlows_edges
    (known : ∀ flow ∈ allocation.principal, (flow.1, flow.2.1) ∈ (firstPairByEdge orderedPairs).map fst)
    (outId : String) :
    ((sourceFlows orderedPairs allocation outId).map fun flow => (flow.1.outRow.id, flow.1.inRow.id, flow.2)) =
      allocation.principal.filter fun flow => flow.1 = outId := by
  unfold sourceFlows
  generalize flows : (allocation.principal.filter fun flow => flow.1 = outId) = own
  have paired : ∀ flow ∈ own, ∃ pair, lookup (firstPairByEdge orderedPairs) (flow.1, flow.2.1) = some pair := by
    intro flow member
    rw [← flows] at member
    exact lookup_first_edge (known flow (mem_filter.1 member).1)
  clear flows
  induction own with
  | nil => rfl
  | cons flow rest ih =>
    obtain ⟨pair, found⟩ := paired flow (.head _)
    have edge := firstPairByEdge_edge found
    have later := ih fun other member => paired other (.tail _ member)
    rw [filterMap_cons, found]
    dsimp only [Option.map_some]
    rw [map_cons, later]
    obtain ⟨out, into⟩ := Prod.mk.inj edge
    exact congrArg (· :: rest) (Prod.ext out (Prod.ext into rfl))

theorem sourceLegs_length (outId : String) :
    (allocateFeeMsat ((lookup allocation.feeBySource outId).getD 0)
      ((sourceFlows orderedPairs allocation outId).map snd)).length = (sourceFlows orderedPairs allocation outId).length := by
  rw [(allocateFeeMsat_spec _ _).1, length_map]

def componentLegs (orderedPairs : List Pair) (allocation : Allocation) : List ((Pair × Int) × Int) :=
  (outRowsById orderedPairs).flatMap fun entry => sourceLegs orderedPairs allocation entry.1

theorem multi_map {γ : Type*} (f : Transfer → γ) (g : (Pair × Int) × Int → γ)
    (reads : ∀ leg price transferId groupId, f (transferOf leg.1.1 leg.1.2 leg.2 price transferId groupId) = g leg) :
    (multiSourceTransfers orderedPairs allocation).map f = (componentLegs orderedPairs allocation).map g := by
  unfold multiSourceTransfers
  dsimp only
  conv_rhs => rw [← zipIdx_map_fst 0 (componentLegs orderedPairs allocation), map_map]
  rw [map_map]
  exact map_congr_left fun entry _ => reads entry.1 _ _ _

variable (allocates : Allocates (outflows orderedPairs) (explicitFees orderedPairs) (receipts orderedPairs)
  (knownEdges (outflows orderedPairs) (receipts orderedPairs) ((firstPairByEdge orderedPairs).map fst)) allocation)
include allocates

theorem flow_known {flow : String × String × Int} (member : flow ∈ allocation.principal) :
    (flow.1, flow.2.1) ∈ (firstPairByEdge orderedPairs).map fst ∧ flow.1 ∈ (outRowsById orderedPairs).map fst := by
  obtain ⟨edge, source⟩ := Finset.mem_filter.1 (allocates.reviewed flow member).1
  refine ⟨mem_toFinset.1 edge, ?_⟩
  have key := mem_toFinset.1 source.1
  unfold outflows sourceSentMsat sourceEvidenceByOutId at key
  rw [map_map, map_map] at key
  exact key

theorem sourceFlows_own {outId : String} {flow : Pair × Int} (member : flow ∈ sourceFlows orderedPairs allocation outId) :
    flow.1.outRow.id = outId := by
  have listed : (flow.1.outRow.id, flow.1.inRow.id, flow.2) ∈ (sourceFlows orderedPairs allocation outId).map
      fun flow => (flow.1.outRow.id, flow.1.inRow.id, flow.2) := mem_map_of_mem member
  rw [sourceFlows_edges (fun flow inside => (flow_known allocates inside).1)] at listed
  exact of_decide_eq_true (mem_filter.1 listed).2

theorem multi_received {receipt : String × Int} (member : receipt ∈ adjustedReceivedByInId orderedPairs) :
    (((multiSourceTransfers orderedPairs allocation).filter fun transfer => transfer.inTransactionId = receipt.1).map
      (·.received)).sum = receipt.2 := by
  have legs : (multiSourceTransfers orderedPairs allocation).map (fun transfer => (transfer.inTransactionId, transfer.received)) =
      ((outRowsById orderedPairs).map fst).flatMap fun outId =>
        (allocation.principal.filter fun flow => some flow.1 = some outId).map snd := by
    rw [multi_map _ (fun leg => (leg.1.1.inRow.id, leg.1.2)) fun _ _ _ _ => rfl, componentLegs, map_flatMap,
      flatMap_map]
    refine flatMap_congr fun entry _ => ?_
    have flows := congrArg (map snd)
      (sourceFlows_edges (fun flow inside => (flow_known allocates inside).1) entry.1)
    rw [map_map] at flows
    simp only [Option.some.injEq]
    rw [← flows]
    exact map_zip_left (sourceLegs_length entry.1) fun flow => (flow.1.inRow.id, flow.2)
  have perm : (((outRowsById orderedPairs).map fst).flatMap fun outId =>
      (allocation.principal.filter fun flow => some flow.1 = some outId).map snd).Perm
        (allocation.principal.map snd) := by
    have covered : ∀ flow ∈ allocation.principal, ∀ outId, some flow.1 = some outId →
        outId ∈ (outRowsById orderedPairs).map fst := by
      intro flow inside outId same
      cases same
      exact (flow_known allocates inside).2
    have fibers := (flatMap_fibers_perm (items_nodup _) covered).map snd
    have everything : (allocation.principal.filter fun flow => (some flow.1).isSome) = allocation.principal :=
      filter_eq_self.2 fun _ _ => rfl
    rw [map_flatMap, everything] at fibers
    exact fibers
  have projected : (((multiSourceTransfers orderedPairs allocation).filter fun transfer =>
      transfer.inTransactionId = receipt.1).map (·.received)) =
      (((multiSourceTransfers orderedPairs allocation).map fun transfer =>
        (transfer.inTransactionId, transfer.received)).filter fun entry => entry.1 = receipt.1).map snd := by
    rw [filter_map, map_map]
    rfl
  rw [projected, legs, ((perm.filter _).map snd).sum_eq, filter_map, map_map]
  exact allocates.received receipt member

theorem fee_of_source {source : String × Evidence} (member : source ∈ sourceEvidenceByOutId orderedPairs) :
    0 ≤ (lookup allocation.feeBySource source.1).getD 0 ∧
      allocation.principalOf source.1 + (lookup allocation.feeBySource source.1).getD 0 = source.2.sent := by
  have entry := sourceEvidence_outflow member
  have keyed : (lookup allocation.feeBySource source.1).isSome = true ↔ source.1 ∈ allocation.feeBySource.map fst :=
    lookup_isSome
  rw [allocates.sources] at keyed
  obtain ⟨fee, found⟩ := Option.isSome_iff_exists.1 (keyed.2 (mem_map.2 ⟨_, entry, rfl⟩))
  obtain ⟨spent, explicit⟩ := allocates.spent _ entry fee (mem_of_lookup found)
  have explicitNonneg : 0 ≤ (explicitFees orderedPairs).of source.1 := by
    refine Amounts.of_nonneg (fun given inside => ?_) source.1
    obtain ⟨other, listed, rfl⟩ := mem_map.1 inside
    obtain ⟨row, -, rfl⟩ := mem_map.1 listed
    dsimp only
    unfold outboundTransferEvidenceMsat
    split
    · exact le_rfl
    · exact le_max_left _ _
  rw [found]
  exact ⟨explicitNonneg.trans explicit, spent⟩

theorem multi_sent {source : String × Evidence} (member : source ∈ sourceEvidenceByOutId orderedPairs)
    (kept : ¬ (0 < source.2.sent ∧ allocation.principalOf source.1 ≤ 0)) :
    (((multiSourceTransfers orderedPairs allocation).filter fun transfer => transfer.outTransactionId = source.1).map
      (·.sent)).sum = source.2.sent := by
  obtain ⟨row, listed, rfl⟩ := mem_map.1 member
  have own : ∀ entry ∈ outRowsById orderedPairs, ∀ leg ∈ sourceLegs orderedPairs allocation entry.1,
      leg.1.1.outRow.id = entry.1 :=
    fun entry _ leg inside => sourceFlows_own allocates (of_mem_zip inside).1
  have legs : ((multiSourceTransfers orderedPairs allocation).filter fun transfer => transfer.outTransactionId = row.1).map
      (·.sent) = (sourceLegs orderedPairs allocation row.1).map fun leg => leg.1.2 + leg.2 := by
    have projected : ((multiSourceTransfers orderedPairs allocation).filter fun transfer =>
        transfer.outTransactionId = row.1).map (·.sent) =
        (((multiSourceTransfers orderedPairs allocation).map fun transfer =>
          (transfer.outTransactionId, transfer.sent)).filter fun entry => entry.1 = row.1).map snd := by
      rw [filter_map, map_map]
      rfl
    rw [projected, multi_map _ (fun leg => (leg.1.1.outRow.id, leg.1.2 + leg.2)) fun _ _ _ _ => rfl, filter_map,
      map_map, ← filter_flatMap_key own (items_nodup _) listed]
    rfl
  obtain ⟨feeNonneg, spent⟩ := fee_of_source allocates member
  have principal : ((sourceFlows orderedPairs allocation row.1).map snd).sum = allocation.principalOf row.1 := by
    have flows := congrArg (map fun flow : String × String × Int => flow.2.2)
      (sourceFlows_edges (fun flow inside => (flow_known allocates inside).1) row.1)
    rw [map_map] at flows
    exact congrArg List.sum flows
  rw [legs]
  have split : (sourceLegs orderedPairs allocation row.1).map (fun leg => leg.1.2 + leg.2) =
      ((sourceFlows orderedPairs allocation row.1).zip (allocateFeeMsat ((lookup allocation.feeBySource row.1).getD 0)
        ((sourceFlows orderedPairs allocation row.1).map snd))).map fun leg => leg.1.2 + leg.2 := rfl
  rw [split, sum_map_add, map_zip_left (sourceLegs_length row.1), map_zip_right (sourceLegs_length row.1)]
  by_cases none : sourceFlows orderedPairs allocation row.1 = []
  · rw [none, map_nil, sum_nil] at principal
    have noParts : allocateFeeMsat ((lookup allocation.feeBySource row.1).getD 0) [] = [] :=
      length_eq_zero_iff.1 (allocateFeeMsat_spec _ []).1
    rw [none, map_nil, noParts, sum_nil]
    dsimp only at kept spent feeNonneg ⊢
    omega
  · have parts := (allocateFeeMsat_spec ((lookup allocation.feeBySource row.1).getD 0)
      ((sourceFlows orderedPairs allocation row.1).map snd)).2.2 (by simpa using none)
    rw [parts, max_eq_right feeNonneg, ← spent, ← principal]

omit allocates in
theorem multi_ids : ((multiSourceTransfers orderedPairs allocation).map (·.transferId)).Nodup := by
  unfold multiSourceTransfers
  dsimp only
  rw [map_map]
  refine List.Nodup.map_on (fun entry first other second same => ?_) (List.Nodup.of_map snd ?_)
  · have positions := (last_colon_inj (nat_colonFree _) (nat_colonFree _) (Option.some_injective _ same)).2
    have position : entry.2 = other.2 := Nat.repr_injective positions
    have here := mk_mem_zipIdx_iff_getElem?.1 (show (entry.1, entry.2) ∈ _ from first)
    have there := mk_mem_zipIdx_iff_getElem?.1 (show (other.1, other.2) ∈ _ from second)
    rw [position, there] at here
    exact Prod.ext (Option.some_injective _ here).symm position
  · rw [zipIdx_map_snd]
    exact nodup_range'

omit allocates in
theorem multi_balanced : ∀ transfer ∈ multiSourceTransfers orderedPairs allocation,
    transfer.sent = transfer.received + transfer.fee ∧ 0 ≤ transfer.fee := by
  intro transfer member
  obtain ⟨⟨leg, position⟩, listed, rfl⟩ := mem_map.1 member
  refine ⟨rfl, ?_⟩
  have inside : leg ∈ componentLegs orderedPairs allocation := fst_mem_of_mem_zipIdx listed
  obtain ⟨row, -, zipped⟩ := mem_flatMap.1 inside
  exact (allocateFeeMsat_spec _ _).2.1 _ (of_mem_zip zipped).2

end

theorem single_balanced {orderedPairs : List Pair} : ∀ transfer ∈ singleSourceTransfers orderedPairs,
    transfer.sent = transfer.received + transfer.fee ∧ 0 ≤ transfer.fee := by
  intro transfer member
  obtain ⟨⟨pair, fee⟩, zipped, rfl⟩ := mem_map.1 member
  exact ⟨rfl, (allocateFeeMsat_spec _ _).2.1 _ (of_mem_zip zipped).2⟩

def NoRepeatedRecord (component : List Pair) : Prop :=
  (∀ p ∈ component, ∀ q ∈ component, p.outRow.id = q.outRow.id) → (component.map Pair.edge).Nodup

section
variable {orderedPairs : List Pair}

theorem single_of_uniform (nonempty : orderedPairs ≠ [])
    (uniform : ∀ p ∈ orderedPairs, ∀ q ∈ orderedPairs, p.outRow.id = q.outRow.id) :
    (outRowsById orderedPairs).length = 1 := by
  obtain ⟨first, rest, rfl⟩ := exists_cons_of_ne_nil nonempty
  have all : ∀ id ∈ (outRowsById (first :: rest)).map fst, id = first.outRow.id := by
    intro id member
    obtain ⟨pair, inside, rfl⟩ := mem_map.1 (mem_outRows_ids.1 member)
    exact uniform pair inside first (.head _)
  have present : first.outRow.id ∈ (outRowsById (first :: rest)).map fst :=
    mem_outRows_ids.2 (mem_map_of_mem (.head _))
  have distinct : ((outRowsById (first :: rest)).map fst).Nodup := items_nodup _
  have positive := length_pos_of_mem present
  rw [eq_replicate_of_mem all, nodup_replicate, length_map] at distinct
  rw [length_map] at positive
  omega

theorem single_ids {entry : String × Row} (single : outRowsById orderedPairs = [entry]) :
    ((singleSourceTransfers orderedPairs).map (·.transferId)).Nodup ↔ (orderedPairs.map (·.inRow.id)).Nodup := by
  have ids : (singleSourceTransfers orderedPairs).map (·.transferId) = (orderedPairs.map (·.inRow.id)).map fun inId =>
      some (componentGroupId orderedPairs ++ ":" ++ entry.1 ++ "->" ++ inId) := by
    rw [single_transferIds, map_map]
    refine map_congr_left fun pair member => ?_
    rw [single_source single member]
    rfl
  rw [ids]
  exact nodup_map_iff fun a b same => append_left_cancel (Option.some_injective _ same)

theorem single_edges {entry : String × Row} (single : outRowsById orderedPairs = [entry]) :
    (orderedPairs.map Pair.edge).Nodup ↔ (orderedPairs.map (·.inRow.id)).Nodup := by
  have edges : orderedPairs.map Pair.edge = (orderedPairs.map (·.inRow.id)).map fun inId => (entry.1, inId) := by
    rw [map_map]
    refine map_congr_left fun pair member => ?_
    exact Prod.ext (single_source single member) rfl
  rw [edges]
  exact nodup_map_iff fun a b same => (Prod.mk.inj same).2

end

section
variable {readings : Readings} {rows : List Row} {component : List Pair} {transfers : List Transfer}

theorem bookComponent_exact (booked : bookComponent readings rows component = .ok transfers) :
    BookedExactly component transfers ↔ NoRepeatedRecord component := by
  have perm : (orderedPairComponent component).Perm component := sortedBy_perm _ _
  have condition : NoRepeatedRecord component ↔ NoRepeatedRecord (orderedPairComponent component) := by
    unfold NoRepeatedRecord
    rw [(perm.map _).nodup_iff]
    simp only [perm.mem_iff]
  rw [condition]
  unfold bookComponent at booked
  dsimp only at booked
  split at booked
  · cases booked
  rename_i free
  have balanced := componentBlock_free free
  split at booked
  · rename_i length
    obtain ⟨entry, single⟩ := length_eq_one_iff.1 length
    cases booked
    constructor
    · intro exact' _
      exact (single_edges single).2 ((single_ids single).1 exact'.ids)
    · intro distinct
      have uniform := distinct fun p first q second => (single_source single first).trans (single_source single second).symm
      have destinations := (single_edges single).1 uniform
      obtain ⟨sent, received⟩ := single_booked single balanced destinations
      exact ⟨(single_ids single).2 destinations, sent, received, single_balanced⟩
  · rename_i several
    split at booked
    · cases booked
    rename_i allocation allocated
    cases booked
    obtain ⟨found, kept⟩ := Option.filter_eq_some_iff.1 allocated
    have found' : allocateTransferComponentFlowMsat (outflows (orderedPairComponent component)).entries
        (explicitFees (orderedPairComponent component)).entries (receipts (orderedPairComponent component)).entries
        ((firstPairByEdge (orderedPairComponent component)).map fst)
        (implicitFeeSourceIds (orderedPairComponent component)) = some allocation := found
    obtain ⟨flows, solved, rfl⟩ := allocated_of_component found'
    have allocates := allocates_of_delivers (delivers_of_allocated solved).1
    refine iff_of_true ⟨multi_ids, fun source member => multi_sent allocates member fun bad => ?_,
      fun receipt member => multi_received allocates member, multi_balanced⟩ fun uniform => ?_
    · have dropped : (sourceSentMsat (orderedPairComponent component)).any (fun entry =>
          0 < entry.2 && Allocation.principalOf _ entry.1 ≤ 0) = true :=
        any_eq_true.2 ⟨_, sourceEvidence_outflow member, by simpa using bad⟩
      rw [dropped] at kept
      cases kept
    · by_cases nonempty : orderedPairComponent component = []
      · rw [nonempty]
        exact nodup_nil
      · exact absurd (single_of_uniform nonempty uniform) several

theorem reviewed_components_conserve (readings : Readings) (pairs : List Pair) (rows : List Row) {component : List Pair}
    (member : component ∈ manualMultiPairComponents pairs) {transfers : List Transfer}
    (booked : bookComponent readings rows component = .ok transfers) :
    (∀ transfer ∈ transfers,
      (triggerOf component, transfer) ∈ (buildManualMultiPairTransfers readings pairs rows).transfersByTrigger) ∧
    (BookedExactly component transfers ↔ NoRepeatedRecord component) := by
  refine ⟨fun transfer inside => ?_, bookComponent_exact booked⟩
  rw [(build_collects readings pairs rows).1]
  refine mem_flatMap.2 ⟨component, member, mem_map.2 ⟨transfer, ?_, rfl⟩⟩
  rw [booked]
  exact inside

def receiptOf (id : String) (amount : Int) : Row :=
  { id, walletId := some "w", direction := some "inbound", amount := some amount }

def spentRow : Row := { id := "sent", walletId := some "v", direction := some "outbound", amount := some 60 }

theorem reviewed_components_conserve_fan_out :
    let pairs := [{ outRow := spentRow, inRow := receiptOf "near" 20, pairId := some "1" },
      { outRow := spentRow, inRow := receiptOf "far" 40, pairId := some "2" }]
    ∃ transfers, bookComponent sampleReadings [] pairs = .ok transfers ∧ transfers.length = 2 ∧
      BookedExactly pairs transfers := by
  intro pairs
  have component : pairs ∈ manualMultiPairComponents pairs := by decide +kernel
  have counted : (bookComponent sampleReadings [] pairs).toOption.map List.length = some 2 := by decide +kernel
  obtain ⟨transfers, booked, count⟩ := ok_of_toOption_map counted
  exact ⟨transfers, booked, count,
    (reviewed_components_conserve sampleReadings pairs [] component booked).2.2 fun _ => by decide⟩

/-- Two reviewed records of one edge are booked as two transfers with one id, each with the whole receipt. -/
theorem repeated_record_booked_twice :
    let pairs := [{ outRow := spentRow, inRow := receiptOf "near" 60, pairId := some "1" },
      { outRow := spentRow, inRow := receiptOf "near" 60, pairId := some "2" }]
    pairs ∈ manualMultiPairComponents pairs ∧
      ∃ transfers, bookComponent sampleReadings [] pairs = .ok transfers ∧
        transfers.map (fun transfer => (transfer.transferId, transfer.received)) =
          [(some "manual-multi:1|2:sent->near", 60), (some "manual-multi:1|2:sent->near", 60)] ∧
        ¬ BookedExactly pairs transfers := by
  intro pairs
  refine ⟨by decide +kernel, ?_⟩
  have listed : (bookComponent sampleReadings [] pairs).toOption.map (fun transfers =>
      transfers.map fun transfer => (transfer.transferId, transfer.received)) =
      some [(some "manual-multi:1|2:sent->near", 60), (some "manual-multi:1|2:sent->near", 60)] := by decide +kernel
  obtain ⟨transfers, booked, same⟩ := ok_of_toOption_map listed
  refine ⟨transfers, booked, same, fun exact' => ?_⟩
  have ids := exact'.ids
  have projected : transfers.map (·.transferId) =
      (transfers.map fun transfer => (transfer.transferId, transfer.received)).map fst := by
    rw [map_map]
    rfl
  rw [projected, same] at ids
  exact absurd ids (by decide)

end

end Kassiber.Transfers

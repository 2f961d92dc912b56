import Kassiber.Transfers.Booking
import Kassiber.Austrian.Regimes

/-!
Booking and regime inference split a component in the same way.
-/

namespace Kassiber.Transfers
open Lib.Outcome Lib.Dict Lib.Sorting Austrian
open List hiding lookup
open Prod (fst snd)

structure Split where
  outId : String
  inId : String
  principal : Int
  fee : Int

def Transfer.split (transfer : Transfer) : Split :=
  { outId := transfer.outTransactionId, inId := transfer.inTransactionId, principal := transfer.received
    fee := transfer.fee }

def moveSplit (action : TransferAction) : Split :=
  { outId := action.outRow.id, inId := action.inRow.id, principal := msat action.outRow.amount
    fee := msat action.outRow.fee }

def legSplit (leg : (Pair × Int) × Int) : Split :=
  { outId := leg.1.1.outRow.id, inId := leg.1.1.inRow.id, principal := leg.1.2, fee := leg.2 }

theorem mem_edges_of_flow {supplies demands : List (String × Int)} {edges : List (String × String)}
    {flows : List (String × String × Int)} (found : allocateBipartiteFlowMsat supplies demands edges = some flows)
    {flow : String × String × Int} (member : flow ∈ flows) : (flow.1, flow.2.1) ∈ edges := by
  unfold allocateBipartiteFlowMsat at found
  simp only at found
  split at found
  · cases found
  split at found
  · cases found
  split at found
  · cases found
    cases member
  split at found
  · cases found
  · cases found
    obtain ⟨edge, reviewed, amount⟩ := mem_filterMap.1 member
    split at amount
    · cases amount
      exact mem_eraseDups.1 (mem_filter.1 reviewed).1
    · cases amount

variable {allocation : Allocation} {orderedPairs : List Pair} {readings : Readings} {rows : List Row}

theorem mem_edges_of_principal {sent explicitFees destinations : List (String × Int)} {edges : List (String × String)}
    {implicitIds : List String}
    (found : allocateTransferComponentFlowMsat sent explicitFees destinations edges implicitIds = some allocation)
    {flow : String × String × Int} (member : flow ∈ allocation.principal) : (flow.1, flow.2.1) ∈ edges := by
  unfold allocateTransferComponentFlowMsat at found
  simp only at found
  split at found
  · cases found
  split at found
  · cases found
  split at found
  · cases found
  split at found
  · cases found
  · obtain ⟨flows, allocated, rfl⟩ := Option.map_eq_some_iff.1 found
    obtain ⟨inside, principal⟩ := mem_filter.1 member
    rcases mem_append.1 (mem_edges_of_flow allocated inside) with fee | edge
    · obtain ⟨source, -, same⟩ := mem_map.1 fee
      exact absurd (congrArg snd same).symm (of_decide_eq_true principal)
    · exact edge

theorem lookup_first_edge {edge : String × String}
    (member : edge ∈ (firstPairByEdge orderedPairs).map fst) :
    ∃ pair, lookup (firstPairByEdge orderedPairs) edge = some pair :=
  Option.isSome_iff_exists.1 (lookup_isSome.2 member)

section
variable {pairByEdge : List ((String × String) × Pair)} {outId : String} {flows : List (String × String × Int)}

theorem pairs_amounts (known : ∀ flow ∈ flows, ∃ pair, lookup pairByEdge (flow.1, flow.2.1) = some pair) :
    (flows.filterMap fun flow => (lookup pairByEdge (flow.1, flow.2.1)).map fun pair => (pair, flow.2.2)).map snd =
      (flows.map snd).map snd := by
  induction flows with
  | nil => rfl
  | cons flow rest ih =>
    obtain ⟨pair, found⟩ := known flow (.head _)
    simp only [filterMap_cons, found, Option.map_some, map_cons]
    rw [ih fun other member => known other (mem_cons_of_mem _ member)]

theorem fanOut_splits {trigger : String → String} (own : ∀ flow ∈ flows, flow.1 = outId)
    (known : ∀ flow ∈ flows, ∃ pair, lookup pairByEdge (flow.1, flow.2.1) = some pair) (parts : List Int) :
    ((flows.filterMap fun flow => (lookup pairByEdge (flow.1, flow.2.1)).map fun pair => (pair, flow.2.2)).zip parts).map
        legSplit =
      (((flows.map snd).zip parts).filterMap fun entry =>
        (lookup pairByEdge (outId, entry.1.1)).map fun pair =>
          (trigger entry.1.1,
            ({ outRow := copyRowWithAmount pair.outRow entry.1.2 (some entry.2)
               inRow := copyRowWithAmount pair.inRow entry.1.2, regimeRowId := outId } : TransferAction))).map
        fun entry => moveSplit entry.2 := by
  induction flows generalizing parts with
  | nil => rfl
  | cons flow rest ih =>
    obtain ⟨pair, found⟩ := known flow (.head _)
    have source := own flow (.head _)
    cases parts with
    | nil => simp
    | cons part parts =>
      have named : lookup pairByEdge (outId, flow.2.1) = some pair := source ▸ found
      have later := ih (fun other member => own other (.tail _ member))
        (fun other member => known other (.tail _ member)) parts
      simp only [filterMap_cons, found, named, Option.map_some, map_cons, zip_cons_cons, later]
      rfl

end

theorem single_splits (triggerByOutId : Bool) (orderedPairs : List Pair) :
    (singleSourceTransfers orderedPairs).map Transfer.split =
      (singleSourceMoves triggerByOutId orderedPairs).map fun move => moveSplit move.2 := by
  unfold singleSourceTransfers singleSourceMoves
  simp only [map_map, Function.comp_def]
  rfl

theorem sourceLegs_splits (triggerByOutId : Bool)
    (known : ∀ flow ∈ allocation.principal, (flow.1, flow.2.1) ∈ (firstPairByEdge orderedPairs).map fst)
    (outId : String) :
    (sourceLegs orderedPairs allocation outId).map legSplit =
      (sourceMoves triggerByOutId orderedPairs allocation outId).map fun move => moveSplit move.2 := by
  have paired : ∀ flow ∈ allocation.principal.filter fun flow => flow.1 = outId,
      ∃ pair, lookup (firstPairByEdge orderedPairs) (flow.1, flow.2.1) = some pair :=
    fun flow member => lookup_first_edge (known flow (mem_filter.1 member).1)
  have own : ∀ flow ∈ allocation.principal.filter fun flow => flow.1 = outId, flow.1 = outId :=
    fun flow member => of_decide_eq_true (mem_filter.1 member).2
  simp only [sourceLegs, sourceMoves]
  rw [pairs_amounts paired]
  exact @fanOut_splits _ _ _ (fun inId => if triggerByOutId then outId else inId) own paired _

theorem multi_splits (triggerByOutId : Bool)
    (known : ∀ flow ∈ allocation.principal, (flow.1, flow.2.1) ∈ (firstPairByEdge orderedPairs).map fst) :
    (multiSourceTransfers orderedPairs allocation).map Transfer.split =
      ((outRowsById orderedPairs).flatMap fun entry => sourceMoves triggerByOutId orderedPairs allocation entry.1).map
        fun move => moveSplit move.2 := by
  have legs : (multiSourceTransfers orderedPairs allocation).map Transfer.split =
      ((outRowsById orderedPairs).flatMap fun entry => sourceLegs orderedPairs allocation entry.1).map legSplit := by
    unfold multiSourceTransfers
    generalize ((outRowsById orderedPairs).flatMap fun entry => sourceLegs orderedPairs allocation entry.1) = legs
    conv_rhs => rw [← zipIdx_map_fst 0 legs]
    rw [map_map, map_map]
    rfl
  rw [legs, map_flatMap, map_flatMap]
  refine flatMap_congr fun entry _ => ?_
  exact sourceLegs_splits triggerByOutId known entry.1

theorem componentBlock_free
    (free : componentBlock readings rows orderedPairs = none) :
    totalReceivedMsat orderedPairs ≤ totalSentMsat orderedPairs := by
  refine not_lt.1 fun mismatch => ?_
  unfold componentBlock at free
  simp only [mismatch, if_true] at free
  split at free
  · cases free
  · split at free <;> cases free

theorem bookComponent_splits {component : List Pair}
    {transfers : List Transfer} (rowIds : List String) (booked : bookComponent readings rows component = .ok transfers) :
    ∃ moves, componentMoves rowIds component = some moves ∧
      transfers.map Transfer.split = moves.map fun move => moveSplit move.2 := by
  unfold bookComponent at booked
  unfold componentMoves
  dsimp only at booked ⊢
  generalize orderedPairComponent component = orderedPairs at booked
  split at booked
  · cases booked
  rename_i free
  rw [if_neg (not_lt.2 (componentBlock_free free))]
  split at booked
  · rename_i single
    rw [if_pos single]
    cases booked
    exact ⟨_, rfl, single_splits _ orderedPairs⟩
  rename_i several
  rw [if_neg several]
  split at booked
  · cases booked
  rename_i allocation allocated
  cases booked
  obtain ⟨found, kept⟩ := Option.filter_eq_some_iff.1 allocated
  have keeps : ((sourceSentMsat orderedPairs).any fun entry => 0 < entry.2 && allocation.principalOf entry.1 ≤ 0) =
      false := by
    simpa using kept
  rw [found]
  dsimp only
  rw [keeps]
  exact ⟨_, rfl, multi_splits _ fun flow member => mem_edges_of_principal found member⟩

theorem componentRows_ne_nil (nonempty : orderedPairs ≠ []) : componentRows orderedPairs ≠ [] := by
  obtain ⟨pair, rest, rfl⟩ := exists_cons_of_ne_nil nonempty
  have keyed : (lookup ((pair :: rest).map fun pair => (pair.outRow.id, pair.outRow)) pair.outRow.id).isSome = true :=
    lookup_isSome.2 (by simp)
  obtain ⟨row, found⟩ := Option.isSome_iff_exists.1 keyed
  have member : (pair.outRow.id, row) ∈ outRowsById (pair :: rest) := mem_items.2 found
  exact ne_nil_of_mem (mem_append_left _ (mem_map_of_mem member))

theorem quarantines_ne_nil (nonempty : rows ≠ []) (reason : String) :
    appendManualMultiPairQuarantines rows reason ≠ [] := by
  obtain ⟨row, member⟩ := exists_mem_of_ne_nil rows nonempty
  have anchored : anchorId row ∈ (rows.map anchorId).eraseDups := mem_eraseDups.2 (mem_map_of_mem member)
  exact ne_nil_of_mem (mem_map_of_mem anchored)

theorem componentBlock_ne_nil
    (nonempty : orderedPairs ≠ []) {quarantines : List Quarantine}
    (blocked : componentBlock readings rows orderedPairs = some quarantines) : quarantines ≠ [] := by
  have legs := componentRows_ne_nil nonempty
  unfold componentBlock at blocked
  dsimp only at blocked
  split at blocked
  · rename_i incomplete
    cases blocked
    exact quarantines_ne_nil (by simpa using incomplete) _
  split at blocked
  · rename_i privacy
    cases blocked
    simp only [ne_eq, append_eq_nil_iff, map_eq_nil_iff]
    exact fun both => privacy.1 both.1
  iterate 5
    split at blocked
    · cases blocked
      exact quarantines_ne_nil legs _
  cases blocked

theorem skipped_held {rowIds : List String} {component : List Pair} (nonempty : component ≠ [])
    (skipped : componentMoves rowIds component = none) (readings : Readings) (rows : List Row) :
    ∃ quarantines, bookComponent readings rows component = .error quarantines ∧ quarantines ≠ [] := by
  have ordered : orderedPairComponent component ≠ [] := by
    intro empty
    have perm : (orderedPairComponent component).Perm component := sortedBy_perm _ component
    rw [empty] at perm
    exact nonempty perm.nil_eq.symm
  cases outcome : bookComponent readings rows component with
  | ok transfers =>
    obtain ⟨moves, some, -⟩ := bookComponent_splits rowIds outcome
    rw [skipped] at some
    cases some
  | error quarantines =>
    refine ⟨quarantines, rfl, ?_⟩
    unfold bookComponent at outcome
    dsimp only at outcome
    split at outcome
    · rename_i blocked
      cases outcome
      exact componentBlock_ne_nil ordered blocked
    split at outcome
    · cases outcome
    split at outcome
    · cases outcome
      exact quarantines_ne_nil (componentRows_ne_nil ordered) _
    · cases outcome

theorem build_collects (readings : Readings) (pairs : List Pair) (rows : List Row) :
    (buildManualMultiPairTransfers readings pairs rows).transfersByTrigger =
        (manualMultiPairComponents pairs).flatMap (fun component =>
          ((bookComponent readings rows component).toOption.getD []).map (triggerOf component, ·)) ∧
      (buildManualMultiPairTransfers readings pairs rows).quarantines =
        (manualMultiPairComponents pairs).flatMap fun component =>
          match bookComponent readings rows component with
          | .error quarantines => quarantines
          | .ok _ => [] := by
  unfold buildManualMultiPairTransfers
  refine foldl_prefix (fun before (bookings : ManualBookings) =>
    bookings.transfersByTrigger = before.flatMap (fun component =>
        ((bookComponent readings rows component).toOption.getD []).map (triggerOf component, ·)) ∧
      bookings.quarantines = before.flatMap fun component =>
        match bookComponent readings rows component with
        | .error quarantines => quarantines
        | .ok _ => []) ⟨rfl, rfl⟩ ?_
  rintro before component after bookings - ⟨transfers, quarantines⟩
  simp only [flatMap_append, flatMap_singleton, ← transfers, ← quarantines]
  cases bookComponent readings rows component with
  | error held => exact ⟨(append_nil _).symm, rfl⟩
  | ok booked => exact ⟨rfl, (append_nil _).symm⟩

theorem single_legs (pair : Pair) :
    outRowsById [pair] = [(pair.outRow.id, pair.outRow)] ∧ inRowsById [pair] = [(pair.inRow.id, pair.inRow)] := by
  constructor <;> simp [outRowsById, inRowsById, items, lookup, eraseDups_cons]

theorem clamp_single {sent received : Int} (sentNonneg : 0 ≤ sent) (nonneg : 0 ≤ received) :
    clampedComponentReceiptsMsat sent [received] = [clampedReceiptMsat sent received] := by
  have total : ([received].map (max 0 ·)).sum = received := by simp [nonneg]
  unfold clampedComponentReceiptsMsat
  dsimp only
  rw [total]
  unfold clampedReceiptMsat
  split
  · rename_i excess
    have least : min received (received - sent) = received - sent := min_eq_right (by omega)
    rw [if_neg (by omega)]
    simp only [map_cons, map_nil, reverse_cons, reverse_nil, nil_append, trimExcess]
    rw [if_neg (by omega), max_eq_right nonneg, least]
    simp
  · rw [sub_self, if_pos (le_refl 0)]
    simp [nonneg]

theorem single_skip {pair : Pair} {rowIds : List String} (received : 0 ≤ msat pair.inRow.amount)
    (sent : 0 ≤ (outboundTransferEvidenceMsat pair.outRow).sent) (skipped : componentMoves rowIds [pair] = none) :
    (outboundTransferEvidenceMsat pair.outRow).sent <
      clampedReceiptMsat (outboundTransferEvidenceMsat pair.outRow).sent (msat pair.inRow.amount) := by
  obtain ⟨outs, ins⟩ := single_legs pair
  have sentTotal : totalSentMsat [pair] = (outboundTransferEvidenceMsat pair.outRow).sent := by
    simp [totalSentMsat, sourceEvidenceByOutId, outs]
  have receivedTotal : totalReceivedMsat [pair] =
      clampedReceiptMsat (outboundTransferEvidenceMsat pair.outRow).sent (msat pair.inRow.amount) := by
    simp [totalReceivedMsat, adjustedReceivedByInId, ins, sentTotal, clamp_single sent received]
  by_contra balanced
  unfold componentMoves at skipped
  dsimp only at skipped
  rw [show orderedPairComponent [pair] = [pair] from rfl, sentTotal, receivedTotal, if_neg balanced,
    if_pos (by rw [outs]; rfl)] at skipped
  cases skipped

theorem bookPair_mismatch {pair : Pair}
    (mismatch : (outboundTransferEvidenceMsat pair.outRow).sent <
      clampedReceiptMsat (outboundTransferEvidenceMsat pair.outRow).sent (msat pair.inRow.amount)) :
    ∃ quarantines, bookPair readings pair = .error quarantines ∧ quarantines ≠ [] := by
  unfold bookPair
  dsimp only
  split
  · rename_i privacy
    refine ⟨_, rfl, ?_⟩
    rcases privacy.1 with out | into
    · simp [out]
    · simp [into]
  · exact ⟨_, rfl, cons_ne_nil _ _⟩

/-- What booking books of a component is what inference moves of it, and what inference skips, booking holds. A pair
on its own is booked apart from the components and is held there. -/
theorem booking_agrees_with_inference (readings : Readings) (pairs : List Pair) (rows : List Row)
    (rowIds : List String) :
    (∀ component ∈ manualMultiPairComponents pairs, component ∈ connectedPairComponents pairs ∧
      ∀ transfers, bookComponent readings rows component = .ok transfers →
        (∀ transfer ∈ transfers, (triggerOf component, transfer) ∈
          (buildManualMultiPairTransfers readings pairs rows).transfersByTrigger) ∧
        ∃ moves, componentMoves rowIds component = some moves ∧
          (transfers.map Transfer.split : Multiset Split) = (moves.map fun move => moveSplit move.2 : List Split)) ∧
    ∀ component ∈ connectedPairComponents pairs, componentMoves rowIds component = none →
      (1 < component.length → ∃ quarantines, bookComponent readings rows component = .error quarantines ∧
        quarantines ≠ [] ∧ quarantines ⊆ (buildManualMultiPairTransfers readings pairs rows).quarantines) ∧
      ∀ pair, component = [pair] → 0 ≤ msat pair.inRow.amount → 0 ≤ (outboundTransferEvidenceMsat pair.outRow).sent →
        ∃ quarantines, bookPair readings pair = .error quarantines ∧ quarantines ≠ [] := by
  obtain ⟨collected, held⟩ := build_collects readings pairs rows
  constructor
  · intro component member
    refine ⟨(mem_filter.1 member).1, ?_⟩
    intro transfers booked
    obtain ⟨moves, moved, same⟩ := bookComponent_splits rowIds booked
    refine ⟨?_, moves, moved, congrArg _ same⟩
    intro transfer inside
    rw [collected]
    refine mem_flatMap.2 ⟨component, member, ?_⟩
    rw [booked]
    exact mem_map.2 ⟨transfer, inside, rfl⟩
  · intro component member skipped
    constructor
    · intro several
      have nonempty : component ≠ [] := by
        rintro rfl
        simp at several
      obtain ⟨quarantines, blocked, some⟩ := skipped_held nonempty skipped readings rows
      refine ⟨quarantines, blocked, some, ?_⟩
      intro quarantine inside
      rw [held]
      refine mem_flatMap.2 ⟨component, mem_filter.2 ⟨member, decide_eq_true several⟩, ?_⟩
      rw [blocked]
      exact inside
    · rintro pair rfl received sent
      exact bookPair_mismatch (single_skip received sent skipped)

def sampleSent : Row := { id := "sent", direction := some "outbound", amount := some 100 }

def sampleNear : Row := { id := "near", direction := some "inbound", amount := some 60 }

def sampleFar : Row := { id := "far", direction := some "inbound", amount := some 40 }

def sampleFanOut : List Pair :=
  [{ outRow := sampleSent, inRow := sampleNear, pairId := some "1" },
    { outRow := sampleSent, inRow := sampleFar, pairId := some "2" }]

def sampleReadings : Readings := { onePercent := (· / 100), exactFee := fun _ => none }

theorem booking_agrees_on_fan_out :
    ∃ component ∈ manualMultiPairComponents sampleFanOut, ∃ transfers,
      bookComponent sampleReadings [] component = .ok transfers ∧ transfers.length = 2 ∧
      ∃ moves, componentMoves ["sent"] component = some moves ∧
        (transfers.map Transfer.split : Multiset Split) = (moves.map fun move => moveSplit move.2 : List Split) := by
  have component : sampleFanOut ∈ manualMultiPairComponents sampleFanOut := by decide +kernel
  have counted : (bookComponent sampleReadings [] sampleFanOut).toOption.map List.length = some 2 := by decide +kernel
  obtain ⟨transfers, booked, count⟩ := ok_of_toOption_map counted
  obtain ⟨-, agreed⟩ := (booking_agrees_with_inference sampleReadings sampleFanOut [] ["sent"]).1 _ component
  exact ⟨_, component, transfers, booked, count, (agreed transfers booked).2⟩

end Kassiber.Transfers

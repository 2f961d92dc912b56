import Kassiber.Custody.Canonical
import Kassiber.Transfers.PairAllocation

/-!
Booking of reviewed transfers. A component of several pairs is booked as a whole or every one of its
rows is held for review, and a pair on its own is booked or held in the same way.
-/

namespace Kassiber.Transfers
open Lib.Dict Lib.Sorting
open Prod (fst snd)

structure Quarantine where
  transactionId : String
  reason : String

structure Transfer where
  outTransactionId : String
  inTransactionId : String
  fromWalletId : Option String
  toWalletId : Option String
  occurredAt : String
  sent : Int
  received : Int
  fee : Int
  spotPrice : Option Rat
  transferId : Option String
  groupId : Option String
  pairingSource : Option String

/-- What booking reads outside the rows. `onePercent` is the floating-point share cut to an integer, and
`exactFee` is the network fee that the graphs of the given rows prove. -/
structure Readings where
  requiresCoarseReview : Bool := false
  onePercent : Int → Int
  exactFee : List (Option String) → Option Int

def anchorId (row : Row) : String := (present row.journalTransactionId).getD row.id

def buildTaxQuarantine (row : Row) (reason : String) : Quarantine := { transactionId := anchorId row, reason }

def appendManualMultiPairQuarantines (rows : List Row) (reason : String) : List Quarantine :=
  ((rows.map anchorId).eraseDups).map fun transactionId => { transactionId, reason }

def pairKind (pair : Pair) : String :=
  match present pair.kind with
  | none => ""
  | some kind => (Custody.strip kind).toLower

def contains (needle text : List Char) : Bool := text.tails.any needle.isPrefixOf

def pairIsReviewedPrivacyLink (pair : Pair) : Bool :=
  let kind := pairKind pair
  kind = "coinjoin" || kind = "whirlpool" || contains "coinjoin".toList kind.toList

def btc (amount : Int) : Rat := amount / 100000000000

def spotPriceFromRow (row : Row) (quantity : Rat) : Option Rat :=
  match row.pricing.rate.filter (0 < ·) with
  | some rate => some rate
  | none => if 0 < quantity then (row.pricing.value.filter (0 < ·)).map (· / quantity) else none

def feeThresholdMsat (readings : Readings) (outAmount : Int) : Int :=
  max (readings.onePercent |outAmount|) (2500 * 1000)

/-- Whether the gap of fee-inclusive rows is proved to be their network fee. -/
def feeInclusiveGapVerified (readings : Readings) (outRows inRows : List Row) (totalReceived : Int) : Bool :=
  let marked := outRows.filter fun row => row.amountIncludesFee
  let gap := max 0 ((outRows.map fun row => msat row.amount).sum - totalReceived)
  let groupRows := outRows ++ inRows
  let scopes := groupRows.map fun row => row.scope
  if marked = [] ∨ gap = 0 then true
  else if outRows.length ≠ 1 ∨ marked.length ≠ 1 then false
  else if scopes = [] ∨ (none : Option Scope) ∈ scopes then false
  else if scopes.eraseDups.length ≠ 1 then false
  else readings.exactFee (groupRows.map fun row => row.rawJson) = some gap

def manualMultiPairComponents (pairs : List Pair) : List (List Pair) :=
  (connectedPairComponents pairs).filter fun component => 1 < component.length

/-- The rows of one transaction that moves value between several rows. -/
def fansOut (siblings : List Row) : Bool :=
  let positive := siblings.filter fun row =>
    (row.direction = some "outbound" ∨ row.direction = some "inbound") ∧ 0 < msat row.amount
  let outs := positive.filter fun row => row.direction = some "outbound"
  let ins := positive.filter fun row => row.direction = some "inbound"
  outs ≠ [] ∧ ins ≠ [] ∧ (1 < outs.length ∨ 1 < ins.length)

/-- The rows of every transaction that a component covers only in part. -/
def incompleteGroupRows (rows groupRows : List Row) (groupRowIds : List String) : List (String × Row) :=
  items (groupRows.flatMap fun row =>
    match row.scope with
    | none => []
    | some scope =>
      let siblings := rows.filter fun sibling => sibling.scope = some scope
      let positive := siblings.filter fun sibling =>
        (sibling.direction = some "outbound" ∨ sibling.direction = some "inbound") ∧ 0 < msat sibling.amount
      if fansOut siblings ∧ ¬ ∀ sibling ∈ positive, sibling.id ∈ groupRowIds then
        siblings.map fun sibling => (sibling.id, sibling)
      else [])

def pricedRow (groupRows : List Row) : Option (Row × Rat) :=
  groupRows.findSome? fun row =>
    (spotPriceFromRow row (btc (msat row.amount + msat row.fee))).map fun price => (row, price)

def transferOf (pair : Pair) (received fee : Int) (spotPrice : Option Rat) (transferId groupId : String) : Transfer :=
  { outTransactionId := pair.outRow.id, inTransactionId := pair.inRow.id, fromWalletId := pair.outRow.walletId
    toWalletId := pair.inRow.walletId, occurredAt := pair.outRow.occurredAt, sent := received + fee, received, fee
    spotPrice, transferId := some transferId, groupId := some groupId, pairingSource := present pair.source }

def componentGroupId (orderedPairs : List Pair) : String :=
  "manual-multi:" ++ "|".intercalate (orderedPairs.map fun pair =>
    (pairRecordId pair).getD (pair.outRow.id ++ "->" ++ pair.inRow.id))

def componentRows (orderedPairs : List Pair) : List Row :=
  (outRowsById orderedPairs).map snd ++ (inRowsById orderedPairs).map snd

def componentRowIds (orderedPairs : List Pair) : List String :=
  (outRowsById orderedPairs).map fst ++ (inRowsById orderedPairs).map fst

def componentPrice (orderedPairs : List Pair) : Option (Row × Rat) :=
  if 0 < totalSentMsat orderedPairs - totalReceivedMsat orderedPairs then pricedRow (componentRows orderedPairs) else none

def unrecognizedOutflow (orderedPairs : List Pair) : Int :=
  if (outRowsById orderedPairs).any fun entry => entry.2.amountIncludesFee then 0
  else max 0 (((outRowsById orderedPairs).map fun entry => msat entry.2.amount).sum - totalReceivedMsat orderedPairs)

def residualLimit (readings : Readings) (orderedPairs : List Pair) : Int :=
  let scopes := (componentRows orderedPairs).map fun row => row.scope
  if scopes.eraseDups.length = 1 ∧ (none : Option Scope) ∉ scopes then 0
  else feeThresholdMsat readings ((outRowsById orderedPairs).map fun entry => msat entry.2.amount).sum

def componentBlock (readings : Readings) (rows : List Row) (orderedPairs : List Pair) : Option (List Quarantine) :=
  let groupRows := componentRows orderedPairs
  let incomplete := incompleteGroupRows rows groupRows (componentRowIds orderedPairs)
  let privacyRows := groupRows.filter fun row => row.privacyHop
  if incomplete ≠ [] then
    some (appendManualMultiPairQuarantines (incomplete.map snd) "owned_fanout_unresolved")
  else if privacyRows ≠ [] ∧ ¬ orderedPairs.all pairIsReviewedPrivacyLink then
    some (privacyRows.map (buildTaxQuarantine · "privacy_hop_unresolved") ++
      appendManualMultiPairQuarantines (groupRows.filter fun row => row.id ∉ privacyRows.map Row.id)
        "derived_transfer_group_blocked")
  else if totalSentMsat orderedPairs < totalReceivedMsat orderedPairs then
    some (appendManualMultiPairQuarantines groupRows "transfer_mismatch")
  else if ((outRowsById orderedPairs).any fun entry => entry.2.amountIncludesFee) ∧
      ¬ feeInclusiveGapVerified readings ((outRowsById orderedPairs).map snd)
        ((inRowsById orderedPairs).map snd) (totalReceivedMsat orderedPairs) then
    some (appendManualMultiPairQuarantines groupRows "transfer_fee_implausible")
  else if residualLimit readings orderedPairs < unrecognizedOutflow orderedPairs then
    some (appendManualMultiPairQuarantines groupRows "transfer_fee_implausible")
  else if ((componentPrice orderedPairs).any fun found => found.1.pricing.needsReview) ∧ readings.requiresCoarseReview then
    some (appendManualMultiPairQuarantines groupRows "pricing_review_required")
  else if 0 < totalSentMsat orderedPairs - totalReceivedMsat orderedPairs ∧ componentPrice orderedPairs = none then
    some (appendManualMultiPairQuarantines groupRows "missing_spot_price")
  else none

def singleSourceTransfers (orderedPairs : List Pair) : List Transfer :=
  let groupId := componentGroupId orderedPairs
  let feeAllocations := allocateFeeMsat (totalSentMsat orderedPairs - totalReceivedMsat orderedPairs)
    (orderedPairs.map (adjustedReceipt orderedPairs))
  (orderedPairs.zip feeAllocations).map fun (pair, feeAllocation) =>
    transferOf pair (adjustedReceipt orderedPairs pair) feeAllocation ((componentPrice orderedPairs).map snd)
      (groupId ++ ":" ++ pair.outRow.id ++ "->" ++ pair.inRow.id) groupId

/-- The flows of a component with several sources, unless a source that sent something keeps no principal. -/
def allocatedFlows (orderedPairs : List Pair) : Option Allocation :=
  (allocateTransferComponentFlowMsat (sourceSentMsat orderedPairs) (sourceExplicitFeeMsat orderedPairs)
    (adjustedReceivedByInId orderedPairs) ((firstPairByEdge orderedPairs).map fst)
    (implicitFeeSourceIds orderedPairs)).filter fun allocation =>
      !(sourceSentMsat orderedPairs).any fun entry => 0 < entry.2 && allocation.principalOf entry.1 ≤ 0

/-- One source's pairs with their principals and their parts of its fee. -/
def sourceLegs (orderedPairs : List Pair) (allocation : Allocation) (outId : String) : List ((Pair × Int) × Int) :=
  let sourceFlows := (allocation.principal.filter fun flow => flow.1 = outId).filterMap fun flow =>
    (lookup (firstPairByEdge orderedPairs) (flow.1, flow.2.1)).map fun pair => (pair, flow.2.2)
  sourceFlows.zip (allocateFeeMsat ((lookup allocation.feeBySource outId).getD 0) (sourceFlows.map snd))

def multiSourceTransfers (orderedPairs : List Pair) (allocation : Allocation) : List Transfer :=
  let groupId := componentGroupId orderedPairs
  let legs := (outRowsById orderedPairs).flatMap fun entry => sourceLegs orderedPairs allocation entry.1
  legs.zipIdx.map fun (((pair, principal), feeAllocation), position) =>
    transferOf pair principal feeAllocation ((componentPrice orderedPairs).map snd)
      (groupId ++ ":" ++ pair.outRow.id ++ "->" ++ pair.inRow.id ++ ":" ++ toString position) groupId

/-- The transfers of one component, or why every row of it is held for review. -/
def bookComponent (readings : Readings) (rows : List Row) (component : List Pair) :
    Except (List Quarantine) (List Transfer) :=
  let orderedPairs := orderedPairComponent component
  match componentBlock readings rows orderedPairs with
  | some quarantines => .error quarantines
  | none =>
    if (outRowsById orderedPairs).length = 1 then .ok (singleSourceTransfers orderedPairs)
    else
      match allocatedFlows orderedPairs with
      | none => .error (appendManualMultiPairQuarantines (componentRows orderedPairs) "manual_multi_pair_unbalanced")
      | some allocation => .ok (multiSourceTransfers orderedPairs allocation)

structure ManualBookings where
  transfersByTrigger : List (String × Transfer) := []
  consumedRowIds : List String := []
  quarantines : List Quarantine := []

def triggerOf (component : List Pair) : String :=
  ((orderedPairComponent component).head?.map fun pair => pair.outRow.id).getD ""

def consumedBy (rows : List Row) (component : List Pair) : List String :=
  let orderedPairs := orderedPairComponent component
  componentRowIds orderedPairs ++
    (incompleteGroupRows rows (componentRows orderedPairs) (componentRowIds orderedPairs)).map fst

def buildManualMultiPairTransfers (readings : Readings) (pairs : List Pair) (rows : List Row) : ManualBookings :=
  (manualMultiPairComponents pairs).foldl (fun bookings component =>
    let consumedRowIds := bookings.consumedRowIds ++ consumedBy rows component
    match bookComponent readings rows component with
    | .error quarantines => { bookings with consumedRowIds, quarantines := bookings.quarantines ++ quarantines }
    | .ok transfers => { bookings with
        consumedRowIds, transfersByTrigger := bookings.transfersByTrigger ++ transfers.map (triggerOf component, ·) })
    {}

/-- The other leg of a pair that is held, unless both legs are one row. -/
def quarantinePartnerLeg (primary : Row) (pair : Pair) (reason : String) : List Quarantine :=
  let partner := if primary.id = pair.outRow.id then pair.inRow else pair.outRow
  if partner.id = primary.id then [] else [buildTaxQuarantine partner reason]

/-- A pair that is held is held at the leg at fault and at its partner. -/
def holdPair (primary : Row) (pair : Pair) (reason : String) : List Quarantine :=
  buildTaxQuarantine primary reason :: quarantinePartnerLeg primary pair reason

def reviewedSources : List String := ["manual", "bulk_selected", "bulk_exact", "rule_auto"]

def pairingSource (pair : Pair) : String :=
  (Custody.strip (((present pair.source).orElse fun _ => present pair.pairSource).getD "")).toLower

def bookPair (readings : Readings) (pair : Pair) : Except (List Quarantine) Transfer :=
  let outRow := pair.outRow
  let inRow := pair.inRow
  let sent := (outboundTransferEvidenceMsat outRow).sent
  let received := clampedReceiptMsat sent (msat inRow.amount)
  let fee := sent - received
  let unrecognized := if outRow.amountIncludesFee then 0 else msat outRow.amount - msat inRow.amount
  let sameScope : Bool := outRow.scope.isSome ∧ outRow.scope = inRow.scope
  let reviewed := reviewedSources.contains (pairingSource pair)
  let residualLimit := if reviewed ∧ ¬ sameScope then feeThresholdMsat readings (msat outRow.amount) else 0
  let outPrice := spotPriceFromRow outRow (btc (msat outRow.amount))
  let price := outPrice.orElse fun _ => spotPriceFromRow inRow (btc (msat inRow.amount))
  let priceRow := if outPrice.isSome then outRow else inRow
  if (outRow.privacyHop ∨ inRow.privacyHop) ∧ ¬ pairIsReviewedPrivacyLink pair then
    -- only the legs with evidence of their own are held
    .error ((if outRow.privacyHop then [buildTaxQuarantine outRow "privacy_hop_unresolved"] else []) ++
      if inRow.privacyHop then [buildTaxQuarantine inRow "privacy_hop_unresolved"] else [])
  else if sent < received then .error (holdPair outRow pair "transfer_mismatch")
  else if outRow.amountIncludesFee ∧ ¬ feeInclusiveGapVerified readings [outRow] [inRow] received then
    .error (holdPair outRow pair "transfer_fee_implausible")
  else if residualLimit < unrecognized then .error (holdPair outRow pair "transfer_fee_implausible")
  else if 0 < fee ∧ price.isSome ∧ priceRow.pricing.needsReview ∧ readings.requiresCoarseReview then
    .error (holdPair priceRow pair "pricing_review_required")
  else if price = none ∧ 0 < fee then .error (holdPair outRow pair "missing_spot_price")
  else
    .ok { outTransactionId := outRow.id, inTransactionId := inRow.id, fromWalletId := outRow.walletId
          toWalletId := inRow.walletId, occurredAt := outRow.occurredAt, sent, received, fee, spotPrice := price
          transferId := none, groupId := pairGroupId pair, pairingSource := pair.source }

end Kassiber.Transfers

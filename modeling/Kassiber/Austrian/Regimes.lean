import Kassiber.Custody.Canonical
import Kassiber.Transfers.PairAllocation

/-!
Regime inference for Austrian disposals. Each wallet holds an available amount of Altvermögen and of
Neuvermögen, inbound rows add to it, outbound rows draw on it and transfers carry it between wallets.
-/

namespace Kassiber.Austrian
open Lib.Outcome Lib.Dict Transfers

inductive Regime where
  | alt
  | neu
  deriving DecidableEq

inductive Fault where
  | invalidTimestamp (text : String)

/-- 1 March 2021, midnight in Vienna, in microseconds since the epoch. -/
def atNeuCutoff : Int := 1614553200000000

def atDefaultPool : String := "default"

abbrev Availability := Regime → String → Int

/-- What a transfer took from its source and carried to its destination, by regime. -/
structure Flows where
  out : Regime → Int
  into : Regime → Int

def emptyFlows : Flows := { out := fun _ => 0, into := fun _ => 0 }

def Availability.change (available : Availability) (regime : Regime) (key : String) (amount : Int) : Availability :=
  fun r k => if r = regime ∧ k = key then available r k + amount else available r k

def availabilityKey (walletId : Option String) : String := (present walletId).getD atDefaultPool

/-- What is taken when an amount is asked for, and what stays available. -/
def depleteAvailable (available : Availability) (regime : Regime) (key : String) (amount : Int) : Availability × Int :=
  if amount ≤ 0 then (available, 0)
  else
    let held := available regime key
    let taken := min held amount
    (fun r k => if r = regime ∧ k = key then max 0 (held - taken) else available r k, taken)

def depleteInOrder (key : String) : List Regime → Int → Availability → (Regime → Int) → Availability × (Regime → Int)
  | [], _, available, moved => (available, moved)
  | regime :: rest, remaining, available, moved =>
    let (available, taken) := depleteAvailable available regime key remaining
    let moved := Function.update moved regime (moved regime + taken)
    if remaining - taken ≤ 0 then (available, moved)
    else depleteInOrder key rest (remaining - taken) available moved

def slicesInOrder (pools : Regime → Int) : List Regime → Int → (Regime → Int) → Regime → Int
  | [], _, slices => slices
  | regime :: rest, remaining, slices =>
    let slice := min (pools regime) remaining
    if slice ≤ 0 then slicesInOrder pools rest remaining slices
    else
      let slices := Function.update slices regime (slices regime + slice)
      if remaining - slice ≤ 0 then slices else slicesInOrder pools rest (remaining - slice) slices

def regimeOrder : Regime → List Regime
  | .neu => [.neu, .alt]
  | .alt => [.alt, .neu]

structure TransferAction where
  outRow : Row
  inRow : Row
  regimeRowId : String
  deriving DecidableEq

def TransferAction.sent (action : TransferAction) : Int := msat action.outRow.amount + msat action.outRow.fee

def TransferAction.received (action : TransferAction) : Int := msat action.inRow.amount

def TransferAction.fromKey (action : TransferAction) : String := availabilityKey action.outRow.walletId

def TransferAction.toKey (action : TransferAction) : String := availabilityKey action.inRow.walletId

def TransferAction.fee (action : TransferAction) : Int := max 0 (action.sent - action.received)

structure Moved where
  available : Availability
  feeRegime : Regime
  flows : Flows

def moveRegime (available : Availability) (action : TransferAction) (dated : Regime) : Regime :=
  if dated = .neu ∧ 0 < available .alt action.fromKey ∧ available .neu action.fromKey ≤ 0 then .alt else dated

def moveAvailability (available : Availability) (action : TransferAction) (dated : Regime) : Moved :=
  if action.sent ≤ 0 ∨ action.received ≤ 0 then { available, feeRegime := dated, flows := emptyFlows }
  else
    let preferred := moveRegime available action dated
    let order := regimeOrder preferred
    let (depleted, moved) := depleteInOrder action.fromKey order action.sent available fun _ => 0
    let feeBy := slicesInOrder moved order action.fee fun _ => 0
    let left := fun regime => moved regime - feeBy regime
    let carriedBy := slicesInOrder left order action.received fun _ => 0
    { available := fun regime key => if key = action.toKey then depleted regime key + carriedBy regime else depleted regime key
      feeRegime := ((order.find? fun regime => 0 < feeBy regime).orElse fun _ =>
        order.find? fun regime => 0 < left regime).getD preferred
      flows := { out := fun regime => feeBy regime + carriedBy regime, into := carriedBy } }

abbrev TriggeredActions := List (String × TransferAction)

def copyRowWithAmount (row : Row) (amount : Int) (fee : Option Int := none) : Row :=
  { row with amount := some amount, fee := (fee.map some).getD row.fee }

def singleSourceMoves (triggerByOutId : Bool) (orderedPairs : List Pair) : TriggeredActions :=
  let feeAllocations := allocateFeeMsat (totalSentMsat orderedPairs - totalReceivedMsat orderedPairs)
    (orderedPairs.map (adjustedReceipt orderedPairs))
  (orderedPairs.zip feeAllocations).map fun (pair, feeAllocation) =>
    (if triggerByOutId then pair.outRow.id else pair.inRow.id,
      { outRow := copyRowWithAmount pair.outRow (adjustedReceipt orderedPairs pair) (some feeAllocation)
        inRow := pair.inRow, regimeRowId := pair.outRow.id })

/-- The moves of one source, each with its part of the source's fee. -/
def sourceMoves (triggerByOutId : Bool) (orderedPairs : List Pair) (allocation : Allocation) (outId : String) :
    TriggeredActions :=
  let sourceFlows := (allocation.principal.filter fun flow => flow.1 = outId).map Prod.snd
  let feeParts := allocateFeeMsat ((lookup allocation.feeBySource outId).getD 0) (sourceFlows.map Prod.snd)
  (sourceFlows.zip feeParts).filterMap fun ((inId, principal), feeAllocation) =>
    (lookup (firstPairByEdge orderedPairs) (outId, inId)).map fun pair =>
      (if triggerByOutId then outId else inId,
        { outRow := copyRowWithAmount pair.outRow principal (some feeAllocation)
          inRow := copyRowWithAmount pair.inRow principal, regimeRowId := outId })

/-- The moves of one component. Nothing is returned when its amounts do not balance. -/
def componentMoves (rowIds : List String) (component : List Pair) : Option TriggeredActions :=
  let orderedPairs := orderedPairComponent component
  let triggerByOutId := (outRowsById orderedPairs).all fun entry => rowIds.contains entry.1
  if totalSentMsat orderedPairs < totalReceivedMsat orderedPairs then none
  else if (outRowsById orderedPairs).length = 1 then some (singleSourceMoves triggerByOutId orderedPairs)
  else
    match allocateTransferComponentFlowMsat (sourceSentMsat orderedPairs) (sourceExplicitFeeMsat orderedPairs)
        (adjustedReceivedByInId orderedPairs) ((firstPairByEdge orderedPairs).map Prod.fst)
        (implicitFeeSourceIds orderedPairs) with
    | none => none
    | some allocation =>
      if (sourceSentMsat orderedPairs).any fun entry => 0 < entry.2 && allocation.principalOf entry.1 ≤ 0 then none
      else some ((outRowsById orderedPairs).flatMap fun entry => sourceMoves triggerByOutId orderedPairs allocation entry.1)

def transferActionsForIntraPairs (pairs : List Pair) (rowIds : List String) : TriggeredActions × List String :=
  let components := connectedPairComponents pairs
  (components.flatMap fun component => (componentMoves rowIds component).getD [],
    components.flatMap fun component => component.flatMap fun pair => [pair.outRow.id, pair.inRow.id])

def actionsAt (actions : TriggeredActions) (rowId : String) : List TransferAction :=
  (actions.filter fun entry => entry.1 = rowId).map Prod.snd

structure Inference where
  available : Availability := fun _ _ => 0
  regimes : List (String × Regime) := []
  transferFlows : List ((String × String) × Flows) := []
  elections : List String := []

section
variable (parseOccurredAt : String → Option Int)

def inferRegimeFromTimestamp (occurredAt : String) : Except Fault Regime :=
  match parseOccurredAt occurredAt with
  | none => .error (.invalidTimestamp occurredAt)
  | some instant => .ok (if instant < atNeuCutoff then .alt else .neu)

def moveTransferAvailability (available : Availability) (action : TransferAction) : Except Fault Moved := do
  let dated ← inferRegimeFromTimestamp parseOccurredAt action.outRow.occurredAt
  pure (moveAvailability available action dated)

def processAction (s : Inference) (action : TransferAction) : Except Fault Inference := do
  let moved ← moveTransferAvailability parseOccurredAt s.available action
  pure { s with
    available := moved.available
    regimes := if (s.regimes.map Prod.fst).contains action.regimeRowId then s.regimes
      else s.regimes ++ [(action.regimeRowId, moved.feeRegime)]
    transferFlows := s.transferFlows ++ [((action.outRow.id, action.inRow.id), moved.flows)] }

def direction (row : Row) : String := (Custody.strip (row.direction.getD "")).toLower

def processInbound (s : Inference) (row : Row) : Except Fault Inference := do
  let regime ← inferRegimeFromTimestamp parseOccurredAt row.occurredAt
  pure { s with available := s.available.change regime (availabilityKey row.walletId) (msat row.amount) }

def processOutbound (s : Inference) (row : Row) : Except Fault Inference := do
  let dated ← inferRegimeFromTimestamp parseOccurredAt row.occurredAt
  let key := availabilityKey row.walletId
  let mixed := dated = .neu ∧ 0 < s.available .alt key
  let regime := if mixed ∧ s.available .neu key ≤ 0 then .alt else dated
  let needed := msat row.amount + msat row.fee
  pure { s with
    available := if needed ≤ 0 then s.available else (depleteAvailable s.available regime key needed).1
    regimes := s.regimes ++ [(row.id, regime)]
    elections := if mixed ∧ 0 < s.available .neu key then s.elections ++ [row.id] else s.elections }

def processRow (actions : TriggeredActions) (transferRowIds : List String) (s : Inference) (row : Row) :
    Except Fault Inference :=
  if actionsAt actions row.id ≠ [] then (actionsAt actions row.id).foldlM (processAction parseOccurredAt) s
  else if transferRowIds.contains row.id then .ok s
  else if direction row = "inbound" then processInbound parseOccurredAt s row
  else if direction row = "outbound" then processOutbound parseOccurredAt s row
  else .ok s

def inferRows (pairs : List Pair) (rowIds : List String) (rows : List Row) : Except Fault Inference :=
  let (actions, transferRowIds) := transferActionsForIntraPairs pairs rowIds
  rows.foldlM (processRow parseOccurredAt actions transferRowIds) {}

def inferOutboundRegimes (rows : List Row) (pairs : List Pair) : Except Fault Inference :=
  inferRows parseOccurredAt pairs (rows.map Row.id) rows

end

end Kassiber.Austrian

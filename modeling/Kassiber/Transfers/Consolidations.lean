import Kassiber.Custody.FifoAllocation
import Kassiber.Custody.Imports
import Kassiber.Sync.ReceiptQuantities

/-!
One transaction in which several wallets pay into others.
-/

namespace Kassiber.Transfers.Consolidations
open Lib.Sorting Custody Custody.Book Custody.Fifo Sync.ReceiptQuantities List
open Option (bind_eq_some_iff)
open Prod (fst snd)

/-! ### Rows, graphs and the ownership index -/

/-- The transaction and the asset a row belongs to. A transaction id has 64 characters. -/
structure PhysicalScope where
  chain : String
  network : String
  txid : String
  asset : String
  canonical : txid.length = 64
  deriving DecidableEq

structure ParsedTx extends OwnershipGraph where
  txid : String := ""
  chain : String := ""
  componentAssetId : String := ""
  componentAsset : String := ""
  deriving DecidableEq

/-- A row with its scope for ownership, its scope for transfers and the graph merged from all observations. -/
structure TransferRow where
  id : String
  walletId : String
  direction : String
  asset : String
  amount : Int
  fee : Int := 0
  custodyNativeFeeNormalized : Bool := false
  authoritative : Bool := false
  scope : Option PhysicalScope := none
  transferScope : Option PhysicalScope := none
  parsed : Option ParsedTx := none
  deriving DecidableEq

/-- The ownership index as the wallets it finds on a chain and network. Wallet ids are UUIDs, without a colon. -/
structure OwnershipIndex where
  inputOwnerIds : String × String → TxInput → List String
  outputOwnerIds : String × String → TxOutput → List String
  plainInput : ∀ scope entry, ∀ wallet ∈ inputOwnerIds scope entry, ':' ∉ wallet.toList
  plainOutput : ∀ scope output, ∀ wallet ∈ outputOwnerIds scope output, ':' ∉ wallet.toList

def syntheticIdPrefixes : List String :=
  ["owned-derive:", "recorded-fanout:", "cross-split:", "direct-payout:", "multi-consol:"]

def satsToMsat : Int := 1000

def tally (entries : List (String × Int)) : List (String × Int) :=
  (entries.map fst).dedup.map fun key => (key, ((entries.filter fun entry => entry.1 = key).map snd).sum)

inductive AssetRelation where
  | same
  | different
  | unknown
  deriving DecidableEq

def componentAsset (parsed : ParsedTx) (row : TransferRow) : String × String :=
  ((strip parsed.componentAssetId).toLower, (strip (firstNonempty [parsed.componentAsset, row.asset])).toUpper)

def legAssetRelation (assetId asset : Option String) (parsed : ParsedTx) (row : TransferRow) : AssetRelation :=
  if parsed.chain.toLower ≠ "liquid" then .same
  else
    let component := componentAsset parsed row
    let legId := (strip (assetId.getD "")).toLower
    let legAsset := (strip (asset.getD "")).toUpper
    if component.1 ≠ "" ∧ legId ≠ "" then if component.1 = legId then .same else .different
    else if component.1 ≠ "" then .unknown
    else if component.2 ≠ "" ∧ legAsset ≠ "" then if component.2 = legAsset then .same else .different
    else .unknown

/-- The inputs of the row's asset, and whether no other input could carry it. -/
def componentInputs (parsed : ParsedTx) (row : TransferRow) : List TxInput × Bool :=
  if parsed.chain.toLower ≠ "liquid" then (parsed.inputs, true)
  else
    let relation := fun entry : TxInput => legAssetRelation entry.assetId entry.asset parsed row
    let selected := parsed.inputs.filter fun entry => relation entry = .same
    (selected, decide ((∀ entry ∈ parsed.inputs, relation entry ≠ .unknown) ∧ selected ≠ []))

section
variable (index : OwnershipIndex) (scope : PhysicalScope)

/-- What an owned leg moves; nothing for a foreign one, and a failure where its owner or value is not known. -/
def ownMove (owners : List String) (value : Option Int) : Option (Option (String × Int)) :=
  match owners.dedup with
  | [] => some none
  | [owner] => value.map fun sats => some (owner, sats)
  | _ => none

def ownMoves (parsed : ParsedTx) : Option (List (String × Int)) := do
  let spent ← parsed.inputs.mapM fun entry =>
    ownMove (index.inputOwnerIds (scope.chain, scope.network) entry) entry.valueSats
  let received ← parsed.outputs.mapM fun output =>
    ownMove (index.outputOwnerIds (scope.chain, scope.network) output) (output.valueSats.map fun sats => -sats)
  return (spent ++ received).filterMap id

/-- The own receipts of a joint event, when own rows explain every own wallet's change exactly. -/
def completeCollaborativeDestinations (group : List TransferRow) (parsed : ParsedTx) : Option (List (String × Int)) :=
  let relevant := group.filter fun row => 0 < row.amount
  if relevant = [] ∨ ∃ row ∈ relevant, row.fee ≠ 0 ∨ row.authoritative = false then none
  else if ¬ (relevant.map TransferRow.walletId).Nodup then none
  else (ownMoves index scope parsed).bind fun moves =>
    let active := (tally moves).filter fun entry => entry.2 ≠ 0
    if ¬ (active.map fst).Perm (relevant.map TransferRow.walletId) ∨ (active.map snd).sum ≠ 0 then none
    else if ∃ entry ∈ active, ∃ row ∈ relevant, row.walletId = entry.1 ∧
        (row.direction ≠ (if 0 < entry.2 then "outbound" else "inbound") ∨ row.amount ≠ |entry.2| * satsToMsat) then
      none
    else some ((active.filter fun entry => entry.2 < 0).map fun entry => (entry.1, -entry.2))

/-! ### Outputs to other own wallets -/

inductive OutputReading where
  | skipped
  | ambiguous
  | external (sats : Int)
  | credit (wallet : String) (sats : Int)

def readOutput (senderWallets : List String) (parsed : ParsedTx) (lead : TransferRow) (output : TxOutput) :
    OutputReading :=
  match legAssetRelation output.assetId output.asset parsed lead with
  | .different => .skipped
  | .unknown => .ambiguous
  | .same =>
    if output.role = some "fee" then .skipped
    else match output.valueSats with
      | none => .ambiguous
      | some sats =>
        let owners := index.outputOwnerIds (scope.chain, scope.network) output
        if owners = [] then .external sats
        else if ∃ owner ∈ owners, owner ∈ senderWallets then .skipped
        else match owners.dedup with
          | [owner] => .credit owner sats
          | _ => .ambiguous

/-- What the outputs credit to each other own wallet; none when an output cannot be told or pays elsewhere. -/
def graphDestinations (senderWallets : List String) (parsed : ParsedTx) (lead : TransferRow) :
    Option (List (String × Int)) :=
  let readings := parsed.outputs.map (readOutput index scope senderWallets parsed lead)
  if ∃ reading ∈ readings, reading matches .ambiguous then none
  else if 0 < (readings.map fun reading => match reading with | .external sats => sats | _ => 0).sum then none
  else some (tally (readings.filterMap fun reading => match reading with
    | .credit wallet sats => some (wallet, sats)
    | _ => none))

def inputsOwnedBy (inputs : List TxInput) (owners : List String) : Prop :=
  inputs ≠ [] ∧ ∀ entry ∈ inputs, index.inputOwnerIds (scope.chain, scope.network) entry ≠ [] ∧
    ∀ owner ∈ index.inputOwnerIds (scope.chain, scope.network) entry, owner ∈ owners

instance (inputs : List TxInput) (owners : List String) : Decidable (inputsOwnedBy index scope inputs owners) :=
  inferInstanceAs (Decidable (_ ∧ _))

/-! ### Senders and destinations -/

/-- An outbound row counts by its principal, or by a fee of its own. -/
def IsSender (row : TransferRow) : Prop :=
  row.direction = "outbound" ∧ (0 < row.amount ∨ (row.custodyNativeFeeNormalized = true ∧ 0 < row.fee))

instance (row : TransferRow) : Decidable (IsSender row) := inferInstanceAs (Decidable (_ ∧ _))

def sendersOf (group : List TransferRow) : List TransferRow := group.filter fun row => IsSender row

def normalizedFees (senders : List TransferRow) : Bool := senders.all TransferRow.custodyNativeFeeNormalized

/-- The fee of the event: each sender's own, or the one they all state. -/
def eventFee (senders : List TransferRow) : Option Int :=
  if normalizedFees senders = true then some (senders.map TransferRow.fee).sum
  else match (senders.map TransferRow.fee).dedup with
    | [fee] => some fee
    | _ => none

def receiptsIn (rows : List TransferRow) (wallet : String) : List TransferRow :=
  rows.filter fun row => row.direction = "inbound" ∧ row.walletId = wallet ∧ 0 < row.amount

def amountsCompatible (left right : Int) : Prop := |left - right| ≤ max (|right| / 100) 2500000

instance (left right : Int) : Decidable (amountsCompatible left right) := inferInstanceAs (Decidable (_ ≤ _))

def provablyDifferentOnchainTx (row : TransferRow) (txid : String) : Bool :=
  match row.transferScope, canonicalTxid txid with
  | some own, some txid => own.txid ≠ txid
  | _, _ => false

structure DeriveInput where
  rows : List TransferRow
  walletRefs : List String
  alreadyPaired : List String

/-- The receipt a destination recorded, if any. It states the credited amount, and no row outside could be another. -/
def destinationReceipt (input : DeriveInput) (group : List TransferRow) (asset txid : String) (credit : String × Int) :
    Option (Option TransferRow) :=
  if credit.1 ∉ input.walletRefs ∨ credit.2 ≤ 0 then none
  else
    let receipts := receiptsIn group credit.1
    if 1 < receipts.length ∨ ∃ row ∈ receipts, row.amount ≠ credit.2 * satsToMsat then none
    else if ∃ row ∈ receiptsIn input.rows credit.1, row.asset.toUpper = asset.toUpper ∧
        row.id ∉ group.map TransferRow.id ∧ row.id ∉ input.alreadyPaired ∧
        provablyDifferentOnchainTx row txid = false ∧ amountsCompatible row.amount (credit.2 * satsToMsat) then none
    else some receipts.head?

/-- An event that is booked: its senders by id, what each destination is credited in satoshis, and recorded receipts. -/
structure Plan where
  txid : String
  senders : List TransferRow
  normalized : Bool
  fee : Int
  credits : List (String × Int)
  receipts : List (String × TransferRow)
  deriving DecidableEq

def planEvent (input : DeriveInput) (group : List TransferRow) : Option Plan := do
  let senders := sendersOf group
  let lead ← senders.head?
  guard (2 ≤ senders.length)
  guard (∀ row ∈ group, row.id ∉ input.alreadyPaired)
  guard (senders.map TransferRow.walletId).Nodup
  let parsed ← senders.findSome? TransferRow.parsed
  let inputs := componentInputs parsed lead
  guard (inputs.2 = true ∧ parsed.evidenceConflicts = [])
  let fee ← eventFee senders
  let collaborative :=
    if fee = 0 ∧ scope.chain = "bitcoin" then completeCollaborativeDestinations index scope group parsed else none
  let credits ← collaborative.or (graphDestinations index scope (senders.map TransferRow.walletId) parsed lead)
  guard (credits ≠ [])
  guard (∀ wallet ∈ senders.map TransferRow.walletId, ∃ entry ∈ inputs.1,
    wallet ∈ index.inputOwnerIds (scope.chain, scope.network) entry)
  guard (collaborative ≠ none ∨ inputsOwnedBy index scope inputs.1 (senders.map TransferRow.walletId))
  guard ((senders.map TransferRow.amount).sum +
    (if normalizedFees senders = true then 0 else ((senders.length : Int) - 1) * fee) =
      (credits.map snd).sum * satsToMsat)
  let txid := (canonicalTxid parsed.txid).getD scope.txid
  let credits := sortedBy fst credits
  let receipts ← credits.mapM (destinationReceipt input group scope.asset txid)
  let recorded := (credits.zip receipts).filterMap fun entry => entry.2.map fun row => (entry.1.1, row)
  guard (recorded = [] ∨ recorded.length = credits.length)
  return { txid, senders := sortedBy TransferRow.id senders, normalized := normalizedFees senders, fee, credits
           receipts := recorded }

end

structure LegRow where
  id : String
  externalId : String
  kind : String
  journalTransactionId : String
  direction : String
  walletId : String
  amount : Int
  fee : Int
  deriving DecidableEq

structure LegPair where
  out : LegRow
  into : LegRow
  deriving DecidableEq

def Plan.bearer (plan : Plan) : Option String := plan.senders.head?.map TransferRow.id

/-- Fees of its own stay out of a sender's share. Of a shared fee, all senders but the bearer hold a part back. -/
def Plan.share (plan : Plan) (sender : TransferRow) : Int :=
  sender.amount + if plan.normalized = true ∨ plan.bearer = some sender.id then 0 else plan.fee

def Plan.shares (plan : Plan) : Buckets := plan.senders.map fun sender => (sender.id, plan.share sender)

def Plan.sinks (plan : Plan) : Buckets := plan.credits.map fun credit => (credit.1, credit.2 * satsToMsat)

def Plan.feeOf (plan : Plan) (sender : TransferRow) : Int :=
  if plan.normalized = true then sender.fee else if plan.bearer = some sender.id then plan.fee else 0

def Plan.suffix (plan : Plan) (destination : String) : String :=
  if 1 < plan.credits.length then ":" ++ destination else ""

def legId (txid direction wallet suffix : String) : String :=
  "multi-consol:" ++ txid ++ ":" ++ direction ++ ":" ++ wallet ++ suffix

def Plan.leg (plan : Plan) (cell : DeterministicAllocationCell) (sender : TransferRow) : LegPair where
  out :=
    { id := legId plan.txid "out" sender.walletId (plan.suffix cell.sinkId)
      externalId := legId plan.txid "out" sender.walletId (plan.suffix cell.sinkId)
      kind := "self_transfer_out", journalTransactionId := cell.sourceId, direction := "outbound"
      walletId := sender.walletId, amount := cell.amountMsat
      fee := if cell.sourceStartMsat = 0 then plan.feeOf sender else 0 }
  into :=
    { id := legId plan.txid "in" sender.walletId (plan.suffix cell.sinkId)
      externalId := legId plan.txid "in" sender.walletId (plan.suffix cell.sinkId)
      kind := "self_transfer_in"
      journalTransactionId := ((plan.receipts.find? fun receipt => receipt.1 = cell.sinkId).map fun receipt =>
        receipt.2.id).getD cell.sourceId
      direction := "inbound", walletId := cell.sinkId, amount := cell.amountMsat, fee := 0 }

structure Consolidation where
  plan : Plan
  legs : List LegPair
  deriving DecidableEq

def Plan.book (plan : Plan) : Except AllocationError Consolidation := do
  let allocation ← allocateMsatFifo plan.shares plan.sinks none
  return { plan, legs := allocation.cells.filterMap fun cell =>
    (plan.senders.find? fun sender => sender.id = cell.sourceId).map (plan.leg cell) }

def Consolidation.rows (consolidation : Consolidation) : List LegRow :=
  consolidation.legs.flatMap fun leg => [leg.out, leg.into]

/-- The rows of each transaction and asset, without rows that a derivation made. -/
def eventsOf (rows : List TransferRow) : List (PhysicalScope × List TransferRow) :=
  let recorded := rows.filter fun row => ∀ start ∈ syntheticIdPrefixes, ¬ row.id.startsWith start
  (groupBy TransferRow.scope recorded).filterMap fun entry => entry.1.map fun scope => (scope, entry.2)

section
variable (index : OwnershipIndex) (input : DeriveInput)

def plans : List Plan := (eventsOf input.rows).filterMap fun event => planEvent index event.1 input event.2

def deriveMultiSourceConsolidations : Except AllocationError (List Consolidation) := (plans index input).mapM Plan.book

def syntheticRows (resolved : List Consolidation) : List LegRow := resolved.flatMap Consolidation.rows

end

/-! ### What a planned event guarantees -/

structure Plan.Valid (plan : Plan) : Prop where
  sender : ∀ row ∈ plan.senders, IsSender row
  several : plan.senders ≠ []
  apart : (plan.senders.map TransferRow.walletId).Nodup
  shared : plan.normalized = false → ∀ row ∈ plan.senders, row.fee = plan.fee
  destinations : (plan.credits.map fst).Nodup
  positive : ∀ credit ∈ plan.credits, 0 < credit.2
  balanced : (plan.senders.map TransferRow.amount).sum +
    (if plan.normalized = true then 0 else ((plan.senders.length : Int) - 1) * plan.fee) =
      (plan.credits.map snd).sum * satsToMsat
  canonical : plan.txid.length = 64
  plainSender : ∀ row ∈ plan.senders, ':' ∉ row.walletId.toList
  plainDestination : ∀ credit ∈ plan.credits, ':' ∉ credit.1.toList

theorem guard_some {p : Prop} [Decidable p] {u : Unit} : (guard p : Option Unit) = some u ↔ p := by
  by_cases holds : p
  · simp [guard, holds]
  · simp [guard, holds]

theorem tally_keys (entries : List (String × Int)) : (tally entries).map fst = (entries.map fst).dedup := by
  unfold tally
  rw [map_map]
  exact map_id _

theorem eventFee_shared {senders : List TransferRow} {fee : Int} (stated : eventFee senders = some fee)
    (normalized : normalizedFees senders = false) : ∀ row ∈ senders, row.fee = fee := by
  unfold eventFee at stated
  rw [if_neg (by rw [normalized]; decide)] at stated
  split at stated
  · rename_i only found
    cases stated
    intro row member
    have listed : row.fee ∈ (senders.map TransferRow.fee).dedup := mem_dedup.2 (mem_map_of_mem member)
    rw [found] at listed
    exact mem_singleton.1 listed
  · cases stated

theorem canonicalTxid_length {text txid : String} (canonical : canonicalTxid text = some txid) : txid.length = 64 := by
  unfold canonicalTxid at canonical
  dsimp only at canonical
  split_ifs at canonical with short reads
  cases canonical
  exact not_not.1 short

section
variable {index : OwnershipIndex} {scope : PhysicalScope}

theorem ownMove_owner {owners : List String} {value : Option Int} {move : String × Int}
    (made : ownMove owners value = some (some move)) : move.1 ∈ owners := by
  unfold ownMove at made
  split at made
  · cases made
  · rename_i owner found
    obtain ⟨sats, -, same⟩ := Option.map_eq_some_iff.1 made
    cases same
    exact mem_dedup.1 (found ▸ mem_cons_self)
  · cases made

theorem mapM_listed {α β : Type} {f : α → Option β} {xs : List α} {ys : List β} (run : xs.mapM f = some ys) {y : β}
    (member : y ∈ ys) : ∃ x ∈ xs, f x = some y := by
  induction xs generalizing ys with
  | nil =>
    cases run
    cases member
  | cons x rest ih =>
    rw [mapM_cons] at run
    obtain ⟨first, found, run⟩ := bind_eq_some_iff.1 run
    obtain ⟨later, runs, same⟩ := bind_eq_some_iff.1 run
    cases same
    rcases mem_cons.1 member with rfl | inside
    · exact ⟨x, .head _, found⟩
    · obtain ⟨other, listed, made⟩ := ih runs inside
      exact ⟨other, .tail _ listed, made⟩

theorem mapM_defined {α β : Type} {f : α → Option β} {xs : List α} {ys : List β} (run : xs.mapM f = some ys) :
    ∀ x ∈ xs, ∃ y, f x = some y := by
  induction xs generalizing ys with
  | nil => exact nofun
  | cons x rest ih =>
    rw [mapM_cons] at run
    obtain ⟨first, found, run⟩ := bind_eq_some_iff.1 run
    obtain ⟨later, runs, -⟩ := bind_eq_some_iff.1 run
    intro other member
    rcases mem_cons.1 member with rfl | inside
    · exact ⟨first, found⟩
    · exact ih runs other inside

variable {parsed : ParsedTx} {group : List TransferRow}

theorem ownMoves_plain {moves : List (String × Int)}
    (made : ownMoves index scope parsed = some moves) {move : String × Int} (member : move ∈ moves) :
    ':' ∉ move.1.toList := by
  obtain ⟨spent, runs, made⟩ := bind_eq_some_iff.1 made
  obtain ⟨received, runs', same⟩ := bind_eq_some_iff.1 made
  cases same
  obtain ⟨given, listed, same⟩ := mem_filterMap.1 member
  cases same
  rcases mem_append.1 listed with own | own
  · obtain ⟨entry, -, moved⟩ := mapM_listed runs own
    exact index.plainInput _ entry _ (ownMove_owner moved)
  · obtain ⟨output, -, moved⟩ := mapM_listed runs' own
    exact index.plainOutput _ output _ (ownMove_owner moved)

theorem collaborative_credits {credits : List (String × Int)}
    (made : completeCollaborativeDestinations index scope group parsed = some credits) :
    (credits.map fst).Nodup ∧ ∀ credit ∈ credits, ':' ∉ credit.1.toList := by
  unfold completeCollaborativeDestinations at made
  dsimp only at made
  split at made
  · cases made
  split at made
  · cases made
  obtain ⟨moves, moved, made⟩ := bind_eq_some_iff.1 made
  split at made
  · cases made
  split at made
  · cases made
  cases made
  rw [map_map]
  have keys : ((tally moves).map fst).Nodup := tally_keys moves ▸ nodup_dedup _
  refine ⟨keys.sublist ((filter_sublist.trans filter_sublist).map _), fun credit listed => ?_⟩
  obtain ⟨entry, inside, rfl⟩ := mem_map.1 listed
  have named : entry.1 ∈ (moves.map fst).dedup :=
    tally_keys moves ▸ mem_map_of_mem (mem_filter.1 (mem_filter.1 inside).1).1
  obtain ⟨move, member, same⟩ := mem_map.1 (mem_dedup.1 named)
  exact same ▸ ownMoves_plain moved member

theorem readOutput_credit {senders : List String} {lead : TransferRow} {output : TxOutput}
    {wallet : String} {sats : Int} (read : readOutput index scope senders parsed lead output = .credit wallet sats) :
    wallet ∈ index.outputOwnerIds (scope.chain, scope.network) output := by
  unfold readOutput at read
  split at read
  · cases read
  · cases read
  split at read
  · cases read
  split at read
  · cases read
  dsimp only at read
  split at read
  · cases read
  split at read
  · cases read
  split at read
  · rename_i owner found
    cases read
    exact mem_dedup.1 (found ▸ mem_cons_self)
  · cases read

theorem graph_credits {senders : List String} {lead : TransferRow} {credits : List (String × Int)}
    (made : graphDestinations index scope senders parsed lead = some credits) :
    (credits.map fst).Nodup ∧ ∀ credit ∈ credits, ':' ∉ credit.1.toList := by
  unfold graphDestinations at made
  dsimp only at made
  split at made
  · cases made
  split at made
  · cases made
  cases made
  refine ⟨tally_keys _ ▸ nodup_dedup _, fun credit listed => ?_⟩
  have named := mem_map_of_mem (f := fst) listed
  rw [tally_keys, mem_dedup] at named
  obtain ⟨entry, inside, same⟩ := mem_map.1 named
  obtain ⟨reading, read, credited⟩ := mem_filterMap.1 inside
  obtain ⟨output, -, rfl⟩ := mem_map.1 read
  split at credited
  · rename_i wallet sats found
    cases credited
    exact same ▸ index.plainOutput _ output _ (readOutput_credit found)
  · cases credited

variable {input : DeriveInput}

theorem destination_positive {asset txid : String} {credit : String × Int} {receipt : Option TransferRow}
    (accepted : destinationReceipt input group asset txid credit = some receipt) : 0 < credit.2 := by
  unfold destinationReceipt at accepted
  split at accepted
  · cases accepted
  · rename_i known
    exact not_le.1 fun le => known (.inr le)

theorem planEvent_valid {plan : Plan}
    (planned : planEvent index scope input group = some plan) : plan.Valid := by
  unfold planEvent at planned
  simp only [Option.bind_eq_bind, bind_eq_some_iff, guard_some] at planned
  obtain ⟨lead, -, -, several, -, -, -, apart, parsed, -, -, -, fee, stated, credits, credited, -, -, -, funded, -, -,
    -, balanced, receipts, accepted, -, -, same⟩ := planned
  cases same
  have sorted := sortedBy_perm TransferRow.id (sendersOf group)
  have order := sortedBy_perm fst credits
  have made : (credits.map fst).Nodup ∧ ∀ credit ∈ credits, ':' ∉ credit.1.toList := by
    rcases Option.or_eq_some_iff.1 credited with joint | ⟨-, read⟩
    · split at joint
      · exact collaborative_credits joint
      · cases joint
    · exact graph_credits read
  refine { sender := fun row member => ?_, several := ?_, apart := ((sorted.map _).nodup_iff).2 apart
           shared := fun normalized row member => ?_
           destinations := ((order.map _).nodup_iff).2 made.1, positive := fun credit member => ?_, balanced := ?_
           canonical := ?_, plainSender := fun row member => ?_
           plainDestination := fun credit member => made.2 credit (order.mem_iff.1 member) }
  · exact of_decide_eq_true (mem_filter.1 (sorted.mem_iff.1 member)).2
  · rw [← length_pos_iff, sorted.length_eq]
    exact lt_of_lt_of_le two_pos several
  · exact eventFee_shared stated normalized row (sorted.mem_iff.1 member)
  · obtain ⟨receipt, found⟩ := mapM_defined accepted credit member
    exact destination_positive found
  · dsimp only
    rw [(sorted.map TransferRow.amount).sum_eq, sorted.length_eq, (order.map snd).sum_eq]
    exact balanced
  · dsimp only
    cases canonical : canonicalTxid parsed.txid with
    | none => exact scope.canonical
    | some txid => exact canonicalTxid_length canonical
  · obtain ⟨entry, -, owns⟩ := funded row.walletId (mem_map_of_mem (sorted.mem_iff.1 member))
    exact index.plainInput _ entry _ owns

theorem plans_valid {plan : Plan} (member : plan ∈ plans index input) : plan.Valid := by
  obtain ⟨event, -, planned⟩ := mem_filterMap.1 member
  exact planEvent_valid planned

end

end Kassiber.Transfers.Consolidations

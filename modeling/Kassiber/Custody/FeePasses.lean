import Kassiber.Custody.Imports

/-!
Two passes settle the fee of an on-chain event before its rows become legs: a fee the profile's own graph proves
is allocated, and a fee stamped on every funding row stays on one of them.
-/

namespace Kassiber.Custody
open Lib.Outcome Lib.Dict Lib.Sorting

def assign {κ β : Type} [DecidableEq κ] (entries : List (κ × β)) (key : κ) (value : β) : List (κ × β) :=
  entries.filter (fun entry => entry.1 ≠ key) ++ [(key, value)]

/-- A missing value is filled in; a second value that differs is a conflict. -/
def mergeValue {α : Type} [DecidableEq α] (missing current value : α) (conflict : String) : α × List String :=
  if current = missing ∧ value ≠ missing then (value, [])
  else if value ≠ missing ∧ current ≠ value then (current, [conflict])
  else (current, [])

/-- Ownership refines an external role; every other pair of roles is a conflict. -/
def mergeRole (current value conflict : String) : String × List String :=
  if current = "" ∧ value ≠ "" then (value, [])
  else if value ≠ "" ∧ current ≠ value then
    if (current = "external" ∧ value = "owned") ∨ (current = "owned" ∧ value = "external") then ("owned", [])
    else (current, [conflict])
  else (current, [])

def mergeLeg (target incoming : OwnershipLeg) (label : String) : OwnershipLeg × List String :=
  let script := mergeValue "" target.script incoming.script (label ++ ".script")
  let value := mergeValue none target.valueSats incoming.valueSats (label ++ ".value_sats")
  let assetId := mergeValue "" target.assetId incoming.assetId (label ++ ".asset_id")
  let asset := mergeValue "" target.asset incoming.asset (label ++ ".asset")
  let role := mergeRole target.role incoming.role (label ++ ".role")
  ({ target with script := script.1, valueSats := value.1, assetId := assetId.1, asset := asset.1, role := role.1 },
    script.2 ++ value.2 ++ assetId.2 ++ asset.2 ++ role.2)

structure MergedLegs where
  inputsByKey : List (String × OwnershipLeg) := []
  inputKeyByPosition : List (Nat × String) := []
  outputsByN : List (Int × OwnershipLeg) := []
  conflicts : List String := []

/-- An input is known by its outpoint, or by its position until one is observed. -/
def mergeInput (state : MergedLegs) (entry : OwnershipLeg × Nat) : MergedLegs :=
  let incoming := entry.1
  let position := entry.2
  let outpoint := strip incoming.outpoint
  let positional := lookup state.inputKeyByPosition position
  let state :=
    match positional with
    | some known =>
      if outpoint ≠ "" ∧ known ≠ "" ∧ known ≠ outpoint then
        match lookup state.inputsByKey known with
        | none => state
        | some leg =>
          let others := state.inputsByKey.filter fun (stored : String × OwnershipLeg) => stored.1 ≠ known
          match lookup others outpoint with
          | none => { state with inputsByKey := assign others outpoint leg }
          | some target =>
            let merged := mergeLeg target leg ("input:" ++ outpoint)
            { state with inputsByKey := assign others outpoint merged.1, conflicts := state.conflicts ++ merged.2 }
      else state
    | none => state
  let key := firstNonempty [outpoint, positional.getD "", "position:" ++ toString position]
  let merged :=
    match lookup state.inputsByKey key with
    | none => (incoming, [])
    | some target => mergeLeg target incoming ("input:" ++ key)
  let leg := if outpoint ≠ "" then { merged.1 with outpoint } else merged.1
  { state with
    inputsByKey := assign state.inputsByKey key leg
    inputKeyByPosition := assign state.inputKeyByPosition position key
    conflicts := state.conflicts ++ merged.2 }

def mergeOutput (state : MergedLegs) (incoming : OwnershipLeg) : MergedLegs :=
  match lookup state.outputsByN incoming.n with
  | none => { state with outputsByN := assign state.outputsByN incoming.n incoming }
  | some target =>
    let merged := mergeLeg target incoming ("output:" ++ toString incoming.n)
    { state with outputsByN := assign state.outputsByN incoming.n merged.1, conflicts := state.conflicts ++ merged.2 }

def OwnershipLeg.inBitcoin (leg : OwnershipLeg) : OwnershipLeg :=
  { leg with
    assetId := if leg.assetId = "" then "BTC" else leg.assetId
    asset := if leg.asset = "" then "BTC" else leg.asset }

def legOn (chain : String) (leg : OwnershipLeg) : OwnershipLeg :=
  if chain.toLower = "bitcoin" then leg.inBitcoin else leg

/-- Complementary observations of one transaction; what they contradict each other in is a conflict. -/
def mergeOwnershipTxs (items : List OwnershipTx) : Option OwnershipTx :=
  match items with
  | [] => none
  | first :: _ =>
    let texts := items.foldl (fun (state : (String × String × String) × List String) item =>
      let txid := mergeValue "" state.1.1 item.txid "txid"
      let chain := mergeValue "" state.1.2.1 item.chain "chain"
      let network := mergeValue "" state.1.2.2 item.network "network"
      ((txid.1, chain.1, network.1), state.2 ++ txid.2 ++ chain.2 ++ network.2))
      ((first.txid, first.chain, first.network), first.evidenceConflicts)
    let legs := items.foldl (fun (state : MergedLegs) item =>
      item.outputs.foldl mergeOutput (item.inputs.zipIdx.foldl mergeInput state)) {}
    some { txid := texts.1.1, chain := texts.1.2.1, network := texts.1.2.2,
           inputs := (sortedBy Prod.fst legs.inputsByKey).map fun entry => legOn texts.1.2.1 entry.2,
           outputs := (sortedBy Prod.fst legs.outputsByN).map fun entry => legOn texts.1.2.1 entry.2,
           evidenceConflicts := sortedSet (texts.2 ++ legs.conflicts) }

def OwnershipTx.shape (tx : OwnershipTx) : List String × List Int :=
  (sortedBy id (tx.inputs.map (·.outpoint)), sortedBy id (tx.outputs.map (·.n)))

def ImportRow.spends (row : ImportRow) : Bool := decide (row.direction = "outbound" ∧ 0 < row.amount)

def scriptOwners (group : List ImportRow) (script : String) : List String :=
  if script = "" then []
  else ((group.filter fun row => script ∈ row.observerOwnedScripts).map (·.walletId)).dedup

def legTotal (group : List ImportRow) (legs : List OwnershipLeg) (walletId : String) : Int :=
  ((legs.filter fun leg => scriptOwners group leg.script = [walletId]).map fun leg => leg.valueSats.getD 0).sum

def graphTotal (legs : List OwnershipLeg) : Int := (legs.map fun leg => leg.valueSats.getD 0).sum

/-- Every funding input belongs to one wallet of the group and no output to two. -/
def GraphClosed (group : List ImportRow) (merged : OwnershipTx) : Prop :=
  merged.evidenceConflicts = [] ∧ merged.inputs ≠ [] ∧ merged.outputs ≠ [] ∧
  (∀ vin ∈ merged.inputs, vin.outpoint ≠ "" ∧ (scriptOwners group vin.script).length = 1 ∧ vin.valueSats.isSome) ∧
  ∀ vout ∈ merged.outputs, (scriptOwners group vout.script).length ≤ 1 ∧ vout.valueSats.isSome

instance (group : List ImportRow) (merged : OwnershipTx) : Decidable (GraphClosed group merged) :=
  inferInstanceAs (Decidable (_ ∧ _ ∧ _ ∧ (∀ vin ∈ merged.inputs, _ ∧ _ ∧ _) ∧ ∀ vout ∈ merged.outputs, _ ∧ _))

def WalletsBalance (group : List ImportRow) (merged : OwnershipTx) : Prop :=
  ∀ row ∈ group, (legTotal group merged.inputs row.walletId - legTotal group merged.outputs row.walletId) * 1000 =
    row.amount * (if row.direction = "outbound" then 1 else -1) ∧ row.fee = 0

instance (group : List ImportRow) (merged : OwnershipTx) : Decidable (WalletsBalance group merged) :=
  inferInstanceAs (Decidable (∀ row ∈ group, _ ∧ _))

/-- The whole fee of an event when its graph proves that the profile's wallets funded it. -/
def ownedFee (group : List ImportRow) : Option Int := do
  let outbound := group.filter (·.spends)
  guard (outbound ≠ [])
  guard (∀ row ∈ outbound,
    row.observationFeeAttribution = "implicit_wallet_delta" ∧ row.fee = 0 ∧ row.amountIncludesFee = false)
  guard (group.map (·.walletId)).Nodup
  let graphs ← group.mapM (·.graph)
  guard ((graphs.map (·.shape)).dedup.length = 1)
  let merged ← mergeOwnershipTxs graphs
  guard (GraphClosed group merged)
  let sats := graphTotal merged.inputs - graphTotal merged.outputs
  guard (0 ≤ sats * 1000 ∧ ∀ row ∈ group, ∀ stated ∈ row.rawFee, stated = sats)
  guard (WalletsBalance group merged)
  guard (sats * 1000 ≤ (outbound.map (·.amount)).sum)
  pure (sats * 1000)

def fifoCells : List (String × Int) → Int → List (String × Int)
  | [], _ => []
  | (id, amount) :: rest, remaining =>
    if remaining = 0 then []
    else if amount = 0 then fifoCells rest remaining
    else (id, min remaining amount) :: fifoCells rest (remaining - min remaining amount)

/-- One row that exceeds the fee bears it whole, otherwise the rows share it in the order of their ids. -/
def allocatedFees (outbound : List ImportRow) (fee : Int) : List (String × Int) :=
  match (outbound.filter fun row => fee < row.amount).argmin (·.id) with
  | some bearer => [(bearer.id, fee)]
  | none => fifoCells ((sortedBy (·.id) outbound).map fun row => (row.id, row.amount)) fee

def isOwnedObservation (key : CanonicalEventKey) (row : ImportRow) : Bool :=
  row.authority.authoritative && decide (eventOf row = some key) && decide (key.nativeNamespace = "chain") &&
    decide (key.chain = "bitcoin")

def ownedGroup (key : CanonicalEventKey) (rows : List ImportRow) : List ImportRow :=
  rows.filter (isOwnedObservation key)

def normalizeOwnedFee (rows : List ImportRow) (row : ImportRow) : ImportRow :=
  match eventOf row with
  | none => row
  | some key =>
    if isOwnedObservation key row then
      match ownedFee (ownedGroup key rows) with
      | none => row
      | some fee =>
        if row.spends then
          let allocated := (lookup (allocatedFees ((ownedGroup key rows).filter (·.spends)) fee) row.id).getD 0
          { row with
            amount := row.amount - allocated, fee := allocated, observationFeeAttribution := "exact"
            custodyNativeFeeNormalized := true }
        else row
    else row

def normalizeOwnedBitcoinFees (rows : List ImportRow) : List ImportRow := rows.map (normalizeOwnedFee rows)

/-- An outbound row of an on-chain event that states a fee of its own. -/
def carriesEventFee (key : CanonicalEventKey) (row : ImportRow) : Bool :=
  decide (row.direction = "outbound" ∧ eventOf row = some key ∧ key.nativeNamespace = "chain" ∧ 0 < row.fee ∧
    row.custodyNativeFeeNormalized = false)

def feeCarriers (key : CanonicalEventKey) (rows : List ImportRow) : List ImportRow := rows.filter (carriesEventFee key)

def StampedTwice (carriers : List ImportRow) : Prop := 1 < carriers.length ∧ (carriers.map (·.fee)).dedup.length = 1

instance (carriers : List ImportRow) : Decidable (StampedTwice carriers) := inferInstanceAs (Decidable (_ ∧ _))

def ImportRow.absorbFee (row : ImportRow) : ImportRow :=
  { row with
    amount := if row.amountIncludesFee then row.amount else row.amount + row.fee, fee := 0
    custodyDuplicateEventFeeNormalized := true }

def separateFee (rows : List ImportRow) (row : ImportRow) : ImportRow :=
  match eventOf row with
  | none => row
  | some key =>
    let carriers := feeCarriers key rows
    if carriesEventFee key row ∧ StampedTwice carriers ∧ (carriers.argmin (·.id)).map (·.id) ≠ some row.id then
      row.absorbFee
    else row

def separateDuplicateFees (rows : List ImportRow) : List ImportRow := rows.map (separateFee rows)

/-- The scope of a row's event, attached without its wallet configuration. -/
def enrichRow (row : ImportRow) : ImportRow :=
  let chain := firstNonempty [row.rawChain, row.configChain]
  { row with
    chain := if chain = "" ∧ (strip row.walletKind).toLower ∈ lightningWalletKinds then "lightning" else chain
    network := firstNonempty [row.rawNetwork, row.configNetwork]
    configured := false
    configChain := ""
    configNetwork := "" }

def enrichedQuantityRows (batch : ImportRows) : List ImportRow :=
  separateDuplicateFees (normalizeOwnedBitcoinFees (batch.rows.map enrichRow))

/-- A pass that settles every row against the rows of its own event. -/
structure EventPass (settle : List ImportRow → ImportRow → ImportRow) : Prop where
  event : ∀ rows row, eventOf (settle rows row) = eventOf row
  own : ∀ rows row key, eventOf row = some key → settle rows row = settle (rowsOf key rows) row

theorem EventPass.rowsOf {settle : List ImportRow → ImportRow → ImportRow} (pass : EventPass settle)
    (rows : List ImportRow) (key : CanonicalEventKey) :
    rowsOf key (rows.map (settle rows)) = (rowsOf key rows).map (settle (rowsOf key rows)) := by
  unfold Custody.rowsOf
  rw [List.filter_map]
  have same : ((fun row => decide (eventOf row = some key)) ∘ settle rows) =
      fun row => decide (eventOf row = some key) := by
    funext row
    simp only [Function.comp, pass.event]
  rw [same]
  refine List.map_congr_left fun row member => ?_
  exact pass.own rows row key (of_decide_eq_true (List.mem_filter.1 member).2)

variable {key : CanonicalEventKey}

theorem rowsOf_filter {p : ImportRow → Bool} (own : ∀ row, p row → eventOf row = some key)
    (rows : List ImportRow) : (rowsOf key rows).filter p = rows.filter p := by
  unfold rowsOf
  rw [List.filter_filter]
  refine List.filter_congr fun row _ => ?_
  by_cases holds : p row = true
  · simp [holds, own row holds]
  · simp [holds]

theorem isOwnedObservation_event {row : ImportRow} (owned : isOwnedObservation key row) : eventOf row = some key := by
  simp only [isOwnedObservation, Bool.and_eq_true, decide_eq_true_eq] at owned
  exact owned.1.1.2

theorem carriesEventFee_event {row : ImportRow} (carries : carriesEventFee key row) :
    eventOf row = some key := (of_decide_eq_true carries).2.1

theorem normalizeOwnedFee_pass : EventPass normalizeOwnedFee where
  event rows row := by
    unfold normalizeOwnedFee
    split
    · rfl
    · split
      · split
        · rfl
        · split <;> rfl
      · rfl
  own rows row key event := by
    have group : ownedGroup key (rowsOf key rows) = ownedGroup key rows :=
      rowsOf_filter (fun _ => isOwnedObservation_event) rows
    unfold normalizeOwnedFee
    rw [event]
    simp only [group]

theorem separateFee_pass : EventPass separateFee where
  event rows row := by
    unfold separateFee
    split
    · rfl
    · dsimp only
      split <;> rfl
  own rows row key event := by
    have group : feeCarriers key (rowsOf key rows) = feeCarriers key rows :=
      rowsOf_filter (fun _ => carriesEventFee_event) rows
    unfold separateFee
    rw [event]
    simp only [group]

theorem rowsOf_enriched (batch : ImportRows) (key : CanonicalEventKey) :
    rowsOf key (enrichedQuantityRows batch) =
      separateDuplicateFees (normalizeOwnedBitcoinFees (rowsOf key (batch.rows.map enrichRow))) := by
  unfold enrichedQuantityRows separateDuplicateFees normalizeOwnedBitcoinFees
  rw [separateFee_pass.rowsOf, normalizeOwnedFee_pass.rowsOf]

end Kassiber.Custody

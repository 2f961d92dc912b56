import Kassiber.Lib.Propagation
import Kassiber.Tax.Rows

/-!
The compiler from finalized custody decisions to tax rows.
-/

namespace Kassiber.Tax
open Custody Lib.Outcome Lib.Dict Lib.Sorting Lib.Propagation
open Prod (fst snd)

structure Located where
  decision : ArbitratedSlice
  source : QuantityObservation
  target : Option (QuantitySlice × QuantityObservation)

structure TaxArguments where
  profile : TaxProfile
  rows : List LedgerRow
  nonEventTransactionIds : List String := []
  blockedTransactionIds : List String := []
  interpreterQuarantines : List Quarantine := []
  directPayoutRecords : List DirectPayout := []

namespace TaxArguments

def rowsById (args : TaxArguments) : List (String × LedgerRow) := args.rows.map fun row => (row.id, row)

def hasRow (args : TaxArguments) (id : String) : Bool := (lookup args.rowsById id).isSome

def nonEvents (args : TaxArguments) : List String := args.nonEventTransactionIds.filter fun id => id ≠ ""

def explicitlyBlocked (args : TaxArguments) : List String := args.blockedTransactionIds.filter fun id => id ≠ ""

def payoutsBySource (args : TaxArguments) : List (String × DirectPayout) :=
  validDirectPayoutsBySource args.rowsById args.directPayoutRecords

end TaxArguments

def observationsByHash (state : CanonicalQuantityState) : List (String × QuantityObservation) :=
  state.projection.observations.map fun o => (o.quantityHash, o)

def observationNamed (state : CanonicalQuantityState) (hash : String) : Except PyError QuantityObservation :=
  match lookup (observationsByHash state) hash with
  | none => .error (.keyError hash)
  | some o => .ok o

def decisionOrder (entry : ArbitratedSlice × QuantityObservation) : String ×ₗ String ×ₗ Int ×ₗ Int :=
  toLex (entry.2.occurredAt, toLex (entry.1.source.observationHash, toLex (entry.1.source.startMsat, entry.1.source.endMsat)))

def sourced (state : CanonicalQuantityState) (d : ArbitratedSlice) :
    Except PyError (ArbitratedSlice × QuantityObservation) := do
  let source ← observationNamed state d.source.observationHash
  pure (d, source)

def located (state : CanonicalQuantityState) (entry : ArbitratedSlice × QuantityObservation) : Except PyError Located :=
  match entry.1.target with
  | none => .ok { decision := entry.1, source := entry.2, target := none }
  | some slice => do
    let target ← observationNamed state slice.observationHash
    pure { decision := entry.1, source := entry.2, target := some (slice, target) }

def Located.move (d : Located) : Option (QuantitySlice × QuantityObservation) :=
  if d.decision.state ∈ QuantityState.targetStates then d.target else none

theorem Located.move_iff {d : Located} {aim : QuantitySlice × QuantityObservation} :
    d.move = some aim ↔ d.decision.state ∈ QuantityState.targetStates ∧ d.target = some aim :=
  Option.ite_none_right_eq_some

def locatedDecisions (state : CanonicalQuantityState) : Except PyError (List Located) := do
  let sources ← state.projection.decisions.mapM (sourced state)
  let ordered := sortedBy decisionOrder sources
  -- The targets of internal moves are looked up first, for the graph of moves.
  let _ ← (ordered.filter fun entry => entry.1.state ∈ QuantityState.targetStates).mapM (located state)
  ordered.mapM (located state)

def moveEdges (decisions : List Located) : List (String × String) :=
  decisions.filterMap fun d => d.move.map fun target => (d.source.anchorTransactionId, target.2.anchorTransactionId)

def moveNeighbors (edges : List (String × String)) (id : String) : List String :=
  sortedSet ((edges.filter fun edge => edge.1 = id).map snd ++ (edges.filter fun edge => edge.2 = id).map fst)

def moveAnchors (edges : List (String × String)) : List String := sortedSet (edges.map fst ++ edges.map snd)

def blockedClosure (blocked : List String) (edges : List (String × String)) : Spread String :=
  let roots := sortedSet blocked
  spread (moveNeighbors edges) roots.toFinset (roots.length + (moveAnchors edges).length * roots.length)
    (start roots.toFinset roots)

structure TaxContext where
  args : TaxArguments
  state : CanonicalQuantityState
  decisions : List Located
  closure : Spread String

namespace TaxContext

def rowsById (ctx : TaxContext) : List (String × LedgerRow) := ctx.args.rowsById

def blocked (ctx : TaxContext) (id : String) : Prop := id ∈ ctx.closure.reached

instance (ctx : TaxContext) (id : String) : Decidable (ctx.blocked id) := inferInstanceAs (Decidable (_ ∈ _))

def barred (ctx : TaxContext) (o : QuantityObservation) : Bool :=
  match ctx.state.taxEligibility.barrierFor o with
  | none => false
  | some barrier =>
    match ctx.state.canonicalInput.eventOrderByHash o.quantityHash with
    | none => true
    | some order => decide (order.at > barrier.at ∨ (order.at = barrier.at ∧ order ≠ barrier))

def eligible (ctx : TaxContext) (d : ArbitratedSlice) : Prop :=
  (d.source.observationHash, d.source.range) ∈
    ctx.state.taxEligibility.eligibleDecisions.map fun e => (e.source.observationHash, e.source.range)

instance (ctx : TaxContext) (d : ArbitratedSlice) : Decidable (ctx.eligible d) := inferInstanceAs (Decidable (_ ∈ _))

end TaxContext

def startsWith (mark text : String) : Bool := mark.toList.isPrefixOf text.toList

def secondPart (text : String) : String :=
  String.ofList (((text.toList.dropWhile (· ≠ ':')).drop 1).takeWhile (· ≠ ':'))

def pairBundle (d : ArbitratedSlice) : Option String :=
  match d.atomicBundleId.filter fun bundle => bundle ≠ "" with
  | some bundle => some bundle
  | none =>
    let claimId := d.selectedClaimId.getD ""
    if startsWith "pair:" claimId then some ("pair:" ++ secondPart claimId) else none

def bundleFee (decisions : List Located) (bundle : Option String) : Int :=
  match bundle with
  | none => 0
  | some b => ((decisions.filter fun d => d.decision.destinationKind = some .fee ∧ pairBundle d.decision = some b).map
      fun d => d.decision.source.amountMsat).sum

def isBitcoinRailPair (outAsset inAsset : String) : Bool :=
  let out := (strip outAsset).toUpper
  let inbound := (strip inAsset).toUpper
  decide ((out = "BTC" ∧ inbound = "LBTC") ∨ (out = "LBTC" ∧ inbound = "BTC"))

/-- The reviewed payout that carries the basis of a source across assets. -/
def carryingPayout (args : TaxArguments) (source : QuantityObservation) : Option DirectPayout :=
  (lookup args.payoutsBySource source.anchorTransactionId).filter fun payout =>
    payout.policy = "carrying-value" ∧ source.asset ≠ payout.payoutAsset.toUpper ∧
      (args.profile.taxCountry.toLower = "at" ∨ isBitcoinRailPair source.asset payout.payoutAsset.toUpper = true)

inductive Branch where
  | blocked
  | held
  | move (slice : QuantitySlice) (target : QuantityObservation)
  | nonEvent
  | fee
  | unpriced (payout : DirectPayout)
  | payout (payout : DirectPayout) (received sold : TaxRow)
  | external
  | retained

def branch (ctx : TaxContext) (d : Located) : Branch :=
  if ctx.blocked d.source.anchorTransactionId ∨ ∃ target ∈ d.target, ctx.blocked target.2.anchorTransactionId then .blocked
  else if ¬ctx.eligible d.decision then .held
  else match d.move with
    | some (slice, target) => .move slice target
    | none =>
      if d.source.anchorTransactionId ∈ ctx.args.nonEvents then .nonEvent
      else if d.decision.state = .externalConfirmed ∨ d.decision.state = .externalPresumed then
        if d.decision.destinationKind = some .fee then .fee
        else match carryingPayout ctx.args d.source with
          | none => .external
          | some payout =>
            match directPayoutSettlementRows ctx.rowsById d.source payout with
            | none => .unpriced payout
            | some (received, sold) => .payout payout received sold
      else .retained

abbrev Quarantines := List ((String × String) × Quarantine)

def Quarantines.setDefault (quarantines : Quarantines) (key : String × String) (value : Tax.Quarantine) : Quarantines :=
  if (lookup quarantines key).isSome then quarantines else quarantines ++ [(key, value)]

structure LoopState where
  rows : List TaxRow := []
  intraPairs : List IntraPair := []
  crossPairs : List CrossAssetPair := []
  quarantines : Quarantines
  selectedMoves : List String := []
  allocatedFeeSources : List String := []
  consumedFeeBundles : List String := []

/-- The issues that explain a transaction, less those the interpreter explains itself. -/
def ownIssues (state : CanonicalQuantityState) : List QuantityIssue :=
  state.issues.filter fun issue => issue.issueType ≠ .custodyInterpreterBlocked

def quarantineBasisBarrier (ctx : TaxContext) (quarantines : Quarantines) (o : QuantityObservation) : Quarantines :=
  if ctx.args.hasRow o.anchorTransactionId = false then quarantines
  else
    let reason :=
      if ∃ issue ∈ ownIssues ctx.state, o.anchorTransactionId ∈ issue.transactionIds ∧
          issue.reason = "transfer_fee_implausible" then "transfer_fee_implausible" else "custody_basis_barrier"
    quarantines.setDefault (o.anchorTransactionId, reason)
      (ctx.args.profile.quarantine o.anchorTransactionId reason
        (.basisBarrier (ctx.state.taxEligibility.barrierFor o) o.quantityHash (ctx.state.taxEligibility.barrierRootsFor o)))

def feeFor (st : LoopState) (source : QuantityObservation) : Int :=
  if source.quantityHash ∈ st.allocatedFeeSources then 0 else source.feeMsat

def allocate (st : LoopState) (source : QuantityObservation) : LoopState :=
  { st with allocatedFeeSources := st.allocatedFeeSources ++ [source.quantityHash] }

def reviewedFee (ctx : TaxContext) (st : LoopState) (d : ArbitratedSlice) : Int :=
  if ∃ bundle ∈ pairBundle d, bundle ∈ st.consumedFeeBundles then 0 else bundleFee ctx.decisions (pairBundle d)

/-- An ordinary reviewed component restates the observed fee among its own fee slices. -/
def replacesFee (d : ArbitratedSlice) : Prop :=
  d.componentId ≠ none ∧ d.reason = "reviewed_custody_component" ∧ d.transferKind ≠ some "swap-refund"

instance (d : ArbitratedSlice) : Decidable (replacesFee d) := inferInstanceAs (Decidable (_ ∧ _ ∧ _))

def projectedFee (ctx : TaxContext) (st : LoopState) (d : Located) : Int :=
  let reviewed := reviewedFee ctx st d.decision
  if reviewed ≠ 0 ∧ replacesFee d.decision then reviewed else feeFor st d.source + reviewed

def intraPair (d : ArbitratedSlice) (moveId : String) (out inbound : TaxRow) : IntraPair :=
  { outRow := out, inRow := inbound, pairId := moveId, source := d.reason, policy := "carrying-value"
    groupId := d.atomicBundleId }

def crossPair (d : Located) (target : QuantityObservation) (moveId : String) (out inbound : TaxRow) : CrossAssetPair :=
  { pairId := if startsWith "pair:" moveId then secondPart moveId else moveId
    componentId := (d.decision.componentId.filter fun id => id ≠ "").or
      (if startsWith "component:" moveId then some (secondPart moveId) else none)
    outId := out.id, inId := inbound.id, outTransactionId := d.source.anchorTransactionId
    inTransactionId := some target.anchorTransactionId, outAsset := d.source.asset, inAsset := target.asset
    policy := orElse (d.decision.transferPolicy.getD "") "carrying-value"
    kind := orElse (d.decision.transferKind.getD "") "custody_cross_rail" }

/-- Emit both sides of a move, with the fees that are still its to carry. -/
def projectMove (ctx : TaxContext) (st : LoopState) (d : Located) (slice : QuantitySlice) (target : QuantityObservation) :
    LoopState :=
  let reviewed := reviewedFee ctx st d.decision
  let out := projectedSliceRow ctx.rowsById d.source d.decision.source "move-out" (projectedFee ctx st d)
  let inbound := projectedSliceRow ctx.rowsById target slice "move-in" 0
  let moveId := orElse (d.decision.selectedClaimId.getD "") out.id
  let same := d.source.asset = target.asset
  { allocate st d.source with
    rows := st.rows ++ [out, inbound]
    selectedMoves := st.selectedMoves ++ [moveId]
    consumedFeeBundles := st.consumedFeeBundles ++ if reviewed ≠ 0 then (pairBundle d.decision).toList else []
    intraPairs := st.intraPairs ++ if same then [intraPair d.decision moveId out inbound] else []
    crossPairs := st.crossPairs ++ if same then [] else [crossPair d target moveId out inbound] }

def payoutPair (source : QuantityObservation) (payout : DirectPayout) (out inbound : TaxRow) : CrossAssetPair :=
  { pairId := "direct-payout:" ++ payout.id, componentId := none, outId := out.id, inId := inbound.id
    outTransactionId := source.anchorTransactionId, inTransactionId := none, outAsset := source.asset
    inAsset := payout.payoutAsset.toUpper, policy := "carrying-value", kind := orElse payout.kind "direct-swap-payout" }

def externalRow (ctx : TaxContext) (d : Located) (feeMsat : Int) : TaxRow :=
  let row := projectedSliceRow ctx.rowsById d.source d.decision.source "external" feeMsat
  match d.decision.externalEconomicSubtype with
  | none => row
  | some subtype => { row with kind := some (subtypeText subtype), custodyExternalEconomicSubtype := some subtype }

def loopStep (ctx : TaxContext) (st : LoopState) (d : Located) : LoopState :=
  match branch ctx d with
  | .blocked => st
  | .held => { st with quarantines := quarantineBasisBarrier ctx st.quarantines d.source }
  | .move slice target => projectMove ctx st d slice target
  | .nonEvent =>
    { allocate st d.source with
      rows := st.rows ++ if feeFor st d.source ≠ 0 then
        [projectedFeeRow ctx.rowsById d.source "non-event-fee" (feeFor st d.source)] else [] }
  | .fee =>
    if ∃ bundle ∈ pairBundle d.decision, bundle ∈ st.consumedFeeBundles then st
    else
      { st with
        rows := st.rows ++ [projectedFeeRow ctx.rowsById d.source "reviewed-fee" d.decision.source.amountMsat] }
  | .unpriced payout =>
    { st with
      quarantines := st.quarantines.setDefault (d.source.anchorTransactionId, "at_swap_price_required")
        (ctx.args.profile.quarantine d.source.anchorTransactionId "at_swap_price_required" (.payoutPrice payout.id)) }
  | .payout payout received sold =>
    let out := projectedSliceRow ctx.rowsById d.source d.decision.source "direct-payout-source" (feeFor st d.source)
    { allocate st d.source with
      rows := st.rows ++ [out, received, sold]
      crossPairs := st.crossPairs ++ [payoutPair d.source payout out received] }
  | .external => { allocate st d.source with rows := st.rows ++ [externalRow ctx d (feeFor st d.source)] }
  | .retained => st

def receiptGaps : Int → List (Int × Int) → Int → List (Int × Int)
  | cursor, [], principal => if cursor < principal then [(cursor, principal)] else []
  | cursor, target :: rest, principal =>
    (if target.1 > cursor then [(cursor, target.1)] else []) ++ receiptGaps (max cursor target.2) rest principal

def anchorBlocking (issue : QuantityIssue) : Prop :=
  startsWith "custody_component_" issue.reason = true ∨ issue.issueType = .componentClaimCompileFailed ∨
    issue.issueType = .quantityClaimBundleInvalid

instance (issue : QuantityIssue) : Decidable (anchorBlocking issue) := inferInstanceAs (Decidable (_ ∨ _ ∨ _))

def blockedAnchorIds (state : CanonicalQuantityState) : List String :=
  (state.issues.filter fun issue => anchorBlocking issue).flatMap (·.transactionIds)

/-- A receipt that may book as an acquisition or be held by the barrier. -/
def isReceipt (ctx : TaxContext) (o : QuantityObservation) : Prop :=
  o.direction = .inbound ∧ ctx.args.hasRow o.transactionId = true ∧ o.anchorTransactionId ∉ ctx.args.nonEvents

instance (ctx : TaxContext) (o : QuantityObservation) : Decidable (isReceipt ctx o) := inferInstanceAs (Decidable (_ ∧ _ ∧ _))

def receipts (ctx : TaxContext) : List QuantityObservation :=
  (sortedBy (fun o : QuantityObservation => toLex (o.occurredAt, o.quantityHash)) ctx.state.projection.observations).filter
    fun o => isReceipt ctx o

def receiptRows (ctx : TaxContext) (o : QuantityObservation) : Except PyError (List TaxRow) :=
  if ctx.barred o then .ok []
  else if o.anchorTransactionId ∈ blockedAnchorIds ctx.state ∨ ctx.blocked o.anchorTransactionId then .ok []
  else do
    let targets := targetsOn (ctx.decisions.map (·.decision)) o.quantityHash
    let slices ← (receiptGaps 0 (targets.map QuantitySlice.range) o.principalMsat).mapM fun r =>
      QuantitySlice.make o.quantityHash r.1 r.2
    pure (slices.map fun slice => projectedSliceRow ctx.rowsById o slice "inbound" 0)

def feeOnly (ctx : TaxContext) (projected : List TaxRow) (o : QuantityObservation) : Prop :=
  o.direction = .outbound ∧ 0 < o.feeMsat ∧ o.quantityHash ∉ projected.map (·.custodyQuantityHash) ∧
    ¬ctx.blocked o.anchorTransactionId ∧ o.anchorTransactionId ∉ ctx.args.nonEvents ∧ ctx.barred o = false

instance (ctx : TaxContext) (projected : List TaxRow) (o : QuantityObservation) : Decidable (feeOnly ctx projected o) :=
  inferInstanceAs (Decidable (_ ∧ _ ∧ _ ∧ _ ∧ _ ∧ _))

def feeOnlyRows (ctx : TaxContext) (projected : List TaxRow) : List TaxRow :=
  (ctx.state.projection.observations.filter fun o => feeOnly ctx projected o).map fun o =>
    projectedFeeRow ctx.rowsById o "fee-only" o.feeMsat

def quantityBlockerPriority : List String :=
  ["custody_gap_review_required", "implicit_wallet_delta_unallocated", "unclaimed_source_residual",
    "source_overlap_quantity_unresolved", "search_capacity_incomplete", "capacity_source_suspense_required"]

def quantityBlockerRank (code : String) : Nat ×ₗ String :=
  if code ∈ quantityBlockerPriority then toLex (quantityBlockerPriority.idxOf code, code)
  else if startsWith "custody_component_" code then toLex (quantityBlockerPriority.length, code)
  else toLex (quantityBlockerPriority.length + 1, code)

def issueQuarantineReason (issue : QuantityIssue) : String :=
  if issue.reason = "transfer_fee_implausible" then "transfer_fee_implausible" else "custody_quantity_unresolved"

/-- The issues that name a row, by the row and the reason it is quarantined for. -/
def issuesByQuarantine (ctx : TaxContext) : List ((String × String) × List QuantityIssue) :=
  let named := (ownIssues ctx.state).flatMap fun issue =>
    (issue.transactionIds.filter fun id => ctx.args.hasRow id).map fun id => ((id, issueQuarantineReason issue), issue)
  (sortedBy (fun group : (String × String) × List ((String × String) × QuantityIssue) => toLex group.1)
    (groupBy fst named)).map fun group => (group.1, group.2.map snd)

def issueDetail (issues : List QuantityIssue) : Option QuarantineDetail :=
  let ranked := sortedBy (fun issue : QuantityIssue => toLex (quantityBlockerRank issue.reason, issue.issueId)) issues
  ranked.head?.map fun issue =>
    let several := 1 < issues.length
    .unresolved issue.reason issue.issueId
      (if several then sortedSet (issues.map (·.reason)) else []) (if several then sortedSet (issues.map (·.issueId)) else [])
      (sortedSet ((issues.filterMap (·.gapId)).filter fun id => id ≠ ""))
      (startsWith "custody_component_" issue.reason || decide (issue.issueType = .componentClaimCompileFailed))

def quarantineIssues (ctx : TaxContext) (quarantines : Quarantines) (group : (String × String) × List QuantityIssue) :
    Quarantines :=
  match issueDetail group.2 with
  | none => quarantines
  | some detail => quarantines.setDefault group.1 (ctx.args.profile.quarantine group.1.1 group.1.2 detail)

def quarantineReceipt (ctx : TaxContext) (projected : List TaxRow) (before quarantines : Quarantines)
    (o : QuantityObservation) : Quarantines :=
  if o.anchorTransactionId ∉ projected.map (·.journalTransactionId) ∧
      o.anchorTransactionId ∉ before.map fun entry => entry.1.1 then
    quarantineBasisBarrier ctx quarantines o
  else quarantines

/-- The only projected row of an anchor with the reviewed amount and direction. -/
def conversionLeg (projected : List TaxRow) (anchor : String) (amount : Int) (direction : Direction) : Option TaxRow :=
  match projected.filter fun row => anchor ≠ "" ∧ row.journalTransactionId = anchor ∧ row.amount = amount ∧
      row.direction = direction with
  | [only] => some only
  | _ => none

def addConversion (projected : List TaxRow) (pairs : List CrossAssetPair) (pair : ConversionPair) : List CrossAssetPair :=
  if pair.pairId = "" ∨ pair.pairId ∈ pairs.map (·.pairId) then pairs
  else match conversionLeg projected pair.outId pair.outAmount .outbound,
      conversionLeg projected pair.inId pair.inAmount .inbound with
    | some out, some inbound =>
      pairs ++
        [{ pairId := pair.pairId, componentId := some pair.componentId, outId := out.id, inId := inbound.id
           outTransactionId := pair.outId, inTransactionId := some pair.inId, outAsset := orElse pair.outAsset out.asset
           inAsset := orElse pair.inAsset inbound.asset, policy := orElse pair.policy "taxable"
           kind := orElse pair.kind "swap" }]
    | _, _ => pairs

def interpreterEntries (args : TaxArguments) : Quarantines :=
  (args.interpreterQuarantines.filter fun item => item.transactionId ≠ "").map fun item =>
    ((item.transactionId, orElse item.reason "custody_interpreter_blocked"), item)

/-- Rows on a move path that an explicitly blocked transaction breaks. -/
def dependencyEntries (ctx : TaxContext) : Quarantines :=
  let roots := ctx.args.explicitlyBlocked
  ((moveAnchors (moveEdges ctx.decisions)).filter fun id => ctx.blocked id ∧ id ∉ roots ∧ ctx.args.hasRow id = true).map
    fun id => ((id, "transfer_pair_dependency_blocked"),
      ctx.args.profile.quarantine id "transfer_pair_dependency_blocked"
        (.dependency ((sortedSet roots).filter fun root => root ∈ ctx.closure.origins id)))

def initialLoop (ctx : TaxContext) : LoopState :=
  { quarantines := interpreterEntries ctx.args ++ dependencyEntries ctx }

def quarantineOrder (interpreted : List (String × String)) (item : Quarantine) : String ×ₗ Nat ×ₗ String :=
  toLex (item.transactionId, toLex (if (item.transactionId, item.reason) ∈ interpreted then 0 else 1, item.reason))

def taxContext (args : TaxArguments) (state : CanonicalQuantityState) : Except PyError TaxContext := do
  let decisions ← locatedDecisions state
  pure { args, state, decisions, closure := blockedClosure args.explicitlyBlocked (moveEdges decisions) }

/-- The rows of the loop, of the receipts and of the fees left over. -/
def projectedRows (ctx : TaxContext) (walked : LoopState) : Except PyError (List TaxRow) := do
  let inbound ← (receipts ctx).mapM (receiptRows ctx)
  let booked := walked.rows ++ inbound.flatten
  pure (booked ++ feeOnlyRows ctx booked)

def finalQuarantines (ctx : TaxContext) (walked : LoopState) (rows : List TaxRow) : Quarantines :=
  let explained := (issuesByQuarantine ctx).foldl (quarantineIssues ctx) walked.quarantines
  ((receipts ctx).filter fun o => ctx.barred o).foldl (quarantineReceipt ctx rows explained) explained

def assemble (ctx : TaxContext) (walked : LoopState) (rows : List TaxRow) : FinalizedTaxProjection :=
  { rows := sortedBy (fun row : TaxRow => toLex (row.occurredAt, row.id)) rows
    intraPairs := walked.intraPairs
    crossAssetPairs := ctx.state.reviewedConversionPairs.foldl (addConversion rows) walked.crossPairs
    quarantines := sortedBy (quarantineOrder ((interpreterEntries ctx.args).map fst))
      ((items (finalQuarantines ctx walked rows)).map snd)
    selectedMoveIds := sortedBy id walked.selectedMoves }

def compileFinalizedTaxProjection (args : TaxArguments) (state : CanonicalQuantityState) :
    Except PyError FinalizedTaxProjection := do
  let ctx ← taxContext args state
  let walked := ctx.decisions.foldl (loopStep ctx) (initialLoop ctx)
  let rows ← projectedRows ctx walked
  let projection := assemble ctx walked rows
  projection.postInit
  pure projection

end Kassiber.Tax

import Kassiber.Lib.Text
import Kassiber.Custody.Components
import Kassiber.Custody.Quantity

/-!
Reviewed allocations become one atomic bundle of quantity claims.
-/

namespace Kassiber.Custody
open Lib.Outcome Lib.Dict Lib.Sorting

structure DirectPayout where
  id : String
  componentId : Option String := none
  outTransactionId : String
  kind : String := ""
  policy : String := ""
  outAmount : Option Int := none
  payoutAsset : String := ""
  payoutAmount : Int := 0
  payoutOccurredAt : String := ""
  payoutFiatValue : Option Rat := none

structure ConversionPair where
  pairId : String
  componentId : String
  outId : String
  inId : String
  outAmount : Int
  inAmount : Int
  outAsset : String
  inAsset : String
  policy : String
  kind : String

structure ComponentClaimCompilation where
  componentId : String
  claims : List QuantityClaim := []
  suspenseMsat : Int := 0
  reviewedConversionPairs : List ConversionPair := []
  reviewedDirectPayouts : List DirectPayout := []

def orElse (text fallback : String) : String := if text ≠ "" then text else fallback

def directPayoutRecord (componentId : String) (term : EconomicTerm) (sink : ComponentLeg) (source : QuantityObservation)
    (sourceAmount sinkAmount : Int) : DirectPayout :=
  { id := term.legacySourceId, componentId := some componentId, outTransactionId := source.anchorTransactionId
    kind := orElse term.reviewKind "direct-swap-payout", policy := orElse term.taxPolicy "taxable"
    outAmount := some sourceAmount, payoutAsset := orElse term.payoutAsset sink.asset
    payoutAmount := if term.payoutAmountMsat ≠ 0 then term.payoutAmountMsat else sinkAmount
    payoutOccurredAt := orElse term.payoutOccurredAt sink.occurredAt, payoutFiatValue := term.payoutFiatValueExact }

def residualMark : String := "reviewed_residual:"

def ComponentLeg.residualNote (leg : ComponentLeg) : Option String :=
  if residualMark.toList.isPrefixOf leg.notes.toList then
    some (String.ofList (leg.notes.toList.drop residualMark.length))
  else none

namespace Component

/-- The reviewed classification, or the only one a guided gap review notes on its legs. -/
def residual (component : Component) : String :=
  let guided := component.componentType = "manual_bridge" ∧ component.evidenceKind = "custody_gap_review"
  let noted := (if guided then component.legTable.filterMap ComponentLeg.residualNote else []).dedup
  if component.residualClassification ≠ "" then component.residualClassification
  else match noted with
    | [only] => only
    | _ => ""

def quantityTransferKind (component : Component) : Option String :=
  match ((component.economicTerms.filter fun term => term.termKind = .transactionPair ∧ term.reviewKind ≠ "").map
      (·.reviewKind)).dedup with
  | [only] => some only
  | _ => none

def finalizedRetainedLegIds (component : Component) : List String :=
  ((component.legTable.filter fun leg => leg.role = .retained ∧ leg.observedBy = "" ∧
      leg.notes = "reviewed_residual:retained_custody").map (·.id)) ++
    ((component.economicTerms.filter fun term => term.termKind = .directSwapPayout ∧ term.targetLegId ≠ "").map
      (·.targetLegId))

def term (component : Component) (source sink : ComponentLeg) : Option EconomicTerm :=
  lookup (component.economicTerms.map fun term => ((term.sourceLegId, term.targetLegId), term)) (source.id, sink.id)

def payoutTerm (component : Component) (source sink : ComponentLeg) : Option EconomicTerm :=
  (component.term source sink).filter fun term => term.termKind = .directSwapPayout

end Component

abbrev Cursors := List (String × Int)

def Cursors.at (cursors : Cursors) (hash : String) : Int := (lookup cursors hash).getD 0

def Cursors.move (cursors : Cursors) (hash : String) (position : Int) : Cursors := cursors ++ [(hash, position)]

structure ClaimState where
  sources : Cursors := []
  targets : Cursors := []
  claims : List QuantityClaim := []
  pairs : List ConversionPair := []
  payouts : List DirectPayout := []
  suspenseMsat : Int := 0

section
variable (component : Component) (observations : List (String × QuantityObservation))

def observationOf (transactionId : String) : Except PyError QuantityObservation :=
  match lookup observations transactionId with
  | none => .error (componentError "component allocation references an unavailable observation")
  | some o => .ok o

/-- The observed source and amount of an allocation, for the totals of a conversion. -/
def conversionShare (allocation : ComponentAllocation) : Except PyError (List (QuantityObservation × Int)) :=
  match component.leg allocation.sourceLegId with
  | none => .ok []
  | some source =>
    if source.role ≠ .source ∨ source.observedBy = "" then .ok []
    else do
      let o ← observationOf observations source.observedBy
      pure [(o, allocation.sourceAmountMsat)]

/-- A conversion starts each source cursor where its own share of the principal begins. -/
def conversionCursors (allocations : List ComponentAllocation) : Except PyError Cursors := do
  let shares ← allocations.mapM (conversionShare component observations)
  (groupBy (fun share : QuantityObservation × Int => share.1.quantityHash) shares.flatten).mapM fun group => do
    let claimed := (group.2.map Prod.snd).sum
    match ((items observations).map Prod.snd).find? fun o => o.quantityHash = group.1 with
    | none => .error (.keyError group.1)
    | some o =>
      raiseIf (claimed > o.principalMsat) (componentError "component claims exceed observed source principal")
      pure (group.1, o.principalMsat - claimed)

structure SinkVerdict where
  state : QuantityState
  reason : String
  target : Option (QuantityObservation × Int × Int) := none
  slice : Option QuantitySlice := none
  pairs : List ConversionPair := []
  payouts : List DirectPayout := []
  suspenseMsat : Int := 0

def conversionPair (index : Nat) (allocation : ComponentAllocation) (source sink : ComponentLeg)
    (out inbound : QuantityObservation) : ConversionPair :=
  let term := component.term source sink
  { pairId := orElse ((term.map (·.legacySourceId)).getD "")
      ("component:" ++ component.id ++ ":conversion:" ++ orElse allocation.id (toString index))
    componentId := component.id, outId := out.anchorTransactionId, inId := inbound.anchorTransactionId
    outAmount := allocation.sourceAmountMsat, inAmount := allocation.sinkAmountMsat
    outAsset := out.asset, inAsset := inbound.asset
    policy := orElse ((term.map (·.taxPolicy)).getD "") (orElse component.conversionPolicy "taxable")
    kind := orElse ((term.map (·.reviewKind)).getD "") (orElse component.componentType "swap") }

/-- An owned sink: an observed receipt, a reviewed payout, or a reviewed retained residual. -/
def ownedVerdict (state : ClaimState) (index : Nat) (allocation : ComponentAllocation) (source sink : ComponentLeg)
    (out : QuantityObservation) : Except PyError SinkVerdict :=
  let conversion := component.conservationMode = .conversion
  if sink.observedBy = "" then
    match component.payoutTerm source sink with
    | some term =>
      if conversion then
        .ok
          { state := .externalConfirmed, reason := "reviewed_direct_payout_source"
            payouts := [directPayoutRecord component.id term sink out allocation.sourceAmountMsat
              allocation.sinkAmountMsat] }
      else if sink.id ∉ component.finalizedRetainedLegIds then
        .error (componentError "flattened component target is not observed")
      else .ok { state := .internalReviewed, reason := "reviewed_retained_custody" }
    | none =>
      if sink.id ∉ component.finalizedRetainedLegIds then
        .error (componentError "flattened component target is not observed")
      else .ok { state := .internalReviewed, reason := "reviewed_retained_custody" }
  else do
    let inbound ← observationOf observations sink.observedBy
    raiseIf (inbound.direction ≠ .inbound) (componentError "quantity claim target observation is not inbound")
    let start := state.targets.at inbound.quantityHash
    let stop := start + allocation.sinkAmountMsat
    raiseIf (stop > inbound.principalMsat) (componentError "component claims exceed observed target principal")
    if conversion ∧ ¬(out.asset = inbound.asset ∧ allocation.sourceAmountMsat = allocation.sinkAmountMsat) then
      pure
        { state := .externalConfirmed, reason := "reviewed_taxable_conversion_source"
          target := some (inbound, start, stop)
          pairs := [conversionPair component index allocation source sink out inbound] }
    else
      let slice ← QuantitySlice.make inbound.quantityHash start stop
      pure
        { state := .internalReviewed
          reason := if conversion then "reviewed_native_conversion_residual" else "reviewed_custody_component"
          target := some (inbound, start, stop), slice := some slice }

def sinkVerdict (state : ClaimState) (index : Nat) (allocation : ComponentAllocation) (source sink : ComponentLeg)
    (out : QuantityObservation) : Except PyError SinkVerdict :=
  match sink.role with
  | .destination | .retained => ownedVerdict component observations state index allocation source sink out
  | .fee => do
    raiseIf (allocation.sourceAmountMsat ≠ allocation.sinkAmountMsat)
      (componentError "fee allocation must conserve its source quantity")
    pure
      { state := .externalConfirmed
        reason := if component.conservationMode = .conversion then "reviewed_conversion_fee" else "reviewed_network_fee" }
  | .suspense =>
    .ok
      { state := .custodySuspense, reason := "reviewed_residual_suspense"
        suspenseMsat := allocation.sourceAmountMsat }
  | .external =>
    match component.payoutTerm source sink with
    | some term =>
      .ok
        { state := .externalConfirmed, reason := "reviewed_direct_payout_source"
          payouts := [directPayoutRecord component.id term sink out allocation.sourceAmountMsat
            allocation.sinkAmountMsat] }
    | none => .ok { state := .externalConfirmed, reason := "reviewed_external_component_allocation" }
  | .source | .unresolved => .error (componentError "component sink role cannot emit a quantity claim")

def destinationKindOf (sink : ComponentLeg) (slice : Option QuantitySlice) : Option DestinationKind :=
  if sink.role = .fee then some .fee
  else if sink.role = .external ∨ (component.conservationMode = .conversion ∧
      (sink.role = .destination ∨ sink.role = .retained) ∧ slice = none) then some .external
  else if sink.role = .retained ∧ slice = none then some .retainedCustody
  else none

def externalSubtypeOf (sink : ComponentLeg) : Option ExternalSubtype :=
  if sink.role = .external ∧ sink.residualNote ≠ none then
    if component.residual = "external_payment" then some .payment
    else if component.residual = "external_disposal" then some .disposal
    else if component.residual = "external_gift" then some .gift
    else if component.residual = "external_loss" then some .lost
    else none
  else none

def allocationClaim (index : Nat) (allocation : ComponentAllocation) (sink : ComponentLeg) (out : QuantityObservation)
    (slice : QuantitySlice) (verdict : SinkVerdict) : Except PyError QuantityClaim :=
  QuantityClaim.make
    { claimId := "component:" ++ component.id ++ ":allocation:" ++ orElse allocation.id (toString index)
      source := slice, state := verdict.state, priority := .reviewedComponent, reason := verdict.reason
      target := verdict.slice, atomicBundleId := some ("component:" ++ component.id)
      destinationKind := destinationKindOf component sink verdict.slice
      externalEconomicSubtype := externalSubtypeOf component sink
      transferKind := if component.conservationMode = .conversion then some (orElse component.componentType "swap")
        else component.quantityTransferKind
      transferPolicy := if component.conservationMode = .conversion then
        some (orElse component.conversionPolicy "taxable") else none
      componentId := some component.id
      allowCrossRail := match verdict.slice, verdict.target with
        | some _, some (inbound, _) =>
          decide ((QuantityDomain.fromObservation out).rail ≠ (QuantityDomain.fromObservation inbound).rail)
        | _, _ => false }

def claimSlice (state : ClaimState) (index : Nat) (allocation : ComponentAllocation) (source sink : ComponentLeg)
    (out : QuantityObservation) : Except PyError ClaimState := do
  let start := state.sources.at out.quantityHash
  let stop := start + allocation.sourceAmountMsat
  raiseIf (stop > out.principalMsat) (componentError "component claims exceed observed source principal")
  let slice ← QuantitySlice.make out.quantityHash start stop
  let verdict ← sinkVerdict component observations state index allocation source sink out
  let claim ← allocationClaim component index allocation sink out slice verdict
  pure
    { sources := state.sources.move out.quantityHash stop
      targets := match verdict.target with
        | some (inbound, _, stop) => state.targets.move inbound.quantityHash stop
        | none => state.targets
      claims := state.claims ++ [claim]
      pairs := state.pairs ++ verdict.pairs
      payouts := state.payouts ++ verdict.payouts
      suspenseMsat := state.suspenseMsat + verdict.suspenseMsat }

def claimAllocation (state : ClaimState) (entry : ComponentAllocation × Nat) : Except PyError ClaimState :=
  let allocation := entry.1
  match component.leg allocation.sourceLegId, component.leg allocation.sinkLegId with
  | some source, some sink => do
    raiseIf (source.role ≠ .source) (componentError "component allocation endpoints are invalid")
    if allocation.sourceAmountMsat ≤ 0 ∧ allocation.sinkAmountMsat ≤ 0 then pure state
    else
      raiseIf (component.conservationMode ≠ .conversion ∧ allocation.sourceAmountMsat ≠ allocation.sinkAmountMsat)
        (componentError "quantity claim allocation does not conserve exact msat")
      raiseIf (source.observedBy = "") (componentError "flattened component source is not observed")
      let out ← observationOf observations source.observedBy
      raiseIf (out.direction ≠ .outbound) (componentError "quantity claim source observation is not outbound")
      -- A plain fee allocation restates the observed fee; a reviewed residual fee consumes principal.
      if component.conservationMode ≠ .conversion ∧ sink.role = .fee ∧ sink.notes ≠ "reviewed_residual:network_fee" then
        raiseIf (allocation.sourceAmountMsat ≠ out.feeMsat)
          (componentError "component fee allocation does not match the observed fee")
        pure state
      else claimSlice component observations state entry.2 allocation source sink out
  | _, _ => .error (componentError "component allocation endpoints are invalid")

/-- The observations that a quantity-conserving component must claim in full. -/
def claimedInFull (sources : Cursors) (entry : String × QuantityObservation) : Except PyError Unit :=
  raiseIf (entry.2.direction = .outbound ∧
      (∃ leg ∈ component.legTable, leg.observedBy = entry.1 ∧ leg.role = .source) ∧
      sources.at entry.2.quantityHash ≠ entry.2.principalMsat)
    (componentError "component did not claim the complete observed source principal")

def wrapAllocationError : PyError → PyError
  | .allocationError _ message => componentError message
  | other => other

def compileComponentQuantityClaims : Except PyError ComponentClaimCompilation := do
  raiseIf (component.id = "") (componentError "component id is required")
  raiseIf (component.effectiveState ≠ "active")
    (componentError "only an effective active component can emit quantity claims")
  raiseIf (component.allocations = [] ∧ ∃ leg ∈ component.legTable, leg.role = .suspense ∧ 0 < leg.amountMsat)
    (componentError "suspense components require explicit allocations")
  let inferred ← (inferComponentAllocations component).mapError wrapAllocationError
  let allocations ← flattenTransactionlessRoutes component component.finalizedRetainedLegIds inferred
  let cursors ←
    if component.conservationMode = .conversion then conversionCursors component observations allocations else pure []
  let done ← allocations.zipIdx.foldlM (claimAllocation component observations) { sources := cursors }
  if component.conservationMode ≠ .conversion then
    (items observations).forM (claimedInFull component done.sources)
  pure
    { componentId := component.id, claims := done.claims, suspenseMsat := done.suspenseMsat
      reviewedConversionPairs := done.pairs, reviewedDirectPayouts := done.payouts }

end

end Kassiber.Custody

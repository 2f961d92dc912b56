import Kassiber.Custody.Routes

/-!
Validation of one authored component from its own rows: conservation of quantities or valuations, exact coverage by
allocations, fees charged to the source that pays them, suspense residuals and the routes inside the component.
-/

namespace Kassiber.Custody.Book
open Lib.Outcome Lib.Dict Lib.Sorting Lib.UnionFind

structure ReviewHeader where
  componentType : String
  conservationMode : ConservationMode
  evidenceGrade : Option String := none
  conversionPolicy : Option String := none
  conversionReviewed : Bool := false
  deriving DecidableEq

def flag (found : Prop) [Decidable found] (code : String) (about : List String := []) : List Issue :=
  if found then [{ code, about }] else []

def isHexDigest (text : String) : Bool := text.length = 64 && text.toList.all fun c => c ∈ "0123456789abcdef".toList

def normalizeAssetCode (value : String) : String :=
  let text := strip value
  let lowered := text.toLower
  if text = "" then ""
  else if isHexDigest lowered then lowered
  else if lowered = "l-btc" ∨ lowered = "lbtc" then "LBTC"
  else text.toUpper

def amounts (legs : List Leg) : Int := (legs.map Leg.amountMsat).sum

def residuals {κ : Type} [DecidableEq κ] (entries : List (κ × LegRole × Int)) : List (κ × Int) :=
  (entries.map Prod.fst).dedup.map fun key =>
    (key, (entries.map fun entry =>
      if entry.1 ≠ key then 0 else if entry.2.1 = .source then entry.2.2 else - entry.2.2).sum)

def quantityResiduals (legs : List Leg) : List ((String × String) × Int) :=
  residuals (legs.map fun leg => ((leg.exposure, leg.conservationUnit), leg.role, leg.amountMsat))

def valuationResiduals (legs : List Leg) : List (String × Int) :=
  residuals (legs.filterMap fun leg =>
    match leg.valuationUnit, leg.valuationAmount with
    | some unit, some amount => some (unit, leg.role, amount)
    | _, _ => none)

def suspenseLegIssues (leg : Leg) : List Issue :=
  flag (present leg.walletId ≠ none ∨ present leg.transactionId ≠ none ∨ present leg.anchorTransactionId ≠ none)
      "custody_suspense_anchor_invalid" [leg.id] ++
    flag (present leg.occurredAt = none) "custody_suspense_occurred_at_missing" [leg.id]

def suspenseAllocationIssues (clock : String → Option Int) (legs : List Leg) (allocation : Allocation) : List Issue :=
  match legNamed legs allocation.sinkLegId, legNamed legs allocation.sourceLegId with
  | some sink, some source =>
    let about := [allocation.id, source.id, sink.id]
    let sourceScope := quantityNetworkScope source
    let sinkScope := quantityNetworkScope sink
    if sink.role ≠ .suspense then []
    else
      flag (present source.transactionId = none) "custody_suspense_observed_source_required" about ++
      flag (normalizeAssetCode source.asset ≠ normalizeAssetCode sink.asset) "custody_suspense_asset_mismatch" about ++
      flag (source.exposure ≠ sink.exposure ∨ source.conservationUnit ≠ sink.conservationUnit ∨
        allocation.sourceAmountMsat ≠ allocation.sinkAmountMsat) "custody_suspense_quantity_mismatch" about ++
      flag (sourceScope.valid = false ∨ sinkScope.valid = false ∨ sourceScope.domain = none ∨
        sourceScope.domain ≠ sinkScope.domain) "custody_suspense_network_mismatch" about ++
      flag (source.moment clock = none ∨ sink.moment clock ≠ source.moment clock) "custody_suspense_time_mismatch" about
  | _, _ => []

def suspenseIssues (clock : String → Option Int) (header : ReviewHeader) (legs : List Leg)
    (allocations : List Allocation) : List Issue :=
  let suspense := legs.filter fun leg => leg.role = .suspense ∧ 0 < leg.amountMsat
  if suspense = [] then []
  else
    flag (header.conservationMode ≠ .quantity) "custody_suspense_quantity_mode_required" ++
    flag (header.componentType ≠ "manual_bridge" ∨ (header.evidenceGrade.getD "").toLower ≠ "reviewed")
      "custody_suspense_review_required" ++
    flag (allocations = []) "custody_suspense_allocation_required" ++
    suspense.flatMap suspenseLegIssues ++ allocations.flatMap (suspenseAllocationIssues clock legs)

/-- A fee is charged to the source that pays it: same asset, wallet and network. -/
def feeSourceIssues (source sink : Leg) : List Issue :=
  let about := [source.id, sink.id]
  let sourceScope := quantityNetworkScope source
  let feeScope := quantityNetworkScope sink
  flag (normalizeAssetCode source.asset ≠ normalizeAssetCode sink.asset) "fee_source_asset_mismatch" about ++
  flag (sink.walletId ≠ none ∧ source.walletId ≠ none ∧ sink.walletId ≠ source.walletId)
    "fee_source_wallet_mismatch" about ++
  flag (sourceScope.valid = false ∨ feeScope.valid = false ∨ sourceScope.rail ≠ feeScope.rail ∨
    (sourceScope.domain ≠ none ∧ feeScope.domain ≠ none ∧ sourceScope.domain ≠ feeScope.domain))
    "fee_source_scope_mismatch" about

def conversionFeeIssues (source sink : Leg) (allocation : Allocation) : List Issue :=
  let about := [allocation.id, source.id, sink.id]
  flag (allocation.sourceAmountMsat ≠ allocation.sinkAmountMsat) "conversion_fee_quantity_mismatch" about ++
  match source.valuationAmount, sink.valuationAmount with
  | some sourceValue, some feeValue =>
    flag (source.valuationUnit = sink.valuationUnit ∧ 0 < source.amountMsat ∧
      feeValue * source.amountMsat ≠ sourceValue * allocation.sourceAmountMsat)
      "conversion_fee_valuation_mismatch" about
  | _, _ => []

def Allocation.ends (legs : List Leg) (allocation : Allocation) : Option (Leg × Leg) :=
  match legNamed legs allocation.sourceLegId, legNamed legs allocation.sinkLegId with
  | some source, some sink => if source.role = .source ∧ sink.role ≠ .source then some (source, sink) else none
  | _, _ => none

def allocationIssues (legs : List Leg) (mode : ConservationMode) (allocation : Allocation) : List Issue :=
  match allocation.ends legs with
  | none => [{ code := "allocation_leg_invalid", about := [allocation.id] }]
  | some (source, sink) =>
    (if sink.role = .fee then
      feeSourceIssues source sink ++ (if mode = .conversion then conversionFeeIssues source sink allocation else [])
    else []) ++
    flag (mode = .quantity ∧ (source.exposure ≠ sink.exposure ∨ source.conservationUnit ≠ sink.conservationUnit ∨
      allocation.sourceAmountMsat ≠ allocation.sinkAmountMsat)) "allocation_quantity_mismatch"
      [allocation.id, source.id, sink.id]

def validAllocations (legs : List Leg) (allocations : List Allocation) : List Allocation :=
  allocations.filter fun allocation => (allocation.ends legs).isSome

def sourceCoverage (legs : List Leg) (allocations : List Allocation) (id : String) : Int :=
  ((validAllocations legs allocations).map fun allocation =>
    if allocation.sourceLegId = id then allocation.sourceAmountMsat else 0).sum

def sinkCoverage (legs : List Leg) (allocations : List Allocation) (id : String) : Int :=
  ((validAllocations legs allocations).map fun allocation =>
    if allocation.sinkLegId = id then allocation.sinkAmountMsat else 0).sum

def orphanFeeSources (legs : List Leg) (allocations : List Allocation) : List String :=
  let carried (fee : Bool) := (allocations.filterMap fun allocation => do
    let ends ← allocation.ends legs
    if 0 < allocation.sourceAmountMsat ∧ decide (ends.2.role = .fee) = fee then some ends.1.id else none)
  sortedSet ((carried true).filter fun id => id ∉ carried false)

def coverageIssues (legs : List Leg) (allocations : List Allocation) : List Issue :=
  (positiveSources legs).flatMap (fun leg =>
    flag (sourceCoverage legs allocations leg.id ≠ leg.amountMsat) "allocation_source_coverage_mismatch" [leg.id]) ++
  flag (orphanFeeSources legs allocations ≠ []) "custody_component_fee_orphaned" (orphanFeeSources legs allocations) ++
  (positiveSinks legs).flatMap (fun leg =>
    flag (sinkCoverage legs allocations leg.id ≠ leg.amountMsat) "allocation_sink_coverage_mismatch" [leg.id])

def inferredAllocationIssues (legs : List Leg) (mode : ConservationMode) : List Issue :=
  let sources := positiveSources legs
  let sinks := positiveSinks legs
  let owned := sinks.filter fun leg => leg.role = .destination ∨ leg.role = .retained
  let attributed := sinks.filter fun leg => leg.role = .fee ∨ leg.role = .external ∨ leg.role = .suspense
  let unambiguous : Bool := match mode with
    | .conversion => sources.length = 1 ∧ sinks.length = 1
    | .quantity => sources.length ≤ 1 ∨ (owned.length = 1 ∧ attributed = [])
  flag (sources ≠ [] ∧ sinks ≠ [] ∧ unambiguous = false) "allocation_required" (sources.map Leg.id ++ sinks.map Leg.id) ++
  match sources with
  | [source] => (sinks.filter fun sink => sink.role = .fee).flatMap (feeSourceIssues source)
  | _ => []

def validateAllocations (legs : List Leg) (allocations : List Allocation) (mode : ConservationMode) : List Issue :=
  allocations.flatMap (allocationIssues legs mode) ++
  (if allocations ≠ [] then coverageIssues legs allocations else inferredAllocationIssues legs mode) ++
  quantityAllocationScopeIssues legs allocations mode

/-- The positive retained legs that continue the only source in its own asset and unit. -/
def retainedContinuations (legs : List Leg) : List Leg :=
  match positiveSources legs with
  | [source] => (legs.filter fun leg => leg.role = .retained ∧ 0 < leg.amountMsat).filter fun leg =>
      normalizeAssetCode leg.asset = normalizeAssetCode source.asset ∧ leg.exposure = source.exposure ∧
        leg.conservationUnit = source.conservationUnit
  | _ => []

def conversionOutputs (legs : List Leg) : List Leg :=
  let retained := legs.filter fun leg => leg.role = .retained ∧ 0 < leg.amountMsat
  let converted := match positiveSources legs with
    | [_] => retained.filter fun leg => leg ∉ retainedContinuations legs
    | _ => []
  (legs.filter fun leg => leg.role = .destination ∧ 0 < leg.amountMsat) ++ converted

/-- A conversion without another output converts into its first retained continuation. -/
def conversionTopology (legs : List Leg) : List Leg × List Leg :=
  match conversionOutputs legs, retainedContinuations legs with
  | [], first :: rest => ([first], rest)
  | outputs, continuations => (outputs, continuations)

def conversionIssues (header : ReviewHeader) (legs : List Leg) (allocations : List Allocation) : List Issue :=
  let (outputs, continuations) := conversionTopology legs
  let changed := allocations.filter fun allocation =>
    (match legNamed legs allocation.sinkLegId with
      | some sink => decide (sink ∈ continuations)
      | none => false) && decide (allocation.sourceAmountMsat ≠ allocation.sinkAmountMsat)
  flag ((positiveSources legs).length ≠ 1 ∨ outputs.length ≠ 1) "conversion_topology_unsupported" ++
  flag (continuations ≠ [] ∧ changed ≠ []) "conversion_retained_quantity_mismatch" (changed.map Allocation.id) ++
  flag (header.conversionReviewed = false) "conversion_not_reviewed" ++
  flag (strip (header.conversionPolicy.getD "") = "") "conversion_policy_missing" ++
  flag (∃ leg ∈ legs, (0 < leg.amountMsat ∨ 0 < leg.valuationAmount.getD 0) ∧
    (leg.valuationUnit = none ∨ leg.valuationAmount = none)) "conversion_valuation_missing" ++
  flag (valuationResiduals legs = []) "conversion_valuation_missing" ++
  flag (∃ row ∈ valuationResiduals legs, row.2 ≠ 0) "unbalanced_conversion_valuation"

section
variable (clock : String → Option Int)

def occurrenceIssues (legs : List Leg) : List Issue :=
  flag (∃ leg ∈ legs, (leg.role = .fee ∨ leg.role = .external) ∧ leg.amountMsat = 0 ∧ 0 < leg.valuationAmount.getD 0)
    "custody_component_value_only_loss_unsupported" ++
  flag (∃ leg ∈ legs, leg.transactionId = none ∧ leg.role ∈ ownedRoles ∧ 0 < leg.amountMsat ∧
    present leg.occurredAt = none) "leg_occurred_at_missing" ++
  flag (∃ leg ∈ legs, present leg.occurredAt ≠ none ∧ leg.moment clock = none) "leg_occurred_at_invalid"

def balanceIssues (header : ReviewHeader) (legs : List Leg) (allocations : List Allocation) : List Issue :=
  match header.conservationMode with
  | .quantity => flag (∃ row ∈ quantityResiduals legs, row.2 ≠ 0) "unbalanced_quantity"
  | .conversion => conversionIssues header legs allocations

/-- The issues that keep a component from being activated, from its own rows alone. -/
def validateConservation (header : ReviewHeader) (legs : List Leg) (allocations : List Allocation) :
    Except BookError (List Issue) :=
  if ∃ leg ∈ legs, leg.role ∉ legRoles then pure [{ code := "custody_component_leg_role_unknown" }]
  else do
    let chronology ← allocationChronologyIssues clock legs allocations header.conservationMode
    let continuity ← locationContinuityIssues clock legs
    pure (flag (legs = []) "no_legs" ++
      flag (amounts (legs.filter fun leg => leg.role = .source) ≤ 0) "missing_source" ++
      flag (amounts (legs.filter fun leg => leg.role = .destination ∨ leg.role = .retained) ≤ 0)
        "missing_owned_destination" ++
      suspenseIssues clock header legs allocations ++ occurrenceIssues clock legs ++ chronology ++ continuity ++
      balanceIssues header legs allocations ++ validateAllocations legs allocations header.conservationMode ++
      quantityScopeConnectivityIssues legs allocations header.conservationMode)

end

end Kassiber.Custody.Book

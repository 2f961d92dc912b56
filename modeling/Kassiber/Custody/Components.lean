import Kassiber.Lib.Dict
import Kassiber.Lib.Sorting
import Kassiber.Custody.Evidence

/-!
Reviewed custody components: legs, allocations between them and the economic terms of their edges.
-/

namespace Kassiber.Custody
open Lib.Outcome Lib.Dict Lib.Sorting

inductive LegRole where
  | source
  | destination
  | fee
  | external
  | retained
  | unresolved
  | suspense
  deriving DecidableEq

inductive ConservationMode where
  | quantity
  | conversion
  deriving DecidableEq

inductive TermKind where
  | transactionPair
  | directSwapPayout
  deriving DecidableEq

structure ComponentLeg where
  id : String
  role : LegRole
  amountMsat : Int
  anchorTransactionId : String := ""
  transactionId : String := ""
  walletId : String := ""
  locationRef : String := ""
  asset : String := ""
  exposure : String := ""
  conservationUnit : String := ""
  rail : String := ""
  occurredAt : String := ""
  notes : String := ""
  deriving DecidableEq

structure ComponentAllocation where
  id : String
  ordinal : Int := 0
  sourceLegId : String
  sinkLegId : String
  sourceAmountMsat : Int
  sinkAmountMsat : Int
  deriving DecidableEq

structure EconomicTerm where
  termKind : TermKind
  sourceLegId : String
  targetLegId : String
  legacySourceId : String
  reviewKind : String := ""
  taxPolicy : String := ""
  payoutAsset : String := ""
  payoutAmountMsat : Int := 0
  payoutOccurredAt : String := ""
  payoutFiatValueExact : Option Rat := none

structure Component where
  id : String
  effectiveState : String
  componentType : String := ""
  evidenceKind : String := ""
  residualClassification : String := ""
  conservationMode : ConservationMode := .quantity
  conversionPolicy : String := ""
  legs : List ComponentLeg
  allocations : List ComponentAllocation
  economicTerms : List EconomicTerm

/-- The transaction that observes a leg, empty for a leg without one. -/
def ComponentLeg.observedBy (leg : ComponentLeg) : String :=
  if leg.anchorTransactionId ≠ "" then leg.anchorTransactionId else leg.transactionId

structure LocationKey where
  location : String
  asset : String
  exposure : String
  unit : String
  rail : String
  deriving DecidableEq

def componentError (message : String) : PyError := .appError "custody_component_claim_compile" message

def ComponentLeg.locationKey (leg : ComponentLeg) : Except PyError LocationKey := do
  let location := if leg.walletId ≠ "" then leg.walletId else leg.locationRef
  raiseIf (location = "") (componentError "transaction-less route leg needs a custody location")
  pure
    { location, asset := leg.asset.toUpper, exposure := leg.exposure
      unit := if leg.conservationUnit ≠ "" then leg.conservationUnit else "msat", rail := leg.rail }

namespace Component

def leg (component : Component) (id : String) : Option ComponentLeg :=
  lookup (component.legs.map fun leg => (leg.id, leg)) id

def legTable (component : Component) : List ComponentLeg :=
  component.legs.filter fun leg => component.leg leg.id = some leg

def transactionIds (component : Component) : List String :=
  sortedSet ((component.legs.map ComponentLeg.observedBy).filter fun id => id ≠ "")

theorem mem_transactionIds {component : Component} {id : String} :
    id ∈ component.transactionIds ↔ id ≠ "" ∧ ∃ leg ∈ component.legs, leg.observedBy = id := by
  unfold transactionIds
  rw [mem_sortedSet, List.mem_filter, List.mem_map]
  constructor
  · rintro ⟨legs, named⟩
    exact ⟨of_decide_eq_true named, legs⟩
  · rintro ⟨named, legs⟩
    exact ⟨legs, decide_eq_true named⟩

end Component

def allocationRequired (message : String) : PyError :=
  .allocationError "custody_component_allocation_required" message

/-- Explicit allocations in order, or the only ones a one-sided component admits. -/
def inferComponentAllocations (component : Component) : Except PyError (List ComponentAllocation) :=
  if component.allocations ≠ [] then
    .ok (sortedBy (fun a : ComponentAllocation => toLex (a.ordinal, a.id)) component.allocations)
  else
    let legs := component.legs.filter fun leg => 0 < leg.amountMsat
    let sources := legs.filter fun leg => leg.role = .source
    let sinks := legs.filter fun leg => leg.role ≠ .source
    let quantityMode := component.conservationMode = .quantity
    if ¬quantityMode ∧ (sources.length ≠ 1 ∨ sinks.length ≠ 1) then
      .error (allocationRequired "multi-leg conversion components require explicit source-to-sink allocations")
    else match sources, sinks with
      | [source], sinks => .ok (sinks.zipIdx.map fun entry =>
          { id := "inferred:" ++ toString entry.2, ordinal := entry.2, sourceLegId := source.id, sinkLegId := entry.1.id
            sourceAmountMsat := if quantityMode then entry.1.amountMsat else source.amountMsat
            sinkAmountMsat := entry.1.amountMsat })
      | sources, [sink] =>
        if sink.role = .destination ∨ sink.role = .retained then
          .ok (sources.zipIdx.map fun entry =>
            { id := "inferred:" ++ toString entry.2, ordinal := entry.2, sourceLegId := entry.1.id, sinkLegId := sink.id
              sourceAmountMsat := entry.1.amountMsat, sinkAmountMsat := entry.1.amountMsat })
        else .error (allocationRequired "N:M custody components require explicit source-to-sink allocations")
      | _, _ => .error (allocationRequired "N:M custody components require explicit source-to-sink allocations")

/-- An amount that entered a route at an observed leg, with the allocations it passed. -/
structure RouteToken where
  origin : String
  amount : Int
  path : List String

abbrev RoutePools := List (LocationKey × List RouteToken)

structure RouteState where
  pending : List ComponentAllocation
  pools : RoutePools
  flattened : List ComponentAllocation
  progressed : Bool

namespace RoutePools

def tokens (pools : RoutePools) (key : LocationKey) : List RouteToken :=
  ((pools.find? fun entry => entry.1 = key).map Prod.snd).getD []

def put (pools : RoutePools) (key : LocationKey) (queue : List RouteToken) : RoutePools :=
  match pools with
  | [] => [(key, queue)]
  | entry :: rest => if entry.1 = key then (key, queue) :: rest else entry :: put rest key queue

def available (pools : RoutePools) (key : LocationKey) : Int := ((pools.tokens key).map (·.amount)).sum

end RoutePools

/-- Take an amount from the front of a queue, splitting the last token. -/
def takeTokens : List RouteToken → Int → Except PyError (List RouteToken × List RouteToken)
  | queue, 0 => .ok ([], queue)
  | [], _ => .error .indexError
  | token :: rest, remaining =>
    if min remaining token.amount < token.amount then
      .ok ([{ token with amount := remaining }], { token with amount := token.amount - remaining } :: rest)
    else do
      let (taken, left) ← takeTokens rest (remaining - token.amount)
      pure (token :: taken, left)

section
variable (component : Component) (finalizedRetainedLegIds : List String)

/-- The tokens an allocation moves: new at an observed leg, else taken from the leg's place; none when the
place does not hold enough yet. -/
def routeTokens (state : RouteState) (allocation : ComponentAllocation) (source : ComponentLeg) :
    Except PyError (Option (List RouteToken × RoutePools)) :=
  let allocationId := if allocation.id ≠ "" then allocation.id else toString state.flattened.length
  if source.observedBy ≠ "" then
    .ok (some ([{ origin := allocation.sourceLegId, amount := allocation.sourceAmountMsat, path := [allocationId] }],
      state.pools))
  else do
    let key ← source.locationKey
    if state.pools.available key < allocation.sourceAmountMsat then pure none
    else
      let (taken, left) ← takeTokens (state.pools.tokens key) allocation.sourceAmountMsat
      pure (some (taken.map fun token => { token with path := token.path ++ [allocationId] }, state.pools.put key left))

/-- Tokens that reach a sink: kept at a place without transactions, else emitted as endpoint flows. -/
def routeArrive (state : RouteState) (allocation : ComponentAllocation) (sink : ComponentLeg)
    (tokens : List RouteToken) (pools : RoutePools) : Except PyError RouteState :=
  let settled := { state with pending := state.pending.erase allocation, progressed := true }
  if (sink.role = .destination ∨ sink.role = .retained) ∧ sink.observedBy = "" ∧
      allocation.sinkLegId ∉ finalizedRetainedLegIds then do
    let key ← sink.locationKey
    pure { settled with pools := pools.put key (pools.tokens key ++ tokens) }
  else
    .ok
      { settled with
        pools
        flattened := state.flattened ++ tokens.zipIdx.map fun entry =>
          { allocation with
            id := if 1 < entry.1.path.length then "route:" ++ ":".intercalate entry.1.path ++ ":" ++ toString entry.2
              else allocation.id
            sourceLegId := entry.1.origin
            sourceAmountMsat := entry.1.amount
            sinkAmountMsat := entry.1.amount } }

def routeAllocation (state : RouteState) (allocation : ComponentAllocation) : Except PyError RouteState :=
  match component.leg allocation.sourceLegId, component.leg allocation.sinkLegId with
  | some source, some sink => do
    raiseIf (source.role ≠ .source) (componentError "component allocation endpoints are invalid")
    if allocation.sourceAmountMsat ≤ 0 ∧ allocation.sinkAmountMsat ≤ 0 then
      pure { state with pending := state.pending.erase allocation, progressed := true }
    else if allocation.sourceAmountMsat ≠ allocation.sinkAmountMsat then
      raiseIf (component.conservationMode ≠ .conversion)
        (componentError "quantity claim allocation does not conserve exact msat")
      raiseIf (source.observedBy = "") (componentError "transaction-less conversion sources cannot emit tax claims")
      pure
        { state with
          pending := state.pending.erase allocation, progressed := true, flattened := state.flattened ++ [allocation] }
    else
      match ← routeTokens state allocation source with
      | none => pure state
      | some (tokens, pools) => routeArrive finalizedRetainedLegIds state allocation sink tokens pools
  | _, _ => .error (componentError "component allocation endpoints are invalid")

/-- Passes over the pending allocations until none is left; every pass must settle one. -/
def routePasses : Nat → RouteState → Except PyError RouteState
  | 0, state => .ok state
  | fuel + 1, state =>
    if state.pending = [] then .ok state
    else do
      let next ← state.pending.foldlM (routeAllocation component finalizedRetainedLegIds) { state with progressed := false }
      raiseIf (next.progressed = false) (componentError "transaction-less component route is incomplete or ambiguous")
      routePasses fuel next

def flattenTransactionlessRoutes (allocations : List ComponentAllocation) :
    Except PyError (List ComponentAllocation) := do
  let done ← routePasses component finalizedRetainedLegIds allocations.length
    { pending := allocations, pools := [], flattened := [], progressed := false }
  raiseIf (∃ entry ∈ done.pools, 0 < done.pools.available entry.1)
    (componentError "transaction-less component route ends without an observed or classified sink")
  pure done.flattened

end

end Kassiber.Custody

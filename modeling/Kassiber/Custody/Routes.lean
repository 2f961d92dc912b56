import Kassiber.Lib.UnionFind
import Kassiber.Custody.Canonical
import Kassiber.Custody.Components

/-!
Routes of authored components: the network domain of a leg, the value edges between legs, and the checks that
follow value through edges and shared locations, in one component and across the active ones.
-/

namespace Kassiber.Custody.Book
open Lib.Outcome Lib.Dict Lib.Sorting Lib.UnionFind

inductive BookError where
  | appError (code message : String)
  | integrityError (constraint : String)
  | overflowError
  deriving DecidableEq

/-- A stored leg of an authored component. An absent column is `none`. -/
structure Leg where
  id : String
  componentId : String
  profileId : String
  ordinal : Int := 0
  role : LegRole
  rail : String
  chain : Option String := none
  network : Option String := none
  asset : String
  exposure : String
  conservationUnit : String
  amountMsat : Int
  valuationUnit : Option String := none
  valuationAmount : Option Int := none
  occurredAt : Option String := none
  transactionId : Option String := none
  anchorTransactionId : Option String := none
  walletId : Option String := none
  locationRef : Option String := none
  notes : Option String := none
  deriving DecidableEq

structure Allocation where
  id : String
  componentId : String
  ordinal : Int := 0
  sourceLegId : String
  sinkLegId : String
  sourceAmountMsat : Int
  sinkAmountMsat : Int
  deriving DecidableEq

/-- What a check reports: its code, the components a route check names and the legs or rows it is about. -/
structure Issue where
  code : String
  componentIds : List String := []
  about : List String := []
  deriving DecidableEq

/-- A column read as Python reads it in a condition: the empty text counts as absent. -/
def present : Option String → Option String
  | some "" => none
  | value => value

structure NetworkScope where
  valid : Bool
  rail : String
  domain : Option String

def railAliases : List (String × String) :=
  [("btc", "bitcoin"), ("onchain", "bitcoin"), ("elements", "liquid"), ("lbtc", "liquid"), ("cln", "lightning"),
    ("coreln", "lightning"), ("lnd", "lightning"), ("nwc", "lightning")]

def railBaseChain : List (String × String) := [("bitcoin", "bitcoin"), ("lightning", "bitcoin"), ("liquid", "liquid")]

def networkDomain : List ((String × String) × String) :=
  [(("bitcoin", "main"), "main"), (("liquid", "liquidv1"), "main"), (("bitcoin", "test"), "test"),
    (("liquid", "liquidtestnet"), "test"), (("bitcoin", "regtest"), "regtest"),
    (("liquid", "elementsregtest"), "regtest"), (("bitcoin", "signet"), "signet")]

def genericNetworkDomain : List (String × String) :=
  [("bitcoin", "main"), ("liquid", "main"), ("liquidv1", "main"), ("main", "main"), ("mainnet", "main"),
    ("test", "test"), ("testnet", "test"), ("liquidtestnet", "test"), ("elements", "regtest"),
    ("elementsregtest", "regtest"), ("regtest", "regtest"), ("signet", "signet")]

def canonicalRail (value : String) : String :=
  let rail := (strip value).toLower.replace "_" "-"
  (lookup railAliases rail).getD rail

/-- `normalize_chain` of a present text, `none` where it refuses. -/
def knownChain (value : String) : Option String :=
  let chain := (strip value).toLower
  if chain = "" then some "bitcoin" else lookup chainAliases chain

/-- `normalize_network` of a present text on a known chain, `none` where it refuses. -/
def knownNetwork (chain value : String) : Option String :=
  let network := (strip value).toLower
  if chain = "bitcoin" then lookup bitcoinNetworkAliases (if network = "" then "main" else network)
  else lookup liquidNetworkAliases (if network = "" then "liquidv1" else network)

/-- The chain a leg names: `none` for a contradiction, `some none` where it names none. -/
def scopeChain (rail : String) (value : Option String) : Option (Option String) :=
  let expected := lookup railBaseChain rail
  match present value with
  | none => some expected
  | some raw =>
    match knownChain raw, expected with
    | none, some _ => none
    | none, none => some (some (strip raw).toLower)
    | some chain, some wanted => if chain = wanted then some (some chain) else none
    | some chain, none => some (some chain)

/-- The physical network domain of a leg. No domain means the evidence names no network. -/
def quantityNetworkScope (leg : Leg) : NetworkScope :=
  let rail := canonicalRail leg.rail
  match scopeChain rail leg.chain with
  | none => { valid := false, rail, domain := none }
  | some chain =>
    match present leg.network with
    | none => { valid := true, rail, domain := none }
    | some raw =>
      let text := (strip raw).toLower
      if chain = some "bitcoin" ∨ chain = some "liquid" then
        match knownNetwork (chain.getD "") text with
        | none => { valid := false, rail, domain := none }
        | some network => { valid := true, rail, domain := lookup networkDomain (chain.getD "", network) }
      else { valid := true, rail, domain := lookup genericNetworkDomain text }

def Leg.domain (leg : Leg) : Option String :=
  if (quantityNetworkScope leg).valid then (quantityNetworkScope leg).domain else none

def sinkRoles : List LegRole := [.destination, .fee, .external, .retained, .suspense]

def legRoles : List LegRole := .source :: sinkRoles

def ownedRoles : List LegRole := [.source, .destination, .retained]

def positiveSources (legs : List Leg) : List Leg := legs.filter fun leg => leg.role = .source ∧ 0 < leg.amountMsat

def positiveSinks (legs : List Leg) : List Leg := legs.filter fun leg => leg.role ∈ sinkRoles ∧ 0 < leg.amountMsat

/-- The only allocation a one-sided component admits, as the journal projector infers it. -/
def inferredAllocationLegPairs (sources sinks : List Leg) : ConservationMode → List (Leg × Leg)
  | .conversion =>
    match sources, sinks with
    | [source], [sink] => [(source, sink)]
    | _, _ => []
  | .quantity =>
    match sources with
    | [source] => sinks.map fun sink => (source, sink)
    | _ =>
      match sinks.filter (fun sink => sink.role = .destination ∨ sink.role = .retained),
          sinks.filter (fun sink => sink.role = .fee ∨ sink.role = .external ∨ sink.role = .suspense) with
      | [owned], [] => sources.map fun source => (source, owned)
      | _, _ => []

structure ValueEdge where
  allocationId : Option String
  source : Leg
  sink : Leg
  sourceAmountMsat : Int
  sinkAmountMsat : Int

def legNamed (legs : List Leg) (id : String) : Option Leg := lookup (legs.map fun leg => (leg.id, leg)) id

theorem legNamed_mem {legs : List Leg} {id : String} {leg : Leg} (found : legNamed legs id = some leg) : leg ∈ legs := by
  obtain ⟨other, own, same⟩ := List.mem_map.1 (mem_of_lookup found)
  cases same
  exact own

def Allocation.edge (legs : List Leg) (allocation : Allocation) : Option ValueEdge :=
  match legNamed legs allocation.sourceLegId, legNamed legs allocation.sinkLegId with
  | some source, some sink =>
    some { allocationId := some allocation.id, source, sink, sourceAmountMsat := allocation.sourceAmountMsat,
           sinkAmountMsat := allocation.sinkAmountMsat }
  | _, _ => none

/-- Explicit allocations with both legs at hand, or the inferred ones. -/
def allocationPairs (legs : List Leg) (allocations : List Allocation) (mode : ConservationMode) : List ValueEdge :=
  if allocations ≠ [] then allocations.filterMap (Allocation.edge legs)
  else (inferredAllocationLegPairs (positiveSources legs) (positiveSinks legs) mode).map fun pair =>
    { allocationId := none, source := pair.1, sink := pair.2, sourceAmountMsat := pair.1.amountMsat,
      sinkAmountMsat := pair.2.amountMsat }

def componentKey (id : String) : String := if id = "" then "__single__" else id

/-- The allocations of one component in a combined graph: its explicit ones, else those its legs admit. -/
def completedAllocations (component : String) (legs : List Leg) (explicit : List Allocation)
    (mode : ConservationMode) : List Allocation :=
  if explicit ≠ [] then explicit
  else (inferredAllocationLegPairs (positiveSources legs) (positiveSinks legs) mode).zipIdx.map fun (pair, ordinal) =>
    { id := "inferred:" ++ component ++ ":" ++ toString ordinal, componentId := component, sourceLegId := pair.1.id,
      sinkLegId := pair.2.id, sourceAmountMsat := pair.1.amountMsat, sinkAmountMsat := pair.2.amountMsat }

def allocationsWithComponentInference (legs : List Leg) (allocations : List Allocation) (mode : ConservationMode) :
    List Allocation :=
  (sortedSet (legs.map fun leg => componentKey leg.componentId)).flatMap fun component =>
    completedAllocations component (legs.filter fun leg => componentKey leg.componentId = component)
      (allocations.filter fun allocation => componentKey allocation.componentId = component) mode

/-- The last moment a timestamp can name, in microseconds since 1970. -/
def latestMoment : Int := 253402300799999999

def chronologySkewTolerance : Int := 48 * 3600 * 1000000

/-- Adding the tolerance to a timestamp, which fails past the last moment. -/
def afterTolerance (moment : Int) : Except BookError Int :=
  if latestMoment < moment + chronologySkewTolerance then .error .overflowError
  else .ok (moment + chronologySkewTolerance)

section
variable (clock : String → Option Int)

/-- When a leg happened, `none` for a missing or malformed timestamp. -/
def Leg.moment (leg : Leg) : Option Int := (present leg.occurredAt).bind clock

/-- A value edge whose sink predates its source by more than the tolerance. -/
def chronologyIssue (edge : ValueEdge) : Except BookError (Option Issue) :=
  if edge.sourceAmountMsat ≤ 0 ∧ edge.sinkAmountMsat ≤ 0 then pure none
  else
    match edge.source.moment clock, edge.sink.moment clock with
    | some sourceWhen, some sinkWhen => do
      let reach ← afterTolerance sinkWhen
      if sourceWhen ≤ reach then pure none
      else pure (some { code := "allocation_chronology_mismatch", about := [edge.source.id, edge.sink.id] })
    | _, _ => pure none

def allocationChronologyIssues (legs : List Leg) (allocations : List Allocation) (mode : ConservationMode) :
    Except BookError (List Issue) := do
  pure ((← (allocationPairs legs allocations mode).mapM (chronologyIssue clock)).filterMap id)

/-! ### Continuity of a location -/

structure PlaceKey where
  walletId : String
  exposure : String
  conservationUnit : String
  deriving DecidableEq

def Leg.place (leg : Leg) : PlaceKey :=
  { walletId := leg.walletId.getD "", exposure := leg.exposure, conservationUnit := leg.conservationUnit }

structure Movement where
  moment : Int
  spends : Bool
  leg : Leg

/-- The order in which a location's movements are replayed: by time, credits first. -/
def Movement.key (movement : Movement) : Int ×ₗ Nat ×ₗ Int :=
  toLex (movement.moment, toLex (if movement.spends then 1 else 0, movement.leg.ordinal))

/-- A source that must be covered by the location's credits, at the time its spend counts. -/
def intermediateSpend (credits : List (Int × Leg)) (source : Int × Leg) : Except BookError (Option Movement) :=
  if source.2.transactionId = none then do
    pure (some { moment := ← afterTolerance source.1, spends := true, leg := source.2 })
  else if ∃ credit ∈ credits, credit.1 < source.1 then
    pure (some { moment := source.1, spends := true, leg := source.2 })
  else pure none

/-- Replays a location's movements and names the first spend beyond what was credited. -/
def overspend : Int → List Movement → Option Movement
  | _, [] => none
  | available, movement :: rest =>
    if movement.spends then
      if available < movement.leg.amountMsat then some movement
      else overspend (available - movement.leg.amountMsat) rest
    else overspend (available + movement.leg.amountMsat) rest

/-- The legs of a role with their times, `none` if one of them has none. -/
def timed (legs : List Leg) : Option (List (Int × Leg)) :=
  legs.mapM fun leg => (leg.moment clock).map fun moment => (moment, leg)

def continuityMovements (credits sources : List (Int × Leg)) : Except BookError (List Movement) := do
  let spends := (← sources.mapM (intermediateSpend credits)).filterMap id
  pure (credits.map (fun credit => { moment := credit.1, spends := false, leg := credit.2 }) ++ spends)

def continuityIssue (legs : List Leg) : Except BookError (Option Issue) :=
  let sources := legs.filter fun leg => leg.role = .source
  let sinks := legs.filter fun leg => leg.role = .destination ∨ leg.role = .retained
  if sources = [] ∨ sinks = [] then pure none
  else
    match timed clock sinks, timed clock sources with
    | some credits, some spends => do
      let movements ← continuityMovements credits spends
      match overspend 0 (sortedBy Movement.key movements) with
      | some movement => pure (some { code := "custody_location_continuity_mismatch", about := [movement.leg.id] })
      | none => pure none
    | _, _ => pure none

def PlaceKey.key (place : PlaceKey) : String ×ₗ String ×ₗ String :=
  toLex (place.walletId, toLex (place.exposure, place.conservationUnit))

def Leg.moves (leg : Leg) : Prop := 0 < leg.amountMsat ∧ present leg.walletId ≠ none ∧ leg.role ∈ ownedRoles

instance (leg : Leg) : Decidable leg.moves := inferInstanceAs (Decidable (_ ∧ _ ∧ _))

def locationContinuityIssues (legs : List Leg) : Except BookError (List Issue) := do
  let places := sortedBy (fun place => place.1.key) (groupBy Leg.place (legs.filter Leg.moves))
  pure ((← places.mapM fun place => continuityIssue clock place.2).filterMap id)

end

def namedComponents (legs : List Leg) : List String := sortedSet ((legs.map Leg.componentId).filter fun id => id ≠ "")

def placeEdges (legs : List Leg) : List (String × String) :=
  (groupBy Leg.place (legs.filter Leg.moves)).flatMap fun place =>
    match place.2 with
    | [] => []
    | first :: rest => rest.map fun leg => (first.id, leg.id)

def allocationEdges (legs : List Leg) (allocations : List Allocation) (mode : ConservationMode) :
    List (String × String) :=
  ((allocationPairs legs allocations mode).filter fun edge => 0 < edge.sourceAmountMsat ∨ 0 < edge.sinkAmountMsat).map
    fun edge => (edge.source.id, edge.sink.id)

def domainsOf (legs : List Leg) : List String := sortedSet (legs.filterMap Leg.domain)

/-- Known domains spread over value edges and shared locations. A route that reaches two of them is laundering. -/
def quantityScopeConnectivityIssues (legs : List Leg) (allocations : List Allocation) : ConservationMode → List Issue
  | .conversion => []
  | .quantity =>
    let material := legs.filter fun leg => 0 < leg.amountMsat
    let root := unions (allocationEdges material allocations .quantity ++ placeEdges material)
    (groupBy (fun leg : Leg => root leg.id) material).filterMap fun route =>
      if (domainsOf route.2).length ≤ 1 then none
      else some { code := "custody_network_scope_laundering", componentIds := namedComponents route.2,
                  about := domainsOf route.2 }

/-! ### Allocations across domains -/

def allocationScopeIssue (pair : Option String × Leg × Leg) : Option Issue :=
  let source := quantityNetworkScope pair.2.1
  let sink := quantityNetworkScope pair.2.2
  let about := [pair.1.getD "", pair.2.1.id, pair.2.2.id]
  if !source.valid || !sink.valid then some { code := "allocation_network_scope_invalid", about }
  else if source.domain ≠ none ∧ sink.domain ≠ none ∧ source.domain ≠ sink.domain then
    some { code := "allocation_network_mismatch", about }
  else none

def quantityAllocationScopeIssues (legs : List Leg) (allocations : List Allocation) : ConservationMode → List Issue
  | .conversion => []
  | .quantity =>
    ((allocationPairs legs allocations .quantity).map fun edge => (edge.allocationId, edge.source, edge.sink)).filterMap
      allocationScopeIssue

/-! ### Shared untracked locations -/

section
variable (clock : String → Option Int)

/-- Replays each untracked location that two or more components use, one of them a given one. -/
def crossComponentUntrackedContinuityIssues (legs : List Leg) (untracked : String → Bool) (current : List String) :
    Except BookError (List Issue) := do
  let places := groupBy Leg.place (legs.filter fun leg => untracked (leg.walletId.getD ""))
  let found ← places.mapM fun place => do
    let components := namedComponents place.2
    if components.length < 2 ∨ ∀ id ∈ components, id ∉ current then pure []
    else
      pure ((← locationContinuityIssues clock place.2).map fun issue => { issue with componentIds := components })
  pure found.flatten

end

end Kassiber.Custody.Book

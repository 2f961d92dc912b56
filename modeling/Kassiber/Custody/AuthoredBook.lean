import Kassiber.Custody.ReviewChecks

/-!
The authored book: revisions of components with their legs, allocations and terms, the memberships that guard
uniqueness, and the views of a component with the state it effectively has.
-/

namespace Kassiber.Custody.Book
open Lib.Outcome Lib.Dict Lib.Sorting Lib.UnionFind

inductive RevisionState where
  | draft
  | active
  | superseded
  deriving DecidableEq

structure ComponentRow where
  id : String
  lineageId : String
  workspaceId : String
  profileId : String
  revision : Nat
  header : ReviewHeader
  state : RevisionState
  expectedLegCount : Option Nat := none
  expectedAllocationCount : Option Nat := none
  expectedTermCount : Option Nat := none
  expectedEvidenceCount : Option Nat := none
  supersedes : Option String := none
  supersededBy : Option String := none
  createdAt : String := ""
  deriving DecidableEq

structure Term where
  id : String
  componentId : String
  sourceLegId : String
  targetLegId : String
  deriving DecidableEq

structure Membership where
  componentId : String
  profileId : String
  transactionId : String
  deriving DecidableEq

structure Tables where
  components : List ComponentRow
  legs : List Leg
  allocations : List Allocation
  terms : List Term
  memberships : List Membership
  deriving DecidableEq

structure RailScope where
  rail : Option String := none
  chain : Option String := none
  network : Option String := none

structure TransactionRow where
  id : String
  walletId : String
  direction : String
  asset : String
  amount : Int
  fee : Int := 0
  amountIncludesFee : Bool := false
  occurredAt : String
  excluded : Bool := false
  scope : RailScope := {}
  authoritative : Bool := false

structure WalletRow where
  kind : String
  scope : String → RailScope

/-- The imported side of the database, with what its rows say already read off them. -/
structure Imported where
  transactions : String → Option TransactionRow
  wallets : String → Option WalletRow
  clock : String → Option Int
  evidenceValid : ComponentRow → List Leg → Bool
  nativeUsable : ComponentRow → List Leg → List Allocation → Bool

def Imported.untracked (imported : Imported) (wallet : String) : Bool :=
  wallet ≠ "" && (imported.wallets wallet).any fun row => row.kind = "untracked"

/-- What the imported row of a leg's transaction, or else its wallet, says about the leg. -/
def Imported.evidence (imported : Imported) (leg : Leg) : Option (RailScope × Option TransactionRow) :=
  match (present leg.transactionId).bind imported.transactions with
  | some row => some (row.scope, some row)
  | none => ((present leg.walletId).bind imported.wallets).map fun wallet => (wallet.scope leg.asset, none)

/-- A leg with the scope its evidence adds and the transaction's own time. -/
def Imported.scopedLeg (imported : Imported) (leg : Leg) : Leg :=
  match imported.evidence leg with
  | none => leg
  | some (scope, row) =>
    { leg with
      rail := if leg.rail = "" then scope.rail.getD "" else leg.rail
      chain := if present leg.chain = none ∧ scope.chain ≠ none then scope.chain else leg.chain
      network := if present leg.network = none ∧ scope.network ≠ none then scope.network else leg.network
      occurredAt := match row with
        | none => leg.occurredAt
        | some row =>
          if row.occurredAt = "" ∨
              (present leg.occurredAt ≠ none ∧ leg.occurredAt ≠ some row.occurredAt ∧ row.authoritative) then
            leg.occurredAt
          else some row.occurredAt }

/-- The anchor of a leg as the checks read it: an empty anchor text falls back to the live transaction. -/
def Leg.anchor (leg : Leg) : Option String := (present leg.anchorTransactionId).or leg.transactionId

/-- The anchor the membership join compares: the stored anchor where the column is not null. -/
def Leg.joinAnchor (leg : Leg) : Option String := leg.anchorTransactionId.or leg.transactionId

namespace Tables

def row (book : Tables) (id : String) : Option ComponentRow := book.components.find? fun row => row.id = id

def legsOf (book : Tables) (id : String) : List Leg :=
  sortedBy (fun leg => toLex (leg.ordinal, leg.id)) (book.legs.filter fun leg => leg.componentId = id)

def allocationsOf (book : Tables) (id : String) : List Allocation :=
  sortedBy (fun allocation => toLex (allocation.ordinal, allocation.id))
    (book.allocations.filter fun allocation => allocation.componentId = id)

def termsOf (book : Tables) (id : String) : List Term := book.terms.filter fun term => term.componentId = id

def activeRoutes (book : Tables) (profile : String) : List ComponentRow :=
  sortedBy (fun row => row.id) (book.components.filter fun row =>
    row.profileId = profile ∧ row.state = .active ∧ row.header.conservationMode = .quantity)

/-! ### Route checks over several components -/

section
variable (imported : Imported)

/-- The route issues of the legs and allocations of several components, for the components named. -/
def combinedRouteIssues (legs : List Leg) (allocations : List Allocation) (current : List String) :
    Except BookError (List Issue) := do
  let scopes := legs.map imported.scopedLeg
  let completed := allocationsWithComponentInference scopes allocations .quantity
  let continuity ← crossComponentUntrackedContinuityIssues imported.clock scopes imported.untracked current
  pure (quantityScopeConnectivityIssues scopes completed .quantity ++ continuity)

def names (current : List String) (issue : Issue) : Prop := ∃ id ∈ issue.componentIds, id ∈ current

instance (current : List String) (issue : Issue) : Decidable (names current issue) :=
  inferInstanceAs (Decidable (∃ id ∈ issue.componentIds, id ∈ current))

/-- Legs and allocations of the other active components of the profile of some legs. -/
def otherActiveQuantityContent (book : Tables) (legs : List Leg) : List Leg × List Allocation :=
  match namedComponents legs, sortedSet ((legs.map Leg.profileId).filter fun id => id ≠ "") with
  | [component], [profile] =>
    let others := (book.activeRoutes profile).filter fun row => row.id ≠ component
    (others.flatMap fun row => book.legsOf row.id, others.flatMap fun row => book.allocationsOf row.id)
  | _, _ => ([], [])

def ownRouteIssues (book : Tables) (legs : List Leg) (allocations : List Allocation) :
    Except BookError (List Issue) := do
  let (otherLegs, otherAllocations) := book.otherActiveQuantityContent legs
  if otherLegs = [] then pure []
  else
    pure ((← combinedRouteIssues imported (legs ++ otherLegs) (allocations ++ otherAllocations)
      (namedComponents legs)).filter (names (namedComponents legs)))

/-- The combined graph of all active components of a profile, computed once. -/
def profileActiveRouteIssues (book : Tables) (profile : String) : Except BookError (List Issue) :=
  let legs := (book.activeRoutes profile).flatMap fun row => book.legsOf row.id
  if legs = [] then pure []
  else combinedRouteIssues imported legs ((book.activeRoutes profile).flatMap fun row => book.allocationsOf row.id)
    (namedComponents (legs.map imported.scopedLeg))

def reviewedUntrackedLocation (leg : Leg) : Prop :=
  leg.role = .retained ∧ leg.rail = "untracked" ∧
    (present leg.locationRef ≠ none ∨ leg.notes = some "reviewed_residual:retained_custody")

instance (leg : Leg) : Decidable (reviewedUntrackedLocation leg) := inferInstanceAs (Decidable (_ ∧ _ ∧ _))

def anchorRailScopeIssues (leg : Leg) (row : TransactionRow) : List Issue :=
  let about := [leg.id, row.id]
  (match row.scope.rail with
    | some rail => flag (canonicalRail leg.rail ≠ rail) "anchor_rail_mismatch" about
    | none => []) ++
  (match row.scope.chain, present leg.chain with
    | some chain, some raw => flag (knownChain raw ≠ some chain) "anchor_chain_mismatch" about
    | _, _ => []) ++
  (match row.scope.network, present leg.network with
    | some network, some raw =>
      flag (row.scope.chain.bind (fun chain => knownNetwork chain raw) ≠ some network) "anchor_network_mismatch" about
    | _, _ => [])

def anchorTimeIssues (leg : Leg) (row : TransactionRow) : List Issue :=
  match leg.moment imported.clock, (present (some row.occurredAt)).bind imported.clock with
  | none, _ => [{ code := "leg_occurred_at_invalid", about := [leg.id] }]
  | some _, none => [{ code := "anchor_occurred_at_mismatch", about := [leg.id] }]
  | some legWhen, some rowWhen =>
    flag (legWhen ≠ rowWhen ∧ row.authoritative = false) "anchor_occurred_at_mismatch" [leg.id]

def anchorRowIssues (leg : Leg) (row : TransactionRow) : List Issue :=
  let about := [leg.id, row.id]
  anchorRailScopeIssues leg row ++
  flag row.excluded "anchor_transaction_excluded" [row.id] ++
  flag (leg.role = .source ∧ row.direction ≠ "outbound") "source_anchor_direction_mismatch" about ++
  flag ((leg.role = .destination ∨ leg.role = .retained) ∧ row.direction ≠ "inbound")
    "destination_anchor_direction_mismatch" about ++
  flag ((leg.role = .fee ∨ leg.role = .external) ∧ row.direction ≠ "outbound") "loss_anchor_direction_mismatch" about ++
  flag (normalizeAssetCode leg.asset ≠ normalizeAssetCode row.asset) "anchor_asset_mismatch" about ++
  flag (leg.walletId ≠ none ∧ leg.walletId ≠ some row.walletId) "anchor_wallet_mismatch" about ++
  anchorTimeIssues imported leg row

def legAnchorIssues (leg : Leg) : List Issue :=
  let placed := present leg.walletId ≠ none ∨ reviewedUntrackedLocation leg
  flag (leg.role ∈ ownedRoles ∧ 0 < leg.amountMsat ∧ ¬ placed) "owned_leg_wallet_missing" [leg.id] ++
  match leg.transactionId with
  | none =>
    if leg.anchor ≠ none then [{ code := "anchor_transaction_retracted", about := [leg.id] }]
    else if leg.role ∈ ownedRoles ∧ 0 < leg.amountMsat then
      flag (¬ placed) "transactionless_leg_wallet_missing" [leg.id] ++
        flag (present leg.occurredAt = none) "leg_occurred_at_missing" [leg.id]
    else []
  | some transaction =>
    flag (leg.anchor ≠ some transaction) "anchor_transaction_identity_mismatch" [leg.id, transaction] ++
    match imported.transactions transaction with
    | none => [{ code := "anchor_transaction_missing", about := [transaction] }]
    | some row => anchorRowIssues imported leg row

/-- The amount of a transaction row that its component legs must cover. -/
def expectedCoverage (row : TransactionRow) (partialReview : Bool) : Int :=
  let outbound := (strip row.direction).toLower = "outbound"
  let principal := if outbound ∧ row.amountIncludesFee then row.amount - row.fee else row.amount
  if partialReview then principal else if outbound then principal + row.fee else row.amount

def coveredAmount (row : TransactionRow) (legs : List Leg) : Int :=
  amounts (legs.filter fun leg =>
    (row.direction = "outbound" ∧ leg.role = .source) ∨
      (row.direction = "inbound" ∧ (leg.role = .destination ∨ leg.role = .retained)))

def coverageOf (legs : List Leg) (partialLegs : List String) (transaction : String) : List Issue :=
  match imported.transactions transaction with
  | none => []
  | some row =>
    let anchored := legs.filter fun leg => leg.transactionId = some transaction
    let partialReview := anchored.any fun leg => decide (leg.id ∈ partialLegs)
    let actual := coveredAmount row anchored
    let expected := expectedCoverage row partialReview
    flag (if partialReview then ¬ (0 < actual ∧ actual ≤ expected) else actual ≠ expected)
      "anchor_coverage_mismatch" [transaction]

def liveTransactions (legs : List Leg) : List String := sortedSet (legs.filterMap Leg.transactionId)

/-- An observed miner fee stays apart from a source's suspense residual. -/
def suspenseFeeIssues (legs : List Leg) (allocations : List Allocation) (sourceId : String) : List Issue :=
  let own := allocations.filter fun allocation => allocation.sourceLegId = sourceId
  let sinkRole (allocation : Allocation) := (legNamed legs allocation.sinkLegId).map Leg.role
  match (legNamed legs sourceId).bind fun source => (present source.transactionId).bind imported.transactions with
  | none => []
  | some row =>
    flag ((∃ allocation ∈ own, sinkRole allocation = some .suspense) ∧
      (own.map fun allocation => if sinkRole allocation = some .fee then allocation.sourceAmountMsat else 0).sum ≠ row.fee)
      "custody_suspense_fee_coverage_mismatch" [sourceId]

/-- Chronology of the legs with their imported times, which only quantity components are held to. -/
def scopedChronologyIssues (legs : List Leg) (allocations : List Allocation) :
    ConservationMode → Except BookError (List Issue)
  | .quantity => allocationChronologyIssues imported.clock (legs.map imported.scopedLeg) allocations .quantity
  | .conversion => pure []

/-- The issues of a component's anchors, apart from the routes it shares with other components. -/
def anchorIssues (legs : List Leg) (allocations : List Allocation) (mode : ConservationMode)
    (partialLegs : List String) : Except BookError (List Issue) := do
  let scopes := legs.map imported.scopedLeg
  let chronology ← scopedChronologyIssues imported legs allocations mode
  pure (legs.flatMap (legAnchorIssues imported) ++
    (liveTransactions legs).flatMap (coverageOf imported legs partialLegs) ++
    ((allocations.map Allocation.sourceLegId).dedup).flatMap (suspenseFeeIssues imported legs allocations) ++
    quantityAllocationScopeIssues scopes allocations mode ++ chronology ++
    quantityScopeConnectivityIssues scopes allocations mode ++
    flag (liveTransactions legs = []) "transaction_anchor_missing")

/-- The issues a component takes from the routes it shares, precomputed for the profile or rebuilt around it. -/
def routeIssues (book : Tables) (legs : List Leg) (allocations : List Allocation) (mode : ConservationMode)
    (profileRouteIssues : Option (List Issue)) : Except BookError (List Issue) :=
  match mode, profileRouteIssues with
  | .conversion, _ => pure []
  | .quantity, some issues => pure (issues.filter (names (namedComponents legs)))
  | .quantity, none => book.ownRouteIssues imported legs allocations

end

/-! ### Lineages and memberships -/

/-- A revision link must name a row of the lineage on the right side of the revision. -/
def linkIssues (book : Tables) (row : ComponentRow) (link : Option String) (ordered : Nat → Nat → Bool) : List Issue :=
  match link with
  | none => []
  | some target =>
    match book.row target with
    | none => [{ code := "revision_link_missing", about := [target] }]
    | some other =>
      flag (other.profileId ≠ row.profileId ∨ other.lineageId ≠ row.lineageId ∨
        ordered row.revision other.revision = false) "revision_link_invalid" [target]

def lineageIssues (book : Tables) (row : ComponentRow) : List Issue :=
  flag (row.state = .active ∧ ∃ other ∈ book.components, other.profileId = row.profileId ∧
    other.lineageId = row.lineageId ∧ other.state = .active ∧ other.id ≠ row.id) "active_lineage_conflict" ++
  book.linkIssues row row.supersedes (fun own target => target < own) ++
  book.linkIssues row row.supersededBy (fun own target => own < target)

def stateOf (book : Tables) (id : String) : Option RevisionState := (book.row id).map ComponentRow.state

/-- Transactions of a component that a leg of another active component claims as well. -/
def activeMembershipConflicts (book : Tables) (component profile : String) : List (String × String) :=
  (book.legs.filter fun mine => mine.componentId = component ∧ mine.profileId = profile).flatMap fun mine =>
    match mine.joinAnchor with
    | none => []
    | some anchor => (book.legs.filter fun other =>
        other.profileId = mine.profileId ∧ other.joinAnchor = some anchor ∧ other.componentId ≠ mine.componentId ∧
          book.stateOf other.componentId = some .active).map fun other => (anchor, other.componentId)

structure View where
  row : ComponentRow
  legs : List Leg
  allocations : List Allocation
  terms : List Term
  issues : List Issue
  effectiveState : RevisionState
  deriving DecidableEq

def commitmentIssues (row : ComponentRow) (legs allocations terms : Nat) : List Issue :=
  match row.expectedLegCount, row.expectedAllocationCount, row.expectedTermCount with
  | some expectedLegs, some expectedAllocations, some expectedTerms =>
    flag (expectedLegs ≠ legs) "component_leg_count_mismatch" ++
    flag (expectedAllocations ≠ allocations) "component_allocation_count_mismatch" ++
    flag (expectedTerms ≠ terms) "component_economic_term_count_mismatch"
  | _, _, _ => [{ code := "component_content_commitment_missing" }]

/-- Issues that only an active component can have: lost evidence, contradicted policy and shared transactions. -/
def activeIssues (imported : Imported) (book : Tables) (row : ComponentRow) : List Issue :=
  if row.state = .active then
    flag (imported.evidenceValid row (book.legsOf row.id) = false) "component_evidence_commitment_invalid" ++
    flag (imported.nativeUsable row (book.legsOf row.id) (book.allocationsOf row.id) = false)
      "component_native_support_contradicted" ++
    flag (book.activeMembershipConflicts row.id row.profileId ≠ []) "active_membership_conflict"
  else []

def effectiveState (row : ComponentRow) (issues : List Issue) : RevisionState :=
  match row.state with
  | .active => if issues = [] then .active else .draft
  | .superseded => .superseded
  | .draft => .draft

/-- The issues of a component that do not come from the routes it shares. -/
def ownIssues (imported : Imported) (book : Tables) (row : ComponentRow) : Except BookError (List Issue) := do
  let legs := book.legsOf row.id
  let allocations := book.allocationsOf row.id
  let terms := book.termsOf row.id
  let conservation ← validateConservation imported.clock row.header legs allocations
  let anchors ← anchorIssues imported legs allocations row.header.conservationMode
    (terms.map Term.sourceLegId ++ terms.map Term.targetLegId)
  pure (conservation ++ commitmentIssues row legs.length allocations.length terms.length ++
    book.activeIssues imported row ++ anchors ++ book.lineageIssues row)

def materializeComponent (imported : Imported) (book : Tables) (profileRouteIssues : Option (List Issue))
    (row : ComponentRow) : Except BookError View := do
  let own ← book.ownIssues imported row
  let routes ← book.routeIssues imported (book.legsOf row.id) (book.allocationsOf row.id) row.header.conservationMode
    profileRouteIssues
  pure { row, legs := book.legsOf row.id, allocations := book.allocationsOf row.id, terms := book.termsOf row.id,
         issues := own ++ routes, effectiveState := effectiveState row (own ++ routes) }

def notFound : BookError := .appError "not_found" "custody component was not found"

def getComponent (imported : Imported) (book : Tables) (id : String) : Except BookError View :=
  match book.row id with
  | none => .error notFound
  | some row => book.materializeComponent imported none row

/-- Authored-active components of a profile, in the order they were created. -/
def activeRows (book : Tables) (profile : String) : List ComponentRow :=
  sortedBy (fun row => toLex (row.createdAt, toLex (row.revision, row.id)))
    (book.components.filter fun row => row.profileId = profile ∧ row.state = .active)

/-- Every authored-active component of a profile, judged by the routes computed once for the profile. -/
def iterAuthoredActiveComponents (imported : Imported) (book : Tables) (profile : String) :
    Except BookError (List View) := do
  let routes ← book.profileActiveRouteIssues imported profile
  (book.activeRows profile).mapM (book.materializeComponent imported (some routes))

/-- Components of a profile that pass a filter, newest first. -/
def selectedRows (book : Tables) (profile : String) (keep : ComponentRow → Bool) : List ComponentRow :=
  (sortedBy (fun row => toLex (row.createdAt, toLex (row.revision, row.id)))
    (book.components.filter fun row => row.profileId = profile ∧ keep row = true)).reverse

/-- Judging the rows of a listing until it is full. An effective listing passes over the rows that are not. -/
def listViews (judge : ComponentRow → Except BookError View) (effectiveOnly : Bool) (limit : Nat) :
    List View → List ComponentRow → Except BookError (List View)
  | result, [] => pure result
  | result, row :: rest => do
    let view ← judge row
    if effectiveOnly ∧ view.effectiveState ≠ .active then listViews judge effectiveOnly limit result rest
    else if result.length + 1 = limit then pure (result ++ [view])
    else listViews judge effectiveOnly limit (result ++ [view]) rest

def listComponents (imported : Imported) (book : Tables) (profile : String) (keep : ComponentRow → Bool)
    (effectiveOnly : Bool) (limit : Nat) : Except BookError (List View) :=
  if ¬(1 ≤ limit ∧ limit ≤ 1001) then
    .error (.appError "custody_component_validation" "limit must be between 1 and 1001")
  else do
    let rows := book.selectedRows profile keep
    let routes ← book.profileActiveRouteIssues imported profile
    -- Only active rows are judged by the routes of the profile; a draft is judged as the one candidate beside them.
    listViews (fun row => book.materializeComponent imported (if row.state = .active then some routes else none) row)
      effectiveOnly limit [] (if effectiveOnly then rows else rows.take limit)

/-! ### Memberships of the effective components -/

/-- A membership insert, refused where a component or a profile already holds the transaction. -/
def insertMembership (memberships : List Membership) (membership : Membership) : Except BookError (List Membership) :=
  if ∃ held ∈ memberships, held.componentId = membership.componentId ∧ held.transactionId = membership.transactionId then
    .error (.integrityError "component_id, transaction_id")
  else if ∃ held ∈ memberships, held.profileId = membership.profileId ∧ held.transactionId = membership.transactionId then
    .error (.integrityError "profile_id, transaction_id")
  else .ok (memberships ++ [membership])

def membershipsOf (profile : String) (view : View) : List Membership :=
  (liveTransactions view.legs).map fun transaction =>
    { componentId := view.row.id, profileId := profile, transactionId := transaction }

def reconcileActiveMemberships (imported : Imported) (book : Tables) (profile : String) : Except BookError Tables := do
  let views ← book.iterAuthoredActiveComponents imported profile
  let effective := views.filter fun view => view.effectiveState = .active
  let memberships ← (effective.flatMap (membershipsOf profile)).foldlM insertMembership
    (book.memberships.filter fun membership => membership.profileId ≠ profile)
  pure { book with memberships }

end Tables

end Kassiber.Custody.Book

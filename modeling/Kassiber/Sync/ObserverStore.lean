import Kassiber.Lib.Outcome
import Kassiber.Lib.Sorting

/-!
Each observer identity owns one state row with an epoch, its coverage and its opaque values; a prepared update
carries the epoch it was prepared at.
-/

namespace Kassiber.Sync.Observer
open Lib.Outcome Lib.Sorting

inductive ObserverError where
  | appError (code : String)
  deriving DecidableEq

section
variable (sha256 : String → String)

def observerInstanceId (logicalWalletId sourceWalletId sourceKey : String) : String :=
  sha256 ("\x00".intercalate ["chain-observer-identity-v1", logicalWalletId, sourceWalletId, sourceKey])

/-- One observer below a logical wallet; its id is a digest of its structural position. -/
structure ObserverIdentity where
  workspaceId : String
  profileId : String
  logicalWalletId : String
  sourceWalletId : String
  sourceKey : String
  observerKind : String
  chain : String
  network : String
  branchKeys : List String
  placed : sourceWalletId ≠ "" ∧ workspaceId ≠ "" ∧ profileId ≠ ""
  deriving DecidableEq

def ObserverIdentity.id (identity : ObserverIdentity) : String :=
  observerInstanceId sha256 identity.logicalWalletId identity.sourceWalletId identity.sourceKey

end

/-- A row of the instance table; its primary key is the digest of its position. -/
structure Instance where
  identity : ObserverIdentity
  stateVersion : Int
  stateEpoch : Int
  stateJson : String
  deriving DecidableEq

structure CoveragePoint where
  branchKey : String
  scannedTo : Int
  highestUsed : Option Int := none
  /-- The encoded details, none where the encoder refuses them. -/
  details : Option String := some "{}"

structure CoverageRow where
  coverageVersion : Int
  branchKey : String
  highestUsed : Option Int
  scannedTo : Int
  detailsJson : String
  deriving DecidableEq

structure Stored where
  row : Instance
  coverage : List CoverageRow
  values : List (String × List UInt8)
  deriving DecidableEq

/-- The observer tables, read by primary key; deleting a row cascades to its coverage and values. -/
abbrev Tables := String → Option Stored

def Tables.put (tables : Tables) (id : String) (stored : Option Stored) : Tables := fun key =>
  if key = id then stored else tables key

def observerStateEpoch (tables : Tables) (id : String) : Option Int := (tables id).map (·.row.stateEpoch)

structure StoredObserverState where
  payload : String
  coverage : List CoverageRow
  epoch : Int

section
variable (sha256 : String → String) (isObject : String → Bool)

def observerStateVersion : Int := 1

def observerCoverageVersion : Int := 2

def rebuildRequired : ObserverError := .appError "observer_state_rebuild_required"

def loadObserverState (tables : Tables) (identity : ObserverIdentity) :
    Except ObserverError (Option StoredObserverState) :=
  match tables (identity.id sha256) with
  | none => .ok none
  | some stored => do
    raiseIf (stored.row.stateVersion ≠ observerStateVersion) rebuildRequired
    raiseIf (stored.row.identity.observerKind ≠ identity.observerKind ∨ stored.row.identity.chain ≠ identity.chain ∨
        stored.row.identity.network ≠ identity.network ∨
        stored.row.identity.logicalWalletId ≠ identity.logicalWalletId ∨
        stored.row.identity.sourceWalletId ≠ identity.sourceWalletId ∨
        stored.row.identity.sourceKey ≠ identity.sourceKey) rebuildRequired
    raiseIf (isObject stored.row.stateJson = false) rebuildRequired
    raiseIf (∃ point ∈ stored.coverage, point.coverageVersion ≠ observerCoverageVersion ∨
        isObject point.detailsJson = false) rebuildRequired
    pure (some { payload := stored.row.stateJson, coverage := stored.coverage, epoch := stored.row.stateEpoch })

inductive Expectation where
  | unconditional
  | epoch (expected : Option Int)

def stateInvalid : ObserverError := .appError "observer_state_invalid"

def stateStale : ObserverError := .appError "observer_state_stale"

/-- One branch of a coverage; branches are checked in order, each against those before it. -/
def coverageRow (branchKeys seen : List String) (point : CoveragePoint) : Except ObserverError CoverageRow := do
  raiseIf (point.branchKey ∈ seen) stateInvalid
  raiseIf (point.branchKey ∉ branchKeys) stateInvalid
  raiseIf (point.scannedTo < 0 ∨ ∃ used ∈ point.highestUsed, used < 0) stateInvalid
  raiseIf (∃ used ∈ point.highestUsed, point.scannedTo ≤ used) stateInvalid
  match point.details with
  | none => .error stateInvalid
  | some text =>
    pure
      { coverageVersion := observerCoverageVersion, branchKey := point.branchKey, highestUsed := point.highestUsed
        scannedTo := point.scannedTo, detailsJson := text }

def coverageRows (branchKeys : List String) : List String → List CoveragePoint → Except ObserverError (List CoverageRow)
  | _, [] => .ok []
  | seen, point :: rest => do
    let row ← coverageRow branchKeys seen point
    let rows ← coverageRows branchKeys (point.branchKey :: seen) rest
    pure (row :: rows)

/-- The epoch of the row a persist leaves, or none where its expectation is not met. -/
def nextEpoch : Option Int → Expectation → Option Int
  | none, .unconditional => some 1
  | some epoch, .unconditional => some (epoch + 1)
  | none, .epoch none => some 1
  | some _, .epoch none => none
  | none, .epoch (some _) => none
  | some epoch, .epoch (some expected) => if epoch = expected then some (epoch + 1) else none

/-- Replaces the state and the coverage of one observer; opaque values stay. -/
def persistObserverState (tables : Tables) (identity : ObserverIdentity) (payload : Option String)
    (coverage : List CoveragePoint) (expected : Expectation) : Except ObserverError Tables :=
  match payload with
  | none => .error stateInvalid
  | some stateJson => do
    let rows ← coverageRows identity.branchKeys [] (sortedBy (·.branchKey) coverage)
    match nextEpoch (observerStateEpoch tables (identity.id sha256)) expected with
    | none => .error stateStale
    | some stateEpoch =>
      pure (tables.put (identity.id sha256) (some
        { row := { identity, stateVersion := observerStateVersion, stateEpoch, stateJson }, coverage := rows
          values := ((tables (identity.id sha256)).map (·.values)).getD [] }))

def persistObserverValues (tables : Tables) (identity : ObserverIdentity) (values : List (String × List UInt8)) :
    Except ObserverError Tables := do
  raiseIf (∃ entry ∈ values, entry.1 = "") stateInvalid
  pure (match tables (identity.id sha256) with
    | none => tables
    | some stored => tables.put (identity.id sha256) (some { stored with values := sortedBy Prod.fst values }))

def deleteWhere (matched : Instance → Bool) (tables : Tables) : Tables := fun key =>
  (tables key).filter fun stored => !matched stored.row

def deleteWalletObserverState (tables : Tables) (walletId : String) : Tables :=
  deleteWhere (fun row => row.identity.logicalWalletId = walletId || row.identity.sourceWalletId = walletId) tables

def deleteProfileObserverState (tables : Tables) (profileId : String) : Tables :=
  deleteWhere (fun row => row.identity.profileId = profileId) tables

structure PreparedObserverUpdate where
  identity : ObserverIdentity
  priorState : Option StoredObserverState
  expectedEpoch : Option Int
  applied : Bool := false
  discarded : Bool := false

/-- What the wrapped observer makes of its update: a state, the coverage, and opaque values where it keeps any. -/
structure ObserverApplication where
  state : Option String
  coverage : List CoveragePoint
  values : Option (List (String × List UInt8)) := none

def prepareObserverUpdate (tables : Tables) (identity : ObserverIdentity) (forceFull : Bool) :
    Except ObserverError PreparedObserverUpdate :=
  match loadObserverState sha256 isObject tables identity with
  | .ok priorState => .ok { identity, priorState, expectedEpoch := priorState.map (·.epoch) }
  | .error error =>
    -- A full refresh rebuilds incompatible state, fenced by its raw epoch.
    if forceFull = true ∧ error = rebuildRequired then
      .ok { identity, priorState := none, expectedEpoch := observerStateEpoch tables (identity.id sha256) }
    else .error error

def applyPreparedObserverUpdate (tables : Tables) (prepared : PreparedObserverUpdate) (application : ObserverApplication) :
    Except ObserverError Tables := do
  raiseIf (prepared.discarded = true) (.appError "observer_update_discarded")
  raiseIf (prepared.applied = true) (.appError "observer_update_already_applied")
  let persisted ← persistObserverState sha256 tables prepared.identity application.state application.coverage
    (.epoch prepared.expectedEpoch)
  match application.values with
  | none => pure persisted
  | some values => persistObserverValues sha256 persisted prepared.identity values

structure World where
  tables : Tables
  prepared : List PreparedObserverUpdate

inductive Call where
  | prepare (identity : ObserverIdentity) (forceFull : Bool)
  | apply (handle : Nat) (application : ObserverApplication)
  | discard (handle : Nat)
  | persist (identity : ObserverIdentity) (payload : Option String) (coverage : List CoveragePoint)
      (expected : Expectation)
  | deleteWallet (walletId : String)
  | deleteProfile (profileId : String)

def World.exec (world : World) : Call → Except ObserverError World
  | .prepare identity forceFull => do
    let prepared ← prepareObserverUpdate sha256 isObject world.tables identity forceFull
    pure { world with prepared := world.prepared ++ [prepared] }
  | .apply handle application =>
    match world.prepared[handle]? with
    | none => .error (.appError "unknown_handle")
    | some prepared => do
      let tables ← applyPreparedObserverUpdate sha256 world.tables prepared application
      pure { tables, prepared := world.prepared.set handle { prepared with applied := true } }
  | .discard handle =>
    .ok { world with prepared := world.prepared.modify handle fun prepared => { prepared with discarded := true } }
  | .persist identity payload coverage expected => do
    let tables ← persistObserverState sha256 world.tables identity payload coverage expected
    pure { world with tables }
  | .deleteWallet walletId => .ok { world with tables := deleteWalletObserverState world.tables walletId }
  | .deleteProfile profileId => .ok { world with tables := deleteProfileObserverState world.tables profileId }

def World.step (world : World) (call : Call) : World :=
  match world.exec sha256 isObject call with
  | .ok next => next
  | .error _ => world

def World.run (world : World) (calls : List Call) : World := calls.foldl (World.step sha256 isObject) world

end

end Kassiber.Sync.Observer

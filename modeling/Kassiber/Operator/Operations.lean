import Mathlib

/-!
The operations of the operator service: what a caller may read of one, and the table that retains them
until they are finished and forgotten.
-/

namespace Kassiber.Operator

inductive Capability where
  | read | operator | accountingDecisions | admin
  deriving DecidableEq

def Capability.order : Capability → Nat
  | .read => 0
  | .operator => 1
  | .accountingDecisions => 2
  | .admin => 3

/-- A cumulative grant covers what is required; `admin` is neither granted nor covered. -/
def capabilityAllows (granted required : Capability) : Bool :=
  required ≠ .admin && granted ≠ .admin && decide (required.order ≤ granted.order)

inductive OperationState where
  | queued | running | completed | failed | cancelled | resultUnknown
  deriving DecidableEq

def OperationState.terminal : OperationState → Bool
  | .queued | .running => false
  | _ => true

structure OperationResult where
  exitCode : Int
  stdout : String
  stderr : String
  deriving DecidableEq

structure Operation where
  id : String
  projectId : String
  projectIdentity : String
  argv : List String
  commandPath : String
  capability : Capability
  admittedLeaseEpoch : String
  adminAuthorizedUntil : Option Nat := none
  workingDirectory : Option String := none
  noEgress : Bool := false
  agentSessionId : Option String := none
  agentPid : Option Nat := none
  outputWithheld : Bool := false
  state : OperationState := .queued
  result : Option OperationResult := none
  outputError : Option String := none
  retainedResultBytes : Nat := 0
  cancellationRequested : Bool := false
  deriving DecidableEq

structure OperationStatus where
  operationId : String
  project : String
  command : String
  capability : Capability
  state : OperationState
  outputAvailable : Option Bool := none
  outputWithheld : Option String := none
  exitCode : Option Int := none
  outputError : Option String := none
  stdout : Option String := none
  stderr : Option String := none

def Operation.publicStatus (op : Operation) (includeOutput : Bool) : OperationStatus :=
  let payload : OperationStatus :=
    { operationId := op.id, project := op.projectId, command := op.commandPath, capability := op.capability, state := op.state }
  if op.outputWithheld then { payload with outputAvailable := some false, outputWithheld := some "agent_denied" }
  else match op.result with
    | none => payload
    | some result =>
      let payload := { payload with exitCode := some result.exitCode }
      if op.outputError.isSome then { payload with outputAvailable := some false, outputError := op.outputError }
      else if includeOutput then { payload with stdout := some result.stdout, stderr := some result.stderr }
      else payload

/-- What the service takes from elsewhere: digests, redaction and the size of an encoded result. -/
structure Setting where
  fingerprint : List String → Option String → Bool → String
  controlDigest : String → String
  publicLeaseId : String → String
  redactSecretText : String → String
  exceedsProtocolFrame : OperationResult → Bool

structure Tombstone where
  operationId : String
  projectId : String
  fingerprint : String

/-- The operations that were admitted, by their sequence numbers; those that are retained, oldest first;
and what is remembered of the others. -/
structure OperationTable where
  objects : Nat → Option Operation := fun _ => none
  retained : List Nat := []
  tombstones : List Tombstone := []

def maxRetainedResults : Nat := 256
def maxRetainedResultBytes : Nat := 16 * 1024 * 1024
def maxRetainedOperationTombstones : Nat := 1024

namespace OperationTable
variable (table : OperationTable)

def edit (ref : Nat) (f : Operation → Operation) : OperationTable :=
  { table with objects := Function.update table.objects ref ((table.objects ref).map f) }

def named (id : String) (ref : Nat) : Bool := (table.objects ref).any (·.id = id)

def find (id : String) : Option Nat := table.retained.find? (table.named id)

/-- The finished operations that are forgotten: the oldest, while there are too many or they are too large. -/
def excess (bytes : Nat → Nat) : List Nat → Nat → List Nat
  | [], _ => []
  | ref :: rest, total =>
    if maxRetainedResults < rest.length + 1 ∨ maxRetainedResultBytes < total ∧ rest ≠ [] then
      ref :: excess bytes rest (total - bytes ref)
    else []

def bytesOf (ref : Nat) : Nat := (table.objects ref).elim 0 (·.retainedResultBytes)

def terminalIds : List Nat := table.retained.filter fun ref => (table.objects ref).any (·.state.terminal)

def entomb (setting : Setting) (tombstones : List Tombstone) (op : Operation) : List Tombstone :=
  tombstones.filter (·.operationId ≠ op.id) ++
    [{ operationId := op.id, projectId := op.projectId,
       fingerprint := setting.fingerprint op.argv op.workingDirectory op.noEgress }]

def pruneOperations (setting : Setting) : OperationTable :=
  let ids := table.terminalIds
  let removed := excess table.bytesOf ids (ids.map table.bytesOf).sum
  let tombstones := (removed.filterMap table.objects).foldl (entomb setting) table.tombstones
  { table with
    retained := table.retained.filter (· ∉ removed)
    tombstones := tombstones.drop (tombstones.length - maxRetainedOperationTombstones) }

/-- An operation's final state and result; a result that does not fit a response is not kept. -/
def settle (setting : Setting) (state : OperationState) (result : Option OperationResult) (op : Operation) : Operation :=
  let tooLarge := result.any setting.exceedsProtocolFrame
  { op with
    state
    outputError := if tooLarge then some "operator_result_too_large" else none
    retainedResultBytes := if tooLarge then 0 else result.elim 0 fun result => result.stdout.utf8ByteSize + result.stderr.utf8ByteSize
    result := if tooLarge then result.map fun result => ⟨result.exitCode, "", ""⟩ else result }

def moveToEnd (id : String) : OperationTable :=
  { table with retained := table.retained.filter (¬ table.named id ·) ++ table.retained.filter (table.named id) }

def finishOperation (setting : Setting) (ref : Nat) (state : OperationState) (result : Option OperationResult) :
    OperationTable :=
  let finished := table.edit ref (settle setting state result)
  let id := (table.objects ref).elim "" (·.id)
  (finished.moveToEnd id).pruneOperations setting

def cancelOperation (setting : Setting) (ref : Nat) (result : Option OperationResult) : OperationTable :=
  (table.edit ref fun op => { op with cancellationRequested := true }).finishOperation setting ref .cancelled result

/-- Cancel the queued operations that satisfy a test, in the order of the table. -/
def cancelQueued (setting : Setting) (chosen : Operation → Bool) (reason : String) : OperationTable :=
  table.retained.foldl (fun (reached : OperationTable) ref =>
    if (reached.objects ref).any fun op => chosen op && op.state = .queued then
      reached.cancelOperation setting ref (some ⟨1, "", reason⟩)
    else reached) table

end OperationTable

end Kassiber.Operator

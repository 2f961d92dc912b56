import Kassiber.Operator.Service

/-!
Admitting an operation, what a worker does with it block by block, and the steps of the service: any
caller's block, and any worker's next one.
-/

namespace Kassiber.Operator
open Lib.Keyed
open Function (update)

/-- A command line as the parser classified it, with the caller's context. -/
structure Submission where
  operationId : Option String := none
  /-- The id that the service draws where the caller proposes none. -/
  drawnId : String
  argv : List String
  commandPath : String
  required : Capability
  workingDirectory : Option String := none
  noEgress : Bool := false
  peerPid : Option Nat := none
  agentSessionToken : Option String := none
  authorization : Option Nat := none

inductive SubmitReply where
  | status (payload : OperationStatus)
  | notRetained (operationId : String)

def operationIdConflict : OperatorError :=
  ⟨"operator_operation_id_conflict", "the operation id is already bound to another request"⟩

namespace Service
variable (s : Service) (setting : Setting) (generation : String)

/-- One agent call, charged to an allowed session of the calling process. -/
def admitAgentCall (lease : Lease) (request : Submission) (now : Nat) : Except OperatorError (Service × String) :=
  if request.commandPath ≠ "mcp.call" then
    .error ⟨"agent_session_scope", "an agent session admits only Kassiber MCP tool calls"⟩
  else if s.agentDenied lease request.peerPid then .error deniedError
  else
    let sessions := s.sessions.filter fun session => request.peerPid = some session.pid ∧ current? session lease ∧
      request.agentSessionToken = some session.token
    if sessions = [] then .error ⟨"interaction_required", "this process has no agent session for the book"⟩
    else match sessions.find? (·.state = .allowed) with
      | none => .error ⟨"interaction_required", "waiting for the user to allow this agent in Kassiber"⟩
      | some allowed =>
        let counted := { s with
          sessions := editAt AgentSession.id s.sessions allowed.id fun row => { row with calls := row.calls + 1 } }
        .ok (counted.editLease lease.epoch fun row => { row with calls := row.calls + 1, lastUsed := now }, allowed.id)

def admitCaller (lease : Lease) (request : Submission) (now : Nat) : Reply (Option String) :=
  if lease.agentScope then
    match s.admitAgentCall lease request now with
    | .error e => (s, .error e)
    | .ok (admitted, session) => (admitted, .ok (some session))
  else (s, .ok none)

def conflicts (project : Project) (request : Submission) (op : Operation) : Bool :=
  op.projectId ≠ project.publicId ∨ op.argv ≠ request.argv ∨ op.workingDirectory ≠ request.workingDirectory ∨
    op.noEgress ≠ request.noEgress

def replay (project : Project) (request : Submission) : Reply (Option SubmitReply) :=
  match request.operationId with
  | none => (s, .ok none)
  | some id =>
    if ¬ (generation ++ ".").isPrefixOf id ∨ 160 < id.length then
      (s, .error ⟨"operator_protocol_error", "invalid proposed operation id"⟩)
    else match (s.table.find id).bind s.table.objects with
      | some op =>
        if conflicts project request op then (s, .error operationIdConflict)
        else (s, .ok (some (.status (op.publicStatus false))))
      | none => match s.table.tombstones.find? (·.operationId = id) with
        | none => (s, .ok none)
        | some tombstone =>
          if tombstone.projectId ≠ project.publicId ∨
              tombstone.fingerprint ≠ setting.fingerprint request.argv request.workingDirectory request.noEgress then
            (s, .error operationIdConflict)
          else
            ({ s with table := { s.table with
                tombstones := s.table.tombstones.filter (·.operationId ≠ id) ++ [tombstone] } },
              .ok (some (.notRetained id)))

/-- An authorization is spent where it is presented, whether or not it is valid. -/
def consumeAdminAuthorization (project : Project) (lease : Lease) (presented : Option Nat) (now : Nat) : Reply Nat :=
  let refused : OperatorError :=
    ⟨"operator_admin_auth_required", "admin commands require fresh authentication for the active lease"⟩
  match presented.bind fun ref => (s.authorizations ref).map (ref, ·) with
  | none => (s, .error refused)
  | some (ref, authorization) =>
    let spent := { s with
      authorizations := update s.authorizations ref (some { authorization with consumed := true }) }
    if authorization.consumed ∨ authorization.expiresAt < now ∨ authorization.projectIdentity ≠ project.identity ∨
        authorization.databaseIdentity ≠ lease.databaseIdentity ∨ authorization.leaseEpoch ≠ lease.epoch then
      (spent, .error refused)
    else (spent, .ok authorization.expiresAt)

/-- How long an administrative operation stays authorized; the lease must cover any other. -/
def authorize (project : Project) (lease : Lease) (request : Submission) (now : Nat) : Reply (Option Nat) :=
  if request.required = .admin then
    (s.consumeAdminAuthorization project lease request.authorization now).andThen fun s authorizedUntil =>
      (s, .ok (some authorizedUntil))
  else if ¬ capabilityAllows lease.capability request.required then
    (s, .error ⟨"operator_capability_denied", "the operator lease does not grant this command"⟩)
  else (s, .ok none)

def enqueue (project : Project) (lease : Lease) (session : Option String) (authorizedUntil : Option Nat)
    (request : Submission) : Reply SubmitReply :=
  let ref := s.sequence + 1
  let op : Operation :=
    { id := request.operationId.getD request.drawnId
      projectId := project.publicId, projectIdentity := project.identity, argv := request.argv
      commandPath := request.commandPath, capability := request.required, admittedLeaseEpoch := lease.epoch
      adminAuthorizedUntil := if request.required = .admin then authorizedUntil else none
      workingDirectory := request.workingDirectory, noEgress := request.noEgress, agentSessionId := session
      agentPid := if session.isSome then request.peerPid else none }
  let numbered := ({ s with sequence := ref }).ensureWorker project
  match numbered.workerFor project.identity with
  | none => (numbered, .error ⟨"app_error", ""⟩)
  | some worker =>
    if (numbered.workers worker).any (maxQueuedOperations ≤ ·.queue.length) then
      (numbered, .error ⟨"operator_queue_full", "the project operation queue is full"⟩)
    else
      let queued := numbered.editWorker worker fun row => { row with queue := row.queue ++ [ref] }
      let table : OperationTable := { queued.table with
        objects := update queued.table.objects ref (some op), retained := queued.table.retained ++ [ref] }
      ({ queued with table := table.pruneOperations setting }, .ok (.status (op.publicStatus false)))

def brokerable (commandPath : String) : Bool :=
  ¬ "operator.".isPrefixOf commandPath ∧ commandPath ∉ ["daemon", "chat", "mcp.serve"]

/-- The block of `submit` that admits the operation. -/
def submit (project : Project) (request : Submission) (now : Nat) : Reply SubmitReply :=
  if ¬ brokerable request.commandPath then
    (s, .error ⟨"operator_command_not_brokerable", "this command cannot run inside an operator worker"⟩)
  else if s.leaseIdentityForPath project ≠ project.identity then
    (s, .error (projectReplaced "the database file changed while its operator lease is active"))
  else
    (s.requireLease setting project.identity now).andThen fun s lease =>
    (s.admitCaller lease request now).andThen fun s session =>
    ((s.addAlias project lease.epoch).replay setting generation project request).andThen fun s replayed =>
    match replayed with
    | some reply => (s, .ok reply)
    | none => (s.authorize project lease request now).andThen fun s authorizedUntil =>
      s.enqueue setting project lease session authorizedUntil request

def cancel (id : String) : Service := (s.table.find id).elim s fun ref => s.withdrawQueued setting ref none

/-- A fresh authentication for the active lease; the service keeps what it issued by number. -/
def issueAuthorization (project : Project) (now : Nat) : Reply Nat :=
  (s.requireLease setting project.identity now).andThen fun s lease =>
    let authorization : AdminAuthorization :=
      { projectIdentity := project.identity, databaseIdentity := lease.databaseIdentity, leaseEpoch := lease.epoch
        expiresAt := now + adminAuthTtlSeconds }
    ({ s with
        authorizations := update s.authorizations s.issued (some authorization)
        issued := s.issued + 1 }, .ok s.issued)

variable (worker : Nat)

def finishOperation (ref : Nat) (state : OperationState) (exitCode : Int) (stderr : String) : Service :=
  { s with table := s.table.finishOperation setting ref state (some ⟨exitCode, "", stderr⟩) }

def refuse (ref : Nat) (state : OperationState) (stderr : String) : Service :=
  (s.goto worker (.leaving ref)).finishOperation setting ref state 1 stderr

def adminExpired (op : Operation) (now : Nat) : Bool :=
  op.capability = .admin ∧ ¬ op.adminAuthorizedUntil.any (now ≤ ·)

/-- The first block of a run: the operation is still wanted and its lease covers it. -/
def check (identity : String) (ref : Nat) (op : Operation) (now : Nat) : Service :=
  if op.cancellationRequested then s.goto worker (.leaving ref)
  else match s.leaseOf identity with
    | none => s.refuse setting worker ref .cancelled "operator lease ended before the operation started\n"
    | some lease =>
      if lease.ended now then
        let refused := s.refuse setting worker ref .cancelled "operator lease ended before the operation started\n"
        (refused.markRevoked identity).dropIdleLease setting identity
      else if op.admittedLeaseEpoch ≠ lease.epoch then
        s.refuse setting worker ref .cancelled "operator lease changed before the operation started\n"
      else if op.capability ≠ .admin ∧ ¬ capabilityAllows lease.capability op.capability then
        s.refuse setting worker ref .cancelled "operator lease capability changed before dispatch\n"
      else if adminExpired op now then
        s.refuse setting worker ref .cancelled "fresh admin authentication expired before dispatch\n"
      else s.goto worker (.checked ref lease.epoch)

/-- The block that starts the operation, unless the lease ended since the first one. -/
def dispatch (identity : String) (ref : Nat) (epoch : String) (op : Operation) (now : Nat) : Service :=
  if s.current identity ≠ some epoch ∨ op.admittedLeaseEpoch ≠ epoch ∨ (s.leases epoch).any (·.ended now) ∨
      op.cancellationRequested ∨ adminExpired op now then
    s.refuse setting worker ref .cancelled (if adminExpired op now then "fresh admin authentication expired before dispatch\n"
      else "operator lease ended before the operation started\n")
  else
    let counted := s.editLease epoch fun lease => { lease with runningOperations := lease.runningOperations + 1 }
    { counted.goto worker (.started ref) with table := s.table.edit ref ({ · with state := .running }) }

structure Outcome where
  /-- The runner raised. -/
  crashed : Bool := false
  result : OperationResult
  cleanupFailed : Bool := false

def Outcome.state (outcome : Outcome) (op : Operation) : OperationState :=
  if outcome.crashed ∨ outcome.result.exitCode < 0 then .resultUnknown
  else if outcome.result.exitCode ≠ 0 ∧ op.capability ≠ .read then .resultUnknown
  else if outcome.result.exitCode = 0 then .completed else .failed

def leaseEndingReason (commandPath : String) : Option String :=
  if commandPath = "secrets.change-passphrase" then some "database passphrase rotation ended the prior lease"
  else if commandPath = "secrets.remember-unlock" then some "remembered unlock enrollment ended the prior brokered lease"
  else if commandPath = "secrets.forget-unlock" then some "remembered unlock removal ended the prior brokered lease"
  else none

def countDown (identity : String) (revoke : Bool) : Service :=
  { s with
    leases := (s.current identity).elim s.leases fun epoch =>
      (s.editLease epoch fun lease =>
        { lease with runningOperations := lease.runningOperations - 1, revoked := lease.revoked || revoke }).leases }

/-- The block that takes the runner's result, as far as the lease it may have to refresh. -/
def finish (identity : String) (ref : Nat) (op : Operation) (outcome : Outcome) : Service :=
  let state := outcome.state op
  let result : OperationResult :=
    ⟨outcome.result.exitCode, outcome.result.stdout, setting.redactSecretText outcome.result.stderr⟩
  let counted := s.countDown identity outcome.cleanupFailed
  -- the command that has its lease's scope read again is none that ends a lease
  let refresh := if op.commandPath = "context.set" ∧ state = .completed then
    (s.current identity).filter fun epoch => (counted.leases epoch).any (¬ ·.revoked) else none
  let recorded := { counted.goto worker (.finished ref refresh) with
    table := counted.table.finishOperation setting ref state (some result) }
  (leaseEndingReason op.commandPath).elim recorded fun reason => recorded.revokeLease setting identity reason

def failRefresh (identity : String) (ref : Nat) (epoch : String) : Service :=
  let moved := s.goto worker (.finished ref none)
  if s.current identity = some epoch then moved.revokeLease setting identity "operator scope could not be refreshed" else moved

def recover (identity : String) (ref : Nat) (op : Operation) (stderr : String) (now : Nat) : Service :=
  let counted := if op.state = .running then s.countDown identity false else s
  let moved := counted.goto worker (.leaving ref)
  let recorded := if op.state.terminal then moved else moved.finishOperation setting ref .resultUnknown 1 stderr
  recorded.dropEnded setting identity now

end Service

inductive WorkerStep where
  | pop
  | check (now : Nat)
  | projectChanged
  | inheritFails (stderr : String)
  | dispatch (now : Nat)
  | enter
  | finish (outcome : Service.Outcome)
  | failRefresh
  | close (now : Nat)
  | leave
  | crash
  | recover (stderr : String) (now : Nat)

inductive Action where
  | beginUnlock (project : Project) (onlyIfLocked : Bool) (now : Nat)
  | finishUnlock (project : Project) (grant : Service.Grant) (epoch : String) (now : Nat)
  | abandonUnlock (identity : String)
  | lock (project : Project) (gate : String) (expectedLeaseId : Option String) (now : Nat)
  | status (project : Project) (gate : String) (now : Nat)
  | refreshAlias (project : Project) (epoch : String)
  | enterSubmit (project : Project) (now : Nat)
  | submit (project : Project) (request : Submission) (now : Nat)
  | cancel (id : String)
  | openAgentSession (project : Project) (pid : Option Nat) (label : Option String) (id token : String) (now : Nat)
  | closeAgentSession (id : String)
  | decideAgentSession (project : Project) (sessionId : String) (allow : Bool) (control : String) (now : Nat)
  | issueAuthorization (project : Project) (now : Nat)
  | expire (identity : String) (now : Nat)
  | worker (worker : Nat) (step : WorkerStep)

namespace Service
variable (setting : Setting) (generation : String) (s : Service)

def grip (identity : String) (holder : Option Holder) : Service :=
  { s with gates := update s.gates identity holder }

def gated (worker : Nat) (identity : String) (block : Service → Service) : Option Service :=
  if s.gates identity = none then some (block (s.grip identity (some (.worker worker)))) else none

def advance (worker : Nat) (row : Worker) : WorkerStep → Option Service
  | .pop => match row.control, row.queue with
    | .idle, ref :: rest => some (s.editWorker worker ({ · with queue := rest, control := .popped ref }))
    | _, _ => none
  | .check now => match row.control with
    | .popped ref => (s.table.objects ref).bind fun op =>
        s.gated worker row.projectIdentity fun s => s.check setting worker row.projectIdentity ref op now
    | _ => none
  | .projectChanged => match row.control with
    | .checked ref _ =>
      some (s.refuse setting worker ref .cancelled "operator project changed before the operation started\n")
    | _ => none
  | .inheritFails stderr => match row.control with
    | .checked ref _ => some (s.refuse setting worker ref .failed stderr)
    | _ => none
  | .dispatch now => match row.control with
    | .checked ref epoch =>
      (s.table.objects ref).map fun op => s.dispatch setting worker row.projectIdentity ref epoch op now
    | _ => none
  | .enter => match row.control with
    | .started ref => some ((s.goto worker (.running ref)).grip row.projectIdentity none)
    | _ => none
  | .finish outcome => match row.control with
    | .running ref => (s.table.objects ref).bind fun op =>
        s.gated worker row.projectIdentity fun s => s.finish setting worker row.projectIdentity ref op outcome
    | _ => none
  | .failRefresh => match row.control with
    | .finished ref (some epoch) => some (s.failRefresh setting worker row.projectIdentity ref epoch)
    | _ => none
  | .close now => match row.control with
    | .finished ref _ => some ((s.goto worker (.leaving ref)).dropEnded setting row.projectIdentity now)
    | _ => none
  | .leave => match row.control with
    | .leaving _ => some ((s.goto worker .idle).grip row.projectIdentity none)
    | _ => none
  | .crash => match row.control with
    | .started ref | .finished ref _ | .leaving ref =>
      some ((s.goto worker (.recovering ref)).grip row.projectIdentity none)
    | .running ref => some (s.goto worker (.recovering ref))
    | _ => none
  | .recover stderr now => match row.control with
    | .recovering ref => (s.table.objects ref).bind fun op =>
        s.gated worker row.projectIdentity fun s => s.recover setting worker row.projectIdentity ref op stderr now
    | _ => none

def free (identity : String) (next : Service) : Option Service := if s.gates identity = none then some next else none

def act : Action → Option Service
  | .beginUnlock project onlyIfLocked now =>
    s.free project.identity (match s.beginUnlock setting project onlyIfLocked now with
      | (next, .ok previous) => next.grip project.identity (some (.unlock previous))
      | (next, .error _) => next)
  | .finishUnlock project grant epoch now => match s.gates project.identity with
    | some (.unlock previous) =>
      if (s.leases epoch).isSome ∨ grant.check.toOption = none then none
      else some ((s.finishUnlock setting project previous grant epoch now).1.grip project.identity none)
    | _ => none
  | .abandonUnlock identity => match s.gates identity with
    | some (.unlock _) => some (s.grip identity none)
    | _ => none
  | .lock project gate expectedLeaseId now => s.free gate (s.lock setting project expectedLeaseId now).1
  | .status project gate now => s.free gate (s.revokeExpired setting (s.leaseIdentityForPath project) now)
  | .refreshAlias project epoch => some (s.refreshAlias project epoch)
  | .enterSubmit project now => s.free project.identity (s.requireLease setting project.identity now).1
  | .submit project request now => some (s.submit setting generation project request now).1
  | .cancel id => some (s.cancel setting id)
  | .openAgentSession project pid label id token now =>
    if s.sessions.any (·.id = id) then none else some (s.openAgentSession setting project pid label id token now).1
  | .closeAgentSession id => some (s.closeAgentSession id)
  | .decideAgentSession project sessionId allow control now =>
    some (s.decideAgentSession setting project sessionId allow control now).1
  | .issueAuthorization project now => some (s.issueAuthorization setting project now).1
  | .expire identity now => s.free identity (s.revokeExpired setting identity now)
  | .worker worker step => (s.workers worker).bind fun row => s.advance setting worker row step

end Service

end Kassiber.Operator

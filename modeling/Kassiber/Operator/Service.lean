import Kassiber.Lib.Keyed
import Kassiber.Operator.Operations

/-!
The operator service: leases, agent sessions, workers and their queues, and the blocks that run under its
lock.
-/

namespace Kassiber.Operator
open Lib.Keyed
open Function (update)

structure Project where
  identity : String
  publicId : String
  database : String

/-- A lease; its epoch is drawn anew for each, so that it names the lease. -/
structure Lease where
  epoch : String
  project : Project
  databaseIdentity : String
  /-- None once it is wiped. -/
  passphrase : Option String
  capability : Capability
  expiresAt : Option Nat
  revoked : Bool := false
  runningOperations : Nat := 0
  agentScope : Bool := false
  agentControlDigest : Option String := none
  idleTimeout : Option Nat := none
  lastUsed : Nat
  calls : Nat := 0

def Lease.expired (lease : Lease) (now : Nat) : Bool :=
  lease.expiresAt.any (· ≤ now) || lease.idleTimeout.any (lease.lastUsed + · ≤ now)

def Lease.ended (lease : Lease) (now : Nat) : Bool := lease.revoked || lease.expired now

inductive SessionState where
  | pending | allowed | denied
  deriving DecidableEq

structure AgentSession where
  id : String
  projectIdentity : String
  leaseEpoch : String
  pid : Nat
  token : String
  label : Option String := none
  state : SessionState := .pending
  calls : Nat := 0
  closed : Bool := false

structure AdminAuthorization where
  projectIdentity : String
  databaseIdentity : String
  leaseEpoch : String
  expiresAt : Nat
  consumed : Bool := false

/-- Where a worker's thread stands, with the operation it has taken from the queue. -/
inductive Control where
  | idle
  | popped (ref : Nat)
  | checked (ref : Nat) (epoch : String)
  | started (ref : Nat)
  | running (ref : Nat)
  | finished (ref : Nat) (refresh : Option String)
  | leaving (ref : Nat)
  | recovering (ref : Nat)

structure Worker where
  projectIdentity : String
  projectId : String
  queue : List Nat := []
  stopping : Bool := false
  control : Control := .idle

/-- What holds a project's gate: a worker, or an unlock that found this lease before it authenticates. -/
inductive Holder where
  | worker (ref : Nat)
  | unlock (previous : Option String)

structure OperatorError where
  code : String
  message : String

structure Service where
  /-- Every lease there was, by its epoch. -/
  leases : String → Option Lease := fun _ => none
  /-- The lease of each project. -/
  current : String → Option String := fun _ => none
  aliases : String → Option String := fun _ => none
  table : OperationTable := {}
  sequence : Nat := 0
  workers : Nat → Option Worker := fun _ => none
  registered : List (String × Nat) := []
  spawned : Nat := 0
  sessions : List AgentSession := []
  denials : List (String × String × Nat) := []
  authorizations : Nat → Option AdminAuthorization := fun _ => none
  issued : Nat := 0
  gates : String → Option Holder := fun _ => none

/-- What a block leaves and returns; an error leaves what the block wrote before it. -/
abbrev Reply (α : Type) := Service × Except OperatorError α

def Reply.andThen {α β : Type} (first : Reply α) (rest : Service → α → Reply β) : Reply β :=
  match first.2 with
  | .ok a => rest first.1 a
  | .error e => (first.1, .error e)

def maxQueuedOperations : Nat := 64
def adminAuthTtlSeconds : Nat := 60
def maxAgentSessionsPerProject : Nat := 8
def maxAgentSessions : Nat := 16
def minAgentControlBytes : Nat := 32
def minAgentIdleTimeoutSeconds : Nat := 60
def maxRememberedAgentDenials : Nat := 256

namespace Service
variable (s : Service)

def leaseOf (identity : String) : Option Lease := (s.current identity).bind s.leases

def leaseIdentityForPath (project : Project) : String := (s.aliases project.database).getD project.identity

def workerFor (identity : String) : Option Nat := (rowAt Prod.fst s.registered identity).map Prod.snd

def workerForPublicProject (publicId : String) : Option Nat :=
  (s.registered.map Prod.snd).find? fun worker => (s.workers worker).any (·.projectId = publicId)

def editLease (epoch : String) (f : Lease → Lease) : Service :=
  { s with leases := update s.leases epoch ((s.leases epoch).map f) }

def editWorker (worker : Nat) (f : Worker → Worker) : Service :=
  { s with workers := update s.workers worker ((s.workers worker).map f) }

def goto (worker : Nat) (control : Control) : Service := s.editWorker worker fun row => { row with control }

def drain (identity : String) (stop : Bool) : Service :=
  { s with
    workers := (s.workerFor identity).elim s.workers fun worker =>
      (s.editWorker worker fun row => { row with queue := [], stopping := row.stopping || stop }).workers }

def ensureWorker (project : Project) : Service :=
  if (s.workerFor project.identity).isSome then s
  else { s with
    workers := update s.workers s.spawned
      (some { projectIdentity := project.identity, projectId := project.publicId })
    registered := s.registered ++ [(project.identity, s.spawned)]
    spawned := s.spawned + 1 }

variable (setting : Setting)

def closeAgentSessions (identity : String) : Service :=
  { s with
    sessions := s.sessions.filter (·.projectIdentity ≠ identity)
    denials := s.denials.filter (·.1 ≠ identity) }

def cancelQueued (identity reason : String) : Service :=
  { s with table := s.table.cancelQueued setting (·.projectIdentity = identity) reason }

/-- Detach a lease: stop its worker, cancel what is queued, wipe the passphrase. -/
def dropLease (identity : String) : Service :=
  match s.current identity with
  | none => s
  | some epoch =>
    let detached := { s with current := update s.current identity none }
    let drained := detached.drain identity true
    let stopped := { drained with registered := drained.registered.filter (·.1 ≠ identity) }
    let cancelled := stopped.cancelQueued setting identity "operator lease ended\n"
    let wiped := cancelled.editLease epoch ({ · with passphrase := none })
    { wiped with aliases := fun path => if wiped.aliases path = some identity then none else wiped.aliases path }

def dropIdleLease (identity : String) : Service :=
  if (s.leaseOf identity).any (·.runningOperations = 0) then s.dropLease setting identity else s

def markRevoked (identity : String) : Service :=
  { s with
    leases := (s.current identity).elim s.leases fun epoch => (s.editLease epoch ({ · with revoked := true })).leases }

def revokeLease (identity reason : String) : Service :=
  if (s.current identity).isNone then s
  else
    let closed := (s.markRevoked identity).closeAgentSessions identity
    let cancelled := (closed.drain identity false).cancelQueued setting identity reason
    cancelled.dropIdleLease setting identity

def interactionRequired : OperatorError := ⟨"interaction_required", "this project has no active operator lease"⟩

def requireLease (identity : String) (now : Nat) : Reply Lease :=
  match s.leaseOf identity with
  | none => (s, .error interactionRequired)
  | some lease =>
    if lease.ended now then
      (((s.markRevoked identity).closeAgentSessions identity).dropIdleLease setting identity, .error interactionRequired)
    else (s, .ok lease)

def dropEnded (identity : String) (now : Nat) : Service :=
  if (s.leaseOf identity).any (·.ended now) then s.dropIdleLease setting identity else s

structure Grant where
  databaseIdentity : String
  passphrase : String
  capability : Capability := .accountingDecisions
  authenticationMethod : String := "password"
  durationSeconds : Option Nat := none
  agentScope : Bool := false
  idleTimeoutSeconds : Option Nat := none
  agentControl : Option String := none

def Grant.check (grant : Grant) : Except OperatorError Unit :=
  if grant.agentScope ∧ ¬ grant.agentControl.any (minAgentControlBytes ≤ ·.utf8ByteSize) then
    .error ⟨"operator_protocol_error", "an agent session needs its holder's control secret"⟩
  else if grant.agentScope ∧ ¬ grant.idleTimeoutSeconds.any (minAgentIdleTimeoutSeconds ≤ ·) then
    .error ⟨"operator_invalid_duration", "an agent session needs an idle timeout of at least 1 minute"⟩
  else if ¬ grant.agentScope ∧ (grant.idleTimeoutSeconds.isSome ∨ grant.agentControl.isSome) then
    .error ⟨"operator_protocol_error", "idle timeouts and control secrets apply to agent sessions only"⟩
  else if grant.capability = .admin then
    .error ⟨"operator_invalid_lease_capability", "admin is not a lease capability"⟩
  else if grant.authenticationMethod ≠ "password" ∧ grant.authenticationMethod ≠ "touch_id" then
    .error ⟨"operator_invalid_authentication_method", "unsupported operator authentication method"⟩
  else if grant.durationSeconds.any (· < 60) then
    .error ⟨"operator_invalid_duration", "operator lease duration must be at least 1 minute"⟩
  else .ok ()

def projectBusy : OperatorError := ⟨"operator_project_busy", "the project still has a running operator operation"⟩

def projectReplaced (message : String) : OperatorError := ⟨"operator_project_replaced", message⟩

/-- The first block of an unlock: the lease that it refreshes, if there is one. -/
def beginUnlock (project : Project) (onlyIfLocked : Bool) (now : Nat) : Reply (Option String) :=
  if (s.aliases project.database).any (· ≠ project.identity) then
    (s, .error (projectReplaced "the database file changed while its prior operator lease is active"))
  else match s.leaseOf project.identity with
    | none => (s, .ok none)
    | some previous =>
      if previous.ended now then
        let revoked := s.revokeLease setting project.identity
          (if previous.expired now then "operator lease expired" else "operator lease was revoked")
        (revoked, if previous.runningOperations = 0 then .ok none else .error projectBusy)
      else if onlyIfLocked then (s, .error ⟨"operator_lease_exists", "the project already has an operator lease"⟩)
      else if 0 < previous.runningOperations then (s, .error projectBusy)
      else (s, .ok (some previous.epoch))

/-- The last block of an unlock, after the passphrase opened the database. -/
def finishUnlock (project : Project) (previous : Option String) (grant : Grant) (epoch : String) (now : Nat) : Reply Unit :=
  if s.current project.identity ≠ previous then
    (s, .error ⟨"operator_project_busy", "the operator lease changed during unlock"⟩)
  else
    let wiped := previous.elim s.leases fun epoch => (s.editLease epoch ({ · with passphrase := none })).leases
    let lease : Lease :=
      { epoch, project, databaseIdentity := grant.databaseIdentity, passphrase := some grant.passphrase
        capability := grant.capability, expiresAt := grant.durationSeconds.map (now + ·)
        agentScope := grant.agentScope
        agentControlDigest := if grant.agentScope then grant.agentControl.map setting.controlDigest else none
        idleTimeout := if grant.agentScope then grant.idleTimeoutSeconds else none
        lastUsed := now }
    let granted := { s with
      leases := update wiped epoch (some lease)
      current := update s.current project.identity (some epoch)
      aliases := update s.aliases project.database (some project.identity) }
    (granted.ensureWorker project, .ok ())

structure LockReply where
  locked : Bool
  leaseExisted : Bool
  kept : Bool := false
  runningOperationsFinishing : Nat := 0

def lock (project : Project) (expectedLeaseId : Option String) (now : Nat) : Service × LockReply :=
  let identity := s.leaseIdentityForPath project
  let live := (s.leaseOf identity).filter (¬ ·.ended now)
  if expectedLeaseId.any fun expected => live.any (setting.publicLeaseId ·.epoch ≠ expected) then
    (s, { locked := false, leaseExisted := true, kept := true })
  else
    (s.revokeLease setting identity "operator lease was locked",
      { locked := true, leaseExisted := (s.current identity).isSome,
        runningOperationsFinishing := (s.leaseOf identity).elim 0 (·.runningOperations) })

def revokeExpired (identity : String) (now : Nat) : Service :=
  if (s.leaseOf identity).any (·.expired now) then s.revokeLease setting identity "operator lease expired" else s

/-- A status query or a submission through another path of the project's database. -/
def addAlias (project : Project) (epoch : String) : Service :=
  { s.editLease epoch ({ · with project }) with
    aliases := update s.aliases project.database (some project.identity) }

def refreshAlias (project : Project) (epoch : String) : Service :=
  if s.current project.identity = some epoch ∧ (s.leases epoch).any (¬ ·.revoked) then s.addAlias project epoch else s

def current? (session : AgentSession) (lease : Lease) : Bool :=
  ¬ session.closed ∧ session.projectIdentity = lease.project.identity ∧ session.leaseEpoch = lease.epoch

def agentDenied (lease : Lease) (pid : Option Nat) : Bool :=
  pid.any fun pid => (lease.project.identity, lease.epoch, pid) ∈ s.denials

def deniedError : OperatorError := ⟨"agent_pairing_denied", "the user denied this agent"⟩

def openAgentSession (project : Project) (pid : Option Nat) (label : Option String) (id token : String) (now : Nat) :
    Reply AgentSession :=
  match pid with
  | none => (s, .error ⟨"agent_pairing_unavailable", "this platform cannot identify the agent's process"⟩)
  | some pid => (s.requireLease setting project.identity now).andThen fun s lease =>
    let live := s.sessions.filter (¬ ·.closed)
    if ¬ lease.agentScope then
      (s, .error ⟨"agent_session_not_needed", "this project's operator lease is not an agent session"⟩)
    else if s.agentDenied lease (some pid) then (s, .error deniedError)
    else if maxRememberedAgentDenials ≤
        (s.denials.filter fun key => key.1 = lease.project.identity ∧ key.2.1 = lease.epoch).length then
      (s, .error ⟨"agent_session_limit", "too many agents were denied for this unlock"⟩)
    else if maxAgentSessions ≤ live.length ∨ maxAgentSessionsPerProject ≤
        (live.filter (·.projectIdentity = lease.project.identity)).length then
      (s, .error ⟨"agent_session_limit", "too many agent sessions are open"⟩)
    else
      let session : AgentSession :=
        { id, projectIdentity := lease.project.identity, leaseEpoch := lease.epoch, pid, token, label }
      ({ s with sessions := s.sessions ++ [session] }, .ok session)

def closeAgentSession (id : String) : Service := { s with sessions := s.sessions.filter (·.id ≠ id) }

/-- Take an operation from the queue of the worker under its project's public id. -/
def removeQueued (publicId : String) (ref : Nat) : Service :=
  { s with
    workers := (s.workerForPublicProject publicId).elim s.workers fun worker =>
      (s.editWorker worker fun row => { row with queue := row.queue.erase ref }).workers }

/-- Cancel an operation where it is still queued, and take it from its queue. -/
def withdrawQueued (ref : Nat) (result : Option OperationResult) : Service :=
  match s.table.objects ref with
  | none => s
  | some op =>
    if op.state = .queued then
      { s.removeQueued op.projectId ref with table := s.table.cancelOperation setting ref result }
    else s

def Matches (lease : Lease) (pid : Nat) (op : Operation) : Bool :=
  op.agentPid = some pid ∧ op.projectIdentity = lease.project.identity ∧ op.admittedLeaseEpoch = lease.epoch

def withdrawMatching (lease : Lease) (pid : Nat) (ref : Nat) : Service :=
  if (s.table.objects ref).any (Matches lease pid) then
    let withdrawn := s.withdrawQueued setting ref (some ⟨1, "", "the user denied this agent\n"⟩)
    { withdrawn with table := withdrawn.table.edit ref ({ · with outputWithheld := true }) }
  else s

/-- A denied process's queued operations never start, and nothing of its operations is read any more. -/
def withdrawAgentOperations (lease : Lease) (pid : Nat) : Service :=
  s.table.retained.foldl (fun (reached : Service) ref => reached.withdrawMatching setting lease pid ref) s

def decideAgentSession (project : Project) (sessionId : String) (allow : Bool) (control : String) (now : Nat) :
    Reply SessionState :=
  (s.requireLease setting project.identity now).andThen fun s lease =>
    if ¬ lease.agentScope ∨ lease.agentControlDigest ≠ some (setting.controlDigest control) then
      (s, .error ⟨"agent_pairing_unauthorized", "only the Kassiber app that unlocked this book can allow agents"⟩)
    else match (rowAt AgentSession.id s.sessions sessionId).filter (current? · lease) with
      | none => (s, .error ⟨"agent_session_not_found", "that agent session has ended"⟩)
      | some session =>
        if allow then
          let approved := { s with sessions := editAt AgentSession.id s.sessions sessionId ({ · with state := .allowed }) }
          (approved.editLease lease.epoch ({ · with lastUsed := now }), .ok .allowed)
        else
          let closed := { s with sessions := s.sessions.filter fun other => ¬ (other.pid = session.pid ∧ current? other lease) }
          let withdrawn := closed.withdrawAgentOperations setting lease session.pid
          ({ withdrawn with denials := withdrawn.denials ++ [(lease.project.identity, lease.epoch, session.pid)] }, .ok .denied)

end Service

end Kassiber.Operator

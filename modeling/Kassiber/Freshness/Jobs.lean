import Kassiber.Lib.Outcome
import Kassiber.Lib.Sorting
import Kassiber.Lib.Keyed

/-!
Freshness sources and their durable jobs. One row of a source says how stale it is and whether final
reports must wait for it; jobs are queued, claimed, run and ended by executors on one database.
Timestamps are instants, and the current one is given to each operation.
-/

namespace Kassiber.Freshness
open Lib.Outcome Lib.Sorting Lib.Keyed

inductive JobType where
  | graphReferences | onchainWallet | btcpayWallet | btcpayProvenance | marketRates | journalRefresh
  deriving DecidableEq

inductive SourceStatus where
  | fresh | queued | syncing | paused | rateLimited | partiallyStale | failed | blockingReports

inductive JobStatus where
  | queued | running | done | error | cancelled | rateLimited
  deriving DecidableEq

def phaseDiscovery := "discovery"
def phaseBackendFetch := "backend_fetch"
def phaseDone := "done"
def phaseError := "error"

def given (text : Option String) : Option String := text.filter (· ≠ "")

structure Progress where
  phase : Option String := none
  details : List (String × String) := []
  deriving DecidableEq

abbrev Checkpoint := List (String × String)

structure Payload where
  autoPair : Bool := false
  skipRebuildWhenCurrent : Bool := false
  rest : List (String × String) := []
  deriving DecidableEq

structure JobResult where
  blockingReports : Bool := false
  partialSuccess : Bool := false
  freshnessCheckpoint : Option Checkpoint := none
  details : List (String × String) := []
  deriving DecidableEq

structure AppError where
  code : Option String
  message : String
  retryable : Bool := false
  retryAfterSeconds : Option Int := none
  retryAfter : Option Int := none
  retryReason : Option String := none
  deriving DecidableEq

structure Job where
  id : String
  profileId : String
  jobType : JobType
  sourceKey : String
  sourceType : String
  sourceLabel : String
  status : JobStatus := .queued
  phase : Option String := some phaseDiscovery
  priority : Int := 100
  payload : Payload := {}
  progress : Progress := {}
  result : Option JobResult := none
  error : Option AppError := none
  attempts : Nat := 0
  cancelRequested : Bool := false
  runAfter : Option Nat := none
  cooldownUntil : Option Nat := none
  createdAt : Nat := 0
  startedAt : Option Nat := none
  finishedAt : Option Nat := none
  updatedAt : Nat := 0
  deriving DecidableEq

structure SourceState where
  profileId : String
  sourceKey : String
  sourceType : String
  sourceLabel : String
  status : SourceStatus := .fresh
  state : SourceStatus := .fresh
  staleReason : Option String := none
  blockingReports : Bool := false
  paused : Bool := false
  rateLimitedUntil : Option Nat := none
  cooldownReason : Option String := none
  retryCount : Nat := 0
  lastSuccessAt : Option Nat := none
  lastErrorAt : Option Nat := none
  lastErrorCode : Option String := none
  lastErrorMessage : Option String := none
  lastPhase : Option String := none
  progress : Progress := {}
  checkpoint : Checkpoint := []
  updatedAt : Nat := 0

def SourceState.key (row : SourceState) : String × String := (row.profileId, row.sourceKey)

def Job.slot (job : Job) : String × String × JobType := (job.profileId, job.sourceKey, job.jobType)

def JobStatus.Pending (status : JobStatus) : Prop := status = .queued ∨ status = .running ∨ status = .rateLimited

def JobStatus.Ended (status : JobStatus) : Prop := status = .done ∨ status = .error ∨ status = .cancelled

instance : DecidablePred JobStatus.Pending := fun _ => inferInstanceAs (Decidable (_ ∨ _ ∨ _))

instance : DecidablePred JobStatus.Ended := fun _ => inferInstanceAs (Decidable (_ ∨ _ ∨ _))

def SingleFlight (jobs : List Job) : Prop := ((jobs.filter fun job => job.status.Pending).map Job.slot).Nodup

instance : DecidablePred SingleFlight := fun _ => inferInstanceAs (Decidable (List.Nodup _))

structure Store where
  jobs : List Job := []
  states : List SourceState := []

inductive FreshnessError where
  | appError (code : String)
  | jobRemoved
  | integrity

def Store.sourceState (store : Store) (profileId key : String) : Option SourceState :=
  rowAt SourceState.key store.states (profileId, key)

def normalizeSourceStatus (status : SourceStatus) (paused blockingReports : Bool) (rateLimitedUntil : Option Nat)
    (now : Nat) : SourceStatus :=
  if paused then .paused
  else if ∃ retryAt ∈ rateLimitedUntil, now < retryAt then .rateLimited
  else if blockingReports then .blockingReports
  else status

structure SourceUpdate where
  profileId : String
  sourceKey : String
  sourceType : String
  sourceLabel : String
  status : SourceStatus
  staleReason : Option String := none
  blockingReports : Bool := false
  paused : Option Bool := none
  rateLimitedUntil : Option Nat := none
  cooldownReason : Option String := none
  retryCount : Option Nat := none
  lastSuccessAt : Option Nat := none
  lastErrorAt : Option Nat := none
  lastErrorCode : Option String := none
  lastErrorMessage : Option String := none
  lastPhase : Option String := none
  progress : Option Progress := none
  checkpoint : Option Checkpoint := none

def SourceUpdate.row (update : SourceUpdate) (previous : Option SourceState) (now : Nat) : SourceState :=
  let paused := update.paused.getD (previous.elim false (·.paused))
  let status := normalizeSourceStatus update.status paused update.blockingReports update.rateLimitedUntil now
  { profileId := update.profileId
    sourceKey := update.sourceKey
    sourceType := update.sourceType
    sourceLabel := update.sourceLabel
    status
    state := status
    staleReason := update.staleReason
    blockingReports := update.blockingReports
    paused
    rateLimitedUntil := update.rateLimitedUntil
    cooldownReason := update.cooldownReason
    retryCount := update.retryCount.getD (previous.elim 0 (·.retryCount))
    lastSuccessAt := update.lastSuccessAt.or (previous.bind (·.lastSuccessAt))
    lastErrorAt := update.lastErrorAt
    lastErrorCode := update.lastErrorCode
    lastErrorMessage := update.lastErrorMessage
    lastPhase := update.lastPhase
    progress := update.progress.getD (previous.elim {} (·.progress))
    checkpoint := update.checkpoint.getD (previous.elim [] (·.checkpoint))
    updatedAt := now }

def Store.upsertSourceState (store : Store) (update : SourceUpdate) (now : Nat) : Store :=
  { store with
    states := putAt SourceState.key store.states
      (update.row (store.sourceState update.profileId update.sourceKey) now) }

def Store.checkpointOf (store : Store) (profileId key : String) : Checkpoint :=
  (store.sourceState profileId key).elim [] (·.checkpoint)

def Store.pauseSource (store : Store) (profileId key : String) (now : Nat) : Except FreshnessError Store :=
  match store.sourceState profileId key with
  | none => .error (.appError "not_found")
  | some state =>
    .ok (store.upsertSourceState
      { profileId, sourceKey := key, sourceType := state.sourceType, sourceLabel := state.sourceLabel,
        status := .paused, paused := some true, staleReason := state.staleReason,
        blockingReports := state.blockingReports, checkpoint := some state.checkpoint } now)

def Store.resumeSource (store : Store) (profileId key : String) (now : Nat) : Except FreshnessError Store :=
  match store.sourceState profileId key with
  | none => .error (.appError "not_found")
  | some state =>
    .ok (store.upsertSourceState
      { profileId, sourceKey := key, sourceType := state.sourceType, sourceLabel := state.sourceLabel,
        status := if (given state.staleReason).isSome then .partiallyStale else .fresh, paused := some false,
        staleReason := state.staleReason, blockingReports := state.blockingReports,
        checkpoint := some state.checkpoint } now)

def Store.resetSourceCheckpoint (store : Store) (profileId key staleReason : String) (now : Nat) : Store :=
  match store.sourceState profileId key with
  | none => store
  | some state =>
    store.upsertSourceState
      { profileId, sourceKey := key, sourceType := state.sourceType, sourceLabel := state.sourceLabel,
        status := .partiallyStale, staleReason := some staleReason, blockingReports := state.blockingReports,
        paused := some state.paused, progress := some {}, checkpoint := some [] } now

def Store.deleteSourceRecords (store : Store) (profileId : String) (keys : List String) : Store :=
  { jobs := store.jobs.filter fun job => ¬ (job.profileId = profileId ∧ job.sourceKey ∈ keys)
    states := store.states.filter fun row => ¬ (row.profileId = profileId ∧ row.sourceKey ∈ keys) }

def Store.reportBlockingSources (store : Store) (profileId : String) : List SourceState :=
  store.states.filter fun row => row.profileId = profileId ∧ row.blockingReports

def Store.requireReportFreshness (store : Store) (profileId : String) : Except FreshnessError Unit :=
  if (store.reportBlockingSources profileId).length = 0 then .ok () else .error (.appError "report_freshness_blocked")

def Store.getJob (store : Store) (jobId : String) : Except FreshnessError Job :=
  match rowAt Job.id store.jobs jobId with
  | none => .error (.appError "not_found")
  | some job => .ok job

/-- An update by primary key; the index refuses a second pending job of a slot. -/
def Store.rewriteJob (store : Store) (jobId : String) (f : Job → Job) : Except FreshnessError Store :=
  if SingleFlight (editAt Job.id store.jobs jobId f) then .ok { store with jobs := editAt Job.id store.jobs jobId f }
  else .error .integrity

def Store.writeJob (store : Store) (jobId : String) (f : Job → Job) : Except FreshnessError Store := do
  let next ← store.rewriteJob jobId f
  raiseIf (rowAt Job.id store.jobs jobId = none) .jobRemoved
  return next

def Store.insertJob (store : Store) (job : Job) : Except FreshnessError Store :=
  if (rowAt Job.id store.jobs job.id).isSome ∨ ¬ SingleFlight (store.jobs ++ [job]) then .error .integrity
  else .ok { store with jobs := store.jobs ++ [job] }

def Job.update (job : Job) (status : SourceStatus) : SourceUpdate :=
  { profileId := job.profileId, sourceKey := job.sourceKey, sourceType := job.sourceType,
    sourceLabel := job.sourceLabel, status }

def Store.setCancelled (store : Store) (job : Job) (now : Nat) : Except FreshnessError Store := do
  let next ← store.writeJob job.id fun row =>
    { row with
      cancelRequested := true
      status := .cancelled
      phase := some ((given job.phase).getD phaseError)
      finishedAt := some now
      updatedAt := now }
  return next.upsertSourceState
    { job.update .partiallyStale with
      staleReason := some "cancelled"
      blockingReports := job.jobType ≠ .graphReferences
      lastPhase := job.phase
      checkpoint := some (next.checkpointOf job.profileId job.sourceKey) } now

def Store.updateJobProgress (store : Store) (job : Job) (progress : Progress) (now : Nat) : Except FreshnessError Store := do
  let phase := ((given progress.phase).or (given job.phase)).getD phaseBackendFetch
  let next ← store.writeJob job.id fun row => { row with phase := some phase, progress, updatedAt := now }
  return next.upsertSourceState
    { job.update .syncing with
      staleReason := some "syncing"
      lastPhase := some phase
      progress := some progress
      checkpoint := some (next.checkpointOf job.profileId job.sourceKey) } now

structure JobRequest where
  profileId : String
  jobType : JobType
  sourceKey : String
  sourceType : String
  sourceLabel : String
  payload : Payload := {}
  priority : Int := 100
  runAfter : Option Nat := none
  singleFlight : Bool := true

/-- What a caller of an enqueue gets back: the paused source, or the job it waits for. -/
inductive Enqueued where
  | source (state : Option SourceState)
  | job (job : Job)

def Store.pendingJobForSource (store : Store) (slot : String × String × JobType) : Option Job :=
  (sortedBy Job.createdAt (store.jobs.filter fun job => job.slot = slot ∧ job.status.Pending)).head?

/-- Pairing runs if either caller wants it; the rebuild is skipped only if both allow it. -/
def Payload.merged (current payload : Payload) : Payload :=
  { current with
    autoPair := current.autoPair || payload.autoPair
    skipRebuildWhenCurrent := current.skipRebuildWhenCurrent && payload.skipRebuildWhenCurrent }

def Store.mergePendingJournalPayload (store : Store) (existing : Job) (payload : Payload) (now : Nat) :
    Except FreshnessError (Store × Enqueued) := do
  let merged := existing.payload.merged payload
  if merged = existing.payload then return (store, .job existing)
  let next ← store.rewriteJob existing.id fun row => { row with payload := merged, updatedAt := now }
  let job ← next.getJob existing.id
  return (next, .job job)

def JobRequest.slot (request : JobRequest) : String × String × JobType :=
  (request.profileId, request.sourceKey, request.jobType)

def JobRequest.job (request : JobRequest) (jobId : String) (now : Nat) : Job :=
  { id := jobId, profileId := request.profileId, jobType := request.jobType, sourceKey := request.sourceKey,
    sourceType := request.sourceType, sourceLabel := request.sourceLabel, priority := request.priority,
    payload := request.payload, runAfter := request.runAfter, createdAt := now, updatedAt := now }

def JobRequest.update (request : JobRequest) (status : SourceStatus) : SourceUpdate :=
  { profileId := request.profileId, sourceKey := request.sourceKey, sourceType := request.sourceType,
    sourceLabel := request.sourceLabel, status }

/-- The insert that ends an enqueue, once no pending job of the slot is in its way. -/
def Store.queueJob (store : Store) (request : JobRequest) (checkpoint : Checkpoint) (jobId : String) (now : Nat) :
    Except FreshnessError (Store × Enqueued) := do
  let next ← store.insertJob (request.job jobId now)
  return (next.upsertSourceState
    { request.update .queued with
      staleReason := some "queued"
      progress := some { phase := some phaseDiscovery }
      checkpoint := some checkpoint } now, .job (request.job jobId now))

def Store.enqueueJob (store : Store) (request : JobRequest) (jobId : String) (now : Nat) :
    Except FreshnessError (Store × Enqueued) :=
  let checkpoint := store.checkpointOf request.profileId request.sourceKey
  if (store.sourceState request.profileId request.sourceKey).any (·.paused) then
    let next := store.upsertSourceState
      { request.update .paused with
        paused := some true
        staleReason := some "paused"
        checkpoint := some checkpoint } now
    .ok (next, .source (next.sourceState request.profileId request.sourceKey))
  else
    match store.pendingJobForSource request.slot with
    | none => store.queueJob request checkpoint jobId now
    | some existing =>
      -- a running job wins: its executor owns the row
      if request.singleFlight ∨ existing.status = .running then
        if existing.status ≠ .running ∧ request.jobType = .journalRefresh then
          store.mergePendingJournalPayload existing request.payload now
        else .ok (store, .job existing)
      else do
        let next ← store.setCancelled existing now
        next.queueJob request checkpoint jobId now

def Store.cancelJob (store : Store) (jobId : String) (now : Nat) : Except FreshnessError Store := do
  let job ← store.getJob jobId
  if job.status.Ended then return store
  if job.status = .running then
    let next ← store.rewriteJob jobId fun row => { row with cancelRequested := true, updatedAt := now }
    next.updateJobProgress job
      { phase := some ((given job.phase).getD phaseBackendFetch), details := [("cancellation_requested", "true")] } now
  else store.setCancelled job now

def Job.turn (job : Job) : Int ×ₗ Nat ×ₗ String := toLex (job.priority, toLex (job.createdAt, job.id))

def workerInterrupted : AppError :=
  { code := some "worker_interrupted"
    message := "Previous daemon worker stopped before this job finished; the job was requeued."
    retryable := true }

/-- Requeue one job of a dead executor. Graph follow-ups are left to their own worker. -/
def Store.recoverJob (now : Nat) (store : Store) (job : Job) : Except FreshnessError Store :=
  if job.jobType = .graphReferences then .ok store
  else do
    let next ← store.rewriteJob job.id fun row =>
      { row with
        status := .queued
        phase := some phaseDiscovery
        cancelRequested := false
        runAfter := row.runAfter.or (some now)
        error := some workerInterrupted
        updatedAt := now }
    return next.upsertSourceState
      { job.update .blockingReports with
        staleReason := some "worker_interrupted"
        blockingReports := true
        lastPhase := job.phase
        progress := some { phase := some phaseDiscovery, details := [("recovered", "true")] }
        checkpoint := some (store.checkpointOf job.profileId job.sourceKey) } now

def Store.interrupted (store : Store) (profileId : Option String) : List Job :=
  sortedBy Job.turn (store.jobs.filter fun job => job.status = .running ∧ ∀ profile ∈ profileId, job.profileId = profile)

def Store.recoverInterruptedJobs (store : Store) (profileId : Option String) (now : Nat) : Except FreshnessError Store :=
  (store.interrupted profileId).foldlM (recoverJob now) store

def Store.Due (store : Store) (now : Nat) (job : Job) : Prop :=
  (job.status = .queued ∨ job.status = .rateLimited) ∧ (∀ after ∈ job.runAfter, after ≤ now) ∧
    (∀ cooldown ∈ job.cooldownUntil, cooldown ≤ now) ∧
    ¬ ∃ state ∈ store.states, state.key = (job.profileId, job.sourceKey) ∧ state.paused = true

instance (store : Store) (now : Nat) : DecidablePred (store.Due now) := fun _ => inferInstanceAs (Decidable (_ ∧ _))

def Store.listDueJobs (store : Store) (profileId : Option String) (limit : Int) (now : Nat) : List Job :=
  (sortedBy Job.turn (store.jobs.filter fun job =>
    store.Due now job ∧ ∀ profile ∈ profileId, job.profileId = profile)).take limit.toNat

def Store.nextDueJob (store : Store) (profileId : Option String) (now : Nat) : Option Job :=
  (store.listDueJobs profileId 1 now).head?

/-- What the cancellation check reports: a removed row or a cancellation raises. -/
def Store.checkCancelled (store : Store) (jobId : String) : Except FreshnessError Unit :=
  match rowAt Job.id store.jobs jobId with
  | none => .error .jobRemoved
  | some job => raiseIf (job.cancelRequested = true ∨ job.status = .cancelled) (.appError "cancelled")

def Store.markRunning (store : Store) (job : Job) (now : Nat) : Except FreshnessError (Store × Job) := do
  let next ← store.rewriteJob job.id fun row =>
    if row.status = .queued ∨ row.status = .rateLimited then
      { row with
        status := .running
        phase := some phaseDiscovery
        attempts := row.attempts + 1
        startedAt := row.startedAt.or (some now)
        updatedAt := now }
    else row
  let next ← next.updateJobProgress { job with status := .running } { phase := some phaseDiscovery } now
  let claimed ← next.getJob job.id
  return (next, claimed)

def Store.markSuccess (store : Store) (job : Job) (result : JobResult) (now : Nat) : Except FreshnessError Store := do
  let checkpoint := result.freshnessCheckpoint.getD (store.checkpointOf job.profileId job.sourceKey)
  let next ← store.writeJob job.id fun row =>
    { row with
      status := .done
      phase := some phaseDone
      result := some result
      finishedAt := some now
      updatedAt := now }
  return next.upsertSourceState
    { job.update (if result.partialSuccess then .partiallyStale else .fresh) with
      staleReason := if result.partialSuccess then some "partial_success" else none
      blockingReports := result.blockingReports
      retryCount := some 0
      lastSuccessAt := some now
      lastPhase := some phaseDone
      progress := some { phase := some phaseDone }
      checkpoint := some checkpoint } now

section
-- the digest that spreads retries apart
variable (stableJitterSeconds : String → Nat → Nat)

def maxBackoffSeconds : Nat := 6 * 60 * 60
def defaultBackoffSeconds : Nat := 30

def backoffBase (attempts : Nat) : Nat := min maxBackoffSeconds (defaultBackoffSeconds * 2 ^ (attempts - 1))

def AppError.retrySeconds (exc : AppError) : Option Int := (exc.retryAfterSeconds.filter (· ≠ 0)).or exc.retryAfter

def retryAfterFromError (exc : AppError) (job : Job) (now : Nat) : Option Nat × Option String :=
  match exc.retrySeconds with
  | some seconds => (some (now + seconds.toNat), some ((given exc.retryReason).getD "retry-after"))
  | none =>
    if "429".toList <:+: exc.message.toLower.toList ∨ "rate".toList <:+: (exc.code.getD "").toLower.toList then
      let attempts := job.attempts + 1
      let base := backoffBase attempts
      let jitter := stableJitterSeconds s!"{job.id}:{attempts}" (min (base / 4) 300)
      (some (now + (base + jitter)), some "exponential-backoff")
    else (none, none)

def databaseBusyRetrySeconds (job : Job) : Nat :=
  let attempts := max 1 job.attempts
  let base := backoffBase attempts
  base + stableJitterSeconds s!"database-busy:{job.id}:{attempts}" (min (base / 4) 300)

inductive Raised where
  | appError (exc : AppError)
  | databaseBusy
  | exception (message : String)
  deriving DecidableEq

def Raised.wrapped (job : Job) : Raised → AppError
  | .appError exc => exc
  | .databaseBusy =>
    { code := some "database_busy"
      message := "The local database is busy; this freshness job will retry automatically."
      retryable := true
      retryAfterSeconds := some (databaseBusyRetrySeconds stableJitterSeconds job)
      retryReason := some "database-busy" }
  | .exception message => { code := some "freshness_job_failed", message, retryable := true }

def Store.markError (store : Store) (job : Job) (exc : AppError) (now : Nat) : Except FreshnessError Store := do
  let (cooldownUntil, cooldownReason) := retryAfterFromError stableJitterSeconds exc job now
  let code := (given exc.code).getD "freshness_job_failed"
  let next ← store.writeJob job.id fun row =>
    { row with
      status := if cooldownUntil.isSome then .rateLimited else .error
      phase := some phaseError
      error := some { exc with code := some code }
      cooldownUntil
      runAfter := cooldownUntil
      finishedAt := if cooldownUntil.isSome then row.finishedAt else some now
      updatedAt := now }
  return next.upsertSourceState
    { job.update (if cooldownUntil.isSome then .rateLimited else .failed) with
      staleReason := some code
      blockingReports := job.jobType ≠ .graphReferences
      rateLimitedUntil := cooldownUntil
      cooldownReason
      retryCount := some job.attempts
      lastErrorAt := some now
      lastErrorCode := some code
      lastErrorMessage := some exc.message
      lastPhase := some phaseError
      progress := some { phase := some phaseError }
      checkpoint := some (next.checkpointOf job.profileId job.sourceKey) } now

def Store.markRaised (store : Store) (job : Job) (raised : Raised) (now : Nat) : Except FreshnessError Store :=
  if (raised.wrapped stableJitterSeconds job).code = some "cancelled" then store.setCancelled job now
  else store.markError stableJitterSeconds job (raised.wrapped stableJitterSeconds job) now

end

end Kassiber.Freshness

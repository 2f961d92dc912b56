import Kassiber.Freshness.Executors

/-!
Which operations keep a source blocking final reports.
-/

namespace Kassiber.Freshness
open Lib.Outcome Lib.Sorting Lib.Keyed Lib.Runs Option

def Store.Blocked (store : Store) (source : String × String) : Prop :=
  ∃ row ∈ rowAt SourceState.key store.states source, row.blockingReports = true

def SourceUpdate.source (update : SourceUpdate) : String × String := (update.profileId, update.sourceKey)

def Job.source (job : Job) : String × String := (job.profileId, job.sourceKey)

def JobRequest.source (request : JobRequest) : String × String := (request.profileId, request.sourceKey)

variable {store next : Store} {source : String × String} {job : Job} {now : Nat} {jobId : String}

theorem blocked_raises (blocked : store.Blocked source) :
    store.requireReportFreshness source.1 = .error (.appError "report_freshness_blocked") := by
  obtain ⟨row, found, flag⟩ := blocked
  have owner : row.profileId = source.1 := by rw [← rowAt_key found]; rfl
  have listed : row ∈ store.reportBlockingSources source.1 := by
    simp [Store.reportBlockingSources, rowAt_mem found, owner, flag]
  rw [Store.requireReportFreshness, if_neg (List.length_pos_of_mem listed).ne']

theorem upsert_blocked {update : SourceUpdate} (blocked : store.Blocked source)
    (keeps : update.source = source → update.blockingReports = true) :
    (store.upsertSourceState update now).Blocked source := by
  have written : (update.row (store.sourceState update.profileId update.sourceKey) now).key = update.source := rfl
  by_cases own : update.source = source
  · refine ⟨update.row (store.sourceState update.profileId update.sourceKey) now, ?_, keeps own⟩
    rw [← own, ← written]
    exact rowAt_putAt_same
  · obtain ⟨row, found, flag⟩ := blocked
    refine ⟨row, ?_, flag⟩
    rw [Store.upsertSourceState, rowAt_putAt_other (by rw [written]; exact fun same => own same.symm)]
    exact found

theorem blocked_of_states (same : next.states = store.states) (blocked : store.Blocked source) : next.Blocked source := by
  rwa [Store.Blocked, same]

theorem rewriteJob_states {f : Job → Job} (run : store.rewriteJob jobId f = .ok next) : next.states = store.states := by
  rw [Store.rewriteJob] at run
  split at run
  · cases run; rfl
  · cases run

theorem writeJob_states {f : Job → Job} (run : store.writeJob jobId f = .ok next) : next.states = store.states := by
  obtain ⟨written, rewritten, run⟩ := bind_ok.1 run
  obtain ⟨_, _, run⟩ := bind_ok.1 run
  cases run
  exact rewriteJob_states rewritten

theorem insertJob_states (run : store.insertJob job = .ok next) : next.states = store.states := by
  rw [Store.insertJob] at run
  split at run
  · cases run
  · cases run; rfl

theorem setCancelled_blocked (run : store.setCancelled job now = .ok next) (blocked : store.Blocked source)
    (blocking : job.source = source → job.jobType ≠ .graphReferences) : next.Blocked source := by
  obtain ⟨written, rewritten, run⟩ := bind_ok.1 run
  cases run
  apply upsert_blocked (blocked_of_states (writeJob_states rewritten) blocked)
  exact fun own => decide_eq_true (blocking own)

theorem updateJobProgress_blocked {progress : Progress} (run : store.updateJobProgress job progress now = .ok next)
    (blocked : store.Blocked source) (other : job.source ≠ source) : next.Blocked source := by
  obtain ⟨written, rewritten, run⟩ := bind_ok.1 run
  cases run
  exact upsert_blocked (blocked_of_states (writeJob_states rewritten) blocked) (fun own => absurd own other)

theorem markRunning_blocked {claimed : Job} (run : store.markRunning job now = .ok (next, claimed))
    (blocked : store.Blocked source) (other : job.source ≠ source) : next.Blocked source := by
  obtain ⟨written, rewritten, run⟩ := bind_ok.1 run
  obtain ⟨reported, progressed, run⟩ := bind_ok.1 run
  obtain ⟨_, _, run⟩ := bind_ok.1 run
  cases run
  exact updateJobProgress_blocked progressed (blocked_of_states (rewriteJob_states rewritten) blocked) other

theorem markSuccess_blocked {result : JobResult} (run : store.markSuccess job result now = .ok next)
    (blocked : store.Blocked source) (asks : job.source = source → result.blockingReports = true) :
    next.Blocked source := by
  obtain ⟨written, rewritten, run⟩ := bind_ok.1 run
  cases run
  exact upsert_blocked (blocked_of_states (writeJob_states rewritten) blocked) asks

section
variable {stableJitterSeconds : String → Nat → Nat} {raised : Raised}

theorem markError_blocked {exc : AppError} (run : store.markError stableJitterSeconds job exc now = .ok next)
    (blocked : store.Blocked source) (blocking : job.source = source → job.jobType ≠ .graphReferences) :
    next.Blocked source := by
  obtain ⟨written, rewritten, run⟩ := bind_ok.1 run
  cases run
  apply upsert_blocked (blocked_of_states (writeJob_states rewritten) blocked)
  exact fun own => decide_eq_true (blocking own)

theorem markRaised_blocked (run : store.markRaised stableJitterSeconds job raised now = .ok next)
    (blocked : store.Blocked source) (blocking : job.source = source → job.jobType ≠ .graphReferences) :
    next.Blocked source := by
  rw [Store.markRaised] at run
  split at run
  · exact setCancelled_blocked run blocked blocking
  · exact markError_blocked run blocked blocking

end

variable {profileId key : String}

theorem sourceState_flag {state : SourceState} (found : store.sourceState profileId key = some state)
    (own : (profileId, key) = source) (blocked : store.Blocked source) : state.blockingReports = true := by
  subst own
  obtain ⟨row, present, flag⟩ := blocked
  rw [Store.sourceState, present] at found
  cases found
  exact flag

theorem pauseSource_blocked (run : store.pauseSource profileId key now = .ok next)
    (blocked : store.Blocked source) : next.Blocked source := by
  rw [Store.pauseSource] at run
  split at run
  · cases run
  · rename_i state found
    cases run
    exact upsert_blocked blocked (fun own => sourceState_flag found own blocked)

theorem resumeSource_blocked (run : store.resumeSource profileId key now = .ok next)
    (blocked : store.Blocked source) : next.Blocked source := by
  rw [Store.resumeSource] at run
  split at run
  · cases run
  · rename_i state found
    cases run
    exact upsert_blocked blocked (fun own => sourceState_flag found own blocked)

theorem resetSourceCheckpoint_blocked {staleReason : String} (blocked : store.Blocked source) :
    (store.resetSourceCheckpoint profileId key staleReason now).Blocked source := by
  rw [Store.resetSourceCheckpoint]
  split
  · exact blocked
  · rename_i state found
    exact upsert_blocked blocked (fun own => sourceState_flag found own blocked)

theorem recoverJob_blocked (run : Store.recoverJob now store job = .ok next) (blocked : store.Blocked source) :
    next.Blocked source := by
  rw [Store.recoverJob] at run
  split at run
  · cases run; exact blocked
  · obtain ⟨written, rewritten, run⟩ := bind_ok.1 run
    cases run
    exact upsert_blocked (blocked_of_states (rewriteJob_states rewritten) blocked) (fun _ => rfl)

theorem recoverInterruptedJobs_blocked {profileId : Option String}
    (run : store.recoverInterruptedJobs profileId now = .ok next) (blocked : store.Blocked source) : next.Blocked source :=
  foldlM_invariant (fun reached : Store => reached.Blocked source) blocked
    (fun _ _ _ _ before taken => recoverJob_blocked taken before) run

theorem deleteSourceRecords_blocked {keys : List String} (blocked : store.Blocked source)
    (spared : ¬ (source.1 = profileId ∧ source.2 ∈ keys)) : (store.deleteSourceRecords profileId keys).Blocked source := by
  obtain ⟨row, found, flag⟩ := blocked
  refine ⟨row, ?_, flag⟩
  rw [Store.deleteSourceRecords, rowAt_filter _ ?_]
  · exact found
  · rintro other _ rfl
    exact spared

/-- An enqueue that hands out a job already waiting or running for its slot; it writes no source row. -/
def Store.Reuses (store : Store) (request : JobRequest) : Prop :=
  (store.sourceState request.profileId request.sourceKey).any (·.paused) = false ∧
    ∃ existing ∈ store.pendingJobForSource request.slot, request.singleFlight = true ∨ existing.status = .running

variable {enqueued : Enqueued}

theorem mergePendingJournalPayload_states {payload : Payload}
    (run : store.mergePendingJournalPayload job payload now = .ok (next, enqueued)) : next.states = store.states := by
  rw [Store.mergePendingJournalPayload] at run
  split at run
  · cases run; rfl
  · obtain ⟨written, rewritten, run⟩ := bind_ok.1 run
    obtain ⟨_, _, run⟩ := bind_ok.1 run
    cases run
    exact rewriteJob_states rewritten

theorem queueJob_blocked {request : JobRequest} {checkpoint : Checkpoint}
    (run : store.queueJob request checkpoint jobId now = .ok (next, enqueued)) (blocked : store.Blocked source)
    (other : request.source ≠ source) : next.Blocked source := by
  obtain ⟨written, inserted, run⟩ := bind_ok.1 run
  cases run
  exact upsert_blocked (blocked_of_states (insertJob_states inserted) blocked) (fun own => absurd own other)

theorem pendingJobForSource_slot {slot : String × String × JobType} (found : store.pendingJobForSource slot = some job) :
    job ∈ store.jobs ∧ job.slot = slot ∧ job.status.Pending := by
  have member := List.mem_of_mem_head? found
  rw [mem_sortedBy, List.mem_filter, decide_eq_true_eq] at member
  exact member

theorem enqueueJob_blocked {request : JobRequest}
    (run : store.enqueueJob request jobId now = .ok (next, enqueued)) (blocked : store.Blocked source)
    (harmless : request.source = source → store.Reuses request) : next.Blocked source := by
  rw [Store.enqueueJob] at run
  dsimp only at run
  split at run
  · rename_i paused
    cases run
    refine upsert_blocked blocked (fun own => ?_)
    rw [(harmless own).1] at paused
    cases paused
  · cases found : store.pendingJobForSource request.slot with
    | none =>
      rw [found] at run
      refine queueJob_blocked run blocked (fun own => ?_)
      obtain ⟨existing, present, _⟩ := (harmless own).2
      rw [found] at present
      cases present
    | some existing =>
      rw [found] at run
      dsimp only at run
      split at run
      · split at run
        · exact blocked_of_states (mergePendingJournalPayload_states run) blocked
        · cases run; exact blocked
      · rename_i replaced
        have other : request.source ≠ source := by
          intro own
          obtain ⟨_, present, kept⟩ := (harmless own).2
          rw [found] at present
          cases present
          exact replaced kept
        obtain ⟨cancelled, cancelling, run⟩ := bind_ok.1 run
        have same : existing.source = request.source := by
          have slot := (pendingJobForSource_slot found).2.1
          simp only [Job.slot, JobRequest.slot, Prod.mk.injEq] at slot
          simp only [Job.source, JobRequest.source, slot.1, slot.2.1]
        refine queueJob_blocked run ?_ other
        exact setCancelled_blocked cancelling blocked (fun own => absurd (same.symm.trans own) other)

theorem getJob_ok (run : store.getJob jobId = .ok job) : rowAt Job.id store.jobs jobId = some job := by
  rw [Store.getJob] at run
  split at run
  · cases run
  · cases run; assumption

theorem cancelJob_blocked (run : store.cancelJob jobId now = .ok next) (blocked : store.Blocked source)
    (harmless : ∀ job ∈ rowAt Job.id store.jobs jobId, job.source = source →
      job.status ≠ .running ∧ (¬ job.status.Ended → job.jobType ≠ .graphReferences)) : next.Blocked source := by
  obtain ⟨job, read, run⟩ := bind_ok.1 run
  have held := harmless job (getJob_ok read)
  split at run
  · cases run; exact blocked
  · rename_i pending
    split at run
    · rename_i running
      obtain ⟨written, rewritten, run⟩ := bind_ok.1 run
      exact updateJobProgress_blocked run (blocked_of_states (rewriteJob_states rewritten) blocked)
        (fun own => (held own).1 running)
    · exact setCancelled_blocked run blocked (fun own => (held own).2 pending)

variable {ε : Type} [DecidableEq ε] {stableJitterSeconds : String → Nat → Nat} {s t : System ε} {action : Action ε}

/-- The step ends a job of the source successfully, and its result does not ask to block reports. -/
def Succeeds (source : String × String) (s : System ε) : Action ε → Prop
  | .finish e _ => ∃ job result, s.control e = .passed job result ∧ job.source = source ∧ result.blockingReports = false
  | _ => False

def Deletes (source : String × String) : Action ε → Prop
  | .deleteSourceRecords profileId keys => source.1 = profileId ∧ source.2 ∈ keys
  | _ => False

/-- The steps that rewrite the source's row without its blocking flag: a job of it is queued, or would
be while the source is paused, starts, reports progress or has its cancellation requested while it
runs; or a graph follow-up of it fails or is cancelled. -/
def DropsFlag (source : String × String) (s : System ε) : Action ε → Prop
  | .enqueueJob request _ _ => request.source = source ∧ ¬ s.store.Reuses request
  | .cancelJob jobId _ => ∃ job ∈ rowAt Job.id s.store.jobs jobId, job.source = source ∧
      (job.status = .running ∨ ¬ job.status.Ended ∧ job.jobType = .graphReferences)
  | .markRunning e _ => ∃ job, s.control e = .found job ∧ job.source = source
  | .progress e _ _ => ∃ job, s.control e = .handling job ∧ job.source = source ∧
      s.store.checkCancelled job.id = .ok ()
  | .finish e _ => ∃ job raised, s.control e = .failed job raised ∧ job.source = source ∧ job.jobType = .graphReferences
  | _ => False

omit [DecidableEq ε] in
theorem commit_blocked {outcome : Except FreshnessError Store} (blocked : s.store.Blocked source)
    (kept : ∀ next, outcome = .ok next → next.Blocked source) : (s.commit outcome).store.Blocked source := by
  cases outcome with
  | error _ => exact blocked
  | ok next => exact kept next rfl

omit [DecidableEq ε] in
theorem request_blocked (outside : action.executor = none) (run : s.store.request action = .ok next)
    (blocked : s.store.Blocked source) (spared : ¬ Deletes source action) (harmless : ¬ DropsFlag source s action) :
    next.Blocked source := by
  cases action with
  | enqueueJob request jobId now =>
    obtain ⟨⟨written, enqueued⟩, queued, rfl⟩ := map_ok.1 run
    exact enqueueJob_blocked queued blocked (fun own => not_not.1 (fun fresh => harmless ⟨own, fresh⟩))
  | cancelJob jobId now =>
    refine cancelJob_blocked run blocked (fun job found own => ?_)
    have quiet : ¬ (job.status = .running ∨ ¬ job.status.Ended ∧ job.jobType = .graphReferences) :=
      fun loud => harmless ⟨job, found, own, loud⟩
    exact ⟨fun running => quiet (.inl running), fun pending graph => quiet (.inr ⟨pending, graph⟩)⟩
  | pauseSource profileId key now => exact pauseSource_blocked run blocked
  | resumeSource profileId key now => exact resumeSource_blocked run blocked
  | resetSourceCheckpoint profileId key staleReason now => cases run; exact resetSourceCheckpoint_blocked blocked
  | recoverInterruptedJobs profileId now => exact recoverInterruptedJobs_blocked run blocked
  | deleteSourceRecords profileId keys => cases run; exact deleteSourceRecords_blocked blocked spared
  | _ => cases outside

theorem advance_blocked {e : ε} (own : action.executor = some e)
    (taken : s.advance stableJitterSeconds e action (s.control e) = some t) (blocked : s.store.Blocked source)
    (unfinished : ¬ Succeeds source s action) (harmless : ¬ DropsFlag source s action) : t.store.Blocked source := by
  cases advance_cases own taken with
  | claims place marked => exact markRunning_blocked marked blocked (fun own => harmless ⟨_, place, own⟩)
  | progresses place unasked =>
    refine commit_blocked blocked (fun next progressed => ?_)
    exact updateJobProgress_blocked progressed blocked (fun own => harmless ⟨_, place, own, unasked⟩)
  | succeeds place =>
    refine commit_blocked (s := s.at e .idle) blocked (fun next marked => markSuccess_blocked marked blocked (fun own => ?_))
    by_contra quiet
    exact unfinished ⟨_, _, place, own, by simpa using quiet⟩
  | fails place =>
    refine commit_blocked (s := s.at e .idle) blocked (fun next marked => markRaised_blocked marked blocked ?_)
    exact fun own graph => harmless ⟨_, _, place, own, graph⟩
  | checks _ _ => rwa [checked_store]
  | rests | frees _ | leaves _ _ _ => exact blocked

theorem step_blocked (taken : s.act stableJitterSeconds action = some t) (blocked : s.store.Blocked source)
    (unfinished : ¬ Succeeds source s action) (spared : ¬ Deletes source action)
    (harmless : ¬ DropsFlag source s action) : t.store.Blocked source := by
  rw [System.act] at taken
  split at taken
  · rename_i e own
    exact advance_blocked own taken blocked unfinished harmless
  · rename_i outside
    cases taken
    exact commit_blocked blocked (fun next run => request_blocked outside run blocked spared harmless)

/-- From the state in which a source blocks reports: any steps of any executors and operations, none of
which rewrites the source's row without its flag, none a success that does not ask to block, and
none the deletion of its records, leave final reports blocked. -/
theorem blocks_until_success {actions : List (Action ε)}
    (run : Run (fun s action t => s.act stableJitterSeconds action = some t ∧ ¬ Succeeds source s action ∧
      ¬ Deletes source action ∧ ¬ DropsFlag source s action) s actions t)
    (blocked : s.store.Blocked source) :
    t.store.requireReportFreshness source.1 = .error (.appError "report_freshness_blocked") := by
  apply blocked_raises
  refine run.invariant (I := fun reached => reached.store.Blocked source) ?_ blocked
  rintro s action t before ⟨taken, unfinished, spared, harmless⟩
  exact step_blocked taken before unfinished spared harmless

instance : Decidable (store.Blocked source) := inferInstanceAs (Decidable (∃ row ∈ _, _))

def vault : String × String := ("pf", "onchain_wallet:vault")

def vaultSync : JobRequest :=
  { profileId := "pf", jobType := .onchainWallet, sourceKey := "onchain_wallet:vault", sourceType := "onchain_wallet",
    sourceLabel := "Vault" }

def failedSync : List (Action Unit) :=
  [.enqueueJob vaultSync "job-1" 1, .runJob () "job-1", .readJob () [.onchainWallet], .markRunning () 2, .checkBefore (),
    .leaveHandler () (.raised (.exception "Connection refused")), .finish () 3]

theorem failedSync_blocks : ∃ s : System Unit, System.play (fun _ _ => 0) {} failedSync = some s ∧ s.store.Blocked vault := by
  have reached : ((System.play (fun _ _ => 0) {} failedSync).map fun s : System Unit => decide (s.store.Blocked vault)) =
      some true := by decide +kernel
  obtain ⟨s, run, blocked⟩ := map_eq_some_iff.1 reached
  exact ⟨s, run, of_decide_eq_true blocked⟩

/-- A failed sync blocks final reports, and pausing its source leaves them blocked. -/
theorem paused_source_blocks : ∃ s : System Unit, System.play (fun _ _ => 0) {} failedSync = some s ∧
    (s.commit (s.store.pauseSource "pf" "onchain_wallet:vault" 4)).store.requireReportFreshness "pf" =
      .error (.appError "report_freshness_blocked") := by
  obtain ⟨s, run, blocked⟩ := failedSync_blocks
  have paused : System.act (fun _ _ => 0) s (.pauseSource "pf" "onchain_wallet:vault" 4) =
      some (s.commit (s.store.pauseSource "pf" "onchain_wallet:vault" 4)) := rfl
  have pausing : Run (fun s action t => System.act (fun _ _ => 0) s action = some t ∧ ¬ Succeeds vault s action ∧
      ¬ Deletes vault action ∧ ¬ DropsFlag vault s action) s [.pauseSource "pf" "onchain_wallet:vault" 4]
      (s.commit (s.store.pauseSource "pf" "onchain_wallet:vault" 4)) := .next ⟨paused, id, id, id⟩ (.rest _)
  exact ⟨s, run, blocks_until_success pausing blocked⟩

/-- Queueing a retry of the failed sync opens final reports: no job of the source succeeded in between
and its records were not deleted. -/
theorem queued_retry_opens_reports :
    ¬ ∀ (s t : System Unit) (before later : List (Action Unit)), System.play (fun _ _ => 0) {} before = some s →
      s.store.Blocked vault →
      Run (fun s action t => s.act (fun _ _ => 0) action = some t ∧ ¬ Succeeds vault s action ∧ ¬ Deletes vault action)
        s later t →
      t.store.requireReportFreshness vault.1 = .error (.appError "report_freshness_blocked") := by
  intro claimed
  have opened : ((System.play (fun _ _ => 0) {} failedSync).bind fun s : System Unit =>
      (s.act (fun _ _ => 0) (.enqueueJob vaultSync "job-2" 4)).map fun t =>
        (t.store.requireReportFreshness "pf").toOption) = some (some ()) := by decide +kernel
  obtain ⟨s, run, blocked⟩ := failedSync_blocks
  rw [run, bind_some] at opened
  obtain ⟨t, queued, open_⟩ := map_eq_some_iff.1 opened
  have raised := claimed s t failedSync _ run blocked (.next ⟨queued, id, id⟩ (.rest t))
  rw [show vault.1 = "pf" from rfl] at raised
  rw [raised] at open_
  cases open_

end Kassiber.Freshness

import Kassiber.Freshness.Blocking

/-!
How often a freshness job runs and ends. An executor owns the job it claimed while the row says that it
is running; nobody else may then run it, and only its owner ends it.
-/

namespace Kassiber.Freshness
open Lib.Outcome Lib.Sorting Lib.Keyed Lib.Runs List Option

/-- An executor that is about to give a cancelled job up: it has run no handler, or ends as cancelled. -/
def Control.Withdrawn : Control → Prop
  | .started _ => True
  | .failed _ raised => raised = cancelledError
  | _ => False

def Store.job (store : Store) (jobId : String) : Option Job := rowAt Job.id store.jobs jobId

/-- An ended job stays as it ended, none ends as done, and a requested cancellation stays requested. -/
structure Lasting (row row' : Job) : Prop where
  ended : row.status.Ended → row'.status = row.status
  done : row'.status = .done → row.status = .done
  requested : row.cancelRequested = true → row'.cancelRequested = true

structure Kept (row row' : Job) : Prop extends Lasting row row' where
  running : row.status = .running → row'.status = .running

theorem Kept.refl (row : Job) : Kept row row := ⟨⟨fun _ => rfl, id, id⟩, id⟩

variable {row row' row'' claimed : Job}

theorem Lasting.trans (first : Lasting row row') (second : Lasting row' row'') :
    Lasting row row'' where
  ended final := by
    have same := first.ended final
    rw [← same]
    exact second.ended (same ▸ final)
  done final := first.done (second.done final)
  requested asked := second.requested (first.requested asked)

theorem Kept.trans (first : Kept row row') (second : Kept row' row'') : Kept row row'' :=
  ⟨first.toLasting.trans second.toLasting, fun busy => second.running (first.running busy)⟩

/-- No job vanishes, the new ones have the drawn ids, and the others are related to their row before. -/
structure Tracked (rel : Job → Job → Prop) (drawn : List String) (store next : Store) : Prop where
  distinct : (store.jobs.map Job.id).Nodup → (next.jobs.map Job.id).Nodup
  flight : SingleFlight store.jobs → SingleFlight next.jobs
  stays : ∀ jobId, (store.job jobId).isSome → (next.job jobId).isSome
  rows : ∀ jobId row', next.job jobId = some row' → jobId ∈ drawn ∨ ∃ row, store.job jobId = some row ∧ rel row row'

variable {store next middle : Store} {job : Job} {jobId : String} {now : Nat} {f : Job → Job} {drawn : List String}
  {rel : Job → Job → Prop}

theorem Tracked.of_jobs (refl : ∀ row, rel row row) (same : next.jobs = store.jobs) : Tracked rel drawn store next where
  distinct nodup := by rwa [same]
  flight single := by rwa [same]
  stays jobId present := by rwa [Store.job, same]
  rows jobId row' found := by
    rw [Store.job, same] at found
    exact .inr ⟨row', found, refl row'⟩

theorem Tracked.trans (trans : ∀ row row' row'', rel row row' → rel row' row'' → rel row row'')
    (first : Tracked rel [] store middle) (second : Tracked rel drawn middle next) : Tracked rel drawn store next where
  distinct nodup := second.distinct (first.distinct nodup)
  flight single := second.flight (first.flight single)
  stays jobId present := second.stays jobId (first.stays jobId present)
  rows jobId row' found := by
    rcases second.rows jobId row' found with new | ⟨between, here, later⟩
    · exact .inl new
    · rcases first.rows jobId between here with impossible | ⟨row, there, earlier⟩
      · cases impossible
      · exact .inr ⟨row, there, trans _ _ _ earlier later⟩

theorem Tracked.weaken {wider : Job → Job → Prop} (included : ∀ row row', rel row row' → wider row row')
    (tracked : Tracked rel drawn store next) : Tracked wider drawn store next where
  distinct := tracked.distinct
  flight := tracked.flight
  stays := tracked.stays
  rows jobId row' found :=
    (tracked.rows jobId row' found).imp_right fun ⟨row, here, related⟩ => ⟨row, here, included row row' related⟩

theorem Tracked.upsert {update : SourceUpdate} (tracked : Tracked rel drawn store next) :
    Tracked rel drawn store (next.upsertSourceState update now) := ⟨tracked.1, tracked.2, tracked.3, tracked.4⟩

theorem rewriteJob_jobs (run : store.rewriteJob jobId f = .ok next) :
    next.jobs = editAt Job.id store.jobs jobId f ∧ SingleFlight next.jobs := by
  rw [Store.rewriteJob] at run
  split at run
  · rename_i single
    cases run
    exact ⟨rfl, single⟩
  · cases run

theorem writeJob_jobs (run : store.writeJob jobId f = .ok next) :
    next.jobs = editAt Job.id store.jobs jobId f ∧ SingleFlight next.jobs ∧ ∃ row, store.job jobId = some row := by
  obtain ⟨written, rewritten, run⟩ := bind_ok.1 run
  obtain ⟨_, present, run⟩ := bind_ok.1 run
  cases run
  obtain ⟨same, single⟩ := rewriteJob_jobs rewritten
  exact ⟨same, single, ne_none_iff_exists'.1 (raiseIf_ok.1 present)⟩

section
variable (edited : next.jobs = editAt Job.id store.jobs jobId f) (sameId : ∀ row, (f row).id = row.id)
include edited sameId

theorem edited_job : next.job jobId = (store.job jobId).map f := by
  rw [Store.job, edited]
  exact rowAt_editAt_same (fun row own => (sameId row).trans own)

theorem unedited_job {other : String} (apart : other ≠ jobId) : next.job other = store.job other := by
  rw [Store.job, edited]
  exact rowAt_editAt_other (fun row own => (sameId row).trans own) apart

theorem Tracked.of_edit (single : SingleFlight next.jobs) (refl : ∀ row, rel row row)
    (related : ∀ row, store.job jobId = some row → rel row (f row)) : Tracked rel drawn store next where
  distinct nodup := by
    rw [edited, keys_editAt (fun row own => (sameId row).trans own)]
    exact nodup
  flight _ := single
  stays other present := by
    by_cases own : other = jobId
    · rw [own, edited_job edited sameId, isSome_map, ← own]
      exact present
    · rwa [unedited_job edited sameId own]
  rows other row' found := by
    by_cases own : other = jobId
    · subst own
      rw [edited_job edited sameId] at found
      obtain ⟨row, here, rfl⟩ := map_eq_some_iff.1 found
      exact .inr ⟨row, here, related row here⟩
    · rw [unedited_job edited sameId own] at found
      exact .inr ⟨row', found, refl row'⟩

end

theorem updateJobProgress_tracked {progress : Progress} (run : store.updateJobProgress job progress now = .ok next) :
    Tracked Kept drawn store next := by
  obtain ⟨written, rewritten, run⟩ := bind_ok.1 run
  cases run
  obtain ⟨edited, single, _⟩ := writeJob_jobs rewritten
  exact (Tracked.of_edit edited (fun _ => rfl) single .refl fun _ _ => ⟨⟨fun _ => rfl, id, id⟩, id⟩).upsert

theorem not_ended {status : JobStatus} (pending : status.Pending) : ¬ status.Ended := by
  rcases pending with eq | eq | eq <;> subst eq <;> decide

theorem claim_kept : Kept row (if row.status = .queued ∨ row.status = .rateLimited then { row with
      status := .running
      phase := some phaseDiscovery
      attempts := row.attempts + 1
      startedAt := row.startedAt.or (some now)
      updatedAt := now }
    else row) := by
  split
  · rename_i waiting
    have pending : row.status.Pending := waiting.elim .inl (.inr ∘ .inr)
    exact ⟨⟨fun final => absurd final (not_ended pending), fun impossible => (by cases impossible), id⟩, fun _ => rfl⟩
  · exact .refl row

theorem markRunning_tracked (run : store.markRunning job now = .ok (next, claimed)) :
    Tracked Kept drawn store next ∧ next.job job.id = some claimed ∧
      ∃ row, store.job job.id = some row ∧ (row.status = .queued ∨ row.status = .rateLimited → claimed.status = .running) := by
  obtain ⟨written, rewritten, run⟩ := bind_ok.1 run
  obtain ⟨reported, progressed, run⟩ := bind_ok.1 run
  obtain ⟨read, found, run⟩ := bind_ok.1 run
  cases run
  obtain ⟨edited, single⟩ := rewriteJob_jobs rewritten
  have sameId : ∀ row : Job, (if row.status = .queued ∨ row.status = .rateLimited then
      { row with
        status := .running
        phase := some phaseDiscovery
        attempts := row.attempts + 1
        startedAt := row.startedAt.or (some now)
        updatedAt := now }
      else row).id = row.id := by
    intro row
    split <;> rfl
  have first : Tracked Kept [] store written := Tracked.of_edit edited sameId single .refl fun _ _ => claim_kept
  have second : Tracked Kept [] written next := updateJobProgress_tracked progressed
  refine ⟨first.trans (fun _ _ _ => Kept.trans) (updateJobProgress_tracked progressed), getJob_ok found, ?_⟩
  rcases second.rows _ _ (getJob_ok found) with impossible | ⟨row', here, kept⟩
  · cases impossible
  · rw [edited_job edited sameId] at here
    obtain ⟨row, there, rfl⟩ := map_eq_some_iff.1 here
    refine ⟨row, there, fun waiting => kept.running ?_⟩
    rw [if_pos waiting]

theorem setCancelled_job (run : store.setCancelled job now = .ok next) :
    (∃ row row', store.job job.id = some row ∧ next.job job.id = some row' ∧ row'.status = .cancelled ∧
      row'.cancelRequested = true) ∧ (∀ other, other ≠ job.id → next.job other = store.job other) ∧
    ∀ rel : Job → Job → Prop, (∀ row, rel row row) →
      (∀ row row', store.job job.id = some row → row'.status = .cancelled → row'.cancelRequested = true → rel row row') →
      Tracked rel drawn store next := by
  obtain ⟨written, rewritten, run⟩ := bind_ok.1 run
  cases run
  obtain ⟨edited, single, row, present⟩ := writeJob_jobs rewritten
  refine ⟨?_, fun other apart => unedited_job edited (fun _ => rfl) apart, ?_⟩
  · refine ⟨row, _, present, (edited_job edited (fun _ => rfl)).trans (by rw [present]; rfl), rfl, rfl⟩
  · intro rel refl related
    exact (Tracked.of_edit edited (fun _ => rfl) single refl fun row here => related row _ here rfl rfl).upsert

theorem insertJob_tracked (run : store.insertJob job = .ok next) :
    Tracked Kept [job.id] store next ∧ store.job job.id = none := by
  rw [Store.insertJob] at run
  split at run
  · cases run
  · rename_i accepted
    rw [not_or, not_not] at accepted
    obtain ⟨absent, single⟩ := accepted
    have missing : rowAt Job.id store.jobs job.id = none := by simpa using absent
    cases run
    refine ⟨⟨fun nodup => ?_, fun _ => single, fun other present => ?_, fun other row' found => ?_⟩, missing⟩
    · have added : ((putAt Job.id store.jobs job).map Job.id).Nodup := keys_putAt nodup
      rwa [putAt, if_neg absent] at added
    · rw [Store.job, rowAt_append, isSome_or]
      exact Bool.or_eq_true_iff.2 (.inl present)
    · rw [Store.job, rowAt_append, or_eq_some_iff] at found
      rcases found with old | ⟨_, new⟩
      · exact .inr ⟨row', old, .refl row'⟩
      · rw [rowAt_cons] at new
        split at new
        · rename_i own
          exact .inl (own ▸ mem_singleton_self _)
        · cases new

theorem setCancelled_kept (run : store.setCancelled job now = .ok next)
    (idle : ∀ row, store.job job.id = some row → row.status.Pending ∧ row.status ≠ .running) :
    Tracked Kept drawn store next := by
  refine (setCancelled_job run).2.2 Kept .refl (fun row row' here cancelled requested => ?_)
  obtain ⟨pending, waiting⟩ := idle row here
  exact ⟨⟨fun final => absurd final (not_ended pending), fun impossible => (by rw [cancelled] at impossible; cases impossible),
    fun _ => requested⟩, fun busy => absurd busy waiting⟩

variable {enqueued : Enqueued}

theorem mergePendingJournalPayload_tracked {payload : Payload}
    (run : store.mergePendingJournalPayload job payload now = .ok (next, enqueued)) : Tracked Kept drawn store next := by
  rw [Store.mergePendingJournalPayload] at run
  split at run
  · cases run
    exact .of_jobs .refl rfl
  · obtain ⟨written, rewritten, run⟩ := bind_ok.1 run
    obtain ⟨_, _, run⟩ := bind_ok.1 run
    cases run
    obtain ⟨edited, single⟩ := rewriteJob_jobs rewritten
    exact .of_edit edited (fun _ => rfl) single .refl fun _ _ => ⟨⟨fun _ => rfl, id, id⟩, id⟩

theorem queueJob_tracked {request : JobRequest} {checkpoint : Checkpoint}
    (run : store.queueJob request checkpoint jobId now = .ok (next, enqueued)) : Tracked Kept [jobId] store next := by
  obtain ⟨written, inserted, run⟩ := bind_ok.1 run
  cases run
  exact (insertJob_tracked inserted).1.upsert

theorem enqueueJob_tracked {request : JobRequest} (distinct : (store.jobs.map Job.id).Nodup)
    (run : store.enqueueJob request jobId now = .ok (next, enqueued)) : Tracked Kept [jobId] store next := by
  rw [Store.enqueueJob] at run
  dsimp only at run
  split at run
  · cases run
    exact .of_jobs .refl rfl
  · cases found : store.pendingJobForSource request.slot with
    | none =>
      rw [found] at run
      exact queueJob_tracked run
    | some existing =>
      rw [found] at run
      dsimp only at run
      split at run
      · split at run
        · exact mergePendingJournalPayload_tracked run
        · cases run
          exact .of_jobs .refl rfl
      · rename_i replaced
        obtain ⟨cancelled, cancelling, run⟩ := bind_ok.1 run
        obtain ⟨member, _, pending⟩ := pendingJobForSource_slot found
        refine Tracked.trans (fun _ _ _ => Kept.trans) (setCancelled_kept cancelling fun row here => ?_) (queueJob_tracked run)
        rw [Store.job, rowAt_of_mem distinct member] at here
        cases here
        exact ⟨pending, fun busy => replaced (.inr busy)⟩

theorem cancelJob_tracked (run : store.cancelJob jobId now = .ok next) : Tracked Kept drawn store next := by
  obtain ⟨job, read, run⟩ := bind_ok.1 run
  have here := getJob_ok read
  split at run
  · cases run
    exact .of_jobs .refl rfl
  · rename_i unfinished
    split at run
    · obtain ⟨written, rewritten, run⟩ := bind_ok.1 run
      obtain ⟨edited, single⟩ := rewriteJob_jobs rewritten
      refine Tracked.trans (fun _ _ _ => Kept.trans) ?_ (updateJobProgress_tracked run)
      exact .of_edit edited (fun _ => rfl) single .refl fun _ _ => ⟨⟨fun _ => rfl, id, fun _ => rfl⟩, id⟩
    · rename_i waiting
      refine setCancelled_kept run (fun row found => ?_)
      rw [Store.job, rowAt_key here, here] at found
      cases found
      refine ⟨?_, waiting⟩
      cases status : job.status <;> simp_all [JobStatus.Ended, JobStatus.Pending]

/-- The rows that a recovery requeues: none of them was asked to stop. -/
def Unasked (jobs : List Job) : Prop := ∀ job ∈ jobs, job.jobType ≠ .graphReferences → job.cancelRequested = false

theorem recoverJob_tracked (run : Store.recoverJob now store job = .ok next)
    (fresh : job.jobType ≠ .graphReferences →
      ∀ row, store.job job.id = some row → row.status.Pending ∧ row.cancelRequested = false) :
    Tracked Lasting drawn store next ∧ ∀ other row', next.job other = some row' → store.job other = some row' ∨
      row'.status.Pending ∧ row'.cancelRequested = false := by
  rw [Store.recoverJob] at run
  split at run
  · cases run
    exact ⟨.of_jobs (fun row => (Kept.refl row).toLasting) rfl, fun _ _ found => .inl found⟩
  · rename_i ordinary
    obtain ⟨written, rewritten, run⟩ := bind_ok.1 run
    cases run
    obtain ⟨edited, single⟩ := rewriteJob_jobs rewritten
    constructor
    · refine Tracked.upsert (.of_edit edited (fun _ => rfl) single (fun row => (Kept.refl row).toLasting) ?_)
      intro row here
      obtain ⟨pending, unasked⟩ := fresh ordinary row here
      exact ⟨fun final => absurd final (not_ended pending), fun impossible => (by cases impossible),
        fun asked => absurd asked (by rw [unasked]; decide)⟩
    · intro other row' found
      by_cases own : other = job.id
      · subst own
        have changed : written.job job.id = some row' := found
        rw [edited_job edited (fun _ => rfl)] at changed
        obtain ⟨row, _, rfl⟩ := map_eq_some_iff.1 changed
        exact .inr ⟨.inl rfl, rfl⟩
      · exact .inl ((unedited_job edited (fun _ => rfl) own).symm.trans found)

theorem recoverInterruptedJobs_tracked {profileId : Option String} (distinct : (store.jobs.map Job.id).Nodup)
    (unasked : Unasked (store.interrupted profileId)) (run : store.recoverInterruptedJobs profileId now = .ok next) :
    Tracked Lasting drawn store next := by
  have running : ∀ job ∈ store.interrupted profileId, job ∈ store.jobs ∧ job.status = .running := by
    intro job member
    rw [Store.interrupted, mem_sortedBy, mem_filter, decide_eq_true_eq] at member
    exact ⟨member.1, member.2.1⟩
  have looped : Tracked Lasting [] store next ∧ ∀ job ∈ store.interrupted profileId, job.jobType ≠ .graphReferences →
      ∀ row, next.job job.id = some row → row.status.Pending ∧ row.cancelRequested = false := by
    refine foldlM_invariant (fun reached : Store => Tracked Lasting [] store reached ∧
      ∀ job ∈ store.interrupted profileId, job.jobType ≠ .graphReferences →
        ∀ row, reached.job job.id = some row → row.status.Pending ∧ row.cancelRequested = false) ?_ ?_ run
    · refine ⟨.of_jobs (fun row => (Kept.refl row).toLasting) rfl, fun job member ordinary row here => ?_⟩
      rw [Store.job, rowAt_of_mem distinct (running job member).1] at here
      cases here
      exact ⟨.inr (.inl (running job member).2), unasked job member ordinary⟩
    · intro reached job following member ⟨tracked, waiting⟩ taken
      obtain ⟨moved, fates⟩ := (recoverJob_tracked taken (waiting job member) : Tracked Lasting [] _ _ ∧ _)
      refine ⟨tracked.trans (fun _ _ _ => Lasting.trans) moved, fun other inside ordinary row here => ?_⟩
      rcases fates other.id row here with old | fate
      · exact waiting other inside ordinary row old
      · exact fate
  exact ⟨looped.1.1, looped.1.2, looped.1.3, fun other row' found =>
    (looped.1.4 other row' found).imp_left (fun impossible => by cases impossible)⟩

variable {ε : Type} [DecidableEq ε] {stableJitterSeconds : String → Nat → Nat} {s t : System ε} {action : Action ε}
  {e : ε} {control : Control}

/-- A claim meets a job that waits, that was cancelled since it was read, or that runs without an
executor; a recovery requeues no job that was asked to stop. -/
def Orderly (s : System ε) : Action ε → Prop
  | .markRunning e _ => ∀ job, s.control e = .found job → ∀ row, s.store.job job.id = some row →
      row.status = .queued ∨ row.status = .rateLimited ∨ row.status = .cancelled ∨
        row.status = .running ∧ ∀ other held, other ≠ e → (s.control other).holds = some held → held.id ≠ job.id
  | .recoverInterruptedJobs profileId _ => Unasked (s.store.interrupted profileId)
  | _ => True

structure Owned (s : System ε) : Prop where
  distinct : (s.store.jobs.map Job.id).Nodup
  flight : SingleFlight s.store.jobs
  drawn : ∀ row ∈ s.store.jobs, row.id ∈ s.issued
  known : ∀ e job, (s.control e).holds = some job → job.id ∈ s.issued
  running : ∀ e job row, (s.control e).holds = some job → s.store.job job.id = some row →
    row.status = .running ∨ row.status = .cancelled ∧ (s.control e).Withdrawn
  single : ∀ e e' job job', e ≠ e' → (s.control e).holds = some job → (s.control e').holds = some job' →
    job.id = job'.id → (s.control e).Withdrawn ∧ (s.control e').Withdrawn ∧
      ∀ row, s.store.job job.id = some row → row.status = .cancelled

structure AtRest (s : System ε) : Prop where
  distinct : (s.store.jobs.map Job.id).Nodup
  flight : SingleFlight s.store.jobs
  drawn : ∀ row ∈ s.store.jobs, row.id ∈ s.issued
  idle : ∀ e, s.control e = .idle

omit [DecidableEq ε] in
theorem AtRest.owned (rest : AtRest s) : Owned s where
  distinct := rest.distinct
  flight := rest.flight
  drawn := rest.drawn
  known e job held := by rw [rest.idle e] at held; cases held
  running e job row held := by rw [rest.idle e] at held; cases held
  single e e' job job' _ held := by rw [rest.idle e] at held; cases held

/-- What a step leaves of a row: an ended job as it ended; a running one running while an executor still
holds it; and only an executor past its last check ends one as done. -/
structure Faithful (s : System ε) (after : ε → Control) (row row' : Job) : Prop where
  ended : row.status.Ended → row'.status = row.status
  done : (∀ e job result, s.control e = .passed job result → job.id ≠ row.id) → row'.status = .done → row.status = .done
  requested : row.cancelRequested = true → row'.cancelRequested = true
  running : ∀ e job, (after e).holds = some job → job.id = row.id → row.status = .running → row'.status = .running

omit [DecidableEq ε] in
theorem Kept.faithful {after : ε → Control} (kept : Kept row row') : Faithful s after row row' :=
  ⟨kept.ended, fun _ => kept.done, kept.requested, fun _ _ _ _ => kept.running⟩

omit [DecidableEq ε] in
theorem Lasting.faithful {after : ε → Control} (lasting : Lasting row row')
    (idle : ∀ e, after e = .idle) : Faithful s after row row' :=
  ⟨lasting.ended, fun _ => lasting.done, lasting.requested, fun e job held => by rw [idle e] at held; cases held⟩

theorem finish_tracked (held : (s.control e).holds = some job)
    (owned : Owned s) (edited : next.jobs = editAt Job.id s.store.jobs job.id f) (single : SingleFlight next.jobs)
    (sameId : ∀ row, (f row).id = row.id) (requested : ∀ row, row.cancelRequested = true → (f row).cancelRequested = true)
    (done : ∀ row, (∀ job result, s.control e ≠ .passed job result) → (f row).status ≠ .done)
    (withdrawn : (s.control e).Withdrawn → ∀ row, row.status = .cancelled → (f row).status = .cancelled) :
    Tracked (Faithful s (s.at e .idle).control) drawn s.store next := by
  refine Tracked.of_edit edited sameId single (fun row => (Kept.refl row).faithful) (fun row here => ?_)
  have own : row.id = job.id := rowAt_key here
  have fate := owned.running e job row held here
  refine ⟨fun final => ?_, fun nobody finished => ?_, requested row, fun other taken otherHeld same busy => ?_⟩
  · rcases fate with busy | ⟨cancelled, leaving⟩
    · exact absurd final (not_ended (.inr (.inl busy)))
    · rw [cancelled]
      exact withdrawn leaving row cancelled
  · refine absurd finished (done row fun job' result passed => ?_)
    have self : job' = job := by
      rw [passed] at held
      exact some.inj held
    exact nobody e job' result passed (self ▸ own.symm)
  · by_cases here' : other = e
    · subst here'
      rw [at_self] at otherHeld
      cases otherHeld
    · rw [at_other here'] at otherHeld
      have cancelled := (owned.single e other job taken (Ne.symm here') held otherHeld (by rw [same, own])).2.2 row here
      rw [busy] at cancelled
      cases cancelled

theorem markSuccess_tracked {result : JobResult} (place : s.control e = .passed job result) (owned : Owned s)
    (run : s.store.markSuccess job result now = .ok next) :
    Tracked (Faithful s (s.at e .idle).control) drawn s.store next := by
  obtain ⟨written, rewritten, run⟩ := bind_ok.1 run
  cases run
  obtain ⟨edited, single, _⟩ := writeJob_jobs rewritten
  refine Tracked.upsert (finish_tracked (by rw [place]; rfl) owned edited single (fun _ => rfl) (fun _ => id) ?_ ?_)
  · exact fun _ elsewhere => absurd place (elsewhere job result)
  · exact fun leaving => by rw [place] at leaving; cases leaving

theorem raised_ne_done {cooled : Prop} [Decidable cooled] : (if cooled then JobStatus.rateLimited else .error) ≠ .done := by
  split <;> exact nofun

theorem markRaised_tracked {raised : Raised} (place : s.control e = .failed job raised) (owned : Owned s)
    (run : s.store.markRaised stableJitterSeconds job raised now = .ok next) :
    Tracked (Faithful s (s.at e .idle).control) drawn s.store next := by
  have held : (s.control e).holds = some job := by rw [place]; rfl
  rw [Store.markRaised] at run
  split at run
  · obtain ⟨written, rewritten, run⟩ := bind_ok.1 run
    cases run
    obtain ⟨edited, single, _⟩ := writeJob_jobs rewritten
    exact Tracked.upsert (finish_tracked held owned edited single (fun _ => rfl) (fun _ _ => rfl)
      (fun _ _ never => by cases never) (fun _ _ _ => rfl))
  · rename_i uncancelled
    obtain ⟨written, rewritten, run⟩ := bind_ok.1 run
    cases run
    obtain ⟨edited, single, _⟩ := writeJob_jobs rewritten
    refine Tracked.upsert (finish_tracked held owned edited single (fun _ => rfl) (fun _ => id) (fun _ _ => raised_ne_done) ?_)
    intro leaving
    rw [place] at leaving
    cases leaving
    exact absurd rfl uncancelled

theorem advance_tracked (own : action.executor = some e) (owned : Owned s)
    (taken : s.advance stableJitterSeconds e action (s.control e) = some t) :
    Tracked (Faithful s t.control) action.draws s.store t.store := by
  have unwritten : Tracked (Faithful s t.control) action.draws s.store s.store :=
    .of_jobs (fun row => (Kept.refl row).faithful) rfl
  cases advance_cases own taken with
  | claims _ marked => exact (markRunning_tracked marked).1.weaken fun _ _ => Kept.faithful
  | @progresses job payload now _ _ =>
    cases progressed : s.store.updateJobProgress job payload now with
    | error _ => exact unwritten
    | ok next => exact (updateJobProgress_tracked progressed).weaken fun _ _ => Kept.faithful
  | @succeeds job result now place =>
    cases marked : s.store.markSuccess job result now with
    | error _ => exact unwritten
    | ok next => exact markSuccess_tracked place owned marked
  | @fails job raised now place =>
    cases marked : s.store.markRaised stableJitterSeconds job raised now with
    | error _ => exact unwritten
    | ok next => exact markRaised_tracked place owned marked
  | checks _ _ => rwa [checked_store]
  | rests | frees _ | leaves _ _ _ => exact unwritten

def Action.Deletion : Action ε → Prop
  | .deleteSourceRecords _ _ => True
  | _ => False

omit [DecidableEq ε] in
theorem request_tracked (outside : action.executor = none) (remains : ¬ action.Deletion) (owned : Owned s)
    (admissible : Admissible s action) (orderly : Orderly s action) (run : s.store.request action = .ok next) :
    Tracked (Faithful s s.control) action.draws s.store next := by
  have same : ∀ {states : List SourceState},
      Tracked (Faithful s s.control) action.draws s.store { s.store with states } :=
    .of_jobs (fun row => (Kept.refl row).faithful) rfl
  cases action with
  | enqueueJob request jobId now =>
    obtain ⟨⟨written, enqueued⟩, queued, rfl⟩ := map_ok.1 run
    exact (enqueueJob_tracked owned.distinct queued).weaken fun _ _ => Kept.faithful
  | cancelJob jobId now => exact (cancelJob_tracked run).weaken fun _ _ => Kept.faithful
  | pauseSource profileId key now =>
    rw [Store.request, Store.pauseSource] at run
    split at run
    · cases run
    · cases run; exact same
  | resumeSource profileId key now =>
    rw [Store.request, Store.resumeSource] at run
    split at run
    · cases run
    · cases run; exact same
  | resetSourceCheckpoint profileId key staleReason now =>
    cases run
    refine .of_jobs (fun row => (Kept.refl row).faithful) ?_
    rw [Store.resetSourceCheckpoint]
    split <;> rfl
  | recoverInterruptedJobs profileId now =>
    exact (recoverInterruptedJobs_tracked owned.distinct orderly run).weaken fun _ _ lasting => lasting.faithful admissible
  | deleteSourceRecords profileId keys => cases remains trivial
  | _ => cases outside

omit [DecidableEq ε] in
theorem Owned.stored (owned : Owned s) (tracked : Tracked (Faithful t s.control) drawn s.store next)
    (fresh : ∀ jobId ∈ drawn, jobId ∉ s.issued) :
    Owned { s with store := next, issued := drawn ++ s.issued } where
  distinct := tracked.distinct owned.distinct
  flight := tracked.flight owned.flight
  drawn row member := by
    rcases tracked.rows row.id row (rowAt_of_mem (tracked.distinct owned.distinct) member) with new | ⟨old, here, _⟩
    · exact mem_append_left _ new
    · exact mem_append_right _ (rowAt_key here ▸ owned.drawn old (rowAt_mem here))
  known e job held := mem_append_right _ (owned.known e job held)
  running e job row' held found := by
    rcases tracked.rows job.id row' found with new | ⟨row, here, faithful⟩
    · exact absurd (owned.known e job held) (fresh _ new)
    · rcases owned.running e job row held here with busy | ⟨cancelled, leaving⟩
      · exact .inl (faithful.running e job held (rowAt_key here).symm busy)
      · exact .inr ⟨(faithful.ended (.inr (.inr cancelled))).trans cancelled, leaving⟩
  single e e' job job' apart held held' same := by
    obtain ⟨first, second, cancelled⟩ := owned.single e e' job job' apart held held' same
    refine ⟨first, second, fun row' found => ?_⟩
    rcases tracked.rows job.id row' found with new | ⟨row, here, faithful⟩
    · exact absurd (owned.known e job held) (fresh _ new)
    · have final := cancelled row here
      exact (faithful.ended (.inr (.inr final))).trans final

omit [DecidableEq ε] in
theorem Owned.rewritten (owned : Owned s) (tracked : Tracked (Faithful t s.control) [] s.store next) :
    Owned { s with store := next } :=
  owned.stored tracked fun _ impossible => by cases impossible

theorem Owned.moved (owned : Owned s)
    (held : ∀ job, control.holds = some job → job.id ∈ s.issued ∧
      (∀ row, s.store.job job.id = some row → row.status = .running ∨ row.status = .cancelled ∧ control.Withdrawn) ∧
      ∀ other taken, other ≠ e → (s.control other).holds = some taken → taken.id = job.id →
        control.Withdrawn ∧ (s.control other).Withdrawn ∧ ∀ row, s.store.job job.id = some row → row.status = .cancelled) :
    Owned (s.at e control) where
  distinct := owned.distinct
  flight := owned.flight
  drawn := owned.drawn
  known other job holding := by
    by_cases own : other = e
    · subst own
      exact (held job (by simpa using holding)).1
    · exact owned.known other job (by simpa [own] using holding)
  running other job row holding here := by
    by_cases own : other = e
    · subst own
      rw [at_self] at holding ⊢
      exact (held job holding).2.1 row here
    · rw [at_other own] at holding ⊢
      exact owned.running other job row holding here
  single other other' job job' apart holding holding' same := by
    by_cases own : other = e
    · subst own
      rw [at_self] at holding ⊢
      rw [at_other (Ne.symm apart)] at holding' ⊢
      exact (held job holding).2.2 other' job' (Ne.symm apart) holding' same.symm
    · rw [at_other own] at holding ⊢
      by_cases own' : other' = e
      · subst own'
        rw [at_self] at holding' ⊢
        obtain ⟨first, second, cancelled⟩ := (held job' holding').2.2 other job own holding same
        exact ⟨second, first, by rw [same]; exact cancelled⟩
      · rw [at_other own'] at holding' ⊢
        exact owned.single other other' job job' apart holding holding' same

theorem Owned.released (owned : Owned s) (free : control.holds = none) : Owned (s.at e control) :=
  owned.moved (fun job holding => by rw [free] at holding; cases holding)

theorem Owned.proceeds (owned : Owned s) (holding : (s.control e).holds = some job)
    (still : control.holds = some job) (course : (s.control e).Withdrawn → control.Withdrawn) : Owned (s.at e control) := by
  refine owned.moved (fun kept here => ?_)
  rw [still] at here
  cases here
  refine ⟨owned.known e job holding, fun row found => ?_, fun other taken apart held same => ?_⟩
  · exact (owned.running e job row holding found).imp_right (And.imp_right course)
  · obtain ⟨first, second, cancelled⟩ := owned.single e other job taken (Ne.symm apart) holding held same.symm
    exact ⟨course first, second, cancelled⟩

theorem checkCancelled_ok {u : Unit} (passed : store.checkCancelled jobId = .ok u) :
    ∃ row, store.job jobId = some row ∧ row.cancelRequested = false ∧ row.status ≠ .cancelled := by
  rw [Store.checkCancelled] at passed
  split at passed
  · cases passed
  · rename_i row here
    have clear := raiseIf_ok.1 passed
    rw [not_or] at clear
    exact ⟨row, here, by simpa using clear.1, clear.2⟩

theorem Owned.checked {passed : Control} (owned : Owned s) (holding : (s.control e).holds = some job)
    (still : passed.holds = some job) : Owned (s.checked e job passed) := by
  rw [System.checked]
  split
  · rename_i result
    obtain ⟨row, here, _, uncancelled⟩ := checkCancelled_ok result
    refine owned.moved (fun kept there => ?_)
    rw [still] at there
    cases there
    refine ⟨owned.known e job holding, fun row' found => ?_, fun other taken apart held same => ?_⟩
    · refine (owned.running e job row' holding found).imp_right (fun ended => ?_)
      rw [here] at found
      cases found
      exact absurd ended.1 uncancelled
    · obtain ⟨_, _, cancelled⟩ := owned.single e other job taken (Ne.symm apart) holding held same.symm
      exact absurd (cancelled row here) uncancelled
  · exact owned.proceeds holding rfl (fun _ => rfl)
  · exact owned.released rfl

theorem Owned.claims (owned : Owned s) (place : s.control e = .found job)
    (orderly : Orderly s (.markRunning e now)) (run : s.store.markRunning job now = .ok (next, claimed)) :
    Owned { s.at e (.started claimed) with store := next } := by
  obtain ⟨tracked, found, row, here, claims⟩ := (markRunning_tracked run : Tracked Kept [] _ _ ∧ _)
  have kept : Kept row claimed := by
    rcases tracked.rows job.id claimed found with impossible | ⟨row', there, kept⟩
    · cases impossible
    · rw [here] at there
      cases there
      exact kept
  have stored : Owned { s with store := next } := owned.rewritten (tracked.weaken fun _ _ => Kept.faithful (s := s))
  have known : job.id ∈ s.issued := rowAt_key here ▸ owned.drawn row (rowAt_mem here)
  have sameId : claimed.id = job.id := rowAt_key found
  have states := orderly job place row here
  show Owned (System.at { s with store := next } e (.started claimed))
  refine stored.moved (fun holding same => ?_)
  cases same
  refine ⟨sameId ▸ known, fun row' there => ?_, fun other taken apart held same => ?_⟩
  · rw [sameId] at there
    cases found.symm.trans there
    rcases states with waiting | waiting | cancelled | ⟨busy, _⟩
    · exact .inl (claims (.inl waiting))
    · exact .inl (claims (.inr waiting))
    · exact .inr ⟨(kept.ended (.inr (.inr cancelled))).trans cancelled, trivial⟩
    · exact .inl (kept.running busy)
  · have fate := owned.running other taken row held (by rw [same, sameId]; exact here)
    rcases states with waiting | waiting | cancelled | ⟨_, alone⟩
    · rcases fate with busy | ⟨cancelled, _⟩
      · rw [busy] at waiting; cases waiting
      · rw [cancelled] at waiting; cases waiting
    · rcases fate with busy | ⟨cancelled, _⟩
      · rw [busy] at waiting; cases waiting
      · rw [cancelled] at waiting; cases waiting
    · refine ⟨trivial, ?_, fun row' there => ?_⟩
      · rcases fate with busy | ⟨_, leaving⟩
        · rw [busy] at cancelled; cases cancelled
        · exact leaving
      · rw [sameId] at there
        cases found.symm.trans there
        exact (kept.ended (.inr (.inr cancelled))).trans cancelled
    · exact absurd (same.trans sameId) (alone other taken apart held)

theorem advance_owned (own : action.executor = some e) (owned : Owned s) (orderly : Orderly s action)
    (taken : s.advance stableJitterSeconds e action (s.control e) = some t) : Owned t := by
  have tracked := advance_tracked own owned taken
  cases advance_cases own taken with
  | rests => exact owned
  | frees free => exact owned.released free
  | claims place marked => exact owned.claims place orderly marked
  | checks held still => exact owned.checked held still
  | leaves place still _ =>
    exact owned.proceeds (by rw [place]; rfl) still (fun leaving => by rw [place] at leaving; cases leaving)
  | progresses _ _ => exact owned.rewritten tracked
  | succeeds _ | fails _ => exact (owned.released rfl).rewritten tracked

theorem deleteSourceRecords_job {profileId : String} {keys : List String}
    (distinct : (store.jobs.map Job.id).Nodup) (found : (store.deleteSourceRecords profileId keys).job jobId = some row) :
    store.job jobId = some row := by
  have member : row ∈ store.jobs := (mem_filter.1 (rowAt_mem found)).1
  rw [← rowAt_key found]
  exact rowAt_of_mem distinct member

omit [DecidableEq ε] in
theorem Owned.deleted {profileId : String} {keys : List String} (owned : Owned s) :
    Owned { s with store := s.store.deleteSourceRecords profileId keys } where
  distinct := owned.distinct.sublist (filter_sublist.map _)
  flight := owned.flight.sublist ((filter_sublist.filter _).map _)
  drawn row member := owned.drawn row (mem_filter.1 member).1
  known := owned.known
  running e job row held found := owned.running e job row held (deleteSourceRecords_job owned.distinct found)
  single e e' job job' apart held held' same := by
    obtain ⟨first, second, cancelled⟩ := owned.single e e' job job' apart held held' same
    exact ⟨first, second, fun row found => cancelled row (deleteSourceRecords_job owned.distinct found)⟩

theorem step_owned (owned : Owned s) (orderly : Orderly s action) (taken : Step stableJitterSeconds s action t) :
    Owned t ∧ (¬ action.Deletion → Tracked (Faithful s t.control) action.draws s.store t.store) := by
  obtain ⟨admissible, taken⟩ := taken
  rw [System.act] at taken
  split at taken
  · rename_i e own
    have nothing : s.draw action = s := by
      cases action <;> first | rfl | cases own
    rw [nothing] at taken
    exact ⟨advance_owned own owned orderly taken, fun _ => advance_tracked own owned taken⟩
  · rename_i outside
    cases taken
    have fresh : ∀ jobId ∈ action.draws, jobId ∉ s.issued := by
      cases action with
      | enqueueJob request jobId now =>
        intro drawn member
        rw [mem_singleton.1 member]
        exact admissible
      | _ => exact fun _ impossible => by cases impossible
    by_cases deletion : action.Deletion
    · refine ⟨?_, fun kept => absurd deletion kept⟩
      cases action with
      | deleteSourceRecords profileId keys => exact owned.deleted
      | _ => cases deletion
    · have tracked : Tracked (Faithful s s.control) action.draws s.store ((s.draw action).commit (s.store.request action)).store := by
        cases run : s.store.request action with
        | error _ => exact .of_jobs (fun row => (Kept.refl row).faithful) rfl
        | ok next => exact request_tracked outside deletion owned admissible orderly run
      exact ⟨owned.stored tracked fresh, fun _ => tracked⟩

theorem advance_passed {result : JobResult} (own : action.executor = some e)
    (taken : s.advance stableJitterSeconds e action (s.control e) = some t) (passed : t.control e = .passed job result) :
    s.control e = .passed job result ∨ ∃ row, s.store.job job.id = some row ∧ row.cancelRequested = false := by
  cases advance_cases own taken with
  | rests | progresses _ _ => exact .inl passed
  | frees free =>
    rw [at_self] at passed
    rw [passed] at free
    cases free
  | checks _ still =>
    rw [System.checked] at passed
    split at passed
    · rename_i clear
      rw [at_self] at passed
      rw [passed] at still
      cases still
      obtain ⟨row, here, unasked, _⟩ := checkCancelled_ok clear
      exact .inr ⟨row, here, unasked⟩
    · rw [at_self] at passed; cases passed
    · rw [at_self] at passed; cases passed
  | leaves _ still unpassed =>
    rw [at_self] at passed
    rw [passed] at still
    cases still
    exact absurd passed (unpassed result)
  | claims _ _ | succeeds _ | fails _ =>
    rw [commit_control, at_self] at passed
    cases passed

abbrev OrderlyStep (stableJitterSeconds : String → Nat → Nat) (s : System ε) (action : Action ε) (t : System ε) : Prop :=
  Step stableJitterSeconds s action t ∧ Orderly s action

omit [DecidableEq ε] in
theorem Owned.alone {e e' : ε} {job' : Job} (owned : Owned s) (first : s.control e = .handling job)
    (second : s.control e' = .handling job') (same : job.id = job'.id) : e = e' := by
  by_contra apart
  have leaving := (owned.single e e' job job' apart (by rw [first]; rfl) (by rw [second]; rfl) same).1
  rw [first] at leaving
  cases leaving

theorem step_rows (owned : Owned s) (orderly : Orderly s action) (taken : Step stableJitterSeconds s action t)
    (known : jobId ∈ s.issued) (found : t.store.job jobId = some row') :
    ∃ row, s.store.job jobId = some row ∧ Faithful s t.control row row' := by
  by_cases deletion : action.Deletion
  · cases action with
    | deleteSourceRecords profileId keys =>
      cases taken.2
      exact ⟨row', deleteSourceRecords_job owned.distinct found, (Kept.refl row').faithful⟩
    | _ => cases deletion
  · rcases ((step_owned owned orderly taken).2 deletion).rows jobId row' found with new | old
    · cases action with
      | enqueueJob request drawn now =>
        rw [mem_singleton.1 new] at known
        exact absurd known taken.1
      | _ => cases new
    · exact old

/-- A cancellation is requested, and no executor is past the last check of the job. -/
structure Doomed (jobId : String) (s : System ε) : Prop where
  rows : ∀ row, s.store.job jobId = some row → row.cancelRequested = true ∧ row.status ≠ .done
  checked : ∀ e job result, s.control e = .passed job result → job.id ≠ jobId

theorem step_doomed (owned : Owned s) (orderly : Orderly s action) (taken : Step stableJitterSeconds s action t)
    (known : jobId ∈ s.issued) (doomed : Doomed jobId s) : Doomed jobId t where
  rows row' found := by
    obtain ⟨row, here, faithful⟩ := step_rows owned orderly taken known found
    obtain ⟨requested, unfinished⟩ := doomed.rows row here
    refine ⟨faithful.requested requested, fun finished => unfinished (faithful.done ?_ finished)⟩
    rw [rowAt_key here]
    exact doomed.checked
  checked e job result passed same := by
    have before := taken.2
    rw [System.act] at before
    split at before
    · rename_i other own
      by_cases self : e = other
      · subst self
        rcases advance_passed own before passed with early | ⟨row, here, unasked⟩
        · exact doomed.checked e job result early same
        · rw [same] at here
          rw [(doomed.rows row here).1] at unasked
          cases unasked
      · rw [advance_other self own before] at passed
        exact doomed.checked e job result passed same
    · cases before
      exact doomed.checked e job result passed same

/-- In every orderly run: a source has at most one pending job of a type, no job is handled by two
executors, an ended job keeps its status, and a job whose cancellation was requested before its last
check never ends as done. -/
theorem jobs_run_once_and_end_once {start : System ε} {before later : List (Action ε)} (rest : AtRest start)
    (reached : Run (OrderlyStep stableJitterSeconds) start before s) (run : Run (OrderlyStep stableJitterSeconds) s later t) :
    SingleFlight t.store.jobs ∧
      (∀ e e' job job', t.control e = .handling job → t.control e' = .handling job' → job.id = job'.id → e = e') ∧
      (∀ jobId row, s.store.job jobId = some row → row.status.Ended →
        (∀ row', t.store.job jobId = some row' → row'.status = row.status) ∧
        ((∀ action ∈ later, ¬ action.Deletion) → (t.store.job jobId).isSome)) ∧
      (∀ jobId row, s.store.job jobId = some row → row.cancelRequested = true → row.status ≠ .done →
        (∀ e job result, s.control e = .passed job result → job.id ≠ jobId) →
        ∀ row', t.store.job jobId = some row' → row'.status ≠ .done) := by
  have owns : Owned s := reached.invariant (I := Owned) (fun _ _ _ owned taken => (step_owned owned taken.2 taken.1).1)
    rest.owned
  have keeps : Owned t := run.invariant (I := Owned) (fun _ _ _ owned taken => (step_owned owned taken.2 taken.1).1) owns
  have drawn : ∀ jobId row, s.store.job jobId = some row → jobId ∈ s.issued := fun jobId row here =>
    rowAt_key here ▸ owns.drawn row (rowAt_mem here)
  refine ⟨keeps.flight, fun e e' job job' => keeps.alone, fun jobId row here ended => ⟨?_, ?_⟩, ?_⟩
  · refine (run.invariant (I := fun u => (Owned u ∧ jobId ∈ u.issued) ∧
      ∀ row', u.store.job jobId = some row' → row'.status = row.status) ?_ ⟨⟨owns, drawn jobId row here⟩, ?_⟩).2
    · rintro u action v ⟨⟨owned, known⟩, same⟩ ⟨taken, orderly⟩
      refine ⟨⟨(step_owned owned orderly taken).1, ?_⟩, fun row' found => ?_⟩
      · rw [act_issued taken.2]
        exact mem_append_right _ known
      · obtain ⟨old, there, faithful⟩ := step_rows owned orderly taken known found
        have same := same old there
        exact (faithful.ended (same ▸ ended)).trans same
    · intro row' found
      cases here.symm.trans found
      rfl
  · intro remains
    have present : (s.store.job jobId).isSome := by rw [here]; rfl
    clear here keeps drawn reached
    induction run with
    | rest => exact present
    | next taken _ ih =>
      have stepped := step_owned owns taken.2 taken.1
      exact ih stepped.1 (fun action member => remains action (.tail _ member))
        ((stepped.2 (remains _ (.head _))).stays jobId present)
  · intro jobId row here requested unfinished unchecked
    have doomed : Doomed jobId s := ⟨fun row' found => by cases here.symm.trans found; exact ⟨requested, unfinished⟩, unchecked⟩
    have final := run.invariant (I := fun u => (Owned u ∧ jobId ∈ u.issued) ∧ Doomed jobId u) ?_
      ⟨⟨owns, drawn jobId row here⟩, doomed⟩
    · exact fun row' found => (final.2.rows row' found).2
    · rintro u action v ⟨⟨owned, known⟩, doomed⟩ ⟨taken, orderly⟩
      refine ⟨⟨(step_owned owned orderly taken).1, ?_⟩, step_doomed owned orderly taken known doomed⟩
      rw [act_issued taken.2]
      exact mem_append_right _ known

omit [DecidableEq ε] in
theorem empty_atRest : AtRest ({} : System ε) where
  distinct := nodup_nil
  flight := nodup_nil
  drawn _ member := by cases member
  idle _ := rfl

theorem orderly_of_plain {actions : List (Action ε)} (plain : ∀ action ∈ actions, ∀ u : System ε, Orderly u action)
    (run : Run (Step stableJitterSeconds) s actions t) : Run (OrderlyStep stableJitterSeconds) s actions t := by
  induction run with
  | rest => exact .rest _
  | next taken _ ih => exact .next ⟨taken, plain _ (.head _) _⟩ (ih fun action later => plain action (.tail _ later))

/-- A job is cancelled after an executor chose it; the executor reads it, another one takes the source's next job, and the
first stays cancelled. -/
theorem cancelled_job_stays_cancelled : ∃ s t : System Bool,
    System.play (fun _ _ => 0) {} [.enqueueJob vaultSync "job-1" 1, .runJob true "job-1", .cancelJob "job-1" 2] = some s ∧
    System.play (fun _ _ => 0) s [.readJob true [.onchainWallet], .enqueueJob vaultSync "job-2" 3, .runJob false "job-2",
      .readJob false [.onchainWallet]] = some t ∧
    ∀ row, t.store.job "job-1" = some row → row.status = .cancelled := by
  have played : ((System.play (fun _ _ => 0) ({} : System Bool)
      [.enqueueJob vaultSync "job-1" 1, .runJob true "job-1", .cancelJob "job-1" 2]).bind fun s =>
        (System.play (fun _ _ => 0) s [.readJob true [.onchainWallet], .enqueueJob vaultSync "job-2" 3, .runJob false "job-2",
          .readJob false [.onchainWallet]]).map fun _ => (s.store.job "job-1").map (·.status)) =
      some (some .cancelled) := by decide +kernel
  obtain ⟨s, run, played⟩ := Option.bind_eq_some_iff.1 played
  obtain ⟨t, again, status⟩ := map_eq_some_iff.1 played
  obtain ⟨row, here, cancelled⟩ := map_eq_some_iff.1 status
  have reached := orderly_of_plain (by simp [Orderly]) (play_run run)
  have later := orderly_of_plain (by simp [Orderly]) (play_run again)
  refine ⟨s, t, run, again, fun row' found => ?_⟩
  have stays := ((jobs_run_once_and_end_once empty_atRest reached later).2.2.1 "job-1" row here
    (.inr (.inr cancelled))).1 row' found
  exact stays.trans cancelled

def Control.handles : Control → Option Job
  | .handling job => some job
  | _ => none

theorem handles_some (handles : control.handles = some job) : control = .handling job := by
  cases control with
  | handling _ => cases handles; rfl
  | _ => cases handles

/-- One executor claims the job, the other reads it as running, claims it in vain and handles it too. -/
def claimedTwice : List (Action Bool) :=
  [.enqueueJob vaultSync "job-1" 1, .runJob true "job-1", .readJob true [.onchainWallet], .markRunning true 2,
    .checkBefore true, .runJob false "job-1", .readJob false [.onchainWallet], .markRunning false 3, .checkBefore false]

theorem running_job_handled_twice :
    ¬ ∀ (t : System Bool) (actions : List (Action Bool)), Run (Step fun _ _ => 0) {} actions t →
      ∀ e e' job job', t.control e = .handling job → t.control e' = .handling job' → job.id = job'.id → e = e' := by
  intro claimed
  have played : ((System.play (fun _ _ => 0) {} claimedTwice).map fun t : System Bool =>
      ((t.control true).handles.map Job.id, (t.control false).handles.map Job.id)) =
        some (some "job-1", some "job-1") := by decide +kernel
  obtain ⟨t, run, places⟩ := map_eq_some_iff.1 played
  obtain ⟨first, second⟩ := Prod.mk.inj places
  obtain ⟨job, handles, own⟩ := map_eq_some_iff.1 first
  obtain ⟨job', handles', own'⟩ := map_eq_some_iff.1 second
  have same := claimed t claimedTwice (play_run run) true false job job' (handles_some handles) (handles_some handles')
    (own.trans own'.symm)
  cases same

end Kassiber.Freshness

import Kassiber.Lib.Runs
import Kassiber.Freshness.Jobs

/-!
Executors of freshness jobs on one database. A database step is one group of statements up to its
commit; between two groups of an executor anything may happen.
-/

namespace Kassiber.Freshness
open Lib.Outcome Lib.Keyed Lib.Runs Function

/-- Where an executor stands in the run of one job; the job is the copy it read. -/
inductive Control where
  | idle
  | selected (jobId : String)
  | found (job : Job)
  | started (job : Job)
  | handling (job : Job)
  | returned (job : Job) (result : JobResult)
  | passed (job : Job) (result : JobResult)
  | failed (job : Job) (raised : Raised)
  deriving DecidableEq

def Control.holds : Control → Option Job
  | .started job | .handling job | .returned job _ | .passed job _ | .failed job _ => some job
  | _ => none

inductive Outcome where
  | result (result : JobResult)
  | raised (raised : Raised)
  | jobRemoved

structure System (ε : Type) where
  store : Store := {}
  control : ε → Control := fun _ => .idle
  issued : List String := []

inductive Action (ε : Type) where
  | enqueueJob (request : JobRequest) (jobId : String) (now : Nat)
  | cancelJob (jobId : String) (now : Nat)
  | pauseSource (profileId key : String) (now : Nat)
  | resumeSource (profileId key : String) (now : Nat)
  | resetSourceCheckpoint (profileId key staleReason : String) (now : Nat)
  | recoverInterruptedJobs (profileId : Option String) (now : Nat)
  | deleteSourceRecords (profileId : String) (keys : List String)
  | runDueJob (e : ε) (profileId : Option String) (now : Nat)
  | runJob (e : ε) (jobId : String)
  | readJob (e : ε) (handlers : List JobType)
  | markRunning (e : ε) (now : Nat)
  | checkBefore (e : ε)
  | progress (e : ε) (payload : Progress) (now : Nat)
  | leaveHandler (e : ε) (outcome : Outcome)
  | checkAfter (e : ε)
  | finish (e : ε) (now : Nat)
  | stop (e : ε)

section
variable {ε : Type} [DecidableEq ε] (stableJitterSeconds : String → Nat → Nat)

def System.at (s : System ε) (e : ε) (control : Control) : System ε :=
  { s with control := Function.update s.control e control }

def System.commit (s : System ε) (outcome : Except FreshnessError Store) : System ε :=
  { s with store := outcome.toOption.getD s.store }

def cancelledError : Raised := .appError { code := some "cancelled", message := "Freshness job was cancelled" }

/-- A cancellation check: a removed job ends the run, a cancellation fails it. -/
def System.checked (s : System ε) (e : ε) (job : Job) (passed : Control) : System ε :=
  match s.store.checkCancelled job.id with
  | .ok _ => s.at e passed
  | .error (.appError _) => s.at e (.failed job cancelledError)
  | .error _ => s.at e .idle

/-- One step of one executor; none where it is not the executor's next one. -/
def System.advance (s : System ε) (e : ε) : Action ε → Control → Option (System ε)
  | .runDueJob _ profileId now, .idle =>
    some (s.at e ((s.store.nextDueJob profileId now).elim .idle fun job => .selected job.id))
  | .runJob _ jobId, .idle => some (s.at e (.selected jobId))
  | .readJob _ handlers, .selected jobId =>
    match s.store.getJob jobId with
    | .error _ => some (s.at e .idle)
    | .ok job => some (s.at e (if job.status.Ended ∨ job.jobType ∉ handlers then .idle else .found job))
  | .markRunning _ now, .found job =>
    match s.store.markRunning job now with
    | .ok (store, claimed) => some ((s.at e (.started claimed)).commit (.ok store))
    | .error _ => some (s.at e .idle)
  | .checkBefore _, .started job => some (s.checked e job (.handling job))
  | .progress _ payload now, .handling job =>
    match s.store.checkCancelled job.id with
    | .ok _ => some (s.commit (s.store.updateJobProgress job payload now))
    | .error _ => some s
  | .leaveHandler _ (.result result), .handling job => some (s.at e (.returned job result))
  | .leaveHandler _ (.raised raised), .handling job => some (s.at e (.failed job raised))
  | .leaveHandler _ .jobRemoved, .handling _ => some (s.at e .idle)
  | .checkAfter _, .returned job result => some (s.checked e job (.passed job result))
  | .finish _ now, .passed job result => some ((s.at e .idle).commit (s.store.markSuccess job result now))
  | .finish _ now, .failed job raised =>
    some ((s.at e .idle).commit (s.store.markRaised stableJitterSeconds job raised now))
  | .stop _, _ => some (s.at e .idle)
  | _, _ => none

def Action.executor : Action ε → Option ε
  | .runDueJob e _ _ | .runJob e _ | .readJob e _ | .markRunning e _ | .checkBefore e | .progress e _ _
  | .leaveHandler e _ | .checkAfter e | .finish e _ | .stop e => some e
  | _ => none

def Store.request (store : Store) : Action ε → Except FreshnessError Store
  | .enqueueJob request jobId now => (store.enqueueJob request jobId now).map Prod.fst
  | .cancelJob jobId now => store.cancelJob jobId now
  | .pauseSource profileId key now => store.pauseSource profileId key now
  | .resumeSource profileId key now => store.resumeSource profileId key now
  | .resetSourceCheckpoint profileId key staleReason now =>
    .ok (store.resetSourceCheckpoint profileId key staleReason now)
  | .recoverInterruptedJobs profileId now => store.recoverInterruptedJobs profileId now
  | .deleteSourceRecords profileId keys => .ok (store.deleteSourceRecords profileId keys)
  | _ => .ok store

def System.act (s : System ε) (action : Action ε) : Option (System ε) :=
  match action.executor with
  | some e => s.advance stableJitterSeconds e action (s.control e)
  | none => some (s.commit (s.store.request action))

def Action.draws : Action ε → List String
  | .enqueueJob _ jobId _ => [jobId]
  | _ => []

def System.draw (s : System ε) (action : Action ε) : System ε := { s with issued := action.draws ++ s.issued }

/-- Drawn ids are new, and jobs are recovered only while no executor is alive. -/
def Admissible (s : System ε) : Action ε → Prop
  | .enqueueJob _ jobId _ => jobId ∉ s.issued
  | .recoverInterruptedJobs _ _ => ∀ e, s.control e = .idle
  | _ => True

def Step (s : System ε) (action : Action ε) (t : System ε) : Prop :=
  Admissible s action ∧ (s.draw action).act stableJitterSeconds action = some t

instance [Fintype ε] (s : System ε) : (action : Action ε) → Decidable (Admissible s action)
  | .enqueueJob _ _ _ => inferInstanceAs (Decidable (_ ∉ _))
  | .recoverInterruptedJobs _ _ => inferInstanceAs (Decidable (∀ _, _))
  | .cancelJob _ _ | .pauseSource _ _ _ | .resumeSource _ _ _ | .resetSourceCheckpoint _ _ _ _
  | .deleteSourceRecords _ _ | .runDueJob _ _ _ | .runJob _ _ | .readJob _ _ | .markRunning _ _ | .checkBefore _
  | .progress _ _ _ | .leaveHandler _ _ | .checkAfter _ | .finish _ _ | .stop _ => isTrue trivial

/-- The actions in order; none where one of them is not admissible or not enabled. -/
def System.play [Fintype ε] : System ε → List (Action ε) → Option (System ε)
  | s, [] => some s
  | s, action :: later =>
    if Admissible s action then ((s.draw action).act stableJitterSeconds action).bind fun next => next.play later else none

variable {s t : System ε} {e : ε} {action : Action ε} {stableJitterSeconds : String → Nat → Nat}

theorem play_run [Fintype ε] {actions : List (Action ε)} (reached : s.play stableJitterSeconds actions = some t) :
    Run (Step stableJitterSeconds) s actions t := by
  induction actions generalizing s with
  | nil => cases reached; exact .rest _
  | cons action later ih =>
    rw [System.play] at reached
    split at reached
    · rename_i admissible
      obtain ⟨middle, taken, rest⟩ := Option.bind_eq_some_iff.1 reached
      exact .next ⟨admissible, taken⟩ (ih rest)
    · cases reached

omit [DecidableEq ε] in
@[simp] theorem commit_control {outcome : Except FreshnessError Store} : (s.commit outcome).control = s.control := rfl

variable {control : Control}

@[simp] theorem at_self : (s.at e control).control e = control := update_self ..

variable {other : ε} {job : Job}

@[simp] theorem at_other (apart : other ≠ e) :
    (s.at e control).control other = s.control other := update_of_ne apart ..

variable {passed : Control}

@[simp] theorem checked_store : (s.checked e job passed).store = s.store := by
  rw [System.checked]
  split <;> rfl

@[simp] theorem checked_issued : (s.checked e job passed).issued = s.issued := by
  rw [System.checked]
  split <;> rfl

/-- What one step of an executor does, by where the executor stands. -/
inductive Advance (stableJitterSeconds : String → Nat → Nat) (s : System ε) (e : ε) : Action ε → System ε → Prop
  | rests {action : Action ε} : Advance stableJitterSeconds s e action s
  | frees {action : Action ε} {control : Control} (free : control.holds = none) :
    Advance stableJitterSeconds s e action (s.at e control)
  | claims {job claimed : Job} {store : Store} {now : Nat} (place : s.control e = .found job)
    (marked : s.store.markRunning job now = .ok (store, claimed)) :
    Advance stableJitterSeconds s e (.markRunning e now) ((s.at e (.started claimed)).commit (.ok store))
  | checks {action : Action ε} {job : Job} {control : Control} (held : (s.control e).holds = some job)
    (still : control.holds = some job) : Advance stableJitterSeconds s e action (s.checked e job control)
  | leaves {action : Action ε} {job : Job} {control : Control} (place : s.control e = .handling job)
    (still : control.holds = some job) (unpassed : ∀ result, control ≠ .passed job result) :
    Advance stableJitterSeconds s e action (s.at e control)
  | progresses {job : Job} {payload : Progress} {now : Nat} (place : s.control e = .handling job)
    (unasked : s.store.checkCancelled job.id = .ok ()) :
    Advance stableJitterSeconds s e (.progress e payload now) (s.commit (s.store.updateJobProgress job payload now))
  | succeeds {job : Job} {result : JobResult} {now : Nat} (place : s.control e = .passed job result) :
    Advance stableJitterSeconds s e (.finish e now) ((s.at e .idle).commit (s.store.markSuccess job result now))
  | fails {job : Job} {raised : Raised} {now : Nat} (place : s.control e = .failed job raised) :
    Advance stableJitterSeconds s e (.finish e now)
      ((s.at e .idle).commit (s.store.markRaised stableJitterSeconds job raised now))

theorem advance_cases (own : action.executor = some e)
    (taken : s.advance stableJitterSeconds e action (s.control e) = some t) : Advance stableJitterSeconds s e action t := by
  rw [System.advance.eq_def] at taken
  split at taken <;> try cases own
  case h_1 profileId now place =>
    cases taken
    refine .frees ?_
    cases s.store.nextDueJob profileId now <;> rfl
  case h_3 handlers jobId place =>
    split at taken
    · cases taken
      exact .frees rfl
    · cases taken
      refine .frees ?_
      split <;> rfl
  case h_4 now job place =>
    split at taken
    · rename_i marked
      cases taken
      exact .claims place marked
    · cases taken
      exact .frees rfl
  case h_6 payload now job place =>
    split at taken
    · rename_i unasked
      cases taken
      exact .progresses place unasked
    · cases taken
      exact .rests
  all_goals cases taken
  all_goals first
    | exact .frees rfl
    | exact .checks (by simp only [*]; rfl) rfl
    | exact .leaves ‹_› rfl (fun _ => nofun)
    | exact .succeeds ‹_›
    | exact .fails ‹_›

theorem advance_issued (own : action.executor = some e)
    (taken : s.advance stableJitterSeconds e action (s.control e) = some t) : t.issued = s.issued := by
  cases advance_cases own taken with
  | checks _ _ => exact checked_issued
  | _ => rfl

theorem checked_other (apart : other ≠ e) :
    (s.checked e job passed).control other = s.control other := by
  rw [System.checked]
  split <;> exact at_other apart

theorem advance_other (apart : other ≠ e) (own : action.executor = some e)
    (taken : s.advance stableJitterSeconds e action (s.control e) = some t) : t.control other = s.control other := by
  cases advance_cases own taken with
  | rests | progresses _ _ => rfl
  | checks _ _ => exact checked_other apart
  | _ => exact at_other apart

theorem act_issued (taken : (s.draw action).act stableJitterSeconds action = some t) :
    t.issued = action.draws ++ s.issued := by
  rw [System.act] at taken
  split at taken
  · rename_i own
    exact advance_issued own taken
  · cases taken; rfl

end

end Kassiber.Freshness

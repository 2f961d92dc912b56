import Kassiber.Lib.Runs
import Kassiber.Operator.Transitions

/-!
Safety over every run of the service: one running operation in a project, under the lease that admitted it,
with its passphrase; an operation starts once, and what is finished stays as it finished, unless a worker
fails an operation that was cancelled while the worker had it checked.
-/

namespace Kassiber.Operator
open Lib.Keyed Lib.Runs Option Function

def Steps (setting : Setting) (generation : String) (s : Service) (a : Action) (t : Service) : Prop :=
  s.act setting generation a = some t

/-- The step fails no operation that was cancelled while its worker had it checked. -/
def Action.Clear (s : Service) : Action → Prop
  | .worker w (.inheritFails _) => ∀ op, s.Checks w op → op.cancellationRequested = false
  | _ => True

variable {s t : Service}

theorem Action.Clear.unrequested {a : Action} {op : Operation} (clear : a.Clear s) (fails : a.fails s op) :
    op.cancellationRequested = false := by
  cases a with
  | worker w step =>
    cases step with
    | inheritFails => exact clear op fails
    | _ => exact fails.elim
  | _ => exact fails.elim

def ClearSteps (setting : Setting) (generation : String) (s : Service) (a : Action) (t : Service) : Prop :=
  Steps setting generation s a t ∧ a.Clear s

/-- An administrative operation was admitted on an authorization of its own, bound to its lease and spent. -/
structure Service.PaidBy (s : Service) (paid : Nat → Nat) : Prop where
  spent : ∀ ref op, s.table.objects ref = some op → op.capability = .admin → ∃ authorization,
    s.authorizations (paid ref) = some authorization ∧ authorization.consumed = true ∧
    authorization.projectIdentity = op.projectIdentity ∧ authorization.leaseEpoch = op.admittedLeaseEpoch ∧
    op.adminAuthorizedUntil = some authorization.expiresAt
  once : ∀ ref ref' op op', s.table.objects ref = some op → s.table.objects ref' = some op' → op.capability = .admin →
    op'.capability = .admin → paid ref = paid ref' → ref = ref'

def Service.Starts (s : Service) (now ref : Nat) (op : Operation) : Prop :=
  ∃ lease, s.leaseOf op.projectIdentity = some lease ∧ lease.epoch = op.admittedLeaseEpoch ∧ lease.revoked = false ∧
    lease.expired now = false ∧
    (op.capability ≠ .admin → capabilityAllows lease.capability op.capability = true) ∧
    (op.capability = .admin → ∃ paid authorization, s.PaidBy paid ∧ s.authorizations (paid ref) = some authorization ∧
      authorization.leaseEpoch = lease.epoch ∧ now ≤ authorization.expiresAt)

structure Service.Safe (s : Service) : Prop where
  one : ∀ ref ref' op op', s.table.objects ref = some op → s.table.objects ref' = some op' → op.state = .running →
    op'.state = .running → op.projectIdentity = op'.projectIdentity → ref = ref'
  counted : ∀ identity lease, s.leaseOf identity = some lease →
    (s.table.Runs identity → lease.runningOperations = 1) ∧ (¬ s.table.Runs identity → lease.runningOperations = 0)
  unlocked : ∀ ref op, s.table.objects ref = some op → op.state = .running → ∃ lease,
    s.leaseOf op.projectIdentity = some lease ∧ lease.epoch = op.admittedLeaseEpoch ∧ lease.passphrase.isSome = true

namespace Service
variable {s t : Service} {setting : Setting} {generation : String} {a : Action}

theorem empty_sound : ({} : Service).Sound where
  placed := by constructor <;> intros <;> contradiction
  leased := by constructor <;> intros <;> contradiction
  checked := by intros; contradiction
  gated := by intros; contradiction
  unlocking := by intros; contradiction
  numbered := by intros; contradiction
  drawn := by intros; contradiction
  spawned := by intros; contradiction

theorem Sound.safe (sound : s.Sound) : s.Safe where
  one _ _ _ _ here there runs runs' same := sound.placed.one_running here runs there runs' same
  counted identity lease found := by
    obtain ⟨epoch, now, here⟩ := leaseOf_eq_some found
    obtain ⟨lease', there, _, _, busy, idle, _⟩ := sound.leased.held identity epoch now
    cases here.symm.trans there
    exact ⟨busy, idle⟩
  unlocked ref op here runs := by
    have now := sound.leased.runs ref op here runs
    obtain ⟨lease, there, _, unlocked, _⟩ := sound.leased.held _ _ now
    refine ⟨lease, ?_, sound.leased.named _ lease there, unlocked⟩
    rw [leaseOf, now]
    exact there

variable {op : Operation} {ref now w : Nat}

theorem makes_eq (made : a.makes s t ref op) : ∃ project request now lease,
    a = .submit project request now ∧ ref = t.sequence ∧ Admitted s t project request now lease op := by
  cases a with
  | submit project request now =>
    obtain ⟨newest, lease, admitted⟩ := made
    exact ⟨project, request, now, lease, rfl, newest, admitted⟩
  | _ => exact made.elim

theorem PaidBy.step {starts fails : Operation → Prop} {novel : AgentSession → Prop} {paid : Nat → Nat} (pays : s.PaidBy paid)
    (evolves : Evolves (Operation.Moves starts fails) (a.makes s t) novel s t) : ∃ paid', t.PaidBy paid' := by
  have old : ∀ {ref op'}, t.table.objects ref = some op' → op'.capability = .admin → s.table.objects ref ≠ none →
      ∃ op, s.table.objects ref = some op ∧ op.capability = .admin ∧ ∃ authorization,
        t.authorizations (paid ref) = some authorization ∧ authorization.consumed = true ∧
        authorization.projectIdentity = op'.projectIdentity ∧ authorization.leaseEpoch = op'.admittedLeaseEpoch ∧
        op'.adminAuthorizedUntil = some authorization.expiresAt := by
    intro ref op' there admin known
    obtain ⟨op, here⟩ := ne_none_iff_exists'.1 known
    obtain ⟨found, after, moves⟩ := evolves.persists ref op here
    cases there.symm.trans after
    have same := moves.lasts.same
    have before : op.capability = .admin := same.capability.symm.trans admin
    obtain ⟨authorization, held, consumed, own, bound, until_⟩ := pays.spent ref op here before
    obtain ⟨authorization', held', kept, spent⟩ := evolves.authorizations _ authorization held
    refine ⟨op, here, before, authorization', held', spent consumed, ?_⟩
    rw [kept, same.projectIdentity, same.epoch, same.until]
    exact ⟨own, bound, until_⟩
  have newest : ∀ {ref op'}, t.table.objects ref = some op' → ref ≠ t.sequence → s.table.objects ref ≠ none := by
    intro ref op' there apart absent
    obtain ⟨_, _, _, _, _, latest, _⟩ := makes_eq (evolves.appears ref op' absent there)
    exact apart latest
  by_cases fresh : ∃ op, s.table.objects t.sequence = none ∧ t.table.objects t.sequence = some op ∧ op.capability = .admin
  · obtain ⟨op, absent, there, admin⟩ := fresh
    obtain ⟨project, request, now, lease, _, _, admitted⟩ := makes_eq (evolves.appears _ op absent there)
    obtain ⟨b, authorization, ⟨held, unspent, _, own, bound, used⟩, until_⟩ := admitted.authorized admin
    have unpaid : ∀ {ref op'}, s.table.objects ref = some op' → op'.capability = .admin → paid ref ≠ b := by
      rintro ref op' here before rfl
      obtain ⟨authorization', held', consumed, _⟩ := pays.spent ref op' here before
      cases held.symm.trans held'
      rw [unspent] at consumed
      cases consumed
    refine ⟨Function.update paid t.sequence b, fun ref op' there' admin' => ?_, fun ref ref' op' op'' there' there'' admin' admin'' same => ?_⟩
    · by_cases latest : ref = t.sequence
      · subst latest
        cases there.symm.trans there'
        rw [update_self]
        exact ⟨_, used, rfl, own.trans admitted.identity.symm, bound.trans admitted.epoch.symm, until_⟩
      · rw [update_of_ne latest]
        obtain ⟨_, _, _, paid⟩ := old there' admin' (newest there' latest)
        exact paid
    · by_cases latest : ref = t.sequence <;> by_cases latest' : ref' = t.sequence
      · exact latest.trans latest'.symm
      · rw [latest, update_self, update_of_ne latest'] at same
        obtain ⟨_, here, before, _⟩ := old there'' admin'' (newest there'' latest')
        exact absurd same.symm (unpaid here before)
      · rw [latest', update_self, update_of_ne latest] at same
        obtain ⟨_, here, before, _⟩ := old there' admin' (newest there' latest)
        exact absurd same (unpaid here before)
      · rw [update_of_ne latest, update_of_ne latest'] at same
        obtain ⟨_, here, before, _⟩ := old there' admin' (newest there' latest)
        obtain ⟨_, here', before', _⟩ := old there'' admin'' (newest there'' latest')
        exact pays.once ref ref' _ _ here here' before before' same
  · have known : ∀ {ref op'}, t.table.objects ref = some op' → op'.capability = .admin → s.table.objects ref ≠ none := by
      intro ref op' there admin absent
      obtain ⟨_, _, _, _, _, rfl, _⟩ := makes_eq (evolves.appears ref op' absent there)
      exact fresh ⟨op', absent, there, admin⟩
    refine ⟨paid, fun ref op' there admin => ?_, fun ref ref' op' op'' there there' admin admin' same => ?_⟩
    · obtain ⟨_, _, _, paid⟩ := old there admin (known there admin)
      exact paid
    · obtain ⟨_, here, before, _⟩ := old there admin (known there admin)
      obtain ⟨_, here', before', _⟩ := old there' admin' (known there' admin')
      exact pays.once ref ref' _ _ here here' before before' same

theorem reached {past : List Action} (run : Run (Steps setting generation) {} past s) : s.Sound ∧ ∃ paid, s.PaidBy paid := by
  refine run.invariant (I := fun s => s.Sound ∧ ∃ paid, s.PaidBy paid) (fun before step after good taken => ?_)
    ⟨empty_sound, id, ?_⟩
  · obtain ⟨sound, paid, pays⟩ := good
    obtain ⟨kept, evolves⟩ := sound.act taken
    exact ⟨kept, pays.step evolves⟩
  · constructor <;> intros <;> contradiction

theorem Sound.starts (sound : s.Sound) {paid : Nat → Nat} (pays : s.PaidBy paid)
    (here : s.table.objects ref = some op) (startable : s.Startable now op) : s.Starts now ref op := by
  obtain ⟨_, current, ⟨lease, held, live⟩, authorized⟩ := startable
  have name := sound.leased.named _ lease held
  simp only [Lease.ended, Bool.or_eq_false_iff] at live
  obtain ⟨lease', held', _, covers⟩ := sound.leased.covered ref op here
  cases held.symm.trans held'
  refine ⟨lease, by rw [leaseOf, current]; exact held, name, live.1, live.2, covers, fun admin => ?_⟩
  obtain ⟨authorization, given, _, _, bound, until_⟩ := pays.spent ref op here admin
  refine ⟨paid, authorization, pays, given, bound.trans name.symm, ?_⟩
  simpa [adminExpired, admin, until_] using authorized

theorem Sound.goes (sound : s.Sound) (taken : ClearSteps setting generation s a t)
    (here : s.table.objects ref = some op) : ∃ op', t.table.objects ref = some op' ∧ op.Lasts op' ∧
      (op'.state = op.state ∨ (op.state = .queued ∧ op'.state = .cancelled) ∨
        (a.starts s op ∧ op.state = .queued ∧ op'.state = .running) ∨ (op.state = .running ∧ op'.state.terminal = true) ∨
        (a.fails s op ∧ op.state = .queued ∧ op'.state = .failed)) := by
  obtain ⟨op', there, lasts, state⟩ := (sound.act taken.1).2.persists ref op here
  refine ⟨op', there, lasts, ?_⟩
  rcases state with same | cancels | starts | ends | ⟨fails, pending, failed⟩
  · exact .inl same
  · exact .inr (.inl cancels)
  · exact .inr (.inr (.inl starts))
  · exact .inr (.inr (.inr (.inl ends)))
  · refine .inr (.inr (.inr (.inr ⟨fails, ?_, failed⟩)))
    rcases pending with queued | ⟨_, requested⟩
    · exact queued
    · rw [taken.2.unrequested fails] at requested
      cases requested

theorem Sound.over_unchecked (sound : s.Sound) {row : Worker} {epoch : String}
    (found : s.workers w = some row) (control : row.control = .checked ref epoch) (here : s.table.objects ref = some op)
    (queued : op.state = .queued) : ¬ s.Over op.projectIdentity op.admittedLeaseEpoch := by
  intro ended
  obtain ⟨own, current, lease, held, live⟩ := sound.checked w row ref epoch op found control here queued
  have owner := (sound.placed.fits found (by rw [control]; rfl) here).1
  obtain ⟨lease', held', revoked⟩ := ended (by rw [owner, own, current])
  rw [own] at held'
  cases held.symm.trans held'
  rw [revoked] at live
  cases live

theorem Sound.goes_over (sound : s.Sound) (taken : ClearSteps setting generation s a t)
    (here : s.table.objects ref = some op) (queued : op.state = .queued)
    (ended : s.Over op.projectIdentity op.admittedLeaseEpoch) :
    ∃ op', t.table.objects ref = some op' ∧ (op'.state = .queued ∨ op'.state = .cancelled) := by
  obtain ⟨op', there, _, state⟩ := sound.goes taken here
  refine ⟨op', there, ?_⟩
  rcases state with same | ⟨_, cancelled⟩ | ⟨starts, _⟩ | ⟨running, _⟩ | ⟨fails, _⟩
  · exact .inl (same.trans queued)
  · exact .inr cancelled
  · exfalso
    cases a with
    | worker w step =>
      cases step with
      | dispatch now =>
        obtain ⟨_, current, ⟨lease, held, live⟩, _⟩ := starts
        obtain ⟨lease', held', revoked⟩ := ended current
        cases held.symm.trans held'
        rw [Lease.ended, revoked] at live
        cases live
      | _ => exact starts
    | _ => exact starts
  · rw [queued] at running
    cases running
  · exfalso
    cases a with
    | worker w step =>
      cases step with
      | inheritFails stderr =>
        obtain ⟨row, ref', epoch, found, control, here'⟩ := fails
        exact sound.over_unchecked found control here' queued ended
      | _ => exact fails
    | _ => exact fails

theorem refuse_cancelled {stderr : String} {op' : Operation}
    (there : (s.refuse setting w ref .cancelled stderr).table.objects ref = some op') : op'.state = .cancelled := by
  obtain ⟨op, _, written⟩ := OperationTable.finishOperation_rewrites.source there
  rw [OperationTable.At, if_pos rfl] at written
  rw [written]
  rfl

theorem dropIdleLease_settles (s : Service) (setting : Setting) (identity : String) :
    Rewrites (fun _ => Operation.Settles) s.table (s.dropIdleLease setting identity).table := by
  have same : Rewrites (fun _ => Operation.Settles) s.table s.table := .refl fun _ op => .refl op
  rw [Service.dropIdleLease]
  split
  · cases current : s.current identity with
    | none =>
      rw [Service.dropLease, current]
      exact same
    | some epoch =>
      rw [dropLease_eq setting current]
      exact OperationTable.cancelQueued_settles
  · exact same

theorem Sound.check_cancels (sound : s.Sound) {row : Worker} (found : s.workers w = some row)
    (control : row.control = .popped ref) (here : s.table.objects ref = some op) (queued : op.state = .queued)
    (ended : s.Over op.projectIdentity op.admittedLeaseEpoch) (gate : s.gates row.projectIdentity = some (.worker w)) :
    ∃ op', (s.check setting w row.projectIdentity ref op now).table.objects ref = some op' ∧ op'.state = .cancelled := by
  obtain ⟨owner, pending⟩ := sound.placed.fits found (by rw [control]; rfl) here
  rw [control] at pending
  have refused : ∀ stderr, ∃ op', (s.refuse setting w ref .cancelled stderr).table.objects ref = some op' ∧ op'.state = .cancelled := by
    intro stderr
    obtain ⟨_, worked, _⟩ := sound.refuse found (by rw [control]; rfl) here pending gate setting stderr
      (show _ ∨ Never _ ∧ _ from .inl rfl)
    obtain ⟨op', there, _⟩ := worked.persists ref op here
    exact ⟨op', there, refuse_cancelled there⟩
  rw [Service.check, if_neg (by rw [sound.placed.quiet ref op here queued]; exact Bool.noConfusion)]
  cases leased : s.leaseOf row.projectIdentity with
  | none => exact refused _
  | some lease =>
    obtain ⟨current, held, _⟩ := sound.lease leased
    dsimp only
    split
    · obtain ⟨op', there, cancelled⟩ := refused "operator lease ended before the operation started\n"
      obtain ⟨op'', after, settles⟩ := (dropIdleLease_settles ((s.refuse setting w ref .cancelled
        "operator lease ended before the operation started\n").markRevoked row.projectIdentity) setting
        row.projectIdentity).present ref op' there
      refine ⟨op'', after, ?_⟩
      rcases settles.state with ⟨kept, _⟩ | ⟨_, again, _⟩
      · exact kept.trans cancelled
      · exact again
    · rename_i live
      split
      · exact refused _
      · rename_i same
        have same : op.admittedLeaseEpoch = lease.epoch := not_not.1 same
        obtain ⟨lease', held', revoked⟩ := ended (by rw [owner, same]; exact current)
        rw [same] at held'
        cases held.symm.trans held'
        exact absurd (by rw [Lease.ended, revoked]; rfl) live

end Service

/-- What a run leaves of an operation: it does not start again, and once finished it stays as it finished. -/
structure Operation.Onward (op op' : Operation) : Prop where
  lasts : op.Lasts op'
  once : op.state ≠ .queued → op'.state ≠ .queued
  final : op.state.terminal = true → op'.state = op.state

theorem Operation.Onward.trans {op op' op'' : Operation} (first : op.Onward op')
    (second : op'.Onward op'') : op.Onward op'' where
  lasts := first.lasts.trans second.lasts
  once started := second.once (first.once started)
  final done := by
    have same := first.final done
    rw [second.final (same ▸ done), same]

/-- The worker of a queued operation whose lease is over still has to reach it, and cancels it there. -/
def Service.Withdraws (setting : Setting) (generation : String) (s : Service) (ref : Nat) : Prop :=
  ∃ w row, s.workers w = some row ∧ (ref ∈ row.queue ∨ row.control = .popped ref ∧
    ∀ now t, Steps setting generation s (.worker w (.check now)) t →
      ∃ op', t.table.objects ref = some op' ∧ op'.state = .cancelled)

namespace Service
variable {s t : Service} {setting : Setting} {generation : String} {a : Action} {ref : Nat} {op : Operation}

theorem Sound.onward (sound : s.Sound) (taken : ClearSteps setting generation s a t)
    (here : s.table.objects ref = some op) : ∃ op', t.table.objects ref = some op' ∧ op.Onward op' := by
  obtain ⟨op', there, lasts, state⟩ := sound.goes taken here
  refine ⟨op', there, lasts, ?_, ?_⟩
  · intro started
    rcases state with same | ⟨queued, _⟩ | ⟨_, queued, _⟩ | ⟨_, done⟩ | ⟨_, queued, _⟩
    · rwa [same]
    · exact absurd queued started
    · exact absurd queued started
    · rintro queued
      rw [queued] at done
      cases done
    · exact absurd queued started
  · intro done
    rcases state with same | ⟨queued, _⟩ | ⟨_, queued, _⟩ | ⟨running, _⟩ | ⟨_, queued, _⟩
    · exact same
    all_goals
      first
        | rw [queued] at done
        | rw [running] at done
      cases done

theorem Sound.run_onward (sound : s.Sound) {later : List Action}
    (run : Run (ClearSteps setting generation) s later t) (here : s.table.objects ref = some op) :
    ∃ op', t.table.objects ref = some op' ∧ op.Onward op' := by
  have kept := run.invariant (I := fun t => t.Sound ∧ ∃ op', t.table.objects ref = some op' ∧ op.Onward op')
    (fun before step after good taken => by
      obtain ⟨still, op', there, onward⟩ := good
      obtain ⟨op'', last, next⟩ := still.onward taken there
      exact ⟨(still.act taken.1).1, op'', last, onward.trans next⟩)
    ⟨sound, op, here, .refl op, fun started => started, fun _ => rfl⟩
  exact kept.2

theorem Sound.run_over (sound : s.Sound) {later : List Action} (run : Run (ClearSteps setting generation) s later t)
    (here : s.table.objects ref = some op) (queued : op.state = .queued)
    (ended : s.Over op.projectIdentity op.admittedLeaseEpoch) :
    t.Sound ∧ ∃ op', t.table.objects ref = some op' ∧ (op'.state = .queued ∨ op'.state = .cancelled) ∧
      t.Over op'.projectIdentity op'.admittedLeaseEpoch := by
  refine run.invariant (I := fun t => t.Sound ∧ ∃ op', t.table.objects ref = some op' ∧
      (op'.state = .queued ∨ op'.state = .cancelled) ∧ t.Over op'.projectIdentity op'.admittedLeaseEpoch)
    (fun before step after good taken => ?_) ⟨sound, op, here, .inl queued, ended⟩
  obtain ⟨still, op', there, state, over_⟩ := good
  obtain ⟨kept, evolves⟩ := still.act taken.1
  obtain ⟨lease, known, _⟩ := still.leased.covered ref op' there
  obtain ⟨op'', last, onward⟩ := still.onward taken there
  refine ⟨kept, op'', last, ?_, ?_⟩
  · rcases state with waits | cancelled
    · obtain ⟨found, after, outcome⟩ := still.goes_over taken there waits over_
      cases last.symm.trans after
      exact outcome
    · exact .inr ((onward.final (by rw [cancelled]; rfl)).trans cancelled)
  · rw [onward.lasts.same.projectIdentity, onward.lasts.same.epoch]
    exact over_.evolves evolves (by rw [known]; rfl)

theorem Sound.withdraws (sound : s.Sound) (here : s.table.objects ref = some op)
    (queued : op.state = .queued) (ended : s.Over op.projectIdentity op.admittedLeaseEpoch) :
    s.Withdraws setting generation ref := by
  obtain ⟨_, w, row, _, found, held⟩ := sound.placed.live ref op here (by rw [queued]; rfl)
  refine ⟨w, row, found, ?_⟩
  rcases mem_held.1 held with taken | waiting
  · right
    have fits := (sound.placed.fits found taken here).2
    have popped : row.control = .popped ref := by
      cases control : row.control with
      | popped other =>
        rw [control] at taken
        exact congrArg Control.popped (some.inj taken)
      | checked other epoch =>
        rw [control] at taken
        cases taken
        exact absurd ended (sound.over_unchecked found control here queued)
      | idle =>
        rw [control] at taken
        cases taken
      | recovering other =>
        rw [control] at fits
        rcases (fits : op.state = .running ∨ op.state.terminal = true) with running | done
        · rw [queued] at running
          cases running
        · rw [queued] at done
          cases done
      | _ =>
        rw [control] at fits
        have impossible : op.state = .running ∨ op.state.terminal = true := by
          first
            | exact .inl fits
            | exact .inr fits
        rw [queued] at impossible
        rcases impossible with impossible | impossible <;> cases impossible
    refine ⟨popped, fun now t acts => ?_⟩
    rw [Steps, Service.act.eq_def] at acts
    obtain ⟨row', found', acts⟩ := bind_eq_some_iff.1 acts
    cases found.symm.trans found'
    rw [Service.advance.eq_def] at acts
    dsimp only at acts
    split at acts
    · rename_i ref' control
      cases popped.symm.trans control
      obtain ⟨op', here', acts⟩ := bind_eq_some_iff.1 acts
      cases here.symm.trans here'
      obtain ⟨inside, rfl, gripped, _, gate, rfl⟩ := sound.under_gate acts
      exact gripped.check_cancels found popped here queued ended gate
    · cases acts
  · exact .inl waiting

/-- In every run whose steps are clear: a project runs one operation at most, counted by its live lease and
with that lease's passphrase; an operation starts in a dispatch under the lease that admitted it; it does not
start again, stays as it finished, and is cancelled where it waits after its lease is over. -/
theorem leases_safe {past : List Action} (reached : Run (ClearSteps setting generation) {} past s) :
    s.Safe ∧
    (∀ a t ref op', ClearSteps setting generation s a t → s.table.objects ref = none → t.table.objects ref = some op' →
      op'.state = .queued) ∧
    (∀ a t ref op op', ClearSteps setting generation s a t → s.table.objects ref = some op → t.table.objects ref = some op' →
      op.state ≠ .running → op'.state = .running →
      ∃ w now, a = .worker w (.dispatch now) ∧ op.state = .queued ∧ s.Starts now ref op) ∧
    (∀ later t ref op, Run (ClearSteps setting generation) s later t → s.table.objects ref = some op →
      ∃ op', t.table.objects ref = some op' ∧ op.Onward op' ∧
        (op.state = .queued → s.Over op.projectIdentity op.admittedLeaseEpoch →
          op'.state = .cancelled ∨ op'.state = .queued ∧ t.Withdraws setting generation ref)) := by
  obtain ⟨sound, paid, pays⟩ := Service.reached (reached.weaken fun _ _ _ taken => taken.1)
  refine ⟨sound.safe, ?_, ?_, ?_⟩
  · intro a t ref op' taken absent there
    obtain ⟨_, _, _, _, _, _, admitted⟩ := makes_eq ((sound.act taken.1).2.appears ref op' absent there)
    exact admitted.state
  · intro a t ref op op' taken here there still runs
    obtain ⟨found, after, _, state⟩ := sound.goes taken here
    cases there.symm.trans after
    rcases state with same | ⟨_, cancelled⟩ | ⟨starts, queued, _⟩ | ⟨running, _⟩ | ⟨_, _, failed⟩
    · exact absurd (same.symm.trans runs) still
    · rw [runs] at cancelled
      cases cancelled
    · cases a with
      | worker w step =>
        cases step with
        | dispatch now => exact ⟨w, now, rfl, queued, sound.starts pays here starts⟩
        | _ => exact starts.elim
      | _ => exact starts.elim
    · exact absurd running still
    · rw [runs] at failed
      cases failed
  · intro later t ref op run here
    obtain ⟨op', there, onward⟩ := sound.run_onward run here
    refine ⟨op', there, onward, fun queued ended => ?_⟩
    obtain ⟨kept, found, after, state, over_⟩ := sound.run_over run here queued ended
    cases there.symm.trans after
    rcases state with waits | cancelled
    · exact .inr ⟨waits, kept.withdraws there waits over_⟩
    · exact .inl cancelled

end Service

def Service.perform (setting : Setting) (generation : String) (s : Service) : List Action → Option Service
  | [] => some s
  | a :: rest => (s.act setting generation a).bind fun next => next.perform setting generation rest

def Action.steady : Action → Bool
  | .worker _ (.inheritFails _) => false
  | _ => true

theorem Action.clear_of_steady {a : Action} (steady : a.steady = true) : a.Clear s := by
  cases a with
  | worker w step =>
    cases step with
    | inheritFails => cases steady
    | _ => trivial
  | _ => trivial

theorem Service.perform_run {setting : Setting} {generation : String} {actions : List Action}
    (performed : s.perform setting generation actions = some t) : Run (Steps setting generation) s actions t := by
  induction actions generalizing s with
  | nil =>
    cases performed
    exact .rest _
  | cons a rest ih =>
    obtain ⟨next, taken, performed⟩ := bind_eq_some_iff.1 performed
    exact .next taken (ih performed)

theorem Service.perform_clear {setting : Setting} {generation : String} {actions : List Action}
    (steady : ∀ a ∈ actions, a.steady = true) (performed : s.perform setting generation actions = some t) :
    Run (ClearSteps setting generation) s actions t := by
  induction actions generalizing s with
  | nil =>
    cases performed
    exact .rest _
  | cons a rest ih =>
    obtain ⟨next, taken, performed⟩ := bind_eq_some_iff.1 performed
    rw [List.forall_mem_cons] at steady
    exact .next ⟨taken, a.clear_of_steady steady.1⟩ (ih steady.2 performed)

def plainSetting : Setting where
  fingerprint argv directory noEgress := toString argv ++ toString directory ++ toString noEgress
  controlDigest control := control
  publicLeaseId epoch := epoch
  redactSecretText text := text
  exceedsProtocolFrame _ := false

def book : Project := ⟨"2049:17", "b1", "/books/kassiber.sqlite3"⟩

/-- A worker has checked the first operation of a book that was unlocked. -/
def checkedRun : List Action :=
  [.beginUnlock book false 0, .finishUnlock book { databaseIdentity := "db", passphrase := "secret" } "epoch" 1,
    .submit book { drawnId := "g.1", argv := ["accounts", "list"], commandPath := "accounts.list", required := .read } 2,
    .worker 0 .pop, .worker 0 (.check 3)]

/-- A worker starts the operation that it has checked. -/
theorem dispatched_safe : ∃ s t op op', Run (ClearSteps plainSetting "g") {} checkedRun s ∧
    ClearSteps plainSetting "g" s (.worker 0 (.dispatch 4)) t ∧ s.table.objects 1 = some op ∧ t.table.objects 1 = some op' ∧
    op'.state = .running ∧ s.Starts 4 1 op := by
  have checked : (Service.perform plainSetting "g" {} checkedRun).isSome = true := by decide +kernel
  obtain ⟨s, reached⟩ := isSome_iff_exists.1 checked
  have started : (Service.perform plainSetting "g" {} checkedRun).bind (fun s => (s.act plainSetting "g" (.worker 0 (.dispatch 4))).bind
      fun t => (s.table.objects 1).bind fun op => (t.table.objects 1).map fun op' => (op.state, op'.state)) =
        some (.queued, .running) := by decide +kernel
  rw [reached, bind_some] at started
  obtain ⟨t, taken, started⟩ := bind_eq_some_iff.1 started
  obtain ⟨op, here, started⟩ := bind_eq_some_iff.1 started
  obtain ⟨op', there, states⟩ := map_eq_some_iff.1 started
  have run := Service.perform_clear (by decide) reached
  have clear : ClearSteps plainSetting "g" s (.worker 0 (.dispatch 4)) t := ⟨taken, trivial⟩
  have runs : op'.state = .running := congrArg Prod.snd states
  have still : op.state ≠ .running := by
    rw [show op.state = .queued from congrArg Prod.fst states]
    exact OperationState.noConfusion
  obtain ⟨w, now, same, _, starts⟩ := (Service.leases_safe run).2.2.1 _ t 1 op op' clear here there still runs
  cases same
  exact ⟨s, t, op, op', run, clear, here, there, runs, starts⟩

/-- An operation that was cancelled while its worker had it checked ends as failed. -/
theorem cancelled_then_failed : ∃ s t op op', Run (Steps plainSetting "g") {} (checkedRun ++ [.cancel "g.1"]) s ∧
    Steps plainSetting "g" s (.worker 0 (.inheritFails "operator ownership inheritance failed\n")) t ∧
    s.table.objects 1 = some op ∧ t.table.objects 1 = some op' ∧ op.state = .cancelled ∧ op'.state = .failed := by
  have cancelled : (Service.perform plainSetting "g" {} (checkedRun ++ [.cancel "g.1"])).isSome = true := by decide +kernel
  obtain ⟨s, reached⟩ := isSome_iff_exists.1 cancelled
  have failed : (Service.perform plainSetting "g" {} (checkedRun ++ [.cancel "g.1"])).bind (fun s =>
      (s.act plainSetting "g" (.worker 0 (.inheritFails "operator ownership inheritance failed\n"))).bind
      fun t => (s.table.objects 1).bind fun op => (t.table.objects 1).map fun op' => (op.state, op'.state)) =
        some (.cancelled, .failed) := by decide +kernel
  rw [reached, bind_some] at failed
  obtain ⟨t, taken, failed⟩ := bind_eq_some_iff.1 failed
  obtain ⟨op, here, failed⟩ := bind_eq_some_iff.1 failed
  obtain ⟨op', there, states⟩ := map_eq_some_iff.1 failed
  exact ⟨s, t, op, op', Service.perform_run reached, taken, here, there, congrArg Prod.fst states, congrArg Prod.snd states⟩

end Kassiber.Operator

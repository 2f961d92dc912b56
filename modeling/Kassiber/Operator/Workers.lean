import Kassiber.Operator.Submitting

/-!
The blocks of a worker's thread keep the invariant of the service, and what each does to the operation that
the thread holds.
-/

namespace Kassiber.Operator
open Lib.Keyed
open Function (update)

/-! ### What a step does to an operation -/

/-- An operation stays in its state, or is cancelled, started or finished; one that was cancelled while its
worker checked it may still be failed. -/
structure Operation.Moves (starts fails : Operation → Prop) (op op' : Operation) : Prop where
  lasts : op.Lasts op'
  state : op'.state = op.state ∨ (op.state = .queued ∧ op'.state = .cancelled) ∨
    (starts op ∧ op.state = .queued ∧ op'.state = .running) ∨ (op.state = .running ∧ op'.state.terminal = true) ∨
    (fails op ∧ op.Pending ∧ op'.state = .failed)

section
variable {starts fails : Operation → Prop} {op op' op'' : Operation}

theorem Operation.Settles.moves (settles : op.Settles op') : op.Moves starts fails op' := by
  refine ⟨settles.lasts, ?_⟩
  rcases settles.state with ⟨same, _⟩ | ⟨queued, cancelled, _⟩
  · exact .inl same
  · exact .inr (.inl ⟨queued, cancelled⟩)

theorem Operation.Moves.settles (moves : op.Moves starts fails op')
    (settles : op'.Settles op'') : op.Moves starts fails op'' := by
  refine ⟨moves.lasts.trans settles.lasts, ?_⟩
  rcases settles.state with ⟨same, _⟩ | ⟨queued, cancelled, _⟩
  · rw [same]
    exact moves.state
  · rcases moves.state with kept | ⟨_, impossible⟩ | ⟨_, _, impossible⟩ | ⟨_, impossible⟩ | ⟨_, _, impossible⟩
    · exact .inr (.inl ⟨kept ▸ queued, cancelled⟩)
    all_goals
      rw [queued] at impossible
      cases impossible

end

def Never (_ : Operation) : Prop := False

abbrev Worked (starts fails : Operation → Prop) (s t : Service) : Prop := Evolves (Operation.Moves starts fails) Nothing NoSession s t

variable {starts fails : Operation → Prop}

theorem Settled.worked {s t : Service} (settled : Settled s t) : Worked starts fails s t :=
  { settled with
    persists := fun ref op here => by
      obtain ⟨op', there, settles⟩ := settled.persists ref op here
      exact ⟨op', there, settles.moves⟩ }

theorem Worked.settled {s t u : Service} (first : Worked starts fails s t) (second : Settled t u) :
    Worked starts fails s u :=
  Evolves.trans first second fun _ _ _ moves => moves.settles

namespace Service
variable {s : Service} {setting : Setting} {w ref now : Nat} {row : Worker} {op : Operation}

theorem Sound.redirected {row' : Worker} (sound : s.Sound) (found : s.workers w = some row)
    (placed : Placed s.table (update s.workers w (some row')) s.registered)
    (stands : ∀ ref epoch op, row'.control = .checked ref epoch → s.table.objects ref = some op →
      op.admittedLeaseEpoch = epoch ∧ s.current row'.projectIdentity = some epoch ∧
      ∃ lease, s.leases epoch = some lease ∧ lease.revoked = false)
    (gate : row'.control.gated = true → s.gates row'.projectIdentity = some (.worker w)) :
    Sound { s with workers := update s.workers w (some row') } ∧
      Settled s { s with workers := update s.workers w (some row') } := by
  refine ⟨⟨placed, sound.leased, ?_, ?_, sound.unlocking, sound.numbered, sound.drawn, ?_⟩, { Settled.refl s with }⟩
  · intro v other ref' epoch op' there control known queued
    rcases update_some there with ⟨rfl, rfl⟩ | ⟨-, there⟩
    · exact stands ref' epoch op' control known
    · exact sound.checked v other ref' epoch op' there control known queued
  · intro v other there inside
    rcases update_some there with ⟨rfl, rfl⟩ | ⟨-, there⟩
    · exact gate inside
    · exact sound.gated v other there inside
  · intro v other there
    rcases update_some there with ⟨rfl, _⟩ | ⟨-, there⟩
    · exact sound.spawned v row found
    · exact sound.spawned v other there

/-! ### One operation and its worker -/

section
variable (sound : s.Sound) (found : s.workers w = some row) (taken : row.control.taken = some ref)
  (here : s.table.objects ref = some op)
include sound found taken here

theorem Sound.turn {f : Operation → Operation} {control : Control} {table : OperationTable} {leases : String → Option Lease}
    (holds : control.taken = some ref) (rewrites : Rewrites (OperationTable.At ref f) s.table table) (same : op.Same (f op))
    (fits : control.Fits (f op)) (started : (f op).state ≠ .queued)
    (opens : (f op).state.terminal = false → op.state.terminal = false) (unchecked : ∀ epoch, control ≠ .checked ref epoch)
    (gate : control.gated = true → s.gates row.projectIdentity = some (.worker w))
    (leased : Leased table leases s.current s.registered)
    (live : ∀ v other ref' epoch op', v ≠ w → s.workers v = some other → other.control = .checked ref' epoch →
      s.table.objects ref' = some op' → op'.state = .queued → ∃ lease, leases epoch = some lease ∧ lease.revoked = false)
    (busy : ∀ identity, table.Runs identity → s.table.Runs identity ∨ s.gates identity = some (.worker w)) :
    Sound { s with leases, table, workers := update s.workers w (some { row with control }) } := by
  refine ⟨sound.placed.turn found taken holds here rewrites same fits started opens, leased, ?_, ?_, ?_, ?_, sound.drawn, ?_⟩
  · intro v other ref' epoch op' there stands known queued
    rcases update_some there with ⟨rfl, rfl⟩ | ⟨apart, there⟩
    · have own : ref' = ref := by
        rw [show control = .checked ref' epoch from stands] at holds
        exact Option.some.inj holds
      exact absurd (own ▸ stands) (unchecked epoch)
    · obtain ⟨op'', was, written⟩ := rewrites.source known
      have unheld : ref' ≠ ref := fun equal => apart (sound.placed.apart v w other row ref there found
        (mem_held.2 (.inl (by rw [← equal, stands]; rfl))) (mem_held.2 (.inl taken)))
      rw [OperationTable.At, if_neg unheld] at written
      subst written
      obtain ⟨own, current, _⟩ := sound.checked v other ref' epoch op' there stands was queued
      exact ⟨own, current, live v other ref' epoch op' apart there stands was queued⟩
  · intro v other there inside
    rcases update_some there with ⟨rfl, rfl⟩ | ⟨_, there⟩
    · exact gate inside
    · exact sound.gated v other there inside
  · intro identity previous held runs
    rcases busy identity runs with was | gripped
    · exact sound.unlocking identity previous held was
    · cases held.symm.trans gripped
  · intro ref' op' there
    obtain ⟨op'', was, _⟩ := rewrites.source there
    exact sound.numbered ref' op'' was
  · intro v other there
    rcases update_some there with ⟨rfl, _⟩ | ⟨_, there⟩
    · exact sound.spawned v row found
    · exact sound.spawned v other there

omit taken found sound here in
theorem turn_worked {starts fails : Operation → Prop} {f : Operation → Operation} {table : OperationTable}
    {leases : String → Option Lease}
    {workers : Nat → Option Worker} (here : s.table.objects ref = some op)
    (rewrites : Rewrites (OperationTable.At ref f) s.table table) (moves : op.Moves starts fails (f op))
    (lasts : ∀ epoch lease, s.leases epoch = some lease → ∃ lease', leases epoch = some lease' ∧ lease.Lasts lease') :
    Worked starts fails s { s with leases, table, workers } := by
  refine { Settled.refl s with
    persists := fun other op' there => ?_
    appears := fun other op' absent there => (by cases (rewrites.absent other absent).symm.trans there)
    retained := fun other member => .inl (rewrites.retained other member)
    leases := lasts
    denials := fun denial member _ => .inl member }
  obtain ⟨op'', after, written⟩ := rewrites.present other op' there
  refine ⟨op'', after, ?_⟩
  rw [OperationTable.At] at written
  split at written
  · rename_i same
    subst same
    cases there.symm.trans here
    rw [written]
    exact moves
  · rw [written]
    exact (Operation.Settles.refl op').moves

theorem Sound.moved (control : Control) (holds : control.taken = some ref) (fits : control.Fits op)
    (stands : ∀ epoch, control = .checked ref epoch → op.admittedLeaseEpoch = epoch ∧
      s.current row.projectIdentity = some epoch ∧ ∃ lease, s.leases epoch = some lease ∧ lease.revoked = false)
    (gate : control.gated = true → s.gates row.projectIdentity = some (.worker w)) :
    (s.goto w control).Sound ∧ Settled s (s.goto w control) := by
  have heldSame : ({ row with control } : Worker).held = row.held := by rw [Worker.held, Worker.held, taken, holds]
  have owner := (sound.placed.fits found taken here).1
  have written : s.goto w control = { s with workers := update s.workers w (some { row with control }) } := by
    rw [Service.goto, Service.editWorker, found]
    rfl
  rw [written]
  refine sound.redirected found (sound.placed.rework found rfl (fun _ member => member)
    (heldSame ▸ sound.placed.distinct w row found) (fun other inside => heldSame ▸ inside) (fun other inside => ?_)
    (fun other inside => .inl (heldSame.symm ▸ inside))) (fun ref' epoch op' control' known => ?_) gate
  · cases holds.symm.trans inside
    exact ⟨op, here, owner, fits⟩
  · have own : ref' = ref := by
      rw [show control = .checked ref' epoch from control'] at holds
      exact Option.some.inj holds
    subst own
    cases here.symm.trans known
    exact stands epoch control'

end

/-! ### Before an operation starts -/

variable {f : Operation → Operation} {table table' : OperationTable}

theorem runs_at {identity : String}
    (here : table.objects ref = some op) (rewrites : Rewrites (OperationTable.At ref f) table table') (same : op.Same (f op)) :
    table'.Runs identity ↔ (f op).state = .running ∧ op.projectIdentity = identity ∨
      ∃ other op', other ≠ ref ∧ table.objects other = some op' ∧ op'.state = .running ∧ op'.projectIdentity = identity := by
  constructor
  · rintro ⟨other, op', there, busy, owner⟩
    obtain ⟨was, before, written⟩ := rewrites.source there
    by_cases equal : other = ref
    · subst equal
      rw [OperationTable.At, if_pos rfl] at written
      cases here.symm.trans before
      exact .inl ⟨written ▸ busy, same.projectIdentity ▸ written ▸ owner⟩
    · rw [OperationTable.At, if_neg equal] at written
      exact .inr ⟨other, was, equal, before, written ▸ busy, written ▸ owner⟩
  · rintro (⟨busy, owner⟩ | ⟨other, was, apart, before, busy, owner⟩)
    · obtain ⟨op', after, written⟩ := rewrites.present ref op here
      rw [OperationTable.At, if_pos rfl] at written
      exact ⟨ref, op', after, written ▸ busy, written ▸ same.projectIdentity.trans owner⟩
    · obtain ⟨op', after, written⟩ := rewrites.present other was before
      rw [OperationTable.At, if_neg apart] at written
      exact ⟨other, op', after, written ▸ busy, written ▸ owner⟩

theorem Leased.retable {leases : String → Option Lease} {current : String → Option String}
    {registered : List (String × Nat)} (leased : Leased table leases current registered)
    (here : table.objects ref = some op) (rewrites : Rewrites (OperationTable.At ref f) table table') (same : op.Same (f op))
    (idle : op.state ≠ .running) (still : (f op).state ≠ .running) : Leased table' leases current registered := by
  have runs : ∀ identity, table'.Runs identity ↔ table.Runs identity := by
    intro identity
    rw [runs_at here rewrites same]
    constructor
    · rintro (⟨busy, _⟩ | ⟨other, op', _, there, busy, owner⟩)
      · exact absurd busy still
      · exact ⟨other, op', there, busy, owner⟩
    · rintro ⟨other, op', there, busy, owner⟩
      refine .inr ⟨other, op', fun equal => ?_, there, busy, owner⟩
      subst equal
      cases here.symm.trans there
      exact idle busy
  refine ⟨leased.named, fun identity epoch held => ?_, fun other op' there busy => ?_, fun other op' there => ?_⟩
  · obtain ⟨lease, found, own, unlocked, counts, rests, served⟩ := leased.held identity epoch held
    exact ⟨lease, found, own, unlocked, fun now => counts ((runs identity).1 now),
      fun none => rests fun now => none ((runs identity).2 now), served⟩
  all_goals
    obtain ⟨was, before, written⟩ := rewrites.source there
    rw [OperationTable.At] at written
    split at written
    · rename_i equal
      subst equal
      cases here.symm.trans before
      subst written
      first
        | exact absurd busy still
        | (rw [same.epoch, same.projectIdentity, same.capability]
           exact leased.covered other op before)
    · subst written
      first
        | exact leased.runs other op' before busy
        | exact leased.covered other op' before

section
variable (sound : s.Sound) (found : s.workers w = some row) (taken : row.control.taken = some ref)
  (here : s.table.objects ref = some op) (pending : op.Pending) (gate : s.gates row.projectIdentity = some (.worker w))
include sound found taken here pending gate

omit sound found taken here gate in
theorem pending_idle : op.state ≠ .running := by
  rcases pending with queued | ⟨cancelled, _⟩
  · rw [queued]
    exact OperationState.noConfusion
  · rw [cancelled]
    exact OperationState.noConfusion

theorem Sound.refuse (setting : Setting) {state : OperationState} (stderr : String) {fails : Operation → Prop}
    (final : state = .cancelled ∨ fails op ∧ state = .failed) :
    (s.refuse setting w ref state stderr).Sound ∧ Worked Never fails s (s.refuse setting w ref state stderr) ∧
      (∃ row', (s.refuse setting w ref state stderr).workers = update s.workers w (some row') ∧
        row'.control = .leaving ref) := by
  have done : state.terminal = true ∧ state ≠ .running ∧ state ≠ .queued := by
    rcases final with rfl | ⟨_, rfl⟩ <;> exact ⟨rfl, OperationState.noConfusion, OperationState.noConfusion⟩
  have written : s.refuse setting w ref state stderr = { s with
      leases := s.leases
      table := s.table.finishOperation setting ref state (some ⟨1, "", stderr⟩)
      workers := update s.workers w (some { row with control := .leaving ref }) } := by
    rw [Service.refuse, Service.goto, Service.editWorker, found]
    rfl
  have rewrites : Rewrites (OperationTable.At ref (OperationTable.settle setting state (some ⟨1, "", stderr⟩))) s.table
      (s.table.finishOperation setting ref state (some ⟨1, "", stderr⟩)) := OperationTable.finishOperation_rewrites
  have same : op.Same (OperationTable.settle setting state (some ⟨1, "", stderr⟩) op) := rfl
  rw [written]
  refine ⟨sound.turn found taken here rfl rewrites same done.1 done.2.2 (fun open_ => ?_) (fun _ impossible => by cases impossible)
    (fun _ => gate) (Leased.retable sound.leased here rewrites same (pending_idle pending) done.2.1) ?_ ?_,
    turn_worked here rewrites ⟨⟨rfl, fun asked => asked, fun hidden => hidden⟩, ?_⟩ (fun _ lease held => ⟨lease, held, .refl lease⟩),
    _, rfl, rfl⟩
  · exact absurd (done.1.symm.trans open_) Bool.noConfusion
  · exact fun v other ref' epoch op' _ there stands known queued => (sound.checked v other ref' epoch op' there stands known queued).2.2
  · intro identity runs
    rcases (runs_at here rewrites same).1 runs with ⟨busy, _⟩ | ⟨other, op', _, there, busy, owner⟩
    · exact absurd busy done.2.1
    · exact .inl ⟨other, op', there, busy, owner⟩
  · rcases final with rfl | ⟨fail, rfl⟩
    · rcases pending with queued | ⟨cancelled, _⟩
      · exact .inr (.inl ⟨queued, rfl⟩)
      · exact .inl cancelled.symm
    · exact .inr (.inr (.inr (.inr ⟨fail, pending, rfl⟩)))

end

theorem Leased.recount {epoch : String} {g : Lease → Lease}
    (leased : Leased s.table s.leases s.current s.registered) (here : s.table.objects ref = some op)
    (rewrites : Rewrites (OperationTable.At ref f) s.table table) (same : op.Same (f op))
    (current : s.current op.projectIdentity = some epoch) (admitted : op.admittedLeaseEpoch = epoch)
    (counts : ∀ lease, s.leases epoch = some lease → lease.Lasts (g lease) ∧ (g lease).passphrase = lease.passphrase ∧
      (g lease).runningOperations = if (f op).state = .running then 1 else 0)
    (alone : ∀ other op', other ≠ ref → s.table.objects other = some op' → op'.state = .running →
      op'.projectIdentity ≠ op.projectIdentity) :
    Leased table (s.editLease epoch g).leases s.current s.registered := by
  have lasts : ∀ other lease, s.leases other = some lease →
      ∃ lease', (s.editLease epoch g).leases other = some lease' ∧ lease.Lasts lease' := by
    intro other lease there
    refine ⟨_, editLease_leases.2 ⟨lease, there, rfl⟩, ?_⟩
    split
    · rename_i equal
      exact (counts lease (equal ▸ there)).1
    · exact .refl lease
  have mine : table.Runs op.projectIdentity ↔ (f op).state = .running := by
    rw [runs_at here rewrites same]
    constructor
    · rintro (⟨busy, _⟩ | ⟨other, op', apart, there, busy, owner⟩)
      · exact busy
      · exact absurd owner (alone other op' apart there busy)
    · exact fun busy => .inl ⟨busy, rfl⟩
  refine ⟨?_, ?_, ?_, ?_⟩
  · intro other lease' there
    obtain ⟨lease, before, written⟩ := editLease_leases.1 there
    obtain ⟨found, after, kept⟩ := lasts other lease before
    cases there.symm.trans after
    exact kept.epoch.trans (leased.named other lease before)
  · intro identity other held
    obtain ⟨lease, before, own, unlocked, busy, idle, served⟩ := leased.held identity other held
    refine ⟨_, editLease_leases.2 ⟨lease, before, rfl⟩, ?_⟩
    by_cases equal : other = epoch
    · subst equal
      obtain ⟨again, there, own', _⟩ := leased.held _ _ current
      cases before.symm.trans there
      have name : op.projectIdentity = identity := own'.symm.trans own
      subst name
      obtain ⟨kept, passphrase, counted⟩ := counts lease before
      rw [if_pos rfl]
      refine ⟨kept.identity.trans own, passphrase ▸ unlocked, fun runs => ?_, fun still => ?_, served⟩
      · rw [counted, if_pos (mine.1 runs)]
      · rw [counted, if_neg fun busy => still (mine.2 busy)]
    · rw [if_neg equal]
      have apart : op.projectIdentity ≠ identity := fun name => equal (by
        rw [← name, current] at held
        exact (Option.some.inj held).symm)
      have runs : table.Runs identity ↔ s.table.Runs identity := by
        rw [runs_at here rewrites same]
        constructor
        · rintro (⟨_, name⟩ | ⟨other, op', _, there, busy, owner⟩)
          · exact absurd name apart
          · exact ⟨other, op', there, busy, owner⟩
        · rintro ⟨other, op', there, busy, owner⟩
          refine .inr ⟨other, op', fun name => ?_, there, busy, owner⟩
          subst name
          cases here.symm.trans there
          exact apart owner
      exact ⟨own, unlocked, fun now => busy (runs.1 now), fun still => idle fun now => still (runs.2 now), served⟩
  · intro other op' there busy
    obtain ⟨was, before, written⟩ := rewrites.source there
    rw [OperationTable.At] at written
    split at written
    · rename_i equal
      subst equal
      cases here.symm.trans before
      rw [written, same.projectIdentity, same.epoch, admitted]
      exact current
    · subst written
      exact leased.runs other op' before busy
  · intro other op' there
    obtain ⟨was, before, written⟩ := rewrites.source there
    have kept : was.Same op' := by
      rw [OperationTable.At] at written
      split at written
      · rename_i equal
        subst equal
        cases here.symm.trans before
        exact written ▸ same
      · exact written ▸ .refl
    obtain ⟨lease, found, own, covers⟩ := leased.covered other was before
    obtain ⟨lease', after, stays⟩ := lasts _ lease found
    rw [kept.projectIdentity, kept.epoch, kept.capability]
    exact ⟨lease', after, stays.identity.trans own, fun ordinary => stays.capability ▸ covers ordinary⟩

section
variable (sound : s.Sound) (found : s.workers w = some row) (here : s.table.objects ref = some op)
  (gate : s.gates row.projectIdentity = some (.worker w))
include sound found here gate

theorem Sound.check (setting : Setting) (now : Nat) (control : row.control = .popped ref) :
    (s.check setting w row.projectIdentity ref op now).Sound ∧
      Worked Never Never s (s.check setting w row.projectIdentity ref op now) := by
  have taken : row.control.taken = some ref := by rw [control]; rfl
  have pending : op.Pending := by
    have fits := (sound.placed.fits found taken here).2
    rwa [control] at fits
  have refused : ∀ stderr, (s.refuse setting w ref .cancelled stderr).Sound ∧
      Worked Never Never s (s.refuse setting w ref .cancelled stderr) := fun stderr =>
    have spec := sound.refuse found taken here pending gate setting stderr (.inl rfl)
    ⟨spec.1, spec.2.1⟩
  rw [Service.check]
  split
  · rename_i requested
    have cancelled : op.state = .cancelled := by
      rcases pending with queued | ⟨cancelled, _⟩
      · rw [sound.placed.quiet ref op here queued] at requested
        cases requested
      · exact cancelled
    obtain ⟨moved, settled⟩ := sound.moved found taken here (.leaving ref) rfl
      (show op.state.terminal = true by rw [cancelled]; rfl) (fun _ impossible => by cases impossible) (fun _ => gate)
    exact ⟨moved, settled.worked⟩
  · cases leased : s.leaseOf row.projectIdentity with
    | none => exact refused _
    | some lease =>
      dsimp only
      split
      · obtain ⟨one, first, row', rows, leaving⟩ := sound.refuse found taken here pending gate setting
          "operator lease ended before the operation started\n" (show _ ∨ Never _ ∧ _ from .inl rfl)
        have unchecked : (s.refuse setting w ref .cancelled "operator lease ended before the operation started\n").Unchecked
            row.projectIdentity := by
          intro v other ref' epoch op' there stands own _ _
          have held := one.gated v other there (by rw [stands]; rfl)
          rw [own] at held
          cases gate.symm.trans held
          rw [rows, Function.update_self] at there
          cases there
          rw [leaving] at stands
          cases stands
        obtain ⟨two, second⟩ := one.markRevoked row.projectIdentity unchecked
        obtain ⟨three, third⟩ := two.dropIdleLease setting row.projectIdentity
        exact ⟨three, first.settled (second.trans third)⟩
      · rename_i live
        split
        · exact refused _
        · rename_i epoch
          split
          · exact refused _
          · split
            · exact refused _
            · obtain ⟨current, held, _⟩ := sound.lease leased
              have unrevoked : lease.revoked = false := by
                simp only [Lease.ended, Bool.or_eq_true, not_or, Bool.not_eq_true] at live
                exact live.1
              obtain ⟨moved, settled⟩ := sound.moved found taken here (.checked ref lease.epoch) rfl pending
                (fun _ same => by
                  cases same
                  exact ⟨not_not.1 epoch, current, lease, held, unrevoked⟩) (fun _ => gate)
              exact ⟨moved, settled.worked⟩

/-- What holds when an operation starts: its lease is the live one, and its authorization has not expired. -/
def Startable (s : Service) (now : Nat) (op : Operation) : Prop :=
  op.state = .queued ∧ s.current op.projectIdentity = some op.admittedLeaseEpoch ∧
    (∃ lease, s.leases op.admittedLeaseEpoch = some lease ∧ lease.ended now = false) ∧ adminExpired op now = false

theorem Sound.dispatch {epoch : String} (control : row.control = .checked ref epoch) :
    (s.dispatch setting w row.projectIdentity ref epoch op now).Sound ∧
      Worked (Startable s now) Never s (s.dispatch setting w row.projectIdentity ref epoch op now) := by
  have taken : row.control.taken = some ref := by rw [control]; rfl
  obtain ⟨owner, fits⟩ := sound.placed.fits found taken here
  have pending : op.Pending := by rwa [control] at fits
  rw [Service.dispatch]
  split
  · obtain ⟨one, first, _⟩ := sound.refuse found taken here pending gate setting _ (show _ ∨ Never _ ∧ _ from .inl rfl)
    exact ⟨one, { first with
      persists := fun other op' there => by
        obtain ⟨op'', after, moves⟩ := first.persists other op' there
        refine ⟨op'', after, moves.lasts, moves.state.imp_right fun rest => rest.imp_right fun rest => ?_⟩
        rcases rest with ⟨none, _⟩ | rest
        · exact none.elim
        · exact .inr rest }⟩
  · rename_i accepted
    simp only [not_or, not_not, Bool.not_eq_true] at accepted
    obtain ⟨current, admitted, live, wanted, authorized⟩ := accepted
    have queued : op.state = .queued := by
      rcases pending with queued | ⟨_, requested⟩
      · exact queued
      · rw [wanted] at requested
        cases requested
    obtain ⟨lease, held, own, unlocked, _, idles, served⟩ := sound.leased.held _ _ current
    have idle := sound.idle_checked found control here queued
    have rewrites : Rewrites (OperationTable.At ref fun op => { op with state := .running }) s.table
        (s.table.edit ref ({ · with state := .running })) := OperationTable.edit_rewrites
    have same : op.Same { op with state := .running } := rfl
    set g : Lease → Lease := fun lease => { lease with runningOperations := lease.runningOperations + 1 } with gDef
    have leased := Leased.recount (g := g) sound.leased here rewrites same (owner ▸ current) admitted
      (fun lease' there => by
        cases held.symm.trans there
        refine ⟨⟨rfl, rfl, rfl, rfl, rfl, rfl, fun ended => ended⟩, rfl, ?_⟩
        rw [if_pos rfl]
        exact congrArg (· + 1) (idles idle))
      (fun other op' _ there busy name => idle ⟨other, op', there, busy, name.trans owner⟩)
    have written : Service.goto (s.editLease epoch g) w (.started ref) = { s with
        leases := (s.editLease epoch g).leases
        workers := update s.workers w (some { row with control := .started ref }) } := by
      rw [Service.goto, Service.editWorker, show (s.editLease epoch g).workers w = some row from found]
      rfl
    dsimp only
    rw [written]
    refine ⟨sound.turn found taken here rfl rewrites same rfl OperationState.noConfusion (fun _ => by rw [queued]; rfl)
      (fun _ impossible => by cases impossible) (fun _ => gate) leased ?_ ?_,
      turn_worked here rewrites ⟨⟨rfl, fun asked => asked, fun hidden => hidden⟩, .inr (.inr (.inl ⟨?_, queued, rfl⟩))⟩ ?_⟩
    · intro v other ref' epoch' op' _ there stands known waits
      obtain ⟨_, _, lease', before, fresh⟩ := sound.checked v other ref' epoch' op' there stands known waits
      refine ⟨_, editLease_leases.2 ⟨lease', before, rfl⟩, ?_⟩
      split <;> exact fresh
    · intro identity runs
      rcases (runs_at here rewrites same).1 runs with ⟨_, name⟩ | ⟨other, op', _, there, busy, name⟩
      · exact .inr (name ▸ owner ▸ gate)
      · exact .inl ⟨other, op', there, busy, name⟩
    · rw [held, Option.any_some] at live
      exact ⟨queued, by rw [owner, admitted, current], ⟨lease, admitted ▸ held, by simpa using live⟩, authorized⟩
    · intro other lease' before
      refine ⟨_, editLease_leases.2 ⟨lease', before, rfl⟩, ?_⟩
      split <;> exact ⟨rfl, rfl, rfl, rfl, rfl, rfl, fun ended => ended⟩

end

/-! ### After an operation started -/

section
variable (sound : s.Sound) (found : s.workers w = some row) (taken : row.control.taken = some ref)
  (here : s.table.objects ref = some op) (gate : s.gates row.projectIdentity = some (.worker w))
include sound found taken here gate

theorem Sound.endRun (setting : Setting) {state : OperationState} (result : Option OperationResult) (revoke : Bool)
    (control : Control)
    (busy : op.state = .running) (final : state.terminal = true) (holds : control.taken = some ref)
    (after : control = .leaving ref ∨ ∃ refresh, control = .finished ref refresh) :
    Sound { (s.countDown row.projectIdentity revoke).goto w control with
      table := s.table.finishOperation setting ref state result } ∧
    Worked Never Never s { (s.countDown row.projectIdentity revoke).goto w control with
      table := s.table.finishOperation setting ref state result } ∧
    ∃ row', ((s.countDown row.projectIdentity revoke).goto w control).workers = update s.workers w (some row') ∧
      row'.control = control ∧ row'.projectIdentity = row.projectIdentity := by
  obtain ⟨owner, _⟩ := sound.placed.fits found taken here
  have current := sound.leased.runs ref op here busy
  have counted : s.current row.projectIdentity = some op.admittedLeaseEpoch := owner ▸ current
  set g : Lease → Lease := fun lease =>
    { lease with runningOperations := lease.runningOperations - 1, revoked := lease.revoked || revoke } with gDef
  have written : (s.countDown row.projectIdentity revoke).goto w control = { s with
      leases := (s.editLease op.admittedLeaseEpoch g).leases
      workers := update s.workers w (some { row with control }) } := by
    rw [Service.goto, Service.editWorker, show (s.countDown row.projectIdentity revoke).workers w = some row from found,
      Service.countDown, counted]
    rfl
  have rewrites : Rewrites (OperationTable.At ref (OperationTable.settle setting state result)) s.table
      (s.table.finishOperation setting ref state result) := OperationTable.finishOperation_rewrites
  have same : op.Same (OperationTable.settle setting state result op) := rfl
  have ended : state ≠ .running ∧ state ≠ .queued := by
    constructor <;> rintro rfl <;> cases final
  have lasts : ∀ lease : Lease, lease.Lasts (g lease) := fun lease =>
    ⟨rfl, rfl, rfl, rfl, rfl, rfl, fun ended => by simp [gDef, ended]⟩
  have alone : ∀ other op', other ≠ ref → s.table.objects other = some op' → op'.state = .running →
      op'.projectIdentity ≠ op.projectIdentity := fun other op' apart there busy' name =>
    apart (sound.placed.one_running there busy' here busy name)
  have leased := Leased.recount (g := g) sound.leased here rewrites same current rfl
    (fun lease there => by
      refine ⟨lasts lease, rfl, ?_⟩
      obtain ⟨lease', there', _, _, counts, _⟩ := sound.leased.held _ _ current
      cases there.symm.trans there'
      rw [show (OperationTable.settle setting state result op).state = state from rfl, if_neg ended.1]
      show lease.runningOperations - 1 = 0
      rw [counts ⟨ref, op, here, busy, rfl⟩]) alone
  have fits : control.Fits (OperationTable.settle setting state result op) := by
    rcases after with rfl | ⟨refresh, rfl⟩ <;> exact final
  rw [written]
  refine ⟨sound.turn found taken here holds rewrites same fits ended.2 (fun open_ => ?_) (fun _ impossible => ?_) (fun _ => gate)
    leased ?_ ?_, turn_worked here rewrites ⟨⟨rfl, fun asked => asked, fun hidden => hidden⟩,
      .inr (.inr (.inr (.inl ⟨busy, final⟩)))⟩ ?_, _, rfl, rfl, rfl⟩
  · exact absurd (final.symm.trans open_) Bool.noConfusion
  · rcases after with rfl | ⟨refresh, rfl⟩ <;> cases impossible
  · intro v other ref' epoch op' apart there stands known waits
    have gated := sound.gated v other there (by rw [stands]; rfl)
    obtain ⟨_, now, lease, before, fresh⟩ := sound.checked v other ref' epoch op' there stands known waits
    have elsewhere : epoch ≠ op.admittedLeaseEpoch := by
      rintro rfl
      obtain ⟨one, first, own, _⟩ := sound.leased.held _ _ now
      obtain ⟨two, second, own', _⟩ := sound.leased.held _ _ current
      cases first.symm.trans second
      have name : other.projectIdentity = row.projectIdentity := own.symm.trans (own'.trans owner)
      rw [name, gate] at gated
      cases gated
      exact apart rfl
    exact ⟨lease, editLease_leases.2 ⟨lease, before, (if_neg elsewhere).symm⟩, fresh⟩
  · intro identity runs
    rcases (runs_at here rewrites same).1 runs with ⟨busy', _⟩ | ⟨other, op', _, there, busy', name⟩
    · exact absurd busy' ended.1
    · exact .inl ⟨other, op', there, busy', name⟩
  · intro other lease before
    refine ⟨_, editLease_leases.2 ⟨lease, before, rfl⟩, ?_⟩
    split
    · exact lasts lease
    · exact .refl lease

theorem Sound.finish (setting : Setting) (outcome : Outcome) (control : row.control = .running ref) :
    (s.finish setting w row.projectIdentity ref op outcome).Sound ∧
      Worked Never Never s (s.finish setting w row.projectIdentity ref op outcome) := by
  have busy : op.state = .running := by
    have fits := (sound.placed.fits found taken here).2
    rwa [control] at fits
  have final : (outcome.state op).terminal = true := by
    rw [Outcome.state]
    split
    · rfl
    · split
      · rfl
      · split <;> rfl
  rw [Service.finish]
  dsimp only
  set refresh := if op.commandPath = "context.set" ∧ outcome.state op = .completed then
    (s.current row.projectIdentity).filter fun epoch =>
      ((s.countDown row.projectIdentity outcome.cleanupFailed).leases epoch).any (¬ ·.revoked) else none
  obtain ⟨one, first, _⟩ := sound.endRun found taken here gate setting
    (some ⟨outcome.result.exitCode, outcome.result.stdout, setting.redactSecretText outcome.result.stderr⟩)
    outcome.cleanupFailed (.finished ref refresh) busy final rfl (.inr ⟨refresh, rfl⟩)
  cases leaseEndingReason op.commandPath with
  | none => exact ⟨one, first⟩
  | some reason =>
    obtain ⟨two, second⟩ := one.revokeLease setting row.projectIdentity reason
    exact ⟨two, first.settled second⟩

omit found taken here gate in
theorem Sound.dropEnded (setting : Setting) (identity : String) (now : Nat) :
    (s.dropEnded setting identity now).Sound ∧ Settled s (s.dropEnded setting identity now) := by
  rw [Service.dropEnded]
  split
  · exact sound.dropIdleLease setting identity
  · exact ⟨sound, .refl s⟩

theorem Sound.recover (setting : Setting) (stderr : String) (now : Nat) (control : row.control = .recovering ref) :
    (s.recover setting w row.projectIdentity ref op stderr now).Sound ∧
      Worked Never Never s (s.recover setting w row.projectIdentity ref op stderr now) := by
  have fits : op.state = .running ∨ op.state.terminal = true := by
    have fits := (sound.placed.fits found taken here).2
    rwa [control] at fits
  rw [Service.recover]
  rcases fits with busy | final
  · obtain ⟨one, first, _⟩ := sound.endRun found taken here gate setting (some ⟨1, "", stderr⟩) false
      (.leaving ref) busy (show OperationState.terminal .resultUnknown = true from rfl) rfl (.inl rfl)
    obtain ⟨two, second⟩ := one.dropEnded setting row.projectIdentity now
    rw [if_pos busy, if_neg (by rw [busy]; exact Bool.noConfusion)]
    exact ⟨two, first.settled second⟩
  · have idle : op.state ≠ .running := by
      intro busy
      rw [busy] at final
      cases final
    obtain ⟨one, first⟩ := sound.moved found taken here (.leaving ref) rfl final (fun _ impossible => by cases impossible)
      (fun _ => gate)
    obtain ⟨two, second⟩ := one.dropEnded setting row.projectIdentity now
    rw [if_neg idle, if_pos final]
    exact ⟨two, (first.trans second).worked⟩

theorem Sound.failRefresh {epoch : String} (control : row.control = .finished ref (some epoch)) :
    (s.failRefresh setting w row.projectIdentity ref epoch).Sound ∧
      Settled s (s.failRefresh setting w row.projectIdentity ref epoch) := by
  have final : op.state.terminal = true := by
    have fits := (sound.placed.fits found taken here).2
    rwa [control] at fits
  obtain ⟨one, first⟩ := sound.moved found taken here (.finished ref none) rfl final
    (fun _ impossible => by cases impossible) (fun _ => gate)
  rw [Service.failRefresh]
  split
  · obtain ⟨two, second⟩ := one.revokeLease setting row.projectIdentity "operator scope could not be refreshed"
    exact ⟨two, first.trans second⟩
  · exact ⟨one, first⟩

omit sound taken here in
theorem Sound.ungrip {control : Control} (moved : (s.goto w control).Sound) (opened : control.gated = false) :
    ((s.goto w control).grip row.projectIdentity none).Sound ∧
      Settled (s.goto w control) ((s.goto w control).grip row.projectIdentity none) := by
  refine moved.grip none (fun v other there inside same => ?_) (fun _ impossible => by cases impossible)
  have held : s.gates other.projectIdentity = some (.worker v) := moved.gated v other there inside
  rw [same, gate] at held
  cases held
  rw [Service.goto, Service.editWorker, found] at there
  have own := (Function.update_self w (some { row with control }) s.workers).symm.trans there
  cases own
  rw [show ({ row with control } : Worker).control = control from rfl, opened] at inside
  cases inside

omit gate in
theorem Sound.letGo (final : op.state.terminal = true) : (s.goto w .idle).Sound ∧ Settled s (s.goto w .idle) := by
  have written : s.goto w .idle = { s with workers := update s.workers w (some { row with control := .idle }) } := by
    rw [Service.goto, Service.editWorker, found]
    rfl
  rw [written]
  refine sound.redirected found (sound.placed.rework found rfl (fun _ member => member) ?_ (fun other inside => ?_)
    (fun _ impossible => by cases impossible) (fun other inside => ?_)) (fun _ _ _ never => by cases never) (fun never => by cases never)
  · exact List.Nodup.sublist (List.sublist_append_right _ _) (sound.placed.distinct w row found)
  · rcases mem_held.1 inside with impossible | member
    · cases impossible
    · exact mem_held.2 (.inr member)
  · rcases mem_held.1 inside with own | member
    · cases taken.symm.trans own
      exact .inr fun op' there => by cases here.symm.trans there; exact final
    · exact .inl (mem_held.2 (.inr member))

end

theorem Sound.pop {rest : List Nat} (sound : s.Sound) (found : s.workers w = some row) (control : row.control = .idle)
    (queue : row.queue = ref :: rest) :
    (s.editWorker w ({ · with queue := rest, control := .popped ref })).Sound ∧
      Settled s (s.editWorker w ({ · with queue := rest, control := .popped ref })) := by
  have written : s.editWorker w ({ · with queue := rest, control := .popped ref }) =
      { s with workers := update s.workers w (some { row with queue := rest, control := .popped ref }) } := by
    rw [Service.editWorker, found]
    rfl
  have heldSame : ({ row with queue := rest, control := .popped ref } : Worker).held = row.held := by
    rw [Worker.held, Worker.held, control, queue]
    rfl
  rw [written]
  refine sound.redirected found (sound.placed.rework found rfl (fun other member => queue ▸ List.mem_cons_of_mem _ member)
    (heldSame ▸ sound.placed.distinct w row found) (fun other inside => heldSame ▸ inside) (fun other inside => ?_)
    (fun other inside => .inl (heldSame.symm ▸ inside))) (fun _ _ _ never => by cases never) (fun never => by cases never)
  cases inside
  exact sound.placed.queued w row ref found (queue ▸ List.mem_cons_self)

end Service

end Kassiber.Operator

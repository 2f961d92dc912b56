import Kassiber.Operator.Placement

/-!
The invariant of the service and how the blocks that end a lease keep it: the current lease of a project
counts its running operation, has its passphrase and a worker, and an operation runs under the lease that
admitted it.
-/

namespace Kassiber.Operator
open Lib.Keyed Function Option

def OperationTable.Runs (table : OperationTable) (identity : String) : Prop :=
  ∃ ref op, table.objects ref = some op ∧ op.state = .running ∧ op.projectIdentity = identity

structure Leased (table : OperationTable) (leases : String → Option Lease) (current : String → Option String)
    (registered : List (String × Nat)) : Prop where
  named : ∀ epoch lease, leases epoch = some lease → lease.epoch = epoch
  held : ∀ identity epoch, current identity = some epoch → ∃ lease, leases epoch = some lease ∧
    lease.project.identity = identity ∧ lease.passphrase.isSome = true ∧ (table.Runs identity → lease.runningOperations = 1) ∧
    (¬ table.Runs identity → lease.runningOperations = 0) ∧ (registeredAt registered identity).isSome = true
  runs : ∀ ref op, table.objects ref = some op → op.state = .running →
    current op.projectIdentity = some op.admittedLeaseEpoch
  covered : ∀ ref op, table.objects ref = some op → ∃ lease, leases op.admittedLeaseEpoch = some lease ∧
    lease.project.identity = op.projectIdentity ∧
    (op.capability ≠ .admin → capabilityAllows lease.capability op.capability = true)

def Control.gated : Control → Bool
  | .checked _ _ | .started _ | .finished _ _ | .leaving _ => true
  | _ => false

structure Service.Sound (s : Service) : Prop where
  placed : Placed s.table s.workers s.registered
  leased : Leased s.table s.leases s.current s.registered
  checked : ∀ w row ref epoch op, s.workers w = some row → row.control = .checked ref epoch →
    s.table.objects ref = some op → op.state = .queued → op.admittedLeaseEpoch = epoch ∧
    s.current row.projectIdentity = some epoch ∧ ∃ lease, s.leases epoch = some lease ∧ lease.revoked = false
  gated : ∀ w row, s.workers w = some row → row.control.gated = true → s.gates row.projectIdentity = some (.worker w)
  unlocking : ∀ identity previous, s.gates identity = some (.unlock previous) → ¬ s.table.Runs identity
  numbered : ∀ ref op, s.table.objects ref = some op → ref ≤ s.sequence
  drawn : ∀ a authorization, s.authorizations a = some authorization → a < s.issued
  spawned : ∀ w row, s.workers w = some row → w < s.spawned

structure Lease.Lasts (lease lease' : Lease) : Prop where
  epoch : lease'.epoch = lease.epoch
  identity : lease'.project.identity = lease.project.identity
  database : lease'.databaseIdentity = lease.databaseIdentity
  capability : lease'.capability = lease.capability
  agentScope : lease'.agentScope = lease.agentScope
  control : lease'.agentControlDigest = lease.agentControlDigest
  revoked : lease.revoked = true → lease'.revoked = true

theorem Lease.Lasts.refl (lease : Lease) : lease.Lasts lease := ⟨rfl, rfl, rfl, rfl, rfl, rfl, fun ended => ended⟩

theorem Lease.Lasts.trans {lease lease' lease'' : Lease} (first : lease.Lasts lease') (second : lease'.Lasts lease'') :
    lease.Lasts lease'' :=
  ⟨second.epoch.trans first.epoch, second.identity.trans first.identity, second.database.trans first.database,
    second.capability.trans first.capability, second.agentScope.trans first.agentScope,
    second.control.trans first.control, fun ended => second.revoked (first.revoked ended)⟩

def AdminAuthorization.Lasts (authorization authorization' : AdminAuthorization) : Prop :=
  authorization' = { authorization with consumed := authorization'.consumed } ∧
    (authorization.consumed = true → authorization'.consumed = true)

def AgentSession.Lasts (session session' : AgentSession) : Prop := session' = { session with calls := session'.calls }

def Service.Over (s : Service) (identity epoch : String) : Prop :=
  s.current identity = some epoch → ∃ lease, s.leases epoch = some lease ∧ lease.revoked = true

/-- Old operations go on by a relation, new operations and agent sessions satisfy a predicate, leases and
authorizations last, a project's lease changes for a new one only, and denials are forgotten with their lease. -/
structure Evolves (rel : Operation → Operation → Prop) (new : Nat → Operation → Prop) (novel : AgentSession → Prop)
    (s t : Service) : Prop where
  persists : ∀ ref op, s.table.objects ref = some op → ∃ op', t.table.objects ref = some op' ∧ rel op op'
  appears : ∀ ref op, s.table.objects ref = none → t.table.objects ref = some op → new ref op
  retained : ∀ ref ∈ t.table.retained, ref ∈ s.table.retained ∨ s.table.objects ref = none
  leases : ∀ epoch lease, s.leases epoch = some lease → ∃ lease', t.leases epoch = some lease' ∧ lease.Lasts lease'
  current : ∀ identity epoch, t.current identity = some epoch → s.current identity = some epoch ∨ s.leases epoch = none
  authorizations : ∀ a authorization, s.authorizations a = some authorization →
    ∃ authorization', t.authorizations a = some authorization' ∧ authorization.Lasts authorization'
  sessions : ∀ session' ∈ t.sessions, (∃ session ∈ s.sessions, session.Lasts session') ∨ novel session'
  denials : ∀ denial ∈ s.denials, (s.leases denial.2.1).isSome = true → denial ∈ t.denials ∨ t.Over denial.1 denial.2.1
  distinct : (s.sessions.map AgentSession.id).Nodup → (t.sessions.map AgentSession.id).Nodup

def Nothing (_ : Nat) (_ : Operation) : Prop := False

def NoSession (_ : AgentSession) : Prop := False

section
variable {rel rel' rel'' : Operation → Operation → Prop} {new : Nat → Operation → Prop} {novel : AgentSession → Prop}
  {s t u : Service}

theorem Service.Over.evolves {identity epoch : String} (over_ : s.Over identity epoch)
    (evolves : Evolves rel new novel s t) (known : (s.leases epoch).isSome = true) : t.Over identity epoch := by
  intro now
  rcases evolves.current identity epoch now with before | fresh
  · obtain ⟨lease, here, revoked⟩ := over_ before
    obtain ⟨lease', there, lasts⟩ := evolves.leases epoch lease here
    exact ⟨lease', there, lasts.revoked revoked⟩
  · rw [fresh] at known
    cases known

theorem Evolves.trans (first : Evolves rel Nothing NoSession s t) (second : Evolves rel' new novel t u)
    (composed : ∀ a b c, rel a b → rel' b c → rel'' a c) : Evolves rel'' new novel s u where
  persists ref op here := by
    obtain ⟨op', there, one⟩ := first.persists ref op here
    obtain ⟨op'', last, two⟩ := second.persists ref op' there
    exact ⟨op'', last, composed op op' op'' one two⟩
  appears ref op absent here := by
    refine second.appears ref op ?_ here
    cases middle : t.table.objects ref with
    | none => rfl
    | some op' => exact (first.appears ref op' absent middle).elim
  retained ref member := by
    rcases second.retained ref member with before | absent
    · exact first.retained ref before
    · right
      cases was : s.table.objects ref with
      | none => rfl
      | some op =>
        obtain ⟨op', there, _⟩ := first.persists ref op was
        rw [absent] at there
        cases there
  leases epoch lease here := by
    obtain ⟨lease', there, one⟩ := first.leases epoch lease here
    obtain ⟨lease'', last, two⟩ := second.leases epoch lease' there
    exact ⟨lease'', last, one.trans two⟩
  current identity epoch now := by
    rcases second.current identity epoch now with before | fresh
    · exact first.current identity epoch before
    · right
      cases known : s.leases epoch with
      | none => rfl
      | some lease =>
        obtain ⟨lease', there, _⟩ := first.leases epoch lease known
        rw [fresh] at there
        cases there
  authorizations a authorization here := by
    obtain ⟨middle, there, same, spent⟩ := first.authorizations a authorization here
    obtain ⟨final, last, same', spent'⟩ := second.authorizations a middle there
    refine ⟨final, last, ?_, fun consumed => spent' (spent consumed)⟩
    rw [same] at same'
    exact same'
  sessions session'' member := by
    rcases second.sessions session'' member with ⟨session', member', two⟩ | novelty
    · rcases first.sessions session' member' with ⟨session, member, one⟩ | impossible
      · refine .inl ⟨session, member, ?_⟩
        rw [AgentSession.Lasts] at one two ⊢
        rw [one] at two
        exact two
      · exact impossible.elim
    · exact .inr novelty
  denials denial member known := by
    have later : (t.leases denial.2.1).isSome = true := by
      obtain ⟨lease, here⟩ := isSome_iff_exists.1 known
      obtain ⟨lease', there, _⟩ := first.leases _ lease here
      rw [there]
      rfl
    rcases first.denials denial member known with kept | ended
    · exact second.denials denial kept later
    · exact .inr (ended.evolves second later)
  distinct nodup := second.distinct (first.distinct nodup)

end

abbrev Settled (s t : Service) : Prop := Evolves Operation.Settles Nothing NoSession s t

theorem Settled.of_same {s t : Service} (table : t.table = s.table)
    (leases : ∀ epoch lease, s.leases epoch = some lease → ∃ lease', t.leases epoch = some lease' ∧ lease.Lasts lease')
    (current : ∀ identity epoch, t.current identity = some epoch → s.current identity = some epoch ∨ s.leases epoch = none)
    (authorizations : t.authorizations = s.authorizations)
    (sessions : ∀ session' ∈ t.sessions, ∃ session ∈ s.sessions, session.Lasts session')
    (denials : ∀ denial ∈ s.denials, denial ∈ t.denials ∨ t.Over denial.1 denial.2.1)
    (distinct : (t.sessions.map AgentSession.id).Sublist (s.sessions.map AgentSession.id)) : Settled s t where
  persists ref op here := ⟨op, table ▸ here, .refl op⟩
  appears ref op absent here := by
    rw [table, absent] at here
    cases here
  retained ref member := .inl (table ▸ member)
  leases := leases
  current := current
  authorizations a authorization here := ⟨authorization, authorizations ▸ here, rfl, fun spent => spent⟩
  sessions session member := .inl (sessions session member)
  denials denial member _ := denials denial member
  distinct := List.Nodup.sublist distinct

theorem Settled.refl (s : Service) : Settled s s :=
  .of_same rfl (fun _ lease here => ⟨lease, here, .refl lease⟩) (fun _ _ => .inl) rfl
    (fun session member => ⟨session, member, rfl⟩) (fun _ => .inl) (List.Sublist.refl _)

theorem Settled.trans {s t u : Service} (first : Settled s t) (second : Settled t u) : Settled s u :=
  Evolves.trans first second fun _ _ _ one two => one.trans two

section
variable {table table' : OperationTable} {identity : String}

theorem runs_settle (settles : Rewrites (fun _ => Operation.Settles) table table') :
    table'.Runs identity ↔ table.Runs identity := by
  constructor
  · rintro ⟨ref, op', there, runs, owner⟩
    obtain ⟨op, here, kept⟩ := settles.source there
    rcases kept.state with ⟨same, _⟩ | ⟨_, cancelled, _⟩
    · exact ⟨ref, op, here, same ▸ runs, kept.lasts.same.projectIdentity ▸ owner⟩
    · rw [runs] at cancelled
      cases cancelled
  · rintro ⟨ref, op, here, runs, owner⟩
    obtain ⟨op', there, kept⟩ := settles.present ref op here
    rcases kept.state with ⟨same, _⟩ | ⟨queued, _⟩
    · exact ⟨ref, op', there, same.trans runs, kept.lasts.same.projectIdentity.trans owner⟩
    · rw [runs] at queued
      cases queued

end

namespace Service
variable {s : Service} {identity : String} {now : Nat} (setting : Setting)

theorem leaseOf_eq_some {lease : Lease} (found : s.leaseOf identity = some lease) :
    ∃ epoch, s.current identity = some epoch ∧ s.leases epoch = some lease := bind_eq_some_iff.1 found

variable (sound : s.Sound)
include sound

theorem Sound.lease {lease : Lease} (found : s.leaseOf identity = some lease) :
    s.current identity = some lease.epoch ∧ s.leases lease.epoch = some lease ∧ lease.project.identity = identity ∧
      lease.passphrase.isSome = true ∧ (s.table.Runs identity ↔ lease.runningOperations ≠ 0) := by
  obtain ⟨epoch, now, here⟩ := leaseOf_eq_some found
  obtain ⟨lease', there, own, unlocked, busy, idle, _⟩ := sound.leased.held identity epoch now
  cases here.symm.trans there
  have name := sound.leased.named epoch lease here
  subst name
  refine ⟨now, here, own, unlocked, fun runs => by rw [busy runs]; exact Nat.one_ne_zero, fun counted => ?_⟩
  by_contra still
  exact counted (idle still)

variable {epoch : String}

theorem Sound.leaseOf_current (now : s.current identity = some epoch) :
    ∃ lease, s.leaseOf identity = some lease ∧ lease.epoch = epoch := by
  obtain ⟨lease, here, _⟩ := sound.leased.held identity epoch now
  exact ⟨lease, by rw [leaseOf, now]; exact here, sound.leased.named epoch lease here⟩

theorem Sound.settle {table : OperationTable} (settles : Rewrites (fun _ => Operation.Settles) s.table table) :
    Sound { s with table } ∧ Settled s { s with table } := by
  refine ⟨⟨sound.placed.settle settles, ?_, ?_, sound.gated, ?_, ?_, sound.drawn, sound.spawned⟩, ?_⟩
  · refine ⟨sound.leased.named, fun identity epoch now => ?_, fun ref op' there runs => ?_, fun ref op' there => ?_⟩
    · obtain ⟨lease, here, own, unlocked, busy, idle, served⟩ := sound.leased.held identity epoch now
      exact ⟨lease, here, own, unlocked, fun runs => busy ((runs_settle settles).1 runs),
        fun still => idle fun runs => still ((runs_settle settles).2 runs), served⟩
    · obtain ⟨op, here, kept⟩ := settles.source there
      rw [kept.lasts.same.projectIdentity, kept.lasts.same.epoch]
      rcases kept.state with ⟨same, _⟩ | ⟨_, cancelled, _⟩
      · exact sound.leased.runs ref op here (same ▸ runs)
      · rw [runs] at cancelled
        cases cancelled
    · obtain ⟨op, here, kept⟩ := settles.source there
      rw [kept.lasts.same.projectIdentity, kept.lasts.same.epoch, kept.lasts.same.capability]
      exact sound.leased.covered ref op here
  · intro w row ref epoch op' found control there queued
    obtain ⟨op, here, kept⟩ := settles.source there
    rw [kept.lasts.same.epoch]
    rcases kept.state with ⟨same, _⟩ | ⟨_, cancelled, _⟩
    · exact sound.checked w row ref epoch op found control here (same ▸ queued)
    · rw [queued] at cancelled
      cases cancelled
  · exact fun identity previous held runs => sound.unlocking identity previous held ((runs_settle settles).1 runs)
  · intro ref op' there
    obtain ⟨op, here, _⟩ := settles.source there
    exact sound.numbered ref op here
  · exact { Settled.refl s with
      persists := settles.present
      appears := fun ref op absent here => by
        rw [settles.absent ref absent] at here
        cases here
      retained := fun ref member => .inl (settles.retained ref member) }

theorem Sound.aside {t : Service} (same : t = { s with aliases := t.aliases, sessions := t.sessions, denials := t.denials }) :
    t.Sound := by
  rw [same]
  exact ⟨sound.placed, sound.leased, sound.checked, sound.gated, sound.unlocking, sound.numbered, sound.drawn, sound.spawned⟩

theorem Sound.closeAgentSessions (identity : String) (ended : ∀ epoch, s.Over identity epoch) :
    (s.closeAgentSessions identity).Sound ∧ Settled s (s.closeAgentSessions identity) := by
  refine ⟨sound.aside rfl, .of_same rfl (fun _ lease here => ⟨lease, here, .refl lease⟩) (fun _ _ => .inl) rfl
    (fun session member => ⟨session, List.mem_of_mem_filter member, rfl⟩) (fun denial member => ?_)
    (List.filter_sublist.map _)⟩
  by_cases own : denial.1 = identity
  · exact .inr (own ▸ ended denial.2.1)
  · exact .inl (List.mem_filter.2 ⟨member, by simpa using own⟩)

omit sound in
theorem editLease_leases {epoch other : String} {f : Lease → Lease} {lease' : Lease} :
    (s.editLease epoch f).leases other = some lease' ↔
      ∃ lease, s.leases other = some lease ∧ lease' = if other = epoch then f lease else lease := by
  rw [editLease]
  by_cases same : other = epoch
  · subst same
    simp [eq_comm]
  · simp [same]

theorem Sound.editLease (epoch : String) {f : Lease → Lease}
    (keeps : ∀ lease, s.leases epoch = some lease → lease.Lasts (f lease) ∧ (f lease).passphrase = lease.passphrase ∧
      (f lease).runningOperations = lease.runningOperations)
    (unchecked : ∀ lease, s.leases epoch = some lease → (f lease).revoked = true → lease.revoked = true ∨
      ∀ w row ref op, s.workers w = some row → row.control = .checked ref epoch → s.table.objects ref = some op →
        op.state ≠ .queued) :
    (s.editLease epoch f).Sound ∧ Settled s (s.editLease epoch f) := by
  have lasts : ∀ other lease, s.leases other = some lease →
      ∃ lease', (s.editLease epoch f).leases other = some lease' ∧ lease.Lasts lease' ∧
        lease'.passphrase = lease.passphrase ∧ lease'.runningOperations = lease.runningOperations := by
    intro other lease here
    refine ⟨_, editLease_leases.2 ⟨lease, here, rfl⟩, ?_⟩
    split
    · rename_i same
      subst same
      exact keeps lease here
    · exact ⟨.refl lease, rfl, rfl⟩
  refine ⟨⟨sound.placed, ⟨?_, ?_, sound.leased.runs, ?_⟩, ?_, sound.gated, sound.unlocking, sound.numbered, sound.drawn, sound.spawned⟩, ?_⟩
  · intro other lease' there
    obtain ⟨lease, here, written⟩ := editLease_leases.1 there
    obtain ⟨found, after, kept, _⟩ := lasts other lease here
    cases there.symm.trans after
    exact kept.epoch.trans (sound.leased.named other lease here)
  · intro identity other now
    obtain ⟨lease, here, own, unlocked, busy, idle, served⟩ := sound.leased.held identity other now
    obtain ⟨lease', there, kept, passphrase, counted⟩ := lasts other lease here
    exact ⟨lease', there, kept.identity.trans own, passphrase ▸ unlocked, fun runs => counted.trans (busy runs),
      fun still => counted.trans (idle still), served⟩
  · intro ref op here
    obtain ⟨lease, found, own, covers⟩ := sound.leased.covered ref op here
    obtain ⟨lease', there, kept, _⟩ := lasts _ lease found
    exact ⟨lease', there, kept.identity.trans own, fun ordinary => kept.capability ▸ covers ordinary⟩
  · intro w row ref other op found control here queued
    obtain ⟨own, now, lease, held, live⟩ := sound.checked w row ref other op found control here queued
    refine ⟨own, now, _, editLease_leases.2 ⟨lease, held, rfl⟩, ?_⟩
    split
    · rename_i same
      subst same
      by_contra revoked
      rcases unchecked lease held (by simpa using revoked) with before | none
      · rw [before] at live
        cases live
      · exact none w row ref op found control here queued
    · exact live
  · refine .of_same rfl (fun other lease here => ?_) (fun _ _ => .inl) rfl
      (fun session member => ⟨session, member, rfl⟩) (fun _ => .inl) (List.Sublist.refl _)
    obtain ⟨lease', there, kept, _⟩ := lasts other lease here
    exact ⟨lease', there, kept⟩

theorem Sound.idle_checked {w ref : Nat} {row : Worker} {op : Operation} (found : s.workers w = some row)
    (control : row.control = .checked ref epoch) (here : s.table.objects ref = some op) (queued : op.state = .queued) :
    ¬ s.table.Runs row.projectIdentity := by
  rintro ⟨other, op', there, runs, owner⟩
  have taken : row.control.taken = some ref := by rw [control]; rfl
  have own := sound.placed.registered_of_held found (mem_held.2 (.inl taken)) here (by rw [queued]; rfl)
  obtain ⟨w', row', own', found', taken', fits⟩ := sound.placed.running_taken there runs
  rw [(sound.placed.fits found taken here).1, ← owner, own'] at own
  cases own
  cases found.symm.trans found'
  rw [control] at fits
  rcases (fits : op'.state = .queued ∨ op'.state = .cancelled ∧ op'.cancellationRequested = true) with waits | ⟨cancelled, _⟩
  · rw [runs] at waits
    cases waits
  · rw [runs] at cancelled
    cases cancelled

/-- None of the project's queued operations has passed its worker's check. -/
def Unchecked (s : Service) (identity : String) : Prop :=
  ∀ w row ref epoch op, s.workers w = some row → row.control = .checked ref epoch → row.projectIdentity = identity →
    s.table.objects ref = some op → op.state ≠ .queued

theorem Sound.unchecked_of_runs (runs : s.table.Runs identity) : s.Unchecked identity := by
  rintro w row ref epoch op found control rfl here queued
  exact sound.idle_checked found control here queued runs

theorem Sound.unchecked_of_unqueued
    (unqueued : ∀ ref op, s.table.objects ref = some op → op.projectIdentity = identity → op.state ≠ .queued) :
    s.Unchecked identity := by
  intro w row ref epoch op found control own here
  have taken : row.control.taken = some ref := by rw [control]; rfl
  exact unqueued ref op here ((sound.placed.fits found taken here).1.trans own)

theorem Sound.markRevoked (identity : String) (unchecked : s.Unchecked identity) :
    (s.markRevoked identity).Sound ∧ Settled s (s.markRevoked identity) := by
  rw [Service.markRevoked]
  cases now : s.current identity with
  | none => exact ⟨sound, .refl s⟩
  | some epoch =>
    show (s.editLease epoch _).Sound ∧ Settled s (s.editLease epoch _)
    refine sound.editLease epoch (fun lease _ => ⟨⟨rfl, rfl, rfl, rfl, rfl, rfl, fun _ => rfl⟩, rfl, rfl⟩)
      (fun lease here _ => .inr fun w row ref op found control there queued => ?_)
    obtain ⟨_, held, _⟩ := sound.checked w row ref epoch op found control there queued
    obtain ⟨one, here', own', _⟩ := sound.leased.held _ _ held
    obtain ⟨two, there', own, _⟩ := sound.leased.held _ _ now
    cases here'.symm.trans there'
    exact unchecked w row ref epoch op found control (own'.symm.trans own) there queued

theorem Sound.over_marked (identity epoch : String) : (s.markRevoked identity).Over identity epoch := by
  intro now
  obtain ⟨lease, here, _⟩ := sound.leased.held identity epoch now
  refine ⟨{ lease with revoked := true }, ?_, rfl⟩
  rw [Service.markRevoked, show s.current identity = some epoch from now]
  exact editLease_leases.2 ⟨lease, here, (if_pos rfl).symm⟩

omit sound in
theorem drain_placed (identity : String) (stop : Bool) {table : OperationTable} (placed : Placed table s.workers s.registered)
    (unqueued : ∀ ref op, table.objects ref = some op → op.projectIdentity = identity → op.state ≠ .queued) :
    Placed table (s.drain identity stop).workers s.registered ∧ ∀ w row', (s.drain identity stop).workers w = some row' →
      ∃ row, s.workers w = some row ∧ row'.control = row.control ∧ row'.projectIdentity = row.projectIdentity := by
  rw [drain]
  cases own : s.workerFor identity with
  | none => exact ⟨placed, fun w row found => ⟨row, found, rfl, rfl⟩⟩
  | some w =>
    obtain ⟨row, found, named⟩ := placed.known identity w own
    dsimp only [Option.elim, editWorker]
    rw [found, map_some]
    refine ⟨?_, fun v row' there => ?_⟩
    · refine placed.rework found rfl (fun ref member => by cases member) ?_ ?_ (fun ref taken => ?_) (fun ref held => ?_)
      · exact List.Nodup.sublist (List.sublist_append_left _ _) (placed.distinct w row found)
          |> fun distinct => by rwa [Worker.held, List.append_nil]
      · intro ref held
        rcases mem_held.1 held with taken | member
        · exact mem_held.2 (.inl taken)
        · cases member
      · exact placed.taken w row ref found taken
      · rcases mem_held.1 held with taken | member
        · exact .inl (mem_held.2 (.inl taken))
        · refine .inr fun op here => ?_
          obtain ⟨op', there, owner, pending⟩ := placed.queued w row ref found member
          cases here.symm.trans there
          rcases pending with queued | ⟨cancelled, _⟩
          · exact absurd queued (unqueued ref op here (owner.trans named))
          · rw [cancelled]
            rfl
    · rcases update_some there with ⟨rfl, rfl⟩ | ⟨-, there⟩
      · exact ⟨row, found, rfl, rfl⟩
      · exact ⟨row', there, rfl, rfl⟩

theorem Sound.unqueued (identity reason : String) {ref : Nat} {op : Operation}
    (here : (s.table.cancelQueued setting (fun op => decide (op.projectIdentity = identity)) reason).objects ref = some op)
    (owner : op.projectIdentity = identity) : op.state ≠ .queued := by
  intro queued
  obtain ⟨was, before, kept⟩ := OperationTable.cancelQueued_settles.source here
  have unfinished : was.state.terminal = false := OperationTable.settles_unfinished kept (by rw [queued]; rfl)
  exact OperationTable.cancelQueued_none (sound.placed.live ref was before unfinished).1 here (by simpa using owner) queued

omit sound in
theorem dropLease_eq (now : s.current identity = some epoch) : s.dropLease setting identity = { s with
    leases := (s.editLease epoch ({ · with passphrase := none })).leases
    current := update s.current identity none
    aliases := fun path => if s.aliases path = some identity then none else s.aliases path
    table := s.table.cancelQueued setting (fun op => decide (op.projectIdentity = identity)) "operator lease ended\n"
    workers := (s.drain identity true).workers
    registered := s.registered.filter (·.1 ≠ identity) } := by
  rw [Service.dropLease, now]
  rfl

theorem Sound.dropLease (identity : String) (idle : ¬ s.table.Runs identity) :
    (s.dropLease setting identity).Sound ∧ Settled s (s.dropLease setting identity) := by
  cases now : s.current identity with
  | none =>
    rw [Service.dropLease, now]
    exact ⟨sound, .refl s⟩
  | some epoch =>
    rw [dropLease_eq setting now]
    have settles : Rewrites (fun _ => Operation.Settles) s.table
        (s.table.cancelQueued setting (fun op => decide (op.projectIdentity = identity)) "operator lease ended\n") :=
      OperationTable.cancelQueued_settles
    have unqueued : ∀ ref op, (s.table.cancelQueued setting (fun op => decide (op.projectIdentity = identity))
        "operator lease ended\n").objects ref = some op → op.projectIdentity = identity → op.state ≠ .queued :=
      fun ref op here owner => sound.unqueued setting _ _ here owner
    obtain ⟨⟨placed, leased, checked, gated, unlocking, numbered, drawn, spawned⟩, settled⟩ := sound.settle settles
    have unrun := fun runs => idle ((runs_settle settles).1 runs)
    obtain ⟨drained, kept⟩ := drain_placed identity true placed unqueued
    obtain ⟨lease, here, own, _⟩ := sound.leased.held identity epoch now
    have elsewhere : ∀ {name other}, update s.current identity none name = some other →
        name ≠ identity ∧ s.current name = some other := by
      intro name other there
      by_cases same : name = identity
      · rw [same, update_self] at there
        cases there
      · rw [update_of_ne same] at there
        exact ⟨same, there⟩
    have others : ∀ {name other}, name ≠ identity → s.current name = some other → other ≠ epoch := by
      rintro name other apart there rfl
      obtain ⟨lease', here', own', _⟩ := sound.leased.held name other there
      cases here.symm.trans here'
      exact apart (own'.symm.trans own)
    refine ⟨⟨drained.unregister ?_, ⟨?_, ?_, ?_, ?_⟩, ?_, ?_, ?_, numbered, drawn, ?_⟩, ?_⟩
    · intro ref op there owner
      cases state : op.state with
      | queued => exact absurd state (unqueued ref op there owner)
      | running => exact absurd ⟨ref, op, there, state, owner⟩ unrun
      | _ => rfl
    · intro other lease' there
      obtain ⟨before, found, rfl⟩ := editLease_leases.1 there
      split <;> exact sound.leased.named other before found
    · intro name other there
      obtain ⟨apart, there⟩ := elsewhere there
      obtain ⟨lease', found, own', unlocked, busy, still, served⟩ := leased.held name other there
      refine ⟨lease', editLease_leases.2 ⟨lease', found, by rw [if_neg (others apart there)]⟩, own', unlocked, busy, still, ?_⟩
      rw [← served]
      exact congrArg isSome (registeredAt_filter apart)
    · intro ref op there runs
      refine (update_of_ne ?_ ..).trans (leased.runs ref op there runs)
      exact fun same => unrun ⟨ref, op, there, runs, same⟩
    · intro ref op there
      obtain ⟨lease', found, own', covers⟩ := leased.covered ref op there
      refine ⟨_, editLease_leases.2 ⟨lease', found, rfl⟩, ?_⟩
      split <;> exact ⟨own', covers⟩
    · intro w row ref other op found control there queued
      obtain ⟨row', found', same, owner⟩ := kept w row found
      obtain ⟨epoch', now', lease', live, fresh⟩ := checked w row' ref other op found' (same ▸ control) there queued
      have apart : row'.projectIdentity ≠ identity := fun equal => unqueued ref op there
        ((placed.fits found' (by rw [← same, control]; rfl) there).1.trans equal) queued
      refine ⟨epoch', ?_, lease', editLease_leases.2 ⟨lease', live, by rw [if_neg (others apart now')]⟩, fresh⟩
      rw [owner]
      exact (update_of_ne apart ..).trans now'
    · intro w row found inside
      obtain ⟨row', found', same, owner⟩ := kept w row found
      rw [owner]
      exact gated w row' found' (same ▸ inside)
    · exact unlocking
    · intro w row found
      obtain ⟨row', found', _⟩ := kept w row found
      exact spawned w row' found'
    · refine { settled with
        leases := fun other lease' there => ⟨_, editLease_leases.2 ⟨lease', there, rfl⟩, ?_⟩
        current := fun name other there => .inl (elsewhere there).2
        denials := fun denial member _ => .inl member }
      split <;> exact ⟨rfl, rfl, rfl, rfl, rfl, rfl, fun ended => ended⟩

omit sound in
theorem Sound.reworked {workers : Nat → Option Worker} (sound : s.Sound) (placed : Placed s.table workers s.registered)
    (kept : ∀ w row', workers w = some row' →
      ∃ row, s.workers w = some row ∧ row'.control = row.control ∧ row'.projectIdentity = row.projectIdentity) :
    Sound { s with workers } ∧ Settled s { s with workers } := by
  refine ⟨⟨placed, sound.leased, ?_, ?_, sound.unlocking, sound.numbered, sound.drawn, ?_⟩, { Settled.refl s with }⟩
  · intro w row ref epoch op found control here queued
    obtain ⟨row', found', same, owner⟩ := kept w row found
    rw [owner]
    exact sound.checked w row' ref epoch op found' (same ▸ control) here queued
  · intro w row found inside
    obtain ⟨row', found', same, owner⟩ := kept w row found
    rw [owner]
    exact sound.gated w row' found' (same ▸ inside)
  · intro w row found
    obtain ⟨row', found', _⟩ := kept w row found
    exact sound.spawned w row' found'

theorem Sound.dropIdleLease (identity : String) : (s.dropIdleLease setting identity).Sound ∧ Settled s
    (s.dropIdleLease setting identity) := by
  rw [Service.dropIdleLease]
  split
  · rename_i idle
    obtain ⟨lease, found, counted⟩ := (any_eq_true ..).1 idle
    refine sound.dropLease setting identity fun runs => ?_
    exact (sound.lease found).2.2.2.2.1 runs (by simpa using counted)
  · exact ⟨sound, .refl s⟩

theorem Sound.revokeLease (identity reason : String) :
    (s.revokeLease setting identity reason).Sound ∧ Settled s (s.revokeLease setting identity reason) := by
  rw [Service.revokeLease]
  split
  · exact ⟨sound, .refl s⟩
  · obtain ⟨one, first⟩ := sound.settle (show Rewrites _ _ (s.table.cancelQueued setting (fun op => decide (op.projectIdentity = identity)) reason)
      from OperationTable.cancelQueued_settles)
    have unqueued : ∀ ref op, (s.table.cancelQueued setting (fun op => decide (op.projectIdentity = identity)) reason).objects
        ref = some op → op.projectIdentity = identity → op.state ≠ .queued :=
      fun ref op here owner => sound.unqueued setting identity reason here owner
    obtain ⟨two, second⟩ := one.markRevoked identity (one.unchecked_of_unqueued unqueued)
    obtain ⟨placed, kept⟩ := drain_placed identity false two.placed unqueued
    obtain ⟨three, third⟩ := two.reworked placed kept
    obtain ⟨four, fourth⟩ := three.closeAgentSessions identity (one.over_marked identity)
    obtain ⟨five, fifth⟩ := four.dropIdleLease setting identity
    exact ⟨five, (first.trans second).trans ((third.trans fourth).trans fifth)⟩

omit sound in
theorem dropLease_marked (now : s.current identity = some epoch) :
    ((s.markRevoked identity).closeAgentSessions identity).dropLease setting identity =
      ((s.dropLease setting identity).editLease epoch ({ · with revoked := true })).closeAgentSessions identity := by
  have leases : ∀ other, ((s.markRevoked identity).editLease epoch ({ · with passphrase := none })).leases other =
      ((s.editLease epoch ({ · with passphrase := none })).editLease epoch ({ · with revoked := true })).leases other := by
    intro other
    rw [Service.markRevoked, now]
    by_cases same : other = epoch
    · subst same
      simp only [Service.editLease, Option.elim, update_self, map_map]
      rfl
    · simp [Service.editLease, same]
  rw [dropLease_eq setting (show ((s.markRevoked identity).closeAgentSessions identity).current identity = some epoch from now),
    dropLease_eq setting now]
  exact congrArg (fun leases => closeAgentSessions { s with
    leases
    current := update s.current identity none
    aliases := fun path => if s.aliases path = some identity then none else s.aliases path
    table := s.table.cancelQueued setting (fun op => decide (op.projectIdentity = identity)) "operator lease ended\n"
    workers := (s.drain identity true).workers
    registered := s.registered.filter (·.1 ≠ identity) } identity) (funext leases)

theorem Sound.requireLease (identity : String) (now : Nat) :
    (s.requireLease setting identity now).1.Sound ∧ Settled s (s.requireLease setting identity now).1 := by
  rw [Service.requireLease]
  cases found : s.leaseOf identity with
  | none => exact ⟨sound, .refl s⟩
  | some lease =>
    dsimp only
    split
    · by_cases runs : s.table.Runs identity
      · obtain ⟨one, first⟩ := sound.markRevoked identity (sound.unchecked_of_runs runs)
        obtain ⟨two, second⟩ := one.closeAgentSessions identity (sound.over_marked identity)
        obtain ⟨three, third⟩ := two.dropIdleLease setting identity
        exact ⟨three, (first.trans second).trans third⟩
      · obtain ⟨epoch, held, here⟩ := leaseOf_eq_some found
        have idle : ((s.markRevoked identity).closeAgentSessions identity).dropIdleLease setting identity =
            ((s.markRevoked identity).closeAgentSessions identity).dropLease setting identity := by
          refine if_pos ?_
          have still : lease.runningOperations = 0 := by
            by_contra counted
            exact runs ((sound.lease found).2.2.2.2.2 counted)
          rw [leaseOf, show (Service.closeAgentSessions (s.markRevoked identity) identity).current identity = some epoch from held]
          simp [Service.markRevoked, Service.closeAgentSessions, Service.editLease, held, here, still]
        rw [idle, dropLease_marked setting held]
        obtain ⟨one, first⟩ := sound.dropLease setting identity runs
        have gone : (s.dropLease setting identity).current identity = none := by
          rw [dropLease_eq setting held]
          exact update_self ..
        obtain ⟨two, second⟩ := one.editLease epoch (f := fun lease => { lease with revoked := true })
          (fun lease _ => ⟨⟨rfl, rfl, rfl, rfl, rfl, rfl, fun _ => rfl⟩, rfl, rfl⟩)
          (fun lease' here' _ => .inr fun w row ref op there control known queued => by
            obtain ⟨_, now, _⟩ := one.checked w row ref epoch op there control known queued
            obtain ⟨other, here'', own, _⟩ := one.leased.held _ _ now
            obtain ⟨kept, after, lasts⟩ := first.leases epoch lease here
            cases here''.symm.trans after
            rw [lasts.identity, (sound.lease found).2.2.1] at own
            rw [← own, gone] at now
            cases now)
        have ended : ∀ other, ((s.dropLease setting identity).editLease epoch ({ · with revoked := true })).Over identity other :=
          fun other now => by cases gone.symm.trans now
        obtain ⟨three, third⟩ := two.closeAgentSessions identity ended
        exact ⟨three, (first.trans second).trans third⟩
    · exact ⟨sound, .refl s⟩

end Service

end Kassiber.Operator

import Kassiber.Operator.Steps
import Kassiber.Operator.Soundness

/-!
The blocks of the service's callers keep its invariant: unlocking and locking, agent sessions, and
submitting an operation.
-/

namespace Kassiber.Operator
open Lib.Keyed List
open Function (update update_of_ne update_self)

theorem Settled.runs {s t : Service} {identity : String} (settled : Settled s t) (runs : t.table.Runs identity) :
    s.table.Runs identity := by
  obtain ⟨ref, op', there, busy, owner⟩ := runs
  cases was : s.table.objects ref with
  | none => exact (settled.appears ref op' was there).elim
  | some op =>
    obtain ⟨found, after, kept⟩ := settled.persists ref op was
    cases there.symm.trans after
    rcases kept.state with ⟨same, _⟩ | ⟨_, cancelled, _⟩
    · exact ⟨ref, op, was, same ▸ busy, kept.lasts.same.projectIdentity ▸ owner⟩
    · rw [busy] at cancelled
      cases cancelled

theorem Reply.andThen_keeps {α β : Type} {I : Service → Prop} {first : Reply α} {rest : Service → α → Reply β}
    (start : I first.1) (later : ∀ a, first.2 = .ok a → I (rest first.1 a).1) : I (first.andThen rest).1 := by
  rw [Reply.andThen]
  cases returned : first.2 with
  | error => exact start
  | ok a => exact later a returned

namespace Service
variable {s : Service} {identity : String} {project : Project} {now : Nat} {setting : Setting}
  {lease : Lease} {epoch id : String}

theorem requireLease_ok (returned : (s.requireLease setting identity now).2 = .ok lease) :
    (s.requireLease setting identity now).1 = s ∧ s.leaseOf identity = some lease ∧ lease.ended now = false := by
  rw [Service.requireLease] at returned ⊢
  cases found : s.leaseOf identity with
  | none =>
    rw [found] at returned
    cases returned
  | some lease' =>
    rw [found] at returned
    dsimp only at returned ⊢
    split at returned
    · cases returned
    · rename_i live
      cases returned
      rw [if_neg live]
      exact ⟨rfl, rfl, by simpa using live⟩

variable (sound : s.Sound)
include sound

theorem Sound.grip (holder : Option Holder)
    (ungated : ∀ w row, s.workers w = some row → row.control.gated = true → row.projectIdentity ≠ identity)
    (idle : ∀ previous, holder = some (.unlock previous) → ¬ s.table.Runs identity) :
    (s.grip identity holder).Sound ∧ Settled s (s.grip identity holder) := by
  refine ⟨⟨sound.placed, sound.leased, sound.checked, ?_, ?_, sound.numbered, sound.drawn, sound.spawned⟩, { Settled.refl s with }⟩
  · intro w row found inside
    exact (update_of_ne (ungated w row found inside) ..).trans (sound.gated w row found inside)
  · intro name previous held
    by_cases same : name = identity
    · subst same
      have there : update s.gates name holder name = some (.unlock previous) := held
      rw [update_self] at there
      exact idle previous there
    · exact sound.unlocking name previous ((update_of_ne same ..).symm.trans held)

theorem Sound.ungated {holder : Option Holder} (held : s.gates identity = holder) (other : ∀ w, holder ≠ some (.worker w))
    (w : Nat) (row : Worker) (found : s.workers w = some row) (inside : row.control.gated = true) :
    row.projectIdentity ≠ identity := by
  rintro rfl
  exact other w (held.symm.trans (sound.gated w row found inside))

omit sound in
theorem ensureWorker_eq : s.ensureWorker project = { s with
    workers := (s.ensureWorker project).workers, registered := (s.ensureWorker project).registered
    spawned := (s.ensureWorker project).spawned } := by
  rw [Service.ensureWorker]
  split <;> rfl

theorem Sound.ensureWorker (project : Project) : (s.ensureWorker project).Sound ∧ Settled s (s.ensureWorker project) ∧
    (registeredAt (s.ensureWorker project).registered project.identity).isSome = true := by
  rw [Service.ensureWorker]
  split
  · rename_i served
    exact ⟨sound, .refl s, served⟩
  · have fresh : s.workers s.spawned = none := by
      cases found : s.workers s.spawned with
      | none => rfl
      | some row => exact absurd (sound.spawned _ row found) (lt_irrefl _)
    have before : ∀ w row, update s.workers s.spawned
        (some { projectIdentity := project.identity, projectId := project.publicId }) w = some row →
        s.workers w = some row ∨ w = s.spawned ∧ row.control = .idle := by
      intro w row found
      by_cases same : w = s.spawned
      · rw [same, update_self] at found
        cases found
        exact .inr ⟨same, rfl⟩
      · rw [update_of_ne same] at found
        exact .inl found
    refine ⟨⟨sound.placed.spawn fresh, ⟨sound.leased.named, ?_, sound.leased.runs, sound.leased.covered⟩, ?_, ?_,
      sound.unlocking, sound.numbered, sound.drawn, ?_⟩, { Settled.refl s with }, ?_⟩
    · intro identity epoch held
      obtain ⟨lease, here, own, unlocked, busy, idle, served⟩ := sound.leased.held identity epoch held
      refine ⟨lease, here, own, unlocked, busy, idle, ?_⟩
      rw [registeredAt, rowAt_append, Option.map_or]
      rw [registeredAt] at served
      rw [Option.isSome_or, served, Bool.true_or]
    · intro w row ref epoch op found control here queued
      rcases before w row found with old | ⟨_, idle⟩
      · exact sound.checked w row ref epoch op old control here queued
      · rw [idle] at control
        cases control
    · intro w row found inside
      rcases before w row found with old | ⟨_, idle⟩
      · exact sound.gated w row old inside
      · rw [idle] at inside
        cases inside
    · intro w row found
      rcases before w row found with old | ⟨same, _⟩
      · exact Nat.lt_succ_of_lt (sound.spawned w row old)
      · rw [same]
        exact Nat.lt_succ_self _
    · rw [registeredAt, rowAt_append, rowAt_cons, if_pos rfl]
      cases rowAt Prod.fst s.registered project.identity <;> rfl

theorem Sound.beginUnlock (setting : Setting) (project : Project) (onlyIfLocked : Bool) (now : Nat) :
    (s.beginUnlock setting project onlyIfLocked now).1.Sound ∧ Settled s (s.beginUnlock setting project onlyIfLocked now).1 ∧
      ∀ previous, (s.beginUnlock setting project onlyIfLocked now).2 = .ok previous →
        ¬ (s.beginUnlock setting project onlyIfLocked now).1.table.Runs project.identity := by
  rw [Service.beginUnlock]
  split
  · exact ⟨sound, .refl s, fun _ impossible => by cases impossible⟩
  · cases found : s.leaseOf project.identity with
    | none =>
      refine ⟨sound, .refl s, fun _ _ runs => ?_⟩
      obtain ⟨ref, op, here, busy, owner⟩ := runs
      have held := sound.leased.runs ref op here busy
      rw [owner] at held
      obtain ⟨lease, there, _⟩ := sound.leaseOf_current held
      rw [found] at there
      cases there
    | some previous =>
      have counted := (sound.lease found).2.2.2.2
      dsimp only
      split
      · obtain ⟨revoked, settled⟩ := sound.revokeLease setting project.identity
          (if previous.expired now then "operator lease expired" else "operator lease was revoked")
        refine ⟨revoked, settled, fun _ returned runs => ?_⟩
        by_cases idle : previous.runningOperations = 0
        · exact counted.1 (settled.runs runs) idle
        · rw [if_neg idle] at returned
          cases returned
      · split
        · exact ⟨sound, .refl s, fun _ impossible => by cases impossible⟩
        · split
          · exact ⟨sound, .refl s, fun _ impossible => by cases impossible⟩
          · rename_i idle
            exact ⟨sound, .refl s, fun _ _ runs => idle (Nat.pos_of_ne_zero (counted.1 runs))⟩

theorem Sound.finishUnlock (setting : Setting) {previous : Option String} (grant : Grant) (now : Nat)
    (holds : s.gates project.identity = some (.unlock previous)) (fresh : s.leases epoch = none) :
    (s.finishUnlock setting project previous grant epoch now).1.Sound ∧
      Settled s (s.finishUnlock setting project previous grant epoch now).1 := by
  rw [Service.finishUnlock]
  split
  · exact ⟨sound, .refl s⟩
  · rename_i unchanged
    have kept : s.current project.identity = previous := not_not.1 unchanged
    have idle := sound.unlocking _ _ holds
    obtain ⟨one, first, served⟩ := sound.ensureWorker project
    set lease : Lease :=
      { epoch, project, databaseIdentity := grant.databaseIdentity, passphrase := some grant.passphrase
        capability := grant.capability, expiresAt := grant.durationSeconds.map (now + ·)
        agentScope := grant.agentScope
        agentControlDigest := if grant.agentScope then grant.agentControl.map setting.controlDigest else none
        idleTimeout := if grant.agentScope then grant.idleTimeoutSeconds else none
        lastUsed := now } with leaseDef
    set leases := update
      (previous.elim s.leases fun epoch => (s.editLease epoch ({ · with passphrase := none })).leases) epoch (some lease)
      with leasesDef
    have mine : leases epoch = some lease := update_self ..
    have old : ∀ {other lease'}, s.leases other = some lease' → leases other =
        some (if s.current project.identity = some other then { lease' with passphrase := none } else lease') := by
      intro other lease' here
      have apart : other ≠ epoch := fun same => by rw [same, fresh] at here; cases here
      rw [leasesDef, update_of_ne apart, kept]
      cases previous with
      | none => simpa using here
      | some before =>
        rw [Option.elim, editLease_leases]
        exact ⟨lease', here, by simp [eq_comm]⟩
    have was : ∀ {other lease'}, leases other = some lease' → other = epoch ∧ lease' = lease ∨
        ∃ before, s.leases other = some before ∧ before.Lasts lease' := by
      intro other lease' there
      by_cases same : other = epoch
      · rw [same, mine] at there
        cases there
        exact .inl ⟨same, rfl⟩
      · cases before : s.leases other with
        | none =>
          rw [leasesDef, update_of_ne same] at there
          cases previous with
          | none => cases before.symm.trans there
          | some name =>
            obtain ⟨_, here, _⟩ := editLease_leases.1 there
            cases before.symm.trans here
        | some lease₀ =>
          cases there.symm.trans (old before)
          refine .inr ⟨lease₀, rfl, ?_⟩
          split <;> exact ⟨rfl, rfl, rfl, rfl, rfl, rfl, fun ended => ended⟩
    have commutes : ∀ {current aliases}, Service.ensureWorker { s with leases, current, aliases } project =
        { s.ensureWorker project with leases, current, aliases } := by
      intro current aliases
      rw [Service.ensureWorker, Service.ensureWorker, show workerFor { s with leases, current, aliases } project.identity =
        s.workerFor project.identity from rfl]
      split <;> rfl
    dsimp only
    rw [commutes]
    rw [ensureWorker_eq] at one first served ⊢
    refine ⟨⟨one.placed, ⟨?_, ?_, ?_, ?_⟩, ?_, one.gated, one.unlocking, one.numbered, one.drawn, one.spawned⟩, ?_⟩
    · intro other lease' there
      rcases was there with ⟨same, rfl⟩ | ⟨before, here, lasts⟩
      · exact same.symm
      · exact lasts.epoch.trans (sound.leased.named other before here)
    · intro name other there
      rcases update_some there with ⟨rfl, rfl⟩ | ⟨apart, there⟩
      · exact ⟨lease, mine, rfl, rfl, fun runs => absurd runs idle, fun _ => rfl, served⟩
      · obtain ⟨lease', here, own, unlocked, busy, still, served'⟩ := one.leased.held name other there
        refine ⟨lease', ?_, own, unlocked, busy, still, served'⟩
        show leases other = some lease'
        rw [old here, if_neg]
        intro held
        obtain ⟨lease'', here', own', _⟩ := sound.leased.held _ _ held
        cases here.symm.trans here'
        exact apart (own.symm.trans own')
    · intro ref op there runs
      refine (update_of_ne ?_ ..).trans (sound.leased.runs ref op there runs)
      exact fun same => idle ⟨ref, op, there, runs, same⟩
    · intro ref op there
      obtain ⟨lease', here, own, covers⟩ := sound.leased.covered ref op there
      refine ⟨_, old here, ?_⟩
      split <;> exact ⟨own, covers⟩
    · intro w row ref other op found control there queued
      obtain ⟨own, held, lease', here, live⟩ := one.checked w row ref other op found control there queued
      have apart : row.projectIdentity ≠ project.identity := fun same => by
        have gate := one.gated w row found (by rw [control]; rfl)
        rw [same] at gate
        cases gate.symm.trans holds
      refine ⟨own, (update_of_ne apart ..).trans held, _, old here, ?_⟩
      split <;> exact live
    · refine { first with
        leases := fun other lease' here => ⟨_, old here, ?_⟩
        current := fun name other there => ?_
        denials := fun denial member _ => .inl member }
      · split <;> exact ⟨rfl, rfl, rfl, rfl, rfl, rfl, fun ended => ended⟩
      · rcases update_some there with ⟨_, rfl⟩ | ⟨_, there⟩
        · exact .inr fresh
        · exact .inl there

theorem Sound.lock {expectedLeaseId : Option String} :
    (s.lock setting project expectedLeaseId now).1.Sound ∧ Settled s (s.lock setting project expectedLeaseId now).1 := by
  rw [Service.lock]
  split
  · exact ⟨sound, .refl s⟩
  · exact sound.revokeLease setting _ _

theorem Sound.revokeExpired : (s.revokeExpired setting identity now).Sound ∧ Settled s
    (s.revokeExpired setting identity now) := by
  rw [Service.revokeExpired]
  split
  · exact sound.revokeLease setting _ _
  · exact ⟨sound, .refl s⟩

theorem Sound.addAlias (held : s.current project.identity = some epoch) :
    (s.addAlias project epoch).Sound ∧ Settled s (s.addAlias project epoch) := by
  obtain ⟨edited, settled⟩ := sound.editLease epoch (f := fun lease => { lease with project })
    (fun lease here => by
      obtain ⟨lease', there, own, _⟩ := sound.leased.held _ _ held
      cases here.symm.trans there
      exact ⟨⟨rfl, own.symm, rfl, rfl, rfl, rfl, fun ended => ended⟩, rfl, rfl⟩)
    (fun _ _ => .inl)
  exact ⟨edited.aside rfl, { settled with }⟩

theorem Sound.refreshAlias :
    (s.refreshAlias project epoch).Sound ∧ Settled s (s.refreshAlias project epoch) := by
  rw [Service.refreshAlias]
  split
  · rename_i held
    exact sound.addAlias held.1
  · exact ⟨sound, .refl s⟩

omit sound in
theorem erase_placed {table : OperationTable} (publicId : String) (ref : Nat) (placed : Placed table s.workers s.registered)
    (finished : ∀ op, table.objects ref = some op → op.state.terminal = true) :
    Placed table (s.removeQueued publicId ref).workers s.registered ∧ ∀ w row', (s.removeQueued publicId ref).workers w = some row' →
      ∃ row, s.workers w = some row ∧ row'.control = row.control ∧ row'.projectIdentity = row.projectIdentity := by
  rw [Service.removeQueued]
  cases picked : s.workerForPublicProject publicId with
  | none => exact ⟨placed, fun w row found => ⟨row, found, rfl, rfl⟩⟩
  | some w =>
    have chosen := find?_some (show find? (fun worker => (s.workers worker).any (·.projectId = publicId)) _ = some w
      from picked)
    obtain ⟨row, found, _⟩ := (Option.any_eq_true ..).1 chosen
    dsimp only [Option.elim, editWorker]
    rw [found, Option.map_some]
    refine ⟨placed.rework found rfl (fun other => mem_of_mem_erase) ?_ ?_ (placed.taken w row · found) ?_, ?_⟩
    · refine List.Nodup.sublist ?_ (placed.distinct w row found)
      exact List.Sublist.append_left erase_sublist _
    · intro other held
      rcases mem_held.1 held with taken | member
      · exact mem_held.2 (.inl taken)
      · exact mem_held.2 (.inr (mem_of_mem_erase member))
    · intro other held
      by_cases same : other = ref
      · exact .inr fun op here => finished op (same ▸ here)
      · rcases mem_held.1 held with taken | member
        · exact .inl (mem_held.2 (.inl taken))
        · exact .inl (mem_held.2 (.inr ((mem_erase_of_ne same).2 member)))
    · intro v row' there
      rcases update_some there with ⟨rfl, rfl⟩ | ⟨-, there⟩
      · exact ⟨row, found, rfl, rfl⟩
      · exact ⟨row', there, rfl, rfl⟩

theorem Sound.withdrawQueued (ref : Nat) (result : Option OperationResult) :
    (s.withdrawQueued setting ref result).Sound ∧ Settled s (s.withdrawQueued setting ref result) := by
  rw [Service.withdrawQueued]
  cases here : s.table.objects ref with
  | none => exact ⟨sound, .refl s⟩
  | some op =>
    dsimp only
    split
    · rename_i queued
      obtain ⟨one, first⟩ := sound.settle (show Rewrites _ _ (s.table.cancelOperation setting ref result) from
        OperationTable.cancelOperation_settles here queued)
      obtain ⟨placed, kept⟩ := erase_placed op.projectId ref one.placed (fun op' there => by
        obtain ⟨was, before, written⟩ := OperationTable.cancelOperation_rewrites.source there
        rw [OperationTable.At, if_pos rfl] at written
        rw [written]
        rfl)
      obtain ⟨two, second⟩ := one.reworked placed kept
      exact ⟨two, first.trans second⟩
    · exact ⟨sound, .refl s⟩

omit sound in
theorem withhold_settles {table : OperationTable} {ref : Nat} : Rewrites (fun _ => Operation.Settles) table
    (table.edit ref ({ · with outputWithheld := true })) := by
  refine OperationTable.edit_rewrites.weaken fun other op op' written => ?_
  rw [OperationTable.At] at written
  rw [written]
  split
  · exact ⟨⟨rfl, fun asked => asked, fun _ => rfl⟩, .inl ⟨rfl, rfl⟩⟩
  · exact .refl op

theorem Sound.withdrawMatching (setting : Setting) (lease : Lease) (pid ref : Nat) :
    (s.withdrawMatching setting lease pid ref).Sound ∧ Settled s (s.withdrawMatching setting lease pid ref) := by
  rw [Service.withdrawMatching]
  split
  · obtain ⟨one, first⟩ := sound.withdrawQueued ref (some ⟨1, "", "the user denied this agent\n"⟩)
    obtain ⟨two, second⟩ := one.settle withhold_settles
    exact ⟨two, first.trans second⟩
  · exact ⟨sound, .refl s⟩

theorem Sound.withdrawEach (setting : Setting) (lease : Lease) (pid : Nat) (refs : List Nat) :
    (refs.foldl (fun (reached : Service) ref => reached.withdrawMatching setting lease pid ref) s).Sound ∧
      Settled s (refs.foldl (fun (reached : Service) ref => reached.withdrawMatching setting lease pid ref) s) := by
  induction refs generalizing s with
  | nil => exact ⟨sound, .refl s⟩
  | cons ref rest ih =>
    obtain ⟨one, first⟩ := sound.withdrawMatching setting lease pid ref
    obtain ⟨two, second⟩ := ih one
    exact ⟨two, first.trans second⟩

theorem Sound.withdrawAgentOperations (setting : Setting) (lease : Lease) (pid : Nat) :
    (s.withdrawAgentOperations setting lease pid).Sound ∧ Settled s (s.withdrawAgentOperations setting lease pid) :=
  sound.withdrawEach setting lease pid s.table.retained

theorem Sound.cancel (id : String) : (s.cancel setting id).Sound ∧ Settled s (s.cancel setting id) := by
  rw [Service.cancel]
  cases s.table.find id with
  | none => exact ⟨sound, .refl s⟩
  | some ref => exact sound.withdrawQueued ref none

omit sound in
/-- A session that `open_agent_session` registers under the live lease. -/
def Opens (s : Service) (project : Project) (pid : Nat) (id token : String) (now : Nat) (session : AgentSession) : Prop :=
  session.state = .pending ∧ session.id = id ∧ session.pid = pid ∧ session.token = token ∧
    ∃ lease, s.leaseOf project.identity = some lease ∧ lease.ended now = false ∧ lease.agentScope = true ∧
      session.projectIdentity = lease.project.identity ∧ session.leaseEpoch = lease.epoch ∧
      s.agentDenied lease (some pid) = false

omit sound in
/-- The live lease under which a session is decided, by who holds its control secret. -/
def Decides (setting : Setting) (s : Service) (project : Project) (sessionId control : String) (now : Nat) (lease : Lease)
    (session : AgentSession) : Prop :=
  s.leaseOf project.identity = some lease ∧ lease.ended now = false ∧ lease.agentScope = true ∧
    lease.agentControlDigest = some (setting.controlDigest control) ∧
    rowAt AgentSession.id s.sessions sessionId = some session ∧ current? session lease = true

omit sound in
/-- A session that `decide_agent_session` allows. -/
def Allows (setting : Setting) (s : Service) (project : Project) (sessionId control : String) (now : Nat)
    (session : AgentSession) : Prop :=
  ∃ lease row, Decides setting s project sessionId control now lease row ∧
    ∃ before ∈ s.sessions, before.id = sessionId ∧ session = { before with state := .allowed }

omit sound in
theorem openAgentSession_cases {pid : Option Nat} {label : Option String} {token : String} :
    (s.openAgentSession setting project pid label id token now).1 = s ∨
      (s.openAgentSession setting project pid label id token now).1 = (s.requireLease setting project.identity now).1 ∨
      ∃ own ∈ pid, ∃ session, Opens s project own id token now session ∧
        (s.openAgentSession setting project pid label id token now).1 = { s with sessions := s.sessions ++ [session] } := by
  cases pid with
  | none => exact .inl rfl
  | some own =>
    rw [Service.openAgentSession, Reply.andThen]
    cases returned : (s.requireLease setting project.identity now).2 with
    | error => exact .inr (.inl rfl)
    | ok lease =>
      obtain ⟨same, found, live⟩ := requireLease_ok returned
      dsimp only
      rw [same]
      split
      · exact .inl rfl
      · rename_i agent
        split
        · exact .inl rfl
        · rename_i undenied
          split
          · exact .inl rfl
          · split
            · exact .inl rfl
            · exact .inr (.inr ⟨own, rfl, _, ⟨rfl, rfl, rfl, rfl, lease, found, live, by simpa using agent, rfl, rfl,
                by simpa using undenied⟩, rfl⟩)

theorem Sound.openAgentSession (setting : Setting) (project : Project) (pid : Option Nat) (label : Option String)
    (token : String) (now : Nat)
    (fresh : s.sessions.any (·.id = id) = false) :
    (s.openAgentSession setting project pid label id token now).1.Sound ∧ Evolves Operation.Settles Nothing
      (fun session => ∃ own ∈ pid, Opens s project own id token now session) s
      (s.openAgentSession setting project pid label id token now).1 := by
  have widen : ∀ {t}, Settled s t → Evolves Operation.Settles Nothing
      (fun session => ∃ own ∈ pid, Opens s project own id token now session) s t := fun settled =>
    { settled with sessions := fun session member => .inl ((settled.sessions session member).resolve_right fun none => none) }
  rcases openAgentSession_cases (s := s) with same | same | ⟨own, named, session, opens, same⟩
  · rw [same]
    exact ⟨sound, widen (.refl s)⟩
  · rw [same]
    obtain ⟨required, settled⟩ := sound.requireLease setting project.identity now
    exact ⟨required, widen settled⟩
  · rw [same]
    refine ⟨sound.aside rfl, { widen (.refl s) with sessions := fun other member => ?_, distinct := fun nodup => ?_ }⟩
    · rcases mem_append.1 member with old | new
      · exact .inl ⟨other, old, rfl⟩
      · cases mem_singleton.1 new
        exact .inr ⟨own, named, opens⟩
    · rw [map_append, nodup_append]
      refine ⟨nodup, nodup_singleton _, ?_⟩
      rintro name inside other single rfl
      obtain ⟨row, member, equal⟩ := mem_map.1 inside
      rw [map_singleton, mem_singleton] at single
      rw [any_eq_false] at fresh
      exact fresh row member (by simpa using equal.trans (single.trans opens.2.1))

theorem Sound.closeAgentSession (id : String) : (s.closeAgentSession id).Sound ∧ Settled s (s.closeAgentSession id) :=
  ⟨sound.aside rfl, .of_same rfl (fun _ lease here => ⟨lease, here, .refl lease⟩) (fun _ _ => .inl) rfl
    (fun session member => ⟨session, mem_of_mem_filter member, rfl⟩) (fun _ => .inl) (filter_sublist.map _)⟩

def allowed (s : Service) (sessionId : String) (lease : Lease) (now : Nat) : Service :=
  Service.editLease { s with sessions := editAt AgentSession.id s.sessions sessionId ({ · with state := .allowed }) } lease.epoch
    ({ · with lastUsed := now })

def denied (setting : Setting) (s : Service) (lease : Lease) (pid : Nat) : Service :=
  let closed := { s with sessions := s.sessions.filter fun other => ¬ (other.pid = pid ∧ current? other lease) }
  let withdrawn := closed.withdrawAgentOperations setting lease pid
  { withdrawn with denials := withdrawn.denials ++ [(lease.project.identity, lease.epoch, pid)] }

omit sound in
theorem decideAgentSession_cases (setting : Setting) (project : Project) (sessionId control : String) (allow : Bool)
    (now : Nat) :
    (s.decideAgentSession setting project sessionId allow control now).1 = s ∨
      (s.decideAgentSession setting project sessionId allow control now).1 = (s.requireLease setting project.identity now).1 ∨
      ∃ lease session, Decides setting s project sessionId control now lease session ∧
        (s.decideAgentSession setting project sessionId allow control now).1 =
          if allow then allowed s sessionId lease now else denied setting s lease session.pid := by
  rw [Service.decideAgentSession, Reply.andThen]
  cases returned : (s.requireLease setting project.identity now).2 with
  | error => exact .inr (.inl rfl)
  | ok lease =>
    obtain ⟨same, found, live⟩ := requireLease_ok returned
    dsimp only
    rw [same]
    split
    · exact .inl rfl
    · rename_i authorized
      rw [not_or] at authorized
      cases picked : (rowAt AgentSession.id s.sessions sessionId).filter (current? · lease) with
      | none => exact .inl rfl
      | some session =>
        obtain ⟨row, current⟩ := Option.filter_eq_some_iff.1 picked
        refine .inr (.inr ⟨lease, session, ⟨found, live, by simpa using authorized.1, by simpa using authorized.2, row, current⟩, ?_⟩)
        dsimp only
        cases allow <;> rfl

theorem Sound.allowed {sessionId control : String} {session : AgentSession}
    (decides : Decides setting s project sessionId control now lease session) :
    (allowed s sessionId lease now).Sound ∧
      Evolves Operation.Settles Nothing (Allows setting s project sessionId control now) s (allowed s sessionId lease now) := by
  have keeps : ∀ row : AgentSession, row.id = sessionId → ({ row with state := .allowed } : AgentSession).id = sessionId :=
    fun _ same => same
  have edited : Sound { s with sessions := editAt AgentSession.id s.sessions sessionId ({ · with state := .allowed }) } :=
    sound.aside rfl
  obtain ⟨one, first⟩ := edited.editLease lease.epoch (f := fun lease => { lease with lastUsed := now })
    (fun _ _ => ⟨⟨rfl, rfl, rfl, rfl, rfl, rfl, fun ended => ended⟩, rfl, rfl⟩) (fun _ _ => .inl)
  refine ⟨one, { first with sessions := fun other member => ?_, distinct := fun nodup => ?_ }⟩
  · obtain ⟨source, inside, written⟩ := mem_editAt (show other ∈ editAt AgentSession.id s.sessions sessionId _ from member)
    split at written
    · rename_i own
      exact .inr ⟨lease, session, decides, source, inside, own, written⟩
    · exact .inl ⟨source, inside, by rw [written]; rfl⟩
  · exact (keys_editAt keeps).symm ▸ nodup

theorem Sound.denied {pid : Nat} :
    (denied setting s lease pid).Sound ∧ Settled s (denied setting s lease pid) := by
  have closed : Sound { s with sessions := s.sessions.filter fun other => ¬ (other.pid = pid ∧ current? other lease) } :=
    sound.aside rfl
  have shut : Settled s { s with sessions := s.sessions.filter fun other => ¬ (other.pid = pid ∧ current? other lease) } :=
    .of_same rfl (fun _ lease here => ⟨lease, here, .refl lease⟩) (fun _ _ => .inl) rfl
      (fun session member => ⟨session, mem_of_mem_filter member, rfl⟩) (fun _ => .inl) (filter_sublist.map _)
  obtain ⟨one, first⟩ := closed.withdrawAgentOperations setting lease pid
  refine ⟨one.aside rfl, shut.trans { first with denials := fun denial member known => ?_ }⟩
  rcases first.denials denial member known with kept | ended
  · exact .inl (mem_append_left _ kept)
  · exact .inr ended

end Service

end Kassiber.Operator

import Kassiber.Operator.Callers

/-!
Submitting an operation: what the lease, the calling process and an authorization answer for it, and that
the new operation is queued once.
-/

namespace Kassiber.Operator
open Lib.Keyed Nat
open Function (update update_of_ne update_self)

namespace Service
variable {s : Service} {project : Project} {now : Nat} {setting : Setting} {generation : String} {lease : Lease}
  {request : Submission}

/-- The allowed session that answers for a call under an agent lease. -/
def Vouches (s : Service) (lease : Lease) (request : Submission) (session : AgentSession) : Prop :=
  session ∈ s.sessions ∧ session.state = .allowed ∧ request.peerPid = some session.pid ∧
    request.agentSessionToken = some session.token ∧ current? session lease = true ∧ s.agentDenied lease request.peerPid = false

def Authorizes (s t : Service) (project : Project) (lease : Lease) (now : Nat) (a : Nat)
    (authorization : AdminAuthorization) : Prop :=
  s.authorizations a = some authorization ∧ authorization.consumed = false ∧ now ≤ authorization.expiresAt ∧
    authorization.projectIdentity = project.identity ∧ authorization.leaseEpoch = lease.epoch ∧
    t.authorizations a = some { authorization with consumed := true }

theorem admitAgentCall_ok {admitted : Service} {id : String}
    (returned : s.admitAgentCall lease request now = .ok (admitted, id)) :
    ∃ session, Vouches s lease request session ∧ id = session.id ∧
      admitted = Service.editLease { s with sessions := editAt AgentSession.id s.sessions session.id fun row =>
        { row with calls := row.calls + 1 } } lease.epoch fun row => { row with calls := row.calls + 1, lastUsed := now } := by
  rw [Service.admitAgentCall] at returned
  split at returned
  · cases returned
  · split at returned
    · cases returned
    · rename_i undenied
      dsimp only at returned
      split at returned
      · cases returned
      · split at returned
        · cases returned
        · rename_i session picked
          cases returned
          have member := List.mem_of_find?_eq_some picked
          obtain ⟨inside, own⟩ := List.mem_filter.1 member
          simp only [Bool.decide_and, Bool.and_eq_true, decide_eq_true_eq] at own
          exact ⟨session, ⟨inside, by simpa using List.find?_some picked, own.1, own.2.2, own.2.1, by simpa using undenied⟩, rfl, rfl⟩

variable (sound : s.Sound)
include sound

theorem Sound.admitCaller (lease : Lease) (request : Submission) (now : Nat) :
    (s.admitCaller lease request now).1.Sound ∧ Settled s (s.admitCaller lease request now).1 ∧
    (s.admitCaller lease request now).1.current = s.current ∧
    (s.admitCaller lease request now).1.authorizations = s.authorizations ∧
    ∀ session?, (s.admitCaller lease request now).2 = .ok session? → lease.agentScope = true →
      session?.isSome = true ∧ ∃ session, Vouches s lease request session := by
  rw [Service.admitCaller]
  split
  · cases returned : s.admitAgentCall lease request now with
    | error => exact ⟨sound, .refl s, rfl, rfl, fun _ impossible => by cases impossible⟩
    | ok out =>
      obtain ⟨admitted, id⟩ := out
      obtain ⟨session, vouches, _, rfl⟩ := admitAgentCall_ok returned
      have counted : Sound { s with sessions := editAt AgentSession.id s.sessions session.id fun row =>
        { row with calls := row.calls + 1 } } := sound.aside rfl
      obtain ⟨one, first⟩ := counted.editLease lease.epoch (f := fun row => { row with calls := row.calls + 1, lastUsed := now })
        (fun _ _ => ⟨⟨rfl, rfl, rfl, rfl, rfl, rfl, fun ended => ended⟩, rfl, rfl⟩) (fun _ _ => .inl)
      refine ⟨one, { first with sessions := fun other member => ?_, distinct := fun nodup => ?_ }, rfl, rfl, ?_⟩
      · obtain ⟨source, inside, written⟩ := mem_editAt
          (show other ∈ editAt AgentSession.id s.sessions session.id _ from member)
        refine .inl ⟨source, inside, ?_⟩
        rw [written]
        split <;> rfl
      · have keeps : ∀ row : AgentSession, row.id = session.id →
            ({ row with calls := row.calls + 1 } : AgentSession).id = session.id := fun _ same => same
        exact (keys_editAt keeps).symm ▸ nodup
      · intro session? same _
        cases same
        exact ⟨rfl, session, vouches⟩
  · rename_i terminal
    exact ⟨sound, .refl s, rfl, rfl, fun _ _ agent => absurd agent terminal⟩

theorem Sound.replay (setting : Setting) (generation : String) (project : Project) (request : Submission) :
    (s.replay setting generation project request).1.Sound ∧
    Settled s (s.replay setting generation project request).1 ∧
    (s.replay setting generation project request).1.authorizations = s.authorizations := by
  have kept := And.intro sound (And.intro (Settled.refl s) (Eq.refl s.authorizations))
  rw [Service.replay]
  cases request.operationId with
  | none => exact kept
  | some id =>
    dsimp only
    split
    · exact kept
    · split
      · split <;> exact kept
      · split
        · exact kept
        · split
          · exact kept
          · obtain ⟨one, first⟩ := sound.settle (show Rewrites (fun _ => Operation.Settles) s.table { s.table with
                tombstones := s.table.tombstones.filter (·.operationId ≠ id) ++ [_] } from
                ⟨fun _ absent => absent, fun _ op here => ⟨op, here, .refl op⟩, fun _ member => member, fun _ _ member _ _ => member⟩)
            exact ⟨one, first, rfl⟩

theorem Sound.authorize (project : Project) (lease : Lease) (request : Submission) (now : Nat) :
    (s.authorize project lease request now).1.Sound ∧
    Settled s (s.authorize project lease request now).1 ∧
    ∀ authorizedUntil, (s.authorize project lease request now).2 = .ok authorizedUntil →
      (request.required ≠ .admin → capabilityAllows lease.capability request.required = true) ∧
      (request.required = .admin → ∃ a authorization, request.authorization = some a ∧
        Authorizes s (s.authorize project lease request now).1 project lease now a authorization ∧
        authorizedUntil = some authorization.expiresAt) := by
  rw [Service.authorize]
  split
  · rename_i admin
    rw [Service.consumeAdminAuthorization]
    cases presented : request.authorization.bind fun ref => (s.authorizations ref).map (ref, ·) with
    | none => exact ⟨sound, .refl s, fun _ impossible => by cases impossible⟩
    | some entry =>
      obtain ⟨a, given, entered⟩ := Option.bind_eq_some_iff.1 presented
      obtain ⟨authorization, held, rfl⟩ := Option.map_eq_some_iff.1 entered
      have spent : Sound { s with
          authorizations := update s.authorizations a (some { authorization with consumed := true }) } := by
        refine ⟨sound.placed, sound.leased, sound.checked, sound.gated, sound.unlocking, sound.numbered, ?_, sound.spawned⟩
        intro other after there
        by_cases same : other = a
        · exact same ▸ sound.drawn a authorization held
        · exact sound.drawn other after ((update_of_ne same ..).symm.trans there)
      have settled : Settled s { s with
          authorizations := update s.authorizations a (some { authorization with consumed := true }) } := by
        refine { Settled.refl s with authorizations := fun other before here => ?_ }
        by_cases same : other = a
        · subst same
          cases held.symm.trans here
          exact ⟨_, update_self .., rfl, fun _ => rfl⟩
        · exact ⟨before, (update_of_ne same ..).trans here, rfl, fun consumed => consumed⟩
      dsimp only
      split
      · exact ⟨spent, settled, fun _ impossible => by cases impossible⟩
      · rename_i valid
        simp only [not_or, not_lt, ne_eq, not_not] at valid
        obtain ⟨unspent, unexpired, own, _, bound⟩ := valid
        refine ⟨spent, settled, fun _ returned => ?_⟩
        cases returned
        exact ⟨fun ordinary => absurd admin ordinary, fun _ => ⟨a, authorization, given,
          ⟨held, by simpa using unspent, unexpired, own, bound, update_self ..⟩, rfl⟩⟩
  · split
    · exact ⟨sound, .refl s, fun _ impossible => by cases impossible⟩
    · rename_i ordinary covered
      exact ⟨sound, .refl s, fun _ _ => ⟨fun _ => by simpa using covered, fun admin => absurd admin ordinary⟩⟩

theorem Sound.push {w ref : Nat} {row : Worker} (op : Operation) (own : registeredAt s.registered op.projectIdentity = some w)
    (found : s.workers w = some row) (absent : s.table.objects ref = none) (numbered : ref ≤ s.sequence)
    (queued : op.state = .queued) (quiet : op.cancellationRequested = false)
    (covered : ∃ lease, s.leases op.admittedLeaseEpoch = some lease ∧ lease.project.identity = op.projectIdentity ∧
      (op.capability ≠ .admin → capabilityAllows lease.capability op.capability = true)) :
    Sound { s with
      workers := update s.workers w (some { row with queue := row.queue ++ [ref] })
      table := { s.table with objects := update s.table.objects ref (some op), retained := s.table.retained ++ [ref] } } ∧
    Evolves Operation.Settles (fun ref' op' => ref' = ref ∧ op' = op) NoSession s { s with
      workers := update s.workers w (some { row with queue := row.queue ++ [ref] })
      table := { s.table with objects := update s.table.objects ref (some op), retained := s.table.retained ++ [ref] } } := by
  have after : ∀ {ref' op'}, s.table.objects ref' = some op' →
      update s.table.objects ref (some op) ref' = some op' := by
    intro ref' op' here
    have apart : ref' ≠ ref := fun same => by rw [same, absent] at here; cases here
    rwa [update_of_ne apart]
  have runs : ∀ {identity}, OperationTable.Runs { s.table with
      objects := update s.table.objects ref (some op), retained := s.table.retained ++ [ref] } identity ↔
      s.table.Runs identity := by
    intro identity
    constructor
    · rintro ⟨ref', op', there, busy, owner⟩
      rcases update_some there with ⟨_, rfl⟩ | ⟨_, here⟩
      · rw [queued] at busy
        cases busy
      · exact ⟨ref', op', here, busy, owner⟩
    · rintro ⟨ref', op', here, busy, owner⟩
      exact ⟨ref', op', after here, busy, owner⟩
  have rows : ∀ {v other}, update s.workers w (some { row with queue := row.queue ++ [ref] }) v = some other →
      ∃ old, s.workers v = some old ∧ other.control = old.control ∧ other.projectIdentity = old.projectIdentity := by
    intro v other there
    rcases update_some there with ⟨rfl, rfl⟩ | ⟨-, there⟩
    · exact ⟨row, found, rfl, rfl⟩
    · exact ⟨other, there, rfl, rfl⟩
  refine ⟨⟨sound.placed.enqueue own found absent queued quiet, ⟨sound.leased.named, ?_, ?_, ?_⟩, ?_, ?_, ?_, ?_, sound.drawn, ?_⟩, ?_⟩
  · intro identity epoch held
    obtain ⟨lease, here, owner, unlocked, busy, idle, served⟩ := sound.leased.held identity epoch held
    exact ⟨lease, here, owner, unlocked, fun now => busy (runs.1 now), fun still => idle fun now => still (runs.2 now), served⟩
  · intro ref' op' there busy
    rcases update_some there with ⟨_, rfl⟩ | ⟨_, here⟩
    · rw [queued] at busy
      cases busy
    · exact sound.leased.runs ref' op' here busy
  · intro ref' op' there
    rcases update_some there with ⟨_, rfl⟩ | ⟨_, here⟩
    · exact covered
    · exact sound.leased.covered ref' op' here
  · intro v other ref' epoch op' there control here waits
    obtain ⟨old, present, same, owner⟩ := rows there
    rw [owner]
    rcases update_some here with ⟨rfl, rfl⟩ | ⟨_, here⟩
    · obtain ⟨op', known, _⟩ := sound.placed.taken v old ref' present (by rw [← same, control]; rfl)
      rw [absent] at known
      cases known
    · exact sound.checked v old ref' epoch op' present (same ▸ control) here waits
  · intro v other there inside
    obtain ⟨old, present, same, owner⟩ := rows there
    rw [owner]
    exact sound.gated v old present (same ▸ inside)
  · exact fun identity previous held now => sound.unlocking identity previous held (runs.1 now)
  · intro ref' op' there
    rcases update_some there with ⟨rfl, _⟩ | ⟨_, here⟩
    · exact numbered
    · exact sound.numbered ref' op' here
  · intro v other there
    obtain ⟨old, present, _⟩ := rows there
    exact sound.spawned v old present
  · refine { Settled.refl s with
      persists := fun ref' op' here => ⟨op', after here, .refl op'⟩
      appears := fun ref' op' missing there => ?_
      retained := fun ref' member => ?_ }
    · rcases update_some there with new | ⟨_, here⟩
      · exact new
      · cases missing.symm.trans here
    · rcases List.mem_append.1 member with old | new
      · exact .inl old
      · exact .inr (List.mem_singleton.1 new ▸ absent)

/-- What an operation is admitted on: the live lease, its capability or an authorization, and under an agent
lease an allowed session. -/
structure Admitted (s t : Service) (project : Project) (request : Submission) (now : Nat) (lease : Lease) (op : Operation) :
    Prop where
  found : s.leaseOf project.identity = some lease
  live : lease.ended now = false
  identity : op.projectIdentity = project.identity
  epoch : op.admittedLeaseEpoch = lease.epoch
  state : op.state = .queued
  covered : op.capability ≠ .admin → capabilityAllows lease.capability op.capability = true
  authorized : op.capability = .admin → ∃ a authorization, Authorizes s t project lease now a authorization ∧
    op.adminAuthorizedUntil = some authorization.expiresAt
  vouched : lease.agentScope = true → op.agentPid = request.peerPid ∧ ∃ session, Vouches s lease request session

def Made (project : Project) (lease : Lease) (session? : Option String) (authorizedUntil : Option Nat) (request : Submission)
    (op : Operation) : Prop :=
  op.projectIdentity = project.identity ∧ op.admittedLeaseEpoch = lease.epoch ∧ op.state = .queued ∧
    op.capability = request.required ∧
    op.adminAuthorizedUntil = (if request.required = .admin then authorizedUntil else none) ∧
    op.agentPid = if session?.isSome then request.peerPid else none

theorem Sound.enqueue (setting : Setting) (session? : Option String) (authorizedUntil : Option Nat)
    (covered : ∃ lease', s.leases lease.epoch = some lease' ∧ lease'.project.identity = project.identity ∧
      (request.required ≠ .admin → capabilityAllows lease'.capability request.required = true)) :
    (s.enqueue setting project lease session? authorizedUntil request).1.Sound ∧
      Evolves Operation.Settles (fun ref op => ref = (s.enqueue setting project lease session? authorizedUntil request).1.sequence ∧
        Made project lease session? authorizedUntil request op) NoSession s
        (s.enqueue setting project lease session? authorizedUntil request).1 ∧
      (s.enqueue setting project lease session? authorizedUntil request).1.authorizations = s.authorizations := by
  have widen : ∀ {t}, Settled s t → Evolves Operation.Settles
      (fun ref op => ref = t.sequence ∧ Made project lease session? authorizedUntil request op) NoSession s t := fun settled =>
    { settled with appears := fun ref op absent here => (settled.appears ref op absent here).elim }
  have bumped : Sound { s with sequence := s.sequence + 1 } :=
    ⟨sound.placed, sound.leased, sound.checked, sound.gated, sound.unlocking,
      fun ref op here => le_succ_of_le (sound.numbered ref op here), sound.drawn, sound.spawned⟩
  have bumps : Settled s { s with sequence := s.sequence + 1 } := { Settled.refl s with }
  obtain ⟨one, first, served⟩ := bumped.ensureWorker project
  have same : Service.ensureWorker { s with sequence := s.sequence + 1 } project = _ := ensureWorker_eq
  rw [Service.enqueue]
  dsimp only
  set numbered := Service.ensureWorker { s with sequence := s.sequence + 1 } project with numberedDef
  have authorizations : numbered.authorizations = s.authorizations := by rw [same]
  cases own : numbered.workerFor project.identity with
  | none => exact ⟨one, widen (bumps.trans first), authorizations⟩
  | some w =>
    dsimp only
    split
    · exact ⟨one, widen (bumps.trans first), authorizations⟩
    · obtain ⟨row, found, _⟩ := one.placed.known _ w own
      have absent : numbered.table.objects (s.sequence + 1) = none := by
        rw [same]
        cases here : s.table.objects (s.sequence + 1) with
        | none => rfl
        | some op => exact absurd (sound.numbered _ op here) (by omega)
      set op : Operation :=
        { id := request.operationId.getD request.drawnId
          projectId := project.publicId, projectIdentity := project.identity, argv := request.argv
          commandPath := request.commandPath, capability := request.required, admittedLeaseEpoch := lease.epoch
          adminAuthorizedUntil := if request.required = .admin then authorizedUntil else none
          workingDirectory := request.workingDirectory, noEgress := request.noEgress, agentSessionId := session?
          agentPid := if session?.isSome then request.peerPid else none } with opDef
      obtain ⟨lease', held, owner, covers⟩ := covered
      obtain ⟨lease'', held', lasts⟩ := (bumps.trans first).leases _ lease' held
      obtain ⟨two, second⟩ := one.push op own found absent (by rw [same]) rfl rfl
        ⟨lease'', held', lasts.identity.trans owner, fun ordinary => lasts.capability ▸ covers ordinary⟩
      have pruned : Rewrites (fun _ => Operation.Settles)
          { numbered.table with
            objects := update numbered.table.objects (s.sequence + 1) (some op)
            retained := numbered.table.retained ++ [s.sequence + 1] } (OperationTable.pruneOperations _ setting) :=
        OperationTable.pruneOperations_rewrites.weaken fun _ op op' equal => equal ▸ Operation.Settles.refl op
      obtain ⟨three, third⟩ := two.settle pruned
      have rowed : Service.editWorker numbered w (fun row => { row with queue := row.queue ++ [s.sequence + 1] }) =
          { numbered with
            workers := update numbered.workers w (some { row with queue := row.queue ++ [s.sequence + 1] }) } := by
        rw [Service.editWorker, found]
        rfl
      rw [rowed]
      refine ⟨three, Evolves.trans (bumps.trans first) ?_ (fun _ _ _ one two => Operation.Settles.trans one two), authorizations⟩
      exact { second with
        appears := fun ref' op' missing there => by
          obtain ⟨newest, rfl⟩ := second.appears ref' op' missing there
          refine ⟨newest.trans ?_, rfl, rfl, rfl, rfl, rfl, rfl⟩
          rw [same]
        retained := fun ref' member => second.retained ref' (pruned.retained ref' member) }

theorem Sound.submit (setting : Setting) (generation : String) (project : Project) (request : Submission) (now : Nat) :
    (s.submit setting generation project request now).1.Sound ∧
    Evolves Operation.Settles (fun ref op => ref = (s.submit setting generation project request now).1.sequence ∧ ∃ lease,
      Admitted s (s.submit setting generation project request now).1 project request now lease op) NoSession s
      (s.submit setting generation project request now).1 := by
  have widen : ∀ {t}, Settled s t → Evolves Operation.Settles (fun ref op => ref = t.sequence ∧ ∃ lease,
      Admitted s t project request now lease op) NoSession s t := fun settled =>
    { settled with appears := fun ref op absent here => (settled.appears ref op absent here).elim }
  have both : ∀ {t}, t.Sound ∧ Settled s t → t.Sound ∧ Evolves Operation.Settles (fun ref op => ref = t.sequence ∧ ∃ lease,
      Admitted s t project request now lease op) NoSession s t := fun ⟨after, settled⟩ => ⟨after, widen settled⟩
  rw [Service.submit]
  split
  · exact both ⟨sound, .refl s⟩
  · split
    · exact both ⟨sound, .refl s⟩
    · refine Reply.andThen_keeps (I := fun t => t.Sound ∧ Evolves Operation.Settles (fun ref op => ref = t.sequence ∧ ∃ lease,
        Admitted s t project request now lease op) NoSession s t) (both (sound.requireLease setting _ now)) fun lease returned => ?_
      obtain ⟨same, found, live⟩ := requireLease_ok returned
      rw [same]
      obtain ⟨current, here, owner, _⟩ := sound.lease found
      obtain ⟨one, first, kept, spent, vouched⟩ := sound.admitCaller lease request now
      refine Reply.andThen_keeps (I := fun t => t.Sound ∧ Evolves Operation.Settles (fun ref op => ref = t.sequence ∧ ∃ lease,
        Admitted s t project request now lease op) NoSession s t) (both ⟨one, first⟩) fun session? admitted => ?_
      obtain ⟨two, second⟩ := one.addAlias (show _ = some lease.epoch by rw [kept]; exact current)
      obtain ⟨three, third, spent'⟩ := two.replay setting generation project request
      have upTo := (first.trans second).trans third
      refine Reply.andThen_keeps (I := fun t => t.Sound ∧ Evolves Operation.Settles (fun ref op => ref = t.sequence ∧ ∃ lease,
        Admitted s t project request now lease op) NoSession s t) (both ⟨three, upTo⟩) fun replayed _ => ?_
      cases replayed with
      | some => exact both ⟨three, upTo⟩
      | none =>
        dsimp only
        obtain ⟨four, fourth, answers⟩ := three.authorize project lease request now
        refine Reply.andThen_keeps (I := fun t => t.Sound ∧ Evolves Operation.Settles (fun ref op => ref = t.sequence ∧ ∃ lease,
          Admitted s t project request now lease op) NoSession s t) (both ⟨four, upTo.trans fourth⟩) fun authorizedUntil answered => ?_
        obtain ⟨covers, authorizes⟩ := answers authorizedUntil answered
        obtain ⟨lease', held, lasts⟩ := (upTo.trans fourth).leases _ lease here
        obtain ⟨five, fifth, spent''⟩ := four.enqueue setting session? authorizedUntil
          ⟨lease', held, lasts.identity.trans owner, fun ordinary => lasts.capability ▸ covers ordinary⟩
        refine ⟨five, Evolves.trans (upTo.trans fourth) (show Evolves Operation.Settles (fun ref op => ref = Service.sequence _ ∧ ∃ lease,
            Admitted s _ project request now lease op) _ _ _ from
          { fifth with appears := fun ref op absent there => ?_ }) (fun _ _ _ one two => Operation.Settles.trans one two)⟩
        obtain ⟨newest, identity, epoch, state, capability, until_, pid⟩ := fifth.appears ref op absent there
        refine ⟨newest, lease, found, live, identity, epoch, state, fun ordinary => capability ▸ covers (capability ▸ ordinary), ?_, ?_⟩
        · intro admin
          have required := capability ▸ admin
          obtain ⟨a, authorization, _, ⟨held, unspent, unexpired, own, bound, used⟩, equal⟩ := authorizes required
          refine ⟨a, authorization, ⟨?_, unspent, unexpired, own, bound, ?_⟩, ?_⟩
          · rw [← spent, ← held, spent']
            rfl
          · rw [spent'', used]
          · rw [until_, if_pos required, equal]
        · intro agent
          obtain ⟨named, session, vouches⟩ := vouched session? admitted agent
          exact ⟨by rw [pid, if_pos named], session, vouches⟩

theorem Sound.issueAuthorization : (s.issueAuthorization setting project now).1.Sound ∧
    Settled s (s.issueAuthorization setting project now).1 := by
  refine Reply.andThen_keeps (I := fun t => t.Sound ∧ Settled s t) (sound.requireLease setting _ now) fun lease returned => ?_
  rw [(requireLease_ok returned).1]
  refine ⟨⟨sound.placed, sound.leased, sound.checked, sound.gated, sound.unlocking, sound.numbered, ?_, sound.spawned⟩,
    { Settled.refl s with authorizations := fun a authorization here => ?_ }⟩
  · intro a authorization there
    by_cases same : a = s.issued
    · rw [same]
      exact lt_succ_self _
    · exact lt_succ_of_lt (sound.drawn a authorization ((update_of_ne same ..).symm.trans there))
  · have apart : a ≠ s.issued := fun same => absurd (sound.drawn a authorization here) (by rw [same]; exact lt_irrefl _)
    exact ⟨authorization, (update_of_ne apart ..).trans here, rfl, fun spent => spent⟩

end Service

end Kassiber.Operator

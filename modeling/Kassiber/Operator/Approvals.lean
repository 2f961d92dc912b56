import Kassiber.Lib.Outcome
import Kassiber.Operator.LeaseSafety

/-!
Agent approvals over every run of the service: an agent lease admits the calls of a process that registered
under it and that the holder of its control secret allowed; what a denied process has submitted is neither
started nor read any more.
-/

namespace Kassiber.Operator
open Lib.Keyed Lib.Runs

abbrev Event := Transition Service Action

def Opened (epoch : String) (pid : Nat) (token id : String) (e : Event) : Prop :=
  ∃ project label now lease, e.label = .openAgentSession project (some pid) label id token now ∧
    e.before.leaseOf project.identity = some lease ∧ lease.epoch = epoch ∧ lease.ended now = false ∧ lease.agentScope = true ∧
    (∀ session ∈ e.before.sessions, session.id ≠ id) ∧
    ∃ session ∈ e.after.sessions, session.id = id ∧ session.pid = pid ∧ session.token = token ∧ session.leaseEpoch = epoch

/-- The holder of the lease's control secret decides a process's session. -/
def Decided (setting : Setting) (allow : Bool) (epoch : String) (pid : Nat) (token id : String) (e : Event) : Prop :=
  ∃ project control now lease session, e.label = .decideAgentSession project id allow control now ∧
    (e.before.decideAgentSession setting project id allow control now).2 = .ok (if allow then .allowed else .denied) ∧
    e.before.leaseOf project.identity = some lease ∧ lease.epoch = epoch ∧ lease.agentScope = true ∧
    lease.agentControlDigest = some (setting.controlDigest control) ∧
    rowAt AgentSession.id e.before.sessions id = some session ∧ session.pid = pid ∧ session.token = token ∧
    session.leaseEpoch = epoch

def Happened (past : List Event) (event : Event → Prop) : Prop := ∃ e ∈ past, event e

/-- A process is denied under a lease, whichever of its sessions the decision names. -/
def Denied (setting : Setting) (epoch : String) (pid : Nat) (e : Event) : Prop :=
  ∃ token id, Decided setting false epoch pid token id e

variable {event : Event → Prop} {past : List Event}

variable {e : Event}

theorem Happened.later (happened : Happened past event) :
    Happened (past ++ [e]) event := by
  obtain ⟨before, member, held⟩ := happened
  exact ⟨before, List.mem_append_left _ member, held⟩

theorem Happened.now (held : event e) : Happened (past ++ [e]) event :=
  ⟨e, List.mem_append_right _ (List.mem_singleton_self e), held⟩

theorem Happened.cases (happened : Happened (past ++ [e]) event) :
    Happened past event ∨ event e := by
  obtain ⟨before, member, held⟩ := happened
  rcases List.mem_append.1 member with old | new
  · exact .inl ⟨before, old, held⟩
  · exact .inr (List.mem_singleton.1 new ▸ held)

namespace Service
variable {s t : Service} {setting : Setting} {generation : String} {e : Event} {past : List Event}
  {project : Project} {lease : Lease} {op' : Operation}

variable {now ref pid : Nat}

variable {id control : String} {op : Operation}

theorem decideAgentSession_ok {allow : Bool}
    {session : AgentSession} (decides : Decides setting s project id control now lease session) :
    s.decideAgentSession setting project id allow control now =
      (if allow then s.allowed id lease now else s.denied setting lease session.pid, .ok (if allow then .allowed else .denied)) := by
  obtain ⟨found, live, agent, secret, row, current⟩ := decides
  rw [decideAgentSession, requireLease, found]
  simp only [live, Bool.false_eq_true, if_false, Reply.andThen, agent, secret, row, Option.filter_some, current, if_true,
    not_true_eq_false, ne_eq, or_self]
  cases allow <;> rfl

theorem decides_of_ok {allow : Bool} {state : SessionState}
    (returned : (s.decideAgentSession setting project id allow control now).2 = .ok state) :
    ∃ lease session, Decides setting s project id control now lease session := by
  rw [decideAgentSession, Reply.andThen] at returned
  cases required : (s.requireLease setting project.identity now).2 with
  | error => rw [required] at returned; cases returned
  | ok lease =>
    obtain ⟨same, found, live⟩ := requireLease_ok required
    rw [required] at returned
    dsimp only at returned
    rw [same] at returned
    split at returned
    · cases returned
    · rename_i authorized
      rw [not_or] at authorized
      cases picked : (rowAt AgentSession.id s.sessions id).filter (current? · lease) with
      | none => rw [picked] at returned; cases returned
      | some session =>
        obtain ⟨row, current⟩ := Option.filter_eq_some_iff.1 picked
        exact ⟨lease, session, found, live, by simpa using authorized.1, by simpa using authorized.2, row, current⟩

theorem opens_cases {a : Action} {session : AgentSession} (opens : a.opens setting s session) :
    (∃ project pid label id token now, a = .openAgentSession project (some pid) label id token now ∧
      Opens s project pid id token now session) ∨
    ∃ project id control now, a = .decideAgentSession project id true control now ∧ Allows setting s project id control now session := by
  cases a with
  | openAgentSession project pid label id token now =>
    obtain ⟨own, named, opened⟩ := opens
    cases named
    exact .inl ⟨project, own, label, id, token, now, rfl, opened⟩
  | decideAgentSession project id allow control now =>
    cases allow with
    | true => exact .inr ⟨project, id, control, now, rfl, opens⟩
    | false => exact opens.elim
  | _ => exact opens.elim

/-- Every registered session was opened, and an allowed one was allowed, by what happened. -/
structure Registered (setting : Setting) (past : List Event) (s : Service) : Prop where
  distinct : (s.sessions.map AgentSession.id).Nodup
  opened : ∀ session ∈ s.sessions, Happened past (Opened session.leaseEpoch session.pid session.token session.id)
  allowed : ∀ session ∈ s.sessions, session.state = .allowed →
    Happened past (Decided setting true session.leaseEpoch session.pid session.token session.id)

theorem Registered.step (registered : Registered setting past s) (sound : s.Sound)
    (taken : Recorded (Steps setting generation) s e t) : Registered setting (past ++ [e]) t := by
  obtain ⟨rfl, rfl, acts⟩ := taken
  obtain ⟨_, evolves⟩ := sound.act acts
  have inherited : ∀ session ∈ e.after.sessions, (∃ before ∈ e.before.sessions, before.Lasts session) →
      Happened past (Opened session.leaseEpoch session.pid session.token session.id) ∧ (session.state = .allowed →
        Happened past (Decided setting true session.leaseEpoch session.pid session.token session.id)) := by
    rintro session _ ⟨before, member, lasts⟩
    rw [AgentSession.Lasts] at lasts
    rw [lasts]
    exact ⟨registered.opened before member, registered.allowed before member⟩
  have fresh : ∀ session ∈ e.after.sessions, e.label.opens setting e.before session →
      Happened (past ++ [e]) (Opened session.leaseEpoch session.pid session.token session.id) ∧ (session.state = .allowed →
        Happened (past ++ [e]) (Decided setting true session.leaseEpoch session.pid session.token session.id)) := by
    intro session member novel
    rcases opens_cases novel with ⟨project, pid, label, id, token, now, same, opens⟩ | ⟨project, id, control, now, same, allows⟩
    · obtain ⟨pending, named, own, secret, lease, found, live, agent, _, bound, _⟩ := opens
      refine ⟨.now ⟨project, label, now, lease, ?_, found, bound.symm, live, agent, ?_, session, member, rfl, rfl, rfl, rfl⟩,
        fun state => ?_⟩
      · rw [same, named, own, secret]
      · rw [Steps, same, act.eq_def] at acts
        dsimp only at acts
        split at acts
        · cases acts
        · rename_i unused
          rw [named]
          simpa using unused
      · rw [pending] at state
        cases state
    · obtain ⟨lease, row, decides, before, inside, named, rfl⟩ := allows
      have accepted : e.before.decideAgentSession setting project id true control now = _ := decideAgentSession_ok decides
      obtain ⟨found, live, agent, secret, there, current⟩ := decides
      have own : rowAt AgentSession.id e.before.sessions id = some before := named ▸ rowAt_of_mem registered.distinct inside
      cases own.symm.trans there
      simp only [current?, decide_eq_true_eq] at current
      refine ⟨(registered.opened row inside).later, fun _ => .now ⟨project, control, now, lease, row, ?_, ?_, found,
        current.2.2.symm, agent, secret, ?_, rfl, rfl, rfl⟩⟩
      · rw [same, ← named]
      · rw [show ({ row with state := .allowed } : AgentSession).id = id from named, accepted]
      · rw [← named] at own
        exact own
  refine ⟨evolves.distinct registered.distinct, fun session member => ?_, fun session member state => ?_⟩
  · rcases evolves.sessions session member with old | novel
    · exact (inherited session member old).1.later
    · exact (fresh session member novel).1
  · rcases evolves.sessions session member with old | novel
    · exact ((inherited session member old).2 state).later
    · exact (fresh session member novel).2 state

theorem withdrawQueued_unqueued {result : Option OperationResult}
    (there : (s.withdrawQueued setting ref result).table.objects ref = some op') : op'.state ≠ .queued := by
  rw [withdrawQueued] at there
  cases here : s.table.objects ref with
  | none =>
    rw [here] at there
    cases here.symm.trans there
  | some op =>
    rw [here] at there
    dsimp only at there
    split at there
    · obtain ⟨was, _, written⟩ := OperationTable.cancelOperation_rewrites.source there
      rw [OperationTable.At, if_pos rfl] at written
      rw [written]
      exact OperationState.noConfusion
    · rename_i started
      cases here.symm.trans there
      exact started

theorem withdrawMatching_withholds
    (there : (s.withdrawMatching setting lease pid ref).table.objects ref = some op') (own : Matches lease pid op' = true) :
    op'.state ≠ .queued ∧ op'.outputWithheld = true := by
  rw [withdrawMatching] at there
  split at there
  · obtain ⟨was, before, written⟩ := OperationTable.edit_rewrites.source there
    rw [OperationTable.At, if_pos rfl] at written
    rw [written]
    have started : was.state ≠ .queued := withdrawQueued_unqueued before
    exact ⟨started, rfl⟩
  · rename_i unmatched
    rw [there, Option.any_some] at unmatched
    exact absurd own unmatched

theorem Matches.lasts {op' : Operation} (lasts : op.Lasts op') :
    Matches lease pid op' = Matches lease pid op := by
  rw [Matches, Matches, lasts.same.agentPid, lasts.same.projectIdentity, lasts.same.epoch]

theorem Sound.withdrawEach_withholds (sound : s.Sound) {refs : List Nat} (member : ref ∈ refs)
    (there : (refs.foldl (fun (reached : Service) ref => reached.withdrawMatching setting lease pid ref)
      s).table.objects ref = some op') (own : Matches lease pid op' = true) : op'.state ≠ .queued ∧ op'.outputWithheld = true := by
  induction refs generalizing s with
  | nil => cases member
  | cons head rest ih =>
    obtain ⟨one, first⟩ := sound.withdrawMatching setting lease pid head
    by_cases later : ref ∈ rest
    · exact ih one later there
    · obtain rfl : ref = head := (List.mem_cons.1 member).resolve_right later
      obtain ⟨two, second⟩ := one.withdrawEach setting lease pid rest
      cases known : (s.withdrawMatching setting lease pid ref).table.objects ref with
      | none => exact (second.appears ref op' known there).elim
      | some op =>
        obtain ⟨found, after, settles⟩ := second.persists ref op known
        cases there.symm.trans after
        obtain ⟨started, hidden⟩ := withdrawMatching_withholds known (Matches.lasts settles.lasts ▸ own)
        refine ⟨?_, settles.lasts.withheld hidden⟩
        rcases settles.state with ⟨same, _⟩ | ⟨queued, _⟩
        · rwa [same]
        · exact absurd queued started

theorem Sound.denied_withholds (sound : s.Sound)
    (there : (s.denied setting lease pid).table.objects ref = some op') (own : Matches lease pid op' = true) :
    op'.state ≠ .queued ∧ (ref ∈ (s.denied setting lease pid).table.retained → op'.outputWithheld = true) := by
  have closed : Sound { s with sessions := s.sessions.filter fun other => ¬ (other.pid = pid ∧ current? other lease) } :=
    sound.aside rfl
  by_cases member : ref ∈ s.table.retained
  · obtain ⟨started, hidden⟩ := closed.withdrawEach_withholds member there own
    exact ⟨started, fun _ => hidden⟩
  · have settled : Settled s (s.denied setting lease pid) := sound.denied.2
    cases known : s.table.objects ref with
    | none => exact (settled.appears ref op' known there).elim
    | some op =>
      obtain ⟨found, after, settles⟩ := settled.persists ref op known
      cases there.symm.trans after
      refine ⟨fun waits => ?_, fun kept => ?_⟩
      · have unfinished := OperationTable.settles_unfinished settles (by rw [waits]; rfl)
        exact member (sound.placed.live ref op known unfinished).1
      · rcases settled.retained ref kept with before | absent
        · exact absurd before member
        · cases known.symm.trans absent

/-- Every denial is remembered while its lease lives, and the process's operations stay withdrawn. -/
structure Remembered (setting : Setting) (past : List Event) (s : Service) : Prop where
  agents : ∀ epoch pid, Happened past (Denied setting epoch pid) → ∃ lease, s.leases epoch = some lease ∧
    lease.agentScope = true ∧ ((lease.project.identity, epoch, pid) ∈ s.denials ∨ s.Over lease.project.identity epoch)
  withdrawn : ∀ epoch pid, Happened past (Denied setting epoch pid) → ∀ ref op, s.table.objects ref = some op →
    op.agentPid = some pid → op.admittedLeaseEpoch = epoch →
    op.state ≠ .queued ∧ (ref ∈ s.table.retained → op.outputWithheld = true)

theorem Remembered.unadmitted (remembered : Remembered setting past s) (sound : s.Sound)
    {request : Submission} (admitted : Admitted s t project request now lease op)
    (happened : Happened past (Denied setting lease.epoch pid)) : op.agentPid ≠ some pid := by
  intro own
  obtain ⟨current, here, _⟩ := sound.lease admitted.found
  obtain ⟨same, there, agent, denied⟩ := remembered.agents _ _ happened
  cases here.symm.trans there
  obtain ⟨caller, session, _, _, _, _, _, undenied⟩ := admitted.vouched agent
  rw [← caller, own] at undenied
  rcases denied with member | ended
  · simp [agentDenied, member] at undenied
  · obtain ⟨lease', here', revoked⟩ := ended ((sound.lease admitted.found).2.2.1 ▸ current)
    cases here.symm.trans here'
    have live := admitted.live
    rw [Lease.ended, revoked] at live
    cases live

theorem denied_after {epoch : String} (acts : Steps setting generation e.before e.label e.after)
    (denied : Denied setting epoch pid e) : ∃ project lease, e.before.leaseOf project = some lease ∧ lease.epoch = epoch ∧
      lease.agentScope = true ∧ e.after = e.before.denied setting lease pid := by
  obtain ⟨token, id, project, control, now, lease, session, same, returned, found, rfl, agent, _, row, rfl, _⟩ := denied
  obtain ⟨lease', session', decides⟩ := decides_of_ok returned
  have answer : e.before.decideAgentSession setting project id false control now = _ := decideAgentSession_ok decides
  obtain ⟨found', _, _, _, row', _⟩ := decides
  cases found.symm.trans found'
  cases row.symm.trans row'
  rw [Steps, same, act.eq_def] at acts
  dsimp only at acts
  rw [answer] at acts
  exact ⟨_, lease, found, rfl, agent, (Option.some.inj acts).symm⟩

theorem Remembered.step (remembered : Remembered setting past s) (sound : s.Sound)
    (taken : Recorded (Steps setting generation) s e t) : Remembered setting (past ++ [e]) t := by
  obtain ⟨rfl, rfl, acts⟩ := taken
  obtain ⟨kept, evolves⟩ := sound.act acts
  refine ⟨fun epoch pid happened => ?_, fun epoch pid happened ref op' there own bound => ?_⟩
  · rcases happened.cases with before | now
    · obtain ⟨lease, here, agent, denied⟩ := remembered.agents epoch pid before
      obtain ⟨lease', there, lasts⟩ := evolves.leases epoch lease here
      have known : (e.before.leases epoch).isSome = true := by rw [here]; rfl
      refine ⟨lease', there, lasts.agentScope.trans agent, ?_⟩
      rw [lasts.identity]
      rcases denied with member | ended
      · exact evolves.denials _ member known
      · exact .inr (ended.evolves evolves known)
    · obtain ⟨project, lease, found, rfl, agent, after⟩ := denied_after acts now
      obtain ⟨lease', there, lasts⟩ := evolves.leases _ lease (sound.lease found).2.1
      refine ⟨lease', there, lasts.agentScope.trans agent, .inl ?_⟩
      rw [lasts.identity, after]
      exact List.mem_append_right _ (List.mem_singleton_self _)
  · rcases happened.cases with before | now
    · cases known : e.before.table.objects ref with
      | none =>
        obtain ⟨project, request, now, lease, _, _, admitted⟩ := makes_eq (evolves.appears ref op' known there)
        have same : lease.epoch = epoch := admitted.epoch.symm.trans bound
        exact absurd own (remembered.unadmitted sound admitted (same ▸ before))
      | some op =>
        obtain ⟨found, after, moves⟩ := evolves.persists ref op known
        cases there.symm.trans after
        obtain ⟨started, hidden⟩ := remembered.withdrawn epoch pid before ref op known
          (moves.lasts.same.agentPid ▸ own) (moves.lasts.same.epoch ▸ bound)
        refine ⟨?_, fun retained => ?_⟩
        · rcases moves.state with same | ⟨queued, _⟩ | ⟨_, queued, _⟩ | ⟨_, done⟩ | ⟨_, _, failed⟩
          · rwa [same]
          · exact absurd queued started
          · exact absurd queued started
          · rintro waits
            rw [waits] at done
            cases done
          · rw [failed]
            exact OperationState.noConfusion
        · rcases evolves.retained ref retained with still | absent
          · exact moves.lasts.withheld (hidden still)
          · cases known.symm.trans absent
    · obtain ⟨project, lease, found, rfl, _, after⟩ := denied_after acts now
      obtain ⟨lease', kept', lasts⟩ := evolves.leases _ lease (sound.lease found).2.1
      obtain ⟨lease'', found', identity, _⟩ := kept.leased.covered ref op' there
      rw [bound] at found'
      cases kept'.symm.trans found'
      have matching : Matches lease pid op' = true := by
        simp [Matches, own, bound, ← identity, lasts.identity]
      rw [after] at there ⊢
      exact sound.denied_withholds there matching

theorem approvals_reached (reached : Run (Recorded (Steps setting generation)) {} past s) :
    s.Sound ∧ Registered setting past s ∧ Remembered setting past s := by
  refine reached.history (I := fun past s => s.Sound ∧ Registered setting past s ∧ Remembered setting past s) ?_
    fun past s e t _ good taken => ?_
  · refine ⟨empty_sound, ⟨List.nodup_nil, ?_, ?_⟩, ⟨?_, ?_⟩⟩
    · intro session member
      cases member
    · intro session member
      cases member
    · rintro epoch pid ⟨_, member, _⟩
      cases member
    · rintro epoch pid ⟨_, member, _⟩
      cases member
  · obtain ⟨sound, registered, remembered⟩ := good
    have recorded := taken
    obtain ⟨rfl, rfl, acts⟩ := taken
    exact ⟨(sound.act acts).1, registered.step sound recorded, remembered.step sound recorded⟩

theorem withheld_status (hidden : op.outputWithheld = true) (includeOutput : Bool) :
    (op.publicStatus includeOutput).exitCode = none ∧ (op.publicStatus includeOutput).stdout = none ∧
      (op.publicStatus includeOutput).stderr = none := by
  rw [Operation.publicStatus, if_pos hidden]
  exact ⟨rfl, rfl, rfl⟩

/-- In every run: what an agent lease admits comes from a process and token whose session was opened and then
allowed under it, and that was not denied; what a denied process submitted does not start, and its status
carries no output and no exit code. -/
theorem approvals_exact (reached : Run (Recorded (Steps setting generation)) {} past s) :
    (∀ a t ref op lease, Steps setting generation s a t → s.table.objects ref = none → t.table.objects ref = some op →
      t.leases op.admittedLeaseEpoch = some lease → lease.agentScope = true →
      ∃ project request now pid token id, a = .submit project request now ∧ request.peerPid = some pid ∧
        request.agentSessionToken = some token ∧ op.agentPid = some pid ∧
        Happened past (Opened lease.epoch pid token id) ∧ Happened past (Decided setting true lease.epoch pid token id) ∧
        ¬ Happened past (Denied setting lease.epoch pid)) ∧
    (∀ epoch pid ref op, Happened past (Denied setting epoch pid) → s.table.objects ref = some op → op.agentPid = some pid →
      op.admittedLeaseEpoch = epoch →
      op.state ≠ .queued ∧
      (∀ a t op', Steps setting generation s a t → t.table.objects ref = some op' → op'.state = .running → op.state = .running) ∧
      (ref ∈ s.table.retained → ∀ includeOutput, (op.publicStatus includeOutput).exitCode = none ∧
        (op.publicStatus includeOutput).stdout = none ∧ (op.publicStatus includeOutput).stderr = none)) := by
  obtain ⟨sound, registered, remembered⟩ := approvals_reached reached
  refine ⟨fun a t ref op lease acts absent there under agent => ?_, fun epoch pid ref op happened here own bound => ?_⟩
  · obtain ⟨_, evolves⟩ := sound.act acts
    obtain ⟨project, request, now, lease', same, _, admitted⟩ := makes_eq (evolves.appears ref op absent there)
    obtain ⟨_, here, _⟩ := sound.lease admitted.found
    obtain ⟨lease'', after, lasts⟩ := evolves.leases _ lease' here
    rw [admitted.epoch] at under
    cases under.symm.trans after
    obtain ⟨caller, session, member, allowed, peer, token, current, _⟩ := admitted.vouched (lasts.agentScope ▸ agent)
    simp only [current?, decide_eq_true_eq] at current
    rw [lasts.epoch, ← current.2.2]
    refine ⟨project, request, now, session.pid, session.token, session.id, same, peer, token, caller.trans peer,
      registered.opened session member, registered.allowed session member allowed, fun denied => ?_⟩
    rw [current.2.2] at denied
    exact remembered.unadmitted sound admitted denied (caller.trans peer)
  · obtain ⟨started, hidden⟩ := remembered.withdrawn epoch pid happened ref op here own bound
    refine ⟨started, fun a t op' acts there runs => ?_, fun retained => withheld_status (hidden retained)⟩
    obtain ⟨found, after, moves⟩ := (sound.act acts).2.persists ref op here
    cases there.symm.trans after
    rcases moves.state with same | ⟨queued, _⟩ | ⟨_, queued, _⟩ | ⟨running, _⟩ | ⟨_, _, failed⟩
    · exact same.symm.trans runs
    · exact absurd queued started
    · exact absurd queued started
    · exact running
    · rw [runs] at failed
      cases failed

def sampleControl : String := "0123456789abcdef0123456789abcdef"

/-- A process registers under an agent lease, and the user allows it. -/
def allowedRun : List Action :=
  [.beginUnlock book false 0,
    .finishUnlock book { databaseIdentity := "db", passphrase := "secret", capability := .read, agentScope := true
                         idleTimeoutSeconds := some 600, agentControl := some sampleControl } "epoch" 1,
    .openAgentSession book (some 7) none "session" "token" 2,
    .decideAgentSession book "session" true sampleControl 3]

def agentCall : Action :=
  .submit book { drawnId := "g.1", argv := ["mcp", "call"], commandPath := "mcp.call", required := .read, peerPid := some 7
                 agentSessionToken := some "token" } 4

def denial : Action := .decideAgentSession book "again" false sampleControl 6

/-- After its call the process opens another session, which the user denies. -/
theorem call_denied : ∃ past s op, Run (Recorded (Steps plainSetting "g")) {} past s ∧
    Happened past (Denied plainSetting "epoch" 7) ∧ s.table.objects 1 = some op ∧ op.agentPid = some 7 ∧
    op.admittedLeaseEpoch = "epoch" := by
  have performed : (perform plainSetting "g" {} (allowedRun ++ [agentCall,
      .openAgentSession book (some 7) none "again" "token-2" 5])).bind (fun s =>
        (s.act plainSetting "g" denial).bind fun t =>
          (t.table.objects 1).bind fun op => (s.leaseOf book.identity).bind fun lease =>
            (rowAt AgentSession.id s.sessions "again").map fun session => decide (
              (s.decideAgentSession plainSetting book "again" false sampleControl 6).2.toOption = some .denied ∧
              lease.epoch = "epoch" ∧ lease.agentScope ∧ lease.agentControlDigest = some sampleControl ∧
              session.pid = 7 ∧ session.token = "token-2" ∧ session.leaseEpoch = "epoch" ∧
              op.agentPid = some 7 ∧ op.admittedLeaseEpoch = "epoch")) = some true := by decide +kernel
  obtain ⟨s, reached, performed⟩ := Option.bind_eq_some_iff.1 performed
  obtain ⟨t, taken, performed⟩ := Option.bind_eq_some_iff.1 performed
  obtain ⟨op, there, performed⟩ := Option.bind_eq_some_iff.1 performed
  obtain ⟨lease, held, performed⟩ := Option.bind_eq_some_iff.1 performed
  obtain ⟨session, listed, facts⟩ := Option.map_eq_some_iff.1 performed
  obtain ⟨decided, named, agent, digest, pid, token, under, sent⟩ := of_decide_eq_true facts
  obtain ⟨past, recorded, _⟩ := (perform_run reached).recorded
  have next : Recorded (Steps plainSetting "g") s ⟨s, denial, t⟩ t := ⟨rfl, rfl, taken⟩
  exact ⟨_, t, op, recorded.snoc next, Happened.now ⟨"token-2", "again", book,
    sampleControl, 6, lease, session, rfl, Lib.Outcome.ok_of_toOption decided, held, named, agent, digest, listed,
    pid, token, under⟩, there, sent⟩

theorem allowed_call_admitted : (∃ past s op, Run (Recorded (Steps plainSetting "g")) {} past s ∧
      Happened past (Denied plainSetting "epoch" 7) ∧ s.table.objects 1 = some op ∧ op.state ≠ .queued) ∧
    ∃ past s t op, Run (Recorded (Steps plainSetting "g")) {} past s ∧ Steps plainSetting "g" s agentCall t ∧ t.table.objects 1 = some op ∧ op.agentPid = some 7 ∧
    ∃ id, Happened past (Decided plainSetting true "epoch" 7 "token" id) := by
  obtain ⟨past, u, withdrawn, recorded, denied, listed, sent, bound⟩ := call_denied
  refine ⟨⟨past, u, withdrawn, recorded, denied, listed,
    ((approvals_exact recorded).2 "epoch" 7 1 withdrawn denied listed sent bound).1⟩, ?_⟩
  have performed : (perform plainSetting "g" {} allowedRun).isSome = true := by decide +kernel
  obtain ⟨s, reached⟩ := Option.isSome_iff_exists.1 performed
  have called : (perform plainSetting "g" {} allowedRun).bind (fun s => (s.act plainSetting "g" agentCall).bind
      fun t => (t.table.objects 1).bind fun op => (t.leases op.admittedLeaseEpoch).map fun lease =>
        (s.table.objects 1, op.agentPid, lease.agentScope, lease.epoch)) = some (none, some 7, true, "epoch") := by decide +kernel
  rw [reached, Option.bind_some] at called
  obtain ⟨t, taken, called⟩ := Option.bind_eq_some_iff.1 called
  obtain ⟨op, there, called⟩ := Option.bind_eq_some_iff.1 called
  obtain ⟨lease, under, facts⟩ := Option.map_eq_some_iff.1 called
  simp only [Prod.mk.injEq] at facts
  obtain ⟨absent, own, agent, named⟩ := facts
  obtain ⟨past, recorded, _⟩ := (perform_run reached).recorded
  obtain ⟨project, request, now, pid, token, id, same, peer, secret, caller, _, allowed, _⟩ :=
    (approvals_exact recorded).1 agentCall t 1 op lease taken absent there under agent
  cases same
  cases peer
  cases secret
  exact ⟨past, s, t, op, recorded, taken, there, own, id, named ▸ allowed⟩

end Service

end Kassiber.Operator

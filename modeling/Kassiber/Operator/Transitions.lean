import Kassiber.Operator.Workers

/-!
Every step of the service keeps its invariant, and what the step does to the operations, leases,
authorizations and agent sessions there were.
-/

namespace Kassiber.Operator
open Lib.Keyed Option

def Service.Checks (s : Service) (worker : Nat) (op : Operation) : Prop :=
  ∃ row ref epoch, s.workers worker = some row ∧ row.control = .checked ref epoch ∧ s.table.objects ref = some op

namespace Action

def starts (s : Service) : Action → Operation → Prop
  | .worker _ (.dispatch now) => s.Startable now
  | _ => Never

def fails (s : Service) : Action → Operation → Prop
  | .worker w (.inheritFails _) => s.Checks w
  | _ => Never

def makes (s t : Service) : Action → Nat → Operation → Prop
  | .submit project request now => fun ref op => ref = t.sequence ∧ ∃ lease, Service.Admitted s t project request now lease op
  | _ => Nothing

def opens (setting : Setting) (s : Service) : Action → AgentSession → Prop
  | .openAgentSession project pid _ id token now => fun session => ∃ own ∈ pid, s.Opens project own id token now session
  | .decideAgentSession project sessionId true control now => s.Allows setting project sessionId control now
  | _ => NoSession

end Action

section
variable {rel rel' : Operation → Operation → Prop} {new new' : Nat → Operation → Prop} {novel novel' : AgentSession → Prop}
  {s t : Service}

theorem Evolves.weaken (evolves : Evolves rel new novel s t) (wider : ∀ op op', rel op op' → rel' op op')
    (admits : ∀ ref op, new ref op → new' ref op) (opens : ∀ session, novel session → novel' session) :
    Evolves rel' new' novel' s t :=
  { evolves with
    persists := fun ref op here => by
      obtain ⟨op', there, related⟩ := evolves.persists ref op here
      exact ⟨op', there, wider op op' related⟩
    appears := fun ref op absent there => admits ref op (evolves.appears ref op absent there)
    sessions := fun session member => (evolves.sessions session member).imp_right (opens session) }

theorem Settled.widen {starts fails : Operation → Prop} (settled : Settled s t) :
    Evolves (Operation.Moves starts fails) new novel s t :=
  settled.weaken (fun _ _ settles => settles.moves) (fun _ _ impossible => impossible.elim) (fun _ impossible => impossible.elim)

end

namespace Service
variable {s : Service} {identity : String} {now : Nat} {setting : Setting}

theorem dropIdleLease_gates : (s.dropIdleLease setting identity).gates = s.gates := by
  rw [Service.dropIdleLease]
  split
  · cases current : s.current identity with
    | none => rw [Service.dropLease, current]
    | some epoch => rw [dropLease_eq setting current]
  · rfl

theorem revokeLease_gates {reason : String} : (s.revokeLease setting identity reason).gates = s.gates := by
  rw [Service.revokeLease]
  split
  · rfl
  · exact dropIdleLease_gates

theorem beginUnlock_gates {project : Project} {onlyIfLocked : Bool} :
    (s.beginUnlock setting project onlyIfLocked now).1.gates = s.gates := by
  rw [Service.beginUnlock]
  split
  · rfl
  · cases s.leaseOf project.identity with
    | none => rfl
    | some previous =>
      dsimp only
      split
      · exact revokeLease_gates
      · split
        · rfl
        · split <;> rfl

theorem finishUnlock_gates {project : Project} {previous : Option String} {grant : Grant} {epoch : String} :
    (s.finishUnlock setting project previous grant epoch now).1.gates = s.gates := by
  rw [Service.finishUnlock]
  split
  · rfl
  · dsimp only
    rw [ensureWorker_eq]

variable {t : Service}

theorem Sound.under_gate {worker : Nat} {block : Service → Service} (sound : s.Sound)
    (acts : s.gated worker identity block = some t) :
    ∃ inside : Service, t = block inside ∧ inside.Sound ∧ Settled s inside ∧ inside.gates identity = some (.worker worker) ∧
      inside = { s with gates := Function.update s.gates identity (some (.worker worker)) } := by
  rw [Service.gated] at acts
  split at acts
  · rename_i open_
    obtain ⟨gripped, settled⟩ := sound.grip (some (.worker worker)) (sound.ungated open_ fun _ => by rintro ⟨⟩)
      (fun _ impossible => by cases impossible)
    exact ⟨_, (some.inj acts).symm, gripped, settled, Function.update_self .., rfl⟩
  · cases acts

section
variable {worker ref : Nat} {row : Worker} {control : Control} (sound : s.Sound) (found : s.workers worker = some row)
  (stands : row.control = control)
include sound found stands

theorem Sound.standing (taken : control.taken = some ref) : ∃ op, s.table.objects ref = some op ∧
    op.projectIdentity = row.projectIdentity ∧ control.Fits op :=
  stands ▸ sound.placed.taken worker row ref found (stands ▸ taken)

theorem Sound.gate (inside : control.gated = true) : s.gates row.projectIdentity = some (.worker worker) :=
  sound.gated worker row found (stands ▸ inside)

end

abbrev Advances (worker : Nat) (step : WorkerStep) (s t : Service) : Prop :=
  t.Sound ∧ Worked ((Action.worker worker step).starts s) ((Action.worker worker step).fails s) s t

theorem Sound.advance {worker : Nat} {row : Worker} {step : WorkerStep} (sound : s.Sound)
    (found : s.workers worker = some row) (acts : s.advance setting worker row step = some t) : Advances worker step s t := by
  have settled : ∀ {u : Service}, u.Sound ∧ Settled s u → Advances worker step s u := fun ⟨after, same⟩ => ⟨after, same.worked⟩
  rw [Service.advance.eq_def] at acts
  cases step with
  | pop =>
    dsimp only at acts
    split at acts
    · rename_i control queue
      cases acts
      exact settled (sound.pop found control queue)
    · cases acts
  | check now =>
    dsimp only at acts
    split at acts
    · rename_i ref control
      obtain ⟨op, here, acts⟩ := bind_eq_some_iff.1 acts
      obtain ⟨inside, rfl, gripped, _, gate, rfl⟩ := sound.under_gate acts
      obtain ⟨after, checked⟩ := gripped.check found here gate setting now control
      exact ⟨after, { checked with }⟩
    · cases acts
  | projectChanged =>
    dsimp only at acts
    split at acts
    · rename_i ref epoch control
      cases acts
      obtain ⟨op, here, _, pending⟩ := sound.standing found control rfl
      obtain ⟨after, refused, _⟩ := sound.refuse found (by rw [control]; rfl) here pending (sound.gate found control rfl) setting _
        (show _ ∨ Never _ ∧ _ from .inl rfl)
      exact ⟨after, refused⟩
    · cases acts
  | inheritFails stderr =>
    dsimp only at acts
    split at acts
    · rename_i ref epoch control
      cases acts
      obtain ⟨op, here, _, pending⟩ := sound.standing found control rfl
      obtain ⟨after, refused, _⟩ := sound.refuse found (by rw [control]; rfl) here pending (sound.gate found control rfl) setting _
        (show _ ∨ s.Checks worker op ∧ _ from .inr ⟨⟨row, ref, epoch, found, control, here⟩, rfl⟩)
      exact ⟨after, refused⟩
    · cases acts
  | dispatch now =>
    dsimp only at acts
    split at acts
    · rename_i ref epoch control
      obtain ⟨op, here, rfl⟩ := map_eq_some_iff.1 acts
      exact sound.dispatch found here (sound.gate found control rfl) control
    · cases acts
  | enter =>
    dsimp only at acts
    split at acts
    · rename_i ref control
      cases acts
      obtain ⟨op, here, _, busy⟩ := sound.standing found control rfl
      obtain ⟨moved, first⟩ := sound.moved found (by rw [control]; rfl) here (.running ref) rfl busy
        (fun _ impossible => by cases impossible) (fun impossible => by cases impossible)
      obtain ⟨after, second⟩ := moved.ungrip found (sound.gate found control rfl) rfl
      exact settled ⟨after, first.trans second⟩
    · cases acts
  | finish outcome =>
    dsimp only at acts
    split at acts
    · rename_i ref control
      obtain ⟨op, here, acts⟩ := bind_eq_some_iff.1 acts
      obtain ⟨inside, rfl, gripped, _, gate, rfl⟩ := sound.under_gate acts
      obtain ⟨after, finished⟩ := gripped.finish found (by rw [control]; rfl) here gate setting outcome control
      exact ⟨after, { finished with }⟩
    · cases acts
  | failRefresh =>
    dsimp only at acts
    split at acts
    · rename_i ref epoch control
      cases acts
      obtain ⟨op, here, _⟩ := sound.standing found control rfl
      exact settled (sound.failRefresh found (by rw [control]; rfl) here
        (sound.gate found control rfl) control)
    · cases acts
  | close now =>
    dsimp only at acts
    split at acts
    · rename_i ref refresh control
      cases acts
      obtain ⟨op, here, _, done⟩ := sound.standing found control rfl
      obtain ⟨moved, first⟩ := sound.moved found (by rw [control]; rfl) here (.leaving ref) rfl done
        (fun _ impossible => by cases impossible) (fun _ => sound.gate found control rfl)
      obtain ⟨after, second⟩ := moved.dropEnded setting row.projectIdentity now
      exact settled ⟨after, first.trans second⟩
    · cases acts
  | leave =>
    dsimp only at acts
    split at acts
    · rename_i ref control
      cases acts
      obtain ⟨op, here, _, done⟩ := sound.standing found control rfl
      have gate := sound.gate found control rfl
      obtain ⟨moved, first⟩ := sound.letGo found (by rw [control]; rfl) here done
      obtain ⟨after, second⟩ := moved.ungrip found gate rfl
      exact settled ⟨after, first.trans second⟩
    · cases acts
  | crash =>
    have recovering : ∀ {ref control op}, row.control = control → control.taken = some ref → s.table.objects ref = some op →
        (op.state = .running ∨ op.state.terminal = true) →
        (s.goto worker (.recovering ref)).Sound ∧ Settled s (s.goto worker (.recovering ref)) := fun stands taken here fits =>
      sound.moved found (stands ▸ taken) here (.recovering _) rfl fits (fun _ impossible => by cases impossible)
        (fun impossible => by cases impossible)
    have opening : ∀ {ref control op}, row.control = control → control.taken = some ref → control.gated = true →
        s.table.objects ref = some op → (op.state = .running ∨ op.state.terminal = true) →
        Advances worker .crash s ((s.goto worker (.recovering ref)).grip row.projectIdentity none) := by
      intro ref control op stands taken inside here fits
      obtain ⟨moved, first⟩ := recovering stands taken here fits
      obtain ⟨after, second⟩ := moved.ungrip found (sound.gate found stands inside) rfl
      exact settled ⟨after, first.trans second⟩
    dsimp only at acts
    split at acts
    · rename_i ref control
      cases acts
      obtain ⟨op, here, _, busy⟩ := sound.standing found control rfl
      exact opening control rfl rfl here (.inl busy)
    · rename_i ref refresh control
      cases acts
      obtain ⟨op, here, _, done⟩ := sound.standing found control rfl
      exact opening control rfl rfl here (.inr done)
    · rename_i ref control
      cases acts
      obtain ⟨op, here, _, done⟩ := sound.standing found control rfl
      exact opening control rfl rfl here (.inr done)
    · rename_i ref control
      cases acts
      obtain ⟨op, here, _, busy⟩ := sound.standing found control rfl
      exact settled (recovering control rfl here (.inl busy))
    · cases acts
  | recover stderr now =>
    dsimp only at acts
    split at acts
    · rename_i ref control
      obtain ⟨op, here, acts⟩ := bind_eq_some_iff.1 acts
      obtain ⟨inside, rfl, gripped, _, gate, rfl⟩ := sound.under_gate acts
      obtain ⟨after, recovered⟩ := gripped.recover found (by rw [control]; rfl) here gate setting stderr now control
      exact ⟨after, { recovered with }⟩
    · cases acts

theorem free_eq {next : Service} (acts : s.free identity next = some t) : s.gates identity = none ∧ t = next := by
  rw [free] at acts
  split at acts
  · rename_i open_
    exact ⟨open_, (some.inj acts).symm⟩
  · cases acts

theorem Sound.act {generation : String} {a : Action} (sound : s.Sound)
    (acts : s.act setting generation a = some t) : t.Sound ∧
      Evolves (Operation.Moves (a.starts s) (a.fails s)) (a.makes s t) (a.opens setting s) s t := by
  have settled : ∀ {u : Service}, u.Sound ∧ Settled s u → u.Sound ∧
      Evolves (Operation.Moves (a.starts s) (a.fails s)) (a.makes s t) (a.opens setting s) s u :=
    fun ⟨after, same⟩ => ⟨after, same.widen⟩
  rw [Service.act.eq_def] at acts
  cases a with
  | beginUnlock project onlyIfLocked now =>
    obtain ⟨open_, same⟩ := free_eq acts
    obtain ⟨one, first, idle⟩ := sound.beginUnlock setting project onlyIfLocked now
    have open' : (s.beginUnlock setting project onlyIfLocked now).1.gates project.identity = none := by
      rw [beginUnlock_gates]
      exact open_
    rw [same]
    split
    · rename_i next previous returned
      rw [returned] at one first idle open'
      obtain ⟨two, second⟩ := one.grip (some (.unlock previous)) (one.ungated open' fun _ => by rintro ⟨⟩) (fun _ _ => idle previous rfl)
      exact settled ⟨two, first.trans second⟩
    · rename_i next _ returned
      rw [returned] at one first
      exact settled ⟨one, first⟩
  | finishUnlock project grant epoch now =>
    dsimp only at acts
    split at acts
    · rename_i previous holds
      split at acts
      · cases acts
      · rename_i fresh
        cases acts
        rw [not_or, Bool.not_eq_true, isSome_eq_false_iff, isNone_iff_eq_none] at fresh
        obtain ⟨one, first⟩ := sound.finishUnlock setting grant now holds fresh.1
        have kept : (s.finishUnlock setting project previous grant epoch now).1.gates = s.gates := finishUnlock_gates
        obtain ⟨two, second⟩ := one.grip none (one.ungated (kept ▸ holds) fun _ => by rintro ⟨⟩) (fun _ impossible => by cases impossible)
        exact settled ⟨two, first.trans second⟩
    · cases acts
  | abandonUnlock identity =>
    dsimp only at acts
    split at acts
    · rename_i previous holds
      cases acts
      exact settled (sound.grip none (sound.ungated holds fun _ => by rintro ⟨⟩) (fun _ impossible => by cases impossible))
    · cases acts
  | lock project gate expectedLeaseId now =>
    obtain ⟨_, rfl⟩ := free_eq acts
    exact settled sound.lock
  | status project gate now =>
    obtain ⟨_, rfl⟩ := free_eq acts
    exact settled sound.revokeExpired
  | refreshAlias project epoch =>
    cases acts
    exact settled sound.refreshAlias
  | enterSubmit project now =>
    obtain ⟨_, rfl⟩ := free_eq acts
    exact settled (sound.requireLease setting project.identity now)
  | submit project request now =>
    cases acts
    obtain ⟨after, evolves⟩ := sound.submit setting generation project request now
    exact ⟨after, evolves.weaken (fun _ _ settles => settles.moves) (fun _ _ made => made) (fun _ impossible => impossible.elim)⟩
  | cancel id =>
    cases acts
    exact settled (sound.cancel id)
  | openAgentSession project pid label id token now =>
    dsimp only at acts
    split at acts
    · cases acts
    · rename_i fresh
      cases acts
      obtain ⟨after, evolves⟩ := sound.openAgentSession setting project pid label token now (by simpa using fresh)
      exact ⟨after, evolves.weaken (fun _ _ settles => settles.moves) (fun _ _ impossible => impossible.elim) (fun _ opened => opened)⟩
  | closeAgentSession id =>
    cases acts
    exact settled (sound.closeAgentSession id)
  | decideAgentSession project sessionId allow control now =>
    cases acts
    rcases s.decideAgentSession_cases setting project sessionId control allow now with same | same | ⟨lease, session, decides, same⟩
    · rw [same]
      exact settled ⟨sound, .refl s⟩
    · rw [same]
      exact settled (sound.requireLease setting project.identity now)
    · rw [same]
      cases allow with
      | false => exact settled sound.denied
      | true =>
        obtain ⟨after, evolves⟩ := sound.allowed decides
        exact ⟨after, evolves.weaken (fun _ _ settles => settles.moves) (fun _ _ impossible => impossible.elim) (fun _ allows => allows)⟩
  | issueAuthorization project now =>
    cases acts
    exact settled sound.issueAuthorization
  | expire identity now =>
    obtain ⟨_, rfl⟩ := free_eq acts
    exact settled sound.revokeExpired
  | worker w step =>
    obtain ⟨row, found, acts⟩ := bind_eq_some_iff.1 acts
    obtain ⟨after, worked⟩ := sound.advance found acts
    exact ⟨after, worked.weaken (fun _ _ moves => moves) (fun _ _ impossible => impossible.elim) (fun _ impossible => impossible.elim)⟩

end Service

end Kassiber.Operator

import Kassiber.Supervisor.DaemonCalls

/-!
What callers receive, over every interleaving: each record names its caller, comes once and comes in order.
-/

namespace Kassiber.Supervisor
open Lib.Runs List Function Nat

def letters (s : Process) (c : Nat) : List Delivery := s.received c ++ (s.queues c).filterMap Except.toOption

/-- Every record handed to a caller stands before this place of the output. -/
def Process.bound (s : Process) : Nat :=
  match s.reader with
  | .sending record _ _ => record.position
  | _ => s.read

namespace Pending
variable {pending : Pending} {id : String} {c : Nat}

theorem mem_of_get (found : pending.get id = some c) : (id, c) ∈ pending := by
  obtain ⟨entry, first, rfl⟩ := Option.map_eq_some_iff.1 found
  have matched := find?_some first
  have same : entry.1 = id := of_decide_eq_true matched
  exact same ▸ mem_of_find?_eq_some first

theorem mem_of_remove {entry : String × Nat} (kept : entry ∈ pending.remove id) : entry ∈ pending :=
  (mem_filter.1 kept).1

end Pending

variable {calls : Nat → Call} {s t : Process} {a : Action} {c : Nat}

variable {id : String}

theorem handling_route {bridged : Bool} {r : Response} (routed : handling bridged r = .route id) :
    r.requestKey = some id := by
  unfold handling at routed
  split at routed
  · split at routed <;> cases routed
  · split at routed
    · split at routed
      · cases routed
      · split at routed <;> cases routed
    · split at routed
      · cases routed
      · rename_i named
        cases routed
        exact named

/-- A line moves the reader on by one place, and nothing but the reader may change. -/
structure LineRead (s : Process) (line : Line) (t : Process) : Prop where
  read : t.read = s.read + 1
  output : t.output = s.output
  pending : t.pending = s.pending
  letters : ∀ c, letters t c = letters s c
  reader : t.reader = s.reader ∨ (∃ code, t.reader = .failing code) ∨
    ∃ r id c, line = .json r ∧ r.requestKey = some id ∧ s.pending.get id = some c ∧
      t.reader = .sending { position := s.read, response := r } id c

theorem readLine_read (s : Process) (bridged : Bool) (line : Line) : LineRead s line (s.readLine bridged line) := by
  cases line with
  | unreadable => exact ⟨rfl, rfl, rfl, fun _ => rfl, .inr (.inl ⟨_, rfl⟩)⟩
  | json r =>
    unfold Process.readLine
    dsimp only
    split
    · exact ⟨rfl, rfl, rfl, fun _ => rfl, .inl rfl⟩
    · exact ⟨rfl, rfl, rfl, fun _ => rfl, .inr (.inl ⟨_, rfl⟩)⟩
    · rename_i routed
      split
      · exact ⟨rfl, rfl, rfl, fun _ => rfl, .inl rfl⟩
      · rename_i found
        exact ⟨rfl, rfl, rfl, fun _ => rfl, .inr (.inr ⟨r, _, _, rfl, handling_route routed, found, rfl⟩)⟩

structure CallerFrame (calls : Nat → Call) (c : Nat) (s t : Process) : Prop where
  reader : t.reader = s.reader
  read : t.read = s.read
  output : t.output = s.output
  pending : ∀ entry ∈ t.pending, entry ∈ s.pending ∨ entry = ((calls c).requestId, c)
  letters : ∀ o, letters t o = letters s o

variable {record : Delivery} {labels : List Action}

theorem letters_received {rest : List Message} (mail : s.queues c = .ok record :: rest)
    (phase : Caller) (o : Nat) :
    letters { s.move c phase with
        queues := update s.queues c rest
        received := update s.received c (s.received c ++ [record]) } o = letters s o := by
  unfold letters
  by_cases own : o = c
  · subst own
    simp only [update_self, mail, List.append_assoc]
    rfl
  · simp only [update_of_ne own]

theorem letters_error {code : String} {rest : List Message} (mail : s.queues c = .error code :: rest)
    (phase : Caller) (o : Nat) :
    letters { s.move c phase with queues := update s.queues c rest } o = letters s o := by
  unfold letters
  by_cases own : o = c
  · subst own
    simp only [update_self, mail]
    rfl
  · simp only [update_of_ne own]
    rfl

theorem callerStep_frame (step : CallerStep calls s c a t) : CallerFrame calls c s t := by
  have same : ∀ phase, CallerFrame calls c s (s.move c phase) :=
    fun phase => ⟨rfl, rfl, rfl, fun _ => .inl, fun _ => rfl⟩
  cases step with
  | refused | checked | conflict | wrote | unwritten | disconnected => exact same _
  | inserted =>
    refine ⟨rfl, rfl, rfl, fun entry member => ?_, fun _ => rfl⟩
    exact (mem_append.1 member).imp_right mem_singleton.1
  | unregistered | left => exact ⟨rfl, rfl, rfl, fun _ member => .inl (Pending.mem_of_remove member), fun _ => rfl⟩
  | broke | killed | gaveUp => exact ⟨rfl, rfl, rfl, fun _ => .inl, fun _ => rfl⟩
  | received _ mail => exact ⟨rfl, rfl, rfl, fun _ => .inl, letters_received mail _⟩
  | receivedError _ mail => exact ⟨rfl, rfl, rfl, fun _ => .inl, letters_error mail _⟩

theorem letters_post_error (s : Process) (c : Nat) (code : String) (o : Nat) :
    letters (s.post c (.error code)) o = letters s o := by
  unfold letters Process.post
  by_cases own : o = c
  · subst own
    simp only [update_self, filterMap_append]
    simp [Except.toOption]
  · simp only [update_of_ne own]

theorem letters_post (s : Process) (c : Nat) (record : Delivery) (o : Nat) :
    letters (s.post c (.ok record)) o = letters s o ++ if o = c then [record] else [] := by
  unfold letters Process.post
  by_cases own : o = c
  · subst own
    simp only [update_self, filterMap_append, ite_true, List.append_assoc]
    rfl
  · simp only [update_of_ne own, if_neg own, append_nil]

def Addressed (calls : Nat → Call) (s : Process) (c : Nat) (record : Delivery) : Prop :=
  record.response.requestKey = some (calls c).requestId ∧ s.output[record.position]? = some (.json record.response)

structure Routed (calls : Nat → Call) (s : Process) : Prop where
  listed : ∀ entry ∈ s.pending, entry.1 = (calls entry.2).requestId
  held : ∀ record id c, s.reader = .sending record id c → Addressed calls s c record ∧ record.position < s.read
  mail : ∀ c, ∀ record ∈ letters s c, Addressed calls s c record ∧ record.position < s.bound
  ordered : ∀ c, (letters s c).Pairwise fun first later => first.position < later.position
  once : ∀ c other, ∀ record ∈ letters s c, ∀ again ∈ letters s other, record.position = again.position → c = other

theorem Process.bound_sending (sending : s.reader = .sending record id c) :
    s.bound = record.position := by
  rw [Process.bound, sending]

theorem Process.bound_other (idle : ∀ record id c, s.reader ≠ .sending record id c) : s.bound = s.read := by
  unfold Process.bound
  split
  · rename_i sending
    exact absurd sending (idle _ _ _)
  · rfl

theorem Routed.bound_le (routed : Routed calls s) : s.bound ≤ s.read := by
  by_cases sending : ∃ record id c, s.reader = .sending record id c
  · obtain ⟨record, id, c, sending⟩ := sending
    rw [Process.bound_sending sending]
    exact (routed.held record id c sending).2.le
  · rw [Process.bound_other fun record id c same => sending ⟨record, id, c, same⟩]

theorem Routed.frame (routed : Routed calls s) (same : ∀ c, letters t c = letters s c)
    (listed : ∀ entry ∈ t.pending, entry.1 = (calls entry.2).requestId)
    (longer : ∀ (p : Nat) (line : Line), s.output[p]? = some line → t.output[p]? = some line)
    (further : s.bound ≤ t.bound)
    (held : ∀ record id c, t.reader = .sending record id c → Addressed calls t c record ∧ record.position < t.read) :
    Routed calls t := by
  refine ⟨listed, held, ?_, ?_, ?_⟩
  · intro c record member
    rw [same] at member
    obtain ⟨⟨names, stands⟩, early⟩ := routed.mail c record member
    exact ⟨⟨names, longer _ _ stands⟩, early.trans_le further⟩
  · intro c
    rw [same]
    exact routed.ordered c
  · intro c other
    rw [same, same]
    exact routed.once c other

theorem Routed.halt (routed : Routed calls s) (same : ∀ c, letters t c = letters s c)
    (fewer : ∀ entry ∈ t.pending, entry ∈ s.pending) (output : t.output = s.output) (read : t.read = s.read)
    (idle : ∀ record id c, t.reader ≠ .sending record id c) : Routed calls t := by
  refine routed.frame same (fun entry member => routed.listed entry (fewer entry member))
    (fun _ _ stands => output ▸ stands) ?_ fun record id c sending => absurd sending (idle record id c)
  rw [Process.bound_other idle, read]
  exact routed.bound_le

theorem Routed.line {line : Line} (routed : Routed calls s) (next : s.output[s.read]? = some line)
    (reading : s.reader = .reading) (step : LineRead s line t) : Routed calls t := by
  have bound : s.bound = s.read := Process.bound_other fun _ _ _ sending => nomatch reading.symm.trans sending
  refine routed.frame step.letters (step.pending ▸ routed.listed) (fun _ _ stands => step.output ▸ stands) ?_ ?_
  · rw [bound]
    rcases step.reader with same | ⟨code, failing⟩ | ⟨r, id, c, -, -, -, sending⟩
    · rw [Process.bound_other fun _ _ _ sending => nomatch (reading.symm.trans same.symm).trans sending]
      exact step.read.ge.trans' (le_succ _)
    · rw [Process.bound_other fun _ _ _ sending => nomatch failing.symm.trans sending]
      exact step.read.ge.trans' (le_succ _)
    · rw [Process.bound_sending sending]
  · intro record id c sending
    rcases step.reader with same | ⟨code, failing⟩ | ⟨r, id', c', rfl, names, found, routing⟩
    · exact nomatch (reading.symm.trans same.symm).trans sending
    · exact nomatch failing.symm.trans sending
    · cases routing.symm.trans sending
      have own := routed.listed _ (Pending.mem_of_get found)
      refine ⟨⟨names.trans (congrArg some own), ?_⟩, step.read ▸ lt_succ_self _⟩
      rw [step.output]
      exact next

theorem Routed.send (routed : Routed calls s)
    (sending : s.reader = .sending record id c) :
    Routed calls { s.post c (.ok record) with reader := .reading } := by
  obtain ⟨addressed, early⟩ := routed.held record id c sending
  have bound := Process.bound_sending sending
  have mail : ∀ o, letters { s.post c (.ok record) with reader := .reading } o =
      letters s o ++ if o = c then [record] else [] := letters_post s c record
  have before : ∀ o, ∀ old ∈ letters s o, old.position < record.position :=
    fun o old member => bound ▸ (routed.mail o old member).2
  refine ⟨routed.listed, nofun, ?_, ?_, ?_⟩
  · intro o letter member
    rw [mail, mem_append] at member
    rcases member with old | fresh
    · exact ⟨(routed.mail o letter old).1, (before o letter old).trans early⟩
    · split at fresh
      · rename_i own
        rw [mem_singleton.1 fresh, own]
        exact ⟨addressed, early⟩
      · cases fresh
  · intro o
    rw [mail, pairwise_append]
    refine ⟨routed.ordered o, ?_, ?_⟩
    · split
      · exact pairwise_singleton _ _
      · exact .nil
    · intro old member fresh added
      split at added
      · rw [mem_singleton.1 added]
        exact before o old member
      · cases added
  · intro o other letter member again repeated same
    rw [mail, mem_append] at member repeated
    have fresh : ∀ {o letter}, letter ∈ (if o = c then [record] else []) → o = c ∧ letter = record := by
      intro o letter added
      split at added
      · rename_i own
        exact ⟨own, mem_singleton.1 added⟩
      · cases added
    rcases member with old | added
    · rcases repeated with older | readded
      · exact routed.once o other letter old again older same
      · obtain ⟨-, rfl⟩ := fresh readded
        exact absurd same (before o letter old).ne
    · obtain ⟨own, rfl⟩ := fresh added
      rcases repeated with older | readded
      · exact absurd same.symm (before other again older).ne
      · exact own.trans (fresh readded).1.symm

theorem Routed.reader (routed : Routed calls s) (step : ReaderStep s a t) : Routed calls t := by
  cases step with
  | line bridged reading next => exact routed.line next reading (readLine_read s bridged _)
  | sent sending _ => exact routed.send sending
  | unsent sending _ => exact routed.halt (fun _ => rfl) (fun _ => id) rfl rfl nofun
  | cleaned _ => exact routed.halt (fun _ => rfl) (fun _ => Pending.mem_of_remove) rfl rfl nofun
  | ended _ _ _ => exact routed.halt (fun _ => rfl) (fun _ => id) rfl rfl nofun
  | broke _ => exact routed.halt (fun _ => rfl) (fun _ => id) rfl rfl nofun
  | drained _ _ => exact routed.halt (fun _ => rfl) (fun _ none => absurd none not_mem_nil) rfl rfl nofun
  | told _ _ => exact routed.halt (letters_post_error s _ _) (fun _ => id) rfl rfl nofun
  | untold _ _ => exact routed.halt (fun _ => rfl) (fun _ => id) rfl rfl nofun
  | stopped _ => exact routed.halt (fun _ => rfl) (fun _ => id) rfl rfl nofun

theorem Routed.caller (routed : Routed calls s) (step : CallerStep calls s c a t) : Routed calls t := by
  have frame := callerStep_frame step
  have bound : t.bound = s.bound := by rw [Process.bound, Process.bound, frame.reader, frame.read]
  refine routed.frame frame.letters ?_ (fun _ _ stands => frame.output ▸ stands) bound.ge ?_
  · intro entry member
    rcases frame.pending entry member with old | rfl
    · exact routed.listed entry old
    · rfl
  · intro record id c sending
    obtain ⟨⟨names, stands⟩, early⟩ := routed.held record id c (frame.reader ▸ sending)
    exact ⟨⟨names, frame.output ▸ stands⟩, frame.read ▸ early⟩

theorem Routed.daemon (routed : Routed calls s) (step : DaemonStep s a t) : Routed calls t := by
  cases step with
  | line line _ _ =>
    have longer : ∀ (p : Nat) (old : Line), s.output[p]? = some old → (s.output ++ [line])[p]? = some old := by
      intro p old stands
      rw [getElem?_append_left (List.getElem?_eq_some_iff.1 stands).1]
      exact stands
    refine routed.frame (fun _ => rfl) routed.listed longer le_rfl ?_
    intro record id c sending
    obtain ⟨⟨names, stands⟩, early⟩ := routed.held record id c sending
    exact ⟨⟨names, longer _ _ stands⟩, early⟩
  | closed _ => exact routed.frame (fun _ => rfl) routed.listed (fun _ _ => id) le_rfl routed.held
  | exited _ => exact routed.frame (fun _ => rfl) routed.listed (fun _ _ => id) le_rfl routed.held

theorem Routed.step (routed : Routed calls s) (step : Step calls s a t) : Routed calls t := by
  cases step with
  | reader step => exact routed.reader step
  | caller c step => exact routed.caller step
  | daemon step => exact routed.daemon step

theorem routed_start : Routed calls {} :=
  ⟨fun _ none => absurd none not_mem_nil, nofun,
    fun _ _ none => absurd none not_mem_nil, fun _ => .nil, fun _ _ _ none => absurd none not_mem_nil⟩

theorem routed_run (run : Run (Step calls) {} labels s) : Routed calls s :=
  run.invariant (fun _ _ _ routed step => routed.step step) routed_start

/-- A caller sees the records that name its request, in the order in which the daemon wrote them and each but once. -/
structure RightlyAnswered (calls : Nat → Call) (s : Process) : Prop where
  own : ∀ c, ∀ record ∈ s.received c, record.response.requestKey = some (calls c).requestId
  written : ∀ c, ∀ record ∈ s.received c, s.output[record.position]? = some (.json record.response)
  ordered : ∀ c, (s.received c).Pairwise fun first later => first.position < later.position
  once : ∀ c other, ∀ record ∈ s.received c, ∀ again ∈ s.received other, record.position = again.position → c = other

theorem Routed.answered (routed : Routed calls s) : RightlyAnswered calls s := by
  have letter : ∀ {c record}, record ∈ s.received c → record ∈ letters s c := mem_append_left _
  refine ⟨?_, ?_, ?_, ?_⟩
  · exact fun c record member => (routed.mail c record (letter member)).1.1
  · exact fun c record member => (routed.mail c record (letter member)).1.2
  · exact fun c => (routed.ordered c).sublist (sublist_append_left _ _)
  · exact fun c other record member again repeated =>
      routed.once c other record (letter member) again (letter repeated)

/-- The reader has stopped, and a caller waits on a sender that only the registry holds. -/
structure Orphaned (s : Process) (c : Nat) : Prop where
  stopped : s.reader = .stopped
  waiting : s.callers c = .waiting
  silent : s.queues c = []
  listed : c ∈ s.pending.map Prod.snd

def TimelyStep (calls : Nat → Call) (s : Process) (a : Action) (t : Process) : Prop :=
  Step calls s a t ∧ ∀ c, a = .insert c → ¬s.reader.drained

def Emptied (s : Process) : Prop := s.reader.drained → s.pending = []

theorem callerStep_pending (step : CallerStep calls s c a t) :
    (∀ entry ∈ t.pending, entry ∈ s.pending) ∨ a = .insert c := by
  cases step with
  | inserted => exact .inr rfl
  | unregistered | left => exact .inl fun _ => Pending.mem_of_remove
  | refused | checked | conflict | wrote | unwritten | disconnected | broke | killed | gaveUp | received
  | receivedError => exact .inl fun _ => id

theorem Emptied.reader (emptied : Emptied s) (step : ReaderStep s a t) : Emptied t := by
  cases step with
  | line bridged reading next =>
    intro drained
    rcases (readLine_read s bridged _).reader with same | ⟨code, failing⟩ | ⟨r, id, c, -, -, -, sending⟩
    · rw [same, reading] at drained
      exact drained.elim
    · rw [failing] at drained
      exact drained.elim
    · rw [sending] at drained
      exact drained.elim
  | sent _ _ | unsent _ _ | cleaned _ | ended _ _ _ | broke _ => exact False.elim
  | drained _ _ => exact fun _ => rfl
  | told draining _ | untold draining _ | stopped draining =>
    intro _
    refine emptied ?_
    rw [draining]
    trivial

theorem Emptied.step (emptied : Emptied s) (step : TimelyStep calls s a t) : Emptied t := by
  obtain ⟨step, timely⟩ := step
  cases step with
  | reader step => exact emptied.reader step
  | caller c step =>
    intro drained
    rw [(callerStep_frame step).reader] at drained
    rcases callerStep_pending step with fewer | late
    · refine eq_nil_iff_forall_not_mem.2 fun entry member => ?_
      have earlier := fewer entry member
      rw [emptied drained] at earlier
      cases earlier
    · exact absurd drained (timely c late)
  | daemon step =>
    cases step with
    | line _ _ _ | closed _ | exited _ => exact emptied

theorem emptied_run (run : Run (TimelyStep calls) {} labels s) : Emptied s :=
  run.invariant (fun _ _ _ emptied step => emptied.step step) False.elim

theorem waiting_wakes (run : Run (TimelyStep calls) {} labels s) (stopped : s.reader = .stopped)
    (waiting : s.callers c = .waiting) :
    ∃ a t, (a = .receive c ∨ a = .disconnect c) ∧ CallerStep calls s c a t := by
  have empty : s.pending = [] := emptied_run run (by rw [stopped]; trivial)
  cases mail : s.queues c with
  | nil =>
    refine ⟨_, _, .inr rfl, .disconnected waiting mail ?_⟩
    rintro (listed | ⟨_, _, sending⟩ | ⟨_, _, draining, -⟩)
    · rw [empty] at listed
      cases listed
    · exact nomatch stopped.symm.trans sending
    · exact nomatch stopped.symm.trans draining
  | cons message rest =>
    cases message with
    | error code => exact ⟨_, _, .inl rfl, .receivedError waiting mail⟩
    | ok record => exact ⟨_, _, .inl rfl, .received waiting mail⟩

/-- Callers receive what is theirs in every run, and none is left behind in a run without a late registration. -/
theorem calls_answered (calls : Nat → Call) :
    (∀ labels s, Run (Step calls) {} labels s → RightlyAnswered calls s) ∧
      ∀ labels s, Run (TimelyStep calls) {} labels s → ∀ c, ¬Orphaned s c := by
  refine ⟨fun _ _ run => (routed_run run).answered, fun _ _ run c orphaned => ?_⟩
  have listed := orphaned.listed
  rw [emptied_run run (by rw [orphaned.stopped]; trivial)] at listed
  cases listed

/-! One caller of a status, and a daemon that answers it. -/

def statusCalls (c : Nat) : Call := { requestId := toString c, kind := "status" }

def statusAnswer : Response := { kind := some "status", requestId := some (.text "0"), body := "ready" }

theorem status_answered : ∃ labels s, Run (TimelyStep statusCalls) {} labels s ∧ RightlyAnswered statusCalls s ∧
    s.received 0 = [{ position := 0, response := statusAnswer }] ∧ ∀ c, ¬Orphaned s c := by
  have timely : ∀ {s a t}, Step statusCalls s a t → ¬s.reader.drained → TimelyStep statusCalls s a t :=
    fun step still => ⟨step, fun _ _ => still⟩
  have start : Run (TimelyStep statusCalls) {} [] {} := .rest _
  have checked := start.snoc (timely (.caller 0 (.checked rfl rfl)) id)
  have inserted := checked.snoc (timely (.caller 0 (.inserted rfl rfl)) id)
  have wrote := inserted.snoc (timely (.caller 0 (.wrote rfl)) id)
  have answered := wrote.snoc (timely (.daemon (.line (.json statusAnswer) rfl rfl)) id)
  have read := answered.snoc (timely (.reader (.line true rfl rfl)) id)
  have sent := read.snoc (timely (.reader (.sent rfl (fun _ other => Caller.noConfusion other))) id)
  have run := sent.snoc (timely (.caller 0 (.received rfl rfl)) id)
  have plain := run.weaken fun _ _ _ step => step.1
  exact ⟨_, _, run, (calls_answered statusCalls).1 _ _ plain, rfl, (calls_answered statusCalls).2 _ _ run⟩

/-- The daemon writes a line that is no record while a caller stands between its check and its registration. -/
theorem late_registration_orphaned : ∃ labels s, Run (Step statusCalls) {} labels s ∧ Orphaned s 0 := by
  have start : Run (Step statusCalls) {} [] {} := .rest _
  have checked := start.snoc (.caller 0 (.checked rfl rfl))
  have garbled := checked.snoc (.daemon (.line .unreadable rfl rfl))
  have failed := garbled.snoc (.reader (.line true rfl rfl))
  have drained := failed.snoc (.reader (.drained rfl (List.Perm.refl _)))
  have stopped := drained.snoc (.reader (.stopped rfl))
  have inserted := stopped.snoc (.caller 0 (.inserted rfl rfl))
  have run := inserted.snoc (.caller 0 (.wrote rfl))
  exact ⟨_, _, run, rfl, rfl, rfl, .head _⟩

theorem garbled_status_wakes : ∃ labels s, Run (TimelyStep statusCalls) {} labels s ∧ s.reader = .stopped ∧
    s.callers 0 = .waiting ∧ ∃ a t, (a = .receive 0 ∨ a = .disconnect 0) ∧ CallerStep statusCalls s 0 a t := by
  have start : Run (TimelyStep statusCalls) {} [] {} := .rest _
  have checked := start.snoc (And.intro (.caller 0 (.checked rfl rfl)) nofun)
  have inserted := checked.snoc (And.intro (.caller 0 (.inserted rfl rfl)) fun _ _ => id)
  have wrote := inserted.snoc (And.intro (.caller 0 (.wrote rfl)) nofun)
  have garbled := wrote.snoc (And.intro (.daemon (.line .unreadable rfl rfl)) nofun)
  have failed := garbled.snoc (And.intro (.reader (.line true rfl rfl)) nofun)
  have drained := failed.snoc (And.intro (.reader (.drained rfl (List.Perm.refl _))) nofun)
  have told := drained.snoc (And.intro (.reader (.told rfl fun _ other => Caller.noConfusion other)) nofun)
  have run := told.snoc (And.intro (.reader (.stopped rfl)) nofun)
  exact ⟨_, _, run, rfl, rfl, waiting_wakes run rfl rfl⟩

end Kassiber.Supervisor

import Kassiber.Operator.Tables
import Kassiber.Operator.Service

/-!
Where an operation is while it is not finished: retained, and held once by the registered worker of its
project, in the queue or in the hands of the worker's thread.
-/

namespace Kassiber.Operator
open Lib.Keyed List Option
open Function (update update_self update_of_ne)

def Control.taken : Control → Option Nat
  | .idle => none
  | .popped ref | .checked ref _ | .started ref | .running ref | .finished ref _ | .leaving ref | .recovering ref => some ref

def Worker.held (row : Worker) : List Nat := row.control.taken.toList ++ row.queue

def Operation.Pending (op : Operation) : Prop :=
  op.state = .queued ∨ op.state = .cancelled ∧ op.cancellationRequested = true

def Control.Fits (op : Operation) : Control → Prop
  | .idle => True
  | .popped _ | .checked _ _ => op.Pending
  | .started _ | .running _ => op.state = .running
  | .finished _ _ | .leaving _ => op.state.terminal = true
  | .recovering _ => op.state = .running ∨ op.state.terminal = true

def registeredAt (registered : List (String × Nat)) (identity : String) : Option Nat :=
  (rowAt Prod.fst registered identity).map Prod.snd

theorem registeredAt_filter {registered : List (String × Nat)} {identity name : String} (apart : name ≠ identity) :
    registeredAt (registered.filter (·.1 ≠ identity)) name = registeredAt registered name :=
  congrArg (Option.map Prod.snd) (rowAt_filter (fun entry : String × Nat => entry.1 ≠ identity)
    (fun entry _ (same : entry.1 = name) => by rw [same]; exact apart))

structure Placed (table : OperationTable) (workers : Nat → Option Worker) (registered : List (String × Nat)) : Prop where
  queued : ∀ w row ref, workers w = some row → ref ∈ row.queue →
    ∃ op, table.objects ref = some op ∧ op.projectIdentity = row.projectIdentity ∧ op.Pending
  taken : ∀ w row ref, workers w = some row → row.control.taken = some ref →
    ∃ op, table.objects ref = some op ∧ op.projectIdentity = row.projectIdentity ∧ row.control.Fits op
  distinct : ∀ w row, workers w = some row → row.held.Nodup
  apart : ∀ w w' row row' ref, workers w = some row → workers w' = some row' → ref ∈ row.held → ref ∈ row'.held → w = w'
  live : ∀ ref op, table.objects ref = some op → op.state.terminal = false → ref ∈ table.retained ∧
    ∃ w row, registeredAt registered op.projectIdentity = some w ∧ workers w = some row ∧ ref ∈ row.held
  quiet : ∀ ref op, table.objects ref = some op → op.state = .queued → op.cancellationRequested = false
  known : ∀ identity w, registeredAt registered identity = some w → ∃ row, workers w = some row ∧ row.projectIdentity = identity

section
variable {row : Worker} {ref : Nat}

theorem mem_held : ref ∈ row.held ↔ row.control.taken = some ref ∨ ref ∈ row.queue := by
  rw [Worker.held, mem_append, mem_toList]

theorem queue_apart (distinct : row.held.Nodup) (taken : row.control.taken = some ref) : ref ∉ row.queue := by
  rw [Worker.held, taken] at distinct
  exact (nodup_cons.1 distinct).1

theorem Operation.Pending.settles {op op' : Operation} (pending : op.Pending) (settles : op.Settles op') : op'.Pending := by
  rcases settles.state with ⟨state, requested⟩ | ⟨_, cancelled, requested⟩
  · rw [Operation.Pending, state, requested]
    exact pending
  · exact .inr ⟨cancelled, requested⟩

theorem Control.Fits.settles {op op' : Operation} {control : Control} (fits : control.Fits op) (settles : op.Settles op') :
    control.Fits op' := by
  have unfinished : op.state ≠ .queued → op'.state = op.state := fun started =>
    settles.state.elim (·.1) fun queued => absurd queued.1 started
  cases control with
  | idle => trivial
  | popped | checked => exact Operation.Pending.settles fits settles
  | started | running =>
    have runs : op.state = .running := fits
    exact (unfinished (by rw [runs]; exact OperationState.noConfusion)).trans runs
  | finished | leaving =>
    have done : op.state.terminal = true := fits
    exact (congrArg OperationState.terminal (unfinished (fun queued => by rw [queued] at done; cases done))).trans done
  | recovering =>
    rcases (fits : op.state = .running ∨ op.state.terminal = true) with runs | done
    · exact .inl ((unfinished (by rw [runs]; exact OperationState.noConfusion)).trans runs)
    · exact .inr ((congrArg OperationState.terminal
        (unfinished (fun queued => by rw [queued] at done; cases done))).trans done)

end

theorem update_some {ι α : Type} [DecidableEq ι] {f : ι → Option α} {w v : ι} {x y : α}
    (found : update f w (some x) v = some y) : v = w ∧ y = x ∨ v ≠ w ∧ f v = some y := by
  by_cases same : v = w
  · subst same
    rw [update_self] at found
    cases found
    exact .inl ⟨rfl, rfl⟩
  · rw [update_of_ne same] at found
    exact .inr ⟨same, found⟩

namespace Placed
variable {table table' : OperationTable} {workers : Nat → Option Worker} {registered : List (String × Nat)}
  {w w' ref ref' : Nat} {row row' : Worker} {op op' : Operation} (placed : Placed table workers registered)
include placed

theorem running_taken (here : table.objects ref = some op) (runs : op.state = .running) :
    ∃ w row, registeredAt registered op.projectIdentity = some w ∧ workers w = some row ∧ row.control.taken = some ref ∧
      row.control.Fits op := by
  obtain ⟨_, w, row, own, there, held⟩ := placed.live ref op here (by rw [runs]; rfl)
  refine ⟨w, row, own, there, ?_⟩
  rcases mem_held.1 held with taken | waiting
  · obtain ⟨op', same, _, fits⟩ := placed.taken w row ref there taken
    cases here.symm.trans same
    exact ⟨taken, fits⟩
  · obtain ⟨op', same, _, pending⟩ := placed.queued w row ref there waiting
    cases here.symm.trans same
    rcases pending with queued | ⟨cancelled, _⟩
    · rw [runs] at queued
      cases queued
    · rw [runs] at cancelled
      cases cancelled

theorem one_running (here : table.objects ref = some op) (runs : op.state = .running) (there : table.objects ref' = some op')
    (runs' : op'.state = .running) (same : op.projectIdentity = op'.projectIdentity) : ref = ref' := by
  obtain ⟨w, row, own, found, taken, _⟩ := placed.running_taken here runs
  obtain ⟨w', row', own', found', taken', _⟩ := placed.running_taken there runs'
  rw [same, own'] at own
  cases own
  cases found.symm.trans found'
  exact some.inj (taken.symm.trans taken')

theorem registered_of_held (found : workers w = some row) (held : ref ∈ row.held) (here : table.objects ref = some op)
    (unfinished : op.state.terminal = false) : registeredAt registered op.projectIdentity = some w := by
  obtain ⟨_, w', row', own, found', held'⟩ := placed.live ref op here unfinished
  cases placed.apart w w' row row' ref found found' held held'
  exact own

theorem fits (found : workers w = some row) (taken : row.control.taken = some ref) (here : table.objects ref = some op) :
    op.projectIdentity = row.projectIdentity ∧ row.control.Fits op := by
  obtain ⟨op', same, owner, fits⟩ := placed.taken w row ref found taken
  cases here.symm.trans same
  exact ⟨owner, fits⟩

theorem settle (settles : Rewrites (fun _ => Operation.Settles) table table') : Placed table' workers registered where
  queued w row ref found member := by
    obtain ⟨op, here, owner, pending⟩ := placed.queued w row ref found member
    obtain ⟨op', there, kept⟩ := settles.present ref op here
    exact ⟨op', there, kept.lasts.same.projectIdentity.trans owner, pending.settles kept⟩
  taken w row ref found taken := by
    obtain ⟨op, here, owner, fits⟩ := placed.taken w row ref found taken
    obtain ⟨op', there, kept⟩ := settles.present ref op here
    exact ⟨op', there, kept.lasts.same.projectIdentity.trans owner, fits.settles kept⟩
  distinct := placed.distinct
  apart := placed.apart
  live ref op' there unfinished := by
    obtain ⟨op, here, kept⟩ := settles.source there
    obtain ⟨member, w, row, own, found, held⟩ := placed.live ref op here (OperationTable.settles_unfinished kept unfinished)
    exact ⟨settles.keeps ref op' member there unfinished, w, row, kept.lasts.same.projectIdentity ▸ own, found, held⟩
  quiet ref op' there queued := by
    obtain ⟨op, here, kept⟩ := settles.source there
    rcases kept.state with ⟨state, requested⟩ | ⟨_, cancelled, _⟩
    · exact requested.trans (placed.quiet ref op here (state ▸ queued))
    · rw [queued] at cancelled
      cases cancelled
  known := placed.known

theorem rework (found : workers w = some row) (owner : row'.projectIdentity = row.projectIdentity)
    (queue : ∀ ref ∈ row'.queue, ref ∈ row.queue) (distinct : row'.held.Nodup) (held : ∀ ref ∈ row'.held, ref ∈ row.held)
    (fits : ∀ ref, row'.control.taken = some ref → ∃ op, table.objects ref = some op ∧
      op.projectIdentity = row.projectIdentity ∧ row'.control.Fits op)
    (dropped : ∀ ref ∈ row.held, ref ∈ row'.held ∨ ∀ op, table.objects ref = some op → op.state.terminal = true) :
    Placed table (update workers w (some row')) registered where
  queued v other ref there member := by
    rcases update_some there with ⟨rfl, rfl⟩ | ⟨-, there⟩
    · rw [owner]
      exact placed.queued v row ref found (queue ref member)
    · exact placed.queued v other ref there member
  taken v other ref there taken := by
    rcases update_some there with ⟨rfl, rfl⟩ | ⟨-, there⟩
    · rw [owner]
      exact fits ref taken
    · exact placed.taken v other ref there taken
  distinct v other there := by
    rcases update_some there with ⟨rfl, rfl⟩ | ⟨-, there⟩
    · exact distinct
    · exact placed.distinct v other there
  apart v v' other other' ref there there' member member' := by
    have before : ∀ v other, update workers w (some row') v = some other → ref ∈ other.held →
        ∃ old, workers v = some old ∧ ref ∈ old.held := by
      intro v other there member
      rcases update_some there with ⟨rfl, rfl⟩ | ⟨-, there⟩
      · exact ⟨row, found, held ref member⟩
      · exact ⟨other, there, member⟩
    obtain ⟨old, here, inside⟩ := before v other there member
    obtain ⟨old', here', inside'⟩ := before v' other' there' member'
    exact placed.apart v v' old old' ref here here' inside inside'
  live ref op here unfinished := by
    obtain ⟨member, v, other, own, there, inside⟩ := placed.live ref op here unfinished
    by_cases same : v = w
    · subst same
      cases there.symm.trans found
      rcases dropped ref inside with kept | finished
      · exact ⟨member, v, row', own, update_self .., kept⟩
      · rw [finished op here] at unfinished
        cases unfinished
    · exact ⟨member, v, other, own, by rwa [update_of_ne same], inside⟩
  quiet := placed.quiet
  known identity v own := by
    obtain ⟨other, there, named⟩ := placed.known identity v own
    by_cases same : v = w
    · subst same
      cases there.symm.trans found
      exact ⟨row', update_self .., owner.trans named⟩
    · exact ⟨other, by rwa [update_of_ne same], named⟩

theorem turn {f : Operation → Operation} {control : Control} (found : workers w = some row)
    (taken : row.control.taken = some ref) (holds : control.taken = some ref) (here : table.objects ref = some op)
    (rewrites : Rewrites (OperationTable.At ref f) table table') (same : op.Same (f op)) (fits : control.Fits (f op))
    (started : (f op).state ≠ .queued) (open_ : (f op).state.terminal = false → op.state.terminal = false) :
    Placed table' (update workers w (some { row with control })) registered := by
  have distinct := placed.distinct w row found
  have unqueued := queue_apart distinct taken
  have heldSame : ({ row with control } : Worker).held = row.held := by
    rw [Worker.held, Worker.held, taken, holds]
  have mine : ref ∈ row.held := mem_held.2 (.inl taken)
  have owner := (placed.fits found taken here).1
  have others : ∀ v other, workers v = some other → v ≠ w → ref ∉ other.held := fun v other there apart inside =>
    apart (placed.apart v w other row ref there found inside mine)
  have kept : ∀ ref' op', ref' ≠ ref → table.objects ref' = some op' → table'.objects ref' = some op' := by
    intro ref' op' apart there
    obtain ⟨op'', after, written⟩ := rewrites.present ref' op' there
    rw [OperationTable.At, if_neg apart] at written
    rw [after, written]
  have turned : table'.objects ref = some (f op) := by
    obtain ⟨op', after, written⟩ := rewrites.present ref op here
    rw [OperationTable.At, if_pos rfl] at written
    rw [after, written]
  have heldAt : ∀ v other ref', update workers w (some { row with control }) v = some other → ref' ∈ other.held →
      ∃ old, workers v = some old ∧ ref' ∈ old.held := by
    intro v other ref' there member
    rcases update_some there with ⟨rfl, rfl⟩ | ⟨-, there⟩
    · exact ⟨row, found, heldSame ▸ member⟩
    · exact ⟨other, there, member⟩
  refine ⟨?_, ?_, ?_, ?_, ?_, ?_, ?_⟩
  · intro v other ref' there member
    rcases update_some there with ⟨rfl, rfl⟩ | ⟨same, there⟩
    · obtain ⟨op', before, own, pending⟩ := placed.queued v row ref' found member
      exact ⟨op', kept ref' op' (fun same => unqueued (same ▸ member)) before, own, pending⟩
    · obtain ⟨op', before, own, pending⟩ := placed.queued v other ref' there member
      have apart : ref' ≠ ref := fun equal => others v other there same (mem_held.2 (.inr (equal ▸ member)))
      exact ⟨op', kept ref' op' apart before, own, pending⟩
  · intro v other ref' there inside
    rcases update_some there with ⟨rfl, rfl⟩ | ⟨same, there⟩
    · cases holds.symm.trans inside
      exact ⟨f op, turned, (Operation.Same.projectIdentity ‹op.Same (f op)›).trans owner, fits⟩
    · obtain ⟨op', before, own, fits'⟩ := placed.taken v other ref' there inside
      have apart : ref' ≠ ref := fun equal => others v other there same (mem_held.2 (.inl (equal ▸ inside)))
      exact ⟨op', kept ref' op' apart before, own, fits'⟩
  · intro v other there
    rcases update_some there with ⟨rfl, rfl⟩ | ⟨-, there⟩
    · rwa [heldSame]
    · exact placed.distinct v other there
  · intro v v' other other' ref' there there' member member'
    obtain ⟨old, before, inside⟩ := heldAt v other ref' there member
    obtain ⟨old', before', inside'⟩ := heldAt v' other' ref' there' member'
    exact placed.apart v v' old old' ref' before before' inside inside'
  · intro ref' op' there unfinished
    have stays : ∀ v other, workers v = some other → ref' ∈ other.held →
        ∃ row', update workers w (some { row with control }) v = some row' ∧ ref' ∈ row'.held := by
      intro v other before inside
      by_cases same : v = w
      · subst same
        cases before.symm.trans found
        exact ⟨_, update_self .., heldSame.symm ▸ inside⟩
      · exact ⟨other, by rwa [update_of_ne same], inside⟩
    by_cases equal : ref' = ref
    · subst equal
      cases turned.symm.trans there
      obtain ⟨member, v, other, own, before, inside⟩ := placed.live ref' op here (open_ unfinished)
      obtain ⟨row', after, inside'⟩ := stays v other before inside
      exact ⟨rewrites.keeps ref' _ member there unfinished, v, row',
        (Operation.Same.projectIdentity ‹op.Same (f op)›).symm ▸ own, after, inside'⟩
    · obtain ⟨op'', before, written⟩ := rewrites.source there
      rw [OperationTable.At, if_neg equal] at written
      subst written
      obtain ⟨member, v, other, own, found', inside⟩ := placed.live ref' op' before unfinished
      obtain ⟨row', after, inside'⟩ := stays v other found' inside
      exact ⟨rewrites.keeps ref' op' member there unfinished, v, row', own, after, inside'⟩
  · intro ref' op' there queued
    by_cases equal : ref' = ref
    · subst equal
      cases turned.symm.trans there
      exact absurd queued started
    · obtain ⟨op'', before, written⟩ := rewrites.source there
      rw [OperationTable.At, if_neg equal] at written
      subst written
      exact placed.quiet ref' op' before queued
  · intro identity v own
    obtain ⟨other, there, named⟩ := placed.known identity v own
    by_cases same : v = w
    · subst same
      cases there.symm.trans found
      exact ⟨_, update_self .., named⟩
    · exact ⟨other, by rwa [update_of_ne same], named⟩

theorem enqueue (own : registeredAt registered op.projectIdentity = some w) (found : workers w = some row)
    (absent : table.objects ref = none) (queued : op.state = .queued) (quiet : op.cancellationRequested = false) :
    Placed { table with objects := update table.objects ref (some op), retained := table.retained ++ [ref] }
      (update workers w (some { row with queue := row.queue ++ [ref] })) registered := by
  have owner : row.projectIdentity = op.projectIdentity := by
    obtain ⟨row', found', named⟩ := placed.known _ w own
    cases found.symm.trans found'
    exact named
  have unheld : ∀ v other, workers v = some other → ref ∉ other.held := by
    intro v other there inside
    rcases mem_held.1 inside with taken | waiting
    · obtain ⟨op', present, _⟩ := placed.taken v other ref there taken
      rw [absent] at present
      cases present
    · obtain ⟨op', present, _⟩ := placed.queued v other ref there waiting
      rw [absent] at present
      cases present
  have heldAt : ({ row with queue := row.queue ++ [ref] } : Worker).held = row.held ++ [ref] := by
    rw [Worker.held, Worker.held, List.append_assoc]
  have kept : ∀ {ref' op'}, table.objects ref' = some op' → update table.objects ref (some op) ref' = some op' := by
    intro ref' op' there
    have apart : ref' ≠ ref := fun same => by rw [same, absent] at there; cases there
    rwa [update_of_ne apart]
  have before : ∀ v other ref', update workers w (some { row with queue := row.queue ++ [ref] }) v = some other →
      ref' ∈ other.held → ref' = ref ∧ v = w ∨ ∃ old, workers v = some old ∧ ref' ∈ old.held := by
    intro v other ref' there inside
    rcases update_some there with ⟨rfl, rfl⟩ | ⟨-, there⟩
    · rw [heldAt, mem_append, mem_singleton] at inside
      rcases inside with old | new
      · exact .inr ⟨row, found, old⟩
      · exact .inl ⟨new, rfl⟩
    · exact .inr ⟨other, there, inside⟩
  refine ⟨?_, ?_, ?_, ?_, ?_, ?_, ?_⟩
  · intro v other ref' there member
    rcases update_some there with ⟨rfl, rfl⟩ | ⟨-, there⟩
    · rcases mem_append.1 member with old | new
      · obtain ⟨op', present, rest⟩ := placed.queued v row ref' found old
        exact ⟨op', kept present, rest⟩
      · cases mem_singleton.1 new
        exact ⟨op, update_self .., owner.symm, .inl queued⟩
    · obtain ⟨op', present, rest⟩ := placed.queued v other ref' there member
      exact ⟨op', kept present, rest⟩
  · intro v other ref' there taken
    rcases update_some there with ⟨rfl, rfl⟩ | ⟨-, there⟩
    · obtain ⟨op', present, rest⟩ := placed.taken v row ref' found taken
      exact ⟨op', kept present, rest⟩
    · obtain ⟨op', present, rest⟩ := placed.taken v other ref' there taken
      exact ⟨op', kept present, rest⟩
  · intro v other there
    rcases update_some there with ⟨rfl, rfl⟩ | ⟨-, there⟩
    · rw [heldAt, nodup_append]
      refine ⟨placed.distinct v row found, nodup_singleton _, ?_⟩
      rintro ref' inside other single rfl
      exact unheld v row found (mem_singleton.1 single ▸ inside)
    · exact placed.distinct v other there
  · intro v v' other other' ref' there there' inside inside'
    rcases before v other ref' there inside with ⟨new, here⟩ | ⟨old, present, held⟩
    · rcases before v' other' ref' there' inside' with ⟨_, here'⟩ | ⟨old', present', held'⟩
      · exact here.trans here'.symm
      · exact absurd (new ▸ held') (unheld v' old' present')
    · rcases before v' other' ref' there' inside' with ⟨new', _⟩ | ⟨old', present', held'⟩
      · exact absurd (new' ▸ held) (unheld v old present)
      · exact placed.apart v v' old old' ref' present present' held held'
  · intro ref' op' there unfinished
    dsimp only at there
    rcases update_some there with ⟨rfl, rfl⟩ | ⟨same, there⟩
    · refine ⟨mem_append_right _ (mem_singleton_self _), w, _, own, update_self .., ?_⟩
      rw [heldAt]
      exact mem_append_right _ (mem_singleton_self _)
    · obtain ⟨member, v, other, own', present, held⟩ := placed.live ref' op' there unfinished
      refine ⟨mem_append_left _ member, v, ?_⟩
      by_cases same : v = w
      · subst same
        cases present.symm.trans found
        refine ⟨_, own', update_self .., ?_⟩
        rw [heldAt]
        exact mem_append_left _ held
      · exact ⟨other, own', by rwa [update_of_ne same], held⟩
  · intro ref' op' there waiting
    dsimp only at there
    rcases update_some there with ⟨rfl, rfl⟩ | ⟨-, there⟩
    · exact quiet
    · exact placed.quiet ref' op' there waiting
  · intro identity v own'
    obtain ⟨other, present, named⟩ := placed.known identity v own'
    by_cases same : v = w
    · subst same
      cases present.symm.trans found
      exact ⟨_, update_self .., named⟩
    · exact ⟨other, by rwa [update_of_ne same], named⟩

theorem spawn {project : Project} (fresh : workers w = none) :
    Placed table
      (update workers w (some { projectIdentity := project.identity, projectId := project.publicId }))
      (registered ++ [(project.identity, w)]) := by
  have kept : ∀ {v other}, workers v = some other → v ≠ w := by
    rintro v other there rfl
    rw [fresh] at there
    cases there
  have before : ∀ {v other ref},
      update workers w (some { projectIdentity := project.identity, projectId := project.publicId }) v = some other →
      ref ∈ other.held → workers v = some other := by
    intro v other ref there inside
    rcases update_some there with ⟨rfl, rfl⟩ | ⟨-, there⟩
    · cases inside
    · exact there
  have named : ∀ {identity v}, registeredAt registered identity = some v →
      registeredAt (registered ++ [(project.identity, w)]) identity = some v := by
    intro identity v own
    obtain ⟨entry, found, same⟩ := map_eq_some_iff.1 own
    rw [registeredAt, rowAt_append, found]
    exact congrArg some same
  refine ⟨?_, ?_, ?_, ?_, ?_, placed.quiet, ?_⟩
  · exact fun v other ref there member => placed.queued v other ref (before there (mem_held.2 (.inr member))) member
  · exact fun v other ref there taken => placed.taken v other ref (before there (mem_held.2 (.inl taken))) taken
  · intro v other there
    rcases update_some there with ⟨rfl, rfl⟩ | ⟨-, there⟩
    · exact nodup_nil
    · exact placed.distinct v other there
  · exact fun v v' other other' ref there there' inside inside' =>
      placed.apart v v' other other' ref (before there inside) (before there' inside') inside inside'
  · intro ref op there unfinished
    obtain ⟨member, v, other, own, found, held⟩ := placed.live ref op there unfinished
    exact ⟨member, v, other, named own, by rwa [update_of_ne (kept found)], held⟩
  · intro identity v own
    rw [registeredAt, rowAt_append] at own
    cases old : rowAt Prod.fst registered identity with
    | some entry =>
      rw [old] at own
      obtain ⟨other, found, there⟩ := placed.known identity v (by rw [registeredAt, old]; exact own)
      exact ⟨other, by rwa [update_of_ne (kept found)], there⟩
    | none =>
      rw [old, none_or, rowAt_cons] at own
      split at own
      · rename_i same
        cases own
        exact ⟨_, update_self .., same⟩
      · cases own

theorem unregister {identity : String} (finished : ∀ ref op, table.objects ref = some op → op.projectIdentity = identity →
    op.state.terminal = true) : Placed table workers (registered.filter (·.1 ≠ identity)) := by
  refine ⟨placed.queued, placed.taken, placed.distinct, placed.apart, ?_, placed.quiet, ?_⟩
  · intro ref op here unfinished
    obtain ⟨member, w, row, own, found, held⟩ := placed.live ref op here unfinished
    have apart : op.projectIdentity ≠ identity := fun same => by
      rw [finished ref op here same] at unfinished
      cases unfinished
    exact ⟨member, w, row, (registeredAt_filter apart).trans own, found, held⟩
  · intro name w own
    by_cases same : name = identity
    · obtain ⟨entry, found, _⟩ := map_eq_some_iff.1 own
      have kept := (mem_filter.1 (rowAt_mem found)).2
      rw [rowAt_key found, same] at kept
      simp at kept
    · exact placed.known name w ((registeredAt_filter same).symm.trans own)

end Placed

end Kassiber.Operator

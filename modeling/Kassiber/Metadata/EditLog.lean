import Kassiber.Lib.Runs
import Kassiber.Metadata.Calls

/-!
The edit history over whole runs of calls: it is an exact log, and reverting an event restores the state
before it.
-/

namespace Kassiber.Metadata
open Lib.Outcome Lib.Keyed Lib.Labelling Lib.Sorting Lib.Runs List

variable {δ φ : Type} {lower : String → String} {letters : Letters} {arithmetic : Arithmetic δ φ}
  {profileCurrency : String} {reviewed : Reviewed} {book next : Book δ φ} {tx : Transaction δ φ} {updates : Updates δ φ}
  {asked : Option (List String)} {audit : Audit} {tags : List String} [DecidableEq δ]

variable (letters arithmetic profileCurrency reviewed)

def Book.KeepsCall (book : Book δ φ) (call : Call δ) : Prop :=
  book.KeepsTags letters.lower call.txId (call.askedTags letters book)

def CallStep (book : Book δ φ) (call : Call δ) (next : Book δ φ) : Prop :=
  ((∃ event?, book.call letters arithmetic profileCurrency reviewed call = .ok (next, event?)) ∨
    (∃ error, book.call letters arithmetic profileCurrency reviewed call = .error error) ∧ next = book)

variable {letters arithmetic profileCurrency reviewed}

structure Book.Sound (lower : String → String) (book : Book δ φ) : Prop where
  valid : book.Valid
  recorded : book.Recorded lower

variable {call : Call δ} {labels : List String} {event : EditEvent δ} {calls : List (Call δ)}
  {eventId txId : String} {state before after : State δ}

theorem call_spec (sound : book.Sound letters.lower)
    (run : book.call letters arithmetic profileCurrency reviewed call = .ok (next, some eventId)) :
    ∃ before after event, Applied letters.lower arithmetic book next call.txId eventId before after event ∧
      (∃ row labels, before = transactionState letters.lower arithmetic row labels) ∧
      (book.KeepsCall letters call → next.stateAt letters.lower arithmetic call.txId = some after) := by
  obtain ⟨clean, tx, updates, trail, found, own, predicts, applied⟩ := call_applies sound.recorded run
  rcases apply_spec found predicts applied with ⟨impossible, _⟩ | ⟨same, event, spec, state⟩
  · cases impossible
  · cases same
    refine ⟨_, _, event, own ▸ spec, ⟨tx, _, rfl⟩, fun kept => ?_⟩
    rw [← own]
    exact state sound.valid clean (own ▸ kept)

theorem call_quiet (sound : book.Sound letters.lower)
    (run : book.call letters arithmetic profileCurrency reviewed call = .ok (next, none)) : next = book := by
  obtain ⟨_, tx, updates, trail, found, _, predicts, applied⟩ := call_applies sound.recorded run
  rcases apply_spec found predicts applied with ⟨_, same⟩ | ⟨impossible, _⟩
  · exact same
  · cases impossible

theorem call_sound (sound : book.Sound letters.lower)
    (step : CallStep letters arithmetic profileCurrency reviewed book call next) : next.Sound letters.lower := by
  rcases step with ⟨event?, run⟩ | ⟨_, rfl⟩
  · cases event? with
    | none =>
      cases call_quiet sound run
      exact sound
    | some eventId =>
      obtain ⟨before, after, event, spec, ⟨row, labels, shape⟩, _⟩ := call_spec sound run
      refine ⟨spec.valid sound.valid, fun other member => ?_⟩
      rw [spec.events] at member
      rcases mem_append.1 member with old | new
      · exact sound.recorded other old
      · rw [mem_singleton.1 new]
        intro item among tagged
        refine ⟨labels, ?_⟩
        rw [(spec.logged.values item among).1, tagged, shape]
        rfl
  · exact sound

def QuietFor (txId : String) (book next : Book δ φ) : Prop :=
  ∀ event ∈ next.events, event.transactionId = txId → event ∈ book.events

theorem quiet_call (sound : book.Sound letters.lower)
    (step : CallStep letters arithmetic profileCurrency reviewed book call next) (quiet : QuietFor txId book next) :
    next.stateAt letters.lower arithmetic txId = book.stateAt letters.lower arithmetic txId ∧
      ∀ eventId event, book.event eventId = some event → next.event eventId = some event := by
  rcases step with ⟨event?, run⟩ | ⟨_, rfl⟩
  · cases event? with
    | none =>
      cases call_quiet sound run
      exact ⟨rfl, fun _ _ => id⟩
    | some eventId =>
      obtain ⟨before, after, event, spec, _⟩ := call_spec sound run
      have other : txId ≠ call.txId := by
        intro same
        have member := quiet event (by rw [spec.events]; simp) (spec.named.2.trans same.symm)
        have absent := rowAt_eq_none.1 spec.fresh
        exact absent (spec.named.1 ▸ mem_map_of_mem member)
      refine ⟨spec.others sound.valid txId other, fun id held found => ?_⟩
      have here : rowAt EditEvent.id book.events id = some held := found
      rw [Book.event, spec.events, rowAt_append, here]
      rfl
  · exact ⟨rfl, fun _ _ => id⟩

omit [DecidableEq δ] in
theorem fold_graph (value : State δ) {changes : List (Field × EditValue δ)}
    (graph : ∀ change ∈ changes, valueForTxUpdate lower change.1 change.2 = value change.1) (field : Field) :
    (changes.foldl (fun (reached : State δ) change =>
      Function.update reached change.1 (valueForTxUpdate lower change.1 change.2)) state) field =
        if field ∈ changes.map Prod.fst then value field else state field := by
  induction changes generalizing state with
  | nil => rfl
  | cons change rest ih =>
    rw [foldl_cons, ih (fun other member => graph other (mem_cons_of_mem _ member)), map_cons]
    by_cases later : field ∈ rest.map Prod.fst
    · rw [if_pos later, if_pos (mem_cons_of_mem _ later)]
    · rw [if_neg later]
      by_cases own : field = change.1
      · rw [if_pos (own ▸ mem_cons_self), own, Function.update_self]
        exact graph change (.head _)
      · rw [if_neg (by simp [own, later]), Function.update_of_ne own]

omit [DecidableEq δ] in
theorem joined_state {all : List (Updates δ φ)} : (joined all).state = all.flatMap (·.state) := by
  induction all with
  | nil => rfl
  | cons update rest ih =>
    rw [flatMap_cons, ← ih]
    rfl

omit [DecidableEq δ] in
theorem revertField_state {field : Field} (other : field ≠ .tags) :
    (txUpdatesForRevertField arithmetic field (transactionState lower arithmetic tx labels field)).state =
      [(field, transactionState lower arithmetic tx labels field)] := by
  cases field with
  | tags => exact absurd rfl other
  | excluded => rfl
  | taxable =>
    rw [transactionState]
    cases tx.taxabilityOverride <;> rfl
  | price field =>
    rw [transactionState]
    cases exactOrFloat arithmetic (tx.exact field) (tx.float field) <;> rfl
  | text field =>
    rw [transactionState]
    cases tx.text field <;> rfl

omit [DecidableEq δ] in
theorem value_of_state {field : Field} :
    valueForTxUpdate lower field (transactionState lower arithmetic tx labels field) =
      transactionState lower arithmetic tx labels field := by
  cases field with
  | tags => exact congrArg EditValue.labels canonicalLabels_canonical
  | _ => rfl

omit [DecidableEq δ] in
theorem revert_predicts {row : Transaction δ φ}
    (shape : before = transactionState lower arithmetic row labels) (logged : Logged before after event) :
    stateFromUpdates lower after (joined (event.fields.map fun item =>
      txUpdatesForRevertField arithmetic item.field item.beforeValue)).state (revertedTags event.fields) = before := by
  have each : (joined (event.fields.map fun item => txUpdatesForRevertField arithmetic item.field item.beforeValue)).state =
      (event.fields.filter (·.field ≠ .tags)).map fun item => (item.field, before item.field) := by
    have items : ∀ items : List (EditField δ), (∀ item ∈ items, item ∈ event.fields) →
        (items.map fun item => txUpdatesForRevertField arithmetic item.field item.beforeValue).flatMap (·.state) =
          (items.filter (·.field ≠ .tags)).map fun item => (item.field, before item.field) := by
      intro items inside
      induction items with
      | nil => rfl
      | cons item rest ih =>
        have value := (logged.values item (inside item (.head _))).1
        rw [map_cons, flatMap_cons, ih (fun other member => inside other (mem_cons_of_mem _ member)), value]
        by_cases tags : item.field = .tags
        · rw [filter_cons_of_neg (by simpa using tags), tags]
          rfl
        · rw [filter_cons_of_pos (by simpa using tags), map_cons, shape, revertField_state tags]
          rfl
    rw [joined_state]
    exact items event.fields (fun _ => id)
  funext field
  rw [stateFromUpdates, each, fold_graph before]
  · have keys : ∀ field, field ∈ ((event.fields.filter (·.field ≠ .tags)).map fun item =>
        (item.field, before item.field)).map Prod.fst ↔ field ≠ .tags ∧ before field ≠ after field := by
      intro field
      rw [← logged.fields field, map_map]
      simp only [mem_map, mem_filter, Function.comp]
      constructor
      · rintro ⟨item, ⟨member, other⟩, rfl⟩
        exact ⟨by simpa using other, item, member, rfl⟩
      · rintro ⟨other, item, member, rfl⟩
        exact ⟨item, ⟨member, by simpa using other⟩, rfl⟩
    split
    · rfl
    · rename_i untouched
      rw [keys, not_and, not_not] at untouched
      cases found : event.fields.find? (fun item => item.field = .tags) with
      | none =>
        rw [revertedTags, found]
        by_cases tags : field = .tags
        · subst tags
          have unlisted : Field.tags ∉ event.fields.map EditField.field := by
            intro listed
            obtain ⟨item, member, same⟩ := mem_map.1 listed
            have absent := List.find?_eq_none.1 found item member
            simp [same] at absent
          rw [logged.fields, not_not] at unlisted
          exact unlisted.symm
        · exact (untouched tags).symm
      | some item =>
        have value := (logged.values item (mem_of_find?_eq_some found)).1
        have own : item.field = .tags := by simpa using find?_some found
        rw [revertedTags, found, Option.map_some, value, own, shape]
        by_cases tags : field = .tags
        · subst tags
          exact congrArg EditValue.labels canonicalLabels_canonical
        · rw [← shape]
          exact (Function.update_of_ne tags ..).trans (untouched tags).symm
  · intro change member
    obtain ⟨item, _, rfl⟩ := mem_map.1 member
    rw [shape]
    exact value_of_state

theorem codeOf_ne {tag : String} (nonempty : strip tag ≠ "") : codeOf letters.lower tag ≠ "" := by
  intro empty
  refine letters.lower_ne _ nonempty (String.toList_inj.1 ?_)
  have chars := congrArg String.toList empty
  rw [codeOf, String.toList_map] at chars
  simpa using chars

omit [DecidableEq δ] in
theorem ensureTagRows_total (clean : ∀ tag ∈ tags, strip tag ≠ "") :
    ∃ out, book.ensureTagRows letters.lower tags = .ok out := by
  induction tags generalizing book with
  | nil => exact ⟨_, rfl⟩
  | cons tag rest ih =>
    have named : normalizeCode letters.lower tag = .ok (codeOf letters.lower tag) := by
      rw [normalizeCode]
      exact if_neg (codeOf_ne (clean tag (.head _)))
    have first : ∃ out, book.ensureTagRow letters.lower tag = .ok out := by
      rw [Book.ensureTagRow, named]
      cases found : rowAt Tag.code book.tags (codeOf letters.lower tag) with
      | none => exact ⟨_, by simp only [Except.bind, bind, found]; rfl⟩
      | some existing => exact ⟨_, by simp only [Except.bind, bind, found]; rfl⟩
    obtain ⟨⟨middle, row⟩, made⟩ := first
    have rest_total : ∃ out, middle.ensureTagRows letters.lower rest = .ok out :=
      ih fun other member => clean other (.tail _ member)
    obtain ⟨⟨last, rows⟩, later⟩ := rest_total
    refine ⟨(last, row :: rows), ?_⟩
    rw [Book.ensureTagRows]
    exact bind_ok.2 ⟨_, made, bind_ok.2 ⟨_, later, rfl⟩⟩

theorem apply_total (clean : ∀ tags ∈ asked, Clean letters.lower tags)
    (sourced : ∃ source, normalizeSource letters.lower audit.source = .ok source)
    (reasoned : ∃ reason, cleanReason audit.reason = .ok reason) (fresh : book.event audit.eventId = none)
    (changes : ∃ field ∈ requestedFields updates.state asked, field ≠ .text .pricingFetchedAt ∧
      book.stateOf letters.lower arithmetic tx field ≠
        stateFromUpdates letters.lower (book.stateOf letters.lower arithmetic tx) updates.state asked field) :
    ∃ next, book.applyAuditedTransactionUpdate letters.lower arithmetic tx updates asked audit = .ok (next, some audit.eventId) := by
  obtain ⟨source, sourced⟩ := sourced
  obtain ⟨reason, reasoned⟩ := reasoned
  obtain ⟨field, requested, other, differ⟩ := changes
  have changed : changedFields (book.stateOf letters.lower arithmetic tx)
      (stateFromUpdates letters.lower (book.stateOf letters.lower arithmetic tx) updates.state asked)
      (requestedFields updates.state asked) ≠ [] := fun nothing => other (changedFields_nil nothing field requested differ)
  have tagged : ∃ tagged, book.writeTags letters.lower tx.id asked (changedFields (book.stateOf letters.lower arithmetic tx)
      (stateFromUpdates letters.lower (book.stateOf letters.lower arithmetic tx) updates.state asked)
      (requestedFields updates.state asked)) = .ok tagged ∧ tagged.events = book.events := by
    rw [Book.writeTags]
    split
    · have strips : ∀ tag ∈ asked.getD [], strip tag ≠ "" := by
        intro tag member
        cases given : asked with
        | none => rw [given] at member; cases member
        | some tags =>
          rw [given] at member
          obtain ⟨same, nonempty⟩ := (clean tags given).stripped tag member
          rwa [same]
      have rows_total : ∃ out, book.ensureTagRows letters.lower (asked.getD []) = .ok out := ensureTagRows_total strips
      obtain ⟨⟨middle, rows⟩, made⟩ := rows_total
      have written : ∃ next, book.setTags letters.lower tx.id (asked.getD []) = .ok next :=
        ⟨_, bind_ok.2 ⟨(middle, rows), made, rfl⟩⟩
      obtain ⟨next, written⟩ := written
      exact ⟨next, written, (setTags_frame written).2⟩
    · exact ⟨book, rfl, rfl⟩
  obtain ⟨tagged, tagging, events⟩ := tagged
  have appends : ∀ written : Book δ φ, written.events = book.events → ∃ logged,
      written.appendEvent tx.id audit.eventId source reason audit.now
        (changedFields (book.stateOf letters.lower arithmetic tx)
          (stateFromUpdates letters.lower (book.stateOf letters.lower arithmetic tx) updates.state asked)
          (requestedFields updates.state asked)) (book.stateOf letters.lower arithmetic tx)
        (stateFromUpdates letters.lower (book.stateOf letters.lower arithmetic tx) updates.state asked) = .ok logged := by
    intro written same
    have missing : written.event audit.eventId = none := by
      rw [Book.event, same]
      exact fresh
    rw [Book.appendEvent, if_neg (by rw [missing]; simp)]
    exact ⟨_, rfl⟩
  obtain ⟨logged, appended⟩ := appends
    { tagged with transactions := editAt Transaction.id tagged.transactions tx.id (·.setAll updates.tx) } events
  refine ⟨logged, bind_ok.2 ⟨source, sourced, bind_ok.2 ⟨reason, reasoned, ?_⟩⟩⟩
  dsimp only
  rw [if_neg changed]
  exact bind_ok.2 ⟨tagged, tagging, bind_ok.2 ⟨logged, appended, rfl⟩⟩

/-- What a revert needs besides its event: a known source, a reason of bearable length and a new id. -/
structure Acceptable (letters : Letters) (book : Book δ φ) (eventId : String) (audit : Audit) : Prop where
  sourced : ∃ source, normalizeSource letters.lower audit.source = .ok source
  reasoned : ∃ reason, cleanReason (some (revertReason audit eventId)) = .ok reason
  fresh : book.event audit.eventId = none

theorem revert_restores {row : Transaction δ φ}
    (sound : book.Sound letters.lower) (shape : before = transactionState letters.lower arithmetic row labels)
    (logged : Logged before after event) (changed : ∃ field, before field ≠ after field ∧ field ≠ .text .pricingFetchedAt)
    (held : book.event event.id = some event) (owner : event.transactionId = txId)
    (now : book.stateAt letters.lower arithmetic txId = some after) (acceptable : Acceptable letters book event.id audit)
    (kept : book.KeepsCall letters (.revert txId event.id none audit)) :
    ∃ next, book.call letters arithmetic profileCurrency reviewed (.revert txId event.id none audit) =
        .ok (next, some audit.eventId) ∧ next.stateAt letters.lower arithmetic txId = some before := by
  obtain ⟨tx, found, state⟩ := Option.map_eq_some_iff.1 now
  have own : tx.id = txId := rowAt_key found
  have resolved : book.resolveTransaction txId = .ok tx := by
    rw [Book.resolveTransaction, found]
  have loaded : book.loadEventForRevert tx.id event.id = .ok event := by
    rw [Book.loadEventForRevert, held, own, Option.filter_some_pos (by simpa using owner)]
  set updates := joined (event.fields.map fun item => txUpdatesForRevertField arithmetic item.field item.beforeValue)
    with updatesDef
  have predicted : stateFromUpdates letters.lower after updates.state (revertedTags event.fields) = before :=
    revert_predicts shape logged
  have recorded : ∀ item ∈ event.fields, item.field = .tags →
      ∃ labels, item.beforeValue = .labels (canonicalTags letters.lower labels) := by
    intro item member tags
    refine ⟨labels, ?_⟩
    rw [(logged.values item member).1, tags, shape]
    rfl
  have applied : ∃ next, book.applyAuditedTransactionUpdate letters.lower arithmetic tx updates (revertedTags event.fields)
      { audit with reason := some (revertReason audit event.id) } = .ok (next, some audit.eventId) := by
    refine apply_total (fun tags reverted => revertedTags_clean recorded reverted) acceptable.sourced acceptable.reasoned
      acceptable.fresh ?_
    obtain ⟨field, differ, other⟩ := changed
    refine ⟨field, ?_, other, ?_⟩
    · by_contra unasked
      have same : stateFromUpdates letters.lower after updates.state (revertedTags event.fields) field = after field :=
        stateFromUpdates_elsewhere unasked
      rw [predicted] at same
      exact differ same
    · rw [state, predicted]
      exact Ne.symm differ
  obtain ⟨next, applied⟩ := applied
  have run : book.call letters arithmetic profileCurrency reviewed (.revert txId event.id none audit) =
      .ok (next, some audit.eventId) :=
    bind_ok.2 ⟨tx, resolved, bind_ok.2 ⟨event, loaded, bind_ok.2 ⟨event.fields, rfl, applied⟩⟩⟩
  refine ⟨next, run, ?_⟩
  have asked : Call.askedTags letters book (.revert txId event.id none audit) = revertedTags event.fields := by
    rw [Call.askedTags, ← own, loaded]
    rfl
  have predicts : Predicts letters.lower arithmetic updates := by
    refine predicts_joined (fun update member => ?_)
    obtain ⟨item, _, rfl⟩ := mem_map.1 member
    exact predicts_revert
  rcases apply_spec (own.symm ▸ found) predicts applied with ⟨impossible, _⟩ | ⟨_, _, _, after'⟩
  · cases impossible
  · rw [← own, after' sound.valid (fun tags reverted => revertedTags_clean recorded reverted)
      (by rw [← asked, own]; exact kept), state, predicted]

theorem quiet_run (sound : book.Sound letters.lower)
    (run : Run (fun book call next => CallStep letters arithmetic profileCurrency reviewed book call next ∧
      QuietFor txId book next) book calls next) :
    next.Sound letters.lower ∧ next.stateAt letters.lower arithmetic txId = book.stateAt letters.lower arithmetic txId ∧
      ∀ eventId event, book.event eventId = some event → next.event eventId = some event := by
  induction run with
  | rest => exact ⟨sound, rfl, fun _ _ => id⟩
  | next taken _ ih =>
    obtain ⟨last, state, events⟩ := ih (call_sound sound taken.1)
    obtain ⟨same, kept⟩ := quiet_call sound taken.1 taken.2
    exact ⟨last, state.trans same, fun id event held => events id event (kept id event held)⟩

theorem run_sound (sound : book.Sound letters.lower)
    (run : Run (CallStep letters arithmetic profileCurrency reviewed) book calls next) : next.Sound letters.lower :=
  run.invariant (fun _ _ _ sound taken => call_sound sound taken) sound

omit [DecidableEq δ] in
theorem appended_event
    (spec : Applied letters.lower arithmetic book next txId eventId before after event) : next.event eventId = some event := by
  have absent : rowAt EditEvent.id book.events eventId = none := spec.fresh
  rw [Book.event, spec.events, rowAt_append, absent, rowAt_cons, if_pos spec.named.1]
  rfl

/-- In every book that calls have made: a call that keeps its tags logs exactly what it changed, and while
no later call logs for the transaction, reverting the event puts the state before it back and reverting
that revert the state after it. -/
theorem edits_logged_and_reverted {start : Book δ φ} {eventId : String}
    (valid : start.Valid) (unlogged : start.events = [])
    (reached : Run (CallStep letters arithmetic profileCurrency reviewed) start calls book)
    (kept : book.KeepsCall letters call)
    (run : book.call letters arithmetic profileCurrency reviewed call = .ok (next, some eventId)) :
    ∃ before after event, book.stateAt letters.lower arithmetic call.txId = some before ∧
      next.stateAt letters.lower arithmetic call.txId = some after ∧ next.event eventId = some event ∧
      event.transactionId = call.txId ∧ Logged before after event ∧
      ∀ others later, Run (fun book call' next => CallStep letters arithmetic profileCurrency reviewed book call' next ∧
          QuietFor call.txId book next) next others later →
        ∀ trail, Acceptable letters later eventId trail →
          later.KeepsCall letters (.revert call.txId eventId none trail) →
          ∃ reverted, later.call letters arithmetic profileCurrency reviewed (.revert call.txId eventId none trail) =
              .ok (reverted, some trail.eventId) ∧
            reverted.stateAt letters.lower arithmetic call.txId = some before ∧
            ∀ others' last, Run (fun book call' next => CallStep letters arithmetic profileCurrency reviewed book call' next ∧
                QuietFor call.txId book next) reverted others' last →
              ∀ trail', Acceptable letters last trail.eventId trail' →
                last.KeepsCall letters (.revert call.txId trail.eventId none trail') →
                ∃ restored, last.call letters arithmetic profileCurrency reviewed
                    (.revert call.txId trail.eventId none trail') = .ok (restored, some trail'.eventId) ∧
                  restored.stateAt letters.lower arithmetic call.txId = some after := by
  have sound : book.Sound letters.lower := run_sound
    ⟨valid, fun event member => by rw [unlogged] at member; cases member⟩ reached
  obtain ⟨before, after, event, spec, ⟨row, labels, shape⟩, state⟩ := call_spec sound run
  have now := state kept
  have held := appended_event spec
  refine ⟨before, after, event, spec.was, now, held, spec.named.2, spec.logged, ?_⟩
  intro others later quiet trail acceptable keeps
  obtain ⟨laterSound, same, events⟩ := quiet_run (call_sound sound (.inl ⟨_, run⟩)) quiet
  have own : event.id = eventId := spec.named.1
  subst own
  obtain ⟨reverted, back, restored⟩ := revert_restores laterSound shape spec.logged spec.changed
    (events _ event held) spec.named.2 (same.trans now) acceptable keeps
  refine ⟨reverted, back, restored, fun others' last quiet' trail' acceptable' keeps' => ?_⟩
  obtain ⟨was, back_to, revertal, spec', ⟨row', labels', shape'⟩, state'⟩ := call_spec laterSound back
  have put_back : back_to = before := Option.some.inj ((state' keeps).symm.trans restored)
  have was_after : was = after := Option.some.inj (spec'.was.symm.trans (same.trans now))
  subst put_back was_after
  obtain ⟨lastSound, same', events'⟩ := quiet_run (call_sound laterSound (.inl ⟨_, back⟩)) quiet'
  have own' : revertal.id = trail.eventId := spec'.named.1
  rw [← own'] at acceptable' keeps' ⊢
  exact revert_restores lastSound shape' spec'.logged spec'.changed (events' _ revertal (own' ▸ appended_event spec'))
    spec'.named.2 (same'.trans restored) acceptable' keeps'

def ascii : Letters where
  lower text := String.ofList (text.toList.map Char.toLower)
  upper text := String.ofList (text.toList.map Char.toUpper)
  alphabetic text := text.toList.all Char.isAlpha
  lower_ne text nonempty empty := by
    have chars := congrArg String.toList empty
    rw [String.toList_ofList] at chars
    exact nonempty (String.toList_eq_nil_iff.1 (map_eq_nil_iff.1 chars))

def cents : Arithmetic Int Int where
  fixed := id
  toFloat := id
  short := id
  ofFloat := id
  ofMsat := id
  mul := (· * ·)
  div := (· / ·)
  positive value := 0 < value
  negative value := value < 0
  text := toString

def payment (txId : String) : Transaction Int Int :=
  { id := txId, direction := "outbound", asset := "BTC", amount := 1000, confirmedAt := none, occurredAt := "2026-01-01" }

def twoPayments : Book Int Int := { transactions := [payment "tx-1", payment "tx-2"] }

def rentNote : Call Int :=
  .update "tx-1" { note := some (some "Rent"), tags := some ["Home"] } { eventId := "ev-1", now := "2026-01-02" }

def undoAudit : Audit := { eventId := "ev-2", now := "2026-01-03" }

theorem twoPayments_valid : twoPayments.Valid := ⟨nodup_nil, fun _ impossible => by cases impossible⟩

theorem rentNote_kept : twoPayments.KeepsCall ascii rentNote := by
  unfold Book.KeepsCall Book.KeepsTags Book.KeepsLabels
  decide +kernel

theorem note_logged_and_reverted : ∃ next before reverted,
    twoPayments.call ascii cents "EUR" (fun _ => false) rentNote = .ok (next, some "ev-1") ∧
      twoPayments.stateAt ascii.lower cents "tx-1" = some before ∧
      next.call ascii cents "EUR" (fun _ => false) (.revert "tx-1" "ev-1" none undoAudit) = .ok (reverted, some "ev-2") ∧
      reverted.stateAt ascii.lower cents "tx-1" = some before := by
  have runs : ((twoPayments.call ascii cents "EUR" (fun _ => false) rentNote).toOption.map fun out =>
      (out.2, out.1.event "ev-2", Call.askedTags ascii out.1 (.revert "tx-1" "ev-1" none undoAudit))) =
        some (some "ev-1", none, some []) := by decide +kernel
  obtain ⟨⟨next, eventId⟩, found, facts⟩ := Option.map_eq_some_iff.1 runs
  rw [Prod.mk.injEq, Prod.mk.injEq] at facts
  obtain ⟨rfl, fresh, asks⟩ := facts
  have run := ok_of_toOption found
  have acceptable : Acceptable ascii next "ev-1" undoAudit :=
    ⟨⟨"cli", ok_of_toOption (by decide +kernel)⟩, ⟨some "Reverted transaction edit ev-1", ok_of_toOption (by decide +kernel)⟩, fresh⟩
  obtain ⟨before, after, event, was, _, _, _, _, reverts⟩ := edits_logged_and_reverted twoPayments_valid rfl (.rest _)
    rentNote_kept run
  obtain ⟨reverted, back, restored, _⟩ := reverts [] next (.rest _) undoAudit acceptable
    (fun tags asked _ => by cases asks.symm.trans asked; exact .refl _)
  exact ⟨next, before, reverted, run, was, back, restored⟩

/-- A payment tagged with another spelling of a known tag gets the tag's own label, and the event says
otherwise. -/
theorem shared_tag_logged_as_asked : ¬ ∀ (start book next : Book Int Int) (calls : List (Call Int)) (call : Call Int)
    (eventId : String), start.Valid → start.events = [] →
    Run (CallStep ascii cents "EUR" fun _ => false) start calls book →
    book.call ascii cents "EUR" (fun _ => false) call = .ok (next, some eventId) →
    ∃ before after event, book.stateAt ascii.lower cents call.txId = some before ∧
      next.stateAt ascii.lower cents call.txId = some after ∧ next.event eventId = some event ∧
      Logged before after event := by
  intro logs
  let tagged (txId eventId label : String) : Call Int :=
    .update txId { tags := some [label] } { eventId, now := "2026-01-02" }
  have runs : ((twoPayments.call ascii cents "EUR" (fun _ => false) (tagged "tx-1" "ev-1" "VIP")).toOption.bind fun first =>
      (first.1.call ascii cents "EUR" (fun _ => false) (tagged "tx-2" "ev-2" "vip")).toOption.map fun second =>
        (second.2, (second.1.stateAt ascii.lower cents "tx-2").map (· .tags), (second.1.event "ev-2").map EditEvent.fields)) =
      some (some "ev-2", some (.labels ["VIP"]), some [⟨.tags, .labels [], .labels ["vip"]⟩]) := by decide +kernel
  obtain ⟨⟨book, made⟩, first, later⟩ := Option.bind_eq_some_iff.1 runs
  obtain ⟨⟨next, eventId⟩, second, facts⟩ := Option.map_eq_some_iff.1 later
  rw [Prod.mk.injEq, Prod.mk.injEq] at facts
  obtain ⟨rfl, shown, listed⟩ := facts
  obtain ⟨before, after, event, _, now, held, logged⟩ := logs twoPayments book next [tagged "tx-1" "ev-1" "VIP"]
    (tagged "tx-2" "ev-2" "vip") "ev-2" twoPayments_valid rfl (.next (.inl ⟨_, ok_of_toOption first⟩) (.rest _))
    (ok_of_toOption second)
  have reads : after .tags = .labels ["VIP"] := by
    rw [show next.stateAt ascii.lower cents "tx-2" = some after from now] at shown
    exact Option.some.inj shown
  have fields : event.fields = [⟨.tags, .labels [], .labels ["vip"]⟩] := by
    rw [held] at listed
    exact Option.some.inj listed
  have written := (logged.values ⟨.tags, .labels [], .labels ["vip"]⟩ (fields ▸ mem_singleton_self _)).2
  rw [reads] at written
  exact absurd written (by decide)

def replay (value : EditField δ → EditValue δ) (state : State δ) (event : EditEvent δ) : State δ := fun field =>
  ((event.fields.find? (·.field = field)).map value).getD (state field)

/-- The edits logged of a transaction lead from its first state to the present one by their new values, and
back by their old ones. -/
def Book.Replays (lower : String → String) (arithmetic : Arithmetic δ φ) (book : Book δ φ) (txId : String) (first : State δ) :
    Prop :=
  let edits := book.events.filter (·.transactionId = txId)
  ∃ last, book.stateAt lower arithmetic txId = some last ∧ edits.foldl (replay EditField.afterValue) first = last ∧
    edits.foldr (flip (replay EditField.beforeValue)) last = first

omit [DecidableEq δ] in
theorem replay_eq {value : EditField δ → EditValue δ} {target : State δ}
    (values : ∀ item ∈ event.fields, value item = target item.field)
    (kept : ∀ field, field ∉ event.fields.map EditField.field → state field = target field) :
    replay value state event = target := by
  funext field
  unfold replay
  cases found : event.fields.find? (·.field = field) with
  | none => exact kept field (by simpa using found)
  | some item =>
    have own : item.field = field := by simpa using find?_some found
    exact own ▸ values item (mem_of_find?_eq_some found)

theorem replays_call {first : State δ} (sound : book.Sound letters.lower)
    (replays : book.Replays letters.lower arithmetic txId first)
    (step : CallStep letters arithmetic profileCurrency reviewed book call next) (kept : book.KeepsCall letters call) :
    next.Replays letters.lower arithmetic txId first := by
  rcases step with ⟨event?, ran⟩ | ⟨-, rfl⟩
  · cases event? with
    | none =>
      rw [call_quiet sound ran]
      exact replays
    | some eventId =>
      obtain ⟨before, after, event, spec, -, state⟩ := call_spec sound ran
      obtain ⟨last, now, onward, back⟩ := replays
      unfold Book.Replays
      rw [spec.events, filter_append]
      by_cases own : call.txId = txId
      · subst own
        cases now.symm.trans spec.was
        have same : ∀ field, field ∉ event.fields.map EditField.field → before field = after field :=
          fun field unlisted => not_not.1 (mt (spec.logged.fields field).2 unlisted)
        refine ⟨after, state kept, ?_, ?_⟩
        · rw [filter_singleton, decide_eq_true spec.named.2, foldl_append, onward]
          exact replay_eq (fun item member => (spec.logged.values item member).2) same
        · have undone : flip (replay EditField.beforeValue) event after = before :=
            replay_eq (fun item member => (spec.logged.values item member).1) fun field unlisted => (same field unlisted).symm
          rw [filter_singleton, decide_eq_true spec.named.2, foldr_append, cond_true, foldr_cons, foldr_nil, undone]
          exact back
      · rw [spec.others sound.valid txId (Ne.symm own), filter_singleton,
          decide_eq_false fun same => own (spec.named.2.symm.trans same)]
        exact ⟨last, now, by simpa using onward, by simpa using back⟩
  · exact replays

/-- What is logged of a transaction is all that has happened to it. -/
theorem log_replays {start : Book δ φ} {txId : String} {first : State δ} (valid : start.Valid) (unlogged : start.events = [])
    (was : start.stateAt letters.lower arithmetic txId = some first)
    (run : Run (fun book call next => CallStep letters arithmetic profileCurrency reviewed book call next ∧
      book.KeepsCall letters call) start calls book) : book.Replays letters.lower arithmetic txId first :=
  (run.invariant (I := fun book => book.Sound letters.lower ∧ book.Replays letters.lower arithmetic txId first)
    (fun _ _ _ holds step => ⟨call_sound holds.1 step.1, replays_call holds.1 holds.2 step.1 step.2⟩)
    ⟨⟨valid, by rw [Book.Recorded, unlogged]; exact nofun⟩, first, was, by rw [unlogged]; exact ⟨rfl, rfl⟩⟩).2

theorem rent_note_replays : ∃ next : Book Int Int, ∃ first, next.events ≠ [] ∧ next.Replays ascii.lower cents "tx-1" first := by
  have ran : ((twoPayments.call ascii cents "EUR" (fun _ => false) rentNote).toOption.any (·.1.events ≠ [])) = true := by
    decide +kernel
  obtain ⟨⟨next, event?⟩, ran, logged⟩ := (Option.any_eq_true _ _).1 ran
  exact ⟨next, _, by simpa using logged,
    log_replays twoPayments_valid rfl rfl (.next ⟨.inl ⟨event?, ok_of_toOption ran⟩, rentNote_kept⟩ (.rest _))⟩

end Kassiber.Metadata

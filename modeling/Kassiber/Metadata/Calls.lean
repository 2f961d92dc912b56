import Kassiber.Metadata.Predictions

/-!
What one call does to a book: the event it appends, the state it leaves, and what stays as it was.
-/

namespace Kassiber.Metadata
open Lib.Outcome Lib.Keyed Lib.Labelling Lib.Sorting List

variable {δ φ : Type} {lower : String → String} {arithmetic : Arithmetic δ φ} {book next : Book δ φ}

variable {tx : Transaction δ φ} {updates : Updates δ φ} {asked : Option (List String)} {audit : Audit}
  {event? : Option String}

def Book.stateAt (lower : String → String) (arithmetic : Arithmetic δ φ) (book : Book δ φ) (txId : String) : Option (State δ) :=
  (book.transaction txId).map (book.stateOf lower arithmetic)

/-- The event lists the fields that changed, each with the value before and after. -/
structure Logged (before after : State δ) (event : EditEvent δ) : Prop where
  fields : ∀ field, field ∈ event.fields.map EditField.field ↔ before field ≠ after field
  values : ∀ item ∈ event.fields, item.beforeValue = before item.field ∧ item.afterValue = after item.field

/-- The tags a call would write are logged as they are read back, unless it leaves the tags alone. -/
def Book.KeepsTags (lower : String → String) (book : Book δ φ) (txId : String) (asked : Option (List String)) : Prop :=
  ∀ tags ∈ asked, canonicalTags lower (book.tagsForTransaction txId) ≠ canonicalTags lower tags → book.KeepsLabels lower tags

theorem fold_elsewhere {state : State δ} {changes : List (Field × EditValue δ)} {field : Field}
    (apart : ∀ change ∈ changes, change.1 ≠ field) :
    (changes.foldl (fun (reached : State δ) change =>
      Function.update reached change.1 (valueForTxUpdate lower change.1 change.2)) state) field =
      state field := by
  induction changes generalizing state with
  | nil => rfl
  | cons change rest ih =>
    rw [foldl_cons, ih (fun other member => apart other (mem_cons_of_mem _ member))]
    exact Function.update_of_ne (Ne.symm (apart change (.head _))) ..

theorem stateFromUpdates_elsewhere {before : State δ} {field : Field}
    (unasked : field ∉ requestedFields updates.state asked) :
    stateFromUpdates lower before updates.state asked field = before field := by
  rw [requestedFields, mem_append, not_or] at unasked
  have apart : ∀ change ∈ updates.state, change.1 ≠ field := by
    rintro change member rfl
    exact unasked.1 (mem_map_of_mem member)
  rw [stateFromUpdates, fold_elsewhere apart]
  cases asked with
  | none => rfl
  | some tags =>
    have apart : field ≠ .tags := fun same => unasked.2 (by rw [same]; exact mem_singleton_self _)
    exact Function.update_of_ne apart ..

section
variable [DecidableEq δ] {requested : List Field} {before after : State δ}

theorem mem_changedFields {field : Field}
    (changes : changedFields before after requested ≠ []) :
    field ∈ changedFields before after requested ↔ field ∈ requested ∧ before field ≠ after field := by
  rw [changedFields] at changes ⊢
  split at changes
  · exact absurd rfl changes
  · rename_i others
    rw [if_neg others, mem_filter, decide_eq_true_eq]

theorem changedFields_nil (nothing : changedFields before after requested = []) :
    ∀ field ∈ requested, before field ≠ after field → field = .text .pricingFetchedAt := by
  intro field asked differ
  rw [changedFields] at nothing
  split at nothing
  · rename_i only
    exact only field (mem_filter.2 ⟨asked, decide_eq_true differ⟩)
  · exact absurd (mem_filter.2 ⟨asked, decide_eq_true differ⟩) (by rw [nothing]; exact not_mem_nil)

theorem changedFields_other (changes : changedFields before after requested ≠ []) :
    ∃ field, before field ≠ after field ∧ field ≠ .text .pricingFetchedAt := by
  rw [changedFields] at changes
  split at changes
  · exact absurd rfl changes
  · rename_i others
    simp only [not_forall] at others
    obtain ⟨field, member, other⟩ := others
    exact ⟨field, of_decide_eq_true (mem_filter.1 member).2, other⟩

end

theorem appendEvent_spec {txId eventId source changedAt : String} {reason : Option String} {changed : List Field}
    {before after : State δ} (run : book.appendEvent txId eventId source reason changedAt changed before after = .ok next) :
    book.event eventId = none ∧ ∃ event, event.id = eventId ∧ event.transactionId = txId ∧
      next = { book with events := book.events ++ [event] } ∧
      event.fields = (fieldSortOrder.filter (· ∈ changed)).map fun field =>
        { field, beforeValue := before field, afterValue := after field } := by
  rw [Book.appendEvent] at run
  split at run
  · cases run
  · rename_i absent
    cases run
    exact ⟨by simpa using absent, _, rfl, rfl, rfl, rfl⟩

section

/-- What a call that appends an event leaves behind: the event, by the prediction; the other
transactions, as they were; and its own, as predicted where the tags are kept. -/
structure Applied (lower : String → String) (arithmetic : Arithmetic δ φ) (book next : Book δ φ) (txId eventId : String)
    (before after : State δ) (event : EditEvent δ) : Prop where
  fresh : book.event eventId = none
  named : event.id = eventId ∧ event.transactionId = txId
  events : next.events = book.events ++ [event]
  valid : book.Valid → next.Valid
  was : book.stateAt lower arithmetic txId = some before
  logged : Logged before after event
  changed : ∃ field, before field ≠ after field ∧ field ≠ .text .pricingFetchedAt
  others : book.Valid → ∀ other, other ≠ txId → next.stateAt lower arithmetic other = book.stateAt lower arithmetic other

theorem tags_predicted (untagged : ∀ update ∈ updates.state, update.1 ≠ .tags) {before : State δ} {tags : List String} :
    stateFromUpdates lower before updates.state (some tags) .tags = .labels (canonicalTags lower tags) := by
  rw [stateFromUpdates, fold_elsewhere untagged]
  rfl

theorem transactionState_retagged (old : List String) {new tags : List String}
    (same : canonicalTags lower new = canonicalTags lower tags) :
    transactionState lower arithmetic tx new =
      Function.update (transactionState lower arithmetic tx old) .tags (.labels (canonicalTags lower tags)) := by
  funext field
  cases field with
  | tags =>
    rw [Function.update_self, ← same]
    rfl
  | _ => rfl

variable [DecidableEq δ]

theorem apply_spec (found : book.transaction tx.id = some tx) (predicts : Predicts lower arithmetic updates)
    (run : book.applyAuditedTransactionUpdate lower arithmetic tx updates asked audit = .ok (next, event?)) :
    event? = none ∧ next = book ∨ event? = some audit.eventId ∧ ∃ event,
      Applied lower arithmetic book next tx.id audit.eventId (book.stateOf lower arithmetic tx)
        (stateFromUpdates lower (book.stateOf lower arithmetic tx) updates.state asked) event ∧
      (book.Valid → (∀ tags ∈ asked, Clean lower tags) → book.KeepsTags lower tx.id asked →
        next.stateAt lower arithmetic tx.id =
          some (stateFromUpdates lower (book.stateOf lower arithmetic tx) updates.state asked)) := by
  obtain ⟨source, sourced, run⟩ := bind_ok.1 run
  obtain ⟨reason, reasoned, run⟩ := bind_ok.1 run
  dsimp only at run
  set before := book.stateOf lower arithmetic tx with beforeDef
  set after := stateFromUpdates lower before updates.state asked with afterDef
  set changed := changedFields before after (requestedFields updates.state asked) with changedDef
  split at run
  · cases run
    exact .inl ⟨rfl, rfl⟩
  rename_i changes
  obtain ⟨tagged, tagging, run⟩ := bind_ok.1 run
  rw [Book.writeTags] at tagging
  obtain ⟨logged, appended, run⟩ := bind_ok.1 run
  cases run
  obtain ⟨fresh, event, own, owner, grown, listed⟩ := appendEvent_spec appended
  have tagFrame : tagged.transactions = book.transactions ∧ tagged.events = book.events := by
    split at tagging
    · exact setTags_frame tagging
    · cases tagging; exact ⟨rfl, rfl⟩
  have sameIds : ∀ row : Transaction δ φ, row.id = tx.id → (row.setAll updates.tx).id = tx.id :=
    fun row same => (predicts.sameId row).trans same
  have inside : ∀ field, field ∈ changed ↔ before field ≠ after field := by
    intro field
    rw [changedDef, mem_changedFields changes]
    refine ⟨And.right, fun differ => ⟨?_, differ⟩⟩
    by_contra unasked
    exact differ (stateFromUpdates_elsewhere unasked).symm
  refine .inr ⟨rfl, event, ⟨?_, ⟨own, owner⟩, ?_, ?_, ?_, ⟨?_, ?_⟩, ?_, ?_⟩, ?_⟩
  · rwa [Book.event, tagFrame.2] at fresh
  · rw [grown, tagFrame.2]
  · intro valid
    rw [grown]
    split at tagging
    · exact ⟨(setTags_valid tagging valid).codes, (setTags_valid tagging valid).linked⟩
    · cases tagging; exact ⟨valid.codes, valid.linked⟩
  · rw [Book.stateAt, found]
    rfl
  · intro field
    rw [listed, map_map, ← inside field]
    have fields : (fieldSortOrder.filter (· ∈ changed)).map
        (EditField.field ∘ fun field => { field, beforeValue := before field, afterValue := after field }) =
          fieldSortOrder.filter (· ∈ changed) := map_id'' (fun _ => rfl) _
    rw [fields, mem_filter, decide_eq_true_eq]
    exact ⟨And.right, fun member => ⟨mem_fieldSortOrder field, member⟩⟩
  · intro item member
    rw [listed] at member
    obtain ⟨field, _, rfl⟩ := mem_map.1 member
    exact ⟨rfl, rfl⟩
  · exact changedFields_other changes
  · intro valid other apart
    have tags : next.tagsForTransaction other = book.tagsForTransaction other := by
      rw [grown]
      split at tagging
      · exact setTags_other tagging valid apart
      · cases tagging; rfl
    have rows : next.transaction other = book.transaction other := by
      rw [grown, Book.transaction, Book.transaction]
      rw [rowAt_editAt_other sameIds apart, tagFrame.1]
    rw [Book.stateAt, Book.stateAt, rows]
    cases held : book.transaction other with
    | none => rfl
    | some row =>
      rw [Option.map_some, Option.map_some, Book.stateOf, Book.stateOf, rowAt_key held, tags]
  · intro valid clean kept
    have row : next.transaction tx.id = some (tx.setAll updates.tx) := by
      rw [grown, Book.transaction]
      rw [rowAt_editAt_same sameIds, tagFrame.1]
      have held : rowAt Transaction.id book.transactions tx.id = some tx := found
      rw [held]
      rfl
    rw [Book.stateAt, row, Option.map_some, Book.stateOf, predicts.sameId, predicts.reads, afterDef]
    have links : next.tagsForTransaction tx.id = tagged.tagsForTransaction tx.id := by rw [grown]; rfl
    rw [links]
    congr 1
    split at tagging
    · rename_i written
      cases asked with
      | none =>
        exact absurd (stateFromUpdates_elsewhere (fun member => by
          rcases mem_append.1 member with early | late
          · obtain ⟨update, among, same⟩ := mem_map.1 early
            exact predicts.untagged update among same
          · cases late)).symm ((inside .tags).1 written)
      | some tags =>
        have differ := (inside .tags).1 written
        rw [afterDef, tags_predicted predicts.untagged] at differ
        have keeps : book.KeepsLabels lower tags := kept tags rfl (fun same => differ (congrArg EditValue.labels same))
        have read := setTags_labels tagging (clean tags rfl) valid keeps
        rw [transactionState_retagged (book.tagsForTransaction tx.id) read]
        rfl
    · rename_i unwritten
      cases tagging
      cases asked with
      | none => rfl
      | some tags =>
        have same : before .tags = .labels (canonicalTags lower tags) := by
          by_contra differ
          refine unwritten ((inside .tags).2 ?_)
          rw [afterDef, tags_predicted predicts.untagged]
          exact differ
        have read : canonicalTags lower (book.tagsForTransaction tx.id) = canonicalTags lower tags := by
          have labels : EditValue.labels (canonicalTags lower (book.tagsForTransaction tx.id)) =
            EditValue.labels (δ := δ) (canonicalTags lower tags) := same
          exact EditValue.labels.inj labels
        rw [transactionState_retagged (book.tagsForTransaction tx.id) read]
        rfl

end

inductive Call (δ : Type) where
  | update (txId : String) (request : MetadataUpdate δ) (audit : Audit)
  | addTag (txId tagRef : String) (audit : Audit)
  | removeTag (txId tagRef : String) (audit : Audit)
  | revert (txId eventId : String) (field : Option Field) (audit : Audit)

def Call.txId : Call δ → String
  | .update txId _ _ | .addTag txId _ _ | .removeTag txId _ _ | .revert txId _ _ _ => txId

/-- The labels that a request names: stripped, without empty ones, the first of each folded label. -/
def namedTags (lower : String → String) (tags : List String) : List String :=
  firstPer lower [] ((tags.map strip).filter (· ≠ ""))

theorem namedTags_clean {tags : List String} : Clean lower (namedTags lower tags) where
  stripped label member := by
    obtain ⟨inside, nonempty⟩ := mem_filter.1 (firstPer_sublist.subset member)
    obtain ⟨source, _, rfl⟩ := mem_map.1 inside
    exact ⟨strip_strip source, by simpa using nonempty⟩
  distinct := firstPer_keys.1

theorem cleanTransactionTags_ok {tags cleaned : List String} (run : cleanTransactionTags lower tags = .ok cleaned) :
    cleaned = namedTags lower tags := by
  rw [cleanTransactionTags] at run
  split at run
  · cases run
  · cases run; rfl

theorem optional_ok {α β : Type} {f : α → Except EditError β} {given : Option α} {found : Option β}
    (run : given.mapM f = .ok found) : given.isSome = found.isSome ∧ ∀ x ∈ given, ∃ y ∈ found, f x = .ok y := by
  cases given with
  | none => cases run; exact ⟨rfl, fun x member => by cases member⟩
  | some x =>
    obtain ⟨y, here, rfl⟩ := map_ok.1 run
    exact ⟨rfl, fun x' member => by cases member; exact ⟨y, rfl, here⟩⟩

variable (letters : Letters) (arithmetic : Arithmetic δ φ) (profileCurrency : String) (reviewed : Reviewed)

/-- The tags that a call asks for; none where it does not touch the tags. -/
def Call.askedTags (book : Book δ φ) : Call δ → Option (List String)
  | .update _ request _ => request.tags.map (namedTags letters.lower)
  | .addTag txId tagRef _ => (book.resolveTag tagRef).toOption.map fun tag =>
      namedTags letters.lower (book.tagsForTransaction txId ++ [tag.label])
  | .removeTag txId tagRef _ => (book.resolveTag tagRef).toOption.map fun tag =>
      namedTags letters.lower
        ((book.tagsForTransaction txId).filter fun label => letters.lower label ≠ letters.lower tag.label)
  | .revert txId eventId field _ => do
      let event ← (book.loadEventForRevert txId eventId).toOption
      let fields ← (selectedFields event field).toOption
      revertedTags fields

variable [DecidableEq δ]

def Book.call (book : Book δ φ) : Call δ → Except EditError (Book δ φ × Option String)
  | .update txId request audit =>
    book.updateTransactionMetadata letters arithmetic profileCurrency reviewed txId request audit
  | .addTag txId tagRef audit => book.addTagToTransaction letters arithmetic profileCurrency reviewed txId tagRef audit
  | .removeTag txId tagRef audit =>
    book.removeTagFromTransaction letters arithmetic profileCurrency reviewed txId tagRef audit
  | .revert txId eventId field audit => book.revertTransactionEdit letters arithmetic txId eventId field audit

variable {letters arithmetic profileCurrency reviewed}

omit [DecidableEq δ] in
theorem cleanedUpdate_ok {request : MetadataUpdate δ} {now : String}
    (run : cleanedUpdate letters arithmetic profileCurrency reviewed tx request now = .ok (updates, asked)) :
    Predicts letters.lower arithmetic updates ∧ asked = request.tags.map (namedTags letters.lower) := by
  obtain ⟨accepted, _, run⟩ := bind_ok.1 run
  obtain ⟨note, _, run⟩ := bind_ok.1 run
  obtain ⟨tags, cleaned, run⟩ := bind_ok.1 run
  obtain ⟨_, _, run⟩ := bind_ok.1 run
  obtain ⟨reviewStatus, _, run⟩ := bind_ok.1 run
  obtain ⟨atRegime, _, run⟩ := bind_ok.1 run
  obtain ⟨atCategory, _, run⟩ := bind_ok.1 run
  obtain ⟨kind, _, run⟩ := bind_ok.1 run
  obtain ⟨pricing, _, run⟩ := bind_ok.1 run
  cases run
  constructor
  · apply predicts_joined
    have texts : ∀ {given : Prop} [Decidable given] {field : TextField} {value : Option String},
        Predicts letters.lower arithmetic (if given then textUpdate field value else {}) := by
      intro given _ field value
      split
      · exact predicts_text
      · exact predicts_nothing
    intro update member
    simp only [mem_cons, not_mem_nil, or_false] at member
    rcases member with rfl | rfl | rfl | rfl | rfl | rfl | rfl | rfl | rfl
    · exact texts
    · cases request.excluded with
      | none => exact predicts_nothing
      | some value => exact predicts_excluded
    · exact texts
    · cases request.taxable with
      | none => exact predicts_nothing
      | some value => exact predicts_taxable
    · exact texts
    · exact texts
    · exact texts
    · exact texts
    · cases pricing with
      | none => exact predicts_nothing
      | some pricing => exact predicts_pricing
  · obtain ⟨some', each⟩ := optional_ok cleaned
    cases given : request.tags with
    | none =>
      rw [given] at some'
      cases asked with
      | none => rfl
      | some _ => cases some'
    | some tags =>
      obtain ⟨cleaned, found, same⟩ := each tags given
      rw [Option.mem_def.1 found, Option.map_some, cleanTransactionTags_ok same]

omit [DecidableEq δ] in
theorem resolveTransaction_ok {txId : String} (run : book.resolveTransaction txId = .ok tx) :
    book.transaction txId = some tx ∧ tx.id = txId := by
  rw [Book.resolveTransaction] at run
  split at run
  · cases run
  · rename_i row found
    cases run
    exact ⟨found, rowAt_key found⟩

theorem update_applies {txId : String} {request : MetadataUpdate δ}
    (run : book.updateTransactionMetadata letters arithmetic profileCurrency reviewed txId request audit = .ok (next, event?)) :
    ∃ tx updates, book.transaction tx.id = some tx ∧ tx.id = txId ∧ Predicts letters.lower arithmetic updates ∧
      book.applyAuditedTransactionUpdate letters.lower arithmetic tx updates (request.tags.map (namedTags letters.lower))
        audit = .ok (next, event?) := by
  obtain ⟨tx, resolved, run⟩ := bind_ok.1 run
  obtain ⟨⟨updates, asked⟩, cleaned, run⟩ := bind_ok.1 run
  obtain ⟨found, own⟩ := resolveTransaction_ok resolved
  obtain ⟨predicts, same⟩ := cleanedUpdate_ok cleaned
  exact ⟨tx, updates, own.symm ▸ found, own, predicts, same ▸ run⟩

/-- The tags that an event recorded are labels as the state reads them. -/
def Book.Recorded (lower : String → String) (book : Book δ φ) : Prop :=
  ∀ event ∈ book.events, ∀ item ∈ event.fields, item.field = .tags →
    ∃ labels, item.beforeValue = .labels (canonicalTags lower labels)

omit [DecidableEq δ] in
theorem loadEvent_ok {txId eventId : String} {event : EditEvent δ} (run : book.loadEventForRevert txId eventId = .ok event) :
    book.event eventId = some event := by
  rw [Book.loadEventForRevert] at run
  split at run
  · cases run
  · rename_i found
    cases run
    exact (Option.filter_eq_some_iff.1 found).1

omit [DecidableEq δ] in
theorem selectedFields_sub {event : EditEvent δ} {field : Option Field} {fields : List (EditField δ)}
    (run : selectedFields event field = .ok fields) : ∀ item ∈ fields, item ∈ event.fields := by
  cases field with
  | none => cases run; exact fun _ => id
  | some field =>
    rw [selectedFields] at run
    split at run
    · cases run
    · cases run
      exact fun item member => (mem_filter.1 member).1

omit [DecidableEq δ] in
theorem revertedTags_clean {fields : List (EditField δ)} {labels : List String}
    (recorded : ∀ item ∈ fields, item.field = .tags → ∃ labels, item.beforeValue = .labels (canonicalTags lower labels))
    (reverted : revertedTags fields = some labels) : Clean lower labels := by
  obtain ⟨item, found, rfl⟩ := Option.map_eq_some_iff.1 reverted
  obtain ⟨labels, same⟩ := recorded item (mem_of_find?_eq_some found) (by simpa using find?_some found)
  rw [same]
  exact canonicalLabels_clean

theorem call_applies {call : Call δ} (recorded : book.Recorded letters.lower)
    (run : book.call letters arithmetic profileCurrency reviewed call = .ok (next, event?)) :
    (∀ tags ∈ call.askedTags letters book, Clean letters.lower tags) ∧ ∃ tx updates trail,
      book.transaction tx.id = some tx ∧ tx.id = call.txId ∧ Predicts letters.lower arithmetic updates ∧
      book.applyAuditedTransactionUpdate letters.lower arithmetic tx updates (call.askedTags letters book) trail =
        .ok (next, event?) := by
  cases call with
  | update txId request trail =>
    obtain ⟨tx, updates, found, own, predicts, run⟩ := update_applies run
    refine ⟨fun tags member => ?_, tx, updates, trail, found, own, predicts, run⟩
    obtain ⟨_, _, rfl⟩ := Option.map_eq_some_iff.1 member
    exact namedTags_clean
  | addTag txId tagRef trail | removeTag txId tagRef trail =>
    obtain ⟨tx, resolved, run⟩ := bind_ok.1 run
    obtain ⟨tag, looked, run⟩ := bind_ok.1 run
    obtain ⟨_, same⟩ := resolveTransaction_ok resolved
    obtain ⟨tx', updates, found, own, predicts, run⟩ := update_applies run
    rw [Call.askedTags, looked]
    refine ⟨fun tags member => ?_, tx', updates, trail, found, own.trans same, predicts, by rw [← same]; exact run⟩
    cases member
    exact namedTags_clean
  | revert txId eventId field trail =>
    obtain ⟨tx, resolved, run⟩ := bind_ok.1 run
    obtain ⟨event, loaded, run⟩ := bind_ok.1 run
    obtain ⟨fields, selected, run⟩ := bind_ok.1 run
    obtain ⟨found, same⟩ := resolveTransaction_ok resolved
    have asked : Call.askedTags letters book (.revert txId eventId field trail) = revertedTags fields := by
      rw [Call.askedTags, ← same, loaded, Except.toOption, Option.bind_eq_bind, Option.bind_some, selected]
      rfl
    rw [asked]
    refine ⟨fun tags reverted => ?_, tx, _, _, same.symm ▸ found, same, predicts_joined ?_, run⟩
    · exact revertedTags_clean (fun item member => recorded event (rowAt_mem (loadEvent_ok loaded)) item
        (selectedFields_sub selected item member)) reverted
    · intro update member
      obtain ⟨item, _, rfl⟩ := mem_map.1 member
      exact predicts_revert

end Kassiber.Metadata

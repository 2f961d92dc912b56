import Kassiber.Metadata.Edits

/-!
What a write leaves is what the edit predicts: for each column it sets, and for the tags, whose rows are
shared by every label of one code.
-/

namespace Kassiber.Metadata
open Lib.Outcome Lib.Keyed Lib.Labelling Lib.Sorting List

variable {δ φ : Type} {lower : String → String} {arithmetic : Arithmetic δ φ}

/-- The predicted state is the one that the written row reads, whatever its tags are. -/
structure Predicts (lower : String → String) (arithmetic : Arithmetic δ φ) (updates : Updates δ φ) : Prop where
  reads : ∀ tx tags, transactionState lower arithmetic (tx.setAll updates.tx) tags =
    stateFromUpdates lower (transactionState lower arithmetic tx tags) updates.state none
  sameId : ∀ tx : Transaction δ φ, (tx.setAll updates.tx).id = tx.id
  untagged : ∀ update ∈ updates.state, update.1 ≠ .tags

theorem predicts_nothing : Predicts lower arithmetic {} := ⟨fun _ _ => rfl, fun _ => rfl, fun _ member => by cases member⟩

theorem Predicts.join {first second : Updates δ φ} (one : Predicts lower arithmetic first)
    (two : Predicts lower arithmetic second) : Predicts lower arithmetic (first.join second) where
  reads tx tags := by
    have split : tx.setAll (first.join second).tx = (tx.setAll first.tx).setAll second.tx := foldl_append
    rw [split, two.reads, one.reads, stateFromUpdates, stateFromUpdates, stateFromUpdates, Updates.join]
    exact foldl_append.symm
  sameId tx := by
    have split : tx.setAll (first.join second).tx = (tx.setAll first.tx).setAll second.tx := foldl_append
    rw [split, two.sameId, one.sameId]
  untagged update member := by
    rcases mem_append.1 member with early | late
    · exact one.untagged update early
    · exact two.untagged update late

theorem predicts_joined {updates : List (Updates δ φ)} (each : ∀ update ∈ updates, Predicts lower arithmetic update) :
    Predicts lower arithmetic (joined updates) := by
  induction updates with
  | nil => exact predicts_nothing
  | cons update rest ih =>
    exact (each update (.head _)).join (ih fun other member => each other (.tail _ member))

theorem predicts_text {field : TextField} {value : Option String} :
    Predicts lower arithmetic (textUpdate (δ := δ) (φ := φ) field value) where
  reads tx tags := by
    funext f
    by_cases own : f = .text field
    · subst own
      simp [Transaction.setAll, textUpdate, Assignment.set, stateFromUpdates, transactionState, valueForTxUpdate]
    · cases f with
      | text other =>
        have apart : other ≠ field := fun same => own (same ▸ rfl)
        simp [Transaction.setAll, textUpdate, Assignment.set, stateFromUpdates, transactionState, apart]
      | _ => rfl
  sameId _ := rfl
  untagged update member := by
    rw [mem_singleton.1 member]
    exact nofun

theorem predicts_excluded {value : Bool} : Predicts lower arithmetic (excludedUpdate (δ := δ) (φ := φ) value) where
  reads tx tags := by
    funext f
    cases f with
    | excluded => cases value <;> rfl
    | _ => rfl
  sameId _ := rfl
  untagged update member := by
    rw [mem_singleton.1 member]
    exact nofun

theorem predicts_taxable {value : Option Bool} : Predicts lower arithmetic (taxableUpdate (δ := δ) (φ := φ) value) where
  reads tx tags := by
    funext f
    cases f with
    | taxable => rcases value with _ | _ | _ <;> rfl
    | _ => rfl
  sameId _ := rfl
  untagged update member := by
    rw [mem_singleton.1 member]
    exact nofun

theorem predicts_price {field : PriceField} {value : Option δ} :
    Predicts lower arithmetic (priceUpdate arithmetic field value) where
  reads tx tags := by
    funext f
    cases f with
    | price other =>
      by_cases own : other = field
      · subst own
        cases value <;> simp [Transaction.setAll, priceUpdate, Assignment.set, stateFromUpdates, transactionState,
          exactOrFloat, valueForTxUpdate, EditValue.ofPrice]
      · simp [Transaction.setAll, priceUpdate, Assignment.set, stateFromUpdates, transactionState, own]
    | _ => rfl
  sameId _ := rfl
  untagged update member := by
    rw [mem_singleton.1 member]
    exact nofun

theorem predicts_pricing {pricing : Pricing δ} : Predicts lower arithmetic (pricingUpdate arithmetic pricing) := by
  apply predicts_joined
  intro update member
  simp only [mem_cons, not_mem_nil, or_false] at member
  rcases member with rfl | rfl | rfl | rfl | rfl | rfl | rfl | rfl | rfl | rfl | rfl | rfl | rfl
  all_goals first
    | exact predicts_text
    | exact predicts_price

theorem predicts_revert {field : Field} {value : EditValue δ} :
    Predicts lower arithmetic (txUpdatesForRevertField arithmetic field value) := by
  cases field with
  | tags => exact predicts_nothing
  | excluded => cases value <;> exact predicts_excluded
  | taxable => cases value <;> exact predicts_taxable
  | price field => cases value <;> exact predicts_price
  | text field => cases value <;> exact predicts_text

def codeOf (lower : String → String) (tag : String) : String := (lower (strip tag)).map fun c => if c = ' ' then '-' else c

theorem normalizeCode_ok {tag code : String} (run : normalizeCode lower tag = .ok code) : code = codeOf lower tag := by
  rw [normalizeCode] at run
  split at run
  · cases run
  · cases run; rfl

/-- The label that a requested tag is written under: that of the row with its code, or of the first
request for a new row with its code. -/
def Book.labelFor (lower : String → String) (book : Book δ φ) (tags : List String) (tag : String) : String :=
  ((rowAt Tag.code (book.tags ++ tags.map fun other => { code := codeOf lower other, label := other }) (codeOf lower tag)).map
    Tag.label).getD tag

/-- The tag rows of the requested tags carry the requested labels, up to order and blanks. -/
def Book.KeepsLabels (lower : String → String) (book : Book δ φ) (tags : List String) : Prop :=
  (tags.map fun tag => strip (book.labelFor lower tags tag)).Perm tags

structure Book.Valid (book : Book δ φ) : Prop where
  codes : (book.tags.map Tag.code).Nodup
  linked : ∀ link ∈ book.links, link.2 ∈ book.tags.map Tag.code

variable {book next : Book δ φ} {tags : List String} {rows : List Tag}

theorem ensureTagRow_spec {tag : String} {row : Tag} (run : book.ensureTagRow lower tag = .ok (next, row)) :
    row.code = codeOf lower tag ∧ rowAt Tag.code next.tags row.code = some row ∧
      ((next = book) ∨ rowAt Tag.code book.tags row.code = none ∧ row.label = tag ∧
        next = { book with tags := book.tags ++ [row] }) := by
  obtain ⟨code, named, run⟩ := bind_ok.1 run
  have own := normalizeCode_ok named
  subst own
  cases found : rowAt Tag.code book.tags (codeOf lower tag) with
  | some existing =>
    rw [found] at run
    cases run
    have same : row.code = codeOf lower tag := rowAt_key found
    exact ⟨same, same ▸ found, .inl rfl⟩
  | none =>
    rw [found] at run
    cases run
    refine ⟨rfl, ?_, .inr ⟨found, rfl, rfl⟩⟩
    rw [rowAt_append, found, rowAt_cons, if_pos rfl]
    rfl

theorem ensureTagRows_spec (run : book.ensureTagRows lower tags = .ok (next, rows)) :
    (∃ added, next = { book with tags := book.tags ++ added }) ∧
      ((book.tags.map Tag.code).Nodup → (next.tags.map Tag.code).Nodup) ∧
      (∀ code, rowAt Tag.code next.tags code =
        rowAt Tag.code (book.tags ++ tags.map fun tag => { code := codeOf lower tag, label := tag }) code) ∧
      Forall₂ (fun tag row => rowAt Tag.code next.tags (codeOf lower tag) = some row) tags rows := by
  induction tags generalizing book next rows with
  | nil =>
    cases run
    exact ⟨⟨[], by rw [append_nil]⟩, id, fun code => by rw [map_nil, append_nil], .nil⟩
  | cons tag rest ih =>
    obtain ⟨⟨middle, row⟩, first, run⟩ := bind_ok.1 run
    obtain ⟨⟨last, later⟩, second, run⟩ := bind_ok.1 run
    cases run
    obtain ⟨coded, held, step⟩ := ensureTagRow_spec first
    obtain ⟨⟨added, grown⟩, distinct, looked, matched⟩ := ih second
    have kept : rowAt Tag.code next.tags (codeOf lower tag) = some row := by
      rw [grown, rowAt_append, ← coded, held]
      rfl
    rcases step with rfl | ⟨missing, labelled, rfl⟩
    · refine ⟨⟨added, grown⟩, distinct, fun code => ?_, .cons kept matched⟩
      rw [looked, rowAt_append, rowAt_append, map_cons, rowAt_cons]
      split
      · rename_i own
        rw [← own, ← coded, held]
        rfl
      · rfl
    · refine ⟨⟨row :: added, by rw [grown]; simp⟩, fun nodup => distinct ?_, fun code => ?_, .cons kept matched⟩
      · have put : ((putAt Tag.code book.tags row).map Tag.code).Nodup := keys_putAt nodup
        rwa [putAt, missing, if_neg (by simp)] at put
      · have same : row = { code := codeOf lower tag, label := tag } := by
          cases row
          simp only at coded labelled
          rw [coded, labelled]
        rw [looked, same, map_cons, List.append_assoc]
        rfl

theorem matched_rows (matched : Forall₂ (fun tag row => rowAt Tag.code next.tags (codeOf lower tag) = some row) tags rows) :
    rows.map Tag.code = tags.map (codeOf lower) := by
  induction matched with
  | nil => rfl
  | cons held _ ih => rw [map_cons, map_cons, ih, rowAt_key held]

theorem matched_held (matched : Forall₂ (fun tag row => rowAt Tag.code next.tags (codeOf lower tag) = some row) tags rows) :
    ∀ row ∈ rows, rowAt Tag.code next.tags row.code = some row := by
  induction matched with
  | nil => exact fun row member => by cases member
  | cons held _ ih =>
    intro row member
    rcases mem_cons.1 member with rfl | later
    · rw [rowAt_key held]
      exact held
    · exact ih row later

theorem matched_found
    (matched : Forall₂ (fun tag row => rowAt Tag.code next.tags (codeOf lower tag) = some row) tags rows) :
    ∀ tag ∈ tags, ∃ row, rowAt Tag.code next.tags (codeOf lower tag) = some row := by
  induction matched with
  | nil => exact fun tag member => by cases member
  | cons held _ ih =>
    intro tag member
    rcases mem_cons.1 member with rfl | later
    · exact ⟨_, held⟩
    · exact ih tag later

theorem matched_labels {label : String → String}
    (matched : Forall₂ (fun tag row => rowAt Tag.code next.tags (codeOf lower tag) = some row) tags rows)
    (same : ∀ tag row, rowAt Tag.code next.tags (codeOf lower tag) = some row → label tag = row.label) :
    rows.map Tag.label = tags.map label := by
  induction matched with
  | nil => rfl
  | cons held _ ih => rw [map_cons, map_cons, ih, same _ _ held]

section
variable {txId : String} (run : book.setTags lower txId tags = .ok next)
include run

theorem setTags_spec : ∃ middle rows, book.ensureTagRows lower tags = .ok (middle, rows) ∧
    next = { middle with
      links := book.links.filter (fun link => link.1 ≠ txId) ++ (tags.map (codeOf lower)).dedup.map fun code => (txId, code) } ∧
    middle.tags = next.tags := by
  obtain ⟨⟨middle, rows⟩, ensured, run⟩ := bind_ok.1 run
  cases run
  obtain ⟨⟨added, grown⟩, _, _, matched⟩ := ensureTagRows_spec ensured
  refine ⟨middle, rows, ensured, ?_, rfl⟩
  rw [matched_rows matched]
  have links : middle.links = book.links := by rw [grown]
  rw [links]

theorem setTags_frame : next.transactions = book.transactions ∧ next.events = book.events := by
  obtain ⟨middle, rows, ensured, rfl, _⟩ := setTags_spec run
  obtain ⟨added, grown⟩ := (ensureTagRows_spec ensured).1
  rw [grown]
  exact ⟨rfl, rfl⟩

theorem setTags_valid (valid : book.Valid) : next.Valid := by
  obtain ⟨middle, rows, ensured, rfl, _⟩ := setTags_spec run
  obtain ⟨⟨added, grown⟩, distinct, looked, matched⟩ := ensureTagRows_spec ensured
  refine ⟨distinct valid.codes, fun link member => ?_⟩
  have wider : ∀ code ∈ book.tags.map Tag.code, code ∈ middle.tags.map Tag.code := by
    rw [grown]
    intro code inside
    rw [map_append]
    exact mem_append_left _ inside
  rcases mem_append.1 member with old | new
  · exact wider _ (valid.linked link (mem_filter.1 old).1)
  · obtain ⟨code, inside, rfl⟩ := mem_map.1 new
    rw [mem_dedup, ← matched_rows matched] at inside
    obtain ⟨row, among, rfl⟩ := mem_map.1 inside
    exact mem_map_of_mem (rowAt_mem (matched_held matched row among))

theorem setTags_other (valid : book.Valid) {other : String} (apart : other ≠ txId) :
    next.tagsForTransaction other = book.tagsForTransaction other := by
  obtain ⟨middle, rows, ensured, rfl, _⟩ := setTags_spec run
  obtain ⟨⟨added, grown⟩, distinct, _, _⟩ := ensureTagRows_spec ensured
  have nodup := distinct valid.codes
  have tags' : middle.tags = book.tags ++ added := by rw [grown]
  rw [tags', map_append, nodup_append] at nodup
  have same : ∀ code, (other, code) ∈ book.links.filter (fun link => link.1 ≠ txId) ++
      (tags.map (codeOf lower)).dedup.map (fun code => (txId, code)) ↔ (other, code) ∈ book.links := by
    intro code
    rw [mem_append, mem_filter]
    constructor
    · rintro (⟨inside, _⟩ | new)
      · exact inside
      · obtain ⟨_, _, eq⟩ := mem_map.1 new
        exact absurd (congrArg Prod.fst eq).symm apart
    · exact fun inside => .inl ⟨inside, by simpa using apart⟩
  have unlinked : ∀ tag ∈ added, (other, tag.code) ∉ book.links := fun tag member inside =>
    nodup.2.2 tag.code (valid.linked _ inside) tag.code (mem_map_of_mem member) rfl
  rw [Book.tagsForTransaction, Book.tagsForTransaction]
  simp only [same, tags', filter_append]
  have none' : added.filter (fun tag => (other, tag.code) ∈ book.links) = [] :=
    filter_eq_nil_iff.2 (fun tag member => by simpa using unlinked tag member)
  rw [none', append_nil]

theorem setTags_labels (clean : Clean lower tags) (valid : book.Valid) (kept : book.KeepsLabels lower tags) :
    canonicalTags lower (next.tagsForTransaction txId) = canonicalTags lower tags := by
  obtain ⟨middle, rows, ensured, rfl, _⟩ := setTags_spec run
  obtain ⟨_, distinct, looked, matched⟩ := ensureTagRows_spec ensured
  have nodup := distinct valid.codes
  have named : ∀ tag row, rowAt Tag.code middle.tags (codeOf lower tag) = some row → book.labelFor lower tags tag = row.label := by
    intro tag row held
    rw [Book.labelFor, ← looked, held]
    rfl
  have distinctTags : tags.Nodup := List.Nodup.of_map _ clean.distinct
  have codes : (tags.map (codeOf lower)).Nodup := by
    refine (nodup_map_iff_inj_on distinctTags).2 (fun one first two second same => ?_)
    obtain ⟨row, held⟩ := matched_found matched one first
    have labels : book.labelFor lower tags one = book.labelFor lower tags two :=
      (named one row held).trans (named two row (same ▸ held)).symm
    have folded : (tags.map fun tag => strip (book.labelFor lower tags tag)).Nodup := kept.nodup_iff.2 distinctTags
    exact inj_on_of_nodup_map folded first second (congrArg strip labels)
  have coded : rows.map Tag.code = tags.map (codeOf lower) := matched_rows matched
  have linked : (middle.tags.filter fun tag => (txId, tag.code) ∈ book.links.filter (fun link => link.1 ≠ txId) ++
      (tags.map (codeOf lower)).dedup.map fun code => (txId, code)).Perm rows := by
    refine (perm_ext_iff_of_nodup ((List.Nodup.of_map _ nodup).filter _) (List.Nodup.of_map Tag.code (coded ▸ codes))).2 ?_
    intro row
    rw [mem_filter, decide_eq_true_eq, mem_append]
    constructor
    · rintro ⟨inside, old | new⟩
      · have other := (mem_filter.1 old).2
        simp at other
      · obtain ⟨code, among, eq⟩ := mem_map.1 new
        have own : code = row.code := congrArg Prod.snd eq
        rw [mem_dedup, own, ← coded] at among
        obtain ⟨other, member, same⟩ := mem_map.1 among
        have held := matched_held matched other member
        rw [same, rowAt_of_mem nodup inside] at held
        cases held
        exact member
    · intro member
      refine ⟨rowAt_mem (matched_held matched row member), .inr (mem_map.2 ⟨row.code, ?_, rfl⟩)⟩
      rw [mem_dedup, ← coded]
      exact mem_map_of_mem member
  apply canonicalLabels_of_perm clean
  refine List.Perm.trans ?_ kept
  have labels : rows.map Tag.label = tags.map (book.labelFor lower tags) := matched_labels matched named
  have stripped : (rows.map Tag.label).map strip = tags.map fun tag => strip (book.labelFor lower tags tag) := by
    rw [labels, map_map]
    rfl
  rw [← stripped]
  exact (((sortedBy_perm Tag.code _).trans linked).map Tag.label).map strip

end

end Kassiber.Metadata

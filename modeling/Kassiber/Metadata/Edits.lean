import Kassiber.Lib.Outcome
import Kassiber.Metadata.History

/-!
The audited edits of a transaction: cleaning what was asked for, writing the row and the tags in one
transaction, appending the event, and reverting an event.
-/

namespace Kassiber.Metadata
open Lib.Outcome Lib.Keyed Lib.Labelling Lib.Sorting

variable {δ φ : Type}

inductive Assignment (δ φ : Type) where
  | excluded (value : Int)
  | taxabilityOverride (value : Option Int)
  | float (field : PriceField) (value : Option φ)
  | exact (field : PriceField) (value : Option δ)
  | text (field : TextField) (value : Option String)

def Assignment.set (tx : Transaction δ φ) : Assignment δ φ → Transaction δ φ
  | .excluded value => { tx with excluded := value }
  | .taxabilityOverride value => { tx with taxabilityOverride := value }
  | .float field value => { tx with float := Function.update tx.float field value }
  | .exact field value => { tx with exact := Function.update tx.exact field value }
  | .text field value => { tx with text := Function.update tx.text field value }

def Transaction.setAll (tx : Transaction δ φ) (updates : List (Assignment δ φ)) : Transaction δ φ :=
  updates.foldl Assignment.set tx

/-- What a request changes: the columns it writes and the fields it predicts, in step. -/
structure Updates (δ φ : Type) where
  tx : List (Assignment δ φ) := []
  state : List (Field × EditValue δ) := []

def Updates.join (first second : Updates δ φ) : Updates δ φ := ⟨first.tx ++ second.tx, first.state ++ second.state⟩

section
variable (lower : String → String)

/-- `Code cannot be empty` apart, the code is the folded label with dashes for spaces. -/
def normalizeCode (value : String) : Except EditError String :=
  let code := (lower (strip value)).map fun c => if c = ' ' then '-' else c
  if code = "" then .error (.appError "app_error" "Code cannot be empty") else .ok code

def Book.ensureTagRow (book : Book δ φ) (tag : String) : Except EditError (Book δ φ × Tag) := do
  let code ← normalizeCode lower tag
  match rowAt Tag.code book.tags code with
  | some existing => return (book, existing)
  | none => return ({ book with tags := book.tags ++ [{ code, label := tag }] }, { code, label := tag })

def Book.ensureTagRows (book : Book δ φ) : List String → Except EditError (Book δ φ × List Tag)
  | [] => .ok (book, [])
  | tag :: rest => do
    let (next, row) ← book.ensureTagRow lower tag
    let (last, rows) ← next.ensureTagRows rest
    return (last, row :: rows)

def Book.setTags (book : Book δ φ) (txId : String) (tags : List String) : Except EditError (Book δ φ) := do
  let (next, rows) ← book.ensureTagRows lower tags
  return { next with
    links := next.links.filter (fun link => link.1 ≠ txId) ++ (rows.map Tag.code).dedup.map fun code => (txId, code) }

def stateFromUpdates (before : State δ) (updates : List (Field × EditValue δ)) (tags : Option (List String)) : State δ :=
  let tagged := tags.elim before fun tags => Function.update before .tags (valueForTxUpdate lower .tags (.labels tags))
  updates.foldl (fun state update => Function.update state update.1 (valueForTxUpdate lower update.1 update.2)) tagged

variable (arithmetic : Arithmetic δ φ)

def Book.stateOf (book : Book δ φ) (tx : Transaction δ φ) : State δ :=
  transactionState lower arithmetic tx (book.tagsForTransaction tx.id)

def requestedFields (updates : List (Field × EditValue δ)) (tags : Option (List String)) : List Field :=
  updates.map Prod.fst ++ (if tags.isSome then [.tags] else [])

def changedFields [DecidableEq δ] (before after : State δ) (requested : List Field) : List Field :=
  let changed := requested.filter fun field => before field ≠ after field
  if ∀ field ∈ changed, field = .text .pricingFetchedAt then [] else changed

structure Audit where
  source : Option String := some "cli"
  reason : Option String := none
  eventId : String
  now : String

def Book.writeTags (book : Book δ φ) (txId : String) (tags : Option (List String)) (changed : List Field) :
    Except EditError (Book δ φ) :=
  if .tags ∈ changed then book.setTags lower txId (tags.getD []) else .ok book

def Book.applyAuditedTransactionUpdate [DecidableEq δ] (book : Book δ φ) (tx : Transaction δ φ) (updates : Updates δ φ)
    (tags : Option (List String)) (audit : Audit) : Except EditError (Book δ φ × Option String) := do
  let source ← normalizeSource lower audit.source
  let reason ← cleanReason audit.reason
  let before := book.stateOf lower arithmetic tx
  let after := stateFromUpdates lower before updates.state tags
  let changed := changedFields before after (requestedFields updates.state tags)
  if changed = [] then return (book, none)
  let tagged ← book.writeTags lower tx.id tags changed
  let written := { tagged with transactions := editAt Transaction.id tagged.transactions tx.id (·.setAll updates.tx) }
  let logged ← written.appendEvent tx.id audit.eventId source reason audit.now changed before after
  return (logged, some audit.eventId)

end

def maxTransactionNoteChars : Nat := 20000
def maxTransactionTagChars : Nat := 128
def maxPricingExternalRefChars : Nat := 500

def supportedReviewStatuses : List String := ["completed", "pending", "failed", "review"]
def supportedAtRegimeOverrides : List String := ["alt", "neu", "outside"]
def supportedAtCategoryOverrides : List String :=
  ["income_general", "income_capital_yield", "neu_gain", "neu_loss", "neu_swap", "alt_spekulation", "alt_taxfree", "none"]

def supportedTransactionKinds : List (String × String) :=
  [("buy", "inbound"), ("sell", "outbound"), ("deposit", "inbound"), ("withdrawal", "outbound"), ("spend", "outbound"),
    ("income", "inbound"), ("wages", "inbound"), ("mining", "inbound"), ("staking", "inbound"), ("interest", "inbound"),
    ("lending_interest", "inbound"), ("airdrop", "inbound"), ("hardfork", "inbound"), ("gift", "outbound"),
    ("donation", "outbound"), ("lost", "outbound"), ("stolen", "outbound")]

def supportedPricingSourceKinds : List String :=
  ["fmv_provider", "manual_rate_cache", "generic_import", "wallet_export", "btcpay_wallet_export", "exchange_execution",
    "btcpay_invoice", "btcpay_payment", "btcpay_payout", "manual_override"]

def qualityExact := "exact"
def qualityProviderSample := "provider_sample"
def qualityCoarseFallback := "coarse_fallback"
def qualityMissing := "missing"

def supportedPricingQualities : List String := [qualityExact, qualityProviderSample, qualityCoarseFallback, qualityMissing]

def legacySourceFor : Option String → Option String
  | none => none
  | some kind =>
    if kind = "fmv_provider" ∨ kind = "manual_rate_cache" then some "rates_cache"
    else if kind = "manual_override" then some "manual"
    else if kind ≠ "" then some "import"
    else none

def importQuality (kind : String) : String := if kind = "generic_import" then qualityProviderSample else qualityExact

def invalid (message : String) : EditError := .appError "validation" message

def cleanTransactionNote : Option String → Except EditError (Option String)
  | none => .ok none
  | some note =>
    if maxTransactionNoteChars < note.length then
      .error (invalid s!"note cannot exceed {maxTransactionNoteChars} characters")
    else .ok (some note)

/-- Stripped labels, without the empty ones, the first of each folded label. -/
def cleanTransactionTags (lower : String → String) (tags : List String) : Except EditError (List String) :=
  let labels := (tags.map strip).filter (· ≠ "")
  if ∃ label ∈ labels, maxTransactionTagChars < label.length then
    .error (invalid s!"tag cannot exceed {maxTransactionTagChars} characters")
  else .ok (firstPer lower [] labels)

def cleanOptionalString (value : Option String) (field : String) (maxChars : Nat) : Except EditError (Option String) :=
  match value with
  | none => .ok none
  | some value =>
    let cleaned := strip value
    if cleaned = "" then .ok none
    else if maxChars < cleaned.length then .error (invalid s!"{field} cannot exceed {maxChars} characters")
    else .ok (some cleaned)

def cleanOptionalChoice (value : Option String) (field : String) (choices : List String) :
    Except EditError (Option String) := do
  let cleaned ← cleanOptionalString value field 64
  match cleaned with
  | none => return none
  | some choice => if choice ∈ choices then return some choice else .error (invalid s!"{field} is not supported")

structure PricingRequest (δ : Type) where
  fiatCurrency : Option String := none
  fiatRate : Option δ := none
  fiatValue : Option δ := none
  sourceKind : Option String := none
  quality : Option String := none
  externalRef : Option String := none
  method : Option String := none

structure Pricing (δ : Type) where
  fiatCurrency : String
  fiatRate : Option δ := none
  fiatValue : Option δ := none
  fiatPriceSource : Option String := none
  sourceKind : Option String := none
  provider : Option String := none
  pair : Option String := none
  timestamp : Option String := none
  fetchedAt : Option String := none
  granularity : Option String := none
  method : Option String := none
  externalRef : Option String := none
  quality : String := qualityMissing

/-- What the language says of letters: folding, and the test for letters. -/
structure Letters where
  lower : String → String
  upper : String → String
  alphabetic : String → Bool
  lower_ne : ∀ text, text ≠ "" → lower text ≠ ""

section
variable (letters : Letters) (arithmetic : Arithmetic δ φ)

def cleanFiatCurrency (value : Option String) (fallback : String) : Except EditError String :=
  let cleaned := letters.upper (strip ((value.filter (· ≠ "")).getD fallback))
  if cleaned.length ≠ 3 ∨ ¬ letters.alphabetic cleaned then
    .error (invalid "fiat_currency must be a 3-letter currency code")
  else .ok cleaned

def completedPrice (tx : Transaction δ φ) (rate value : Option δ) : Option δ × Option δ :=
  let amount := arithmetic.ofMsat |tx.amount|
  if arithmetic.positive amount then
    let rate := rate.or (value.map (arithmetic.div · amount))
    (rate, value.or (rate.map (arithmetic.mul · amount)))
  else (rate, value)

def transactionPricingPayload (profileCurrency : String) (tx : Transaction δ φ) (request : PricingRequest δ) :
    Except EditError (Pricing δ) := do
  let sourceKind ← cleanOptionalString request.sourceKind "pricing_source_kind" 64
  let quality ← cleanOptionalString request.quality "pricing_quality" 64
  raiseIf (∃ named ∈ sourceKind, named ∉ supportedPricingSourceKinds) (invalid "pricing_source_kind is not supported")
  raiseIf (∃ named ∈ quality, named ∉ supportedPricingQualities) (invalid "pricing_quality is not supported")
  let fiatCurrency ← cleanFiatCurrency letters request.fiatCurrency
    (((tx.text .fiatCurrency).filter (· ≠ "")).getD profileCurrency)
  if sourceKind = none ∨ quality = some qualityMissing then return { fiatCurrency }
  let kind := sourceKind.getD ""
  let quality := quality.getD (importQuality kind)
  let (rate, value) := completedPrice arithmetic tx request.fiatRate request.fiatValue
  raiseIf (rate.isNone ∧ value.isNone) (invalid "pricing updates require fiat_rate or fiat_value")
  raiseIf (∃ given ∈ rate, ¬ arithmetic.positive given) (invalid "fiat_rate must be positive")
  raiseIf (∃ given ∈ value, arithmetic.negative given) (invalid "fiat_value must not be negative")
  let externalRef ← cleanOptionalString request.externalRef "pricing_external_ref" maxPricingExternalRefChars
  let method ← cleanOptionalString request.method "pricing_method" 64
  return {
    fiatCurrency
    fiatRate := rate.map arithmetic.fixed
    fiatValue := value.map arithmetic.fixed
    fiatPriceSource := legacySourceFor (some kind)
    sourceKind := some kind
    provider := if kind = "manual_override" then some "manual" else none
    pair := some s!"{tx.asset}-{fiatCurrency}"
    timestamp := (tx.confirmedAt.filter (· ≠ "")).or (some tx.occurredAt)
    granularity := if quality = qualityExact then some "exact" else none
    method := method.or (some "desktop_transaction_detail")
    externalRef
    quality }

/-- The price that a review accepts: the rate first, then the value. -/
def reviewedPrice (tx : Transaction δ φ) : Option String :=
  let read := fun field => (tx.exact field).or ((tx.float field).map arithmetic.ofFloat)
  let named := fun (name : String) (field : PriceField) =>
    ((read field).filter arithmetic.positive).map fun value => name ++ ":" ++ arithmetic.text (arithmetic.fixed value)
  (named "rate" .fiatRate).or (named "value" .fiatValue)

/-- The fields of a metadata update; none where the caller does not set the field. -/
structure MetadataUpdate (δ : Type) where
  note : Option (Option String) := none
  tags : Option (List String) := none
  excluded : Option Bool := none
  pricing : Option (PricingRequest δ) := none
  reviewStatus : Option (Option String) := none
  taxable : Option (Option Bool) := none
  atRegime : Option (Option String) := none
  atCategory : Option (Option String) := none
  kind : Option (Option String) := none
  acceptCoarsePrice : Bool := false

def bit (value : Bool) : Int := if value then 1 else 0

def textUpdate (field : TextField) (value : Option String) : Updates δ φ :=
  { tx := [.text field value], state := [(.text field, .ofText value)] }

def excludedUpdate (value : Bool) : Updates δ φ :=
  { tx := [.excluded (bit value)], state := [(.excluded, .flag value)] }

def taxableUpdate (value : Option Bool) : Updates δ φ :=
  { tx := [.taxabilityOverride (value.map bit)], state := [(.taxable, .ofFlag value)] }

def priceUpdate (field : PriceField) (value : Option δ) : Updates δ φ :=
  { tx := [.float field (value.map arithmetic.toFloat), .exact field value], state := [(.price field, .ofPrice value)] }

def joined (updates : List (Updates δ φ)) : Updates δ φ := updates.foldr Updates.join {}

def pricingUpdate (pricing : Pricing δ) : Updates δ φ :=
  joined [textUpdate .fiatCurrency (some pricing.fiatCurrency), priceUpdate arithmetic .fiatRate pricing.fiatRate,
    priceUpdate arithmetic .fiatValue pricing.fiatValue, textUpdate .fiatPriceSource pricing.fiatPriceSource,
    textUpdate .pricingSourceKind pricing.sourceKind, textUpdate .pricingProvider pricing.provider,
    textUpdate .pricingPair pricing.pair, textUpdate .pricingTimestamp pricing.timestamp,
    textUpdate .pricingFetchedAt pricing.fetchedAt, textUpdate .pricingGranularity pricing.granularity,
    textUpdate .pricingMethod pricing.method, textUpdate .pricingExternalRef pricing.externalRef,
    textUpdate .pricingQuality (some pricing.quality)]

def acceptedValue (tx : Transaction δ φ) (request : MetadataUpdate δ) : Except EditError (Option String) := do
  if ¬ request.acceptCoarsePrice then return none
  raiseIf request.pricing.isSome (invalid "accept the current coarse price or set a new one, not both")
  raiseIf (tx.text .pricingQuality ≠ some qualityCoarseFallback) (invalid "only a coarse price can be accepted")
  match reviewedPrice arithmetic tx with
  | none => .error (invalid "the coarse price has no value to accept")
  | some value => return some value

def cleanKind (tx : Transaction δ φ) (kind : Option String) : Except EditError (Option String) := do
  let cleaned ← cleanOptionalChoice kind "kind" (supportedTransactionKinds.map Prod.fst)
  raiseIf (∃ named ∈ cleaned, (named, tx.direction) ∉ supportedTransactionKinds)
    (invalid "the kind cannot be applied to transactions of this direction")
  return cleaned

abbrev Reviewed := String → Bool

variable (profileCurrency : String) (reviewed : Reviewed)

def cleanedUpdate (tx : Transaction δ φ) (request : MetadataUpdate δ) (now : String) :
    Except EditError (Updates δ φ × Option (List String)) := do
  let accepted ← acceptedValue arithmetic tx request
  let note ← (request.note.getD none |> cleanTransactionNote)
  let tags ← request.tags.mapM (cleanTransactionTags letters.lower)
  raiseIf (request.excluded = some true ∧ reviewed tx.id) (.appError "conflict" "Transaction belongs to active custody review")
  let reviewStatus ← cleanOptionalChoice (request.reviewStatus.getD none) "review_status" supportedReviewStatuses
  let atRegime ← cleanOptionalChoice (request.atRegime.getD none) "at_regime" supportedAtRegimeOverrides
  let atCategory ← cleanOptionalChoice (request.atCategory.getD none) "at_category" supportedAtCategoryOverrides
  let kind ← cleanKind tx (request.kind.getD none)
  let pricing ← request.pricing.mapM (transactionPricingPayload letters arithmetic profileCurrency tx)
  let stamped := pricing.map fun pricing =>
    if pricing.sourceKind.isSome then { pricing with fetchedAt := some now } else pricing
  return (joined [
    if request.note.isSome then textUpdate .note note else {},
    request.excluded.elim {} excludedUpdate,
    if request.reviewStatus.isSome then textUpdate .reviewStatus reviewStatus else {},
    request.taxable.elim {} taxableUpdate,
    if request.atRegime.isSome then textUpdate .atRegime atRegime else {},
    if request.atCategory.isSome then textUpdate .atCategory atCategory else {},
    if request.kind.isSome then textUpdate .kind kind else {},
    if accepted.isSome then textUpdate .pricingReviewAccepted accepted else {},
    stamped.elim {} (pricingUpdate arithmetic)], tags)

def Book.resolveTransaction (book : Book δ φ) (txId : String) : Except EditError (Transaction δ φ) :=
  match book.transaction txId with
  | none => .error (.appError "not_found" "Transaction not found")
  | some tx => .ok tx

variable [DecidableEq δ]

def Book.updateTransactionMetadata (book : Book δ φ) (txId : String) (request : MetadataUpdate δ) (audit : Audit) :
    Except EditError (Book δ φ × Option String) := do
  let tx ← book.resolveTransaction txId
  let (updates, tags) ← cleanedUpdate letters arithmetic profileCurrency reviewed tx request audit.now
  book.applyAuditedTransactionUpdate letters.lower arithmetic tx updates tags audit

def Book.resolveTag (book : Book δ φ) (ref : String) : Except EditError Tag :=
  match book.tags.find? fun tag => tag.code.toLower = ref.toLower ∨ tag.label.toLower = ref.toLower with
  | none => .error (.appError "app_error" s!"Tag '{ref}' not found")
  | some tag => .ok tag

def Book.addTagToTransaction (book : Book δ φ) (txId tagRef : String) (audit : Audit) :
    Except EditError (Book δ φ × Option String) := do
  let tx ← book.resolveTransaction txId
  let tag ← book.resolveTag tagRef
  book.updateTransactionMetadata letters arithmetic profileCurrency reviewed tx.id
    { tags := some (book.tagsForTransaction tx.id ++ [tag.label]) } audit

def Book.removeTagFromTransaction (book : Book δ φ) (txId tagRef : String) (audit : Audit) :
    Except EditError (Book δ φ × Option String) := do
  let tx ← book.resolveTransaction txId
  let tag ← book.resolveTag tagRef
  let next := (book.tagsForTransaction tx.id).filter fun label => letters.lower label ≠ letters.lower tag.label
  book.updateTransactionMetadata letters arithmetic profileCurrency reviewed tx.id { tags := some next } audit

/-- The columns and the prediction that put a field back to an earlier value. -/
def txUpdatesForRevertField : Field → EditValue δ → Updates δ φ
  | .text field, .text value => textUpdate field (some value)
  | .text field, _ => textUpdate field none
  | .excluded, .flag value => excludedUpdate value
  | .excluded, _ => excludedUpdate false
  | .taxable, .flag value => taxableUpdate (some value)
  | .taxable, _ => taxableUpdate none
  | .price field, .price value => priceUpdate arithmetic field (some value)
  | .price field, _ => priceUpdate arithmetic field none
  | .tags, _ => {}

def revertedTags (fields : List (EditField δ)) : Option (List String) :=
  (fields.find? fun item => item.field = .tags).map fun item =>
    match item.beforeValue with
    | .labels tags => tags
    | _ => []

def selectedFields (event : EditEvent δ) : Option Field → Except EditError (List (EditField δ))
  | none => .ok event.fields
  | some field =>
    let fields := event.fields.filter fun item => item.field = field
    if fields = [] then .error (invalid "history event did not change that field") else .ok fields

def revertReason (audit : Audit) (eventId : String) : String :=
  (audit.reason.filter (· ≠ "")).getD s!"Reverted transaction edit {eventId}"

def Book.revertTransactionEdit (book : Book δ φ) (txId eventId : String) (field : Option Field) (audit : Audit) :
    Except EditError (Book δ φ × Option String) := do
  let tx ← book.resolveTransaction txId
  let event ← book.loadEventForRevert tx.id eventId
  let fields ← selectedFields event field
  let updates := joined (fields.map fun item => txUpdatesForRevertField arithmetic item.field item.beforeValue)
  book.applyAuditedTransactionUpdate letters.lower arithmetic tx updates (revertedTags fields)
    { audit with reason := some (revertReason audit eventId) }

end

end Kassiber.Metadata

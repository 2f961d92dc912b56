import Kassiber.Lib.Dict
import Kassiber.Lib.Keyed
import Kassiber.Lib.Labelling

/-!
The edit history of transactions: the fields it watches, how it reads them from a transaction's row and
its tags, and the events it appends.
-/

namespace Kassiber.Metadata
open Lib.Keyed Lib.Labelling Lib.Sorting

inductive TextField where
  | note | reviewStatus | atRegime | atCategory | kind | fiatCurrency | fiatPriceSource | pricingSourceKind
  | pricingProvider | pricingPair | pricingTimestamp | pricingFetchedAt | pricingGranularity | pricingMethod
  | pricingExternalRef | pricingQuality | pricingReviewAccepted
  deriving DecidableEq

inductive PriceField where
  | fiatRate | fiatValue
  deriving DecidableEq

inductive Field where
  | tags | excluded | taxable
  | price (field : PriceField)
  | text (field : TextField)
  deriving DecidableEq

def fieldSortOrder : List Field :=
  [.text .note, .tags, .excluded, .text .reviewStatus, .taxable, .text .atRegime, .text .atCategory, .text .kind,
    .text .fiatCurrency, .price .fiatRate, .price .fiatValue, .text .fiatPriceSource, .text .pricingSourceKind,
    .text .pricingQuality, .text .pricingReviewAccepted, .text .pricingProvider, .text .pricingPair,
    .text .pricingTimestamp, .text .pricingGranularity, .text .pricingMethod, .text .pricingExternalRef,
    .text .pricingFetchedAt]

theorem mem_fieldSortOrder (field : Field) : field ∈ fieldSortOrder := by
  cases field with
  | price field => cases field <;> decide
  | text field => cases field <;> decide
  | _ => decide

/-- Decimals as the exact columns hold them, and the floats beside them. -/
structure Arithmetic (δ φ : Type) where
  /-- `format(value, "f")`. -/
  fixed : δ → δ
  toFloat : δ → φ
  /-- `format(float(value), ".12g")`. -/
  short : φ → δ
  ofFloat : φ → δ
  ofMsat : Int → δ
  mul : δ → δ → δ
  div : δ → δ → δ
  positive : δ → Bool
  negative : δ → Bool
  text : δ → String

structure Transaction (δ φ : Type) where
  id : String
  direction : String
  asset : String
  amount : Int
  confirmedAt : Option String
  occurredAt : String
  excluded : Int := 0
  taxabilityOverride : Option Int := none
  float : PriceField → Option φ := fun _ => none
  exact : PriceField → Option δ := fun _ => none
  text : TextField → Option String := fun _ => none

inductive EditValue (δ : Type) where
  | null
  | flag (value : Bool)
  | text (value : String)
  | price (value : δ)
  | labels (value : List String)
  deriving DecidableEq

def EditValue.ofText (value : Option String) : EditValue δ := value.elim .null .text

def EditValue.ofPrice (value : Option δ) : EditValue δ := value.elim .null .price

def EditValue.ofFlag (value : Option Bool) : EditValue δ := value.elim .null .flag

abbrev State (δ : Type) := Field → EditValue δ

section
variable {δ φ : Type} (lower : String → String) (arithmetic : Arithmetic δ φ)

def exactOrFloat (exact : Option δ) (legacy : Option φ) : Option δ := exact.or (legacy.map arithmetic.short)

def canonicalTags (labels : List String) : List String := canonicalLabels lower labels

def transactionState (tx : Transaction δ φ) (tags : List String) : State δ
  | .tags => .labels (canonicalTags lower tags)
  | .excluded => .flag (tx.excluded ≠ 0)
  | .taxable => .ofFlag (tx.taxabilityOverride.map (· ≠ 0))
  | .price field => .ofPrice (exactOrFloat arithmetic (tx.exact field) (tx.float field))
  | .text field => .ofText (tx.text field)

def valueForTxUpdate : Field → EditValue δ → EditValue δ
  | .tags, .labels tags => .labels (canonicalTags lower tags)
  | _, value => value

end

structure EditField (δ : Type) where
  field : Field
  beforeValue : EditValue δ
  afterValue : EditValue δ
  deriving DecidableEq

structure EditEvent (δ : Type) where
  id : String
  transactionId : String
  source : String
  reason : Option String
  changedAt : String
  fields : List (EditField δ)
  deriving DecidableEq

structure Tag where
  code : String
  label : String

/-- The tables of one book; a tag is linked by its code, which is unique in the book. -/
structure Book (δ φ : Type) where
  transactions : List (Transaction δ φ) := []
  tags : List Tag := []
  links : List (String × String) := []
  events : List (EditEvent δ) := []

inductive EditError where
  | appError (code : String) (message : String)
  | integrity

def editSources : List String := ["cli", "gui", "ai_tool"]

def maxEditReasonChars : Nat := 1000

section
variable (lower : String → String)

def normalizeSource (source : Option String) : Except EditError String :=
  let value := lower (strip ((source.filter (· ≠ "")).getD "cli"))
  if value ∈ editSources then .ok value else .error (.appError "validation" "transaction edit source is not supported")

def cleanReason : Option String → Except EditError (Option String)
  | none => .ok none
  | some reason =>
    let cleaned := strip reason
    if cleaned = "" then .ok none
    else if maxEditReasonChars < cleaned.length then
      .error (.appError "validation" s!"reason cannot exceed {maxEditReasonChars} characters")
    else .ok (some cleaned)

end

variable {δ φ : Type}

/-- The labels of a transaction's tags, in the order of their codes. -/
def Book.tagsForTransaction (book : Book δ φ) (txId : String) : List String :=
  (sortedBy Tag.code (book.tags.filter fun tag => (txId, tag.code) ∈ book.links)).map Tag.label

def Book.transaction (book : Book δ φ) (txId : String) : Option (Transaction δ φ) :=
  rowAt Transaction.id book.transactions txId

def Book.event (book : Book δ φ) (eventId : String) : Option (EditEvent δ) := rowAt EditEvent.id book.events eventId

def Book.appendEvent (book : Book δ φ) (txId eventId source : String) (reason : Option String) (changedAt : String)
    (changedFields : List Field) (before after : State δ) : Except EditError (Book δ φ) :=
  if (book.event eventId).isSome then .error .integrity
  else .ok { book with
    events := book.events ++ [{
      id := eventId
      transactionId := txId
      source
      reason
      changedAt
      fields := (fieldSortOrder.filter (· ∈ changedFields)).map fun field =>
        { field, beforeValue := before field, afterValue := after field } }] }

def Book.loadEventForRevert (book : Book δ φ) (txId eventId : String) : Except EditError (EditEvent δ) :=
  match (book.event eventId).filter (·.transactionId = txId) with
  | none => .error (.appError "not_found" "transaction edit event not found")
  | some event => .ok event

end Kassiber.Metadata

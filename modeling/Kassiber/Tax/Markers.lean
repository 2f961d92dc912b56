import Kassiber.Lib.Labelling
import Kassiber.Lib.Text

/-!
The machine markers of journal descriptions: `key=value` tokens before free text in one blank-separated channel.
-/

namespace Kassiber.Markers
open Lib.Labelling List

abbrev Text := List Char

def markerRegime : Text := "at_regime".toList
def markerRegimeBasis : Text := "at_regime_basis".toList
def markerPool : Text := "at_pool".toList
def markerSwapLink : Text := "at_swap_link".toList
def markerAltOut : Text := "at_alt_out".toList
def markerAltIn : Text := "at_alt_in".toList

def markerKeys : List Text := [markerRegime, markerRegimeBasis, markerPool, markerSwapLink, markerAltOut, markerAltIn]

/-- `str.split()`. -/
def words (text : Text) : List Text := (text.splitOnP isBlank).filter (· ≠ [])

def join (tokens : List Text) : Text := [' '].intercalate tokens

def markerToken (key value : Text) : Text := key ++ '=' :: value

def valueIn (key token : Text) : Option Text :=
  if (key ++ ['=']).isPrefixOf token then some (token.drop (key.length + 1)) else none

def parseMarker (description key : Text) : Option Text := (words description).findSome? (valueIn key)

/-- `int` reads a text as `int()` does, or not at all. -/
def parseMarkerInt (int : Text → Option Int) (description key : Text) : Option Int := (parseMarker description key).bind int

/-- An absent or empty value leaves no token. -/
def given (value : Option Text) : Option Text := value.filter (· ≠ [])

def austrianWirePoolId (poolId : Option Text) : Option Text :=
  (given (some (((poolId.getD []).dropWhile isBlank).rdropWhile isBlank))).map fun pool =>
    if pool = "global".toList then "default".toList else pool

/-- The markers of an entry in their fixed order, then its free texts. -/
def compose (markers : List (Text × Option Text)) (free : List Text) : Text :=
  join ((markers.filterMap fun marker => marker.2.map (markerToken marker.1)) ++ free)

structure MarkedEvent where
  atRegime : Option Text := none
  atRegimeBasis : Option Text := none
  costBasisPoolId : Option Text := none
  atSwapLink : Option Text := none
  description : Text := []

def eventMarkers (event : MarkedEvent) (includeAustrianMarkers : Bool) : List (Text × Option Text) :=
  [(markerRegime, given event.atRegime), (markerRegimeBasis, given event.atRegimeBasis),
    (markerPool, if includeAustrianMarkers then austrianWirePoolId event.costBasisPoolId else none),
    (markerSwapLink, given event.atSwapLink)]

def composeEventNotes (event : MarkedEvent) (includeAustrianMarkers : Bool) : Text :=
  compose (eventMarkers event includeAustrianMarkers) (given (some event.description)).toList

inductive PairingSource where
  | ownershipDerived
  | recordedFanout
  | multiSourceConsolidation
  | other

structure MarkedTransfer where
  atRegime : Option Text := none
  fromCostBasisPoolId : Option Text := none
  toCostBasisPoolId : Option Text := none
  pairingSource : PairingSource := .other
  description : Text := []

def transferMarkers (transfer : MarkedTransfer) (includeAustrianMarkers : Bool) : List (Text × Option Text) :=
  [(markerRegime, given transfer.atRegime),
    (markerPool, if includeAustrianMarkers then austrianWirePoolId transfer.fromCostBasisPoolId else none)]

def basisNote : PairingSource → Option Text
  | .ownershipDerived => some "self-transfer proven by address ownership".toList
  | .recordedFanout => some "self-transfer proven by complete wallet observations".toList
  | .multiSourceConsolidation => some "self-transfer from multi-wallet consolidation".toList
  | .other => none

def composeTransferNotes (transfer : MarkedTransfer) (includeAustrianMarkers : Bool) : Except String Text :=
  if includeAustrianMarkers ∧ transfer.fromCostBasisPoolId ≠ transfer.toCostBasisPoolId then
    .error "RP2 does not support Austrian transfers between cost-basis pools"
  else .ok (compose (transferMarkers transfer includeAustrianMarkers)
    ((basisNote transfer.pairingSource).toList ++ (given (some transfer.description)).toList))

structure TransferAudit where
  atRegime : Option Text := none
  /-- The tax-free quantities that left the source and that the destination received. -/
  regimeFlows : Option (Int × Int) := none
  atPool : Option Text := none
  fromWalletLabel : Text
  toWalletLabel : Text
  pairingSource : PairingSource := .other

def auditMarkers (audit : TransferAudit) : List (Text × Option Text) :=
  [(markerRegime, audit.atRegime.filter (· ∈ ["alt".toList, "neu".toList])),
    (markerAltOut, audit.regimeFlows.map fun flows => (toString flows.1).toList),
    (markerAltIn, audit.regimeFlows.map fun flows => (toString flows.2).toList), (markerPool, given audit.atPool)]

def journalBasis : PairingSource → Option Text
  | .ownershipDerived => some "(proven by address ownership)".toList
  | .recordedFanout => some "(proven by complete wallet observations)".toList
  | .multiSourceConsolidation => some "(multi-wallet consolidation)".toList
  | .other => none

def transferLine (audit : TransferAudit) : Text :=
  join ["Transfer".toList, audit.fromWalletLabel, "->".toList, audit.toWalletLabel]

def composeTransferJournalDescription (audit : TransferAudit) : Text :=
  compose (auditMarkers audit) (transferLine audit :: (journalBasis audit.pairingSource).toList)

/-- The value the engine emitted for a key. -/
def emitted (markers : List (Text × Option Text)) (key : Text) : Option Text :=
  markers.findSome? fun marker => if marker.1 = key then marker.2 else none

def Solid (markers : List (Text × Option Text)) : Prop :=
  (markers.any fun marker => marker.2.any (·.any isBlank)) = false

/-- A key is read back as it was emitted, as a text and as a number. -/
def Reads (description key : Text) (value : Option Text) : Prop :=
  parseMarker description key = value ∧ ∀ int, parseMarkerInt int description key = value.bind int

/-- A word of the text that would be read as a marker. -/
def Supplies (text key : Text) : Prop := ∃ word ∈ words text, (key ++ ['=']).isPrefixOf word = true

variable {markers : List (Text × Option Text)} {key : Text}

theorem parse_eq_none {text : Text} : parseMarker text key = none ↔ ¬Supplies text key := by
  simp [parseMarker, Supplies, valueIn]

theorem parse_join (tokens : List Text) : parseMarker (join tokens) key = tokens.findSome? (parseMarker · key) := by
  induction tokens with
  | nil => rfl
  | cons token rest ih =>
    cases rest with
    | nil => simp [join, findSome?_singleton]
    | cons next rest =>
      have apart : words (join (token :: next :: rest)) = words token ++ words (join (next :: rest)) := by
        rw [join, intercalate_cons_cons, List.append_assoc, words, singleton_append,
          splitOnP_append_cons _ _ (by decide), filter_append]
        rfl
      rw [parseMarker, apart, findSome?_append, findSome?_cons, ← ih]
      change (parseMarker token key).or _ = _
      cases parseMarker token key <;> rfl

theorem markerKey_solid (known : key ∈ markerKeys) : '=' ∉ key ∧ key.any isBlank = false := by
  have all : (markerKeys.all fun key => !key.contains '=' && !key.any isBlank) = true := by
    decide +kernel
  simpa using all_eq_true.1 all key known

theorem parse_token {own value : Text} (known : key ∈ markerKeys) (listed : own ∈ markerKeys)
    (solid : value.any isBlank = false) :
    parseMarker (markerToken own value) key = if own = key then some value else none := by
  have whole : words (markerToken own value) = [markerToken own value] := by
    have blankless : (markerToken own value).any isBlank = false := by
      rw [markerToken, any_append, any_cons, (markerKey_solid listed).2, solid]
      rfl
    rw [words, splitOnP_eq_singleton, filter_cons_of_pos (by simp [markerToken]), filter_nil]
    exact fun c member => Bool.eq_false_iff.2 (any_eq_false.1 blankless c member)
  have starts : (key ++ ['=']).isPrefixOf (markerToken own value) = true ↔ own = key := by
    rw [ isPrefixOf_iff_prefix]
    constructor
    · rintro ⟨rest, same⟩
      rw [List.append_assoc] at same
      exact (Lib.Text.split_inj (markerKey_solid known).1 (markerKey_solid listed).1 same).1.symm
    · rintro rfl
      exact ⟨value, by simp [markerToken]⟩
  rw [parseMarker, whole, findSome?_singleton, valueIn]
  simp only [starts]
  split
  · rename_i same
    rw [← same, markerToken, ← drop_drop, drop_left, drop_succ_cons, drop_zero]
  · rfl

theorem parse_markers (known : key ∈ markerKeys) (listed : ∀ marker ∈ markers, marker.1 ∈ markerKeys)
    (solid : Solid markers) :
    (markers.filterMap fun marker => marker.2.map (markerToken marker.1)).findSome? (parseMarker · key) =
      emitted markers key := by
  induction markers with
  | nil => rfl
  | cons marker rest ih =>
    obtain ⟨first, others⟩ := Bool.or_eq_false_iff.1 solid
    have later := ih (fun other member => listed other (.tail _ member)) others
    obtain ⟨own, value⟩ := marker
    cases value with
    | none => simpa [emitted] using later
    | some value =>
      have token := parse_token known (listed _ (.head _)) first
      rw [emitted, findSome?_cons]
      change findSome? _ (_ :: filterMap _ rest) = _
      rw [findSome?_cons, token, later]
      rfl

/-- Free text is read only for a key the engine emitted nothing for. -/
theorem parse_compose (known : key ∈ markerKeys) (listed : ∀ marker ∈ markers, marker.1 ∈ markerKeys)
    (solid : Solid markers) (free : List Text) :
    parseMarker (compose markers free) key = (emitted markers key).or (free.findSome? (parseMarker · key)) := by
  rw [compose, parse_join, findSome?_append, parse_markers known listed solid]

theorem reads_iff {free : List Text} {typed : Option Text} (known : key ∈ markerKeys)
    (listed : ∀ marker ∈ markers, marker.1 ∈ markerKeys) (solid : Solid markers)
    (typing : free.findSome? (parseMarker · key) = typed) :
    Reads (compose markers free) key (emitted markers key) ↔ (emitted markers key).isSome ∨ typed = none := by
  simp only [Reads, parseMarkerInt, parse_compose known listed solid, typing]
  cases emitted markers key <;> cases typed <;> simp

theorem given_text (text : Text) : (given (some text)).toList.findSome? (parseMarker · key) = parseMarker text key := by
  cases text with
  | nil => rfl
  | cons c rest => exact findSome?_singleton

theorem notes_plain : ∀ key ∈ markerKeys, ∀ source : PairingSource,
    (basisNote source).toList.findSome? (parseMarker · key) = none ∧
      (journalBasis source).toList.findSome? (parseMarker · key) = none ∧
      parseMarker "Transfer".toList key = none ∧ parseMarker "->".toList key = none := by
  intro key known source
  revert key
  cases source <;> decide +kernel

/-- A key is read as it was emitted exactly if it was emitted or the free text does not supply it. -/
theorem markers_read_iff (key : Text) (known : key ∈ markerKeys) :
    (∀ event austrian, Solid (eventMarkers event austrian) →
      (Reads (composeEventNotes event austrian) key (emitted (eventMarkers event austrian) key) ↔
        (emitted (eventMarkers event austrian) key).isSome ∨ ¬Supplies event.description key)) ∧
    (∀ transfer austrian notes, Solid (transferMarkers transfer austrian) →
      composeTransferNotes transfer austrian = .ok notes →
      (Reads notes key (emitted (transferMarkers transfer austrian) key) ↔
        (emitted (transferMarkers transfer austrian) key).isSome ∨ ¬Supplies transfer.description key)) ∧
    (∀ audit, Solid (auditMarkers audit) →
      (Reads (composeTransferJournalDescription audit) key (emitted (auditMarkers audit) key) ↔
        (emitted (auditMarkers audit) key).isSome ∨
          ¬Supplies audit.fromWalletLabel key ∧ ¬Supplies audit.toWalletLabel key)) := by
  simp only [← parse_eq_none]
  refine ⟨fun event austrian solid => ?_, fun transfer austrian notes solid composed => ?_, fun audit solid => ?_⟩
  · exact reads_iff known (by simp [eventMarkers, markerKeys]) solid (given_text _)
  · unfold composeTransferNotes at composed
    split at composed
    · cases composed
    · cases composed
      refine reads_iff known (by simp [transferMarkers, markerKeys]) solid ?_
      rw [List.findSome?_append, (notes_plain key known _).1, Option.none_or, given_text]
  · obtain ⟨-, basis, verb, arrow⟩ := notes_plain key known audit.pairingSource
    refine (reads_iff known (by simp [auditMarkers, markerKeys]) solid rfl).trans ?_
    rw [List.findSome?_cons, basis, transferLine, parse_join]
    simp only [List.findSome?_cons, List.findSome?_nil, verb, arrow]
    cases parseMarker audit.fromWalletLabel key <;> cases parseMarker audit.toWalletLabel key <;> simp

theorem markers_read_regime :
    Reads (composeEventNotes { atRegime := some "neu".toList, description := "at_regime=alt".toList } true) markerRegime
      (some "neu".toList) ∧
    Reads "at_regime=neu to cold storage".toList markerRegime (some "neu".toList) ∧
    Reads (composeTransferJournalDescription { fromWalletLabel := "Hot".toList, toWalletLabel := "Cold".toList })
      markerRegime none := by
  obtain ⟨events, transfers, audits⟩ := markers_read_iff markerRegime (by decide)
  refine ⟨(events { atRegime := some "neu".toList, description := "at_regime=alt".toList } true ?_).2 (.inl (by decide)),
    (transfers { atRegime := some "neu".toList, description := "to cold storage".toList } true _ ?_ ?_).2
      (.inl (by decide)), (audits _ ?_).2 (.inr (by simp only [← parse_eq_none]; decide +kernel))⟩
  · unfold Solid; decide +kernel
  · unfold Solid; decide +kernel
  · decide +kernel
  · unfold Solid; decide +kernel

/-- An imported memo supplies a regime the engine did not emit. -/
theorem memo_supplies_regime :
    ¬∀ key ∈ markerKeys, ∀ event austrian, Solid (eventMarkers event austrian) →
      Reads (composeEventNotes event austrian) key (emitted (eventMarkers event austrian) key) := by
  intro faithful
  have read := (faithful markerRegime (by decide) { description := "gift at_regime=alt".toList } true
    (by unfold Solid; decide +kernel)).1
  revert read
  decide +kernel

end Kassiber.Markers

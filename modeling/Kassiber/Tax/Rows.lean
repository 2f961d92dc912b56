import Kassiber.Custody.Runtime

/-!
Every row names the observation it comes from, and its id is built from the slice, from the side and amount of a
fee, or from the payout it settles.
-/

namespace Kassiber.Tax
open Custody Lib.Outcome Lib.Dict Lib.Sorting

structure TaxProfile where
  id : String
  workspaceId : String
  taxCountry : String := ""

structure TaxRow where
  id : String
  journalTransactionId : String
  walletId : String
  asset : String
  direction : Direction
  occurredAt : String
  kind : Option String
  amount : Int
  fee : Int
  custodyQuantityHash : String
  custodySliceStartMsat : Int
  custodySliceEndMsat : Int
  custodyExternalEconomicSubtype : Option ExternalSubtype := none
  custodyFinalizedTaxProjection : Bool := true

structure IntraPair where
  outRow : TaxRow
  inRow : TaxRow
  pairId : String
  source : String
  policy : String
  groupId : Option String

structure CrossAssetPair where
  pairId : String
  componentId : Option String
  outId : String
  inId : String
  outTransactionId : String
  inTransactionId : Option String
  outAsset : String
  inAsset : String
  policy : String
  kind : String

inductive QuarantineDetail where
  | interpreter (detailJson : String)
  | dependency (blockedByTransactionIds : List String)
  | basisBarrier (barrierEvent : Option EventOrder) (sourceQuantityHash : String) (rootTransactionIds : List String)
  | payoutPrice (payoutId : String)
  | unresolved (blockerCode issueId : String) (blockerCodes issueIds gapIds : List String) (reviewComponent : Bool)

structure Quarantine where
  transactionId : String
  workspaceId : String
  profileId : String
  reason : String
  detail : QuarantineDetail

def TaxProfile.quarantine (profile : TaxProfile) (transactionId reason : String) (detail : QuarantineDetail) :
    Quarantine :=
  { transactionId, workspaceId := profile.workspaceId, profileId := profile.id, reason, detail }

def subtypeText : ExternalSubtype → String
  | .payment => "payment"
  | .disposal => "disposal"
  | .gift => "gift"
  | .lost => "lost"

section
variable (rowsById : List (String × LedgerRow))

/-- The imported row behind an observation, its own or its anchor's. -/
def baseSource (o : QuantityObservation) : Option LedgerRow :=
  (lookup rowsById o.transactionId).or (lookup rowsById o.anchorTransactionId)

def baseRow (o : QuantityObservation) : TaxRow :=
  { id := "", journalTransactionId := o.anchorTransactionId, walletId := o.walletId, asset := o.asset
    direction := o.direction, occurredAt := o.occurredAt, kind := (baseSource rowsById o).bind (·.kind), amount := 0
    fee := 0, custodyQuantityHash := o.quantityHash, custodySliceStartMsat := 0, custodySliceEndMsat := 0 }

def sliceRowId (slice : QuantitySlice) (side : String) : String :=
  "custody-tax:" ++ slice.observationHash ++ ":" ++ toString slice.startMsat ++ ":" ++ toString slice.endMsat ++ ":" ++ side

def projectedSliceRow (o : QuantityObservation) (slice : QuantitySlice) (side : String) (feeMsat : Int) : TaxRow :=
  { baseRow rowsById o with
    id := sliceRowId slice side, amount := slice.amountMsat, fee := feeMsat
    custodySliceStartMsat := slice.startMsat, custodySliceEndMsat := slice.endMsat }

def feeRowId (hash side : String) (amountMsat : Int) : String :=
  "custody-tax:" ++ hash ++ ":" ++ side ++ ":" ++ toString amountMsat

def projectedFeeRow (o : QuantityObservation) (side : String) (amountMsat : Int) : TaxRow :=
  { baseRow rowsById o with id := feeRowId o.quantityHash side amountMsat, fee := amountMsat }

def rowPrincipalMsat (row : LedgerRow) : Int :=
  (normalizeBoundaryAmounts row.direction row.amount row.fee row.amountIncludesFee).principalMsat

/-- Positive payout reviews that fit their source; the last record of a source counts. -/
def validDirectPayoutsBySource (records : List DirectPayout) : List (String × DirectPayout) :=
  records.filterMap fun record => do
    let row ← lookup rowsById record.outTransactionId
    let reviewed := record.outAmount.getD (rowPrincipalMsat row)
    if 0 < reviewed ∧ reviewed ≤ rowPrincipalMsat row then some (record.outTransactionId, record) else none

def payoutKey (source : QuantityObservation) (payout : DirectPayout) : String :=
  orElse payout.id source.anchorTransactionId

/-- The rows that receive and sell a payout; none without a positive amount and value. -/
def directPayoutSettlementRows (source : QuantityObservation) (payout : DirectPayout) : Option (TaxRow × TaxRow) :=
  match payout.payoutFiatValue with
  | none => none
  | some value =>
    if payout.payoutAmount ≤ 0 ∨ value ≤ 0 then none
    else
      let base := { baseRow rowsById source with
        asset := payout.payoutAsset.toUpper, amount := payout.payoutAmount
        occurredAt := orElse payout.payoutOccurredAt source.occurredAt
        custodySliceEndMsat := payout.payoutAmount }
      let key := payoutKey source payout
      some
        ({ base with id := "direct-payout:" ++ key ++ ":in", direction := .inbound, kind := some "direct_swap_payout_in" },
         { base with id := "direct-payout:" ++ key ++ ":out", direction := .outbound, kind := some "sell" })

end

structure FinalizedTaxProjection where
  rows : List TaxRow
  intraPairs : List IntraPair
  crossAssetPairs : List CrossAssetPair
  quarantines : List Quarantine
  selectedMoveIds : List String

namespace FinalizedTaxProjection

def checkRows : List String → List TaxRow → Except PyError Unit
  | _, [] => .ok ()
  | seen, row :: rest => do
    raiseIf (row.custodyFinalizedTaxProjection = false)
      (.typeError "tax engines accept only finalized custody projection rows")
    raiseIf (row.id = "" ∨ row.id ∈ seen) (.valueError "finalized tax projection rows need unique ids")
    checkRows (row.id :: seen) rest

def checkPairs (ids : List String) (pairs : List IntraPair) : Except PyError Unit :=
  raiseIf (∃ pair ∈ pairs, pair.outRow.id ∉ ids ∨ pair.inRow.id ∉ ids)
    (.valueError "finalized move pairs cannot reference raw/unprojected rows")

def postInit (p : FinalizedTaxProjection) : Except PyError Unit := do
  checkRows [] p.rows
  checkPairs (p.rows.map (·.id)) p.intraPairs

/-- The contract: finalized rows with distinct non-empty ids, and move pairs over emitted rows. -/
structure Contract (p : FinalizedTaxProjection) : Prop where
  finalized : ∀ row ∈ p.rows, row.custodyFinalizedTaxProjection = true
  named : ∀ row ∈ p.rows, row.id ≠ ""
  distinct : (p.rows.map (·.id)).Nodup
  emitted : ∀ pair ∈ p.intraPairs, pair.outRow.id ∈ p.rows.map (·.id) ∧ pair.inRow.id ∈ p.rows.map (·.id)

theorem checkRows_ok {seen : List String} {rows : List TaxRow} :
    checkRows seen rows = .ok () ↔ (∀ row ∈ rows, row.custodyFinalizedTaxProjection = true) ∧
      (∀ row ∈ rows, row.id ≠ "" ∧ row.id ∉ seen) ∧ (rows.map (·.id)).Nodup := by
  induction rows generalizing seen with
  | nil => simp [checkRows]
  | cons row rest ih =>
    simp only [checkRows, bind_unit_ok, raiseIf_ok, ih, List.forall_mem_cons, List.map_cons, List.nodup_cons]
    constructor
    · rintro ⟨final, fresh, finals, names, distinct⟩
      refine ⟨⟨by simpa using final, finals⟩, ⟨not_or.1 fresh, ?_⟩, ?_, distinct⟩
      · intro other member
        exact ⟨(names other member).1, fun old => (names other member).2 (.tail _ old)⟩
      · intro repeated
        obtain ⟨other, member, same⟩ := List.mem_map.1 repeated
        exact (names other member).2 (by rw [same]; exact List.mem_cons_self)
    · rintro ⟨⟨final, finals⟩, ⟨fresh, names⟩, once, distinct⟩
      refine ⟨by simp [final], not_or.2 fresh, finals, ?_, distinct⟩
      intro other member
      refine ⟨(names other member).1, ?_⟩
      intro old
      rcases List.mem_cons.1 old with same | seen
      · exact once (List.mem_map.2 ⟨other, member, same⟩)
      · exact (names other member).2 seen

theorem postInit_ok {p : FinalizedTaxProjection} : p.postInit = .ok () ↔ p.Contract := by
  simp only [postInit, checkPairs, bind_unit_ok, checkRows_ok, raiseIf_ok]
  constructor
  · rintro ⟨⟨finalized, names, distinct⟩, emitted⟩
    refine ⟨finalized, fun row member => (names row member).1, distinct, ?_⟩
    intro pair member
    by_contra missing
    exact emitted ⟨pair, member, not_and_or.1 missing⟩
  · rintro ⟨finalized, named, distinct, emitted⟩
    refine ⟨⟨finalized, fun row member => ⟨named row member, by simp⟩, distinct⟩, ?_⟩
    rintro ⟨pair, member, missing⟩
    exact missing.elim (fun out => out (emitted pair member).1) fun inbound => inbound (emitted pair member).2

end FinalizedTaxProjection

end Kassiber.Tax

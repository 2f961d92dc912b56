import Kassiber.Lib.Text

/-!
The walk over the ledger of one asset, in the order its accounting will see it.
-/

namespace Kassiber.Engine
open Lib.Text
open Function (update)

/-- A source row. A synthetic one names the transaction it stands for. -/
structure SourceRow where
  id : String
  journalTransactionId : String := ""
  deriving DecidableEq

def SourceRow.anchor (row : SourceRow) : String :=
  if row.journalTransactionId ≠ "" then row.journalTransactionId else row.id

inductive LoanLegRole where
  | collateralLock
  | collateralRelease
  | principalReceived
  | principalRepaid
  | channelOpen
  | channelClose
  | channelOpenMismatch
  | channelCloseMismatch
  deriving DecidableEq

namespace LoanLegRole

def lockSuppressRoles : List LoanLegRole := [collateralLock, principalRepaid, channelOpen]

def releaseSuppressRoles : List LoanLegRole := [collateralRelease, principalReceived, channelClose]

end LoanLegRole

inductive EventDirection where
  | inbound
  | outbound
  deriving DecidableEq

structure NormalizedTaxEvent where
  transactionId : String
  occurredAt : String
  direction : EventDirection
  walletLabel : String
  amount : Rat
  fee : Rat
  kind : String := ""
  rawRow : SourceRow
  atSwapLink : String := ""
  loanLegRole : Option LoanLegRole := none

/-- A transfer between own wallets. An absent group or transfer id is the empty text. -/
structure NormalizedTaxTransfer where
  outTransactionId : String
  fromWalletLabel : String
  toWalletLabel : String
  sent : Rat
  received : Rat
  fee : Rat
  outRow : SourceRow
  inRow : SourceRow
  transferId : String := ""
  groupId : String := ""
  groupBlockRows : List SourceRow := []
  deriving DecidableEq

def NormalizedTaxTransfer.itemId (t : NormalizedTaxTransfer) : String :=
  if t.transferId ≠ "" then t.transferId else t.outTransactionId

inductive LedgerItem where
  | transfer (t : NormalizedTaxTransfer)
  | event (e : NormalizedTaxEvent)

def LedgerItem.leg? : LedgerItem → Option NormalizedTaxTransfer
  | transfer t => some t
  | event _ => none

def legsOf (items : List LedgerItem) (groupId : String) : List NormalizedTaxTransfer :=
  (items.filterMap LedgerItem.leg?).filter fun t => t.groupId ≠ "" ∧ t.groupId = groupId

def inboundKindToRp2Type : List (String × String) :=
  [("buy", "BUY"), ("airdrop", "AIRDROP"), ("hardfork", "HARDFORK"), ("hard_fork", "HARDFORK"), ("income", "INCOME"),
    ("interest", "INTEREST"), ("lending_interest", "INTEREST"), ("mining", "MINING"), ("mining_reward", "MINING"),
    ("routing_income", "INCOME"), ("staking", "STAKING"), ("wages", "BUY")]

def rp2InTransactionType (e : NormalizedTaxEvent) : String :=
  ((inboundKindToRp2Type.find? fun entry => entry.1 = e.kind).map Prod.snd).getD "BUY"

def incomeLikeKindTokens : List String := ["reward", "referral", "bonus", "cashback", "rebate", "dividend", "yield"]

def nonSaleDisposalKindTokens : List String := ["gift", "donat", "lost", "stolen", "theft", "non_taxable"]

def kindHasToken (kind : String) (tokens : List String) : Bool :=
  decide (kind ≠ "") && tokens.any fun token => decide (token.toList <:+: kind.toList)

def unclassifiedIncome (e : NormalizedTaxEvent) : Prop :=
  e.kind ∉ inboundKindToRp2Type.map Prod.fst ∧ kindHasToken e.kind incomeLikeKindTokens = true

instance (e : NormalizedTaxEvent) : Decidable (unclassifiedIncome e) := inferInstanceAs (Decidable (_ ∧ _))

def unvaluedAcquisition (austrian : Bool) (e : NormalizedTaxEvent) : Prop :=
  austrian = true ∧ e.kind ∈ ["airdrop", "hardfork", "hard_fork"]

instance (austrian : Bool) (e : NormalizedTaxEvent) : Decidable (unvaluedAcquisition austrian e) :=
  inferInstanceAs (Decidable (_ ∧ _))

def nonSaleDisposal (e : NormalizedTaxEvent) : Prop := kindHasToken e.kind nonSaleDisposalKindTokens = true

instance (e : NormalizedTaxEvent) : Decidable (nonSaleDisposal e) := inferInstanceAs (Decidable (_ = _))

/-- The earliest time from which the lots of the asset are uncertain. -/
def earliestLotContamination (droppedAcquisitionAt : Option String) (austrian : Bool) (events : List NormalizedTaxEvent) :
    Option String :=
  let contaminating := events.filter fun e =>
    (e.direction = .inbound ∧ (unclassifiedIncome e ∨ unvaluedAcquisition austrian e)) ∨
      (e.direction = .outbound ∧ nonSaleDisposal e)
  (droppedAcquisitionAt.toList ++ contaminating.map (·.occurredAt)).min?

inductive GateDetail where
  | lots (fromWallet asset : String) (required available : Rat)
  | basis (fromWallet asset : String) (required pricedAvailable : Rat)

structure GateFailure where
  reason : String
  detail : GateDetail

inductive HeldDetail where
  | gate (detail : GateDetail)
  | walletGate (detail : GateDetail)
  | pairedInbound (detail : GateDetail) (blockedByTransactionId : String)
  | groupFailure (detail : GateDetail) (transferGroupId : String)
  | groupBlocked (asset fromWallet toWallet : String) (pairedLeg : Bool) (transferGroupId blockedByReason : String)
  | unvalued (wallet asset kind : String)
  | unclassified (wallet asset : String) (direction : EventDirection) (kind : String)
  | uncertainLots (wallet asset : String) (required : Rat) (lotStateUncertainSince : String)

def HeldDetail.transferGroupId : HeldDetail → Option String
  | groupFailure _ groupId => some groupId
  | groupBlocked _ _ _ _ groupId _ => some groupId
  | gate _ | walletGate _ | pairedInbound _ _ | unvalued _ _ _ | unclassified _ _ _ _ | uncertainLots _ _ _ _ => none

structure Held where
  transactionId : String
  reason : String
  detail : HeldDetail

def hold (row : SourceRow) (reason : String) (detail : HeldDetail) : Held :=
  { transactionId := row.anchor, reason, detail }

structure InEntry where
  row : Nat
  event : NormalizedTaxEvent
  transactionType : String

structure OutEntry where
  row : Nat
  event : NormalizedTaxEvent
  transactionType : String
  cryptoOutNoFee : Rat

structure IntraEntry where
  row : Nat
  transfer : NormalizedTaxTransfer

inductive GroupState where
  | approved
  | failed

structure WalkState where
  accounts : String → Rat := fun _ => 0
  priced : Rat := 0
  rowIndex : Nat := 1
  inSet : List InEntry := []
  outSet : List OutEntry := []
  intraSet : List IntraEntry := []
  groups : String → Option GroupState := fun _ => none
  quarantines : List Held := []

section
variable (asset : String) (austrian : Bool) (firstDropAt : Option String) (items : List LedgerItem)

def transferGateFailure (t : NormalizedTaxTransfer) (accounts : String → Rat) (priced : Rat) : Option GateFailure :=
  if accounts t.fromWalletLabel < t.sent then
    some
      { reason := "insufficient_lots"
        detail := .lots t.fromWalletLabel asset t.sent (accounts t.fromWalletLabel) }
  else if priced < t.sent then
    some { reason := "missing_cost_basis", detail := .basis t.fromWalletLabel asset t.sent priced }
  else none

def moveBalances (t : NormalizedTaxTransfer) (accounts : String → Rat) : String → Rat :=
  let debited := update accounts t.fromWalletLabel (accounts t.fromWalletLabel - t.sent)
  update debited t.toWalletLabel (debited t.toWalletLabel + t.received)

def applyTransferToRp2 (st : WalkState) (t : NormalizedTaxTransfer) : WalkState :=
  { st with
    intraSet := st.intraSet ++ [{ row := st.rowIndex, transfer := t }]
    rowIndex := st.rowIndex + 1
    accounts := moveBalances t st.accounts
    priced := st.priced - t.fee }

/-- The first leg that the balances cannot carry when the legs are applied one after another. -/
def preflight : List NormalizedTaxTransfer → (String → Rat) → Rat → Option (NormalizedTaxTransfer × GateFailure)
  | [], _, _ => none
  | candidate :: rest, accounts, priced =>
    match transferGateFailure asset candidate accounts priced with
    | some failure => some (candidate, failure)
    | none => preflight rest (moveBalances candidate accounts) (priced - candidate.fee)

def appendTransferGateQuarantine (t : NormalizedTaxTransfer) (failure : GateFailure) : List Held :=
  hold t.outRow failure.reason (.gate failure.detail) ::
    if t.inRow.anchor = t.outRow.anchor then []
    else [hold t.inRow failure.reason (.pairedInbound failure.detail t.outRow.anchor)]

inductive Side where
  | out
  | inbound
  | replaced
  deriving DecidableEq

structure FlaggedRow where
  transfer : NormalizedTaxTransfer
  side : Side
  row : SourceRow

def rowsToFlag (t : NormalizedTaxTransfer) : List FlaggedRow :=
  { transfer := t, side := .out, row := t.outRow } :: { transfer := t, side := .inbound, row := t.inRow } ::
    t.groupBlockRows.map fun row => { transfer := t, side := .replaced, row }

def firstMentions : List String → List FlaggedRow → List FlaggedRow
  | _, [] => []
  | seen, flagged :: rest =>
    if flagged.row.anchor ∈ seen then firstMentions seen rest
    else flagged :: firstMentions (flagged.row.anchor :: seen) rest

def groupHold (failedTransfer : NormalizedTaxTransfer) (failure : GateFailure) (flagged : FlaggedRow) : Held :=
  if flagged.transfer.itemId = failedTransfer.itemId ∧ flagged.side = .out then
    hold flagged.row failure.reason (.groupFailure failure.detail failedTransfer.groupId)
  else
    hold flagged.row "derived_transfer_group_blocked"
      (.groupBlocked asset flagged.transfer.fromWalletLabel flagged.transfer.toWalletLabel
        (decide (flagged.side = .inbound)) failedTransfer.groupId failure.reason)

def appendGroupGateQuarantines (group : List NormalizedTaxTransfer) (failedTransfer : NormalizedTaxTransfer)
    (failure : GateFailure) : List Held :=
  let orderedGroup := failedTransfer :: group.filter fun t => t.itemId ≠ failedTransfer.itemId
  (firstMentions [] (orderedGroup.flatMap rowsToFlag)).map (groupHold asset failedTransfer failure)

def remainingLegs (group : List NormalizedTaxTransfer) (t : NormalizedTaxTransfer) : List NormalizedTaxTransfer :=
  group.drop (group.findIdx fun leg => leg.itemId = t.itemId)

def groupStep (st : WalkState) (t : NormalizedTaxTransfer) : WalkState :=
  match st.groups t.groupId with
  | some .approved =>
    -- Approved at its first leg, but every leg is checked again where it stands.
    match transferGateFailure asset t st.accounts st.priced with
    | some failure =>
      { st with
        groups := update st.groups t.groupId (some .failed)
        quarantines := st.quarantines ++
          appendGroupGateQuarantines asset (remainingLegs (legsOf items t.groupId) t) t failure }
    | none => applyTransferToRp2 st t
  | some .failed => st
  | none =>
    match preflight asset (legsOf items t.groupId) st.accounts st.priced with
    | some (failedTransfer, failure) =>
      { st with
        groups := update st.groups t.groupId (some .failed)
        quarantines := st.quarantines ++
          appendGroupGateQuarantines asset (legsOf items t.groupId) failedTransfer failure }
    | none => applyTransferToRp2 { st with groups := update st.groups t.groupId (some .approved) } t

def transferStep (st : WalkState) (t : NormalizedTaxTransfer) : WalkState :=
  if t.groupId ≠ "" then groupStep asset items st t
  else match transferGateFailure asset t st.accounts st.priced with
    | some failure => { st with quarantines := st.quarantines ++ appendTransferGateQuarantine t failure }
    | none => applyTransferToRp2 st t

def inboundStep (st : WalkState) (e : NormalizedTaxEvent) : WalkState :=
  if ∃ role ∈ e.loanLegRole, role ∈ LoanLegRole.releaseSuppressRoles then st
  else if unvaluedAcquisition austrian e then
    { st with
      quarantines := st.quarantines ++
        [hold e.rawRow "acquisition_valuation_unsupported" (.unvalued e.walletLabel asset e.kind)] }
  else if unclassifiedIncome e then
    { st with
      quarantines := st.quarantines ++
        [hold e.rawRow "unclassified_income_kind" (.unclassified e.walletLabel asset .inbound e.kind)] }
  else
    { st with
      accounts := update st.accounts e.walletLabel (st.accounts e.walletLabel + e.amount)
      inSet := st.inSet ++ [{ row := st.rowIndex, event := e, transactionType := rp2InTransactionType e }]
      priced := st.priced + e.amount
      rowIndex := st.rowIndex + 1 }

def channelOpenFeeOnly (e : NormalizedTaxEvent) : Prop := e.loanLegRole = some .channelOpen ∧ 0 < e.fee

instance (e : NormalizedTaxEvent) : Decidable (channelOpenFeeOnly e) := inferInstanceAs (Decidable (_ ∧ _))

def needed (e : NormalizedTaxEvent) : Rat := if channelOpenFeeOnly e then e.fee else e.amount + e.fee

/-- Why a disposal is held. A marked swap is left to the cross-asset runner. -/
def disposalFailure (st : WalkState) (e : NormalizedTaxEvent) : Option (String × HeldDetail) :=
  if nonSaleDisposal e then some ("non_sale_disposal_kind", .unclassified e.walletLabel asset .outbound e.kind)
  else if e.atSwapLink ≠ "" then none
  else if st.accounts e.walletLabel < needed e then
    some ("insufficient_lots", .walletGate (.lots e.walletLabel asset (needed e) (st.accounts e.walletLabel)))
  else if st.priced < needed e then
    some ("missing_cost_basis", .walletGate (.basis e.walletLabel asset (needed e) st.priced))
  else match firstDropAt with
    | none => none
    | some drop =>
      if drop ≤ e.occurredAt then
        some ("basis_provenance_incomplete", .uncertainLots e.walletLabel asset (needed e) drop)
      else none

def outboundStep (st : WalkState) (e : NormalizedTaxEvent) : WalkState :=
  if e.amount + e.fee ≤ 0 then st
  else if (∃ role ∈ e.loanLegRole, role ∈ LoanLegRole.lockSuppressRoles) ∧ ¬channelOpenFeeOnly e then st
  else match disposalFailure asset firstDropAt st e with
    | some held => { st with quarantines := st.quarantines ++ [hold e.rawRow held.1 held.2] }
    | none =>
      let sale := 0 < e.amount ∧ ¬channelOpenFeeOnly e
      { st with
        outSet := st.outSet ++
          [{ row := st.rowIndex, event := e, transactionType := if sale then "SELL" else "FEE"
             cryptoOutNoFee := if channelOpenFeeOnly e then 0 else e.amount }]
        accounts := update st.accounts e.walletLabel (st.accounts e.walletLabel - needed e)
        priced := st.priced - needed e
        rowIndex := st.rowIndex + 1 }

def ledgerStep (st : WalkState) : LedgerItem → WalkState
  | .transfer t => transferStep asset items st t
  | .event e =>
    match e.direction with
    | .inbound => inboundStep asset austrian st e
    | .outbound => outboundStep asset firstDropAt st e

def ledgerWalk (walked : List LedgerItem) : WalkState := walked.foldl (ledgerStep asset austrian firstDropAt items) {}

end

/-- What the preparation of one asset's input books and holds, besides what normalization already held. -/
def prepareRp2AssetInput (asset : String) (austrian : Bool) (droppedAcquisitionAt : Option String)
    (events : List NormalizedTaxEvent) (orderedItems : List LedgerItem) : WalkState :=
  ledgerWalk asset austrian (earliestLotContamination droppedAcquisitionAt austrian events) orderedItems orderedItems

end Kassiber.Engine

import Kassiber.Lib.Text
import Kassiber.Custody.NativeAudit

/-!
Import rows and their canonicalization. Every import row is one wallet's aggregate of one physical
event; rows of one event and one location slot are one leg.
-/

namespace Kassiber.Custody
open Lib.Outcome Lib.Dict Lib.Sorting Lib.Document

/-- One input or output of a stored transaction graph. An empty text is a missing one. -/
structure OwnershipLeg where
  outpoint : String := ""
  n : Int := 0
  script : String := ""
  valueSats : Option Int := none
  assetId : String := ""
  asset : String := ""
  role : String := ""

structure OwnershipTx where
  txid : String := ""
  chain : String := ""
  network : String := ""
  inputs : List OwnershipLeg := []
  outputs : List OwnershipLeg := []
  evidenceConflicts : List String := []

/-- The result of binding a row to the persisted observer provenance. -/
structure ChainObservationAuthority where
  authoritative : Bool
  reason : String

/-- An import row. Texts and the graph of its stored JSON are given as read; its id is not blank. -/
structure ImportRow where
  id : String
  profileId : String := ""
  journalTransactionId : String := ""
  walletId : String := ""
  walletKind : String := ""
  direction : String := ""
  asset : String := ""
  amount : Int := 0
  fee : Int := 0
  amountIncludesFee : Bool := false
  occurredAt : String := ""
  confirmedAt : String := ""
  fingerprint : String := ""
  kind : String := ""
  paymentHash : String := ""
  paymentHashSource : String := ""
  swapRefundFundingTxid : String := ""
  swapRefundFundingVout : Option Int := none
  externalId : String := ""
  externalIdKind : String := ""
  nativeEventId : String := ""
  nativeNamespace : String := ""
  sourceRef : String := ""
  backendName : String := ""
  chain : String := ""
  network : String := ""
  /-- The row carries a configuration of its own. -/
  configured : Bool := false
  configChain : String := ""
  configNetwork : String := ""
  walletConfigChain : String := ""
  walletConfigNetwork : String := ""
  rawJson : Json := .fields []
  rawChain : String := ""
  rawNetwork : String := ""
  rawTxid : String := ""
  rawExternalIdKind : String := ""
  importSource : String := ""
  /-- Values under the transaction id names of the payload, its transaction and its ownership graph. -/
  txidTexts : List String := []
  graph : Option OwnershipTx := none
  observerOwnedScripts : List String := []
  rawFee : Option Int := none
  authority : ChainObservationAuthority := ⟨false, "provenance_missing"⟩
  observationFeeAttribution : String := ""
  custodyNativeFeeNormalized : Bool := false
  custodyDuplicateEventFeeNormalized : Bool := false
  named : strip id ≠ ""

/-- A batch of rows as the ledger stores them: the id is its primary key. -/
structure ImportRows where
  rows : List ImportRow
  distinct : (rows.map (·.id)).Nodup

/-- Whether `bytes.fromhex` reads the text: pairs of digits, with blanks between them. -/
def readsHexBytes : List Char → Bool
  | [] => true
  | [c] => c.toNat ∈ [9, 10, 11, 12, 13, 32]
  | c :: d :: rest =>
    if c.toNat ∈ [9, 10, 11, 12, 13, 32] then readsHexBytes (d :: rest)
    else isHexDigit c && isHexDigit d && readsHexBytes rest

def canonicalTxid (value : String) : Option String :=
  let text := (strip value).toLower
  if text.length ≠ 64 then none else if readsHexBytes text.toList then some text else none

def CanonicalEventKey.make (chain network nativeNamespace nativeEventId : String) : Except PyError CanonicalEventKey :=
  if nonempty : chain ≠ "" ∧ network ≠ "" ∧ nativeNamespace ≠ "" ∧ nativeEventId ≠ "" then
    .ok ⟨chain, network, nativeNamespace, nativeEventId, nonempty⟩
  else .error (.valueError "canonical events require chain, network, namespace, and id")

/-- The fields of a row that scope it; the wallet's configuration stands in where the row has none. -/
def ImportRow.ledger (row : ImportRow) : LedgerRow :=
  { id := row.id, asset := row.asset, walletKind := row.walletKind, rawChain := row.rawChain,
    rawNetwork := row.rawNetwork, chain := row.chain, network := row.network,
    configChain := if row.configured then row.configChain else row.walletConfigChain,
    configNetwork := if row.configured then row.configNetwork else row.walletConfigNetwork }

/-- A transaction id names an on-chain event; any other event is qualified by its source. -/
def canonicalEventKey (row : ImportRow) : Except PyError CanonicalEventKey := do
  let scope ← resolveProtocolScope row.ledger
  let chain := scope.protocolChain
  let declaredNativeId := firstNonempty [row.nativeEventId, row.rawTxid, row.externalId]
  let externalIdKind := (strip (firstNonempty [row.externalIdKind, row.rawExternalIdKind])).toLower
  let txidCandidates := row.txidTexts ++ if externalIdKind = "txid" then [row.nativeEventId, row.externalId] else []
  match txidCandidates.findSome? canonicalTxid, decide (chain = "bitcoin" ∨ chain = "liquid") with
  | some txid, true => CanonicalEventKey.make chain scope.network "chain" txid
  | _, _ =>
    CanonicalEventKey.make chain scope.network
      (strip (firstNonempty
        [row.nativeNamespace, row.sourceRef, row.backendName, row.importSource, row.walletId])).toLower
      (strip (firstNonempty [declaredNativeId, row.fingerprint, row.id])).toLower

/-- The event a row is grouped under; a row whose identity is invalid belongs to none. -/
def eventOf (row : ImportRow) : Option CanonicalEventKey := (canonicalEventKey row).toOption

def rowsOf (key : CanonicalEventKey) (rows : List ImportRow) : List ImportRow :=
  rows.filter fun row => decide (eventOf row = some key)

theorem toLower_ne_empty {text : String} (nonempty : text ≠ "") : text.toLower ≠ "" := by
  intro empty
  apply nonempty
  have chars := congrArg String.toList empty
  rw [String.toLower, String.toList_map] at chars
  exact String.toList_injective (List.map_eq_nil_iff.1 chars)

/-- The key a row is rejected under when it has no event of its own. -/
def fallbackEventKey (row : ImportRow) : CanonicalEventKey :=
  ⟨"invalid", "invalid", "row", (strip row.id).toLower, by decide, by decide, by decide, toLower_ne_empty row.named⟩

def directionOf (text : String) : Direction :=
  if text.toLower = "inbound" then .inbound
  else if text.toLower = "outbound" then .outbound
  else .other text.toLower

def canonicalQuantityPayload (row : ImportRow) (key : CanonicalEventKey) : Json :=
  .object [("schema_version", .number 1),
    ("event", eventScope key), ("wallet_id", .text row.walletId), ("direction", .text row.direction.toLower),
    ("asset", .text row.asset.toUpper),
    ("amount_msat", .number row.amount), ("fee_msat", .number row.fee),
    ("amount_includes_fee", .bool row.amountIncludesFee)]

def canonicalEvidencePayload (row : ImportRow) (key : CanonicalEventKey) : Json :=
  .object [("schema_version", .number 1), ("quantity", canonicalQuantityPayload row key),
    ("fingerprint", .text row.fingerprint), ("occurred_at", .text row.occurredAt),
    ("confirmed_at", .text row.confirmedAt), ("kind", .text row.kind), ("payment_hash", .text row.paymentHash),
    ("payment_hash_source", .text row.paymentHashSource),
    ("swap_refund_funding_txid", .text row.swapRefundFundingTxid),
    ("swap_refund_funding_vout", (row.swapRefundFundingVout.map Json.number).getD .null), ("raw_json", row.rawJson)]

/-- The attribution counts only for an authoritative row that states a known one. -/
def feeAttributionOf (row : ImportRow) : FeeAttribution :=
  let text := (strip (firstNonempty [row.observationFeeAttribution, "unknown"])).toLower
  if row.authority.authoritative = false then .unknown
  else if text = "exact" then .exact
  else if text = "implicit_wallet_delta" then .implicitWalletDelta
  else .unknown

section
variable (sha256 : String → String)

def EvidenceSnapshot.fromTransaction (row : ImportRow) (key : CanonicalEventKey) : EvidenceSnapshot :=
  ⟨hashPayload sha256 (canonicalQuantityPayload row key), hashPayload sha256 (canonicalEvidencePayload row key),
    (canonicalEvidencePayload row key).encode false⟩

def importedObservation (key : CanonicalEventKey) (row : ImportRow) : QuantityObservation :=
  let snapshot := EvidenceSnapshot.fromTransaction sha256 row key
  { transactionId := row.id, anchorTransactionId := firstNonempty [row.journalTransactionId, row.id],
    quantityHash := snapshot.quantityHash, evidenceDetailHash := snapshot.detailHash,
    evidencePayloadJson := snapshot.payloadJson, eventKey := key, profileId := row.profileId,
    authoritativeChainObservation := row.authority.authoritative,
    observationAuthorityReason := row.authority.reason, feeAttribution := feeAttributionOf row,
    walletId := row.walletId, asset := row.asset.toUpper, direction := directionOf row.direction,
    amountMsat := row.amount, feeMsat := row.fee, amountIncludesFee := row.amountIncludesFee,
    occurredAt := row.occurredAt }

def QuantityObservation.fromImport (key : CanonicalEventKey) (row : ImportRow) :
    Except PyError QuantityObservation := do
  let observation := importedObservation sha256 key row
  observation.validate
  pure observation

/-- A reviewed reading of an overlapping receipt: the quantity of its own and the text that proves it. -/
structure ReceiptReconciliation where
  amountMsat : Int
  proof : Json

abbrev Reconciliations := List (String × Option ReceiptReconciliation)

/-- A reconciled receipt is observed with the quantity its proof leaves it. -/
def observe (reconciliations : Reconciliations) (key : CanonicalEventKey) (row : ImportRow) :
    Except PyError QuantityObservation := do
  let observation ← QuantityObservation.fromImport sha256 key row
  match lookup reconciliations row.id with
  | some (some proof) => do
    let quantity := hashPayload sha256 (.object [("observed_quantity_hash", .text observation.quantityHash),
      ("receipt_reconciliation", proof.proof)])
    let detail := match canonicalEvidencePayload row key with
      | .fields entries => .object (entries ++ [("receipt_reconciliation", proof.proof)])
      | other => other
    let reconciled := { observation with
      amountMsat := proof.amountMsat, quantityHash := quantity, evidenceDetailHash := hashPayload sha256 detail,
      evidencePayloadJson := detail.encode false }
    reconciled.validate
    pure reconciled
  | _ => pure observation

def QuantityObservation.slot (o : QuantityObservation) : String ×ₗ String ×ₗ String :=
  toLex (o.walletId, toLex (o.direction.text, o.asset))

def QuantityObservation.semantics (o : QuantityObservation) : Int × Int × Bool :=
  (o.amountMsat, o.feeMsat, o.amountIncludesFee)

def QuantityObservation.rank (o : QuantityObservation) : String ×ₗ String ×ₗ String :=
  toLex (o.occurredAt, toLex (o.evidenceDetailHash, o.transactionId))

def transactionIdsOf (rows : List ImportRow) : List String := sortedSet (rows.map (·.id))

def Contradictory (observations : List QuantityObservation) : Prop :=
  ∃ o ∈ observations, ∃ p ∈ observations, o.slot = p.slot ∧ o.semantics ≠ p.semantics

instance (observations : List QuantityObservation) : Decidable (Contradictory observations) :=
  inferInstanceAs (Decidable (∃ o ∈ observations, ∃ p ∈ observations, o.slot = p.slot ∧ o.semantics ≠ p.semantics))

/-- One leg per slot: its first observation by time, evidence and id. -/
def legsOf (observations : List QuantityObservation) : List QuantityObservation :=
  (sortedSet (observations.map (·.slot))).filterMap fun slot =>
    (observations.filter fun o => o.slot = slot).argmin (·.rank)

def selectedHash (legs : List QuantityObservation) (o : QuantityObservation) : String :=
  ((legs.find? fun leg => leg.slot = o.slot).map (·.quantityHash)).getD ""

def aliasesOf (observations : List QuantityObservation) : List (String × String) :=
  sortedBy (fun entry => toLex entry) (observations.map fun o => (o.transactionId, selectedHash (legsOf observations) o))

def snapshotsOf (observations : List QuantityObservation) : List EvidenceSnapshot :=
  sortedBy (·.detailHash) ((items (observations.map fun o =>
    (o.evidenceDetailHash, (⟨o.quantityHash, o.evidenceDetailHash, o.evidencePayloadJson⟩ : EvidenceSnapshot)))).map
      Prod.snd)

def eventFrom (key : CanonicalEventKey) (observations : List QuantityObservation) : CanonicalQuantityEvent :=
  { eventKey := key, legs := legsOf observations, evidenceSnapshots := snapshotsOf observations,
    sourceTransactionIds := sortedSet (observations.map (·.transactionId)),
    observationAliases := aliasesOf observations }

def judgeEvent (reconciliations : Reconciliations) (key : CanonicalEventKey) (rows : List ImportRow) :
    Except CanonicalEventIssue CanonicalQuantityEvent :=
  if rows.any fun row => (lookup reconciliations row.id).any (·.isNone) then
    .error ⟨key, "source_overlap_quantity_unresolved", transactionIdsOf rows⟩
  else match rows.mapM (observe sha256 reconciliations key) with
    | .error _ => .error ⟨key, "canonical_event_leg_invalid", transactionIdsOf rows⟩
    | .ok observations =>
      if Contradictory observations then
        .error ⟨key, "canonical_event_leg_contradiction", transactionIdsOf rows⟩
      else .ok (eventFrom key observations)

theorem judgeEvent_key {reconciliations : Reconciliations} {key : CanonicalEventKey} {rows : List ImportRow}
    {event : CanonicalQuantityEvent} (accepted : judgeEvent sha256 reconciliations key rows = .ok event) :
    event.eventKey = key := by
  unfold judgeEvent at accepted
  split at accepted
  · cases accepted
  · split at accepted
    · cases accepted
    · split at accepted
      · cases accepted
      · cases accepted
        rfl

def eventKeysOf (rows : List ImportRow) : List CanonicalEventKey := sortedBy (·.order) (rows.filterMap eventOf).dedup

def acceptedEvents (reconciliations : Reconciliations) (rows : List ImportRow) : List CanonicalQuantityEvent :=
  (eventKeysOf rows).filterMap fun key => (judgeEvent sha256 reconciliations key (rowsOf key rows)).toOption

theorem acceptedEvents_distinct (reconciliations : Reconciliations) (rows : List ImportRow) :
    ((acceptedEvents sha256 reconciliations rows).map (·.eventKey)).Nodup := by
  have keys : (eventKeysOf rows).Nodup := (sortedBy_perm _ _).nodup_iff.2 (List.nodup_dedup _)
  have inner : List.Sublist ((acceptedEvents sha256 reconciliations rows).map (·.eventKey)) (eventKeysOf rows) := by
    unfold acceptedEvents
    generalize eventKeysOf rows = listed
    induction listed with
    | nil => exact List.Sublist.refl _
    | cons key rest ih =>
      rw [List.filterMap_cons]
      cases outcome : judgeEvent sha256 reconciliations key (rowsOf key rows) with
      | error issue => exact ih.cons key
      | ok event =>
        simp only [Except.toOption, List.map_cons]
        rw [judgeEvent_key sha256 outcome]
        exact ih.cons_cons key
  exact keys.sublist inner

/-- Exact repeats of a slot deduplicate; different aggregates of one slot reject their event only. -/
def buildCanonicalQuantityInput (rows : List ImportRow) (receiptReconciliations : Reconciliations)
    (nonEventTransactionIds : List String) : CanonicalQuantityInput :=
  let kept := rows.filter fun row => row.id ∉ nonEventTransactionIds
  let unidentified := kept.filterMap fun row =>
    match canonicalEventKey row with
    | .error _ => some ⟨fallbackEventKey row, "canonical_event_identity_invalid", transactionIdsOf [row]⟩
    | .ok _ => none
  let refused := (eventKeysOf kept).filterMap fun key =>
    match judgeEvent sha256 receiptReconciliations key (rowsOf key kept) with
    | .error issue => some issue
    | .ok _ => none
  { events := acceptedEvents sha256 receiptReconciliations kept
    rejectedEvents := sortedBy (fun issue : CanonicalEventIssue =>
      toLex (issue.eventKey.order, toLex (issue.code, issue.transactionIds))) (unidentified ++ refused)
    distinct := acceptedEvents_distinct sha256 receiptReconciliations kept }

end
end Kassiber.Custody

import Kassiber.Lib.Json
import Kassiber.Custody.Canonical
import Kassiber.Custody.Quantity

/-!
An owned output that its wallet has not imported yet becomes a synthetic inbound of the source's own event, and
a channel close gets the outbound its node did not import.
-/

namespace Kassiber.Custody
open Lib.Outcome Lib.Dict Lib.Sorting Lib.Document

/-- One pre-tax intra-wallet audit row. A field that is not an exact integer is absent. -/
structure NativeAuditRow where
  pairingSource : String
  occurredAt : String := ""
  outId : String := ""
  inId : String := ""
  outAnchorTransactionId : String := ""
  inAnchorTransactionId : String := ""
  fromWalletId : String := ""
  toWalletId : String := ""
  asset : String := ""
  cryptoReceivedMsat : Option Int := none
  cryptoFeeMsat : Option Int := none
  cryptoSentMsat : Option Int := none
  virtualSource : Bool := false

structure NativeAuditIssue where
  issueId : String
  reason : String
  occurredAt : String
  transactionIds : List String
  asset : Option String
  amountMsat : Option Int

structure NativeLeg where
  evidenceId : String
  outId : String
  inId : String
  sourceTransactionId : String
  source : QuantityObservation
  targetWalletId : String
  asset : String
  receivedMsat : Int
  feeMsat : Int
  sentMsat : Int
  pairingSource : String
  occurredAt : String

structure NativeAuditCompilation where
  canonicalInput : CanonicalQuantityInput
  claims : List QuantityClaim
  issues : List NativeAuditIssue

def verifiedNativePairingSources : List String :=
  ["ownership_derived", "multi_source_consolidation", "recorded_fanout", "channel_lifecycle"]

def exactMsat (value : Option Int) : Option Int := value.filter fun msat => 0 ≤ msat

def Direction.text : Direction → String
  | .inbound => "inbound"
  | .outbound => "outbound"
  | .other text => text

namespace CanonicalQuantityInput

def event (canonical : CanonicalQuantityInput) (key : CanonicalEventKey) : Except PyError CanonicalQuantityEvent :=
  match canonical.events.find? fun event => event.eventKey = key with
  | none => .error (.keyError key.nativeEventId)
  | some event => .ok event

def replaceEvent (canonical : CanonicalQuantityInput) (new : CanonicalQuantityEvent) : CanonicalQuantityInput :=
  { canonical with
    events := canonical.events.map fun event => if event.eventKey = new.eventKey then new else event
    distinct := by
      have keys : (canonical.events.map fun event => if event.eventKey = new.eventKey then new else event).map
          (·.eventKey) = canonical.events.map (·.eventKey) := by
        rw [List.map_map]
        refine List.map_congr_left ?_
        intro event _
        by_cases same : event.eventKey = new.eventKey <;> simp [same]
      rw [keys]
      exact canonical.distinct }

def inKeyOrder (canonical : CanonicalQuantityInput) : CanonicalQuantityInput :=
  { canonical with
    events := sortedBy (fun event => event.eventKey.order) canonical.events
    distinct := ((sortedBy_perm _ _).map _).nodup_iff.2 canonical.distinct }

end CanonicalQuantityInput

structure SyntheticRow where
  id : String
  journalTransactionId : String
  walletId : String
  direction : Direction
  asset : String
  amount : Int
  fee : Int
  occurredAt : String
  fingerprint : String
  kind : String
  proof : Json

def eventScope (key : CanonicalEventKey) : Json :=
  .object [("chain", .text key.chain), ("network", .text key.network), ("native_namespace", .text key.nativeNamespace),
    ("native_event_id", .text key.nativeEventId)]

namespace SyntheticRow

def quantityPayload (row : SyntheticRow) (key : CanonicalEventKey) : Json :=
  .object [("schema_version", .number 1), ("event", eventScope key), ("wallet_id", .text row.walletId),
    ("direction", .text row.direction.text), ("asset", .text row.asset.toUpper), ("amount_msat", .number row.amount),
    ("fee_msat", .number row.fee), ("amount_includes_fee", .bool false)]

def evidencePayload (row : SyntheticRow) (key : CanonicalEventKey) : Json :=
  .object [("schema_version", .number 1), ("quantity", row.quantityPayload key), ("fingerprint", .text row.fingerprint),
    ("occurred_at", .text row.occurredAt), ("confirmed_at", .text ""), ("kind", .text row.kind),
    ("payment_hash", .text ""), ("payment_hash_source", .text ""), ("swap_refund_funding_txid", .text ""),
    ("swap_refund_funding_vout", .null),
    ("raw_json", .object [("txid", .text key.nativeEventId), ("_kassiber_quantity_evidence", row.proof)])]

end SyntheticRow

section
variable (sha256 : String → String)

def hashPayload (payload : Json) : String := sha256 (payload.encode false)

/-- A synthetic row carries no observer provenance, so it is never authoritative. -/
def QuantityObservation.fromTransaction (row : SyntheticRow) (key : CanonicalEventKey) :
    Except PyError QuantityObservation := do
  let o : QuantityObservation :=
    { transactionId := row.id, anchorTransactionId := if row.journalTransactionId ≠ "" then row.journalTransactionId else row.id
      quantityHash := hashPayload sha256 (row.quantityPayload key)
      evidenceDetailHash := hashPayload sha256 (row.evidencePayload key)
      evidencePayloadJson := (row.evidencePayload key).encode false, eventKey := key, profileId := ""
      authoritativeChainObservation := false, observationAuthorityReason := "provenance_missing"
      feeAttribution := .unknown, walletId := row.walletId, asset := row.asset.toUpper, direction := row.direction
      amountMsat := row.amount, feeMsat := row.fee, amountIncludesFee := false, occurredAt := row.occurredAt }
  o.validate
  pure o

def legOrder (o : QuantityObservation) : String ×ₗ String ×ₗ String ×ₗ String :=
  toLex (o.walletId, toLex (o.direction.text, toLex (o.asset, o.quantityHash)))

def CanonicalQuantityEvent.extend (event : CanonicalQuantityEvent) (o : QuantityObservation)
    (transactionIds : List String) : CanonicalQuantityEvent :=
  { event with
    legs := sortedBy legOrder (event.legs ++ [o])
    evidenceSnapshots := sortedBy (fun snapshot => toLex (snapshot.detailHash, snapshot.quantityHash))
      (event.evidenceSnapshots ++
        [{ quantityHash := o.quantityHash, detailHash := o.evidenceDetailHash, payloadJson := o.evidencePayloadJson }])
    observationAliases := sortedBy (fun entry => toLex entry)
      (items (event.observationAliases ++ transactionIds.map fun id => (id, o.quantityHash))) }

def nativeIssue (reason pairingSource occurredAt : String) (transactionIds : List String) (asset : Option String)
    (amountMsat : Option Int) : NativeAuditIssue :=
  let ids := sortedSet (transactionIds.filter fun id => id ≠ "")
  { issueId := hashPayload sha256 (.object
      [("schema_version", .number 1), ("kind", .text "native_audit_issue"), ("reason", .text reason),
        ("transaction_ids", .list (ids.map .text)), ("pairing_source", .text pairingSource)])
    reason, occurredAt, transactionIds := ids, asset, amountMsat }

structure VirtualState where
  canonical : CanonicalQuantityInput
  byTransaction : List (String × QuantityObservation)
  issues : List NativeAuditIssue

/-- The receipt a channel close names, when the row describes it exactly. -/
def virtualTarget (byTransaction : List (String × QuantityObservation)) (audit : NativeAuditRow) :
    Option (QuantityObservation × Int × Int) := do
  let target ← lookup byTransaction audit.inAnchorTransactionId
  let received ← exactMsat audit.cryptoReceivedMsat
  let fee ← exactMsat audit.cryptoFeeMsat
  if audit.outId ≠ "" ∧ target.direction = .inbound ∧ audit.fromWalletId ≠ "" ∧ 0 < received ∧
      exactMsat audit.cryptoSentMsat = some (received + fee) ∧ audit.asset.toUpper = target.asset ∧
      audit.toWalletId = target.walletId ∧ audit.occurredAt = target.occurredAt then
    some (target, received, fee)
  else none

def channelCloseRow (audit : NativeAuditRow) (target : QuantityObservation) (received fee : Int) : SyntheticRow :=
  let proof : Json := .object
    [("schema_version", .number 1), ("kind", .text "verified_channel_close_source"),
      ("source_wallet_id", .text audit.fromWalletId), ("target_quantity_hash", .text target.quantityHash),
      ("received_msat", .number received), ("fee_msat", .number fee)]
  { id := audit.outId, journalTransactionId := target.anchorTransactionId, walletId := audit.fromWalletId
    direction := .outbound, asset := target.asset, amount := received, fee, occurredAt := target.occurredAt
    fingerprint := "native-channel-close-out:" ++ hashPayload sha256 proof, kind := "self_transfer_out", proof }

def priorAgrees (event : CanonicalQuantityEvent) (prior : String) (audit : NativeAuditRow) (target : QuantityObservation)
    (received fee : Int) : Bool :=
  match event.legs.find? fun o => o.quantityHash = prior with
  | none => false
  | some o => decide (o.direction = .outbound ∧ o.walletId = audit.fromWalletId ∧ o.asset = target.asset ∧
      o.principalMsat = received ∧ o.feeMsat = fee)

def addVirtualSource (state : VirtualState) (audit : NativeAuditRow) : Except PyError VirtualState :=
  let issue (reason : String) (asset : Option String) : NativeAuditIssue :=
    nativeIssue sha256 reason audit.pairingSource audit.occurredAt [audit.outId, audit.inAnchorTransactionId] asset
      (exactMsat audit.cryptoReceivedMsat)
  match virtualTarget state.byTransaction audit with
  | none =>
    let target := lookup state.byTransaction audit.inAnchorTransactionId
    .ok { state with issues := state.issues ++ [issue "native_audit_virtual_source_invalid" (target.map (·.asset))] }
  | some (target, received, fee) => do
    let event ← state.canonical.event target.eventKey
    match lookup event.observationAliases audit.outId with
    | some prior =>
      if priorAgrees event prior audit target received fee then pure state
      else
        pure
          { state with
            issues := state.issues ++ [issue "native_audit_virtual_source_contradiction" (some target.asset)] }
    | none =>
      let source ← QuantityObservation.fromTransaction sha256 (channelCloseRow sha256 audit target received fee) target.eventKey
      pure
        { state with
          canonical := state.canonical.replaceEvent (event.extend source [audit.outId])
          byTransaction := state.byTransaction ++ [(audit.outId, source)] }

def augmentVirtualChannelSources (canonical : CanonicalQuantityInput) (audits : List NativeAuditRow) :
    Except PyError (CanonicalQuantityInput × List NativeAuditIssue) := do
  let byTransaction ← canonical.observationsByTransaction
  let closes := audits.filter fun audit => audit.virtualSource = true ∧ audit.pairingSource = "channel_lifecycle"
  let done ← (sortedBy (fun audit : NativeAuditRow => toLex (audit.occurredAt, audit.outId)) closes).foldlM
    (addVirtualSource sha256) { canonical, byTransaction, issues := [] }
  pure (done.canonical.inKeyOrder, done.issues)

def physicalTxid (text : String) : Bool :=
  decide (text.length = 64) && text.toList.all fun c => "0123456789abcdef".toList.contains c

def evidenceIdOf (audit : NativeAuditRow) (source : QuantityObservation) (received fee : Int) : String :=
  hashPayload sha256 (.object
    [("schema_version", .number 1), ("kind", .text "verified_native_intra_leg"),
      ("pairing_source", .text audit.pairingSource), ("source_quantity_hash", .text source.quantityHash),
      ("out_id", .text audit.outId), ("in_id", .text audit.inId), ("target_wallet_id", .text audit.toWalletId),
      ("asset", .text audit.asset.toUpper), ("received_msat", .number received), ("fee_msat", .number fee)])

def legAmounts (audit : NativeAuditRow) (source : QuantityObservation) : Option (Int × Int × Int) := do
  let received ← exactMsat audit.cryptoReceivedMsat
  let fee ← exactMsat audit.cryptoFeeMsat
  let sent ← exactMsat audit.cryptoSentMsat
  if audit.outId ≠ "" ∧ audit.inId ≠ "" ∧ audit.toWalletId ≠ "" ∧ audit.fromWalletId = source.walletId ∧
      audit.asset.toUpper = source.asset ∧ 0 < received ∧ sent = received + fee ∧
      audit.occurredAt = source.occurredAt then
    some (received, fee, sent)
  else none

def parseLeg (byTransaction : List (String × QuantityObservation)) (audit : NativeAuditRow) :
    Except NativeAuditIssue NativeLeg :=
  let sourceId := audit.outAnchorTransactionId
  let issue (reason : String) (asset : Option String) (amount : Option Int) : NativeAuditIssue :=
    nativeIssue sha256 reason audit.pairingSource audit.occurredAt [sourceId, audit.outId, audit.inId] asset amount
  match (lookup byTransaction sourceId).filter fun source => sourceId ≠ "" ∧ source.direction = .outbound with
  | none =>
    .error (issue "native_audit_source_anchor_missing"
      (if audit.asset.toUpper = "" then none else some audit.asset.toUpper) none)
  | some source =>
    if audit.pairingSource ≠ "channel_lifecycle" ∧ source.authoritativeChainObservation = false then
      .error (issue "native_audit_authoritative_observation_missing" (some source.asset) none)
    else if ¬((source.eventKey.chain = "bitcoin" ∨ source.eventKey.chain = "liquid") ∧
        source.eventKey.nativeNamespace = "chain" ∧ physicalTxid source.eventKey.nativeEventId = true) then
      .error (issue "native_audit_physical_scope_invalid" (some source.asset) none)
    else match legAmounts audit source with
      | none => .error (issue "native_audit_leg_invalid" (some source.asset) (exactMsat audit.cryptoReceivedMsat))
      | some (received, fee, sent) =>
        .ok
          { evidenceId := evidenceIdOf sha256 audit source received fee, outId := audit.outId, inId := audit.inId
            sourceTransactionId := sourceId, source, targetWalletId := audit.toWalletId, asset := audit.asset.toUpper
            receivedMsat := received, feeMsat := fee, sentMsat := sent, pairingSource := audit.pairingSource
            occurredAt := source.occurredAt }

def issuesOf {α : Type} (outcomes : List (Except NativeAuditIssue α)) : List NativeAuditIssue :=
  outcomes.filterMap fun outcome => match outcome with
    | .error issue => some issue
    | .ok _ => none

/-- Legs of the verified pairing sources, less those a reviewed component owns. -/
def parseLegs (canonical : CanonicalQuantityInput) (audits : List NativeAuditRow)
    (componentTransactionIds : List String) : Except PyError (List NativeLeg × List NativeAuditIssue) := do
  let byTransaction ← canonical.observationsByTransaction
  let verified := audits.filter fun audit => audit.pairingSource ∈ verifiedNativePairingSources
  let ordered := sortedBy (fun audit : NativeAuditRow => toLex (audit.occurredAt, toLex (audit.outId, audit.inId))) verified
  let open_ := ordered.filter fun audit => audit.outAnchorTransactionId ∉ componentTransactionIds
  let outcomes := open_.map (parseLeg sha256 byTransaction)
  pure (outcomes.filterMap Except.toOption, issuesOf outcomes)

def byEvidence (legs : List NativeLeg) : List NativeLeg := sortedBy NativeLeg.evidenceId legs

def sourceGroups (legs : List NativeLeg) : List (String × List NativeLeg) :=
  (sortedBy Prod.fst (groupBy (fun leg : NativeLeg => leg.source.quantityHash) legs)).map fun group =>
    (group.1, byEvidence group.2)

/-- The legs of one source are kept together when their amounts and fees fit it. -/
def validatedGroup (reserved : List (String × Int)) (group : String × List NativeLeg) :
    Except NativeAuditIssue (List NativeLeg) :=
  match group.2 with
  | [] => .ok []
  | first :: _ =>
    let source := first.source
    let received := (group.2.map (·.receivedMsat)).sum
    let held := (lookup reserved group.1).getD 0
    let residual := source.principalMsat - held - received
    if 0 ≤ held ∧ held ≤ source.principalMsat ∧ 0 ≤ residual ∧ (group.2.map (·.feeMsat)).sum = source.feeMsat ∧
        (residual = 0 ∨ ∀ leg ∈ group.2, leg.pairingSource = "ownership_derived") then .ok group.2
    else
      .error (nativeIssue sha256 "native_audit_source_conservation_invalid" first.pairingSource source.occurredAt
        (source.transactionId :: (group.2.map (·.outId) ++ group.2.map (·.inId))) (some source.asset)
        (some source.principalMsat))

def validatedSourceGroups (legs : List NativeLeg) (reserved : List (String × Int)) :
    List NativeLeg × List NativeAuditIssue :=
  let outcomes := (sourceGroups legs).map (validatedGroup sha256 reserved)
  ((outcomes.filterMap Except.toOption).flatten, issuesOf outcomes)

structure TargetSlot where
  eventKey : CanonicalEventKey
  walletId : String
  asset : String
  deriving DecidableEq

def TargetSlot.order (slot : TargetSlot) : (String ×ₗ String ×ₗ String ×ₗ String) ×ₗ String ×ₗ String :=
  toLex (slot.eventKey.order, toLex (slot.walletId, slot.asset))

def slotOf (leg : NativeLeg) : TargetSlot :=
  { eventKey := leg.source.eventKey, walletId := leg.targetWalletId, asset := leg.asset }

def slotItems (legs : List NativeLeg) : List (TargetSlot × List NativeLeg) :=
  (sortedBy (fun entry => TargetSlot.order entry.1) (groupBy slotOf legs)).map fun entry => (entry.1, byEvidence entry.2)

def existingTargets (event : CanonicalQuantityEvent) (slot : TargetSlot) : List QuantityObservation :=
  event.legs.filter fun o => o.direction = .inbound ∧ o.walletId = slot.walletId ∧ o.asset = slot.asset

/-- Slots found contradictory so far, and the slot that owns each new alias of an event; `none` owns what was
there before. -/
structure SlotState where
  invalid : List TargetSlot
  owners : List ((CanonicalEventKey × String) × Option TargetSlot)
  issues : List NativeAuditIssue

def checkSlot (canonical : CanonicalQuantityInput) (state : SlotState) (entry : TargetSlot × List NativeLeg) :
    Except PyError SlotState := do
  let (slot, members) := entry
  let event ← canonical.event slot.eventKey
  let amount := (members.map (·.receivedMsat)).sum
  let issue (reason : String) : NativeAuditIssue :=
    nativeIssue sha256 reason ((members.head?.map (·.pairingSource)).getD "")
      ((members.head?.map (·.occurredAt)).getD "") (members.map (·.sourceTransactionId) ++ members.map (·.inId))
      (some slot.asset) (some amount)
  match existingTargets event slot with
  | [only] =>
    if only.principalMsat = amount then pure state
    else pure { state with invalid := slot :: state.invalid, issues := state.issues ++ [issue "native_audit_target_contradiction"] }
  | _ :: _ => pure { state with invalid := slot :: state.invalid, issues := state.issues ++ [issue "native_audit_target_contradiction"] }
  | [] =>
    let owned := members.filterMap fun leg => (lookup state.owners (slot.eventKey, leg.inId)).filter fun owner =>
      owner ≠ some slot
    if owned ≠ [] then
      pure
        { state with
          invalid := slot :: (owned.filterMap id ++ state.invalid)
          issues := state.issues ++ [issue "native_audit_alias_contradiction"] }
    else
      pure { state with owners := state.owners ++ members.map fun leg => ((slot.eventKey, leg.inId), some slot) }

def initialOwners (canonical : CanonicalQuantityInput) : List ((CanonicalEventKey × String) × Option TargetSlot) :=
  canonical.events.flatMap fun event => event.observationAliases.map fun entry => ((event.eventKey, entry.1), none)

def slotSources (invalid : List TargetSlot) (slots : List (TargetSlot × List NativeLeg)) : List String :=
  (slots.filter fun entry => entry.1 ∈ invalid).flatMap fun entry => entry.2.map (·.source.quantityHash)

def spreadInvalid (state : List TargetSlot × List String) (entry : TargetSlot × List NativeLeg) :
    List TargetSlot × List String :=
  if entry.1 ∈ state.1 then state
  else if ∃ leg ∈ entry.2, leg.source.quantityHash ∈ state.2 then
    (entry.1 :: state.1, state.2 ++ entry.2.map (·.source.quantityHash))
  else state

def closeInvalid (slots : List (TargetSlot × List NativeLeg)) : Nat → List TargetSlot × List String →
    List TargetSlot × List String
  | 0, state => state
  | fuel + 1, state =>
    let next := slots.foldl spreadInvalid state
    if next.1.length = state.1.length then next else closeInvalid slots fuel next

def ownedDestinationRow (slot : TargetSlot) (members : List NativeLeg) (first : NativeLeg) : SyntheticRow :=
  let amount := (members.map (·.receivedMsat)).sum
  let proof : Json := .object
    [("schema_version", .number 1), ("kind", .text "verified_native_owned_destination"),
      ("event", eventScope slot.eventKey), ("wallet_id", .text slot.walletId), ("asset", .text slot.asset),
      ("amount_msat", .number amount),
      ("legs", .list (members.map fun leg => .object
        [("evidence_id", .text leg.evidenceId), ("pairing_source", .text leg.pairingSource),
          ("source_quantity_hash", .text leg.source.quantityHash), ("received_msat", .number leg.receivedMsat)]))]
  let identity := "native-owned-in:" ++ hashPayload sha256 proof
  { id := identity, journalTransactionId := first.sourceTransactionId, walletId := slot.walletId, direction := .inbound
    asset := slot.asset, amount, fee := 0, occurredAt := ((members.map (·.occurredAt)).min?).getD ""
    fingerprint := identity, kind := "self_transfer_in", proof }

/-- The target observation of every leg, with the events extended by the synthetic ones. -/
structure TargetState where
  canonical : CanonicalQuantityInput
  targetByEvidence : List (String × String)

def materializeSlot (state : TargetState) (entry : TargetSlot × List NativeLeg) : Except PyError TargetState :=
  match entry.2 with
  | [] => .ok state
  | first :: _ => do
    let (slot, members) := entry
    let event ← state.canonical.event slot.eventKey
    match existingTargets event slot with
    | target :: _ =>
      pure
        { state with
          targetByEvidence := state.targetByEvidence ++ members.map fun leg => (leg.evidenceId, target.quantityHash) }
    | [] =>
      let target ← QuantityObservation.fromTransaction sha256 (ownedDestinationRow sha256 slot members first) slot.eventKey
      pure
        { canonical := state.canonical.replaceEvent (event.extend target (members.map (·.inId)))
          targetByEvidence := state.targetByEvidence ++ members.map fun leg => (leg.evidenceId, target.quantityHash) }

structure TargetAugmentation where
  canonical : CanonicalQuantityInput
  targetByEvidence : List (String × String)
  issues : List NativeAuditIssue
  invalidEvidence : List String

def augmentTargets (canonical : CanonicalQuantityInput) (legs : List NativeLeg) : Except PyError TargetAugmentation := do
  let slots := slotItems legs
  let checked ← slots.foldlM (checkSlot sha256 canonical)
    { invalid := [], owners := initialOwners canonical, issues := [] }
  let closed := closeInvalid slots (slots.length + 1) (checked.invalid, slotSources checked.invalid slots)
  let done ← (slots.filter fun entry => entry.1 ∉ closed.1).foldlM (materializeSlot sha256)
    { canonical, targetByEvidence := [] }
  pure
    { canonical := done.canonical.inKeyOrder, targetByEvidence := done.targetByEvidence, issues := checked.issues
      invalidEvidence := (slots.filter fun entry => entry.1 ∈ closed.1).flatMap fun entry => entry.2.map (·.evidenceId) }

structure NativeClaimState where
  sources : List (String × Int) := []
  targets : List (String × Int) := []
  claims : List QuantityClaim := []

def observationAt (canonical : CanonicalQuantityInput) (hash : String) : Except PyError QuantityObservation :=
  match canonical.byHash hash with
  | none => .error (.keyError hash)
  | some o => .ok o

def retainedClaim (targetByEvidence : List (String × String)) (canonical : CanonicalQuantityInput) (sourceHash : String)
    (state : NativeClaimState) (leg : NativeLeg) : Except PyError NativeClaimState :=
  match lookup targetByEvidence leg.evidenceId with
  | none => .error (.keyError leg.evidenceId)
  | some targetHash => do
    let _ ← observationAt canonical targetHash
    let sourceStart := (lookup state.sources sourceHash).getD 0
    let targetStart := (lookup state.targets targetHash).getD 0
    let source ← QuantitySlice.make sourceHash sourceStart (sourceStart + leg.receivedMsat)
    let target ← QuantitySlice.make targetHash targetStart (targetStart + leg.receivedMsat)
    let claim ← QuantityClaim.make
      { claimId := "engine-native:" ++ leg.evidenceId ++ ":retained", source, target := some target
        state := .internalVerified, priority := .exactNativeEvent, reason := leg.pairingSource
        atomicBundleId := some ("engine-native:" ++ sourceHash) }
    pure
      { sources := state.sources ++ [(sourceHash, sourceStart + leg.receivedMsat)]
        targets := state.targets ++ [(targetHash, targetStart + leg.receivedMsat)]
        claims := state.claims ++ [claim] }

/-- A wallet delta that the legs leave unallocated stays in suspense. -/
def nativeSourceClaims (augmented : TargetAugmentation) (reserved : List (String × Int)) (state : NativeClaimState)
    (group : String × List NativeLeg) : Except PyError NativeClaimState := do
  let source ← observationAt augmented.canonical group.1
  let next ← group.2.foldlM (retainedClaim augmented.targetByEvidence augmented.canonical group.1) state
  let stop := source.principalMsat - (lookup reserved group.1).getD 0
  let start := (lookup next.sources group.1).getD 0
  if source.feeAttribution = .implicitWalletDelta ∧ start < stop then
    let slice ← QuantitySlice.make group.1 start stop
    let claim ← QuantityClaim.make
      { claimId := "engine-native:" ++ group.1 ++ ":implicit-residual", source := slice, state := .custodySuspense
        priority := .exactNativeEvent, reason := "implicit_wallet_delta_unallocated"
        atomicBundleId := some ("engine-native:" ++ group.1) }
    pure { next with claims := next.claims ++ [claim] }
  else pure next

def compileVerifiedNativeClaims (canonical : CanonicalQuantityInput) (audits : List NativeAuditRow)
    (componentTransactionIds : List String) (reserved : List (String × Int)) : Except PyError NativeAuditCompilation := do
  let (withSources, virtualIssues) ← augmentVirtualChannelSources sha256 canonical audits
  let (parsed, legIssues) ← parseLegs sha256 withSources audits componentTransactionIds
  let (legs, conservationIssues) := validatedSourceGroups sha256 parsed reserved
  let augmented ← augmentTargets sha256 withSources legs
  let invalidSources := (legs.filter fun leg => leg.evidenceId ∈ augmented.invalidEvidence).map (·.source.quantityHash)
  let validLegs := legs.filter fun leg => leg.evidenceId ∉ augmented.invalidEvidence ∧
    leg.source.quantityHash ∉ invalidSources
  let done ← (sourceGroups validLegs).foldlM (nativeSourceClaims augmented reserved) {}
  pure
    { canonicalInput := augmented.canonical
      claims := sortedBy (fun claim : QuantityClaim => claim.claimId) done.claims
      issues := sortedBy NativeAuditIssue.issueId (virtualIssues ++ legIssues ++ conservationIssues ++ augmented.issues) }

variable {canonical : CanonicalQuantityInput}

theorem mem_observations {o : QuantityObservation} :
    o ∈ canonical.observations ↔ ∃ event ∈ canonical.events, o ∈ event.legs := by
  unfold CanonicalQuantityInput.observations
  exact List.mem_flatMap

theorem event_ok {key : CanonicalEventKey} {event : CanonicalQuantityEvent}
    (found : canonical.event key = .ok event) : event ∈ canonical.events ∧ event.eventKey = key := by
  unfold CanonicalQuantityInput.event at found
  split at found
  · cases found
  · rename_i stored first
    cases found
    exact ⟨List.mem_of_find?_eq_some first, by simpa using List.find?_some first⟩

def Extends (before after : CanonicalQuantityInput) : Prop := ∀ o ∈ before.observations, o ∈ after.observations

theorem extends_replace {key : CanonicalEventKey} {event : CanonicalQuantityEvent}
    (found : canonical.event key = .ok event) (o : QuantityObservation) (ids : List String) :
    Extends canonical (canonical.replaceEvent (event.extend o ids)) := by
  obtain ⟨present, named⟩ := event_ok found
  intro leg member
  obtain ⟨other, listed, inside⟩ := mem_observations.1 member
  refine mem_observations.2 ⟨_, List.mem_map.2 ⟨other, listed, rfl⟩, ?_⟩
  by_cases same : other.eventKey = (event.extend o ids).eventKey
  · have equal : other = event := List.inj_on_of_nodup_map canonical.distinct listed present same
    rw [if_pos same]
    exact mem_sortedBy.2 (List.mem_append_left _ (equal ▸ inside))
  · rw [if_neg same]
    exact inside

theorem extends_inKeyOrder (canonical : CanonicalQuantityInput) : Extends canonical canonical.inKeyOrder := by
  intro leg member
  obtain ⟨event, listed, inside⟩ := mem_observations.1 member
  exact mem_observations.2 ⟨event, mem_sortedBy.2 listed, inside⟩

theorem addVirtualSource_extends {state next : VirtualState} {audit : NativeAuditRow}
    (step : addVirtualSource sha256 state audit = .ok next) : Extends state.canonical next.canonical := by
  unfold addVirtualSource at step
  dsimp only at step
  split at step
  · cases step
    exact fun _ member => member
  · obtain ⟨event, found, step⟩ := bind_ok.1 step
    split at step
    · split at step <;> cases step <;> exact fun _ member => member
    · obtain ⟨source, -, step⟩ := bind_ok.1 step
      cases step
      exact extends_replace found source _

theorem materializeSlot_extends {state next : TargetState} {entry : TargetSlot × List NativeLeg}
    (step : materializeSlot sha256 state entry = .ok next) : Extends state.canonical next.canonical := by
  unfold materializeSlot at step
  split at step
  · cases step
    exact fun _ member => member
  · obtain ⟨event, found, step⟩ := bind_ok.1 step
    split at step
    · cases step
      exact fun _ member => member
    · obtain ⟨target, -, step⟩ := bind_ok.1 step
      cases step
      exact extends_replace found target _

theorem compileVerifiedNativeClaims_extends {audits : List NativeAuditRow}
    {ids : List String} {reserved : List (String × Int)} {native : NativeAuditCompilation}
    (run : compileVerifiedNativeClaims sha256 canonical audits ids reserved = .ok native) :
    Extends canonical native.canonicalInput := by
  obtain ⟨⟨withSources, virtualIssues⟩, sources, run⟩ := bind_ok.1 run
  obtain ⟨⟨parsed, legIssues⟩, -, run⟩ := bind_ok.1 run
  obtain ⟨augmented, targets, run⟩ := bind_ok.1 run
  obtain ⟨claims, -, same⟩ := bind_ok.1 run
  cases same
  have first : Extends canonical withSources := by
    obtain ⟨byTransaction, -, sources⟩ := bind_ok.1 sources
    obtain ⟨done, loop, same⟩ := bind_ok.1 sources
    cases same
    have kept : Extends canonical done.canonical := by
      refine foldlM_invariant (fun state => Extends canonical state.canonical) (fun _ member => member) ?_ loop
      intro state audit next _ before step o member
      exact addVirtualSource_extends sha256 step o (before o member)
    exact fun o member => extends_inKeyOrder _ o (kept o member)
  have second : Extends withSources augmented.canonical := by
    obtain ⟨checked, -, targets⟩ := bind_ok.1 targets
    obtain ⟨done, loop, same⟩ := bind_ok.1 targets
    cases same
    have kept : Extends withSources done.canonical := by
      refine foldlM_invariant (fun state => Extends withSources state.canonical) (fun _ member => member) ?_ loop
      intro state entry next _ before step o member
      exact materializeSlot_extends sha256 step o (before o member)
    exact fun o member => extends_inKeyOrder _ o (kept o member)
  exact fun o member => second o (first o member)

end

end Kassiber.Custody

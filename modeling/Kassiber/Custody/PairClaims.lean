import Kassiber.Lib.Ranking
import Kassiber.Custody.Imports
import Kassiber.Custody.ClaimCursors

/-!
Every pair that its evidence carries takes the next slices of its source and its target, so that the claims of
one observation never overlap and none passes its principal.
-/

namespace Kassiber.Custody.PairClaims
open Lib.Outcome Lib.Dict Lib.Sorting Lib.Tiling
open Lib.Text (append_ne_empty)
open List hiding lookup
open Prod (fst snd)

structure PairRow where
  id : String := ""
  journalTransactionId : String := ""
  workspaceId : String := ""
  profileId : String := ""
  occurredAt : String := ""
  paymentHash : String := ""
  amount : Int := 0
  lightningPaymentHashRow : Bool := false
  bitcoinNetworkDomain : Option String := none
  deriving DecidableEq

def anchorId (row : PairRow) : String := firstNonempty [row.journalTransactionId, row.id]

structure CandidatePair where
  outgoing : PairRow
  incoming : PairRow
  source : String := ""
  pairSource : String := ""
  pairId : String := ""
  groupId : String := ""
  kind : String := ""
  policy : String := ""
  componentId : String := ""
  outAmountMsat : Option Int := none
  outAmount : Option Int := none
  allowUnclaimedResidual : Bool := false
  deriving DecidableEq

namespace CandidatePair

def sourceName (pair : CandidatePair) : String := firstNonempty [pair.source, pair.pairSource]

def outId (pair : CandidatePair) : String := anchorId pair.outgoing

def inId (pair : CandidatePair) : String := anchorId pair.incoming

def requested (pair : CandidatePair) : Option Int := pair.outAmountMsat.or pair.outAmount

def order (pair : CandidatePair) : String ×ₗ String ×ₗ String ×ₗ String :=
  toLex (pair.outgoing.occurredAt, toLex (pair.outgoing.id, toLex (pair.incoming.id, pair.pairId)))

end CandidatePair

structure SwapCandidate where
  confidence : String
  conflictSize : Int
  method : String
  defaultKind : String

structure NativeTransitionProof where
  candidate : SwapCandidate
  sourceQuantityHash : String
  targetQuantityHash : String
  policy : String

def NativeTransitionProof.validates (proof : NativeTransitionProof) (pair : CandidatePair)
    (source target : QuantityObservation) : Bool :=
  decide (proof.candidate.confidence = "exact" ∧ proof.candidate.conflictSize = 1 ∧
    proof.candidate.method ∈ ["payment_hash", "htlc_refund"] ∧ source.quantityHash = proof.sourceQuantityHash ∧
    target.quantityHash = proof.targetQuantityHash ∧ pair.kind = proof.candidate.defaultKind ∧
    pair.policy = proof.policy ∧ pair.outAmountMsat = some source.principalMsat)

/-- What the interpreter is called with. Every observation was validated when it was made. -/
structure PairInputs where
  pairs : List CandidatePair
  observations : List (String × QuantityObservation)
  excludedTransactionIds : List String := []
  walletLabels : List (String × String) := []
  physicalScopesByAnchor : List (String × String × String × String × String) := []
  nativeTransitionProofs : List ((String × String) × NativeTransitionProof) := []
  valid : ∀ entry ∈ observations, entry.2.Valid

inductive PairDetail where
  | authorityConflict (pairingSource authoritativeTransactionId observationAuthorityReason : String)
  | chronology (sourceOccurredAt targetOccurredAt : String) (pairedLeg : Bool)
  | network (sourceNetwork targetNetwork : String) (pairedLeg : Bool)
  | fee (fromWallet toWallet : String) (sent received impliedFee feeCeiling : Int) (pairedLeg : Bool)

structure PairQuarantine where
  transactionId : String
  workspaceId : String
  profileId : String
  reason : String
  detail : PairDetail

def quarantineRow (transactionId : String) (row : PairRow) (reason : String) (detail : PairDetail) : PairQuarantine :=
  { transactionId, workspaceId := row.workspaceId, profileId := row.profileId, reason, detail }

def quarantineLegs (pair : CandidatePair) (reason : String) (detail : Bool → PairDetail) : List PairQuarantine :=
  [quarantineRow pair.outId pair.outgoing reason (detail false), quarantineRow pair.inId pair.incoming reason (detail true)]

/-- Two legs of one chain event that the profile's own observers saw. -/
def isExactNativePair (source target : QuantityObservation) : Bool :=
  decide (source.authoritativeChainObservation ∧ target.authoritativeChainObservation ∧
    source.eventKey = target.eventKey ∧ source.eventKey.nativeNamespace = "chain" ∧
    source.eventKey.chain ∈ ["bitcoin", "liquid"])

def isExactRecordedPair (pair : CandidatePair) (source target : QuantityObservation) : Bool :=
  if pair.sourceName = "row_matched" then
    isExactNativePair source target && decide (source.walletId ≠ target.walletId)
  else if pair.sourceName ≠ "lightning_payment_hash" then false
  else
    decide (canonicalTxid pair.outgoing.paymentHash ≠ none ∧
      canonicalTxid pair.outgoing.paymentHash = canonicalTxid pair.incoming.paymentHash ∧
      pair.outgoing.lightningPaymentHashRow ∧ pair.incoming.lightningPaymentHashRow ∧ source.asset = target.asset ∧
      source.principalMsat = target.principalMsat ∧ pair.outgoing.bitcoinNetworkDomain ≠ none ∧
      pair.outgoing.bitcoinNetworkDomain = pair.incoming.bitcoinNetworkDomain)

section
variable (inputs : PairInputs)

/-- A group of one source whose observed targets conserve its principal exactly. -/
def isExactFanout (members : List CandidatePair) : Bool :=
  let targetIds := members.map (·.inId)
  match (members.map (·.outId)).dedup with
  | [sourceId] =>
    match lookup inputs.observations sourceId, lookup inputs.physicalScopesByAnchor sourceId,
        targetIds.mapM (lookup inputs.observations) with
    | some source, some scope, some targets =>
      decide (2 ≤ members.length ∧ (∀ pair ∈ members, pair.sourceName = "recorded_fanout") ∧ sourceId ≠ "" ∧
        targetIds.Nodup ∧ "" ∉ targetIds ∧ source.direction = .outbound ∧ source.authoritativeChainObservation ∧
        source.eventKey.nativeNamespace = "chain" ∧ source.eventKey.chain ∈ ["bitcoin", "liquid"] ∧
        (∀ entry ∈ targetIds.zip targets, entry.2.authoritativeChainObservation ∧ entry.2.direction = .inbound ∧
          entry.2.eventKey = source.eventKey ∧ entry.2.asset = source.asset ∧ entry.2.walletId ≠ source.walletId ∧
          lookup inputs.physicalScopesByAnchor entry.1 = some scope) ∧
        (targets.map (·.walletId)).Nodup ∧
        (∀ entry ∈ members.zip targets, 0 < entry.1.requested.getD entry.2.principalMsat ∧
          entry.1.requested.getD entry.2.principalMsat = entry.2.principalMsat ∧
          entry.1.outgoing.amount = entry.2.principalMsat) ∧
        (targets.map (·.principalMsat)).sum = source.principalMsat)
    | _, _, _ => false
  | _ => false

def exactRecordedFanoutGroupIds : List String :=
  ((groupBy (·.groupId) (inputs.pairs.filter fun pair => pair.groupId ≠ "")).filter fun group =>
    isExactFanout inputs group.2).map fst

def orderedPairs : List (CandidatePair × Nat) := (sortedBy CandidatePair.order inputs.pairs).zipIdx

/-- The position of the last candidate pair of a source, whether or not it is interpreted. -/
def sourceLastOrdinal (outId : String) : Option Nat :=
  lookup ((orderedPairs inputs).map fun entry => (entry.1.outId, entry.2)) outId

def exactNativeTransition (pair : CandidatePair) (source target : QuantityObservation) : Bool :=
  decide (pair.sourceName = "native_htlc_transition") &&
    (lookup inputs.nativeTransitionProofs (pair.outId, pair.inId)).any fun proof => proof.validates pair source target

/-- A pair of one chain event that only one of its observers vouches for. -/
def AuthorityConflict (pair : CandidatePair) (source target : QuantityObservation) : Prop :=
  pair.sourceName ∈ ["row_matched", "recorded_fanout"] ∧ source.eventKey = target.eventKey ∧
    source.eventKey.nativeNamespace = "chain" ∧ source.eventKey.chain ∈ ["bitcoin", "liquid"] ∧
    source.authoritativeChainObservation ≠ target.authoritativeChainObservation

instance (pair : CandidatePair) (source target : QuantityObservation) : Decidable (AuthorityConflict pair source target) :=
  inferInstanceAs (Decidable (_ ∧ _ ∧ _ ∧ _ ∧ _))

def exactEvidence (pair : CandidatePair) (source target : QuantityObservation) : Bool :=
  decide (pair.sourceName = "channel_lifecycle") || isExactRecordedPair pair source target ||
    decide (pair.sourceName = "recorded_fanout" ∧ pair.groupId ∈ exactRecordedFanoutGroupIds inputs) ||
    isExactNativePair source target || exactNativeTransition inputs pair source target

def chronologySkewTolerance : Int := 48 * 60 * 60 * 1000000

/-- What the evidence of a pair settles before any quantity is taken. -/
inductive Evidence where
  | skipped
  | blocked (ids : List String) (quarantines : List PairQuarantine)
  | accepted (source target : QuantityObservation)

def holdUntrusted (pair : CandidatePair) (source target : QuantityObservation) : Evidence :=
  if source.authoritativeChainObservation then
    .blocked [pair.inId] [quarantineRow pair.inId pair.incoming "recorded_transfer_authority_conflict"
      (.authorityConflict pair.sourceName pair.outId target.observationAuthorityReason)]
  else
    .blocked [pair.outId] [quarantineRow pair.outId pair.outgoing "recorded_transfer_authority_conflict"
      (.authorityConflict pair.sourceName pair.inId source.observationAuthorityReason)]

/-- Whether the target came in before the source went out, beyond what clocks may differ. -/
def reversed (instant : String → Option Int) (source target : QuantityObservation) : Bool :=
  match instant source.occurredAt, instant target.occurredAt with
  | some sourceWhen, some targetWhen => decide (targetWhen + chronologySkewTolerance < sourceWhen)
  | _, _ => false

variable (instant : String → Option Int)

def pairEvidence (pair : CandidatePair) : Evidence :=
  if pair.outId = "" ∨ pair.inId = "" ∨ pair.outId ∈ inputs.excludedTransactionIds ∨
      pair.inId ∈ inputs.excludedTransactionIds then .skipped
  else
    match lookup inputs.observations pair.outId, lookup inputs.observations pair.inId with
    | some source, some target =>
      if source.direction ≠ .outbound ∨ target.direction ≠ .inbound then .skipped
      else if AuthorityConflict pair source target then holdUntrusted pair source target
      else if exactEvidence inputs pair source target = false then .skipped
      else if isExactNativePair source target = false ∧ reversed instant source target = true then
        .blocked [pair.outId, pair.inId] (quarantineLegs pair "transfer_pair_chronology_mismatch"
          (.chronology source.occurredAt target.occurredAt))
      else .accepted source target
    | _, _ => .skipped

structure PairState where
  sources : Cursors := []
  targets : Cursors := []
  claims : List QuantityClaim := []
  blocked : List String := []
  quarantines : List PairQuarantine := []
  implicitSources : List (String × QuantityObservation) := []

structure PairRoute where
  source : QuantityObservation
  target : QuantityObservation
  sourceStart : Int
  targetStart : Int
  requestedMsat : Int

namespace PairRoute

def availableSource (route : PairRoute) : Int := route.source.principalMsat - route.sourceStart

def availableTarget (route : PairRoute) : Int := route.target.principalMsat - route.targetStart

def amountMsat (route : PairRoute) : Int := min route.requestedMsat (min route.availableSource route.availableTarget)

def inferredFeeMsat (route : PairRoute) : Int :=
  max 0 (min route.requestedMsat route.availableSource - route.amountMsat)

def unclaimedAfterPair (route : PairRoute) : Int := route.availableSource - route.amountMsat - route.inferredFeeMsat

end PairRoute

def feeToleranceMsat (source : QuantityObservation) : Int := max (source.principalMsat / 100) 2500000

def transitionKinds : List String :=
  ["chain-swap", "peg-in", "peg-out", "reverse-submarine-swap", "submarine-swap", "swap-refund"]

def pairRoute (state : PairState) (pair : CandidatePair) (source target : QuantityObservation) : PairRoute :=
  let sourceStart := state.sources.at source.quantityHash
  let targetStart := state.targets.at target.quantityHash
  let availableSource := source.principalMsat - sourceStart
  let availableTarget := target.principalMsat - targetStart
  let requestedMsat := match pair.requested with
    | some requested => requested
    | none => if pair.kind ∈ transitionKinds then availableSource else min availableSource availableTarget
  { source, target, sourceStart, targetStart, requestedMsat }

inductive Verdict where
  | skip
  | block (ids : List String) (quarantines : List PairQuarantine)
  | suspend (route : PairRoute)
  | move (route : PairRoute)

/-- Whether the shortfall check runs on the pair, and finds more missing than a fee. -/
def Implausible (pair : CandidatePair) (ordinal : Nat) (route : PairRoute) : Prop :=
  isExactNativePair route.source route.target = false ∧ pair.allowUnclaimedResidual = false ∧
    sourceLastOrdinal inputs pair.outId = some ordinal ∧ feeToleranceMsat route.source < route.unclaimedAfterPair

instance (pair : CandidatePair) (ordinal : Nat) (route : PairRoute) :
    Decidable <| Implausible inputs pair ordinal route :=
  inferInstanceAs (Decidable (_ ∧ _ ∧ _ ∧ _))

def judgePair (state : PairState) (entry : CandidatePair × Nat) : Verdict :=
  let pair := entry.1
  match pairEvidence inputs instant pair with
  | .skipped => .skip
  | .blocked ids quarantines => .block ids quarantines
  | .accepted source target =>
    let route := pairRoute state pair source target
    let sourceDomain := QuantityDomain.fromObservation source
    let targetDomain := QuantityDomain.fromObservation target
    if route.amountMsat ≤ 0 then .skip
    else if sourceDomain.exposure ≠ targetDomain.exposure then .skip
    else if (sourceDomain.network, sourceDomain.unit) ≠ (targetDomain.network, targetDomain.unit) then
      .block [pair.outId, pair.inId]
        (quarantineLegs pair "transfer_network_mismatch" (.network sourceDomain.network targetDomain.network))
    else if sourceDomain.rail ≠ targetDomain.rail ∧ pair.policy ≠ "carrying-value" ∧
        exactNativeTransition inputs pair source target = false then .skip
    else if Implausible inputs pair entry.2 route then .suspend route
    else .move route

def nonblank (text : String) : Option String := if text = "" then none else some text

def pairIdOf (pair : CandidatePair) (ordinal : Nat) : String :=
  firstNonempty [pair.pairId, pair.outId ++ ":" ++ pair.inId ++ ":" ++ toString ordinal]

def bundleOf (pair : CandidatePair) (ordinal : Nat) : String :=
  if pair.groupId ≠ "" then "pair-group:" ++ pair.groupId else "pair:" ++ pairIdOf pair ordinal

def walletLabel (walletId : String) : String := (lookup inputs.walletLabels walletId).getD walletId

def feeQuarantines (pair : CandidatePair) (route : PairRoute) : List PairQuarantine :=
  quarantineLegs pair "transfer_fee_implausible" (.fee (walletLabel inputs route.source.walletId)
    (walletLabel inputs route.target.walletId) route.source.principalMsat route.amountMsat route.unclaimedAfterPair
    (feeToleranceMsat route.source))

def suspenseFields (pair : CandidatePair) (ordinal : Nat) (rest : QuantitySlice) : ClaimFields where
  claimId := "pair:" ++ pairIdOf pair ordinal ++ ":implausible-fee"
  source := rest
  state := .custodySuspense
  priority := .exactNativeEvent
  reason := "transfer_fee_implausible"
  atomicBundleId := some (bundleOf pair ordinal)

def moveFields (pair : CandidatePair) (ordinal : Nat) (route : PairRoute) (spent received : QuantitySlice) :
    ClaimFields where
  claimId := "pair:" ++ pairIdOf pair ordinal ++ ":slice:" ++ toString route.sourceStart ++ ":" ++
    toString route.amountMsat
  source := spent
  target := some received
  state := .internalVerified
  priority := .exactNativeEvent
  reason := firstNonempty [pair.sourceName, "row_matched"]
  atomicBundleId := some (bundleOf pair ordinal)
  allowCrossRail := decide ((QuantityDomain.fromObservation route.source).rail ≠
    (QuantityDomain.fromObservation route.target).rail)
  transferKind := nonblank pair.kind
  transferPolicy := nonblank pair.policy
  componentId := nonblank pair.componentId

def feeFields (pair : CandidatePair) (ordinal : Nat) (route : PairRoute) (fee : QuantitySlice) : ClaimFields where
  claimId := "pair:" ++ pairIdOf pair ordinal ++ ":fee:" ++ toString (route.sourceStart + route.amountMsat) ++ ":" ++
    toString route.inferredFeeMsat
  source := fee
  state := .externalConfirmed
  priority := .exactNativeEvent
  reason := "verified_transfer_fee"
  atomicBundleId := some (bundleOf pair ordinal)
  destinationKind := some .fee

def residualFields (hash : String) (residualStart : Int) (rest : QuantitySlice) : ClaimFields where
  claimId := "implicit-wallet-delta:" ++ hash ++ ":" ++ toString residualStart
  source := rest
  state := .custodySuspense
  priority := .accountingConvention
  reason := "implicit_wallet_delta_unallocated"

/-- The rest of the source is held in suspense and both legs are blocked. -/
def suspendRest (state : PairState) (pair : CandidatePair) (ordinal : Nat) (route : PairRoute) :
    Except PyError PairState := do
  let rest ← QuantitySlice.make route.source.quantityHash route.sourceStart route.source.principalMsat
  let claim ← QuantityClaim.make (suspenseFields pair ordinal rest)
  pure { state with
    claims := state.claims ++ [claim]
    sources := state.sources.move route.source.quantityHash route.source.principalMsat
    blocked := state.blocked ++ [pair.outId, pair.inId]
    quarantines := state.quarantines ++ feeQuarantines inputs pair route }

def PairState.moving (state : PairState) (route : PairRoute) (claim : QuantityClaim) : PairState :=
  { state with
    claims := state.claims ++ [claim]
    sources := state.sources.move route.source.quantityHash (route.sourceStart + route.amountMsat)
    targets := state.targets.move route.target.quantityHash (route.targetStart + route.amountMsat)
    implicitSources :=
      if route.source.feeAttribution = .implicitWalletDelta then
        state.implicitSources ++ [(route.source.quantityHash, route.source)]
      else state.implicitSources }

def claimMove (state : PairState) (pair : CandidatePair) (ordinal : Nat) (route : PairRoute) :
    Except PyError PairState := do
  let spent ← QuantitySlice.make route.source.quantityHash route.sourceStart (route.sourceStart + route.amountMsat)
  let received ← QuantitySlice.make route.target.quantityHash route.targetStart (route.targetStart + route.amountMsat)
  let claim ← QuantityClaim.make (moveFields pair ordinal route spent received)
  pure (state.moving route claim)

/-- What was requested beyond the amount the target received is the fee of the transfer. -/
def claimFee (state : PairState) (pair : CandidatePair) (ordinal : Nat) (route : PairRoute) : Except PyError PairState :=
  if route.inferredFeeMsat ≠ 0 ∧ route.source.feeAttribution ≠ .implicitWalletDelta then do
    let feeStart := route.sourceStart + route.amountMsat
    let fee ← QuantitySlice.make route.source.quantityHash feeStart (feeStart + route.inferredFeeMsat)
    let claim ← QuantityClaim.make (feeFields pair ordinal route fee)
    pure { state with
      claims := state.claims ++ [claim]
      sources := state.sources.move route.source.quantityHash
        (state.sources.at route.source.quantityHash + route.inferredFeeMsat) }
  else .ok state

def interpretPair (state : PairState) (entry : CandidatePair × Nat) : Except PyError PairState :=
  match judgePair inputs instant state entry with
  | .skip => .ok state
  | .block ids quarantines =>
    .ok { state with blocked := state.blocked ++ ids, quarantines := state.quarantines ++ quarantines }
  | .suspend route => suspendRest inputs state entry.1 entry.2 route
  | .move route => do
    let moved ← claimMove state entry.1 entry.2 route
    claimFee moved entry.1 entry.2 route

/-- What an implicit wallet delta leaves unallocated is held in suspense. -/
def claimResidual (sources : Cursors) (claims : List QuantityClaim) (entry : String × QuantityObservation) :
    Except PyError (List QuantityClaim) :=
  let residualStart := sources.at entry.1
  if entry.2.principalMsat ≤ residualStart then .ok claims
  else do
    let rest ← QuantitySlice.make entry.1 residualStart entry.2.principalMsat
    let claim ← QuantityClaim.make (residualFields entry.1 residualStart rest)
    pure (claims ++ [claim])

structure PairCompilation where
  claims : List QuantityClaim
  blockedTransactionIds : List String
  quarantines : List PairQuarantine

def interpretPairs (entries : List (CandidatePair × Nat)) : Except PyError PairState :=
  entries.foldlM (interpretPair inputs instant) {}

def pairClaims : Except PyError PairCompilation := do
  let state ← interpretPairs inputs instant (orderedPairs inputs)
  let claims ← (sortedBy fst (items state.implicitSources)).foldlM (claimResidual state.sources) state.claims
  pure { claims, blockedTransactionIds := sortedSet state.blocked, quarantines := state.quarantines }

end

section
variable {inputs : PairInputs} {instant : String → Option Int} {state next : PairState}
  {entry : CandidatePair × Nat} {pair : CandidatePair} {ordinal : Nat} {route : PairRoute}

def Observed (inputs : PairInputs) (direction : Direction) (o : QuantityObservation) : Prop :=
  (∃ id, lookup inputs.observations id = some o) ∧ o.direction = direction

variable {o : QuantityObservation}

theorem Observed.hash_nonempty {direction : Direction} (observed : Observed inputs direction o) :
    o.quantityHash ≠ "" := by
  obtain ⟨⟨id, found⟩, -⟩ := observed
  have width := (QuantityObservation.valid_sound (inputs.valid _ (mem_of_lookup found))).hash_length
  intro empty
  rw [empty] at width
  cases width

/-- What an accepted pair takes: its two observations are there, and the amount fits both. -/
structure PairRoute.Fits (inputs : PairInputs) (state : PairState) (route : PairRoute) : Prop where
  source : Observed inputs .outbound route.source
  target : Observed inputs .inbound route.target
  sourceStart : route.sourceStart = state.sources.at route.source.quantityHash
  targetStart : route.targetStart = state.targets.at route.target.quantityHash
  positive : 0 < route.amountMsat

theorem pairEvidence_accepted {source target : QuantityObservation}
    (accepted : pairEvidence inputs instant pair = .accepted source target) :
    lookup inputs.observations pair.outId = some source ∧ lookup inputs.observations pair.inId = some target ∧
      source.direction = .outbound ∧ target.direction = .inbound := by
  unfold pairEvidence at accepted
  split at accepted
  · cases accepted
  · split at accepted
    · rename_i foundSource foundTarget
      split at accepted
      · cases accepted
      · rename_i directed
        split at accepted
        · unfold holdUntrusted at accepted
          split at accepted <;> cases accepted
        · split at accepted
          · cases accepted
          · split at accepted
            · cases accepted
            · cases accepted
              rw [not_or, not_not, not_not] at directed
              exact ⟨foundSource, foundTarget, directed⟩
    · cases accepted

theorem judgePair_route (verdict : judgePair inputs instant state entry = .suspend route ∨
      judgePair inputs instant state entry = .move route) :
    ∃ source target, pairEvidence inputs instant entry.1 = .accepted source target ∧
      route = pairRoute state entry.1 source target ∧ 0 < route.amountMsat ∧
      judgePair inputs instant state entry =
        if Implausible inputs entry.1 entry.2 route then .suspend route else .move route := by
  generalize judged : judgePair inputs instant state entry = reached at verdict ⊢
  unfold judgePair at judged
  dsimp only at judged
  split at judged
  · subst judged
    rcases verdict with other | other <;> cases other
  · subst judged
    rcases verdict with other | other <;> cases other
  · rename_i source target accepted
    refine ⟨source, target, accepted, ?_⟩
    split_ifs at judged with stopped exposed networked railed beyond
    all_goals
      subst judged
      rcases verdict with other | other <;> cases other
    · exact ⟨rfl, not_le.1 stopped, (if_pos beyond).symm⟩
    · exact ⟨rfl, not_le.1 stopped, (if_neg beyond).symm⟩

theorem judgePair_fits (verdict : judgePair inputs instant state entry = .suspend route ∨
    judgePair inputs instant state entry = .move route) : route.Fits inputs state := by
  obtain ⟨source, target, accepted, rfl, positive, -⟩ := judgePair_route verdict
  obtain ⟨foundSource, foundTarget, outbound, inbound⟩ := pairEvidence_accepted accepted
  exact ⟨⟨⟨_, foundSource⟩, outbound⟩, ⟨⟨_, foundTarget⟩, inbound⟩, rfl, rfl, positive⟩

theorem judgePair_beyond (verdict : judgePair inputs instant state entry = .suspend route) :
    Implausible inputs entry.1 entry.2 route := by
  obtain ⟨_, _, _, _, _, judged⟩ := judgePair_route (.inl verdict)
  by_contra within
  rw [if_neg within, verdict] at judged
  cases judged

theorem judgePair_within (verdict : judgePair inputs instant state entry = .move route) :
    ¬ Implausible inputs entry.1 entry.2 route := by
  obtain ⟨_, _, _, _, _, judged⟩ := judgePair_route (.inr verdict)
  intro beyond
  rw [if_pos beyond, verdict] at judged
  cases judged

theorem PairRoute.amounts (route : PairRoute) : route.amountMsat ≤ route.availableSource ∧
    route.amountMsat ≤ route.availableTarget ∧ 0 ≤ route.inferredFeeMsat ∧
      route.amountMsat + route.inferredFeeMsat ≤ max route.amountMsat route.availableSource := by
  unfold PairRoute.inferredFeeMsat PairRoute.amountMsat
  omega

theorem PairRoute.within (route : PairRoute) :
    route.sourceStart + route.amountMsat + route.inferredFeeMsat ≤ route.source.principalMsat ∧
      route.targetStart + route.amountMsat ≤ route.target.principalMsat := by
  obtain ⟨source, target, -, fee⟩ := route.amounts
  rw [max_eq_right source] at fee
  unfold PairRoute.availableSource at fee
  unfold PairRoute.availableTarget at target
  omega

/-- The claims so far tile what the cursors have passed, and none passes the principal of its observation. -/
structure Laid (inputs : PairInputs) (claims : List QuantityClaim) (sources targets : Cursors) : Prop where
  sourceTiles : ∀ hash, Tiles 0 (sourceRanges claims hash) (sources.at hash)
  targetTiles : ∀ hash, Tiles 0 (targetRanges claims hash) (targets.at hash)
  spent : ∀ claim ∈ claims, ∃ o, Observed inputs .outbound o ∧ o.quantityHash = claim.source.observationHash ∧
    claim.source.endMsat ≤ o.principalMsat
  received : ∀ claim ∈ claims, ∀ slice, claim.target = some slice → ∃ o, Observed inputs .inbound o ∧
    o.quantityHash = slice.observationHash ∧ slice.endMsat ≤ o.principalMsat

section
variable {claims : List QuantityClaim} {sources targets : Cursors} {claim : QuantityClaim} {o : QuantityObservation}

theorem Laid.start_nonneg (laid : Laid inputs claims sources targets) (hash : String) :
    0 ≤ sources.at hash ∧ 0 ≤ targets.at hash :=
  ⟨tiles_le (laid.sourceTiles hash), tiles_le (laid.targetTiles hash)⟩

variable {stop : Int}

theorem tiles_source {hash : String} (tiles : ∀ other, Tiles 0 (sourceRanges claims other) (sources.at other))
    (own : claim.source.observationHash = hash) (range : claim.source.range = (sources.at hash, stop)) (other : String) :
    Tiles 0 (sourceRanges (claims ++ [claim]) other) ((sources.move hash stop).at other) := by
  rw [sourceRanges_append, Cursors.at_move, own]
  by_cases same : hash = other
  · rw [if_pos same, if_pos same, range]
    subst same
    refine tiles_append (tiles hash) ⟨rfl, ?_, rfl⟩
    have proper := claim.source.start_lt_end
    obtain ⟨start, stop⟩ := Prod.mk.inj range
    rwa [start, stop] at proper
  · rw [if_neg same, if_neg same, append_nil]
    exact tiles other

theorem tiles_target {hash : String} {slice : QuantitySlice}
    (tiles : ∀ other, Tiles 0 (targetRanges claims other) (targets.at other)) (targeted : claim.target = some slice)
    (own : slice.observationHash = hash) (range : slice.range = (targets.at hash, stop)) (other : String) :
    Tiles 0 (targetRanges (claims ++ [claim]) other) ((targets.move hash stop).at other) := by
  rw [targetRanges_append, targetRanges_single, targeted, Option.toList_some, Cursors.at_move]
  by_cases same : hash = other
  · subst same
    have kept : [slice].filter (fun slice => decide (slice.observationHash = hash)) = [slice] := by simp [own]
    rw [kept, map_singleton, range, if_pos rfl]
    refine tiles_append (tiles hash) ⟨rfl, ?_, rfl⟩
    have proper := slice.start_lt_end
    obtain ⟨start, stop⟩ := Prod.mk.inj range
    rwa [start, stop] at proper
  · have apart : slice.observationHash ≠ other := fun equal => same (own.symm.trans equal)
    have gone : [slice].filter (fun slice => decide (slice.observationHash = other)) = [] := by simp [apart]
    rw [gone, map_nil, append_nil, if_neg same]
    exact tiles other

theorem Laid.spend (laid : Laid inputs claims sources targets) (observed : Observed inputs .outbound o)
    (own : claim.source.observationHash = o.quantityHash) (range : claim.source.range = (sources.at o.quantityHash, stop))
    (within : stop ≤ o.principalMsat) (targetless : claim.target = none) :
    Laid inputs (claims ++ [claim]) (sources.move o.quantityHash stop) targets := by
  refine ⟨tiles_source laid.sourceTiles own range, fun hash => ?_, fun other member => ?_, fun other member slice targeted => ?_⟩
  · rw [targetRanges_append, targetRanges_single, targetless, Option.toList_none, filter_nil, map_nil, append_nil]
    exact laid.targetTiles hash
  · rcases mem_append.1 member with old | new
    · exact laid.spent other old
    · rw [mem_singleton.1 new]
      exact ⟨o, observed, own.symm, (congrArg snd range).trans_le within⟩
  · rcases mem_append.1 member with old | new
    · exact laid.received other old slice targeted
    · rw [mem_singleton.1 new, targetless] at targeted
      cases targeted

theorem Laid.move (laid : Laid inputs claims sources targets) (observed : Observed inputs .outbound o)
    (own : claim.source.observationHash = o.quantityHash) (range : claim.source.range = (sources.at o.quantityHash, stop))
    (within : stop ≤ o.principalMsat) {inbound : QuantityObservation} (arrived : Observed inputs .inbound inbound)
    {slice : QuantitySlice} {last : Int} (targeted : claim.target = some slice)
    (named : slice.observationHash = inbound.quantityHash) (bounds : slice.range = (targets.at inbound.quantityHash, last))
    (room : last ≤ inbound.principalMsat) :
    Laid inputs (claims ++ [claim]) (sources.move o.quantityHash stop) (targets.move inbound.quantityHash last) := by
  refine ⟨tiles_source laid.sourceTiles own range, tiles_target laid.targetTiles targeted named bounds,
    fun other member => ?_, fun other member into found => ?_⟩
  · rcases mem_append.1 member with old | new
    · exact laid.spent other old
    · rw [mem_singleton.1 new]
      exact ⟨o, observed, own.symm, (congrArg snd range).trans_le within⟩
  · rcases mem_append.1 member with old | new
    · exact laid.received other old into found
    · rw [mem_singleton.1 new, targeted] at found
      cases found
      exact ⟨inbound, arrived, named.symm, (congrArg snd bounds).trans_le room⟩

end

structure PairState.Laid (inputs : PairInputs) (state : PairState) : Prop where
  laid : PairClaims.Laid inputs state.claims state.sources state.targets
  implicit : ∀ entry ∈ state.implicitSources, Observed inputs .outbound entry.2 ∧ entry.2.quantityHash = entry.1

theorem isBlank_append {c : Char} {s : String} {text : String} (solid : isSpace c = false) :
    isBlank (String.ofList (c :: s.toList) ++ text) = false := by
  simp [isBlank, String.toList_append, solid]

theorem bundleOf_solid (pair : CandidatePair) (ordinal : Nat) : isBlank (bundleOf pair ordinal) = false := by
  unfold bundleOf
  split
  · exact isBlank_append (c := 'p') (s := "air-group:") (by decide)
  · exact isBlank_append (c := 'p') (s := "air:") (by decide)

theorem pairText_ne_empty (text : String) : "pair:" ++ text ≠ "" := append_ne_empty (by decide)

theorem suspenseFields_constructible (pair : CandidatePair) (ordinal : Nat) (rest : QuantitySlice) :
    (suspenseFields pair ordinal rest).postInit = .ok () := by
  refine ClaimFields.suspense_constructible (append_ne_empty (pairText_ne_empty _))
    (by decide : "transfer_fee_implausible" ≠ "") rfl rfl rfl ⟨rfl, rfl⟩ fun b bundled => ?_
  cases bundled
  exact bundleOf_solid pair ordinal

theorem moveFields_constructible (pair : CandidatePair) (ordinal : Nat) (route : PairRoute) {spent received : QuantitySlice}
    (conserved : received.amountMsat = spent.amountMsat) :
    (moveFields pair ordinal route spent received).postInit = .ok () := by
  have named : (moveFields pair ordinal route spent received).claimId ≠ "" :=
    append_ne_empty (append_ne_empty (append_ne_empty (append_ne_empty (pairText_ne_empty _))))
  have reasoned : firstNonempty [pair.sourceName, "row_matched"] ≠ "" := by
    by_cases blank : pair.sourceName = "" <;> simp [firstNonempty, blank]
  have solid := bundleOf_solid pair ordinal
  simp only [ClaimFields.postInit, bind_unit_ok, raiseIf_ok]
  refine ⟨not_or.2 ⟨named, reasoned⟩, ?_, ?_, ?_, ?_, ?_, ?_, ?_, ?_, ?_, ?_⟩
  · exact not_not.2 (by decide : QuantityState.internalVerified ∈ QuantityState.claimStates)
  · exact not_not.2 (by decide : ClaimPriority.exactNativeEvent ∈ statePriorities .internalVerified)
  all_goals simp [moveFields, QuantityState.targetStates, conserved, solid]

theorem feeFields_constructible (pair : CandidatePair) (ordinal : Nat) (route : PairRoute) (fee : QuantitySlice) :
    (feeFields pair ordinal route fee).postInit = .ok () := by
  have named : (feeFields pair ordinal route fee).claimId ≠ "" :=
    append_ne_empty (append_ne_empty (append_ne_empty (append_ne_empty (pairText_ne_empty _))))
  have reasoned : "verified_transfer_fee" ≠ "" := by decide
  have solid := bundleOf_solid pair ordinal
  simp only [ClaimFields.postInit, bind_unit_ok, raiseIf_ok]
  refine ⟨not_or.2 ⟨named, reasoned⟩, ?_, ?_, ?_, ?_, ?_, ?_, ?_, ?_, ?_, ?_⟩
  · exact not_not.2 (by decide : QuantityState.externalConfirmed ∈ QuantityState.claimStates)
  · exact not_not.2 (by decide : ClaimPriority.exactNativeEvent ∈ statePriorities .externalConfirmed)
  all_goals simp [feeFields, QuantityState.targetStates, solid]

theorem residualFields_constructible (hash : String) (residualStart : Int) (rest : QuantitySlice) :
    (residualFields hash residualStart rest).postInit = .ok () := by
  refine ClaimFields.suspense_constructible
    (append_ne_empty (append_ne_empty (append_ne_empty (by decide : "implicit-wallet-delta:" ≠ ""))))
    (by decide : "implicit_wallet_delta_unallocated" ≠ "") rfl rfl rfl ⟨rfl, rfl⟩ fun b bundled => ?_
  cases bundled

def Slices (slice : QuantitySlice) (o : QuantityObservation) (low high : Int) : Prop :=
  slice.observationHash = o.quantityHash ∧ slice.range = (low, high)

theorem slice_made {direction : Direction} (observed : Observed inputs direction o) {low high : Int}
    (nonneg : 0 ≤ low) (proper : low < high) :
    ∃ slice, QuantitySlice.make o.quantityHash low high = .ok slice ∧ Slices slice o low high := by
  obtain ⟨slice, built⟩ := QuantitySlice.make_total observed.hash_nonempty nonneg proper
  exact ⟨slice, built, QuantitySlice.make_ok.1 built⟩

theorem tolerance_positive (o : QuantityObservation) : 0 < feeToleranceMsat o := by
  unfold feeToleranceMsat
  omega

theorem suspendRest_ok (fits : route.Fits inputs state) (start : 0 ≤ route.sourceStart)
    (missing : 0 < route.unclaimedAfterPair) :
    ∃ claim : QuantityClaim, Slices claim.source route.source route.sourceStart route.source.principalMsat ∧
      claim.target = none ∧ suspendRest inputs state pair ordinal route = .ok { state with
        claims := state.claims ++ [claim]
        sources := state.sources.move route.source.quantityHash route.source.principalMsat
        blocked := state.blocked ++ [pair.outId, pair.inId]
        quarantines := state.quarantines ++ feeQuarantines inputs pair route } := by
  have proper : route.sourceStart < route.source.principalMsat := by
    have positive := fits.positive
    have fee := route.amounts.2.2.1
    unfold PairRoute.unclaimedAfterPair PairRoute.availableSource at missing
    omega
  obtain ⟨rest, built, sliced⟩ := slice_made fits.source start proper
  obtain ⟨claim, made⟩ := QuantityClaim.make_total (suspenseFields_constructible pair ordinal rest)
  have fields := QuantityClaim.make_ok.1 made
  have source : claim.source = rest := congrArg ClaimFields.source fields
  refine ⟨claim, source ▸ sliced, congrArg ClaimFields.target fields, ?_⟩
  exact bind_ok.2 ⟨rest, built, bind_ok.2 ⟨claim, made, rfl⟩⟩

theorem PairState.moving_source (state : PairState) (route : PairRoute) (claim : QuantityClaim) :
    (state.moving route claim).sources.at route.source.quantityHash = route.sourceStart + route.amountMsat := by
  unfold PairState.moving
  rw [Cursors.at_move, if_pos rfl]

theorem claimMove_ok (pair : CandidatePair) (ordinal : Nat) (fits : route.Fits inputs state)
    (start : 0 ≤ route.sourceStart ∧ 0 ≤ route.targetStart) :
    ∃ claim : QuantityClaim, ∃ received : QuantitySlice,
      Slices claim.source route.source route.sourceStart (route.sourceStart + route.amountMsat) ∧
      claim.target = some received ∧
      Slices received route.target route.targetStart (route.targetStart + route.amountMsat) ∧
      claimMove state pair ordinal route = .ok (state.moving route claim) := by
  have positive := fits.positive
  obtain ⟨spent, built, sliced⟩ := slice_made fits.source start.1 (lt_add_of_pos_right route.sourceStart positive)
  obtain ⟨received, built', sliced'⟩ := slice_made fits.target start.2 (lt_add_of_pos_right route.targetStart positive)
  have conserved : received.amountMsat = spent.amountMsat := by
    obtain ⟨low, high⟩ := Prod.mk.inj sliced.2
    obtain ⟨low', high'⟩ := Prod.mk.inj sliced'.2
    unfold QuantitySlice.amountMsat
    omega
  obtain ⟨claim, made⟩ := QuantityClaim.make_total (moveFields_constructible pair ordinal route conserved)
  have fields := QuantityClaim.make_ok.1 made
  have source : claim.source = spent := congrArg ClaimFields.source fields
  refine ⟨claim, received, source ▸ sliced, congrArg ClaimFields.target fields, sliced', ?_⟩
  exact bind_ok.2 ⟨spent, built, bind_ok.2 ⟨received, built', bind_ok.2 ⟨claim, made, rfl⟩⟩⟩

theorem claimFee_ok (pair : CandidatePair) (ordinal : Nat) {moved : PairState}
    (observed : Observed inputs .outbound route.source)
    (start : 0 ≤ route.sourceStart + route.amountMsat)
    (cursor : moved.sources.at route.source.quantityHash = route.sourceStart + route.amountMsat) :
    ((route.inferredFeeMsat = 0 ∨ route.source.feeAttribution = .implicitWalletDelta) ∧
        claimFee moved pair ordinal route = .ok moved) ∨
      ∃ claim : QuantityClaim, Slices claim.source route.source (moved.sources.at route.source.quantityHash)
          (moved.sources.at route.source.quantityHash + route.inferredFeeMsat) ∧ claim.target = none ∧
        claimFee moved pair ordinal route = .ok { moved with
          claims := moved.claims ++ [claim]
          sources := moved.sources.move route.source.quantityHash
            (moved.sources.at route.source.quantityHash + route.inferredFeeMsat) } := by
  unfold claimFee
  split
  · rename_i inferred
    right
    have nonneg := route.amounts.2.2.1
    obtain ⟨fee, built, sliced⟩ := slice_made observed start
      (lt_add_of_pos_right (route.sourceStart + route.amountMsat) (lt_of_le_of_ne nonneg (Ne.symm inferred.1)))
    obtain ⟨claim, made⟩ := QuantityClaim.make_total (feeFields_constructible pair ordinal route fee)
    have fields := QuantityClaim.make_ok.1 made
    have source : claim.source = fee := congrArg ClaimFields.source fields
    refine ⟨claim, ?_, congrArg ClaimFields.target fields, ?_⟩
    · rw [source, cursor]
      exact sliced
    · exact bind_ok.2 ⟨fee, built, bind_ok.2 ⟨claim, made, rfl⟩⟩
  · rename_i kept
    left
    refine ⟨?_, rfl⟩
    by_contra both
    rw [not_or] at both
    exact kept both

theorem Laid.spendSlice {claims : List QuantityClaim} {sources targets : Cursors} {claim : QuantityClaim}
    {low high : Int} (laid : Laid inputs claims sources targets)
    (observed : Observed inputs .outbound o) (sliced : Slices claim.source o low high)
    (cursor : low = sources.at o.quantityHash)
    (within : high ≤ o.principalMsat) (targetless : claim.target = none) :
    Laid inputs (claims ++ [claim]) (sources.move o.quantityHash high) targets :=
  laid.spend observed sliced.1 (cursor ▸ sliced.2) within targetless

theorem interpretPair_laid (instant : String → Option Int) (laid : state.Laid inputs) (entry : CandidatePair × Nat) :
    ∃ next, interpretPair inputs instant state entry = .ok next ∧ next.Laid inputs := by
  unfold interpretPair
  cases verdict : judgePair inputs instant state entry with
  | skip => exact ⟨state, rfl, laid⟩
  | block ids quarantines => exact ⟨_, rfl, laid.laid, laid.implicit⟩
  | suspend route =>
    have fits := judgePair_fits (.inl verdict)
    have start : 0 ≤ route.sourceStart := fits.sourceStart ▸ (laid.laid.start_nonneg _).1
    have missing := (tolerance_positive route.source).trans (judgePair_beyond verdict).2.2.2
    obtain ⟨claim, sliced, targetless, run⟩ := suspendRest_ok fits start missing
    exact ⟨_, run, laid.laid.spendSlice fits.source sliced fits.sourceStart le_rfl targetless, laid.implicit⟩
  | move route =>
    have fits := judgePair_fits (.inr verdict)
    have start : 0 ≤ route.sourceStart ∧ 0 ≤ route.targetStart :=
      ⟨fits.sourceStart ▸ (laid.laid.start_nonneg _).1, fits.targetStart ▸ (laid.laid.start_nonneg _).2⟩
    obtain ⟨sourceRoom, targetRoom⟩ := route.within
    have fee := route.amounts.2.2.1
    have positive := fits.positive
    obtain ⟨claim, received, sliced, targeted, sliced', run⟩ := claimMove_ok entry.1 entry.2 fits start
    have moved : (state.moving route claim).Laid inputs := by
      refine ⟨laid.laid.move fits.source sliced.1 (fits.sourceStart ▸ sliced.2) (by omega) fits.target targeted sliced'.1
        (fits.targetStart ▸ sliced'.2) targetRoom, fun other member => ?_⟩
      unfold PairState.moving at member
      dsimp only at member
      split at member
      · rcases mem_append.1 member with old | new
        · exact laid.implicit other old
        · rw [mem_singleton.1 new]
          exact ⟨fits.source, rfl⟩
      · exact laid.implicit other member
    have cursor := state.moving_source route claim
    rcases claimFee_ok entry.1 entry.2 fits.source (by omega) cursor with ⟨-, kept⟩ | ⟨fee, feeSliced, targetless, charged⟩
    · exact ⟨_, bind_ok.2 ⟨_, run, kept⟩, moved⟩
    · refine ⟨_, bind_ok.2 ⟨_, run, charged⟩, moved.laid.spendSlice fits.source feeSliced rfl ?_ targetless, moved.implicit⟩
      rw [cursor]
      omega

theorem interpretPairs_laid (inputs : PairInputs) (instant : String → Option Int) (entries : List (CandidatePair × Nat)) :
    ∃ state, interpretPairs inputs instant entries = .ok state ∧ state.Laid inputs := by
  have start : PairState.Laid inputs {} :=
    ⟨⟨fun _ => rfl, fun _ => rfl, fun claim member => absurd member not_mem_nil,
      fun claim member => absurd member not_mem_nil⟩, fun entry member => absurd member not_mem_nil⟩
  exact foldlM_prefix (fun _ (state : PairState) => state.Laid inputs) start
    fun _ entry _ _ _ laid => interpretPair_laid instant laid entry

/-- The claims once the residuals of some sources were added, with the cursors that they would leave. -/
structure Residuals (inputs : PairInputs) (state : PairState) (before : List (String × QuantityObservation))
    (claims : List QuantityClaim) (cursors : Cursors) : Prop where
  laid : Laid inputs claims cursors state.targets
  others : ∀ hash, hash ∉ before.map fst → cursors.at hash = state.sources.at hash
  filled : ∀ entry ∈ before, cursors.at entry.1 = max (state.sources.at entry.1) entry.2.principalMsat

theorem claimResidual_laid (laid : state.Laid inputs) {before : List (String × QuantityObservation)}
    {claims : List QuantityClaim} {cursors : Cursors} (residuals : Residuals inputs state before claims cursors)
    {entry : String × QuantityObservation} (fresh : entry.1 ∉ before.map fst)
    (member : entry ∈ state.implicitSources) :
    ∃ next, claimResidual state.sources claims entry = .ok next ∧
      ∃ cursors, Residuals inputs state (before ++ [entry]) next cursors := by
  obtain ⟨hash, o⟩ := entry
  obtain ⟨observed, own⟩ := laid.implicit _ member
  have here := residuals.others hash fresh
  unfold claimResidual
  dsimp only at own fresh ⊢
  split
  · rename_i full
    refine ⟨claims, rfl, cursors, residuals.laid, fun other outside => residuals.others other fun old => outside ?_, ?_⟩
    · rw [map_append]
      exact mem_append_left _ old
    · intro other present
      rcases mem_append.1 present with old | new
      · exact residuals.filled other old
      · rw [mem_singleton.1 new, max_eq_left full]
        exact here
  · rename_i left
    have left := not_le.1 left
    have start := (residuals.laid.start_nonneg hash).1
    rw [here] at start
    obtain ⟨rest, built, sliced⟩ := slice_made observed start left
    rw [own] at built
    obtain ⟨claim, made⟩ := QuantityClaim.make_total (residualFields_constructible hash (state.sources.at hash) rest)
    have fields := QuantityClaim.make_ok.1 made
    have source : claim.source = rest := congrArg ClaimFields.source fields
    have cursor : state.sources.at hash = cursors.at o.quantityHash := by rw [own, here]
    refine ⟨_, bind_ok.2 ⟨rest, built, bind_ok.2 ⟨claim, made, rfl⟩⟩, cursors.move o.quantityHash o.principalMsat,
      residuals.laid.spendSlice observed (source ▸ sliced) cursor le_rfl (congrArg ClaimFields.target fields), ?_, ?_⟩
    · intro other outside
      rw [map_append, mem_append, not_or] at outside
      have apart : o.quantityHash ≠ other := by
        rintro rfl
        exact outside.2 (mem_singleton.2 own)
      rw [Cursors.at_move, if_neg apart]
      exact residuals.others other outside.1
    · intro other present
      rw [Cursors.at_move]
      rcases mem_append.1 present with old | new
      · have apart : o.quantityHash ≠ other.1 := by
          intro same
          exact fresh (own ▸ same ▸ mem_map_of_mem old)
        rw [if_neg apart]
        exact residuals.filled other old
      · rw [mem_singleton.1 new, if_pos own, max_eq_right left.le]

theorem residuals_laid (laid : state.Laid inputs) : ∃ claims cursors,
    (sortedBy fst (items state.implicitSources)).foldlM (claimResidual state.sources) state.claims = .ok claims ∧
      Residuals inputs state (sortedBy fst (items state.implicitSources)) claims cursors := by
  have distinct : ((sortedBy fst (items state.implicitSources)).map fst).Nodup :=
    ((sortedBy_perm fst (items state.implicitSources)).map fst).nodup_iff.2 (Lib.Ranking.items_nodup _)
  have start : ∃ cursors, Residuals inputs state [] state.claims cursors :=
    ⟨state.sources, laid.laid, fun _ _ => rfl, fun entry member => absurd member not_mem_nil⟩
  have step : ∀ before entry after claims,
      sortedBy fst (items state.implicitSources) = before ++ entry :: after →
      (∃ cursors, Residuals inputs state before claims cursors) →
      ∃ next, claimResidual state.sources claims entry = .ok next ∧
        ∃ cursors, Residuals inputs state (before ++ [entry]) next cursors := by
    rintro before entry after claims whole ⟨cursors, residuals⟩
    have listed : entry ∈ sortedBy fst (items state.implicitSources) := by
      rw [whole]
      exact mem_append_right _ (.head _)
    have member : entry ∈ state.implicitSources := mem_of_lookup (mem_items.1 (mem_sortedBy.1 listed))
    have fresh : entry.1 ∉ before.map fst := by
      rw [whole, map_append, map_cons] at distinct
      exact fun old => (nodup_append.1 distinct).2.2 _ old _ (.head _) rfl
    exact claimResidual_laid laid residuals fresh member
  obtain ⟨claims, run, cursors, residuals⟩ := foldlM_prefix
    (fun before claims => ∃ cursors, Residuals inputs state before claims cursors) start step
  exact ⟨claims, cursors, run, residuals⟩

theorem pairClaims_laid (inputs : PairInputs) (instant : String → Option Int) : ∃ state claims cursors,
    interpretPairs inputs instant (orderedPairs inputs) = .ok state ∧ state.Laid inputs ∧
      Residuals inputs state (sortedBy fst (items state.implicitSources)) claims cursors ∧
      pairClaims inputs instant = .ok ⟨claims, sortedSet state.blocked, state.quarantines⟩ := by
  obtain ⟨state, run, laid⟩ := interpretPairs_laid inputs instant (orderedPairs inputs)
  obtain ⟨claims, cursors, run', residuals⟩ := residuals_laid laid
  exact ⟨state, claims, cursors, run, laid, residuals, bind_ok.2 ⟨state, run, bind_ok.2 ⟨claims, run', rfl⟩⟩⟩

end

/-- The slice is a part of an observation in the direction it is used. -/
def Inside (inputs : PairInputs) (direction : Direction) (slice : QuantitySlice) : Prop :=
  ∃ o, Observed inputs direction o ∧ o.quantityHash = slice.observationHash ∧ 0 ≤ slice.startMsat ∧
    slice.endMsat ≤ o.principalMsat

/-- Recorded pairs compile to disjoint slices of their sources and of their targets, whatever the pairs ask for. -/
theorem pair_claims_disjoint (inputs : PairInputs) (instant : String → Option Int) :
    ∃ result, pairClaims inputs instant = .ok result ∧
      (∀ hash, (sourceRanges result.claims hash).Pairwise (fun r s => r.2 ≤ s.1) ∧
        (targetRanges result.claims hash).Pairwise (fun r s => r.2 ≤ s.1)) ∧
      ∀ claim ∈ result.claims, Inside inputs .outbound claim.source ∧
        ∀ slice, claim.target = some slice → Inside inputs .inbound slice := by
  obtain ⟨state, claims, cursors, -, -, residuals, compiled⟩ := pairClaims_laid inputs instant
  refine ⟨_, compiled, fun hash => ?_, fun claim member => ⟨?_, ?_⟩⟩
  · exact ⟨tiles_pairwise (residuals.laid.sourceTiles hash), tiles_pairwise (residuals.laid.targetTiles hash)⟩
  · obtain ⟨o, observed, own, within⟩ := residuals.laid.spent claim member
    exact ⟨o, observed, own, claim.source.start_nonneg, within⟩
  · intro slice targeted
    obtain ⟨o, observed, own, within⟩ := residuals.laid.received claim member slice targeted
    exact ⟨o, observed, own, slice.start_nonneg, within⟩

end Kassiber.Custody.PairClaims

import Kassiber.Lib.Dict
import Kassiber.Lib.Json
import Kassiber.Custody.Quantity

/-!
Suggested custody gaps become holds on their observed boundaries, never an edge between them.
-/

namespace Kassiber.Custody
open Lib.Outcome Lib.Dict Lib.Sorting Lib.Document

/-- A suggestion that missing custody history links the sources to the returns. -/
structure CustodyGapCandidate where
  gapId : String
  profileId : String
  asset : String
  protocolChain : String
  network : String
  sourceIds : List String
  returnIds : List String
  sourceWalletIds : List String
  destinationWalletIds : List String
  sourceTotalMsat : Int
  sourceFeeMsat : Int
  sourceDebitMsat : Int
  returnTotalMsat : Int
  retainedMsat : Int
  residualMsat : Int
  excessMsat : Int
  coveragePpm : Int
  startedAt : String
  endedAt : String
  reasonCodes : List String
  promotionEligible : Bool := false
  competitorScoreMargin : Option Int := none
  conflictSetId : String := ""
  conflictSize : Int := 1

structure CustodyGapSearchResult where
  accountingCandidates : List CustodyGapCandidate
  searchComplete : Bool
  blockingSourceIds : List String := []

structure CustodyGapHold where
  holdId : String
  gapId : String
  transactionId : String
  direction : Direction
  quantity : QuantitySlice
  evidenceDetailHash : String

structure GapCandidateHoldCompilation where
  gapId : String
  holds : List CustodyGapHold := []
  retainedMsat : Int := 0
  residualMsat : Int := 0
  excessMsat : Int := 0

section
variable (sha256 : String → String)

def custodyGapId (profileId asset : String) (sourceIds returnIds : List String) : Except PyError String := do
  raiseIf (profileId = "" ∨ asset = "" ∨ sourceIds = [] ∨ returnIds = [])
    (.valueError "custody gap ids require profile, asset, source, and return ids")
  let payload := "\x1f".intercalate ([profileId, asset] ++ sortedBy id sourceIds ++ ["->"] ++ sortedBy id returnIds)
  pure ("cg_" ++ String.ofList ((sha256 payload).toList.take 24))

def candidateFingerprint (c : CustodyGapCandidate) : String :=
  let texts (items : List String) : Json := .list (items.map .text)
  sha256 (Json.encode true (.object
    [("schema_version", .number 2), ("gap_id", .text c.gapId), ("profile_id", .text c.profileId),
      ("asset", .text c.asset), ("protocol_chain", .text c.protocolChain), ("network", .text c.network),
      ("source_ids", texts c.sourceIds), ("return_ids", texts c.returnIds),
      ("source_wallet_ids", texts c.sourceWalletIds), ("destination_wallet_ids", texts c.destinationWalletIds),
      ("source_total_msat", .number c.sourceTotalMsat), ("source_fee_msat", .number c.sourceFeeMsat),
      ("source_debit_msat", .number c.sourceDebitMsat), ("return_total_msat", .number c.returnTotalMsat),
      ("retained_msat", .number c.retainedMsat), ("residual_msat", .number c.residualMsat),
      ("excess_msat", .number c.excessMsat), ("started_at", .text c.startedAt), ("ended_at", .text c.endedAt),
      ("promotion_eligible", .bool c.promotionEligible),
      ("competitor_score_margin", match c.competitorScoreMargin with
        | none => .null
        | some margin => .number margin),
      ("conflict_set_id", .text c.conflictSetId), ("conflict_size", .number c.conflictSize),
      ("reason_codes", texts c.reasonCodes)]))

/-- One boundary observation of a candidate, under its own transaction id. -/
def candidateObservation (observations : List (String × QuantityObservation)) (direction : Direction)
    (transactionId : String) : Except PyError QuantityObservation :=
  match lookup observations transactionId with
  | none => .error (.valueError "candidate references a missing canonical observation")
  | some o => do
    raiseIf (¬o.Valid) (.valueError "candidate references an invalid canonical observation")
    raiseIf (o.transactionId ≠ transactionId)
      (.valueError "observation mapping key does not match transaction identity")
    raiseIf (o.direction ≠ direction) (.valueError "candidate observation has the wrong direction")
    pure o

def candidateObservations (observations : List (String × QuantityObservation)) (direction : Direction)
    (transactionIds : List String) : Except PyError (List QuantityObservation) := do
  raiseIf (transactionIds = [] ∨ transactionIds ≠ sortedBy id transactionIds)
    (.valueError "candidate transaction ids must be non-empty and canonically ordered")
  raiseIf (¬transactionIds.Nodup) (.valueError "candidate transaction ids must be unique")
  transactionIds.mapM (candidateObservation observations direction)

def candidateQuantities (sources returns : List QuantityObservation) : Except PyError (List Int) := do
  let sourceTotal := (sources.map (·.principalMsat)).sum
  let returnTotal := (returns.map (·.principalMsat)).sum
  let retained := min sourceTotal returnTotal
  raiseIf (sourceTotal = 0) .zeroDivisionError
  pure
    [sourceTotal, (sources.map (·.feeMsat)).sum, (sources.map fun o => -o.walletDeltaMsat).sum, returnTotal, retained,
      sourceTotal - retained, returnTotal - retained, (retained * 1000000).fdiv sourceTotal]

def validateCandidate (c : CustodyGapCandidate) (sources returns : List QuantityObservation) : Except PyError Unit := do
  let observations := sources ++ returns
  raiseIf (∃ id ∈ c.sourceIds, id ∈ c.returnIds)
    (.valueError "candidate source and return observations must be disjoint")
  raiseIf (c.profileId = "") (.valueError "candidate profile scope must be non-empty")
  raiseIf (sortedSet (observations.map (·.profileId)) ≠ [c.profileId])
    (.valueError "candidate profile scope does not match every observation")
  let expected ← custodyGapId sha256 c.profileId c.asset c.sourceIds c.returnIds
  raiseIf (c.gapId ≠ expected) (.valueError "candidate identity does not match its boundary transactions")
  raiseIf (¬(observations.map (·.quantityHash)).Nodup)
    (.valueError "candidate boundary contains duplicate canonical quantity hashes")
  raiseIf (sortedSet (observations.map (·.asset)) ≠ [c.asset])
    (.valueError "candidate asset does not match every observation")
  raiseIf ((sortedSet (observations.map (·.eventKey.chain))).length ≠ 1 ∨
      (sortedSet (observations.map (·.eventKey.network))).length ≠ 1)
    (.valueError "candidate observations cross chain or network scope")
  raiseIf (sortedSet (sources.map (·.walletId)) ≠ c.sourceWalletIds ∨
      sortedSet (returns.map (·.walletId)) ≠ c.destinationWalletIds)
    (.valueError "candidate wallet scope does not match canonical observations")
  let quantities ← candidateQuantities sources returns
  raiseIf (quantities ≠ [c.sourceTotalMsat, c.sourceFeeMsat, c.sourceDebitMsat, c.returnTotalMsat, c.retainedMsat,
      c.residualMsat, c.excessMsat, c.coveragePpm])
    (.valueError "candidate quantities do not match canonical observations")

def candidateHold (gapId : String) (o : QuantityObservation) : Except PyError CustodyGapHold := do
  let quantity ← QuantitySlice.make o.quantityHash 0 o.principalMsat
  pure
    { holdId := "gap-hold:" ++ gapId ++ ":" ++ o.quantityHash, gapId, transactionId := o.transactionId
      direction := o.direction, quantity, evidenceDetailHash := o.evidenceDetailHash }

def compileGapCandidateHolds (c : CustodyGapCandidate) (observations : List (String × QuantityObservation)) :
    Except PyError GapCandidateHoldCompilation :=
  if c.promotionEligible = false then .ok { gapId := c.gapId }
  else do
    let sources ← candidateObservations observations .outbound c.sourceIds
    let returns ← candidateObservations observations .inbound c.returnIds
    validateCandidate sha256 c sources returns
    let holds ← ((sources ++ returns).filter fun o => 0 < o.principalMsat).mapM (candidateHold c.gapId)
    pure
      { gapId := c.gapId, holds, retainedMsat := c.retainedMsat, residualMsat := c.residualMsat
        excessMsat := c.excessMsat }

end

end Kassiber.Custody

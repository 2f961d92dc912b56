import Kassiber.Lib.UnionFind
import Kassiber.Custody.Canonical
import Kassiber.Custody.GapHolds

/-!
The search for missing custody history: outbound legs are grouped, later inbound legs of the same scope
are gathered under several ceilings, and every plausible pair of groups becomes a scored suggestion.
-/

namespace Kassiber.Custody.Gaps
open Lib.Dict Lib.Sorting Lib.UnionFind
open Prod (fst snd)

/-- A transaction row as the search reads it. Stored JSON and the timestamp are given as read. -/
structure GapRow extends LedgerRow where
  walletId : String := ""
  walletLabel : String := ""
  excluded : Bool := false
  /-- The parsed timestamp in microseconds. -/
  moment : Option Int := none
  kindOverride : Option String := none
  privacyBoundary : String := ""
  configRole : String := ""
  configSection : String := ""
  samouraiRole : String := ""
  samouraiSection : String := ""

structure Leg where
  id : String
  profileId : String
  walletId : String
  walletLabel : String
  occurredAt : String
  moment : Int
  direction : Direction
  asset : String
  chain : String
  network : String
  principalMsat : Int
  feeMsat : Int
  debitMsat : Int
  signalCodes : List String
  disqualifierCodes : List String
  named : profileId ≠ "" ∧ asset ≠ ""
  positive : 0 < principalMsat

def privacyBoundaries : List String := ["coinjoin", "payjoin", "whirlpool"]

def samouraiWalletKinds : List String := ["samourai", "samourai-whirlpool", "whirlpool"]

def samouraiSections : List String := ["deposit", "badbank", "premix", "postmix", "ricochet"]

def samouraiTransactionKinds : List String :=
  ["samourai_deposit", "samourai_tx0", "samourai_premix", "samourai_postmix", "samourai_badbank", "whirlpool_tx0",
    "whirlpool_mix", "premix", "postmix", "badbank", "coinjoin"]

def externalOriginKinds : List String := ["income", "revenue", "sale", "sell", "exchange_buy", "customer_payment"]

def inboundKinds : List String :=
  ["buy", "airdrop", "hardfork", "hard_fork", "income", "interest", "lending_interest", "mining", "mining_reward",
    "routing_income", "staking", "wages"]

def normalizedTransactionKind (row : GapRow) : String :=
  let kind := match row.kindOverride with
    | some text => if text = "" then row.kind else some text
    | none => row.kind
  match kind with
  | none => ""
  | some text =>
    String.ofList ((strip text).toLower.toList.map fun c => if c = '-' ∨ c = ' ' then '_' else c)

def samouraiPolicy (role sect : String) : Bool :=
  (strip role).toLower ∈ ["parent", "child"] && (strip sect).toLower ∈ samouraiSections

def externalOrigin : String := "structured_external_origin"

def structuredEvidenceCodes (row : GapRow) : List String × List String :=
  let economicKind := normalizedTransactionKind row
  let signals :=
    (if (strip row.privacyBoundary).toLower ∈ privacyBoundaries then ["structured_privacy_boundary"] else []) ++
    (if (strip row.walletKind).toLower ∈ samouraiWalletKinds then ["structured_samourai_wallet"] else []) ++
    (if (strip (row.kind.getD "")).toLower ∈ samouraiTransactionKinds then ["structured_samourai_transaction"]
      else []) ++
    (if samouraiPolicy row.configRole row.configSection || samouraiPolicy row.samouraiRole row.samouraiSection then
      ["structured_samourai_policy"] else [])
  let disqualifiers :=
    if economicKind ∈ externalOriginKinds ∨ (row.direction = .inbound ∧ economicKind ∈ inboundKinds) then
      [externalOrigin] else []
  (sortedSet signals, sortedSet disqualifiers)

section
variable (sha256 : String → String) (iso : Int → String)

/-- The leg a row contributes; rows that are ignored, malformed or without principal contribute none. -/
def normalizeLeg (ignored : List String) (row : GapRow) : Option Leg :=
  let rowId := strip row.id
  let profileId := strip row.profileId
  let walletId := strip row.walletId
  let asset := (strip row.asset).toUpper
  if rowId = "" ∨ rowId ∈ ignored ∨ row.excluded then none
  else if ¬(row.direction = .outbound ∨ row.direction = .inbound) then none
  else match row.moment with
    | none => none
    | some moment =>
      if named : profileId ≠ "" ∧ asset ≠ "" then
        if walletId = "" ∨ row.amount ≤ 0 ∨ row.fee < 0 then none
        else
          let boundary := normalizeBoundaryAmounts row.direction row.amount
            (if row.direction = .outbound then row.fee else 0) row.amountIncludesFee
          if positive : 0 < boundary.principalMsat then
            match resolveProtocolScope row.toLedgerRow with
            | .error _ => none
            | .ok scope =>
              some
                { id := rowId, profileId, walletId
                  walletLabel := if row.walletLabel = "" then walletId else row.walletLabel
                  occurredAt := iso moment, moment, direction := row.direction, asset
                  chain := scope.protocolChain, network := scope.network
                  principalMsat := boundary.principalMsat, feeMsat := boundary.feeMsat
                  debitMsat := boundary.walletMovementMsat
                  signalCodes := (structuredEvidenceCodes row).1
                  disqualifierCodes := (structuredEvidenceCodes row).2, named, positive }
          else none
      else none

def normalizedLegs (ignored : List String) (rows : List GapRow) : List Leg := rows.filterMap (normalizeLeg iso ignored)

def Leg.sortKey (leg : Leg) : Int ×ₗ String := toLex (leg.moment, leg.id)

def Leg.scope (leg : Leg) : String ×ₗ String ×ₗ String ×ₗ String :=
  toLex (leg.profileId, toLex (leg.asset, toLex (leg.chain, leg.network)))

def groupIds (group : List Leg) : List String := sortedBy id (group.map (·.id))

def total (group : List Leg) : Int := (group.map (·.principalMsat)).sum

def wholeSeconds (span : Int) : Int := span.tdiv 1000000

structure Limits where
  minCoveragePpm : Nat := 800000
  maxExcessPpm : Nat := 250000
  maxInputRows : Nat := 50000
  maxSourceLegs : Nat := 3
  maxReturnLegs : Nat := 16
  maxAggregateReturnLegs : Nat := 256
  maxSourceGroups : Nat := 256
  maxReturnPool : Nat := 512
  beamWidth : Nat := 48
  maxReturnGroupsPerSource : Nat := 24
  maxCandidates : Nat := 250
  returnEraGapSeconds : Nat := 180 * 86400
  promotionScoreMargin : Nat := 75
  coverage : 1 ≤ minCoveragePpm ∧ minCoveragePpm ≤ 1000000 := by decide
  rows : 1 ≤ maxInputRows := by decide
  sourceLegs : 1 ≤ maxSourceLegs := by decide
  returnLegs : 1 ≤ maxReturnLegs := by decide
  aggregateReturnLegs : 1 ≤ maxAggregateReturnLegs := by decide
  sourceGroups : 1 ≤ maxSourceGroups := by decide
  returnPool : 1 ≤ maxReturnPool := by decide
  beam : 1 ≤ beamWidth := by decide
  returnGroups : 1 ≤ maxReturnGroupsPerSource := by decide
  candidates : 1 ≤ maxCandidates := by decide
  eraGap : 1 ≤ returnEraGapSeconds := by decide

variable (limits : Limits)

def Limits.minimum (target : Int) : Int := (target * limits.minCoveragePpm).fdiv 1000000

def Limits.maxTotal (target : Int) : Int := target + (target * limits.maxExcessPpm).fdiv 1000000

def Limits.Accepts (target amount : Int) : Prop := limits.minimum target ≤ amount ∧ amount ≤ limits.maxTotal target

instance (target amount : Int) : Decidable (limits.Accepts target amount) := inferInstanceAs (Decidable (_ ∧ _))

/-- Every window of adjacent sources up to the given size, by where it ends. -/
def sourceWindows (maxLegs : Nat) (rows : List Leg) : List (List Leg) :=
  let ordered := sortedBy Leg.sortKey rows
  (List.range ordered.length).flatMap fun last =>
    (List.range (min maxLegs (last + 1))).map fun less => (ordered.take (last + 1)).drop (last - less)

def boundedSources (sources : List Leg) : List Leg :=
  let structured := (sources.filter fun leg => leg.signalCodes ≠ []).take limits.maxSourceGroups
  let budget := limits.maxSourceGroups - structured.length
  let ordinary := sources.filter fun leg => leg.signalCodes = []
  let kept := (structured ++ ordinary.drop (ordinary.length - budget)).map (·.id)
  sources.filter fun leg => leg.id ∈ kept

def nearestKey (target : Int) (leg : Leg) : Int ×ₗ Int ×ₗ String :=
  toLex (|target - leg.principalMsat|, toLex (leg.moment, leg.id))

def boundedReturnPool (target : Int) (rows : List Leg) : List Leg :=
  let ordered := sortedBy Leg.sortKey rows
  if ordered.length ≤ limits.maxReturnPool then ordered
  else sortedBy Leg.sortKey ((sortedBy (nearestKey target) ordered).take limits.maxReturnPool)

def amountKey (leg : Leg) : Int ×ₗ Int ×ₗ String := toLex (leg.principalMsat, toLex (leg.moment, leg.id))

/-- Walks outward from the target, nearer amounts first: `below` holds the smaller amounts, nearest first. -/
def nearestReturns (boundary target : Int) : Nat → Nat → List Leg → List Leg → List Leg
  | 0, _, _, _ => []
  | _, 0, _, _ => []
  | _ + 1, _ + 1, [], [] => []
  | inspections + 1, wanted + 1, below, above =>
    let takeAbove : Bool := match below, above with
      | _, [] => false
      | [], _ :: _ => true
      | left :: _, right :: _ => decide (|target - right.principalMsat| < |target - left.principalMsat|)
    let next := if takeAbove then above.head? else below.head?
    let below' := if takeAbove then below else below.tail
    let above' := if takeAbove then above.tail else above
    match next with
    | none => []
    | some leg =>
      if boundary < leg.moment then leg :: nearestReturns boundary target inspections wanted below' above'
      else nearestReturns boundary target inspections (wanted + 1) below' above'

def indexedReturnPool (boundary target : Int) (returns : List Leg) : List Leg :=
  let rowsByAmount := sortedBy amountKey returns
  let below := rowsByAmount.takeWhile fun leg => leg.principalMsat < target
  let above := rowsByAmount.dropWhile fun leg => leg.principalMsat < target
  sortedBy Leg.sortKey
    (nearestReturns boundary target (limits.maxReturnPool * 8) limits.maxReturnPool below.reverse above)

def latest : List Leg → Int
  | [] => 0
  | leg :: rest => rest.foldl (fun moment other => max moment other.moment) leg.moment

def earliest : List Leg → Int
  | [] => 0
  | leg :: rest => rest.foldl (fun moment other => min moment other.moment) leg.moment

/-- The contiguous activity of each destination wallet, wallets in order. -/
def walletEras (rows : List Leg) : List (List Leg) :=
  (sortedBy fst (groupBy (·.walletId) rows)).flatMap fun entry =>
    (sortedBy Leg.sortKey entry.2).splitBy fun left right =>
      wholeSeconds (right.moment - left.moment) ≤ limits.returnEraGapSeconds

def groupKey (target : Int) (group : List Leg) : Int ×ₗ Nat ×ₗ List String :=
  toLex (|target - total group|, toLex (group.length, groupIds group))

def eraKey (era : List Leg) : Int ×ₗ Int ×ₗ List String := toLex (total era, toLex (latest era, groupIds era))

def returnEras (rows : List Leg) : List (List Leg) := sortedBy eraKey (walletEras limits rows)

/-- The eras of a large book that answer a target; at most 512 of them are looked at. -/
def matchingReturnEras (eras : List (List Leg)) (boundary target : Int) : List (List Leg) × Bool :=
  let inRange := (eras.dropWhile fun era => total era < limits.minimum target).takeWhile fun era =>
    total era ≤ limits.maxTotal target
  let later := (inRange.take 512).filter fun era => ∀ first ∈ era.head?, boundary < first.moment
  if later.any fun era => limits.maxAggregateReturnLegs < era.length then ([], true)
  else ((sortedBy (groupKey target) later).take limits.maxReturnGroupsPerSource, false)

/-- The eras that answer a target; one that is too long gives all of them up. -/
def walletEraReturnGroups (target : Int) (rows : List Leg) : List (List Leg) × Bool :=
  let groups := (walletEras limits rows).filter fun era => limits.Accepts target (total era)
  if groups.any fun era => limits.maxAggregateReturnLegs < era.length then ([], true)
  else ((sortedBy (groupKey target) groups).take limits.maxReturnGroupsPerSource, false)

structure Beam where
  states : List (List Leg × Int) := [([], 0)]
  qualifying : List (List String × List Leg) := []

/-- The empty state comes first, so that every later row may start a group. -/
def beamKey (target : Int) (state : List Leg × Int) : Nat ×ₗ Int ×ₗ Nat ×ₗ List String :=
  if state.1 = [] then toLex (0, toLex (target, toLex (0, [])))
  else toLex (1, toLex (|target - state.2|, toLex (state.1.length, groupIds state.1)))

def extend (target : Int) (row : Leg) (state : List Leg × Int) : Option (List Leg × Int) :=
  if limits.maxReturnLegs ≤ state.1.length then none
  else if limits.maxTotal target < state.2 + row.principalMsat then none
  else some (state.1 ++ [row], state.2 + row.principalMsat)

def dedupeStates (states : List (List Leg × Int)) : List (List Leg × Int) :=
  (items (states.map fun state => (groupIds state.1, state))).map snd

def Beam.step (target : Int) (beam : Beam) (row : Leg) : Beam :=
  let additions := beam.states.filterMap (extend limits target row)
  { states := (sortedBy (beamKey target) (dedupeStates (beam.states ++ additions))).take limits.beamWidth
    qualifying := beam.qualifying ++
      (additions.filter fun state => limits.minimum target ≤ state.2).map fun state => (groupIds state.1, state.1) }

def beamGroups (target : Int) (rows : List Leg) : List (List Leg) :=
  let beam := (sortedBy Leg.sortKey rows).foldl (Beam.step limits target) {}
  sortedBy (groupKey target) ((items beam.qualifying).map snd)

def returnGroups (target : Int) (rows : List Leg) : List (List Leg) :=
  (beamGroups limits target rows).take limits.maxReturnGroupsPerSource

def dedupeGroups (groups : List (List Leg)) : List (List Leg) :=
  (sortedBy fst (items (groups.map fun group => (groupIds group, group)))).map snd

inductive Confidence where
  | strong
  | moderate
  | weak

structure GapCandidate extends CustodyGapCandidate where
  sourceWalletLabels : List String
  destinationWalletLabels : List String
  elapsedSeconds : Int
  score : Int
  confidence : Confidence

def GapCandidate.legIds (c : GapCandidate) : List String := c.sourceIds ++ c.returnIds

def reasonCodes (sources returns : List Leg) (coveragePpm residual excess elapsed : Int)
    (sourceWalletIds destinationWalletIds : List String) : List String :=
  [if 950000 ≤ coveragePpm then "amount_coverage_high" else "amount_coverage_partial"] ++
    (if 90 * 86400 ≤ elapsed then ["long_horizon"] else []) ++
    (if 1 < sources.length then ["split_source"] else []) ++
    (if 1 < returns.length then ["split_return"] else []) ++
    (if sourceWalletIds ≠ destinationWalletIds then ["wallet_transition"] else []) ++
    (if residual ≠ 0 then ["unresolved_residual"] else []) ++
    (if excess ≠ 0 then ["return_exceeds_source"] else []) ++
    sortedSet ((sources ++ returns).flatMap (·.signalCodes)) ++
    sortedSet ((sources ++ returns).flatMap (·.disqualifierCodes))

def bitLength (n : Nat) : Nat := if n = 0 then 0 else n.log2 + 1

/-- Coverage, nearness in time, a change of wallet and typed evidence, less the excess. -/
def scoreOf (coveragePpm excessMsat sourceTotalMsat elapsedSeconds : Int) (differentWallets : Bool)
    (structuredSignalCount : Nat) : Int :=
  let amountScore := (coveragePpm * 700).fdiv 1000000
  let days := elapsedSeconds.fdiv 86400
  let timeScore := max 25 (200 - 10 * (bitLength (days + 1).natAbs : Int))
  let walletScore : Int := if differentWallets then 50 else 0
  let evidenceScore : Int := min 80 (structuredSignalCount * 40)
  let excessPpm := (excessMsat * 1000000).fdiv sourceTotalMsat
  let excessPenalty := min 150 ((excessPpm * 150).fdiv 250000)
  max 0 (min 1000 (amountScore + timeScore + walletScore + evidenceScore - excessPenalty))

def gapIdOf (profileId asset : String) (sourceIds returnIds : List String) : String :=
  "cg_" ++ String.ofList ((sha256 ("\x1f".intercalate
    ([profileId, asset] ++ sortedBy id sourceIds ++ ["->"] ++ sortedBy id returnIds))).toList.take 24)

/-- The suggestion that the returns bring back what the lead and the other sources took out. -/
def buildCandidate (lead : Leg) (others returns : List Leg) : GapCandidate :=
  let sources := lead :: others
  let sourceTotal := total sources
  let returnTotal := total returns
  let retained := min sourceTotal returnTotal
  let residual := sourceTotal - retained
  let excess := returnTotal - retained
  let coveragePpm := (retained * 1000000).fdiv sourceTotal
  let elapsed := max 0 (wholeSeconds (latest returns - earliest sources))
  let sourceWalletIds := sortedSet (sources.map (·.walletId))
  let destinationWalletIds := sortedSet (returns.map (·.walletId))
  let score := scoreOf coveragePpm excess sourceTotal elapsed (decide (sourceWalletIds ≠ destinationWalletIds))
    ((sources ++ returns).map fun leg => leg.signalCodes.length).sum
  { gapId := gapIdOf sha256 lead.profileId lead.asset (groupIds sources) (groupIds returns)
    profileId := lead.profileId, asset := lead.asset, protocolChain := lead.chain, network := lead.network
    sourceIds := groupIds sources, returnIds := groupIds returns
    sourceWalletIds, destinationWalletIds
    sourceWalletLabels := sortedSet (sources.map (·.walletLabel))
    destinationWalletLabels := sortedSet (returns.map (·.walletLabel))
    sourceTotalMsat := sourceTotal, sourceFeeMsat := (sources.map (·.feeMsat)).sum
    sourceDebitMsat := (sources.map (·.debitMsat)).sum
    returnTotalMsat := returnTotal, retainedMsat := retained, residualMsat := residual, excessMsat := excess, coveragePpm
    startedAt := iso (earliest sources), endedAt := iso (latest returns), elapsedSeconds := elapsed, score
    confidence := if 850 ≤ score then .strong else if 750 ≤ score then .moderate else .weak
    reasonCodes := reasonCodes sources returns coveragePpm residual excess elapsed sourceWalletIds destinationWalletIds }

def conflictEdges (candidates : List GapCandidate) : List (String × String) :=
  (groupBy fst (candidates.flatMap fun c => c.legIds.map fun legId => (legId, c.gapId))).flatMap fun entry =>
    match entry.2 with
    | [] => []
    | first :: rest => rest.map fun sibling => (first.2, sibling.2)

def stampConflicts (candidates : List GapCandidate) : List GapCandidate :=
  let root := unions (conflictEdges candidates)
  candidates.map fun c =>
    { c with
      conflictSetId := root c.gapId
      conflictSize := (candidates.filter fun other => root other.gapId = root c.gapId).length }

def isStructuredSignal (reason : String) : Bool :=
  "structured_".toList.isPrefixOf reason.toList && decide (reason ≠ externalOrigin)

def rankKey (c : GapCandidate) : Int ×ₗ String := toLex (c.score, c.gapId)

def competitorScore (candidates : List GapCandidate) (c : GapCandidate) : Option Int :=
  let cluster := candidates.filter fun other => other.conflictSetId = c.conflictSetId
  ((sortedBy rankKey cluster).reverse.find? fun other => other.gapId ≠ c.gapId).map (·.score)

def promotion (requiredMargin : Nat) (candidates : List GapCandidate) (c : GapCandidate) : GapCandidate :=
  let margin := (competitorScore candidates c).map fun score => c.score - score
  let structuredSignal := c.reasonCodes.any isStructuredSignal
  let disqualified : Bool := externalOrigin ∈ c.reasonCodes
  let clearMargin := margin.all fun lead => (requiredMargin : Int) ≤ lead
  let eligible := structuredSignal && !disqualified && clearMargin
  let reason :=
    if eligible then "promotion_eligible_structured_signal"
    else if disqualified then "promotion_ineligible_external_origin"
    else if !structuredSignal then "search_hint_only"
    else "competitor_margin_insufficient"
  { c with promotionEligible := eligible, competitorScoreMargin := margin, reasonCodes := c.reasonCodes ++ [reason] }

def stampPromotionEligibility (requiredMargin : Nat) (candidates : List GapCandidate) : List GapCandidate :=
  candidates.map (promotion requiredMargin candidates)

structure Progress where
  generated : List (String × GapCandidate) := []
  capacityLimitedCandidateIds : List String := []
  capacityLimitedSearch : Bool
  blockingSourceIds : List String := []

/-- What one source group found, and whether a ceiling on its returns was exceeded. -/
structure Finding where
  candidates : List GapCandidate
  limited : Bool
  blocking : List String

/-- The typed boundaries that no explicit classification takes out of suspense. -/
def blockingIds (legs : List Leg) : List String :=
  (legs.filter fun leg => leg.signalCodes ≠ [] ∧ leg.disqualifierCodes = []).map (·.id)

def eligibleReturns (returns : List Leg) (boundary : Int) : List Leg :=
  returns.dropWhile fun leg => leg.sortKey ≤ toLex (boundary, "\uffff")

/-- The return groups that answer a source group; the flag says that its returns exceeded a ceiling. -/
def answers (worklistLimited : Bool) (returns : List Leg) (boundary target : Int) : List (List Leg) × Bool :=
  if worklistLimited then
    let pool := indexedReturnPool limits boundary target returns
    let aggregate := matchingReturnEras limits (returnEras limits returns) boundary target
    (dedupeGroups (returnGroups limits target pool ++ aggregate.1), aggregate.2)
  else
    let eligible := eligibleReturns returns boundary
    let aggregate := walletEraReturnGroups limits target eligible
    (dedupeGroups (returnGroups limits target (boundedReturnPool limits target eligible) ++ aggregate.1),
      decide (limits.maxReturnPool < eligible.length) || aggregate.2)

def findFor (worklistLimited : Bool) (returns : List Leg) : List Leg → Option Finding
  | [] => none
  | lead :: others =>
    let sources := lead :: others
    if eligibleReturns returns (latest sources) = [] then none
    else
      let found := answers limits worklistLimited returns (latest sources) (total sources)
      some
        { candidates := (found.1.map (buildCandidate sha256 iso lead others)).filter fun c => 650 ≤ c.score
          limited := found.2
          blocking := if found.2 then blockingIds sources else [] }

def Progress.record (worklistLimited : Bool) (progress : Progress) (finding : Finding) : Progress :=
  { generated := progress.generated ++ finding.candidates.map fun c => (c.gapId, c)
    capacityLimitedCandidateIds := progress.capacityLimitedCandidateIds ++
      if worklistLimited || finding.limited then finding.candidates.map (·.gapId) else []
    capacityLimitedSearch := progress.capacityLimitedSearch || finding.limited
    blockingSourceIds := progress.blockingSourceIds ++ finding.blocking }

/-- The source groups of a scope in turn; a limited scope stops once the population is too large. -/
def visitGroups (worklistLimited sourceLimited : Bool) (returns : List Leg) : List (List Leg) → Progress → Progress
  | [], progress => progress
  | group :: rest, progress =>
    match findFor sha256 iso limits worklistLimited returns group with
    | none => visitGroups worklistLimited sourceLimited returns rest progress
    | some finding =>
      let next := progress.record (worklistLimited || sourceLimited) finding
      if sourceLimited ∧ limits.maxCandidates < (items next.generated).length then next
      else visitGroups worklistLimited sourceLimited returns rest next

def sourceGroupCount (sources : List Leg) : Nat :=
  ((List.range limits.maxSourceLegs).map fun less => sources.length - less).sum

def sourcesOf (legs : List Leg) : List Leg := (sortedBy Leg.sortKey legs).filter fun leg => leg.direction = .outbound

def returnsOf (legs : List Leg) : List Leg := (sortedBy Leg.sortKey legs).filter fun leg => leg.direction = .inbound

def visitScope (worklistLimited : Bool) (progress : Progress) (legs : List Leg) : Progress :=
  let sources := sourcesOf legs
  let returns := returnsOf legs
  if sources = [] ∨ returns = [] then progress
  else
    let sourceLimited : Bool := limits.maxSourceGroups < sourceGroupCount limits sources
    if worklistLimited || sourceLimited then
      visitGroups sha256 iso limits worklistLimited sourceLimited returns
        (sourceWindows 1 (boundedSources limits sources))
        { progress with
          capacityLimitedSearch := true
          blockingSourceIds := progress.blockingSourceIds ++ blockingIds sources }
    else visitGroups sha256 iso limits worklistLimited sourceLimited returns
      (sourceWindows limits.maxSourceLegs sources) progress

def scopes (legs : List Leg) : List (List Leg) := (sortedBy fst (groupBy Leg.scope legs)).map snd

def explore (legs : List Leg) : Progress :=
  let worklistLimited : Bool := limits.maxInputRows < legs.length
  (scopes legs).foldl (visitScope sha256 iso limits worklistLimited) { capacityLimitedSearch := worklistLimited }

inductive LimitKind where
  | candidatePopulation
  | boundaryWorklist

structure GapSearchResult where
  candidates : List GapCandidate
  accountingCandidates : List GapCandidate
  searchComplete : Bool
  limitKind : Option LimitKind := none
  candidateCount : Nat
  promotionEligibleCount : Nat
  blockingSourceIds : List String := []
  message : Option String := none

def markIncomplete (ids : List String) (c : GapCandidate) : GapCandidate :=
  if c.gapId ∈ ids then { c with reasonCodes := c.reasonCodes ++ ["search_capacity_incomplete"] } else c

def demote (ids : List String) (c : GapCandidate) : GapCandidate :=
  if c.gapId ∈ ids ∧ c.promotionEligible then
    { c with
      promotionEligible := false
      reasonCodes := (c.reasonCodes.filter fun code => code ≠ "promotion_eligible_structured_signal") ++
        ["capacity_source_suspense_required"] }
  else c

def candidateSortKey (c : GapCandidate) : Int ×ₗ Int ×ₗ Int ×ₗ Int ×ₗ String :=
  toLex (-c.score, toLex (-c.coveragePpm, toLex (-c.sourceTotalMsat, toLex (c.elapsedSeconds, c.gapId))))

/-- The generated candidates with their conflicts and their eligibility, before any is cut from display. -/
def stamp (progress : Progress) : List GapCandidate :=
  let generated := (items progress.generated).map snd
  let marked := (stampConflicts generated).map (markIncomplete progress.capacityLimitedCandidateIds)
  let promoted := stampPromotionEligibility limits.promotionScoreMargin marked
  sortedBy candidateSortKey (promoted.map (demote progress.capacityLimitedCandidateIds))

def computeCustodyGapSearch (ignored : List String) (rows : List GapRow) : GapSearchResult :=
  let progress := explore sha256 iso limits (normalizedLegs iso ignored rows)
  let stamped := stamp limits progress
  let accounting := stamped.filter (·.promotionEligible)
  let population :=
    "custody-gap search generated " ++ toString stamped.length ++ " candidates, including " ++
      toString accounting.length ++ " promotion-eligible candidates; configured maximum is " ++
      toString limits.maxCandidates
  if limits.maxCandidates < stamped.length then
    { candidates := stamped.take limits.maxCandidates, accountingCandidates := accounting, searchComplete := false
      limitKind := some .candidatePopulation, candidateCount := stamped.length
      promotionEligibleCount := accounting.length, blockingSourceIds := sortedSet progress.blockingSourceIds
      message := some population }
  else if progress.capacityLimitedSearch ∨ progress.capacityLimitedCandidateIds ≠ [] then
    { candidates := stamped, accountingCandidates := accounting, searchComplete := false
      limitKind := some .boundaryWorklist, candidateCount := stamped.length
      promotionEligibleCount := accounting.length, blockingSourceIds := sortedSet progress.blockingSourceIds
      message := some ("custody-gap search used a bounded source/return worklist; " ++
        "structured boundaries remain reviewable but discovery is incomplete") }
  else
    { candidates := stamped, accountingCandidates := accounting, searchComplete := true
      candidateCount := stamped.length, promotionEligibleCount := accounting.length }

end

end Kassiber.Custody.Gaps

import Kassiber.Custody.Conservation
import Kassiber.Transfers.CandidateConflicts
import Kassiber.Transfers.HashPopulations

/-!
Holding native hash routes that cannot be assigned.
-/

namespace Kassiber.Custody.AmbiguousHashes
open Lib.Bisect Lib.Dict Lib.Sorting Transfers Transfers.Hashes Transfers.Heuristic List

structure HashQuarantine where
  transactionId : String
  workspaceId : String
  profileId : String
  reason : String
  detailJson : String

section
variable {μ : Type} (readings : HashReadings μ) (feePctOf : Nat → Int)

def exactPairs (candidates : List SwapCandidate) : List (String × String) :=
  (candidates.filter fun c => c.method = methodPaymentHash ∧ c.confidence = confidenceExact ∧ c.conflictSize = 1).map
    edgeOf

def nativeEndpoint (row : HashRow μ) (o : QuantityObservation) : Bool :=
  isLightningPaymentHashRow readings row ||
    (o.authoritativeChainObservation && readings.rowHasCurrentAuthoritativeObservation row)

def isNative (observations : String → Option QuantityObservation) (row : HashRow μ) : Bool :=
  (observations row.id).any fun o => (canonicalBitcoinAsset o.asset).isSome && nativeEndpoint readings row o

def nativeRows (observations : String → Option QuantityObservation) (rows : List (HashRow μ)) :
    List (String × HashRow μ) :=
  (rows.filter (isNative readings observations)).map fun row => (row.id, row)

/-- What a run is about: the native rows by id, and the pairs and rows that are spoken for. -/
structure HoldScope (μ : Type) where
  native : List (String × HashRow μ)
  exact : List (String × String)
  occupiedIds : List String
  dismissed : List (String × String)

def roleAt (scope : HoldScope μ) (row : HashRow μ) : Option HashRole :=
  (lookup scope.native row.id).map (paymentHashRole readings)

def openLegs (scope : HoldScope μ) (role : HashRole) (rows : List (HashRow μ)) : List (HashRow μ) :=
  sortedBy amountOf (rows.filter fun row =>
    roleAt readings scope row = some role ∧ row.id ∉ scope.occupiedIds ∧ 0 < amountOf row)

def minimumReceipt (outRow : HashRow μ) : Int :=
  amountOf outRow - feeThresholdMsat (defaultTolerances feePctOf) (amountOf outRow)

def available (scope : HoldScope μ) (outRow inRow : HashRow μ) : Bool :=
  decide ((outRow.id, inRow.id) ∉ scope.exact) && decide ((outRow.id, inRow.id) ∉ scope.dismissed) &&
    decide (outRow.walletId ≠ inRow.walletId) && paymentHashAmountsConserve feePctOf outRow inRow

def targetWindow (targets : List (HashRow μ)) (outRow : HashRow μ) : List (HashRow μ) :=
  let start := bisectLeft (targets.map amountOf) (minimumReceipt feePctOf outRow)
  let stop := bisectRight (targets.map amountOf) (amountOf outRow)
  (targets.take stop).drop start

def sourceWindow (sources : List (HashRow μ)) (inRow : HashRow μ) : List (HashRow μ) :=
  let start := bisectLeft (sources.map amountOf) (amountOf inRow)
  let stop := bisectRight (sources.map (minimumReceipt feePctOf)) (amountOf inRow)
  (sources.take stop).drop start

def peersOfSource (scope : HoldScope μ) (targets : List (HashRow μ)) (outRow : HashRow μ) : List (HashRow μ) :=
  (targetWindow feePctOf targets outRow).filter (available feePctOf scope outRow)

def peersOfTarget (scope : HoldScope μ) (sources : List (HashRow μ)) (inRow : HashRow μ) : List (HashRow μ) :=
  (sourceWindow feePctOf sources inRow).filter fun outRow => available feePctOf scope outRow inRow

def heldLegs (scope : HoldScope μ) (sources targets : List (HashRow μ)) : List String :=
  if sources.isEmpty || targets.isEmpty then []
  else
    ((sources.filter fun outRow => !(peersOfSource feePctOf scope targets outRow).isEmpty).map HashRow.id) ++
      (targets.filter fun inRow => !(peersOfTarget feePctOf scope sources inRow).isEmpty).map HashRow.id

def roleOrders : List (HashRole × HashRole) := [(.lightningNode, .chainHtlc), (.chainHtlc, .lightningNode)]

def heldIn (scope : HoldScope μ) (population : List (HashRow μ) × List (HashRow μ)) : List String :=
  roleOrders.flatMap fun roles =>
    heldLegs feePctOf scope (openLegs readings scope roles.1 population.1) (openLegs readings scope roles.2 population.2)

def populations (rows : List (HashRow μ)) : List (List (HashRow μ) × List (HashRow μ)) :=
  paymentHashPopulations readings (rows.filter fun row => row.direction = "outbound")
    (rows.filter fun row => row.direction = "inbound")

def scopeOf (rows : List (HashRow μ)) (observations : String → Option QuantityObservation)
    (candidates : List SwapCandidate) (occupiedIds : List String) (dismissed : List (String × String)) : HoldScope μ :=
  { native := nativeRows readings observations rows, exact := exactPairs candidates, occupiedIds, dismissed }

def quarantineOf (transactionId : String) (row : HashRow μ) : HashQuarantine :=
  { transactionId, workspaceId := row.workspaceId, profileId := row.profileId, reason := "native_transition_ambiguous",
    detailJson := "\x7b\"required_for\": \"unique_scoped_native_transition\"\x7d" }

def ambiguousHashQuarantines (rows : List (HashRow μ)) (observations : String → Option QuantityObservation)
    (candidates : List SwapCandidate) (occupiedIds : List String) (dismissed : List (String × String)) :
    List HashQuarantine :=
  let scope := scopeOf readings rows observations candidates occupiedIds dismissed
  let held := (populations readings rows).flatMap (heldIn readings feePctOf scope)
  (sortedSet held).filterMap fun transactionId =>
    (lookup scope.native transactionId).map (quarantineOf transactionId)

/-- A pair of rows that could be one native route, and that nothing has settled. -/
structure AmbiguousPair (rows : List (HashRow μ)) (observations : String → Option QuantityObservation)
    (candidates : List SwapCandidate) (occupiedIds : List String) (dismissed : List (String × String))
    (outRow inRow : HashRow μ) : Prop where
  together : ∃ population ∈ populations readings rows, outRow ∈ population.1 ∧ inRow ∈ population.2
  native : isNative readings observations outRow = true ∧ isNative readings observations inRow = true
  roles : (paymentHashRole readings outRow, paymentHashRole readings inRow) ∈ roleOrders
  unoccupied : outRow.id ∉ occupiedIds ∧ inRow.id ∉ occupiedIds
  positive : 0 < amountOf outRow ∧ 0 < amountOf inRow
  wallets : outRow.walletId ≠ inRow.walletId
  conserving : paymentHashAmountsConserve feePctOf outRow inRow = true
  notDismissed : (outRow.id, inRow.id) ∉ dismissed
  notSolo : ∀ c ∈ candidates, c.method = methodPaymentHash → c.confidence = confidenceExact → c.conflictSize = 1 →
    (c.outId, c.inId) ≠ (outRow.id, inRow.id)

end

section
variable {μ : Type} {readings : HashReadings μ} {feePctOf : Nat → Int}

theorem threshold_slow (slow : ∀ n, feePctOf (n + 1) ≤ feePctOf n + 1) {a b : Int} (positive : 0 < a) (le : a ≤ b) :
    a - feeThresholdMsat (defaultTolerances feePctOf) a ≤ b - feeThresholdMsat (defaultTolerances feePctOf) b := by
  have steps : ∀ n k : Nat, feePctOf (n + k) ≤ feePctOf n + k := by
    intro n k
    induction k with
    | zero => simp
    | succ k ih =>
      have step := slow (n + k)
      rw [← Nat.add_assoc]
      push_cast
      omega
  have run := steps a.natAbs (b - a).natAbs
  have whole : a.natAbs + (b - a).natAbs = b.natAbs := by omega
  rw [whole] at run
  simp only [feeThresholdMsat, defaultTolerances]
  omega

theorem openLegs_sorted (scope : HoldScope μ) (role : HashRole) (rows : List (HashRow μ)) :
    (openLegs readings scope role rows).Pairwise (amountOf · ≤ amountOf ·) :=
  sortedBy_pairwise amountOf _

variable {row outRow inRow : HashRow μ} {scope : HoldScope μ}

theorem mem_openLegs {role : HashRole} {rows : List (HashRow μ)} :
    row ∈ openLegs readings scope role rows ↔
      row ∈ rows ∧ roleAt readings scope row = some role ∧ row.id ∉ scope.occupiedIds ∧ 0 < amountOf row := by
  rw [openLegs, mem_sortedBy, mem_filter, decide_eq_true_eq]

theorem openLegs_minimum (slow : ∀ n, feePctOf (n + 1) ≤ feePctOf n + 1) (scope : HoldScope μ) (role : HashRole)
    (rows : List (HashRow μ)) :
    (openLegs readings scope role rows).Pairwise (minimumReceipt feePctOf · ≤ minimumReceipt feePctOf ·) := by
  have sorted : (openLegs readings scope role rows).Pairwise (amountOf · ≤ amountOf ·) := openLegs_sorted scope role rows
  exact sorted.imp_of_mem fun first _ le => threshold_slow slow (mem_openLegs.1 first).2.2.2 le

theorem conserve_iff (outPositive : 0 < amountOf outRow) (inPositive : 0 < amountOf inRow) :
    paymentHashAmountsConserve feePctOf outRow inRow = true ↔
      minimumReceipt feePctOf outRow ≤ amountOf inRow ∧ amountOf inRow ≤ amountOf outRow := by
  unfold paymentHashAmountsConserve minimumReceipt
  by_cases more : amountOf outRow < amountOf inRow
  · simp [more]
  · have open_ : ¬ (amountOf outRow ≤ 0 ∨ amountOf inRow ≤ 0 ∨ amountOf outRow < amountOf inRow) := by omega
    simp only [open_, if_false, decide_eq_true_eq]
    omega

theorem mem_peersOfSource {targets : List (HashRow μ)}
    (sorted : targets.Pairwise (amountOf · ≤ amountOf ·)) (positive : ∀ row ∈ targets, 0 < amountOf row)
    (outPositive : 0 < amountOf outRow) :
    inRow ∈ peersOfSource feePctOf scope targets outRow ↔ inRow ∈ targets ∧ available feePctOf scope outRow inRow = true := by
  unfold peersOfSource targetWindow
  rw [mem_filter, slice_eq sorted, mem_filter, decide_eq_true_eq]
  constructor
  · rintro ⟨⟨listed, -⟩, free⟩
    exact ⟨listed, free⟩
  · rintro ⟨listed, free⟩
    have conserving := (Bool.and_eq_true_iff.1 free).2
    exact ⟨⟨listed, (conserve_iff outPositive (positive _ listed)).1 conserving⟩, free⟩

theorem mem_peersOfTarget {sources : List (HashRow μ)} (sorted : sources.Pairwise (amountOf · ≤ amountOf ·))
    (receipts : sources.Pairwise (minimumReceipt feePctOf · ≤ minimumReceipt feePctOf ·))
    (positive : ∀ row ∈ sources, 0 < amountOf row) (inPositive : 0 < amountOf inRow) :
    outRow ∈ peersOfTarget feePctOf scope sources inRow ↔ outRow ∈ sources ∧ available feePctOf scope outRow inRow = true := by
  unfold peersOfTarget sourceWindow
  rw [mem_filter, slice_of_two sorted receipts, mem_filter, decide_eq_true_eq]
  constructor
  · rintro ⟨⟨listed, -⟩, free⟩
    exact ⟨listed, free⟩
  · rintro ⟨listed, free⟩
    have conserving := (Bool.and_eq_true_iff.1 free).2
    obtain ⟨atLeast, atMost⟩ := (conserve_iff (positive _ listed) inPositive).1 conserving
    exact ⟨⟨listed, atMost, atLeast⟩, free⟩

section
variable {scope : HoldScope μ} {population : List (HashRow μ) × List (HashRow μ)} {roles : HashRole × HashRole}
  {outRow inRow : HashRow μ}

theorem source_finds_iff (listed : outRow ∈ openLegs readings scope roles.1 population.1) :
    inRow ∈ peersOfSource feePctOf scope (openLegs readings scope roles.2 population.2) outRow ↔
      inRow ∈ openLegs readings scope roles.2 population.2 ∧ available feePctOf scope outRow inRow = true :=
  mem_peersOfSource (openLegs_sorted scope roles.2 population.2) (fun _ member => (mem_openLegs.1 member).2.2.2)
    (mem_openLegs.1 listed).2.2.2

theorem target_finds_iff (slow : ∀ n, feePctOf (n + 1) ≤ feePctOf n + 1)
    (listed : inRow ∈ openLegs readings scope roles.2 population.2) :
    outRow ∈ peersOfTarget feePctOf scope (openLegs readings scope roles.1 population.1) inRow ↔
      outRow ∈ openLegs readings scope roles.1 population.1 ∧ available feePctOf scope outRow inRow = true :=
  mem_peersOfTarget (openLegs_sorted scope roles.1 population.1) (openLegs_minimum slow scope roles.1 population.1)
    (fun _ member => (mem_openLegs.1 member).2.2.2) (mem_openLegs.1 listed).2.2.2

theorem mem_heldIn (slow : ∀ n, feePctOf (n + 1) ≤ feePctOf n + 1) {transactionId : String} :
    transactionId ∈ heldIn readings feePctOf scope population ↔ ∃ roles ∈ roleOrders,
      ∃ outRow ∈ openLegs readings scope roles.1 population.1, ∃ inRow ∈ openLegs readings scope roles.2 population.2,
        available feePctOf scope outRow inRow = true ∧ (transactionId = outRow.id ∨ transactionId = inRow.id) := by
  unfold heldIn heldLegs
  rw [mem_flatMap]
  refine exists_congr fun roles => and_congr_right fun _ => ?_
  constructor
  · intro held
    split at held
    · cases held
    · rcases mem_append.1 held with fromSource | fromTarget
      · obtain ⟨outRow, found, rfl⟩ := mem_map.1 fromSource
        rw [mem_filter, Bool.not_eq_true', isEmpty_eq_false_iff] at found
        obtain ⟨listed, some_peer⟩ := found
        obtain ⟨inRow, peer⟩ := exists_mem_of_ne_nil _ some_peer
        obtain ⟨inListed, free⟩ := (source_finds_iff listed).1 peer
        exact ⟨outRow, listed, inRow, inListed, free, .inl rfl⟩
      · obtain ⟨inRow, found, rfl⟩ := mem_map.1 fromTarget
        rw [mem_filter, Bool.not_eq_true', isEmpty_eq_false_iff] at found
        obtain ⟨listed, some_peer⟩ := found
        obtain ⟨outRow, peer⟩ := exists_mem_of_ne_nil _ some_peer
        obtain ⟨outListed, free⟩ := (target_finds_iff slow listed).1 peer
        exact ⟨outRow, outListed, inRow, listed, free, .inr rfl⟩
  · rintro ⟨outRow, outListed, inRow, inListed, free, named⟩
    have both : ((openLegs readings scope roles.1 population.1).isEmpty ||
        (openLegs readings scope roles.2 population.2).isEmpty) = false := by
      rw [Bool.or_eq_false_iff, isEmpty_eq_false_iff, isEmpty_eq_false_iff]
      exact ⟨ne_nil_of_mem outListed, ne_nil_of_mem inListed⟩
    rw [both, if_neg Bool.false_ne_true, mem_append]
    rcases named with rfl | rfl
    · refine .inl (mem_map_of_mem (mem_filter.2 ⟨outListed, ?_⟩))
      rw [Bool.not_eq_true', isEmpty_eq_false_iff]
      exact ne_nil_of_mem ((source_finds_iff outListed).2 ⟨inListed, free⟩)
    · refine .inr (mem_map_of_mem (mem_filter.2 ⟨inListed, ?_⟩))
      rw [Bool.not_eq_true', isEmpty_eq_false_iff]
      exact ne_nil_of_mem ((target_finds_iff slow inListed).2 ⟨outListed, free⟩)

end

variable {rows : List (HashRow μ)} {observations : String → Option QuantityObservation} {candidates : List SwapCandidate}
  {occupiedIds : List String} {dismissed : List (String × String)}

theorem lookup_native (distinct : (rows.map HashRow.id).Nodup) (listed : row ∈ rows) :
    lookup (nativeRows readings observations rows) row.id =
      if isNative readings observations row = true then some row else none := by
  have keys : ((nativeRows readings observations rows).map Prod.fst).Nodup := by
    rw [nativeRows, map_map]
    exact (filter_sublist.map HashRow.id).nodup distinct
  split
  case isTrue native =>
    exact lookup_of_mem keys (mem_map.2 ⟨row, mem_filter.2 ⟨listed, native⟩, rfl⟩)
  case isFalse foreign =>
    refine lookup_eq_none.2 fun member => foreign ?_
    obtain ⟨entry, entered, same⟩ := mem_map.1 member
    obtain ⟨other, kept, rfl⟩ := mem_map.1 entered
    obtain ⟨otherListed, native⟩ := mem_filter.1 kept
    rwa [← inj_on_of_nodup_map distinct otherListed listed same]

theorem population_rows {population : List (HashRow μ) × List (HashRow μ)} (grouped : population ∈ populations readings rows)
    (outMember : outRow ∈ population.1) (inMember : inRow ∈ population.2) :
    outRow ∈ rows ∧ inRow ∈ rows := by
  obtain ⟨outListed, inListed, -⟩ := shared_population_iff.1 ⟨population, grouped, outMember, inMember⟩
  exact ⟨mem_of_mem_filter outListed, mem_of_mem_filter inListed⟩

theorem mem_held (distinct : (rows.map HashRow.id).Nodup) (slow : ∀ n, feePctOf (n + 1) ≤ feePctOf n + 1)
    {transactionId : String} :
    transactionId ∈ (populations readings rows).flatMap
        (heldIn readings feePctOf (scopeOf readings rows observations candidates occupiedIds dismissed)) ↔
      ∃ outRow inRow, AmbiguousPair readings feePctOf rows observations candidates occupiedIds dismissed outRow inRow ∧
        (transactionId = outRow.id ∨ transactionId = inRow.id) := by
  have role_iff : ∀ row ∈ rows, ∀ role,
      roleAt readings (scopeOf readings rows observations candidates occupiedIds dismissed) row = some role ↔
        isNative readings observations row = true ∧ paymentHashRole readings row = role := by
    intro row listed role
    rw [roleAt, scopeOf, lookup_native distinct listed]
    split <;> simp_all
  have exact_iff : ∀ outRow inRow : HashRow μ, (outRow.id, inRow.id) ∉ exactPairs candidates ↔
      ∀ c ∈ candidates, c.method = methodPaymentHash → c.confidence = confidenceExact → c.conflictSize = 1 →
        (c.outId, c.inId) ≠ (outRow.id, inRow.id) := by
    intro outRow inRow
    simp only [exactPairs, mem_map, mem_filter, decide_eq_true_eq, edgeOf, not_exists, not_and, and_imp]
  rw [mem_flatMap]
  constructor
  · rintro ⟨population, grouped, held⟩
    obtain ⟨roles, ordered, outRow, outListed, inRow, inListed, free, named⟩ := (mem_heldIn slow).1 held
    obtain ⟨outMember, outRole, outFree, outPositive⟩ := mem_openLegs.1 outListed
    obtain ⟨inMember, inRole, inFree, inPositive⟩ := mem_openLegs.1 inListed
    obtain ⟨outRowListed, inRowListed⟩ := population_rows grouped outMember inMember
    obtain ⟨outNative, outRole⟩ := (role_iff _ outRowListed _).1 outRole
    obtain ⟨inNative, inRole⟩ := (role_iff _ inRowListed _).1 inRole
    simp only [available, Bool.and_eq_true, decide_eq_true_eq] at free
    obtain ⟨⟨⟨notExact, notDismissed⟩, wallets⟩, conserving⟩ := free
    refine ⟨outRow, inRow, ⟨⟨population, grouped, outMember, inMember⟩, ⟨outNative, inNative⟩, ?_, ⟨outFree, inFree⟩,
      ⟨outPositive, inPositive⟩, wallets, conserving, notDismissed, (exact_iff _ _).1 notExact⟩, named⟩
    rw [outRole, inRole]
    exact ordered
  · rintro ⟨outRow, inRow, pair, named⟩
    obtain ⟨population, grouped, outMember, inMember⟩ := pair.together
    obtain ⟨outRowListed, inRowListed⟩ := population_rows grouped outMember inMember
    refine ⟨population, grouped, (mem_heldIn slow).2 ⟨_, pair.roles, outRow, mem_openLegs.2 ⟨outMember,
      (role_iff _ outRowListed _).2 ⟨pair.native.1, rfl⟩, pair.unoccupied.1, pair.positive.1⟩, inRow, mem_openLegs.2
      ⟨inMember, (role_iff _ inRowListed _).2 ⟨pair.native.2, rfl⟩, pair.unoccupied.2, pair.positive.2⟩, ?_, named⟩⟩
    simp only [available, Bool.and_eq_true, decide_eq_true_eq]
    exact ⟨⟨⟨(exact_iff _ _).2 pair.notSolo, pair.notDismissed⟩, pair.wallets⟩, pair.conserving⟩

/-- The windows hold exactly the transactions of the ambiguous pairs, and both legs of a pair find each other. -/
theorem ambiguous_hash_quarantines_quadratic (distinct : (rows.map HashRow.id).Nodup)
    (slow : ∀ n, feePctOf (n + 1) ≤ feePctOf n + 1) :
    (∀ transactionId,
      transactionId ∈ (ambiguousHashQuarantines readings feePctOf rows observations candidates occupiedIds dismissed).map
          HashQuarantine.transactionId ↔
        ∃ outRow inRow, AmbiguousPair readings feePctOf rows observations candidates occupiedIds dismissed outRow inRow ∧
          (transactionId = outRow.id ∨ transactionId = inRow.id)) ∧
    ∀ population ∈ populations readings rows, ∀ roles ∈ roleOrders,
      let scope := scopeOf readings rows observations candidates occupiedIds dismissed
      let sources := openLegs readings scope roles.1 population.1
      let targets := openLegs readings scope roles.2 population.2
      ∀ outRow ∈ sources, ∀ inRow ∈ targets,
        inRow ∈ peersOfSource feePctOf scope targets outRow ↔ outRow ∈ peersOfTarget feePctOf scope sources inRow := by
  constructor
  · intro transactionId
    rw [← mem_held distinct slow, ambiguousHashQuarantines, mem_map]
    constructor
    · rintro ⟨quarantine, listed, rfl⟩
      obtain ⟨id, held, made⟩ := mem_filterMap.1 listed
      obtain ⟨row, -, rfl⟩ := Option.map_eq_some_iff.1 made
      exact mem_sortedSet.1 held
    · intro held
      have found : ∃ row, lookup (nativeRows readings observations rows) transactionId = some row := by
        obtain ⟨outRow, inRow, pair, named⟩ := (mem_held distinct slow).1 held
        obtain ⟨population, grouped, outMember, inMember⟩ := pair.together
        obtain ⟨outListed, inListed⟩ := population_rows grouped outMember inMember
        rcases named with rfl | rfl
        · exact ⟨outRow, by rw [lookup_native distinct outListed, if_pos pair.native.1]⟩
        · exact ⟨inRow, by rw [lookup_native distinct inListed, if_pos pair.native.2]⟩
      obtain ⟨row, found⟩ := found
      refine ⟨quarantineOf transactionId row, mem_filterMap.2 ⟨transactionId, mem_sortedSet.2 held, ?_⟩, rfl⟩
      rw [scopeOf, found, Option.map_some]
  · intro population _ roles _ scope sources targets outRow outListed inRow inListed
    rw [source_finds_iff outListed, target_finds_iff slow inListed]
    exact ⟨fun found => ⟨outListed, found.2⟩, fun found => ⟨inListed, found.2⟩⟩

def claimRow (id walletId direction : String) (amount : Int) (kind source metadata : String) : HashRow String :=
  { id, workspaceId := "w", profileId := "p", walletId, direction, amount := some amount, kind := some kind,
    paymentHash := some (String.ofList (replicate 64 'a')), paymentHashSource := some source, excluded := false, metadata }

def twoClaims : List (HashRow String) :=
  [claimRow "pay" "node" "outbound" 100000000 "lnd_pay" "lnd" "lnd",
    claimRow "claim-1" "cold" "inbound" 99000000 "deposit" "chain_script_unique_outpoint" "",
    claimRow "claim-2" "cold" "inbound" 98000000 "deposit" "chain_script_unique_outpoint" ""]

def plainReadings : HashReadings String where
  importSource metadata := some metadata
  bitcoinNetworkDomain _ := some "main"
  rowHasVerifiedUniqueClaimOutpoint _ := true
  rowHasCurrentAuthoritativeObservation _ := true

def twoClaimObservations (id : String) : Option QuantityObservation :=
  if id = "pay" then some { sampleSent with transactionId := id, walletId := "node" }
  else if id = "claim-1" then some { sampleReceived with transactionId := id, walletId := "cold" }
  else if id = "claim-2" then some { sampleReceived with transactionId := id, walletId := "cold", quantityHash := sampleHash 'c' }
  else none

def payRow : HashRow String := claimRow "pay" "node" "outbound" 100000000 "lnd_pay" "lnd" "lnd"

def firstClaim : HashRow String := claimRow "claim-1" "cold" "inbound" 99000000 "deposit" "chain_script_unique_outpoint" ""

/-- The payment could have funded either claim, so it is held. -/
theorem ambiguous_hash_quarantines_quadratic_two_claims :
    "pay" ∈ (ambiguousHashQuarantines plainReadings (fun n => n / 100) twoClaims twoClaimObservations [] [] []).map
      HashQuarantine.transactionId := by
  have pair : AmbiguousPair plainReadings (fun n => n / 100) twoClaims twoClaimObservations [] [] [] payRow firstClaim :=
    { together := shared_population_iff.2 ⟨mem_filter.2 ⟨.head _, rfl⟩, mem_filter.2 ⟨.tail _ (.head _), rfl⟩, rfl, rfl,
        by decide +kernel, rfl, by decide⟩
      native := by decide +kernel
      roles := by decide +kernel
      unoccupied := by decide
      positive := by decide
      wallets := by decide
      conserving := by decide +kernel
      notDismissed := by decide
      notSolo := fun _ never => (not_mem_nil never).elim }
  exact ((ambiguous_hash_quarantines_quadratic (by decide) (fun n => by omega)).1 "pay").2
    ⟨payRow, firstClaim, pair, .inl rfl⟩

end

end Kassiber.Custody.AmbiguousHashes

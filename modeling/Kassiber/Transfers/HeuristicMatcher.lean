import Kassiber.Lib.Bisect
import Kassiber.Lib.Sorting
import Kassiber.Custody.Canonical

/-!
Pairing outbound with inbound rows by time and amount.
-/

namespace Kassiber.Transfers.Heuristic
open Lib.Bisect Lib.Sorting List

def btcAssetAliases : List String := ["BTC", "XBT", "XXBT"]
def lbtcAssetAliases : List String := ["LBTC", "L-BTC"]

def canonicalBitcoinAsset (value : String) : Option String :=
  let code := (Custody.strip value).toUpper
  if code ∈ btcAssetAliases then some "BTC"
  else if code ∈ lbtcAssetAliases then some "LBTC"
  else none

def lightningInferenceWalletKinds : List String := ["cln", "coreln", "lightning", "lnd", "nwc", "phoenix"]

def chainInferenceWalletKinds : List String := ["address", "descriptor", "samourai", "silent-payment", "wasabi", "xpub"]

def normalizeWalletKindAlias (value : String) : String :=
  let normalized := String.ofList ((Custody.strip value).toLower.toList.map fun c => if c = '_' then '-' else c)
  if normalized = "core-ln" ∨ normalized = "core-lightning" then "coreln" else normalized

def kindManual : String := "manual"

def defaultKindFor (outAsset inAsset outWalletKind inWalletKind : String) : String :=
  match canonicalBitcoinAsset outAsset, canonicalBitcoinAsset inAsset with
  | some outAsset, some inAsset =>
    let outKind := normalizeWalletKindAlias outWalletKind
    let inKind := normalizeWalletKindAlias inWalletKind
    let outIsLightning := decide (outKind ∈ lightningInferenceWalletKinds)
    let inIsLightning := decide (inKind ∈ lightningInferenceWalletKinds)
    if outIsLightning && !inIsLightning then "reverse-submarine-swap"
    else if inIsLightning && !outIsLightning then "submarine-swap"
    else if outKind ∈ chainInferenceWalletKinds ∧ inKind ∈ chainInferenceWalletKinds then
      if outAsset = "BTC" ∧ inAsset = "LBTC" then "peg-in"
      else if outAsset = "LBTC" ∧ inAsset = "BTC" then "peg-out"
      else kindManual
    else kindManual
  | _, _ => kindManual

/-- The fields of a row that the matcher reads, with the metadata that its scope and its network are read from. -/
structure MatchRow (μ : Type) where
  id : String
  occurredAt : Option String
  amount : Option Int
  walletId : Option String
  asset : Option String
  walletKind : Option String
  metadata : μ

/-- How timestamps are parsed, and what the scope and network evidence of a row say. -/
structure Readings (μ : Type) where
  isoToSeconds : Option String → Option ℚ
  observedOnchainTxid : MatchRow μ → Option String
  bitcoinNetworkDomain : MatchRow μ → Option String

/-- The window and the two fee bounds, the first as the truncated product it is used for. -/
structure Tolerances where
  timeWindowSeconds : Int
  feePctOf : Nat → Int
  feeSatsMin : Int

def satsToMsat : Int := 1000

def feeThresholdMsat (tolerances : Tolerances) (outAmountMsat : Int) : Int :=
  max (tolerances.feePctOf outAmountMsat.natAbs) (tolerances.feeSatsMin * satsToMsat)

def compatibleNetworkDomains (left right : Option String) : Prop := left = none ∨ right = none ∨ left = right

instance (left right : Option String) : Decidable (compatibleNetworkDomains left right) :=
  inferInstanceAs (Decidable (_ ∨ _))

def unknownOccurredAt : String := "1970-01-01T00:00:00Z"

structure InEntry (μ : Type) where
  seconds : ℚ
  row : MatchRow μ
  amount : Int
  txid : Option String
  domain : Option String

def sameAsset (outAsset inAsset : String) : Bool :=
  match canonicalBitcoinAsset outAsset, canonicalBitcoinAsset inAsset with
  | some outRouteAsset, some inRouteAsset => outRouteAsset = inRouteAsset
  | _, _ => outAsset.toUpper = inAsset.toUpper

section
variable {μ : Type} (readings : Readings μ) (tolerances : Tolerances)

def occurredAtSeconds (value : Option String) : Option ℚ :=
  if Custody.strip (value.getD "") = unknownOccurredAt then none else readings.isoToSeconds value

def inEntry (inRow : MatchRow μ) : Option (InEntry μ) := do
  let seconds ← occurredAtSeconds readings inRow.occurredAt
  let amount := inRow.amount.getD 0
  if amount ≤ 0 then none
  else some { seconds, row := inRow, amount, txid := readings.observedOnchainTxid inRow,
              domain := readings.bitcoinNetworkDomain inRow }

def admits (outRow : MatchRow μ) (outAmount : Int) (entry : InEntry μ) : Prop :=
  let outAsset := outRow.asset.getD ""
  let inAsset := entry.row.asset.getD ""
  let outTxid := readings.observedOnchainTxid outRow
  let delta := outAmount - entry.amount
  compatibleNetworkDomains (readings.bitcoinNetworkDomain outRow) entry.domain ∧
  outRow.walletId ≠ entry.row.walletId ∧
  ¬ (delta < 0 ∨ feeThresholdMsat tolerances outAmount < delta) ∧
  ¬ (sameAsset outAsset inAsset ∧ outTxid ≠ none ∧ entry.txid ≠ none ∧ outTxid ≠ entry.txid) ∧
  ¬ (¬ sameAsset outAsset inAsset ∧
    defaultKindFor outAsset inAsset (outRow.walletKind.getD "") (entry.row.walletKind.getD "") = kindManual)

instance (outRow : MatchRow μ) (outAmount : Int) (entry : InEntry μ) :
    Decidable (admits readings tolerances outRow outAmount entry) :=
  inferInstanceAs (Decidable (_ ∧ _ ∧ _ ∧ _ ∧ _))

def pairsOf (inEntries : List (InEntry μ)) (outRow : MatchRow μ) : List (MatchRow μ × MatchRow μ) :=
  match occurredAtSeconds readings outRow.occurredAt with
  | none => []
  | some outSeconds =>
    let outAmount := outRow.amount.getD 0
    if outAmount ≤ 0 then []
    else
      let inTimes := inEntries.map (·.seconds)
      let lo := bisectLeft inTimes (outSeconds - tolerances.timeWindowSeconds)
      let hi := bisectRight inTimes (outSeconds + tolerances.timeWindowSeconds)
      ((inEntries.take hi).drop lo).filterMap fun entry =>
        if admits readings tolerances outRow outAmount entry then some (outRow, entry.row) else none

def matchHeuristic (outRows inRows : List (MatchRow μ)) : List (MatchRow μ × MatchRow μ) :=
  outRows.flatMap (pairsOf readings tolerances (sortedBy (·.seconds) (inRows.filterMap (inEntry readings))))

/-- Two rows that belong together by time, amount, wallets, networks and route. -/
structure Matches (outRow inRow : MatchRow μ) : Prop where
  inWindow : ∃ outSeconds inSeconds, occurredAtSeconds readings outRow.occurredAt = some outSeconds ∧
    occurredAtSeconds readings inRow.occurredAt = some inSeconds ∧
    |outSeconds - inSeconds| ≤ tolerances.timeWindowSeconds
  outPositive : 0 < outRow.amount.getD 0
  inPositive : 0 < inRow.amount.getD 0
  wallets : outRow.walletId ≠ inRow.walletId
  networks : compatibleNetworkDomains (readings.bitcoinNetworkDomain outRow) (readings.bitcoinNetworkDomain inRow)
  noGain : 0 ≤ outRow.amount.getD 0 - inRow.amount.getD 0
  withinFee : outRow.amount.getD 0 - inRow.amount.getD 0 ≤ feeThresholdMsat tolerances (outRow.amount.getD 0)
  oneTransaction : sameAsset (outRow.asset.getD "") (inRow.asset.getD "") →
    ∀ outTxid inTxid, readings.observedOnchainTxid outRow = some outTxid →
      readings.observedOnchainTxid inRow = some inTxid → outTxid = inTxid
  recognizedRoute : ¬ sameAsset (outRow.asset.getD "") (inRow.asset.getD "") →
    defaultKindFor (outRow.asset.getD "") (inRow.asset.getD "") (outRow.walletKind.getD "") (inRow.walletKind.getD "") ≠
      kindManual

variable {readings tolerances}

/-- The entry of an inbound row that lies in the window and passes the inner loop. -/
def partner (readings : Readings μ) (tolerances : Tolerances) (outSeconds : ℚ) (outRow inRow : MatchRow μ) :
    Option (MatchRow μ × MatchRow μ) :=
  (inEntry readings inRow).bind fun entry =>
    if (outSeconds - tolerances.timeWindowSeconds ≤ entry.seconds ∧
        entry.seconds ≤ outSeconds + tolerances.timeWindowSeconds) ∧
      admits readings tolerances outRow (outRow.amount.getD 0) entry then some (outRow, inRow) else none

variable {inRow outRow : MatchRow μ}

theorem inEntry_eq {entry : InEntry μ} : inEntry readings inRow = some entry ↔
    occurredAtSeconds readings inRow.occurredAt = some entry.seconds ∧ 0 < inRow.amount.getD 0 ∧
      entry.row = inRow ∧ entry.amount = inRow.amount.getD 0 ∧ entry.txid = readings.observedOnchainTxid inRow ∧
      entry.domain = readings.bitcoinNetworkDomain inRow := by
  unfold inEntry
  simp only [Option.bind_eq_bind, Option.bind_eq_some_iff, Option.ite_none_left_eq_some, not_le, Option.some.injEq]
  constructor
  · rintro ⟨seconds, parsed, positive, rfl⟩
    exact ⟨parsed, positive, rfl, rfl, rfl, rfl⟩
  · rintro ⟨parsed, positive, row, amount, txid, domain⟩
    refine ⟨entry.seconds, parsed, positive, ?_⟩
    rw [← amount, ← txid, ← domain]
    subst row
    rfl

variable {outSeconds : ℚ}

theorem partner_iff
    (parsed : occurredAtSeconds readings outRow.occurredAt = some outSeconds) (positive : 0 < outRow.amount.getD 0) :
    partner readings tolerances outSeconds outRow inRow = some (outRow, inRow) ↔
      Matches readings tolerances outRow inRow := by
  unfold partner
  rw [Option.bind_eq_some_iff]
  constructor
  · rintro ⟨entry, made, passes⟩
    obtain ⟨parsed', positive', rfl, amount, txid, domain⟩ := inEntry_eq.1 made
    obtain ⟨⟨⟨after, before⟩, networks, wallets, fee, transaction, route⟩, -⟩ := Option.ite_none_right_eq_some.1 passes
    rw [amount, not_or, not_lt, not_lt] at fee
    rw [domain] at networks
    rw [txid] at transaction
    exact {
      inWindow := ⟨outSeconds, entry.seconds, parsed, parsed', abs_le.2 ⟨by linarith, by linarith⟩⟩
      outPositive := positive, inPositive := positive', wallets, networks, noGain := fee.1, withinFee := fee.2
      oneTransaction := fun same outTxid inTxid hout hin => by_contra fun different =>
        transaction ⟨same, by simp [hout], by simp [hin], by simpa [hout, hin] using different⟩
      recognizedRoute := fun different manual => route ⟨different, manual⟩ }
  · intro pair
    obtain ⟨seconds, inSeconds, hout, hin, near⟩ := pair.inWindow
    obtain rfl : seconds = outSeconds := Option.some_injective _ (hout.symm.trans parsed)
    obtain ⟨after, before⟩ := abs_le.1 near
    refine ⟨{ seconds := inSeconds, row := inRow, amount := inRow.amount.getD 0
              txid := readings.observedOnchainTxid inRow, domain := readings.bitcoinNetworkDomain inRow },
      inEntry_eq.2 ⟨hin, pair.inPositive, rfl, rfl, rfl, rfl⟩, if_pos ⟨⟨?_, ?_⟩, pair.networks, pair.wallets, ?_, ?_, ?_⟩⟩
    · dsimp only
      linarith
    · dsimp only
      linarith
    · exact not_or.2 ⟨not_lt.2 pair.noGain, not_lt.2 pair.withinFee⟩
    · rintro ⟨same, known, known', different⟩
      obtain ⟨outTxid, out⟩ := Option.ne_none_iff_exists'.1 known
      obtain ⟨inTxid, into⟩ := Option.ne_none_iff_exists'.1 known'
      dsimp only at into different
      exact different (by rw [out, into, pair.oneTransaction same outTxid inTxid out into])
    · rintro ⟨different, manual⟩
      exact pair.recognizedRoute different manual

theorem partner_eq {pair : MatchRow μ × MatchRow μ}
    (found : partner readings tolerances outSeconds outRow inRow = some pair) : pair = (outRow, inRow) := by
  obtain ⟨entry, -, passes⟩ := Option.bind_eq_some_iff.1 found
  exact (Option.some_injective _ (Option.ite_none_right_eq_some.1 passes).2).symm

theorem pairsOf_perm
    (parsed : occurredAtSeconds readings outRow.occurredAt = some outSeconds) (positive : 0 < outRow.amount.getD 0)
    (inRows : List (MatchRow μ)) :
    (pairsOf readings tolerances (sortedBy (·.seconds) (inRows.filterMap (inEntry readings))) outRow).Perm
      (inRows.filterMap (partner readings tolerances outSeconds outRow)) := by
  unfold pairsOf
  rw [parsed]
  dsimp only
  rw [if_neg (not_le.2 positive), slice_eq (sortedBy_pairwise _ _), filterMap_filter]
  refine ((sortedBy_perm _ _).filterMap _).trans ?_
  rw [filterMap_filterMap]
  refine List.Perm.of_eq (filterMap_congr fun inRow _ => ?_)
  unfold partner
  cases made : inEntry readings inRow with
  | none => rfl
  | some entry =>
    obtain ⟨-, -, row, -⟩ := inEntry_eq.1 made
    rw [Option.bind_some, Option.bind_some, row]
    by_cases inside : outSeconds - tolerances.timeWindowSeconds ≤ entry.seconds ∧
        entry.seconds ≤ outSeconds + tolerances.timeWindowSeconds
    · rw [if_pos (decide_eq_true inside)]
      simp only [inside, true_and]
    · rw [if_neg (by simpa using inside), if_neg fun both => inside both.1]

open scoped Classical in
/-- The matcher yields the pairs of the quadratic one, each as often. -/
theorem match_heuristic_quadratic (outRows inRows : List (MatchRow μ)) :
    (matchHeuristic readings tolerances outRows inRows).Perm
      ((outRows ×ˢ inRows).filter fun pair => Matches readings tolerances pair.1 pair.2) := by
  have product : (outRows ×ˢ inRows).filter (fun pair => Matches readings tolerances pair.1 pair.2) =
      outRows.flatMap fun outRow => (inRows.map (Prod.mk outRow)).filter fun pair => Matches readings tolerances pair.1 pair.2 :=
    filter_flatMap
  rw [product]
  refine List.Perm.flatMap_left _ fun outRow _ => ?_
  have barren : (∀ inRow, ¬ Matches readings tolerances outRow inRow) →
      (inRows.map (Prod.mk outRow)).filter (fun pair => Matches readings tolerances pair.1 pair.2) = [] := by
    intro unmatched
    refine filter_eq_nil_iff.2 fun pair member => ?_
    obtain ⟨inRow, -, rfl⟩ := mem_map.1 member
    simpa using unmatched inRow
  cases parsed : occurredAtSeconds readings outRow.occurredAt with
  | none =>
    rw [barren fun inRow pair => ?_]
    · unfold pairsOf
      rw [parsed]
    · obtain ⟨seconds, -, there, -⟩ := pair.inWindow
      rw [parsed] at there
      cases there
  | some outSeconds =>
    by_cases positive : 0 < outRow.amount.getD 0
    · refine (pairsOf_perm parsed positive inRows).trans (List.Perm.of_eq ?_)
      rw [filter_map, ← filterMap_eq_map, filterMap_filter]
      refine filterMap_congr fun inRow _ => ?_
      dsimp only [Function.comp_apply]
      by_cases pair : Matches readings tolerances outRow inRow
      · rw [(partner_iff parsed positive).2 pair, if_pos (decide_eq_true pair)]
      · rw [if_neg (by simpa using pair)]
        cases found : partner readings tolerances outSeconds outRow inRow with
        | none => rfl
        | some other => exact absurd ((partner_iff parsed positive).1 (found.trans (by rw [partner_eq found]))) pair
    · rw [barren fun inRow pair => positive pair.outPositive]
      unfold pairsOf
      rw [parsed]
      dsimp only
      rw [if_pos (not_lt.1 positive)]

end

end Kassiber.Transfers.Heuristic

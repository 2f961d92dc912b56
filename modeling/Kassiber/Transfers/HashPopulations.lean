import Kassiber.Transfers.HeuristicMatcher

/-!
The rows that carry one payment hash, split by the network they are known to be on.
-/

namespace Kassiber.Transfers.Hashes
open Lib.Sorting Heuristic List

/-- The fields of a ledger row that its payment hash is matched by, with the stored JSON it is attested in. -/
structure HashRow (μ : Type) where
  id : String
  workspaceId : String
  profileId : String
  walletId : String
  direction : String
  amount : Option Int
  kind : Option String
  paymentHash : Option String
  paymentHashSource : Option String
  excluded : Bool
  metadata : μ

/-- What the stored JSON of a row says of its import, its network, its claim outpoint and its observation. -/
structure HashReadings (μ : Type) where
  importSource : μ → Option String
  bitcoinNetworkDomain : HashRow μ → Option String
  rowHasVerifiedUniqueClaimOutpoint : HashRow μ → Bool
  rowHasCurrentAuthoritativeObservation : HashRow μ → Bool

inductive HashRole where
  | lightningNode
  | chainHtlc
  | chainHtlcUnscoped
  | providerOrImport
  | unknown
  deriving DecidableEq

def normalizedLower (value : Option String) : String := (Custody.strip (value.getD "")).toLower

def normalizedPaymentHash (value : Option String) : String :=
  let text := Custody.strip (value.getD "")
  if text.length ≠ 64 ∨ (text.toList.any fun c => !Custody.isHexDigit c) then "" else text.toLower

def nonLightningPaymentHashSources : List String := ["chain_script", "chain_script_unique_outpoint"]

section
variable {μ : Type} (readings : HashReadings μ)

def isLightningPaymentHashRow (row : HashRow μ) : Bool :=
  let source := normalizedLower row.paymentHashSource
  let kind := normalizedLower row.kind
  let importSource := normalizedLower (readings.importSource row.metadata)
  if source ∈ nonLightningPaymentHashSources then false
  else if source = "lnd" then importSource = "lnd" ∧ kind ∈ ["lnd_invoice", "lnd_pay"]
  else if source = "core_lightning" then
    importSource = "core-lightning" ∧ kind ∈ ["cln_invoice", "cln_pay", "ln_invoice", "ln_pay"]
  else false

def paymentHashRole (row : HashRow μ) : HashRole :=
  let source := normalizedLower row.paymentHashSource
  if isLightningPaymentHashRow readings row then .lightningNode
  else if source = "chain_script_unique_outpoint" then
    if readings.rowHasVerifiedUniqueClaimOutpoint row then .chainHtlc else .chainHtlcUnscoped
  else if source = "chain_script" then .chainHtlcUnscoped
  else if source ∈ ["boltz", "boltz-regtest", "bullbitcoin", "generic_ledger", "importer", "importer_backfill"] then
    .providerOrImport
  else .unknown

/-- The two default fee bounds, and the default window, with the truncated product of the first as given. -/
def defaultTolerances (feePctOf : Nat → Int) : Tolerances :=
  { timeWindowSeconds := 24 * 60 * 60, feePctOf, feeSatsMin := 2500 }

def amountOf (row : HashRow μ) : Int := row.amount.getD 0

def paymentHashAmountsConserve (feePctOf : Nat → Int) (outRow inRow : HashRow μ) : Bool :=
  let outAmount := amountOf outRow
  let inAmount := amountOf inRow
  if outAmount ≤ 0 ∨ inAmount ≤ 0 ∨ outAmount < inAmount then false
  else outAmount - inAmount ≤ feeThresholdMsat (defaultTolerances feePctOf) outAmount

abbrev Sided (μ : Type) := HashRow μ ⊕ HashRow μ

def Sided.row : Sided μ → HashRow μ
  | .inl row => row
  | .inr row => row

def hashOf (sided : Sided μ) : String := normalizedPaymentHash sided.row.paymentHash

def domainOf (sided : Sided μ) : Option String := readings.bitcoinNetworkDomain sided.row

def hashed (outRows inRows : List (HashRow μ)) : List (Sided μ) :=
  (outRows.map Sum.inl ++ inRows.map Sum.inr).filter fun sided => ¬ (hashOf sided = "" ∨ sided.row.excluded)

def outsOf (members : List (Sided μ)) : List (HashRow μ) := members.filterMap Sum.getLeft?

def insOf (members : List (Sided μ)) : List (HashRow μ) := members.filterMap Sum.getRight?

def membersAt (domains : List (Option String × List (Sided μ))) (domain : Option String) : List (Sided μ) :=
  ((domains.find? fun entry => entry.1 = domain).map Prod.snd).getD []

def knownDomains (domains : List (Option String × List (Sided μ))) : List (Option String) :=
  (domains.map Prod.fst).filter (· ≠ none)

def competing (domains : List (Option String × List (Sided μ))) : List (Option String) :=
  if knownDomains domains = [] then [none] else knownDomains domains

/-- The two sides of a domain, joined by the rows of no known domain. -/
def populationAt (domains : List (Option String × List (Sided μ))) (domain : Option String) :
    List (HashRow μ) × List (HashRow μ) :=
  let own := membersAt domains domain
  let unknown := membersAt domains none
  if domain = none then (outsOf own, insOf own) else (outsOf own ++ outsOf unknown, insOf own ++ insOf unknown)

def paymentHashPopulations (outRows inRows : List (HashRow μ)) : List (List (HashRow μ) × List (HashRow μ)) :=
  (groupBy hashOf (hashed outRows inRows)).flatMap fun group =>
    let domains := groupBy (domainOf readings) group.2
    ((competing domains).map (populationAt domains)).filter fun population =>
      !population.1.isEmpty && !population.2.isEmpty

end

section
variable {μ : Type} {readings : HashReadings μ} {outRows inRows : List (HashRow μ)} {outRow inRow : HashRow μ}
  {members : List (Sided μ)} {domain : Option String}

variable {row : HashRow μ}

theorem mem_outsOf : row ∈ outsOf members ↔ Sum.inl row ∈ members := by
  simp only [outsOf, mem_filterMap, Sum.getLeft?_eq_some_iff, exists_eq_right]

theorem mem_insOf : row ∈ insOf members ↔ Sum.inr row ∈ members := by
  simp only [insOf, mem_filterMap, Sum.getRight?_eq_some_iff, exists_eq_right]

theorem mem_hashed {sided : Sided μ} : sided ∈ hashed outRows inRows ↔
    (sided ∈ outRows.map Sum.inl ∨ sided ∈ inRows.map Sum.inr) ∧ hashOf sided ≠ "" ∧ sided.row.excluded = false := by
  simp only [hashed, mem_filter, mem_append, decide_eq_true_eq, not_or, Bool.not_eq_true]

theorem mem_membersAt {sided : Sided μ} :
    sided ∈ membersAt (groupBy (domainOf readings) members) domain ↔ sided ∈ members ∧ domainOf readings sided = domain := by
  unfold membersAt
  cases found : (groupBy (domainOf readings) members).find? fun entry => decide (entry.1 = domain) with
  | none =>
    have absent := List.find?_eq_none.1 found
    refine ⟨fun member => absurd member not_mem_nil, fun ⟨member, own⟩ => ?_⟩
    exact absurd (decide_eq_true own) (absent _ (exists_group (domainOf readings) member))
  | some entry =>
    obtain ⟨name, listed⟩ := entry
    have same : name = domain := by simpa using find?_some found
    have content := (mem_groupBy.1 (mem_of_find?_eq_some found)).1
    simp only [Option.map_some, Option.getD_some, content, mem_filter, decide_eq_true_eq, same]

theorem mem_knownDomains :
    domain ∈ knownDomains (groupBy (domainOf readings) members) ↔
      domain ≠ none ∧ ∃ sided ∈ members, domainOf readings sided = domain := by
  obtain ⟨-, -, keys⟩ := groupBy_grouping (domainOf readings) members
  rw [knownDomains, mem_filter, keys, decide_eq_true_eq, and_comm, mem_map]

theorem mem_population :
    (row ∈ (populationAt (groupBy (domainOf readings) members) domain).1 ↔
      Sum.inl row ∈ members ∧ (readings.bitcoinNetworkDomain row = domain ∨ readings.bitcoinNetworkDomain row = none)) ∧
    (row ∈ (populationAt (groupBy (domainOf readings) members) domain).2 ↔
      Sum.inr row ∈ members ∧ (readings.bitcoinNetworkDomain row = domain ∨ readings.bitcoinNetworkDomain row = none)) := by
  unfold populationAt
  by_cases unknown : domain = none
  · subst unknown
    simp [mem_outsOf, mem_insOf, mem_membersAt, domainOf, Sided.row]
  · simp [unknown, mem_outsOf, mem_insOf, mem_membersAt, domainOf, Sided.row, ← and_or_left]

theorem competing_iff (outMember : Sum.inl outRow ∈ members) (inMember : Sum.inr inRow ∈ members) :
    (∃ domain ∈ competing (groupBy (domainOf readings) members),
      (readings.bitcoinNetworkDomain outRow = domain ∨ readings.bitcoinNetworkDomain outRow = none) ∧
      (readings.bitcoinNetworkDomain inRow = domain ∨ readings.bitcoinNetworkDomain inRow = none)) ↔
      compatibleNetworkDomains (readings.bitcoinNetworkDomain outRow) (readings.bitcoinNetworkDomain inRow) := by
  unfold competing compatibleNetworkDomains
  constructor
  · rintro ⟨domain, -, outSide, inSide⟩
    rcases outSide with rfl | outUnknown
    · rcases inSide with same | inUnknown
      · exact .inr (.inr same.symm)
      · exact .inr (.inl inUnknown)
    · exact .inl outUnknown
  · intro compatible
    by_cases unknown : knownDomains (groupBy (domainOf readings) members) = []
    · have absent : ∀ sided ∈ members, domainOf readings sided = none := by
        intro sided member
        by_contra present
        have listed := mem_knownDomains.2 ⟨present, sided, member, rfl⟩
        rw [unknown] at listed
        cases listed
      rw [if_pos unknown]
      exact ⟨none, mem_singleton_self none, .inl (absent _ outMember), .inl (absent _ inMember)⟩
    · rw [if_neg unknown]
      by_cases outUnknown : readings.bitcoinNetworkDomain outRow = none
      · by_cases inUnknown : readings.bitcoinNetworkDomain inRow = none
        · obtain ⟨domain, listed⟩ := exists_mem_of_ne_nil _ unknown
          exact ⟨domain, listed, .inr outUnknown, .inr inUnknown⟩
        · exact ⟨_, mem_knownDomains.2 ⟨inUnknown, _, inMember, rfl⟩, .inr outUnknown, .inl rfl⟩
      · refine ⟨_, mem_knownDomains.2 ⟨outUnknown, _, outMember, rfl⟩, .inl rfl, ?_⟩
        rcases compatible with outNone | inNone | same
        · exact absurd outNone outUnknown
        · exact .inr inNone
        · exact .inl same.symm

/-- A pair of rows stands in one population exactly when both carry the same hash, none is excluded and no two
known networks part them. -/
theorem shared_population_iff : (∃ population ∈ paymentHashPopulations readings outRows inRows,
      outRow ∈ population.1 ∧ inRow ∈ population.2) ↔
    outRow ∈ outRows ∧ inRow ∈ inRows ∧ outRow.excluded = false ∧ inRow.excluded = false ∧
      normalizedPaymentHash outRow.paymentHash ≠ "" ∧
      normalizedPaymentHash outRow.paymentHash = normalizedPaymentHash inRow.paymentHash ∧
      compatibleNetworkDomains (readings.bitcoinNetworkDomain outRow) (readings.bitcoinNetworkDomain inRow) := by
  unfold paymentHashPopulations
  simp only [mem_flatMap, mem_filter, mem_map]
  constructor
  · rintro ⟨population, ⟨⟨hash, members⟩, grouped, ⟨domain, listed, rfl⟩, -⟩, outMember, inMember⟩
    obtain ⟨rfl, -⟩ := mem_groupBy.1 grouped
    obtain ⟨outMember, outSide⟩ := mem_population.1.1 outMember
    obtain ⟨inMember, inSide⟩ := mem_population.2.1 inMember
    have compatible := (competing_iff outMember inMember).1 ⟨domain, listed, outSide, inSide⟩
    rw [mem_filter, mem_hashed, decide_eq_true_eq] at outMember inMember
    obtain ⟨⟨outListed, outHash, outOpen⟩, outSame⟩ := outMember
    obtain ⟨⟨inListed, -, inOpen⟩, inSame⟩ := inMember
    exact ⟨by simpa using outListed, by simpa using inListed, outOpen, inOpen, outHash, outSame.trans inSame.symm,
      compatible⟩
  · rintro ⟨outListed, inListed, outOpen, inOpen, outHash, same, compatible⟩
    have outHashed : Sum.inl outRow ∈ hashed outRows inRows :=
      mem_hashed.2 ⟨.inl (mem_map_of_mem outListed), outHash, outOpen⟩
    have inHashed : Sum.inr inRow ∈ hashed outRows inRows :=
      mem_hashed.2 ⟨.inr (mem_map_of_mem inListed), by rw [hashOf, Sided.row, ← same]; exact outHash, inOpen⟩
    have grouped := exists_group hashOf outHashed
    have outMember : Sum.inl outRow ∈ (hashed outRows inRows).filter fun y => hashOf y = hashOf (Sum.inl outRow) :=
      mem_filter.2 ⟨outHashed, decide_eq_true rfl⟩
    have inMember : Sum.inr inRow ∈ (hashed outRows inRows).filter fun y => hashOf y = hashOf (Sum.inl outRow) :=
      mem_filter.2 ⟨inHashed, decide_eq_true same.symm⟩
    obtain ⟨domain, listed, outSide, inSide⟩ := (competing_iff outMember inMember).2 compatible
    have outIn := mem_population.1.2 ⟨outMember, outSide⟩
    have inIn := mem_population.2.2 ⟨inMember, inSide⟩
    refine ⟨_, ⟨_, grouped, ⟨domain, listed, rfl⟩, ?_⟩, outIn, inIn⟩
    rw [Bool.and_eq_true, Bool.not_eq_true', Bool.not_eq_true', isEmpty_eq_false_iff, isEmpty_eq_false_iff]
    exact ⟨ne_nil_of_mem outIn, ne_nil_of_mem inIn⟩

end

end Kassiber.Transfers.Hashes

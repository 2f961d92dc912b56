import Kassiber.Funds.LineageOrder

/-!
A target that runs out of its budget stores a failure where it stops.
-/

namespace Kassiber.Funds
open Lib.Sorting Lib.MemoSearch Kassiber.Custody List

variable {ownedIndex : OwnedIndex} {rows : List FundsRow} {skipRow : FundsRow → Bool}
  {memo : LineageMemo} {n : Nat}

variable {key : LineageKey} {budget vout : Int}

theorem ancestorDistribution_known {result : Option Distribution}
    (known : memo key = some result) (budget : Int) :
    ancestorDistribution ownedIndex rows skipRow memo budget key = (result, memo, budget) := by
  unfold ancestorDistribution
  dsimp only
  rw [evaluate_known known]
  dsimp only
  rw [known]
  rfl

theorem ancestorDistribution_leaf {own : Distribution} (fresh : memo key = none)
    (leaf : classifyTransaction ownedIndex rows skipRow key = .leaf own) (funded : 0 < budget) :
    ancestorDistribution ownedIndex rows skipRow memo budget key =
      (some own, Function.update memo key (some (some own)), budget - 1) := by
  have classified : (ancestorGraph ownedIndex rows skipRow).classify key = .leaf own := leaf
  unfold ancestorDistribution
  dsimp only
  rw [evaluate_leaf fresh funded classified]
  dsimp only
  rw [Function.update_self]
  rfl

theorem ancestorDistribution_broke (fresh : memo key = none) (broke : budget ≤ 0) :
    ancestorDistribution ownedIndex rows skipRow memo budget key =
      (none, Function.update memo key (some none), budget - 1) := by
  unfold ancestorDistribution
  dsimp only
  rw [evaluate_broke fresh broke]
  dsimp only
  rw [Function.update_self]
  rfl

theorem gatherParents_exhausted {wallet chain network : String} {front : List (String × Int)} {last : String × Int}
    (leaves : ∀ entry ∈ front, ∃ own,
      classifyTransaction ownedIndex rows skipRow { walletId := wallet, chain, network, txid := entry.1 } = .leaf own)
    (distinct : ((front ++ [last]).map Prod.fst).Nodup) (memo : LineageMemo)
    (fresh : ∀ entry ∈ front ++ [last], memo { walletId := wallet, chain, network, txid := entry.1 } = none)
    (byParent : Distribution) :
    ∃ later, gatherParents ownedIndex rows skipRow wallet chain network (front ++ [last]) memo front.length byParent =
        (none, later) ∧
      later { walletId := wallet, chain, network, txid := last.1 } = some none := by
  induction front generalizing memo byParent with
  | nil =>
    refine ⟨Function.update memo { walletId := wallet, chain, network, txid := last.1 } (some none), ?_,
      Function.update_self ..⟩
    rw [nil_append, gatherParents, length_nil, Nat.cast_zero,
      ancestorDistribution_broke (fresh last (mem_singleton_self _)) le_rfl]
  | cons entry rest ih =>
    obtain ⟨own, leaf⟩ := leaves entry (.head _)
    have missing := fresh entry (.head _)
    have funded : (0 : Int) < ((entry :: rest).length : Nat) := by
      rw [length_cons]
      omega
    have left : (((entry :: rest).length : Nat) : Int) - 1 = (rest.length : Nat) := by
      rw [length_cons]
      omega
    rw [cons_append, map_cons, nodup_cons] at distinct
    rw [cons_append, gatherParents, ancestorDistribution_leaf missing leaf funded]
    dsimp only
    rw [left]
    refine ih (fun other member => leaves other (.tail _ member)) distinct.2 _ ?_ _
    intro other member
    have apart : ({ walletId := wallet, chain, network, txid := other.1 } : LineageKey) ≠
        { walletId := wallet, chain, network, txid := entry.1 } := by
      intro same
      have shared : other.1 = entry.1 := congrArg LineageKey.txid same
      exact distinct.1 (shared ▸ mem_map_of_mem member)
    rw [Function.update_of_ne apart]
    exact fresh other (.tail _ member)

theorem gatherParents_poisoned {wallet chain network txid : String}
    (stored : memo { walletId := wallet, chain, network, txid } = some none) (grossMsat : Int) (rest : List (String × Int))
    (budget : Int) (byParent : Distribution) :
    gatherParents ownedIndex rows skipRow wallet chain network ((txid, grossMsat) :: rest) memo budget byParent =
      (none, memo) := by
  rw [gatherParents, ancestorDistribution_known stored]

theorem derivePass_inbound {targets : List FundsRow} (inbound : ∀ row ∈ targets, row.direction = .inbound)
    (memo : LineageMemo) : derivePass ownedIndex rows skipRow targets memo = [] := by
  induction targets generalizing memo with
  | nil => rfl
  | cons row rest ih =>
    have untargeted : targetInputs ownedIndex rows skipRow row = none := by
      rw [targetInputs, inbound row mem_cons_self]
      rfl
    have nothing : deriveRow ownedIndex rows skipRow memo row = ([], memo) := by
      rw [deriveRow, untargeted]
    rw [derivePass, nothing]
    exact ih (fun other member => inbound other (.tail _ member)) memo

def txidOf (n : Nat) : String :=
  String.ofList (replicate 60 '0' ++ [4096, 256, 16, 1].map fun place => Nat.digitChar (n / place % 16))

def receipt (n : Nat) : FundsRow :=
  { id := txidOf n, walletId := "w", direction := .inbound, amount := 2000000, externalId := txidOf n
    scope := some ("bitcoin", "main", txidOf n), authoritative := true, assetIdentity := "BTC" }

def spendOf (txid : String) (vout : Int) (receipts : List Nat) : FundsRow :=
  { id := txid, walletId := "w", direction := .outbound, amount := 900000, externalId := txid
    scope := some ("bitcoin", "main", txid), authoritative := true
    graph := some (receipts.map fun n =>
      { prevTxid := some (txidOf n), vout := some vout, valueSats := some 1000, script := "0014" })
    declaredInputs := receipts.length, observerOwnedScripts := ["0014"], assetIdentity := "BTC" }

def consolidation (n : Nat) : FundsRow := spendOf (txidOf 10000) 0 (List.range (n + 1))

def payment (n : Nat) : FundsRow := spendOf (txidOf 10001) 1 [n]

def receipts (n : Nat) : List FundsRow := (List.range (n + 1)).map receipt

def outputOf (vout : Int) (n : Nat) : OwnedInput := { prevTxid := txidOf n, vout, msat := 1000000 }

def noInventory : OwnedIndex := fun _ => none

def noHop : FundsRow → Bool := fun _ => false

theorem digit_lt : ∀ m < 16, ∀ n < 16, m < n → Nat.digitChar m < Nat.digitChar n := by decide

theorem txidOf_lt {m n : Nat} (bounded : n < 65536) (less : m < n) : txidOf m < txidOf n := by
  unfold txidOf
  rw [String.lt_iff_toList_lt]
  simp only [String.toList_ofList, map_cons, map_nil]
  refine append_left_lt ?_
  simp only [cons_lt_cons_iff]
  -- The first place at which the numbers differ decides.
  have place : m / 4096 % 16 < n / 4096 % 16 ∨ m / 4096 % 16 = n / 4096 % 16 ∧
      (m / 256 % 16 < n / 256 % 16 ∨ m / 256 % 16 = n / 256 % 16 ∧
        (m / 16 % 16 < n / 16 % 16 ∨ m / 16 % 16 = n / 16 % 16 ∧ m / 1 % 16 < n / 1 % 16)) := by
    have nested : ∀ k : Nat, k / 256 = k / 16 / 16 ∧ k / 4096 = k / 16 / 16 / 16 := fun k =>
      ⟨(Nat.div_div_eq_div_mul k 16 16).symm, by rw [Nat.div_div_eq_div_mul, Nat.div_div_eq_div_mul]⟩
    rw [(nested m).1, (nested m).2, (nested n).1, (nested n).2, Nat.div_one, Nat.div_one]
    omega
  have digit : ∀ {m n : Nat}, m % 16 < n % 16 → Nat.digitChar (m % 16) < Nat.digitChar (n % 16) :=
    fun less => digit_lt _ (Nat.mod_lt _ (by decide)) _ (Nat.mod_lt _ (by decide)) less
  rcases place with first | ⟨first, second | ⟨second, third | ⟨third, fourth⟩⟩⟩
  · exact .inl (digit first)
  · exact .inr ⟨congrArg _ first, .inl (digit second)⟩
  · exact .inr ⟨congrArg _ first, .inr ⟨congrArg _ second, .inl (digit third)⟩⟩
  · exact .inr ⟨congrArg _ first, .inr ⟨congrArg _ second, .inr ⟨congrArg _ third, .inl (digit fourth)⟩⟩⟩

theorem txidOf_inj {m n : Nat} (left : m < 65536) (right : n < 65536) (same : txidOf m = txidOf n) : m = n := by
  rcases Nat.lt_trichotomy m n with less | equal | more
  · exact absurd same (txidOf_lt right less).ne
  · exact equal
  · exact absurd same.symm (txidOf_lt left more).ne

def book (n : Nat) : List FundsRow := consolidation n :: payment n :: receipts n

def reorderedBook (n : Nat) : List FundsRow := payment n :: consolidation n :: receipts n

theorem book_perm (n : Nat) : (book n).Perm (reorderedBook n) := List.Perm.swap ..

theorem blockedScopes_noHop (rows : List FundsRow) (scope : String × String × String) : scope ∉ blockedScopes rows noHop := by
  intro member
  obtain ⟨row, -, blocks⟩ := mem_filterMap.1 member
  cases blocks

theorem filter_lone {α : Type*} {p : α → Bool} {xs : List α} (nodup : xs.Nodup) {x : α} (member : x ∈ xs)
    (passes : p x = true) (only : ∀ y ∈ xs, p y = true → y = x) : xs.filter p = [x] := by
  refine perm_singleton.1 ((perm_ext_iff_of_nodup (nodup.filter p) (nodup_singleton x)).2 ?_)
  intro y
  rw [mem_filter, mem_singleton]
  constructor
  · exact fun ⟨inside, holds⟩ => only y inside holds
  · rintro rfl
    exact ⟨member, passes⟩

theorem receipts_nodup (few : n ≤ 5000) : (receipts n).Nodup := by
  refine List.Nodup.map_on ?_ nodup_range
  intro m inside m' inside' same
  have ids : txidOf m = txidOf m' := congrArg FundsRow.id same
  rw [mem_range] at inside inside'
  exact txidOf_inj (by omega) (by omega) ids

def keyOf (n : Nat) : LineageKey := { walletId := "w", chain := "bitcoin", network := "main", txid := txidOf n }

theorem receipt_classified {n m : Nat} (few : n ≤ 5000) (inside : m < n + 1) :
    classifyTransaction noInventory (book n) noHop (keyOf m) = .leaf [(receipt m, 2000000)] := by
  have inbound : candidates (book n) (keyOf m) .inbound = (receipts n).filter fun row =>
      row.scope = some ("bitcoin", "main", txidOf m) ∧ row.walletId = "w" ∧ row.direction = .inbound := by
    unfold candidates book
    rw [filter_cons_of_neg (by simp [consolidation, spendOf]), filter_cons_of_neg (by simp [payment, spendOf])]
    rfl
  have lone : candidates (book n) (keyOf m) .inbound = [receipt m] := by
    rw [inbound]
    refine filter_lone (receipts_nodup few) (mem_map_of_mem (mem_range.2 inside)) (by simp [receipt]) ?_
    intro row member holds
    obtain ⟨k, listed, rfl⟩ := mem_map.1 member
    rw [mem_range] at listed
    have same : txidOf k = txidOf m := by simpa [receipt] using holds
    rw [txidOf_inj (by omega) (by omega) same]
  unfold classifyTransaction
  rw [if_neg (blockedScopes_noHop _ _), lone]
  rfl

theorem spendOf_inputs (txid : String) (vout : Int) (nonneg : 0 ≤ vout) (numbers : List Nat) (nonempty : numbers ≠ [])
    (chain network : String) :
    ownedInputs noInventory (spendOf txid vout numbers) chain network = some (numbers.map (outputOf vout)) := by
  have each : ∀ n, ownedInput noInventory (spendOf txid vout numbers) chain network
      { prevTxid := some (txidOf n), vout := some vout, valueSats := some 1000, script := "0014" } =
      some (outputOf vout n) := by
    intro n
    simp [ownedInput, outputOf, spendOf, noInventory, not_lt.2 nonneg]
  have all : ∀ listed : List Nat, (listed.map fun n : Nat =>
        ({ prevTxid := some (txidOf n), vout := some vout, valueSats := some 1000, script := "0014" } : GraphInput)).mapM
          (ownedInput noInventory (spendOf txid vout numbers) chain network) =
      some (listed.map (outputOf vout)) := by
    intro listed
    induction listed with
    | nil => rfl
    | cons n rest ih =>
      rw [map_cons, mapM_cons, each, ih]
      rfl
  unfold ownedInputs
  rw [show (spendOf txid vout numbers).graph = some _ from rfl]
  dsimp only
  rw [if_neg, all]
  rintro (empty | different)
  · exact nonempty (map_eq_nil_iff.1 empty)
  · exact different (length_map ..).symm

theorem contributions_ascending {numbers : List Nat} (ascending : numbers.Pairwise (· < ·))
    (bounded : ∀ n ∈ numbers, n < 65536) :
    contributions (numbers.map (outputOf vout)) = numbers.map fun n =>
      (txidOf n, (((numbers.map (outputOf vout)).filter fun input => input.prevTxid = txidOf n).map (·.msat)).sum) := by
  have strict : (numbers.map txidOf).Pairwise (· < ·) := by
    rw [pairwise_map]
    exact ascending.imp_of_mem fun _ member less => txidOf_lt (bounded _ member) less
  have sorted : sortedSet (numbers.map txidOf) = numbers.map txidOf := by
    unfold sortedSet
    rw [dedup_eq_self.2 (strict.imp fun less => less.ne)]
    exact eq_of_perm_of_strict id (sortedBy_perm id _) (sortedBy_pairwise id _) strict
  unfold contributions
  rw [map_map, show (fun input : OwnedInput => input.prevTxid) ∘ outputOf vout = txidOf from rfl, sorted, map_map]
  rfl

theorem spend_targeted {n number : Nat} (nonneg : 0 ≤ vout) {numbers : List Nat} (nonempty : numbers ≠ [])
    (lone : candidates (book n) (keyOf number) .outbound = [spendOf (txidOf number) vout numbers]) :
    targetInputs noInventory (book n) noHop (spendOf (txidOf number) vout numbers) =
      some ("bitcoin", "main", numbers.map (outputOf vout)) := by
  have stored : ¬(("bitcoin", "main", txidOf number) ∈ blockedScopes (book n) noHop ∨
      (spendOf (txidOf number) vout numbers).authoritative = false ∨
      (candidates (book n) { walletId := "w", chain := "bitcoin", network := "main", txid := txidOf number }
        .outbound).length ≠ 1) := by
    rintro (blocked | refused | several)
    · exact blockedScopes_noHop _ _ blocked
    · cases refused
    · exact several (congrArg length lone)
  have inputs := spendOf_inputs (txidOf number) vout nonneg numbers nonempty "bitcoin" "main"
  rw [targetInputs, if_neg (by simp [spendOf])]
  rw [show (spendOf (txidOf number) vout numbers).scope = some ("bitcoin", "main", txidOf number) from rfl]
  dsimp only
  rw [show (spendOf (txidOf number) vout numbers).walletId = "w" from rfl, if_neg stored, inputs]
  rfl

theorem book_lone (n : Nat) :
    candidates (book n) (keyOf 10000) .outbound = [consolidation n] ∧ candidates (book n) (keyOf 10001) .outbound = [payment n] := by
  have apart : txidOf 10001 ≠ txidOf 10000 := (txidOf_lt (by decide) (by decide)).ne'
  have inbound : ∀ number, (receipts n).filter (fun row => decide (row.scope = some (keyOf number).scope ∧
      row.walletId = (keyOf number).walletId ∧ row.direction = .outbound)) = [] := by
    intro number
    rw [filter_eq_nil_iff]
    intro row member
    obtain ⟨m, -, rfl⟩ := mem_map.1 member
    simp [receipt]
  constructor
  · unfold candidates book
    rw [filter_cons_of_pos (by simp [consolidation, spendOf, LineageKey.scope, keyOf]),
      filter_cons_of_neg (by simp [payment, spendOf, LineageKey.scope, keyOf, apart]), inbound]
  · unfold candidates book
    rw [filter_cons_of_neg (by simp [consolidation, spendOf, LineageKey.scope, keyOf, apart.symm]),
      filter_cons_of_pos (by simp [payment, spendOf, LineageKey.scope, keyOf]), inbound]

theorem consolidation_poisons (limit : maxAncestorResolutionsPerTarget = n) (few : n ≤ 5000) :
    ∃ later, deriveRow noInventory (book n) noHop (fun _ => none) (consolidation n) = ([], later) ∧
      later (keyOf n) = some none := by
  have targeted : targetInputs noInventory (book n) noHop (consolidation n) =
      some ("bitcoin", "main", (List.range (n + 1)).map (outputOf 0)) :=
    spend_targeted le_rfl (ne_nil_of_mem (mem_range.2 (Nat.zero_lt_succ n))) (book_lone n).1
  obtain ⟨grossOf, ascending⟩ : ∃ grossOf : Nat → Int, contributions ((List.range (n + 1)).map (outputOf 0)) =
      (List.range (n + 1)).map fun m => (txidOf m, grossOf m) :=
    ⟨_, contributions_ascending pairwise_lt_range fun m member => by
      rw [mem_range] at member
      omega⟩
  rw [deriveRow, targeted, limit]
  dsimp only
  rw [ascending]
  have distinct : (((List.range (n + 1)).map fun m => (txidOf m, grossOf m)).map Prod.fst).Nodup := by
    rw [map_map]
    refine List.Nodup.map_on ?_ nodup_range
    intro m inside m' inside' same
    rw [mem_range] at inside inside'
    exact txidOf_inj (by omega) (by omega) same
  have leaves : ∀ entry ∈ (List.range n).map fun m => (txidOf m, grossOf m), ∃ own,
      classifyTransaction noInventory (book n) noHop
        { walletId := "w", chain := "bitcoin", network := "main", txid := entry.1 } = .leaf own := by
    intro entry member
    obtain ⟨m, listed, rfl⟩ := mem_map.1 member
    rw [mem_range] at listed
    exact ⟨_, receipt_classified few (by omega)⟩
  rw [range_succ, map_append, map_singleton] at distinct
  obtain ⟨later, exhausted, stored⟩ := gatherParents_exhausted leaves distinct (fun _ => none) (fun _ _ => rfl) []
  refine ⟨later, ?_, stored⟩
  rw [length_map, length_range] at exhausted
  rw [show (consolidation n).walletId = "w" from rfl, show (List.range (n + 1)).map (fun m => (txidOf m, grossOf m)) =
    (List.range n).map (fun m => (txidOf m, grossOf m)) ++ [(txidOf n, grossOf n)] by
      rw [range_succ, map_append, map_singleton], exhausted]

theorem payment_targeted (n : Nat) :
    targetInputs noInventory (book n) noHop (payment n) = some ("bitcoin", "main", [outputOf 1 n]) :=
  spend_targeted (by decide) (cons_ne_nil n []) (book_lone n).2

theorem payment_contributions (n : Nat) : contributions [outputOf 1 n] = [(txidOf n, 1000000)] := by
  simp [contributions, outputOf, sortedSet, sortedBy]

theorem payment_resolves (few : n ≤ 5000) :
    ∃ pair ∈ (deriveRow noInventory (book n) noHop (fun _ => none) (payment n)).1,
      pair.fromRow = receipt n ∧ pair.toRow = payment n := by
  have resolved : ancestorDistribution noInventory (book n) noHop (fun _ => none)
      maxAncestorResolutionsPerTarget (keyOf n) = _ := ancestorDistribution_leaf rfl (receipt_classified few (Nat.lt_succ_self n))
    (show (0 : Int) < maxAncestorResolutionsPerTarget by decide)
  have shares : carryShares [] (scaleAncestors [(receipt n, 2000000)] 1000000) = [(receipt n, 1000000)] := by
    rfl
  rw [deriveRow, payment_targeted]
  dsimp only
  rw [payment_contributions, gatherParents]
  rw [show ({ walletId := (payment n).walletId, chain := "bitcoin", network := "main", txid := txidOf n } : LineageKey) = keyOf n from rfl]
  rw [resolved]
  dsimp only
  rw [shares, gatherParents]
  dsimp only
  have sorted : sortedBy (·.1.id) [(receipt n, (1000000 : Int))] = [(receipt n, 1000000)] := rfl
  have fits : ¬([(receipt n, (1000000 : Int))] = [] ∨ (∃ entry ∈ [(receipt n, (1000000 : Int))], entry.1.amount < entry.2) ∨
      (payment n).amount ≤ 0) := by
    simp [receipt, payment, spendOf]
  have share : allocateByWeight ([(receipt n, (1000000 : Int))].map Prod.snd) (payment n).amount = [900000] := by
    show allocateByWeight [1000000] 900000 = [900000]
    decide
  rw [pairsOf, sorted]
  dsimp only
  rw [if_neg fits, share]
  exact ⟨_, mem_singleton_self _, rfl, rfl⟩

theorem payment_after_consolidation (limit : maxAncestorResolutionsPerTarget = n) (few : n ≤ 5000) :
    deriveParentSpendPairs noInventory (book n) noHop = [] := by
  obtain ⟨later, first, stored⟩ := consolidation_poisons limit few
  have second : deriveRow noInventory (book n) noHop later (payment n) = ([], later) := by
    rw [deriveRow, payment_targeted]
    dsimp only
    rw [payment_contributions, show (payment n).walletId = "w" from rfl, gatherParents_poisoned stored]
  have inbound : ∀ row ∈ receipts n, row.direction = .inbound := by
    intro row member
    obtain ⟨m, -, rfl⟩ := mem_map.1 member
    rfl
  have whole : deriveParentSpendPairs noInventory (book n) noHop =
      derivePass noInventory (book n) noHop (consolidation n :: payment n :: receipts n) fun _ => none := rfl
  rw [whole, derivePass, first, derivePass, second, derivePass_inbound inbound]
  rfl

theorem payment_before_consolidation (few : n ≤ 5000) :
    ∃ pair ∈ deriveParentSpendPairs noInventory (reorderedBook n) noHop, pair.toRow = payment n := by
  obtain ⟨pair, resolved, -, spends⟩ := payment_resolves few
  rw [deriveRow_perm (book_perm n)] at resolved
  refine ⟨pair, ?_, spends⟩
  have whole : deriveParentSpendPairs noInventory (reorderedBook n) noHop =
      derivePass noInventory (reorderedBook n) noHop (payment n :: consolidation n :: receipts n) fun _ => none := rfl
  rw [whole, derivePass]
  exact mem_append_left _ resolved

/-- Two orders of one book give different pairs, and a payment that is resolved alone is left out. -/
theorem lineage_depends_on_order :
    ¬(∀ ownedIndex rows rows' skipRow, rows.Perm rows' →
        ∀ pair, pair ∈ deriveParentSpendPairs ownedIndex rows skipRow ↔ pair ∈ deriveParentSpendPairs ownedIndex rows' skipRow) ∧
      (deriveRow noInventory (book 5000) noHop (fun _ => none) (payment 5000)).1 ≠ [] ∧
      ∀ pair ∈ deriveParentSpendPairs noInventory (book 5000) noHop, pair.toRow ≠ payment 5000 := by
  have empty : deriveParentSpendPairs noInventory (book 5000) noHop = [] := payment_after_consolidation rfl le_rfl
  obtain ⟨pair, emitted, -⟩ := payment_before_consolidation (le_refl 5000)
  obtain ⟨alone, resolved, -⟩ := payment_resolves (le_refl 5000)
  refine ⟨fun free => ?_, ne_nil_of_mem resolved, ?_⟩
  · have kept := (free noInventory (book 5000) (reorderedBook 5000) noHop (book_perm 5000) pair).2 emitted
    rw [empty] at kept
    cases kept
  · rw [empty]
    exact fun _ member => (not_mem_nil member).elim

theorem book_within (few : n < 5000) : ∀ row ∈ book n, WithinBudget noInventory (book n) noHop row := by
  have reaches : ∀ {numbers : List Nat} {txid : String} {vout : Int}, (∀ m ∈ numbers, m < n + 1) →
      targetInputs noInventory (book n) noHop (spendOf txid vout numbers) =
        some ("bitcoin", "main", numbers.map (outputOf vout)) →
      WithinBudget noInventory (book n) noHop (spendOf txid vout numbers) := by
    intro numbers txid vout listed targeted
    refine .of_reach (show ((List.range (n + 1)).map keyOf).length ≤ maxAncestorResolutionsPerTarget from ?_) ?_ ?_
    · rw [length_map, length_range]
      exact few
    · intro chain network inputs found
      rw [targeted] at found
      cases found
      intro input member
      obtain ⟨m, inside, rfl⟩ := mem_map.1 member
      exact mem_map_of_mem (mem_range.2 (listed m inside))
    · rintro key member other ⟨edges, through, -⟩
      obtain ⟨m, inside, rfl⟩ := mem_map.1 member
      have leaf : (ancestorGraph noInventory (book n) noHop).classify (keyOf m) = _ :=
        receipt_classified few.le (mem_range.1 inside)
      rw [leaf] at through
      cases through
  intro row member
  rcases mem_cons.1 member with rfl | later
  · exact reaches (fun m inside => mem_range.1 inside)
      (spend_targeted le_rfl (ne_nil_of_mem (mem_range.2 (Nat.zero_lt_succ n))) (book_lone n).1)
  · rcases mem_cons.1 later with rfl | received
    · refine reaches (fun m inside => ?_) (payment_targeted n)
      rw [mem_singleton.1 inside]
      exact Nat.lt_succ_self n
    · obtain ⟨m, -, rfl⟩ := mem_map.1 received
      intro chain network inputs found
      cases found

/-- Two receipts fit every budget. -/
theorem small_book_order_free :
    (deriveParentSpendPairs noInventory (book 1) noHop).Perm (deriveParentSpendPairs noInventory (reorderedBook 1) noHop) :=
  (lineage_order_free (book_perm 1) (book_within (by decide))).1

end Kassiber.Funds

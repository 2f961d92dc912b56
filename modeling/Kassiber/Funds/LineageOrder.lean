import Kassiber.Funds.Lineage

/-!
Lineage does not depend on the order of the rows as long as no target outgrows its budget: the memo then holds
what every transaction is worth, whichever target reached it first.
-/

namespace Kassiber.Funds
open Lib.Sorting Lib.MemoSearch Kassiber.Custody List

variable {ownedIndex : OwnedIndex} {rows : List FundsRow} {skipRow : FundsRow → Bool}

def MemoTells (ownedIndex : OwnedIndex) (rows : List FundsRow) (skipRow : FundsRow → Bool) (memo : LineageMemo) : Prop :=
  ∀ key result, memo key = some result → Answers (ancestorGraph ownedIndex rows skipRow) key result

variable {row : FundsRow}

theorem le_graphWidth (member : row ∈ rows) : (row.graph.getD []).length ≤ graphWidth rows := by
  unfold graphWidth
  induction rows with
  | nil => cases member
  | cons first rest ih =>
    rw [map_cons, foldr_cons]
    rcases mem_cons.1 member with rfl | later
    · exact le_max_left _ _
    · exact (ih later).trans (le_max_right _ _)

theorem mapM_some {α β : Type} {f : α → Option β} {xs : List α} {ys : List β} (mapped : xs.mapM f = some ys) :
    Forall₂ (fun x y => f x = some y) xs ys := by
  induction xs generalizing ys with
  | nil =>
    cases mapped
    exact .nil
  | cons x rest ih =>
    rw [mapM_cons] at mapped
    obtain ⟨y, found, mapped⟩ := Option.bind_eq_some_iff.1 mapped
    obtain ⟨later, run, mapped⟩ := Option.bind_eq_some_iff.1 mapped
    cases mapped
    exact .cons found (ih run)

theorem ownedInputs_some {chain network : String} {inputs : List OwnedInput}
    (owned : ownedInputs ownedIndex row chain network = some inputs) :
    ∃ entries, row.graph = some entries ∧ entries ≠ [] ∧ row.declaredInputs = entries.length ∧
      Forall₂ (fun entry input => ownedInput ownedIndex row chain network entry = some input) entries inputs := by
  unfold ownedInputs at owned
  split at owned
  · cases owned
  · rename_i entries graph
    split_ifs at owned with partial_
    push Not at partial_
    exact ⟨entries, graph, partial_.1, partial_.2, mapM_some owned⟩

theorem classify_through {key : LineageKey} {edges : List LineageEdge}
    (kind : classifyTransaction ownedIndex rows skipRow key = .through edges) :
    key.scope ∉ blockedScopes rows skipRow ∧ candidates rows key .inbound = [] ∧ ∃ spend inputs,
      candidates rows key .outbound = [spend] ∧ spend.authoritative = true ∧
      ownedInputs ownedIndex spend key.chain key.network = some inputs ∧
      edges = inputs.map fun input => ({ key with txid := input.prevTxid }, input.msat) := by
  unfold classifyTransaction at kind
  split_ifs at kind with hop
  split at kind
  · rename_i no_receipt
    split at kind
    · rename_i spend only
      split_ifs at kind with observed
      split at kind
      · cases kind
      · rename_i inputs owned
        cases kind
        exact ⟨hop, no_receipt, spend, inputs, only, observed, owned, rfl⟩
    · cases kind
  · split at kind <;> cases kind
  · cases kind

theorem graph_narrow (key : LineageKey) (edges : List LineageEdge)
    (kind : (ancestorGraph ownedIndex rows skipRow).classify key = .through edges) : edges.length ≤ graphWidth rows := by
  obtain ⟨-, -, spend, inputs, only, -, owned, rfl⟩ := classify_through kind
  obtain ⟨entries, graph, -, -, paired⟩ := ownedInputs_some owned
  have member : spend ∈ rows := mem_of_mem_filter (only ▸ mem_singleton_self spend)
  have narrow := le_graphWidth member
  rw [graph] at narrow
  rwa [length_map, ← paired.length_eq]

/-- What a target's lineage looks at fits its budget: a contributing transaction comes up only when all before it are
resolvable, and so does each input of a transaction passed through. -/
def WithinBudget (ownedIndex : OwnedIndex) (rows : List FundsRow) (skipRow : FundsRow → Bool) (row : FundsRow) : Prop :=
  ∀ chain network inputs, targetInputs ownedIndex rows skipRow row = some (chain, network, inputs) →
    ∃ reach : List LineageKey, reach.length ≤ maxAncestorResolutionsPerTarget ∧
      (∀ front txid back, (contributions inputs).map (·.1) = front ++ txid :: back →
        (∀ earlier ∈ front, ∃ own, Answers (ancestorGraph ownedIndex rows skipRow)
          { walletId := row.walletId, chain, network, txid := earlier } (some own)) →
        { walletId := row.walletId, chain, network, txid } ∈ reach) ∧
      ∀ key ∈ reach, ∀ other, NeedsNext (ancestorGraph ownedIndex rows skipRow) key other → other ∈ reach

theorem WithinBudget.of_reach {reach : List LineageKey} (few : reach.length ≤ maxAncestorResolutionsPerTarget)
    (inside : ∀ chain network inputs, targetInputs ownedIndex rows skipRow row = some (chain, network, inputs) →
      ∀ input ∈ inputs, { walletId := row.walletId, chain, network, txid := input.prevTxid } ∈ reach)
    (closed : ∀ key ∈ reach, ∀ other, Needs (ancestorGraph ownedIndex rows skipRow) key other → other ∈ reach) :
    WithinBudget ownedIndex rows skipRow row := by
  intro chain network inputs targeted
  refine ⟨reach, few, fun front txid back split _ => ?_, fun key member other next => closed key member other next.needs⟩
  have listed : txid ∈ (contributions inputs).map (·.1) := split ▸ mem_append_right _ mem_cons_self
  obtain ⟨entry, contributed, rfl⟩ := mem_map.1 listed
  obtain ⟨txid, among, rfl⟩ := mem_map.1 contributed
  obtain ⟨input, held, rfl⟩ := mem_map.1 (mem_sortedSet.1 among)
  exact inside chain network inputs targeted input held

def parentsBy (worthOf : LineageKey → Option Distribution) (wallet chain network : String) :
    List (String × Int) → Distribution → Option Distribution
  | [], byParent => some byParent
  | (prevTxid, grossMsat) :: rest, byParent =>
    match worthOf { walletId := wallet, chain, network, txid := prevTxid } with
    | none => none
    | some upstream =>
      parentsBy worthOf wallet chain network rest (carryShares byParent (scaleAncestors upstream grossMsat))

variable {memo : LineageMemo}

theorem gatherParents_sound {wallet chain network : String} {reach : List LineageKey}
    (few : reach.length ≤ maxAncestorResolutionsPerTarget)
    (closed : ∀ key ∈ reach, ∀ other, NeedsNext (ancestorGraph ownedIndex rows skipRow) key other → other ∈ reach)
    {contributed : List (String × Int)}
    (reached : ∀ front txid back, contributed.map (·.1) = front ++ txid :: back →
      (∀ earlier ∈ front, ∃ own, Answers (ancestorGraph ownedIndex rows skipRow)
        { walletId := wallet, chain, network, txid := earlier } (some own)) →
      { walletId := wallet, chain, network, txid } ∈ reach)
    (tells : MemoTells ownedIndex rows skipRow memo) {budget : Int} {seen : List LineageKey}
    (spent : Spent reach maxAncestorResolutionsPerTarget memo budget seen) (byParent : Distribution) :
    (gatherParents ownedIndex rows skipRow wallet chain network contributed memo budget byParent).1 =
        parentsBy (worth (ancestorGraph ownedIndex rows skipRow)) wallet chain network contributed byParent ∧
      MemoTells ownedIndex rows skipRow
        (gatherParents ownedIndex rows skipRow wallet chain network contributed memo budget byParent).2 := by
  induction contributed generalizing memo budget seen byParent with
  | nil => exact ⟨rfl, tells⟩
  | cons entry rest ih =>
    obtain ⟨prevTxid, grossMsat⟩ := entry
    have inside := reached [] prevTxid _ rfl (by simp)
    obtain ⟨⟨result, found, answer⟩, later, seen', spent'⟩ :=
      evaluate_sound few closed graph_narrow tells inside spent
    have resolved : ancestorDistribution ownedIndex rows skipRow memo budget
        { walletId := wallet, chain, network, txid := prevTxid } =
        (worth (ancestorGraph ownedIndex rows skipRow) { walletId := wallet, chain, network, txid := prevTxid },
          (evaluate (ancestorGraph ownedIndex rows skipRow) (graphWidth rows) memo budget
            { walletId := wallet, chain, network, txid := prevTxid }).memo,
          (evaluate (ancestorGraph ownedIndex rows skipRow) (graphWidth rows) memo budget
            { walletId := wallet, chain, network, txid := prevTxid }).budget) := by
      unfold ancestorDistribution
      dsimp only
      rw [found, ← answer.worth_eq]
      rfl
    rw [gatherParents, parentsBy, resolved]
    cases worthwhile : worth (ancestorGraph ownedIndex rows skipRow) { walletId := wallet, chain, network, txid := prevTxid } with
    | none => exact ⟨rfl, later⟩
    | some upstream =>
      refine ih (fun front txid back split settled => ?_) later spent' _
      refine reached (prevTxid :: front) txid back (congrArg (prevTxid :: ·) split) (forall_mem_cons.2 ⟨⟨upstream, ?_⟩, settled⟩)
      exact worthwhile ▸ answers_worth _ _

def rowPairs (ownedIndex : OwnedIndex) (rows : List FundsRow) (skipRow : FundsRow → Bool)
    (worthOf : LineageKey → Option Distribution) (row : FundsRow) : List ParentSpendPair :=
  match targetInputs ownedIndex rows skipRow row with
  | none => []
  | some (chain, network, inputs) =>
    match parentsBy worthOf row.walletId chain network (contributions inputs) [] with
    | none => []
    | some byParent => pairsOf row (inputs.map (·.prevTxid)) byParent

theorem deriveRow_sound (within : WithinBudget ownedIndex rows skipRow row)
    (tells : MemoTells ownedIndex rows skipRow memo) :
    (deriveRow ownedIndex rows skipRow memo row).1 =
        rowPairs ownedIndex rows skipRow (worth (ancestorGraph ownedIndex rows skipRow)) row ∧
      MemoTells ownedIndex rows skipRow (deriveRow ownedIndex rows skipRow memo row).2 := by
  unfold deriveRow rowPairs
  cases targeted : targetInputs ownedIndex rows skipRow row with
  | none => exact ⟨rfl, tells⟩
  | some target =>
    obtain ⟨chain, network, inputs⟩ := target
    obtain ⟨reach, few, inside, closed⟩ := within chain network inputs targeted
    have spent : Spent reach maxAncestorResolutionsPerTarget memo maxAncestorResolutionsPerTarget [] :=
      ⟨nodup_nil, by simp, by simp, by simp⟩
    obtain ⟨same, later⟩ := gatherParents_sound few closed inside tells spent []
    dsimp only
    rw [← same]
    cases outcome : gatherParents ownedIndex rows skipRow row.walletId chain network (contributions inputs) memo
        maxAncestorResolutionsPerTarget [] with
    | mk result after =>
      rw [outcome] at later
      cases result with
      | none => exact ⟨rfl, later⟩
      | some byParent => exact ⟨rfl, later⟩

theorem derivePass_sound {targets : List FundsRow}
    (within : ∀ row ∈ targets, WithinBudget ownedIndex rows skipRow row) (tells : MemoTells ownedIndex rows skipRow memo) :
    derivePass ownedIndex rows skipRow targets memo =
      targets.flatMap (rowPairs ownedIndex rows skipRow (worth (ancestorGraph ownedIndex rows skipRow))) := by
  induction targets generalizing memo with
  | nil => rfl
  | cons row rest ih =>
    obtain ⟨own, later⟩ := deriveRow_sound (within row (.head _)) tells
    rw [derivePass, flatMap_cons, own]
    exact congrArg _ (ih (fun other member => within other (.tail _ member)) later)

theorem emptyMemo_tells : MemoTells ownedIndex rows skipRow fun _ => none := by
  intro key result found
  cases found

section
variable {rows' : List FundsRow}

theorem eq_or_many {α : Type*} {xs ys : List α} (perm : xs.Perm ys) :
    xs = ys ∨ (∃ x x' rest, xs = x :: x' :: rest) ∧ ∃ y y' rest, ys = y :: y' :: rest := by
  rcases xs with _ | ⟨x, _ | ⟨x', xs⟩⟩
  · exact .inl (nil_perm.1 perm).symm
  · exact .inl (perm_singleton.1 perm.symm).symm
  · rcases ys with _ | ⟨y, _ | ⟨y', ys⟩⟩
    · cases perm.length_eq
    · simpa using perm.length_eq
    · exact .inr ⟨⟨x, x', xs, rfl⟩, y, y', ys, rfl⟩

theorem blockedScopes_perm (perm : rows.Perm rows') (scope : String × String × String) :
    scope ∈ blockedScopes rows skipRow ↔ scope ∈ blockedScopes rows' skipRow :=
  (perm.filterMap _).mem_iff

theorem candidates_perm (perm : rows.Perm rows') (key : LineageKey) (direction : Direction) :
    (candidates rows key direction).Perm (candidates rows' key direction) :=
  perm.filter _

theorem classifyTransaction_perm (perm : rows.Perm rows') (key : LineageKey) :
    classifyTransaction ownedIndex rows skipRow key = classifyTransaction ownedIndex rows' skipRow key := by
  unfold classifyTransaction
  rw [if_congr (blockedScopes_perm perm key.scope) rfl rfl]
  rcases eq_or_many (candidates_perm perm key .inbound) with parents | ⟨⟨_, _, _, many⟩, _, _, _, many'⟩
  · rw [parents]
    rcases eq_or_many (candidates_perm perm key .outbound) with spends | ⟨⟨_, _, _, many⟩, _, _, _, many'⟩
    · rw [spends]
    · rw [many, many']
  · rw [many, many']

theorem ancestorGraph_perm (perm : rows.Perm rows') :
    ancestorGraph ownedIndex rows skipRow = ancestorGraph ownedIndex rows' skipRow := by
  unfold ancestorGraph
  rw [show classifyTransaction ownedIndex rows skipRow = classifyTransaction ownedIndex rows' skipRow from
    funext (classifyTransaction_perm perm)]

theorem targetInputs_perm (perm : rows.Perm rows') (row : FundsRow) :
    targetInputs ownedIndex rows skipRow row = targetInputs ownedIndex rows' skipRow row := by
  unfold targetInputs
  split
  · rfl
  · split
    · rfl
    · rename_i chain network txid _
      rw [(candidates_perm perm { walletId := row.walletId, chain, network, txid } .outbound).length_eq]
      exact if_congr (or_congr (blockedScopes_perm perm _) Iff.rfl) rfl rfl

theorem rowPairs_perm (perm : rows.Perm rows') (worthOf : LineageKey → Option Distribution) (row : FundsRow) :
    rowPairs ownedIndex rows skipRow worthOf row = rowPairs ownedIndex rows' skipRow worthOf row := by
  unfold rowPairs
  rw [targetInputs_perm perm]

theorem WithinBudget.perm (perm : rows.Perm rows') {row : FundsRow} (within : WithinBudget ownedIndex rows skipRow row) :
    WithinBudget ownedIndex rows' skipRow row := by
  unfold WithinBudget at *
  rwa [← ancestorGraph_perm perm, ← targetInputs_perm perm]

theorem graphWidth_perm (perm : rows.Perm rows') : graphWidth rows = graphWidth rows' := (perm.map _).foldr_eq 0

theorem deriveRow_perm (perm : rows.Perm rows') (memo : LineageMemo) (row : FundsRow) :
    deriveRow ownedIndex rows skipRow memo row = deriveRow ownedIndex rows' skipRow memo row := by
  have looks : ancestorDistribution ownedIndex rows skipRow = ancestorDistribution ownedIndex rows' skipRow := by
    unfold ancestorDistribution
    rw [ancestorGraph_perm perm, graphWidth_perm perm]
  have gathers : ∀ wallet chain network contributed memo budget byParent,
      gatherParents ownedIndex rows skipRow wallet chain network contributed memo budget byParent =
        gatherParents ownedIndex rows' skipRow wallet chain network contributed memo budget byParent := by
    intro wallet chain network contributed
    induction contributed with
    | nil => exact fun _ _ _ => rfl
    | cons entry rest ih =>
      intro memo budget byParent
      rw [gatherParents, gatherParents, looks]
      split
      · rfl
      · exact ih _ _ _
  unfold deriveRow
  rw [targetInputs_perm perm]
  split
  · rfl
  · rw [gathers]

/-- Within the budgets the pairs do not depend on the order of the rows, and every spend gets what it gets alone. -/
theorem lineage_order_free (perm : rows.Perm rows') (within : ∀ row ∈ rows, WithinBudget ownedIndex rows skipRow row) :
    (deriveParentSpendPairs ownedIndex rows skipRow).Perm (deriveParentSpendPairs ownedIndex rows' skipRow) ∧
      deriveParentSpendPairs ownedIndex rows skipRow =
        rows.flatMap fun row => (deriveRow ownedIndex rows skipRow (fun _ => none) row).1 := by
  have reordered : ∀ row ∈ rows', WithinBudget ownedIndex rows' skipRow row :=
    fun row member => (within row (perm.mem_iff.2 member)).perm perm
  have here : deriveParentSpendPairs ownedIndex rows skipRow = _ := derivePass_sound within emptyMemo_tells
  have there : deriveParentSpendPairs ownedIndex rows' skipRow = _ := derivePass_sound reordered emptyMemo_tells
  constructor
  · have same : rowPairs ownedIndex rows' skipRow (worth (ancestorGraph ownedIndex rows skipRow)) =
        rowPairs ownedIndex rows skipRow (worth (ancestorGraph ownedIndex rows skipRow)) :=
      funext fun row => (rowPairs_perm perm _ row).symm
    rw [here, there, ← ancestorGraph_perm perm, same]
    exact perm.flatMap_right _
  · rw [here]
    exact flatMap_congr fun row member => (deriveRow_sound (within row member) emptyMemo_tells).1.symm

end

end Kassiber.Funds

import Kassiber.Lib.Sums
import Kassiber.Funds.LineageBounds

/-!
A spend whose pairs are emitted is backed to the last satoshi: every input on every path behind it is owned, every
path ends in a received coin, and what the coins give adds up to what the inputs are worth.
-/

namespace Kassiber.Funds
open Lib.Sorting Lib.Sums Lib.MemoSearch Kassiber.Custody List
open Prod (snd)

variable {ownedIndex : OwnedIndex} {rows : List FundsRow} {skipRow : FundsRow → Bool}

section
variable {weights : List Int} {targetSum : Int}

theorem sum_floors (whole targetSum : Int) (weights : List Int) :
    whole * (weights.map fun weight => weight * targetSum / whole).sum +
      (weights.map fun weight => weight * targetSum % whole).sum = weights.sum * targetSum := by
  induction weights with
  | nil => simp
  | cons weight rest ih =>
    have share := Int.mul_ediv_add_emod (weight * targetSum) whole
    simp only [map_cons, sum_cons]
    linarith

theorem sum_favoured (floors : List Int) {favoured : List Nat} (nodup : favoured.Nodup)
    (inside : ∀ position ∈ favoured, position < floors.length) :
    (floors.zipIdx.map fun entry => if entry.2 ∈ favoured then entry.1 + 1 else entry.1).sum =
      floors.sum + favoured.length := by
  have apart : (fun entry : Int × Nat => if entry.2 ∈ favoured then entry.1 + 1 else entry.1) =
      fun entry => entry.1 + if entry.2 ∈ favoured then 1 else 0 := by
    funext entry
    split <;> simp
  have chosen : ((List.range floors.length).filter (· ∈ favoured)).Perm favoured := by
    refine (perm_ext_iff_of_nodup (nodup_range.filter _) nodup).2 fun position => ?_
    simpa using inside position
  have counted := sum_filter (· ∈ favoured) (fun _ => (1 : Int)) (List.range floors.length)
  rw [map_const', sum_replicate, chosen.length_eq, nsmul_one] at counted
  rw [apart, sum_map_add, zipIdx_map_fst, counted, range_eq_range', ← zipIdx_map_snd, map_map]
  rfl

theorem allocateByWeight_sum (wanted : 0 < targetSum) (weighted : 0 < (weights.map (max 0)).sum) :
    (allocateByWeight weights targetSum).sum = targetSum := by
  unfold allocateByWeight
  dsimp only
  rw [if_neg (by omega)]
  have floors := sum_floors (weights.map (max 0)).sum targetSum (weights.map (max 0))
  generalize whole_eq : (weights.map (max 0)).sum = whole at *
  have low : 0 ≤ ((weights.map (max 0)).map fun weight => weight * targetSum % whole).sum :=
    sum_nonneg fun _ member => by
      obtain ⟨weight, -, rfl⟩ := mem_map.1 member
      exact Int.emod_nonneg _ weighted.ne'
  have high := sum_le_card_nsmul ((weights.map (max 0)).map fun weight => weight * targetSum % whole) whole
    fun _ member => by
      obtain ⟨weight, -, rfl⟩ := mem_map.1 member
      exact (Int.emod_lt_of_pos _ weighted).le
  rw [length_map, length_map, nsmul_eq_mul] at high
  generalize ((weights.map (max 0)).map fun weight => weight * targetSum % whole).sum = rest at *
  have owed : whole * (targetSum - ((weights.map (max 0)).map fun weight => weight * targetSum / whole).sum) = rest := by
    linarith
  have some_left := nonneg_of_mul_nonneg_right (owed ▸ low) weighted
  have few : targetSum - ((weights.map (max 0)).map fun weight => weight * targetSum / whole).sum ≤ weights.length :=
    le_of_mul_le_mul_left (owed.trans_le (high.trans_eq (mul_comm _ _))) weighted
  have order := sortedBy_perm (fun position => toLex (-((((weights.map (max 0)).map fun weight =>
    weight * targetSum % whole)).getD position 0), position)) (List.range weights.length)
  rw [sum_favoured]
  · rw [length_take, order.length_eq, length_range, min_eq_left (by omega)]
    omega
  · exact (order.nodup_iff.2 nodup_range).sublist (take_sublist _ _)
  · intro position member
    simpa using mem_range.1 (order.mem_iff.1 (mem_of_mem_take member))

theorem allocateByWeight_nonneg : ∀ share ∈ allocateByWeight weights targetSum, 0 ≤ share := by
  unfold allocateByWeight
  dsimp only
  split_ifs with none
  · simp
  · intro share member
    obtain ⟨⟨floor, position⟩, listed, rfl⟩ := mem_map.1 member
    obtain ⟨weight, present, rfl⟩ := mem_map.1 (fst_mem_of_mem_zipIdx listed)
    obtain ⟨given, -, rfl⟩ := mem_map.1 present
    have : 0 ≤ max 0 given * targetSum / (weights.map (max 0)).sum :=
      Int.ediv_nonneg (mul_nonneg (le_max_left _ _) (by omega)) (by omega)
    split <;> omega

/-- The shares dealt out beside a list, read through any weight that leaves a share as it is. -/
theorem sum_allocated {α : Type} {xs : List α} (paired : xs.length = weights.length) {weight : α × Int → Int}
    (keeps : ∀ entry, 0 ≤ entry.2 → weight entry = entry.2) :
    ((xs.zip (allocateByWeight weights targetSum)).map weight).sum = (allocateByWeight weights targetSum).sum := by
  have zipped : (xs.zip (allocateByWeight weights targetSum)).map snd = allocateByWeight weights targetSum :=
    map_snd_zip (by rw [allocateByWeight_length, paired])
  conv_rhs => rw [← zipped]
  exact congrArg List.sum (map_congr_left fun entry member =>
    keeps entry (allocateByWeight_nonneg entry.2 (of_mem_zip member).2))

end

section
variable {P : FundsRow → Prop} {carried shares ancestors : Distribution}

def total (shares : Distribution) : Int := (shares.map snd).sum

def weighed (weight : String → Int) (shares : Distribution) : Int := (shares.map fun entry => weight entry.1.id * entry.2).sum

theorem total_eq (shares : Distribution) : total shares = weighed (fun _ => 1) shares := by simp [total, weighed]

/-- Positive shares of distinct rows of one kind. -/
structure Carrying (P : FundsRow → Prop) (shares : Distribution) : Prop where
  distinct : (shares.map (·.1.id)).Nodup
  positive : ∀ entry ∈ shares, 0 < entry.2 ∧ P entry.1

theorem carrying_nil : Carrying P [] := ⟨nodup_nil, fun _ member => (not_mem_nil member).elim⟩

theorem total_pos (carrying : Carrying P ancestors) (nonempty : ancestors ≠ []) : 0 < total ancestors :=
  List.sum_pos _ (fun _ member => by
    obtain ⟨entry, listed, rfl⟩ := mem_map.1 member
    exact (carrying.positive entry listed).1) (by simpa using nonempty)

theorem Carrying.allocated (carrying : Carrying P ancestors) (nonempty : ancestors ≠ []) {targetSum : Int}
    (wanted : 0 < targetSum) : (allocateByWeight (ancestors.map snd) targetSum).sum = targetSum := by
  have weights : (ancestors.map snd).map (max 0) = ancestors.map snd := by
    rw [map_map]
    exact map_congr_left fun entry member => max_eq_right (carrying.positive entry member).1.le
  refine allocateByWeight_sum wanted ?_
  rw [weights]
  exact total_pos carrying nonempty

theorem scaleAncestors_spec (carrying : Carrying P ancestors) (nonempty : ancestors ≠ []) (valueMsat : Int) :
    total (scaleAncestors ancestors valueMsat) = max 0 valueMsat ∧
      ∀ entry ∈ scaleAncestors ancestors valueMsat, 0 < entry.2 ∧ P entry.1 := by
  constructor
  · rw [total, scaleAncestors, sum_filter, sum_allocated (by simp) fun entry nonneg => by split <;> omega]
    by_cases wanted : 0 < valueMsat
    · rw [carrying.allocated nonempty wanted, max_eq_right wanted.le]
    · rw [allocateByWeight, if_pos (.inl (not_lt.1 wanted)), max_eq_left (not_lt.1 wanted), map_const',
        sum_replicate, smul_zero]
  · intro entry member
    obtain ⟨listed, positive⟩ := mem_filter.1 member
    obtain ⟨row, present, same⟩ := mem_map.1 (of_mem_zip listed).1
    exact ⟨of_decide_eq_true positive, same ▸ (carrying.positive row present).2⟩

theorem addShare_spec (carrying : Carrying P carried) {share : FundsRow × Int} (positive : 0 < share.2 ∧ P share.1) :
    Carrying P (addShare carried share) ∧
      ∀ weight, weighed weight (addShare carried share) = weighed weight carried + weight share.1.id * share.2 := by
  refine ⟨⟨addShare_ids carried share carrying.distinct, ?_⟩, fun weight => ?_⟩
  · unfold addShare
    split
    · intro entry member
      obtain ⟨old, listed, rfl⟩ := mem_map.1 member
      have before := carrying.positive old listed
      split
      · exact ⟨add_pos before.1 positive.1, before.2⟩
      · exact before
    · intro entry member
      rcases mem_append.1 member with old | new
      · exact carrying.positive entry old
      · rwa [mem_singleton.1 new]
  · unfold addShare weighed
    split
    · rename_i known
      have apart : ((fun entry : FundsRow × Int => weight entry.1.id * entry.2) ∘ fun entry =>
          if entry.1.id = share.1.id then (entry.1, entry.2 + share.2) else entry) =
          fun entry => weight entry.1.id * entry.2 + if share.1.id = entry.1.id then weight share.1.id * share.2 else 0 := by
        funext entry
        by_cases same : entry.1.id = share.1.id
        · simp [same, mul_add]
        · simp [same, Ne.symm same]
      have once := sum_indicator carrying.distinct known (weight share.1.id * share.2)
      rw [map_map] at once
      rw [map_map, apart, sum_map_add]
      exact congrArg _ once
    · simp

theorem carryShares_spec (carrying : Carrying P carried) (positive : ∀ share ∈ shares, 0 < share.2 ∧ P share.1) :
    Carrying P (carryShares carried shares) ∧
      ∀ weight, weighed weight (carryShares carried shares) = weighed weight carried + weighed weight shares := by
  unfold carryShares
  induction shares generalizing carried with
  | nil => exact ⟨carrying, fun _ => (add_zero _).symm⟩
  | cons share rest ih =>
    rw [forall_mem_cons] at positive
    obtain ⟨next, added⟩ := addShare_spec carrying positive.1
    obtain ⟨whole, sum⟩ := ih next positive.2
    refine ⟨whole, fun weight => (sum weight).trans ?_⟩
    rw [added, weighed, weighed, weighed, map_cons, sum_cons, add_assoc]

/-- Counts the shares of one row. -/
def ownShare (id : String) (other : String) : Int := if other = id then 1 else 0

theorem ownShare_nonneg (id other : String) : 0 ≤ ownShare id other := by
  unfold ownShare
  split <;> decide

theorem scaled_share (carrying : Carrying P ancestors) (nonempty : ancestors ≠ []) (valueMsat : Int) (id : String) :
    weighed (ownShare id) (scaleAncestors ancestors valueMsat) ≤ max 0 valueMsat ∧
      ((∀ entry ∈ ancestors, entry.1.id ≠ id) → weighed (ownShare id) (scaleAncestors ancestors valueMsat) = 0) := by
  obtain ⟨scaled, positive⟩ := scaleAncestors_spec carrying nonempty valueMsat
  constructor
  · rw [← scaled]
    refine List.sum_le_sum fun entry member => ?_
    have := (positive entry member).1
    unfold ownShare
    split <;> omega
  · refine fun foreign => List.sum_eq_zero fun value member => ?_
    obtain ⟨entry, listed, rfl⟩ := mem_map.1 member
    obtain ⟨row, present, same⟩ := mem_map.1 (of_mem_zip (mem_of_mem_filter listed)).1
    rw [ownShare, if_neg (same ▸ foreign row present), zero_mul]

end

section

/-- Whether an entry is seen as an owned input, and whether the inventory agrees. -/
structure Owns (ownedIndex : OwnedIndex) (row : FundsRow) (chain network : String) (entry : GraphInput)
    (input : OwnedInput) : Prop where
  outpoint : entry.prevTxid = some input.prevTxid ∧ entry.vout = some input.vout ∧ 0 ≤ input.vout
  value : entry.valueSats.map (· * 1000) = some input.msat
  owned : entry.script ≠ "" ∧ (entry.script ∈ row.observerOwnedScripts ∨ entry.role = "owned")
  uncontradicted : ∀ info, ownedIndex (chain, network, input.prevTxid, input.vout) = some info →
    info.ambiguous = false ∧ info.walletId = row.walletId ∧ info.assetIdentity = row.assetIdentity

/-- Every input that the row declares is owned. -/
def OwnsInputs (ownedIndex : OwnedIndex) (row : FundsRow) (chain network : String) (inputs : List OwnedInput) : Prop :=
  ∃ entries, row.graph = some entries ∧ entries ≠ [] ∧ row.declaredInputs = entries.length ∧
    Forall₂ (Owns ownedIndex row chain network) entries inputs

/-- The one inbound row of a wallet's transaction: an authoritative receipt outside every privacy hop. -/
def Coin (rows : List FundsRow) (skipRow : FundsRow → Bool) (key : LineageKey) (parent : FundsRow) : Prop :=
  key.scope ∉ blockedScopes rows skipRow ∧ candidates rows key .inbound = [parent] ∧ parent.authoritative = true ∧
    0 < parent.amount

/-- A transaction all of whose paths back, through owned inputs of the wallet's spends, end in coins. -/
inductive Traced (ownedIndex : OwnedIndex) (rows : List FundsRow) (skipRow : FundsRow → Bool) : LineageKey → Prop where
  | coin {key : LineageKey} {parent : FundsRow} (received : Coin rows skipRow key parent) :
    Traced ownedIndex rows skipRow key
  | hop {key : LineageKey} {spend : FundsRow} {inputs : List OwnedInput} (clear : key.scope ∉ blockedScopes rows skipRow)
      (no_receipt : candidates rows key .inbound = []) (only : candidates rows key .outbound = [spend])
      (observed : spend.authoritative = true) (owned : OwnsInputs ownedIndex spend key.chain key.network inputs)
      (behind : ∀ input ∈ inputs, Traced ownedIndex rows skipRow { key with txid := input.prevTxid }) :
    Traced ownedIndex rows skipRow key

variable {row : FundsRow} {chain network : String} {own byParent : Distribution} {memo : LineageMemo}

theorem ownedInput_owns {entry : GraphInput} {input : OwnedInput}
    (found : ownedInput ownedIndex row chain network entry = some input) : Owns ownedIndex row chain network entry input := by
  unfold ownedInput at found
  split at found
  · rename_i prevTxid vout valueSats txid at_ worth
    split_ifs at found with short foreign
    push Not at short foreign
    have owned := or_iff_not_imp_left.2 foreign
    dsimp only at found
    split at found
    · rename_i unknown
      cases found
      exact ⟨⟨txid, at_, short.1⟩, by rw [worth]; rfl, ⟨short.2, owned⟩, fun info listed => by cases unknown.symm.trans listed⟩
    · rename_i info listed
      split_ifs at found with disagrees
      push Not at disagrees
      cases found
      refine ⟨⟨txid, at_, short.1⟩, by rw [worth]; rfl, ⟨short.2, owned⟩, fun other same => ?_⟩
      cases listed.symm.trans same
      exact ⟨by simpa using disagrees.1, disagrees.2⟩
  · cases found

theorem ownedInputs_owns {inputs : List OwnedInput}
    (found : ownedInputs ownedIndex row chain network = some inputs) : OwnsInputs ownedIndex row chain network inputs := by
  obtain ⟨entries, graph, nonempty, declared, paired⟩ := ownedInputs_some found
  exact ⟨entries, graph, nonempty, declared, paired.imp fun _ _ => ownedInput_owns⟩

theorem classify_leaf {key : LineageKey} (kind : classifyTransaction ownedIndex rows skipRow key = .leaf own) :
    ∃ parent, Coin rows skipRow key parent ∧ own = [(parent, parent.amount)] := by
  unfold classifyTransaction at kind
  split_ifs at kind with hop
  split at kind
  · split at kind
    · split_ifs at kind
      split at kind <;> cases kind
    · cases kind
  · rename_i parent only
    split_ifs at kind with received
    cases kind
    exact ⟨parent, ⟨hop, only, received⟩, rfl⟩
  · cases kind

/-- A coin of the wallet, by its own transaction. -/
def Founded (rows : List FundsRow) (skipRow : FundsRow → Bool) (key : LineageKey) (parent : FundsRow) : Prop :=
  ∃ txid, Coin rows skipRow { key with txid } parent

/-- What is known of the value of a transaction. -/
def Resolves (ownedIndex : OwnedIndex) (rows : List FundsRow) (skipRow : FundsRow → Bool) (key : LineageKey)
    (own : Distribution) : Prop :=
  Traced ownedIndex rows skipRow key ∧ own ≠ [] ∧ Carrying (Founded rows skipRow key) own

theorem carry_spec {P : FundsRow → Prop} {carried upstream : Distribution} (carrying : Carrying P carried)
    (founded : Carrying P upstream) (nonempty : upstream ≠ []) (msat : Int) :
    Carrying P (carryShares carried (scaleAncestors upstream msat)) ∧
      total (carryShares carried (scaleAncestors upstream msat)) = total carried + max 0 msat ∧
      ∀ weight, weighed weight (carryShares carried (scaleAncestors upstream msat)) =
        weighed weight carried + weighed weight (scaleAncestors upstream msat) := by
  obtain ⟨scaled, positive⟩ := scaleAncestors_spec founded nonempty msat
  obtain ⟨whole, weighs⟩ := carryShares_spec carrying positive
  exact ⟨whole, by rw [← scaled, total_eq, total_eq, total_eq, weighs], weighs⟩

theorem value_resolves {height : Nat} {key : LineageKey}
    (found : value (ancestorGraph ownedIndex rows skipRow) height key = some own) :
    Resolves ownedIndex rows skipRow key own := by
  induction height generalizing key own with
  | zero => cases found
  | succ height ih =>
    have gathers {edges : List LineageEdge} (same : ∀ edge ∈ edges, ∃ txid, edge.1 = { key with txid })
        {carried gathered : Distribution} (carrying : Carrying (Founded rows skipRow key) carried)
        (run : gather (ancestorGraph ownedIndex rows skipRow) height carried edges = some gathered) :
        (∀ edge ∈ edges, Traced ownedIndex rows skipRow edge.1) ∧ Carrying (Founded rows skipRow key) gathered := by
      induction edges generalizing carried with
      | nil =>
        cases run
        exact ⟨fun _ member => (not_mem_nil member).elim, carrying⟩
      | cons edge rest ihe =>
        rw [gather_cons] at run
        obtain ⟨upstream, worth, run⟩ := Option.bind_eq_some_iff.1 run
        obtain ⟨traced, nonempty, founded⟩ := ih worth
        rw [forall_mem_cons] at same
        obtain ⟨txid, target⟩ := same.1
        have coins : Founded rows skipRow edge.1 = Founded rows skipRow key := by
          rw [target]
          rfl
        obtain ⟨later, whole⟩ := ihe same.2 (carry_spec carrying (coins ▸ founded) nonempty edge.2).1 run
        exact ⟨forall_mem_cons.2 ⟨traced, later⟩, whole⟩
    cases kind : (ancestorGraph ownedIndex rows skipRow).classify key with
    | refused =>
      rw [value, kind] at found
      cases found
    | leaf given =>
      rw [value, kind] at found
      cases found
      obtain ⟨parent, received, rfl⟩ := classify_leaf kind
      refine ⟨.coin received, cons_ne_nil _ _, nodup_singleton _, fun entry member => ?_⟩
      rw [mem_singleton.1 member]
      exact ⟨received.2.2.2, key.txid, received⟩
    | through edges =>
      rw [value_through kind] at found
      obtain ⟨gathered, run, closed⟩ := Option.bind_eq_some_iff.1 found
      obtain ⟨clear, no_receipt, spend, inputs, only, observed, owned, rfl⟩ := classify_through kind
      obtain ⟨traced, carrying⟩ := gathers (by simp) carrying_nil run
      simp only [ancestorGraph] at closed
      split_ifs at closed with empty
      cases closed
      have sorted := sortedBy_perm (·.1.id) gathered
      refine ⟨.hop clear no_receipt only observed (ownedInputs_owns owned) fun input member =>
        traced _ (mem_map_of_mem member), fun none => empty ?_, ?_, fun entry member => ?_⟩
      · exact nil_perm.1 (none ▸ sorted)
      · exact ((sorted.map _).nodup_iff).2 carrying.distinct
      · exact carrying.positive entry (sorted.mem_iff.1 member)

/-- What the memo holds as a value is one, also where a budget ran out. -/
def Told (ownedIndex : OwnedIndex) (rows : List FundsRow) (skipRow : FundsRow → Bool) (memo : LineageMemo) : Prop :=
  ∀ key own, memo key = some (some own) → Answers (ancestorGraph ownedIndex rows skipRow) key (some own)

theorem ancestorDistribution_told (told : Told ownedIndex rows skipRow memo) (budget : Int) (key : LineageKey) :
    Told ownedIndex rows skipRow (ancestorDistribution ownedIndex rows skipRow memo budget key).2.1 ∧
      ∀ upstream, (ancestorDistribution ownedIndex rows skipRow memo budget key).1 = some upstream →
        Answers (ancestorGraph ownedIndex rows skipRow) key (some upstream) ∧ Resolves ownedIndex rows skipRow key upstream := by
  have later : Told ownedIndex rows skipRow (ancestorDistribution ownedIndex rows skipRow memo budget key).2.1 :=
    evaluate_backed told
  refine ⟨later, fun upstream found => ?_⟩
  rcases Option.getD_eq_iff.1 found with stored | ⟨-, absurd⟩
  · obtain ⟨height, worth⟩ := later key upstream stored
    exact ⟨⟨height, worth⟩, value_resolves worth⟩
  · cases absurd

theorem gatherParents_backed (key : LineageKey) (contributed : List (String × Int)) (budget : Int)
    (told : Told ownedIndex rows skipRow memo)
    (carrying : Carrying (Founded rows skipRow key) byParent) :
    let gathered := gatherParents ownedIndex rows skipRow key.walletId key.chain key.network contributed memo budget byParent
    Told ownedIndex rows skipRow gathered.2 ∧ ∀ found, gathered.1 = some found →
      (∀ entry ∈ contributed, Traced ownedIndex rows skipRow { key with txid := entry.1 }) ∧
      Carrying (Founded rows skipRow key) found ∧
      total found = total byParent + (contributed.map fun entry => max 0 entry.2).sum ∧
      ∀ id own, (∀ entry ∈ contributed, entry.1 ≠ own → ∀ upstream, Answers (ancestorGraph ownedIndex rows skipRow)
          { key with txid := entry.1 } (some upstream) → ∀ share ∈ upstream, share.1.id ≠ id) →
        weighed (ownShare id) found ≤ weighed (ownShare id) byParent +
          ((contributed.filter fun entry => entry.1 = own).map fun entry => max 0 entry.2).sum := by
  induction contributed generalizing memo budget byParent with
  | nil =>
    refine ⟨told, fun found run => ?_⟩
    cases run
    exact ⟨fun _ member => (not_mem_nil member).elim, carrying, (add_zero _).symm, fun _ _ _ => (add_zero _).ge⟩
  | cons entry rest ih =>
    obtain ⟨prevTxid, grossMsat⟩ := entry
    have resolved := ancestorDistribution_told told budget { key with txid := prevTxid }
    dsimp only
    rw [gatherParents]
    split
    · rename_i same
      exact ⟨(same ▸ resolved).1, fun _ absurd => by cases absurd⟩
    · rename_i upstream memo budget same
      rw [same] at resolved
      obtain ⟨later, answer⟩ := resolved
      obtain ⟨worth, traced, nonempty, founded⟩ := answer upstream rfl
      obtain ⟨step, sum, weighs⟩ := carry_spec carrying founded nonempty grossMsat
      obtain ⟨kept, rest_resolved⟩ := ih budget later step
      refine ⟨kept, fun found run => ?_⟩
      obtain ⟨behind, whole, totals, bound⟩ := rest_resolved found run
      refine ⟨forall_mem_cons.2 ⟨traced, behind⟩, whole, totals.trans ?_, fun id own direct => ?_⟩
      · rw [sum, map_cons, sum_cons, add_assoc]
      · have later := bound id own fun entry member => direct entry (.tail _ member)
        obtain ⟨small, none⟩ := scaled_share founded nonempty grossMsat id
        rw [weighs] at later
        by_cases same : prevTxid = own
        · rw [filter_cons_of_pos (by simpa using same), map_cons, sum_cons]
          linarith
        · have nothing := none (direct (prevTxid, grossMsat) (.head _) same upstream worth)
          rw [filter_cons_of_neg (by simpa using same)]
          linarith

theorem pairsOf_spec {P : FundsRow → Prop} {contributed : List String}
    (emits : pairsOf row contributed byParent ≠ []) (carrying : Carrying P byParent) :
    (∀ entry ∈ byParent, entry.2 ≤ entry.1.amount) ∧
      (∀ pair ∈ pairsOf row contributed byParent,
        0 < pair.allocationMsat ∧ (pair.fromRow, pair.fromAllocationMsat) ∈ byParent) ∧
      ((pairsOf row contributed byParent).map (·.allocationMsat)).sum = row.amount := by
  unfold pairsOf at emits ⊢
  have sorted := sortedBy_perm (·.1.id) byParent
  generalize sortedBy (·.1.id) byParent = parents at emits sorted ⊢
  dsimp only at emits ⊢
  by_cases fails : parents = [] ∨ (∃ entry ∈ parents, entry.1.amount < entry.2) ∨ row.amount ≤ 0
  · rw [if_pos fails] at emits
    exact absurd rfl emits
  rw [if_neg fails]
  push Not at fails
  obtain ⟨nonempty, within, wanted⟩ := fails
  have founded : Carrying P parents :=
    ⟨((sorted.map _).nodup_iff).2 carrying.distinct, fun entry member => carrying.positive entry (sorted.mem_iff.1 member)⟩
  refine ⟨fun entry member => within entry (sorted.mem_iff.2 member), fun pair member => ?_, ?_⟩
  · obtain ⟨entry, listed, kept⟩ := mem_filterMap.1 member
    by_cases none : entry.2 ≤ 0
    · rw [if_pos none] at kept
      cases kept
    rw [if_neg none] at kept
    cases kept
    exact ⟨not_le.1 none, sorted.mem_iff.1 (of_mem_zip listed).1⟩
  · rw [sum_filterMap, sum_allocated (by simp) fun entry nonneg => ?_, founded.allocated nonempty wanted]
    by_cases none : entry.2 ≤ 0
    · rw [if_pos none]
      exact le_antisymm nonneg none
    · rw [if_neg none]
      rfl

theorem contributions_sum (inputs : List OwnedInput) :
    ((contributions inputs).map snd).sum = (inputs.map (·.msat)).sum := by
  rw [contributions, map_map]
  exact (sum_fibers OwnedInput.prevTxid (sortedSet_nodup _) OwnedInput.msat fun input member =>
    mem_sortedSet.2 (mem_map_of_mem member)).symm

theorem targetInputs_some {inputs : List OwnedInput}
    (target : targetInputs ownedIndex rows skipRow row = some (chain, network, inputs)) :
    row.direction = .outbound ∧ row.authoritative = true ∧ OwnsInputs ownedIndex row chain network inputs ∧
      ∃ txid, row.scope = some (chain, network, txid) ∧ (chain, network, txid) ∉ blockedScopes rows skipRow := by
  unfold targetInputs at target
  split_ifs at target with outbound
  split at target
  · cases target
  · rename_i chain' network' txid scope
    split_ifs at target with vetoed
    push Not at vetoed
    obtain ⟨inputs', owned, same⟩ := Option.map_eq_some_iff.1 target
    cases same
    exact ⟨not_not.1 outbound, by simpa using vetoed.2.1, ownedInputs_owns owned, txid, scope, vetoed.1⟩

/-- What stands behind the pairs of a spend: its inputs, and the coins with what each of them gives. -/
structure Backing (ownedIndex : OwnedIndex) (rows : List FundsRow) (skipRow : FundsRow → Bool) (spend : FundsRow)
    (pairs : List ParentSpendPair) (inputs : List OwnedInput) (parents : Distribution) : Prop where
  spent : spend.direction = .outbound ∧ spend.authoritative = true
  traced : ∃ key : LineageKey, spend.scope = some key.scope ∧ key.walletId = spend.walletId ∧
    key.scope ∉ blockedScopes rows skipRow ∧ OwnsInputs ownedIndex spend key.chain key.network inputs ∧
    (∀ input ∈ inputs, Traced ownedIndex rows skipRow { key with txid := input.prevTxid }) ∧
    ∀ entry ∈ parents, 0 < entry.2 ∧ entry.2 ≤ entry.1.amount ∧ Founded rows skipRow key entry.1
  allocated : (∀ pair ∈ pairs, 0 < pair.allocationMsat ∧ (pair.fromRow, pair.fromAllocationMsat) ∈ parents) ∧
    (pairs.map (·.allocationMsat)).sum = spend.amount
  given : total parents = ((contributions inputs).map fun entry => max 0 entry.2).sum
  whole : (∀ input ∈ inputs, 0 ≤ input.msat) → total parents = (inputs.map (·.msat)).sum

theorem deriveRow_told (row : FundsRow) (told : Told ownedIndex rows skipRow memo) :
    Told ownedIndex rows skipRow (deriveRow ownedIndex rows skipRow memo row).2 ∧
      ((deriveRow ownedIndex rows skipRow memo row).1 ≠ [] → ∃ inputs parents,
        Backing ownedIndex rows skipRow row (deriveRow ownedIndex rows skipRow memo row).1 inputs parents) := by
  unfold deriveRow
  split
  · exact ⟨told, fun none => absurd rfl none⟩
  · rename_i chain network inputs target
    obtain ⟨outbound, observed, owned, txid, scope, clear⟩ := targetInputs_some target
    let key : LineageKey := { walletId := row.walletId, chain, network, txid }
    obtain ⟨later, resolved⟩ := gatherParents_backed key (contributions inputs) maxAncestorResolutionsPerTarget told
      carrying_nil
    split
    · rename_i same
      rw [same] at later
      exact ⟨later, fun none => absurd rfl none⟩
    · rename_i byParent memo same
      rw [same] at later resolved
      refine ⟨later, fun emits => ?_⟩
      obtain ⟨behind, carrying, totals, -⟩ := resolved byParent rfl
      obtain ⟨within, pairs, sum⟩ := pairsOf_spec emits carrying
      have given : total byParent = ((contributions inputs).map fun entry => max 0 entry.2).sum := totals.trans (zero_add _)
      refine ⟨inputs, byParent, ⟨outbound, observed⟩, ⟨key, scope, rfl, clear, owned, fun input member => ?_, fun entry member =>
        ⟨(carrying.positive entry member).1, within entry member, (carrying.positive entry member).2⟩⟩, ⟨pairs, sum⟩, given,
        fun nonneg => ?_⟩
      · exact behind (input.prevTxid, _) (mem_map_of_mem (mem_sortedSet.2 (mem_map_of_mem member)))
      · rw [given, ← contributions_sum]
        refine congrArg List.sum (map_congr_left fun entry member => max_eq_right ?_)
        obtain ⟨txid, -, rfl⟩ := mem_map.1 member
        refine sum_nonneg fun _ worth => ?_
        obtain ⟨input, listed, rfl⟩ := mem_map.1 worth
        exact nonneg input (mem_of_mem_filter listed)

/-- Pairs are emitted for a spend only where all of its history is owned and known, and they take exactly its inputs. -/
theorem structural_lineage_conserves (ownedIndex : OwnedIndex) (skipRow : FundsRow → Bool) {rows : List FundsRow}
    (distinct : (rows.map (·.id)).Nodup) {spend : FundsRow}
    (emits : ∃ pair ∈ deriveParentSpendPairs ownedIndex rows skipRow, pair.toRow = spend) :
    spend ∈ rows ∧ ∃ inputs parents, Backing ownedIndex rows skipRow spend
      ((deriveParentSpendPairs ownedIndex rows skipRow).filter (·.toRow = spend)) inputs parents := by
  have start : Told ownedIndex rows skipRow fun _ => none := fun _ _ absurd => by cases absurd
  obtain ⟨pair, member, own⟩ := emits
  have kept : pair ∈ (deriveParentSpendPairs ownedIndex rows skipRow).filter (·.toRow = spend) :=
    mem_filter.2 ⟨member, decide_eq_true own⟩
  have keeps (memo : LineageMemo) (row : FundsRow) (told : Told ownedIndex rows skipRow memo) :
      Told ownedIndex rows skipRow (deriveRow ownedIndex rows skipRow memo row).2 := (deriveRow_told row told).1
  rcases derivePass_spend keeps spend (List.Nodup.of_map _ distinct) start with none | ⟨listed, memo, told, same⟩
  · exact absurd kept (by rw [deriveParentSpendPairs, none]; exact not_mem_nil)
  · rw [deriveParentSpendPairs, same] at kept ⊢
    exact ⟨listed, (deriveRow_told spend told).2 (ne_nil_of_mem kept)⟩

/-- A history with change: what stands behind a spend whose pairs are emitted. -/
theorem structural_lineage_conserves_change : ∃ spend ∈ changeHistory, ∃ inputs parents,
    Backing noInventory changeHistory noHop spend
      ((deriveParentSpendPairs noInventory changeHistory noHop).filter (·.toRow = spend)) inputs parents := by
  have emitted : deriveParentSpendPairs noInventory changeHistory noHop ≠ [] := by
    intro none
    have taken := changeHistory_total
    rw [none] at taken
    exact absurd taken (by decide)
  obtain ⟨pair, member⟩ := exists_mem_of_ne_nil _ emitted
  obtain ⟨listed, backed⟩ := structural_lineage_conserves noInventory noHop changeHistory_one.identified.1 ⟨pair, member, rfl⟩
  exact ⟨_, listed, backed⟩

end

section
variable {outputs : Outputs} {parent : FundsRow}

/-- No spend traces to the coin through another transaction: what it spends elsewhere does not resolve to the coin. -/
def ReachedDirectly (ownedIndex : OwnedIndex) (rows : List FundsRow) (skipRow : FundsRow → Bool) (parent : FundsRow) : Prop :=
  ∀ spend ∈ rows, ∀ target ∈ targetInputs ownedIndex rows skipRow spend, ∀ input ∈ target.2.2,
    input.prevTxid ≠ parent.externalId → ∀ upstream, Answers (ancestorGraph ownedIndex rows skipRow)
      { walletId := spend.walletId, chain := target.1, network := target.2.1, txid := input.prevTxid } (some upstream) →
      ∀ share ∈ upstream, share.1.id ≠ parent.id

/-- The outputs of a transaction that a row spends, with what they are worth. -/
def takenOutputs (txid : String) (row : FundsRow) : List (Int × Int) :=
  (row.graph.getD []).filterMap fun entry =>
    if entry.prevTxid = some txid then entry.vout.bind fun vout => entry.valueSats.map fun sats => (vout, sats * 1000) else none

variable {row : FundsRow}

theorem takenOutputs_inputs {txid chain network : String} {inputs : List OwnedInput}
    (owned : OwnsInputs ownedIndex row chain network inputs) :
    takenOutputs txid row = (inputs.filter fun input => input.prevTxid = txid).map fun input => (input.vout, input.msat) := by
  obtain ⟨entries, graph, -, -, paired⟩ := owned
  rw [takenOutputs, graph, Option.getD_some]
  clear graph
  induction paired with
  | nil => rfl
  | @cons entry input _ _ own _ ih =>
    obtain ⟨sats, worth, value⟩ := Option.map_eq_some_iff.1 own.value
    rw [filterMap_cons, own.outpoint.1, own.outpoint.2.1, worth, ih]
    by_cases same : input.prevTxid = txid
    · simp [same, value]
    · simp [same]

theorem takenTotal_append (pairs more : List ParentSpendPair) :
    takenTotal parent (pairs ++ more) = takenTotal parent pairs + takenTotal parent more := by
  simp [takenTotal]

theorem pairsOf_taken {P : FundsRow → Prop} {contributed : List String} {byParent : Distribution}
    (carrying : Carrying P byParent) :
    takenTotal parent (pairsOf row contributed byParent) ≤ weighed (ownShare parent.id) byParent := by
  have positive (entry : FundsRow × Int) (member : entry ∈ byParent) : 0 ≤ ownShare parent.id entry.1.id * entry.2 :=
    mul_nonneg (ownShare_nonneg _ _) (carrying.positive entry member).1.le
  have sorted := sortedBy_perm (·.1.id) byParent
  unfold pairsOf weighed
  dsimp only
  split
  · refine sum_nonneg fun value member => ?_
    obtain ⟨entry, listed, rfl⟩ := mem_map.1 member
    exact positive entry listed
  have zipped (shares : List Int) (paired : (sortedBy (·.1.id) byParent).length ≤ shares.length) :
      ((sortedBy (·.1.id) byParent).zip shares).map Prod.fst = sortedBy (·.1.id) byParent := map_fst_zip paired
  rw [← (sorted.map _).sum_eq]
  conv_rhs => rw [← zipped (allocateByWeight ((sortedBy (·.1.id) byParent).map snd) row.amount)
    (by rw [allocateByWeight_length, length_map])]
  rw [takenTotal, sum_filter, sum_filterMap, map_map]
  refine List.sum_le_sum fun entry member => ?_
  have some := positive entry.1 (sorted.mem_iff.1 (of_mem_zip member).1)
  dsimp only [Function.comp_apply]
  split
  · exact some
  · dsimp only [Option.map_some, Option.getD_some]
    split
    · rename_i own
      rw [ownShare, if_pos (by rw [own]), one_mul]
    · exact some

theorem OneHistory.spends (history : OneHistory outputs rows) (listed : row ∈ rows) :
    ∀ entry ∈ row.graph.getD [], ∃ before ∈ rows, entry.prevTxid = some before.externalId ∧
      ∃ output ∈ outputs before, entry.vout = some output.1 ∧ entry.valueSats.map (· * 1000) = some output.2 := by
  intro entry member
  obtain ⟨position, bound, same⟩ := getElem_of_mem listed
  have entries : (rows.map fun row => row.graph.getD []).getD position [] = row.graph.getD [] := by
    simp [getD_eq_getElem?_getD, getElem?_eq_getElem bound, same]
  obtain ⟨before, inside, rest⟩ := history.earlier position bound entry (entries ▸ member)
  exact ⟨before, mem_of_mem_take inside, rest⟩

theorem mem_takenOutputs (history : OneHistory outputs rows) (listed : parent ∈ rows) (member : row ∈ rows)
    {output : Int × Int} (taken : output ∈ takenOutputs parent.externalId row) : output ∈ outputs parent := by
  obtain ⟨entry, inside, made⟩ := mem_filterMap.1 taken
  split at made
  · rename_i own
    obtain ⟨vout, at_, made⟩ := Option.bind_eq_some_iff.1 made
    obtain ⟨sats, worth, rfl⟩ := Option.map_eq_some_iff.1 made
    obtain ⟨before, earlier, named, ⟨index, msat⟩, held, at_', worth'⟩ := history.spends member entry inside
    have same : before = parent :=
      inj_on_of_nodup_map history.identified.2 earlier listed (Option.some.inj (named.symm.trans own))
    rw [at_] at at_'
    rw [worth] at worth'
    cases at_'
    cases worth'
    exact same ▸ held
  · cases made

/-- What all rows together take from a coin's outputs is at most what they are worth, as no output is spent twice. -/
theorem outputs_taken_once (history : OneHistory outputs rows) (listed : parent ∈ rows) :
    (rows.map fun row => ((takenOutputs parent.externalId row).map snd).sum).sum ≤ leftMsat outputs parent := by
  rw [← sum_flatMap]
  have spent : ((rows.flatMap (takenOutputs parent.externalId)).map fun output => (parent.externalId, output.1)).Sublist
      (spentOutpoints rows) := by
    unfold spentOutpoints
    rw [map_flatMap]
    refine rows.rec List.Sublist.slnil fun row rest ih => ?_
    rw [flatMap_cons, flatMap_cons]
    refine List.Sublist.append (filterMap_sublist (fun entry output made => ?_) _) ih
    split at made
    · rename_i own
      obtain ⟨vout, at_, made⟩ := Option.bind_eq_some_iff.1 made
      obtain ⟨sats, -, rfl⟩ := Option.map_eq_some_iff.1 made
      rw [own, at_]
      rfl
    · cases made
  have inside : rows.flatMap (takenOutputs parent.externalId) ⊆ outputs parent := by
    intro output taken
    obtain ⟨row, member, taken⟩ := mem_flatMap.1 taken
    exact mem_takenOutputs history listed member taken
  obtain ⟨kept, perm, sublist⟩ := (List.Nodup.of_map _ (history.once.sublist spent)).subperm inside
  rw [← (perm.map snd).sum_eq]
  refine (sublist.map snd).sum_le_sum fun value member => ?_
  obtain ⟨output, held, rfl⟩ := mem_map.1 member
  exact history.values parent listed output held

theorem deriveRow_taken (history : OneHistory outputs rows) (listed : parent ∈ rows)
    (direct : ReachedDirectly ownedIndex rows skipRow parent) (member : row ∈ rows) {memo : LineageMemo}
    (told : Told ownedIndex rows skipRow memo) :
    takenTotal parent (deriveRow ownedIndex rows skipRow memo row).1 ≤ ((takenOutputs parent.externalId row).map snd).sum := by
  have nonneg : 0 ≤ ((takenOutputs parent.externalId row).map snd).sum := by
    refine sum_nonneg fun value taken => ?_
    obtain ⟨output, own, rfl⟩ := mem_map.1 taken
    exact history.values parent listed output (mem_takenOutputs history listed member own)
  unfold deriveRow
  split
  · exact nonneg
  rename_i chain network inputs target
  obtain ⟨-, -, owned, -⟩ := targetInputs_some target
  have resolved := gatherParents_backed { walletId := row.walletId, chain, network, txid := "" } (contributions inputs)
    maxAncestorResolutionsPerTarget told carrying_nil
  split
  · exact nonneg
  rename_i byParent memo same
  obtain ⟨-, carrying, -, bound⟩ := resolved.2 byParent (by rw [same])
  refine (pairsOf_taken carrying).trans ((bound parent.id parent.externalId fun entry contributed other => ?_).trans ?_)
  · obtain ⟨txid, spent, rfl⟩ := mem_map.1 contributed
    obtain ⟨input, held, rfl⟩ := mem_map.1 (mem_sortedSet.1 spent)
    exact direct row member _ target input held other
  · have whole : 0 ≤ ((inputs.filter fun input => input.prevTxid = parent.externalId).map (·.msat)).sum := by
      rw [takenOutputs_inputs owned, map_map] at nonneg
      exact nonneg
    have once (txids : List String) (distinct : txids.Nodup) : (txids.map fun txid => if txid = parent.externalId then
        max 0 ((inputs.filter fun input => input.prevTxid = txid).map (·.msat)).sum else 0).sum ≤
        ((inputs.filter fun input => input.prevTxid = parent.externalId).map (·.msat)).sum := by
      have same : (fun txid => if txid = parent.externalId then
          max 0 ((inputs.filter fun input => input.prevTxid = txid).map (·.msat)).sum else 0) = fun txid =>
          if parent.externalId = txid then ((inputs.filter fun input => input.prevTxid = parent.externalId).map (·.msat)).sum
          else 0 := by
        funext txid
        by_cases own : txid = parent.externalId
        · rw [if_pos own, if_pos own.symm, own, max_eq_right whole]
        · rw [if_neg own, if_neg (Ne.symm own)]
      rw [same]
      by_cases listed : parent.externalId ∈ txids
      · exact (sum_indicator distinct listed _).le
      · refine (sum_eq_zero fun value member => ?_).trans_le whole
        obtain ⟨txid, inside, rfl⟩ := mem_map.1 member
        rw [if_neg]
        rintro rfl
        exact listed inside
    show 0 + _ ≤ _
    rw [zero_add, takenOutputs_inputs owned, map_map, sum_filter, contributions, map_map]
    exact once _ (sortedSet_nodup _)

theorem derivePass_taken (history : OneHistory outputs rows) (listed : parent ∈ rows)
    (direct : ReachedDirectly ownedIndex rows skipRow parent) {targets : List FundsRow} (inside : targets ⊆ rows)
    {memo : LineageMemo} (told : Told ownedIndex rows skipRow memo) :
    takenTotal parent (derivePass ownedIndex rows skipRow targets memo) ≤
      (targets.map fun row => ((takenOutputs parent.externalId row).map snd).sum).sum := by
  induction targets generalizing memo with
  | nil => exact le_rfl
  | cons row rest ih =>
    rw [derivePass, takenTotal_append, map_cons, sum_cons]
    exact add_le_add (deriveRow_taken history listed direct (inside (.head _)) told)
      (ih (fun other later => inside (.tail _ later)) (deriveRow_told row told).1)

end
def splitHistory : List FundsRow :=
  [deposit, spendOne withdrawalTxid depositTxid 0 600000 600000000, spendOne changeTxid depositTxid 1 400000 400000000]

def splitOutputs : Outputs := fun row => if row = deposit then [(0, 600000000), (1, 400000000)] else []

theorem splitHistory_one : OneHistory splitOutputs splitHistory where
  identified := by decide
  authoritative := by decide
  earlier := by decide
  once := by decide
  values := by decide
  net := by decide

theorem deriveRow_resolved {memo : LineageMemo} {row : FundsRow} {chain network : String} {inputs : List OwnedInput}
    {byParent : Distribution} (target : targetInputs ownedIndex rows skipRow row = some (chain, network, inputs))
    (gathered : (gatherParents ownedIndex rows skipRow row.walletId chain network (contributions inputs) memo
      maxAncestorResolutionsPerTarget []).1 = some byParent) :
    (deriveRow ownedIndex rows skipRow memo row).1 = pairsOf row (inputs.map (·.prevTxid)) byParent := by
  rw [deriveRow, target]
  dsimp only
  split
  · rename_i same
    rw [same] at gathered
    cases gathered
  · rename_i same
    rw [same] at gathered
    cases gathered
    rfl

def dust : FundsRow := coinOf withdrawalTxid 5000

def oddSpend : FundsRow :=
  { spendOne changeTxid depositTxid 0 1000000 400000000 with
    graph := some [{ prevTxid := some depositTxid, vout := some 0, valueSats := some 1000000, script := "0014" },
      { prevTxid := some withdrawalTxid, vout := some 0, valueSats := some (-1), script := "0014" }]
    declaredInputs := 2 }

def oddHistory : List FundsRow := [deposit, dust, oddSpend]

theorem oddHistory_parents {budget : Int} (funded : 1 < budget) :
    (gatherParents noInventory oddHistory noHop "w" "bitcoin" "main" [(depositTxid, 1000000000), (withdrawalTxid, -1000)]
      (fun _ => none) budget []).1 = some [(deposit, 1000000000)] := by
  have first : classifyTransaction noInventory oddHistory noHop (keyIn depositTxid) = .leaf [(deposit, 1000000000)] := by rfl
  have second : classifyTransaction noInventory oddHistory noHop (keyIn withdrawalTxid) = .leaf [(dust, 5000)] := by rfl
  have carried : carryShares (carryShares [] (scaleAncestors [(deposit, 1000000000)] 1000000000))
      (scaleAncestors [(dust, 5000)] (-1000)) = [(deposit, 1000000000)] := by decide
  have apart : keyIn withdrawalTxid ≠ keyIn depositTxid := by decide
  have resolved : ancestorDistribution noInventory oddHistory noHop (fun _ => none) budget (keyIn depositTxid) = _ :=
    ancestorDistribution_leaf rfl first (by omega)
  have unseen : Function.update (fun _ => none : LineageMemo) (keyIn depositTxid) (some (some [(deposit, 1000000000)]))
      (keyIn withdrawalTxid) = none := by
    rw [Function.update_of_ne apart]
  unfold keyIn at resolved
  rw [gatherParents, resolved]
  dsimp only
  have later := ancestorDistribution_leaf unseen second (show 0 < budget - 1 by omega)
  unfold keyIn at later
  rw [gatherParents, later]
  dsimp only
  rw [carried, gatherParents]

theorem oddHistory_inputs : targetInputs noInventory oddHistory noHop oddSpend = some ("bitcoin", "main",
    [⟨depositTxid, 0, 1000000000⟩, ⟨withdrawalTxid, 0, -1000⟩]) := by decide

theorem oddHistory_pairs : deriveParentSpendPairs noInventory oddHistory noHop =
    pairsOf oddSpend [depositTxid, withdrawalTxid] [(deposit, 1000000000)] := by
  have contributed : contributions [⟨depositTxid, 0, 1000000000⟩, ⟨withdrawalTxid, 0, -1000⟩] =
      [(depositTxid, 1000000000), (withdrawalTxid, -1000)] := by decide
  have spends : (deriveRow noInventory oddHistory noHop (fun _ => none) oddSpend).1 =
      pairsOf oddSpend [depositTxid, withdrawalTxid] [(deposit, 1000000000)] := by
    refine deriveRow_resolved oddHistory_inputs ?_
    rw [contributed]
    exact oddHistory_parents (by decide)
  have received : ∀ row ∈ [deposit, dust], ∀ memo, deriveRow noInventory oddHistory noHop memo row = ([], memo) := by
    simp [deriveRow, targetInputs, deposit, dust, coinOf]
  rw [deriveParentSpendPairs]
  nth_rewrite 2 [oddHistory]
  rw [derivePass, derivePass, derivePass, derivePass, received deposit (by decide), received dust (by decide), spends]
  exact append_nil _

/-- The pairs of a spend take more than its inputs are worth. -/
theorem negative_input_unbalanced :
    ¬∀ (ownedIndex : OwnedIndex) (rows : List FundsRow) (skipRow : FundsRow → Bool), (rows.map (·.id)).Nodup →
      ∀ spend chain network inputs, targetInputs ownedIndex rows skipRow spend = some (chain, network, inputs) →
        (((deriveParentSpendPairs ownedIndex rows skipRow).filter (·.toRow = spend)).map (·.fromAllocationMsat)).sum ≤
          (inputs.map (·.msat)).sum := by
  intro bounded
  have taken := bounded noInventory oddHistory noHop (by decide) oddSpend _ _ _ oddHistory_inputs
  rw [oddHistory_pairs] at taken
  exact absurd taken (by decide)

end Kassiber.Funds

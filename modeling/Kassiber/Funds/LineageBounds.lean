import Kassiber.Funds.LineageExhaustion

/-!
What each spend emits is its own. Over several spends the gross values of a spend and of the change it left are
counted side by side.
-/

namespace Kassiber.Funds
open Lib.Sorting Lib.MemoSearch Kassiber.Custody List

variable {ownedIndex : OwnedIndex} {rows : List FundsRow} {skipRow : FundsRow → Bool}

theorem addShare_ids (carried : Distribution) (share : FundsRow × Int) (distinct : (carried.map (·.1.id)).Nodup) :
    ((addShare carried share).map (·.1.id)).Nodup := by
  unfold addShare
  split
  · have same : (carried.map fun entry => if entry.1.id = share.1.id then (entry.1, entry.2 + share.2) else entry).map (·.1.id) =
        carried.map (·.1.id) := by
      rw [map_map]
      refine map_congr_left fun entry _ => ?_
      dsimp only [Function.comp_apply]
      split <;> rfl
    rwa [same]
  · rename_i fresh
    rw [map_append, map_singleton]
    exact nodup_append.2 ⟨distinct, nodup_singleton _, fun id member other listed => by
      rw [mem_singleton.1 listed]
      rintro rfl
      exact fresh member⟩

theorem pairsOf_spend {row : FundsRow} {contributed : List String} {byParent : Distribution} {pair : ParentSpendPair}
    (member : pair ∈ pairsOf row contributed byParent) : pair.toRow = row := by
  unfold pairsOf at member
  dsimp only at member
  split at member
  · cases member
  · obtain ⟨entry, -, kept⟩ := mem_filterMap.1 member
    split at kept <;> cases kept
    rfl

theorem deriveRow_spend {memo : LineageMemo} {row : FundsRow} {pair : ParentSpendPair}
    (member : pair ∈ (deriveRow ownedIndex rows skipRow memo row).1) : pair.toRow = row := by
  unfold deriveRow at member
  split at member
  · cases member
  · split at member
    · cases member
    · exact pairsOf_spend member

theorem allocateByWeight_length (weights : List Int) (targetSum : Int) :
    (allocateByWeight weights targetSum).length = weights.length := by
  unfold allocateByWeight
  dsimp only
  split
  · exact length_map _
  · rw [length_map, length_zipIdx, length_map, length_map]

theorem filterMap_sublist {α β γ : Type*} {f : α → Option β} {g : β → γ} {h : α → Option γ}
    (kept : ∀ x y, f x = some y → h x = some (g y)) (xs : List α) : ((xs.filterMap f).map g).Sublist (xs.filterMap h) := by
  induction xs with
  | nil => exact List.Sublist.slnil
  | cons x xs ih =>
    cases found : f x with
    | none =>
      rw [filterMap_cons_none found]
      exact ih.trans ((sublist_cons_self x xs).filterMap h)
    | some y =>
      rw [filterMap_cons_some found, filterMap_cons_some (kept x y found)]
      exact ih.cons_cons _

theorem derivePass_spend {inv : LineageMemo → Prop}
    (kept : ∀ memo row, inv memo → inv (deriveRow ownedIndex rows skipRow memo row).2) (spend : FundsRow)
    {targets : List FundsRow} (distinct : targets.Nodup) {memo : LineageMemo} (start : inv memo) :
    (derivePass ownedIndex rows skipRow targets memo).filter (·.toRow = spend) = [] ∨
      spend ∈ targets ∧ ∃ earlier, inv earlier ∧ (derivePass ownedIndex rows skipRow targets memo).filter (·.toRow = spend) =
        (deriveRow ownedIndex rows skipRow earlier spend).1 := by
  have elsewhere {row : FundsRow} (other : row ≠ spend) (memo : LineageMemo) :
      (deriveRow ownedIndex rows skipRow memo row).1.filter (·.toRow = spend) = [] :=
    filter_eq_nil_iff.2 fun pair member => by simpa [deriveRow_spend member] using other
  have absent {others : List FundsRow} (memo : LineageMemo) (missing : spend ∉ others) :
      (derivePass ownedIndex rows skipRow others memo).filter (·.toRow = spend) = [] := by
    induction others generalizing memo with
    | nil => rfl
    | cons row rest ih =>
      rw [mem_cons, not_or] at missing
      rw [derivePass, filter_append, elsewhere (Ne.symm missing.1), ih _ missing.2]
      rfl
  induction targets generalizing memo with
  | nil => exact .inl rfl
  | cons row rest ih =>
    rw [nodup_cons] at distinct
    by_cases same : row = spend
    · subst same
      have alone : ((deriveRow ownedIndex rows skipRow memo row).1 ++ derivePass ownedIndex rows skipRow rest
          (deriveRow ownedIndex rows skipRow memo row).2).filter (·.toRow = row) = (deriveRow ownedIndex rows skipRow memo row).1 := by
        rw [filter_append, absent _ distinct.1, append_nil]
        exact filter_eq_self.2 fun pair member => by simpa using deriveRow_spend member
      exact .inr ⟨.head _, memo, start, alone⟩
    · rw [derivePass, filter_append, elsewhere same, nil_append]
      exact (ih distinct.2 (kept memo row start)).imp id fun found => ⟨.tail _ found.1, found.2⟩

/-- What a row leaves to its wallet: the owned outputs of its transaction, by index, in millisatoshis. -/
abbrev Outputs := FundsRow → List (Int × Int)

def spentOutpoints (rows : List FundsRow) : List (String × Int) :=
  rows.flatMap fun row => (row.graph.getD []).filterMap fun entry =>
    entry.prevTxid.bind fun prevTxid => entry.vout.map fun vout => (prevTxid, vout)

def spentMsat (row : FundsRow) : Int := ((row.graph.getD []).map fun entry => entry.valueSats.getD 0 * 1000).sum

def leftMsat (outputs : Outputs) (row : FundsRow) : Int := ((outputs row).map Prod.snd).sum

/-- Rows of one wallet in the order of the chain: every input spends an output that an earlier row left, no output
is spent twice, and the amount of a row is what its transaction adds to or takes from the wallet. -/
structure OneHistory (outputs : Outputs) (rows : List FundsRow) : Prop where
  identified : (rows.map (·.id)).Nodup ∧ (rows.map (·.externalId)).Nodup
  authoritative : ∀ row ∈ rows, row.authoritative = true ∧ row.scope.map (·.2.2) = some row.externalId
  earlier : ∀ position < rows.length, ∀ entry ∈ ((rows.map fun row => row.graph.getD []).getD position []),
    ∃ before ∈ rows.take position, entry.prevTxid = some before.externalId ∧
      ∃ output ∈ outputs before, entry.vout = some output.1 ∧ entry.valueSats.map (· * 1000) = some output.2
  once : (spentOutpoints rows).Nodup
  values : ∀ row ∈ rows, ∀ output ∈ outputs row, 0 ≤ output.2
  net : ∀ row ∈ rows, row.direction = .inbound ∧ row.amount = leftMsat outputs row - spentMsat row ∨
    row.direction = .outbound ∧ row.amount = spentMsat row - leftMsat outputs row

def coinOf (txid : String) (amount : Int) : FundsRow :=
  { id := txid, walletId := "w", direction := .inbound, amount, externalId := txid
    scope := some ("bitcoin", "main", txid), authoritative := true, assetIdentity := "BTC" }

def spendOne (txid prevTxid : String) (vout valueSats amount : Int) : FundsRow :=
  { id := txid, walletId := "w", direction := .outbound, amount, externalId := txid
    scope := some ("bitcoin", "main", txid), authoritative := true
    graph := some [{ prevTxid := some prevTxid, vout := some vout, valueSats := some valueSats, script := "0014" }]
    declaredInputs := 1, observerOwnedScripts := ["0014"], assetIdentity := "BTC" }

def depositTxid : String := "e1e1e1e1e1e1e1e1e1e1e1e1e1e1e1e1e1e1e1e1e1e1e1e1e1e1e1e1e1e1e1e1"

def withdrawalTxid : String := "e2e2e2e2e2e2e2e2e2e2e2e2e2e2e2e2e2e2e2e2e2e2e2e2e2e2e2e2e2e2e2e2"

def changeTxid : String := "e3e3e3e3e3e3e3e3e3e3e3e3e3e3e3e3e3e3e3e3e3e3e3e3e3e3e3e3e3e3e3e3"

def deposit : FundsRow := coinOf depositTxid 1000000000

def withdrawal : FundsRow := spendOne withdrawalTxid depositTxid 0 1000000 401000000

def changeSpend : FundsRow := spendOne changeTxid withdrawalTxid 1 599000 599000000

def changeHistory : List FundsRow := [deposit, withdrawal, changeSpend]

def changeOutputs : Outputs := fun row =>
  if row = deposit then [(0, 1000000000)] else if row = withdrawal then [(1, 599000000)] else []

theorem changeHistory_one : OneHistory changeOutputs changeHistory where
  identified := by decide
  authoritative := by decide
  earlier := by decide
  once := by decide
  values := by decide
  net := by decide

def changeGraph : Graph LineageKey LineageEdge Distribution Distribution :=
  ancestorGraph noInventory changeHistory noHop

def keyIn (txid : String) : LineageKey := { walletId := "w", chain := "bitcoin", network := "main", txid }

theorem changeHistory_worth (txid : String) (listed : txid = depositTxid ∨ txid = withdrawalTxid) :
    worth changeGraph (keyIn txid) = some [(deposit, 1000000000)] := by
  have answer : Answers changeGraph (keyIn txid) (some [(deposit, 1000000000)]) := by
    rcases listed with rfl | rfl
    · exact ⟨1, by decide⟩
    · exact ⟨2, by decide⟩
  exact answer.worth_eq.symm

theorem withdrawal_inputs : targetInputs noInventory changeHistory noHop withdrawal =
    some ("bitcoin", "main", [{ prevTxid := depositTxid, vout := 0, msat := 1000000000 }]) := by decide

theorem changeSpend_inputs : targetInputs noInventory changeHistory noHop changeSpend =
    some ("bitcoin", "main", [{ prevTxid := withdrawalTxid, vout := 1, msat := 599000000 }]) := by decide

theorem changeHistory_within : ∀ row ∈ changeHistory, WithinBudget noInventory changeHistory noHop row := by
  have closed : ∀ key ∈ [keyIn depositTxid, keyIn withdrawalTxid], ∀ other, Needs changeGraph key other →
      other ∈ [keyIn depositTxid, keyIn withdrawalTxid] := by
    rintro key member other ⟨edges, through, edge, inside, rfl⟩
    rcases mem_cons.1 member with rfl | last
    · have leaf : changeGraph.classify (keyIn depositTxid) = .leaf [(deposit, 1000000000)] := by rfl
      rw [leaf] at through
      cases through
    · rw [mem_singleton.1 last] at through
      have hop : changeGraph.classify (keyIn withdrawalTxid) = .through [(keyIn depositTxid, 1000000000)] := by rfl
      rw [hop] at through
      cases through
      rw [mem_singleton.1 inside]
      exact .head _
  intro row member
  refine .of_reach (by decide) (fun chain network inputs targeted => ?_) closed
  have listed : row = deposit ∨ row = withdrawal ∨ row = changeSpend := by simpa [changeHistory] using member
  rcases listed with rfl | rfl | rfl
  · cases targeted
  · rw [withdrawal_inputs] at targeted
    cases targeted
    intro input inside
    rw [mem_singleton.1 inside]
    exact .head _
  · rw [changeSpend_inputs] at targeted
    cases targeted
    intro input inside
    rw [mem_singleton.1 inside]
    exact .tail _ (mem_singleton_self _)

def takenTotal (parent : FundsRow) (pairs : List ParentSpendPair) : Int :=
  ((pairs.filter fun pair => pair.fromRow = parent).map (·.fromAllocationMsat)).sum

theorem changeHistory_total :
    takenTotal deposit (deriveParentSpendPairs noInventory changeHistory noHop) = 1000000000 + 599000000 := by
  have derived : deriveParentSpendPairs noInventory changeHistory noHop =
      changeHistory.flatMap (rowPairs noInventory changeHistory noHop (worth changeGraph)) :=
    derivePass_sound changeHistory_within emptyMemo_tells
  have none : rowPairs noInventory changeHistory noHop (worth changeGraph) deposit = [] := rfl
  have first : rowPairs noInventory changeHistory noHop (worth changeGraph) withdrawal =
      pairsOf withdrawal [depositTxid] [(deposit, 1000000000)] := by
    rw [rowPairs, withdrawal_inputs]
    dsimp only
    rw [show contributions [{ prevTxid := depositTxid, vout := 0, msat := 1000000000 }] = [(depositTxid, 1000000000)] by decide,
      parentsBy]
    erw [changeHistory_worth depositTxid (.inl rfl)]
    rfl
  have second : rowPairs noInventory changeHistory noHop (worth changeGraph) changeSpend =
      pairsOf changeSpend [withdrawalTxid] [(deposit, 599000000)] := by
    rw [rowPairs, changeSpend_inputs]
    dsimp only
    rw [show contributions [{ prevTxid := withdrawalTxid, vout := 1, msat := 599000000 }] = [(withdrawalTxid, 599000000)] by decide,
      parentsBy]
    erw [changeHistory_worth withdrawalTxid (.inr rfl)]
    rfl
  have whole : deriveParentSpendPairs noInventory changeHistory noHop =
      pairsOf withdrawal [depositTxid] [(deposit, 1000000000)] ++ pairsOf changeSpend [withdrawalTxid] [(deposit, 599000000)] := by
    rw [derived]
    show rowPairs noInventory changeHistory noHop (worth changeGraph) deposit ++
      (rowPairs noInventory changeHistory noHop (worth changeGraph) withdrawal ++
        (rowPairs noInventory changeHistory noHop (worth changeGraph) changeSpend ++ [])) = _
    rw [none, first, second]
    rfl
  rw [whole]
  decide

end Kassiber.Funds

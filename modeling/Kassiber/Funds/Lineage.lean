import Kassiber.Lib.Sorting
import Kassiber.Lib.MemoSearch
import Kassiber.Custody.Evidence

/-!
Structural lineage of source funds: a spend is traced through its own observed inputs to the inbound rows of
the same wallet, through outbound rows whose change it spends, every input of every hop being vetted.
-/

namespace Kassiber.Funds
open Lib.Sorting Lib.MemoSearch Kassiber.Custody

/-- One input of a stored transaction graph, as the parser leaves it. -/
structure GraphInput where
  prevTxid : Option String
  vout : Option Int
  valueSats : Option Int
  script : String
  role : String := ""
  deriving DecidableEq

/-- A transaction row. Its scope, its commitment check and its stored graph are given as read. -/
structure FundsRow where
  id : String
  walletId : String
  direction : Direction
  amount : Int
  externalId : String := ""
  /-- The chain, the network and the canonical transaction id. -/
  scope : Option (String × String × String)
  authoritative : Bool
  graph : Option (List GraphInput) := none
  declaredInputs : Nat := 0
  observerOwnedScripts : List String := []
  assetIdentity : String := ""
  deriving DecidableEq

structure OwnedOutput where
  walletId : String
  ambiguous : Bool
  assetIdentity : String

abbrev OwnedIndex := String × String × String × Int → Option OwnedOutput

/-- Integer shares of a sum by weight: floors, and one more for the largest remainders. -/
def allocateByWeight (weights : List Int) (targetSum : Int) : List Int :=
  let positive := weights.map (max 0)
  if targetSum ≤ 0 ∨ positive.sum ≤ 0 then weights.map fun _ => 0
  else
    let floors := positive.map fun weight => weight * targetSum / positive.sum
    let remainders := positive.map fun weight => weight * targetSum % positive.sum
    let order := sortedBy (fun position => toLex (-(remainders.getD position 0), position)) (List.range weights.length)
    let favoured := order.take (targetSum - floors.sum).toNat
    floors.zipIdx.map fun entry => if entry.2 ∈ favoured then entry.1 + 1 else entry.1

abbrev Distribution := List (FundsRow × Int)

def scaleAncestors (ancestors : Distribution) (valueMsat : Int) : Distribution :=
  ((ancestors.map Prod.fst).zip (allocateByWeight (ancestors.map Prod.snd) valueMsat)).filter fun entry => 0 < entry.2

/-- Adds a share to the entry of its row, which is made where it is missing. -/
def addShare (carried : Distribution) (share : FundsRow × Int) : Distribution :=
  if share.1.id ∈ carried.map (·.1.id) then
    carried.map fun entry => if entry.1.id = share.1.id then (entry.1, entry.2 + share.2) else entry
  else carried ++ [share]

def carryShares (carried : Distribution) (shares : Distribution) : Distribution := shares.foldl addShare carried

/-- An observed input: the transaction whose output it spends, and its value. -/
structure OwnedInput where
  prevTxid : String
  vout : Int
  msat : Int
  deriving DecidableEq

section
variable (ownedIndex : OwnedIndex)

def ownedInput (row : FundsRow) (chain network : String) (entry : GraphInput) : Option OwnedInput :=
  match entry.prevTxid, entry.vout, entry.valueSats with
  | some prevTxid, some vout, some valueSats =>
    if vout < 0 ∨ entry.script = "" then none
    else if entry.script ∉ row.observerOwnedScripts ∧ entry.role ≠ "owned" then none
    else
      let input : OwnedInput := { prevTxid, vout, msat := valueSats * 1000 }
      match ownedIndex (chain, network, prevTxid, vout) with
      | none => some input
      | some info =>
        -- A disagreement with the inventory stops the lineage.
        if info.ambiguous ∨ info.walletId ≠ row.walletId ∨ info.assetIdentity ≠ row.assetIdentity then none
        else some input
  | _, _, _ => none

def ownedInputs (row : FundsRow) (chain network : String) : Option (List OwnedInput) :=
  match row.graph with
  | none => none
  | some entries =>
    if entries = [] ∨ row.declaredInputs ≠ entries.length then none
    else entries.mapM (ownedInput ownedIndex row chain network)

structure LineageKey where
  walletId : String
  chain : String
  network : String
  txid : String
  deriving DecidableEq

def LineageKey.scope (key : LineageKey) : String × String × String := (key.chain, key.network, key.txid)

def blockedScopes (rows : List FundsRow) (skipRow : FundsRow → Bool) : List (String × String × String) :=
  rows.filterMap fun row => if skipRow row then row.scope else none

def candidates (rows : List FundsRow) (key : LineageKey) (direction : Direction) : List FundsRow :=
  rows.filter fun row => row.scope = some key.scope ∧ row.walletId = key.walletId ∧ row.direction = direction

abbrev LineageEdge := LineageKey × Int

def classifyTransaction (rows : List FundsRow) (skipRow : FundsRow → Bool) (key : LineageKey) :
    Kind LineageEdge Distribution :=
  if key.scope ∈ blockedScopes rows skipRow then .refused
  else match candidates rows key .inbound with
    | [] =>
      match candidates rows key .outbound with
      | [spend] =>
        if spend.authoritative then
          match ownedInputs ownedIndex spend key.chain key.network with
          | none => .refused
          | some inputs => .through (inputs.map fun input => ({ key with txid := input.prevTxid }, input.msat))
        else .refused
      | _ => .refused
    | [parent] => if parent.authoritative ∧ 0 < parent.amount then .leaf [(parent, parent.amount)] else .refused
    | _ => .refused

def ancestorGraph (rows : List FundsRow) (skipRow : FundsRow → Bool) :
    Graph LineageKey LineageEdge Distribution Distribution where
  classify := classifyTransaction ownedIndex rows skipRow
  target := Prod.fst
  start := []
  carry carried edge upstream := carryShares carried (scaleAncestors upstream edge.2)
  close carried := if carried = [] then none else some (sortedBy (·.1.id) carried)

def maxAncestorResolutionsPerTarget : Nat := 5000

def graphWidth (rows : List FundsRow) : Nat := (rows.map fun row => (row.graph.getD []).length).foldr max 0

abbrev LineageMemo := LineageKey → Option (Option Distribution)

/-- Every inbound row behind one transaction with the value it carries; what was resolved stays in the memo. -/
def ancestorDistribution (rows : List FundsRow) (skipRow : FundsRow → Bool) (memo : LineageMemo) (budget : Int)
    (key : LineageKey) : Option Distribution × LineageMemo × Int :=
  let final := evaluate (ancestorGraph ownedIndex rows skipRow) (graphWidth rows) memo budget key
  ((final.memo key).getD none, final.memo, final.budget)

structure ParentSpendPair where
  fromRow : FundsRow
  toRow : FundsRow
  allocationMsat : Int
  fromAllocationMsat : Int
  explanation : String

def passthroughExplanation : String :=
  "This spend's observed inputs trace back to this transaction through intermediate transactions in the same wallet. " ++
    "Value is attributed across those hops in proportion to the amounts they carried, which conserves the total but " ++
    "does not identify which individual coins moved."

def directExplanation : String :=
  "This spend's observed inputs include outputs created by this transaction in the same wallet."

/-- The value a spend takes from each transaction, by transaction id. -/
def contributions (inputs : List OwnedInput) : List (String × Int) :=
  (sortedSet (inputs.map (·.prevTxid))).map fun txid =>
    (txid, ((inputs.filter fun input => input.prevTxid = txid).map (·.msat)).sum)

/-- Gathers the parents of every contribution; the first one that cannot be resolved ends the spend. -/
def gatherParents (rows : List FundsRow) (skipRow : FundsRow → Bool) (wallet chain network : String) :
    List (String × Int) → LineageMemo → Int → Distribution → Option Distribution × LineageMemo
  | [], memo, _, byParent => (some byParent, memo)
  | (prevTxid, grossMsat) :: rest, memo, budget, byParent =>
    match ancestorDistribution ownedIndex rows skipRow memo budget { walletId := wallet, chain, network, txid := prevTxid } with
    | (none, memo, _) => (none, memo)
    | (some upstream, memo, budget) =>
      gatherParents rows skipRow wallet chain network rest memo budget
        (carryShares byParent (scaleAncestors upstream grossMsat))

def pairsOf (row : FundsRow) (contributed : List String) (byParent : Distribution) : List ParentSpendPair :=
  let parents := sortedBy (·.1.id) byParent
  if parents = [] ∨ (∃ entry ∈ parents, entry.1.amount < entry.2) ∨ row.amount ≤ 0 then []
  else
    let passthrough : Bool := parents.any fun entry => entry.1.externalId.toLower ∉ contributed
    let shares := allocateByWeight (parents.map Prod.snd) row.amount
    (parents.zip shares).filterMap fun entry =>
      if entry.2 ≤ 0 then none
      else some
        { fromRow := entry.1.1, toRow := row, allocationMsat := entry.2, fromAllocationMsat := entry.1.2
          explanation := if passthrough then passthroughExplanation else directExplanation }

/-- The inputs of a row that is a target of its own, with its scope. -/
def targetInputs (rows : List FundsRow) (skipRow : FundsRow → Bool) (row : FundsRow) :
    Option (String × String × List OwnedInput) :=
  if row.direction ≠ .outbound then none
  else match row.scope with
    | none => none
    | some (chain, network, txid) =>
      if (chain, network, txid) ∈ blockedScopes rows skipRow ∨ row.authoritative = false ∨
          (candidates rows { walletId := row.walletId, chain, network, txid } .outbound).length ≠ 1 then none
      else (ownedInputs ownedIndex row chain network).map fun inputs => (chain, network, inputs)

/-- One spend of the pass; its budget is its own and the memo is shared. -/
def deriveRow (rows : List FundsRow) (skipRow : FundsRow → Bool) (memo : LineageMemo) (row : FundsRow) :
    List ParentSpendPair × LineageMemo :=
  match targetInputs ownedIndex rows skipRow row with
  | none => ([], memo)
  | some (chain, network, inputs) =>
    match gatherParents ownedIndex rows skipRow row.walletId chain network (contributions inputs) memo
        maxAncestorResolutionsPerTarget [] with
    | (none, memo) => ([], memo)
    | (some byParent, memo) => (pairsOf row (inputs.map (·.prevTxid)) byParent, memo)

def derivePass (rows : List FundsRow) (skipRow : FundsRow → Bool) : List FundsRow → LineageMemo → List ParentSpendPair
  | [], _ => []
  | row :: rest, memo =>
    let derived := deriveRow ownedIndex rows skipRow memo row
    derived.1 ++ derivePass rows skipRow rest derived.2

/-- Funding edges from every spend's own observed inputs to their parent rows. -/
def deriveParentSpendPairs (rows : List FundsRow) (skipRow : FundsRow → Bool) : List ParentSpendPair :=
  derivePass ownedIndex rows skipRow rows fun _ => none

end

end Kassiber.Funds

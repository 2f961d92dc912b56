import Kassiber.Lib.Dict
import Kassiber.Lib.Sorting

/-!
Order and fee allocation of transfer components with several legs.
-/

namespace Kassiber.Transfers
open Lib.Dict Lib.Sorting
open Prod (fst snd)

/-- A row's recorded prices, and whether its coarse price still waits for review. -/
structure Pricing where
  rate : Option Rat := none
  value : Option Rat := none
  needsReview : Bool := false
  deriving DecidableEq

/-- The chain, network, transaction id and asset of a row's transaction. -/
structure Scope where
  chain : String
  network : String
  txid : String
  asset : String
  deriving DecidableEq

/-- An imported row, with its transaction scope and privacy evidence as they are read from its graph. -/
structure Row where
  id : String
  journalTransactionId : Option String := none
  walletId : Option String := none
  direction : Option String := none
  occurredAt : String := ""
  amount : Option Int := none
  fee : Option Int := none
  amountIncludesFee : Bool := false
  scope : Option Scope := none
  privacyHop : Bool := false
  rawJson : Option String := none
  pricing : Pricing := {}
  deriving DecidableEq

def msat (value : Option Int) : Int := value.getD 0

structure Pair where
  outRow : Row
  inRow : Row
  pairId : Option String := none
  recordId : Option String := none
  groupId : Option String := none
  kind : Option String := none
  source : Option String := none
  pairSource : Option String := none
  deriving DecidableEq

def Pair.edge (pair : Pair) : String × String := (pair.outRow.id, pair.inRow.id)

def present (value : Option String) : Option String := value.filter (· ≠ "")

def pairRecordId (pair : Pair) : Option String := (present pair.pairId).orElse fun _ => present pair.recordId

def pairGroupId (pair : Pair) : Option String := present pair.groupId

/-- Only reviewed pairs that are no leg of a derived group merge into components. -/
def isComponentMember (pair : Pair) : Bool := (pairRecordId pair).isSome && (pairGroupId pair).isNone

def orderedPairComponent (component : List Pair) : List Pair :=
  sortedBy (fun pair =>
    toLex (pair.outRow.occurredAt, toLex (pair.inRow.occurredAt, toLex (pair.outRow.id, pair.inRow.id)))) component

/-- The first pair of every directed edge, in the order of first occurrence. -/
def firstPairByEdge (orderedPairs : List Pair) : List ((String × String) × Pair) :=
  orderedPairs.foldl (fun result pair =>
    if (result.map fst).contains pair.edge then result else result ++ [(pair.edge, pair)]) []

def subSatMsat : Int := 1000

structure Evidence where
  sent : Int
  explicitFee : Int
  hasImplicitFee : Bool

def outboundTransferEvidenceMsat (row : Row) : Evidence :=
  if row.amountIncludesFee then
    { sent := msat row.amount, explicitFee := 0, hasImplicitFee := true }
  else
    { sent := msat row.amount + msat row.fee, explicitFee := max 0 (msat row.fee), hasImplicitFee := false }

def clampedReceiptMsat (sent received : Int) : Int :=
  if 0 < received - sent ∧ received - sent < subSatMsat then sent else received

def trimExcess : Int → List Int → List Int
  | _, [] => []
  | excess, amount :: rest =>
    if excess ≤ 0 then amount :: rest
    else
      let reduction := min amount excess
      (amount - reduction) :: trimExcess (excess - reduction) rest

def clampedComponentReceiptsMsat (sent : Int) (received : List Int) : List Int :=
  let adjusted := received.map (max 0 ·)
  let excess := adjusted.sum - clampedReceiptMsat sent adjusted.sum
  if excess ≤ 0 then adjusted else (trimExcess excess adjusted.reverse).reverse

/-- Every leg absorbs up to its base. The second component is what no leg absorbed. -/
def absorbFee : Int → List Int → List Int × Int
  | remaining, [] => ([], remaining)
  | remaining, base :: rest =>
    let portion := if remaining ≤ 0 then 0 else min (max 0 base) remaining
    let (allocated, left) := absorbFee (remaining - portion) rest
    (portion :: allocated, left)

def addToLast (extra : Int) : List Int → List Int
  | [] => []
  | [x] => [x + extra]
  | x :: y :: rest => x :: addToLast extra (y :: rest)

def allocateFeeMsat (totalFee : Int) (bases : List Int) : List Int :=
  let (allocated, left) := absorbFee (max 0 totalFee) bases
  if left ≠ 0 then addToLast left allocated else allocated

inductive Node where
  | source
  | sink
  | out (id : String)
  | into (id : String)
  deriving DecidableEq

structure Network where
  adjacency : Node → List Node := fun _ => []
  capacity : Node → Node → Int := fun _ _ => 0
  residual : Node → Node → Int := fun _ _ => 0

def bump (table : Node → Node → Int) (left right : Node) (change : Int) : Node → Node → Int :=
  fun x y => if x = left ∧ y = right then table x y + change else table x y

def link (adjacency : Node → List Node) (left right : Node) : Node → List Node :=
  fun x => if x = left ∧ right ∉ adjacency x then adjacency x ++ [right] else adjacency x

def Network.addEdge (net : Network) (left right : Node) (limit : Int) : Network :=
  { adjacency := link (link net.adjacency left right) right left
    capacity := bump net.capacity left right (max 0 limit)
    residual := bump net.residual left right (max 0 limit) }

abbrev Parents := List (Node × Option Node)

def Parents.seen (parents : Parents) (node : Node) : Bool := (parents.map fst).contains node

def scanNeighbors (net : Network) (node : Node) : List Node → Parents → List Node → Parents × List Node
  | [], parents, queue => (parents, queue)
  | neighbor :: rest, parents, queue =>
    if parents.seen neighbor || net.residual node neighbor ≤ 0 then scanNeighbors net node rest parents queue
    else if neighbor = .sink then (parents ++ [(neighbor, some node)], queue ++ [neighbor])
    else scanNeighbors net node rest (parents ++ [(neighbor, some node)]) (queue ++ [neighbor])

/-- Breadth-first search. A node enters the queue once, so the number of nodes bounds the rounds. -/
def search (net : Network) : Nat → Parents → List Node → Parents
  | 0, parents, _ => parents
  | _ + 1, parents, [] => parents
  | rounds + 1, parents, node :: queue =>
    if parents.seen .sink then parents
    else
      let (parents, queue) := scanNeighbors net node (net.adjacency node) parents queue
      search net rounds parents queue

def pathTo (parents : Parents) : Nat → Node → List (Node × Node)
  | 0, _ => []
  | steps + 1, node =>
    match (lookup parents node).join with
    | none => []
    | some previous => (previous, node) :: pathTo parents steps previous

def push (increment : Int) (residual : Node → Node → Int) (edge : Node × Node) : Node → Node → Int :=
  bump (bump residual edge.1 edge.2 (-increment)) edge.2 edge.1 increment

/-- Every round adds at least one unit of flow, so the total supply bounds the rounds. -/
def augment (nodes : Nat) (totalSupply : Int) : Nat → Network → Int → Network × Int
  | 0, net, flow => (net, flow)
  | rounds + 1, net, flow =>
    if totalSupply ≤ flow then (net, flow)
    else
      let parents := search net nodes [(.source, none)] [.source]
      if parents.seen .sink then
        let path := pathTo parents nodes .sink
        let increment := path.foldl (fun least edge => min least (net.residual edge.1 edge.2)) (totalSupply - flow)
        augment nodes totalSupply rounds { net with residual := path.foldl (push increment) net.residual }
          (flow + increment)
      else (net, flow)

def reviewedEdges (supplies demands : List (String × Int)) (edges : List (String × String)) :
    List (String × String) :=
  edges.eraseDups.filter fun edge =>
    (supplies.map fst).contains edge.1 && (demands.map fst).contains edge.2

def network (supplies demands : List (String × Int)) (edges : List (String × String)) (totalSupply : Int) :
    Network :=
  let net := supplies.foldl (fun net entry => net.addEdge .source (.out entry.1) entry.2) {}
  let net := demands.foldl (fun net entry => net.addEdge (.into entry.1) .sink entry.2) net
  edges.foldl (fun net edge => net.addEdge (.out edge.1) (.into edge.2) totalSupply) net

def allocateBipartiteFlowMsat (supplies demands : List (String × Int)) (edges : List (String × String)) :
    Option (List (String × String × Int)) :=
  let totalSupply := (supplies.map snd).sum
  if (supplies.any fun entry => entry.2 < 0) || (demands.any fun entry => entry.2 < 0) then none
  else if totalSupply ≠ (demands.map snd).sum then none
  else if totalSupply = 0 then some []
  else
    let reviewed := reviewedEdges supplies demands edges
    let (net, flow) := augment (supplies.length + demands.length + 2) totalSupply totalSupply.toNat
      (network supplies demands reviewed totalSupply) 0
    if flow ≠ totalSupply then none
    else
      some (reviewed.filterMap fun (outId, inId) =>
        let amount := net.capacity (.out outId) (.into inId) - net.residual (.out outId) (.into inId)
        if 0 < amount then some (outId, inId, amount) else none)

/-- The first name that is no destination. At most as many names are taken as there are destinations. -/
def freshSink (destinations : List String) : Nat → String → String
  | 0, name => name
  | tries + 1, name => if destinations.contains name then freshSink destinations tries (name ++ "_") else name

structure Allocation where
  principal : List (String × String × Int)
  feeBySource : List (String × Int)

def allocateTransferComponentFlowMsat (sent explicitFees destinations : List (String × Int))
    (edges : List (String × String)) (implicitIds : List String) : Option Allocation :=
  let explicit := sent.map fun entry => (entry.1, (lookup explicitFees entry.1).getD 0)
  let aggregateFee := (sent.map snd).sum - (destinations.map snd).sum
  let unexplainedFee := aggregateFee - (explicit.map snd).sum
  if (sent.any fun entry => entry.2 < 0) || (destinations.any fun entry => entry.2 < 0) then none
  else if explicit.any fun entry => entry.2 < 0 || (lookup sent entry.1).getD 0 < entry.2 then none
  else if explicitFees.any fun entry => !(sent.map fst).contains entry.1 then none
  else if aggregateFee < 0 ∨ unexplainedFee < 0 then none
  else
    let sourceOrder := ((sent.map fst).filter implicitIds.contains) ++
      ((sent.map fst).filter fun id => !implicitIds.contains id)
    let supply := sourceOrder.map fun id => (id, (lookup sent id).getD 0 - (lookup explicit id).getD 0)
    let feeSink := freshSink (destinations.map fst) (destinations.length + 1) "__kassiber_unexplained_transfer_fee__"
    (allocateBipartiteFlowMsat supply ((feeSink, unexplainedFee) :: destinations)
        (sourceOrder.map (·, feeSink) ++ edges)).map fun allocated =>
      { principal := allocated.filter fun flow => flow.2.1 ≠ feeSink
        feeBySource := explicit.map fun entry =>
          (entry.1, entry.2 + ((allocated.filter fun flow => flow.1 = entry.1 ∧ flow.2.1 = feeSink).map
            fun flow => flow.2.2).sum) }

section
variable (orderedPairs : List Pair)

def outRowsById : List (String × Row) := items (orderedPairs.map fun pair => (pair.outRow.id, pair.outRow))

def inRowsById : List (String × Row) := items (orderedPairs.map fun pair => (pair.inRow.id, pair.inRow))

def sourceEvidenceByOutId : List (String × Evidence) :=
  (outRowsById orderedPairs).map fun entry => (entry.1, outboundTransferEvidenceMsat entry.2)

def totalSentMsat : Int := ((sourceEvidenceByOutId orderedPairs).map fun entry => entry.2.sent).sum

def adjustedReceivedByInId : List (String × Int) :=
  ((inRowsById orderedPairs).map fst).zip
    (clampedComponentReceiptsMsat (totalSentMsat orderedPairs)
      ((inRowsById orderedPairs).map fun entry => msat entry.2.amount))

def totalReceivedMsat : Int := ((adjustedReceivedByInId orderedPairs).map snd).sum

def adjustedReceipt (pair : Pair) : Int := (lookup (adjustedReceivedByInId orderedPairs) pair.inRow.id).getD 0

def sourceSentMsat : List (String × Int) :=
  (sourceEvidenceByOutId orderedPairs).map fun entry => (entry.1, entry.2.sent)

def sourceExplicitFeeMsat : List (String × Int) :=
  (sourceEvidenceByOutId orderedPairs).map fun entry => (entry.1, entry.2.explicitFee)

def implicitFeeSourceIds : List String :=
  ((sourceEvidenceByOutId orderedPairs).filter fun entry => entry.2.hasImplicitFee).map fst

end

def Allocation.principalOf (allocation : Allocation) (outId : String) : Int :=
  ((allocation.principal.filter fun flow => flow.1 = outId).map fun flow => flow.2.2).sum

def indexesOf (legs : List (String × String)) (rowId : String) : List Nat :=
  legs.zipIdx.flatMap fun (ids, index) =>
    (if ids.1 = rowId then [index] else []) ++ (if ids.2 = rowId then [index] else [])

/-- Depth-first walk. An index is stacked once, so the number of items bounds the rounds. -/
def collect (legs : List (String × String)) : Nat → List Nat → List Nat → List Nat → List Nat × List Nat
  | 0, _, seen, indexes => (indexes, seen)
  | _ + 1, [], seen, indexes => (indexes, seen)
  | rounds + 1, index :: stack, seen, indexes =>
    let ids := legs.getD index ("", "")
    let (stack, seen) := (indexesOf legs ids.1 ++ indexesOf legs ids.2).foldl
      (fun (stack, seen) linked => if seen.contains linked then (stack, seen) else (linked :: stack, linked :: seen))
      (stack, seen)
    collect legs rounds stack seen (indexes ++ [index])

def componentIndexes (legs : List (String × String)) : List (List Nat) :=
  ((List.range legs.length).foldl (fun (components, seen) start =>
    if seen.contains start then (components, seen)
    else
      let (indexes, seen) := collect legs (legs.length + 1) [start] (start :: seen) []
      (components ++ [sortedBy id indexes], seen)) ([], [])).1

/-- Members in connected components over their legs, then every other item alone. -/
def connectedPairComponents (items : List Pair) : List (List Pair) :=
  let members := items.filter isComponentMember
  let singletons := items.filter fun item => !isComponentMember item
  (componentIndexes (members.map Pair.edge)).map (fun indexes => indexes.filterMap fun index => members[index]?) ++
    singletons.map fun item => [item]

end Kassiber.Transfers

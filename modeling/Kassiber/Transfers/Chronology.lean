import Kassiber.Lib.Dict
import Kassiber.Lib.Outcome
import Kassiber.Lib.Sorting
import Kassiber.Lib.TopologicalOrder

/-!
The order of transfers of one moment. Chain parents come before their children, and a hint from wallets is followed
unless it contradicts what is already ordered.
-/

namespace Kassiber.Transfers
open Lib.Dict Lib.Outcome Lib.Sorting Lib.TopologicalOrder
open List hiding lookup
open Prod (snd)

/-- The scope of an observed transaction, and the scopes of the transactions that it spends from. -/
local instance scopeKey : LawfulBEq (String × String × String × String) := inferInstance

structure ChainOrderEvidence where
  scope : String × String × String × String
  parents : List (String × String × String × String)

structure TimedTransfer where
  custodyChainOrder : Option ChainOrderEvidence
  fromWalletId : String
  toWalletId : String

abbrev TransferItem := Int × String × String

def itemIds (transferItems : List TransferItem) : List String := transferItems.map fun item => item.2.2

def idPairs (ids : List String) : List (String × String) := ids.flatMap fun source => ids.map fun target => (source, target)

section
variable (transfersById : String → TimedTransfer)

def spendsFrom (source target : String) : Bool :=
  match (transfersById source).custodyChainOrder, (transfersById target).custodyChainOrder with
  | some parent, some child => parent.scope ∈ child.parents
  | _, _ => false

def sameTransaction (source target : String) : Bool :=
  match (transfersById source).custodyChainOrder, (transfersById target).custodyChainOrder with
  | some left, some right => left.scope = right.scope
  | _, _ => false

def chainGraph (ids : List String) : String → List String :=
  (idPairs ids).foldl (fun graph pair =>
    if pair.1 ≠ pair.2 ∧ spendsFrom transfersById pair.1 pair.2 then addEdge graph pair.1 pair.2 else graph) fun _ => []

def hardDescendants (ids : List String) (outgoing : String → List String) (ident : String) : List String :=
  (walk (fun _ => false) outgoing ((outgoing ident).length + walkRounds ids outgoing) (outgoing ident) []).getD []

def reaches (ids : List String) (outgoing : String → List String) (start stop : String) : Bool :=
  (walk (fun current => current = stop) outgoing (walkRounds ids outgoing) [start] []).isNone

def addHint (ids : List String) (hasChainDependencies : Bool) (hard outgoing : String → List String)
    (pair : String × String) : String → List String :=
  if sameTransaction transfersById pair.1 pair.2 then outgoing
  else if pair.1 = pair.2 ∨ (transfersById pair.1).toWalletId ≠ (transfersById pair.2).fromWalletId then outgoing
  else if hasChainDependencies ∧ (pair.2 ∈ hard pair.1 ∨ pair.1 ∈ hard pair.2 ∨ reaches ids outgoing pair.2 pair.1) then
    outgoing
  else addEdge outgoing pair.1 pair.2

def dependencyGraph (ids : List String) : String → List String :=
  let chain := chainGraph transfersById ids
  let hasChainDependencies := ids.any fun ident => chain ident ≠ []
  (idPairs ids).foldl (addHint transfersById ids hasChainDependencies (hardDescendants ids chain)) chain

def originalOrder (transferItems : List TransferItem) (ident : String) : Int :=
  (lookup (transferItems.map fun item => (item.2.2, item.1)) ident).getD 0

def sortedItems (transferItems : List TransferItem) : List (String × String) :=
  (sortedBy (fun item => toLex (item.1, toLex item.2)) transferItems).map snd

def orderSameTimeTransfers (transferItems : List TransferItem) : List (String × String) :=
  let ids := itemIds transferItems
  let outgoing := dependencyGraph transfersById ids
  let incoming := countIncoming ids outgoing
  let arrange := sortedBy (originalOrder transferItems)
  let ordered := takeReady arrange outgoing ids.length incoming (arrange (ids.filter fun ident => incoming ident = 0)) []
  if ordered.length ≠ ids.length then sortedItems transferItems else ordered.map fun ident => ("transfer", ident)

def ChainParent (ids : List String) (source target : String) : Prop :=
  (source ∈ ids ∧ target ∈ ids) ∧ source ≠ target ∧ spendsFrom transfersById source target = true

/-- The source pays the wallet that the target spends from, in another transaction. -/
def WalletHint (ids : List String) (source target : String) : Prop :=
  (source ∈ ids ∧ target ∈ ids) ∧ source ≠ target ∧
    (transfersById source).toWalletId = (transfersById target).fromWalletId ∧
    sameTransaction transfersById source target = false

variable {transfersById} {ids : List String}

variable {pair : String × String}

theorem mem_idPairs : pair ∈ idPairs ids ↔ pair.1 ∈ ids ∧ pair.2 ∈ ids := by
  unfold idPairs
  rw [mem_flatMap]
  constructor
  · rintro ⟨source, left, member⟩
    obtain ⟨target, right, rfl⟩ := mem_map.1 member
    exact ⟨left, right⟩
  · rintro ⟨left, right⟩
    exact ⟨pair.1, left, mem_map.2 ⟨pair.2, right, rfl⟩⟩

theorem chainGraph_spec : Within ids (chainGraph transfersById ids) ∧
    ∀ source target, Edge (chainGraph transfersById ids) source target ↔ ChainParent transfersById ids source target := by
  have run : Within ids (chainGraph transfersById ids) ∧ ∀ source target, Edge (chainGraph transfersById ids) source target ↔
      (source, target) ∈ idPairs ids ∧ source ≠ target ∧ spendsFrom transfersById source target = true := by
    unfold chainGraph
    refine foldl_prefix (fun before (graph : String → List String) => Within ids graph ∧ ∀ source target,
      Edge graph source target ↔ (source, target) ∈ before ∧ source ≠ target ∧ spendsFrom transfersById source target = true)
      ⟨⟨fun x y edge => (nomatch edge), fun _ => nodup_nil⟩,
        fun source target => ⟨fun edge => (nomatch edge), fun held => (nomatch held.1)⟩⟩
      fun before pair after graph whole held => ?_
    have member : pair ∈ idPairs ids := by rw [whole]; exact mem_append_right _ mem_cons_self
    obtain ⟨left, right⟩ := mem_idPairs.1 member
    obtain ⟨within, edges⟩ := held
    split
    · rename_i proven
      refine ⟨within.addEdge left right, fun source target => ?_⟩
      rw [edge_addEdge, edges, mem_append, mem_singleton]
      constructor
      · rintro (⟨listed, held⟩ | ⟨rfl, rfl⟩)
        · exact ⟨.inl listed, held⟩
        · exact ⟨.inr rfl, proven⟩
      · rintro ⟨listed | rfl, held⟩
        · exact .inl ⟨listed, held⟩
        · exact .inr ⟨rfl, rfl⟩
    · rename_i unproven
      refine ⟨within, fun source target => (edges source target).trans ?_⟩
      rw [mem_append, mem_singleton]
      refine ⟨fun ⟨listed, held⟩ => ⟨.inl listed, held⟩, fun ⟨listed, held⟩ => ⟨listed.resolve_right ?_, held⟩⟩
      rintro rfl
      exact unproven held
  refine ⟨run.1, fun source target => (run.2 source target).trans ?_⟩
  rw [mem_idPairs]
  rfl

theorem reaches_iff (distinct : ids.Nodup) {outgoing : String → List String} (within : Within ids outgoing)
    {start stop : String}
    (member : start ∈ ids) : reaches ids outgoing start stop = true ↔ Relation.ReflTransGen (Edge outgoing) start stop := by
  unfold reaches
  rw [Option.isNone_iff_eq_none, walk_stops within distinct member]
  constructor
  · rintro ⟨y, path, same⟩
    exact of_decide_eq_true same ▸ path
  · intro path
    exact ⟨stop, path, decide_eq_true rfl⟩

theorem hasChain_iff : (ids.any fun ident => chainGraph transfersById ids ident ≠ []) = true ↔
    ∃ source target, ChainParent transfersById ids source target := by
  have edges := (@chainGraph_spec transfersById ids).2
  rw [any_eq_true]
  constructor
  · rintro ⟨source, -, some_target⟩
    obtain ⟨target, listed⟩ := exists_mem_of_ne_nil _ (of_decide_eq_true some_target)
    exact ⟨source, target, (edges source target).1 listed⟩
  · rintro ⟨source, target, parent⟩
    exact ⟨source, parent.1.1, decide_eq_true (ne_nil_of_mem ((edges source target).2 parent))⟩

/-- After some pairs the graph holds every chain parent, and on top of an acyclic chain it is acyclic. Without chain
parents it holds the hints among these pairs. -/
structure Hinted (transfersById : String → TimedTransfer) (ids : List String) (before : List (String × String))
    (graph : String → List String) : Prop where
  within : Within ids graph
  parents : ∀ source target, ChainParent transfersById ids source target → Edge graph source target
  acyclic : (∃ source target, ChainParent transfersById ids source target) → Acyclic (chainGraph transfersById ids) →
    Acyclic graph
  hints : (∀ source target, ¬ ChainParent transfersById ids source target) → ∀ source target,
    Edge graph source target ↔ (source, target) ∈ before ∧ WalletHint transfersById ids source target

theorem Hinted.start : Hinted transfersById ids [] (chainGraph transfersById ids) := by
  obtain ⟨within, edges⟩ := @chainGraph_spec transfersById ids
  refine ⟨within, fun source target => (edges source target).2, fun _ acyclic => acyclic, fun unproven source target => ?_⟩
  exact ⟨fun edge => absurd ((edges source target).1 edge) (unproven source target), fun held => (nomatch held.1)⟩

theorem Hinted.skip {before : List (String × String)} {graph : String → List String}
    (state : Hinted transfersById ids before graph)
    (unhinted : (∀ source target, ¬ ChainParent transfersById ids source target) →
      ¬ WalletHint transfersById ids pair.1 pair.2) :
    Hinted transfersById ids (before ++ [pair]) graph := by
  refine ⟨state.within, state.parents, state.acyclic, fun unproven source target => (state.hints unproven source target).trans ?_⟩
  rw [mem_append, mem_singleton]
  refine ⟨fun ⟨listed, hint⟩ => ⟨.inl listed, hint⟩, fun ⟨listed, hint⟩ => ⟨listed.resolve_right ?_, hint⟩⟩
  rintro rfl
  exact unhinted unproven hint

theorem Hinted.step (distinct : ids.Nodup) {before : List (String × String)} {graph : String → List String}
    (state : Hinted transfersById ids before graph) (member : pair ∈ idPairs ids)
    (hard : String → List String) :
    Hinted transfersById ids (before ++ [pair]) (addHint transfersById ids
      (ids.any fun ident => chainGraph transfersById ids ident ≠ []) hard graph pair) := by
  obtain ⟨left, right⟩ := mem_idPairs.1 member
  unfold addHint
  by_cases same : sameTransaction transfersById pair.1 pair.2 = true
  · rw [if_pos same]
    refine state.skip fun _ hint => ?_
    rw [hint.2.2.2] at same
    cases same
  rw [if_neg same]
  by_cases unrelated : pair.1 = pair.2 ∨ (transfersById pair.1).toWalletId ≠ (transfersById pair.2).fromWalletId
  · rw [if_pos unrelated]
    exact state.skip fun _ hint => unrelated.elim hint.2.1 fun apart => apart hint.2.2.1
  rw [if_neg unrelated]
  obtain ⟨different, pays⟩ := not_or.1 unrelated
  split
  · rename_i contradicts
    refine state.skip fun unproven => ?_
    obtain ⟨source, target, parent⟩ := hasChain_iff.1 contradicts.1
    exact absurd parent (unproven source target)
  · rename_i free
    refine ⟨state.within.addEdge left right, fun source target parent => edge_addEdge.2 (.inl (state.parents _ _ parent)),
      fun proven acyclic => ?_, fun unproven source target => ?_⟩
    · refine (state.acyclic proven acyclic).addEdge fun path => free ⟨hasChain_iff.2 proven, .inr (.inr ?_)⟩
      exact (reaches_iff distinct state.within right).2 path
    · rw [edge_addEdge, state.hints unproven, mem_append, mem_singleton]
      have hint : WalletHint transfersById ids pair.1 pair.2 :=
        ⟨⟨left, right⟩, different, not_not.1 pays, Bool.eq_false_iff.2 same⟩
      constructor
      · rintro (⟨listed, held⟩ | ⟨rfl, rfl⟩)
        · exact ⟨.inl listed, held⟩
        · exact ⟨.inr rfl, hint⟩
      · rintro ⟨listed | rfl, held⟩
        · exact .inl ⟨listed, held⟩
        · exact .inr ⟨rfl, rfl⟩

theorem dependencyGraph_hinted (distinct : ids.Nodup) :
    Hinted transfersById ids (idPairs ids) (dependencyGraph transfersById ids) := by
  unfold dependencyGraph
  refine foldl_prefix (fun before graph => Hinted transfersById ids before graph) Hinted.start
    fun before pair after graph whole held => held.step distinct ?_ _
  rw [whole]
  exact mem_append_right _ (.head _)

end

section
variable (transferItems : List TransferItem) (transfersById : String → TimedTransfer)

def takenOrder : List String :=
  let ids := itemIds transferItems
  let outgoing := dependencyGraph transfersById ids
  let incoming := countIncoming ids outgoing
  let arrange := sortedBy (originalOrder transferItems)
  takeReady arrange outgoing ids.length incoming (arrange (ids.filter fun ident => incoming ident = 0)) []

variable {transferItems} {transfersById}

theorem takenOrder_spec (distinct : (itemIds transferItems).Nodup) :
    (∀ x ∈ takenOrder transferItems transfersById, ∀ y ∈ takenOrder transferItems transfersById,
      Edge (dependencyGraph transfersById (itemIds transferItems)) x y →
        (takenOrder transferItems transfersById).idxOf x < (takenOrder transferItems transfersById).idxOf y) ∧
    ((takenOrder transferItems transfersById).length = (itemIds transferItems).length →
      (takenOrder transferItems transfersById).Perm (itemIds transferItems)) ∧
    ((takenOrder transferItems transfersById).length = (itemIds transferItems).length ↔
      Acyclic (dependencyGraph transfersById (itemIds transferItems))) :=
  takeReady_spec (dependencyGraph_hinted distinct).within distinct (sortedBy_perm _) rfl

theorem order_of_complete (complete : (takenOrder transferItems transfersById).length = (itemIds transferItems).length) :
    orderSameTimeTransfers transfersById transferItems =
      (takenOrder transferItems transfersById).map fun ident => ("transfer", ident) :=
  if_neg (not_not.2 complete)

theorem order_of_incomplete (incomplete : (takenOrder transferItems transfersById).length ≠ (itemIds transferItems).length) :
    orderSameTimeTransfers transfersById transferItems = sortedItems transferItems :=
  if_pos incomplete

theorem acyclic_chain (acyclic : ∀ x, ¬ Relation.TransGen (ChainParent transfersById (itemIds transferItems)) x x) :
    Acyclic (chainGraph transfersById (itemIds transferItems)) := by
  intro x cycle
  exact acyclic x (Relation.TransGen.mono (fun source target edge => (chainGraph_spec.2 source target).1 edge) _ _ cycle)

/-- The order of same-time transfers rearranges them, follows acyclic chain parents whatever the hints, and is the
original order when hints alone close a cycle. -/
theorem order_same_time_transfers_faithful (distinct : (itemIds transferItems).Nodup)
    (transfers : ∀ item ∈ transferItems, item.2.1 = "transfer") :
    let ids := itemIds transferItems
    let ordered := orderSameTimeTransfers transfersById transferItems
    ordered.Perm (transferItems.map snd) ∧
    ((∀ x, ¬ Relation.TransGen (ChainParent transfersById ids) x x) → ∀ source target,
      ChainParent transfersById ids source target →
        (ordered.map snd).idxOf source < (ordered.map snd).idxOf target) ∧
    ((∀ source target, ¬ ChainParent transfersById ids source target) →
      (∃ x, Relation.TransGen (WalletHint transfersById ids) x x) →
        ordered = sortedItems transferItems ∧
          (transferItems.Pairwise (fun x y => x.1 < y.1) → ordered = transferItems.map snd)) := by
  intro ids ordered
  obtain ⟨forward, perm, complete⟩ := @takenOrder_spec _ transfersById distinct
  have hinted := @dependencyGraph_hinted transfersById _ distinct
  refine ⟨?_, fun acyclic source target parent => ?_, fun unproven ⟨x, cycle⟩ => ?_⟩
  · by_cases length : (takenOrder transferItems transfersById).length = (itemIds transferItems).length
    · have items : transferItems.map snd = (itemIds transferItems).map fun ident => ("transfer", ident) := by
        rw [itemIds, map_map]
        exact map_congr_left fun item member => Prod.ext (transfers item member) rfl
      rw [items, show ordered = _ from order_of_complete length]
      exact (perm length).map _
    · rw [show ordered = _ from order_of_incomplete length]
      exact (sortedBy_perm _ _).map _
  · have length := complete.2 (hinted.acyclic ⟨source, target, parent⟩ (acyclic_chain acyclic))
    have read : ordered.map snd = takenOrder transferItems transfersById := by
      rw [show ordered = _ from order_of_complete length, map_map]
      exact map_id _
    rw [read]
    exact forward source ((perm length).mem_iff.2 parent.1.1) target ((perm length).mem_iff.2 parent.1.2)
      (hinted.parents source target parent)
  · have incomplete : (takenOrder transferItems transfersById).length ≠ (itemIds transferItems).length := fun length =>
      complete.1 length x (Relation.TransGen.mono
        (fun source target hint => (hinted.hints unproven source target).2 ⟨mem_idPairs.2 hint.1, hint⟩) _ _ cycle)
    have fallback : ordered = sortedItems transferItems := order_of_incomplete incomplete
    refine ⟨fallback, fun ascending => ?_⟩
    have keyed : transferItems.Pairwise fun x y => toLex (x.1, toLex x.2) ≤ toLex (y.1, toLex y.2) := by
      refine ascending.imp fun {x y} less => ?_
      exact Prod.Lex.le_iff.2 (.inl less)
    rw [fallback, sortedItems, sortedBy_of_pairwise keyed]

/-- A chain parent whose child pays its wallet, listed before it. -/
theorem order_same_time_transfers_faithful_parent :
    let child : TimedTransfer := { custodyChainOrder := some ⟨("bitcoin", "main", "t2", "BTC"), [("bitcoin", "main", "t1", "BTC")]⟩
                                   fromWalletId := "a", toWalletId := "b" }
    let parent : TimedTransfer := { custodyChainOrder := some ⟨("bitcoin", "main", "t1", "BTC"), []⟩
                                    fromWalletId := "b", toWalletId := "c" }
    let transfersById := fun ident => if ident = "child" then child else parent
    let transferItems : List TransferItem := [(0, "transfer", "child"), (1, "transfer", "parent")]
    (orderSameTimeTransfers transfersById transferItems).Perm [("transfer", "child"), ("transfer", "parent")] ∧
      orderSameTimeTransfers transfersById transferItems = [("transfer", "parent"), ("transfer", "child")] := by
  intro child parent transfersById transferItems
  have distinct : (itemIds transferItems).Nodup := by decide
  have transfers : ∀ item ∈ transferItems, item.2.1 = "transfer" := by decide
  exact ⟨(@order_same_time_transfers_faithful transferItems transfersById distinct transfers).1, by decide +kernel⟩

end

end Kassiber.Transfers

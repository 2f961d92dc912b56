import Kassiber.Lib.Sums
import Kassiber.Sync.CanonicalOwner

/-!
Receipts that several wallets report. One Bitcoin transaction can pay a script that two wallets watch, so each of them
imports the same output. An event that shows such an overlap is held as a whole, unless its graph is completely proved;
then each output counts for one wallet only.
-/

namespace Kassiber.Sync.ReceiptQuantities
open Lib.Dict Lib.Sorting Lib.Sums
open List hiding lookup lookup_append

structure OnchainScope where
  chain : String
  network : String
  txid : String
  asset : String
  deriving DecidableEq

structure TxInput where
  outpoint : Option String := none
  script : Option String := none
  valueSats : Option Int := none
  assetId : Option String := none
  asset : Option String := none
  deriving DecidableEq

structure TxOutput where
  n : Int
  script : Option String := none
  valueSats : Option Int := none
  assetId : Option String := none
  asset : Option String := none
  role : Option String := none
  deriving DecidableEq

structure OwnershipGraph where
  inputs : List TxInput := []
  outputs : List TxOutput := []
  evidenceConflicts : List String := []
  deriving DecidableEq

/-- An imported row with the scope, the graph and the authority that its stored data give it. -/
structure ReceiptRow where
  id : String
  walletId : String
  walletKind : String
  direction : String
  amount : Int
  fee : Int := 0
  scope : Option OnchainScope
  parsed : Option OwnershipGraph
  authoritative : Bool

structure OutputAssignment where
  vout : Int
  walletId : String
  amountMsat : Int
  deriving DecidableEq

structure Receipt where
  amountMsat : Int
  outputs : List OutputAssignment
  deriving DecidableEq

abbrev Reconciliation := List (String × Option Receipt)

def TxOutput.amountMsat (output : TxOutput) : Int := output.valueSats.getD 0 * 1000

def walletIds (group : List ReceiptRow) : List String := group.map ReceiptRow.walletId

def inbound (group : List ReceiptRow) : List ReceiptRow := group.filter fun row => row.direction = "inbound"

def Candidate (scope : OnchainScope) (group : List ReceiptRow) : Prop :=
  scope.chain = "bitcoin" ∧ scope.asset = "BTC" ∧ 1 < (walletIds (inbound group)).dedup.length

instance (scope : OnchainScope) (group : List ReceiptRow) : Decidable (Candidate scope group) :=
  inferInstanceAs (Decidable (_ ∧ _))

def groups (rows : List ReceiptRow) : List (OnchainScope × List ReceiptRow) :=
  (groupBy ReceiptRow.scope rows).filterMap fun entry => entry.1.map fun scope => (scope, entry.2)

def candidates (rows : List ReceiptRow) : List (OnchainScope × List ReceiptRow) :=
  (groups rows).filter fun event => Candidate event.1 event.2

section
variable (index : ProfileSourceIndex) (ownedIndex : Option (String × String → TxInput → List String))

def byScript (scope : OnchainScope) (script : Option String) : List SourceScript :=
  index.sources.filter fun source =>
    source.chain = scope.chain ∧ source.network = scope.network ∧ some source.scriptPubkey = script

def reportingSources (scope : OnchainScope) (reporting : List String) (script : Option String) : List SourceScript :=
  (byScript index scope script).filter fun source => source.walletId ∈ reporting

def owners (scope : OnchainScope) (reporting : List String) (outputs : List TxOutput) :
    List (Int × List SourceScript) :=
  outputs.map fun output => (output.n, reportingSources index scope reporting output.script)

def ownersAt (scope : OnchainScope) (reporting : List String) (outputs : List TxOutput) (n : Int) : List SourceScript :=
  (lookup (owners index scope reporting outputs) n).getD []

def wallets (sources : List SourceScript) : List String := (sources.map SourceScript.walletId).dedup

def Overlap (scope : OnchainScope) (reporting : List String) (outputs : List TxOutput) : Prop :=
  ∃ entry ∈ items (owners index scope reporting outputs), 1 < (wallets entry.2).length

def Valued (outputs : List TxOutput) : Prop := outputs ≠ [] ∧ ∀ output ∈ outputs, output.valueSats ≠ none

instance (outputs : List TxOutput) : Decidable (Valued outputs) := inferInstanceAs (Decidable (_ ∧ _))

def coveredReceipts (scope : OnchainScope) (reporting : List String) (outputs : List TxOutput) : Int :=
  ((outputs.filter fun output => Valued outputs ∧ ownersAt index scope reporting outputs output.n ≠ []).map
    TxOutput.amountMsat).sum

def observedReceipts (group : List ReceiptRow) : Int := ((inbound group).map ReceiptRow.amount).sum

/-- An aggregate that was imported before an address list was trimmed. -/
def HistoricalOvercount (scope : OnchainScope) (group : List ReceiptRow) (outputs : List TxOutput) : Prop :=
  (∃ row ∈ group, row.walletKind = "address") ∧ (∃ row ∈ group, row.walletKind ∈ canonicalWalletKinds) ∧
    Valued outputs ∧
    0 < coveredReceipts index scope (walletIds group) outputs ∧
    coveredReceipts index scope (walletIds group) outputs < observedReceipts group

/-- These outputs show that the event counts a receipt more than once. -/
def Judged (scope : OnchainScope) (group : List ReceiptRow) (outputs : List TxOutput) : Prop :=
  Overlap index scope (walletIds group) outputs ∨ HistoricalOvercount index scope group outputs

instance (scope : OnchainScope) (group : List ReceiptRow) (outputs : List TxOutput) :
    Decidable (Judged index scope group outputs) := by
  unfold Judged Overlap HistoricalOvercount
  infer_instance

def firstOutputs (group : List ReceiptRow) : List TxOutput :=
  ((group.findSome? ReceiptRow.parsed).map OwnershipGraph.outputs).getD []

def TxInput.Complete (entry : TxInput) : Prop :=
  entry.script.getD "" ≠ "" ∧ entry.outpoint.getD "" ≠ "" ∧ entry.valueSats ≠ none

instance (entry : TxInput) : Decidable entry.Complete := inferInstanceAs (Decidable (_ ∧ _))

/-- The graph that all rows of a receipt agree on, when it proves the whole receipt. -/
def provedGraph (scope : OnchainScope) (group : List ReceiptRow) : Option OwnershipGraph :=
  if ∃ row ∈ group, row.direction ≠ "inbound" ∨ row.fee ≠ 0 then none
  else if (walletIds group).dedup.length ≠ group.length ∨ ∃ row ∈ group, row.parsed = none then none
  else match ownedIndex, group.filterMap ReceiptRow.parsed with
    | some inputOwnerIds, first :: rest =>
      if ∃ row ∈ group, row.authoritative = false then none
      else if ∃ item ∈ rest, item ≠ first then none
      else if first.evidenceConflicts ≠ [] ∨ ∃ output ∈ first.outputs, output.valueSats = none then none
      else if first.inputs = [] ∨ ∃ entry ∈ first.inputs, ¬ entry.Complete then none
      else if ∃ entry ∈ first.inputs, inputOwnerIds (scope.chain, scope.network) entry ≠ [] then none
      else some first
    | _, _ => none

/-- Each owned output counts for the canonical owner among the reporting wallets. -/
def assignments (scope : OnchainScope) (reporting : List String) (outputs : List TxOutput) : List OutputAssignment :=
  outputs.filterMap fun output =>
    (recommendedWallet (ownersAt index scope reporting outputs output.n)).map fun owner =>
      { vout := output.n, walletId := owner.id, amountMsat := output.amountMsat }

def canonicalAmount (assigned : List OutputAssignment) (wallet : String) : Int :=
  ((assigned.filter fun entry => entry.walletId = wallet).map OutputAssignment.amountMsat).sum

/-- What a wallet received when shared outputs count for all their owners. -/
def fullAmount (scope : OnchainScope) (reporting : List String) (outputs : List TxOutput) (wallet : String) : Int :=
  ((outputs.filter fun output => wallet ∈ wallets (ownersAt index scope reporting outputs output.n)).map
    TxOutput.amountMsat).sum

def apportion (scope : OnchainScope) (group : List ReceiptRow) : Option (List OutputAssignment) :=
  (provedGraph ownedIndex scope group).bind fun graph =>
    let assigned := assignments index scope (walletIds group) graph.outputs
    if ∃ row ∈ group, canonicalAmount assigned row.walletId ≤ 0 ∨
        row.amount ∉ [fullAmount index scope (walletIds group) graph.outputs row.walletId,
          canonicalAmount assigned row.walletId] then none
    else some assigned

def held (group : List ReceiptRow) : Reconciliation := group.map fun row => (row.id, none)

def receipts (group : List ReceiptRow) (assigned : List OutputAssignment) : Reconciliation :=
  group.map fun row =>
    (row.id, some { amountMsat := canonicalAmount assigned row.walletId, outputs := assigned })

def reconcileEvent (scope : OnchainScope) (group : List ReceiptRow) : Reconciliation :=
  if Judged index scope group (firstOutputs group) then
    held group ++ ((apportion index ownedIndex scope group).map (receipts group)).getD []
  else []

def reconcileReceiptQuantities (rows : List ReceiptRow) : Reconciliation :=
  (candidates rows).flatMap fun event => reconcileEvent index ownedIndex event.1 event.2

end

def eventRows (rows : List ReceiptRow) (scope : OnchainScope) : List ReceiptRow :=
  rows.filter fun row => row.scope = some scope

variable {rows group : List ReceiptRow} {scope : OnchainScope}

theorem mem_groups :
    (scope, group) ∈ groups rows ↔ group = eventRows rows scope ∧ group ≠ [] := by
  unfold groups
  rw [mem_filterMap]
  constructor
  · rintro ⟨⟨key, members⟩, listed, made⟩
    obtain ⟨own, rfl, same⟩ := Option.map_eq_some_iff.1 made
    cases same
    obtain ⟨rfl, named⟩ := mem_groupBy.1 listed
    obtain ⟨row, member, at_scope⟩ := mem_map.1 named
    exact ⟨rfl, ne_nil_of_mem (mem_filter.2 ⟨member, decide_eq_true at_scope⟩)⟩
  · rintro ⟨rfl, some⟩
    obtain ⟨row, member⟩ := exists_mem_of_ne_nil _ some
    obtain ⟨listed, at_scope⟩ := mem_filter.1 member
    exact ⟨(Option.some scope, eventRows rows scope),
      mem_groupBy.2 ⟨rfl, mem_map.2 ⟨row, listed, of_decide_eq_true at_scope⟩⟩, rfl⟩

theorem candidate_some (several : Candidate scope group) :
    group ≠ [] := by
  rintro rfl
  exact absurd several.2.2 (by decide)

theorem mem_candidates :
    (scope, group) ∈ candidates rows ↔ group = eventRows rows scope ∧ Candidate scope group := by
  unfold candidates
  rw [mem_filter, mem_groups, decide_eq_true_iff]
  exact ⟨fun both => ⟨both.1.1, both.2⟩, fun both => ⟨⟨both.1, candidate_some both.2⟩, both.2⟩⟩

section
variable (index : ProfileSourceIndex) (ownedIndex : Option (String × String → TxInput → List String))
  {row : ReceiptRow}

variable {group : List ReceiptRow}

theorem lookup_held (distinct : (group.map ReceiptRow.id).Nodup)
    (member : row ∈ group) : lookup (held group) row.id = some none :=
  lookup_of_mem (by rw [held, map_map]; exact distinct) (mem_map_of_mem member)

theorem lookup_receipts {assigned : List OutputAssignment}
    (distinct : (group.map ReceiptRow.id).Nodup) (member : row ∈ group) :
    lookup (receipts group assigned) row.id =
      some (some { amountMsat := canonicalAmount assigned row.walletId, outputs := assigned }) :=
  lookup_of_mem (by rw [receipts, map_map]; exact distinct) (mem_map_of_mem member)

def receiptOf (scope : OnchainScope) (group : List ReceiptRow) (wallet : String) : Option Receipt :=
  (apportion index ownedIndex scope group).map fun assigned =>
    { amountMsat := canonicalAmount assigned wallet, outputs := assigned }

variable {scope : OnchainScope}

theorem lookup_event (distinct : (group.map ReceiptRow.id).Nodup) (member : row ∈ group) :
    lookup (reconcileEvent index ownedIndex scope group) row.id =
      if Judged index scope group (firstOutputs group) then some (receiptOf index ownedIndex scope group row.walletId)
      else none := by
  unfold reconcileEvent receiptOf
  split
  · rw [lookup_append, lookup_held distinct member]
    cases apportion index ownedIndex scope group with
    | none => rfl
    | some assigned =>
      rw [Option.map_some, Option.getD_some, lookup_receipts distinct member]
      rfl
  · rfl

theorem event_ids {id : String}
    (assigned : id ∈ (reconcileEvent index ownedIndex scope group).map Prod.fst) : ∃ row ∈ group, row.id = id := by
  obtain ⟨entry, listed, rfl⟩ := mem_map.1 assigned
  unfold reconcileEvent at listed
  split at listed
  · rcases mem_append.1 listed with own | own
    · obtain ⟨row, member, rfl⟩ := mem_map.1 own
      exact ⟨row, member, rfl⟩
    · cases apportioned : apportion index ownedIndex scope group with
      | none =>
        rw [apportioned] at own
        cases own
      | some outputs =>
        rw [apportioned] at own
        obtain ⟨row, member, rfl⟩ := mem_map.1 own
        exact ⟨row, member, rfl⟩
  · cases listed

variable {rows : List ReceiptRow} (distinct : (rows.map ReceiptRow.id).Nodup)
include distinct

theorem event_distinct (scope : OnchainScope) : ((eventRows rows scope).map ReceiptRow.id).Nodup :=
  distinct.sublist (filter_sublist.map _)

theorem row_of_id {row other : ReceiptRow} (member : row ∈ rows) (listed : other ∈ rows) (same : other.id = row.id) :
    other = row := inj_on_of_nodup_map distinct listed member same

theorem lookup_reconcile (member : row ∈ eventRows rows scope) :
    lookup (reconcileReceiptQuantities index ownedIndex rows) row.id =
      if Candidate scope (eventRows rows scope) ∧
          Judged index scope (eventRows rows scope) (firstOutputs (eventRows rows scope)) then
        some (receiptOf index ownedIndex scope (eventRows rows scope) row.walletId)
      else none := by
  obtain ⟨listed, at_scope⟩ := mem_filter.1 member
  have own : ∀ event ∈ candidates rows, row.id ∈ (reconcileEvent index ownedIndex event.1 event.2).map Prod.fst →
      event = (scope, eventRows rows scope) := by
    rintro ⟨other, group⟩ found assigned
    obtain ⟨rfl, -⟩ := mem_candidates.1 found
    obtain ⟨twin, inside, same⟩ := event_ids index ownedIndex assigned
    obtain ⟨twinListed, twinScope⟩ := mem_filter.1 inside
    rw [row_of_id distinct listed twinListed same] at twinScope
    cases (of_decide_eq_true twinScope).symm.trans (of_decide_eq_true at_scope)
    rfl
  unfold reconcileReceiptQuantities
  by_cases several : Candidate scope (eventRows rows scope)
  · rw [lookup_flatMap (mem_candidates.2 ⟨rfl, several⟩) own,
      lookup_event index ownedIndex (event_distinct distinct scope) member]
    exact if_congr (and_iff_right several).symm rfl rfl
  · rw [if_neg fun both => several both.1, lookup_eq_none]
    intro assigned
    obtain ⟨entry, inside, same⟩ := mem_map.1 assigned
    obtain ⟨event, found, made⟩ := mem_flatMap.1 inside
    cases own event found (same ▸ mem_map_of_mem made)
    exact several (mem_candidates.1 found).2

omit distinct in
theorem lookup_known {id : String} {receipt : Option Receipt}
    (found : lookup (reconcileReceiptQuantities index ownedIndex rows) id = some receipt) :
    ∃ scope, ∃ row ∈ eventRows rows scope, row.id = id := by
  obtain ⟨⟨scope, group⟩, listed, made⟩ := mem_flatMap.1 (mem_of_lookup found)
  obtain ⟨rfl, -⟩ := mem_candidates.1 listed
  exact ⟨scope, event_ids index ownedIndex (mem_map_of_mem made)⟩

end

/-! ### What the order of an event's rows cannot change -/

section
variable (index : ProfileSourceIndex) (ownedIndex : Option (String × String → TxInput → List String))
variable {scope : OnchainScope} {group reordered : List ReceiptRow}

def readings (group : List ReceiptRow) : List OwnershipGraph := group.filterMap ReceiptRow.parsed

variable {left right : List String}

theorem owners_congr (same : ∀ wallet, wallet ∈ left ↔ wallet ∈ right)
    (outputs : List TxOutput) :
    owners index scope left outputs = owners index scope right outputs := by
  unfold owners reportingSources
  simp only [same]

theorem ownersAt_congr (same : ∀ wallet, wallet ∈ left ↔ wallet ∈ right) :
    ownersAt index scope left = ownersAt index scope right := by
  funext outputs n
  unfold ownersAt
  rw [owners_congr index same]

theorem candidate_perm (perm : reordered.Perm group) : Candidate scope reordered ↔ Candidate scope group := by
  unfold Candidate walletIds inbound
  rw [(((perm.filter _).map ReceiptRow.walletId).dedup).length_eq]

theorem judged_perm (perm : reordered.Perm group) (outputs : List TxOutput) :
    Judged index scope reordered outputs ↔ Judged index scope group outputs := by
  have reporting : ∀ wallet, wallet ∈ walletIds reordered ↔ wallet ∈ walletIds group :=
    fun wallet => (perm.map ReceiptRow.walletId).mem_iff
  have observed : observedReceipts reordered = observedReceipts group := ((perm.filter _).map ReceiptRow.amount).sum_eq
  unfold Judged Overlap HistoricalOvercount coveredReceipts
  rw [owners_congr index reporting, ownersAt_congr index reporting, observed]
  simp only [perm.mem_iff]

structure Proved (scope : OnchainScope) (group : List ReceiptRow) (graph : OwnershipGraph) : Prop where
  reported : group ≠ []
  receipts : ∀ row ∈ group, row.direction = "inbound" ∧ row.fee = 0
  apart : (walletIds group).Nodup
  shared : ∀ row ∈ group, row.parsed = some graph
  authoritative : ∀ row ∈ group, row.authoritative = true
  undisputed : graph.evidenceConflicts = []
  valued : ∀ output ∈ graph.outputs, output.valueSats ≠ none
  inputs : graph.inputs ≠ [] ∧ ∀ entry ∈ graph.inputs, entry.Complete
  foreign : ∃ inputOwnerIds, ownedIndex = some inputOwnerIds ∧
    ∀ entry ∈ graph.inputs, inputOwnerIds (scope.chain, scope.network) entry = []

theorem wallets_apart : (walletIds group).dedup.length = group.length ↔ (walletIds group).Nodup := by
  have whole : group.length = (walletIds group).length := (length_map _).symm
  rw [whole, ← dedup_eq_self]
  exact ⟨(dedup_sublist _).eq_of_length, congrArg length⟩

variable {graph : OwnershipGraph}

theorem readings_shared {rest : List OwnershipGraph}
    (parsed : ∀ row ∈ group, row.parsed ≠ none) (found : readings group = graph :: rest) :
    (∀ item ∈ rest, item = graph) ↔ ∀ row ∈ group, row.parsed = some graph := by
  constructor
  · intro same row member
    obtain ⟨item, read⟩ := Option.ne_none_iff_exists'.1 (parsed row member)
    have listed : item ∈ readings group := mem_filterMap.2 ⟨row, member, read⟩
    rw [found] at listed
    rcases mem_cons.1 listed with rfl | later
    · exact read
    · rw [read, same item later]
  · intro same item member
    have listed : item ∈ readings group := found ▸ mem_cons_of_mem _ member
    obtain ⟨row, inside, read⟩ := mem_filterMap.1 listed
    exact Option.some.inj (read.symm.trans (same row inside))

theorem provedGraph_some : provedGraph ownedIndex scope group = some graph ↔ Proved ownedIndex scope group graph := by
  constructor
  · intro found
    unfold provedGraph at found
    split at found
    · cases found
    rename_i received
    split at found
    · cases found
    rename_i readable
    push Not at received readable
    split at found
    · rename_i inputOwnerIds first rest listed
      split_ifs at found with unproved different disputed partly known
      cases found
      push Not at unproved different disputed partly known
      refine ⟨?_, received, wallets_apart.1 readable.1, (readings_shared readable.2 listed).1 different,
        fun row member => Bool.eq_true_of_not_eq_false (unproved row member), disputed.1, disputed.2, partly,
        _, rfl, known⟩
      rintro rfl
      cases listed
    · cases found
  · intro proved
    obtain ⟨inputOwnerIds, rfl, foreign⟩ := proved.foreign
    have parsed : ∀ row ∈ group, row.parsed ≠ none := fun row member => by rw [proved.shared row member]; exact nofun
    obtain ⟨row, member⟩ := exists_mem_of_ne_nil _ proved.reported
    have listed : graph ∈ readings group := mem_filterMap.2 ⟨row, member, proved.shared row member⟩
    cases found : readings group with
    | nil =>
      rw [found] at listed
      cases listed
    | cons first rest =>
      obtain ⟨source, inside, read⟩ := mem_filterMap.1 (found ▸ mem_cons_self : first ∈ readings group)
      cases Option.some.inj (read.symm.trans (proved.shared source inside))
      unfold provedGraph
      rw [if_neg (by push Not; exact proved.receipts),
        if_neg (by push Not; exact ⟨wallets_apart.2 proved.apart, parsed⟩),
        show group.filterMap ReceiptRow.parsed = graph :: rest from found]
      dsimp only
      rw [if_neg (by push Not; exact fun row member => by rw [proved.authoritative row member]; decide),
        if_neg (by push Not; exact (readings_shared parsed found).2 proved.shared),
        if_neg (by push Not; exact ⟨proved.undisputed, proved.valued⟩), if_neg (by push Not; exact proved.inputs),
        if_neg (by push Not; exact foreign)]

theorem proved_perm (perm : reordered.Perm group)
    (proved : Proved ownedIndex scope group graph) : Proved ownedIndex scope reordered graph where
  reported empty := proved.reported (empty ▸ perm.symm).eq_nil
  receipts row member := proved.receipts row (perm.mem_iff.1 member)
  apart := (perm.map ReceiptRow.walletId).nodup_iff.2 proved.apart
  shared row member := proved.shared row (perm.mem_iff.1 member)
  authoritative row member := proved.authoritative row (perm.mem_iff.1 member)
  undisputed := proved.undisputed
  valued := proved.valued
  inputs := proved.inputs
  foreign := proved.foreign

theorem provedGraph_perm (perm : reordered.Perm group) :
    provedGraph ownedIndex scope reordered = provedGraph ownedIndex scope group := by
  refine Option.ext fun graph => ?_
  rw [provedGraph_some, provedGraph_some]
  exact ⟨proved_perm ownedIndex perm.symm, proved_perm ownedIndex perm⟩

theorem apportion_perm (perm : reordered.Perm group) :
    apportion index ownedIndex scope reordered = apportion index ownedIndex scope group := by
  have reporting : ∀ wallet, wallet ∈ walletIds reordered ↔ wallet ∈ walletIds group :=
    fun wallet => (perm.map ReceiptRow.walletId).mem_iff
  unfold apportion assignments fullAmount
  rw [provedGraph_perm ownedIndex perm, ownersAt_congr index reporting]
  simp only [perm.mem_iff]

theorem receiptOf_perm (perm : reordered.Perm group) (wallet : String) :
    receiptOf index ownedIndex scope reordered wallet = receiptOf index ownedIndex scope group wallet := by
  unfold receiptOf
  rw [apportion_perm index ownedIndex perm]

/-! ### What the first readable row decides -/

def Shows (scope : OnchainScope) (group : List ReceiptRow) (graph : OwnershipGraph) : Prop :=
  ∃ output ∈ graph.outputs, 1 < (wallets (reportingSources index scope (walletIds group) output.script)).length

/-- The readable rows of an event all give it away, or none of them does. -/
def JudgedAlike (scope : OnchainScope) (group : List ReceiptRow) : Prop :=
  (∀ graph ∈ readings group, Judged index scope group graph.outputs) ∨
    ∀ graph ∈ readings group, ¬ Judged index scope group graph.outputs ∧ ¬ Shows index scope group graph

theorem judged_nil : ¬ Judged index scope group [] := by
  rintro (⟨entry, member, -⟩ | overcount)
  · cases member
  · exact overcount.2.2.1.1 rfl

theorem firstOutputs_cases (group : List ReceiptRow) :
    (readings group = [] ∧ firstOutputs group = []) ∨ ∃ graph ∈ readings group, firstOutputs group = graph.outputs := by
  unfold firstOutputs
  cases found : group.findSome? ReceiptRow.parsed with
  | none =>
    refine .inl ⟨?_, rfl⟩
    unfold readings
    rw [filterMap_eq_nil_iff]
    exact List.findSome?_eq_none_iff.1 found
  | some graph =>
    obtain ⟨row, member, read⟩ := exists_of_findSome?_eq_some found
    exact .inr ⟨graph, mem_filterMap.2 ⟨row, member, read⟩, rfl⟩

theorem judged_first (alike : JudgedAlike index scope group) :
    Judged index scope group (firstOutputs group) ↔
      ∃ graph ∈ readings group, Judged index scope group graph.outputs := by
  rcases firstOutputs_cases group with ⟨none, same⟩ | ⟨graph, member, same⟩
  · rw [same, none]
    exact ⟨fun judged => absurd judged (judged_nil index), nofun⟩
  · rw [same]
    refine ⟨fun judged => ⟨graph, member, judged⟩, ?_⟩
    rintro ⟨other, listed, judged⟩
    rcases alike with all | none
    · exact all graph member
    · exact absurd judged (none other listed).1

theorem readings_perm (perm : reordered.Perm group) : (readings reordered).Perm (readings group) := perm.filterMap _

theorem judgedAlike_perm (perm : reordered.Perm group) (alike : JudgedAlike index scope group) :
    JudgedAlike index scope reordered := by
  have reporting : ∀ wallet, wallet ∈ walletIds reordered ↔ wallet ∈ walletIds group :=
    fun wallet => (perm.map ReceiptRow.walletId).mem_iff
  unfold JudgedAlike Shows reportingSources
  simp only [(readings_perm perm).mem_iff, judged_perm index perm, reporting]
  exact alike

theorem judged_first_perm (perm : reordered.Perm group) (alike : JudgedAlike index scope group) :
    Judged index scope reordered (firstOutputs reordered) ↔ Judged index scope group (firstOutputs group) := by
  rw [judged_first index alike, judged_first index (judgedAlike_perm index perm alike)]
  simp only [(readings_perm perm).mem_iff, judged_perm index perm]

end

/-! ### Counting each output once -/

section
variable {index : ProfileSourceIndex} {ownedIndex : Option (String × String → TxInput → List String)}
variable {scope : OnchainScope} {group : List ReceiptRow}

theorem recommended_some {sources : List SourceScript} (some : sources ≠ []) :
    ∃ owner, recommendedWallet sources = Option.some owner ∧ owner.id ∈ wallets sources := by
  obtain ⟨source, member⟩ := exists_mem_of_ne_nil _ some
  have own : sourcesOf sources source.walletId ≠ [] := ne_nil_of_mem (mem_filter.2 ⟨member, decide_eq_true rfl⟩)
  obtain ⟨wallet, made⟩ := overlapWallet_some own
  have listed : wallet ∈ overlapWallets sources :=
    mem_overlapWallets.2 (overlapWallet_id (sourcesOf_own sources source.walletId) made ▸ made)
  cases found : recommendedWallet sources with
  | none =>
    unfold recommendedWallet at found
    rw [head?_eq_none_iff] at found
    have present : wallet ∈ sortedBy canonicalWalletSortKey (overlapWallets sources) := mem_sortedBy.2 listed
    rw [found] at present
    cases present
  | some owner =>
    refine ⟨owner, rfl, mem_dedup.2 ?_⟩
    have ranked := mem_overlapWallets.1 (recommended_least found).1
    have any : sourcesOf sources owner.id ≠ [] := by
      intro none
      rw [none] at ranked
      cases ranked
    obtain ⟨best, inside⟩ := exists_mem_of_ne_nil _ any
    exact mem_map.2 ⟨best, (mem_filter.1 inside).1, of_decide_eq_true (mem_filter.1 inside).2⟩

theorem recommended_none {sources : List SourceScript} : recommendedWallet sources = none ↔ sources = [] := by
  refine ⟨fun none => ?_, fun none => none ▸ rfl⟩
  by_contra some
  obtain ⟨owner, found, -⟩ := recommended_some some
  rw [none] at found
  cases found

variable {reporting : List String} {outputs : List TxOutput} {output : TxOutput}

theorem ownersAt_own (distinct : (outputs.map TxOutput.n).Nodup) (member : output ∈ outputs) :
    ownersAt index scope reporting outputs output.n = reportingSources index scope reporting output.script := by
  have found : lookup (owners index scope reporting outputs) output.n =
      some (reportingSources index scope reporting output.script) :=
    lookup_of_mem (by rw [owners, map_map]; exact distinct) (mem_map_of_mem member)
  unfold ownersAt
  rw [found]
  rfl

theorem wallets_reporting {script : Option String} {wallet : String}
    (owns : wallet ∈ wallets (reportingSources index scope reporting script)) : wallet ∈ reporting := by
  obtain ⟨source, member, rfl⟩ := mem_map.1 (mem_dedup.1 owns)
  exact of_decide_eq_true (mem_filter.1 member).2

def Owned (index : ProfileSourceIndex) (scope : OnchainScope) (group : List ReceiptRow) (output : TxOutput) : Prop :=
  reportingSources index scope (walletIds group) output.script ≠ []

instance (output : TxOutput) : Decidable (Owned index scope group output) := inferInstanceAs (Decidable (_ ≠ _))

structure Assigned (index : ProfileSourceIndex) (scope : OnchainScope) (group : List ReceiptRow)
    (graph : OwnershipGraph) (assigned : List OutputAssignment) : Prop where
  once : ∀ output ∈ graph.outputs, Owned index scope group output →
    ∃ wallet ∈ wallets (reportingSources index scope (walletIds group) output.script),
      assigned.filter (fun entry => entry.vout = output.n) =
        [{ vout := output.n, walletId := wallet, amountMsat := output.amountMsat }]
  only : ∀ entry ∈ assigned, ∃ output ∈ graph.outputs, entry.vout = output.n ∧ Owned index scope group output
  total : (group.map fun row => canonicalAmount assigned row.walletId).sum =
    ((graph.outputs.filter fun output => Owned index scope group output).map TxOutput.amountMsat).sum

def assign (index : ProfileSourceIndex) (scope : OnchainScope) (reporting : List String) (output : TxOutput) :
    Option OutputAssignment :=
  (recommendedWallet (reportingSources index scope reporting output.script)).map fun owner =>
    { vout := output.n, walletId := owner.id, amountMsat := output.amountMsat }

theorem assignments_eq (distinct : (outputs.map TxOutput.n).Nodup) :
    assignments index scope reporting outputs = outputs.filterMap (assign index scope reporting) :=
  filterMap_congr fun output member => by rw [ownersAt_own distinct member]; rfl

theorem assign_some {entry : OutputAssignment}
    (made : assign index scope reporting output = some entry) :
    reportingSources index scope reporting output.script ≠ [] ∧ entry.vout = output.n ∧
      entry.amountMsat = output.amountMsat ∧
      entry.walletId ∈ wallets (reportingSources index scope reporting output.script) := by
  obtain ⟨owner, found, rfl⟩ := Option.map_eq_some_iff.1 made
  have owned : reportingSources index scope reporting output.script ≠ [] := by
    intro none
    rw [recommended_none.2 none] at found
    cases found
  obtain ⟨best, same, owns⟩ := recommended_some owned
  cases found.symm.trans same
  exact ⟨owned, rfl, rfl, owns⟩

theorem assign_owned (owned : reportingSources index scope reporting output.script ≠ []) :
    ∃ wallet ∈ wallets (reportingSources index scope reporting output.script),
      assign index scope reporting output =
        some { vout := output.n, walletId := wallet, amountMsat := output.amountMsat } := by
  obtain ⟨owner, found, owns⟩ := recommended_some owned
  exact ⟨owner.id, owns, by rw [assign, found, Option.map_some]⟩

theorem assigned_once (distinct : (outputs.map TxOutput.n).Nodup) (member : output ∈ outputs) {entry : OutputAssignment}
    (made : assign index scope reporting output = some entry) :
    (outputs.filterMap (assign index scope reporting)).filter (fun other => other.vout = output.n) = [entry] := by
  obtain ⟨before, after, rfl⟩ := append_of_mem member
  rw [map_append, map_cons, nodup_middle, nodup_cons] at distinct
  have other : ∀ part : List TxOutput, (∀ sibling ∈ part, sibling.n ≠ output.n) →
      (part.filterMap (assign index scope reporting)).filter (fun other => other.vout = output.n) = [] := by
    intro part apart
    rw [filter_eq_nil_iff]
    intro foreign listed same
    obtain ⟨sibling, inside, own⟩ := mem_filterMap.1 listed
    exact apart sibling inside ((assign_some own).2.1.symm.trans (of_decide_eq_true same))
  have foreign : ∀ sibling ∈ before ++ after, sibling.n ≠ output.n :=
    fun sibling inside same => distinct.1 (map_append ▸ same ▸ mem_map_of_mem inside)
  rw [filterMap_append, filterMap_cons_some made, filter_append,
    filter_cons, if_pos (decide_eq_true (assign_some made).2.1),
    other before fun sibling inside => foreign sibling (mem_append_left _ inside),
    other after fun sibling inside => foreign sibling (mem_append_right _ inside), nil_append]

theorem assigned_total (apart : reporting.Nodup) (outputs : List TxOutput) :
    (reporting.map (canonicalAmount (outputs.filterMap (assign index scope reporting)))).sum =
      ((outputs.filter fun output => reportingSources index scope reporting output.script ≠ []).map
        TxOutput.amountMsat).sum := by
  have keyed : ∀ entry ∈ outputs.filterMap (assign index scope reporting), entry.walletId ∈ reporting := by
    intro entry listed
    obtain ⟨output, -, made⟩ := mem_filterMap.1 listed
    exact wallets_reporting (assign_some made).2.2.2
  have each : ∀ output ∈ outputs, ((assign index scope reporting output).map OutputAssignment.amountMsat).getD 0 =
      if reportingSources index scope reporting output.script ≠ [] then output.amountMsat else 0 := by
    intro output _
    by_cases owned : reportingSources index scope reporting output.script = []
    · rw [assign, recommended_none.2 owned, if_neg (not_not.2 owned)]
      rfl
    · obtain ⟨wallet, -, made⟩ := assign_owned owned
      rw [made, if_pos owned]
      rfl
  calc (reporting.map (canonicalAmount (outputs.filterMap (assign index scope reporting)))).sum
      = ((outputs.filterMap (assign index scope reporting)).map OutputAssignment.amountMsat).sum :=
        (sum_fibers OutputAssignment.walletId apart OutputAssignment.amountMsat keyed).symm
    _ = (outputs.map fun output =>
          ((assign index scope reporting output).map OutputAssignment.amountMsat).getD 0).sum := sum_filterMap _ _ _
    _ = (outputs.map fun output =>
          if reportingSources index scope reporting output.script ≠ [] then output.amountMsat else 0).sum := by
        rw [map_congr_left each]
    _ = _ := (sum_filter _ _ _).symm

theorem assignments_assigned {graph : OwnershipGraph} (apart : (walletIds group).Nodup)
    (distinct : (graph.outputs.map TxOutput.n).Nodup) :
    Assigned index scope group graph (assignments index scope (walletIds group) graph.outputs) := by
  rw [assignments_eq distinct]
  refine ⟨fun output member owned => ?_, fun entry listed => ?_, ?_⟩
  · obtain ⟨wallet, owns, made⟩ := assign_owned owned
    exact ⟨wallet, owns, assigned_once distinct member made⟩
  · obtain ⟨output, member, made⟩ := mem_filterMap.1 listed
    exact ⟨output, member, (assign_some made).2.1, (assign_some made).1⟩
  · have total : ((walletIds group).map
        (canonicalAmount (graph.outputs.filterMap (assign index scope (walletIds group))))).sum = _ :=
      assigned_total apart graph.outputs
    rwa [walletIds, map_map] at total

end

structure ReceiptRows where
  rows : List ReceiptRow
  distinct : (rows.map ReceiptRow.id).Nodup

section
variable (index : ProfileSourceIndex) (ownedIndex : Option (String × String → TxInput → List String))

/-- All rows of an event share assignments that count each owned output for one of its owners. -/
def CountedOnce (scope : OnchainScope) (group : List ReceiptRow) (result : Reconciliation) : Prop :=
  ∃ graph assigned,
    (∀ row ∈ group, row.parsed = some graph ∧ 0 < canonicalAmount assigned row.walletId ∧
      lookup result row.id =
        some (some { amountMsat := canonicalAmount assigned row.walletId, outputs := assigned })) ∧
    (∀ output ∈ graph.outputs, output.valueSats ≠ none) ∧
    ((graph.outputs.map TxOutput.n).Nodup → Assigned index scope group graph assigned)

structure CountedOnceOrHeld (rows : List ReceiptRow) : Prop where
  orderIndependent : ∀ reordered : List ReceiptRow, reordered.Perm rows → ∀ id,
    lookup (reconcileReceiptQuantities index ownedIndex reordered) id =
      lookup (reconcileReceiptQuantities index ownedIndex rows) id
  held : ∀ event ∈ candidates rows, ∀ graph ∈ readings event.2, Shows index event.1 event.2 graph →
    ∀ row ∈ event.2, lookup (reconcileReceiptQuantities index ownedIndex rows) row.id ≠ none
  once : ∀ event ∈ candidates rows, ∀ row ∈ event.2, ∀ receipt,
    lookup (reconcileReceiptQuantities index ownedIndex rows) row.id = some (some receipt) →
      CountedOnce index event.1 event.2 (reconcileReceiptQuantities index ownedIndex rows)

variable {scope : OnchainScope}

theorem apportion_some {group : List ReceiptRow} {assigned : List OutputAssignment}
    (made : apportion index ownedIndex scope group = some assigned) :
    ∃ graph, Proved ownedIndex scope group graph ∧
      assigned = assignments index scope (walletIds group) graph.outputs ∧
      ∀ row ∈ group, 0 < canonicalAmount assigned row.walletId := by
  obtain ⟨graph, found, kept⟩ := Option.bind_eq_some_iff.1 made
  dsimp only at kept
  split at kept
  · cases kept
  rename_i positive
  cases kept
  push Not at positive
  exact ⟨graph, (provedGraph_some ownedIndex).1 found, rfl, fun row member => (positive row member).1⟩

variable (given : ReceiptRows)

theorem reconciled_once {row : ReceiptRow} (member : row ∈ eventRows given.rows scope) {receipt : Receipt}
    (found : lookup (reconcileReceiptQuantities index ownedIndex given.rows) row.id = some (some receipt)) :
    CountedOnce index scope (eventRows given.rows scope) (reconcileReceiptQuantities index ownedIndex given.rows) := by
  rw [lookup_reconcile index ownedIndex given.distinct member] at found
  split at found
  · rename_i judged
    obtain ⟨assigned, made, -⟩ := Option.map_eq_some_iff.1 (Option.some.inj found)
    obtain ⟨graph, proved, same, positive⟩ := apportion_some index ownedIndex made
    refine ⟨graph, assigned, fun other listed => ⟨proved.shared other listed, positive other listed, ?_⟩, proved.valued,
      fun distinct => same ▸ assignments_assigned proved.apart distinct⟩
    rw [lookup_reconcile index ownedIndex given.distinct listed, if_pos judged, receiptOf, made, Option.map_some]
  · cases found

theorem lookup_none {rows : List ReceiptRow} {id : String}
    (absent : ∀ scope, ∀ row ∈ eventRows rows scope, row.id ≠ id) :
    lookup (reconcileReceiptQuantities index ownedIndex rows) id = none := by
  by_contra found
  obtain ⟨receipt, found⟩ := Option.ne_none_iff_exists'.1 found
  obtain ⟨scope, row, member, same⟩ := lookup_known index ownedIndex found
  exact absent scope row member same

theorem order_independent (alike : ∀ event ∈ candidates given.rows, JudgedAlike index event.1 event.2)
    {reordered : List ReceiptRow} (perm : reordered.Perm given.rows) (id : String) :
    lookup (reconcileReceiptQuantities index ownedIndex reordered) id =
      lookup (reconcileReceiptQuantities index ownedIndex given.rows) id := by
  have part : ∀ scope, (eventRows reordered scope).Perm (eventRows given.rows scope) := fun scope => perm.filter _
  by_cases known : ∃ scope, ∃ row ∈ eventRows given.rows scope, row.id = id
  · obtain ⟨scope, row, member, rfl⟩ := known
    rw [lookup_reconcile index ownedIndex given.distinct member,
      lookup_reconcile index ownedIndex ((perm.map ReceiptRow.id).nodup_iff.2 given.distinct)
        ((part scope).mem_iff.2 member), receiptOf_perm index ownedIndex (part scope)]
    refine if_congr ((and_congr_left' (candidate_perm (part scope))).trans (and_congr_right fun several => ?_)) rfl rfl
    exact judged_first_perm index (part scope) (alike (scope, _) (mem_candidates.2 ⟨rfl, several⟩))
  · push Not at known
    rw [lookup_none index ownedIndex known,
      lookup_none index ownedIndex fun scope row member => known scope row ((part scope).mem_iff.1 member)]

theorem reading_decides (several : Candidate scope (eventRows given.rows scope))
    {graph : OwnershipGraph} (read : graph ∈ readings (eventRows given.rows scope)) :
    ∃ reordered : List ReceiptRow, reordered.Perm given.rows ∧ ∀ row ∈ eventRows given.rows scope,
      lookup (reconcileReceiptQuantities index ownedIndex reordered) row.id ≠ none ↔
        Judged index scope (eventRows given.rows scope) graph.outputs := by
  obtain ⟨source, member, parsed⟩ := mem_filterMap.1 read
  obtain ⟨listed, at_scope⟩ := mem_filter.1 member
  obtain ⟨before, after, split⟩ := append_of_mem listed
  have perm : (source :: (before ++ after)).Perm given.rows := split ▸ perm_middle.symm
  have part : (eventRows (source :: (before ++ after)) scope).Perm (eventRows given.rows scope) := perm.filter _
  have first : firstOutputs (eventRows (source :: (before ++ after)) scope) = graph.outputs := by
    unfold firstOutputs eventRows
    rw [filter_cons, if_pos at_scope, findSome?_cons, parsed]
    rfl
  refine ⟨_, perm, fun row inside => ?_⟩
  rw [lookup_reconcile index ownedIndex ((perm.map ReceiptRow.id).nodup_iff.2 given.distinct) (part.mem_iff.2 inside),
    first]
  have same : Judged index scope _ graph.outputs ↔ _ := judged_perm index part graph.outputs
  by_cases judged : Judged index scope (eventRows given.rows scope) graph.outputs
  · rw [if_pos ⟨(candidate_perm part).2 several, same.2 judged⟩]
    exact ⟨fun _ => judged, fun _ => nofun⟩
  · rw [if_neg fun both => judged (same.1 both.2)]
    exact ⟨fun found => absurd rfl found, fun found => absurd found judged⟩

theorem judged_alike_of_stable (fair : CountedOnceOrHeld index ownedIndex given.rows)
    (several : Candidate scope (eventRows given.rows scope)) :
    JudgedAlike index scope (eventRows given.rows scope) := by
  have decides : ∀ graph ∈ readings (eventRows given.rows scope), ∀ row ∈ eventRows given.rows scope,
      lookup (reconcileReceiptQuantities index ownedIndex given.rows) row.id ≠ none ↔
        Judged index scope (eventRows given.rows scope) graph.outputs := by
    intro graph read row member
    obtain ⟨reordered, perm, decided⟩ := reading_decides index ownedIndex given several read
    rw [← fair.orderIndependent reordered perm]
    exact decided row member
  by_cases all : ∀ graph ∈ readings (eventRows given.rows scope),
      Judged index scope (eventRows given.rows scope) graph.outputs
  · exact .inl all
  · push Not at all
    obtain ⟨innocent, read, clear⟩ := all
    obtain ⟨row, member, -⟩ := mem_filterMap.1 read
    have absent := mt (decides innocent read row member).1 clear
    refine .inr fun graph listed => ⟨fun judged => absent ((decides graph listed row member).2 judged), fun shows => ?_⟩
    exact absent (fair.held (scope, _) (mem_candidates.2 ⟨rfl, several⟩) graph listed shows row member)

/-- Receipts are counted once or held, in any order, exactly when the readable rows of each event judge it alike. -/
theorem counted_once_or_held_iff :
    CountedOnceOrHeld index ownedIndex given.rows ↔
      ∀ event ∈ candidates given.rows, JudgedAlike index event.1 event.2 := by
  constructor
  · rintro fair ⟨scope, group⟩ listed
    obtain ⟨rfl, several⟩ := mem_candidates.1 listed
    exact judged_alike_of_stable index ownedIndex given fair several
  · intro alike
    refine ⟨fun reordered perm => order_independent index ownedIndex given alike perm, ?_, ?_⟩
    · rintro ⟨scope, group⟩ listed graph read shows row member
      obtain ⟨rfl, several⟩ := mem_candidates.1 listed
      have judged : Judged index scope (eventRows given.rows scope) graph.outputs :=
        (alike _ listed).elim (fun all => all graph read) fun none => absurd shows (none graph read).2
      rw [lookup_reconcile index ownedIndex given.distinct member,
        if_pos ⟨several, (judged_first index (alike _ listed)).2 ⟨graph, read, judged⟩⟩]
      exact nofun
    · rintro ⟨scope, group⟩ listed row member receipt found
      obtain ⟨rfl, -⟩ := mem_candidates.1 listed
      exact reconciled_once index ownedIndex given member found

end

/-! ### A partial observation read first -/

def sharedScope : OnchainScope where
  chain := "bitcoin"
  network := "main"
  txid := "aa"
  asset := "BTC"

def sharedIndex : ProfileSourceIndex where
  profileId := "book"
  sources := ["descriptor", "list"].map fun id =>
    { profileId := "book", walletId := id, walletLabel := id, walletKind := id, chain := "bitcoin", network := "main"
      scriptPubkey := "0014bb", source := .inventory }

def receiptRow (id wallet : String) (graph : OwnershipGraph) : ReceiptRow where
  id := id
  walletId := wallet
  walletKind := wallet
  direction := "inbound"
  amount := 5000
  scope := some sharedScope
  parsed := some graph
  authoritative := true

def wholeGraph : OwnershipGraph where
  outputs := [{ n := 0, script := some "0014bb", valueSats := some 5 }]

/-- Two wallets receive one output; the second one's stored graph has lost the script. -/
def partlyRead : ReceiptRows where
  rows := [receiptRow "whole" "descriptor" wholeGraph, receiptRow "partial" "list" { outputs := [{ n := 0 }] }]
  distinct := by decide

/-- With the partial row first the overlap is overlooked, and both rows count the output. -/
theorem partial_row_hides_overlap : ¬ CountedOnceOrHeld sharedIndex none partlyRead.rows := by
  intro fair
  have first : lookup (reconcileReceiptQuantities sharedIndex none partlyRead.rows) "whole" = some none := by
    decide +kernel
  have last : lookup (reconcileReceiptQuantities sharedIndex none partlyRead.rows.reverse) "whole" = none := by
    decide +kernel
  have same := fair.orderIndependent _ (reverse_perm _) "whole"
  rw [first, last] at same
  cases same

end Kassiber.Sync.ReceiptQuantities

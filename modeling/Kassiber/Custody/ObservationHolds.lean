import Kassiber.Lib.Labelling
import Kassiber.Lib.Ranking
import Kassiber.Lib.Saturation
import Kassiber.Custody.Evidence

/-!
Rows that are held before custody arbitration.
-/

namespace Kassiber.Custody.ObservationHolds
open Lib.Saturation Lib.Sorting List
open Prod (snd fst)

/-- A row, with its physical scope and whether its stored payload reads as a transaction graph. -/
structure Row where
  id : String
  workspaceId : String := ""
  profileId : String := ""
  walletId : String
  asset : String := ""
  direction : Direction
  amount : Int
  externalId : String := ""
  scope : Option (String × String × String × String) := none
  graphBearing : Bool := false

structure Side where
  id : String
  journalTransactionId : String := ""

def anchorId (side : Side) : String := if side.journalTransactionId = "" then side.id else side.journalTransactionId

structure Pair where
  outgoing : Side
  incoming : Side
  groupId : String := ""

def pairAnchorIds (pair : Pair) : List String := ([pair.outgoing, pair.incoming].map anchorId).filter fun id => id ≠ ""

def touches (held : List String) (pair : Pair) : Bool := (pairAnchorIds pair).any fun id => id ∈ held

section
variable {ι : Type} (pair : ι → Pair) (pairs : List ι)

/-- The candidate pairs that a hold leaves, whole groups dropped. A pair is known by its reference. -/
def withoutHeldPairs (held : List String) : List ι :=
  let heldGroups := (pairs.filter fun i => (pair i).groupId ≠ "" ∧ touches held (pair i)).map fun i => (pair i).groupId
  pairs.filter fun i => ¬ touches held (pair i) ∧ (pair i).groupId ∉ heldGroups

def syntheticIdPrefixes : List String :=
  ["owned-derive:", "recorded-fanout:", "cross-split:", "direct-payout:", "multi-consol:"]

def syntheticTransferIdPrefixes : List String :=
  ["custody-tax:", "cross-split:", "direct-payout:", "multi-consol:", "owned-derive:", "recorded-fanout:"]

def startsWithAny (starts : List String) (text : String) : Bool := starts.any fun start => start.toList.isPrefixOf text.toList

def positive (direction : Direction) (group : List Row) : List Row :=
  group.filter fun row => row.direction = direction ∧ 0 < row.amount

/-- Whether a group of rows moves coins between own wallets, with more than one leg on a side, and is not resolved. -/
def isUnresolvedFanout (covered : List String) (group : List Row) : Bool :=
  let outs := positive .outbound group
  let ins := positive .inbound group
  let positiveIds := (outs ++ ins).map Row.id
  if outs = [] ∨ ins = [] ∨ (outs.length = 1 ∧ ins.length = 1) then false
  else if ¬ outs.any fun out => ins.any fun incoming => out.walletId ≠ incoming.walletId then false
  else if positiveIds.all fun id => id ∈ covered then false
  else if ((outs ++ ins).any Row.graphBearing) ∧ ¬ positiveIds.any fun id => id ∈ covered then false
  else if ((group.map Row.id).any fun id => id ∈ covered) ∧
      (group.any fun row => row.direction = .outbound ∧ row.amount ≤ 0) ∧ ¬ outs.any fun row => row.id ∉ covered then false
  else true

def detectUnresolvedOwnedFanoutIds (rows : List Row) (covered : List String) : List String :=
  let onchain := rows.filter fun row => ¬ startsWithAny syntheticIdPrefixes row.id ∧ row.scope.isSome
  (((groupBy Row.scope onchain).map snd).filter (isUnresolvedFanout covered)).flatMap fun group => group.map Row.id

def normalizeGroupTxid (externalId : String) : String :=
  if externalId.length = 64 ∧ externalId.toList.all isHexDigit then externalId.toLower else externalId

def needsScopeReview (group : List Row) : Bool :=
  let outs := positive .outbound group
  let ins := positive .inbound group
  outs ≠ [] ∧ ins ≠ [] ∧ outs.any fun out => ins.any fun incoming => out.walletId ≠ incoming.walletId

def detectUnscopedTransferReviewIds (rows : List Row) : List String :=
  let unscoped := rows.filter fun row => ¬ startsWithAny syntheticTransferIdPrefixes row.id ∧ row.scope = none ∧
    Lib.Labelling.strip row.externalId ≠ ""
  let importKey (row : Row) := (normalizeGroupTxid (Lib.Labelling.strip row.externalId),
    (Lib.Labelling.strip row.asset).toUpper)
  (((groupBy importKey unscoped).map snd).filter needsScopeReview).flatMap fun group => group.map Row.id

inductive HoldReason where
  | conflictingSpend
  | pendingOnchainConfirmation
  | ownedFanoutUnresolved
  | unscopedTransferReview
  | transferPairDependencyBlocked
  deriving DecidableEq

def HoldReason.text : HoldReason → String
  | .conflictingSpend => "conflicting_spend"
  | .pendingOnchainConfirmation => "pending_onchain_confirmation"
  | .ownedFanoutUnresolved => "owned_fanout_unresolved"
  | .unscopedTransferReview => "unscoped_transfer_review"
  | .transferPairDependencyBlocked => "transfer_pair_dependency_blocked"

/-- What the holds are found from. The ids of conflicting and of pending spends are read from the stored graphs. -/
structure Inputs (ι : Type) where
  rows : List Row
  derivationRows : List Row
  pairInputs : List ι
  walletLabels : List (String × String) := []
  hasChainEvents : Bool
  conflictingSpendIds : List String
  pendingOnchainIds : List String
  excludedIds : List String
  blockedIds : List String
  resolvedIds : List String

variable (inputs : Inputs ι)

def Inputs.conflictIds : List String := if inputs.hasChainEvents then inputs.conflictingSpendIds else []

def Inputs.coveredIds : List String :=
  inputs.excludedIds ++ inputs.blockedIds ++ inputs.resolvedIds ++ inputs.conflictIds ++ inputs.pendingOnchainIds ++
    inputs.pairInputs.flatMap fun i => pairAnchorIds (pair i)

def Inputs.fanoutIds : List String :=
  if inputs.hasChainEvents then detectUnresolvedOwnedFanoutIds inputs.derivationRows (inputs.coveredIds pair) else []

def Inputs.unscopedIds : List String :=
  (detectUnscopedTransferReviewIds inputs.rows).filter fun id => id ∉ inputs.coveredIds pair ∧ id ∉ inputs.fanoutIds pair

def Inputs.eligible (id : String) : Bool :=
  id ∉ inputs.excludedIds ∧ id ∉ inputs.blockedIds ∧ id ∈ inputs.rows.map Row.id

def setDefault (reasons : List (String × HoldReason)) (id : String) (reason : HoldReason) : List (String × HoldReason) :=
  if id ∈ reasons.map fst then reasons else reasons ++ [(id, reason)]

def Inputs.initialReasons : List (String × HoldReason) :=
  [(inputs.conflictIds, HoldReason.conflictingSpend), (inputs.pendingOnchainIds, .pendingOnchainConfirmation),
    (inputs.fanoutIds pair, .ownedFanoutUnresolved), (inputs.unscopedIds pair, .unscopedTransferReview)].foldl
    (fun reasons found =>
      (found.1.filter inputs.eligible).foldl (fun reasons id => setDefault reasons id found.2) reasons) []

/-- The rows held so far, and the rows that caused each of the later ones. -/
structure Holds where
  reasons : List (String × HoldReason)
  causes : List (String × List String)

def Holds.ids (holds : Holds) : List String := holds.reasons.map fst

def Holds.causesOf (holds : Holds) (id : String) : List String :=
  (holds.causes.filter fun entry => entry.1 = id).flatMap snd

/-- The held rows that dropped a pair: its own, else those of its group. -/
def pairCauses (held : List String) (dropped : List ι) (i : ι) : List String :=
  let own := (pairAnchorIds (pair i)).filter fun id => id ∈ held
  if own ≠ [] then own
  else if (pair i).groupId = "" then []
  else (dropped.filter fun j => (pair j).groupId = (pair i).groupId).flatMap fun j =>
    (pairAnchorIds (pair j)).filter fun id => id ∈ held

def Inputs.partners (held : List String) (i : ι) : List String :=
  sortedSet ((pairAnchorIds (pair i)).filter fun id => id ∉ held ∧ inputs.eligible id)

def addDependency (causes : List String) (holds : Holds) (id : String) : Holds where
  reasons := setDefault holds.reasons id .transferPairDependencyBlocked
  causes := holds.causes ++ [(id, causes)]

def Inputs.closeRound [DecidableEq ι] (holds : Holds) : Option Holds :=
  let held := holds.ids
  let kept := withoutHeldPairs pair inputs.pairInputs held
  let dropped := inputs.pairInputs.filter fun i => i ∉ kept
  if dropped.all fun i => inputs.partners pair held i = [] then none
  else some (dropped.foldl (fun holds i =>
    (inputs.partners pair held i).foldl (addDependency (pairCauses pair held dropped i)) holds) holds)

def Inputs.closeHolds [DecidableEq ι] (initial : List (String × HoldReason)) : Option Holds :=
  saturate (inputs.closeRound pair) (inputs.rows.length + 1) { reasons := initial, causes := [] }

def isTransient (reason : HoldReason) : Bool := reason = .conflictingSpend ∨ reason = .pendingOnchainConfirmation

/-- The holds whose causes are all transient by now; none where there are no more. -/
def growTransient (holds : Holds) (transient : List String) : Option (List String) :=
  let grown := (holds.causes.map fst).eraseDups.filter fun id =>
    id ∉ transient ∧ holds.causesOf id ≠ [] ∧ (holds.causesOf id).all fun cause => cause ∈ transient
  if grown = [] then none else some (transient ++ grown)

def transientIds (holds : Holds) : Option (List String) :=
  saturate (growTransient holds) (holds.causes.length + 1)
    ((holds.reasons.filter fun entry => isTransient entry.2).map fst)

def requiredFor : HoldReason → Option String
  | .conflictingSpend => none
  | .pendingOnchainConfirmation => some "confirmed_chain_history"
  | .ownedFanoutUnresolved => some "complete_transfer_component"
  | .unscopedTransferReview => some "physical_transfer_scope_or_custody_component"
  | .transferPairDependencyBlocked => some "complete_transfer_component"

structure Quarantine where
  transactionId : String
  workspaceId : String
  profileId : String
  reason : String
  wallet : String
  asset : String
  direction : Direction
  externalId : String
  requiredFor : Option String
  blockedByTransactionIds : Option (List String)

structure RawObservationHolds where
  blockedIds : List String
  pendingIds : List String
  quarantines : List Quarantine
  transientIds : List String

def Inputs.quarantine (holds : Holds) (entry : String × HoldReason) : Option Quarantine :=
  (inputs.rows.reverse.find? fun row => row.id = entry.1).map fun row =>
    { transactionId := entry.1
      workspaceId := row.workspaceId
      profileId := row.profileId
      reason := entry.2.text
      wallet := ((inputs.walletLabels.find? fun wallet => wallet.1 = row.walletId).map snd).getD row.walletId
      asset := row.asset.toUpper
      direction := row.direction
      externalId := row.externalId
      requiredFor := requiredFor entry.2
      blockedByTransactionIds :=
        if entry.1 ∈ holds.causes.map fst then some (sortedSet (holds.causesOf entry.1)) else none }

def Inputs.rawObservationHolds [DecidableEq ι] : Option RawObservationHolds := do
  let holds ← inputs.closeHolds pair (inputs.initialReasons pair)
  let transient ← transientIds holds
  pure
    { blockedIds := holds.ids
      pendingIds := inputs.pendingOnchainIds
      quarantines := (sortedBy fst holds.reasons).filterMap (inputs.quarantine holds)
      transientIds := transient }

def Together (i j : ι) : Prop := i = j ∨ (pair i).groupId ≠ "" ∧ (pair i).groupId = (pair j).groupId

theorem Together.symm {pair : ι → Pair} {i j : ι} (together : Together pair i j) : Together pair j i := by
  rcases together with rfl | ⟨named, same⟩
  · exact .inl rfl
  · exact .inr ⟨same ▸ named, same.symm⟩

variable {held : List String} {reasons : List (String × HoldReason)} {holds : Holds}
  {initial : List (String × HoldReason)}

theorem touches_iff {side : Pair} : touches held side = true ↔ ∃ a ∈ held, a ∈ pairAnchorIds side := by
  unfold touches
  rw [any_eq_true]
  constructor
  · rintro ⟨a, anchor, inside⟩
    exact ⟨a, of_decide_eq_true inside, anchor⟩
  · rintro ⟨a, inside, anchor⟩
    exact ⟨a, anchor, decide_eq_true inside⟩

theorem dropped_iff {i : ι} (member : i ∈ pairs) :
    i ∉ withoutHeldPairs pair pairs held ↔ ∃ j ∈ pairs, (∃ a ∈ held, a ∈ pairAnchorIds (pair j)) ∧ Together pair j i := by
  unfold withoutHeldPairs
  simp only [mem_filter, member, true_and, decide_eq_true_eq, mem_map, touches_iff, not_and_or, not_not]
  constructor
  · rintro (own | ⟨j, ⟨known, named, touched⟩, same⟩)
    · exact ⟨i, member, own, .inl rfl⟩
    · exact ⟨j, known, touched, .inr ⟨named, same⟩⟩
  · rintro ⟨j, known, touched, rfl | ⟨named, same⟩⟩
    · exact .inl touched
    · exact .inr ⟨j, ⟨known, named, touched⟩, same⟩

/-- A hold of one row holds another: candidate pairs of the two are dropped together. -/
def Inputs.Linked (a b : String) : Prop :=
  inputs.eligible b ∧ ∃ i ∈ inputs.pairInputs, ∃ j ∈ inputs.pairInputs,
    a ∈ pairAnchorIds (pair i) ∧ b ∈ pairAnchorIds (pair j) ∧ Together pair i j

def Inputs.Closed (held : List String) : Prop :=
  ∀ i ∈ inputs.pairInputs, i ∉ withoutHeldPairs pair inputs.pairInputs held →
    ∀ b ∈ pairAnchorIds (pair i), inputs.eligible b → b ∈ held

theorem closed_iff : inputs.Closed pair held ↔ ∀ a ∈ held, ∀ b, inputs.Linked pair a b → b ∈ held := by
  constructor
  · rintro closed a inside b ⟨allowed, i, known, j, other, anchor, partner, together⟩
    exact closed j other ((dropped_iff pair _ other).2 ⟨i, known, ⟨a, inside, anchor⟩, together⟩) b partner allowed
  · intro closed i member dropped b partner allowed
    obtain ⟨j, known, ⟨a, inside, anchor⟩, together⟩ := (dropped_iff pair _ member).1 dropped
    exact closed a inside b ⟨allowed, j, known, i, member, anchor, partner, together⟩

def Inputs.Chained : String → String → Prop := Relation.ReflTransGen (inputs.Linked pair)

variable {a b id : String} {transient larger : List String}

theorem Closed.chained {inputs : Inputs ι} (closed : inputs.Closed pair held)
    (inside : a ∈ held) (chained : inputs.Chained pair a b) : b ∈ held := by
  induction chained with
  | refl => exact inside
  | tail _ link ih => exact (closed_iff pair inputs).1 closed _ ih _ link

theorem Linked.symm {inputs : Inputs ι} (allowed : inputs.eligible a) (link : inputs.Linked pair a b) :
    inputs.Linked pair b a := by
  obtain ⟨-, i, known, j, other, anchor, partner, together⟩ := link
  exact ⟨allowed, j, other, i, known, partner, anchor, together.symm⟩

theorem Chained.symm {inputs : Inputs ι} (allowed : inputs.eligible a) (chained : inputs.Chained pair a b) :
    inputs.Chained pair b a := by
  have reach : inputs.eligible b ∧ inputs.Chained pair b a := by
    induction chained with
    | refl => exact ⟨allowed, .refl⟩
    | tail _ link ih => exact ⟨link.1, .head (Linked.symm pair ih.1 link) ih.2⟩
  exact reach.2

theorem mem_setDefault {reason : HoldReason} :
    b ∈ (setDefault reasons id reason).map fst ↔ b ∈ reasons.map fst ∨ b = id := by
  unfold setDefault
  split
  case isTrue known =>
    constructor
    · exact .inl
    · rintro (old | rfl)
      · exact old
      · exact known
  case isFalse => simp

theorem setDefault_nodup (distinct : (reasons.map fst).Nodup) (id : String)
    (reason : HoldReason) : ((setDefault reasons id reason).map fst).Nodup := by
  unfold setDefault
  split
  · exact distinct
  case isFalse fresh =>
    rw [map_append, nodup_append]
    refine ⟨distinct, nodup_singleton _, fun a old b new same => ?_⟩
    obtain rfl := mem_singleton.1 new
    exact fresh (same ▸ old)

theorem setDefault_transient (reasons : List (String × HoldReason)) (id : String) :
    (setDefault reasons id .transferPairDependencyBlocked).filter (fun entry => isTransient entry.2) =
      reasons.filter fun entry => isTransient entry.2 := by
  unfold setDefault
  split
  · rfl
  · rw [filter_append, filter_cons_of_neg (by simp [isTransient]), filter_nil, append_nil]

/-- The rows that the dropped pairs add, each with the causes of its pair. -/
def Inputs.additions (held : List String) (dropped : List ι) : List (String × List String) :=
  dropped.flatMap fun i => (inputs.partners pair held i).map fun id => (id, pairCauses pair held dropped i)

def addAll (holds : Holds) (additions : List (String × List String)) : Holds :=
  additions.foldl (fun holds entry => addDependency entry.2 holds entry.1) holds

theorem foldl_additions (held : List String) (dropped rest : List ι) (holds : Holds) :
    rest.foldl (fun holds i => (inputs.partners pair held i).foldl (addDependency (pairCauses pair held dropped i)) holds)
        holds =
      addAll holds (rest.flatMap fun i =>
        (inputs.partners pair held i).map fun id => (id, pairCauses pair held dropped i)) := by
  unfold addAll
  rw [foldl_flatMap]
  simp only [foldl_map]

theorem addAll_causes (holds : Holds) (additions : List (String × List String)) :
    (addAll holds additions).causes = holds.causes ++ additions := by
  unfold addAll
  induction additions generalizing holds with
  | nil => exact (append_nil _).symm
  | cons entry rest ih =>
    rw [foldl_cons, ih, addDependency, List.append_assoc, singleton_append]

theorem mem_addAll {additions : List (String × List String)} :
    b ∈ (addAll holds additions).ids ↔ b ∈ holds.ids ∨ b ∈ additions.map fst := by
  unfold addAll
  induction additions generalizing holds with
  | nil => simp
  | cons entry rest ih =>
    rw [foldl_cons, ih, map_cons, mem_cons, ← or_assoc]
    refine or_congr_left ?_
    exact mem_setDefault

theorem addAll_nodup (distinct : holds.ids.Nodup) (additions : List (String × List String)) :
    (addAll holds additions).ids.Nodup := by
  unfold addAll
  induction additions generalizing holds with
  | nil => exact distinct
  | cons entry rest ih => exact ih (setDefault_nodup distinct _ _)

theorem addAll_transient (holds : Holds) (additions : List (String × List String)) :
    (addAll holds additions).reasons.filter (fun entry => isTransient entry.2) =
      holds.reasons.filter fun entry => isTransient entry.2 := by
  unfold addAll
  induction additions generalizing holds with
  | nil => rfl
  | cons entry rest ih => rw [foldl_cons, ih, addDependency, setDefault_transient]

theorem mem_partners {i : ι} :
    b ∈ inputs.partners pair held i ↔ b ∈ pairAnchorIds (pair i) ∧ b ∉ held ∧ inputs.eligible b := by
  unfold Inputs.partners
  rw [mem_sortedSet, mem_filter, decide_eq_true_eq]

structure Closing (initial : List (String × HoldReason)) (holds : Holds) : Prop where
  distinct : holds.ids.Nodup
  starts : ∀ id ∈ initial.map fst, id ∈ holds.ids
  eligible : ∀ id ∈ holds.ids, inputs.eligible id
  reached : ∀ id ∈ holds.ids, ∃ start ∈ initial.map fst, inputs.Chained pair start id
  transient : holds.reasons.filter (fun entry => isTransient entry.2) = initial.filter fun entry => isTransient entry.2
  linked : ∀ entry ∈ holds.causes, ∀ cause ∈ entry.2, cause ∈ holds.ids ∧ inputs.Linked pair cause entry.1

theorem closing_start (distinct : (initial.map fst).Nodup)
    (allowed : ∀ id ∈ initial.map fst, inputs.eligible id) :
    Closing pair inputs initial { reasons := initial, causes := [] } where
  distinct := distinct
  starts _ member := member
  eligible := allowed
  reached id member := ⟨id, member, .refl⟩
  transient := rfl
  linked _ member := absurd member not_mem_nil

theorem eligible_known (allowed : inputs.eligible id) : id ∈ inputs.rows.map Row.id :=
  (of_decide_eq_true allowed).2.2

section
variable [DecidableEq ι]

def Inputs.dropped (held : List String) : List ι :=
  inputs.pairInputs.filter fun i => i ∉ withoutHeldPairs pair inputs.pairInputs held

variable {held : List String}

theorem mem_dropped {i : ι} : i ∈ inputs.dropped pair held ↔
    i ∈ inputs.pairInputs ∧ ∃ j ∈ inputs.pairInputs, (∃ a ∈ held, a ∈ pairAnchorIds (pair j)) ∧ Together pair j i := by
  unfold Inputs.dropped
  rw [mem_filter, decide_eq_true_eq]
  exact and_congr_right fun member => dropped_iff pair _ member

theorem mem_additions {b : String} :
    b ∈ (inputs.additions pair held (inputs.dropped pair held)).map fst ↔
      b ∉ held ∧ ∃ a ∈ held, inputs.Linked pair a b := by
  unfold Inputs.additions
  rw [map_flatMap]
  simp only [mem_flatMap, map_map, mem_map, Function.comp_apply, exists_eq_right, mem_partners, mem_dropped]
  constructor
  · rintro ⟨i, ⟨member, j, known, ⟨a, inside, anchor⟩, together⟩, partner, fresh, allowed⟩
    exact ⟨fresh, a, inside, allowed, j, known, i, member, anchor, partner, together⟩
  · rintro ⟨fresh, a, inside, allowed, j, known, i, member, anchor, partner, together⟩
    exact ⟨i, ⟨member, j, known, ⟨a, inside, anchor⟩, together⟩, partner, fresh, allowed⟩

theorem pairCauses_linked {i : ι} (member : i ∈ inputs.pairInputs) {b cause : String}
    (partner : b ∈ inputs.partners pair held i) (counted : cause ∈ pairCauses pair held (inputs.dropped pair held) i) :
    cause ∈ held ∧ inputs.Linked pair cause b := by
  obtain ⟨anchor, -, allowed⟩ := (mem_partners pair inputs).1 partner
  unfold pairCauses at counted
  simp only at counted
  split at counted
  · obtain ⟨own, inside⟩ := mem_filter.1 counted
    exact ⟨of_decide_eq_true inside, allowed, i, member, i, member, own, anchor, .inl rfl⟩
  · split at counted
    · exact absurd counted not_mem_nil
    case isFalse named =>
      obtain ⟨j, sibling, counted⟩ := mem_flatMap.1 counted
      obtain ⟨gone, same⟩ := mem_filter.1 sibling
      obtain ⟨own, inside⟩ := mem_filter.1 counted
      have same := of_decide_eq_true same
      refine ⟨of_decide_eq_true inside, allowed, j, ((mem_dropped pair inputs).1 gone).1, i, member, own, anchor, .inr ?_⟩
      exact ⟨same ▸ named, same⟩

theorem mem_additions_causes {entry : String × List String}
    (added : entry ∈ inputs.additions pair held (inputs.dropped pair held)) {cause : String} (counted : cause ∈ entry.2) :
    cause ∈ held ∧ inputs.Linked pair cause entry.1 := by
  obtain ⟨i, gone, added⟩ := mem_flatMap.1 added
  obtain ⟨id, partner, rfl⟩ := mem_map.1 added
  exact pairCauses_linked pair inputs ((mem_dropped pair inputs).1 gone).1 partner counted

theorem closeRound_eq_some {holds larger : Holds} (grown : inputs.closeRound pair holds = some larger) :
    larger = addAll holds (inputs.additions pair holds.ids (inputs.dropped pair holds.ids)) ∧
      ∃ b ∉ holds.ids, b ∈ larger.ids := by
  unfold Inputs.closeRound at grown
  simp only at grown
  split at grown
  · exact absurd grown (by simp)
  case isFalse adds =>
    have same := (foldl_additions pair inputs holds.ids (inputs.dropped pair holds.ids)
      (inputs.dropped pair holds.ids) holds).symm.trans (Option.some.inj grown)
    refine ⟨same.symm, ?_⟩
    rw [all_eq_true] at adds
    push Not at adds
    obtain ⟨i, gone, nonempty⟩ := adds
    obtain ⟨b, partner⟩ := exists_mem_of_ne_nil _ fun none => nonempty (decide_eq_true none)
    refine ⟨b, ((mem_partners pair inputs).1 partner).2.1, ?_⟩
    rw [← same, mem_addAll]
    refine .inr (mem_map.2 ⟨(b, pairCauses pair holds.ids (inputs.dropped pair holds.ids) i), ?_, rfl⟩)
    exact mem_flatMap.2 ⟨i, gone, mem_map_of_mem partner⟩

theorem closeRound_eq_none {holds : Holds} (done : inputs.closeRound pair holds = none) :
    inputs.Closed pair holds.ids := by
  rw [closed_iff]
  intro a inside b link
  by_contra fresh
  have added := (mem_additions pair inputs).2 ⟨fresh, a, inside, link⟩
  obtain ⟨entry, among, same⟩ := mem_map.1 added
  obtain ⟨i, gone, among⟩ := mem_flatMap.1 among
  obtain ⟨id, partner, rfl⟩ := mem_map.1 among
  unfold Inputs.closeRound at done
  simp only at done
  split at done
  case isTrue nothing =>
    have empty := of_decide_eq_true (all_eq_true.1 nothing i gone)
    rw [empty] at partner
    exact absurd partner not_mem_nil
  · exact absurd done (by simp)

theorem closing_step {initial : List (String × HoldReason)} {holds larger : Holds}
    (closing : Closing pair inputs initial holds) (grown : inputs.closeRound pair holds = some larger) :
    Closing pair inputs initial larger := by
  obtain ⟨rfl, -⟩ := closeRound_eq_some pair inputs grown
  have new {id : String} (member : id ∈ (addAll holds (inputs.additions pair holds.ids (inputs.dropped pair holds.ids))).ids) :
      id ∈ holds.ids ∨ ∃ a ∈ holds.ids, inputs.Linked pair a id :=
    (mem_addAll.1 member).imp_right fun added => ((mem_additions pair inputs).1 added).2
  refine ⟨addAll_nodup closing.distinct _, fun id start => mem_addAll.2 (.inl (closing.starts id start)), ?_, ?_, ?_, ?_⟩
  · intro id member
    rcases new member with old | ⟨a, -, link⟩
    · exact closing.eligible id old
    · exact link.1
  · intro id member
    rcases new member with old | ⟨a, inside, link⟩
    · exact closing.reached id old
    · obtain ⟨start, first, chained⟩ := closing.reached a inside
      exact ⟨start, first, chained.tail link⟩
  · rw [addAll_transient, closing.transient]
  · rw [addAll_causes]
    intro entry member cause counted
    rcases mem_append.1 member with old | added
    · obtain ⟨inside, link⟩ := closing.linked entry old cause counted
      exact ⟨mem_addAll.2 (.inl inside), link⟩
    · obtain ⟨inside, link⟩ := mem_additions_causes pair inputs added counted
      exact ⟨mem_addAll.2 (.inl inside), link⟩

theorem exists_closeHolds {initial : List (String × HoldReason)} (distinct : (initial.map fst).Nodup)
    (allowed : ∀ id ∈ initial.map fst, inputs.eligible id) :
    ∃ holds, inputs.closeHolds pair initial = some holds ∧ Closing pair inputs initial holds ∧
      inputs.Closed pair holds.ids := by
  have bound {holds : Holds} (closing : Closing pair inputs initial holds) : holds.ids.length ≤ inputs.rows.length := by
    rw [← length_map (f := Row.id)]
    exact (closing.distinct.subperm fun id member => eligible_known inputs (closing.eligible id member)).length_le
  have falls : ∀ holds larger, Closing pair inputs initial holds → inputs.closeRound pair holds = some larger →
      inputs.rows.length - larger.ids.length < inputs.rows.length - holds.ids.length := by
    intro holds larger closing grown
    have next := closing_step pair inputs closing grown
    obtain ⟨same, b, fresh, added⟩ := closeRound_eq_some pair inputs grown
    have grows : (b :: holds.ids).Subperm larger.ids := by
      refine (nodup_cons.2 ⟨fresh, closing.distinct⟩).subperm fun id member => ?_
      rcases mem_cons.1 member with rfl | old
      · exact added
      · rw [same]
        exact mem_addAll.2 (.inl old)
    have longer := grows.length_le
    have within := bound next
    rw [length_cons] at longer
    omega
  have start := closing_start pair inputs distinct allowed
  have keeps (holds larger : Holds) (closing : Closing pair inputs initial holds) :
      inputs.closeRound pair holds = some larger → Closing pair inputs initial larger := closing_step pair inputs closing
  obtain ⟨holds, run, done, closing⟩ := exists_saturate keeps falls start
    (show inputs.rows.length - (Holds.mk initial []).ids.length < inputs.rows.length + 1 by omega)
  exact ⟨holds, run, closing, closeRound_eq_none pair inputs done⟩

end

theorem Closing.mem_iff (closing : Closing pair inputs initial holds)
    (closed : inputs.Closed pair holds.ids) :
    id ∈ holds.ids ↔ ∃ start ∈ initial.map fst, inputs.Chained pair start id := by
  constructor
  · exact closing.reached id
  · rintro ⟨start, first, chained⟩
    exact Closed.chained pair closed (closing.starts start first) chained

theorem foldl_setDefault {found : List String} (held : ∀ id ∈ found, inputs.eligible id) (reason : HoldReason)
    (distinct : (reasons.map fst).Nodup)
    (allowed : ∀ id ∈ reasons.map fst, inputs.eligible id) :
    let after := found.foldl (fun reasons id => setDefault reasons id reason) reasons
    (after.map fst).Nodup ∧ ∀ id ∈ after.map fst, inputs.eligible id := by
  induction found generalizing reasons with
  | nil => exact ⟨distinct, allowed⟩
  | cons id rest ih =>
    refine ih (fun other member => held other (.tail _ member)) (setDefault_nodup distinct _ _) ?_
    intro other member
    rcases mem_setDefault.1 member with old | rfl
    · exact allowed other old
    · exact held other (.head _)

theorem initialReasons_valid : ((inputs.initialReasons pair).map fst).Nodup ∧
    ∀ id ∈ (inputs.initialReasons pair).map fst, inputs.eligible id := by
  unfold Inputs.initialReasons
  have all : ∀ sources : List (List String × HoldReason), ∀ reasons : List (String × HoldReason),
      (reasons.map fst).Nodup → (∀ id ∈ reasons.map fst, inputs.eligible id) →
      let after := sources.foldl (fun reasons found =>
        (found.1.filter inputs.eligible).foldl (fun reasons id => setDefault reasons id found.2) reasons) reasons
      (after.map fst).Nodup ∧ ∀ id ∈ after.map fst, inputs.eligible id := by
    intro sources
    induction sources with
    | nil => exact fun reasons distinct allowed => ⟨distinct, allowed⟩
    | cons found rest ih =>
      intro reasons distinct allowed
      obtain ⟨next, fine⟩ := foldl_setDefault inputs (fun id member => (mem_filter.1 member).2) found.2 distinct allowed
      exact ih _ next fine
  exact all _ [] nodup_nil fun id member => absurd member not_mem_nil

def Traced (initial : List (String × HoldReason)) (transient : List String) : Prop :=
  ∀ id ∈ transient, ∃ start ∈ (initial.filter fun entry => isTransient entry.2).map fst, inputs.Chained pair start id

theorem traced_grow (closing : Closing pair inputs initial holds)
    (traced : Traced pair inputs initial transient)
    (grown : growTransient holds transient = some larger) : Traced pair inputs initial larger := by
  unfold growTransient at grown
  simp only at grown
  split at grown
  · exact absurd grown (by simp)
  · obtain rfl := Option.some.inj grown
    intro id member
    rcases mem_append.1 member with old | new
    · exact traced id old
    · obtain ⟨-, -, caused, inside⟩ := (mem_filter.1 new).imp_right of_decide_eq_true
      obtain ⟨cause, counted⟩ := exists_mem_of_ne_nil _ caused
      obtain ⟨start, first, chained⟩ := traced cause (of_decide_eq_true (all_eq_true.1 inside cause counted))
      obtain ⟨entry, among, counted⟩ := mem_flatMap.1 counted
      obtain ⟨known, same⟩ := mem_filter.1 among
      have link := (closing.linked entry known cause counted).2
      rw [of_decide_eq_true same] at link
      exact ⟨start, first, chained.tail link⟩

def waiting (holds : Holds) (transient : List String) : List String :=
  (holds.causes.map fst).eraseDups.filter fun id => id ∉ transient

theorem waiting_le (holds : Holds) (transient : List String) : (waiting holds transient).length ≤ holds.causes.length := by
  rw [← length_map (f := fst)]
  refine ((((Lib.Ranking.eraseDups_nodup _).filter _).subperm fun id member => ?_)).length_le
  exact mem_eraseDups.1 (mem_filter.1 member).1

theorem growTransient_eq_some (grown : growTransient holds transient = some larger) :
    ∃ more, larger = transient ++ more ∧ ∃ id ∈ more, id ∈ waiting holds transient := by
  unfold growTransient at grown
  simp only at grown
  split at grown
  · exact absurd grown (by simp)
  case isFalse nonempty =>
    obtain ⟨id, member⟩ := exists_mem_of_ne_nil _ nonempty
    obtain ⟨known, fresh, -⟩ := (mem_filter.1 member).imp_right of_decide_eq_true
    exact ⟨_, (Option.some.inj grown).symm, id, member, mem_filter.2 ⟨known, decide_eq_true fresh⟩⟩

theorem waiting_falls (grown : growTransient holds transient = some larger) :
    (waiting holds larger).length < (waiting holds transient).length := by
  obtain ⟨more, rfl, id, new, among⟩ := growTransient_eq_some grown
  have fewer : waiting holds (transient ++ more) = (waiting holds transient).filter fun id => id ∉ more := by
    unfold waiting
    rw [filter_filter]
    refine filter_congr fun id _ => ?_
    simp [mem_append, Bool.and_comm]
  rw [fewer, length_filter_lt_length_iff_exists]
  exact ⟨id, among, by simpa using new⟩

theorem exists_transientIds (closing : Closing pair inputs initial holds) :
    ∃ transient, transientIds holds = some transient ∧ Traced pair inputs initial transient ∧
      ∀ id ∈ (initial.filter fun entry => isTransient entry.2).map fst, id ∈ transient := by
  let first := (initial.filter fun entry => isTransient entry.2).map fst
  let Valid (transient : List String) : Prop := Traced pair inputs initial transient ∧ ∀ id ∈ first, id ∈ transient
  have keeps (transient larger : List String) (valid : Valid transient) (grown : growTransient holds transient = some larger) :
      Valid larger := by
    refine ⟨traced_grow pair inputs closing valid.1 grown, fun id member => ?_⟩
    obtain ⟨more, rfl, -⟩ := growTransient_eq_some grown
    exact mem_append_left _ (valid.2 id member)
  have start : Valid first := ⟨fun id member => ⟨id, member, .refl⟩, fun id member => member⟩
  have same : transientIds holds = saturate (growTransient holds) (holds.causes.length + 1) first := by
    rw [transientIds, closing.transient]
  rw [same]
  obtain ⟨transient, run, -, valid⟩ := exists_saturate keeps (fun _ _ _ grown => waiting_falls grown) start
    (Nat.lt_succ_of_le (waiting_le holds first))
  exact ⟨transient, run, valid.1, valid.2⟩

section
variable [DecidableEq ι]

/-- The holds are the least rows that contain the first ones and every row of a dropped pair that can be held. -/
theorem raw_observation_holds_least : ∃ holds, inputs.rawObservationHolds pair = some holds ∧
    (∀ id ∈ (inputs.initialReasons pair).map fst, id ∈ holds.blockedIds) ∧ inputs.Closed pair holds.blockedIds ∧
    ∀ others, (∀ id ∈ (inputs.initialReasons pair).map fst, id ∈ others) → inputs.Closed pair others →
      ∀ id ∈ holds.blockedIds, id ∈ others := by
  obtain ⟨distinct, allowed⟩ := initialReasons_valid pair inputs
  obtain ⟨holds, closes, closing, closed⟩ := exists_closeHolds pair inputs distinct allowed
  obtain ⟨transient, found, -⟩ := exists_transientIds pair inputs closing
  refine ⟨_, by rw [Inputs.rawObservationHolds, closes, Option.bind_eq_bind, Option.bind_some, found]; rfl,
    closing.starts, closed, fun others starts fixed id member => ?_⟩
  obtain ⟨start, first, chained⟩ := closing.reached id member
  exact Closed.chained pair fixed (starts start first) chained

def Inputs.permanentReasons : List (String × HoldReason) :=
  (inputs.initialReasons pair).filter fun entry => !isTransient entry.2

/-- No transient hold is held by the permanent ones alone if and only if no chain of dropped pairs leads from a first
hold that is permanent to one that is transient. -/
theorem transient_holds_clear : ∃ holds permanent, inputs.rawObservationHolds pair = some holds ∧
    inputs.closeHolds pair (inputs.permanentReasons pair) = some permanent ∧
    ((∀ id ∈ holds.transientIds, id ∉ permanent.ids) ↔
      ∀ lasting ∈ inputs.initialReasons pair, ∀ passing ∈ inputs.initialReasons pair,
        isTransient lasting.2 = false → isTransient passing.2 = true → ¬ inputs.Chained pair lasting.1 passing.1) := by
  obtain ⟨distinct, allowed⟩ := initialReasons_valid pair inputs
  obtain ⟨holds, closes, closing, closed⟩ := exists_closeHolds pair inputs distinct allowed
  obtain ⟨transient, found, traced, starts⟩ := exists_transientIds pair inputs closing
  have fewer : (inputs.permanentReasons pair).Sublist (inputs.initialReasons pair) := filter_sublist
  obtain ⟨permanent, alone, lasting, fixed⟩ := exists_closeHolds pair inputs (distinct.sublist (fewer.map _))
    fun id member => allowed id ((fewer.map _).subset member)
  refine ⟨_, permanent, by rw [Inputs.rawObservationHolds, closes, Option.bind_eq_bind, Option.bind_some, found]; rfl,
    alone, ?_⟩
  simp only [lasting.mem_iff pair inputs fixed]
  constructor
  · intro clear stays known passes among permanently briefly chained
    have passing : passes.1 ∈ transient :=
      starts _ (mem_map_of_mem (mem_filter.2 ⟨among, briefly⟩))
    refine clear passes.1 passing ⟨stays.1, mem_map_of_mem (mem_filter.2 ⟨known, ?_⟩), chained⟩
    rw [permanently]
    rfl
  · rintro apart id passing ⟨start, first, chained⟩
    obtain ⟨origin, among, reached⟩ := traced id passing
    obtain ⟨stays, known, rfl⟩ := mem_map.1 first
    obtain ⟨passes, listed, rfl⟩ := mem_map.1 among
    obtain ⟨known, permanently⟩ := mem_filter.1 known
    obtain ⟨listed, briefly⟩ := mem_filter.1 listed
    have back := Chained.symm pair (allowed _ (mem_map_of_mem listed)) reached
    exact apart stays known passes listed (by simpa using permanently) briefly (chained.trans back)

end

end

/-- An outgoing row that was paired with a pending receipt also pays two own wallets that no interpreter explains. -/
def fanoutWithPendingPartner : Inputs Unit :=
  let scope := some ("bitcoin", "main", "f0", "BTC")
  let rows : List Row :=
    [{ id := "p", walletId := "w1", direction := .outbound, amount := 190, scope := scope },
      { id := "r", walletId := "w2", direction := .inbound, amount := 60, scope := scope },
      { id := "s", walletId := "w3", direction := .inbound, amount := 40, scope := scope },
      { id := "a", walletId := "w4", direction := .inbound, amount := 90 }]
  { rows := rows, derivationRows := rows, pairInputs := [()], hasChainEvents := true, conflictingSpendIds := [],
    pendingOnchainIds := ["a"], excludedIds := [], blockedIds := [], resolvedIds := [] }

/-- The pending receipt is a transient hold although the fan-out holds it too. -/
theorem transient_hold_depends_on_fanout :
    let pair (_ : Unit) : Pair := { outgoing := { id := "p" }, incoming := { id := "a" } }
    (fanoutWithPendingPartner.rawObservationHolds pair).map RawObservationHolds.transientIds = some ["a"] ∧
      (fanoutWithPendingPartner.closeHolds pair (fanoutWithPendingPartner.permanentReasons pair)).map Holds.ids =
        some ["p", "r", "s", "a"] := by
  decide +kernel

end Kassiber.Custody.ObservationHolds

import Kassiber.Lib.Keyed
import Kassiber.Transfers.Consolidations

/-!
What the legs of a consolidation carry. The shares of the senders and the credits of the destinations have the same
total, so each share is given away and each credit is filled; a fee rides on the part its sender's share starts with.
-/

namespace Kassiber.Transfers.Consolidations
open Lib.Outcome Lib.Sums Lib.Overlaps Lib.Keyed Custody.Fifo
open List hiding mapM_map
open Prod (fst snd)

/-! ### Shares in first-in first-out order -/

theorem allocationBuckets_proper {kind : String} {raw buckets : Buckets}
    (accepted : allocationBuckets kind raw = .ok buckets) : Proper raw := by
  unfold allocationBuckets at accepted
  split at accepted
  · cases accepted
  rename_i valid
  split at accepted
  · cases accepted
  rename_i distinct
  cases accepted
  push Not at valid
  exact ⟨fun bucket member => (valid bucket member).1, fun bucket member => (valid bucket member).2, not_not.1 distinct⟩

theorem allocate_proper {sources sinks : Buckets} {result : DeterministicAllocationResult}
    (allocated : allocateMsatFifo sources sinks none = .ok result) : Proper sources ∧ Proper sinks := by
  obtain ⟨sourceBuckets, first, allocated⟩ := bind_ok.1 allocated
  obtain ⟨sinkBuckets, second, -⟩ := bind_ok.1 allocated
  exact ⟨allocationBuckets_proper first, allocationBuckets_proper second⟩

section
variable {plan : Plan}

theorem Plan.bearer_first {first : TransferRow} {rest : List TransferRow} (found : plan.senders = first :: rest) :
    plan.bearer = some first.id := by
  rw [Plan.bearer, found]
  rfl

theorem Plan.sinks_total : total plan.sinks = (plan.credits.map snd).sum * satsToMsat := by
  rw [total, Plan.sinks, map_map, ← sum_map_mul_right]
  rfl

theorem Plan.Valid.totals (valid : plan.Valid) (distinct : (plan.senders.map TransferRow.id).Nodup) :
    total plan.shares = total plan.sinks := by
  have summed : total plan.shares = (plan.senders.map plan.share).sum := by
    rw [total, Plan.shares, map_map]
    rfl
  rw [Plan.sinks_total, ← valid.balanced, summed]
  by_cases normalized : plan.normalized = true
  · have own : ∀ row ∈ plan.senders, plan.share row = row.amount := fun row _ => by
      rw [Plan.share, if_pos (.inl normalized), add_zero]
    rw [if_pos normalized, add_zero, map_congr_left own]
  · cases found : plan.senders with
    | nil => exact absurd found valid.several
    | cons first rest =>
      rw [found, map_cons, nodup_cons] at distinct
      have bearer := Plan.bearer_first found
      have bears : plan.share first = first.amount := by
        rw [Plan.share, if_pos (.inr bearer), add_zero]
      have others : ∀ row ∈ rest, plan.share row = row.amount + plan.fee := by
        intro row member
        have apart : ¬ (plan.normalized = true ∨ plan.bearer = some row.id) := by
          rintro (shared | same)
          · exact normalized shared
          · rw [bearer] at same
            exact distinct.1 (Option.some.inj same ▸ mem_map_of_mem member)
        rw [Plan.share, if_neg apart]
      rw [if_neg normalized, map_cons, sum_cons, bears, map_congr_left others, sum_map_add,
        map_const', sum_replicate, map_cons, sum_cons, length_cons, nsmul_eq_mul]
      push_cast
      ring

def Plan.parts (plan : Plan) : List (Overlap String String) := overlaps (total plan.sinks) plan.shares plan.sinks

def Plan.senderOf (plan : Plan) (id : String) : Option TransferRow := rowAt TransferRow.id plan.senders id

def Plan.legs (plan : Plan) : List LegPair :=
  plan.parts.filterMap fun part => (plan.senderOf part.left).map (plan.leg (cellOf part))

theorem Plan.shares_ids : plan.shares.map fst = plan.senders.map TransferRow.id := by
  rw [Plan.shares, map_map]
  rfl

theorem Plan.sinks_ids : plan.sinks.map fst = plan.credits.map fst := by
  rw [Plan.sinks, map_map]
  rfl

theorem Plan.Valid.booked (valid : plan.Valid) {consolidation : Consolidation}
    (booked : plan.book = .ok consolidation) :
    Proper plan.shares ∧ Proper plan.sinks ∧ consolidation = { plan, legs := plan.legs } := by
  obtain ⟨allocation, allocated, same⟩ := bind_ok.1 booked
  obtain ⟨proper, proper'⟩ := allocate_proper allocated
  have totals := valid.totals (Plan.shares_ids ▸ proper.distinct)
  have runs : allocateMsatFifo plan.shares plan.sinks none =
      .ok (overlapAllocation plan.shares plan.sinks (total plan.sinks)) :=
    allocateMsatFifo_ok proper proper' (total_nonneg proper'.nonneg) totals.ge le_rfl
  cases runs.symm.trans allocated
  cases same
  refine ⟨proper, proper', ?_⟩
  rw [Plan.legs, overlapAllocation, filterMap_map]
  rfl

variable {sender : TransferRow}

theorem Plan.senderOf_some {id : String} (found : plan.senderOf id = some sender) :
    sender ∈ plan.senders ∧ sender.id = id := ⟨rowAt_mem found, rowAt_key found⟩

variable (distinct : (plan.senders.map TransferRow.id).Nodup)
variable (proper : Proper plan.shares) (proper' : Proper plan.sinks)
include distinct

theorem Plan.senderOf_own (member : sender ∈ plan.senders) :
    plan.senderOf sender.id = some sender := rowAt_of_mem distinct member

include proper proper'

theorem Plan.Valid.sender_sum (valid : plan.Valid) (member : sender ∈ plan.senders) :
    ((plan.legs.filter fun leg => leg.out.journalTransactionId = sender.id).map fun leg =>
      leg.out.amount + leg.out.fee).sum =
        plan.share sender + if 0 < plan.share sender then plan.feeOf sender else 0 := by
  have listed : (sender.id, plan.share sender) ∈ plan.shares := mem_map_of_mem member
  have labels : (plan.shares.map fst).Nodup := proper.distinct
  have totals := valid.totals distinct
  have each : ∀ part ∈ plan.parts,
      ((((plan.senderOf part.left).map (plan.leg (cellOf part))).map fun leg =>
        if leg.out.journalTransactionId = sender.id then leg.out.amount + leg.out.fee else 0)).getD 0 =
      if part.left = sender.id then part.length + if part.leftStart = 0 then plan.feeOf sender else 0 else 0 := by
    intro part _
    by_cases own : part.left = sender.id
    · rw [own, Plan.senderOf_own distinct member, if_pos rfl, Option.map_some, Option.map_some, Option.getD_some]
      exact if_pos own
    · rw [if_neg own]
      cases plan.senderOf part.left with
      | none => rfl
      | some other => exact if_neg own
  rw [sum_filter, Plan.legs, sum_filterMap, map_congr_left each, ← sum_filter, sum_map_add, Plan.parts,
    sum_left labels proper.nonneg proper'.nonneg totals.le totals.le listed,
    sum_left_first labels proper.nonneg proper'.nonneg totals.le totals.le listed]

theorem Plan.Valid.credit_sum (valid : plan.Valid) {credit : String × Int} (member : credit ∈ plan.credits) :
    ((plan.legs.filter fun leg => leg.into.walletId = credit.1).map fun leg => leg.into.amount).sum =
      credit.2 * satsToMsat := by
  have listed : (credit.1, credit.2 * satsToMsat) ∈ plan.sinks :=
    mem_map_of_mem (f := fun credit => (credit.1, credit.2 * satsToMsat)) member
  have totals := valid.totals distinct
  have each : ∀ part ∈ plan.parts,
      ((((plan.senderOf part.left).map (plan.leg (cellOf part))).map fun leg =>
        if leg.into.walletId = credit.1 then leg.into.amount else 0)).getD 0 =
      if part.right = credit.1 then part.length else 0 := by
    intro part inside
    have known : part.left ∈ plan.senders.map TransferRow.id := Plan.shares_ids ▸ overlaps_left inside
    obtain ⟨sender, own, same⟩ := mem_map.1 known
    rw [← same, Plan.senderOf_own distinct own]
    rfl
  rw [sum_filter, Plan.legs, sum_filterMap, map_congr_left each, ← sum_filter, Plan.parts,
    sum_right proper'.distinct proper.nonneg proper'.nonneg le_rfl totals.ge listed]

end

def LegSuffix (suffix : String) : Prop := suffix = "" ∨ ∃ rest, suffix = ":" ++ rest

def LegDirection (direction : String) : Prop := direction = "out" ∨ direction = "in"

variable {wallet suffix direction direction' : String}

theorem plain_read (plain : ':' ∉ wallet.toList) (form : LegSuffix suffix) :
    (wallet.toList ++ suffix.toList).takeWhile (fun char => char ≠ ':') = wallet.toList := by
  have inside : ∀ char ∈ wallet.toList, decide (char ≠ ':') = true :=
    fun char member => decide_eq_true fun same => plain (same ▸ member)
  rw [takeWhile_append_of_pos inside]
  rcases form with rfl | ⟨rest, rfl⟩
  · exact append_nil _
  · rw [String.toList_append]
    exact append_nil _

theorem directions_read (known : LegDirection direction)
    (known' : LegDirection direction') {rest rest' : List Char}
    (same : direction.toList ++ rest = direction'.toList ++ rest') :
    direction = direction' ∧ rest = rest' := by
  have first : ∀ {left right : List Char}, "out".toList ++ left ≠ "in".toList ++ right :=
    fun same => absurd (List.cons.inj same).1 (by decide)
  rcases known with rfl | rfl <;> rcases known' with rfl | rfl
  · exact ⟨rfl, append_cancel_left same⟩
  · exact absurd same first
  · exact absurd same.symm first
  · exact ⟨rfl, append_cancel_left same⟩

theorem legId_chars (txid direction wallet suffix : String) :
    (legId txid direction wallet suffix).toList = "multi-consol:".toList ++ (txid.toList ++ (":".toList ++
      (direction.toList ++ (":".toList ++ (wallet.toList ++ suffix.toList))))) := by
  unfold legId
  rw [String.toList_append, String.toList_append, String.toList_append, String.toList_append, String.toList_append,
    String.toList_append]
  simp only [List.append_assoc]

theorem legId_inj {txid txid' wallet' suffix' : String}
    (length : txid.length = txid'.length) (known : LegDirection direction) (known' : LegDirection direction')
    (plain : ':' ∉ wallet.toList) (plain' : ':' ∉ wallet'.toList) (form : LegSuffix suffix) (form' : LegSuffix suffix')
    (same : legId txid direction wallet suffix = legId txid' direction' wallet' suffix') :
    txid = txid' ∧ direction = direction' ∧ wallet = wallet' ∧ suffix = suffix' := by
  have chars := congrArg String.toList same
  rw [legId_chars, legId_chars] at chars
  have lengths : txid.toList.length = txid'.toList.length := by rw [String.length_toList, String.length_toList, length]
  obtain ⟨txids, chars⟩ := append_inj (append_cancel_left chars) lengths
  obtain ⟨directions, chars⟩ := directions_read known known' (append_cancel_left chars)
  have tail : wallet.toList ++ suffix.toList = wallet'.toList ++ suffix'.toList := append_cancel_left chars
  have wallets : wallet.toList = wallet'.toList := by
    rw [← plain_read plain form, tail, plain_read plain' form']
  rw [wallets] at tail
  exact ⟨String.toList_injective txids, directions, String.toList_injective wallets,
    String.toList_injective (append_cancel_left tail)⟩

section
variable {plan : Plan}

theorem Plan.suffix_form (destination : String) : LegSuffix (plan.suffix destination) := by
  unfold Plan.suffix
  split
  · exact .inr ⟨destination, rfl⟩
  · exact .inl rfl

theorem Plan.suffix_inj {left right : String} (member : left ∈ plan.credits.map fst)
    (member' : right ∈ plan.credits.map fst) (same : plan.suffix left = plan.suffix right) : left = right := by
  unfold Plan.suffix at same
  split at same
  · have chars := congrArg String.toList same
    rw [String.toList_append, String.toList_append] at chars
    exact String.toList_injective (append_cancel_left chars)
  · rename_i single
    obtain ⟨i, inside, rfl⟩ := getElem_of_mem member
    obtain ⟨j, inside', rfl⟩ := getElem_of_mem member'
    have length : (plan.credits.map fst).length = plan.credits.length := length_map _
    have here : i = j := by omega
    simp only [here]

def Plan.Reaches (plan : Plan) (wallet destination : String) : Prop :=
  ∃ part ∈ plan.parts, part.right = destination ∧
    ∃ sender ∈ plan.senders, sender.id = part.left ∧ sender.walletId = wallet

/-- Two events of one transaction in which a wallet's share reaches the same destination, or the only one of each. -/
def Plan.Crosses (plan other : Plan) : Prop :=
  plan.txid = other.txid ∧ ∃ wallet destination destination', plan.Reaches wallet destination ∧
    other.Reaches wallet destination' ∧ plan.suffix destination = other.suffix destination'

def LegPair.ids (leg : LegPair) : List String := [leg.out.id, leg.into.id]

theorem mem_legs {leg : LegPair} (member : leg ∈ plan.legs) : ∃ part ∈ plan.parts, ∃ sender,
    plan.senderOf part.left = some sender ∧ leg = plan.leg (cellOf part) sender := by
  obtain ⟨part, inside, made⟩ := mem_filterMap.1 member
  obtain ⟨sender, found, rfl⟩ := Option.map_eq_some_iff.1 made
  exact ⟨part, inside, sender, found, rfl⟩

theorem mem_ids {id : String} : id ∈ plan.legs.flatMap LegPair.ids →
    ∃ wallet destination direction, plan.Reaches wallet destination ∧ LegDirection direction ∧
      id = legId plan.txid direction wallet (plan.suffix destination) := by
  intro listed
  obtain ⟨leg, member, named⟩ := mem_flatMap.1 listed
  obtain ⟨part, inside, sender, found, rfl⟩ := mem_legs member
  obtain ⟨own, same⟩ := Plan.senderOf_some found
  have reaches : plan.Reaches sender.walletId part.right := ⟨part, inside, rfl, sender, own, same, rfl⟩
  rcases mem_cons.1 named with rfl | second
  · exact ⟨_, _, "out", reaches, .inl rfl, rfl⟩
  · exact ⟨_, _, "in", reaches, .inr rfl, mem_singleton.1 second⟩

variable {wallet destination : String}

theorem reaches_id (distinct : (plan.senders.map TransferRow.id).Nodup)
    (reaches : plan.Reaches wallet destination) :
    legId plan.txid "out" wallet (plan.suffix destination) ∈ plan.legs.flatMap LegPair.ids := by
  obtain ⟨part, inside, rfl, sender, own, same, rfl⟩ := reaches
  have found := Plan.senderOf_own distinct own
  rw [same] at found
  exact mem_flatMap.2 ⟨plan.leg (cellOf part) sender,
    mem_filterMap.2 ⟨part, inside, by rw [found, Option.map_some]⟩, mem_cons_self⟩

theorem Plan.Valid.reaches_plain (valid : plan.Valid)
    (reaches : plan.Reaches wallet destination) : ':' ∉ wallet.toList := by
  obtain ⟨part, -, -, sender, own, -, rfl⟩ := reaches
  exact valid.plainSender sender own

theorem Plan.Valid.ids_read {other : Plan} (valid : plan.Valid) (valid' : other.Valid)
    {direction direction' wallet' destination' : String} (known : LegDirection direction)
    (known' : LegDirection direction') (plain : ':' ∉ wallet.toList) (plain' : ':' ∉ wallet'.toList)
    (same : legId plan.txid direction wallet (plan.suffix destination) =
      legId other.txid direction' wallet' (other.suffix destination')) :
    plan.txid = other.txid ∧ direction = direction' ∧ wallet = wallet' ∧
      plan.suffix destination = other.suffix destination' :=
  legId_inj (valid.canonical.trans valid'.canonical.symm) known known' plain plain' (Plan.suffix_form _)
    (Plan.suffix_form _) same

theorem disjoint_ids {other : Plan} (valid : plan.Valid) (valid' : other.Valid)
    (distinct : (plan.senders.map TransferRow.id).Nodup) (distinct' : (other.senders.map TransferRow.id).Nodup) :
    List.Disjoint (plan.legs.flatMap LegPair.ids) (other.legs.flatMap LegPair.ids) ↔ ¬ plan.Crosses other := by
  constructor
  · rintro apart ⟨txid, wallet, destination, destination', reaches, reaches', suffix⟩
    have first := reaches_id distinct reaches
    rw [txid, suffix] at first
    exact apart first (reaches_id distinct' reaches')
  · intro apart id listed listed'
    obtain ⟨wallet, destination, direction, reaches, known, rfl⟩ := mem_ids listed
    obtain ⟨wallet', destination', direction', reaches', known', same⟩ := mem_ids listed'
    obtain ⟨txid, -, rfl, suffix⟩ := valid.ids_read valid' known known' (valid.reaches_plain reaches)
      (valid'.reaches_plain reaches') same
    exact apart ⟨txid, wallet, destination, destination', reaches, reaches', suffix⟩

theorem Plan.Valid.ids_distinct (valid : plan.Valid) (proper : Proper plan.shares) (proper' : Proper plan.sinks) :
    (plan.legs.flatMap LegPair.ids).Nodup := by
  have pairs : plan.parts.Pairwise fun part other => (part.left, part.right) ≠ (other.left, other.right) :=
    pairwise_map.1 (overlaps_pairs proper.distinct proper'.distinct)
  rw [nodup_flatMap]
  constructor
  · intro leg member
    obtain ⟨part, -, sender, found, rfl⟩ := mem_legs member
    have plain := valid.plainSender sender (Plan.senderOf_some found).1
    refine nodup_cons.2 ⟨fun same => ?_, nodup_singleton _⟩
    exact absurd (valid.ids_read valid (.inl rfl) (.inr rfl) plain plain (mem_singleton.1 same)).2.1 (by decide)
  · refine pairwise_filterMap.2 (pairs.imp_of_mem fun {part other} inside inside' apart leg made leg' made' => ?_)
    obtain ⟨sender, found, rfl⟩ := Option.map_eq_some_iff.1 made
    obtain ⟨sender', found', rfl⟩ := Option.map_eq_some_iff.1 made'
    obtain ⟨own, named⟩ := Plan.senderOf_some found
    obtain ⟨own', named'⟩ := Plan.senderOf_some found'
    have key : ∀ {direction direction'}, LegDirection direction → LegDirection direction' →
        legId plan.txid direction sender.walletId (plan.suffix part.right) ≠
          legId plan.txid direction' sender'.walletId (plan.suffix other.right) := by
      intro direction direction' known known' same
      obtain ⟨-, -, wallets, suffix⟩ := valid.ids_read valid known known' (valid.plainSender sender own)
        (valid.plainSender sender' own') same
      have senders : sender = sender' := inj_on_of_nodup_map valid.apart own own' wallets
      have sinks := Plan.suffix_inj (Plan.sinks_ids ▸ overlaps_right inside)
        (Plan.sinks_ids ▸ overlaps_right inside') suffix
      exact apart (Prod.ext (named.symm.trans (senders ▸ named')) sinks)
    intro id listed listed'
    rcases mem_cons.1 listed with rfl | second <;> rcases mem_cons.1 listed' with same | second'
    · exact key (.inl rfl) (.inl rfl) same
    · exact key (.inl rfl) (.inr rfl) (mem_singleton.1 second')
    · exact key (.inr rfl) (.inl rfl) ((mem_singleton.1 second).symm.trans same)
    · exact key (.inr rfl) (.inr rfl) ((mem_singleton.1 second).symm.trans (mem_singleton.1 second'))

end

/-! ### Exact and distinct consolidations -/

/-- Every sender that carries its fee next to its principal has a principal. -/
def Plan.Bearing (plan : Plan) : Prop :=
  ∀ sender ∈ plan.senders, plan.normalized = true ∨ plan.bearer = some sender.id → 0 < sender.amount

instance (plan : Plan) : Decidable plan.Bearing := inferInstanceAs (Decidable (∀ _ ∈ _, _))

def Plan.outflow (plan : Plan) : Int :=
  if plan.normalized = true then (plan.senders.map fun sender => sender.amount + sender.fee).sum
  else (plan.senders.map TransferRow.amount).sum + plan.senders.length * plan.fee

structure Consolidation.Exact (consolidation : Consolidation) : Prop where
  moved : ∀ leg ∈ consolidation.legs, leg.out.amount = leg.into.amount
  credited : ∀ credit ∈ consolidation.plan.credits,
    ((consolidation.legs.filter fun leg => leg.into.walletId = credit.1).map fun leg => leg.into.amount).sum =
      credit.2 * satsToMsat
  outflow : (consolidation.legs.map fun leg => leg.out.amount + leg.out.fee).sum = consolidation.plan.outflow
  fees : ∀ sender ∈ consolidation.plan.senders,
    ((consolidation.legs.filter fun leg => leg.out.journalTransactionId = sender.id).map fun leg =>
      leg.out.amount + leg.out.fee).sum = sender.amount + sender.fee

structure ConservesDistinct (resolved : List Consolidation) : Prop where
  exact : ∀ consolidation ∈ resolved, consolidation.Exact
  distinct : ((syntheticRows resolved).map LegRow.id).Nodup

section
variable {plan : Plan}

theorem Plan.Valid.whole_iff (valid : plan.Valid) {sender : TransferRow} (member : sender ∈ plan.senders) :
    (plan.share sender + if 0 < plan.share sender then plan.feeOf sender else 0) = sender.amount + sender.fee ↔
      (plan.normalized = true ∨ plan.bearer = some sender.id → 0 < sender.amount) := by
  by_cases bears : plan.normalized = true ∨ plan.bearer = some sender.id
  · have share : plan.share sender = sender.amount := by rw [Plan.share, if_pos bears, add_zero]
    have fee : plan.feeOf sender = sender.fee := by
      unfold Plan.feeOf
      split
      · rfl
      · rename_i shared
        rw [if_pos (bears.resolve_left shared), valid.shared (Bool.eq_false_of_not_eq_true shared) sender member]
    rw [share, fee]
    by_cases positive : 0 < sender.amount
    · rw [if_pos positive]
      exact ⟨fun _ _ => positive, fun _ => rfl⟩
    · have charged := ((valid.sender sender member).2.resolve_left positive).2
      rw [if_neg positive]
      exact ⟨fun same => by omega, fun holds => absurd (holds bears) positive⟩
  · obtain ⟨shared, other⟩ := not_or.1 bears
    have own := valid.shared (Bool.eq_false_of_not_eq_true shared) sender member
    rw [Plan.share, Plan.feeOf, if_neg bears, if_neg shared, if_neg other, own, ite_self, add_zero]
    exact ⟨fun _ holds => absurd holds bears, fun _ => rfl⟩

theorem Plan.Valid.outflow_eq (valid : plan.Valid) :
    plan.outflow = (plan.senders.map fun sender => sender.amount + sender.fee).sum := by
  unfold Plan.outflow
  split
  · rfl
  · rename_i shared
    have own : ∀ sender ∈ plan.senders, sender.amount + sender.fee = sender.amount + plan.fee := fun sender member => by
      rw [valid.shared (Bool.eq_false_of_not_eq_true shared) sender member]
    rw [map_congr_left own, sum_map_add, map_const', sum_replicate, nsmul_eq_mul]

theorem Plan.Valid.exact_iff (valid : plan.Valid) (proper : Proper plan.shares) (proper' : Proper plan.sinks) :
    Consolidation.Exact { plan, legs := plan.legs } ↔ plan.Bearing := by
  have distinct : (plan.senders.map TransferRow.id).Nodup := Plan.shares_ids ▸ proper.distinct
  have sums := fun sender member => @Plan.Valid.sender_sum plan sender distinct proper proper' valid member
  constructor
  · intro exact sender member
    rw [← valid.whole_iff member, ← sums sender member]
    exact exact.fees sender member
  · intro bearing
    have fees : ∀ sender ∈ plan.senders, ((plan.legs.filter fun leg => leg.out.journalTransactionId = sender.id).map
        fun leg => leg.out.amount + leg.out.fee).sum = sender.amount + sender.fee := fun sender member => by
      rw [sums sender member]
      exact (valid.whole_iff member).2 (bearing sender member)
    refine ⟨fun leg member => ?_, fun credit member => valid.credit_sum distinct proper proper' member, ?_, fees⟩
    · obtain ⟨part, -, sender, -, rfl⟩ := mem_legs member
      rfl
    · have keyed : ∀ leg ∈ plan.legs, leg.out.journalTransactionId ∈ plan.senders.map TransferRow.id := by
        intro leg member
        obtain ⟨part, inside, sender, found, rfl⟩ := mem_legs member
        exact mem_map.2 ⟨sender, (Plan.senderOf_some found).1, (Plan.senderOf_some found).2⟩
      dsimp only
      rw [sum_fibers (fun leg => leg.out.journalTransactionId) distinct _ keyed, map_map, valid.outflow_eq]
      exact congrArg sum (map_congr_left fees)

end

section
variable {index : OwnershipIndex} {input : DeriveInput} {resolved : List Consolidation}

theorem resolved_plans (derived : deriveMultiSourceConsolidations index input = .ok resolved) :
    resolved.map Consolidation.plan = plans index input := by
  refine (mapM_map (g := Consolidation.plan) (h := id) (fun plan consolidation booked => ?_) derived).trans (map_id _)
  obtain ⟨allocation, -, same⟩ := bind_ok.1 booked
  cases same
  rfl

theorem resolved_booked (derived : deriveMultiSourceConsolidations index input = .ok resolved)
    {consolidation : Consolidation} (member : consolidation ∈ resolved) :
    consolidation.plan.Valid ∧ Proper consolidation.plan.shares ∧ Proper consolidation.plan.sinks ∧
      consolidation = { plan := consolidation.plan, legs := consolidation.plan.legs } := by
  obtain ⟨plan, listed, booked⟩ := mapM_outputs derived member
  have valid := plans_valid listed
  obtain ⟨proper, proper', rfl⟩ := valid.booked booked
  exact ⟨valid, proper, proper', rfl⟩

/-- Consolidations are exact with distinct ids when no bearer is without principal and no two events cross. -/
theorem conserves_distinct_iff (derived : deriveMultiSourceConsolidations index input = .ok resolved) :
    ConservesDistinct resolved ↔ (∀ plan ∈ plans index input, plan.Bearing) ∧
      (plans index input).Pairwise fun plan other => ¬ plan.Crosses other := by
  have booked := fun consolidation member => @resolved_booked index input resolved derived consolidation member
  have exact_iff : (∀ consolidation ∈ resolved, consolidation.Exact) ↔ ∀ plan ∈ plans index input, plan.Bearing := by
    rw [← resolved_plans derived, forall_mem_map]
    refine forall₂_congr fun consolidation member => ?_
    obtain ⟨valid, proper, proper', same⟩ := booked consolidation member
    rw [same]
    exact valid.exact_iff proper proper'
  have ids : (syntheticRows resolved).map LegRow.id = resolved.flatMap fun consolidation =>
      consolidation.plan.legs.flatMap LegPair.ids := by
    unfold syntheticRows Consolidation.rows
    rw [map_flatMap]
    refine flatMap_congr fun consolidation member => ?_
    rw [map_flatMap, (booked consolidation member).2.2.2]
    rfl
  have distinct_iff : ((syntheticRows resolved).map LegRow.id).Nodup ↔
      (plans index input).Pairwise fun plan other => ¬ plan.Crosses other := by
    rw [ids, nodup_flatMap, ← resolved_plans derived, pairwise_map]
    have own : ∀ consolidation ∈ resolved, (consolidation.plan.senders.map TransferRow.id).Nodup :=
      fun consolidation member => Plan.shares_ids ▸ (booked consolidation member).2.1.distinct
    have apart : ∀ {consolidation other : Consolidation}, consolidation ∈ resolved → other ∈ resolved →
        (List.Disjoint (consolidation.plan.legs.flatMap LegPair.ids) (other.plan.legs.flatMap LegPair.ids) ↔
          ¬ consolidation.plan.Crosses other.plan) := fun {consolidation other} member member' =>
      disjoint_ids (booked consolidation member).1 (booked other member').1 (own _ member) (own _ member')
    constructor
    · rintro ⟨-, disjoint⟩
      exact disjoint.imp_of_mem fun member member' => (apart member member').1
    · intro crossing
      refine ⟨fun consolidation member => ?_, crossing.imp_of_mem fun member member' => (apart member member').2⟩
      obtain ⟨valid, proper, proper', -⟩ := booked consolidation member
      exact valid.ids_distinct proper proper'
  rw [← exact_iff, ← distinct_iff]
  exact ⟨fun both => ⟨both.exact, both.distinct⟩, fun both => ⟨both.1, both.2⟩⟩

end

/-! ### A sender whose principal went into the fee -/

def sampleIndex : OwnershipIndex where
  inputOwnerIds _ entry := if entry.script = some "a" then ["A"] else if entry.script = some "b" then ["B"] else []
  outputOwnerIds _ output := if output.script = some "c" then ["C"] else []
  plainInput _ entry wallet := by split_ifs <;> simp +contextual
  plainOutput _ output wallet := by split_ifs <;> simp +contextual

def sampleScope : PhysicalScope where
  chain := "bitcoin"
  network := "main"
  txid := String.ofList (replicate 64 'e')
  asset := "BTC"
  canonical := by decide

def sampleGraph (sats : Int) : ParsedTx where
  inputs := [{ script := some "a", outpoint := some "f:0" }, { script := some "b", outpoint := some "f:1" }]
  outputs := [{ n := 0, script := some "c", valueSats := some sats }]

def sampleSender (id wallet : String) (amount fee sats : Int) (normalized : Bool) : TransferRow where
  id := id
  walletId := wallet
  direction := "outbound"
  asset := "BTC"
  amount := amount
  fee := fee
  custodyNativeFeeNormalized := normalized
  scope := some sampleScope
  parsed := some (sampleGraph sats)

def samplePlan (senders : List TransferRow) (normalized : Bool) (fee sats : Int) : Plan where
  txid := sampleScope.txid
  senders := senders
  normalized := normalized
  fee := fee
  credits := [("C", sats)]
  receipts := []

def feeOnlySenders : List TransferRow :=
  [sampleSender "a-out" "A" 10000000 500 10000 true, sampleSender "b-out" "B" 0 1000 10000 true]

def sharedFeeSenders : List TransferRow :=
  [sampleSender "a-out" "A" 49900000 100000 79900 false, sampleSender "b-out" "B" 29900000 100000 79900 false]

def sampleInput (senders : List TransferRow) : DeriveInput where
  rows := senders
  walletRefs := ["C"]
  alreadyPaired := []

theorem conserves_distinct_of_shared_fee :
    let plan := samplePlan sharedFeeSenders false 100000 79900
    ConservesDistinct [{ plan, legs := plan.legs }] := by
  have planned : plans sampleIndex (sampleInput sharedFeeSenders) =
      [samplePlan sharedFeeSenders false 100000 79900] := by decide +kernel
  refine (@conserves_distinct_iff sampleIndex (sampleInput sharedFeeSenders) _ (by decide +kernel)).2 ?_
  rw [planned]
  exact ⟨by decide +kernel, pairwise_singleton _ _⟩

/-- The second sender's row is dropped, and no leg carries its fee. -/
theorem fee_only_sender_loses_fee :
    ∃ resolved, deriveMultiSourceConsolidations sampleIndex (sampleInput feeOnlySenders) = .ok resolved ∧
      ¬ ConservesDistinct resolved := by
  have derived : deriveMultiSourceConsolidations sampleIndex (sampleInput feeOnlySenders) =
      .ok [{ plan := samplePlan feeOnlySenders true 1500 10000,
             legs := (samplePlan feeOnlySenders true 1500 10000).legs }] := by decide +kernel
  refine ⟨_, derived, fun conserves => ?_⟩
  have kept := (conserves.exact _ (.head _)).fees (sampleSender "b-out" "B" 0 1000 10000 true)
    (by decide +kernel)
  exact absurd kept (by decide +kernel)

end Kassiber.Transfers.Consolidations

import Kassiber.Tax.Coherence

/-!
The walk over the decisions in closed form. The fees that a decision carries depend on the branches of the
decisions before it, so each decision's rows can be read off without running the loop.
-/

namespace Kassiber.Tax
open Custody Lib.Outcome Lib.Dict Lib.Sorting Lib.Propagation List
open Prod (fst)

def Branch.draws : Branch → Prop
  | .move _ _ | .nonEvent | .payout _ _ _ | .external => True
  | .blocked | .held | .fee | .unpriced _ | .retained => False

def Branch.moves : Branch → Prop
  | .move _ _ => True
  | _ => False

instance : (b : Branch) → Decidable b.draws
  | .move _ _ | .nonEvent | .payout _ _ _ | .external => isTrue trivial
  | .blocked | .held | .fee | .unpriced _ | .retained => isFalse id

instance : (b : Branch) → Decidable b.moves
  | .move _ _ => isTrue trivial
  | .blocked | .held | .nonEvent | .fee | .unpriced _ | .payout _ _ _ | .external | .retained => isFalse id

/-- No explicitly blocked transaction breaks the path of the decision. -/
def Clear (ctx : TaxContext) (d : Located) : Prop :=
  ¬ctx.blocked d.source.anchorTransactionId ∧ ∀ target ∈ d.target, ¬ctx.blocked target.2.anchorTransactionId

/-- The decision is final, is not a move and belongs to a tax event. -/
structure Due (ctx : TaxContext) (d : Located) : Prop where
  clear : Clear ctx d
  eligible : ctx.eligible d.decision
  still : d.move = none
  event : d.source.anchorTransactionId ∉ ctx.args.nonEvents

def Leaves (d : ArbitratedSlice) : Prop := d.state = .externalConfirmed ∨ d.state = .externalPresumed

inductive Takes (ctx : TaxContext) (d : Located) : Branch → Prop
  | blocked (broken : ¬Clear ctx d) : Takes ctx d .blocked
  | held (clear : Clear ctx d) (ineligible : ¬ctx.eligible d.decision) : Takes ctx d .held
  | move {slice target} (clear : Clear ctx d) (eligible : ctx.eligible d.decision) (moved : d.move = some (slice, target)) :
    Takes ctx d (.move slice target)
  | nonEvent (clear : Clear ctx d) (eligible : ctx.eligible d.decision) (still : d.move = none)
    (silent : d.source.anchorTransactionId ∈ ctx.args.nonEvents) : Takes ctx d .nonEvent
  | fee (due : Due ctx d) (leaves : Leaves d.decision) (fee : d.decision.destinationKind = some .fee) : Takes ctx d .fee
  | unpriced {payout} (due : Due ctx d) (leaves : Leaves d.decision) (principal : d.decision.destinationKind ≠ some .fee)
    (carried : carryingPayout ctx.args d.source = some payout)
    (worthless : directPayoutSettlementRows ctx.rowsById d.source payout = none) : Takes ctx d (.unpriced payout)
  | payout {payout received sold} (due : Due ctx d) (leaves : Leaves d.decision)
    (principal : d.decision.destinationKind ≠ some .fee) (carried : carryingPayout ctx.args d.source = some payout)
    (settled : directPayoutSettlementRows ctx.rowsById d.source payout = some (received, sold)) :
    Takes ctx d (.payout payout received sold)
  | external (due : Due ctx d) (leaves : Leaves d.decision) (principal : d.decision.destinationKind ≠ some .fee)
    (plain : carryingPayout ctx.args d.source = none) : Takes ctx d .external
  | retained (due : Due ctx d) (kept : ¬Leaves d.decision) : Takes ctx d .retained

theorem branch_takes (ctx : TaxContext) (d : Located) : Takes ctx d (branch ctx d) := by
  unfold branch
  split
  · rename_i broken
    refine .blocked ?_
    rintro ⟨source, target⟩
    rcases broken with first | ⟨t, named, second⟩
    · exact source first
    · exact target t named second
  · rename_i open_
    have clear : Clear ctx d := ⟨fun first => open_ (.inl first), fun t named second => open_ (.inr ⟨t, named, second⟩)⟩
    split
    · rename_i ineligible
      exact .held clear ineligible
    · rename_i eligible
      rw [not_not] at eligible
      split
      · rename_i moved
        exact .move clear eligible moved
      · rename_i still
        split
        · rename_i silent
          exact .nonEvent clear eligible still silent
        · rename_i event
          have due : Due ctx d := ⟨clear, eligible, still, event⟩
          split
          · rename_i leaves
            split
            · rename_i fee
              exact .fee due leaves fee
            · rename_i principal
              split
              · rename_i plain
                exact .external due leaves principal plain
              · rename_i payout carried
                split
                · rename_i worthless
                  exact .unpriced due leaves principal carried worthless
                · rename_i settled
                  exact .payout due leaves principal carried settled
          · rename_i kept
            exact .retained due kept

theorem branch_iff {ctx : TaxContext} {d : Located} {b : Branch} : branch ctx d = b ↔ Takes ctx d b := by
  constructor
  · rintro rfl
    exact branch_takes ctx d
  · intro takes
    have open_ : Clear ctx d → ¬(ctx.blocked d.source.anchorTransactionId ∨
        ∃ target ∈ d.target, ctx.blocked target.2.anchorTransactionId) := by
      rintro ⟨source, target⟩ (first | ⟨t, named, second⟩)
      · exact source first
      · exact target t named second
    unfold branch
    cases takes with
    | blocked broken =>
      refine if_pos ?_
      by_contra open_
      exact broken ⟨fun first => open_ (.inl first), fun t named second => open_ (.inr ⟨t, named, second⟩)⟩
    | held clear ineligible => rw [if_neg (open_ clear), if_pos ineligible]
    | move clear eligible moved => rw [if_neg (open_ clear), if_neg (not_not.2 eligible), moved]
    | nonEvent clear eligible still silent =>
      rw [if_neg (open_ clear), if_neg (not_not.2 eligible), still]
      exact if_pos silent
    | fee due leaves fee =>
      rw [if_neg (open_ due.clear), if_neg (not_not.2 due.eligible), due.still]
      simp only [if_neg due.event, if_pos fee]
      exact if_pos leaves
    | unpriced due leaves principal carried worthless =>
      rw [if_neg (open_ due.clear), if_neg (not_not.2 due.eligible), due.still]
      simp only [if_neg due.event, if_neg principal, carried, worthless]
      exact if_pos leaves
    | payout due leaves principal carried settled =>
      rw [if_neg (open_ due.clear), if_neg (not_not.2 due.eligible), due.still]
      simp only [if_neg due.event, if_neg principal, carried, settled]
      exact if_pos leaves
    | external due leaves principal plain =>
      rw [if_neg (open_ due.clear), if_neg (not_not.2 due.eligible), due.still]
      simp only [if_neg due.event, if_neg principal, plain]
      exact if_pos leaves
    | retained due kept =>
      rw [if_neg (open_ due.clear), if_neg (not_not.2 due.eligible), due.still]
      exact (if_neg due.event).trans (if_neg kept)

section
variable (ctx : TaxContext)

def Drawn (d : Located) : Prop :=
  ∃ e ∈ ctx.decisions, e.order < d.order ∧ (branch ctx e).draws ∧ e.source.quantityHash = d.source.quantityHash

def Folded (d : Located) : Prop :=
  ∃ e ∈ ctx.decisions, e.order < d.order ∧ (branch ctx e).moves ∧
    pairBundle e.decision ≠ none ∧ pairBundle e.decision = pairBundle d.decision

instance (d : Located) : Decidable (Drawn ctx d) := inferInstanceAs (Decidable (∃ _ ∈ _, _))

instance (d : Located) : Decidable (Folded ctx d) := inferInstanceAs (Decidable (∃ _ ∈ _, _))

def ownFee (d : Located) : Int := if Drawn ctx d then 0 else d.source.feeMsat

def foldedFee (d : Located) : Int := if Folded ctx d then 0 else bundleFee ctx.decisions (pairBundle d.decision)

def moveFee (d : Located) : Int :=
  if foldedFee ctx d ≠ 0 ∧ replacesFee d.decision then foldedFee ctx d else ownFee ctx d + foldedFee ctx d

def moveOut (d : Located) : TaxRow :=
  projectedSliceRow ctx.rowsById d.source d.decision.source "move-out" (moveFee ctx d)

def moveIn (slice : QuantitySlice) (target : QuantityObservation) : TaxRow :=
  projectedSliceRow ctx.rowsById target slice "move-in" 0

def emitted (d : Located) : List TaxRow :=
  match branch ctx d with
  | .move slice target => [moveOut ctx d, moveIn ctx slice target]
  | .nonEvent =>
    if ownFee ctx d ≠ 0 then [projectedFeeRow ctx.rowsById d.source "non-event-fee" (ownFee ctx d)] else []
  | .fee =>
    if Folded ctx d then []
    else [projectedFeeRow ctx.rowsById d.source "reviewed-fee" d.decision.source.amountMsat]
  | .payout _ received sold =>
    [projectedSliceRow ctx.rowsById d.source d.decision.source "direct-payout-source" (ownFee ctx d), received, sold]
  | .external => [externalRow ctx d (ownFee ctx d)]
  | .blocked | .held | .unpriced _ | .retained => []

end

/-- The state of the loop after the decisions `before`. -/
structure Walked (ctx : TaxContext) (before : List Located) (st : LoopState) : Prop where
  rows : st.rows = before.flatMap (emitted ctx)
  allocated : ∀ hash, hash ∈ st.allocatedFeeSources ↔
    ∃ e ∈ before, (branch ctx e).draws ∧ e.source.quantityHash = hash
  consumed : ∀ bundle, bundle ∈ st.consumedFeeBundles ↔ bundleFee ctx.decisions (some bundle) ≠ 0 ∧
    ∃ e ∈ before, (branch ctx e).moves ∧ pairBundle e.decision = some bundle
  pairs : ∀ pair ∈ st.intraPairs, pair.outRow ∈ st.rows ∧ pair.inRow ∈ st.rows
  initial : ∀ key ∈ (initialLoop ctx).quarantines.map fst, key ∈ st.quarantines.map fst
  held : ∀ e ∈ before, branch ctx e = .held → ctx.args.hasRow e.source.anchorTransactionId = true →
    ∃ reason, (e.source.anchorTransactionId, reason) ∈ st.quarantines.map fst
  unpriced : ∀ e ∈ before, ∀ payout, branch ctx e = .unpriced payout →
    ∃ reason, (e.source.anchorTransactionId, reason) ∈ st.quarantines.map fst

theorem setDefault_keys (quarantines : Quarantines) (key : String × String) (value : Quarantine) (k : String × String) :
    k ∈ (quarantines.setDefault key value).map fst ↔ k ∈ quarantines.map fst ∨ k = key := by
  unfold Quarantines.setDefault
  split
  · rename_i present
    have stored := lookup_isSome.1 present
    constructor
    · exact Or.inl
    · rintro (old | rfl)
      · exact old
      · exact stored
  · rw [map_append, mem_append]
    simp

theorem basisBarrier_keys (ctx : TaxContext) (quarantines : Quarantines) (o : QuantityObservation) :
    (∀ k ∈ quarantines.map fst, k ∈ (quarantineBasisBarrier ctx quarantines o).map fst) ∧
      (ctx.args.hasRow o.anchorTransactionId = true →
        ∃ reason, (o.anchorTransactionId, reason) ∈ (quarantineBasisBarrier ctx quarantines o).map fst) := by
  unfold quarantineBasisBarrier
  split
  · rename_i missing
    refine ⟨fun _ member => member, ?_⟩
    intro present
    rw [missing] at present
    cases present
  · refine ⟨?_, ?_⟩
    · intro k member
      exact (setDefault_keys _ _ _ _).2 (.inl member)
    · intro _
      exact ⟨_, (setDefault_keys _ _ _ _).2 (.inr rfl)⟩

section
variable {ctx : TaxContext} {before after : List Located} {d : Located} {st : LoopState}

theorem feeFor_closed (ordered : ctx.decisions.Pairwise fun d e => d.order < e.order)
    (split : ctx.decisions = before ++ d :: after) (walked : Walked ctx before st) :
    feeFor st d.source = ownFee ctx d := by
  rw [split] at ordered
  have same : d.source.quantityHash ∈ st.allocatedFeeSources ↔ Drawn ctx d := by
    rw [walked.allocated]
    constructor
    · rintro ⟨e, early, draws, hash⟩
      obtain ⟨member, less⟩ := (mem_before_iff ordered).1 early
      exact ⟨e, by rw [split]; exact member, less, draws, hash⟩
    · rintro ⟨e, member, less, draws, hash⟩
      exact ⟨e, (mem_before_iff ordered).2 ⟨by rw [← split]; exact member, less⟩, draws, hash⟩
  unfold feeFor ownFee
  simp only [same]

theorem consumed_closed (ordered : ctx.decisions.Pairwise fun d e => d.order < e.order)
    (split : ctx.decisions = before ++ d :: after) (walked : Walked ctx before st) :
    (∃ bundle ∈ pairBundle d.decision, bundle ∈ st.consumedFeeBundles) ↔
      bundleFee ctx.decisions (pairBundle d.decision) ≠ 0 ∧ Folded ctx d := by
  rw [split] at ordered
  constructor
  · rintro ⟨bundle, named, present⟩
    obtain ⟨positive, e, early, moves, same⟩ := (walked.consumed bundle).1 present
    obtain ⟨member, less⟩ := (mem_before_iff ordered).1 early
    have own : pairBundle d.decision = some bundle := named
    rw [own]
    exact ⟨positive, e, by rw [split]; exact member, less, moves, by rw [same]; simp, by rw [same, own]⟩
  · rintro ⟨positive, e, member, less, moves, bundled, same⟩
    obtain ⟨bundle, found⟩ := Option.ne_none_iff_exists'.1 bundled
    have own : pairBundle d.decision = some bundle := by rw [← same, found]
    rw [own] at positive
    refine ⟨bundle, own, (walked.consumed bundle).2 ⟨positive, e, ?_, moves, found⟩⟩
    exact (mem_before_iff ordered).2 ⟨by rw [← split]; exact member, less⟩

theorem reviewedFee_closed (ordered : ctx.decisions.Pairwise fun d e => d.order < e.order)
    (split : ctx.decisions = before ++ d :: after) (walked : Walked ctx before st) :
    reviewedFee ctx st d.decision = foldedFee ctx d := by
  unfold reviewedFee foldedFee
  simp only [consumed_closed ordered split walked]
  by_cases zero : bundleFee ctx.decisions (pairBundle d.decision) = 0
  · simp [zero]
  · simp [zero]

theorem projectedFee_closed (ordered : ctx.decisions.Pairwise fun d e => d.order < e.order)
    (split : ctx.decisions = before ++ d :: after) (walked : Walked ctx before st) :
    projectedFee ctx st d = moveFee ctx d := by
  unfold projectedFee moveFee
  rw [reviewedFee_closed ordered split walked, feeFor_closed ordered split walked]

theorem bundleFee_ne_zero (positive : ∀ e ∈ ctx.decisions, 0 < e.decision.source.amountMsat) (member : d ∈ ctx.decisions)
    (fee : d.decision.destinationKind = some .fee) (bundled : pairBundle d.decision ≠ none) :
    bundleFee ctx.decisions (pairBundle d.decision) ≠ 0 := by
  obtain ⟨bundle, own⟩ := Option.ne_none_iff_exists'.1 bundled
  rw [own]
  unfold bundleFee
  refine ne_of_gt (lt_of_lt_of_le (positive d member) (single_le_sum ?_ _ ?_))
  · intro amount listed
    obtain ⟨e, among, rfl⟩ := mem_map.1 listed
    exact le_of_lt (positive e (mem_filter.1 among).1)
  · exact mem_map.2 ⟨d, mem_filter.2 ⟨member, decide_eq_true ⟨fee, own⟩⟩, rfl⟩

theorem Walked.extend {st' : LoopState} (walked : Walked ctx before st) (rows : st'.rows = st.rows ++ emitted ctx d)
    (allocated : st'.allocatedFeeSources = st.allocatedFeeSources ++ if (branch ctx d).draws then [d.source.quantityHash] else [])
    (consumed : ∀ bundle, bundle ∈ st'.consumedFeeBundles ↔ bundle ∈ st.consumedFeeBundles ∨
      (bundleFee ctx.decisions (some bundle) ≠ 0 ∧ (branch ctx d).moves ∧ pairBundle d.decision = some bundle))
    (pairs : ∀ pair ∈ st'.intraPairs, pair ∈ st.intraPairs ∨ (pair.outRow ∈ emitted ctx d ∧ pair.inRow ∈ emitted ctx d))
    (kept : ∀ key ∈ st.quarantines.map fst, key ∈ st'.quarantines.map fst)
    (held : branch ctx d = .held → ctx.args.hasRow d.source.anchorTransactionId = true →
      ∃ reason, (d.source.anchorTransactionId, reason) ∈ st'.quarantines.map fst)
    (unpriced : ∀ payout, branch ctx d = .unpriced payout →
      ∃ reason, (d.source.anchorTransactionId, reason) ∈ st'.quarantines.map fst) :
    Walked ctx (before ++ [d]) st' := by
  refine ⟨?_, ?_, ?_, ?_, ?_, ?_, ?_⟩
  · rw [rows, walked.rows, flatMap_append, flatMap_singleton]
  · intro hash
    rw [allocated, mem_append, walked.allocated]
    simp only [mem_append, mem_singleton, or_and_right, exists_or, exists_eq_left]
    refine or_congr Iff.rfl ?_
    by_cases draws : (branch ctx d).draws
    · simp [draws, eq_comm]
    · simp [draws]
  · intro bundle
    rw [consumed, walked.consumed]
    simp only [mem_append, mem_singleton, or_and_right, exists_or, exists_eq_left, and_or_left]
  · intro pair member
    rw [rows]
    rcases pairs pair member with old | ⟨out, inbound⟩
    · obtain ⟨out, inbound⟩ := walked.pairs pair old
      exact ⟨mem_append_left _ out, mem_append_left _ inbound⟩
    · exact ⟨mem_append_right _ out, mem_append_right _ inbound⟩
  · exact fun key member => kept key (walked.initial key member)
  · intro e member at_ present
    rcases mem_append.1 member with early | last
    · obtain ⟨reason, stored⟩ := walked.held e early at_ present
      exact ⟨reason, kept _ stored⟩
    · cases mem_singleton.1 last
      exact held at_ present
  · intro e member payout at_
    rcases mem_append.1 member with early | last
    · obtain ⟨reason, stored⟩ := walked.unpriced e early payout at_
      exact ⟨reason, kept _ stored⟩
    · cases mem_singleton.1 last
      exact unpriced payout at_

theorem loopStep_walked (ordered : ctx.decisions.Pairwise fun d e => d.order < e.order)
    (positive : ∀ e ∈ ctx.decisions, 0 < e.decision.source.amountMsat)
    (feeKind : branch ctx d = .fee → d.decision.destinationKind = some .fee)
    (split : ctx.decisions = before ++ d :: after) (walked : Walked ctx before st) :
    Walked ctx (before ++ [d]) (loopStep ctx st d) := by
  have own := feeFor_closed ordered split walked
  have member : d ∈ ctx.decisions := by rw [split]; simp
  unfold loopStep
  cases at_ : branch ctx d with
  | blocked | retained =>
    refine walked.extend ?_ ?_ ?_ ?_ ?_ ?_ ?_ <;> simp [emitted, at_, Branch.draws, Branch.moves]
  | held =>
    obtain ⟨kept, named⟩ := basisBarrier_keys ctx st.quarantines d.source
    refine walked.extend ?_ ?_ ?_ ?_ kept (fun _ => named) ?_ <;> simp [emitted, at_, Branch.draws, Branch.moves]
  | unpriced payout =>
    refine walked.extend ?_ ?_ ?_ ?_ ?_ ?_ ?_
    · simp [emitted, at_]
    · simp [at_, Branch.draws]
    · simp [at_, Branch.moves]
    · exact fun pair old => .inl old
    · exact fun key old => (setDefault_keys _ _ _ _).2 (.inl old)
    · simp [at_]
    · exact fun _ _ => ⟨_, (setDefault_keys _ _ _ _).2 (.inr rfl)⟩
  | nonEvent =>
    refine walked.extend ?_ ?_ ?_ (fun _ old => .inl old) ?_ ?_ ?_ <;>
      simp [emitted, at_, allocate, own, Branch.draws, Branch.moves]
  | external =>
    refine walked.extend ?_ ?_ ?_ (fun _ old => .inl old) ?_ ?_ ?_ <;>
      simp [emitted, at_, allocate, own, Branch.draws, Branch.moves]
  | payout payout received sold =>
    refine walked.extend ?_ ?_ ?_ (fun _ old => .inl old) ?_ ?_ ?_ <;>
      simp [emitted, at_, allocate, own, Branch.draws, Branch.moves]
  | fee =>
    have consumed : (∃ bundle ∈ pairBundle d.decision, bundle ∈ st.consumedFeeBundles) ↔ Folded ctx d := by
      rw [consumed_closed ordered split walked, and_iff_right_iff_imp]
      rintro ⟨e, -, -, -, bundled, same⟩
      exact bundleFee_ne_zero positive member (feeKind at_) (same ▸ bundled)
    simp only [consumed]
    by_cases folded : Folded ctx d
    · rw [if_pos folded]
      refine walked.extend ?_ ?_ ?_ ?_ ?_ ?_ ?_ <;> simp [emitted, at_, folded, Branch.draws, Branch.moves]
    · rw [if_neg folded]
      refine walked.extend ?_ ?_ ?_ (fun _ old => .inl old) ?_ ?_ ?_ <;>
        simp [emitted, at_, folded, Branch.draws, Branch.moves]
  | move slice target =>
    have fee := projectedFee_closed ordered split walked
    have reviewed := reviewedFee_closed ordered split walked
    have out : moveOut ctx d ∈ emitted ctx d := by simp [emitted, at_]
    have inbound : moveIn ctx slice target ∈ emitted ctx d := by simp [emitted, at_]
    refine walked.extend ?_ ?_ ?_ ?_ ?_ ?_ ?_
    · simp [projectMove, fee, emitted, at_, moveOut, moveIn]
    · simp [projectMove, allocate, at_, Branch.draws]
    · intro bundle
      simp only [projectMove, reviewed, mem_append, Branch.moves, at_, true_and]
      constructor
      · rintro (old | new)
        · exact .inl old
        · split at new
          · rename_i some_
            have named : pairBundle d.decision = some bundle := by simpa using new
            refine .inr ⟨?_, named⟩
            unfold foldedFee at some_
            split at some_
            · exact absurd rfl some_
            · rwa [named] at some_
          · cases new
      · rintro (old | ⟨nonzero, named⟩)
        · exact .inl old
        · by_cases folded : Folded ctx d
          · obtain ⟨b, same, stored⟩ := (consumed_closed ordered split walked).2 ⟨by rwa [named], folded⟩
            rw [named] at same
            cases same
            exact .inl stored
          · refine Or.inr ?_
            unfold foldedFee
            rw [if_neg folded, if_pos (by rwa [named]), named]
            simp
    · intro pair listed
      simp only [projectMove, fee, mem_append] at listed
      rcases listed with old | new
      · exact .inl old
      · split at new
        · cases mem_singleton.1 new
          exact .inr ⟨out, inbound⟩
        · cases new
    · simp [projectMove, allocate]
    · simp [at_]
    · simp [at_]

end

theorem walk_walked {ctx : TaxContext} (ordered : ctx.decisions.Pairwise fun d e => d.order < e.order)
    (positive : ∀ e ∈ ctx.decisions, 0 < e.decision.source.amountMsat) :
    Walked ctx ctx.decisions (ctx.decisions.foldl (loopStep ctx) (initialLoop ctx)) := by
  refine foldl_prefix (Walked ctx) ?_ ?_
  · constructor <;> simp [initialLoop]
  · intro before d after st split walked
    refine loopStep_walked ordered positive ?_ split walked
    intro at_
    cases branch_iff.1 at_ with
    | fee _ _ fee => exact fee

end Kassiber.Tax

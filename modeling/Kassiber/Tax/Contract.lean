import Kassiber.Tax.RowKeys

/-!
When the compiler keeps its own contract. Rows that stem from distinct slices have distinct ids; two fee
slices of one amount on one observation, or two slices settled by one payout, do not.
-/

namespace Kassiber.Tax
open Custody Lib.Outcome Lib.Dict Lib.Sorting Lib.Tiling
open List hiding mapM_map

theorem slice_ext {t u : QuantitySlice} (hash : t.observationHash = u.observationHash) (range : t.range = u.range) :
    t = u := by
  obtain ⟨low, high⟩ := Prod.mk.inj range
  cases t
  cases u
  simp only [QuantitySlice.mk.injEq]
  exact ⟨hash, low, high⟩

theorem eligible_iff {ctx : TaxContext} {d : ArbitratedSlice} :
    ctx.eligible d ↔ ∃ e ∈ ctx.state.taxEligibility.eligibleDecisions, e.source = d.source := by
  unfold TaxContext.eligible
  rw [mem_map]
  refine exists_congr fun e => and_congr_right fun _ => ?_
  constructor
  · intro same
    obtain ⟨hash, range⟩ := Prod.mk.inj same
    exact slice_ext hash range
  · intro same
    rw [same]

theorem amount_positive (t : QuantitySlice) : 0 < t.amountMsat := by
  have proper := t.start_lt_end
  unfold QuantitySlice.amountMsat
  omega

/-- Neither an explicit block nor the basis barrier holds the decision back. -/
structure Passes (args : TaxArguments) (s : CanonicalQuantityState) (d : Located) : Prop where
  locates : Locates s d
  source : ¬PathBlocked args s d.source.anchorTransactionId
  target : ∀ t ∈ d.target, ¬PathBlocked args s t.2.anchorTransactionId
  eligible : ∃ e ∈ s.taxEligibility.eligibleDecisions, e.source = d.decision.source

/-- A reviewed fee slice that no earlier move of its bundle carries. -/
structure FeeRowDue (args : TaxArguments) (s : CanonicalQuantityState) (d : Located) : Prop where
  passes : Passes args s d
  event : d.source.anchorTransactionId ∉ args.nonEvents
  fee : d.decision.destinationKind = some .fee
  unfolded : ∀ e, Passes args s e → e.move ≠ none → e.order < d.order → pairBundle e.decision ≠ none →
    pairBundle e.decision ≠ pairBundle d.decision

structure PayoutDue (args : TaxArguments) (s : CanonicalQuantityState) (d : Located) (payout : DirectPayout) : Prop where
  passes : Passes args s d
  event : d.source.anchorTransactionId ∉ args.nonEvents
  leaves : Leaves d.decision
  principal : d.decision.destinationKind ≠ some .fee
  carried : carryingPayout args d.source = some payout
  amount : 0 < payout.payoutAmount
  value : ∃ value, payout.payoutFiatValue = some value ∧ 0 < value

/-- No two fee slices of an observation have one amount, and no two slices are settled by one payout. -/
structure Unambiguous (args : TaxArguments) (s : CanonicalQuantityState) : Prop where
  fees : ∀ d e, FeeRowDue args s d → FeeRowDue args s e → d.source.quantityHash = e.source.quantityHash →
    d.decision.source.amountMsat = e.decision.source.amountMsat → d = e
  payouts : ∀ d e p q, PayoutDue args s d p → PayoutDue args s e q →
    payoutKey d.source p = payoutKey e.source q → d = e

def contextOf (args : TaxArguments) (s : CanonicalQuantityState) (ds : List Located) : TaxContext :=
  { args, state := s, decisions := ds, closure := blockedClosure args.explicitlyBlocked (moveEdges ds) }

def emittedKeys (ctx : TaxContext) (d : Located) : List RowKey :=
  match branch ctx d with
  | .move slice _ => [.slice d.decision.source "move-out", .slice slice "move-in"]
  | .nonEvent => if ownFee ctx d ≠ 0 then [.fee d.source.quantityHash "non-event-fee" (ownFee ctx d)] else []
  | .fee => if Folded ctx d then [] else [.fee d.source.quantityHash "reviewed-fee" d.decision.source.amountMsat]
  | .payout payout _ _ =>
    [.slice d.decision.source "direct-payout-source", .payout (payoutKey d.source payout) false,
      .payout (payoutKey d.source payout) true]
  | .external => [.slice d.decision.source "external"]
  | .blocked | .held | .unpriced _ | .retained => []

theorem settlement_some {rowsById : List (String × LedgerRow)} {source : QuantityObservation} {payout : DirectPayout}
    {received sold : TaxRow} (found : directPayoutSettlementRows rowsById source payout = some (received, sold)) :
    0 < payout.payoutAmount ∧ (∃ value, payout.payoutFiatValue = some value ∧ 0 < value) ∧
      received.id = RowKey.text (.payout (payoutKey source payout) false) ∧
      sold.id = RowKey.text (.payout (payoutKey source payout) true) ∧
      received.custodyFinalizedTaxProjection = true ∧ sold.custodyFinalizedTaxProjection = true := by
  unfold directPayoutSettlementRows at found
  split at found
  · cases found
  · rename_i value priced
    split at found
    · cases found
    · rename_i positive
      rw [not_or, not_le, not_le] at positive
      cases found
      exact ⟨positive.1, ⟨value, priced, positive.2⟩, rfl, rfl, rfl, rfl⟩

theorem settlement_priced {rowsById : List (String × LedgerRow)} {source : QuantityObservation} {payout : DirectPayout}
    (amount : 0 < payout.payoutAmount) (value : ∃ value, payout.payoutFiatValue = some value ∧ 0 < value) :
    ∃ received sold, directPayoutSettlementRows rowsById source payout = some (received, sold) := by
  obtain ⟨v, priced, positive⟩ := value
  unfold directPayoutSettlementRows
  rw [priced]
  refine ⟨_, _, if_neg ?_⟩
  rw [not_or, not_le, not_le]
  exact ⟨amount, positive⟩

theorem externalRow_id (ctx : TaxContext) (d : Located) (fee : Int) :
    (externalRow ctx d fee).id = sliceRowId d.decision.source "external" := by
  unfold externalRow
  split <;> rfl

theorem externalRow_final (ctx : TaxContext) (d : Located) (fee : Int) :
    (externalRow ctx d fee).custodyFinalizedTaxProjection = true := by
  unfold externalRow
  split <;> rfl

theorem emitted_ids (ctx : TaxContext) (d : Located) :
    (emitted ctx d).map (·.id) = (emittedKeys ctx d).map RowKey.text := by
  have takes := branch_takes ctx d
  unfold emitted emittedKeys
  cases at_ : branch ctx d with
  | blocked | held | unpriced _ | retained => rfl
  | move slice target => rfl
  | nonEvent =>
    dsimp only
    split <;> rfl
  | fee =>
    dsimp only
    split <;> rfl
  | payout payout received sold =>
    rw [at_] at takes
    cases takes with
    | payout _ _ _ _ settled =>
      obtain ⟨-, -, first, second, -, -⟩ := settlement_some settled
      simp only [map_cons, map_nil, first, second]
      rfl
  | external => simp only [map_cons, map_nil, externalRow_id]; rfl

theorem emitted_final (ctx : TaxContext) (d : Located) :
    ∀ row ∈ emitted ctx d, row.custodyFinalizedTaxProjection = true := by
  have takes := branch_takes ctx d
  unfold emitted
  cases at_ : branch ctx d with
  | blocked | held | unpriced _ | retained => simp
  | move slice target => simp [moveOut, moveIn, projectedSliceRow, baseRow]
  | nonEvent =>
    dsimp only
    split <;> simp [projectedFeeRow, baseRow]
  | fee =>
    dsimp only
    split <;> simp [projectedFeeRow, baseRow]
  | payout payout received sold =>
    rw [at_] at takes
    cases takes with
    | payout _ _ _ _ settled =>
      obtain ⟨-, -, -, -, first, second⟩ := settlement_some settled
      simp [first, second, projectedSliceRow, baseRow]
  | external => simp [externalRow_final]

section
variable (args : TaxArguments) {s : CanonicalQuantityState} (coherent : Coherent s) {ds : List Located} (line : Line s ds)
include coherent line

variable {d : Located}

theorem passes_iff (member : d ∈ ds) :
    Passes args s d ↔ Clear (contextOf args s ds) d ∧ (contextOf args s ds).eligible d.decision := by
  have path : ∀ id, (contextOf args s ds).blocked id ↔ PathBlocked args s id := fun id => blocked_iff coherent line args
  have eligible : (contextOf args s ds).eligible d.decision ↔
      ∃ e ∈ s.taxEligibility.eligibleDecisions, e.source = d.decision.source := eligible_iff
  unfold Clear
  simp only [path, eligible]
  constructor
  · intro passes
    exact ⟨⟨passes.source, passes.target⟩, passes.eligible⟩
  · rintro ⟨⟨source, target⟩, eligible⟩
    exact ⟨line.locates member, source, target, eligible⟩

theorem source_inj {d e : Located} (left : d ∈ ds) (right : e ∈ ds) (same : d.decision.source = e.decision.source) :
    d = e := by
  have first := line.locates left
  have second := line.locates right
  refine locates_unique coherent first second ?_
  exact inj_on_of_nodup_map (starts_distinct coherent) first.decided second.decided (by rw [same])

theorem targets_apart : ds.Pairwise fun d e => ∀ t ∈ d.target, ∀ u ∈ e.target, QuantitySlice.Apart t.1 u.1 := by
  have apart := ((line.perm.filterMap _).pairwise_iff QuantitySlice.Apart.symm).2 coherent.settled.apart
  rw [filterMap_map, pairwise_filterMap] at apart
  refine apart.imp_of_mem ?_
  intro d e left right both t aimed u aimed'
  have first := (line.locates left).aimed
  have second := (line.locates right).aimed
  rw [Option.mem_def.1 aimed] at first
  rw [Option.mem_def.1 aimed'] at second
  exact both t.1 first.symm u.1 second.symm

theorem folded_iff : Folded (contextOf args s ds) d ↔ ∃ e, Passes args s e ∧ e.move ≠ none ∧
    e.order < d.order ∧ pairBundle e.decision ≠ none ∧ pairBundle e.decision = pairBundle d.decision := by
  constructor
  · rintro ⟨e, listed, less, moves, bundled, same⟩
    have takes := branch_takes (contextOf args s ds) e
    generalize branch (contextOf args s ds) e = b at takes moves
    cases takes with
    | move clear eligible moved =>
      exact ⟨e, (passes_iff args coherent line listed).2 ⟨clear, eligible⟩, by rw [moved]; simp, less, bundled, same⟩
    | _ => exact absurd moves id
  · rintro ⟨e, open_, moved, less, bundled, same⟩
    have listed := (line.mem_iff coherent).2 open_.locates
    obtain ⟨clear, eligible⟩ := (passes_iff args coherent line listed).1 open_
    obtain ⟨t, found⟩ := Option.ne_none_iff_exists'.1 moved
    refine ⟨e, listed, less, ?_, bundled, same⟩
    rw [branch_iff.2 (Takes.move clear eligible found)]
    trivial

theorem feeRowDue_iff (member : d ∈ ds) :
    FeeRowDue args s d ↔ branch (contextOf args s ds) d = .fee ∧ ¬Folded (contextOf args s ds) d := by
  have shaped := (line.placed d member).shaped
  have passes := passes_iff args coherent line member
  rw [folded_iff args coherent line, branch_iff]
  constructor
  · intro due
    obtain ⟨clear, eligible⟩ := passes.1 due.passes
    have state := shaped.fee due.fee
    have still : d.move = none := by
      unfold Located.move
      rw [state]
      rfl
    refine ⟨.fee ⟨clear, eligible, still, due.event⟩ (.inl state) due.fee, ?_⟩
    rintro ⟨e, open_, moved, less, bundled, same⟩
    exact due.unfolded e open_ moved less bundled same
  · rintro ⟨takes, unfolded⟩
    cases takes with
    | fee due leaves fee =>
      refine ⟨passes.2 ⟨due.clear, due.eligible⟩, due.event, fee, ?_⟩
      intro e open_ moved less bundled same
      exact unfolded ⟨e, open_, moved, less, bundled, same⟩

theorem payoutDue_iff (member : d ∈ ds) {payout : DirectPayout} :
    PayoutDue args s d payout ↔ ∃ received sold, branch (contextOf args s ds) d = .payout payout received sold := by
  have shaped := (line.placed d member).shaped
  have passes := passes_iff args coherent line member
  simp only [branch_iff]
  constructor
  · intro due
    obtain ⟨clear, eligible⟩ := passes.1 due.passes
    have still : d.move = none := by
      unfold Located.move
      rcases due.leaves with state | state <;> rw [state] <;> rfl
    obtain ⟨received, sold, settled⟩ := settlement_priced due.amount due.value
    exact ⟨received, sold, .payout ⟨clear, eligible, still, due.event⟩ due.leaves due.principal due.carried settled⟩
  · rintro ⟨received, sold, takes⟩
    cases takes with
    | payout due leaves principal carried settled =>
      obtain ⟨amount, value, -⟩ := settlement_some settled
      exact ⟨passes.2 ⟨due.clear, due.eligible⟩, due.event, leaves, principal, carried, amount, value⟩

theorem key_formed (member : d ∈ ds) : ∀ k ∈ emittedKeys (contextOf args s ds) d, k.Formed := by
  have placed := line.placed d member
  have width : d.source.quantityHash.length = 64 := (coherent.settled.good.sound placed.source).hash_length
  have own : d.decision.source.observationHash.length = 64 := by rw [← placed.hash]; exact width
  have takes := branch_takes (contextOf args s ds) d
  unfold emittedKeys
  cases at_ : branch (contextOf args s ds) d with
  | blocked | held | unpriced _ | retained => simp
  | move slice target =>
    rw [at_] at takes
    cases takes with
    | move _ _ moved =>
      have aimed := (Located.move_iff.1 moved).2
      obtain ⟨-, stored, hash, -⟩ := placed.target slice target aimed
      have there : slice.observationHash.length = 64 := by
        rw [← hash]
        exact (coherent.settled.good.sound stored).hash_length
      simp [RowKey.Formed, RowKey.sliceSides, own, there]
  | nonEvent =>
    dsimp only
    split <;> simp [RowKey.Formed, RowKey.feeSides, width]
  | fee =>
    dsimp only
    split <;> simp [RowKey.Formed, RowKey.feeSides, width]
  | payout payout received sold => simp [RowKey.Formed, RowKey.sliceSides, own]
  | external => simp [RowKey.Formed, RowKey.sliceSides, own]

omit coherent line in
theorem own_keys_nodup (ctx : TaxContext) (d : Located) : (emittedKeys ctx d).Nodup := by
  unfold emittedKeys
  cases branch ctx d with
  | blocked | held | unpriced _ | retained => exact nodup_nil
  | move slice target => simp
  | nonEvent =>
    dsimp only
    split <;> simp
  | fee =>
    dsimp only
    split <;> simp
  | payout payout received sold => simp
  | external => simp

inductive Origin (ctx : TaxContext) (d : Located) : RowKey → Prop
  | source {side} (sides : side ∈ ["move-out", "direct-payout-source", "external"]) :
    Origin ctx d (.slice d.decision.source side)
  | target {slice o} (aimed : d.target = some (slice, o)) : Origin ctx d (.slice slice "move-in")
  | nonEventFee (draws : (branch ctx d).draws) (fee : ownFee ctx d ≠ 0) :
    Origin ctx d (.fee d.source.quantityHash "non-event-fee" (ownFee ctx d))
  | reviewedFee (at_ : branch ctx d = .fee) (unfolded : ¬Folded ctx d) :
    Origin ctx d (.fee d.source.quantityHash "reviewed-fee" d.decision.source.amountMsat)
  | payout {payout received sold out} (at_ : branch ctx d = .payout payout received sold) :
    Origin ctx d (.payout (payoutKey d.source payout) out)

omit coherent line in
theorem key_origin {ctx : TaxContext} {k : RowKey} (member : k ∈ emittedKeys ctx d) : Origin ctx d k := by
  have takes := branch_takes ctx d
  unfold emittedKeys at member
  cases at_ : branch ctx d with
  | blocked | held | unpriced _ | retained => simp [at_] at member
  | move slice target =>
    rw [at_] at takes member
    cases takes with
    | move _ _ moved =>
      have aimed := (Located.move_iff.1 moved).2
      simp only [mem_cons, not_mem_nil, or_false] at member
      rcases member with rfl | rfl
      · exact .source (by simp)
      · exact .target aimed
  | nonEvent =>
    rw [at_] at member
    dsimp only at member
    split at member
    · rename_i fee
      cases mem_singleton.1 member
      exact .nonEventFee (by rw [at_]; trivial) fee
    · cases member
  | fee =>
    rw [at_] at member
    dsimp only at member
    split at member
    · cases member
    · rename_i unfolded
      cases mem_singleton.1 member
      exact .reviewedFee at_ unfolded
  | payout payout received sold =>
    rw [at_] at member
    simp only [mem_cons, not_mem_nil, or_false] at member
    rcases member with rfl | rfl | rfl
    · exact .source (by simp)
    · exact .payout at_
    · exact .payout at_
  | external =>
    rw [at_] at member
    cases mem_singleton.1 member
    exact .source (by simp)

theorem walk_keys_nodup : (ds.flatMap (emittedKeys (contextOf args s ds))).Nodup ↔ Unambiguous args s := by
  rw [nodup_flatMap]
  constructor
  · rintro ⟨-, disjoint⟩
    have symmetric : Std.Symm (Function.onFun List.Disjoint (emittedKeys (contextOf args s ds))) :=
      ⟨fun _ _ apart => apart.symm⟩
    have apart : ∀ {d e}, d ∈ ds → e ∈ ds → d ≠ e → ∀ {k}, k ∈ emittedKeys (contextOf args s ds) d →
        k ∉ emittedKeys (contextOf args s ds) e :=
      fun left right different _ first second => disjoint.forall left right different first second
    refine ⟨?_, ?_⟩
    · intro d e due due' hash amount
      have left := (line.mem_iff coherent).2 due.passes.locates
      have right := (line.mem_iff coherent).2 due'.passes.locates
      obtain ⟨at_, unfolded⟩ := (feeRowDue_iff args coherent line left).1 due
      obtain ⟨at_', unfolded'⟩ := (feeRowDue_iff args coherent line right).1 due'
      by_contra different
      refine apart left right different (?_ : RowKey.fee d.source.quantityHash "reviewed-fee"
        d.decision.source.amountMsat ∈ _) ?_
      · simp [emittedKeys, at_, unfolded]
      · simp [emittedKeys, at_', unfolded', hash, amount]
    · intro d e p q due due' key
      have left := (line.mem_iff coherent).2 due.passes.locates
      have right := (line.mem_iff coherent).2 due'.passes.locates
      obtain ⟨received, sold, at_⟩ := (payoutDue_iff args coherent line left).1 due
      obtain ⟨received', sold', at_'⟩ := (payoutDue_iff args coherent line right).1 due'
      by_contra different
      refine apart left right different (?_ : RowKey.payout (payoutKey d.source p) true ∈ _) ?_
      · simp [emittedKeys, at_]
      · simp [emittedKeys, at_', key]
  · intro unambiguous
    refine ⟨fun d _ => own_keys_nodup _ d, ?_⟩
    refine (line.ordered.and (targets_apart coherent line)).imp_of_mem ?_
    rintro d e left right ⟨less, apart⟩ k first second
    have different : d ≠ e := fun same => absurd less (same ▸ lt_irrefl _)
    have origin := key_origin first
    have origin' := key_origin second
    generalize shared : k = l at origin'
    cases origin with
    | source sides =>
      cases origin' with
      | source sides' =>
        injection shared with same
        exact different (source_inj coherent line left right same)
      | target aimed =>
        injection shared with same side
        subst side
        simp at sides
      | _ => cases shared
    | target aimed =>
      cases origin' with
      | source sides' =>
        injection shared with same side
        subst side
        simp at sides'
      | target aimed' =>
        injection shared with same
        subst same
        have proper := QuantitySlice.start_lt_end ‹_›
        rcases apart _ aimed _ aimed' rfl with before | after
        · exact absurd before (not_le.2 proper)
        · exact absurd after (not_le.2 proper)
      | _ => cases shared
    | nonEventFee draws fee =>
      cases origin' with
      | nonEventFee draws' fee' =>
        injection shared with hash
        exact fee' (if_pos ⟨d, left, less, draws, hash⟩)
      | reviewedFee _ _ =>
        injection shared with hash side
        exact absurd side (by decide)
      | _ => cases shared
    | reviewedFee at_ unfolded =>
      cases origin' with
      | nonEventFee draws' fee' =>
        injection shared with hash side
        exact absurd side (by decide)
      | reviewedFee at_' unfolded' =>
        injection shared with hash side amount
        exact different (unambiguous.fees d e ((feeRowDue_iff args coherent line left).2 ⟨at_, unfolded⟩)
          ((feeRowDue_iff args coherent line right).2 ⟨at_', unfolded'⟩) hash amount)
      | _ => cases shared
    | payout at_ =>
      cases origin' with
      | payout at_' =>
        injection shared with key
        exact different (unambiguous.payouts d e _ _ ((payoutDue_iff args coherent line left).2 ⟨_, _, at_⟩)
          ((payoutDue_iff args coherent line right).2 ⟨_, _, at_'⟩) key)
      | _ => cases shared

omit coherent line in
theorem receiptGaps_spaced {cursor principal : Int} {ranges : List (Int × Int)} (spaced : Spaced cursor ranges principal) :
    receiptGaps cursor ranges principal = gaps cursor ranges principal := by
  induction ranges generalizing cursor with
  | nil => rfl
  | cons r rest ih =>
    obtain ⟨ahead, proper, later⟩ := spaced
    have last : max cursor r.2 = r.2 := max_eq_right (le_of_lt (lt_of_le_of_lt ahead proper))
    unfold receiptGaps gaps
    rw [last, ih later]

omit coherent in
theorem targets_line (hash : String) : targetsOn (ds.map (·.decision)) hash = targetsOn s.projection.decisions hash := by
  refine sortedBy_eq_of_perm ((line.perm.filterMap _).filter _) ?_
  intro t first u second same
  have left : t.observationHash = hash := of_decide_eq_true (mem_filter.1 first).2
  have right : u.observationHash = hash := of_decide_eq_true (mem_filter.1 second).2
  exact slice_ext (left.trans right.symm) (toLex_inj.1 same)

theorem receiptRows_spec {o : QuantityObservation} (observed : o ∈ s.canonicalInput.observations) :
    ∃ slices : List QuantitySlice, receiptRows (contextOf args s ds) o =
        .ok (slices.map fun slice => projectedSliceRow args.rowsById o slice "inbound" 0) ∧
      (∀ t ∈ slices, t.observationHash = o.quantityHash) ∧ slices.Nodup ∧
      ((contextOf args s ds).barred o = false → o.anchorTransactionId ∉ blockedAnchorIds s →
        ¬PathBlocked args s o.anchorTransactionId →
        Partitions 0 ((targetsOn s.projection.decisions o.quantityHash).map QuantitySlice.range ++
          slices.map QuantitySlice.range) o.principalMsat) := by
  have path : (contextOf args s ds).blocked o.anchorTransactionId ↔ PathBlocked args s o.anchorTransactionId :=
    blocked_iff coherent line args
  unfold receiptRows
  split
  · rename_i barred
    refine ⟨[], rfl, by simp, nodup_nil, ?_⟩
    intro free
    rw [barred] at free
    cases free
  · split
    · rename_i stopped
      refine ⟨[], rfl, by simp, nodup_nil, ?_⟩
      intro _ unnamed free
      rcases stopped with named | blocked
      · exact absurd named unnamed
      · exact absurd (path.1 blocked) free
    · have spaced := targets_spaced coherent.settled observed
      have same : receiptGaps 0 ((targetsOn ((contextOf args s ds).decisions.map (·.decision)) o.quantityHash).map
          QuantitySlice.range) o.principalMsat =
          gaps 0 ((targetsOn s.projection.decisions o.quantityHash).map QuantitySlice.range) o.principalMsat := by
        rw [show (contextOf args s ds).decisions = ds from rfl, targets_line line, receiptGaps_spaced spaced]
      obtain ⟨slices, made⟩ := mapM_total (f := fun r : Int × Int => QuantitySlice.make o.quantityHash r.1 r.2)
        fun r member => by
          obtain ⟨low, proper, -⟩ := gaps_bounds spaced member
          exact QuantitySlice.make_total (coherent.settled.good.hash_nonempty observed) low proper
      have hashes : ∀ t ∈ slices, t.observationHash = o.quantityHash := by
        intro t member
        obtain ⟨r, -, step⟩ := mapM_outputs made member
        exact (QuantitySlice.make_ok.1 step).1
      have ranges : slices.map QuantitySlice.range =
          gaps 0 ((targetsOn s.projection.decisions o.quantityHash).map QuantitySlice.range) o.principalMsat := by
        rw [mapM_map (h := id) (fun r t step => (QuantitySlice.make_ok.1 step).2) made, map_id]
      have parts : Partitions 0 ((targetsOn s.projection.decisions o.quantityHash).map QuantitySlice.range ++
          slices.map QuantitySlice.range) o.principalMsat := by
        rw [ranges]
        exact gaps_partition spaced
      refine ⟨slices, ?_, hashes, ?_, fun _ _ _ => parts⟩
      · dsimp only
        rw [same, made]
        rfl
      · obtain ⟨ordered, perm, tiles⟩ := parts
        have distinct : ordered.Nodup := (tiles_strict tiles).imp fun less => ne_of_apply_ne Prod.fst (ne_of_lt less)
        exact (nodup_append.1 (perm.nodup_iff.1 distinct)).2.1.of_map _

theorem projectedRows_spec (walked : LoopState) :
    ∃ slicesOf : QuantityObservation → List QuantitySlice, ∃ booked,
      booked = walked.rows ++ (receipts (contextOf args s ds)).flatMap (fun o =>
        (slicesOf o).map fun slice => projectedSliceRow args.rowsById o slice "inbound" 0) ∧
      projectedRows (contextOf args s ds) walked = .ok (booked ++ feeOnlyRows (contextOf args s ds) booked) ∧
      ∀ o ∈ receipts (contextOf args s ds), (∀ t ∈ slicesOf o, t.observationHash = o.quantityHash) ∧
        (slicesOf o).Nodup ∧ ((contextOf args s ds).barred o = false → o.anchorTransactionId ∉ blockedAnchorIds s →
          ¬PathBlocked args s o.anchorTransactionId →
          Partitions 0 ((targetsOn s.projection.decisions o.quantityHash).map QuantitySlice.range ++
            (slicesOf o).map QuantitySlice.range) o.principalMsat) := by
  have known : ∀ o ∈ receipts (contextOf args s ds), o ∈ s.canonicalInput.observations := by
    intro o member
    have stored : o ∈ s.projection.observations := mem_sortedBy.1 (mem_filter.1 member).1
    rw [coherent.observed] at stored
    exact mem_sortedBy.1 stored
  choose! slicesOf spec using fun o (member : o ∈ receipts (contextOf args s ds)) =>
    receiptRows_spec args coherent line (known o member)
  refine ⟨slicesOf, _, rfl, ?_, fun o member => (spec o member).2⟩
  have run : (receipts (contextOf args s ds)).mapM (receiptRows (contextOf args s ds)) =
      .ok ((receipts (contextOf args s ds)).map fun o =>
        (slicesOf o).map fun slice => projectedSliceRow args.rowsById o slice "inbound" 0) :=
    mapM_ok.2 (forall₂_map_right_iff.2 (forall₂_same.2 fun o member => (spec o member).1))
  unfold projectedRows
  rw [run]
  simp only [flatMap_def]
  rfl

omit coherent in
theorem walk_final : Walked (contextOf args s ds) ds (ds.foldl (loopStep (contextOf args s ds))
    (initialLoop (contextOf args s ds))) :=
  @walk_walked (contextOf args s ds) line.ordered fun d _ => amount_positive d.decision.source

theorem all_keys_nodup {slicesOf : QuantityObservation → List QuantitySlice} {lone : List QuantityObservation}
    (owned : ∀ o ∈ receipts (contextOf args s ds), (∀ t ∈ slicesOf o, t.observationHash = o.quantityHash) ∧
      (slicesOf o).Nodup) (outbound : (lone.map QuantityObservation.quantityHash).Nodup) :
    (ds.flatMap (emittedKeys (contextOf args s ds)) ++
      (receipts (contextOf args s ds)).flatMap (fun o => (slicesOf o).map fun slice => RowKey.slice slice "inbound") ++
      lone.map fun o => RowKey.fee o.quantityHash "fee-only" o.feeMsat).Nodup ↔ Unambiguous args s := by
  have hashes : ((receipts (contextOf args s ds)).map QuantityObservation.quantityHash).Nodup := by
    have stored : (s.projection.observations.map QuantityObservation.quantityHash).Nodup := by
      rw [coherent.observed]
      exact ((sortedBy_perm _ _).map _).nodup_iff.2 coherent.settled.good.distinct
    have sorted := ((sortedBy_perm (fun o : QuantityObservation => toLex (o.occurredAt, o.quantityHash))
      s.projection.observations).map QuantityObservation.quantityHash).nodup_iff.2 stored
    exact sorted.sublist (filter_sublist.map _)
  have inbound : ((receipts (contextOf args s ds)).flatMap fun o =>
      (slicesOf o).map fun slice => RowKey.slice slice "inbound").Nodup := by
    refine nodup_flatMap.2 ⟨?_, ?_⟩
    · intro o member
      refine (owned o member).2.map ?_
      intro t u same
      injection same
    · refine (pairwise_map.1 hashes).imp_of_mem ?_
      intro o p first second different k left right
      obtain ⟨t, inside, rfl⟩ := mem_map.1 left
      obtain ⟨u, inside', same⟩ := mem_map.1 right
      injection same with same
      subst same
      exact different (((owned o first).1 _ inside).symm.trans ((owned p second).1 _ inside'))
  have fees : (lone.map fun o => RowKey.fee o.quantityHash "fee-only" o.feeMsat).Nodup := by
    refine List.Nodup.of_map (fun k => match k with | .fee hash _ _ => hash | _ => "") ?_
    rw [map_map]
    exact outbound
  rw [nodup_append, nodup_append, walk_keys_nodup args coherent line]
  constructor
  · exact fun parts => parts.1.1
  · intro unambiguous
    refine ⟨⟨unambiguous, inbound, ?_⟩, fees, ?_⟩
    · rintro k walked l booked rfl
      obtain ⟨d, -, emits⟩ := mem_flatMap.1 walked
      obtain ⟨o, -, listed⟩ := mem_flatMap.1 booked
      obtain ⟨t, -, same⟩ := mem_map.1 listed
      subst same
      generalize kept : RowKey.slice t "inbound" = k at emits
      cases key_origin emits with
      | source sides =>
        injection kept with _ side
        subst side
        simp at sides
      | target =>
        injection kept with _ side
        exact absurd side (by decide)
      | _ => cases kept
    · rintro k early l late rfl
      obtain ⟨o, -, same⟩ := mem_map.1 late
      subst same
      rcases mem_append.1 early with walked | booked
      · obtain ⟨d, -, emits⟩ := mem_flatMap.1 walked
        generalize kept : RowKey.fee o.quantityHash "fee-only" o.feeMsat = k at emits
        cases key_origin emits with
        | nonEventFee =>
          injection kept with _ side
          exact absurd side (by decide)
        | reviewedFee =>
          injection kept with _ side
          exact absurd side (by decide)
        | _ => cases kept
      · obtain ⟨p, -, listed⟩ := mem_flatMap.1 booked
        obtain ⟨t, -, same⟩ := mem_map.1 listed
        cases same

omit coherent line in
theorem compile_run (found : locatedDecisions s = .ok ds) {p : FinalizedTaxProjection} :
    compileFinalizedTaxProjection args s = .ok p ↔
    ∃ rows, projectedRows (contextOf args s ds) (ds.foldl (loopStep (contextOf args s ds))
        (initialLoop (contextOf args s ds))) = .ok rows ∧
      p = assemble (contextOf args s ds) (ds.foldl (loopStep (contextOf args s ds))
        (initialLoop (contextOf args s ds))) rows ∧ p.Contract := by
  have context : taxContext args s = .ok (contextOf args s ds) := bind_ok.2 ⟨ds, found, rfl⟩
  unfold compileFinalizedTaxProjection
  constructor
  · intro run
    obtain ⟨ctx, read, run⟩ := bind_ok.1 run
    cases context.symm.trans read
    obtain ⟨rows, projected, run⟩ := bind_ok.1 run
    obtain ⟨_, checked, same⟩ := bind_ok.1 run
    cases same
    exact ⟨rows, projected, rfl, FinalizedTaxProjection.postInit_ok.1 checked⟩
  · rintro ⟨rows, projected, rfl, contract⟩
    exact bind_ok.2 ⟨_, context, bind_ok.2 ⟨rows, projected, bind_ok.2 ⟨(), FinalizedTaxProjection.postInit_ok.2 contract, rfl⟩⟩⟩

theorem contract_iff (found : locatedDecisions s = .ok ds) :
    (∃ p, compileFinalizedTaxProjection args s = .ok p ∧ p.Contract) ↔ Unambiguous args s := by
  obtain ⟨slicesOf, booked, gathered, projected, owned⟩ := projectedRows_spec args coherent line
    (ds.foldl (loopStep (contextOf args s ds)) (initialLoop (contextOf args s ds)))
  have walked := walk_final args line
  have lone : ((s.projection.observations.filter fun o => feeOnly (contextOf args s ds) booked o).map
      QuantityObservation.quantityHash).Nodup := by
    have stored : (s.projection.observations.map QuantityObservation.quantityHash).Nodup := by
      rw [coherent.observed]
      exact ((sortedBy_perm _ _).map _).nodup_iff.2 coherent.settled.good.distinct
    exact stored.sublist (filter_sublist.map _)
  have keyed : (booked ++ feeOnlyRows (contextOf args s ds) booked).map (·.id) =
      (ds.flatMap (emittedKeys (contextOf args s ds)) ++
        (receipts (contextOf args s ds)).flatMap (fun o => (slicesOf o).map fun slice => RowKey.slice slice "inbound") ++
        (s.projection.observations.filter fun o => feeOnly (contextOf args s ds) booked o).map fun o =>
          RowKey.fee o.quantityHash "fee-only" o.feeMsat).map RowKey.text := by
    rw [map_append, map_append, map_append]
    congr 1
    · rw [gathered, walked.rows, map_append, map_flatMap, map_flatMap, map_flatMap, map_flatMap]
      simp only [emitted_ids, map_map]
      rfl
    · unfold feeOnlyRows
      rw [map_map, map_map]
      rfl
  have formed : ∀ k ∈ ds.flatMap (emittedKeys (contextOf args s ds)) ++
      (receipts (contextOf args s ds)).flatMap (fun o => (slicesOf o).map fun slice => RowKey.slice slice "inbound") ++
      (s.projection.observations.filter fun o => feeOnly (contextOf args s ds) booked o).map (fun o =>
        RowKey.fee o.quantityHash "fee-only" o.feeMsat), k.Formed := by
    have width : ∀ o ∈ s.projection.observations, o.quantityHash.length = 64 := by
      intro o member
      rw [coherent.observed, mem_sortedBy] at member
      exact (coherent.settled.good.sound member).hash_length
    intro k member
    rcases mem_append.1 member with early | late
    · rcases mem_append.1 early with walk | receipt
      · obtain ⟨d, listed, emits⟩ := mem_flatMap.1 walk
        exact key_formed args coherent line listed k emits
      · obtain ⟨o, listed, inside⟩ := mem_flatMap.1 receipt
        obtain ⟨t, sliced, rfl⟩ := mem_map.1 inside
        refine ⟨?_, by simp [RowKey.sliceSides]⟩
        rw [(owned o listed).1 t sliced]
        exact width o (mem_sortedBy.1 (mem_filter.1 listed).1)
    · obtain ⟨o, listed, rfl⟩ := mem_map.1 late
      exact ⟨width o (mem_filter.1 listed).1, by simp [RowKey.feeSides]⟩
  have finalized : ∀ row ∈ booked ++ feeOnlyRows (contextOf args s ds) booked, row.custodyFinalizedTaxProjection = true := by
    intro row member
    rw [gathered, walked.rows] at member
    rcases mem_append.1 member with early | late
    · rcases mem_append.1 early with walk | receipt
      · obtain ⟨d, -, emits⟩ := mem_flatMap.1 walk
        exact emitted_final _ d row emits
      · obtain ⟨o, -, inside⟩ := mem_flatMap.1 receipt
        obtain ⟨t, -, rfl⟩ := mem_map.1 inside
        rfl
    · obtain ⟨o, -, rfl⟩ := mem_map.1 late
      rfl
  have named : ∀ row ∈ booked ++ feeOnlyRows (contextOf args s ds) booked, row.id ≠ "" := by
    intro row member
    have listed := mem_map_of_mem (f := fun row : TaxRow => row.id) member
    rw [keyed] at listed
    obtain ⟨k, -, same⟩ := mem_map.1 listed
    rw [← same]
    exact k.text_ne_empty
  have distinct : ((booked ++ feeOnlyRows (contextOf args s ds) booked).map (·.id)).Nodup ↔ Unambiguous args s := by
    rw [keyed, RowKey.texts_nodup formed]
    exact all_keys_nodup args coherent line (fun o member => ⟨(owned o member).1, (owned o member).2.1⟩) lone
  simp only [compile_run args found, projected, Except.ok.injEq]
  constructor
  · rintro ⟨p, ⟨rows, rfl, rfl, -⟩, contract⟩
    exact distinct.1 (((sortedBy_perm _ _).map _).nodup_iff.1 contract.distinct)
  · intro unambiguous
    refine ⟨_, ⟨_, rfl, rfl, ?_⟩, ?_⟩
    all_goals
      refine ⟨?_, ?_, ?_, ?_⟩
      · exact fun row member => finalized row (mem_sortedBy.1 member)
      · exact fun row member => named row (mem_sortedBy.1 member)
      · exact ((sortedBy_perm _ _).map _).nodup_iff.2 (distinct.2 unambiguous)
      · intro pair member
        obtain ⟨out, inbound⟩ := walked.pairs pair member
        have kept : ∀ row ∈ (ds.foldl (loopStep (contextOf args s ds)) (initialLoop (contextOf args s ds))).rows,
            row.id ∈ ((assemble (contextOf args s ds) (ds.foldl (loopStep (contextOf args s ds))
              (initialLoop (contextOf args s ds))) (booked ++ feeOnlyRows (contextOf args s ds) booked)).rows).map (·.id) := by
          intro row present
          refine mem_map_of_mem (mem_sortedBy.2 ?_)
          rw [gathered]
          exact mem_append_left _ (mem_append_left _ present)
        exact ⟨kept _ out, kept _ inbound⟩

end

/-- The compiler keeps its contract on a built state exactly when no two of its rows are given one id. -/
theorem compile_contract_iff {host : Host} {input : RuntimeInput} {s : CanonicalQuantityState}
    (built : buildCanonicalQuantityState host input = .ok s) (args : TaxArguments) :
    (∃ p, compileFinalizedTaxProjection args s = .ok p ∧ p.Contract) ↔ Unambiguous args s := by
  have coherent := build_coherent built
  obtain ⟨ds, found, line⟩ := locatedDecisions_line coherent
  exact contract_iff args coherent line found

/-! One observation whose principal is claimed as two fees, of one amount or of two. -/

def sentRow : LedgerRow :=
  { id := "sent", asset := "BTC", occurredAt := "2024-01-01T00:00:00Z", direction := .outbound, amount := 1000, fee := 10 }

def firstFee : QuantityClaim :=
  { claimId := "fee-1", source := sampleSlice 'a' 0 500 (by decide), state := .externalConfirmed
    priority := .exactNativeEvent, reason := "network fee", destinationKind := some .fee, constructible := by decide }

def secondFee : QuantityClaim :=
  { claimId := "fee-2", source := sampleSlice 'a' 500 1000 (by decide), state := .externalConfirmed
    priority := .exactNativeEvent, reason := "network fee", destinationKind := some .fee, constructible := by decide }

def twinFees : RuntimeInput :=
  { rows := [sentRow], canonicalInput := sampleInput
    gapSearchResult := { accountingCandidates := [], searchComplete := true }, interpreterClaims := [firstFee, secondFee] }

def sampleArguments : TaxArguments := { profile := { id := "profile", workspaceId := "books" }, rows := [sentRow] }

theorem compile_contract_fails_on_twin_fees :
    ¬∀ host input s, (input.rows.map LedgerRow.id).Nodup → buildCanonicalQuantityState host input = .ok s →
      ∀ args : TaxArguments, args.rows = input.rows →
        ∃ p, compileFinalizedTaxProjection args s = .ok p ∧ p.Contract := by
  intro kept
  have raised : (do
      let s ← buildCanonicalQuantityState sampleHost twinFees
      pure (compileFinalizedTaxProjection sampleArguments s).isOk : Except PyError Bool).toOption = some false := by
    rw [build_unaudited sampleHost sampleInput (exists_of_isOk (by decide +kernel)) rfl rfl
      (exists_of_isOk (by decide +kernel)) rfl rfl rfl]
    simp only [projectQuantities_indexed sampleInput_valid]
    decide +kernel
  obtain ⟨s, built, failed⟩ := bind_ok.1 (ok_of_toOption raised)
  obtain ⟨p, compiled, -⟩ := kept sampleHost twinFees s (nodup_singleton _) built sampleArguments rfl
  rw [compiled] at failed
  cases failed

def unequalFees : RuntimeInput :=
  { twinFees with
    interpreterClaims :=
      [ { firstFee with source := sampleSlice 'a' 0 370 (by decide), constructible := by decide },
        { secondFee with source := sampleSlice 'a' 370 1000 (by decide), constructible := by decide } ] }

theorem compile_contract_unequal_fees :
    ∃ s, buildCanonicalQuantityState sampleHost unequalFees = .ok s ∧
      ∃ p, compileFinalizedTaxProjection sampleArguments s = .ok p ∧ p.rows.map (·.fee) = [370, 630] ∧
        Unambiguous sampleArguments s := by
  have booked : (do
      let s ← buildCanonicalQuantityState sampleHost unequalFees
      let p ← compileFinalizedTaxProjection sampleArguments s
      pure (p.rows.map (·.fee)) : Except PyError (List Int)).toOption = some [370, 630] := by
    rw [build_unaudited sampleHost sampleInput (exists_of_isOk (by decide +kernel)) rfl rfl
      (exists_of_isOk (by decide +kernel)) rfl rfl rfl]
    simp only [projectQuantities_indexed sampleInput_valid]
    decide +kernel
  obtain ⟨s, built, booked⟩ := bind_ok.1 (ok_of_toOption booked)
  obtain ⟨p, compiled, fees⟩ := bind_ok.1 booked
  obtain ⟨ds, found, -⟩ := locatedDecisions_line (build_coherent built)
  obtain ⟨-, -, -, contract⟩ := (compile_run sampleArguments found).1 compiled
  exact ⟨s, built, p, compiled, pure_ok.1 fees, (compile_contract_iff built sampleArguments).1 ⟨p, compiled, contract⟩⟩

end Kassiber.Tax

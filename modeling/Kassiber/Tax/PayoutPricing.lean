import Kassiber.Lib.Decimals
import Kassiber.Tax.Contract

/-!
The reviewed value of a direct payout, as the compiler stamps it on the external rows of its source.
-/

namespace Kassiber.Tax
open Custody Lib.Outcome Lib.Dict Lib.Sorting Lib.Decimals
open List hiding lookup mapM_map
open Prod (fst)

def decimalDigits : ℕ := 28

def msatToBtc (msat : Int) : ℚ := significant decimalDigits (msat / 10 ^ 11)

structure PayoutPrice where
  fiatRateExact : ℚ
  fiatValueExact : ℚ
  pricingMethod : String

/-- What the payout of its transaction says about the price of a slice. -/
def payoutPrice (args : TaxArguments) (d : Located) : Option PayoutPrice :=
  match (lookup args.payoutsBySource d.source.anchorTransactionId).bind (·.payoutFiatValue) with
  | none => none
  | some value =>
    if 0 < d.decision.source.amountMsat then
      some
        { fiatRateExact := significant decimalDigits (value / msatToBtc d.decision.source.amountMsat)
          fiatValueExact := value, pricingMethod := "direct_payout_review" }
    else none

structure PricedRow where
  row : TaxRow
  price : PayoutPrice

def Branch.isExternal : Branch → Bool
  | .external => true
  | _ => false

def pricedExternal (ctx : TaxContext) (st : LoopState) (d : Located) : List PricedRow :=
  if (branch ctx d).isExternal = true then
    (payoutPrice ctx.args d).toList.map fun price => { row := externalRow ctx d (feeFor st d.source), price }
  else []

def pricedStep (ctx : TaxContext) (walk : LoopState × List PricedRow) (d : Located) : LoopState × List PricedRow :=
  (loopStep ctx walk.1 d, walk.2 ++ pricedExternal ctx walk.1 d)

def compilePricedTaxProjection (args : TaxArguments) (state : CanonicalQuantityState) :
    Except PyError (FinalizedTaxProjection × List PricedRow) := do
  let ctx ← taxContext args state
  let walked := ctx.decisions.foldl (pricedStep ctx) (initialLoop ctx, [])
  let rows ← projectedRows ctx walked.1
  let projection := assemble ctx walked.1 rows
  projection.postInit
  pure (projection, walked.2)

def bookedValue (priced : List PricedRow) (transactionId : String) : ℚ :=
  ((priced.filter fun stamped => stamped.row.journalTransactionId = transactionId).map
    fun stamped => stamped.price.fiatValueExact).sum

/-- A finalized decision with the observations that its ends name. -/
structure Found (s : CanonicalQuantityState) (l : Located) : Prop where
  decided : l.decision ∈ s.projection.decisions
  sourced : sourced s l.decision = .ok (l.decision, l.source)
  located : located s (l.decision, l.source) = .ok l

def FinalMove (s : CanonicalQuantityState) (a b : String) : Prop :=
  ∃ l, Found s l ∧ ∃ t ∈ l.move, (l.source.anchorTransactionId = a ∧ t.2.anchorTransactionId = b) ∨
    (l.source.anchorTransactionId = b ∧ t.2.anchorTransactionId = a)

/-- A path of finalized moves leads from an explicitly blocked transaction to this one. -/
def Broken (args : TaxArguments) (s : CanonicalQuantityState) (id : String) : Prop :=
  ∃ root ∈ args.explicitlyBlocked, Relation.ReflTransGen (FinalMove s) root id

/-- A decision lets some of a transaction leave custody, neither held back nor a fee nor carried across assets. -/
structure ExternalDue (args : TaxArguments) (s : CanonicalQuantityState) (transactionId : String) (l : Located) : Prop where
  found : Found s l
  own : l.source.anchorTransactionId = transactionId
  source : ¬Broken args s transactionId
  target : ∀ t ∈ l.target, ¬Broken args s t.2.anchorTransactionId
  eligible : ∃ e ∈ s.taxEligibility.eligibleDecisions, e.source = l.decision.source
  event : transactionId ∉ args.nonEvents
  leaves : Leaves l.decision
  principal : l.decision.destinationKind ≠ some .fee
  uncarried : carryingPayout args l.source = none

def LeavesCustody (args : TaxArguments) (s : CanonicalQuantityState) (transactionId : String) (d : ArbitratedSlice) : Prop :=
  ∃ l, l.decision = d ∧ ExternalDue args s transactionId l

section
variable {ctx : TaxContext} {args : TaxArguments} {state : CanonicalQuantityState} {p : FinalizedTaxProjection}
  {priced : List PricedRow} {transactionId : String} {payout : DirectPayout} {value : ℚ}

theorem bookedValue_append (first second : List PricedRow) :
    bookedValue (first ++ second) transactionId =
      bookedValue first transactionId + bookedValue second transactionId := by
  rw [bookedValue, filter_append, map_append, sum_append]
  rfl

theorem payoutPrice_value {d : Located}
    (reviewed : lookup args.payoutsBySource d.source.anchorTransactionId = some payout)
    (valued : payout.payoutFiatValue = some value) :
    ∃ price, payoutPrice args d = some price ∧ price.fiatValueExact = value := by
  unfold payoutPrice
  rw [reviewed, Option.bind_some, valued]
  exact ⟨_, if_pos (amount_positive d.decision.source), rfl⟩

theorem externalRow_anchor (ctx : TaxContext) (d : Located) (feeMsat : Int) :
    (externalRow ctx d feeMsat).journalTransactionId = d.source.anchorTransactionId := by
  unfold externalRow
  split <;> rfl

theorem bookedValue_external (reviewed : lookup ctx.args.payoutsBySource transactionId = some payout)
    (valued : payout.payoutFiatValue = some value) (st : LoopState) (d : Located) :
    bookedValue (pricedExternal ctx st d) transactionId =
      if d.source.anchorTransactionId = transactionId ∧ (branch ctx d).isExternal = true then value else 0 := by
  unfold pricedExternal
  by_cases external : (branch ctx d).isExternal = true
  · rw [if_pos external]
    by_cases own : d.source.anchorTransactionId = transactionId
    · subst own
      obtain ⟨price, stamped, same⟩ := payoutPrice_value reviewed valued
      rw [stamped, if_pos ⟨rfl, external⟩]
      change bookedValue [{ row := externalRow ctx d (feeFor st d.source), price }] _ = value
      rw [bookedValue, filter_cons, if_pos (decide_eq_true (externalRow_anchor ctx d _)), filter_nil,
        map_singleton, sum_singleton, same]
    · rw [if_neg fun both => own both.1, bookedValue, filter_eq_nil_iff.2]
      · rfl
      · intro stamped member booked
        obtain ⟨price, -, rfl⟩ := mem_map.1 member
        exact own ((externalRow_anchor ctx d _).symm.trans (of_decide_eq_true booked))
  · rw [if_neg external, if_neg fun both => external both.2]
    rfl

theorem bookedValue_walk (reviewed : lookup ctx.args.payoutsBySource transactionId = some payout)
    (valued : payout.payoutFiatValue = some value) (ds : List Located) (walk : LoopState × List PricedRow) :
    bookedValue (ds.foldl (pricedStep ctx) walk).2 transactionId =
      bookedValue walk.2 transactionId + ((ds.filter fun d =>
        d.source.anchorTransactionId = transactionId ∧ (branch ctx d).isExternal = true).length : ℚ) * value := by
  induction ds generalizing walk with
  | nil => simp
  | cons d rest ih =>
    rw [foldl_cons, ih]
    change bookedValue (walk.2 ++ pricedExternal ctx walk.1 d) transactionId + _ = _
    rw [bookedValue_append, bookedValue_external reviewed valued]
    by_cases external : d.source.anchorTransactionId = transactionId ∧ (branch ctx d).isExternal = true
    · rw [if_pos external, filter_cons, if_pos (decide_eq_true external), length_cons]
      push_cast
      ring
    · rw [if_neg external, filter_cons, if_neg fun kept => external (of_decide_eq_true kept)]
      ring

theorem priced_walk (ds : List Located) (walk : LoopState × List PricedRow) :
    (ds.foldl (pricedStep ctx) walk).1 = ds.foldl (loopStep ctx) walk.1 := by
  induction ds generalizing walk with
  | nil => rfl
  | cons d rest ih => exact ih (pricedStep ctx walk d)

theorem loopStep_rows (st : LoopState) (d : Located) : st.rows ⊆ (loopStep ctx st d).rows := by
  unfold loopStep
  split
  case h_5 =>
    split
    · exact Subset.refl _
    · exact subset_append_left _ _
  all_goals first | exact Subset.refl _ | exact subset_append_left _ _

theorem stamped_walk (ds : List Located) (walk : LoopState × List PricedRow)
    (listed : ∀ stamped ∈ walk.2, stamped.row ∈ walk.1.rows) :
    ∀ stamped ∈ (ds.foldl (pricedStep ctx) walk).2, stamped.row ∈ (ds.foldl (pricedStep ctx) walk).1.rows := by
  induction ds generalizing walk with
  | nil => exact listed
  | cons d rest ih =>
    refine ih (pricedStep ctx walk d) fun stamped member => ?_
    rcases mem_append.1 member with old | new
    · exact loopStep_rows _ _ (listed stamped old)
    · unfold pricedExternal at new
      split at new
      · rename_i external
        obtain ⟨price, -, rfl⟩ := mem_map.1 new
        have at_ : branch ctx d = .external := by
          revert external
          cases branch ctx d <;> simp [Branch.isExternal]
        show _ ∈ (loopStep ctx walk.1 d).rows
        unfold loopStep
        rw [at_]
        exact mem_append_right _ (mem_singleton_self _)
      · cases new

/-- Stamping the payouts leaves the projection what it is without them, and stamps rows of it. -/
theorem priced_finalized (compiled : compilePricedTaxProjection args state = .ok (p, priced)) :
    compileFinalizedTaxProjection args state = .ok p ∧ ∀ stamped ∈ priced, stamped.row ∈ p.rows := by
  obtain ⟨ctx, read, run⟩ := bind_ok.1 compiled
  obtain ⟨rows, projected, run⟩ := bind_ok.1 run
  obtain ⟨_, checked, same⟩ := bind_ok.1 run
  cases same
  have walked := @priced_walk ctx ctx.decisions (initialLoop ctx, [])
  refine ⟨?_, fun stamped member => ?_⟩
  · rw [walked] at projected checked ⊢
    exact bind_ok.2 ⟨ctx, read, bind_ok.2 ⟨rows, projected, bind_ok.2 ⟨_, checked, rfl⟩⟩⟩
  · have looped := @stamped_walk ctx ctx.decisions (initialLoop ctx, []) (fun _ => nofun) stamped member
    obtain ⟨inbound, -, same⟩ := bind_ok.1 projected
    cases same
    exact mem_sortedBy.2 (mem_append_left _ (mem_append_left _ looped))

theorem bookedValue_compiled (compiled : compilePricedTaxProjection args state = .ok (p, priced))
    (reviewed : lookup args.payoutsBySource transactionId = some payout)
    (valued : payout.payoutFiatValue = some value) {ds : List Located} (read : locatedDecisions state = .ok ds) :
    bookedValue priced transactionId = ((ds.filter fun d => d.source.anchorTransactionId = transactionId ∧
      (branch (contextOf args state ds) d).isExternal = true).length : ℚ) * value := by
  obtain ⟨ctx, context, run⟩ := bind_ok.1 compiled
  obtain ⟨rows, projected, run⟩ := bind_ok.1 run
  obtain ⟨_, checked, same⟩ := bind_ok.1 run
  cases same
  obtain ⟨_, again, same⟩ := bind_ok.1 context
  rw [read] at again
  cases again
  cases same
  exact (bookedValue_walk reviewed valued ds (initialLoop _, [])).trans (zero_add _)

section
variable {ds : List Located} (read : locatedDecisions state = .ok ds)
include read

theorem located_perm : (ds.map (·.decision)).Perm state.projection.decisions := by
  obtain ⟨sources, sourcing, rest⟩ := bind_ok.1 read
  obtain ⟨_, -, locating⟩ := bind_ok.1 rest
  have firsts : sources.map fst = state.projection.decisions := by
    rw [mapM_map (h := id) ?_ sourcing, map_id]
    intro d entry step
    obtain ⟨o, -, same⟩ := bind_ok.1 step
    cases same
    rfl
  have paired : ds.map (·.decision) = (sortedBy decisionOrder sources).map fst := by
    exact mapM_map (fun entry l step => congrArg fst (located_same step)) locating
  rw [paired, ← firsts]
  exact (sortedBy_perm _ _).map _

variable {l : Located}

theorem found_iff : l ∈ ds ↔ Found state l := by
  obtain ⟨sources, sourcing, rest⟩ := bind_ok.1 read
  obtain ⟨_, -, locating⟩ := bind_ok.1 rest
  constructor
  · intro member
    obtain ⟨entry, listed, placed⟩ := mapM_outputs locating member
    obtain ⟨d, decided, step⟩ := mapM_outputs sourcing (mem_sortedBy.1 listed)
    obtain ⟨o, found, same⟩ := bind_ok.1 step
    cases same
    obtain ⟨rfl, rfl⟩ := Prod.mk.inj (located_same placed)
    exact ⟨decided, step, placed⟩
  · intro found
    obtain ⟨entry, listed, step⟩ := mapM_inputs sourcing found.decided
    rw [found.sourced] at step
    cases step
    obtain ⟨other, member, placed⟩ := mapM_inputs locating (mem_sortedBy.2 listed)
    rw [found.located] at placed
    cases placed
    exact member

theorem broken_iff {id : String} : (contextOf args state ds).blocked id ↔ Broken args state id := by
  have linked : (fun a b => b ∈ moveNeighbors (moveEdges ds) a) = FinalMove state := by
    funext a b
    refine propext ?_
    simp only [mem_moveNeighbors, mem_moveEdges, found_iff read, ← exists_or, ← and_or_left]
    rfl
  refine reached_iff.trans ?_
  rw [linked]
  rfl

theorem external_iff (member : l ∈ ds) :
    l.source.anchorTransactionId = transactionId ∧ (branch (contextOf args state ds) l).isExternal = true ↔
      ExternalDue args state transactionId l := by
  have taken : (branch (contextOf args state ds) l).isExternal = true ↔ Takes (contextOf args state ds) l .external := by
    rw [← branch_iff]
    cases branch (contextOf args state ds) l <;> simp [Branch.isExternal]
  have eligible : (contextOf args state ds).eligible l.decision ↔
      ∃ e ∈ state.taxEligibility.eligibleDecisions, e.source = l.decision.source := eligible_iff
  rw [taken]
  constructor
  · rintro ⟨rfl, takes⟩
    cases takes with
    | external due leaves principal plain =>
    exact ⟨(found_iff read).1 member, rfl, fun broken => due.clear.1 ((broken_iff read).2 broken),
      fun t aimed broken => due.clear.2 t aimed ((broken_iff read).2 broken), eligible.1 due.eligible, due.event, leaves,
      principal, plain⟩
  · rintro ⟨-, rfl, source, target, passed, event, leaves, principal, plain⟩
    have still : l.move = none := by
      unfold Located.move
      rw [if_neg]
      rcases leaves with confirmed | presumed
      · rw [confirmed]
        decide
      · rw [presumed]
        decide
    have clear : Clear (contextOf args state ds) l := ⟨fun blocked => source ((broken_iff read).1 blocked),
      fun t aimed blocked => target t aimed ((broken_iff read).1 blocked)⟩
    exact ⟨rfl, .external ⟨clear, eligible.2 passed, still, event⟩ leaves principal plain⟩

theorem leaves_iff (member : l ∈ ds) :
    LeavesCustody args state transactionId l.decision ↔ ExternalDue args state transactionId l := by
  refine ⟨?_, fun due => ⟨l, rfl, due⟩⟩
  rintro ⟨other, same, due⟩
  have found := (found_iff read).1 member
  have sources := due.found.sourced
  rw [same, found.sourced] at sources
  have places := due.found.located
  rw [same, ← (Prod.mk.inj (Except.ok.inj sources)).2, found.located] at places
  cases places
  exact due

end

theorem length_le_one_iff {α : Type} {xs : List α} : xs.length ≤ 1 ↔ xs.Pairwise fun _ _ => False := by
  match xs with
  | [] => simp
  | [_] => simp
  | first :: second :: _ =>
    refine ⟨fun short => absurd short (by simp), fun none => (pairwise_cons.1 none).1 second (.head _) |>.elim⟩

/-- A reviewed payout is booked at most once exactly when at most one slice of its source is external, or when it is
worth nothing. -/
theorem payout_booked_once_iff (compiled : compilePricedTaxProjection args state = .ok (p, priced))
    (reviewed : lookup args.payoutsBySource transactionId = some payout)
    (valued : payout.payoutFiatValue = some value) :
    (compileFinalizedTaxProjection args state = .ok p ∧ ∀ stamped ∈ priced, stamped.row ∈ p.rows) ∧
      (bookedValue priced transactionId ≤ value ↔
        value = 0 ∨
          (0 < value ∧ state.projection.decisions.Pairwise fun d e =>
            ¬(LeavesCustody args state transactionId d ∧ LeavesCustody args state transactionId e)) ∨
          (value < 0 ∧ ∃ d ∈ state.projection.decisions, LeavesCustody args state transactionId d)) := by
  refine ⟨priced_finalized compiled, ?_⟩
  obtain ⟨ctx, context, -⟩ := bind_ok.1 compiled
  obtain ⟨ds, read, -⟩ := bind_ok.1 context
  have perm := located_perm read
  rw [bookedValue_compiled compiled reviewed valued read]
  set stamped := ds.filter fun d => d.source.anchorTransactionId = transactionId ∧
    (branch (contextOf args state ds) d).isExternal = true with listed
  have once : stamped.length ≤ 1 ↔ state.projection.decisions.Pairwise fun d e =>
      ¬(LeavesCustody args state transactionId d ∧ LeavesCustody args state transactionId e) := by
    rw [length_le_one_iff, listed, pairwise_filter, ← perm.pairwise_iff fun both swapped => both swapped.symm, pairwise_map]
    refine Pairwise.iff_of_mem fun {d e} left right => ?_
    rw [decide_eq_true_eq, decide_eq_true_eq, external_iff read left, external_iff read right, leaves_iff read left,
      leaves_iff read right]
    exact ⟨fun never both => never both.1 both.2, fun never first second => never ⟨first, second⟩⟩
  have some : 1 ≤ stamped.length ↔ ∃ d ∈ state.projection.decisions, LeavesCustody args state transactionId d := by
    rw [Nat.one_le_iff_ne_zero, ← Nat.pos_iff_ne_zero, length_pos_iff_exists_mem]
    constructor
    · rintro ⟨l, member⟩
      obtain ⟨here, external⟩ := (mem_filter.1 member).imp id of_decide_eq_true
      exact ⟨l.decision, ((found_iff read).1 here).decided, (leaves_iff read here).2 ((external_iff read here).1 external)⟩
    · rintro ⟨d, -, l, -, due⟩
      have here := (found_iff read).2 due.found
      exact ⟨l, mem_filter.2 ⟨here, decide_eq_true ((external_iff read here).2 due)⟩⟩
  rw [← once, ← some]
  set count := stamped.length
  rcases lt_trichotomy value 0 with negative | zero | positive
  · have scaled : (count : ℚ) * value ≤ 1 * value ↔ (1 : ℚ) ≤ count := mul_le_mul_right_of_neg negative
    rw [one_mul, Nat.one_le_cast] at scaled
    rw [scaled]
    simp [negative, negative.ne, negative.not_gt]
  · simp [zero]
  · have scaled : (count : ℚ) * value ≤ value ↔ (count : ℚ) ≤ 1 := mul_le_iff_le_one_left positive
    rw [Nat.cast_le_one] at scaled
    rw [scaled]
    simp [positive, positive.ne', positive.not_gt]

end

/-! Half of a payment is reviewed as a swap paid out in cash; the other half is presumed external. -/

def paidComponent : Component :=
  { id := "component-1", effectiveState := "active", conservationMode := .conversion
    legs := [{ id := "leg-1", role := .source, amountMsat := 500, anchorTransactionId := "sent" },
      { id := "leg-2", role := .external, amountMsat := 500 }]
    allocations := [{ id := "allocation-1", sourceLegId := "leg-1", sinkLegId := "leg-2", sourceAmountMsat := 500
                      sinkAmountMsat := 500 }]
    economicTerms := [{ termKind := .directSwapPayout, sourceLegId := "leg-1", targetLegId := "leg-2"
                        legacySourceId := "payout", taxPolicy := "taxable", payoutAsset := "EUR"
                        payoutAmountMsat := 1, payoutFiatValueExact := some 100 }] }

def paidSwap : RuntimeInput :=
  { rows := [sentRow], canonicalInput := sampleInput
    gapSearchResult := { accountingCandidates := [], searchComplete := true }
    effectiveComponents := [paidComponent] }

/-- The arguments of a caller that passes the reviewed payouts of the state on. -/
def paidArguments (s : CanonicalQuantityState) : TaxArguments :=
  { profile := { id := "profile", workspaceId := "books" }, rows := [sentRow]
    directPayoutRecords := s.reviewedDirectPayouts }

theorem paidSwap_compiled : ∃ s p priced payout, buildCanonicalQuantityState sampleHost paidSwap = .ok s ∧
    compilePricedTaxProjection (paidArguments s) s = .ok (p, priced) ∧
    lookup (paidArguments s).payoutsBySource "sent" = some payout ∧ payout.payoutFiatValue = some 100 ∧
    bookedValue priced "sent" = 200 := by
  have run : (do
      let s ← buildCanonicalQuantityState sampleHost paidSwap
      let compiled ← compilePricedTaxProjection (paidArguments s) s
      pure ((lookup (paidArguments s).payoutsBySource "sent").bind (·.payoutFiatValue), bookedValue compiled.2 "sent") :
        Except PyError (Option ℚ × ℚ)).toOption = some (some 100, 200) := by
    rw [build_unaudited sampleHost sampleInput (exists_of_isOk (by decide +kernel)) rfl rfl
      (exists_of_isOk (by decide +kernel)) rfl rfl rfl]
    simp only [projectQuantities_indexed sampleInput_valid]
    decide +kernel
  obtain ⟨s, built, run⟩ := bind_ok.1 (ok_of_toOption run)
  obtain ⟨⟨p, priced⟩, compiled, report⟩ := bind_ok.1 run
  obtain ⟨valued, booked⟩ := Prod.mk.inj (pure_ok.1 report)
  obtain ⟨payout, reviewed, valued⟩ := Option.bind_eq_some_iff.1 valued
  exact ⟨s, p, priced, payout, built, compiled, reviewed, valued, booked⟩

theorem paidSwap_booked_once_iff :
    ∃ s p priced payout, compilePricedTaxProjection (paidArguments s) s = .ok (p, priced) ∧
      lookup (paidArguments s).payoutsBySource "sent" = some payout ∧ payout.payoutFiatValue = some 100 ∧
      (bookedValue priced "sent" ≤ 100 ↔
        (100 : ℚ) = 0 ∨
          ((0 : ℚ) < 100 ∧ s.projection.decisions.Pairwise fun d e =>
            ¬(LeavesCustody (paidArguments s) s "sent" d ∧ LeavesCustody (paidArguments s) s "sent" e)) ∨
          ((100 : ℚ) < 0 ∧ ∃ d ∈ s.projection.decisions, LeavesCustody (paidArguments s) s "sent" d)) := by
  obtain ⟨s, p, priced, payout, -, compiled, reviewed, valued, -⟩ := paidSwap_compiled
  exact ⟨s, p, priced, payout, compiled, reviewed, valued, (payout_booked_once_iff compiled reviewed valued).2⟩

/-- The value is booked on the reviewed slice and on the presumed one. -/
theorem payout_booked_twice :
    ¬∀ host input s, buildCanonicalQuantityState host input = .ok s → ∀ args p priced transactionId payout value,
      compilePricedTaxProjection args s = .ok (p, priced) → lookup args.payoutsBySource transactionId = some payout →
        payout.payoutFiatValue = some value → bookedValue priced transactionId ≤ value := by
  intro once
  obtain ⟨s, p, priced, payout, built, compiled, reviewed, valued, booked⟩ := paidSwap_compiled
  have bounded := once sampleHost paidSwap s built (paidArguments s) p priced "sent" payout 100 compiled reviewed valued
  rw [booked] at bounded
  norm_num at bounded

end Kassiber.Tax

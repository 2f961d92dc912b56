import Kassiber.Lib.Tiling
import Kassiber.Custody.Validation

/-!
Its principal is cut at every claim boundary; on each segment the strongest covering claim wins, unless
authoritative claims disagree or the strongest rank is tied.
-/

namespace Kassiber.Custody
open Lib.Outcome Lib.Sorting Lib.Tiling List

namespace QuantityClaim

def Covers (c : QuantityClaim) (segment : Int × Int) : Prop :=
  c.source.startMsat ≤ segment.1 ∧ segment.2 ≤ c.source.endMsat

instance (c : QuantityClaim) (segment : Int × Int) : Decidable (c.Covers segment) :=
  inferInstanceAs (Decidable (_ ∧ _))

/-- Reviewed and verified interpretations must agree; conventions yield to them. -/
def Authoritative (c : QuantityClaim) : Prop := c.priority.value ≤ ClaimPriority.exactNativeEvent.value

instance (c : QuantityClaim) : Decidable c.Authoritative := inferInstanceAs (Decidable (_ ≤ _))

/-- The image of a segment under the offset map from the claim's source to its target. -/
def imageRange (c : QuantityClaim) (t : QuantitySlice) (segment : Int × Int) : Int × Int :=
  let start := t.startMsat + (segment.1 - c.source.startMsat)
  (start, start + (segment.2 - segment.1))

end QuantityClaim

structure SemanticKey where
  state : QuantityState
  target : Option (String × Int × Int)
  destinationKind : Option DestinationKind
  externalEconomicSubtype : Option ExternalSubtype
  transferKind : Option String
  transferPolicy : Option String
  componentId : Option String
  deriving DecidableEq

def semanticKey (segment : Int × Int) (c : QuantityClaim) : SemanticKey :=
  { state := c.state
    target := c.target.map fun t => (t.observationHash, c.imageRange t segment)
    destinationKind := c.destinationKind
    externalEconomicSubtype := c.externalEconomicSubtype
    transferKind := c.transferKind
    transferPolicy := c.transferPolicy
    componentId := c.componentId }

def claimsOf (claims : List QuantityClaim) (hash : String) : List QuantityClaim :=
  claims.filter fun c => c.source.observationHash = hash

def requiresSuspense (sourceClaims : List QuantityClaim) : Bool :=
  sourceClaims.any fun c => c.state = .custodySuspense

/-- The cuts of a source, in order. They form a set, so no segment between them is empty. -/
def boundaries (source : QuantityObservation) (sourceClaims : List QuantityClaim) : List Int :=
  sortedSet (0 :: source.principalMsat :: sourceClaims.flatMap fun c => [c.source.startMsat, c.source.endMsat])

def contenders (sourceClaims : List QuantityClaim) (segment : Int × Int) : List QuantityClaim :=
  sourceClaims.filter fun c => c.Covers segment

def unmatchedSlice (slice : QuantitySlice) (suspense : Bool) : ArbitratedSlice :=
  { source := slice
    state := if suspense then .custodySuspense else .externalPresumed
    reason := if suspense then "unclaimed_source_residual" else "unmatched_outbound_default" }

def selectedTarget (winner : QuantityClaim) (segment : Int × Int) : Except PyError (Option QuantitySlice) :=
  match winner.target with
  | none => .ok none
  | some t => some <$> QuantitySlice.make t.observationHash (winner.imageRange t segment).1
      (winner.imageRange t segment).2

def selectedSlice (slice : QuantitySlice) (winner : QuantityClaim) (target : Option QuantitySlice) : ArbitratedSlice :=
  { source := slice
    state := winner.state
    reason := winner.reason
    selectedClaimId := some winner.claimId
    atomicBundleId := winner.effectiveBundleId
    transferKind := winner.transferKind
    transferPolicy := winner.transferPolicy
    componentId := winner.componentId
    target := target
    destinationKind := winner.destinationKind
    externalEconomicSubtype := winner.externalEconomicSubtype }

def conflictingSlice (slice : QuantitySlice) (reason : String) (ids : List String) : ArbitratedSlice :=
  { source := slice, state := .conflicting, reason, contenderClaimIds := ids }

def decideSegment (source : QuantityObservation) (sourceClaims : List QuantityClaim) (segment : Int × Int) :
    Except PyError ArbitratedSlice := do
  let slice ← QuantitySlice.make source.quantityHash segment.1 segment.2
  let candidates := contenders sourceClaims segment
  if candidates = [] then
    pure (unmatchedSlice slice (requiresSuspense sourceClaims))
  else
    let authoritative := candidates.filter fun c => c.Authoritative
    if (groupBy (semanticKey segment) authoritative).length > 1 then
      pure (conflictingSlice slice "incompatible_reviewed_claims" (sortedSet (authoritative.map (·.claimId))))
    else
      let best := strongest (candidates.map (·.priority))
      match candidates.filter fun c => c.priority = best with
      | [winner] => do
        let target ← selectedTarget winner segment
        pure (selectedSlice slice winner target)
      | winners =>
        pure (conflictingSlice slice "equal_priority_source_overlap" (sortedBy id (winners.map (·.claimId))))

def decideSource (claims : List QuantityClaim) (source : QuantityObservation) :
    Except PyError (List ArbitratedSlice) :=
  let sourceClaims := claimsOf claims source.quantityHash
  (segments (boundaries source sourceClaims)).mapM (decideSegment source sourceClaims)

def outboundSources (index : Observations) : List QuantityObservation :=
  sortedBy (fun o => toLex (o.occurredAt, o.quantityHash)) (index.filter fun o => o.direction = .outbound)

def sourceDecisions (index : Observations) (claims : List QuantityClaim) : Except PyError (List ArbitratedSlice) := do
  let decided ← (outboundSources index).mapM (decideSource claims)
  pure decided.flatten

def Agreeing (sourceClaims : List QuantityClaim) (segment : Int × Int) : Prop :=
  ∀ c ∈ sourceClaims, ∀ d ∈ sourceClaims, c.Covers segment → d.Covers segment → c.Authoritative →
    d.Authoritative → semanticKey segment c = semanticKey segment d

/-- `winner` is the one claim of the strongest rank over the segment. -/
structure Wins (sourceClaims : List QuantityClaim) (segment : Int × Int) (winner : QuantityClaim) : Prop where
  member : winner ∈ sourceClaims
  covers : winner.Covers segment
  best : ∀ c ∈ sourceClaims, c.Covers segment → winner.priority.value ≤ c.priority.value
  unique : ∀ c ∈ sourceClaims, c.Covers segment → c.priority = winner.priority → c = winner
  agreeing : Agreeing sourceClaims segment

inductive Outcome (sourceClaims : List QuantityClaim) (segment : Int × Int) (slice : QuantitySlice) :
    ArbitratedSlice → Prop
  | unmatched (uncovered : ∀ c ∈ sourceClaims, ¬c.Covers segment) :
      Outcome sourceClaims segment slice (unmatchedSlice slice (requiresSuspense sourceClaims))
  | conflict (reason : String) (ids : List String) (covered : ∃ c ∈ sourceClaims, c.Covers segment) :
      Outcome sourceClaims segment slice (conflictingSlice slice reason ids)
  | selected (winner : QuantityClaim) (target : Option QuantitySlice) (wins : Wins sourceClaims segment winner)
      (image : selectedTarget winner segment = .ok target) :
      Outcome sourceClaims segment slice (selectedSlice slice winner target)

variable {sourceClaims : List QuantityClaim} {segment : Int × Int} {source : QuantityObservation}
  {winner : QuantityClaim}

theorem agreeing_of_groups
    (single : ¬(groupBy (semanticKey segment)
      ((contenders sourceClaims segment).filter fun c => c.Authoritative)).length > 1) :
    Agreeing sourceClaims segment := by
  intro c hc d hd coversC coversD authC authD
  have memberC : c ∈ (contenders sourceClaims segment).filter fun c => c.Authoritative := by
    simp [contenders, hc, coversC, authC]
  have memberD : d ∈ (contenders sourceClaims segment).filter fun c => c.Authoritative := by
    simp [contenders, hd, coversD, authD]
  have groupC := exists_group (semanticKey segment) memberC
  have groupD := exists_group (semanticKey segment) memberD
  obtain ⟨g, only⟩ := length_eq_one_iff.1 (le_antisymm (not_lt.1 single) (length_pos_of_mem groupC))
  rw [only, mem_singleton] at groupC groupD
  exact congrArg Prod.fst (groupC.trans groupD.symm)

theorem decideSegment_outcome {d : ArbitratedSlice} (run : decideSegment source sourceClaims segment = .ok d) :
    d.source.observationHash = source.quantityHash ∧ d.source.range = segment ∧
      Outcome sourceClaims segment d.source d := by
  unfold decideSegment at run
  obtain ⟨slice, built, run⟩ := bind_ok.1 run
  obtain ⟨hash, bounds⟩ := QuantitySlice.make_ok.1 built
  dsimp only at run
  split at run
  · rename_i empty
    cases run
    refine ⟨hash, bounds, .unmatched ?_⟩
    intro c member covers
    have present : c ∈ contenders sourceClaims segment := mem_filter.2 ⟨member, by simpa using covers⟩
    rw [empty] at present
    cases present
  · rename_i nonempty
    have covered : ∃ c ∈ sourceClaims, c.Covers segment := by
      obtain ⟨c, member⟩ := exists_mem_of_ne_nil _ nonempty
      exact ⟨c, (mem_filter.1 member).1, by simpa using (mem_filter.1 member).2⟩
    split at run
    · cases run
      exact ⟨hash, bounds, .conflict _ _ covered⟩
    · rename_i single
      split at run
      · rename_i winner only
        obtain ⟨target, image, run⟩ := bind_ok.1 run
        cases run
        have kept : winner ∈ (contenders sourceClaims segment).filter
            fun c => c.priority = strongest ((contenders sourceClaims segment).map (·.priority)) := by
          rw [only]
          exact mem_singleton_self winner
        obtain ⟨candidate, rank⟩ := mem_filter.1 kept
        obtain ⟨member, covers⟩ := mem_filter.1 candidate
        have strong : winner.priority = strongest ((contenders sourceClaims segment).map (·.priority)) := by
          simpa using rank
        refine ⟨hash, bounds,
          .selected winner target ⟨member, by simpa using covers, ?_, ?_, agreeing_of_groups single⟩ image⟩
        · intro c present inside
          rw [strong]
          exact strongest_le (mem_map.2 ⟨c, mem_filter.2 ⟨present, by simpa using inside⟩, rfl⟩)
        · intro c present inside equal
          have tied : c ∈ (contenders sourceClaims segment).filter
              fun c => c.priority = strongest ((contenders sourceClaims segment).map (·.priority)) :=
            mem_filter.2 ⟨mem_filter.2 ⟨present, by simpa using inside⟩,
              decide_eq_true (equal.trans strong)⟩
          rw [only] at tied
          exact mem_singleton.1 tied
      · cases run
        exact ⟨hash, bounds, .conflict _ _ covered⟩

theorem selectedTarget_total (covers : winner.Covers segment)
    (proper : segment.1 < segment.2) : ∃ target, selectedTarget winner segment = .ok target := by
  unfold selectedTarget
  cases present : winner.target with
  | none => exact ⟨none, rfl⟩
  | some t =>
    have nonneg : 0 ≤ (winner.imageRange t segment).1 := by
      have low := t.start_nonneg
      have above := covers.1
      simp only [QuantityClaim.imageRange]
      omega
    have ordered : (winner.imageRange t segment).1 < (winner.imageRange t segment).2 := by
      simp only [QuantityClaim.imageRange]
      omega
    obtain ⟨slice, built⟩ := QuantitySlice.make_total t.hash_nonempty nonneg ordered
    exact ⟨some slice, map_ok.2 ⟨slice, built, rfl⟩⟩

theorem selectedTarget_some {u : QuantitySlice}
    (image : selectedTarget winner segment = .ok (some u)) :
    ∃ t, winner.target = some t ∧ u.observationHash = t.observationHash ∧ u.range = winner.imageRange t segment := by
  unfold selectedTarget at image
  cases present : winner.target with
  | none =>
    rw [present] at image
    cases image
  | some t =>
    rw [present] at image
    obtain ⟨slice, built, same⟩ := map_ok.1 image
    cases same
    obtain ⟨hash, bounds⟩ := QuantitySlice.make_ok.1 built
    exact ⟨t, rfl, hash, bounds⟩

theorem selectedTarget_none (image : selectedTarget winner segment = .ok none) : winner.target = none := by
  unfold selectedTarget at image
  cases present : winner.target with
  | none => rfl
  | some t =>
    rw [present] at image
    obtain ⟨slice, -, same⟩ := map_ok.1 image
    cases same

theorem decideSegment_total
    (named : source.quantityHash ≠ "") (nonneg : 0 ≤ segment.1) (proper : segment.1 < segment.2) :
    ∃ d, decideSegment source sourceClaims segment = .ok d := by
  obtain ⟨slice, built⟩ := QuantitySlice.make_total named nonneg proper
  unfold decideSegment
  simp only [bind_ok, built]
  simp only [Except.ok.injEq, exists_eq_left']
  split
  · exact ⟨_, rfl⟩
  · split
    · exact ⟨_, rfl⟩
    · split
      · rename_i winner only
        have kept : winner ∈ (contenders sourceClaims segment).filter
            fun c => c.priority = strongest ((contenders sourceClaims segment).map (·.priority)) := by
          rw [only]
          exact mem_singleton_self winner
        have covers : winner.Covers segment := by
          simpa using (mem_filter.1 (mem_filter.1 kept).1).2
        obtain ⟨target, image⟩ := selectedTarget_total covers proper
        exact ⟨_, bind_ok.2 ⟨target, image, rfl⟩⟩
      · exact ⟨_, rfl⟩

structure Bounded (source : QuantityObservation) (sourceClaims : List QuantityClaim) : Prop where
  named : source.quantityHash ≠ ""
  principal : 0 ≤ source.principalMsat
  inside : ∀ c ∈ sourceClaims, c.source.endMsat ≤ source.principalMsat

theorem boundaries_tile
    (bounded : Bounded source sourceClaims) :
    Tiles 0 (segments (boundaries source sourceClaims)) source.principalMsat := by
  refine segments_tiles (sortedSet_strict _) (mem_sortedSet.2 (.head _)) (mem_sortedSet.2 (.tail _ (.head _))) ?_
  intro cut member
  have principal := bounded.principal
  rcases mem_cons.1 (mem_sortedSet.1 member) with rfl | later
  · exact ⟨le_rfl, principal⟩
  · rcases mem_cons.1 later with rfl | claimed
    · exact ⟨principal, le_rfl⟩
    · obtain ⟨c, present, edge⟩ := mem_flatMap.1 claimed
      have low := c.source.start_nonneg
      have proper := c.source.start_lt_end
      have high := bounded.inside c present
      rcases mem_cons.1 edge with rfl | last
      · omega
      · have same : cut = c.source.endMsat := by simpa using last
        omega

theorem decideSource_total {claims : List QuantityClaim}
    (bounded : Bounded source (claimsOf claims source.quantityHash)) : ∃ ds, decideSource claims source = .ok ds := by
  refine mapM_total ?_
  intro segment member
  obtain ⟨low, proper, -⟩ := tiles_bounds (boundaries_tile bounded) member
  exact decideSegment_total bounded.named low proper

theorem decideSource_ranges {claims : List QuantityClaim} {ds : List ArbitratedSlice}
    (run : decideSource claims source = .ok ds) :
    ds.map (·.source.range) = segments (boundaries source (claimsOf claims source.quantityHash)) := by
  have paired := mapM_ok.1 run
  clear run
  generalize segments (boundaries source (claimsOf claims source.quantityHash)) = cuts at paired
  induction paired with
  | nil => rfl
  | cons head _ ih => rw [map_cons, ih, (decideSegment_outcome head).2.1]

/-- A decision as arbitration makes it, before targets and bundles are reconciled. -/
structure Decided (index : Observations) (claims : List QuantityClaim) (d : ArbitratedSlice) : Prop where
  source : ∃ o ∈ index, o.direction = .outbound ∧ o.quantityHash = d.source.observationHash
  segment : ∀ o ∈ index, o.quantityHash = d.source.observationHash →
    d.source.range ∈ segments (boundaries o (claimsOf claims o.quantityHash))
  outcome : Outcome (claimsOf claims d.source.observationHash) d.source.range d.source d

theorem mem_outboundSources {index : Observations} {o : QuantityObservation} :
    o ∈ outboundSources index ↔ o ∈ index ∧ o.direction = .outbound := by
  simp [outboundSources]

section
variable {index : Observations} {claims : List QuantityClaim}

variable {o : QuantityObservation}

theorem bounded_of_grounded (good : ValidIndex index) (grounded : ∀ c ∈ claims, Grounded index c)
    (member : o ∈ index) : Bounded o (claimsOf claims o.quantityHash) := by
  refine ⟨good.hash_nonempty member, (good.sound member).principal_nonneg, ?_⟩
  intro c present
  obtain ⟨claimed, same⟩ := mem_filter.1 present
  obtain ⟨p, found, inside⟩ := (grounded c claimed).source
  obtain ⟨stored, -⟩ := outboundSource_some.1 found
  have hash : c.source.observationHash = o.quantityHash := by simpa using same
  rw [hash, good.get member] at stored
  cases stored
  exact inside

theorem sourceDecisions_total (good : ValidIndex index) (grounded : ∀ c ∈ claims, Grounded index c) :
    ∃ ds, sourceDecisions index claims = .ok ds := by
  have each : ∀ o ∈ outboundSources index, ∃ part, decideSource claims o = .ok part := fun o member =>
    decideSource_total (bounded_of_grounded good grounded (mem_outboundSources.1 member).1)
  obtain ⟨decided, run⟩ := mapM_total each
  exact ⟨decided.flatten, bind_ok.2 ⟨decided, run, rfl⟩⟩

variable {ds : List ArbitratedSlice} (run : sourceDecisions index claims = .ok ds)
include run

theorem sourceDecisions_decided (good : ValidIndex index) {d : ArbitratedSlice} (member : d ∈ ds) :
    Decided index claims d := by
  obtain ⟨decided, made, same⟩ := bind_ok.1 run
  cases same
  obtain ⟨part, present, inside⟩ := mem_flatten.1 member
  obtain ⟨o, listed, step⟩ := mapM_outputs made present
  obtain ⟨observed, outbound⟩ := mem_outboundSources.1 listed
  obtain ⟨segment, cut, decision⟩ := mapM_outputs step inside
  obtain ⟨hash, range, outcome⟩ := decideSegment_outcome decision
  refine ⟨⟨o, observed, outbound, hash.symm⟩, ?_, ?_⟩
  · intro p stored equal
    rw [good.eq_of_hash stored observed (equal.trans hash), range]
    exact cut
  · rw [hash, range]
    exact outcome

theorem sourceDecisions_filter (good : ValidIndex index) (observed : o ∈ index)
    (outbound : o.direction = .outbound) :
    decideSource claims o = .ok (ds.filter fun d => d.source.observationHash = o.quantityHash) := by
  obtain ⟨decided, made, same⟩ := bind_ok.1 run
  cases same
  refine mapM_flatten_filter QuantityObservation.quantityHash (fun d : ArbitratedSlice => d.source.observationHash) ?_ made ?_
    (mem_outboundSources.2 ⟨observed, outbound⟩)
  · intro s part step d inside
    obtain ⟨segment, -, decision⟩ := mapM_outputs step inside
    exact (decideSegment_outcome decision).1
  · exact ((sortedBy_perm _ _).map _).nodup_iff.2 (good.distinct.sublist (filter_sublist.map _))

theorem sourceDecisions_tile (good : ValidIndex index) (grounded : ∀ c ∈ claims, Grounded index c)
    (observed : o ∈ index) (outbound : o.direction = .outbound) :
    Tiles 0 ((ds.filter fun d => d.source.observationHash = o.quantityHash).map (·.source.range)) o.principalMsat := by
  rw [decideSource_ranges (sourceDecisions_filter run good observed outbound)]
  exact boundaries_tile (bounded_of_grounded good grounded observed)

end

end Kassiber.Custody

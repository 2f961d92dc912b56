import Kassiber.Custody.Conservation

/-!
A finalized slice rests on an accepted claim that no other authoritative claim contradicts, a rejected bundle
suspends what it touches, and bundles are atomic.
-/

namespace Kassiber.Custody
open Lib.Outcome Lib.Sorting Lib.Tiling Lib.Sums List

variable {c : QuantityClaim} {p : QuantityProjection}

theorem authoritative_of_finalized (final : c.state ∈ QuantityState.finalizedStates) : c.Authoritative := by
  have ranked := c.sound.ranked
  unfold QuantityClaim.Authoritative
  cases state : c.state <;> rw [state] at ranked final <;>
    simp [statePriorities, QuantityState.finalizedStates] at ranked final
  · rw [ranked]
  · simp [ranked, ClaimPriority.value]
  · rcases ranked with rank | rank <;> simp [rank, ClaimPriority.value]

theorem claimStates_ne_presumed (c : QuantityClaim) : c.state ≠ .externalPresumed := by
  intro presumed
  have claimable := c.sound.claimable
  rw [presumed] at claimable
  simp [QuantityState.claimStates] at claimable

variable {claims : List QuantityClaim}

theorem mem_claimsOf {hash : String} :
    c ∈ claimsOf claims hash ↔ c ∈ claims ∧ c.source.observationHash = hash := by
  simp [claimsOf]

section
variable {index : Observations} {claims : List QuantityClaim} {d : ArbitratedSlice}

/-- A suspense claim over a whole source and a decision on that source. -/
structure Suspends (s : QuantityClaim) (d : ArbitratedSlice) : Prop where
  suspense : s.state = .custodySuspense
  source : s.source.observationHash = d.source.observationHash
  covers : s.Covers d.source.range

/-- Against a suspense claim a decision is final only by a strictly stronger claim, and never over an
authoritative one. -/
theorem suspended_decision (final : Final index claims d) {s : QuantityClaim} (member : s ∈ claims)
    (suspends : Suspends s d) (finalized : d.state ∈ QuantityState.finalizedStates) :
    ∃ winner ∈ claims, d.selectedClaimId = some winner.claimId ∧ winner.state = d.state ∧
      winner.priority.value < s.priority.value ∧ ¬s.Authoritative := by
  have listed : s ∈ claimsOf claims d.source.observationHash := mem_claimsOf.2 ⟨member, suspends.source⟩
  have outcome := final_outcome final (.inr (.inr (by
    intro conflicting
    rw [conflicting] at finalized
    simp [QuantityState.finalizedStates] at finalized)))
  have covers := suspends.covers
  generalize range : d.source.range = segment at outcome covers
  generalize slice : d.source = source at outcome listed
  cases outcome with
  | unmatched uncovered => exact absurd covers (uncovered s listed)
  | conflict _ _ _ => simp [conflictingSlice, QuantityState.finalizedStates] at finalized
  | selected winner target wins image =>
    have notSuspense : winner.state ≠ .custodySuspense := by
      intro same
      have held : winner.state ∈ QuantityState.finalizedStates := finalized
      rw [same] at held
      simp [QuantityState.finalizedStates] at held
    have weaker : winner.priority ≠ s.priority := by
      intro same
      have equal := wins.unique s listed covers same.symm
      exact notSuspense (equal ▸ suspends.suspense)
    refine ⟨winner, (mem_claimsOf.1 wins.member).1, rfl, rfl, ?_, ?_⟩
    · exact lt_of_le_of_ne (wins.best s listed covers) fun same => weaker (ClaimPriority.value_injective same)
    · intro authoritative
      have agree := wins.agreeing winner wins.member s listed wins.covers covers
        (authoritative_of_finalized finalized) authoritative
      exact notSuspense ((congrArg SemanticKey.state agree).trans suspends.suspense)

theorem suspense_never_presumed (final : Final index claims d) {s : QuantityClaim} (member : s ∈ claims)
    (suspense : s.state = .custodySuspense) (source : s.source.observationHash = d.source.observationHash) :
    d.state ≠ .externalPresumed := by
  intro presumed
  have listed : s ∈ claimsOf claims d.source.observationHash := mem_claimsOf.2 ⟨member, source⟩
  have required : requiresSuspense (claimsOf claims d.source.observationHash) = true :=
    any_eq_true.2 ⟨s, listed, decide_eq_true suspense⟩
  have outcome := final_outcome final (.inr (.inr (by simp [presumed])))
  generalize d.source.range = segment at outcome
  generalize slice : d.source = held at outcome required
  cases outcome with
  | unmatched _ => simp [unmatchedSlice, required] at presumed
  | conflict _ _ _ => simp [conflictingSlice] at presumed
  | selected winner target wins image => exact claimStates_ne_presumed winner presumed

end

section
variable {observations : Observations} {claims : List QuantityClaim} {v : ValidatedInputs}
  (validated : validatedInputs observations claims = .ok v)
include validated

theorem accepted_of_finalized {c : QuantityClaim} (member : c ∈ v.claims) (other : c.state ≠ .custodySuspense) :
    Accepted observations claims c := by
  rcases (mem_validated_claims validated).1 member with accepted | ⟨entry, -, built⟩
  · exact accepted
  · obtain ⟨_, _, -, -, fields⟩ := malformedBundleClaim_ok.1 built
    exact absurd (congrArg ClaimFields.state fields) other

theorem rejected_suspends {ds : List ArbitratedSlice} (arbitrated : sourceDecisions observations v.claims = .ok ds)
    {bundle : String × List QuantityClaim} (rejected : bundle ∈ rejectedBundles observations claims)
    {o : QuantityObservation} (observed : o ∈ observations) (touched : o.quantityHash ∈ knownSources observations bundle.2)
    {d : ArbitratedSlice} (member : d ∈ reconcile v.claims ds) (source : d.source.observationHash = o.quantityHash) :
    ∃ s ∈ v.claims, Suspends s d ∧ s.priority.value ≤ (suspensePriority bundle.2).value := by
  obtain ⟨s, present, -, suspense, hash, range, rank⟩ := rejected_source_suspended validated rejected observed touched
  have settled := reconciled_settled validated arbitrated
  obtain ⟨p, stored, outbound, same⟩ := settled.sources d member
  have equal : p = o := settled.good.eq_of_hash stored observed (same.trans source)
  subst equal
  have bounds := tiles_bounds (settled.tiles p observed outbound)
    (mem_map.2 ⟨d, mem_filter.2 ⟨member, decide_eq_true source⟩, rfl⟩)
  obtain ⟨low, high⟩ := Prod.mk.inj range
  refine ⟨s, present, ⟨suspense, hash.trans source.symm, ?_⟩, rank⟩
  exact ⟨by rw [low]; exact bounds.1, by rw [high]; exact bounds.2.2⟩

theorem finalized_authority {ds : List ArbitratedSlice} (arbitrated : sourceDecisions observations v.claims = .ok ds)
    {d : ArbitratedSlice} (member : d ∈ reconcile v.claims ds) (finalized : d.state ∈ QuantityState.finalizedStates)
    {id : String} (selects : d.selectedClaimId = some id) :
    ∃ c, Accepted observations claims c ∧ c.claimId = id ∧ c.source.observationHash = d.source.observationHash ∧
      c.Covers d.source.range ∧
      d.target.map (fun t => (t.observationHash, t.range)) =
        c.target.map (fun t => (t.observationHash, c.imageRange t d.source.range)) ∧
      ∀ other, Accepted observations claims other → other.source.observationHash = d.source.observationHash →
        other.Covers d.source.range → other.Authoritative →
        semanticKey d.source.range other = semanticKey d.source.range c := by
  obtain ⟨winner, target, wins, image, same⟩ := final_winner (reconciled_final validated arbitrated member) selects
  obtain ⟨present, source⟩ := mem_claimsOf.1 wins.member
  have state : winner.state ∈ QuantityState.finalizedStates := by
    rw [same] at finalized
    exact finalized
  have other : winner.state ≠ .custodySuspense := by
    intro suspense
    rw [suspense] at state
    simp [QuantityState.finalizedStates] at state
  have named : winner.claimId = id := by
    rw [same] at selects
    exact Option.some.inj selects
  have aimed : d.target = target := by rw [same]; rfl
  refine ⟨winner, accepted_of_finalized validated present other, named, source, wins.covers, ?_, ?_⟩
  · rw [aimed]
    cases target with
    | none => simp [selectedTarget_none image]
    | some u =>
      obtain ⟨t, goal, hash, range⟩ := selectedTarget_some image
      simp [goal, hash, range]
  · intro c accepted onSource covers authoritative
    have listed : c ∈ claimsOf v.claims d.source.observationHash :=
      mem_claimsOf.2 ⟨(mem_validated_claims validated).2 (.inl accepted), onSource⟩
    exact wins.agreeing c listed winner wins.member covers wins.covers authoritative (authoritative_of_finalized state)

end

theorem suspensePriority_le {members : List QuantityClaim} {m : QuantityClaim} (member : m ∈ members) :
    (suspensePriority members).value ≤ m.priority.value := by
  refine strongest_le (mem_filter.2 ⟨mem_map.2 ⟨m, member, rfl⟩, ?_⟩)
  cases m.priority <;> decide

/-- Finalized slices rest on accepted, uncontradicted claims; suspense is never presumed away. -/
theorem projectQuantities_fails_closed {observations : Observations} {claims : List QuantityClaim}
    {v : ValidatedInputs} (validated : validatedInputs observations claims = .ok v)
    (run : projectQuantities observations claims = .ok p) :
    (∀ d ∈ p.decisions, d.finalized = true → ∀ id, d.selectedClaimId = some id →
      ∃ c, Accepted observations claims c ∧ c.claimId = id ∧ c.source.observationHash = d.source.observationHash ∧
        c.Covers d.source.range ∧
        d.target.map (fun t => (t.observationHash, t.range)) =
          c.target.map (fun t => (t.observationHash, c.imageRange t d.source.range)) ∧
        ∀ other, Accepted observations claims other → other.source.observationHash = d.source.observationHash →
          other.Covers d.source.range → other.Authoritative →
          semanticKey d.source.range other = semanticKey d.source.range c) ∧
    (p.decisions.filterMap (·.target)).Pairwise QuantitySlice.Apart ∧
    (∀ bundle ∈ rejectedBundles observations claims, (∃ m ∈ bundle.2, m.Authoritative) →
      ∀ d ∈ p.decisions, d.source.observationHash ∈ knownSources observations bundle.2 → d.finalized = false) ∧
    ∀ s ∈ v.claims, s.state = .custodySuspense →
      ∀ d ∈ p.decisions, d.source.observationHash = s.source.observationHash → d.state ≠ .externalPresumed := by
  obtain ⟨v', ds, validated', arbitrated, -, -, decisions, -⟩ := projectQuantities_ok run
  rw [validated] at validated'
  cases validated'
  rw [decisions]
  refine ⟨?_, ?_, ?_, ?_⟩
  · intro d member finalized id selects
    exact finalized_authority validated arbitrated (mem_sortedBy.1 member) (of_decide_eq_true finalized) selects
  · exact (((sortedBy_perm _ _).filterMap _).pairwise_iff QuantitySlice.Apart.symm).2
      (reconciled_apart validated arbitrated)
  · rintro bundle rejected ⟨m, inside, authoritative⟩ d member touched
    by_contra other
    have final := reconciled_final validated arbitrated (mem_sortedBy.1 member)
    obtain ⟨o, observed, -, hash⟩ := final_source final
    obtain ⟨s, present, suspends, rank⟩ := rejected_suspends validated arbitrated rejected observed (hash ▸ touched)
      (mem_sortedBy.1 member) hash.symm
    obtain ⟨-, -, -, -, -, weak⟩ := suspended_decision final present suspends
      (of_decide_eq_true (Bool.not_eq_false _ ▸ other))
    exact weak (le_trans rank (le_trans (suspensePriority_le inside) authoritative))
  · intro s present suspense d member source
    exact suspense_never_presumed (reconciled_final validated arbitrated (mem_sortedBy.1 member)) present suspense
      source.symm

/-! Two moves out of one payment, and another payment whose claim reaches past its principal. -/

def sampleLower : QuantityClaim :=
  { sampleMove with
    claimId := "lower", source := sampleSlice 'a' 0 200 (by decide), target := some (sampleSlice 'b' 0 200 (by decide))
    atomicBundleId := some "halves", constructible := by decide }

def sampleUpper : QuantityClaim :=
  { sampleMove with
    claimId := "upper", source := sampleSlice 'a' 200 600 (by decide), target := some (sampleSlice 'b' 200 600 (by decide))
    atomicBundleId := some "halves", constructible := by decide }

def sampleOther : QuantityObservation :=
  { sampleSent with transactionId := "other", anchorTransactionId := "other", quantityHash := sampleHash 'c' }

def sampleOverlong : QuantityClaim :=
  { claimId := "overlong", source := sampleSlice 'c' 0 2000 (by decide), state := .externalConfirmed
    priority := .exactNativeEvent, reason := "payment", constructible := by decide }

def sampleTrio : Observations := [sampleSent, sampleReceived, sampleOther]

theorem sampleTrio_valid : ∀ o ∈ sampleTrio, o.Valid := by
  have other : sampleOther.Valid := by
    simp [QuantityObservation.Valid, QuantityObservation.validate, bind_unit_ok, raiseIf_ok, sampleOther, sampleSent,
      sampleHash_hex]
  simp [sampleTrio, sampleSent_valid, sampleReceived_valid, other]

theorem sampleTrio_distinct : (sampleTrio.map QuantityObservation.quantityHash).Nodup := by decide +kernel

theorem projectQuantities_fails_closed_parts :
    ∃ v p, validatedInputs sampleTrio [sampleLower, sampleUpper, sampleOverlong] = .ok v ∧
      projectQuantities sampleTrio [sampleLower, sampleUpper, sampleOverlong] = .ok p ∧
      (∀ d ∈ p.decisions, d.finalized = true → ∀ id, d.selectedClaimId = some id →
        ∃ c, Accepted sampleTrio [sampleLower, sampleUpper, sampleOverlong] c ∧ c.claimId = id ∧ c.Covers d.source.range) ∧
      (p.decisions.filterMap (·.target)).Pairwise QuantitySlice.Apart ∧
      ∀ d ∈ p.decisions, d.source.observationHash = sampleHash 'c' → d.finalized = false := by
  obtain ⟨v, validated⟩ := (validatedInputs_total_iff ⟨sampleTrio_valid, sampleTrio_distinct⟩
    [sampleLower, sampleUpper, sampleOverlong]).2 (by decide +kernel)
  obtain ⟨p, run⟩ := projectQuantities_total validated
  obtain ⟨selected, apart, held, -⟩ := projectQuantities_fails_closed validated run
  have rejected : ∃ bundle ∈ rejectedBundles sampleTrio [sampleLower, sampleUpper, sampleOverlong],
      (∃ m ∈ bundle.2, m.Authoritative) ∧ sampleHash 'c' ∈ knownSources sampleTrio bundle.2 := by decide +kernel
  obtain ⟨bundle, listed, authoritative, known⟩ := rejected
  refine ⟨v, p, validated, run, ?_, apart, ?_⟩
  · intro d member finalized id selects
    obtain ⟨c, accepted, named, -, covers, -⟩ := selected d member finalized id selects
    exact ⟨c, accepted, named, covers⟩
  · exact fun d member source => held bundle listed authoritative d member (source ▸ known)

/-- Malformed bundles are reported, hold their known sources in suspense against all but stronger accepted
claims, and leave every source arbitrated. -/
def Isolates (observations : Observations) (claims : List QuantityClaim) (p : QuantityProjection) : Prop :=
  (∀ bundle ∈ rejectedBundles observations claims, bundleError observations claims bundle ∈ p.claimErrors ∧
    ∀ d ∈ p.decisions, d.source.observationHash ∈ knownSources observations bundle.2 →
      d.state ∈ QuantityState.unresolvedStates ∨ ∃ c, Accepted observations claims c ∧
        d.selectedClaimId = some c.claimId ∧ c.priority.value < (suspensePriority bundle.2).value) ∧
  ∀ o ∈ observations, o.direction = .outbound →
    Tiles 0 ((p.decisions.filter fun d => d.source.observationHash = o.quantityHash).map (·.source.range)) o.principalMsat

theorem finalized_or_unresolved (state : QuantityState) :
    state ∈ QuantityState.finalizedStates ∨ state ∈ QuantityState.unresolvedStates := by
  cases state <;> decide

/-- An authoritative suspense claim over a whole source keeps every decision on it unresolved, whatever becomes of
the claim itself. -/
theorem held_unresolved {observations : Observations}
    (run : projectQuantities observations claims = .ok p) {s : QuantityClaim} (member : s ∈ claims)
    (suspense : s.state = .custodySuspense) (authoritative : s.Authoritative) {o : QuantityObservation}
    (observed : o ∈ observations) (outbound : o.direction = .outbound)
    (hash : s.source.observationHash = o.quantityHash) (range : s.source.range = (0, o.principalMsat))
    {d : ArbitratedSlice} (decided : d ∈ p.decisions) (source : d.source.observationHash = o.quantityHash) :
    d.state ∈ QuantityState.unresolvedStates := by
  obtain ⟨v, ds, validated, arbitrated, -, -, decisions, -⟩ := projectQuantities_ok run
  rw [decisions] at decided
  have reconciled := mem_sortedBy.1 decided
  have final := reconciled_final validated arbitrated reconciled
  rcases finalized_or_unresolved d.state with finalized | unresolved
  · exfalso
    by_cases clean : bundleFaults observations claims (bundleMembers claims s.bundleId) = []
    · have settled := reconciled_settled validated arbitrated
      have bounds := tiles_bounds (settled.tiles o observed outbound)
        (mem_map.2 ⟨d, mem_filter.2 ⟨reconciled, decide_eq_true source⟩, rfl⟩)
      obtain ⟨low, high⟩ := Prod.mk.inj range
      have covers : s.Covers d.source.range := ⟨by rw [low]; exact bounds.1, by rw [high]; exact bounds.2.2⟩
      have present : s ∈ v.claims := (mem_validated_claims validated).2 (.inl ⟨member, clean⟩)
      obtain ⟨-, -, -, -, -, weak⟩ := suspended_decision final present ⟨suspense, hash.trans source.symm, covers⟩ finalized
      exact weak authoritative
    · have rejected : (s.bundleId, bundleMembers claims s.bundleId) ∈ rejectedBundles observations claims :=
        mem_rejectedBundles.2 ⟨mem_claimBundles.2 ⟨rfl, s, member, rfl⟩, clean⟩
      have inside : s ∈ bundleMembers claims s.bundleId := mem_bundleMembers.2 ⟨member, rfl⟩
      have good := (validated_index validated).2
      have touched : o.quantityHash ∈ knownSources observations (bundleMembers claims s.bundleId) :=
        mem_knownSources.2 ⟨s, inside, o, outboundSource_some.2 ⟨hash ▸ good.get observed, outbound⟩, rfl⟩
      obtain ⟨t, present, suspends, rank⟩ := rejected_suspends validated arbitrated rejected observed touched reconciled source
      obtain ⟨-, -, -, -, -, weak⟩ := suspended_decision final present suspends finalized
      exact weak (le_trans rank (le_trans (suspensePriority_le inside) authoritative))
  · exact unresolved

theorem projectQuantities_isolates {observations : Observations}
    (run : projectQuantities observations claims = .ok p) : Isolates observations claims p := by
  obtain ⟨v, ds, validated, arbitrated, -, -, decisions, errors⟩ := projectQuantities_ok run
  have settled := reconciled_settled validated arbitrated
  refine ⟨?_, ?_⟩
  · intro bundle rejected
    refine ⟨?_, ?_⟩
    · rw [errors, validated_errors validated]
      exact mem_map.2 ⟨bundle, rejected, rfl⟩
    · intro d member touched
      rw [decisions] at member
      rcases finalized_or_unresolved d.state with finalized | unresolved
      · have final := reconciled_final validated arbitrated (mem_sortedBy.1 member)
        obtain ⟨o, observed, -, hash⟩ := final_source final
        obtain ⟨s, present, suspends, rank⟩ := rejected_suspends validated arbitrated rejected observed (hash ▸ touched)
          (mem_sortedBy.1 member) hash.symm
        obtain ⟨winner, among, selects, state, stronger, -⟩ := suspended_decision final present suspends finalized
        have accepted := accepted_of_finalized validated among (by
          rw [state]
          rintro same
          rw [same] at finalized
          simp [QuantityState.finalizedStates] at finalized)
        exact .inr ⟨winner, accepted, selects, lt_of_lt_of_le stronger rank⟩
      · exact .inl unresolved
  · intro o observed outbound
    rw [decisions, place_sorted_filter settled observed outbound]
    exact settled.tiles o observed outbound

/-- Projection returns and isolates every malformed bundle exactly when no claim names a fee-only outbound as
its source. -/
theorem projectQuantities_isolates_iff {observations : Observations} (valid : ∀ o ∈ observations, o.Valid)
    (distinct : (observations.map QuantityObservation.quantityHash).Nodup) (claims : List QuantityClaim) :
    (∃ p, projectQuantities observations claims = .ok p ∧ Isolates observations claims p) ↔
      ∀ c ∈ claims, ∀ o ∈ observations, o.direction = .outbound → o.quantityHash = c.source.observationHash →
        o.principalMsat ≠ 0 := by
  have good : ValidIndex observations := ⟨valid, distinct⟩
  have condition : (∃ v, validatedInputs observations claims = .ok v) ↔
      ∀ c ∈ claims, ∀ o ∈ observations, o.direction = .outbound → o.quantityHash = c.source.observationHash →
        o.principalMsat ≠ 0 := by
    rw [validatedInputs_total_iff good]
    constructor
    · intro nonzero c member o observed outbound hash
      exact nonzero c member o (outboundSource_some.2 ⟨hash ▸ good.get observed, outbound⟩)
    · intro nonzero c member o found
      obtain ⟨stored, outbound⟩ := outboundSource_some.1 found
      obtain ⟨observed, hash⟩ := get_some stored
      exact nonzero c member o observed outbound hash
  rw [← condition]
  constructor
  · rintro ⟨p, run, -⟩
    obtain ⟨v, _, validated, -⟩ := projectQuantities_ok run
    exact ⟨v, validated⟩
  · rintro ⟨v, validated⟩
    obtain ⟨p, run⟩ := projectQuantities_total validated
    exact ⟨p, run, projectQuantities_isolates run⟩

theorem projectQuantities_isolates_iff_overlong :
    rejectedBundles sampleTrio [sampleMove, sampleOverlong] ≠ [] ∧
      ∃ p, projectQuantities sampleTrio [sampleMove, sampleOverlong] = .ok p ∧
        Isolates sampleTrio [sampleMove, sampleOverlong] p :=
  ⟨by decide +kernel, (projectQuantities_isolates_iff sampleTrio_valid sampleTrio_distinct [sampleMove, sampleOverlong]).2
    (by decide +kernel)⟩

/-! An outbound that only paid its fee, and a claim that takes it for a payment of one msat. -/

def sampleFeeOnly : QuantityObservation :=
  { sampleSent with transactionId := "fee", anchorTransactionId := "fee", quantityHash := sampleHash 'c', amountMsat := 0 }

def sampleFeeClaim : QuantityClaim :=
  { claimId := "wrong", source := sampleSlice 'c' 0 1 (by decide), state := .externalConfirmed
    priority := .exactNativeEvent, reason := "payment", constructible := by decide }

/-- The suspense claim over an empty principal cannot be built, so a malformed claim on it aborts the projection. -/
theorem projectQuantities_feeOnly_raises :
    (∀ o ∈ [sampleFeeOnly, sampleSent], o.Valid) ∧
      ([sampleFeeOnly, sampleSent].map QuantityObservation.quantityHash).Nodup ∧
      projectQuantities [sampleFeeOnly, sampleSent] [sampleFeeClaim] =
        .error (.valueError "quantity slices require a non-empty half-open msat range") := by
  have valid : ∀ o ∈ [sampleFeeOnly, sampleSent], o.Valid := by
    simp [QuantityObservation.Valid, QuantityObservation.validate, bind_unit_ok, raiseIf_ok,
      sampleFeeOnly, sampleSent, sampleHash_hex]
  have distinct : ([sampleFeeOnly, sampleSent].map QuantityObservation.quantityHash).Nodup := by decide +kernel
  refine ⟨valid, distinct, ?_⟩
  have failed : (invalidSources [sampleFeeOnly, sampleSent] [sampleFeeClaim]).mapM
      (malformedBundleClaim [sampleFeeOnly, sampleSent]) =
        .error (.valueError "quantity slices require a non-empty half-open msat range") := by decide +kernel
  unfold projectQuantities
  rw [validatedInputs_eq ⟨valid, distinct⟩, failed]
  rfl

section
variable {observations : Observations} {claims : List QuantityClaim} {v : ValidatedInputs}
  (validated : validatedInputs observations claims = .ok v)
include validated

theorem validated_ids_nodup (unreserved : ∀ c ∈ claims, ∀ hash, c.claimId ≠ "malformed-claim-bundle:" ++ hash) :
    (v.claims.map (·.claimId)).Nodup := by
  obtain ⟨-, suspended, made, rfl⟩ := validatedInputs_ok.1 validated
  refine ((sortedBy_perm _ _).map _).nodup_iff.2 ?_
  rw [map_append, nodup_append]
  have synthetic : suspended.map (·.claimId) = (invalidSources observations claims).map (malformedClaimId ∘ Prod.fst) := by
    have paired := mapM_ok.1 made
    clear made validated
    generalize invalidSources observations claims = entries at paired
    induction paired with
    | nil => rfl
    | cons head _ ih =>
      obtain ⟨_, _, -, -, fields⟩ := malformedBundleClaim_ok.1 head
      rw [map_cons, map_cons, ih]
      exact congrArg (· :: _) (congrArg ClaimFields.claimId fields)
  refine ⟨accepted_ids_nodup observations claims, ?_, ?_⟩
  · rw [synthetic, ← map_map]
    exact (invalidSources_keys_nodup observations claims).map fun _ _ same => Lib.Text.append_left_cancel same
  · intro id old other new
    rintro rfl
    rw [synthetic] at new
    obtain ⟨c, member, named⟩ := mem_map.1 old
    obtain ⟨entry, -, same⟩ := mem_map.1 new
    exact unreserved c (mem_acceptedBundles.1 member).1 entry.1 (named.trans same.symm)

theorem selected_tiles (distinct : (v.claims.map (·.claimId)).Nodup) {p : QuantityProjection}
    (run : projectQuantities observations claims = .ok p) {c : QuantityClaim} (member : c ∈ v.claims)
    (full : sourceMsat (selecting p.decisions c.claimId) = c.source.amountMsat) :
    Tiles c.source.startMsat ((selecting p.decisions c.claimId).map (·.source.range)) c.source.endMsat := by
  obtain ⟨v', ds, validated', arbitrated, -, -, decisions, -⟩ := projectQuantities_ok run
  rw [validated] at validated'
  cases validated'
  have settled := reconciled_settled validated arbitrated
  have chosen : ∀ d ∈ selecting p.decisions c.claimId,
      d.source.observationHash = c.source.observationHash ∧ c.Covers d.source.range := by
    intro d inside
    obtain ⟨present, selects⟩ := mem_filter.1 inside
    rw [decisions] at present
    obtain ⟨winner, _, wins, -, same⟩ := final_winner
      (reconciled_final validated arbitrated (mem_sortedBy.1 present)) (of_decide_eq_true selects)
    obtain ⟨among, source⟩ := mem_claimsOf.1 wins.member
    have named : winner.claimId = c.claimId := by
      have held := of_decide_eq_true selects
      rw [same] at held
      exact Option.some.inj held
    have equal : winner = c := inj_on_of_nodup_map distinct among member named
    exact equal ▸ ⟨source.symm, wins.covers⟩
  obtain ⟨o, found, -⟩ := (validated_grounded validated member).source
  obtain ⟨stored, outbound⟩ := outboundSource_some.1 found
  obtain ⟨observed, hash⟩ := get_some stored
  have onSource : selecting p.decisions c.claimId =
      (p.decisions.filter fun d => d.source.observationHash = o.quantityHash).filter
        fun d => d.selectedClaimId = some c.claimId := by
    unfold selecting
    rw [filter_filter]
    refine filter_congr ?_
    intro d present
    by_cases selects : d.selectedClaimId = some c.claimId
    · have inside : d ∈ selecting p.decisions c.claimId := mem_filter.2 ⟨present, decide_eq_true selects⟩
      simp [selects, (chosen d inside).1, hash]
    · simp [selects]
  have ordered : ((selecting p.decisions c.claimId).map (·.source.range)).Pairwise fun r s => r.2 ≤ s.1 := by
    rw [onSource, decisions, place_sorted_filter settled observed outbound]
    exact (tiles_pairwise (settled.tiles o observed outbound)).sublist (filter_sublist.map _)
  refine tiles_of_sum (spaced_of_pairwise (le_of_lt c.source.start_lt_end) ?_ ordered) ?_
  · intro r inside
    obtain ⟨d, chosenD, rfl⟩ := mem_map.1 inside
    obtain ⟨before, behind⟩ := (chosen d chosenD).2
    exact ⟨before, d.source.start_lt_end, behind⟩
  · rw [map_map]
    exact full

end

theorem fullySelected_totals {decisions : List ArbitratedSlice}
    (full : claimFullySelected c (selectedClaimTotals decisions) = true) :
    sourceMsat (selecting decisions c.claimId) = c.source.amountMsat ∧
      ∀ t, c.target = some t → targetMsat (selecting decisions c.claimId) = t.amountMsat := by
  unfold claimFullySelected selectedClaimTotals at full
  dsimp only at full
  split at full
  · cases full
  · rename_i selected found
    split at found
    · cases found
    · cases found
      split at full
      · cases full
      · rename_i same
        refine ⟨not_not.1 same, ?_⟩
        intro t targeted
        rw [targeted] at full
        exact of_decide_eq_true full

/-- Every bundle is selected as a whole or not at all, and one invalidation pass is enough. -/
theorem projectQuantities_bundles_atomic {observations : Observations} (valid : ∀ o ∈ observations, o.Valid)
    (distinct : (observations.map QuantityObservation.quantityHash).Nodup)
    (positive : ∀ o ∈ observations, o.direction = .outbound → 0 < o.principalMsat) {claims : List QuantityClaim}
    (unreserved : ∀ c ∈ claims, ∀ rest, c.claimId ≠ "malformed-claim-bundle:" ++ rest) :
    ∃ v p, validatedInputs observations claims = .ok v ∧ projectQuantities observations claims = .ok p ∧
      (∀ bundle,
        (∀ c ∈ v.claims, c.effectiveBundleId = some bundle →
          Tiles c.source.startMsat ((selecting p.decisions c.claimId).map (·.source.range)) c.source.endMsat ∧
          sourceMsat (selecting p.decisions c.claimId) = c.source.amountMsat ∧
          ∀ t, c.target = some t → targetMsat (selecting p.decisions c.claimId) = t.amountMsat) ∨
        ∀ c ∈ v.claims, c.effectiveBundleId = some bundle → ∀ d ∈ p.decisions, d.selectedClaimId ≠ some c.claimId) ∧
      failClosedAtomicBundles p.decisions v.claims = p.decisions := by
  obtain ⟨v, validated⟩ := (validatedInputs_total_iff ⟨valid, distinct⟩ claims).2 (by
    intro c _ o found
    obtain ⟨stored, outbound⟩ := outboundSource_some.1 found
    exact ne_of_gt (positive o (get_some stored).1 outbound))
  obtain ⟨p, run⟩ := projectQuantities_total validated
  have ids := validated_ids_nodup validated unreserved
  obtain ⟨v', ds, validated', arbitrated, -, -, decisions, -⟩ := projectQuantities_ok run
  rw [validated] at validated'
  cases validated'
  have perm : (reconcile v.claims ds).Perm p.decisions := decisions ▸ (sortedBy_perm _ _).symm
  refine ⟨v, p, validated, run, ?_, ?_⟩
  · intro bundle
    rcases bundle_all_or_nothing (failClosedDestinationOverlaps ds) ids bundle with all | nothing
    · left
      intro c member bundled
      have full := all c (mem_filter.2 ⟨member, decide_eq_true bundled⟩)
      rw [show failClosedAtomicBundles (failClosedDestinationOverlaps ds) v.claims = reconcile v.claims ds from rfl,
        selectedClaimTotals_perm perm] at full
      obtain ⟨source, target⟩ := fullySelected_totals full
      exact ⟨selected_tiles validated ids run member source, source, target⟩
    · right
      intro c member bundled d present selects
      have none := nothing c (mem_filter.2 ⟨member, decide_eq_true bundled⟩)
      exact filter_eq_nil_iff.1 none d (perm.mem_iff.2 present) (decide_eq_true selects)
  · refine (map_congr_left ?_).trans (map_id _)
    intro d present
    rw [← withdraw_perm perm]
    exact withdraw_fixed ids (perm.mem_iff.2 present)

theorem projectQuantities_bundles_atomic_halves :
    ∃ v p, validatedInputs [sampleSent, sampleReceived] [sampleLower, sampleUpper] = .ok v ∧
      projectQuantities [sampleSent, sampleReceived] [sampleLower, sampleUpper] = .ok p ∧
      (sampleLower ∈ v.claims ∧ sampleUpper ∈ v.claims ∧ sampleLower.effectiveBundleId = some "halves" ∧
        sampleUpper.effectiveBundleId = some "halves") ∧
      ((∀ c ∈ v.claims, c.effectiveBundleId = some "halves" →
          Tiles c.source.startMsat ((selecting p.decisions c.claimId).map (·.source.range)) c.source.endMsat ∧
          sourceMsat (selecting p.decisions c.claimId) = c.source.amountMsat ∧
          ∀ t, c.target = some t → targetMsat (selecting p.decisions c.claimId) = t.amountMsat) ∨
        ∀ c ∈ v.claims, c.effectiveBundleId = some "halves" → ∀ d ∈ p.decisions, d.selectedClaimId ≠ some c.claimId) ∧
      failClosedAtomicBundles p.decisions v.claims = p.decisions := by
  have unreserved : ∀ c ∈ [sampleLower, sampleUpper], ∀ rest, c.claimId ≠ "malformed-claim-bundle:" ++ rest := by
    intro c member rest same
    have width := congrArg String.length same
    rw [String.length_append] at width
    have long : "malformed-claim-bundle:".length = 23 := by decide
    have short : ∀ c ∈ [sampleLower, sampleUpper], c.claimId.length = 5 := by decide
    have := short c member
    omega
  obtain ⟨v, p, validated, run, whole, fixed⟩ :=
    projectQuantities_bundles_atomic samples_valid samples_distinct (by decide +kernel) unreserved
  have sound : bundleFaults [sampleSent, sampleReceived] [sampleLower, sampleUpper]
      (bundleMembers [sampleLower, sampleUpper] "halves") = [] := by decide +kernel
  have lower : sampleLower ∈ v.claims := (mem_validated_claims validated).2 (.inl ⟨.head _, sound⟩)
  have upper : sampleUpper ∈ v.claims := (mem_validated_claims validated).2 (.inl ⟨.tail _ (.head _), sound⟩)
  exact ⟨v, p, validated, run, ⟨lower, upper, rfl, rfl⟩, whole "halves", fixed⟩

end Kassiber.Custody

import Kassiber.Custody.Projection

/-!
The postings of a settled list of decisions sum to zero in every domain, so the projection never meets its own
balance assertion.
-/

namespace Kassiber.Custody
open Lib.Outcome Lib.Sorting Lib.Tiling Lib.Sums List

abbrev DomainKey := String × String × String

def QuantityObservation.key (o : QuantityObservation) : DomainKey := (QuantityDomain.fromObservation o).conserved

def QuantityPosting.weight (key : DomainKey) (p : QuantityPosting) : Int :=
  if p.key = some key then p.amountMsat else 0

def InDomain (index : Observations) (key : DomainKey) (hash : String) : Prop :=
  (index.get hash).map QuantityObservation.key = some key

instance (index : Observations) (key : DomainKey) (hash : String) : Decidable (InDomain index key hash) :=
  inferInstanceAs (Decidable (_ = _))

def QuantitySlice.weight (index : Observations) (key : DomainKey) (s : QuantitySlice) : Int :=
  if InDomain index key s.observationHash then s.amountMsat else 0

variable {o : QuantityObservation}

theorem observed_weight (key : DomainKey)
    (directed : o.direction = .inbound ∨ o.direction = .outbound) :
    ((observedPostings o).map (QuantityPosting.weight key)).sum =
      if o.key = key then (if o.direction = .inbound then o.principalMsat else -o.principalMsat) else 0 := by
  by_cases domain : o.key = key
  · have own : (QuantityDomain.fromObservation o).conserved = key := domain
    rw [if_pos domain]
    rcases directed with inbound | outbound
    · simp [observedPostings, QuantityPosting.weight, walletPosting, QuantityPosting.key, own, inbound,
        QuantityObservation.inbound_delta inbound]
    · by_cases free : o.feeMsat = 0
      · simp [observedPostings, QuantityPosting.weight, walletPosting, QuantityPosting.key, own, outbound,
          QuantityObservation.outbound_delta outbound, free]
      · simp [observedPostings, QuantityPosting.weight, walletPosting, feePosting, QuantityPosting.key, own, outbound,
          QuantityObservation.outbound_delta outbound, free]
  · have other : (QuantityDomain.fromObservation o).conserved ≠ key := domain
    rw [if_neg domain]
    unfold observedPostings
    split <;> simp [QuantityPosting.weight, walletPosting, feePosting, QuantityPosting.key, other]

section
variable {index : Observations} {decisions : List ArbitratedSlice} (settled : Settled index decisions) (key : DomainKey)
include settled

variable {o : QuantityObservation}

theorem inDomain_iff (observed : o ∈ index) : InDomain index key o.quantityHash ↔ o.key = key := by
  simp [InDomain, settled.good.get observed]

omit settled in
theorem decided_weight {d : ArbitratedSlice} {part : List QuantityPosting}
    (run : decisionPostings index d = .ok part) :
    (part.map (QuantityPosting.weight key)).sum = if d.target = none then d.source.weight index key else 0 := by
  unfold decisionPostings at run
  split at run
  · rename_i targeted
    cases run
    simp [targeted]
  · rename_i targetless
    split at run
    · cases run
    · rename_i o stored
      split at run
      · cases run
      · cases run
        simp only [not_not] at targetless
        simp [targetless, QuantityPosting.weight, decisionPosting, QuantityPosting.key, QuantitySlice.weight, InDomain,
          stored, QuantityObservation.key]

theorem origin_weight (observed : o ∈ index) {part : List QuantityPosting}
    (run : originPostings decisions o = .ok part) :
    (part.map (QuantityPosting.weight key)).sum =
      ((targetsOn decisions o.quantityHash).map (QuantitySlice.weight index key)).sum -
        if o.key = key then o.principalMsat else 0 := by
  obtain ⟨slices, uncovered, same⟩ := bind_ok.1 run
  cases same
  obtain ⟨slices', uncovered', hashes, partition⟩ := uncovered_partition settled observed
  rw [uncovered] at uncovered'
  cases uncovered'
  have sum := partitions_sum partition
  simp only [map_append, map_map, sum_append, sub_zero] at sum
  have targetHash : ∀ t ∈ targetsOn decisions o.quantityHash, t.observationHash = o.quantityHash := fun t member =>
    of_decide_eq_true (mem_filter.1 (mem_sortedBy.1 member)).2
  by_cases domain : o.key = key
  · have targets : (targetsOn decisions o.quantityHash).map (QuantitySlice.weight index key) =
        (targetsOn decisions o.quantityHash).map ((fun r => r.2 - r.1) ∘ QuantitySlice.range) :=
      map_congr_left fun t member => by
        simp [QuantitySlice.weight, targetHash t member, inDomain_iff settled key observed, domain,
          QuantitySlice.amountMsat, QuantitySlice.range]
    have origins : slices.map (QuantityPosting.weight key ∘ originPosting o) =
        (slices.map ((fun r => r.2 - r.1) ∘ QuantitySlice.range)).map (- ·) := by
      rw [map_map]
      refine map_congr_left fun s _ => ?_
      have own : (QuantityDomain.fromObservation o).conserved = key := domain
      simp [QuantityPosting.weight, originPosting, QuantityPosting.key, own, QuantitySlice.amountMsat,
        QuantitySlice.range]
    rw [map_map, targets, origins, if_pos domain, ← sum_neg]
    omega
  · have targets : ((targetsOn decisions o.quantityHash).map (QuantitySlice.weight index key)).sum = 0 := by
      refine sum_eq_zero ?_
      intro w member
      obtain ⟨t, present, rfl⟩ := mem_map.1 member
      simp [QuantitySlice.weight, targetHash t present, inDomain_iff settled key observed, domain]
    have origins : ((slices.map (originPosting o)).map (QuantityPosting.weight key)).sum = 0 := by
      refine sum_eq_zero ?_
      intro w member
      rw [map_map] at member
      obtain ⟨s, -, rfl⟩ := mem_map.1 member
      have other : (QuantityDomain.fromObservation o).conserved ≠ key := domain
      simp [QuantityPosting.weight, originPosting, QuantityPosting.key, other]
    rw [targets, origins, if_neg domain, sub_zero]

theorem source_weight (observed : o ∈ index) (outbound : o.direction = .outbound) :
    ((decisions.filter fun d => d.source.observationHash = o.quantityHash).map fun d => d.source.weight index key).sum =
      if o.key = key then o.principalMsat else 0 := by
  have sum := tiles_sum (settled.tiles o observed outbound)
  simp only [map_map, sub_zero] at sum
  by_cases domain : o.key = key
  · rw [if_pos domain, ← sum]
    refine congrArg List.sum (map_congr_left ?_)
    intro d member
    have hash : d.source.observationHash = o.quantityHash := of_decide_eq_true (mem_filter.1 member).2
    simp [QuantitySlice.weight, hash, inDomain_iff settled key observed, domain, QuantitySlice.amountMsat,
      QuantitySlice.range]
  · rw [if_neg domain]
    refine sum_eq_zero ?_
    intro w member
    obtain ⟨d, present, rfl⟩ := mem_map.1 member
    have hash : d.source.observationHash = o.quantityHash := of_decide_eq_true (mem_filter.1 present).2
    simp [QuantitySlice.weight, hash, inDomain_iff settled key observed, domain]

theorem landed_weight {d : ArbitratedSlice} (member : d ∈ decisions) {t : QuantitySlice} (targeted : d.target = some t) :
    t.weight index key = d.source.weight index key := by
  obtain ⟨amount, s, observedS, o, observedO, hashS, hashO, -, -, domain⟩ := settled.landed d member t targeted
  have same : s.key = o.key := domain
  simp only [QuantitySlice.weight, ← hashS, ← hashO, inDomain_iff settled key observedS,
    inDomain_iff settled key observedO, same, amount]

theorem hashes_nodup (keep : QuantityObservation → Bool) :
    ((index.filter keep).map QuantityObservation.quantityHash).Nodup :=
  settled.good.distinct.sublist (filter_sublist.map _)

theorem decisions_weight :
    (decisions.map fun d => d.source.weight index key).sum =
      ((index.filter fun o => o.direction = .outbound).map fun o => if o.key = key then o.principalMsat else 0).sum := by
  rw [sum_fibers (fun d : ArbitratedSlice => d.source.observationHash) (hashes_nodup settled fun o => o.direction = .outbound)]
  · rw [map_map]
    refine congrArg List.sum (map_congr_left ?_)
    intro o member
    obtain ⟨observed, outbound⟩ := mem_filter.1 member
    exact source_weight settled key observed (of_decide_eq_true outbound)
  · intro d member
    obtain ⟨o, observed, outbound, hash⟩ := settled.sources d member
    exact mem_map.2 ⟨o, mem_filter.2 ⟨observed, decide_eq_true outbound⟩, hash⟩

theorem targets_weight :
    ((index.filter fun o => o.direction = .inbound).map fun o =>
        ((targetsOn decisions o.quantityHash).map (QuantitySlice.weight index key)).sum).sum =
      (decisions.map fun d => if d.target = none then 0 else d.source.weight index key).sum := by
  have grouped : ((decisions.filterMap (·.target)).map (QuantitySlice.weight index key)).sum =
      ((index.filter fun o => o.direction = .inbound).map fun o =>
        ((targetsOn decisions o.quantityHash).map (QuantitySlice.weight index key)).sum).sum := by
    rw [sum_fibers QuantitySlice.observationHash (hashes_nodup settled fun o => o.direction = .inbound)]
    · rw [map_map]
      refine congrArg List.sum (map_congr_left ?_)
      intro o _
      exact (((sortedBy_perm _ _).map _).sum_eq).symm
    · intro t member
      obtain ⟨d, present, targeted⟩ := mem_filterMap.1 member
      obtain ⟨-, -, -, o, observed, -, hash, inbound, -⟩ := settled.landed d present t targeted
      exact mem_map.2 ⟨o, mem_filter.2 ⟨observed, decide_eq_true inbound⟩, hash⟩
  rw [← grouped, sum_filterMap]
  refine congrArg List.sum (map_congr_left ?_)
  intro d member
  cases targeted : d.target with
  | none => simp
  | some t => simp [landed_weight settled key member targeted]

theorem observations_weight :
    (index.map fun o => ((observedPostings o).map (QuantityPosting.weight key)).sum).sum +
        ((index.filter fun o => o.direction = .outbound).map fun o => if o.key = key then o.principalMsat else 0).sum =
      ((index.filter fun o => o.direction = .inbound).map fun o => if o.key = key then o.principalMsat else 0).sum := by
  rw [sum_filter, sum_filter, ← sum_map_add]
  refine congrArg List.sum (map_congr_left ?_)
  intro o observed
  have directed := (settled.good.sound observed).directed
  rw [observed_weight key directed]
  rcases directed with inbound | outbound
  · simp [inbound]
  · by_cases domain : o.key = key <;> simp [outbound, domain]

theorem postings_balance {postings : List QuantityPosting} (run : buildPostings index decisions = .ok postings) :
    (postings.map (QuantityPosting.weight key)).sum = 0 := by
  obtain ⟨decided, decidedRun, run⟩ := bind_ok.1 run
  obtain ⟨origins, originRun, same⟩ := bind_ok.1 run
  cases same
  rw [((sortedBy_perm _ _).map _).sum_eq, map_append, map_append, sum_append, sum_append,
    sum_mapM decidedRun fun d _ part step => decided_weight key step,
    sum_mapM originRun fun o member part step => origin_weight settled key (mem_filter.1 member).1 step,
    sum_flatMap, ((sortedBy_perm _ index).map _).sum_eq]
  have shared : ((index.filter fun o => o.direction = .inbound).map fun o =>
        ((targetsOn decisions o.quantityHash).map (QuantitySlice.weight index key)).sum -
          if o.key = key then o.principalMsat else 0).sum +
      ((index.filter fun o => o.direction = .inbound).map fun o => if o.key = key then o.principalMsat else 0).sum =
      (decisions.map fun d => if d.target = none then 0 else d.source.weight index key).sum := by
    rw [← sum_map_add, ← targets_weight settled key]
    simp only [sub_add_cancel]
  have observed := observations_weight settled key
  have sources := decisions_weight settled key
  have split : (decisions.map fun d => d.source.weight index key).sum =
      (decisions.map fun d => if d.target = none then d.source.weight index key else 0).sum +
        (decisions.map fun d => if d.target = none then 0 else d.source.weight index key).sum := by
    rw [← sum_map_add]
    refine congrArg List.sum (map_congr_left ?_)
    intro d _
    split <;> simp
  linarith

end

section
variable {observations : Observations} {claims : List QuantityClaim} {v : ValidatedInputs} {ds : List ArbitratedSlice}
  (validated : validatedInputs observations claims = .ok v) (arbitrated : sourceDecisions observations v.claims = .ok ds)
include validated arbitrated

theorem reconciled_final {d : ArbitratedSlice} (member : d ∈ reconcile v.claims ds) : Final observations v.claims d := by
  obtain ⟨e, present, step⟩ := reconciled_origin (reconcile_steps v.claims ds) member
  exact ⟨e, sourceDecisions_decided arbitrated (validated_index validated).2 present, step⟩

theorem reconciled_apart : ((reconcile v.claims ds).filterMap (·.target)).Pairwise QuantitySlice.Apart := by
  refine List.Pairwise.sublist (reconciled_targets (bundles_reconciled _ v.claims)) (overlaps_apart ?_)
  intro d member targeted
  have final : Final observations v.claims d :=
    ⟨d, sourceDecisions_decided arbitrated (validated_index validated).2 member, .inl rfl⟩
  obtain ⟨id, selects⟩ := Option.ne_none_iff_exists'.1 (final_selects final targeted)
  obtain ⟨winner, target, -, -, same⟩ := final_winner final selects
  refine ⟨id, selects, ?_⟩
  rw [same] at selects
  cases selects
  exact winner.sound.id_nonempty

theorem reconciled_settled : Settled observations (reconcile v.claims ds) := by
  have good := (validated_index validated).2
  refine ⟨good, ?_, ?_, ?_, ?_, reconciled_apart validated arbitrated⟩
  · exact fun d member => final_source (reconciled_final validated arbitrated member)
  · intro o observed outbound
    have tiles := sourceDecisions_tile arbitrated good (fun c => validated_grounded validated) observed outbound
    have same : ∀ xs : List ArbitratedSlice,
        (xs.filter fun d => d.source.observationHash = o.quantityHash).map (·.source.range) =
          ((xs.map (·.source)).filter fun s => s.observationHash = o.quantityHash).map QuantitySlice.range := by
      intro xs
      rw [filter_map, map_map]
      rfl
    rw [same] at tiles ⊢
    rwa [reconciled_sources (reconcile_steps v.claims ds)]
  · intro d member targetless
    obtain ⟨kind, location, -, other⟩ := final_location (reconciled_final validated arbitrated member) targetless
    exact ⟨kind, location, other⟩
  · exact fun d member t => final_landed (fun c => validated_grounded validated) (reconciled_final validated arbitrated member)

end

variable {observations index : Observations}

theorem projectQuantities_ok {claims : List QuantityClaim} {p : QuantityProjection}
    (run : projectQuantities observations claims = .ok p) :
    ∃ v ds, validatedInputs observations claims = .ok v ∧ sourceDecisions observations v.claims = .ok ds ∧
      buildPostings observations (reconcile v.claims ds) = .ok p.postings ∧
      p.observations = sortedBy QuantityObservation.quantityHash observations ∧
      p.decisions = sortedBy ArbitratedSlice.place (reconcile v.claims ds) ∧ p.claimErrors = v.errors := by
  obtain ⟨v, validated, run⟩ := bind_ok.1 run
  obtain ⟨ds, arbitrated, run⟩ := bind_ok.1 run
  obtain ⟨postings, posted, run⟩ := bind_ok.1 run
  obtain ⟨-, -, same⟩ := bind_ok.1 run
  cases same
  rw [(validated_index validated).1] at arbitrated posted
  refine ⟨v, ds, validated, arbitrated, posted, ?_, rfl, rfl⟩
  rw [(validated_index validated).1]

theorem totals_weight {p : QuantityProjection} {entry : DomainKey × Int} (member : entry ∈ p.totalsByDomain) :
    entry.2 = (p.postings.map (QuantityPosting.weight entry.1)).sum := by
  obtain ⟨⟨key, part⟩, grouped, rfl⟩ := mem_map.1 member
  obtain ⟨rfl, -⟩ := mem_groupBy.1 grouped
  simp only
  rw [sum_filter, sum_filterMap]
  refine congrArg List.sum (map_congr_left ?_)
  intro q _
  cases domain : q.key with
  | none => simp [QuantityPosting.weight, domain]
  | some k => simp [QuantityPosting.weight, domain]

theorem projectQuantities_total {claims : List QuantityClaim} {v : ValidatedInputs}
    (validated : validatedInputs observations claims = .ok v) : ∃ p, projectQuantities observations claims = .ok p := by
  obtain ⟨same, good⟩ := validated_index validated
  obtain ⟨ds, arbitrated⟩ := sourceDecisions_total good fun c => validated_grounded (c := c) validated
  have settled := reconciled_settled validated arbitrated
  obtain ⟨postings, posted⟩ := buildPostings_total settled
  refine ⟨_, bind_ok.2 ⟨v, validated, bind_ok.2 ⟨ds, same ▸ arbitrated, bind_ok.2 ⟨postings, same ▸ posted,
    bind_ok.2 ⟨(), raiseIf_ok.2 ?_, rfl⟩⟩⟩⟩⟩
  rw [not_not, filter_eq_nil_iff]
  intro entry member unbalanced
  have zero := (totals_weight member).trans (postings_balance settled entry.1 posted)
  exact absurd zero (of_decide_eq_true unbalanced)

theorem location_ne_origin (d : ArbitratedSlice) : d.location ≠ some .externalOrigin := by
  unfold ArbitratedSlice.location
  cases d.destinationKind with
  | some kind => cases kind <;> simp [DestinationKind.location]
  | none => cases d.state <;> simp

theorem origins_filter {decisions : List ArbitratedSlice} (settled : Settled index decisions)
    {postings : List QuantityPosting} (run : buildPostings index decisions = .ok postings)
    (observed : o ∈ index) (inbound : o.direction = .inbound) {slices : List QuantitySlice}
    (uncovered : uncoveredInboundSlices o (targetsOn decisions o.quantityHash) = .ok slices) :
    (postings.filter fun q => q.locationKind = .externalOrigin ∧ q.observationHash = some o.quantityHash).Perm
      (slices.map (originPosting o)) := by
  obtain ⟨decided, decidedRun, run⟩ := bind_ok.1 run
  obtain ⟨origins, originRun, same⟩ := bind_ok.1 run
  cases same
  refine ((sortedBy_perm _ _).filter _).trans ?_
  rw [filter_append, filter_append]
  have first : ((sortedBy QuantityObservation.quantityHash index).flatMap observedPostings).filter
      (fun q => q.locationKind = .externalOrigin ∧ q.observationHash = some o.quantityHash) = [] := by
    refine filter_eq_nil_iff.2 ?_
    intro q member
    obtain ⟨p, -, posted⟩ := mem_flatMap.1 member
    have kinds : q = walletPosting p ∨ q = feePosting p := by
      rcases mem_cons.1 posted with wallet | rest
      · exact .inl wallet
      · split at rest
        · exact .inr (mem_singleton.1 rest)
        · cases rest
    rcases kinds with rfl | rfl <;> simp [walletPosting, feePosting]
  have second : decided.flatten.filter
      (fun q => q.locationKind = .externalOrigin ∧ q.observationHash = some o.quantityHash) = [] := by
    refine filter_eq_nil_iff.2 ?_
    intro q member
    obtain ⟨part, present, inside⟩ := mem_flatten.1 member
    obtain ⟨d, -, step⟩ := mapM_outputs decidedRun present
    unfold decisionPostings at step
    split at step
    · cases step
      cases inside
    · split at step
      · cases step
      · split at step
        · cases step
        · rename_i kind located
          cases step
          obtain rfl := mem_singleton.1 inside
          have other : kind ≠ .externalOrigin := fun same => location_ne_origin d (same ▸ located)
          simp [decisionPosting, other]
  have keyed : ∀ (p : QuantityObservation) (part : List QuantityPosting), originPostings decisions p = .ok part →
      ∀ q ∈ part, q.observationHash = some p.quantityHash ∧ q.locationKind = .externalOrigin := by
    intro p part step q inside
    obtain ⟨_, -, same⟩ := bind_ok.1 step
    cases same
    obtain ⟨s, -, rfl⟩ := mem_map.1 inside
    exact ⟨rfl, rfl⟩
  have own := mapM_flatten_filter (fun p : QuantityObservation => some p.quantityHash)
    QuantityPosting.observationHash (fun p part step q inside => (keyed p part step q inside).1) originRun
    (by
      have nodup := (hashes_nodup settled fun o => o.direction = .inbound).map (Option.some_injective String)
      rwa [map_map] at nodup)
    (mem_filter.2 ⟨observed, decide_eq_true inbound⟩)
  have third : origins.flatten.filter
      (fun q => q.locationKind = .externalOrigin ∧ q.observationHash = some o.quantityHash) =
        origins.flatten.filter fun q => q.observationHash = some o.quantityHash := by
    refine filter_congr ?_
    intro q member
    obtain ⟨part, present, inside⟩ := mem_flatten.1 member
    obtain ⟨p, -, step⟩ := mapM_outputs originRun present
    simp [(keyed p part step q inside).2]
  have made : originPostings decisions o = .ok (slices.map (originPosting o)) := bind_ok.2 ⟨slices, uncovered, rfl⟩
  rw [own] at made
  rw [first, second, third, Except.ok.inj made]
  simp

theorem place_sorted_filter {decisions : List ArbitratedSlice}
    (settled : Settled index decisions) (observed : o ∈ index) (outbound : o.direction = .outbound) :
    (sortedBy ArbitratedSlice.place decisions).filter (fun d => d.source.observationHash = o.quantityHash) =
      decisions.filter fun d => d.source.observationHash = o.quantityHash := by
  refine eq_of_perm_of_strict ArbitratedSlice.place ((sortedBy_perm _ _).filter _)
    ((sortedBy_pairwise _ _).sublist filter_sublist) ?_
  have strict := tiles_strict (settled.tiles o observed outbound)
  rw [pairwise_map] at strict
  refine strict.imp_of_mem ?_
  intro d e memberD memberE less
  have hashD := of_decide_eq_true (mem_filter.1 memberD).2
  have hashE := of_decide_eq_true (mem_filter.1 memberE).2
  refine Prod.Lex.toLex_lt_toLex.2 (.inr ⟨hashD.trans hashE.symm, ?_⟩)
  exact Prod.Lex.toLex_lt_toLex.2 (.inl less)

/-- A projection that gets past validation returns a balanced artifact. -/
theorem projectQuantities_conserves {observations : Observations} {claims : List QuantityClaim} {v : ValidatedInputs}
    (validated : validatedInputs observations claims = .ok v) :
    ∃ p, projectQuantities observations claims = .ok p ∧
      (∀ d ∈ p.decisions, ∃ o ∈ observations, o.direction = .outbound ∧ o.quantityHash = d.source.observationHash) ∧
      (∀ o ∈ observations, o.direction = .outbound →
        Tiles 0 ((p.decisions.filter fun d => d.source.observationHash = o.quantityHash).map (·.source.range))
          o.principalMsat ∧
        (o.principalMsat = 0 → ∀ d ∈ p.decisions, d.source.observationHash ≠ o.quantityHash)) ∧
      (∀ o ∈ observations, o.direction = .inbound → ∃ origins : List QuantitySlice,
        (p.postings.filter fun q => q.locationKind = .externalOrigin ∧ q.observationHash = some o.quantityHash).Perm
          (origins.map (originPosting o)) ∧
        Partitions 0
          (((p.decisions.filterMap (·.target)).filter fun t => t.observationHash = o.quantityHash).map
            QuantitySlice.range ++ origins.map QuantitySlice.range) o.principalMsat) ∧
      ∀ key, ((p.postings.filter fun q => q.key = some key).map (·.amountMsat)).sum = 0 := by
  obtain ⟨p, run⟩ := projectQuantities_total validated
  obtain ⟨v', ds, validated', arbitrated, posted, -, decisions, -⟩ := projectQuantities_ok run
  rw [validated] at validated'
  cases validated'
  have settled := reconciled_settled validated arbitrated
  refine ⟨p, run, ?_, ?_, ?_, ?_⟩
  · intro d member
    rw [decisions] at member
    exact settled.sources d (mem_sortedBy.1 member)
  · intro o observed outbound
    have tiles := settled.tiles o observed outbound
    rw [← place_sorted_filter settled observed outbound, ← decisions] at tiles
    refine ⟨tiles, ?_⟩
    intro empty d member same
    rw [empty] at tiles
    have none := map_eq_nil_iff.1 (tiles_empty_iff.1 tiles)
    exact filter_eq_nil_iff.1 none d member (decide_eq_true same)
  · intro o observed inbound
    obtain ⟨slices, uncovered, -, partition⟩ := uncovered_partition settled observed
    refine ⟨slices, origins_filter settled posted observed inbound uncovered, partitions_perm partition ?_⟩
    refine List.Perm.append_right _ (List.Perm.map _ ((sortedBy_perm _ _).trans ?_))
    rw [decisions]
    exact (((sortedBy_perm _ _).filterMap _).filter _).symm
  · intro key
    rw [sum_filter]
    exact postings_balance settled key posted

/-! A payment of 1000 msat with a fee of 10, of which 600 msat are received by an own wallet. -/

def sampleHash (c : Char) : String := String.ofList (replicate 64 c)

def sampleEvent (id : String) (named : id ≠ "") : CanonicalEventKey :=
  ⟨"bitcoin", "main", "txid", id, by decide, by decide, by decide, named⟩

theorem sampleEvent_named : "tx1" ≠ "" := by decide

def sampleSent : QuantityObservation :=
  { transactionId := "sent", anchorTransactionId := "sent", quantityHash := sampleHash 'a'
    evidenceDetailHash := sampleHash 'a', evidencePayloadJson := "", eventKey := sampleEvent "tx1" sampleEvent_named
    profileId := "profile", authoritativeChainObservation := true, observationAuthorityReason := "chain"
    feeAttribution := .exact, walletId := "w1", asset := "BTC", direction := .outbound, amountMsat := 1000
    feeMsat := 10, amountIncludesFee := false, occurredAt := "2024-01-01T00:00:00Z" }

def sampleReceived : QuantityObservation :=
  { sampleSent with
    transactionId := "received", anchorTransactionId := "received", quantityHash := sampleHash 'b', walletId := "w2"
    direction := .inbound, amountMsat := 700, feeMsat := 0 }

theorem range_start {low high : Int} (range : 0 ≤ low ∧ low < high) : 0 ≤ low := range.1

theorem range_proper {low high : Int} (range : 0 ≤ low ∧ low < high) : low < high := range.2

def sampleSlice (c : Char) (low high : Int) (range : 0 ≤ low ∧ low < high) : QuantitySlice :=
  ⟨sampleHash c, low, high, by
    intro empty
    exact absurd (congrArg String.length empty) (by simp [sampleHash]), range_start range, range_proper range⟩

theorem sample_whole : (0 : Int) ≤ 0 ∧ (0 : Int) < 1000 := by decide

def sampleMove : QuantityClaim :=
  { claimId := "move", source := sampleSlice 'a' 0 600 (by decide), state := .internalVerified
    priority := .exactNativeEvent, reason := "same transaction", target := some (sampleSlice 'b' 0 600 (by decide))
    constructible := by decide }

theorem sampleHash_hex {c : Char} (hex : c ∈ ['a', 'b', 'c', 'd', 'e', 'f']) (label : String) :
    QuantityObservation.validateHash label (sampleHash c) = .ok () := by
  have chars : (sampleHash c).toList = replicate 64 c := String.toList_ofList
  have lower : sampleHash c = (sampleHash c).toLower := by
    refine String.toList_injective ?_
    rw [String.toLower, String.toList_map, chars, map_replicate]
    fin_cases hex <;> rfl
  have reads : readsBase16 (sampleHash c) = true := by
    unfold readsBase16
    rw [chars, map_replicate]
    fin_cases hex <;> decide
  have width : (sampleHash c).length = 64 := by
    rw [← String.length_toList, chars, length_replicate]
  simp [QuantityObservation.validateHash, raiseIf, width, ← lower, reads]
  rfl

theorem sampleSent_valid : sampleSent.Valid := by
  simp [QuantityObservation.Valid, QuantityObservation.validate, bind_unit_ok, raiseIf_ok, sampleSent, sampleHash_hex]

theorem sampleReceived_valid : sampleReceived.Valid := by
  simp [QuantityObservation.Valid, QuantityObservation.validate, bind_unit_ok, raiseIf_ok, sampleReceived, sampleSent,
    sampleHash_hex]

theorem samples_valid : ∀ o ∈ [sampleSent, sampleReceived], o.Valid := by
  simp [sampleSent_valid, sampleReceived_valid]

theorem samples_distinct : ([sampleSent, sampleReceived].map QuantityObservation.quantityHash).Nodup := by
  decide +kernel

theorem projectQuantities_conserves_move :
    ∃ v, validatedInputs [sampleSent, sampleReceived] [sampleMove] = .ok v ∧
    ∃ p, projectQuantities [sampleSent, sampleReceived] [sampleMove] = .ok p ∧
      ∀ key, ((p.postings.filter fun q => q.key = some key).map (·.amountMsat)).sum = 0 := by
  obtain ⟨v, validated⟩ := (validatedInputs_total_iff ⟨samples_valid, samples_distinct⟩ [sampleMove]).2
    (by decide +kernel)
  obtain ⟨p, run, -, -, -, balanced⟩ := projectQuantities_conserves validated
  exact ⟨v, validated, p, run, balanced⟩

end Kassiber.Custody

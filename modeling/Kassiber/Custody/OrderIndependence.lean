import Kassiber.Custody.Authority

/-!
Everything the projection returns passes through a sort with distinct keys, so neither the order of the
observations nor that of the claims reaches the result.
-/

namespace Kassiber.Custody
open Lib Lib.Outcome Lib.Sorting Lib.Tiling List

theorem rangeText_inj {s t : QuantitySlice} (width : s.observationHash.length = t.observationHash.length)
    (same : rangeText s = rangeText t) : s = t := by
  unfold rangeText at same
  have regroup : ∀ u : QuantitySlice, u.observationHash ++ ":" ++ toString u.startMsat ++ ":" ++ toString u.endMsat =
      u.observationHash ++ (":" ++ (toString u.startMsat ++ ":" ++ toString u.endMsat)) := by
    intro u
    simp only [String.append_assoc]
  rw [regroup, regroup] at same
  obtain ⟨hash, ranges⟩ := Text.append_inj_of_length width same
  obtain ⟨start, stop⟩ := Text.colon_inj (Text.int_colonFree s.start_nonneg)
    (Text.int_colonFree t.start_nonneg) (Text.append_left_cancel ranges)
  have low := Text.int_toString_inj start
  have high := Text.int_toString_inj stop
  cases s
  cases t
  simp only at hash low high
  subst hash low high
  rfl

inductive Posted (index : Observations) (decisions : List ArbitratedSlice) : QuantityPosting → Prop
  | wallet (o : QuantityObservation) (observed : o ∈ index) : Posted index decisions (walletPosting o)
  | fee (o : QuantityObservation) (observed : o ∈ index) : Posted index decisions (feePosting o)
  | decision (d : ArbitratedSlice) (o : QuantityObservation) (kind : LocationKind) (member : d ∈ decisions)
      (stored : index.get d.source.observationHash = some o) (located : d.location = some kind) :
      Posted index decisions (decisionPosting d o kind)
  | origin (o : QuantityObservation) (observed : o ∈ index) (s : QuantitySlice)
      (hash : s.observationHash = o.quantityHash) : Posted index decisions (originPosting o s)

variable {q : QuantityPosting} {decisions : List ArbitratedSlice} {index : Observations}

theorem observedPostings_posted {o : QuantityObservation}
    (observed : o ∈ index) (member : q ∈ observedPostings o) : Posted index decisions q := by
  rcases mem_cons.1 member with rfl | rest
  · exact .wallet o observed
  · split at rest
    · rw [mem_singleton.1 rest]
      exact .fee o observed
    · cases rest

theorem decisionPostings_posted {d : ArbitratedSlice}
    (member : d ∈ decisions) {part : List QuantityPosting} (run : decisionPostings index d = .ok part) (inside : q ∈ part) : Posted index decisions q := by
  unfold decisionPostings at run
  split at run
  · cases run
    cases inside
  · split at run
    · cases run
    · rename_i o stored
      split at run
      · cases run
      · rename_i kind located
        cases run
        rw [mem_singleton.1 inside]
        exact .decision d o kind member stored located

theorem originPostings_posted {o : QuantityObservation}
    (observed : o ∈ index) {part : List QuantityPosting} (run : originPostings decisions o = .ok part) (inside : q ∈ part) : Posted index decisions q := by
  obtain ⟨slices, uncovered, same⟩ := bind_ok.1 run
  cases same
  obtain ⟨s, present, rfl⟩ := mem_map.1 inside
  obtain ⟨r, -, built⟩ := mapM_outputs uncovered present
  exact .origin o observed s (QuantitySlice.make_ok.1 built).1

section
variable {index : Observations} {decisions : List ArbitratedSlice} (settled : Settled index decisions)
include settled

theorem decision_of_source {d e : ArbitratedSlice} (first : d ∈ decisions) (second : e ∈ decisions)
    (same : d.source = e.source) : d = e := by
  obtain ⟨o, observed, outbound, hash⟩ := settled.sources d first
  have strict := tiles_strict (settled.tiles o observed outbound)
  rw [pairwise_map] at strict
  have nodup : ((decisions.filter fun d => d.source.observationHash = o.quantityHash).map
      fun d => d.source.range.1).Nodup :=
    pairwise_map.2 (strict.imp fun less => ne_of_lt less)
  refine inj_on_of_nodup_map nodup (mem_filter.2 ⟨first, decide_eq_true hash.symm⟩)
    (mem_filter.2 ⟨second, decide_eq_true (same ▸ hash.symm)⟩) ?_
  simp only [same]

omit settled in
theorem posted_tag {q : QuantityPosting} (posted : Posted index decisions q) :
    (∃ o, q = walletPosting o ∧ o ∈ index ∧ q.postingId.toList.take 2 = ['o', 'b']) ∨
    (∃ o, q = feePosting o ∧ o ∈ index ∧ q.postingId.toList.take 2 = ['f', 'e']) ∨
    (∃ d o kind, q = decisionPosting d o kind ∧ d ∈ decisions ∧ index.get d.source.observationHash = some o ∧
      d.location = some kind ∧ q.postingId.toList.take 2 = ['d', 'e']) ∨
    ∃ o s, q = originPosting o s ∧ o ∈ index ∧ s.observationHash = o.quantityHash ∧
      q.postingId.toList.take 2 = ['o', 'r'] := by
  cases posted with
  | wallet o observed => exact .inl ⟨o, rfl, observed, Text.take_append (by decide)⟩
  | fee o observed => exact .inr (.inl ⟨o, rfl, observed, Text.take_append (by decide)⟩)
  | decision d o kind member stored located =>
    exact .inr (.inr (.inl ⟨d, o, kind, rfl, member, stored, located, Text.take_append (by decide)⟩))
  | origin o observed s hash =>
    exact .inr (.inr (.inr ⟨o, s, rfl, observed, hash, Text.take_append (by decide)⟩))

theorem posted_inj {q r : QuantityPosting} (first : Posted index decisions q) (second : Posted index decisions r)
    (same : q.postingId = r.postingId) : q = r := by
  have width : ∀ {o}, o ∈ index → o.quantityHash.length = 64 := fun member => (settled.good.sound member).hash_length
  rcases posted_tag first with ⟨o, rfl, observed, tag⟩ | ⟨o, rfl, observed, tag⟩ |
      ⟨d, o, kind, rfl, member, stored, located, tag⟩ | ⟨o, s, rfl, observed, hash, tag⟩ <;>
    rcases posted_tag second with ⟨o', rfl, observed', tag'⟩ | ⟨o', rfl, observed', tag'⟩ |
      ⟨d', o', kind', rfl, member', stored', located', tag'⟩ | ⟨o', s', rfl, observed', hash', tag'⟩ <;>
    first
      | (rw [same, tag'] at tag; exact absurd tag (by decide))
      | skip
  · have equal := settled.good.eq_of_hash observed observed' (Text.append_left_cancel same)
    rw [equal]
  · have equal := settled.good.eq_of_hash observed observed' (Text.append_left_cancel same)
    rw [equal]
  · obtain ⟨seen, hash⟩ := get_some stored
    obtain ⟨seen', hash'⟩ := get_some stored'
    have slices := rangeText_inj (by rw [← hash, ← hash', width seen, width seen']) (Text.append_left_cancel same)
    have equal := decision_of_source settled member member' slices
    subst equal
    rw [stored] at stored'
    rw [located] at located'
    cases stored'
    cases located'
    rfl
  · have slices := rangeText_inj (by rw [hash, hash', width observed, width observed'])
      (Text.append_left_cancel same)
    subst slices
    have equal := settled.good.eq_of_hash observed observed' (hash.symm.trans hash')
    rw [equal]

end

theorem ValidIndex.perm {other : Observations} (good : ValidIndex index) (perm : index.Perm other) :
    ValidIndex other :=
  ⟨fun o member => good.valid o (perm.mem_iff.2 member), (perm.map _).nodup_iff.1 good.distinct⟩

theorem normalizeClaims_perm {claims others : List QuantityClaim} (perm : claims.Perm others)
    (distinct : (claims.map (·.claimId)).Nodup) : normalizeClaims claims = normalizeClaims others := by
  refine sortedBy_eq_of_perm perm ?_
  intro c hc d hd same
  have ids : c.claimId = d.claimId := (Prod.mk.inj (toLex.injective same)).2
  exact inj_on_of_nodup_map distinct hc hd ids

section
variable {observations observations' : Observations} {claims claims' : List QuantityClaim}
  (good : ValidIndex observations) (permObservations : observations.Perm observations')
include good permObservations

theorem get_eq : observations.get = observations'.get := by
  funext hash
  exact get_perm permObservations good.distinct hash

theorem outboundSource_eq : outboundSource observations = outboundSource observations' := by
  funext c
  simp only [outboundSource, get_eq good permObservations]

theorem knownSources_eq : knownSources observations = knownSources observations' := by
  funext members
  simp only [knownSources, outboundSource_eq good permObservations]

theorem bundleFaults_eq (permClaims : claims.Perm claims') (members : List QuantityClaim) :
    bundleFaults observations claims members = bundleFaults observations' claims' members := by
  have counts : ∀ c : QuantityClaim, claims.countP (fun other => other.claimId = c.claimId) =
      claims'.countP fun other => other.claimId = c.claimId := fun c => permClaims.countP_eq _
  simp only [bundleFaults, counts, sourceFaults, targetFaults, domainFaults, inboundTarget,
    outboundSource_eq good permObservations, get_eq good permObservations]

theorem malformedBundleClaim_eq : malformedBundleClaim observations = malformedBundleClaim observations' := by
  funext entry
  simp only [malformedBundleClaim, get_eq good permObservations]

variable (permClaims : claims.Perm claims') (distinct : (claims.map (·.claimId)).Nodup)
include permClaims distinct

omit good permObservations in
theorem claimBundles_eq : claimBundles claims = claimBundles claims' := by
  unfold claimBundles
  rw [normalizeClaims_perm permClaims distinct]

theorem rejectedBundles_eq : rejectedBundles observations claims = rejectedBundles observations' claims' := by
  simp only [rejectedBundles, claimBundles_eq permClaims distinct, bundleFaults_eq good permObservations permClaims]

theorem acceptedBundles_eq : acceptedBundles observations claims = acceptedBundles observations' claims' := by
  simp only [acceptedBundles, claimBundles_eq permClaims distinct, bundleFaults_eq good permObservations permClaims]

theorem validatedInputs_perm :
    validatedInputs observations' claims' =
      (fun v => { v with observations := observations' }) <$> validatedInputs observations claims := by
  have errors : bundleError observations claims = bundleError observations' claims' := by
    funext bundle
    simp only [bundleError, bundleFaults_eq good permObservations permClaims, knownSources_eq good permObservations]
  rw [validatedInputs_eq good, validatedInputs_eq (good.perm permObservations)]
  simp only [invalidSources, rejectedBundles_eq good permObservations permClaims distinct,
    knownSources_eq good permObservations, malformedBundleClaim_eq good permObservations,
    acceptedBundles_eq good permObservations permClaims distinct, errors, Functor.map_map]

end

section
variable {observations observations' : Observations} (good : ValidIndex observations)
  (permObservations : observations.Perm observations')
include good permObservations

theorem sorted_observations_eq : sortedBy QuantityObservation.quantityHash observations =
    sortedBy QuantityObservation.quantityHash observations' :=
  sortedBy_eq_of_perm permObservations fun _ first _ second same => good.eq_of_hash first second same

theorem outboundSources_eq : outboundSources observations = outboundSources observations' := by
  refine sortedBy_eq_of_perm (permObservations.filter _) ?_
  intro o first p second same
  exact good.eq_of_hash (mem_filter.1 first).1 (mem_filter.1 second).1 (Prod.mk.inj (toLex.injective same)).2

theorem sourceDecisions_eq (claims : List QuantityClaim) :
    sourceDecisions observations claims = sourceDecisions observations' claims := by
  unfold sourceDecisions
  rw [outboundSources_eq good permObservations]

theorem Settled.perm {decisions : List ArbitratedSlice} (settled : Settled observations decisions) :
    Settled observations' decisions := by
  refine ⟨good.perm permObservations, ?_, ?_, settled.located, ?_, settled.apart⟩
  · intro d member
    obtain ⟨o, observed, facts⟩ := settled.sources d member
    exact ⟨o, permObservations.mem_iff.1 observed, facts⟩
  · exact fun o observed => settled.tiles o (permObservations.mem_iff.2 observed)
  · intro d member t targeted
    obtain ⟨amount, s, observedS, o, observedO, facts⟩ := settled.landed d member t targeted
    exact ⟨amount, s, permObservations.mem_iff.1 observedS, o, permObservations.mem_iff.1 observedO, facts⟩

theorem buildPostings_eq {decisions : List ArbitratedSlice} (settled : Settled observations decisions) :
    buildPostings observations decisions = buildPostings observations' decisions := by
  obtain ⟨postings, run⟩ := buildPostings_total settled
  obtain ⟨postings', run'⟩ := buildPostings_total (settled.perm good permObservations)
  rw [run, run']
  obtain ⟨decided, decidedRun, run⟩ := bind_ok.1 run
  obtain ⟨origins, originRun, same⟩ := bind_ok.1 run
  cases same
  obtain ⟨decided', decidedRun', run'⟩ := bind_ok.1 run'
  obtain ⟨origins', originRun', same'⟩ := bind_ok.1 run'
  cases same'
  have sameDecided : decided = decided' := by
    have postings : decisionPostings observations = decisionPostings observations' := by
      funext d
      simp only [decisionPostings, get_eq good permObservations]
    rw [postings, decidedRun'] at decidedRun
    exact (Except.ok.inj decidedRun).symm
  have permOrigins : origins.flatten.Perm origins'.flatten :=
    (mapM_perm (permObservations.filter _) originRun originRun').flatten
  subst sameDecided
  rw [sorted_observations_eq good permObservations]
  refine congrArg Except.ok (sortedBy_eq_of_perm (permOrigins.append_left _) ?_)
  have posted : ∀ q ∈ (sortedBy QuantityObservation.quantityHash observations').flatMap observedPostings ++
      decided.flatten ++ origins.flatten, Posted observations decisions q := by
    intro q member
    rcases mem_append.1 member with earlier | later
    · rcases mem_append.1 earlier with first | second
      · obtain ⟨o, present, inside⟩ := mem_flatMap.1 first
        exact observedPostings_posted (permObservations.mem_iff.2 (mem_sortedBy.1 present)) inside
      · obtain ⟨part, present, inside⟩ := mem_flatten.1 second
        obtain ⟨d, held, step⟩ := mapM_outputs decidedRun present
        exact decisionPostings_posted held step inside
    · obtain ⟨part, present, inside⟩ := mem_flatten.1 later
      obtain ⟨o, held, step⟩ := mapM_outputs originRun present
      exact originPostings_posted (mem_filter.1 held).1 step inside
  exact fun q first r second same => posted_inj settled (posted q first) (posted r second) same

end

/-- The projection does not depend on the order of its observations or of its claims. -/
theorem projectQuantities_perm {observations observations' : Observations} {claims claims' : List QuantityClaim}
    (valid : ∀ o ∈ observations, o.Valid) (hashes : (observations.map QuantityObservation.quantityHash).Nodup)
    (ids : (claims.map (·.claimId)).Nodup) (permObservations : observations.Perm observations')
    (permClaims : claims.Perm claims') :
    projectQuantities observations claims = projectQuantities observations' claims' := by
  have good : ValidIndex observations := ⟨valid, hashes⟩
  unfold projectQuantities
  rw [validatedInputs_perm good permObservations permClaims ids]
  cases validated : validatedInputs observations claims with
  | error e => rfl
  | ok v =>
    obtain ⟨same, -⟩ := validated_index validated
    simp only [Functor.map, Except.map, bind, Except.bind, same]
    rw [← sourceDecisions_eq good permObservations]
    cases arbitrated : sourceDecisions observations v.claims with
    | error e => rfl
    | ok ds =>
      simp only
      rw [← buildPostings_eq good permObservations (reconciled_settled validated arbitrated),
        sorted_observations_eq good permObservations]

theorem projectQuantities_perm_move :
    projectQuantities [sampleSent, sampleReceived] [sampleMove] =
      projectQuantities [sampleReceived, sampleSent] [sampleMove] :=
  projectQuantities_perm samples_valid samples_distinct (nodup_singleton _) (List.Perm.swap _ _ _)
    (List.Perm.refl _)

end Kassiber.Custody

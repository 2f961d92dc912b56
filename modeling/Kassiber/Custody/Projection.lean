import Kassiber.Lib.Sums
import Kassiber.Custody.AtomicBundles

/-!
Every observation posts its wallet movement, every decision without a target posts where its slice went, and
every inbound msat no decision targets posts an origin.
-/

namespace Kassiber.Custody
open Lib.Outcome Lib.Sorting Lib.Tiling Lib.Sums

def uncoveredInboundSlices (o : QuantityObservation) (consumed : List QuantitySlice) :
    Except PyError (List QuantitySlice) :=
  (gaps 0 (consumed.map QuantitySlice.range) o.principalMsat).mapM fun r => QuantitySlice.make o.quantityHash r.1 r.2

def walletPosting (o : QuantityObservation) : QuantityPosting :=
  { postingId := "observed:" ++ o.quantityHash
    asset := o.asset
    locationKind := .wallet
    locationId := o.walletId
    amountMsat := o.walletDeltaMsat
    state := .observed
    observationHash := some o.quantityHash
    domain := some (QuantityDomain.fromObservation o) }

def feePosting (o : QuantityObservation) : QuantityPosting :=
  { postingId := "fee:" ++ o.quantityHash
    asset := o.asset
    locationKind := .fee
    locationId := "network_fee"
    amountMsat := o.feeMsat
    state := .decided .externalConfirmed
    observationHash := some o.quantityHash
    domain := some (QuantityDomain.fromObservation o) }

def observedPostings (o : QuantityObservation) : List QuantityPosting :=
  walletPosting o :: if o.direction = .outbound ∧ o.feeMsat ≠ 0 then [feePosting o] else []

def DestinationKind.location : DestinationKind → LocationKind
  | external => .external
  | fee => .fee
  | retainedCustody => .retainedCustody

def ArbitratedSlice.location (d : ArbitratedSlice) : Option LocationKind :=
  match d.destinationKind with
  | some kind => some kind.location
  | none =>
    match d.state with
    | .externalConfirmed | .externalPresumed => some .external
    | .custodySuspense => some .custodySuspense
    | .conflicting => some .conflicting
    | .internalVerified | .internalReviewed => none

def rangeText (s : QuantitySlice) : String :=
  s.observationHash ++ ":" ++ toString s.startMsat ++ ":" ++ toString s.endMsat

def decisionPosting (d : ArbitratedSlice) (source : QuantityObservation) (kind : LocationKind) : QuantityPosting :=
  { postingId := "decision:" ++ rangeText d.source
    asset := source.asset
    locationKind := kind
    locationId := (d.selectedClaimId.filter fun id => id ≠ "").getD d.reason
    amountMsat := d.source.amountMsat
    state := .decided d.state
    observationHash := some source.quantityHash
    domain := some (QuantityDomain.fromObservation source) }

def decisionPostings (index : Observations) (d : ArbitratedSlice) : Except PyError (List QuantityPosting) :=
  if d.target ≠ none then .ok []
  else match index.get d.source.observationHash with
    | none => .error (.keyError d.source.observationHash)
    | some source =>
      match d.location with
      | none => .error (.valueError ("internal quantity decision has no observed target: " ++ d.state.text))
      | some kind => .ok [decisionPosting d source kind]

def targetsOn (decisions : List ArbitratedSlice) (hash : String) : List QuantitySlice :=
  sortedBy (fun t => toLex t.range) ((decisions.filterMap (·.target)).filter fun t => t.observationHash = hash)

def originPosting (o : QuantityObservation) (s : QuantitySlice) : QuantityPosting :=
  { postingId := "origin:" ++ rangeText s
    asset := o.asset
    locationKind := .externalOrigin
    locationId := "unclassified_origin"
    amountMsat := -s.amountMsat
    state := .unclassifiedOrigin
    observationHash := some o.quantityHash
    domain := some (QuantityDomain.fromObservation o) }

def originPostings (decisions : List ArbitratedSlice) (o : QuantityObservation) :
    Except PyError (List QuantityPosting) := do
  let uncovered ← uncoveredInboundSlices o (targetsOn decisions o.quantityHash)
  pure (uncovered.map (originPosting o))

def buildPostings (observations : Observations) (decisions : List ArbitratedSlice) :
    Except PyError (List QuantityPosting) := do
  let decided ← decisions.mapM (decisionPostings observations)
  let origins ← (observations.filter fun o => o.direction = .inbound).mapM (originPostings decisions)
  pure (sortedBy QuantityPosting.postingId
    ((sortedBy QuantityObservation.quantityHash observations).flatMap observedPostings ++
      decided.flatten ++ origins.flatten))

def QuantityPosting.key (p : QuantityPosting) : Option (String × String × String) :=
  p.domain.map QuantityDomain.conserved

def QuantityProjection.totalsByDomain (p : QuantityProjection) : List ((String × String × String) × Int) :=
  let keyed := p.postings.filterMap fun q => q.key.map fun k => (k, q.amountMsat)
  (groupBy Prod.fst keyed).map fun group => (group.1, (group.2.map Prod.snd).sum)

def domainText (entry : (String × String × String) × Int) : String :=
  "('" ++ entry.1.1 ++ "', '" ++ entry.1.2.1 ++ "', '" ++ entry.1.2.2 ++ "'): " ++ toString entry.2

def ArbitratedSlice.place (d : ArbitratedSlice) : String ×ₗ Int ×ₗ Int :=
  toLex (d.source.observationHash, toLex d.source.range)

def reconcile (claims : List QuantityClaim) (decisions : List ArbitratedSlice) : List ArbitratedSlice :=
  failClosedAtomicBundles (failClosedDestinationOverlaps decisions) claims

def projectQuantities (observations : List QuantityObservation) (claims : List QuantityClaim) :
    Except PyError QuantityProjection := do
  let inputs ← validatedInputs observations claims
  let arbitrated ← sourceDecisions inputs.observations inputs.claims
  let decisions := reconcile inputs.claims arbitrated
  let postings ← buildPostings inputs.observations decisions
  let projection : QuantityProjection :=
    { observations := sortedBy QuantityObservation.quantityHash inputs.observations
      decisions := sortedBy ArbitratedSlice.place decisions
      postings
      claimErrors := inputs.errors }
  let unbalanced := projection.totalsByDomain.filter fun entry => entry.2 ≠ 0
  raiseIf (unbalanced ≠ []) (.assertionError ("custody quantity projection is unbalanced: \x7b" ++
    String.intercalate ", " (unbalanced.map domainText) ++ "\x7d"))
  pure projection

theorem reconcile_steps (claims : List QuantityClaim) (decisions : List ArbitratedSlice) :
    List.Forall₂ Reconciled decisions (reconcile claims decisions) :=
  reconciled_trans (overlaps_reconciled decisions) (bundles_reconciled _ claims)

/-- A decision of the result: arbitrated from the claims, then perhaps demoted. -/
def Final (index : Observations) (claims : List QuantityClaim) (d : ArbitratedSlice) : Prop :=
  ∃ e, Decided index claims e ∧ Reconciled e d

structure Landed (index : Observations) (d : ArbitratedSlice) (t : QuantitySlice) : Prop where
  amount : t.amountMsat = d.source.amountMsat
  ends : ∃ s ∈ index, ∃ o ∈ index, s.quantityHash = d.source.observationHash ∧
    o.quantityHash = t.observationHash ∧ o.direction = .inbound ∧ t.endMsat ≤ o.principalMsat ∧
    (QuantityDomain.fromObservation s).conserved = (QuantityDomain.fromObservation o).conserved

section
variable {index : Observations} {claims : List QuantityClaim} {d : ArbitratedSlice}

theorem final_source (final : Final index claims d) :
    ∃ o ∈ index, o.direction = .outbound ∧ o.quantityHash = d.source.observationHash := by
  obtain ⟨e, decided, step⟩ := final
  rw [step.source]
  exact decided.source

theorem final_outcome (final : Final index claims d)
    (untouched : d.selectedClaimId ≠ none ∨ d.target ≠ none ∨ d.state ≠ .conflicting) :
    Outcome (claimsOf claims d.source.observationHash) d.source.range d.source d := by
  obtain ⟨e, decided, step⟩ := final
  obtain rfl := step.kept untouched
  exact decided.outcome

theorem final_winner (final : Final index claims d) {id : String} (selects : d.selectedClaimId = some id) :
    ∃ winner target, Wins (claimsOf claims d.source.observationHash) d.source.range winner ∧
      selectedTarget winner d.source.range = .ok target ∧ d = selectedSlice d.source winner target := by
  have outcome := final_outcome final (.inl (by simp [selects]))
  generalize range : d.source.range = segment at outcome
  generalize slice : d.source = source at outcome
  cases outcome with
  | unmatched _ => simp [unmatchedSlice] at selects
  | conflict _ _ _ => simp [conflictingSlice] at selects
  | selected winner target wins image =>
    exact ⟨winner, target, by simpa [selectedSlice] using wins, image, rfl⟩

theorem final_selects (final : Final index claims d) (targeted : d.target ≠ none) : d.selectedClaimId ≠ none := by
  have outcome := final_outcome final (.inr (.inl targeted))
  generalize range : d.source.range = segment at outcome
  generalize slice : d.source = source at outcome
  cases outcome with
  | unmatched _ => simp [unmatchedSlice] at targeted
  | conflict _ _ _ => simp [conflictingSlice] at targeted
  | selected winner target wins image => simp [selectedSlice]

theorem final_landed (grounded : ∀ c ∈ claims, Grounded index c) (final : Final index claims d) {t : QuantitySlice}
    (targeted : d.target = some t) : Landed index d t := by
  obtain ⟨id, selects⟩ := Option.ne_none_iff_exists'.1 (final_selects final (by simp [targeted]))
  obtain ⟨winner, target, wins, image, same⟩ := final_winner final selects
  have found : target = some t := by
    rw [same] at targeted
    exact targeted
  rw [found] at image
  obtain ⟨u, aimed, hash, range⟩ := selectedTarget_some image
  obtain ⟨member, onSource⟩ := List.mem_filter.1 wins.member
  have sameSource : winner.source.observationHash = d.source.observationHash := by simpa using onSource
  obtain ⟨s, o, stored, landed, within, domain⟩ := (grounded winner member).target u aimed
  obtain ⟨storedSource, -⟩ := outboundSource_some.1 stored
  obtain ⟨storedTarget, inbound⟩ := inboundTarget_some.1 landed
  obtain ⟨observedSource, sourceHash⟩ := get_some storedSource
  obtain ⟨observedTarget, targetHash⟩ := get_some storedTarget
  have conserved := winner.sound.target_amount u aimed
  obtain ⟨before, behind⟩ := wins.covers
  obtain ⟨start, stop⟩ := Prod.mk.inj range
  simp only [QuantitySlice.range] at start stop before behind
  simp only [QuantitySlice.amountMsat] at conserved
  refine ⟨?_, s, observedSource, o, observedTarget, sourceHash.trans sameSource, targetHash.trans hash.symm, inbound,
    ?_, domain⟩
  · simp only [QuantitySlice.amountMsat]
    omega
  · omega

theorem final_location (final : Final index claims d) (targetless : d.target = none) :
    ∃ kind, d.location = some kind ∧ kind ≠ .wallet ∧ kind ≠ .externalOrigin := by
  unfold ArbitratedSlice.location
  cases classified : d.destinationKind with
  | some kind => cases kind <;> exact ⟨_, rfl, by decide, by decide⟩
  | none =>
    by_cases internal : d.state ∈ QuantityState.targetStates
    · exfalso
      have outcome := final_outcome final (.inr (.inr (by
        intro conflicting
        rw [conflicting] at internal
        simp [QuantityState.targetStates] at internal)))
      generalize range : d.source.range = segment at outcome
      generalize slice : d.source = source at outcome
      cases outcome with
      | unmatched _ =>
        cases suspense : requiresSuspense (claimsOf claims source.observationHash) <;>
          simp [unmatchedSlice, QuantityState.targetStates, suspense] at internal
      | conflict _ _ _ => simp [conflictingSlice, QuantityState.targetStates] at internal
      | selected winner target wins image =>
        have absent : target = none := targetless
        rw [absent] at image
        have retained := winner.sound.targetless_retained internal (selectedTarget_none image)
        have unclassified : winner.destinationKind = none := classified
        rw [retained] at unclassified
        cases unclassified
    · cases state : d.state with
      | internalVerified => exact absurd (by simp [state, QuantityState.targetStates]) internal
      | internalReviewed => exact absurd (by simp [state, QuantityState.targetStates]) internal
      | externalConfirmed => exact ⟨_, rfl, by decide, by decide⟩
      | externalPresumed => exact ⟨_, rfl, by decide, by decide⟩
      | custodySuspense => exact ⟨_, rfl, by decide, by decide⟩
      | conflicting => exact ⟨_, rfl, by decide, by decide⟩

end

/-- What postings rely on: located slices that tile every source, and targets that do not meet. -/
structure Settled (index : Observations) (decisions : List ArbitratedSlice) : Prop where
  good : ValidIndex index
  sources : ∀ d ∈ decisions, ∃ o ∈ index, o.direction = .outbound ∧ o.quantityHash = d.source.observationHash
  tiles : ∀ o ∈ index, o.direction = .outbound →
    Tiles 0 ((decisions.filter fun d => d.source.observationHash = o.quantityHash).map (·.source.range)) o.principalMsat
  located : ∀ d ∈ decisions, d.target = none → ∃ kind, d.location = some kind ∧ kind ≠ .externalOrigin
  landed : ∀ d ∈ decisions, ∀ t, d.target = some t → Landed index d t
  apart : (decisions.filterMap (·.target)).Pairwise QuantitySlice.Apart

theorem QuantitySlice.Apart.symm {t u : QuantitySlice} (apart : t.Apart u) : u.Apart t :=
  fun same => (apart same.symm).symm

section
variable {index : Observations} {decisions : List ArbitratedSlice} (settled : Settled index decisions)
include settled

variable {o : QuantityObservation}

theorem target_inside (observed : o ∈ index) {t : QuantitySlice}
    (member : t ∈ targetsOn decisions o.quantityHash) : t.endMsat ≤ o.principalMsat := by
  obtain ⟨targeted, onHash⟩ := List.mem_filter.1 (mem_sortedBy.1 member)
  obtain ⟨d, present, aimed⟩ := List.mem_filterMap.1 targeted
  obtain ⟨-, -, -, p, stored, -, hash, -, within, -⟩ := settled.landed d present t aimed
  have same : p = o := settled.good.eq_of_hash stored observed (hash.trans (of_decide_eq_true onHash))
  exact same ▸ within

theorem targets_spaced (observed : o ∈ index) :
    Spaced 0 ((targetsOn decisions o.quantityHash).map QuantitySlice.range) o.principalMsat := by
  refine spaced_of_pairwise (settled.good.sound observed).principal_nonneg ?_ ?_
  · intro r member
    obtain ⟨t, present, rfl⟩ := List.mem_map.1 member
    exact ⟨t.start_nonneg, t.start_lt_end, target_inside settled observed present⟩
  · rw [List.pairwise_map]
    have ordered := sortedBy_pairwise (fun t : QuantitySlice => toLex t.range)
      ((decisions.filterMap (·.target)).filter fun t => t.observationHash = o.quantityHash)
    have apart : (targetsOn decisions o.quantityHash).Pairwise QuantitySlice.Apart :=
      ((sortedBy_perm _ _).pairwise_iff QuantitySlice.Apart.symm).2 (settled.apart.sublist List.filter_sublist)
    refine (ordered.and apart).imp_of_mem ?_
    rintro t u memberT memberU ⟨le, disjoint⟩
    have hash : ∀ {x}, x ∈ targetsOn decisions o.quantityHash → x.observationHash = o.quantityHash := fun member =>
      of_decide_eq_true (List.mem_filter.1 (mem_sortedBy.1 member)).2
    have starts : t.startMsat ≤ u.startMsat := by
      rcases Prod.Lex.toLex_le_toLex.1 le with less | ⟨equal, -⟩
      · exact le_of_lt less
      · exact le_of_eq equal
    rcases disjoint ((hash memberT).trans (hash memberU).symm) with before | after
    · exact before
    · have proper := u.start_lt_end
      simp only [QuantitySlice.range]
      omega

theorem uncovered_partition (observed : o ∈ index) :
    ∃ slices, uncoveredInboundSlices o (targetsOn decisions o.quantityHash) = .ok slices ∧
      (∀ s ∈ slices, s.observationHash = o.quantityHash) ∧
      Partitions 0 ((targetsOn decisions o.quantityHash).map QuantitySlice.range ++ slices.map QuantitySlice.range)
        o.principalMsat := by
  have spaced := targets_spaced settled observed
  have total : ∃ slices, uncoveredInboundSlices o (targetsOn decisions o.quantityHash) = .ok slices := by
    refine mapM_total ?_
    intro r member
    obtain ⟨low, proper, -⟩ := gaps_bounds spaced member
    exact QuantitySlice.make_total (settled.good.hash_nonempty observed) low proper
  obtain ⟨slices, run⟩ := total
  have ranges : slices.map QuantitySlice.range =
      gaps 0 ((targetsOn decisions o.quantityHash).map QuantitySlice.range) o.principalMsat := by
    have paired := mapM_ok.1 run
    clear run spaced
    generalize gaps 0 ((targetsOn decisions o.quantityHash).map QuantitySlice.range) o.principalMsat = cuts at paired
    induction paired with
    | nil => rfl
    | cons head _ ih => rw [List.map_cons, ih, (QuantitySlice.make_ok.1 head).2]
  refine ⟨slices, run, ?_, ?_⟩
  · intro s member
    obtain ⟨r, -, built⟩ := mapM_outputs run member
    exact (QuantitySlice.make_ok.1 built).1
  · rw [ranges]
    exact gaps_partition spaced

theorem buildPostings_total : ∃ postings, buildPostings index decisions = .ok postings := by
  have decided : ∃ parts, decisions.mapM (decisionPostings index) = .ok parts := by
    refine mapM_total ?_
    intro d member
    unfold decisionPostings
    split
    · exact ⟨_, rfl⟩
    · rename_i targetless
      obtain ⟨o, observed, -, hash⟩ := settled.sources d member
      obtain ⟨kind, location, -⟩ := settled.located d member (not_not.1 targetless)
      rw [← hash, settled.good.get observed]
      simp [location]
  have origins : ∃ parts, (index.filter fun o => o.direction = .inbound).mapM (originPostings decisions) = .ok parts := by
    refine mapM_total ?_
    intro o member
    obtain ⟨slices, run, -⟩ := uncovered_partition settled (List.mem_filter.1 member).1
    exact ⟨_, bind_ok.2 ⟨slices, run, rfl⟩⟩
  obtain ⟨first, decidedRun⟩ := decided
  obtain ⟨second, originRun⟩ := origins
  exact ⟨_, bind_ok.2 ⟨first, decidedRun, bind_ok.2 ⟨second, originRun, rfl⟩⟩⟩

end

end Kassiber.Custody

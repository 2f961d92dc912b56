import Kassiber.Tax.Projection

/-!
What a built quantity state guarantees to the tax compiler: settled decisions over known observations, whose
shape follows from the claims, and an issue for every decision that is not final.
-/

namespace Kassiber.Tax
open Custody Lib.Outcome Lib.Dict Lib.Sorting Lib.Tiling Lib.Propagation
open List hiding mapM_map
open Prod (fst)

structure Shaped (d : ArbitratedSlice) : Prop where
  targeted : d.target ≠ none → d.state ∈ QuantityState.targetStates
  kept : d.state ∈ QuantityState.targetStates → d.target = none → d.destinationKind = some .retainedCustody
  fee : d.destinationKind = some .fee → d.state = .externalConfirmed
  retained : d.destinationKind = some .retainedCustody → d.state = .internalReviewed ∧ d.target = none

theorem final_shaped {index : Observations} {claims : List QuantityClaim} {d : ArbitratedSlice}
    (final : Final index claims d) : Shaped d := by
  obtain ⟨e, decided, step⟩ := final
  rcases step with rfl | ⟨reason, ids, rfl⟩
  · have outcome := decided.outcome
    generalize d.source.range = segment at outcome
    generalize d.source = source at outcome
    cases outcome with
    | unmatched _ =>
      cases suspense : requiresSuspense (claimsOf claims source.observationHash) <;>
        constructor <;> simp [unmatchedSlice, QuantityState.targetStates]
    | conflict _ _ _ => constructor <;> simp [conflictingSlice, QuantityState.targetStates]
    | selected winner target wins image =>
      have sound := winner.sound
      refine ⟨?_, ?_, sound.fee_external, ?_⟩
      · intro present
        obtain ⟨t, found⟩ := Option.ne_none_iff_exists'.1 present
        have aimed : target = some t := found
        rw [aimed] at image
        obtain ⟨u, named, -, -⟩ := selectedTarget_some image
        exact sound.target_state (by simp [named])
      · intro internal absent
        have missing : target = none := absent
        rw [missing] at image
        exact sound.targetless_retained internal (selectedTarget_none image)
      · intro kept
        obtain ⟨internal, absent⟩ := sound.retained_internal kept
        refine ⟨internal, ?_⟩
        unfold selectedTarget at image
        rw [absent] at image
        cases image
        rfl
  · constructor <;> simp [ArbitratedSlice.demote, QuantityState.targetStates]

structure Coherent (s : CanonicalQuantityState) : Prop where
  settled : Settled s.canonicalInput.observations s.projection.decisions
  observed : s.projection.observations = sortedBy QuantityObservation.quantityHash s.canonicalInput.observations
  shaped : ∀ d ∈ s.projection.decisions, Shaped d
  judged : ∃ rowsById, taxEligibility s.canonicalInput s.projection s.issues rowsById = .ok s.taxEligibility
  explained : ∀ d ∈ s.projection.decisions, d.state ∈ QuantityState.unresolvedStates →
    ∃ issue ∈ s.issues, issue.issueType = .unresolvedQuantity ∧ issue.reason = d.reason ∧
      ∃ o ∈ s.canonicalInput.observations, o.quantityHash = d.source.observationHash ∧
        issue.transactionIds = [o.transactionId]

theorem projection_settled {observations : Observations} {claims : List QuantityClaim} {p : QuantityProjection}
    (run : projectQuantities observations claims = .ok p) :
    Settled observations p.decisions ∧ ∀ d ∈ p.decisions, Shaped d := by
  obtain ⟨v, ds, validated, arbitrated, -, -, decisions, -⟩ := projectQuantities_ok run
  have settled := reconciled_settled validated arbitrated
  rw [decisions]
  refine ⟨⟨settled.good, ?_, ?_, ?_, ?_, ?_⟩, ?_⟩
  · exact fun d member => settled.sources d (mem_sortedBy.1 member)
  · intro o observed outbound
    rw [place_sorted_filter settled observed outbound]
    exact settled.tiles o observed outbound
  · exact fun d member => settled.located d (mem_sortedBy.1 member)
  · exact fun d member => settled.landed d (mem_sortedBy.1 member)
  · exact (((sortedBy_perm _ _).filterMap _).pairwise_iff QuantitySlice.Apart.symm).2 settled.apart
  · exact fun d member => final_shaped (reconciled_final validated arbitrated (mem_sortedBy.1 member))

variable {s : CanonicalQuantityState}

theorem build_coherent {host : Host} {input : RuntimeInput}
    (built : buildCanonicalQuantityState host input = .ok s) : Coherent s := by
  obtain ⟨parts⟩ := build_ok host built
  obtain ⟨settled, shaped⟩ := projection_settled parts.projected
  obtain ⟨v, ds, validated, arbitrated, -, observed, decisions, -⟩ := projectQuantities_ok parts.projected
  rw [← parts.canonical] at settled observed
  refine ⟨settled, observed, shaped, ⟨input.rowsById, by rw [parts.canonical]; exact parts.judged⟩, ?_⟩
  intro d member open_
  obtain ⟨issue, present, step⟩ := mapM_inputs parts.unresolved (mem_filter.2 ⟨member, decide_eq_true open_⟩)
  split at step
  · cases step
  · rename_i o found
    cases step
    refine ⟨_, parts.listed _ present, rfl, rfl, o, ?_, ?_, rfl⟩
    all_goals
      obtain ⟨p, listed, same⟩ := mem_map.1 (mem_of_lookup found)
      obtain ⟨hash, rfl⟩ := Prod.mk.inj same
    · rw [observed] at listed
      exact mem_sortedBy.1 listed
    · exact hash

structure Placed (index : Observations) (d : Located) : Prop where
  source : d.source ∈ index
  outbound : d.source.direction = .outbound
  hash : d.source.quantityHash = d.decision.source.observationHash
  untargeted : d.target = none → d.decision.target = none
  target : ∀ slice o, d.target = some (slice, o) → d.decision.target = some slice ∧ o ∈ index ∧
    o.quantityHash = slice.observationHash ∧ o.direction = .inbound
  shaped : Shaped d.decision

def Located.order (d : Located) : String ×ₗ String ×ₗ Int ×ₗ Int := decisionOrder (d.decision, d.source)

structure Line (s : CanonicalQuantityState) (ds : List Located) : Prop where
  perm : (ds.map (·.decision)).Perm s.projection.decisions
  placed : ∀ d ∈ ds, Placed s.canonicalInput.observations d
  ordered : ds.Pairwise fun d e => d.order < e.order

section
variable {s : CanonicalQuantityState} (coherent : Coherent s)
include coherent

theorem observationNamed_ok {hash : String} {o : QuantityObservation} :
    observationNamed s hash = .ok o ↔ o ∈ s.canonicalInput.observations ∧ o.quantityHash = hash := by
  have distinct : ((observationsByHash s).map fst).Nodup := by
    unfold observationsByHash
    rw [map_map, coherent.observed]
    exact ((sortedBy_perm _ _).map _).nodup_iff.2 coherent.settled.good.distinct
  have listed : ∀ {h : String} {p : QuantityObservation}, (h, p) ∈ observationsByHash s ↔
      p ∈ s.canonicalInput.observations ∧ p.quantityHash = h := by
    intro h p
    unfold observationsByHash
    rw [coherent.observed, mem_map]
    constructor
    · rintro ⟨q, member, same⟩
      obtain ⟨rfl, rfl⟩ := Prod.mk.inj same
      exact ⟨mem_sortedBy.1 member, rfl⟩
    · rintro ⟨member, rfl⟩
      exact ⟨p, mem_sortedBy.2 member, rfl⟩
  unfold observationNamed
  constructor
  · intro found
    split at found
    · cases found
    · rename_i p read
      cases found
      exact listed.1 (mem_of_lookup read)
  · intro known
    rw [lookup_of_mem distinct (listed.2 known)]

theorem sourced_ok {d : ArbitratedSlice} (member : d ∈ s.projection.decisions) :
    ∃ o, sourced s d = .ok (d, o) ∧ o ∈ s.canonicalInput.observations ∧ o.direction = .outbound ∧
      o.quantityHash = d.source.observationHash := by
  obtain ⟨o, observed, outbound, hash⟩ := coherent.settled.sources d member
  refine ⟨o, ?_, observed, outbound, hash⟩
  exact bind_ok.2 ⟨o, (observationNamed_ok coherent).2 ⟨observed, hash⟩, rfl⟩

theorem located_ok {d : ArbitratedSlice} (member : d ∈ s.projection.decisions) {o : QuantityObservation}
    (observed : o ∈ s.canonicalInput.observations) (outbound : o.direction = .outbound)
    (hash : o.quantityHash = d.source.observationHash) :
    ∃ l, located s (d, o) = .ok l ∧ l.decision = d ∧ l.source = o ∧ Placed s.canonicalInput.observations l := by
  have shaped := coherent.shaped d member
  unfold located
  cases aimed : d.target with
  | none =>
    refine ⟨_, rfl, rfl, rfl, observed, outbound, hash, fun _ => aimed, ?_, shaped⟩
    intro slice target found
    cases found
  | some slice =>
    obtain ⟨-, -, -, target, stored, -, named, inbound, -, -⟩ := coherent.settled.landed d member slice aimed
    have found : observationNamed s slice.observationHash = .ok target :=
      (observationNamed_ok coherent).2 ⟨stored, named⟩
    refine ⟨_, bind_ok.2 ⟨target, found, rfl⟩, rfl, rfl, observed, outbound, hash, ?_, ?_, shaped⟩
    · intro absent
      cases absent
    · intro slice' target' same
      cases same
      exact ⟨aimed, stored, named, inbound⟩

omit coherent in
theorem located_same {entry : ArbitratedSlice × QuantityObservation} {l : Located} (found : located s entry = .ok l) :
    (l.decision, l.source) = entry := by
  unfold located at found
  split at found
  · cases found
    rfl
  · obtain ⟨o, -, same⟩ := bind_ok.1 found
    cases same
    rfl

theorem starts_distinct :
    (s.projection.decisions.map fun d => (d.source.observationHash, d.source.startMsat)).Nodup := by
  refine nodup_of_fibers ?_
  intro hash
  by_cases known : ∃ d ∈ s.projection.decisions, d.source.observationHash = hash
  · obtain ⟨d, member, rfl⟩ := known
    obtain ⟨o, observed, outbound, same⟩ := coherent.settled.sources d member
    have strict := tiles_strict (coherent.settled.tiles o observed outbound)
    rw [same] at strict
    rw [Nodup, pairwise_map]
    exact (pairwise_map.1 strict).imp fun less => ne_of_lt less
  · have none : s.projection.decisions.filter (fun d => d.source.observationHash = hash) = [] := by
      refine filter_eq_nil_iff.2 ?_
      intro d member same
      exact known ⟨d, member, of_decide_eq_true same⟩
    rw [none]
    exact nodup_nil

theorem locatedDecisions_line : ∃ ds, locatedDecisions s = .ok ds ∧ Line s ds := by
  obtain ⟨sources, sourcing⟩ := mapM_total fun d member =>
    let ⟨_, found, _⟩ := sourced_ok coherent member
    ⟨_, found⟩
  have firsts : sources.map fst = s.projection.decisions := by
    rw [mapM_map (h := id) ?_ sourcing, map_id]
    intro d entry step
    obtain ⟨o, -, same⟩ := bind_ok.1 step
    cases same
    rfl
  have placed : ∀ entry ∈ sortedBy decisionOrder sources, entry.1 ∈ s.projection.decisions ∧
      entry.2 ∈ s.canonicalInput.observations ∧ entry.2.direction = .outbound ∧
      entry.2.quantityHash = entry.1.source.observationHash := by
    intro entry member
    obtain ⟨d, decided, step⟩ := mapM_outputs sourcing (mem_sortedBy.1 member)
    obtain ⟨o, found, rest⟩ := sourced_ok coherent decided
    rw [found] at step
    cases step
    exact ⟨decided, rest⟩
  have total : ∀ entry ∈ sortedBy decisionOrder sources, ∃ l, located s entry = .ok l := by
    intro entry member
    obtain ⟨decided, observed, outbound, hash⟩ := placed entry member
    obtain ⟨l, found, -⟩ := located_ok coherent decided observed outbound hash
    exact ⟨l, found⟩
  obtain ⟨moves, checked⟩ := mapM_total fun entry member => total entry (mem_filter.1 member).1
  obtain ⟨ds, locating⟩ := mapM_total total
  have paired : ds.map (fun l => (l.decision, l.source)) = sortedBy decisionOrder sources := by
    rw [mapM_map (h := id) (fun entry l step => located_same step) locating, map_id]
  have spread : (sources.map decisionOrder).Nodup := by
    refine List.Nodup.of_map (fun key => ((ofLex (ofLex key).2).1, (ofLex (ofLex (ofLex key).2).2).1)) ?_
    have distinct := starts_distinct coherent
    rw [← firsts, map_map] at distinct
    rw [map_map]
    exact distinct
  refine ⟨ds, ?_, ?_, ?_, ?_⟩
  · exact bind_ok.2 ⟨sources, sourcing, bind_ok.2 ⟨moves, checked, locating⟩⟩
  · have same : ds.map (·.decision) = (sortedBy decisionOrder sources).map fst := by
      rw [← paired, map_map]
      rfl
    rw [same, ← firsts]
    exact (sortedBy_perm _ _).map _
  · intro l member
    obtain ⟨entry, listed, step⟩ := mapM_outputs locating member
    obtain ⟨decided, observed, outbound, hash⟩ := placed entry listed
    obtain ⟨l', found, -, -, at_⟩ := located_ok coherent decided observed outbound hash
    rw [found] at step
    cases step
    exact at_
  · have strict := sortedBy_strict spread
    rw [← paired, pairwise_map] at strict
    exact strict

end

structure Locates (s : CanonicalQuantityState) (d : Located) : Prop where
  decided : d.decision ∈ s.projection.decisions
  source : d.source ∈ s.canonicalInput.observations
  hash : d.source.quantityHash = d.decision.source.observationHash
  aimed : d.target.map fst = d.decision.target
  target : ∀ t ∈ d.target, t.2 ∈ s.canonicalInput.observations ∧ t.2.quantityHash = t.1.observationHash

def Joined (s : CanonicalQuantityState) (a b : String) : Prop :=
  ∃ d, Locates s d ∧ ∃ t ∈ d.move, (d.source.anchorTransactionId = a ∧ t.2.anchorTransactionId = b) ∨
    (d.source.anchorTransactionId = b ∧ t.2.anchorTransactionId = a)

/-- A path of selected moves leads from a blocked transaction to this one. -/
def PathBlocked (args : TaxArguments) (s : CanonicalQuantityState) (id : String) : Prop :=
  ∃ root ∈ args.explicitlyBlocked, Relation.ReflTransGen (Joined s) root id

theorem locates_unique (coherent : Coherent s) {d e : Located} (left : Locates s d)
    (right : Locates s e) (same : d.decision = e.decision) : d = e := by
  obtain ⟨decision, source, target⟩ := d
  obtain ⟨decision', source', target'⟩ := e
  cases (same : decision = decision')
  have sources : source = source' :=
    coherent.settled.good.eq_of_hash left.source right.source (left.hash.trans right.hash.symm)
  have targets : target = target' := by
    have slices : target.map fst = target'.map fst := left.aimed.trans right.aimed.symm
    cases target with
    | none => exact (Option.map_eq_none_iff.1 slices.symm).symm
    | some t =>
      obtain ⟨t', found, first⟩ := Option.map_eq_some_iff.1 slices.symm
      cases found
      obtain ⟨stored, hash⟩ := left.target t rfl
      obtain ⟨stored', hash'⟩ := right.target t' rfl
      have second : t.2 = t'.2 := coherent.settled.good.eq_of_hash stored stored' (by rw [hash, hash', first])
      exact congrArg some (Prod.ext first.symm second)
  rw [sources, targets]

variable {ds : List Located}

theorem Line.locates (line : Line s ds) {d : Located} (member : d ∈ ds) :
    Locates s d := by
  have placed := line.placed d member
  refine ⟨line.perm.mem_iff.1 (mem_map.2 ⟨d, member, rfl⟩), placed.source, placed.hash, ?_, ?_⟩
  · cases found : d.target with
    | none => exact (placed.untargeted found).symm
    | some t => exact (placed.target t.1 t.2 found).1.symm
  · intro t found
    obtain ⟨-, stored, hash, -⟩ := placed.target t.1 t.2 found
    exact ⟨stored, hash⟩

theorem Line.mem_iff (coherent : Coherent s) (line : Line s ds) {d : Located} : d ∈ ds ↔ Locates s d := by
  constructor
  · exact line.locates
  · intro locates
    obtain ⟨e, member, same⟩ := mem_map.1 (line.perm.mem_iff.2 locates.decided)
    rw [← locates_unique coherent (line.locates member) locates same]
    exact member

variable {a b id : String}

theorem mem_moveEdges : (a, b) ∈ moveEdges ds ↔
    ∃ d ∈ ds, ∃ t ∈ d.move, d.source.anchorTransactionId = a ∧ t.2.anchorTransactionId = b := by
  unfold moveEdges
  simp only [mem_filterMap, Option.map_eq_some_iff, Prod.mk.injEq, Option.mem_def]

theorem mem_moveNeighbors {edges : List (String × String)} :
    b ∈ moveNeighbors edges a ↔ (a, b) ∈ edges ∨ (b, a) ∈ edges := by
  unfold moveNeighbors
  simp

/-- The closure reaches what a path of neighbours leads to from a root. -/
theorem reached_iff {roots : List String} {edges : List (String × String)} :
    id ∈ (blockedClosure roots edges).reached ↔
      ∃ root ∈ roots, Relation.ReflTransGen (fun a b => b ∈ moveNeighbors edges a) root id := by
  have known : ∀ a, ∀ b ∈ moveNeighbors edges a, b ∈ (moveAnchors edges).toFinset := by
    intro a b near
    unfold moveAnchors
    rw [mem_toFinset, mem_sortedSet, mem_append, mem_map, mem_map]
    rcases mem_moveNeighbors.1 near with out | inbound
    · exact .inr ⟨_, out, rfl⟩
    · exact .inl ⟨_, inbound, rfl⟩
  unfold blockedClosure
  rw [mem_spread_reached known (fun k => mem_toFinset.symm) ?_]
  · unfold Reaches
    simp only [mem_toFinset, mem_sortedSet]
  · have anchors : (moveAnchors edges).toFinset.card = (moveAnchors edges).length :=
      toFinset_card_of_nodup (sortedSet_nodup _)
    rw [anchors, toFinset_card_of_nodup (sortedSet_nodup roots)]

theorem blocked_iff (coherent : Coherent s) (line : Line s ds) (args : TaxArguments) :
    id ∈ (blockedClosure args.explicitlyBlocked (moveEdges ds)).reached ↔ PathBlocked args s id := by
  have joined : (fun a b => b ∈ moveNeighbors (moveEdges ds) a) = Joined s := by
    funext a b
    refine propext ?_
    simp only [mem_moveNeighbors, mem_moveEdges, line.mem_iff coherent, ← exists_or, ← and_or_left]
    rfl
  rw [reached_iff, joined]
  rfl

end Kassiber.Tax

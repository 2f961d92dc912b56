import Kassiber.Lib.Tiling
import Kassiber.Custody.RouteFlattening
import Kassiber.Custody.ComponentClaims

/-!
Claims of a reviewed component take their slices from running cursors.
-/

namespace Kassiber.Custody
open Lib.Outcome Lib.Dict Lib.Sorting Lib.Sums Lib.Tiling
open List hiding lookup

def sourceRanges (claims : List QuantityClaim) (hash : String) : List (Int × Int) :=
  ((claims.map (·.source)).filter fun slice => slice.observationHash = hash).map QuantitySlice.range

theorem sourceRanges_append (claims : List QuantityClaim) (claim : QuantityClaim) (hash : String) :
    sourceRanges (claims ++ [claim]) hash =
      sourceRanges claims hash ++ if claim.source.observationHash = hash then [claim.source.range] else [] := by
  unfold sourceRanges
  rw [map_append, filter_append, map_append]
  by_cases own : claim.source.observationHash = hash <;> simp [own]

theorem targetRanges_append (claims : List QuantityClaim) (claim : QuantityClaim) (hash : String) :
    targetRanges (claims ++ [claim]) hash = targetRanges claims hash ++ targetRanges [claim] hash := by
  simp [targetRanges, filterMap_append]

theorem targetRanges_single (claim : QuantityClaim) (hash : String) :
    targetRanges [claim] hash =
      ((claim.target.toList.filter fun slice => slice.observationHash = hash).map QuantitySlice.range) := by
  unfold targetRanges
  cases targeted : claim.target <;> simp [targeted]

namespace Cursors

theorem at_move (cursors : Cursors) (key hash : String) (position : Int) :
    (cursors.move key position).at hash = if key = hash then position else cursors.at hash :=
  lookup_assigned cursors key hash position 0

end Cursors

section
variable {component : Component} {observations : List (String × QuantityObservation)} {state next : ClaimState}
  {index : Nat} {allocation : ComponentAllocation} {source sink : ComponentLeg} {out : QuantityObservation}
  {verdict : SinkVerdict}

theorem observationOf_ok {id : String} {o : QuantityObservation} :
    observationOf observations id = .ok o ↔ lookup observations id = some o := by
  unfold observationOf
  cases lookup observations id <;> simp

structure SinkVerdict.Placed (observations : List (String × QuantityObservation)) (state : ClaimState)
    (sink : ComponentLeg) (amount : Int) (verdict : SinkVerdict) (inbound : QuantityObservation) : Prop where
  observed : lookup observations sink.observedBy = some inbound
  room : state.targets.at inbound.quantityHash + amount ≤ inbound.principalMsat
  target : verdict.target = some (inbound, state.targets.at inbound.quantityHash,
    state.targets.at inbound.quantityHash + amount)
  slice : ∀ slice, verdict.slice = some slice → slice.observationHash = inbound.quantityHash ∧
    slice.range = (state.targets.at inbound.quantityHash, state.targets.at inbound.quantityHash + amount)

def SinkVerdict.Settled (observations : List (String × QuantityObservation)) (state : ClaimState)
    (sink : ComponentLeg) (amount : Int) (verdict : SinkVerdict) : Prop :=
  (verdict.target = none ∧ verdict.slice = none) ∨ ∃ inbound, verdict.Placed observations state sink amount inbound

theorem ownedVerdict_settled
    (judged : ownedVerdict component observations state index allocation source sink out = .ok verdict) :
    verdict.Settled observations state sink allocation.sinkAmountMsat := by
  unfold ownedVerdict at judged
  extract_lets conversion at judged
  split at judged
  · left
    split at judged
    · split at judged
      · cases judged
        exact ⟨rfl, rfl⟩
      · split at judged <;> cases judged
        exact ⟨rfl, rfl⟩
    · split at judged <;> cases judged
      exact ⟨rfl, rfl⟩
  · right
    obtain ⟨inbound, found, judged⟩ := bind_ok.1 judged
    obtain ⟨_, -, judged⟩ := bind_ok.1 judged
    obtain ⟨_, room, judged⟩ := bind_ok.1 judged
    have fits := not_lt.1 (raiseIf_ok.1 room)
    split at judged
    · cases judged
      exact ⟨inbound, observationOf_ok.1 found, fits, rfl, fun slice sliced => by cases sliced⟩
    · obtain ⟨made, built, judged⟩ := bind_ok.1 judged
      cases judged
      refine ⟨inbound, observationOf_ok.1 found, fits, rfl, fun slice sliced => ?_⟩
      cases sliced
      exact QuantitySlice.make_ok.1 built

theorem sinkVerdict_settled
    (judged : sinkVerdict component observations state index allocation source sink out = .ok verdict) :
    verdict.Settled observations state sink allocation.sinkAmountMsat := by
  unfold sinkVerdict at judged
  split at judged
  · exact ownedVerdict_settled judged
  · exact ownedVerdict_settled judged
  · obtain ⟨-, -, judged⟩ := bind_ok.1 judged
    cases judged
    exact .inl ⟨rfl, rfl⟩
  · cases judged
    exact .inl ⟨rfl, rfl⟩
  · split at judged <;> cases judged <;> exact .inl ⟨rfl, rfl⟩
  · cases judged
  · cases judged

structure NextSlice (observations : List (String × QuantityObservation)) (state next : ClaimState)
    (allocation : ComponentAllocation) (sink : ComponentLeg) (out : QuantityObservation) (claim : QuantityClaim)
    (verdict : SinkVerdict) : Prop where
  claims : next.claims = state.claims ++ [claim]
  hash : claim.source.observationHash = out.quantityHash
  range : claim.source.range =
    (state.sources.at out.quantityHash, state.sources.at out.quantityHash + allocation.sourceAmountMsat)
  sources : next.sources =
    state.sources.move out.quantityHash (state.sources.at out.quantityHash + allocation.sourceAmountMsat)
  target : claim.target = verdict.slice
  settled : verdict.Settled observations state sink allocation.sinkAmountMsat
  targets : next.targets = (verdict.target.map fun t => state.targets.move t.1.quantityHash t.2.2).getD state.targets

theorem claimSlice_next
    (run : claimSlice component observations state index allocation source sink out = .ok next) :
    ∃ claim verdict, NextSlice observations state next allocation sink out claim verdict := by
  unfold claimSlice at run
  obtain ⟨-, -, run⟩ := bind_ok.1 run
  obtain ⟨slice, built, run⟩ := bind_ok.1 run
  obtain ⟨verdict, judged, run⟩ := bind_ok.1 run
  obtain ⟨claim, made, run⟩ := bind_ok.1 run
  cases run
  have fields := QuantityClaim.make_ok.1 made
  obtain ⟨hash, range⟩ := QuantitySlice.make_ok.1 built
  have sliced : claim.source = slice := congrArg ClaimFields.source fields
  have targeted : claim.target = verdict.slice := congrArg ClaimFields.target fields
  refine ⟨claim, verdict, rfl, sliced ▸ hash, sliced ▸ range, rfl, targeted, sinkVerdict_settled judged, ?_⟩
  cases verdict.target <;> rfl

theorem NextSlice.position {claim : QuantityClaim}
    (claimed : NextSlice observations state next allocation sink out claim verdict)
    (hash : String) :
    next.sources.at hash = state.sources.at hash + if out.quantityHash = hash then allocation.sourceAmountMsat else 0 := by
  rw [claimed.sources, Cursors.at_move]
  split
  · rename_i own
    rw [own]
  · rw [add_zero]

theorem claimAllocation_cases {entry : ComponentAllocation × Nat}
    (run : claimAllocation component observations state entry = .ok next) :
    (entry.1.sourceAmountMsat ≤ 0 ∧ entry.1.sinkAmountMsat ≤ 0 ∧ next = state) ∨
      ∃ source out, component.leg entry.1.sourceLegId = some source ∧ source.role = .source ∧ source.observedBy ≠ "" ∧
        lookup observations source.observedBy = some out ∧
        ((component.conservationMode ≠ .conversion ∧ next = state) ∨
          ∃ sink claim verdict, NextSlice observations state next entry.1 sink out claim verdict) := by
  unfold claimAllocation at run
  dsimp only at run
  split at run
  · rename_i source sink sourceFound _
    obtain ⟨_, role, run⟩ := bind_ok.1 run
    split at run
    · rename_i empty
      cases run
      exact .inl ⟨empty.1, empty.2, rfl⟩
    · obtain ⟨-, -, run⟩ := bind_ok.1 run
      obtain ⟨_, observed, run⟩ := bind_ok.1 run
      obtain ⟨out, found, run⟩ := bind_ok.1 run
      obtain ⟨-, -, run⟩ := bind_ok.1 run
      refine .inr ⟨source, out, sourceFound, not_not.1 (raiseIf_ok.1 role), raiseIf_ok.1 observed,
        observationOf_ok.1 found, ?_⟩
      split at run
      · rename_i plain
        obtain ⟨-, -, run⟩ := bind_ok.1 run
        cases run
        exact .inl ⟨plain.1, rfl⟩
      · obtain ⟨claim, verdict, claimed⟩ := claimSlice_next run
        exact .inr ⟨sink, claim, verdict, claimed⟩
  · cases run

/-- The claims so far tile what the cursor of each source has passed, and are spaced on each target. -/
structure ClaimState.Spread (observations : List (String × QuantityObservation)) (starts : String → Int)
    (state : ClaimState) : Prop where
  sources : ∀ hash, Tiles (starts hash) (sourceRanges state.claims hash) (state.sources.at hash)
  targets : ∀ hash, Spaced 0 (targetRanges state.claims hash) (state.targets.at hash)
  bounded : ∀ claim ∈ state.claims, ∀ slice, claim.target = some slice → ∃ id inbound,
    lookup observations id = some inbound ∧ inbound.quantityHash = slice.observationHash ∧
      slice.endMsat ≤ inbound.principalMsat

variable {starts : String → Int}

theorem ClaimState.Spread.claim {claim : QuantityClaim}
    (spread : state.Spread observations starts) (nonneg : 0 ≤ allocation.sinkAmountMsat)
    (claimed : NextSlice observations state next allocation sink out claim verdict) :
    next.Spread observations starts := by
  have proper := claim.source.start_lt_end
  have range : claim.source.range = (claim.source.startMsat, claim.source.endMsat) := rfl
  refine ⟨fun hash => ?_, fun hash => ?_, fun other member slice targeted => ?_⟩
  · rw [claimed.claims, sourceRanges_append, claimed.position, claimed.hash]
    by_cases own : out.quantityHash = hash
    · rw [if_pos own, if_pos own]
      refine tiles_append (spread.sources hash) ?_
      rw [claimed.range, own]
      rw [claimed.range] at range
      obtain ⟨low, high⟩ := Prod.mk.inj range
      exact ⟨rfl, by dsimp only; rw [← own]; omega, rfl⟩
    · rw [if_neg own, if_neg own, append_nil, add_zero]
      exact spread.sources hash
  · rw [claimed.claims, targetRanges_append, targetRanges_single, claimed.target, claimed.targets]
    rcases claimed.settled with ⟨passed, sliced⟩ | ⟨inbound, placed⟩
    · rw [passed, sliced]
      simpa using spread.targets hash
    · rw [placed.target, Option.map_some, Option.getD_some, Cursors.at_move]
      have before := spread.targets hash
      by_cases own : inbound.quantityHash = hash
      · subst own
        rw [if_pos rfl]
        cases sliced : verdict.slice with
        | none =>
          rw [Option.toList_none, filter_nil, map_nil, append_nil]
          exact spaced_mono before (le_add_of_nonneg_right nonneg)
        | some slice =>
          obtain ⟨named, bounds⟩ := placed.slice slice sliced
          have extended := spaced_append before (le_of_eq (congrArg Prod.fst bounds).symm) slice.start_lt_end
          rw [congrArg Prod.snd bounds] at extended
          simpa [named] using extended
      · rw [if_neg own]
        cases sliced : verdict.slice with
        | none => simpa using before
        | some slice =>
          obtain ⟨named, -⟩ := placed.slice slice sliced
          have other : ¬slice.observationHash = hash := named ▸ own
          simpa [other] using before
  · rw [claimed.claims] at member
    rcases mem_append.1 member with old | new
    · exact spread.bounded other old slice targeted
    · rw [mem_singleton] at new
      subst new
      rw [claimed.target] at targeted
      rcases claimed.settled with ⟨-, sliced⟩ | ⟨inbound, placed⟩
      · rw [sliced] at targeted
        cases targeted
      · obtain ⟨named, bounds⟩ := placed.slice slice targeted
        refine ⟨_, inbound, placed.observed, named.symm, ?_⟩
        have stop : slice.endMsat = _ := congrArg Prod.snd bounds
        rw [stop]
        exact placed.room

theorem ClaimState.Spread.step {entry : ComponentAllocation × Nat}
    (spread : state.Spread observations starts) (nonneg : 0 ≤ entry.1.sinkAmountMsat)
    (run : claimAllocation component observations state entry = .ok next) : next.Spread observations starts := by
  rcases claimAllocation_cases run with ⟨-, -, rfl⟩ | ⟨source, out, -, -, -, -, ⟨-, rfl⟩ | ⟨sink, claim, verdict, claimed⟩⟩
  · exact spread
  · exact spread
  · exact spread.claim nonneg claimed

theorem ClaimState.Spread.allocations {allocations : List ComponentAllocation}
    (spread : state.Spread observations starts) (nonneg : ∀ a ∈ allocations, 0 ≤ a.sinkAmountMsat)
    (run : allocations.zipIdx.foldlM (claimAllocation component observations) state = .ok next) :
    next.Spread observations starts := by
  refine foldlM_invariant (ClaimState.Spread observations starts) spread ?_ run
  intro before entry after member held step
  exact held.step (nonneg entry.1 (fst_mem_of_mem_zipIdx member)) step

/-- The amount an allocation takes from the observation with a hash. -/
def takenFrom (component : Component) (observations : List (String × QuantityObservation)) (hash : String)
    (allocation : ComponentAllocation) : Int :=
  match component.leg allocation.sourceLegId with
  | none => 0
  | some source =>
    if source.role = .source ∧ source.observedBy ≠ "" ∧
        (lookup observations source.observedBy).map (·.quantityHash) = some hash then
      allocation.sourceAmountMsat
    else 0

def totalAllocated (component : Component) (observations : List (String × QuantityObservation)) (hash : String)
    (allocations : List ComponentAllocation) : Int :=
  (allocations.map (takenFrom component observations hash)).sum

theorem conversionShare_sum {shares : List (QuantityObservation × Int)} (hash : String)
    (run : conversionShare component observations allocation = .ok shares) :
    ((shares.filter fun share => share.1.quantityHash = hash).map Prod.snd).sum =
      takenFrom component observations hash allocation := by
  unfold conversionShare at run
  unfold takenFrom
  cases found : component.leg allocation.sourceLegId with
  | none =>
    rw [found] at run
    cases run
    rfl
  | some source =>
    rw [found] at run
    dsimp only at run ⊢
    split at run
    · rename_i absent
      cases run
      rw [if_neg]
      · rfl
      · rintro ⟨role, observed, -⟩
        exact absent.elim (fun other => other role) observed
    · rename_i present
      obtain ⟨role, observed⟩ := not_or.1 present
      obtain ⟨o, known, done⟩ := bind_ok.1 run
      cases done
      rw [observationOf_ok.1 known]
      by_cases own : o.quantityHash = hash
      · rw [if_pos ⟨not_not.1 role, observed, congrArg some own⟩]
        simp [own]
      · rw [if_neg fun both => own (Option.some.inj both.2.2)]
        simp [own]

theorem conversionShares_sum {allocations : List ComponentAllocation}
    {shares : List (List (QuantityObservation × Int))} (hash : String)
    (run : allocations.mapM (conversionShare component observations) = .ok shares) :
    ((shares.flatten.filter fun share => share.1.quantityHash = hash).map Prod.snd).sum =
      totalAllocated component observations hash allocations := by
  have paired := mapM_ok.1 run
  clear run
  unfold totalAllocated
  induction paired with
  | nil => rfl
  | cons head _ ih =>
    rw [flatten_cons, filter_append, map_append, sum_append, ih, map_cons, sum_cons, conversionShare_sum hash head]

theorem conversionCursors_start {allocations : List ComponentAllocation} {cursors : Cursors}
    (run : conversionCursors component observations allocations = .ok cursors) (hash : String) :
    (cursors.at hash = 0 ∧ totalAllocated component observations hash allocations = 0) ∨
      ∃ id o, lookup observations id = some o ∧ o.quantityHash = hash ∧
        cursors.at hash = o.principalMsat - totalAllocated component observations hash allocations := by
  unfold conversionCursors at run
  obtain ⟨shares, given, run⟩ := bind_ok.1 run
  have total := conversionShares_sum hash given
  by_cases grouped : hash ∈ cursors.map Prod.fst
  · right
    obtain ⟨value, found⟩ := Option.isSome_iff_exists.1 (lookup_isSome.2 grouped)
    obtain ⟨group, member, built⟩ := mapM_outputs run (mem_of_lookup found)
    obtain ⟨content, -⟩ := mem_groupBy.1 member
    dsimp only at built
    split at built
    · cases built
    · rename_i o first
      obtain ⟨-, -, done⟩ := bind_ok.1 built
      cases done
      have named : o.quantityHash = group.1 := by simpa using find?_some first
      obtain ⟨entry, listed, rfl⟩ := mem_map.1 (mem_of_find?_eq_some first)
      refine ⟨entry.1, entry.2, mem_items.1 listed, named, ?_⟩
      rw [Cursors.at, found, Option.getD_some, ← total, content]
  · left
    have unread : lookup cursors hash = none := lookup_eq_none.2 grouped
    refine ⟨by rw [Cursors.at, unread]; rfl, ?_⟩
    rw [← total]
    have none : shares.flatten.filter (fun share => share.1.quantityHash = hash) = [] := by
      refine filter_eq_nil_iff.2 fun share member own => grouped ?_
      have group := exists_group (fun share : QuantityObservation × Int => share.1.quantityHash) member
      obtain ⟨entry, inside, built⟩ := mapM_inputs run group
      dsimp only at built
      split at built
      · cases built
      · obtain ⟨-, -, done⟩ := bind_ok.1 built
        cases done
        exact mem_map.2 ⟨_, inside, of_decide_eq_true own⟩
    rw [none]
    rfl

theorem takenFrom_uniform (component : Component) (observations : List (String × QuantityObservation))
    (hash id : String) :
    (component.ObservedSource id ∧ ∀ a : ComponentAllocation, a.sourceLegId = id →
        takenFrom component observations hash a = a.sourceAmountMsat) ∨
      ∀ a : ComponentAllocation, a.sourceLegId = id → takenFrom component observations hash a = 0 := by
  unfold takenFrom
  cases found : component.leg id with
  | none =>
    right
    rintro a rfl
    rw [found]
  | some source =>
    by_cases draws : source.role = .source ∧ source.observedBy ≠ "" ∧
        (lookup observations source.observedBy).map (·.quantityHash) = some hash
    · left
      refine ⟨⟨source, found, draws.1, draws.2.1⟩, ?_⟩
      rintro a rfl
      rw [found]
      exact if_pos draws
    · right
      rintro a rfl
      rw [found]
      exact if_neg draws

theorem totalAllocated_congr (hash : String) {xs ys : List ComponentAllocation}
    (same : ∀ id, component.ObservedSource id → fromLeg id xs = fromLeg id ys) :
    totalAllocated component observations hash xs = totalAllocated component observations hash ys := by
  let keys := ((xs ++ ys).map (·.sourceLegId)).dedup
  have nodup : keys.Nodup := nodup_dedup _
  have keyed : ∀ a ∈ xs ++ ys, a.sourceLegId ∈ keys := fun a member =>
    mem_dedup.2 (mem_map_of_mem member)
  unfold totalAllocated
  rw [sum_fibers (·.sourceLegId) nodup _ fun a member => keyed a (mem_append_left ys member),
    sum_fibers (·.sourceLegId) nodup _ fun a member => keyed a (mem_append_right xs member)]
  refine congrArg sum (map_congr_left fun id _ => ?_)
  have inFiber : ∀ {zs : List ComponentAllocation} {a}, a ∈ zs.filter (fun a => a.sourceLegId = id) → a.sourceLegId = id :=
    fun member => of_decide_eq_true (mem_filter.1 member).2
  rcases takenFrom_uniform component observations hash id with ⟨observed, whole⟩ | nothing
  · rw [map_congr_left fun a member => whole a (inFiber member),
      map_congr_left (f := takenFrom component observations hash) fun a member => whole a (inFiber member)]
    exact same id observed
  · rw [map_congr_left fun a member => nothing a (inFiber member),
      map_congr_left (f := takenFrom component observations hash) fun a member => nothing a (inFiber member)]
    simp

theorem allocations_position {entries : List (ComponentAllocation × Nat)} (hash : String)
    (conversion : component.conservationMode = .conversion)
    (filled : ∀ entry ∈ entries, ¬(entry.1.sourceAmountMsat ≤ 0 ∧ entry.1.sinkAmountMsat ≤ 0))
    (run : entries.foldlM (claimAllocation component observations) state = .ok next) :
    next.sources.at hash = state.sources.at hash +
      (entries.map fun entry => takenFrom component observations hash entry.1).sum := by
  induction entries generalizing state with
  | nil =>
    cases run
    simp
  | cons entry rest ih =>
    rw [foldlM_cons] at run
    obtain ⟨middle, first, run⟩ := bind_ok.1 run
    rw [ih (fun other member => filled other (mem_cons_of_mem _ member)) run, map_cons, sum_cons, ← add_assoc]
    congr 1
    rcases claimAllocation_cases first with ⟨sent, received, -⟩ |
      ⟨source, out, found, role, observed, known, ⟨quantity, -⟩ | ⟨sink, claim, verdict, claimed⟩⟩
    · exact absurd ⟨sent, received⟩ (filled entry (.head _))
    · exact absurd conversion quantity
    · rw [claimed.position, takenFrom, found]
      dsimp only
      rw [known]
      by_cases own : out.quantityHash = hash <;> simp [own, role, observed]

theorem inferred_nonneg {inferred : List ComponentAllocation}
    (nonneg : ∀ a ∈ component.allocations, a.Nonneg)
    (run : inferComponentAllocations component = .ok inferred) : ∀ a ∈ inferred, a.Nonneg := by
  have positive : ∀ leg ∈ component.legs.filter fun leg => 0 < leg.amountMsat, 0 ≤ leg.amountMsat := fun leg member =>
    (of_decide_eq_true (mem_filter.1 member).2 : 0 < leg.amountMsat).le
  unfold inferComponentAllocations at run
  extract_lets legs sources sinks quantityMode at run
  have sent : ∀ leg ∈ sources, 0 ≤ leg.amountMsat := fun leg member => positive leg (mem_filter.1 member).1
  have received : ∀ leg ∈ sinks, 0 ≤ leg.amountMsat := fun leg member => positive leg (mem_filter.1 member).1
  clear_value sources sinks
  split at run
  · cases run
    intro a member
    exact nonneg a (mem_sortedBy.1 member)
  · split at run
    · cases run
    · split at run
      · rename_i source _
        cases run
        intro a member
        obtain ⟨entry, indexed, rfl⟩ := mem_map.1 member
        have into := received entry.1 (fst_mem_of_mem_zipIdx indexed)
        refine ⟨?_, into⟩
        dsimp only
        split
        · exact into
        · exact sent source (.head _)
      · split at run
        · cases run
          intro a member
          obtain ⟨entry, indexed, rfl⟩ := mem_map.1 member
          have from_ := sent entry.1 (fst_mem_of_mem_zipIdx indexed)
          exact ⟨from_, from_⟩
        · cases run
      · cases run

theorem compileComponentQuantityClaims_cases {compiled : ComponentClaimCompilation}
    (run : compileComponentQuantityClaims component observations = .ok compiled) :
    ∃ inferred allocations cursors done, inferComponentAllocations component = .ok inferred ∧
      flattenTransactionlessRoutes component component.finalizedRetainedLegIds inferred = .ok allocations ∧
      allocations.zipIdx.foldlM (claimAllocation component observations) { sources := cursors } = .ok done ∧
      compiled.claims = done.claims ∧
      ((component.conservationMode = .conversion ∧ conversionCursors component observations allocations = .ok cursors) ∨
        (component.conservationMode ≠ .conversion ∧ cursors = [] ∧
          ∀ entry ∈ items observations, claimedInFull component done.sources entry = .ok ())) := by
  unfold compileComponentQuantityClaims at run
  obtain ⟨-, -, run⟩ := bind_ok.1 run
  obtain ⟨-, -, run⟩ := bind_ok.1 run
  obtain ⟨-, -, run⟩ := bind_ok.1 run
  obtain ⟨inferred, guessed, run⟩ := bind_ok.1 run
  obtain ⟨allocations, flattened, run⟩ := bind_ok.1 run
  dsimp only at run
  by_cases conversion : component.conservationMode = .conversion
  · rw [if_pos conversion] at run
    obtain ⟨cursors, started, run⟩ := bind_ok.1 run
    obtain ⟨done, walked, run⟩ := bind_ok.1 run
    rw [if_neg fun other => other conversion] at run
    cases run
    exact ⟨inferred, allocations, cursors, done, mapError_ok.1 guessed, flattened, walked, rfl,
      .inl ⟨conversion, started⟩⟩
  · rw [if_neg conversion] at run
    obtain ⟨cursors, started, run⟩ := bind_ok.1 run
    cases started
    obtain ⟨done, walked, run⟩ := bind_ok.1 run
    rw [if_pos conversion] at run
    obtain ⟨_, complete, run⟩ := bind_ok.1 run
    cases run
    exact ⟨inferred, allocations, [], done, mapError_ok.1 guessed, flattened, walked, rfl,
      .inr ⟨conversion, rfl, forM_ok.1 complete⟩⟩

theorem ClaimState.Spread.start (cursors : Cursors) :
    ClaimState.Spread observations cursors.at { sources := cursors } where
  sources := fun _ => rfl
  targets := fun _ => le_rfl
  bounded := fun claim member => by cases member

/-- A returned compilation partitions its sources: all of the principal when the component conserves quantity, and
the high end that is allocated when it converts. Its target slices are apart and inside their principals, and each
claim conserves its amount. -/
theorem component_claims_partition (component : Component) (observations : List (String × QuantityObservation))
    (compiled : ComponentClaimCompilation)
    (nonneg : ∀ a ∈ component.allocations, 0 ≤ a.sourceAmountMsat ∧ 0 ≤ a.sinkAmountMsat)
    (one : ∀ first ∈ items observations, ∀ second ∈ items observations,
      first.2.quantityHash = second.2.quantityHash → first.2 = second.2)
    (run : compileComponentQuantityClaims component observations = .ok compiled) :
    ∃ inferred, inferComponentAllocations component = .ok inferred ∧
      (∀ entry ∈ items observations, entry.2.direction = .outbound →
        (∃ leg ∈ component.legTable, leg.observedBy = entry.1 ∧ leg.role = .source) →
        Tiles (if component.conservationMode = .conversion then
            entry.2.principalMsat - totalAllocated component observations entry.2.quantityHash inferred else 0)
          (sourceRanges compiled.claims entry.2.quantityHash) entry.2.principalMsat) ∧
      (∀ entry ∈ items observations,
        ((targetRanges compiled.claims entry.2.quantityHash).Pairwise fun r s => r.2 ≤ s.1) ∧
          ∀ r ∈ targetRanges compiled.claims entry.2.quantityHash, 0 ≤ r.1 ∧ r.1 < r.2 ∧ r.2 ≤ entry.2.principalMsat) ∧
      ∀ claim ∈ compiled.claims, ∀ slice, claim.target = some slice → slice.amountMsat = claim.source.amountMsat := by
  obtain ⟨inferred, allocations, cursors, done, guessed, flattened, walked, same, mode⟩ :=
    compileComponentQuantityClaims_cases run
  have authored := inferred_nonneg nonneg guessed
  obtain ⟨-, -, -, -, emitted, sent, -⟩ := flattened_balanced authored flattened
  have filled : ∀ a ∈ allocations, ¬(a.sourceAmountMsat ≤ 0 ∧ a.sinkAmountMsat ≤ 0) := by
    intro a member empty
    obtain ⟨-, ⟨-, unlike⟩ | ⟨conserving, -⟩⟩ := emitted a member
    · exact unlike.1 empty
    · exact absurd conserving.1 (not_lt.2 empty.1)
  have received : ∀ a ∈ allocations, 0 ≤ a.sinkAmountMsat := by
    intro a member
    obtain ⟨-, ⟨old, -⟩ | ⟨conserving, -⟩⟩ := emitted a member
    · exact (authored a old).2
    · exact conserving.2 ▸ conserving.1.le
  have spread := (@ClaimState.Spread.start observations cursors).allocations received walked
  refine ⟨inferred, guessed, fun entry member outbound anchored => ?_, fun entry member => ?_,
    fun claim _ slice targeted => claim.sound.target_amount slice targeted⟩
  · rw [same]
    have tiles := spread.sources entry.2.quantityHash
    rcases mode with ⟨conversion, started⟩ | ⟨quantity, rfl, complete⟩
    · rw [if_pos conversion, ← totalAllocated_congr entry.2.quantityHash sent]
      have position := allocations_position entry.2.quantityHash conversion
        (fun pair inside => filled pair.1 (fst_mem_of_mem_zipIdx inside)) walked
      have total : (allocations.zipIdx.map fun pair => takenFrom component observations entry.2.quantityHash pair.1).sum =
          totalAllocated component observations entry.2.quantityHash allocations := by
        unfold totalAllocated
        conv_rhs => rw [← zipIdx_map_fst 0 allocations, map_map]
        rfl
      rw [total] at position
      rw [position] at tiles
      rcases conversionCursors_start started entry.2.quantityHash with ⟨unset, nothing⟩ | ⟨id, o, known, named, start⟩
      · rw [unset, nothing, add_zero, tiles_empty_iff] at tiles
        rw [nothing, tiles, sub_zero]
        rfl
      · have equal : o = entry.2 := one (id, o) (mem_items.2 known) entry member named
        rw [start, equal, sub_add_cancel] at tiles
        exact tiles
    · rw [if_neg quantity]
      have claimed := raiseIf_ok.1 (complete entry member)
      have full : done.sources.at entry.2.quantityHash = entry.2.principalMsat := by
        by_contra short
        exact claimed ⟨outbound, anchored, short⟩
      rw [full] at tiles
      exact tiles
  · rw [same]
    have spaced := spread.targets entry.2.quantityHash
    refine ⟨spaced_pairwise spaced, fun r inside => ⟨(spaced_bounds spaced inside).1, (spaced_bounds spaced inside).2, ?_⟩⟩
    obtain ⟨slice, sliced, rfl⟩ := mem_map.1 inside
    obtain ⟨filed, hash⟩ := mem_filter.1 sliced
    obtain ⟨claim, given, targeted⟩ := mem_filterMap.1 filed
    obtain ⟨id, inbound, known, named, bound⟩ := spread.bounded claim given slice targeted
    have equal : inbound = entry.2 := by
      refine one (id, inbound) (mem_items.2 known) entry member (named.trans (of_decide_eq_true hash))
    exact equal ▸ bound

end

def meetingObservation (id : String) (direction : Direction) (amountMsat : Int) : QuantityObservation :=
  { transactionId := id, anchorTransactionId := id, quantityHash := id, evidenceDetailHash := id
    evidencePayloadJson := ""
    eventKey := ⟨"bitcoin", "main", "txid", "tx1", by decide, by decide, by decide, by decide⟩
    profileId := "profile", authoritativeChainObservation := true, observationAuthorityReason := "chain"
    feeAttribution := .exact, walletId := "w1", asset := "BTC", direction, amountMsat, feeMsat := 0
    amountIncludesFee := false, occurredAt := "2024-01-01T00:00:00Z" }

def meetingObservations : List (String × QuantityObservation) :=
  [("t1", meetingObservation "t1" .outbound 5), ("t2", meetingObservation "t2" .outbound 3),
    ("t3", meetingObservation "t3" .inbound 8)]

theorem meeting_route_partitioned :
    ∃ compiled, compileComponentQuantityClaims meetingRoute meetingObservations = .ok compiled ∧
      Tiles 0 (sourceRanges compiled.claims "t1") 5 ∧ Tiles 0 (sourceRanges compiled.claims "t2") 3 ∧
      ∀ r ∈ targetRanges compiled.claims "t3", r.2 ≤ 8 := by
  have returns : (compileComponentQuantityClaims meetingRoute meetingObservations).isOk := by decide +kernel
  obtain ⟨compiled, run⟩ := exists_of_isOk returns
  obtain ⟨inferred, -, tiles, spaced, -⟩ :=
    component_claims_partition meetingRoute meetingObservations compiled (by decide) (by decide) run
  refine ⟨compiled, run, ?_, ?_, ?_⟩
  · exact tiles ("t1", meetingObservation "t1" .outbound 5) (by decide) rfl (by decide)
  · exact tiles ("t2", meetingObservation "t2" .outbound 3) (by decide) rfl (by decide)
  · exact fun r member => ((spaced ("t3", meetingObservation "t3" .inbound 8) (by decide)).2 r member).2.2

end Kassiber.Custody

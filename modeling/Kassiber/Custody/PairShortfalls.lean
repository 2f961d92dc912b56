import Kassiber.Custody.PairClaims
import Kassiber.Custody.Conservation

/-!
The shortfall check of recorded pairs. It runs on the last candidate pair of a source, so a source whose last
candidate is skipped is not checked.
-/

namespace Kassiber.Custody.PairShortfalls
open Lib.Outcome Lib.Dict Lib.Sorting Lib.Tiling PairClaims List
open Option (some.inj)

section
variable (inputs : PairInputs) (instant : String → Option Int)

structure Reaches (before after : List (CandidatePair × Nat)) (state : PairState) (entry : CandidatePair × Nat)
    (verdict : Verdict) : Prop where
  order : orderedPairs inputs = before ++ entry :: after
  run : interpretPairs inputs instant before = .ok state
  judged : judgePair inputs instant state entry = verdict

def Emits (entry : CandidatePair × Nat) (route : PairRoute) : Prop :=
  ∃ before after state, Reaches inputs instant before after state entry (.move route)

def uncovered (claims : List QuantityClaim) (source : QuantityObservation) : Int :=
  source.principalMsat - ((sourceRanges claims source.quantityHash).map fun range => range.2 - range.1).sum

/-- No move of the observation comes from an exact native pair or may leave a residual. -/
def Plain (route : PairRoute) : Prop :=
  ∀ other route', Emits inputs instant other route' → route'.source.quantityHash = route.source.quantityHash →
    isExactNativePair route'.source route'.target = false ∧ other.1.allowUnclaimedResidual = false

/-- A source with a move, none of whose moves may leave a residual, is covered up to a fee or blocked. -/
def NoSilentShortfall (result : PairCompilation) : Prop :=
  ∀ entry route, Emits inputs instant entry route → Plain inputs instant route →
    uncovered result.claims route.source ≤ feeToleranceMsat route.source ∨
      entry.1.outId ∈ result.blockedTransactionIds

/-- The pair blocks the id, or the check runs on it for the observation. -/
def Decides (id hash : String) (pair : CandidatePair × Nat) : Verdict → Prop
  | .skip => False
  | .block ids _ => id ∈ ids
  | .suspend route => route.source.quantityHash = hash
  | .move route => route.source.quantityHash = hash ∧ sourceLastOrdinal inputs pair.1.outId = some pair.2

/-- Some candidate pair blocks the id, or is checked for the observation. -/
def Checked (id hash : String) : Prop :=
  ∃ before after state pair verdict, Reaches inputs instant before after state pair verdict ∧
    Decides inputs id hash pair verdict

/-- Every source that moves anything is checked, unless one of its moves is exempt or its residual is claimed anyway. -/
def ShortfallsChecked : Prop :=
  ∀ entry route, Emits inputs instant entry route → Plain inputs instant route →
    route.source.feeAttribution ≠ .implicitWalletDelta → Checked inputs instant entry.1.outId route.source.quantityHash

def Identified : Prop :=
  ∀ entry ∈ inputs.observations, ∀ other ∈ inputs.observations,
    entry.2.quantityHash = other.2.quantityHash → entry.2 = other.2

end

section
variable {inputs : PairInputs} {instant : String → Option Int} {state next : PairState} {entry : CandidatePair × Nat}

structure Grows (state next : PairState) : Prop where
  sources : ∀ hash, state.sources.at hash ≤ next.sources.at hash
  blocked : ∀ id ∈ state.blocked, id ∈ next.blocked
  implicit : ∀ other ∈ state.implicitSources, other ∈ next.implicitSources

theorem Grows.refl (state : PairState) : Grows state state := ⟨fun _ => le_rfl, fun _ held => held, fun _ held => held⟩

theorem Grows.trans {middle : PairState} (first : Grows state middle) (second : Grows middle next) : Grows state next :=
  ⟨fun hash => (first.sources hash).trans (second.sources hash), fun id held => second.blocked id (first.blocked id held),
    fun other held => second.implicit other (first.implicit other held)⟩

theorem at_move_ge {cursors : Cursors} {key : String} {position : Int} (ahead : cursors.at key ≤ position) (hash : String) :
    cursors.at hash ≤ (cursors.move key position).at hash := by
  rw [Cursors.at_move]
  split
  · rename_i same
    exact same ▸ ahead
  · exact le_rfl

variable {route : PairRoute}

theorem moving_grows (fits : route.Fits inputs state) (claim : QuantityClaim) :
    Grows state (state.moving route claim) := by
  have positive := fits.positive
  refine ⟨at_move_ge ?_, fun _ held => held, fun other held => ?_⟩
  · rw [← fits.sourceStart]
    omega
  · unfold PairState.moving
    dsimp only
    split
    · exact mem_append_left _ held
    · exact held

/-- What a verdict has done to the state. -/
def Done (next : PairState) : Verdict → Prop
  | .skip => True
  | .block ids _ => ∀ id ∈ ids, id ∈ next.blocked
  | .suspend route => route.source.principalMsat ≤ next.sources.at route.source.quantityHash
  | .move route =>
    (route.source.feeAttribution = .implicitWalletDelta →
      (route.source.quantityHash, route.source) ∈ next.implicitSources) ∧
    (route.source.feeAttribution ≠ .implicitWalletDelta →
      route.source.principalMsat - next.sources.at route.source.quantityHash = route.unclaimedAfterPair)

theorem interpretPair_grows (laid : state.Laid inputs) (run : interpretPair inputs instant state entry = .ok next) :
    Grows state next ∧ Done next (judgePair inputs instant state entry) := by
  unfold interpretPair at run
  cases verdict : judgePair inputs instant state entry with
  | skip =>
    rw [verdict] at run
    cases run
    exact ⟨Grows.refl state, trivial⟩
  | block ids quarantines =>
    rw [verdict] at run
    cases run
    exact ⟨⟨fun _ => le_rfl, fun _ held => mem_append_left _ held, fun _ held => held⟩,
      fun id own => mem_append_right _ own⟩
  | suspend route =>
    rw [verdict] at run
    have fits := judgePair_fits (.inl verdict)
    have start : 0 ≤ route.sourceStart := fits.sourceStart ▸ (laid.laid.start_nonneg _).1
    have missing := (tolerance_positive route.source).trans (judgePair_beyond verdict).2.2.2
    obtain ⟨claim, -, -, done⟩ := suspendRest_ok fits start missing
    cases done.symm.trans run
    have whole : state.sources.at route.source.quantityHash ≤ route.source.principalMsat := by
      have positive := fits.positive
      have room := route.within.1
      have fee := route.amounts.2.2.1
      rw [← fits.sourceStart]
      omega
    refine ⟨⟨at_move_ge whole, fun _ held => mem_append_left _ held, fun _ held => held⟩, ?_⟩
    show route.source.principalMsat ≤ (state.sources.move _ _).at _
    rw [Cursors.at_move, if_pos rfl]
  | move route =>
    rw [verdict] at run
    have fits := judgePair_fits (.inr verdict)
    have start : 0 ≤ route.sourceStart ∧ 0 ≤ route.targetStart :=
      ⟨fits.sourceStart ▸ (laid.laid.start_nonneg _).1, fits.targetStart ▸ (laid.laid.start_nonneg _).2⟩
    have positive := fits.positive
    have fee := route.amounts.2.2.1
    obtain ⟨claim, -, -, -, -, done⟩ := claimMove_ok entry.1 entry.2 fits start
    obtain ⟨moved, first, second⟩ := bind_ok.1 run
    cases done.symm.trans first
    have grows := moving_grows fits claim
    have cursor := state.moving_source route claim
    have noted : route.source.feeAttribution = .implicitWalletDelta →
        (route.source.quantityHash, route.source) ∈ (state.moving route claim).implicitSources := by
      intro delta
      unfold PairState.moving
      rw [if_pos delta]
      exact mem_append_right _ (.head _)
    rcases claimFee_ok entry.1 entry.2 fits.source (by omega) cursor with ⟨free, kept⟩ | ⟨charge, -, -, charged⟩
    · cases kept.symm.trans second
      refine ⟨grows, noted, fun known => ?_⟩
      have zero := free.resolve_right known
      rw [cursor, PairRoute.unclaimedAfterPair, PairRoute.availableSource, zero]
      omega
    · cases charged.symm.trans second
      refine ⟨grows.trans ⟨at_move_ge (by omega), fun _ held => held, fun _ held => held⟩, noted, fun _ => ?_⟩
      dsimp only
      rw [Cursors.at_move, if_pos rfl, cursor, PairRoute.unclaimedAfterPair, PairRoute.availableSource]
      omega

theorem foldlM_grows {entries : List (CandidatePair × Nat)} (laid : state.Laid inputs)
    (run : entries.foldlM (interpretPair inputs instant) state = .ok next) : next.Laid inputs ∧ Grows state next := by
  refine foldlM_invariant (fun (s : PairState) => s.Laid inputs ∧ Grows state s) ⟨laid, Grows.refl state⟩ ?_ run
  rintro s entry t - ⟨laid, grows⟩ taken
  obtain ⟨after, taken', laid'⟩ := interpretPair_laid instant laid entry
  cases taken'.symm.trans taken
  exact ⟨laid', grows.trans (interpretPair_grows laid taken).1⟩

theorem start_laid (inputs : PairInputs) : PairState.Laid inputs {} := by
  obtain ⟨state, run, laid⟩ := interpretPairs_laid inputs (fun _ => none) []
  cases run
  exact laid

theorem Reaches.done {before after : List (CandidatePair × Nat)} {verdict : Verdict} {final : PairState}
    (reached : Reaches inputs instant before after state entry verdict)
    (run : interpretPairs inputs instant (orderedPairs inputs) = .ok final) :
    ∃ next, Done next verdict ∧ Grows next final := by
  unfold interpretPairs at run
  rw [reached.order, foldlM_append] at run
  obtain ⟨middle, first, rest⟩ := bind_ok.1 run
  cases reached.run.symm.trans first
  rw [foldlM_cons] at rest
  obtain ⟨next, taken, later⟩ := bind_ok.1 rest
  have laid := (foldlM_grows (start_laid inputs) first).1
  obtain ⟨-, done⟩ := interpretPair_grows laid taken
  rw [reached.judged] at done
  obtain ⟨after', taken', laid'⟩ := interpretPair_laid instant laid entry
  cases taken'.symm.trans taken
  exact ⟨_, done, (foldlM_grows laid' later).2⟩

/-- An id is blocked by a pair that says so, or whose source is suspended. -/
theorem blocked_by {entries rest : List (CandidatePair × Nat)} (order : orderedPairs inputs = entries ++ rest)
    (run : interpretPairs inputs instant entries = .ok state) {id : String} (listed : id ∈ state.blocked) :
    ∃ before after middle pair verdict, Reaches inputs instant before after middle pair verdict ∧
      ((∃ ids quarantines, verdict = .block ids quarantines ∧ id ∈ ids) ∨
        ∃ route, verdict = .suspend route ∧ (id = pair.1.outId ∨ id = pair.1.inId)) := by
  induction entries using reverseRecOn generalizing rest state with
  | nil =>
    cases run
    cases listed
  | append_singleton entries entry ih =>
    unfold interpretPairs at run
    rw [foldlM_append] at run
    obtain ⟨middle, first, last⟩ := bind_ok.1 run
    rw [append_assoc] at order
    have reached : Reaches inputs instant entries rest middle entry _ := ⟨order, first, rfl⟩
    have step : interpretPair inputs instant middle entry = .ok state := by
      rw [foldlM_cons] at last
      obtain ⟨next, taken, same⟩ := bind_ok.1 last
      cases same
      exact taken
    by_cases old : id ∈ middle.blocked
    · exact ih order first old
    have laid := (foldlM_grows (start_laid inputs) first).1
    unfold interpretPair at step
    cases verdict : judgePair inputs instant middle entry with
    | skip =>
      rw [verdict] at step
      cases step
      exact absurd listed old
    | block ids quarantines =>
      rw [verdict] at step reached
      cases step
      exact ⟨_, _, _, _, _, reached, .inl ⟨ids, quarantines, rfl, (mem_append.1 listed).resolve_left old⟩⟩
    | suspend route =>
      rw [verdict] at step reached
      have fits := judgePair_fits (.inl verdict)
      have start : 0 ≤ route.sourceStart := fits.sourceStart ▸ (laid.laid.start_nonneg _).1
      have missing := (tolerance_positive route.source).trans (judgePair_beyond verdict).2.2.2
      obtain ⟨claim, -, -, done⟩ := suspendRest_ok fits start missing
      cases done.symm.trans step
      have named := (mem_append.1 listed).resolve_left old
      rw [mem_cons, mem_singleton] at named
      exact ⟨_, _, _, _, _, reached, .inr ⟨route, rfl, named⟩⟩
    | move route =>
      rw [verdict] at step
      have fits := judgePair_fits (.inr verdict)
      have start : 0 ≤ route.sourceStart ∧ 0 ≤ route.targetStart :=
        ⟨fits.sourceStart ▸ (laid.laid.start_nonneg _).1, fits.targetStart ▸ (laid.laid.start_nonneg _).2⟩
      obtain ⟨claim, -, -, -, -, done⟩ := claimMove_ok entry.1 entry.2 fits start
      obtain ⟨moved, first, second⟩ := bind_ok.1 step
      cases done.symm.trans first
      unfold claimFee at second
      split at second
      · obtain ⟨fee, -, second⟩ := bind_ok.1 second
        obtain ⟨charge, -, same⟩ := bind_ok.1 second
        cases same
        exact absurd listed old
      · cases second
        exact absurd listed old

theorem Emits.member (emits : Emits inputs instant entry route) : entry ∈ orderedPairs inputs := by
  obtain ⟨before, after, state, reached⟩ := emits
  rw [reached.order]
  exact mem_append_right _ (.head _)

theorem Emits.source (emits : Emits inputs instant entry route) :
    lookup inputs.observations entry.1.outId = some route.source := by
  obtain ⟨before, after, state, reached⟩ := emits
  obtain ⟨source, target, accepted, rfl, -⟩ := judgePair_route (.inr reached.judged)
  exact (pairEvidence_accepted accepted).1

end

theorem uncovered_eq {inputs : PairInputs} {claims : List QuantityClaim} {cursors targets : Cursors}
    (laid : Laid inputs claims cursors targets) (source : QuantityObservation) :
    uncovered claims source = source.principalMsat - cursors.at source.quantityHash := by
  unfold uncovered
  rw [tiles_sum (laid.sourceTiles source.quantityHash), sub_zero]

theorem Residuals.settled {inputs : PairInputs} {state : PairState} {claims : List QuantityClaim} {cursors : Cursors}
    (identified : Identified inputs) (laid : state.Laid inputs)
    (residuals : Residuals inputs state (sortedBy Prod.fst (items state.implicitSources)) claims cursors)
    {source : QuantityObservation} (observed : Observed inputs .outbound source) :
    state.sources.at source.quantityHash ≤ cursors.at source.quantityHash ∧
      ((source.quantityHash, source) ∈ state.implicitSources → source.principalMsat ≤ cursors.at source.quantityHash) := by
  cases found : lookup state.implicitSources source.quantityHash with
  | none =>
    have absent := lookup_eq_none.1 found
    refine ⟨(residuals.others _ fun listed => absent ?_).ge, fun member => absurd (mem_map_of_mem member) absent⟩
    obtain ⟨entry, member, same⟩ := mem_map.1 listed
    rw [← same]
    exact mem_map_of_mem (mem_of_lookup (mem_items.1 (mem_sortedBy.1 member)))
  | some o =>
    have listed := mem_of_lookup found
    obtain ⟨⟨⟨id, known⟩, -⟩, own⟩ := laid.implicit _ listed
    obtain ⟨⟨id', known'⟩, -⟩ := observed
    obtain rfl : o = source := identified _ (mem_of_lookup known) _ (mem_of_lookup known') own
    have full := residuals.filled _ (mem_sortedBy.2 (mem_items.2 found))
    dsimp only at full
    rw [full]
    exact ⟨le_max_left _ _, fun _ => le_max_right _ _⟩

/-- Where every source is checked, a large shortfall is always held; a source that is not checked is not blocked. -/
theorem shortfall_held_when_checked {inputs : PairInputs} {instant : String → Option Int} (identified : Identified inputs) :
    ∃ result, pairClaims inputs instant = .ok result ∧
      (ShortfallsChecked inputs instant → NoSilentShortfall inputs instant result) ∧
      ∀ entry route, Emits inputs instant entry route →
        ¬Checked inputs instant entry.1.outId route.source.quantityHash → entry.1.outId ∉ result.blockedTransactionIds := by
  obtain ⟨state, claims, cursors, run, laid, residuals, compiled⟩ := pairClaims_laid inputs instant
  refine ⟨_, compiled, fun checked entry route emits plain => ?_, fun entry route emits unchecked blocked => ?_⟩
  · obtain ⟨before, after, middle, own⟩ := emits
    have fits := judgePair_fits (.inr own.judged)
    obtain ⟨ahead, implicit⟩ := Residuals.settled identified laid residuals fits.source
    have tolerance := tolerance_positive route.source
    rw [uncovered_eq residuals.laid]
    by_cases delta : route.source.feeAttribution = .implicitWalletDelta
    · obtain ⟨next, done, grows⟩ := own.done run
      have whole := implicit (grows.implicit _ (done.1 delta))
      omega
    obtain ⟨before', after', middle', pair, verdict, reached, decides⟩ := checked entry route ⟨before, after, middle, own⟩ plain delta
    obtain ⟨next, done, grows⟩ := reached.done run
    -- the pair that decides takes from the same observation
    have sameSource : ∀ {route' : PairRoute}, Observed inputs .outbound route'.source →
        route'.source.quantityHash = route.source.quantityHash → route'.source = route.source := by
      intro route' observed same
      obtain ⟨⟨id, known⟩, -⟩ := observed
      obtain ⟨⟨id', known'⟩, -⟩ := fits.source
      exact identified _ (mem_of_lookup known) _ (mem_of_lookup known') same
    cases verdict with
    | skip => exact decides.elim
    | block ids quarantines => exact .inr (mem_sortedSet.2 (grows.blocked _ (done _ decides)))
    | suspend route' =>
      have same := sameSource (judgePair_fits (.inl reached.judged)).source decides
      have whole := grows.sources route'.source.quantityHash
      have full : route'.source.principalMsat ≤ next.sources.at route'.source.quantityHash := done
      rw [same] at whole full
      omega
    | move route' =>
      obtain ⟨hash, position⟩ := decides
      have same := sameSource (judgePair_fits (.inr reached.judged)).source hash
      obtain ⟨native, residual⟩ := plain pair route' ⟨before', after', middle', reached⟩ hash
      have covered : route'.unclaimedAfterPair ≤ feeToleranceMsat route'.source :=
        not_lt.1 fun more => judgePair_within reached.judged ⟨native, residual, position, more⟩
      have behind := grows.sources route'.source.quantityHash
      have left := done.2 (same ▸ delta)
      rw [same] at covered behind left
      omega
  · obtain ⟨before, after, middle, pair, verdict, reached, block | suspend⟩ :=
      blocked_by (append_nil _).symm run (mem_sortedSet.1 blocked)
    · obtain ⟨ids, quarantines, rfl, named⟩ := block
      exact unchecked ⟨before, after, middle, pair, _, reached, named⟩
    · obtain ⟨route', rfl, named⟩ := suspend
      obtain ⟨source, target, accepted, same, -⟩ := judgePair_route (.inl reached.judged)
      obtain ⟨foundSource, foundTarget, -, inbound⟩ := pairEvidence_accepted accepted
      have found := emits.source
      rcases named with out | aim
      · rw [out, foundSource] at found
        refine unchecked ⟨before, after, middle, pair, _, reached, ?_⟩
        rw [same]
        exact congrArg QuantityObservation.quantityHash (some.inj found)
      · rw [aim, foundTarget] at found
        obtain ⟨before', after', middle', own⟩ := emits
        have outbound := (judgePair_fits (.inr own.judged)).source.2
        rw [← some.inj found, inbound] at outbound
        cases outbound

/-- Two wallets of a channel, of which the second received less than the first sent. -/
def shortSent : QuantityObservation :=
  { sampleSent with amountMsat := 10000000, feeMsat := 0, authoritativeChainObservation := false }

def shortReceived : QuantityObservation :=
  { sampleReceived with amountMsat := 5000000, authoritativeChainObservation := false }

theorem short_valid : ∀ entry ∈ [("sent", shortSent), ("received", shortReceived)], entry.2.Valid := by
  simp [QuantityObservation.Valid, QuantityObservation.validate, bind_unit_ok, raiseIf_ok, shortSent, shortReceived,
    sampleReceived, sampleSent, sampleHash_hex]

def channelPair (inId : String) : CandidatePair :=
  { outgoing := { id := "sent" }, incoming := { id := inId }, source := "channel_lifecycle" }

/-- The observed pair, and behind it another whose destination was never observed. -/
def shortInputs (pairs : List CandidatePair) : PairInputs :=
  { pairs, observations := [("sent", shortSent), ("received", shortReceived)], valid := short_valid }

def untimed (_ : String) : Option Int := none

def Verdict.moves : Verdict → Bool
  | .move _ => true
  | _ => false

theorem moves_iff {verdict : Verdict} : Verdict.moves verdict = true ↔ ∃ route, verdict = .move route := by
  cases verdict <;> simp [Verdict.moves]

theorem short_identified (pairs : List CandidatePair) : Identified (shortInputs pairs) := by
  have apart : shortSent.quantityHash ≠ shortReceived.quantityHash := by decide +kernel
  intro entry member other member' same
  simp only [shortInputs, mem_cons, not_mem_nil, or_false] at member member'
  rcases member with rfl | rfl <;> rcases member' with rfl | rfl
  · rfl
  · exact absurd same apart
  · exact absurd same.symm apart
  · rfl

/-- A source with half of its principal unclaimed is neither covered nor blocked. -/
theorem skipped_last_pair_hides_shortfall :
    ¬∀ (inputs : PairInputs) (instant : String → Option Int) (result : PairCompilation), Identified inputs →
      pairClaims inputs instant = .ok result → NoSilentShortfall inputs instant result := by
  intro every
  have order : orderedPairs (shortInputs [channelPair "received", channelPair "unseen"]) =
      [(channelPair "received", 0), (channelPair "unseen", 1)] := by decide +kernel
  have outcome : (pairClaims (shortInputs [channelPair "received", channelPair "unseen"]) untimed).toOption.map
      (fun result => (uncovered result.claims shortSent, result.blockedTransactionIds)) = some (5000000, []) := by
    decide +kernel
  have moves : Verdict.moves (judgePair (shortInputs [channelPair "received", channelPair "unseen"]) untimed {}
      (channelPair "received", 0)) = true := by decide +kernel
  obtain ⟨route, judged⟩ := moves_iff.1 moves
  have emits : Emits (shortInputs [channelPair "received", channelPair "unseen"]) untimed (channelPair "received", 0) route :=
    ⟨[], _, {}, order, rfl, judged⟩
  obtain ⟨state, claims, cursors, -, -, -, run⟩ :=
    pairClaims_laid (shortInputs [channelPair "received", channelPair "unseen"]) untimed
  have own : route.source = shortSent := by
    have found := emits.source
    exact (some.inj found).symm
  rw [run] at outcome
  obtain ⟨left, free⟩ := Prod.mk.inj (some.inj outcome)
  have held := every _ untimed _ (short_identified _) run (channelPair "received", 0) route emits
    fun other route' emits' _ => by
      have found := emits'.source
      have plain : other.1 = channelPair "received" ∨ other.1 = channelPair "unseen" := by
        have member := emits'.member
        rw [order] at member
        rcases mem_cons.1 member with rfl | later
        · exact .inl rfl
        · exact .inr (congrArg Prod.fst (mem_singleton.1 later))
      have same : route'.source = shortSent := by
        rcases plain with first | second
        · rw [first] at found
          exact (some.inj found).symm
        · rw [second] at found
          exact (some.inj found).symm
      refine ⟨?_, ?_⟩
      · rw [same]
        exact decide_eq_false fun exact' => absurd exact'.1 (by decide)
      · rcases plain with first | second
        · rw [first]
          rfl
        · rw [second]
          rfl
  rw [own, left, free] at held
  exact absurd held (by decide +kernel)

/-- A channel that closes whole: what the second wallet did not receive was asked for as a fee. -/
def wholePair : CandidatePair := { channelPair "received" with outAmount := some 10000000 }

theorem shortfall_held_of_whole_pair :
    (∃ route, Emits (shortInputs [wholePair]) untimed (wholePair, 0) route) ∧
      ∃ result, pairClaims (shortInputs [wholePair]) untimed = .ok result ∧
        NoSilentShortfall (shortInputs [wholePair]) untimed result := by
  have order : orderedPairs (shortInputs [wholePair]) = [(wholePair, 0)] := by decide +kernel
  have moves : Verdict.moves (judgePair (shortInputs [wholePair]) untimed {} (wholePair, 0)) = true := by decide +kernel
  obtain ⟨route, judged⟩ := moves_iff.1 moves
  have reached : Reaches (shortInputs [wholePair]) untimed [] [] {} (wholePair, 0) (.move route) := ⟨order, rfl, judged⟩
  obtain ⟨result, run, held, -⟩ := @shortfall_held_when_checked _ untimed (short_identified [wholePair])
  refine ⟨⟨route, [], [], {}, reached⟩, result, run, held fun entry route' emits _ _ => ?_⟩
  have only : entry = (wholePair, 0) := mem_singleton.1 (order ▸ emits.member)
  have found := emits.source
  have own : Emits (shortInputs [wholePair]) untimed (wholePair, 0) route := ⟨[], [], {}, reached⟩
  rw [only, own.source] at found
  rw [only]
  exact ⟨[], [], {}, _, _, reached, congrArg _ (some.inj found), by decide +kernel⟩

end Kassiber.Custody.PairShortfalls

import Kassiber.Custody.Conservation
import Kassiber.Custody.NativeSlots

/-!
Every leg advances the cursor of its source and the cursor of its target, so the claims of a source and the
claims on a target follow one another from zero.
-/

namespace Kassiber.Custody
open Lib.Outcome Lib.Dict Lib.Sorting Lib.Text Lib.Tiling
open Option (some.inj)
open List hiding lookup

section
variable (canonical : CanonicalQuantityInput) (targetByEvidence : List (String × String))

def retainedId (leg : NativeLeg) : String := "engine-native:" ++ leg.evidenceId ++ ":retained"

def sentFrom (legs : List NativeLeg) (hash : String) : Int :=
  receivedBy (legs.filter fun leg => leg.source.quantityHash = hash)

def broughtTo (legs : List NativeLeg) (hash : String) : Int :=
  receivedBy (legs.filter fun leg => lookup targetByEvidence leg.evidenceId = some hash)

def internalRanges (claims : List QuantityClaim) (hash : String) : List (Int × Int) :=
  (claims.filter fun c => c.state = .internalVerified ∧ c.source.observationHash = hash).map (·.source.range)

def ClaimOf (leg : NativeLeg) (c : QuantityClaim) : Prop :=
  c.state = .internalVerified ∧ c.claimId = retainedId leg ∧ c.source.observationHash = leg.source.quantityHash ∧
    ∃ slice, c.target = some slice ∧ lookup targetByEvidence leg.evidenceId = some slice.observationHash

/-- A claim that keeps an unallocated wallet delta of its source in suspense. -/
def Residual (c : QuantityClaim) : Prop :=
  c.state = .custodySuspense ∧ c.target = none ∧
    ∃ source, canonical.byHash c.source.observationHash = some source ∧ source.feeAttribution = .implicitWalletDelta

/-- The claims of the legs so far: both families of cursors stand at what the legs have moved. -/
structure Emits (legs : List NativeLeg) (s : NativeClaimState) : Prop where
  sources : ∀ hash, (lookup s.sources hash).getD 0 = sentFrom legs hash
  targets : ∀ hash, (lookup s.targets hash).getD 0 = broughtTo targetByEvidence legs hash
  sourceTiles : ∀ hash, Tiles 0 (internalRanges s.claims hash) (sentFrom legs hash)
  targetTiles : ∀ hash, Tiles 0 (targetRanges s.claims hash) (broughtTo targetByEvidence legs hash)
  claimed : ∀ leg ∈ legs, ∃ c ∈ s.claims, ClaimOf targetByEvidence leg c
  owned : ∀ c ∈ s.claims, (∃ leg ∈ legs, ClaimOf targetByEvidence leg c) ∨ Residual canonical c

variable {canonical targetByEvidence}

theorem receivedBy_append (legs more : List NativeLeg) : receivedBy (legs ++ more) = receivedBy legs + receivedBy more := by
  unfold receivedBy
  rw [map_append, sum_append]

theorem emits_nil : Emits canonical targetByEvidence [] {} := by
  refine ⟨fun _ => rfl, fun _ => rfl, fun _ => rfl, fun _ => rfl, by simp, by simp⟩

variable {legs : List NativeLeg} {s t : NativeClaimState}

theorem retainedClaim_emits {leg : NativeLeg} (held : Emits canonical targetByEvidence legs s)
    (step : retainedClaim targetByEvidence canonical leg.source.quantityHash s leg = .ok t) :
    Emits canonical targetByEvidence (legs ++ [leg]) t := by
  unfold retainedClaim at step
  split at step
  · cases step
  rename_i targetHash assigned
  obtain ⟨_, -, step⟩ := bind_ok.1 step
  dsimp only at step
  obtain ⟨source, sourceMade, step⟩ := bind_ok.1 step
  obtain ⟨target, targetMade, step⟩ := bind_ok.1 step
  obtain ⟨claim, claimMade, step⟩ := bind_ok.1 step
  cases step
  obtain ⟨sourceHash, sourceRange⟩ := QuantitySlice.make_ok.1 sourceMade
  obtain ⟨targetHash', targetRange⟩ := QuantitySlice.make_ok.1 targetMade
  have fields := QuantityClaim.make_ok.1 claimMade
  have state : claim.state = .internalVerified := by rw [fields]
  have claimSource : claim.source = source := by rw [fields]
  have claimTarget : claim.target = some target := by rw [fields]
  have own : ClaimOf targetByEvidence leg claim := by
    refine ⟨state, by rw [fields]; rfl, by rw [claimSource, sourceHash], target, claimTarget, ?_⟩
    rw [assigned, targetHash']
  have sentNow : ∀ hash, sentFrom (legs ++ [leg]) hash =
      sentFrom legs hash + if leg.source.quantityHash = hash then leg.receivedMsat else 0 := by
    intro hash
    unfold sentFrom
    rw [filter_append, receivedBy_append]
    by_cases same : leg.source.quantityHash = hash <;> simp [receivedBy, same]
  have broughtNow : ∀ hash, broughtTo targetByEvidence (legs ++ [leg]) hash =
      broughtTo targetByEvidence legs hash + if targetHash = hash then leg.receivedMsat else 0 := by
    intro hash
    unfold broughtTo
    rw [filter_append, receivedBy_append]
    by_cases same : targetHash = hash <;> simp [receivedBy, same, assigned]
  rw [held.sources] at sourceRange
  rw [held.targets] at targetRange
  refine ⟨?_, ?_, ?_, ?_, ?_, ?_⟩
  · intro hash
    rw [lookup_assigned, held.sources, held.sources, sentNow]
    by_cases same : leg.source.quantityHash = hash <;> simp [same]
  · intro hash
    rw [lookup_assigned, held.targets, held.targets, broughtNow]
    by_cases same : targetHash = hash <;> simp [same]
  · intro hash
    have before := held.sourceTiles hash
    unfold internalRanges at before ⊢
    rw [filter_append, map_append, sentNow]
    by_cases same : leg.source.quantityHash = hash
    · subst same
      refine tiles_append before ?_
      have bounds := source.start_lt_end
      simp only [filter_cons, filter_nil, state, claimSource, sourceHash, and_self, decide_true, if_true,
        map_cons, map_nil, sourceRange]
      refine ⟨rfl, ?_, rfl⟩
      unfold QuantitySlice.range at sourceRange
      obtain ⟨low, high⟩ := Prod.mk.inj sourceRange
      dsimp only
      omega
    · have skipped : ([claim].filter fun c => c.state = .internalVerified ∧ c.source.observationHash = hash) = [] := by
        simp [claimSource, sourceHash, same]
      rw [skipped, if_neg same, add_zero, map_nil, append_nil]
      exact before
  · intro hash
    have before := held.targetTiles hash
    unfold targetRanges at before ⊢
    rw [filterMap_append, filter_append, map_append, broughtNow]
    by_cases same : targetHash = hash
    · subst same
      refine tiles_append before ?_
      have bounds := target.start_lt_end
      simp only [filterMap_cons, filterMap_nil, claimTarget, filter_cons, filter_nil, targetHash',
        decide_true, if_true, map_cons, map_nil, targetRange]
      refine ⟨rfl, ?_, rfl⟩
      unfold QuantitySlice.range at targetRange
      obtain ⟨low, high⟩ := Prod.mk.inj targetRange
      dsimp only
      omega
    · have skipped : (([claim].filterMap (·.target)).filter fun slice => slice.observationHash = hash) = [] := by
        simp [claimTarget, targetHash', same]
      rw [skipped, if_neg same, add_zero, map_nil, append_nil]
      exact before
  · intro other member
    rcases mem_append.1 member with old | last
    · obtain ⟨c, listed, owns⟩ := held.claimed other old
      exact ⟨c, mem_append_left _ listed, owns⟩
    · rw [mem_singleton.1 last]
      exact ⟨claim, by simp, own⟩
  · intro c listed
    rcases mem_append.1 listed with old | last
    · rcases held.owned c old with ⟨other, member, owns⟩ | plain
      · exact .inl ⟨other, mem_append_left _ member, owns⟩
      · exact .inr plain
    · rw [mem_singleton.1 last]
      exact .inl ⟨leg, by simp, own⟩

theorem retainedClaims_emits {hash : String} {members : List NativeLeg}
    (own : ∀ leg ∈ members, leg.source.quantityHash = hash) (held : Emits canonical targetByEvidence legs s)
    (run : members.foldlM (retainedClaim targetByEvidence canonical hash) s = .ok t) :
    Emits canonical targetByEvidence (legs ++ members) t := by
  induction members generalizing legs s with
  | nil =>
    cases run
    simpa using held
  | cons leg rest ih =>
    rw [foldlM_cons, bind_ok] at run
    obtain ⟨next, first, later⟩ := run
    rw [← own leg mem_cons_self] at first
    have step := retainedClaim_emits held first
    have all := ih (fun other inside => own other (.tail _ inside)) step later
    simpa using all

theorem Emits.suspend {c : QuantityClaim}
    (held : Emits canonical targetByEvidence legs s) (residual : Residual canonical c) :
    Emits canonical targetByEvidence legs { s with claims := s.claims ++ [c] } := by
  obtain ⟨suspense, targetless, -⟩ := id residual
  have sources : ∀ hash, internalRanges (s.claims ++ [c]) hash = internalRanges s.claims hash := by
    intro hash
    simp [internalRanges, filter_append, suspense]
  have targets : ∀ hash, targetRanges (s.claims ++ [c]) hash = targetRanges s.claims hash := by
    intro hash
    simp [targetRanges, filterMap_append, targetless]
  refine ⟨held.sources, held.targets, ?_, ?_, ?_, ?_⟩
  · intro hash
    rw [sources]
    exact held.sourceTiles hash
  · intro hash
    rw [targets]
    exact held.targetTiles hash
  · intro leg member
    obtain ⟨d, listed, owns⟩ := held.claimed leg member
    exact ⟨d, mem_append_left _ listed, owns⟩
  · intro d listed
    rcases mem_append.1 listed with old | last
    · exact held.owned d old
    · rw [mem_singleton.1 last]
      exact .inr residual

theorem nativeSourceClaims_emits {augmented : TargetAugmentation} {reserved : List (String × Int)}
    {group : String × List NativeLeg}
    (own : ∀ leg ∈ group.2, leg.source.quantityHash = group.1) (held : Emits augmented.canonical augmented.targetByEvidence legs s)
    (step : nativeSourceClaims augmented reserved s group = .ok t) :
    Emits augmented.canonical augmented.targetByEvidence (legs ++ group.2) t := by
  obtain ⟨source, observed, step⟩ := bind_ok.1 step
  obtain ⟨next, retained, step⟩ := bind_ok.1 step
  have moved := retainedClaims_emits own held retained
  dsimp only at step
  split at step
  · rename_i implicit
    obtain ⟨slice, cut, step⟩ := bind_ok.1 step
    obtain ⟨claim, made, step⟩ := bind_ok.1 step
    cases step
    have fields := QuantityClaim.make_ok.1 made
    refine moved.suspend ⟨by rw [fields], by rw [fields], source, ?_, implicit.1⟩
    rw [fields, (QuantitySlice.make_ok.1 cut).1]
    unfold observationAt at observed
    split at observed
    · cases observed
    · rename_i found
      cases observed
      exact found
  · cases step
    exact moved

theorem nativeClaims_emits {augmented : TargetAugmentation} {reserved : List (String × Int)}
    {groups : List (String × List NativeLeg)}
    (own : ∀ group ∈ groups, ∀ leg ∈ group.2, leg.source.quantityHash = group.1)
    (held : Emits augmented.canonical augmented.targetByEvidence legs s)
    (run : groups.foldlM (nativeSourceClaims augmented reserved) s = .ok t) :
    Emits augmented.canonical augmented.targetByEvidence (legs ++ groups.flatMap Prod.snd) t := by
  induction groups generalizing legs s with
  | nil =>
    cases run
    simpa using held
  | cons group rest ih =>
    rw [foldlM_cons, bind_ok] at run
    obtain ⟨next, first, later⟩ := run
    have step := nativeSourceClaims_emits (own group (.head _)) held first
    have all := ih (fun other inside => own other (.tail _ inside)) step later
    simpa using all

end

section
variable {sha256 : String → String}

theorem validated_flatMap (parsed : List NativeLeg) (reserved : List (String × Int)) :
    (validatedSourceGroups sha256 parsed reserved).1 =
      (sourceGroups parsed).flatMap fun group => (validatedGroup sha256 reserved group).toOption.getD [] := by
  unfold validatedSourceGroups
  dsimp only
  induction sourceGroups parsed with
  | nil => rfl
  | cons group rest ih =>
    rw [map_cons, filterMap_cons, flatMap_cons, ← ih]
    cases validatedGroup sha256 reserved group <;> rfl

theorem validated_members {parsed : List NativeLeg} {reserved : List (String × Int)} {leg : NativeLeg}
    (stays : leg ∈ (validatedSourceGroups sha256 parsed reserved).1) :
    ((validatedSourceGroups sha256 parsed reserved).1.filter fun other =>
        other.source.quantityHash = leg.source.quantityHash) =
      byEvidence (parsed.filter fun other => other.source.quantityHash = leg.source.quantityHash) := by
  obtain ⟨member, kept, passed⟩ := mem_validated.1 stays
  have group : (leg.source.quantityHash,
      byEvidence (parsed.filter fun other => other.source.quantityHash = leg.source.quantityHash)) ∈ sourceGroups parsed :=
    mem_sourceGroups.2 ⟨rfl, mem_map.2 ⟨leg, member, rfl⟩⟩
  have own : ∀ group ∈ sourceGroups parsed, ∀ other ∈ (validatedGroup sha256 reserved group).toOption.getD [],
      other.source.quantityHash = group.1 := by
    intro group listed other inside
    cases outcome : validatedGroup sha256 reserved group with
    | error issue =>
      rw [outcome] at inside
      cases inside
    | ok members =>
      rw [outcome] at inside
      have belongs : other ∈ group.2 := validatedGroup_ok outcome ▸ inside
      obtain ⟨content, -⟩ := mem_sourceGroups.1 listed
      rw [content] at belongs
      exact of_decide_eq_true (mem_filter.1 (mem_sortedBy.1 belongs)).2
  rw [validated_flatMap, filter_flatMap_key own (sourceGroups_keys_nodup parsed) group, passed]
  exact validatedGroup_ok passed

theorem validatedGroup_bound {hash : String} {first : NativeLeg} {rest kept : List NativeLeg}
    (passed : validatedGroup sha256 [] (hash, first :: rest) = .ok kept) :
    receivedBy (first :: rest) ≤ first.source.principalMsat := by
  unfold validatedGroup at passed
  dsimp only at passed
  split at passed
  · rename_i fits
    have residual := fits.2.2.1
    simp only [lookup, reverse_nil, find?_nil, Option.map_none, Option.getD_none] at residual
    unfold receivedBy
    omega
  · cases passed

theorem receivedBy_filter_le {legs : List NativeLeg} (positive : ∀ leg ∈ legs, 0 < leg.receivedMsat)
    (keep : NativeLeg → Bool) : receivedBy (legs.filter keep) ≤ receivedBy legs := by
  refine (filter_sublist.map _).sum_le_sum ?_
  intro x member
  obtain ⟨leg, inside, rfl⟩ := mem_map.1 member
  exact (positive leg inside).le

theorem sentFrom_le {withSources : CanonicalQuantityInput} {parsed : List NativeLeg}
    (legsOf : ∀ leg ∈ parsed, LegOf withSources leg) {leg : NativeLeg}
    (stays : leg ∈ (validatedSourceGroups sha256 parsed []).1) (keep : NativeLeg → Bool) :
    ∃ source ∈ withSources.observations, source.quantityHash = leg.source.quantityHash ∧
      sentFrom ((validatedSourceGroups sha256 parsed []).1.filter keep) leg.source.quantityHash ≤ source.principalMsat := by
  obtain ⟨member, kept, passed⟩ := mem_validated.1 stays
  have whole := validated_members stays
  have listed : leg ∈ byEvidence (parsed.filter fun other => other.source.quantityHash = leg.source.quantityHash) :=
    mem_sortedBy.2 (mem_filter.2 ⟨member, decide_eq_true rfl⟩)
  have inside : ∀ other ∈ byEvidence (parsed.filter fun other => other.source.quantityHash = leg.source.quantityHash),
      other ∈ parsed ∧ other.source.quantityHash = leg.source.quantityHash := by
    intro other belongs
    obtain ⟨first, same⟩ := mem_filter.1 (mem_sortedBy.1 belongs)
    exact ⟨first, of_decide_eq_true same⟩
  generalize byEvidence (parsed.filter fun other => other.source.quantityHash = leg.source.quantityHash) = group
    at passed whole listed inside
  cases group with
  | nil => cases listed
  | cons first rest =>
    obtain ⟨firstIn, firstSame⟩ := inside first (.head _)
    refine ⟨first.source, (legsOf first firstIn).observed, firstSame, ?_⟩
    unfold sentFrom
    rw [filter_comm, whole]
    refine (receivedBy_filter_le (fun other belongs => (legsOf other (inside other belongs).1).positive) keep).trans ?_
    exact validatedGroup_bound passed

structure CloseSource (o : QuantityObservation) : Prop where
  outbound : o.direction = .outbound
  unattributed : o.feeAttribution = .unknown
  unverified : o.authoritativeChainObservation = false
  positive : 0 < o.principalMsat

theorem virtualTarget_positive {byTransaction : List (String × QuantityObservation)} {audit : NativeAuditRow}
    {target : QuantityObservation} {received fee : Int}
    (named : virtualTarget byTransaction audit = some (target, received, fee)) : 0 < received := by
  unfold virtualTarget at named
  obtain ⟨t, -, named⟩ := Option.bind_eq_some_iff.1 named
  obtain ⟨r, -, named⟩ := Option.bind_eq_some_iff.1 named
  obtain ⟨f, -, named⟩ := Option.bind_eq_some_iff.1 named
  split at named
  · rename_i exact_
    cases named
    exact exact_.2.2.2.1
  · cases named

theorem virtual_closes {canonical withSources : CanonicalQuantityInput} {audits : List NativeAuditRow}
    {issues : List NativeAuditIssue}
    (run : augmentVirtualChannelSources sha256 canonical audits = .ok (withSources, issues)) {o : QuantityObservation}
    (member : o ∈ withSources.observations) : o ∈ canonical.observations ∨ CloseSource o := by
  obtain ⟨byTransaction, -, run⟩ := bind_ok.1 run
  obtain ⟨done, loop, same⟩ := bind_ok.1 run
  cases same
  have kept : ∀ o ∈ done.canonical.observations, o ∈ canonical.observations ∨ CloseSource o := by
    refine foldlM_invariant (fun state : VirtualState =>
      ∀ o ∈ state.canonical.observations, o ∈ canonical.observations ∨ CloseSource o) (fun _ there => .inl there) ?_ loop
    intro state audit next _ before step o there
    unfold addVirtualSource at step
    dsimp only at step
    split at step
    · cases step
      exact before o there
    · rename_i target received fee named
      obtain ⟨event, found, step⟩ := bind_ok.1 step
      split at step
      · split at step <;> cases step <;> exact before o there
      · obtain ⟨source, built, step⟩ := bind_ok.1 step
        cases step
        obtain ⟨key, placed⟩ := mem_observations_iff.1 there
        rcases (legAt_replace found source _).1 placed with old | ⟨-, rfl⟩
        · exact before o (mem_observations_iff.2 ⟨key, old⟩)
        · obtain ⟨direction, -, -, principal, -, attribution, -, authority, -⟩ := fromTransaction_ok built
          exact .inr ⟨direction, attribution, authority, principal ▸ virtualTarget_positive named⟩
  obtain ⟨key, placed⟩ := mem_observations_iff.1 member
  exact kept o (mem_observations_iff.2 ⟨key, legAt_inKeyOrder.1 placed⟩)

end

section
variable (sha256 : String → String)

def survivingLegs (canonical : CanonicalQuantityInput) (audits : List NativeAuditRow) (ids : List String)
    (reserved : List (String × Int)) : Except PyError (List NativeLeg) := do
  let (withSources, _) ← augmentVirtualChannelSources sha256 canonical audits
  let (parsed, _) ← parseLegs sha256 withSources audits ids
  pure (validatedSourceGroups sha256 parsed reserved).1

def Claimed (native : NativeAuditCompilation) (leg : NativeLeg) : Prop :=
  ∃ c ∈ native.claims, c.state = .internalVerified ∧ c.claimId = retainedId leg

structure NativeTiled (canonical : CanonicalQuantityInput) (legs : List NativeLeg) (native : NativeAuditCompilation) :
    Prop where
  sources : ∀ o ∈ native.canonicalInput.observations, internalRanges native.claims o.quantityHash ≠ [] →
    ∃ stop ≤ o.principalMsat, Partitions 0 (internalRanges native.claims o.quantityHash) stop
  observed : ∀ c ∈ native.claims, ∀ slice, c.target = some slice →
    ∃ o ∈ native.canonicalInput.observations, o.direction = .inbound ∧ o.quantityHash = slice.observationHash
  targets : ∀ o ∈ native.canonicalInput.observations, targetRanges native.claims o.quantityHash ≠ [] →
    Partitions 0 (targetRanges native.claims o.quantityHash) o.principalMsat
  materialized : ∀ o ∈ native.canonicalInput.observations, o.direction = .inbound → o ∉ canonical.observations →
    targetRanges native.claims o.quantityHash ≠ []
  together : ∀ leg ∈ legs, ∀ other ∈ legs,
    leg.source.quantityHash = other.source.quantityHash ∨ slotOf leg = slotOf other →
      (Claimed native leg ↔ Claimed native other)

variable {sha256}

/-- What a run leaves: the legs of the slots that stay, and their claims. -/
structure NativeRun (canonical : CanonicalQuantityInput) (audits : List NativeAuditRow) (ids : List String)
    (reserved : List (String × Int)) (native : NativeAuditCompilation) (withSources : CanonicalQuantityInput)
    (parsed legs : List NativeLeg) (augmented : TargetAugmentation) (rejected : List TargetSlot) : Prop where
  sources : ∃ issues, augmentVirtualChannelSources sha256 canonical audits = .ok (withSources, issues)
  legsOf : ∀ leg ∈ parsed, LegOf withSources leg
  parse : ∃ issues, parseLegs sha256 withSources audits ids = .ok (parsed, issues)
  passed : legs = (validatedSourceGroups sha256 parsed reserved).1
  closed : rejectedSlots sha256 withSources legs = .ok rejected
  augments : Augments withSources legs augmented rejected
  input : native.canonicalInput = augmented.canonical
  emits : ∃ order, order.Perm (legs.filter fun leg => slotOf leg ∉ rejected) ∧
    ∃ s, Emits augmented.canonical augmented.targetByEvidence order s ∧ native.claims.Perm s.claims

theorem compile_native {canonical : CanonicalQuantityInput} {audits : List NativeAuditRow} {ids : List String}
    {reserved : List (String × Int)} {native : NativeAuditCompilation} {legs : List NativeLeg}
    (run : compileVerifiedNativeClaims sha256 canonical audits ids reserved = .ok native)
    (survive : survivingLegs sha256 canonical audits ids reserved = .ok legs) (evidence : EvidenceDistinct legs) :
    ∃ withSources parsed augmented rejected,
      @NativeRun sha256 canonical audits ids reserved native withSources parsed legs augmented rejected := by
  obtain ⟨⟨withSources, virtualIssues⟩, sources, run⟩ := bind_ok.1 run
  obtain ⟨⟨parsed, legIssues⟩, parse, run⟩ := bind_ok.1 run
  dsimp only at run
  obtain ⟨augmented, targets, run⟩ := bind_ok.1 run
  obtain ⟨done, loop, same⟩ := bind_ok.1 run
  have passed : legs = (validatedSourceGroups sha256 parsed reserved).1 := by
    unfold survivingLegs at survive
    rw [sources] at survive
    have next : (do
        let (parsed, _) ← parseLegs sha256 withSources audits ids
        pure (validatedSourceGroups sha256 parsed reserved).1 : Except PyError (List NativeLeg)) = .ok legs := survive
    rw [parse] at next
    exact (Except.ok.inj next).symm
  rw [← passed] at targets loop
  have legsOf : ∀ leg ∈ parsed, LegOf withSources leg := fun leg member => parseLegs_legs parse member
  have stayed : ∀ leg ∈ legs, LegOf withSources leg := by
    intro leg member
    rw [passed] at member
    exact legsOf leg (mem_validated.1 member).1
  obtain ⟨rejected, closed, augments⟩ := augmentTargets_augments stayed evidence targets
  have valid : (legs.filter fun leg => leg.evidenceId ∉ augmented.invalidEvidence ∧ leg.source.quantityHash ∉
      (legs.filter fun leg => leg.evidenceId ∈ augmented.invalidEvidence).map (·.source.quantityHash)) =
      legs.filter fun leg => slotOf leg ∉ rejected := by
    refine filter_congr fun leg member => ?_
    rw [decide_eq_decide, augments.dropped leg member]
    refine ⟨fun both => both.1, fun stays => ⟨stays, ?_⟩⟩
    intro listed
    obtain ⟨other, inside, equal⟩ := mem_map.1 listed
    obtain ⟨otherIn, lost⟩ := mem_filter.1 inside
    have rejectedOther := (augments.dropped other otherIn).1 (of_decide_eq_true lost)
    exact augments.apart leg member other otherIn stays rejectedOther equal.symm
  rw [valid] at loop
  have own : ∀ group ∈ sourceGroups (legs.filter fun leg => slotOf leg ∉ rejected), ∀ leg ∈ group.2,
      leg.source.quantityHash = group.1 := by
    intro group listed leg inside
    obtain ⟨content, -⟩ := mem_sourceGroups.1 listed
    rw [content] at inside
    exact of_decide_eq_true (mem_filter.1 (mem_sortedBy.1 inside)).2
  have emitted := nativeClaims_emits own emits_nil loop
  rw [nil_append] at emitted
  cases same
  refine ⟨withSources, parsed, augmented, rejected, ⟨virtualIssues, sources⟩, legsOf, ⟨legIssues, parse⟩, passed, closed,
    augments, rfl, _, sourceGroups_flatten _, done, emitted, sortedBy_perm _ _⟩

section
variable {canonical withSources : CanonicalQuantityInput} {audits : List NativeAuditRow} {ids : List String}
  {reserved : List (String × Int)} {native : NativeAuditCompilation} {parsed legs : List NativeLeg}
  {augmented : TargetAugmentation} {rejected : List TargetSlot}

variable (run : @NativeRun sha256 canonical audits ids reserved native withSources parsed legs augmented rejected)
include run

theorem NativeRun.observed {k : CanonicalEventKey} {o : QuantityObservation} (there : LegAt withSources k o) :
    o ∈ native.canonicalInput.observations := by
  rw [run.input]
  exact mem_observations_iff.2 ⟨k, run.augments.kept k o there⟩

theorem NativeRun.source_parts (hash : String) : Partitions 0 (internalRanges native.claims hash)
      (sentFrom (legs.filter fun leg => slotOf leg ∉ rejected) hash) := by
  obtain ⟨order, perm, s, emits, claims⟩ := run.emits
  have moved : sentFrom order hash = sentFrom (legs.filter fun leg => slotOf leg ∉ rejected) hash :=
    ((perm.filter _).map _).sum_eq
  rw [← moved]
  exact ⟨_, ((claims.filter _).map _).symm, emits.sourceTiles hash⟩

theorem NativeRun.target_parts (hash : String) : Partitions 0 (targetRanges native.claims hash)
      (broughtTo augmented.targetByEvidence (legs.filter fun leg => slotOf leg ∉ rejected) hash) := by
  obtain ⟨order, perm, s, emits, claims⟩ := run.emits
  have moved : broughtTo augmented.targetByEvidence order hash =
      broughtTo augmented.targetByEvidence (legs.filter fun leg => slotOf leg ∉ rejected) hash :=
    ((perm.filter _).map _).sum_eq
  rw [← moved]
  exact ⟨_, (((claims.filterMap _).filter _).map _).symm, emits.targetTiles hash⟩

theorem NativeRun.owned {c : QuantityClaim} (listed : c ∈ native.claims) :
    (∃ leg ∈ legs, slotOf leg ∉ rejected ∧ ClaimOf augmented.targetByEvidence leg c) ∨
      Residual augmented.canonical c := by
  obtain ⟨order, perm, s, emits, claims⟩ := run.emits
  rcases emits.owned c (claims.mem_iff.1 listed) with ⟨leg, member, owns⟩ | plain
  · obtain ⟨inside, stays⟩ := mem_filter.1 (perm.mem_iff.1 member)
    exact .inl ⟨leg, inside, of_decide_eq_true stays, owns⟩
  · exact .inr plain

variable {leg : NativeLeg}

theorem NativeRun.claimed (member : leg ∈ legs) (stays : slotOf leg ∉ rejected) :
    ∃ c ∈ native.claims, ClaimOf augmented.targetByEvidence leg c := by
  obtain ⟨order, perm, s, emits, claims⟩ := run.emits
  have inside := perm.mem_iff.2 (mem_filter.2 ⟨member, decide_eq_true stays⟩)
  obtain ⟨c, listed, owns⟩ := emits.claimed leg inside
  exact ⟨c, claims.mem_iff.2 listed, owns⟩

theorem NativeRun.claimed_iff (evidence : EvidenceDistinct legs) (member : leg ∈ legs) :
    Claimed native leg ↔ slotOf leg ∉ rejected := by
  constructor
  · rintro ⟨c, listed, internal, named⟩
    rcases run.owned listed with ⟨other, inside, stays, owns⟩ | plain
    · have ids : retainedId leg = retainedId other := named.symm.trans owns.2.1
      have same : leg.evidenceId = other.evidenceId := append_left_cancel (append_right_cancel ids)
      rw [(evidence leg member other inside same).2]
      exact stays
    · cases internal.symm.trans plain.1
  · intro stays
    obtain ⟨c, listed, owns⟩ := run.claimed member stays
    exact ⟨c, listed, owns.1, owns.2.1⟩

theorem NativeRun.brought (distinct : (native.canonicalInput.observations.map (·.quantityHash)).Nodup) (member : leg ∈ legs)
    (stays : slotOf leg ∉ rejected) {hash : String}
    (assigned : lookup augmented.targetByEvidence leg.evidenceId = some hash) :
    ∃ o ∈ native.canonicalInput.observations, o.quantityHash = hash ∧ o.direction = .inbound ∧
      o.principalMsat = broughtTo augmented.targetByEvidence (legs.filter fun leg => slotOf leg ∉ rejected) hash := by
  obtain ⟨o, placed, slotted, amount, shared⟩ := run.augments.targets leg member stays
  have named : o.quantityHash = hash := some.inj ((shared leg member rfl).symm.trans assigned)
  rw [run.input] at distinct ⊢
  refine ⟨o, mem_observations_iff.2 ⟨_, placed⟩, named, slotted.1, amount.trans ?_⟩
  unfold broughtTo legsIn
  rw [filter_filter]
  refine congrArg receivedBy (filter_congr fun other inside => ?_)
  rw [← Bool.decide_and, decide_eq_decide]
  constructor
  · intro same
    exact ⟨named ▸ shared other inside same, same ▸ stays⟩
  · rintro ⟨found, kept⟩
    obtain ⟨p, placed', slotted', -, shared'⟩ := run.augments.targets other inside kept
    have hashes : o.quantityHash = p.quantityHash :=
      named.trans (some.inj (found.symm.trans (shared' other inside rfl)))
    obtain ⟨keys, rfl⟩ := legAt_unique distinct placed placed' hashes
    have wallets := slotted.2.1.symm.trans slotted'.2.1
    have assets := slotted.2.2.symm.trans slotted'.2.2
    cases first : slotOf leg
    cases second : slotOf other
    simp_all

omit run

/-- For every canonical input and every list of audit rows: the internal claims of a source follow one another from
zero and stay within its principal, every target is filled exactly, a synthetic inbound is always claimed, and legs
that share a source or a slot are claimed together or dropped together. -/
theorem native_claims_tile (run : compileVerifiedNativeClaims sha256 canonical audits ids [] = .ok native)
    (survive : survivingLegs sha256 canonical audits ids [] = .ok legs)
    (distinct : (native.canonicalInput.observations.map (·.quantityHash)).Nodup) (evidence : EvidenceDistinct legs) :
    NativeTiled canonical legs native := by
  obtain ⟨withSources, parsed, augmented, rejected, done⟩ := compile_native run survive evidence
  refine ⟨?_, ?_, ?_, ?_, ?_⟩
  · intro o member some
    refine ⟨_, ?_, done.source_parts o.quantityHash⟩
    obtain ⟨range, listed⟩ := exists_mem_of_ne_nil _ some
    obtain ⟨c, inside, -⟩ := mem_map.1 listed
    obtain ⟨claim, internal⟩ := mem_filter.1 inside
    obtain ⟨state, hash⟩ := of_decide_eq_true internal
    rcases done.owned claim with ⟨leg, legIn, -, owns⟩ | plain
    · rw [← hash, owns.2.2.1]
      rw [done.passed] at legIn ⊢
      obtain ⟨source, observed, same, bound⟩ := sentFrom_le done.legsOf legIn fun leg => slotOf leg ∉ rejected
      obtain ⟨key, placed⟩ := mem_observations_iff.1 observed
      have hashes : source.quantityHash = o.quantityHash := same.trans (owns.2.2.1.symm.trans hash)
      have equal := inj_on_of_nodup_map distinct (done.observed placed) member hashes
      rw [← equal]
      exact bound
    · cases state.symm.trans plain.1
  · intro c listed slice target
    rcases done.owned listed with ⟨leg, legIn, stays, owns⟩ | plain
    · obtain ⟨own, same, assigned⟩ := owns.2.2.2
      obtain ⟨o, observed, named, inbound, -⟩ := done.brought distinct legIn stays assigned
      have equal : own = slice := some.inj (same.symm.trans target)
      exact ⟨o, observed, inbound, named.trans (congrArg _ equal)⟩
    · rw [plain.2.1] at target
      cases target
  · intro o member some
    have parts := done.target_parts o.quantityHash
    obtain ⟨range, listed⟩ := exists_mem_of_ne_nil _ some
    obtain ⟨slice, inside, -⟩ := mem_map.1 listed
    obtain ⟨targeted, hash⟩ := mem_filter.1 inside
    obtain ⟨c, claim, target⟩ := mem_filterMap.1 targeted
    rcases done.owned claim with ⟨leg, legIn, stays, owns⟩ | plain
    · obtain ⟨own, same, assigned⟩ := owns.2.2.2
      have equal : own = slice := Option.some.inj (same.symm.trans target)
      rw [equal, of_decide_eq_true hash] at assigned
      obtain ⟨p, observed, named, -, amount⟩ := done.brought distinct legIn stays assigned
      have found := inj_on_of_nodup_map distinct observed member named
      rw [← amount, found] at parts
      exact parts
    · rw [plain.2.1] at target
      cases target
  · intro o member inbound new
    rw [done.input] at member
    obtain ⟨key, placed⟩ := mem_observations_iff.1 member
    rcases done.augments.fresh key o placed with old | ⟨leg, legIn, stays, -, assigned⟩
    · obtain ⟨issues, sources⟩ := done.sources
      rcases virtual_closes sources (mem_observations_iff.2 ⟨key, old⟩) with before | close
      · exact absurd before new
      · cases inbound.symm.trans close.outbound
    · obtain ⟨c, claim, owns⟩ := done.claimed legIn stays
      obtain ⟨slice, target, found⟩ := owns.2.2.2
      have hash : slice.observationHash = o.quantityHash := some.inj (found.symm.trans assigned)
      refine ne_nil_of_mem (mem_map_of_mem (mem_filter.2 ⟨?_, decide_eq_true hash⟩))
      exact mem_filterMap.2 ⟨c, claim, target⟩
  · intro leg legIn other otherIn shared
    rw [done.claimed_iff evidence legIn, done.claimed_iff evidence otherIn]
    rcases shared with source | slot
    · constructor
      · intro stays lost
        exact done.augments.apart leg legIn other otherIn stays lost source
      · intro stays lost
        exact done.augments.apart other otherIn leg legIn stays lost source.symm
    · rw [slot]

end

end

def sampleTransaction : CanonicalEventKey :=
  ⟨"bitcoin", "main", "chain", sampleHash 'c', by decide, by decide, by decide, by decide +kernel⟩

def sampleSpend : CanonicalQuantityInput :=
  { events := [{ eventKey := sampleTransaction
                 legs := [{ sampleSent with eventKey := sampleTransaction, authoritativeChainObservation := true },
                   { sampleReceived with eventKey := sampleTransaction }]
                 evidenceSnapshots := [], sourceTransactionIds := ["sent", "received"]
                 observationAliases := [("sent", sampleHash 'a'), ("received", sampleHash 'b')] }]
    rejectedEvents := []
    distinct := by simp }

/-- Part of the spend arrives with the whole fee. -/
def sampleAudit (received fee : Int) : NativeAuditRow :=
  { pairingSource := "ownership_derived", occurredAt := sampleSent.occurredAt, outId := "sent", inId := "received"
    outAnchorTransactionId := "sent", inAnchorTransactionId := "received", fromWalletId := "w1", toWalletId := "w2"
    asset := "BTC", cryptoReceivedMsat := some received, cryptoFeeMsat := some fee, cryptoSentMsat := some (received + fee) }

/-- Sed8c5a2e112eb57f23cfc7fe5c77b39512239fb78ef982fdd8cab24ae588dd48-256 of the two legs' payloads; the fee makes the first longer. -/
def sampleDigest (text : String) : String :=
  if text.length = 289 then "ed8c5a2e112eb57f23cfc7fe5c77b39512239fb78ef982fdd8cab24ae588dd48"
  else "d01813baaeea867bdc5e4300fd2a87e80b5558bce5f1fb98a78dd4ce58b74ace"

/-- Two legs of one spend on one destination. -/
theorem native_claims_tile_change :
    ∃ native legs, compileVerifiedNativeClaims sampleDigest sampleSpend [sampleAudit 300 10, sampleAudit 400 0] [] [] =
      .ok native ∧ legs.length = 2 ∧ native.claims.length = 2 ∧ NativeTiled sampleSpend legs native := by
  have run : (do
      let native ← compileVerifiedNativeClaims sampleDigest sampleSpend [sampleAudit 300 10, sampleAudit 400 0] [] []
      let legs ← survivingLegs sampleDigest sampleSpend [sampleAudit 300 10, sampleAudit 400 0] [] []
      pure (native.canonicalInput.observations.map (·.quantityHash), native.claims.length, legs.length,
        decide (∀ leg ∈ legs, leg.source.quantityHash = sampleHash 'a' ∧ slotOf leg = ⟨sampleTransaction, "w2", "BTC"⟩)) :
      Except PyError (List String × Nat × Nat × Bool)).toOption =
        some ([sampleHash 'a', sampleHash 'b'], 2, 2, true) := by decide +kernel
  obtain ⟨native, run, rest⟩ := bind_ok.1 (ok_of_toOption run)
  obtain ⟨legs, survive, facts⟩ := bind_ok.1 rest
  simp only [pure_ok, Prod.mk.injEq, decide_eq_true_eq] at facts
  obtain ⟨hashes, claims, count, same⟩ := facts
  refine ⟨native, legs, run, count, claims, native_claims_tile run survive ?_ fun leg listed other listed' _ => ?_⟩
  · rw [hashes]
    exact samples_distinct
  · exact ⟨(same leg listed).1.trans (same other listed').1.symm, (same leg listed).2.trans (same other listed').2.symm⟩

end Kassiber.Custody

import Kassiber.Lib.Sorting
import Kassiber.Lib.Text
import Kassiber.Custody.Quantity

/-!
Claims are checked bundle by bundle against the observations they name; a malformed bundle is reported and
replaced by one suspense claim over each outbound source it touches, so that the other bundles can still be
arbitrated.
-/

namespace Kassiber.Custody
open Lib.Outcome Lib.Sorting
open List hiding get_of_mem
open Prod (fst snd)

abbrev Observations := List QuantityObservation

def Observations.get (observations : Observations) (hash : String) : Option QuantityObservation :=
  observations.find? fun o => o.quantityHash = hash

def indexObservation (index : Observations) (o : QuantityObservation) : Except PyError Observations := do
  o.validate
  raiseIf (o.quantityHash ∈ index.map QuantityObservation.quantityHash)
    (.valueError ("duplicate quantity observation hash: " ++ o.quantityHash))
  pure (index ++ [o])

def indexObservations (observations : List QuantityObservation) : Except PyError Observations :=
  observations.foldlM indexObservation []

/-- The order claims are arbitrated in: stronger evidence first, then by id. -/
def QuantityClaim.rank (c : QuantityClaim) : Nat ×ₗ String := toLex (c.priority.value, c.claimId)

def normalizeClaims (claims : List QuantityClaim) : List QuantityClaim := sortedBy QuantityClaim.rank claims

def QuantityClaim.bundleId (c : QuantityClaim) : String := c.effectiveBundleId.getD ("claim:" ++ c.claimId)

def claimBundles (claims : List QuantityClaim) : List (String × List QuantityClaim) :=
  sortedBy fst (groupBy QuantityClaim.bundleId (normalizeClaims claims))

def outboundSource (index : Observations) (c : QuantityClaim) : Option QuantityObservation :=
  (index.get c.source.observationHash).filter fun o => o.direction = .outbound

def inboundTarget (index : Observations) (t : QuantitySlice) : Option QuantityObservation :=
  (index.get t.observationHash).filter fun o => o.direction = .inbound

def sourceFaults (index : Observations) (c : QuantityClaim) : List ClaimFault :=
  match outboundSource index c with
  | none => [.claimSourceInvalid]
  | some source => if c.source.endMsat > source.principalMsat then [.claimSourceExceedsPrincipal] else []

def domainFaults (index : Observations) (c : QuantityClaim) (target : QuantityObservation) : List ClaimFault :=
  match outboundSource index c with
  | none => []
  | some source =>
    if (QuantityDomain.fromObservation source).compatibleWith (QuantityDomain.fromObservation target)
        c.allowCrossRail then [] else [.claimDomainIncompatible]

def targetFaults (index : Observations) (c : QuantityClaim) : List ClaimFault :=
  match c.target with
  | none => []
  | some t =>
    match inboundTarget index t with
    | none => [.claimTargetInvalid]
    | some target =>
      (if t.endMsat > target.principalMsat then [.claimTargetExceedsPrincipal] else []) ++ domainFaults index c target

def bundleFaults (index : Observations) (claims members : List QuantityClaim) : List ClaimFault :=
  (if (members.map (·.priority)).dedup.length ≠ 1 then [.atomicBundlePriorityMismatch] else []) ++
  (if members.any fun c => decide (claims.countP (fun other => other.claimId = c.claimId) > 1)
    then [.duplicateClaimId] else []) ++
  members.flatMap fun c => sourceFaults index c ++ targetFaults index c

def knownSources (index : Observations) (members : List QuantityClaim) : List String :=
  members.filterMap fun c => (outboundSource index c).map QuantityObservation.quantityHash

def involvedHashes (members : List QuantityClaim) : List String :=
  members.map (fun c => c.source.observationHash) ++ members.filterMap fun c => c.target.map (·.observationHash)

def bundleError (index : Observations) (claims : List QuantityClaim) (bundle : String × List QuantityClaim) :
    QuantityClaimError :=
  { bundleId := bundle.1
    reasons := sortedSet ((bundleFaults index claims bundle.2).map ClaimFault.text)
    claimIds := sortedSet (bundle.2.map (·.claimId))
    sourceObservationHashes := sortedSet (knownSources index bundle.2)
    involvedObservationHashes := sortedSet (involvedHashes bundle.2) }

/-- The strongest of some priorities; the weakest there is for none. -/
def strongest (priorities : List ClaimPriority) : ClaimPriority :=
  priorities.foldr (fun p q => if p.value ≤ q.value then p else q) .accountingConvention

def suspensePriority (members : List QuantityClaim) : ClaimPriority :=
  strongest ((members.map (·.priority)).filter fun p => p ∈ statePriorities .custodySuspense)

def acceptedBundles (index : Observations) (claims : List QuantityClaim) : List (String × List QuantityClaim) :=
  (claimBundles claims).filter fun bundle => bundleFaults index claims bundle.2 = []

def rejectedBundles (index : Observations) (claims : List QuantityClaim) : List (String × List QuantityClaim) :=
  (claimBundles claims).filter fun bundle => bundleFaults index claims bundle.2 ≠ []

/-- The touched sources of all rejected bundles, each with the strongest rank that suspends it. -/
def invalidSources (index : Observations) (claims : List QuantityClaim) : List (String × ClaimPriority) :=
  let touched := (rejectedBundles index claims).flatMap fun bundle =>
    (knownSources index bundle.2).map fun hash => (hash, suspensePriority bundle.2)
  sortedBy fst ((groupBy fst touched).map fun entry => (entry.1, strongest (entry.2.map snd)))

def malformedClaimId (hash : String) : String := "malformed-claim-bundle:" ++ hash

/-- The suspense claim over the whole principal of a source that a rejected bundle touched. -/
def malformedBundleClaim (index : Observations) (entry : String × ClaimPriority) : Except PyError QuantityClaim :=
  match index.get entry.1 with
  | none => .error (.keyError entry.1)
  | some source => do
    let slice ← QuantitySlice.make entry.1 0 source.principalMsat
    QuantityClaim.make
      { claimId := malformedClaimId entry.1, source := slice, state := .custodySuspense, priority := entry.2,
        reason := "malformed_claim_bundle" }

structure ValidatedInputs where
  observations : Observations
  claims : List QuantityClaim
  errors : List QuantityClaimError

def validatedInputs (observations : List QuantityObservation) (claims : List QuantityClaim) :
    Except PyError ValidatedInputs := do
  let index ← indexObservations observations
  let suspended ← (invalidSources index claims).mapM (malformedBundleClaim index)
  pure
    { observations := index
      claims := sortedBy QuantityClaim.rank ((acceptedBundles index claims).flatMap snd ++ suspended)
      errors := (rejectedBundles index claims).map (bundleError index claims) }

variable {o : QuantityObservation} {c : QuantityClaim} {bundle : String × List QuantityClaim}
  {entry : String × ClaimPriority}

variable {index observations : Observations} {claims : List QuantityClaim}

theorem indexObservation_ok {next : Observations} :
    indexObservation index o = .ok next ↔
      o.Valid ∧ o.quantityHash ∉ index.map QuantityObservation.quantityHash ∧ next = index ++ [o] := by
  simp only [indexObservation, bind_ok, raiseIf_ok, pure_ok, QuantityObservation.Valid]
  constructor
  · rintro ⟨_, valid, _, fresh, rfl⟩
    exact ⟨valid, fresh, rfl⟩
  · rintro ⟨valid, fresh, rfl⟩
    exact ⟨(), valid, (), fresh, rfl⟩

theorem foldlM_indexObservation {final : Observations}
    (nodup : (index.map QuantityObservation.quantityHash).Nodup) :
    observations.foldlM indexObservation index = .ok final ↔
      final = index ++ observations ∧ (∀ o ∈ observations, o.Valid) ∧
        ((index ++ observations).map QuantityObservation.quantityHash).Nodup := by
  induction observations generalizing index with
  | nil =>
    simp only [foldlM_nil, pure_ok, append_nil]
    exact ⟨fun same => ⟨same.symm, by simp, nodup⟩, fun facts => facts.1.symm⟩
  | cons o rest ih =>
    simp only [foldlM_cons, bind_ok, indexObservation_ok]
    constructor
    · rintro ⟨_, ⟨valid, fresh, rfl⟩, later⟩
      have extended : ((index ++ [o]).map QuantityObservation.quantityHash).Nodup := by
        rw [map_append, nodup_append]
        refine ⟨nodup, nodup_singleton _, ?_⟩
        rintro hash old _ new rfl
        rw [map_singleton, mem_singleton] at new
        exact fresh (new ▸ old)
      obtain ⟨rfl, others, distinct⟩ := (ih extended).1 later
      rw [List.append_assoc] at distinct ⊢
      refine ⟨rfl, ?_, distinct⟩
      intro p member
      rcases mem_cons.1 member with rfl | old
      · exact valid
      · exact others p old
    · rintro ⟨rfl, valid, distinct⟩
      have split : index ++ o :: rest = (index ++ [o]) ++ rest := by simp
      rw [split] at distinct
      have extended : ((index ++ [o]).map QuantityObservation.quantityHash).Nodup := by
        rw [map_append] at distinct
        exact (nodup_append.1 distinct).1
      refine ⟨_, ⟨valid o (.head _), ?_, rfl⟩, (ih extended).2 ⟨split, ?_, distinct⟩⟩
      · rw [map_append, nodup_append] at extended
        exact fun old => extended.2.2 _ old _ (by simp) rfl
      · exact fun p member => valid p (.tail _ member)

theorem indexObservations_ok :
    indexObservations observations = .ok index ↔
      index = observations ∧ (∀ o ∈ observations, o.Valid) ∧
        (observations.map QuantityObservation.quantityHash).Nodup := by
  have empty : (([] : Observations).map QuantityObservation.quantityHash).Nodup := nodup_nil
  simpa [indexObservations] using @foldlM_indexObservation [] observations index empty

variable {hash : String}

theorem get_some (found : index.get hash = some o) :
    o ∈ index ∧ o.quantityHash = hash :=
  ⟨mem_of_find?_eq_some found, by simpa using find?_some found⟩

theorem get_of_mem (nodup : (index.map QuantityObservation.quantityHash).Nodup)
    (member : o ∈ index) : index.get o.quantityHash = some o := by
  cases found : index.get o.quantityHash with
  | none =>
    have absent := List.find?_eq_none.1 found o member
    simp at absent
  | some p =>
    obtain ⟨present, same⟩ := get_some found
    rw [inj_on_of_nodup_map nodup present member same]

theorem get_perm {other : Observations} (perm : index.Perm other)
    (nodup : (index.map QuantityObservation.quantityHash).Nodup) (hash : String) :
    index.get hash = other.get hash := by
  have nodup' : (other.map QuantityObservation.quantityHash).Nodup := (perm.map _).nodup_iff.1 nodup
  cases found : index.get hash with
  | some o =>
    obtain ⟨member, rfl⟩ := get_some found
    exact (get_of_mem nodup' (perm.mem_iff.1 member)).symm
  | none =>
    cases found' : other.get hash with
    | none => rfl
    | some o =>
      obtain ⟨member, rfl⟩ := get_some found'
      rw [get_of_mem nodup (perm.mem_iff.2 member)] at found
      cases found

theorem outboundSource_some :
    outboundSource index c = some o ↔ index.get c.source.observationHash = some o ∧ o.direction = .outbound := by
  simp [outboundSource, Option.filter_eq_some_iff]

theorem inboundTarget_some {t : QuantitySlice} :
    inboundTarget index t = some o ↔ index.get t.observationHash = some o ∧ o.direction = .inbound := by
  simp [inboundTarget, Option.filter_eq_some_iff]

/-- A claim whose ends are observed, inside their principals and of one exposure. -/
structure Grounded (index : Observations) (c : QuantityClaim) : Prop where
  source : ∃ o, outboundSource index c = some o ∧ c.source.endMsat ≤ o.principalMsat
  target : ∀ t, c.target = some t → ∃ s o, outboundSource index c = some s ∧ inboundTarget index t = some o ∧
    t.endMsat ≤ o.principalMsat ∧
    (QuantityDomain.fromObservation s).conserved = (QuantityDomain.fromObservation o).conserved

theorem sourceFaults_nil (clean : sourceFaults index c = []) :
    ∃ o, outboundSource index c = some o ∧ c.source.endMsat ≤ o.principalMsat := by
  unfold sourceFaults at clean
  split at clean
  · cases clean
  · rename_i o found
    split at clean
    · cases clean
    · rename_i inside
      exact ⟨o, found, not_lt.1 inside⟩

theorem grounded_of_clean (clean : sourceFaults index c ++ targetFaults index c = []) : Grounded index c := by
  obtain ⟨sourceClean, targetClean⟩ := append_eq_nil_iff.1 clean
  obtain ⟨s, found, inside⟩ := sourceFaults_nil sourceClean
  refine ⟨⟨s, found, inside⟩, ?_⟩
  intro t present
  unfold targetFaults at targetClean
  rw [present] at targetClean
  dsimp only at targetClean
  split at targetClean
  · cases targetClean
  · rename_i o observed
    obtain ⟨within, compatible⟩ := append_eq_nil_iff.1 targetClean
    refine ⟨s, o, found, observed, ?_, ?_⟩
    · by_contra beyond
      rw [if_pos (not_le.1 beyond)] at within
      cases within
    · unfold domainFaults at compatible
      rw [found] at compatible
      dsimp only at compatible
      split at compatible
      · rename_i holds
        exact QuantityDomain.conserved_of_compatible holds
      · cases compatible

/-- The claims that share a bundle with `c`. -/
def bundleMembers (claims : List QuantityClaim) (id : String) : List QuantityClaim :=
  (normalizeClaims claims).filter fun c => c.bundleId = id

theorem mem_bundleMembers {id : String} :
    c ∈ bundleMembers claims id ↔ c ∈ claims ∧ c.bundleId = id := by
  simp [bundleMembers, normalizeClaims]

theorem mem_claimBundles :
    bundle ∈ claimBundles claims ↔
      bundle.2 = bundleMembers claims bundle.1 ∧ ∃ c ∈ claims, c.bundleId = bundle.1 := by
  obtain ⟨id, members⟩ := bundle
  simp only [claimBundles, mem_sortedBy, mem_groupBy, bundleMembers]
  simp [normalizeClaims]

theorem claimBundles_perm (claims : List QuantityClaim) : ((claimBundles claims).flatMap snd).Perm claims :=
  ((sortedBy_perm _ _).flatMap_right _).trans ((groupBy_flatten _ _).trans (sortedBy_perm QuantityClaim.rank claims))

def Accepted (index : Observations) (claims : List QuantityClaim) (c : QuantityClaim) : Prop :=
  c ∈ claims ∧ bundleFaults index claims (bundleMembers claims c.bundleId) = []

theorem mem_acceptedBundles :
    c ∈ (acceptedBundles index claims).flatMap snd ↔ Accepted index claims c := by
  simp only [acceptedBundles, mem_flatMap, mem_filter, decide_eq_true_eq, mem_claimBundles]
  constructor
  · rintro ⟨bundle, ⟨⟨content, -⟩, clean⟩, member⟩
    rw [content] at clean member
    obtain ⟨present, same⟩ := mem_bundleMembers.1 member
    exact ⟨present, by rw [same]; exact clean⟩
  · rintro ⟨present, clean⟩
    exact ⟨(c.bundleId, bundleMembers claims c.bundleId), ⟨⟨rfl, c, present, rfl⟩, clean⟩,
      mem_bundleMembers.2 ⟨present, rfl⟩⟩

theorem accepted_clean
    (accepted : Accepted index claims c) : sourceFaults index c ++ targetFaults index c = [] := by
  obtain ⟨present, clean⟩ := accepted
  have inner := (append_eq_nil_iff.1 clean).2
  exact flatMap_eq_nil_iff.1 inner c (mem_bundleMembers.2 ⟨present, rfl⟩)

theorem accepted_ids_nodup (index : Observations) (claims : List QuantityClaim) :
    (((acceptedBundles index claims).flatMap snd).map (·.claimId)).Nodup := by
  rw [nodup_iff_count_le_one]
  intro id
  by_cases present : id ∈ ((acceptedBundles index claims).flatMap snd).map (·.claimId)
  · obtain ⟨c, member, rfl⟩ := mem_map.1 present
    obtain ⟨known, clean⟩ := mem_acceptedBundles.1 member
    have single : claims.countP (fun other => other.claimId = c.claimId) ≤ 1 := by
      have quiet := (append_eq_nil_iff.1 (append_eq_nil_iff.1 clean).1).2
      by_contra repeated
      rw [if_pos] at quiet
      · cases quiet
      · exact any_eq_true.2 ⟨c, mem_bundleMembers.2 ⟨known, rfl⟩, by simpa using repeated⟩
    have sub : ((acceptedBundles index claims).flatMap snd).Sublist ((claimBundles claims).flatMap snd) := by
      rw [flatMap_def, flatMap_def]
      exact (filter_sublist.map snd).flatten
    calc (((acceptedBundles index claims).flatMap snd).map (·.claimId)).count c.claimId
        ≤ (((claimBundles claims).flatMap snd).map (·.claimId)).count c.claimId := (sub.map _).count_le _
      _ = (claims.map (·.claimId)).count c.claimId := ((claimBundles_perm claims).map _).count_eq _
      _ = claims.countP (fun other => other.claimId = c.claimId) := by
          rw [count_eq_countP, countP_map]
          rfl
      _ ≤ 1 := single
  · rw [count_eq_zero_of_not_mem present]
    exact Nat.zero_le 1

theorem mem_rejectedBundles :
    bundle ∈ rejectedBundles index claims ↔
      bundle ∈ claimBundles claims ∧ bundleFaults index claims bundle.2 ≠ [] := by
  simp [rejectedBundles]

theorem mem_knownSources {members : List QuantityClaim} :
    hash ∈ knownSources index members ↔
      ∃ c ∈ members, ∃ o, outboundSource index c = some o ∧ o.quantityHash = hash := by
  simp [knownSources]

theorem strongest_le {priorities : List ClaimPriority} {p : ClaimPriority} (member : p ∈ priorities) :
    (strongest priorities).value ≤ p.value := by
  induction priorities with
  | nil => simp at member
  | cons q rest ih =>
    simp only [strongest, foldr_cons]
    rcases mem_cons.1 member with rfl | old
    · split
      · exact le_rfl
      · rename_i weaker
        exact le_of_lt (not_le.1 weaker)
    · have bound := ih old
      split
      · rename_i stronger
        exact le_trans stronger bound
      · exact bound

theorem invalidSources_covers (rejected : bundle ∈ rejectedBundles index claims)
    (touched : hash ∈ knownSources index bundle.2) :
    ∃ p, (hash, p) ∈ invalidSources index claims ∧ p.value ≤ (suspensePriority bundle.2).value := by
  have entry : (hash, suspensePriority bundle.2) ∈ (rejectedBundles index claims).flatMap fun bundle =>
      (knownSources index bundle.2).map fun hash => (hash, suspensePriority bundle.2) :=
    mem_flatMap.2 ⟨bundle, rejected, mem_map.2 ⟨hash, touched, rfl⟩⟩
  refine ⟨_, mem_sortedBy.2 (mem_map.2 ⟨_, exists_group fst entry, rfl⟩), ?_⟩
  apply strongest_le
  refine mem_map.2 ⟨(hash, suspensePriority bundle.2), ?_, rfl⟩
  exact mem_filter.2 ⟨entry, by simp⟩

theorem invalidSources_touched (member : entry ∈ invalidSources index claims) :
    ∃ bundle ∈ rejectedBundles index claims, entry.1 ∈ knownSources index bundle.2 := by
  obtain ⟨group, present, rfl⟩ := mem_map.1 (mem_sortedBy.1 member)
  obtain ⟨-, key⟩ := mem_groupBy.1 present
  obtain ⟨touched, inside, same⟩ := mem_map.1 key
  obtain ⟨bundle, rejected, named⟩ := mem_flatMap.1 inside
  obtain ⟨hash, known, rfl⟩ := mem_map.1 named
  exact ⟨bundle, rejected, by rw [← same]; exact known⟩

theorem invalidSources_keys_nodup (index : Observations) (claims : List QuantityClaim) :
    ((invalidSources index claims).map fst).Nodup := by
  unfold invalidSources
  refine ((sortedBy_perm _ _).map fst).nodup_iff.2 ?_
  rw [map_map]
  exact groupBy_keys_nodup _ _

theorem malformedBundleClaim_ok :
    malformedBundleClaim index entry = .ok c ↔
      ∃ o slice, index.get entry.1 = some o ∧ QuantitySlice.make entry.1 0 o.principalMsat = .ok slice ∧
        c.toClaimFields = { claimId := malformedClaimId entry.1, source := slice, state := .custodySuspense,
                            priority := entry.2, reason := "malformed_claim_bundle" } := by
  unfold malformedBundleClaim
  cases found : index.get entry.1 with
  | none => simp
  | some o =>
    simp only [bind_ok, QuantityClaim.make_ok]
    constructor
    · rintro ⟨slice, built, same⟩
      exact ⟨o, slice, rfl, built, same⟩
    · rintro ⟨p, slice, observed, built, same⟩
      cases observed
      exact ⟨slice, built, same⟩

theorem malformedBundleClaim_total
    (found : index.get entry.1 = some o) (named : entry.1 ≠ "") (positive : 0 < o.principalMsat) :
    ∃ c, malformedBundleClaim index entry = .ok c := by
  obtain ⟨slice, built⟩ := QuantitySlice.make_total named le_rfl positive
  have id : malformedClaimId entry.1 ≠ "" := Lib.Text.append_ne_empty (by decide)
  have reason : "malformed_claim_bundle" ≠ "" := by decide
  obtain ⟨c, made⟩ := QuantityClaim.make_total (ClaimFields.suspense_constructible (c :=
    { claimId := malformedClaimId entry.1, source := slice, state := .custodySuspense,
      priority := entry.2, reason := "malformed_claim_bundle" }) id reason rfl rfl rfl ⟨rfl, rfl⟩ (by simp))
  exact ⟨c, malformedBundleClaim_ok.2 ⟨o, slice, found, built, QuantityClaim.make_ok.1 made⟩⟩

/-- Valid observations under distinct hashes: what the index of a run consists of. -/
structure ValidIndex (index : Observations) : Prop where
  valid : ∀ o ∈ index, o.Valid
  distinct : (index.map QuantityObservation.quantityHash).Nodup

namespace ValidIndex
variable {index : Observations} (good : ValidIndex index)
include good

variable {o : QuantityObservation}

theorem sound (member : o ∈ index) : o.Sound := QuantityObservation.valid_sound (good.valid o member)

theorem get (member : o ∈ index) : index.get o.quantityHash = some o := get_of_mem good.distinct member

theorem hash_nonempty (member : o ∈ index) : o.quantityHash ≠ "" := by
  intro empty
  have width := (good.sound member).hash_length
  rw [empty] at width
  exact absurd width (by decide)

theorem eq_of_hash {o p : QuantityObservation} (first : o ∈ index) (second : p ∈ index)
    (same : o.quantityHash = p.quantityHash) : o = p :=
  inj_on_of_nodup_map good.distinct first second same

end ValidIndex

theorem validatedInputs_ok {v : ValidatedInputs} :
    validatedInputs observations claims = .ok v ↔
      ValidIndex observations ∧ ∃ suspended,
        (invalidSources observations claims).mapM (malformedBundleClaim observations) = .ok suspended ∧
        v = { observations
              claims := sortedBy QuantityClaim.rank ((acceptedBundles observations claims).flatMap snd ++ suspended)
              errors := (rejectedBundles observations claims).map (bundleError observations claims) } := by
  simp only [validatedInputs, bind_ok, pure_ok, indexObservations_ok]
  constructor
  · rintro ⟨_, ⟨rfl, valid, distinct⟩, suspended, run, rfl⟩
    exact ⟨⟨valid, distinct⟩, suspended, run, rfl⟩
  · rintro ⟨good, suspended, run, rfl⟩
    exact ⟨observations, ⟨rfl, good.valid, good.distinct⟩, suspended, run, rfl⟩

theorem validatedInputs_eq (good : ValidIndex observations) (claims : List QuantityClaim) :
    validatedInputs observations claims =
      (fun suspended =>
        { observations
          claims := sortedBy QuantityClaim.rank ((acceptedBundles observations claims).flatMap snd ++ suspended)
          errors := (rejectedBundles observations claims).map (bundleError observations claims) }) <$>
        (invalidSources observations claims).mapM (malformedBundleClaim observations) := by
  have indexed : indexObservations observations = .ok observations :=
    indexObservations_ok.2 ⟨rfl, good.valid, good.distinct⟩
  unfold validatedInputs
  rw [indexed]
  simp only [bind, Except.bind]
  cases (invalidSources observations claims).mapM (malformedBundleClaim observations) <;> rfl

theorem invalidSource_observed (member : entry ∈ invalidSources observations claims) :
    ∃ o ∈ observations, o.direction = .outbound ∧ o.quantityHash = entry.1 := by
  obtain ⟨bundle, -, known⟩ := invalidSources_touched member
  obtain ⟨c, -, o, found, same⟩ := mem_knownSources.1 known
  obtain ⟨stored, outbound⟩ := outboundSource_some.1 found
  exact ⟨o, (get_some stored).1, outbound, same⟩

section
variable {observations : Observations} {claims : List QuantityClaim} {v : ValidatedInputs}
  (run : validatedInputs observations claims = .ok v)
include run

theorem validated_index : v.observations = observations ∧ ValidIndex observations := by
  obtain ⟨good, _, -, rfl⟩ := validatedInputs_ok.1 run
  exact ⟨rfl, good⟩

theorem validated_errors : v.errors = (rejectedBundles observations claims).map (bundleError observations claims) := by
  obtain ⟨-, _, -, rfl⟩ := validatedInputs_ok.1 run
  rfl

theorem mem_validated_claims {c : QuantityClaim} :
    c ∈ v.claims ↔ Accepted observations claims c ∨
      ∃ entry ∈ invalidSources observations claims, malformedBundleClaim observations entry = .ok c := by
  obtain ⟨-, suspended, made, rfl⟩ := validatedInputs_ok.1 run
  rw [mem_sortedBy, mem_append, mem_acceptedBundles]
  constructor
  · rintro (accepted | synthetic)
    · exact .inl accepted
    · exact .inr (mapM_outputs made synthetic)
  · rintro (accepted | ⟨entry, member, built⟩)
    · exact .inl accepted
    · obtain ⟨d, present, same⟩ := mapM_inputs made member
      rw [built] at same
      cases same
      exact .inr present

theorem validated_grounded {c : QuantityClaim} (member : c ∈ v.claims) : Grounded observations c := by
  rcases (mem_validated_claims run).1 member with accepted | ⟨entry, touched, built⟩
  · exact grounded_of_clean (accepted_clean accepted)
  · obtain ⟨o, slice, stored, made, fields⟩ := malformedBundleClaim_ok.1 built
    obtain ⟨p, present, outbound, same⟩ := invalidSource_observed touched
    obtain ⟨hash, bounds⟩ := QuantitySlice.make_ok.1 made
    have source : c.source = slice := congrArg ClaimFields.source fields
    have targetless : c.target = none := congrArg ClaimFields.target fields
    have found : observations.get entry.1 = some p := same ▸ (validated_index run).2.get present
    have equal : o = p := Option.some.inj (stored.symm.trans found)
    subst equal
    refine ⟨⟨o, outboundSource_some.2 ⟨by rw [source, hash]; exact stored, outbound⟩, ?_⟩, ?_⟩
    · rw [source, (Prod.mk.inj bounds).2]
    · intro t present
      rw [targetless] at present
      cases present

theorem rejected_source_suspended {bundle : String × List QuantityClaim}
    (rejected : bundle ∈ rejectedBundles observations claims) {o : QuantityObservation} (observed : o ∈ observations)
    (touched : o.quantityHash ∈ knownSources observations bundle.2) :
    ∃ c ∈ v.claims, c.claimId = malformedClaimId o.quantityHash ∧ c.state = .custodySuspense ∧
      c.source.observationHash = o.quantityHash ∧ c.source.range = (0, o.principalMsat) ∧
      c.priority.value ≤ (suspensePriority bundle.2).value := by
  obtain ⟨p, entry, rank⟩ := invalidSources_covers rejected touched
  obtain ⟨-, suspended, made, rfl⟩ := validatedInputs_ok.1 run
  obtain ⟨c, present, built⟩ := mapM_inputs made entry
  obtain ⟨stored, slice, found, sliced, fields⟩ := malformedBundleClaim_ok.1 built
  have equal : o = stored := Option.some.inj (((validated_index run).2.get observed).symm.trans found)
  subst equal
  obtain ⟨hash, bounds⟩ := QuantitySlice.make_ok.1 sliced
  refine ⟨c, mem_sortedBy.2 (mem_append_right _ present), ?_⟩
  rw [fields]
  exact ⟨rfl, rfl, hash, bounds, rank⟩

end

theorem validatedInputs_total_iff (good : ValidIndex observations) (claims : List QuantityClaim) :
    (∃ v, validatedInputs observations claims = .ok v) ↔
      ∀ c ∈ claims, ∀ o, outboundSource observations c = some o → o.principalMsat ≠ 0 := by
  constructor
  · rintro ⟨v, run⟩ c member o found empty
    -- The claim reaches past an empty principal, so its bundle is rejected and touches `o`.
    have rejected : (c.bundleId, bundleMembers claims c.bundleId) ∈ rejectedBundles observations claims := by
      refine mem_rejectedBundles.2 ⟨mem_claimBundles.2 ⟨rfl, c, member, rfl⟩, ?_⟩
      intro clean
      have quiet := accepted_clean ⟨member, clean⟩
      obtain ⟨p, same, inside⟩ := sourceFaults_nil (append_eq_nil_iff.1 quiet).1
      rw [found] at same
      cases same
      have low := c.source.start_nonneg
      have proper := c.source.start_lt_end
      omega
    obtain ⟨stored, -⟩ := outboundSource_some.1 found
    have touched : o.quantityHash ∈ knownSources observations (bundleMembers claims c.bundleId) :=
      mem_knownSources.2 ⟨c, mem_bundleMembers.2 ⟨member, rfl⟩, o, found, rfl⟩
    obtain ⟨d, -, -, -, -, bounds, -⟩ := rejected_source_suspended run rejected (get_some stored).1 touched
    have proper := d.source.start_lt_end
    obtain ⟨low, high⟩ := Prod.mk.inj bounds
    omega
  · intro nonempty
    have made : ∃ suspended,
        (invalidSources observations claims).mapM (malformedBundleClaim observations) = .ok suspended := by
      refine mapM_total ?_
      intro entry member
      obtain ⟨bundle, rejected, known⟩ := invalidSources_touched member
      obtain ⟨c, inside, o, found, same⟩ := mem_knownSources.1 known
      obtain ⟨stored, -⟩ := outboundSource_some.1 found
      have observed := (get_some stored).1
      have claimed : c ∈ claims := by
        rw [(mem_claimBundles.1 (mem_rejectedBundles.1 rejected).1).1] at inside
        exact (mem_bundleMembers.1 inside).1
      have positive : 0 < o.principalMsat :=
        lt_of_le_of_ne (good.sound observed).principal_nonneg (Ne.symm (nonempty c claimed o found))
      exact malformedBundleClaim_total (same ▸ good.get observed) (same ▸ good.hash_nonempty observed) positive
    obtain ⟨suspended, built⟩ := made
    exact ⟨_, validatedInputs_ok.2 ⟨good, suspended, built, rfl⟩⟩

end Kassiber.Custody

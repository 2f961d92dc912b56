import Kassiber.Lib.Dict
import Kassiber.Lib.Keyed
import Kassiber.Lib.Outcome
import Kassiber.Lib.PathHalving

/-!
Transfer candidates: one per edge, heuristic ones given up to exact ones on a common leg, and every survivor
stamped with the cluster of candidates that shared legs connect it with.
-/

namespace Kassiber.Transfers
open Lib.Dict Lib.Keyed Lib.Outcome Lib.Sorting Lib.UnionFind
open List hiding lookup

structure SwapCandidate where
  outId : String
  inId : String
  outAsset : String
  inAsset : String
  outAmountMsat : Int
  inAmountMsat : Int
  outWalletId : String
  inWalletId : String
  outWalletLabel : String
  inWalletLabel : String
  outWalletKind : String
  inWalletKind : String
  outOccurredAt : String
  inOccurredAt : String
  confidence : String
  method : String
  swapFeeMsat : Int
  swapFeeKind : String
  defaultKind : String
  defaultPolicy : String
  conflictSetId : String := ""
  conflictSize : Nat := 1
  evidenceProvider : String := ""
  evidenceId : String := ""
  evidenceKind : String := ""
  evidenceStatus : String := ""
  evidenceVersion : String := ""
  evidenceTaproot : String := ""
  evidenceCooperative : String := ""
  evidenceSpendPath : String := ""
  evidenceConflicts : List String := []
  evidenceSendAmountMsat : Option Int := none
  evidenceReceiveAmountMsat : Option Int := none
  deriving DecidableEq

def methodHtlcRefund : String := "htlc_refund"
def methodPaymentHash : String := "payment_hash"
def methodProviderSwapId : String := "provider_swap_id"
def methodOwnershipGraph : String := "ownership_graph"
def methodHeuristic : String := "heuristic"
def confidenceExact : String := "exact"
def confidenceStrong : String := "strong"

def methodRank (method : String) : Nat :=
  if method = methodHtlcRefund then 0
  else if method = methodPaymentHash then 1
  else if method = methodProviderSwapId then 2
  else if method = methodOwnershipGraph then 3
  else if method = methodHeuristic then 4
  else 99

def edgeOf (candidate : SwapCandidate) : String × String := (candidate.outId, candidate.inId)

def candidateRank (candidate : SwapCandidate) : Nat ×ₗ Nat :=
  toLex (if candidate.confidence = confidenceExact then 0 else 1, methodRank candidate.method)

def dedupeCandidateEdge (byEdge : List SwapCandidate) (candidate : SwapCandidate) : List SwapCandidate :=
  if (rowAt edgeOf byEdge (edgeOf candidate)).all fun current => candidateRank candidate < candidateRank current then
    putAt edgeOf byEdge candidate
  else byEdge

def dedupeCandidateEdges (candidates : List SwapCandidate) : List SwapCandidate :=
  candidates.foldl dedupeCandidateEdge []

def candidateKey (candidate : SwapCandidate) : String := candidate.outId ++ "->" ++ candidate.inId

/-- The exact candidates, then the others, without the heuristic ones on a leg of an exact one. -/
def survivingCandidates (candidates : List SwapCandidate) : List SwapCandidate :=
  let exacts := candidates.filter fun c => c.confidence = confidenceExact
  let consumedLegsByExact := exacts.flatMap fun c => [c.outId, c.inId]
  exacts ++ candidates.filter fun c => c.confidence ≠ confidenceExact ∧
    ¬ (c.method = methodHeuristic ∧ (c.outId ∈ consumedLegsByExact ∨ c.inId ∈ consumedLegsByExact))

def legEntries (surviving : List SwapCandidate) : List (String × String) :=
  surviving.flatMap fun c => [(c.outId, candidateKey c), (c.inId, candidateKey c)]

/-- A lookup, which rewrites the parents, and the size it counts up. -/
def countCluster (rounds : Nat) (progress : (String → String) × List (String × Nat)) (c : SwapCandidate) :
    (String → String) × List (String × Nat) :=
  let found := find rounds progress.1 (candidateKey c)
  (found.1, progress.2 ++ [(found.2, (lookup progress.2 found.2).getD 0 + 1)])

def stampCandidate (rounds : Nat) (sizes : List (String × Nat)) (progress : (String → String) × List SwapCandidate)
    (c : SwapCandidate) : (String → String) × List SwapCandidate :=
  let found := find rounds progress.1 (candidateKey c)
  (found.1, progress.2 ++ [{ c with conflictSetId := found.2, conflictSize := (lookup sizes found.2).getD 0 }])

def stampConflictSetIds (candidates : List SwapCandidate) : List SwapCandidate :=
  let surviving := survivingCandidates candidates
  let parents := (siblingEdges (legEntries surviving)).foldl (join surviving.length) id
  let counted := surviving.foldl (countCluster surviving.length) (parents, [])
  (surviving.foldl (stampCandidate surviving.length counted.2) (counted.1, [])).2

def finalizeCandidateConflicts (candidates : List SwapCandidate) : List SwapCandidate :=
  stampConflictSetIds (dedupeCandidateEdges candidates)

structure Deduped (candidates kept : List SwapCandidate) : Prop where
  distinct : (kept.map edgeOf).Nodup
  given : ∀ k ∈ kept, k ∈ candidates
  best : ∀ c ∈ candidates, ∃ k ∈ kept, edgeOf k = edgeOf c ∧ candidateRank k ≤ candidateRank c

theorem Deduped.step {done kept : List SwapCandidate} (state : Deduped done kept) (c : SwapCandidate) :
    Deduped (done ++ [c]) (dedupeCandidateEdge kept c) := by
  unfold dedupeCandidateEdge
  by_cases better : (rowAt edgeOf kept (edgeOf c)).all fun current => candidateRank c < candidateRank current
  · rw [if_pos better]
    have found : rowAt edgeOf (putAt edgeOf kept c) (edgeOf c) = some c := rowAt_putAt_same
    have stored := rowAt_mem found
    refine ⟨keys_putAt state.distinct, fun k member => ?_, fun other member => ?_⟩
    · rcases mem_putAt member with rfl | old
      · exact mem_append_right _ (mem_singleton_self k)
      · exact mem_append_left _ (state.given k old)
    · rcases mem_append.1 member with earlier | last
      · obtain ⟨k, old, same, le⟩ := state.best other earlier
        by_cases replaced : edgeOf k = edgeOf c
        · have current : rowAt edgeOf kept (edgeOf c) = some k := replaced ▸ rowAt_of_mem state.distinct old
          rw [current] at better
          have less : candidateRank c < candidateRank k := of_decide_eq_true better
          exact ⟨c, stored, replaced.symm.trans same, less.le.trans le⟩
        · have still := (rowAt_putAt_other replaced).trans (rowAt_of_mem state.distinct old)
          exact ⟨k, rowAt_mem still, same, le⟩
      · obtain rfl := mem_singleton.1 last
        exact ⟨other, stored, rfl, le_rfl⟩
  · rw [if_neg better]
    refine ⟨state.distinct, fun k member => mem_append_left _ (state.given k member), fun other member => ?_⟩
    rcases mem_append.1 member with earlier | last
    · exact state.best other earlier
    · obtain rfl := mem_singleton.1 last
      cases current : rowAt edgeOf kept (edgeOf other) with
      | none =>
        rw [current] at better
        exact absurd rfl better
      | some k =>
        rw [current, Option.all_some, decide_eq_true_eq, not_lt] at better
        exact ⟨k, rowAt_mem current, rowAt_key current, better⟩

theorem dedupeCandidateEdges_deduped (candidates : List SwapCandidate) :
    Deduped candidates (dedupeCandidateEdges candidates) :=
  foldl_prefix Deduped ⟨nodup_nil, fun _ member => member, fun _ member => nomatch member⟩
    fun _ c _ _ _ state => state.step c

section
variable {candidates kept others : List SwapCandidate}

theorem Deduped.rank_le (state : Deduped candidates kept) {k c : SwapCandidate} (member : k ∈ kept) (given : c ∈ candidates)
    (same : edgeOf k = edgeOf c) : candidateRank k ≤ candidateRank c := by
  obtain ⟨other, stored, same', le⟩ := state.best c given
  rwa [inj_on_of_nodup_map state.distinct member stored (same.trans same'.symm)]

theorem Deduped.perm (state : Deduped candidates kept) {kept' : List SwapCandidate} (state' : Deduped others kept')
    (perm : others.Perm candidates)
    (untied : ∀ c ∈ candidates, ∀ d ∈ candidates, edgeOf c = edgeOf d → candidateRank c = candidateRank d → c = d) :
    kept'.Perm kept := by
  have among : ∀ {c}, c ∈ kept' → c ∈ kept := by
    intro c member
    have given := perm.mem_iff.1 (state'.given c member)
    obtain ⟨k, stored, same, le⟩ := state.best c given
    have ge := state'.rank_le member (perm.mem_iff.2 (state.given k stored)) same.symm
    rwa [untied c given k (state.given k stored) same.symm (ge.antisymm le)]
  have back : ∀ {c}, c ∈ kept → c ∈ kept' := by
    intro c member
    have given := state.given c member
    obtain ⟨k, stored, same, le⟩ := state'.best c (perm.mem_iff.2 given)
    have given' := perm.mem_iff.1 (state'.given k stored)
    have ge := state.rank_le member given' same.symm
    rwa [untied c given k given' same.symm (ge.antisymm le)]
  exact (perm_ext_iff_of_nodup (List.Nodup.of_map _ state'.distinct) (List.Nodup.of_map _ state.distinct)).2
    fun c => ⟨among, back⟩

end

def SharesLeg (c d : SwapCandidate) : Prop :=
  c.outId = d.outId ∨ c.outId = d.inId ∨ c.inId = d.outId ∨ c.inId = d.inId

theorem SharesLeg.symm {c d : SwapCandidate} (shares : SharesLeg c d) : SharesLeg d c := by
  rcases shares with same | same | same | same
  · exact .inl same.symm
  · exact .inr (.inr (.inl same.symm))
  · exact .inr (.inl same.symm)
  · exact .inr (.inr (.inr same.symm))

def Dropped (kept : List SwapCandidate) (c : SwapCandidate) : Prop :=
  c.confidence ≠ confidenceExact ∧ c.method = methodHeuristic ∧
    ∃ e ∈ kept, e.confidence = confidenceExact ∧ SharesLeg c e

section
variable {kept : List SwapCandidate}

theorem consumed_iff {c : SwapCandidate} :
    (c.outId ∈ (kept.filter fun c => c.confidence = confidenceExact).flatMap (fun c => [c.outId, c.inId]) ∨
      c.inId ∈ (kept.filter fun c => c.confidence = confidenceExact).flatMap fun c => [c.outId, c.inId]) ↔
    ∃ e ∈ kept, e.confidence = confidenceExact ∧ SharesLeg c e := by
  simp only [mem_flatMap, mem_filter, decide_eq_true_eq, mem_cons, not_mem_nil, or_false, SharesLeg]
  constructor
  · rintro (⟨e, ⟨member, exact'⟩, same | same⟩ | ⟨e, ⟨member, exact'⟩, same | same⟩)
    · exact ⟨e, member, exact', .inl same⟩
    · exact ⟨e, member, exact', .inr (.inl same)⟩
    · exact ⟨e, member, exact', .inr (.inr (.inl same))⟩
    · exact ⟨e, member, exact', .inr (.inr (.inr same))⟩
  · rintro ⟨e, member, exact', same | same | same | same⟩
    · exact .inl ⟨e, ⟨member, exact'⟩, .inl same⟩
    · exact .inl ⟨e, ⟨member, exact'⟩, .inr same⟩
    · exact .inr ⟨e, ⟨member, exact'⟩, .inl same⟩
    · exact .inr ⟨e, ⟨member, exact'⟩, .inr same⟩

theorem mem_survivingCandidates {c : SwapCandidate} : c ∈ survivingCandidates kept ↔ c ∈ kept ∧ ¬ Dropped kept c := by
  unfold survivingCandidates Dropped
  dsimp only
  rw [mem_append, mem_filter, mem_filter, decide_eq_true_eq, decide_eq_true_eq, consumed_iff]
  by_cases isExact : c.confidence = confidenceExact
  · simp [isExact]
  · simp [isExact]

theorem survivingCandidates_nodup (distinct : kept.Nodup) : (survivingCandidates kept).Nodup := by
  refine nodup_append.2 ⟨distinct.filter _, distinct.filter _, fun c first d second => ?_⟩
  rintro rfl
  exact (of_decide_eq_true (mem_filter.1 second).2).1 (of_decide_eq_true (mem_filter.1 first).2)

theorem survivingCandidates_perm {kept' : List SwapCandidate} (perm : kept'.Perm kept) (distinct : kept.Nodup) :
    (survivingCandidates kept').Perm (survivingCandidates kept) := by
  refine (perm_ext_iff_of_nodup (survivingCandidates_nodup (perm.nodup_iff.2 distinct))
    (survivingCandidates_nodup distinct)).2 fun c => ?_
  rw [mem_survivingCandidates, mem_survivingCandidates]
  unfold Dropped
  simp only [perm.mem_iff]

end

section
variable {surviving : List SwapCandidate}

theorem mem_legEntries {leg x : String} : (leg, x) ∈ legEntries surviving ↔
    ∃ c ∈ surviving, (c.outId = leg ∨ c.inId = leg) ∧ candidateKey c = x := by
  unfold legEntries
  simp only [mem_flatMap, mem_cons, not_mem_nil, or_false, Prod.mk.injEq]
  constructor
  · rintro ⟨c, member, ⟨rfl, rfl⟩ | ⟨rfl, rfl⟩⟩
    · exact ⟨c, member, .inl rfl, rfl⟩
    · exact ⟨c, member, .inr rfl, rfl⟩
  · rintro ⟨c, member, rfl | rfl, rfl⟩
    · exact ⟨c, member, .inl ⟨rfl, rfl⟩⟩
    · exact ⟨c, member, .inr ⟨rfl, rfl⟩⟩

/-- The stamp of a survivor, from the root of its key and the number of survivors with that root. -/
def stampOf (root : String → String) (surviving : List SwapCandidate) (c : SwapCandidate) : SwapCandidate :=
  { c with
    conflictSetId := root (candidateKey c)
    conflictSize := (surviving.filter fun d => root (candidateKey d) = root (candidateKey c)).length }

theorem parents_represent :
    Represents (surviving.map candidateKey) (unions (siblingEdges (legEntries surviving)))
      ((siblingEdges (legEntries surviving)).foldl (join surviving.length) id) := by
  have keyed : ∀ {leg x}, (leg, x) ∈ legEntries surviving → x ∈ surviving.map candidateKey := by
    intro leg x entry
    obtain ⟨c, member, -, rfl⟩ := mem_legEntries.1 entry
    exact mem_map_of_mem member
  have ends : ∀ edge ∈ siblingEdges (legEntries surviving),
      edge.1 ∈ surviving.map candidateKey ∧ edge.2 ∈ surviving.map candidateKey := by
    intro edge member
    obtain ⟨leg, left, right⟩ := siblings_share member
    exact ⟨keyed left, keyed right⟩
  have joined := joins_spec ends
  rwa [length_map] at joined

section
variable {root parent : String → String} (state : Represents (surviving.map candidateKey) root parent)
include state

theorem find_survivor {c : SwapCandidate} (member : c ∈ surviving) :
    (find surviving.length parent (candidateKey c)).2 = root (candidateKey c) ∧
      Represents (surviving.map candidateKey) root (find surviving.length parent (candidateKey c)).1 := by
  have enough : ((surviving.map candidateKey).filter (· < candidateKey c)).length ≤ surviving.length :=
    (length_filter_le _ _).trans (length_map _).le
  obtain ⟨found, -, halved⟩ := state.find_spec (mem_map_of_mem member) enough
  exact ⟨found, halved⟩

theorem counted_spec :
    Represents (surviving.map candidateKey) root (surviving.foldl (countCluster surviving.length) (parent, [])).1 ∧
      ∀ cluster, (lookup (surviving.foldl (countCluster surviving.length) (parent, [])).2 cluster).getD 0 =
        (surviving.filter fun d => root (candidateKey d) = cluster).length := by
  refine foldl_prefix (fun done (progress : (String → String) × List (String × Nat)) =>
    Represents (surviving.map candidateKey) root progress.1 ∧
      ∀ cluster, (lookup progress.2 cluster).getD 0 = (done.filter fun d => root (candidateKey d) = cluster).length)
    ⟨state, fun _ => rfl⟩ fun done c rest progress whole held => ?_
  obtain ⟨represents, sizes⟩ := held
  have member : c ∈ surviving := by rw [whole]; exact mem_append_right _ mem_cons_self
  obtain ⟨found, halved⟩ := find_survivor represents member
  refine ⟨halved, fun cluster => ?_⟩
  unfold countCluster
  dsimp only
  rw [found, lookup_assigned, filter_append, length_append, sizes]
  by_cases same : root (candidateKey c) = cluster
  · rw [if_pos same, same, filter_cons, if_pos (decide_eq_true same)]
    rfl
  · rw [if_neg same, sizes, filter_cons, if_neg (by simpa using same)]
    rfl

theorem stamped_spec {sizes : List (String × Nat)}
    (counts : ∀ cluster, (lookup sizes cluster).getD 0 = (surviving.filter fun d => root (candidateKey d) = cluster).length) :
    (surviving.foldl (stampCandidate surviving.length sizes) (parent, [])).2 =
      surviving.map (stampOf root surviving) := by
  refine ( foldl_prefix (fun done (progress : (String → String) × List SwapCandidate) =>
    Represents (surviving.map candidateKey) root progress.1 ∧ progress.2 = done.map (stampOf root surviving))
    ⟨state, rfl⟩ fun done c rest progress whole held => ?_).2
  obtain ⟨represents, stamped⟩ := held
  have member : c ∈ surviving := by rw [whole]; exact mem_append_right _ mem_cons_self
  obtain ⟨found, halved⟩ := find_survivor represents member
  refine ⟨halved, ?_⟩
  unfold stampCandidate
  dsimp only
  rw [found, stamped, counts, map_append]
  rfl

end

theorem stampConflictSetIds_eq (candidates : List SwapCandidate) :
    let surviving := survivingCandidates candidates
    stampConflictSetIds candidates = surviving.map (stampOf (unions (siblingEdges (legEntries surviving))) surviving) := by
  intro surviving
  obtain ⟨represents, counts⟩ := counted_spec (@parents_represent (survivingCandidates candidates))
  exact stamped_spec represents counts

def Clustered (surviving : List SwapCandidate) : SwapCandidate → SwapCandidate → Prop :=
  Relation.ReflTransGen fun c d => (c ∈ surviving ∧ d ∈ surviving) ∧ SharesLeg c d

variable {c d : SwapCandidate}

theorem Clustered.symm (clustered : Clustered surviving c d) : Clustered surviving d c := by
  induction clustered with
  | refl => exact .refl
  | tail _ link ih => exact (Relation.ReflTransGen.single ⟨link.1.symm, link.2.symm⟩).trans ih

theorem connected_of_clustered (clustered : Clustered surviving c d) :
    Connected (siblingEdges (legEntries surviving)) (candidateKey c) (candidateKey d) := by
  induction clustered with
  | refl => exact .refl _
  | @tail d e _ link ih =>
    obtain ⟨⟨left, right⟩, shares⟩ := link
    refine ih.trans ?_
    have onLeg : ∀ {leg}, (d.outId = leg ∨ d.inId = leg) → (e.outId = leg ∨ e.inId = leg) →
        Connected (siblingEdges (legEntries surviving)) (candidateKey d) (candidateKey e) := fun first second =>
      siblings_connected (mem_legEntries.2 ⟨d, left, first, rfl⟩) (mem_legEntries.2 ⟨e, right, second, rfl⟩)
    rcases shares with same | same | same | same
    · exact onLeg (.inl same) (.inl rfl)
    · exact onLeg (.inl same) (.inr rfl)
    · exact onLeg (.inr same) (.inl rfl)
    · exact onLeg (.inr same) (.inr rfl)

theorem clustered_of_connected (injective : ∀ c ∈ surviving, ∀ d ∈ surviving, candidateKey c = candidateKey d → c = d)
    {x y : String} (connected : Connected (siblingEdges (legEntries surviving)) x y) :
    x = y ∨ ∃ c ∈ surviving, ∃ d ∈ surviving, candidateKey c = x ∧ candidateKey d = y ∧ Clustered surviving c d := by
  induction connected with
  | rel x y edge =>
    obtain ⟨leg, left, right⟩ := siblings_share edge
    obtain ⟨c, first, onLeg, rfl⟩ := mem_legEntries.1 left
    obtain ⟨d, second, onLeg', rfl⟩ := mem_legEntries.1 right
    have shares : SharesLeg c d := by
      rcases onLeg with here | here <;> rcases onLeg' with there | there
      · exact .inl (here.trans there.symm)
      · exact .inr (.inl (here.trans there.symm))
      · exact .inr (.inr (.inl (here.trans there.symm)))
      · exact .inr (.inr (.inr (here.trans there.symm)))
    exact .inr ⟨c, first, d, second, rfl, rfl, .single ⟨⟨first, second⟩, shares⟩⟩
  | refl x => exact .inl rfl
  | symm x y _ ih =>
    rcases ih with same | ⟨c, first, d, second, left, right, clustered⟩
    · exact .inl same.symm
    · exact .inr ⟨d, second, c, first, right, left, clustered.symm⟩
  | trans x y z _ _ ih ih' =>
    rcases ih with rfl | ⟨c, first, d, second, left, right, clustered⟩
    · exact ih'
    · rcases ih' with rfl | ⟨d', first', e, second', left', right', clustered'⟩
      · exact .inr ⟨c, first, d, second, left, right, clustered⟩
      · obtain rfl := injective d second d' first' (right.trans left'.symm)
        exact .inr ⟨c, first, e, second', left, right', clustered.trans clustered'⟩

theorem same_root_iff (injective : ∀ c ∈ surviving, ∀ d ∈ surviving, candidateKey c = candidateKey d → c = d)
    (left : c ∈ surviving) (right : d ∈ surviving) :
    unions (siblingEdges (legEntries surviving)) (candidateKey c) =
      unions (siblingEdges (legEntries surviving)) (candidateKey d) ↔ Clustered surviving c d := by
  rw [unions_same]
  refine ⟨fun connected => ?_, connected_of_clustered⟩
  rcases clustered_of_connected injective connected with same | ⟨c', first, d', second, keyC, keyD, clustered⟩
  · rw [injective c left d right same]
    exact .refl
  · rwa [injective c left c' first keyC.symm, injective d right d' second keyD.symm]

/-- A survivor stamped with the least key of its cluster and the cluster's size. -/
structure Stamped (surviving : List SwapCandidate) (c stamped : SwapCandidate) : Prop where
  same : stamped = { c with conflictSetId := stamped.conflictSetId, conflictSize := stamped.conflictSize }
  least : IsLeast { key | ∃ d ∈ surviving, Clustered surviving c d ∧ key = candidateKey d } stamped.conflictSetId
  size : stamped.conflictSize = Set.ncard { d | d ∈ surviving ∧ Clustered surviving c d }

theorem Stamped.unique {surviving' : List SwapCandidate} (perm : surviving'.Perm surviving) {stamped stamped' : SwapCandidate}
    (first : Stamped surviving c stamped) (second : Stamped surviving' c stamped') : stamped' = stamped := by
  have clusters : Clustered surviving' = Clustered surviving := by
    unfold Clustered
    simp only [perm.mem_iff]
  have least := second.least
  have size := second.size
  simp only [perm.mem_iff, clusters] at least size
  rw [second.same, first.same, least.unique first.least, size, first.size]

theorem stampOf_stamped (distinct : surviving.Nodup)
    (injective : ∀ c ∈ surviving, ∀ d ∈ surviving, candidateKey c = candidateKey d → c = d)
    (member : c ∈ surviving) :
    Stamped surviving c (stampOf (unions (siblingEdges (legEntries surviving))) surviving c) where
  same := rfl
  least := by
    refine ⟨?_, fun key ⟨d, _, clustered, same⟩ => same ▸ unions_least (connected_of_clustered clustered)⟩
    rcases clustered_of_connected injective (unions_connected _ (candidateKey c)) with own | ⟨d, inside, e, second, keyD, keyE, clustered⟩
    · exact ⟨c, member, .refl, own⟩
    · obtain rfl := injective e second c member keyE
      exact ⟨d, inside, clustered.symm, keyD.symm⟩
  size := by
    have cluster : { d | d ∈ surviving ∧ Clustered surviving c d } = ↑(surviving.filter fun d =>
        unions (siblingEdges (legEntries surviving)) (candidateKey d) =
          unions (siblingEdges (legEntries surviving)) (candidateKey c)).toFinset := by
      ext d
      simp only [Set.mem_ofPred_eq, coe_toFinset, mem_filter, decide_eq_true_eq]
      exact and_congr_right fun inside => ⟨fun clustered => (same_root_iff injective inside member).2 clustered.symm,
        fun same => ((same_root_iff injective inside member).1 same).symm⟩
    rw [cluster, Set.ncard_coe_finset, toFinset_card_of_nodup (distinct.filter _)]
    rfl

end

theorem arrow_split {xs ys xs' ys' : List Char} (plain : ¬ ['-', '>'] <:+: xs) (plain' : ¬ ['-', '>'] <:+: xs')
    (same : xs ++ '-' :: '>' :: ys = xs' ++ '-' :: '>' :: ys') : xs = xs' ∧ ys = ys' := by
  have shifted : ∀ {left right more rest rest' : List Char}, ¬ ['-', '>'] <:+: right → right = left ++ more →
      '-' :: '>' :: rest = more ++ '-' :: '>' :: rest' → more = [] := by
    intro left right more rest rest' without split tail
    cases more with
    | nil => rfl
    | cons first more =>
      cases more with
      | nil => simp at tail
      | cons second more =>
        simp only [cons_append, List.cons.injEq] at tail
        obtain ⟨rfl, rfl, -⟩ := tail
        exact absurd ⟨left, more, by simp [split]⟩ without
  rcases append_eq_append_iff.1 same with ⟨more, split, tail⟩ | ⟨more, split, tail⟩
  · obtain rfl := shifted plain' split tail
    rw [append_nil] at split
    rw [nil_append] at tail
    exact ⟨split.symm, by simpa using tail⟩
  · obtain rfl := shifted plain split tail
    rw [append_nil] at split
    rw [nil_append] at tail
    exact ⟨split, by simpa using tail.symm⟩

theorem candidateKey_edge {c d : SwapCandidate} (plain : ¬ ['-', '>'] <:+: c.outId.toList)
    (plain' : ¬ ['-', '>'] <:+: d.outId.toList) (same : candidateKey c = candidateKey d) : edgeOf c = edgeOf d := by
  have chars := congrArg String.toList same
  simp only [candidateKey, String.toList_append, List.append_assoc] at chars
  obtain ⟨out, into⟩ := arrow_split plain plain' chars
  exact Prod.ext (String.toList_inj.1 out) (String.toList_inj.1 into)

section
variable {candidates : List SwapCandidate}

def PlainIds (c : SwapCandidate) : Prop := ¬ ['-', '>'] <:+: c.outId.toList ∧ ¬ ['-', '>'] <:+: c.inId.toList

instance (c : SwapCandidate) : Decidable (PlainIds c) := inferInstanceAs (Decidable (_ ∧ _))

theorem survivors_stamped (plain : ∀ c ∈ candidates, PlainIds c) {c : SwapCandidate}
    (member : c ∈ survivingCandidates (dedupeCandidateEdges candidates)) :
    Stamped (survivingCandidates (dedupeCandidateEdges candidates)) c
      (stampOf (unions (siblingEdges (legEntries (survivingCandidates (dedupeCandidateEdges candidates)))))
        (survivingCandidates (dedupeCandidateEdges candidates)) c) := by
  have deduped := dedupeCandidateEdges_deduped candidates
  refine stampOf_stamped (survivingCandidates_nodup (List.Nodup.of_map _ deduped.distinct)) (fun c first d second same => ?_)
    member
  have keptC := (mem_survivingCandidates.1 first).1
  have keptD := (mem_survivingCandidates.1 second).1
  exact inj_on_of_nodup_map deduped.distinct keptC keptD
    (candidateKey_edge (plain c (deduped.given c keptC)).1 (plain d (deduped.given d keptD)).1 same)

theorem finalize_candidate_conflicts_clusters (plain : ∀ c ∈ candidates, PlainIds c) :
    let kept := dedupeCandidateEdges candidates
    let survivors := survivingCandidates kept
    ((kept.map edgeOf).Nodup ∧ (∀ k ∈ kept, k ∈ candidates) ∧
      ∀ c ∈ candidates, ∃ k ∈ kept, edgeOf k = edgeOf c ∧ candidateRank k ≤ candidateRank c) ∧
    (survivors.Nodup ∧ ∀ c, c ∈ survivors ↔ c ∈ kept ∧ ¬ Dropped kept c) ∧
    List.Forall₂ (Stamped survivors) survivors (finalizeCandidateConflicts candidates) ∧
    ((∀ c ∈ candidates, ∀ d ∈ candidates, edgeOf c = edgeOf d → candidateRank c = candidateRank d → c = d) →
      ∀ others, others.Perm candidates →
        (finalizeCandidateConflicts others).Perm (finalizeCandidateConflicts candidates)) := by
  intro kept survivors
  have deduped : Deduped candidates kept := dedupeCandidateEdges_deduped candidates
  have distinct : kept.Nodup := List.Nodup.of_map _ deduped.distinct
  refine ⟨⟨deduped.distinct, deduped.given, deduped.best⟩,
    ⟨survivingCandidates_nodup distinct, fun c => mem_survivingCandidates⟩, ?_, fun untied others perm => ?_⟩
  · rw [finalizeCandidateConflicts, stampConflictSetIds_eq, forall₂_map_right_iff, forall₂_same]
    exact fun c member => survivors_stamped plain member
  · have reordered := survivingCandidates_perm
      (deduped.perm (dedupeCandidateEdges_deduped others) perm untied) distinct
    rw [finalizeCandidateConflicts, finalizeCandidateConflicts, stampConflictSetIds_eq, stampConflictSetIds_eq]
    have same : ∀ c ∈ survivingCandidates (dedupeCandidateEdges others), _ := fun c member =>
      (survivors_stamped plain (reordered.mem_iff.1 member)).unique reordered
        (survivors_stamped (fun c given => plain c (perm.mem_iff.1 given)) member)
    rw [map_congr_left same]
    exact reordered.map _

/-- Two pairings of one outbound row, and the exact pairing of another row. -/
theorem finalize_candidate_conflicts_clusters_shared :
    let candidate := fun (outId inId confidence method : String) => ({
      outId, inId, outAsset := "BTC", inAsset := "BTC", outAmountMsat := 5, inAmountMsat := 5
      outWalletId := "w1", inWalletId := "w2", outWalletLabel := "", inWalletLabel := "", outWalletKind := ""
      inWalletKind := "", outOccurredAt := "", inOccurredAt := "", confidence, method, swapFeeMsat := 0
      swapFeeKind := "", defaultKind := "", defaultPolicy := "" } : SwapCandidate)
    let candidates := [candidate "o1" "i1" confidenceStrong methodHeuristic,
      candidate "o1" "i2" confidenceStrong methodHeuristic, candidate "o2" "i3" confidenceExact methodPaymentHash,
      candidate "o2" "i2" confidenceStrong methodHeuristic, candidate "o2" "i3" confidenceStrong methodHeuristic]
    (finalizeCandidateConflicts candidates.reverse).Perm (finalizeCandidateConflicts candidates) ∧
      (finalizeCandidateConflicts candidates).map (fun c => (c.conflictSetId, c.conflictSize)) =
        [("o2->i3", 1), ("o1->i1", 2), ("o1->i1", 2)] := by
  intro candidate candidates
  have plain : ∀ c ∈ candidates, PlainIds c := by decide
  exact ⟨(finalize_candidate_conflicts_clusters plain).2.2.2 (by decide) _ (reverse_perm _), by decide⟩

end

end Kassiber.Transfers

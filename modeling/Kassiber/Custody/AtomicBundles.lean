import Kassiber.Custody.DestinationOverlaps

/-!
A bundle is selected as a whole or not at all.
-/

namespace Kassiber.Custody
open Lib.Sorting List

structure SelectedClaimTotals where
  sourceAmountMsat : Int
  targetAmountMsat : Int
  hasTarget : Bool

def selecting (decisions : List ArbitratedSlice) (id : String) : List ArbitratedSlice :=
  decisions.filter fun d => d.selectedClaimId = some id

def sourceMsat (decisions : List ArbitratedSlice) : Int := (decisions.map (·.source.amountMsat)).sum

def targetMsat (decisions : List ArbitratedSlice) : Int :=
  ((decisions.filterMap (·.target)).map QuantitySlice.amountMsat).sum

def selectedClaimTotals (decisions : List ArbitratedSlice) (id : String) : Option SelectedClaimTotals :=
  let selected := selecting decisions id
  if selected = [] then none
  else some
    { sourceAmountMsat := sourceMsat selected
      targetAmountMsat := targetMsat selected
      hasTarget := selected.any fun d => d.target.isSome }

def claimFullySelected (c : QuantityClaim) (totals : String → Option SelectedClaimTotals) : Bool :=
  match totals c.claimId with
  | none => false
  | some selected =>
    if selected.sourceAmountMsat ≠ c.source.amountMsat then false
    else match c.target with
      | none => !selected.hasTarget
      | some t => decide (selected.targetAmountMsat = t.amountMsat)

def bundleClaims (claims : List QuantityClaim) (bundle : String) : List QuantityClaim :=
  claims.filter fun c => c.effectiveBundleId = some bundle

/-- The ids of bundles with a member that is not selected on its entire range. -/
def invalidBundles (decisions : List ArbitratedSlice) (claims : List QuantityClaim) : List String :=
  (claims.filterMap (·.effectiveBundleId)).filter fun bundle =>
    !(bundleClaims claims bundle).all fun c => claimFullySelected c (selectedClaimTotals decisions)

/-- The invalid bundle of a claim id; of two claims with one id the later one counts. -/
def claimToBundle (decisions : List ArbitratedSlice) (claims : List QuantityClaim) (id : String) : Option String :=
  ((claims.filter fun c => ∃ b ∈ c.effectiveBundleId, b ∈ invalidBundles decisions claims).reverse.find?
    fun c => c.claimId = id).bind (·.effectiveBundleId)

def withdraw (decisions : List ArbitratedSlice) (claims : List QuantityClaim) (d : ArbitratedSlice) :
    ArbitratedSlice :=
  match claimToBundle decisions claims (d.selectedClaimId.getD "") with
  | none => d
  | some bundle => d.demote "atomic_bundle_incomplete"
      (sortedSet (d.contenderClaimIds ++ sortedBy id ((bundleClaims claims bundle).map (·.claimId))))

def failClosedAtomicBundles (decisions : List ArbitratedSlice) (claims : List QuantityClaim) : List ArbitratedSlice :=
  decisions.map (withdraw decisions claims)

theorem withdraw_reconciled (decisions : List ArbitratedSlice) (claims : List QuantityClaim) (d : ArbitratedSlice) :
    Reconciled d (withdraw decisions claims d) := by
  unfold withdraw
  split
  · exact .inl rfl
  · exact .inr ⟨_, _, rfl⟩

theorem bundles_reconciled (decisions : List ArbitratedSlice) (claims : List QuantityClaim) :
    Forall₂ Reconciled decisions (failClosedAtomicBundles decisions claims) := by
  unfold failClosedAtomicBundles
  rw [forall₂_map_right_iff]
  exact forall₂_same.2 fun d _ => withdraw_reconciled decisions claims d

theorem reconciled_targets {before after : List ArbitratedSlice} (steps : Forall₂ Reconciled before after) :
    (after.filterMap (·.target)).Sublist (before.filterMap (·.target)) := by
  induction steps with
  | nil => exact .slnil
  | @cons d e _ _ head _ ih =>
    rcases head with rfl | ⟨_, _, rfl⟩
    · cases kept : e.target with
      | none => simpa [filterMap_cons, kept] using ih
      | some t => simpa [filterMap_cons, kept] using ih
    · cases lost : d.target with
      | none => simpa [filterMap_cons, ArbitratedSlice.demote, lost] using ih
      | some t => simpa [filterMap_cons, ArbitratedSlice.demote, lost] using ih.cons t

variable {decisions : List ArbitratedSlice} {claims : List QuantityClaim} {id bundle : String}

theorem withdraw_selects {d : ArbitratedSlice} : (withdraw decisions claims d).selectedClaimId = some id ↔
      d.selectedClaimId = some id ∧ claimToBundle decisions claims id = none := by
  unfold withdraw
  split
  · rename_i valid
    constructor
    · intro selects
      rw [selects] at valid
      exact ⟨selects, valid⟩
    · exact fun facts => facts.1
  · rename_i bundle invalid
    simp only [ArbitratedSlice.demote, reduceCtorEq, false_iff, not_and]
    intro selects
    rw [selects] at invalid
    simp only [Option.getD_some] at invalid
    simp [invalid]

theorem withdraw_of_valid {d : ArbitratedSlice}
    (valid : claimToBundle decisions claims (d.selectedClaimId.getD "") = none) :
    withdraw decisions claims d = d := by
  simp [withdraw, valid]

theorem selecting_bundles (decisions : List ArbitratedSlice) (claims : List QuantityClaim) (id : String) :
    selecting (failClosedAtomicBundles decisions claims) id =
      if claimToBundle decisions claims id = none then selecting decisions id else [] := by
  unfold selecting failClosedAtomicBundles
  rw [filter_map]
  split
  · rename_i valid
    have same : decisions.filter ((fun d => decide (d.selectedClaimId = some id)) ∘ withdraw decisions claims) =
        decisions.filter fun d => d.selectedClaimId = some id :=
      filter_congr fun d _ => by simp [withdraw_selects, valid]
    rw [same]
    refine (map_congr_left ?_).trans (map_id _)
    intro d member
    have selects : d.selectedClaimId = some id := by simpa using (mem_filter.1 member).2
    exact withdraw_of_valid (by rw [selects]; exact valid)
  · rename_i invalid
    rw [map_eq_nil_iff, filter_eq_nil_iff]
    intro d _
    simp [withdraw_selects, invalid]

theorem totals_bundles (decisions : List ArbitratedSlice) (claims : List QuantityClaim) (id : String) :
    selectedClaimTotals (failClosedAtomicBundles decisions claims) id =
      if claimToBundle decisions claims id = none then selectedClaimTotals decisions id else none := by
  unfold selectedClaimTotals
  rw [selecting_bundles]
  split <;> simp

theorem mem_invalidBundles :
    bundle ∈ invalidBundles decisions claims ↔
      ∃ c ∈ claims, c.effectiveBundleId = some bundle ∧
        claimFullySelected c (selectedClaimTotals decisions) = false := by
  simp only [invalidBundles, bundleClaims, mem_filter, mem_filterMap, Bool.not_eq_true',
    all_eq_false, decide_eq_true_eq, Bool.not_eq_true]
  constructor
  · rintro ⟨-, c, ⟨member, bundled⟩, short⟩
    exact ⟨c, member, bundled, short⟩
  · rintro ⟨c, member, bundled, short⟩
    exact ⟨⟨c, member, bundled⟩, c, ⟨member, bundled⟩, short⟩

theorem claimToBundle_some (distinct : (claims.map (·.claimId)).Nodup) {c : QuantityClaim} (member : c ∈ claims) :
    claimToBundle decisions claims c.claimId = some bundle ↔
      c.effectiveBundleId = some bundle ∧ bundle ∈ invalidBundles decisions claims := by
  unfold claimToBundle
  rw [Option.bind_eq_some_iff]
  constructor
  · rintro ⟨d, found, bundled⟩
    have present := mem_filter.1 (mem_reverse.1 (mem_of_find?_eq_some found))
    have same : d.claimId = c.claimId := by simpa using find?_some found
    have equal : d = c := inj_on_of_nodup_map distinct present.1 member same
    obtain ⟨b, held, invalid⟩ := of_decide_eq_true present.2
    subst equal
    rw [bundled] at held
    cases held
    exact ⟨bundled, invalid⟩
  · rintro ⟨bundled, invalid⟩
    have listed : c ∈ (claims.filter fun c =>
        ∃ b ∈ c.effectiveBundleId, b ∈ invalidBundles decisions claims).reverse :=
      mem_reverse.2 (mem_filter.2 ⟨member, decide_eq_true ⟨bundle, bundled, invalid⟩⟩)
    cases found : (claims.filter fun c =>
        ∃ b ∈ c.effectiveBundleId, b ∈ invalidBundles decisions claims).reverse.find? fun d => d.claimId = c.claimId with
    | none => exact absurd (decide_eq_true rfl) (List.find?_eq_none.1 found c listed)
    | some d =>
      have present := mem_filter.1 (mem_reverse.1 (mem_of_find?_eq_some found))
      have same : d.claimId = c.claimId := by simpa using find?_some found
      exact ⟨d, rfl, inj_on_of_nodup_map distinct present.1 member same ▸ bundled⟩

theorem claimToBundle_unclaimed
    (unclaimed : ∀ c ∈ claims, c.claimId ≠ id) : claimToBundle decisions claims id = none := by
  unfold claimToBundle
  rw [Option.bind_eq_none_iff]
  intro c found
  have present := mem_filter.1 (mem_reverse.1 (mem_of_find?_eq_some found))
  exact absurd (by simpa using find?_some found) (unclaimed c present.1)

section
variable {decisions : List ArbitratedSlice} {claims : List QuantityClaim} (distinct : (claims.map (·.claimId)).Nodup)
include distinct

theorem member_totals {c : QuantityClaim} (member : c ∈ claims) {bundle : String}
    (bundled : c.effectiveBundleId = some bundle) :
    selectedClaimTotals (failClosedAtomicBundles decisions claims) c.claimId =
      if bundle ∈ invalidBundles decisions claims then none else selectedClaimTotals decisions c.claimId := by
  rw [totals_bundles]
  by_cases invalid : bundle ∈ invalidBundles decisions claims
  · have found := (claimToBundle_some distinct member).2 ⟨bundled, invalid⟩
    simp [found, invalid]
  · have absent : claimToBundle decisions claims c.claimId = none := by
      cases found : claimToBundle decisions claims c.claimId with
      | none => rfl
      | some b =>
        obtain ⟨held, bad⟩ := (claimToBundle_some distinct member).1 found
        rw [bundled] at held
        cases held
        exact absurd bad invalid
    simp [absent, invalid]

theorem invalidBundles_bundles (bundle : String) :
    bundle ∈ invalidBundles (failClosedAtomicBundles decisions claims) claims ↔
      bundle ∈ invalidBundles decisions claims := by
  constructor
  · intro still
    by_contra valid
    obtain ⟨c, member, bundled, short⟩ := mem_invalidBundles.1 still
    refine valid (mem_invalidBundles.2 ⟨c, member, bundled, ?_⟩)
    rw [← short]
    simp [claimFullySelected, member_totals distinct member bundled, valid]
  · intro invalid
    obtain ⟨c, member, bundled, -⟩ := mem_invalidBundles.1 invalid
    refine mem_invalidBundles.2 ⟨c, member, bundled, ?_⟩
    simp [claimFullySelected, member_totals distinct member bundled, invalid]

omit distinct in
theorem bundle_all_or_nothing (decisions : List ArbitratedSlice) (distinct : (claims.map (·.claimId)).Nodup)
    (bundle : String) :
    (∀ c ∈ bundleClaims claims bundle,
      claimFullySelected c (selectedClaimTotals (failClosedAtomicBundles decisions claims)) = true) ∨
    ∀ c ∈ bundleClaims claims bundle, selecting (failClosedAtomicBundles decisions claims) c.claimId = [] := by
  by_cases invalid : bundle ∈ invalidBundles decisions claims
  · right
    intro c held
    obtain ⟨member, bundled⟩ := mem_filter.1 held
    have found := (claimToBundle_some distinct member).2 ⟨of_decide_eq_true bundled, invalid⟩
    rw [selecting_bundles]
    simp [found]
  · left
    intro c held
    obtain ⟨member, bundled⟩ := mem_filter.1 held
    by_contra short
    rw [Bool.not_eq_true] at short
    exact invalid ((invalidBundles_bundles distinct bundle).1
      (mem_invalidBundles.2 ⟨c, member, of_decide_eq_true bundled, short⟩))

theorem withdraw_fixed {d : ArbitratedSlice} (member : d ∈ failClosedAtomicBundles decisions claims) :
    withdraw (failClosedAtomicBundles decisions claims) claims d = d := by
  refine withdraw_of_valid ?_
  by_cases claimed : ∃ c ∈ claims, c.claimId = d.selectedClaimId.getD ""
  · obtain ⟨c, present, same⟩ := claimed
    have selects : d.selectedClaimId = some c.claimId := by
      cases held : d.selectedClaimId with
      | none =>
        rw [held] at same
        exact absurd same c.sound.id_nonempty
      | some id =>
        rw [held] at same
        exact congrArg some same.symm
    rw [← same]
    cases found : claimToBundle (failClosedAtomicBundles decisions claims) claims c.claimId with
    | none => rfl
    | some bundle =>
      obtain ⟨bundled, invalid⟩ := (claimToBundle_some distinct present).1 found
      have known := (claimToBundle_some distinct present).2
        ⟨bundled, (invalidBundles_bundles distinct bundle).1 invalid⟩
      have held : d ∈ selecting (failClosedAtomicBundles decisions claims) c.claimId :=
        mem_filter.2 ⟨member, decide_eq_true selects⟩
      rw [selecting_bundles, known] at held
      cases held
  · exact claimToBundle_unclaimed fun c present same => claimed ⟨c, present, same⟩

end

section
variable {decisions others : List ArbitratedSlice} (perm : decisions.Perm others)
include perm

theorem sourceMsat_perm (id : String) : sourceMsat (selecting decisions id) = sourceMsat (selecting others id) :=
  ((perm.filter _).map _).sum_eq

theorem targetMsat_perm (id : String) : targetMsat (selecting decisions id) = targetMsat (selecting others id) :=
  (((perm.filter _).filterMap _).map _).sum_eq

theorem selectedClaimTotals_perm : selectedClaimTotals decisions = selectedClaimTotals others := by
  funext id
  have selected : (selecting decisions id).Perm (selecting others id) := perm.filter _
  have empty : selecting decisions id = [] ↔ selecting others id = [] := by
    rw [← length_eq_zero_iff, ← length_eq_zero_iff, selected.length_eq]
  have targeted : (selecting decisions id).any (fun d => d.target.isSome) =
      (selecting others id).any fun d => d.target.isSome := selected.any_eq
  simp only [selectedClaimTotals, empty, sourceMsat_perm perm, targetMsat_perm perm, targeted]

theorem withdraw_perm (claims : List QuantityClaim) : withdraw decisions claims = withdraw others claims := by
  have invalid : invalidBundles decisions claims = invalidBundles others claims := by
    unfold invalidBundles
    rw [selectedClaimTotals_perm perm]
  funext d
  unfold withdraw claimToBundle
  rw [invalid]

end

end Kassiber.Custody

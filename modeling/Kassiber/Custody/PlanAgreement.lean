import Kassiber.Custody.PlanPreview

/-!
When the preview of a prospective component agrees with creating and activating it: the two make the same checks, except
that the preview reads the review fields as they are given and ignores the partial anchors of economic terms and the
memberships the book already holds.
-/

namespace Kassiber.Custody.Book
open Lib.Outcome Lib.Dict Lib.Sorting Lib.UnionFind Lib.Mapped List

/-- What the review fields of a header must say: a suspense residual needs a reviewed grade, a conversion its review and
its policy. -/
def Reviewed (header : ReviewHeader) (legs : List Leg) : Prop :=
  ((legs.filter fun leg => leg.role = .suspense ∧ 0 < leg.amountMsat) ≠ [] →
    (header.evidenceGrade.getD "").toLower = "reviewed") ∧
  (header.conservationMode = .conversion → header.conversionReviewed = true ∧ strip (header.conversionPolicy.getD "") ≠ "")

def ReviewHeader.approved (header : ReviewHeader) : ReviewHeader :=
  { header with evidenceGrade := some "reviewed", conversionPolicy := some "reviewed", conversionReviewed := true }

section
variable (clock : String → Option Int) (header : ReviewHeader) (legs : List Leg) (allocations : List Allocation)

theorem flag_nil {found : Prop} [Decidable found] {code : String} {about : List String} :
    flag found code about = [] ↔ ¬found := by
  unfold flag
  split <;> simp [*]

theorem suspense_split : suspenseIssues clock header legs allocations = [] ↔
    ((legs.filter fun leg => leg.role = .suspense ∧ 0 < leg.amountMsat) ≠ [] →
      (header.evidenceGrade.getD "").toLower = "reviewed") ∧ suspenseIssues clock header.approved legs allocations = [] := by
  have approved : ("reviewed" : String).toLower = "reviewed" := by decide +kernel
  unfold suspenseIssues
  dsimp only
  split
  · rename_i none
    exact ⟨fun _ => ⟨fun some => absurd none some, rfl⟩, fun _ => rfl⟩
  · rename_i some
    simp only [append_eq_nil_iff, flag_nil, not_or, not_not, ne_eq, some, not_false_eq_true, forall_const]
    simp only [ReviewHeader.approved, Option.getD_some, approved]
    tauto

theorem balance_split : balanceIssues header legs allocations = [] ↔
    (header.conservationMode = .conversion →
      header.conversionReviewed = true ∧ strip (header.conversionPolicy.getD "") ≠ "") ∧
    balanceIssues header.approved legs allocations = [] := by
  have approved : strip "reviewed" ≠ "" := by decide +kernel
  unfold balanceIssues
  cases mode : header.conservationMode with
  | quantity => simp [ReviewHeader.approved, mode]
  | conversion =>
    simp only [ReviewHeader.approved, mode, conversionIssues_eq, append_eq_nil_iff, flag_nil, Option.getD_some, approved,
      Bool.not_eq_false, ne_eq, not_false_eq_true, forall_const]
    tauto

/-- A component is conserved under its header if its review fields are in order and it is under an approved one. -/
theorem conserved_split : validateConservation clock header legs allocations = .ok [] ↔
    Reviewed header legs ∧ validateConservation clock header.approved legs allocations = .ok [] := by
  unfold validateConservation
  by_cases unknown : ∃ leg ∈ legs, leg.role ∉ legRoles
  · simp [unknown, pure, Except.pure]
  rw [if_neg unknown, if_neg unknown]
  have split : suspenseIssues clock header legs allocations = [] ∧ balanceIssues header legs allocations = [] ↔
      Reviewed header legs ∧ suspenseIssues clock header.approved legs allocations = [] ∧
        balanceIssues header.approved legs allocations = [] := by
    rw [suspense_split, balance_split, and_and_and_comm]
    exact Iff.rfl
  simp only [bind_ok, pure_ok, append_eq_nil_iff]
  constructor
  · rintro ⟨chronology, first, continuity, second,
      ⟨⟨⟨⟨⟨⟨rest, suspense⟩, dated⟩, timed⟩, placed⟩, balance⟩, covered⟩, connected⟩
    obtain ⟨reviewed, suspense, balance⟩ := split.1 ⟨suspense, balance⟩
    exact ⟨reviewed, chronology, first, continuity, second,
      ⟨⟨⟨⟨⟨⟨rest, suspense⟩, dated⟩, timed⟩, placed⟩, balance⟩, covered⟩, connected⟩
  · rintro ⟨reviewed, chronology, first, continuity, second,
      ⟨⟨⟨⟨⟨⟨rest, suspense⟩, dated⟩, timed⟩, placed⟩, balance⟩, covered⟩, connected⟩
    obtain ⟨suspense, balance⟩ := split.2 ⟨reviewed, suspense, balance⟩
    exact ⟨chronology, first, continuity, second,
      ⟨⟨⟨⟨⟨⟨rest, suspense⟩, dated⟩, timed⟩, placed⟩, balance⟩, covered⟩, connected⟩

end

namespace Tables

def coverageCode : String := "anchor_coverage_mismatch"

/-- Every transaction that a component anchors is covered as it must be, given the legs that may cover it in part. -/
def Covered (imported : Imported) (content : Authored) (partialLegs : List String) : Prop :=
  ∀ transaction ∈ liveTransactions content.legs, coverageOf imported content.legs partialLegs transaction = []

/-- No membership of an active component is left on a transaction of the planned component. -/
def MembershipsFree (book : Tables) (profile id : String) (content : Authored) : Prop :=
  ∀ held ∈ book.memberships, held.componentId ≠ id → held.profileId = profile →
    held.transactionId ∈ liveTransactions content.legs →
      ∃ row ∈ book.components, row.id = held.componentId ∧ row.state ≠ .active

/-- Next to the active components, the routes of a planned one reach one domain at most, and every untracked location it
shares can be replayed and covers its spends. -/
def PlanRoutesClear (imported : Imported) (book : Tables) (profile : String) (planned : PlannedComponent) : Prop :=
  let legs := planned.legs profile ++ book.graphLegs profile
  let allocations := planned.allocations ++ book.graphAllocations profile
  (book.graphLegs profile ≠ [] → ¬ LaundersIn imported legs allocations planned.id) ∧
    ∀ place, SharedPlace imported legs place → UsesPlace imported legs planned.id place →
      ¬ PlaceJams imported legs place ∧ ¬ PlaceShort imported legs place

/-- The checks of a planned component that do not concern coverage or memberships. -/
structure PassesOtherChecks (imported : Imported) (book : Tables) (profile id : String) (content : Authored) : Prop where
  conserved : validateConservation imported.clock content.header content.legs content.allocations = .ok []
  anchored : ∃ issues, anchorIssues imported content.legs content.allocations content.header.conservationMode [] =
    .ok issues ∧ ∀ issue ∈ issues, issue.code = coverageCode
  unclaimed : ∀ leg ∈ content.legs, ∀ other ∈ book.legs, other.profileId = profile →
    book.stateOf other.componentId = some .active → other.joinAnchor = leg.joinAnchor → leg.joinAnchor = none
  routed : content.header.conservationMode = .quantity → PlanRoutesClear imported book profile { id, content }

def OtherCodes (issues : List Issue) : Prop := ∀ issue ∈ issues, issue.code ≠ coverageCode

theorem otherCodes_append {xs ys : List Issue} (left : OtherCodes xs) (right : OtherCodes ys) : OtherCodes (xs ++ ys) := by
  intro issue member
  rcases mem_append.1 member with first | second
  · exact left issue first
  · exact right issue second

variable {code profile id lineage : String}

theorem flag_code {found : Prop} [Decidable found] {about : List String} {issue : Issue}
    (member : issue ∈ flag found code about) : issue.code = code := by
  unfold flag at member
  split at member
  · rw [mem_singleton.1 member]
  · cases member

theorem otherCodes_flag {found : Prop} [Decidable found] (about : List String)
    (different : code ≠ coverageCode) : OtherCodes (flag found code about) := fun _ member =>
  flag_code member ▸ different

theorem otherCodes_nil : OtherCodes [] := fun _ member => nomatch member

theorem otherCodes_one (about : List String) (different : code ≠ coverageCode) :
    OtherCodes [{ code, about }] := fun _ member => (mem_singleton.1 member) ▸ different

theorem otherCodes_flatMap {α : Type} {f : α → List Issue} (each : ∀ x, OtherCodes (f x)) (xs : List α) :
    OtherCodes (xs.flatMap f) := by
  intro issue member
  obtain ⟨x, -, own⟩ := mem_flatMap.1 member
  exact each x issue own

section
variable (imported : Imported)

theorem railScope_codes (leg : Leg) (row : TransactionRow) : OtherCodes (anchorRailScopeIssues leg row) := by
  unfold anchorRailScopeIssues
  refine otherCodes_append (otherCodes_append ?_ ?_) ?_
  · split
    · exact otherCodes_flag _ (by decide)
    · exact otherCodes_nil
  · split
    · exact otherCodes_flag _ (by decide)
    · exact otherCodes_nil
  · split
    · exact otherCodes_flag _ (by decide)
    · exact otherCodes_nil

theorem anchorTime_codes (leg : Leg) (row : TransactionRow) : OtherCodes (anchorTimeIssues imported leg row) := by
  unfold anchorTimeIssues
  split
  · exact otherCodes_one _ (by decide)
  · exact otherCodes_one _ (by decide)
  · exact otherCodes_flag _ (by decide)

theorem anchorRow_codes (leg : Leg) (row : TransactionRow) : OtherCodes (anchorRowIssues imported leg row) := by
  have scopes := railScope_codes leg row
  have time := anchorTime_codes imported leg row
  unfold anchorRowIssues
  refine otherCodes_append (otherCodes_append (otherCodes_append (otherCodes_append (otherCodes_append (otherCodes_append
    (otherCodes_append scopes ?_) ?_) ?_) ?_) ?_) ?_) time <;>
  exact otherCodes_flag _ (by decide)

theorem legAnchor_codes (leg : Leg) : OtherCodes (legAnchorIssues imported leg) := by
  unfold legAnchorIssues
  refine otherCodes_append (otherCodes_flag _ (by decide)) ?_
  split
  · split
    · exact otherCodes_one _ (by decide)
    · split
      · exact otherCodes_append (otherCodes_flag _ (by decide)) (otherCodes_flag _ (by decide))
      · exact otherCodes_nil
  · refine otherCodes_append (otherCodes_flag _ (by decide)) ?_
    split
    · exact otherCodes_one _ (by decide)
    · exact anchorRow_codes imported leg _

theorem suspenseFee_codes (legs : List Leg) (allocations : List Allocation) (source : String) :
    OtherCodes (suspenseFeeIssues imported legs allocations source) := by
  unfold suspenseFeeIssues
  split
  · exact otherCodes_nil
  · exact otherCodes_flag _ (by decide)

theorem allocationScope_codes (legs : List Leg) (allocations : List Allocation) (mode : ConservationMode) :
    OtherCodes (quantityAllocationScopeIssues legs allocations mode) := by
  cases mode with
  | conversion => exact otherCodes_nil
  | quantity =>
    intro issue member
    obtain ⟨pair, -, found⟩ := mem_filterMap.1 member
    unfold allocationScopeIssue at found
    dsimp only at found
    split at found
    · cases found
      exact (by decide : "allocation_network_scope_invalid" ≠ coverageCode)
    · split at found
      · cases found
        exact (by decide : "allocation_network_mismatch" ≠ coverageCode)
      · cases found

variable {issues : List Issue} {legs : List Leg}

theorem chronology_codes {clock : String → Option Int} {allocations : List Allocation}
    {mode : ConservationMode} (run : allocationChronologyIssues clock legs allocations mode = .ok issues) :
    OtherCodes issues := by
  intro issue member
  obtain ⟨found, each, same⟩ := bind_ok.1 run
  rw [pure_ok] at same
  subst same
  obtain ⟨verdict, listed, rfl⟩ := mem_filterMap.1 member
  obtain ⟨edge, -, checked⟩ := mapM_outputs each listed
  unfold chronologyIssue at checked
  split at checked
  · cases checked
  · split at checked
    · obtain ⟨reach, -, checked⟩ := bind_ok.1 checked
      split at checked
      · cases checked
      · cases checked
        exact (by decide : "allocation_chronology_mismatch" ≠ coverageCode)
    · cases checked

theorem scopedChronology_codes {allocations : List Allocation} {mode : ConservationMode}
    (run : scopedChronologyIssues imported legs allocations mode = .ok issues) :
    OtherCodes issues := by
  cases mode with
  | conversion =>
    cases run
    exact otherCodes_nil
  | quantity => exact chronology_codes run

theorem coverageOf_codes {partialLegs : List String} {transaction : String} :
    ∀ issue ∈ coverageOf imported legs partialLegs transaction, issue.code = coverageCode := by
  intro issue member
  unfold coverageOf at member
  split at member
  · cases member
  · exact flag_code member

theorem nil_of_codes (other : OtherCodes issues) (only : ∀ issue ∈ issues, issue.code = coverageCode) : issues = [] :=
  eq_nil_iff_forall_not_mem.2 fun issue member => other issue member (only issue member)

theorem anchors_split (content : Authored) (mode : ConservationMode) (partialLegs : List String) :
    anchorIssues imported content.legs content.allocations mode partialLegs = .ok [] ↔
      (∃ issues, anchorIssues imported content.legs content.allocations mode [] = .ok issues ∧
        ∀ issue ∈ issues, issue.code = coverageCode) ∧ Covered imported content partialLegs := by
  unfold anchorIssues Covered
  rw [← flatMap_eq_nil_iff]
  constructor
  · intro run
    obtain ⟨chronology, timed, run⟩ := bind_ok.1 run
    rw [pure_ok] at run
    simp only [append_eq_nil_iff] at run
    obtain ⟨⟨⟨⟨⟨⟨own, covered⟩, fees⟩, scopes⟩, late⟩, connected⟩, anchored⟩ := run
    refine ⟨⟨_, bind_ok.2 ⟨chronology, timed, rfl⟩, ?_⟩, covered⟩
    rw [own, fees, scopes, late, connected, anchored]
    intro issue member
    simp only [nil_append, append_nil] at member
    obtain ⟨transaction, -, found⟩ := mem_flatMap.1 member
    exact coverageOf_codes imported issue found
  · rintro ⟨⟨issues, run, only⟩, covered⟩
    obtain ⟨chronology, timed, run⟩ := bind_ok.1 run
    rw [pure_ok] at run
    subst run
    refine bind_ok.2 ⟨chronology, timed, ?_⟩
    rw [pure_ok]
    simp only [mem_append] at only
    have own := nil_of_codes (otherCodes_flatMap (legAnchor_codes imported) content.legs) fun issue member =>
      only issue (.inl (.inl (.inl (.inl (.inl (.inl member))))))
    have fees := nil_of_codes (otherCodes_flatMap (suspenseFee_codes imported content.legs content.allocations)
      (content.allocations.map Allocation.sourceLegId).dedup) fun issue member =>
        only issue (.inl (.inl (.inl (.inl (.inr member)))))
    have scopes := nil_of_codes (allocationScope_codes (content.legs.map imported.scopedLeg) content.allocations mode)
      fun issue member => only issue (.inl (.inl (.inl (.inr member))))
    have late := nil_of_codes (scopedChronology_codes imported timed) fun issue member =>
      only issue (.inl (.inl (.inr member)))
    have connected : quantityScopeConnectivityIssues (content.legs.map imported.scopedLeg) content.allocations mode = [] :=
      nil_of_codes (fun issue member => by rw [connectivity_code member]; decide) fun issue member =>
        only issue (.inl (.inr member))
    have anchored : flag (liveTransactions content.legs = []) "transaction_anchor_missing" = [] :=
      nil_of_codes (otherCodes_flag _ (by decide)) fun issue member => only issue (.inr member)
    rw [own, covered, fees, scopes, late, connected, anchored]
    rfl

section
variable {book : Tables} {profile id : String} {content : Authored}

theorem present_some {value : Option String} (named : value ≠ some "") : present value = value := by
  unfold present
  split
  · exact absurd rfl named
  · rfl

theorem planned_anchor (normalized : content.Normalized) {leg : Leg} (member : leg ∈ content.legs) :
    present leg.anchor = leg.joinAnchor := by
  obtain ⟨transaction, anchor⟩ := normalized.legTexts leg member
  have named : leg.anchorTransactionId.or leg.transactionId ≠ some "" := by
    cases found : leg.anchorTransactionId with
    | none => exact transaction
    | some stored =>
      rw [found] at anchor
      exact anchor
  unfold Leg.anchor Leg.joinAnchor
  rw [present_some anchor, present_some named]

theorem plannedConflicts_nil (normalized : content.Normalized) :
    book.plannedConflicts profile (content.legs.map (Leg.under "" "")) none = [] ↔
      ∀ leg ∈ content.legs, ∀ other ∈ book.legs, other.profileId = profile →
        book.stateOf other.componentId = some .active → other.joinAnchor = leg.joinAnchor → leg.joinAnchor = none := by
  have anchors : ∀ transaction, transaction ∈ (content.legs.map (Leg.under "" "")).filterMap (fun leg => present leg.anchor) ↔
      ∃ leg ∈ content.legs, leg.joinAnchor = some transaction := by
    intro transaction
    rw [mem_filterMap]
    constructor
    · rintro ⟨leg, member, anchored⟩
      obtain ⟨own, ownMember, rfl⟩ := mem_map.1 member
      exact ⟨own, ownMember, (planned_anchor normalized ownMember).symm.trans anchored⟩
    · rintro ⟨leg, member, anchored⟩
      exact ⟨_, mem_map_of_mem member, (planned_anchor normalized member).trans anchored⟩
  unfold plannedConflicts
  dsimp only
  rw [filterMap_eq_nil_iff]
  constructor
  · intro free leg member other stored owner active same
    by_contra named
    obtain ⟨transaction, anchored⟩ := Option.ne_none_iff_exists'.1 named
    have found := free other stored
    rw [same, anchored] at found
    dsimp only at found
    rw [if_pos ⟨owner, active, (anchors transaction).2 ⟨leg, member, anchored⟩, .inl rfl⟩] at found
    cases found
  · intro free other stored
    split
    · rfl
    · rename_i transaction joined
      refine if_neg ?_
      rintro ⟨owner, active, listed, -⟩
      obtain ⟨leg, member, anchored⟩ := (anchors transaction).1 listed
      have none := free leg member other stored owner active (joined.trans anchored.symm)
      rw [anchored] at none
      cases none

theorem plan_clean_iff (book : Tables) (normalized : content.Normalized) (named : profile ≠ "") :
    book.validateComponentPlan imported profile (.ok content) none = .ok [] ↔
      validateConservation imported.clock content.header content.legs content.allocations = .ok [] ∧
        anchorIssues imported content.legs content.allocations content.header.conservationMode [] = .ok [] ∧
        ∀ leg ∈ content.legs, ∀ other ∈ book.legs, other.profileId = profile →
          book.stateOf other.componentId = some .active → other.joinAnchor = leg.joinAnchor → leg.joinAnchor = none := by
  have unnamed : namedComponents (content.legs.map (Leg.under "" "")) = [] := by
    rw [eq_nil_iff_forall_not_mem]
    intro component listed
    obtain ⟨componentNamed, leg, member, rfl⟩ := mem_namedComponents.1 listed
    obtain ⟨own, -, rfl⟩ := mem_map.1 member
    exact componentNamed rfl
  -- A plan names no component, so its validator sees no other routes.
  have alone : book.routeIssues imported (content.legs.map (Leg.under "" "")) content.allocations
      content.header.conservationMode none = .ok [] := by
    cases content.header.conservationMode with
    | conversion => rfl
    | quantity =>
      show book.ownRouteIssues imported _ _ = _
      unfold ownRouteIssues otherActiveQuantityContent
      rw [unnamed]
      rfl
  have conflicts : flag (book.plannedConflicts profile (content.legs.map (Leg.under "" "")) none ≠ [])
      "active_transaction_membership_conflict" = [] ↔
        book.plannedConflicts profile (content.legs.map (Leg.under "" "")) none = [] := by
    unfold flag
    split <;> simp_all
  rw [← conservation_clean_under "" "" normalized.legIds, ← anchors_clean_under "" "", ← plannedConflicts_nil normalized,
    ← conflicts]
  unfold validateComponentPlan
  rw [if_neg named]
  constructor
  · intro run
    obtain ⟨authored, same, run⟩ := bind_ok.1 run
    cases same
    obtain ⟨conservation, conserved, run⟩ := bind_ok.1 run
    obtain ⟨anchors, anchored, run⟩ := bind_ok.1 run
    obtain ⟨routes, routed, run⟩ := bind_ok.1 run
    rw [pure_ok] at run
    simp only [append_eq_nil_iff] at run
    obtain ⟨⟨⟨rfl, rfl⟩, rfl⟩, free⟩ := run
    exact ⟨conserved, anchored, free⟩
  · rintro ⟨conserved, anchored, free⟩
    refine bind_ok.2 ⟨content, rfl, bind_ok.2 ⟨[], conserved, bind_ok.2 ⟨[], anchored, bind_ok.2 ⟨[], alone, ?_⟩⟩⟩⟩
    rw [pure_ok, free]
    rfl

theorem combined_named {legs : List Leg} {allocations : List Allocation} {current : List String} {issues : List Issue}
    (labelled : ∀ leg ∈ legs, leg.componentId ≠ "")
    (run : combinedRouteIssues imported legs allocations current = .ok issues) {issue : Issue} (member : issue ∈ issues) :
    issue.componentIds ≠ [] := by
  obtain ⟨continuity, checked, same⟩ := bind_ok.1 run
  rw [pure_ok] at same
  subst same
  rcases mem_append.1 member with connected | replayed
  · rw [connectivity_eq] at connected
    obtain ⟨⟨root, route⟩, listed, made⟩ := mem_filterMap.1 connected
    obtain ⟨same, some⟩ := mem_groupBy.1 listed
    unfold launderingIssue at made
    split at made
    · cases made
    · rename_i many
      cases made
      obtain ⟨left, leftMember, -⟩ := two_domains.1 many
      have inside : left ∈ legs.map imported.scopedLeg := by
        rw [same] at leftMember
        exact (mem_filter.1 (mem_filter.1 leftMember).1).1
      obtain ⟨plain, plainMember, rfl⟩ := mem_map.1 inside
      refine ne_nil_of_mem (mem_namedComponents.2 ⟨?_, _, leftMember, rfl⟩)
      rw [scopedLeg_componentId]
      exact labelled plain plainMember
  · obtain ⟨found, each, same⟩ := bind_ok.1 checked
    rw [pure_ok] at same
    subst same
    obtain ⟨part, listed, inPart⟩ := mem_flatten.1 replayed
    obtain ⟨place, -, judged⟩ := mapM_outputs each listed
    dsimp only at judged
    split at judged
    · cases judged
      cases inPart
    · rename_i several
      rw [not_or] at several
      obtain ⟨location, -, same⟩ := bind_ok.1 judged
      rw [pure_ok] at same
      subst same
      obtain ⟨plain, -, rfl⟩ := mem_map.1 inPart
      intro empty
      have empty : namedComponents place.2 = [] := empty
      rw [empty] at several
      exact several.1 (by simp)

theorem sharedTransaction_single (planned : PlannedComponent) : sharedTransactionIssues [planned] = [] := by
  unfold sharedTransactionIssues
  rw [flatMap_eq_nil_iff]
  intro transaction _
  refine if_neg (not_lt.2 ?_)
  have few : ∀ ids : List String, ids.length ≤ 1 → (sortedSet ids).length ≤ 1 := by
    intro ids one
    unfold sortedSet
    rw [(sortedBy_perm _ _).length_eq]
    exact ((dedup_sublist ids).length_le).trans one
  refine few _ ?_
  rw [length_map]
  exact (length_filter_le _ _).trans (by simp)

section
variable (wellFormed : book.WellFormed) (normalized : content.Normalized) {lineage : String}
  (prospective : book.Prospective profile id lineage content) (identified : ∀ row ∈ book.components, row.id ≠ "")
include wellFormed normalized prospective

theorem planned_distinct :
    (((PlannedComponent.mk id content).legs profile ++ book.graphLegs profile).map Leg.id).Nodup := by
  have ids : ((PlannedComponent.mk id content).legs profile).map Leg.id = content.legs.map Leg.id := by
    unfold PlannedComponent.legs
    rw [map_map]
    rfl
  rw [map_append, ids, nodup_append]
  refine ⟨normalized.legIds, graphLegs_distinct wellFormed profile, ?_⟩
  intro legId own other stored same
  obtain ⟨leg, member, rfl⟩ := mem_map.1 own
  obtain ⟨leg', member', rfl⟩ := mem_map.1 stored
  obtain ⟨row, -, listed⟩ := mem_flatMap.1 member'
  exact prospective.legsNew leg member (same ▸ mem_map_of_mem (mem_legsOf.1 listed).1)

theorem alone_straight (anchored : anchorIssues imported content.legs content.allocations .quantity [] = .ok [])
    (alone : book.graphLegs profile = []) :
    ¬ LaundersIn imported ((PlannedComponent.mk id content).legs profile ++ book.graphLegs profile)
      ((PlannedComponent.mk id content).allocations ++ book.graphAllocations profile) id := by
  intro launders
  have none : book.graphAllocations profile = [] := by
    rw [eq_nil_iff_forall_not_mem]
    intro allocation member
    obtain ⟨row, active, own⟩ := mem_flatMap.1 member
    obtain ⟨stored, component⟩ := mem_allocationsOf.1 own
    obtain ⟨leg, legMember, -, same⟩ := wellFormed.allocationScope allocation stored
    have listed : leg ∈ book.graphLegs profile :=
      mem_flatMap.2 ⟨row, active, mem_legsOf.2 ⟨legMember, same.trans component⟩⟩
    rw [alone] at listed
    cases listed
  have distinct := planned_distinct wellFormed normalized prospective
  rw [alone, append_nil] at launders distinct
  rw [none, append_nil] at launders
  have ownLegs : ∀ leg ∈ (PlannedComponent.mk id content).legs profile, leg.componentId = id := by
    intro leg member
    obtain ⟨own, -, rfl⟩ := mem_map.1 member
    rfl
  have ownAllocations : ∀ allocation ∈ (PlannedComponent.mk id content).allocations, allocation.componentId = id := by
    intro allocation member
    obtain ⟨own, -, rfl⟩ := mem_map.1 member
    rfl
  have laundered := launders_single imported distinct ownLegs ownAllocations launders
  rw [← anchors_clean_under id profile] at anchored
  obtain ⟨chronology, -, listed⟩ := bind_ok.1 anchored
  rw [pure_ok] at listed
  simp only [append_eq_nil_iff] at listed
  obtain ⟨issue, member, -⟩ := connectivity_named.2 laundered
  have stored : quantityScopeConnectivityIssues
      (((PlannedComponent.mk id content).legs profile).map imported.scopedLeg)
        (PlannedComponent.mk id content).allocations .quantity = [] :=
    (connectivity_stored id _ content.allocations .quantity).trans listed.1.2
  rw [stored] at member
  cases member

theorem batch_clean_iff (identified : ∀ row ∈ book.components, row.id ≠ "")
    (anchored : anchorIssues imported content.legs content.allocations content.header.conservationMode [] = .ok []) :
    book.validatePlannedActiveBatch imported profile [{ id, content }] = .ok [] ↔
      (content.header.conservationMode = .quantity → PlanRoutesClear imported book profile { id, content }) := by
  unfold validatePlannedActiveBatch
  rw [sharedTransaction_single]
  cases mode : content.header.conservationMode with
  | conversion =>
    have none : [PlannedComponent.mk id content].filter (fun planned =>
        planned.content.header.conservationMode = .quantity) = [] := by simp [mode]
    dsimp only
    rw [none, if_pos rfl]
    exact ⟨fun _ quantity => absurd quantity (by simp), fun _ => rfl⟩
  | quantity =>
    have one : [PlannedComponent.mk id content].filter (fun planned =>
        planned.content.header.conservationMode = .quantity) = [PlannedComponent.mk id content] := by simp [mode]
    rw [mode] at anchored
    dsimp only
    rw [one, if_neg (by simp)]
    simp only [flatMap_singleton, map_singleton, nil_append, forall_const]
    have legsPerm : (book.graphLegs profile ++ (PlannedComponent.mk id content).legs profile).Perm
        ((PlannedComponent.mk id content).legs profile ++ book.graphLegs profile) := perm_append_comm
    have allocationsPerm : (book.graphAllocations profile ++ (PlannedComponent.mk id content).allocations).Perm
        ((PlannedComponent.mk id content).allocations ++ book.graphAllocations profile) := perm_append_comm
    have distinct : ((book.graphLegs profile ++ (PlannedComponent.mk id content).legs profile).map Leg.id).Nodup :=
      (legsPerm.map _).nodup_iff.2 (planned_distinct wellFormed normalized prospective)
    have own : id ∈ [id] := mem_singleton_self id
    constructor
    · intro run
      obtain ⟨routes, combined, clean⟩ := bind_ok.1 run
      rw [pure_ok, filter_eq_nil_iff] at clean
      have fits := (combined_ok_iff imported).1 ⟨routes, combined⟩
      have noCode : ∀ code, ¬ ∃ issue ∈ routes, id ∈ issue.componentIds ∧ issue.code = code := by
        rintro code ⟨issue, listed, named, -⟩
        exact clean issue listed (decide_eq_true (.inr (names_singleton.2 named)))
      refine ⟨fun _ launders => ?_, fun place shared uses => ⟨fun jams => ?_, fun short => ?_⟩⟩
      · exact noCode _ ((combined_codes imported combined own).2
          (.inl ⟨rfl, (launders_perm imported legsPerm allocationsPerm distinct id).2 launders⟩))
      · exact fits place ((sharedPlace_perm imported legsPerm place).2 shared)
          ⟨id, own, (usesPlace_perm imported legsPerm id place).2 uses⟩ ((placeJams_perm imported legsPerm place).2 jams)
      · exact noCode _ ((combined_codes imported combined own).2 (.inr ⟨rfl, place,
          (sharedPlace_perm imported legsPerm place).2 shared, (usesPlace_perm imported legsPerm id place).2 uses,
          (placeShort_perm imported legsPerm place).2 short⟩))
    · rintro ⟨straight, covered⟩
      have straight : ¬ LaundersIn imported (book.graphLegs profile ++ (PlannedComponent.mk id content).legs profile)
          (book.graphAllocations profile ++ (PlannedComponent.mk id content).allocations) id := by
        rw [launders_perm imported legsPerm allocationsPerm distinct id]
        by_cases alone : book.graphLegs profile = []
        · exact alone_straight imported wellFormed normalized prospective anchored alone
        · exact straight alone
      obtain ⟨routes, combined⟩ := (combined_ok_iff imported).2 fun place shared uses => by
        obtain ⟨id', only, uses⟩ := uses
        rw [mem_singleton] at only
        subst only
        rw [placeJams_perm imported legsPerm]
        exact (covered place ((sharedPlace_perm imported legsPerm place).1 shared)
          ((usesPlace_perm imported legsPerm _ place).1 uses)).1
      refine bind_ok.2 ⟨routes, combined, ?_⟩
      rw [pure_ok, filter_eq_nil_iff]
      intro issue listed picked
      rcases of_decide_eq_true picked with anonymous | named
      · refine absurd anonymous (combined_named imported (fun leg member => ?_) combined listed)
        rcases mem_append.1 member with active | planned
        · obtain ⟨row, rowActive, stored⟩ := mem_flatMap.1 active
          rw [(mem_legsOf.1 stored).2]
          exact identified row (mem_activeRoutes.1 rowActive).1
        · obtain ⟨plain, -, rfl⟩ := mem_map.1 planned
          exact prospective.idNamed
      · rcases (combined_codes imported combined own).1 ⟨issue, listed, names_singleton.1 named, rfl⟩ with
          ⟨-, launders⟩ | ⟨-, place, shared, uses, short⟩
        · exact straight launders
        · exact (covered place ((sharedPlace_perm imported legsPerm place).1 shared)
            ((usesPlace_perm imported legsPerm _ place).1 uses)).2 ((placeShort_perm imported legsPerm place).1 short)

theorem preview_clean_iff (identified : ∀ row ∈ book.components, row.id ≠ "") :
    book.contentIssues imported profile id (.ok content) = .ok [] ↔
      PassesOtherChecks imported book profile id content ∧ Covered imported content [] := by
  have plan := plan_clean_iff imported book normalized prospective.profileNamed
  have batch := batch_clean_iff imported wellFormed normalized prospective identified
  have split := anchors_split imported content content.header.conservationMode []
  constructor
  · intro run
    obtain ⟨issues, planned, run⟩ := bind_ok.1 run
    obtain ⟨authored, same, run⟩ := bind_ok.1 run
    cases same
    obtain ⟨found, batched, run⟩ := bind_ok.1 run
    rw [pure_ok] at run
    obtain ⟨rfl, rfl⟩ := append_eq_nil_iff.1 run
    obtain ⟨conserved, anchored, unclaimed⟩ := plan.1 planned
    exact ⟨⟨conserved, (split.1 anchored).1, unclaimed, (batch anchored).1 batched⟩, (split.1 anchored).2⟩
  · rintro ⟨checks, covered⟩
    have anchored := split.2 ⟨checks.anchored, covered⟩
    exact bind_ok.2 ⟨[], plan.2 ⟨checks.conserved, anchored, checks.unclaimed⟩, bind_ok.2 ⟨content, rfl,
      bind_ok.2 ⟨[], (batch anchored).2 checks.routed, rfl⟩⟩⟩

def createdRow (workspace profile id lineage : String) (content : Authored) : ComponentRow :=
  content.draft id lineage workspace profile 1 none

section
variable (workspace : String) {row : ComponentRow}

omit wellFormed in
theorem insertRevision_prospective (named : row.id = id) :
    book.insertRevision row content = .ok (book.inserted row content book.memberships) := by
  subst named
  have edges : ∀ source sink : String,
      ((∃ leg ∈ content.legs, leg.id = source ∧ leg.role = .source) ∧
        ∃ leg ∈ content.legs, leg.id = sink ∧ leg.role ≠ .source) →
      edgeInside (book.legs ++ content.legsOf row) row.id source sink := by
    rintro source sink ⟨⟨leg, member, named, role⟩, leg', member', named', role'⟩
    exact ⟨⟨leg.under row.id row.profileId, mem_append_right _ (mem_map_of_mem member), named, rfl, role⟩,
      leg'.under row.id row.profileId, mem_append_right _ (mem_map_of_mem member'), named', rfl, role'⟩
  have fresh : ∀ {α : Type} (key : α → String) (f : α → α) (stored added : List α), (∀ x, key (f x) = key x) →
      (added.map key).Nodup → (∀ x ∈ added, key x ∉ stored.map key) → FreshKeys key stored (added.map f) := by
    intro α key f stored added keeps distinct new
    refine ⟨?_, fun x member => ?_⟩
    · rw [map_map, show key ∘ f = key from funext keeps]
      exact distinct
    · obtain ⟨y, listed, rfl⟩ := mem_map.1 member
      rw [keeps]
      exact new y listed
  have legsFresh : FreshKeys Leg.id book.legs (content.legsOf row) :=
    fresh Leg.id _ _ _ (fun _ => rfl) normalized.legIds prospective.legsNew
  have allocationsFresh : FreshKeys Allocation.id book.allocations (content.allocationsOf row) :=
    fresh Allocation.id _ _ _ (fun _ => rfl) normalized.allocationIds prospective.allocationsNew
  have termsFresh : FreshKeys Term.id book.terms (content.termsOf row) :=
    fresh Term.id _ _ _ (fun _ => rfl) normalized.termIds prospective.termsNew
  unfold insertRevision
  dsimp only
  rw [if_neg prospective.idNew, if_neg (not_not.2 legsFresh), if_neg (not_not.2 allocationsFresh), if_neg,
    if_neg (not_not.2 termsFresh), if_neg]
  · rfl
  · rintro ⟨term, member, outside⟩
    exact outside (edges _ _ (normalized.termEdges term member))
  · rintro ⟨allocation, member, outside⟩
    exact outside (edges _ _ (normalized.allocationEdges allocation member))

/-! The component in the book, under any of its states. -/

theorem inserted_wellFormed (named : row.id = id) (owner : row.profileId = profile)
    (memberships : List Membership) : (book.inserted row content memberships).WellFormed :=
  have stored := insertRevision_wellFormed (insertRevision_prospective normalized prospective named) wellFormed
    (owner ▸ prospective.profileNamed)
  { stored with }

theorem routes_stored_iff (named : row.id = id) (owner : row.profileId = profile)
    (memberships : List Membership) :
    RoutesClear imported row ((book.inserted row content memberships).otherRoutes row)
        (book.inserted row content memberships) ↔ PlanRoutesClear imported book profile { id, content } := by
  subst named owner
  have idNew : row.id ∉ book.components.map ComponentRow.id := prospective.idNew
  have graph : (book.inserted row content memberships).otherLegs row = book.graphLegs row.profileId ∧
      (book.inserted row content memberships).otherAllocations row = book.graphAllocations row.profileId :=
    inserted_graph wellFormed idNew memberships
  obtain ⟨others, otherAllocations⟩ := graph
  unfold RoutesClear PlanRoutesClear
  rw [inserted_legs wellFormed normalized idNew, inserted_allocations wellFormed normalized idNew,
    show ((book.inserted row content memberships).otherRoutes row).flatMap
      (fun other => (book.inserted row content memberships).legsOf other.id) = book.graphLegs row.profileId from others,
    show ((book.inserted row content memberships).otherRoutes row).flatMap
      (fun other => (book.inserted row content memberships).allocationsOf other.id) = book.graphAllocations row.profileId
      from otherAllocations]
  exact Iff.rfl

theorem rows_stored_iff (named : row.id = id) (header : row.header = content.header)
    (memberships : List Membership) (partialLegs : List String) :
    (validateConservation imported.clock row.header ((book.inserted row content memberships).legsOf row.id)
        ((book.inserted row content memberships).allocationsOf row.id) = .ok [] ↔
      validateConservation imported.clock content.header content.legs content.allocations = .ok []) ∧
    (anchorIssues imported ((book.inserted row content memberships).legsOf row.id)
        ((book.inserted row content memberships).allocationsOf row.id) row.header.conservationMode partialLegs = .ok [] ↔
      anchorIssues imported content.legs content.allocations content.header.conservationMode partialLegs = .ok []) := by
  subst named
  have idNew : row.id ∉ book.components.map ComponentRow.id := prospective.idNew
  rw [inserted_legs wellFormed normalized idNew, inserted_allocations wellFormed normalized idNew, header]
  constructor
  · show validateConservation imported.clock content.header (content.legs.map (Leg.under row.id row.profileId))
      (content.allocations.map (Allocation.under row.id)) = .ok [] ↔ _
    rw [conservation_stored]
    exact conservation_clean_under row.id row.profileId normalized.legIds imported.clock content.header content.allocations
  · show anchorIssues imported (content.legs.map (Leg.under row.id row.profileId))
      (content.allocations.map (Allocation.under row.id)) content.header.conservationMode partialLegs = .ok [] ↔ _
    rw [anchors_stored]
    exact anchors_clean_under row.id row.profileId imported content.legs content.allocations _ partialLegs

omit wellFormed normalized in
theorem terms_stored (row : ComponentRow) (named : row.id = id) (memberships : List Membership) :
    (book.inserted row content memberships).termsOf row.id = content.termsOf row := by
  subst named
  unfold termsOf inserted
  rw [filter_append, filter_eq_nil_iff.2, nil_append, filter_eq_self.2]
  · intro term member
    obtain ⟨plain, -, rfl⟩ := mem_map.1 member
    exact decide_eq_true rfl
  · intro term member own
    exact prospective.termScope term member (of_decide_eq_true own)

omit wellFormed normalized in
theorem partialLegs_stored (row : ComponentRow) (named : row.id = id) (memberships : List Membership) :
    ((book.inserted row content memberships).termsOf row.id).map Term.sourceLegId ++
      ((book.inserted row content memberships).termsOf row.id).map Term.targetLegId = content.partialLegs := by
  rw [terms_stored prospective row named memberships]
  unfold Authored.partialLegs Authored.termsOf
  rw [map_map, map_map]
  rfl

theorem ownIssues_stored (row : ComponentRow) (named : row.id = id) (header : row.header = content.header)
    (memberships : List Membership)
    (committed : commitmentIssues row content.legs.length content.allocations.length content.terms.length = [])
    (linked : (book.inserted row content memberships).lineageIssues row = []) :
    (book.inserted row content memberships).ownIssues imported row =
      .ok ((book.inserted row content memberships).activeIssues imported row) ↔
    validateConservation imported.clock content.header content.legs content.allocations = .ok [] ∧
      anchorIssues imported content.legs content.allocations content.header.conservationMode content.partialLegs = .ok [] := by
  have rows := rows_stored_iff imported wellFormed normalized prospective named header memberships content.partialLegs
  have idNew : row.id ∉ book.components.map ComponentRow.id := named ▸ prospective.idNew
  have legs : ((book.inserted row content memberships).legsOf row.id).length = content.legs.length := by
    rw [inserted_legs wellFormed normalized idNew]
    exact length_map _
  have allocations : ((book.inserted row content memberships).allocationsOf row.id).length = content.allocations.length := by
    rw [inserted_allocations wellFormed normalized idNew]
    exact length_map _
  have terms := terms_stored prospective row named memberships
  have anchored := partialLegs_stored prospective row named memberships
  have count : ((book.inserted row content memberships).termsOf row.id).length = content.terms.length := by
    rw [terms]
    exact length_map _
  rw [← rows.1, ← rows.2]
  unfold ownIssues
  simp only [anchored, legs, allocations, count, committed, linked, append_nil]
  constructor
  · intro run
    obtain ⟨conservation, conserved, run⟩ := bind_ok.1 run
    obtain ⟨anchors, anchorRun, run⟩ := bind_ok.1 run
    rw [pure_ok] at run
    have sizes := congrArg length run
    rw [length_append, length_append] at sizes
    have first : conservation = [] := eq_nil_of_length_eq_zero (by omega)
    have second : anchors = [] := eq_nil_of_length_eq_zero (by omega)
    exact ⟨first ▸ conserved, second ▸ anchorRun⟩
  · rintro ⟨conserved, anchorRun⟩
    refine bind_ok.2 ⟨[], conserved, bind_ok.2 ⟨[], anchorRun, ?_⟩⟩
    rw [pure_ok, nil_append, append_nil]

omit wellFormed normalized prospective in
theorem row_inserted {component : String} (different : component ≠ row.id)
    (memberships : List Membership) : (book.inserted row content memberships).row component = book.row component := by
  unfold Tables.row inserted
  rw [find?_append, find?_cons_of_neg (by simpa using different.symm), find?_nil, Option.or_none]

theorem routeIssues_stored (named : row.id = id) (owner : row.profileId = profile)
    (header : row.header = content.header) {memberships : List Membership}
    (stored : (book.inserted row content memberships).WellFormed) :
    (book.inserted row content memberships).routeIssues imported ((book.inserted row content memberships).legsOf row.id)
        ((book.inserted row content memberships).allocationsOf row.id) row.header.conservationMode none = .ok [] ↔
      (content.header.conservationMode = .quantity → PlanRoutesClear imported book profile { id, content }) := by
  cases mode : content.header.conservationMode with
  | conversion =>
    rw [header, mode]
    exact ⟨fun _ quantity => absurd quantity (by simp), fun _ => rfl⟩
  | quantity =>
    have clear := routes_clear_iff imported stored (mem_append_right _ (mem_singleton_self row))
      ((congrArg ReviewHeader.conservationMode header).trans mode)
    rw [clear, routes_stored_iff imported wellFormed normalized prospective named owner]
    exact ⟨fun clear _ => clear, fun clear => clear rfl⟩

omit normalized in
theorem conflicts_stored (named : row.id = id) (owner : row.profileId = profile)
    (kin : row.lineageId = lineage) (memberships : List Membership) :
    (book.inserted row content memberships).externalConflicts row = [] ↔
      ∀ leg ∈ content.legs, ∀ other ∈ book.legs, other.profileId = profile →
        book.stateOf other.componentId = some .active → other.joinAnchor = leg.joinAnchor → leg.joinAnchor = none := by
  subst named owner kin
  have idNew : row.id ∉ book.components.map ComponentRow.id := prospective.idNew
  have elsewhere : ∀ leg ∈ book.legs, leg.componentId ≠ row.id := fun leg member => legs_elsewhere wellFormed idNew member
  have state : ∀ leg ∈ book.legs, (book.inserted row content memberships).stateOf leg.componentId =
      book.stateOf leg.componentId := by
    intro leg member
    unfold stateOf
    rw [row_inserted (elsewhere leg member)]
  unfold externalConflicts
  rw [filter_eq_nil_iff]
  constructor
  · intro free leg member other stored otherOwner active same
    by_contra anchored
    obtain ⟨transaction, anchor⟩ := Option.ne_none_iff_exists'.1 anchored
    refine free (transaction, other.componentId) (mem_conflicts.2 ⟨leg.under row.id row.profileId,
      mem_append_right _ (mem_map_of_mem member), rfl, rfl, anchor, other, mem_append_left _ stored,
      otherOwner, same.trans anchor, elsewhere other stored, (state other stored).trans active, rfl⟩) ?_
    refine decide_eq_true ?_
    obtain ⟨holder, holderMember, holderId, holderProfile⟩ := wellFormed.legScope other stored
    rw [row_inserted (elsewhere other stored), ← holderId, row_eq wellFormed holderMember, Option.map_some]
    intro same
    exact prospective.lineageNew holder holderMember (holderProfile.trans otherOwner) (Option.some.inj same)
  · rintro free conflict listed -
    obtain ⟨mine, mineMember, component, -, anchor, other, otherMember, otherOwner, otherAnchor, different, active, -⟩ :=
      mem_conflicts.1 listed
    rcases mem_append.1 mineMember with old | new
    · exact elsewhere mine old component
    rcases mem_append.1 otherMember with otherOld | otherNew
    · obtain ⟨leg, member, rfl⟩ := mem_authored.1 new
      have none := free leg member other otherOld otherOwner ((state other otherOld).symm.trans active)
        (otherAnchor.trans anchor.symm)
      have anchor : leg.joinAnchor = some conflict.1 := anchor
      rw [none] at anchor
      cases anchor
    · obtain ⟨leg, -, rfl⟩ := mem_authored.1 otherNew
      exact different rfl

theorem created_accepted_iff :
    Accepts imported (book.inserted (createdRow workspace profile id lineage content) content book.memberships) id ↔
      PassesOtherChecks imported book profile id content ∧ Covered imported content content.partialLegs := by
  have stored : (book.inserted (createdRow workspace profile id lineage content) content book.memberships).WellFormed :=
    inserted_wellFormed wellFormed normalized prospective rfl rfl book.memberships
  have committed : commitmentIssues (createdRow workspace profile id lineage content) content.legs.length
      content.allocations.length content.terms.length = [] := by
    unfold commitmentIssues createdRow Authored.draft flag
    simp
  have linked : (book.inserted (createdRow workspace profile id lineage content) content book.memberships).lineageIssues
      (createdRow workspace profile id lineage content) = [] := by
    unfold lineageIssues flag linkIssues createdRow Authored.draft
    simp
  have inactive : (book.inserted (createdRow workspace profile id lineage content) content book.memberships).activeIssues
      imported (createdRow workspace profile id lineage content) = [] := if_neg (by simp [createdRow, Authored.draft])
  have own := ownIssues_stored imported wellFormed normalized prospective
    (createdRow workspace profile id lineage content) rfl rfl book.memberships committed linked
  have accepted := accepts_iff imported stored (mem_append_right _
    (mem_singleton_self (createdRow workspace profile id lineage content))) rfl
  rw [inactive] at own
  rw [own, conflicts_stored wellFormed prospective rfl rfl rfl,
    routeIssues_stored imported wellFormed normalized prospective rfl rfl rfl stored, anchors_split] at accepted
  refine accepted.trans ?_
  constructor
  · rintro ⟨⟨conserved, anchored, covered⟩, unclaimed, routed⟩
    exact ⟨⟨conserved, anchored, unclaimed, routed⟩, covered⟩
  · rintro ⟨checks, covered⟩
    exact ⟨⟨checks.conserved, checks.anchored, covered⟩, checks.unclaimed, checks.routed⟩

/-! Storing the activation. -/

omit wellFormed normalized prospective in
theorem updateRows_idle {chosen : ComponentRow → Bool} (change : ComponentRow → ComponentRow)
    (none : ∀ row ∈ book.components, chosen row = false) : book.updateRows chosen change = book := by
  have components : (book.components.map fun row => if chosen row then change row else row) = book.components := by
    conv_rhs => rw [← map_id book.components]
    refine map_congr_left fun row member => ?_
    rw [none row member]
    rfl
  have memberships : book.memberships.filter (fun membership => ¬ ∃ row ∈ book.components,
      row.id = membership.componentId ∧ chosen row = true ∧ row.state = .active ∧ (change row).state ≠ .active) =
        book.memberships := by
    rw [filter_eq_self]
    intro membership _
    refine decide_eq_true ?_
    rintro ⟨row, member, -, picked, -⟩
    rw [none row member] at picked
    cases picked
  unfold updateRows
  rw [components, memberships]

variable {view : View}

omit wellFormed normalized prospective in
theorem claims_iff (own : view.row = createdRow workspace profile id lineage content)
    (legs : liveTransactions view.legs = liveTransactions content.legs) :
    (∃ memberships, (book.inserted (createdRow workspace profile id lineage content) content
        book.memberships).claimMemberships view = .ok memberships) ↔ MembershipsFree book profile id content := by
  have items : ∀ item, item ∈ membershipsOf view.row.profileId view ↔ item.componentId = id ∧ item.profileId = profile ∧
      item.transactionId ∈ liveTransactions content.legs := by
    intro item
    rw [mem_membershipsOf, legs, own]
    exact Iff.rfl
  have distinct : (membershipsOf view.row.profileId view).Pairwise fun held item => ¬ Collide held item := by
    unfold membershipsOf
    rw [pairwise_map]
    exact (sortedSet_nodup _).imp fun different collide => different collide.1
  have holders : ∀ held : Membership, held.componentId ≠ id →
      ((∃ row ∈ (book.inserted (createdRow workspace profile id lineage content) content book.memberships).components,
        row.id = held.componentId ∧ row.state ≠ .active) ↔
          ∃ row ∈ book.components, row.id = held.componentId ∧ row.state ≠ .active) := by
    intro held different
    constructor
    · rintro ⟨row, member, named, inactive⟩
      rcases mem_append.1 member with old | new
      · exact ⟨row, old, named, inactive⟩
      · rw [mem_singleton.1 new] at named
        exact absurd named.symm different
    · rintro ⟨row, member, holds⟩
      exact ⟨row, mem_append_left _ member, holds⟩
  have claimed : (∃ memberships, (book.inserted (createdRow workspace profile id lineage content) content
        book.memberships).claimMemberships view = .ok memberships) ↔
      ∃ memberships, (membershipsOf view.row.profileId view).foldlM insertMembership
        ((book.inserted (createdRow workspace profile id lineage content) content
          book.memberships).clearedMemberships view) = .ok memberships := by
    unfold claimMemberships
    split
    · rename_i failed
      rw [failed]
      simp
    · rename_i found
      rw [found]
  rw [claimed]
  simp only [insertAll_ok, exists_eq_left]
  constructor
  · rintro ⟨apart, -⟩ held stored different owner live
    by_contra active
    have listed : held ∈ (book.inserted (createdRow workspace profile id lineage content) content
        book.memberships).clearedMemberships view := by
      unfold clearedMemberships
      rw [own, legs]
      refine mem_filter.2 ⟨mem_filter.2 ⟨stored, decide_eq_true different⟩, decide_eq_true ?_⟩
      rintro ⟨-, -, inactive⟩
      exact active ((holders held different).1 inactive)
    exact apart held listed { componentId := id, profileId := profile, transactionId := held.transactionId }
      ((items _).2 ⟨rfl, rfl, live⟩) ⟨rfl, .inr owner⟩
  · intro free
    refine ⟨fun held listed item member collide => ?_, distinct⟩
    obtain ⟨component, owner, live⟩ := (items item).1 member
    unfold clearedMemberships at listed
    rw [own, legs] at listed
    obtain ⟨kept, spared⟩ := mem_filter.1 listed
    obtain ⟨stored, different⟩ := mem_filter.1 kept
    have different : held.componentId ≠ id := of_decide_eq_true different
    obtain ⟨same, either⟩ := collide
    rcases either with sameComponent | sameProfile
    · exact different (sameComponent.trans component)
    · refine of_decide_eq_true spared ⟨sameProfile.trans owner, same ▸ live, ?_⟩
      exact (holders held different).2 (free held stored different (sameProfile.trans owner) (same ▸ live))

def activeRow (workspace profile id lineage : String) (content : Authored) (evidenceCount : Nat) : ComponentRow :=
  { createdRow workspace profile id lineage content with
    state := .active, supersededBy := none, expectedEvidenceCount := some evidenceCount }

omit wellFormed normalized in
theorem retireActives_created (own : view.row = createdRow workspace profile id lineage content) :
    (book.inserted (createdRow workspace profile id lineage content) content book.memberships).retireActives view =
      book.inserted (createdRow workspace profile id lineage content) content book.memberships := by
  unfold retireActives
  refine updateRows_idle _ fun row member => decide_eq_false ?_
  rintro ⟨⟨owner, kin⟩, -, different⟩
  rw [own] at owner kin different
  rcases mem_append.1 member with old | new
  · exact prospective.lineageNew row old owner kin
  · exact different (congrArg ComponentRow.id (mem_singleton.1 new))

omit wellFormed normalized in
theorem markActive_created (evidenceCount : Nat) (memberships : List Membership) :
    (book.inserted (createdRow workspace profile id lineage content) content memberships).markActive id evidenceCount =
      book.inserted (activeRow workspace profile id lineage content evidenceCount) content memberships := by
  have old : book.components.map (fun row => if decide (row.id = id ∧ row.state = .draft) then
      { row with state := .active, supersededBy := none, expectedEvidenceCount := some evidenceCount } else row) =
        book.components := by
    conv_rhs => rw [← map_id book.components]
    refine map_congr_left fun row member => if_neg ?_
    intro chosen
    exact prospective.idNew ((of_decide_eq_true chosen).1 ▸ mem_map_of_mem member)
  have kept : memberships.filter (fun membership => ¬ ∃ row ∈ book.components ++
      [createdRow workspace profile id lineage content], row.id = membership.componentId ∧
        decide (row.id = id ∧ row.state = .draft) = true ∧ row.state = .active ∧ RevisionState.active ≠ .active) =
          memberships := by
    rw [filter_eq_self]
    intro membership _
    refine decide_eq_true ?_
    rintro ⟨row, -, -, -, -, inactive⟩
    exact inactive rfl
  unfold markActive updateRows inserted
  dsimp only
  rw [kept, map_append, old, map_singleton, if_pos (decide_eq_true ⟨rfl, rfl⟩)]
  rfl

theorem storeActivation_created (own : view.row = createdRow workspace profile id lineage content)
    (evidenceCount : Nat) {stored : Tables} :
    (book.inserted (createdRow workspace profile id lineage content) content book.memberships).storeActivation view
        (.ok evidenceCount) = .ok stored ↔
      ∃ memberships, (book.inserted (createdRow workspace profile id lineage content) content
        book.memberships).claimMemberships view = .ok memberships ∧
          stored = book.inserted (activeRow workspace profile id lineage content evidenceCount) content memberships := by
  have active : ∀ memberships, (book.inserted (activeRow workspace profile id lineage content evidenceCount) content
      memberships).stateOf id = some .active := by
    intro memberships
    have after := inserted_wellFormed wellFormed normalized prospective
      (show (activeRow workspace profile id lineage content evidenceCount).id = id from rfl) rfl memberships
    have found := row_eq after (mem_append_right _ (mem_singleton_self
      (activeRow workspace profile id lineage content evidenceCount)))
    exact congrArg (Option.map ComponentRow.state) found
  have linked : ∀ memberships, (book.inserted (activeRow workspace profile id lineage content evidenceCount) content
      memberships).linkReplaced view =
        book.inserted (activeRow workspace profile id lineage content evidenceCount) content memberships := by
    intro memberships
    unfold linkReplaced
    refine updateRows_idle _ fun row _ => decide_eq_false ?_
    rintro ⟨link, -⟩
    rw [own] at link
    cases link
  unfold storeActivation
  rw [retireActives_created prospective workspace own]
  have marked : ∀ memberships, ({ book.inserted (createdRow workspace profile id lineage content) content
      book.memberships with memberships } : Tables).markActive view.row.id evidenceCount =
        book.inserted (activeRow workspace profile id lineage content evidenceCount) content memberships := by
    intro memberships
    rw [own]
    exact markActive_created prospective workspace evidenceCount memberships
  have named : view.row.id = id := congrArg ComponentRow.id own
  constructor
  · intro run
    obtain ⟨memberships, claimed, run⟩ := bind_ok.1 run
    obtain ⟨count, same, run⟩ := bind_ok.1 run
    cases same
    dsimp only at run
    rw [marked, named, if_neg (not_not.2 (active memberships)), linked, pure_ok] at run
    exact ⟨memberships, claimed, run.symm⟩
  · rintro ⟨memberships, claimed, rfl⟩
    refine bind_ok.2 ⟨memberships, claimed, bind_ok.2 ⟨evidenceCount, rfl, ?_⟩⟩
    dsimp only
    rw [marked, named, if_neg (not_not.2 (active memberships)), linked]
    rfl

theorem read_stored (named : row.id = id) (owner : row.profileId = profile)
    (header : row.header = content.header) (memberships : List Membership)
    (checks : PassesOtherChecks imported book profile id content)
    (covered : Covered imported content content.partialLegs) :
    ∃ view, (book.inserted row content memberships).getComponent imported id = .ok view ∧ view.row = row ∧
      view.legs = content.legsOf row := by
  have stored := inserted_wellFormed wellFormed normalized prospective named owner memberships
  have idNew : row.id ∉ book.components.map ComponentRow.id := named ▸ prospective.idNew
  have rows := rows_stored_iff imported wellFormed normalized prospective named header memberships content.partialLegs
  have anchored := (anchors_split imported content content.header.conservationMode content.partialLegs).2
    ⟨checks.anchored, covered⟩
  have routes := (routeIssues_stored imported wellFormed normalized prospective named owner header stored).2 checks.routed
  have found : (book.inserted row content memberships).row row.id = some row :=
    row_eq stored (mem_append_right _ (mem_singleton_self row))
  have own : ∃ issues, (book.inserted row content memberships).ownIssues imported row = .ok issues := by
    refine ⟨_, bind_ok.2 ⟨[], rows.1.2 checks.conserved, bind_ok.2 ⟨[], ?_, rfl⟩⟩⟩
    rw [partialLegs_stored prospective row named]
    exact rows.2.2 anchored
  obtain ⟨issues, ownRun⟩ := own
  unfold getComponent
  rw [← named, found]
  exact ⟨_, bind_ok.2 ⟨issues, ownRun, bind_ok.2 ⟨[], routes, rfl⟩⟩, rfl, inserted_legs wellFormed normalized idNew memberships⟩

theorem validated_created (checks : PassesOtherChecks imported book profile id content)
    (covered : Covered imported content content.partialLegs) :
    ∃ view, (book.inserted (createdRow workspace profile id lineage content) content book.memberships).getComponent
        imported id = .ok view ∧
      (book.inserted (createdRow workspace profile id lineage content) content book.memberships).validateComponentActivation
        imported id none = .ok view ∧
      view.row = createdRow workspace profile id lineage content ∧
      liveTransactions view.legs = liveTransactions content.legs := by
  obtain ⟨view, got, row, legs⟩ := read_stored imported wellFormed normalized prospective
    (show (createdRow workspace profile id lineage content).id = id from rfl) rfl rfl book.memberships checks covered
  obtain ⟨accepted, run⟩ := (created_accepted_iff imported wellFormed normalized prospective workspace).2 ⟨checks, covered⟩
  have validated := run
  obtain ⟨read, gotAgain, judged⟩ := bind_ok.1 run
  rw [got] at gotAgain
  cases gotAgain
  obtain ⟨rfl, -⟩ := judgeActivation_ok judged
  refine ⟨accepted, got, validated, row, ?_⟩
  rw [legs]
  exact liveTransactions_under id profile content.legs

/-- Creating and activating the component succeeds exactly when its checks pass, coverage does with its partial anchors,
and no active component holds one of its transactions. -/
theorem apply_ok_iff (evidenceCount : Nat) :
    (∃ view, (applyContent imported book workspace profile id lineage (.ok content) (.ok evidenceCount)).result = .ok view) ↔
      PassesOtherChecks imported book profile id content ∧ Covered imported content content.partialLegs ∧
        MembershipsFree book profile id content := by
  have lineageFree : ¬ ∃ row ∈ book.components, row.profileId = profile ∧ row.lineageId = lineage := by
    rintro ⟨row, member, owner, kin⟩
    exact prospective.lineageNew row member owner kin
  have created : book.createComponent imported workspace profile id lineage (.ok content) =
      (book.inserted (createdRow workspace profile id lineage content) content book.memberships).shows imported id := by
    unfold createComponent
    rw [if_neg prospective.profileNamed]
    dsimp only
    rw [if_neg lineageFree]
    unfold savepoint
    rw [show content.draft id lineage workspace profile 1 none = createdRow workspace profile id lineage content from rfl,
      insertRevision_prospective normalized prospective rfl]
  unfold applyContent
  dsimp only
  rw [created]
  unfold shows
  dsimp only
  constructor
  · rintro ⟨shown, run⟩
    split at run
    · cases run
    unfold activateComponent at run
    cases validated : (book.inserted (createdRow workspace profile id lineage content) content
        book.memberships).validateComponentActivation imported id none with
    | error e =>
      rw [validated] at run
      cases run
    | ok view =>
      obtain ⟨checks, covered⟩ :=
        (created_accepted_iff imported wellFormed normalized prospective workspace).1 ⟨view, validated⟩
      obtain ⟨read, -, again, row, live⟩ := validated_created imported wellFormed normalized prospective workspace checks
        covered
      obtain rfl : view = read := Except.ok.inj (validated.symm.trans again)
      rw [validated] at run
      dsimp only at run
      rw [row, if_neg (by simp [createdRow, Authored.draft])] at run
      unfold savepoint at run
      split at run
      · cases run
      rename_i stored storing
      obtain ⟨memberships, claimed, -⟩ := (storeActivation_created wellFormed normalized prospective workspace row
        evidenceCount).1 storing
      exact ⟨checks, covered, (claims_iff workspace row live).1 ⟨memberships, claimed⟩⟩
  · rintro ⟨checks, covered, free⟩
    obtain ⟨view, got, validated, row, live⟩ := validated_created imported wellFormed normalized prospective workspace checks
      covered
    obtain ⟨memberships, claimed⟩ := (claims_iff workspace row live).2 free
    have storing := (storeActivation_created wellFormed normalized prospective workspace row evidenceCount).2
      ⟨memberships, claimed, rfl⟩
    obtain ⟨final, finalRead, -⟩ := read_stored imported wellFormed normalized prospective
      (show (activeRow workspace profile id lineage content evidenceCount).id = id from rfl) rfl rfl memberships checks
      covered
    refine ⟨final, ?_⟩
    rw [got]
    dsimp only
    unfold activateComponent
    rw [validated]
    dsimp only
    rw [row, if_neg (by simp [createdRow, Authored.draft])]
    unfold savepoint
    rw [storing]
    exact finalRead

end

end

end

end

variable {book : Tables} {content : Authored}

theorem passes_split {imported : Imported} :
    PassesOtherChecks imported book profile id content ↔ Reviewed content.header content.legs ∧
      PassesOtherChecks imported book profile id { content with header := content.header.approved } := by
  have conserved := conserved_split imported.clock content.header content.legs content.allocations
  constructor
  · intro checks
    obtain ⟨reviewed, approved⟩ := conserved.1 checks.conserved
    exact ⟨reviewed, approved, checks.anchored, checks.unclaimed, checks.routed⟩
  · rintro ⟨reviewed, checks⟩
    exact ⟨conserved.2 ⟨reviewed, checks.conserved⟩, checks.anchored, checks.unclaimed, checks.routed⟩

theorem normalized_under (normalized : content.Normalized) (header : ReviewHeader) :
    ({ content with header } : Authored).Normalized :=
  ⟨normalized.legOrdinals, normalized.legIds, normalized.legTexts, normalized.allocationOrdinals, normalized.allocationIds,
    normalized.allocationEdges, normalized.termIds, normalized.termEdges⟩

theorem prospective_under (prospective : book.Prospective profile id lineage content) (header : ReviewHeader) :
    book.Prospective profile id lineage { content with header } :=
  ⟨prospective.profileNamed, prospective.idNamed, prospective.idNew, prospective.lineageNew, prospective.legsNew,
    prospective.allocationsNew, prospective.termsNew, prospective.termScope⟩

theorem normalizeHeader_fixed {review : ReviewInput} {given header : ReviewHeader}
    (run : review.normalizeComponentHeader given = .ok header) : header.approved = given.approved := by
  unfold ReviewInput.normalizeComponentHeader at run
  split at run
  · cases run
  · obtain ⟨grade, -, run⟩ := bind_ok.1 run
    obtain ⟨policy, -, run⟩ := bind_ok.1 run
    cases run
    rfl

theorem applyContent_refused {imported : Imported} {workspace : String} {e : BookError}
    {captured : Except BookError Nat} {view : View}
    (run : (book.applyContent imported workspace profile id lineage (.error e) captured).result = .ok view) : False := by
  have refused : (book.createComponent imported workspace profile id lineage (.error e)).result = .error e ∨
      (book.createComponent imported workspace profile id lineage (.error e)).result =
        .error (.appError "custody_component_validation" "profile_id is required") := by
    unfold createComponent
    split
    · exact .inr rfl
    · exact .inl rfl
  unfold applyContent at run
  dsimp only at run
  rcases refused with created | created <;>
  · rw [created] at run
    cases run

/-- Sixty of the hundred of a spend, moved to another wallet under one economic term. -/
def partialContent : Authored where
  header := { componentType := "manual_bridge", conservationMode := .quantity }
  legs := [{ sampleLeg "" 0 .source "cold" "spend" (some "spend") with id := "out", amountMsat := 60 },
    { sampleLeg "" 1 .destination "hot" "receipt" (some "receipt") with id := "in", amountMsat := 60 }]
  allocations := [{ id := "edge", componentId := "", ordinal := 0, sourceLegId := "out", sinkLegId := "in",
                    sourceAmountMsat := 60, sinkAmountMsat := 60 }]
  terms := [{ id := "term", componentId := "", sourceLegId := "out", targetLegId := "in" }]
  createdAt := "2024-01-01T00:00:00Z"
  anchored := by simp [sampleLeg]

/-- The plan of some content, without a suspense residual or a conversion to review. -/
def planOf (content : Authored) (evidenceGrade : TextInput) : Plan := { content, review := { evidenceGrade } }

/-- A transfer of all of the hundred. -/
def fullContent : Authored where
  header := { componentType := "manual_bridge", conservationMode := .quantity }
  legs := [{ sampleLeg "" 0 .source "cold" "spend" (some "spend") with id := "out" },
    { sampleLeg "" 1 .destination "hot" "receipt" (some "receipt") with id := "in" }]
  allocations := []
  terms := []
  createdAt := "2024-01-01T00:00:00Z"
  anchored := by simp [sampleLeg]

theorem partialContent_normalized : partialContent.Normalized where
  legOrdinals := by decide +kernel
  legIds := by decide +kernel
  legTexts := by decide +kernel
  allocationOrdinals := by decide +kernel
  allocationIds := by decide +kernel
  allocationEdges := by decide +kernel
  termIds := by decide +kernel
  termEdges := by decide +kernel

theorem partialContent_prospective : empty.Prospective "book" "x" "line" partialContent where
  profileNamed := by decide
  idNamed := by decide
  idNew := by decide
  lineageNew := by decide
  legsNew := by decide +kernel
  allocationsNew := by decide +kernel
  termsNew := by decide +kernel
  termScope := by decide

end Tables

end Kassiber.Custody.Book

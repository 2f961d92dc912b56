import Kassiber.Custody.RouteReplay

/-!
The combined route graph: what its checks report about a component, in terms of the legs alone.
-/

namespace Kassiber.Custody.Book
open Lib.Outcome Lib.Dict Lib.Sorting Lib.UnionFind List

def continuityCode : String := "custody_location_continuity_mismatch"

def launderingCode : String := "custody_network_scope_laundering"

section
variable (clock : String → Option Int)

/-- The replay of a location fails: a source without a transaction is too late for the tolerance. -/
def Jams (legs : List Leg) : Prop := Replayed clock legs ∧ ∃ leg ∈ sourcesOf legs, Overflows clock leg

def Short (legs : List Leg) : Prop := Replayed clock legs ∧ Overdrawn (movementsOf clock legs)

variable {legs : List Leg}

theorem continuityIssue_ok_iff (amounts : ∀ leg ∈ legs, 0 ≤ leg.amountMsat) :
    (∃ found, continuityIssue clock legs = .ok found) ↔ ¬ Jams clock legs := by
  have verdict := continuityIssue_verdict clock amounts
  unfold Jams
  by_cases replayed : Replayed clock legs
  · by_cases overflows : ∃ leg ∈ sourcesOf legs, Overflows clock leg
    · rw [if_neg (not_not.2 replayed), if_pos overflows] at verdict
      cases run : continuityIssue clock legs with
      | error e => simp [replayed, overflows]
      | ok found => rw [run] at verdict; cases verdict
    · rw [if_neg (not_not.2 replayed), if_neg overflows] at verdict
      cases run : continuityIssue clock legs with
      | error e => rw [run] at verdict; cases verdict
      | ok found => simp [overflows]
  · rw [if_pos replayed] at verdict
    cases run : continuityIssue clock legs with
    | error e => rw [run] at verdict; cases verdict
    | ok found => simp [replayed]

theorem continuityIssue_some_iff (amounts : ∀ leg ∈ legs, 0 ≤ leg.amountMsat) {found : Option Issue}
    (run : continuityIssue clock legs = .ok found) : found.isSome ↔ Short clock legs := by
  have verdict := continuityIssue_verdict clock amounts
  unfold Short
  rw [run] at verdict
  by_cases replayed : Replayed clock legs
  · by_cases overflows : ∃ leg ∈ sourcesOf legs, Overflows clock leg
    · rw [if_neg (not_not.2 replayed), if_pos overflows] at verdict
      cases verdict
    · rw [if_neg (not_not.2 replayed), if_neg overflows] at verdict
      have same := Except.ok.inj verdict
      rw [same, decide_eq_true_iff]
      simp [replayed]
  · rw [if_pos replayed] at verdict
    have same := Except.ok.inj verdict
    rw [same]
    simp [replayed]

variable {issue : Issue}

theorem continuityIssue_code (run : continuityIssue clock legs = .ok (some issue)) :
    issue.code = continuityCode := by
  unfold continuityIssue at run
  dsimp only at run
  split at run
  · cases run
  · split at run
    · obtain ⟨movements, _, run⟩ := bind_ok.1 run
      split at run
      · cases run
        rfl
      · cases run
    · cases run

def placeMoves (legs : List Leg) (place : PlaceKey) : List Leg :=
  (legs.filter Leg.moves).filter fun leg => leg.place = place

variable {place : PlaceKey} {issues : List Issue} {untracked : String → Bool} {current : List String}

theorem placeMoves_amounts : ∀ leg ∈ placeMoves legs place, 0 ≤ leg.amountMsat := by
  intro leg member
  have moves := of_decide_eq_true (mem_filter.1 (mem_filter.1 member).1).2
  exact moves.1.le

theorem not_replayed_nil : ¬ Replayed clock [] := fun replayed => replayed.1 rfl

theorem replayed_place (replayed : Replayed clock (placeMoves legs place)) :
    place ∈ (legs.filter Leg.moves).map Leg.place := by
  by_contra absent
  have empty : placeMoves legs place = [] := by
    unfold placeMoves
    rw [filter_eq_nil_iff]
    intro leg member own
    exact absent (mem_map.2 ⟨leg, member, of_decide_eq_true own⟩)
  rw [empty] at replayed
  exact not_replayed_nil clock replayed

theorem mem_places {group : PlaceKey × List Leg} :
    group ∈ sortedBy (fun place => place.1.key) (groupBy Leg.place (legs.filter Leg.moves)) ↔
      group.2 = placeMoves legs group.1 ∧ group.1 ∈ (legs.filter Leg.moves).map Leg.place := by
  obtain ⟨place, members⟩ := group
  rw [(sortedBy_perm _ _).mem_iff, mem_groupBy]
  rfl

theorem replayed_listed (replayed : Replayed clock (placeMoves legs place)) :
    (place, placeMoves legs place) ∈
      sortedBy (fun place => place.1.key) (groupBy Leg.place (legs.filter Leg.moves)) :=
  mem_places.2 ⟨rfl, replayed_place clock replayed⟩

theorem locationContinuity_ok_iff :
    (∃ issues, locationContinuityIssues clock legs = .ok issues) ↔ ∀ place, ¬ Jams clock (placeMoves legs place) := by
  constructor
  · rintro ⟨issues, run⟩ place jams
    unfold locationContinuityIssues at run
    obtain ⟨found, runs, _⟩ := bind_ok.1 run
    obtain ⟨issue, -, own⟩ := mapM_inputs runs (replayed_listed clock jams.1)
    exact (continuityIssue_ok_iff clock placeMoves_amounts).1 ⟨issue, own⟩ jams
  · intro fits
    have total : ∀ group ∈ sortedBy (fun place => place.1.key) (groupBy Leg.place (legs.filter Leg.moves)),
        ∃ found, continuityIssue clock group.2 = .ok found := by
      intro group member
      rw [(mem_places.1 member).1]
      exact (continuityIssue_ok_iff clock placeMoves_amounts).2 (fits group.1)
    obtain ⟨found, runs⟩ := mapM_total total
    exact ⟨_, bind_ok.2 ⟨found, runs, rfl⟩⟩

theorem locationContinuity_nonempty (run : locationContinuityIssues clock legs = .ok issues) :
    issues ≠ [] ↔ ∃ place, Short clock (placeMoves legs place) := by
  unfold locationContinuityIssues at run
  obtain ⟨found, runs, kept⟩ := bind_ok.1 run
  rw [pure_ok] at kept
  subst kept
  constructor
  · intro found
    obtain ⟨issue, member⟩ := exists_mem_of_ne_nil _ found
    obtain ⟨outcome, produced, own⟩ := mem_filterMap.1 member
    obtain ⟨group, listed, checked⟩ := mapM_outputs runs produced
    rw [(mem_places.1 listed).1] at checked
    have some : outcome.isSome := by
      rw [show outcome = some issue from own]
      rfl
    exact ⟨group.1, (continuityIssue_some_iff clock placeMoves_amounts checked).1 some⟩
  · rintro ⟨place, short⟩
    obtain ⟨outcome, produced, own⟩ := mapM_inputs runs (replayed_listed clock short.1)
    obtain ⟨issue, same⟩ := Option.isSome_iff_exists.1 ((continuityIssue_some_iff clock placeMoves_amounts own).2 short)
    exact ne_nil_of_mem (mem_filterMap.2 ⟨outcome, produced, same⟩)

theorem locationContinuity_code (run : locationContinuityIssues clock legs = .ok issues) (member : issue ∈ issues) :
    issue.code = continuityCode := by
  unfold locationContinuityIssues at run
  obtain ⟨found, runs, kept⟩ := bind_ok.1 run
  rw [pure_ok] at kept
  subst kept
  obtain ⟨outcome, produced, own⟩ := mem_filterMap.1 member
  obtain ⟨group, _, checked⟩ := mapM_outputs runs produced
  rw [show outcome = some issue from own] at checked
  exact continuityIssue_code clock checked

def untrackedLegs (untracked : String → Bool) (legs : List Leg) (place : PlaceKey) : List Leg :=
  (legs.filter fun leg => untracked (leg.walletId.getD "")).filter fun leg => leg.place = place

/-- A place that two or more components use, one of them among those given. -/
def Watched (untracked : String → Bool) (legs : List Leg) (current : List String) (place : PlaceKey) : Prop :=
  2 ≤ (namedComponents (untrackedLegs untracked legs place)).length ∧
    ∃ id ∈ namedComponents (untrackedLegs untracked legs place), id ∈ current

theorem mem_namedComponents {id : String} :
    id ∈ namedComponents legs ↔ id ≠ "" ∧ ∃ leg ∈ legs, leg.componentId = id := by
  unfold namedComponents
  rw [mem_sortedSet, mem_filter, mem_map]
  constructor
  · rintro ⟨found, named⟩
    exact ⟨of_decide_eq_true named, found⟩
  · rintro ⟨named, found⟩
    exact ⟨found, decide_eq_true named⟩

theorem placeMoves_untracked {place other : PlaceKey} :
    placeMoves (untrackedLegs untracked legs place) other =
      if other = place then (untrackedLegs untracked legs place).filter Leg.moves else [] := by
  unfold placeMoves
  split
  · next same =>
    subst same
    rw [filter_eq_self]
    intro leg member
    have own := (mem_filter.1 (mem_filter.1 member).1).2
    exact own
  · next different =>
    rw [filter_eq_nil_iff]
    intro leg member same
    have own := of_decide_eq_true (mem_filter.1 (mem_filter.1 member).1).2
    exact different ((of_decide_eq_true same).symm.trans own)

def untrackedMoves (untracked : String → Bool) (legs : List Leg) (place : PlaceKey) : List Leg :=
  (untrackedLegs untracked legs place).filter Leg.moves

theorem untracked_ok_iff :
    (∃ issues, locationContinuityIssues clock (untrackedLegs untracked legs place) = .ok issues) ↔
      ¬ Jams clock (untrackedMoves untracked legs place) := by
  rw [locationContinuity_ok_iff]
  constructor
  · intro fits
    have own := fits place
    rw [placeMoves_untracked, if_pos rfl] at own
    exact own
  · intro fits other
    rw [placeMoves_untracked]
    split
    · exact fits
    · exact fun jams => not_replayed_nil clock jams.1

theorem untracked_nonempty
    (run : locationContinuityIssues clock (untrackedLegs untracked legs place) = .ok issues) :
    issues ≠ [] ↔ Short clock (untrackedMoves untracked legs place) := by
  rw [locationContinuity_nonempty clock run]
  constructor
  · rintro ⟨other, short⟩
    rw [placeMoves_untracked] at short
    split at short
    · exact short
    · exact absurd short.1 (not_replayed_nil clock)
  · intro short
    refine ⟨place, ?_⟩
    rw [placeMoves_untracked, if_pos rfl]
    exact short

def placeCheck (current : List String) (members : List Leg) : Except BookError (List Issue) :=
  if (namedComponents members).length < 2 ∨ ∀ id ∈ namedComponents members, id ∉ current then pure []
  else do
    pure ((← locationContinuityIssues clock members).map fun issue =>
      { issue with componentIds := namedComponents members })

theorem cross_eq (legs : List Leg) (untracked : String → Bool) (current : List String) :
    crossComponentUntrackedContinuityIssues clock legs untracked current = (do
      let found ← (groupBy Leg.place (legs.filter fun leg => untracked (leg.walletId.getD ""))).mapM fun place =>
        placeCheck clock current place.2
      pure found.flatten) := rfl

theorem not_watched :
    (namedComponents (untrackedLegs untracked legs place)).length < 2 ∨
        (∀ id ∈ namedComponents (untrackedLegs untracked legs place), id ∉ current) ↔
      ¬ Watched untracked legs current place := by
  unfold Watched
  rw [not_and_or, not_le]
  push Not
  rfl

theorem watched_listed (watched : Watched untracked legs current place) :
    (place, untrackedLegs untracked legs place) ∈
      groupBy Leg.place (legs.filter fun leg => untracked (leg.walletId.getD "")) := by
  refine mem_groupBy.2 ⟨rfl, ?_⟩
  obtain ⟨-, id, named, -⟩ := watched
  obtain ⟨-, leg, member, -⟩ := mem_namedComponents.1 named
  obtain ⟨kept, own⟩ := mem_filter.1 member
  exact mem_map.2 ⟨leg, kept, of_decide_eq_true own⟩

theorem placeCheck_watched (watched : Watched untracked legs current place) :
    placeCheck clock current (untrackedLegs untracked legs place) = (do
      pure ((← locationContinuityIssues clock (untrackedLegs untracked legs place)).map fun issue =>
        { issue with componentIds := namedComponents (untrackedLegs untracked legs place) })) :=
  if_neg fun idle => not_watched.1 idle watched

theorem cross_ok_iff :
    (∃ issues, crossComponentUntrackedContinuityIssues clock legs untracked current = .ok issues) ↔
      ∀ place, Watched untracked legs current place → ¬ Jams clock (untrackedMoves untracked legs place) := by
  rw [cross_eq]
  constructor
  · rintro ⟨issues, run⟩ place watched
    obtain ⟨found, runs, _⟩ := bind_ok.1 run
    obtain ⟨own, -, checked⟩ := mapM_inputs runs (watched_listed watched)
    rw [placeCheck_watched clock watched] at checked
    obtain ⟨issues, replayed, _⟩ := bind_ok.1 checked
    exact (untracked_ok_iff clock).1 ⟨issues, replayed⟩
  · intro fits
    have total : ∀ group ∈ groupBy Leg.place (legs.filter fun leg => untracked (leg.walletId.getD "")),
        ∃ found, placeCheck clock current group.2 = .ok found := by
      rintro ⟨place, members⟩ member
      obtain ⟨rfl, -⟩ := mem_groupBy.1 member
      show ∃ found, placeCheck clock current (untrackedLegs untracked legs place) = .ok found
      by_cases watched : Watched untracked legs current place
      · rw [placeCheck_watched clock watched]
        obtain ⟨issues, run⟩ := (untracked_ok_iff clock).2 (fits place watched)
        exact ⟨_, bind_ok.2 ⟨issues, run, rfl⟩⟩
      · exact ⟨[], if_pos (not_watched.2 watched)⟩
    obtain ⟨found, runs⟩ := mapM_total total
    exact ⟨_, bind_ok.2 ⟨found, runs, rfl⟩⟩

theorem cross_named
    (run : crossComponentUntrackedContinuityIssues clock legs untracked current = .ok issues) {id : String} :
    (∃ issue ∈ issues, id ∈ issue.componentIds) ↔
      ∃ place, Watched untracked legs current place ∧ id ∈ namedComponents (untrackedLegs untracked legs place) ∧
        Short clock (untrackedMoves untracked legs place) := by
  rw [cross_eq] at run
  obtain ⟨found, runs, flat⟩ := bind_ok.1 run
  rw [pure_ok] at flat
  subst flat
  constructor
  · rintro ⟨issue, member, named⟩
    obtain ⟨part, produced, own⟩ := mem_flatten.1 member
    obtain ⟨⟨place, members⟩, listed, checked⟩ := mapM_outputs runs produced
    obtain ⟨rfl, -⟩ := mem_groupBy.1 listed
    change placeCheck clock current (untrackedLegs untracked legs place) = .ok part at checked
    by_cases watched : Watched untracked legs current place
    · rw [placeCheck_watched clock watched] at checked
      obtain ⟨raw, replayed, same⟩ := bind_ok.1 checked
      rw [pure_ok] at same
      subst same
      obtain ⟨plain, plainMember, rfl⟩ := mem_map.1 own
      exact ⟨place, watched, named, (untracked_nonempty clock replayed).1 (ne_nil_of_mem plainMember)⟩
    · rw [show placeCheck clock current (untrackedLegs untracked legs place) = .ok [] from
        if_pos (not_watched.2 watched)] at checked
      cases checked
      cases own
  · rintro ⟨place, watched, named, short⟩
    obtain ⟨part, produced, checked⟩ := mapM_inputs runs (watched_listed watched)
    rw [placeCheck_watched clock watched] at checked
    obtain ⟨raw, replayed, same⟩ := bind_ok.1 checked
    rw [pure_ok] at same
    subst same
    obtain ⟨issue, member⟩ := exists_mem_of_ne_nil _ ((untracked_nonempty clock replayed).2 short)
    exact ⟨_, mem_flatten.2 ⟨_, produced, mem_map.2 ⟨issue, member, rfl⟩⟩, named⟩

theorem cross_code (run : crossComponentUntrackedContinuityIssues clock legs untracked current = .ok issues)
    (member : issue ∈ issues) : issue.code = continuityCode := by
  rw [cross_eq] at run
  obtain ⟨found, runs, flat⟩ := bind_ok.1 run
  rw [pure_ok] at flat
  subst flat
  obtain ⟨part, produced, own⟩ := mem_flatten.1 member
  obtain ⟨group, _, checked⟩ := mapM_outputs runs produced
  unfold placeCheck at checked
  split at checked
  · cases checked
    cases own
  · obtain ⟨raw, replayed, same⟩ := bind_ok.1 checked
    rw [pure_ok] at same
    subst same
    obtain ⟨plain, plainMember, rfl⟩ := mem_map.1 own
    show plain.code = continuityCode
    exact locationContinuity_code clock replayed plainMember

end

def material (legs : List Leg) : List Leg := legs.filter fun leg => 0 < leg.amountMsat

def Tied (legs : List Leg) (allocations : List Allocation) (x y : String) : Prop :=
  (x, y) ∈ allocationEdges (material legs) allocations .quantity ∨
    ∃ left ∈ (material legs).filter Leg.moves, ∃ right ∈ (material legs).filter Leg.moves,
      left.place = right.place ∧ x = left.id ∧ y = right.id

/-- Legs joined by value and shared locations, however many steps apart. -/
def Routed (legs : List Leg) (allocations : List Allocation) : String → String → Prop :=
  Relation.EqvGen (Tied legs allocations)

def routeEdges (legs : List Leg) (allocations : List Allocation) : List (String × String) :=
  allocationEdges (material legs) allocations .quantity ++ placeEdges (material legs)

variable {legs sources sinks : List Leg} {allocations : List Allocation}

theorem placeEdges_connect {left right : Leg} (leftMember : left ∈ legs.filter Leg.moves)
    (rightMember : right ∈ legs.filter Leg.moves) (same : left.place = right.place) :
    Connected (placeEdges legs) left.id right.id := by
  have listed := exists_group Leg.place leftMember
  cases members : (legs.filter Leg.moves).filter fun leg => leg.place = left.place with
  | nil =>
    have : left ∈ (legs.filter Leg.moves).filter fun leg => leg.place = left.place :=
      mem_filter.2 ⟨leftMember, by simp⟩
    rw [members] at this
    cases this
  | cons first rest =>
    rw [members] at listed
    have joined : ∀ leg ∈ legs.filter Leg.moves, leg.place = left.place → Connected (placeEdges legs) first.id leg.id := by
      intro leg member own
      have grouped : leg ∈ (legs.filter Leg.moves).filter fun leg => leg.place = left.place :=
        mem_filter.2 ⟨member, decide_eq_true own⟩
      rw [members] at grouped
      rcases mem_cons.1 grouped with rfl | later
      · exact .refl _
      · exact .edge (mem_flatMap.2 ⟨_, listed, mem_map.2 ⟨leg, later, rfl⟩⟩)
    exact (joined left leftMember rfl).symm.trans (joined right rightMember same.symm)

theorem mem_placeEdges {edge : String × String} (member : edge ∈ placeEdges legs) :
    ∃ left ∈ legs.filter Leg.moves, ∃ right ∈ legs.filter Leg.moves,
      left.place = right.place ∧ edge.1 = left.id ∧ edge.2 = right.id := by
  obtain ⟨⟨place, members⟩, listed, tied⟩ := mem_flatMap.1 member
  obtain ⟨same, -⟩ := mem_groupBy.1 listed
  cases members with
  | nil => cases tied
  | cons first rest =>
    obtain ⟨leg, later, rfl⟩ := mem_map.1 tied
    have inGroup : ∀ leg ∈ first :: rest, leg ∈ legs.filter Leg.moves ∧ leg.place = place := by
      intro leg own
      rw [same] at own
      obtain ⟨kept, at_⟩ := mem_filter.1 own
      exact ⟨kept, of_decide_eq_true at_⟩
    obtain ⟨firstMember, firstPlace⟩ := inGroup first (.head _)
    obtain ⟨legMember, legPlace⟩ := inGroup leg (.tail _ later)
    exact ⟨first, firstMember, leg, legMember, firstPlace.trans legPlace.symm, rfl, rfl⟩

theorem connected_iff_routed {x y : String} :
    Connected (routeEdges legs allocations) x y ↔ Routed legs allocations x y := by
  constructor
  · refine eqvGen_of_links ?_
    intro x y member
    rcases mem_append.1 member with value | place
    · exact .rel _ _ (.inl value)
    · obtain ⟨left, leftMember, right, rightMember, same, first, second⟩ := mem_placeEdges place
      exact .rel _ _ (.inr ⟨left, leftMember, right, rightMember, same, first, second⟩)
  · refine eqvGen_of_links ?_
    rintro x y (value | ⟨left, leftMember, right, rightMember, same, rfl, rfl⟩)
    · exact .rel _ _ (mem_append_left _ value)
    · exact (placeEdges_connect leftMember rightMember same).mono fun edge member => mem_append_right _ member

/-- A component has a leg on a route that reaches two known domains. -/
def Laundered (legs : List Leg) (allocations : List Allocation) (id : String) : Prop :=
  id ≠ "" ∧ ∃ own ∈ material legs, own.componentId = id ∧
    ∃ left ∈ material legs, ∃ right ∈ material legs, Routed legs allocations own.id left.id ∧
      Routed legs allocations own.id right.id ∧
      ∃ leftDomain rightDomain, left.domain = some leftDomain ∧ right.domain = some rightDomain ∧
        leftDomain ≠ rightDomain

theorem two_domains :
    ¬ (domainsOf legs).length ≤ 1 ↔
      ∃ left ∈ legs, ∃ right ∈ legs, ∃ leftDomain rightDomain, left.domain = some leftDomain ∧
        right.domain = some rightDomain ∧ leftDomain ≠ rightDomain := by
  have nodup : (domainsOf legs).Nodup := sortedSet_nodup _
  have member : ∀ domain, domain ∈ domainsOf legs ↔ ∃ leg ∈ legs, leg.domain = some domain := by
    intro domain
    unfold domainsOf
    rw [mem_sortedSet, mem_filterMap]
  constructor
  · intro many
    match found : domainsOf legs with
    | [] => rw [found] at many; simp at many
    | [_] => rw [found] at many; simp at many
    | first :: second :: rest =>
      rw [found] at nodup
      obtain ⟨left, leftMember, leftDomain⟩ := (member first).1 (by rw [found]; simp)
      obtain ⟨right, rightMember, rightDomain⟩ := (member second).1 (by rw [found]; simp)
      refine ⟨left, leftMember, right, rightMember, first, second, leftDomain, rightDomain, ?_⟩
      rintro rfl
      simp at nodup
  · rintro ⟨left, leftMember, right, rightMember, first, second, leftDomain, rightDomain, different⟩ few
    have firstMember := (member first).2 ⟨left, leftMember, leftDomain⟩
    have secondMember := (member second).2 ⟨right, rightMember, rightDomain⟩
    match found : domainsOf legs with
    | [] => rw [found] at firstMember; cases firstMember
    | [only] =>
      rw [found, mem_singleton] at firstMember secondMember
      exact different (firstMember.trans secondMember.symm)
    | _ :: _ :: _ => rw [found] at few; simp at few

def launderingIssue (route : List Leg) : Option Issue :=
  if (domainsOf route).length ≤ 1 then none
  else some { code := launderingCode, componentIds := namedComponents route, about := domainsOf route }

theorem connectivity_eq (legs : List Leg) (allocations : List Allocation) :
    quantityScopeConnectivityIssues legs allocations .quantity =
      (groupBy (fun leg : Leg => unions (routeEdges legs allocations) leg.id) (material legs)).filterMap
        fun route => launderingIssue route.2 := rfl

theorem connectivity_named {id : String} :
    (∃ issue ∈ quantityScopeConnectivityIssues legs allocations .quantity, id ∈ issue.componentIds) ↔
      Laundered legs allocations id := by
  have routed : ∀ x y, unions (routeEdges legs allocations) x = unions (routeEdges legs allocations) y ↔
      Routed legs allocations x y := fun x y => (unions_same _ x y).trans connected_iff_routed
  rw [connectivity_eq]
  constructor
  · rintro ⟨issue, member, named⟩
    obtain ⟨⟨root, route⟩, listed, made⟩ := mem_filterMap.1 member
    obtain ⟨rfl, -⟩ := mem_groupBy.1 listed
    unfold launderingIssue at made
    split at made
    · cases made
    · next many =>
      cases made
      obtain ⟨left, leftMember, right, rightMember, domains⟩ := two_domains.1 many
      obtain ⟨present, own, ownMember, rfl⟩ := mem_namedComponents.1 named
      rw [mem_filter] at leftMember rightMember ownMember
      have leftRoot := of_decide_eq_true leftMember.2
      have rightRoot := of_decide_eq_true rightMember.2
      have ownRoot := of_decide_eq_true ownMember.2
      exact ⟨present, own, ownMember.1, rfl, left, leftMember.1, right, rightMember.1,
        (routed _ _).1 (ownRoot.trans leftRoot.symm), (routed _ _).1 (ownRoot.trans rightRoot.symm), domains⟩
  · rintro ⟨present, own, ownMember, rfl, left, leftMember, right, rightMember, leftRoute, rightRoute, domains⟩
    have listed := exists_group (fun leg : Leg => unions (routeEdges legs allocations) leg.id) ownMember
    have inRoute : ∀ leg ∈ material legs, Routed legs allocations own.id leg.id →
        leg ∈ (material legs).filter fun leg =>
          unions (routeEdges legs allocations) leg.id = unions (routeEdges legs allocations) own.id := by
      intro leg member connected
      exact mem_filter.2 ⟨member, decide_eq_true ((routed _ _).2 connected).symm⟩
    have many := two_domains.2 ⟨left, inRoute left leftMember leftRoute, right, inRoute right rightMember rightRoute, domains⟩
    refine ⟨_, mem_filterMap.2 ⟨_, listed, if_neg many⟩, ?_⟩
    exact mem_namedComponents.2 ⟨present, own, inRoute own ownMember (.refl _), rfl⟩

theorem connectivity_code {mode : ConservationMode} {issue : Issue}
    (member : issue ∈ quantityScopeConnectivityIssues legs allocations mode) : issue.code = launderingCode := by
  cases mode with
  | conversion => cases member
  | quantity =>
    rw [connectivity_eq] at member
    obtain ⟨route, _, made⟩ := mem_filterMap.1 member
    unfold launderingIssue at made
    split at made <;> cases made
    rfl

section
variable {legs legs' : List Leg} (perm : legs.Perm legs')
include perm

theorem namedComponents_perm : namedComponents legs = namedComponents legs' := by
  refine sortedSet_eq_of_mem fun id => ?_
  exact ((perm.map _).filter _).mem_iff

theorem material_perm : (material legs).Perm (material legs') := perm.filter _

theorem replayed_perm (clock : String → Option Int) : Replayed clock legs ↔ Replayed clock legs' := by
  have sources : (sourcesOf legs).Perm (sourcesOf legs') := perm.filter _
  have credits : (creditsOf legs).Perm (creditsOf legs') := perm.filter _
  unfold Replayed
  simp only [ne_eq, ← length_eq_zero_iff, sources.length_eq, credits.length_eq, sources.mem_iff, credits.mem_iff]

theorem movementsOf_perm (clock : String → Option Int) : (movementsOf clock legs).Perm (movementsOf clock legs') := by
  have sources : (sourcesOf legs).Perm (sourcesOf legs') := perm.filter _
  have credits : (creditsOf legs).Perm (creditsOf legs') := perm.filter _
  have spends : spendOf clock legs = spendOf clock legs' := by
    funext source
    unfold spendOf
    simp only [credits.mem_iff]
  unfold movementsOf
  rw [spends]
  exact (credits.map _).append (sources.filterMap _)

theorem jams_perm (clock : String → Option Int) : Jams clock legs ↔ Jams clock legs' := by
  have sources : (sourcesOf legs).Perm (sourcesOf legs') := perm.filter _
  unfold Jams
  rw [replayed_perm perm clock]
  simp only [sources.mem_iff]

theorem short_perm (clock : String → Option Int) : Short clock legs ↔ Short clock legs' := by
  unfold Short
  rw [replayed_perm perm clock, overdrawn_perm (movementsOf_perm perm clock)]

theorem untrackedLegs_perm (untracked : String → Bool) (place : PlaceKey) :
    (untrackedLegs untracked legs place).Perm (untrackedLegs untracked legs' place) := (perm.filter _).filter _

theorem untrackedMoves_perm (untracked : String → Bool) (place : PlaceKey) :
    (untrackedMoves untracked legs place).Perm (untrackedMoves untracked legs' place) :=
  (untrackedLegs_perm perm untracked place).filter _

end

def Allocation.flow (allocation : Allocation) : (String × String) × (Int × Int) :=
  ((allocation.sourceLegId, allocation.sinkLegId), (allocation.sourceAmountMsat, allocation.sinkAmountMsat))

theorem mem_inferred {pair : Leg × Leg} :
    pair ∈ inferredAllocationLegPairs sources sinks .quantity ↔
      pair.1 ∈ sources ∧ ((sources.length = 1 ∧ pair.2 ∈ sinks) ∨
        (sources.length ≠ 1 ∧
          (sinks.filter fun sink => sink.role = .destination ∨ sink.role = .retained).length = 1 ∧
          (sinks.filter fun sink => sink.role = .fee ∨ sink.role = .external ∨ sink.role = .suspense).length = 0 ∧
          pair.2 ∈ sinks.filter fun sink => sink.role = .destination ∨ sink.role = .retained)) := by
  by_cases one : sources.length = 1
  · obtain ⟨source, rfl⟩ := length_eq_one_iff.1 one
    simp only [inferredAllocationLegPairs, mem_map, mem_singleton, length_singleton, true_and, ne_eq,
      not_true_eq_false, false_and, or_false]
    constructor
    · rintro ⟨sink, member, rfl⟩
      exact ⟨rfl, member⟩
    · rintro ⟨rfl, member⟩
      exact ⟨pair.2, member, rfl⟩
  · simp only [one, false_and, false_or, ne_eq, not_false_eq_true, true_and]
    rcases sources with _ | ⟨first, _ | ⟨second, rest⟩⟩
    · have none : inferredAllocationLegPairs [] sinks .quantity = [] := by
        unfold inferredAllocationLegPairs
        dsimp only
        split <;> rfl
      simp [none]
    · exact absurd rfl one
    unfold inferredAllocationLegPairs
    dsimp only
    generalize sinks.filter (fun sink => sink.role = .destination ∨ sink.role = .retained) = owned
    generalize sinks.filter (fun sink => sink.role = .fee ∨ sink.role = .external ∨ sink.role = .suspense) = attributed
    rcases owned with _ | ⟨only, _ | ⟨other, more⟩⟩
    · simp
    · rcases attributed with _ | ⟨loss, losses⟩
      · simp only [mem_map, length_singleton, length_nil, mem_singleton, true_and]
        constructor
        · rintro ⟨source, member, rfl⟩
          exact ⟨member, rfl⟩
        · rintro ⟨member, same⟩
          exact ⟨pair.1, member, by rw [← same]⟩
      · simp
    · simp

theorem inferred_perm {sources' sinks' : List Leg} (sourcesPerm : sources.Perm sources')
    (sinksPerm : sinks.Perm sinks') {pair : Leg × Leg} :
    pair ∈ inferredAllocationLegPairs sources sinks .quantity ↔
      pair ∈ inferredAllocationLegPairs sources' sinks' .quantity := by
  rw [mem_inferred, mem_inferred, sourcesPerm.mem_iff, sinksPerm.mem_iff, sourcesPerm.length_eq,
    (sinksPerm.filter _).length_eq, (sinksPerm.filter _).length_eq, (sinksPerm.filter _).mem_iff]

theorem completed_flow {component : String} {explicit : List Allocation}
    {flow : (String × String) × (Int × Int)} :
    flow ∈ (completedAllocations component legs explicit .quantity).map Allocation.flow ↔
      (flow ∈ explicit.map Allocation.flow ∨
        (explicit = [] ∧ ∃ pair ∈ inferredAllocationLegPairs (positiveSources legs) (positiveSinks legs) .quantity,
          flow = ((pair.1.id, pair.2.id), (pair.1.amountMsat, pair.2.amountMsat)))) := by
  unfold completedAllocations
  by_cases none : explicit = []
  · rw [if_neg (not_not.2 none), none, map_map]
    simp only [map_nil, not_mem_nil, false_or, true_and, mem_map, Function.comp_apply]
    constructor
    · rintro ⟨⟨pair, ordinal⟩, member, rfl⟩
      exact ⟨pair, (mem_zipIdx' member).2 ▸ getElem_mem _, rfl⟩
    · rintro ⟨pair, member, rfl⟩
      obtain ⟨ordinal, bound, same⟩ := getElem_of_mem member
      refine ⟨(pair, ordinal), ?_, rfl⟩
      rw [mem_zipIdx_iff_getElem?]
      rw [← same]
      exact getElem?_eq_getElem bound
  · rw [if_pos none]
    simp [none]

theorem combined_flow_perm {legs' : List Leg} {allocations' : List Allocation}
    (perm : legs.Perm legs') (allocationsPerm : allocations.Perm allocations') (flow : (String × String) × (Int × Int)) :
    flow ∈ (allocationsWithComponentInference legs allocations .quantity).map Allocation.flow ↔
      flow ∈ (allocationsWithComponentInference legs' allocations' .quantity).map Allocation.flow := by
  have keys : sortedSet (legs.map fun leg => componentKey leg.componentId) =
      sortedSet (legs'.map fun leg => componentKey leg.componentId) :=
    sortedSet_eq_of_mem fun key => (perm.map _).mem_iff
  unfold allocationsWithComponentInference
  rw [keys, map_flatMap, map_flatMap, mem_flatMap, mem_flatMap]
  refine exists_congr fun component => and_congr_right fun _ => ?_
  rw [completed_flow, completed_flow]
  have own : (legs.filter fun leg => componentKey leg.componentId = component).Perm
      (legs'.filter fun leg => componentKey leg.componentId = component) := perm.filter _
  have explicit : (allocations.filter fun allocation => componentKey allocation.componentId = component).Perm
      (allocations'.filter fun allocation => componentKey allocation.componentId = component) :=
    allocationsPerm.filter _
  have empty : allocations.filter (fun allocation => componentKey allocation.componentId = component) = [] ↔
      allocations'.filter (fun allocation => componentKey allocation.componentId = component) = [] := by
    rw [← length_eq_zero_iff, explicit.length_eq, length_eq_zero_iff]
  have pairs : ∀ pair : Leg × Leg,
      pair ∈ inferredAllocationLegPairs (positiveSources (legs.filter fun leg => componentKey leg.componentId = component))
          (positiveSinks (legs.filter fun leg => componentKey leg.componentId = component)) .quantity ↔
        pair ∈ inferredAllocationLegPairs (positiveSources (legs'.filter fun leg => componentKey leg.componentId = component))
          (positiveSinks (legs'.filter fun leg => componentKey leg.componentId = component)) .quantity :=
    fun pair => inferred_perm (own.filter _) (own.filter _)
  rw [(explicit.map _).mem_iff, empty]
  simp only [pairs]

theorem legNamed_iff (distinct : (legs.map Leg.id).Nodup) {id : String} {leg : Leg} :
    legNamed legs id = some leg ↔ leg ∈ legs ∧ leg.id = id := by
  unfold legNamed
  constructor
  · intro found
    have member := mem_of_lookup found
    obtain ⟨other, own, same⟩ := mem_map.1 member
    cases same
    exact ⟨own, rfl⟩
  · rintro ⟨member, rfl⟩
    refine lookup_of_mem ?_ (mem_map.2 ⟨leg, member, rfl⟩)
    rw [map_map]
    exact distinct

theorem mem_allocationEdges (distinct : (legs.map Leg.id).Nodup) {edge : String × String} :
    edge ∈ allocationEdges legs allocations .quantity ↔
      (∃ flow ∈ allocations.map Allocation.flow, flow.1 = edge ∧ (0 < flow.2.1 ∨ 0 < flow.2.2) ∧
        edge.1 ∈ legs.map Leg.id ∧ edge.2 ∈ legs.map Leg.id) ∨
      (allocations.map Allocation.flow = [] ∧
        ∃ pair ∈ inferredAllocationLegPairs (positiveSources legs) (positiveSinks legs) .quantity,
          (0 < pair.1.amountMsat ∨ 0 < pair.2.amountMsat) ∧ edge = (pair.1.id, pair.2.id)) := by
  unfold allocationEdges allocationPairs
  by_cases none : allocations = []
  · rw [if_neg (not_not.2 none), none]
    simp only [map_nil, not_mem_nil, false_and, exists_false, false_or, true_and, mem_map, mem_filter]
    constructor
    · rintro ⟨made, ⟨⟨pair, member, rfl⟩, positive⟩, rfl⟩
      exact ⟨pair, member, of_decide_eq_true positive, rfl⟩
    · rintro ⟨pair, member, positive, rfl⟩
      exact ⟨_, ⟨⟨pair, member, rfl⟩, decide_eq_true positive⟩, rfl⟩
  · rw [if_pos none]
    have nonempty : allocations.map Allocation.flow ≠ [] := by simpa using none
    simp only [nonempty, false_and, or_false, mem_map, mem_filter, mem_filterMap]
    constructor
    · rintro ⟨made, ⟨⟨allocation, member, own⟩, positive⟩, rfl⟩
      unfold Allocation.edge at own
      split at own
      · next source sink sourceFound sinkFound =>
        cases own
        obtain ⟨sourceMember, sourceId⟩ := (legNamed_iff distinct).1 sourceFound
        obtain ⟨sinkMember, sinkId⟩ := (legNamed_iff distinct).1 sinkFound
        refine ⟨allocation.flow, ⟨allocation, member, rfl⟩, ?_, of_decide_eq_true positive, ⟨source, sourceMember, rfl⟩,
          ⟨sink, sinkMember, rfl⟩⟩
        rw [sourceId, sinkId]
        rfl
      · cases own
    · rintro ⟨flow, ⟨allocation, member, rfl⟩, rfl, positive, ⟨source, sourceMember, sourceId⟩, sink, sinkMember, sinkId⟩
      have sourceFound := (legNamed_iff distinct).2 ⟨sourceMember, sourceId⟩
      have sinkFound := (legNamed_iff distinct).2 ⟨sinkMember, sinkId⟩
      refine ⟨{ allocationId := some allocation.id, source, sink, sourceAmountMsat := allocation.sourceAmountMsat,
                sinkAmountMsat := allocation.sinkAmountMsat }, ⟨⟨allocation, member, ?_⟩, decide_eq_true positive⟩, ?_⟩
      · unfold Allocation.edge
        change legNamed legs allocation.sourceLegId = Option.some source at sourceFound
        change legNamed legs allocation.sinkLegId = Option.some sink at sinkFound
        rw [sourceFound, sinkFound]
      · exact Prod.ext sourceId sinkId

section
variable {legs legs' : List Leg} {allocations allocations' : List Allocation}

theorem routed_perm (perm : legs.Perm legs') (distinct : (legs.map Leg.id).Nodup)
    (flows : ∀ flow, flow ∈ allocations.map Allocation.flow ↔ flow ∈ allocations'.map Allocation.flow) :
    Routed legs allocations = Routed legs' allocations' := by
  have kept := material_perm perm
  have distinctKept : ((material legs).map Leg.id).Nodup := distinct.sublist (filter_sublist.map _)
  have distinctKept' : ((material legs').map Leg.id).Nodup := (kept.map _).nodup_iff.1 distinctKept
  have empty : allocations.map Allocation.flow = [] ↔ allocations'.map Allocation.flow = [] := by
    simp only [eq_nil_iff_forall_not_mem, flows]
  have edges : ∀ edge, edge ∈ allocationEdges (material legs) allocations .quantity ↔
      edge ∈ allocationEdges (material legs') allocations' .quantity := by
    intro edge
    rw [mem_allocationEdges distinctKept, mem_allocationEdges distinctKept']
    have pairs : ∀ pair : Leg × Leg,
        pair ∈ inferredAllocationLegPairs (positiveSources (material legs)) (positiveSinks (material legs)) .quantity ↔
          pair ∈ inferredAllocationLegPairs (positiveSources (material legs')) (positiveSinks (material legs')) .quantity :=
      fun pair => inferred_perm (kept.filter _) (kept.filter _)
    simp only [flows, empty, pairs, (kept.map Leg.id).mem_iff]
  have tied : Tied legs allocations = Tied legs' allocations' := by
    funext x y
    unfold Tied
    simp only [edges, (kept.filter _).mem_iff]
  unfold Routed
  rw [tied]

theorem laundered_perm (perm : legs.Perm legs') (distinct : (legs.map Leg.id).Nodup)
    (flows : ∀ flow, flow ∈ allocations.map Allocation.flow ↔ flow ∈ allocations'.map Allocation.flow) (id : String) :
    Laundered legs allocations id ↔ Laundered legs' allocations' id := by
  unfold Laundered
  rw [routed_perm perm distinct flows]
  simp only [(material_perm perm).mem_iff]

end

end Kassiber.Custody.Book

import Kassiber.Custody.AuthoredBook
import Kassiber.Custody.RouteGraph

/-!
A component judged by the graph rebuilt around it and by the graph computed once for its profile.
-/

namespace Kassiber.Custody.Book
open Lib.Outcome Lib.Dict Lib.Sorting Lib.UnionFind List

structure Tables.WellFormed (book : Tables) : Prop where
  componentIds : (book.components.map ComponentRow.id).Nodup
  legIds : (book.legs.map Leg.id).Nodup
  profileNamed : ∀ row ∈ book.components, row.profileId ≠ ""
  legScope : ∀ leg ∈ book.legs, ∃ row ∈ book.components, row.id = leg.componentId ∧ row.profileId = leg.profileId
  allocationScope : ∀ allocation ∈ book.allocations, ∃ leg ∈ book.legs, leg.id = allocation.sourceLegId ∧
    leg.componentId = allocation.componentId

namespace Tables

variable {book : Tables}

theorem mem_legsOf {id : String} {leg : Leg} :
    leg ∈ book.legsOf id ↔ leg ∈ book.legs ∧ leg.componentId = id := by
  unfold legsOf
  rw [(sortedBy_perm _ _).mem_iff, mem_filter, decide_eq_true_iff]

theorem mem_allocationsOf {id : String} {allocation : Allocation} :
    allocation ∈ book.allocationsOf id ↔ allocation ∈ book.allocations ∧ allocation.componentId = id := by
  unfold allocationsOf
  rw [(sortedBy_perm _ _).mem_iff, mem_filter, decide_eq_true_iff]

theorem mem_activeRoutes {profile : String} {row : ComponentRow} :
    row ∈ book.activeRoutes profile ↔ row ∈ book.components ∧ row.profileId = profile ∧ row.state = .active ∧
      row.header.conservationMode = .quantity := by
  unfold activeRoutes
  rw [(sortedBy_perm _ _).mem_iff, mem_filter, decide_eq_true_iff]

section
variable {book : Tables} (wellFormed : book.WellFormed)
include wellFormed

variable {row : ComponentRow}

theorem row_eq (member : row ∈ book.components) : book.row row.id = some row := by
  have distinct := wellFormed.componentIds
  unfold Tables.row
  generalize book.components = rows at member distinct
  induction rows with
  | nil => cases member
  | cons first rest ih =>
    rw [map_cons, nodup_cons] at distinct
    rcases mem_cons.1 member with rfl | later
    · simp
    · have different : first.id ≠ row.id := fun same =>
        distinct.1 (same ▸ mem_map_of_mem later)
      rw [find?_cons_of_neg (by simpa using different)]
      exact ih later distinct.2

theorem same_row {other : ComponentRow} (member : row ∈ book.components) (otherMember : other ∈ book.components)
    (same : row.id = other.id) : row = other := by
  have found := row_eq wellFormed member
  rw [same, row_eq wellFormed otherMember] at found
  exact (Option.some.inj found).symm

theorem legsOf_profile (member : row ∈ book.components) {leg : Leg}
    (own : leg ∈ book.legsOf row.id) : leg.profileId = row.profileId := by
  obtain ⟨stored, component⟩ := mem_legsOf.1 own
  obtain ⟨other, otherMember, same, profile⟩ := wellFormed.legScope leg stored
  rw [same_row wellFormed member otherMember (component.symm.trans same.symm), profile]

theorem activeRoutes_perm {profile : String} (member : row ∈ book.activeRoutes profile) :
    (book.activeRoutes profile).Perm (row :: (book.activeRoutes profile).filter fun other => other.id ≠ row.id) := by
  have distinct : ((book.activeRoutes profile).map ComponentRow.id).Nodup := by
    unfold activeRoutes
    rw [((sortedBy_perm _ _).map _).nodup_iff]
    exact wellFormed.componentIds.sublist (filter_sublist.map _)
  generalize book.activeRoutes profile = rows at member distinct
  induction rows with
  | nil => cases member
  | cons first rest ih =>
    rw [map_cons, nodup_cons] at distinct
    rcases mem_cons.1 member with rfl | later
    · refine List.Perm.cons _ ?_
      rw [filter_cons_of_neg (by simp), filter_eq_self.2]
      intro other otherMember
      exact decide_eq_true fun same => distinct.1 (same ▸ mem_map_of_mem otherMember)
    · have different : first.id ≠ row.id := fun same => distinct.1 (same ▸ mem_map_of_mem later)
      rw [filter_cons_of_pos (by simpa using different)]
      exact ((ih later distinct.2).cons first).trans (List.Perm.swap _ _ _)

theorem routeLegs_distinct (rows : List ComponentRow) (distinct : (rows.map ComponentRow.id).Nodup) :
    ((rows.flatMap fun row => book.legsOf row.id).map Leg.id).Nodup := by
  have sorted : ∀ id, (book.legsOf id).map Leg.id |>.Nodup := by
    intro id
    unfold legsOf
    rw [((sortedBy_perm _ _).map _).nodup_iff]
    exact wellFormed.legIds.sublist (filter_sublist.map _)
  induction rows with
  | nil => exact nodup_nil
  | cons first rest ih =>
    rw [map_cons, nodup_cons] at distinct
    rw [flatMap_cons, map_append, nodup_append]
    refine ⟨sorted first.id, ih distinct.2, ?_⟩
    intro id ownMember other otherMember same
    subst same
    obtain ⟨leg, own, rfl⟩ := mem_map.1 ownMember
    obtain ⟨leg', listed, sameId⟩ := mem_map.1 otherMember
    obtain ⟨row, rowMember, own'⟩ := mem_flatMap.1 listed
    obtain ⟨stored, component⟩ := mem_legsOf.1 own
    obtain ⟨stored', component'⟩ := mem_legsOf.1 own'
    have sameLeg := inj_on_of_nodup_map wellFormed.legIds stored' stored sameId
    rw [sameLeg, component] at component'
    exact distinct.1 (component' ▸ mem_map_of_mem rowMember)

end

/-! ### Routes shared with others -/

section
variable (imported : Imported)

@[simp] theorem scopedLeg_id (leg : Leg) : (imported.scopedLeg leg).id = leg.id := by
  unfold Imported.scopedLeg
  split <;> rfl

@[simp] theorem scopedLeg_componentId (leg : Leg) : (imported.scopedLeg leg).componentId = leg.componentId := by
  unfold Imported.scopedLeg
  split <;> rfl

theorem scopedLegs_ids (legs : List Leg) : (legs.map imported.scopedLeg).map Leg.id = legs.map Leg.id := by
  rw [map_map]
  exact map_congr_left fun leg _ => scopedLeg_id imported leg

theorem scopedLegs_components (legs : List Leg) : namedComponents (legs.map imported.scopedLeg) = namedComponents legs := by
  unfold namedComponents
  rw [map_map]
  congr 2
  exact map_congr_left fun leg _ => scopedLeg_componentId imported leg

/-- A component's routes reach two domains in the combined graph of some legs and allocations. -/
def LaundersIn (legs : List Leg) (allocations : List Allocation) (id : String) : Prop :=
  Laundered (legs.map imported.scopedLeg)
    (allocationsWithComponentInference (legs.map imported.scopedLeg) allocations .quantity) id

def SharedPlace (legs : List Leg) (place : PlaceKey) : Prop :=
  2 ≤ (namedComponents (untrackedLegs imported.untracked (legs.map imported.scopedLeg) place)).length

def UsesPlace (legs : List Leg) (id : String) (place : PlaceKey) : Prop :=
  id ∈ namedComponents (untrackedLegs imported.untracked (legs.map imported.scopedLeg) place)

def PlaceJams (legs : List Leg) (place : PlaceKey) : Prop :=
  Jams imported.clock (untrackedMoves imported.untracked (legs.map imported.scopedLeg) place)

def PlaceShort (legs : List Leg) (place : PlaceKey) : Prop :=
  Short imported.clock (untrackedMoves imported.untracked (legs.map imported.scopedLeg) place)

variable {current : List String} {allocations : List Allocation} {issues : List Issue} {id : String}
  {legs : List Leg} {book : Tables} {row : ComponentRow} {own routes : List Issue}

theorem watched_iff {place : PlaceKey} :
    Watched imported.untracked (legs.map imported.scopedLeg) current place ↔
      SharedPlace imported legs place ∧ ∃ id ∈ current, UsesPlace imported legs id place := by
  unfold Watched SharedPlace UsesPlace
  constructor
  · rintro ⟨shared, id, uses, own⟩
    exact ⟨shared, id, own, uses⟩
  · rintro ⟨shared, id, own, uses⟩
    exact ⟨shared, id, uses, own⟩

theorem combined_ok_iff :
    (∃ issues, combinedRouteIssues imported legs allocations current = .ok issues) ↔
      ∀ place, SharedPlace imported legs place → (∃ id ∈ current, UsesPlace imported legs id place) →
        ¬ PlaceJams imported legs place := by
  have crossed := @cross_ok_iff imported.clock (legs.map imported.scopedLeg) imported.untracked current
  constructor
  · rintro ⟨issues, run⟩ place shared uses
    obtain ⟨continuity, checked, _⟩ := bind_ok.1 run
    exact crossed.1 ⟨continuity, checked⟩ place ((watched_iff imported).2 ⟨shared, uses⟩)
  · intro fits
    obtain ⟨continuity, checked⟩ := crossed.2 fun place watched =>
      fits place ((watched_iff imported).1 watched).1 ((watched_iff imported).1 watched).2
    exact ⟨_, bind_ok.2 ⟨continuity, checked, rfl⟩⟩

theorem combined_codes
    (run : combinedRouteIssues imported legs allocations current = .ok issues) {id code : String} (own : id ∈ current) :
    (∃ issue ∈ issues, id ∈ issue.componentIds ∧ issue.code = code) ↔
      (code = launderingCode ∧ LaundersIn imported legs allocations id) ∨
        (code = continuityCode ∧ ∃ place, SharedPlace imported legs place ∧ UsesPlace imported legs id place ∧
          PlaceShort imported legs place) := by
  obtain ⟨continuity, checked, same⟩ := bind_ok.1 run
  rw [pure_ok] at same
  subst same
  have laundering := @connectivity_named (legs.map imported.scopedLeg)
    (allocationsWithComponentInference (legs.map imported.scopedLeg) allocations .quantity) id
  have crossed := @cross_named imported.clock _ _ imported.untracked _ checked id
  constructor
  · rintro ⟨issue, member, named, rfl⟩
    rcases mem_append.1 member with connected | replayed
    · exact .inl ⟨connectivity_code connected, laundering.1 ⟨issue, connected, named⟩⟩
    · obtain ⟨place, watched, uses, short⟩ := crossed.1 ⟨issue, replayed, named⟩
      exact .inr ⟨cross_code imported.clock checked replayed, place, ((watched_iff imported).1 watched).1, uses, short⟩
  · rintro (⟨rfl, launders⟩ | ⟨rfl, place, shared, uses, short⟩)
    · obtain ⟨issue, connected, named⟩ := laundering.2 launders
      exact ⟨issue, mem_append_left _ connected, named, connectivity_code connected⟩
    · obtain ⟨issue, replayed, named⟩ := crossed.2 ⟨place, (watched_iff imported).2 ⟨shared, id, own, uses⟩, uses, short⟩
      exact ⟨issue, mem_append_right _ replayed, named, cross_code imported.clock checked replayed⟩

/-! Neither the codes nor the failures depend on the order of the components. -/

section
variable {legs legs' : List Leg} (perm : legs.Perm legs')
include perm

theorem sharedPlace_perm (place : PlaceKey) : SharedPlace imported legs place ↔ SharedPlace imported legs' place := by
  unfold SharedPlace
  rw [namedComponents_perm (untrackedLegs_perm (perm.map _) _ place)]

theorem usesPlace_perm (id : String) (place : PlaceKey) :
    UsesPlace imported legs id place ↔ UsesPlace imported legs' id place := by
  unfold UsesPlace
  rw [namedComponents_perm (untrackedLegs_perm (perm.map _) _ place)]

theorem placeJams_perm (place : PlaceKey) : PlaceJams imported legs place ↔ PlaceJams imported legs' place :=
  jams_perm (untrackedMoves_perm (perm.map _) _ place) _

theorem placeShort_perm (place : PlaceKey) : PlaceShort imported legs place ↔ PlaceShort imported legs' place :=
  short_perm (untrackedMoves_perm (perm.map _) _ place) _

theorem launders_perm {allocations allocations' : List Allocation} (allocationsPerm : allocations.Perm allocations')
    (distinct : (legs.map Leg.id).Nodup) (id : String) :
    LaundersIn imported legs allocations id ↔ LaundersIn imported legs' allocations' id := by
  refine laundered_perm (perm.map _) ?_ (combined_flow_perm (perm.map _) allocationsPerm) id
  rw [scopedLegs_ids]
  exact distinct

end

theorem positive_material (legs : List Leg) :
    positiveSources (material legs) = positiveSources legs ∧ positiveSinks (material legs) = positiveSinks legs := by
  unfold positiveSources positiveSinks material
  constructor <;>
  · rw [filter_filter]
    refine filter_congr fun leg _ => ?_
    by_cases positive : 0 < leg.amountMsat <;> simp [positive]

theorem laundered_mono {allocations others : List Allocation}
    (edges : ∀ edge, edge ∈ allocationEdges (material legs) allocations .quantity →
      edge ∈ allocationEdges (material legs) others .quantity)
    (laundered : Laundered legs allocations id) : Laundered legs others id := by
  have routed : ∀ {x y : String}, Routed legs allocations x y → Routed legs others x y := by
    refine fun connected => eqvGen_of_links ?_ connected
    rintro x y (value | place)
    · exact .rel _ _ (.inl (edges _ value))
    · exact .rel _ _ (.inr place)
  obtain ⟨named, own, member, component, left, leftMember, right, rightMember, leftRoute, rightRoute, domains⟩ := laundered
  exact ⟨named, own, member, component, left, leftMember, right, rightMember, routed leftRoute, routed rightRoute, domains⟩

theorem launders_single (distinct : (legs.map Leg.id).Nodup) (ownLegs : ∀ leg ∈ legs, leg.componentId = id)
    (ownAllocations : ∀ allocation ∈ allocations, allocation.componentId = id)
    (launders : LaundersIn imported legs allocations id) : Laundered (legs.map imported.scopedLeg) allocations id := by
  unfold LaundersIn at launders
  have distinctScopes : ((legs.map imported.scopedLeg).map Leg.id).Nodup := by rw [scopedLegs_ids]; exact distinct
  have ownScopes : ∀ leg ∈ legs.map imported.scopedLeg, leg.componentId = id := by
    intro leg member
    obtain ⟨plain, plainMember, rfl⟩ := mem_map.1 member
    rw [scopedLeg_componentId]
    exact ownLegs plain plainMember
  generalize legs.map imported.scopedLeg = scopes at launders distinctScopes ownScopes
  have nonempty : scopes ≠ [] := by
    obtain ⟨-, own, member, -⟩ := launders
    exact ne_nil_of_mem (mem_filter.1 member).1
  have combined : allocationsWithComponentInference scopes allocations .quantity =
      completedAllocations (componentKey id) scopes allocations .quantity := by
    have keys : sortedSet (scopes.map fun leg => componentKey leg.componentId) = [componentKey id] := by
      have : sortedSet (scopes.map fun leg => componentKey leg.componentId) = sortedSet [componentKey id] := by
        refine sortedSet_eq_of_mem fun key => ?_
        rw [mem_map, mem_singleton]
        constructor
        · rintro ⟨leg, member, rfl⟩
          rw [ownScopes leg member]
        · rintro rfl
          obtain ⟨leg, member⟩ := exists_mem_of_ne_nil _ nonempty
          exact ⟨leg, member, by rw [ownScopes leg member]⟩
      rw [this]
      rfl
    have allLegs : scopes.filter (fun leg => componentKey leg.componentId = componentKey id) = scopes :=
      filter_eq_self.2 fun leg member => decide_eq_true (by rw [ownScopes leg member])
    have allAllocations : allocations.filter (fun allocation => componentKey allocation.componentId = componentKey id) =
        allocations :=
      filter_eq_self.2 fun allocation member => decide_eq_true (by rw [ownAllocations allocation member])
    unfold allocationsWithComponentInference
    rw [keys, flatMap_cons, flatMap_nil, append_nil, allLegs, allAllocations]
  rw [combined] at launders
  refine laundered_mono (fun edge member => ?_) launders
  by_cases explicit : allocations = []
  · have kept : ((material scopes).map Leg.id).Nodup := distinctScopes.sublist (filter_sublist.map _)
    rw [mem_allocationEdges kept] at member ⊢
    rw [explicit] at member ⊢
    refine .inr ⟨rfl, ?_⟩
    rcases member with ⟨flow, flowMember, rfl, positive, -⟩ | ⟨-, pair, pairMember, positive, rfl⟩
    · rcases completed_flow.1 flowMember with given | ⟨-, pair, pairMember, rfl⟩
      · cases given
      · rw [(positive_material scopes).1, (positive_material scopes).2]
        exact ⟨pair, pairMember, positive, rfl⟩
    · exact ⟨pair, pairMember, positive, rfl⟩
  · have same : completedAllocations (componentKey id) scopes allocations .quantity = allocations := if_pos explicit
    rw [same] at member
    exact member

/-! ### The graph around a component and the graph of its profile -/

def graphLegs (book : Tables) (profile : String) : List Leg :=
  (book.activeRoutes profile).flatMap fun row => book.legsOf row.id

def graphAllocations (book : Tables) (profile : String) : List Allocation :=
  (book.activeRoutes profile).flatMap fun row => book.allocationsOf row.id

def otherRoutes (book : Tables) (row : ComponentRow) : List ComponentRow :=
  (book.activeRoutes row.profileId).filter fun other => other.id ≠ row.id

def otherLegs (book : Tables) (row : ComponentRow) : List Leg :=
  (book.otherRoutes row).flatMap fun other => book.legsOf other.id

def otherAllocations (book : Tables) (row : ComponentRow) : List Allocation :=
  (book.otherRoutes row).flatMap fun other => book.allocationsOf other.id

theorem namedComponents_own (book : Tables) (row : ComponentRow) : namedComponents (book.legsOf row.id) =
    if row.id = "" ∨ book.legsOf row.id = [] then [] else [row.id] := by
  have ids : ∀ id, id ∈ namedComponents (book.legsOf row.id) ↔ id ≠ "" ∧ id = row.id ∧ book.legsOf row.id ≠ [] := by
    intro id
    rw [mem_namedComponents]
    constructor
    · rintro ⟨named, leg, own, rfl⟩
      exact ⟨named, (mem_legsOf.1 own).2, ne_nil_of_mem own⟩
    · rintro ⟨named, rfl, some⟩
      obtain ⟨leg, own⟩ := exists_mem_of_ne_nil _ some
      exact ⟨named, leg, own, (mem_legsOf.1 own).2⟩
  by_cases none : row.id = "" ∨ book.legsOf row.id = []
  · rw [if_pos none, eq_nil_iff_forall_not_mem]
    intro id listed
    obtain ⟨named, rfl, some⟩ := (ids id).1 listed
    rcases none with empty | empty
    · exact named empty
    · exact some empty
  · rw [if_neg none]
    rw [not_or] at none
    have same : namedComponents (book.legsOf row.id) = sortedSet [row.id] := by
      have : sortedSet (namedComponents (book.legsOf row.id)) = sortedSet [row.id] := by
        refine sortedSet_eq_of_mem fun id => ?_
        rw [ids, mem_singleton]
        constructor
        · exact fun own => own.2.1
        · rintro rfl
          exact ⟨none.1, rfl, none.2⟩
      rw [← this]
      unfold namedComponents
      exact sortedSet_eq_of_mem fun id => mem_sortedSet.symm
    rw [same]
    rfl

section
variable {book : Tables} (wellFormed : book.WellFormed) {row : ComponentRow} (member : row ∈ book.components)
include wellFormed member

theorem otherContent_own (some : ¬ (row.id = "" ∨ book.legsOf row.id = [])) :
    book.otherActiveQuantityContent (book.legsOf row.id) = (book.otherLegs row, book.otherAllocations row) := by
  have profiles : sortedSet (((book.legsOf row.id).map Leg.profileId).filter fun id => id ≠ "") = [row.profileId] := by
    have : sortedSet (((book.legsOf row.id).map Leg.profileId).filter fun id => id ≠ "") = sortedSet [row.profileId] := by
      refine sortedSet_eq_of_mem fun id => ?_
      rw [mem_filter, mem_map, mem_singleton]
      constructor
      · rintro ⟨⟨leg, own, rfl⟩, -⟩
        exact legsOf_profile wellFormed member own
      · rintro rfl
        obtain ⟨leg, own⟩ := exists_mem_of_ne_nil _ (not_or.1 some).2
        exact ⟨⟨leg, own, legsOf_profile wellFormed member own⟩, decide_eq_true (wellFormed.profileNamed row member)⟩
    rw [this]
    rfl
  unfold otherActiveQuantityContent
  rw [namedComponents_own, if_neg some, profiles]
  rfl

theorem ownRoutes_eq (some : ¬ (row.id = "" ∨ book.legsOf row.id = [])) :
    book.ownRouteIssues imported (book.legsOf row.id) (book.allocationsOf row.id) =
      if book.otherLegs row = [] then pure []
      else (combinedRouteIssues imported (book.legsOf row.id ++ book.otherLegs row)
        (book.allocationsOf row.id ++ book.otherAllocations row) [row.id]).map
          (filter fun issue => names [row.id] issue) := by
  unfold ownRouteIssues
  rw [otherContent_own wellFormed member some, namedComponents_own, if_neg some]
  dsimp only
  split
  · rfl
  · cases combinedRouteIssues imported (book.legsOf row.id ++ book.otherLegs row)
      (book.allocationsOf row.id ++ book.otherAllocations row) [row.id] <;> rfl

omit member in
theorem graph_perm (active : row ∈ book.activeRoutes row.profileId) :
    (book.graphLegs row.profileId).Perm (book.legsOf row.id ++ book.otherLegs row) ∧
      (book.graphAllocations row.profileId).Perm (book.allocationsOf row.id ++ book.otherAllocations row) := by
  have rows := activeRoutes_perm wellFormed active
  exact ⟨rows.flatMap_right _, rows.flatMap_right _⟩

omit member in
theorem graphLegs_distinct (profile : String) : ((book.graphLegs profile).map Leg.id).Nodup := by
  refine routeLegs_distinct wellFormed _ ?_
  unfold activeRoutes
  rw [((sortedBy_perm _ _).map _).nodup_iff]
  exact wellFormed.componentIds.sublist (filter_sublist.map _)

end

theorem names_singleton {issue : Issue} : names [id] issue ↔ id ∈ issue.componentIds := by
  unfold names
  constructor
  · rintro ⟨own, member, same⟩
    rw [mem_singleton] at same
    exact same ▸ member
  · intro member
    exact ⟨id, member, mem_singleton_self id⟩

theorem not_shared_single (own : ∀ leg ∈ legs, leg.componentId = id) (place : PlaceKey) :
    ¬ SharedPlace imported legs place := by
  intro shared
  have only : ∀ other ∈ namedComponents (untrackedLegs imported.untracked (legs.map imported.scopedLeg) place), other = id := by
    intro other named
    obtain ⟨-, leg, member, rfl⟩ := mem_namedComponents.1 named
    obtain ⟨plain, plainMember, rfl⟩ := mem_map.1 (mem_filter.1 (mem_filter.1 member).1).1
    rw [scopedLeg_componentId]
    exact own plain plainMember
  have nodup : (namedComponents (untrackedLegs imported.untracked (legs.map imported.scopedLeg) place)).Nodup :=
    sortedSet_nodup _
  unfold SharedPlace at shared
  generalize namedComponents (untrackedLegs imported.untracked (legs.map imported.scopedLeg) place) = ids at *
  match ids with
  | [] => simp at shared
  | [_] => simp at shared
  | first :: second :: rest =>
    have same : first = second := (only first (by simp)).trans (only second (by simp)).symm
    simp [same] at nodup

/-! ### Agreement of the two views -/

def codes (issues : List Issue) : Set String := { code | ∃ issue ∈ issues, issue.code = code }

theorem codes_append (xs ys : List Issue) : codes (xs ++ ys) = codes xs ∪ codes ys := by
  ext code
  simp only [codes, mem_append, Set.mem_ofPred_eq, Set.mem_union]
  constructor
  · rintro ⟨issue, left | right, own⟩
    · exact .inl ⟨issue, left, own⟩
    · exact .inr ⟨issue, right, own⟩
  · rintro (⟨issue, member, own⟩ | ⟨issue, member, own⟩)
    · exact ⟨issue, .inl member, own⟩
    · exact ⟨issue, .inr member, own⟩

theorem codes_empty : codes issues = ∅ ↔ issues = [] := by
  rw [Set.eq_empty_iff_forall_notMem, eq_nil_iff_forall_not_mem]
  constructor
  · intro none issue member
    exact none issue.code ⟨issue, member, rfl⟩
  · rintro none code ⟨issue, member, -⟩
    exact none issue member

/-- Two views give a component one effective state and one set of issue codes. -/
structure SameVerdict (left right : View) : Prop where
  state : left.effectiveState = right.effectiveState
  codes : codes left.issues = codes right.issues

theorem filter_named_codes :
    codes (issues.filter fun issue => names [id] issue) =
      { code | ∃ issue ∈ issues, id ∈ issue.componentIds ∧ issue.code = code } := by
  ext code
  simp only [codes, Set.mem_ofPred_eq, mem_filter, decide_eq_true_iff, names_singleton, and_assoc]

theorem ownIssues_laundering
    (run : book.ownIssues imported row = .ok own) (quantity : row.header.conservationMode = .quantity)
    (laundered : Laundered ((book.legsOf row.id).map imported.scopedLeg) (book.allocationsOf row.id) row.id) :
    launderingCode ∈ codes own := by
  obtain ⟨conservation, -, run⟩ := bind_ok.1 run
  obtain ⟨anchors, anchored, run⟩ := bind_ok.1 run
  rw [pure_ok] at run
  subst run
  rw [quantity] at anchored
  obtain ⟨chronology, -, listed⟩ := bind_ok.1 anchored
  rw [pure_ok] at listed
  subst listed
  obtain ⟨issue, member, -⟩ := connectivity_named.2 laundered
  refine ⟨issue, ?_, connectivity_code member⟩
  simp only [mem_append]
  exact .inl (.inr (.inl (.inr member)))

theorem unnamed_issues (bare : row.id = "" ∨ book.legsOf row.id = [])
    (issues : List Issue) : issues.filter (fun issue => names (namedComponents (book.legsOf row.id)) issue) = [] := by
  rw [namedComponents_own, if_pos bare, filter_eq_nil_iff]
  rintro issue - named
  obtain ⟨id, -, listed⟩ := of_decide_eq_true named
  cases listed

/-- The routes of a profile are those of the graph of its active components, and it names each of them. -/
theorem profile_graph (wellFormed : book.WellFormed)
    (active : row ∈ book.activeRoutes row.profileId) (some : ¬(row.id = "" ∨ book.legsOf row.id = []))
    (run : book.profileActiveRouteIssues imported row.profileId = .ok routes) :
    combinedRouteIssues imported (book.graphLegs row.profileId) (book.graphAllocations row.profileId)
        (namedComponents ((book.graphLegs row.profileId).map imported.scopedLeg)) = .ok routes ∧
      row.id ∈ namedComponents ((book.graphLegs row.profileId).map imported.scopedLeg) := by
  have legsPerm := (graph_perm wellFormed active).1
  have nonempty : book.graphLegs row.profileId ≠ [] := by
    intro empty
    rw [empty, nil_perm] at legsPerm
    exact some (.inr (append_eq_nil_iff.1 legsPerm).1)
  refine ⟨?_, ?_⟩
  · rw [← run]
    exact (if_neg nonempty).symm
  · rw [scopedLegs_components, namedComponents_perm legsPerm, mem_namedComponents]
    obtain ⟨leg, leads⟩ := exists_mem_of_ne_nil _ (not_or.1 some).2
    exact ⟨(not_or.1 some).1, leg, mem_append_left _ leads, (mem_legsOf.1 leads).2⟩

/-- No route of a component reaches two domains in the graph of its profile, and no place it shares runs short. -/
def Straight (book : Tables) (row : ComponentRow) : Prop :=
  ¬LaundersIn imported (book.graphLegs row.profileId) (book.graphAllocations row.profileId) row.id ∧
    ∀ place, SharedPlace imported (book.graphLegs row.profileId) place →
      UsesPlace imported (book.graphLegs row.profileId) row.id place →
        ¬PlaceShort imported (book.graphLegs row.profileId) place

/-- The routes of a profile name an active component exactly when its own routes are not straight. -/
theorem profile_silent_iff (wellFormed : book.WellFormed) (active : row ∈ book.activeRoutes row.profileId)
    (run : book.profileActiveRouteIssues imported row.profileId = .ok routes) :
    (routes.filter fun issue => names (namedComponents (book.legsOf row.id)) issue) = [] ↔ Straight imported book row := by
  by_cases bare : row.id = "" ∨ book.legsOf row.id = []
  · have nowhere : ∀ leg ∈ book.graphLegs row.profileId, row.id ≠ "" → leg.componentId ≠ row.id := by
      intro leg member named own
      obtain ⟨other, -, stored⟩ := mem_flatMap.1 member
      exact ne_nil_of_mem (mem_legsOf.2 ⟨(mem_legsOf.1 stored).1, own⟩) (bare.resolve_left named)
    rw [unnamed_issues bare]
    refine ⟨fun _ => ⟨fun launders => ?_, fun place _ uses _ => ?_⟩, fun _ => rfl⟩
    · obtain ⟨named, own, member, same, -⟩ := launders
      obtain ⟨plain, listed, rfl⟩ := mem_map.1 (mem_filter.1 member).1
      exact nowhere plain listed named (scopedLeg_componentId imported plain ▸ same)
    · obtain ⟨named, own, member, same⟩ := mem_namedComponents.1 uses
      obtain ⟨plain, listed, rfl⟩ := mem_map.1 (mem_filter.1 (mem_filter.1 member).1).1
      exact nowhere plain listed named (scopedLeg_componentId imported plain ▸ same)
  · obtain ⟨graph, listed⟩ := profile_graph imported wellFormed active bare run
    rw [namedComponents_own, if_neg bare, ← codes_empty, filter_named_codes, Set.eq_empty_iff_forall_notMem]
    have found := fun code => @combined_codes imported _ _ _ _ graph row.id code listed
    constructor
    · intro silent
      exact ⟨fun launders => silent _ ((found launderingCode).2 (.inl ⟨rfl, launders⟩)), fun place shared uses short =>
        silent _ ((found continuityCode).2 (.inr ⟨rfl, place, shared, uses, short⟩))⟩
    · rintro ⟨straight, placed⟩ code raised
      rcases (found code).1 raised with ⟨-, launders⟩ | ⟨-, place, shared, uses, short⟩
      · exact straight launders
      · exact placed place shared uses short

/-- The routes a component takes from its profile's graph and those rebuilt around it carry the same codes, once its own
issues are added. -/
theorem routes_agree (wellFormed : book.WellFormed) (member : row ∈ book.components)
    (active : row.state = .active) (ownRun : book.ownIssues imported row = .ok own)
    (profileRun : book.profileActiveRouteIssues imported row.profileId = .ok routes) {listed : List Issue}
    (listedRun : book.routeIssues imported (book.legsOf row.id) (book.allocationsOf row.id) row.header.conservationMode
      (some routes) = .ok listed) :
    ∃ rebuilt, book.routeIssues imported (book.legsOf row.id) (book.allocationsOf row.id) row.header.conservationMode
      none = .ok rebuilt ∧ codes (own ++ rebuilt) = codes (own ++ listed) := by
  cases quantity : row.header.conservationMode with
  | conversion =>
    rw [quantity] at listedRun
    cases listedRun
    exact ⟨[], rfl, rfl⟩
  | quantity =>
    rw [quantity] at listedRun
    cases listedRun
    show ∃ rebuilt, book.ownRouteIssues imported (book.legsOf row.id) (book.allocationsOf row.id) = .ok rebuilt ∧ _
    by_cases bare : row.id = "" ∨ book.legsOf row.id = []
    · -- A component without legs names nothing: both paths add no issue.
      have unnamed : namedComponents (book.legsOf row.id) = [] := by rw [namedComponents_own, if_pos bare]
      refine ⟨[], ?_, ?_⟩
      · unfold ownRouteIssues otherActiveQuantityContent
        rw [unnamed]
        rfl
      · rw [unnamed_issues bare]
    · have isActive : row ∈ book.activeRoutes row.profileId := mem_activeRoutes.2 ⟨member, rfl, active, quantity⟩
      obtain ⟨legsPerm, allocationsPerm⟩ := graph_perm wellFormed isActive
      have distinct := graphLegs_distinct wellFormed row.profileId
      obtain ⟨profileGraph, listedId⟩ := profile_graph imported wellFormed isActive bare profileRun
      have profileCodes := fun code => @combined_codes imported _ _ _ _ profileGraph row.id code listedId
      have fits := (combined_ok_iff imported).1 ⟨routes, profileGraph⟩
      simp only [namedComponents_own, if_neg bare, codes_append, filter_named_codes]
      rw [ownRoutes_eq imported wellFormed member bare]
      by_cases alone : book.otherLegs row = []
      · -- No other component: the profile's graph is the component's own, which its own issues already cover.
        rw [if_pos alone]
        rw [alone, append_nil] at legsPerm
        have ownLegs : ∀ leg ∈ book.graphLegs row.profileId, leg.componentId = row.id := fun leg own =>
          (mem_legsOf.1 (legsPerm.mem_iff.1 own)).2
        refine ⟨[], rfl, ?_⟩
        rw [show codes [] = ∅ from codes_empty.2 rfl, Set.union_empty, eq_comm, Set.union_eq_left]
        rintro code ⟨issue, found⟩
        rcases (profileCodes code).1 ⟨issue, found⟩ with ⟨rfl, launders⟩ | ⟨-, place, shared, -⟩
        · have ownAllocations : ∀ allocation ∈ book.graphAllocations row.profileId, allocation.componentId = row.id := by
            intro allocation listed
            obtain ⟨other, otherMember, own⟩ := mem_flatMap.1 listed
            obtain ⟨stored, component⟩ := mem_allocationsOf.1 own
            obtain ⟨leg, legMember, -, same⟩ := wellFormed.allocationScope allocation stored
            rw [← same]
            exact ownLegs leg (mem_flatMap.2 ⟨other, otherMember, mem_legsOf.2 ⟨legMember, same.trans component⟩⟩)
          have laundered := launders_single imported distinct ownLegs ownAllocations launders
          refine ownIssues_laundering imported ownRun quantity ?_
          refine (laundered_perm (legsPerm.map _) ?_ (fun flow => ?_) row.id).1 laundered
          · rw [scopedLegs_ids]
            exact distinct
          · rw [mem_map, mem_map]
            refine exists_congr fun allocation => and_congr_left fun _ => ?_
            rw [allocationsPerm.mem_iff, mem_append]
            refine ⟨fun either => ?_, .inl⟩
            rcases either with own | other
            · exact own
            · have listed := allocationsPerm.mem_iff.2 (mem_append_right _ other)
              obtain ⟨route, -, stored⟩ := mem_flatMap.1 listed
              exact mem_allocationsOf.2 ⟨(mem_allocationsOf.1 stored).1, ownAllocations allocation listed⟩
        · exact absurd shared (not_shared_single imported ownLegs place)
      · rw [if_neg alone]
        have total : ∃ issues, combinedRouteIssues imported (book.legsOf row.id ++ book.otherLegs row)
            (book.allocationsOf row.id ++ book.otherAllocations row) [row.id] = .ok issues := by
          rw [combined_ok_iff]
          rintro place shared ⟨id, only, uses⟩
          rw [mem_singleton] at only
          subst only
          rw [← placeJams_perm imported legsPerm]
          rw [← sharedPlace_perm imported legsPerm] at shared
          exact fits place shared ⟨row.id, listedId, (usesPlace_perm imported legsPerm row.id place).2 uses⟩
        obtain ⟨issues, rebuilt⟩ := total
        refine ⟨issues.filter fun issue => names [row.id] issue, by rw [rebuilt]; rfl, ?_⟩
        congr 1
        rw [filter_named_codes]
        ext code
        rw [Set.mem_ofPred_eq, Set.mem_ofPred_eq, profileCodes code, combined_codes imported rebuilt (mem_singleton_self _),
          launders_perm imported legsPerm allocationsPerm distinct]
        simp only [sharedPlace_perm imported legsPerm, usesPlace_perm imported legsPerm, placeShort_perm imported legsPerm]

theorem effectiveState_codes {issues issues' : List Issue} (same : codes issues = codes issues') :
    effectiveState row issues = effectiveState row issues' := by
  have empty : issues = [] ↔ issues' = [] := by rw [← codes_empty, same, codes_empty]
  unfold effectiveState
  cases row.state <;> simp only [empty]

theorem materialize_agrees (wellFormed : book.WellFormed)
    (member : row ∈ book.components) (active : row.state = .active)
    (profileRun : book.profileActiveRouteIssues imported row.profileId = .ok routes) {listed : View}
    (run : book.materializeComponent imported (some routes) row = .ok listed) :
    listed.row = row ∧ ∃ view, book.getComponent imported row.id = .ok view ∧ SameVerdict view listed := by
  obtain ⟨own, ownRun, run⟩ := bind_ok.1 run
  obtain ⟨issues, listedRun, run⟩ := bind_ok.1 run
  rw [pure_ok] at run
  subst run
  refine ⟨rfl, ?_⟩
  obtain ⟨rebuilt, rebuiltRun, same⟩ := routes_agree imported wellFormed member active ownRun profileRun listedRun
  unfold getComponent
  rw [row_eq wellFormed member]
  refine ⟨_, bind_ok.2 ⟨own, ownRun, bind_ok.2 ⟨rebuilt, rebuiltRun, rfl⟩⟩, effectiveState_codes same, same⟩

end

end Tables

end Kassiber.Custody.Book

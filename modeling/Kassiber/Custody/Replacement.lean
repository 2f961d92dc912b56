import Kassiber.Custody.RouteViews

/-!
Activating a draft that replaces an active revision of its lineage: the draft's routes are judged together with those of
the revision it replaces, so the verdict is the one after the replacement where those legs stay out of the draft's routes.
-/

namespace Kassiber.Custody.Book
open Lib.Outcome Lib.Dict Lib.Sorting Lib.UnionFind List

namespace Tables

/-! ### Validating an activation -/

def supersededError : BookError :=
  .appError "custody_component_superseded" "superseded revisions cannot be activated directly"

def incompleteError : BookError :=
  .appError "custody_component_incomplete" "custody component is incomplete or does not conserve"

def stateConflict (message : String) : BookError := .appError "custody_component_state_conflict" message

/-- Active components of other lineages that claim a transaction of a component. -/
def externalConflicts (book : Tables) (row : ComponentRow) : List (String × String) :=
  (book.activeMembershipConflicts row.id row.profileId).filter fun conflict =>
    (book.row conflict.2).map ComponentRow.lineageId ≠ some row.lineageId

def judgeActivation (book : Tables) (view : View) : Except BookError View :=
  if view.row.state = .superseded then .error supersededError
  else if view.issues = [] ∧ book.externalConflicts view.row = [] then .ok view
  else .error incompleteError

/-- The component, if activating it would be valid. A view validated before is used as it is when its revision and state
are still current. -/
def validateComponentActivation (imported : Imported) (book : Tables) (id : String) (validated : Option View) :
    Except BookError View :=
  match validated with
  | none => book.getComponent imported id >>= book.judgeActivation
  | some view =>
    if view.row.id ≠ id then .error (stateConflict "validated component does not match the activation target")
    else
      match book.row id with
      | none => .error notFound
      | some current =>
        if current.state ≠ view.row.state ∨ current.revision ≠ view.row.revision ∨
            current.lineageId ≠ view.row.lineageId then
          .error (stateConflict "custody component changed after validation")
        else book.judgeActivation view

def Accepts (imported : Imported) (book : Tables) (id : String) : Prop :=
  ∃ view, book.validateComponentActivation imported id none = .ok view

/-! ### The book after a revision is superseded -/

def ComponentRow.retired (id : String) (row : ComponentRow) : ComponentRow :=
  if row.id = id then { row with state := .superseded } else row

/-- The book in which a revision is superseded and, by the trigger, has no memberships. -/
def withSuperseded (book : Tables) (id : String) : Tables :=
  { book with
    components := book.components.map (ComponentRow.retired id)
    memberships := book.memberships.filter fun membership => membership.componentId ≠ id }

section
variable (id : String) (row : ComponentRow)

@[simp] theorem retired_id : (ComponentRow.retired id row).id = row.id := by
  unfold ComponentRow.retired
  split <;> rfl

@[simp] theorem retired_profileId : (ComponentRow.retired id row).profileId = row.profileId := by
  unfold ComponentRow.retired
  split <;> rfl

@[simp] theorem retired_lineageId : (ComponentRow.retired id row).lineageId = row.lineageId := by
  unfold ComponentRow.retired
  split <;> rfl

@[simp] theorem retired_revision : (ComponentRow.retired id row).revision = row.revision := by
  unfold ComponentRow.retired
  split <;> rfl

theorem retired_state : (ComponentRow.retired id row).state = if row.id = id then .superseded else row.state := by
  unfold ComponentRow.retired
  split <;> rfl

theorem retired_other (different : row.id ≠ id) : ComponentRow.retired id row = row := if_neg different

end

theorem row_retired (book : Tables) (id target : String) :
    (book.withSuperseded id).row target = (book.row target).map (ComponentRow.retired id) := by
  show (book.components.map (ComponentRow.retired id)).find? (fun row => row.id = target) = _
  rw [find?_map]
  congr 1
  unfold Tables.row
  congr 1
  funext row
  simp

theorem withSuperseded_wellFormed {book : Tables} (wellFormed : book.WellFormed) (id : String) :
    (book.withSuperseded id).WellFormed where
  componentIds := by
    have same : (book.withSuperseded id).components.map ComponentRow.id = book.components.map ComponentRow.id := by
      show (book.components.map (ComponentRow.retired id)).map ComponentRow.id = _
      rw [map_map]
      exact map_congr_left fun row _ => retired_id id row
    rw [same]
    exact wellFormed.componentIds
  legIds := wellFormed.legIds
  profileNamed := by
    intro row member
    obtain ⟨old, stored, rfl⟩ := mem_map.1 member
    rw [retired_profileId]
    exact wellFormed.profileNamed old stored
  legScope := by
    intro leg member
    obtain ⟨row, stored, component, profile⟩ := wellFormed.legScope leg member
    exact ⟨_, mem_map_of_mem stored, by rw [retired_id]; exact component, by rw [retired_profileId]; exact profile⟩
  allocationScope := wellFormed.allocationScope

/-! ### What of a draft's validation reads the revision it replaces -/

section
variable (imported : Imported) {book : Tables}

theorem linkIssues_retired (id : String) (row : ComponentRow) (link : Option String) (ordered : Nat → Nat → Bool) :
    (book.withSuperseded id).linkIssues row link ordered = book.linkIssues row link ordered := by
  unfold linkIssues
  cases link with
  | none => rfl
  | some target =>
    dsimp only
    rw [row_retired]
    cases book.row target with
    | none => rfl
    | some other => simp only [Option.map_some, retired_profileId, retired_lineageId, retired_revision]

variable {draft active : ComponentRow}

theorem ownIssues_retired (isDraft : draft.state = .draft) (id : String) :
    (book.withSuperseded id).ownIssues imported draft = book.ownIssues imported draft := by
  have notActive : draft.state ≠ .active := by rw [isDraft]; simp
  have active : (book.withSuperseded id).activeIssues imported draft = book.activeIssues imported draft := by
    unfold activeIssues
    rw [if_neg notActive, if_neg notActive]
  have lineage : (book.withSuperseded id).lineageIssues draft = book.lineageIssues draft := by
    unfold lineageIssues
    rw [linkIssues_retired, linkIssues_retired]
    congr 2
    unfold flag
    rw [if_neg fun found => notActive found.1, if_neg fun found => notActive found.1]
  unfold ownIssues
  rw [active, lineage]
  rfl

theorem mem_conflicts {component profile : String} {conflict : String × String} :
    conflict ∈ book.activeMembershipConflicts component profile ↔
      ∃ mine ∈ book.legs, mine.componentId = component ∧ mine.profileId = profile ∧ mine.joinAnchor = some conflict.1 ∧
        ∃ other ∈ book.legs, other.profileId = profile ∧ other.joinAnchor = some conflict.1 ∧
          other.componentId ≠ component ∧ book.stateOf other.componentId = some .active ∧
          other.componentId = conflict.2 := by
  unfold activeMembershipConflicts
  rw [mem_flatMap]
  constructor
  · rintro ⟨mine, kept, listed⟩
    obtain ⟨stored, owned⟩ := mem_filter.1 kept
    obtain ⟨component, profile⟩ := of_decide_eq_true owned
    cases anchored : mine.joinAnchor with
    | none =>
      rw [anchored] at listed
      cases listed
    | some anchor =>
      rw [anchored] at listed
      obtain ⟨other, otherKept, rfl⟩ := mem_map.1 listed
      obtain ⟨otherStored, joined⟩ := mem_filter.1 otherKept
      obtain ⟨otherProfile, otherAnchor, different, active⟩ := of_decide_eq_true joined
      exact ⟨mine, stored, component, profile, anchored, other, otherStored, otherProfile.trans profile, otherAnchor,
        component ▸ different, active, rfl⟩
  · rintro ⟨mine, stored, component, profile, anchored, other, otherStored, otherProfile, otherAnchor, different, active, named⟩
    refine ⟨mine, mem_filter.2 ⟨stored, decide_eq_true ⟨component, profile⟩⟩, ?_⟩
    rw [anchored]
    refine mem_map.2 ⟨other, mem_filter.2 ⟨otherStored, decide_eq_true ⟨otherProfile.trans profile.symm, otherAnchor,
      component.symm ▸ different, active⟩⟩, ?_⟩
    rw [named]

theorem stateOf_retired (id component : String) :
    (book.withSuperseded id).stateOf component = some .active ↔ book.stateOf component = some .active ∧ component ≠ id := by
  unfold stateOf
  rw [row_retired]
  cases found : book.row component with
  | none => simp
  | some row =>
    have same : row.id = component := by
      unfold Tables.row at found
      have := find?_some found
      rwa [decide_eq_true_iff] at this
    simp only [Option.map_some, Option.some.injEq, retired_state, same]
    by_cases retired : component = id
    · simp [retired]
    · simp [retired]

theorem externalConflicts_retired (stored : book.row active.id = some active)
    (lineage : active.lineageId = draft.lineageId) :
    (book.withSuperseded active.id).externalConflicts draft = [] ↔ book.externalConflicts draft = [] := by
  have kept : ∀ conflict, conflict ∈ (book.withSuperseded active.id).externalConflicts draft ↔
      conflict ∈ book.externalConflicts draft := by
    intro conflict
    unfold externalConflicts
    rw [mem_filter, mem_filter, mem_conflicts, mem_conflicts, row_retired, Option.map_map]
    have lineages : (ComponentRow.lineageId ∘ ComponentRow.retired active.id) = ComponentRow.lineageId :=
      funext fun row => retired_lineageId active.id row
    rw [lineages]
    constructor
    · rintro ⟨⟨mine, mineStored, component, profile, anchored, other, otherStored, otherProfile, otherAnchor, different,
        isActive, named⟩, external⟩
      exact ⟨⟨mine, mineStored, component, profile, anchored, other, otherStored, otherProfile, otherAnchor, different,
        ((stateOf_retired _ _).1 isActive).1, named⟩, external⟩
    · rintro ⟨⟨mine, mineStored, component, profile, anchored, other, otherStored, otherProfile, otherAnchor, different,
        isActive, named⟩, external⟩
      refine ⟨⟨mine, mineStored, component, profile, anchored, other, otherStored, otherProfile, otherAnchor, different,
        (stateOf_retired _ _).2 ⟨isActive, ?_⟩, named⟩, external⟩
      intro same
      have own := of_decide_eq_true external
      rw [← named, same, stored, Option.map_some, lineage] at own
      exact own rfl
  rw [eq_nil_iff_forall_not_mem, eq_nil_iff_forall_not_mem]
  simp only [kept]

/-! ### Routes that clear a component -/

/-- Next to the legs and allocations of some other components, a component's routes reach one domain at most and every
untracked location it shares can be replayed and covers its spends. -/
def RoutesClear (row : ComponentRow) (others : List ComponentRow) (book : Tables) : Prop :=
  let legs := book.legsOf row.id ++ others.flatMap fun other => book.legsOf other.id
  let allocations := book.allocationsOf row.id ++ others.flatMap fun other => book.allocationsOf other.id
  ((others.flatMap fun other => book.legsOf other.id) ≠ [] → ¬ LaundersIn imported legs allocations row.id) ∧
    ∀ place, SharedPlace imported legs place → UsesPlace imported legs row.id place →
      ¬ PlaceJams imported legs place ∧ ¬ PlaceShort imported legs place

theorem routes_clear_iff (wellFormed : book.WellFormed) {row : ComponentRow} (member : row ∈ book.components)
    (quantity : row.header.conservationMode = .quantity) :
    book.routeIssues imported (book.legsOf row.id) (book.allocationsOf row.id) row.header.conservationMode none = .ok [] ↔
      RoutesClear imported row (book.otherRoutes row) book := by
  rw [quantity]
  show book.ownRouteIssues imported (book.legsOf row.id) (book.allocationsOf row.id) = .ok [] ↔ _
  by_cases bare : row.id = "" ∨ book.legsOf row.id = []
  · -- A component without named legs appears in no route.
    have unnamed : namedComponents (book.legsOf row.id) = [] := by rw [namedComponents_own, if_pos bare]
    have skipped : book.ownRouteIssues imported (book.legsOf row.id) (book.allocationsOf row.id) = .ok [] := by
      unfold ownRouteIssues otherActiveQuantityContent
      rw [unnamed]
      rfl
    have absent : ∀ leg ∈ book.legsOf row.id ++ (book.otherRoutes row).flatMap fun other => book.legsOf other.id,
        row.id ≠ "" → leg.componentId ≠ row.id := by
      intro leg listed named own
      rcases bare with empty | empty
      · exact named empty
      · rw [empty, nil_append] at listed
        obtain ⟨other, otherMember, otherOwn⟩ := mem_flatMap.1 listed
        have different := of_decide_eq_true (mem_filter.1 otherMember).2
        exact different ((mem_legsOf.1 otherOwn).2.symm.trans own)
    refine ⟨fun _ => ⟨fun _ launders => ?_, fun place _ uses => ?_⟩, fun _ => skipped⟩
    · obtain ⟨named, own, ownMember, component, -⟩ := launders
      obtain ⟨leg, legMember, rfl⟩ := mem_map.1 (mem_filter.1 ownMember).1
      rw [scopedLeg_componentId] at component
      exact absent leg legMember named component
    · obtain ⟨named, own, ownMember, component⟩ := mem_namedComponents.1 uses
      obtain ⟨leg, legMember, rfl⟩ := mem_map.1 (mem_filter.1 (mem_filter.1 ownMember).1).1
      rw [scopedLeg_componentId] at component
      exact absurd component (absent leg legMember named)
  · rw [ownRoutes_eq imported wellFormed member bare]
    by_cases alone : book.otherLegs row = []
    · rw [if_pos alone]
      refine ⟨fun _ => ⟨fun some => absurd alone some, fun place shared _ => ?_⟩, fun _ => rfl⟩
      have single : ∀ leg ∈ book.legsOf row.id ++ (book.otherRoutes row).flatMap fun other => book.legsOf other.id,
          leg.componentId = row.id := by
        intro leg listed
        rw [show (book.otherRoutes row).flatMap (fun other => book.legsOf other.id) = [] from alone, append_nil] at listed
        exact (mem_legsOf.1 listed).2
      exact absurd shared (not_shared_single imported single place)
    · rw [if_neg alone]
      have own : row.id ∈ [row.id] := mem_singleton_self _
      constructor
      · intro run
        obtain ⟨issues, combined, none⟩ := map_ok.1 run
        have fits := (combined_ok_iff imported).1 ⟨issues, combined⟩
        have noCode : ∀ code, ¬ ∃ issue ∈ issues, row.id ∈ issue.componentIds ∧ issue.code = code := by
          rintro code ⟨issue, listed, named, -⟩
          have kept : issue ∈ issues.filter fun issue => names [row.id] issue :=
            mem_filter.2 ⟨listed, decide_eq_true (names_singleton.2 named)⟩
          rw [none] at kept
          cases kept
        refine ⟨fun _ launders => ?_, fun place shared uses => ⟨fits place shared ⟨row.id, own, uses⟩, fun short => ?_⟩⟩
        · exact noCode _ ((combined_codes imported combined own).2 (.inl ⟨rfl, launders⟩))
        · exact noCode _ ((combined_codes imported combined own).2 (.inr ⟨rfl, place, shared, uses, short⟩))
      · rintro ⟨straight, covered⟩
        obtain ⟨issues, combined⟩ := (combined_ok_iff imported).2 fun place shared uses => by
          obtain ⟨id, only, uses⟩ := uses
          rw [mem_singleton] at only
          subst only
          exact (covered place shared uses).1
        rw [show combinedRouteIssues imported (book.legsOf row.id ++ book.otherLegs row)
          (book.allocationsOf row.id ++ book.otherAllocations row) [row.id] = .ok issues from combined]
        show Except.ok _ = Except.ok []
        congr 1
        rw [filter_eq_nil_iff]
        intro issue listed named
        have found := (combined_codes imported combined own).1
          ⟨issue, listed, names_singleton.1 (of_decide_eq_true named), rfl⟩
        rcases found with ⟨-, launders⟩ | ⟨-, place, shared, uses, short⟩
        · exact straight alone launders
        · exact (covered place shared uses).2 short

/-! ### The replaced revision in the graph -/

theorem activeRoutes_strict (wellFormed : book.WellFormed) (profile : String) :
    (book.activeRoutes profile).Pairwise fun row other => row.id < other.id :=
  sortedBy_strict (wellFormed.componentIds.sublist (filter_sublist.map _))

theorem otherRoutes_retired (wellFormed : book.WellFormed) (draft : ComponentRow) (id : String) :
    (book.withSuperseded id).otherRoutes draft = (book.otherRoutes draft).filter fun row => row.id ≠ id := by
  have strict : ((book.withSuperseded id).otherRoutes draft).Pairwise fun row other => row.id < other.id :=
    (activeRoutes_strict (withSuperseded_wellFormed wellFormed id) _).sublist filter_sublist
  have strict' : ((book.otherRoutes draft).filter fun row => row.id ≠ id).Pairwise fun row other => row.id < other.id :=
    ((activeRoutes_strict wellFormed _).sublist filter_sublist).sublist filter_sublist
  have nodup : ∀ rows : List ComponentRow, rows.Pairwise (fun row other => row.id < other.id) → rows.Nodup :=
    fun rows ordered => ordered.imp fun less same => absurd less (by rw [same]; exact lt_irrefl _)
  refine eq_of_perm_of_strict ComponentRow.id ?_ (strict.imp le_of_lt) strict'
  refine (perm_ext_iff_of_nodup (nodup _ strict) (nodup _ strict')).2 fun row => ?_
  unfold otherRoutes
  rw [mem_filter, mem_filter, mem_filter, mem_activeRoutes, mem_activeRoutes]
  simp only [decide_eq_true_iff]
  constructor
  · rintro ⟨⟨member, profile, active, mode⟩, different⟩
    obtain ⟨old, stored, rfl⟩ := mem_map.1 member
    have kept : old.id ≠ id := by
      intro same
      rw [retired_state, if_pos same] at active
      cases active
    rw [retired_other id old kept] at *
    exact ⟨⟨⟨stored, profile, active, mode⟩, different⟩, kept⟩
  · rintro ⟨⟨⟨member, profile, active, mode⟩, different⟩, kept⟩
    exact ⟨⟨mem_map.2 ⟨row, member, retired_other id row kept⟩, profile, active, mode⟩, different⟩

/-- A draft is accepted when it has no issue of its own, no transaction of another lineage and no issue from its
routes. -/
theorem accepts_iff (wellFormed : book.WellFormed) (member : draft ∈ book.components)
    (isDraft : draft.state = .draft) :
    Accepts imported book draft.id ↔ book.ownIssues imported draft = .ok [] ∧ book.externalConflicts draft = [] ∧
      book.routeIssues imported (book.legsOf draft.id) (book.allocationsOf draft.id) draft.header.conservationMode none =
        .ok [] := by
  unfold Accepts validateComponentActivation getComponent
  rw [row_eq wellFormed member]
  constructor
  · rintro ⟨view, run⟩
    obtain ⟨read, materialized, judged⟩ := bind_ok.1 run
    obtain ⟨own, ownRun, materialized⟩ := bind_ok.1 materialized
    obtain ⟨routes, routesRun, materialized⟩ := bind_ok.1 materialized
    rw [pure_ok] at materialized
    subst materialized
    unfold judgeActivation at judged
    split at judged
    · cases judged
    · split at judged
      · next clean =>
        obtain ⟨clean, external⟩ := clean
        obtain ⟨rfl, rfl⟩ := append_eq_nil_iff.1 clean
        exact ⟨ownRun, external, routesRun⟩
      · cases judged
  · rintro ⟨own, external, routes⟩
    have judged : ∀ view : View, view.row = draft → view.issues = [] → book.judgeActivation view = .ok view := by
      rintro view rfl clean
      unfold judgeActivation
      rw [if_neg (by rw [isDraft]; simp), if_pos ⟨clean, external⟩]
    exact ⟨_, bind_ok.2 ⟨_, bind_ok.2 ⟨[], own, bind_ok.2 ⟨[], routes, rfl⟩⟩, judged _ rfl rfl⟩⟩

theorem routesClear_retired (draft : ComponentRow) (others : List ComponentRow) (id : String) :
    RoutesClear imported draft others (book.withSuperseded id) ↔ RoutesClear imported draft others book := Iff.rfl

/-- The replaced revision matters to a draft only through the routes of the draft. -/
theorem verdict_of_routes (wellFormed : book.WellFormed)
    (member : draft ∈ book.components) (isDraft : draft.state = .draft) (activeMember : active ∈ book.components)
    (isActive : active.state = .active) (lineage : active.lineageId = draft.lineageId)
    (same : draft.header.conservationMode = .quantity → book.ownIssues imported draft = .ok [] →
      book.externalConflicts draft = [] →
        (RoutesClear imported draft (book.otherRoutes draft) book ↔
          RoutesClear imported draft ((book.otherRoutes draft).filter fun row => row.id ≠ active.id) book)) :
    Accepts imported book draft.id ↔ Accepts imported (book.withSuperseded active.id) draft.id := by
  have different : draft.id ≠ active.id := by
    intro same
    rw [same_row wellFormed member activeMember same, isActive] at isDraft
    cases isDraft
  have after := withSuperseded_wellFormed wellFormed active.id
  have memberAfter : draft ∈ (book.withSuperseded active.id).components :=
    mem_map.2 ⟨draft, member, retired_other active.id draft different⟩
  rw [accepts_iff imported wellFormed member isDraft, accepts_iff imported after memberAfter isDraft,
    ownIssues_retired imported isDraft, externalConflicts_retired (row_eq wellFormed activeMember) lineage]
  cases mode : draft.header.conservationMode with
  | conversion => exact Iff.rfl
  | quantity =>
    have clear := routes_clear_iff imported wellFormed member mode
    have clearAfter := routes_clear_iff imported after memberAfter mode
    rw [mode] at clear clearAfter
    rw [otherRoutes_retired wellFormed, routesClear_retired] at clearAfter
    rw [clear, clearAfter]
    constructor
    · rintro ⟨own, external, before⟩
      exact ⟨own, external, (same mode own external).1 before⟩
    · rintro ⟨own, external, without⟩
      exact ⟨own, external, (same mode own external).2 without⟩

/-- The routes of a component reach two domains next to the legs and allocations of some others. -/
def LaundersAmong (row : ComponentRow) (others : List ComponentRow) (book : Tables) : Prop :=
  LaundersIn imported (book.legsOf row.id ++ others.flatMap fun other => book.legsOf other.id)
    (book.allocationsOf row.id ++ others.flatMap fun other => book.allocationsOf other.id) row.id

/-- The legs of a component at a place of an untracked wallet. -/
def untrackedAt (book : Tables) (row : ComponentRow) (place : PlaceKey) : List Leg :=
  untrackedLegs imported.untracked ((book.legsOf row.id).map imported.scopedLeg) place

/-- The replaced revision stays out of the draft's routes: its legs bring them to no second domain that they do not reach
without, and the two use no place of an untracked wallet together. -/
structure StaysOut (book : Tables) (draft active : ComponentRow) : Prop where
  domains : LaundersAmong imported draft (book.otherRoutes draft) book ↔
    LaundersAmong imported draft ((book.otherRoutes draft).filter fun row => row.id ≠ active.id) book
  places : ∀ place, untrackedAt imported book draft place ≠ [] → untrackedAt imported book active place = []

theorem untracked_among (book : Tables) (row : ComponentRow) (others : List ComponentRow) (place : PlaceKey) :
    untrackedLegs imported.untracked
        ((book.legsOf row.id ++ others.flatMap fun other => book.legsOf other.id).map imported.scopedLeg) place =
      untrackedAt imported book row place ++ others.flatMap fun other => untrackedAt imported book other place := by
  unfold untrackedAt untrackedLegs
  simp only [map_append, filter_append, map_flatMap, filter_flatMap]

theorem flatMap_without {α β : Type} {f : α → List β} {p : α → Bool} {xs : List α}
    (silent : ∀ x ∈ xs, p x = false → f x = []) : (xs.filter p).flatMap f = xs.flatMap f := by
  induction xs with
  | nil => rfl
  | cons x rest ih =>
    have later := ih fun y member => silent y (.tail _ member)
    cases kept : p x with
    | true => rw [filter_cons_of_pos kept, flatMap_cons, flatMap_cons, later]
    | false => rw [filter_cons_of_neg (by simp [kept]), flatMap_cons, silent x (.head _) kept, nil_append, later]

/-- At a place of an untracked wallet that the draft uses, the same legs are replayed with the replaced revision and
without it. -/
theorem untracked_same (wellFormed : book.WellFormed) (activeMember : active ∈ book.components)
    (places : ∀ place, untrackedAt imported book draft place ≠ [] → untrackedAt imported book active place = [])
    {place : PlaceKey} (used : untrackedAt imported book draft place ≠ []) :
    untrackedLegs imported.untracked ((book.legsOf draft.id ++
        ((book.otherRoutes draft).filter fun row => row.id ≠ active.id).flatMap fun other => book.legsOf other.id).map
          imported.scopedLeg) place =
      untrackedLegs imported.untracked ((book.legsOf draft.id ++
        (book.otherRoutes draft).flatMap fun other => book.legsOf other.id).map imported.scopedLeg) place := by
  rw [untracked_among, untracked_among, flatMap_without fun row member own => ?_]
  have stored := (mem_activeRoutes.1 (mem_filter.1 member).1).1
  rw [same_row wellFormed stored activeMember (by simpa using own)]
  exact places place used

theorem uses_own {others : List ComponentRow} (apart : ∀ other ∈ others, other.id ≠ draft.id)
    {place : PlaceKey} (uses : UsesPlace imported (book.legsOf draft.id ++ others.flatMap fun other => book.legsOf other.id)
      draft.id place) : untrackedAt imported book draft place ≠ [] := by
  obtain ⟨-, leg, member, own⟩ := mem_namedComponents.1 uses
  rw [untracked_among] at member
  rcases mem_append.1 member with mine | theirs
  · exact ne_nil_of_mem mine
  · obtain ⟨other, listed, among⟩ := mem_flatMap.1 theirs
    obtain ⟨plain, stored, rfl⟩ := mem_map.1 (mem_filter.1 (mem_filter.1 among).1).1
    rw [scopedLeg_componentId] at own
    exact absurd ((mem_legsOf.1 stored).2.symm.trans own) (apart other listed)

end

/-! ### A replacement refused for the revision it replaces -/

def januaryFirst : String := "2024-01-01T00:00:00Z"

def januaryTenth : String := "2024-01-10T00:00:00Z"

def gapImported : Imported where
  transactions id :=
    if id = "spend" then
      some { id, walletId := "cold", direction := "outbound", asset := "BTC", amount := 100, occurredAt := januaryTenth }
    else if id = "receipt" then
      some { id, walletId := "hot", direction := "inbound", asset := "BTC", amount := 100, occurredAt := januaryTenth }
    else none
  wallets id :=
    if id = "gap" then some { kind := "untracked", scope := fun _ => {} }
    else if id = "cold" ∨ id = "hot" then some { kind := "descriptor", scope := fun _ => {} } else none
  clock text :=
    if text = januaryFirst then some 1704067200000000
    else if text = januaryTenth then some 1704844800000000 else none
  evidenceValid _ _ := true
  nativeUsable _ _ _ := true

def gapLeg (component : String) (ordinal : Int) (role : LegRole) (wallet occurredAt : String)
    (transaction : Option String) : Leg :=
  { id := component ++ ":" ++ toString ordinal, componentId := component, profileId := "book", ordinal, role,
    rail := "bitcoin", asset := "BTC", exposure := "bitcoin", conservationUnit := "msat", amountMsat := 100,
    occurredAt := some occurredAt, transactionId := transaction, anchorTransactionId := transaction,
    walletId := some wallet }

def gapRow (id : String) (revision : Nat) (state : RevisionState) (supersedes : Option String) (legs allocations : Nat) :
    ComponentRow :=
  { id, lineageId := "lineage", workspaceId := "w", profileId := "book", revision,
    header := { componentType := "manual_bridge", conservationMode := .quantity }, state, supersedes,
    expectedLegCount := some legs, expectedAllocationCount := some allocations, expectedTermCount := some 0 }

def gapOld : ComponentRow := gapRow "old" 1 .active none 2 0

def gapFix : ComponentRow := gapRow "fix" 2 .draft (some "old") 4 2

/-- The active revision spends from a missing wallet. Its correction funds that wallet first. -/
def gapBook : Tables where
  components := [gapOld, gapFix]
  legs := [gapLeg "old" 0 .source "gap" januaryFirst none,
    gapLeg "old" 1 .destination "hot" januaryTenth (some "receipt"),
    gapLeg "fix" 0 .source "cold" januaryTenth (some "spend"), gapLeg "fix" 1 .destination "gap" januaryTenth none,
    gapLeg "fix" 2 .source "gap" januaryTenth none, gapLeg "fix" 3 .destination "hot" januaryTenth (some "receipt")]
  allocations := [
    { id := "in", componentId := "fix", ordinal := 0, sourceLegId := "fix:0", sinkLegId := "fix:1", sourceAmountMsat := 100,
      sinkAmountMsat := 100 },
    { id := "out", componentId := "fix", ordinal := 1, sourceLegId := "fix:2", sinkLegId := "fix:3", sourceAmountMsat := 100,
      sinkAmountMsat := 100 }]
  terms := []
  memberships := []

/-- A receipt taken for a spend from a missing wallet, and its correction: it came from `spend`. -/
def plainBook : Tables where
  components := [gapRow "old" 1 .active none 2 0, gapRow "fix" 2 .draft (some "old") 2 1]
  legs := [gapLeg "old" 0 .source "gap" januaryFirst none, gapLeg "old" 1 .destination "hot" januaryTenth (some "receipt"),
    gapLeg "fix" 0 .source "cold" januaryTenth (some "spend"), gapLeg "fix" 1 .destination "hot" januaryTenth (some "receipt")]
  allocations := [
    { id := "all", componentId := "fix", ordinal := 0, sourceLegId := "fix:0", sinkLegId := "fix:1", sourceAmountMsat := 100,
      sinkAmountMsat := 100 }]
  terms := []
  memberships := []

theorem plainBook_wellFormed : plainBook.WellFormed where
  componentIds := by decide
  legIds := by decide +kernel
  profileNamed := by decide
  legScope := by decide +kernel
  allocationScope := by decide +kernel

theorem plainBook_domains (others : List ComponentRow) :
    ¬LaundersAmong gapImported (gapRow "fix" 2 .draft (some "old") 2 1) others plainBook := by
  have one : ∀ leg ∈ plainBook.legs, (gapImported.scopedLeg leg).domain = none := by decide +kernel
  rintro ⟨-, own, -, -, left, inside, right, -, -, -, domain, other, known, -, -⟩
  obtain ⟨leg, listed, rfl⟩ := mem_map.1 (mem_filter.1 inside).1
  have stored : leg ∈ plainBook.legs := by
    rcases mem_append.1 listed with mine | theirs
    · exact (mem_legsOf.1 mine).1
    · obtain ⟨row, -, among⟩ := mem_flatMap.1 theirs
      exact (mem_legsOf.1 among).1
  rw [one leg stored] at known
  cases known

end Tables

end Kassiber.Custody.Book

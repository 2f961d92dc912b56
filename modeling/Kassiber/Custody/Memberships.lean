import Kassiber.Custody.RouteViews

/-!
Memberships rebuilt from the effective components of a profile: when the rebuild respects the uniqueness of a
profile's transactions, and that it keeps exactly the anchors of the components that are effectively active.
-/

namespace Kassiber.Custody.Book
open Lib.Outcome Lib.Dict Lib.Sorting Lib.UnionFind List

namespace Tables

/-- Two memberships one of the two uniqueness constraints keeps apart. -/
def Collide (held membership : Membership) : Prop :=
  held.transactionId = membership.transactionId ∧
    (held.componentId = membership.componentId ∨ held.profileId = membership.profileId)

variable {memberships result items : List Membership}

theorem insertMembership_ok {membership : Membership} :
    insertMembership memberships membership = .ok result ↔
      result = memberships ++ [membership] ∧ ∀ held ∈ memberships, ¬ Collide held membership := by
  unfold insertMembership Collide
  split
  · next taken =>
    constructor
    · intro run
      cases run
    · rintro ⟨-, free⟩
      obtain ⟨held, member, component, transaction⟩ := taken
      exact absurd ⟨transaction, .inl component⟩ (free held member)
  · next free =>
    split
    · next taken =>
      constructor
      · intro run
        cases run
      · rintro ⟨-, apart⟩
        obtain ⟨held, member, profile, transaction⟩ := taken
        exact absurd ⟨transaction, .inr profile⟩ (apart held member)
    · next apart =>
      constructor
      · intro run
        refine ⟨(Except.ok.inj run).symm, ?_⟩
        rintro held member ⟨transaction, component | profile⟩
        · exact free ⟨held, member, component, transaction⟩
        · exact apart ⟨held, member, profile, transaction⟩
      · rintro ⟨rfl, -⟩
        rfl

theorem insertMembership_error {membership : Membership} {e : BookError}
    (run : insertMembership memberships membership = .error e) : ∃ constraint, e = .integrityError constraint := by
  unfold insertMembership at run
  split at run
  · cases run
    exact ⟨_, rfl⟩
  · split at run <;> cases run
    exact ⟨_, rfl⟩

theorem insertAll_ok :
    items.foldlM insertMembership memberships = .ok result ↔
      result = memberships ++ items ∧ (∀ held ∈ memberships, ∀ item ∈ items, ¬ Collide held item) ∧
        items.Pairwise fun held item => ¬ Collide held item := by
  induction items generalizing memberships with
  | nil =>
    rw [foldlM_nil, pure_ok]
    constructor
    · rintro rfl
      simp
    · rintro ⟨rfl, -⟩
      simp
  | cons first rest ih =>
    rw [foldlM_cons, bind_ok]
    constructor
    · rintro ⟨next, inserted, run⟩
      obtain ⟨rfl, free⟩ := insertMembership_ok.1 inserted
      obtain ⟨rfl, apart, pairs⟩ := ih.1 run
      refine ⟨by simp, ?_, pairwise_cons.2 ⟨fun item member => apart first (by simp) item member, pairs⟩⟩
      intro held member item listed
      rcases mem_cons.1 listed with rfl | later
      · exact free held member
      · exact apart held (mem_append_left _ member) item later
    · rintro ⟨rfl, apart, pairs⟩
      rw [pairwise_cons] at pairs
      refine ⟨_, insertMembership_ok.2 ⟨rfl, fun held member => apart held member first (.head _)⟩, ?_⟩
      refine ih.2 ⟨by simp, ?_, pairs.2⟩
      intro held member item later
      rcases mem_append.1 member with old | new
      · exact apart held old item (.tail _ later)
      · rw [mem_singleton.1 new]
        exact pairs.1 item later

theorem insertAll_error {e : BookError}
    (run : items.foldlM insertMembership memberships = .error e) : ∃ constraint, e = .integrityError constraint := by
  induction items generalizing memberships with
  | nil => cases run
  | cons first rest ih =>
    rw [foldlM_cons] at run
    cases step : insertMembership memberships first with
    | error e' =>
      rw [step] at run
      cases run
      exact insertMembership_error step
    | ok next =>
      rw [step] at run
      exact ih run

/-- The only failure of a computation is a timestamp past the last moment. -/
def OnlyOverflows {α : Type} (x : Except BookError α) : Prop := ∀ e, x = .error e → e = .overflowError

theorem onlyOverflows_ok {α : Type} (a : α) : OnlyOverflows (Except.ok a) := by
  intro e failed
  cases failed

theorem onlyOverflows_bind {α β : Type} {x : Except BookError α} {f : α → Except BookError β} (first : OnlyOverflows x)
    (then_ : ∀ a, OnlyOverflows (f a)) : OnlyOverflows (x >>= f) := by
  intro e failed
  cases run : x with
  | error e' =>
    rw [run] at failed
    cases failed
    exact first e run
  | ok a =>
    rw [run] at failed
    exact then_ a e failed

theorem onlyOverflows_mapM {α β : Type} {f : α → Except BookError β} (each : ∀ x, OnlyOverflows (f x)) (xs : List α) :
    OnlyOverflows (xs.mapM f) := by
  induction xs with
  | nil => exact onlyOverflows_ok []
  | cons first rest ih =>
    rw [mapM_cons]
    exact onlyOverflows_bind (each first) fun _ => onlyOverflows_bind ih fun _ => onlyOverflows_ok _

theorem onlyOverflows_ite {α : Type} {p : Prop} [Decidable p] {x y : Except BookError α} (yes : OnlyOverflows x)
    (no : OnlyOverflows y) : OnlyOverflows (if p then x else y) := by
  split
  · exact yes
  · exact no

theorem afterTolerance_overflows (moment : Int) : OnlyOverflows (afterTolerance moment) := by
  refine onlyOverflows_ite ?_ (onlyOverflows_ok _)
  intro e failed
  cases failed
  rfl

section
variable (clock : String → Option Int)

theorem allocationChronology_overflows (legs : List Leg) (allocations : List Allocation) (mode : ConservationMode) :
    OnlyOverflows (allocationChronologyIssues clock legs allocations mode) := by
  refine onlyOverflows_bind (onlyOverflows_mapM (fun edge => ?_) _) fun _ => onlyOverflows_ok _
  refine onlyOverflows_ite (onlyOverflows_ok _) ?_
  split
  · exact onlyOverflows_bind (afterTolerance_overflows _) fun _ =>
      onlyOverflows_ite (onlyOverflows_ok _) (onlyOverflows_ok _)
  · exact onlyOverflows_ok _

theorem continuityMovements_overflows (credits sources : List (Int × Leg)) :
    OnlyOverflows (continuityMovements credits sources) := by
  refine onlyOverflows_bind (onlyOverflows_mapM (fun source => ?_) _) fun _ => onlyOverflows_ok _
  refine onlyOverflows_ite ?_ (onlyOverflows_ite (onlyOverflows_ok _) (onlyOverflows_ok _))
  exact onlyOverflows_bind (afterTolerance_overflows _) fun _ => onlyOverflows_ok _

theorem locationContinuity_overflows (legs : List Leg) : OnlyOverflows (locationContinuityIssues clock legs) := by
  refine onlyOverflows_bind (onlyOverflows_mapM (fun place => ?_) _) fun _ => onlyOverflows_ok _
  refine onlyOverflows_ite (onlyOverflows_ok _) ?_
  split
  · refine onlyOverflows_bind (continuityMovements_overflows _ _) fun movements => ?_
    split <;> exact onlyOverflows_ok _
  · exact onlyOverflows_ok _

theorem crossContinuity_overflows (legs : List Leg) (untracked : String → Bool) (current : List String) :
    OnlyOverflows (crossComponentUntrackedContinuityIssues clock legs untracked current) := by
  refine onlyOverflows_bind (onlyOverflows_mapM (fun place => ?_) _) fun _ => onlyOverflows_ok _
  refine onlyOverflows_ite (onlyOverflows_ok _) ?_
  exact onlyOverflows_bind (locationContinuity_overflows clock _) fun _ => onlyOverflows_ok _

end

section
variable (imported : Imported)

theorem combined_overflows (legs : List Leg) (allocations : List Allocation) (current : List String) :
    OnlyOverflows (combinedRouteIssues imported legs allocations current) :=
  onlyOverflows_bind (crossContinuity_overflows _ _ _ _) fun _ => onlyOverflows_ok _

theorem profileRoutes_overflows (book : Tables) (profile : String) :
    OnlyOverflows (book.profileActiveRouteIssues imported profile) :=
  onlyOverflows_ite (onlyOverflows_ok _) (combined_overflows imported _ _ _)

theorem ownIssues_overflows (book : Tables) (row : ComponentRow) : OnlyOverflows (book.ownIssues imported row) := by
  refine onlyOverflows_bind ?_ fun _ => onlyOverflows_bind ?_ fun _ => onlyOverflows_ok _
  · refine onlyOverflows_ite (onlyOverflows_ok _) ?_
    exact onlyOverflows_bind (allocationChronology_overflows _ _ _ _) fun _ =>
      onlyOverflows_bind (locationContinuity_overflows _ _) fun _ => onlyOverflows_ok _
  · refine onlyOverflows_bind ?_ fun _ => onlyOverflows_ok _
    unfold scopedChronologyIssues
    split
    · exact allocationChronology_overflows _ _ _ _
    · exact onlyOverflows_ok _

theorem routeIssues_overflows (book : Tables) (legs : List Leg) (allocations : List Allocation)
    (mode : ConservationMode) (routes : Option (List Issue)) :
    OnlyOverflows (book.routeIssues imported legs allocations mode routes) := by
  unfold routeIssues
  split
  · exact onlyOverflows_ok _
  · exact onlyOverflows_ok _
  · exact onlyOverflows_ite (onlyOverflows_ok _) (onlyOverflows_bind (combined_overflows imported _ _ _) fun _ => onlyOverflows_ok _)

theorem materialize_overflows (book : Tables) (routes : Option (List Issue)) (row : ComponentRow) :
    OnlyOverflows (book.materializeComponent imported routes row) :=
  onlyOverflows_bind (ownIssues_overflows imported book row) fun _ =>
    onlyOverflows_bind (routeIssues_overflows imported book _ _ _ routes) fun _ => onlyOverflows_ok _

theorem iter_overflows (book : Tables) (profile : String) :
    OnlyOverflows (book.iterAuthoredActiveComponents imported profile) :=
  onlyOverflows_bind (profileRoutes_overflows imported book profile) fun routes =>
    onlyOverflows_mapM (materialize_overflows imported book (some routes)) _

end

section
variable (imported : Imported)

def anchors (legs : List Leg) : Set String := { transaction | ∃ leg ∈ legs, leg.anchor = some transaction }

variable {routes : Option (List Issue)} {row : ComponentRow} {view : View} {book : Tables} {profile : String}

theorem materialize_parts (run : book.materializeComponent imported routes row = .ok view) :
    view.row = row ∧ view.legs = book.legsOf row.id ∧ view.effectiveState = effectiveState row view.issues ∧
      ∃ own shared, book.ownIssues imported row = .ok own ∧ view.issues = own ++ shared := by
  obtain ⟨own, ownRun, run⟩ := bind_ok.1 run
  obtain ⟨shared, -, run⟩ := bind_ok.1 run
  rw [pure_ok] at run
  subst run
  exact ⟨rfl, rfl, rfl, own, shared, ownRun, rfl⟩

theorem effective_iff {issues : List Issue} :
    effectiveState row issues = .active ↔ row.state = .active ∧ issues = [] := by
  unfold effectiveState
  cases row.state <;> simp

/-- An effective component has no issue of its own: no anchor is lost or replaced and no other active component joins on
one of its anchors. -/
theorem effective_clean
    (run : book.materializeComponent imported routes row = .ok view) (effective : view.effectiveState = .active) :
    row.state = .active ∧ book.activeMembershipConflicts row.id row.profileId = [] ∧
      ∀ leg ∈ book.legsOf row.id, legAnchorIssues imported leg = [] := by
  obtain ⟨-, -, state, own, shared, ownRun, issues⟩ := materialize_parts imported run
  rw [state, effective_iff, issues, append_eq_nil_iff] at effective
  obtain ⟨active, clean, -⟩ := effective
  subst clean
  obtain ⟨conservation, -, ownRun⟩ := bind_ok.1 ownRun
  obtain ⟨anchored, anchorRun, ownRun⟩ := bind_ok.1 ownRun
  rw [pure_ok] at ownRun
  simp only [append_eq_nil_iff] at ownRun
  obtain ⟨⟨⟨⟨-, -⟩, activeClean⟩, anchorClean⟩, -⟩ := ownRun
  refine ⟨active, ?_, ?_⟩
  · unfold activeIssues at activeClean
    rw [if_pos active, append_eq_nil_iff] at activeClean
    by_contra conflicts
    have := activeClean.2
    unfold flag at this
    rw [if_pos conflicts] at this
    cases this
  · subst anchorClean
    obtain ⟨chronology, -, anchorRun⟩ := bind_ok.1 anchorRun
    rw [pure_ok] at anchorRun
    simp only [List.append_assoc] at anchorRun
    exact flatMap_eq_nil_iff.1 (append_eq_nil_iff.1 anchorRun).1

theorem anchor_live {leg : Leg} (clean : legAnchorIssues imported leg = []) : leg.anchor = leg.transactionId := by
  unfold legAnchorIssues at clean
  rw [append_eq_nil_iff] at clean
  cases live : leg.transactionId with
  | none =>
    have rest := clean.2
    rw [live] at rest
    dsimp only at rest
    by_contra anchored
    rw [if_pos anchored] at rest
    cases rest
  | some transaction =>
    have rest := clean.2
    rw [live] at rest
    dsimp only at rest
    rw [append_eq_nil_iff] at rest
    by_contra different
    have := rest.1
    unfold flag at this
    rw [if_pos different] at this
    cases this

theorem effective_anchors
    (run : book.materializeComponent imported routes row = .ok view) (effective : view.effectiveState = .active)
    {transaction : String} : transaction ∈ anchors view.legs ↔ transaction ∈ liveTransactions view.legs := by
  obtain ⟨-, -, clean⟩ := effective_clean imported run effective
  have live : ∀ leg ∈ view.legs, leg.anchor = leg.transactionId := by
    intro leg member
    rw [(materialize_parts imported run).2.1] at member
    exact anchor_live imported (clean leg member)
  unfold anchors liveTransactions
  rw [mem_sortedSet, mem_filterMap]
  constructor
  · rintro ⟨leg, member, anchored⟩
    exact ⟨leg, member, (live leg member) ▸ anchored⟩
  · rintro ⟨leg, member, anchored⟩
    exact ⟨leg, member, (live leg member).symm ▸ anchored⟩

theorem mem_activeRows :
    row ∈ book.activeRows profile ↔ row ∈ book.components ∧ row.profileId = profile ∧ row.state = .active := by
  unfold activeRows
  rw [(sortedBy_perm _ _).mem_iff, mem_filter, decide_eq_true_iff]

variable {views : List View}

theorem iter_views (wellFormed : book.WellFormed)
    (run : book.iterAuthoredActiveComponents imported profile = .ok views) :
    ∃ routes, book.profileActiveRouteIssues imported profile = .ok routes ∧
      (∀ view ∈ views, view.row ∈ book.activeRows profile ∧
        book.materializeComponent imported (some routes) view.row = .ok view) ∧
      (∀ row ∈ book.activeRows profile, ∃ view ∈ views, view.row = row) ∧
      (views.map fun view => view.row.id).Nodup := by
  obtain ⟨routes, profileRun, viewsRun⟩ := bind_ok.1 run
  refine ⟨routes, profileRun, ?_, ?_, ?_⟩
  · intro view member
    obtain ⟨row, listed, made⟩ := mapM_outputs viewsRun member
    obtain rfl := (materialize_parts imported made).1
    exact ⟨listed, made⟩
  · intro row listed
    obtain ⟨view, member, made⟩ := mapM_inputs viewsRun listed
    exact ⟨view, member, (materialize_parts imported made).1⟩
  · have same : views.map (fun view => view.row.id) = (book.activeRows profile).map ComponentRow.id :=
      mapM_map (fun row view made => by rw [(materialize_parts imported made).1]) viewsRun
    rw [same]
    unfold activeRows
    rw [((sortedBy_perm _ _).map _).nodup_iff]
    exact wellFormed.componentIds.sublist (filter_sublist.map _)

theorem joined_conflict (wellFormed : book.WellFormed) {row other : ComponentRow}
    (member : row ∈ book.components) (otherMember : other ∈ book.components) (active : other.state = .active)
    (profile : row.profileId = other.profileId) (different : row.id ≠ other.id) {leg leg' : Leg}
    (own : leg ∈ book.legsOf row.id) (own' : leg' ∈ book.legsOf other.id) {anchor : String}
    (joined : leg.joinAnchor = some anchor) (joined' : leg'.joinAnchor = some anchor) :
    book.activeMembershipConflicts row.id row.profileId ≠ [] := by
  have scope := legsOf_profile wellFormed member own
  have scope' := legsOf_profile wellFormed otherMember own'
  obtain ⟨stored, component⟩ := mem_legsOf.1 own
  obtain ⟨stored', component'⟩ := mem_legsOf.1 own'
  refine ne_nil_of_mem (a := (anchor, leg'.componentId)) ?_
  refine mem_flatMap.2 ⟨leg, mem_filter.2 ⟨stored, decide_eq_true ⟨component, scope⟩⟩, ?_⟩
  rw [joined]
  refine mem_map.2 ⟨leg', mem_filter.2 ⟨stored', decide_eq_true ⟨?_, joined', ?_, ?_⟩⟩, rfl⟩
  · rw [scope', scope, profile]
  · rw [component, component']
    exact different.symm
  · unfold stateOf
    rw [component', row_eq wellFormed otherMember, Option.map_some, active]

def effectiveViews (views : List View) : List View := views.filter fun view => view.effectiveState = .active

theorem mem_effectiveViews :
    view ∈ effectiveViews views ↔ view ∈ views ∧ view.effectiveState = .active := by
  unfold effectiveViews
  rw [mem_filter, decide_eq_true_iff]

def keptMemberships (book : Tables) (profile : String) : List Membership :=
  book.memberships.filter fun membership => membership.profileId ≠ profile

theorem reconcile_ok {book' : Tables} :
    book.reconcileActiveMemberships imported profile = .ok book' ↔
      ∃ views, book.iterAuthoredActiveComponents imported profile = .ok views ∧
        book' = { book with memberships := book.keptMemberships profile ++
          (effectiveViews views).flatMap (membershipsOf profile) } ∧
        (∀ held ∈ book.keptMemberships profile, ∀ item ∈ (effectiveViews views).flatMap (membershipsOf profile),
          ¬ Collide held item) ∧
        ((effectiveViews views).flatMap (membershipsOf profile)).Pairwise fun held item => ¬ Collide held item := by
  unfold reconcileActiveMemberships
  rw [bind_ok]
  constructor
  · rintro ⟨views, run, rest⟩
    obtain ⟨memberships, inserted, same⟩ := bind_ok.1 rest
    rw [pure_ok] at same
    obtain ⟨rfl, apart, pairs⟩ := insertAll_ok.1 inserted
    exact ⟨views, run, same.symm, apart, pairs⟩
  · rintro ⟨views, run, rfl, apart, pairs⟩
    exact ⟨views, run, bind_ok.2 ⟨_, insertAll_ok.2 ⟨rfl, apart, pairs⟩, rfl⟩⟩

theorem reconcile_refused (run : book.iterAuthoredActiveComponents imported profile = .ok views)
    (refused : ∀ book', book.reconcileActiveMemberships imported profile ≠ .ok book') :
    ∃ constraint, book.reconcileActiveMemberships imported profile = .error (.integrityError constraint) := by
  have step : book.reconcileActiveMemberships imported profile =
      (((effectiveViews views).flatMap (membershipsOf profile)).foldlM insertMembership
        (book.keptMemberships profile)).map fun memberships => { book with memberships } := by
    unfold reconcileActiveMemberships
    rw [run]
    show (_ >>= _) = _
    cases inserted : ((effectiveViews views).flatMap (membershipsOf profile)).foldlM insertMembership
      (book.keptMemberships profile) with
    | error e =>
      show (foldlM insertMembership (book.keptMemberships profile)
        ((effectiveViews views).flatMap (membershipsOf profile)) >>= _) = _
      rw [inserted]
      rfl
    | ok memberships =>
      show (foldlM insertMembership (book.keptMemberships profile)
        ((effectiveViews views).flatMap (membershipsOf profile)) >>= _) = _
      rw [inserted]
      rfl
  cases inserted : ((effectiveViews views).flatMap (membershipsOf profile)).foldlM insertMembership
      (book.keptMemberships profile) with
  | error e =>
    obtain ⟨constraint, rfl⟩ := insertAll_error inserted
    rw [inserted] at step
    exact ⟨constraint, step⟩
  | ok memberships =>
    rw [inserted] at step
    exact absurd step (refused _)

theorem mem_membershipsOf {membership : Membership} :
    membership ∈ membershipsOf profile view ↔ membership.componentId = view.row.id ∧ membership.profileId = profile ∧
      membership.transactionId ∈ liveTransactions view.legs := by
  unfold membershipsOf
  rw [mem_map]
  constructor
  · rintro ⟨transaction, member, rfl⟩
    exact ⟨rfl, rfl, member⟩
  · rintro ⟨component, owner, member⟩
    exact ⟨membership.transactionId, member, by cases membership; cases component; cases owner; rfl⟩

theorem iter_memberships (book : Tables) (memberships : List Membership) (profile : String) :
    ({ book with memberships } : Tables).iterAuthoredActiveComponents imported profile =
      book.iterAuthoredActiveComponents imported profile := rfl

structure MembershipsSound (book : Tables) (profile : String) : Prop where
  disjoint : ∀ views, book.iterAuthoredActiveComponents imported profile = .ok views →
    ∀ view ∈ views, ∀ other ∈ views, view.effectiveState = .active → other.effectiveState = .active →
      view.row.id ≠ other.row.id → Disjoint (anchors view.legs) (anchors other.legs)
  unique : ∀ constraint, book.reconcileActiveMemberships imported profile ≠ .error (.integrityError constraint)
  exact : ∀ book', book.reconcileActiveMemberships imported profile = .ok book' →
    ∃ views, book.iterAuthoredActiveComponents imported profile = .ok views ∧
      ∀ membership, membership ∈ book'.memberships ↔
        (membership.profileId ≠ profile ∧ membership ∈ book.memberships) ∨
          (membership.profileId = profile ∧ ∃ view ∈ views, view.effectiveState = .active ∧
            membership.componentId = view.row.id ∧ membership.transactionId ∈ anchors view.legs)
  idempotent : ∀ book', book.reconcileActiveMemberships imported profile = .ok book' →
    book'.reconcileActiveMemberships imported profile = .ok book'

/-- Nothing but the transactions of another active component can speak against an active component. -/
structure Standing (book : Tables) (row : ComponentRow) : Prop where
  conserved : validateConservation imported.clock row.header (book.legsOf row.id) (book.allocationsOf row.id) = .ok []
  committed : commitmentIssues row (book.legsOf row.id).length (book.allocationsOf row.id).length
    (book.termsOf row.id).length = []
  evidenced : imported.evidenceValid row (book.legsOf row.id) = true
  supported : imported.nativeUsable row (book.legsOf row.id) (book.allocationsOf row.id) = true
  anchored : anchorIssues imported (book.legsOf row.id) (book.allocationsOf row.id) row.header.conservationMode
    ((book.termsOf row.id).map Term.sourceLegId ++ (book.termsOf row.id).map Term.targetLegId) = .ok []
  linked : book.lineageIssues row = []
  straight : row.header.conservationMode = .quantity → Straight imported book row

/-- Another active component stores a text that is the anchor of a leg of the component. -/
def Met (book : Tables) (row : ComponentRow) : Prop :=
  ∃ other ∈ book.activeRows row.profileId, other.id ≠ row.id ∧
    ∃ leg ∈ book.legsOf row.id, ∃ leg' ∈ book.legsOf other.id, leg.joinAnchor ≠ none ∧ leg'.joinAnchor = leg.joinAnchor

/-- Of two standing components that share a transaction one is met. -/
def SharedMet (book : Tables) (profile : String) : Prop :=
  ∀ row ∈ book.activeRows profile, ∀ other ∈ book.activeRows profile, row.id ≠ other.id →
    Standing imported book row → Standing imported book other →
      (∃ leg ∈ book.legsOf row.id, ∃ leg' ∈ book.legsOf other.id, leg.transactionId ≠ none ∧
        leg'.transactionId = leg.transactionId) → book.Met row ∨ book.Met other

/-- A membership stored under another profile that pairs a component of this one with a transaction of its own finds it
not standing, or met. -/
def StrayMet (book : Tables) (profile : String) : Prop :=
  ∀ held ∈ book.memberships, held.profileId ≠ profile → ∀ row ∈ book.activeRows profile, held.componentId = row.id →
    some held.transactionId ∈ (book.legsOf row.id).map Leg.transactionId → Standing imported book row → book.Met row

theorem conflicts_iff (wellFormed : book.WellFormed) {row : ComponentRow} (member : row ∈ book.components) :
    book.activeMembershipConflicts row.id row.profileId ≠ [] ↔ book.Met row := by
  constructor
  · intro conflicts
    obtain ⟨conflict, listed⟩ := exists_mem_of_ne_nil _ conflicts
    obtain ⟨leg, own, listed⟩ := mem_flatMap.1 listed
    obtain ⟨stored, component, profile⟩ := (mem_filter.1 own).imp id of_decide_eq_true
    cases joined : leg.joinAnchor with
    | none =>
      rw [joined] at listed
      cases listed
    | some anchor =>
      rw [joined] at listed
      obtain ⟨leg', claims, -⟩ := mem_map.1 listed
      obtain ⟨stored', scope, joined', apart, active⟩ := (mem_filter.1 claims).imp id of_decide_eq_true
      obtain ⟨other, otherMember, named, owner⟩ := wellFormed.legScope leg' stored'
      unfold stateOf at active
      rw [← named, row_eq wellFormed otherMember] at active
      refine ⟨other, mem_activeRows.2 ⟨otherMember, owner.trans (scope.trans profile), Option.some.inj active⟩, ?_, leg,
        mem_legsOf.2 ⟨stored, component⟩, leg', mem_legsOf.2 ⟨stored', named.symm⟩, ?_, joined'.trans joined.symm⟩
      · rw [named, ← component]
        exact apart
      · rw [joined]
        exact Option.some_ne_none anchor
  · rintro ⟨other, active, different, leg, own, leg', own', some, same⟩
    obtain ⟨stored, owner, state⟩ := mem_activeRows.1 active
    obtain ⟨anchor, joined⟩ := Option.ne_none_iff_exists'.1 some
    exact joined_conflict wellFormed member stored state owner.symm different.symm own own' joined (same.trans joined)

theorem activeIssues_nil {row : ComponentRow} (active : row.state = .active) :
    book.activeIssues imported row = [] ↔ imported.evidenceValid row (book.legsOf row.id) = true ∧
      imported.nativeUsable row (book.legsOf row.id) (book.allocationsOf row.id) = true ∧
      book.activeMembershipConflicts row.id row.profileId = [] := by
  unfold activeIssues flag
  rw [if_pos active]
  by_cases evidenced : imported.evidenceValid row (book.legsOf row.id) = true <;>
    by_cases supported : imported.nativeUsable row (book.legsOf row.id) (book.allocationsOf row.id) = true <;>
    by_cases free : book.activeMembershipConflicts row.id row.profileId = [] <;> simp [evidenced, supported, free]

section
variable {book : Tables} (wellFormed : book.WellFormed) {profile : String} {views : List View}
  (run : book.iterAuthoredActiveComponents imported profile = .ok views)
include wellFormed run

theorem view_effective_iff {view : View} (member : view ∈ views) :
    view.effectiveState = .active ↔ Standing imported book view.row ∧ ¬book.Met view.row := by
  obtain ⟨routes, profileRun, made, -⟩ := iter_views imported wellFormed run
  obtain ⟨listed, materialized⟩ := made view member
  obtain ⟨stored, owner, active⟩ := mem_activeRows.1 listed
  generalize view.row = row at *
  subst owner
  obtain ⟨own, ownRun, materialized⟩ := bind_ok.1 materialized
  obtain ⟨shared, sharedRun, materialized⟩ := bind_ok.1 materialized
  obtain ⟨conservation, conserved, ownRun⟩ := bind_ok.1 ownRun
  obtain ⟨anchors, anchored, ownRun⟩ := bind_ok.1 ownRun
  rw [pure_ok] at ownRun materialized
  subst ownRun materialized
  have straight : shared = [] ↔ (row.header.conservationMode = .quantity → Straight imported book row) := by
    cases mode : row.header.conservationMode with
    | conversion =>
      rw [mode] at sharedRun
      cases sharedRun
      exact ⟨fun _ => nofun, fun _ => rfl⟩
    | quantity =>
      rw [mode] at sharedRun
      cases sharedRun
      rw [profile_silent_iff imported wellFormed (mem_activeRoutes.2 ⟨stored, rfl, active, mode⟩) profileRun]
      exact ⟨fun straight _ => straight, fun straight => straight rfl⟩
  rw [← conflicts_iff wellFormed stored, not_not]
  show effectiveState row _ = .active ↔ _
  rw [effective_iff]
  simp only [append_eq_nil_iff, activeIssues_nil imported active, straight]
  constructor
  · rintro ⟨-, ⟨⟨⟨⟨rfl, committed⟩, evidenced, supported, free⟩, rfl⟩, linked⟩, straight⟩
    exact ⟨⟨conserved, committed, evidenced, supported, anchored, linked, straight⟩, free⟩
  · rintro ⟨standing, free⟩
    have none := Except.ok.inj (conserved.symm.trans standing.conserved)
    have clean := Except.ok.inj (anchored.symm.trans standing.anchored)
    exact ⟨active, ⟨⟨⟨⟨none, standing.committed⟩, standing.evidenced, standing.supported, free⟩, clean⟩, standing.linked⟩,
      standing.straight⟩

theorem view_anchors {view : View} (member : view ∈ views) (effective : view.effectiveState = .active)
    {transaction : String} :
    transaction ∈ anchors view.legs ↔ ∃ leg ∈ view.legs, leg.transactionId = some transaction := by
  obtain ⟨routes, -, made, -⟩ := iter_views imported wellFormed run
  rw [effective_anchors imported (made view member).2 effective]
  unfold liveTransactions
  rw [mem_sortedSet, mem_filterMap]

theorem disjoint_of_met (met : SharedMet imported book profile) {view other : View} (member : view ∈ views)
    (otherMember : other ∈ views) (effective : view.effectiveState = .active)
    (otherEffective : other.effectiveState = .active) (different : view.row.id ≠ other.row.id) :
    Disjoint (anchors view.legs) (anchors other.legs) := by
  rw [Set.disjoint_left]
  intro transaction own own'
  obtain ⟨leg, legMember, live⟩ := (view_anchors imported wellFormed run member effective).1 own
  obtain ⟨leg', legMember', live'⟩ := (view_anchors imported wellFormed run otherMember otherEffective).1 own'
  obtain ⟨routes, -, made, -⟩ := iter_views imported wellFormed run
  obtain ⟨listed, materialized⟩ := made view member
  obtain ⟨listed', materialized'⟩ := made other otherMember
  rw [(materialize_parts imported materialized).2.1] at legMember
  rw [(materialize_parts imported materialized').2.1] at legMember'
  obtain ⟨standing, free⟩ := (view_effective_iff imported wellFormed run member).1 effective
  obtain ⟨standing', free'⟩ := (view_effective_iff imported wellFormed run otherMember).1 otherEffective
  exact (met _ listed _ listed' different standing standing'
    ⟨leg, legMember, leg', legMember', by rw [live]; simp, live'.trans live.symm⟩).elim free free'

theorem effective_apart
    (disjoint : ∀ view ∈ views, ∀ other ∈ views, view.effectiveState = .active → other.effectiveState = .active →
      view.row.id ≠ other.row.id → Disjoint (anchors view.legs) (anchors other.legs)) :
    ((effectiveViews views).flatMap (membershipsOf profile)).Pairwise fun held item => ¬ Collide held item := by
  obtain ⟨routes, -, made, -, distinct⟩ := iter_views imported wellFormed run
  rw [pairwise_flatMap]
  constructor
  · intro view _
    refine List.Pairwise.map _ ?_ (sortedSet_nodup (view.legs.filterMap Leg.transactionId))
    intro transaction transaction' different collide
    exact different collide.1
  · have apart : (effectiveViews views).Pairwise fun view other => view.row.id ≠ other.row.id :=
      (pairwise_map.1 distinct).sublist filter_sublist
    refine apart.imp_of_mem ?_
    intro view other member otherMember different held heldMember item itemMember collide
    obtain ⟨listed, effective⟩ := mem_effectiveViews.1 member
    obtain ⟨listed', effective'⟩ := mem_effectiveViews.1 otherMember
    have own := (effective_anchors imported (made view listed).2 effective).2 (mem_membershipsOf.1 heldMember).2.2
    have own' := (effective_anchors imported (made other listed').2 effective').2 (mem_membershipsOf.1 itemMember).2.2
    rw [← collide.1] at own'
    exact Set.disjoint_left.1 (disjoint view listed other listed' effective effective' different) own own'

theorem kept_apart (stray : StrayMet imported book profile) :
    ∀ held ∈ book.keptMemberships profile, ∀ item ∈ (effectiveViews views).flatMap (membershipsOf profile),
      ¬ Collide held item := by
  intro held kept item listed collide
  obtain ⟨stored, foreign⟩ := mem_filter.1 kept
  obtain ⟨view, member, own⟩ := mem_flatMap.1 listed
  obtain ⟨viewMember, effective⟩ := mem_effectiveViews.1 member
  obtain ⟨component, owner, live⟩ := mem_membershipsOf.1 own
  obtain ⟨transaction, either⟩ := collide
  have different : held.profileId ≠ profile := of_decide_eq_true foreign
  rcases either with sameComponent | sameProfile
  · obtain ⟨standing, free⟩ := (view_effective_iff imported wellFormed run viewMember).1 effective
    obtain ⟨routes, -, made, -⟩ := iter_views imported wellFormed run
    obtain ⟨listed, materialized⟩ := made view viewMember
    refine free (stray held stored different view.row listed (sameComponent.trans component) ?_ standing)
    rw [← (materialize_parts imported materialized).2.1]
    unfold liveTransactions at live
    rw [mem_sortedSet, mem_filterMap] at live
    obtain ⟨leg, legMember, named⟩ := live
    exact mem_map.2 ⟨leg, legMember, by rw [named, transaction]⟩
  · exact different (sameProfile.trans owner)

end

/-- Where the components of a profile are read, memberships rebuilt from those effectively active are sound exactly when
the stored anchors meet where they must. -/
theorem sound_iff_met (wellFormed : book.WellFormed) (profile : String) :
    MembershipsSound imported book profile ↔ ((∃ views, book.iterAuthoredActiveComponents imported profile = .ok views) →
      SharedMet imported book profile ∧ StrayMet imported book profile) := by
  constructor
  · rintro ⟨disjoint, unique, -, -⟩ ⟨views, run⟩
    obtain ⟨routes, -, made, every, -⟩ := iter_views imported wellFormed run
    have legs : ∀ view ∈ views, view.legs = book.legsOf view.row.id := fun view member =>
      (materialize_parts imported (made view member).2).2.1
    constructor
    · rintro row listed other listed' different standing standing' ⟨leg, legMember, leg', legMember', live, same⟩
      by_contra unmet
      obtain ⟨free, free'⟩ := not_or.1 unmet
      obtain ⟨view, member, rfl⟩ := every row listed
      obtain ⟨view', member', rfl⟩ := every other listed'
      have effective := (view_effective_iff imported wellFormed run member).2 ⟨standing, free⟩
      have effective' := (view_effective_iff imported wellFormed run member').2 ⟨standing', free'⟩
      rw [← legs view member] at legMember
      rw [← legs view' member'] at legMember'
      obtain ⟨transaction, named⟩ := Option.ne_none_iff_exists'.1 live
      have own := (view_anchors imported wellFormed run member effective).2 ⟨leg, legMember, named⟩
      have own' := (view_anchors imported wellFormed run member' effective').2 ⟨leg', legMember', same.trans named⟩
      exact absurd own' (Set.disjoint_left.1 (disjoint views run view member view' member' effective effective' different) own)
    · intro held stored foreign row listed component live standing
      by_contra free
      obtain ⟨view, member, rfl⟩ := every row listed
      have effective := (view_effective_iff imported wellFormed run member).2 ⟨standing, free⟩
      obtain ⟨leg, legMember, named⟩ := mem_map.1 live
      rw [← legs view member] at legMember
      have item : { componentId := view.row.id, profileId := profile, transactionId := held.transactionId : Membership } ∈
          (effectiveViews views).flatMap (membershipsOf profile) := by
        refine mem_flatMap.2 ⟨view, mem_effectiveViews.2 ⟨member, effective⟩, mem_membershipsOf.2 ⟨rfl, rfl, ?_⟩⟩
        unfold liveTransactions
        rw [mem_sortedSet, mem_filterMap]
        exact ⟨leg, legMember, named⟩
      have kept : held ∈ book.keptMemberships profile := mem_filter.2 ⟨stored, decide_eq_true foreign⟩
      obtain ⟨constraint, refused⟩ := reconcile_refused imported run fun book' rebuilt => by
        obtain ⟨views', run', -, apart, -⟩ := (reconcile_ok imported).1 rebuilt
        rw [run] at run'
        cases run'
        exact apart held kept _ item ⟨rfl, .inl component⟩
      exact unique constraint refused
  · intro met
    have disjoint : ∀ views, book.iterAuthoredActiveComponents imported profile = .ok views →
        ∀ view ∈ views, ∀ other ∈ views, view.effectiveState = .active → other.effectiveState = .active →
          view.row.id ≠ other.row.id → Disjoint (anchors view.legs) (anchors other.legs) :=
      fun views run view member other otherMember effective otherEffective different =>
        disjoint_of_met imported wellFormed run (met ⟨views, run⟩).1 member otherMember effective otherEffective different
    refine ⟨disjoint, ?_, ?_, ?_⟩
    · intro constraint refused
      cases run : book.iterAuthoredActiveComponents imported profile with
      | error e =>
        -- Reading the components fails only on a timestamp, never on a constraint.
        have overflow := iter_overflows imported book profile e run
        unfold reconcileActiveMemberships at refused
        rw [run, overflow] at refused
        cases refused
      | ok views =>
        have rebuilt := (reconcile_ok imported).2 ⟨views, run, rfl, kept_apart imported wellFormed run (met ⟨views, run⟩).2,
          effective_apart imported wellFormed run (disjoint views run)⟩
        rw [rebuilt] at refused
        cases refused
    · intro book' rebuilt
      obtain ⟨views, run, rfl, -, -⟩ := (reconcile_ok imported).1 rebuilt
      refine ⟨views, run, fun membership => ?_⟩
      show membership ∈ book.keptMemberships profile ++ (effectiveViews views).flatMap (membershipsOf profile) ↔ _
      rw [mem_append]
      refine or_congr ?_ ?_
      · unfold keptMemberships
        rw [mem_filter, decide_eq_true_iff, and_comm]
      · rw [mem_flatMap]
        constructor
        · rintro ⟨view, member, own⟩
          obtain ⟨viewMember, effective⟩ := mem_effectiveViews.1 member
          obtain ⟨component, owner, live⟩ := mem_membershipsOf.1 own
          obtain ⟨routes, -, made, -⟩ := iter_views imported wellFormed run
          exact ⟨owner, view, viewMember, effective, component,
            (effective_anchors imported (made view viewMember).2 effective).2 live⟩
        · rintro ⟨owner, view, viewMember, effective, component, anchored⟩
          obtain ⟨routes, -, made, -⟩ := iter_views imported wellFormed run
          exact ⟨view, mem_effectiveViews.2 ⟨viewMember, effective⟩, mem_membershipsOf.2 ⟨component, owner,
            (effective_anchors imported (made view viewMember).2 effective).1 anchored⟩⟩
    · intro book' rebuilt
      obtain ⟨views, run, rfl, apart, pairs⟩ := (reconcile_ok imported).1 rebuilt
      have kept : ({ book with memberships := book.keptMemberships profile ++
          (effectiveViews views).flatMap (membershipsOf profile) } : Tables).keptMemberships profile =
            book.keptMemberships profile := by
        unfold keptMemberships
        rw [filter_append, filter_filter]
        have none : ((effectiveViews views).flatMap (membershipsOf profile)).filter
            (fun membership => membership.profileId ≠ profile) = [] := by
          rw [filter_eq_nil_iff]
          intro membership listed foreign
          obtain ⟨view, -, own⟩ := mem_flatMap.1 listed
          exact of_decide_eq_true foreign (mem_membershipsOf.1 own).2.1
        rw [none, append_nil]
        simp
      refine (reconcile_ok imported).2 ⟨views, (iter_memberships imported book _ profile).trans run, ?_, ?_, pairs⟩
      · rw [kept]
      · rw [kept]
        exact apart

end

def sampleTransaction (id wallet direction : String) : TransactionRow :=
  { id, walletId := wallet, direction, asset := "BTC", amount := 100, occurredAt := "2024-01-01T00:00:00Z" }

def sampleImported : Imported where
  transactions id :=
    if id = "spend" then some (sampleTransaction "spend" "cold" "outbound")
    else if id = "receipt" then some (sampleTransaction "receipt" "hot" "inbound") else none
  wallets id := if id = "cold" ∨ id = "hot" then some { kind := "descriptor", scope := fun _ => {} } else none
  clock text := if text = "2024-01-01T00:00:00Z" then some 1704067200000000 else none
  evidenceValid _ _ := true
  nativeUsable _ _ _ := true

def sampleLeg (component : String) (ordinal : Int) (role : LegRole) (wallet transaction : String)
    (anchor : Option String) : Leg :=
  { id := component ++ wallet, componentId := component, profileId := "book", ordinal, role, rail := "bitcoin",
    asset := "BTC", exposure := "bitcoin", conservationUnit := "msat", amountMsat := 100,
    occurredAt := some "2024-01-01T00:00:00Z", transactionId := some transaction, anchorTransactionId := anchor,
    walletId := some wallet }

def sampleRow (id : String) : ComponentRow :=
  { id, lineageId := id, workspaceId := "w", profileId := "book", revision := 1,
    header := { componentType := "manual_bridge", conservationMode := .quantity }, state := .active,
    expectedLegCount := some 2, expectedAllocationCount := some 0, expectedTermCount := some 0 }

def clearBook : Tables where
  components := [sampleRow "x"]
  legs := [sampleLeg "x" 0 .source "cold" "spend" (some "spend"),
    sampleLeg "x" 1 .destination "hot" "receipt" (some "receipt")]
  allocations := []
  terms := []
  memberships := []

/-- A second active component over the same transfer that stores its anchors as empty texts. -/
def blindBook : Tables where
  components := [sampleRow "x", sampleRow "y"]
  legs := [sampleLeg "x" 0 .source "cold" "spend" (some "spend"), sampleLeg "x" 1 .destination "hot" "receipt" (some "receipt"),
    sampleLeg "y" 0 .source "cold" "spend" (some ""), sampleLeg "y" 1 .destination "hot" "receipt" (some "")]
  allocations := []
  terms := []
  memberships := []

theorem clearBook_wellFormed : clearBook.WellFormed where
  componentIds := by decide
  legIds := by decide
  profileNamed := by decide
  legScope := by decide
  allocationScope := by decide

end Tables

end Kassiber.Custody.Book

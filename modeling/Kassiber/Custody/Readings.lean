import Kassiber.Custody.Memberships

/-!
The readings of a profile: a component read alone, all active ones, a listing and the rebuild of the memberships.
They give a component one verdict, and which of them answers is a matter of the dates of the legs.
-/

namespace Kassiber.Custody.Book
open Lib.Outcome Lib.Sorting List

section
variable (clock : String → Option Int)

/-- The tolerance cannot be added to the time of the sink. -/
def LateEdge (edge : ValueEdge) : Prop :=
  ¬(edge.sourceAmountMsat ≤ 0 ∧ edge.sinkAmountMsat ≤ 0) ∧ edge.source.moment clock ≠ none ∧
    ∃ moment, edge.sink.moment clock = some moment ∧ latestMoment < moment + chronologySkewTolerance

theorem chronologyIssue_ok_iff {edge : ValueEdge} : (∃ issue, chronologyIssue clock edge = .ok issue) ↔ ¬LateEdge clock edge := by
  unfold chronologyIssue LateEdge
  by_cases blank : edge.sourceAmountMsat ≤ 0 ∧ edge.sinkAmountMsat ≤ 0
  · rw [if_pos blank]
    exact ⟨fun _ late => late.1 blank, fun _ => ⟨none, rfl⟩⟩
  rw [if_neg blank]
  cases source : edge.source.moment clock with
  | none => exact ⟨fun _ late => late.2.1 rfl, fun _ => ⟨none, rfl⟩⟩
  | some sourceWhen =>
    cases sink : edge.sink.moment clock with
    | none => exact ⟨fun _ late => by simp at late, fun _ => ⟨none, rfl⟩⟩
    | some sinkWhen =>
      by_cases late : latestMoment < sinkWhen + chronologySkewTolerance
      · refine ⟨?_, fun fits => absurd ⟨blank, Option.some_ne_none _, sinkWhen, rfl, late⟩ fits⟩
        rintro ⟨issue, run⟩
        obtain ⟨reach, added, -⟩ := bind_ok.1 run
        rw [afterTolerance, if_pos late] at added
        cases added
      · refine ⟨?_, fun _ => bind_total ⟨_, if_neg late⟩ fun reach => ?_⟩
        · rintro - ⟨-, -, moment, same, beyond⟩
          cases same
          exact late beyond
        · by_cases inTime : sourceWhen ≤ reach
          · exact ⟨none, if_pos inTime⟩
          · exact ⟨_, if_neg inTime⟩

theorem chronology_ok_iff {legs : List Leg} {allocations : List Allocation} {mode : ConservationMode} :
    (∃ issues, allocationChronologyIssues clock legs allocations mode = .ok issues) ↔
      ∀ edge ∈ allocationPairs legs allocations mode, ¬LateEdge clock edge := by
  constructor
  · rintro ⟨issues, run⟩ edge member
    obtain ⟨found, runs, -⟩ := bind_ok.1 run
    obtain ⟨issue, -, own⟩ := mapM_inputs runs member
    exact (chronologyIssue_ok_iff clock).1 ⟨issue, own⟩
  · intro fits
    exact bind_total (mapM_total fun edge member => (chronologyIssue_ok_iff clock).2 (fits edge member)) fun _ => ⟨_, rfl⟩

end

namespace Tables

section
variable (imported : Imported) (book : Tables)

/-- A date of the component's own legs is too late for one of its own checks: the sink of a dated edge, or a source
without a transaction at a place that is replayed. -/
def OwnLate (row : ComponentRow) : Prop :=
  ((∀ leg ∈ book.legsOf row.id, leg.role ∈ legRoles) ∧
    ((∃ edge ∈ allocationPairs (book.legsOf row.id) (book.allocationsOf row.id) row.header.conservationMode,
        LateEdge imported.clock edge) ∨
      ∃ place, Jams imported.clock (placeMoves (book.legsOf row.id) place))) ∨
  (row.header.conservationMode = .quantity ∧
    ∃ edge ∈ allocationPairs ((book.legsOf row.id).map imported.scopedLeg) (book.allocationsOf row.id) .quantity,
      LateEdge imported.clock edge)

/-- A place that the component shares with other active ones is replayed over too late a source. -/
def RoutesLate (row : ComponentRow) : Prop :=
  row.header.conservationMode = .quantity ∧ row.id ≠ "" ∧ ∃ place,
    SharedPlace imported (book.legsOf row.id ++ book.otherLegs row) place ∧
    UsesPlace imported (book.legsOf row.id ++ book.otherLegs row) row.id place ∧
    PlaceJams imported (book.legsOf row.id ++ book.otherLegs row) place

/-- A place that active components share is replayed over too late a source. -/
def ProfileLate (profile : String) : Prop :=
  ∃ place, SharedPlace imported (book.graphLegs profile) place ∧ PlaceJams imported (book.graphLegs profile) place

/-- Where an active component among the rows can be read alone, no row is too late for its own checks and the active
components are not too late for those of their profile. -/
def Clear (profile : String) (rows : List ComponentRow) : Prop :=
  (∃ row ∈ rows, row.state = .active ∧ ¬OwnLate imported book row ∧ ¬RoutesLate imported book row) →
    ¬ProfileLate imported book profile ∧
      ∀ row ∈ rows, ¬OwnLate imported book row ∧ (row.state ≠ .active → ¬RoutesLate imported book row)

/-- A reading gives each row it lists the verdict of the component read alone, and it answers and lists what is due where
an active row is read alone. -/
structure Agrees (rows : List ComponentRow) (due : View → List View → Prop) (reading : Except BookError (List View)) : Prop where
  reported : ∀ views, reading = .ok views → ∀ listed ∈ views, listed.row ∈ rows ∧
    ∃ view, book.getComponent imported listed.row.id = .ok view ∧ SameVerdict view listed
  answered : ∀ row ∈ rows, row.state = .active → ∀ view, book.getComponent imported row.id = .ok view →
    ∃ views, reading = .ok views ∧ (due view views → ∃ listed ∈ views, listed.row = row)

end

section
variable {imported : Imported} {book : Tables} {row : ComponentRow}

theorem ownIssues_ok_iff : (∃ own, book.ownIssues imported row = .ok own) ↔ ¬OwnLate imported book row := by
  have conserved : (∃ issues, validateConservation imported.clock row.header (book.legsOf row.id) (book.allocationsOf row.id) =
      .ok issues) ↔ ¬((∀ leg ∈ book.legsOf row.id, leg.role ∈ legRoles) ∧
        ((∃ edge ∈ allocationPairs (book.legsOf row.id) (book.allocationsOf row.id) row.header.conservationMode,
          LateEdge imported.clock edge) ∨ ∃ place, Jams imported.clock (placeMoves (book.legsOf row.id) place))) := by
    unfold validateConservation
    by_cases unknown : ∃ leg ∈ book.legsOf row.id, leg.role ∉ legRoles
    · rw [if_pos unknown]
      obtain ⟨leg, member, outside⟩ := unknown
      exact ⟨fun _ late => outside (late.1 leg member), fun _ => ⟨_, rfl⟩⟩
    · rw [if_neg unknown]
      have known : ∀ leg ∈ book.legsOf row.id, leg.role ∈ legRoles := by simpa using unknown
      constructor
      · rintro ⟨issues, run⟩ ⟨-, late⟩
        obtain ⟨chronology, first, run⟩ := bind_ok.1 run
        obtain ⟨continuity, second, -⟩ := bind_ok.1 run
        rcases late with ⟨edge, member, late⟩ | ⟨place, jams⟩
        · exact (chronology_ok_iff imported.clock).1 ⟨_, first⟩ edge member late
        · exact (locationContinuity_ok_iff imported.clock).1 ⟨_, second⟩ place jams
      · intro fits
        obtain ⟨dated, placed⟩ := not_or.1 fun late => fits ⟨known, late⟩
        exact bind_total ((chronology_ok_iff imported.clock).2 fun edge member late => dated ⟨edge, member, late⟩) fun _ =>
          bind_total ((locationContinuity_ok_iff imported.clock).2 fun place jams => placed ⟨place, jams⟩) fun _ => ⟨_, rfl⟩
  have anchored : (∃ issues, anchorIssues imported (book.legsOf row.id) (book.allocationsOf row.id)
      row.header.conservationMode ((book.termsOf row.id).map Term.sourceLegId ++ (book.termsOf row.id).map Term.targetLegId) =
        .ok issues) ↔ ¬(row.header.conservationMode = .quantity ∧
          ∃ edge ∈ allocationPairs ((book.legsOf row.id).map imported.scopedLeg) (book.allocationsOf row.id) .quantity,
            LateEdge imported.clock edge) := by
    cases mode : row.header.conservationMode with
    | conversion => exact ⟨fun _ late => (by cases late.1), fun _ => ⟨_, rfl⟩⟩
    | quantity =>
      have dated := @chronology_ok_iff imported.clock ((book.legsOf row.id).map imported.scopedLeg)
        (book.allocationsOf row.id) .quantity
      constructor
      · rintro ⟨issues, run⟩ ⟨-, edge, member, late⟩
        obtain ⟨chronology, first, -⟩ := bind_ok.1 run
        exact dated.1 ⟨chronology, first⟩ edge member late
      · intro fits
        exact bind_total (dated.2 fun edge member late => fits ⟨rfl, edge, member, late⟩) fun _ => ⟨_, rfl⟩
  unfold OwnLate
  rw [not_or, ← conserved, ← anchored]
  constructor
  · rintro ⟨own, run⟩
    obtain ⟨conservation, first, run⟩ := bind_ok.1 run
    obtain ⟨anchors, second, -⟩ := bind_ok.1 run
    exact ⟨⟨conservation, first⟩, anchors, second⟩
  · rintro ⟨first, second⟩
    exact bind_total first fun _ => bind_total second fun _ => ⟨_, rfl⟩

theorem usesPlace_own {place : PlaceKey}
    (uses : UsesPlace imported (book.legsOf row.id ++ book.otherLegs row) row.id place) : book.legsOf row.id ≠ [] := by
  obtain ⟨-, leg, member, own⟩ := mem_namedComponents.1 uses
  obtain ⟨plain, listed, rfl⟩ := mem_map.1 (mem_filter.1 (mem_filter.1 member).1).1
  rw [scopedLeg_componentId] at own
  rcases mem_append.1 listed with mine | other
  · exact ne_nil_of_mem mine
  · obtain ⟨route, among, theirs⟩ := mem_flatMap.1 other
    exact absurd ((mem_legsOf.1 theirs).2.symm.trans own) (of_decide_eq_true (mem_filter.1 among).2)

variable (wellFormed : book.WellFormed)
include wellFormed

theorem routeIssues_ok_iff (member : row ∈ book.components) :
    (∃ issues, book.routeIssues imported (book.legsOf row.id) (book.allocationsOf row.id) row.header.conservationMode none =
      .ok issues) ↔ ¬RoutesLate imported book row := by
  unfold RoutesLate
  cases mode : row.header.conservationMode with
  | conversion => exact ⟨fun _ late => (by cases late.1), fun _ => ⟨_, rfl⟩⟩
  | quantity =>
    show (∃ issues, book.ownRouteIssues imported (book.legsOf row.id) (book.allocationsOf row.id) = .ok issues) ↔ _
    by_cases bare : row.id = "" ∨ book.legsOf row.id = []
    · have unnamed : namedComponents (book.legsOf row.id) = [] := by rw [namedComponents_own, if_pos bare]
      refine ⟨fun _ late => ?_, fun _ => ⟨[], ?_⟩⟩
      · obtain ⟨-, named, place, -, uses, -⟩ := late
        exact bare.elim named (usesPlace_own uses)
      · unfold ownRouteIssues otherActiveQuantityContent
        rw [unnamed]
        rfl
    · rw [ownRoutes_eq imported wellFormed member bare]
      by_cases alone : book.otherLegs row = []
      · rw [if_pos alone, alone, append_nil]
        refine ⟨fun _ late => ?_, fun _ => ⟨[], rfl⟩⟩
        obtain ⟨-, -, place, shared, -⟩ := late
        exact not_shared_single imported (fun leg own => (mem_legsOf.1 own).2) place shared
      · rw [if_neg alone]
        have total := @combined_ok_iff imported [row.id] (book.allocationsOf row.id ++ book.otherAllocations row)
          (book.legsOf row.id ++ book.otherLegs row)
        constructor
        · rintro ⟨issues, run⟩ ⟨-, -, place, shared, uses, jams⟩
          obtain ⟨combined, run, -⟩ := map_ok.1 run
          exact total.1 ⟨combined, run⟩ place shared ⟨row.id, mem_singleton_self _, uses⟩ jams
        · intro fits
          obtain ⟨combined, run⟩ := total.2 fun place shared ⟨id, own, uses⟩ jams =>
            fits ⟨rfl, (not_or.1 bare).1, place, shared, mem_singleton.1 own ▸ uses, jams⟩
          exact ⟨_, by rw [run]; rfl⟩

omit wellFormed in
theorem profileRoutes_ok_iff {profile : String} :
    (∃ issues, book.profileActiveRouteIssues imported profile = .ok issues) ↔ ¬ProfileLate imported book profile := by
  unfold ProfileLate
  have used : ∀ place, SharedPlace imported (book.graphLegs profile) place →
      ∃ id ∈ namedComponents ((book.graphLegs profile).map imported.scopedLeg), UsesPlace imported (book.graphLegs profile) id place := by
    intro place shared
    obtain ⟨id, uses⟩ := exists_mem_of_length_pos (Nat.lt_of_lt_of_le Nat.two_pos shared)
    refine ⟨id, ?_, uses⟩
    obtain ⟨named, leg, member, own⟩ := mem_namedComponents.1 uses
    exact mem_namedComponents.2 ⟨named, leg, (mem_filter.1 (mem_filter.1 member).1).1, own⟩
  show (∃ issues, (if book.graphLegs profile = [] then pure [] else combinedRouteIssues imported (book.graphLegs profile)
    (book.graphAllocations profile) (namedComponents ((book.graphLegs profile).map imported.scopedLeg))) = .ok issues) ↔ _
  by_cases empty : book.graphLegs profile = []
  · rw [if_pos empty]
    refine ⟨?_, fun _ => ⟨[], rfl⟩⟩
    rintro - ⟨place, shared, -⟩
    obtain ⟨id, -, uses⟩ := used place shared
    obtain ⟨-, leg, member, -⟩ := mem_namedComponents.1 uses
    rw [empty] at member
    cases member
  · rw [if_neg empty, combined_ok_iff]
    constructor
    · rintro fits ⟨place, shared, jams⟩
      exact fits place shared (used place shared) jams
    · exact fun fits place shared _ jams => fits ⟨place, shared, jams⟩

variable {profile : String}

/-- A stored component is judged with or without the routes of its profile, if its own dates allow it. -/
theorem materialize_ok_iff (member : row ∈ book.components) (routes : Option (List Issue)) :
    (∃ view, book.materializeComponent imported routes row = .ok view) ↔
      ¬OwnLate imported book row ∧ (routes = none → ¬RoutesLate imported book row) := by
  have shared : (∃ issues, book.routeIssues imported (book.legsOf row.id) (book.allocationsOf row.id)
      row.header.conservationMode routes = .ok issues) ↔ (routes = none → ¬RoutesLate imported book row) := by
    cases routes with
    | none => simpa using routeIssues_ok_iff wellFormed member
    | some routes =>
      refine ⟨fun _ => nofun, fun _ => ?_⟩
      cases row.header.conservationMode <;> exact ⟨_, rfl⟩
  rw [← ownIssues_ok_iff, ← shared]
  constructor
  · rintro ⟨view, run⟩
    obtain ⟨own, first, run⟩ := bind_ok.1 run
    obtain ⟨issues, second, -⟩ := bind_ok.1 run
    exact ⟨⟨own, first⟩, issues, second⟩
  · rintro ⟨first, second⟩
    exact bind_total first fun _ => bind_total second fun _ => ⟨_, rfl⟩

theorem getComponent_ok_iff (member : row ∈ book.components) :
    (∃ view, book.getComponent imported row.id = .ok view) ↔ ¬OwnLate imported book row ∧ ¬RoutesLate imported book row := by
  unfold getComponent
  rw [row_eq wellFormed member]
  simpa using materialize_ok_iff wellFormed member none

end

section
variable {judge : ComponentRow → Except BookError View} {effectiveOnly : Bool} {limit : Nat}
  {rows : List ComponentRow}

variable {result views : List View}

theorem listViews_outputs
    (run : listViews judge effectiveOnly limit result rows = .ok views) {view : View} (member : view ∈ views) :
    view ∈ result ∨ ∃ row ∈ rows, judge row = .ok view := by
  induction rows generalizing result with
  | nil =>
    cases run
    exact .inl member
  | cons row rest ih =>
    obtain ⟨judged, made, run⟩ := bind_ok.1 run
    have onward : ∀ {result' : List View}, listViews judge effectiveOnly limit result' rest = .ok views →
        (view ∈ result' → view ∈ result ∨ view = judged) → view ∈ result ∨ ∃ row' ∈ row :: rest, judge row' = .ok view := by
      intro result' later earlier
      rcases ih later with old | ⟨other, listed, own⟩
      · rcases earlier old with before | rfl
        · exact .inl before
        · exact .inr ⟨row, .head _, made⟩
      · exact .inr ⟨other, .tail _ listed, own⟩
    split at run
    · exact onward run .inl
    split at run
    · cases run
      rcases mem_append.1 member with old | own
      · exact .inl old
      · exact .inr ⟨row, .head _, mem_singleton.1 own ▸ made⟩
    · exact onward run fun old => (mem_append.1 old).imp id mem_singleton.1

theorem listViews_total (total : ∀ row ∈ rows, ∃ view, judge row = .ok view) (result : List View) :
    ∃ views, listViews judge effectiveOnly limit result rows = .ok views := by
  induction rows generalizing result with
  | nil => exact ⟨result, rfl⟩
  | cons row rest ih =>
    have later := ih fun other listed => total other (.tail _ listed)
    refine bind_total (total row (.head _)) fun view => ?_
    split
    · exact later result
    split
    · exact ⟨_, rfl⟩
    · exact later _

theorem listViews_grows (run : listViews judge effectiveOnly limit result rows = .ok views) : result ⊆ views := by
  induction rows generalizing result with
  | nil =>
    cases run
    exact Subset.refl _
  | cons row rest ih =>
    obtain ⟨judged, -, run⟩ := bind_ok.1 run
    split at run
    · exact ih run
    split at run
    · cases run
      exact subset_append_left _ _
    · exact fun view member => ih run (mem_append_left _ member)

/-- A listing that is not cut short judges every row and lists those it does not pass over. -/
theorem listViews_complete (run : listViews judge effectiveOnly limit result rows = .ok views)
    (room : result.length + rows.length ≤ limit ∨ views.length < limit) {row : ComponentRow} (member : row ∈ rows) :
    ∃ view, judge row = .ok view ∧ ((effectiveOnly = true → view.effectiveState = .active) → view ∈ views) := by
  induction rows generalizing result with
  | nil => cases member
  | cons first rest ih =>
    obtain ⟨judged, made, onward⟩ := bind_ok.1 run
    rw [length_cons] at room
    split at onward
    · rename_i passed
      rcases mem_cons.1 member with rfl | later
      · exact ⟨judged, made, fun active => absurd (active passed.1) passed.2⟩
      · exact ih onward (by omega) later
    split at onward
    · rename_i full
      cases onward
      rcases mem_cons.1 member with rfl | later
      · exact ⟨judged, made, fun _ => mem_append_right _ (.head _)⟩
      · have some := length_pos_of_mem later
        rw [length_append, length_singleton] at room
        omega
    · rcases mem_cons.1 member with rfl | later
      · have kept : judged ∈ result ++ [judged] := mem_append_right _ (.head _)
        exact ⟨judged, made, fun _ => listViews_grows onward kept⟩
      · refine ih onward (room.imp (fun fits => ?_) id) later
        rw [length_append, length_singleton]
        omega

end

section
variable (imported : Imported) {view : View} {row : ComponentRow}

theorem getComponent_legs {book : Tables} {id : String} (read : book.getComponent imported id = .ok view) :
    view.legs = book.legsOf id := by
  unfold getComponent at read
  cases found : book.row id with
  | none =>
    rw [found] at read
    cases read
  | some row =>
    rw [found] at read
    unfold Tables.row at found
    have same := find?_some found
    rw [decide_eq_true_iff] at same
    rw [(materialize_parts imported read).2.1, same]

theorem SameVerdict.refl (view : View) : SameVerdict view view := ⟨rfl, rfl⟩

/-- How the readings judge a row: an active one by the routes of its profile, another as one candidate beside them. -/
def judged (book : Tables) (routes : List Issue) (row : ComponentRow) : Except BookError View :=
  book.materializeComponent imported (if row.state = .active then some routes else none) row

variable {book : Tables} (wellFormed : book.WellFormed) {profile : String} {routes : List Issue}
include wellFormed

theorem judged_agrees (member : row ∈ book.components)
    (profileRun : book.profileActiveRouteIssues imported row.profileId = .ok routes) {listed : View}
    (run : judged imported book routes row = .ok listed) :
    listed.row = row ∧ ∃ view, book.getComponent imported listed.row.id = .ok view ∧ SameVerdict view listed := by
  unfold judged at run
  obtain rfl := (materialize_parts imported run).1
  refine ⟨rfl, ?_⟩
  by_cases active : listed.row.state = .active
  · rw [if_pos active] at run
    exact (materialize_agrees imported wellFormed member active profileRun run).2
  · rw [if_neg active] at run
    refine ⟨listed, ?_, .refl listed⟩
    unfold getComponent
    rw [row_eq wellFormed member]
    exact run

theorem judged_ok_iff (member : row ∈ book.components) : (∃ view, judged imported book routes row = .ok view) ↔
    ¬OwnLate imported book row ∧ (row.state ≠ .active → ¬RoutesLate imported book row) := by
  unfold judged
  rw [materialize_ok_iff wellFormed member]
  simp

variable {rows : List ComponentRow} {due : View → List View → Prop}
  {walk : (ComponentRow → Except BookError View) → Except BookError (List View)}
  (stored : ∀ row ∈ rows, row ∈ book.components ∧ row.profileId = profile)
include stored

/-- A reading that takes the routes of the profile and judges rows one by one agrees where the dates are clear. -/
theorem reading_agrees (outputs : ∀ judge views, walk judge = .ok views → ∀ listed ∈ views, ∃ row ∈ rows, judge row = .ok listed)
    (total : ∀ judge, (∀ row ∈ rows, ∃ view, judge row = .ok view) → ∃ views, walk judge = .ok views)
    (complete : ∀ judge views, walk judge = .ok views → ∀ row ∈ rows, ∀ view, judge row = .ok view → due view views →
      view ∈ views)
    (decided : ∀ view other views, SameVerdict view other → due view views → due other views)
    (clear : Clear imported book profile rows) :
    Agrees imported book rows due (book.profileActiveRouteIssues imported profile >>= fun routes =>
      walk (judged imported book routes)) where
  reported views run listed member := by
    obtain ⟨routes, profileRun, run⟩ := bind_ok.1 run
    obtain ⟨row, among, made⟩ := outputs _ views run listed member
    obtain ⟨here, owner⟩ := stored row among
    obtain ⟨rfl, same⟩ := judged_agrees imported wellFormed here (owner ▸ profileRun) made
    exact ⟨among, same⟩
  answered row among active view read := by
    obtain ⟨here, owner⟩ := stored row among
    obtain ⟨dated, each⟩ := clear ⟨row, among, active, (getComponent_ok_iff wellFormed here).1 ⟨view, read⟩⟩
    obtain ⟨routes, profileRun⟩ := profileRoutes_ok_iff.2 dated
    have made : ∀ row ∈ rows, ∃ view, judged imported book routes row = .ok view := fun row among =>
      (judged_ok_iff imported wellFormed (stored row among).1).2 (each row among)
    obtain ⟨views, run⟩ := total (judged imported book routes) made
    refine ⟨views, bind_ok.2 ⟨routes, profileRun, run⟩, fun owed => ?_⟩
    obtain ⟨listed, own⟩ := made row among
    obtain ⟨rfl, other, read', same⟩ := judged_agrees imported wellFormed here (owner ▸ profileRun) own
    rw [read] at read'
    cases read'
    exact ⟨listed, complete _ views run _ among listed own (decided view listed views same owed), rfl⟩

/-- A reading that judges all its rows agrees only where the dates are clear. -/
theorem reading_clear (all : ∀ judge views, walk judge = .ok views → ∀ row ∈ rows, ∃ view, judge row = .ok view)
    (agrees : Agrees imported book rows due (book.profileActiveRouteIssues imported profile >>= fun routes =>
      walk (judged imported book routes))) : Clear imported book profile rows := by
  rintro ⟨row, among, active, alone⟩
  obtain ⟨view, read⟩ := (getComponent_ok_iff wellFormed (stored row among).1).2 alone
  obtain ⟨views, run, -⟩ := agrees.answered row among active view read
  obtain ⟨routes, profileRun, run⟩ := bind_ok.1 run
  refine ⟨profileRoutes_ok_iff.1 ⟨routes, profileRun⟩, fun row among => ?_⟩
  exact (judged_ok_iff imported wellFormed (stored row among).1).1 (all _ views run row among)

end

section
variable (imported : Imported) {book : Tables} {row : ComponentRow} {profile : String} {keep : ComponentRow → Bool}

theorem mem_selectedRows : row ∈ book.selectedRows profile keep ↔ row ∈ book.components ∧ row.profileId = profile ∧ keep row = true := by
  unfold selectedRows
  rw [mem_reverse, (sortedBy_perm _ _).mem_iff, mem_filter, decide_eq_true_iff]

theorem listComponents_eq {effectiveOnly : Bool} {limit : Nat} (admitted : 1 ≤ limit ∧ limit ≤ 1001) :
    book.listComponents imported profile keep effectiveOnly limit =
      (book.profileActiveRouteIssues imported profile >>= fun routes =>
        listViews (judged imported book routes) effectiveOnly limit []
          (if effectiveOnly then book.selectedRows profile keep else (book.selectedRows profile keep).take limit)) :=
  if_neg (not_not.2 admitted)

theorem iter_eq : book.iterAuthoredActiveComponents imported profile =
    (book.profileActiveRouteIssues imported profile >>= fun routes =>
      (book.activeRows profile).mapM (judged imported book routes)) := by
  have same : ∀ routes (rows : List ComponentRow), (∀ row ∈ rows, row.state = .active) →
      rows.mapM (book.materializeComponent imported (some routes)) = rows.mapM (judged imported book routes) := by
    intro routes rows active
    induction rows with
    | nil => rfl
    | cons row rest ih =>
      have first : judged imported book routes row = book.materializeComponent imported (some routes) row := by
        unfold judged
        rw [if_pos (active row (.head _))]
      rw [mapM_cons, mapM_cons, ih fun other later => active other (.tail _ later), first]
  unfold iterAuthoredActiveComponents
  congr 1
  funext routes
  exact same routes _ fun row member => (mem_activeRows.1 member).2.2

theorem iter_ok_iff (wellFormed : book.WellFormed) :
    (∃ views, book.iterAuthoredActiveComponents imported profile = .ok views) ↔
      ¬ProfileLate imported book profile ∧ ∀ row ∈ book.activeRows profile, ¬OwnLate imported book row := by
  rw [← profileRoutes_ok_iff]
  constructor
  · rintro ⟨views, run⟩
    obtain ⟨routes, profileRun, made, every, -⟩ := iter_views imported wellFormed run
    refine ⟨⟨routes, profileRun⟩, fun row listed => ?_⟩
    obtain ⟨view, member, rfl⟩ := every row listed
    exact ((materialize_ok_iff wellFormed (mem_activeRows.1 listed).1 (some routes)).1 ⟨view, (made view member).2⟩).1
  · rintro ⟨answered, fits⟩
    exact bind_total answered fun routes => mapM_total fun row listed =>
      (materialize_ok_iff wellFormed (mem_activeRows.1 listed).1 (some routes)).2 ⟨fits row listed, nofun⟩

theorem reconcile_overflows : book.reconcileActiveMemberships imported profile = .error .overflowError ↔
    book.iterAuthoredActiveComponents imported profile = .error .overflowError := by
  cases run : book.iterAuthoredActiveComponents imported profile with
  | error e =>
    unfold reconcileActiveMemberships
    rw [run]
    exact ⟨fun failed => by cases failed; rfl, fun failed => by cases failed; rfl⟩
  | ok views =>
    refine ⟨fun failed => ?_, nofun⟩
    obtain ⟨constraint, refused⟩ := reconcile_refused imported run fun book' stored => by rw [failed] at stored; cases stored
    rw [failed] at refused
    cases refused

theorem reconcile_memberships (wellFormed : book.WellFormed) {book' : Tables}
    (rebuilt : book.reconcileActiveMemberships imported profile = .ok book') (membership : Membership)
    (owner : membership.profileId = profile) :
    membership ∈ book'.memberships ↔ ∃ row ∈ book.components, row.profileId = profile ∧ row.state = .active ∧
      membership.componentId = row.id ∧ ∃ view, book.getComponent imported row.id = .ok view ∧
        view.effectiveState = .active ∧ membership.transactionId ∈ liveTransactions view.legs := by
  obtain ⟨views, run, rfl, -, -⟩ := (reconcile_ok imported).1 rebuilt
  obtain ⟨routes, profileRun, made, every, -⟩ := iter_views imported wellFormed run
  have alone : ∀ listed ∈ views, ∃ view, book.getComponent imported listed.row.id = .ok view ∧ SameVerdict view listed := by
    intro listed member
    obtain ⟨active, materialized⟩ := made listed member
    obtain ⟨stored, owner, state⟩ := mem_activeRows.1 active
    exact (materialize_agrees imported wellFormed stored state (owner.symm ▸ profileRun) materialized).2
  have foreign : membership ∉ book.keptMemberships profile := fun kept =>
    of_decide_eq_true (mem_filter.1 kept).2 owner
  show membership ∈ book.keptMemberships profile ++ (effectiveViews views).flatMap (membershipsOf profile) ↔ _
  rw [mem_append, or_iff_right foreign, mem_flatMap]
  constructor
  · rintro ⟨listed, member, own⟩
    obtain ⟨viewMember, effective⟩ := mem_effectiveViews.1 member
    obtain ⟨component, -, live⟩ := mem_membershipsOf.1 own
    obtain ⟨active, materialized⟩ := made listed viewMember
    obtain ⟨stored, owned, state⟩ := mem_activeRows.1 active
    obtain ⟨view, read, same⟩ := alone listed viewMember
    refine ⟨listed.row, stored, owned, state, component, view, read, same.state.trans effective, ?_⟩
    rw [getComponent_legs imported read, ← (materialize_parts imported materialized).2.1]
    exact live
  · rintro ⟨row, stored, owned, state, component, view, read, effective, live⟩
    obtain ⟨listed, member, rfl⟩ := every row (mem_activeRows.2 ⟨stored, owned, state⟩)
    obtain ⟨other, read', same⟩ := alone listed member
    rw [read] at read'
    cases read'
    refine ⟨listed, mem_effectiveViews.2 ⟨member, same.state.symm.trans effective⟩,
      mem_membershipsOf.2 ⟨component, owner, ?_⟩⟩
    rw [(materialize_parts imported (made listed member).2).2.1, ← getComponent_legs imported read]
    exact live

/-- One verdict for a component: every reading of its profile gives an active component the verdict that it has when it
is read alone, exactly where the dates of the legs let the reading answer. The rebuild of the memberships raises on dates
as the iteration does, and stores what the components read alone stand for. -/
theorem component_verdict_unique_iff (wellFormed : book.WellFormed) (profile : String) :
    (Agrees imported book (book.activeRows profile) (fun _ _ => True) (book.iterAuthoredActiveComponents imported profile) ↔
      Clear imported book profile (book.activeRows profile)) ∧
    (∀ keep limit, 1 ≤ limit → limit ≤ 1001 →
      (Agrees imported book ((book.selectedRows profile keep).take limit) (fun _ _ => True)
          (book.listComponents imported profile keep false limit) ↔
        Clear imported book profile ((book.selectedRows profile keep).take limit))) ∧
    (∀ keep limit, 1 ≤ limit → limit ≤ 1001 →
      (Clear imported book profile (book.selectedRows profile keep) →
        Agrees imported book (book.selectedRows profile keep)
          (fun view views => view.effectiveState = .active ∧ views.length < limit)
          (book.listComponents imported profile keep true limit)) ∧
      ((book.selectedRows profile keep).length ≤ limit →
        Agrees imported book (book.selectedRows profile keep)
          (fun view views => view.effectiveState = .active ∧ views.length < limit)
          (book.listComponents imported profile keep true limit) →
        Clear imported book profile (book.selectedRows profile keep))) ∧
    (book.reconcileActiveMemberships imported profile = .error .overflowError ↔
      book.iterAuthoredActiveComponents imported profile = .error .overflowError) ∧
    (∀ book', book.reconcileActiveMemberships imported profile = .ok book' → ∀ membership, membership.profileId = profile →
      (membership ∈ book'.memberships ↔ ∃ row ∈ book.components, row.profileId = profile ∧ row.state = .active ∧
        membership.componentId = row.id ∧ ∃ view, book.getComponent imported row.id = .ok view ∧
          view.effectiveState = .active ∧ membership.transactionId ∈ liveTransactions view.legs)) := by
  refine ⟨?_, fun keep limit low high => ?_, fun keep limit low high => ?_, ?_, ?_⟩
  · rw [iter_eq]
    have stored : ∀ row ∈ book.activeRows profile, row ∈ book.components ∧ row.profileId = profile := fun row member =>
      ⟨(mem_activeRows.1 member).1, (mem_activeRows.1 member).2.1⟩
    constructor
    · exact reading_clear imported wellFormed stored fun judge views run row member =>
        (mapM_inputs run member).imp fun _ own => own.2
    · refine reading_agrees imported wellFormed stored (fun judge views run listed => mapM_outputs run)
        (fun judge => mapM_total) (fun judge views run row member view made _ => ?_) fun _ _ _ _ _ => trivial
      obtain ⟨listed, inside, own⟩ := mapM_inputs run member
      rw [made] at own
      cases own
      exact inside
  · rw [listComponents_eq imported ⟨low, high⟩]
    have stored : ∀ row ∈ (book.selectedRows profile keep).take limit, row ∈ book.components ∧ row.profileId = profile :=
      fun row member => ⟨(mem_selectedRows.1 (mem_of_mem_take member)).1, (mem_selectedRows.1 (mem_of_mem_take member)).2.1⟩
    have room : ([] : List View).length + ((book.selectedRows profile keep).take limit).length ≤ limit := by
      rw [length_nil, length_take]
      omega
    constructor
    · exact reading_clear imported wellFormed stored fun judge views run row member =>
        (listViews_complete run (.inl room) member).imp fun _ own => own.1
    · refine reading_agrees imported wellFormed stored (fun judge views run listed member => ?_)
        (fun judge made => listViews_total made []) (fun judge views run row member view made _ => ?_) fun _ _ _ _ _ => trivial
      · exact (listViews_outputs run member).resolve_left not_mem_nil
      · obtain ⟨listed, own, inside⟩ := listViews_complete run (.inl room) member
        rw [made] at own
        cases own
        exact inside nofun
  · rw [listComponents_eq imported ⟨low, high⟩]
    have stored : ∀ row ∈ book.selectedRows profile keep, row ∈ book.components ∧ row.profileId = profile :=
      fun row member => ⟨(mem_selectedRows.1 member).1, (mem_selectedRows.1 member).2.1⟩
    constructor
    · refine reading_agrees imported wellFormed stored (fun judge views run listed member => ?_)
        (fun judge made => listViews_total made []) (fun judge views run row member view made owed => ?_)
        fun view other views same owed => ⟨same.state.symm.trans owed.1, owed.2⟩
      · exact (listViews_outputs run member).resolve_left not_mem_nil
      · obtain ⟨listed, own, inside⟩ := listViews_complete run (.inr owed.2) member
        rw [made] at own
        cases own
        exact inside fun _ => owed.1
    · intro few
      have room : ([] : List View).length + (book.selectedRows profile keep).length ≤ limit := by
        rwa [length_nil, Nat.zero_add]
      exact reading_clear imported wellFormed stored fun judge views run row member =>
        (listViews_complete run (.inl room) member).imp fun _ own => own.1
  · exact reconcile_overflows imported
  · exact fun book' rebuilt => reconcile_memberships imported wellFormed rebuilt

end

theorem clear_alone {imported : Imported} {book : Tables} (wellFormed : book.WellFormed) {row : ComponentRow}
    (member : row ∈ book.components) {state : RevisionState}
    (read : (book.getComponent imported row.id).map View.effectiveState = .ok state) :
    ¬OwnLate imported book row ∧ ¬RoutesLate imported book row := by
  obtain ⟨view, run, -⟩ := map_ok.1 read
  exact (getComponent_ok_iff wellFormed member).1 ⟨view, run⟩

def pairedImported : Imported :=
  { sampleImported with
    transactions := fun id =>
      if id = "arrival" then some (sampleTransaction "arrival" "hot" "inbound")
      else if id = "departure" then some (sampleTransaction "departure" "cold" "outbound")
      else sampleImported.transactions id }

/-- Two active components over one transfer, and one over another. -/
def pairedBook : Tables where
  components := [sampleRow "x", sampleRow "y", sampleRow "z"]
  legs := [sampleLeg "x" 0 .source "cold" "spend" (some "spend"), sampleLeg "x" 1 .destination "hot" "receipt" (some "receipt"),
    sampleLeg "y" 0 .source "cold" "spend" none, sampleLeg "y" 1 .destination "hot" "receipt" none,
    sampleLeg "z" 0 .source "cold" "departure" (some "departure"), sampleLeg "z" 1 .destination "hot" "arrival" (some "")]
  allocations := []
  terms := []
  memberships := [{ componentId := "z", profileId := "other", transactionId := "spend" }]

theorem pairedBook_wellFormed : pairedBook.WellFormed where
  componentIds := by decide
  legIds := by decide
  profileNamed := by decide
  legScope := by decide
  allocationScope := by decide

/-- One transfer, read alone and by the iteration over its profile. -/
theorem clear_verdict_unique :
    Clear sampleImported clearBook "book" (clearBook.activeRows "book") ∧
      ∃ views, clearBook.iterAuthoredActiveComponents sampleImported "book" = .ok views ∧
        ∃ listed ∈ views, listed.effectiveState = .active ∧
          ∃ view, clearBook.getComponent sampleImported "x" = .ok view ∧ SameVerdict view listed := by
  have stored : sampleRow "x" ∈ clearBook.components := .head _
  have read : (clearBook.getComponent sampleImported "x").map View.effectiveState = .ok .active := by decide +kernel
  have only : ∀ row ∈ clearBook.activeRows "book", row = sampleRow "x" := fun row member =>
    mem_singleton.1 (mem_activeRows.1 member).1
  have clear : Clear sampleImported clearBook "book" (clearBook.activeRows "book") := by
    refine fun _ => ⟨profileRoutes_ok_iff.1 ⟨[], by decide +kernel⟩, fun row member => ?_⟩
    obtain rfl := only row member
    exact ⟨(clear_alone clearBook_wellFormed stored read).1, fun _ => (clear_alone clearBook_wellFormed stored read).2⟩
  refine ⟨clear, ?_⟩
  have agrees := (component_verdict_unique_iff sampleImported clearBook_wellFormed "book").1.2 clear
  obtain ⟨view, run, active⟩ := map_ok.1 read
  obtain ⟨views, answered, listing⟩ := agrees.answered (sampleRow "x") (mem_activeRows.2 ⟨stored, rfl, rfl⟩) rfl view run
  obtain ⟨listed, inside, own⟩ := listing trivial
  obtain ⟨-, view', run', same⟩ := agrees.reported views answered listed inside
  rw [own] at run'
  refine ⟨views, answered, listed, inside, ?_, view', run', same⟩
  have alone : clearBook.getComponent sampleImported "x" = .ok view' := run'
  rw [run] at alone
  cases alone
  exact same.state.symm.trans active

def redatedImported : Imported :=
  { sampleImported with
    transactions := fun id =>
      if id = "arrival" then some { sampleTransaction "arrival" "hot" "inbound" with occurredAt := "9999-12-31T00:00:00Z" }
      else if id = "departure" then some (sampleTransaction "departure" "cold" "outbound")
      else sampleImported.transactions id
    clock := fun text => if text = "9999-12-31T00:00:00Z" then some 253402214400000000 else sampleImported.clock text }

/-- A transfer, and beside it one whose receipt has since been imported with a date on the last day. -/
def neighbourBook (state : RevisionState) : Tables where
  components := [sampleRow "x", { sampleRow "y" with state }]
  legs := clearBook.legs ++ [sampleLeg "y" 0 .source "cold" "departure" (some "departure"),
    sampleLeg "y" 1 .destination "hot" "arrival" (some "arrival")]
  allocations := []
  terms := []
  memberships := []

theorem neighbourBook_read (state : RevisionState) :
    ∃ view, (neighbourBook state).getComponent redatedImported "x" = .ok view ∧ view.effectiveState = .active := by
  have read : ((neighbourBook state).getComponent redatedImported "x").map View.effectiveState = .ok .active := by
    cases state <;> decide +kernel
  exact map_ok.1 read

/-- A late neighbour, active or a draft, keeps every reading of the profile from an answer, not the component itself. -/
theorem late_neighbour_unread :
    ¬Agrees redatedImported (neighbourBook .active) ((neighbourBook .active).activeRows "book") (fun _ _ => True)
        ((neighbourBook .active).iterAuthoredActiveComponents redatedImported "book") ∧
      ¬Agrees redatedImported (neighbourBook .draft) (((neighbourBook .draft).selectedRows "book" fun _ => true).take 200)
        (fun _ _ => True) ((neighbourBook .draft).listComponents redatedImported "book" (fun _ => true) false 200) := by
  have stored : ∀ state, sampleRow "x" ∈ (neighbourBook state).components := fun _ => .head _
  refine ⟨fun agrees => ?_, fun agrees => ?_⟩
  · obtain ⟨view, read, -⟩ := neighbourBook_read .active
    obtain ⟨views, run, -⟩ := agrees.answered (sampleRow "x") (mem_activeRows.2 ⟨stored _, rfl, rfl⟩) rfl view read
    have raised : ((neighbourBook .active).iterAuthoredActiveComponents redatedImported "book").map (fun _ => ()) =
        .error .overflowError := by decide +kernel
    rw [run] at raised
    cases raised
  · obtain ⟨view, read, -⟩ := neighbourBook_read .draft
    have few : ((neighbourBook .draft).selectedRows "book" fun _ => true).length ≤ 200 := by decide +kernel
    have among : sampleRow "x" ∈ ((neighbourBook .draft).selectedRows "book" fun _ => true).take 200 := by
      rw [take_of_length_le few]
      exact mem_selectedRows.2 ⟨stored _, rfl, rfl⟩
    obtain ⟨views, run, -⟩ := agrees.answered (sampleRow "x") among rfl view read
    have raised : ((neighbourBook .draft).listComponents redatedImported "book" (fun _ => true) false 200).map (fun _ => ()) =
        .error .overflowError := by decide +kernel
    rw [run] at raised
    cases raised

end Tables

end Kassiber.Custody.Book

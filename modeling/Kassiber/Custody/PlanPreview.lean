import Kassiber.Custody.Labels
import Kassiber.Custody.Revisions

/-!
A prospective component judged before anything is written, by the plan validator and the batch validator, and the same
component created and activated.
-/

namespace Kassiber.Custody.Book
open Lib.Outcome Lib.Dict Lib.Sorting Lib.UnionFind Lib.Mapped List

structure Authored.Normalized (content : Authored) : Prop where
  legOrdinals : content.legs.Pairwise fun leg other => leg.ordinal < other.ordinal
  legIds : (content.legs.map Leg.id).Nodup
  legTexts : ∀ leg ∈ content.legs, leg.transactionId ≠ some "" ∧ leg.anchorTransactionId ≠ some ""
  allocationOrdinals : content.allocations.Pairwise fun allocation other => allocation.ordinal < other.ordinal
  allocationIds : (content.allocations.map Allocation.id).Nodup
  allocationEdges : ∀ allocation ∈ content.allocations,
    (∃ leg ∈ content.legs, leg.id = allocation.sourceLegId ∧ leg.role = .source) ∧
      ∃ leg ∈ content.legs, leg.id = allocation.sinkLegId ∧ leg.role ≠ .source
  termIds : (content.terms.map Term.id).Nodup
  termEdges : ∀ term ∈ content.terms, (∃ leg ∈ content.legs, leg.id = term.sourceLegId ∧ leg.role = .source) ∧
    ∃ leg ∈ content.legs, leg.id = term.targetLegId ∧ leg.role ≠ .source

def Authored.partialLegs (content : Authored) : List String :=
  content.terms.map Term.sourceLegId ++ content.terms.map Term.targetLegId

/-- A value given where a text is expected. -/
inductive TextInput where
  | absent
  | text (value : String)
  | other
  deriving DecidableEq

/-- A value given where a boolean is expected. -/
inductive FlagInput where
  | flag (value : Bool)
  | other (truthy : Bool)
  deriving DecidableEq

structure ReviewInput where
  evidenceGrade : TextInput := .absent
  conversionPolicy : TextInput := .absent
  conversionReviewed : FlagInput := .flag false
  deriving DecidableEq

def isToken (text : String) : Bool :=
  match text.toList with
  | [] => false
  | first :: rest => first.isLower && rest.all fun c => c.isLower || c.isDigit || c ∈ ['_', '.', ':', '-']

def optionalToken (field : String) : TextInput → Except BookError (Option String)
  | .absent => .ok none
  | .other => .error (.appError "custody_component_validation" (field ++ " must be text"))
  | .text value =>
    if strip value = "" then .ok none
    else if isToken (strip value) then .ok (some (strip value))
    else .error (.appError "custody_component_validation" (field ++ " must be a lowercase stable token"))

def TextInput.text? : TextInput → Option String
  | .text value => some value
  | _ => none

def FlagInput.truthy : FlagInput → Bool
  | .flag value => value
  | .other truthy => truthy

/-- The header that the plan validator judges: the review fields as they are given. -/
def ReviewInput.given (review : ReviewInput) (header : ReviewHeader) : ReviewHeader :=
  { header with evidenceGrade := review.evidenceGrade.text?, conversionPolicy := review.conversionPolicy.text?
                conversionReviewed := review.conversionReviewed.truthy }

/-- The header that is stored. -/
def ReviewInput.normalizeComponentHeader (review : ReviewInput) (header : ReviewHeader) : Except BookError ReviewHeader :=
  match review.conversionReviewed with
  | .other _ => .error (.appError "custody_component_validation" "conversion_reviewed must be a boolean")
  | .flag conversionReviewed => do
    let evidenceGrade ← optionalToken "evidence_grade" review.evidenceGrade
    let conversionPolicy ← optionalToken "conversion_policy" review.conversionPolicy
    pure { header with evidenceGrade, conversionPolicy, conversionReviewed }

/-- A prospective component: its normalized rows under its type and mode, and the review fields of its header. -/
structure Plan where
  content : Authored
  review : ReviewInput

def Plan.under (plan : Plan) (header : ReviewHeader) : Authored := { plan.content with header }

def Plan.previewed (plan : Plan) : Authored := plan.under (plan.review.given plan.content.header)

def Plan.created (plan : Plan) : Except BookError Authored := do
  let header ← plan.review.normalizeComponentHeader plan.content.header
  pure (plan.under header)

structure PlannedComponent where
  id : String
  content : Authored

def PlannedComponent.anchors (planned : PlannedComponent) : List String :=
  planned.content.legs.filterMap fun leg => present leg.anchor

def PlannedComponent.legs (planned : PlannedComponent) (profile : String) : List Leg :=
  planned.content.legs.map (Leg.under planned.id profile)

def PlannedComponent.allocations (planned : PlannedComponent) : List Allocation :=
  planned.content.allocations.map (Allocation.under planned.id)

namespace Tables

/-- Active components, other than those of a lineage to be replaced, that claim a transaction of some planned legs. -/
def plannedConflicts (book : Tables) (profile : String) (legs : List Leg) (replacing : Option String) :
    List (String × String) :=
  let transactions := legs.filterMap fun leg => present leg.anchor
  book.legs.filterMap fun leg =>
    match leg.joinAnchor with
    | none => none
    | some transaction =>
      if leg.profileId = profile ∧ book.stateOf leg.componentId = some .active ∧ transaction ∈ transactions ∧
          (replacing = none ∨ (book.row leg.componentId).map ComponentRow.lineageId ≠ replacing) then
        some (transaction, leg.componentId)
      else none

/-- The issues of a prospective component. Its legs are stored under no component yet, and its economic terms grant it no
partial anchors. -/
def validateComponentPlan (imported : Imported) (book : Tables) (profile : String) (content : Except BookError Authored)
    (replacing : Option String) : Except BookError (List Issue) :=
  if profile = "" then .error (.appError "custody_component_validation" "profile_id is required")
  else do
    let content ← content
    let legs := content.legs.map (Leg.under "" "")
    let mode := content.header.conservationMode
    let conservation ← validateConservation imported.clock content.header legs content.allocations
    let anchors ← anchorIssues imported legs content.allocations mode []
    let routes ← book.routeIssues imported legs content.allocations mode none
    pure (conservation ++ anchors ++ routes ++
      flag (book.plannedConflicts profile legs replacing ≠ []) "active_transaction_membership_conflict")

def sharedTransactionIssues (components : List PlannedComponent) : List Issue :=
  (sortedSet (components.flatMap PlannedComponent.anchors)).flatMap fun transaction =>
    let holders := sortedSet ((components.filter fun planned => transaction ∈ planned.anchors).map PlannedComponent.id)
    flag (1 < holders.length) "active_transaction_membership_conflict" (transaction :: holders)

/-- The issues between the components of a batch, and between them and the active ones. -/
def validatePlannedActiveBatch (imported : Imported) (book : Tables) (profile : String)
    (components : List PlannedComponent) : Except BookError (List Issue) :=
  let candidates := components.filter fun planned => planned.content.header.conservationMode = .quantity
  let ids := candidates.map PlannedComponent.id
  if candidates = [] then pure (sharedTransactionIssues components)
  else do
    let routes ← combinedRouteIssues imported
      (book.graphLegs profile ++ candidates.flatMap fun planned => planned.legs profile)
      (book.graphAllocations profile ++ candidates.flatMap PlannedComponent.allocations) ids
    pure (sharedTransactionIssues components ++ routes.filter fun issue => issue.componentIds = [] ∨ names ids issue)

def contentIssues (imported : Imported) (book : Tables) (profile id : String) (content : Except BookError Authored) :
    Except BookError (List Issue) := do
  let plan ← book.validateComponentPlan imported profile content none
  let authored ← content
  let batch ← book.validatePlannedActiveBatch imported profile [{ id, content := authored }]
  pure (plan ++ batch)

def applyContent (imported : Imported) (book : Tables) (workspace profile id lineage : String)
    (content : Except BookError Authored) (captured : Except BookError Nat) : Outcome :=
  let created := book.createComponent imported workspace profile id lineage content
  match created.result with
  | .error error => created.book.raises error
  | .ok _ => created.book.activateComponent imported id none captured

def previewIssues (imported : Imported) (book : Tables) (profile id : String) (plan : Except BookError Plan) :
    Except BookError (List Issue) :=
  book.contentIssues imported profile id (plan.map Plan.previewed)

def applyPlan (imported : Imported) (book : Tables) (workspace profile id lineage : String)
    (plan : Except BookError Plan) (captured : Except BookError Nat) : Outcome :=
  book.applyContent imported workspace profile id lineage (plan >>= Plan.created) captured

/-- Nothing in the book carries the ids of the component, its lineage or its rows. -/
structure Prospective (book : Tables) (profile id lineage : String) (content : Authored) : Prop where
  profileNamed : profile ≠ ""
  idNamed : id ≠ ""
  idNew : id ∉ book.components.map ComponentRow.id
  lineageNew : ∀ row ∈ book.components, row.profileId = profile → row.lineageId ≠ lineage
  legsNew : ∀ leg ∈ content.legs, leg.id ∉ book.legs.map Leg.id
  allocationsNew : ∀ allocation ∈ content.allocations, allocation.id ∉ book.allocations.map Allocation.id
  termsNew : ∀ term ∈ content.terms, term.id ∉ book.terms.map Term.id
  termScope : ∀ term ∈ book.terms, term.componentId ≠ id

def inserted (book : Tables) (row : ComponentRow) (content : Authored) (memberships : List Membership) : Tables :=
  { components := book.components ++ [row], legs := book.legs ++ content.legsOf row,
    allocations := book.allocations ++ content.allocationsOf row, terms := book.terms ++ content.termsOf row, memberships }

section
variable {book : Tables} (wellFormed : book.WellFormed) {content : Authored} (normalized : content.Normalized)
  {row : ComponentRow} (idNew : row.id ∉ book.components.map ComponentRow.id) (memberships : List Membership)

theorem sorted_of_ordinals {α : Type} {ordinal : α → Int} {id : α → String} {rows : List α}
    (ordered : rows.Pairwise fun x y => ordinal x < ordinal y) :
    sortedBy (fun x => toLex (ordinal x, id x)) rows = rows := by
  have strict : rows.Pairwise fun x y => toLex (ordinal x, id x) < toLex (ordinal y, id y) :=
    ordered.imp fun less => Prod.Lex.toLex_lt_toLex.2 (.inl less)
  exact eq_of_perm_of_strict _ (sortedBy_perm _ _) (sortedBy_pairwise _ _) strict

include wellFormed idNew

theorem legs_elsewhere {leg : Leg} (member : leg ∈ book.legs) : leg.componentId ≠ row.id := by
  obtain ⟨owner, stored, same, -⟩ := wellFormed.legScope leg member
  exact fun own => idNew (own ▸ same ▸ mem_map_of_mem stored)

theorem allocations_elsewhere {allocation : Allocation} (member : allocation ∈ book.allocations) :
    allocation.componentId ≠ row.id := by
  obtain ⟨leg, legMember, -, same⟩ := wellFormed.allocationScope allocation member
  exact same ▸ legs_elsewhere wellFormed idNew legMember

include normalized in
theorem inserted_legs : (book.inserted row content memberships).legsOf row.id = content.legsOf row := by
  have own : (book.legs ++ content.legsOf row).filter (fun leg => leg.componentId = row.id) = content.legsOf row := by
    rw [filter_append, filter_eq_nil_iff.2, nil_append, filter_eq_self.2]
    · intro leg member
      obtain ⟨plain, -, rfl⟩ := mem_authored.1 member
      exact decide_eq_true rfl
    · intro leg member own
      exact legs_elsewhere wellFormed idNew member (of_decide_eq_true own)
  unfold legsOf inserted
  rw [own]
  exact sorted_of_ordinals (pairwise_map.2 normalized.legOrdinals)

include normalized in
theorem inserted_allocations :
    (book.inserted row content memberships).allocationsOf row.id = content.allocationsOf row := by
  have own : (book.allocations ++ content.allocationsOf row).filter (fun allocation => allocation.componentId = row.id) =
      content.allocationsOf row := by
    rw [filter_append, filter_eq_nil_iff.2, nil_append, filter_eq_self.2]
    · intro allocation member
      obtain ⟨plain, -, rfl⟩ := mem_map.1 member
      exact decide_eq_true rfl
    · intro allocation member own
      exact allocations_elsewhere wellFormed idNew member (of_decide_eq_true own)
  unfold allocationsOf inserted
  rw [own]
  exact sorted_of_ordinals (pairwise_map.2 normalized.allocationOrdinals)

omit wellFormed idNew in
theorem inserted_legs_other {other : String} (different : other ≠ row.id) :
    (book.inserted row content memberships).legsOf other = book.legsOf other := by
  unfold legsOf inserted
  rw [filter_append]
  have none : (content.legsOf row).filter (fun leg => leg.componentId = other) = [] := by
    rw [filter_eq_nil_iff]
    intro leg member own
    obtain ⟨plain, -, rfl⟩ := mem_authored.1 member
    exact different (of_decide_eq_true own).symm
  rw [none, append_nil]

omit wellFormed idNew in
theorem inserted_allocations_other {other : String} (different : other ≠ row.id) :
    (book.inserted row content memberships).allocationsOf other = book.allocationsOf other := by
  unfold allocationsOf inserted
  rw [filter_append]
  have none : (content.allocationsOf row).filter (fun allocation => allocation.componentId = other) = [] := by
    rw [filter_eq_nil_iff]
    intro allocation member own
    obtain ⟨plain, -, rfl⟩ := mem_map.1 member
    exact different (of_decide_eq_true own).symm
  rw [none, append_nil]

theorem inserted_others :
    (book.inserted row content memberships).otherRoutes row = book.activeRoutes row.profileId := by
  have different : ∀ other ∈ book.components, other.id ≠ row.id := fun other member same =>
    idNew (same ▸ mem_map_of_mem member)
  have strict : (book.activeRoutes row.profileId).Pairwise fun left right => left.id < right.id :=
    activeRoutes_strict wellFormed row.profileId
  refine eq_of_perm_of_strict ComponentRow.id ?_ ?_ strict
  · have active : ((book.inserted row content memberships).components.filter fun other =>
        other.profileId = row.profileId ∧ other.state = .active ∧ other.header.conservationMode = .quantity).filter
          (fun other => other.id ≠ row.id) =
        book.components.filter fun other =>
          other.profileId = row.profileId ∧ other.state = .active ∧ other.header.conservationMode = .quantity := by
      unfold inserted
      rw [filter_filter, filter_append]
      have own : [row].filter (fun other => decide (other.id ≠ row.id) &&
          decide (other.profileId = row.profileId ∧ other.state = .active ∧ other.header.conservationMode = .quantity)) =
          [] := by simp
      rw [own, append_nil]
      refine filter_congr fun other member => ?_
      simp [different other member]
    refine ((sortedBy_perm _ _).filter _).trans ?_
    rw [active]
    exact (sortedBy_perm _ _).symm
  · exact (sortedBy_pairwise (fun other : ComponentRow => other.id) _).sublist filter_sublist

theorem inserted_graph : (book.inserted row content memberships).otherLegs row = book.graphLegs row.profileId ∧
    (book.inserted row content memberships).otherAllocations row = book.graphAllocations row.profileId := by
  have different : ∀ other ∈ book.activeRoutes row.profileId, other.id ≠ row.id := fun other member same =>
    idNew (same ▸ mem_map_of_mem (mem_activeRoutes.1 member).1)
  unfold otherLegs otherAllocations graphLegs graphAllocations
  rw [inserted_others wellFormed idNew memberships]
  exact ⟨flatMap_congr fun other member => inserted_legs_other memberships (different other member),
    flatMap_congr fun other member => inserted_allocations_other memberships (different other member)⟩

end

end Tables

end Kassiber.Custody.Book

import Kassiber.Custody.Readings
import Kassiber.Custody.Replacement

/-!
The revisions of a lineage: creating, revising, activating and superseding components, each in a savepoint of its own,
and what every order of these calls keeps.
-/

namespace Kassiber.Custody.Book
open Lib.Outcome Lib.Dict Lib.Sorting Lib.UnionFind List

/-- The content of a new revision as normalization hands it over: a leg on a live transaction keeps it as its anchor. -/
structure Authored where
  header : ReviewHeader
  legs : List Leg
  allocations : List Allocation
  terms : List Term
  createdAt : String
  anchored : ∀ leg ∈ legs, leg.transactionId ≠ none → leg.anchorTransactionId = leg.transactionId

def Authored.legsOf (content : Authored) (row : ComponentRow) : List Leg :=
  content.legs.map fun leg => { leg with componentId := row.id, profileId := row.profileId }

def Authored.allocationsOf (content : Authored) (row : ComponentRow) : List Allocation :=
  content.allocations.map fun allocation => { allocation with componentId := row.id }

def Authored.termsOf (content : Authored) (row : ComponentRow) : List Term :=
  content.terms.map fun term => { term with componentId := row.id }

def Authored.draft (content : Authored) (id lineage workspace profile : String) (revision : Nat)
    (supersedes : Option String) : ComponentRow :=
  { id, lineageId := lineage, workspaceId := workspace, profileId := profile, revision, header := content.header,
    state := .draft, expectedLegCount := some content.legs.length,
    expectedAllocationCount := some content.allocations.length, expectedTermCount := some content.terms.length,
    supersedes, createdAt := content.createdAt }

def FreshKeys {α : Type} (key : α → String) (stored added : List α) : Prop :=
  (added.map key).Nodup ∧ ∀ row ∈ added, key row ∉ stored.map key

instance {α : Type} (key : α → String) (stored added : List α) : Decidable (FreshKeys key stored added) :=
  inferInstanceAs (Decidable (_ ∧ _))

/-- An edge that the scope triggers admit: from a source leg to another kind of leg, both of the component. -/
def edgeInside (legs : List Leg) (component source sink : String) : Prop :=
  (∃ leg ∈ legs, leg.id = source ∧ leg.componentId = component ∧ leg.role = .source) ∧
    ∃ leg ∈ legs, leg.id = sink ∧ leg.componentId = component ∧ leg.role ≠ .source

instance (legs : List Leg) (component source sink : String) : Decidable (edgeInside legs component source sink) :=
  inferInstanceAs (Decidable (_ ∧ _))

namespace Tables

def insertRevision (book : Tables) (row : ComponentRow) (content : Authored) : Except BookError Tables :=
  let legs := book.legs ++ content.legsOf row
  if row.id ∈ book.components.map ComponentRow.id then .error (.integrityError "custody_components.id")
  else if ¬ FreshKeys Leg.id book.legs (content.legsOf row) then .error (.integrityError "custody_component_legs.id")
  else if ¬ FreshKeys Allocation.id book.allocations (content.allocationsOf row) then
    .error (.integrityError "custody_component_allocations.id")
  else if ∃ allocation ∈ content.allocations, ¬ edgeInside legs row.id allocation.sourceLegId allocation.sinkLegId then
    .error (.integrityError "custody_allocation_scope_or_role_mismatch")
  else if ¬ FreshKeys Term.id book.terms (content.termsOf row) then
    .error (.integrityError "custody_component_economic_terms.id")
  else if ∃ term ∈ content.terms, ¬ edgeInside legs row.id term.sourceLegId term.targetLegId then
    .error (.integrityError "custody_component_terms_scope_mismatch")
  else .ok { book with
    components := book.components ++ [row]
    legs := legs
    allocations := book.allocations ++ content.allocationsOf row
    terms := book.terms ++ content.termsOf row }

/-- Changes the rows a condition chooses. By the trigger, a row that leaves the active state loses its memberships. -/
def updateRows (book : Tables) (chosen : ComponentRow → Bool) (change : ComponentRow → ComponentRow) : Tables :=
  { book with
    components := book.components.map fun row => if chosen row then change row else row
    memberships := book.memberships.filter fun membership => ¬ ∃ row ∈ book.components,
      row.id = membership.componentId ∧ chosen row = true ∧ row.state = .active ∧ (change row).state ≠ .active }

def inLineage (row other : ComponentRow) : Prop := other.profileId = row.profileId ∧ other.lineageId = row.lineageId

instance (row other : ComponentRow) : Decidable (inLineage row other) := inferInstanceAs (Decidable (_ ∧ _))

structure Outcome where
  book : Tables
  result : Except BookError View

def raises (book : Tables) (error : BookError) : Outcome := { book, result := .error error }

def shows (imported : Imported) (book : Tables) (id : String) : Outcome :=
  { book, result := book.getComponent imported id }

/-- A savepoint takes back what its body wrote when the body raises. The rest runs after its release. -/
def savepoint (book : Tables) (body : Except BookError Tables) (rest : Tables → Outcome) : Outcome :=
  match body with
  | .error error => book.raises error
  | .ok stored => rest stored

def createComponent (imported : Imported) (book : Tables) (workspace profile id lineage : String)
    (content : Except BookError Authored) : Outcome :=
  if profile = "" then book.raises (.appError "custody_component_validation" "profile_id is required")
  else
    match content with
    | .error error => book.raises error
    | .ok content =>
      if ∃ row ∈ book.components, row.profileId = profile ∧ row.lineageId = lineage then
        book.raises (.appError "custody_component_lineage_exists"
          "component lineage already exists; create a revision instead")
      else
        book.savepoint (book.insertRevision (content.draft id lineage workspace profile 1 none) content) fun stored =>
          stored.shows imported id

def latestRevision (book : Tables) (row : ComponentRow) : Nat :=
  ((book.components.filter fun other => inLineage row other).map ComponentRow.revision).foldr max 0

def retireDraft (book : Tables) (old : ComponentRow) (newId : String) : Tables :=
  if old.state = .draft then
    book.updateRows (fun row => row.id = old.id ∧ row.state = .draft) fun row =>
      { row with state := .superseded, supersededBy := some newId }
  else book

/-- A new draft revision of any revision of a lineage without another draft. -/
def updateComponent (imported : Imported) (book : Tables) (id newId : String) (content : Except BookError Authored) :
    Outcome :=
  match book.row id with
  | none => book.raises notFound
  | some old =>
    if ∃ row ∈ book.components, inLineage old row ∧ row.state = .draft ∧ row.id ≠ id then
      book.raises (.appError "custody_component_draft_exists" "component lineage already has a draft revision")
    else
      match content with
      | .error error => book.raises error
      | .ok content =>
        let next := content.draft newId old.lineageId old.workspaceId old.profileId (book.latestRevision old + 1) (some id)
        book.savepoint ((book.retireDraft old newId).insertRevision next content) fun stored => stored.shows imported newId

def membershipConflict : BookError :=
  .appError "custody_component_membership_conflict" "a transaction already belongs to another active custody component"

def clearedMemberships (book : Tables) (view : View) : List Membership :=
  (book.memberships.filter fun membership => membership.componentId ≠ view.row.id).filter fun membership =>
    ¬ (membership.profileId = view.row.profileId ∧ membership.transactionId ∈ liveTransactions view.legs ∧
      ∃ row ∈ book.components, row.id = membership.componentId ∧ row.state ≠ .active)

/-- Other active revisions of the lineage give way to the one that is activated. -/
def retireActives (book : Tables) (view : View) : Tables :=
  book.updateRows (fun row => inLineage view.row row ∧ row.state = .active ∧ row.id ≠ view.row.id) fun row =>
    { row with state := .superseded, supersededBy := some view.row.id }

def markActive (book : Tables) (id : String) (evidenceCount : Nat) : Tables :=
  book.updateRows (fun row => row.id = id ∧ row.state = .draft) fun row =>
    { row with state := .active, supersededBy := none, expectedEvidenceCount := some evidenceCount }

/-- The revision an activated one was made from is linked to it once it is superseded. -/
def linkReplaced (book : Tables) (view : View) : Tables :=
  book.updateRows (fun row => view.row.supersedes = some row.id ∧ row.state = .superseded) fun row =>
    { row with supersededBy := some view.row.id }

/-- The memberships with those of the view. A refused insert is reported as a conflict. -/
def claimMemberships (book : Tables) (view : View) : Except BookError (List Membership) :=
  match (membershipsOf view.row.profileId view).foldlM insertMembership (book.clearedMemberships view) with
  | .error _ => .error membershipConflict
  | .ok memberships => .ok memberships

def storeActivation (book : Tables) (view : View) (captured : Except BookError Nat) : Except BookError Tables := do
  let retired := book.retireActives view
  let memberships ← retired.claimMemberships view
  let count ← captured
  let activated := ({ retired with memberships } : Tables).markActive view.row.id count
  if activated.stateOf view.row.id ≠ some .active then
    .error (stateConflict "custody component changed before activation")
  else pure (activated.linkReplaced view)

/-- Activates a draft. Its evidence is captured inside the savepoint. -/
def activateComponent (imported : Imported) (book : Tables) (id : String) (validated : Option View)
    (captured : Except BookError Nat) : Outcome :=
  match book.validateComponentActivation imported id validated with
  | .error error => book.raises error
  | .ok view =>
    if view.row.state = .active then { book, result := .ok view }
    else book.savepoint (book.storeActivation view captured) fun stored => stored.shows imported id

def retire (book : Tables) (id : String) : Tables :=
  book.updateRows (fun row => row.id = id ∧ row.state ≠ .superseded) fun row => { row with state := .superseded }

def supersedeComponent (imported : Imported) (book : Tables) (id : String) : Outcome :=
  match book.row id with
  | none => book.raises notFound
  | some row =>
    if row.state = .superseded then book.shows imported id
    else if row.state = .active then
      -- The memberships are rebuilt after the savepoint is released.
      match (book.retire id).reconcileActiveMemberships imported row.profileId with
      | .error error => (book.retire id).raises error
      | .ok reconciled => reconciled.shows imported id
    else (book.retire id).shows imported id

end Tables

inductive Call where
  | create (workspace profile id lineage : String) (content : Except BookError Authored)
  | update (id newId : String) (content : Except BookError Authored)
  | activate (id : String) (validated : Option Tables.View) (captured : Except BookError Nat)
  | supersede (id : String)

def Call.perform (imported : Imported) (book : Tables) : Call → Tables.Outcome
  | .create workspace profile id lineage content => book.createComponent imported workspace profile id lineage content
  | .update id newId content => book.updateComponent imported id newId content
  | .activate id validated captured => book.activateComponent imported id validated captured
  | .supersede id => book.supersedeComponent imported id

namespace Tables

structure Lineages (book : Tables) : Prop where
  oneDraft : ∀ row ∈ book.components, ∀ other ∈ book.components, inLineage row other → row.state = .draft →
    other.state = .draft → row = other
  oneActive : ∀ row ∈ book.components, ∀ other ∈ book.components, inLineage row other → row.state = .active →
    other.state = .active → row = other
  revisions : ∀ row ∈ book.components, ∀ other ∈ book.components, inLineage row other → row.revision = other.revision →
    row = other
  supersedes : ∀ row ∈ book.components, ∀ target, row.supersedes = some target →
    ∃ other ∈ book.components, other.id = target ∧ inLineage row other ∧ other.revision < row.revision
  supersededBy : ∀ row ∈ book.components, ∀ target, row.supersededBy = some target →
    ∃ other ∈ book.components, other.id = target ∧ inLineage row other ∧ row.revision < other.revision

/-- The part of the invariant that does not speak of the links to newer revisions: a draft is the newest revision of its
lineage, and memberships carry the profile of their component. -/
structure Ordered (book : Tables) : Prop where
  wellFormed : book.WellFormed
  newest : ∀ row ∈ book.components, row.state = .draft → ∀ other ∈ book.components, inLineage row other →
    other.revision ≤ row.revision
  oneActive : ∀ row ∈ book.components, ∀ other ∈ book.components, inLineage row other → row.state = .active →
    other.state = .active → row.id = other.id
  revisions : ∀ row ∈ book.components, ∀ other ∈ book.components, inLineage row other → row.revision = other.revision →
    row.id = other.id
  supersedes : ∀ row ∈ book.components, ∀ target, row.supersedes = some target →
    ∃ other ∈ book.components, other.id = target ∧ inLineage row other ∧ other.revision < row.revision
  anchored : ∀ leg ∈ book.legs, leg.transactionId ≠ none → leg.anchorTransactionId = leg.transactionId
  held : ∀ membership ∈ book.memberships, ∃ row ∈ book.components, row.id = membership.componentId ∧
    row.profileId = membership.profileId

structure Kept (book : Tables) : Prop extends Ordered book where
  supersededBy : ∀ row ∈ book.components, ∀ target, row.supersededBy = some target →
    ∃ other ∈ book.components, other.id = target ∧ inLineage row other ∧ row.revision < other.revision

variable {book later stored : Tables} {row other : ComponentRow}

theorem Kept.lineages (kept : book.Kept) : book.Lineages where
  oneDraft row member other otherMember lineage draft otherDraft := by
    have le := kept.newest row member draft other otherMember lineage
    have ge := kept.newest other otherMember otherDraft row member ⟨lineage.1.symm, lineage.2.symm⟩
    exact same_row kept.wellFormed member otherMember
      (kept.revisions row member other otherMember lineage (le_antisymm ge le))
  oneActive row member other otherMember lineage active otherActive :=
    same_row kept.wellFormed member otherMember (kept.oneActive row member other otherMember lineage active otherActive)
  revisions row member other otherMember lineage same :=
    same_row kept.wellFormed member otherMember (kept.revisions row member other otherMember lineage same)
  supersedes := kept.supersedes
  supersededBy := kept.supersededBy

structure SameRevision (row other : ComponentRow) : Prop where
  id : other.id = row.id
  profileId : other.profileId = row.profileId
  lineageId : other.lineageId = row.lineageId
  revision : other.revision = row.revision
  supersedes : other.supersedes = row.supersedes

theorem SameRevision.refl (row : ComponentRow) : SameRevision row row := ⟨rfl, rfl, rfl, rfl, rfl⟩

theorem SameRevision.trans {third : ComponentRow} (first : SameRevision row other)
    (second : SameRevision other third) : SameRevision row third :=
  ⟨second.id.trans first.id, second.profileId.trans first.profileId, second.lineageId.trans first.lineageId,
    second.revision.trans first.revision, second.supersedes.trans first.supersedes⟩

theorem SameRevision.symm (same : SameRevision row other) : SameRevision other row :=
  ⟨same.id.symm, same.profileId.symm, same.lineageId.symm, same.revision.symm, same.supersedes.symm⟩

theorem SameRevision.inLineage {row' other' : ComponentRow} (same : SameRevision row row')
    (same' : SameRevision other other') : Tables.inLineage row' other' ↔ Tables.inLineage row other := by
  unfold Tables.inLineage
  rw [same.profileId, same.lineageId, same'.profileId, same'.lineageId]

def Extends (book later : Tables) : Prop :=
  ∀ row ∈ book.components, ∃ row' ∈ later.components, SameRevision row row' ∧
    (row.state = .superseded → row'.state = .superseded)

theorem Extends.refl (book : Tables) : Extends book book := fun row member => ⟨row, member, .refl row, id⟩

theorem Extends.trans {last : Tables} (first : Extends book later) (second : Extends later last) :
    Extends book last := by
  intro row member
  obtain ⟨row', member', same, stays⟩ := first row member
  obtain ⟨row'', member'', same', stays'⟩ := second row' member'
  exact ⟨row'', member'', same.trans same', stays' ∘ stays⟩

/-- A view of a stored revision, possibly from an earlier state of its row. -/
def Shown (book : Tables) (view : View) : Prop := ∃ row ∈ book.components, SameRevision row view.row

theorem Shown.extends {view : View} (shown : book.Shown view) (extended : Extends book later) :
    later.Shown view := by
  obtain ⟨row, member, same⟩ := shown
  obtain ⟨row', member', same', -⟩ := extended row member
  exact ⟨row', member', same'.symm.trans same⟩

section
variable {book : Tables} {chosen : ComponentRow → Bool} {change : ComponentRow → ComponentRow}

theorem mem_updateRows {row : ComponentRow} :
    row ∈ (book.updateRows chosen change).components ↔
      ∃ old ∈ book.components, (if chosen old then change old else old) = row := mem_map

variable (columns : ∀ row, SameRevision row (change row))
include columns

theorem updated_columns (chosen : ComponentRow → Bool) (row : ComponentRow) : SameRevision row
    (if chosen row then change row else row) := by
  split
  · exact columns row
  · exact .refl row

theorem updateRows_ids :
    (book.updateRows chosen change).components.map ComponentRow.id = book.components.map ComponentRow.id := by
  show (book.components.map _).map ComponentRow.id = _
  rw [map_map]
  exact map_congr_left fun row _ => (updated_columns columns chosen row).id

theorem updateRows_wellFormed (wellFormed : book.WellFormed) : (book.updateRows chosen change).WellFormed where
  componentIds := by
    rw [updateRows_ids columns]
    exact wellFormed.componentIds
  legIds := wellFormed.legIds
  profileNamed := by
    intro row member
    obtain ⟨old, stored, rfl⟩ := mem_updateRows.1 member
    rw [(updated_columns columns chosen old).profileId]
    exact wellFormed.profileNamed old stored
  legScope := by
    intro leg member
    obtain ⟨row, stored, component, profile⟩ := wellFormed.legScope leg member
    have same := updated_columns columns chosen row
    exact ⟨_, mem_updateRows.2 ⟨row, stored, rfl⟩, same.id.trans component, same.profileId.trans profile⟩
  allocationScope := wellFormed.allocationScope

theorem link_updated (ordered : Nat → Nat → Prop) {row other : ComponentRow} (member : other ∈ book.components)
    {target : String}
    (named : other.id = target) (lineage : inLineage row other)
    (order : ordered other.revision row.revision) :
    ∃ other ∈ (book.updateRows chosen change).components, other.id = target ∧
      inLineage (if chosen row then change row else row) other ∧
      ordered other.revision (if chosen row then change row else row).revision := by
  have same := updated_columns columns chosen row
  have same' := updated_columns columns chosen other
  refine ⟨_, mem_updateRows.2 ⟨other, member, rfl⟩, same'.id.trans named, (same.inLineage same').2 lineage, ?_⟩
  rw [same.revision, same'.revision]
  exact order

theorem updateRows_ordered (ordered : book.Ordered)
    (drafts : ∀ row ∈ book.components, chosen row = true → (change row).state ≠ .draft)
    (actives : ∀ row ∈ book.components, ∀ other ∈ book.components, chosen row = true → (change row).state = .active →
      inLineage row other → other.state = .active ∨ chosen other = true → row.id = other.id) :
    (book.updateRows chosen change).Ordered where
  wellFormed := updateRows_wellFormed columns ordered.wellFormed
  newest := by
    intro row member draft other otherMember lineage
    obtain ⟨old, stored, rfl⟩ := mem_updateRows.1 member
    obtain ⟨old', stored', rfl⟩ := mem_updateRows.1 otherMember
    have same := updated_columns columns chosen old
    have same' := updated_columns columns chosen old'
    rw [same.revision, same'.revision]
    refine ordered.newest old stored ?_ old' stored' ((same.inLineage same').1 lineage)
    by_cases picked : chosen old = true
    · rw [if_pos picked] at draft
      exact absurd draft (drafts old stored picked)
    · rwa [if_neg picked] at draft
  oneActive := by
    intro row member other otherMember lineage active otherActive
    obtain ⟨old, stored, rfl⟩ := mem_updateRows.1 member
    obtain ⟨old', stored', rfl⟩ := mem_updateRows.1 otherMember
    have same := updated_columns columns chosen old
    have same' := updated_columns columns chosen old'
    rw [same.id, same'.id]
    have lineage' := (same.inLineage same').1 lineage
    by_cases picked : chosen old = true
    · rw [if_pos picked] at active
      refine actives old stored old' stored' picked active lineage' ?_
      by_cases picked' : chosen old' = true
      · exact .inr picked'
      · rw [if_neg picked'] at otherActive
        exact .inl otherActive
    · rw [if_neg picked] at active
      by_cases picked' : chosen old' = true
      · rw [if_pos picked'] at otherActive
        exact (actives old' stored' old stored picked' otherActive ⟨lineage'.1.symm, lineage'.2.symm⟩ (.inl active)).symm
      · rw [if_neg picked'] at otherActive
        exact ordered.oneActive old stored old' stored' lineage' active otherActive
  revisions := by
    intro row member other otherMember lineage revision
    obtain ⟨old, stored, rfl⟩ := mem_updateRows.1 member
    obtain ⟨old', stored', rfl⟩ := mem_updateRows.1 otherMember
    have same := updated_columns columns chosen old
    have same' := updated_columns columns chosen old'
    rw [same.revision, same'.revision] at revision
    rw [same.id, same'.id]
    exact ordered.revisions old stored old' stored' ((same.inLineage same').1 lineage) revision
  supersedes := by
    intro row member target linked
    obtain ⟨old, stored, rfl⟩ := mem_updateRows.1 member
    rw [(updated_columns columns chosen old).supersedes] at linked
    obtain ⟨other, otherMember, named, lineage, lower⟩ := ordered.supersedes old stored target linked
    exact link_updated columns (fun left right => left < right) otherMember named lineage lower
  anchored := ordered.anchored
  held := by
    intro membership member
    obtain ⟨row, stored, component, profile⟩ := ordered.held membership (mem_of_mem_filter member)
    have same := updated_columns columns chosen row
    exact ⟨_, mem_updateRows.2 ⟨row, stored, rfl⟩, same.id.trans component, same.profileId.trans profile⟩

theorem updateRows_extends (stays : ∀ row ∈ book.components, chosen row = true → row.state = .superseded →
    (change row).state = .superseded) : Extends book (book.updateRows chosen change) := by
  intro row member
  refine ⟨_, mem_updateRows.2 ⟨row, member, rfl⟩, updated_columns columns chosen row, fun superseded => ?_⟩
  split
  · rename_i picked
    exact stays row member picked superseded
  · exact superseded

theorem updateRows_kept (kept : book.Kept)
    (drafts : ∀ row ∈ book.components, chosen row = true → (change row).state ≠ .draft)
    (actives : ∀ row ∈ book.components, ∀ other ∈ book.components, chosen row = true → (change row).state = .active →
      inLineage row other → other.state = .active ∨ chosen other = true → row.id = other.id)
    (links : ∀ row ∈ book.components, chosen row = true → ∀ target, (change row).supersededBy = some target →
      ∃ other ∈ book.components, other.id = target ∧ inLineage row other ∧ row.revision < other.revision) :
    (book.updateRows chosen change).Kept where
  toOrdered := updateRows_ordered columns kept.toOrdered drafts actives
  supersededBy := by
    intro row member target linked
    obtain ⟨old, stored, rfl⟩ := mem_updateRows.1 member
    have found : ∃ other ∈ book.components, other.id = target ∧ inLineage old other ∧ old.revision < other.revision := by
      by_cases picked : chosen old = true
      · rw [if_pos picked] at linked
        exact links old stored picked target linked
      · rw [if_neg picked] at linked
        exact kept.supersededBy old stored target linked
    obtain ⟨other, otherMember, named, lineage, higher⟩ := found
    exact link_updated columns (fun left right => right < left) otherMember named lineage higher

end

variable {content : Authored}

theorem mem_authored {leg : Leg} :
    leg ∈ content.legsOf row ↔
      ∃ own ∈ content.legs, { own with componentId := row.id, profileId := row.profileId } = leg := mem_map

theorem insertRevision_ok (run : book.insertRevision row content = .ok stored) :
    stored = { book with
      components := book.components ++ [row]
      legs := book.legs ++ content.legsOf row
      allocations := book.allocations ++ content.allocationsOf row
      terms := book.terms ++ content.termsOf row } ∧
    row.id ∉ book.components.map ComponentRow.id ∧ FreshKeys Leg.id book.legs (content.legsOf row) ∧
    ∀ allocation ∈ content.allocations,
      edgeInside (book.legs ++ content.legsOf row) row.id allocation.sourceLegId allocation.sinkLegId := by
  unfold insertRevision at run
  dsimp only at run
  split at run
  · cases run
  rename_i fresh
  split at run
  · cases run
  rename_i freshLegs
  split at run
  · cases run
  split at run
  · cases run
  rename_i inside
  split at run
  · cases run
  split at run
  · cases run
  cases run
  refine ⟨rfl, fresh, not_not.1 freshLegs, fun allocation member => ?_⟩
  by_contra outside
  exact inside ⟨allocation, member, outside⟩

theorem insertRevision_wellFormed
    (run : book.insertRevision row content = .ok stored) (wellFormed : book.WellFormed) (profile : row.profileId ≠ "") :
    stored.WellFormed := by
  obtain ⟨rfl, fresh, freshLegs, inside⟩ := insertRevision_ok run
  exact {
    componentIds := by
      show ((book.components ++ [row]).map ComponentRow.id).Nodup
      rw [map_append, nodup_append]
      refine ⟨wellFormed.componentIds, nodup_singleton _, ?_⟩
      intro id stored other added same
      rw [map_singleton, mem_singleton] at added
      exact fresh (added ▸ same ▸ stored)
    legIds := by
      show ((book.legs ++ content.legsOf row).map Leg.id).Nodup
      rw [map_append, nodup_append]
      refine ⟨wellFormed.legIds, freshLegs.1, ?_⟩
      intro id stored other added same
      obtain ⟨leg, member, rfl⟩ := mem_map.1 added
      exact freshLegs.2 leg member (same ▸ stored)
    profileNamed := by
      intro other member
      rcases mem_append.1 member with old | new
      · exact wellFormed.profileNamed other old
      · rw [mem_singleton.1 new]
        exact profile
    legScope := by
      intro leg member
      rcases mem_append.1 member with old | new
      · obtain ⟨other, stored, component, owner⟩ := wellFormed.legScope leg old
        exact ⟨other, mem_append_left _ stored, component, owner⟩
      · obtain ⟨own, -, rfl⟩ := mem_authored.1 new
        exact ⟨row, mem_append_right _ (mem_singleton_self row), rfl, rfl⟩
    allocationScope := by
      intro allocation member
      rcases mem_append.1 member with old | new
      · obtain ⟨leg, stored, named, component⟩ := wellFormed.allocationScope allocation old
        exact ⟨leg, mem_append_left _ stored, named, component⟩
      · obtain ⟨own, listed, rfl⟩ := mem_map.1 new
        obtain ⟨⟨leg, legMember, named, component, -⟩, -⟩ := inside own listed
        exact ⟨leg, legMember, named, component⟩ }

theorem insertRevision_extends (run : book.insertRevision row content = .ok stored) : Extends book stored := by
  obtain ⟨rfl, -⟩ := insertRevision_ok run
  exact fun old member => ⟨old, mem_append_left _ member, .refl old, id⟩

theorem insertRevision_ordered
    (run : book.insertRevision row content = .ok stored) (ordered : book.Ordered) (profile : row.profileId ≠ "")
    (draft : row.state = .draft)
    (above : ∀ other ∈ book.components, inLineage row other → other.revision < row.revision ∧ other.state ≠ .draft)
    (supersedes : ∀ target, row.supersedes = some target →
      ∃ other ∈ book.components, other.id = target ∧ inLineage row other ∧ other.revision < row.revision) :
    stored.Ordered := by
  have wellFormed := insertRevision_wellFormed run ordered.wellFormed profile
  obtain ⟨rfl, fresh, -⟩ := insertRevision_ok run
  have turn : ∀ {left right : ComponentRow}, inLineage left right → inLineage right left :=
    fun lineage => ⟨lineage.1.symm, lineage.2.symm⟩
  exact {
    wellFormed
    newest := by
      intro left member isDraft right otherMember lineage
      rcases mem_append.1 member with old | new <;> rcases mem_append.1 otherMember with old' | new'
      · exact ordered.newest left old isDraft right old' lineage
      · rw [mem_singleton.1 new'] at lineage
        exact absurd isDraft (above left old (turn lineage)).2
      · rw [mem_singleton.1 new] at lineage ⊢
        exact (above right old' lineage).1.le
      · rw [mem_singleton.1 new, mem_singleton.1 new']
    oneActive := by
      intro left member right otherMember lineage active active'
      rcases mem_append.1 member with old | new
      · rcases mem_append.1 otherMember with old' | new'
        · exact ordered.oneActive left old right old' lineage active active'
        · rw [mem_singleton.1 new', draft] at active'
          cases active'
      · rw [mem_singleton.1 new, draft] at active
        cases active
    revisions := by
      intro left member right otherMember lineage revision
      rcases mem_append.1 member with old | new <;> rcases mem_append.1 otherMember with old' | new'
      · exact ordered.revisions left old right old' lineage revision
      · rw [mem_singleton.1 new'] at lineage revision
        exact absurd revision (above left old (turn lineage)).1.ne
      · rw [mem_singleton.1 new] at lineage revision
        exact absurd revision.symm (above right old' lineage).1.ne
      · rw [mem_singleton.1 new, mem_singleton.1 new']
    supersedes := by
      intro left member target linked
      have found : ∃ other ∈ book.components, other.id = target ∧ inLineage left other ∧ other.revision < left.revision := by
        rcases mem_append.1 member with old | new
        · exact ordered.supersedes left old target linked
        · rw [mem_singleton.1 new] at linked ⊢
          exact supersedes target linked
      obtain ⟨other, otherMember, rest⟩ := found
      exact ⟨other, mem_append_left _ otherMember, rest⟩
    anchored := by
      intro leg member live
      rcases mem_append.1 member with old | new
      · exact ordered.anchored leg old live
      · obtain ⟨own, listed, rfl⟩ := mem_authored.1 new
        exact content.anchored own listed live
    held := by
      intro membership member
      obtain ⟨other, otherMember, rest⟩ := ordered.held membership member
      exact ⟨other, mem_append_left _ otherMember, rest⟩ }

def Preserves (book later : Tables) : Prop := later.Kept ∧ Extends book later

theorem preserves_same (kept : book.Kept) : Preserves book book := ⟨kept, .refl book⟩

theorem row_some {id : String} (found : book.row id = some row) :
    row ∈ book.components ∧ row.id = id := by
  unfold Tables.row at found
  have matched := find?_some found
  exact ⟨mem_of_find?_eq_some found, by simpa using matched⟩

theorem savepoint_book {body : Except BookError Tables} {rest : Tables → Outcome} {p : Tables → Prop}
    (start : p book) (done : ∀ stored, body = .ok stored → p (rest stored).book) : p (book.savepoint body rest).book := by
  unfold savepoint
  cases run : body with
  | error error => exact start
  | ok stored => exact done stored run

theorem le_latestRevision (member : other ∈ book.components) (lineage : inLineage row other) :
    other.revision ≤ book.latestRevision row := by
  have bound : ∀ (revisions : List Nat) (revision : Nat), revision ∈ revisions → revision ≤ revisions.foldr max 0 := by
    intro revisions
    induction revisions with
    | nil => intro revision listed; cases listed
    | cons first rest ih =>
      intro revision listed
      rw [foldr_cons]
      rcases mem_cons.1 listed with rfl | later
      · exact le_max_left _ _
      · exact (ih revision later).trans (le_max_right _ _)
  exact bound _ _ (mem_map_of_mem (mem_filter.2 ⟨member, decide_eq_true lineage⟩))

section
variable {book : Tables} (kept : book.Kept) (imported : Imported)
include kept

theorem create_preserves (workspace profile id lineage : String) (content : Except BookError Authored) :
    Preserves book (book.createComponent imported workspace profile id lineage content).book := by
  have same := preserves_same kept
  unfold createComponent
  split
  · exact same
  rename_i named
  cases content with
  | error error => exact same
  | ok content =>
    dsimp only
    split
    · exact same
    rename_i absent
    refine savepoint_book (p := Preserves book) same fun stored run => ?_
    have ordered := insertRevision_ordered run kept.toOrdered named rfl
      (fun other member lineage => absurd ⟨other, member, lineage⟩ absent) (fun target linked => by cases linked)
    refine ⟨⟨ordered, ?_⟩, insertRevision_extends run⟩
    obtain ⟨rfl, -⟩ := insertRevision_ok run
    intro row member target linked
    rcases mem_append.1 member with old | new
    · obtain ⟨other, otherMember, rest⟩ := kept.supersededBy row old target linked
      exact ⟨other, mem_append_left _ otherMember, rest⟩
    · rw [mem_singleton.1 new] at linked
      cases linked

theorem retireDraft_spec {old : ComponentRow} (member : old ∈ book.components)
    (alone : ¬ ∃ row ∈ book.components, inLineage old row ∧ row.state = .draft ∧ row.id ≠ old.id) (newId : String) :
    (book.retireDraft old newId).Ordered ∧ Extends book (book.retireDraft old newId) ∧
      ∀ row ∈ (book.retireDraft old newId).components, (inLineage old row → row.state ≠ .draft) ∧
        ∃ source ∈ book.components, SameRevision source row ∧
          (row.supersededBy = source.supersededBy ∨ (row.supersededBy = some newId ∧ source = old)) := by
  have only : ∀ row ∈ book.components, inLineage old row → row.state = .draft → row = old := by
    intro row stored lineage draft
    by_contra different
    exact alone ⟨row, stored, lineage, draft, fun same => different (same_row kept.wellFormed stored member same)⟩
  unfold retireDraft
  by_cases draft : old.state = .draft
  · rw [if_pos draft]
    have columns : ∀ row : ComponentRow,
        SameRevision row { row with state := .superseded, supersededBy := some newId } := fun row => ⟨rfl, rfl, rfl, rfl, rfl⟩
    refine ⟨updateRows_ordered columns kept.toOrdered (fun _ _ _ => by simp) (fun _ _ _ _ _ active => by cases active),
      updateRows_extends columns (fun _ _ _ _ => rfl), ?_⟩
    intro row listed
    obtain ⟨source, stored, rfl⟩ := mem_updateRows.1 listed
    have same := updated_columns columns (fun row => decide (row.id = old.id ∧ row.state = .draft)) source
    refine ⟨fun lineage isDraft => ?_, source, stored, same, ?_⟩
    · split at isDraft
      · cases isDraft
      · rename_i kept
        have isOld := only source stored ⟨lineage.1.symm ▸ same.profileId.symm, lineage.2.symm ▸ same.lineageId.symm⟩ isDraft
        exact kept (decide_eq_true ⟨by rw [isOld], isDraft⟩)
    · split
      · rename_i picked
        obtain ⟨named, -⟩ := of_decide_eq_true picked
        exact .inr ⟨rfl, same_row kept.wellFormed stored member named⟩
      · exact .inl rfl
  · rw [if_neg draft]
    refine ⟨kept.toOrdered, .refl book, fun row stored => ⟨fun lineage isDraft => ?_, row, stored, .refl row, .inl rfl⟩⟩
    exact draft (only row stored lineage isDraft ▸ isDraft)

theorem update_preserves (id newId : String) (content : Except BookError Authored) :
    Preserves book (book.updateComponent imported id newId content).book := by
  have same := preserves_same kept
  unfold updateComponent
  cases found : book.row id with
  | none => exact same
  | some old =>
    dsimp only
    obtain ⟨member, rfl⟩ := row_some found
    split
    · exact same
    rename_i alone
    cases content with
    | error error => exact same
    | ok content =>
      dsimp only
      refine savepoint_book (p := Preserves book) same fun stored run => ?_
      obtain ⟨ordered, extended, rows⟩ := retireDraft_spec kept member alone newId
      obtain ⟨old', member', sameOld, -⟩ := extended old member
      have next : ∀ source ∈ book.components, inLineage old source → source.revision < book.latestRevision old + 1 :=
        fun source stored lineage => Nat.lt_succ_of_le (le_latestRevision stored lineage)
      have ordered' := insertRevision_ordered run ordered (kept.wellFormed.profileNamed old member) rfl
        (by
          intro row listed lineage
          obtain ⟨noDraft, source, stored, sameRow, -⟩ := rows row listed
          refine ⟨?_, noDraft lineage⟩
          rw [sameRow.revision]
          exact next source stored ⟨sameRow.profileId.symm.trans lineage.1, sameRow.lineageId.symm.trans lineage.2⟩)
        (by
          intro target linked
          cases linked
          refine ⟨old', member', sameOld.id, ⟨sameOld.profileId, sameOld.lineageId⟩, ?_⟩
          rw [sameOld.revision]
          exact next old member ⟨rfl, rfl⟩)
      refine ⟨⟨ordered', ?_⟩, extended.trans (insertRevision_extends run)⟩
      obtain ⟨rfl, -⟩ := insertRevision_ok run
      intro row listed target linked
      rcases mem_append.1 listed with earlier | new
      · obtain ⟨-, source, stored, sameRow, kind⟩ := rows row earlier
        rcases kind with inherited | ⟨named, rfl⟩
        · -- Links that were there before still lead to a row of the lineage.
          obtain ⟨other, otherMember, named, lineage, higher⟩ := kept.supersededBy source stored target (inherited ▸ linked)
          obtain ⟨other', otherMember', sameOther, -⟩ := extended other otherMember
          refine ⟨other', mem_append_left _ otherMember', sameOther.id.trans named,
            (sameRow.inLineage sameOther).2 lineage, ?_⟩
          rw [sameRow.revision, sameOther.revision]
          exact higher
        · rw [named] at linked
          cases linked
          refine ⟨_, mem_append_right _ (mem_singleton_self _), rfl,
            ⟨sameRow.profileId.symm, sameRow.lineageId.symm⟩, ?_⟩
          rw [sameRow.revision]
          exact next source stored ⟨rfl, rfl⟩
      · rw [mem_singleton.1 new] at linked
        cases linked

structure Ready (book : Tables) (view : View) (row : ComponentRow) : Prop where
  member : row ∈ book.components
  same : SameRevision row view.row
  state : row.state = view.row.state
  current : view.row.state ≠ .superseded

variable {view : View}

omit kept in
theorem Ready.draft {row : ComponentRow} (ready : book.Ready view row) (inactive : view.row.state ≠ .active) :
    row.state = .draft := by
  rw [ready.state]
  have current := ready.current
  cases state : view.row.state with
  | draft => rfl
  | active => exact absurd state inactive
  | superseded => exact absurd state current

omit kept in
theorem judgeActivation_ok {accepted : View} (run : book.judgeActivation view = .ok accepted) :
    accepted = view ∧ view.row.state ≠ .superseded := by
  unfold judgeActivation at run
  split at run
  · cases run
  rename_i current
  split at run
  · cases run
    exact ⟨rfl, current⟩
  · cases run

theorem validateActivation_ready {id : String} {validated : Option View}
    (shown : ∀ earlier, validated = some earlier → book.Shown earlier)
    (run : book.validateComponentActivation imported id validated = .ok view) :
    view.row.id = id ∧ ∃ row, book.Ready view row := by
  unfold validateComponentActivation at run
  cases validated with
  | none =>
    obtain ⟨read, got, judged⟩ := bind_ok.1 run
    obtain ⟨rfl, current⟩ := judgeActivation_ok judged
    unfold getComponent at got
    cases found : book.row id with
    | none =>
      rw [found] at got
      cases got
    | some row =>
      rw [found] at got
      obtain ⟨member, rfl⟩ := row_some found
      have sameRow := (materialize_parts imported got).1
      exact ⟨by rw [sameRow], row, member, sameRow ▸ .refl row, by rw [sameRow], current⟩
  | some earlier =>
    dsimp only at run
    split at run
    · cases run
    rename_i named
    have named := not_not.1 named
    cases found : book.row id with
    | none =>
      rw [found] at run
      cases run
    | some current =>
      rw [found] at run
      dsimp only at run
      split at run
      · cases run
      rename_i unchanged
      obtain ⟨rfl, notSuperseded⟩ := judgeActivation_ok run
      obtain ⟨member, currentId⟩ := row_some found
      obtain ⟨row, rowMember, same⟩ := shown view rfl
      obtain rfl := same_row kept.wellFormed member rowMember (currentId.trans (named.symm.trans same.id))
      refine ⟨named, current, member, same, ?_, notSuperseded⟩
      by_contra different
      exact unchanged (.inl different)

section
variable {view : View} {row : ComponentRow} (ready : book.Ready view row) (draft : row.state = .draft)
include ready draft

theorem draft_above {other : ComponentRow} (stored : other ∈ book.components) (lineage : inLineage row other)
    (different : other.id ≠ row.id) : other.revision < row.revision := by
  refine lt_of_le_of_ne (kept.newest row ready.member draft other stored lineage) fun same => different ?_
  exact (kept.revisions row ready.member other stored lineage same.symm).symm

theorem retireActives_preserves :
    Preserves book (book.retireActives view) ∧
      (∀ other ∈ (book.retireActives view).components, inLineage row other → other.state = .active → other.id = row.id) ∧
      row ∈ (book.retireActives view).components := by
  have columns : ∀ old : ComponentRow,
      SameRevision old { old with state := .superseded, supersededBy := some view.row.id } :=
    fun old => ⟨rfl, rfl, rfl, rfl, rfl⟩
  refine ⟨⟨updateRows_kept columns kept (fun _ _ _ => by simp) (fun _ _ _ _ _ active => by cases active) ?_,
    updateRows_extends columns (fun _ _ _ _ => rfl)⟩, ?_, ?_⟩
  · intro old stored picked target linked
    cases linked
    obtain ⟨lineage, -, different⟩ := of_decide_eq_true picked
    have lineage' : inLineage row old := ⟨lineage.1.trans ready.same.profileId, lineage.2.trans ready.same.lineageId⟩
    refine ⟨row, ready.member, ready.same.id.symm, ⟨lineage'.1.symm, lineage'.2.symm⟩, ?_⟩
    exact draft_above kept ready draft stored lineage' (ready.same.id ▸ different)
  · intro other listed lineage active
    obtain ⟨old, stored, rfl⟩ := mem_updateRows.1 listed
    have same := updated_columns columns
      (fun row => decide (inLineage view.row row ∧ row.state = .active ∧ row.id ≠ view.row.id)) old
    rw [same.id]
    split at active
    · cases active
    · rename_i spared
      by_contra different
      refine spared (decide_eq_true ⟨?_, active, ready.same.id.symm ▸ different⟩)
      exact ⟨same.profileId.symm.trans (lineage.1.trans ready.same.profileId.symm),
        same.lineageId.symm.trans (lineage.2.trans ready.same.lineageId.symm)⟩
  · refine mem_updateRows.2 ⟨row, ready.member, if_neg ?_⟩
    intro picked
    exact (of_decide_eq_true picked).2.2 ready.same.id.symm

end

theorem kept_memberships {memberships : List Membership}
    (held : ∀ membership ∈ memberships, membership ∈ book.memberships ∨ ∃ row ∈ book.components,
      row.id = membership.componentId ∧ row.profileId = membership.profileId) :
    Preserves book { book with memberships } := by
  refine ⟨⟨⟨⟨kept.wellFormed.componentIds, kept.wellFormed.legIds, kept.wellFormed.profileNamed, kept.wellFormed.legScope,
    kept.wellFormed.allocationScope⟩, kept.newest, kept.oneActive, kept.revisions, kept.supersedes, kept.anchored, ?_⟩,
    kept.supersededBy⟩, Extends.refl book⟩
  intro membership member
  rcases held membership member with old | new
  · exact kept.held membership old
  · exact new

theorem markActive_preserves {row : ComponentRow} (stored : row ∈ book.components)
    (sole : ∀ other ∈ book.components, inLineage row other → other.state = .active → other.id = row.id) (count : Nat) :
    Preserves book (book.markActive row.id count) := by
  have columns : ∀ old : ComponentRow,
      SameRevision old { old with state := .active, supersededBy := none, expectedEvidenceCount := some count } :=
    fun old => ⟨rfl, rfl, rfl, rfl, rfl⟩
  refine ⟨updateRows_kept columns kept (fun _ _ _ => by simp) ?_ (fun _ _ _ _ linked => by cases linked),
    updateRows_extends columns ?_⟩
  · intro old oldStored other otherStored picked _ lineage either
    obtain ⟨named, -⟩ := of_decide_eq_true picked
    obtain rfl := same_row kept.wellFormed oldStored stored named
    rcases either with active | chosen
    · exact (sole other otherStored lineage active).symm
    · exact (of_decide_eq_true chosen).1.symm
  · intro old _ picked superseded
    rw [(of_decide_eq_true picked).2] at superseded
    cases superseded

theorem linkReplaced_preserves {row : ComponentRow} (stored : row ∈ book.components)
    (same : SameRevision row view.row) : Preserves book (book.linkReplaced view) := by
  have columns : ∀ old : ComponentRow, SameRevision old { old with supersededBy := some view.row.id } :=
    fun old => ⟨rfl, rfl, rfl, rfl, rfl⟩
  refine ⟨updateRows_kept columns kept ?_ ?_ ?_, updateRows_extends columns (fun _ _ _ superseded => superseded)⟩
  · intro old _ picked draft
    rw [show old.state = .superseded from (of_decide_eq_true picked).2] at draft
    cases draft
  · intro old _ other _ picked active
    rw [show old.state = .superseded from (of_decide_eq_true picked).2] at active
    cases active
  · intro old oldStored picked target linked
    cases linked
    obtain ⟨replaced, -⟩ := of_decide_eq_true picked
    obtain ⟨other, otherStored, named, lineage, lower⟩ := kept.supersedes row stored old.id (same.supersedes ▸ replaced)
    obtain rfl := same_row kept.wellFormed otherStored oldStored named
    exact ⟨row, stored, same.id.symm, ⟨lineage.1.symm, lineage.2.symm⟩, lower⟩

theorem storeActivation_preserves {row : ComponentRow} (ready : book.Ready view row)
    (draft : row.state = .draft) {captured : Except BookError Nat} {stored : Tables}
    (run : book.storeActivation view captured = .ok stored) : Preserves book stored := by
  obtain ⟨⟨retiredKept, extended⟩, sole, member⟩ := retireActives_preserves kept ready draft
  unfold storeActivation at run
  obtain ⟨memberships, inserted, run⟩ := bind_ok.1 run
  obtain ⟨count, -, run⟩ := bind_ok.1 run
  dsimp only at run
  split at run
  · cases run
  cases run
  have exchanged : Preserves (book.retireActives view) { book.retireActives view with memberships } := by
    refine kept_memberships retiredKept fun membership listed => ?_
    unfold claimMemberships at inserted
    split at inserted
    · cases inserted
    · rename_i result all
      cases inserted
      obtain ⟨rfl, -⟩ := insertAll_ok.1 all
      rcases mem_append.1 listed with old | new
      · exact .inl (mem_of_mem_filter (mem_of_mem_filter old))
      · obtain ⟨component, profile, -⟩ := mem_membershipsOf.1 new
        exact .inr ⟨row, member, ready.same.id.symm.trans component.symm, ready.same.profileId.symm.trans profile.symm⟩
  obtain ⟨exchangedKept, extended'⟩ := exchanged
  have marked := markActive_preserves exchangedKept member sole count
  rw [← ready.same.id] at marked
  obtain ⟨row', member', same, -⟩ := (extended.trans (extended'.trans marked.2)) row ready.member
  have linked := linkReplaced_preserves marked.1 member' (same.symm.trans ready.same)
  exact ⟨linked.1, extended.trans (extended'.trans (marked.2.trans linked.2))⟩

theorem activate_preserves (id : String) (validated : Option View)
    (shown : ∀ earlier, validated = some earlier → book.Shown earlier) (captured : Except BookError Nat) :
    Preserves book (book.activateComponent imported id validated captured).book := by
  have same := preserves_same kept
  unfold activateComponent
  cases run : book.validateComponentActivation imported id validated with
  | error error => exact same
  | ok view =>
    dsimp only
    split
    · exact same
    rename_i inactive
    obtain ⟨-, row, ready⟩ := validateActivation_ready kept imported shown run
    exact savepoint_book (p := Preserves book) same fun stored run =>
      storeActivation_preserves kept ready (ready.draft inactive) run

theorem retire_preserves (id : String) : Preserves book (book.retire id) := by
  have columns : ∀ old : ComponentRow, SameRevision old { old with state := .superseded } :=
    fun old => ⟨rfl, rfl, rfl, rfl, rfl⟩
  refine ⟨updateRows_kept columns kept (fun _ _ _ => by simp) (fun _ _ _ _ _ active => by cases active) ?_,
    updateRows_extends columns (fun _ _ _ _ => rfl)⟩
  exact fun old stored _ target linked => kept.supersededBy old stored target linked

theorem reconcile_preserves {profile : String} {rebuilt : Tables}
    (run : book.reconcileActiveMemberships imported profile = .ok rebuilt) : Preserves book rebuilt := by
  obtain ⟨views, read, rfl, -⟩ := (reconcile_ok imported).1 run
  refine kept_memberships kept fun membership listed => ?_
  rcases mem_append.1 listed with old | new
  · exact .inl (mem_of_mem_filter old)
  · obtain ⟨view, viewMember, own⟩ := mem_flatMap.1 new
    obtain ⟨component, owner, -⟩ := mem_membershipsOf.1 own
    obtain ⟨routes, -, made, -⟩ := iter_views imported kept.wellFormed read
    obtain ⟨stored, profile, -⟩ := mem_activeRows.1 (made view (mem_effectiveViews.1 viewMember).1).1
    exact .inr ⟨view.row, stored, component.symm, profile.trans owner.symm⟩

theorem supersede_preserves (id : String) : Preserves book (book.supersedeComponent imported id).book := by
  have retired := retire_preserves kept id
  unfold supersedeComponent
  split
  · exact preserves_same kept
  rename_i row found
  split
  · exact preserves_same kept
  split
  · split
    · exact retired
    · rename_i rebuilt run
      have rebuiltKept := reconcile_preserves retired.1 imported run
      exact ⟨rebuiltKept.1, retired.2.trans rebuiltKept.2⟩
  · exact retired

end

end Tables

def Call.Given (seen : List Tables.View) : Call → Prop
  | .activate _ (some view) _ => view ∈ seen
  | _ => True

/-- A state of the book with the views read so far. A view is read at any time and a call is made at any time, each
against the imported rows of its moment. -/
inductive Step : Tables × List Tables.View → Tables × List Tables.View → Prop where
  | read (imported : Imported) {book : Tables} {seen : List Tables.View} {id : String} {view : Tables.View}
      (got : book.getComponent imported id = .ok view) : Step (book, seen) (book, view :: seen)
  | call (imported : Imported) {book later : Tables} {seen : List Tables.View} (call : Call) (given : call.Given seen)
      (made : (call.perform imported book).book = later) : Step (book, seen) (later, seen)

def Run : Tables × List Tables.View → Tables × List Tables.View → Prop := Relation.ReflTransGen Step

namespace Tables

def empty : Tables := { components := [], legs := [], allocations := [], terms := [], memberships := [] }

theorem empty_kept : empty.Kept where
  wellFormed :=
    { componentIds := nodup_nil
      legIds := nodup_nil
      profileNamed := fun _ member => by cases member
      legScope := fun _ member => by cases member
      allocationScope := fun _ member => by cases member }
  newest _ member := by cases member
  oneActive _ member := by cases member
  revisions _ member := by cases member
  supersedes _ member := by cases member
  anchored _ member := by cases member
  held _ member := by cases member
  supersededBy _ member := by cases member

theorem perform_preserves {book : Tables} (kept : book.Kept) (imported : Imported) {seen : List View}
    (shown : ∀ view ∈ seen, book.Shown view) (call : Call) (given : call.Given seen) :
    Preserves book (call.perform imported book).book := by
  cases call with
  | create workspace profile id lineage content => exact create_preserves kept imported workspace profile id lineage content
  | update id newId content => exact update_preserves kept imported id newId content
  | activate id validated captured =>
    refine activate_preserves kept imported id validated (fun earlier some => ?_) captured
    subst some
    exact shown earlier given
  | supersede id => exact supersede_preserves kept imported id

variable {before after : Tables × List View}

theorem step_keeps (step : Step before after) (kept : before.1.Kept)
    (shown : ∀ view ∈ before.2, before.1.Shown view) :
    Preserves before.1 after.1 ∧ ∀ view ∈ after.2, after.1.Shown view := by
  cases step with
  | read imported got =>
    rename_i book seen id view
    refine ⟨preserves_same kept, fun other listed => ?_⟩
    rcases mem_cons.1 listed with rfl | earlier
    · unfold getComponent at got
      cases found : book.row id with
      | none =>
        rw [found] at got
        cases got
      | some row =>
        rw [found] at got
        exact ⟨row, (row_some found).1, (materialize_parts imported got).1 ▸ .refl row⟩
    · exact shown other earlier
  | call imported call given made =>
    subst made
    have preserved := perform_preserves kept imported shown call given
    exact ⟨preserved, fun view listed => (shown view listed).extends preserved.2⟩

theorem run_keeps (run : Run before after) (kept : before.1.Kept)
    (shown : ∀ view ∈ before.2, before.1.Shown view) :
    Preserves before.1 after.1 ∧ ∀ view ∈ after.2, after.1.Shown view := by
  induction run with
  | refl => exact ⟨preserves_same kept, shown⟩
  | tail _ step ih =>
    obtain ⟨⟨kept', extended⟩, shown'⟩ := ih
    obtain ⟨⟨kept'', extended'⟩, shown''⟩ := step_keeps step kept' shown'
    exact ⟨⟨kept'', extended.trans extended'⟩, shown''⟩

end Tables

def Early (clock : String → Option Int) (legs : List Leg) : Prop :=
  ∀ leg ∈ legs, ∀ moment, leg.moment clock = some moment → moment + chronologySkewTolerance ≤ latestMoment

theorem Early.sub {clock : String → Option Int} {legs some : List Leg} (early : Early clock legs)
    (sub : ∀ leg ∈ some, leg ∈ legs) : Early clock some :=
  fun leg member => early leg (sub leg member)

theorem inferred_sink {sources sinks : List Leg} {mode : ConservationMode} {pair : Leg × Leg}
    (member : pair ∈ inferredAllocationLegPairs sources sinks mode) : pair.2 ∈ sinks := by
  cases mode with
  | quantity =>
    rcases (mem_inferred.1 member).2 with ⟨-, own⟩ | ⟨-, -, -, own⟩
    · exact own
    · exact mem_of_mem_filter own
  | conversion =>
    simp only [inferredAllocationLegPairs] at member
    split at member
    · rw [mem_singleton.1 member]
      exact mem_singleton_self _
    · cases member

theorem edge_sink {legs : List Leg} {allocations : List Allocation} {mode : ConservationMode} {edge : ValueEdge}
    (member : edge ∈ allocationPairs legs allocations mode) : edge.sink ∈ legs := by
  unfold allocationPairs at member
  split at member
  · obtain ⟨allocation, -, made⟩ := mem_filterMap.1 member
    unfold Allocation.edge at made
    split at made
    · rename_i source sink _ found
      cases made
      exact legNamed_mem found
    · cases made
  · obtain ⟨pair, listed, rfl⟩ := mem_map.1 member
    exact mem_of_mem_filter (inferred_sink listed)

section
variable {clock : String → Option Int} {legs : List Leg} (early : Early clock legs)
include early

theorem chronology_total (allocations : List Allocation) (mode : ConservationMode) :
    ∃ issues, allocationChronologyIssues clock legs allocations mode = .ok issues := by
  refine (chronology_ok_iff clock).2 fun edge member late => ?_
  obtain ⟨-, -, moment, timed, beyond⟩ := late
  exact absurd beyond (not_lt.2 (early edge.sink (edge_sink member) moment timed))

theorem early_fits : ¬ Jams clock legs := by
  rintro ⟨⟨-, -, -, known⟩, leg, source, -, late⟩
  obtain ⟨moment, timed⟩ := Option.ne_none_iff_exists'.1 (known leg source)
  have bound := early leg (mem_of_mem_filter source) moment timed
  unfold Leg.known at late
  rw [timed, Option.getD_some] at late
  omega

theorem continuity_total : ∃ issues, locationContinuityIssues clock legs = .ok issues := by
  refine (locationContinuity_ok_iff clock).2 fun place => early_fits (early.sub fun leg member => ?_)
  exact mem_of_mem_filter (mem_of_mem_filter member)

end

namespace Tables

/-- Neither the stored time of a leg nor the one its transaction gives it is at the end of time. -/
structure Timely (imported : Imported) (legs : List Leg) : Prop where
  own : Early imported.clock legs
  enriched : Early imported.clock (legs.map imported.scopedLeg)

theorem Timely.sub {imported : Imported} {legs some : List Leg} (timely : Timely imported legs)
    (sub : ∀ leg ∈ some, leg ∈ legs) : Timely imported some where
  own := timely.own.sub sub
  enriched := timely.enriched.sub fun leg member => by
    obtain ⟨own, listed, rfl⟩ := mem_map.1 member
    exact mem_map_of_mem (sub own listed)

section
variable {imported : Imported} {book : Tables} (timely : Timely imported book.legs)
include timely

theorem combined_total {legs : List Leg} (sub : ∀ leg ∈ legs, leg ∈ book.legs) (allocations : List Allocation)
    (current : List String) : ∃ issues, combinedRouteIssues imported legs allocations current = .ok issues := by
  refine (combined_ok_iff imported).2 fun place _ _ => early_fits ((timely.sub sub).enriched.sub fun leg member => ?_)
  exact mem_of_mem_filter (mem_of_mem_filter (mem_of_mem_filter member))

omit timely in
theorem legsOf_sub (rows : List ComponentRow) : ∀ leg ∈ rows.flatMap fun row => book.legsOf row.id, leg ∈ book.legs := by
  intro leg member
  obtain ⟨row, -, own⟩ := mem_flatMap.1 member
  exact (mem_legsOf.1 own).1

theorem materialize_total (routes : Option (List Issue)) (row : ComponentRow) :
    ∃ view, book.materializeComponent imported routes row = .ok view := by
  have own := timely.sub (fun leg (member : leg ∈ book.legsOf row.id) => (mem_legsOf.1 member).1)
  refine bind_total ?_ fun _ => bind_total ?_ fun _ => ⟨_, rfl⟩
  · refine bind_total ?_ fun _ => bind_total ?_ fun _ => ⟨_, rfl⟩
    · unfold validateConservation
      split
      · exact ⟨_, rfl⟩
      · exact bind_total (chronology_total own.own _ _) fun _ =>
          bind_total (continuity_total own.own) fun _ => ⟨_, rfl⟩
    · refine bind_total ?_ fun _ => ⟨_, rfl⟩
      unfold scopedChronologyIssues
      split
      · exact chronology_total own.enriched _ _
      · exact ⟨_, rfl⟩
  · unfold routeIssues
    split
    · exact ⟨_, rfl⟩
    · exact ⟨_, rfl⟩
    · unfold ownRouteIssues
      have others : ∀ leg ∈ (book.otherActiveQuantityContent (book.legsOf row.id)).1, leg ∈ book.legs := by
        unfold otherActiveQuantityContent
        split
        · exact legsOf_sub _
        · exact fun leg member => by cases member
      dsimp only
      split
      · exact ⟨_, rfl⟩
      · refine bind_total (combined_total timely (fun leg member => ?_) _ _) fun _ => ⟨_, rfl⟩
        rcases mem_append.1 member with mine | other
        · exact (mem_legsOf.1 mine).1
        · exact others leg other

theorem getComponent_total {row : ComponentRow} {id : String} (found : book.row id = some row) :
    ∃ view, book.getComponent imported id = .ok view := by
  unfold getComponent
  rw [found]
  exact materialize_total timely none row

theorem iter_total (profile : String) : ∃ views, book.iterAuthoredActiveComponents imported profile = .ok views := by
  refine bind_total ?_ fun routes => mapM_total fun row _ => materialize_total timely (some routes) row
  unfold profileActiveRouteIssues
  dsimp only
  split
  · exact ⟨_, rfl⟩
  · exact combined_total timely (legsOf_sub _) _ _

theorem reconcile_total (kept : book.Kept) (profile : String) :
    ∃ rebuilt, book.reconcileActiveMemberships imported profile = .ok rebuilt := by
  obtain ⟨views, run⟩ := iter_total timely profile
  have joined : ∀ leg ∈ book.legs, leg.transactionId ≠ none → leg.joinAnchor = leg.transactionId := by
    intro leg member live
    unfold Leg.joinAnchor
    rw [kept.anchored leg member live, Option.or_self]
  have met : SharedMet imported book profile := by
    rintro row listed other listed' different - - ⟨leg, own, leg', own', live, same⟩
    have anchor := joined leg (mem_legsOf.1 own).1 live
    refine .inl ⟨other, (mem_activeRows.1 listed).2.1.symm ▸ listed', different.symm, leg, own, leg', own', anchor ▸ live, ?_⟩
    rw [anchor, joined leg' (mem_legsOf.1 own').1 (same ▸ live), same]
  have stray : StrayMet imported book profile := by
    intro held listed foreign row active component
    obtain ⟨owner, member, named, profiles⟩ := kept.held held listed
    obtain ⟨viewStored, viewProfile, -⟩ := mem_activeRows.1 active
    have same := same_row kept.wellFormed member viewStored (named.trans component)
    exact absurd (profiles.symm.trans (same ▸ viewProfile)) foreign
  exact ⟨_, (reconcile_ok imported).2 ⟨views, run, rfl, kept_apart imported kept.wellFormed run stray,
    effective_apart imported kept.wellFormed run fun view member other otherMember effective otherEffective different =>
      disjoint_of_met imported kept.wellFormed run met member otherMember effective otherEffective different⟩⟩

end

end Tables

def Call.legs : Call → List Leg
  | .create _ _ _ _ (.ok content) => content.legs
  | .update _ _ (.ok content) => content.legs
  | _ => []

namespace Tables

def Outcome.Atomic (book : Tables) (outcome : Outcome) : Prop :=
  ∀ error, outcome.result = .error error → outcome.book = book

theorem raises_atomic (book : Tables) (error : BookError) : (book.raises error).Atomic book := fun _ _ => rfl

theorem savepoint_atomic {book : Tables} {body : Except BookError Tables} {rest : Tables → Outcome}
    (done : ∀ stored, body = .ok stored → ∃ view, (rest stored).result = .ok view) :
    (book.savepoint body rest).Atomic book := by
  unfold savepoint
  cases run : body with
  | error error => exact raises_atomic book error
  | ok stored =>
    intro error raised
    obtain ⟨view, returned⟩ := done stored run
    cases returned.symm.trans raised

section
variable {imported : Imported} {book : Tables}

theorem owned_moment (clock : String → Option Int) (leg : Leg) (component profile : String) :
    ({ leg with componentId := component, profileId := profile } : Leg).moment clock = leg.moment clock := rfl

theorem owned_scoped_moment (leg : Leg) (component profile : String) :
    (imported.scopedLeg { leg with componentId := component, profileId := profile }).moment imported.clock =
      (imported.scopedLeg leg).moment imported.clock := by
  have evidence : imported.evidence { leg with componentId := component, profileId := profile } = imported.evidence leg := rfl
  unfold Imported.scopedLeg
  rw [evidence]
  cases imported.evidence leg with
  | none => rfl
  | some found => rfl

theorem timely_inserted {content : Authored} (timely : Timely imported (book.legs ++ content.legs)) (row : ComponentRow) :
    Timely imported (book.legs ++ content.legsOf row) where
  own := by
    intro leg member moment timed
    rcases mem_append.1 member with old | new
    · exact timely.own leg (mem_append_left _ old) moment timed
    · obtain ⟨own, listed, rfl⟩ := mem_authored.1 new
      rw [owned_moment] at timed
      exact timely.own own (mem_append_right _ listed) moment timed
  enriched := by
    intro leg member moment timed
    obtain ⟨source, sourceMember, rfl⟩ := mem_map.1 member
    rcases mem_append.1 sourceMember with old | new
    · exact timely.enriched _ (mem_map_of_mem (mem_append_left _ old)) moment timed
    · obtain ⟨own, listed, rfl⟩ := mem_authored.1 new
      rw [owned_scoped_moment] at timed
      exact timely.enriched _ (mem_map_of_mem (mem_append_right _ listed)) moment timed

theorem shows_ok (wellFormed : book.WellFormed) (timely : Timely imported book.legs) {row : ComponentRow}
    (member : row ∈ book.components) : ∃ view, (book.shows imported row.id).result = .ok view :=
  getComponent_total timely (row_eq wellFormed member)

theorem insert_shows {row : ComponentRow} {content : Authored} {stored : Tables}
    (run : book.insertRevision row content = .ok stored) (wellFormed : book.WellFormed)
    (timely : Timely imported (book.legs ++ content.legs)) (profile : row.profileId ≠ "") :
    ∃ view, (stored.shows imported row.id).result = .ok view := by
  have wellFormed' := insertRevision_wellFormed run wellFormed profile
  obtain ⟨rfl, -⟩ := insertRevision_ok run
  exact shows_ok wellFormed' (timely_inserted timely row) (mem_append_right _ (mem_singleton_self row))

variable (kept : book.Kept)
include kept

theorem create_atomic (workspace profile id lineage : String) (content : Except BookError Authored)
    (timely : Timely imported (book.legs ++ (Call.create workspace profile id lineage content).legs)) :
    (book.createComponent imported workspace profile id lineage content).Atomic book := by
  unfold createComponent
  split
  · exact raises_atomic book _
  rename_i named
  cases content with
  | error error => exact raises_atomic book error
  | ok content =>
    dsimp only
    split
    · exact raises_atomic book _
    · exact savepoint_atomic fun stored run => insert_shows run kept.wellFormed timely named

omit kept in
theorem retireDraft_legs (old : ComponentRow) (newId : String) : (book.retireDraft old newId).legs = book.legs := by
  unfold retireDraft
  split <;> rfl

theorem update_atomic (id newId : String) (content : Except BookError Authored)
    (timely : Timely imported (book.legs ++ (Call.update id newId content).legs)) :
    (book.updateComponent imported id newId content).Atomic book := by
  unfold updateComponent
  cases found : book.row id with
  | none => exact raises_atomic book _
  | some old =>
    dsimp only
    obtain ⟨member, rfl⟩ := row_some found
    split
    · exact raises_atomic book _
    rename_i alone
    cases content with
    | error error => exact raises_atomic book error
    | ok content =>
      obtain ⟨ordered, -⟩ := retireDraft_spec kept member alone newId
      refine savepoint_atomic fun stored run => insert_shows run ordered.wellFormed ?_ (kept.wellFormed.profileNamed old member)
      rw [retireDraft_legs]
      exact timely

omit kept in
theorem storeActivation_legs {view : View} {captured : Except BookError Nat} {stored : Tables}
    (run : book.storeActivation view captured = .ok stored) : stored.legs = book.legs := by
  unfold storeActivation at run
  obtain ⟨memberships, -, run⟩ := bind_ok.1 run
  obtain ⟨count, -, run⟩ := bind_ok.1 run
  dsimp only at run
  split at run
  · cases run
  · cases run
    rfl

theorem activate_atomic (id : String) (validated : Option View)
    (shown : ∀ earlier, validated = some earlier → book.Shown earlier) (captured : Except BookError Nat)
    (timely : Timely imported book.legs) : (book.activateComponent imported id validated captured).Atomic book := by
  unfold activateComponent
  cases run : book.validateComponentActivation imported id validated with
  | error error => exact raises_atomic book error
  | ok view =>
    dsimp only
    split
    · intro error raised
      cases raised
    rename_i inactive
    obtain ⟨rfl, row, ready⟩ := validateActivation_ready kept imported shown run
    refine savepoint_atomic fun stored stores => ?_
    obtain ⟨keptStored, extended⟩ := storeActivation_preserves kept ready (ready.draft inactive) stores
    obtain ⟨row', member', same, -⟩ := extended row ready.member
    rw [ready.same.id, ← same.id]
    exact shows_ok keptStored.wellFormed (storeActivation_legs stores ▸ timely) member'

theorem supersede_atomic (id : String) (timely : Timely imported book.legs) :
    (book.supersedeComponent imported id).Atomic book := by
  obtain ⟨retiredKept, extended⟩ := retire_preserves kept id
  unfold supersedeComponent
  split
  · exact raises_atomic book _
  rename_i row found
  obtain ⟨member, rfl⟩ := row_some found
  have total : ∀ later, Preserves book later → later.legs = book.legs → (later.shows imported row.id).Atomic book := by
    intro later preserved legs error raised
    obtain ⟨row', member', same, -⟩ := preserved.2 row member
    obtain ⟨view, returned⟩ := shows_ok preserved.1.wellFormed (legs ▸ timely) member'
    rw [same.id, raised] at returned
    cases returned
  split
  · exact total book (preserves_same kept) rfl
  split
  · obtain ⟨rebuilt, run⟩ := @reconcile_total imported (book.retire row.id) timely retiredKept row.profileId
    rw [run]
    have preserved := reconcile_preserves retiredKept imported run
    refine total rebuilt ⟨preserved.1, extended.trans preserved.2⟩ ?_
    obtain ⟨views, -, rfl, -⟩ := (reconcile_ok imported).1 run
    rfl
  · exact total (book.retire row.id) ⟨retiredKept, extended⟩ rfl

theorem perform_atomic {seen : List View} (shown : ∀ view ∈ seen, book.Shown view) (call : Call) (given : call.Given seen)
    (timely : Timely imported (book.legs ++ call.legs)) : (call.perform imported book).Atomic book := by
  have stored : Timely imported book.legs := timely.sub fun leg member => mem_append_left _ member
  cases call with
  | create workspace profile id lineage content => exact create_atomic kept workspace profile id lineage content timely
  | update id newId content => exact update_atomic kept id newId content timely
  | activate id validated captured =>
    refine activate_atomic kept id validated (fun earlier some => ?_) captured stored
    subst some
    exact shown earlier given
  | supersede id => exact supersede_atomic kept id stored

end

/-- Every run of calls from an empty book keeps the lineages in order and never revives a superseded revision. A call
that raises leaves the tables alone, unless a leg it can reach is dated at the end of time. -/
theorem lineages_over_runs {book later : Tables} {seen seen' : List View} (run : Run (empty, []) (book, seen))
    (rest : Run (book, seen) (later, seen')) :
    book.Lineages ∧
      (∀ row ∈ book.components, row.state = .superseded →
        ∃ row' ∈ later.components, row'.id = row.id ∧ row'.state = .superseded) ∧
      ∀ imported (call : Call), call.Given seen → Timely imported (book.legs ++ call.legs) →
        (call.perform imported book).Atomic book := by
  obtain ⟨⟨kept, -⟩, shown⟩ := run_keeps run empty_kept fun view member => by cases member
  obtain ⟨⟨-, extended⟩, -⟩ := run_keeps rest kept shown
  refine ⟨kept.lineages, fun row member superseded => ?_, fun imported call given timely =>
    perform_atomic kept shown call given timely⟩
  obtain ⟨row', member', same, stays⟩ := extended row member
  exact ⟨row', member', same.id, stays superseded⟩

def lateImported : Imported :=
  { sampleImported with
    clock := fun text => if text = "9999-12-31T00:00:00Z" then some 253402214400000000 else sampleImported.clock text }

def transferContent (arrival : String) : Authored where
  header := { componentType := "manual_bridge", conservationMode := .quantity }
  legs := [{ sampleLeg "" 0 .source "cold" "" none with transactionId := none },
    { sampleLeg "" 1 .destination "hot" "" none with transactionId := none, occurredAt := some arrival }]
  allocations := []
  terms := []
  createdAt := "2024-01-01T00:00:00Z"
  anchored := by simp [sampleLeg]

def createTransfer (arrival : String) : Call := .create "w" "book" "x" "x" (.ok (transferContent arrival))

/-- A component whose destination is dated on the last day is stored and then reported as a failure. -/
theorem late_component_stored_and_refused :
    ¬ ∀ imported (call : Call), (call.perform imported empty).Atomic empty := by
  intro atomic
  have raised : ((createTransfer "9999-12-31T00:00:00Z").perform lateImported empty).result = .error .overflowError := by
    decide +kernel
  have stored : ((createTransfer "9999-12-31T00:00:00Z").perform lateImported empty).book.components.length = 1 := by
    decide +kernel
  rw [atomic lateImported _ _ raised] at stored
  cases stored

theorem sample_timely (legs : List Leg) : Timely sampleImported legs := by
  have read : ∀ (leg : Leg) (moment : Int), leg.moment sampleImported.clock = some moment → moment = 1704067200000000 := by
    intro leg moment timed
    obtain ⟨text, -, read⟩ := Option.bind_eq_some_iff.1 timed
    have clock : (if text = "2024-01-01T00:00:00Z" then some (1704067200000000 : Int) else none) = some moment := read
    split at clock
    · exact (Option.some.inj clock).symm
    · cases clock
  have fits : ∀ moment : Int, moment = 1704067200000000 → moment + chronologySkewTolerance ≤ latestMoment := by
    rintro _ rfl
    decide
  exact ⟨fun leg _ moment timed => fits moment (read leg moment timed),
    fun leg _ moment timed => fits moment (read leg moment timed)⟩

/-- Creating a transfer and then superseding it. -/
theorem transfer_lineages_over_run :
    ∃ book later : Tables, book.components.length = 1 ∧ book.Lineages ∧ later.Lineages ∧
      (∀ call : Call, call.Given [] → (call.perform sampleImported later).Atomic later) := by
  have first : Run (empty, []) (_, []) :=
    .single (.call sampleImported (createTransfer "2024-01-01T00:00:00Z") trivial rfl)
  have second : Run (((createTransfer "2024-01-01T00:00:00Z").perform sampleImported empty).book, []) (_, []) :=
    .single (.call sampleImported (.supersede "x") trivial rfl)
  obtain ⟨lineages, -, -⟩ := lineages_over_runs first second
  obtain ⟨lineages', -, atomic⟩ := lineages_over_runs (first.trans second) .refl
  exact ⟨_, _, by decide +kernel, lineages, lineages', fun call given =>
    atomic sampleImported call given (sample_timely _)⟩

end Tables

end Kassiber.Custody.Book

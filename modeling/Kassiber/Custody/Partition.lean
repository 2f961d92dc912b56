import Kassiber.Lib.Ranking
import Kassiber.Custody.Repeats

/-!
The canonical input as a partition. Every remaining row is an alias of one event or named by one
issue, whatever the order of the rows, and what happens to one event says nothing about another.
-/

namespace Kassiber.Custody
open Lib.Outcome Lib.Dict Lib.Sorting Lib.Ranking Lib.Document List
open Prod (fst snd)

section
variable {observations observations' : List QuantityObservation}

theorem representative_some {slot : String ×ₗ String ×ₗ String} (filled : slot ∈ observations.map (·.slot)) :
    ∃ o ∈ observations, o.slot = slot ∧ (observations.filter fun o => o.slot = slot).argmin (·.rank) = some o := by
  obtain ⟨o, member, same⟩ := mem_map.1 filled
  cases first : (observations.filter fun o => o.slot = slot).argmin (·.rank) with
  | none =>
    rw [argmin_eq_none, filter_eq_nil_iff] at first
    exact absurd (decide_eq_true same) (first o member)
  | some found =>
    obtain ⟨inside, own⟩ := mem_filter.1 (argmin_mem first)
    exact ⟨found, inside, of_decide_eq_true own, rfl⟩

theorem legsOf_slots : (legsOf observations).map (·.slot) = sortedSet (observations.map (·.slot)) := by
  unfold legsOf
  have each : ∀ slots : List (String ×ₗ String ×ₗ String), (∀ slot ∈ slots, slot ∈ observations.map (·.slot)) →
      (slots.filterMap fun slot => (observations.filter fun o => o.slot = slot).argmin (·.rank)).map (·.slot) = slots := by
    intro slots
    induction slots with
    | nil => intro _; rfl
    | cons slot rest ih =>
      intro filled
      obtain ⟨o, -, own, first⟩ := representative_some (filled slot (.head _))
      rw [filterMap_cons, first]
      simp only [map_cons, own]
      rw [ih fun other member => filled other (mem_cons_of_mem _ member)]
  exact each _ fun slot member => mem_sortedSet.1 member

theorem legsOf_distinct : ((legsOf observations).map (·.slot)).Nodup := by
  rw [legsOf_slots]
  exact sortedSet_nodup _

theorem selected_leg {o : QuantityObservation} (member : o ∈ observations) :
    ∃ leg ∈ legsOf observations, leg.slot = o.slot ∧ selectedHash (legsOf observations) o = leg.quantityHash := by
  have listed : o.slot ∈ (legsOf observations).map (·.slot) := by
    rw [legsOf_slots]
    exact mem_sortedSet.2 (mem_map_of_mem member)
  unfold selectedHash
  cases found : (legsOf observations).find? fun leg => leg.slot = o.slot with
  | none =>
    obtain ⟨leg, inside, same⟩ := mem_map.1 listed
    exact absurd (decide_eq_true same) (List.find?_eq_none.1 found leg inside)
  | some leg =>
    have own := find?_some found
    simp only [decide_eq_true_eq] at own
    exact ⟨leg, mem_of_find?_eq_some found, own, rfl⟩

theorem aliasesOf_ids : ((aliasesOf observations).map fst).Perm (observations.map (·.transactionId)) := by
  refine ((sortedBy_perm _ _).map fst).trans (List.Perm.of_eq ?_)
  rw [map_map]
  rfl

theorem aliasesOf_leg {entry : String × String} (member : entry ∈ aliasesOf observations) :
    ∃ leg ∈ legsOf observations, leg.quantityHash = entry.2 := by
  obtain ⟨o, inside, rfl⟩ := mem_map.1 (mem_sortedBy.1 member)
  obtain ⟨leg, listed, -, selected⟩ := selected_leg inside
  exact ⟨leg, listed, selected.symm⟩

theorem argmin_perm {xs ys : List QuantityObservation} (perm : xs.Perm ys) (distinct : (xs.map (·.transactionId)).Nodup) :
    xs.argmin (·.rank) = ys.argmin (·.rank) := by
  cases first : xs.argmin (·.rank) with
  | none =>
    rw [argmin_eq_none] at first
    subst first
    rw [nil_perm.1 perm]
    rfl
  | some o =>
    cases second : ys.argmin (·.rank) with
    | none =>
      rw [argmin_eq_none] at second
      subst second
      rw [perm_nil.1 perm] at first
      cases first
    | some p =>
      have least := le_of_mem_argmin (perm.mem_iff.2 (argmin_mem second)) first
      have least' := le_of_mem_argmin (perm.mem_iff.1 (argmin_mem first)) second
      have ranks : o.rank = p.rank := le_antisymm least least'
      have ids : o.transactionId = p.transactionId := by
        simp only [QuantityObservation.rank, EmbeddingLike.apply_eq_iff_eq, Prod.mk.injEq] at ranks
        exact ranks.2.2
      exact congrArg some (inj_on_of_nodup_map distinct (argmin_mem first) (perm.mem_iff.2 (argmin_mem second)) ids)

theorem legsOf_perm (perm : observations.Perm observations') (distinct : (observations.map (·.transactionId)).Nodup) :
    legsOf observations = legsOf observations' := by
  unfold legsOf
  have slots : sortedSet (observations.map (·.slot)) = sortedSet (observations'.map (·.slot)) :=
    sortedSet_eq_of_mem fun slot => (perm.map (·.slot)).mem_iff
  rw [slots]
  refine congrArg (fun f => filterMap f _) (funext fun slot => ?_)
  exact argmin_perm (perm.filter _) (distinct.sublist ((filter_sublist).map _))

theorem aliasesOf_perm (perm : observations.Perm observations') (distinct : (observations.map (·.transactionId)).Nodup) :
    aliasesOf observations = aliasesOf observations' := by
  unfold aliasesOf
  rw [legsOf_perm perm distinct]
  exact sortedBy_eq_of_perm (perm.map _) fun _ _ _ _ same => toLex.injective same

def QuantityObservation.snapshot (o : QuantityObservation) : EvidenceSnapshot :=
  ⟨o.quantityHash, o.evidenceDetailHash, o.evidencePayloadJson⟩

def OneEvidence (observations : List QuantityObservation) : Prop :=
  ∀ o ∈ observations, ∀ p ∈ observations, o.evidenceDetailHash = p.evidenceDetailHash → o.snapshot = p.snapshot

theorem mem_snapshots (one : OneEvidence observations) {snapshot : EvidenceSnapshot} :
    snapshot ∈ (items (observations.map fun o => (o.evidenceDetailHash, o.snapshot))).map snd ↔
      ∃ o ∈ observations, o.snapshot = snapshot := by
  constructor
  · intro member
    obtain ⟨⟨hash, value⟩, inside, rfl⟩ := mem_map.1 member
    obtain ⟨o, listed, same⟩ := mem_map.1 (mem_of_lookup (mem_items.1 inside))
    exact ⟨o, listed, (Prod.mk.inj same).2⟩
  · rintro ⟨o, listed, rfl⟩
    have present : (lookup (observations.map fun o => (o.evidenceDetailHash, o.snapshot)) o.evidenceDetailHash).isSome = true := by
      rw [lookup_isSome, map_map]
      exact mem_map_of_mem listed
    obtain ⟨value, found⟩ := Option.isSome_iff_exists.1 present
    obtain ⟨p, other, same⟩ := mem_map.1 (mem_of_lookup found)
    obtain ⟨hashes, values⟩ := Prod.mk.inj same
    rw [one o listed p other hashes.symm, values]
    exact mem_map.2 ⟨_, mem_items.2 found, rfl⟩

theorem snapshots_nodup : ((items (observations.map fun o => (o.evidenceDetailHash, o.snapshot))).map snd).Nodup := by
  have keys := items_nodup (observations.map fun o => (o.evidenceDetailHash, o.snapshot))
  refine List.Nodup.map_on ?_ (List.Nodup.of_map _ keys)
  intro entry inside other inside' same
  refine inj_on_of_nodup_map keys inside inside' ?_
  have own : ∀ item ∈ items (observations.map fun o => (o.evidenceDetailHash, o.snapshot)), item.1 = item.2.detailHash := by
    intro item member
    obtain ⟨o, -, same⟩ := mem_map.1 (mem_of_lookup (mem_items.1 (show (item.1, item.2) ∈ _ from member)))
    obtain ⟨hash, value⟩ := Prod.mk.inj same
    rw [← hash, ← value]
    rfl
  rw [own entry inside, own other inside', same]

theorem snapshotsOf_perm (perm : observations.Perm observations') (one : OneEvidence observations) :
    snapshotsOf observations = snapshotsOf observations' := by
  have one' : OneEvidence observations' := fun o inside p inside' =>
    one o (perm.mem_iff.2 inside) p (perm.mem_iff.2 inside')
  refine sortedBy_eq_of_perm ?_ ?_
  · refine (perm_ext_iff_of_nodup snapshots_nodup snapshots_nodup).2 fun snapshot => ?_
    rw [mem_snapshots one, mem_snapshots one']
    exact exists_congr fun o => and_congr_left fun _ => perm.mem_iff
  · intro snapshot inside other inside' hashes
    obtain ⟨o, listed, rfl⟩ := (mem_snapshots one).1 inside
    obtain ⟨p, listed', rfl⟩ := (mem_snapshots one).1 inside'
    exact one o listed p listed' hashes

theorem eventFrom_perm {key : CanonicalEventKey} (perm : observations.Perm observations')
    (distinct : (observations.map (·.transactionId)).Nodup) (one : OneEvidence observations) :
    eventFrom key observations = eventFrom key observations' := by
  unfold eventFrom
  rw [legsOf_perm perm distinct, snapshotsOf_perm perm one, aliasesOf_perm perm distinct]
  have ids : sortedSet (observations.map (·.transactionId)) = sortedSet (observations'.map (·.transactionId)) :=
    sortedSet_eq_of_mem fun id => (perm.map (·.transactionId)).mem_iff
  rw [ids]

theorem contradictory_perm (perm : observations.Perm observations') :
    Contradictory observations ↔ Contradictory observations' := by
  unfold Contradictory
  refine exists_congr fun o => and_congr perm.mem_iff (exists_congr fun p => and_congr perm.mem_iff Iff.rfl)

end

/-- The document a row's evidence is hashed from, with the proof of a reconciled receipt. -/
def detailDocument (reconciliations : Reconciliations) (key : CanonicalEventKey) (row : ImportRow) : Json :=
  match lookup reconciliations row.id with
  | some (some proof) =>
    match canonicalEvidencePayload row key with
    | .fields entries => .object (entries ++ [("receipt_reconciliation", proof.proof)])
    | other => other
  | _ => canonicalEvidencePayload row key

def Json.entries : Json → List (String × Json)
  | .fields entries => entries
  | _ => []

theorem object_entries (entries : List (String × Json)) (entry : String × Json) :
    entry ∈ Json.entries (.object entries) ↔ entry ∈ entries := mem_sortedBy

theorem evidence_entries (row : ImportRow) (key : CanonicalEventKey) (value : Json) :
    (("quantity", value) ∈ Json.entries (canonicalEvidencePayload row key) ↔ value = canonicalQuantityPayload row key) ∧
      ("receipt_reconciliation", value) ∉ Json.entries (canonicalEvidencePayload row key) := by
  unfold canonicalEvidencePayload
  rw [object_entries, object_entries]
  constructor
  · simp
  · simp

theorem detail_entries (reconciliations : Reconciliations) (key : CanonicalEventKey) (row : ImportRow) (value : Json) :
    (("quantity", value) ∈ Json.entries (detailDocument reconciliations key row) ↔
        value = canonicalQuantityPayload row key) ∧
      (("receipt_reconciliation", value) ∈ Json.entries (detailDocument reconciliations key row) ↔
        ∃ proof, lookup reconciliations row.id = some (some proof) ∧ value = proof.proof) := by
  obtain ⟨quantity, unproved⟩ := evidence_entries row key value
  unfold detailDocument
  split
  · rename_i proof found
    have shape : canonicalEvidencePayload row key = .fields (Json.entries (canonicalEvidencePayload row key)) := rfl
    rw [shape]
    simp only [object_entries, mem_append, mem_singleton, Prod.mk.injEq]
    refine ⟨?_, ?_⟩
    · rw [quantity]
      simp
    · constructor
      · rintro (listed | ⟨-, same⟩)
        · exact absurd listed unproved
        · exact ⟨proof, found, same⟩
      · rintro ⟨other, read, same⟩
        rw [found] at read
        cases read
        exact .inr ⟨trivial, same⟩
  · rename_i none
    refine ⟨quantity, fun listed => absurd listed unproved, ?_⟩
    rintro ⟨proof, found, -⟩
    exact absurd found (none proof)

section
variable (sha256 : String → String)

def countedHash (reconciliations : Reconciliations) (key : CanonicalEventKey) (row : ImportRow) : String :=
  match lookup reconciliations row.id with
  | some (some proof) =>
    hashPayload sha256 (.object [("observed_quantity_hash", .text (hashPayload sha256 (canonicalQuantityPayload row key))),
      ("receipt_reconciliation", proof.proof)])
  | _ => hashPayload sha256 (canonicalQuantityPayload row key)

variable {key : CanonicalEventKey} {row other own : ImportRow} {observations : List QuantityObservation}

theorem observe_ok {reconciliations : Reconciliations}
    {o : QuantityObservation} (read : observe sha256 reconciliations key row = .ok o) :
    o.transactionId = row.id ∧ o.snapshot = ⟨countedHash sha256 reconciliations key row,
      hashPayload sha256 (detailDocument reconciliations key row),
      (detailDocument reconciliations key row).encode false⟩ := by
  obtain ⟨first, built, rest⟩ := bind_ok.1 read
  obtain ⟨_, -, same⟩ := bind_ok.1 built
  rw [pure_ok] at same
  subst same
  unfold countedHash detailDocument
  rcases found : lookup reconciliations row.id with _ | _ | proof
  all_goals rw [found] at rest
  · rw [pure_ok] at rest
    subst rest
    exact ⟨rfl, rfl⟩
  · rw [pure_ok] at rest
    subst rest
    exact ⟨rfl, rfl⟩
  · obtain ⟨_, -, same⟩ := bind_ok.1 rest
    rw [pure_ok] at same
    subst same
    exact ⟨rfl, rfl⟩

def Collisionless (reconciliations : Reconciliations) (rows : List ImportRow) : Prop :=
  ∀ key, ∀ row ∈ rows, ∀ other ∈ rows,
    hashPayload sha256 (detailDocument reconciliations key row) =
      hashPayload sha256 (detailDocument reconciliations key other) →
    detailDocument reconciliations key row = detailDocument reconciliations key other

variable {sha256} {reconciliations : Reconciliations} {rows rows' : List ImportRow}

theorem countedHash_of_document
    (same : detailDocument reconciliations key row = detailDocument reconciliations key other) :
    countedHash sha256 reconciliations key row = countedHash sha256 reconciliations key other := by
  have quantity : canonicalQuantityPayload row key = canonicalQuantityPayload other key := by
    have own := (detail_entries reconciliations key row (canonicalQuantityPayload row key)).1.2 rfl
    rw [same] at own
    exact (detail_entries reconciliations key other _).1.1 own
  have proofs : ∀ value, (∃ proof, lookup reconciliations row.id = some (some proof) ∧ value = proof.proof) ↔
      ∃ proof, lookup reconciliations other.id = some (some proof) ∧ value = proof.proof := by
    intro value
    rw [← (detail_entries reconciliations key row value).2, same, (detail_entries reconciliations key other value).2]
  unfold countedHash
  rw [quantity]
  split
  · rename_i proof found
    obtain ⟨proof', found', equal⟩ := (proofs proof.proof).1 ⟨proof, found, rfl⟩
    rw [found', equal]
  · rename_i none
    split
    · rename_i proof found
      obtain ⟨proof', found', -⟩ := (proofs proof.proof).2 ⟨proof, found, rfl⟩
      exact absurd found' (none proof')
    · rfl

theorem observed_oneEvidence (collisionless : Collisionless sha256 reconciliations rows)
    (run : rows.mapM (observe sha256 reconciliations key) = .ok observations) : OneEvidence observations := by
  intro o inside p inside' hashes
  obtain ⟨row, member, read⟩ := mapM_outputs run inside
  obtain ⟨other, member', read'⟩ := mapM_outputs run inside'
  have first := (observe_ok sha256 read).2
  have second := (observe_ok sha256 read').2
  have digest := congrArg EvidenceSnapshot.detailHash first
  have digest' := congrArg EvidenceSnapshot.detailHash second
  have documents := collisionless key row member other member' (digest.symm.trans (hashes.trans digest'))
  rw [first, second, documents, countedHash_of_document documents]

theorem observed_ids (run : rows.mapM (observe sha256 reconciliations key) = .ok observations) :
    observations.map (·.transactionId) = rows.map (·.id) :=
  mapM_map (fun _ _ read => (observe_ok sha256 read).1) run

theorem mapM_of_perm {f : ImportRow → Except PyError QuantityObservation}
    (perm : rows.Perm rows') (run : rows.mapM f = .ok observations) :
    ∃ observations', rows'.mapM f = .ok observations' ∧ observations.Perm observations' := by
  have total : ∀ row ∈ rows', ∃ o, f row = .ok o := by
    intro row member
    obtain ⟨o, -, read⟩ := mapM_inputs run (perm.mem_iff.2 member)
    exact ⟨o, read⟩
  obtain ⟨observations', run'⟩ := mapM_total total
  exact ⟨observations', run', mapM_perm perm run run'⟩

theorem transactionIdsOf_perm (perm : rows.Perm rows') : transactionIdsOf rows = transactionIdsOf rows' :=
  sortedSet_eq_of_mem fun _ => (perm.map (·.id)).mem_iff

theorem judgeEvent_perm (perm : rows.Perm rows') (distinct : (rows.map (·.id)).Nodup)
    (collisionless : Collisionless sha256 reconciliations rows) :
    judgeEvent sha256 reconciliations key rows = judgeEvent sha256 reconciliations key rows' := by
  have unresolved : (rows.any fun row => (lookup reconciliations row.id).any (·.isNone)) =
      rows'.any fun row => (lookup reconciliations row.id).any (·.isNone) := perm.any_eq
  unfold judgeEvent
  rw [unresolved, transactionIdsOf_perm perm]
  split
  · rfl
  · cases run : rows.mapM (observe sha256 reconciliations key) with
    | ok observations =>
      obtain ⟨observations', run', same⟩ := mapM_of_perm perm run
      have ids : (observations.map (·.transactionId)).Nodup := by
        rw [observed_ids run]
        exact distinct
      rw [run']
      simp only [contradictory_perm same, eventFrom_perm same ids (observed_oneEvidence collisionless run)]
    | error e =>
      cases run' : rows'.mapM (observe sha256 reconciliations key) with
      | ok observations =>
        obtain ⟨_, again, -⟩ := mapM_of_perm perm.symm run'
        rw [run] at again
        cases again
      | error e' => rfl

theorem eventKeysOf_perm (perm : rows.Perm rows') : eventKeysOf rows = eventKeysOf rows' :=
  sortedBy_eq_of_perm ((perm.filterMap eventOf).dedup) fun _ _ _ _ same => CanonicalEventKey.order_injective same

def issueOrder (issue : CanonicalEventIssue) : (String ×ₗ String ×ₗ String ×ₗ String) ×ₗ String ×ₗ List String :=
  toLex (issue.eventKey.order, toLex (issue.code, issue.transactionIds))

theorem issueOrder_injective : Function.Injective issueOrder := by
  rintro ⟨key, code, ids⟩ ⟨key', code', ids'⟩ same
  simp only [issueOrder, EmbeddingLike.apply_eq_iff_eq, Prod.mk.injEq] at same
  obtain ⟨keys, rfl, rfl⟩ := same
  rw [CanonicalEventKey.order_injective keys]

variable (sha256 reconciliations)

def unidentifiedIssues (rows : List ImportRow) : List CanonicalEventIssue := rows.filterMap fun row =>
  match canonicalEventKey row with
  | .error _ => some ⟨fallbackEventKey row, "canonical_event_identity_invalid", transactionIdsOf [row]⟩
  | .ok _ => none

def refusedIssues (rows : List ImportRow) : List CanonicalEventIssue := (eventKeysOf rows).filterMap fun key =>
  match judgeEvent sha256 reconciliations key (rowsOf key rows) with
  | .error issue => some issue
  | .ok _ => none

variable {sha256 reconciliations}

theorem build_events (nonEvents : List String) :
    (buildCanonicalQuantityInput sha256 rows reconciliations nonEvents).events =
      acceptedEvents sha256 reconciliations (rows.filter fun row => row.id ∉ nonEvents) := rfl

theorem build_issues (nonEvents : List String) :
    (buildCanonicalQuantityInput sha256 rows reconciliations nonEvents).rejectedEvents =
      sortedBy issueOrder (unidentifiedIssues (rows.filter fun row => row.id ∉ nonEvents) ++
        refusedIssues sha256 reconciliations (rows.filter fun row => row.id ∉ nonEvents)) := rfl

theorem canonicalInput_ext {canonical canonical' : CanonicalQuantityInput} (events : canonical.events = canonical'.events)
    (issues : canonical.rejectedEvents = canonical'.rejectedEvents) : canonical = canonical' := by
  obtain ⟨_, _, _⟩ := canonical
  obtain ⟨_, _, _⟩ := canonical'
  cases events
  cases issues
  rfl

theorem Collisionless.of_subset (collisionless : Collisionless sha256 reconciliations rows)
    (subset : ∀ row ∈ rows', row ∈ rows) : Collisionless sha256 reconciliations rows' :=
  fun key row member other member' => collisionless key row (subset row member) other (subset other member')

theorem build_perm (nonEvents : List String) (perm : rows.Perm rows') (distinct : (rows.map (·.id)).Nodup)
    (collisionless : Collisionless sha256 reconciliations rows) :
    buildCanonicalQuantityInput sha256 rows reconciliations nonEvents =
      buildCanonicalQuantityInput sha256 rows' reconciliations nonEvents := by
  have kept := perm.filter fun row => row.id ∉ nonEvents
  have judged : ∀ key, judgeEvent sha256 reconciliations key (rowsOf key (rows.filter fun row => row.id ∉ nonEvents)) =
      judgeEvent sha256 reconciliations key (rowsOf key (rows'.filter fun row => row.id ∉ nonEvents)) := by
    intro key
    refine judgeEvent_perm (kept.filter _) ?_ (collisionless.of_subset fun row member => ?_)
    · exact distinct.sublist ((filter_sublist.trans filter_sublist).map _)
    · exact mem_of_mem_filter (mem_of_mem_filter member)
  refine canonicalInput_ext ?_ ?_
  · rw [build_events, build_events]
    unfold acceptedEvents
    rw [eventKeysOf_perm kept]
    simp only [judged]
  · rw [build_issues, build_issues]
    refine sortedBy_eq_of_perm ?_ fun _ _ _ _ same => issueOrder_injective same
    refine (kept.filterMap _).append (List.Perm.of_eq ?_)
    unfold refusedIssues
    rw [eventKeysOf_perm kept]
    simp only [judged]

theorem judged_ids (distinct : (rows.map (·.id)).Nodup) :
    (∀ event, judgeEvent sha256 reconciliations key rows = .ok event →
      (event.observationAliases.map fst).Perm (rows.map (·.id))) ∧
    ∀ issue, judgeEvent sha256 reconciliations key rows = .error issue →
      issue.transactionIds.Perm (rows.map (·.id)) := by
  have named : (transactionIdsOf rows).Perm (rows.map (·.id)) := by
    unfold transactionIdsOf sortedSet
    rw [distinct.dedup]
    exact sortedBy_perm _ _
  constructor
  · intro event accepted
    unfold judgeEvent at accepted
    split at accepted
    · cases accepted
    · split at accepted
      · cases accepted
      · rename_i observations run
        split at accepted
        · cases accepted
        · cases accepted
          exact aliasesOf_ids.trans (List.Perm.of_eq (observed_ids run))
  · intro issue refused
    unfold judgeEvent at refused
    split at refused
    · cases refused
      exact named
    · split at refused
      · cases refused
        exact named
      · split at refused
        · cases refused
          exact named
        · cases refused

theorem unidentified_ids (rows : List ImportRow) :
    (unidentifiedIssues rows).flatMap (·.transactionIds) =
      (rows.filter fun row => !(eventOf row).isSome).map (·.id) := by
  unfold unidentifiedIssues
  induction rows with
  | nil => rfl
  | cons row rest ih =>
    cases key : canonicalEventKey row with
    | ok own =>
      have found : (eventOf row).isSome = true := by simp [eventOf, key, Except.toOption]
      rw [filterMap_cons_none (by rw [key]), filter_cons_of_neg (by simp [found])]
      exact ih
    | error e =>
      have missing : (eventOf row).isSome = false := by simp [eventOf, key, Except.toOption]
      rw [filterMap_cons_some (by rw [key]), filter_cons_of_pos (by simp [missing]), flatMap_cons, ih]
      rfl

theorem identified_ids (distinct : (rows.map (·.id)).Nodup) :
    (((acceptedEvents sha256 reconciliations rows).flatMap (·.observationAliases)).map fst ++
      (refusedIssues sha256 reconciliations rows).flatMap (·.transactionIds)).Perm
      ((rows.filter fun row => (eventOf row).isSome).map (·.id)) := by
  have keys : (eventKeysOf rows).Nodup := (sortedBy_perm _ _).nodup_iff.2 (nodup_dedup _)
  have covered : ∀ row ∈ rows, ∀ key, eventOf row = some key → key ∈ eventKeysOf rows := fun row member key own =>
    mem_sortedBy.2 (mem_dedup.2 (mem_filterMap.2 ⟨row, member, own⟩))
  have fibers := (flatMap_fibers_perm keys covered).map (·.id)
  refine List.Perm.trans ?_ fibers
  rw [map_flatMap]
  unfold acceptedEvents refusedIssues
  -- Each event gives its ids to the aliases or to its issue.
  have each : ∀ key, ((judgeEvent sha256 reconciliations key (rowsOf key rows)).toOption.toList.flatMap fun event =>
        event.observationAliases.map fst) ++
      ((match judgeEvent sha256 reconciliations key (rowsOf key rows) with
        | .error issue => some issue
        | .ok _ => none : Option CanonicalEventIssue).toList.flatMap (·.transactionIds)) ~
      (rowsOf key rows).map (·.id) := by
    intro key
    have own : ((rowsOf key rows).map (·.id)).Nodup := distinct.sublist (filter_sublist.map _)
    cases outcome : judgeEvent sha256 reconciliations key (rowsOf key rows) with
    | ok event => simpa [Except.toOption] using (judged_ids own).1 event outcome
    | error issue => simpa [Except.toOption] using (judged_ids own).2 issue outcome
  generalize eventKeysOf rows = listed
  induction listed with
  | nil => exact List.Perm.refl _
  | cons key rest ih =>
    have own := each key
    rw [flatMap_cons]
    cases outcome : judgeEvent sha256 reconciliations key (rowsOf key rows) with
    | ok event =>
      rw [outcome] at own
      rw [filterMap_cons_some (by rw [outcome]; rfl), filterMap_cons_none (by rw [outcome]), flatMap_cons,
        map_append, List.append_assoc]
      simp only [Except.toOption, Option.toList_some, Option.toList_none, flatMap_cons, flatMap_nil,
        append_nil] at own
      exact own.append ih
    | error issue =>
      rw [outcome] at own
      rw [filterMap_cons_none (by rw [outcome]; rfl), filterMap_cons_some (by rw [outcome]), flatMap_cons,
        map_append]
      simp only [Except.toOption, Option.toList_some, Option.toList_none, flatMap_cons, flatMap_nil,
        append_nil, nil_append] at own
      refine List.Perm.trans ?_ (own.append ih)
      rw [← List.append_assoc, ← List.append_assoc]
      exact perm_append_comm.append_right _

theorem build_ids (nonEvents : List String) (distinct : (rows.map (·.id)).Nodup) :
    ((buildCanonicalQuantityInput sha256 rows reconciliations nonEvents).aliases.map fst ++
      (buildCanonicalQuantityInput sha256 rows reconciliations nonEvents).rejectedEvents.flatMap (·.transactionIds)).Perm
      ((rows.filter fun row => row.id ∉ nonEvents).map (·.id)) := by
  rw [build_issues, CanonicalQuantityInput.aliases, build_events]
  have kept : ((rows.filter fun row => row.id ∉ nonEvents).map (·.id)).Nodup :=
    distinct.sublist (filter_sublist.map _)
  generalize rows.filter (fun row => row.id ∉ nonEvents) = rows at kept
  have issues : ((sortedBy issueOrder (unidentifiedIssues rows ++ refusedIssues sha256 reconciliations rows)).flatMap
      (·.transactionIds)).Perm ((unidentifiedIssues rows).flatMap (·.transactionIds) ++
        (refusedIssues sha256 reconciliations rows).flatMap (·.transactionIds)) := by
    rw [← flatMap_append]
    exact (sortedBy_perm _ _).flatMap_right _
  refine (issues.append_left _).trans ?_
  rw [unidentified_ids, ← List.append_assoc]
  refine (perm_append_comm.append_right _).trans ?_
  rw [List.append_assoc]
  refine ((identified_ids kept).append_left _).trans ?_
  rw [← map_append]
  exact (perm_append_comm.trans (filter_append_perm (fun row => (eventOf row).isSome) rows)).map _

theorem normalizeChain_known {value asset chain : String} (named : normalizeChain value asset = .ok chain) :
    chain ≠ "invalid" := by
  unfold normalizeChain at named
  dsimp only at named
  split at named
  · cases named
    decide
  · split at named
    · rename_i found
      cases named
      have known : ∀ entry ∈ chainAliases, entry.2 ≠ "invalid" := by decide
      exact known _ (mem_of_lookup found)
    · cases named

theorem event_ne_fallback (own : eventOf row = some key) : fallbackEventKey other ≠ key := by
  rintro rfl
  unfold eventOf at own
  cases read : canonicalEventKey row with
  | error e => rw [read] at own; cases own
  | ok key =>
    rw [read] at own
    obtain ⟨scope, resolved, made⟩ := bind_ok.1 read
    obtain ⟨chain, named, rest⟩ := bind_ok.1 resolved
    obtain ⟨network, -, built⟩ := bind_ok.1 rest
    rw [pure_ok] at built
    subst built
    have chains : key.chain = chain := by
      dsimp only at made
      split at made
      · unfold CanonicalEventKey.make at made
        split at made
        · cases made
          rfl
        · cases made
      · unfold CanonicalEventKey.make at made
        split at made
        · cases made
          rfl
        · cases made
    have invalid : key.chain = "invalid" := congrArg CanonicalEventKey.chain (Option.some.inj own)
    exact normalizeChain_known named (chains.symm.trans invalid)

theorem eventKeysOf_without (key : CanonicalEventKey) (rows : List ImportRow) :
    eventKeysOf (rows.filter fun row => eventOf row ≠ some key) = (eventKeysOf rows).filter fun other => other ≠ key := by
  have keys : (eventKeysOf rows).Nodup := (sortedBy_perm _ _).nodup_iff.2 (nodup_dedup _)
  have strict : (eventKeysOf rows).Pairwise (·.order < ·.order) := by
    refine sortedBy_strict ?_
    exact (nodup_dedup _).map CanonicalEventKey.order_injective
  refine eq_of_perm_of_strict (·.order) ?_ (sortedBy_pairwise _ _) (strict.sublist filter_sublist)
  refine (perm_ext_iff_of_nodup ((sortedBy_perm _ _).nodup_iff.2 (nodup_dedup _))
    (keys.sublist filter_sublist)).2 fun other => ?_
  simp only [eventKeysOf, mem_sortedBy, mem_dedup, mem_filterMap, mem_filter, decide_eq_true_eq]
  constructor
  · rintro ⟨row, ⟨member, foreign⟩, own⟩
    exact ⟨⟨row, member, own⟩, fun same => foreign (same ▸ own)⟩
  · rintro ⟨⟨row, member, own⟩, apart⟩
    refine ⟨row, ⟨member, fun same => apart ?_⟩, own⟩
    exact Option.some.inj (own.symm.trans same)

theorem rowsOf_without {key other : CanonicalEventKey} (apart : other ≠ key) (rows : List ImportRow) :
    rowsOf other (rows.filter fun row => eventOf row ≠ some key) = rowsOf other rows := by
  unfold rowsOf
  rw [filter_filter]
  refine filter_congr fun row _ => ?_
  by_cases own : eventOf row = some other
  · simp [own, apart]
  · simp [own]

theorem filterMap_keyed {β : Type} {f : CanonicalEventKey → Option β}
    (keyOf : β → CanonicalEventKey) (own : ∀ other b, f other = some b → keyOf b = other) (keys : List CanonicalEventKey) :
    (keys.filterMap f).filter (fun b => keyOf b ≠ key) = (keys.filter fun other => other ≠ key).filterMap f := by
  induction keys with
  | nil => rfl
  | cons other rest ih =>
    cases found : f other with
    | none =>
      rw [filterMap_cons_none found, ih]
      by_cases same : other = key
      · rw [filter_cons_of_neg (by simp [same])]
      · rw [filter_cons_of_pos (by simp [same]), filterMap_cons_none found]
    | some b =>
      rw [filterMap_cons_some found]
      by_cases same : other = key
      · rw [filter_cons_of_neg (by simp [own other b found, same]), filter_cons_of_neg (by simp [same]), ih]
      · rw [filter_cons_of_pos (by simp [own other b found, same]), filter_cons_of_pos (by simp [same]),
          filterMap_cons_some found, ih]

theorem judgeEvent_issue_key {issue : CanonicalEventIssue}
    (refused : judgeEvent sha256 reconciliations key rows = .error issue) : issue.eventKey = key := by
  unfold judgeEvent at refused
  split at refused
  · cases refused
    rfl
  · split at refused
    · cases refused
      rfl
    · split at refused
      · cases refused
        rfl
      · cases refused

theorem acceptedEvents_without (key : CanonicalEventKey) (rows : List ImportRow) :
    (acceptedEvents sha256 reconciliations rows).filter (fun event => event.eventKey ≠ key) =
      acceptedEvents sha256 reconciliations (rows.filter fun row => eventOf row ≠ some key) := by
  unfold acceptedEvents
  rw [eventKeysOf_without, filterMap_keyed CanonicalQuantityEvent.eventKey]
  · refine filterMap_congr fun other member => ?_
    rw [rowsOf_without (of_decide_eq_true (mem_filter.1 member).2)]
  · intro other event found
    cases outcome : judgeEvent sha256 reconciliations other (rowsOf other rows) with
    | error issue => rw [outcome] at found; cases found
    | ok own =>
      rw [outcome] at found
      cases found
      exact judgeEvent_key sha256 outcome

theorem refusedIssues_without (key : CanonicalEventKey) (rows : List ImportRow) :
    (refusedIssues sha256 reconciliations rows).filter (fun issue => issue.eventKey ≠ key) =
      refusedIssues sha256 reconciliations (rows.filter fun row => eventOf row ≠ some key) := by
  unfold refusedIssues
  rw [eventKeysOf_without, filterMap_keyed CanonicalEventIssue.eventKey]
  · refine filterMap_congr fun other member => ?_
    rw [rowsOf_without (of_decide_eq_true (mem_filter.1 member).2)]
  · intro other issue found
    cases outcome : judgeEvent sha256 reconciliations other (rowsOf other rows) with
    | error own =>
      rw [outcome] at found
      cases found
      exact judgeEvent_issue_key outcome
    | ok event => rw [outcome] at found; cases found

theorem unidentifiedIssues_without (known : eventOf own = some key) (rows : List ImportRow) :
    (unidentifiedIssues rows).filter (fun issue => issue.eventKey ≠ key) =
      unidentifiedIssues (rows.filter fun row => eventOf row ≠ some key) := by
  unfold unidentifiedIssues
  induction rows with
  | nil => rfl
  | cons row rest ih =>
    cases read : canonicalEventKey row with
    | ok found =>
      rw [filterMap_cons_none (by rw [read]), ih]
      by_cases same : eventOf row = some key
      · rw [filter_cons_of_neg (by simp [same])]
      · rw [filter_cons_of_pos (by simp [same]), filterMap_cons_none (by rw [read])]
    | error e =>
      have missing : eventOf row ≠ some key := by simp [eventOf, read, Except.toOption]
      have apart : fallbackEventKey row ≠ key := event_ne_fallback known
      rw [filterMap_cons_some (by rw [read]), filter_cons_of_pos (by simp [apart]), ih]
      rw [filter_cons_of_pos (by simp [missing]), filterMap_cons_some (by rw [read])]

theorem build_without (nonEvents : List String) (known : eventOf own = some key) :
    (buildCanonicalQuantityInput sha256 rows reconciliations nonEvents).events.filter (fun event => event.eventKey ≠ key) =
        (buildCanonicalQuantityInput sha256 (rows.filter fun row => eventOf row ≠ some key) reconciliations
          nonEvents).events ∧
      (buildCanonicalQuantityInput sha256 rows reconciliations nonEvents).rejectedEvents.filter
          (fun issue => issue.eventKey ≠ key) =
        (buildCanonicalQuantityInput sha256 (rows.filter fun row => eventOf row ≠ some key) reconciliations
          nonEvents).rejectedEvents := by
  have kept : (rows.filter fun row => eventOf row ≠ some key).filter (fun row => row.id ∉ nonEvents) =
      (rows.filter fun row => row.id ∉ nonEvents).filter fun row => eventOf row ≠ some key := by
    rw [filter_filter, filter_filter]
    exact filter_congr fun row _ => Bool.and_comm _ _
  rw [build_events, build_events, build_issues, build_issues, kept]
  refine ⟨acceptedEvents_without key _, ?_⟩
  rw [sortedBy_filter issueOrder_injective, filter_append, unidentifiedIssues_without known, refusedIssues_without]

theorem accepted_event_legs {event : CanonicalQuantityEvent} (accepted : event ∈ acceptedEvents sha256 reconciliations rows) :
    (event.legs.map (·.slot)).Nodup ∧
      ∀ entry ∈ event.observationAliases, ∃ leg ∈ event.legs, leg.quantityHash = entry.2 := by
  obtain ⟨key, -, judged⟩ := mem_filterMap.1 accepted
  cases outcome : judgeEvent sha256 reconciliations key (rowsOf key rows) with
  | error issue => rw [outcome] at judged; cases judged
  | ok own =>
    rw [outcome] at judged
    cases judged
    unfold judgeEvent at outcome
    split at outcome
    · cases outcome
    · split at outcome
      · cases outcome
      · split at outcome
        · cases outcome
        · cases outcome
          exact ⟨legsOf_distinct, fun entry member => aliasesOf_leg member⟩

end

/-- What canonicalization makes of a batch: a partition of its rows into isolated events, in any order. -/
structure Canonicalizes (sha256 : String → String) (rows : List ImportRow) (reconciliations : Reconciliations)
    (nonEvents : List String) : Prop where
  partition : ((buildCanonicalQuantityInput sha256 rows reconciliations nonEvents).aliases.map fst ++
    (buildCanonicalQuantityInput sha256 rows reconciliations nonEvents).rejectedEvents.flatMap (·.transactionIds)).Perm
    ((rows.filter fun row => row.id ∉ nonEvents).map (·.id))
  legs : ∀ event ∈ (buildCanonicalQuantityInput sha256 rows reconciliations nonEvents).events,
    (event.legs.map (·.slot)).Nodup ∧
      ∀ entry ∈ event.observationAliases, ∃ leg ∈ event.legs, leg.quantityHash = entry.2
  order : ∀ rows' : List ImportRow, rows.Perm rows' →
    buildCanonicalQuantityInput sha256 rows' reconciliations nonEvents =
      buildCanonicalQuantityInput sha256 rows reconciliations nonEvents
  isolated : ∀ row ∈ rows, ∀ key, eventOf row = some key →
    (buildCanonicalQuantityInput sha256 rows reconciliations nonEvents).events.filter (fun event => event.eventKey ≠ key) =
        (buildCanonicalQuantityInput sha256 (rows.filter fun row => eventOf row ≠ some key) reconciliations
          nonEvents).events ∧
      (buildCanonicalQuantityInput sha256 rows reconciliations nonEvents).rejectedEvents.filter
          (fun issue => issue.eventKey ≠ key) =
        (buildCanonicalQuantityInput sha256 (rows.filter fun row => eventOf row ≠ some key) reconciliations
          nonEvents).rejectedEvents

theorem rows_canonicalized (sha256 : String → String) (batch : ImportRows) (reconciliations : Reconciliations)
    (nonEvents : List String) (collisionless : Collisionless sha256 reconciliations batch.rows) :
    Canonicalizes sha256 batch.rows reconciliations nonEvents where
  partition := build_ids nonEvents batch.distinct
  legs _ accepted := accepted_event_legs accepted
  order _ perm := (build_perm nonEvents perm batch.distinct collisionless).symm
  isolated _ _ _ known := build_without nonEvents known

/-- Two imports of one spend make one event, in either order. -/
theorem rows_canonicalized_repeat :
    Collisionless sampleSha.digest [] (sampleRepeated 0).rows ∧
      Canonicalizes sampleSha.digest (sampleRepeated 0).rows [] [] := by
  have collisionless : Collisionless sampleSha.digest [] (sampleRepeated 0).rows := by
    intro key row member other member' _
    have same : ∀ x ∈ (sampleRepeated 0).rows, detailDocument [] key x = detailDocument [] key (sampleSpent 0) := by
      intro x inside
      rcases mem_cons.1 inside with rfl | later
      · rfl
      · rw [mem_singleton.1 later]
        rfl
    rw [same row member, same other member']
  exact ⟨collisionless, rows_canonicalized sampleSha.digest (sampleRepeated 0) [] [] collisionless⟩

end Kassiber.Custody

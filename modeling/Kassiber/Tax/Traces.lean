import Kassiber.Tax.Contract

/-!
What becomes of an observation between custody and tax: it is booked under its anchor, or a quarantine
names it.
-/

namespace Kassiber.Tax
open Custody Lib.Outcome Lib.Dict Lib.Sorting Lib.Tiling List
open Prod (fst)

/-- The projection books the transaction of the observation or says why not. -/
def Traced (p : FinalizedTaxProjection) (o : QuantityObservation) : Prop :=
  (∃ row ∈ p.rows, row.journalTransactionId = o.anchorTransactionId) ∨
    ∃ item ∈ p.quarantines, item.transactionId = o.anchorTransactionId

/-- Everything in the receipt is the target of a move that is not eligible. -/
def Stranded (s : CanonicalQuantityState) (o : QuantityObservation) : Prop :=
  Tiles 0 ((targetsOn s.projection.decisions o.quantityHash).map QuantitySlice.range) o.principalMsat ∧
    ∀ d, Locates s d → (∃ t ∈ d.target, t.2 = o) → ¬∃ e ∈ s.taxEligibility.eligibleDecisions, e.source = d.decision.source

def CarriedFee (args : TaxArguments) (s : CanonicalQuantityState) (d : Located) : Prop :=
  d.decision.destinationKind = some .fee ∧ ∃ e, Passes args s e ∧ e.move ≠ none ∧ e.order < d.order ∧
    pairBundle e.decision ≠ none ∧ pairBundle e.decision = pairBundle d.decision

def Keyed (quarantines : Quarantines) : Prop := ∀ entry ∈ quarantines, entry.2.transactionId = entry.1.1

theorem setDefault_keyed {quarantines : Quarantines} (keyed : Keyed quarantines) {key : String × String} {value : Quarantine}
    (named : value.transactionId = key.1) : Keyed (quarantines.setDefault key value) := by
  unfold Quarantines.setDefault
  split
  · exact keyed
  · intro entry member
    rcases mem_append.1 member with old | new
    · exact keyed entry old
    · cases mem_singleton.1 new
      exact named

theorem basisBarrier_keyed (ctx : TaxContext) {quarantines : Quarantines} (keyed : Keyed quarantines)
    (o : QuantityObservation) : Keyed (quarantineBasisBarrier ctx quarantines o) := by
  unfold quarantineBasisBarrier
  split
  · exact keyed
  · exact setDefault_keyed keyed rfl

theorem loopStep_keyed {ctx : TaxContext} {st : LoopState} (keyed : Keyed st.quarantines) (d : Located) :
    Keyed (loopStep ctx st d).quarantines := by
  unfold loopStep
  cases branch ctx d with
  | blocked | retained | nonEvent | external | payout _ _ _ | move _ _ => exact keyed
  | held => exact basisBarrier_keyed ctx keyed d.source
  | unpriced payout => exact setDefault_keyed keyed rfl
  | fee =>
    dsimp only
    split <;> exact keyed

theorem walk_keyed (ctx : TaxContext) (ds : List Located) :
    Keyed (ds.foldl (loopStep ctx) (initialLoop ctx)).quarantines := by
  refine foldl_prefix (fun _ (st : LoopState) => Keyed st.quarantines) ?_ fun _ d _ st _ keyed => loopStep_keyed keyed d
  intro entry member
  rcases mem_append.1 member with interpreted | dependent
  · obtain ⟨item, -, rfl⟩ := mem_map.1 interpreted
    rfl
  · obtain ⟨id, -, rfl⟩ := mem_map.1 dependent
    rfl

section
variable (ctx : TaxContext)

theorem quarantineIssues_keys (quarantines : Quarantines) (group : (String × String) × List QuantityIssue) :
    (∀ k ∈ quarantines.map fst, k ∈ (quarantineIssues ctx quarantines group).map fst) ∧
      (group.2 ≠ [] → group.1 ∈ (quarantineIssues ctx quarantines group).map fst) := by
  unfold quarantineIssues
  split
  · rename_i missing
    refine ⟨fun _ member => member, ?_⟩
    intro some_
    unfold issueDetail at missing
    have empty := List.head?_eq_none_iff.1 (Option.map_eq_none_iff.1 missing)
    have none : group.2 = [] := (empty ▸ sortedBy_perm _ group.2).nil_eq.symm
    exact absurd none some_
  · refine ⟨fun k member => (setDefault_keys _ _ _ _).2 (.inl member), ?_⟩
    exact fun _ => (setDefault_keys _ _ _ _).2 (.inr rfl)

theorem quarantineIssues_keyed {quarantines : Quarantines} (keyed : Keyed quarantines)
    (group : (String × String) × List QuantityIssue) : Keyed (quarantineIssues ctx quarantines group) := by
  unfold quarantineIssues
  split
  · exact keyed
  · exact setDefault_keyed keyed rfl

theorem quarantineReceipt_keys (projected : List TaxRow) (before quarantines : Quarantines) (o : QuantityObservation) :
    (∀ k ∈ quarantines.map fst, k ∈ (quarantineReceipt ctx projected before quarantines o).map fst) ∧
      (ctx.args.hasRow o.anchorTransactionId = true → o.anchorTransactionId ∉ projected.map (·.journalTransactionId) →
        o.anchorTransactionId ∉ (before.map fun entry => entry.1.1) →
        ∃ reason, (o.anchorTransactionId, reason) ∈ (quarantineReceipt ctx projected before quarantines o).map fst) := by
  unfold quarantineReceipt
  split
  · obtain ⟨kept, named⟩ := basisBarrier_keys ctx quarantines o
    exact ⟨kept, fun known _ _ => named known⟩
  · rename_i explained
    exact ⟨fun _ member => member, fun _ unbooked unnamed => absurd ⟨unbooked, unnamed⟩ explained⟩

theorem quarantineReceipt_keyed {projected : List TaxRow} {before quarantines : Quarantines} (keyed : Keyed quarantines)
    (o : QuantityObservation) : Keyed (quarantineReceipt ctx projected before quarantines o) := by
  unfold quarantineReceipt
  split
  · exact basisBarrier_keyed ctx keyed o
  · exact keyed

theorem issue_grouped {issue : QuantityIssue} (listed : issue ∈ ownIssues ctx.state) {id : String}
    (named : id ∈ issue.transactionIds) (known : ctx.args.hasRow id = true) :
    ∃ group ∈ issuesByQuarantine ctx, group.1.1 = id ∧ group.2 ≠ [] := by
  unfold issuesByQuarantine
  have entry : ((id, issueQuarantineReason issue), issue) ∈ (ownIssues ctx.state).flatMap fun issue =>
      (issue.transactionIds.filter fun id => ctx.args.hasRow id).map fun id => ((id, issueQuarantineReason issue), issue) :=
    mem_flatMap.2 ⟨issue, listed, mem_map.2 ⟨id, mem_filter.2 ⟨named, known⟩, rfl⟩⟩
  revert entry
  generalize (ownIssues ctx.state).flatMap (fun issue => (issue.transactionIds.filter fun id => ctx.args.hasRow id).map
    fun id => ((id, issueQuarantineReason issue), issue)) = entries
  intro entry
  obtain ⟨-, members, keys⟩ := groupBy_grouping fst entries
  obtain ⟨group, stored, same⟩ := mem_map.1 ((keys _).2 (mem_map.2 ⟨_, entry, rfl⟩))
  refine ⟨_, mem_map.2 ⟨group, mem_sortedBy.2 stored, rfl⟩, by rw [same], ?_⟩
  have inside : ((id, issueQuarantineReason issue), issue) ∈ group.2 := by
    rw [members group stored]
    exact mem_filter.2 ⟨entry, decide_eq_true same.symm⟩
  intro empty
  rw [map_eq_nil_iff.1 empty] at inside
  cases inside

structure Settles (ctx : TaxContext) (walked : LoopState) (rows : List TaxRow) (final : Quarantines) : Prop where
  keyed : Keyed final
  kept : ∀ k ∈ walked.quarantines.map fst, k ∈ final.map fst
  issues : ∀ group ∈ issuesByQuarantine ctx, group.2 ≠ [] → group.1 ∈ final.map fst
  receipts : ∀ o ∈ receipts ctx, ctx.barred o = true → ctx.args.hasRow o.anchorTransactionId = true →
    o.anchorTransactionId ∈ rows.map (·.journalTransactionId) ∨ ∃ reason, (o.anchorTransactionId, reason) ∈ final.map fst

theorem finalQuarantines_settles (walked : LoopState) (keyed : Keyed walked.quarantines) (rows : List TaxRow) :
    Settles ctx walked rows (finalQuarantines ctx walked rows) := by
  unfold finalQuarantines
  generalize explaining : (issuesByQuarantine ctx).foldl (quarantineIssues ctx) walked.quarantines = explained
  have first : Keyed explained ∧ (∀ k ∈ walked.quarantines.map fst, k ∈ explained.map fst) ∧
      ∀ group ∈ issuesByQuarantine ctx, group.2 ≠ [] → group.1 ∈ explained.map fst := by
    rw [← explaining]
    refine foldl_prefix (fun (before : List ((String × String) × List QuantityIssue)) (q : Quarantines) => Keyed q ∧
      (∀ k ∈ walked.quarantines.map fst, k ∈ q.map fst) ∧
      ∀ group ∈ before, group.2 ≠ [] → group.1 ∈ q.map fst) ?_ ?_
    · exact ⟨keyed, fun _ member => member, by simp⟩
    · rintro before group after q - ⟨keyed, kept, named⟩
      obtain ⟨grown, own⟩ := quarantineIssues_keys ctx q group
      refine ⟨quarantineIssues_keyed ctx keyed group, fun k member => grown k (kept k member), ?_⟩
      intro g member some_
      rcases mem_append.1 member with early | last
      · exact grown _ (named g early some_)
      · cases mem_singleton.1 last
        exact own some_
  obtain ⟨keyed', kept, issues⟩ := first
  have second : Keyed (((receipts ctx).filter fun o => ctx.barred o).foldl (quarantineReceipt ctx rows explained) explained) ∧
      (∀ k ∈ explained.map fst,
        k ∈ (((receipts ctx).filter fun o => ctx.barred o).foldl (quarantineReceipt ctx rows explained) explained).map
          fst) ∧
      ∀ o ∈ (receipts ctx).filter (fun o => ctx.barred o), ctx.args.hasRow o.anchorTransactionId = true →
        o.anchorTransactionId ∈ rows.map (·.journalTransactionId) ∨ ∃ reason, (o.anchorTransactionId, reason) ∈
          (((receipts ctx).filter fun o => ctx.barred o).foldl (quarantineReceipt ctx rows explained) explained).map
            fst := by
    refine foldl_prefix (fun (before : List QuantityObservation) (q : Quarantines) => Keyed q ∧
      (∀ k ∈ explained.map fst, k ∈ q.map fst) ∧
      ∀ o ∈ before, ctx.args.hasRow o.anchorTransactionId = true →
        o.anchorTransactionId ∈ rows.map (·.journalTransactionId) ∨
          ∃ reason, (o.anchorTransactionId, reason) ∈ q.map fst) ?_ ?_
    · exact ⟨keyed', fun _ member => member, by simp⟩
    · rintro before o after q - ⟨keyed, kept, named⟩
      obtain ⟨grown, own⟩ := quarantineReceipt_keys ctx rows explained q o
      refine ⟨quarantineReceipt_keyed ctx keyed o, fun k member => grown k (kept k member), ?_⟩
      intro g member known
      rcases mem_append.1 member with early | last
      · rcases named g early known with booked | ⟨reason, stored⟩
        · exact .inl booked
        · exact .inr ⟨reason, grown _ stored⟩
      · cases mem_singleton.1 last
        by_cases booked : o.anchorTransactionId ∈ rows.map (·.journalTransactionId)
        · exact .inl booked
        · by_cases explained_ : o.anchorTransactionId ∈ explained.map fun entry => entry.1.1
          · obtain ⟨entry, stored, same⟩ := mem_map.1 explained_
            refine .inr ⟨entry.1.2, grown _ (kept _ ?_)⟩
            exact mem_map.2 ⟨entry, stored, Prod.ext same rfl⟩
          · exact .inr (own known booked explained_)
  obtain ⟨keyed'', grown, held⟩ := second
  refine ⟨keyed'', fun k member => grown k (kept k member), fun g member some_ => grown _ (issues g member some_), ?_⟩
  intro o member barred known
  exact held o (mem_filter.2 ⟨member, barred⟩) known

end

section
variable {args : TaxArguments} {s : CanonicalQuantityState} (coherent : Coherent s) {ds : List Located} (line : Line s ds)
include coherent line

variable {d : Located}

omit coherent line in
theorem move_of_targeted (shaped : Shaped d.decision) {t : QuantitySlice × QuantityObservation}
    (aimed : d.target = some t) (sliced : d.decision.target = some t.1) : d.move = some t := by
  unfold Located.move
  rw [if_pos (shaped.targeted (by rw [sliced]; simp)), aimed]

omit coherent in
theorem blocked_together (member : d ∈ ds) {t : QuantitySlice × QuantityObservation}
    (aimed : d.target = some t) :
    PathBlocked args s d.source.anchorTransactionId ↔ PathBlocked args s t.2.anchorTransactionId := by
  have placed := line.placed d member
  have moved := move_of_targeted placed.shaped aimed (placed.target t.1 t.2 aimed).1
  have locates := line.locates member
  constructor
  · rintro ⟨root, rooted, path⟩
    exact ⟨root, rooted, path.tail ⟨d, locates, t, moved, .inl ⟨rfl, rfl⟩⟩⟩
  · rintro ⟨root, rooted, path⟩
    exact ⟨root, rooted, path.tail ⟨d, locates, t, moved, .inr ⟨rfl, rfl⟩⟩⟩

theorem dependency_named {id : String} (path : PathBlocked args s id) (free : id ∉ args.explicitlyBlocked)
    (known : args.hasRow id = true) :
    (id, "transfer_pair_dependency_blocked") ∈ (initialLoop (contextOf args s ds)).quarantines.map fst := by
  have reached : (contextOf args s ds).blocked id := (blocked_iff coherent line args).2 path
  obtain ⟨root, rooted, steps⟩ := path
  have joined : ∃ other, Joined s other id := by
    rcases Relation.ReflTransGen.cases_tail steps with same | ⟨other, -, last⟩
    · exact absurd (same ▸ rooted) free
    · exact ⟨other, last⟩
  obtain ⟨other, d, locates, t, moved, ends⟩ := joined
  have edge : (d.source.anchorTransactionId, t.2.anchorTransactionId) ∈ moveEdges ds :=
    mem_moveEdges.2 ⟨d, (line.mem_iff coherent).2 locates, t, moved, rfl, rfl⟩
  have anchor : id ∈ moveAnchors (moveEdges ds) := by
    unfold moveAnchors
    rw [mem_sortedSet, mem_append]
    rcases ends with ⟨-, right⟩ | ⟨left, -⟩
    · exact .inr (mem_map.2 ⟨_, edge, right⟩)
    · exact .inl (mem_map.2 ⟨_, edge, left⟩)
  refine mem_map.2 ⟨_, mem_append_right _ (mem_map.2 ⟨id, mem_filter.2 ⟨anchor, ?_⟩, rfl⟩), rfl⟩
  exact decide_eq_true ⟨reached, free, known⟩

theorem eligible_decided (member : d ∈ ds)
    (eligible : ∃ e ∈ s.taxEligibility.eligibleDecisions, e.source = d.decision.source) : d.decision.finalized = true := by
  obtain ⟨rowsById, judged⟩ := coherent.judged
  obtain ⟨e, listed, same⟩ := eligible
  obtain ⟨decided, finalized, -⟩ := (mem_eligibleDecisions judged).1 listed
  have equal : e = d.decision := inj_on_of_nodup_map (starts_distinct coherent) decided
    (line.locates member).decided (by rw [same])
  exact equal ▸ finalized

theorem retained_kind (member : d ∈ ds) (passes : Passes args s d) (still : d.move = none) (kept : ¬Leaves d.decision) :
    d.decision.destinationKind = some .retainedCustody := by
  have finalized := of_decide_eq_true (eligible_decided coherent line member passes.eligible)
  have internal : d.decision.state ∈ QuantityState.targetStates := by
    unfold Leaves at kept
    cases state : d.decision.state <;> rw [state] at finalized kept <;>
      simp_all [QuantityState.finalizedStates, QuantityState.targetStates]
  unfold Located.move at still
  rw [if_pos internal] at still
  have placed := line.placed d member
  exact placed.shaped.kept internal (placed.untargeted still)

theorem source_traced (member : d ∈ ds) (known : args.hasRow d.source.anchorTransactionId = true)
    (event : d.source.anchorTransactionId ∉ args.nonEvents) (free : d.source.anchorTransactionId ∉ args.explicitlyBlocked)
    (leaves : d.decision.destinationKind ≠ some .retainedCustody) (own : ¬CarriedFee args s d) {st : LoopState}
    (walked : Walked (contextOf args s ds) ds st) :
    (∃ row ∈ st.rows, row.journalTransactionId = d.source.anchorTransactionId) ∨
      ∃ reason, (d.source.anchorTransactionId, reason) ∈ st.quarantines.map fst := by
  have placed := line.placed d member
  have booked : ∀ row ∈ emitted (contextOf args s ds) d, row.journalTransactionId = d.source.anchorTransactionId →
      ∃ row ∈ st.rows, row.journalTransactionId = d.source.anchorTransactionId := by
    intro row emits same
    refine ⟨row, ?_, same⟩
    rw [walked.rows]
    exact mem_flatMap.2 ⟨d, member, emits⟩
  have takes := branch_takes (contextOf args s ds) d
  generalize at_ : branch (contextOf args s ds) d = b at takes
  cases takes with
  | blocked broken =>
    have path : PathBlocked args s d.source.anchorTransactionId := by
      by_contra open_
      refine broken ⟨fun blocked => open_ ((blocked_iff coherent line args).1 blocked), ?_⟩
      intro t aimed blocked
      exact open_ ((blocked_together line member aimed).2 ((blocked_iff coherent line args).1 blocked))
    exact .inr ⟨_, walked.initial _ (dependency_named coherent line path free known)⟩
  | held => exact .inr (walked.held d member at_ known)
  | move => exact .inl (booked (moveOut (contextOf args s ds) d) (by simp [emitted, at_]) rfl)
  | nonEvent _ _ _ silent => exact absurd silent event
  | fee _ _ fee =>
    have unfolded : ¬Folded (contextOf args s ds) d := fun folded =>
      own ⟨fee, (folded_iff args coherent line).1 folded⟩
    exact .inl (booked _ (by simp only [emitted, at_, if_neg unfolded]; exact mem_singleton.2 rfl) rfl)
  | unpriced => exact .inr (walked.unpriced d member _ at_)
  | payout => exact .inl (booked _ (by simp only [emitted, at_]; exact mem_cons_self) rfl)
  | external =>
    refine .inl (booked (externalRow _ d _) (by simp only [emitted, at_]; exact mem_singleton.2 rfl) ?_)
    unfold externalRow
    split <;> rfl
  | retained due kept =>
    refine absurd ?_ leaves
    exact retained_kind coherent line member ((passes_iff args coherent line member).2 ⟨due.clear, due.eligible⟩) due.still kept

theorem compiled_traces (found : locatedDecisions s = .ok ds) {p : FinalizedTaxProjection}
    (run : compileFinalizedTaxProjection args s = .ok p) : ∃ st, Walked (contextOf args s ds) ds st ∧
      (∀ row ∈ st.rows, row ∈ p.rows) ∧
      (∀ o ∈ receipts (contextOf args s ds), (contextOf args s ds).barred o = false →
        o.anchorTransactionId ∉ blockedAnchorIds s → ¬PathBlocked args s o.anchorTransactionId →
        ¬Tiles 0 ((targetsOn s.projection.decisions o.quantityHash).map QuantitySlice.range) o.principalMsat →
        ∃ row ∈ p.rows, row.journalTransactionId = o.anchorTransactionId) ∧
      ∃ final, Settles (contextOf args s ds) st p.rows final ∧
        ∀ key ∈ final.map fst, ∃ item ∈ p.quarantines, item.transactionId = key.1 := by
  obtain ⟨rows, projected, rfl, -⟩ := (compile_run args found).1 run
  obtain ⟨slicesOf, booked, gathered, listed, owned⟩ := projectedRows_spec args coherent line
    (ds.foldl (loopStep (contextOf args s ds)) (initialLoop (contextOf args s ds)))
  cases projected.symm.trans listed
  have settles := finalQuarantines_settles (contextOf args s ds) _ (walk_keyed (contextOf args s ds) ds)
    (booked ++ feeOnlyRows (contextOf args s ds) booked)
  refine ⟨_, walk_final args line, ?_, ?_, _, ⟨settles.keyed, settles.kept, settles.issues, ?_⟩, ?_⟩
  · intro row member
    refine mem_sortedBy.2 ?_
    rw [gathered]
    exact mem_append_left _ (mem_append_left _ member)
  · intro o receipt open_ unnamed free room
    have observed : o ∈ s.canonicalInput.observations := by
      have stored : o ∈ s.projection.observations := mem_sortedBy.1 (mem_filter.1 receipt).1
      rw [coherent.observed] at stored
      exact mem_sortedBy.1 stored
    obtain ⟨slice, sliced⟩ : ∃ slice, slice ∈ slicesOf o := by
      refine exists_mem_of_ne_nil _ ?_
      intro none
      have parts := (owned o receipt).2.2 open_ unnamed free
      rw [none, map_nil, append_nil] at parts
      exact room (tiles_of_sum (targets_spaced coherent.settled observed) (partitions_sum parts))
    refine ⟨projectedSliceRow args.rowsById o slice "inbound" 0, mem_sortedBy.2 (mem_append_left _ ?_), rfl⟩
    rw [gathered]
    exact mem_append_right _ (mem_flatMap.2 ⟨o, receipt, mem_map.2 ⟨slice, sliced, rfl⟩⟩)
  · intro o receipt barred known
    rcases settles.receipts o receipt barred known with inside | named
    · exact .inl (((sortedBy_perm _ _).map _).mem_iff.2 inside)
    · exact .inr named
  · intro key member
    obtain ⟨value, read⟩ := Option.isSome_iff_exists.1 (lookup_isSome.2 member)
    refine ⟨value, mem_sortedBy.2 (mem_map.2 ⟨_, mem_items.2 read, rfl⟩), ?_⟩
    exact settles.keyed _ (mem_of_lookup read)

end

/-- Nothing vanishes between custody and tax, save fees carried elsewhere and receipts of moves that are held. -/
theorem observations_traced {host : Host} {input : RuntimeInput} {s : CanonicalQuantityState}
    (built : buildCanonicalQuantityState host input = .ok s) {args : TaxArguments} {p : FinalizedTaxProjection}
    (run : compileFinalizedTaxProjection args s = .ok p)
    (supplied : ∀ issue ∈ s.issues, issue.issueType = .custodyInterpreterBlocked → ∀ id ∈ issue.transactionIds,
      ∃ item ∈ args.interpreterQuarantines, item.transactionId = id)
    {o : QuantityObservation} (observed : o ∈ s.canonicalInput.observations)
    (known : args.hasRow o.anchorTransactionId = true) (event : o.anchorTransactionId ∉ args.nonEvents)
    (free : o.anchorTransactionId ∉ args.explicitlyBlocked) :
    (o.direction = .inbound → args.hasRow o.transactionId = true → ¬Stranded s o → Traced p o) ∧
    (o.direction = .outbound → 0 < o.principalMsat →
      (∃ d, Locates s d ∧ d.source = o ∧ d.decision.destinationKind ≠ some .retainedCustody ∧ ¬CarriedFee args s d) →
      Traced p o) := by
  have coherent := build_coherent built
  obtain ⟨ds, found, line⟩ := locatedDecisions_line coherent
  obtain ⟨st, walked, rows, receipts_, final, settles, listed⟩ := compiled_traces coherent line found run
  have quarantined : ∀ {reason}, (o.anchorTransactionId, reason) ∈ final.map fst → Traced p o := by
    intro reason member
    obtain ⟨item, inside, same⟩ := listed _ member
    exact Or.inr ⟨item, inside, same⟩
  refine ⟨?_, ?_⟩
  · intro inbound row reached
    have receipt : o ∈ receipts (contextOf args s ds) := by
      refine mem_filter.2 ⟨mem_sortedBy.2 ?_, decide_eq_true ⟨inbound, row, event⟩⟩
      show o ∈ s.projection.observations
      rw [coherent.observed]
      exact mem_sortedBy.2 observed
    by_cases path : PathBlocked args s o.anchorTransactionId
    · exact quarantined (settles.kept _ (walked.initial _ (dependency_named coherent line path free known)))
    cases barred : (contextOf args s ds).barred o with
    | true =>
      rcases settles.receipts o receipt barred known with booked | ⟨reason, named⟩
      · obtain ⟨row, inside, same⟩ := mem_map.1 booked
        exact Or.inl ⟨row, inside, same⟩
      · exact quarantined named
    | false =>
      by_cases named : o.anchorTransactionId ∈ blockedAnchorIds s
      · obtain ⟨issue, listed', names⟩ := mem_flatMap.1 named
        obtain ⟨present, blocking⟩ := mem_filter.1 listed'
        by_cases interpreted : issue.issueType = .custodyInterpreterBlocked
        · obtain ⟨item, given, same⟩ := supplied issue present interpreted _ names
          have kept : o.anchorTransactionId ≠ "" := by
            have valid := coherent.settled.good.valid o observed
            simp only [QuantityObservation.Valid, QuantityObservation.validate, bind_unit_ok, raiseIf_ok, not_or] at valid
            exact valid.1.2.1
          refine @quarantined (orElse item.reason "custody_interpreter_blocked")
            (settles.kept _ (walked.initial _ ?_))
          refine mem_map.2 ⟨_, mem_append_left _ (mem_map.2 ⟨item, mem_filter.2 ⟨given, ?_⟩,
            rfl⟩), by rw [same]⟩
          rw [same]
          exact decide_eq_true kept
        · have own : issue ∈ ownIssues s := mem_filter.2 ⟨present, decide_eq_true interpreted⟩
          obtain ⟨group, grouped, key, some_⟩ := issue_grouped (contextOf args s ds) own names known
          refine @quarantined group.1.2 ?_
          rw [← key]
          exact settles.issues group grouped some_
      · by_cases full : Tiles 0 ((targetsOn s.projection.decisions o.quantityHash).map QuantitySlice.range) o.principalMsat
        · have moved : ∃ d, Locates s d ∧ (∃ t ∈ d.target, t.2 = o) ∧
              ∃ e ∈ s.taxEligibility.eligibleDecisions, e.source = d.decision.source := by
            by_contra none
            refine reached ⟨full, fun d locates aimed eligible => none ⟨d, locates, aimed, eligible⟩⟩
          obtain ⟨d, locates, ⟨t, aimed, rfl⟩, eligible⟩ := moved
          have member := (line.mem_iff coherent).2 locates
          have placed := line.placed d member
          have open_ : ¬PathBlocked args s d.source.anchorTransactionId := fun blocked =>
            path ((blocked_together line member aimed).1 blocked)
          have passes : Passes args s d := ⟨locates, open_, fun u named => by
            cases aimed.symm.trans named
            exact path, eligible⟩
          obtain ⟨clear, allowed⟩ := (passes_iff args coherent line member).1 passes
          have at_ := branch_iff.2 (Takes.move clear allowed
            (move_of_targeted placed.shaped aimed (placed.target t.1 t.2 aimed).1))
          refine Or.inl ⟨moveIn (contextOf args s ds) t.1 t.2, rows _ ?_, rfl⟩
          rw [walked.rows]
          exact mem_flatMap.2 ⟨d, member, by simp [emitted, at_]⟩
        · obtain ⟨row, inside, same⟩ := receipts_ o receipt barred named path full
          exact Or.inl ⟨row, inside, same⟩
  · rintro - - ⟨d, locates, rfl, leaves, own⟩
    have member := (line.mem_iff coherent).2 locates
    rcases source_traced coherent line member known event free leaves own walked with ⟨row, inside, same⟩ | ⟨reason, named⟩
    · exact Or.inl ⟨row, rows row inside, same⟩
    · exact quarantined (settles.kept _ named)

/-! A reviewed component that moves one payment and books another as its fee. -/

def reviewedMove : QuantityClaim :=
  { claimId := "move", source := sampleSlice 'a' 0 1000 sample_whole, state := .internalReviewed
    priority := .reviewedComponent, reason := "reviewed_custody_component"
    target := some (sampleSlice 'b' 0 1000 sample_whole), atomicBundleId := some "bundle"
    componentId := some "component-1", constructible := by decide }

def reviewedFeeSlice : QuantityClaim :=
  { claimId := "fee", source := sampleSlice 'c' 0 5 (by decide), state := .externalConfirmed
    priority := .reviewedComponent, reason := "reviewed_custody_component", destinationKind := some .fee
    atomicBundleId := some "bundle", componentId := some "component-1", constructible := by decide }

def feeSent : QuantityObservation :=
  { sampleSent with
    transactionId := "fee", anchorTransactionId := "fee", quantityHash := sampleHash 'c', amountMsat := 5, feeMsat := 0 }

def moveReceived : QuantityObservation := { sampleReceived with amountMsat := 1000 }

def carriedInput : CanonicalQuantityInput :=
  { events := [{ eventKey := sampleSent.eventKey, legs := [sampleSent, moveReceived, feeSent], evidenceSnapshots := []
                 sourceTransactionIds := ["sent", "received", "fee"]
                 observationAliases := [("sent", sampleHash 'a'), ("received", sampleHash 'b'), ("fee", sampleHash 'c')] }]
    rejectedEvents := [], distinct := nodup_singleton _ }

def carriedRuntime : RuntimeInput :=
  { rows := [{ id := "sent" }, { id := "received" }, { id := "fee" }], canonicalInput := carriedInput
    gapSearchResult := { accountingCandidates := [], searchComplete := true }
    interpreterClaims := [reviewedMove, reviewedFeeSlice] }

def carriedArguments : TaxArguments :=
  { profile := { id := "profile", workspaceId := "books" }, rows := carriedRuntime.rows }

theorem carried_valid : ValidIndex carriedInput.observations := by
  refine ⟨?_, by decide +kernel⟩
  have sent := sampleSent_valid
  have received : moveReceived.Valid := by
    simp [QuantityObservation.Valid, QuantityObservation.validate, bind_unit_ok, raiseIf_ok, moveReceived, sampleReceived,
      sampleSent, sampleHash_hex]
  have fee : feeSent.Valid := by
    simp [QuantityObservation.Valid, QuantityObservation.validate, bind_unit_ok, raiseIf_ok, feeSent, sampleSent,
      sampleHash_hex]
  simp [CanonicalQuantityInput.observations, carriedInput, sent, received, fee]

theorem carried_compiled : ∃ (s : CanonicalQuantityState) (p : FinalizedTaxProjection),
    buildCanonicalQuantityState sampleHost carriedRuntime = .ok s ∧
    compileFinalizedTaxProjection carriedArguments s = .ok p ∧ s.canonicalInput.observations = carriedInput.observations ∧
    s.issues.isEmpty = true ∧
    (∀ d ∈ s.projection.decisions, d.source ∈ s.taxEligibility.eligibleDecisions.map fun e => e.source) ∧
    s.projection.decisions.map (fun d => (d.source.observationHash, d.destinationKind)) =
      [(sampleHash 'a', none), (sampleHash 'c', some .fee)] ∧
    p.rows.map (fun row => (row.journalTransactionId, row.direction, row.amount, row.fee)) =
      [("sent", .outbound, 1000, 5), ("received", .inbound, 1000, 0)] ∧
    p.quarantines.isEmpty = true := by
  have run : (do
      let s : CanonicalQuantityState ← buildCanonicalQuantityState sampleHost carriedRuntime
      let p : FinalizedTaxProjection ← compileFinalizedTaxProjection carriedArguments s
      pure (decide (s.canonicalInput.observations = carriedInput.observations) && s.issues.isEmpty &&
        decide (∀ d ∈ s.projection.decisions, d.source ∈ s.taxEligibility.eligibleDecisions.map fun e => e.source) &&
        decide (s.projection.decisions.map (fun d => (d.source.observationHash, d.destinationKind)) =
          [(sampleHash 'a', none), (sampleHash 'c', some .fee)]) &&
        decide (p.rows.map (fun row => (row.journalTransactionId, row.direction, row.amount, row.fee)) =
          [("sent", .outbound, 1000, 5), ("received", .inbound, 1000, 0)]) &&
        p.quarantines.isEmpty) : Except PyError Bool).toOption = some true := by
    rw [build_unaudited sampleHost carriedInput (exists_of_isOk (by decide +kernel)) rfl rfl
      (exists_of_isOk (by decide +kernel)) rfl rfl rfl]
    simp only [projectQuantities_indexed carried_valid]
    decide +kernel
  obtain ⟨s, built, run⟩ := bind_ok.1 (ok_of_toOption run)
  obtain ⟨p, compiled, report⟩ := bind_ok.1 run
  simp only [pure_ok, Bool.and_eq_true, decide_eq_true_eq, and_assoc] at report
  exact ⟨s, p, built, compiled, report⟩

theorem locates_of_kind {s : CanonicalQuantityState} (coherent : Coherent s) {o : QuantityObservation}
    (observed : o ∈ s.canonicalInput.observations) {kind : Option DestinationKind}
    (decided : (o.quantityHash, kind) ∈ s.projection.decisions.map fun d => (d.source.observationHash, d.destinationKind)) :
    ∃ d, Locates s d ∧ d.source = o ∧ d.decision.destinationKind = kind := by
  obtain ⟨ds, -, line⟩ := locatedDecisions_line coherent
  obtain ⟨decision, member, same⟩ := mem_map.1 decided
  obtain ⟨hash, rfl⟩ := Prod.mk.inj same
  obtain ⟨d, listed, rfl⟩ := mem_map.1 (line.perm.mem_iff.2 member)
  have locates := line.locates listed
  exact ⟨d, locates, coherent.settled.good.eq_of_hash locates.source observed (locates.hash.trans hash), rfl⟩

theorem observations_traced_payment : ∃ s p, buildCanonicalQuantityState sampleHost carriedRuntime = .ok s ∧
    compileFinalizedTaxProjection carriedArguments s = .ok p ∧ Traced p sampleSent := by
  obtain ⟨s, p, built, compiled, observed, silent, -, decided, -⟩ := carried_compiled
  refine ⟨s, p, built, compiled, ?_⟩
  have member : sampleSent ∈ s.canonicalInput.observations := by
    rw [observed]
    exact .head _
  obtain ⟨d, locates, source, kind⟩ := @locates_of_kind s (build_coherent built) _ member none
    (by rw [decided]; exact mem_cons_self)
  refine (observations_traced built compiled ?_ member (by decide +kernel) (by decide) (by decide)).2 rfl (by decide)
    ⟨d, locates, source, by rw [kind]; simp, ?_⟩
  · intro issue listed
    rw [List.isEmpty_iff.1 silent] at listed
    cases listed
  · rintro ⟨fee, -⟩
    rw [kind] at fee
    cases fee

theorem observations_not_traced :
    ¬∀ host input s args p, (input.rows.map LedgerRow.id).Nodup → args.rows = input.rows →
      buildCanonicalQuantityState host input = .ok s → compileFinalizedTaxProjection args s = .ok p →
      ∀ o ∈ s.canonicalInput.observations, args.hasRow o.anchorTransactionId = true →
        o.anchorTransactionId ∉ args.nonEvents → o.anchorTransactionId ∉ args.explicitlyBlocked →
        (o.direction = .inbound → args.hasRow o.transactionId = true → Traced p o) ∧
        (o.direction = .outbound → 0 < o.principalMsat →
          (∃ d, Locates s d ∧ d.source = o ∧ d.decision.destinationKind ≠ some .retainedCustody) → Traced p o) := by
  intro kept
  obtain ⟨s, p, built, compiled, observed, -, -, decided, rows, quiet⟩ := carried_compiled
  have member : feeSent ∈ s.canonicalInput.observations := by
    rw [observed]
    simp [CanonicalQuantityInput.observations, carriedInput]
  obtain ⟨d, locates, source, kind⟩ := @locates_of_kind s (build_coherent built) _ member (some .fee)
    (by rw [decided]; exact mem_cons_of_mem _ mem_cons_self)
  have traced := (kept sampleHost carriedRuntime s carriedArguments p (by decide) rfl built compiled feeSent member
    (by decide +kernel) (by decide) (by decide)).2 rfl (by decide) ⟨d, locates, source, by rw [kind]; simp⟩
  rcases traced with ⟨row, booked, same⟩ | ⟨item, held, -⟩
  · have listed := mem_map_of_mem (f := fun row : TaxRow =>
      (row.journalTransactionId, row.direction, row.amount, row.fee)) booked
    rw [rows, same] at listed
    simp [feeSent] at listed
  · rw [List.isEmpty_iff.1 quiet] at held
    cases held

end Kassiber.Tax

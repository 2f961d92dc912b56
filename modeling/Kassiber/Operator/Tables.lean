import Kassiber.Operator.Operations

/-!
What the writes to the table of operations leave: each operation is rewritten in place, and one that is
not finished stays retained.
-/

namespace Kassiber.Operator
open List Function Option

def Operation.Same (op op' : Operation) : Prop :=
  op' = { op with
    outputWithheld := op'.outputWithheld, state := op'.state, result := op'.result, outputError := op'.outputError
    retainedResultBytes := op'.retainedResultBytes, cancellationRequested := op'.cancellationRequested }

section
variable {op op' op'' : Operation}

theorem Operation.Same.refl : op.Same op := rfl

theorem Operation.Same.trans (first : op.Same op') (second : op'.Same op'') : op.Same op'' := by
  rw [Operation.Same] at first second ⊢
  rw [first] at second
  exact second

variable (same : op.Same op')
include same

theorem Operation.Same.projectIdentity : op'.projectIdentity = op.projectIdentity :=
  (congrArg Operation.projectIdentity same :)
theorem Operation.Same.epoch : op'.admittedLeaseEpoch = op.admittedLeaseEpoch :=
  (congrArg Operation.admittedLeaseEpoch same :)
theorem Operation.Same.capability : op'.capability = op.capability := (congrArg Operation.capability same :)
theorem Operation.Same.until : op'.adminAuthorizedUntil = op.adminAuthorizedUntil :=
  (congrArg Operation.adminAuthorizedUntil same :)
theorem Operation.Same.agentPid : op'.agentPid = op.agentPid := (congrArg Operation.agentPid same :)

end

/-- An operation lives on: a withheld output and a request to cancel are never taken back. -/
structure Operation.Lasts (op op' : Operation) : Prop where
  same : op.Same op'
  requested : op.cancellationRequested = true → op'.cancellationRequested = true
  withheld : op.outputWithheld = true → op'.outputWithheld = true

theorem Operation.Lasts.refl (op : Operation) : op.Lasts op := ⟨.refl, fun asked => asked, fun hidden => hidden⟩

theorem Operation.Lasts.trans {op op' op'' : Operation} (first : op.Lasts op') (second : op'.Lasts op'') : op.Lasts op'' :=
  ⟨first.same.trans second.same, second.requested ∘ first.requested, second.withheld ∘ first.withheld⟩

/-- An operation is left as it stands, or cancelled while it is queued. -/
structure Operation.Settles (op op' : Operation) : Prop where
  lasts : op.Lasts op'
  state : op'.state = op.state ∧ op'.cancellationRequested = op.cancellationRequested ∨
    op.state = .queued ∧ op'.state = .cancelled ∧ op'.cancellationRequested = true

theorem Operation.Settles.refl (op : Operation) : op.Settles op := ⟨.refl op, .inl ⟨rfl, rfl⟩⟩

theorem Operation.Settles.trans {op op' op'' : Operation} (first : op.Settles op') (second : op'.Settles op'') :
    op.Settles op'' := by
  refine ⟨first.lasts.trans second.lasts, ?_⟩
  rcases first.state with ⟨state, requested⟩ | ⟨queued, cancelled, requested⟩
  · rw [← state, ← requested]
    exact second.state
  · refine .inr ⟨queued, ?_⟩
    rcases second.state with ⟨same, kept⟩ | ⟨impossible, _⟩
    · exact ⟨same.trans cancelled, kept.trans requested⟩
    · rw [cancelled] at impossible
      cases impossible

structure Rewrites (rel : Nat → Operation → Operation → Prop) (table table' : OperationTable) : Prop where
  absent : ∀ ref, table.objects ref = none → table'.objects ref = none
  present : ∀ ref op, table.objects ref = some op → ∃ op', table'.objects ref = some op' ∧ rel ref op op'
  retained : ∀ ref ∈ table'.retained, ref ∈ table.retained
  keeps : ∀ ref op', ref ∈ table.retained → table'.objects ref = some op' → op'.state.terminal = false → ref ∈ table'.retained

section
variable {rel rel' : Nat → Operation → Operation → Prop} {table table' table'' : OperationTable} {ref : Nat} {op' : Operation}

theorem Rewrites.source (rewrites : Rewrites rel table table') (here : table'.objects ref = some op') :
    ∃ op, table.objects ref = some op ∧ rel ref op op' := by
  cases was : table.objects ref with
  | none => rw [rewrites.absent ref was] at here; cases here
  | some op =>
    obtain ⟨found, there, related⟩ := rewrites.present ref op was
    cases there.symm.trans here
    exact ⟨op, rfl, related⟩

theorem Rewrites.refl (reflexive : ∀ ref op, rel ref op op) : Rewrites rel table table :=
  ⟨fun _ => id, fun ref op here => ⟨op, here, reflexive ref op⟩, fun _ => id, fun _ _ member _ _ => member⟩

theorem Rewrites.weaken (rewrites : Rewrites rel table table') (weaker : ∀ ref op op', rel ref op op' → rel' ref op op') :
    Rewrites rel' table table' where
  absent := rewrites.absent
  present ref op here := by
    obtain ⟨op', there, related⟩ := rewrites.present ref op here
    exact ⟨op', there, weaker ref op op' related⟩
  retained := rewrites.retained
  keeps := rewrites.keeps

theorem Rewrites.trans (first : Rewrites rel table table') (second : Rewrites rel' table' table'')
    (unfinished : ∀ ref op op', rel' ref op op' → op'.state.terminal = false → op.state.terminal = false) :
    Rewrites (fun ref op op'' => ∃ op', rel ref op op' ∧ rel' ref op' op'') table table'' where
  absent ref missing := second.absent ref (first.absent ref missing)
  present ref op here := by
    obtain ⟨op', there, one⟩ := first.present ref op here
    obtain ⟨op'', last, two⟩ := second.present ref op' there
    exact ⟨op'', last, op', one, two⟩
  retained ref member := first.retained ref (second.retained ref member)
  keeps ref op'' member last open_ := by
    obtain ⟨op', there, related⟩ := second.source last
    exact second.keeps ref op'' (first.keeps ref op' member there (unfinished ref op' op'' related open_)) last open_

end

namespace OperationTable
variable {table : OperationTable} {setting : Setting} {ref : Nat} {f : Operation → Operation}

def At (ref : Nat) (f : Operation → Operation) (other : Nat) (op op' : Operation) : Prop :=
  op' = if other = ref then f op else op

theorem edit_rewrites : Rewrites (At ref f) table (table.edit ref f) where
  absent other missing := by
    by_cases same : other = ref
    · subst same
      simp [edit, missing]
    · simpa [edit, update_of_ne same] using missing
  present other op here := by
    by_cases same : other = ref
    · subst same
      exact ⟨f op, by simp [edit, here], by simp [At]⟩
    · exact ⟨op, by simpa [edit, update_of_ne same] using here, by simp [At, same]⟩
  retained _ := id
  keeps _ _ member _ _ := member

theorem moveToEnd_rewrites (name : String) : Rewrites (fun _ op op' => op' = op) table (table.moveToEnd name) where
  absent _ := id
  present ref op here := ⟨op, here, rfl⟩
  retained ref member := by
    rcases mem_append.1 member with early | late
    · exact mem_of_mem_filter early
    · exact mem_of_mem_filter late
  keeps ref _ member _ _ := by
    rw [moveToEnd, mem_append, mem_filter, mem_filter]
    cases table.named name ref <;> simp [member]

theorem excess_sub {bytes : Nat → Nat} {refs : List Nat} {total : Nat} (member : ref ∈ excess bytes refs total) :
    ref ∈ refs := by
  induction refs generalizing total with
  | nil => cases member
  | cons first rest ih =>
    rw [excess] at member
    split at member
    · rcases mem_cons.1 member with rfl | later
      · exact .head _
      · exact .tail _ (ih later)
    · cases member

theorem pruneOperations_rewrites : Rewrites (fun _ op op' => op' = op) table (table.pruneOperations setting) where
  absent _ := id
  present ref op here := ⟨op, here, rfl⟩
  retained ref member := mem_of_mem_filter member
  keeps ref op' member here unfinished := by
    refine mem_filter.2 ⟨member, ?_⟩
    have apart : ref ∉ excess table.bytesOf table.terminalIds (table.terminalIds.map table.bytesOf).sum := by
      intro removed
      have finished := (mem_filter.1 (excess_sub removed)).2
      rw [show table.objects ref = some op' from here, any_some, unfinished] at finished
      cases finished
    simpa using apart

variable {result : Option OperationResult}

theorem finishOperation_rewrites {state : OperationState} :
    Rewrites (At ref (settle setting state result)) table (table.finishOperation setting ref state result) := by
  have edited : Rewrites (At ref (settle setting state result)) table (table.edit ref (settle setting state result)) := edit_rewrites
  have moved := edited.trans (moveToEnd_rewrites ((table.objects ref).elim "" (·.id)))
    (fun _ _ _ same unfinished => by rwa [← same])
  refine ((moved.trans pruneOperations_rewrites (fun _ _ _ same unfinished => by rwa [← same])).weaken ?_)
  rintro other op op' ⟨middle, ⟨first, written, rfl⟩, rfl⟩
  exact written

def cancelledForm (setting : Setting) (result : Option OperationResult) (op : Operation) : Operation :=
  settle setting .cancelled result { op with cancellationRequested := true }

theorem cancelOperation_rewrites :
    Rewrites (At ref (cancelledForm setting result)) table (table.cancelOperation setting ref result) := by
  refine ((edit_rewrites.trans finishOperation_rewrites ?_).weaken ?_)
  · intro other op op' written unfinished
    rw [At] at written
    split at written
    · rw [written] at unfinished
      cases unfinished
    · rwa [written] at unfinished
  · rintro other op op' ⟨middle, first, second⟩
    rw [At] at first second ⊢
    split
    · rename_i same
      rw [if_pos same] at first second
      rw [second, first]
      rfl
    · rename_i other
      rw [if_neg other] at first second
      rw [second, first]

theorem cancelledForm_settles {op : Operation} (queued : op.state = .queued) :
    op.Settles (cancelledForm setting result op) :=
  ⟨⟨rfl, fun _ => rfl, id⟩, .inr ⟨queued, rfl, rfl⟩⟩

theorem cancelOperation_settles {op : Operation} (here : table.objects ref = some op)
    (queued : op.state = .queued) : Rewrites (fun _ => Operation.Settles) table (table.cancelOperation setting ref result) := by
  have rewrites : Rewrites (At ref (cancelledForm setting result)) table (table.cancelOperation setting ref result) :=
    cancelOperation_rewrites
  refine { rewrites with present := fun other op₁ there => ?_ }
  obtain ⟨op', after, written⟩ := rewrites.present other op₁ there
  refine ⟨op', after, ?_⟩
  rw [At] at written
  split at written
  · rename_i same
    subst same
    cases there.symm.trans here
    exact written ▸ cancelledForm_settles queued
  · exact written ▸ .refl op₁

theorem settles_unfinished {op op' : Operation} (settles : op.Settles op') (unfinished : op'.state.terminal = false) :
    op.state.terminal = false := by
  rcases settles.state with ⟨same, _⟩ | ⟨queued, _⟩
  · rwa [← same]
  · rw [queued]
    rfl

theorem settles_trans {table' table'' : OperationTable} (first : Rewrites (fun _ => Operation.Settles) table table')
    (second : Rewrites (fun _ => Operation.Settles) table' table'') : Rewrites (fun _ => Operation.Settles) table table'' :=
  (first.trans second fun _ _ _ settles => settles_unfinished settles).weaken fun _ _ _ ⟨_, one, two⟩ => one.trans two

section
variable {chosen : Operation → Bool} {reason : String}

theorem cancelQueued_settles : Rewrites (fun _ => Operation.Settles) table (table.cancelQueued setting chosen reason) := by
  have folded : ∀ (refs : List Nat) (reached : OperationTable), Rewrites (fun _ => Operation.Settles) table reached →
      Rewrites (fun _ => Operation.Settles) table (refs.foldl (fun (reached : OperationTable) ref =>
        if (reached.objects ref).any fun op => chosen op && op.state = .queued then
          reached.cancelOperation setting ref (some ⟨1, "", reason⟩)
        else reached) reached) := by
    intro refs
    induction refs with
    | nil => exact fun _ => id
    | cons ref rest ih =>
      intro reached settled
      refine ih _ ?_
      dsimp only
      split
      · rename_i picked
        obtain ⟨op, here, queued⟩ := (Option.any_eq_true ..).1 picked
        exact settles_trans settled (cancelOperation_settles here (by simpa using (Bool.and_eq_true_iff.1 queued).2))
      · exact settled
  exact folded table.retained table (.refl fun _ op => .refl op)

theorem cancelQueued_none {op' : Operation} (member : ref ∈ table.retained)
    (here : (table.cancelQueued setting chosen reason).objects ref = some op') (picked : chosen op' = true) :
    op'.state ≠ .queued := by
  have folded : ∀ (refs : List Nat) (reached : OperationTable) {op' : Operation},
      (ref ∈ refs ∨ ∀ op, reached.objects ref = some op → chosen op = true → op.state ≠ .queued) →
      (refs.foldl (fun (reached : OperationTable) ref =>
        if (reached.objects ref).any fun op => chosen op && op.state = .queued then
          reached.cancelOperation setting ref (some ⟨1, "", reason⟩)
        else reached) reached).objects ref = some op' → chosen op' = true → op'.state ≠ .queued := by
    intro refs
    induction refs with
    | nil =>
      rintro reached op' (impossible | done) here
      · cases impossible
      · exact done op' here
    | cons first rest ih =>
      intro reached op' pending here
      refine ih _ ?_ here
      by_cases own : ref = first
      · subst own
        refine .inr fun op there picked => ?_
        dsimp only at there
        split at there
        · rename_i stale
          obtain ⟨was, _, written⟩ := cancelOperation_rewrites.source there
          rw [At, if_pos rfl] at written
          rw [written]
          exact OperationState.noConfusion
        · rename_i fresh
          rw [there, any_some, picked, Bool.true_and] at fresh
          simpa using fresh
      · rcases pending with member | done
        · rcases mem_cons.1 member with same | later
          · exact absurd same own
          · exact .inl later
        · refine .inr fun op there picked => ?_
          dsimp only at there
          split at there
          · obtain ⟨was, before, written⟩ := cancelOperation_rewrites.source there
            rw [At, if_neg own] at written
            exact written ▸ done was before (written ▸ picked)
          · exact done op there picked
  exact folded table.retained table (.inl member) here picked

end

end OperationTable

end Kassiber.Operator

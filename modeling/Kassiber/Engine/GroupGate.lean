import Kassiber.Engine.LedgerWalk

/-!
The gate of a transfer group over a whole ledger.
-/

namespace Kassiber.Engine
open List Function

def rowAnchors (t : NormalizedTaxTransfer) : List String := (rowsToFlag t).map (·.row.anchor)

theorem out_mem_rowAnchors (t : NormalizedTaxTransfer) : t.outRow.anchor ∈ rowAnchors t := by
  simp [rowAnchors, rowsToFlag]

theorem in_mem_rowAnchors (t : NormalizedTaxTransfer) : t.inRow.anchor ∈ rowAnchors t := by
  simp [rowAnchors, rowsToFlag]

theorem firstMentions_anchors {seen : List String} {rows : List FlaggedRow} {id : String} :
    id ∈ (firstMentions seen rows).map (·.row.anchor) ↔ id ∈ rows.map (·.row.anchor) ∧ id ∉ seen := by
  induction rows generalizing seen with
  | nil => simp [firstMentions]
  | cons flagged rest ih =>
    unfold firstMentions
    split
    · rename_i known
      rw [ih, map_cons, mem_cons]
      constructor
      · rintro ⟨later, fresh⟩
        exact ⟨.inr later, fresh⟩
      · rintro ⟨rfl | later, fresh⟩
        · exact absurd known fresh
        · exact ⟨later, fresh⟩
    · rename_i fresh
      rw [map_cons, map_cons, mem_cons, mem_cons, ih, mem_cons]
      constructor
      · rintro (rfl | ⟨later, unseen⟩)
        · exact ⟨.inl rfl, fresh⟩
        · exact ⟨.inr later, fun old => unseen (.inr old)⟩
      · rintro ⟨rfl | later, unseen⟩
        · exact .inl rfl
        · by_cases first : id = flagged.row.anchor
          · exact .inl first
          · exact .inr ⟨later, fun old => old.elim first unseen⟩

variable {asset : String}

theorem groupHold_transaction (failedTransfer : NormalizedTaxTransfer) (failure : GateFailure) (flagged : FlaggedRow) :
    (groupHold asset failedTransfer failure flagged).transactionId = flagged.row.anchor := by
  unfold groupHold
  split <;> rfl

theorem groupHold_group (failedTransfer : NormalizedTaxTransfer) (failure : GateFailure) (flagged : FlaggedRow) :
    (groupHold asset failedTransfer failure flagged).detail.transferGroupId = some failedTransfer.groupId := by
  unfold groupHold
  split <;> rfl

theorem groupGate_transactions {group : List NormalizedTaxTransfer} {failedTransfer : NormalizedTaxTransfer}
    {failure : GateFailure} (member : failedTransfer ∈ group)
    (distinct : (group.map NormalizedTaxTransfer.itemId).Nodup) (id : String) :
    id ∈ (appendGroupGateQuarantines asset group failedTransfer failure).map (·.transactionId) ↔
      ∃ leg ∈ group, id ∈ rowAnchors leg := by
  have legs : ∀ leg,
      (leg = failedTransfer ∨ leg ∈ group.filter fun t => t.itemId ≠ failedTransfer.itemId) ↔ leg ∈ group := by
    intro leg
    constructor
    · rintro (rfl | other)
      · exact member
      · exact (mem_filter.1 other).1
    · intro inside
      by_cases same : leg.itemId = failedTransfer.itemId
      · exact .inl (inj_on_of_nodup_map distinct inside member same)
      · exact .inr (mem_filter.2 ⟨inside, decide_eq_true same⟩)
  have anchors : (fun held : Held => held.transactionId) ∘ groupHold asset failedTransfer failure =
      fun flagged => flagged.row.anchor :=
    funext fun flagged => groupHold_transaction failedTransfer failure flagged
  unfold appendGroupGateQuarantines
  rw [map_map, anchors, firstMentions_anchors, map_flatMap, mem_flatMap]
  constructor
  · rintro ⟨⟨leg, inside, row⟩, -⟩
    exact ⟨leg, (legs leg).1 (mem_cons.1 inside), row⟩
  · rintro ⟨leg, inside, row⟩
    exact ⟨⟨leg, mem_cons.2 ((legs leg).2 inside), row⟩, not_mem_nil⟩

theorem legsOf_append (before after : List LedgerItem) (groupId : String) :
    legsOf (before ++ after) groupId = legsOf before groupId ++ legsOf after groupId := by
  unfold legsOf
  rw [filterMap_append, filter_append]

theorem legsOf_cons_leg {t : NormalizedTaxTransfer} (grouped : t.groupId ≠ "") (after : List LedgerItem) :
    legsOf (.transfer t :: after) t.groupId = t :: legsOf after t.groupId := by
  unfold legsOf
  rw [filterMap_cons_some (by rfl), filter_cons_of_pos (by simp [grouped])]

theorem legsOf_cons_other {item : LedgerItem} {groupId : String}
    (other : ∀ t, item = .transfer t → t.groupId ≠ "" → t.groupId ≠ groupId) (after : List LedgerItem) :
    legsOf (item :: after) groupId = legsOf after groupId := by
  unfold legsOf
  cases item with
  | event e => rfl
  | transfer t =>
    rw [filterMap_cons_some (by rfl), filter_cons_of_neg]
    intro both
    obtain ⟨grouped, same⟩ := of_decide_eq_true both
    exact other t rfl grouped same

def DistinctItems (items : List LedgerItem) : Prop :=
  ((items.filterMap LedgerItem.leg?).map NormalizedTaxTransfer.itemId).Nodup

theorem DistinctItems.legs {items : List LedgerItem} (distinct : DistinctItems items) (groupId : String) :
    ((legsOf items groupId).map NormalizedTaxTransfer.itemId).Nodup :=
  distinct.sublist (filter_sublist.map _)

theorem remainingLegs_split {before after : List NormalizedTaxTransfer} {t : NormalizedTaxTransfer}
    (distinct : ((before ++ t :: after).map NormalizedTaxTransfer.itemId).Nodup) :
    remainingLegs (before ++ t :: after) t = t :: after := by
  have fresh : ∀ leg ∈ before, leg.itemId ≠ t.itemId := by
    intro leg member same
    rw [map_append, map_cons, nodup_append] at distinct
    exact distinct.2.2 leg.itemId (mem_map_of_mem member) t.itemId (.head _) same
  have position : (before ++ t :: after).findIdx (fun leg => leg.itemId = t.itemId) = before.length := by
    rw [findIdx_append, findIdx_eq_length_of_false fun leg member => decide_eq_false (fresh leg member),
      if_neg (lt_irrefl _), findIdx_cons]
    simp
  rw [remainingLegs, position, drop_left]

def bookedLegs (st : WalkState) (groupId : String) : List NormalizedTaxTransfer :=
  (st.intraSet.map (·.transfer)).filter fun t => t.groupId ≠ "" ∧ t.groupId = groupId

def gateHolds (st : WalkState) (groupId : String) : List Held :=
  st.quarantines.filter fun held => held.detail.transferGroupId = some groupId

structure GateView where
  state : Option GroupState
  booked : List NormalizedTaxTransfer
  holds : List Held

def gateView (st : WalkState) (groupId : String) : GateView :=
  { state := st.groups groupId, booked := bookedLegs st groupId, holds := gateHolds st groupId }

section
variable {austrian : Bool} {firstDropAt : Option String} {items : List LedgerItem} {groupId : String} {st : WalkState}
  {t : NormalizedTaxTransfer}

theorem bookedLegs_apply (st : WalkState) (t : NormalizedTaxTransfer) (groupId : String) :
    bookedLegs (applyTransferToRp2 st t) groupId =
      bookedLegs st groupId ++ if t.groupId ≠ "" ∧ t.groupId = groupId then [t] else [] := by
  unfold bookedLegs applyTransferToRp2
  rw [map_append, filter_append]
  congr 1
  change [t].filter (fun leg => leg.groupId ≠ "" ∧ leg.groupId = groupId) = _
  by_cases own : t.groupId ≠ "" ∧ t.groupId = groupId
  · rw [if_pos own]
    exact filter_cons_of_pos (decide_eq_true own)
  · rw [if_neg own]
    exact filter_cons_of_neg fun kept => own (of_decide_eq_true kept)

theorem gateHolds_append (st : WalkState) (more : List Held) (groupId : String) :
    gateHolds { st with quarantines := st.quarantines ++ more } groupId =
      gateHolds st groupId ++ more.filter fun held => held.detail.transferGroupId = some groupId :=
  filter_append _ _

variable {failure : GateFailure}

theorem groupGate_group {group : List NormalizedTaxTransfer} {held : Held}
    (member : held ∈ appendGroupGateQuarantines asset group t failure) :
    held.detail.transferGroupId = some t.groupId := by
  obtain ⟨flagged, -, rfl⟩ := mem_map.1 member
  exact groupHold_group t failure flagged

theorem preflight_mem {legs : List NormalizedTaxTransfer} {accounts : String → Rat} {priced : Rat}
    {failed : NormalizedTaxTransfer × GateFailure} (refused : preflight asset legs accounts priced = some failed) :
    failed.1 ∈ legs := by
  induction legs generalizing accounts priced with
  | nil => cases refused
  | cons leg rest ih =>
    unfold preflight at refused
    split at refused
    · cases refused
      exact .head _
    · exact .tail _ (ih refused)

theorem groupId_of_mem_legsOf (member : t ∈ legsOf items groupId) : t.groupId = groupId :=
  (of_decide_eq_true (mem_filter.1 member).2).2

theorem gateHolds_foreign {st : WalkState} {more : List Held} {groupId : String}
    (foreign : ∀ held ∈ more, held.detail.transferGroupId ≠ some groupId) :
    gateHolds { st with quarantines := st.quarantines ++ more } groupId = gateHolds st groupId := by
  rw [gateHolds_append, filter_eq_nil_iff.2 fun held member own => foreign held member (of_decide_eq_true own),
    append_nil]

theorem gateHolds_own {group : List NormalizedTaxTransfer} {st : WalkState} :
    gateHolds { st with quarantines := st.quarantines ++ appendGroupGateQuarantines asset group t failure } t.groupId =
      gateHolds st t.groupId ++ appendGroupGateQuarantines asset group t failure := by
  rw [gateHolds_append, filter_eq_self.2 fun held member => decide_eq_true (groupGate_group member)]

theorem transferGate_ungrouped {held : Held} (member : held ∈ appendTransferGateQuarantine t failure) :
    held.detail.transferGroupId = none := by
  unfold appendTransferGateQuarantine at member
  rcases mem_cons.1 member with rfl | inbound
  · rfl
  · split at inbound
    · cases inbound
    · rw [mem_singleton] at inbound
      rw [inbound]
      rfl

theorem gateView_inbound (e : NormalizedTaxEvent) :
    gateView (inboundStep asset austrian st e) groupId = gateView st groupId := by
  unfold inboundStep
  split
  · rfl
  · split
    · exact congrArg (GateView.mk _ _) (gateHolds_foreign (by simp [hold, HeldDetail.transferGroupId]))
    · split
      · exact congrArg (GateView.mk _ _) (gateHolds_foreign (by simp [hold, HeldDetail.transferGroupId]))
      · rfl

variable {e : NormalizedTaxEvent}

theorem disposalFailure_ungrouped {failure : String × HeldDetail}
    (failed : disposalFailure asset firstDropAt st e = some failure) : failure.2.transferGroupId = none := by
  unfold disposalFailure at failed
  split at failed
  · cases failed
    rfl
  · split at failed
    · cases failed
    · split at failed
      · cases failed
        rfl
      · split at failed
        · cases failed
          rfl
        · split at failed
          · cases failed
          · split at failed
            · cases failed
              rfl
            · cases failed

theorem gateView_outbound (e : NormalizedTaxEvent) :
    gateView (outboundStep asset firstDropAt st e) groupId = gateView st groupId := by
  unfold outboundStep
  split
  · rfl
  · split
    · rfl
    · split
      · rename_i held failed
        refine congrArg (GateView.mk _ _) (gateHolds_foreign fun other member => ?_)
        rw [mem_singleton] at member
        rw [member]
        change held.2.transferGroupId ≠ _
        rw [disposalFailure_ungrouped failed]
        exact nofun
      · rfl

theorem gateView_apply (st : WalkState) (t : NormalizedTaxTransfer) (groupId : String) :
    gateView (applyTransferToRp2 st t) groupId =
      { gateView st groupId with
        booked := bookedLegs st groupId ++ if t.groupId ≠ "" ∧ t.groupId = groupId then [t] else [] } :=
  congrArg (fun booked => GateView.mk (st.groups groupId) booked (gateHolds st groupId)) (bookedLegs_apply st t groupId)

theorem ledgerStep_inbound (direction : e.direction = .inbound) :
    ledgerStep asset austrian firstDropAt items st (.event e) = inboundStep asset austrian st e := by
  rw [ledgerStep, direction]

theorem ledgerStep_outbound (direction : e.direction = .outbound) :
    ledgerStep asset austrian firstDropAt items st (.event e) = outboundStep asset firstDropAt st e := by
  rw [ledgerStep, direction]

theorem gateView_other {item : LedgerItem}
    (other : ∀ t, item = .transfer t → t.groupId ≠ "" → t.groupId ≠ groupId) :
    gateView (ledgerStep asset austrian firstDropAt items st item) groupId = gateView st groupId := by
  have applied : ∀ (st : WalkState) (t : NormalizedTaxTransfer), (t.groupId ≠ "" → t.groupId ≠ groupId) →
      gateView (applyTransferToRp2 st t) groupId = gateView st groupId := by
    intro st t apart
    rw [gateView_apply, if_neg fun own => apart own.1 own.2, append_nil]
    rfl
  cases item with
  | event e =>
    cases direction : e.direction with
    | inbound =>
      rw [ledgerStep_inbound direction]
      exact gateView_inbound e
    | outbound =>
      rw [ledgerStep_outbound direction]
      exact gateView_outbound e
  | transfer t =>
    have apart := other t rfl
    change gateView (transferStep asset items st t) groupId = _
    unfold transferStep
    split
    · rename_i grouped
      have away : groupId ≠ t.groupId := (apart grouped).symm
      have foreign : ∀ {group : List NormalizedTaxTransfer} {failed : NormalizedTaxTransfer} {failure : GateFailure},
          failed.groupId = t.groupId → ∀ held ∈ appendGroupGateQuarantines asset group failed failure,
            held.detail.transferGroupId ≠ some groupId := by
        intro group failed failure same held member
        rw [groupGate_group member, same]
        exact fun equal => apart grouped (Option.some.inj equal)
      unfold groupStep
      split
      · split
        · change GateView.mk (update st.groups t.groupId _ groupId) _ _ = _
          rw [update_of_ne away]
          exact congrArg (GateView.mk _ _) (gateHolds_foreign (foreign rfl))
        · exact applied st t apart
      · rfl
      · split
        · rename_i failed failure refused
          have same := groupId_of_mem_legsOf (preflight_mem refused)
          change GateView.mk (update st.groups t.groupId _ groupId) _ _ = _
          rw [update_of_ne away]
          exact congrArg (GateView.mk _ _) (gateHolds_foreign (foreign same))
        · rw [applied _ t apart]
          change GateView.mk (update st.groups t.groupId _ groupId) _ _ = _
          rw [update_of_ne away]
          rfl
    · split
      · refine congrArg (GateView.mk _ _) (gateHolds_foreign fun held member => ?_)
        rw [transferGate_ungrouped member]
        exact nofun
      · exact applied st t apart

/-! The gate at one of its own legs. -/

theorem gateView_stopped (grouped : t.groupId ≠ "") (stopped : st.groups t.groupId = some .failed) :
    gateView (ledgerStep asset austrian firstDropAt items st (.transfer t)) t.groupId = gateView st t.groupId := by
  rw [ledgerStep, transferStep, if_pos grouped, groupStep, stopped]

theorem gateView_book (grouped : t.groupId ≠ "") (approved : st.groups t.groupId = some .approved)
    (carried : transferGateFailure asset t st.accounts st.priced = none) :
    gateView (ledgerStep asset austrian firstDropAt items st (.transfer t)) t.groupId =
      { state := some .approved, booked := bookedLegs st t.groupId ++ [t], holds := gateHolds st t.groupId } := by
  rw [ledgerStep, transferStep, if_pos grouped, groupStep, approved]
  dsimp only
  rw [carried]
  dsimp only
  rw [gateView_apply, if_pos ⟨grouped, rfl⟩, gateView, approved]

theorem gateView_stop (grouped : t.groupId ≠ "") (approved : st.groups t.groupId = some .approved)
    (refused : transferGateFailure asset t st.accounts st.priced = some failure) :
    gateView (ledgerStep asset austrian firstDropAt items st (.transfer t)) t.groupId =
      { state := some .failed, booked := bookedLegs st t.groupId
        holds := gateHolds st t.groupId ++
          appendGroupGateQuarantines asset (remainingLegs (legsOf items t.groupId) t) t failure } := by
  rw [ledgerStep, transferStep, if_pos grouped, groupStep, approved]
  dsimp only
  rw [refused]
  change GateView.mk (update st.groups t.groupId _ t.groupId) (bookedLegs st t.groupId) _ = _
  rw [update_self]
  exact congrArg (GateView.mk _ _) gateHolds_own

theorem gateView_start (grouped : t.groupId ≠ "") (waiting : st.groups t.groupId = none)
    (carried : preflight asset (legsOf items t.groupId) st.accounts st.priced = none) :
    gateView (ledgerStep asset austrian firstDropAt items st (.transfer t)) t.groupId =
      { state := some .approved, booked := bookedLegs st t.groupId ++ [t], holds := gateHolds st t.groupId } := by
  rw [ledgerStep, transferStep, if_pos grouped, groupStep, waiting]
  dsimp only
  rw [carried]
  dsimp only
  rw [gateView_apply, if_pos ⟨grouped, rfl⟩]
  change GateView.mk (update st.groups t.groupId _ t.groupId) _ _ = _
  rw [update_self]
  rfl

theorem gateView_refuse {failed : NormalizedTaxTransfer} (grouped : t.groupId ≠ "")
    (waiting : st.groups t.groupId = none)
    (refused : preflight asset (legsOf items t.groupId) st.accounts st.priced = some (failed, failure)) :
    gateView (ledgerStep asset austrian firstDropAt items st (.transfer t)) t.groupId =
      { state := some .failed, booked := bookedLegs st t.groupId
        holds := gateHolds st t.groupId ++
          appendGroupGateQuarantines asset (legsOf items t.groupId) failed failure } := by
  have same : failed.groupId = t.groupId := groupId_of_mem_legsOf (preflight_mem refused)
  rw [ledgerStep, transferStep, if_pos grouped, groupStep, waiting]
  dsimp only
  rw [refused]
  change GateView.mk (update st.groups t.groupId _ t.groupId) (bookedLegs st t.groupId) _ = _
  rw [update_self, ← same]
  exact congrArg (GateView.mk _ _) gateHolds_own

theorem own_or_other (item : LedgerItem) (groupId : String) :
    (∃ t, item = .transfer t ∧ t.groupId ≠ "" ∧ t.groupId = groupId) ∨
      ∀ t, item = .transfer t → t.groupId ≠ "" → t.groupId ≠ groupId := by
  by_cases own : ∃ t, item = .transfer t ∧ t.groupId ≠ "" ∧ t.groupId = groupId
  · exact .inl own
  · exact .inr fun t same grouped equal => own ⟨t, same, grouped, equal⟩

theorem stopped_stays {after : List LedgerItem} (stopped : st.groups groupId = some .failed) :
    gateView (after.foldl (ledgerStep asset austrian firstDropAt items) st) groupId = gateView st groupId := by
  induction after generalizing st with
  | nil => rfl
  | cons item rest ih =>
    have kept : gateView (ledgerStep asset austrian firstDropAt items st item) groupId = gateView st groupId := by
      rcases own_or_other item groupId with ⟨t, rfl, grouped, rfl⟩ | other
      · exact gateView_stopped grouped stopped
      · exact gateView_other other
    rw [foldl_cons, ih ((congrArg GateView.state kept).trans stopped), kept]

inductive Phase (legs : List NormalizedTaxTransfer) (view : GateView) : Prop where
  | waiting (first : legs = []) (same : view = { state := none, booked := [], holds := [] })
  | booking (begun : legs ≠ []) (same : view = { state := some .approved, booked := legs, holds := [] })
  | stopped (begun : legs ≠ []) (failed : view.state = some .failed)

theorem phase_step {before : List LedgerItem} {item : LedgerItem}
    (phase : Phase (legsOf before groupId) (gateView st groupId)) :
    Phase (legsOf (before ++ [item]) groupId)
      (gateView (ledgerStep asset austrian firstDropAt items st item) groupId) := by
  rw [legsOf_append]
  rcases own_or_other item groupId with ⟨t, rfl, grouped, rfl⟩ | other
  · rw [legsOf_cons_leg grouped]
    have next : legsOf before t.groupId ++ t :: legsOf [] t.groupId ≠ [] := append_ne_nil_of_right_ne_nil _ nofun
    cases phase with
    | waiting first same =>
      have state : st.groups t.groupId = none := congrArg GateView.state same
      cases carried : preflight asset (legsOf items t.groupId) st.accounts st.priced with
      | none =>
        refine .booking next ?_
        rw [gateView_start grouped state carried, first,
          show bookedLegs st t.groupId = [] from congrArg GateView.booked same,
          show gateHolds st t.groupId = [] from congrArg GateView.holds same]
        rfl
      | some refused =>
        refine .stopped next ?_
        rw [gateView_refuse grouped state carried]
    | booking begun same =>
      have state : st.groups t.groupId = some .approved := congrArg GateView.state same
      cases carried : transferGateFailure asset t st.accounts st.priced with
      | none =>
        refine .booking next ?_
        rw [gateView_book grouped state carried, show bookedLegs st t.groupId = _ from congrArg GateView.booked same,
          show gateHolds st t.groupId = [] from congrArg GateView.holds same]
        rfl
      | some refused =>
        refine .stopped next ?_
        rw [gateView_stop grouped state carried]
    | stopped begun failed =>
      refine .stopped next ?_
      rw [gateView_stopped grouped failed]
      exact failed
  · rw [legsOf_cons_other other, gateView_other other, show legsOf [] groupId = [] from rfl, append_nil]
    exact phase

theorem phase_walk (asset : String) (austrian : Bool) (firstDropAt : Option String) (items before : List LedgerItem)
    (groupId : String) :
    Phase (legsOf before groupId) (gateView (ledgerWalk asset austrian firstDropAt items before) groupId) := by
  induction before using reverseRecOn with
  | nil => exact .waiting rfl rfl
  | append_singleton before item ih =>
    rw [ledgerWalk, foldl_append]
    exact phase_step ih

end

section
variable (asset : String) (austrian : Bool) (firstDropAt : Option String) (items : List LedgerItem) (groupId : String)

def RefusedAt (before : List LedgerItem) (t failedTransfer : NormalizedTaxTransfer) (failure : GateFailure) : Prop :=
  let st := ledgerWalk asset austrian firstDropAt items before
  t.groupId = groupId ∧ st.groups groupId = none ∧
    preflight asset (legsOf items groupId) st.accounts st.priced = some (failedTransfer, failure)

def StoppedAt (before : List LedgerItem) (t : NormalizedTaxTransfer) (failure : GateFailure) : Prop :=
  let st := ledgerWalk asset austrian firstDropAt items before
  t.groupId = groupId ∧ st.groups groupId = some .approved ∧
    transferGateFailure asset t st.accounts st.priced = some failure

end

section
variable {austrian : Bool} {firstDropAt : Option String} {items before after : List LedgerItem} {groupId : String}
  {t failedTransfer : NormalizedTaxTransfer} {failure : GateFailure}

theorem ledgerWalk_split :
    ledgerWalk asset austrian firstDropAt items (before ++ after) =
      after.foldl (ledgerStep asset austrian firstDropAt items) (ledgerWalk asset austrian firstDropAt items before) :=
  foldl_append

theorem waiting_before (first : legsOf before groupId = []) :
    gateView (ledgerWalk asset austrian firstDropAt items before) groupId =
      { state := none, booked := [], holds := [] } := by
  cases phase_walk asset austrian firstDropAt items before groupId with
  | waiting _ same => exact same
  | booking begun _ => exact absurd first begun
  | stopped begun _ => exact absurd first begun

/-- A group that fails at an entry stands at the end as it did then. -/
theorem failed_at {view : GateView} (split : items = before ++ .transfer t :: after)
    (step : gateView (ledgerStep asset austrian firstDropAt items
      (ledgerWalk asset austrian firstDropAt items before) (.transfer t)) groupId = view) (failed : view.state = some .failed) :
    gateView (ledgerWalk asset austrian firstDropAt items items) groupId = view := by
  have walked : ledgerWalk asset austrian firstDropAt items items =
      (LedgerItem.transfer t :: after).foldl (ledgerStep asset austrian firstDropAt items)
        (ledgerWalk asset austrian firstDropAt items before) := by
    rw [← ledgerWalk_split, ← split]
  rw [walked, foldl_cons, stopped_stays ((congrArg GateView.state step).trans failed), step]

theorem refuse_at (grouped : groupId ≠ "") (split : items = before ++ .transfer t :: after)
    (refused : RefusedAt asset austrian firstDropAt items groupId before t failedTransfer failure) :
    gateView (ledgerWalk asset austrian firstDropAt items items) groupId =
      { state := some .failed, booked := []
        holds := appendGroupGateQuarantines asset (legsOf items groupId) failedTransfer failure } := by
  obtain ⟨rfl, state, refused⟩ := refused
  have waiting : gateView (ledgerWalk asset austrian firstDropAt items before) t.groupId =
      { state := none, booked := [], holds := [] } := by
    cases phase_walk asset austrian firstDropAt items before t.groupId with
    | waiting _ same => exact same
    | booking _ same => exact absurd (state.symm.trans (congrArg GateView.state same)) nofun
    | stopped _ failed => exact absurd (state.symm.trans failed) nofun
  have step : gateView (ledgerStep asset austrian firstDropAt items
      (ledgerWalk asset austrian firstDropAt items before) (.transfer t)) t.groupId = _ :=
    gateView_refuse grouped state refused
  rw [show bookedLegs _ _ = [] from congrArg GateView.booked waiting,
    show gateHolds _ _ = [] from congrArg GateView.holds waiting, nil_append] at step
  exact failed_at split step rfl

theorem stop_at (grouped : groupId ≠ "") (distinct : DistinctItems items)
    (split : items = before ++ .transfer t :: after)
    (stopped : StoppedAt asset austrian firstDropAt items groupId before t failure) :
    gateView (ledgerWalk asset austrian firstDropAt items items) groupId =
      { state := some .failed, booked := legsOf before groupId
        holds := appendGroupGateQuarantines asset (t :: legsOf after groupId) t failure } := by
  obtain ⟨rfl, state, refused⟩ := stopped
  have booking : gateView (ledgerWalk asset austrian firstDropAt items before) t.groupId =
      { state := some .approved, booked := legsOf before t.groupId, holds := [] } := by
    cases phase_walk asset austrian firstDropAt items before t.groupId with
    | waiting _ same => exact absurd (state.symm.trans (congrArg GateView.state same)) nofun
    | booking _ same => exact same
    | stopped _ failed => exact absurd (state.symm.trans failed) nofun
  have legs : legsOf items t.groupId = legsOf before t.groupId ++ t :: legsOf after t.groupId := by
    rw [split, legsOf_append, legsOf_cons_leg grouped]
  have remaining : remainingLegs (legsOf items t.groupId) t = t :: legsOf after t.groupId := by
    have own := distinct.legs t.groupId
    rw [legs] at own ⊢
    exact remainingLegs_split own
  have step : gateView (ledgerStep asset austrian firstDropAt items
      (ledgerWalk asset austrian firstDropAt items before) (.transfer t)) t.groupId = _ :=
    gateView_stop grouped state refused
  rw [show bookedLegs _ _ = legsOf before t.groupId from congrArg GateView.booked booking,
    show gateHolds _ _ = [] from congrArg GateView.holds booking, nil_append, remaining] at step
  exact failed_at split step rfl

theorem failed_because (failed : (ledgerWalk asset austrian firstDropAt items before).groups groupId = some .failed) :
    ∃ done t rest, before = done ++ .transfer t :: rest ∧
      ((∃ failedTransfer failure, RefusedAt asset austrian firstDropAt items groupId done t failedTransfer failure) ∨
        ∃ failure, StoppedAt asset austrian firstDropAt items groupId done t failure) := by
  induction before using reverseRecOn with
  | nil => cases failed
  | append_singleton before item ih =>
    have earlier : (ledgerWalk asset austrian firstDropAt items before).groups groupId = some .failed →
        ∃ done t rest, before ++ [item] = done ++ .transfer t :: rest ∧
          ((∃ failedTransfer failure,
              RefusedAt asset austrian firstDropAt items groupId done t failedTransfer failure) ∨
            ∃ failure, StoppedAt asset austrian firstDropAt items groupId done t failure) := by
      intro already
      obtain ⟨done, t, rest, rfl, cause⟩ := ih already
      exact ⟨done, t, rest ++ [item], by rw [List.append_assoc, cons_append], cause⟩
    rw [ledgerWalk_split] at failed
    change (gateView (ledgerStep asset austrian firstDropAt items _ item) groupId).state = _ at failed
    rcases own_or_other item groupId with ⟨t, rfl, grouped, rfl⟩ | other
    · cases state : (ledgerWalk asset austrian firstDropAt items before).groups t.groupId with
      | none =>
        cases carried : preflight asset (legsOf items t.groupId)
            (ledgerWalk asset austrian firstDropAt items before).accounts
            (ledgerWalk asset austrian firstDropAt items before).priced with
        | none =>
          rw [gateView_start grouped state carried] at failed
          cases failed
        | some refused => exact ⟨before, t, [], rfl, .inl ⟨refused.1, refused.2, rfl, state, carried⟩⟩
      | some progress =>
        cases progress with
        | failed => exact earlier state
        | approved =>
          cases carried : transferGateFailure asset t (ledgerWalk asset austrian firstDropAt items before).accounts
              (ledgerWalk asset austrian firstDropAt items before).priced with
          | none =>
            rw [gateView_book grouped state carried] at failed
            cases failed
          | some failure => exact ⟨before, t, [], rfl, .inr ⟨failure, rfl, state, carried⟩⟩
    · rw [gateView_other other] at failed
      exact earlier failed

theorem first_leg_unique {otherBefore otherAfter : List LedgerItem} {other : NormalizedTaxTransfer}
    (grouped : groupId ≠ "") (own : t.groupId = groupId) (otherOwn : other.groupId = groupId)
    (first : legsOf before groupId = []) (otherFirst : legsOf otherBefore groupId = [])
    (same : before ++ LedgerItem.transfer t :: after = otherBefore ++ .transfer other :: otherAfter) :
    before = otherBefore := by
  have longer : ∀ {leg : NormalizedTaxTransfer} {start middle rest : List LedgerItem}, leg.groupId = groupId →
      legsOf (start ++ middle) groupId = [] →
        ∀ tail, LedgerItem.transfer leg :: rest = middle ++ tail → middle = [] := by
    rintro leg start middle rest rfl none tail cut
    cases middle with
    | nil => rfl
    | cons item middle =>
      obtain ⟨rfl, -⟩ := List.cons.inj cut
      rw [legsOf_append, legsOf_cons_leg grouped] at none
      exact absurd none (append_ne_nil_of_right_ne_nil _ nofun)
  rcases append_eq_append_iff.1 same with ⟨middle, rfl, cut⟩ | ⟨middle, rfl, cut⟩
  · rw [longer own otherFirst _ cut, append_nil]
  · rw [longer otherOwn first _ cut, append_nil]

end

section
variable (asset : String) (austrian : Bool) (dropAt : Option String) (events : List NormalizedTaxEvent)
  (items : List LedgerItem) (groupId : String)

/-- The walk before an item, once the input of the asset is being prepared. -/
def walkBefore (before : List LedgerItem) : WalkState :=
  ledgerWalk asset austrian (earliestLotContamination dropAt austrian events) items before

def applied : List NormalizedTaxTransfer :=
  bookedLegs (prepareRp2AssetInput asset austrian dropAt events items) groupId

def quarantinedByGate : List String :=
  (gateHolds (prepareRp2AssetInput asset austrian dropAt events items) groupId).map (·.transactionId)

def LegQuarantined (leg : NormalizedTaxTransfer) : Prop :=
  leg.outRow.anchor ∈ quarantinedByGate asset austrian dropAt events items groupId ∧
    leg.inRow.anchor ∈ quarantinedByGate asset austrian dropAt events items groupId

/-- The state machine that books a group of transfers, over a whole ledger. -/
structure GroupGateSound : Prop where
  /-- A preflight that fails applies no leg and quarantines them all. -/
  refused : ∀ before t after failed, items = before ++ .transfer t :: after → t.groupId = groupId →
    legsOf before groupId = [] →
    preflight asset (legsOf items groupId)
      (walkBefore asset austrian dropAt events items before).accounts
      (walkBefore asset austrian dropAt events items before).priced = some failed →
    applied asset austrian dropAt events items groupId = [] ∧
      ∀ leg ∈ legsOf items groupId, LegQuarantined asset austrian dropAt events items groupId leg
  /-- One that passes applies a first part of the group and quarantines the rest. -/
  started : ∀ before t after, items = before ++ .transfer t :: after → t.groupId = groupId →
    legsOf before groupId = [] →
    preflight asset (legsOf items groupId)
      (walkBefore asset austrian dropAt events items before).accounts
      (walkBefore asset austrian dropAt events items before).priced = none →
    ∃ count, applied asset austrian dropAt events items groupId = (legsOf items groupId).take count ∧
      ∀ leg ∈ (legsOf items groupId).drop count, LegQuarantined asset austrian dropAt events items groupId leg
  once : (applied asset austrian dropAt events items groupId).Nodup
  settled : ∀ leg ∈ legsOf items groupId,
    leg ∈ applied asset austrian dropAt events items groupId ∨
      LegQuarantined asset austrian dropAt events items groupId leg
  /-- A source all of whose legs are applied is not quarantined. -/
  kept : ∀ leg ∈ legsOf items groupId,
    (∀ sibling ∈ legsOf items groupId, sibling.outRow.anchor = leg.outRow.anchor →
      sibling ∈ applied asset austrian dropAt events items groupId) →
    leg.outRow.anchor ∉ quarantinedByGate asset austrian dropAt events items groupId

/-- A leg names a transaction as its inbound or among the rows it replaces. -/
def Reclaims (leg : NormalizedTaxTransfer) (id : String) : Prop :=
  id = leg.inRow.anchor ∨ id ∈ leg.groupBlockRows.map SourceRow.anchor

/-- Wherever an approved group stops, its last legs do not name a source that the legs before have used up. -/
def StopsCleanly : Prop :=
  ∀ before t after failure, items = before ++ .transfer t :: after → t.groupId = groupId →
    (walkBefore asset austrian dropAt events items before).groups groupId = some .approved →
    transferGateFailure asset t (walkBefore asset austrian dropAt events items before).accounts
      (walkBefore asset austrian dropAt events items before).priced = some failure →
    ∀ leg ∈ legsOf before groupId,
      (∀ later ∈ t :: legsOf after groupId, later.outRow.anchor ≠ leg.outRow.anchor) →
      ∀ later ∈ t :: legsOf after groupId, ¬Reclaims later leg.outRow.anchor

end

section
variable {austrian : Bool} {dropAt : Option String} {events : List NormalizedTaxEvent}
  {items before after : List LedgerItem} {groupId id : String} {leg t failedTransfer : NormalizedTaxTransfer}
  {group : List NormalizedTaxTransfer} {failure : GateFailure}

theorem mem_rowAnchors : id ∈ rowAnchors leg ↔ id = leg.outRow.anchor ∨ Reclaims leg id := by
  rw [rowAnchors, rowsToFlag, map_cons, map_cons, map_map, mem_cons, mem_cons]
  rfl

theorem quarantined_of_gate {booked : List NormalizedTaxTransfer} {state : Option GroupState}
    (final : gateView (prepareRp2AssetInput asset austrian dropAt events items) groupId =
      { state, booked, holds := appendGroupGateQuarantines asset group failedTransfer failure })
    (member : failedTransfer ∈ group) (distinct : (group.map NormalizedTaxTransfer.itemId).Nodup) :
    id ∈ quarantinedByGate asset austrian dropAt events items groupId ↔ ∃ leg ∈ group, id ∈ rowAnchors leg := by
  rw [quarantinedByGate, show gateHolds _ _ = _ from congrArg GateView.holds final]
  exact groupGate_transactions member distinct id

theorem legs_quarantined {booked : List NormalizedTaxTransfer} {state : Option GroupState}
    (final : gateView (prepareRp2AssetInput asset austrian dropAt events items) groupId =
      { state, booked, holds := appendGroupGateQuarantines asset group failedTransfer failure })
    (member : failedTransfer ∈ group) (distinct : (group.map NormalizedTaxTransfer.itemId).Nodup)
    (inside : leg ∈ group) : LegQuarantined asset austrian dropAt events items groupId leg :=
  ⟨(quarantined_of_gate final member distinct).2 ⟨leg, inside, out_mem_rowAnchors leg⟩,
    (quarantined_of_gate final member distinct).2 ⟨leg, inside, in_mem_rowAnchors leg⟩⟩

theorem group_outcome (asset : String) (austrian : Bool) (dropAt : Option String)
    (events : List NormalizedTaxEvent) (items : List LedgerItem) (groupId : String) :
    (applied asset austrian dropAt events items groupId = legsOf items groupId ∧
        quarantinedByGate asset austrian dropAt events items groupId = []) ∨
      ∃ before t after, items = before ++ .transfer t :: after ∧
        ((∃ failedTransfer failure, RefusedAt asset austrian
            (earliestLotContamination dropAt austrian events) items groupId before t
            failedTransfer failure) ∨
          ∃ failure, StoppedAt asset austrian (earliestLotContamination dropAt austrian events) items
            groupId before t failure) := by
  cases phase_walk asset austrian (earliestLotContamination dropAt austrian events) items items groupId with
  | waiting first same =>
    refine .inl ⟨?_, ?_⟩
    · rw [first]
      exact congrArg GateView.booked same
    · exact congrArg (map (·.transactionId)) (congrArg GateView.holds same)
  | booking _ same =>
    refine .inl ⟨congrArg GateView.booked same, ?_⟩
    exact congrArg (map (·.transactionId)) (congrArg GateView.holds same)
  | stopped _ failed => exact .inr (failed_because failed)

theorem refused_outcome (grouped : groupId ≠ "") (distinct : DistinctItems items)
    (split : items = before ++ .transfer t :: after)
    (refused : RefusedAt asset austrian (earliestLotContamination dropAt austrian events) items groupId
      before t failedTransfer failure) :
    applied asset austrian dropAt events items groupId = [] ∧
      ∀ leg ∈ legsOf items groupId, LegQuarantined asset austrian dropAt events items groupId leg := by
  have final := refuse_at grouped split refused
  exact ⟨congrArg GateView.booked final, fun leg inside =>
    legs_quarantined final (preflight_mem refused.2.2) (distinct.legs groupId) inside⟩

theorem stopped_outcome (grouped : groupId ≠ "") (distinct : DistinctItems items)
    (split : items = before ++ .transfer t :: after)
    (stopped : StoppedAt asset austrian (earliestLotContamination dropAt austrian events) items groupId
      before t failure) :
    legsOf items groupId = legsOf before groupId ++ t :: legsOf after groupId ∧
      applied asset austrian dropAt events items groupId = legsOf before groupId ∧
      ∀ id, id ∈ quarantinedByGate asset austrian dropAt events items groupId ↔
        ∃ leg ∈ t :: legsOf after groupId, id ∈ rowAnchors leg := by
  have final := stop_at grouped distinct split stopped
  have legs : legsOf items groupId = legsOf before groupId ++ t :: legsOf after groupId := by
    obtain ⟨rfl, -⟩ := stopped
    rw [split, legsOf_append, legsOf_cons_leg grouped]
  have own : ((t :: legsOf after groupId).map NormalizedTaxTransfer.itemId).Nodup :=
    (legs ▸ distinct.legs groupId).sublist ((sublist_append_right _ _).map _)
  exact ⟨legs, congrArg GateView.booked final, fun id => quarantined_of_gate final (.head _) own⟩

theorem clean_of_sound (grouped : groupId ≠ "") (distinct : DistinctItems items)
    (sound : GroupGateSound asset austrian dropAt events items groupId) :
    StopsCleanly asset austrian dropAt events items groupId := by
  intro before t after failure split own approved refused leg booked usedUp later remaining reclaims
  obtain ⟨legs, taken, held⟩ := stopped_outcome grouped distinct split ⟨own, approved, refused⟩
  have inside : leg ∈ legsOf items groupId := legs ▸ mem_append_left _ booked
  refine sound.kept leg inside ?_ ((held _).2 ⟨later, remaining, mem_rowAnchors.2 (.inr reclaims)⟩)
  intro sibling member same
  rw [legs] at member
  rcases mem_append.1 member with early | late
  · rwa [taken]
  · exact absurd same (usedUp sibling late)

theorem refused_at_first {otherBefore otherAfter : List LedgerItem} {other : NormalizedTaxTransfer}
    (grouped : groupId ≠ "") (split : items = before ++ .transfer t :: after)
    (refused : RefusedAt asset austrian (earliestLotContamination dropAt austrian events) items groupId
      before t failedTransfer failure)
    (otherSplit : items = otherBefore ++ .transfer other :: otherAfter) (otherOwn : other.groupId = groupId)
    (otherFirst : legsOf otherBefore groupId = []) : otherBefore = before := by
  have first : legsOf before groupId = [] := by
    cases phase_walk asset austrian (earliestLotContamination dropAt austrian events) items before groupId with
    | waiting first _ => exact first
    | booking _ same => exact absurd (refused.2.1.symm.trans (congrArg GateView.state same)) nofun
    | stopped _ failed => exact absurd (refused.2.1.symm.trans failed) nofun
  exact first_leg_unique grouped otherOwn refused.1 otherFirst first (otherSplit.symm.trans split)

theorem refused_field (grouped : groupId ≠ "") (distinct : DistinctItems items)
    (split : items = before ++ .transfer t :: after) (own : t.groupId = groupId) (first : legsOf before groupId = [])
    {failed : NormalizedTaxTransfer × GateFailure}
    (refused : preflight asset (legsOf items groupId)
      (walkBefore asset austrian dropAt events items before).accounts
      (walkBefore asset austrian dropAt events items before).priced = some failed) :
    applied asset austrian dropAt events items groupId = [] ∧
      ∀ leg ∈ legsOf items groupId, LegQuarantined asset austrian dropAt events items groupId leg := by
  have state : (walkBefore asset austrian dropAt events items before).groups groupId = none :=
    congrArg GateView.state (waiting_before first)
  exact refused_outcome grouped distinct split (t := t) ⟨own, state, refused⟩

theorem sound_of_clean (grouped : groupId ≠ "") (distinct : DistinctItems items)
    (clean : StopsCleanly asset austrian dropAt events items groupId) :
    GroupGateSound asset austrian dropAt events items groupId := by
  have whole : (legsOf items groupId).Nodup := (distinct.legs groupId).of_map _
  rcases group_outcome asset austrian dropAt events items groupId with
    ⟨taken, none⟩ | ⟨before, t, after, split, ⟨failedTransfer, failure, refused⟩ | ⟨failure, stopped⟩⟩
  · refine ⟨fun _ _ _ _ cut own first => refused_field grouped distinct cut own first, fun _ _ _ _ _ _ _ => ?_,
      taken ▸ whole, ?_, ?_⟩
    · exact ⟨_, taken.trans take_length.symm, fun leg beyond => absurd beyond (by simp)⟩
    · exact fun leg inside => .inl (taken ▸ inside)
    · intro leg inside _ held
      rw [none] at held
      cases held
  · obtain ⟨taken, quarantined⟩ := refused_outcome grouped distinct split refused
    refine ⟨fun _ _ _ _ cut own first => refused_field grouped distinct cut own first, ?_, taken ▸ nodup_nil,
      fun leg inside => .inr (quarantined leg inside), ?_⟩
    · intro other leg rest cut own first carried
      obtain rfl := refused_at_first grouped split refused cut own first
      exact absurd (carried.symm.trans refused.2.2) nofun
    · intro leg inside all
      have taken' := all leg inside rfl
      rw [taken] at taken'
      cases taken'
  · obtain ⟨legs, taken, held⟩ := stopped_outcome grouped distinct split stopped
    have quarantined : ∀ leg ∈ t :: legsOf after groupId,
        LegQuarantined asset austrian dropAt events items groupId leg := fun leg late =>
      ⟨(held _).2 ⟨leg, late, out_mem_rowAnchors leg⟩, (held _).2 ⟨leg, late, in_mem_rowAnchors leg⟩⟩
    rw [legs] at whole
    refine ⟨fun _ _ _ _ cut own first => refused_field grouped distinct cut own first, fun _ _ _ _ _ _ _ => ?_,
      taken ▸ (nodup_append.1 whole).1, ?_, ?_⟩
    · refine ⟨(legsOf before groupId).length, ?_, fun leg beyond => quarantined leg ?_⟩
      · rw [taken, legs, take_left]
      · rwa [legs, drop_left] at beyond
    · intro leg inside
      rw [legs] at inside
      rcases mem_append.1 inside with early | late
      · exact .inl (taken ▸ early)
      · exact .inr (quarantined leg late)
    · intro leg inside all reheld
      rw [taken, legs] at all
      rw [legs] at inside
      have usedUp : ∀ later ∈ t :: legsOf after groupId, later.outRow.anchor ≠ leg.outRow.anchor :=
        fun later late same => (nodup_append.1 whole).2.2 later
          (all later (mem_append_right _ late) same) later late rfl
      obtain ⟨later, late, named⟩ := (held _).1 reheld
      rcases mem_rowAnchors.1 named with own | reclaims
      · exact usedUp later late own.symm
      · exact clean before t after failure split stopped.1 stopped.2.1 stopped.2.2 leg (all leg inside rfl) usedUp later
          late reclaims

/-! A group of two sources and one destination that stops after its first leg: the second leg replaces the rows of
the whole group, the first leg's source among them. -/

def pooledLeg (source : String) (id : String) : NormalizedTaxTransfer :=
  { outTransactionId := source, fromWalletLabel := source, toWalletLabel := "vault", sent := 1, received := 1, fee := 0
    outRow := { id := source }, inRow := { id := "pooled" }, transferId := id, groupId := "pool"
    groupBlockRows := [{ id := "first" }, { id := "second" }, { id := "pooled" }] }

def funding (id wallet : String) : NormalizedTaxEvent :=
  { transactionId := id, occurredAt := "2024-01-01", direction := .inbound, walletLabel := wallet, amount := 1, fee := 0
    kind := "buy", rawRow := { id } }

def drained : NormalizedTaxEvent :=
  { transactionId := "spend", occurredAt := "2024-02-02", direction := .outbound, walletLabel := "second", amount := 1
    fee := 0, kind := "sell", rawRow := { id := "spend" } }

def pooledItems : List LedgerItem :=
  [.event (funding "buy-1" "first"), .event (funding "buy-2" "second"),
    .transfer (pooledLeg "first" "pool:first->pooled:0"), .event drained,
    .transfer (pooledLeg "second" "pool:second->pooled:1")]

/-- The gate of a group is sound exactly where the group stops cleanly. -/
theorem group_gate_sound_iff (asset : String) (austrian : Bool) (dropAt : Option String)
    (events : List NormalizedTaxEvent) (items : List LedgerItem) (groupId : String) (grouped : groupId ≠ "")
    (distinct : DistinctItems items) :
    GroupGateSound asset austrian dropAt events items groupId ↔
      StopsCleanly asset austrian dropAt events items groupId :=
  ⟨clean_of_sound grouped distinct, sound_of_clean grouped distinct⟩

theorem pooled_gate_sound_iff :
    "pool" ≠ "" ∧ DistinctItems pooledItems ∧
      (GroupGateSound "BTC" false none [] pooledItems "pool" ↔ StopsCleanly "BTC" false none [] pooledItems "pool") :=
  ⟨by decide, by unfold DistinctItems; decide,
    group_gate_sound_iff "BTC" false none [] pooledItems "pool" (by decide) (by unfold DistinctItems; decide)⟩

/-- The source of the booked leg is quarantined all the same. -/
theorem booked_source_quarantined : ¬GroupGateSound "BTC" false none [] pooledItems "pool" := by
  intro sound
  have booked : applied "BTC" false none [] pooledItems "pool" = [pooledLeg "first" "pool:first->pooled:0"] := by
    decide +kernel
  have legs : legsOf pooledItems "pool" =
      [pooledLeg "first" "pool:first->pooled:0", pooledLeg "second" "pool:second->pooled:1"] := by
    decide +kernel
  have held : "first" ∈ quarantinedByGate "BTC" false none [] pooledItems "pool" := by
    decide +kernel
  refine sound.kept (pooledLeg "first" "pool:first->pooled:0") (legs ▸ mem_cons_self) ?_ held
  intro sibling inside same
  rw [legs] at inside
  rw [booked]
  rcases mem_cons.1 inside with rfl | second
  · exact .head _
  · rw [mem_singleton.1 second] at same
    exact absurd same (by decide)

end

end Kassiber.Engine

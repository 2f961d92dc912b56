import Kassiber.Custody.Repeats

/-!
What the two fee passes keep: each row moves its wallet by what it moved before.
-/

namespace Kassiber.Custody.FeeConservation
open Lib.Dict Lib.Sorting
open List hiding lookup lookup_append lookup_singleton
open Prod (fst snd)

def walletDeltaMsat (row : ImportRow) : Int :=
  (normalizeBoundaryAmounts (directionOf (strip row.direction)) row.amount row.fee row.amountIncludesFee).walletDeltaMsat

theorem directionOf_outbound : directionOf (strip "outbound") = .outbound := by decide +kernel

theorem walletDelta_outbound {row : ImportRow} (outbound : row.direction = "outbound") :
    walletDeltaMsat row = -(if row.amountIncludesFee then row.amount else row.amount + row.fee) := by
  unfold walletDeltaMsat normalizeBoundaryAmounts
  rw [outbound, directionOf_outbound]
  by_cases included : row.amountIncludesFee = true
  · simp [included]
  · simp [included]

/-! ### The graph fee is divided exactly -/

/-- The fee that a closed graph proves, with what it asks of the spending rows. -/
structure ProvedFee (group : List ImportRow) (fee : Int) : Prop where
  graph : ∃ graphs merged, group.mapM (·.graph) = some graphs ∧ mergeOwnershipTxs graphs = some merged ∧
    fee = (graphTotal merged.inputs - graphTotal merged.outputs) * 1000
  gross : ∀ row ∈ group.filter (·.spends), row.fee = 0 ∧ row.amountIncludesFee = false
  nonneg : 0 ≤ fee
  covered : fee ≤ ((group.filter (·.spends)).map (·.amount)).sum

variable {fee : Int}

theorem ownedFee_proved {group : List ImportRow} (owned : ownedFee group = some fee) : ProvedFee group fee := by
  unfold ownedFee at owned
  simp only [Option.bind_eq_bind, Option.bind_eq_some_iff, Option.guard_eq_some', Option.pure_def, Option.some.injEq] at owned
  obtain ⟨-, -, -, gross, -, -, graphs, read, -, -, merged, joined, -, -, -, ⟨nonneg, -⟩, -, -, -, covered, rfl⟩ := owned
  exact ⟨⟨graphs, merged, read, joined, rfl⟩, fun row member => (gross row member).2, nonneg, covered⟩

def share (cells : List (String × Int)) (id : String) : Int := (lookup cells id).getD 0

theorem fifoCells_keys (sources : List (String × Int)) (fee : Int) :
    ∀ cell ∈ fifoCells sources fee, cell.1 ∈ sources.map fst := by
  induction sources generalizing fee with
  | nil => exact fun cell member => absurd member not_mem_nil
  | cons source rest ih =>
    obtain ⟨id, amount⟩ := source
    intro cell member
    unfold fifoCells at member
    split at member
    · exact absurd member not_mem_nil
    · split at member
      · exact .tail _ (ih fee cell member)
      · rcases mem_cons.1 member with rfl | later
        · exact .head _
        · exact .tail _ (ih _ cell later)

theorem share_cons (cell : String × Int) (rest : List (String × Int)) (absent : cell.1 ∉ rest.map fst) (id : String) :
    share (cell :: rest) id = if cell.1 = id then cell.2 else share rest id := by
  unfold share
  rw [← singleton_append, lookup_append, lookup_singleton]
  by_cases same : cell.1 = id
  · rw [if_pos same, if_pos same, lookup_eq_none.2 (same ▸ absent)]
    rfl
  · rw [if_neg same, if_neg same, Option.or_none]

theorem fifo_shares {sources : List (String × Int)} (distinct : (sources.map fst).Nodup)
    (amounts : ∀ source ∈ sources, 0 < source.2) (nonneg : 0 ≤ fee)
    (covered : fee ≤ (sources.map snd).sum) :
    (∀ source ∈ sources, 0 ≤ share (fifoCells sources fee) source.1 ∧ share (fifoCells sources fee) source.1 ≤ source.2) ∧
      (sources.map fun source => share (fifoCells sources fee) source.1).sum = fee := by
  induction sources generalizing fee with
  | nil =>
    rw [map_nil, sum_nil] at covered
    exact ⟨fun source member => absurd member not_mem_nil, by rw [map_nil, sum_nil]; omega⟩
  | cons source rest ih =>
    obtain ⟨id, amount⟩ := source
    have fresh : id ∉ rest.map fst := (nodup_cons.1 distinct).1
    have distinctRest := (nodup_cons.1 distinct).2
    have own : 0 < amount := amounts _ (.head _)
    have later : ∀ other ∈ rest, 0 < other.2 := fun other member => amounts other (.tail _ member)
    rw [map_cons, sum_cons] at covered
    by_cases done : fee = 0
    · subst done
      have nothing (other : String) : share (fifoCells ((id, amount) :: rest) 0) other = 0 := by
        rw [fifoCells, if_pos rfl]
        rfl
      refine ⟨fun other member => ?_, ?_⟩
      · rw [nothing]
        exact ⟨le_rfl, (amounts other member).le⟩
      · refine sum_eq_zero fun value listed => ?_
        obtain ⟨other, -, rfl⟩ := mem_map.1 listed
        exact nothing other.1
    · have cut : fifoCells ((id, amount) :: rest) fee = (id, min fee amount) :: fifoCells rest (fee - min fee amount) := by
        rw [fifoCells, if_neg done, if_neg own.ne']
      have apart : id ∉ (fifoCells rest (fee - min fee amount)).map fst := by
        intro member
        obtain ⟨cell, listed, rfl⟩ := mem_map.1 member
        exact fresh (fifoCells_keys rest _ cell listed)
      have first : share (fifoCells ((id, amount) :: rest) fee) id = min fee amount := by
        rw [cut, share_cons _ _ apart, if_pos rfl]
      have others : ∀ other ∈ rest, share (fifoCells ((id, amount) :: rest) fee) other.1 =
          share (fifoCells rest (fee - min fee amount)) other.1 := by
        intro other member
        have different : id ≠ other.1 := by
          intro same
          rw [same] at fresh
          exact fresh (mem_map_of_mem member)
        rw [cut, share_cons _ _ apart, if_neg different]
      have remaining : fee - min fee amount ≤ (rest.map snd).sum := by
        have total : 0 ≤ (rest.map snd).sum := by
          refine sum_nonneg fun value listed => ?_
          obtain ⟨other, inside, rfl⟩ := mem_map.1 listed
          exact (later other inside).le
        omega
      obtain ⟨within, sum⟩ := ih distinctRest later (sub_nonneg.2 (min_le_left fee amount)) remaining
      refine ⟨fun other member => ?_, ?_⟩
      · rcases mem_cons.1 member with rfl | inside
        · rw [first]
          exact ⟨le_min nonneg own.le, min_le_right _ _⟩
        · rw [others other inside]
          exact within other inside
      · rw [map_cons, sum_cons, first, map_congr_left others, sum]
        omega

theorem allocatedFees_sum {outbound : List ImportRow} (distinct : (outbound.map (·.id)).Nodup)
    (spending : ∀ row ∈ outbound, row.spends = true) (nonneg : 0 ≤ fee)
    (covered : fee ≤ (outbound.map (·.amount)).sum) :
    (∀ row ∈ outbound, 0 ≤ share (allocatedFees outbound fee) row.id ∧ share (allocatedFees outbound fee) row.id ≤ row.amount) ∧
      (outbound.map fun row => share (allocatedFees outbound fee) row.id).sum = fee := by
  have positive : ∀ row ∈ outbound, 0 < row.amount := fun row member => (spends_iff.1 (spending row member)).2
  unfold allocatedFees
  cases found : (outbound.filter fun row => fee < row.amount).argmin (·.id) with
  | some bearer =>
    obtain ⟨member, exceeds⟩ := mem_filter.1 (argmin_mem found)
    have exceeds := of_decide_eq_true exceeds
    have bears (id : String) : share [(bearer.id, fee)] id = if bearer.id = id then fee else 0 := by
      rw [share_cons _ _ not_mem_nil]
      rfl
    simp only [bears]
    refine ⟨fun row inside => ?_, ?_⟩
    · split
      case isTrue same =>
        obtain rfl : bearer = row := inj_on_of_nodup_map distinct member inside same
        exact ⟨nonneg, exceeds.le⟩
      · exact ⟨le_rfl, (positive row inside).le⟩
    · obtain ⟨before, after, rfl⟩ := append_of_mem member
      rw [map_append, map_cons, nodup_middle] at distinct
      obtain ⟨fresh, -⟩ := nodup_cons.1 distinct
      have none {rows : List ImportRow} (among : ∀ row ∈ rows, row.id ∈ before.map (·.id) ++ after.map (·.id)) :
          (rows.map fun row => if bearer.id = row.id then fee else 0).sum = 0 := by
        refine sum_eq_zero fun value listed => ?_
        obtain ⟨row, inside, rfl⟩ := mem_map.1 listed
        refine if_neg fun same => fresh ?_
        rw [same]
        exact among row inside
      rw [map_append, map_cons, sum_append, sum_cons, if_pos rfl,
        none fun row inside => mem_append_left _ (mem_map_of_mem inside),
        none fun row inside => mem_append_right _ (mem_map_of_mem inside), zero_add, add_zero]
  | none =>
    have perm := sortedBy_perm (fun row : ImportRow => row.id) outbound
    have sources : ∀ source ∈ (sortedBy (·.id) outbound).map fun row => (row.id, row.amount), 0 < source.2 := by
      intro source member
      obtain ⟨row, listed, rfl⟩ := mem_map.1 member
      exact positive row (mem_sortedBy.1 listed)
    have ids : (((sortedBy (·.id) outbound).map fun row => (row.id, row.amount)).map fst).Nodup := by
      rw [map_map]
      exact (perm.map (·.id)).nodup_iff.2 distinct
    have total : fee ≤ (((sortedBy (·.id) outbound).map fun row => (row.id, row.amount)).map snd).sum := by
      rw [map_map]
      exact covered.trans_eq (perm.map (·.amount)).sum_eq.symm
    obtain ⟨within, sum⟩ := fifo_shares ids sources nonneg total
    refine ⟨fun row inside => within (row.id, row.amount) (mem_map_of_mem (mem_sortedBy.2 inside)), ?_⟩
    rw [map_map] at sum
    exact (perm.map _).sum_eq.symm.trans sum

/-! ### Each pass keeps what a row moves -/

section
variable {rows : List ImportRow} {row : ImportRow}

theorem normalizeOwnedFee_cases (rows : List ImportRow) (row : ImportRow) :
    normalizeOwnedFee rows row = row ∨ ∃ key fee, eventOf row = some key ∧ isOwnedObservation key row = true ∧
      row.spends = true ∧ ownedFee (ownedGroup key rows) = some fee := by
  cases event : eventOf row with
  | none => exact .inl (by simp only [normalizeOwnedFee, event])
  | some key =>
    cases owned : isOwnedObservation key row with
    | false => exact .inl (normalizeOwnedFee_unowned event owned)
    | true =>
      cases spends : row.spends with
      | false => exact .inl (normalizeOwnedFee_still event spends)
      | true =>
        cases allocates : ownedFee (ownedGroup key rows) with
        | none => exact .inl (normalizeOwnedFee_none event allocates)
        | some fee => exact .inr ⟨key, fee, rfl, owned, rfl, allocates⟩

theorem normalizeOwnedFee_delta (member : row ∈ rows) :
    walletDeltaMsat (normalizeOwnedFee rows row) = walletDeltaMsat row := by
  rcases normalizeOwnedFee_cases rows row with still | ⟨key, fee, event, owned, spends, allocates⟩
  · rw [still]
  · have outbound := (spends_iff.1 spends).1
    have inside : row ∈ (ownedGroup key rows).filter (·.spends) := mem_filter.2 ⟨mem_filter.2 ⟨member, owned⟩, spends⟩
    obtain ⟨free, separate⟩ := (ownedFee_proved allocates).gross row inside
    obtain ⟨-, direction, -, -, convention⟩ := normalizeOwnedFee_keeps rows row
    obtain ⟨amount, fee, -⟩ := normalizeOwnedFee_share event owned spends allocates
    rw [walletDelta_outbound (direction.trans outbound), walletDelta_outbound outbound, convention, separate, amount, fee,
      free]
    simp

theorem separateFee_cases (rows : List ImportRow) (row : ImportRow) :
    separateFee rows row = row ∨ ∃ key, carriesEventFee key row = true ∧ separateFee rows row = row.absorbFee := by
  cases event : eventOf row with
  | none => exact .inl (by simp only [separateFee, event])
  | some key =>
    by_cases decision : carriesEventFee key row ∧ StampedTwice (feeCarriers key rows) ∧
        ((feeCarriers key rows).argmin (·.id)).map (·.id) ≠ some row.id
    · exact .inr ⟨key, decision.1, by simp only [separateFee, event, if_pos decision]⟩
    · exact .inl (by simp only [separateFee, event, if_neg decision])

theorem separateFee_delta (rows : List ImportRow) (row : ImportRow) :
    walletDeltaMsat (separateFee rows row) = walletDeltaMsat row := by
  rcases separateFee_cases rows row with still | ⟨key, carries, absorbed⟩
  · rw [still]
  · have outbound := (of_decide_eq_true carries).1
    have same : row.absorbFee.direction = "outbound" := outbound
    rw [absorbed, walletDelta_outbound same, walletDelta_outbound outbound]
    by_cases included : row.amountIncludesFee = true
    · simp [ImportRow.absorbFee, included]
    · simp [ImportRow.absorbFee, included]

theorem separateFee_normalized (normalized : row.custodyNativeFeeNormalized = true) : separateFee rows row = row := by
  rcases separateFee_cases rows row with still | ⟨key, carries, -⟩
  · exact still
  · have unmarked := (of_decide_eq_true carries).2.2.2.2
    rw [normalized] at unmarked
    cases unmarked

end

/-! ### One copy of a stamped fee -/

def outboundOf (key : CanonicalEventKey) (rows : List ImportRow) : List ImportRow :=
  (rowsOf key rows).filter fun row => row.direction = "outbound"

/-- The event is on chain, and its outbound rows all carry one positive fee that no pass has settled yet. -/
structure Stamped (key : CanonicalEventKey) (rows : List ImportRow) (fee : Int) : Prop where
  chain : key.nativeNamespace = "chain"
  positive : 0 < fee
  outbound : outboundOf key rows ≠ []
  carried : ∀ row ∈ outboundOf key rows, row.fee = fee ∧ row.custodyNativeFeeNormalized = false

theorem settled_direction {rows : List ImportRow} {row : ImportRow} :
    (settled rows row).direction = row.direction ∧ (settled rows row).id = row.id := by
  obtain ⟨id, direction, -⟩ := normalizeOwnedFee_keeps rows row
  unfold settled
  rcases separateFee_cases (normalizeOwnedBitcoinFees rows) (normalizeOwnedFee rows row) with still | ⟨_, -, absorbed⟩
  · rw [still]
    exact ⟨direction, id⟩
  · rw [absorbed]
    exact ⟨direction, id⟩

section
variable {key : CanonicalEventKey} {rows : List ImportRow} {fee : Int}

theorem Stamped.carriers (stamped : Stamped key rows fee) : feeCarriers key (rowsOf key rows) = outboundOf key rows := by
  refine filter_congr fun row member => ?_
  have event : eventOf row = some key := of_decide_eq_true (mem_filter.1 member).2
  by_cases direction : row.direction = "outbound"
  · obtain ⟨same, unsettled⟩ := stamped.carried row (mem_filter.2 ⟨member, decide_eq_true direction⟩)
    rw [decide_eq_true direction]
    exact decide_eq_true ⟨direction, event, stamped.chain, same ▸ stamped.positive, unsettled⟩
  · rw [decide_eq_false direction]
    exact decide_eq_false fun carries => direction carries.1

theorem Stamped.unallocated (stamped : Stamped key rows fee) {row : ImportRow} (outbound : row ∈ outboundOf key rows) :
    normalizeOwnedFee (rowsOf key rows) row = row := by
  rcases normalizeOwnedFee_cases (rowsOf key rows) row with still | ⟨other, allocated, -, owned, -, allocates⟩
  · exact still
  · have inside : row ∈ ownedGroup other (rowsOf key rows) := mem_filter.2 ⟨mem_of_mem_filter outbound, owned⟩
    have free := (ownedFee_some allocates).2.1 row inside
    have positive := stamped.positive
    rw [← (stamped.carried row outbound).1, free] at positive
    exact absurd positive (lt_irrefl 0)

theorem Stamped.settled_fee (stamped : Stamped key rows fee) {keeper row : ImportRow}
    (first : (outboundOf key rows).argmin (·.id) = some keeper)
    (outbound : row ∈ outboundOf key rows) :
    (settled (rowsOf key rows) row).fee = if row.id = keeper.id then fee else 0 := by
  have events : ∀ other ∈ rowsOf key rows, eventOf other = some key :=
    fun other member => of_decide_eq_true (mem_filter.1 member).2
  have inside : row ∈ rowsOf key rows := mem_of_mem_filter outbound
  have least : keeper.id ≤ row.id := le_of_mem_argmin outbound first
  have leading : keeper ∈ outboundOf key rows := argmin_mem first
  by_cases kept : row.id = keeper.id
  · have keeps : ¬Yields key (rowsOf key rows) row := by
      rintro ⟨-, -, other, carrier, less⟩
      rw [stamped.carriers] at carrier
      rw [kept] at less
      exact absurd less (not_lt.2 (le_of_mem_argmin carrier first))
    rw [settled_keeps events inside keeps, stamped.unallocated outbound, if_pos kept]
    exact (stamped.carried row outbound).1
  · have yields : Yields key (rowsOf key rows) row := by
      unfold Yields
      rw [stamped.carriers]
      have carries : row ∈ feeCarriers key (rowsOf key rows) := stamped.carriers ▸ outbound
      refine ⟨(mem_feeCarriers.1 carries).2, fun other carrier => ?_, keeper, leading, lt_of_le_of_ne least (Ne.symm kept)⟩
      rw [(stamped.carried other carrier).1, (stamped.carried row outbound).1]
    rw [settled_yields events inside yields, if_neg kept]
    rfl

end

theorem outboundOf_enriched (batch : ImportRows) (key : CanonicalEventKey) :
    outboundOf key (enrichedQuantityRows batch) =
      (outboundOf key (batch.rows.map enrichRow)).map (settled (rowsOf key (batch.rows.map enrichRow))) := by
  unfold outboundOf
  rw [rowsOf_settled, filter_map]
  congr 1
  refine filter_congr fun row _ => ?_
  simp only [Function.comp_apply, settled_direction.1]

theorem enriched_ids (batch : ImportRows) : ((batch.rows.map enrichRow).map (·.id)).Nodup := by
  rw [map_map]
  exact batch.distinct

theorem stamped_once (batch : ImportRows) {key : CanonicalEventKey}
    (stamped : Stamped key (batch.rows.map enrichRow) fee) :
    ((outboundOf key (enrichedQuantityRows batch)).map (·.fee)).filter (· ≠ 0) = [fee] := by
  have sublist : Sublist (outboundOf key (batch.rows.map enrichRow)) (batch.rows.map enrichRow) :=
    filter_sublist.trans filter_sublist
  have distinct : ((outboundOf key (batch.rows.map enrichRow)).map (·.id)).Nodup :=
    (enriched_ids batch).sublist (sublist.map _)
  cases first : (outboundOf key (batch.rows.map enrichRow)).argmin (·.id) with
  | none => exact absurd (argmin_eq_none.1 first) stamped.outbound
  | some keeper =>
    rw [outboundOf_enriched, map_map]
    have fees : (outboundOf key (batch.rows.map enrichRow)).map
        ((·.fee) ∘ settled (rowsOf key (batch.rows.map enrichRow))) =
        (outboundOf key (batch.rows.map enrichRow)).map fun row => if row.id = keeper.id then fee else 0 := by
      exact map_congr_left fun row outbound => stamped.settled_fee first outbound
    rw [fees]
    obtain ⟨before, after, parts⟩ := append_of_mem (argmin_mem first)
    rw [parts, map_append, map_cons, nodup_middle] at distinct
    obtain ⟨fresh, -⟩ := nodup_cons.1 distinct
    have gone {others : List ImportRow} (among : ∀ row ∈ others, row.id ∈ before.map (·.id) ++ after.map (·.id)) :
        (others.map fun row => if row.id = keeper.id then fee else 0).filter (· ≠ 0) = [] := by
      refine filter_eq_nil_iff.2 fun value listed => ?_
      obtain ⟨row, inside, rfl⟩ := mem_map.1 listed
      have other : row.id ≠ keeper.id := fun same => fresh (same ▸ among row inside)
      simp [other]
    rw [parts, map_append, map_cons, filter_append,
      gone fun row inside => mem_append_left _ (mem_map_of_mem inside), if_pos rfl,
      filter_cons_of_pos (p := fun left : Int => decide (left ≠ 0)) (decide_eq_true stamped.positive.ne'),
      gone fun row inside => mem_append_right _ (mem_map_of_mem inside), nil_append]

theorem owned_fee_allocated {rows : List ImportRow} (distinct : (rows.map (·.id)).Nodup) {key : CanonicalEventKey}
    (allocates : ownedFee (ownedGroup key rows) = some fee) :
    (∀ row ∈ (ownedGroup key rows).filter (·.spends), 0 ≤ (normalizeOwnedFee rows row).fee ∧
        (normalizeOwnedFee rows row).fee ≤ row.amount ∧
        settled rows row = normalizeOwnedFee rows row) ∧
      (((ownedGroup key rows).filter (·.spends)).map fun row => (normalizeOwnedFee rows row).fee).sum = fee := by
  have proved := ownedFee_proved allocates
  have sublist : Sublist ((ownedGroup key rows).filter (·.spends)) rows := filter_sublist.trans filter_sublist
  have ids := distinct.sublist (sublist.map (·.id))
  have spending : ∀ row ∈ (ownedGroup key rows).filter (·.spends), row.spends = true :=
    fun row member => (mem_filter.1 member).2
  obtain ⟨within, sum⟩ := allocatedFees_sum ids spending proved.nonneg proved.covered
  have fees : ∀ row ∈ (ownedGroup key rows).filter (·.spends), (normalizeOwnedFee rows row).fee =
      share (allocatedFees ((ownedGroup key rows).filter (·.spends)) fee) row.id ∧
        (normalizeOwnedFee rows row).custodyNativeFeeNormalized = true := by
    intro row member
    have owned := (mem_filter.1 (mem_filter.1 member).1).2
    exact (normalizeOwnedFee_share (isOwnedObservation_event owned) owned (spending row member) allocates).2
  refine ⟨fun row member => ?_, ?_⟩
  · obtain ⟨borne, normalized⟩ := fees row member
    rw [borne]
    exact ⟨(within row member).1, (within row member).2, separateFee_normalized normalized⟩
  · rw [map_congr_left fun row member => (fees row member).1]
    exact sum

theorem enriched_conserves (batch : ImportRows) :
    Forall₂ (fun row enriched => enriched.id = row.id ∧ walletDeltaMsat enriched = walletDeltaMsat row ∧
      (row.direction ≠ "outbound" → enriched.amount = row.amount ∧ enriched.fee = row.fee))
      batch.rows (enrichedQuantityRows batch) := by
  have listed : enrichedQuantityRows batch =
      batch.rows.map fun row => settled (batch.rows.map enrichRow) (enrichRow row) := by
    unfold enrichedQuantityRows separateDuplicateFees settled
    rw [normalizeOwnedBitcoinFees, map_map, map_map]
    rfl
  rw [listed, forall₂_map_right_iff, forall₂_same]
  intro row member
  have inside : enrichRow row ∈ batch.rows.map enrichRow := mem_map_of_mem member
  refine ⟨settled_direction.2, ?_, fun other => ?_⟩
  · exact (separateFee_delta _ _).trans (normalizeOwnedFee_delta inside)
  · unfold settled
    have still : normalizeOwnedFee (batch.rows.map enrichRow) (enrichRow row) = enrichRow row := by
      rcases normalizeOwnedFee_cases (batch.rows.map enrichRow) (enrichRow row) with same | ⟨_, _, -, -, spends, -⟩
      · exact same
      · exact absurd (spends_iff.1 spends).1 other
    rw [still]
    rcases separateFee_cases (normalizeOwnedBitcoinFees (batch.rows.map enrichRow)) (enrichRow row) with
      same | ⟨_, carries, -⟩
    · rw [same]
      exact ⟨rfl, rfl⟩
    · exact absurd (of_decide_eq_true carries).1 other

/-- Fee normalization changes no wallet's balance, leaves one copy of a stamped fee, and divides a proved one exactly. -/
theorem fee_normalization_conserves (batch : ImportRows) :
    List.Forall₂ (fun row enriched => enriched.id = row.id ∧ walletDeltaMsat enriched = walletDeltaMsat row ∧
        (row.direction ≠ "outbound" → enriched.amount = row.amount ∧ enriched.fee = row.fee))
        batch.rows (enrichedQuantityRows batch) ∧
      (∀ key fee, Stamped key (batch.rows.map enrichRow) fee →
        ((outboundOf key (enrichedQuantityRows batch)).map (·.fee)).filter (· ≠ 0) = [fee]) ∧
      ∀ key fee, ownedFee (ownedGroup key (batch.rows.map enrichRow)) = some fee →
        (∀ row ∈ (ownedGroup key (batch.rows.map enrichRow)).filter (·.spends),
          0 ≤ (normalizeOwnedFee (batch.rows.map enrichRow) row).fee ∧
          (normalizeOwnedFee (batch.rows.map enrichRow) row).fee ≤ row.amount ∧
          settled (batch.rows.map enrichRow) row = normalizeOwnedFee (batch.rows.map enrichRow) row) ∧
        (((ownedGroup key (batch.rows.map enrichRow)).filter (·.spends)).map
          fun row => (normalizeOwnedFee (batch.rows.map enrichRow) row).fee).sum = fee ∧
        ∃ graphs merged, (ownedGroup key (batch.rows.map enrichRow)).mapM (·.graph) = some graphs ∧
          mergeOwnershipTxs graphs = some merged ∧
          fee = (graphTotal merged.inputs - graphTotal merged.outputs) * 1000 := by
  refine ⟨enriched_conserves batch, fun key fee stamped => stamped_once batch stamped, fun key fee allocates => ?_⟩
  obtain ⟨within, sum⟩ := owned_fee_allocated (enriched_ids batch) allocates
  exact ⟨within, sum, (ownedFee_proved allocates).graph⟩

/-- Two spends of one transaction that are marked as normalized before the passes run. -/
def markedSpend (id : String) (named : strip id ≠ "") : ImportRow :=
  { importedSpend id 10 named with custodyNativeFeeNormalized := true }

def markedBatch : ImportRows :=
  ⟨[markedSpend "out" (sampleSpent 0).named, markedSpend "out-duplicate" (sampleCopy 0).named],
    nodup_cons.2 ⟨show "out" ∉ ["out-duplicate"] by decide, nodup_singleton _⟩⟩

/-- Rows that are already marked all keep the fee that each of them states. -/
theorem marked_rows_keep_every_fee :
    ¬∀ (batch : ImportRows) (key : CanonicalEventKey) (fee : Int), key.nativeNamespace = "chain" → 0 < fee →
      outboundOf key (batch.rows.map enrichRow) ≠ [] → (∀ row ∈ outboundOf key (batch.rows.map enrichRow), row.fee = fee) →
      ((outboundOf key (enrichedQuantityRows batch)).map (·.fee)).filter (· ≠ 0) = [fee] := by
  intro every
  have left : ((outboundOf spendEvent (enrichedQuantityRows markedBatch)).map (·.fee)).filter (· ≠ 0) = [10, 10] := by
    decide +kernel
  have stated : (outboundOf spendEvent (markedBatch.rows.map enrichRow)).map (·.fee) = [10, 10] := by
    decide +kernel
  have kept := every markedBatch spendEvent 10 rfl (by decide) (fun empty => by rw [empty] at stated; cases stated)
    fun row member => by
      have listed : row.fee ∈ [(10 : Int), 10] := stated ▸ mem_map_of_mem member
      rcases mem_cons.1 listed with same | rest
      · exact same
      · exact mem_singleton.1 rest
  rw [left] at kept
  exact absurd kept (by decide)

end Kassiber.Custody.FeeConservation

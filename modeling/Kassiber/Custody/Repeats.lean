import Kassiber.Custody.RowQuantities

/-!
Exact repeats of an import row. The canonical input of a batch is compared with the canonical
input of the same batch with one of its rows imported a second time under a fresh id.
-/

namespace Kassiber.Custody
open Lib.Outcome Lib.Dict Lib.Sorting Lib.Document Function
open List hiding lookup lookup_singleton

theorem ownedFee_some {group : List ImportRow} {fee : Int} (owned : ownedFee group = some fee) :
    (group.map (·.walletId)).Nodup ∧ (∀ row ∈ group, row.fee = 0) ∧ 0 ≤ fee ∧ ∃ row ∈ group, row.spends = true := by
  unfold ownedFee at owned
  simp only [Option.bind_eq_bind, Option.bind_eq_some_iff, Option.guard_eq_some', Option.pure_def, Option.some.injEq] at owned
  obtain ⟨-, spending, -, -, -, wallets, graphs, -, -, -, merged, -, -, -, -, ⟨nonneg, -⟩, -, balance, -, -, rfl⟩ := owned
  refine ⟨wallets, fun row member => (balance row member).2, nonneg, ?_⟩
  obtain ⟨row, listed⟩ := exists_mem_of_ne_nil _ spending
  exact ⟨row, mem_of_mem_filter listed, (mem_filter.1 listed).2⟩

variable {row copy : ImportRow}

theorem spends_iff : row.spends = true ↔ row.direction = "outbound" ∧ 0 < row.amount := by
  simp [ImportRow.spends]

theorem fifoCells_pos {sources : List (String × Int)} {fee : Int} (amounts : ∀ source ∈ sources, 0 < source.2)
    (positive : 0 ≤ fee) : ∀ cell ∈ fifoCells sources fee, 0 < cell.2 := by
  induction sources generalizing fee with
  | nil => intro cell member; cases member
  | cons source rest ih =>
    obtain ⟨id, amount⟩ := source
    have own : 0 < amount := amounts _ (.head _)
    unfold fifoCells
    split
    · intro cell member
      cases member
    · rename_i open'
      rw [if_neg own.ne']
      intro cell member
      rcases mem_cons.1 member with rfl | later
      · exact lt_min (lt_of_le_of_ne positive (Ne.symm open')) own
      · exact ih (fun source inside => amounts source (.tail _ inside)) (sub_nonneg.2 (min_le_left _ _)) cell later

theorem allocatedFees_share {outbound : List ImportRow} {fee : Int} (spending : ∀ row ∈ outbound, row.spends = true)
    (nonempty : ∃ row, row ∈ outbound) (nonneg : 0 ≤ fee) :
    (fee = 0 → ∀ id, (lookup (allocatedFees outbound fee) id).getD 0 = 0) ∧
      (0 < fee → ∃ row ∈ outbound, 0 < (lookup (allocatedFees outbound fee) row.id).getD 0) := by
  unfold allocatedFees
  cases bearer : (outbound.filter fun row => fee < row.amount).argmin (·.id) with
  | some row =>
    refine ⟨?_, fun positive => ?_⟩
    · rintro rfl id
      simp only [lookup_singleton]
      split <;> rfl
    · refine ⟨row, mem_of_mem_filter (argmin_mem bearer), ?_⟩
      simpa [lookup_singleton] using positive
  | none =>
    rw [argmin_eq_none, filter_eq_nil_iff] at bearer
    obtain ⟨first, inside⟩ := nonempty
    have small : first.amount ≤ fee := not_lt.1 (by simpa using bearer first inside)
    have amount := (spends_iff.1 (spending first inside)).2
    refine ⟨fun zero => absurd amount (by omega), fun positive => ?_⟩
    cases sorted : sortedBy (·.id) outbound with
    | nil =>
      have gone : first ∈ sortedBy (·.id) outbound := mem_sortedBy.2 inside
      rw [sorted] at gone
      cases gone
    | cons lead rest =>
      have amounts : ∀ source ∈ (lead :: rest).map fun row => (row.id, row.amount), 0 < source.2 := by
        intro source member
        obtain ⟨row, listed, rfl⟩ := mem_map.1 member
        rw [← sorted] at listed
        exact (spends_iff.1 (spending row (mem_sortedBy.1 listed))).2
      have leading : lead ∈ outbound := by
        have listed : lead ∈ sortedBy (fun row : ImportRow => row.id) outbound := by
          rw [sorted]
          exact .head _
        exact mem_sortedBy.1 listed
      refine ⟨lead, leading, ?_⟩
      have cells := fifoCells_pos amounts positive.le
      have own : 0 < lead.amount := amounts _ (.head _)
      cases found : lookup (fifoCells ((lead :: rest).map fun row => (row.id, row.amount)) fee) lead.id with
      | some share => exact cells _ (mem_of_lookup found)
      | none =>
        refine absurd ?_ (lookup_eq_none.1 found)
        simp only [map_cons, fifoCells, if_neg positive.ne', if_neg own.ne']
        exact .head _

theorem normalizeOwnedFee_keeps (rows : List ImportRow) (row : ImportRow) :
    (normalizeOwnedFee rows row).id = row.id ∧ (normalizeOwnedFee rows row).direction = row.direction ∧
      (normalizeOwnedFee rows row).walletId = row.walletId ∧ (normalizeOwnedFee rows row).asset = row.asset ∧
      (normalizeOwnedFee rows row).amountIncludesFee = row.amountIncludesFee := by
  unfold normalizeOwnedFee
  split
  · exact ⟨rfl, rfl, rfl, rfl, rfl⟩
  · split
    · split
      · exact ⟨rfl, rfl, rfl, rfl, rfl⟩
      · split
        · exact ⟨rfl, rfl, rfl, rfl, rfl⟩
        · exact ⟨rfl, rfl, rfl, rfl, rfl⟩
    · exact ⟨rfl, rfl, rfl, rfl, rfl⟩

section
variable {key : CanonicalEventKey} {rows : List ImportRow} {row : ImportRow}

theorem normalizeOwnedFee_unowned (event : eventOf row = some key) (unowned : isOwnedObservation key row = false) :
    normalizeOwnedFee rows row = row := by
  unfold normalizeOwnedFee
  rw [event]
  simp [unowned]

theorem normalizeOwnedFee_none (event : eventOf row = some key) (none : ownedFee (ownedGroup key rows) = none) :
    normalizeOwnedFee rows row = row := by
  unfold normalizeOwnedFee
  rw [event]
  simp only [none]
  split <;> rfl

theorem normalizeOwnedFee_still (event : eventOf row = some key) (still : row.spends = false) :
    normalizeOwnedFee rows row = row := by
  unfold normalizeOwnedFee
  rw [event]
  simp only [still]
  split
  · split <;> simp
  · rfl

theorem normalizeOwnedFee_share (event : eventOf row = some key) (owned : isOwnedObservation key row = true)
    (spends : row.spends = true) {fee : Int} (allocates : ownedFee (ownedGroup key rows) = some fee) :
    (normalizeOwnedFee rows row).amount =
        row.amount - (lookup (allocatedFees ((ownedGroup key rows).filter (·.spends)) fee) row.id).getD 0 ∧
      (normalizeOwnedFee rows row).fee =
        (lookup (allocatedFees ((ownedGroup key rows).filter (·.spends)) fee) row.id).getD 0 ∧
      (normalizeOwnedFee rows row).custodyNativeFeeNormalized = true := by
  unfold normalizeOwnedFee
  rw [event]
  simp [owned, allocates, spends]

theorem normalizeOwnedFee_carrier (member : row ∈ rows) (event : eventOf row = some key) :
    carriesEventFee key (normalizeOwnedFee rows row) = carriesEventFee key row ∧
      (carriesEventFee key row = true → normalizeOwnedFee rows row = row) := by
  by_cases owned : isOwnedObservation key row = true
  · cases allocates : ownedFee (ownedGroup key rows) with
    | none =>
      rw [normalizeOwnedFee_none event allocates]
      exact ⟨rfl, fun _ => rfl⟩
    | some fee =>
      by_cases spends : row.spends = true
      · have free := (ownedFee_some allocates).2.1 row (mem_filter.2 ⟨member, owned⟩)
        have before : carriesEventFee key row = false := by
          simp [carriesEventFee, free]
        have after : carriesEventFee key (normalizeOwnedFee rows row) = false := by
          simp [carriesEventFee, (normalizeOwnedFee_share event owned spends allocates).2.2]
        rw [before, after]
        exact ⟨rfl, fun carries => by cases carries⟩
      · rw [normalizeOwnedFee_still event (by simpa using spends)]
        exact ⟨rfl, fun _ => rfl⟩
  · rw [normalizeOwnedFee_unowned event (by simpa using owned)]
    exact ⟨rfl, fun _ => rfl⟩

theorem feeCarriers_normalized (events : ∀ row ∈ rows, eventOf row = some key) :
    feeCarriers key (normalizeOwnedBitcoinFees rows) = feeCarriers key rows := by
  unfold feeCarriers normalizeOwnedBitcoinFees
  rw [filter_map]
  have same : rows.filter (carriesEventFee key ∘ normalizeOwnedFee rows) = rows.filter (carriesEventFee key) :=
    filter_congr fun row member => (normalizeOwnedFee_carrier member (events row member)).1
  rw [same]
  refine (map_congr_left fun row member => ?_).trans (map_id _)
  obtain ⟨inside, carries⟩ := mem_filter.1 member
  exact (normalizeOwnedFee_carrier inside (events row inside)).2 carries

theorem dedup_length_one {α : Type} [DecidableEq α] {xs : List α} {x : α} (member : x ∈ xs) :
    xs.dedup.length = 1 ↔ ∀ y ∈ xs, y = x := by
  constructor
  · intro one y inside
    obtain ⟨z, only⟩ := length_eq_one_iff.1 one
    have first : x ∈ xs.dedup := mem_dedup.2 member
    have second : y ∈ xs.dedup := mem_dedup.2 inside
    rw [only, mem_singleton] at first second
    rw [first, second]
  · intro same
    have only : xs.dedup.Perm [x] := by
      refine (perm_ext_iff_of_nodup (nodup_dedup xs) (nodup_singleton x)).2 fun y => ?_
      rw [mem_dedup, mem_singleton]
      exact ⟨same y, fun equal => equal ▸ member⟩
    exact only.length_eq

theorem one_lt_length {α : Type} {xs : List α} {x y : α} (first : x ∈ xs) (second : y ∈ xs) (apart : x ≠ y) :
    1 < xs.length := by
  match xs, first, second with
  | [z], first, second =>
    rw [mem_singleton] at first second
    exact absurd (first.trans second.symm) apart
  | _ :: _ :: rest, _, _ => simp

/-- A carrier gives up its fee when all carriers state one fee and another one comes first. -/
def Yields (key : CanonicalEventKey) (rows : List ImportRow) (row : ImportRow) : Prop :=
  carriesEventFee key row = true ∧ (∀ other ∈ feeCarriers key rows, other.fee = row.fee) ∧
    ∃ other ∈ feeCarriers key rows, other.id < row.id

theorem separateFee_iff (member : row ∈ rows) (event : eventOf row = some key) :
    (Yields key rows row → separateFee rows row = row.absorbFee) ∧ (¬Yields key rows row → separateFee rows row = row) := by
  have decision : separateFee rows row =
      if carriesEventFee key row = true ∧ StampedTwice (feeCarriers key rows) ∧
        ((feeCarriers key rows).argmin (·.id)).map (·.id) ≠ some row.id then row.absorbFee else row := by
    unfold separateFee
    rw [event]
  have agree : (carriesEventFee key row = true ∧ StampedTwice (feeCarriers key rows) ∧
      ((feeCarriers key rows).argmin (·.id)).map (·.id) ≠ some row.id) ↔ Yields key rows row := by
    refine and_congr_right fun carries => ?_
    have listed : row ∈ feeCarriers key rows := mem_filter.2 ⟨member, carries⟩
    have fees : ((feeCarriers key rows).map (·.fee)).dedup.length = 1 ↔
        ∀ other ∈ feeCarriers key rows, other.fee = row.fee := by
      rw [dedup_length_one (mem_map_of_mem listed)]
      simp
    rw [StampedTwice, fees]
    cases first : (feeCarriers key rows).argmin (·.id) with
    | none =>
      rw [argmin_eq_none] at first
      rw [first] at listed
      cases listed
    | some keeper =>
      have inside := argmin_mem first
      constructor
      · rintro ⟨⟨-, same⟩, other⟩
        refine ⟨same, keeper, inside, lt_of_le_of_ne (le_of_mem_argmin listed first) ?_⟩
        exact fun equal => other (congrArg some equal)
      · rintro ⟨same, other, present, less⟩
        refine ⟨⟨?_, same⟩, ?_⟩
        · refine one_lt_length present listed ?_
          rintro rfl
          exact lt_irrefl _ less
        · intro equal
          have least : keeper.id ≤ other.id := le_of_mem_argmin present first
          have own : keeper.id = row.id := Option.some.inj equal
          rw [own] at least
          exact absurd less (not_lt.2 least)
  rw [decision]
  exact ⟨fun yields => if_pos (agree.2 yields), fun keeps => if_neg fun given => keeps (agree.1 given)⟩

def settled (rows : List ImportRow) (row : ImportRow) : ImportRow :=
  separateFee (normalizeOwnedBitcoinFees rows) (normalizeOwnedFee rows row)

theorem yields_normalized (events : ∀ row ∈ rows, eventOf row = some key) (member : row ∈ rows) :
    Yields key (normalizeOwnedBitcoinFees rows) (normalizeOwnedFee rows row) ↔ Yields key rows row := by
  obtain ⟨same, still⟩ := normalizeOwnedFee_carrier member (events row member)
  unfold Yields
  rw [feeCarriers_normalized events, same]
  refine and_congr_right fun carries => ?_
  rw [still carries]

theorem settled_yields (events : ∀ row ∈ rows, eventOf row = some key) (member : row ∈ rows)
    (yields : Yields key rows row) : settled rows row = row.absorbFee := by
  have event : eventOf (normalizeOwnedFee rows row) = some key :=
    (normalizeOwnedFee_pass.event rows row).trans (events row member)
  have present : normalizeOwnedFee rows row ∈ normalizeOwnedBitcoinFees rows := mem_map_of_mem member
  have decision := (separateFee_iff present event).1 ((yields_normalized events member).2 yields)
  rw [(normalizeOwnedFee_carrier member (events row member)).2 yields.1] at decision
  unfold settled
  rw [(normalizeOwnedFee_carrier member (events row member)).2 yields.1]
  exact decision

theorem settled_keeps (events : ∀ row ∈ rows, eventOf row = some key) (member : row ∈ rows)
    (keeps : ¬Yields key rows row) : settled rows row = normalizeOwnedFee rows row := by
  have event : eventOf (normalizeOwnedFee rows row) = some key :=
    (normalizeOwnedFee_pass.event rows row).trans (events row member)
  exact (separateFee_iff (mem_map_of_mem member) event).2
    fun yields => keeps ((yields_normalized events member).1 yields)

end

/-- A second import of a row: the same aggregate of the same event with the same standing. -/
structure Repeats (row copy : ImportRow) : Prop where
  event : eventOf copy = eventOf row
  quantity : copy.quantity = row.quantity
  authoritative : copy.authority.authoritative = row.authority.authoritative
  normalized : copy.custodyNativeFeeNormalized = row.custodyNativeFeeNormalized

/-- The fee of the event stands on the row alone or first, so that the repeat splits it from the row. -/
def Doubled (key : CanonicalEventKey) (rows : List ImportRow) (row copy : ImportRow) : Prop :=
  carriesEventFee key row = true ∧ (∀ other ∈ feeCarriers key rows, other.fee = row.fee) ∧
    ∀ other ∈ feeCarriers key rows, row.id ≤ other.id ∨ copy.id ≤ other.id

/-- The row is one of the wallets a positive graph fee is allocated to. -/
def Allocated (key : CanonicalEventKey) (rows : List ImportRow) (row : ImportRow) : Prop :=
  isOwnedObservation key row = true ∧ ∃ fee, ownedFee (ownedGroup key rows) = some fee ∧ 0 < fee

/-- The second list holds the quantities of the first and one of them once more, under a fresh id. -/
def AddsCopy (rows rows' : List ImportRow) (rowId copyId : String) : Prop :=
  ∃ own ∈ rows, own.id = rowId ∧ (rows'.map fun row => (row.id, row.quantity)).Perm
    ((copyId, own.quantity) :: rows.map fun row => (row.id, row.quantity))

section
variable {key : CanonicalEventKey} {left right : List ImportRow} {row copy : ImportRow}

theorem Repeats.owned (repeats : Repeats row copy) : isOwnedObservation key copy = isOwnedObservation key row := by
  simp only [isOwnedObservation, repeats.event, repeats.authoritative]

theorem Repeats.carries (repeats : Repeats row copy) : carriesEventFee key copy = carriesEventFee key row := by
  have direction : copy.direction = row.direction := congrArg RowQuantity.direction repeats.quantity
  have fee : copy.fee = row.fee := congrArg RowQuantity.fee repeats.quantity
  simp only [carriesEventFee, repeats.event, repeats.normalized, direction, fee]

theorem Repeats.absorb (repeats : Repeats row copy) : copy.absorbFee.quantity = row.absorbFee.quantity := by
  have parts := repeats.quantity
  simp only [ImportRow.quantity, RowQuantity.mk.injEq] at parts
  obtain ⟨wallet, direction, asset, amount, fee, included⟩ := parts
  simp only [ImportRow.quantity, ImportRow.absorbFee, wallet, direction, asset, amount, fee, included]

theorem Repeats.unallocated (repeats : Repeats row copy) (member : row ∈ left ++ right)
    (owned : isOwnedObservation key row = true) : ownedFee (ownedGroup key (left ++ copy :: right)) = none := by
  cases allocates : ownedFee (ownedGroup key (left ++ copy :: right)) with
  | none => rfl
  | some fee =>
    have wallets := (ownedFee_some allocates).1
    have grouped : ownedGroup key (left ++ copy :: right) = ownedGroup key left ++ copy :: ownedGroup key right := by
      unfold ownedGroup
      rw [filter_append, filter_cons_of_pos (repeats.owned.trans owned)]
    have wallet : copy.walletId = row.walletId := congrArg RowQuantity.walletId repeats.quantity
    rw [grouped, map_append, map_cons] at wallets
    have fresh := (nodup_middle.1 wallets)
    rw [nodup_cons, ← map_append] at fresh
    refine absurd (mem_map.2 ⟨row, ?_, wallet.symm⟩) fresh.1
    unfold ownedGroup
    rw [← filter_append]
    exact mem_filter.2 ⟨member, owned⟩

theorem mem_repeated {x : ImportRow} : x ∈ left ++ copy :: right ↔ x = copy ∨ x ∈ left ++ right := by
  simp only [mem_append, mem_cons]
  tauto

theorem Repeats.events (repeats : Repeats row copy) (member : row ∈ left ++ right)
    (events : ∀ x ∈ left ++ right, eventOf x = some key) : ∀ x ∈ left ++ copy :: right, eventOf x = some key := by
  intro x inside
  rcases mem_repeated.1 inside with rfl | old
  · exact repeats.event.trans (events row member)
  · exact events x old

variable {rows rows' : List ImportRow}

theorem mem_feeCarriers {x : ImportRow} :
    x ∈ feeCarriers key rows ↔ x ∈ rows ∧ carriesEventFee key x = true := mem_filter

theorem yields_repeated (repeats : Repeats row copy) (member : row ∈ left ++ right)
    (single : ¬Doubled key (left ++ right) row copy) :
    (∀ x ∈ left ++ right, Yields key (left ++ copy :: right) x ↔ Yields key (left ++ right) x) ∧
      (Yields key (left ++ copy :: right) copy ↔ Yields key (left ++ right) row) := by
  have fee : copy.fee = row.fee := congrArg RowQuantity.fee repeats.quantity
  by_cases carries : carriesEventFee key row = true
  · have own : row ∈ feeCarriers key (left ++ right) := mem_feeCarriers.2 ⟨member, carries⟩
    have fees : ∀ amount, (∀ other ∈ feeCarriers key (left ++ copy :: right), other.fee = amount) ↔
        ∀ other ∈ feeCarriers key (left ++ right), other.fee = amount := by
      intro amount
      constructor
      · intro same other inside
        obtain ⟨listed, carrying⟩ := mem_feeCarriers.1 inside
        exact same other (mem_feeCarriers.2 ⟨mem_repeated.2 (.inr listed), carrying⟩)
      · intro same other inside
        obtain ⟨listed, carrying⟩ := mem_feeCarriers.1 inside
        rcases mem_repeated.1 listed with rfl | old
        · exact fee.trans (same row own)
        · exact same other (mem_feeCarriers.2 ⟨old, carrying⟩)
    -- When all carriers state one fee, some third carrier stands before the row and the copy.
    have before : (∀ other ∈ feeCarriers key (left ++ right), other.fee = row.fee) →
        ∃ other ∈ feeCarriers key (left ++ right), other.id < row.id ∧ other.id < copy.id := by
      intro same
      by_contra none
      refine single ⟨carries, same, fun other inside => ?_⟩
      by_contra neither
      obtain ⟨less, less'⟩ := not_or.1 neither
      exact none ⟨other, inside, not_le.1 less, not_le.1 less'⟩
    refine ⟨fun x _ => and_congr_right fun carrying => ?_, ?_⟩
    · rw [fees]
      refine and_congr_right fun same => ?_
      constructor
      · rintro ⟨other, inside, less⟩
        obtain ⟨listed, carrying'⟩ := mem_feeCarriers.1 inside
        rcases mem_repeated.1 listed with rfl | old
        · obtain ⟨third, found, -, first⟩ := before fun y present => (same y present).trans (same row own).symm
          exact ⟨third, found, first.trans less⟩
        · exact ⟨other, mem_feeCarriers.2 ⟨old, carrying'⟩, less⟩
      · rintro ⟨other, inside, less⟩
        obtain ⟨listed, carrying'⟩ := mem_feeCarriers.1 inside
        exact ⟨other, mem_feeCarriers.2 ⟨mem_repeated.2 (.inr listed), carrying'⟩, less⟩
    · unfold Yields
      rw [fees, repeats.carries, fee]
      refine and_congr_right fun _ => and_congr_right fun same => ?_
      obtain ⟨third, found, first, first'⟩ := before same
      obtain ⟨listed, carrying⟩ := mem_feeCarriers.1 found
      exact ⟨fun _ => ⟨third, found, first⟩,
        fun _ => ⟨third, mem_feeCarriers.2 ⟨mem_repeated.2 (.inr listed), carrying⟩, first'⟩⟩
  · have free : ¬carriesEventFee key copy = true := fun carrying => carries (repeats.carries ▸ carrying)
    have same : feeCarriers key (left ++ copy :: right) = feeCarriers key (left ++ right) := by
      unfold feeCarriers
      rw [filter_append, filter_append, filter_cons_of_neg free]
    refine ⟨fun x _ => ?_, fun yields => absurd yields.1 free, fun yields => absurd yields.1 carries⟩
    unfold Yields
    rw [same]

theorem separateFee_id (rows : List ImportRow) (x : ImportRow) : (separateFee rows x).id = x.id := by
  unfold separateFee
  split
  · rfl
  · dsimp only
    split <;> rfl

theorem settled_id (rows : List ImportRow) (x : ImportRow) : (settled rows x).id = x.id := by
  unfold settled
  rw [separateFee_id]
  exact (normalizeOwnedFee_keeps rows x).1

theorem extends_map {settle settle' : ImportRow → ImportRow} (member : row ∈ left ++ right)
    (ids : ∀ x, (settle x).id = x.id) (ids' : ∀ x, (settle' x).id = x.id)
    (same : ∀ x ∈ left ++ right, (settle' x).quantity = (settle x).quantity)
    (repeated : (settle' copy).quantity = (settle row).quantity) :
    AddsCopy ((left ++ right).map settle) ((left ++ copy :: right).map settle') row.id copy.id := by
  refine ⟨settle row, mem_map_of_mem member, ids row, ?_⟩
  have others : (left ++ right).map (fun x => ((settle' x).id, (settle' x).quantity)) =
      (left ++ right).map (fun x => ((settle x).id, (settle x).quantity)) :=
    map_congr_left fun x inside => by rw [ids, ids', same x inside]
  have moved : (left ++ copy :: right).Perm (copy :: (left ++ right)) := perm_middle
  have listed := moved.map fun x => ((settle' x).id, (settle' x).quantity)
  rw [map_cons, others, ids', repeated] at listed
  simpa only [map_map, comp_def] using listed

theorem normalize_repeated (repeats : Repeats row copy) (member : row ∈ left ++ right)
    (events : ∀ x ∈ left ++ right, eventOf x = some key) (open' : ¬Allocated key (left ++ right) row) :
    (∀ x ∈ left ++ right,
        (normalizeOwnedFee (left ++ copy :: right) x).quantity = (normalizeOwnedFee (left ++ right) x).quantity) ∧
      normalizeOwnedFee (left ++ copy :: right) copy = copy ∧
      (normalizeOwnedFee (left ++ right) row).quantity = row.quantity := by
  have event : eventOf copy = some key := repeats.event.trans (events row member)
  by_cases owned : isOwnedObservation key row = true
  · have closed := repeats.unallocated member owned
    have weight : ∀ x ∈ left ++ right, (normalizeOwnedFee (left ++ right) x).quantity = x.quantity := by
      intro x inside
      cases allocates : ownedFee (ownedGroup key (left ++ right)) with
      | none => rw [normalizeOwnedFee_none (events x inside) allocates]
      | some fee =>
        by_cases taking : isOwnedObservation key x = true ∧ x.spends = true
        · obtain ⟨own, spends⟩ := taking
          obtain ⟨-, free, nonneg, spender, grouped, spending⟩ := ownedFee_some allocates
          have zero : fee = 0 := le_antisymm (not_lt.1 fun positive => open' ⟨owned, fee, allocates, positive⟩) nonneg
          have spenders : ∀ y ∈ (ownedGroup key (left ++ right)).filter (·.spends), y.spends = true :=
            fun y listed => (mem_filter.1 listed).2
          have share := (allocatedFees_share spenders ⟨spender, mem_filter.2 ⟨grouped, spending⟩⟩ nonneg).1 zero x.id
          obtain ⟨amount, charged, -⟩ := normalizeOwnedFee_share (events x inside) own spends allocates
          obtain ⟨-, direction, wallet, asset, included⟩ := normalizeOwnedFee_keeps (left ++ right) x
          have fee' := free x (mem_filter.2 ⟨inside, own⟩)
          rw [share] at amount charged
          simp only [ImportRow.quantity, direction, wallet, asset, included, amount, charged, fee', sub_zero]
        · by_cases own : isOwnedObservation key x = true
          · rw [normalizeOwnedFee_still (events x inside) (by simpa using fun spends => taking ⟨own, spends⟩)]
          · rw [normalizeOwnedFee_unowned (events x inside) (by simpa using own)]
    refine ⟨fun x inside => ?_, normalizeOwnedFee_none event closed, weight row member⟩
    rw [weight x inside, normalizeOwnedFee_none (events x inside) closed]
  · have foreign : ¬isOwnedObservation key copy = true := fun own => owned (repeats.owned ▸ own)
    have same : ownedGroup key (left ++ copy :: right) = ownedGroup key (left ++ right) := by
      unfold ownedGroup
      rw [filter_append, filter_append, filter_cons_of_neg foreign]
    refine ⟨fun x inside => ?_, normalizeOwnedFee_unowned event (by simpa using foreign), ?_⟩
    · unfold normalizeOwnedFee
      rw [events x inside]
      simp only [same]
    · rw [normalizeOwnedFee_unowned (events row member) (by simpa using owned)]

theorem extends_harmless (repeats : Repeats row copy) (member : row ∈ left ++ right)
    (events : ∀ x ∈ left ++ right, eventOf x = some key) (single : ¬Doubled key (left ++ right) row copy)
    (open' : ¬Allocated key (left ++ right) row) :
    AddsCopy ((left ++ right).map (settled (left ++ right)))
      ((left ++ copy :: right).map (settled (left ++ copy :: right))) row.id copy.id := by
  obtain ⟨weights, still, own⟩ := normalize_repeated repeats member events open'
  obtain ⟨yields, copied⟩ := yields_repeated repeats member single
  have events' := repeats.events member events
  refine extends_map member (settled_id _) (settled_id _) (fun x inside => ?_) ?_
  · have inside' : x ∈ left ++ copy :: right := mem_repeated.2 (.inr inside)
    by_cases gives : Yields key (left ++ right) x
    · rw [settled_yields events inside gives, settled_yields events' inside' ((yields x inside).2 gives)]
    · rw [settled_keeps events inside gives, settled_keeps events' inside' fun given => gives ((yields x inside).1 given)]
      exact weights x inside
  · have inside' : copy ∈ left ++ copy :: right := mem_repeated.2 (.inl rfl)
    by_cases gives : Yields key (left ++ right) row
    · rw [settled_yields events member gives, settled_yields events' inside' (copied.2 gives)]
      exact repeats.absorb
    · rw [settled_keeps events member gives, settled_keeps events' inside' fun given => gives (copied.1 given), still, own]
      exact repeats.quantity

theorem extends_gross (repeats : Repeats row copy) (member : row ∈ left ++ right)
    (events : ∀ x ∈ left ++ right, eventOf x = some key) (allocated : Allocated key (left ++ right) row) :
    AddsCopy (separateDuplicateFees (left ++ right))
      ((left ++ copy :: right).map (settled (left ++ copy :: right))) row.id copy.id := by
  obtain ⟨owned, fee, allocates, -⟩ := allocated
  have closed := repeats.unallocated member owned
  have free : row.fee = 0 := (ownedFee_some allocates).2.1 row (mem_filter.2 ⟨member, owned⟩)
  have uncharged : ¬carriesEventFee key row = true := by simp [carriesEventFee, free]
  obtain ⟨yields, copied⟩ := yields_repeated repeats member fun doubled => uncharged doubled.1
  have events' := repeats.events member events
  have gross : ∀ x ∈ left ++ copy :: right, normalizeOwnedFee (left ++ copy :: right) x = x :=
    fun x inside => normalizeOwnedFee_none (events' x inside) closed
  refine extends_map member (separateFee_id _) (settled_id _) (fun x inside => ?_) ?_
  · have inside' : x ∈ left ++ copy :: right := mem_repeated.2 (.inr inside)
    obtain ⟨giving, keeping⟩ := separateFee_iff inside (events x inside)
    by_cases gives : Yields key (left ++ right) x
    · rw [giving gives, settled_yields events' inside' ((yields x inside).2 gives)]
    · rw [keeping gives, settled_keeps events' inside' fun given => gives ((yields x inside).1 given), gross x inside']
  · have inside' : copy ∈ left ++ copy :: right := mem_repeated.2 (.inl rfl)
    have gives : ¬Yields key (left ++ right) row := fun given => uncharged given.1
    rw [(separateFee_iff member (events row member)).2 gives,
      settled_keeps events' inside' fun given => gives (copied.1 given), gross copy inside']
    exact repeats.quantity

theorem doubled_refused (repeats : Repeats row copy) (member : row ∈ left ++ right)
    (events : ∀ x ∈ left ++ right, eventOf x = some key) (fresh : copy.id ≠ row.id)
    (doubled : Doubled key (left ++ right) row copy) :
    ¬EventAccepted ((left ++ copy :: right).map (settled (left ++ copy :: right))) := by
  obtain ⟨carries, fees, first⟩ := doubled
  intro accepted
  have fee : copy.fee = row.fee := congrArg RowQuantity.fee repeats.quantity
  have carries' : carriesEventFee key copy = true := repeats.carries.trans carries
  have positive : 0 < row.fee := (of_decide_eq_true carries).2.2.2.1
  have events' := repeats.events member events
  have inside : row ∈ left ++ copy :: right := mem_repeated.2 (.inr member)
  have inside' : copy ∈ left ++ copy :: right := mem_repeated.2 (.inl rfl)
  have same : ∀ other ∈ feeCarriers key (left ++ copy :: right), other.fee = row.fee := by
    intro other found
    obtain ⟨listed, carrying⟩ := mem_feeCarriers.1 found
    rcases mem_repeated.1 listed with rfl | old
    · exact fee
    · exact fees other (mem_feeCarriers.2 ⟨old, carrying⟩)
  have least : ∀ other ∈ feeCarriers key (left ++ copy :: right), row.id ≤ other.id ∨ copy.id ≤ other.id := by
    intro other found
    obtain ⟨listed, carrying⟩ := mem_feeCarriers.1 found
    rcases mem_repeated.1 listed with rfl | old
    · exact .inr le_rfl
    · exact first other (mem_feeCarriers.2 ⟨old, carrying⟩)
  -- Of the row and the copy, the earlier one keeps the fee and the later one gives it up.
  have clash : ∀ early late : ImportRow, early ∈ left ++ copy :: right → late ∈ left ++ copy :: right →
      early.quantity = late.quantity → carriesEventFee key early = true → carriesEventFee key late = true →
      early.fee = row.fee → early.id < late.id →
      (∀ other ∈ feeCarriers key (left ++ copy :: right), early.id ≤ other.id) → False := by
    intro early late earlyIn lateIn equal earlyCarries lateCarries charged before lowest
    have lateFee : late.fee = row.fee := (congrArg RowQuantity.fee equal).symm.trans charged
    have gives : Yields key (left ++ copy :: right) late :=
      ⟨lateCarries, fun other found => (same other found).trans lateFee.symm, early,
        mem_feeCarriers.2 ⟨earlyIn, earlyCarries⟩, before⟩
    have keeps : ¬Yields key (left ++ copy :: right) early :=
      fun ⟨_, _, other, found, less⟩ => absurd less (not_lt.2 (lowest other found))
    have lateValue := settled_yields events' lateIn gives
    have earlyValue := (settled_keeps events' earlyIn keeps).trans
      ((normalizeOwnedFee_carrier earlyIn (events' early earlyIn)).2 earlyCarries)
    have slots : early.quantity.slot = late.absorbFee.quantity.slot := by
      rw [equal]
      rfl
    have agree := accepted.agree _ (mem_map_of_mem earlyIn) _ (mem_map_of_mem lateIn)
    rw [earlyValue, lateValue] at agree
    have zero : early.fee = 0 := (Prod.mk.inj (Prod.mk.inj (agree slots)).2).1
    omega
  rcases lt_or_gt_of_ne fresh with before | after
  · refine clash copy row inside' inside repeats.quantity carries' carries fee before fun other found => ?_
    exact (least other found).elim (fun above => before.le.trans above) id
  · refine clash row copy inside inside' repeats.quantity.symm carries carries' rfl after fun other found => ?_
    exact (least other found).elim id fun above => after.le.trans above

/-- The event with the repeat: the same legs, and the copy's id among the aliases of its row's quantity. -/
structure RepeatsEvent (rowId copyId : String) (event event' : CanonicalQuantityEvent) : Prop where
  eventKey : event'.eventKey = event.eventKey
  legs : Forall₂ SameQuantity event.legs event'.legs
  aliases : ∃ hash, (rowId, hash) ∈ event.observationAliases ∧
    event'.observationAliases.Perm ((copyId, hash) :: event.observationAliases)

variable {rowId copyId : String}

theorem AddsCopy.covered (extended : AddsCopy rows rows' rowId copyId) :
    (∀ x ∈ rows, ∃ own ∈ rows', x.quantity = own.quantity) ∧ ∀ x ∈ rows', ∃ own ∈ rows, x.quantity = own.quantity := by
  obtain ⟨own, member, -, perm⟩ := extended
  constructor
  · intro x inside
    have listed := perm.mem_iff.2 (.tail _ (mem_map_of_mem (f := fun x => (x.id, x.quantity)) inside))
    obtain ⟨found, present, same⟩ := mem_map.1 listed
    exact ⟨found, present, (Prod.mk.inj same).2.symm⟩
  · intro x inside
    have listed := perm.mem_iff.1 (mem_map_of_mem (f := fun x => (x.id, x.quantity)) inside)
    rcases mem_cons.1 listed with new | old
    · exact ⟨own, member, (Prod.mk.inj new).2⟩
    · obtain ⟨found, present, same⟩ := mem_map.1 old
      exact ⟨found, present, (Prod.mk.inj same).2.symm⟩

theorem AddsCopy.accepted (extended : AddsCopy rows rows' rowId copyId) :
    EventAccepted rows' ↔ EventAccepted rows :=
  ⟨EventAccepted.of_quantities extended.covered.1, EventAccepted.of_quantities extended.covered.2⟩

theorem AddsCopy.event (sha : Sha256)
    (extended : AddsCopy rows rows' rowId copyId) (accepted : EventAccepted rows) :
    RepeatsEvent rowId copyId (eventFrom key (rows.map (importedObservation sha.digest key)))
      (eventFrom key (rows'.map (importedObservation sha.digest key))) := by
  obtain ⟨covers, covered⟩ := extended.covered
  have accepted' := extended.accepted.2 accepted
  obtain ⟨own, member, identity, perm⟩ := extended
  refine ⟨rfl, legs_sameQuantity sha accepted covers covered, ?_⟩
  -- The hash of a row is a function of its quantity, so the permutation of quantities is one of aliases.
  let hash : RowQuantity → String := fun q => (importedObservation sha.digest key
    { own with walletId := q.walletId, direction := q.direction, asset := q.asset, amount := q.amount, fee := q.fee,
               amountIncludesFee := q.amountIncludesFee }).quantityHash
  have stated : ∀ x : ImportRow, (importedObservation sha.digest key x).quantityHash = hash x.quantity := fun _ => rfl
  have images := perm.map fun entry => (entry.1, hash entry.2)
  simp only [map_cons, map_map, comp_def] at images
  have before := aliases_perm sha key accepted
  have after := aliases_perm sha key accepted'
  simp only [stated] at before after
  refine ⟨hash own.quantity, before.mem_iff.2 (mem_map.2 ⟨own, member, by rw [identity]⟩), ?_⟩
  exact after.trans (images.trans (before.symm.cons _))

theorem allocated_legs (sha : Sha256) (repeats : Repeats row copy) (member : row ∈ left ++ right)
    (events : ∀ x ∈ left ++ right, eventOf x = some key) (allocated : Allocated key (left ++ right) row)
    (accepted : EventAccepted ((left ++ right).map (settled (left ++ right))))
    (accepted' : EventAccepted ((left ++ copy :: right).map (settled (left ++ copy :: right)))) :
    ¬Forall₂ SameQuantity
      (legsOf (((left ++ right).map (settled (left ++ right))).map (importedObservation sha.digest key)))
      (legsOf (((left ++ copy :: right).map (settled (left ++ copy :: right))).map (importedObservation sha.digest key))) := by
  intro legs
  obtain ⟨owned, fee, allocates, positive⟩ := allocated
  obtain ⟨-, free, nonneg, spender, grouped, spending⟩ := ownedFee_some allocates
  have spenders : ∀ y ∈ (ownedGroup key (left ++ right)).filter (·.spends), y.spends = true :=
    fun y inside => (mem_filter.1 inside).2
  obtain ⟨payer, listed, share⟩ := (allocatedFees_share spenders ⟨spender, mem_filter.2 ⟨grouped, spending⟩⟩
    nonneg).2 positive
  obtain ⟨inGroup, spends⟩ := mem_filter.1 listed
  obtain ⟨inside, own⟩ := mem_filter.1 inGroup
  have inside' : payer ∈ left ++ copy :: right := mem_repeated.2 (.inr inside)
  have events' := repeats.events member events
  have uncharged : ¬carriesEventFee key payer = true := by simp [carriesEventFee, free payer inGroup]
  have net := settled_keeps events inside fun gives => uncharged gives.1
  have gross := (settled_keeps events' inside' fun gives => uncharged gives.1).trans
    (normalizeOwnedFee_none (events' payer inside') (repeats.unallocated member owned))
  obtain ⟨-, direction, wallet, asset, -⟩ := normalizeOwnedFee_keeps (left ++ right) payer
  obtain ⟨-, charged, -⟩ := normalizeOwnedFee_share (events payer inside) own spends allocates
  have slots : (settled (left ++ right) payer).quantity.slot = payer.quantity.slot := by
    rw [net]
    simp only [RowQuantity.slot, ImportRow.quantity, direction, wallet, asset]
  -- The leg of the payer's slot states the payer's own fee on either side.
  have filled : ∃ row ∈ (left ++ right).map (settled (left ++ right)), row.quantity.slot = payer.quantity.slot :=
    ⟨_, mem_map_of_mem inside, slots⟩
  obtain ⟨source, found, sameSlot, first⟩ := representative_mem sha key filled
  have leg : importedObservation sha.digest key source ∈ legsOf (((left ++ right).map (settled (left ++ right))).map
      (importedObservation sha.digest key)) :=
    mem_filterMap.2 ⟨_, mem_sortedSet.2 ((mem_slots sha key).2 ⟨_, mem_map_of_mem inside, slots⟩), first⟩
  obtain ⟨leg', present, same⟩ := forall₂_exists legs leg
  obtain ⟨slot, -, first'⟩ := mem_filterMap.1 present
  obtain ⟨source', found', rfl⟩ := mem_map.1 (mem_filter.1 (argmin_mem first')).1
  have paid := accepted.agree source found _ (mem_map_of_mem inside) (sameSlot.trans slots.symm)
  have slot' : source'.quantity.slot = payer.quantity.slot := by
    rw [← observation_slot sha key, ← sameSlot, ← observation_slot sha key]
    simp only [QuantityObservation.slot, same.walletId, same.direction, same.asset]
  have unpaid := accepted'.agree source' found' _ (mem_map_of_mem inside') (by rw [gross]; exact slot')
  rw [gross] at unpaid
  rw [net] at paid
  have paidFee : source.fee = (normalizeOwnedFee (left ++ right) payer).fee := (Prod.mk.inj (Prod.mk.inj paid).2).1
  have unpaidFee : source'.fee = payer.fee := (Prod.mk.inj (Prod.mk.inj unpaid).2).1
  have equal : source'.fee = source.fee := same.feeMsat
  have zero := free payer inGroup
  omega

end

def canonicalInputOf (sha : Sha256) (batch : ImportRows) : CanonicalQuantityInput :=
  buildCanonicalQuantityInput sha.digest (enrichedQuantityRows batch) [] []

/-- The second batch is the first with a repeat of one of its rows under a fresh id. -/
structure AddsRepeat (before after : ImportRows) (row copy : ImportRow) : Prop where
  member : row ∈ before.rows
  added : ∃ left right, before.rows = left ++ right ∧ after.rows = left ++ copy :: right
  repeats : Repeats (enrichRow row) (enrichRow copy)

/-- The repeat's event keeps its legs and gains an alias; every other event stays as it was. -/
def Deduplicates (sha : Sha256) (before after : ImportRows) (row copy : ImportRow) : Prop :=
  Forall₂ (fun event event' => (eventOf (enrichRow row) = some event.eventKey → RepeatsEvent row.id copy.id event event') ∧
      (eventOf (enrichRow row) ≠ some event.eventKey → event' = event))
    (canonicalInputOf sha before).events (canonicalInputOf sha after).events

/-- The row's fee is not the one its event is charged by, or its event is refused with and without the repeat. -/
def Harmless (batch : ImportRows) (row copy : ImportRow) : Prop :=
  ∀ key, eventOf (enrichRow row) = some key →
    (Doubled key (batch.rows.map enrichRow) (enrichRow row) (enrichRow copy) →
      ¬EventAccepted (rowsOf key (enrichedQuantityRows batch))) ∧
    (Allocated key (batch.rows.map enrichRow) (enrichRow row) →
      ¬EventAccepted (rowsOf key (enrichedQuantityRows batch)) ∧
      ¬EventAccepted (rowsOf key (separateDuplicateFees (batch.rows.map enrichRow))))

theorem canonicalInputOf_events (sha : Sha256) (batch : ImportRows) :
    (canonicalInputOf sha batch).events = (eventKeysOf (batch.rows.map enrichRow)).filterMap fun key =>
      (judgeEvent sha.digest [] key (rowsOf key (enrichedQuantityRows batch))).toOption := by
  have keys : eventKeysOf (enrichedQuantityRows batch) = eventKeysOf (batch.rows.map enrichRow) := by
    unfold eventKeysOf enrichedQuantityRows separateDuplicateFees normalizeOwnedBitcoinFees
    rw [filterMap_map, filterMap_map]
    have settledEvent : ∀ rows rows' x, eventOf (separateFee rows (normalizeOwnedFee rows' x)) = eventOf x :=
      fun rows rows' x => (separateFee_pass.event _ _).trans (normalizeOwnedFee_pass.event _ _)
    simp only [comp_def, settledEvent]
  have kept : (enrichedQuantityRows batch).filter (fun row => row.id ∉ ([] : List String)) = enrichedQuantityRows batch := by
    simp
  unfold canonicalInputOf buildCanonicalQuantityInput acceptedEvents
  simp only [kept, keys]

theorem rowsOf_settled (batch : ImportRows) (key : CanonicalEventKey) :
    rowsOf key (enrichedQuantityRows batch) =
      (rowsOf key (batch.rows.map enrichRow)).map (settled (rowsOf key (batch.rows.map enrichRow))) := by
  rw [rowsOf_enriched]
  unfold separateDuplicateFees settled
  rw [normalizeOwnedBitcoinFees, map_map]
  rfl

variable {left right : List ImportRow}

theorem eventKeysOf_repeated (member : row ∈ left ++ right)
    (event : eventOf copy = eventOf row) : eventKeysOf (left ++ copy :: right) = eventKeysOf (left ++ right) := by
  unfold eventKeysOf
  refine sortedBy_eq_of_perm ?_ fun _ _ _ _ same => CanonicalEventKey.order_injective same
  refine (perm_ext_iff_of_nodup (nodup_dedup _) (nodup_dedup _)).2 fun key => ?_
  simp only [mem_dedup, mem_filterMap]
  constructor
  · rintro ⟨x, inside, same⟩
    rcases mem_repeated.1 inside with rfl | old
    · exact ⟨row, member, event ▸ same⟩
    · exact ⟨x, old, same⟩
  · rintro ⟨x, inside, same⟩
    exact ⟨x, mem_repeated.2 (.inr inside), same⟩

theorem rowsOf_other {key : CanonicalEventKey}
    (other : eventOf copy ≠ some key) : rowsOf key (left ++ copy :: right) = rowsOf key (left ++ right) := by
  simp [rowsOf, other]

theorem rowsOf_repeated {key : CanonicalEventKey} (own : eventOf copy = some key) :
    rowsOf key (left ++ copy :: right) = rowsOf key left ++ copy :: rowsOf key right := by
  simp [rowsOf, own]

theorem deduplicates_iff (sha : Sha256) {before after : ImportRows} (adds : AddsRepeat before after row copy) :
    Deduplicates sha before after row copy ↔ ∀ key, eventOf (enrichRow row) = some key →
      ((¬EventAccepted (rowsOf key (enrichedQuantityRows before)) ∧ ¬EventAccepted (rowsOf key (enrichedQuantityRows after))) ∨
        (EventAccepted (rowsOf key (enrichedQuantityRows before)) ∧ EventAccepted (rowsOf key (enrichedQuantityRows after)) ∧
          RepeatsEvent row.id copy.id
            (eventFrom key ((rowsOf key (enrichedQuantityRows before)).map (importedObservation sha.digest key)))
            (eventFrom key ((rowsOf key (enrichedQuantityRows after)).map (importedObservation sha.digest key))))) := by
  obtain ⟨member, ⟨left, right, old, new⟩, repeats⟩ := adds
  have inside : enrichRow row ∈ left.map enrichRow ++ right.map enrichRow := by
    rw [← map_append, ← old]
    exact mem_map_of_mem member
  have before' : before.rows.map enrichRow = left.map enrichRow ++ right.map enrichRow := by rw [old, map_append]
  have after' : after.rows.map enrichRow = left.map enrichRow ++ enrichRow copy :: right.map enrichRow := by
    rw [new, map_append, map_cons]
  have keys : eventKeysOf (after.rows.map enrichRow) = eventKeysOf (before.rows.map enrichRow) := by
    rw [before', after']
    exact eventKeysOf_repeated inside repeats.event
  unfold Deduplicates
  rw [canonicalInputOf_events, canonicalInputOf_events, keys]
  constructor
  · intro related key own
    have listed : key ∈ eventKeysOf (before.rows.map enrichRow) := by
      unfold eventKeysOf
      rw [mem_sortedBy, mem_dedup, before']
      exact mem_filterMap.2 ⟨_, inside, own⟩
    by_cases accepted : EventAccepted (rowsOf key (enrichedQuantityRows before))
    · have judged := judge_accepted sha key accepted
      obtain ⟨event', present, same, -⟩ := forall₂_exists related (mem_filterMap.2 ⟨key, listed, by rw [judged]; rfl⟩)
      have repeated := same own
      obtain ⟨other, -, verdict⟩ := mem_filterMap.1 present
      by_cases accepted' : EventAccepted (rowsOf other (enrichedQuantityRows after))
      · have judged' := judge_accepted sha other accepted'
        rw [judged'] at verdict
        cases verdict
        have equal : other = key := repeated.eventKey
        subst equal
        exact .inr ⟨accepted, accepted', repeated⟩
      · rw [judge_refused sha accepted'] at verdict
        cases verdict
    · refine .inl ⟨accepted, fun accepted' => ?_⟩
      have judged' := judge_accepted sha key accepted'
      obtain ⟨event, present, same, stays⟩ := forall₂_exists related.flip
        (mem_filterMap.2 ⟨key, listed, by rw [judged']; rfl⟩)
      obtain ⟨other, -, verdict⟩ := mem_filterMap.1 present
      have own' : event.eventKey = other := by
        cases outcome : judgeEvent sha.digest [] other (rowsOf other (enrichedQuantityRows before)) with
        | error issue => rw [outcome] at verdict; cases verdict
        | ok found =>
          rw [outcome] at verdict
          cases verdict
          exact judgeEvent_key sha.digest outcome
      have equal : other = key := by
        by_cases mine : eventOf (enrichRow row) = some event.eventKey
        · exact own'.symm.trans (same mine).eventKey.symm
        · have still := congrArg CanonicalQuantityEvent.eventKey (stays mine)
          exact own'.symm.trans still.symm
      rw [equal, judge_refused sha accepted] at verdict
      cases verdict
  · intro settledAlike
    refine forall₂_filterMap fun key _ => ?_
    by_cases own : eventOf (enrichRow row) = some key
    · rcases settledAlike key own with ⟨refused, refused'⟩ | ⟨accepted, accepted', repeated⟩
      · exact .inl ⟨judge_refused sha refused, judge_refused sha refused'⟩
      · refine .inr ⟨_, _, by rw [judge_accepted sha key accepted]; rfl, by rw [judge_accepted sha key accepted']; rfl, ?_⟩
        exact ⟨fun _ => repeated, fun other => absurd own other⟩
    · have same : rowsOf key (enrichedQuantityRows after) = rowsOf key (enrichedQuantityRows before) := by
        have listed : rowsOf key (after.rows.map enrichRow) = rowsOf key (before.rows.map enrichRow) := by
          rw [before', after']
          exact rowsOf_other fun mine => own (repeats.event ▸ mine)
        rw [rowsOf_settled, rowsOf_settled, listed]
      rw [same]
      cases outcome : judgeEvent sha.digest [] key (rowsOf key (enrichedQuantityRows before)) with
      | error issue => exact .inl ⟨rfl, rfl⟩
      | ok event =>
        have eventKey := judgeEvent_key sha.digest outcome
        exact .inr ⟨event, event, rfl, rfl, fun mine => absurd (eventKey ▸ mine) own, fun _ => rfl⟩

theorem conditions_own (rows : List ImportRow) (key : CanonicalEventKey) (row copy : ImportRow) :
    (Doubled key (rowsOf key rows) row copy ↔ Doubled key rows row copy) ∧
      (Allocated key (rowsOf key rows) row ↔ Allocated key rows row) := by
  have carriers : feeCarriers key (rowsOf key rows) = feeCarriers key rows :=
    rowsOf_filter (fun _ => carriesEventFee_event) rows
  have group : ownedGroup key (rowsOf key rows) = ownedGroup key rows :=
    rowsOf_filter (fun _ => isOwnedObservation_event) rows
  unfold Doubled Allocated
  rw [carriers, group]
  exact ⟨Iff.rfl, Iff.rfl⟩

/-- An exact repeat deduplicates exactly when it does not touch the fee of its event. -/
theorem repeat_deduplicates_iff (sha : Sha256) {before after : ImportRows} {row copy : ImportRow}
    (adds : AddsRepeat before after row copy) :
    Deduplicates sha before after row copy ↔ Harmless before row copy := by
  rw [deduplicates_iff sha adds]
  refine forall_congr' fun key => forall_congr' fun own => ?_
  obtain ⟨member, ⟨left, right, old, new⟩, repeats⟩ := adds
  have fresh : (enrichRow copy).id ≠ (enrichRow row).id := by
    have distinct := after.distinct
    rw [new, map_append, map_cons, nodup_middle, nodup_cons, ← map_append, ← old] at distinct
    exact fun same => distinct.1 (mem_map.2 ⟨row, member, same.symm⟩)
  have event : eventOf (enrichRow copy) = some key := repeats.event.trans own
  have rowsBefore : rowsOf key (before.rows.map enrichRow) =
      rowsOf key (left.map enrichRow) ++ rowsOf key (right.map enrichRow) := by
    rw [old, map_append, rowsOf, filter_append]
    rfl
  have rowsAfter : rowsOf key (after.rows.map enrichRow) =
      rowsOf key (left.map enrichRow) ++ enrichRow copy :: rowsOf key (right.map enrichRow) := by
    rw [new, map_append, map_cons, rowsOf_repeated event]
  have inside : enrichRow row ∈ rowsOf key (left.map enrichRow) ++ rowsOf key (right.map enrichRow) := by
    rw [← rowsBefore]
    exact mem_filter.2 ⟨mem_map_of_mem member, decide_eq_true own⟩
  have events : ∀ x ∈ rowsOf key (left.map enrichRow) ++ rowsOf key (right.map enrichRow), eventOf x = some key := by
    intro x listed
    rw [← rowsBefore] at listed
    exact of_decide_eq_true (mem_filter.1 listed).2
  have gross : rowsOf key (separateDuplicateFees (before.rows.map enrichRow)) =
      separateDuplicateFees (rowsOf key (left.map enrichRow) ++ rowsOf key (right.map enrichRow)) := by
    rw [← rowsBefore]
    exact separateFee_pass.rowsOf _ key
  obtain ⟨doubles, allocates⟩ := conditions_own (before.rows.map enrichRow) key (enrichRow row) (enrichRow copy)
  rw [← doubles, ← allocates, gross, rowsOf_settled, rowsOf_settled, rowsAfter, rowsBefore]
  generalize rowsOf key (left.map enrichRow) = lefts at inside events ⊢
  generalize rowsOf key (right.map enrichRow) = rights at inside events ⊢
  by_cases doubled : Doubled key (lefts ++ rights) (enrichRow row) (enrichRow copy)
  · have refused' := doubled_refused repeats inside events fresh doubled
    have unallocated : ¬Allocated key (lefts ++ rights) (enrichRow row) := by
      rintro ⟨owned, fee, closes, -⟩
      have free := (ownedFee_some closes).2.1 _ (mem_filter.2 ⟨inside, owned⟩)
      have charged := doubled.1
      simp [carriesEventFee, free] at charged
    constructor
    · rintro (⟨refused, -⟩ | ⟨-, accepted', -⟩)
      · exact ⟨fun _ => refused, fun allocated => absurd allocated unallocated⟩
      · exact absurd accepted' refused'
    · rintro ⟨refused, -⟩
      exact Or.inl ⟨refused doubled, refused'⟩
  · by_cases allocated : Allocated key (lefts ++ rights) (enrichRow row)
    · have extended := extends_gross repeats inside events allocated
      constructor
      · rintro (⟨refused, refused'⟩ | ⟨accepted, accepted', repeated⟩)
        · exact ⟨fun _ => refused, fun _ => ⟨refused, fun accepts => refused' (extended.accepted.2 accepts)⟩⟩
        · exact absurd repeated.legs (allocated_legs sha repeats inside events allocated accepted accepted')
      · rintro ⟨-, refusals⟩
        obtain ⟨refused, refusedGross⟩ := refusals allocated
        exact Or.inl ⟨refused, fun accepted' => refusedGross (extended.accepted.1 accepted')⟩
    · have extended := extends_harmless repeats inside events doubled allocated
      constructor
      · intro _
        exact ⟨fun given => absurd given doubled, fun given => absurd given allocated⟩
      · intro _
        by_cases accepted : EventAccepted ((lefts ++ rights).map (settled (lefts ++ rights)))
        · exact Or.inr ⟨accepted, extended.accepted.2 accepted, extended.event sha accepted⟩
        · exact Or.inl ⟨accepted, fun accepted' => accepted (extended.accepted.1 accepted')⟩

def sampleTxid : String := "aaaaaaaaaaaaaaaaaaaaaaaaaaaaaaaaaaaaaaaaaaaaaaaaaaaaaaaaaaaaaaaa"

def spendEvent : CanonicalEventKey := ⟨"bitcoin", "main", "chain", sampleTxid, by decide⟩

def importedSpend (id : String) (fee : Int) (named : strip id ≠ "") : ImportRow :=
  { id, walletId := "wallet-a", direction := "outbound", asset := "BTC", amount := 1000, fee,
    occurredAt := "2025-01-01T00:00:00Z", rawJson := .fields [("txid", .text sampleTxid)], rawTxid := sampleTxid,
    txidTexts := [sampleTxid], named }

def sampleSpent (fee : Int) : ImportRow := importedSpend "out" fee (by decide +kernel)

def sampleCopy (fee : Int) : ImportRow := importedSpend "out-duplicate" fee (by decide +kernel)

def spendDigest : String := "c8c34fb63b0f68df397ab542d473230575b695a25f52d45e8ae82692aa2297c5"

/-- The digests of the two texts that the feeless sample rows hash to. -/
def spendDigests : List (String × String) :=
  [((canonicalQuantityPayload (sampleSpent 0) spendEvent).encode false, spendDigest),
    ((canonicalEvidencePayload (sampleSpent 0) spendEvent).encode false,
      "9abfa940a9412620fc890e5493e583c76a7488b182befa53a12d8b84f632675a")]

theorem spendDigests_hex (text : String) :
    ((lookup spendDigests text).getD spendDigest).length = 64 ∧
      (lookup spendDigests text).getD spendDigest = ((lookup spendDigests text).getD spendDigest).toLower ∧
      readsBase16 ((lookup spendDigests text).getD spendDigest) = true := by
  have every : ∀ digest ∈ spendDigests.map Prod.snd,
      digest.length = 64 ∧ digest = digest.toLower ∧ readsBase16 digest = true := by decide +kernel
  apply every
  cases found : lookup spendDigests text with
  | none => exact .head _
  | some digest => exact mem_map.2 ⟨_, mem_of_lookup found, rfl⟩

def sampleSha : Sha256 where
  digest text := (lookup spendDigests text).getD spendDigest
  width text := (spendDigests_hex text).1
  lower text := (spendDigests_hex text).2.1
  hex text := (spendDigests_hex text).2.2

def sampleBatch (fee : Int) : ImportRows := ⟨[sampleSpent fee], nodup_singleton _⟩

def sampleRepeated (fee : Int) : ImportRows :=
  ⟨[sampleSpent fee, sampleCopy fee], nodup_cons.2 ⟨show "out" ∉ ["out-duplicate"] by decide, nodup_singleton _⟩⟩

theorem sample_adds (fee : Int) (event : eventOf (enrichRow (sampleSpent fee)) = some spendEvent)
    (event' : eventOf (enrichRow (sampleCopy fee)) = some spendEvent) :
    AddsRepeat (sampleBatch fee) (sampleRepeated fee) (sampleSpent fee) (sampleCopy fee) where
  member := mem_singleton_self _
  added := ⟨[sampleSpent fee], [], rfl, rfl⟩
  repeats := ⟨event'.trans event.symm, rfl, rfl, rfl⟩

/-- A spend without a fee is imported twice and counted once. -/
theorem repeat_deduplicates_feeless :
    AddsRepeat (sampleBatch 0) (sampleRepeated 0) (sampleSpent 0) (sampleCopy 0) ∧
      Harmless (sampleBatch 0) (sampleSpent 0) (sampleCopy 0) ∧
      Deduplicates sampleSha (sampleBatch 0) (sampleRepeated 0) (sampleSpent 0) (sampleCopy 0) := by
  have adds := sample_adds 0 (by decide +kernel) (by decide +kernel)
  have harmless : Harmless (sampleBatch 0) (sampleSpent 0) (sampleCopy 0) := by
    intro key _
    refine ⟨fun doubled => ?_, fun allocated => ?_⟩
    · have charged : 0 < (enrichRow (sampleSpent 0)).fee := (of_decide_eq_true doubled.1).2.2.2.1
      exact absurd charged (lt_irrefl 0)
    · have standing := allocated.1
      simp only [isOwnedObservation, Bool.and_eq_true] at standing
      exact absurd standing.1.1.1 Bool.false_ne_true
  exact ⟨adds, harmless, (repeat_deduplicates_iff sampleSha adds).2 harmless⟩

/-- A spend that carries its fee is rejected when it is imported twice. -/
theorem repeat_of_fee_not_deduplicated :
    ¬∀ (sha : Sha256) (before after : ImportRows) (row copy : ImportRow),
      AddsRepeat before after row copy → Deduplicates sha before after row copy := by
  intro every
  have own : eventOf (enrichRow (sampleSpent 10)) = some spendEvent := by decide +kernel
  have own' : eventOf (enrichRow (sampleCopy 10)) = some spendEvent := by decide +kernel
  have adds := sample_adds 10 own own'
  have events : ∀ x ∈ [enrichRow (sampleSpent 10)] ++ [], eventOf x = some spendEvent := by
    intro x inside
    rw [mem_singleton.1 inside]
    exact own
  have carries : carriesEventFee spendEvent (enrichRow (sampleSpent 10)) = true := by
    refine decide_eq_true ⟨rfl, own, rfl, ?_, rfl⟩
    exact show (0 : Int) < 10 by decide
  have only : ∀ other ∈ feeCarriers spendEvent ([enrichRow (sampleSpent 10)] ++ []), other = enrichRow (sampleSpent 10) :=
    fun other inside => mem_singleton.1 (mem_feeCarriers.1 inside).1
  have doubled : Doubled spendEvent ([enrichRow (sampleSpent 10)] ++ []) (enrichRow (sampleSpent 10))
      (enrichRow (sampleCopy 10)) := by
    refine ⟨carries, fun other inside => ?_, fun other inside => Or.inl ?_⟩
    · rw [only other inside]
    · rw [only other inside]
  have refused := doubled_refused adds.repeats (mem_singleton_self _) events
    (show "out-duplicate" ≠ "out" by decide) doubled
  have rowsBefore : rowsOf spendEvent ((sampleBatch 10).rows.map enrichRow) = [enrichRow (sampleSpent 10)] := by
    simp [rowsOf, sampleBatch, own]
  have rowsAfter : rowsOf spendEvent ((sampleRepeated 10).rows.map enrichRow) =
      [enrichRow (sampleSpent 10)] ++ [enrichRow (sampleCopy 10)] := by
    simp [rowsOf, sampleRepeated, own, own']
  have still : settled [enrichRow (sampleSpent 10)] (enrichRow (sampleSpent 10)) = enrichRow (sampleSpent 10) := by
    refine (settled_keeps events (mem_singleton_self _) ?_).trans (normalizeOwnedFee_unowned own rfl)
    rintro ⟨-, -, other, inside, less⟩
    rw [only other inside] at less
    exact lt_irrefl _ less
  have accepted : EventAccepted (rowsOf spendEvent (enrichedQuantityRows (sampleBatch 10))) := by
    rw [rowsOf_settled, rowsBefore, map_singleton, still]
    refine ⟨fun row inside => ?_, fun row inside other inside' _ => ?_⟩
    · rw [mem_singleton.1 inside]
      exact ⟨by decide, Or.inr (by decide +kernel), by decide +kernel, by decide, by decide, by decide +kernel, by decide +kernel,
        by decide⟩
    · rw [mem_singleton.1 inside, mem_singleton.1 inside']
  rcases (deduplicates_iff sampleSha adds).1 (every _ _ _ _ _ adds) spendEvent own with ⟨before, -⟩ | ⟨-, after, -⟩
  · exact before accepted
  · rw [rowsOf_settled, rowsAfter] at after
    exact refused after

end Kassiber.Custody

import Kassiber.Custody.FeePasses

/-!
The quantities of an event's rows. Whether an event is accepted, and the legs and aliases it gets,
depend on what its rows aggregate and not on the evidence they carry.
-/

namespace Kassiber.Custody
open Lib.Outcome Lib.Dict Lib.Sorting Lib.Document
open List hiding lookup

structure Sha256 where
  digest : String → String
  width : ∀ text, (digest text).length = 64
  lower : ∀ text, digest text = (digest text).toLower
  hex : ∀ text, readsBase16 (digest text) = true

structure RowQuantity where
  walletId : String
  direction : String
  asset : String
  amount : Int
  fee : Int
  amountIncludesFee : Bool

def ImportRow.quantity (row : ImportRow) : RowQuantity :=
  ⟨row.walletId, row.direction, row.asset, row.amount, row.fee, row.amountIncludesFee⟩

namespace RowQuantity

def slot (q : RowQuantity) : String ×ₗ String ×ₗ String := toLex (q.walletId, toLex (q.direction.toLower, q.asset.toUpper))

def semantics (q : RowQuantity) : Int × Int × Bool := (q.amount, q.fee, q.amountIncludesFee)

structure Readable (q : RowQuantity) : Prop where
  wallet : q.walletId ≠ ""
  directed : directionOf q.direction = .inbound ∨ directionOf q.direction = .outbound
  asset : q.asset.toUpper ≠ ""
  amount : 0 ≤ q.amount
  fee : 0 ≤ q.fee
  separate : ¬(directionOf q.direction = .inbound ∧ q.amountIncludesFee)
  nonzero : ¬(q.amount = 0 ∧ ¬(directionOf q.direction = .outbound ∧ q.fee > 0))
  included : ¬(q.amountIncludesFee ∧ q.fee > q.amount)

end RowQuantity

/-- An event is accepted when its rows are readable and no slot holds two aggregates. -/
structure EventAccepted (rows : List ImportRow) : Prop where
  readable : ∀ row ∈ rows, row.quantity.Readable
  agree : ∀ row ∈ rows, ∀ other ∈ rows, row.quantity.slot = other.quantity.slot →
    row.quantity.semantics = other.quantity.semantics

theorem EventAccepted.of_quantities {rows rows' : List ImportRow}
    (covered : ∀ row ∈ rows', ∃ own ∈ rows, row.quantity = own.quantity) (accepted : EventAccepted rows) :
    EventAccepted rows' where
  readable row member := by
    obtain ⟨own, inside, same⟩ := covered row member
    rw [same]
    exact accepted.readable own inside
  agree row member other member' slots := by
    obtain ⟨own, inside, same⟩ := covered row member
    obtain ⟨own', inside', same'⟩ := covered other member'
    rw [same, same'] at slots ⊢
    exact accepted.agree own inside own' inside' slots

section
variable (sha : Sha256)

theorem validateHash_digest (label text : String) : QuantityObservation.validateHash label (sha.digest text) = .ok () := by
  simp only [QuantityObservation.validateHash, bind_unit_ok, raiseIf_ok]
  refine ⟨?_, by simp [sha.hex text]⟩
  rintro (narrow | upper)
  · exact narrow (sha.width text)
  · exact upper (sha.lower text)

theorem direction_text (text : String) : (directionOf text).text = text.toLower := by
  unfold directionOf
  split
  · rename_i inbound
    exact inbound.symm
  · split
    · rename_i outbound
      exact outbound.symm
    · rfl

theorem observation_slot (key : CanonicalEventKey) (row : ImportRow) :
    (importedObservation sha.digest key row).slot = row.quantity.slot := by
  simp only [QuantityObservation.slot, importedObservation, RowQuantity.slot, ImportRow.quantity, direction_text]

theorem id_ne_empty (row : ImportRow) : row.id ≠ "" := by
  intro empty
  apply row.named
  rw [empty]
  rfl

theorem firstNonempty_id (text : String) (row : ImportRow) : firstNonempty [text, row.id] ≠ "" := by
  by_cases blank : text = ""
  · simp [firstNonempty, blank, id_ne_empty row]
  · simp [firstNonempty, blank]

theorem fromImport_ok (key : CanonicalEventKey) (row : ImportRow) :
    QuantityObservation.fromImport sha.digest key row = .ok (importedObservation sha.digest key row) ↔
      row.quantity.Readable := by
  have names : ¬((importedObservation sha.digest key row).transactionId = "" ∨
      (importedObservation sha.digest key row).anchorTransactionId = "" ∨
      (importedObservation sha.digest key row).walletId = "") ↔ row.walletId ≠ "" := by
    have anchor := firstNonempty_id row.journalTransactionId row
    simp [importedObservation, id_ne_empty row, anchor]
  have checked : QuantityObservation.fromImport sha.digest key row = .ok (importedObservation sha.digest key row) ↔
      (importedObservation sha.digest key row).validate = .ok () := by
    rw [QuantityObservation.fromImport, bind_ok]
    exact ⟨fun ⟨_, valid, _⟩ => valid, fun valid => ⟨(), valid, rfl⟩⟩
  rw [checked]
  simp only [QuantityObservation.validate, bind_unit_ok, raiseIf_ok]
  rw [names]
  constructor
  · rintro ⟨wallet, -, -, directed, asset, amount, fee, separate, nonzero, included⟩
    refine ⟨wallet, ?_, asset, not_lt.1 amount, not_lt.1 fee, separate, nonzero, included⟩
    by_contra none
    exact directed (not_or.1 none)
  · intro readable
    refine ⟨readable.wallet, validateHash_digest sha _ _, validateHash_digest sha _ _, ?_, readable.asset,
      not_lt.2 readable.amount, not_lt.2 readable.fee, readable.separate, readable.nonzero, readable.included⟩
    rintro ⟨notIn, notOut⟩
    rcases readable.directed with inbound | outbound
    · exact notIn inbound
    · exact notOut outbound

variable {key : CanonicalEventKey} {rows : List ImportRow}

theorem fromImport_value {row : ImportRow} {o : QuantityObservation}
    (read : QuantityObservation.fromImport sha.digest key row = .ok o) : o = importedObservation sha.digest key row := by
  obtain ⟨_, -, same⟩ := bind_ok.1 read
  exact (pure_ok.1 same).symm

theorem observe_plain (key : CanonicalEventKey) :
    observe sha.digest [] key = QuantityObservation.fromImport sha.digest key := by
  funext row
  unfold observe
  cases read : QuantityObservation.fromImport sha.digest key row with
  | error e => rfl
  | ok o => rfl

theorem judge_accepted (key : CanonicalEventKey) (accepted : EventAccepted rows) :
    judgeEvent sha.digest [] key rows = .ok (eventFrom key (rows.map (importedObservation sha.digest key))) := by
  have run : rows.mapM (observe sha.digest [] key) = .ok (rows.map (importedObservation sha.digest key)) := by
    rw [mapM_ok, observe_plain, forall₂_map_right_iff, forall₂_same]
    exact fun row member => (fromImport_ok sha key row).2 (accepted.readable row member)
  have coherent : ¬Contradictory (rows.map (importedObservation sha.digest key)) := by
    rintro ⟨o, inside, p, inside', slots, differ⟩
    obtain ⟨row, member, rfl⟩ := mem_map.1 inside
    obtain ⟨other, member', rfl⟩ := mem_map.1 inside'
    rw [observation_slot, observation_slot] at slots
    exact differ (accepted.agree row member other member' slots)
  have open' : ¬(rows.any fun row => (lookup ([] : Reconciliations) row.id).any (·.isNone)) = true := by
    simp [lookup]
  unfold judgeEvent
  rw [if_neg open', run]
  simp only [if_neg coherent]

theorem judge_refused (refused : ¬EventAccepted rows) : (judgeEvent sha.digest [] key rows).toOption = none := by
  cases outcome : judgeEvent sha.digest [] key rows with
  | error issue => rfl
  | ok event =>
    refine absurd ?_ refused
    unfold judgeEvent at outcome
    split at outcome
    · cases outcome
    · split at outcome
      · cases outcome
      · rename_i observations run
        split at outcome
        · cases outcome
        · rename_i coherent
          rw [observe_plain] at run
          have read : ∀ row ∈ rows, QuantityObservation.fromImport sha.digest key row =
              .ok (importedObservation sha.digest key row) ∧ importedObservation sha.digest key row ∈ observations := by
            intro row member
            obtain ⟨o, inside, step⟩ := mapM_inputs run member
            have value := fromImport_value sha step
            rw [value] at step inside
            exact ⟨step, inside⟩
          refine ⟨fun row member => (fromImport_ok sha key row).1 (read row member).1, ?_⟩
          intro row member other member' slots
          by_contra differ
          refine coherent ⟨_, (read row member).2, _, (read other member').2, ?_, differ⟩
          rw [observation_slot, observation_slot]
          exact slots

/-- Two legs state the same quantity; their ids and their evidence may differ. -/
structure SameQuantity (leg leg' : QuantityObservation) : Prop where
  eventKey : leg'.eventKey = leg.eventKey
  walletId : leg'.walletId = leg.walletId
  direction : leg'.direction = leg.direction
  asset : leg'.asset = leg.asset
  amountMsat : leg'.amountMsat = leg.amountMsat
  feeMsat : leg'.feeMsat = leg.feeMsat
  amountIncludesFee : leg'.amountIncludesFee = leg.amountIncludesFee
  quantityHash : leg'.quantityHash = leg.quantityHash

theorem sameQuantity_of_slot {row row' : ImportRow}
    (slots : row.quantity.slot = row'.quantity.slot) (semantics : row.quantity.semantics = row'.quantity.semantics) :
    SameQuantity (importedObservation sha.digest key row) (importedObservation sha.digest key row') := by
  simp only [RowQuantity.slot, ImportRow.quantity, EmbeddingLike.apply_eq_iff_eq, Prod.mk.injEq] at slots
  simp only [RowQuantity.semantics, ImportRow.quantity, Prod.mk.injEq] at semantics
  obtain ⟨wallet, direction, asset⟩ := slots
  obtain ⟨amount, fee, included⟩ := semantics
  have directions : directionOf row'.direction = directionOf row.direction := by
    unfold directionOf
    rw [direction]
  refine ⟨rfl, wallet.symm, directions, asset.symm, amount.symm, fee.symm, included.symm, ?_⟩
  simp only [importedObservation, EvidenceSnapshot.fromTransaction, hashPayload, canonicalQuantityPayload, wallet, direction,
    asset, amount, fee, included]

theorem forall₂_filterMap {α β : Type} {R : β → β → Prop} {f g : α → Option β} {xs : List α}
    (both : ∀ x ∈ xs, (f x = none ∧ g x = none) ∨ ∃ a b, f x = some a ∧ g x = some b ∧ R a b) :
    Forall₂ R (xs.filterMap f) (xs.filterMap g) := by
  induction xs with
  | nil => exact .nil
  | cons x rest ih =>
    have later := ih fun y member => both y (.tail _ member)
    rcases both x (.head _) with ⟨left, right⟩ | ⟨a, b, left, right, related⟩
    · rw [filterMap_cons_none left, filterMap_cons_none right]
      exact later
    · rw [filterMap_cons_some left, filterMap_cons_some right]
      exact .cons related later

theorem forall₂_exists {α β : Type} {R : α → β → Prop} {xs : List α} {ys : List β} (related : Forall₂ R xs ys)
    {x : α} (member : x ∈ xs) : ∃ y ∈ ys, R x y := by
  induction related with
  | nil => cases member
  | cons head _ ih =>
    rcases mem_cons.1 member with rfl | later
    · exact ⟨_, .head _, head⟩
    · obtain ⟨y, inside, holds⟩ := ih later
      exact ⟨y, .tail _ inside, holds⟩

theorem representative_mem (key : CanonicalEventKey) {slot : String ×ₗ String ×ₗ String}
    (filled : ∃ row ∈ rows, row.quantity.slot = slot) :
    ∃ row ∈ rows, row.quantity.slot = slot ∧
      ((rows.map (importedObservation sha.digest key)).filter fun o => o.slot = slot).argmin (·.rank) =
        some (importedObservation sha.digest key row) := by
  obtain ⟨row, member, same⟩ := filled
  cases first : ((rows.map (importedObservation sha.digest key)).filter fun o => o.slot = slot).argmin (·.rank) with
  | none =>
    rw [argmin_eq_none, filter_eq_nil_iff] at first
    refine absurd ?_ (first _ (mem_map_of_mem member))
    rw [observation_slot]
    exact decide_eq_true same
  | some o =>
    obtain ⟨inside, own⟩ := mem_filter.1 (argmin_mem first)
    obtain ⟨source, listed, rfl⟩ := mem_map.1 inside
    refine ⟨source, listed, ?_, rfl⟩
    rw [← observation_slot sha key]
    exact of_decide_eq_true own

theorem mem_slots (key : CanonicalEventKey) {slot : String ×ₗ String ×ₗ String} :
    slot ∈ (rows.map (importedObservation sha.digest key)).map (·.slot) ↔ ∃ row ∈ rows, row.quantity.slot = slot := by
  simp only [map_map, mem_map, Function.comp, observation_slot]

theorem legs_sameQuantity {rows rows' : List ImportRow}
    (accepted : EventAccepted rows) (covers : ∀ row ∈ rows, ∃ own ∈ rows', row.quantity = own.quantity)
    (covered : ∀ row ∈ rows', ∃ own ∈ rows, row.quantity = own.quantity) :
    Forall₂ SameQuantity (legsOf (rows.map (importedObservation sha.digest key)))
      (legsOf (rows'.map (importedObservation sha.digest key))) := by
  have slots : sortedSet ((rows'.map (importedObservation sha.digest key)).map (·.slot)) =
      sortedSet ((rows.map (importedObservation sha.digest key)).map (·.slot)) := by
    refine sortedSet_eq_of_mem fun slot => ?_
    rw [mem_slots, mem_slots]
    constructor
    · rintro ⟨row, member, same⟩
      obtain ⟨own, inside, equal⟩ := covered row member
      exact ⟨own, inside, equal ▸ same⟩
    · rintro ⟨row, member, same⟩
      obtain ⟨own, inside, equal⟩ := covers row member
      exact ⟨own, inside, equal ▸ same⟩
  unfold legsOf
  rw [slots]
  refine forall₂_filterMap fun slot member => ?_
  have filled := (mem_slots sha key).1 (mem_sortedSet.1 member)
  have filled' : ∃ row ∈ rows', row.quantity.slot = slot := by
    obtain ⟨row, inside, same⟩ := filled
    obtain ⟨own, listed, equal⟩ := covers row inside
    exact ⟨own, listed, equal ▸ same⟩
  obtain ⟨row, inside, same, first⟩ := representative_mem sha key filled
  obtain ⟨row', inside', same', first'⟩ := representative_mem sha key filled'
  obtain ⟨own, listed, equal⟩ := covered row' inside'
  refine .inr ⟨_, _, first, first', sameQuantity_of_slot sha (same.trans same'.symm) ?_⟩
  rw [equal]
  exact accepted.agree row inside own listed (by rw [← equal, same, same'])

theorem aliases_perm (key : CanonicalEventKey) (accepted : EventAccepted rows) :
    (aliasesOf (rows.map (importedObservation sha.digest key))).Perm
      (rows.map fun row => (row.id, (importedObservation sha.digest key row).quantityHash)) := by
  unfold aliasesOf
  refine (sortedBy_perm _ _).trans ?_
  rw [map_map]
  refine List.Perm.of_eq (map_congr_left fun row member => ?_)
  have selected : selectedHash (legsOf (rows.map (importedObservation sha.digest key))) (importedObservation sha.digest key row) =
      (importedObservation sha.digest key row).quantityHash := by
    unfold selectedHash
    cases found : (legsOf (rows.map (importedObservation sha.digest key))).find?
        fun leg => leg.slot = (importedObservation sha.digest key row).slot with
    | none =>
      have listed : row.quantity.slot ∈ sortedSet ((rows.map (importedObservation sha.digest key)).map (·.slot)) :=
        mem_sortedSet.2 ((mem_slots sha key).2 ⟨row, member, rfl⟩)
      obtain ⟨own, -, same, first⟩ := representative_mem sha key ⟨row, member, rfl⟩
      have leg : importedObservation sha.digest key own ∈ legsOf (rows.map (importedObservation sha.digest key)) :=
        mem_filterMap.2 ⟨_, listed, first⟩
      refine absurd ?_ (List.find?_eq_none.1 found _ leg)
      rw [observation_slot, observation_slot]
      exact decide_eq_true same
    | some leg =>
      have slots := find?_some found
      simp only [decide_eq_true_eq] at slots
      obtain ⟨slot, -, first⟩ := mem_filterMap.1 (mem_of_find?_eq_some found)
      obtain ⟨own, inside, rfl⟩ := mem_map.1 (mem_filter.1 (argmin_mem first)).1
      rw [observation_slot, observation_slot] at slots
      exact (sameQuantity_of_slot sha slots.symm (accepted.agree row member own inside slots.symm)).quantityHash
  exact congrArg (Prod.mk row.id) selected

end

end Kassiber.Custody

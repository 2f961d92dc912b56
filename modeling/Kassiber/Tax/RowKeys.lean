import Kassiber.Tax.Walk

/-!
An id is built from a slice, from a fee amount or from a payout, and the text of a key determines the key.
-/

namespace Kassiber.Tax
open Custody Lib.Outcome Lib.Sorting Lib.Text

inductive RowKey where
  | slice (slice : QuantitySlice) (side : String)
  | fee (hash side : String) (amountMsat : Int)
  | payout (key : String) (out : Bool)

namespace RowKey

def text : RowKey → String
  | .slice s side => sliceRowId s side
  | .fee hash side amountMsat => feeRowId hash side amountMsat
  | .payout key out => "direct-payout:" ++ key ++ if out then ":out" else ":in"

def sliceSides : List String := ["move-out", "move-in", "direct-payout-source", "external", "inbound"]

def feeSides : List String := ["non-event-fee", "reviewed-fee", "fee-only"]

def Formed : RowKey → Prop
  | .slice s side => s.observationHash.length = 64 ∧ side ∈ sliceSides
  | .fee hash side _ => hash.length = 64 ∧ side ∈ feeSides
  | .payout _ _ => True

theorem text_ne_empty (key : RowKey) : key.text ≠ "" := by
  cases key with
  | slice slice side =>
    unfold text sliceRowId
    repeat refine append_ne_empty ?_
    decide
  | fee hash side amount =>
    unfold text feeRowId
    repeat refine append_ne_empty ?_
    decide
  | payout key out =>
    unfold text
    repeat refine append_ne_empty ?_
    decide

variable {side side' hash key : String}

theorem sliceRowId_inj {s t : QuantitySlice} (left : s.observationHash.length = 64)
    (right : t.observationHash.length = 64) (same : sliceRowId s side = sliceRowId t side') : s = t ∧ side = side' := by
  unfold sliceRowId at same
  simp only [String.append_assoc] at same
  obtain ⟨hashes, rest⟩ := append_inj_of_length (left.trans right.symm) (append_left_cancel same)
  have rest := append_left_cancel rest
  simp only [← String.append_assoc] at rest
  rw [String.append_assoc, String.append_assoc, String.append_assoc, String.append_assoc] at rest
  obtain ⟨starts, rest⟩ := colon_inj (int_colonFree s.start_nonneg) (int_colonFree t.start_nonneg)
    (by simpa only [String.append_assoc] using rest)
  obtain ⟨ends, sides⟩ := colon_inj (int_colonFree (le_trans s.start_nonneg (le_of_lt s.start_lt_end)))
    (int_colonFree (le_trans t.start_nonneg (le_of_lt t.start_lt_end))) (by simpa only [String.append_assoc] using rest)
  refine ⟨?_, sides⟩
  cases s
  cases t
  simp only [QuantitySlice.mk.injEq]
  exact ⟨hashes, int_toString_inj starts, int_toString_inj ends⟩

theorem feeSide_colonFree (known : side ∈ feeSides) : ColonFree side := by
  unfold feeSides at known
  unfold ColonFree
  fin_cases known <;> decide

theorem feeRowId_inj {hash' : String} {amount amount' : Int} (left : hash.length = 64)
    (right : hash'.length = 64) (known : side ∈ feeSides) (known' : side' ∈ feeSides)
    (same : feeRowId hash side amount = feeRowId hash' side' amount') : hash = hash' ∧ side = side' ∧ amount = amount' := by
  unfold feeRowId at same
  simp only [String.append_assoc] at same
  obtain ⟨hashes, rest⟩ := append_inj_of_length (left.trans right.symm) (append_left_cancel same)
  obtain ⟨sides, amounts⟩ := colon_inj (feeSide_colonFree known) (feeSide_colonFree known')
    (by simpa only [String.append_assoc] using append_left_cancel rest)
  exact ⟨hashes, sides, int_toString_inj amounts⟩

theorem feeSide_ne_number (known : side ∈ feeSides) {n : Int} (nonneg : 0 ≤ n) : toString n ≠ side := by
  obtain ⟨k, rfl⟩ := Int.eq_ofNat_of_zero_le nonneg
  intro same
  have digits : ∀ c ∈ side.toList, c.isDigit = true := by
    intro c member
    rw [← same] at member
    have member : c ∈ (toString k).toList := member
    exact Nat.isDigit_of_mem_toDigits (by decide) (by decide)
      (show c ∈ Nat.toDigits 10 k by simpa [toString, Nat.repr] using member)
  unfold feeSides at known
  fin_cases known <;> exact absurd (digits '-' (by decide)) (by decide)

theorem sliceRowId_ne_feeRowId {s : QuantitySlice} {amount : Int}
    (left : s.observationHash.length = 64) (right : hash.length = 64) (known : side' ∈ feeSides) :
    sliceRowId s side ≠ feeRowId hash side' amount := by
  intro same
  unfold sliceRowId feeRowId at same
  simp only [String.append_assoc] at same
  obtain ⟨-, rest⟩ := append_inj_of_length (left.trans right.symm) (append_left_cancel same)
  obtain ⟨starts, -⟩ := colon_inj (int_colonFree s.start_nonneg) (feeSide_colonFree known)
    (by simpa only [String.append_assoc] using append_left_cancel rest)
  exact feeSide_ne_number known s.start_nonneg starts

theorem payout_text_inj {key' : String} {out out' : Bool}
    (same : text (.payout key out) = text (.payout key' out')) : key = key' ∧ out = out' := by
  have chars := congrArg String.toList same
  simp only [text, String.toList_append, List.append_assoc] at chars
  have chars := List.append_cancel_left chars
  cases out <;> cases out'
  · exact ⟨String.toList_injective (List.append_cancel_right chars), rfl⟩
  · exact absurd (congrArg List.getLast? chars) (by simp)
  · exact absurd (congrArg List.getLast? chars) (by simp)
  · exact ⟨String.toList_injective (List.append_cancel_right chars), rfl⟩

theorem custody_ne_payout {rest : String} {out : Bool} : "custody-tax:" ++ rest ≠ text (.payout key out) := by
  intro same
  have chars := congrArg (fun t : String => t.toList.head?) same
  simp [text, String.toList_append] at chars

theorem text_inj {k l : RowKey} (left : k.Formed) (right : l.Formed) (same : k.text = l.text) : k = l := by
  cases k with
  | slice s side =>
    cases l with
    | slice t side' =>
      obtain ⟨rfl, rfl⟩ := sliceRowId_inj left.1 right.1 same
      rfl
    | fee hash side' amount => exact absurd same (sliceRowId_ne_feeRowId left.1 right.1 right.2)
    | payout key out =>
      refine absurd same ?_
      unfold text sliceRowId
      simp only [String.append_assoc]
      exact custody_ne_payout
  | fee hash side amount =>
    cases l with
    | slice t side' => exact absurd same.symm (sliceRowId_ne_feeRowId right.1 left.1 left.2)
    | fee hash' side' amount' =>
      obtain ⟨rfl, rfl, rfl⟩ := feeRowId_inj left.1 right.1 left.2 right.2 same
      rfl
    | payout key out =>
      refine absurd same ?_
      unfold text feeRowId
      simp only [String.append_assoc]
      exact custody_ne_payout
  | payout key out =>
    cases l with
    | slice t side' =>
      refine absurd same.symm ?_
      unfold text sliceRowId
      simp only [String.append_assoc]
      exact custody_ne_payout
    | fee hash side amount =>
      refine absurd same.symm ?_
      unfold text feeRowId
      simp only [String.append_assoc]
      exact custody_ne_payout
    | payout key' out' =>
      obtain ⟨rfl, rfl⟩ := payout_text_inj same
      rfl

theorem texts_nodup {keys : List RowKey} (formed : ∀ k ∈ keys, k.Formed) : (keys.map text).Nodup ↔ keys.Nodup := by
  constructor
  · exact List.Nodup.of_map text
  · exact fun distinct => distinct.map_on fun k left l right same => text_inj (formed k left) (formed l right) same

end RowKey

end Kassiber.Tax

import Kassiber.Lib.Sorting

/-!
A page ends with a token of its last item; the next page is what comes after that item in key order.
-/

namespace Lib.Paging
open Lib.Sorting List

section
variable {σ π α β : Type} (page : Option σ → Option π) (next : π → Option σ)

/-- The pages from a token on, up to the first that names no next one. -/
inductive Following : Option σ → List π → Prop where
  | last {token : Option σ} {here : π} (found : page token = some here) (ends : next here = none) :
      Following token [here]
  | more {token : Option σ} {here : π} {following : σ} {rest : List π} (found : page token = some here)
      (continues : next here = some following) (later : Following (some following) rest) :
      Following token (here :: rest)

variable (token : α → σ)

def Left (whole rest : List α) : Option σ → Prop
  | none => rest = whole
  | some cursor => ∃ before item, whole = before ++ item :: rest ∧ cursor = token item

variable {page next token}

theorem exists_following {size : Nat} (positive : 0 < size) {whole : List α} {items : π → List β} {shown : α → β}
    (step : ∀ cursor rest, Left token whole rest cursor → ∃ here, page cursor = some here ∧
      items here = (rest.take size).map shown ∧
      next here = if size < rest.length then (rest.take size).getLast?.map token else none)
    {cursor : Option σ} {rest : List α} (left : Left token whole rest cursor) :
    ∃ pages, Following page next cursor pages ∧ pages.flatMap items = rest.map shown := by
  obtain ⟨here, found, taken, continues⟩ := step cursor rest left
  by_cases more : size < rest.length
  · rw [if_pos more] at continues
    have nonempty : rest.take size ≠ [] := by
      rw [Ne, take_eq_nil_iff]
      rintro (zero | empty)
      · omega
      · rw [empty] at more
        exact absurd more (Nat.not_lt_zero _)
    rw [getLast?_eq_some_getLast nonempty, Option.map_some] at continues
    have split : rest = (rest.take size).dropLast ++ (rest.take size).getLast nonempty :: rest.drop size := by
      rw [← singleton_append, ← List.append_assoc, dropLast_append_getLast, take_append_drop]
    have later : Left token whole (rest.drop size) (some (token ((rest.take size).getLast nonempty))) := by
      cases cursor with
      | none =>
        obtain rfl : rest = whole := left
        exact ⟨_, _, split, rfl⟩
      | some cursor =>
        obtain ⟨before, item, same, -⟩ := left
        exact ⟨before ++ item :: (rest.take size).dropLast, _, by
          rw [same, List.append_assoc, cons_append, ← split], rfl⟩
    have shorter : (rest.drop size).length < rest.length := by
      rw [length_drop]
      omega
    obtain ⟨pages, followed, flat⟩ := exists_following positive step later
    exact ⟨here :: pages, .more found continues followed, by
      rw [flatMap_cons, taken, flat, ← map_append, take_append_drop]⟩
  · rw [if_neg more] at continues
    exact ⟨[here], .last found continues, by
      rw [flatMap_cons, flatMap_nil, append_nil, taken, take_of_length_le (not_lt.1 more)]⟩
termination_by rest.length

end

section
variable {α κ : Type} [LinearOrder κ] {key : α → κ}

theorem sortedBy_filter_distinct {items : List α} (distinct : (items.map key).Nodup) (p : α → Bool) :
    sortedBy key (items.filter p) = (sortedBy key items).filter p := by
  refine eq_of_perm_of_strict key ((sortedBy_perm key _).trans ((sortedBy_perm key items).symm.filter p))
    (sortedBy_pairwise key _) ?_
  exact (sortedBy_strict distinct).filter p

theorem filter_behind {before rest : List α} {item : α} (strict : (before ++ item :: rest).Pairwise (key · < key ·)) :
    ((before ++ item :: rest).filter fun other => key item < key other) = rest := by
  obtain ⟨-, behind, across⟩ := pairwise_append.1 strict
  obtain ⟨greater, -⟩ := pairwise_cons.1 behind
  rw [filter_append, filter_cons, if_neg (by simp), filter_eq_nil_iff.2, nil_append, filter_eq_self.2]
  · exact fun other member => decide_eq_true (greater other member)
  · intro other member passes
    exact lt_asymm (across other member item (.head _)) (of_decide_eq_true passes)

end

end Lib.Paging

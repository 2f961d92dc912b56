import Mathlib

/-!
Reading an exact number of items from a source that hands out its data in pieces.
-/

namespace Lib.Chunks
open List

variable {α : Type*}

def Proper (chunks : List (List α)) : Prop := ∀ chunk ∈ chunks, chunk ≠ []

variable {chunks : List (List α)}

theorem Proper.eq_nil (proper : Proper chunks) (empty : chunks.flatten = []) : chunks = [] := by
  cases chunks with
  | nil => rfl
  | cons chunk rest =>
    rw [flatten_cons, append_eq_nil_iff] at empty
    exact absurd empty.1 (proper chunk (.head _))

/-- One receive: at most `size` items of the next piece. -/
def recv (size : Nat) : List (List α) → List α × List (List α)
  | [] => ([], [])
  | chunk :: rest => if chunk.length ≤ size then (chunk, rest) else (chunk.take size, chunk.drop size :: rest)

theorem recv_flatten (size : Nat) (chunks : List (List α)) :
    chunks.flatten = (recv size chunks).1 ++ (recv size chunks).2.flatten := by
  cases chunks with
  | nil => rfl
  | cons chunk rest =>
    simp only [recv]
    split
    · rfl
    · rw [flatten_cons, flatten_cons, ← List.append_assoc, take_append_drop]

theorem recv_length (size : Nat) (chunks : List (List α)) : (recv size chunks).1.length ≤ size := by
  cases chunks with
  | nil => exact Nat.zero_le size
  | cons chunk rest =>
    simp only [recv]
    split
    · assumption
    · exact length_take_le size chunk

theorem recv_proper {size : Nat} (proper : Proper chunks) : Proper (recv size chunks).2 := by
  cases chunks with
  | nil => exact proper
  | cons chunk rest =>
    have later : Proper rest := fun piece member => proper piece (.tail _ member)
    simp only [recv]
    split
    · exact later
    · rename_i long
      intro piece member
      rcases mem_cons.1 member with rfl | old
      · intro gone
        exact long (drop_eq_nil_iff.1 gone)
      · exact later piece old

theorem recv_nonempty {size : Nat} (proper : Proper chunks) (wanted : 0 < size)
    (available : chunks.flatten ≠ []) : (recv size chunks).1 ≠ [] := by
  cases chunks with
  | nil => exact absurd rfl available
  | cons chunk rest =>
    have filled := proper chunk (.head _)
    simp only [recv]
    split
    · exact filled
    · intro gone
      rcases take_eq_nil_iff.1 gone with zero | none
      · exact wanted.ne' zero
      · exact filled none

/-- Receive until `size` items are there; `none` when the source ends before. -/
def recvExact (size : Nat) (received : List α) (chunks : List (List α)) : Option (List α) × List (List α) :=
  if received.length < size then
    if (recv (size - received.length) chunks).1.length = 0 then (none, (recv (size - received.length) chunks).2)
    else recvExact size (received ++ (recv (size - received.length) chunks).1) (recv (size - received.length) chunks).2
  else (some received, chunks)
termination_by size - received.length
decreasing_by
  rw [length_append]
  omega

theorem recvExact_takes (size : Nat) (received : List α) (chunks : List (List α)) (fits : received.length ≤ size) :
    ∃ taken, chunks.flatten = taken ++ (recvExact size received chunks).2.flatten ∧
      received.length + taken.length ≤ size ∧
      ∀ items, (recvExact size received chunks).1 = some items → items = received ++ taken ∧ items.length = size := by
  induction received, chunks using recvExact.induct size with
  | case1 received chunks short ended =>
    refine ⟨[], ?_, by simpa using fits, ?_⟩
    · rw [recvExact, if_pos short, if_pos ended]
      have split := recv_flatten (size - received.length) chunks
      rw [length_eq_zero_iff.1 ended] at split
      exact split
    · rw [recvExact, if_pos short, if_pos ended]
      rintro _ ⟨⟩
  | case2 received chunks short more ih =>
    have bound := recv_length (size - received.length) chunks
    obtain ⟨taken, split, within, exactly⟩ := ih (by rw [length_append]; omega)
    refine ⟨(recv (size - received.length) chunks).1 ++ taken, ?_, ?_, ?_⟩
    · rw [recvExact, if_pos short, if_neg more, List.append_assoc, ← split]
      exact recv_flatten _ chunks
    · rw [length_append] at within ⊢
      omega
    · rw [recvExact, if_pos short, if_neg more, ← List.append_assoc]
      exact exactly
  | case3 received chunks complete =>
    refine ⟨[], ?_, by simpa using fits, ?_⟩
    · rw [recvExact, if_neg complete]
      rfl
    · rw [recvExact, if_neg complete]
      rintro items ⟨⟩
      exact ⟨(append_nil _).symm, le_antisymm fits (not_lt.1 complete)⟩

theorem recvExact_exact {size : Nat} {received items rest : List α} (proper : Proper chunks)
    (holds : chunks.flatten = items ++ rest) (wanted : received.length + items.length = size) :
    ∃ later, recvExact size received chunks = (some (received ++ items), later) ∧ later.flatten = rest ∧ Proper later := by
  induction received, chunks using recvExact.induct size generalizing items with
  | case1 received chunks short ended =>
    refine absurd (length_eq_zero_iff.1 ended) (recv_nonempty proper (by omega) ?_)
    rw [holds]
    intro none
    rw [(append_eq_nil_iff.1 none).1] at wanted
    simp at wanted
    omega
  | case2 received chunks short more ih =>
    have bound := recv_length (size - received.length) chunks
    have split := recv_flatten (size - received.length) chunks
    rw [holds] at split
    -- The piece is the beginning of the items, because it is not longer than what is missing.
    obtain ⟨later, items_eq, rest_eq⟩ : ∃ later, items = (recv (size - received.length) chunks).1 ++ later ∧
        (recv (size - received.length) chunks).2.flatten = later ++ rest := by
      rcases append_eq_append_iff.1 split with ⟨middle, first, second⟩ | ⟨middle, first, second⟩
      · have none : middle = [] := by
          rw [first, length_append] at bound
          exact length_eq_zero_iff.1 (by omega)
        subst none
        refine ⟨[], by simpa using first.symm, by simpa using second.symm⟩
      · exact ⟨middle, first, second⟩
    obtain ⟨remaining, run, left, still⟩ := ih (recv_proper proper) rest_eq
      (by rw [items_eq, length_append] at wanted; rw [length_append]; omega)
    refine ⟨remaining, ?_, left, still⟩
    rw [recvExact, if_pos short, if_neg more, run, items_eq, List.append_assoc]
  | case3 received chunks complete =>
    have none : items = [] := length_eq_zero_iff.1 (by omega)
    subst none
    refine ⟨chunks, ?_, by simpa using holds, proper⟩
    rw [recvExact, if_neg complete, append_nil]

end Lib.Chunks

import Mathlib

/-!
Tables as lists of rows with a key: reading, rewriting and inserting by key, and what each leaves of
the rows under other keys.
-/

namespace Lib.Keyed
open List
variable {κ ρ : Type*} [DecidableEq κ] (key : ρ → κ)

def rowAt (rows : List ρ) (k : κ) : Option ρ := rows.find? (fun row => key row = k)

def editAt (rows : List ρ) (k : κ) (f : ρ → ρ) : List ρ := rows.map fun row => if key row = k then f row else row

def putAt (rows : List ρ) (row : ρ) : List ρ :=
  if (rowAt key rows (key row)).isSome then editAt key rows (key row) (fun _ => row) else rows ++ [row]

variable {key} {rows : List ρ} {row : ρ} {k j : κ}

theorem rowAt_key (found : rowAt key rows k = some row) : key row = k := by
  simpa using find?_some found

theorem rowAt_mem (found : rowAt key rows k = some row) : row ∈ rows := mem_of_find?_eq_some found

theorem rowAt_eq_none : rowAt key rows k = none ↔ k ∉ rows.map key := by
  simp [rowAt]

@[simp] theorem rowAt_nil : rowAt key [] k = none := rfl

theorem rowAt_cons {head : ρ} : rowAt key (head :: rows) k = if key head = k then some head else rowAt key rows k := by
  by_cases same : key head = k <;> simp [rowAt, same]

theorem rowAt_append {more : List ρ} : rowAt key (rows ++ more) k = (rowAt key rows k).or (rowAt key more k) := by
  simp [rowAt, find?_append]

theorem rowAt_of_mem (distinct : (rows.map key).Nodup) (member : row ∈ rows) : rowAt key rows (key row) = some row := by
  induction rows with
  | nil => cases member
  | cons head rest ih =>
    rw [map_cons, nodup_cons] at distinct
    rw [rowAt_cons]
    rcases mem_cons.1 member with rfl | later
    · rw [if_pos rfl]
    · have apart : key head ≠ key row := fun same => distinct.1 (same ▸ mem_map_of_mem later)
      rw [if_neg apart]
      exact ih distinct.2 later

theorem rowAt_filter (p : ρ → Prop) [DecidablePred p] (stays : ∀ row ∈ rows, key row = k → p row) :
    rowAt key (rows.filter (fun row => p row)) k = rowAt key rows k := by
  induction rows with
  | nil => rfl
  | cons head rest ih =>
    have tail := ih (fun row member => stays row (.tail _ member))
    by_cases kept : p head
    · rw [filter_cons_of_pos (by simpa using kept), rowAt_cons, rowAt_cons, tail]
    · have apart : key head ≠ k := fun same => kept (stays head (.head _) same)
      rw [filter_cons_of_neg (by simpa using kept), rowAt_cons, if_neg apart, tail]

section
variable {f : ρ → ρ} (keeps : ∀ row, key row = k → key (f row) = k)
include keeps

theorem keys_editAt : (editAt key rows k f).map key = rows.map key := by
  rw [editAt, map_map]
  apply map_congr_left
  intro row _
  simp only [Function.comp]
  split
  · rename_i same
    rw [keeps row same, same]
  · rfl

theorem rowAt_editAt_same : rowAt key (editAt key rows k f) k = (rowAt key rows k).map f := by
  induction rows with
  | nil => rfl
  | cons head rest ih =>
    rw [editAt, map_cons, rowAt_cons, rowAt_cons]
    by_cases same : key head = k
    · simp only [same, if_true, keeps head same, Option.map_some]
    · simp only [same, if_false]
      exact ih

theorem rowAt_editAt_other (other : j ≠ k) : rowAt key (editAt key rows k f) j = rowAt key rows j := by
  induction rows with
  | nil => rfl
  | cons head rest ih =>
    rw [editAt, map_cons, rowAt_cons, rowAt_cons]
    by_cases same : key head = k
    · simp only [same, if_true, keeps head same, other.symm, if_false]
      exact ih
    · simp only [same, if_false]
      rw [← editAt, ih]

end

theorem mem_editAt {f : ρ → ρ} (member : row ∈ editAt key rows k f) :
    ∃ source ∈ rows, row = if key source = k then f source else source := by
  obtain ⟨source, inside, rfl⟩ := mem_map.1 member
  exact ⟨source, inside, rfl⟩

theorem rowAt_putAt_same : rowAt key (putAt key rows row) (key row) = some row := by
  rw [putAt]
  split
  · rename_i present
    obtain ⟨old, found⟩ := Option.isSome_iff_exists.1 present
    rw [rowAt_editAt_same (fun _ _ => rfl), found]
    rfl
  · rename_i absent
    have missing : rowAt key rows (key row) = none := by simpa using absent
    rw [rowAt_append, missing, rowAt_cons, if_pos rfl]
    rfl

theorem rowAt_putAt_other (other : j ≠ key row) : rowAt key (putAt key rows row) j = rowAt key rows j := by
  rw [putAt]
  split
  · exact rowAt_editAt_other (fun _ _ => rfl) other
  · rw [rowAt_append, rowAt_cons, if_neg other.symm, rowAt_nil, Option.or_none]

theorem mem_putAt {other : ρ} (member : other ∈ putAt key rows row) : other = row ∨ other ∈ rows := by
  rw [putAt] at member
  split at member
  · obtain ⟨source, inside, rfl⟩ := mem_editAt member
    split
    · exact .inl rfl
    · exact .inr inside
  · rcases mem_append.1 member with inside | last
    · exact .inr inside
    · exact .inl (mem_singleton.1 last)

theorem keys_putAt (distinct : (rows.map key).Nodup) : ((putAt key rows row).map key).Nodup := by
  rw [putAt]
  split
  · rwa [keys_editAt (fun _ _ => rfl)]
  · rename_i absent
    have missing : key row ∉ rows.map key := rowAt_eq_none.1 (by simpa using absent)
    rw [map_append, nodup_append]
    refine ⟨distinct, nodup_singleton _, ?_⟩
    intro k inside other single
    rw [map_singleton, mem_singleton] at single
    rintro rfl
    exact missing (single ▸ inside)

end Lib.Keyed

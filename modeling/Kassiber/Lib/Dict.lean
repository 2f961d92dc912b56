import Mathlib

/-!
Dictionaries that a loop fills by assignment, as the list of the assignments it made.
-/

namespace Lib.Dict
open List hiding lookup lookup_append lookup_singleton

/-- Membership of pairs of texts is decided by one instance throughout. -/
instance textPair : LawfulBEq (String × String) := inferInstance

variable {κ β : Type*} [DecidableEq κ]

def lookup (entries : List (κ × β)) (key : κ) : Option β :=
  (entries.reverse.find? fun entry => entry.1 = key).map Prod.snd

variable {entries : List (κ × β)} {key : κ}

theorem mem_of_lookup {value : β} (found : lookup entries key = some value) :
    (key, value) ∈ entries := by
  obtain ⟨entry, first, rfl⟩ := Option.map_eq_some_iff.1 found
  have same : entry.1 = key := by simpa using find?_some first
  subst same
  exact mem_reverse.1 (mem_of_find?_eq_some first)

theorem lookup_isSome :
    (lookup entries key).isSome = true ↔ key ∈ entries.map Prod.fst := by
  simp [lookup, find?_isSome]

theorem lookup_eq_none :
    lookup entries key = none ↔ key ∉ entries.map Prod.fst := by
  rw [← lookup_isSome]
  cases lookup entries key <;> simp

theorem lookup_append (entries more : List (κ × β)) (key : κ) :
    lookup (entries ++ more) key = (lookup more key).or (lookup entries key) := by
  unfold lookup
  rw [reverse_append, find?_append, Option.map_or]

theorem lookup_singleton (key other : κ) (value : β) :
    lookup [(key, value)] other = if key = other then some value else none := by
  by_cases same : key = other <;> simp [lookup, same]

theorem lookup_assigned (entries : List (κ × β)) (key other : κ) (value default : β) :
    (lookup (entries ++ [(key, value)]) other).getD default =
      if key = other then value else (lookup entries other).getD default := by
  rw [lookup_append, lookup_singleton]
  split <;> simp

/-- The entries as iteration yields them: keys in the order of their first assignment, with their last value. -/
def items (entries : List (κ × β)) : List (κ × β) :=
  (entries.map Prod.fst).eraseDups.filterMap fun key => (lookup entries key).map fun value => (key, value)

theorem mem_items {value : β} :
    (key, value) ∈ items entries ↔ lookup entries key = some value := by
  unfold items
  rw [mem_filterMap]
  constructor
  · rintro ⟨k, -, found⟩
    obtain ⟨v, read, same⟩ := Option.map_eq_some_iff.1 found
    cases same
    exact read
  · intro read
    refine ⟨key, ?_, by rw [read]; rfl⟩
    exact mem_eraseDups.2 (mem_map.2 ⟨_, mem_of_lookup read, rfl⟩)

theorem lookup_of_mem (distinct : (entries.map Prod.fst).Nodup) {value : β}
    (member : (key, value) ∈ entries) : lookup entries key = some value := by
  cases found : lookup entries key with
  | none => exact absurd (mem_map.2 ⟨_, member, rfl⟩) (lookup_eq_none.1 found)
  | some other =>
    have same := inj_on_of_nodup_map distinct (mem_of_lookup found) member rfl
    exact congrArg some (Prod.mk.inj same).2

theorem lookup_flatMap {α : Type*} {parts : List α} {f : α → List (κ × β)} {part : α}
    (member : part ∈ parts) (alone : ∀ other ∈ parts, key ∈ (f other).map Prod.fst → other = part) :
    lookup (parts.flatMap f) key = lookup (f part) key := by
  induction parts with
  | nil => cases member
  | cons first rest ih =>
    have later := fun other inside => alone other (mem_cons_of_mem first inside)
    rw [flatMap_cons, lookup_append]
    by_cases inside : part ∈ rest
    · rw [ih inside later]
      by_cases same : first = part
      · rw [same, Option.or_self]
      · rw [lookup_eq_none.2 fun own => same (alone first mem_cons_self own), Option.or_none]
    · have none : lookup (rest.flatMap f) key = none := by
        rw [lookup_eq_none]
        intro assigned
        obtain ⟨entry, listed, rfl⟩ := mem_map.1 assigned
        obtain ⟨other, found, own⟩ := mem_flatMap.1 listed
        exact inside (later other found (mem_map_of_mem own) ▸ found)
      rw [none, Option.none_or, (mem_cons.1 member).resolve_right inside]

end Lib.Dict

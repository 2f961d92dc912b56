import Mathlib

/-!
Partial semilattices: a join that is undefined where two values contradict each other.
-/

namespace Lib.Semilattice

structure PartialJoin (α : Type*) where
  unit : α
  join : α → α → Option α
  unit_join : ∀ x, join unit x = some x
  idem : ∀ x, join x x = some x
  comm : ∀ x y, join x y = join y x
  assoc : ∀ x y z, ((join x y).bind fun xy => join xy z) = (join y z).bind fun yz => join x yz

namespace PartialJoin

variable {α β : Type*} (J : PartialJoin α)

theorem join_unit (x : α) : J.join x J.unit = some x := by
  rw [J.comm]
  exact J.unit_join x

theorem left_comm (x y z : α) :
    ((J.join y z).bind fun yz => J.join x yz) = (J.join x z).bind fun xz => J.join y xz := by
  rw [← J.assoc x y z, J.comm x y, J.assoc y x z]

def joinAll (values : List α) : Option α := values.foldr (fun value joined => joined.bind (J.join value)) (some J.unit)

@[simp] theorem joinAll_nil : J.joinAll [] = some J.unit := rfl

@[simp] theorem joinAll_cons (x : α) (xs : List α) : J.joinAll (x :: xs) = (J.joinAll xs).bind (J.join x) := rfl

@[simp] theorem joinAll_singleton (x : α) : J.joinAll [x] = some x := by
  rw [joinAll_cons, joinAll_nil, Option.bind_some, join_unit]

theorem joinAll_append (xs ys : List α) :
    J.joinAll (xs ++ ys) = (J.joinAll xs).bind fun x => (J.joinAll ys).bind fun y => J.join x y := by
  induction xs with
  | nil =>
    rw [List.nil_append, joinAll_nil, Option.bind_some]
    cases J.joinAll ys with
    | none => rfl
    | some y => exact (J.unit_join y).symm
  | cons head rest ih =>
    rw [List.cons_append, joinAll_cons, joinAll_cons, ih]
    cases J.joinAll rest with
    | none => rfl
    | some x =>
      cases J.joinAll ys with
      | none =>
        simp only [Option.bind_none, Option.bind_some]
        exact (Option.bind_fun_none _).symm
      | some y => exact (J.assoc head x y).symm

variable {xs ys : List α}

theorem joinAll_perm (perm : xs.Perm ys) : J.joinAll xs = J.joinAll ys := by
  induction perm with
  | nil => rfl
  | cons x _ ih => rw [joinAll_cons, joinAll_cons, ih]
  | swap x y rest =>
    simp only [joinAll_cons]
    cases J.joinAll rest with
    | none => rfl
    | some z => exact J.left_comm y x z
  | trans _ _ left right => exact left.trans right

theorem joinAll_cons_of_mem {x : α} (member : x ∈ xs) : J.joinAll (x :: xs) = J.joinAll xs := by
  obtain ⟨before, after, rfl⟩ := List.append_of_mem member
  have front : J.joinAll (before ++ x :: after) = J.joinAll (x :: (before ++ after)) := J.joinAll_perm List.perm_middle
  rw [joinAll_cons, front, joinAll_cons]
  cases J.joinAll (before ++ after) with
  | none => rfl
  | some z =>
    rw [Option.bind_some, ← J.assoc, J.idem]
    rfl

theorem isSome_of_append (agree : (J.joinAll (xs ++ ys)).isSome) :
    (J.joinAll xs).isSome ∧ (J.joinAll ys).isSome := by
  rw [joinAll_append] at agree
  cases left : J.joinAll xs with
  | none => simp [left] at agree
  | some x =>
    cases right : J.joinAll ys with
    | none => simp [left, right] at agree
    | some y => exact ⟨rfl, rfl⟩

/-- The record holds the join of the observations, as long as they agree. -/
def Records (values : List α) (current : α) : Prop := ∀ joined, J.joinAll values = some joined → current = joined

variable {J}

theorem records_singleton (x : α) : J.Records [x] x := fun joined agree => by
  rw [joinAll_singleton] at agree
  exact Option.some.inj agree

theorem Records.perm {current : α} (records : J.Records xs current) (perm : xs.Perm ys) :
    J.Records ys current := fun joined agree => records joined ((J.joinAll_perm perm).trans agree)

theorem Records.append {x y z : α} (left : J.Records xs x) (right : J.Records ys y)
    (joins : ∀ joined, J.join x y = some joined → z = joined) : J.Records (xs ++ ys) z := by
  intro joined agree
  rw [joinAll_append] at agree
  obtain ⟨a, leftJoined, agree⟩ := Option.bind_eq_some_iff.1 agree
  obtain ⟨b, rightJoined, agree⟩ := Option.bind_eq_some_iff.1 agree
  rw [← left a leftJoined, ← right b rightJoined] at agree
  exact joins joined agree

theorem Records.isSome_append {x y : α} (left : J.Records xs x) (right : J.Records ys y) :
    (J.joinAll (xs ++ ys)).isSome ↔ (J.joinAll xs).isSome ∧ (J.joinAll ys).isSome ∧ (J.join x y).isSome := by
  constructor
  · intro agree
    obtain ⟨leftAgree, rightAgree⟩ := J.isSome_of_append agree
    obtain ⟨a, leftJoined⟩ := Option.isSome_iff_exists.1 leftAgree
    obtain ⟨b, rightJoined⟩ := Option.isSome_iff_exists.1 rightAgree
    rw [joinAll_append, leftJoined, rightJoined] at agree
    refine ⟨leftAgree, rightAgree, ?_⟩
    rw [left a leftJoined, right b rightJoined]
    exact agree
  · rintro ⟨leftAgree, rightAgree, agree⟩
    obtain ⟨a, leftJoined⟩ := Option.isSome_iff_exists.1 leftAgree
    obtain ⟨b, rightJoined⟩ := Option.isSome_iff_exists.1 rightAgree
    rw [left a leftJoined, right b rightJoined] at agree
    rw [joinAll_append, leftJoined, rightJoined]
    exact agree

section
variable [DecidableEq α]

/-- A missing value is filled in; two different values contradict each other. -/
def flat (missing : α) : PartialJoin α where
  unit := missing
  join x y := if x = missing then some y else if y = missing then some x else if x = y then some x else none
  unit_join x := if_pos rfl
  idem x := by split <;> simp
  comm x y := by
    by_cases left : x = missing <;> by_cases right : y = missing <;> by_cases same : x = y <;> simp_all [eq_comm]
  assoc x y z := by
    by_cases first : x = missing
    · simp [first]
    · by_cases second : y = missing
      · simp [first, second]
      · by_cases third : z = missing
        · by_cases same : x = y <;> simp [first, second, third, same]
        · by_cases left : x = y <;> by_cases right : y = z <;> simp [first, second, third, left, right]
          all_goals simp_all

end

theorem both_bind (u : Option α) (v : Option β) (f : α → Option α) (g : β → Option β) :
    ((u.bind fun a => v.map fun b => (a, b)).bind fun p => (f p.1).bind fun a => (g p.2).map fun b => (a, b)) =
      (u.bind f).bind fun a => (v.bind g).map fun b => (a, b) := by
  cases u with
  | none => rfl
  | some a =>
    cases v with
    | none =>
      simp only [Option.bind_some, Option.map_none, Option.bind_none]
      exact (Option.bind_fun_none _).symm
    | some b => rfl

def prod (J : PartialJoin α) (K : PartialJoin β) : PartialJoin (α × β) where
  unit := (J.unit, K.unit)
  join x y := (J.join x.1 y.1).bind fun a => (K.join x.2 y.2).map fun b => (a, b)
  unit_join x := by rw [J.unit_join, Option.bind_some, K.unit_join, Option.map_some]
  idem x := by rw [J.idem, Option.bind_some, K.idem, Option.map_some]
  comm x y := by rw [J.comm, K.comm]
  assoc x y z := by
    have left := both_bind (J.join x.1 y.1) (K.join x.2 y.2) (J.join · z.1) (K.join · z.2)
    have right := both_bind (J.join y.1 z.1) (K.join y.2 z.2) (J.join x.1) (K.join x.2)
    rw [J.assoc, K.assoc] at left
    exact left.trans right.symm

end PartialJoin

end Lib.Semilattice

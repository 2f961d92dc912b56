import Mathlib

/-!
Computations that may raise, as `Except`. A loop that fills a list is `mapM`, a loop that
threads a state is `foldlM`; the lemmas below turn a successful run into facts about its steps.
-/

namespace Lib.Outcome
open List hiding mapM_map

universe u
variable {ε : Type*} {α β : Type u} {f : α → Except ε β} {xs : List α} {ys : List β} {x : Except ε α}

theorem bind_ok {b : β} : x >>= f = .ok b ↔ ∃ a, x = .ok a ∧ f a = .ok b := by
  cases x with
  | error e => simp [Bind.bind, Except.bind]
  | ok a => simp [Bind.bind, Except.bind]

theorem map_ok {f : α → β} {b : β} : f <$> x = .ok b ↔ ∃ a, x = .ok a ∧ f a = b := by
  cases x with
  | error e => simp [Functor.map, Except.map]
  | ok a => simp [Functor.map, Except.map]

theorem pure_ok {a b : α} : (pure a : Except ε α) = .ok b ↔ a = b := by
  simp [pure, Except.pure]

theorem ok_of_toOption {a : α} (found : x.toOption = some a) : x = .ok a := by
  cases x with
  | error e => cases found
  | ok b =>
    cases found
    rfl

theorem ok_of_toOption_map {γ : Type*} {g : α → γ} {c : γ} (found : x.toOption.map g = some c) :
    ∃ a, x = .ok a ∧ g a = c := by
  obtain ⟨a, evaluated, same⟩ := Option.map_eq_some_iff.1 found
  exact ⟨a, ok_of_toOption evaluated, same⟩

/-- A check that raises `e` on the inputs it refuses. -/
def raiseIf (refused : Prop) [Decidable refused] (e : ε) : Except ε Unit := if refused then .error e else .ok ()

theorem raiseIf_ok {refused : Prop} [Decidable refused] {e : ε} {u : Unit} :
    raiseIf refused e = .ok u ↔ ¬refused := by
  by_cases h : refused <;> simp [raiseIf, h]

theorem bind_unit_ok {x : Except ε Unit} {f : Unit → Except ε Unit} :
    (x >>= f) = .ok () ↔ x = .ok () ∧ f () = .ok () := by
  cases x with
  | error e => simp [Bind.bind, Except.bind]
  | ok u => simp [Bind.bind, Except.bind]

theorem exists_of_isOk {α : Type*} {x : Except ε α} (succeeds : x.isOk = true) : ∃ a, x = .ok a := by
  cases x with
  | error e => cases succeeds
  | ok a => exact ⟨a, rfl⟩

theorem forM_ok {β : Type*} {f : β → Except ε PUnit} {xs : List β} : xs.forM f = .ok ⟨⟩ ↔ ∀ x ∈ xs, f x = .ok ⟨⟩ := by
  induction xs with
  | nil => simp [pure_ok]
  | cons x rest ih =>
    change (f x >>= fun _ => rest.forM f) = .ok ⟨⟩ ↔ _
    rw [bind_ok, forall_mem_cons, ← ih]
    constructor
    · rintro ⟨⟨⟩, first, later⟩
      exact ⟨first, later⟩
    · rintro ⟨first, later⟩
      exact ⟨⟨⟩, first, later⟩

theorem mapError_ok {δ : Type*} {f : ε → δ} {a : α} : x.mapError f = .ok a ↔ x = .ok a := by
  cases x <;> simp [Except.mapError]

theorem mapM_ok :
    xs.mapM f = .ok ys ↔ Forall₂ (fun x y => f x = .ok y) xs ys := by
  induction xs generalizing ys with
  | nil =>
    rw [mapM_nil, pure_ok, forall₂_nil_left_iff]
    exact eq_comm
  | cons x rest ih =>
    simp only [mapM_cons, bind_ok, pure_ok, forall₂_cons_left_iff]
    constructor
    · rintro ⟨y, head, zs, tail, rfl⟩
      exact ⟨y, zs, head, ih.1 tail, rfl⟩
    · rintro ⟨y, zs, head, tail, rfl⟩
      exact ⟨y, head, zs, ih.2 tail, rfl⟩

theorem mapM_total (total : ∀ x ∈ xs, ∃ y, f x = .ok y) :
    ∃ ys, xs.mapM f = .ok ys := by
  induction xs with
  | nil => exact ⟨[], rfl⟩
  | cons x rest ih =>
    obtain ⟨y, head⟩ := total x (.head _)
    obtain ⟨ys, tail⟩ := ih fun z member => total z (.tail _ member)
    exact ⟨y :: ys, mapM_ok.2 (.cons head (mapM_ok.1 tail))⟩

theorem related_output {R : α → β → Prop} (related : Forall₂ R xs ys) {y : β}
    (member : y ∈ ys) : ∃ x ∈ xs, R x y := by
  induction related with
  | nil => simp at member
  | cons head _ ih =>
    rcases mem_cons.1 member with rfl | later
    · exact ⟨_, .head _, head⟩
    · obtain ⟨x, old, step⟩ := ih later
      exact ⟨x, .tail _ old, step⟩

theorem mapM_outputs (run : xs.mapM f = .ok ys) {y : β} (member : y ∈ ys) : ∃ x ∈ xs, f x = .ok y :=
  related_output (mapM_ok.1 run) member

theorem mapM_inputs (run : xs.mapM f = .ok ys) {x : α} (member : x ∈ xs) : ∃ y ∈ ys, f x = .ok y :=
  related_output (mapM_ok.1 run).flip member

theorem mapM_map {γ : Type*} {g : β → γ} {h : α → γ}
    (keeps : ∀ x y, f x = .ok y → g y = h x) (run : xs.mapM f = .ok ys) : ys.map g = xs.map h := by
  have paired := mapM_ok.1 run
  clear run
  induction paired with
  | nil => rfl
  | cons head _ ih => rw [map_cons, map_cons, ih, keeps _ _ head]

theorem mapM_perm {xs' : List α} {ys' : List β} (perm : xs.Perm xs')
    (run : xs.mapM f = .ok ys) (run' : xs'.mapM f = .ok ys') : ys.Perm ys' := by
  have results := perm.map f
  rw [← mapM_map (g := Except.ok) (fun _ _ step => step.symm) run,
    ← mapM_map (g := Except.ok) (fun _ _ step => step.symm) run'] at results
  exact (map_perm_map_iff fun _ _ same => Except.ok.inj same).1 results

theorem mapM_flatten_filter {γ κ : Type u} [DecidableEq κ] {f : α → Except ε (List γ)} (keyIn : α → κ) (keyOut : γ → κ)
    (keyed : ∀ x part, f x = .ok part → ∀ y ∈ part, keyOut y = keyIn x) {parts : List (List γ)}
    (run : xs.mapM f = .ok parts) (distinct : (xs.map keyIn).Nodup) {x : α} (member : x ∈ xs) :
    f x = .ok (parts.flatten.filter fun y => keyOut y = keyIn x) := by
  have paired := mapM_ok.1 run
  clear run
  induction paired with
  | nil => cases member
  | @cons z part rest others head tail ih =>
    rw [map_cons, nodup_cons] at distinct
    rw [flatten_cons, filter_append]
    rcases mem_cons.1 member with rfl | later
    · have own : part.filter (fun y => keyOut y = keyIn x) = part :=
        filter_eq_self.2 fun y inside => by simpa using keyed x part head y inside
      have foreign : others.flatten.filter (fun y => keyOut y = keyIn x) = [] := by
        refine filter_eq_nil_iff.2 ?_
        intro y inside equal
        obtain ⟨other, present, held⟩ := mem_flatten.1 inside
        obtain ⟨w, among, step⟩ := mapM_outputs (mapM_ok.2 tail) present
        refine distinct.1 (mem_map.2 ⟨w, among, ?_⟩)
        rw [← keyed w other step y held]
        simpa using equal
      rw [own, foreign, append_nil]
      exact head
    · have none : part.filter (fun y => keyOut y = keyIn x) = [] := by
        refine filter_eq_nil_iff.2 ?_
        intro y inside equal
        refine distinct.1 (mem_map.2 ⟨x, later, ?_⟩)
        rw [← keyed z part head y inside]
        exact (of_decide_eq_true equal).symm
      rw [none, nil_append]
      exact ih distinct.2 later

theorem foldlM_invariant {f : β → α → Except ε β} {start final : β} (inv : β → Prop)
    (initial : inv start) (step : ∀ s x t, x ∈ xs → inv s → f s x = .ok t → inv t)
    (run : xs.foldlM f start = .ok final) : inv final := by
  induction xs generalizing start with
  | nil =>
    rw [foldlM_nil, pure_ok] at run
    exact run ▸ initial
  | cons x rest ih =>
    rw [foldlM_cons, bind_ok] at run
    obtain ⟨next, first, later⟩ := run
    exact ih (step start x next (.head _) initial first) (fun s y t member => step s y t (.tail _ member)) later

theorem foldl_prefix {σ τ : Type*} {f : σ → τ → σ} {xs : List τ} {start : σ} (inv : List τ → σ → Prop)
    (initial : inv [] start)
    (step : ∀ before x after s, xs = before ++ x :: after → inv before s → inv (before ++ [x]) (f s x)) :
    inv xs (xs.foldl f start) := by
  have run : ∀ (after before : List τ) (s : σ), xs = before ++ after → inv before s → inv xs (after.foldl f s) := by
    intro after
    induction after with
    | nil =>
      intro before s whole held
      rw [append_nil] at whole
      exact whole ▸ held
    | cons x rest ih =>
      intro before s whole held
      refine ih (before ++ [x]) (f s x) ?_ (step before x rest s whole held)
      rw [whole, List.append_assoc, singleton_append]
  exact run xs [] start rfl initial

theorem foldlM_prefix {ε : Type*} {σ τ : Type} {f : σ → τ → Except ε σ} {xs : List τ} {start : σ} (inv : List τ → σ → Prop)
    (initial : inv [] start)
    (step : ∀ before x after s, xs = before ++ x :: after → inv before s → ∃ t, f s x = .ok t ∧ inv (before ++ [x]) t) :
    ∃ final, xs.foldlM f start = .ok final ∧ inv xs final := by
  have run : ∀ (after before : List τ) (s : σ), xs = before ++ after → inv before s →
      ∃ final, after.foldlM f s = .ok final ∧ inv xs final := by
    intro after
    induction after with
    | nil =>
      intro before s whole held
      rw [append_nil] at whole
      exact ⟨s, rfl, whole ▸ held⟩
    | cons x rest ih =>
      intro before s whole held
      obtain ⟨next, taken, kept⟩ := step before x rest s whole held
      obtain ⟨final, later, done⟩ := ih (before ++ [x]) next (by rw [whole, List.append_assoc, singleton_append]) kept
      exact ⟨final, by rw [foldlM_cons, taken]; exact later, done⟩
  exact run xs [] start rfl initial

theorem mapM_uniform {ε : Type*} {α β : Type} {f : α → Except ε β} {bad : α → Prop} [DecidablePred bad] {g : α → β}
    {e : ε} (run : ∀ x, f x = if bad x then .error e else .ok (g x)) (xs : List α) :
    xs.mapM f = if ∃ x ∈ xs, bad x then .error e else .ok (xs.map g) := by
  induction xs with
  | nil => simp; rfl
  | cons first rest ih =>
    rw [mapM_cons, ih, run first]
    by_cases own : bad first
    · have found : ∃ x ∈ first :: rest, bad x := ⟨first, .head _, own⟩
      rw [if_pos own, if_pos found]
      rfl
    · by_cases later : ∃ x ∈ rest, bad x
      · have found : ∃ x ∈ first :: rest, bad x := by
          obtain ⟨x, member, refused⟩ := later
          exact ⟨x, .tail _ member, refused⟩
        rw [if_neg own, if_pos later, if_pos found]
        rfl
      · have none : ¬ ∃ x ∈ first :: rest, bad x := by
          rintro ⟨x, member, refused⟩
          rcases mem_cons.1 member with rfl | rested
          · exact own refused
          · exact later ⟨x, rested, refused⟩
        rw [if_neg own, if_neg later, if_neg none]
        rfl

theorem bind_total {ε : Type} {α β : Type} {x : Except ε α} {f : α → Except ε β} (first : ∃ a, x = .ok a)
    (rest : ∀ a, ∃ b, f a = .ok b) : ∃ b, x >>= f = .ok b := by
  obtain ⟨a, run⟩ := first
  obtain ⟨b, run'⟩ := rest a
  exact ⟨b, bind_ok.2 ⟨a, run, run'⟩⟩

end Lib.Outcome

import Mathlib

/-!
Union-find whose roots are the least members of their classes: joining two classes relabels the greater root.
-/

namespace Kassiber.Lib.UnionFind

section
variable {κ : Type*}

def Connected (edges : List (κ × κ)) : κ → κ → Prop := Relation.EqvGen fun x y => (x, y) ∈ edges

variable {edges : List (κ × κ)}

theorem Connected.refl (x : κ) : Connected edges x x := Relation.EqvGen.refl x

variable {x y : κ}

theorem Connected.symm (connected : Connected edges x y) : Connected edges y x :=
  Relation.EqvGen.symm _ _ connected

theorem Connected.trans {z : κ} (first : Connected edges x y)
    (second : Connected edges y z) : Connected edges x z :=
  Relation.EqvGen.trans _ _ _ first second

theorem Connected.edge (edge : (x, y) ∈ edges) : Connected edges x y :=
  Relation.EqvGen.rel _ _ edge

theorem eqvGen_of_links {links others : κ → κ → Prop} (inside : ∀ x y, links x y → Relation.EqvGen others x y)
    (connected : Relation.EqvGen links x y) : Relation.EqvGen others x y := by
  induction connected with
  | rel x y link => exact inside x y link
  | refl x => exact .refl x
  | symm _ _ _ ih => exact .symm _ _ ih
  | trans _ _ _ _ _ first second => exact .trans _ _ _ first second

theorem Connected.mono {others : List (κ × κ)} (connected : Connected edges x y)
    (subset : ∀ edge ∈ edges, edge ∈ others) : Connected others x y :=
  eqvGen_of_links (fun x y member => Connected.edge (subset (x, y) member)) connected

theorem connected_snoc {edge : κ × κ} :
    Connected (edges ++ [edge]) x y ↔
      Connected edges x y ∨ (Connected edges x edge.1 ∧ Connected edges y edge.2) ∨
        (Connected edges x edge.2 ∧ Connected edges y edge.1) := by
  have inner : ∀ {a b : κ}, Connected edges a b → Connected (edges ++ [edge]) a b := fun connected =>
    connected.mono fun _ member => List.mem_append_left _ member
  have bridge : Connected (edges ++ [edge]) edge.1 edge.2 := .edge (by simp)
  constructor
  · intro connected
    induction connected with
    | rel a b member =>
      rcases List.mem_append.1 member with old | new
      · exact .inl (.edge old)
      · obtain rfl := List.mem_singleton.1 new
        exact .inr (.inl ⟨.refl _, .refl _⟩)
    | refl a => exact .inl (.refl a)
    | symm a b _ ih =>
      rcases ih with old | ⟨left, right⟩ | ⟨left, right⟩
      · exact .inl old.symm
      · exact .inr (.inr ⟨right, left⟩)
      · exact .inr (.inl ⟨right, left⟩)
    | trans a b c _ _ first second =>
      rcases first with old | ⟨left, right⟩ | ⟨left, right⟩ <;>
        rcases second with old' | ⟨left', right'⟩ | ⟨left', right'⟩
      · exact .inl (old.trans old')
      · exact .inr (.inl ⟨old.trans left', right'⟩)
      · exact .inr (.inr ⟨old.trans left', right'⟩)
      · exact .inr (.inl ⟨left, old'.symm.trans right⟩)
      · exact .inl (left.trans ((left'.symm.trans right).trans right'.symm))
      · exact .inl (left.trans right'.symm)
      · exact .inr (.inr ⟨left, old'.symm.trans right⟩)
      · exact .inl (left.trans right'.symm)
      · exact .inl (left.trans ((left'.symm.trans right).trans right'.symm))
  · rintro (old | ⟨left, right⟩ | ⟨left, right⟩)
    · exact inner old
    · exact (inner left).trans (bridge.trans (inner right).symm)
    · exact (inner left).trans (bridge.symm.trans (inner right).symm)

end

section
variable {κ : Type*} [LinearOrder κ]

/-- Joins the classes of the two ends of an edge under the smaller of their roots. -/
def union (root : κ → κ) (edge : κ × κ) : κ → κ := fun x =>
  if root x = max (root edge.1) (root edge.2) then min (root edge.1) (root edge.2) else root x

def unions (edges : List (κ × κ)) : κ → κ := edges.foldl union id

theorem union_same (root : κ → κ) (edge : κ × κ) (x y : κ) :
    union root edge x = union root edge y ↔
      root x = root y ∨ (root x = root edge.1 ∧ root y = root edge.2) ∨
        (root x = root edge.2 ∧ root y = root edge.1) := by
  unfold union
  rcases le_total (root edge.1) (root edge.2) with le | le
  · rw [max_eq_right le, min_eq_left le]
    split <;> split <;> grind
  · rw [max_eq_left le, min_eq_right le]
    split <;> split <;> grind

theorem unions_same (edges : List (κ × κ)) (x y : κ) : unions edges x = unions edges y ↔ Connected edges x y := by
  induction edges using List.reverseRecOn generalizing x y with
  | nil =>
    constructor
    · rintro same
      obtain rfl : x = y := same
      exact .refl x
    · intro connected
      induction connected with
      | rel _ _ edge => cases edge
      | refl _ => rfl
      | symm _ _ _ ih => exact ih.symm
      | trans _ _ _ _ _ first second => exact first.trans second
  | append_singleton edges edge ih =>
    have step : unions (edges ++ [edge]) = union (unions edges) edge := by
      unfold unions
      rw [List.foldl_append, List.foldl_cons, List.foldl_nil]
    rw [step, union_same, connected_snoc, ih x y, ih x edge.1, ih x edge.2, ih y edge.1, ih y edge.2]

end

end Kassiber.Lib.UnionFind

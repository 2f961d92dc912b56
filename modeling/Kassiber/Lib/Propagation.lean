import Mathlib

/-!
Labels spread from roots over a graph by a stack of nodes to visit.
-/

namespace Lib.Propagation

variable {κ : Type*} [DecidableEq κ]

structure Spread (κ : Type*) where
  frontier : List κ
  origins : κ → Finset κ
  reached : Finset κ

def visit (roots : Finset κ) (node : κ) (s : Spread κ) (n : κ) : Spread κ :=
  if s.origins node ⊆ s.origins n then { s with reached := insert n s.reached }
  else
    { frontier := if n ∈ roots then s.frontier else n :: s.frontier
      origins := Function.update s.origins n (s.origins n ∪ s.origins node)
      reached := insert n s.reached }

def spread (next : κ → List κ) (roots : Finset κ) : Nat → Spread κ → Spread κ
  | 0, s => s
  | fuel + 1, s =>
    match s.frontier with
    | [] => s
    | node :: rest => spread next roots fuel ((next node).foldl (visit roots node) { s with frontier := rest })

def start (roots : Finset κ) (order : List κ) : Spread κ :=
  { frontier := order, origins := fun k => if k ∈ roots then {k} else ∅, reached := roots }

def Reaches (next : κ → List κ) (roots : Finset κ) (k : κ) : Prop :=
  ∃ root ∈ roots, Relation.ReflTransGen (fun a b => b ∈ next a) root k

section
variable {next : κ → List κ} {roots : Finset κ}

/-- What the stack still holds and what the labels of the nodes can still grow. -/
def potential (roots nodes : Finset κ) (s : Spread κ) : Nat :=
  s.frontier.length + ∑ k ∈ nodes, (roots.card - (s.origins k).card)

variable {s : Spread κ} {nodes : Finset κ} {node n k : κ}

theorem visit_origins_subset (inside : ∀ k, s.origins k ⊆ roots) (node n : κ) :
    ∀ k, (visit roots node s n).origins k ⊆ roots := by
  intro k
  unfold visit
  split
  · exact inside k
  · dsimp only
    by_cases same : k = n
    · subst same
      rw [Function.update_self]
      exact Finset.union_subset (inside k) (inside node)
    · rw [Function.update_of_ne same]
      exact inside k

theorem visit_potential (inside : ∀ k, s.origins k ⊆ roots)
    (known : n ∈ nodes) : potential roots nodes (visit roots node s n) ≤ potential roots nodes s := by
  unfold visit
  split
  · exact le_refl _
  · rename_i grows
    have more : (s.origins n).card < (s.origins n ∪ s.origins node).card := by
      refine Finset.card_lt_card (Finset.ssubset_iff_subset_ne.2 ⟨Finset.subset_union_left, ?_⟩)
      intro same
      exact grows (same ▸ Finset.subset_union_right)
    have bounded : (s.origins n ∪ s.origins node).card ≤ roots.card :=
      Finset.card_le_card (Finset.union_subset (inside n) (inside node))
    have others : ∑ k ∈ nodes.erase n, (roots.card -
          (Function.update s.origins n (s.origins n ∪ s.origins node) k).card) =
        ∑ k ∈ nodes.erase n, (roots.card - (s.origins k).card) := by
      refine Finset.sum_congr rfl ?_
      intro k member
      rw [Function.update_of_ne (Finset.ne_of_mem_erase member)]
    unfold potential
    rw [← Finset.add_sum_erase _ _ known, ← Finset.add_sum_erase _ _ known, others]
    dsimp only
    rw [Function.update_self]
    split
    · omega
    · rw [List.length_cons]
      omega

variable {ns order : List κ} {fuel : Nat}

theorem visits_potential (known : ∀ n ∈ ns, n ∈ nodes) (inside : ∀ k, s.origins k ⊆ roots) :
    potential roots nodes (ns.foldl (visit roots node) s) ≤ potential roots nodes s ∧
      ∀ k, (ns.foldl (visit roots node) s).origins k ⊆ roots := by
  induction ns generalizing s with
  | nil => exact ⟨le_refl _, inside⟩
  | cons n rest ih =>
    obtain ⟨lower, kept⟩ := ih (fun m member => known m (.tail _ member)) (visit_origins_subset inside node n)
    exact ⟨le_trans lower (visit_potential inside (known n (.head _))), kept⟩

theorem spread_done (known : ∀ k, ∀ n ∈ next k, n ∈ nodes)
    (inside : ∀ k, s.origins k ⊆ roots) (enough : potential roots nodes s ≤ fuel) :
    (spread next roots fuel s).frontier = [] := by
  induction fuel generalizing s with
  | zero =>
    unfold potential at enough
    show s.frontier = []
    exact List.length_eq_zero_iff.1 (by omega)
  | succ fuel ih =>
    unfold spread
    split
    · assumption
    · rename_i node rest top
      obtain ⟨lower, kept⟩ := visits_potential (known node) (s := { s with frontier := rest }) inside
      refine ih kept ?_
      unfold potential at enough lower ⊢
      rw [top, List.length_cons] at enough
      dsimp only at lower
      omega

/-- Between two visits: labelled nodes are the reached ones, all of them by edges from roots, and only the stack
and `pending` may still have neighbours to reach. -/
structure Sound (next : κ → List κ) (roots : Finset κ) (pending : κ → Prop) (s : Spread κ) : Prop where
  rooted : roots ⊆ s.reached
  labelled : ∀ k, k ∈ s.reached ↔ (s.origins k).Nonempty
  justified : ∀ k ∈ s.reached, Reaches next roots k
  stacked : ∀ k ∈ s.frontier, k ∈ s.reached
  closed : ∀ k ∈ s.reached, pending k ∨ k ∈ s.frontier ∨ ∀ n ∈ next k, n ∈ s.reached

theorem visit_reached (roots : Finset κ) (node : κ) (s : Spread κ) (n : κ) :
    (visit roots node s n).reached = insert n s.reached := by
  unfold visit
  split <;> rfl

theorem visit_stacked (stacked : ∀ k ∈ s.frontier, k ∈ s.reached) :
    ∀ k ∈ (visit roots node s n).frontier, k ∈ (visit roots node s n).reached := by
  intro k member
  rw [visit_reached]
  unfold visit at member
  split at member
  · exact Finset.mem_insert_of_mem (stacked k member)
  · dsimp only at member
    split at member
    · exact Finset.mem_insert_of_mem (stacked k member)
    · rcases List.mem_cons.1 member with rfl | old
      · exact Finset.mem_insert_self _ _
      · exact Finset.mem_insert_of_mem (stacked k old)

theorem mem_visit_frontier (member : k ∈ s.frontier) :
    k ∈ (visit roots node s n).frontier := by
  unfold visit
  split
  · exact member
  · dsimp only
    split
    · exact member
    · exact .tail _ member

theorem visit_sound {pending : κ → Prop} (sound : Sound next roots pending s)
    (taken : node ∈ s.reached) (edge : n ∈ next node) : Sound next roots pending (visit roots node s n) := by
  refine ⟨?_, ?_, ?_, visit_stacked sound.stacked, ?_⟩
  · rw [visit_reached]
    exact sound.rooted.trans (Finset.subset_insert _ _)
  · intro k
    have label := (sound.labelled node).1 taken
    rw [visit_reached, Finset.mem_insert, sound.labelled k]
    unfold visit
    split
    · rename_i held
      constructor
      · rintro (rfl | old)
        · exact label.mono held
        · exact old
      · exact Or.inr
    · by_cases same : k = n
      · subst same
        simp only [Function.update_self, true_or, true_iff]
        exact label.mono Finset.subset_union_right
      · simp [same]
  · intro k member
    rw [visit_reached, Finset.mem_insert] at member
    rcases member with rfl | old
    · obtain ⟨root, rooted, path⟩ := sound.justified node taken
      exact ⟨root, rooted, path.tail edge⟩
    · exact sound.justified k old
  · intro k member
    rw [visit_reached] at member ⊢
    by_cases old : k ∈ s.reached
    · rcases sound.closed k old with waits | stacked | done
      · exact .inl waits
      · exact .inr (.inl (mem_visit_frontier stacked))
      · exact .inr (.inr fun m edge => Finset.mem_insert_of_mem (done m edge))
    · -- A node reached for the first time had no label, so it goes on the stack.
      have same : k = n := (Finset.mem_insert.1 member).resolve_right old
      subst same
      have bare : ¬(s.origins k).Nonempty := fun label => old ((sound.labelled k).2 label)
      have grows : ¬s.origins node ⊆ s.origins k := fun held => bare (((sound.labelled node).1 taken).mono held)
      have plain : k ∉ roots := fun rooted => old (sound.rooted rooted)
      refine .inr (Or.inl ?_)
      unfold visit
      rw [if_neg grows]
      simp [plain]

theorem visits_sound {pending : κ → Prop} (edges : ∀ n ∈ ns, n ∈ next node)
    (sound : Sound next roots pending s) (taken : node ∈ s.reached) :
    Sound next roots pending (ns.foldl (visit roots node) s) ∧
      (∀ k ∈ s.reached, k ∈ (ns.foldl (visit roots node) s).reached) ∧
      ∀ n ∈ ns, n ∈ (ns.foldl (visit roots node) s).reached := by
  induction ns generalizing s with
  | nil => exact ⟨sound, fun _ member => member, by simp⟩
  | cons n rest ih =>
    have grown : ∀ k ∈ s.reached, k ∈ (visit roots node s n).reached := by
      intro k member
      rw [visit_reached]
      exact Finset.mem_insert_of_mem member
    obtain ⟨after, kept, reached⟩ := ih (fun m member => edges m (.tail _ member))
      (visit_sound sound taken (edges n (.head _))) (grown node taken)
    refine ⟨after, fun k member => kept k (grown k member), ?_⟩
    intro m member
    rcases List.mem_cons.1 member with rfl | later
    · exact kept m (by rw [visit_reached]; exact Finset.mem_insert_self _ _)
    · exact reached m later

theorem spread_sound (sound : Sound next roots (fun _ => False) s) :
    Sound next roots (fun _ => False) (spread next roots fuel s) := by
  induction fuel generalizing s with
  | zero => exact sound
  | succ fuel ih =>
    unfold spread
    split
    · exact sound
    · rename_i node rest top
      have taken : node ∈ s.reached := sound.stacked node (by rw [top]; exact List.mem_cons_self)
      have popped : Sound next roots (· = node) { s with frontier := rest } := by
        refine ⟨sound.rooted, sound.labelled, sound.justified, ?_, ?_⟩
        · intro k later
          exact sound.stacked k (by rw [top]; exact List.mem_cons_of_mem _ later)
        intro k member
        rcases sound.closed k member with never | inside | done
        · exact never.elim
        · rw [top] at inside
          rcases List.mem_cons.1 inside with same | later
          · exact .inl same
          · exact .inr (.inl later)
        · exact .inr (.inr done)
      obtain ⟨after, -, reached⟩ := visits_sound (fun n edge => edge) popped taken
      refine ih ⟨after.rooted, after.labelled, after.justified, after.stacked, ?_⟩
      intro k member
      rcases after.closed k member with rfl | rest
      · exact .inr (.inr reached)
      · exact .inr rest

theorem start_sound (listed : ∀ k, k ∈ order ↔ k ∈ roots) :
    Sound next roots (fun _ => False) (start roots order) := by
  refine ⟨Finset.Subset.refl _, ?_, ?_, fun k member => (listed k).1 member, ?_⟩
  · intro k
    by_cases rooted : k ∈ roots <;> simp [start, rooted]
  · intro k rooted
    exact ⟨k, rooted, Relation.ReflTransGen.refl⟩
  · intro k rooted
    exact .inr (.inl ((listed k).2 rooted))

theorem start_done (known : ∀ k, ∀ n ∈ next k, n ∈ nodes)
    (enough : order.length + nodes.card * roots.card ≤ fuel) :
    (spread next roots fuel (start roots order)).frontier = [] := by
  have inside : ∀ k, (start roots order).origins k ⊆ roots := by
    intro k
    by_cases member : k ∈ roots <;> simp [start, member]
  refine spread_done known inside (le_trans (Nat.add_le_add_left ?_ _) enough)
  calc ∑ k ∈ nodes, (roots.card - ((start roots order).origins k).card)
      ≤ ∑ _k ∈ nodes, roots.card := Finset.sum_le_sum fun _ _ => Nat.sub_le _ _
    _ = nodes.card * roots.card := by rw [Finset.sum_const, smul_eq_mul]

theorem mem_spread_reached (known : ∀ k, ∀ n ∈ next k, n ∈ nodes)
    (listed : ∀ k, k ∈ order ↔ k ∈ roots) (enough : order.length + nodes.card * roots.card ≤ fuel)
    : k ∈ (spread next roots fuel (start roots order)).reached ↔ Reaches next roots k := by
  have sound : Sound next roots (fun _ => False) (spread next roots fuel (start roots order)) :=
    spread_sound (start_sound listed)
  constructor
  · exact sound.justified k
  · rintro ⟨root, rooted, path⟩
    have empty := start_done known enough
    induction path with
    | refl => exact sound.rooted rooted
    | tail _ edge ih =>
      rcases sound.closed _ ih with never | stacked | done
      · exact never.elim
      · rw [empty] at stacked
        cases stacked
      · exact done _ edge

end

end Lib.Propagation

import Kassiber.Lib.Propagation

/-!
Which labels a spread ends with, whatever the order in which the roots are stacked and the neighbours of a node
are visited.
-/

namespace Lib.Propagation
open List

variable {κ : Type*} [DecidableEq κ] {next : κ → List κ} {roots : Finset κ}

/-- Taking a node adds its labels to each neighbour and stacks the neighbours that grow, roots apart. -/
structure Taken (roots : Finset κ) (ns : List κ) (labels : Finset κ) (s t : Spread κ) : Prop where
  origins : ∀ k, t.origins k = if k ∈ ns then s.origins k ∪ labels else s.origins k
  frontier : ∃ pushed, t.frontier = pushed ++ s.frontier ∧ (∀ k ∈ pushed, k ∈ ns ∧ k ∉ roots) ∧
    ∀ k ∈ ns, k ∉ roots → ¬labels ⊆ s.origins k → k ∈ pushed

theorem visit_taken (node n : κ) (s : Spread κ) : Taken roots [n] (s.origins node) s (visit roots node s n) := by
  unfold visit
  split
  · rename_i held
    refine ⟨fun k => ?_, [], rfl, by simp, fun k member _ grows => ?_⟩
    · by_cases same : k = n
      · subst same
        simp [Finset.union_eq_left.2 held]
      · simp [same]
    · exact absurd (mem_singleton.1 member ▸ held) grows
  · refine ⟨fun k => ?_, if n ∈ roots then [] else [n], ?_, ?_, ?_⟩
    · by_cases same : k = n
      · subst same
        simp
      · simp [same]
    · dsimp only
      split <;> rfl
    · intro k member
      split at member
      · cases member
      · rename_i plain
        rw [mem_singleton] at member
        subst member
        exact ⟨mem_singleton_self _, plain⟩
    · intro k member plain _
      rw [mem_singleton] at member
      subst member
      rw [if_neg plain]
      exact mem_singleton_self _

variable {ns rest order : List κ} {s t : Spread κ} {n node root k label u : κ} {labels : Finset κ} {fuel : Nat}

theorem Taken.trans {ms : List κ} {r : Spread κ} (first : Taken roots ns labels s t)
    (second : Taken roots ms labels t r) : Taken roots (ns ++ ms) labels s r := by
  obtain ⟨pushed, stacked, fresh, grown⟩ := first.frontier
  obtain ⟨pushed', stacked', fresh', grown'⟩ := second.frontier
  refine ⟨fun k => ?_, pushed' ++ pushed, ?_, ?_, ?_⟩
  · rw [second.origins, first.origins]
    by_cases left : k ∈ ns <;> by_cases right : k ∈ ms <;> simp [left, right, Finset.union_assoc]
  · rw [stacked', stacked, List.append_assoc]
  · intro k member
    rcases mem_append.1 member with late | early
    · exact ⟨mem_append_right _ (fresh' k late).1, (fresh' k late).2⟩
    · exact ⟨mem_append_left _ (fresh k early).1, (fresh k early).2⟩
  · intro k member plain grows
    by_cases left : k ∈ ns
    · exact mem_append_right _ (grown k left plain grows)
    · have right := (mem_append.1 member).resolve_left left
      refine mem_append_left _ (grown' k right plain ?_)
      rw [first.origins, if_neg left]
      exact grows

theorem visits_taken (node : κ) (ns : List κ) (s : Spread κ) :
    Taken roots ns (s.origins node) s (ns.foldl (visit roots node) s) := by
  induction ns generalizing s with
  | nil => exact ⟨fun k => by simp, [], rfl, by simp, by simp⟩
  | cons n rest ih =>
    have first := @visit_taken _ _ roots node n s
    have kept : (visit roots node s n).origins node = s.origins node := by
      rw [first.origins]
      split
      · exact Finset.union_self _
      · rfl
    have later := ih (visit roots node s n)
    rw [kept] at later
    exact first.trans later

theorem Taken.mono (taken : Taken roots ns labels s t) (k : κ) :
    s.origins k ⊆ t.origins k := by
  rw [taken.origins]
  split
  · exact Finset.subset_union_left
  · exact Finset.Subset.refl _

theorem Taken.passed (taken : Taken roots ns labels s t) (member : n ∈ ns) : labels ⊆ t.origins n := by
  rw [taken.origins, if_pos member]
  exact Finset.subset_union_right

theorem spread_invariant (inv : Spread κ → Prop)
    (step : ∀ s node rest t, s.frontier = node :: rest →
      Taken roots (next node) (s.origins node) { s with frontier := rest } t → inv s → inv t)
    (initial : inv s) : inv (spread next roots fuel s) := by
  induction fuel generalizing s with
  | zero => exact initial
  | succ fuel ih =>
    unfold spread
    split
    · exact initial
    · rename_i node rest top
      exact ih (step s node rest _ top (visits_taken node (next node) { s with frontier := rest }) initial)

def FreePath (next : κ → List κ) (roots : Finset κ) : κ → κ → Prop :=
  Relation.ReflTransGen fun a b => a ∉ roots ∧ b ∈ next a

def Passes (next : κ → List κ) (roots : Finset κ) (root k : κ) : Prop := ∃ n ∈ next root, FreePath next roots n k

def Connected (next : κ → List κ) : κ → κ → Prop := Relation.ReflTransGen fun a b => b ∈ next a

/-- Every node but the roots that is off the stack has passed its labels on. -/
def Settled (next : κ → List κ) (roots : Finset κ) (s : Spread κ) : Prop :=
  ∀ v ∉ roots, v ∈ s.frontier ∨ ∀ n ∈ next v, s.origins v ⊆ s.origins n

theorem settled_step (top : s.frontier = node :: rest)
    (taken : Taken roots (next node) (s.origins node) { s with frontier := rest } t)
    (settled : Settled next roots s) : Settled next roots t := by
  obtain ⟨pushed, stacked, -, grown⟩ := taken.frontier
  intro v plain
  by_cases grows : v ∈ next node ∧ ¬s.origins node ⊆ s.origins v
  · left
    rw [stacked]
    exact mem_append_left _ (grown v grows.1 plain grows.2)
  · have same : t.origins v = s.origins v := by
      rw [taken.origins]
      split
      · rename_i member
        exact Finset.union_eq_left.2 (not_not.1 fun fails => grows ⟨member, fails⟩)
      · rfl
    by_cases own : v = node
    · subst own
      right
      intro n member
      rw [same]
      exact taken.passed member
    · rcases settled v plain with stackedBefore | passed
      · left
        rw [top] at stackedBefore
        rw [stacked]
        exact mem_append_right _ ((mem_cons.1 stackedBefore).resolve_left own)
      · right
        intro n member
        rw [same]
        exact (passed n member).trans (taken.mono n)

theorem start_settled : Settled next roots (start roots order) := by
  intro v plain
  right
  intro n _
  simp [start, plain]

omit [DecidableEq κ] in
theorem Settled.flows (settled : Settled next roots s) (empty : ∀ v ∈ s.frontier, v ∈ roots) {a b : κ}
    (path : FreePath next roots a b) : s.origins a ⊆ s.origins b := by
  induction path with
  | refl => exact Finset.Subset.refl _
  | tail _ edge ih =>
    refine ih.trans ?_
    exact (settled _ edge.1).resolve_left (fun stacked => edge.1 (empty _ stacked)) _ edge.2

def RootPasses (root n : κ) (s : Spread κ) : Prop := root ∈ s.origins root ∧ (root ∈ s.frontier ∨ root ∈ s.origins n)

theorem roots_pass (listed : ∀ k, k ∈ order ↔ k ∈ roots)
    (done : (spread next roots fuel (start roots order)).frontier = []) (rooted : root ∈ roots)
    (edge : n ∈ next root) : root ∈ (spread next roots fuel (start roots order)).origins n := by
  have run : RootPasses root n (spread next roots fuel (start roots order)) := by
    refine spread_invariant (RootPasses root n) ?_ ⟨by simp [start, rooted], .inl ((listed root).2 rooted)⟩
    rintro s node rest t top taken ⟨own, waits⟩
    obtain ⟨pushed, stacked, -, -⟩ := taken.frontier
    refine ⟨taken.mono root own, ?_⟩
    rcases waits with inside | passed
    · rw [top] at inside
      rcases mem_cons.1 inside with rfl | later
      · exact .inr (taken.passed edge own)
      · left
        rw [stacked]
        exact mem_append_right _ later
    · exact .inr (taken.mono n passed)
  refine run.2.resolve_left ?_
  rw [done]
  exact not_mem_nil

def LabelsConnected (next : κ → List κ) (roots : Finset κ) (s : Spread κ) : Prop :=
  ∀ k, ∀ label ∈ s.origins k, label ∈ roots ∧ Connected next label k

theorem labels_connected (held : label ∈ (spread next roots fuel (start roots order)).origins k) :
    label ∈ roots ∧ Connected next label k := by
  have run : LabelsConnected next roots (spread next roots fuel (start roots order)) := by
    refine spread_invariant (LabelsConnected next roots) ?_ ?_
    · intro s node rest t _ taken sound k label member
      rw [taken.origins] at member
      split at member
      · rename_i edge
        rcases Finset.mem_union.1 member with old | new
        · exact sound k label old
        · exact ⟨(sound node label new).1, (sound node label new).2.tail edge⟩
      · exact sound k label member
    · intro k label member
      by_cases rooted : k ∈ roots
      · have same : label = k := by simpa [start, rooted] using member
        subst same
        exact ⟨rooted, .refl⟩
      · simp [start, rooted] at member
  exact run k label held

theorem passes_labels (listed : ∀ k, k ∈ order ↔ k ∈ roots)
    (done : (spread next roots fuel (start roots order)).frontier = []) (rooted : root ∈ roots)
    (passes : Passes next roots root k) : root ∈ (spread next roots fuel (start roots order)).origins k := by
  obtain ⟨n, edge, path⟩ := passes
  have settled : Settled next roots (spread next roots fuel (start roots order)) :=
    spread_invariant _ (fun _ _ _ _ top taken => settled_step top taken) start_settled
  refine settled.flows ?_ path (roots_pass listed done rooted edge)
  rw [done]
  exact fun _ member => absurd member not_mem_nil

/-- While the roots with a free path are taken, no other label moves. -/
def Gathering (next : κ → List κ) (roots : Finset κ) (u : κ) (rest : List κ) (s : Spread κ) : Prop :=
  ∃ top, s.frontier = top ++ rest ∧ (∀ k ∈ top, k ∈ roots → Passes next roots k u) ∧
    ∀ k, ∀ label ∈ s.origins k, k = label ∧ k ∈ roots ∨ Passes next roots label u

/-- Nothing that leads to the node is stacked, and the labels on the way to it stay as they are. -/
def Apart (next : κ → List κ) (roots : Finset κ) (u : κ) (s : Spread κ) : Prop :=
  (∀ k ∈ s.frontier, ¬Passes next roots k u ∧ (k ∉ roots → ¬FreePath next roots k u)) ∧
    ∀ k ∉ roots, FreePath next roots k u → ∀ label ∈ s.origins k, Passes next roots label u

theorem Apart.step {stack : List κ} (apart : Apart next roots u s) (top : s.frontier = node :: stack)
    (taken : Taken roots (next node) (s.origins node) { s with frontier := stack } t) : Apart next roots u t := by
  obtain ⟨away, inside⟩ := apart
  obtain ⟨pushed, stacked, fresh, -⟩ := taken.frontier
  have own := away node (by rw [top]; exact mem_cons_self)
  have none : ∀ n ∈ next node, ¬FreePath next roots n u := fun n edge path => own.1 ⟨n, edge, path⟩
  refine ⟨fun k member => ?_, fun k free path label member => ?_⟩
  · rw [stacked] at member
    rcases mem_append.1 member with new | old
    · obtain ⟨edge, free⟩ := fresh k new
      refine ⟨?_, fun _ => none k edge⟩
      rintro ⟨n, step, path⟩
      exact none k edge (.head ⟨free, step⟩ path)
    · exact away k (by rw [top]; exact mem_cons_of_mem _ old)
  · rw [taken.origins] at member
    split at member
    · rename_i edge
      exact absurd path (none k edge)
    · exact inside k free path label member

theorem only_passing {above : List κ} (plain : u ∉ roots)
    (first : ∀ k ∈ above, k ∈ roots ∧ Passes next roots k u) (later : ∀ k ∈ rest, k ∈ roots ∧ ¬Passes next roots k u)
    (held : label ∈ (spread next roots fuel (start roots (above ++ rest))).origins u) :
    Passes next roots label u := by
  -- First only passing labels move; once their roots are taken, nothing that leads to `u` is stacked.
  have run : Gathering next roots u rest (spread next roots fuel (start roots (above ++ rest))) ∨
      Apart next roots u (spread next roots fuel (start roots (above ++ rest))) := by
    refine spread_invariant (fun s => Gathering next roots u rest s ∨ Apart next roots u s) ?_ (.inl ?_)
    · rintro s node stack t top taken (⟨upper, split, passing, labels⟩ | apart)
      · cases upper with
        | nil =>
          refine .inr (Apart.step ⟨fun k member => ?_, fun k free _ label member => ?_⟩ top taken)
          · rw [split, nil_append] at member
            exact ⟨(later k member).2, fun free => absurd (later k member).1 free⟩
          · exact (labels k label member).resolve_left fun own => free own.2
        | cons other upper =>
          obtain ⟨pushed, stacked, fresh, -⟩ := taken.frontier
          rw [split, cons_append] at top
          obtain ⟨rfl, rfl⟩ := List.cons.inj top
          refine .inl ⟨pushed ++ upper, by rw [stacked, List.append_assoc], ?_, ?_⟩
          · intro k member rooted
            rcases mem_append.1 member with new | old
            · exact absurd rooted (fresh k new).2
            · exact passing k (.tail _ old) rooted
          · intro k label member
            rw [taken.origins] at member
            split at member
            · rcases Finset.mem_union.1 member with old | new
              · exact labels k label old
              · right
                rcases labels other label new with ⟨rfl, rooted⟩ | passes
                · exact passing other (.head _) rooted
                · exact passes
            · exact labels k label member
      · exact .inr (apart.step top taken)
    · refine ⟨above, rfl, fun k member _ => (first k member).2, fun k label member => ?_⟩
      by_cases rooted : k ∈ roots
      · have same : label = k := by simpa [start, rooted] using member
        exact .inl ⟨same.symm, rooted⟩
      · simp [start, rooted] at member
  rcases run with ⟨-, -, -, labels⟩ | ⟨-, inside⟩
  · exact (labels u label held).resolve_left fun own => plain own.2
  · exact inside u plain .refl label held

/-- The last root waits below the first one's label, or has passed it on. -/
def Through (next : κ → List κ) (first last : κ) (s : Spread κ) : Prop :=
  (∃ above, s.frontier = above ++ [last] ∧ last ∉ above ∧
    (first ∈ above ∨ ∀ n ∈ next first, first ∈ s.origins n)) ∨ ∀ n ∈ next last, first ∈ s.origins n

theorem passes_through {first last : κ} {middle : List κ} (different : first ≠ last)
    (listed : ∀ k, k ∈ first :: (middle ++ [last]) ↔ k ∈ roots) (rooted : ∀ k ∈ middle, k ≠ last)
    (into : Passes next roots first last) (onward : Passes next roots last u)
    (done : (spread next roots fuel (start roots (first :: (middle ++ [last])))).frontier = []) :
    first ∈ (spread next roots fuel (start roots (first :: (middle ++ [last])))).origins u := by
  have firstRoot : first ∈ roots := (listed first).1 (.head _)
  have lastRoot : last ∈ roots := (listed last).1 (by simp)
  have run : (fun s => Settled next roots s ∧ first ∈ s.origins first ∧ Through next first last s)
      (spread next roots fuel (start roots (first :: (middle ++ [last])))) := by
    refine spread_invariant (fun s => Settled next roots s ∧ first ∈ s.origins first ∧ Through next first last s) ?_
      ⟨start_settled, by simp [start, firstRoot], .inl ⟨first :: middle, rfl, ?_, by simp⟩⟩
    · rintro s node stack t top taken ⟨settled, own, phase⟩
      refine ⟨settled_step top taken settled, taken.mono first own, ?_⟩
      obtain ⟨pushed, stacked, fresh, -⟩ := taken.frontier
      rcases phase with ⟨above, split, absent, waits⟩ | passed
      · cases above with
        | nil =>
          -- The last root is taken with nothing else on the stack, so the first label has reached it.
          have passed := waits.resolve_left not_mem_nil
          obtain ⟨n, edge, path⟩ := into
          have bottom : ∀ v ∈ s.frontier, v ∈ roots := by
            intro v member
            rw [split, nil_append, mem_singleton] at member
            exact member ▸ lastRoot
          have arrived := settled.flows bottom path (passed n edge)
          rw [split, nil_append] at top
          obtain ⟨rfl, rfl⟩ := List.cons.inj top
          exact .inr fun n edge => taken.passed edge arrived
        | cons other above =>
          rw [split, cons_append] at top
          obtain ⟨rfl, rfl⟩ := List.cons.inj top
          refine .inl ⟨pushed ++ above, by rw [stacked, List.append_assoc], ?_, ?_⟩
          · intro member
            rcases mem_append.1 member with new | old
            · exact (fresh last new).2 lastRoot
            · exact absent (.tail _ old)
          · rcases waits with inside | passed
            · rcases mem_cons.1 inside with rfl | waiting
              · exact .inr fun n edge => taken.passed edge own
              · exact .inl (mem_append_right _ waiting)
            · exact .inr fun n edge => taken.mono n (passed n edge)
      · exact .inr fun n edge => taken.mono n (passed n edge)
    · intro member
      rcases mem_cons.1 member with same | inside
      · exact different same.symm
      · exact rooted last inside rfl
  obtain ⟨settled, -, phase⟩ := run
  obtain ⟨n, edge, path⟩ := onward
  have passed : ∀ n ∈ next last, first ∈ (spread next roots fuel
      (start roots (first :: (middle ++ [last])))).origins n := by
    refine phase.resolve_left ?_
    rintro ⟨above, stacked, -⟩
    rw [done] at stacked
    simp at stacked
  refine settled.flows ?_ path (passed n edge)
  rw [done]
  exact fun _ member => absurd member not_mem_nil

/-- On the way from a root without a free path there are two roots, one without and one with, and a free path
between them. -/
theorem shadowing_pair {c : κ} (plain : u ∉ roots) (rooted : c ∈ roots) (connected : Connected next c u)
    (shadowed : ¬Passes next roots c u) :
    ∃ first ∈ roots, ∃ last ∈ roots, ¬Passes next roots first u ∧ Passes next roots last u ∧
      Passes next roots first last := by
  by_contra none
  have unpaired : ∀ first ∈ roots, ∀ last ∈ roots, Passes next roots last u → Passes next roots first last →
      Passes next roots first u := by
    intro first isRoot last isRoot' onward into
    by_contra missing
    exact none ⟨first, isRoot, last, isRoot', missing, onward, into⟩
  have walk : ∀ v, Connected next v u → (v ∈ roots → Passes next roots v u) ∧
      (v ∉ roots → FreePath next roots v u ∨ ∃ last ∈ roots, Passes next roots last u ∧ FreePath next roots v last) := by
    intro v path
    induction path using Relation.ReflTransGen.head_induction_on with
    | refl => exact ⟨fun isRoot => absurd isRoot plain, fun _ => .inl .refl⟩
    | @head v w edge _ ih =>
      by_cases next' : w ∈ roots
      · have passes := ih.1 next'
        refine ⟨fun isRoot => unpaired v isRoot w next' passes ⟨w, edge, .refl⟩, fun free => ?_⟩
        exact .inr ⟨w, next', passes, .single ⟨free, edge⟩⟩
      · rcases ih.2 next' with path | ⟨last, isRoot', passes, path⟩
        · exact ⟨fun _ => ⟨w, edge, path⟩, fun free => .inl (.head ⟨free, edge⟩ path)⟩
        · refine ⟨fun isRoot => unpaired v isRoot last isRoot' passes ⟨w, edge, path⟩, fun free => ?_⟩
          exact .inr ⟨last, isRoot', passes, .head ⟨free, edge⟩ path⟩
  exact shadowed ((walk c connected).1 rooted)

end Lib.Propagation

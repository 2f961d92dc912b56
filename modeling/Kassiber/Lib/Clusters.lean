import Mathlib

/-!
A left-to-right sweep that collects ranges into clusters: a range joins the open cluster while it starts before
the furthest end seen in it.
-/

namespace Lib.Clusters
open List

variable {α κ : Type*} [LinearOrder κ] (lo hi : α → κ) (bottom : κ)

/-- The clusters of `items`, given the open cluster and the furthest end in it. -/
def sweep : List α → κ → List α → List (List α)
  | cluster, _, [] => [cluster]
  | cluster, reach, x :: rest =>
    if cluster ≠ [] ∧ reach ≤ lo x then cluster :: sweep [x] (max bottom (hi x)) rest
    else sweep (cluster ++ [x]) (max (if cluster = [] then bottom else reach) (hi x)) rest

/-- The clusters of `items`, which come in order of their starts. -/
def clusters (items : List α) : List (List α) := sweep lo hi bottom [] bottom items

variable {lo hi bottom}

theorem sweep_flatten (cluster : List α) (reach : κ) (items : List α) :
    (sweep lo hi bottom cluster reach items).flatten = cluster ++ items := by
  induction items generalizing cluster reach with
  | nil => simp [sweep]
  | cons x rest ih =>
    unfold sweep
    split
    · rw [flatten_cons, ih]
      rfl
    · rw [ih]
      simp

/-- What the sweep keeps: the open cluster ends by `reach` and starts before everything to come. -/
def Open (lo hi : α → κ) (cluster : List α) (reach : κ) (items : List α) : Prop :=
  (∀ x ∈ cluster, hi x ≤ reach) ∧ (cluster ++ items).Pairwise (lo · ≤ lo ·)

variable {cluster rest items : List α}

theorem open_extend {reach : κ} {x : α} (state : Open lo hi cluster reach (x :: rest)) :
    Open lo hi (cluster ++ [x]) (max (if cluster = [] then bottom else reach) (hi x)) rest := by
  obtain ⟨bounded, ordered⟩ := state
  refine ⟨?_, by simpa using ordered⟩
  intro y member
  rcases mem_append.1 member with old | new
  · have nonempty : cluster ≠ [] := ne_nil_of_mem old
    rw [if_neg nonempty]
    exact le_trans (bounded y old) (le_max_left _ _)
  · have same : y = x := by simpa using new
    subst same
    exact le_max_right _ _

theorem open_restart {reach : κ} {x : α}
    (state : Open lo hi cluster reach (x :: rest)) : Open lo hi [x] (max bottom (hi x)) rest :=
  ⟨by simp, (pairwise_append.1 state.2).2.1⟩

theorem sweep_separated {reach : κ} (state : Open lo hi cluster reach items) :
    (sweep lo hi bottom cluster reach items).Pairwise fun c d => ∀ x ∈ c, ∀ y ∈ d, hi x ≤ lo y := by
  induction items generalizing cluster reach with
  | nil => simp [sweep]
  | cons x rest ih =>
    unfold sweep
    split
    · rename_i flush
      refine pairwise_cons.2 ⟨?_, ih (open_restart state)⟩
      intro d member y old z new
      have later : z ∈ x :: rest := by
        have inside := mem_flatten.2 ⟨d, member, new⟩
        rwa [sweep_flatten] at inside
      have start : lo x ≤ lo z := by
        rcases mem_cons.1 later with rfl | beyond
        · exact le_rfl
        · exact (pairwise_cons.1 (pairwise_append.1 state.2).2.1).1 z beyond
      exact le_trans (state.1 y old) (le_trans flush.2 start)
    · exact ih (open_extend state)

variable (lo hi bottom) in
theorem clusters_flatten (items : List α) : (clusters lo hi bottom items).flatten = items := by
  rw [clusters, sweep_flatten]
  rfl

variable (hi bottom) in
theorem overlapping_share_cluster (ordered : items.Pairwise (lo · ≤ lo ·)) {x y : α}
    (hx : x ∈ items) (hy : y ∈ items) (xy : lo x < hi y) (yx : lo y < hi x) :
    ∃ c ∈ clusters lo hi bottom items, x ∈ c ∧ y ∈ c := by
  have separated : (clusters lo hi bottom items).Pairwise fun c d => ∀ x ∈ c, ∀ y ∈ d, hi x ≤ lo y :=
    sweep_separated ⟨by simp, by simpa using ordered⟩
  rw [← clusters_flatten lo hi bottom items] at hx hy
  obtain ⟨c, hc, xc⟩ := mem_flatten.1 hx
  obtain ⟨d, hd, yd⟩ := mem_flatten.1 hy
  obtain ⟨i, hi', rfl⟩ := getElem_of_mem hc
  obtain ⟨j, hj, rfl⟩ := getElem_of_mem hd
  rcases Nat.lt_trichotomy i j with before | same | after
  · exact absurd (pairwise_iff_getElem.1 separated i j hi' hj before x xc y yd) (not_le.2 yx)
  · subst same
    exact ⟨_, hc, xc, yd⟩
  · exact absurd (pairwise_iff_getElem.1 separated j i hj hi' after y yd x xc) (not_le.2 xy)

end Lib.Clusters

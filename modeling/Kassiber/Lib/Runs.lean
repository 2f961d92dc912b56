import Mathlib

/-!
Runs of a system that takes one labelled step after another, and the rules that carry a fact about
one step to a whole run.
-/

namespace Lib.Runs
variable {σ α : Type*}

/-- The runs of a step relation, with the labels of their steps in order. -/
inductive Run (step : σ → α → σ → Prop) : σ → List α → σ → Prop where
  | rest (s : σ) : Run step s [] s
  | next {s middle t : σ} {a : α} {later : List α} : step s a middle → Run step middle later t → Run step s (a :: later) t

variable {step step' : σ → α → σ → Prop} {s t : σ} {labels : List α}

theorem Run.weaken (wider : ∀ s a t, step s a t → step' s a t) (run : Run step s labels t) : Run step' s labels t := by
  induction run with
  | rest => exact .rest _
  | next taken _ ih => exact .next (wider _ _ _ taken) ih

theorem Run.append {middle : σ} {later : List α} (run : Run step s labels middle) (rest : Run step middle later t) :
    Run step s (labels ++ later) t := by
  induction run with
  | rest => exact rest
  | next taken _ ih => exact .next taken (ih rest)

theorem Run.snoc {middle : σ} {a : α} (run : Run step s labels middle) (taken : step middle a t) :
    Run step s (labels ++ [a]) t :=
  run.append (.next taken (.rest t))

theorem Run.history {I : List α → σ → Prop} (start : I [] s)
    (keeps : ∀ past middle a t, Run step s past middle → I past middle → step middle a t → I (past ++ [a]) t)
    (run : Run step s labels t) : I labels t := by
  have onward : ∀ {middle t labels}, Run step middle labels t → ∀ {past}, Run step s past middle → I past middle → I (past ++ labels) t := by
    intro middle t labels run
    induction run with
    | rest => exact fun _ holds => by rwa [List.append_nil]
    | next taken _ ih =>
      intro past before holds
      have later := ih (before.snoc taken) (keeps past _ _ _ before holds taken)
      rwa [List.append_assoc] at later
  exact onward run (.rest s) start

structure Transition (σ α : Type*) where
  before : σ
  label : α
  after : σ

def Recorded (step : σ → α → σ → Prop) (s : σ) (e : Transition σ α) (t : σ) : Prop :=
  e.before = s ∧ e.after = t ∧ step s e.label t

theorem Run.recorded (run : Run step s labels t) : ∃ past, Run
    (Recorded step) s past t ∧ past.map Transition.label = labels := by
  induction run with
  | rest s => exact ⟨[], .rest s, rfl⟩
  | @next s middle t a later taken _ ih =>
    obtain ⟨past, run, same⟩ := ih
    exact ⟨⟨s, a, middle⟩ :: past, .next ⟨rfl, rfl, taken⟩ run, congrArg (a :: ·) same⟩

theorem Run.invariant {I : σ → Prop} (keeps : ∀ s a t, I s → step s a t → I t)
    (run : Run step s labels t) (start : I s) : I t := by
  induction run with
  | rest => exact start
  | next taken _ ih => exact ih (keeps _ _ _ start taken)

end Lib.Runs

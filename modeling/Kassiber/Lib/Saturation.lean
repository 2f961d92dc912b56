import Mathlib

/-!
A loop that grows its state until nothing more can be added.
-/

namespace Lib.Saturation

variable {σ : Type*} {grow : σ → Option σ}

/-- Grow the state as long as it can grow; none where the rounds do not suffice. -/
def saturate (grow : σ → Option σ) : Nat → σ → Option σ
  | 0, _ => none
  | rounds + 1, s =>
    match grow s with
    | none => some s
    | some larger => saturate grow rounds larger

theorem exists_saturate {Valid : σ → Prop} (keeps : ∀ s larger, Valid s → grow s = some larger → Valid larger)
    {measure : σ → Nat} (falls : ∀ s larger, Valid s → grow s = some larger → measure larger < measure s)
    {rounds : Nat} {s : σ} (valid : Valid s) (enough : measure s < rounds) :
    ∃ last, saturate grow rounds s = some last ∧ grow last = none ∧ Valid last := by
  induction rounds generalizing s with
  | zero => exact absurd enough (Nat.not_lt_zero _)
  | succ rounds ih =>
    rw [saturate]
    cases grown : grow s with
    | none => exact ⟨s, rfl, grown, valid⟩
    | some larger =>
      have less := falls s larger valid grown
      exact ih (keeps s larger valid grown) (by omega)

end Lib.Saturation

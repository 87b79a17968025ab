import Mathlib

/-! # Counted runs of a step relation

`Steps R a n b`: `b` is reached from `a` by exactly `n` steps of `R`. A measure that a step lowers
by one at most is lowered by `n` at most over `n` steps, which bounds from below how far apart two
events of a run are: one that leaves the measure at `k` and one that needs it at `0`. -/

namespace Zeos.Lib

variable {σ : Type} (R : σ → σ → Prop)

inductive Steps : σ → Nat → σ → Prop
  | refl (a : σ) : Steps a 0 a
  | tail {a b c : σ} {n : Nat} : Steps a n b → R b c → Steps a (n + 1) c

variable {R}

/-- A measure that falls by one at most in a step falls by `n` at most in `n` steps. -/
theorem Steps.measure_le {f : σ → Nat} (hf : ∀ a b, R a b → f a ≤ f b + 1) {a b : σ} {n : Nat}
    (h : Steps R a n b) : f a ≤ f b + n := by
  induction h with
  | refl => exact Nat.le_refl _
  | tail _ hr ih =>
    have := hf _ _ hr
    omega

end Zeos.Lib

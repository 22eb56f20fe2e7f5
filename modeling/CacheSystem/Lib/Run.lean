import Mathlib.Data.Option.Basic

/-!
# Runs

A machine given by its steps: `step s op` is the state after an operation, or `none` where the
operation is not possible. A run performs a list of operations, and is possible when all of them
are.

* `IsRun` : `run` performs its operations with `step`.
* `IsRun.keeps` : the invariant rule.
* `IsRun.append` : a run goes on where another one ended.
-/

namespace CacheSystem.Lib.Run

variable {σ α : Type} {step : σ → α → Option σ} {run : σ → List α → Option σ}

/-- `run` performs its operations one after the other. -/
structure IsRun (step : σ → α → Option σ) (run : σ → List α → Option σ) : Prop where
  nil : ∀ s, run s [] = some s
  cons : ∀ s op ops, run s (op :: ops) = (step s op).bind fun s' => run s' ops

/-- **The invariant rule**: what every step keeps, a run keeps. -/
theorem IsRun.keeps (h : IsRun step run) {P : σ → Prop}
    (hstep : ∀ s op s', P s → step s op = some s' → P s') {ops : List α} {s s' : σ} (hs : P s)
    (hrun : run s ops = some s') : P s' := by
  induction ops generalizing s with
  | nil =>
      rw [h.nil] at hrun
      cases hrun
      exact hs
  | cons op ops ih =>
      rw [h.cons] at hrun
      obtain ⟨s₁, hs₁, hrest⟩ := Option.bind_eq_some_iff.mp hrun
      exact ih (hstep s op s₁ hs hs₁) hrest

/-- Two runs, one after the other. -/
theorem IsRun.append (h : IsRun step run) {ops ops' : List α} {s s' : σ}
    (hrun : run s ops = some s') : run s (ops ++ ops') = run s' ops' := by
  induction ops generalizing s with
  | nil =>
      rw [h.nil] at hrun
      cases hrun
      rfl
  | cons op ops ih =>
      rw [h.cons] at hrun
      obtain ⟨s₁, hs₁, hrest⟩ := Option.bind_eq_some_iff.mp hrun
      rw [List.cons_append, h.cons, hs₁, Option.bind_some, ih hrest]

end CacheSystem.Lib.Run

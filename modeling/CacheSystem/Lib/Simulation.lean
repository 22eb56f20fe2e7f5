import Mathlib.Logic.Relation

/-!
# Machines and simulation

A machine is a set of states to start in and a step relation. A concrete machine is simulated by an
abstract one along a relation of their states when every concrete start has an abstract one beside
it, and every concrete step is matched by abstract steps, none or several.

* `Machine.Reachable.induct` : what holds at the start and after each step holds of every reachable
  state, with the reachability of the states at hand.
* `Simulates.reachable` : the states reached are related, and what holds of all abstract ones is
  known of the concrete ones.
* `Simulates.of_map` : the relation is a function.
-/

namespace CacheSystem.Lib.Simulation

open Relation

variable {σ τ : Type}

/-- The states a machine starts in, and its steps. -/
structure Machine (σ : Type) where
  init : σ → Prop
  next : σ → σ → Prop

/-- The states a machine comes to. -/
inductive Machine.Reachable (M : Machine σ) : σ → Prop
  | init {s : σ} : M.init s → M.Reachable s
  | step {s s' : σ} : M.Reachable s → M.next s s' → M.Reachable s'

/-- Any number of steps on from a reachable state. -/
theorem Machine.Reachable.steps {M : Machine σ} {s s' : σ} (h : M.Reachable s)
    (hsteps : ReflTransGen M.next s s') : M.Reachable s' := by
  induction hsteps with
  | refl => exact h
  | tail _ hnext ih => exact ih.step hnext

/-- **The invariant rule.** -/
theorem Machine.Reachable.induct {M : Machine σ} {P : σ → Prop} (hinit : ∀ s, M.init s → P s)
    (hnext : ∀ s s', M.Reachable s → P s → M.next s s' → P s') {s : σ} (h : M.Reachable s) :
    P s := by
  induction h with
  | init hs => exact hinit _ hs
  | step hs hstep ih => exact hnext _ _ hs ih hstep

/-- The abstract machine `A` simulates the concrete machine `C` along `R`. -/
structure Simulates (C : Machine σ) (A : Machine τ) (R : σ → τ → Prop) : Prop where
  init : ∀ s, C.init s → ∃ t, A.init t ∧ R s t
  step : ∀ s s' t, C.Reachable s → A.Reachable t → R s t → C.next s s' →
    ∃ t', ReflTransGen A.next t t' ∧ R s' t'

/-- **A reachable concrete state has a reachable abstract state beside it.** -/
theorem Simulates.reachable {C : Machine σ} {A : Machine τ} {R : σ → τ → Prop}
    (h : Simulates C A R) {s : σ} (hs : C.Reachable s) : ∃ t, A.Reachable t ∧ R s t := by
  induction hs with
  | init hs =>
      obtain ⟨t, ht, hR⟩ := h.init _ hs
      exact ⟨t, .init ht, hR⟩
  | step hs hnext ih =>
      obtain ⟨t, ht, hR⟩ := ih
      obtain ⟨t', hsteps, hR'⟩ := h.step _ _ t hs ht hR hnext
      exact ⟨t', ht.steps hsteps, hR'⟩

/-- A simulation along a function of the concrete states, under which the concrete machine starts
and goes on as the abstract one can. -/
theorem Simulates.of_map {C : Machine σ} {A : Machine τ} (f : σ → τ)
    (hinit : ∀ s, C.init s → A.init (f s))
    (hstep : ∀ s s', C.Reachable s → C.next s s' → ReflTransGen A.next (f s) (f s')) :
    Simulates C A fun s t => t = f s where
  init s hs := ⟨f s, hinit s hs, rfl⟩
  step s s' _ hs _ hR hnext := ⟨f s', hR ▸ hstep s s' hs hnext, rfl⟩

end CacheSystem.Lib.Simulation

import Mathlib.Logic.Function.Basic

/-!
# Tables

A `std::map` as a partial function from keys to entries: `Function.update m a (some b)` is
`m[a] = b`, and `Function.update m a none` is `m.erase(a)`.

* `of_assign`, `of_erase` : where an entry comes from after an assignment or an erase.
* `forall_update`, `forall_assign` : what holds of every entry after an assignment.
-/

namespace CacheSystem.Lib.Table

variable {α β : Type} [DecidableEq α] {m : α → Option β} {a a' : α} {b b' : β}

/-- An entry after an assignment is the one assigned, or one from before under another key. -/
theorem of_assign (h : Function.update m a (some b) a' = some b') :
    a' = a ∧ b' = b ∨ a' ≠ a ∧ m a' = some b' := by
  by_cases ha : a' = a
  · rw [ha, Function.update_self] at h
    exact Or.inl ⟨ha, (Option.some.inj h).symm⟩
  · rw [Function.update_of_ne ha] at h
    exact Or.inr ⟨ha, h⟩

/-- An entry after an erase was there before, under another key. -/
theorem of_erase (h : Function.update m a none a' = some b') : a' ≠ a ∧ m a' = some b' := by
  by_cases ha : a' = a
  · rw [ha, Function.update_self] at h
    cases h
  · rw [Function.update_of_ne ha] at h
    exact ⟨ha, h⟩

/-- An erase adds no entry. -/
theorem erase_eq_none (a : α) (h : m a' = none) : Function.update m a none a' = none := by
  by_cases ha : a' = a
  · rw [ha, Function.update_self]
  · rw [Function.update_of_ne ha, h]

/-- What the entry assigned has, and every entry under another key keeps, all entries have after. -/
theorem forall_update {P : α → β → Prop} (hold : ∀ a' b', a' ≠ a → m a' = some b' → P a' b')
    (hnew : P a b) : ∀ a' b', Function.update m a (some b) a' = some b' → P a' b' := by
  intro a' b' h
  rcases of_assign h with ⟨rfl, rfl⟩ | ⟨ha, h⟩
  · exact hnew
  · exact hold a' b' ha h

/-- What holds of the entry assigned and of every entry from before holds of all of them after. -/
theorem forall_assign {P : α → β → Prop} (hold : ∀ a' b', m a' = some b' → P a' b') (hnew : P a b) :
    ∀ a' b', Function.update m a (some b) a' = some b' → P a' b' :=
  forall_update (fun a' b' _ h => hold a' b' h) hnew

end CacheSystem.Lib.Table

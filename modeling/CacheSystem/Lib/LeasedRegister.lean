import CacheSystem.Lib.Simulation
import Mathlib.Order.Lattice
import Mathlib.Logic.Function.Basic

/-!
# Leased registers

What a cache with leases is for, without timers, queues or messages. Every key has a register. A
reader of it, or a writer, is told the value and a time until which the value stays as it is: a
promise. While a promise runs a further writer has to wait, one for each key; what waits is written
when the promises of its key have run out, and then promised anew.

Keys, values, writers and times are arbitrary; times are ordered.

* `Slot`, `Register` : what is held under a key; all keys, the time, and what was promised so far.
* `Next` : what can happen, one case for each transition of a slot, and time passing.
* `Register.Kept` : every promise made has run out, or its value is still there. `kept` says that
  this is always so.
* `agree` : promises that run at the same time for one key promise one value.
-/

namespace CacheSystem.Lib.LeasedRegister

open Simulation

variable {K V W Θ : Type}

/-! ## Registers -/

/-- What is held under a key. -/
inductive Slot (V W Θ : Type)
  | vacant
  /-- Nothing is promised. -/
  | free (value : V)
  /-- Promises run until `till` at the latest. -/
  | leased (value : V) (till : Θ)
  /-- Promises run until `till` at the latest, and `next` is written by `writer` after it. -/
  | waiting (value : V) (till : Θ) (writer : W) (next : V)

/-- What readers and writers are told. -/
inductive Told (K V W Θ : Type)
  | read (key : K) (value : V) (till : Θ)
  | wrote (key : K) (writer : W) (value : V) (till : Θ)
  | queued (key : K) (writer : W) (value : V)
  | committed (key : K) (writer : W) (value : V) (till : Θ)

/-- The promise that is made: key, value and time. -/
def Told.promise : Told K V W Θ → Option (K × V × Θ)
  | .read key value till => some (key, value, till)
  | .wrote key _ value till => some (key, value, till)
  | .queued .. => none
  | .committed key _ value till => some (key, value, till)

/-- All keys. -/
structure Register (K V W Θ : Type) where
  slots : K → Slot V W Θ
  now : Θ
  history : List (Told K V W Θ)

/-- One slot is assigned, and something was said. -/
def Register.assign [DecidableEq K] (r : Register K V W Θ) (key : K) (slot : Slot V W Θ)
    (said : List (Told K V W Θ)) : Register K V W Θ where
  slots := Function.update r.slots key slot
  now := r.now
  history := r.history ++ said

section machine

variable [DecidableEq K] [LinearOrder Θ]

/-- What can happen. -/
inductive Next : Register K V W Θ → Register K V W Θ → Prop
  /-- Time passes. -/
  | pass (r : Register K V W Θ) {now : Θ} (h : r.now ≤ now) : Next r { r with now := now }
  /-- A reader is promised a value that nobody was promised. -/
  | lease (r : Register K V W Θ) {key : K} {value : V} (till : Θ)
      (hslot : r.slots key = .free value) :
      Next r (r.assign key (.leased value till) [.read key value till])
  /-- A reader is promised a value for longer. -/
  | renew (r : Register K V W Θ) {key : K} {value : V} {till till' : Θ}
      (hslot : r.slots key = .leased value till) (hle : till ≤ till') :
      Next r (r.assign key (.leased value till') [.read key value till'])
  /-- A reader is told the value, with a promise that has run out. -/
  | peek (r : Register K V W Θ) {key : K} {value next : V} {writer : W} {till till' : Θ}
      (hslot : r.slots key = .waiting value till writer next) (hle : till' ≤ r.now) :
      Next r { r with history := r.history ++ [.read key value till'] }
  /-- A writer writes where nothing is promised. -/
  | write (r : Register K V W Θ) {key : K} (writer : W) (value : V) (till : Θ)
      (hslot : r.slots key = .vacant ∨ ∃ old, r.slots key = .free old) :
      Next r (r.assign key (.leased value till) [.wrote key writer value till])
  /-- A writer has to wait, at least until the promises have run out. -/
  | queue (r : Register K V W Θ) {key : K} {value : V} {till till' : Θ} (writer : W) (next : V)
      (hslot : r.slots key = .leased value till) (hle : till ≤ till') :
      Next r (r.assign key (.waiting value till' writer next) [.queued key writer next])
  /-- The promises have run out. -/
  | lapse (r : Register K V W Θ) {key : K} {value : V} {till : Θ}
      (hslot : r.slots key = .leased value till) (hle : till ≤ r.now) :
      Next r (r.assign key (.free value) [])
  /-- The promises have run out, and what waited is written and promised. -/
  | commit (r : Register K V W Θ) {key : K} {value next : V} {writer : W} {till till' : Θ}
      (hslot : r.slots key = .waiting value till writer next) (hle : till ≤ r.now) :
      Next r (r.assign key (.leased next till') [.committed key writer next till'])

/-- Registers that start empty. -/
def machine : Machine (Register K V W Θ) where
  init r := (∀ key, r.slots key = .vacant) ∧ r.history = []
  next := Next

end machine

/-! ## Promises -/

section promises

variable [LinearOrder Θ]

/-- The value is there, and is kept until `till` at least. -/
def Slot.Holds (value : V) (till : Θ) : Slot V W Θ → Prop
  | .vacant => False
  | .free _ => False
  | .leased value' till' => value' = value ∧ till ≤ till'
  | .waiting value' till' _ _ => value' = value ∧ till ≤ till'

/-- Every promise has run out, or its value is kept. -/
def Register.Kept (r : Register K V W Θ) : Prop :=
  ∀ told ∈ r.history, ∀ key value till, told.promise = some (key, value, till) →
    till ≤ r.now ∨ (r.slots key).Holds value till

/-- What a slot holds is one value. -/
theorem Slot.Holds.unique {slot : Slot V W Θ} {value value' : V} {till till' : Θ}
    (h : slot.Holds value till) (h' : slot.Holds value' till') : value = value' := by
  cases slot with
  | vacant => exact h.elim
  | free _ => exact h.elim
  | leased _ _ => exact h.1.symm.trans h'.1
  | waiting _ _ _ _ => exact h.1.symm.trans h'.1

/-- **Promises that run at the same time agree.** -/
theorem Register.Kept.agree {r : Register K V W Θ} (h : r.Kept) {told told' : Told K V W Θ}
    (htold : told ∈ r.history) (htold' : told' ∈ r.history) {key : K} {value value' : V} {till till' : Θ}
    (hpromise : told.promise = some (key, value, till))
    (hpromise' : told'.promise = some (key, value', till')) (hnow : r.now < till)
    (hnow' : r.now < till') : value = value' := by
  have hslot := (h told htold key value till hpromise).resolve_left (not_le_of_gt hnow)
  have hslot' := (h told' htold' key value' till' hpromise').resolve_left (not_le_of_gt hnow')
  exact hslot.unique hslot'

variable [DecidableEq K] {r r' : Register K V W Θ}

/-- An assigned slot keeps the promises, when it holds what the old slot held unless that has run
out, and what is said is held. -/
theorem Register.Kept.assign (h : r.Kept) {key : K} {slot : Slot V W Θ} {said : List (Told K V W Θ)}
    (hold : ∀ value till, (r.slots key).Holds value till → till ≤ r.now ∨ slot.Holds value till)
    (hsaid : ∀ told ∈ said, ∀ key' value till, told.promise = some (key', value, till) →
      key' = key ∧ slot.Holds value till) : (r.assign key slot said).Kept := by
  intro told htold key' value till hpromise
  rcases List.mem_append.mp htold with htold | htold
  · rcases h told htold key' value till hpromise with hle | hholds
    · exact Or.inl hle
    · by_cases hkey : key' = key
      · subst hkey
        refine (hold value till hholds).imp_right fun hslot => ?_
        simpa [Register.assign] using hslot
      · refine Or.inr ?_
        simpa [Register.assign, Function.update_of_ne hkey] using hholds
  · obtain ⟨rfl, hslot⟩ := hsaid told htold key' value till hpromise
    refine Or.inr ?_
    simpa [Register.assign] using hslot

/-- **Whatever happens keeps the promises.** -/
theorem Register.Kept.next (h : r.Kept) (hnext : Next r r') : r'.Kept := by
  cases hnext with
  | pass hnow =>
      exact fun told htold key value till hpromise =>
        (h told htold key value till hpromise).imp_left fun hle => hle.trans hnow
  | lease till hslot =>
      refine h.assign (fun value till hholds => ?_) fun told htold key value till hpromise => ?_
      · rw [hslot] at hholds
        exact hholds.elim
      · cases List.mem_singleton.mp htold
        cases hpromise
        exact ⟨rfl, rfl, le_rfl⟩
  | renew hslot hle =>
      refine h.assign (fun value till hholds => ?_) fun told htold key value till hpromise => ?_
      · rw [hslot] at hholds
        exact Or.inr ⟨hholds.1, hholds.2.trans hle⟩
      · cases List.mem_singleton.mp htold
        cases hpromise
        exact ⟨rfl, rfl, le_rfl⟩
  | peek hslot hle =>
      intro told htold key value till hpromise
      rcases List.mem_append.mp htold with htold | htold
      · exact h told htold key value till hpromise
      · cases List.mem_singleton.mp htold
        cases hpromise
        exact Or.inl hle
  | write writer value till hslot =>
      refine h.assign (fun value till hholds => ?_) fun told htold key value till hpromise => ?_
      · rcases hslot with hslot | ⟨old, hslot⟩ <;> rw [hslot] at hholds <;> exact hholds.elim
      · cases List.mem_singleton.mp htold
        cases hpromise
        exact ⟨rfl, rfl, le_rfl⟩
  | queue writer next hslot hle =>
      refine h.assign (fun value till hholds => ?_) fun told htold key value till hpromise => ?_
      · rw [hslot] at hholds
        exact Or.inr ⟨hholds.1, hholds.2.trans hle⟩
      · cases List.mem_singleton.mp htold
        cases hpromise
  | lapse hslot hle =>
      refine h.assign (fun value till hholds => ?_) fun told htold => nomatch htold
      rw [hslot] at hholds
      exact Or.inl (hholds.2.trans hle)
  | commit hslot hle =>
      refine h.assign (fun value till hholds => ?_) fun told htold key value till hpromise => ?_
      · rw [hslot] at hholds
        exact Or.inl (hholds.2.trans hle)
      · cases List.mem_singleton.mp htold
        cases hpromise
        exact ⟨rfl, rfl, le_rfl⟩

/-- **Every promise is kept**, in whatever order readers, writers and time go on. -/
theorem kept (h : (machine : Machine (Register K V W Θ)).Reachable r) : r.Kept := by
  refine h.induct (fun r hr told htold => ?_) fun r r' _ hkept hnext => hkept.next hnext
  rw [hr.2] at htold
  cases htold

end promises

end CacheSystem.Lib.LeasedRegister

import Mathlib.Data.List.Basic

/-!
# Linearizability

Calls of one object overlap: some are answered before others are made, some run at the same time,
some are never answered. They are linearizable when they could have been made one after the other,
each by a single caller, with the same answers and in an order in which no call stands before one
that was answered before it was made.

* `Object`, `Object.Runs` : the object as a single caller sees it.
* `History`, `Linearizable` : calls that overlap, and the order asked for.
* `linearizable_of_points` : it is enough to find a point for each call, such that the calls of one
  point run from one state to the next.
* `linearizable_of_log` : the calls that change the object are entries of a log, and the others look
  at it between two entries, both while the call runs.
-/

namespace CacheSystem.Lib.Concurrent

variable {State Act Ret ι : Type}

/-! ## One caller -/

/-- An object for a single caller: what an action can be answered in a state, and the state after
it. -/
structure Object (State Act Ret : Type) where
  init : State
  Step : State → Act → Ret → State → Prop

/-- Calls that are made one after the other, with their answers. -/
inductive Object.Runs (obj : Object State Act Ret) (act : ι → Act) :
    State → List (ι × Ret) → State → Prop
  | nil (s : State) : Runs obj act s [] s
  | cons {s s' s'' : State} {i : ι} {r : Ret} {rest : List (ι × Ret)} :
      obj.Step s (act i) r s' → Runs obj act s' rest s'' → Runs obj act s ((i, r) :: rest) s''

section runs

variable {obj : Object State Act Ret} {act : ι → Act} {s s' s'' : State} {l l' : List (ι × Ret)}

/-- One run after another. -/
theorem Object.Runs.append (h : obj.Runs act s l s') (h' : obj.Runs act s' l' s'') :
    obj.Runs act s (l ++ l') s'' := by
  induction h with
  | nil s => exact h'
  | cons hstep _ ih => exact .cons hstep (ih h')

/-- Calls that leave the state. -/
theorem Object.Runs.quiet (h : ∀ x ∈ l, obj.Step s (act x.1) x.2 s) : obj.Runs act s l s := by
  induction l with
  | nil => exact .nil s
  | cons x l ih =>
      exact .cons (h x List.mem_cons_self) (ih fun y hy => h y (List.mem_cons_of_mem x hy))

/-- Runs from each of some states to the next one. -/
theorem Object.Runs.flatMap {states : Nat → State} {block : Nat → List (ι × Ret)} :
    ∀ {n : Nat}, (∀ q < n, obj.Runs act (states q) (block q) (states (q + 1))) →
      obj.Runs act (states 0) ((List.range n).flatMap block) (states n)
  | 0, _ => .nil _
  | n + 1, h => by
      rw [List.range_succ, List.flatMap_append, List.flatMap_singleton]
      exact (Object.Runs.flatMap fun q hq => h q (Nat.lt_succ_of_lt hq)).append
        (h n (Nat.lt_succ_self n))

end runs

/-! ## Many callers -/

/-- Calls that overlap. -/
structure History (ι Act Ret : Type) where
  /-- The calls, as they were made. -/
  calls : List ι
  act : ι → Act
  Told : ι → Ret → Prop
  /-- The first call was answered before the second one was made. -/
  Precedes : ι → ι → Prop

/-- The calls in this order, with these answers, are what a single caller could see. -/
structure Linearization (obj : Object State Act Ret) (hist : History ι Act Ret)
    (order : List (ι × Ret)) : Prop where
  nodup : (order.map Prod.fst).Nodup
  /-- Calls that are not answered may take part. -/
  called : ∀ x ∈ order, x.1 ∈ hist.calls
  told : ∀ i r, hist.Told i r → (i, r) ∈ order
  realTime : order.Pairwise fun x y => ¬ hist.Precedes y.1 x.1
  legal : ∃ s, obj.Runs hist.act obj.init order s

/-- The calls could have been made one after the other. -/
def Linearizable (obj : Object State Act Ret) (hist : History ι Act Ret) : Prop :=
  ∃ order, Linearization obj hist order

variable {obj : Object State Act Ret} {hist : History ι Act Ret}

/-! ## Points -/

/-- The calls that take effect at the point `q`, with their answers, as they were made. -/
def History.block (hist : History ι Act Ret) (points : ι → Option (Nat × Ret)) (q : Nat) :
    List (ι × Ret) :=
  hist.calls.filterMap fun i => (points i).bind fun x => if x.1 = q then some (i, x.2) else none

/-- What takes effect at a point. -/
theorem History.mem_block {points : ι → Option (Nat × Ret)} {q : Nat} {i : ι} {r : Ret} :
    (i, r) ∈ hist.block points q ↔ i ∈ hist.calls ∧ points i = some (q, r) := by
  simp only [History.block, List.mem_filterMap, Option.bind_eq_some_iff]
  constructor
  · rintro ⟨j, hj, ⟨q', r'⟩, hpoint, hx⟩
    split at hx
    · rename_i hq
      cases hx
      exact ⟨hj, hq ▸ hpoint⟩
    · cases hx
  · rintro ⟨hi, hpoint⟩
    exact ⟨i, hi, (q, r), hpoint, if_pos rfl⟩

/-- **Points.** The calls are put in the order of their points, and those of one point in the order
in which they were made. -/
theorem linearizable_of_points (points : ι → Option (Nat × Ret)) (states : Nat → State) (n : Nat)
    (hnodup : hist.calls.Nodup)
    (hcalls : hist.calls.Pairwise fun i j => ¬ hist.Precedes j i)
    (htold : ∀ i r, hist.Told i r → i ∈ hist.calls ∧ ∃ q < n, points i = some (q, r))
    (hprec : ∀ i j q q' r r', i ∈ hist.calls → j ∈ hist.calls → hist.Precedes i j →
      points i = some (q, r) → points j = some (q', r') → q ≤ q')
    (hinit : states 0 = obj.init)
    (hruns : ∀ q < n, obj.Runs hist.act (states q) (hist.block points q) (states (q + 1))) :
    Linearizable obj hist := by
  have hpairwise : ((List.range n).flatMap (hist.block points)).Pairwise fun x y =>
      x.1 ≠ y.1 ∧ ¬ hist.Precedes y.1 x.1 := by
    refine List.pairwise_flatMap.mpr ⟨fun q _ => ?_, List.pairwise_lt_range.imp ?_⟩
    · -- of one point: as the calls were made
      refine List.pairwise_filterMap.mpr ((hnodup.and hcalls).imp ?_)
      intro i j hij x hx y hy
      obtain ⟨⟨q₁, r₁⟩, -, hx⟩ := Option.bind_eq_some_iff.mp hx
      obtain ⟨⟨q₂, r₂⟩, -, hy⟩ := Option.bind_eq_some_iff.mp hy
      split at hx
      · split at hy
        · cases hx
          cases hy
          exact hij
        · cases hy
      · cases hx
    · rintro q q' hq ⟨i, r⟩ hx ⟨j, r'⟩ hy
      obtain ⟨hi, hpi⟩ := History.mem_block.mp hx
      obtain ⟨hj, hpj⟩ := History.mem_block.mp hy
      refine ⟨fun hij => ?_, fun hprecedes => ?_⟩
      · have hij : i = j := hij
        rw [hij, hpj] at hpi
        cases hpi
        exact Nat.lt_irrefl _ hq
      · exact absurd (hprec j i q' q r' r hj hi hprecedes hpj hpi) (Nat.not_le_of_gt hq)
  refine ⟨(List.range n).flatMap (hist.block points), ?_, ?_, ?_, ?_, ?_⟩
  · exact List.pairwise_map.mpr (hpairwise.imp fun h => h.1)
  · rintro ⟨i, r⟩ hx
    obtain ⟨q, -, hx⟩ := List.mem_flatMap.mp hx
    exact (History.mem_block.mp hx).1
  · intro i r hr
    obtain ⟨hi, q, hq, hpoint⟩ := htold i r hr
    exact List.mem_flatMap.mpr ⟨q, List.mem_range.mpr hq, History.mem_block.mpr ⟨hi, hpoint⟩⟩
  · exact hpairwise.imp fun h => h.2
  · exact ⟨states n, hinit ▸ Object.Runs.flatMap hruns⟩

/-! ## A log -/

/-- Where a call takes effect: as an entry of a log, or when the log has this length. -/
inductive Point
  | look (length : Nat)
  | entry (index : Nat)

/-- The call takes effect while the log is not longer than `m`. -/
def Point.UpTo (m : Nat) : Point → Prop
  | .look length => length ≤ m
  | .entry index => index < m

/-- The call takes effect when the log is not shorter than `m`. -/
def Point.From (m : Nat) : Point → Prop
  | .look length => m ≤ length
  | .entry index => m ≤ index

/-- Looks and entries in one row. -/
def Point.rank : Point → Nat
  | .look length => 2 * length
  | .entry index => 2 * index + 1

/-- The ranks are in the order of the points. -/
theorem Point.rank_le {x y : Point} {m : Nat} (hx : x.UpTo m) (hy : y.From m) :
    x.rank ≤ y.rank := by
  cases x <;> cases y <;> simp only [UpTo, From, rank] at * <;> omega

/-- Different points have different ranks. -/
theorem Point.rank_injective {x y : Point} (h : x.rank = y.rank) : x = y := by
  cases x <;> cases y <;> simp only [rank] at h
  · exact congrArg Point.look (by omega)
  · omega
  · omega
  · exact congrArg Point.entry (by omega)

/-- The one element that a function keeps of a list. -/
theorem filterMap_eq_singleton {α β : Type} {f : α → Option β} {l : List α} (hnodup : l.Nodup) {a : α}
    {b : β} (ha : a ∈ l) (hfa : f a = some b) (hf : ∀ a' ∈ l, a' ≠ a → f a' = none) :
    l.filterMap f = [b] := by
  obtain ⟨l₁, l₂, rfl⟩ := List.append_of_mem ha
  obtain ⟨-, hnodup₂, hdisjoint⟩ := List.nodup_append.mp hnodup
  have h₁ : l₁.filterMap f = [] := List.filterMap_eq_nil_iff.mpr fun a' ha' =>
    hf a' (List.mem_append_left _ ha') (hdisjoint a' ha' a List.mem_cons_self)
  have h₂ : l₂.filterMap f = [] := List.filterMap_eq_nil_iff.mpr fun a' ha' =>
    hf a' (List.mem_append_right _ (List.mem_cons_of_mem a ha')) fun h =>
      (List.nodup_cons.mp hnodup₂).1 (h ▸ ha')
  rw [List.filterMap_append, List.filterMap_cons_some hfa, h₁, h₂]
  rfl

/-- The calls with the ranks of their points. -/
def ranked (points : ι → Option (Point × Ret)) (i : ι) : Option (Nat × Ret) :=
  (points i).map fun x => (x.1.rank, x.2)

/-- A ranked point is a point with its rank. -/
theorem ranked_eq_some {points : ι → Option (Point × Ret)} {i : ι} {q : Nat} {r : Ret} :
    ranked points i = some (q, r) ↔ ∃ x, points i = some (x, r) ∧ x.rank = q := by
  constructor
  · intro h
    obtain ⟨⟨x, r'⟩, hx, heq⟩ := Option.map_eq_some_iff.mp h
    cases heq
    exact ⟨x, hx, rfl⟩
  · rintro ⟨x, hx, rfl⟩
    rw [ranked, hx]
    rfl

/-- The calls that take effect at a point, in the row of all points. -/
theorem History.mem_block_rank {points : ι → Option (Point × Ret)} {x : Point} {i : ι} {r : Ret} :
    (i, r) ∈ hist.block (ranked points) x.rank ↔ i ∈ hist.calls ∧ points i = some (x, r) := by
  rw [History.mem_block, ranked_eq_some]
  refine and_congr_right fun _ => ⟨?_, fun h => ⟨x, h, rfl⟩⟩
  rintro ⟨y, hy, hrank⟩
  rw [hy, Point.rank_injective hrank]

/-- The calls at a point that is that of one call only. -/
theorem History.block_eq_singleton {points : ι → Option (Point × Ret)} {x : Point} {i : ι} {r : Ret}
    (hnodup : hist.calls.Nodup) (hi : i ∈ hist.calls) (hx : points i = some (x, r))
    (honly : ∀ j ∈ hist.calls, ∀ r', points j = some (x, r') → j = i) :
    hist.block (ranked points) x.rank = [(i, r)] := by
  refine filterMap_eq_singleton hnodup hi (by simp [ranked, hx]) fun j hj hne => ?_
  refine Option.bind_eq_none_iff.mpr ?_
  rintro ⟨q, r'⟩ hpoint
  refine if_neg fun hq => hne ?_
  obtain ⟨y, hy, hrank⟩ := ranked_eq_some.mp hpoint
  obtain rfl : y = x := Point.rank_injective (hrank.trans hq)
  exact honly j hj r' hy

/-- **A log.** The state is known for every length of the log. A call that changes it is an entry,
every other call looks at the log, and both happen while the call runs: when one call was answered
before another was made, then some length of the log lies between them. -/
theorem linearizable_of_log (points : ι → Option (Point × Ret)) (states : Nat → State) (n : Nat)
    (hnodup : hist.calls.Nodup)
    (hcalls : hist.calls.Pairwise fun i j => ¬ hist.Precedes j i)
    (htold : ∀ i r, hist.Told i r → i ∈ hist.calls ∧ ∃ x, points i = some (x, r))
    (hprec : ∀ i j x y r r', i ∈ hist.calls → j ∈ hist.calls → hist.Precedes i j →
      points i = some (x, r) → points j = some (y, r') → ∃ m, x.UpTo m ∧ y.From m)
    (hinit : states 0 = obj.init)
    (hlook : ∀ i m r, i ∈ hist.calls → points i = some (.look m, r) →
      m ≤ n ∧ obj.Step (states m) (hist.act i) r (states m))
    (hentry : ∀ i k r, i ∈ hist.calls → points i = some (.entry k, r) →
      k < n ∧ obj.Step (states k) (hist.act i) r (states (k + 1)) ∧
        ∀ j ∈ hist.calls, ∀ r', points j = some (.entry k, r') → j = i)
    (hidle : ∀ k < n, (∀ i ∈ hist.calls, ∀ r, points i ≠ some (.entry k, r)) →
      states (k + 1) = states k) : Linearizable obj hist := by
  refine linearizable_of_points (ranked points) (fun q => states (q / 2)) (2 * n + 1) hnodup hcalls
    (fun i r hr => ?_) (fun i j q q' r r' hi hj hprecedes hpi hpj => ?_) hinit fun q hq => ?_
  · obtain ⟨hi, x, hx⟩ := htold i r hr
    refine ⟨hi, x.rank, ?_, ranked_eq_some.mpr ⟨x, hx, rfl⟩⟩
    cases x with
    | look m =>
        have hm := (hlook i m r hi hx).1
        simp only [Point.rank]
        omega
    | entry k =>
        have hk := (hentry i k r hi hx).1
        simp only [Point.rank]
        omega
  · obtain ⟨x, hx, rfl⟩ := ranked_eq_some.mp hpi
    obtain ⟨y, hy, rfl⟩ := ranked_eq_some.mp hpj
    obtain ⟨m, hxm, hym⟩ := hprec i j x y r r' hi hj hprecedes hx hy
    exact Point.rank_le hxm hym
  · obtain ⟨m, rfl | rfl⟩ : ∃ m, q = 2 * m ∨ q = 2 * m + 1 := ⟨q / 2, by omega⟩
    · -- the calls that look at the log when it is `m` long
      have h₀ : 2 * m / 2 = m := by omega
      have h₁ : (2 * m + 1) / 2 = m := by omega
      simp only [h₀, h₁]
      refine Object.Runs.quiet ?_
      rintro ⟨i, r⟩ hx
      obtain ⟨hi, hpoint⟩ := History.mem_block_rank (x := .look m) |>.mp hx
      exact (hlook i m r hi hpoint).2
    · -- the call of the entry `m`, if there is one
      have h₀ : (2 * m + 1) / 2 = m := by omega
      have h₁ : (2 * m + 1 + 1) / 2 = m + 1 := by omega
      simp only [h₀, h₁]
      by_cases h : ∃ i ∈ hist.calls, ∃ r, points i = some (.entry m, r)
      · obtain ⟨i, hi, r, hx⟩ := h
        obtain ⟨-, hstep, honly⟩ := hentry i m r hi hx
        have hblock : hist.block (ranked points) (2 * m + 1) = [(i, r)] :=
          History.block_eq_singleton hnodup hi hx honly
        rw [hblock]
        exact .cons hstep (.nil _)
      · rw [hidle m (by omega) fun i hi r hx => h ⟨i, hi, r, hx⟩]
        refine Object.Runs.quiet ?_
        rintro ⟨i, r⟩ hx
        obtain ⟨hi, hpoint⟩ := History.mem_block_rank (x := .entry m) |>.mp hx
        exact absurd ⟨i, hi, r, hpoint⟩ h

end CacheSystem.Lib.Concurrent

import CacheSystem.TickRuns

/-!
# Callbacks that throw (`timer_queue.cc`, `server.cc`)

`tick` decrements `repeat_` after the callback, so an exception leaves the queue as it was. The loop
of the server catches it and calls `tick` again, which finds the same timer in slot 0.

* `failing` : callbacks that throw whenever they are run, and others that never do.
* `Ticks` : calls of `tick` one after the other.
* `PassesOn` : a failing timer does not keep the others from being run.
* `NeverFails` : no live timer with a failing callback comes due.
* `passesOn_iff` : the first is so exactly where the second is. `Ticks.starved` says what happens
  otherwise: once a failing timer is in front, it is all that is ever run.
-/

namespace CacheSystem

variable {κ τ : Type}

/-! ## Ticks in a row -/

/-- Callbacks that throw `thrown` whenever they are run; `body` says how many readings a callback
takes and what it leaves. -/
def failing (thrown : κ → Option Thrown) (body : κ → Nat → τ → Nat × τ) : Act κ τ :=
  fun callback readings mem => (thrown callback, body callback readings mem)

/-- So many calls of `tick`, each whether the one before returned or threw: the timers that are run,
and the state reached. Source: `server.cc`, the loop of `main`. -/
inductive Ticks (env : Env) (act : Act κ τ) :
    Nat → Proc κ τ → List (EventTimer κ) → Proc κ τ → Prop
  | zero (p : Proc κ τ) : Ticks env act 0 p [] p
  | succ {k p passed e p₁ fired p'} : LoopRuns (tickIter env (runAct act)) p passed e p₁ →
      Ticks env act k p₁ fired p' →
      Ticks env act (k + 1) p (passed.flatMap (firing env) ++ fired) p'

/-- Firings left in the timers that are due. -/
def firingsDue (env : Env) (p : Proc κ τ) : Nat :=
  ((p.rt.queue.filter fun t => t.expireTime ≤ p.rt.now env).map fun t => t.repeat_.toNat).sum

/-- What is wanted of the calls of `tick` from `p` on. -/
structure PassesOn (env : Env) (act : Act κ τ) (p : Proc κ τ) : Prop where
  /-- The timer that threw has a firing less, or is gone. -/
  used : ∀ {k fired q passed e p'}, Ticks env act k p fired q →
    LoopRuns (tickIter env (runAct act)) q passed (some e) p' →
      ∀ t, (passed.flatMap (firing env)).getLast? = some t →
        ∀ t' ∈ p'.rt.queue, t'.timerId = t.timerId → t'.repeat_ < t.repeat_
  /-- As many ticks later as there were firings due, all that was due has been run. -/
  ran : ∀ {k fired q fired' p'}, Ticks env act k p fired q →
    Ticks env act (firingsDue env q) q fired' p' →
      ∀ t ∈ q.rt.queue, t.repeat_ ≠ 0 → t.expireTime ≤ q.rt.now env → t ∈ fired'

/-- No live timer with a callback that throws ever comes due. -/
def NeverFails (env : Env) (thrown : κ → Option Thrown) (p : Proc κ τ) : Prop :=
  ∀ t ∈ p.rt.queue, t.repeat_ ≠ 0 → thrown t.callback ≠ none →
    ∀ n, p.rt.readings ≤ n → env.reading n < t.expireTime

/-! ## A tick that throws -/

section act

variable {env : Env} {act : Act κ τ} {p p' : Proc κ τ} {passed : List (Proc κ τ)}
  {e : Option Thrown}

/-- The timer that threw is in the queue as it was. -/
theorem LoopRuns.last_fired {thrown : Thrown}
    (h : LoopRuns (tickIter env (runAct act)) p passed (some thrown) p') :
    ∃ t, (passed.flatMap (firing env)).getLast? = some t ∧ t ∈ p'.rt.queue := by
  obtain ⟨init, q, rfl, hthrew⟩ := h.of_threw
  have hspec := tickIter_spec env (runAct act) q
  rw [hthrew] at hspec
  cases hspec with
  | @threw t rest _ p₁ hq hdue h0 hran =>
      refine ⟨t, ?_, ?_⟩
      · rw [List.flatMap_append, List.flatMap_singleton, firing_eq hq hdue h0]
        exact List.getLast?_concat
      · change t ∈ p₁.rt.queue
        rw [runAct_leavesQueue.ran hran, hq]
        exact List.mem_cons_self

/-- So a `tick` that throws uses up nothing. -/
theorem PassesOn.returns (h : PassesOn env act p)
    (htick : LoopRuns (tickIter env (runAct act)) p passed e p') : e = none := by
  cases e with
  | none => rfl
  | some thrown =>
      obtain ⟨t, hlast, hmem⟩ := htick.last_fired
      exact absurd (h.used (.zero p) htick t hlast t hmem rfl) (UInt32.lt_irrefl _)

/-- What is wanted from a state on is wanted after a `tick`. -/
theorem PassesOn.next (h : PassesOn env act p)
    (htick : LoopRuns (tickIter env (runAct act)) p passed e p') : PassesOn env act p' where
  used hticks := h.used (.succ htick hticks)
  ran hticks := h.ran (.succ htick hticks)

end act

/-! ## A failing timer is never done with -/

section failing

variable {env : Env} {thrown : κ → Option Thrown} {body : κ → Nat → τ → Nat × τ}
  {p p' : Proc κ τ} {passed : List (Proc κ τ)} {e : Option Thrown} {t : EventTimer κ}

/-- A live timer that fails stays as it is. -/
theorem LoopRuns.keeps_failing
    (h : LoopRuns (tickIter env (runAct (failing thrown body))) p passed e p')
    (hlive : t.repeat_ ≠ 0) (hfails : thrown t.callback ≠ none) (ht : t ∈ p.rt.queue) :
    t ∈ p'.rt.queue := by
  refine (h.keeps (P := fun q => t ∈ q.rt.queue) (fun q hq => ?_) ht).2
  rcases tickIter_keeps_or_runs hq hlive with hkeeps | ⟨-, hreturns⟩
  · exact hkeeps
  · exact absurd hreturns hfails

/-- Where no `tick` throws, a failing timer is not due at any reading. -/
theorem PassesOn.not_due {n d : Nat} (hn : n < p.rt.readings + d) (hheap : MinHeap p.rt.queue)
    (h : PassesOn env (failing thrown body) p) (ht : t ∈ p.rt.queue) (hlive : t.repeat_ ≠ 0)
    (hfails : thrown t.callback ≠ none) (hle : p.rt.readings ≤ n) :
    env.reading n < t.expireTime := by
  induction d generalizing p with
  | zero => omega
  | succ d ih =>
      obtain ⟨passed, e, p₁, htick⟩ := tick_ends env runAct_leavesQueue p
      obtain rfl := h.returns htick
      have hlt := htick.readings_lt (List.ne_nil_of_mem ht)
      have ht₁ := htick.keeps_failing hlive hfails ht
      by_cases hnext : p₁.rt.readings ≤ n
      · have hheap₁ := (htick.minHeap runAct_leavesQueue.keepsHeap hheap).2
        exact ih (by omega) hheap₁ (h.next htick) ht₁ hnext
      · have hreturned := htick.returned runAct_leavesQueue.keepsHeap hheap t ht₁
        exact (env.mono (by omega)).trans_lt hreturned

/-! ## Where nothing fails -/

/-- An iteration keeps it so: what is new in the queue has a callback that returned. -/
theorem NeverFails.tickIter (h : NeverFails env thrown p) :
    NeverFails env thrown (tickIter env (runAct (failing thrown body)) p).state := by
  have hspec := tickIter_spec env (runAct (failing thrown body)) p
  have hle : p.rt.readings ≤
      (CacheSystem.tickIter env (runAct (failing thrown body)) p).state.rt.readings :=
    tickIter_readings_le p
  generalize CacheSystem.tickIter env (runAct (failing thrown body)) p = r at hspec hle
  intro t ht hlive hfails n hn
  have hp (ht : t ∈ p.rt.queue) : env.reading n < t.expireTime :=
    h t ht hlive hfails n (hle.trans hn)
  cases hspec with
  | empty _ => exact hp ht
  | notDue _ _ => exact hp ht
  | dead hq _ _ hperm =>
      apply hp
      rw [hq]
      exact List.mem_cons_of_mem _ (hperm.mem_iff.mp ht)
  | threw _ _ _ hran =>
      apply hp
      rw [← runAct_leavesQueue.ran hran]
      exact ht
  | fired hq _ _ hran =>
      rcases mem_settled ((runAct_leavesQueue.ran hran).trans hq) ht with ht | ⟨-, hcallback⟩
      · apply hp
        rw [hq]
        exact List.mem_cons_of_mem _ ht
      · rw [hcallback] at hfails
        exact absurd (congrArg Prod.fst hran) hfails

/-- Then no `tick` throws. -/
theorem NeverFails.returns (h : NeverFails env thrown p)
    (htick : LoopRuns (CacheSystem.tickIter env (runAct (failing thrown body))) p passed e p') :
    e = none := by
  cases e with
  | none => rfl
  | some thrown' =>
      obtain ⟨init, q, rfl, hthrew⟩ := htick.of_threw
      have hq : NeverFails env thrown q :=
        (htick.keeps (fun _ hq => hq.tickIter) h).1 q (by simp)
      have hspec := tickIter_spec env (runAct (failing thrown body)) q
      rw [hthrew] at hspec
      cases hspec with
      | @threw t rest _ p₁ hcons hdue h0 hran =>
          have hfails : thrown t.callback = some thrown' := congrArg Prod.fst hran
          have hlt := hq t (by simp [hcons]) h0 (by simp [hfails]) q.rt.readings le_rfl
          exact absurd hdue (not_le.mpr hlt)

/-- What never comes due does not come due after a `tick`. -/
theorem NeverFails.next (h : NeverFails env thrown p)
    (htick : LoopRuns (CacheSystem.tickIter env (runAct (failing thrown body))) p passed e p') :
    NeverFails env thrown p' :=
  (htick.keeps (fun _ hq => hq.tickIter) h).2

/-- Nor after several. -/
theorem NeverFails.ticks (h : NeverFails env thrown p) {k : Nat} {fired : List (EventTimer κ)}
    (hticks : Ticks env (failing thrown body) k p fired p') : NeverFails env thrown p' := by
  induction hticks with
  | zero p => exact h
  | succ htick _ ih => exact ih (h.next htick)

/-- The first `tick` runs all that is due. -/
theorem NeverFails.runs_due (h : NeverFails env thrown p) (hheap : MinHeap p.rt.queue)
    (htick : LoopRuns (CacheSystem.tickIter env (runAct (failing thrown body))) p passed e p')
    (ht : t ∈ p.rt.queue) (hlive : t.repeat_ ≠ 0) (hdue : t.expireTime ≤ p.rt.now env) :
    t ∈ passed.flatMap (firing env) := by
  obtain rfl := h.returns htick
  rcases htick.fires_or_keeps ht hlive with hfires | hkeeps
  · exact hfires
  · have hlt := htick.readings_lt (List.ne_nil_of_mem ht)
    have hlater := htick.returned runAct_leavesQueue.keepsHeap hheap t hkeeps
    have hreading : p.rt.now env ≤ env.reading (p'.rt.readings - 1) := env.mono (by omega)
    omega

/-- A firing is due where a timer is. -/
theorem firingsDue_ne_zero (ht : t ∈ p.rt.queue) (hlive : t.repeat_ ≠ 0)
    (hdue : t.expireTime ≤ p.rt.now env) : firingsDue env p ≠ 0 := by
  intro h0
  have hmem : t.repeat_.toNat ∈
      ((p.rt.queue.filter fun t => t.expireTime ≤ p.rt.now env).map fun t => t.repeat_.toNat) := by
    simp only [List.mem_map, List.mem_filter]
    exact ⟨t, ⟨ht, by simpa using hdue⟩, rfl⟩
  have hzero := List.sum_eq_zero_iff.mp h0 _ hmem
  exact hlive (UInt32.toNat_inj.mp hzero)

/-- The calls of `tick` keep the heap. -/
theorem Ticks.minHeap {k : Nat} {fired : List (EventTimer κ)}
    (h : Ticks env (failing thrown body) k p fired p') (hheap : MinHeap p.rt.queue) :
    MinHeap p'.rt.queue := by
  induction h with
  | zero p => exact hheap
  | succ htick _ ih => exact ih (htick.minHeap runAct_leavesQueue.keepsHeap hheap).2

/-! ## Exactly when the others are run -/

/-- **A failing timer does not block the others** exactly where none ever comes due. -/
theorem passesOn_iff {steps : List (Passage κ τ)}
    (h : QueueRuns env (runAct (failing thrown body)) steps p) :
    PassesOn env (failing thrown body) p ↔ NeverFails env thrown p := by
  obtain ⟨-, hheap⟩ := h.minHeap runAct_leavesQueue.keepsHeap
  constructor
  · intro hpasses t ht hlive hfails n hn
    exact hpasses.not_due (d := n + 1) (by omega) hheap ht hlive hfails hn
  · intro hnever
    constructor
    · intro k fired q passed thrown' p' hticks htick
      exact absurd ((hnever.ticks hticks).returns htick) (Option.some_ne_none _)
    · intro k fired q fired' p' hticks hmore t ht hlive hdue
      obtain ⟨m, hm⟩ := Nat.exists_eq_succ_of_ne_zero (firingsDue_ne_zero ht hlive hdue)
      rw [hm] at hmore
      cases hmore with
      | succ htick _ =>
          apply List.mem_append_left
          exact (hnever.ticks hticks).runs_due (hticks.minHeap hheap) htick ht hlive hdue

/-- A failing timer in front: the loop ends in its first iteration. -/
theorem tickIter_fails {rest : List (EventTimer κ)} (hq : p.rt.queue = t :: rest)
    (hdue : t.expireTime ≤ p.rt.now env) (hlive : t.repeat_ ≠ 0)
    (hfails : thrown t.callback ≠ none) :
    ∃ thrown' p₁, tickIter env (runAct (failing thrown body)) p = .threw thrown' p₁ ∧
      p₁.rt.queue = t :: rest := by
  obtain ⟨thrown', hthrown⟩ := Option.ne_none_iff_exists'.mp hfails
  rcases hran : runAct (failing thrown body) t.callback { p with rt := p.rt.readClock.lock } with
    ⟨e, p₁⟩
  have hqueue : p₁.rt.queue = p.rt.queue := runAct_leavesQueue.ran hran
  obtain rfl : e = some thrown' := (congrArg Prod.fst hran).symm.trans hthrown
  refine ⟨thrown', { p₁ with rt := p₁.rt.unlock p.rt.locked }, ?_, hqueue.trans hq⟩
  simp only [tickIter, hq, if_neg (not_lt.mpr hdue), if_neg hlive, hran]

/-- **Starvation**: once a failing timer is in front and due, it is all that is ever run, and the
queue stays as it is. -/
theorem Ticks.starved {k : Nat} {fired : List (EventTimer κ)} {rest : List (EventTimer κ)}
    (h : Ticks env (failing thrown body) k p fired p') (hq : p.rt.queue = t :: rest)
    (hdue : t.expireTime ≤ p.rt.now env) (hlive : t.repeat_ ≠ 0)
    (hfails : thrown t.callback ≠ none) :
    fired = List.replicate k t ∧ p'.rt.queue = t :: rest := by
  induction h with
  | zero p => exact ⟨rfl, hq⟩
  | @succ k p passed e p₁ fired p' htick _ ih =>
      obtain ⟨thrown', p₂, hthrew, hq₂⟩ := tickIter_fails hq hdue hlive hfails
      obtain ⟨rfl, -, rfl⟩ := htick.det (.threw hthrew)
      obtain ⟨rfl, hend⟩ := ih hq₂ (hdue.trans (env.mono htick.readings_le))
      rw [List.flatMap_singleton, firing_eq hq hdue hlive, List.replicate_succ]
      exact ⟨rfl, hend⟩

end failing

/-! ## Two timers -/

/-- The callback `true` throws. -/
def half : Bool → Option Thrown
  | true => some .netLink
  | false => none

/-- A timer that is due, and one that fails in 10 ms: on a clock that stands still the second is
never run. -/
theorem passesOn_of_later :
    ∃ steps p, QueueRuns stillClock (runAct (failing half fun _ _ mem => (0, mem))) steps p ∧
      p.rt.queue.length = 2 ∧
      PassesOn stillClock (failing half fun _ _ (mem : Unit) => (0, mem)) p := by
  have hrun : QueueRuns stillClock (runAct (failing half fun _ _ (mem : Unit) => (0, mem))) _ _ :=
    .add true 10 1 (.add false 0 1 (.start ()))
  refine ⟨_, _, hrun, rfl, (passesOn_iff hrun).mpr fun t ht _ hfails n _ => ?_⟩
  have hlater : 0 < t.expireTime := by
    revert t
    decide
  exact hlater

/-- A timer that throws, and one behind it: the first keeps its firing. -/
theorem not_passesOn :
    ¬ ∀ (env : Env) (thrown : Bool → Option Thrown) (body : Bool → Nat → Unit → Nat × Unit)
      (steps : List (Passage Bool Unit)) (p : Proc Bool Unit),
      QueueRuns env (runAct (failing thrown body)) steps p →
        PassesOn env (failing thrown body) p := by
  intro h
  have hrun : QueueRuns stillClock (runAct (failing half fun _ _ (mem : Unit) => (0, mem))) _ _ :=
    .add false 0 1 (.add true 0 1 (.start ()))
  have hlt := (h _ _ _ _ _ hrun).used (.zero _) (.threw rfl) ⟨1, 1, 0, 0, true⟩ rfl
    ⟨1, 1, 0, 0, true⟩ (by decide) rfl
  exact absurd hlt (by decide)

end CacheSystem

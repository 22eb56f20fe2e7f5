import CacheSystem.QueueOrder

/-!
# Runs of the queue, iteration by iteration

What happens inside a `tick` is a matter of its iterations: which timers are run, and which heap
algorithms are called on what. So a run remembers the states that its steps began in.

* `LoopRuns` : a loop given by its iterations, whether it returns or throws. For `tickIter` it is
  `tick` (`LoopRuns.of_tickLoop`), which always ends when the callbacks leave the queue alone
  (`tick_ends`).
* `LoopRuns.keeps` : the invariant rule.
* `Act`, `runAct` : callbacks that leave the queue alone, and may throw.
* `firing` : the timer that an iteration runs.
* `QueueRuns` : timers are added, deleted and run in any order. Every state of a run has a heap for
  its queue (`QueueRuns.minHeap`).
-/

namespace CacheSystem

variable {κ τ : Type}

/-! ## A loop -/

section Loop

variable {σ : Type} {iter : σ → Iter σ} {s s' : σ} {passed : List σ} {e : Option Thrown}

/-- The loop with these iterations: the states its iterations begin in, what it throws, and the
state it leaves. -/
inductive LoopRuns (iter : σ → Iter σ) : σ → List σ → Option Thrown → σ → Prop
  | done {s s' : σ} : iter s = .done s' → LoopRuns iter s [s] none s'
  | threw {s s' : σ} {e : Thrown} : iter s = .threw e s' → LoopRuns iter s [s] (some e) s'
  | again {s s₁ s' : σ} {passed : List σ} {e : Option Thrown} : iter s = .again s₁ →
      LoopRuns iter s₁ passed e s' → LoopRuns iter s (s :: passed) e s'

/-- A loop ends in one way. -/
theorem LoopRuns.det {passed' : List σ} {e' : Option Thrown} {s'' : σ}
    (h : LoopRuns iter s passed e s') (h' : LoopRuns iter s passed' e' s'') :
    passed = passed' ∧ e = e' ∧ s' = s'' := by
  induction h generalizing passed' with
  | done heq =>
      cases h' with
      | done heq' => simpa using heq.symm.trans heq'
      | threw heq' => cases heq.symm.trans heq'
      | again heq' _ => cases heq.symm.trans heq'
  | threw heq =>
      cases h' with
      | done heq' => cases heq.symm.trans heq'
      | threw heq' => simpa using heq.symm.trans heq'
      | again heq' _ => cases heq.symm.trans heq'
  | again heq _ ih =>
      cases h' with
      | done heq' => cases heq.symm.trans heq'
      | threw heq' => cases heq.symm.trans heq'
      | again heq' hrest =>
          cases heq.symm.trans heq'
          obtain ⟨rfl, rfl, rfl⟩ := ih hrest
          exact ⟨rfl, rfl, rfl⟩

/-- Induction over the iterations, however the last one ends. -/
theorem LoopRuns.induct {P : σ → List σ → σ → Prop} (hlast : ∀ s, P s [s] (iter s).state)
    (hagain : ∀ s passed s', P (iter s).state passed s' → P s (s :: passed) s')
    (h : LoopRuns iter s passed e s') : P s passed s' := by
  induction h with
  | @done s s' heq =>
      have hs := hlast s
      rwa [heq] at hs
  | @threw s s' e heq =>
      have hs := hlast s
      rwa [heq] at hs
  | again heq _ ih =>
      apply hagain
      rwa [heq]

/-- **The invariant rule**: what every iteration keeps holds wherever an iteration begins, and in
the end. -/
theorem LoopRuns.keeps {P : σ → Prop} (hiter : ∀ s, P s → P (iter s).state)
    (h : LoopRuns iter s passed e s') (hs : P s) : (∀ q ∈ passed, P q) ∧ P s' := by
  revert hs
  apply h.induct (P := fun s passed s' => P s → (∀ q ∈ passed, P q) ∧ P s')
  · intro s hs
    exact ⟨List.forall_mem_singleton.mpr hs, hiter s hs⟩
  · intro s passed s' ih hs
    obtain ⟨hpassed, hend⟩ := ih (hiter s hs)
    exact ⟨List.forall_mem_cons.mpr ⟨hs, hpassed⟩, hend⟩

/-- What was thrown was thrown by the last iteration. -/
theorem LoopRuns.of_threw {thrown : Thrown} (h : LoopRuns iter s passed (some thrown) s') :
    ∃ init q, passed = init ++ [q] ∧ iter q = .threw thrown s' := by
  generalize he : some thrown = e at h
  induction h with
  | done heq => cases he
  | @threw s s' e heq =>
      cases he
      exact ⟨[], s, rfl, heq⟩
  | @again s s₁ s' passed e heq _ ih =>
      obtain ⟨init, q, rfl, hq⟩ := ih he
      exact ⟨s :: init, q, rfl, hq⟩

end Loop

section Tick

variable {env : Env} {run : κ → Proc κ τ → Option Thrown × Proc κ τ} {p p' : Proc κ τ}
  {passed : List (Proc κ τ)} {e : Option Thrown}

/-- A `tick` that ends is a run of the loop. -/
theorem LoopRuns.of_tickLoop {fuel : Nat} (h : tickLoop env run fuel p = some (e, p')) :
    ∃ passed, LoopRuns (tickIter env run) p passed e p' := by
  induction fuel generalizing p with
  | zero => cases h
  | succ fuel ih =>
      unfold CacheSystem.tickLoop at h
      split at h
      · rename_i p₁ heq
        cases h
        exact ⟨_, .done heq⟩
      · rename_i thrown p₁ heq
        cases h
        exact ⟨_, .threw heq⟩
      · rename_i p₁ heq
        obtain ⟨passed, hrest⟩ := ih h
        exact ⟨_, .again heq hrest⟩

/-- A run of the loop is a `tick` that ends. -/
theorem LoopRuns.tickLoop (h : LoopRuns (tickIter env run) p passed e p') :
    ∃ fuel, tickLoop env run fuel p = some (e, p') := by
  induction h with
  | done heq => exact ⟨1, by simp only [CacheSystem.tickLoop, heq]⟩
  | threw heq => exact ⟨1, by simp only [CacheSystem.tickLoop, heq]⟩
  | again heq _ ih =>
      obtain ⟨fuel, hfuel⟩ := ih
      exact ⟨fuel + 1, by simp only [CacheSystem.tickLoop, heq, hfuel]⟩

/-- The queue is a heap throughout a `tick`. -/
theorem LoopRuns.minHeap (hrun : KeepsHeap run) (hheap : MinHeap p.rt.queue)
    (h : LoopRuns (tickIter env run) p passed e p') :
    (∀ q ∈ passed, MinHeap q.rt.queue) ∧ MinHeap p'.rt.queue :=
  h.keeps (P := fun q => MinHeap q.rt.queue) (fun _ hq => hq.tickIter env hrun) hheap

/-- What a `tick` that returns leaves expires after its last reading. -/
theorem LoopRuns.returned (hrun : KeepsHeap run) (hheap : MinHeap p.rt.queue)
    (h : LoopRuns (tickIter env run) p passed none p') :
    ∀ t ∈ p'.rt.queue, env.reading (p'.rt.readings - 1) < t.expireTime := by
  obtain ⟨fuel, htick⟩ := h.tickLoop
  exact tickLoop_returned hrun hheap htick

/-- Every `tick` ends. -/
theorem tick_ends (env : Env) (hrun : LeavesQueue run) (p : Proc κ τ) :
    ∃ passed e p', LoopRuns (tickIter env run) p passed e p' := by
  obtain ⟨⟨e, p'⟩, htick⟩ := tickLoop_terminates env hrun p
  obtain ⟨passed, h⟩ := LoopRuns.of_tickLoop htick
  exact ⟨passed, e, p', h⟩

/-- The timer that an iteration runs: slot 0, when it is due and live. -/
def firing (env : Env) (p : Proc κ τ) : List (EventTimer κ) :=
  p.rt.queue.head?.toList.filter fun t => t.expireTime ≤ p.rt.now env ∧ t.repeat_ ≠ 0

/-- A live timer that is due on top is the one that fires. -/
theorem firing_eq {t : EventTimer κ} {rest : List (EventTimer κ)} (hq : p.rt.queue = t :: rest)
    (hdue : t.expireTime ≤ p.rt.now env) (h0 : t.repeat_ ≠ 0) : firing env p = [t] := by
  simp [firing, hq, hdue, h0]

end Tick

/-! ## Callbacks -/

/-- What callbacks do: given how much of the clock was used and the rest of the process, what they
throw, how many readings they take and what they leave. -/
abbrev Act (κ τ : Type) := κ → Nat → τ → Option Thrown × Nat × τ

/-- A callback runs. -/
def runAct (act : Act κ τ) (callback : κ) (p : Proc κ τ) : Option Thrown × Proc κ τ :=
  let r := act callback p.rt.readings p.mem
  (r.1, ⟨{ p.rt with readings := p.rt.readings + r.2.1 }, r.2.2⟩)

section runAct

variable {env : Env} {act : Act κ τ} {p p' : Proc κ τ} {passed : List (Proc κ τ)}
  {e : Option Thrown}

/-- Such callbacks leave the queue alone. -/
theorem runAct_leavesQueue : LeavesQueue (runAct act) := fun _ _ => rfl

/-- What such a callback does to the clock and to the memory. -/
theorem runAct_eq {callback : κ} {p : Proc κ τ} {e : Option Thrown} {readings : Nat} {mem : τ}
    (h : act callback p.rt.readings p.mem = (e, readings, mem)) :
    runAct act callback p =
      (e, ⟨{ p.rt with readings := p.rt.readings + readings }, mem⟩) := by
  simp only [runAct, h]

/-- What ran before an iteration went on or left. -/
theorem readings_lt_of_ran {callback : κ} {r : Option Thrown × Proc κ τ}
    (h : runAct act callback { p with rt := p.rt.readClock.lock } = r) :
    p.rt.readings < r.2.rt.readings := by
  rw [← h]
  exact Nat.lt_of_lt_of_le (Nat.lt_succ_self _) (Nat.le_add_right _ _)

/-- An iteration reads the clock, unless the queue is empty. -/
theorem tickIter_readings_lt (hq : p.rt.queue ≠ []) :
    p.rt.readings < (tickIter env (runAct act) p).state.rt.readings := by
  have hspec := tickIter_spec env (runAct act) p
  generalize tickIter env (runAct act) p = r at hspec
  cases hspec with
  | empty hnil => exact absurd hnil hq
  | notDue _ _ => exact Nat.lt_succ_self _
  | dead _ _ _ _ => exact Nat.lt_succ_self _
  | threw _ _ _ hran => exact readings_lt_of_ran hran
  | fired _ _ _ hran =>
      exact Nat.lt_of_lt_of_le (readings_lt_of_ran hran) (settled_readings_le env _)

/-- The clock is read on. -/
theorem tickIter_readings_le (p : Proc κ τ) :
    p.rt.readings ≤ (tickIter env (runAct act) p).state.rt.readings := by
  by_cases hq : p.rt.queue = []
  · unfold tickIter
    rw [hq]
    exact le_rfl
  · exact (tickIter_readings_lt hq).le

/-- `tick` does not turn the clock back. -/
theorem LoopRuns.readings_le (h : LoopRuns (tickIter env (runAct act)) p passed e p') :
    p.rt.readings ≤ p'.rt.readings :=
  (h.keeps (P := fun q => p.rt.readings ≤ q.rt.readings)
    (fun _ hq => hq.trans (tickIter_readings_le _)) le_rfl).2

/-- `tick` reads the clock, unless the queue is empty. -/
theorem LoopRuns.readings_lt (h : LoopRuns (tickIter env (runAct act)) p passed e p')
    (hq : p.rt.queue ≠ []) : p.rt.readings < p'.rt.readings := by
  have hlt : p.rt.readings < (tickIter env (runAct act) p).state.rt.readings :=
    tickIter_readings_lt hq
  cases h with
  | done heq => rwa [heq] at hlt
  | threw heq => rwa [heq] at hlt
  | again heq hrest =>
      rw [heq] at hlt
      exact hlt.trans_le hrest.readings_le

/-- A live timer stays as it is, unless it is run and its callback returns. -/
theorem tickIter_keeps_or_runs {t : EventTimer κ} (ht : t ∈ p.rt.queue) (hlive : t.repeat_ ≠ 0) :
    t ∈ (tickIter env (runAct act) p).state.rt.queue ∨ firing env p = [t] ∧
      (runAct act t.callback { p with rt := p.rt.readClock.lock }).1 = none := by
  have hspec := tickIter_spec env (runAct act) p
  generalize tickIter env (runAct act) p = r at hspec
  cases hspec with
  | empty _ => exact Or.inl ht
  | notDue _ _ => exact Or.inl ht
  | dead hq _ h0 hperm =>
      rw [hq] at ht
      rcases List.mem_cons.mp ht with rfl | ht
      · exact absurd h0 hlive
      · exact Or.inl (hperm.mem_iff.mpr ht)
  | threw _ _ _ hran =>
      left
      rw [← runAct_leavesQueue.ran hran] at ht
      exact ht
  | fired hq hdue h0 hran =>
      rw [hq] at ht
      rcases List.mem_cons.mp ht with rfl | ht
      · right
        rw [hran]
        exact ⟨firing_eq hq hdue h0, rfl⟩
      · left
        exact mem_settled_of_mem env ((runAct_leavesQueue.ran hran).trans hq) ht

/-- A live timer is run, or stays as it is. -/
theorem tickIter_fires_or_keeps {t : EventTimer κ} (ht : t ∈ p.rt.queue) (hlive : t.repeat_ ≠ 0) :
    t ∈ firing env p ∨ t ∈ (tickIter env (runAct act) p).state.rt.queue := by
  rcases tickIter_keeps_or_runs ht hlive with hkeeps | ⟨hfires, -⟩
  · exact Or.inr hkeeps
  · left
    rw [hfires]
    exact List.mem_singleton_self t

/-- Over a whole `tick`. -/
theorem LoopRuns.fires_or_keeps (h : LoopRuns (tickIter env (runAct act)) p passed e p')
    {t : EventTimer κ} (ht : t ∈ p.rt.queue) (hlive : t.repeat_ ≠ 0) :
    t ∈ passed.flatMap (firing env) ∨ t ∈ p'.rt.queue := by
  revert ht
  apply h.induct (P := fun p passed p' =>
    t ∈ p.rt.queue → t ∈ passed.flatMap (firing env) ∨ t ∈ p'.rt.queue)
  · intro p ht
    rw [List.flatMap_singleton]
    exact tickIter_fires_or_keeps ht hlive
  · intro p passed p' ih ht
    rw [List.flatMap_cons, List.mem_append]
    rcases tickIter_fires_or_keeps ht hlive with hfires | hkeeps
    · exact Or.inl (Or.inl hfires)
    · exact (ih hkeeps).imp_left Or.inr

end runAct

/-! ## Runs -/

/-- A step of a run. -/
inductive QueueCall (κ : Type)
  | addTimer (callback : κ) (timeoutMs repeat_ : UInt32)
  | delTimer (timerId : Nat)
  /-- An iteration of `tick`. -/
  | iteration
  deriving DecidableEq

/-- A step and the state it began in. -/
structure Passage (κ τ : Type) where
  state : Proc κ τ
  call : QueueCall κ

/-- The runs of the queue: the steps passed, and the state reached. -/
inductive QueueRuns (env : Env) (run : κ → Proc κ τ → Option Thrown × Proc κ τ) :
    List (Passage κ τ) → Proc κ τ → Prop
  | start (mem : τ) : QueueRuns env run [] ⟨{}, mem⟩
  | add {passed p} (callback : κ) (timeoutMs repeat_ : UInt32) : QueueRuns env run passed p →
      QueueRuns env run (passed ++ [⟨p, .addTimer callback timeoutMs repeat_⟩])
        ⟨(addTimer env callback timeoutMs repeat_ p.rt).2, p.mem⟩
  | del {passed p} (timerId : Nat) : QueueRuns env run passed p →
      QueueRuns env run (passed ++ [⟨p, .delTimer timerId⟩]) ⟨delTimer timerId p.rt, p.mem⟩
  | tick {passed p states e p'} : QueueRuns env run passed p →
      LoopRuns (tickIter env run) p states e p' →
      QueueRuns env run (passed ++ states.map fun q => ⟨q, .iteration⟩) p'
  /-- The rest of the process goes on, and reads the clock. -/
  | other {passed p} (readings : Nat) (mem : τ) : QueueRuns env run passed p →
      QueueRuns env run passed ⟨{ p.rt with readings := p.rt.readings + readings }, mem⟩

variable {env : Env} {run : κ → Proc κ τ → Option Thrown × Proc κ τ}
  {passed : List (Passage κ τ)} {p : Proc κ τ}

/-- `add_timer` keeps the heap. -/
theorem MinHeap.addTimer {rt : Runtime κ} (h : MinHeap rt.queue) (callback : κ)
    (timeoutMs repeat_ : UInt32) :
    MinHeap (addTimer env callback timeoutMs repeat_ rt).2.queue := by
  unfold CacheSystem.addTimer
  split
  · exact h
  · exact h.pushTimer callback timeoutMs repeat_

/-- **The queue is a heap in every state of a run**, the states inside `tick` included. -/
theorem QueueRuns.minHeap (hrun : KeepsHeap run) (h : QueueRuns env run passed p) :
    (∀ step ∈ passed, MinHeap step.state.rt.queue) ∧ MinHeap p.rt.queue := by
  induction h with
  | start mem =>
      exact ⟨fun step hstep => (nomatch hstep), minHeap_nil⟩
  | add callback timeoutMs repeat_ _ ih =>
      obtain ⟨hpassed, hheap⟩ := ih
      refine ⟨?_, hheap.addTimer callback timeoutMs repeat_⟩
      simpa [or_imp, forall_and] using ⟨hpassed, hheap⟩
  | del timerId _ ih =>
      obtain ⟨hpassed, hheap⟩ := ih
      refine ⟨?_, hheap.delTimer timerId⟩
      simpa [or_imp, forall_and] using ⟨hpassed, hheap⟩
  | tick _ htick ih =>
      obtain ⟨hpassed, hheap⟩ := ih
      obtain ⟨hstates, hend⟩ := htick.minHeap hrun hheap
      refine ⟨?_, hend⟩
      simpa [or_imp, forall_and] using ⟨hpassed, hstates⟩
  | other readings mem _ ih => exact ih

end CacheSystem

import CacheSystem.TickRuns

/-!
# The calls of the heap algorithms (`timer_queue.cc`)

`std::push_heap` wants a heap in front of the last element of its range, and `std::pop_heap` wants a
heap. `add_timer` and the removal of a timer give them that. The re-arming does not: `tick` gives
slot 0 its new `expire_time_` first and calls `pop_heap` after that.

* `HeapCall`, `HeapCall.Valid` : a call, and what the algorithm requires of it.
* `addTimerCalls`, `settleCalls`, `iterationCalls` : the calls that the source makes, each on the
  range that the one before it left (`addTimer_queue`, `settleFront_queue`).
* `RearmsFirst` : a timer that is re-armed expires no later than any other one.
* `heapCalls_valid_iff` : all calls of a run are valid exactly where every iteration is like that.
-/

namespace CacheSystem

open CacheSystem.Lib.Heap

variable {κ τ : Type}

/-! ## Calls -/

/-- A call of a heap algorithm, with its range. -/
inductive HeapCall (κ : Type)
  | pushHeap (range : List (EventTimer κ))
  | popHeap (range : List (EventTimer κ))
  deriving DecidableEq

/-- What the call leaves in its range. -/
def HeapCall.result : HeapCall κ → List (EventTimer κ)
  | .pushHeap range => Lib.Heap.pushHeap timerCompare range
  | .popHeap range => Lib.Heap.popHeap timerCompare range

/-- The preconditions of the algorithms. -/
def HeapCall.Valid : HeapCall κ → Prop
  | .pushHeap range => range ≠ [] ∧ IsHeap timerCompare range.dropLast
  | .popHeap range => range ≠ [] ∧ IsHeap timerCompare range

/-- The calls of `add_timer`. -/
def addTimerCalls (env : Env) (callback : κ) (timeoutMs repeat_ : UInt32) (rt : Runtime κ) :
    List (HeapCall κ) :=
  if repeat_ = 0 then []
  else [.pushHeap (rt.queue ++ [newTimer env callback timeoutMs repeat_ rt])]

/-- The calls at the end of an iteration of `tick`. -/
def settleCalls (env : Env) (rt : Runtime κ) : List (HeapCall κ) :=
  match rt.queue with
  | [] => []
  | timer :: rest =>
      if timer.repeat_ = 0 then [.popHeap rt.queue]
      else
        let range := { timer with expireTime := (getTimeStamp env timer.timeoutMs rt).1 } :: rest
        [.popHeap range, .pushHeap (HeapCall.popHeap range).result]

/-- The calls of an iteration of `tick`. -/
def iterationCalls (env : Env) (run : κ → Proc κ τ → Option Thrown × Proc κ τ) (p : Proc κ τ) :
    List (HeapCall κ) :=
  match p.rt.queue with
  | [] => []
  | timer :: _ =>
      if p.rt.now env < timer.expireTime then []
      else if timer.repeat_ = 0 then settleCalls env p.rt.readClock.lock
      else
        match run timer.callback { p with rt := p.rt.readClock.lock } with
        | (some _, _) => []
        | (none, p) => settleCalls env (decrementFront p.rt)

/-- The calls of a step. -/
def Passage.heapCalls (env : Env) (run : κ → Proc κ τ → Option Thrown × Proc κ τ)
    (step : Passage κ τ) : List (HeapCall κ) :=
  match step.call with
  | .addTimer callback timeoutMs repeat_ =>
      addTimerCalls env callback timeoutMs repeat_ step.state.rt
  | .delTimer _ => []
  | .iteration => iterationCalls env run step.state

/-- The calls of a run. -/
def heapCalls (env : Env) (run : κ → Proc κ τ → Option Thrown × Proc κ τ)
    (passed : List (Passage κ τ)) : List (HeapCall κ) :=
  passed.flatMap (Passage.heapCalls env run)

/-- The queue that the last of some calls leaves. -/
def leftBy (calls : List (HeapCall κ)) : List (EventTimer κ) :=
  (calls.getLast?.map HeapCall.result).getD []

/-- `add_timer` leaves what its call leaves. -/
theorem addTimer_queue (env : Env) (callback : κ) {timeoutMs repeat_ : UInt32} (rt : Runtime κ)
    (h : repeat_ ≠ 0) :
    (addTimer env callback timeoutMs repeat_ rt).2.queue =
      leftBy (addTimerCalls env callback timeoutMs repeat_ rt) := by
  rw [addTimer_of_ne_zero h, addTimerCalls, if_neg h]
  rfl

/-- The end of an iteration leaves what its last call leaves, without the last element where the
timer has no firing left. -/
theorem settleFront_queue (env : Env) {rt : Runtime κ} {t : EventTimer κ}
    {rest : List (EventTimer κ)} (hq : rt.queue = t :: rest) :
    (settleFront env rt).queue =
      if t.repeat_ = 0 then (leftBy (settleCalls env rt)).dropLast
      else leftBy (settleCalls env rt) := by
  unfold settleFront settleCalls
  rw [hq]
  dsimp only
  split <;> rfl

/-! ## Which calls are valid -/

variable {env : Env} {act : Act κ τ}

/-- Where the iteration re-arms slot 0, the new expire time is not after that of another timer. -/
def RearmsFirst (env : Env) (act : Act κ τ) (p : Proc κ τ) : Prop :=
  ∀ t rest readings mem, p.rt.queue = t :: rest → t.expireTime ≤ p.rt.now env → t.repeat_ ≠ 0 →
    t.repeat_ ≠ 1 → act t.callback (p.rt.readings + 1) p.mem = (none, readings, mem) →
      ∀ t' ∈ rest, env.reading (p.rt.readings + 1 + readings) + t.timeoutMs.toNat ≤ t'.expireTime

/-- `push_heap` is called by `add_timer` as it should be. -/
theorem addTimerCalls_valid {rt : Runtime κ} (h : MinHeap rt.queue) (callback : κ)
    (timeoutMs repeat_ : UInt32) :
    ∀ call ∈ addTimerCalls env callback timeoutMs repeat_ rt, call.Valid := by
  unfold addTimerCalls
  split
  · exact fun call hcall => (nomatch hcall)
  · intro call hcall
    rw [List.mem_singleton.mp hcall]
    constructor
    · exact List.concat_ne_nil _ _
    · rw [List.dropLast_concat]
      exact minHeap_iff.mp h

/-- After `pop_heap`, `push_heap` is called as it should be, whatever the front was. -/
theorem pushHeap_valid {t : EventTimer κ} {rest : List (EventTimer κ)}
    (h : DownOrder timerCompare (t :: rest) 0) :
    (HeapCall.pushHeap (HeapCall.popHeap (t :: rest)).result).Valid := by
  obtain ⟨l, hl, -, hpopped⟩ := popHeap_isHeap timerCompare_compare h
  have hleft : (HeapCall.popHeap (t :: rest)).result = l ++ [t] := hl
  rw [hleft]
  constructor
  · exact List.concat_ne_nil _ _
  · rw [List.dropLast_concat]
    exact hpopped

/-- `pop_heap` is called as it should be exactly where slot 0 still expires first. -/
theorem popHeap_valid_iff {t : EventTimer κ} {rest : List (EventTimer κ)}
    (h : DownOrder timerCompare (t :: rest) 0) :
    (HeapCall.popHeap (t :: rest)).Valid ↔ ∀ t' ∈ rest, t.expireTime ≤ t'.expireTime := by
  refine (and_iff_right (List.cons_ne_nil _ _)).trans ?_
  refine (h.isHeap_iff timerCompare_compare).trans ?_
  simp only [timerCompare_eq_false]

/-- **The calls at the end of an iteration are valid** unless slot 0 is re-armed past another
timer. -/
theorem settleCalls_valid_iff {rt : Runtime κ} (h : MinHeap rt.queue) {t : EventTimer κ}
    {rest : List (EventTimer κ)} (hq : rt.queue = t :: rest) :
    (∀ call ∈ settleCalls env rt, call.Valid) ↔
      (t.repeat_ ≠ 0 → ∀ t' ∈ rest, rt.now env + t.timeoutMs.toNat ≤ t'.expireTime) := by
  rw [hq] at h
  have hheap := minHeap_iff.mp h
  unfold settleCalls
  rw [hq]
  dsimp only
  split
  · rename_i h0
    have hpop : (HeapCall.popHeap (t :: rest)).Valid := ⟨List.cons_ne_nil _ _, hheap⟩
    simp [hpop, h0]
  · rename_i h0
    have hdown := hheap.downOrder_front
      { t with expireTime := (getTimeStamp env t.timeoutMs rt).1 }
    have hpush := pushHeap_valid hdown
    have hpop := popHeap_valid_iff hdown
    simp only [List.forall_mem_cons, hpush, hpop, h0, ne_eq, not_false_eq_true, forall_const,
      List.not_mem_nil, IsEmpty.forall_iff, implies_true, and_true]
    rfl

/-- The same, where slot 0 has just fired. -/
theorem decrementedCalls_valid_iff {rt : Runtime κ} (h : MinHeap rt.queue) {t : EventTimer κ}
    {rest : List (EventTimer κ)} (hq : rt.queue = t :: rest) :
    (∀ call ∈ settleCalls env (decrementFront rt), call.Valid) ↔
      (t.repeat_ ≠ 1 → ∀ t' ∈ rest, rt.now env + t.timeoutMs.toNat ≤ t'.expireTime) := by
  have hq' : (decrementFront rt).queue = { t with repeat_ := t.repeat_ - 1 } :: rest := by
    simp only [decrementFront, hq]
  have hone : t.repeat_ - 1 ≠ 0 ↔ t.repeat_ ≠ 1 := by
    rw [ne_eq, UInt32.sub_eq_iff_eq_add, UInt32.zero_add]
  rw [settleCalls_valid_iff h.decrementFront hq', Runtime.now, decrementFront_readings]
  exact imp_congr hone Iff.rfl

section iteration

variable {p : Proc κ τ} {t : EventTimer κ} {rest : List (EventTimer κ)}

/-- An iteration that re-arms nothing is as it should be. -/
theorem rearmsFirst_of_not (hq : p.rt.queue = t :: rest)
    (h : p.rt.now env < t.expireTime ∨ t.repeat_ = 0 ∨
      ∃ e, (act t.callback (p.rt.readings + 1) p.mem).1 = some e) : RearmsFirst env act p := by
  intro t' rest' readings mem hq' hdue h0 _ hact
  obtain ⟨rfl, rfl⟩ : t = t' ∧ rest = rest' := List.cons.inj (hq.symm.trans hq')
  rcases h with hlt | hdead | ⟨e, hthrew⟩
  · exact absurd hdue (not_le.mpr hlt)
  · exact absurd hdead h0
  · rw [hact] at hthrew
    cases hthrew

/-- What is asked of an iteration whose callback returned. -/
theorem rearmsFirst_iff {readings : Nat} {mem : τ} (hq : p.rt.queue = t :: rest)
    (hdue : t.expireTime ≤ p.rt.now env) (h0 : t.repeat_ ≠ 0)
    (hact : act t.callback (p.rt.readings + 1) p.mem = (none, readings, mem)) :
    RearmsFirst env act p ↔ (t.repeat_ ≠ 1 → ∀ t' ∈ rest,
      env.reading (p.rt.readings + 1 + readings) + t.timeoutMs.toNat ≤ t'.expireTime) := by
  constructor
  · intro h h1
    exact h t rest readings mem hq hdue h0 h1 hact
  · intro h t' rest' readings' mem' hq' _ _ h1 hact'
    obtain ⟨rfl, rfl⟩ : t = t' ∧ rest = rest' := List.cons.inj (hq.symm.trans hq')
    cases hact.symm.trans hact'
    exact h h1

/-- **The calls of an iteration are valid** exactly where it re-arms as it should. -/
theorem iterationCalls_valid_iff (h : MinHeap p.rt.queue) :
    (∀ call ∈ iterationCalls env (runAct act) p, call.Valid) ↔ RearmsFirst env act p := by
  have hnone {P : Prop} (hp : P) : (∀ call ∈ ([] : List (HeapCall κ)), call.Valid) ↔ P :=
    iff_of_true (fun call hcall => (nomatch hcall)) hp
  unfold iterationCalls
  split
  · rename_i hq
    exact hnone fun t rest _ _ hq' => absurd (hq.symm.trans hq') (List.cons_ne_nil _ _).symm
  · rename_i t rest hq
    split
    · rename_i hdue
      exact hnone (rearmsFirst_of_not hq (Or.inl hdue))
    · rename_i hdue
      split
      · rename_i h0
        refine iff_of_true ?_ (rearmsFirst_of_not hq (Or.inr (Or.inl h0)))
        have hlocked : MinHeap p.rt.readClock.lock.queue := h
        exact (settleCalls_valid_iff hlocked hq).mpr (absurd h0)
      · rename_i h0
        rcases hact : act t.callback (p.rt.readings + 1) p.mem with ⟨_ | e, readings, mem⟩
        · rw [rearmsFirst_iff hq (not_lt.mp hdue) h0 hact,
            runAct_eq (p := { p with rt := p.rt.readClock.lock }) hact]
          have hran : MinHeap ({ p.rt.readClock.lock with
              readings := p.rt.readings + 1 + readings } : Runtime κ).queue := h
          exact decrementedCalls_valid_iff hran hq
        · rw [runAct_eq (p := { p with rt := p.rt.readClock.lock }) hact]
          exact hnone (rearmsFirst_of_not hq (Or.inr (Or.inr ⟨e, by rw [hact]⟩)))

end iteration

/-! ## Runs -/

/-- **The heap algorithms are called as they should be** exactly where every iteration of the run
that re-arms a timer gives it an expire time that is not after another timer's. -/
theorem heapCalls_valid_iff {passed : List (Passage κ τ)} {p : Proc κ τ}
    (h : QueueRuns env (runAct act) passed p) :
    (∀ call ∈ heapCalls env (runAct act) passed, call.Valid) ↔
      ∀ step ∈ passed, step.call = .iteration → RearmsFirst env act step.state := by
  obtain ⟨hheap, -⟩ := h.minHeap runAct_leavesQueue.keepsHeap
  have hstep (step : Passage κ τ) (hmem : step ∈ passed) :
      (∀ call ∈ step.heapCalls env (runAct act), call.Valid) ↔
        (step.call = .iteration → RearmsFirst env act step.state) := by
    unfold Passage.heapCalls
    split
    · rename_i callback timeoutMs repeat_ hcall
      refine iff_of_true (addTimerCalls_valid (hheap step hmem) callback timeoutMs repeat_) ?_
      simp [hcall]
    · rename_i timerId hcall
      simp [hcall]
    · rename_i hcall
      rw [iterationCalls_valid_iff (hheap step hmem), hcall]
      constructor
      · exact fun hre _ => hre
      · exact fun hre => hre rfl
  unfold heapCalls
  rw [List.forall_mem_flatMap]
  exact forall₂_congr hstep

/-- Callbacks that do nothing. -/
def idle : Act Unit Unit := fun _ _ mem => (none, 0, mem)

/-- A timer that is alone is re-armed as it should be. -/
theorem heapCalls_valid_alone :
    ∃ passed, (heapCalls (jumpClock 1 15) (runAct idle) passed).length = 3 ∧
      ∀ call ∈ heapCalls (jumpClock 1 15) (runAct idle) passed, call.Valid := by
  have hrun : QueueRuns (jumpClock 1 15) (runAct idle) _ _ :=
    .tick (.add () 10 2 (.start ())) (.again rfl (.done rfl))
  refine ⟨_, ?_, (heapCalls_valid_iff hrun).mpr fun step hstep _ => ?_⟩
  · decide
  · have halone : step.state.rt.queue.length ≤ 1 := by
      revert step
      decide
    intro t rest _ _ hq
    rw [hq, List.length_cons] at halone
    rw [List.length_eq_zero_iff.mp (Nat.le_zero.mp (Nat.le_of_succ_le_succ halone))]
    exact fun _ _ _ _ t' ht' => (nomatch ht')

/-- A timer with 10 ms and two firings, and one with 20 ms: at 15 the first one is re-armed to 25
while it is still in front of the second. -/
theorem not_heapCalls_valid :
    ¬ ∀ (env : Env) (act : Act Unit Unit) (passed : List (Passage Unit Unit))
      (p : Proc Unit Unit), QueueRuns env (runAct act) passed p →
        ∀ call ∈ heapCalls env (runAct act) passed, call.Valid := by
  intro h
  have hrun : QueueRuns (jumpClock 2 15) (runAct idle) _ _ :=
    .tick (.add () 20 1 (.add () 10 2 (.start ()))) (.again rfl (.done rfl))
  have hvalid : (HeapCall.popHeap
      [⟨1, 1, 10, 25, ()⟩, ⟨2, 1, 20, 20, ()⟩] : HeapCall Unit).Valid := by
    refine h _ _ _ _ hrun _ ?_
    decide
  exact absurd (hvalid.2 1 (by decide) _ _ rfl rfl) (by decide)

end CacheSystem

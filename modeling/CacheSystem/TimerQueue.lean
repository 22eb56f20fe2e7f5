import CacheSystem.Common
import CacheSystem.Lib.Heap

/-!
# The timer queue (`timer_queue.h`, `timer_queue.cc`)

The queue is generic in its callbacks: `κ` names what a `TimerCallHandler` was made from (the
objects a lambda or a `std::bind` captured), and a function `run` says what calling it does. The
rest of the process is a state `τ` that only callbacks touch.

* `EventTimer`, `Runtime`, `Proc` : a timer, the queue with the clock and the allocator under it,
  and the queue together with the rest of the process.
* `getTimeStamp`, `addTimer`, `delTimer`, `tick` : the operations.
* `Runtime.locked` is the state of `mutex_`. Acquiring it always succeeds, and `Runtime.relocked`
  records that it was once acquired while it was held: a `std::mutex` would have blocked there
  for good, so a run of the program with `relocked = false` is one that never blocked on itself.
* `tickIter` : one iteration of `tick`'s loop, with `timer` read as slot 0 of the current vector
  (the reference is taken once, before the loop). `tickLoop fuel` is the loop; it answers `none`
  when `fuel` iterations did not end it.

`tickIter_spec` says all that an iteration can do; `tickLoop_last` says how the loop ends, and
`tickLoop_keeps` carries an invariant of the iterations to the whole of `tick`.
-/

namespace CacheSystem

open CacheSystem.Lib.Heap

/-! ## Timers and the queue -/

/-- Source: `timer_queue.h`, `TimerQueue::EventTimer`; `timerId` is the object's address. -/
structure EventTimer (κ : Type) where
  timerId : Nat
  repeat_ : UInt32
  timeoutMs : UInt32
  expireTime : Int
  callback : κ
  deriving DecidableEq, Repr

/-- The static `TimerQueue::queue_`, with how much of the clock and of the allocator was used. -/
structure Runtime (κ : Type) where
  /-- Clock readings taken so far. -/
  readings : Nat := 0
  /-- Timers allocated so far. -/
  allocations : Nat := 0
  /-- `timer_queue_`. -/
  queue : List (EventTimer κ) := []
  /-- `mutex_` is held. -/
  locked : Bool := false
  /-- `mutex_` was acquired while it was held. -/
  relocked : Bool := false

/-- The queue and the rest of the process. -/
structure Proc (κ τ : Type) where
  rt : Runtime κ
  mem : τ

variable {κ τ : Type}

/-- Source: `timer_queue.h`, `TimerCompare`: the earliest `expire_time_` comes to the front. -/
def timerCompare (t₁ t₂ : EventTimer κ) : Bool := decide (t₂.expireTime < t₁.expireTime)

/-- The next reading of the clock. -/
def Runtime.now (env : Env) (rt : Runtime κ) : Int := env.reading rt.readings

/-- One reading of the clock. -/
def Runtime.readClock (rt : Runtime κ) : Runtime κ := { rt with readings := rt.readings + 1 }

/-- `std::lock_guard` on `mutex_`. -/
def Runtime.lock (rt : Runtime κ) : Runtime κ :=
  { rt with locked := true, relocked := rt.relocked || rt.locked }

/-- The end of a `std::lock_guard`'s scope: back to `held`, the state before it. -/
def Runtime.unlock (held : Bool) (rt : Runtime κ) : Runtime κ := { rt with locked := held }

/-- Source: `common.h`, `get_time_stamp`. -/
def getTimeStamp (env : Env) (milliseconds : UInt32) (rt : Runtime κ) : Int × Runtime κ :=
  (rt.now env + milliseconds.toNat, rt.readClock)

/-! ## `add_timer` and `del_timer` -/

/-- The object `std::make_unique<EventTimer>` builds. -/
def newTimer (env : Env) (callback : κ) (timeoutMs repeat_ : UInt32) (rt : Runtime κ) :
    EventTimer κ where
  timerId := env.pick rt.allocations (rt.queue.map EventTimer.timerId)
  repeat_ := repeat_
  timeoutMs := timeoutMs
  expireTime := rt.now env + timeoutMs.toNat
  callback := callback

/-- `add_timer` after the check of its argument: allocate, append, sift up, return the id. -/
def pushTimer (env : Env) (callback : κ) (timeoutMs repeat_ : UInt32) (rt : Runtime κ) :
    Nat × Runtime κ :=
  let timer := newTimer env callback timeoutMs repeat_ rt
  let rt' := rt.lock
  (timer.timerId,
    { rt'.readClock with
        allocations := rt'.allocations + 1
        queue := pushHeap timerCompare (rt'.queue ++ [timer]) }.unlock rt.locked)

/-- Source: `timer_queue.cc`, `TimerQueue::add_timer`. -/
def addTimer (env : Env) (callback : κ) (timeoutMs repeat_ : UInt32) (rt : Runtime κ) :
    Except Thrown Nat × Runtime κ :=
  if repeat_ = 0 then (.error (.csn .kErrorIllArgument "error timer repeat count"), rt)
  else
    let r := pushTimer env callback timeoutMs repeat_ rt
    (.ok r.1, r.2)

/-- With a repeat count, as every caller has one, `add_timer` does not throw. -/
theorem addTimer_of_ne_zero {env : Env} {callback : κ} {timeoutMs repeat_ : UInt32}
    {rt : Runtime κ} (h : repeat_ ≠ 0) :
    addTimer env callback timeoutMs repeat_ rt =
      (.ok (pushTimer env callback timeoutMs repeat_ rt).1,
        (pushTimer env callback timeoutMs repeat_ rt).2) :=
  if_neg h

/-- The timer made unavailable when its id is `timerId`. -/
def EventTimer.cancel (timerId : Nat) (t : EventTimer κ) : EventTimer κ :=
  if t.timerId = timerId then { t with repeat_ := 0 } else t

/-- Source: `timer_queue.cc`, `TimerQueue::del_timer`: every timer with this id is made
unavailable; `tick` removes it later. -/
def delTimer (timerId : Nat) (rt : Runtime κ) : Runtime κ :=
  { rt.lock with queue := rt.queue.map (EventTimer.cancel timerId) }.unlock rt.locked

/-! ## `tick` -/

/-- How an iteration of `tick`'s loop ends. -/
inductive Iter (σ : Type)
  | again (s : σ)
  | done (s : σ)
  | threw (e : Thrown) (s : σ)

/-- The state an iteration leaves. -/
def Iter.state {σ : Type} : Iter σ → σ
  | .again s => s
  | .done s => s
  | .threw _ s => s

/-- `timer->repeat_--` on slot 0, modulo `2 ^ 32`. -/
def decrementFront (rt : Runtime κ) : Runtime κ :=
  match rt.queue with
  | [] => rt
  | timer :: rest => { rt with queue := { timer with repeat_ := timer.repeat_ - 1 } :: rest }

/-- The end of an iteration: slot 0 leaves the heap when it has no firing left, and is re-armed
otherwise. Source: `timer_queue.cc`, `TimerQueue::tick`, from `if (!timer->repeat_)` on. -/
def settleFront (env : Env) (rt : Runtime κ) : Runtime κ :=
  match rt.queue with
  | [] => rt
  | timer :: rest =>
      if timer.repeat_ = 0 then
        { rt with queue := (popHeap timerCompare rt.queue).dropLast }
      else
        let r := getTimeStamp env timer.timeoutMs rt
        { r.2 with
            queue := pushHeap timerCompare
              (popHeap timerCompare ({ timer with expireTime := r.1 } :: rest)) }

/-- One iteration of `tick`'s loop: the test of the loop, and the body when slot 0 is due. A
callback that throws leaves the loop with the timer as it was. -/
def tickIter (env : Env) (run : κ → Proc κ τ → Option Thrown × Proc κ τ) (p : Proc κ τ) :
    Iter (Proc κ τ) :=
  match p.rt.queue with
  | [] => .done p
  | timer :: _ =>
      if p.rt.now env < timer.expireTime then .done { p with rt := p.rt.readClock }
      else
        let held := p.rt.locked
        let p := { p with rt := p.rt.readClock.lock }
        if timer.repeat_ = 0 then .again { p with rt := (settleFront env p.rt).unlock held }
        else
          match run timer.callback p with
          | (some e, p) => .threw e { p with rt := p.rt.unlock held }
          | (none, p) =>
              .again { p with rt := (settleFront env (decrementFront p.rt)).unlock held }

/-- The loop of `tick`, for at most `fuel` iterations: what it throws and the state it leaves. -/
def tickLoop (env : Env) (run : κ → Proc κ τ → Option Thrown × Proc κ τ) :
    Nat → Proc κ τ → Option (Option Thrown × Proc κ τ)
  | 0, _ => none
  | fuel + 1, p =>
      match tickIter env run p with
      | .done p => some (none, p)
      | .threw e p => some (some e, p)
      | .again p => tickLoop env run fuel p

/-- The states before the iterations of a `tick` that starts in `p`. -/
inductive Iterates (env : Env) (run : κ → Proc κ τ → Option Thrown × Proc κ τ) (p : Proc κ τ) :
    Proc κ τ → Prop
  | refl : Iterates env run p p
  | again {q q' : Proc κ τ} : Iterates env run p q → tickIter env run q = .again q' →
      Iterates env run p q'

/-! ## What the operations do to the queue -/

/-- The next reading but one is not before the next. -/
theorem now_le_reading (env : Env) (rt : Runtime κ) {n : Nat} (h : rt.readings ≤ n) :
    rt.now env ≤ env.reading n := env.mono h

section pushTimer

variable (env : Env) (callback : κ) (timeoutMs repeat_ : UInt32) (rt : Runtime κ)

/-- `add_timer` reads the clock once. -/
@[simp] theorem pushTimer_readings :
    (pushTimer env callback timeoutMs repeat_ rt).2.readings = rt.readings + 1 := rfl

/-- `add_timer` acquires the mutex: again, where it is held. -/
@[simp] theorem pushTimer_relocked :
    (pushTimer env callback timeoutMs repeat_ rt).2.relocked = (rt.relocked || rt.locked) := rfl

/-- `add_timer` adds the new timer and moves the others. -/
theorem pushTimer_queue_perm :
    (pushTimer env callback timeoutMs repeat_ rt).2.queue.Perm
      (newTimer env callback timeoutMs repeat_ rt :: rt.queue) :=
  (pushHeap_perm timerCompare _).trans (List.perm_append_singleton _ _)

/-- A front that expires no later than the new timer stays in slot 0. -/
theorem pushTimer_head? {front : EventTimer κ} (h : rt.queue.head? = some front)
    (hle : front.expireTime ≤ rt.now env + timeoutMs.toNat) :
    (pushTimer env callback timeoutMs repeat_ rt).2.queue.head? = some front := by
  refine pushHeap_concat_head? timerCompare rt.queue h (decide_eq_false ?_)
  exact not_lt.mpr hle

/-- The address of a new timer is not null. -/
theorem newTimer_timerId_ne_zero : (newTimer env callback timeoutMs repeat_ rt).timerId ≠ 0 :=
  env.pick_ne_zero _ _

/-- The address of a new timer is not that of a queued one. -/
theorem newTimer_timerId_ne {t : EventTimer κ} (ht : t ∈ rt.queue) :
    (newTimer env callback timeoutMs repeat_ rt).timerId ≠ t.timerId := by
  intro h
  apply env.pick_fresh rt.allocations (rt.queue.map EventTimer.timerId)
  exact List.mem_map.mpr ⟨t, ht, h.symm⟩

end pushTimer

/-- `del_timer` gives the mutex back as it was found. -/
@[simp] theorem delTimer_locked (timerId : Nat) (rt : Runtime κ) :
    (delTimer timerId rt).locked = rt.locked := rfl

/-- `del_timer` acquires the mutex: again, where it is held. -/
@[simp] theorem delTimer_relocked (timerId : Nat) (rt : Runtime κ) :
    (delTimer timerId rt).relocked = (rt.relocked || rt.locked) := rfl

/-- `del_timer` cancels in place. -/
theorem delTimer_queue (timerId : Nat) (rt : Runtime κ) :
    (delTimer timerId rt).queue = rt.queue.map (EventTimer.cancel timerId) := rfl

/-- Cancelling keeps the id. -/
@[simp] theorem cancel_timerId (timerId : Nat) (t : EventTimer κ) :
    (t.cancel timerId).timerId = t.timerId := by
  unfold EventTimer.cancel
  split <;> rfl

/-- Cancelling keeps the callback. -/
@[simp] theorem cancel_callback (timerId : Nat) (t : EventTimer κ) :
    (t.cancel timerId).callback = t.callback := by
  unfold EventTimer.cancel
  split <;> rfl

/-- A timer with another id is not touched. -/
theorem cancel_of_ne {timerId : Nat} {t : EventTimer κ} (h : t.timerId ≠ timerId) :
    t.cancel timerId = t := if_neg h

/-- A timer that is live after a cancellation has another id. -/
theorem ne_of_cancel_live {timerId : Nat} {t : EventTimer κ}
    (h : (t.cancel timerId).repeat_ ≠ 0) : t.timerId ≠ timerId := by
  intro hid
  unfold EventTimer.cancel at h
  rw [if_pos hid] at h
  exact h rfl

/-- Cancelling changes no id. -/
theorem delTimer_timerIds (timerId : Nat) (rt : Runtime κ) :
    (delTimer timerId rt).queue.map EventTimer.timerId = rt.queue.map EventTimer.timerId := by
  rw [delTimer_queue, List.map_map]
  exact List.map_congr_left fun t _ => cancel_timerId timerId t

/-- A timer with another id survives a cancellation as it is. -/
theorem mem_delTimer_of_ne {timerId : Nat} {rt : Runtime κ} {t : EventTimer κ} (ht : t ∈ rt.queue)
    (hid : t.timerId ≠ timerId) : t ∈ (delTimer timerId rt).queue :=
  List.mem_map.mpr ⟨t, ht, cancel_of_ne hid⟩

/-! ## What an iteration of `tick` does -/

/-- A slot 0 without firings left is removed. -/
theorem settleFront_of_zero (env : Env) (rt : Runtime κ) {t : EventTimer κ}
    {rest : List (EventTimer κ)} (hq : rt.queue = t :: rest) (h0 : t.repeat_ = 0) :
    ∃ q, q.Perm rest ∧ settleFront env rt = { rt with queue := q } := by
  refine ⟨(popHeap timerCompare (t :: rest)).dropLast, popHeap_dropLast_perm _ t rest, ?_⟩
  simp only [settleFront, hq, h0, if_true]

/-- A slot 0 with firings left is re-armed from a fresh clock reading. -/
theorem settleFront_of_ne_zero (env : Env) (rt : Runtime κ) {t : EventTimer κ}
    {rest : List (EventTimer κ)} (hq : rt.queue = t :: rest) (h0 : t.repeat_ ≠ 0) :
    ∃ q, q.Perm ({ t with expireTime := rt.now env + t.timeoutMs.toNat } :: rest) ∧
      settleFront env rt = { rt.readClock with queue := q } := by
  refine ⟨_, (pushHeap_perm timerCompare _).trans (popHeap_perm timerCompare _), ?_⟩
  simp only [settleFront, hq, h0, if_false]
  rfl

/-- What the timer in slot 0 is after a firing that was not its last one. -/
def EventTimer.rearmed (t : EventTimer κ) (expireTime : Int) : EventTimer κ :=
  { t with repeat_ := t.repeat_ - 1, expireTime := expireTime }

/-- **What the end of an iteration does with the timer that fired**: one that has used up its last
firing leaves the queue, any other one is re-armed under its old id and callback. -/
theorem settleFront_decrementFront (env : Env) {rt : Runtime κ} {t : EventTimer κ}
    {rest : List (EventTimer κ)} (hq : rt.queue = t :: rest) :
    (t.repeat_ = 1 ∧ ∃ q, q.Perm rest ∧
      settleFront env (decrementFront rt) = { rt with queue := q }) ∨
    (t.repeat_ ≠ 1 ∧ ∃ q, q.Perm (t.rearmed (rt.now env + t.timeoutMs.toNat) :: rest) ∧
      settleFront env (decrementFront rt) = { rt.readClock with queue := q }) := by
  have hdec : decrementFront rt =
      { rt with queue := { t with repeat_ := t.repeat_ - 1 } :: rest } := by
    simp only [decrementFront, hq]
  rw [hdec]
  by_cases h1 : t.repeat_ = 1
  · obtain ⟨q, hperm, hsettle⟩ := settleFront_of_zero env
      { rt with queue := { t with repeat_ := t.repeat_ - 1 } :: rest } rfl
      (show t.repeat_ - 1 = 0 by rw [h1]; rfl)
    exact Or.inl ⟨h1, q, hperm, hsettle⟩
  · obtain ⟨q, hperm, hsettle⟩ := settleFront_of_ne_zero env
      { rt with queue := { t with repeat_ := t.repeat_ - 1 } :: rest } rfl
      (show t.repeat_ - 1 ≠ 0 from fun h0 => h1 (by simpa using UInt32.sub_eq_iff_eq_add.mp h0))
    exact Or.inr ⟨h1, q, hperm, hsettle⟩

/-- Counting a firing reads no clock. -/
theorem decrementFront_readings (rt : Runtime κ) :
    (decrementFront rt).readings = rt.readings := by
  unfold decrementFront
  split <;> rfl

/-- The clock is read on. -/
theorem settleFront_readings_le (env : Env) (rt : Runtime κ) :
    rt.readings ≤ (settleFront env rt).readings := by
  unfold settleFront
  split
  · exact le_rfl
  · split
    · exact le_rfl
    · exact Nat.le_succ _

/-- The end of an iteration does not turn the clock back. -/
theorem settled_readings_le (env : Env) (rt : Runtime κ) :
    rt.readings ≤ (settleFront env (decrementFront rt)).readings := by
  have h := settleFront_readings_le env (decrementFront rt)
  rwa [decrementFront_readings] at h

/-- The end of an iteration acquires nothing. -/
theorem settled_relocked (env : Env) (rt : Runtime κ) :
    (settleFront env (decrementFront rt)).relocked = rt.relocked := by
  rcases hq : rt.queue with _ | ⟨t, rest⟩
  · simp [settleFront, decrementFront, hq]
  · rcases settleFront_decrementFront env hq with ⟨-, q, -, hs⟩ | ⟨-, q, -, hs⟩
    · rw [hs]
    · rw [hs]
      rfl

/-- What is in the queue after a firing was behind slot 0, or is slot 0 itself, armed again. -/
theorem mem_settled {env : Env} {rt : Runtime κ} {t : EventTimer κ} {rest : List (EventTimer κ)}
    (hq : rt.queue = t :: rest) {t' : EventTimer κ}
    (ht' : t' ∈ (settleFront env (decrementFront rt)).queue) :
    t' ∈ rest ∨ t.repeat_ ≠ 1 ∧ t'.callback = t.callback := by
  rcases settleFront_decrementFront env hq with ⟨-, q, hperm, hs⟩ | ⟨h1, q, hperm, hs⟩
  · rw [hs] at ht'
    exact Or.inl (hperm.mem_iff.mp ht')
  · rw [hs] at ht'
    rcases List.mem_cons.mp (hperm.mem_iff.mp ht') with rfl | ht'
    · exact Or.inr ⟨h1, rfl⟩
    · exact Or.inl ht'

/-- What was behind slot 0 stays. -/
theorem mem_settled_of_mem (env : Env) {rt : Runtime κ} {t : EventTimer κ}
    {rest : List (EventTimer κ)} (hq : rt.queue = t :: rest) {t' : EventTimer κ} (ht' : t' ∈ rest) :
    t' ∈ (settleFront env (decrementFront rt)).queue := by
  rcases settleFront_decrementFront env hq with ⟨-, q, hperm, hs⟩ | ⟨-, q, hperm, hs⟩
  · rw [hs]
    exact hperm.mem_iff.mpr ht'
  · rw [hs]
    exact hperm.mem_iff.mpr (List.mem_cons_of_mem _ ht')

/-- All that one iteration of `tick`'s loop can do. -/
inductive TickIter (env : Env) (run : κ → Proc κ τ → Option Thrown × Proc κ τ) (p : Proc κ τ) :
    Iter (Proc κ τ) → Prop
  /-- The queue is empty: the loop ends. -/
  | empty (hq : p.rt.queue = []) : TickIter env run p (.done p)
  /-- Slot 0 is not due: the loop ends after one reading. -/
  | notDue {t rest} (hq : p.rt.queue = t :: rest) (hdue : p.rt.now env < t.expireTime) :
      TickIter env run p (.done { p with rt := p.rt.readClock })
  /-- Slot 0 was cancelled: it is removed. -/
  | dead {t rest q} (hq : p.rt.queue = t :: rest) (hdue : t.expireTime ≤ p.rt.now env)
      (h0 : t.repeat_ = 0) (hperm : q.Perm rest) :
      TickIter env run p
        (.again { p with rt := ({ p.rt.readClock.lock with queue := q }).unlock p.rt.locked })
  /-- The callback of slot 0 threw. -/
  | threw {t rest e p₁} (hq : p.rt.queue = t :: rest) (hdue : t.expireTime ≤ p.rt.now env)
      (h0 : t.repeat_ ≠ 0)
      (hrun : run t.callback { p with rt := p.rt.readClock.lock } = (some e, p₁)) :
      TickIter env run p (.threw e { p₁ with rt := p₁.rt.unlock p.rt.locked })
  /-- The callback of slot 0 returned: slot 0 has used up a firing. -/
  | fired {t rest p₁} (hq : p.rt.queue = t :: rest) (hdue : t.expireTime ≤ p.rt.now env)
      (h0 : t.repeat_ ≠ 0)
      (hrun : run t.callback { p with rt := p.rt.readClock.lock } = (none, p₁)) :
      TickIter env run p
        (.again { p₁ with rt := (settleFront env (decrementFront p₁.rt)).unlock p.rt.locked })

/-- **An iteration of `tick` does one of these.** -/
theorem tickIter_spec (env : Env) (run : κ → Proc κ τ → Option Thrown × Proc κ τ)
    (p : Proc κ τ) : TickIter env run p (tickIter env run p) := by
  unfold tickIter
  split
  · rename_i hq
    exact .empty hq
  · rename_i t rest hq
    split
    · rename_i hdue
      exact .notDue hq hdue
    · rename_i hdue
      have hdue' : t.expireTime ≤ p.rt.now env := not_lt.mp hdue
      dsimp only
      split
      · rename_i h0
        obtain ⟨q, hperm, hsettle⟩ :=
          settleFront_of_zero env p.rt.readClock.lock hq h0
        rw [hsettle]
        exact .dead hq hdue' h0 hperm
      · rename_i h0
        split
        · rename_i e p₁ hrun
          exact .threw hq hdue' h0 hrun
        · rename_i p₁ hrun
          exact .fired hq hdue' h0 hrun

/-! ## The whole of a `tick` -/

section Loop

variable {env : Env} {run : κ → Proc κ τ → Option Thrown × Proc κ τ} {p p' q : Proc κ τ}

/-- What an iteration throws was thrown by the callback of slot 0, a live timer. -/
theorem TickIter.of_threw {r : Iter (Proc κ τ)} {e : Thrown} {t : EventTimer κ}
    {rest : List (EventTimer κ)} (h : TickIter env run p r) (hr : r = .threw e p')
    (hq : p.rt.queue = t :: rest) :
    t.repeat_ ≠ 0 ∧
      ∃ p₁, run t.callback { p with rt := p.rt.readClock.lock } = (some e, p₁) := by
  cases h with
  | empty hq' => cases hr
  | notDue hq' hdue => cases hr
  | dead hq' hdue h0 hperm => cases hr
  | fired hq' hdue h0 hrun => cases hr
  | @threw t' rest' e' p₁ hq' hdue h0 hrun =>
      cases hr
      obtain rfl : t' = t := (List.cons.inj (hq'.symm.trans hq)).1
      exact ⟨h0, p₁, hrun⟩

/-- What every iteration keeps holds before every iteration. -/
theorem Iterates.keeps {P : Proc κ τ → Prop} (hiter : ∀ p, P p → P (tickIter env run p).state)
    (h : Iterates env run p q) (hp : P p) : P q := by
  induction h with
  | refl => exact hp
  | @again q q' _ heq ih =>
      have hq' := hiter q ih
      rwa [heq] at hq'

/-- One more iteration, before the others. -/
theorem Iterates.head (heq : tickIter env run p = .again p') (h : Iterates env run p' q) :
    Iterates env run p q := by
  induction h with
  | refl => exact .again .refl heq
  | again _ heq' ih => exact .again ih heq'

/-- **How `tick` ends**: in its last iteration, from the state `q` that the others left. -/
theorem tickLoop_last {fuel : Nat} {e : Option Thrown}
    (h : tickLoop env run fuel p = some (e, p')) :
    ∃ q, Iterates env run p q ∧
      (tickIter env run q = .done p' ∧ e = none ∨
        ∃ thrown, tickIter env run q = .threw thrown p' ∧ e = some thrown) := by
  induction fuel generalizing p with
  | zero => cases h
  | succ fuel ih =>
      unfold tickLoop at h
      split at h
      · rename_i p₁ heq
        cases h
        exact ⟨p, .refl, Or.inl ⟨heq, rfl⟩⟩
      · rename_i thrown p₁ heq
        cases h
        exact ⟨p, .refl, Or.inr ⟨thrown, heq, rfl⟩⟩
      · rename_i p₁ heq
        obtain ⟨q, hq, hlast⟩ := ih h
        exact ⟨q, hq.head heq, hlast⟩

/-- **The invariant rule of `tick`**: what every iteration keeps, from a state it holds in, the
whole of `tick` keeps, whether it returns or throws. -/
theorem tickLoop_keeps {P : Proc κ τ → Prop} (hiter : ∀ p, P p → P (tickIter env run p).state)
    {fuel : Nat} {e : Option Thrown} (h : tickLoop env run fuel p = some (e, p')) (hp : P p) :
    P p' := by
  obtain ⟨q, hq, hlast⟩ := tickLoop_last h
  have hlast' := hiter q (hq.keeps hiter hp)
  rcases hlast with ⟨heq, -⟩ | ⟨thrown, heq, -⟩
  · rwa [heq] at hlast'
  · rwa [heq] at hlast'

/-- `Iterates.keeps`, with all that an iteration can do. -/
theorem Iterates.induct {P : Proc κ τ → Prop}
    (hiter : ∀ p r, P p → TickIter env run p r → P r.state) (h : Iterates env run p q)
    (hp : P p) : P q :=
  h.keeps (fun p hp => hiter p _ hp (tickIter_spec env run p)) hp

/-- `tickLoop_keeps`, with all that an iteration can do. -/
theorem tickLoop_induct (P : Proc κ τ → Prop)
    (hiter : ∀ p r, P p → TickIter env run p r → P r.state) :
    ∀ fuel p e p', P p → tickLoop env run fuel p = some (e, p') → P p' := by
  intro fuel p e p' hp h
  exact tickLoop_keeps (fun p hp => hiter p _ hp (tickIter_spec env run p)) h hp

/-- What `tick` throws was thrown by an iteration, in a state in which the invariant holds. -/
theorem tickLoop_threw (P : Proc κ τ → Prop)
    (hiter : ∀ p r, P p → TickIter env run p r → P r.state) :
    ∀ fuel p e p', P p → tickLoop env run fuel p = some (some e, p') →
      ∃ p₁, P p₁ ∧ TickIter env run p₁ (.threw e p') := by
  intro fuel p e p' hp h
  obtain ⟨q, hq, ⟨-, hnone⟩ | ⟨thrown, heq, hthrown⟩⟩ := tickLoop_last h
  · cases hnone
  · cases hthrown
    have hspec := tickIter_spec env run q
    rw [heq] at hspec
    exact ⟨q, hq.induct hiter hp, hspec⟩

end Loop

end CacheSystem

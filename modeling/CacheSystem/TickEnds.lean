import CacheSystem.QueueOrder
import CacheSystem.Wiring

/-!
# Every tick of the server ends (`timer_queue.cc`, `sample/server.cc`)

`tick` runs timers as long as one is due, and the callback of an update that waits puts two more into
the queue: the new lease, and the acknowledgement of the answer. A clock that moves on fast enough
finds these due in the same `tick`, so it is not their delay that ends the loop. It is that neither
of the two arms a further one. That the callback acquires the mutex that `tick` holds is the matter
of `Reentrancy`; here the acquisition succeeds.

* `tickLoop_ends` : a loop whose iterations lower a number ends.
* `work` : what is left to do for a queue, `work_lt` : every iteration lowers it.
* `server_tick_ends` : in every run of the server.
-/

namespace CacheSystem

/-! ## The loop -/

/-- **A loop whose iterations lower a number ends.** -/
theorem tickLoop_ends {κ τ : Type} {env : Env} {run : κ → Proc κ τ → Option Thrown × Proc κ τ}
    {P : Proc κ τ → Prop} {m : Proc κ τ → Nat}
    (hiter : ∀ p p', P p → TickIter env run p (.again p') → P p' ∧ m p' < m p) :
    ∀ fuel p, P p → m p < fuel → ∃ r, tickLoop env run fuel p = some r := by
  intro fuel
  induction fuel with
  | zero => exact fun p _ h => absurd h (Nat.not_lt_zero _)
  | succ fuel ih =>
      intro p hp hlt
      have hspec := tickIter_spec env run p
      unfold tickLoop
      split
      · exact ⟨_, rfl⟩
      · exact ⟨_, rfl⟩
      · rename_i p₁ heq
        rw [heq] at hspec
        obtain ⟨hp₁, hless⟩ := hiter p p₁ hp hspec
        exact ih p₁ hp₁ (by omega)

/-! ## What is left to do -/

/-- What a firing of this callback costs, with the timers that it adds. -/
def TimerCall.cost {F : Type} : TimerCall F → Nat
  | .guaranteed _ => 1
  | .updateProtected _ => 5
  | .foreign _ => 1

/-- A firing costs something. -/
theorem TimerCall.cost_pos {F : Type} (call : TimerCall F) : 0 < call.cost := by
  cases call <;> exact Nat.succ_pos _

/-- The cost of the firings in the queue, and of the removals. -/
def work {F : Type} (q : List (EventTimer (TimerCall F))) : Nat :=
  (q.map fun t => t.repeat_.toNat * t.callback.cost + 1).sum

variable {F : Type} {q q' : List (EventTimer (TimerCall F))}

/-- The order of the queue does not matter to its work. -/
theorem work_perm (h : q.Perm q') : work q = work q' := (h.map _).sum_eq

/-- The work of a timer: its firings and its removal. -/
theorem work_cons (t : EventTimer (TimerCall F)) (q : List (EventTimer (TimerCall F))) :
    work (t :: q) = t.repeat_.toNat * t.callback.cost + 1 + work q := by
  simp [work]

/-- A cancelled timer costs no more than its removal. -/
theorem work_cancel (timerId : Nat) (q : List (EventTimer (TimerCall F))) :
    work (q.map (EventTimer.cancel timerId)) ≤ work q := by
  induction q with
  | nil => exact le_rfl
  | cons t q ih =>
      rw [List.map_cons, work_cons, work_cons]
      have hone : (t.cancel timerId).repeat_.toNat * (t.cancel timerId).callback.cost ≤
          t.repeat_.toNat * t.callback.cost := by
        rw [cancel_callback]
        refine Nat.mul_le_mul_right _ ?_
        unfold EventTimer.cancel
        split
        · exact Nat.zero_le _
        · exact le_rfl
      omega

/-- A new timer that fires once. -/
theorem work_pushTimer (env : Env) (callback : TimerCall F) (timeoutMs : UInt32)
    (rt : Runtime (TimerCall F)) :
    work (pushTimer env callback timeoutMs 1 rt).2.queue = work rt.queue + callback.cost + 1 := by
  rw [work_perm (pushTimer_queue_perm env callback timeoutMs 1 rt), work_cons]
  have hone : (newTimer env callback timeoutMs 1 rt).repeat_.toNat = 1 := rfl
  have hcallback : (newTimer env callback timeoutMs 1 rt).callback = callback := rfl
  rw [hone, hcallback]
  omega

/-- A lease that starts adds its expiry. -/
theorem work_guarantee (env : Env) (cacheId : UInt64) {φ : Type}
    (s : CacheStateManager φ × Runtime (TimerCall F)) :
    work (guarantee env (closures cacheId) s).2.queue ≤ work s.2.queue + 2 := by
  obtain ⟨timer, base, hs⟩ :=
    startExpire_spec env (closures cacheId).guaranteed kDefaultExpireMillisecond s
  have hbase : work base ≤ work s.2.queue := by
    rcases hs.base with ⟨-, -, rfl⟩ | ⟨-, rfl⟩
    · exact work_cancel _ _
    · exact le_rfl
  change work (startExpire env (closures cacheId).guaranteed kDefaultExpireMillisecond s).2.queue ≤ _
  rw [work_perm hs.queue, work_cons, hs.repeat_, hs.callback]
  have hcost : (1 : UInt32).toNat * TimerCall.cost (F := F) (closures cacheId).guaranteed = 1 := rfl
  omega

/-! ## The server's callbacks -/

variable {env : Env} {fails : Nat → Bool} {s s' : Server}

/-- A response that is registered adds one timer. -/
theorem Answer.work_le {response : CacheMessage} {requester : Address} {q : Rest}
    {r : Option Thrown × Rest} (h : Answer env fails response requester q r) :
    work r.2.rt.queue ≤ work q.rt.queue + 2 := by
  cases h with
  | registered hheader hmap hr =>
      rw [hr.tables.1, registerAck_rt, work_pushTimer]
      exact le_rfl
  | taken hheader hmap hmessage hr =>
      rw [hr.tables.1, refuseAck_rt, work_pushTimer]
      exact le_rfl

/-- `update_handle` adds the work of one timer at most. -/
theorem UpdateHandle.work_le {handler : Request} {ret : OpResult} {opId : UInt32} {expire : Int}
    {q : Rest} {r : Option Thrown × Rest}
    (h : UpdateHandle env fails handler ret opId expire q r) :
    work r.2.rt.queue ≤ work q.rt.queue + 2 := by
  cases h with
  | refused hret => exact Nat.le_add_right _ _
  | lost hret hdefer => exact Nat.le_add_right _ _
  | answered hret hdefer hr => exact hr.work_le

/-- **A callback adds less than a firing of it costs.** -/
theorem RunTimer.work_lt {call : TimerCall Nat} {r : Option Thrown × Server}
    (h : RunTimer env (serverHooks env fails) s call r) :
    work r.2.rt.queue < work s.rt.queue + call.cost := by
  cases h with
  | absent howner he => exact Nat.lt_add_of_pos_right (TimerCall.cost_pos _)
  | idled he => exact Nat.lt_add_of_pos_right Nat.one_pos
  | @completed cacheId e f s₁ p' r he hs hf hp hr =>
      have hspec : UpdateHandle env fails f .kOperationOk e.state.opId s₁.1.expireTime p'.outer r :=
        .of_invoke hr
      subst hp
      have hanswer : work r.2.rt.queue ≤
          work (guarantee env (closures cacheId) (e.state, s.rt)).2.queue + 2 := hspec.work_le
      have hlease : work (guarantee env (closures cacheId) (e.state, s.rt)).2.queue ≤
          work s.rt.queue + 2 := work_guarantee env cacheId (e.state, s.rt)
      change work r.2.rt.queue < work s.rt.queue + 5
      omega
  | @noCall cacheId e he hf =>
      exact lt_of_le_of_lt (work_guarantee env cacheId (e.state, s.rt))
        (Nat.add_lt_add_left (show 2 < 5 by decide) _)
  | @unbound cacheId e he hcall =>
      exact lt_of_le_of_lt (work_guarantee env cacheId (e.state, s.rt))
        (Nat.add_lt_add_left (show 2 < 5 by decide) _)
  | @foreign ptr r hr =>
      have hspec : TimerHandle fails ptr s.outer r := .of_foreign hr
      have hrt : r.2.rt = s.rt := hspec.tables.1
      change work r.2.rt.queue < work s.rt.queue + 1
      rw [hrt]
      exact Nat.lt_succ_self _

/-- **Every iteration that does not end the loop leaves less to do.** -/
theorem work_lt (hw : Wired s)
    (h : TickIter env (CacheSystem.runTimer env (serverHooks env fails)) s (.again s')) :
    work s'.rt.queue < work s.rt.queue := by
  cases h with
  | @dead t rest q hq hdue h0 hperm =>
      rw [hq, work_cons]
      change work q < _
      rw [work_perm hperm]
      omega
  | @fired t rest p₁ hq hdue h0 hrun =>
      have hspec := RunTimer.of_eq hrun
      obtain ⟨rest₁, hq₁⟩ := hspec.front serverHooks_benign hw.armed hq hdue
      have hadded : work p₁.rt.queue < work s.rt.queue + t.callback.cost := hspec.work_lt
      rw [show p₁.rt.queue = t :: rest₁ from hq₁, work_cons] at hadded
      change work (settleFront env (decrementFront p₁.rt)).queue < _
      rcases settleFront_decrementFront env hq₁ with ⟨hone, q, hperm, hs⟩ | ⟨-, q, hperm, hs⟩
      · have hfirings : t.repeat_.toNat = 1 := by rw [hone]; rfl
        rw [hfirings] at hadded
        rw [hs]
        change work q < _
        rw [work_perm hperm]
        omega
      · have hless := rearmed_repeat h0 (p₁.rt.now env + t.timeoutMs.toNat)
        have hcost : t.repeat_.toNat * t.callback.cost =
            (t.rearmed (p₁.rt.now env + t.timeoutMs.toNat)).repeat_.toNat * t.callback.cost +
              t.callback.cost := by
          rw [← hless, Nat.add_mul, Nat.one_mul]
        rw [hs]
        change work q < _
        rw [work_perm hperm, work_cons]
        change (t.rearmed (p₁.rt.now env + t.timeoutMs.toNat)).repeat_.toNat * t.callback.cost + 1 +
          work rest₁ < _
        omega

/-! ## Runs -/

/-- **Every tick of the server ends**, in every run, whatever the clock, the datagrams and the sends
that fail: `fuel` iterations are enough as soon as they are more than what is left to do. -/
theorem server_tick_ends {ok : Server → ServerOp → Server → Prop} :
    ∀ s, ServerReachable env fails ok s → ∀ fuel, work s.rt.queue < fuel →
      ∃ s', s.step env fails (.tick fuel) = some s' := by
  intro s h fuel hfuel
  obtain ⟨r, hr⟩ := tickLoop_ends (P := Wired) (m := fun s => work s.rt.queue)
    (fun p p' hp hiter => ⟨hp.tickIter hiter, work_lt hp hiter⟩) fuel s (wired_of_reachable h) hfuel
  exact ⟨Server.catch r, by rw [Server.step, hr]; rfl⟩

/-- The tick after a first update, as a case of `server_tick_ends`. -/
theorem server_tick_ends_first : ∃ s', (Server.first (jumpClock 2 20000)).step (jumpClock 2 20000)
    (fun _ => false) (.tick 5) = some s' :=
  server_tick_ends _ (Server.first_reachable _ trivial : ServerReachable _ _
    (fun _ _ _ => True) _) 5 (by decide)

end CacheSystem

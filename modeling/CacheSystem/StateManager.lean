import CacheSystem.TimerQueue

/-!
# The state manager of one element (`cache_state_manager.h`)

A `CacheStateManager` is a three-state machine with one expiry: *Idle* (no lease), *Guaranteed* (a
lease runs until `expire_time_`) and *UpdateProtected* (an update waits for the leases to run out).
Its operations work on the manager together with the timer queue it arms its expiry in.

* `κ` are the timer callbacks; `Closures` are the two lambdas of `enter_state`, which capture the
  manager. `φ` are the update handlers; `none` is an empty `std::function`.
* `startExpire`, `stopExpire`, `setCacheState`, `updateOp`, `readOp` follow the source. What the
  two lambdas do when a timer runs them is in `DataCenter.lean`, next to the element they reach.

`startExpire_spec` says all that a re-armed expiry does to the queue; the equations for `updateOp`
and `readOp` below it say what each operation is in each state.
-/

namespace CacheSystem

/-! ## The manager -/

/-- Source: `cache_state_manager.h`, `CacheStateManager::CacheState`. -/
inductive CacheState
  | kCacheIdle
  | kCacheGuaranteed
  | kCacheUpdateProtected
  deriving DecidableEq, Repr

/-- Source: `cache_state_manager.h`, `CacheStateManager`, with its constructor's values. -/
structure CacheStateManager (φ : Type) where
  timerId : Nat := 0
  expireTime : Int := 0
  opId : UInt32 := 0
  callHandle : Option φ := none
  currentState : CacheState := .kCacheIdle
  deriving DecidableEq, Repr

/-- The lambdas that `CacheGuaranteedState::enter_state` and
`CacheUpdateProtectedState::enter_state` hand to `start_expire`. -/
structure Closures (κ : Type) where
  guaranteed : κ
  updateProtected : κ

/-- Source: `cache_data_center.h`, `kDefaultExpireMillisecond`. -/
def kDefaultExpireMillisecond : UInt32 := 10000

/-- Go on after a call that returned, or hand its exception on. -/
def andThen {α β σ : Type} (r : Except Thrown α × σ) (f : α → σ → Except Thrown β × σ) :
    Except Thrown β × σ :=
  match r with
  | (.ok a, s) => f a s
  | (.error e, s) => (.error e, s)

/-- After a call that returned, its continuation runs. -/
@[simp] theorem andThen_ok {α β σ : Type} (a : α) (s : σ) (f : α → σ → Except Thrown β × σ) :
    andThen (.ok a, s) f = f a s := rfl

variable {κ φ : Type}

/-- Source: `cache_state_manager.h`, `CacheStateManager::set_op_id`. -/
def CacheStateManager.setOpId (m : CacheStateManager φ) (opId : UInt32) : CacheStateManager φ :=
  { m with opId := opId }

/-- Source: `cache_state_manager.h`, `CacheStateManager::set_call_handle`. -/
def CacheStateManager.setCallHandle (m : CacheStateManager φ) (callHandle : Option φ) :
    CacheStateManager φ :=
  { m with callHandle := callHandle }

/-! ## The expiry -/

/-- Source: `cache_state_manager.h`, `CacheStateManager::stop_expire`: the queued timer is
cancelled only while `expire_time_` lies ahead of the clock. -/
def stopExpire (env : Env) (s : CacheStateManager φ × Runtime κ) :
    CacheStateManager φ × Runtime κ :=
  if s.1.timerId ≠ 0 then
    if s.2.now env < s.1.expireTime then
      ({ s.1 with timerId := 0 }, delTimer s.1.timerId s.2.readClock)
    else (s.1, s.2.readClock)
  else s

/-- Source: `cache_state_manager.h`, `CacheStateManager::start_expire`. Its `add_timer` is called
with `repeat = 1` and cannot throw. -/
def startExpire (env : Env) (callBack : κ) (timeoutMs : UInt32)
    (s : CacheStateManager φ × Runtime κ) : CacheStateManager φ × Runtime κ :=
  let s₁ := stopExpire env s
  let stamp := getTimeStamp env timeoutMs s₁.2
  let added := pushTimer env callBack timeoutMs 1 stamp.2
  ({ s₁.1 with expireTime := stamp.1, timerId := added.1 }, added.2)

/-! ## The states -/

/-- Source: `cache_state_manager.h`, the `enter_state` of the three states. -/
def enterState (env : Env) (closures : Closures κ) (state : CacheState)
    (s : CacheStateManager φ × Runtime κ) :
    Except Thrown Unit × (CacheStateManager φ × Runtime κ) :=
  match state with
  | .kCacheIdle => (.ok (), ({ s.1 with timerId := 0, expireTime := 0 }, s.2))
  | .kCacheGuaranteed =>
      (.ok (), startExpire env closures.guaranteed kDefaultExpireMillisecond s)
  | .kCacheUpdateProtected =>
      let now := getTimeStamp env 0 s.2
      let timerDelay := toInt32 (s.1.expireTime - now.1)
      if timerDelay ≤ 0 then
        (.error (.csn .kErrorSysRoutine "timer is expire,should not run here"), (s.1, now.2))
      else
        (.ok (), startExpire env closures.updateProtected (UInt32.ofNat timerDelay.toNat)
          (s.1, now.2))

/-- Source: `cache_state_manager.h`, `CacheStateManager::set_cache_state`: the new state is entered
before `current_state_` is assigned. -/
def setCacheState (env : Env) (closures : Closures κ) (state : CacheState)
    (s : CacheStateManager φ × Runtime κ) :
    Except Thrown Unit × (CacheStateManager φ × Runtime κ) :=
  andThen (enterState env closures state s) fun _ s =>
    (.ok (), ({ s.1 with currentState := state }, s.2))

/-- Source: `cache_state_manager.h`, the `update_op` of the three states, chosen by
`current_state_`: the result and `*tp`. -/
def updateOp (env : Env) (closures : Closures κ) (opId : UInt32) (f : Option φ)
    (s : CacheStateManager φ × Runtime κ) :
    Except Thrown (OpResult × Int) × (CacheStateManager φ × Runtime κ) :=
  match s.1.currentState with
  | .kCacheIdle =>
      andThen (setCacheState env closures .kCacheGuaranteed s) fun _ s =>
        (.ok (.kOperationOk, s.1.expireTime), s)
  | .kCacheGuaranteed =>
      if opId = 0 ∨ f.isNone then
        (.error (.csn .kErrorIllArgument "CacheGuaranteedState update_op with error argument"), s)
      else
        andThen (setCacheState env closures .kCacheUpdateProtected
          ((s.1.setOpId opId).setCallHandle f, s.2)) fun _ s =>
            (.ok (.kOperationDefer, s.1.expireTime), s)
  | .kCacheUpdateProtected =>
      if opId = 0 then
        (.error (.csn .kErrorIllArgument "CacheUpdateProtectedState update_op with error argument"),
          s)
      else (.ok (.kOperationRetry, s.1.expireTime), s)

/-- Source: `cache_state_manager.h`, the `read_op` of the three states. -/
def readOp (env : Env) (closures : Closures κ) (opId : UInt32)
    (s : CacheStateManager φ × Runtime κ) :
    Except Thrown (OpResult × Int) × (CacheStateManager φ × Runtime κ) :=
  match s.1.currentState with
  | .kCacheIdle =>
      andThen (setCacheState env closures .kCacheGuaranteed s) fun _ s =>
        (.ok (.kOperationOk, s.1.expireTime), s)
  | .kCacheGuaranteed =>
      andThen (setCacheState env closures .kCacheGuaranteed (s.1.setOpId opId, s.2))
        fun _ s => (.ok (.kOperationOk, s.1.expireTime), s)
  | .kCacheUpdateProtected =>
      let now := getTimeStamp env 0 s.2
      (.ok (.kOperationOk, now.1), (s.1, now.2))

/-! ## What re-arming does -/

/-- The manager and the queue `s'` after `stop_expire` from `s`: the manager's own timer is
cancelled exactly when `expire_time_` was found ahead of the clock. -/
structure Stopped (env : Env) (s s' : CacheStateManager φ × Runtime κ) : Prop where
  opId : s'.1.opId = s.1.opId
  callHandle : s'.1.callHandle = s.1.callHandle
  currentState : s'.1.currentState = s.1.currentState
  readings_le : s.2.readings ≤ s'.2.readings
  timerIds : s'.2.queue.map EventTimer.timerId = s.2.queue.map EventTimer.timerId
  queue : (s.1.timerId ≠ 0 ∧ s.2.now env < s.1.expireTime ∧
      s'.2.queue = s.2.queue.map (EventTimer.cancel s.1.timerId)) ∨
    ((s.1.timerId = 0 ∨ s.1.expireTime ≤ s.2.now env) ∧ s'.2.queue = s.2.queue)
  locked : s'.2.locked = s.2.locked
  relocked : (s'.2.relocked || s'.2.locked) = (s.2.relocked || s.2.locked)

/-- **What `stop_expire` does.** -/
theorem stopExpire_spec (env : Env) (s : CacheStateManager φ × Runtime κ) :
    Stopped env s (stopExpire env s) := by
  unfold stopExpire
  split
  · rename_i hid
    split
    · rename_i hlt
      exact
        { opId := rfl, callHandle := rfl, currentState := rfl
          readings_le := Nat.le_succ _
          timerIds := delTimer_timerIds _ _
          queue := Or.inl ⟨hid, hlt, rfl⟩
          locked := rfl
          relocked := by simp [Runtime.readClock] }
    · rename_i hge
      exact
        { opId := rfl, callHandle := rfl, currentState := rfl
          readings_le := Nat.le_succ _
          timerIds := rfl
          queue := Or.inr ⟨Or.inr (not_lt.mp hge), rfl⟩
          locked := rfl
          relocked := rfl }
  · rename_i hid
    exact
      { opId := rfl, callHandle := rfl, currentState := rfl
        readings_le := le_rfl
        timerIds := rfl
        queue := Or.inr ⟨Or.inl (not_not.mp hid), rfl⟩
        locked := rfl
        relocked := rfl }

/-- The manager and the queue `s'` after `start_expire(callBack, timeoutMs)` from `s`: a fresh
timer beside `base`, which is the old queue, with the manager's own timer cancelled exactly when
`stop_expire` still found `expire_time_` ahead of the clock. -/
structure Rearmed (env : Env) (callBack : κ) (timeoutMs : UInt32)
    (s s' : CacheStateManager φ × Runtime κ) (timer : EventTimer κ) (base : List (EventTimer κ)) :
    Prop where
  timerId : s'.1.timerId = timer.timerId
  now_le_expireTime : s.2.now env + timeoutMs.toNat ≤ s'.1.expireTime
  expireTime_le : s'.1.expireTime ≤ timer.expireTime
  timer_expireTime_le : timer.expireTime ≤ s'.2.now env + timeoutMs.toNat
  opId : s'.1.opId = s.1.opId
  callHandle : s'.1.callHandle = s.1.callHandle
  currentState : s'.1.currentState = s.1.currentState
  queue : s'.2.queue.Perm (timer :: base)
  base : (s.1.timerId ≠ 0 ∧ s.2.now env < s.1.expireTime ∧
      base = s.2.queue.map (EventTimer.cancel s.1.timerId)) ∨
    ((s.1.timerId = 0 ∨ s.1.expireTime ≤ s.2.now env) ∧ base = s.2.queue)
  timerId_ne_zero : timer.timerId ≠ 0
  fresh : ∀ t ∈ s.2.queue, timer.timerId ≠ t.timerId
  callback : timer.callback = callBack
  repeat_ : timer.repeat_ = 1
  readings_lt : s.2.readings < s'.2.readings
  locked : s'.2.locked = s.2.locked
  relocked : s'.2.relocked = (s.2.relocked || s.2.locked)

/-- **What `start_expire` does.** -/
theorem startExpire_spec (env : Env) (callBack : κ) (timeoutMs : UInt32)
    (s : CacheStateManager φ × Runtime κ) :
    ∃ timer base, Rearmed env callBack timeoutMs s (startExpire env callBack timeoutMs s)
      timer base := by
  have hs := stopExpire_spec env s
  generalize hs₁ : stopExpire env s = s₁ at hs
  have hstart : startExpire env callBack timeoutMs s =
      ({ s₁.1 with
          expireTime := s₁.2.now env + timeoutMs.toNat
          timerId := (newTimer env callBack timeoutMs 1 s₁.2.readClock).timerId },
        (pushTimer env callBack timeoutMs 1 s₁.2.readClock).2) := by
    unfold startExpire
    rw [hs₁]
    rfl
  refine ⟨newTimer env callBack timeoutMs 1 s₁.2.readClock, s₁.2.queue, ?_⟩
  rw [hstart]
  exact
    { timerId := rfl
      now_le_expireTime := by
        have : s.2.now env ≤ s₁.2.now env := env.mono hs.readings_le
        exact Int.add_le_add_right this _
      expireTime_le := by
        have : s₁.2.now env ≤ s₁.2.readClock.now env := env.mono (Nat.le_succ _)
        exact Int.add_le_add_right this _
      timer_expireTime_le := by
        have : s₁.2.readClock.now env ≤ s₁.2.readClock.readClock.now env :=
          env.mono (Nat.le_succ _)
        exact Int.add_le_add_right this _
      opId := hs.opId
      callHandle := hs.callHandle
      currentState := hs.currentState
      queue := pushTimer_queue_perm env callBack timeoutMs 1 s₁.2.readClock
      base := hs.queue
      timerId_ne_zero := newTimer_timerId_ne_zero env callBack timeoutMs 1 s₁.2.readClock
      fresh := by
        intro t ht
        have ht' : t.timerId ∈ s₁.2.queue.map EventTimer.timerId := by
          rw [hs.timerIds]
          exact List.mem_map_of_mem ht
        obtain ⟨t', ht₁, heq⟩ := List.mem_map.mp ht'
        rw [← heq]
        exact newTimer_timerId_ne env callBack timeoutMs 1 s₁.2.readClock ht₁
      callback := rfl
      repeat_ := rfl
      readings_lt := by
        have := hs.readings_le
        simp only [pushTimer_readings, Runtime.readClock]
        omega
      locked := hs.locked
      relocked := hs.relocked }

/-- The expire time that `start_expire` assigns: one reading later when there is a timer to look
at. -/
theorem startExpire_expireTime (env : Env) (callBack : κ) (timeoutMs : UInt32)
    (s : CacheStateManager φ × Runtime κ) :
    (startExpire env callBack timeoutMs s).1.expireTime =
      env.reading (s.2.readings + if s.1.timerId ≠ 0 then 1 else 0) + timeoutMs.toNat := by
  unfold startExpire stopExpire
  split
  · split <;> rfl
  · rfl

/-- Re-arming leaves a due front in slot 0. -/
theorem startExpire_head? (env : Env) (callBack : κ) (timeoutMs : UInt32)
    (s : CacheStateManager φ × Runtime κ) {front : EventTimer κ}
    (h : s.2.queue.head? = some front) (hdue : front.expireTime ≤ s.2.now env)
    (hid : s.1.timerId = 0 ∨ s.1.expireTime ≤ s.2.now env ∨ s.1.timerId ≠ front.timerId) :
    (startExpire env callBack timeoutMs s).2.queue.head? = some front := by
  have hs := stopExpire_spec env s
  have hhead : (stopExpire env s).2.queue.head? = some front := by
    rcases hs.queue with ⟨hne, hlt, hq⟩ | ⟨-, hq⟩
    · have hfront : front.timerId ≠ s.1.timerId := by
        rcases hid with h0 | hle | hne'
        · exact absurd h0 hne
        · exact absurd hlt (not_lt.mpr hle)
        · exact hne'.symm
      rw [hq, List.head?_map, h, Option.map_some, cancel_of_ne hfront]
    · rw [hq, h]
  refine pushTimer_head? env callBack timeoutMs 1 _ hhead ?_
  have h₁ : s.2.now env ≤ env.reading ((stopExpire env s).2.readings + 1) :=
    env.mono (Nat.le_succ_of_le hs.readings_le)
  change front.expireTime ≤ env.reading ((stopExpire env s).2.readings + 1) + _
  omega

/-! ## The operations, state by state -/

section operations

variable (env : Env) (closures : Closures κ) (opId : UInt32) (f : Option φ)
  (s : CacheStateManager φ × Runtime κ)

/-- `start_expire` for the lease of the Guaranteed state, and the state assigned after it. -/
def guarantee : CacheStateManager φ × Runtime κ :=
  let s' := startExpire env closures.guaranteed kDefaultExpireMillisecond s
  ({ s'.1 with currentState := .kCacheGuaranteed }, s'.2)

/-- `start_expire` for the wait of the UpdateProtected state, and the state assigned after it. -/
def protect (timerDelay : UInt32) : CacheStateManager φ × Runtime κ :=
  let s' := startExpire env closures.updateProtected timerDelay s
  ({ s'.1 with currentState := .kCacheUpdateProtected }, s'.2)

/-- Starting a lease keeps the op id. -/
@[simp] theorem guarantee_opId : (guarantee env closures s).1.opId = s.1.opId := by
  obtain ⟨_, _, h⟩ := startExpire_spec env closures.guaranteed kDefaultExpireMillisecond s
  exact h.opId

/-- Starting a lease keeps the handler. -/
@[simp] theorem guarantee_callHandle :
    (guarantee env closures s).1.callHandle = s.1.callHandle := by
  obtain ⟨_, _, h⟩ := startExpire_spec env closures.guaranteed kDefaultExpireMillisecond s
  exact h.callHandle

/-- A lease that starts leaves the manager Guaranteed. -/
@[simp] theorem guarantee_currentState :
    (guarantee env closures s).1.currentState = .kCacheGuaranteed := rfl

/-- After a lease started the manager is not Idle. -/
theorem guarantee_not_idle : (guarantee env closures s).1.currentState ≠ .kCacheIdle := by
  rw [guarantee_currentState]
  decide

/-- Starting a wait keeps the op id. -/
@[simp] theorem protect_opId (timerDelay : UInt32) :
    (protect env closures s timerDelay).1.opId = s.1.opId := by
  obtain ⟨_, _, h⟩ := startExpire_spec env closures.updateProtected timerDelay s
  exact h.opId

/-- Starting a wait keeps the handler. -/
@[simp] theorem protect_callHandle (timerDelay : UInt32) :
    (protect env closures s timerDelay).1.callHandle = s.1.callHandle := by
  obtain ⟨_, _, h⟩ := startExpire_spec env closures.updateProtected timerDelay s
  exact h.callHandle

/-- A wait that starts leaves the manager UpdateProtected. -/
@[simp] theorem protect_currentState (timerDelay : UInt32) :
    (protect env closures s timerDelay).1.currentState = .kCacheUpdateProtected := rfl

/-- Starting a lease gives the mutex back as it was found. -/
@[simp] theorem guarantee_locked : (guarantee env closures s).2.locked = s.2.locked := by
  obtain ⟨_, _, h⟩ := startExpire_spec env closures.guaranteed kDefaultExpireMillisecond s
  exact h.locked

/-- Starting a lease acquires the mutex: again, where it was held. -/
@[simp] theorem guarantee_relocked :
    (guarantee env closures s).2.relocked = (s.2.relocked || s.2.locked) := by
  obtain ⟨_, _, h⟩ := startExpire_spec env closures.guaranteed kDefaultExpireMillisecond s
  exact h.relocked

/-- Starting a wait gives the mutex back as it was found. -/
@[simp] theorem protect_locked (timerDelay : UInt32) :
    (protect env closures s timerDelay).2.locked = s.2.locked := by
  obtain ⟨_, _, h⟩ := startExpire_spec env closures.updateProtected timerDelay s
  exact h.locked

/-- Starting a wait acquires the mutex: again, where it was held. -/
@[simp] theorem protect_relocked (timerDelay : UInt32) :
    (protect env closures s timerDelay).2.relocked = (s.2.relocked || s.2.locked) := by
  obtain ⟨_, _, h⟩ := startExpire_spec env closures.updateProtected timerDelay s
  exact h.relocked

/-- After a wait started the manager is not Idle. -/
theorem protect_not_idle (timerDelay : UInt32) :
    (protect env closures s timerDelay).1.currentState ≠ .kCacheIdle := by
  rw [protect_currentState]
  decide

/-- The times of a lease that starts: at least the whole lease after the operation began, at most
the whole lease after it ended. -/
theorem guarantee_times :
    s.2.now env + 10000 ≤ (guarantee env closures s).1.expireTime ∧
      (guarantee env closures s).1.expireTime ≤ (guarantee env closures s).2.now env + 10000 := by
  obtain ⟨_, _, h⟩ := startExpire_spec env closures.guaranteed kDefaultExpireMillisecond s
  exact ⟨h.now_le_expireTime, h.expireTime_le.trans h.timer_expireTime_le⟩

/-- Starting a lease reads the clock. -/
theorem guarantee_readings_lt : s.2.readings < (guarantee env closures s).2.readings := by
  obtain ⟨_, _, h⟩ := startExpire_spec env closures.guaranteed kDefaultExpireMillisecond s
  exact h.readings_lt

/-- Starting a wait reads the clock. -/
theorem protect_readings_lt (timerDelay : UInt32) :
    s.2.readings < (protect env closures s timerDelay).2.readings := by
  obtain ⟨_, _, h⟩ := startExpire_spec env closures.updateProtected timerDelay s
  exact h.readings_lt

/-- The Idle state is entered without touching the queue. -/
theorem setCacheState_idle :
    setCacheState env closures .kCacheIdle s =
      (.ok (), ({ s.1 with timerId := 0, expireTime := 0, currentState := .kCacheIdle }, s.2)) :=
  rfl

/-- The Guaranteed state is entered by starting a lease. -/
theorem setCacheState_guaranteed :
    setCacheState env closures .kCacheGuaranteed s = (.ok (), guarantee env closures s) := rfl

/-- `timer_delay`, the time left of the lease as an `int32_t`. -/
def timerDelay (s : CacheStateManager φ × Runtime κ) : Int :=
  toInt32 (s.1.expireTime - (getTimeStamp env 0 s.2).1)

/-- While the lease is in its normal bounds `timer_delay` is the time left, and its conversions are
exact. -/
theorem timerDelay_exact (hlt : s.2.now env < s.1.expireTime)
    (hle : s.1.expireTime ≤ s.2.now env + 10000) :
    timerDelay env s = s.1.expireTime - s.2.now env ∧
      ((UInt32.ofNat (timerDelay env s).toNat).toNat : Int) = s.1.expireTime - s.2.now env := by
  have hexact : timerDelay env s = s.1.expireTime - s.2.now env := by
    unfold timerDelay getTimeStamp
    have h0 : ((0 : UInt32).toNat : Int) = 0 := rfl
    rw [h0, Int.add_zero, toInt32_of_mem] <;> omega
  refine ⟨hexact, ?_⟩
  rw [UInt32.toNat_ofNat', hexact, Nat.mod_eq_of_lt (by omega)]
  omega

/-- The times of a wait that starts: it does not end before the lease it waits for, nor later than
a whole lease from now. -/
theorem protect_times {timerDelay' : UInt32} (hlt : s.2.now env < s.1.expireTime)
    (hle : s.1.expireTime ≤ s.2.now env + 10000)
    (hdelay : timerDelay' = UInt32.ofNat (timerDelay env s).toNat)
    (s₀ : CacheStateManager φ × Runtime κ) (hnow : s.2.now env ≤ s₀.2.now env) :
    s.1.expireTime ≤ (protect env closures s₀ timerDelay').1.expireTime ∧
      (protect env closures s₀ timerDelay').1.expireTime ≤
        (protect env closures s₀ timerDelay').2.now env + 10000 := by
  obtain ⟨_, _, h⟩ := startExpire_spec env closures.updateProtected timerDelay' s₀
  have hexact := (timerDelay_exact env s hlt hle).2
  rw [← hdelay] at hexact
  have h₁ := h.now_le_expireTime
  have h₂ := h.expireTime_le.trans h.timer_expireTime_le
  rw [hexact] at h₁ h₂
  refine ⟨?_, h₂.trans ?_⟩
  · change _ ≤ (startExpire env closures.updateProtected timerDelay' s₀).1.expireTime
    omega
  · change _ ≤ (startExpire env closures.updateProtected timerDelay' s₀).2.now env + 10000
    omega

/-- The UpdateProtected state is refused where nothing is left of the lease. -/
theorem setCacheState_updateProtected_of_nonpos (h : timerDelay env s ≤ 0) :
    setCacheState env closures .kCacheUpdateProtected s =
      (.error (.csn .kErrorSysRoutine "timer is expire,should not run here"),
        (s.1, s.2.readClock)) := by
  simp only [setCacheState, enterState]
  rw [if_pos (show toInt32 _ ≤ 0 from h)]
  rfl

/-- The UpdateProtected state is entered by starting a wait for what is left of the lease. -/
theorem setCacheState_updateProtected_of_pos (h : 0 < timerDelay env s) :
    setCacheState env closures .kCacheUpdateProtected s =
      (.ok (), protect env closures (s.1, s.2.readClock)
        (UInt32.ofNat (timerDelay env s).toNat)) := by
  simp only [setCacheState, enterState]
  rw [if_neg (show ¬ toInt32 _ ≤ 0 from not_le.mpr h)]
  rfl

variable {s}

/-- An update of an Idle manager starts a lease. -/
theorem updateOp_idle (h : s.1.currentState = .kCacheIdle) :
    updateOp env closures opId f s =
      (.ok (.kOperationOk, (guarantee env closures s).1.expireTime), guarantee env closures s) := by
  simp only [updateOp, h, setCacheState_guaranteed, andThen_ok]

/-- An update of a Guaranteed manager with op id 0 or an empty handler is refused. -/
theorem updateOp_guaranteed_of_bad (h : s.1.currentState = .kCacheGuaranteed)
    (hbad : opId = 0 ∨ f.isNone) :
    updateOp env closures opId f s =
      (.error (.csn .kErrorIllArgument "CacheGuaranteedState update_op with error argument"),
        s) := by
  simp only [updateOp, h, if_pos hbad]

/-- An update of a Guaranteed manager whose lease is over throws, with its op id and handler stored.
-/
theorem updateOp_guaranteed_of_late (h : s.1.currentState = .kCacheGuaranteed)
    (hgood : ¬ (opId = 0 ∨ f.isNone)) (hdelay : timerDelay env s ≤ 0) :
    updateOp env closures opId f s =
      (.error (.csn .kErrorSysRoutine "timer is expire,should not run here"),
        ((s.1.setOpId opId).setCallHandle f, s.2.readClock)) := by
  simp only [updateOp, h, if_neg hgood]
  rw [setCacheState_updateProtected_of_nonpos env closures
    ((s.1.setOpId opId).setCallHandle f, s.2) hdelay]
  rfl

/-- An update of a Guaranteed manager waits for the end of the lease. -/
theorem updateOp_guaranteed_of_early (h : s.1.currentState = .kCacheGuaranteed)
    (hgood : ¬ (opId = 0 ∨ f.isNone)) (hdelay : 0 < timerDelay env s) :
    updateOp env closures opId f s =
      let s' := protect env closures ((s.1.setOpId opId).setCallHandle f, s.2.readClock)
        (UInt32.ofNat (timerDelay env s).toNat)
      (.ok (.kOperationDefer, s'.1.expireTime), s') := by
  simp only [updateOp, h, if_neg hgood]
  rw [setCacheState_updateProtected_of_pos env closures
    ((s.1.setOpId opId).setCallHandle f, s.2) hdelay]
  rfl

/-- An update of an UpdateProtected manager is told to retry, unless its op id is 0. -/
theorem updateOp_updateProtected (h : s.1.currentState = .kCacheUpdateProtected) :
    updateOp env closures opId f s =
      (if opId = 0 then
        .error (.csn .kErrorIllArgument
          "CacheUpdateProtectedState update_op with error argument")
      else .ok (.kOperationRetry, s.1.expireTime), s) := by
  simp only [updateOp, h]
  split <;> rfl

/-- A read of an Idle manager starts a lease. -/
theorem readOp_idle (h : s.1.currentState = .kCacheIdle) :
    readOp env closures opId s =
      (.ok (.kOperationOk, (guarantee env closures s).1.expireTime), guarantee env closures s) := by
  simp only [readOp, h, setCacheState_guaranteed, andThen_ok]

/-- A read of a Guaranteed manager stores its op id and starts the lease anew. -/
theorem readOp_guaranteed (h : s.1.currentState = .kCacheGuaranteed) :
    readOp env closures opId s =
      let s' := guarantee env closures (s.1.setOpId opId, s.2)
      (.ok (.kOperationOk, s'.1.expireTime), s') := by
  simp only [readOp, h, setCacheState_guaranteed, andThen_ok]

/-- A read of an UpdateProtected manager is told the present time. -/
theorem readOp_updateProtected (h : s.1.currentState = .kCacheUpdateProtected) :
    readOp env closures opId s =
      (.ok (.kOperationOk, s.2.now env), (s.1, s.2.readClock)) := by
  simp [readOp, h, getTimeStamp]

end operations

end CacheSystem

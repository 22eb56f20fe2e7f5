import CacheSystem.Lib.Run
import CacheSystem.StateManager

/-!
# Elements and the data center (`cache_data_center.h`)

A `CacheElement` holds a value, the value of an update that waits, that update's handler, and the
state manager; the data center maps cache ids to elements. All elements share the one timer queue.

* `T` is the type of the values, `H` names the update handlers handed to `update_op`. What calling
  a handler does is outside this file: `Hooks.invoke`. The queue also holds timers of other owners
  (`F`), whose callbacks are `Hooks.foreign`. Both act on the queue and on an outer state `τ`, and
  never on the elements.
* `temp_value_` is `none` when it holds no submitted value: after construction, and after
  `std::move` took the value out. Assigning from it then leaves `Hooks.unspecified` in `value_`.
* `CenterMem.trace` is a history that no operation reads: what the data center handed out,
  assigned and completed, in order. `Event.moved` records the value taken out of `temp_value_`.

`runTimer` says what each timer callback does, `Center.step` is one operation of a client of the
data center, and `Reachable` are the states of its runs.
-/

namespace CacheSystem

/-! ## Data -/

/-- What a queued timer's callback was made from: the two lambdas of `enter_state`, which capture
the manager of the element with this cache id, or something of another owner. -/
inductive TimerCall (F : Type)
  | guaranteed (cacheId : UInt64)
  | updateProtected (cacheId : UInt64)
  | foreign (f : F)
  deriving DecidableEq, Repr

/-- The element whose manager armed the timer. -/
def TimerCall.owner {F : Type} : TimerCall F → Option UInt64
  | .guaranteed cacheId => some cacheId
  | .updateProtected cacheId => some cacheId
  | .foreign _ => none

/-- The lambdas of the manager of the element with this cache id. -/
def closures {F : Type} (cacheId : UInt64) : Closures (TimerCall F) where
  guaranteed := .guaranteed cacheId
  updateProtected := .updateProtected cacheId

/-- Source: `cache_data_center.h`, `CacheElement`. The only handler its manager is ever given is
`std::bind(&CacheElement::call_handle, this, _1, _2, _3)`, here `()`. -/
structure CacheElement (T H : Type) where
  opId : UInt32 := 0
  value : T
  tempValue : Option T := none
  call : Option H := none
  state : CacheStateManager Unit := {}
  deriving DecidableEq, Repr

/-- What happened at the data center. -/
inductive Event (T H : Type)
  /-- `read_op` returned `kOperationOk`. -/
  | read (cacheId : UInt64) (expire : Int) (value : T)
  /-- `update_op` returned `kOperationOk` and assigned `value_`. -/
  | updated (cacheId : UInt64) (opId : UInt32) (f : H) (value : T) (expire : Int)
  /-- `update_op` returned `kOperationDefer`. -/
  | deferred (cacheId : UInt64) (opId : UInt32) (f : H) (value : T)
  /-- `update_op` returned `kOperationRetry`. -/
  | retried (cacheId : UInt64) (opId : UInt32) (f : H)
  /-- `call_handle` assigned `value_` from `temp_value_`, submitted with the handler `call_`. -/
  | moved (cacheId : UInt64) (f : Option H) (value : Option T)
  /-- `call_` was invoked; `value` is `value_` at that moment. -/
  | completed (cacheId : UInt64) (status : OpResult) (opId : UInt32) (f : H) (value : T)
      (expire : Int)
  deriving DecidableEq, Repr

/-- The memory of the process beside the timer queue. -/
structure CenterMem (T H τ : Type) where
  /-- `map_`. -/
  map : UInt64 → Option (CacheElement T H)
  outer : τ
  trace : List (Event T H)

/-- The data center in its process. -/
abbrev Center (T H F τ : Type) := Proc (TimerCall F) (CenterMem T H τ)

/-- What the code around the data center does. -/
structure Hooks (T H F τ : Type) where
  /-- Calling an `UpdateCallHandler`. -/
  invoke : H → OpResult → UInt32 → Int → Proc (TimerCall F) τ →
    Option Thrown × Proc (TimerCall F) τ
  /-- The callback of a timer of another owner. -/
  foreign : F → Proc (TimerCall F) τ → Option Thrown × Proc (TimerCall F) τ
  /-- What an object holds after it was moved from. -/
  unspecified : T

variable {T H F τ : Type}

/-- The process without the elements. -/
def Center.outer (p : Center T H F τ) : Proc (TimerCall F) τ := ⟨p.rt, p.mem.outer⟩

/-- The same elements in another process. -/
def Center.withOuter (p : Center T H F τ) (q : Proc (TimerCall F) τ) : Center T H F τ :=
  ⟨q.rt, { p.mem with outer := q.mem }⟩

/-- `map_.emplace` of an id that is absent. -/
def Center.emplace (p : Center T H F τ) (cacheId : UInt64) (e : CacheElement T H) :
    Center T H F τ :=
  ⟨p.rt, { p.mem with map := Function.update p.mem.map cacheId (some e) }⟩

/-- The element assigned, and the queue its manager left. -/
def Center.put (p : Center T H F τ) (cacheId : UInt64) (e : CacheElement T H)
    (s : CacheStateManager Unit × Runtime (TimerCall F)) : Center T H F τ :=
  ⟨s.2, { p.mem with map := Function.update p.mem.map cacheId (some { e with state := s.1 }) }⟩

/-- One more event. -/
def Center.record (p : Center T H F τ) (event : Event T H) : Center T H F τ :=
  ⟨p.rt, { p.mem with trace := p.mem.trace ++ [event] }⟩

/-! ## Operations -/

/-- Source: `cache_data_center.h`, `CacheDataCenter::read_op` and `CacheElement::read_op`: the
result, with `*expire` and `*value` where they are written. -/
def Center.readOp (env : Env) (cacheId : UInt64) (opId : UInt32) (p : Center T H F τ) :
    Except Thrown (OpResult × Option (Int × T)) × Center T H F τ :=
  match p.mem.map cacheId with
  | none => (.ok (.kOperationErrorNoData, none), p)
  | some e =>
      match CacheSystem.readOp env (closures cacheId) opId (e.state, p.rt) with
      | (.error t, s) => (.error t, p.put cacheId e s)
      | (.ok r, s) =>
          (.ok (r.1, some (r.2, e.value)),
            (p.put cacheId e s).record (.read cacheId r.2 e.value))

/-- Source: `cache_data_center.h`, `CacheElement::update_op`. -/
def Center.updateElement (env : Env) (cacheId : UInt64) (e : CacheElement T H) (value : T)
    (opId : UInt32) (f : H) (p : Center T H F τ) :
    Except Thrown (OpResult × Int) × Center T H F τ :=
  match updateOp env (closures cacheId) opId (some ()) (e.state, p.rt) with
  | (.error t, s) => (.error t, p.put cacheId e s)
  | (.ok (.kOperationOk, expire), s) =>
      (.ok (.kOperationOk, expire),
        (p.put cacheId { e with value := value } s).record
          (.updated cacheId opId f value expire))
  | (.ok (.kOperationDefer, expire), s) =>
      (.ok (.kOperationDefer, expire),
        (p.put cacheId { e with tempValue := some value, opId := opId, call := some f } s).record
          (.deferred cacheId opId f value))
  | (.ok (r, expire), s) =>
      (.ok (r, expire), (p.put cacheId e s).record (.retried cacheId opId f))

/-- Source: `cache_data_center.h`, `CacheDataCenter::update_op`: an absent id gets a new element
first. The result and `*expire`. -/
def Center.updateOp [Inhabited T] (env : Env) (cacheId : UInt64) (value : T) (opId : UInt32)
    (f : H) (p : Center T H F τ) : Except Thrown (OpResult × Int) × Center T H F τ :=
  match p.mem.map cacheId with
  | some e => p.updateElement env cacheId e value opId f
  | none =>
      (p.emplace cacheId { value := default }).updateElement env cacheId { value := default }
        value opId f

/-- Source: `cache_data_center.h`, `CacheElement::call_handle`. -/
def Center.callHandle (hooks : Hooks T H F τ) (cacheId : UInt64) (e : CacheElement T H)
    (status : OpResult) (opId : UInt32) (expire : Int) (p : Center T H F τ) :
    Option Thrown × Center T H F τ :=
  let assigned : CacheElement T H × Center T H F τ :=
    if status = .kOperationOk then
      let e' := { e with value := e.tempValue.getD hooks.unspecified, tempValue := none }
      (e', (p.put cacheId e' (e.state, p.rt)).record (.moved cacheId e.call e.tempValue))
    else (e, p)
  match assigned.1.call with
  | none => (some .badFunctionCall, assigned.2)
  | some f =>
      let p := assigned.2.record (.completed cacheId status opId f assigned.1.value expire)
      let r := hooks.invoke f status opId expire p.outer
      (r.1, p.withOuter r.2)

/-- What a queued timer's callback does. Source: `cache_state_manager.h`, the lambdas in the
`enter_state` of the Guaranteed and the UpdateProtected state. -/
def runTimer (env : Env) (hooks : Hooks T H F τ) (call : TimerCall F) (p : Center T H F τ) :
    Option Thrown × Center T H F τ :=
  match call with
  | .guaranteed cacheId =>
      match p.mem.map cacheId with
      | none => (none, p)
      | some e =>
          match setCacheState env (closures cacheId) .kCacheIdle (e.state, p.rt) with
          | (.error t, s) => (some t, p.put cacheId e s)
          | (.ok (), s) => (none, p.put cacheId e s)
  | .updateProtected cacheId =>
      match p.mem.map cacheId with
      | none => (none, p)
      | some e =>
          match setCacheState env (closures cacheId) .kCacheGuaranteed (e.state, p.rt) with
          | (.error t, s) => (some t, p.put cacheId e s)
          | (.ok (), s) =>
              match s.1.callHandle with
              | none => (some .badFunctionCall, p.put cacheId e s)
              | some () =>
                  (p.put cacheId e s).callHandle hooks cacheId { e with state := s.1 }
                    .kOperationOk s.1.opId s.1.expireTime
  | .foreign f =>
      let r := hooks.foreign f p.outer
      (r.1, p.withOuter r.2)

/-! ## What the callbacks do -/

/-- An element whose waiting value was taken out, under the manager `m`. -/
def CacheElement.taken (e : CacheElement T H) (unspecified : T) (m : CacheStateManager Unit) :
    CacheElement T H :=
  { e with value := e.tempValue.getD unspecified, tempValue := none, state := m }

section runTimer

variable (env : Env) (hooks : Hooks T H F τ) {p : Center T H F τ} {cacheId : UInt64}
  {e : CacheElement T H}

/-- The Guaranteed timer makes its element Idle. -/
theorem runTimer_guaranteed (he : p.mem.map cacheId = some e) :
    runTimer env hooks (.guaranteed cacheId) p =
      (none, p.put cacheId e
        ({ e.state with timerId := 0, expireTime := 0, currentState := .kCacheIdle }, p.rt)) := by
  simp only [runTimer, he, setCacheState_idle]

/-- The process while the handler of the waiting update runs: the element is Guaranteed anew, and
`value_` is the waiting value. -/
def Center.completing (p : Center T H F τ) (env : Env) (cacheId : UInt64) (e : CacheElement T H)
    (unspecified : T) : Center T H F τ :=
  let s := guarantee env (closures cacheId) (e.state, p.rt)
  ⟨s.2,
    { p.mem with
        map := Function.update p.mem.map cacheId (some (e.taken unspecified s.1))
        trace := p.mem.trace ++ [.moved cacheId e.call e.tempValue] }⟩

/-- The completion: a lease starts, and the update that waits is assigned and told. -/
theorem runTimer_updateProtected (he : p.mem.map cacheId = some e) :
    runTimer env hooks (.updateProtected cacheId) p =
      let s := guarantee env (closures cacheId) (e.state, p.rt)
      match e.state.callHandle with
      | none => (some .badFunctionCall, p.put cacheId e s)
      | some () => (p.put cacheId e s).callHandle hooks cacheId { e with state := s.1 }
          .kOperationOk e.state.opId s.1.expireTime := by
  simp only [runTimer, he, setCacheState_guaranteed, guarantee_callHandle, guarantee_opId]

/-- **The UpdateProtected timer completes the waiting update**: the element is Guaranteed anew,
`value_` is assigned, and the handler is called with the new expiry. -/
theorem runTimer_updateProtected_of_call (he : p.mem.map cacheId = some e)
    (hcall : e.state.callHandle = some ()) {f : H} (hf : e.call = some f) :
    runTimer env hooks (.updateProtected cacheId) p =
      let p' := (p.completing env cacheId e hooks.unspecified).record
        (.completed cacheId .kOperationOk e.state.opId f (e.tempValue.getD hooks.unspecified)
          (guarantee env (closures cacheId) (e.state, p.rt)).1.expireTime)
      let r := hooks.invoke f .kOperationOk e.state.opId
        (guarantee env (closures cacheId) (e.state, p.rt)).1.expireTime p'.outer
      (r.1, p'.withOuter r.2) := by
  rw [runTimer_updateProtected env hooks he]
  simp only [hcall, Center.callHandle, if_true, hf, Center.put, Function.update_idem,
    Center.completing, CacheElement.taken, Center.record]

/-- Without a handler in the element the callback assigns `value_` and throws. -/
theorem runTimer_updateProtected_of_noCall (he : p.mem.map cacheId = some e)
    (hcall : e.state.callHandle = some ()) (hf : e.call = none) :
    runTimer env hooks (.updateProtected cacheId) p =
      (some .badFunctionCall, p.completing env cacheId e hooks.unspecified) := by
  rw [runTimer_updateProtected env hooks he]
  simp only [hcall, Center.callHandle, if_true, hf, Center.put, Function.update_idem,
    Center.completing, CacheElement.taken, Center.record]

end runTimer

/-! ## The parts of a changed process -/

section parts

variable (p : Center T H F τ) (cacheId : UInt64) (e : CacheElement T H)
  (s : CacheStateManager Unit × Runtime (TimerCall F)) (event : Event T H)
  (q : Proc (TimerCall F) τ)

/-- The memory outside is seen with the same timer queue. -/
@[simp] theorem outer_rt : p.outer.rt = p.rt := rfl

/-- The memory outside is the one that the data center carries. -/
@[simp] theorem outer_mem : p.outer.mem = p.mem.outer := rfl

/-- The timer queue of the code outside is put back. -/
@[simp] theorem withOuter_rt : (p.withOuter q).rt = q.rt := rfl

/-- The code outside does not touch the elements. -/
@[simp] theorem withOuter_map : (p.withOuter q).mem.map = p.mem.map := rfl

/-- The code outside does not touch the history. -/
@[simp] theorem withOuter_trace : (p.withOuter q).mem.trace = p.mem.trace := rfl

/-- The memory of the code outside is put back. -/
@[simp] theorem withOuter_outer : (p.withOuter q).mem.outer = q.mem := rfl

/-- Recording does not touch the timer queue. -/
@[simp] theorem record_rt : (p.record event).rt = p.rt := rfl

/-- Recording does not touch the elements. -/
@[simp] theorem record_map : (p.record event).mem.map = p.mem.map := rfl

/-- The event comes last. -/
@[simp] theorem record_trace : (p.record event).mem.trace = p.mem.trace ++ [event] := rfl

/-- Recording does not touch the memory outside. -/
@[simp] theorem record_outer : (p.record event).mem.outer = p.mem.outer := rfl

/-- The timer queue of the manager is put back. -/
@[simp] theorem put_rt : (p.put cacheId e s).rt = s.2 := rfl

/-- The manager is put back into its element. -/
@[simp] theorem put_map : (p.put cacheId e s).mem.map =
    Function.update p.mem.map cacheId (some { e with state := s.1 }) := rfl

/-- Putting a manager back is no event. -/
@[simp] theorem put_trace : (p.put cacheId e s).mem.trace = p.mem.trace := rfl

/-- Putting a manager back does not touch the memory outside. -/
@[simp] theorem put_outer : (p.put cacheId e s).mem.outer = p.mem.outer := rfl

variable (env : Env) (unspecified : T)

/-- A completion starts a lease. -/
@[simp] theorem completing_rt : (p.completing env cacheId e unspecified).rt =
    (guarantee env (closures cacheId) (e.state, p.rt)).2 := rfl

/-- A completion takes the update that waits out of its element. -/
@[simp] theorem completing_map : (p.completing env cacheId e unspecified).mem.map =
    Function.update p.mem.map cacheId
      (some (e.taken unspecified (guarantee env (closures cacheId) (e.state, p.rt)).1)) := rfl

/-- A completion assigns what the element holds back. -/
@[simp] theorem completing_trace : (p.completing env cacheId e unspecified).mem.trace =
    p.mem.trace ++ [.moved cacheId e.call e.tempValue] := rfl

/-- The memory outside is as it was until the handler runs. -/
@[simp] theorem completing_outer :
    (p.completing env cacheId e unspecified).mem.outer = p.mem.outer := rfl

end parts

/-! ## All that an operation does -/

/-- Assigning what is there already changes the queue only. -/
theorem Center.put_self {p : Center T H F τ} {cacheId : UInt64} {e : CacheElement T H}
    (he : p.mem.map cacheId = some e) (rt : Runtime (TimerCall F)) :
    p.put cacheId e (e.state, rt) = ⟨rt, p.mem⟩ := by
  unfold Center.put
  rw [Function.update_eq_self_iff.mpr he.symm]

/-- All that `read_op` can do. -/
inductive ReadOp (env : Env) (cacheId : UInt64) (opId : UInt32) (p : Center T H F τ) :
    Except Thrown (OpResult × Option (Int × T)) × Center T H F τ → Prop
  /-- There is no such element. -/
  | absent (he : p.mem.map cacheId = none) :
      ReadOp env cacheId opId p (.ok (.kOperationErrorNoData, none), p)
  /-- The element's lease starts, or starts anew. -/
  | renewed {e m s} (he : p.mem.map cacheId = some e)
      (hm : (e.state.currentState = .kCacheIdle ∧ m = e.state) ∨
        (e.state.currentState = .kCacheGuaranteed ∧ m = e.state.setOpId opId))
      (hs : s = guarantee env (closures cacheId) (m, p.rt)) :
      ReadOp env cacheId opId p
        (.ok (.kOperationOk, some (s.1.expireTime, e.value)),
          (p.put cacheId e s).record (.read cacheId s.1.expireTime e.value))
  /-- An update waits: the value is handed out without a lease. -/
  | unleased {e} (he : p.mem.map cacheId = some e)
      (hstate : e.state.currentState = .kCacheUpdateProtected) :
      ReadOp env cacheId opId p
        (.ok (.kOperationOk, some (p.rt.now env, e.value)),
          Center.record ⟨p.rt.readClock, p.mem⟩ (.read cacheId (p.rt.now env) e.value))

/-- `read_op` does one of these. -/
theorem readOp_spec (env : Env) (cacheId : UInt64) (opId : UInt32) (p : Center T H F τ) :
    ReadOp env cacheId opId p (p.readOp env cacheId opId) := by
  unfold Center.readOp
  split
  · rename_i he
    exact .absent he
  · rename_i e he
    rcases hstate : e.state.currentState with _ | _ | _
    · rw [readOp_idle env _ opId (s := (e.state, p.rt)) hstate]
      exact .renewed he (Or.inl ⟨hstate, rfl⟩) rfl
    · rw [readOp_guaranteed env _ opId (s := (e.state, p.rt)) hstate]
      exact .renewed he (Or.inr ⟨hstate, rfl⟩) rfl
    · rw [readOp_updateProtected env _ opId (s := (e.state, p.rt)) hstate]
      dsimp only
      rw [Center.put_self he]
      exact .unleased he hstate

/-- `read_op` leaves the rest of the process alone. -/
theorem ReadOp.outer {env : Env} {cacheId : UInt64} {opId : UInt32} {p : Center T H F τ}
    {r : Except Thrown (OpResult × Option (Int × T)) × Center T H F τ}
    (h : ReadOp env cacheId opId p r) : r.2.mem.outer = p.mem.outer := by
  cases h <;> rfl

/-- The element `update_op` works on: the one with this id, or a new one. -/
def Center.Found [Inhabited T] (p : Center T H F τ) (cacheId : UInt64) (e : CacheElement T H) :
    Prop :=
  p.mem.map cacheId = some e ∨ (p.mem.map cacheId = none ∧ e = { value := default })

/-- All that `update_op` can do. -/
inductive UpdateOp [Inhabited T] (env : Env) (cacheId : UInt64) (value : T) (opId : UInt32) (f : H)
    (p : Center T H F τ) : Except Thrown (OpResult × Int) × Center T H F τ → Prop
  /-- No lease runs: the value is assigned and a lease starts. -/
  | assigned {e s} (he : p.Found cacheId e) (hstate : e.state.currentState = .kCacheIdle)
      (hs : s = guarantee env (closures cacheId) (e.state, p.rt)) :
      UpdateOp env cacheId value opId f p
        (.ok (.kOperationOk, s.1.expireTime),
          (p.put cacheId { e with value := value } s).record
            (.updated cacheId opId f value s.1.expireTime))
  /-- The id of the operation is zero. -/
  | refused {e text} (he : p.mem.map cacheId = some e) (hstate : e.state.currentState ≠ .kCacheIdle)
      (h0 : opId = 0) :
      UpdateOp env cacheId value opId f p (.error (.csn .kErrorIllArgument text), p)
  /-- The lease is over and its timer was not run yet: the manager keeps what it was told. -/
  | overdue {e} (he : p.mem.map cacheId = some e)
      (hstate : e.state.currentState = .kCacheGuaranteed) (h0 : opId ≠ 0)
      (hdelay : timerDelay env (e.state, p.rt) ≤ 0) :
      UpdateOp env cacheId value opId f p
        (.error (.csn .kErrorSysRoutine "timer is expire,should not run here"),
          p.put cacheId e ((e.state.setOpId opId).setCallHandle (some ()), p.rt.readClock))
  /-- A lease runs: the update waits for its end. -/
  | deferred {e s} (he : p.mem.map cacheId = some e)
      (hstate : e.state.currentState = .kCacheGuaranteed) (h0 : opId ≠ 0)
      (hdelay : 0 < timerDelay env (e.state, p.rt))
      (hs : s = protect env (closures cacheId)
        ((e.state.setOpId opId).setCallHandle (some ()), p.rt.readClock)
        (UInt32.ofNat (timerDelay env (e.state, p.rt)).toNat)) :
      UpdateOp env cacheId value opId f p
        (.ok (.kOperationDefer, s.1.expireTime),
          (p.put cacheId { e with tempValue := some value, opId := opId, call := some f } s).record
            (.deferred cacheId opId f value))
  /-- An update waits already. -/
  | retried {e} (he : p.mem.map cacheId = some e)
      (hstate : e.state.currentState = .kCacheUpdateProtected) (h0 : opId ≠ 0) :
      UpdateOp env cacheId value opId f p
        (.ok (.kOperationRetry, e.state.expireTime), p.record (.retried cacheId opId f))

/-- `update_op` does one of these. -/
theorem updateOp_spec [Inhabited T] (env : Env) (cacheId : UInt64) (value : T) (opId : UInt32)
    (f : H) (p : Center T H F τ) :
    UpdateOp env cacheId value opId f p (p.updateOp env cacheId value opId f) := by
  unfold Center.updateOp
  split
  · rename_i e he
    unfold Center.updateElement
    rcases hstate : e.state.currentState with _ | _ | _
    · rw [updateOp_idle env _ opId (some ()) (s := (e.state, p.rt)) hstate]
      exact .assigned (Or.inl he) hstate rfl
    · by_cases h0 : opId = 0
      · rw [updateOp_guaranteed_of_bad env _ opId (some ()) (s := (e.state, p.rt)) hstate
          (Or.inl h0)]
        dsimp only
        rw [Center.put_self he]
        exact .refused he (by rw [hstate]; decide) h0
      · have hgood : ¬ (opId = 0 ∨ (some ()).isNone) := by simp [h0]
        rcases le_or_gt (timerDelay env (e.state, p.rt)) 0 with hdelay | hdelay
        · rw [updateOp_guaranteed_of_late env _ opId (some ()) (s := (e.state, p.rt)) hstate hgood
            hdelay]
          exact .overdue he hstate h0 hdelay
        · rw [updateOp_guaranteed_of_early env _ opId (some ()) (s := (e.state, p.rt)) hstate hgood
            hdelay]
          exact .deferred he hstate h0 hdelay rfl
    · rw [updateOp_updateProtected env _ opId (some ()) (s := (e.state, p.rt)) hstate]
      by_cases h0 : opId = 0
      · rw [if_pos h0]
        dsimp only
        rw [Center.put_self he]
        exact .refused he (by rw [hstate]; decide) h0
      · rw [if_neg h0]
        dsimp only
        rw [Center.put_self he]
        exact .retried he hstate h0
  · rename_i he
    unfold Center.updateElement
    rw [updateOp_idle env _ opId (some ()) rfl]
    have hput : ∀ (e : CacheElement T H) s,
        (p.emplace cacheId { value := default }).put cacheId e s = p.put cacheId e s := by
      intro e s
      simp only [Center.emplace, Center.put, Function.update_idem]
    dsimp only
    rw [hput]
    exact .assigned (Or.inr ⟨he, rfl⟩) rfl rfl

/-- `update_op` leaves the rest of the process alone. -/
theorem UpdateOp.outer [Inhabited T] {env : Env} {cacheId : UInt64} {value : T} {opId : UInt32}
    {f : H} {p : Center T H F τ} {r : Except Thrown (OpResult × Int) × Center T H F τ}
    (h : UpdateOp env cacheId value opId f p r) : r.2.mem.outer = p.mem.outer := by
  cases h <;> rfl

/-- An update that is deferred found a lease, and waits in its element under its own id. -/
theorem UpdateOp.of_defer [Inhabited T] {env : Env} {cacheId : UInt64} {value : T} {opId : UInt32}
    {f : H} {p p' : Center T H F τ} {expire : Int}
    (h : UpdateOp env cacheId value opId f p (.ok (.kOperationDefer, expire), p')) :
    ∃ e s, p.mem.map cacheId = some e ∧ e.state.currentState = .kCacheGuaranteed ∧ opId ≠ 0 ∧
      0 < timerDelay env (e.state, p.rt) ∧ s.1.opId = opId ∧
      p' = (p.put cacheId { e with tempValue := some value, opId := opId, call := some f } s).record
        (.deferred cacheId opId f value) := by
  generalize hr : (Except.ok (OpResult.kOperationDefer, expire), p') = r at h
  cases h with
  | assigned he hstate hs => cases hr
  | refused he hstate h0 => cases hr
  | overdue he hstate h0 hdelay => cases hr
  | retried he hstate h0 => cases hr
  | @deferred e s he hstate h0 hdelay hs =>
      cases hr
      refine ⟨e, s, he, hstate, h0, hdelay, ?_, rfl⟩
      rw [hs]
      exact protect_opId env _ _ _

/-- All that a timer's callback can do. -/
inductive RunTimer (env : Env) (hooks : Hooks T H F τ) (p : Center T H F τ) :
    TimerCall F → Option Thrown × Center T H F τ → Prop
  /-- The element of the timer is not there. -/
  | absent {call cacheId} (howner : call.owner = some cacheId)
      (he : p.mem.map cacheId = none) : RunTimer env hooks p call (none, p)
  /-- The lease ends. -/
  | idled {cacheId e} (he : p.mem.map cacheId = some e) :
      RunTimer env hooks p (.guaranteed cacheId)
        (none, p.put cacheId e
          ({ e.state with timerId := 0, expireTime := 0, currentState := .kCacheIdle }, p.rt))
  /-- The waiting update is completed. -/
  | completed {cacheId e f s p' r} (he : p.mem.map cacheId = some e)
      (hs : s = guarantee env (closures cacheId) (e.state, p.rt)) (hf : e.call = some f)
      (hp : p' = (p.completing env cacheId e hooks.unspecified).record
        (.completed cacheId .kOperationOk e.state.opId f (e.tempValue.getD hooks.unspecified)
          s.1.expireTime))
      (hr : r = hooks.invoke f .kOperationOk e.state.opId s.1.expireTime p'.outer) :
      RunTimer env hooks p (.updateProtected cacheId) (r.1, p'.withOuter r.2)
  /-- The element has no handler. -/
  | noCall {cacheId e} (he : p.mem.map cacheId = some e) (hf : e.call = none) :
      RunTimer env hooks p (.updateProtected cacheId)
        (some .badFunctionCall, p.completing env cacheId e hooks.unspecified)
  /-- The manager has no handler. -/
  | unbound {cacheId e} (he : p.mem.map cacheId = some e) (hcall : e.state.callHandle = none) :
      RunTimer env hooks p (.updateProtected cacheId)
        (some .badFunctionCall,
          p.put cacheId e (guarantee env (closures cacheId) (e.state, p.rt)))
  /-- A timer of another owner. -/
  | foreign {f r} (hr : r = hooks.foreign f p.outer) :
      RunTimer env hooks p (.foreign f) (r.1, p.withOuter r.2)

/-- A callback does one of these. -/
theorem runTimer_spec (env : Env) (hooks : Hooks T H F τ) (call : TimerCall F)
    (p : Center T H F τ) : RunTimer env hooks p call (runTimer env hooks call p) := by
  rcases call with cacheId | cacheId | f
  · rcases he : p.mem.map cacheId with _ | e
    · simp only [runTimer, he]
      exact .absent rfl he
    · rw [runTimer_guaranteed env hooks he]
      exact .idled he
  · rcases he : p.mem.map cacheId with _ | e
    · simp only [runTimer, he]
      exact .absent rfl he
    · rcases hcall : e.state.callHandle with _ | ⟨⟩
      · rw [runTimer_updateProtected env hooks he, hcall]
        exact .unbound he hcall
      · rcases hf : e.call with _ | f
        · rw [runTimer_updateProtected_of_noCall env hooks he hcall hf]
          exact .noCall he hf
        · rw [runTimer_updateProtected_of_call env hooks he hcall hf]
          exact .completed he rfl hf rfl rfl
  · exact .foreign rfl

/-- A callback that was run did one of these. -/
theorem RunTimer.of_eq {call : TimerCall F} {p : Center T H F τ}
    {r : Option Thrown × Center T H F τ} (h : runTimer env hooks call p = r) :
    RunTimer env hooks p call r := by
  rw [← h]
  exact runTimer_spec env hooks call p

/-- What every callback keeps of the memory, the whole of `tick` keeps. -/
theorem tickLoop_mem {env : Env} {hooks : Hooks T H F τ} {P : CenterMem T H τ → Prop}
    (hrun : ∀ p call r, P p.mem → RunTimer env hooks p call r → P r.2.mem) {fuel : Nat}
    {p p' : Center T H F τ} {e : Option Thrown}
    (h : tickLoop env (runTimer env hooks) fuel p = some (e, p')) (hp : P p.mem) : P p'.mem := by
  refine tickLoop_induct (fun q => P q.mem) (fun q r hq hr => ?_) fuel p e p' hp h
  have hcall : ∀ call, P (runTimer env hooks call { q with rt := q.rt.readClock.lock }).2.mem :=
    fun call => hrun { q with rt := q.rt.readClock.lock } call _ hq (runTimer_spec _ _ _ _)
  cases hr with
  | empty hq' => exact hq
  | notDue hq' hdue => exact hq
  | dead hq' hdue h0 hperm => exact hq
  | @threw t rest e p₁ hq' hdue h0 hrun =>
      have := hcall t.callback
      rw [hrun] at this
      exact this
  | @fired t rest p₁ hq' hdue h0 hrun =>
      have := hcall t.callback
      rw [hrun] at this
      exact this

/-! ## Runs -/

/-- An operation on the data center or on the timer queue. -/
inductive Op (T H : Type)
  | read (cacheId : UInt64) (opId : UInt32)
  | update (cacheId : UInt64) (value : T) (opId : UInt32) (f : H)
  /-- A `tick` that ends within `fuel` iterations. -/
  | tick (fuel : Nat)

/-- The state after an operation, whether it returned or threw to a caller that caught; `none` for
a `tick` that needs more iterations. -/
def Center.step [Inhabited T] (env : Env) (hooks : Hooks T H F τ) (p : Center T H F τ) :
    Op T H → Option (Center T H F τ)
  | .read cacheId opId => some (p.readOp env cacheId opId).2
  | .update cacheId value opId f => some (p.updateOp env cacheId value opId f).2
  | .tick fuel => (tickLoop env (runTimer env hooks) fuel p).map Prod.snd

/-- The state after a list of operations. -/
def Center.run [Inhabited T] (env : Env) (hooks : Hooks T H F τ) (p : Center T H F τ) :
    List (Op T H) → Option (Center T H F τ)
  | [] => some p
  | op :: ops => (p.step env hooks op).bind fun p' => p'.run env hooks ops

/-- Handlers and foreign callbacks that do nothing. -/
def Hooks.silent (unspecified : T) : Hooks T H F τ where
  invoke _ _ _ _ q := (none, q)
  foreign _ q := (none, q)
  unspecified := unspecified

/-- The empty data center. -/
def Center.initial (outer : τ) : Center T H F τ := ⟨{}, { map := fun _ => none, outer, trace := [] }⟩

/-- The states of the runs whose steps all meet a condition `ok` on the state before the step and
the operation. -/
inductive Reachable [Inhabited T] (env : Env) (hooks : Hooks T H F τ)
    (ok : Center T H F τ → Op T H → Prop) : Center T H F τ → Prop
  | initial (outer : τ) : Reachable env hooks ok (Center.initial outer)
  | step {p p' : Center T H F τ} (op : Op T H) :
      Reachable env hooks ok p → ok p op → p.step env hooks op = some p' →
        Reachable env hooks ok p'

/-- A run without a condition on its steps. -/
theorem Reachable.run [Inhabited T] {env : Env} {hooks : Hooks T H F τ}
    {ok : Center T H F τ → Op T H → Prop} (hok : ∀ p op, ok p op) {ops : List (Op T H)}
    {p p' : Center T H F τ} (h : Reachable env hooks ok p) (hrun : p.run env hooks ops = some p') :
    Reachable env hooks ok p' := by
  have hruns : Lib.Run.IsRun (Center.step env hooks) (Center.run env hooks) :=
    ⟨fun _ => rfl, fun _ _ _ => rfl⟩
  exact hruns.keeps (fun p op _ h hstep => .step op h (hok p op) hstep) h hrun

end CacheSystem

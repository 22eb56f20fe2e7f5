import CacheSystem.DataCenter
import CacheSystem.Ownership

/-!
# Who owns which timer

What holds between the managers of the data center and the timer queue. The managers are those of
its elements, under their cache ids, and everything here is `Ownership.lean` at these owners
(`centerOwners`); `armed_iff` and `exclusive_iff` are the bridges.

* `ManagedBy cacheId m t` : the timer `t` is the expiry of the manager `m` of this element: it has
  its id, one firing left, the callback of `m`'s current state, and is due no earlier than `m`
  believes.
* `Armed` : ids in the queue are pairwise different and not null, a manager that is not Idle has
  its expiry in the queue, and an Idle one has no timer id. This holds in every run.
* `Exclusive` : every live timer of a manager is its expiry. This needs that no operation finds
  its element overdue (`Lease.lean` has the condition), for `stop_expire` leaves a timer that is
  due in the queue.

`RunTimer.callback` says what a callback does to the queue and the managers, and
`armed_of_reachable` puts `Armed` together over runs.
-/

namespace CacheSystem

variable {T H F τ : Type}

/-! ## The relations -/

/-- The callback that `enter_state` of this state gave the expiry. -/
def CacheState.callback (state : CacheState) (cacheId : UInt64) : Option (TimerCall F) :=
  match state with
  | .kCacheIdle => none
  | .kCacheGuaranteed => some (.guaranteed cacheId)
  | .kCacheUpdateProtected => some (.updateProtected cacheId)

/-- The timer is the expiry of this manager. -/
structure ManagedBy (cacheId : UInt64) (m : CacheStateManager Unit)
    (t : EventTimer (TimerCall F)) : Prop where
  timerId : m.timerId = t.timerId
  repeat_ : t.repeat_ = 1
  callback : m.currentState.callback cacheId = some t.callback
  expireTime_le : m.expireTime ≤ t.expireTime

/-- An Idle manager has no expiry; any other one has it in the queue. -/
def ManagerOk (q : List (EventTimer (TimerCall F))) (cacheId : UInt64)
    (m : CacheStateManager Unit) : Prop :=
  (m.currentState = .kCacheIdle ∧ m.timerId = 0 ∧ m.expireTime = 0) ∨ ∃ t ∈ q, ManagedBy cacheId m t

/-- The queue and the managers fit together. -/
structure Armed (q : List (EventTimer (TimerCall F)))
    (map : UInt64 → Option (CacheElement T H)) : Prop where
  nodup : (q.map EventTimer.timerId).Nodup
  ne_zero : ∀ t ∈ q, t.timerId ≠ 0
  owned : ∀ t ∈ q, ∀ cacheId, t.callback.owner = some cacheId →
    (∃ e, map cacheId = some e) ∧ (t.repeat_ = 0 ∨ t.repeat_ = 1)
  managers : ∀ cacheId e, map cacheId = some e → ManagerOk q cacheId e.state

/-- Every live timer of a manager is its expiry. -/
def Exclusive (q : List (EventTimer (TimerCall F)))
    (map : UInt64 → Option (CacheElement T H)) : Prop :=
  ∀ t ∈ q, t.repeat_ ≠ 0 → ∀ cacheId, t.callback.owner = some cacheId →
    ∃ e, map cacheId = some e ∧ ManagedBy cacheId e.state t

/-- The managers of the elements own the timers of the data center. -/
def centerOwners : Owners UInt64 (TimerCall F) where
  closures := closures
  owner := TimerCall.owner
  owner_guaranteed _ := rfl
  owner_updateProtected _ := rfl

/-- The managers of the elements. -/
def managersOf (map : UInt64 → Option (CacheElement T H)) :
    UInt64 → Option (CacheStateManager Unit) :=
  fun cacheId => (map cacheId).map CacheElement.state

/-- An element brings its manager. -/
theorem managersOf_of_some {map : UInt64 → Option (CacheElement T H)} {cacheId : UInt64}
    {e : CacheElement T H} (he : map cacheId = some e) :
    managersOf map cacheId = some e.state := by
  rw [managersOf, he, Option.map_some]

/-- A manager has its element. -/
theorem of_managersOf {map : UInt64 → Option (CacheElement T H)} {cacheId : UInt64}
    {m : CacheStateManager Unit} (hm : managersOf map cacheId = some m) :
    ∃ e, map cacheId = some e ∧ e.state = m := Option.map_eq_some_iff.mp hm

/-- The manager of an element that is put in. -/
@[simp] theorem managersOf_update (map : UInt64 → Option (CacheElement T H)) (cacheId : UInt64)
    (e : CacheElement T H) : managersOf (Function.update map cacheId (some e)) =
      Function.update (managersOf map) cacheId (some e.state) := by
  funext id
  by_cases hid : id = cacheId
  · subst hid
    simp [managersOf]
  · simp [managersOf, hid]

/-- The closure of a state, as a call of the data center. -/
theorem callback_eq_closure (state : CacheState) (cacheId : UInt64) :
    (state.callback cacheId : Option (TimerCall F)) = state.closure (closures cacheId) := by
  cases state <;> rfl

/-- The expiry timer of an element, as that of its manager. -/
theorem managedBy_iff {cacheId : UInt64} {m : CacheStateManager Unit}
    {t : EventTimer (TimerCall F)} : ManagedBy cacheId m t ↔ centerOwners.Expiry cacheId m t := by
  constructor
  · intro h
    exact ⟨h.timerId, h.repeat_, callback_eq_closure _ _ ▸ h.callback, h.expireTime_le⟩
  · intro h
    exact ⟨h.timerId, h.repeat_, (callback_eq_closure _ _).trans h.callback, h.expireTime_le⟩

/-- A manager fits the queue, as one of a family. -/
theorem managerOk_iff {q : List (EventTimer (TimerCall F))} {cacheId : UInt64}
    {m : CacheStateManager Unit} : ManagerOk q cacheId m ↔ centerOwners.Fits q cacheId m := by
  unfold ManagerOk Owners.Fits
  simp only [managedBy_iff]

/-- **The bridge to the general relations.** -/
theorem armed_iff {q : List (EventTimer (TimerCall F))}
    {map : UInt64 → Option (CacheElement T H)} :
    Armed q map ↔ centerOwners.Armed q (managersOf map) := by
  constructor
  · intro h
    refine ⟨h.nodup, h.ne_zero, fun t ht cacheId hid => ?_, fun cacheId m hm => ?_⟩
    · obtain ⟨⟨e, he⟩, hrep⟩ := h.owned t ht cacheId hid
      exact ⟨⟨e.state, managersOf_of_some he⟩, hrep⟩
    · obtain ⟨e, he, rfl⟩ := of_managersOf hm
      exact managerOk_iff.mp (h.managers cacheId e he)
  · intro h
    refine ⟨h.nodup, h.ne_zero, fun t ht cacheId hid => ?_, fun cacheId e he => ?_⟩
    · obtain ⟨⟨m, hm⟩, hrep⟩ := h.owned t ht cacheId hid
      obtain ⟨e, he, -⟩ := of_managersOf hm
      exact ⟨⟨e, he⟩, hrep⟩
    · exact managerOk_iff.mpr (h.managers cacheId e.state (managersOf_of_some he))

/-- One live timer for each element, as for a family of managers. -/
theorem exclusive_iff {q : List (EventTimer (TimerCall F))}
    {map : UInt64 → Option (CacheElement T H)} :
    Exclusive q map ↔ centerOwners.Exclusive q (managersOf map) := by
  constructor
  · intro h t ht hlive cacheId hid
    obtain ⟨e, he, hm⟩ := h t ht hlive cacheId hid
    exact ⟨e.state, managersOf_of_some he, managedBy_iff.mp hm⟩
  · intro h t ht hlive cacheId hid
    obtain ⟨m, hm, hexpiry⟩ := h t ht hlive cacheId hid
    obtain ⟨e, he, rfl⟩ := of_managersOf hm
    exact ⟨e, he, managedBy_iff.mpr hexpiry⟩

/-- The timer of the UpdateProtected state belongs to a manager in that state. -/
theorem ManagedBy.updateProtected {cacheId : UInt64} {m : CacheStateManager Unit}
    {t : EventTimer (TimerCall F)} (h : ManagedBy cacheId m t)
    (hcall : t.callback = .updateProtected cacheId) :
    m.currentState = .kCacheUpdateProtected := by
  have := h.callback
  rw [hcall] at this
  cases hstate : m.currentState with
  | kCacheIdle => rw [hstate] at this; cases this
  | kCacheGuaranteed => rw [hstate] at this; cases this
  | kCacheUpdateProtected => rfl

/-- The timer of the Guaranteed state belongs to a manager in that state. -/
theorem ManagedBy.guaranteed {cacheId : UInt64} {m : CacheStateManager Unit}
    {t : EventTimer (TimerCall F)} (h : ManagedBy cacheId m t)
    (hcall : t.callback = .guaranteed cacheId) : m.currentState = .kCacheGuaranteed := by
  have := h.callback
  rw [hcall] at this
  cases hstate : m.currentState with
  | kCacheIdle => rw [hstate] at this; cases this
  | kCacheGuaranteed => rfl
  | kCacheUpdateProtected => rw [hstate] at this; cases this

variable {q q' : List (EventTimer (TimerCall F))} {map : UInt64 → Option (CacheElement T H)}

/-- Timers with the same id are the same. -/
theorem Armed.eq_of_timerId (h : Armed q map) {t t' : EventTimer (TimerCall F)} (ht : t ∈ q)
    (ht' : t' ∈ q) (hid : t.timerId = t'.timerId) : t = t' :=
  (armed_iff.mp h).eq_of_timerId ht ht' hid

/-- An Idle manager has no timer. -/
theorem ManagerOk.idle {cacheId : UInt64} {m : CacheStateManager Unit} (h : ManagerOk q cacheId m)
    (hidle : m.currentState = .kCacheIdle) : m.timerId = 0 := (managerOk_iff.mp h).idle hidle

/-- The op id is not about timers. -/
theorem ManagerOk.setOpId {cacheId : UInt64} {m : CacheStateManager Unit}
    (h : ManagerOk q cacheId m) (opId : UInt32) : ManagerOk q cacheId (m.setOpId opId) :=
  managerOk_iff.mpr ((managerOk_iff.mp h).sameExpiry (.setOpId m opId))

/-- The handler is not about timers. -/
theorem ManagerOk.setCallHandle {cacheId : UInt64} {m : CacheStateManager Unit}
    (h : ManagerOk q cacheId m) (callHandle : Option Unit) :
    ManagerOk q cacheId (m.setCallHandle callHandle) :=
  managerOk_iff.mpr ((managerOk_iff.mp h).sameExpiry (.setCallHandle m m.opId callHandle))

/-! ## The element map -/

/-- An element may be replaced by one whose manager fits the queue; an absent one may come in. -/
theorem Armed.update (h : Armed q map) {cacheId : UInt64} {e : CacheElement T H}
    (he : ManagerOk q cacheId e.state) : Armed q (Function.update map cacheId (some e)) := by
  rw [armed_iff, managersOf_update]
  exact (armed_iff.mp h).update (managerOk_iff.mp he)

/-- Changing what an Idle manager or the expiry does not see. -/
theorem Exclusive.sameExpiry (hx : Exclusive q map) {cacheId : UInt64} {e e' : CacheElement T H}
    (he : map cacheId = some e) (hsame : Owners.SameExpiry e.state e'.state) :
    Exclusive q (Function.update map cacheId (some e')) := by
  rw [exclusive_iff, managersOf_update]
  exact (exclusive_iff.mp hx).update (managersOf_of_some he) fun t _ h => h.sameExpiry hsame

/-! ## Timers of other owners -/

/-- What code outside the data center may do to the queue: read the clock, and add timers of its
own. -/
inductive AddsForeign (env : Env) (rt : Runtime (TimerCall F)) : Runtime (TimerCall F) → Prop
  | refl : AddsForeign env rt rt
  | read {rt'} : AddsForeign env rt rt' → AddsForeign env rt rt'.readClock
  | add {rt'} (f : F) (timeoutMs repeat_ : UInt32) : AddsForeign env rt rt' →
      AddsForeign env rt (pushTimer env (.foreign f) timeoutMs repeat_ rt').2

/-- Handlers and foreign callbacks that do no more than that. -/
structure Hooks.Benign (env : Env) (hooks : Hooks T H F τ) : Prop where
  invoke : ∀ f status opId expire q,
    AddsForeign env q.rt (hooks.invoke f status opId expire q).2.rt
  foreign : ∀ f q, AddsForeign env q.rt (hooks.foreign f q).2.rt

/-- Handlers that do nothing are benign. -/
theorem Hooks.silent_benign (env : Env) (unspecified : T) :
    (Hooks.silent unspecified : Hooks T H F τ).Benign env :=
  ⟨fun _ _ _ _ _ => .refl, fun _ _ => .refl⟩

variable {env : Env} {rt rt' : Runtime (TimerCall F)}

/-- They are others to the managers. -/
theorem AddsForeign.others (h : AddsForeign env rt rt') : centerOwners.AddsOthers env rt rt' := by
  induction h with
  | refl => exact .refl
  | read _ ih => exact .read ih
  | add f timeoutMs repeat_ _ ih => exact .add _ rfl timeoutMs repeat_ ih

/-- The clock is read on. -/
theorem AddsForeign.readings_le (h : AddsForeign env rt rt') : rt.readings ≤ rt'.readings :=
  h.others.readings_le

/-- The time does not go back. -/
theorem AddsForeign.now_le (h : AddsForeign env rt rt') : rt.now env ≤ rt'.now env :=
  h.others.now_le

/-- No timer is lost. -/
theorem AddsForeign.mem (h : AddsForeign env rt rt') {t : EventTimer (TimerCall F)}
    (ht : t ∈ rt.queue) : t ∈ rt'.queue := h.others.mem ht

/-- A timer of a manager that is there afterwards was there before. -/
theorem AddsForeign.mem_of_owned (h : AddsForeign env rt rt') {t : EventTimer (TimerCall F)}
    (ht : t ∈ rt'.queue) (howner : t.callback.owner ≠ none) : t ∈ rt.queue :=
  h.others.mem_of_owned ht howner

/-- Timers from outside do not disturb the managers. -/
theorem Armed.addsForeign (h : Armed rt.queue map) (hadd : AddsForeign env rt rt') :
    Armed rt'.queue map := armed_iff.mpr ((armed_iff.mp h).addsOthers hadd.others)

/-- Timers from outside are no timers of an element. -/
theorem Exclusive.addsForeign (h : Exclusive rt.queue map) (hadd : AddsForeign env rt rt') :
    Exclusive rt'.queue map := exclusive_iff.mpr ((exclusive_iff.mp h).addsOthers hadd.others)

/-! ## Re-arming -/

/-- The manager of an element that is there fits the queue, and so does a new element's. -/
theorem Armed.found [Inhabited T] {p : Center T H F τ} (ha : Armed p.rt.queue p.mem.map)
    {cacheId : UInt64} {e : CacheElement T H} (he : p.Found cacheId e) :
    ManagerOk p.rt.queue cacheId e.state := by
  rcases he with he | ⟨-, rfl⟩
  · exact ha.managers cacheId e he
  · exact Or.inl ⟨rfl, rfl, rfl⟩

/-- A lease that starts keeps `Armed`. -/
theorem Armed.guarantee (ha : Armed rt.queue map) {cacheId : UInt64} {m : CacheStateManager Unit}
    (hm : ManagerOk rt.queue cacheId m) {e : CacheElement T H}
    (he : e.state = (guarantee env (closures cacheId) (m, rt)).1) :
    Armed (CacheSystem.guarantee env (closures cacheId) (m, rt)).2.queue
      (Function.update map cacheId (some e)) := by
  rw [armed_iff, managersOf_update, he]
  exact (armed_iff.mp ha).guarantee (managerOk_iff.mp hm)

/-- A wait that starts keeps `Armed`. -/
theorem Armed.protect (ha : Armed rt.queue map) {cacheId : UInt64} {m : CacheStateManager Unit}
    (hm : ManagerOk rt.queue cacheId m) (timerDelay : UInt32) {e : CacheElement T H}
    (he : e.state = (protect env (closures cacheId) (m, rt) timerDelay).1) :
    Armed (CacheSystem.protect env (closures cacheId) (m, rt) timerDelay).2.queue
      (Function.update map cacheId (some e)) := by
  rw [armed_iff, managersOf_update, he]
  exact (armed_iff.mp ha).protect (managerOk_iff.mp hm) timerDelay

/-- A lease that starts keeps `Exclusive` when the old expiry is cancelled, or there is none. -/
theorem Exclusive.guarantee (hx : Exclusive rt.queue map) (ha : Armed rt.queue map)
    {cacheId : UInt64} {m : CacheStateManager Unit}
    (hm : ∀ e₀, map cacheId = some e₀ → e₀.state.timerId = m.timerId)
    (hstopped : m.timerId = 0 ∨ rt.now env < m.expireTime) {e : CacheElement T H}
    (he : e.state = (guarantee env (closures cacheId) (m, rt)).1) :
    Exclusive (CacheSystem.guarantee env (closures cacheId) (m, rt)).2.queue
      (Function.update map cacheId (some e)) := by
  rw [exclusive_iff, managersOf_update, he]
  refine (exclusive_iff.mp hx).guarantee (armed_iff.mp ha) (fun m₀ hm₀ => ?_) hstopped
  obtain ⟨e₀, he₀, rfl⟩ := of_managersOf hm₀
  exact hm e₀ he₀

/-- A wait that starts keeps `Exclusive` when the old expiry is cancelled, or there is none. -/
theorem Exclusive.protect (hx : Exclusive rt.queue map) (ha : Armed rt.queue map)
    {cacheId : UInt64} {m : CacheStateManager Unit}
    (hm : ∀ e₀, map cacheId = some e₀ → e₀.state.timerId = m.timerId)
    (hstopped : m.timerId = 0 ∨ rt.now env < m.expireTime) (timerDelay : UInt32)
    {e : CacheElement T H}
    (he : e.state = (protect env (closures cacheId) (m, rt) timerDelay).1) :
    Exclusive (CacheSystem.protect env (closures cacheId) (m, rt) timerDelay).2.queue
      (Function.update map cacheId (some e)) := by
  rw [exclusive_iff, managersOf_update, he]
  refine (exclusive_iff.mp hx).protect (armed_iff.mp ha) (fun m₀ hm₀ => ?_) hstopped timerDelay
  obtain ⟨e₀, he₀, rfl⟩ := of_managersOf hm₀
  exact hm e₀ he₀

/-- Re-arming a manager keeps the timers of other owners. -/
theorem Rearmed.keeps {callBack : TimerCall F} {timeoutMs : UInt32}
    {s s' : CacheStateManager Unit × Runtime (TimerCall F)} {timer : EventTimer (TimerCall F)}
    {base : List (EventTimer (TimerCall F))}
    (h : Rearmed env callBack timeoutMs s s' timer base) (ha : Armed s.2.queue map)
    {cacheId : UInt64} (hm : ManagerOk s.2.queue cacheId s.1) :
    ∀ t ∈ s.2.queue, t.callback.owner = none → t ∈ s'.2.queue := by
  intro t ht howner
  refine h.queue.mem_iff.mpr (List.mem_cons_of_mem _ (h.mem_base_of_ne ht fun hid => ?_))
  have hown := (managerOk_iff.mp hm).owner_of_timerId (armed_iff.mp ha) ht hid
  exact absurd (hown.owner.symm.trans howner) (by simp)

/-- Starting a lease keeps the timers from outside. -/
theorem guarantee_keeps (ha : Armed rt.queue map) {cacheId : UInt64} {m : CacheStateManager Unit}
    (hm : ManagerOk rt.queue cacheId m) : ∀ t ∈ rt.queue, t.callback.owner = none →
      t ∈ (CacheSystem.guarantee env (closures cacheId) (m, rt)).2.queue := by
  obtain ⟨timer, base, h⟩ :=
    startExpire_spec env (closures cacheId).guaranteed kDefaultExpireMillisecond (m, rt)
  exact h.keeps ha hm

/-- Starting a wait keeps the timers from outside. -/
theorem protect_keeps (ha : Armed rt.queue map) {cacheId : UInt64} {m : CacheStateManager Unit}
    (hm : ManagerOk rt.queue cacheId m) (timerDelay : UInt32) :
    ∀ t ∈ rt.queue, t.callback.owner = none →
      t ∈ (CacheSystem.protect env (closures cacheId) (m, rt) timerDelay).2.queue := by
  obtain ⟨timer, base, h⟩ :=
    startExpire_spec env (closures cacheId).updateProtected timerDelay (m, rt)
  exact h.keeps ha hm

/-! ## Cancelling a timer of another owner -/

/-- Cancelling a timer from outside does not disturb the managers. -/
theorem Armed.cancelForeign (ha : Armed q map) {t : EventTimer (TimerCall F)} (ht : t ∈ q)
    (howner : t.callback.owner = none) : Armed (q.map (EventTimer.cancel t.timerId)) map :=
  armed_iff.mpr ((armed_iff.mp ha).cancelOther ht howner)

/-- Cancelling a timer makes none live. -/
theorem Exclusive.cancelForeign (hx : Exclusive q map) (timerId : Nat) :
    Exclusive (q.map (EventTimer.cancel timerId)) map :=
  exclusive_iff.mpr ((exclusive_iff.mp hx).cancel timerId)

/-! ## Operations and runs -/

section runs

variable {hooks : Hooks T H F τ} {p : Center T H F τ}

/-- A read leaves timers and managers in order. -/
theorem Armed.readOp {cacheId : UInt64} {opId : UInt32}
    {r : Except Thrown (OpResult × Option (Int × T)) × Center T H F τ}
    (h : ReadOp env cacheId opId p r) (ha : Armed p.rt.queue p.mem.map) :
    Armed r.2.rt.queue r.2.mem.map := by
  cases h with
  | absent he => exact ha
  | @renewed e m s he hm hs =>
      subst hs
      refine ha.guarantee ?_ rfl
      rcases hm with ⟨-, rfl⟩ | ⟨-, rfl⟩
      · exact ha.managers cacheId e he
      · exact (ha.managers cacheId e he).setOpId opId
  | unleased he hstate => exact ha

/-- An update leaves timers and managers in order. -/
theorem Armed.updateOp [Inhabited T] {cacheId : UInt64} {value : T} {opId : UInt32} {f : H}
    {r : Except Thrown (OpResult × Int) × Center T H F τ}
    (h : UpdateOp env cacheId value opId f p r) (ha : Armed p.rt.queue p.mem.map) :
    Armed r.2.rt.queue r.2.mem.map := by
  cases h with
  | assigned he hstate hs =>
      subst hs
      exact ha.guarantee (ha.found he) rfl
  | refused he hstate h0 => exact ha
  | @overdue e he hstate h0 hdelay =>
      exact ha.update (((ha.managers cacheId e he).setOpId opId).setCallHandle (some ()))
  | @deferred e s he hstate h0 hdelay hs =>
      subst hs
      simp only [record_rt, record_map, put_rt, put_map]
      refine Armed.protect ?_ ?_ _ rfl
      · exact ha
      · exact ((ha.managers cacheId e he).setOpId opId).setCallHandle (some ())
  | retried he hstate h0 => exact ha

/-- What a callback does to the queue and the managers. -/
theorem RunTimer.callback (hb : hooks.Benign env) {call : TimerCall F}
    {r : Option Thrown × Center T H F τ} (h : RunTimer env hooks p call r) :
    centerOwners.Callback env call p.rt (managersOf p.mem.map) r.2.rt (managersOf r.2.mem.map) := by
  cases h with
  | @absent _ cacheId howner he => exact .absent howner (by rw [managersOf, he, Option.map_none])
  | @idled cacheId e he =>
      rw [put_map, managersOf_update]
      exact .idled (managersOf_of_some he) rfl
  | @completed cacheId e f s p' r he hs hf hp hr =>
      have hadd := hb.invoke f .kOperationOk e.state.opId s.1.expireTime p'.outer
      rw [← hr] at hadd
      subst hp
      rw [withOuter_map, record_map, completing_map, managersOf_update]
      exact .renewed (managersOf_of_some he) rfl hadd.others
  | @noCall cacheId e he hf =>
      rw [completing_map, managersOf_update]
      exact .renewed (managersOf_of_some he) rfl .refl
  | @unbound cacheId e he hcall =>
      rw [put_map, managersOf_update]
      exact .renewed (managersOf_of_some he) rfl .refl
  | @foreign f r hr =>
      have hadd := hb.foreign f p.outer
      rw [← hr] at hadd
      exact .other rfl hadd.others

/-- The callbacks of the data center do no more. -/
theorem runTimer_runs (hb : hooks.Benign env) :
    centerOwners.Runs env (CacheSystem.runTimer env hooks)
      fun mem : CenterMem T H τ => managersOf mem.map :=
  fun call p => (runTimer_spec env hooks call p).callback hb

/-- A callback leaves timers and managers in order. -/
theorem Armed.runTimer (hb : hooks.Benign env) {call : TimerCall F}
    {r : Option Thrown × Center T H F τ} (h : RunTimer env hooks p call r)
    (ha : Armed p.rt.queue p.mem.map) : Armed r.2.rt.queue r.2.mem.map :=
  armed_iff.mpr ((armed_iff.mp ha).callback (h.callback hb))

/-- The timers of other owners stay in the queue. -/
theorem ReadOp.keeps {cacheId : UInt64} {opId : UInt32}
    {r : Except Thrown (OpResult × Option (Int × T)) × Center T H F τ}
    (h : ReadOp env cacheId opId p r) (ha : Armed p.rt.queue p.mem.map) :
    ∀ t ∈ p.rt.queue, t.callback.owner = none → t ∈ r.2.rt.queue := by
  cases h with
  | absent he => exact fun t ht _ => ht
  | @renewed e m s he hm hs =>
      subst hs
      apply guarantee_keeps ha
      rcases hm with ⟨-, rfl⟩ | ⟨-, rfl⟩
      · exact ha.managers cacheId e he
      · exact (ha.managers cacheId e he).setOpId opId
  | unleased he hstate => exact fun t ht _ => ht

/-- An update keeps the timers from outside. -/
theorem UpdateOp.keeps [Inhabited T] {cacheId : UInt64} {value : T} {opId : UInt32} {f : H}
    {r : Except Thrown (OpResult × Int) × Center T H F τ}
    (h : UpdateOp env cacheId value opId f p r) (ha : Armed p.rt.queue p.mem.map) :
    ∀ t ∈ p.rt.queue, t.callback.owner = none → t ∈ r.2.rt.queue := by
  cases h with
  | assigned he hstate hs =>
      subst hs
      exact guarantee_keeps ha (ha.found he)
  | refused he hstate h0 => exact fun t ht _ => ht
  | overdue he hstate h0 hdelay => exact fun t ht _ => ht
  | @deferred e s he hstate h0 hdelay hs =>
      subst hs
      have ha' : Armed p.rt.readClock.queue p.mem.map := ha
      exact protect_keeps ha'
        (((ha.managers cacheId e he).setOpId opId).setCallHandle (some ())) _
  | retried he hstate h0 => exact fun t ht _ => ht

/-- A callback keeps the timers from outside. -/
theorem RunTimer.keeps (hb : hooks.Benign env) {call : TimerCall F}
    {r : Option Thrown × Center T H F τ} (h : RunTimer env hooks p call r)
    (ha : Armed p.rt.queue p.mem.map) :
    ∀ t ∈ p.rt.queue, t.callback.owner = none → t ∈ r.2.rt.queue := by
  cases h with
  | absent howner he => exact fun t ht _ => ht
  | idled he => exact fun t ht _ => ht
  | @completed cacheId e f s p' r he hs hf hp hr =>
      have hadd := hb.invoke f .kOperationOk e.state.opId s.1.expireTime p'.outer
      rw [← hr] at hadd
      subst hp
      intro t ht howner
      exact hadd.mem (guarantee_keeps ha (ha.managers cacheId e he) t ht howner)
  | @noCall cacheId e he hf => exact guarantee_keeps ha (ha.managers cacheId e he)
  | @unbound cacheId e he hcall => exact guarantee_keeps ha (ha.managers cacheId e he)
  | @foreign f r hr =>
      have hadd := hb.foreign f p.outer
      rw [← hr] at hadd
      exact fun t ht _ => hadd.mem ht

/-- A callback starts no wait. -/
theorem RunTimer.waits (hb : hooks.Benign env) {call : TimerCall F}
    {r : Option Thrown × Center T H F τ} (h : RunTimer env hooks p call r)
    {t : EventTimer (TimerCall F)} (ht : t ∈ r.2.rt.queue) (hlive : t.repeat_ ≠ 0)
    {cacheId : UInt64} (hcall : t.callback = .updateProtected cacheId) : t ∈ p.rt.queue := by
  have howner : t.callback.owner ≠ none := by
    rw [hcall]
    exact fun h => nomatch h
  have hg : ∀ {id} {m : CacheStateManager Unit},
      t ∈ (guarantee env (closures id) (m, p.rt)).2.queue → t ∈ p.rt.queue := by
    intro id m ht
    refine (Owners.mem_guarantee_live (o := centerOwners) ht hlive).resolve_right fun hlease => ?_
    rw [hcall] at hlease
    cases hlease
  cases h with
  | absent howner he => exact ht
  | idled he => exact ht
  | @completed cacheId e f s p' r he hs hf hp hr =>
      have hadd := hb.invoke f .kOperationOk e.state.opId s.1.expireTime p'.outer
      rw [← hr] at hadd
      subst hp
      exact hg (hadd.mem_of_owned ht howner)
  | noCall he hf => exact hg ht
  | unbound he hcall' => exact hg ht
  | @foreign f r hr =>
      have hadd := hb.foreign f p.outer
      rw [← hr] at hadd
      exact hadd.mem_of_owned ht howner

/-- A callback does not turn the clock back. -/
theorem RunTimer.readings_le (hb : hooks.Benign env) {call : TimerCall F}
    {r : Option Thrown × Center T H F τ} (h : RunTimer env hooks p call r) :
    p.rt.readings ≤ r.2.rt.readings := (h.callback hb).readings_le

/-- The timer whose callback ran in an iteration of `tick` is still slot 0 after it. -/
theorem RunTimer.front (hb : hooks.Benign env) (ha : Armed p.rt.queue p.mem.map)
    {t : EventTimer (TimerCall F)} {rest : List (EventTimer (TimerCall F))}
    (hq : p.rt.queue = t :: rest) (hdue : t.expireTime ≤ p.rt.now env)
    {r : Option Thrown × Center T H F τ}
    (h : RunTimer env hooks { p with rt := p.rt.readClock.lock } t.callback r) :
    ∃ rest₁, r.2.rt.queue = t :: rest₁ :=
  List.head?_eq_some_iff.mp <| (h.callback hb).head? (armed_iff.mp ha)
    (List.head?_eq_some_iff.mpr ⟨rest, hq⟩) (hdue.trans (now_le_reading env p.rt (Nat.le_succ _)))

/-- **An iteration of `tick` keeps `Armed`**, also when the callback throws. -/
theorem Armed.tickIter (hb : hooks.Benign env) {r : Iter (Center T H F τ)}
    (h : TickIter env (CacheSystem.runTimer env hooks) p r) (ha : Armed p.rt.queue p.mem.map) :
    Armed r.state.rt.queue r.state.mem.map := by
  refine armed_iff.mpr (Owners.Armed.tickIter ?_ (runTimer_runs hb) h)
  exact armed_iff.mp ha

/-- **An iteration of `tick` keeps `Exclusive`**, unless the callback of a manager throws. -/
theorem Exclusive.tickIter (hx : Exclusive p.rt.queue p.mem.map) (ha : Armed p.rt.queue p.mem.map)
    (hb : hooks.Benign env) {r : Iter (Center T H F τ)}
    (h : TickIter env (CacheSystem.runTimer env hooks) p r)
    (hthrows : ∀ e p', r = .threw e p' → ∀ t rest, p.rt.queue = t :: rest →
      t.callback.owner = none) :
    Exclusive r.state.rt.queue r.state.mem.map := by
  refine exclusive_iff.mpr (Owners.Exclusive.tickIter ?_ ?_ (runTimer_runs hb) h hthrows)
  · exact exclusive_iff.mp hx
  · exact armed_iff.mp ha

/-- `tick` does not turn the clock back. -/
theorem TickIter.readings_le (hb : hooks.Benign env) {r : Iter (Center T H F τ)}
    (h : TickIter env (CacheSystem.runTimer env hooks) p r) :
    p.rt.readings ≤ r.state.rt.readings := (runTimer_runs hb).readings_le h

/-- `tick` starts no wait. -/
theorem TickIter.waits (hb : hooks.Benign env) {r : Iter (Center T H F τ)}
    (h : TickIter env (CacheSystem.runTimer env hooks) p r) (ha : Armed p.rt.queue p.mem.map)
    {t' : EventTimer (TimerCall F)} (ht' : t' ∈ r.state.rt.queue) (hlive : t'.repeat_ ≠ 0)
    {cacheId : UInt64} (hcall : t'.callback = .updateProtected cacheId) : t' ∈ p.rt.queue := by
  cases h with
  | empty hq => exact ht'
  | notDue hq hdue => exact ht'
  | @dead t rest q hq hdue h0 hperm =>
      rw [hq]
      exact List.mem_cons_of_mem t (hperm.mem_iff.mp ht')
  | @threw t rest e p₁ hq hdue h0 hrun => exact (RunTimer.of_eq hrun).waits hb ht' hlive hcall
  | @fired t rest p₁ hq hdue h0 hrun =>
      have hspec := RunTimer.of_eq hrun
      obtain ⟨rest₁, hq₁⟩ := hspec.front hb ha hq hdue
      rcases mem_settled hq₁ ht' with ht' | ⟨h1, hcall₁⟩
      · refine hspec.waits hb ?_ hlive hcall
        rw [hq₁]
        exact List.mem_cons_of_mem t ht'
      · -- a timer that is re-armed belongs to another owner
        have ht : t ∈ p.rt.queue := by rw [hq]; exact List.mem_cons_self
        have howner := (armed_iff.mp ha).other_of_repeat ht h0 h1
        rw [← hcall₁, hcall] at howner
        cases howner

/-- The empty data center is `Armed`. -/
theorem armed_nil : Armed ([] : List (EventTimer (TimerCall F)))
    (fun _ => none : UInt64 → Option (CacheElement T H)) where
  nodup := List.nodup_nil
  ne_zero t ht := by cases ht
  owned t ht := by cases ht
  managers cacheId e he := by cases he

/-- **A turn leaves timers and managers in order.** -/
theorem Armed.step [Inhabited T] (hb : hooks.Benign env) {p' : Center T H F τ} {op : Op T H}
    (h : p.step env hooks op = some p') (ha : Armed p.rt.queue p.mem.map) :
    Armed p'.rt.queue p'.mem.map := by
  cases op with
  | read cacheId opId =>
      cases h
      exact Armed.readOp (readOp_spec env cacheId opId p) ha
  | update cacheId value opId f =>
      cases h
      exact Armed.updateOp (updateOp_spec env cacheId value opId f p) ha
  | tick fuel =>
      obtain ⟨r, hr, rfl⟩ := Option.map_eq_some_iff.mp h
      exact tickLoop_induct (fun p => Armed p.rt.queue p.mem.map)
        (fun _ _ ha hi => Armed.tickIter hb hi ha) fuel p r.1 r.2 ha hr

/-- **In every run every manager that is not Idle has its expiry in the queue.** -/
theorem armed_of_reachable [Inhabited T] (hb : hooks.Benign env)
    {ok : Center T H F τ → Op T H → Prop} (h : Reachable env hooks ok p) :
    Armed p.rt.queue p.mem.map := by
  induction h with
  | initial outer => exact armed_nil
  | step op _ _ hstep ih => exact Armed.step hb hstep ih

end runs

end CacheSystem

import CacheSystem.StateManager
import Mathlib.Data.List.Nodup

/-!
# Which timer is whose expiry

Any family of managers that share one timer queue, with any callbacks. `Owners` says which of the
callbacks are the lambdas of which manager; timers with other callbacks belong to somebody else.

* `Owners.Expiry i m t` : the timer `t` is the expiry of the manager `m` with the index `i`: it has
  its id, one firing left, the callback of `m`'s current state, and is due no earlier than `m`
  believes.
* `Owners.Armed` : ids in the queue are pairwise different and not null, a manager that is not Idle
  has its expiry in the queue, and an Idle one has no timer id.
* `Owners.Exclusive` : every live timer of a manager is its expiry.

The queue and the managers change in few ways: a timer of somebody else is added (`AddsOthers`), an
expiry is armed anew (`Rearmed`), a callback runs (`Callback`), slot 0 is settled. For each of them
there is one lemma on `Armed` and one on `Exclusive`, and `Armed.tickIter` and `Exclusive.tickIter`
put them together over an iteration of `tick`.
-/

namespace CacheSystem

variable {ι κ φ τ : Type}

/-! ## Re-arming, as a change of the queue -/

section rearmed

variable {env : Env} {callBack : κ} {timeoutMs : UInt32} {s s' : CacheStateManager φ × Runtime κ}
  {timer : EventTimer κ} {base : List (EventTimer κ)}

/-- `stop_expire` changes no id. -/
theorem Rearmed.base_timerIds (h : Rearmed env callBack timeoutMs s s' timer base) :
    base.map EventTimer.timerId = s.2.queue.map EventTimer.timerId := by
  rcases h.base with ⟨-, -, rfl⟩ | ⟨-, rfl⟩
  · rw [List.map_map]
    exact List.map_congr_left fun t _ => cancel_timerId _ t
  · rfl

/-- A timer left by `stop_expire` is one from before, or one of these cancelled. -/
theorem Rearmed.mem_base (h : Rearmed env callBack timeoutMs s s' timer base) {t : EventTimer κ}
    (ht : t ∈ base) : ∃ t₀ ∈ s.2.queue, t.timerId = t₀.timerId ∧ t.callback = t₀.callback ∧
      (t = t₀ ∨ t.repeat_ = 0) := by
  rcases h.base with ⟨-, -, rfl⟩ | ⟨-, rfl⟩
  · obtain ⟨t₀, ht₀, rfl⟩ := List.mem_map.mp ht
    refine ⟨t₀, ht₀, cancel_timerId _ t₀, cancel_callback _ t₀, ?_⟩
    unfold EventTimer.cancel
    split
    · exact Or.inr rfl
    · exact Or.inl rfl
  · exact ⟨t, ht, rfl, rfl, Or.inl rfl⟩

/-- A timer that is not the manager's own is left alone. -/
theorem Rearmed.mem_base_of_ne (h : Rearmed env callBack timeoutMs s s' timer base)
    {t : EventTimer κ} (ht : t ∈ s.2.queue) (hid : t.timerId ≠ s.1.timerId) : t ∈ base := by
  rcases h.base with ⟨-, -, rfl⟩ | ⟨-, rfl⟩
  · exact List.mem_map.mpr ⟨t, ht, cancel_of_ne hid⟩
  · exact ht

/-- A live timer left by `stop_expire` was there before. -/
theorem Rearmed.mem_of_live (h : Rearmed env callBack timeoutMs s s' timer base)
    {t : EventTimer κ} (ht : t ∈ base) (hlive : t.repeat_ ≠ 0) : t ∈ s.2.queue := by
  obtain ⟨t₀, ht₀, -, -, rfl | h0⟩ := h.mem_base ht
  · exact ht₀
  · exact absurd h0 hlive

end rearmed

/-! ## Owners -/

/-- The callback that `enter_state` of this state gave the expiry. -/
def CacheState.closure (closures : Closures κ) : CacheState → Option κ
  | .kCacheIdle => none
  | .kCacheGuaranteed => some closures.guaranteed
  | .kCacheUpdateProtected => some closures.updateProtected

/-- The lambdas of the managers, and the manager that a callback belongs to. -/
structure Owners (ι κ : Type) where
  closures : ι → Closures κ
  owner : κ → Option ι
  owner_guaranteed : ∀ i, owner (closures i).guaranteed = some i
  owner_updateProtected : ∀ i, owner (closures i).updateProtected = some i

namespace Owners

variable {o : Owners ι κ}

/-- The timer is the expiry of this manager. -/
structure Expiry (o : Owners ι κ) (i : ι) (m : CacheStateManager φ) (t : EventTimer κ) : Prop where
  timerId : m.timerId = t.timerId
  repeat_ : t.repeat_ = 1
  callback : m.currentState.closure (o.closures i) = some t.callback
  expireTime_le : m.expireTime ≤ t.expireTime

/-- An Idle manager has no expiry; any other one has it in the queue. -/
def Fits (o : Owners ι κ) (q : List (EventTimer κ)) (i : ι) (m : CacheStateManager φ) : Prop :=
  (m.currentState = .kCacheIdle ∧ m.timerId = 0 ∧ m.expireTime = 0) ∨ ∃ t ∈ q, o.Expiry i m t

/-- The queue and the managers fit together. -/
structure Armed (o : Owners ι κ) (q : List (EventTimer κ))
    (ms : ι → Option (CacheStateManager φ)) : Prop where
  nodup : (q.map EventTimer.timerId).Nodup
  ne_zero : ∀ t ∈ q, t.timerId ≠ 0
  owned : ∀ t ∈ q, ∀ i, o.owner t.callback = some i →
    (∃ m, ms i = some m) ∧ (t.repeat_ = 0 ∨ t.repeat_ = 1)
  managers : ∀ i m, ms i = some m → o.Fits q i m

/-- Every live timer of a manager is its expiry. -/
def Exclusive (o : Owners ι κ) (q : List (EventTimer κ))
    (ms : ι → Option (CacheStateManager φ)) : Prop :=
  ∀ t ∈ q, t.repeat_ ≠ 0 → ∀ i, o.owner t.callback = some i →
    ∃ m, ms i = some m ∧ o.Expiry i m t

/-- The callback of a state belongs to the manager. -/
theorem owner_of_closure {state : CacheState} {i : ι} {call : κ}
    (h : state.closure (o.closures i) = some call) : o.owner call = some i := by
  cases state with
  | kCacheIdle => cases h
  | kCacheGuaranteed =>
      cases h
      exact o.owner_guaranteed i
  | kCacheUpdateProtected =>
      cases h
      exact o.owner_updateProtected i

/-- The expiry timer of a manager is its own. -/
theorem Expiry.owner {i : ι} {m : CacheStateManager φ} {t : EventTimer κ} (h : o.Expiry i m t) :
    o.owner t.callback = some i := owner_of_closure h.callback

/-- A manager with an expiry is not Idle. -/
theorem Expiry.not_idle {i : ι} {m : CacheStateManager φ} {t : EventTimer κ}
    (h : o.Expiry i m t) : m.currentState ≠ .kCacheIdle := by
  intro hidle
  have hcall := h.callback
  rw [hidle] at hcall
  cases hcall

/-- The managers have the same expiry: they differ in what an update left for its completion. -/
structure SameExpiry (m m' : CacheStateManager φ) : Prop where
  timerId : m'.timerId = m.timerId
  expireTime : m'.expireTime = m.expireTime
  currentState : m'.currentState = m.currentState

/-- A manager has the same expiry as itself. -/
theorem SameExpiry.refl (m : CacheStateManager φ) : SameExpiry m m := ⟨rfl, rfl, rfl⟩

/-- The op id is not the expiry. -/
theorem SameExpiry.setOpId (m : CacheStateManager φ) (opId : UInt32) :
    SameExpiry m (m.setOpId opId) := ⟨rfl, rfl, rfl⟩

/-- Nor is the handler. -/
theorem SameExpiry.setCallHandle (m : CacheStateManager φ) (opId : UInt32) (f : Option φ) :
    SameExpiry m ((m.setOpId opId).setCallHandle f) := ⟨rfl, rfl, rfl⟩

/-- The same expiry, the same expiry timer. -/
theorem Expiry.sameExpiry {i : ι} {m m' : CacheStateManager φ} {t : EventTimer κ}
    (h : o.Expiry i m t) (hsame : SameExpiry m m') : o.Expiry i m' t where
  timerId := hsame.timerId.trans h.timerId
  repeat_ := h.repeat_
  callback := by rw [hsame.currentState]; exact h.callback
  expireTime_le := by rw [hsame.expireTime]; exact h.expireTime_le

variable {q q' : List (EventTimer κ)} {ms : ι → Option (CacheStateManager φ)}

/-- A manager with the same expiry fits as well. -/
theorem Fits.sameExpiry {i : ι} {m m' : CacheStateManager φ} (h : o.Fits q i m)
    (hsame : SameExpiry m m') : o.Fits q i m' := by
  rcases h with ⟨hidle, h0, he⟩ | ⟨t, ht, hexpiry⟩
  · exact Or.inl ⟨hsame.currentState.trans hidle, hsame.timerId.trans h0, hsame.expireTime.trans he⟩
  · exact Or.inr ⟨t, ht, hexpiry.sameExpiry hsame⟩

/-- A queue that keeps the expiry timer fits as well. -/
theorem Fits.of_mem {i : ι} {m : CacheStateManager φ} (h : o.Fits q i m)
    (hsub : ∀ t ∈ q, o.Expiry i m t → t ∈ q') : o.Fits q' i m := by
  rcases h with h | ⟨t, ht, hexpiry⟩
  · exact Or.inl h
  · exact Or.inr ⟨t, hsub t ht hexpiry, hexpiry⟩

/-- An Idle manager has no timer. -/
theorem Fits.idle {i : ι} {m : CacheStateManager φ} (h : o.Fits q i m)
    (hidle : m.currentState = .kCacheIdle) : m.timerId = 0 := by
  rcases h with ⟨-, h0, -⟩ | ⟨t, -, hexpiry⟩
  · exact h0
  · exact absurd hidle hexpiry.not_idle

/-! ## Order in the queue does not matter -/

/-- The order of the queue does not matter. -/
theorem Armed.perm (h : o.Armed q ms) (hq : q'.Perm q) : o.Armed q' ms where
  nodup := (hq.map _).nodup_iff.mpr h.nodup
  ne_zero t ht := h.ne_zero t (hq.mem_iff.mp ht)
  owned t ht := h.owned t (hq.mem_iff.mp ht)
  managers i m hm := (h.managers i m hm).of_mem fun _ ht _ => hq.mem_iff.mpr ht

/-- Fewer timers, fewer live ones. -/
theorem Exclusive.of_subset (h : o.Exclusive q ms) (hq : ∀ t ∈ q', t ∈ q) : o.Exclusive q' ms :=
  fun t ht => h t (hq t ht)

/-- The order of the queue does not matter to the live timers. -/
theorem Exclusive.perm (h : o.Exclusive q ms) (hq : q'.Perm q) : o.Exclusive q' ms :=
  h.of_subset fun _ ht => hq.mem_iff.mp ht

/-- Timers with the same id are the same. -/
theorem Armed.eq_of_timerId (h : o.Armed q ms) {t t' : EventTimer κ} (ht : t ∈ q) (ht' : t' ∈ q)
    (hid : t.timerId = t'.timerId) : t = t' :=
  List.inj_on_of_nodup_map h.nodup ht ht' hid

/-! ## The managers -/

section update

variable [DecidableEq ι]

/-- A manager that fits the queue may come in for an old one, or be a new one. -/
theorem Armed.update (h : o.Armed q ms) {i : ι} {m : CacheStateManager φ} (hm : o.Fits q i m) :
    o.Armed q (Function.update ms i (some m)) where
  nodup := h.nodup
  ne_zero := h.ne_zero
  owned t ht j hj := by
    refine ⟨?_, (h.owned t ht j hj).2⟩
    by_cases hc : j = i
    · subst hc
      exact ⟨m, Function.update_self ..⟩
    · rw [Function.update_of_ne hc]
      exact (h.owned t ht j hj).1
  managers := Lib.Table.forall_assign h.managers hm

/-- A manager that keeps its expiry timer is put in. -/
theorem Exclusive.update (h : o.Exclusive q ms) {i : ι} {m m' : CacheStateManager φ}
    (hm : ms i = some m) (hexpiry : ∀ t ∈ q, o.Expiry i m t → o.Expiry i m' t) :
    o.Exclusive q (Function.update ms i (some m')) := by
  intro t ht hlive j hj
  obtain ⟨m₀, hm₀, hown⟩ := h t ht hlive j hj
  by_cases hc : j = i
  · subst hc
    rw [hm] at hm₀
    cases hm₀
    exact ⟨m', Function.update_self .., hexpiry t ht hown⟩
  · exact ⟨m₀, by rw [Function.update_of_ne hc, hm₀], hown⟩

end update

/-! ## Timers of somebody else -/

/-- What code apart from the managers may do to the queue: read the clock, and add timers of its
own. -/
inductive AddsOthers (o : Owners ι κ) (env : Env) (rt : Runtime κ) : Runtime κ → Prop
  | refl : AddsOthers o env rt rt
  | read {rt'} : AddsOthers o env rt rt' → AddsOthers o env rt rt'.readClock
  | add {rt'} (call : κ) (howner : o.owner call = none) (timeoutMs repeat_ : UInt32) :
      AddsOthers o env rt rt' → AddsOthers o env rt (pushTimer env call timeoutMs repeat_ rt').2

variable {env : Env} {rt rt' : Runtime κ}

/-- The clock is read on. -/
theorem AddsOthers.readings_le (h : AddsOthers o env rt rt') : rt.readings ≤ rt'.readings := by
  induction h with
  | refl => exact le_rfl
  | read _ ih => exact Nat.le_succ_of_le ih
  | add call howner ms r _ ih => exact Nat.le_succ_of_le ih

/-- The time does not go back. -/
theorem AddsOthers.now_le (h : AddsOthers o env rt rt') : rt.now env ≤ rt'.now env :=
  env.mono h.readings_le

/-- The queue gains timers of somebody else and loses none. -/
theorem AddsOthers.queue_perm (h : AddsOthers o env rt rt') :
    ∃ new : List (EventTimer κ), (∀ t ∈ new, o.owner t.callback = none) ∧
      rt'.queue.Perm (new ++ rt.queue) := by
  induction h with
  | refl => exact ⟨[], by simp, List.Perm.refl _⟩
  | read _ ih => exact ih
  | @add rt' call howner ms r _ ih =>
      obtain ⟨new, hnew, hperm⟩ := ih
      refine ⟨newTimer env call ms r rt' :: new, ?_, ?_⟩
      · intro t ht
        rcases List.mem_cons.mp ht with rfl | ht
        · exact howner
        · exact hnew t ht
      · exact (pushTimer_queue_perm env _ ms r rt').trans (hperm.cons _)

/-- No timer is lost. -/
theorem AddsOthers.mem (h : AddsOthers o env rt rt') {t : EventTimer κ} (ht : t ∈ rt.queue) :
    t ∈ rt'.queue := by
  obtain ⟨new, -, hperm⟩ := h.queue_perm
  exact hperm.mem_iff.mpr (List.mem_append_right new ht)

/-- A timer of a manager that is there afterwards was there before. -/
theorem AddsOthers.mem_of_owned (h : AddsOthers o env rt rt') {t : EventTimer κ}
    (ht : t ∈ rt'.queue) (howner : o.owner t.callback ≠ none) : t ∈ rt.queue := by
  obtain ⟨new, hnew, hperm⟩ := h.queue_perm
  rcases List.mem_append.mp (hperm.mem_iff.mp ht) with ht | ht
  · exact absurd (hnew t ht) howner
  · exact ht

/-- A due front stays in slot 0. -/
theorem AddsOthers.head? (h : AddsOthers o env rt rt') {front : EventTimer κ}
    (hfront : rt.queue.head? = some front) (hdue : front.expireTime ≤ rt.now env) :
    rt'.queue.head? = some front := by
  induction h with
  | refl => exact hfront
  | read _ ih => exact ih
  | @add rt' call howner ms r hadd ih =>
      refine pushTimer_head? env _ ms r rt' ih ?_
      have := hadd.now_le
      omega

/-- Timers of no manager do not disturb the managers. -/
theorem Armed.addsOthers (h : o.Armed rt.queue ms) (hadd : AddsOthers o env rt rt') :
    o.Armed rt'.queue ms := by
  induction hadd with
  | refl => exact h
  | read _ ih => exact ih
  | @add rt' call howner ms' r _ ih =>
      refine Armed.perm ?_ (pushTimer_queue_perm env _ ms' r rt')
      exact
        { nodup := by
            rw [List.map_cons, List.nodup_cons]
            refine ⟨fun hmem => ?_, ih.nodup⟩
            obtain ⟨t, ht, hid⟩ := List.mem_map.mp hmem
            exact newTimer_timerId_ne env _ ms' r rt' ht hid.symm
          ne_zero := by
            intro t ht
            rcases List.mem_cons.mp ht with rfl | ht
            · exact newTimer_timerId_ne_zero env _ ms' r rt'
            · exact ih.ne_zero t ht
          owned := by
            intro t ht j hj
            rcases List.mem_cons.mp ht with rfl | ht
            · exact absurd (hj.symm.trans howner) (by simp)
            · exact ih.owned t ht j hj
          managers := fun i m hm =>
            (ih.managers i m hm).of_mem fun t ht _ => List.mem_cons_of_mem _ ht }

/-- Timers of no manager are no live timers of one. -/
theorem Exclusive.addsOthers (h : o.Exclusive rt.queue ms) (hadd : AddsOthers o env rt rt') :
    o.Exclusive rt'.queue ms := by
  intro t ht hlive j hj
  exact h t (hadd.mem_of_owned ht (by simp [hj])) hlive j hj

/-! ## Re-arming -/

section rearm

variable {callBack : κ} {timeoutMs : UInt32} {s s' : CacheStateManager φ × Runtime κ}
  {timer : EventTimer κ} {base : List (EventTimer κ)} {i : ι}

/-- The new timer is the expiry of the manager in the state whose callback it got. -/
theorem Expiry.of_rearmed (h : Rearmed env callBack timeoutMs s s' timer base) {state : CacheState}
    (hstate : state.closure (o.closures i) = some callBack) :
    o.Expiry i { s'.1 with currentState := state } timer where
  timerId := h.timerId
  repeat_ := h.repeat_
  callback := by rw [h.callback]; exact hstate
  expireTime_le := h.expireTime_le

/-- A timer with the manager's id is the manager's. -/
theorem Fits.owner_of_timerId {m : CacheStateManager φ} (hm : o.Fits q i m) (ha : o.Armed q ms)
    {t : EventTimer κ} (ht : t ∈ q) (hid : t.timerId = m.timerId) : o.Expiry i m t := by
  rcases hm with ⟨-, h0, -⟩ | ⟨t₀, ht₀, hexpiry⟩
  · exact absurd (hid.trans h0) (ha.ne_zero t ht)
  · obtain rfl := ha.eq_of_timerId ht ht₀ (hid.trans hexpiry.timerId)
    exact hexpiry

/-- A live timer after a lease started is from before, or that of the lease. -/
theorem mem_guarantee_live {m : CacheStateManager φ} {t : EventTimer κ}
    (ht : t ∈ (guarantee env (o.closures i) (m, rt)).2.queue) (hlive : t.repeat_ ≠ 0) :
    t ∈ rt.queue ∨ t.callback = (o.closures i).guaranteed := by
  obtain ⟨timer, base, h⟩ :=
    startExpire_spec env (o.closures i).guaranteed kDefaultExpireMillisecond (m, rt)
  rcases List.mem_cons.mp (h.queue.mem_iff.mp ht) with rfl | ht
  · exact Or.inr h.callback
  · exact Or.inl (h.mem_of_live ht hlive)

variable [DecidableEq ι]

/-- **Re-arming keeps `Armed`**, in whatever state the manager was. -/
theorem Armed.rearm (ha : o.Armed s.2.queue ms) (hm : o.Fits s.2.queue i s.1)
    (h : Rearmed env callBack timeoutMs s s' timer base) {state : CacheState}
    (hstate : state.closure (o.closures i) = some callBack) {m' : CacheStateManager φ}
    (hm' : m' = { s'.1 with currentState := state }) :
    o.Armed s'.2.queue (Function.update ms i (some m')) := by
  have hexpiry : o.Expiry i m' timer := hm' ▸ Expiry.of_rearmed h hstate
  refine Armed.perm ?_ h.queue
  exact
    { nodup := by
        rw [List.map_cons, List.nodup_cons, h.base_timerIds]
        refine ⟨fun hmem => ?_, ha.nodup⟩
        obtain ⟨t, ht, hid⟩ := List.mem_map.mp hmem
        exact h.fresh t ht hid.symm
      ne_zero := by
        intro t ht
        rcases List.mem_cons.mp ht with rfl | ht
        · exact h.timerId_ne_zero
        · obtain ⟨t₀, ht₀, hid, -⟩ := h.mem_base ht
          rw [hid]
          exact ha.ne_zero t₀ ht₀
      owned := by
        intro t ht j hj
        have hpresent : ∀ j, (j = i ∨ ∃ m₀, ms j = some m₀) →
            ∃ m₁, Function.update ms i (some m') j = some m₁ := by
          intro j h'
          by_cases hc : j = i
          · subst hc
            exact ⟨m', Function.update_self ..⟩
          · rw [Function.update_of_ne hc]
            exact h'.resolve_left hc
        rcases List.mem_cons.mp ht with rfl | ht
        · refine ⟨hpresent j (Or.inl ?_), Or.inr h.repeat_⟩
          exact Option.some.inj (hj.symm.trans hexpiry.owner)
        · obtain ⟨t₀, ht₀, -, hcall, hlive⟩ := h.mem_base ht
          rw [hcall] at hj
          obtain ⟨hex, hrep⟩ := ha.owned t₀ ht₀ j hj
          refine ⟨hpresent j (Or.inr hex), ?_⟩
          rcases hlive with rfl | h0
          · exact hrep
          · exact Or.inl h0
      managers := by
        refine Lib.Table.forall_update (fun j m₀ hj hm₀ => ?_)
          (Or.inr ⟨timer, List.mem_cons_self, hexpiry⟩)
        refine (ha.managers j m₀ hm₀).of_mem fun t ht hother => ?_
        refine List.mem_cons_of_mem _ (h.mem_base_of_ne ht fun hid => hj ?_)
        -- the timer of another manager does not carry this manager's id
        have hown := hm.owner_of_timerId ha ht hid
        exact Option.some.inj (hother.owner.symm.trans hown.owner) }

/-- **Re-arming keeps `Exclusive`** when `stop_expire` cancelled the old expiry, or there was
none. -/
theorem Exclusive.rearm (hx : o.Exclusive s.2.queue ms) (ha : o.Armed s.2.queue ms)
    (hm : ∀ m₀, ms i = some m₀ → m₀.timerId = s.1.timerId)
    (h : Rearmed env callBack timeoutMs s s' timer base)
    (hstopped : s.1.timerId = 0 ∨ s.2.now env < s.1.expireTime) {state : CacheState}
    (hstate : state.closure (o.closures i) = some callBack) {m' : CacheStateManager φ}
    (hm' : m' = { s'.1 with currentState := state }) :
    o.Exclusive s'.2.queue (Function.update ms i (some m')) := by
  have hexpiry : o.Expiry i m' timer := hm' ▸ Expiry.of_rearmed h hstate
  refine Exclusive.perm ?_ h.queue
  intro t ht hlive j hj
  rcases List.mem_cons.mp ht with rfl | ht
  · obtain rfl : j = i := Option.some.inj (hj.symm.trans hexpiry.owner)
    exact ⟨m', Function.update_self .., hexpiry⟩
  · have ht₀ := h.mem_of_live ht hlive
    obtain ⟨m₀, hm₀, hown⟩ := hx t ht₀ hlive j hj
    have hc : j ≠ i := by
      rintro rfl
      -- the old expiry was cancelled, so it is not live
      have htid : s.1.timerId = t.timerId := (hm m₀ hm₀).symm.trans hown.timerId
      rcases h.base with ⟨-, -, rfl⟩ | ⟨h0 | hle, -⟩
      · obtain ⟨t₁, -, rfl⟩ := List.mem_map.mp ht
        exact ne_of_cancel_live hlive (by rw [htid, cancel_timerId])
      · exact ha.ne_zero t ht₀ (htid.symm.trans h0)
      · rcases hstopped with h0 | hlt
        · exact ha.ne_zero t ht₀ (htid.symm.trans h0)
        · exact absurd hlt (not_lt.mpr hle)
    exact ⟨m₀, by rw [Function.update_of_ne hc, hm₀], hown⟩

variable {m : CacheStateManager φ}

/-- A lease that starts keeps `Armed`. -/
theorem Armed.guarantee (ha : o.Armed rt.queue ms) (hm : o.Fits rt.queue i m) :
    o.Armed (guarantee env (o.closures i) (m, rt)).2.queue
      (Function.update ms i (some (CacheSystem.guarantee env (o.closures i) (m, rt)).1)) := by
  obtain ⟨timer, base, h⟩ :=
    startExpire_spec env (o.closures i).guaranteed kDefaultExpireMillisecond (m, rt)
  exact Armed.rearm (s := (m, rt)) ha hm h rfl rfl

/-- A wait that starts keeps `Armed`. -/
theorem Armed.protect (ha : o.Armed rt.queue ms) (hm : o.Fits rt.queue i m) (timerDelay : UInt32) :
    o.Armed (protect env (o.closures i) (m, rt) timerDelay).2.queue
      (Function.update ms i
        (some (CacheSystem.protect env (o.closures i) (m, rt) timerDelay).1)) := by
  obtain ⟨timer, base, h⟩ :=
    startExpire_spec env (o.closures i).updateProtected timerDelay (m, rt)
  exact Armed.rearm (s := (m, rt)) ha hm h rfl rfl

/-- A lease that starts keeps `Exclusive` when the old expiry is cancelled, or there is none. -/
theorem Exclusive.guarantee (hx : o.Exclusive rt.queue ms) (ha : o.Armed rt.queue ms)
    (hm : ∀ m₀, ms i = some m₀ → m₀.timerId = m.timerId)
    (hstopped : m.timerId = 0 ∨ rt.now env < m.expireTime) :
    o.Exclusive (guarantee env (o.closures i) (m, rt)).2.queue
      (Function.update ms i (some (CacheSystem.guarantee env (o.closures i) (m, rt)).1)) := by
  obtain ⟨timer, base, h⟩ :=
    startExpire_spec env (o.closures i).guaranteed kDefaultExpireMillisecond (m, rt)
  exact Exclusive.rearm (s := (m, rt)) hx ha hm h hstopped rfl rfl

/-- A wait that starts keeps `Exclusive` when the old expiry is cancelled, or there is none. -/
theorem Exclusive.protect (hx : o.Exclusive rt.queue ms) (ha : o.Armed rt.queue ms)
    (hm : ∀ m₀, ms i = some m₀ → m₀.timerId = m.timerId)
    (hstopped : m.timerId = 0 ∨ rt.now env < m.expireTime) (timerDelay : UInt32) :
    o.Exclusive (protect env (o.closures i) (m, rt) timerDelay).2.queue
      (Function.update ms i
        (some (CacheSystem.protect env (o.closures i) (m, rt) timerDelay).1)) := by
  obtain ⟨timer, base, h⟩ :=
    startExpire_spec env (o.closures i).updateProtected timerDelay (m, rt)
  exact Exclusive.rearm (s := (m, rt)) hx ha hm h hstopped rfl rfl

end rearm

/-! ## Cancelling a timer of somebody else -/

/-- Cancelling a timer of no manager does not disturb the managers. -/
theorem Armed.cancelOther (ha : o.Armed q ms) {t : EventTimer κ} (ht : t ∈ q)
    (howner : o.owner t.callback = none) :
    o.Armed (q.map (EventTimer.cancel t.timerId)) ms where
  nodup := by
    rw [List.map_map]
    exact (List.map_congr_left fun t' _ => cancel_timerId t.timerId t') ▸ ha.nodup
  ne_zero t' ht' := by
    obtain ⟨t₀, ht₀, rfl⟩ := List.mem_map.mp ht'
    rw [cancel_timerId]
    exact ha.ne_zero t₀ ht₀
  owned t' ht' i hi := by
    obtain ⟨t₀, ht₀, rfl⟩ := List.mem_map.mp ht'
    rw [cancel_callback] at hi
    obtain ⟨hex, hrep⟩ := ha.owned t₀ ht₀ i hi
    refine ⟨hex, ?_⟩
    unfold EventTimer.cancel
    split
    · exact Or.inl rfl
    · exact hrep
  managers i m hm := by
    refine (ha.managers i m hm).of_mem fun t₀ ht₀ hexpiry => ?_
    refine List.mem_map.mpr ⟨t₀, ht₀, cancel_of_ne fun hid => ?_⟩
    obtain rfl := ha.eq_of_timerId ht₀ ht hid
    exact absurd (hexpiry.owner.symm.trans howner) (by simp)

/-- A timer that is cancelled is not live. -/
theorem Exclusive.cancel (hx : o.Exclusive q ms) (timerId : Nat) :
    o.Exclusive (q.map (EventTimer.cancel timerId)) ms := by
  intro t ht hlive i hi
  obtain ⟨t₀, ht₀, rfl⟩ := List.mem_map.mp ht
  have hsame := cancel_of_ne (ne_of_cancel_live hlive)
  rw [hsame] at hlive hi ⊢
  exact hx t₀ ht₀ hlive i hi

/-! ## Slot 0 after it fired -/

section settle

variable {t : EventTimer κ}

/-- A front that is nobody's expiry may go. -/
theorem Armed.drop (ha : o.Armed (t :: q) ms)
    (hfree : ∀ i m, ms i = some m → ¬ o.Expiry i m t) : o.Armed q ms where
  nodup := (List.nodup_cons.mp ha.nodup).2
  ne_zero t' ht' := ha.ne_zero t' (List.mem_cons_of_mem t ht')
  owned t' ht' := ha.owned t' (List.mem_cons_of_mem t ht')
  managers i m hm := by
    refine (ha.managers i m hm).of_mem fun t' ht' hexpiry => ?_
    rcases List.mem_cons.mp ht' with rfl | ht'
    · exact absurd hexpiry (hfree i m hm)
    · exact ht'

/-- A live timer with more than one firing left is somebody else's. -/
theorem Armed.other_of_repeat (ha : o.Armed q ms) (ht : t ∈ q) (h0 : t.repeat_ ≠ 0)
    (h1 : t.repeat_ ≠ 1) : o.owner t.callback = none := by
  rcases howner : o.owner t.callback with _ | i
  · rfl
  · rcases (ha.owned t ht i howner).2 with h | h
    · exact absurd h h0
    · exact absurd h h1

/-- **The end of an iteration keeps `Armed`** once slot 0 is nobody's expiry any more. -/
theorem Armed.settle (hq : rt.queue = t :: q) (ha : o.Armed (t :: q) ms) (hlive : t.repeat_ ≠ 0)
    (hfree : ∀ i m, ms i = some m → ¬ o.Expiry i m t) :
    o.Armed (settleFront env (decrementFront rt)).queue ms := by
  rcases settleFront_decrementFront env hq with ⟨-, q', hperm, hs⟩ | ⟨h1, q', hperm, hs⟩
  · rw [hs]
    exact (ha.drop hfree).perm hperm
  · have howner := ha.other_of_repeat List.mem_cons_self hlive h1
    have hrest := ha.drop hfree
    rw [hs]
    refine Armed.perm ?_ hperm
    exact
      { nodup := ha.nodup
        ne_zero := by
          intro t₀ ht₀
          rcases List.mem_cons.mp ht₀ with rfl | ht₀
          · exact ha.ne_zero t List.mem_cons_self
          · exact hrest.ne_zero t₀ ht₀
        owned := by
          intro t₀ ht₀ i hown
          rcases List.mem_cons.mp ht₀ with rfl | ht₀
          · exact absurd (howner.symm.trans hown) nofun
          · exact hrest.owned t₀ ht₀ i hown
        managers := fun i m hm =>
          (hrest.managers i m hm).of_mem fun t₀ ht₀ _ => List.mem_cons_of_mem _ ht₀ }

/-- The end of an iteration keeps `Exclusive` of the timers behind slot 0. -/
theorem Exclusive.settle (hq : rt.queue = t :: q) (hx : o.Exclusive q ms)
    (hother : t.repeat_ ≠ 1 → o.owner t.callback = none) :
    o.Exclusive (settleFront env (decrementFront rt)).queue ms := by
  intro t₀ ht₀ hlive i hown
  rcases mem_settled hq ht₀ with ht₀ | ⟨h1, hcall⟩
  · exact hx t₀ ht₀ hlive i hown
  · rw [hcall, hother h1] at hown
    cases hown

end settle

/-! ## Callbacks -/

/-- The manager after its lease ended. -/
def idled (m : CacheStateManager φ) : CacheStateManager φ :=
  { m with timerId := 0, expireTime := 0, currentState := .kCacheIdle }

variable [DecidableEq ι]

/-- All that a callback can do to the queue and the managers. -/
inductive Callback (o : Owners ι κ) (env : Env) (call : κ) (rt : Runtime κ)
    (ms : ι → Option (CacheStateManager φ)) :
    Runtime κ → (ι → Option (CacheStateManager φ)) → Prop
  /-- The manager of the timer is not there. -/
  | absent {i : ι} (howner : o.owner call = some i) (hm : ms i = none) :
      Callback o env call rt ms rt ms
  /-- The lease of a manager ends. -/
  | idled {i : ι} {m : CacheStateManager φ} (hm : ms i = some m)
      (hcall : call = (o.closures i).guaranteed) :
      Callback o env call rt ms rt (Function.update ms i (some (idled m)))
  /-- The wait of a manager ends: its lease starts anew, and then the handler runs. -/
  | renewed {i : ι} {m : CacheStateManager φ} {rt' : Runtime κ} (hm : ms i = some m)
      (hcall : call = (o.closures i).updateProtected)
      (hadd : o.AddsOthers env (guarantee env (o.closures i) (m, rt)).2 rt') :
      Callback o env call rt ms rt'
        (Function.update ms i (some (guarantee env (o.closures i) (m, rt)).1))
  /-- The timer is somebody else's. -/
  | other {rt' : Runtime κ} (howner : o.owner call = none) (hadd : o.AddsOthers env rt rt') :
      Callback o env call rt ms rt' ms

section callback

variable {call : κ} {ms' : ι → Option (CacheStateManager φ)} {t : EventTimer κ}

/-- A callback does not turn the clock back. -/
theorem Callback.readings_le (h : o.Callback env call rt ms rt' ms') :
    rt.readings ≤ rt'.readings := by
  cases h with
  | absent howner hm => exact le_rfl
  | idled hm hcall => exact le_rfl
  | renewed hm hcall hadd => exact (guarantee_readings_lt env _ _).le.trans hadd.readings_le
  | other howner hadd => exact hadd.readings_le

/-- The callback of somebody else. -/
theorem Callback.of_other (h : o.Callback env call rt ms rt' ms') (howner : o.owner call = none) :
    ms' = ms ∧ o.AddsOthers env rt rt' := by
  cases h with
  | absent howner' hm =>
      rw [howner'] at howner
      cases howner
  | idled hm hcall =>
      rw [hcall, o.owner_guaranteed] at howner
      cases howner
  | renewed hm hcall hadd =>
      rw [hcall, o.owner_updateProtected] at howner
      cases howner
  | other howner' hadd => exact ⟨rfl, hadd⟩

/-- **A callback leaves timers and managers in order.** -/
theorem Armed.callback (ha : o.Armed rt.queue ms) (h : o.Callback env call rt ms rt' ms') :
    o.Armed rt'.queue ms' := by
  cases h with
  | absent howner hm => exact ha
  | idled hm hcall => exact ha.update (Or.inl ⟨rfl, rfl, rfl⟩)
  | @renewed i m _ hm hcall hadd => exact (ha.guarantee (ha.managers i m hm)).addsOthers hadd
  | other howner hadd => exact ha.addsOthers hadd

/-- While its callback runs, a due front stays in slot 0. -/
theorem Callback.head? (h : o.Callback env t.callback rt ms rt' ms') (ha : o.Armed rt.queue ms)
    (ht : rt.queue.head? = some t) (hdue : t.expireTime ≤ rt.now env) :
    rt'.queue.head? = some t := by
  cases h with
  | absent howner hm => exact ht
  | idled hm hcall => exact ht
  | @renewed i m _ hm hcall hadd =>
      refine AddsOthers.head? hadd ?_
        (hdue.trans (env.mono (guarantee_readings_lt env (o.closures i) (m, rt)).le))
      refine startExpire_head? env _ kDefaultExpireMillisecond (m, rt) ht hdue ?_
      by_cases hid : m.timerId = t.timerId
      · have hown := (ha.managers i m hm).owner_of_timerId ha (List.mem_of_mem_head? ht) hid.symm
        exact Or.inr (Or.inl (hown.expireTime_le.trans hdue))
      · exact Or.inr (Or.inr hid)
  | other howner hadd => exact hadd.head? ht hdue

/-- After its callback ran, a timer is nobody's expiry. -/
theorem Callback.free (h : o.Callback env t.callback rt ms rt' ms') (ht : t ∈ rt.queue) :
    ∀ i m, ms' i = some m → ¬ o.Expiry i m t := by
  intro i m hm hexpiry
  have howner := hexpiry.owner
  cases h with
  | absent howner' hm' =>
      obtain rfl := Option.some.inj (howner.symm.trans howner')
      rw [hm'] at hm
      cases hm
  | idled hm' hcall =>
      rw [hcall, o.owner_guaranteed] at howner
      obtain rfl := Option.some.inj howner
      rw [Function.update_self] at hm
      cases hm
      exact hexpiry.not_idle rfl
  | @renewed j m' _ hm' hcall hadd =>
      rw [hcall, o.owner_updateProtected] at howner
      obtain rfl := Option.some.inj howner
      rw [Function.update_self] at hm
      cases hm
      obtain ⟨timer, base, hrearmed⟩ := startExpire_spec env (o.closures j).guaranteed
        kDefaultExpireMillisecond (m', rt)
      exact hrearmed.fresh t ht (hrearmed.timerId.symm.trans hexpiry.timerId)
  | other howner' hadd =>
      rw [howner'] at howner
      cases howner

/-- After the callback of `t`, every other live timer of a manager is its expiry. -/
theorem Exclusive.callback (hx : o.Exclusive rt.queue ms) (ht : t ∈ rt.queue)
    (hlive : t.repeat_ ≠ 0) (h : o.Callback env t.callback rt ms rt' ms') :
    ∀ t' ∈ rt'.queue, t'.timerId ≠ t.timerId → t'.repeat_ ≠ 0 → ∀ j, o.owner t'.callback = some j →
      ∃ m, ms' j = some m ∧ o.Expiry j m t' := by
  -- a live timer of the queue before, other than `t`, belongs to another manager than `t` does
  have hother : ∀ t' ∈ rt.queue, t'.timerId ≠ t.timerId → t'.repeat_ ≠ 0 →
      ∀ j, o.owner t'.callback = some j → o.owner t.callback ≠ some j ∧
        ∃ m, ms j = some m ∧ o.Expiry j m t' := by
    intro t' ht' hne hlive' j hj
    obtain ⟨m, hm, hexpiry⟩ := hx t' ht' hlive' j hj
    refine ⟨fun howner => hne ?_, m, hm, hexpiry⟩
    obtain ⟨m₀, hm₀, hexpiry₀⟩ := hx t ht hlive j howner
    rw [hm] at hm₀
    cases hm₀
    exact hexpiry.timerId.symm.trans hexpiry₀.timerId
  intro t' ht' hne hlive' j hj
  cases h with
  | absent howner hm => exact (hother t' ht' hne hlive' j hj).2
  | @idled i m hm hcall =>
      obtain ⟨howner, m', hm', hexpiry⟩ := hother t' ht' hne hlive' j hj
      have hji : j ≠ i := fun hji => howner (by rw [hcall, o.owner_guaranteed, hji])
      exact ⟨m', by rw [Function.update_of_ne hji, hm'], hexpiry⟩
  | @renewed i m _ hm hcall hadd =>
      have ht₁ := hadd.mem_of_owned ht' (by simp [hj])
      obtain ⟨timer, base, hrearmed⟩ := startExpire_spec env (o.closures i).guaranteed
        kDefaultExpireMillisecond (m, rt)
      rcases List.mem_cons.mp (hrearmed.queue.mem_iff.mp ht₁) with rfl | hbase
      · have hexpiry : o.Expiry i (CacheSystem.guarantee env (o.closures i) (m, rt)).1 t' :=
          Expiry.of_rearmed hrearmed rfl
        obtain rfl : j = i := Option.some.inj (hj.symm.trans hexpiry.owner)
        exact ⟨_, Function.update_self .., hexpiry⟩
      · obtain ⟨howner, m', hm', hexpiry⟩ :=
          hother t' (hrearmed.mem_of_live hbase hlive') hne hlive' j hj
        have hji : j ≠ i := fun hji => howner (by rw [hcall, o.owner_updateProtected, hji])
        exact ⟨m', by rw [Function.update_of_ne hji, hm'], hexpiry⟩
  | other howner hadd =>
      exact (hother t' (hadd.mem_of_owned ht' (by simp [hj])) hne hlive' j hj).2

end callback

/-! ## An iteration of `tick` -/

section tickIter

variable {run : κ → Proc κ τ → Option Thrown × Proc κ τ}
  {state : τ → ι → Option (CacheStateManager φ)} {p : Proc κ τ} {r : Iter (Proc κ τ)}

/-- Every callback does no more than `Callback` says to the managers that `state` reads. -/
def Runs (o : Owners ι κ) (env : Env) (run : κ → Proc κ τ → Option Thrown × Proc κ τ)
    (state : τ → ι → Option (CacheStateManager φ)) : Prop :=
  ∀ call p, o.Callback env call p.rt (state p.mem) (run call p).2.rt (state (run call p).2.mem)

/-- A callback that was run did what callbacks do. -/
theorem Runs.of_eq (h : o.Runs env run state) {call : κ} {p p₁ : Proc κ τ} {e : Option Thrown}
    (hrun : run call p = (e, p₁)) :
    o.Callback env call p.rt (state p.mem) p₁.rt (state p₁.mem) := by
  have hcall := h call p
  rwa [hrun] at hcall

/-- The timer whose callback ran in an iteration of `tick` is still slot 0 after it. -/
theorem Runs.front (h : o.Runs env run state) (ha : o.Armed p.rt.queue (state p.mem))
    {t : EventTimer κ} {rest : List (EventTimer κ)} (hq : p.rt.queue = t :: rest)
    (hdue : t.expireTime ≤ p.rt.now env) {e : Option Thrown} {p₁ : Proc κ τ}
    (hrun : run t.callback { p with rt := p.rt.readClock.lock } = (e, p₁)) :
    ∃ rest₁, p₁.rt.queue = t :: rest₁ :=
  List.head?_eq_some_iff.mp <| (h.of_eq hrun).head? ha
    (List.head?_eq_some_iff.mpr ⟨rest, hq⟩) (hdue.trans (now_le_reading env p.rt (Nat.le_succ _)))

/-- **An iteration of `tick` keeps `Armed`**, also when the callback throws. -/
theorem Armed.tickIter (ha : o.Armed p.rt.queue (state p.mem)) (hruns : o.Runs env run state)
    (h : TickIter env run p r) : o.Armed r.state.rt.queue (state r.state.mem) := by
  cases h with
  | empty hq => exact ha
  | notDue hq hdue => exact ha
  | @dead t rest q hq hdue h0 hperm =>
      rw [hq] at ha
      refine Armed.perm (ha.drop fun i m hm hexpiry => ?_) hperm
      rw [hexpiry.repeat_] at h0
      cases h0
  | threw hq hdue h0 hrun =>
      have hlocked : o.Armed p.rt.readClock.lock.queue (state p.mem) := ha
      have ha₁ := hlocked.callback (hruns.of_eq hrun)
      exact ha₁
  | @fired t rest p₁ hq hdue h0 hrun =>
      have hcall := hruns.of_eq hrun
      have hlocked : o.Armed p.rt.readClock.lock.queue (state p.mem) := ha
      have ha₁ := hlocked.callback hcall
      obtain ⟨rest₁, hq₁⟩ := hruns.front ha hq hdue hrun
      have hmem : t ∈ p.rt.queue := by rw [hq]; exact List.mem_cons_self
      rw [hq₁] at ha₁
      exact ha₁.settle hq₁ h0 (hcall.free hmem)

/-- An iteration of `tick` does not turn the clock back. -/
theorem Runs.readings_le (hruns : o.Runs env run state) (h : TickIter env run p r) :
    p.rt.readings ≤ r.state.rt.readings := by
  cases h with
  | empty hq => exact le_rfl
  | notDue hq hdue => exact Nat.le_succ _
  | dead hq hdue h0 hperm => exact Nat.le_succ _
  | threw hq hdue h0 hrun => exact (Nat.le_succ _).trans (hruns.of_eq hrun).readings_le
  | @fired t rest p₁ hq hdue h0 hrun =>
      exact ((Nat.le_succ _).trans (hruns.of_eq hrun).readings_le).trans
        (settled_readings_le env p₁.rt)

/-- **An iteration of `tick` keeps `Exclusive`**, unless the callback of a manager throws: then its
timer stays in the queue, live. -/
theorem Exclusive.tickIter (hx : o.Exclusive p.rt.queue (state p.mem))
    (ha : o.Armed p.rt.queue (state p.mem)) (hruns : o.Runs env run state)
    (h : TickIter env run p r)
    (hthrows : ∀ e p', r = .threw e p' → ∀ t rest, p.rt.queue = t :: rest →
      o.owner t.callback = none) :
    o.Exclusive r.state.rt.queue (state r.state.mem) := by
  cases h with
  | empty hq => exact hx
  | notDue hq hdue => exact hx
  | @dead t rest q hq hdue h0 hperm =>
      refine hx.of_subset fun t' ht' => ?_
      rw [hq]
      exact List.mem_cons_of_mem t (hperm.mem_iff.mp ht')
  | @threw t rest e p₁ hq hdue h0 hrun =>
      have howner := hthrows e _ rfl t rest hq
      obtain ⟨hms, hadd⟩ := (hruns.of_eq hrun).of_other howner
      have hlocked : o.Exclusive p.rt.readClock.lock.queue (state p.mem) := hx
      have hx₁ := hlocked.addsOthers hadd
      simp only [Iter.state, hms]
      exact hx₁
  | @fired t rest p₁ hq hdue h0 hrun =>
      have ht : t ∈ p.rt.queue := by rw [hq]; exact List.mem_cons_self
      have hcall := hruns.of_eq hrun
      have hlocked : o.Exclusive p.rt.readClock.lock.queue (state p.mem) := hx
      have harmed : o.Armed p.rt.readClock.lock.queue (state p.mem) := ha
      have ha₁ := harmed.callback hcall
      have hx₁ := hlocked.callback ht h0 hcall
      obtain ⟨rest₁, hq₁⟩ := hruns.front ha hq hdue hrun
      rw [hq₁] at ha₁ hx₁
      refine Exclusive.settle hq₁ ?_ fun h1 => ha.other_of_repeat ht h0 h1
      intro t' ht' hlive' j hj
      refine hx₁ t' (List.mem_cons_of_mem t ht') (fun heq => ?_) hlive' j hj
      exact (List.nodup_cons.mp ha₁.nodup).1 (heq ▸ List.mem_map_of_mem ht')

end tickIter

end Owners

end CacheSystem

import CacheSystem.Expiry

/-!
# Leases are kept when no operation finds its element overdue

An expire time `E` handed out for a cache id is a promise that `value_` stays as it is while the
clock reads less than `E`. The promise is kept by the element's manager: while it is not Idle and
its `expire_time_` is at least `E`, `value_` changes only when the manager's expiry fires, which
is not before `expire_time_`.

* `Center.Held` : the promise as a condition on the state, and `Advance`, what a step does to the
  promises and to the values. Steps compose (`Advance.trans`).
* `Prompt` : no operation finds its element Guaranteed and past its `expire_time_`. There
  `stop_expire` leaves the old timer in the queue, live, and the old timer later ends a lease that
  is not its own. This is the one way in which the promise is broken by operations alone
  (`not_leaseSafe`).
* `Hooks.Quiet` : no handler throws. A handler that throws leaves its timer in the queue, live.
* `Sound` : the invariant of the runs that meet both.
-/

namespace CacheSystem

variable {T H F τ : Type}

/-! ## Promises -/

/-- The id and the expire time that an event hands out. -/
def Event.lease : Event T H → Option (UInt64 × Int)
  | .read cacheId expire _ => some (cacheId, expire)
  | .updated cacheId _ _ _ expire => some (cacheId, expire)
  | .completed cacheId _ _ _ _ expire => some (cacheId, expire)
  | .deferred .. => none
  | .retried .. => none
  | .moved .. => none

/-- The expire time was handed out for the id. -/
def Leased (trace : List (Event T H)) (cacheId : UInt64) (expire : Int) : Prop :=
  ∃ event ∈ trace, event.lease = some (cacheId, expire)

/-- One event more is one lease more at most. -/
theorem leased_append_singleton {trace : List (Event T H)} {event : Event T H} {cacheId : UInt64}
    {expire : Int} : Leased (trace ++ [event]) cacheId expire ↔
      Leased trace cacheId expire ∨ event.lease = some (cacheId, expire) := by
  unfold Leased
  constructor
  · rintro ⟨event', hmem, hlease⟩
    rcases List.mem_append.mp hmem with h | h
    · exact Or.inl ⟨event', h, hlease⟩
    · exact Or.inr (List.mem_singleton.mp h ▸ hlease)
  · rintro (⟨event', hmem, hlease⟩ | hlease)
    · exact ⟨event', List.mem_append_left _ hmem, hlease⟩
    · exact ⟨event, List.mem_append_right _ List.mem_cons_self, hlease⟩

/-- `value_` of the element with this id. -/
def Center.value (p : Center T H F τ) (cacheId : UInt64) : Option T :=
  (p.mem.map cacheId).map CacheElement.value

/-- The promise `expire` for this id is over, or the element's manager keeps it. -/
def Center.Held (env : Env) (p : Center T H F τ) (cacheId : UInt64) (expire : Int) : Prop :=
  expire ≤ p.rt.now env ∨ ∃ e, p.mem.map cacheId = some e ∧
    e.state.currentState ≠ .kCacheIdle ∧ expire ≤ e.state.expireTime

/-- What a step does to the promises: those that were kept are kept, new ones are kept, and a value
changes only after a reading at or past every promise made for it. -/
structure Advance (env : Env) (p p' : Center T H F τ) : Prop where
  readings_le : p.rt.readings ≤ p'.rt.readings
  held : ∀ cacheId expire, p.Held env cacheId expire → p'.Held env cacheId expire
  kept : ∀ cacheId expire, p.Held env cacheId expire → p'.value cacheId = p.value cacheId ∨
    ∃ n, p.rt.readings ≤ n ∧ n < p'.rt.readings ∧ expire ≤ env.reading n
  handed : ∀ cacheId expire, Leased p'.mem.trace cacheId expire →
    Leased p.mem.trace cacheId expire ∨ p'.Held env cacheId expire

variable {env : Env} {p p' : Center T H F τ}

/-- Steps compose. -/
theorem Advance.trans {p'' : Center T H F τ} (h : Advance env p p') (h' : Advance env p' p'') :
    Advance env p p'' where
  readings_le := h.readings_le.trans h'.readings_le
  held cacheId expire hheld := h'.held cacheId expire (h.held cacheId expire hheld)
  kept cacheId expire hheld := by
    have h₁ := h.readings_le
    have h₂ := h'.readings_le
    rcases h.kept cacheId expire hheld with hv | ⟨n, hle, hlt, hn⟩
    · rcases h'.kept cacheId expire (h.held cacheId expire hheld) with hv' | ⟨n, hle, hlt, hn⟩
      · exact Or.inl (hv'.trans hv)
      · exact Or.inr ⟨n, h₁.trans hle, hlt, hn⟩
    · exact Or.inr ⟨n, hle, lt_of_lt_of_le hlt h₂, hn⟩
  handed cacheId expire hleased := by
    rcases h'.handed cacheId expire hleased with hl | hheld
    · exact (h.handed cacheId expire hl).imp_right (h'.held cacheId expire)
    · exact Or.inr hheld

/-- A step that changes neither the elements nor the history. -/
theorem Advance.of_same (hr : p.rt.readings ≤ p'.rt.readings) (hmap : p'.mem.map = p.mem.map)
    (htrace : p'.mem.trace = p.mem.trace) : Advance env p p' where
  readings_le := hr
  held cacheId expire hheld := by
    have hnow : p.rt.now env ≤ p'.rt.now env := env.mono hr
    rcases hheld with h | ⟨e, he, h⟩
    · exact Or.inl (h.trans hnow)
    · exact Or.inr ⟨e, by rw [hmap, he], h⟩
  kept cacheId expire _ := by
    unfold Center.value
    rw [hmap]
    exact Or.inl rfl
  handed cacheId expire h := by
    rw [htrace] at h
    exact Or.inl h

/-- Where nothing changes the promises are kept. -/
theorem Advance.refl (p : Center T H F τ) : Advance env p p :=
  Advance.of_same le_rfl rfl rfl

/-- A step that assigns one element, in the terms of the manager before and after. -/
theorem Advance.of_update (cacheId : UInt64) (e' : CacheElement T H)
    (hr : p.rt.readings ≤ p'.rt.readings)
    (hmap : p'.mem.map = Function.update p.mem.map cacheId (some e'))
    (hheld : ∀ e, p.mem.map cacheId = some e → e.state.currentState ≠ .kCacheIdle →
      e.state.expireTime ≤ p'.rt.now env ∨
        (e'.state.currentState ≠ .kCacheIdle ∧ e.state.expireTime ≤ e'.state.expireTime))
    (hkept : (∃ e, p.mem.map cacheId = some e ∧ e'.value = e.value) ∨
      ∀ expire, p.Held env cacheId expire →
        ∃ n, p.rt.readings ≤ n ∧ n < p'.rt.readings ∧ expire ≤ env.reading n)
    (hhanded : ∀ id expire, Leased p'.mem.trace id expire → Leased p.mem.trace id expire ∨
      (id = cacheId ∧ (expire ≤ p'.rt.now env ∨
        (e'.state.currentState ≠ .kCacheIdle ∧ expire ≤ e'.state.expireTime)))) :
    Advance env p p' where
  readings_le := hr
  held id expire hh := by
    have hnow : p.rt.now env ≤ p'.rt.now env := env.mono hr
    rcases hh with h | ⟨e, he, hidle, hle⟩
    · exact Or.inl (h.trans hnow)
    · by_cases hid : id = cacheId
      · subst hid
        rcases hheld e he hidle with hover | ⟨hidle', hle'⟩
        · exact Or.inl (hle.trans hover)
        · exact Or.inr ⟨e', by rw [hmap, Function.update_self], hidle', hle.trans hle'⟩
      · exact Or.inr ⟨e, by rw [hmap, Function.update_of_ne hid, he], hidle, hle⟩
  kept id expire hh := by
    by_cases hid : id = cacheId
    · subst hid
      rcases hkept with ⟨e, he, hv⟩ | hkept
      · apply Or.inl
        unfold Center.value
        rw [hmap, Function.update_self, he, Option.map_some, Option.map_some, hv]
      · exact Or.inr (hkept expire hh)
    · apply Or.inl
      unfold Center.value
      rw [hmap, Function.update_of_ne hid]
  handed id expire hl := by
    rcases hhanded id expire hl with h | ⟨rfl, h | ⟨hidle, hle⟩⟩
    · exact Or.inl h
    · exact Or.inr (Or.inl h)
    · exact Or.inr (Or.inr ⟨e', by rw [hmap, Function.update_self], hidle, hle⟩)

/-! ## The invariant -/

/-- An element in the UpdateProtected state holds the update that waits, whole. -/
def CacheElement.Waits (e : CacheElement T H) : Prop :=
  e.state.currentState = .kCacheUpdateProtected →
    e.state.callHandle = some () ∧ e.opId = e.state.opId ∧ e.opId ≠ 0 ∧
      ∃ f value, e.call = some f ∧ e.tempValue = some value

/-- What holds after every step of a run that meets `Prompt` with handlers that are `Quiet`. -/
structure Sound (env : Env) (p : Center T H F τ) : Prop where
  armed : Armed p.rt.queue p.mem.map
  exclusive : Exclusive p.rt.queue p.mem.map
  waits : ∀ cacheId e, p.mem.map cacheId = some e → e.Waits
  bounded : ∀ cacheId e, p.mem.map cacheId = some e → e.state.currentState ≠ .kCacheIdle →
    e.state.expireTime ≤ p.rt.now env + 10000

/-- The bound of the expire times after one element was assigned and the clock moved on. -/
theorem bounded_update {map : UInt64 → Option (CacheElement T H)} {now now' : Int}
    (h : ∀ id e, map id = some e → e.state.currentState ≠ .kCacheIdle →
      e.state.expireTime ≤ now + 10000) (hnow : now ≤ now')
    {cacheId : UInt64} {e : CacheElement T H}
    (he : e.state.currentState ≠ .kCacheIdle → e.state.expireTime ≤ now' + 10000) :
    ∀ id e', Function.update map cacheId (some e) id = some e' →
      e'.state.currentState ≠ .kCacheIdle → e'.state.expireTime ≤ now' + 10000 := by
  refine Lib.Table.forall_assign (fun id e' he' hidle => ?_) he
  have := h id e' he' hidle
  omega

/-- What another owner does to the queue keeps the invariant. -/
theorem Sound.addsForeign (h : Sound env p) {q : Proc (TimerCall F) τ}
    (hadd : AddsForeign env p.rt q.rt) : Sound env (p.withOuter q) where
  armed := h.armed.addsForeign hadd
  exclusive := h.exclusive.addsForeign hadd
  waits := h.waits
  bounded cacheId e he hidle := by
    have h₁ := h.bounded cacheId e he hidle
    have h₂ := hadd.now_le
    simp only [withOuter_rt]
    omega

/-- A step that only reads the clock and writes the history keeps the invariant. -/
theorem Sound.of_same (h : Sound env p) (hq : p'.rt.queue = p.rt.queue)
    (hr : p.rt.readings ≤ p'.rt.readings) (hmap : p'.mem.map = p.mem.map) : Sound env p' where
  armed := by rw [hq, hmap]; exact h.armed
  exclusive := by rw [hq, hmap]; exact h.exclusive
  waits := by rw [hmap]; exact h.waits
  bounded cacheId e he hidle := by
    rw [hmap] at he
    have h₁ := h.bounded cacheId e he hidle
    have h₂ : p.rt.now env ≤ p'.rt.now env := env.mono hr
    omega

/-! ## Operations -/

/-- The operation does not find its element overdue: when `stop_expire` looks at a lease that still
has its timer, the lease still runs. -/
def Prompt (env : Env) (p : Center T H F τ) : Op T H → Prop
  | .read cacheId _ => ∀ e, p.mem.map cacheId = some e →
      e.state.currentState = .kCacheGuaranteed → p.rt.now env < e.state.expireTime
  | .update cacheId _ opId _ => ∀ e, p.mem.map cacheId = some e →
      e.state.currentState = .kCacheGuaranteed → opId ≠ 0 → 0 < timerDelay env (e.state, p.rt) →
        env.reading (p.rt.readings + 1) < e.state.expireTime
  | .tick _ => True

/-- No handler throws. -/
def Hooks.Quiet (hooks : Hooks T H F τ) : Prop :=
  ∀ f status opId expire q, (hooks.invoke f status opId expire q).1 = none

/-- Handlers that do nothing do not throw. -/
theorem Hooks.silent_quiet (unspecified : T) : (Hooks.silent unspecified : Hooks T H F τ).Quiet :=
  fun _ _ _ _ _ => rfl

/-- A lease that starts, or starts anew before it was over, keeps the invariant. -/
theorem Sound.renew (h : Sound env p) {cacheId : UInt64} {m : CacheStateManager Unit}
    (hm : ManagerOk p.rt.queue cacheId m)
    (htimer : ∀ e₀, p.mem.map cacheId = some e₀ → e₀.state.timerId = m.timerId)
    (hstopped : m.timerId = 0 ∨ p.rt.now env < m.expireTime)
    {s : CacheStateManager Unit × Runtime (TimerCall F)}
    (hs : s = guarantee env (closures cacheId) (m, p.rt)) {e' : CacheElement T H}
    (he' : e'.state = s.1) (hrt : p'.rt = s.2)
    (hmap : p'.mem.map = Function.update p.mem.map cacheId (some e')) : Sound env p' := by
  subst hs
  have htimes := guarantee_times env (closures cacheId) (m, p.rt)
  have hreadings := guarantee_readings_lt env (closures cacheId) (m, p.rt)
  exact
    { armed := by
        rw [hrt, hmap]
        exact h.armed.guarantee hm he'
      exclusive := by
        rw [hrt, hmap]
        exact h.exclusive.guarantee h.armed htimer hstopped he'
      waits := by
        rw [hmap]
        refine Lib.Table.forall_assign h.waits fun hstate => ?_
        rw [he', guarantee_currentState] at hstate
        cases hstate
      bounded := by
        rw [hmap, hrt]
        refine bounded_update h.bounded (env.mono hreadings.le) fun _ => ?_
        rw [he']
        exact htimes.2 }

/-- A prompt read keeps the promises. -/
theorem Sound.readOp {cacheId : UInt64} {opId : UInt32}
    {r : Except Thrown (OpResult × Option (Int × T)) × Center T H F τ} (h : Sound env p)
    (hprompt : Prompt env p (.read cacheId opId)) (hr : ReadOp env cacheId opId p r) :
    Sound env r.2 ∧ Advance env p r.2 := by
  cases hr with
  | absent he => exact ⟨h, Advance.refl p⟩
  | @renewed e m s he hm hs =>
      have hsame : e.state.timerId = m.timerId ∧ ManagerOk p.rt.queue cacheId m ∧
          (m.timerId = 0 ∨ p.rt.now env < m.expireTime) := by
        have hok := h.armed.managers cacheId e he
        rcases hm with ⟨hidle, rfl⟩ | ⟨hg, rfl⟩
        · exact ⟨rfl, hok, Or.inl (hok.idle hidle)⟩
        · exact ⟨rfl, hok.setOpId opId, Or.inr (hprompt e he hg)⟩
      obtain ⟨htimer, hok, hstopped⟩ := hsame
      have htimes := guarantee_times env (closures cacheId) (m, p.rt)
      have hreadings := guarantee_readings_lt env (closures cacheId) (m, p.rt)
      rw [← hs] at htimes hreadings
      refine ⟨h.renew hok ?_ hstopped hs rfl rfl rfl, ?_⟩
      · intro e₀ he₀
        rw [he] at he₀
        cases he₀
        exact htimer
      · refine Advance.of_update cacheId _ hreadings.le rfl ?_ (Or.inl ⟨e, he, rfl⟩) ?_
        · intro e₀ he₀ hidle
          refine Or.inr ⟨by rw [hs]; exact guarantee_not_idle env _ _, ?_⟩
          exact (h.bounded cacheId e₀ he₀ hidle).trans htimes.1
        · intro id expire hl
          refine (leased_append_singleton.mp hl).imp_right fun hlease => ?_
          cases hlease
          exact ⟨rfl, Or.inr ⟨by rw [hs]; exact guarantee_not_idle env _ _, le_rfl⟩⟩
  | @unleased e he hstate =>
      refine ⟨h.of_same rfl (Nat.le_succ _) rfl, ?_⟩
      refine Advance.of_update cacheId e (Nat.le_succ _)
        (Function.update_eq_self_iff.mpr he.symm).symm ?_ (Or.inl ⟨e, he, rfl⟩) ?_
      · intro e₀ he₀ hidle
        rw [he] at he₀
        cases he₀
        exact Or.inr ⟨hidle, le_rfl⟩
      · intro id expire hl
        refine (leased_append_singleton.mp hl).imp_right fun hlease => ?_
        cases hlease
        exact ⟨rfl, Or.inl (env.mono (Nat.le_succ _))⟩

/-- A prompt update keeps the promises. -/
theorem Sound.updateOp [Inhabited T] {cacheId : UInt64} {value : T} {opId : UInt32} {f : H}
    {r : Except Thrown (OpResult × Int) × Center T H F τ} (h : Sound env p)
    (hprompt : Prompt env p (.update cacheId value opId f))
    (hr : UpdateOp env cacheId value opId f p r) : Sound env r.2 ∧ Advance env p r.2 := by
  have harmed := h.armed.updateOp hr
  cases hr with
  | @assigned e s he hstate hs =>
      have hok := h.armed.found he
      have hidle := hok.idle hstate
      have htimes := guarantee_times env (closures cacheId) (e.state, p.rt)
      have hreadings := guarantee_readings_lt env (closures cacheId) (e.state, p.rt)
      rw [← hs] at htimes hreadings
      have hfound : ∀ e₀, p.mem.map cacheId = some e₀ → e₀ = e := by
        intro e₀ he₀
        rcases he with he | ⟨he, -⟩ <;> rw [he] at he₀ <;> cases he₀
        rfl
      refine ⟨h.renew hok ?_ (Or.inl hidle) hs rfl rfl rfl, ?_⟩
      · intro e₀ he₀
        rw [hfound e₀ he₀]
      · refine Advance.of_update cacheId _ hreadings.le rfl ?_ (Or.inr ?_) ?_
        · intro e₀ he₀ hne
          rw [hfound e₀ he₀] at hne
          exact absurd hstate hne
        · intro expire hheld
          refine ⟨p.rt.readings, le_rfl, hreadings, ?_⟩
          rcases hheld with hle | ⟨e₀, he₀, hne, -⟩
          · exact hle
          · rw [hfound e₀ he₀] at hne
            exact absurd hstate hne
        · intro id expire hl
          refine (leased_append_singleton.mp hl).imp_right fun hlease => ?_
          cases hlease
          exact ⟨rfl, Or.inr ⟨by rw [hs]; exact guarantee_not_idle env _ _, le_rfl⟩⟩
  | refused he hstate h0 => exact ⟨h, Advance.refl p⟩
  | @overdue e he hstate h0 hdelay =>
      refine ⟨⟨harmed, h.exclusive.sameExpiry he (.setCallHandle _ _ _), ?_, ?_⟩, ?_⟩
      · refine Lib.Table.forall_assign h.waits fun hw => ?_
        have : e.state.currentState = .kCacheUpdateProtected := hw
        rw [hstate] at this
        cases this
      · refine bounded_update h.bounded (env.mono (Nat.le_succ _)) fun hidle => ?_
        have h₁ := h.bounded cacheId e he hidle
        have h₂ : p.rt.now env ≤ p.rt.readClock.now env := env.mono (Nat.le_succ _)
        exact h₁.trans (Int.add_le_add_right h₂ _)
      · refine Advance.of_update cacheId _ (Nat.le_succ _) rfl ?_ (Or.inl ⟨e, he, rfl⟩)
          fun id expire hl => Or.inl hl
        intro e₀ he₀ hidle
        rw [he] at he₀
        cases he₀
        exact Or.inr ⟨hidle, le_rfl⟩
  | @deferred e s he hstate h0 hdelay hs =>
      have hne : e.state.currentState ≠ .kCacheIdle := by rw [hstate]; decide
      have hlt₁ : env.reading (p.rt.readings + 1) < e.state.expireTime :=
        hprompt e he hstate h0 hdelay
      have hnow : p.rt.now env ≤ p.rt.readClock.now env := env.mono (Nat.le_succ _)
      have hlt : p.rt.now env < e.state.expireTime := lt_of_le_of_lt hnow hlt₁
      have htimes := protect_times env (closures cacheId) (e.state, p.rt) hlt
        (h.bounded cacheId e he hne) rfl
        ((e.state.setOpId opId).setCallHandle (some ()), p.rt.readClock) hnow
      have hreadings : p.rt.readings < s.2.readings := by
        have hlt := protect_readings_lt env (closures cacheId)
          ((e.state.setOpId opId).setCallHandle (some ()), p.rt.readClock)
          (UInt32.ofNat (timerDelay env (e.state, p.rt)).toNat)
        rw [← hs] at hlt
        exact lt_trans (Nat.lt_succ_self _) hlt
      rw [← hs] at htimes
      have hx : Exclusive p.rt.readClock.queue p.mem.map := h.exclusive
      have htimer : ∀ e₀, p.mem.map cacheId = some e₀ →
          e₀.state.timerId = ((e.state.setOpId opId).setCallHandle (some ())).timerId := by
        intro e₀ he₀
        rw [he] at he₀
        cases he₀
        rfl
      have hs₁ : s.1.callHandle = some () ∧ s.1.opId = opId := by
        rw [hs]
        exact ⟨protect_callHandle env _ _ _, protect_opId env _ _ _⟩
      refine ⟨⟨harmed, ?_, ?_, ?_⟩, ?_⟩
      · rw [hs]
        exact hx.protect h.armed htimer (Or.inr hlt₁) _ rfl
      · refine Lib.Table.forall_assign h.waits fun _ => ?_
        exact ⟨hs₁.1, hs₁.2.symm, h0, f, value, rfl, rfl⟩
      · exact bounded_update h.bounded (env.mono hreadings.le) fun _ => htimes.2
      · refine Advance.of_update cacheId _ hreadings.le rfl ?_ (Or.inl ⟨e, he, rfl⟩) ?_
        · intro e₀ he₀ hidle
          rw [he] at he₀
          cases he₀
          exact Or.inr ⟨by rw [hs]; exact protect_not_idle env _ _ _, htimes.1⟩
        · intro id expire hl
          rcases leased_append_singleton.mp hl with hl | hlease
          · exact Or.inl hl
          · cases hlease
  | retried he hstate h0 =>
      refine ⟨h.of_same rfl le_rfl rfl, ?_⟩
      refine
        { readings_le := le_rfl
          held := fun _ _ hheld => hheld
          kept := fun _ _ _ => Or.inl rfl
          handed := ?_ }
      intro id expire hl
      rcases leased_append_singleton.mp hl with hl | hlease
      · exact Or.inl hl
      · cases hlease

/-! ## Ticks -/

section tick

variable {hooks : Hooks T H F τ} {t : EventTimer (TimerCall F)}
  {r : Option Thrown × Center T H F τ}

/-- The element of a live timer is managed by it, and not by another one. -/
theorem Sound.owner (h : Sound env p) (ht : t ∈ p.rt.queue) (hlive : t.repeat_ ≠ 0)
    {cacheId : UInt64} (howner : t.callback.owner = some cacheId) {e : CacheElement T H}
    (he : p.mem.map cacheId = some e) : ManagedBy cacheId e.state t := by
  obtain ⟨e₀, he₀, hm⟩ := h.exclusive t ht hlive cacheId howner
  rw [he] at he₀
  cases he₀
  exact hm

/-- The element of a live UpdateProtected timer holds a waiting update. -/
theorem Sound.waiting (h : Sound env p) (ht : t ∈ p.rt.queue) (hlive : t.repeat_ ≠ 0)
    {cacheId : UInt64} (hcall : t.callback = .updateProtected cacheId) {e : CacheElement T H}
    (he : p.mem.map cacheId = some e) :
    e.state.callHandle = some () ∧ e.opId = e.state.opId ∧ e.opId ≠ 0 ∧
      ∃ f value, e.call = some f ∧ e.tempValue = some value :=
  h.waits cacheId e he
    ((h.owner ht hlive (by rw [hcall]; rfl) he).updateProtected hcall)

/-- Its handlers are there: no callback finds one missing. -/
theorem Sound.handlers (h : Sound env p) (ht : t ∈ p.rt.queue) (hlive : t.repeat_ ≠ 0)
    {cacheId : UInt64} (hcall : t.callback = .updateProtected cacheId) {e : CacheElement T H}
    (he : p.mem.map cacheId = some e) : e.state.callHandle ≠ none ∧ e.call ≠ none := by
  obtain ⟨hbound, -, -, f, -, hf, -⟩ := h.waiting ht hlive hcall he
  constructor
  · rw [hbound]
    exact Option.some_ne_none _
  · rw [hf]
    exact Option.some_ne_none _

/-- The callback of a due timer keeps every promise: it ends a lease, or changes a value, only
when the lease is over. -/
theorem Sound.runTimer_advance (h : Sound env p) (hb : hooks.Benign env) (ht : t ∈ p.rt.queue)
    (hlive : t.repeat_ ≠ 0) (hdue : t.expireTime ≤ p.rt.now env)
    (hr : RunTimer env hooks p t.callback r) : Advance env p r.2 := by
  have hover : ∀ cacheId e, t.callback.owner = some cacheId → p.mem.map cacheId = some e →
      e.state.expireTime ≤ p.rt.now env :=
    fun cacheId e howner he => (h.owner ht hlive howner he).expireTime_le.trans hdue
  generalize hcall : t.callback = call at hr
  rw [hcall] at hover
  cases hr with
  | absent howner he => exact Advance.refl p
  | @idled cacheId e he =>
      refine Advance.of_update cacheId _ le_rfl rfl ?_ (Or.inl ⟨e, he, rfl⟩)
        fun id expire hl => Or.inl hl
      intro e₀ he₀ _
      exact Or.inl (hover cacheId e₀ rfl he₀)
  | @completed cacheId e f s p' r he hs hf hp hinv =>
      have hadd := hb.invoke f .kOperationOk e.state.opId s.1.expireTime p'.outer
      rw [← hinv] at hadd
      have htimes := guarantee_times env (closures cacheId) (e.state, p.rt)
      have hreadings := guarantee_readings_lt env (closures cacheId) (e.state, p.rt)
      rw [← hs] at htimes hreadings
      have hrt : p'.rt = s.2 := by rw [hp, hs]; rfl
      have hlast : Advance env p' (p'.withOuter r.2) :=
        Advance.of_same hadd.readings_le rfl rfl
      refine Advance.trans ?_ hlast
      refine Advance.of_update cacheId (e.taken hooks.unspecified s.1) ?_ ?_ ?_ (Or.inr ?_) ?_
      · rw [hrt]
        exact hreadings.le
      · rw [hp, hs]
        rfl
      · intro e₀ he₀ hidle
        refine Or.inr ⟨?_, (h.bounded cacheId e₀ he₀ hidle).trans htimes.1⟩
        rw [hs]
        exact guarantee_not_idle env _ _
      · intro expire hheld
        refine ⟨p.rt.readings, le_rfl, by rw [hrt]; exact hreadings, ?_⟩
        rcases hheld with hle | ⟨e₀, he₀, -, hle⟩
        · exact hle
        · exact hle.trans (hover cacheId e₀ rfl he₀)
      · intro id expire hl
        rw [hp] at hl
        rcases leased_append_singleton.mp hl with hl | hlease
        · rcases leased_append_singleton.mp hl with hl | hlease
          · exact Or.inl hl
          · cases hlease
        · cases hlease
          refine Or.inr ⟨rfl, Or.inr ⟨?_, le_rfl⟩⟩
          rw [hs]
          exact guarantee_not_idle env _ _
  | noCall he hf => exact absurd hf (h.handlers ht hlive hcall he).2
  | unbound he hnone => exact absurd hnone (h.handlers ht hlive hcall he).1
  | @foreign f r hinv =>
      have hadd := hb.foreign f p.outer
      rw [← hinv] at hadd
      exact Advance.of_same hadd.readings_le rfl rfl

/-- The callback leaves every element waiting for a whole update or not at all, and every expire
time within its bound. -/
theorem Sound.runTimer_elements (h : Sound env p) (hb : hooks.Benign env)
    (hr : RunTimer env hooks p t.callback r) :
    (∀ id e, r.2.mem.map id = some e → e.Waits) ∧
      ∀ id e, r.2.mem.map id = some e → e.state.currentState ≠ .kCacheIdle →
        e.state.expireTime ≤ r.2.rt.now env + 10000 := by
  have hrenewed : ∀ cacheId (e e' : CacheElement T H) now,
      e'.state = (guarantee env (closures cacheId) (e.state, p.rt)).1 →
      (guarantee env (closures cacheId) (e.state, p.rt)).2.now env ≤ now →
      (∀ id e₁, Function.update p.mem.map cacheId (some e') id = some e₁ → e₁.Waits) ∧
        ∀ id e₁, Function.update p.mem.map cacheId (some e') id = some e₁ →
          e₁.state.currentState ≠ .kCacheIdle → e₁.state.expireTime ≤ now + 10000 := by
    intro cacheId e e' now he' hnow
    have htimes := guarantee_times env (closures cacheId) (e.state, p.rt)
    have hreadings := guarantee_readings_lt env (closures cacheId) (e.state, p.rt)
    refine ⟨Lib.Table.forall_assign h.waits fun hw => ?_, bounded_update h.bounded ?_ fun _ => ?_⟩
    · rw [he', guarantee_currentState] at hw
      cases hw
    · exact le_trans (env.mono hreadings.le) hnow
    · rw [he']
      exact htimes.2.trans (Int.add_le_add_right hnow _)
  generalize t.callback = call at hr
  cases hr with
  | absent howner he => exact ⟨h.waits, h.bounded⟩
  | @idled cacheId e he =>
      refine ⟨Lib.Table.forall_assign h.waits (fun hw => nomatch hw), ?_⟩
      exact bounded_update h.bounded le_rfl fun hidle => absurd rfl hidle
  | @completed cacheId e f s p' r he hs hf hp hinv =>
      have hadd := hb.invoke f .kOperationOk e.state.opId s.1.expireTime p'.outer
      rw [← hinv] at hadd
      subst hp
      exact hrenewed cacheId e _ _ rfl hadd.now_le
  | @noCall cacheId e he hf => exact hrenewed cacheId e _ _ rfl le_rfl
  | @unbound cacheId e he hnone => exact hrenewed cacheId e _ _ rfl le_rfl
  | @foreign f r hinv =>
      have hadd := hb.foreign f p.outer
      rw [← hinv] at hadd
      exact ⟨h.waits, (h.addsForeign hadd).bounded⟩

/-- A callback of another owner. -/
theorem RunTimer.of_foreign {call : TimerCall F} (hr : RunTimer env hooks p call r)
    (howner : call.owner = none) : ∃ f, r = ((hooks.foreign f p.outer).1,
      p.withOuter (hooks.foreign f p.outer).2) := by
  cases hr with
  | absent howner' he =>
      rw [howner'] at howner
      cases howner
  | idled he => cases howner
  | completed he hs hf hp hinv => cases howner
  | noCall he hf => cases howner
  | unbound he hnone => cases howner
  | @foreign f r hinv => exact ⟨f, by rw [hinv]⟩

/-- If the iteration ends with an exception, slot 0 is a timer of another owner. -/
def OthersThrow (p : Center T H F τ) (r : Iter (Center T H F τ)) : Prop :=
  ∀ e p', r = .threw e p' → ∀ t rest, p.rt.queue = t :: rest → t.callback.owner = none

/-- An element that waits has all it takes to complete its update, so only the handler throws. -/
theorem Sound.throws (h : Sound env p) (ht : t ∈ p.rt.queue) (hlive : t.repeat_ ≠ 0)
    (hr : RunTimer env hooks p t.callback r) (hthrew : r.1 ≠ none) :
    t.callback.owner = none ∨ ∃ f status opId expire q,
      (hooks.invoke f status opId expire q).1 ≠ none := by
  generalize hcall : t.callback = call at hr
  cases hr with
  | absent howner he => exact absurd rfl hthrew
  | idled he => exact absurd rfl hthrew
  | @completed cacheId e f s p' r he hs hf hp hinv =>
      subst hinv
      exact Or.inr ⟨f, _, _, _, _, hthrew⟩
  | noCall he hf => exact absurd hf (h.handlers ht hlive hcall he).2
  | unbound he hnone => exact absurd hnone (h.handlers ht hlive hcall he).1
  | foreign hinv => exact Or.inl rfl

/-- Where handlers do not throw, only timers of other owners end a `tick`. -/
theorem Sound.othersThrow (h : Sound env p) (hquiet : hooks.Quiet) {r : Iter (Center T H F τ)}
    (hr : TickIter env (CacheSystem.runTimer env hooks) p r) : OthersThrow p r := by
  have hlocked : Sound env { p with rt := p.rt.readClock.lock } := h.of_same rfl (Nat.le_succ _) rfl
  intro e p' hthrew t rest hq
  obtain ⟨h0, p₁, hrun⟩ := hr.of_threw hthrew hq
  have hspec := RunTimer.of_eq hrun
  have ht : t ∈ p.rt.queue := by
    rw [hq]
    exact List.mem_cons_self
  rcases hlocked.throws ht h0 hspec (by simp) with howner | ⟨f, status, opId, expire, q, hinv⟩
  · exact howner
  · exact absurd (hquiet f status opId expire q) hinv

/-- **An iteration of `tick`** keeps the invariant and every promise. -/
theorem Sound.tickIter (h : Sound env p) (hb : hooks.Benign env) {r : Iter (Center T H F τ)}
    (hr : TickIter env (CacheSystem.runTimer env hooks) p r) (hothers : OthersThrow p r) :
    Sound env r.state ∧ Advance env p r.state := by
  have harmed := h.armed.tickIter hb hr
  have hexclusive := h.exclusive.tickIter h.armed hb hr hothers
  have hlocked : Sound env { p with rt := p.rt.readClock.lock } ∧
      Advance env p { p with rt := p.rt.readClock.lock } :=
    ⟨h.of_same rfl (Nat.le_succ _) rfl, Advance.of_same (Nat.le_succ _) rfl rfl⟩
  cases hr with
  | empty hq => exact ⟨h, Advance.refl p⟩
  | notDue hq hdue =>
      exact ⟨h.of_same rfl (Nat.le_succ _) rfl, Advance.of_same (Nat.le_succ _) rfl rfl⟩
  | @dead t rest q hq hdue h0 hperm =>
      exact ⟨⟨harmed, hexclusive, hlocked.1.waits, hlocked.1.bounded⟩,
        Advance.of_same (Nat.le_succ _) rfl rfl⟩
  | @threw t rest e p₁ hq hdue h0 hrun =>
      have hspec := RunTimer.of_eq hrun
      have ht : t ∈ p.rt.queue := by rw [hq]; exact List.mem_cons_self
      obtain ⟨f, hf⟩ := hspec.of_foreign (hothers e _ rfl t rest hq)
      have hadd := hb.foreign f (Center.outer { p with rt := p.rt.readClock.lock })
      have hsound := hlocked.1.addsForeign hadd
      rw [← (Prod.mk.inj hf).2] at hsound
      refine ⟨hsound.of_same rfl le_rfl rfl, ?_⟩
      have hdue' : t.expireTime ≤ p.rt.readClock.lock.now env :=
        hdue.trans (now_le_reading env p.rt (Nat.le_succ _))
      exact (hlocked.2.trans (hlocked.1.runTimer_advance hb ht h0 hdue' hspec)).trans
        (Advance.of_same le_rfl rfl rfl)
  | @fired t rest p₁ hq hdue h0 hrun =>
      have hspec := RunTimer.of_eq hrun
      have ht : t ∈ p.rt.queue := by rw [hq]; exact List.mem_cons_self
      have hdue' : t.expireTime ≤ p.rt.readClock.lock.now env :=
        hdue.trans (now_le_reading env p.rt (Nat.le_succ _))
      have helements := hlocked.1.runTimer_elements hb hspec
      have hadvance := hlocked.1.runTimer_advance hb ht h0 hdue' hspec
      simp only at helements hadvance
      have hreadings := settled_readings_le env p₁.rt
      have hnow : p₁.rt.now env ≤ env.reading (settleFront env (decrementFront p₁.rt)).readings :=
        env.mono hreadings
      refine ⟨⟨harmed, hexclusive, helements.1, ?_⟩, ?_⟩
      · intro id e he hidle
        exact (helements.2 id e he hidle).trans (Int.add_le_add_right hnow _)
      · exact (hlocked.2.trans hadvance).trans (Advance.of_same hreadings rfl rfl)

end tick

/-! ## Runs -/

section runs

variable {hooks : Hooks T H F τ}

/-- **A step that meets `Prompt`** keeps the invariant and every promise. -/
theorem Sound.step [Inhabited T] (h : Sound env p) (hb : hooks.Benign env) (hquiet : hooks.Quiet)
    {op : Op T H} (hprompt : Prompt env p op) (hstep : p.step env hooks op = some p') :
    Sound env p' ∧ Advance env p p' := by
  cases op with
  | read cacheId opId =>
      cases hstep
      exact h.readOp hprompt (readOp_spec env cacheId opId p)
  | update cacheId value opId f =>
      cases hstep
      exact h.updateOp hprompt (updateOp_spec env cacheId value opId f p)
  | tick fuel =>
      obtain ⟨r, hr, rfl⟩ := Option.map_eq_some_iff.mp hstep
      refine tickLoop_induct (fun q => Sound env q ∧ Advance env p q) ?_ fuel p r.1 r.2
        ⟨h, Advance.refl p⟩ hr
      rintro q i ⟨hq, hpq⟩ hi
      obtain ⟨hq', hqi⟩ := hq.tickIter hb hi (hq.othersThrow hquiet hi)
      exact ⟨hq', hpq.trans hqi⟩

/-- The empty data center has made no promise. -/
theorem sound_initial (outer : τ) :
    Sound env (Center.initial outer : Center T H F τ) where
  armed := armed_nil
  exclusive t ht := by cases ht
  waits cacheId e he := by cases he
  bounded cacheId e he := by cases he

/-- In every run that meets `Prompt` the invariant holds and every promise made is kept. -/
theorem sound_of_reachable [Inhabited T] (hb : hooks.Benign env) (hquiet : hooks.Quiet)
    (h : Reachable env hooks (Prompt env) p) :
    Sound env p ∧ ∀ cacheId expire, Leased p.mem.trace cacheId expire →
      p.Held env cacheId expire := by
  induction h with
  | initial outer =>
      refine ⟨sound_initial outer, fun cacheId expire hl => ?_⟩
      obtain ⟨event, hmem, -⟩ := hl
      cases hmem
  | step op _ hprompt hstep ih =>
      obtain ⟨hsound, hadvance⟩ := ih.1.step hb hquiet hprompt hstep
      refine ⟨hsound, fun cacheId expire hl => ?_⟩
      rcases hadvance.handed cacheId expire hl with hl | hheld
      · exact hadvance.held cacheId expire (ih.2 cacheId expire hl)
      · exact hheld

/-- The promise of a lease, over the runs whose steps meet `ok`: no step with clock readings below
an expire time handed out before changes the value. -/
def LeaseSafe [Inhabited T] (env : Env) (hooks : Hooks T H F τ)
    (ok : Center T H F τ → Op T H → Prop) : Prop :=
  ∀ p op p', Reachable env hooks ok p → ok p op → p.step env hooks op = some p' →
    ∀ cacheId expire, Leased p.mem.trace cacheId expire →
      (∀ n, p.rt.readings ≤ n → n < p'.rt.readings → env.reading n < expire) →
        p'.value cacheId = p.value cacheId

/-- **Leases are kept** in every run whose operations are `Prompt`, with handlers that do not
throw. -/
theorem leaseSafe_of_prompt [Inhabited T] (hb : hooks.Benign env) (hquiet : hooks.Quiet) :
    LeaseSafe env hooks (Prompt env) := by
  intro p op p' hreach hprompt hstep cacheId expire hl hbelow
  obtain ⟨hsound, hleases⟩ := sound_of_reachable hb hquiet hreach
  obtain ⟨-, hadvance⟩ := hsound.step hb hquiet hprompt hstep
  rcases hadvance.kept cacheId expire (hleases cacheId expire hl) with hv | ⟨n, hle, hlt, hn⟩
  · exact hv
  · exact absurd (hbelow n hle hlt) (not_lt.mpr hn)

end runs

/-- The deferred update of a fresh lease, as a case of `leaseSafe_of_prompt`. -/
theorem leaseSafe_of_prompt_deferred :
    ∃ p p' : Center Nat Unit Empty Unit, Leased p.mem.trace 1 10000 ∧
      p.step stillClock (Hooks.silent 0) (.update 1 7 2 ()) = some p' ∧
      p'.value 1 = p.value 1 := by
  have hreach : Reachable stillClock (Hooks.silent 0) (Prompt stillClock)
      ((Center.initial () : Center Nat Unit Empty Unit).updateOp stillClock 1 5 1 ()).2 :=
    .step (.update 1 5 1 ()) (.initial ()) (fun e he => by cases he) rfl
  have hleased : Leased
      ((Center.initial () : Center Nat Unit Empty Unit).updateOp stillClock 1 5 1 ()).2.mem.trace
      1 10000 := ⟨_, List.mem_cons_self, rfl⟩
  refine ⟨_, _, hleased, rfl, ?_⟩
  refine leaseSafe_of_prompt (Hooks.silent_benign stillClock 0) (Hooks.silent_quiet 0) _
    (.update 1 7 2 ()) _ hreach ?_ rfl 1 10000 hleased fun n _ _ => ?_
  · intro e he _ _ _
    obtain rfl := Option.some.inj he
    decide
  · show (0 : Int) < 10000
    decide

/-- A clock that stands at 0 for two readings, at 10000 for five, and at 10001 from then on. -/
def lateClock : Env :=
  Env.ofClock (fun n => if n < 2 then 0 else if n < 7 then 10000 else 10001) fun a b h => by
    split_ifs <;> omega

/-- The promise is broken when a read comes between the end of a lease and its tick: the old timer
ends the new lease, and the next update is assigned within it. -/
theorem not_leaseSafe :
    ¬ LeaseSafe lateClock (Hooks.silent 0 : Hooks Nat Unit Empty Unit) fun _ _ => True := by
  intro h
  obtain ⟨p, hrun, hp⟩ : ∃ p, (Center.initial ()).run lateClock
      (Hooks.silent 0 : Hooks Nat Unit Empty Unit) [.update 1 5 1 (), .read 1 2, .tick 2] = some p ∧
      p.mem.trace = [.updated 1 1 () 5 10000, .read 1 20000 5] ∧ p.rt.readings = 7 ∧
      p.value 1 = some 5 ∧ (p.updateOp lateClock 1 7 3 ()).2.value 1 = some 7 ∧
      (p.updateOp lateClock 1 7 3 ()).2.rt.readings = 9 :=
    ⟨_, rfl, by decide⟩
  obtain ⟨htrace, hreadings, hv, hv', hreadings'⟩ := hp
  have hreach := Reachable.run (fun _ _ => trivial) (Reachable.initial ()) hrun
  have hsame := h p (.update 1 7 3 ()) _ hreach trivial rfl 1 20000
    ⟨.read 1 20000 5, by rw [htrace]; decide, rfl⟩ fun n hle hlt => by
      rw [hreadings] at hle
      show (if n < 2 then (0 : Int) else if n < 7 then 10000 else 10001) < 20000
      split_ifs <;> omega
  rw [hv] at hsame
  exact absurd (hv'.symm.trans hsame) (by decide)

end CacheSystem

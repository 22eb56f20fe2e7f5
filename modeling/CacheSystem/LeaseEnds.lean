import CacheSystem.Managers

/-!
# Where a lease ends

Every operation derives `expire_time_` from the clock it reads: a lease that starts ends
`kDefaultExpireMillisecond` later, and a wait that starts takes over what is left of the lease, a
difference of two readings narrowed to `int32_t`. The two bounds that make this sound need each
other: a lease end is at most a whole lease ahead, so a lease that starts anew never ends earlier,
and what is left of a lease fits the narrowing.

* `Ends` : the invariant of one manager, with what was handed out for it.
* `Managers.Part` : a step of a run, or an iteration of a `tick` within it.
* `Managers.InReach` : an update does not find its manager Guaranteed `2 ^ 31` milliseconds or more
  past its `expire_time_`.
* `leaseEnds` : in the runs whose steps are in reach.
-/

namespace CacheSystem

variable {ι φ F τ κ : Type}

/-! ## One manager -/

/-- A lease end is at most a whole lease ahead, and no value handed out since the manager was last
Idle lies past it, but for the readings handed out while an update waits. -/
structure Ends (env : Env) (rt : Runtime κ) (m : CacheStateManager φ) (handed : List Int) :
    Prop where
  le : m.expireTime ≤ rt.now env + 10000
  idle : m.currentState = .kCacheIdle → handed = []
  handed_le : ∀ expire ∈ handed, expire ≤ m.expireTime ∨
    (m.currentState = .kCacheUpdateProtected ∧ expire ≤ rt.now env)

variable {env : Env} {rt rt' : Runtime κ} {m : CacheStateManager φ} {handed : List Int}

/-- A new manager has handed out nothing. -/
theorem Ends.initial (hclock : ∀ n, 0 ≤ env.reading n) (rt : Runtime κ) :
    Ends env rt ({} : CacheStateManager φ) [] where
  le := by
    have h := hclock rt.readings
    change (0 : Int) ≤ env.reading rt.readings + 10000
    omega
  idle _ := rfl
  handed_le _ h := nomatch h

/-- Time that passes changes nothing. -/
theorem Ends.later (h : Ends env rt m handed) (hr : rt.readings ≤ rt'.readings) :
    Ends env rt' m handed where
  le := by
    have hnow : rt.now env ≤ rt'.now env := env.mono hr
    exact h.le.trans (Int.add_le_add_right hnow _)
  idle := h.idle
  handed_le expire hmem :=
    (h.handed_le expire hmem).imp_right fun ⟨hstate, hle⟩ => ⟨hstate, hle.trans (env.mono hr)⟩

/-- A manager that differs in what is not about time. -/
theorem Ends.told (h : Ends env rt m handed) (opId : UInt32) (f : Option φ) :
    Ends env rt ((m.setOpId opId).setCallHandle f) handed :=
  ⟨h.le, h.idle, h.handed_le⟩

/-- **A lease that starts anew never ends earlier**, and covers all that was handed out. -/
theorem Ends.guarantee (closures : Closures κ) {s : CacheStateManager φ × Runtime κ}
    (h : Ends env s.2 s.1 handed) :
    Ends env (guarantee env closures s).2 (guarantee env closures s).1
        (handed ++ [(guarantee env closures s).1.expireTime]) ∧
      s.1.expireTime ≤ (guarantee env closures s).1.expireTime := by
  obtain ⟨hge, hle⟩ := guarantee_times env closures s
  have hpast : s.1.expireTime ≤ (CacheSystem.guarantee env closures s).1.expireTime :=
    h.le.trans hge
  refine ⟨⟨hle, fun hidle => (nomatch hidle), fun expire hmem => Or.inl ?_⟩, hpast⟩
  rcases List.mem_append.mp hmem with hmem | hmem
  · rcases h.handed_le expire hmem with hbefore | ⟨-, hnow⟩
    · exact hbefore.trans hpast
    · omega
  · exact (List.mem_singleton.mp hmem).le

/-- **The narrowing of `timer_delay` and its cast are exact** for a lease end that is at most a
whole lease ahead and less than `2 ^ 31` milliseconds behind. -/
theorem Ends.timerDelay_exact {s : CacheStateManager φ × Runtime κ} (h : Ends env s.2 s.1 handed)
    (hreach : s.2.now env < s.1.expireTime + 2 ^ 31) :
    timerDelay env s = s.1.expireTime - s.2.now env ∧
      (0 < timerDelay env s →
        ((UInt32.ofNat (timerDelay env s).toNat).toNat : Int) = s.1.expireTime - s.2.now env) := by
  have hle := h.le
  have hexact : timerDelay env s = s.1.expireTime - s.2.now env := by
    unfold timerDelay getTimeStamp
    have h0 : ((0 : UInt32).toNat : Int) = 0 := rfl
    rw [h0, Int.add_zero]
    apply toInt32_of_mem <;> omega
  refine ⟨hexact, fun hpos => ?_⟩
  exact (CacheSystem.timerDelay_exact env s (by omega) hle).2

/-- **The wait for a lease ends no earlier than the lease**, and a whole lease ahead at most. -/
theorem Ends.protect {closures : Closures κ} {s : CacheStateManager φ × Runtime κ} {opId : UInt32}
    {f : φ} (h : Ends env s.2 s.1 handed) (hstate : s.1.currentState = .kCacheGuaranteed)
    (hreach : s.2.now env < s.1.expireTime + 2 ^ 31) (hdelay : 0 < timerDelay env s)
    {s' : CacheStateManager φ × Runtime κ}
    (hs' : s' = protect env closures ((s.1.setOpId opId).setCallHandle (some f), s.2.readClock)
      (UInt32.ofNat (timerDelay env s).toNat)) :
    Ends env s'.2 s'.1 (handed ++ [s'.1.expireTime]) ∧ s.1.expireTime ≤ s'.1.expireTime ∧
      ∀ expire ∈ handed, expire ≤ s'.1.expireTime := by
  have hexact := (h.timerDelay_exact hreach).1
  have hnow : s.2.now env ≤ s.2.readClock.now env := env.mono (Nat.le_succ _)
  obtain ⟨hge, hle⟩ := protect_times env closures s (by omega) h.le rfl
    ((s.1.setOpId opId).setCallHandle (some f), s.2.readClock) hnow
  rw [← hs'] at hge hle
  have hcovers : ∀ expire ∈ handed, expire ≤ s'.1.expireTime := by
    intro expire hmem
    rcases h.handed_le expire hmem with hbefore | ⟨hwaits, -⟩
    · exact hbefore.trans hge
    · exact nomatch hstate.symm.trans hwaits
  have hwaits : s'.1.currentState = .kCacheUpdateProtected := by rw [hs', protect_currentState]
  refine ⟨⟨hle, fun hidle => (nomatch hwaits.symm.trans hidle), fun expire hmem => Or.inl ?_⟩, hge,
    hcovers⟩
  rcases List.mem_append.mp hmem with hmem | hmem
  · exact hcovers expire hmem
  · exact (List.mem_singleton.mp hmem).le

/-! ## One operation -/

/-- What an operation does to the time of its manager: it is Idle afterwards or its lease end was
not pulled in, and on entering UpdateProtected the lease end covers all that was handed out. -/
structure Forward (m m' : CacheStateManager φ) (handed : List Int) : Prop where
  le : m'.currentState = .kCacheIdle ∨ m.expireTime ≤ m'.expireTime
  covers : m.currentState ≠ .kCacheUpdateProtected → m'.currentState = .kCacheUpdateProtected →
    ∀ expire ∈ handed, expire ≤ m'.expireTime

/-- A manager that does not change is not turned back. -/
theorem Forward.refl (m : CacheStateManager φ) (handed : List Int) : Forward m m handed :=
  ⟨Or.inr le_rfl, fun h h' => absurd h' h⟩

/-- The history of a manager after an operation that answered `r`. -/
def handedBy {σ : Type} (handed : List Int) : Except Thrown (OpResult × Int) × σ → List Int
  | (.error _, _) => handed
  | (.ok a, _) => handed ++ [a.2]

/-- The update is in reach of the narrowing: the clock is not `2 ^ 31` milliseconds or more past the
lease end of a manager that is Guaranteed. -/
def Asked.InReach (env : Env) (s : CacheStateManager φ × Runtime κ) : Asked φ → Prop
  | .read _ => True
  | .update _ _ => s.1.currentState = .kCacheGuaranteed → s.2.now env < s.1.expireTime + 2 ^ 31

/-- No operation turns the clock back. -/
theorem Turn.readings_le {closures : Closures κ} {s : CacheStateManager φ × Runtime κ}
    {asked : Asked φ} {r : Except Thrown (OpResult × Int) × (CacheStateManager φ × Runtime κ)}
    (h : Turn env closures s asked r) : s.2.readings ≤ r.2.2.readings := by
  cases h with
  | started hstate hs' =>
      subst hs'
      exact (guarantee_readings_lt env closures s).le
  | @renewed opId s' hstate hs' =>
      subst hs'
      exact (guarantee_readings_lt env closures (s.1.setOpId opId, s.2)).le
  | @waits opId f s' h0 hstate hdelay hs' =>
      have hlt := protect_readings_lt env closures
        ((s.1.setOpId opId).setCallHandle (some f), s.2.readClock)
        (UInt32.ofNat (timerDelay env s).toNat)
      rw [← hs'] at hlt
      exact (Nat.le_succ _).trans hlt.le
  | refused hbad => exact le_rfl
  | overdue h0 hstate hdelay => exact Nat.le_succ _
  | unleased hstate => exact Nat.le_succ _
  | retried hstate => exact le_rfl

/-- **An operation keeps `Ends` and goes `Forward`.** -/
theorem Ends.turn {closures : Closures κ} {s : CacheStateManager φ × Runtime κ} {asked : Asked φ}
    {r : Except Thrown (OpResult × Int) × (CacheStateManager φ × Runtime κ)}
    (h : Ends env s.2 s.1 handed) (hreach : asked.InReach env s)
    (ht : Turn env closures s asked r) :
    Ends env r.2.2 r.2.1 (handedBy handed r) ∧ Forward s.1 r.2.1 (handedBy handed r) := by
  cases ht with
  | started hstate hs' =>
      subst hs'
      obtain ⟨hends, hle⟩ := h.guarantee closures
      exact ⟨hends, Or.inr hle, fun _ hwaits => nomatch hwaits⟩
  | @renewed opId s' hstate hs' =>
      subst hs'
      have htold : Ends env s.2 (s.1.setOpId opId) handed := ⟨h.le, h.idle, h.handed_le⟩
      obtain ⟨hends, hle⟩ := Ends.guarantee closures (s := (s.1.setOpId opId, s.2)) htold
      exact ⟨hends, Or.inr hle, fun _ hwaits => nomatch hwaits⟩
  | waits h0 hstate hdelay hs' =>
      obtain ⟨hends, hle, hcovers⟩ := h.protect hstate (hreach hstate) hdelay hs'
      refine ⟨hends, Or.inr hle, fun _ _ expire hmem => ?_⟩
      rcases List.mem_append.mp hmem with hmem | hmem
      · exact hcovers expire hmem
      · exact (List.mem_singleton.mp hmem).le
  | refused hbad => exact ⟨h, Forward.refl s.1 handed⟩
  | @overdue opId f e h0 hstate hdelay =>
      refine ⟨(h.told opId (some f)).later (Nat.le_succ _), Or.inr le_rfl, fun _ hwaits => ?_⟩
      exact nomatch hstate.symm.trans hwaits
  | unleased hstate =>
      have hlater : Ends env s.2.readClock s.1 handed := h.later (Nat.le_succ _)
      refine ⟨⟨hlater.le, fun hidle => (nomatch hstate.symm.trans hidle), fun expire hmem => ?_⟩,
        Or.inr le_rfl, fun hne => absurd hstate hne⟩
      rcases List.mem_append.mp hmem with hmem | hmem
      · exact hlater.handed_le expire hmem
      · -- what was handed out is the reading just taken
        rw [List.mem_singleton.mp hmem]
        exact Or.inr ⟨hstate, env.mono (Nat.le_succ _)⟩
  | retried hstate =>
      refine ⟨⟨h.le, fun hidle => (nomatch hstate.symm.trans hidle), fun expire hmem => ?_⟩,
        Or.inr le_rfl, fun hne => absurd hstate hne⟩
      rcases List.mem_append.mp hmem with hmem | hmem
      · exact h.handed_le expire hmem
      · exact Or.inl (List.mem_singleton.mp hmem).le

/-! ## All managers -/

/-- Handlers and foreign callbacks do not turn the clock back. -/
structure ManagerHooks.Forward (hooks : ManagerHooks ι φ F τ) : Prop where
  invoke : ∀ f status opId expire q,
    q.rt.readings ≤ (hooks.invoke f status opId expire q).2.rt.readings
  foreign : ∀ f q, q.rt.readings ≤ (hooks.foreign f q).2.rt.readings

/-- Handlers that do nothing do not touch the managers. -/
theorem ManagerHooks.silent_forward : (ManagerHooks.silent : ManagerHooks ι φ F τ).Forward :=
  ⟨fun _ _ _ _ _ => le_rfl, fun _ _ => le_rfl⟩

/-- Every manager is as `Ends` has it. -/
def Managers.Timely (env : Env) (p : Managers ι φ F τ) : Prop :=
  ∀ i, Ends env p.rt (p.mem.managers i) (p.mem.handed i)

/-- No manager's time was turned back. -/
def Managers.Forward (p p' : Managers ι φ F τ) : Prop :=
  ∀ i, CacheSystem.Forward (p.mem.managers i) (p'.mem.managers i) (p'.mem.handed i)

/-- What a part of a `tick` does: a manager that it changes is Idle, or has a whole lease from
then on. -/
structure Ticked (env : Env) (p q : Managers ι φ F τ) : Prop where
  readings_le : p.rt.readings ≤ q.rt.readings
  managers : ∀ i, q.mem.managers i = p.mem.managers i ∨
    ((q.mem.managers i).currentState ≠ .kCacheUpdateProtected ∧
      ((q.mem.managers i).currentState = .kCacheIdle ∨
        p.rt.now env + 10000 ≤ (q.mem.managers i).expireTime))

variable {p q : Managers ι φ F τ} {hooks : ManagerHooks ι φ F τ}

/-- Nothing but the time changes. -/
theorem Ticked.of_same (hr : p.rt.readings ≤ q.rt.readings)
    (hm : q.mem.managers = p.mem.managers) : Ticked env p q :=
  ⟨hr, fun i => Or.inl (congrFun hm i)⟩

/-- Two parts of a `tick`, one after the other. -/
theorem Ticked.trans {q' : Managers ι φ F τ} (h : Ticked env p q) (h' : Ticked env q q') :
    Ticked env p q' where
  readings_le := h.readings_le.trans h'.readings_le
  managers i := by
    have hnow : p.rt.now env ≤ q.rt.now env := env.mono h.readings_le
    rcases h'.managers i with heq | ⟨hne, hidle | hle⟩
    · rw [heq]
      exact h.managers i
    · exact Or.inr ⟨hne, Or.inl hidle⟩
    · exact Or.inr ⟨hne, Or.inr ((Int.add_le_add_right hnow _).trans hle)⟩

/-- What a `tick` does to a manager that is as `Ends` has it does not turn its time back. -/
theorem Ticked.forward (h : Ticked env p q) (hp : p.Timely env) : p.Forward q := by
  intro i
  rcases h.managers i with heq | ⟨hne, hidle | hle⟩
  · rw [heq]
    exact Forward.refl _ _
  · exact ⟨Or.inl hidle, fun _ hwaits => absurd hwaits hne⟩
  · exact ⟨Or.inr ((hp i).le.trans hle), fun _ hwaits => absurd hwaits hne⟩

/-- Only the clock moves on. -/
theorem Managers.Timely.of_same (h : p.Timely env) (hr : p.rt.readings ≤ q.rt.readings)
    (hm : q.mem.managers = p.mem.managers) (hh : q.mem.handed = p.mem.handed) :
    q.Timely env := by
  intro i
  rw [hm, hh]
  exact (h i).later hr

section step

variable [DecidableEq ι]

/-- One manager and its history are assigned. -/
theorem Managers.Timely.assign (h : p.Timely env) (i : ι) {m' : CacheStateManager φ}
    {handed' : List Int} (hr : p.rt.readings ≤ q.rt.readings)
    (hm : q.mem.managers = Function.update p.mem.managers i m')
    (hh : q.mem.handed = Function.update p.mem.handed i handed')
    (hends : Ends env q.rt m' handed') : q.Timely env := by
  intro j
  rw [hm, hh]
  by_cases hj : j = i
  · subst hj
    rwa [Function.update_self, Function.update_self]
  · rw [Function.update_of_ne hj, Function.update_of_ne hj]
    exact (h j).later hr

/-- One manager is assigned: it is Idle, or has a whole lease from now on. -/
theorem Ticked.assign (i : ι) {m' : CacheStateManager φ} (hr : p.rt.readings ≤ q.rt.readings)
    (hm : q.mem.managers = Function.update p.mem.managers i m')
    (hne : m'.currentState ≠ .kCacheUpdateProtected)
    (hnew : m'.currentState = .kCacheIdle ∨ p.rt.now env + 10000 ≤ m'.expireTime) :
    Ticked env p q := by
  refine ⟨hr, fun j => ?_⟩
  rw [hm]
  by_cases hj : j = i
  · subst hj
    rw [Function.update_self]
    exact Or.inr ⟨hne, hnew⟩
  · exact Or.inl (Function.update_of_ne hj _ _)

/-- What an operation adds to the history. -/
theorem answer_handed (i : ι)
    (r : Except Thrown (OpResult × Int) × (CacheStateManager φ × Runtime (ManagerCall ι F))) :
    (p.answer i r).2.mem.handed =
      Function.update p.mem.handed i (handedBy (p.mem.handed i) r) := by
  obtain ⟨e | a, s⟩ := r
  · exact (Function.update_eq_self i _).symm
  · rfl

/-- **An operation keeps every manager as `Ends` has it**, and turns no time back. -/
theorem Managers.Timely.answer (h : p.Timely env) {i : ι} {asked : Asked φ}
    {r : Except Thrown (OpResult × Int) × (CacheStateManager φ × Runtime (ManagerCall ι F))}
    (ht : Turn env (managerOwners.closures i) (p.mem.managers i, p.rt) asked r)
    (hreach : asked.InReach env (p.mem.managers i, p.rt)) :
    (p.answer i r).2.Timely env ∧ p.Forward (p.answer i r).2 := by
  obtain ⟨hends, hforward⟩ := Ends.turn (s := (p.mem.managers i, p.rt)) (h i) hreach ht
  constructor
  · refine h.assign i ?_ (answer_managers p i r) (answer_handed i r) ?_
    · rw [answer_rt]
      exact ht.readings_le
    · rwa [answer_rt]
  · intro j
    rw [answer_managers, answer_handed]
    by_cases hj : j = i
    · subst hj
      rwa [Function.update_self, Function.update_self]
    · rw [Function.update_of_ne hj, Function.update_of_ne hj]
      exact Forward.refl _ _

/-- A history with less in it. -/
theorem Ends.of_append {expire : Int} (h : Ends env rt m (handed ++ [expire])) :
    Ends env rt m handed where
  le := h.le
  idle hidle := (List.append_eq_nil_iff.mp (h.idle hidle)).1
  handed_le e he := h.handed_le e (List.mem_append_left _ he)

/-- **A timer's callback keeps every manager as `Ends` has it.** -/
theorem Managers.Timely.callback (h : p.Timely env) (hclock : ∀ n, 0 ≤ env.reading n)
    (hf : hooks.Forward) (call : ManagerCall ι F) :
    (runManager env hooks call p).2.Timely env ∧ Ticked env p (runManager env hooks call p).2 := by
  cases call with
  | guaranteed i =>
      simp only [runManager, setCacheState_idle]
      constructor
      · refine h.assign i le_rfl rfl rfl ⟨?_, fun _ => rfl, fun _ hmem => nomatch hmem⟩
        have h0 := hclock p.rt.readings
        change (0 : Int) ≤ env.reading p.rt.readings + 10000
        omega
      · exact Ticked.assign i le_rfl rfl (fun h => nomatch h) (Or.inl rfl)
  | updateProtected i =>
      simp only [runManager, setCacheState_guaranteed]
      have hlt := guarantee_readings_lt env (managerOwners.closures i) (p.mem.managers i, p.rt)
      have hstate := guarantee_currentState env (managerOwners.closures i) (p.mem.managers i, p.rt)
      obtain ⟨hge, -⟩ := guarantee_times env (managerOwners.closures i) (p.mem.managers i, p.rt)
      obtain ⟨hends, -⟩ := Ends.guarantee (managerOwners.closures i)
        (s := (p.mem.managers i, p.rt)) (h i)
      generalize guarantee env (managerOwners.closures i) (p.mem.managers i, p.rt) = s at *
      have hne : s.1.currentState ≠ .kCacheUpdateProtected := fun h => nomatch hstate.symm.trans h
      split
      · refine ⟨h.assign i hlt.le rfl (Function.update_eq_self i _).symm hends.of_append, ?_⟩
        exact Ticked.assign i hlt.le rfl hne (Or.inr hge)
      · rename_i f hcall
        have hinvoke := hf.invoke f .kOperationOk s.1.opId s.1.expireTime
          (Managers.outer ((p.put i s).hand i s.1.expireTime))
        refine ⟨h.assign i (hlt.le.trans hinvoke) rfl rfl (hends.later hinvoke), ?_⟩
        exact Ticked.assign i (hlt.le.trans hinvoke) rfl hne (Or.inr hge)
  | foreign f =>
      have hr := hf.foreign f (Managers.outer p)
      exact ⟨h.of_same hr rfl rfl, Ticked.of_same hr rfl⟩

/-- **An iteration of `tick` keeps every manager as `Ends` has it.** -/
theorem Managers.Timely.tickIter (h : p.Timely env) (hclock : ∀ n, 0 ≤ env.reading n)
    (hf : hooks.Forward) {r : Iter (Managers ι φ F τ)}
    (hi : TickIter env (runManager env hooks) p r) :
    r.state.Timely env ∧ Ticked env p r.state := by
  have hread (rt : Runtime (ManagerCall ι F)) (hr : p.rt.readings ≤ rt.readings) :
      Managers.Timely env (⟨rt, p.mem⟩ : Managers ι φ F τ) ∧ Ticked env p ⟨rt, p.mem⟩ :=
    ⟨h.of_same hr rfl rfl, .of_same hr rfl⟩
  have hrun {t : EventTimer (ManagerCall ι F)} {e : Option Thrown} {p₁ : Managers ι φ F τ}
      (hrun : runManager env hooks t.callback { p with rt := p.rt.readClock.lock } = (e, p₁)) :
      p₁.Timely env ∧ Ticked env p p₁ := by
    obtain ⟨htimely, hticked⟩ := hread p.rt.readClock.lock (Nat.le_succ _)
    obtain ⟨htimely', hticked'⟩ := htimely.callback hclock hf t.callback
    rw [hrun] at htimely' hticked'
    exact ⟨htimely', hticked.trans hticked'⟩
  cases hi with
  | empty hq => exact ⟨h, .of_same le_rfl rfl⟩
  | notDue hq hdue => exact hread p.rt.readClock (Nat.le_succ _)
  | dead hq hdue h0 hperm => exact hread _ (Nat.le_succ _)
  | threw hq hdue h0 hcall =>
      obtain ⟨htimely, hticked⟩ := hrun hcall
      exact ⟨htimely.of_same le_rfl rfl rfl, hticked.trans (.of_same le_rfl rfl)⟩
  | @fired t rest p₁ hq hdue h0 hcall =>
      obtain ⟨htimely, hticked⟩ := hrun hcall
      have hr := settled_readings_le env p₁.rt
      exact ⟨htimely.of_same hr rfl rfl, hticked.trans (.of_same hr rfl)⟩

/-! ## Runs -/

/-- The update of a step is in reach of the narrowing. -/
def Managers.InReach (env : Env) (p : Managers ι φ F τ) : ManagerOp ι φ F → Prop
  | .read i opId => (Asked.read opId : Asked φ).InReach env (p.mem.managers i, p.rt)
  | .update i opId f => (Asked.update opId f).InReach env (p.mem.managers i, p.rt)
  | .addTimer .. => True
  | .tick _ => True

/-- The parts of a step from `p`: the whole of it, and the iterations of a `tick`. -/
inductive Managers.Part (env : Env) (hooks : ManagerHooks ι φ F τ) (p : Managers ι φ F τ) :
    ManagerOp ι φ F → Managers ι φ F τ → Managers ι φ F τ → Prop
  | whole {op : ManagerOp ι φ F} {p' : Managers ι φ F τ} (h : p.step env hooks op = some p') :
      Part env hooks p op p p'
  | iteration {fuel : Nat} {q : Managers ι φ F τ}
      (hq : Iterates env (runManager env hooks) p q) :
      Part env hooks p (.tick fuel) q (tickIter env (runManager env hooks) q).state

/-- **What a part of a step does.** -/
theorem Managers.Part.timely {op : ManagerOp ι φ F} {q' : Managers ι φ F τ}
    (h : p.Part env hooks op q q') (hp : p.Timely env) (hclock : ∀ n, 0 ≤ env.reading n)
    (hf : hooks.Forward) (hreach : p.InReach env op) : q'.Timely env ∧ q.Forward q' := by
  cases h with
  | whole h =>
      cases op with
      | read i opId =>
          cases h
          exact hp.answer (readOp_turn env _ opId _) hreach
      | update i opId f =>
          cases h
          exact hp.answer (updateOp_turn env _ opId f _) hreach
      | addTimer f timeoutMs repeat_ =>
          cases h
          have hr : p.rt.readings ≤
              (addTimer env (.foreign f) timeoutMs repeat_ p.rt).2.readings := by
            unfold addTimer
            split
            · exact le_rfl
            · exact Nat.le_succ _
          exact ⟨hp.of_same hr rfl rfl, fun i => Forward.refl _ _⟩
      | tick fuel =>
          obtain ⟨⟨e, p'⟩, hr, rfl⟩ := Option.map_eq_some_iff.mp h
          have hall := tickLoop_induct (fun q => Managers.Timely env q ∧ Ticked env p q)
            (fun q r ⟨hq, hticked⟩ hi => by
              obtain ⟨hq', hticked'⟩ := Managers.Timely.tickIter hq hclock hf hi
              exact ⟨hq', hticked.trans hticked'⟩)
            fuel p e p' ⟨hp, .of_same le_rfl rfl⟩ hr
          exact ⟨hall.1, hall.2.forward hp⟩
  | iteration hq =>
      have hqt : q.Timely env := hq.induct (P := Managers.Timely env)
        (fun _ _ hq hi => (Managers.Timely.tickIter hq hclock hf hi).1) hp
      obtain ⟨hq', hticked⟩ := hqt.tickIter hclock hf (tickIter_spec env _ q)
      exact ⟨hq', hticked.forward hqt⟩

/-- **In every run every manager is as `Ends` has it.** -/
theorem ManagersReachable.timely (hclock : ∀ n, 0 ≤ env.reading n) (hf : hooks.Forward)
    (h : ManagersReachable env hooks (Managers.InReach env) p) : p.Timely env := by
  induction h with
  | initial outer => exact fun _ => Ends.initial hclock _
  | step op _ hreach hstep ih =>
      exact (Managers.Part.timely (.whole hstep) ih hclock hf hreach).1

/-- No lease end is more than a whole lease ahead. -/
def Managers.Bounded (env : Env) (p : Managers ι φ F τ) : Prop :=
  ∀ i, (p.mem.managers i).expireTime ≤ p.rt.now env + kDefaultExpireMillisecond.toNat

omit [DecidableEq ι] in
/-- A lease end is at most a whole lease ahead. -/
theorem Managers.Timely.bounded (h : p.Timely env) : p.Bounded env := fun i => (h i).le

/-- An operation left the queue and the managers as they were. -/
def Managers.Undisturbed (p p' : Managers ι φ F τ) : Prop :=
  p'.rt.queue = p.rt.queue ∧ p'.mem.managers = p.mem.managers

/-- What is said about lease ends in a state `p`. -/
structure Managers.LeaseEnds (env : Env) (hooks : ManagerHooks ι φ F τ) (p : Managers ι φ F τ) :
    Prop where
  /-- No lease end is more than a whole lease ahead. -/
  bounded : p.Bounded env
  /-- No part of a step pulls a lease end in but by entering Idle, and a wait that starts covers all
  that was handed out since the manager was last Idle. -/
  forward : ∀ op q q', p.InReach env op → p.Part env hooks op q q' → q'.Bounded env ∧ q.Forward q'
  /-- The narrowing of `timer_delay` and its cast are exact. -/
  exact : ∀ i opId f, p.InReach env (.update i opId f) →
    (p.mem.managers i).currentState = .kCacheGuaranteed →
      timerDelay env (p.mem.managers i, p.rt) = (p.mem.managers i).expireTime - p.rt.now env ∧
      (0 < timerDelay env (p.mem.managers i, p.rt) →
        ((UInt32.ofNat (timerDelay env (p.mem.managers i, p.rt)).toNat).toNat : Int) =
          (p.mem.managers i).expireTime - p.rt.now env)
  /-- While an update waits no operation on its manager moves its completion. -/
  waits : ∀ i, (p.mem.managers i).currentState = .kCacheUpdateProtected → ∀ opId f,
    p.Undisturbed (p.readOp env i opId).2 ∧ p.Undisturbed (p.updateOp env i opId f).2

/-- While an update waits its manager is left alone. -/
theorem answer_undisturbed {i : ι} {asked : Asked φ}
    {r : Except Thrown (OpResult × Int) × (CacheStateManager φ × Runtime (ManagerCall ι F))}
    (hwaits : (p.mem.managers i).currentState = .kCacheUpdateProtected)
    (ht : Turn env (managerOwners.closures i) (p.mem.managers i, p.rt) asked r) :
    p.Undisturbed (p.answer i r).2 := by
  have hsame : r.2.1 = p.mem.managers i ∧ r.2.2.queue = p.rt.queue := by
    cases ht with
    | started hstate hs' => exact nomatch hwaits.symm.trans hstate
    | renewed hstate hs' => exact nomatch hwaits.symm.trans hstate
    | waits h0 hstate hdelay hs' => exact nomatch hwaits.symm.trans hstate
    | refused hbad => exact ⟨rfl, rfl⟩
    | overdue h0 hstate hdelay => exact nomatch hwaits.symm.trans hstate
    | unleased hstate => exact ⟨rfl, rfl⟩
    | retried hstate => exact ⟨rfl, rfl⟩
  unfold Managers.Undisturbed
  rw [answer_rt, answer_managers, hsame.1, Function.update_eq_self]
  exact ⟨hsame.2, rfl⟩

/-- **Lease ends are bounded and never pulled in**, in the runs of any number of managers whose
updates are in reach of the narrowing. -/
theorem leaseEnds (hclock : ∀ n, 0 ≤ env.reading n) (hf : hooks.Forward) :
    ∀ p, ManagersReachable env hooks (Managers.InReach env) p → p.LeaseEnds env hooks := by
  intro p hreachable
  have hp := hreachable.timely hclock hf
  exact
    { bounded := hp.bounded
      forward := by
        intro op q q' hreach hpart
        obtain ⟨hq', hforward⟩ := hpart.timely hp hclock hf hreach
        exact ⟨hq'.bounded, hforward⟩
      exact := by
        intro i opId f hreach hstate
        exact Ends.timerDelay_exact (s := (p.mem.managers i, p.rt)) (hp i) (hreach hstate)
      waits := fun i hwaits opId f =>
        ⟨answer_undisturbed hwaits (readOp_turn env _ opId _),
          answer_undisturbed hwaits (updateOp_turn env _ opId f _)⟩ }

/-- An update that waits behind a read, and is completed late, as a case of `leaseEnds`. -/
theorem leaseEnds_late : ∃ p : Managers Unit Unit Empty Unit,
    (Managers.initial () : Managers Unit Unit Empty Unit).run (jumpClock 6 20000)
      ManagerHooks.silent [.read () 1, .update () 2 (some ()), .tick 3] = some p ∧
    (p.mem.managers ()).expireTime = 30000 ∧ p.mem.handed () = [10000, 10000, 30000] ∧
    p.LeaseEnds (jumpClock 6 20000) ManagerHooks.silent := by
  obtain ⟨p, htick, hrun, hexpire, hhanded⟩ : ∃ p : Managers Unit Unit Empty Unit,
      (((Managers.initial ()).readOp (jumpClock 6 20000) () 1).2.updateOp (jumpClock 6 20000) () 2
        (some ())).2.step (jumpClock 6 20000) ManagerHooks.silent (.tick 3) = some p ∧
      (Managers.initial () : Managers Unit Unit Empty Unit).run (jumpClock 6 20000)
        ManagerHooks.silent [.read () 1, .update () 2 (some ()), .tick 3] = some p ∧
      (p.mem.managers ()).expireTime = 30000 ∧ p.mem.handed () = [10000, 10000, 30000] :=
    ⟨_, rfl, rfl, by decide, by decide⟩
  refine ⟨p, hrun, hexpire, hhanded, leaseEnds ?_ ManagerHooks.silent_forward p ?_⟩
  · intro n
    change (0 : Int) ≤ if n < 6 then 0 else 20000
    split <;> decide
  · refine .step (.tick 3) (.step (.update () 2 (some ())) (.step (.read () 1) (.initial ()) ?_ rfl)
      ?_ rfl) ?_ htick
    · trivial
    · exact fun _ => by decide
    · trivial

end step

end CacheSystem

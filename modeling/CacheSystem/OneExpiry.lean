import CacheSystem.Managers

/-!
# Every manager has its expiry, and one at most

Runs of any number of managers that share a timer queue with timers of other owners.

* `Executes` : the code that a step runs, the callbacks of a `tick` one by one. `StopCall` lists the
  calls of `stop_expire` in it, and `Code.run_stops` says that the queue changes by these and by
  timers that are added.
* `neverStranded` : in every run a manager that is not Idle has its expiry in the queue,
  `stop_expire` cancels that one, and no code changes another timer.
* `Managers.Prompt` : no operation finds its manager past its `expire_time_`. There `stop_expire`
  leaves the old timer in the queue, live, beside the new one.
* `oneExpiry_of_prompt`, `not_oneExpiry` : a manager has one live timer at most in the runs that are
  prompt, and two in another one.
-/

namespace CacheSystem

open Owners

variable {ι φ F τ : Type} [DecidableEq ι]

/-! ## The managers and the queue -/

/-- Update handlers and foreign callbacks that at most add timers of their own. -/
structure ManagerHooks.Benign (env : Env) (hooks : ManagerHooks ι φ F τ) : Prop where
  invoke : ∀ f status opId expire q,
    managerOwners.AddsOthers env q.rt (hooks.invoke f status opId expire q).2.rt
  foreign : ∀ f q, managerOwners.AddsOthers env q.rt (hooks.foreign f q).2.rt

omit [DecidableEq ι] in
/-- A benign handler adds timers of no manager. -/
theorem ManagerHooks.Benign.invokes {env : Env} {hooks : ManagerHooks ι φ F τ}
    (hb : hooks.Benign env) {f : φ} {status : OpResult} {opId : UInt32} {expire : Int}
    {q : Proc (ManagerCall ι F) τ} {rt : Runtime (ManagerCall ι F)} (hq : q.rt = rt) :
    managerOwners.AddsOthers env rt (hooks.invoke f status opId expire q).2.rt := by
  rw [← hq]
  exact hb.invoke f status opId expire q

/-- No update handler throws. -/
def ManagerHooks.Quiet (hooks : ManagerHooks ι φ F τ) : Prop :=
  ∀ f status opId expire q, (hooks.invoke f status opId expire q).1 = none

omit [DecidableEq ι] in
/-- Handlers that do nothing are benign. -/
theorem ManagerHooks.silent_benign (env : Env) :
    (ManagerHooks.silent : ManagerHooks ι φ F τ).Benign env :=
  ⟨fun _ _ _ _ _ => .refl, fun _ _ => .refl⟩

omit [DecidableEq ι] in
/-- Handlers that do nothing do not throw. -/
theorem ManagerHooks.silent_quiet : (ManagerHooks.silent : ManagerHooks ι φ F τ).Quiet :=
  fun _ _ _ _ _ => rfl

variable {env : Env} {hooks : ManagerHooks ι φ F τ} {p p' : Managers ι φ F τ}

/-- The callbacks do no more than `Owners.Callback` says. -/
theorem runManager_runs (hb : hooks.Benign env) :
    managerOwners.Runs env (runManager env hooks) (ManagersMem.states (φ := φ) (τ := τ)) := by
  intro call p
  cases call with
  | guaranteed i =>
      simp only [runManager, setCacheState_idle, forget_rt, putManager_rt, forget_states,
        put_states]
      exact .idled (i := i) rfl rfl
  | updateProtected i =>
      simp only [runManager, setCacheState_guaranteed, guarantee_callHandle]
      rcases (p.mem.managers i).callHandle with _ | f
      · simp only [putManager_rt, put_states]
        exact .renewed (i := i) rfl rfl .refl
      · simp only [managersWithOuter_rt, managersWithOuter_states, hand_states, put_states]
        exact .renewed (i := i) rfl rfl (hb.invokes rfl)
  | foreign f => exact .other rfl (hb.foreign f (Managers.outer p))

/-- **An operation keeps `Armed`.** -/
theorem Owners.Armed.turn {κ : Type} {o : Owners ι κ} {s : CacheStateManager φ × Runtime κ}
    {r : Except Thrown (OpResult × Int) × (CacheStateManager φ × Runtime κ)}
    {ms : ι → Option (CacheStateManager φ)} {i : ι} (ha : o.Armed s.2.queue ms)
    (hm : o.Fits s.2.queue i s.1) {asked : Asked φ} (h : Turn env (o.closures i) s asked r) :
    o.Armed r.2.2.queue (Function.update ms i (some r.2.1)) := by
  cases h with
  | started hstate hs' =>
      subst hs'
      exact ha.guarantee hm
  | @renewed opId s' hstate hs' =>
      subst hs'
      exact ha.guarantee (hm.sameExpiry (.setOpId s.1 opId))
  | @waits opId f s' h0 hstate hdelay hs' =>
      subst hs'
      have ha' : o.Armed s.2.readClock.queue ms := ha
      exact ha'.protect (hm.sameExpiry (.setCallHandle s.1 opId (some f))) _
  | refused hbad => exact ha.update hm
  | @overdue opId f e h0 hstate hdelay =>
      exact ha.update (hm.sameExpiry (.setCallHandle s.1 opId (some f)))
  | unleased hstate => exact ha.update hm
  | retried hstate => exact ha.update hm

/-- What an operation leaves. -/
theorem answer_parts {i : ι}
    (r : Except Thrown (OpResult × Int) × (CacheStateManager φ × Runtime (ManagerCall ι F))) :
    (p.answer i r).2.rt = r.2.2 ∧
      (p.answer i r).2.mem.states = Function.update p.mem.states i (some r.2.1) := by
  refine ⟨answer_rt p i r, ?_⟩
  obtain ⟨e | a, s⟩ := r <;> exact put_states p i s

/-- A call of one manager leaves timers and managers in order. -/
theorem Armed.answer {i : ι}
    {r : Except Thrown (OpResult × Int) × (CacheStateManager φ × Runtime (ManagerCall ι F))}
    {asked : Asked φ} (ha : managerOwners.Armed p.rt.queue p.mem.states)
    (h : Turn env (managerOwners.closures i) (p.mem.managers i, p.rt) asked r) :
    managerOwners.Armed (p.answer i r).2.rt.queue (p.answer i r).2.mem.states := by
  obtain ⟨hrt, hstates⟩ := answer_parts (p := p) (i := i) r
  rw [hrt, hstates]
  exact Armed.turn (s := (p.mem.managers i, p.rt)) ha (ha.managers i _ rfl) h

omit [DecidableEq ι] in
/-- A timer that another owner adds is somebody else's. -/
theorem addTimer_adds (env : Env) (f : F) (timeoutMs repeat_ : UInt32) (rt : Runtime (ManagerCall ι F)) :
    managerOwners.AddsOthers env rt (addTimer env (.foreign f) timeoutMs repeat_ rt).2 := by
  unfold addTimer
  split
  · exact .refl
  · exact .add _ rfl timeoutMs repeat_ .refl

/-- **A step leaves timers and managers in order.** -/
theorem Armed.managersStep (ha : managerOwners.Armed p.rt.queue p.mem.states)
    (hb : hooks.Benign env) {op : ManagerOp ι φ F} (h : p.step env hooks op = some p') :
    managerOwners.Armed p'.rt.queue p'.mem.states := by
  cases op with
  | read i opId =>
      cases h
      exact Armed.answer ha (readOp_turn env _ opId _)
  | update i opId f =>
      cases h
      exact Armed.answer ha (updateOp_turn env _ opId f _)
  | addTimer f timeoutMs repeat_ =>
      cases h
      exact ha.addsOthers (addTimer_adds env f timeoutMs repeat_ p.rt)
  | tick fuel =>
      obtain ⟨r, hr, rfl⟩ := Option.map_eq_some_iff.mp h
      exact tickLoop_induct (fun p => managerOwners.Armed p.rt.queue p.mem.states)
        (fun _ _ ha hi => ha.tickIter (runManager_runs hb) hi) fuel p r.1 r.2 ha hr

omit [DecidableEq ι] in
/-- Fresh managers are `Armed`. -/
theorem Armed.initial (outer : τ) :
    managerOwners.Armed (Managers.initial outer : Managers ι φ F τ).rt.queue
      (Managers.initial outer : Managers ι φ F τ).mem.states where
  nodup := List.nodup_nil
  ne_zero t ht := by cases ht
  owned t ht := by cases ht
  managers i m hm := by
    cases hm
    exact Or.inl ⟨rfl, rfl, rfl⟩

variable {ok : Managers ι φ F τ → ManagerOp ι φ F → Prop}

/-- In every run timers and managers are in order. -/
theorem ManagersReachable.armed (hb : hooks.Benign env) (h : ManagersReachable env hooks ok p) :
    managerOwners.Armed p.rt.queue p.mem.states := by
  induction h with
  | initial outer => exact Armed.initial outer
  | step op _ _ hstep ih => exact Armed.managersStep ih hb hstep

/-! ## What a step runs -/

/-- The code that a step runs: an operation, or the callback of a timer. -/
inductive Code (ι φ F : Type)
  | readOp (i : ι) (opId : UInt32)
  | updateOp (i : ι) (opId : UInt32) (f : Option φ)
  | addTimer (f : F) (timeoutMs repeat_ : UInt32)
  | callback (call : ManagerCall ι F)

/-- What the code leaves. -/
def Code.run (env : Env) (hooks : ManagerHooks ι φ F τ) (code : Code ι φ F)
    (q : Managers ι φ F τ) : Managers ι φ F τ :=
  match code with
  | .readOp i opId => (q.readOp env i opId).2
  | .updateOp i opId f => (q.updateOp env i opId f).2
  | .addTimer f timeoutMs repeat_ =>
      ⟨(CacheSystem.addTimer env (.foreign f) timeoutMs repeat_ q.rt).2, q.mem⟩
  | .callback call => (runManager env hooks call q).2

/-- A step from `p` runs `code` in the state `q`. A `tick` runs the callback of every live timer
that comes to slot 0 and is due, with `mutex_` held; the end of the iteration, where `tick` counts
the firing and removes or re-arms slot 0, is not among the code. -/
inductive Executes (env : Env) (hooks : ManagerHooks ι φ F τ) (p : Managers ι φ F τ) :
    ManagerOp ι φ F → Code ι φ F → Managers ι φ F τ → Prop
  | read {i : ι} {opId : UInt32} : Executes env hooks p (.read i opId) (.readOp i opId) p
  | update {i : ι} {opId : UInt32} {f : Option φ} :
      Executes env hooks p (.update i opId f) (.updateOp i opId f) p
  | addTimer {f : F} {timeoutMs repeat_ : UInt32} :
      Executes env hooks p (.addTimer f timeoutMs repeat_) (.addTimer f timeoutMs repeat_) p
  | tick {fuel : Nat} {q : Managers ι φ F τ} {t : EventTimer (ManagerCall ι F)}
      {rest : List (EventTimer (ManagerCall ι F))}
      (hq : Iterates env (runManager env hooks) p q) (hfront : q.rt.queue = t :: rest)
      (hdue : t.expireTime ≤ q.rt.now env) (hlive : t.repeat_ ≠ 0) :
      Executes env hooks p (.tick fuel) (.callback t.callback)
        { q with rt := q.rt.readClock.lock }

variable {code : Code ι φ F} {q : Managers ι φ F τ}

/-- Every piece of code in a run finds the queue as the managers left it. -/
theorem Executes.armed (hb : hooks.Benign env) (ha : managerOwners.Armed p.rt.queue p.mem.states)
    {op : ManagerOp ι φ F} (h : Executes env hooks p op code q) :
    managerOwners.Armed q.rt.queue q.mem.states := by
  cases h with
  | read => exact ha
  | update => exact ha
  | addTimer => exact ha
  | @tick fuel q t rest hq hfront hdue hlive =>
      exact hq.induct (P := fun p => managerOwners.Armed p.rt.queue p.mem.states)
        (fun _ _ ha hi => ha.tickIter (runManager_runs hb) hi) ha

/-! ## What `stop_expire` cancels -/

/-- The calls of `stop_expire` in the code that runs in `q`: whose it is, and the manager and the
queue it finds. -/
inductive StopCall (env : Env) (q : Managers ι φ F τ) :
    Code ι φ F → ι → CacheStateManager φ × Runtime (ManagerCall ι F) → Prop
  /-- A `read_op` in the Guaranteed state. -/
  | read {i : ι} {opId : UInt32}
      (hstate : (q.mem.managers i).currentState = .kCacheGuaranteed) :
      StopCall env q (.readOp i opId) i ((q.mem.managers i).setOpId opId, q.rt)
  /-- A `read_op` in the Idle state. -/
  | readIdle {i : ι} {opId : UInt32} (hstate : (q.mem.managers i).currentState = .kCacheIdle) :
      StopCall env q (.readOp i opId) i (q.mem.managers i, q.rt)
  /-- An `update_op` in the Idle state. -/
  | updateIdle {i : ι} {opId : UInt32} {f : Option φ}
      (hstate : (q.mem.managers i).currentState = .kCacheIdle) :
      StopCall env q (.updateOp i opId f) i (q.mem.managers i, q.rt)
  /-- An `update_op` that is deferred. -/
  | update {i : ι} {opId : UInt32} {f : φ}
      (hstate : (q.mem.managers i).currentState = .kCacheGuaranteed) (h0 : opId ≠ 0)
      (hdelay : 0 < timerDelay env (q.mem.managers i, q.rt)) :
      StopCall env q (.updateOp i opId (some f)) i
        (((q.mem.managers i).setOpId opId).setCallHandle (some f), q.rt.readClock)
  /-- The callback of an UpdateProtected timer. -/
  | completion {i : ι} :
      StopCall env q (.callback (.updateProtected i)) i (q.mem.managers i, q.rt)

section stopCall

variable {i i' : ι} {s s' : CacheStateManager φ × Runtime (ManagerCall ι F)}

omit [DecidableEq ι] in
/-- `stop_expire` is called with the manager's own id and expire time, and the queue as the code
found it. -/
theorem StopCall.sameExpiry (h : StopCall env q code i s) :
    SameExpiry (q.mem.managers i) s.1 ∧ s.2.queue = q.rt.queue := by
  cases h with
  | read hstate => exact ⟨.setOpId _ _, rfl⟩
  | readIdle hstate => exact ⟨.refl _, rfl⟩
  | updateIdle hstate => exact ⟨.refl _, rfl⟩
  | update hstate h0 hdelay => exact ⟨.setCallHandle _ _ _, rfl⟩
  | completion => exact ⟨.refl _, rfl⟩

omit [DecidableEq ι] in
/-- A piece of code calls `stop_expire` once at most. -/
theorem StopCall.unique (h : StopCall env q code i s) (h' : StopCall env q code i' s') :
    i' = i ∧ s' = s := by
  cases h with
  | read hstate =>
      cases h' with
      | read => exact ⟨rfl, rfl⟩
      | readIdle hstate' => exact nomatch hstate.symm.trans hstate'
  | readIdle hstate =>
      cases h' with
      | read hstate' => exact nomatch hstate.symm.trans hstate'
      | readIdle => exact ⟨rfl, rfl⟩
  | updateIdle hstate =>
      cases h' with
      | updateIdle => exact ⟨rfl, rfl⟩
      | update hstate' => exact nomatch hstate.symm.trans hstate'
  | update hstate h0 hdelay =>
      cases h' with
      | updateIdle hstate' => exact nomatch hstate.symm.trans hstate'
      | update => exact ⟨rfl, rfl⟩
  | completion =>
      cases h'
      exact ⟨rfl, rfl⟩

end stopCall

/-- All that a piece of code can do to the queue. -/
inductive Stops (env : Env) (q : Managers ι φ F τ) (code : Code ι φ F) :
    Runtime (ManagerCall ι F) → Prop
  /-- It calls `start_expire`, which calls `stop_expire` first. A handler may run after it. -/
  | rearms {i : ι} {s : CacheStateManager φ × Runtime (ManagerCall ι F)}
      {callBack : ManagerCall ι F} {timeoutMs : UInt32} {rt : Runtime (ManagerCall ι F)}
      (hstop : StopCall env q code i s)
      (hadd : managerOwners.AddsOthers env (startExpire env callBack timeoutMs s).2 rt) :
      Stops env q code rt
  /-- It does not call `stop_expire`. -/
  | keeps {rt : Runtime (ManagerCall ι F)} (hstop : ∀ i s, ¬ StopCall env q code i s)
      (hadd : managerOwners.AddsOthers env q.rt rt) : Stops env q code rt

/-- The operation that asks this of a manager. -/
def Asked.operation (i : ι) : Asked φ → Code ι φ F
  | .read opId => .readOp i opId
  | .update opId f => .updateOp i opId f

omit [DecidableEq ι] in
/-- An operation re-arms when it starts a lease or a wait, and leaves the queue alone otherwise. -/
theorem Turn.stops {i : ι} {asked : Asked φ}
    {r : Except Thrown (OpResult × Int) × (CacheStateManager φ × Runtime (ManagerCall ι F))}
    (h : Turn env (managerOwners.closures i) (q.mem.managers i, q.rt) asked r) :
    Stops env q (asked.operation i) r.2.2 := by
  cases h with
  | started hstate hs' =>
      subst hs'
      cases asked with
      | read opId => exact .rearms (.readIdle hstate) .refl
      | update opId f => exact .rearms (.updateIdle hstate) .refl
  | renewed hstate hs' =>
      subst hs'
      exact .rearms (.read hstate) .refl
  | waits h0 hstate hdelay hs' =>
      subst hs'
      exact .rearms (.update hstate h0 hdelay) .refl
  | refused hbad hstate =>
      refine .keeps (fun i' s hstop => ?_) .refl
      cases hstop with
      | updateIdle hstate' => exact hstate hstate'
      | update hstate' h0 hdelay => exact hbad.elim h0 nofun
  | overdue h0 hstate hdelay =>
      refine .keeps (fun i' s hstop => ?_) (.read .refl)
      cases hstop with
      | updateIdle hstate' => exact nomatch hstate.symm.trans hstate'
      | update hstate' h0' hdelay' => exact absurd hdelay' (not_lt.mpr hdelay)
  | unleased hstate =>
      refine .keeps (fun i' s hstop => ?_) (.read .refl)
      cases hstop with
      | read hstate' => exact nomatch hstate.symm.trans hstate'
      | readIdle hstate' => exact nomatch hstate.symm.trans hstate'
  | retried hstate =>
      refine .keeps (fun i' s hstop => ?_) .refl
      cases hstop with
      | updateIdle hstate' => exact nomatch hstate.symm.trans hstate'
      | update hstate' => exact nomatch hstate.symm.trans hstate'

/-- **`StopCall` has every call of `stop_expire`**: beside these the code only adds timers. -/
theorem Code.run_stops (hb : hooks.Benign env) (code : Code ι φ F) (q : Managers ι φ F τ) :
    Stops env q code (code.run env hooks q).rt := by
  cases code with
  | readOp i opId =>
      simp only [Code.run, Managers.readOp, answer_rt]
      exact (readOp_turn env (managerOwners.closures i) opId (q.mem.managers i, q.rt)).stops
  | updateOp i opId f =>
      simp only [Code.run, Managers.updateOp, answer_rt]
      exact (updateOp_turn env (managerOwners.closures i) opId f (q.mem.managers i, q.rt)).stops
  | addTimer f timeoutMs repeat_ =>
      exact .keeps (fun i s hstop => nomatch hstop) (addTimer_adds env f timeoutMs repeat_ q.rt)
  | callback call =>
      cases call with
      | guaranteed i =>
          refine .keeps (fun i' s hstop => nomatch hstop) ?_
          simp only [Code.run, runManager, setCacheState_idle, forget_rt, putManager_rt]
          exact .refl
      | updateProtected i =>
          have hadd : managerOwners.AddsOthers env
              (startExpire env (.guaranteed i) kDefaultExpireMillisecond (q.mem.managers i, q.rt)).2
              (runManager env hooks (.updateProtected i) q).2.rt := by
            simp only [runManager, setCacheState_guaranteed, guarantee_callHandle]
            rcases (q.mem.managers i).callHandle with _ | f
            · exact .refl
            · exact hb.invokes rfl
          exact .rearms .completion hadd
      | foreign f => exact .keeps (fun i s hstop => nomatch hstop) (hb.foreign f q.outer)

/-- `stop_expire` issues a `del_timer` that changes `repeat_` of the timer `t`, which this manager
created and holds the id of, and of no other one. -/
structure Cancels (env : Env) (i : ι) (s : CacheStateManager φ × Runtime (ManagerCall ι F))
    (t : EventTimer (ManagerCall ι F)) : Prop where
  mem : t ∈ s.2.queue
  owner : t.callback.owner = some i
  timerId : t.timerId = s.1.timerId
  live : t.repeat_ ≠ 0
  queue : (stopExpire env s).2.queue = s.2.queue.map (EventTimer.cancel s.1.timerId)
  exact : ∀ t' ∈ s.2.queue, (t'.cancel s.1.timerId).repeat_ ≠ t'.repeat_ ↔ t' = t

omit [DecidableEq ι] in
/-- A manager that fits the queue cancels its own timer. -/
theorem Cancels.of_fits {i : ι} {s : CacheStateManager φ × Runtime (ManagerCall ι F)}
    {ms : ι → Option (CacheStateManager φ)} (ha : managerOwners.Armed s.2.queue ms)
    (hm : managerOwners.Fits s.2.queue i s.1) (hid : s.1.timerId ≠ 0)
    (hlt : s.2.now env < s.1.expireTime) : ∃ t, Cancels env i s t := by
  rcases hm with ⟨-, h0, -⟩ | ⟨t, ht, hexpiry⟩
  · exact absurd h0 hid
  · have hlive : t.repeat_ ≠ 0 := by
      rw [hexpiry.repeat_]
      decide
    refine ⟨t, ht, hexpiry.owner, hexpiry.timerId.symm, hlive, ?_,
      fun t' ht' => ⟨fun hne => ?_, ?_⟩⟩
    · unfold stopExpire
      rw [if_pos hid, if_pos hlt]
      rfl
    · by_contra hne'
      apply hne
      rw [cancel_of_ne fun hid' => hne' (ha.eq_of_timerId ht' ht (hid'.trans hexpiry.timerId))]
    · rintro rfl
      unfold EventTimer.cancel
      rw [if_pos hexpiry.timerId.symm]
      exact hlive.symm

section rearmed

variable {callBack : ManagerCall ι F} {timeoutMs : UInt32}
  {s s' : CacheStateManager φ × Runtime (ManagerCall ι F)} {timer t : EventTimer (ManagerCall ι F)}
  {base : List (EventTimer (ManagerCall ι F))}

omit [DecidableEq ι] in
/-- `start_expire` leaves a timer as it was, unless its id is cancelled. -/
theorem Rearmed.keeps_or_cancels (h : Rearmed env callBack timeoutMs s s' timer base)
    (ht : t ∈ s.2.queue) : t ∈ s'.2.queue ∨
      (s.1.timerId ≠ 0 ∧ s.2.now env < s.1.expireTime ∧ t.timerId = s.1.timerId) := by
  rcases h.base with ⟨hid, hlt, rfl⟩ | ⟨-, rfl⟩
  · by_cases heq : t.timerId = s.1.timerId
    · exact Or.inr ⟨hid, hlt, heq⟩
    · refine Or.inl (h.queue.symm.subset (List.mem_cons_of_mem _ ?_))
      exact List.mem_map.mpr ⟨t, ht, cancel_of_ne heq⟩
  · exact Or.inl (h.queue.symm.subset (List.mem_cons_of_mem _ ht))

omit [DecidableEq ι] in
/-- What `stop_expire` cancels is in the queue after `start_expire`. -/
theorem Rearmed.cancelled (h : Rearmed env callBack timeoutMs s s' timer base)
    (hid : s.1.timerId ≠ 0) (hlt : s.2.now env < s.1.expireTime) (ht : t ∈ s.2.queue) :
    t.cancel s.1.timerId ∈ s'.2.queue := by
  rcases h.base with ⟨-, -, rfl⟩ | ⟨h0 | hle, -⟩
  · exact h.queue.symm.subset (List.mem_cons_of_mem _ (List.mem_map_of_mem ht))
  · exact absurd h0 hid
  · exact absurd hlt (not_lt.mpr hle)

end rearmed

omit [DecidableEq ι] in
/-- At every call of `stop_expire` the manager fits the queue. -/
theorem StopCall.fits (ha : managerOwners.Armed q.rt.queue q.mem.states) {i : ι}
    {s : CacheStateManager φ × Runtime (ManagerCall ι F)} (h : StopCall env q code i s) :
    managerOwners.Armed s.2.queue q.mem.states ∧ managerOwners.Fits s.2.queue i s.1 := by
  obtain ⟨hsame, hqueue⟩ := h.sameExpiry
  rw [hqueue]
  exact ⟨ha, (ha.managers i _ rfl).sameExpiry hsame⟩

/-- The code changes no timer that it finds, but for that of its manager: every `del_timer` of a
`stop_expire` sets `repeat_` of this one to 0, and every other timer stays as it is. -/
structure CancelsOwn (env : Env) (hooks : ManagerHooks ι φ F τ) (code : Code ι φ F)
    (q : Managers ι φ F τ) : Prop where
  cancels : ∀ i s, StopCall env q code i s → s.1.timerId ≠ 0 → s.2.now env < s.1.expireTime →
    ∃ t, Cancels env i s t ∧ { t with repeat_ := 0 } ∈ (code.run env hooks q).rt.queue
  others : ∀ t ∈ q.rt.queue, t ∉ (code.run env hooks q).rt.queue →
    ∃ i s, StopCall env q code i s ∧ s.1.timerId ≠ 0 ∧ s.2.now env < s.1.expireTime ∧
      Cancels env i s t

/-- **Where timers and managers are in order**, every piece of code cancels its own. -/
theorem CancelsOwn.of_armed (hb : hooks.Benign env)
    (ha : managerOwners.Armed q.rt.queue q.mem.states) : CancelsOwn env hooks code q where
  cancels i s hstop hid hlt := by
    obtain ⟨harmed, hfits⟩ := hstop.fits ha
    obtain ⟨t, ht⟩ := Cancels.of_fits harmed hfits hid hlt
    refine ⟨t, ht, ?_⟩
    cases Code.run_stops hb code q with
    | keeps hnone hadd => exact absurd hstop (hnone i s)
    | @rearms i' s' callBack timeoutMs rt hstop' hadd =>
        obtain ⟨rfl, rfl⟩ := hstop.unique hstop'
        obtain ⟨timer, base, hrearmed⟩ := startExpire_spec env callBack timeoutMs s'
        have hmem := hadd.mem (hrearmed.cancelled hid hlt ht.mem)
        rwa [EventTimer.cancel, if_pos ht.timerId] at hmem
  others t ht hgone := by
    cases Code.run_stops hb code q with
    | keeps hnone hadd => exact absurd (hadd.mem ht) hgone
    | @rearms i s callBack timeoutMs rt hstop hadd =>
        obtain ⟨timer, base, hrearmed⟩ := startExpire_spec env callBack timeoutMs s
        have ht' : t ∈ s.2.queue := hstop.sameExpiry.2 ▸ ht
        rcases hrearmed.keeps_or_cancels ht' with hkept | ⟨hid, hlt, hown⟩
        · exact absurd (hadd.mem hkept) hgone
        · -- the id is that of the manager's own timer, and ids are distinct
          obtain ⟨harmed, hfits⟩ := hstop.fits ha
          obtain ⟨t', hcancels⟩ := Cancels.of_fits harmed hfits hid hlt
          obtain rfl := harmed.eq_of_timerId ht' hcancels.mem (hown.trans hcancels.timerId.symm)
          exact ⟨i, s, hstop, hid, hlt, hcancels⟩

/-- After every step each manager that is not Idle has in the queue a live timer that it created and
holds the id of. In whatever a step runs, every `del_timer` of a `stop_expire` cancels that timer of
its manager, and no other timer changes. -/
def NeverStranded (env : Env) (hooks : ManagerHooks ι φ F τ) : Prop :=
  ∀ p, ManagersReachable env hooks (fun _ _ => True) p →
    (∀ i, (p.mem.managers i).currentState ≠ .kCacheIdle → ∃ t ∈ p.rt.queue, t.repeat_ ≠ 0 ∧
      t.callback.owner = some i ∧ t.timerId = (p.mem.managers i).timerId) ∧
    ∀ op code q, Executes env hooks p op code q → CancelsOwn env hooks code q

/-- **No manager is stranded, and each cancels only its own timer**, in every run of any number of
managers with handlers and foreign callbacks that at most add timers of their own. -/
theorem neverStranded (hb : hooks.Benign env) : NeverStranded env hooks := by
  intro p hreach
  have ha := hreach.armed hb
  refine ⟨fun i hidle => ?_, fun op code q hexec => .of_armed hb (hexec.armed hb ha)⟩
  rcases ha.managers i _ rfl with ⟨h, -, -⟩ | ⟨t, ht, hexpiry⟩
  · exact absurd h hidle
  · refine ⟨t, ht, ?_, hexpiry.owner, hexpiry.timerId.symm⟩
    rw [hexpiry.repeat_]
    decide

/-- Two managers and a foreign timer, as a case of `neverStranded`: the first manager was read, the
second waits with an update, and the next read cancels the first one's timer. -/
theorem neverStranded_two : ∃ p : Managers Nat Unit Unit Unit,
    (Managers.initial () : Managers Nat Unit Unit Unit).run stillClock ManagerHooks.silent
      [.read 0 1, .addTimer () 50 3, .update 1 2 none, .update 1 3 (some ())] = some p ∧
    (∃ t ∈ p.rt.queue, t.repeat_ ≠ 0 ∧ t.callback.owner = some 1 ∧
      t.timerId = (p.mem.managers 1).timerId) ∧
    ∃ t, Cancels stillClock 0 ((p.mem.managers 0).setOpId 4, p.rt) t ∧
      { t with repeat_ := 0 } ∈ (p.readOp stillClock 0 4).2.rt.queue := by
  obtain ⟨p, hrun, h0, h1, hid, hlt⟩ : ∃ p : Managers Nat Unit Unit Unit,
      (Managers.initial () : Managers Nat Unit Unit Unit).run stillClock ManagerHooks.silent
        [.read 0 1, .addTimer () 50 3, .update 1 2 none, .update 1 3 (some ())] = some p ∧
      (p.mem.managers 0).currentState = .kCacheGuaranteed ∧
      (p.mem.managers 1).currentState = .kCacheUpdateProtected ∧
      (p.mem.managers 0).timerId ≠ 0 ∧ p.rt.now stillClock < (p.mem.managers 0).expireTime :=
    ⟨_, rfl, by decide⟩
  have hreach := ManagersReachable.run (fun _ _ => trivial) (ManagersReachable.initial ()) hrun
  obtain ⟨hanchored, hcancels⟩ := neverStranded (ManagerHooks.silent_benign stillClock) p hreach
  exact ⟨p, hrun, hanchored 1 (by simp [h1]),
    (hcancels (.read 0 4) (.readOp 0 4) p .read).cancels 0 _ (.read h0) hid hlt⟩

/-! ## One expiry at a time -/

/-- The operation does not find the manager past its `expire_time_`: when `stop_expire` looks at a
lease that still has its timer, the lease still runs. -/
def Asked.Prompt {κ : Type} (env : Env) (s : CacheStateManager φ × Runtime κ) : Asked φ → Prop
  | .read _ => s.1.currentState = .kCacheGuaranteed → s.2.now env < s.1.expireTime
  | .update opId f => s.1.currentState = .kCacheGuaranteed → opId ≠ 0 → f ≠ none →
      0 < timerDelay env s → env.reading (s.2.readings + 1) < s.1.expireTime

/-- The operation of the step is prompt. -/
def Managers.Prompt (env : Env) (p : Managers ι φ F τ) : ManagerOp ι φ F → Prop
  | .read i opId => (Asked.read opId : Asked φ).Prompt env (p.mem.managers i, p.rt)
  | .update i opId f => (Asked.update opId f).Prompt env (p.mem.managers i, p.rt)
  | .addTimer .. => True
  | .tick _ => True

/-- A manager that waits has a handler to call. -/
def CacheStateManager.Ready (m : CacheStateManager φ) : Prop :=
  m.currentState = .kCacheUpdateProtected → m.callHandle ≠ none

omit [DecidableEq ι] in
/-- A manager with a lease waits for nothing. -/
theorem CacheStateManager.Ready.of_guarantee {κ : Type} {closures : Closures κ}
    {s : CacheStateManager φ × Runtime κ} : (guarantee env closures s).1.Ready :=
  fun h => nomatch (guarantee_currentState env closures s).symm.trans h

omit [DecidableEq ι] in
/-- A manager that comes to wait has its handler. -/
theorem CacheStateManager.Ready.turn {κ : Type} {closures : Closures κ}
    {s : CacheStateManager φ × Runtime κ} {asked : Asked φ}
    {r : Except Thrown (OpResult × Int) × (CacheStateManager φ × Runtime κ)} (hr : s.1.Ready)
    (h : Turn env closures s asked r) : r.2.1.Ready := by
  cases h with
  | started hstate hs' =>
      rw [hs']
      exact .of_guarantee
  | renewed hstate hs' =>
      rw [hs']
      exact .of_guarantee
  | waits h0 hstate hdelay hs' =>
      intro _
      rw [hs', protect_callHandle]
      exact Option.some_ne_none _
  | refused hbad => exact hr
  | overdue h0 hstate hdelay => exact fun h => nomatch hstate.symm.trans h
  | unleased hstate => exact hr
  | retried hstate => exact hr

/-- **A prompt operation keeps `Exclusive`.** -/
theorem Owners.Exclusive.turn {κ : Type} {o : Owners ι κ} {s : CacheStateManager φ × Runtime κ}
    {r : Except Thrown (OpResult × Int) × (CacheStateManager φ × Runtime κ)}
    {ms : ι → Option (CacheStateManager φ)} {i : ι} (hx : o.Exclusive s.2.queue ms)
    (ha : o.Armed s.2.queue ms) (hm : ms i = some s.1) {asked : Asked φ}
    (hprompt : asked.Prompt env s) (h : Turn env (o.closures i) s asked r) :
    o.Exclusive r.2.2.queue (Function.update ms i (some r.2.1)) := by
  have htimer : ∀ m, SameExpiry s.1 m → ∀ m₀, ms i = some m₀ → m₀.timerId = m.timerId := by
    intro m hsame m₀ hm₀
    rw [hm] at hm₀
    cases hm₀
    exact hsame.timerId.symm
  cases h with
  | started hstate hs' =>
      subst hs'
      exact hx.guarantee ha (htimer _ (.refl s.1)) (Or.inl ((ha.managers i _ hm).idle hstate))
  | @renewed opId s' hstate hs' =>
      subst hs'
      exact hx.guarantee ha (htimer _ (.setOpId s.1 opId)) (Or.inr (hprompt hstate))
  | @waits opId f s' h0 hstate hdelay hs' =>
      subst hs'
      have hx' : o.Exclusive s.2.readClock.queue ms := hx
      exact hx'.protect ha (htimer _ (.setCallHandle s.1 opId (some f)))
        (Or.inr (hprompt hstate h0 (Option.some_ne_none f) hdelay)) _
  | refused hbad => exact hx.update hm fun t _ h => h
  | @overdue opId f e h0 hstate hdelay =>
      exact hx.update hm fun t _ h => h.sameExpiry (.setCallHandle s.1 opId (some f))
  | unleased hstate => exact hx.update hm fun t _ h => h
  | retried hstate => exact hx.update hm fun t _ h => h

/-- What holds after every step of a prompt run with handlers that do not throw. -/
structure OneEach (p : Managers ι φ F τ) : Prop where
  armed : managerOwners.Armed p.rt.queue p.mem.states
  exclusive : managerOwners.Exclusive p.rt.queue p.mem.states
  ready : ∀ i m, p.mem.states i = some m → m.Ready

/-- A prompt call of one manager leaves one live timer each. -/
theorem OneEach.answer (h : OneEach p) {i : ι} {asked : Asked φ}
    {r : Except Thrown (OpResult × Int) × (CacheStateManager φ × Runtime (ManagerCall ι F))}
    (hprompt : asked.Prompt env (p.mem.managers i, p.rt))
    (hturn : Turn env (managerOwners.closures i) (p.mem.managers i, p.rt) asked r) :
    OneEach (p.answer i r).2 := by
  obtain ⟨hrt, hstates⟩ := answer_parts (p := p) (i := i) r
  refine ⟨Armed.answer h.armed hturn, ?_, ?_⟩
  · rw [hrt, hstates]
    exact Exclusive.turn (s := (p.mem.managers i, p.rt)) h.exclusive h.armed rfl hprompt hturn
  · rw [hstates]
    exact Lib.Table.forall_assign h.ready ((h.ready i _ rfl).turn hturn)

/-- A callback leaves every manager that waits with a handler. -/
theorem Owners.Callback.ready {κ : Type} {o : Owners ι κ} {call : κ} {rt rt' : Runtime κ}
    {ms ms' : ι → Option (CacheStateManager φ)} (h : o.Callback env call rt ms rt' ms')
    (hr : ∀ i m, ms i = some m → m.Ready) : ∀ i m, ms' i = some m → m.Ready := by
  cases h with
  | absent howner hm => exact hr
  | idled hm hcall => exact Lib.Table.forall_assign hr fun h => nomatch h
  | renewed hm hcall hadd => exact Lib.Table.forall_assign hr .of_guarantee
  | other howner hadd => exact hr

/-- Only the callbacks of other owners throw. -/
theorem OneEach.throws (h : OneEach p) (hquiet : hooks.Quiet) {r : Iter (Managers ι φ F τ)}
    (hr : TickIter env (runManager env hooks) p r) :
    ∀ e p', r = .threw e p' → ∀ t rest, p.rt.queue = t :: rest → t.callback.owner = none := by
  intro e p' hthrew t rest hq
  obtain ⟨h0, p₁, hrun⟩ := hr.of_threw hthrew hq
  have ht : t ∈ p.rt.queue := by
    rw [hq]
    exact List.mem_cons_self
  rcases hcall : t.callback with i | i | f
  · rw [hcall] at hrun
    simp only [runManager, setCacheState_idle] at hrun
    cases (Prod.mk.inj hrun).1
  · obtain ⟨m, hm, hexpiry⟩ := h.exclusive t ht h0 i (by rw [hcall]; rfl)
    have hstate : m.currentState = .kCacheUpdateProtected := by
      have hclosure := hexpiry.callback
      rw [hcall] at hclosure
      cases hs : m.currentState with
      | kCacheIdle => rw [hs] at hclosure; cases hclosure
      | kCacheGuaranteed => rw [hs] at hclosure; cases hclosure
      | kCacheUpdateProtected => rfl
    cases hm
    obtain ⟨f, hf⟩ := Option.ne_none_iff_exists'.mp (h.ready i _ rfl hstate)
    rw [hcall] at hrun
    simp only [runManager, setCacheState_guaranteed, guarantee_callHandle, hf] at hrun
    have hnone := (Prod.mk.inj hrun).1
    rw [hquiet] at hnone
    cases hnone
  · rfl

/-- **An iteration of `tick`** keeps the invariant. -/
theorem OneEach.tickIter (h : OneEach p) (hb : hooks.Benign env) (hquiet : hooks.Quiet)
    {r : Iter (Managers ι φ F τ)} (hr : TickIter env (runManager env hooks) p r) :
    OneEach r.state := by
  refine ⟨h.armed.tickIter (runManager_runs hb) hr,
    h.exclusive.tickIter h.armed (runManager_runs hb) hr (h.throws hquiet hr), ?_⟩
  cases hr with
  | empty hq => exact h.ready
  | notDue hq hdue => exact h.ready
  | dead hq hdue h0 hperm => exact h.ready
  | threw hq hdue h0 hrun =>
      exact ((runManager_runs hb).of_eq hrun).ready h.ready
  | fired hq hdue h0 hrun =>
      exact ((runManager_runs hb).of_eq hrun).ready h.ready

/-- **In every prompt run there is one live timer each.** -/
theorem ManagersReachable.oneEach (hb : hooks.Benign env) (hquiet : hooks.Quiet)
    (h : ManagersReachable env hooks (Managers.Prompt env) p) : OneEach p := by
  induction h with
  | initial outer =>
      refine ⟨Armed.initial outer, fun t ht => (nomatch ht), fun i m hm => ?_⟩
      cases hm
      exact fun h => nomatch h
  | @step p p' op _ hprompt hstep ih =>
      cases op with
      | read i opId =>
          cases hstep
          have hasked : (Asked.read opId : Asked φ).Prompt env (p.mem.managers i, p.rt) := hprompt
          exact ih.answer hasked (readOp_turn env _ opId _)
      | update i opId f =>
          cases hstep
          have hasked : (Asked.update opId f).Prompt env (p.mem.managers i, p.rt) := hprompt
          exact ih.answer hasked (updateOp_turn env _ opId f _)
      | addTimer f timeoutMs repeat_ =>
          cases hstep
          have hadd := addTimer_adds env f timeoutMs repeat_ p.rt
          exact ⟨ih.armed.addsOthers hadd, ih.exclusive.addsOthers hadd, ih.ready⟩
      | tick fuel =>
          obtain ⟨r, hr, rfl⟩ := Option.map_eq_some_iff.mp hstep
          exact tickLoop_induct OneEach (fun _ _ h hi => h.tickIter hb hquiet hi) fuel p r.1 r.2
            ih hr

/-- The live timers in the queue that this manager created. -/
def Managers.liveTimers (p : Managers ι φ F τ) (i : ι) : List (EventTimer (ManagerCall ι F)) :=
  p.rt.queue.filter fun t => t.repeat_ ≠ 0 ∧ t.callback.owner = some i

/-- The manager has no live timer when it is Idle, and otherwise one, with its id and the callback
of its current state. -/
structure OneTimer (p : Managers ι φ F τ) (i : ι) : Prop where
  atMostOne : (p.liveTimers i).length ≤ 1
  idle : (p.mem.managers i).currentState = .kCacheIdle → p.liveTimers i = []
  armed : (p.mem.managers i).currentState ≠ .kCacheIdle → ∃ t, p.liveTimers i = [t] ∧
    t.timerId = (p.mem.managers i).timerId ∧
    (p.mem.managers i).currentState.closure (managerOwners.closures i) = some t.callback

/-- One live timer each is what is wanted of every manager. -/
theorem OneEach.oneTimer (h : OneEach p) (i : ι) : OneTimer p i := by
  have hlive : ∀ t ∈ p.liveTimers i, t ∈ p.rt.queue ∧
      managerOwners.Expiry i (p.mem.managers i) t := by
    intro t ht
    obtain ⟨ht, hcond⟩ := List.mem_filter.mp ht
    obtain ⟨h0, howner⟩ := of_decide_eq_true hcond
    obtain ⟨m, hm, hexpiry⟩ := h.exclusive t ht h0 i howner
    cases hm
    exact ⟨ht, hexpiry⟩
  have hnodup : (p.liveTimers i).Nodup :=
    (List.Nodup.of_map _ h.armed.nodup).filter _
  have hsame : ∀ t ∈ p.liveTimers i, ∀ t' ∈ p.liveTimers i, t = t' := by
    intro t ht t' ht'
    obtain ⟨hmem, hexpiry⟩ := hlive t ht
    obtain ⟨hmem', hexpiry'⟩ := hlive t' ht'
    exact h.armed.eq_of_timerId hmem hmem' (hexpiry.timerId.symm.trans hexpiry'.timerId)
  have hle : (p.liveTimers i).length ≤ 1 := by
    rcases hl : p.liveTimers i with _ | ⟨t, _ | ⟨t', rest⟩⟩
    · exact Nat.zero_le 1
    · exact le_rfl
    · rw [hl] at hnodup hsame
      have heq := hsame t (by simp) t' (by simp)
      simp [heq] at hnodup
  refine ⟨hle, fun hidle => ?_, fun hidle => ?_⟩
  · refine List.eq_nil_iff_forall_not_mem.mpr fun t ht => ?_
    exact (hlive t ht).2.not_idle hidle
  · rcases h.armed.managers i _ rfl with ⟨hstate, -, -⟩ | ⟨t, ht, hexpiry⟩
    · exact absurd hstate hidle
    · have hmem : t ∈ p.liveTimers i := by
        refine List.mem_filter.mpr ⟨ht, decide_eq_true ⟨?_, hexpiry.owner⟩⟩
        rw [hexpiry.repeat_]
        decide
      refine ⟨t, ?_, hexpiry.timerId.symm, hexpiry.callback⟩
      obtain ⟨t', hl⟩ := List.length_eq_one_iff.mp (le_antisymm hle (List.length_pos_of_mem hmem))
      rw [hl] at hmem ⊢
      rw [List.mem_singleton.mp hmem]

/-- Every manager has one live timer at most, and the one that its state calls for, in the runs
whose steps meet `ok`. -/
def OneExpiry (env : Env) (hooks : ManagerHooks ι φ F τ)
    (ok : Managers ι φ F τ → ManagerOp ι φ F → Prop) : Prop :=
  ∀ p, ManagersReachable env hooks ok p → ∀ i, OneTimer p i

/-- **One expiry at a time**, in every run whose operations are prompt, with handlers that do not
throw. -/
theorem oneExpiry_of_prompt (hb : hooks.Benign env) (hquiet : hooks.Quiet) :
    OneExpiry env hooks (Managers.Prompt env) :=
  fun _ hreach i => (hreach.oneEach hb hquiet).oneTimer i

/-- A lease that is read again and then waited for, as a case of `oneExpiry_of_prompt`. -/
theorem oneExpiry_of_prompt_waiting : ∃ p : Managers Nat Unit Unit Unit,
    (Managers.initial () : Managers Nat Unit Unit Unit).run stillClock ManagerHooks.silent
      [.read 0 1, .read 0 2, .update 0 3 (some ())] = some p ∧
    (p.mem.managers 0).currentState = .kCacheUpdateProtected ∧ OneTimer p 0 := by
  obtain ⟨p, hrun, hreach, hstate⟩ : ∃ p : Managers Nat Unit Unit Unit,
      (Managers.initial () : Managers Nat Unit Unit Unit).run stillClock ManagerHooks.silent
        [.read 0 1, .read 0 2, .update 0 3 (some ())] = some p ∧
      ManagersReachable stillClock ManagerHooks.silent (Managers.Prompt stillClock) p ∧
      (p.mem.managers 0).currentState = .kCacheUpdateProtected := by
    refine ⟨_, rfl, .step (.update 0 3 (some ())) (.step (.read 0 2) (.step (.read 0 1)
      (.initial ()) ?_ rfl) ?_ rfl) ?_ rfl, by decide⟩
    · exact fun h => nomatch h
    · exact fun _ => by decide
    · exact fun _ _ _ _ => by decide
  exact ⟨p, hrun, hstate, oneExpiry_of_prompt (ManagerHooks.silent_benign stillClock)
    ManagerHooks.silent_quiet p hreach 0⟩

/-- A lease that is read again at its end, before its tick, has two live timers. -/
theorem not_oneExpiry : ¬ OneExpiry (jumpClock 2 10000)
    (ManagerHooks.silent : ManagerHooks Nat Unit Unit Unit) fun _ _ => True := by
  intro h
  obtain ⟨p, hrun, hlive⟩ : ∃ p : Managers Nat Unit Unit Unit,
      (Managers.initial () : Managers Nat Unit Unit Unit).run (jumpClock 2 10000)
        ManagerHooks.silent [.read 0 1, .read 0 2] = some p ∧ (p.liveTimers 0).length = 2 :=
    ⟨_, rfl, by decide⟩
  have hreach := ManagersReachable.run (fun _ _ => trivial) (ManagersReachable.initial ()) hrun
  have hle := (h p hreach 0).atMostOne
  omega

end CacheSystem

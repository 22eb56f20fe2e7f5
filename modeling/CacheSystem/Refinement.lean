import CacheSystem.Deferred
import CacheSystem.Lib.LeasedRegister

/-!
# The data center is a leased register (`cache_data_center.h`, `cache_state_manager.h`)

The states of the managers, the timers in their queue and the ticks that run them are one way to
keep leases. What they do for a client of the data center is what a leased register does
(`Lib/LeasedRegister.lean`): an Idle element is free, a Guaranteed one is leased, and an
UpdateProtected one holds an update back until its lease has run out.

* `Center.register` : the register that a data center stands for. Timers are not part of it: a lease
  that ends and a waiting update that is written are the register's own steps.
* `ReadOp.refines`, `UpdateOp.refines`, `Sound.tickIter_refines` : what one operation, and one
  iteration of `tick`, is to the register.
* `center_refines` : the runs that meet `Prompt` are simulated by the register.
* `coherent_of_prompt` : so two expire times handed out for one id that have not passed came with
  one value, which is `value_`.
-/

namespace CacheSystem

open CacheSystem.Lib Relation

variable {T H F τ : Type}

/-! ## The register -/

/-- What the element is to its clients. -/
def CacheElement.slot (e : CacheElement T H) : LeasedRegister.Slot T (UInt32 × H) Int :=
  match e.state.currentState, e.pending with
  | .kCacheIdle, _ => .free e.value
  | _, some (opId, f, value) => .waiting e.value e.state.expireTime (opId, f) value
  | _, none => .leased e.value e.state.expireTime

/-- An Idle element is a free slot. -/
theorem CacheElement.slot_idle {e : CacheElement T H} (h : e.state.currentState = .kCacheIdle) :
    e.slot = .free e.value := by
  unfold slot
  rw [h]

/-- A Guaranteed element is a leased slot. -/
theorem CacheElement.slot_guaranteed {e : CacheElement T H}
    (h : e.state.currentState = .kCacheGuaranteed) :
    e.slot = .leased e.value e.state.expireTime := by
  have hpending : e.pending = none := CacheElement.pending_of_ne (by rw [h]; decide)
  unfold slot
  rw [h, hpending]

/-- An UpdateProtected element is a slot with an update waiting. -/
theorem CacheElement.slot_updateProtected {e : CacheElement T H}
    (h : e.state.currentState = .kCacheUpdateProtected) {f : H} {value : T}
    (hf : e.call = some f) (hv : e.tempValue = some value) :
    e.slot = .waiting e.value e.state.expireTime (e.state.opId, f) value := by
  have hpending := CacheElement.pending_of_waits h hf hv
  unfold slot
  rw [h, hpending]

/-- What an event tells a client. -/
def Event.told : Event T H → Option (LeasedRegister.Told UInt64 T (UInt32 × H) Int)
  | .read cacheId expire value => some (.read cacheId value expire)
  | .updated cacheId opId f value expire => some (.wrote cacheId (opId, f) value expire)
  | .deferred cacheId opId f value => some (.queued cacheId (opId, f) value)
  | .completed cacheId _ opId f value expire => some (.committed cacheId (opId, f) value expire)
  | .retried .. => none
  | .moved .. => none

/-- The register that the data center stands for. -/
def Center.register (env : Env) (p : Center T H F τ) :
    LeasedRegister.Register UInt64 T (UInt32 × H) Int where
  slots cacheId := ((p.mem.map cacheId).map CacheElement.slot).getD .vacant
  now := p.rt.now env
  history := p.mem.trace.filterMap Event.told

variable {env : Env} {p p' : Center T H F τ}

/-- An element stands for its slot. -/
theorem Center.register_slots {cacheId : UInt64} {e : CacheElement T H}
    (he : p.mem.map cacheId = some e) : (p.register env).slots cacheId = e.slot := by
  simp [Center.register, he]

/-- The steps of the register. -/
abbrev RegisterSteps : LeasedRegister.Register UInt64 T (UInt32 × H) Int →
    LeasedRegister.Register UInt64 T (UInt32 × H) Int → Prop :=
  ReflTransGen LeasedRegister.Next

/-- Elements and history are as they were: time has passed. -/
theorem Center.steps_of_same (hr : p.rt.readings ≤ p'.rt.readings)
    (hmap : p'.mem.map = p.mem.map) (htrace : p'.mem.trace = p.mem.trace) :
    RegisterSteps (p.register env) (p'.register env) := by
  have heq : p'.register env = { p.register env with now := p'.rt.now env } := by
    simp only [Center.register, hmap, htrace]
  rw [heq]
  exact .single (.pass _ (env.mono hr))

/-- One element was assigned, which is a step of the register, and time has passed. -/
theorem Center.steps_of_assign (cacheId : UInt64) (e' : CacheElement T H)
    (events : List (Event T H)) (hr : p.rt.readings ≤ p'.rt.readings)
    (hmap : p'.mem.map = Function.update p.mem.map cacheId (some e'))
    (htrace : p'.mem.trace = p.mem.trace ++ events)
    (hnext : LeasedRegister.Next (p.register env)
      ((p.register env).assign cacheId e'.slot (events.filterMap Event.told))) :
    RegisterSteps (p.register env) (p'.register env) := by
  have heq : p'.register env =
      { (p.register env).assign cacheId e'.slot (events.filterMap Event.told) with
          now := p'.rt.now env } := by
    simp only [Center.register, LeasedRegister.Register.assign, hmap, htrace,
      List.filterMap_append, LeasedRegister.Register.mk.injEq, and_true]
    funext id
    by_cases hid : id = cacheId
    · subst hid
      simp
    · simp [Function.update_of_ne hid]
  rw [heq]
  exact (ReflTransGen.single hnext).tail (.pass _ (env.mono hr))

/-! ## Operations -/

/-- A read takes a lease at most. -/
theorem ReadOp.refines {cacheId : UInt64} {opId : UInt32}
    {r : Except Thrown (OpResult × Option (Int × T)) × Center T H F τ} (h : Sound env p)
    (hr : ReadOp env cacheId opId p r) : RegisterSteps (p.register env) (r.2.register env) := by
  cases hr with
  | absent he => exact .refl
  | @renewed e m s he hm hs =>
      have htimes := guarantee_times env (closures cacheId) (m, p.rt)
      have hreadings := guarantee_readings_lt env (closures cacheId) (m, p.rt)
      rw [← hs] at htimes hreadings
      have hslot : ({ e with state := s.1 } : CacheElement T H).slot =
          .leased e.value s.1.expireTime :=
        CacheElement.slot_guaranteed (by rw [hs]; rfl)
      refine Center.steps_of_assign cacheId _ [_] hreadings.le rfl rfl ?_
      rw [hslot]
      rcases hm with ⟨hstate, -⟩ | ⟨hstate, -⟩
      · exact .lease _ _ ((Center.register_slots he).trans (CacheElement.slot_idle hstate))
      · refine .renew _
          ((Center.register_slots he).trans (CacheElement.slot_guaranteed hstate)) ?_
        exact (h.bounded cacheId e he (by rw [hstate]; decide)).trans htimes.1
  | @unleased e he hstate =>
      obtain ⟨-, -, -, f, value, hf, hv⟩ := h.waits cacheId e he hstate
      have hslot : (Center.register env p).slots cacheId =
          .waiting e.value e.state.expireTime (e.state.opId, f) value :=
        (Center.register_slots he).trans (CacheElement.slot_updateProtected hstate hf hv)
      refine ReflTransGen.trans (.single (.peek _ hslot (le_refl (p.rt.now env)))) ?_
      refine .trans (b := Center.register env ⟨p.rt, { p.mem with
        trace := p.mem.trace ++ [.read cacheId (p.rt.now env) e.value] }⟩) ?_
        (Center.steps_of_same (Nat.le_succ _) rfl rfl)
      simp only [Center.register, List.filterMap_append]
      exact .refl

/-- An update is a write, a wait or a refusal of the register. -/
theorem UpdateOp.refines [Inhabited T] {cacheId : UInt64} {value : T} {opId : UInt32} {f : H}
    {r : Except Thrown (OpResult × Int) × Center T H F τ} (h : Sound env p)
    (hprompt : Prompt env p (.update cacheId value opId f))
    (hr : UpdateOp env cacheId value opId f p r) :
    RegisterSteps (p.register env) (r.2.register env) := by
  cases hr with
  | @assigned e s he hstate hs =>
      have hreadings := guarantee_readings_lt env (closures cacheId) (e.state, p.rt)
      rw [← hs] at hreadings
      have hslot : ({ e with value := value, state := s.1 } : CacheElement T H).slot =
          .leased value s.1.expireTime :=
        CacheElement.slot_guaranteed (by rw [hs]; rfl)
      refine Center.steps_of_assign cacheId _ [_] hreadings.le rfl rfl ?_
      rw [hslot]
      refine .write _ (opId, f) value _ ?_
      rcases he with he | ⟨he, -⟩
      · exact Or.inr ⟨e.value, (Center.register_slots he).trans (CacheElement.slot_idle hstate)⟩
      · exact Or.inl (by simp [Center.register, he])
  | refused he hstate h0 => exact .refl
  | @overdue e he hstate h0 hdelay =>
      have hslot : ∀ m : CacheStateManager Unit, m.currentState = .kCacheGuaranteed →
          m.expireTime = e.state.expireTime →
            ({ e with state := m } : CacheElement T H).slot = e.slot := by
        intro m hm hexpire
        rw [CacheElement.slot_guaranteed hstate, CacheElement.slot_guaranteed hm, hexpire]
      have hsame : Center.register env (p.put cacheId e
          ((e.state.setOpId opId).setCallHandle (some ()), p.rt.readClock)) =
            { p.register env with now := p.rt.readClock.now env } := by
        simp only [Center.register, put_map, put_trace, put_rt,
          LeasedRegister.Register.mk.injEq, and_true]
        funext id
        by_cases hid : id = cacheId
        · subst hid
          simp [he, hslot ((e.state.setOpId opId).setCallHandle (some ())) hstate rfl]
        · simp [Function.update_of_ne hid]
      rw [hsame]
      exact .single (.pass _ (env.mono (Nat.le_succ _)))
  | @deferred e s he hstate h0 hdelay hs =>
      have hne : e.state.currentState ≠ .kCacheIdle := by rw [hstate]; decide
      have hnow : p.rt.now env ≤ p.rt.readClock.now env := env.mono (Nat.le_succ _)
      have hlt : p.rt.now env < e.state.expireTime :=
        lt_of_le_of_lt hnow (hprompt e he hstate h0 hdelay)
      have htimes := protect_times env (closures cacheId) (e.state, p.rt) hlt
        (h.bounded cacheId e he hne) rfl
        ((e.state.setOpId opId).setCallHandle (some ()), p.rt.readClock) hnow
      have hreadings : p.rt.readings < s.2.readings := by
        rw [hs]
        exact lt_trans (Nat.lt_succ_self _) (protect_readings_lt env (closures cacheId)
          ((e.state.setOpId opId).setCallHandle (some ()), p.rt.readClock) _)
      rw [← hs] at htimes
      have hop : s.1.opId = opId := by rw [hs]; exact protect_opId env _ _ _
      have hslot : (⟨opId, e.value, some value, some f, s.1⟩ : CacheElement T H).slot =
          .waiting e.value s.1.expireTime (opId, f) value := by
        rw [CacheElement.slot_updateProtected (by rw [hs]; rfl) rfl rfl, hop]
      refine Center.steps_of_assign cacheId ⟨opId, e.value, some value, some f, s.1⟩ [_]
        hreadings.le rfl rfl ?_
      rw [hslot]
      exact .queue _ (opId, f) value
        ((Center.register_slots he).trans (CacheElement.slot_guaranteed hstate)) htimes.1
  | retried he hstate h0 =>
      have hsame : Center.register env (p.record (.retried cacheId opId f)) = p.register env := by
        simp [Center.register, Event.told]
      rw [hsame]

/-! ## Ticks -/

section tick

variable {hooks : Hooks T H F τ}

/-- The callback of a due timer ends a lease, or writes what waits; what its handler does takes
time. -/
theorem Sound.runTimer_refines (h : Sound env p) (hb : hooks.Benign env)
    {t : EventTimer (TimerCall F)} {r : Option Thrown × Center T H F τ} (ht : t ∈ p.rt.queue)
    (hlive : t.repeat_ ≠ 0) (hdue : t.expireTime ≤ p.rt.now env)
    (hr : RunTimer env hooks p t.callback r) :
    RegisterSteps (p.register env) (r.2.register env) := by
  have howned : ∀ cacheId e, t.callback.owner = some cacheId → p.mem.map cacheId = some e →
      ManagedBy cacheId e.state t ∧ e.state.expireTime ≤ p.rt.now env := by
    intro cacheId e howner he
    have hm := h.owner ht hlive howner he
    exact ⟨hm, hm.expireTime_le.trans hdue⟩
  generalize hcall : t.callback = call at hr
  rw [hcall] at howned
  cases hr with
  | absent howner he => exact .refl
  | @idled cacheId e he =>
      obtain ⟨hm, hover⟩ := howned cacheId e rfl he
      refine Center.steps_of_assign cacheId _ [] le_rfl rfl (List.append_nil _).symm ?_
      rw [CacheElement.slot_idle rfl]
      exact .lapse _ ((Center.register_slots he).trans
        (CacheElement.slot_guaranteed (hm.guaranteed hcall))) hover
  | @completed cacheId e f s p₁ r he hs hf hp hinv =>
      obtain ⟨hm, hover⟩ := howned cacheId e rfl he
      have hstate := hm.updateProtected hcall
      obtain ⟨-, -, -, f', value, hf', hv⟩ := h.waits cacheId e he hstate
      obtain rfl : f' = f := Option.some.inj (hf'.symm.trans hf)
      have hadd := hb.invoke f' .kOperationOk e.state.opId s.1.expireTime p₁.outer
      rw [← hinv] at hadd
      have hreadings := guarantee_readings_lt env (closures cacheId) (e.state, p.rt)
      rw [← hs] at hreadings
      have hslot : (e.taken hooks.unspecified s.1).slot = .leased value s.1.expireTime := by
        rw [CacheElement.slot_guaranteed (e := e.taken hooks.unspecified s.1) (by rw [hs]; rfl)]
        simp [CacheElement.taken, hv]
      have hrt : p₁.rt = s.2 := by rw [hp, hs]; rfl
      have hlast : RegisterSteps (p₁.register env) ((p₁.withOuter r.2).register env) :=
        Center.steps_of_same hadd.readings_le rfl rfl
      refine ReflTransGen.trans ?_ hlast
      refine Center.steps_of_assign cacheId (e.taken hooks.unspecified s.1)
        [.moved cacheId e.call e.tempValue, .completed cacheId .kOperationOk e.state.opId f'
          (e.tempValue.getD hooks.unspecified) s.1.expireTime] ?_ ?_ ?_ ?_
      · rw [hrt]
        exact hreadings.le
      · rw [hp, hs]
        rfl
      · rw [hp]
        simp
      · rw [hslot, hv]
        exact .commit _ ((Center.register_slots he).trans
          (CacheElement.slot_updateProtected hstate hf hv)) hover
  | noCall he hf => exact absurd hf (h.handlers ht hlive hcall he).2
  | unbound he hnone => exact absurd hnone (h.handlers ht hlive hcall he).1
  | @foreign f r hinv =>
      have hadd := hb.foreign f p.outer
      rw [← hinv] at hadd
      exact Center.steps_of_same hadd.readings_le rfl rfl

/-- What an iteration of `tick` does to the memory is what the callback of a live timer does. -/
theorem TickIter.ran {r : Iter (Center T H F τ)}
    (hr : TickIter env (CacheSystem.runTimer env hooks) p r) :
    r.state.mem = p.mem ∨ ∃ t ∈ p.rt.queue, t.repeat_ ≠ 0 ∧ ∃ q,
      RunTimer env hooks { p with rt := p.rt.readClock.lock } t.callback q ∧
        r.state.mem = q.2.mem := by
  cases hr with
  | empty hq => exact Or.inl rfl
  | notDue hq hdue => exact Or.inl rfl
  | dead hq hdue h0 hperm => exact Or.inl rfl
  | @threw t rest e p₁ hq hdue h0 hrun =>
      exact Or.inr ⟨t, by rw [hq]; exact List.mem_cons_self, h0, _, .of_eq hrun, rfl⟩
  | @fired t rest p₁ hq hdue h0 hrun =>
      exact Or.inr ⟨t, by rw [hq]; exact List.mem_cons_self, h0, _, .of_eq hrun, rfl⟩

/-- **An iteration of `tick`** is some steps of the register, also where the callback throws. -/
theorem Sound.tickIter_refines (h : Sound env p) (hb : hooks.Benign env)
    {r : Iter (Center T H F τ)} (hr : TickIter env (CacheSystem.runTimer env hooks) p r) :
    RegisterSteps (p.register env) (r.state.register env) := by
  have hlocked : Sound env { p with rt := p.rt.readClock.lock } := h.of_same rfl (Nat.le_succ _) rfl
  have hread : RegisterSteps (p.register env)
      (Center.register env ({ p with rt := p.rt.readClock.lock } : Center T H F τ)) :=
    Center.steps_of_same (Nat.le_succ _) rfl rfl
  cases hr with
  | empty hq => exact .refl
  | notDue hq hdue => exact Center.steps_of_same (Nat.le_succ _) rfl rfl
  | dead hq hdue h0 hperm => exact Center.steps_of_same (Nat.le_succ _) rfl rfl
  | @threw t rest e p₁ hq hdue h0 hrun =>
      have ht : t ∈ p.rt.queue := by rw [hq]; exact List.mem_cons_self
      have hdue' : t.expireTime ≤ p.rt.readClock.lock.now env :=
        hdue.trans (now_le_reading env p.rt (Nat.le_succ _))
      refine hread.trans ((hlocked.runTimer_refines hb ht h0 hdue' (.of_eq hrun)).trans ?_)
      exact Center.steps_of_same le_rfl rfl rfl
  | @fired t rest p₁ hq hdue h0 hrun =>
      have ht : t ∈ p.rt.queue := by rw [hq]; exact List.mem_cons_self
      have hdue' : t.expireTime ≤ p.rt.readClock.lock.now env :=
        hdue.trans (now_le_reading env p.rt (Nat.le_succ _))
      refine hread.trans ((hlocked.runTimer_refines hb ht h0 hdue' (.of_eq hrun)).trans ?_)
      exact Center.steps_of_same (settled_readings_le env p₁.rt) rfl rfl

end tick

/-! ## Runs -/

section runs

variable {hooks : Hooks T H F τ}

/-- **A turn of the data center is steps of the register.** -/
theorem Sound.step_refines [Inhabited T] (h : Sound env p) (hb : hooks.Benign env)
    (hquiet : hooks.Quiet) {op : Op T H} (hprompt : Prompt env p op)
    (hstep : p.step env hooks op = some p') :
    RegisterSteps (p.register env) (p'.register env) := by
  cases op with
  | read cacheId opId =>
      cases hstep
      exact (readOp_spec env cacheId opId p).refines h
  | update cacheId value opId f =>
      cases hstep
      exact (updateOp_spec env cacheId value opId f p).refines h hprompt
  | tick fuel =>
      obtain ⟨⟨e, q⟩, ht, rfl⟩ := Option.map_eq_some_iff.mp hstep
      refine (tickLoop_induct (fun q => Sound env q ∧ RegisterSteps (p.register env)
        (Center.register env q)) (fun q r hq hr => ?_) fuel p e q ⟨h, .refl⟩ ht).2
      exact ⟨(hq.1.tickIter hb hr (hq.1.othersThrow hquiet hr)).1,
        hq.2.trans (hq.1.tickIter_refines hb hr)⟩

/-- The data center, and its operations that meet `Prompt`, as a machine. -/
def centerMachine [Inhabited T] (env : Env) (hooks : Hooks T H F τ) :
    Simulation.Machine (Center T H F τ) where
  init p := ∃ outer, p = Center.initial outer
  next p p' := ∃ op, Prompt env p op ∧ p.step env hooks op = some p'

/-- The runs of the machine are those whose operations are `Prompt`. -/
theorem centerMachine_reachable_iff [Inhabited T] :
    (centerMachine env hooks).Reachable p ↔ Reachable env hooks (Prompt env) p := by
  constructor
  · intro h
    induction h with
    | init hs =>
        obtain ⟨outer, rfl⟩ := hs
        exact .initial outer
    | step _ hnext ih =>
        obtain ⟨op, hprompt, hstep⟩ := hnext
        exact .step op ih hprompt hstep
  · intro h
    induction h with
    | initial outer => exact .init ⟨outer, rfl⟩
    | step op _ hprompt hstep ih => exact ih.step ⟨op, hprompt, hstep⟩

/-- A run in which an update is assigned, another one waits for the end of the lease, and a late
`tick` completes it. -/
theorem completing_reachable : ∃ p : Center Nat Unit Empty Unit,
    Reachable (jumpClock 6 20000) (Hooks.silent 0) (Prompt (jumpClock 6 20000)) p ∧
      p.mem.trace = [.updated 1 1 () 5 10000, .deferred 1 2 () 7, .moved 1 (some ()) (some 7),
        .completed 1 .kOperationOk 2 () 7 30000] ∧
      p.rt.now (jumpClock 6 20000) < 30000 := by
  have hupdated : Reachable (jumpClock 6 20000) (Hooks.silent 0) (Prompt (jumpClock 6 20000))
      ((Center.initial () : Center Nat Unit Empty Unit).updateOp (jumpClock 6 20000) 1 5 1 ()).2 :=
    .step (.update 1 5 1 ()) (.initial ()) (fun e he => by cases he) rfl
  have hdeferred := Reachable.step (.update 1 7 2 ()) hupdated (fun e he _ _ _ => by
    obtain rfl := Option.some.inj he
    decide) rfl
  exact ⟨_, .step (.tick 3) hdeferred trivial rfl, rfl, by decide⟩

/-- **The data center is a leased register**: every run whose operations are `Prompt`, with handlers
that do not throw, is a run of the register it stands for, with every value, expire time and handler
that is told. -/
theorem center_refines [Inhabited T] (hb : hooks.Benign env) (hquiet : hooks.Quiet) :
    Simulation.Simulates (centerMachine env hooks) LeasedRegister.machine
      fun (p : Center T H F τ) r => r = p.register env :=
  Simulation.Simulates.of_map (Center.register env)
    (by
      rintro p ⟨outer, rfl⟩
      exact ⟨fun _ => rfl, rfl⟩)
    (by
      rintro p p' hp ⟨op, hprompt, hstep⟩
      exact (sound_of_reachable hb hquiet (centerMachine_reachable_iff.mp hp)).1.step_refines hb hquiet
        hprompt hstep)

/-- An update that waits and is completed, as a case of `center_refines`. -/
theorem center_refines_completing : ∃ r : LeasedRegister.Register UInt64 Nat (UInt32 × Unit) Int,
    (LeasedRegister.machine : Simulation.Machine (LeasedRegister.Register _ _ _ _)).Reachable r ∧
      r.history = [.wrote 1 (1, ()) 5 10000, .queued 1 (2, ()) 7, .committed 1 (2, ()) 7 30000] := by
  obtain ⟨p, hp, htrace, -⟩ := completing_reachable
  obtain ⟨r, hr, rfl⟩ := (center_refines (Hooks.silent_benign (jumpClock 6 20000) 0)
    (Hooks.silent_quiet 0)).reachable (centerMachine_reachable_iff.mpr hp)
  exact ⟨_, hr, by rw [Center.register, htrace]; rfl⟩

end runs

/-! ## Promises -/

/-- What an event promises: a value, for an id, until a time. -/
def Event.promise (event : Event T H) : Option (UInt64 × T × Int) :=
  event.told.bind LeasedRegister.Told.promise

/-- Every promise has run out, or its value is `value_`. -/
def Center.Coherent (env : Env) (p : Center T H F τ) : Prop :=
  ∀ event ∈ p.mem.trace, ∀ cacheId value expire, event.promise = some (cacheId, value, expire) →
    expire ≤ p.rt.now env ∨ p.value cacheId = some value

/-- The value that a slot keeps for its promises is that of its element. -/
theorem CacheElement.value_of_holds {e : CacheElement T H} {value : T} {expire : Int}
    (h : e.slot.Holds value expire) : e.value = value := by
  unfold CacheElement.slot at h
  split at h
  · exact h.elim
  · exact h.1
  · exact h.1

/-- A register that keeps its promises is a coherent data center. -/
theorem Center.coherent_of_kept (h : (p.register env).Kept) : p.Coherent env := by
  intro event hevent cacheId value expire hpromise
  obtain ⟨told, htold, hpromise⟩ := Option.bind_eq_some_iff.mp hpromise
  refine (h told (List.mem_filterMap.mpr ⟨event, hevent, htold⟩) cacheId value expire
    hpromise).imp_right fun hholds => ?_
  rcases he : p.mem.map cacheId with _ | e
  · simp only [Center.register, he] at hholds
    exact hholds.elim
  · rw [Center.register_slots he] at hholds
    simp only [Center.value, he, Option.map_some, CacheElement.value_of_holds hholds]

/-- The register of a run's state is one that registers come to. -/
theorem register_reachable [Inhabited T] {hooks : Hooks T H F τ} (hb : hooks.Benign env)
    (hquiet : hooks.Quiet) (h : Reachable env hooks (Prompt env) p) :
    LeasedRegister.machine.Reachable (p.register env) := by
  induction h with
  | initial outer => exact .init ⟨fun _ => rfl, rfl⟩
  | step op hp hprompt hstep ih =>
      exact ih.steps ((sound_of_reachable hb hquiet hp).1.step_refines hb hquiet hprompt hstep)

/-- **Promises are coherent** in every run whose operations are `Prompt`, with handlers that do not
throw: whoever was told an expire time that the clock has not reached was told the value that the
element has. -/
theorem coherent_of_prompt [Inhabited T] {hooks : Hooks T H F τ} (hb : hooks.Benign env)
    (hquiet : hooks.Quiet) (h : Reachable env hooks (Prompt env) p) : p.Coherent env :=
  Center.coherent_of_kept (LeasedRegister.kept (register_reachable hb hquiet h))

/-- The promise of a completed update, as a case of `coherent_of_prompt`. -/
theorem coherent_of_prompt_completing : ∃ p : Center Nat Unit Empty Unit,
    p.Coherent (jumpClock 6 20000) ∧ p.value 1 = some 7 := by
  obtain ⟨p, hp, htrace, hnow⟩ := completing_reachable
  have hcoherent := coherent_of_prompt (Hooks.silent_benign (jumpClock 6 20000) 0)
    (Hooks.silent_quiet 0) hp
  have hpromised : Event.completed 1 .kOperationOk 2 () 7 30000 ∈ p.mem.trace := by
    rw [htrace]
    decide
  exact ⟨p, hcoherent, (hcoherent _ hpromised 1 7 30000 rfl).resolve_left (not_le_of_gt hnow)⟩

end CacheSystem

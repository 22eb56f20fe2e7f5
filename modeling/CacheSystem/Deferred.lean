import CacheSystem.Lease

/-!
# Deferred updates are completed by themselves

A deferred update is spread over the manager (`op_id_`, the bound handler), the element
(`temp_value_`, `call_`) and a queued timer. `Center.pending` reads it off the element, and
`Orderly` is the order of the history that the element's state answers for: an update is taken in
only when none waits, and a completion is that of the update that waits.

`Orderly.wellCompleted` says what this means for a history, without states. It holds in the runs
that meet `Prompt` (`wellCompleted_of_prompt`). Outside them a timer left over from an earlier
lease makes a waiting element Idle, and the next update overtakes the waiting one
(`not_deferredSafe`).
-/

namespace CacheSystem

variable {T H F τ : Type}

/-! ## Histories -/

/-- The event takes in an update of this id. -/
def Event.Accepts (cacheId : UInt64) : Event T H → Prop
  | .updated id _ _ _ _ => id = cacheId
  | .deferred id _ _ _ => id = cacheId
  | _ => False

/-- The event is a call of an update handler of this id. -/
def Event.Completes (cacheId : UInt64) : Event T H → Prop
  | .completed id _ _ _ _ _ => id = cacheId
  | _ => False

/-- What is asked of a history for one id. -/
structure WellCompleted (cacheId : UInt64) (trace : List (Event T H)) : Prop where
  /-- A handler is called with `kOperationOk` and the `op_id`, the handler and the value of the
  last deferred update before it, which was not completed before. -/
  own : ∀ pre post status opId f value expire,
    trace = pre ++ .completed cacheId status opId f value expire :: post →
      status = .kOperationOk ∧ ∃ pre₁ pre₂, pre = pre₁ ++ .deferred cacheId opId f value :: pre₂ ∧
        ∀ event ∈ pre₂, ¬ event.Accepts cacheId ∧ ¬ event.Completes cacheId
  /-- Between a deferred update and the next update taken in, it was completed. -/
  undisturbed : ∀ pre mid post opId f value event,
    trace = pre ++ .deferred cacheId opId f value :: (mid ++ event :: post) →
      event.Accepts cacheId → ∃ done ∈ mid, done.Completes cacheId

/-- A history of one id, with the update that waits at its end. -/
inductive Orderly (cacheId : UInt64) : List (Event T H) → Option (UInt32 × H × T) → Prop
  | nil : Orderly cacheId [] none
  | other {trace w event} (h : Orderly cacheId trace w) (haccepts : ¬ event.Accepts cacheId)
      (hcompletes : ¬ event.Completes cacheId) : Orderly cacheId (trace ++ [event]) w
  | updated {trace opId f value expire} (h : Orderly cacheId trace none) :
      Orderly cacheId (trace ++ [.updated cacheId opId f value expire]) none
  | deferred {trace opId f value} (h : Orderly cacheId trace none) :
      Orderly cacheId (trace ++ [.deferred cacheId opId f value]) (some (opId, f, value))
  | completed {trace opId f value expire} (h : Orderly cacheId trace (some (opId, f, value))) :
      Orderly cacheId (trace ++ [.completed cacheId .kOperationOk opId f value expire]) none

/-- Where an element of a list with one more at its end stands. -/
theorem append_singleton_eq {α : Type} {l pre post : List α} {a x : α}
    (h : l ++ [a] = pre ++ x :: post) :
    (post = [] ∧ x = a ∧ pre = l) ∨ ∃ post', post = post' ++ [a] ∧ l = pre ++ x :: post' := by
  rcases List.eq_nil_or_concat post with rfl | ⟨post', b, rfl⟩
  · obtain ⟨hl, ha⟩ := List.append_inj' h rfl
    exact Or.inl ⟨rfl, (List.cons.inj ha).1.symm, hl.symm⟩
  · rw [List.concat_eq_append, ← List.cons_append, ← List.append_assoc] at h
    obtain ⟨hl, ha⟩ := List.append_inj' h rfl
    rw [(List.cons.inj ha).1]
    exact Or.inr ⟨post', List.concat_eq_append, hl⟩

/-- A waiting update is the last one that was taken in. -/
theorem Orderly.last {cacheId : UInt64} {trace : List (Event T H)}
    {w : Option (UInt32 × H × T)} (h : Orderly cacheId trace w) :
    ∀ opId f value, w = some (opId, f, value) →
      ∃ pre post, trace = pre ++ .deferred cacheId opId f value :: post ∧
        ∀ event ∈ post, ¬ event.Accepts cacheId ∧ ¬ event.Completes cacheId := by
  induction h with
  | nil => intro opId f value hw; cases hw
  | @other trace w event _ haccepts hcompletes ih =>
      intro opId f value hw
      obtain ⟨pre, post, rfl, hpost⟩ := ih opId f value hw
      refine ⟨pre, post ++ [event], by simp, fun e he => ?_⟩
      rcases List.mem_append.mp he with he | he
      · exact hpost e he
      · rw [List.mem_singleton.mp he]
        exact ⟨haccepts, hcompletes⟩
  | updated _ _ => intro opId f value hw; cases hw
  | @deferred trace opId f value _ _ =>
      intro opId' f' value' hw
      cases hw
      exact ⟨trace, [], rfl, fun e he => by cases he⟩
  | completed _ _ => intro opId f value hw; cases hw

/-- Where nothing waits, every deferred update was completed. -/
theorem Orderly.done {cacheId : UInt64} {trace : List (Event T H)}
    {w : Option (UInt32 × H × T)} (h : Orderly cacheId trace w) (hw : w = none) :
    ∀ pre post opId f value, trace = pre ++ .deferred cacheId opId f value :: post →
      ∃ done ∈ post, done.Completes cacheId := by
  induction h with
  | nil =>
      intro pre post opId f value heq
      cases pre <;> cases heq
  | @other trace w event _ haccepts _ ih =>
      intro pre post opId f value heq
      rcases append_singleton_eq heq with ⟨-, hev, -⟩ | ⟨post', rfl, htrace⟩
      · exact absurd (hev ▸ rfl) haccepts
      · obtain ⟨done, hmem, hdone⟩ := ih hw pre post' opId f value htrace
        exact ⟨done, List.mem_append_left _ hmem, hdone⟩
  | @updated trace _ _ _ _ _ ih =>
      intro pre post opId f value heq
      rcases append_singleton_eq heq with ⟨-, hev, -⟩ | ⟨post', rfl, htrace⟩
      · cases hev
      · obtain ⟨done, hmem, hdone⟩ := ih rfl pre post' opId f value htrace
        exact ⟨done, List.mem_append_left _ hmem, hdone⟩
  | deferred _ _ => cases hw
  | completed _ _ =>
      intro pre post opId f value heq
      rcases append_singleton_eq heq with ⟨-, hev, -⟩ | ⟨post', rfl, -⟩
      · cases hev
      · exact ⟨_, List.mem_append_right _ List.mem_cons_self, rfl⟩

/-- **What an orderly history means.** -/
theorem Orderly.wellCompleted {cacheId : UInt64} {trace : List (Event T H)}
    {w : Option (UInt32 × H × T)} (h : Orderly cacheId trace w) : WellCompleted cacheId trace where
  own := by
    induction h with
    | nil =>
        intro pre post status opId f value expire heq
        cases pre <;> cases heq
    | other _ _ hcompletes ih =>
        intro pre post status opId f value expire heq
        rcases append_singleton_eq heq with ⟨-, hev, -⟩ | ⟨post', -, htrace⟩
        · exact absurd (hev ▸ rfl) hcompletes
        · exact ih pre post' status opId f value expire htrace
    | updated _ ih =>
        intro pre post status opId f value expire heq
        rcases append_singleton_eq heq with ⟨-, hev, -⟩ | ⟨post', -, htrace⟩
        · cases hev
        · exact ih pre post' status opId f value expire htrace
    | deferred _ ih =>
        intro pre post status opId f value expire heq
        rcases append_singleton_eq heq with ⟨-, hev, -⟩ | ⟨post', -, htrace⟩
        · cases hev
        · exact ih pre post' status opId f value expire htrace
    | completed h ih =>
        intro pre post status opId f value expire heq
        rcases append_singleton_eq heq with ⟨-, hev, rfl⟩ | ⟨post', -, htrace⟩
        · cases hev
          exact ⟨rfl, h.last _ _ _ rfl⟩
        · exact ih pre post' status opId f value expire htrace
  undisturbed := by
    induction h with
    | nil =>
        intro pre mid post opId f value event heq
        cases pre <;> cases heq
    | @other trace w last _ haccepts _ ih =>
        intro pre mid post opId f value event heq hevent
        rw [← List.cons_append, ← List.append_assoc] at heq
        rcases append_singleton_eq heq with ⟨-, rfl, -⟩ | ⟨post', -, htrace⟩
        · exact absurd hevent haccepts
        · exact ih pre mid post' opId f value event (by rw [htrace]; simp) hevent
    | updated h ih =>
        intro pre mid post opId f value event heq hevent
        rw [← List.cons_append, ← List.append_assoc] at heq
        rcases append_singleton_eq heq with ⟨-, -, htrace⟩ | ⟨post', -, htrace⟩
        · exact h.done rfl pre mid opId f value htrace.symm
        · exact ih pre mid post' opId f value event (by rw [htrace]; simp) hevent
    | deferred h ih =>
        intro pre mid post opId f value event heq hevent
        rw [← List.cons_append, ← List.append_assoc] at heq
        rcases append_singleton_eq heq with ⟨-, -, htrace⟩ | ⟨post', -, htrace⟩
        · exact h.done rfl pre mid opId f value htrace.symm
        · exact ih pre mid post' opId f value event (by rw [htrace]; simp) hevent
    | completed _ ih =>
        intro pre mid post opId f value event heq hevent
        rw [← List.cons_append, ← List.append_assoc] at heq
        rcases append_singleton_eq heq with ⟨-, rfl, -⟩ | ⟨post', -, htrace⟩
        · cases hevent
        · exact ih pre mid post' opId f value event (by rw [htrace]; simp) hevent

/-! ## Elements -/

/-- The update an element holds back. -/
def CacheElement.pending (e : CacheElement T H) : Option (UInt32 × H × T) :=
  match e.state.currentState, e.call, e.tempValue with
  | .kCacheUpdateProtected, some f, some value => some (e.state.opId, f, value)
  | _, _, _ => none

/-- Only an UpdateProtected element holds an update back. -/
theorem CacheElement.pending_of_ne {e : CacheElement T H}
    (h : e.state.currentState ≠ .kCacheUpdateProtected) : e.pending = none := by
  unfold CacheElement.pending
  split
  · rename_i hstate _ _
    exact absurd hstate h
  · rfl

/-- What an UpdateProtected element holds back. -/
theorem CacheElement.pending_of_waits {e : CacheElement T H}
    (h : e.state.currentState = .kCacheUpdateProtected) {f : H} {value : T}
    (hf : e.call = some f) (hv : e.tempValue = some value) :
    e.pending = some (e.state.opId, f, value) := by
  unfold CacheElement.pending
  rw [h, hf, hv]

/-- The history of every id is orderly, and its element holds back the update that waits. -/
def InOrder (mem : CenterMem T H τ) : Prop :=
  ∀ cacheId, Orderly cacheId mem.trace ((mem.map cacheId).bind CacheElement.pending)

/-- The events of the other ids do not disturb the history of this one. -/
theorem Orderly.others {cacheId : UInt64} {trace events : List (Event T H)}
    {w : Option (UInt32 × H × T)} (h : Orderly cacheId trace w)
    (hevents : ∀ event ∈ events, ¬ event.Accepts cacheId ∧ ¬ event.Completes cacheId) :
    Orderly cacheId (trace ++ events) w := by
  induction events generalizing trace with
  | nil => rwa [List.append_nil]
  | cons event events ih =>
      have hhead := hevents event List.mem_cons_self
      rw [← List.singleton_append, ← List.append_assoc]
      exact ih (h.other hhead.1 hhead.2) fun e he => hevents e (List.mem_cons_of_mem event he)

/-- A step that assigns one element is in order when its events are about this element and are in
order for it. -/
theorem InOrder.assign {mem mem' : CenterMem T H τ} (h : InOrder mem) (cacheId : UInt64)
    (e' : CacheElement T H) (events : List (Event T H))
    (hmap : mem'.map = Function.update mem.map cacheId (some e'))
    (htrace : mem'.trace = mem.trace ++ events)
    (hother : ∀ id, id ≠ cacheId → ∀ event ∈ events, ¬ event.Accepts id ∧ ¬ event.Completes id)
    (hself : Orderly cacheId (mem.trace ++ events) e'.pending) : InOrder mem' := by
  intro id
  rw [hmap, htrace]
  by_cases hid : id = cacheId
  · subst hid
    rw [Function.update_self]
    exact hself
  · rw [Function.update_of_ne hid]
    exact (h id).others (hother id hid)

variable {env : Env} {p p' : Center T H F τ}

/-- Where the element holds nothing back, the history of the id says so. -/
theorem InOrder.nothing {mem : CenterMem T H τ} (h : InOrder mem) (cacheId : UInt64)
    (hnone : ∀ e, mem.map cacheId = some e → e.state.currentState ≠ .kCacheUpdateProtected) :
    Orderly cacheId mem.trace none := by
  have := h cacheId
  rcases he : mem.map cacheId with _ | e
  · rwa [he] at this
  · rw [he, Option.bind_some, CacheElement.pending_of_ne (hnone e he)] at this
    exact this

/-- An element that is not UpdateProtected has no update waiting. -/
theorem InOrder.nothing_of_mem {mem : CenterMem T H τ} (h : InOrder mem) {cacheId : UInt64}
    {e : CacheElement T H} (he : mem.map cacheId = some e)
    (hstate : e.state.currentState ≠ .kCacheUpdateProtected) : Orderly cacheId mem.trace none := by
  refine h.nothing cacheId fun e₀ he₀ => ?_
  rw [he] at he₀
  cases he₀
  exact hstate

/-! ## Operations -/

/-- A read accepts no update and completes none. -/
theorem InOrder.readOp {cacheId : UInt64} {opId : UInt32}
    {r : Except Thrown (OpResult × Option (Int × T)) × Center T H F τ} (h : InOrder p.mem)
    (hr : ReadOp env cacheId opId p r) : InOrder r.2.mem := by
  cases hr with
  | absent he => exact h
  | @renewed e m s he hm hs =>
      have hstate : e.state.currentState ≠ .kCacheUpdateProtected := by
        rcases hm with ⟨hg, -⟩ | ⟨hg, -⟩ <;> rw [hg] <;> decide
      have hself := h.nothing_of_mem he hstate
      refine h.assign cacheId _ _ rfl rfl (fun id _ event hmem => ?_) ?_
      · rw [List.mem_singleton.mp hmem]
        exact ⟨fun h => h, fun h => h⟩
      · rw [CacheElement.pending_of_ne]
        · exact hself.other (fun h => h) fun h => h
        · rw [hs]
          simp
  | @unleased e he hstate => exact fun id => (h id).other (fun h => h) fun h => h

/-- An update is accepted where none waits. -/
theorem InOrder.updateOp [Inhabited T] {cacheId : UInt64} {value : T} {opId : UInt32} {f : H}
    {r : Except Thrown (OpResult × Int) × Center T H F τ} (h : InOrder p.mem)
    (hr : UpdateOp env cacheId value opId f p r) : InOrder r.2.mem := by
  cases hr with
  | @assigned e s he hstate hs =>
      have hself := h.nothing cacheId fun e₀ he₀ => by
        rcases he with he | ⟨he, -⟩ <;> rw [he] at he₀ <;> cases he₀
        rw [hstate]
        decide
      refine h.assign cacheId _ _ rfl rfl (fun id hid event hmem => ?_) ?_
      · rw [List.mem_singleton.mp hmem]
        exact ⟨fun heq => hid heq.symm, fun h => h⟩
      · rw [CacheElement.pending_of_ne]
        · exact hself.updated
        · rw [hs]
          simp
  | refused he hstate h0 => exact h
  | @overdue e he hstate h0 hdelay =>
      have hself := h.nothing_of_mem he (by rw [hstate]; decide)
      refine h.assign cacheId _ [] rfl (List.append_nil _).symm (fun id hid event hmem => ?_) ?_
      · cases hmem
      · rw [CacheElement.pending_of_ne, List.append_nil]
        · exact hself
        · show e.state.currentState ≠ _
          rw [hstate]
          decide
  | @deferred e s he hstate h0 hdelay hs =>
      have hself := h.nothing_of_mem he (by rw [hstate]; decide)
      have hs₁ : s.1.currentState = .kCacheUpdateProtected ∧ s.1.opId = opId := by
        rw [hs]
        exact ⟨rfl, protect_opId env _ _ _⟩
      refine h.assign cacheId _ _ rfl rfl (fun id hid event hmem => ?_) ?_
      · rw [List.mem_singleton.mp hmem]
        exact ⟨fun heq => hid heq.symm, fun h => h⟩
      · rw [CacheElement.pending_of_waits hs₁.1 rfl rfl, hs₁.2]
        exact hself.deferred
  | retried he hstate h0 => exact fun id => (h id).other (fun h => h) fun h => h

/-- The callback of a live timer completes the update that waits, or touches none. -/
theorem InOrder.runTimer {hooks : Hooks T H F τ} {t : EventTimer (TimerCall F)}
    {r : Option Thrown × Center T H F τ} (h : InOrder p.mem) (hsound : Sound env p)
    (ht : t ∈ p.rt.queue) (hlive : t.repeat_ ≠ 0) (hr : RunTimer env hooks p t.callback r) :
    InOrder r.2.mem := by
  generalize hcall : t.callback = call at hr
  cases hr with
  | absent howner he => exact h
  | @idled cacheId e he =>
      have hg := (hsound.owner ht hlive (by rw [hcall]; rfl) he).guaranteed hcall
      have hself := h.nothing_of_mem he (by rw [hg]; decide)
      refine h.assign cacheId _ [] rfl (List.append_nil _).symm (fun id hid event hmem => ?_) ?_
      · cases hmem
      · rw [CacheElement.pending_of_ne, List.append_nil]
        · exact hself
        · exact fun hstate => nomatch hstate
  | @completed cacheId e f s p' r he hs hf hp hinv =>
      obtain ⟨-, -, -, f', value, hf', hv⟩ := hsound.waiting ht hlive hcall he
      have hstate := (hsound.owner ht hlive (by rw [hcall]; rfl) he).updateProtected hcall
      have hself := h cacheId
      rw [he, Option.bind_some, CacheElement.pending_of_waits hstate hf hv] at hself
      subst hp
      refine h.assign cacheId (e.taken hooks.unspecified s.1)
        [.moved cacheId e.call e.tempValue,
          .completed cacheId .kOperationOk e.state.opId f (e.tempValue.getD hooks.unspecified)
            s.1.expireTime] ?_ ?_ (fun id hid event hmem => ?_) ?_
      · rw [hs]
        rfl
      · simp
      · rcases List.mem_cons.mp hmem with rfl | hmem
        · exact ⟨fun h => h, fun h => h⟩
        · rw [List.mem_singleton.mp hmem]
          exact ⟨fun h => h, fun heq => hid heq.symm⟩
      · rw [CacheElement.pending_of_ne, hv, ← List.singleton_append, ← List.append_assoc]
        · exact Orderly.completed (hself.other (fun h => h) fun h => h)
        · rw [hs]
          simp [CacheElement.taken]
  | noCall he hf => exact absurd hf (hsound.handlers ht hlive hcall he).2
  | unbound he hnone => exact absurd hnone (hsound.handlers ht hlive hcall he).1
  | @foreign f r hinv => exact h

/-! ## Runs -/

section runs

variable {hooks : Hooks T H F τ}

/-- A completion that `tick` fires completes the update that waits. -/
theorem InOrder.tickIter (h : InOrder p.mem) (hsound : Sound env p)
    {r : Iter (Center T H F τ)} (hr : TickIter env (CacheSystem.runTimer env hooks) p r) :
    InOrder r.state.mem := by
  have hlocked : Sound env { p with rt := p.rt.readClock.lock } :=
    hsound.of_same rfl (Nat.le_succ _) rfl
  cases hr with
  | empty hq => exact h
  | notDue hq hdue => exact h
  | dead hq hdue h0 hperm => exact h
  | @threw t rest e p₁ hq hdue h0 hrun =>
      have ht : t ∈ p.rt.queue := by rw [hq]; exact List.mem_cons_self
      exact InOrder.runTimer (p := { p with rt := p.rt.readClock.lock }) h hlocked ht h0
        (.of_eq hrun)
  | @fired t rest p₁ hq hdue h0 hrun =>
      have ht : t ∈ p.rt.queue := by rw [hq]; exact List.mem_cons_self
      exact InOrder.runTimer (p := { p with rt := p.rt.readClock.lock }) h hlocked ht h0
        (.of_eq hrun)

/-- **A turn keeps the histories orderly.** -/
theorem InOrder.step [Inhabited T] (h : InOrder p.mem) (hsound : Sound env p)
    (hb : hooks.Benign env) (hquiet : hooks.Quiet) {op : Op T H}
    (hstep : p.step env hooks op = some p') : InOrder p'.mem := by
  cases op with
  | read cacheId opId =>
      cases hstep
      exact h.readOp (readOp_spec env cacheId opId p)
  | update cacheId value opId f =>
      cases hstep
      exact h.updateOp (updateOp_spec env cacheId value opId f p)
  | tick fuel =>
      obtain ⟨r, hr, rfl⟩ := Option.map_eq_some_iff.mp hstep
      refine (tickLoop_induct (fun q => Sound env q ∧ InOrder q.mem) ?_ fuel p r.1 r.2
        ⟨hsound, h⟩ hr).2
      rintro q i ⟨hq, hin⟩ hi
      exact ⟨(hq.tickIter hb hi (hq.othersThrow hquiet hi)).1, hin.tickIter hq hi⟩

/-- In every run that meets `Prompt` the history is orderly. -/
theorem inOrder_of_reachable [Inhabited T] (hb : hooks.Benign env) (hquiet : hooks.Quiet)
    (h : Reachable env hooks (Prompt env) p) : InOrder p.mem := by
  induction h with
  | initial outer => exact fun _ => .nil
  | step op hreach _ hstep ih =>
      exact ih.step (sound_of_reachable hb hquiet hreach).1 hb hquiet hstep

/-- What is asked of deferred updates, over the runs whose steps meet `ok`. -/
def DeferredSafe [Inhabited T] (env : Env) (hooks : Hooks T H F τ)
    (ok : Center T H F τ → Op T H → Prop) : Prop :=
  ∀ p, Reachable env hooks ok p → ∀ cacheId, WellCompleted cacheId p.mem.trace

/-- **Deferred updates are completed by themselves** in every run whose operations are `Prompt`,
with handlers that do not throw. -/
theorem deferredSafe_of_prompt [Inhabited T] (hb : hooks.Benign env) (hquiet : hooks.Quiet) :
    DeferredSafe env hooks (Prompt env) :=
  fun _ h cacheId => (inOrder_of_reachable hb hquiet h cacheId).wellCompleted

end runs

/-- Two updates of one id within one lease, as a case of `deferredSafe_of_prompt`. -/
theorem deferredSafe_of_prompt_two :
    ∃ p : Center Nat Unit Empty Unit, (Center.initial ()).run stillClock (Hooks.silent 0)
        [.update 1 5 1 (), .update 1 7 2 ()] = some p ∧
      .deferred 1 2 () 7 ∈ p.mem.trace ∧ WellCompleted 1 p.mem.trace := by
  have hreach₁ : Reachable stillClock (Hooks.silent 0) (Prompt stillClock)
      ((Center.initial () : Center Nat Unit Empty Unit).updateOp stillClock 1 5 1 ()).2 :=
    .step (.update 1 5 1 ()) (.initial ()) (fun e he => by cases he) rfl
  have hprompt₂ : Prompt stillClock
      ((Center.initial () : Center Nat Unit Empty Unit).updateOp stillClock 1 5 1 ()).2
      (.update 1 7 2 ()) := by
    intro e he _ _ _
    obtain rfl := Option.some.inj he
    decide
  refine ⟨_, rfl, by decide, ?_⟩
  exact deferredSafe_of_prompt (Hooks.silent_benign stillClock 0) (Hooks.silent_quiet 0) _
    (.step (.update 1 7 2 ()) hreach₁ hprompt₂ rfl) 1

/-- A read that finds its element overdue leaves the old timer queued. After the next update was
deferred, the old timer makes the element Idle, and a third update is assigned at once. -/
theorem not_deferredSafe :
    ¬ DeferredSafe lateClock (Hooks.silent 0 : Hooks Nat Unit Empty Unit) fun _ _ => True := by
  intro h
  obtain ⟨p, hrun, htrace⟩ : ∃ p, (Center.initial ()).run lateClock
      (Hooks.silent 0 : Hooks Nat Unit Empty Unit)
      [.update 1 5 1 (), .read 1 2, .update 1 7 3 (), .tick 2, .update 1 9 4 ()] = some p ∧
      p.mem.trace = [.updated 1 1 () 5 10000, .read 1 20000 5, .deferred 1 3 () 7,
        .updated 1 4 () 9 20001] :=
    ⟨_, rfl, by decide⟩
  have hreach := Reachable.run (fun _ _ => trivial) (Reachable.initial ()) hrun
  obtain ⟨done, hmem, -⟩ := (h p hreach 1).undisturbed
    [.updated 1 1 () 5 10000, .read 1 20000 5] [] [] 3 () 7 (.updated 1 4 () 9 20001)
    (by rw [htrace]; rfl) rfl
  cases hmem

end CacheSystem

import CacheSystem.Deferred
import CacheSystem.QueueOrder
import CacheSystem.Refinement

/-!
# How long an update waits (`cache_data_center.h`, `timer_queue.cc`)

An update that is deferred is written by the timer of its element, so nothing but `tick` decides when.
The timer is due at most a whole lease after the update was taken in, no operation puts it off, and
a `tick` that returns has run whatever was due at its last reading. So an update waits for one lease
and for the next `tick` that returns, and no longer. That the timer acquires the mutex that `tick`
holds is the matter of `Reentrancy`; here the acquisition succeeds.

* `minHeap_of_reachable` : the queue is a heap in every run, whatever leases, handlers and other
  owners of timers do to it.
* `Orderly.waits` : in a history a deferred update is completed, or it is the one that waits.
* `DueBy` : the timers that complete the update are due by a given time.
* `completed_of_late` : the bound.
-/

namespace CacheSystem

open Relation

variable {T H F τ : Type} {env : Env} {p p' : Center T H F τ}

/-! ## The heap -/

/-- Timers of other owners are added in order. -/
theorem MinHeap.addsForeign {rt rt' : Runtime (TimerCall F)} (h : MinHeap rt.queue)
    (hadd : AddsForeign env rt rt') : MinHeap rt'.queue := by
  induction hadd with
  | refl => exact h
  | read _ ih => exact ih
  | add f timeoutMs repeat_ _ ih => exact ih.pushTimer (.foreign f) timeoutMs repeat_

/-- `start_expire` keeps the heap. -/
theorem MinHeap.startExpire {κ φ : Type} {s : CacheStateManager φ × Runtime κ}
    (h : MinHeap s.2.queue) (callBack : κ) (timeoutMs : UInt32) :
    MinHeap (startExpire env callBack timeoutMs s).2.queue := by
  have hstop : MinHeap (stopExpire env s).2.queue := by
    rcases (stopExpire_spec env s).queue with ⟨-, -, hq⟩ | ⟨-, hq⟩
    · rw [hq]
      exact h.delTimer s.1.timerId
    · rw [hq]
      exact h
  have hread : MinHeap (stopExpire env s).2.readClock.queue := hstop
  exact hread.pushTimer callBack timeoutMs 1

section heap

variable {hooks : Hooks T H F τ}

/-- **The callbacks of the data center keep the heap.** -/
theorem runTimer_keepsHeap (hb : hooks.Benign env) : KeepsHeap (runTimer env hooks) := by
  intro callback p h
  have hspec := runTimer_spec env hooks callback p
  generalize runTimer env hooks callback p = r at hspec
  cases hspec with
  | absent howner he => exact h
  | idled he => exact h
  | @completed cacheId e f s p' r he hs hf hp hinv =>
      have hadd := hb.invoke f .kOperationOk e.state.opId s.1.expireTime p'.outer
      rw [← hinv] at hadd
      subst hp
      have hguarantee : MinHeap (startExpire env (closures cacheId).guaranteed
          kDefaultExpireMillisecond (e.state, p.rt)).2.queue :=
        MinHeap.startExpire (s := (e.state, p.rt)) h _ _
      exact MinHeap.addsForeign hguarantee hadd
  | noCall he hf => exact MinHeap.startExpire (s := (_, p.rt)) h _ _
  | unbound he hcall => exact MinHeap.startExpire (s := (_, p.rt)) h _ _
  | @foreign f r hinv =>
      have hadd := hb.foreign f (Center.outer p)
      rw [← hinv] at hadd
      exact MinHeap.addsForeign h hadd

/-- A read keeps the heap. -/
theorem MinHeap.readOp {cacheId : UInt64} {opId : UInt32}
    {r : Except Thrown (OpResult × Option (Int × T)) × Center T H F τ} (h : MinHeap p.rt.queue)
    (hr : ReadOp env cacheId opId p r) : MinHeap r.2.rt.queue := by
  cases hr with
  | absent he => exact h
  | renewed he hm hs =>
      subst hs
      exact MinHeap.startExpire (s := (_, p.rt)) h _ _
  | unleased he hstate => exact h

/-- An update keeps the heap. -/
theorem MinHeap.updateOp [Inhabited T] {cacheId : UInt64} {value : T} {opId : UInt32} {f : H}
    {r : Except Thrown (OpResult × Int) × Center T H F τ} (h : MinHeap p.rt.queue)
    (hr : UpdateOp env cacheId value opId f p r) : MinHeap r.2.rt.queue := by
  cases hr with
  | assigned he hstate hs =>
      subst hs
      exact MinHeap.startExpire (s := (_, p.rt)) h _ _
  | refused he hstate h0 => exact h
  | overdue he hstate h0 hdelay => exact h
  | deferred he hstate h0 hdelay hs =>
      subst hs
      exact MinHeap.startExpire (s := (_, p.rt.readClock)) h _ _
  | retried he hstate h0 => exact h

/-- **The queue is a heap in every run of a data center.** -/
theorem minHeap_of_reachable [Inhabited T] (hb : hooks.Benign env)
    {ok : Center T H F τ → Op T H → Prop} (h : Reachable env hooks ok p) :
    MinHeap p.rt.queue := by
  induction h with
  | initial outer => exact minHeap_nil
  | step op _ _ hstep ih =>
      cases op with
      | read cacheId opId =>
          cases hstep
          exact ih.readOp (readOp_spec env cacheId opId _)
      | update cacheId value opId f =>
          cases hstep
          exact ih.updateOp (updateOp_spec env cacheId value opId f _)
      | tick fuel =>
          obtain ⟨⟨e, q⟩, ht, rfl⟩ := Option.map_eq_some_iff.mp hstep
          exact tickLoop_keeps (P := fun q => MinHeap q.rt.queue)
            (fun q hq => hq.tickIter env (runTimer_keepsHeap hb)) ht ih

end heap

/-! ## Histories -/

/-- **A deferred update was completed, or it waits.** -/
theorem Orderly.waits {cacheId : UInt64} {trace : List (Event T H)} {w : Option (UInt32 × H × T)}
    (h : Orderly cacheId trace w) : ∀ pre post opId f value,
      trace = pre ++ .deferred cacheId opId f value :: post →
        (∃ expire, .completed cacheId .kOperationOk opId f value expire ∈ post) ∨
          w = some (opId, f, value) := by
  induction h with
  | nil =>
      intro pre post opId f value htrace
      cases pre <;> cases htrace
  | @other trace w event h haccepts hcompletes ih =>
      intro pre post opId f value htrace
      rcases append_singleton_eq htrace with ⟨-, rfl, -⟩ | ⟨post', rfl, hbefore⟩
      · exact absurd rfl haccepts
      · exact (ih pre post' opId f value hbefore).imp_left fun ⟨expire, hdone⟩ =>
          ⟨expire, List.mem_append_left _ hdone⟩
  | updated h ih =>
      intro pre post opId f value htrace
      rcases append_singleton_eq htrace with ⟨-, heq, -⟩ | ⟨post', rfl, hbefore⟩
      · cases heq
      · rcases ih pre post' opId f value hbefore with ⟨expire, hdone⟩ | hnone
        · exact Or.inl ⟨expire, List.mem_append_left _ hdone⟩
        · cases hnone
  | deferred h ih =>
      intro pre post opId f value htrace
      rcases append_singleton_eq htrace with ⟨-, heq, -⟩ | ⟨post', rfl, hbefore⟩
      · cases heq
        exact Or.inr rfl
      · rcases ih pre post' opId f value hbefore with ⟨expire, hdone⟩ | hnone
        · exact Or.inl ⟨expire, List.mem_append_left _ hdone⟩
        · cases hnone
  | completed h ih =>
      intro pre post opId f value htrace
      rcases append_singleton_eq htrace with ⟨-, heq, -⟩ | ⟨post', rfl, hbefore⟩
      · cases heq
      · rcases ih pre post' opId f value hbefore with ⟨expire, hdone⟩ | hsame
        · exact Or.inl ⟨expire, List.mem_append_left _ hdone⟩
        · cases hsame
          exact Or.inl ⟨_, List.mem_append_right _ (List.mem_singleton_self _)⟩

/-- A callback takes nothing back of the history. -/
theorem RunTimer.trace_prefix {hooks : Hooks T H F τ} {call : TimerCall F}
    {r : Option Thrown × Center T H F τ} (hr : RunTimer env hooks p call r) :
    p.mem.trace <+: r.2.mem.trace := by
  cases hr with
  | absent howner he => exact List.prefix_rfl
  | idled he => exact List.prefix_rfl
  | completed he hs hf hp hinv =>
      subst hp
      exact ⟨_, (List.append_assoc _ _ _).symm⟩
  | noCall he hf => exact List.prefix_append _ _
  | unbound he hcall => exact List.prefix_rfl
  | foreign hinv => exact List.prefix_rfl

/-- A read rewrites no history. -/
theorem ReadOp.trace_prefix {cacheId : UInt64} {opId : UInt32}
    {r : Except Thrown (OpResult × Option (Int × T)) × Center T H F τ}
    (hr : ReadOp env cacheId opId p r) : p.mem.trace <+: r.2.mem.trace := by
  cases hr with
  | absent he => exact List.prefix_rfl
  | renewed he hm hs => exact List.prefix_append _ _
  | unleased he hstate => exact List.prefix_append _ _

/-- An update rewrites no history. -/
theorem UpdateOp.trace_prefix [Inhabited T] {cacheId : UInt64} {value : T} {opId : UInt32} {f : H}
    {r : Except Thrown (OpResult × Int) × Center T H F τ}
    (hr : UpdateOp env cacheId value opId f p r) : p.mem.trace <+: r.2.mem.trace := by
  cases hr with
  | assigned he hstate hs => exact List.prefix_append _ _
  | refused he hstate h0 => exact List.prefix_rfl
  | overdue he hstate h0 hdelay => exact List.prefix_rfl
  | deferred he hstate h0 hdelay hs => exact List.prefix_append _ _
  | retried he hstate h0 => exact List.prefix_append _ _

/-! ## Deadlines -/

/-- The timers that complete an update of this id are due by `deadline`. -/
def DueBy (cacheId : UInt64) (deadline : Int) (q : List (EventTimer (TimerCall F))) : Prop :=
  ∀ t ∈ q, t.repeat_ ≠ 0 → t.callback = .updateProtected cacheId → t.expireTime ≤ deadline

/-- A new timer for something else leaves the timers that complete an update as they are. -/
theorem DueBy.startExpire {cacheId : UInt64} {deadline : Int}
    {s : CacheStateManager Unit × Runtime (TimerCall F)} (h : DueBy cacheId deadline s.2.queue)
    (callBack : TimerCall F) (hne : callBack ≠ .updateProtected cacheId) (timeoutMs : UInt32) :
    DueBy cacheId deadline (startExpire env callBack timeoutMs s).2.queue := by
  obtain ⟨timer, base, hs⟩ := startExpire_spec env callBack timeoutMs s
  intro t ht hlive hcall
  rcases List.mem_cons.mp (hs.queue.mem_iff.mp ht) with rfl | ht
  · exact absurd (hs.callback.symm.trans hcall) hne
  · exact h t (hs.mem_of_live ht hlive) hlive hcall

/-- A read arms no timer that completes an update. -/
theorem DueBy.readOp {cacheId id : UInt64} {deadline : Int} {opId : UInt32}
    {r : Except Thrown (OpResult × Option (Int × T)) × Center T H F τ}
    (h : DueBy cacheId deadline p.rt.queue) (hr : ReadOp env id opId p r) :
    DueBy cacheId deadline r.2.rt.queue := by
  cases hr with
  | absent he => exact h
  | @renewed e m s he hm hs =>
      subst hs
      exact DueBy.startExpire (s := (m, p.rt)) h (.guaranteed id) (by simp) _
  | unleased he hstate => exact h

/-- An update of another id, or one that is not deferred. -/
theorem DueBy.updateOp [Inhabited T] {cacheId id : UInt64} {deadline : Int} {value : T}
    {opId : UInt32} {f : H} {r : Except Thrown (OpResult × Int) × Center T H F τ}
    (h : DueBy cacheId deadline p.rt.queue)
    (hid : ∀ e, p.mem.map id = some e → e.state.currentState = .kCacheGuaranteed → id ≠ cacheId)
    (hr : UpdateOp env id value opId f p r) : DueBy cacheId deadline r.2.rt.queue := by
  cases hr with
  | @assigned e s he hstate hs =>
      subst hs
      exact DueBy.startExpire (s := (e.state, p.rt)) h (.guaranteed id) (by simp) _
  | refused he hstate h0 => exact h
  | overdue he hstate h0 hdelay => exact h
  | @deferred e s he hstate h0 hdelay hs =>
      subst hs
      refine DueBy.startExpire (s := (_, p.rt.readClock)) h (.updateProtected id)
        (fun heq => ?_) _
      cases heq
      exact hid e he hstate rfl
  | retried he hstate h0 => exact h

/-- The timers after an update was deferred are due a whole lease later. -/
theorem DueBy.deferred [Inhabited T] {cacheId : UInt64} {value : T} {opId : UInt32} {f : H}
    {expire : Int} {p₁ : Center T H F τ} (h : Sound env p)
    (hprompt : Prompt env p (.update cacheId value opId f))
    (hr : UpdateOp env cacheId value opId f p (.ok (.kOperationDefer, expire), p₁)) :
    DueBy cacheId (p₁.rt.now env + 10000) p₁.rt.queue ∧
      p₁.mem.trace = p.mem.trace ++ [.deferred cacheId opId f value] := by
  generalize hanswer : (Except.ok (OpResult.kOperationDefer, expire), p₁) = r at hr
  cases hr with
  | assigned he hstate hs => cases hanswer
  | refused he hstate h0 => cases hanswer
  | overdue he hstate h0 hdelay => cases hanswer
  | retried he hstate h0 => cases hanswer
  | @deferred e s he hstate h0 hdelay hs =>
      cases hanswer
      refine ⟨fun t ht hlive hcall => ?_, rfl⟩
      have hne : e.state.currentState ≠ .kCacheIdle := by rw [hstate]; decide
      have hlt : p.rt.now env < e.state.expireTime :=
        lt_of_le_of_lt (env.mono (Nat.le_succ _)) (hprompt e he hstate h0 hdelay)
      have hleft := (timerDelay_exact env (e.state, p.rt) hlt (h.bounded cacheId e he hne)).2
      obtain ⟨timer, base, hre⟩ := startExpire_spec env (closures cacheId).updateProtected
        (UInt32.ofNat (timerDelay env (e.state, p.rt)).toNat)
        ((e.state.setOpId opId).setCallHandle (some ()), p.rt.readClock)
      subst hs
      rcases List.mem_cons.mp (hre.queue.mem_iff.mp ht) with rfl | ht
      · have hbounded := h.bounded cacheId e he hne
        have hdue := hre.timer_expireTime_le
        rw [hleft] at hdue
        have hlease : e.state.expireTime - p.rt.now env ≤ 10000 := by omega
        exact hdue.trans (Int.add_le_add_left hlease _)
      · -- the lease that the update found is the only live expiry of the element
        have hm := h.owner (hre.mem_of_live ht hlive) hlive (by rw [hcall]; rfl) he
        have hwaits := hm.updateProtected hcall
        rw [hstate] at hwaits
        cases hwaits

/-! ## Runs -/

section runs

variable [Inhabited T] {hooks : Hooks T H F τ} {pre : List (Event T H)} {cacheId : UInt64}
  {opId : UInt32} {f : H} {value : T} {deadline : Int}

/-- After the history `pre` the update was deferred, and since then it was completed, or the timers
that complete it are due by `deadline`. -/
def Tended (pre : List (Event T H)) (cacheId : UInt64) (opId : UInt32) (f : H) (value : T)
    (deadline : Int) (p : Center T H F τ) : Prop :=
  ∃ post, p.mem.trace = pre ++ .deferred cacheId opId f value :: post ∧
    ((∃ expire, .completed cacheId .kOperationOk opId f value expire ∈ post) ∨
      DueBy cacheId deadline p.rt.queue)

omit [Inhabited T] in
/-- The history goes on, and the timers of an update that still waits are no later. -/
theorem Tended.later (h : Tended pre cacheId opId f value deadline p) (ho : InOrder p.mem)
    (htrace : p.mem.trace <+: p'.mem.trace)
    (hdue : (p.mem.map cacheId).bind CacheElement.pending = some (opId, f, value) →
      DueBy cacheId deadline p.rt.queue → DueBy cacheId deadline p'.rt.queue) :
    Tended pre cacheId opId f value deadline p' := by
  obtain ⟨post, hpost, h⟩ := h
  obtain ⟨events, hevents⟩ := htrace
  refine ⟨post ++ events, by rw [← hevents, hpost, List.append_assoc]; rfl, ?_⟩
  rcases (ho cacheId).waits pre post opId f value hpost with ⟨expire, hdone⟩ | hpending
  · exact Or.inl ⟨expire, List.mem_append_left _ hdone⟩
  · rcases h with ⟨expire, hdone⟩ | h
    · exact Or.inl ⟨expire, List.mem_append_left _ hdone⟩
    · exact Or.inr (hdue hpending h)

omit [Inhabited T] in
/-- An iteration of `tick` completes the update, or leaves its timers due by the deadline. -/
theorem Tended.tickIter (h : Tended pre cacheId opId f value deadline p) (hs : Sound env p)
    (ho : InOrder p.mem) (hb : hooks.Benign env) {r : Iter (Center T H F τ)}
    (hr : TickIter env (CacheSystem.runTimer env hooks) p r) :
    Tended pre cacheId opId f value deadline r.state := by
  refine h.later ho ?_ fun _ hdue t ht hlive hcall =>
    hdue t (hr.waits hb hs.armed ht hlive hcall) hlive hcall
  rcases hr.ran with hsame | ⟨t, -, -, q, hrun, hmem⟩
  · simp only [hsame, List.prefix_rfl]
  · rw [hmem]
    exact hrun.trace_prefix

/-- **An operation puts no update off.** -/
theorem Tended.step (h : Tended pre cacheId opId f value deadline p) (hs : Sound env p)
    (ho : InOrder p.mem) (hb : hooks.Benign env) (hquiet : hooks.Quiet) {op : Op T H}
    (hstep : p.step env hooks op = some p') : Tended pre cacheId opId f value deadline p' := by
  cases op with
  | read id opId' =>
      cases hstep
      have hr := readOp_spec env id opId' p
      exact h.later ho hr.trace_prefix fun _ hdue => hdue.readOp hr
  | update id value' opId' f' =>
      cases hstep
      have hr := updateOp_spec env id value' opId' f' p
      refine h.later ho hr.trace_prefix fun hpending hdue => hdue.updateOp (fun e he hstate => ?_) hr
      rintro rfl
      rw [he, Option.bind_some, CacheElement.pending_of_ne (by rw [hstate]; decide)] at hpending
      cases hpending
  | tick fuel =>
      obtain ⟨⟨e, q⟩, ht, rfl⟩ := Option.map_eq_some_iff.mp hstep
      refine (tickLoop_induct (fun q => Sound env q ∧ InOrder q.mem ∧
        Tended pre cacheId opId f value deadline q) (fun q r hq hr => ?_) fuel p e q
        ⟨hs, ho, h⟩ ht).2.2
      exact ⟨(hq.1.tickIter hb hr (hq.1.othersThrow hquiet hr)).1, hq.2.1.tickIter hq.1 hr,
        hq.2.2.tickIter hq.1 hq.2.1 hb hr⟩

omit [Inhabited T] in
/-- A `tick` that returns after the deadline leaves no update that was due by then. -/
theorem DueBy.not_pending (hb : hooks.Benign env) {p₂ p₃ : Center T H F τ}
    (hheap : MinHeap p₂.rt.queue) (ha : Armed p₃.rt.queue p₃.mem.map) {fuel : Nat}
    (htick : tickLoop env (runTimer env hooks) fuel p₂ = some (none, p₃))
    (hlate : deadline ≤ env.reading (p₃.rt.readings - 1))
    (hdue : DueBy cacheId deadline p₃.rt.queue) :
    (p₃.mem.map cacheId).bind CacheElement.pending = none := by
  rcases he : p₃.mem.map cacheId with _ | e
  · rfl
  · refine CacheElement.pending_of_ne fun hstate => ?_
    rcases ha.managers cacheId e he with ⟨hidle, -⟩ | ⟨t, ht, hm⟩
    · rw [hstate] at hidle
      cases hidle
    · have hcall : t.callback = .updateProtected cacheId := by
        have hcallback := hm.callback
        rw [hstate] at hcallback
        exact (Option.some.inj hcallback).symm
      have hlive : t.repeat_ ≠ 0 := by
        rw [hm.repeat_]
        decide
      have hleft := tickLoop_returned (runTimer_keepsHeap hb) hheap htick t ht
      exact absurd (hdue t ht hlive hcall) (not_le_of_gt (lt_of_le_of_lt hlate hleft))

/-- Any number of operations put no update off. -/
theorem Tended.steps (hb : hooks.Benign env) (hquiet : hooks.Quiet)
    (h : Tended pre cacheId opId f value deadline p) (hp : Reachable env hooks (Prompt env) p)
    (hsteps : ReflTransGen (centerMachine env hooks).next p p') :
    Reachable env hooks (Prompt env) p' ∧ Tended pre cacheId opId f value deadline p' := by
  induction hsteps with
  | refl => exact ⟨hp, h⟩
  | tail _ hnext ih =>
      obtain ⟨op, hprompt, hstep⟩ := hnext
      exact ⟨.step op ih.1 hprompt hstep, ih.2.step (sound_of_reachable hb hquiet ih.1).1
        (inOrder_of_reachable hb hquiet ih.1) hb hquiet hstep⟩

/-- **How long an update waits**: one that was deferred, with the clock at `now` after it, is
completed by the first `tick` that returns with a last reading of `now + 10000` or more, whatever was
called in between and however late the ticks are. -/
theorem completed_of_late (hb : hooks.Benign env) (hquiet : hooks.Quiet)
    {p p₁ p₂ p₃ : Center T H F τ} (h : Reachable env hooks (Prompt env) p)
    (hprompt : Prompt env p (.update cacheId value opId f)) {expire : Int}
    (hdefer : p.updateOp env cacheId value opId f = (.ok (.kOperationDefer, expire), p₁))
    (hrun : ReflTransGen (centerMachine env hooks).next p₁ p₂) {fuel : Nat}
    (htick : tickLoop env (runTimer env hooks) fuel p₂ = some (none, p₃))
    (hlate : p₁.rt.now env + 10000 ≤ env.reading (p₃.rt.readings - 1)) :
    ∃ post expire', p₃.mem.trace = p₁.mem.trace ++ post ∧
      .completed cacheId .kOperationOk opId f value expire' ∈ post := by
  have hspec := updateOp_spec env cacheId value opId f p
  rw [hdefer] at hspec
  have h₁ : Reachable env hooks (Prompt env) p₁ :=
    .step (.update cacheId value opId f) h hprompt (by simp only [Center.step, hdefer])
  obtain ⟨hdue, htrace⟩ := DueBy.deferred (sound_of_reachable hb hquiet h).1 hprompt hspec
  have htended : Tended p.mem.trace cacheId opId f value (p₁.rt.now env + 10000) p₁ :=
    ⟨[], htrace, Or.inr hdue⟩
  obtain ⟨h₂, htended⟩ := htended.steps hb hquiet h₁ hrun
  have hstep : p₂.step env hooks (.tick fuel) = some p₃ := by simp only [Center.step, htick]; rfl
  have h₃ : Reachable env hooks (Prompt env) p₃ := .step (.tick fuel) h₂ trivial hstep
  obtain ⟨post, hpost, hended⟩ := htended.step (sound_of_reachable hb hquiet h₂).1
    (inOrder_of_reachable hb hquiet h₂) hb hquiet hstep
  have hdone : ∃ expire', .completed cacheId .kOperationOk opId f value expire' ∈ post := by
    rcases (inOrder_of_reachable hb hquiet h₃ cacheId).waits _ post opId f value hpost with
      hdone | hpending
    · exact hdone
    · refine hended.resolve_right fun hdue => ?_
      rw [hdue.not_pending hb (minHeap_of_reachable hb h₂) (armed_of_reachable hb h₃) htick hlate]
        at hpending
      cases hpending
  obtain ⟨expire', hdone⟩ := hdone
  exact ⟨post, expire', by rw [hpost, htrace, List.append_assoc]; rfl, hdone⟩

end runs

/-- A `tick` that comes too early, and one that comes late, as a case of `completed_of_late`. -/
theorem completed_of_late_tick : ∃ p₁ p₃ : Center Nat Unit Empty Unit,
    p₁.mem.trace = [.updated 1 1 () 5 10000, .deferred 1 2 () 7] ∧
      ∃ post expire', p₃.mem.trace = p₁.mem.trace ++ post ∧
        .completed 1 .kOperationOk 2 () 7 expire' ∈ post := by
  have hupdated : Reachable (jumpClock 7 20000) (Hooks.silent 0) (Prompt (jumpClock 7 20000))
      ((Center.initial () : Center Nat Unit Empty Unit).updateOp (jumpClock 7 20000) 1 5 1 ()).2 :=
    .step (.update 1 5 1 ()) (.initial ()) (fun e he => by cases he) rfl
  have hprompt : Prompt (jumpClock 7 20000)
      ((Center.initial () : Center Nat Unit Empty Unit).updateOp (jumpClock 7 20000) 1 5 1 ()).2
      (.update 1 7 2 ()) := by
    intro e he _ _ _
    obtain rfl := Option.some.inj he
    decide
  obtain ⟨p₁, hdefer, htrace, p₂, hearly, e, p₃, hlate, hreturned, hafter⟩ :
      ∃ p₁, ((Center.initial () : Center Nat Unit Empty Unit).updateOp
          (jumpClock 7 20000) 1 5 1 ()).2.updateOp (jumpClock 7 20000) 1 7 2 () =
            (.ok (.kOperationDefer, 10000), p₁) ∧
        p₁.mem.trace = [.updated 1 1 () 5 10000, .deferred 1 2 () 7] ∧
        ∃ p₂, p₁.step (jumpClock 7 20000) (Hooks.silent 0) (.tick 3) = some p₂ ∧
        ∃ e p₃, tickLoop (jumpClock 7 20000) (runTimer (jumpClock 7 20000) (Hooks.silent 0)) 4 p₂ =
            some (e, p₃) ∧ e = none ∧
          p₁.rt.now (jumpClock 7 20000) + 10000 ≤
            (jumpClock 7 20000).reading (p₃.rt.readings - 1) :=
    ⟨_, rfl, rfl, _, rfl, _, _, rfl, rfl, by decide⟩
  subst hreturned
  exact ⟨p₁, p₃, htrace, completed_of_late (Hooks.silent_benign _ 0) (Hooks.silent_quiet 0)
    hupdated hprompt hdefer (.single ⟨.tick 3, trivial, hearly⟩) hlate hafter⟩

end CacheSystem

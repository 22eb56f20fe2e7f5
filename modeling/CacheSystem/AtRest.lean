import CacheSystem.CenterTurns
import CacheSystem.FiringOrder
import CacheSystem.Reentrancy

/-!
# The server comes to rest

Every request leaves something behind at the server: a lease with its timer, a response that waits for
its acknowledgement, an update that waits. If no more requests come, the ticks clear all of it. No
timer is due later than a lease after the clock, a callback that is not the end of a wait adds no
timer, and a wait that ends leaves no other one behind. So it takes two ticks that are late enough.
As in `Latency` the mutex that `tick` holds can be acquired by its callbacks.

* `Near` : the timers fire once, and are due within a lease; a datagram and an iteration keep that.
* `Waiting` : the waits in the queue, which no iteration adds to.
* `comes_to_rest` : after two such ticks the queue is empty, no lease runs, no update waits, and no
  response waits for its acknowledgement. The entries of `defer_messages_` are the matter of `OpIds`.
-/

namespace CacheSystem

variable {env : Env} {fails : Nat → Bool} {s s' q : Server} {rt : Runtime (TimerCall Nat)}

/-! ## Timers are near -/

/-- The clock as it was read last. -/
def Runtime.lastReading {κ : Type} (env : Env) (rt : Runtime κ) : Int :=
  env.reading (rt.readings - 1)

/-- Every timer fires once at most, and is due within a lease. -/
def Near (env : Env) (rt : Runtime (TimerCall Nat)) : Prop :=
  ∀ t ∈ rt.queue, t.expireTime ≤ rt.lastReading env + 10000 ∧ t.repeat_.toNat ≤ 1

/-- The clock is read, and timers are removed or cancelled. -/
theorem Near.of_subset {rt' : Runtime (TimerCall Nat)} (h : Near env rt)
    (hreadings : rt.readings ≤ rt'.readings)
    (hqueue : ∀ t ∈ rt'.queue, ∃ t₀ ∈ rt.queue, t.expireTime = t₀.expireTime ∧
      t.repeat_.toNat ≤ t₀.repeat_.toNat) : Near env rt' := by
  intro t ht
  obtain ⟨t₀, ht₀, hexpire, hrepeat⟩ := hqueue t ht
  have hlast : rt.lastReading env ≤ rt'.lastReading env :=
    env.mono (Nat.sub_le_sub_right hreadings 1)
  refine ⟨?_, hrepeat.trans (h t₀ ht₀).2⟩
  rw [hexpire]
  exact (h t₀ ht₀).1.trans (Int.add_le_add_right hlast _)

/-- A clock reading brings no timer. -/
theorem Near.readClock (h : Near env rt) : Near env rt.readClock :=
  h.of_subset (Nat.le_succ _) fun t ht => ⟨t, ht, rfl, le_rfl⟩

/-- A cancelled timer fires no more, and its due time stays. -/
theorem Near.delTimer (h : Near env rt) (timerId : Nat) : Near env (delTimer timerId rt) := by
  refine h.of_subset le_rfl fun t ht => ?_
  rw [delTimer_queue] at ht
  obtain ⟨t₀, ht₀, rfl⟩ := List.mem_map.mp ht
  refine ⟨t₀, ht₀, cancel_expireTime timerId t₀, ?_⟩
  unfold EventTimer.cancel
  split
  · exact Nat.zero_le _
  · exact le_rfl

/-- A timer of one firing, 10 seconds at most, is due within a lease. -/
theorem Near.pushTimer (h : Near env rt) (callback : TimerCall Nat) {timeoutMs : UInt32}
    (htimeout : (timeoutMs.toNat : Int) ≤ 10000) :
    Near env (pushTimer env callback timeoutMs 1 rt).2 := by
  intro t ht
  rcases List.mem_cons.mp ((pushTimer_queue_perm env callback timeoutMs 1 rt).mem_iff.mp ht)
    with rfl | ht
  · exact ⟨Int.add_le_add_left htimeout _, le_rfl⟩
  · exact h.readClock t ht

/-- `start_expire` arms a timer that is due within a lease. -/
theorem Near.startExpire {φ : Type} {m : CacheStateManager φ × Runtime (TimerCall Nat)}
    (h : Near env m.2) (callBack : TimerCall Nat) {timeoutMs : UInt32}
    (htimeout : (timeoutMs.toNat : Int) ≤ 10000) :
    Near env (startExpire env callBack timeoutMs m).2 := by
  have hspec := stopExpire_spec env m
  have hstop : Near env (stopExpire env m).2 := by
    rcases hspec.queue with ⟨-, -, hq⟩ | ⟨-, hq⟩
    · refine (h.delTimer m.1.timerId).of_subset hspec.readings_le fun t ht => ?_
      rw [hq] at ht
      exact ⟨t, ht, rfl, le_rfl⟩
    · refine h.of_subset hspec.readings_le fun t ht => ?_
      rw [hq] at ht
      exact ⟨t, ht, rfl, le_rfl⟩
  exact hstop.readClock.pushTimer callBack htimeout

/-- The timer of a lease is due within a lease. -/
theorem Near.guarantee {φ : Type} {m : CacheStateManager φ × Runtime (TimerCall Nat)}
    (h : Near env m.2) (cacheId : UInt64) : Near env (guarantee env (closures cacheId) m).2 :=
  h.startExpire _ (by decide)

/-! ## Datagrams -/

/-- A read arms the timer of a lease at most. -/
theorem Near.readOp (h : Near env s.rt) {cacheId : UInt64} {opId : UInt32}
    {r : Except Thrown (OpResult × Option (Int × CacheData)) × Server}
    (hop : ReadOp env cacheId opId s r) : Near env r.2.rt := by
  cases hop with
  | absent he => exact h
  | @renewed e m s₁ he hm hs =>
      subst hs
      exact Near.guarantee (m := (m, s.rt)) h cacheId
  | unleased he hstate => exact h.readClock

/-- A lease that is not over runs for 10 seconds at most, and so does an update that waits for it. -/
theorem Near.updateOp (h : Near env s.rt) (hs : Sound env s) {cacheId : UInt64} {value : CacheData}
    {opId : UInt32} {f : Request} {r : Except Thrown (OpResult × Int) × Server}
    (hprompt : Prompt env s (.update cacheId value opId f))
    (hop : UpdateOp env cacheId value opId f s r) : Near env r.2.rt := by
  cases hop with
  | @assigned e s₁ he hidle hs₁ =>
      subst hs₁
      exact Near.guarantee (m := (e.state, s.rt)) h cacheId
  | refused he hstate h0 => exact h
  | overdue he hlease h0 hdelay => exact h.readClock
  | @deferred e s₁ he hlease h0 hdelay hs₁ =>
      subst hs₁
      have hne : e.state.currentState ≠ .kCacheIdle := by rw [hlease]; decide
      have hlt : s.rt.now env < e.state.expireTime :=
        lt_of_le_of_lt (env.mono (Nat.le_succ _)) (hprompt e he hlease h0 hdelay)
      have hbounded := hs.bounded cacheId e he hne
      have hleft := (timerDelay_exact env (e.state, s.rt) hlt hbounded).2
      refine Near.startExpire (m := (_, s.rt.readClock)) h.readClock _ ?_
      rw [hleft]
      exact Int.sub_left_le_of_le_add hbounded
  | retried he hstate h0 => exact h

/-- The timer of an acknowledgement is due within a lease. -/
theorem Near.answer {response : CacheMessage} {requester : Address} {p : Rest}
    {r : Option Thrown × Rest} (h : Near env p.rt)
    (hr : Answer env fails response requester p r) : Near env r.2.rt := by
  cases hr with
  | registered hheader hmap hr =>
      rw [hr.tables.1, registerAck_rt]
      exact h.pushTimer _ (by decide)
  | taken hheader hmap hmessage hr =>
      rw [hr.tables.1, refuseAck_rt]
      exact h.pushTimer _ (by decide)

/-- **A datagram that finds no element overdue** adds no timer that is further away. -/
theorem Near.onReceive (h : Near env s.rt) (hs : Sound env s) {sender : Address}
    {data : Option CacheMessage} (htime : ∀ m, data = some m → Timely env s m)
    {r : Option Thrown × Server} (hr : OnReceive env fails sender s data r) : Near env r.2.rt := by
  have hsame : SameCenter s (s.setPeer sender) := ⟨rfl, rfl, rfl⟩
  have hupdate : ∀ {m update r₁}, Timely env s m → m.updateRequest = some update →
      UpdateOp env update.cacheId.toUInt64 update.cacheData m.opId.toUInt32 ⟨m, sender⟩
        (s.setPeer sender) r₁ → Near env r₁.2.rt := fun htimely hupdate hop =>
    Near.updateOp (s := s.setPeer sender) h (hs.of_sameCenter hsame)
      ((htimely.update _ _ hupdate).of_sameCenter hsame) hop
  cases hr with
  | ignored he => exact h
  | @acked m hm =>
      have hspec := unregisterWaitAck_spec m.opId (s.setPeer sender).outer
      generalize unregisterWaitAck m.opId (s.setPeer sender).outer = p at hspec ⊢
      cases hspec with
      | absent hmap => exact h
      | lost hmap hack => exact h
      | erased hmap hack => exact h.delTimer _
  | @read m read ret out s₁ s₂ r hm hread hop hs₂ hr =>
      have hnear : Near env s₁.rt :=
        Near.readOp (s := (s.setPeer sender).setCacheId read.cacheId) h hop
      refine Near.answer (p := s₂.outer) ?_ hr
      subst hs₂
      rcases out with _ | ⟨expire, value⟩ <;> exact hnear
  | updateThrew hm hrequest hop => exact hupdate (htime _ rfl) hrequest hop
  | @deferred m update expire s₁ hm hrequest hop =>
      rw [emplaceDefer_eq]
      exact hupdate (htime _ rfl) hrequest hop
  | @updated m update ret expire s₁ r hm hrequest hret hop hr =>
      exact Near.answer (p := s₁.outer) (hupdate (htime _ rfl) hrequest hop) hr

/-! ## Ticks -/

/-- A timer that still fires has one firing left. -/
theorem Near.fires_once (h : Near env rt) {t : EventTimer (TimerCall Nat)} (ht : t ∈ rt.queue)
    (h0 : t.repeat_ ≠ 0) : t.repeat_ = 1 := by
  have hone := (h t ht).2
  have hpos : t.repeat_.toNat ≠ 0 := fun hzero => h0 (UInt32.toNat_inj.mp hzero)
  exact UInt32.toNat_inj.mp (show t.repeat_.toNat = 1 by omega)

/-- A callback adds a lease and an acknowledgement, or nothing. -/
theorem Near.runTimer (h : Near env s.rt) {call : TimerCall Nat} {r : Option Thrown × Server}
    (hr : RunTimer env (serverHooks env fails) s call r) : Near env r.2.rt := by
  cases hr with
  | absent howner he => exact h
  | idled he => exact h
  | @completed cacheId e f s₁ p' r he hs₁ hf hp hinv =>
      have hspec : UpdateHandle env fails f .kOperationOk e.state.opId s₁.1.expireTime p'.outer r :=
        .of_invoke hinv
      have hlease : Near env p'.outer.rt := by
        subst hp
        exact Near.guarantee (m := (e.state, s.rt)) h cacheId
      cases hspec with
      | refused hret => exact hlease
      | lost hret hdefer => exact hlease
      | answered hret hdefer hr => exact Near.answer (p := p'.outer.takeDefer f _) hlease hr
  | @noCall cacheId e he hf => exact Near.guarantee (m := (e.state, s.rt)) h cacheId
  | @unbound cacheId e he hcall => exact Near.guarantee (m := (e.state, s.rt)) h cacheId
  | @foreign ptr r hinv =>
      have hspec : TimerHandle fails ptr s.outer r := .of_foreign hinv
      have hrt : r.2.rt = s.rt := hspec.tables.1
      show Near env r.2.rt
      rw [hrt]
      exact h

/-- An iteration of `tick` leaves no timer that is due after a lease. -/
theorem Near.tickIter (h : Near env s.rt) (hw : Wired s) {r : Iter Server}
    (hr : TickIter env (CacheSystem.runTimer env (serverHooks env fails)) s r) :
    Near env r.state.rt := by
  have hlocked : Near env s.rt.readClock.lock := h.readClock
  cases hr with
  | empty hq => exact h
  | notDue hq hdue => exact h.readClock
  | @dead t rest q hq hdue h0 hperm =>
      refine h.of_subset (Nat.le_succ _) fun t' ht => ⟨t', ?_, rfl, le_rfl⟩
      rw [hq]
      exact List.mem_cons_of_mem t (hperm.mem_iff.mp ht)
  | @threw t rest e p₁ hq hdue h0 hrun =>
      exact Near.runTimer (s := { s with rt := s.rt.readClock.lock }) hlocked (.of_eq hrun)
  | @fired t rest p₁ hq hdue h0 hrun =>
      have hspec := RunTimer.of_eq hrun
      obtain ⟨rest₁, hq₁⟩ := hspec.front serverHooks_benign hw.armed hq hdue
      have hnear : Near env p₁.rt :=
        Near.runTimer (s := { s with rt := s.rt.readClock.lock }) hlocked hspec
      have hone : t.repeat_ = 1 := hnear.fires_once (hq₁ ▸ List.mem_cons_self) h0
      refine hnear.of_subset (settled_readings_le env p₁.rt) fun t' ht => ⟨t', ?_, rfl, le_rfl⟩
      rw [show p₁.rt.queue = t :: rest₁ from hq₁]
      refine List.mem_cons_of_mem t ((mem_settled hq₁ ht).resolve_right fun hne => ?_)
      exact hne.1 hone

/-- Nor does a whole `tick` leave one. -/
theorem Near.tick (h : Near env s.rt) (hw : Wired s) {fuel : Nat} {e : Option Thrown}
    (htick : tickLoop env (CacheSystem.runTimer env (serverHooks env fails)) fuel s = some (e, q)) :
    Near env q.rt :=
  (tickLoop_induct (fun q => Wired q ∧ Near env q.rt)
    (fun _ _ hp hr => ⟨hp.1.tickIter hr, hp.2.tickIter hp.1 hr⟩) fuel s e q ⟨hw, h⟩ htick).2

/-- The timer ends a wait. -/
def Waiting (t : EventTimer (TimerCall Nat)) : Prop :=
  t.repeat_ ≠ 0 ∧ ∃ cacheId, t.callback = .updateProtected cacheId

/-- **A `tick` adds no wait.** -/
theorem Wired.waits (hw : Wired s) {fuel : Nat} {e : Option Thrown}
    (htick : tickLoop env (CacheSystem.runTimer env (serverHooks env fails)) fuel s = some (e, q)) :
    ∀ t ∈ q.rt.queue, Waiting t → t ∈ s.rt.queue := by
  refine (tickLoop_induct (fun q => Wired q ∧ ∀ t ∈ q.rt.queue, Waiting t → t ∈ s.rt.queue)
    (fun p r hp hr => ⟨hp.1.tickIter hr, ?_⟩) fuel s e q ⟨hw, fun t ht _ => ht⟩ htick).2
  intro t ht hwaits
  obtain ⟨hlive, cacheId, hcall⟩ := hwaits
  exact hp.2 t (hr.waits serverHooks_benign hp.1.armed ht hlive hcall) ⟨hlive, cacheId, hcall⟩

/-- Where nothing waits an iteration adds no timer at all. -/
theorem Near.drains (h : Near env s.rt) (hnone : ∀ t ∈ s.rt.queue, ¬ Waiting t) {r : Iter Server}
    (hr : TickIter env (CacheSystem.runTimer env (serverHooks env fails)) s r) :
    ∀ t ∈ r.state.rt.queue, t ∈ s.rt.queue := by
  have hsame : ∀ {t rest r}, s.rt.queue = t :: rest → t.repeat_ ≠ 0 →
      RunTimer env (serverHooks env fails) { s with rt := s.rt.readClock.lock } t.callback r →
        r.2.rt = s.rt.readClock.lock := by
    intro t rest r hq h0 hr
    refine hr.rt_of_ne fun cacheId hcall => hnone t ?_ ⟨h0, cacheId, hcall⟩
    rw [hq]
    exact List.mem_cons_self
  cases hr with
  | empty hq => exact fun t ht => ht
  | notDue hq hdue => exact fun t ht => ht
  | @dead t rest q hq hdue h0 hperm =>
      intro t' ht
      rw [hq]
      exact List.mem_cons_of_mem t (hperm.mem_iff.mp ht)
  | @threw t rest e p₁ hq hdue h0 hrun =>
      have hrt : p₁.rt = s.rt.readClock.lock := hsame hq h0 (.of_eq hrun)
      intro t' ht
      change t' ∈ p₁.rt.queue at ht
      rw [hrt] at ht
      exact ht
  | @fired t rest p₁ hq hdue h0 hrun =>
      have hrt : p₁.rt = s.rt.readClock.lock := hsame hq h0 (.of_eq hrun)
      have hq₁ : p₁.rt.queue = t :: rest := by rw [hrt]; exact hq
      have hone : t.repeat_ = 1 := h.fires_once (hq ▸ List.mem_cons_self) h0
      intro t' ht
      rw [hq]
      exact List.mem_cons_of_mem t ((mem_settled hq₁ ht).resolve_right fun hne => hne.1 hone)

/-- **A `tick` that completes no update adds no timer.** -/
theorem Near.drained (h : Near env s.rt) (hw : Wired s) (hnone : ∀ t ∈ s.rt.queue, ¬ Waiting t)
    {fuel : Nat} {e : Option Thrown}
    (htick : tickLoop env (CacheSystem.runTimer env (serverHooks env fails)) fuel s = some (e, q)) :
    ∀ t ∈ q.rt.queue, t ∈ s.rt.queue := by
  refine (tickLoop_induct (fun q => Wired q ∧ Near env q.rt ∧ ∀ t ∈ q.rt.queue, t ∈ s.rt.queue)
    (fun p r hp hr => ⟨hp.1.tickIter hr, hp.2.1.tickIter hp.1 hr, fun t ht => ?_⟩) fuel s e q
    ⟨hw, h, fun t ht => ht⟩ htick).2.2
  exact hp.2.2 t (hp.2.1.drains (fun t ht => hnone t (hp.2.2 t ht)) hr t ht)

/-! ## Runs -/

/-- **A punctual turn** leaves no timer that is further away than a lease. -/
theorem Near.step (h : Near env s.rt) (hs : Sound env s) (hw : Wired s) {op : ServerOp}
    (htime : ∀ sender data m, op = .receive sender data → data = some m → Timely env s m)
    (hstep : s.step env fails op = some s') : Near env s'.rt := by
  cases op with
  | receive sender data =>
      cases hstep
      rw [catch_rt]
      exact h.onReceive hs (fun m hm => htime sender data m rfl hm) (onReceive_spec sender data s)
  | tick fuel =>
      obtain ⟨⟨e, p⟩, htick, rfl⟩ := Option.map_eq_some_iff.mp hstep
      rw [catch_rt]
      exact h.tick hw htick

/-- In the runs whose turns are punctual every timer is due within a lease. -/
theorem near_of_punctual
    (h : ServerReachable env fails (fun s op _ => Punctual env fails s op) s) : Near env s.rt := by
  induction h with
  | initial => exact fun t ht => nomatch ht
  | step op hbefore hstep hpunctual ih =>
      refine ih.step (sound_of_punctual hbefore) (wired_of_reachable hbefore) ?_ hstep
      rintro sender data m rfl hm
      exact hpunctual m hm

/-- No timer, no lease, no update that waits and no response that does. -/
structure AtRest (s : Server) : Prop where
  queue : s.rt.queue = []
  elements : ∀ cacheId e, s.mem.map cacheId = some e → e.state.currentState = .kCacheIdle
  acks : ∀ opId, s.mem.outer.map opId = none

/-- A server without timers. -/
theorem Wired.atRest (hw : Wired s) (hqueue : s.rt.queue = []) : AtRest s where
  queue := hqueue
  elements cacheId e he := by
    rcases hw.armed.managers cacheId e he with ⟨hidle, -, -⟩ | ⟨t, ht, -⟩
    · exact hidle
    · rw [hqueue] at ht
      cases ht
  acks opId := by
    rcases hentry : s.mem.outer.map opId with _ | ptr
    · rfl
    · obtain ⟨ack, -, -, -, t, ht, -⟩ := hw.acks.entry opId ptr hentry
      rw [hqueue] at ht
      cases ht

/-- A `tick` that returns a lease later has run all that was in the queue. -/
theorem Near.outlived (h : Near env s.rt) (hheap : MinHeap s.rt.queue) {fuel : Nat}
    (htick : tickLoop env (CacheSystem.runTimer env (serverHooks env fails)) fuel s = some (none, q))
    (hlate : s.rt.lastReading env + 10000 ≤ q.rt.lastReading env) :
    ∀ t ∈ q.rt.queue, t ∉ s.rt.queue := by
  intro t ht hold
  have hleft := tickLoop_returned (runTimer_keepsHeap serverHooks_benign) hheap htick t ht
  exact absurd ((h t hold).1.trans hlate) (not_le_of_gt hleft)

/-- **The server comes to rest**: at whatever state of a run of punctual turns, two ticks that return
without an exception, each a whole lease after the last reading before it, end every lease, complete
every update and empty the queue and the table of acknowledgements. -/
theorem comes_to_rest {s₁ s₂ : Server}
    (h : ServerReachable env fails (fun s op _ => Punctual env fails s op) s) {fuel fuel' : Nat}
    (htick : tickLoop env (runTimer env (serverHooks env fails)) fuel s = some (none, s₁))
    (hlate : s.rt.lastReading env + 10000 ≤ s₁.rt.lastReading env)
    (htick' : tickLoop env (runTimer env (serverHooks env fails)) fuel' s₁ = some (none, s₂))
    (hlate' : s₁.rt.lastReading env + 10000 ≤ s₂.rt.lastReading env) : AtRest s₂ := by
  obtain ⟨fired, hfires⟩ := h.fires
  have hheap := hfires.ordered.heap
  have hwired := wired_of_reachable h
  have hnear := near_of_punctual h
  -- the first tick: no wait is left, since it adds none
  have hwired₁ : Wired s₁ := tickLoop_induct Wired (fun _ _ hw hi => hw.tickIter hi) fuel s none s₁
    hwired htick
  have hheap₁ : MinHeap s₁.rt.queue := tickLoop_keeps (P := fun q => MinHeap q.rt.queue)
    (fun _ hq => hq.tickIter env (runTimer_keepsHeap serverHooks_benign)) htick hheap
  have hnone : ∀ t ∈ s₁.rt.queue, ¬ Waiting t := fun t ht hwaits =>
    hnear.outlived hheap htick hlate t ht (hwired.waits htick t ht hwaits)
  have hnear₁ := hnear.tick hwired htick
  -- the second tick: nothing is added, and nothing is left
  have hwired₂ : Wired s₂ := tickLoop_induct Wired (fun _ _ hw hi => hw.tickIter hi) fuel' s₁ none s₂
    hwired₁ htick'
  refine hwired₂.atRest (List.eq_nil_iff_forall_not_mem.mpr fun t ht => ?_)
  exact hnear₁.outlived hheap₁ htick' hlate' t ht (hnear₁.drained hwired₁ hnone htick' t ht)

/-- A clock on which two ticks are late. -/
abbrev lateTicks : Env := leapClock [(7, 20000), (15, 20000)]

/-- An update that waits, and two late ticks, as a case of `comes_to_rest`. -/
theorem comes_to_rest_two : ∃ s₁ s₂ : Server, s₁.rt.queue.length = 2 ∧ AtRest s₂ := by
  obtain ⟨s, hsecond, s₁, htick, hlate, hqueue, s₂, htick', hlate'⟩ : ∃ s,
      (Server.first lateTicks).step lateTicks (fun _ => false)
        (.receive 7 (some (updateRequestMessage 12 1 [6] 200 0))) = some s ∧
      ∃ s₁, tickLoop lateTicks (runTimer lateTicks (serverHooks lateTicks fun _ => false)) 10 s =
          some (none, s₁) ∧
        s.rt.lastReading lateTicks + 10000 ≤ s₁.rt.lastReading lateTicks ∧
        s₁.rt.queue.length = 2 ∧
      ∃ s₂, tickLoop lateTicks (runTimer lateTicks (serverHooks lateTicks fun _ => false)) 10 s₁ =
          some (none, s₂) ∧
        s₁.rt.lastReading lateTicks + 10000 ≤ s₂.rt.lastReading lateTicks :=
    ⟨_, rfl, _, rfl, by decide, by decide, _, rfl, by decide⟩
  have hfirst : ServerReachable lateTicks (fun _ => false)
      (fun s op _ => Punctual lateTicks (fun _ => false) s op) (Server.first lateTicks) :=
    Server.first_reachable _ fun m hm => by
      cases hm
      exact ⟨fun _ hread => (nomatch hread), fun _ _ _ _ he => (nomatch he)⟩
  refine ⟨s₁, s₂, hqueue, comes_to_rest (hfirst.step _ hsecond fun m hm => ?_) htick hlate htick'
    hlate'⟩
  cases hm
  refine ⟨fun _ hread => (nomatch hread), fun update request hupdate e he _ _ _ => ?_⟩
  cases hupdate
  obtain rfl := Option.some.inj he
  decide

end CacheSystem

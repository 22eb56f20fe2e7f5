import CacheSystem.Latency
import CacheSystem.TickRuns
import CacheSystem.Wiring

/-!
# The order of firings

A timer that is due later is not run before one that is due earlier, over a whole run: what is added
is due after everything that was run, also when a callback adds it, and a callback that throws
leaves its timer in front.

* `Later` : nothing that is due earlier appears in the queue. Whatever the data center and the
  acknowledgements do with the queue is `Later`.
* `Ordered` : what was run was due before what is in the queue.
* `ServerFires` : the runs of the server with the timers that they run.
* `fired_in_order` : they are run in the order of their `expire_time_`.
* `tick_leaves_nothing_due` : a tick that returns has run all that was due.
-/

namespace CacheSystem

variable {κ τ : Type} {env : Env}

/-! ## Nothing earlier -/

/-- The clock goes on, and nothing appears in the queue that is due before all that was there. -/
structure Later (env : Env) (rt rt' : Runtime κ) : Prop where
  readings : rt.readings ≤ rt'.readings
  queue : ∀ bound ≤ rt.now env, (∀ t ∈ rt.queue, bound ≤ t.expireTime) →
    ∀ t ∈ rt'.queue, bound ≤ t.expireTime

variable {rt rt' rt'' : Runtime κ}

/-- Timers that are due when old ones were. -/
theorem Later.of_subset (hreadings : rt.readings ≤ rt'.readings)
    (hqueue : ∀ t ∈ rt'.queue, ∃ t₀ ∈ rt.queue, t.expireTime = t₀.expireTime) :
    Later env rt rt' := by
  refine ⟨hreadings, fun bound _ hold t ht => ?_⟩
  obtain ⟨t₀, ht₀, hexpire⟩ := hqueue t ht
  rw [hexpire]
  exact hold t₀ ht₀

/-- Nothing happened. -/
theorem Later.refl : Later env rt rt := .of_subset le_rfl fun t ht => ⟨t, ht, rfl⟩

/-- The clock is not turned back. -/
theorem Later.now_le (h : Later env rt rt') : rt.now env ≤ rt'.now env := env.mono h.readings

/-- One after the other. -/
theorem Later.trans (h : Later env rt rt') (h' : Later env rt' rt'') : Later env rt rt'' where
  readings := h.readings.trans h'.readings
  queue bound hbound hold := h'.queue bound (hbound.trans h.now_le) (h.queue bound hbound hold)

/-- The clock is read. -/
theorem Later.readClock (h : Later env rt rt') : Later env rt rt'.readClock :=
  h.trans (.of_subset (Nat.le_succ _) fun t ht => ⟨t, ht, rfl⟩)

/-- A new timer is due after the clock. -/
theorem Later.pushTimer (h : Later env rt rt') (callback : κ) (timeoutMs repeat_ : UInt32) :
    Later env rt (pushTimer env callback timeoutMs repeat_ rt').2 := by
  refine h.trans ⟨Nat.le_succ _, fun bound hbound hold t ht => ?_⟩
  rcases List.mem_cons.mp ((pushTimer_queue_perm env callback timeoutMs repeat_ rt').mem_iff.mp ht)
    with rfl | ht
  · exact hbound.trans (Int.le_add_of_nonneg_right (Int.natCast_nonneg _))
  · exact hold t ht

/-- A timer is cancelled: its expire time stays. -/
theorem Later.delTimer (h : Later env rt rt') (timerId : Nat) :
    Later env rt (delTimer timerId rt') := by
  refine h.trans (.of_subset le_rfl fun t ht => ?_)
  obtain ⟨t₀, ht₀, rfl⟩ := List.mem_map.mp ht
  exact ⟨t₀, ht₀, cancel_expireTime timerId t₀⟩

/-- The end of an iteration re-arms slot 0 for a later time, if it does not remove it. -/
theorem Later.settle : Later env rt (settleFront env (decrementFront rt)) := by
  refine ⟨settled_readings_le env rt, fun bound hbound hold t ht => ?_⟩
  rcases hq : rt.queue with _ | ⟨front, rest⟩
  · simp only [decrementFront, settleFront, hq] at ht
    cases ht
  · rw [hq] at hold
    rcases settleFront_decrementFront env hq with ⟨-, q, hperm, hs⟩ | ⟨-, q, hperm, hs⟩
    · rw [hs] at ht
      exact hold t (List.mem_cons_of_mem _ (hperm.mem_iff.mp ht))
    · rw [hs] at ht
      rcases List.mem_cons.mp (hperm.mem_iff.mp ht) with rfl | ht
      · exact hbound.trans (Int.le_add_of_nonneg_right (Int.natCast_nonneg _))
      · exact hold t (List.mem_cons_of_mem _ ht)

/-- Callbacks that put nothing in the queue that is due earlier. -/
def RunsLater (env : Env) (run : κ → Proc κ τ → Option Thrown × Proc κ τ) : Prop :=
  ∀ callback p, Later env p.rt (run callback p).2.rt

/-! ## The callbacks of the data center -/

section center

variable {T H F φ : Type}

/-- An expiry is re-armed, from a later clock reading. -/
theorem Later.startExpire (callBack : κ) (timeoutMs : UInt32)
    (s : CacheStateManager φ × Runtime κ) :
    Later env s.2 (startExpire env callBack timeoutMs s).2 := by
  obtain ⟨timer, base, hs⟩ := startExpire_spec env callBack timeoutMs s
  refine ⟨hs.readings_lt.le, fun bound hbound hold t ht => ?_⟩
  have hbase : ∀ t ∈ base, bound ≤ t.expireTime := by
    rcases hs.base with ⟨-, -, rfl⟩ | ⟨-, rfl⟩
    · exact (Later.delTimer .refl s.1.timerId).queue bound hbound hold
    · exact hold
  rcases List.mem_cons.mp (hs.queue.mem_iff.mp ht) with rfl | ht
  · exact hbound.trans ((Int.le_add_of_nonneg_right (Int.natCast_nonneg _)).trans
      (hs.now_le_expireTime.trans hs.expireTime_le))
  · exact hbase t ht

/-- Other owners read the clock and add timers. -/
theorem Later.addsForeign {rt rt' : Runtime (TimerCall F)} (h : AddsForeign env rt rt') :
    Later env rt rt' := by
  induction h with
  | refl => exact .refl
  | read _ ih => exact ih.readClock
  | add f timeoutMs repeat_ _ ih => exact ih.pushTimer _ timeoutMs repeat_

/-- **The callbacks of the data center put nothing earlier in the queue.** -/
theorem runTimer_later {hooks : Hooks T H F τ} (hb : hooks.Benign env) :
    RunsLater env (runTimer env hooks) := by
  intro callback p
  have hspec := runTimer_spec env hooks callback p
  generalize runTimer env hooks callback p = r at hspec
  cases hspec with
  | absent howner he => exact .refl
  | idled he => exact .refl
  | @completed cacheId e f s p' r he hs hf hp hinv =>
      have hadd := hb.invoke f .kOperationOk e.state.opId s.1.expireTime p'.outer
      rw [← hinv] at hadd
      subst hp
      exact (Later.startExpire _ _ (e.state, p.rt)).trans (.addsForeign hadd)
  | noCall he hf => exact .startExpire _ _ (_, p.rt)
  | unbound he hcall => exact .startExpire _ _ (_, p.rt)
  | @foreign f r hinv =>
      have hadd := hb.foreign f (Center.outer p)
      rw [← hinv] at hadd
      exact .addsForeign hadd

end center

/-! ## Runs -/

/-- What was run is in order, and was due before the clock and before what is in the queue. -/
structure Ordered (env : Env) (fired : List (EventTimer κ)) (p : Proc κ τ) : Prop where
  heap : MinHeap p.rt.queue
  sorted : fired.Pairwise fun t t' => t.expireTime ≤ t'.expireTime
  due : ∀ t ∈ fired, t.expireTime ≤ p.rt.now env
  queue : ∀ t ∈ fired, ∀ t' ∈ p.rt.queue, t.expireTime ≤ t'.expireTime

variable {run : κ → Proc κ τ → Option Thrown × Proc κ τ} {p p' : Proc κ τ}
  {fired : List (EventTimer κ)}

/-- What is queued later is due later. -/
theorem Ordered.later (h : Ordered env fired p) (hlater : Later env p.rt p'.rt)
    (hheap : MinHeap p'.rt.queue) : Ordered env fired p' where
  heap := hheap
  sorted := h.sorted
  due t ht := (h.due t ht).trans hlater.now_le
  queue t ht := hlater.queue _ (h.due t ht) (h.queue t ht)

/-- The front is run. -/
theorem Ordered.front (h : Ordered env fired p) {t : EventTimer κ} {rest : List (EventTimer κ)}
    (hq : p.rt.queue = t :: rest) (hdue : t.expireTime ≤ p.rt.now env) :
    Ordered env (fired ++ [t]) p := by
  have ht : t ∈ p.rt.queue := by
    rw [hq]
    exact List.mem_cons_self
  have hfront : ∀ t' ∈ p.rt.queue, t.expireTime ≤ t'.expireTime :=
    h.heap.front (by rw [hq, List.head?_cons])
  refine ⟨h.heap, ?_, fun t' ht' => ?_, fun t' ht' => ?_⟩
  · refine List.pairwise_append.mpr ⟨h.sorted, List.pairwise_singleton _ _, fun t₀ ht₀ t' ht' => ?_⟩
    rw [List.mem_singleton.mp ht']
    exact h.queue t₀ ht₀ t ht
  · rcases List.mem_append.mp ht' with ht' | ht'
    · exact h.due t' ht'
    · rw [List.mem_singleton.mp ht']
      exact hdue
  · rcases List.mem_append.mp ht' with ht' | ht'
    · exact h.queue t' ht'
    · rw [List.mem_singleton.mp ht']
      exact hfront

/-- **An iteration** runs the timer that is due first, or none. -/
theorem Ordered.tickIter (hrun : KeepsHeap run) (hlater : RunsLater env run)
    (h : Ordered env fired p) :
    Ordered env (fired ++ firing env p) (tickIter env run p).state := by
  have hheap := h.heap.tickIter env hrun
  have hran : ∀ {t : EventTimer κ} {r : Option Thrown × Proc κ τ},
      run t.callback { p with rt := p.rt.readClock.lock } = r → Later env p.rt r.2.rt := by
    rintro t r rfl
    have hread : Later env p.rt p.rt.readClock.lock :=
      .of_subset (Nat.le_succ _) fun t ht => ⟨t, ht, rfl⟩
    exact hread.trans (hlater t.callback { p with rt := p.rt.readClock.lock })
  have hspec := tickIter_spec env run p
  generalize CacheSystem.tickIter env run p = r at hspec hheap ⊢
  cases hspec with
  | empty hq =>
      have hnone : firing env p = [] := by simp [firing, hq]
      rw [hnone, List.append_nil]
      exact h
  | notDue hq hdue =>
      have hnone : firing env p = [] := by simp [firing, hq, hdue]
      rw [hnone, List.append_nil]
      exact h.later (.readClock .refl) hheap
  | @dead t rest q hq hdue h0 hperm =>
      have hnone : firing env p = [] := by simp [firing, hq, h0]
      rw [hnone, List.append_nil]
      refine h.later (.of_subset (Nat.le_succ _) fun t' ht' => ⟨t', ?_, rfl⟩) hheap
      rw [hq]
      exact List.mem_cons_of_mem _ (hperm.mem_iff.mp ht')
  | threw hq hdue h0 hrun' =>
      rw [firing_eq hq hdue h0]
      have hsame := hran hrun'
      exact (h.front hq hdue).later ⟨hsame.readings, hsame.queue⟩ hheap
  | fired hq hdue h0 hrun' =>
      rw [firing_eq hq hdue h0]
      have hsettled := (hran hrun').trans .settle
      exact (h.front hq hdue).later ⟨hsettled.readings, hsettled.queue⟩ hheap

/-- **A `tick` keeps the order**, of what it fires and of what is left. -/
theorem Ordered.tick (hrun : KeepsHeap run) (hlater : RunsLater env run)
    (h : Ordered env fired p) {states : List (Proc κ τ)} {e : Option Thrown}
    (htick : LoopRuns (CacheSystem.tickIter env run) p states e p') :
    Ordered env (fired ++ states.flatMap (firing env)) p' := by
  refine htick.induct (P := fun p states p' => ∀ fired, Ordered env fired p →
    Ordered env (fired ++ states.flatMap (firing env)) p') (fun p fired h => ?_)
    (fun p states p' ih fired h => ?_) fired h
  · rw [List.flatMap_singleton]
    exact h.tickIter hrun hlater
  · rw [List.flatMap_cons, ← List.append_assoc]
    exact ih _ (h.tickIter hrun hlater)

/-! ## The server -/

section server

variable {fails : Nat → Bool} {s s' : Server}

/-- What an operation of the data center or of the acknowledgements does with the queue. -/
structure Moves (env : Env) (rt rt' : Runtime (TimerCall Nat)) : Prop where
  later : Later env rt rt'
  heap : MinHeap rt.queue → MinHeap rt'.queue

/-- Nothing happened. -/
theorem Moves.refl {rt : Runtime (TimerCall Nat)} : Moves env rt rt := ⟨.refl, fun h => h⟩

/-- One after the other. -/
theorem Moves.trans {rt rt' rt'' : Runtime (TimerCall Nat)} (h : Moves env rt rt')
    (h' : Moves env rt' rt'') : Moves env rt rt'' :=
  ⟨h.later.trans h'.later, fun hheap => h'.heap (h.heap hheap)⟩

/-- An expiry is re-armed. -/
theorem Moves.startExpire {φ : Type} (callBack : TimerCall Nat) (timeoutMs : UInt32)
    (s : CacheStateManager φ × Runtime (TimerCall Nat)) :
    Moves env s.2 (CacheSystem.startExpire env callBack timeoutMs s).2 :=
  ⟨.startExpire callBack timeoutMs s, fun h => h.startExpire callBack timeoutMs⟩

/-- Other owners read the clock and add timers. -/
theorem Moves.addsForeign {rt rt' : Runtime (TimerCall Nat)} (h : AddsForeign env rt rt') :
    Moves env rt rt' :=
  ⟨.addsForeign h, fun hheap => hheap.addsForeign h⟩

/-- A `read_op` moves the queue on. -/
theorem Moves.readOp {cacheId : UInt64} {opId : UInt32}
    {r : Except Thrown (OpResult × Option (Int × CacheData)) × Server}
    (h : ReadOp env cacheId opId s r) : Moves env s.rt r.2.rt := by
  cases h with
  | absent he => exact .refl
  | renewed he hm hs =>
      subst hs
      exact .startExpire _ _ (_, s.rt)
  | unleased he hstate => exact ⟨.readClock .refl, fun h => h⟩

/-- An `update_op` moves the queue on. -/
theorem Moves.updateOp {cacheId : UInt64} {value : CacheData} {opId : UInt32} {f : Request}
    {r : Except Thrown (OpResult × Int) × Server}
    (h : UpdateOp env cacheId value opId f s r) : Moves env s.rt r.2.rt := by
  have hread : Moves env s.rt s.rt.readClock := ⟨.readClock .refl, fun h => h⟩
  cases h with
  | assigned he hstate hs =>
      subst hs
      exact .startExpire _ _ (_, s.rt)
  | refused he hstate h0 => exact .refl
  | overdue he hstate h0 hdelay => exact hread
  | deferred he hstate h0 hdelay hs =>
      subst hs
      exact hread.trans (.startExpire _ _ (_, s.rt.readClock))
  | retried he hstate h0 => exact .refl

/-- **A datagram puts nothing earlier in the queue.** -/
theorem OnReceive.moves {sender : Address} {data : Option CacheMessage}
    {r : Option Thrown × Server} (hr : OnReceive env fails sender s data r) :
    Moves env s.rt r.2.rt := by
  cases hr with
  | ignored he => exact .refl
  | @acked m hm =>
      have hspec := unregisterWaitAck_spec m.opId (s.setPeer sender).outer
      generalize unregisterWaitAck m.opId (s.setPeer sender).outer = q at hspec ⊢
      cases hspec with
      | absent hmap => exact .refl
      | lost hmap hack => exact .refl
      | erased hmap hack => exact ⟨Later.refl.delTimer _, fun h => h.delTimer _⟩
  | @read m read ret out s₁ s₂ r hm hread hop hs₂ hr =>
      have hmoves : Moves env s.rt s₁.rt := .readOp hop
      refine hmoves.trans (.addsForeign ?_)
      subst hs₂
      rcases out with _ | ⟨expire, value⟩ <;> exact hr.addsForeign
  | updateThrew hm hupdate hop => exact .updateOp hop
  | @deferred m update expire s₁ hm hupdate hop =>
      have hmoves : Moves env s.rt s₁.rt := .updateOp hop
      rw [emplaceDefer_eq]
      exact hmoves
  | @updated m update ret expire s₁ r hm hupdate hret hop hr =>
      have hmoves : Moves env s.rt s₁.rt := .updateOp hop
      exact hmoves.trans (.addsForeign hr.addsForeign)

/-- The runs of the server, and the timers that were run, one entry for each firing. -/
inductive ServerFires (env : Env) (fails : Nat → Bool) :
    List (EventTimer (TimerCall Nat)) → Server → Prop
  | start : ServerFires env fails [] Server.initial
  | receive {fired : List (EventTimer (TimerCall Nat))} {s s' : Server} (sender : Address)
      (data : Option CacheMessage) :
      ServerFires env fails fired s → s.step env fails (.receive sender data) = some s' →
      ServerFires env fails fired s'
  | tick {fired : List (EventTimer (TimerCall Nat))} {s p : Server} {states : List Server}
      {e : Option Thrown} : ServerFires env fails fired s →
      LoopRuns (CacheSystem.tickIter env (runTimer env (serverHooks env fails))) s states e p →
      ServerFires env fails (fired ++ states.flatMap (firing env)) (Server.catch (e, p))

/-- Every run of the server is one of these. -/
theorem ServerReachable.fires {ok : Server → ServerOp → Server → Prop}
    (h : ServerReachable env fails ok s) : ∃ fired, ServerFires env fails fired s := by
  induction h with
  | initial => exact ⟨[], .start⟩
  | @step s s' op _ hstep _ ih =>
      obtain ⟨fired, hfires⟩ := ih
      cases op with
      | receive sender data => exact ⟨fired, hfires.receive sender data hstep⟩
      | tick fuel =>
          obtain ⟨⟨e, p⟩, hr, rfl⟩ := Option.map_eq_some_iff.mp hstep
          obtain ⟨states, htick⟩ := LoopRuns.of_tickLoop hr
          exact ⟨_, hfires.tick htick⟩

/-- `CATCH_EXPTIONS` does not touch the queue. -/
theorem Ordered.catch {fired : List (EventTimer (TimerCall Nat))} {r : Option Thrown × Server}
    (h : Ordered env fired r.2) : Ordered env fired (Server.catch r) :=
  ⟨by rw [catch_rt]; exact h.heap, h.sorted, fun t ht => (h.due t ht).trans (by
    rw [Runtime.now, Runtime.now, catch_rt]), by rw [catch_rt]; exact h.queue⟩

/-- **Every run of the server is ordered.** -/
theorem ServerFires.ordered {fired : List (EventTimer (TimerCall Nat))}
    (h : ServerFires env fails fired s) : Ordered env fired s := by
  induction h with
  | start => exact ⟨minHeap_nil, .nil, fun _ h => (nomatch h), fun _ h => (nomatch h)⟩
  | @receive fired s s' sender data _ hstep ih =>
      cases hstep
      have hmoves : Moves env s.rt (onReceive env fails sender data s).2.rt :=
        (onReceive_spec sender data s).moves
      exact (ih.later hmoves.later (hmoves.heap ih.heap)).catch
  | @tick fired s p states e _ htick ih =>
      exact Ordered.catch (r := (e, p))
        (ih.tick (runTimer_keepsHeap serverHooks_benign) (runTimer_later serverHooks_benign) htick)

/-- **Timers are run in the order in which they are due**, over every run of the server, whatever
datagrams add and cancel in between, whatever the callbacks add, and whether they throw or not; and
what is in the queue is due after all that was run. -/
theorem fired_in_order : ∀ fired s, ServerFires env fails fired s →
    (fired.Pairwise fun t t' => t.expireTime ≤ t'.expireTime) ∧
      ∀ t ∈ fired, ∀ t' ∈ s.rt.queue, t.expireTime ≤ t'.expireTime := by
  intro fired s h
  exact ⟨h.ordered.sorted, h.ordered.queue⟩

/-- The timers after a first update, as a case of `fired_in_order`. -/
theorem fired_in_order_first : ∃ fired s, ServerFires (jumpClock 3 20000) (fun _ => false) fired s ∧
    fired.map EventTimer.expireTime = [500, 10000] ∧
      ((fired.Pairwise fun t t' => t.expireTime ≤ t'.expireTime) ∧
        ∀ t ∈ fired, ∀ t' ∈ s.rt.queue, t.expireTime ≤ t'.expireTime) := by
  have hfirst : ServerFires (jumpClock 3 20000) (fun _ => false) [] _ := ServerFires.start.receive 7
    (some (updateRequestMessage 11 1 [5] 200 0)) rfl
  obtain ⟨fired, s, h, hfired⟩ : ∃ fired s,
      ServerFires (jumpClock 3 20000) (fun _ => false) fired s ∧
      fired.map EventTimer.expireTime = [500, 10000] :=
    ⟨_, _, hfirst.tick (.again rfl (.again rfl (.done rfl))), by decide⟩
  exact ⟨fired, s, h, hfired, fired_in_order fired s h⟩

/-! ## What a tick leaves -/

/-- Nothing is overdue at the last reading of the clock. -/
structure NothingDue (env : Env) (s : Server) : Prop where
  /-- An element is Idle, or its expiry is still to come. -/
  leases : ∀ cacheId e, s.mem.map cacheId = some e → e.state.currentState = .kCacheIdle ∨
    ∃ t ∈ s.rt.queue, ManagedBy cacheId e.state t ∧ env.reading (s.rt.readings - 1) < t.expireTime
  /-- A response that waits is still to be sent again. -/
  acks : ∀ opId ptr, s.mem.outer.map opId = some ptr → ∃ t ∈ s.rt.queue,
    t.callback = .foreign ptr ∧ t.repeat_ = 1 ∧ env.reading (s.rt.readings - 1) < t.expireTime

/-- **A tick that returns leaves nothing overdue**, in every run of the server: every lease that is
over was ended, every update whose wait is over was completed, and every response that was not
acknowledged in time was sent again. -/
theorem tick_leaves_nothing_due {ok : Server → ServerOp → Server → Prop} :
    ∀ s, ServerReachable env fails ok s → ∀ fuel p,
      tickLoop env (runTimer env (serverHooks env fails)) fuel s = some (none, p) →
        NothingDue env p := by
  intro s h fuel p htick
  obtain ⟨fired, hfires⟩ := h.fires
  have hlater : ∀ t ∈ p.rt.queue, env.reading (p.rt.readings - 1) < t.expireTime :=
    tickLoop_returned (runTimer_keepsHeap serverHooks_benign) hfires.ordered.heap htick
  have hwired : Wired p := tickLoop_induct Wired (fun _ _ hw hi => hw.tickIter hi) fuel s none p
    (wired_of_reachable h) htick
  refine ⟨fun cacheId e he => ?_, fun opId ptr hentry => ?_⟩
  · rcases hwired.armed.managers cacheId e he with ⟨hidle, -, -⟩ | ⟨t, ht, hmanaged⟩
    · exact Or.inl hidle
    · exact Or.inr ⟨t, ht, hmanaged, hlater t ht⟩
  · obtain ⟨ack, -, -, -, t, ht, -, hcallback, hrepeat⟩ := hwired.acks.entry opId ptr hentry
    exact ⟨t, ht, hcallback, hrepeat, hlater t ht⟩

/-- The tick after a first update, as a case of `tick_leaves_nothing_due`. -/
theorem tick_leaves_nothing_due_first : ∃ p, tickLoop (jumpClock 3 20000)
      (runTimer (jumpClock 3 20000) (serverHooks (jumpClock 3 20000) fun _ => false)) 3
      (Server.first (jumpClock 3 20000)) = some (none, p) ∧ NothingDue (jumpClock 3 20000) p := by
  have hfirst : ServerReachable (jumpClock 3 20000) (fun _ => false) (fun _ _ _ => True)
      (Server.first (jumpClock 3 20000)) := Server.first_reachable _ trivial
  obtain ⟨p, htick⟩ : ∃ p, tickLoop (jumpClock 3 20000)
      (runTimer (jumpClock 3 20000) (serverHooks (jumpClock 3 20000) fun _ => false)) 3
      (Server.first (jumpClock 3 20000)) = some (none, p) := ⟨_, rfl⟩
  exact ⟨p, htick, tick_leaves_nothing_due _ hfirst 3 p htick⟩

end server

end CacheSystem

import CacheSystem.Wiring

/-!
# `tick` and its own mutex

`tick` holds `mutex_` while it runs a callback, and `add_timer` and `del_timer` acquire it. Of the
three kinds of timers only that of the UpdateProtected state reaches them: it starts a new lease
and registers an acknowledgement. The server never acquires the mutex while it holds it in the
runs in which `tick` meets no such timer that is due (`selfBlockFree_of_unripe`); the completion
of the first deferred update does (`not_selfBlockFree`).
-/

namespace CacheSystem

variable {env : Env} {fails : Nat → Bool} {s s' : Server}

/-- The mutex is free, and was never acquired while it was held. -/
def Unlocked {κ : Type} (rt : Runtime κ) : Prop := rt.locked = false ∧ rt.relocked = false

/-- In every state of the runs whose turns meet `ok`, the mutex was never acquired while it was
held. -/
def SelfBlockFree (env : Env) (fails : Nat → Bool) (ok : Server → ServerOp → Server → Prop) : Prop :=
  ∀ s, ServerReachable env fails ok s → s.rt.relocked = false

/-- A `tick` reads the clock only before the end of every wait that is queued when it begins. -/
def Unripe (env : Env) (s : Server) (op : ServerOp) (s' : Server) : Prop :=
  match op with
  | .receive _ _ => True
  | .tick _ => ∀ t ∈ s.rt.queue, t.repeat_ ≠ 0 →
      ∀ cacheId, t.callback = .updateProtected cacheId →
        ∀ n, s.rt.readings ≤ n → n < s'.rt.readings → env.reading n < t.expireTime

/-! ## Datagrams -/

/-- `add_timer` outside a callback acquires a free mutex. -/
theorem Unlocked.push {κ : Type} {rt : Runtime κ} (h : Unlocked rt) (callback : κ)
    (timeoutMs repeat_ : UInt32) : Unlocked (pushTimer env callback timeoutMs repeat_ rt).2 := by
  refine ⟨h.1, ?_⟩
  rw [pushTimer_relocked, h.1, h.2]
  rfl

/-- Starting a lease outside a callback acquires a free mutex. -/
theorem Unlocked.guarantee {rt : Runtime (TimerCall Nat)} (h : Unlocked rt) (cacheId : UInt64)
    (m : CacheStateManager Unit) :
    Unlocked (CacheSystem.guarantee env (closures cacheId) (m, rt)).2 := by
  refine ⟨by rw [guarantee_locked]; exact h.1, ?_⟩
  rw [guarantee_relocked, h.1, h.2]
  rfl

/-- A read outside a callback acquires a free mutex. -/
theorem Unlocked.readOp {cacheId : UInt64} {opId : UInt32}
    {r : Except Thrown (OpResult × Option (Int × CacheData)) × Server}
    (h : Unlocked s.rt) (hop : ReadOp env cacheId opId s r) : Unlocked r.2.rt := by
  cases hop with
  | absent he => exact h
  | renewed he hm hs =>
      subst hs
      exact h.guarantee _ _
  | unleased he hstate => exact h

/-- An update outside a callback acquires a free mutex. -/
theorem Unlocked.updateOp {cacheId : UInt64} {value : CacheData} {opId : UInt32} {f : Request}
    {r : Except Thrown (OpResult × Int) × Server}
    (h : Unlocked s.rt) (hop : UpdateOp env cacheId value opId f s r) : Unlocked r.2.rt := by
  cases hop with
  | assigned he hstate hs =>
      subst hs
      exact h.guarantee _ _
  | refused he hstate h0 => exact h
  | overdue he hstate h0 hdelay => exact h
  | deferred he hstate h0 hdelay hs =>
      subst hs
      refine ⟨(protect_locked env _ _ _).trans h.1, (protect_relocked env _ _ _).trans ?_⟩
      show (s.rt.relocked || s.rt.locked) = false
      rw [h.1, h.2]
      rfl
  | retried he hstate h0 => exact h

/-- Registering a response outside a callback acquires a free mutex. -/
theorem Unlocked.answer {response : CacheMessage} {requester : Address} {q : Rest}
    {r : Option Thrown × Rest} (h : Unlocked q.rt)
    (hr : Answer env fails response requester q r) : Unlocked r.2.rt := by
  cases hr with
  | registered hheader hmap hr =>
      rw [hr.tables.1]
      exact h.push _ _ _
  | taken hheader hmap hmessage hr =>
      rw [hr.tables.1]
      exact h.push _ _ _

/-- Releasing a response outside a callback acquires a free mutex. -/
theorem Unlocked.unregister {opId : UInt64} {q r : Rest} (h : Unlocked q.rt)
    (hr : Unregister opId q r) : Unlocked r.rt := by
  cases hr with
  | absent hmap => exact h
  | lost hmap hack => exact h
  | @erased ptr ack hmap hack =>
      refine ⟨h.1, (delTimer_relocked ack.timerId q.rt).trans ?_⟩
      rw [h.1, h.2]
      rfl

/-- Outside `tick` the mutex is free, and every acquisition ends before the next. -/
theorem Unlocked.onReceive {sender : Address} {data : Option CacheMessage}
    {r : Option Thrown × Server} (h : Unlocked s.rt) (hr : OnReceive env fails sender s data r) :
    Unlocked r.2.rt := by
  have hpeer : Unlocked (s.setPeer sender).rt := h
  cases hr with
  | ignored => exact h
  | acked hm => exact Unlocked.unregister hpeer (unregisterWaitAck_spec _ _)
  | @read m read ret out s₁ s₂ r hm hread hop hs₂ hr =>
      have hid : Unlocked ((s.setPeer sender).setCacheId read.cacheId).rt := h
      have hs₁ : Unlocked s₁.rt := hid.readOp hop
      refine Unlocked.answer (q := s₂.outer) ?_ hr
      subst hs₂
      rcases out with _ | ⟨expire, value⟩ <;> exact hs₁
  | updateThrew hm hupdate hop => exact hpeer.updateOp hop
  | deferred hm hupdate hop =>
      rw [emplaceDefer_eq]
      exact hpeer.updateOp hop
  | @updated m update ret expire s₁ r hm hupdate hret hop hr =>
      exact Unlocked.answer (q := s₁.outer) (hpeer.updateOp hop) hr

/-! ## Ticks -/

/-- A callback other than that of the UpdateProtected state leaves the queue alone. -/
theorem RunTimer.rt_of_ne {call : TimerCall Nat} {r : Option Thrown × Server}
    (h : RunTimer env (serverHooks env fails) s call r)
    (hcall : ∀ cacheId, call ≠ .updateProtected cacheId) : r.2.rt = s.rt := by
  cases h with
  | absent howner he => rfl
  | idled he => rfl
  | completed he hs hf hp hr => exact absurd rfl (hcall _)
  | noCall he hf => exact absurd rfl (hcall _)
  | unbound he hnone => exact absurd rfl (hcall _)
  | @foreign ptr r hr =>
      have hspec : TimerHandle fails ptr s.outer r := .of_foreign hr
      exact hspec.tables.1

/-- The wait of a queued timer ended by a clock reading before the `m`-th. -/
def Ripened (env : Env) (s : Server) (m : Nat) : Prop :=
  ∃ t ∈ s.rt.queue, t.repeat_ ≠ 0 ∧ (∃ cacheId, t.callback = .updateProtected cacheId) ∧
    ∃ n, s.rt.readings ≤ n ∧ n < m ∧ t.expireTime ≤ env.reading n

/-- A wait that has ended has ended. -/
theorem Ripened.mono {m m' : Nat} (h : Ripened env s m) (hle : m ≤ m') : Ripened env s m' := by
  obtain ⟨t, ht, hlive, hcall, n, hn, hlt, hdue⟩ := h
  exact ⟨t, ht, hlive, hcall, n, hn, lt_of_lt_of_le hlt hle, hdue⟩

/-- What holds within a `tick` that began in `s`: a wait has ended, or the mutex was never acquired
while it was held and the waits in the queue are those from before. -/
structure Ticking (env : Env) (s q : Server) : Prop where
  readings_le : s.rt.readings ≤ q.rt.readings
  quiet : Ripened env s q.rt.readings ∨ (Unlocked q.rt ∧
    ∀ t ∈ q.rt.queue, t.repeat_ ≠ 0 → ∀ cacheId, t.callback = .updateProtected cacheId →
      t ∈ s.rt.queue)

/-- An iteration of `tick` keeps to it. -/
theorem Ticking.tickIter {q : Server} (h : Ticking env s q) (ha : Armed q.rt.queue q.mem.map)
    {r : Iter Server} (hr : TickIter env (runTimer env (serverHooks env fails)) q r) :
    Ticking env s r.state := by
  obtain ⟨hle, hquiet⟩ := h
  have hreadings := hr.readings_le serverHooks_benign
  refine ⟨hle.trans hreadings, ?_⟩
  rcases hquiet with hripe | ⟨hu, hold⟩
  · exact Or.inl (hripe.mono hreadings)
  have hwaits : ∀ t ∈ r.state.rt.queue, t.repeat_ ≠ 0 → ∀ cacheId,
      t.callback = .updateProtected cacheId → t ∈ s.rt.queue := fun t ht hlive cacheId hcall =>
    hold t (hr.waits serverHooks_benign ha ht hlive hcall) hlive cacheId hcall
  have hlocked : q.rt.readClock.lock.relocked = false := by
    show (q.rt.relocked || q.rt.locked) = false
    rw [hu.1, hu.2]
    rfl
  -- a live front of a wait that is due is one from before
  have hripe : ∀ {t rest}, q.rt.queue = t :: rest → t.repeat_ ≠ 0 →
      t.expireTime ≤ q.rt.now env → (∃ cacheId, t.callback = .updateProtected cacheId) →
      ∀ m, q.rt.readings < m → Ripened env s m := by
    rintro t rest hq h0 hdue ⟨cacheId, hcall⟩ m hm
    exact ⟨t, hold t (by rw [hq]; exact List.mem_cons_self) h0 cacheId hcall, h0,
      ⟨cacheId, hcall⟩, q.rt.readings, hle, hm, hdue⟩
  cases hr with
  | empty hq => exact Or.inr ⟨hu, hwaits⟩
  | notDue hq hdue => exact Or.inr ⟨hu, hwaits⟩
  | dead hq hdue h0 hperm => exact Or.inr ⟨⟨hu.1, hlocked⟩, hwaits⟩
  | @threw t rest e p₁ hq hdue h0 hrun =>
      have hspec := RunTimer.of_eq hrun
      by_cases hcall : ∃ cacheId, t.callback = .updateProtected cacheId
      · exact Or.inl (hripe hq h0 hdue hcall _ (hspec.readings_le serverHooks_benign))
      · have hrt : p₁.rt = q.rt.readClock.lock :=
          hspec.rt_of_ne fun cacheId heq => hcall ⟨cacheId, heq⟩
        refine Or.inr ⟨⟨hu.1, ?_⟩, hwaits⟩
        show p₁.rt.relocked = false
        rw [hrt]
        exact hlocked
  | @fired t rest p₁ hq hdue h0 hrun =>
      have hspec := RunTimer.of_eq hrun
      by_cases hcall : ∃ cacheId, t.callback = .updateProtected cacheId
      · exact Or.inl (hripe hq h0 hdue hcall _ (lt_of_lt_of_le
          (hspec.readings_le serverHooks_benign) (settled_readings_le env p₁.rt)))
      · have hrt : p₁.rt = q.rt.readClock.lock :=
          hspec.rt_of_ne fun cacheId heq => hcall ⟨cacheId, heq⟩
        refine Or.inr ⟨⟨hu.1, ?_⟩, hwaits⟩
        show (settleFront env (decrementFront p₁.rt)).relocked = false
        rw [settled_relocked, hrt]
        exact hlocked

/-! ## Runs -/

/-- **A turn within which no wait ends leaves the mutex free**, and acquires it only then. -/
theorem Unlocked.step (h : Unlocked s.rt) (hw : Wired s) {op : ServerOp}
    (hstep : s.step env fails op = some s') (hunripe : Unripe env s op s') : Unlocked s'.rt := by
  cases op with
  | receive sender data =>
      cases hstep
      rw [catch_rt]
      exact h.onReceive (onReceive_spec sender data s)
  | tick fuel =>
      obtain ⟨r, hr, rfl⟩ := Option.map_eq_some_iff.mp hstep
      have hstart : Wired s ∧ Ticking env s s :=
        ⟨hw, le_rfl, Or.inr ⟨h, fun t ht _ _ _ => ht⟩⟩
      obtain ⟨-, htick⟩ := tickLoop_induct (fun q => Wired q ∧ Ticking env s q)
        (fun _ _ hq hi => ⟨hq.1.tickIter hi, hq.2.tickIter hq.1.armed hi⟩) fuel s r.1 r.2 hstart hr
      rw [catch_rt]
      rcases htick.quiet with ⟨t, ht, hlive, ⟨cacheId, hcall⟩, n, hn, hlt, hdue⟩ | ⟨hu, -⟩
      · have := hunripe t ht hlive cacheId hcall n hn (by rwa [catch_rt])
        exact absurd hdue (not_le.mpr this)
      · exact hu

/-- **The mutex is never acquired while it is held** in the runs in which every `tick` ends before
the first wait that is queued does. -/
theorem selfBlockFree_of_unripe : SelfBlockFree env fails (Unripe env) := by
  intro s h
  have hunlocked : Unlocked s.rt := by
    induction h with
    | initial => exact ⟨rfl, rfl⟩
    | step op hbefore hstep hunripe ih =>
        exact ih.step (wired_of_reachable hbefore) hstep hunripe
  exact hunlocked.2

/-- A `tick` while an update waits, as a case of `selfBlockFree_of_unripe`. -/
theorem selfBlockFree_of_unripe_tick :
    ∃ s, Server.initial.run stillClock (fun _ => false)
        [.receive 7 (some (updateRequestMessage 11 1 [5] 200 0)),
          .receive 7 (some (updateRequestMessage 12 1 [6] 200 0)), .tick 10] = some s ∧
      (∃ t ∈ s.rt.queue, t.callback = .updateProtected 1) ∧ s.rt.relocked = false := by
  have h₁ : ServerReachable stillClock (fun _ => false) (Unripe stillClock)
      (Server.catch (onReceive stillClock (fun _ => false) 7
        (some (updateRequestMessage 11 1 [5] 200 0)) Server.initial)) :=
    .step (.receive 7 _) .initial rfl trivial
  have h₂ := ServerReachable.step (.receive 7 (some (updateRequestMessage 12 1 [6] 200 0))) h₁ rfl
    trivial
  refine ⟨_, rfl, by decide, selfBlockFree_of_unripe _ (.step (.tick 10) h₂ rfl ?_)⟩
  intro t ht _ _ _ n _ _
  have hall : ∀ t ∈ (Server.catch (onReceive stillClock (fun _ => false) 7
      (some (updateRequestMessage 12 1 [6] 200 0)) (Server.catch (onReceive stillClock
        (fun _ => false) 7 (some (updateRequestMessage 11 1 [5] 200 0))
          Server.initial)))).rt.queue, 0 < t.expireTime := by decide
  exact hall t ht

/-- The mutex is acquired while it is held when the first deferred update is completed. -/
theorem not_selfBlockFree :
    ¬ SelfBlockFree (jumpClock 7 20000) (fun _ => false) fun _ _ _ => True := by
  intro h
  obtain ⟨s, hrun, hs⟩ : ∃ s, Server.initial.run (jumpClock 7 20000) (fun _ => false)
      [.receive 7 (some (updateRequestMessage 11 1 [5] 200 0)),
        .receive 7 (some (updateRequestMessage 12 1 [6] 200 0)), .tick 10] = some s ∧
      s.rt.relocked = true :=
    ⟨_, rfl, by decide⟩
  have hreach := ServerReachable.run (fun _ _ _ => trivial) .initial hrun
  rw [h s hreach] at hs
  cases hs

end CacheSystem

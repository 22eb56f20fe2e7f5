import CacheSystem.AtRest
import CacheSystem.OpIds
import CacheSystem.RoundTrip

/-!
# How an update that waits is answered

A client whose update is deferred hears nothing until the lease that its element had is over and a
`tick` runs the timer. Between the two anything may happen: other requests, acknowledgements, timers
of other elements, and `tick`s that come too early. As in `Latency` the mutex that `tick` holds can
be acquired by its callbacks.

* `HeldBack` : the element holds the update back, and its timers are due by a given time. A datagram
  keeps that, and so does an iteration of `tick`, unless it sends the response.
* `deferred_answered` : the response is sent by the first `tick` that returns a whole lease later.
* `deferred_write_completes` : if the client is the peer of the server, then the response is on its
  way back to it, and tells its handle `kOperationOk`.
-/

namespace CacheSystem

open Relation Lib.Run

variable {env : Env} {fails : Nat → Bool} {s s' q : Server} {cacheId : UInt64} {f : Request}
  {deadline : Int}

/-! ## The update is held back -/

/-- A timer is cancelled. -/
theorem DueBy.delTimer {rt : Runtime (TimerCall Nat)} (h : DueBy cacheId deadline rt.queue)
    (timerId : Nat) : DueBy cacheId deadline (delTimer timerId rt).queue := by
  intro t ht hlive hcall
  rw [delTimer_queue] at ht
  obtain ⟨t', ht', rfl⟩ := List.mem_map.mp ht
  have hsame := cancel_of_ne (ne_of_cancel_live hlive)
  rw [hsame] at hlive hcall ⊢
  exact h t' ht' hlive hcall

/-- The element holds the update of `f` back, and the timers that complete it are due by
`deadline`. -/
structure HeldBack (cacheId : UInt64) (f : Request) (deadline : Int) (s : Server) : Prop where
  element : ∃ e, s.mem.map cacheId = some e ∧ e.state.currentState = .kCacheUpdateProtected ∧
    e.call = some f
  due : DueBy cacheId deadline s.rt.queue

/-- An update stays held back while elements and timers do not change. -/
theorem HeldBack.of_same (h : HeldBack cacheId f deadline s) (hmap : s'.mem.map = s.mem.map)
    (hqueue : s'.rt.queue = s.rt.queue) : HeldBack cacheId f deadline s' where
  element := by rw [hmap]; exact h.element
  due := by rw [hqueue]; exact h.due

/-- Timers of other owners are added. -/
theorem HeldBack.followed (h : HeldBack cacheId f deadline s) (hafter : Followed env s s') :
    HeldBack cacheId f deadline s' where
  element := by rw [hafter.map]; exact h.element
  due t ht hlive hcall := by
    have howner : t.callback.owner ≠ none := by
      rw [hcall]
      exact fun h => nomatch h
    exact h.due t (hafter.added.mem_of_owned ht howner) hlive hcall

/-- A timer outside the data center is cancelled. -/
theorem HeldBack.cancelled (h : HeldBack cacheId f deadline s) {timerId : Nat}
    (hrt : s'.rt = delTimer timerId s.rt) (hmap : s'.mem.map = s.mem.map) :
    HeldBack cacheId f deadline s' where
  element := by rw [hmap]; exact h.element
  due := by rw [hrt]; exact h.due.delTimer timerId

/-- A read takes no update out. -/
theorem HeldBack.readOp (h : HeldBack cacheId f deadline s) {id : UInt64} {opId : UInt32}
    {r : Except Thrown (OpResult × Option (Int × CacheData)) × Server}
    (hop : ReadOp env id opId s r) : HeldBack cacheId f deadline r.2 where
  element := by
    obtain ⟨e, he, hstate, hcall⟩ := h.element
    cases hop with
    | absent hnone => exact h.element
    | @renewed e₁ m s₁ he₁ hm hs =>
        -- the lease of an element that waits is not renewed
        have hne : cacheId ≠ id := by
          rintro rfl
          obtain rfl := Option.some.inj (he.symm.trans he₁)
          rcases hm with ⟨hidle, -⟩ | ⟨hlease, -⟩
          · rw [hstate] at hidle
            cases hidle
          · rw [hstate] at hlease
            cases hlease
        refine ⟨e, ?_, hstate, hcall⟩
        rw [record_map, put_map, Function.update_of_ne hne, he]
    | unleased he₁ hstate₁ => exact h.element
  due := h.due.readOp hop

/-- No other update takes its place. -/
theorem HeldBack.updateOp (h : HeldBack cacheId f deadline s) {id : UInt64} {value : CacheData}
    {opId : UInt32} {g : Request} {r : Except Thrown (OpResult × Int) × Server}
    (hop : UpdateOp env id value opId g s r) : HeldBack cacheId f deadline r.2 where
  element := by
    obtain ⟨e, he, hstate, hcall⟩ := h.element
    have hne : ∀ {e₁}, s.mem.map id = some e₁ → e₁.state.currentState ≠ .kCacheUpdateProtected →
        cacheId ≠ id := by
      rintro e₁ he₁ hother rfl
      obtain rfl := Option.some.inj (he.symm.trans he₁)
      exact hother hstate
    cases hop with
    | @assigned e₁ s₁ he₁ hidle hs =>
        refine ⟨e, ?_, hstate, hcall⟩
        have hother : cacheId ≠ id := by
          rcases he₁ with he₁ | ⟨hnone, -⟩
          · exact hne he₁ (by rw [hidle]; decide)
          · rintro rfl
            rw [he] at hnone
            cases hnone
        rw [record_map, put_map, Function.update_of_ne hother, he]
    | refused he₁ hstate₁ h0 => exact h.element
    | @overdue e₁ he₁ hlease h0 hdelay =>
        refine ⟨e, ?_, hstate, hcall⟩
        rw [put_map, Function.update_of_ne (hne he₁ (by rw [hlease]; decide)), he]
    | @deferred e₁ s₁ he₁ hlease h0 hdelay hs =>
        refine ⟨e, ?_, hstate, hcall⟩
        rw [record_map, put_map, Function.update_of_ne (hne he₁ (by rw [hlease]; decide)), he]
    | retried he₁ hstate₁ h0 => exact ⟨e, he, hstate, hcall⟩
  due := by
    refine h.due.updateOp (fun e₁ he₁ hlease => ?_) hop
    rintro rfl
    obtain ⟨e, he, hstate, -⟩ := h.element
    obtain rfl := Option.some.inj (he.symm.trans he₁)
    rw [hstate] at hlease
    cases hlease

/-- **A datagram does not reach an update that is held back.** -/
theorem HeldBack.centerTurn (h : HeldBack cacheId f deadline s) {sender : Address}
    {data : Option CacheMessage} (hturn : CenterTurn env sender s data s') :
    HeldBack cacheId f deadline s' := by
  cases hturn with
  | aside hsame => exact h.of_same hsame.map (by rw [hsame.rt])
  | cancelled ht howner hrt hmap htrace => exact h.cancelled hrt hmap
  | read hread hsame hop hafter =>
      exact ((h.of_same hsame.map (by rw [hsame.rt])).readOp hop).followed hafter
  | update hupdate hsame hop hafter =>
      exact ((h.of_same hsame.map (by rw [hsame.rt])).updateOp hop).followed hafter

/-! ## The response is sent -/

/-- What was sent stays sent. -/
theorem DoSend.sent_prefix {message : CacheMessage} {requester : Address} {p : Rest}
    {r : Option Thrown × Rest} (hr : DoSend fails message requester p r) :
    p.mem.sent <+: r.2.mem.sent := by
  cases hr with
  | empty hempty => exact List.prefix_rfl
  | failed hfails => exact List.prefix_rfl
  | sent hempty => exact List.prefix_append _ _

/-- An answer comes after what was sent before. -/
theorem Answer.sent_prefix {response : CacheMessage} {requester : Address} {p : Rest}
    {r : Option Thrown × Rest} (hr : Answer env fails response requester p r) :
    p.mem.sent <+: r.2.mem.sent := by
  cases hr with
  | registered hheader hmap hr => exact hr.sent_prefix
  | taken hheader hmap hmessage hr => exact hr.sent_prefix

/-- Taking a datagram in takes nothing back that was sent. -/
theorem OnReceive.sent_prefix {sender : Address} {data : Option CacheMessage}
    {r : Option Thrown × Server} (hr : OnReceive env fails sender s data r) :
    s.mem.outer.sent <+: r.2.mem.outer.sent := by
  cases hr with
  | ignored he => exact List.prefix_rfl
  | @acked m hm =>
      have hspec := unregisterWaitAck_spec m.opId (s.setPeer sender).outer
      generalize unregisterWaitAck m.opId (s.setPeer sender).outer = q at hspec
      cases hspec with
      | absent hmap => exact List.prefix_rfl
      | lost hmap hack => exact List.prefix_rfl
      | erased hmap hack => exact List.prefix_rfl
  | @read m read ret out s₁ s₂ r hm hread hop hs₂ hr =>
      have houter : s₁.mem.outer = _ := hop.outer
      have hsent : s₂.outer.mem.sent = s.mem.outer.sent := by
        subst hs₂
        rcases out with _ | ⟨expire, value⟩ <;>
          simp only [outer_mem, Proc.setScratch, setOuter_outer, houter] <;> rfl
      rw [← hsent]
      exact hr.sent_prefix
  | @updateThrew m update e s₁ hm hupdate hop =>
      rw [hop.outer]
      exact List.prefix_rfl
  | @deferred m update expire s₁ hm hupdate hop =>
      have houter : s₁.mem.outer = _ := hop.outer
      rw [emplaceDefer_eq]
      simp only [setOuter_outer, houter]
      exact List.prefix_rfl
  | @updated m update ret expire s₁ r hm hupdate hret hop hr =>
      have houter : s₁.mem.outer = _ := hop.outer
      have hsent : s₁.outer.mem.sent = s.mem.outer.sent := by
        rw [outer_mem, houter]
        rfl
      rw [← hsent]
      exact hr.sent_prefix

/-- A callback sends to the peer, and takes back nothing that was sent. -/
theorem RunTimer.socket {call : TimerCall Nat} {r : Option Thrown × Server}
    (hr : RunTimer env (serverHooks env fails) s call r) :
    s.mem.outer.sent <+: r.2.mem.outer.sent ∧ r.2.mem.outer.peer = s.mem.outer.peer := by
  cases hr with
  | absent howner he => exact ⟨List.prefix_rfl, rfl⟩
  | idled he => exact ⟨List.prefix_rfl, rfl⟩
  | @completed cacheId e f s₁ p' r he hs hf hp hinv =>
      have hspec : UpdateHandle env fails f .kOperationOk e.state.opId s₁.1.expireTime p'.outer r :=
        .of_invoke hinv
      subst hp
      cases hspec with
      | refused hret => exact ⟨List.prefix_rfl, rfl⟩
      | lost hret hdefer => exact ⟨List.prefix_rfl, rfl⟩
      | answered hret hdefer hr => exact ⟨hr.sent_prefix, hr.tables.2.1⟩
  | noCall he hf => exact ⟨List.prefix_rfl, rfl⟩
  | unbound he hcall => exact ⟨List.prefix_rfl, rfl⟩
  | @foreign ptr r hinv =>
      have hspec : TimerHandle fails ptr s.outer r := .of_foreign hinv
      refine ⟨?_, hspec.tables.2.2.1⟩
      have hsend : ∀ {ack : WaitCacheAck} {q₁ : Rest} {r : Option Thrown × Rest},
          (q₁ = s.outer ∧ ack.destroyed = false ∨ q₁ = s.outer.note (.danglingCall ptr)) →
          DoSend fails ack.message ack.requester q₁ r → s.mem.outer.sent <+: r.2.mem.sent := by
        intro ack q₁ r hq hr
        have hsent : q₁.mem.sent = s.mem.outer.sent := (noted_tables hq).2.2.2.2.2.2.2
        rw [← hsent]
        exact hr.sent_prefix
      cases hspec with
      | absent hack => exact List.prefix_rfl
      | threw hack hq hr he => exact hsend hq hr
      | unknown hack hq hr he hmap =>
          have hsent := hsend hq hr
          exact hsent
      | expired hack hq hr he hmap =>
          have hsent := hsend hq hr
          exact hsent

/-- The response to the update of `f` was sent to `dest` after `s`. -/
def AnsweredTo (dest : Address) (f : Request) (s q : Server) : Prop :=
  ∃ expire new, q.mem.outer.sent = s.mem.outer.sent ++ new ∧
    (⟨dest, updateResponse f.message expire .kOperationOk, f.requester⟩ : Sent) ∈ new

/-- A response that was sent stays sent. -/
theorem AnsweredTo.later {dest : Address} (h : AnsweredTo dest f s q)
    (hsent : q.mem.outer.sent <+: s'.mem.outer.sent) : AnsweredTo dest f s s' := by
  obtain ⟨expire, new, hnew, hmem⟩ := h
  obtain ⟨more, hmore⟩ := hsent
  exact ⟨expire, new ++ more, by rw [← hmore, hnew, List.append_assoc],
    List.mem_append_left more hmem⟩

/-- A response is sent after any state that had sent less. -/
theorem AnsweredTo.earlier {dest : Address} (h : AnsweredTo dest f s q)
    (hsent : s'.mem.outer.sent <+: s.mem.outer.sent) : AnsweredTo dest f s' q := by
  obtain ⟨expire, new, hnew, hmem⟩ := h
  obtain ⟨more, hmore⟩ := hsent
  exact ⟨expire, more ++ new, by rw [hnew, ← hmore, List.append_assoc],
    List.mem_append_right more hmem⟩

/-- The handler that finds its message and throws nothing sends the response to the peer. -/
theorem UpdateHandle.sent {opId : UInt32} {expire : Int} {p : Rest} {r : Option Thrown × Rest}
    (hr : UpdateHandle env fails f .kOperationOk opId expire p r)
    (hdefer : p.mem.deferMessages opId = some f) (hfree : p.mem.map f.message.opId = none)
    (hreturned : r.1 = none) : r.2.mem.sent = p.mem.sent ++
      [⟨p.mem.peer, updateResponse f.message expire .kOperationOk, f.requester⟩] := by
  cases hr with
  | refused hret => cases hreturned
  | lost hret hnone => cases hreturned
  | @answered request r hret hdefer' hr =>
      obtain rfl := Option.some.inj (hdefer.symm.trans hdefer')
      cases hr with
      | @taken header ptr message r hheader hentry hmessage hr =>
          cases hheader
          change p.mem.map f.message.opId = some ptr at hentry
          rw [hfree] at hentry
          cases hentry
      | @registered header r hheader hentry hr =>
          cases hr with
          | empty hempty => cases hempty
          | failed hfails => cases hreturned
          | sent hempty => rfl

/-! ## Ticks -/

/-- **The callback of slot 0**: the element still waits, or the response was sent, if no send fails in
a `tick` that ends a wait. -/
theorem HeldBack.callback {t : EventTimer (TimerCall Nat)} {rest : List (EventTimer (TimerCall Nat))}
    {r : Option Thrown × Server} (h : HeldBack cacheId f deadline q) (hs : Sorting env fails s q)
    (hq : q.rt.queue = t :: rest) (h0 : t.repeat_ ≠ 0) (hdue : t.expireTime ≤ q.rt.now env)
    (hr : RunTimer env (serverHooks env fails) { q with rt := q.rt.readClock.lock } t.callback r) :
    Failed env fails s r.2 ∨ (∃ e, r.2.mem.map cacheId = some e ∧
      e.state.currentState = .kCacheUpdateProtected ∧ e.call = some f) ∨
        AnsweredTo q.mem.outer.peer f q r.2 := by
  rcases hs.callback hq h0 hdue hr with hfailed | ⟨hsorted, -, hthrown⟩
  · exact Or.inl hfailed
  · refine Or.inr ?_
    obtain ⟨e, he, hstate, hcall⟩ := h.element
    have ht : t ∈ q.rt.queue := by rw [hq]; exact List.mem_cons_self
    have howner : ∀ {id}, t.callback.owner = some id → id = cacheId →
        t.callback = .updateProtected cacheId := by
      rintro id hid rfl
      have hcallback := (hsorted.sound.owner ht h0 hid he).callback
      rw [hstate] at hcallback
      exact (Option.some.inj hcallback).symm
    generalize hcallback : t.callback = call at hr howner hthrown
    cases hr with
    | absent hid hnone => exact Or.inl ⟨e, he, hstate, hcall⟩
    | @idled id e₁ he₁ =>
        have hne : cacheId ≠ id := fun heq => by cases howner rfl heq.symm
        refine Or.inl ⟨e, ?_, hstate, hcall⟩
        rw [put_map, Function.update_of_ne hne]
        exact he
    | @completed id e₁ f₁ s₁ p' r he₁ hs₁ hf hp hinv =>
        have hspec : UpdateHandle env fails f₁ .kOperationOk e₁.state.opId s₁.1.expireTime p'.outer r :=
          .of_invoke hinv
        by_cases hid : id = cacheId
        · -- the timer of the element: its handler finds the message and sends the response
          subst hid
          refine Or.inr ?_
          obtain rfl := Option.some.inj (he.symm.trans he₁)
          obtain rfl := Option.some.inj (hcall.symm.trans hf)
          obtain ⟨request, hrequest, hdefer⟩ := hsorted.matching.waiting id e he hstate
          obtain rfl := Option.some.inj (hcall.symm.trans hrequest)
          have hfree := hsorted.matching.unanswered _ _ hdefer
          have hreturned : r.1 = none := by
            rcases hthrow : r.1 with _ | e'
            · rfl
            · cases (hthrown e' hthrow).1
          subst hp
          exact ⟨_, _, hspec.sent hdefer hfree hreturned, List.mem_singleton_self _⟩
        · refine Or.inl ⟨e, ?_, hstate, hcall⟩
          subst hp
          show Function.update q.mem.map id _ cacheId = some e
          rw [Function.update_of_ne fun heq => hid heq.symm, he]
    | noCall he₁ hf => exact absurd hf (hsorted.sound.handlers ht h0 hcallback he₁).2
    | unbound he₁ hnone => exact absurd hnone (hsorted.sound.handlers ht h0 hcallback he₁).1
    | foreign hinv => exact Or.inl ⟨e, he, hstate, hcall⟩

/-- What holds within a `tick` that began in `s`, where the update of `f` was held back. -/
structure Serving (env : Env) (fails : Nat → Bool) (cacheId : UInt64) (f : Request) (deadline : Int)
    (s q : Server) : Prop where
  sorting : Sorting env fails s q
  sent : s.mem.outer.sent <+: q.mem.outer.sent
  peer : q.mem.outer.peer = s.mem.outer.peer
  phase : Failed env fails s q ∨ HeldBack cacheId f deadline q ∨
    AnsweredTo s.mem.outer.peer f s q

/-- An iteration that runs no callback. -/
theorem Serving.quiet {r : Server} (h : Serving env fails cacheId f deadline s q)
    (hsorting : Sorting env fails s r) (hmem : r.mem = q.mem) (hreadings : q.rt.readings ≤ r.rt.readings)
    (hqueue : ∀ t ∈ r.rt.queue, t ∈ q.rt.queue) : Serving env fails cacheId f deadline s r where
  sorting := hsorting
  sent := by rw [hmem]; exact h.sent
  peer := by rw [hmem]; exact h.peer
  phase := by
    rcases h.phase with hfailed | hheld | hanswered
    · exact Or.inl (hfailed.mono hreadings (by rw [hmem]))
    · refine Or.inr (Or.inl ⟨by rw [hmem]; exact hheld.element, fun t ht => ?_⟩)
      exact hheld.due t (hqueue t ht)
    · exact Or.inr (Or.inr (hanswered.later (by simp only [hmem, List.prefix_rfl])))

/-- An iteration that runs a callback; `r` is after it, and `q'` after the queue was settled. -/
theorem Serving.ran {t : EventTimer (TimerCall Nat)} {rest : List (EventTimer (TimerCall Nat))}
    {r : Option Thrown × Server} {q' : Server} (h : Serving env fails cacheId f deadline s q)
    (hq : q.rt.queue = t :: rest) (h0 : t.repeat_ ≠ 0) (hdue : t.expireTime ≤ q.rt.now env)
    (hr : RunTimer env (serverHooks env fails) { q with rt := q.rt.readClock.lock } t.callback r)
    (hsorting : Sorting env fails s q') (hmem : q'.mem = r.2.mem)
    (hreadings : r.2.rt.readings ≤ q'.rt.readings)
    (hwaits : ∀ t ∈ q'.rt.queue, t.repeat_ ≠ 0 → t.callback = .updateProtected cacheId →
      t ∈ q.rt.queue) : Serving env fails cacheId f deadline s q' := by
  obtain ⟨hsent, hpeer⟩ := hr.socket
  have hsent' : q.mem.outer.sent <+: q'.mem.outer.sent := by
    rw [hmem]
    exact hsent
  have hsends : r.2.mem.outer.sends ≤ q'.mem.outer.sends := by rw [hmem]
  refine ⟨hsorting, h.sent.trans hsent', by rw [hmem, hpeer]; exact h.peer, ?_⟩
  rcases h.phase with hfailed | hheld | hanswered
  · exact Or.inl (hfailed.mono ((Nat.le_of_lt (hr.readings_le serverHooks_benign)).trans hreadings)
      (hr.sends_le.trans hsends))
  · rcases hheld.callback h.sorting hq h0 hdue hr with hfailed | ⟨e, he, hwait⟩ | hanswered
    · exact Or.inl (hfailed.mono hreadings hsends)
    · refine Or.inr (Or.inl ⟨⟨e, by rw [hmem]; exact he, hwait⟩, fun t ht hlive hcall => ?_⟩)
      exact hheld.due t (hwaits t ht hlive hcall) hlive hcall
    · rw [h.peer] at hanswered
      exact Or.inr (Or.inr ((hanswered.earlier h.sent).later
        (by simp only [hmem, List.prefix_rfl])))
  · exact Or.inr (Or.inr (hanswered.later hsent'))

/-- An iteration of `tick` holds the update back further, answers it, or sees a send fail. -/
theorem Serving.tickIter (h : Serving env fails cacheId f deadline s q) {r : Iter Server}
    (hr : TickIter env (runTimer env (serverHooks env fails)) q r) :
    Serving env fails cacheId f deadline s r.state := by
  have hsorting := h.sorting.tickIter hr
  have hwaits : ∀ t ∈ r.state.rt.queue, t.repeat_ ≠ 0 → t.callback = .updateProtected cacheId →
      t ∈ q.rt.queue := fun t ht hlive hcall =>
    hr.waits serverHooks_benign h.sorting.wired.armed ht hlive hcall
  cases hr with
  | empty hq => exact h
  | notDue hq hdue => exact h.quiet hsorting rfl (Nat.le_succ _) fun _ ht => ht
  | @dead t rest p hq hdue h0 hperm =>
      refine h.quiet hsorting rfl (Nat.le_succ _) fun t' ht => ?_
      rw [hq]
      exact List.mem_cons_of_mem t (hperm.mem_iff.mp ht)
  | @threw t rest e p₁ hq hdue h0 hrun =>
      exact h.ran hq h0 hdue (.of_eq hrun) hsorting rfl le_rfl hwaits
  | @fired t rest p₁ hq hdue h0 hrun =>
      exact h.ran hq h0 hdue (.of_eq hrun) hsorting rfl (settled_readings_le env p₁.rt) hwaits

/-- **A `tick` answers the update, or leaves it held back** with timers due as before. -/
theorem HeldBack.tick (h : HeldBack cacheId f deadline s) (hs : Sound env s) (hw : Wired s)
    (hm : Matching s.mem) {fuel : Nat} {e : Option Thrown}
    (htick : tickLoop env (runTimer env (serverHooks env fails)) fuel s = some (e, q))
    (hapart : ¬ Failed env fails s q) :
    HeldBack cacheId f deadline q ∨ AnsweredTo s.mem.outer.peer f s q := by
  have hstart : Serving env fails cacheId f deadline s s :=
    ⟨⟨le_rfl, le_rfl, hw, Or.inr ⟨hs, hm, fun _ ht _ _ _ => ht⟩⟩, List.prefix_rfl, rfl,
      Or.inr (Or.inl h)⟩
  have hend := tickLoop_induct (Serving env fails cacheId f deadline s)
    (fun _ _ hq hi => hq.tickIter hi) fuel s e q hstart htick
  exact hend.phase.resolve_left hapart

/-- A `tick` that returns after the deadline holds nothing back that was due by then. -/
theorem HeldBack.not_late (h : HeldBack cacheId f deadline q) (hs : Sound env q)
    (hheap : MinHeap s.rt.queue) {fuel : Nat}
    (htick : tickLoop env (runTimer env (serverHooks env fails)) fuel s = some (none, q)) :
    q.rt.lastReading env < deadline := by
  rcases Int.lt_or_le (q.rt.lastReading env) deadline with hlt | hlate
  · exact hlt
  · obtain ⟨e, he, hstate, hcall⟩ := h.element
    obtain ⟨-, -, -, f', value, -, hvalue⟩ := hs.waits cacheId e he hstate
    have hnone := h.due.not_pending serverHooks_benign hheap hs.armed htick hlate
    rw [he, Option.bind_some] at hnone
    simp only [CacheElement.pending, hstate, hcall, hvalue] at hnone
    cases hnone

/-! ## Runs -/

/-- What holds in the runs of turns that keep the op ids apart. -/
structure Settled (env : Env) (s : Server) : Prop where
  wired : Wired s
  sound : Sound env s
  matching : Matching s.mem
  near : Near env s.rt
  heap : MinHeap s.rt.queue

/-- A turn that keeps the op ids apart finds no element overdue. -/
theorem KeepsApart.timely {m : CacheMessage} (h : KeepsApart env s m) : Timely env s m :=
  ⟨h.promptRead, h.promptUpdate⟩

/-- A turn that keeps the op ids apart keeps it all. -/
theorem Settled.step (h : Settled env s) {op : ServerOp} (hstep : s.step env fails op = some s')
    (hapart : Apart env fails s op s') : Settled env s' := by
  obtain ⟨hsound, hmatching⟩ := h.matching.step h.sound h.wired hstep hapart
  have hnear : Near env s'.rt := by
    refine h.near.step h.sound h.wired ?_ hstep
    rintro sender data m rfl hm
    exact (hapart m hm).timely
  refine ⟨h.wired.step hstep, hsound, hmatching, hnear, ?_⟩
  cases op with
  | receive sender data =>
      cases hstep
      rw [catch_rt]
      exact (onReceive_spec sender data s).moves.heap h.heap
  | tick fuel =>
      obtain ⟨⟨e, p⟩, htick, rfl⟩ := Option.map_eq_some_iff.mp hstep
      rw [catch_rt]
      exact tickLoop_keeps (P := fun q => MinHeap q.rt.queue)
        (fun _ hq => hq.tickIter env (runTimer_keepsHeap serverHooks_benign)) htick h.heap

/-- It holds in every run whose turns keep the op ids apart. -/
theorem settled_of_apart (h : ServerReachable env fails (Apart env fails) s) : Settled env s := by
  induction h with
  | initial =>
      exact ⟨wired_of_reachable (.initial : ServerReachable env fails (Apart env fails) _),
        sound_initial _, matching_initial, fun _ ht => (nomatch ht), minHeap_nil⟩
  | step op _ hstep hapart ih => exact ih.step hstep hapart

/-- `CATCH_EXPTIONS` sends nothing. -/
theorem catch_sent (r : Option Thrown × Server) :
    (Server.catch r).mem.outer.sent = r.2.mem.outer.sent := by
  unfold Server.catch
  split <;> rfl

/-- No turn takes back what was sent. -/
theorem Server.sent_prefix {op : ServerOp} (hstep : s.step env fails op = some s') :
    s.mem.outer.sent <+: s'.mem.outer.sent :=
  Server.step_mem (P := fun mem => mem = s.mem) (Q := fun mem => s.mem.outer.sent <+: mem.outer.sent)
    (fun _ _ h => h) hstep (fun _ _ _ _ hr _ => hr.sent_prefix)
    (fun _ _ _ => List.prefix_rfl) (fun _ _ _ h hr => h.trans hr.socket.1) rfl

/-- **A turn answers the update, or leaves it held back.** -/
theorem HeldBack.step (h : HeldBack cacheId f deadline s) (hs : Settled env s) {op : ServerOp}
    (hstep : s.step env fails op = some s') (hapart : Apart env fails s op s') :
    HeldBack cacheId f deadline s' ∨ ∃ dest, AnsweredTo dest f s s' := by
  have hcatch : ∀ {r : Option Thrown × Server}, HeldBack cacheId f deadline r.2 →
      HeldBack cacheId f deadline (Server.catch r) := fun {r} hheld =>
    hheld.of_same (catch_sameCenter r).map (by rw [catch_rt])
  cases op with
  | receive sender data =>
      cases hstep
      have hr : OnReceive env fails sender s data (CacheSystem.onReceive env fails sender data s) :=
        onReceive_spec sender data s
      exact Or.inl (hcatch (h.centerTurn (hr.centerTurn hs.wired)))
  | tick fuel =>
      obtain ⟨⟨e, p⟩, htick, rfl⟩ := Option.map_eq_some_iff.mp hstep
      have hnot : ¬ Failed env fails s p := fun hfailed =>
        hapart (hfailed.mono (by rw [catch_rt]) (by rw [catch_sends]))
      refine (h.tick hs.sound hs.wired hs.matching htick hnot).imp hcatch fun hanswered => ?_
      exact ⟨s.mem.outer.peer, hanswered.later (by simp only [catch_sent, List.prefix_rfl])⟩

/-- One turn that keeps the op ids apart. -/
def ApartStep (env : Env) (fails : Nat → Bool) (s s' : Server) : Prop :=
  ∃ op, Apart env fails s op s' ∧ s.step env fails op = some s'

/-- **Over turns that keep the op ids apart** the update is held back further, or it is answered. -/
theorem HeldBack.steps (h : HeldBack cacheId f deadline s) (hs : Settled env s)
    (hsteps : ReflTransGen (ApartStep env fails) s s') :
    Settled env s' ∧ s.mem.outer.sent <+: s'.mem.outer.sent ∧
      (HeldBack cacheId f deadline s' ∨ ∃ dest, AnsweredTo dest f s s') := by
  induction hsteps with
  | refl => exact ⟨hs, List.prefix_rfl, Or.inl h⟩
  | tail _ hnext ih =>
      obtain ⟨op, hapart, hstep⟩ := hnext
      obtain ⟨hsettled, hsent, hphase⟩ := ih
      have hsent' := Server.sent_prefix hstep
      refine ⟨hsettled.step hstep hapart, hsent.trans hsent', ?_⟩
      rcases hphase with hheld | ⟨dest, hanswered⟩
      · exact (hheld.step hsettled hstep hapart).imp_right fun ⟨dest, hanswered⟩ =>
          ⟨dest, hanswered.earlier hsent⟩
      · exact Or.inr ⟨dest, hanswered.later hsent'⟩

/-- An update that waits, in a run of turns that keep the op ids apart. -/
theorem Settled.heldBack (h : Settled env s) {e : CacheElement CacheData Request}
    (he : s.mem.map cacheId = some e) (hstate : e.state.currentState = .kCacheUpdateProtected)
    (hcall : e.call = some f) : HeldBack cacheId f (s.rt.lastReading env + 10000) s :=
  ⟨⟨e, he, hstate, hcall⟩, fun t ht _ _ => (h.near t ht).1⟩

/-- **An update that waits is answered**: at whatever state of a run it waits, the response is sent by
the first `tick` that returns a whole lease later, whatever comes in between, if the turns keep the
op ids apart. -/
theorem deferred_answered (h : ServerReachable env fails (Apart env fails) s)
    {e : CacheElement CacheData Request} (he : s.mem.map cacheId = some e)
    (hstate : e.state.currentState = .kCacheUpdateProtected) (hcall : e.call = some f)
    (hsteps : ReflTransGen (ApartStep env fails) s s') {fuel : Nat}
    (htick : tickLoop env (runTimer env (serverHooks env fails)) fuel s' = some (none, q))
    (hapart : Apart env fails s' (.tick fuel) q)
    (hlate : s.rt.lastReading env + 10000 ≤ q.rt.lastReading env) :
    ∃ dest, AnsweredTo dest f s q := by
  have hsettled := settled_of_apart h
  obtain ⟨hsettled', hsent, hphase⟩ := (hsettled.heldBack he hstate hcall).steps hsettled hsteps
  have hstep : s'.step env fails (.tick fuel) = some q := by
    simp only [Server.step, htick]
    rfl
  have hsent' := Server.sent_prefix hstep
  rcases hphase with hheld | ⟨dest, hanswered⟩
  · rcases hheld.step hsettled' hstep hapart with hheld | ⟨dest, hanswered⟩
    · exact absurd (hheld.not_late (hsettled'.step hstep hapart).sound hsettled'.heap htick)
        (not_lt_of_ge hlate)
    · exact ⟨dest, hanswered.earlier hsent⟩
  · exact ⟨dest, hanswered.later hsent'⟩

/-- The first request of the runs below. -/
theorem keepsApart_first : KeepsApart (jumpClock 8 20000) Server.initial
    (updateRequestMessage 11 1 [5] 200 0) where
  other _ _ _ hdefer := nomatch hdefer
  promptRead _ hread := nomatch hread
  promptUpdate _ _ _ _ he := nomatch he
  nonzero _ _ _ he := nomatch he
  free _ _ _ he := nomatch he

/-- The second one, which is deferred. -/
theorem keepsApart_second : KeepsApart (jumpClock 8 20000) (Server.first (jumpClock 8 20000))
    (updateRequestMessage 12 1 [6] 200 0) where
  other _ _ _ hdefer := nomatch hdefer
  promptRead _ hread := nomatch hread
  promptUpdate update request hupdate e he _ _ _ := by
    cases hupdate
    obtain rfl := Option.some.inj he
    decide
  nonzero _ _ _ _ _ := by decide
  free _ _ _ _ _ _ := ⟨rfl, by decide⟩

/-- An update that waits, a `tick` that comes too early and one that is late, as a case of
`deferred_answered`. -/
theorem deferred_answered_late : ∃ s q : Server, s.mem.outer.sent.length = 1 ∧
    ∃ dest, AnsweredTo dest ⟨updateRequestMessage 12 1 [6] 200 0, 7⟩ s q := by
  have hfirst : ServerReachable (jumpClock 8 20000) (fun _ => false)
      (Apart (jumpClock 8 20000) fun _ => false) (Server.first (jumpClock 8 20000)) :=
    Server.first_reachable _ fun m hm => by
      cases hm
      exact keepsApart_first
  obtain ⟨s, hsecond, e, he, hstate, hcall, hsent, s', hearly, q, htick, hlate⟩ : ∃ s,
      (Server.first (jumpClock 8 20000)).step (jumpClock 8 20000) (fun _ => false)
        (.receive 7 (some (updateRequestMessage 12 1 [6] 200 0))) = some s ∧
      ∃ e, s.mem.map 1 = some e ∧ e.state.currentState = .kCacheUpdateProtected ∧
        e.call = some ⟨updateRequestMessage 12 1 [6] 200 0, 7⟩ ∧ s.mem.outer.sent.length = 1 ∧
      ∃ s', s.step (jumpClock 8 20000) (fun _ => false) (.tick 3) = some s' ∧
      ∃ q, tickLoop (jumpClock 8 20000) (runTimer (jumpClock 8 20000)
          (serverHooks (jumpClock 8 20000) fun _ => false)) 10 s' = some (none, q) ∧
        s.rt.lastReading (jumpClock 8 20000) + 10000 ≤ q.rt.lastReading (jumpClock 8 20000) :=
    ⟨_, rfl, _, rfl, rfl, rfl, by decide, _, rfl, _, rfl, by decide⟩
  have hnot : ∀ s q, ¬ Failed (jumpClock 8 20000) (fun _ => false) s q := by
    rintro s q ⟨-, n, -, -, hfails⟩
    cases hfails
  have hreach := hfirst.step _ hsecond fun m hm => by
    cases hm
    exact keepsApart_second
  exact ⟨s, q, hsent, deferred_answered hreach he hstate hcall
    (.single ⟨.tick 3, hnot _ _, hearly⟩) htick (hnot _ _) hlate⟩

/-! ## The client -/

variable {t : System}

/-- The turns of the server keep the op ids apart. -/
def SystemApart (env : Env) (fails : Nat → Bool) (t : System) : SystemOp → Prop
  | .deliver (.request g) parses _ _ =>
      ∀ m, (if parses then some g.message else none) = some m → KeepsApart env t.server m
  | .tick fuel => ∀ server, t.server.step env fails (.tick fuel) = some server →
      ¬ Failed env fails t.server server
  | _ => True

/-- Where every turn of a system keeps the op ids apart, so does every turn of its server. -/
theorem SystemReachable.apart (h : SystemReachable env fails (SystemApart env fails) t) :
    ServerReachable env fails (Apart env fails) t.server :=
  h.server_turns (P := fun _ server => ServerReachable env fails (Apart env fails) server) .initial
    (fun _ _ _ _ _ _ hapart hs hstep => .step _ hs hstep hapart)
    fun _ _ _ hapart hs hstep => .step _ hs hstep (hapart _ hstep)

/-- **An update that waits completes.** If the client of the update spoke last, then a `tick` that
returns after the timers of the element are due sends it the response: it is on its way back, and
says `kOperationOk` with the data of the update. -/
theorem deferred_write_completes : ∀ t, SystemReachable env fails (SystemApart env fails) t →
    ∀ c ∈ t.calls, ∀ cacheData e, c.kind = .update cacheData → c.opId ≠ 0 →
      t.server.mem.map c.cacheId.toUInt64 = some e →
      e.state.currentState = .kCacheUpdateProtected → e.call = some c.request →
      t.server.mem.outer.peer = c.client →
      ∀ fuel s', tickLoop env (runTimer env (serverHooks env fails)) fuel t.server = some (none, s') →
        ¬ Failed env fails t.server s' →
        DueBy c.cacheId.toUInt64 (s'.rt.lastReading env) t.server.rt.queue →
          ∃ expire t', t.step env fails (.tick fuel) = some t' ∧
            t'.Returning env fails c (updateResponse c.message expire .kOperationOk)
              (prepareOpResponse expire c.cacheId cacheData .kOperationOk) := by
  intro t h c hc cacheData e hkind hid he hstate hcall hpeer fuel s' htick hapart hdue
  have hsettled := settled_of_apart h.apart
  have hstep : t.server.step env fails (.tick fuel) = some s' := by
    simp only [Server.step, htick]
    rfl
  have hanswered : AnsweredTo c.client c.request t.server s' := by
    rw [← hpeer]
    have hheld : HeldBack c.cacheId.toUInt64 c.request _ t.server := ⟨⟨e, he, hstate, hcall⟩, hdue⟩
    refine (hheld.tick hsettled.sound hsettled.wired hsettled.matching htick hapart).resolve_left
      fun hheld => ?_
    exact absurd (hheld.not_late (hsettled.step hstep hapart).sound hsettled.heap htick)
      (lt_irrefl _)
  obtain ⟨expire, new, hnew, hmem⟩ := hanswered
  have hstep' : t.step env fails (.tick fuel) = some (t.serverTurn s') := by
    rw [System.step, hstep]
    rfl
  have hmem' : .response c.client (updateResponse c.message expire .kOperationOk) ∈
      (t.serverTurn s').inFlight := by
    show _ ∈ t.inFlight ++ List.map _ (s'.mem.outer.sent.drop t.server.mem.outer.sent.length)
    rw [hnew, List.drop_left]
    exact List.mem_append_right _ (List.mem_map.mpr ⟨_, hmem, rfl⟩)
  have h' : SystemReachable env fails AnyStep (t.serverTurn s') :=
    (h.mono fun _ _ _ => trivial).step _ trivial hstep'
  exact ⟨expire, _, hstep', h'.returning hc hmem' (c.updateResponse_spec hkind hid expire)⟩

/-- A late `tick` after an update that found a lease, and another call before the response is
delivered, as a case of `deferred_write_completes`. -/
theorem deferred_write_completes_late : ∃ (t t₁ t₂ t₃ : System) (expire : Int),
    t.step (jumpClock 8 20000) (fun _ => false) (.tick 10) = some t₁ ∧
    t₁.step (jumpClock 8 20000) (fun _ => false) (.call (updateCall 7 13 1 [7]) false) = some t₂ ∧
    t₂.step (jumpClock 8 20000) (fun _ => false) (.deliver (.response 7
      (updateResponse (updateCall 7 12 1 [6]).message expire .kOperationOk)) true false false) =
        some t₃ ∧
      Completes t₂ t₃ (updateCall 7 12 1 [6]) (prepareOpResponse expire 1 [6] .kOperationOk) := by
  have hnot : ∀ s q, ¬ Failed (jumpClock 8 20000) (fun _ => false) s q := by
    rintro s q ⟨-, n, -, -, hfails⟩
    cases hfails
  have h₁ : SystemReachable (jumpClock 8 20000) (fun _ => false)
      (SystemApart (jumpClock 8 20000) fun _ => false) _ :=
    .step (.call (updateCall 7 11 1 [5]) false) .initial trivial rfl
  have h₂ := h₁.step (.deliver (.request (updateCall 7 11 1 [5]).request) true false false)
    (fun m hm => by
      cases hm
      exact keepsApart_first) rfl
  have h₃ := h₂.step (.call (updateCall 7 12 1 [6]) false) trivial rfl
  have h₄ := h₃.step (.deliver (.request (updateCall 7 12 1 [6]).request) true false false)
    (fun m hm => by
      cases hm
      exact keepsApart_second) rfl
  -- the `tick` that comes too early
  have h₅ := h₄.step (.tick 3) (fun _ _ => hnot _ _) rfl
  obtain ⟨expire, t₁, hstep, hreturning⟩ := deferred_write_completes _ h₅ (updateCall 7 12 1 [6])
    (by decide) [6] _ rfl (by decide) rfl rfl rfl rfl 10 _ rfl (hnot _ _) (by unfold DueBy; decide)
  obtain ⟨t₂, hcall, hinFlight, hwaits⟩ : ∃ t₂, t₁.step (jumpClock 8 20000) (fun _ => false)
      (.call (updateCall 7 13 1 [7]) false) = some t₂ ∧ (∀ d ∈ t₁.inFlight, d ∈ t₂.inFlight) ∧
      (t₂.clients 7).requests 12 ≠ none := by
    cases hstep
    exact ⟨_, rfl, by decide, by decide⟩
  obtain ⟨t₃, hdeliver, hcompleted⟩ := hreturning.completes t₂ (.single ⟨_, hcall⟩)
    (hinFlight _ hreturning.inFlight) hwaits false
  exact ⟨_, t₁, t₂, t₃, expire, hstep, hcall, hdeliver, hcompleted⟩

end CacheSystem

import CacheSystem.Wiring

/-!
# Whom the server answers

The server has one socket, and its peer is whoever sent the last datagram. A response that is sent
in the turn that receives the request goes to the requester; one that a timer sends goes to the
peer of that moment.

* `Server.Answers` : the callback of a timer sends a datagram for this requester.
* `Attended` : a `tick` reads the clock only before the due time of every timer that would answer
  a client other than the peer.
* `addressed_of_attended` : with such ticks every datagram goes to the client whose request it
  answers; `not_addressed` is the response that another client gets.
-/

namespace CacheSystem

variable {env : Env} {fails : Nat → Bool} {s s' : Server}

/-- Every datagram went to the client whose request it answers. -/
def Addressed (mem : ServerMem) : Prop := ∀ x ∈ mem.sent, x.dest = x.requester

/-- In every state of the runs whose turns meet `ok`, every datagram that was sent went to the
client whose request it answers. -/
def RepliesAddressed (env : Env) (fails : Nat → Bool)
    (ok : Server → ServerOp → Server → Prop) : Prop :=
  ∀ s, ServerReachable env fails ok s → Addressed s.mem.outer

/-- The callback sends a datagram for this requester: the message that waits for its
acknowledgement, or the response to the update that was deferred. -/
def Server.Answers (s : Server) (requester : Address) : TimerCall Nat → Prop
  | .guaranteed _ => False
  | .updateProtected cacheId => ∃ e request, s.mem.map cacheId = some e ∧
      s.mem.outer.deferMessages e.state.opId = some request ∧ request.requester = requester
  | .foreign ptr => ∃ ack, s.mem.outer.acks ptr = some ack ∧ ack.message.isEmpty = false ∧
      ack.requester = requester

/-- A `tick` reads the clock only before the due time of every timer that is queued when it begins
and answers another client than the peer. -/
def Attended (env : Env) (s : Server) (op : ServerOp) (s' : Server) : Prop :=
  match op with
  | .receive _ _ => True
  | .tick _ => ∀ t ∈ s.rt.queue, t.repeat_ ≠ 0 → ∀ requester, s.Answers requester t.callback →
      requester ≠ s.mem.outer.peer →
        ∀ n, s.rt.readings ≤ n → n < s'.rt.readings → env.reading n < t.expireTime

/-! ## Sending -/

/-- A datagram for the peer goes where it should. -/
theorem DoSend.addressed {message : CacheMessage} {requester : Address} {q : Rest}
    {r : Option Thrown × Rest} (hr : DoSend fails message requester q r) (h : Addressed q.mem)
    (hpeer : message.isEmpty = false → requester = q.mem.peer) : Addressed r.2.mem := by
  cases hr with
  | empty hempty => exact h
  | failed hfails => exact h
  | sent hempty =>
      intro x hx
      rcases List.mem_append.mp hx with hx | hx
      · exact h x hx
      · rw [List.mem_singleton.mp hx]
        exact (hpeer hempty).symm

/-- What a callback that answers only the peer does to the answers that are still to be sent. -/
structure Routed (q r : Rest) : Prop where
  addressed : Addressed q.mem → Addressed r.mem
  peer : r.mem.peer = q.mem.peer
  defers : ∀ opId request, r.mem.deferMessages opId = some request →
    q.mem.deferMessages opId = some request
  acks : ∀ ptr ack, r.mem.acks ptr = some ack → ack.message.isEmpty = false →
    ack.requester = q.mem.peer ∨ ∃ ack', q.mem.acks ptr = some ack' ∧
      ack'.message.isEmpty = false ∧ ack'.requester = ack.requester
  queue : ∀ t ∈ r.rt.queue, t ∈ q.rt.queue ∨ ∃ ptr, t.callback = .foreign ptr ∧
    ∀ ack, r.mem.acks ptr = some ack → ack.requester = q.mem.peer

/-- A new object for the peer, and its timer. -/
theorem Routed.newAck {q r : Rest} {ack : WaitCacheAck} (hack : ack.requester = q.mem.peer)
    (haddressed : Addressed q.mem → Addressed r.mem) (hpeer : r.mem.peer = q.mem.peer)
    (hdefers : ∀ opId request, r.mem.deferMessages opId = some request →
      q.mem.deferMessages opId = some request)
    (hacks : r.mem.acks = Function.update q.mem.acks q.mem.ackCount (some ack))
    (hrt : r.rt = (pushTimer env (.foreign q.mem.ackCount) kDefaultTimeout 1 q.rt).2) :
    Routed q r where
  addressed := haddressed
  peer := hpeer
  defers := hdefers
  acks ptr ack' hack' hempty := by
    rw [hacks] at hack'
    rcases Lib.Table.of_assign hack' with ⟨-, rfl⟩ | ⟨-, hack'⟩
    · exact Or.inl hack
    · exact Or.inr ⟨ack', hack', hempty, rfl⟩
  queue t ht := by
    rw [hrt] at ht
    rcases List.mem_cons.mp ((pushTimer_queue_perm env _ _ _ q.rt).mem_iff.mp ht) with rfl | ht
    · refine Or.inr ⟨_, rfl, fun ack' hack' => ?_⟩
      rw [hacks, Function.update_self] at hack'
      cases hack'
      exact hack
    · exact Or.inl ht

/-- An answer to the peer goes where it should. -/
theorem Answer.routed {response : CacheMessage} {requester : Address} {q : Rest}
    {r : Option Thrown × Rest} (h : Answer env fails response requester q r)
    (hpeer : requester = q.mem.peer) : Routed q r.2 := by
  cases h with
  | registered hheader hmap hr =>
      obtain ⟨hrt, -, hacks, -, hdefers, hpeer', -⟩ := hr.tables
      refine Routed.newAck hpeer (fun h => hr.addressed h fun _ => hpeer) hpeer' ?_ hacks hrt
      intro opId request hdefer
      rwa [hdefers] at hdefer
  | taken hheader hmap hmessage hr =>
      obtain ⟨hrt, -, hacks, -, hdefers, hpeer', -⟩ := hr.tables
      refine Routed.newAck hpeer (fun h => hr.addressed h fun _ => hpeer) hpeer' ?_ hacks hrt
      intro opId request hdefer
      rwa [hdefers] at hdefer

/-- Where nothing is done nothing goes astray. -/
theorem Routed.refl (q : Rest) : Routed q q where
  addressed h := h
  peer := rfl
  defers _ _ h := h
  acks _ ack hack hempty := Or.inr ⟨ack, hack, hempty, rfl⟩
  queue _ ht := Or.inl ht

/-- A completion of the peer is answered to the peer. -/
theorem UpdateHandle.routed {handler : Request} {ret : OpResult} {opId : UInt32} {expire : Int}
    {q : Rest} {r : Option Thrown × Rest}
    (h : UpdateHandle env fails handler ret opId expire q r)
    (hpeer : ∀ request, q.mem.deferMessages opId = some request →
      request.requester = q.mem.peer) : Routed q r.2 := by
  cases h with
  | refused hret => exact Routed.refl q
  | lost hret hdefer =>
      have h := Routed.refl q
      exact ⟨h.addressed, rfl, h.defers, h.acks, h.queue⟩
  | @answered request r hret hdefer hr =>
      have h : Routed (q.takeDefer handler opId) r.2 := hr.routed (hpeer request hdefer)
      refine ⟨h.addressed, h.peer, fun opId' request' hdefer' => ?_, h.acks, h.queue⟩
      exact (Lib.Table.of_erase (h.defers opId' request' hdefer')).2

/-- A response to the peer is sent again to the peer. -/
theorem TimerHandle.routed {ptr : Nat} {q : Rest} {r : Option Thrown × Rest}
    (h : TimerHandle fails ptr q r)
    (hpeer : ∀ ack, q.mem.acks ptr = some ack → ack.message.isEmpty = false →
      ack.requester = q.mem.peer) : Routed q r.2 := by
  have hsend : ∀ {ack : WaitCacheAck} {q₁ : Rest} {r : Option Thrown × Rest},
      q.mem.acks ptr = some ack →
      (q₁ = q ∧ ack.destroyed = false ∨ q₁ = q.note (.danglingCall ptr)) →
      DoSend fails ack.message ack.requester q₁ r → Routed q r.2 := by
    intro ack q₁ r hack hq hr
    obtain ⟨hrt₁, -, hacks₁, -, hdefers₁, hpeer₁, -, hsent₁⟩ := noted_tables hq
    obtain ⟨hrt, -, hacks, -, hdefers, hpeer', -⟩ := hr.tables
    refine ⟨fun h => ?_, hpeer'.trans hpeer₁, fun opId request hdefer => ?_,
      fun ptr' ack' hack' hempty => ?_, fun t ht => ?_⟩
    · refine hr.addressed (fun x hx => h x (hsent₁ ▸ hx)) fun hempty => ?_
      rw [hpeer₁]
      exact hpeer ack hack hempty
    · rwa [hdefers, hdefers₁] at hdefer
    · rw [hacks, hacks₁] at hack'
      exact Or.inr ⟨ack', hack', hempty, rfl⟩
    · rw [hrt, hrt₁] at ht
      exact Or.inl ht
  cases h with
  | absent hack => exact Routed.refl q
  | threw hack hq hr he => exact hsend hack hq hr
  | unknown hack hq hr he hmap =>
      have h := hsend hack hq hr
      exact h
  | @expired ack q₁ r ptr' hack hq hr he hmap =>
      have h := hsend hack hq hr
      refine ⟨h.addressed, h.peer, h.defers, fun ptr'' ack' hack' hempty => ?_, fun t ht => ?_⟩
      · change Function.update r.2.mem.acks ptr' _ ptr'' = some ack' at hack'
        by_cases hptr : ptr'' = ptr'
        · subst hptr
          rw [Function.update_self] at hack'
          obtain ⟨ack₁, -, rfl⟩ := Option.map_eq_some_iff.mp hack'
          cases hempty
        · rw [Function.update_of_ne hptr] at hack'
          exact h.acks ptr'' ack' hack' hempty
      · refine (h.queue t ht).imp_right fun ⟨ptr'', hcall, hacks⟩ => ⟨ptr'', hcall, fun ack' hack' => ?_⟩
        change Function.update r.2.mem.acks ptr' _ ptr'' = some ack' at hack'
        by_cases hptr : ptr'' = ptr'
        · subst hptr
          rw [Function.update_self] at hack'
          obtain ⟨ack₁, hack₁, rfl⟩ := Option.map_eq_some_iff.mp hack'
          exact hacks ack₁ hack₁
        · rw [Function.update_of_ne hptr] at hack'
          exact hacks ack' hack'

/-! ## Datagrams -/

/-- The response to a request goes back where the request came from. -/
theorem Addressed.onReceive {sender : Address} {data : Option CacheMessage}
    {r : Option Thrown × Server} (h : Addressed s.mem.outer)
    (hr : OnReceive env fails sender s data r) : Addressed r.2.mem.outer := by
  have hpeer : Addressed (s.setPeer sender).mem.outer := h
  cases hr with
  | ignored => exact h
  | @acked m hm =>
      have hspec := unregisterWaitAck_spec m.opId (s.setPeer sender).outer
      generalize unregisterWaitAck m.opId (s.setPeer sender).outer = q at hspec
      cases hspec with
      | absent hmap => exact hpeer
      | lost hmap hack => exact hpeer
      | erased hmap hack => exact hpeer
  | @read m read ret out s₁ s₂ r hm hread hop hs₂ hr =>
      have houter : s₁.mem.outer = _ := hop.outer
      have hs₂' : Addressed s₂.mem.outer ∧ s₂.mem.outer.peer = sender := by
        subst hs₂
        rcases out with _ | ⟨expire, value⟩ <;>
          simp only [Proc.setScratch, setOuter_outer, houter] <;> exact ⟨hpeer, rfl⟩
      exact (hr.routed hs₂'.2.symm).addressed hs₂'.1
  | updateThrew hm hupdate hop =>
      rw [hop.outer]
      exact hpeer
  | @deferred m update expire s₁ hm hupdate hop =>
      rw [emplaceDefer_eq]
      have houter : s₁.mem.outer = _ := hop.outer
      simp only [setOuter_outer, houter]
      exact hpeer
  | @updated m update ret expire s₁ r hm hupdate hret hop hr =>
      have houter : s₁.mem.outer = (s.setPeer sender).mem.outer := hop.outer
      have hsender : sender = s₁.outer.mem.peer := by rw [outer_mem, houter]; rfl
      apply (hr.routed hsender).addressed
      rw [outer_mem, houter]
      exact hpeer

/-! ## Ticks -/

/-- A timer queued in `s` that answers another client than the peer was due at a clock reading
before the `m`-th. -/
def Strayed (env : Env) (s : Server) (m : Nat) : Prop :=
  ∃ t ∈ s.rt.queue, t.repeat_ ≠ 0 ∧ (∃ requester, s.Answers requester t.callback ∧
    requester ≠ s.mem.outer.peer) ∧ ∃ n, s.rt.readings ≤ n ∧ n < m ∧ t.expireTime ≤ env.reading n

/-- A timer that was due is due. -/
theorem Strayed.mono {m m' : Nat} (h : Strayed env s m) (hle : m ≤ m') : Strayed env s m' := by
  obtain ⟨t, ht, hlive, hanswers, n, hn, hlt, hdue⟩ := h
  exact ⟨t, ht, hlive, hanswers, n, hn, lt_of_lt_of_le hlt hle, hdue⟩

/-- What a callback that answers only the peer does to a server. -/
structure Replied (q r : Server) : Prop where
  addressed : Addressed q.mem.outer → Addressed r.mem.outer
  peer : r.mem.outer.peer = q.mem.outer.peer
  answers : ∀ requester call, r.Answers requester call →
    requester = q.mem.outer.peer ∨ q.Answers requester call
  queue : ∀ t ∈ r.rt.queue, t.repeat_ ≠ 0 → t ∈ q.rt.queue ∨
    ∀ requester, r.Answers requester t.callback → requester = q.mem.outer.peer

/-- A change of the elements and their timers that arms leases only, then a routed callback. -/
theorem Replied.of_routed {q p r : Server}
    (hmap : ∀ id e', r.mem.map id = some e' →
      ∃ e, q.mem.map id = some e ∧ e.state.opId = e'.state.opId)
    (hq : ∀ t ∈ p.rt.queue, t.repeat_ ≠ 0 → t ∈ q.rt.queue ∨ ∃ id, t.callback = .guaranteed id)
    (hp : p.mem.outer = q.mem.outer) (h : Routed p.outer r.outer) : Replied q r where
  addressed ha := h.addressed (by rw [outer_mem, hp]; exact ha)
  peer := h.peer.trans (congrArg ServerMem.peer hp)
  answers requester call ha := by
    cases call with
    | guaranteed id => exact ha.elim
    | updateProtected id =>
        obtain ⟨e', request, he', hdefer, hreq⟩ := ha
        obtain ⟨e, he, hid⟩ := hmap id e' he'
        have hdefer' := h.defers _ _ hdefer
        rw [outer_mem, hp, ← hid] at hdefer'
        exact Or.inr ⟨e, request, he, hdefer', hreq⟩
    | foreign ptr =>
        obtain ⟨ack, hack, hempty, hreq⟩ := ha
        rcases h.acks ptr ack hack hempty with hpeer | ⟨ack', hack', hempty', hreq'⟩
        · rw [outer_mem, hp] at hpeer
          exact Or.inl (hreq.symm.trans hpeer)
        · rw [outer_mem, hp] at hack'
          exact Or.inr ⟨ack', hack', hempty', hreq'.trans hreq⟩
  queue t ht hlive := by
    rcases h.queue t ht with ht | ⟨ptr, hcall, hacks⟩
    · apply (hq t ht hlive).imp_right
      rintro ⟨id, hcall⟩ requester ha
      rw [hcall] at ha
      exact ha.elim
    · refine Or.inr fun requester ha => ?_
      rw [hcall] at ha
      obtain ⟨ack, hack, -, hreq⟩ := ha
      rw [← hreq, hacks ack hack, outer_mem, hp]

/-- The elements after one was assigned that keeps the op id of its manager. -/
theorem opId_of_update {map : UInt64 → Option (CacheElement CacheData Request)} {cacheId : UInt64}
    {e e₁ : CacheElement CacheData Request} (he : map cacheId = some e)
    (hop : e.state.opId = e₁.state.opId) : ∀ id e', Function.update map cacheId (some e₁) id = some e' →
      ∃ e, map id = some e ∧ e.state.opId = e'.state.opId := by
  intro id e' he'
  rcases Lib.Table.of_assign he' with ⟨rfl, rfl⟩ | ⟨-, he'⟩
  · exact ⟨e, he, hop⟩
  · exact ⟨e', he', rfl⟩

/-- A callback that answers the peer sends nothing astray. -/
theorem RunTimer.replied {q : Server} {call : TimerCall Nat} {r : Option Thrown × Server}
    (h : RunTimer env (serverHooks env fails) q call r)
    (hpeer : ∀ requester, q.Answers requester call → requester = q.mem.outer.peer) :
    Replied q r.2 := by
  have hlease : ∀ {cacheId t} {m : CacheStateManager Unit},
      t ∈ (guarantee env (closures cacheId) (m, q.rt)).2.queue → t.repeat_ ≠ 0 →
        t ∈ q.rt.queue ∨ ∃ id, t.callback = .guaranteed id := fun ht hlive =>
    (Owners.mem_guarantee_live (o := centerOwners) ht hlive).imp_right fun hcall => ⟨_, hcall⟩
  have hopId : ∀ cacheId (e : CacheElement CacheData Request),
      e.state.opId = (guarantee env (closures cacheId) (e.state, q.rt)).1.opId :=
    fun cacheId e => (guarantee_opId env (closures cacheId) (e.state, q.rt)).symm
  cases h with
  | absent howner he =>
      exact .of_routed (p := q) (fun id e' he' => ⟨e', he', rfl⟩) (fun t ht _ => Or.inl ht) rfl
        (Routed.refl _)
  | idled he =>
      exact .of_routed (p := q) (opId_of_update he rfl) (fun t ht _ => Or.inl ht) rfl
        (Routed.refl _)
  | @completed cacheId e f s₁ p' r he hs hf hp hr =>
      have hspec : UpdateHandle env fails f .kOperationOk e.state.opId s₁.1.expireTime p'.outer r :=
        .of_invoke hr
      subst hs hp
      refine .of_routed (p := (q.completing env cacheId e _).record _)
        (opId_of_update he (hopId cacheId e)) (fun t ht hlive => hlease ht hlive) rfl
        (hspec.routed fun request hdefer => ?_)
      exact hpeer _ ⟨e, request, he, hdefer, rfl⟩
  | noCall he hf =>
      exact .of_routed (p := q.completing env _ _ _) (opId_of_update he (hopId _ _))
        (fun t ht hlive => hlease ht hlive) rfl (Routed.refl _)
  | unbound he hcall =>
      exact .of_routed (p := q.put _ _ (guarantee env (closures _) (_, q.rt)))
        (opId_of_update he (hopId _ _)) (fun t ht hlive => hlease ht hlive)
        rfl (Routed.refl _)
  | @foreign ptr r hr =>
      have hspec : TimerHandle fails ptr q.outer r := .of_foreign hr
      exact .of_routed (p := q) (fun id e' he' => ⟨e', he', rfl⟩) (fun t ht _ => Or.inl ht) rfl
        (hspec.routed fun ack hack hempty => hpeer _ ⟨ack, hack, hempty, rfl⟩)

/-- Within a `tick` that began in `s`: every datagram went where it belongs, and the timers that
answer another client than the peer are those from before. -/
structure Awaiting (s q : Server) : Prop where
  addressed : Addressed q.mem.outer
  peer : q.mem.outer.peer = s.mem.outer.peer
  timers : ∀ t ∈ q.rt.queue, t.repeat_ ≠ 0 → ∀ requester, q.Answers requester t.callback →
    requester = s.mem.outer.peer ∨ (t ∈ s.rt.queue ∧ s.Answers requester t.callback)

/-- A callback that answers only the peer, then a change of the queue that adds no other answer. -/
theorem Awaiting.replied {q r r' : Server} (h : Awaiting s q) (hr : Replied q r)
    (hmem : r'.mem = r.mem)
    (hq : ∀ t ∈ r'.rt.queue, t.repeat_ ≠ 0 → t ∈ r.rt.queue ∨
      ∀ requester, q.Answers requester t.callback → requester = q.mem.outer.peer) :
    Awaiting s r' where
  addressed := by
    rw [hmem]
    exact hr.addressed h.addressed
  peer := by rw [hmem, hr.peer, h.peer]
  timers t ht hlive requester ha := by
    have ha' : r.Answers requester t.callback := by
      unfold Server.Answers at ha ⊢
      rwa [hmem] at ha
    rcases hr.answers requester t.callback ha' with hpeer | hbefore
    · exact Or.inl (hpeer.trans h.peer)
    · rcases hq t ht hlive with ht | honly
      · rcases hr.queue t ht hlive with ht | honly
        · exact h.timers t ht hlive requester hbefore
        · exact Or.inl ((honly requester ha').trans h.peer)
      · exact Or.inl ((honly requester hbefore).trans h.peer)

/-- What holds within a `tick` that began in `s`. -/
structure Delivering (env : Env) (s q : Server) : Prop where
  readings_le : s.rt.readings ≤ q.rt.readings
  wired : Wired q
  quiet : Strayed env s q.rt.readings ∨ Awaiting s q

/-- An iteration of `tick` sends nothing astray, or a timer for another client was due. -/
theorem Delivering.tickIter {q : Server} (h : Delivering env s q) {r : Iter Server}
    (hr : TickIter env (runTimer env (serverHooks env fails)) q r) :
    Delivering env s r.state := by
  have hreadings := hr.readings_le serverHooks_benign
  have harmed := h.wired.armed
  refine ⟨h.readings_le.trans hreadings, h.wired.tickIter hr, ?_⟩
  obtain ⟨hle, -, hquiet⟩ := h
  have hlocked : Awaiting s q → Awaiting s { q with rt := q.rt.readClock.lock } := fun h =>
    ⟨h.addressed, h.peer, h.timers⟩
  -- a live front that is due answers the peer, or is one from before
  have hfront : ∀ {t rest}, q.rt.queue = t :: rest → t.repeat_ ≠ 0 →
      t.expireTime ≤ q.rt.now env → ∀ m, q.rt.readings < m → Strayed env s m ∨
        (Awaiting s q ∧ ∀ requester, q.Answers requester t.callback →
          requester = q.mem.outer.peer) := by
    intro t rest hq h0 hdue m hm
    rcases hquiet with hs | ha
    · exact Or.inl (hs.mono hm.le)
    · by_cases honly : ∀ requester, q.Answers requester t.callback → requester = q.mem.outer.peer
      · exact Or.inr ⟨ha, honly⟩
      · obtain ⟨requester, hother⟩ := not_forall.mp honly
        obtain ⟨hanswers, hne⟩ := Classical.not_imp.mp hother
        rw [ha.peer] at hne
        obtain ⟨ht, hbefore⟩ := (ha.timers t (by rw [hq]; exact List.mem_cons_self) h0 requester
          hanswers).resolve_left hne
        exact Or.inl ⟨t, ht, h0, ⟨requester, hbefore, hne⟩, q.rt.readings, hle, hm, hdue⟩
  cases hr with
  | empty hq => exact hquiet
  | notDue hq hdue =>
      exact hquiet.imp (fun hs => hs.mono hreadings) fun ha => ⟨ha.addressed, ha.peer, ha.timers⟩
  | @dead t rest q' hq hdue h0 hperm =>
      refine hquiet.imp (fun hs => hs.mono hreadings)
        fun ha => ⟨ha.addressed, ha.peer, fun t' ht' => ha.timers t' ?_⟩
      rw [hq]
      exact List.mem_cons_of_mem t (hperm.mem_iff.mp ht')
  | @threw t rest e p₁ hq hdue h0 hrun =>
      have hspec := RunTimer.of_eq hrun
      apply (hfront hq h0 hdue _ (hspec.readings_le serverHooks_benign)).imp_right
      rintro ⟨ha, honly⟩
      exact (hlocked ha).replied (hspec.replied honly) rfl fun t' ht' _ => Or.inl ht'
  | @fired t rest p₁ hq hdue h0 hrun =>
      have hspec := RunTimer.of_eq hrun
      have hlt : q.rt.readings < (settleFront env (decrementFront p₁.rt)).readings :=
        lt_of_lt_of_le (hspec.readings_le serverHooks_benign) (settled_readings_le env p₁.rt)
      apply (hfront hq h0 hdue _ hlt).imp_right
      rintro ⟨ha, honly⟩
      refine (hlocked ha).replied (hspec.replied honly) rfl fun t' ht' _ => ?_
      obtain ⟨rest₁, hq₁⟩ := hspec.front serverHooks_benign harmed hq hdue
      rw [hq₁]
      rcases mem_settled hq₁ ht' with ht' | ⟨-, hcall⟩
      · exact Or.inl (List.mem_cons_of_mem t ht')
      · rw [hcall]
        exact Or.inr honly

/-! ## Runs -/

/-- `CATCH_EXPTIONS` sends nothing. -/
theorem Addressed.catch {r : Option Thrown × Server} (h : Addressed r.2.mem.outer) :
    Addressed (Server.catch r).mem.outer := by
  unfold Server.catch
  split <;> exact h

/-- **A turn that is attended sends nothing astray.** -/
theorem Addressed.step (h : Addressed s.mem.outer) (hw : Wired s) {op : ServerOp}
    (hstep : s.step env fails op = some s') (hattended : Attended env s op s') :
    Addressed s'.mem.outer := by
  cases op with
  | receive sender data =>
      cases hstep
      exact (h.onReceive (onReceive_spec sender data s)).catch
  | tick fuel =>
      obtain ⟨r, hr, rfl⟩ := Option.map_eq_some_iff.mp hstep
      have hstart : Delivering env s s :=
        ⟨le_rfl, hw, Or.inr ⟨h, rfl, fun t ht _ requester ha => Or.inr ⟨ht, ha⟩⟩⟩
      have htick : Delivering env s r.2 := tickLoop_induct (Delivering env s)
        (fun _ _ hq hi => hq.tickIter hi) fuel s r.1 r.2 hstart hr
      rcases htick.quiet with ⟨t, ht, hlive, ⟨requester, ha, hne⟩, n, hn, hlt, hdue⟩ | hawaiting
      · have := hattended t ht hlive requester ha hne n hn (by rwa [catch_rt])
        exact absurd hdue (not_le.mpr this)
      · exact hawaiting.addressed.catch

/-- **Every datagram goes to the client whose request it answers** in the runs in which every `tick`
ends before the timers that would answer another client than the peer are due. -/
theorem addressed_of_attended : RepliesAddressed env fails (Attended env) := by
  intro s h
  induction h with
  | initial => exact fun x hx => nomatch hx
  | step op hbefore hstep hattended ih =>
      exact ih.step (wired_of_reachable hbefore) hstep hattended

/-- A response that is sent again while its client is the peer, as a case of
`addressed_of_attended`. -/
theorem addressed_of_attended_resent :
    ∃ s, Server.initial.run (jumpClock 3 600) (fun _ => false)
        [.receive 7 (some (updateRequestMessage 11 1 [5] 200 0)), .tick 2] = some s ∧
      s.mem.outer.sent.map Sent.dest = [7, 7] ∧ Addressed s.mem.outer := by
  have hfirst := Server.first_reachable (jumpClock 3 600)
    (show Attended (jumpClock 3 600) Server.initial _ (Server.first (jumpClock 3 600)) from trivial)
  refine ⟨_, rfl, by decide, addressed_of_attended _ (.step (.tick 2) hfirst rfl ?_)⟩
  intro t ht _ requester hanswers hne
  have hcalls : ∀ t ∈ (Server.first (jumpClock 3 600)).rt.queue,
      t.callback = .guaranteed 1 ∨ t.callback = .foreign 0 := by decide
  rcases hcalls t ht with hcall | hcall
  · rw [hcall] at hanswers
    exact hanswers.elim
  · rw [hcall] at hanswers
    obtain ⟨ack, hack, -, hreq⟩ := hanswers
    obtain rfl := Option.some.inj hack
    exact absurd hreq.symm hne

/-- The response to the client 7 is sent again to the client 8, whose request came last. -/
theorem not_addressed :
    ¬ RepliesAddressed (jumpClock 4 600) (fun _ => false) fun _ _ _ => True := by
  intro h
  obtain ⟨s, hrun, hsent⟩ : ∃ s, Server.initial.run (jumpClock 4 600) (fun _ => false)
      [.receive 7 (some (updateRequestMessage 11 1 [5] 200 0)),
        .receive 8 (some (readRequestMessage 12 2 200 0)), .tick 3] = some s ∧
      ∃ x ∈ s.mem.outer.sent, x.dest = 8 ∧ x.requester = 7 :=
    ⟨_, rfl, by decide⟩
  obtain ⟨x, hx, hdest, hreq⟩ := hsent
  have haddressed := h s (ServerReachable.run (fun _ _ _ => trivial) .initial hrun) x hx
  rw [hdest, hreq] at haddressed
  cases haddressed

end CacheSystem

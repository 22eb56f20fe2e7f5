import CacheSystem.Agreement
import CacheSystem.Completion
import CacheSystem.Refinement
import CacheSystem.Replay

/-!
# What clients are told was promised

A response that says `kOperationOk` carries an id, a value and the low 32 bits of an expire time.
Between the event at the data center and the handle of the client lie the scratch fields of the read
operation, the acknowledgement table, resends to whoever is the peer then, and a network that loses,
duplicates and reorders.

* `Event.Answers` : the response says what the event promised.
* `OnReceive.promises` : what a datagram is answered with `kOperationOk`.
* `Honest` : the responses to one request, and `Honest.received`.
* `Traced` : where the handles of a client and what they are told come from.
* `told_is_promised` : a read call that is told `kOperationOk` was told a promise, in every run.
-/

namespace CacheSystem

variable {env : Env} {fails : Nat → Bool} {s s' : Server}
  {mem mem' : CenterMem CacheData Request ServerMem}

/-! ## Responses -/

/-- The response says what the event promised, as far as its `expire` goes. -/
def Event.Answers (r : CacheOpResponse) (event : Event CacheData Request) : Prop :=
  ∃ expire, event.promise = some (r.cacheId.toUInt64, r.cacheData, expire) ∧
    r.expire = UInt32.ofInt expire

/-- If the response says `kOperationOk`, it says what was promised. -/
def Promised (mem : CenterMem CacheData Request ServerMem) (r : CacheOpResponse) : Prop :=
  r.result = OpResult.kOperationOk.code → ∃ event ∈ mem.trace, event.Answers r

/-- A promise stays in the history. -/
theorem Promised.mono {r : CacheOpResponse} (h : Promised mem r)
    (htrace : ∀ event ∈ mem.trace, event ∈ mem'.trace) : Promised mem' r := by
  intro hok
  obtain ⟨event, hevent, hanswers⟩ := h hok
  exact ⟨event, htrace event hevent, hanswers⟩

/-- What a read request is answered. -/
theorem ReadOp.promises {m : CacheMessage} {read : CacheReadRequest} {ret : OpResult}
    {out : Option (Int × CacheData)} {s₁ : Server} {opId : UInt32}
    (hop : ReadOp env read.cacheId.toUInt64 opId (s.setCacheId read.cacheId) (.ok (ret, out), s₁))
    {r : CacheOpResponse}
    (hr : (readResponse m (s₁.setScratch ret out).mem.outer).opResponse = some r) :
    Promised s₁.mem r := by
  cases hr
  intro hok
  cases hop with
  | absent he =>
      have hne : OpResult.kOperationErrorNoData.code ≠ OpResult.kOperationOk.code := by decide
      exact absurd hok hne
  | renewed he hm hs => exact ⟨_, List.mem_append_right _ (List.mem_singleton_self _), _, rfl, rfl⟩
  | unleased he hstate =>
      exact ⟨_, List.mem_append_right _ (List.mem_singleton_self _), _, rfl, rfl⟩

/-- What an update request is answered at once. -/
theorem UpdateOp.promises {m : CacheMessage} {sender : Address} {update : CacheUpdateRequest}
    {ret : OpResult} {expire : Int} {s₁ : Server} {opId : UInt32}
    (hupdate : m.updateRequest = some update)
    (hop : UpdateOp env update.cacheId.toUInt64 update.cacheData opId ⟨m, sender⟩ s
      (.ok (ret, expire), s₁)) (hret : ret ≠ .kOperationDefer) {r : CacheOpResponse}
    (hr : (updateResponse m expire ret).opResponse = some r) : Promised s₁.mem r := by
  simp only [updateResponse, hupdate, Option.getD_some] at hr
  cases hr
  intro hok
  cases hop with
  | assigned he hstate hs =>
      exact ⟨_, List.mem_append_right _ (List.mem_singleton_self _), _, rfl, rfl⟩
  | deferred he hstate h0 hdelay hs => exact absurd rfl hret
  | retried he hstate h0 =>
      have hne : OpResult.kOperationRetry.code ≠ OpResult.kOperationOk.code := by decide
      exact absurd hok hne

/-- **What a datagram is answered**: a response that the server carries was carried before, or says
what was promised. -/
theorem OnReceive.promises {sender : Address} {data : Option CacheMessage}
    {q : Option Thrown × Server} (hr : OnReceive env fails sender s data q) {m : CacheMessage}
    {r : CacheOpResponse} (hm : q.2.mem.outer.Carries m) (hresponse : m.opResponse = some r) :
    s.mem.outer.Carries m ∨ Promised q.2.mem r := by
  cases hr with
  | ignored he => exact Or.inl hm
  | @acked m' hm' =>
      refine Or.inl ((Unregister.carries (unregisterWaitAck_spec m'.opId
        (s.setPeer sender).outer) hm).resolve_right ?_)
      rw [hresponse]
      simp
  | @read m' read ret out s₁ s₂ q hm' hread hop hs₂ hr =>
      have houter : s₁.mem.outer = _ := hop.outer
      subst hs₂
      rcases hr.carries hm with hm | rfl | hnone
      · refine Or.inl ?_
        rcases out with _ | ⟨expire, value⟩ <;>
          simp only [outer_mem, Proc.setScratch, setOuter_outer, houter] at hm <;> exact hm
      · refine Or.inr ((hop.promises hresponse).mono ?_)
        rcases out with _ | ⟨expire, value⟩ <;> exact fun event hevent => hevent
      · rw [hresponse] at hnone
        cases hnone
  | updateThrew hm' hupdate hop =>
      rw [hop.outer] at hm
      exact Or.inl hm
  | @deferred m' update expire s₁ hm' hupdate hop =>
      have houter : s₁.mem.outer = _ := hop.outer
      rw [emplaceDefer_eq] at hm
      simp only [setOuter_outer, houter] at hm
      exact Or.inl hm
  | @updated m' update ret expire s₁ q hm' hupdate hret hop hr =>
      have houter : s₁.mem.outer = _ := hop.outer
      rcases hr.carries hm with hm | rfl | hnone
      · rw [outer_mem, houter] at hm
        exact Or.inl hm
      · exact Or.inr ((hop.promises hupdate hret hresponse).mono fun event hevent => hevent)
      · rw [hresponse] at hnone
        cases hnone

/-! ## The responses to one request -/

/-- The responses under the op id of the request that say `kOperationOk` say what was promised. -/
def Honest (f : Request) (mem : CenterMem CacheData Request ServerMem) : Prop :=
  ∀ m r, mem.outer.Carries m → m.opId = f.message.opId → m.opResponse = some r → Promised mem r

/-- Deferred messages are updates. -/
def DefersUpdates (mem : CenterMem CacheData Request ServerMem) : Prop :=
  ∀ opId g, mem.outer.deferMessages opId = some g → g.message.updateRequest ≠ none

/-- At the start nothing is deferred. -/
theorem DefersUpdates.initial : DefersUpdates Server.initial.mem := fun _ _ h => nomatch h

/-- What a datagram brings to the deferred messages is an update. -/
theorem DefersUpdates.received {g : Request} {late : Prop} (h : DefersUpdates mem)
    (hr : Received g late mem mem') : DefersUpdates mem' := by
  intro opId f hf
  rcases hr.defers hf with hf | ⟨rfl, -, -, hupdate⟩
  · exact h opId f hf
  · exact hupdate

/-- A callback defers nothing. -/
theorem DefersUpdates.fired (h : DefersUpdates mem) (hr : Fired mem mem') : DefersUpdates mem' :=
  fun opId f hf => h opId f (hr.defers hf)

/-- At the start nothing is said. -/
theorem Honest.initial (f : Request) : Honest f Server.initial.mem := by
  intro m r hm
  rcases hm with ⟨ptr, ack, hack, -⟩ | ⟨x, hx, -⟩
  · cases hack
  · cases hx

/-- A datagram is answered with what was promised. -/
theorem Honest.received {f g : Request} (h : Honest f s.mem) {data : Option CacheMessage}
    {q : Option Thrown × Server} (hr : OnReceive env fails g.requester s data q)
    (hdata : ∀ m, data = some m → m = g.message) : Honest f q.2.mem := by
  intro m r hm hid hresponse
  rcases hr.promises hm hresponse with hm | hpromised
  · exact (h m r hm hid hresponse).mono (hr.received hdata).trace_mem
  · exact hpromised

/-- No callback answers a read. -/
theorem Honest.fired {f : Request} {delivered : List Request} (h : Honest f mem)
    (hs : Sourced delivered mem) (hd : DefersUpdates mem) (halone : Alone f delivered)
    (hread : f.message.updateRequest = none) (hr : Fired mem mem') : Honest f mem' := by
  intro m r hm hid hresponse
  rcases hr.says hm hresponse with hm | ⟨id, e, request, expire, -, -, hdefer, rfl⟩
  · exact (h m r hm hid hresponse).mono hr.trace_mem
  · obtain ⟨hrequest, hask, -⟩ := hs.deferred _ _ hdefer
    obtain rfl := halone request hrequest hask hid
    exact absurd hread (hd _ _ hdefer)

/-! ## Handles -/

/-- A call keeps one operation more. -/
theorem Call.turn_requests {c : Call} {sendFails : Bool} {client : Client} {opId : UInt64}
    {op : CacheClientOperation} (h : (c.turn sendFails client).client.requests opId = some op) :
    client.requests opId = some op ∨ (opId = c.opId ∧ op.cacheId = c.cacheId) := by
  have hemplace : (client.emplace ⟨c.opId, c.cacheId⟩).requests opId = some op := by
    unfold Call.turn at h
    split at h <;> exact h
  have hkeyed := (client.emplace ⟨c.opId, c.cacheId⟩).keyed opId op hemplace
  refine (Client.emplace_requests hemplace).imp_right fun hnew => ?_
  subst hnew
  exact ⟨hkeyed.symm, rfl⟩

/-- A datagram adds no operation to a client. -/
theorem ClientReceive.requests {sendFails : Bool} {data : Option CacheMessage} {client : Client}
    {turn : ClientTurn} (h : ClientReceive sendFails data client turn) {opId : UInt64}
    {op : CacheClientOperation} (hop : turn.client.requests opId = some op) :
    client.requests opId = some op := by
  cases h with
  | ignored hclient hhandled =>
      rw [hclient] at hop
      exact hop
  | answered hdata havailable hop' hr hid hclient hhandled =>
      rw [hclient] at hop
      split at hop
      · exact hop
      · exact (Lib.Table.of_erase hop).2

/-- A handle is told what the datagram says to its operation. -/
theorem ClientReceive.told {sendFails : Bool} {data : Option CacheMessage} {client : Client}
    {turn : ClientTurn} (h : ClientReceive sendFails data client turn) {handled : Handled}
    (hhandled : handled ∈ turn.handled) :
    ∃ message r op, data = some message ∧ message.opResponse = some r ∧
      client.requests message.opId = some op ∧ r.cacheId = op.cacheId ∧
        handled = ⟨message.opId, r.result, r.expire, r.cacheId, r.cacheData⟩ := by
  cases h with
  | ignored hclient hnone =>
      rw [hnone] at hhandled
      cases hhandled
  | @answered m op r hdata havailable hop hr hid hclient hone =>
      rw [hone] at hhandled
      refine ⟨m, r, op, hdata, hr, hop, hid, ?_⟩
      rw [List.mem_singleton.mp hhandled, client.keyed _ op hop]

/-- The operations that a client keeps are its calls, and a handle is told what a message of the
server says to the call that it belongs to. -/
structure Traced (s : System) : Prop where
  requests : ∀ client opId op, (s.clients client).requests opId = some op →
    ∃ c ∈ s.calls, c.client = client ∧ c.opId = opId ∧ c.cacheId = op.cacheId
  handled : ∀ client handled, (client, handled) ∈ s.handled →
    (∃ c ∈ s.calls, c.client = client ∧ c.opId = handled.opId ∧ c.cacheId = handled.cacheId) ∧
      ∃ x ∈ s.server.mem.outer.sent, ∃ r, x.message.opResponse = some r ∧
        handled = ⟨x.message.opId, r.result, r.expire, r.cacheId, r.cacheData⟩

variable {t t' : System} {ok : System → SystemOp → Prop} {c : Call}

/-- At the start the clients keep nothing. -/
theorem Traced.initial : Traced {} where
  requests _ _ _ h := by cases h
  handled _ _ h := by cases h

/-- A datagram leaves the network. -/
theorem Traced.take (h : Traced t) (d : Datagram) (keep : Bool) : Traced (t.take d keep) where
  requests := by
    rw [take_clients, take_calls]
    exact h.requests
  handled := by
    rw [take_handled, take_calls, take_server]
    exact h.handled

/-- A turn of the server takes nothing back. -/
theorem Traced.serverTurn (h : Traced t) {server : Server}
    (hsent : ∀ x ∈ t.server.mem.outer.sent, x ∈ server.mem.outer.sent) :
    Traced (t.serverTurn server) where
  requests := h.requests
  handled client handled hmem := by
    obtain ⟨hcall, x, hx, hsays⟩ := h.handled client handled hmem
    exact ⟨hcall, x, hsent x hx, hsays⟩

/-- A turn of a client that keeps only operations of calls, and tells its handles only what a
message of the server says to them. -/
theorem Traced.clientTurn (h : Traced t) {client : Address} {turn : ClientTurn}
    (hrequests : ∀ opId op, turn.client.requests opId = some op →
      ∃ c ∈ t.calls, c.client = client ∧ c.opId = opId ∧ c.cacheId = op.cacheId)
    (hhandled : ∀ handled ∈ turn.handled,
      (∃ c ∈ t.calls, c.client = client ∧ c.opId = handled.opId ∧ c.cacheId = handled.cacheId) ∧
        ∃ x ∈ t.server.mem.outer.sent, ∃ r, x.message.opResponse = some r ∧
          handled = ⟨x.message.opId, r.result, r.expire, r.cacheId, r.cacheData⟩) :
    Traced (t.clientTurn client turn) where
  requests client' opId op hop := by
    by_cases hclient : client' = client
    · subst hclient
      simp only [System.clientTurn, Function.update_self] at hop
      exact hrequests opId op hop
    · simp only [System.clientTurn, Function.update_of_ne hclient] at hop
      exact h.requests client' opId op hop
  handled client' handled hmem := by
    rcases List.mem_append.mp hmem with hmem | hmem
    · exact h.handled client' handled hmem
    · obtain ⟨handled', hmem, heq⟩ := List.mem_map.mp hmem
      cases heq
      exact hhandled handled hmem

/-- **A step keeps operations and handles traced to calls.** -/
theorem Traced.step (h : Traced t) (htraffic : Traffic t) {op : SystemOp}
    (hstep : t.Step env fails op t') : Traced t' := by
  cases hstep with
  | @call c sendFails hnew =>
      have hmore : Traced { t with calls := t.calls ++ [c] } :=
        { requests := fun client opId op hop => by
            obtain ⟨c', hc', hcall⟩ := h.requests client opId op hop
            exact ⟨c', List.mem_append_left _ hc', hcall⟩
          handled := fun client handled hmem => by
            obtain ⟨⟨c', hc', hcall⟩, hsays⟩ := h.handled client handled hmem
            exact ⟨⟨c', List.mem_append_left _ hc', hcall⟩, hsays⟩ }
      refine Traced.clientTurn (t := { t with calls := t.calls ++ [c] }) hmore
        (fun opId op hop => ?_) fun handled hmem => ?_
      · rcases Call.turn_requests hop with hop | ⟨rfl, hid⟩
        · exact hmore.requests c.client opId op hop
        · exact ⟨c, List.mem_append_right _ (List.mem_singleton_self c), rfl, rfl, hid.symm⟩
      · rw [(c.turn_spec sendFails _).2] at hmem
        cases hmem
  | @request request parses keep sendFails server hmem hserver =>
      have hmore : Traced ((t.take (.request request) keep).serverTurn server) :=
        (h.take _ keep).serverTurn (by
          rw [take_server]
          exact Server.step_sent_mem hserver)
      exact ⟨hmore.requests, hmore.handled⟩
  | @response dest message parses keep sendFails hmem =>
      obtain ⟨x, hx, hmessage⟩ := htraffic.responses dest message hmem
      refine (h.take (.response dest message) keep).clientTurn (fun opId op hop => ?_)
        fun handled hhandled => ?_
      · rw [take_calls]
        exact h.requests dest opId op ((clientReceive_cases sendFails _ _).requests hop)
      · obtain ⟨message', r, op, hdata, hr, hop, hid, rfl⟩ :=
          (clientReceive_cases sendFails _ _).told hhandled
        obtain rfl : message' = message := by
          cases parses <;> cases hdata
          rfl
        obtain ⟨c, hc, hclient, hopId, hcacheId⟩ := h.requests dest _ op hop
        rw [take_calls, take_server]
        refine ⟨⟨c, hc, hclient, hopId, hcacheId.trans hid.symm⟩, x, hx, r, by rw [hmessage, hr], ?_⟩
        rw [hmessage]
  | drop hmem => exact h.take _ false
  | tick hserver => exact h.serverTurn (Server.step_sent_mem hserver)

/-- In every run operations and handles are traced to calls. -/
theorem SystemReachable.traced (h : SystemReachable env fails ok t) : Traced t := by
  induction h with
  | initial => exact .initial
  | step op hs _ hstep ih => exact ih.step hs.traffic (System.step_spec hstep)

/-! ## Runs -/

/-- **The invariant rule of the system** for what depends on the server and on the datagrams that
reached it: each of its turns keeps it. -/
theorem SystemReachable.server_turns {P : List Request → Server → Prop}
    (hinitial : P [] Server.initial)
    (hreceive : ∀ t g parses keep sendFails server,
      ok t (.deliver (.request g) parses keep sendFails) → P t.delivered t.server →
        t.server.step env fails
          (.receive g.requester (if parses then some g.message else none)) = some server →
        P (t.delivered ++ [g]) server)
    (htick : ∀ t fuel server, ok t (.tick fuel) → P t.delivered t.server →
      t.server.step env fails (.tick fuel) = some server → P t.delivered server)
    (h : SystemReachable env fails ok t) : P t.delivered t.server := by
  induction h with
  | initial => exact hinitial
  | @step t t' op _ hok hstep ih =>
      cases System.step_spec hstep with
      | call hnew => exact ih
      | @request g parses keep sendFails server hmem hserver =>
          exact hreceive t g parses keep sendFails server hok ih hserver
      | response hmem =>
          show P (t.take _ _).delivered (t.take _ _).server
          rw [take_delivered, take_server]
          exact ih
      | drop hmem =>
          rw [take_delivered, take_server]
          exact ih
      | tick hserver => exact htick t _ _ hok ih hserver

/-- The server of a system is in a run of its own. -/
theorem SystemReachable.server (h : SystemReachable env fails ok t) :
    ServerReachable env fails (fun _ _ _ => True) t.server :=
  h.server_turns (P := fun _ server => ServerReachable env fails (fun _ _ _ => True) server)
    .initial (fun _ _ _ _ _ _ _ hs hstep => .step _ hs hstep trivial)
    fun _ _ _ _ hs hstep => .step _ hs hstep trivial

/-- What a read is told is promised, in every run. -/
theorem SystemReachable.honest (hkind : c.kind = .read) (h : SystemReachable env fails ok t) :
    Sourced t.delivered t.server.mem ∧ DefersUpdates t.server.mem ∧
      (Alone c.request t.delivered → Honest c.request t.server.mem) := by
  have hread : c.request.message.updateRequest = none := by
    simp only [Call.request, Call.message, hkind]
    rfl
  refine h.server_turns (P := fun delivered server => Sourced delivered server.mem ∧
    DefersUpdates server.mem ∧ (Alone c.request delivered → Honest c.request server.mem)) ?_
    (fun t g parses _ _ server _ ht hstep => ?_) fun t fuel server _ ht hstep => ?_
  · exact ⟨.initial, .initial, fun _ => .initial _⟩
  · obtain ⟨hs, hd, hh⟩ := ht
    refine Server.step_mem (P := fun mem => mem = t.server.mem)
      (Q := fun mem => Sourced (t.delivered ++ [g]) mem ∧ DefersUpdates mem ∧
        (Alone c.request (t.delivered ++ [g]) → Honest c.request mem))
      (fun _ log h => ⟨h.1.log log, h.2⟩) hstep (fun sender data r hop hr _ => ?_)
      (fun _ hop => by cases hop) (fun p call r h hr => ?_) rfl
    · cases hop
      have hdata : ∀ m, (if parses then some g.message else none) = some m → m = g.message := by
        intro m hm
        cases parses <;> cases hm
        rfl
      have hreceived := hr.received hdata
      exact ⟨hs.received hreceived, hd.received hreceived, fun halone =>
        (hh fun g' hg' => halone g' (List.mem_append_left _ hg')).received hr hdata⟩
    · exact ⟨h.1.fired hr.fired, h.2.1.fired hr.fired, fun halone =>
        (h.2.2 halone).fired h.1 h.2.1 halone hread hr.fired⟩
  · exact Server.tick_mem (Q := fun mem => Sourced t.delivered mem ∧ DefersUpdates mem ∧
      (Alone c.request t.delivered → Honest c.request mem))
      (fun _ log h => ⟨h.1.log log, h.2⟩)
      (fun _ _ h hr => ⟨h.1.fired hr, h.2.1.fired hr, fun halone =>
        (h.2.2 halone).fired h.1 h.2.1 halone hread hr⟩) hstep ht

/-- A promise is made for the value that the history has then. -/
theorem Replays.promise {T H : Type} {unspecified : T} {map : UInt64 → Option (CacheElement T H)}
    {trace pre post : List (Event T H)} (h : Replays unspecified map trace) {event : Event T H}
    (htrace : trace = pre ++ event :: post) {cacheId : UInt64} {value : T} {expire : Int}
    (hpromise : event.promise = some (cacheId, value, expire)) :
    replay unspecified (pre ++ [event]) cacheId = some value := by
  rw [replay_concat]
  cases event with
  | read _ _ _ =>
      cases hpromise
      exact h.shows pre _ post cacheId value htrace rfl
  | updated _ _ _ _ _ =>
      cases hpromise
      exact Function.update_self _ _ _
  | completed _ _ _ _ _ _ =>
      cases hpromise
      exact h.shows pre _ post cacheId value htrace rfl
  | deferred _ _ _ _ => cases hpromise
  | retried _ _ _ => cases hpromise
  | moved _ _ _ => cases hpromise

/-- The handle was told of a promise in the history: the value that the id had at that point, and
the low bits of the expire time. -/
def Handled.Promised (trace : List (Event CacheData Request)) (handled : Handled) : Prop :=
  ∃ pre event post expire, trace = pre ++ event :: post ∧
    event.promise = some (handled.cacheId.toUInt64, handled.cacheData, expire) ∧
    handled.expire = UInt32.ofInt expire ∧
    replay [] (pre ++ [event]) handled.cacheId.toUInt64 = some handled.cacheData

/-- What a handle is told that a response answers. -/
theorem Event.Answers.handled {t : System} (h : SystemReachable env fails ok t)
    {event : Event CacheData Request} (hevent : event ∈ t.server.mem.trace) {r : CacheOpResponse}
    (hanswers : event.Answers r) (opId : UInt64) :
    (⟨opId, r.result, r.expire, r.cacheId, r.cacheData⟩ : Handled).Promised t.server.mem.trace := by
  obtain ⟨pre, post, htrace⟩ := List.append_of_mem hevent
  obtain ⟨expire, hpromise, hexpire⟩ := hanswers
  exact ⟨pre, event, post, expire, htrace, hpromise, hexpire,
    (server_replays h.server).promise htrace hpromise⟩

/-- The read calls that are told `kOperationOk` are told what was promised, of their own key. -/
def ReadsPromised (t : System) : Prop :=
  ∀ c ∈ t.calls, c.kind = .read → ∀ client handled, (client, handled) ∈ t.handled →
    handled.opId = c.opId → handled.result = OpResult.kOperationOk.code →
      client = c.client ∧ handled.cacheId = c.cacheId ∧ handled.Promised t.server.mem.trace

/-- **A read is told what was promised**: in every run, whatever the network does to its request and
to the response, a read call that is told `kOperationOk` is told a value that its cache id had, and
the expire time with which it was handed out. -/
theorem told_is_promised : ∀ t, SystemReachable env fails AnyStep t → ReadsPromised t := by
  intro t h c hc hkind client handled hmem hid hok
  obtain ⟨⟨c', hc', hclient, hopId, hcacheId⟩, x, hx, r, hr, rfl⟩ :=
    h.traced.handled client handled hmem
  obtain rfl : c' = c := h.traffic.distinct c' hc' c hc (hopId.trans hid)
  have hhonest := (h.honest hkind).2.2 (h.traffic.alone hc)
  obtain ⟨event, hevent, hanswers⟩ := hhonest x.message r (Or.inr ⟨x, hx, rfl⟩)
    (by rw [Call.request_opId]; exact hid) hr hok
  exact ⟨hclient.symm, hcacheId.symm, hanswers.handled h hevent _⟩

/-- A read of what another client wrote, as a case of `told_is_promised`. -/
theorem told_is_promised_read : ∃ t : System,
    ((8, ⟨12, OpResult.kOperationOk.code, 10000, 1, [5]⟩) : Address × Handled) ∈ t.handled ∧
      (⟨12, OpResult.kOperationOk.code, 10000, 1, [5]⟩ : Handled).Promised t.server.mem.trace := by
  obtain ⟨t, hrun, hc, hhandled⟩ : ∃ t, ({} : System).run stillClock (fun _ => false)
      [.call (updateCall 7 11 1 [5]) false,
        .deliver (.request (updateCall 7 11 1 [5]).request) true false false,
        .call ⟨8, 12, 1, .read, 0⟩ false,
        .deliver (.request (⟨8, 12, 1, .read, 0⟩ : Call).request) true false false,
        .deliver (.response 8 ⟨some ⟨headerMagic, headerVersion, kReadResponse, 12⟩, none, none,
          some ⟨OpResult.kOperationOk.code, 0, 10000, 1, [5]⟩⟩) true false false] = some t ∧
      ⟨8, 12, 1, .read, 0⟩ ∈ t.calls ∧
      ((8, ⟨12, OpResult.kOperationOk.code, 10000, 1, [5]⟩) : Address × Handled) ∈ t.handled :=
    ⟨_, rfl, by decide⟩
  exact ⟨t, hhandled, (told_is_promised t (.run .initial hrun) _ hc rfl 8 _ hhandled rfl rfl).2.2⟩

end CacheSystem

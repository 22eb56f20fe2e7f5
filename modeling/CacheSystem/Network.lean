import CacheSystem.Client
import CacheSystem.Updates

/-!
# Clients and the server over a datagram network

Any number of clients, each at its own address, and the server exchange datagrams. One step of the
system is a call into a client, the arrival of a datagram, the loss of one, or a `tick` of the
server.

* A datagram in flight arrives at any time, in any order; `keep` leaves it in flight, so that it
  arrives again. `parses` is whether the receiver's `ParseFromString` succeeds on what it is handed.
* The op ids of the calls are pairwise distinct: a call with an op id that was used is no step.
* `delivered` lists the datagrams that reached the server, one entry for each copy, and `handled`
  the handles that were invoked. No step reads them.
* `Step` : the inversion of a step, `Traffic` : where the datagrams come from.
-/

namespace CacheSystem

/-! ## The system -/

/-- A datagram in flight: to the server, or to the client at `dest`. -/
inductive Datagram
  | request (request : Request)
  | response (dest : Address) (message : CacheMessage)
  deriving DecidableEq, Repr

/-- What is asked of a client. -/
inductive CallKind
  | read
  | update (cacheData : CacheData)
  deriving DecidableEq, Repr

/-- A call into a client: `generate_uniform_id` returned `opId`, and its clock showed
`timestamp`. -/
structure Call where
  client : Address
  opId : UInt64
  cacheId : UInt32
  kind : CallKind
  timestamp : Int
  deriving DecidableEq, Repr

/-- An update call of a client whose clock shows 0. -/
def updateCall (client : Address) (opId : UInt64) (cacheId : UInt32) (cacheData : CacheData) :
    Call where
  client := client
  opId := opId
  cacheId := cacheId
  kind := .update cacheData
  timestamp := 0

/-- A read call of a client whose clock shows 0. -/
def readCall (client : Address) (opId : UInt64) (cacheId : UInt32) : Call where
  client := client
  opId := opId
  cacheId := cacheId
  kind := .read
  timestamp := 0

/-- The request that the call sends. -/
def Call.message (c : Call) : CacheMessage :=
  match c.kind with
  | .read => readRequestMessage c.opId c.cacheId 200 c.timestamp
  | .update cacheData => updateRequestMessage c.opId c.cacheId cacheData 200 c.timestamp

/-- The request as it reaches the server. -/
def Call.request (c : Call) : Request := ⟨c.message, c.client⟩

/-- What the client does. -/
def Call.turn (c : Call) (sendFails : Bool) (client : Client) : ClientTurn :=
  match c.kind with
  | .read => client.readCacheAsync sendFails c.opId c.cacheId c.timestamp
  | .update cacheData => client.updateCacheAsync sendFails c.opId c.cacheId cacheData c.timestamp

/-- The clients, the server, and the network between them. -/
structure System where
  server : Server := Server.initial
  clients : Address → Client := fun _ => {}
  inFlight : List Datagram := []
  calls : List Call := []
  delivered : List Request := []
  handled : List (Address × Handled) := []

/-- One step of the system. -/
inductive SystemOp
  | call (c : Call) (sendFails : Bool)
  | deliver (d : Datagram) (parses keep sendFails : Bool)
  | drop (d : Datagram)
  | tick (fuel : Nat)

/-- After a turn of a client. -/
def System.clientTurn (client : Address) (turn : ClientTurn) (s : System) : System :=
  { s with
    clients := Function.update s.clients client turn.client
    inFlight := s.inFlight ++ turn.sent.map fun message => .request ⟨message, client⟩
    handled := s.handled ++ turn.handled.map fun handled => (client, handled) }

/-- After a turn of the server, whose state is now `server`. -/
def System.serverTurn (server : Server) (s : System) : System :=
  { s with
    server := server
    inFlight := s.inFlight ++ (server.mem.outer.sent.drop s.server.mem.outer.sent.length).map
      fun x => .response x.dest x.message }

/-- A datagram leaves the network, unless it is kept. -/
def System.take (d : Datagram) (keep : Bool) (s : System) : System :=
  if keep then s else { s with inFlight := s.inFlight.erase d }

/-- A datagram that has left the network reaches its receiver. -/
def System.deliver (env : Env) (fails : Nat → Bool) (parses sendFails : Bool) (s : System) :
    Datagram → Option System
  | .request request =>
      (s.server.step env fails
        (.receive request.requester (if parses then some request.message else none))).map
        fun server => { s.serverTurn server with delivered := s.delivered ++ [request] }
  | .response dest message =>
      some (s.clientTurn dest
        ((s.clients dest).onReceive sendFails (if parses then some message else none)))

/-- The state after a step; `none` where there is no such step. -/
def System.step (env : Env) (fails : Nat → Bool) (s : System) : SystemOp → Option System
  | .call c sendFails =>
      if s.calls.any fun c' => c'.opId = c.opId then none
      else
        some { s.clientTurn c.client (c.turn sendFails (s.clients c.client)) with
          calls := s.calls ++ [c] }
  | .deliver d parses keep sendFails =>
      if d ∈ s.inFlight then (s.take d keep).deliver env fails parses sendFails d else none
  | .drop d => if d ∈ s.inFlight then some (s.take d false) else none
  | .tick fuel => (s.server.step env fails (.tick fuel)).map fun server => s.serverTurn server

/-- The state after a list of steps. -/
def System.run (env : Env) (fails : Nat → Bool) (s : System) : List SystemOp → Option System
  | [] => some s
  | op :: ops => (s.step env fails op).bind fun s' => System.run env fails s' ops

/-- The states of the runs whose steps all meet a condition `ok` on the state before the step and
the step. -/
inductive SystemReachable (env : Env) (fails : Nat → Bool) (ok : System → SystemOp → Prop) :
    System → Prop
  | initial : SystemReachable env fails ok {}
  | step {s s' : System} (op : SystemOp) : SystemReachable env fails ok s → ok s op →
      s.step env fails op = some s' → SystemReachable env fails ok s'

/-- No condition on a run. -/
def AnyStep : System → SystemOp → Prop := fun _ _ => True

/-- What a run from a reachable state reaches is reachable. -/
theorem SystemReachable.run {env : Env} {fails : Nat → Bool} {ops : List SystemOp} {s s' : System}
    (h : SystemReachable env fails AnyStep s) (hrun : s.run env fails ops = some s') :
    SystemReachable env fails AnyStep s' := by
  have hruns : Lib.Run.IsRun (System.step env fails) (System.run env fails) :=
    ⟨fun _ => rfl, fun _ _ _ => rfl⟩
  exact hruns.keeps (fun _ op _ h hstep => .step op h trivial hstep) h hrun

/-! ## Steps -/

variable {env : Env} {fails : Nat → Bool} {ok : System → SystemOp → Prop} {s s' : System}

/-- All that a step can do. -/
inductive System.Step (env : Env) (fails : Nat → Bool) (s : System) : SystemOp → System → Prop
  | call {c sendFails} (hnew : ∀ c' ∈ s.calls, c'.opId ≠ c.opId) :
      Step env fails s (.call c sendFails)
        { s.clientTurn c.client (c.turn sendFails (s.clients c.client)) with
          calls := s.calls ++ [c] }
  /-- A datagram reaches the server. -/
  | request {request parses keep sendFails server} (hmem : .request request ∈ s.inFlight)
      (hserver : s.server.step env fails
        (.receive request.requester (if parses then some request.message else none)) =
          some server) :
      Step env fails s (.deliver (.request request) parses keep sendFails)
        { (s.take (.request request) keep).serverTurn server with
          delivered := s.delivered ++ [request] }
  /-- A datagram reaches a client. -/
  | response {dest message parses keep sendFails} (hmem : .response dest message ∈ s.inFlight) :
      Step env fails s (.deliver (.response dest message) parses keep sendFails)
        ((s.take (.response dest message) keep).clientTurn dest
          ((s.clients dest).onReceive sendFails (if parses then some message else none)))
  | drop {d} (hmem : d ∈ s.inFlight) : Step env fails s (.drop d) (s.take d false)
  | tick {fuel server} (hserver : s.server.step env fails (.tick fuel) = some server) :
      Step env fails s (.tick fuel) (s.serverTurn server)

/-- Taking a datagram does not touch the server. -/
@[simp] theorem take_server (d : Datagram) (keep : Bool) (s : System) :
    (s.take d keep).server = s.server := by
  cases keep <;> rfl

/-- Taking a datagram does not touch the clients. -/
@[simp] theorem take_clients (d : Datagram) (keep : Bool) (s : System) :
    (s.take d keep).clients = s.clients := by
  cases keep <;> rfl

/-- Taking a datagram is no call. -/
@[simp] theorem take_calls (d : Datagram) (keep : Bool) (s : System) :
    (s.take d keep).calls = s.calls := by
  cases keep <;> rfl

/-- Taking a datagram does not deliver it. -/
@[simp] theorem take_delivered (d : Datagram) (keep : Bool) (s : System) :
    (s.take d keep).delivered = s.delivered := by
  cases keep <;> rfl

/-- Taking a datagram answers no handle. -/
@[simp] theorem take_handled (d : Datagram) (keep : Bool) (s : System) :
    (s.take d keep).handled = s.handled := by
  cases keep <;> rfl

/-- Taking a datagram puts none in flight. -/
theorem take_inFlight_subset (d : Datagram) (keep : Bool) (s : System) :
    (s.take d keep).inFlight ⊆ s.inFlight := by
  cases keep
  · exact List.erase_subset
  · exact fun _ h => h

/-- **A step of the system does one of these.** -/
theorem System.step_spec {op : SystemOp} (hstep : s.step env fails op = some s') :
    s.Step env fails op s' := by
  cases op with
  | call c sendFails =>
      simp only [System.step] at hstep
      split at hstep
      · cases hstep
      · rename_i hnew
        cases hstep
        refine .call fun c' hc' hid => hnew ?_
        exact List.any_eq_true.mpr ⟨c', hc', by simpa using hid⟩
  | deliver d parses keep sendFails =>
      simp only [System.step] at hstep
      split at hstep
      · rename_i hmem
        cases d with
        | request request =>
            simp only [System.deliver] at hstep
            obtain ⟨server, hserver, rfl⟩ := Option.map_eq_some_iff.mp hstep
            rw [take_server] at hserver
            rw [take_delivered]
            exact .request hmem hserver
        | response dest message =>
            cases hstep
            rw [take_clients]
            exact .response hmem
      · cases hstep
  | drop d =>
      simp only [System.step] at hstep
      split at hstep
      · rename_i hmem
        cases hstep
        exact .drop hmem
      · cases hstep
  | tick fuel =>
      obtain ⟨server, hserver, rfl⟩ := Option.map_eq_some_iff.mp hstep
      exact .tick hserver

/-! ## Traffic -/

/-- The message of a call has its op id. -/
@[simp] theorem Call.message_opId (c : Call) : c.message.opId = c.opId := by
  unfold Call.message
  cases c.kind <;> rfl

/-- A call into a client sends its request at most, and invokes no handle. -/
theorem Call.turn_spec (c : Call) (sendFails : Bool) (client : Client) :
    (∀ m ∈ (c.turn sendFails client).sent, m = c.message) ∧
      (c.turn sendFails client).handled = [] := by
  unfold Call.turn Call.message
  cases c.kind with
  | read => exact ⟨fun m hm => clientSend_sent hm, rfl⟩
  | update cacheData => exact ⟨fun m hm => clientSend_sent hm, rfl⟩

/-- So has the datagram that carries it. -/
@[simp] theorem Call.request_opId (c : Call) : c.request.message.opId = c.opId := c.message_opId

/-- An update call reads nothing. -/
theorem Call.request_readRequest {c : Call} {cacheData : CacheData}
    (hkind : c.kind = .update cacheData) : c.request.message.readRequest = none := by
  rw [Call.request, Call.message, hkind]
  rfl

/-- The datagram asks the server for nothing. -/
def Request.IsAck (g : Request) : Prop :=
  g.message.readRequest = none ∧ g.message.updateRequest = none

/-- Where the datagrams come from, and what the handles are told. -/
structure Traffic (s : System) : Prop where
  /-- A datagram to the server is the request of a call, or asks for nothing. -/
  inFlight : ∀ g, .request g ∈ s.inFlight → (∃ c ∈ s.calls, g = c.request) ∨ g.IsAck
  delivered : ∀ g ∈ s.delivered, (∃ c ∈ s.calls, g = c.request) ∨ g.IsAck
  /-- A datagram to a client was sent by the server. -/
  responses : ∀ dest m, .response dest m ∈ s.inFlight →
    ∃ x ∈ s.server.mem.outer.sent, x.message = m
  /-- A handle is told what a message of the server says. -/
  handled : ∀ client handled, (client, handled) ∈ s.handled →
    ∃ x ∈ s.server.mem.outer.sent, ∃ r, x.message.opResponse = some r ∧
      x.message.opId = handled.opId ∧ r.result = handled.result
  /-- No two calls have one op id. -/
  distinct : ∀ c ∈ s.calls, ∀ c' ∈ s.calls, c.opId = c'.opId → c = c'

/-- At the start nothing is under way. -/
theorem Traffic.initial : Traffic {} :=
  ⟨fun _ h => (nomatch h), fun _ h => (nomatch h), fun _ _ h => (nomatch h),
    fun _ _ h => (nomatch h), fun _ h => (nomatch h)⟩

/-- A datagram leaves the network. -/
theorem Traffic.take (h : Traffic s) (d : Datagram) (keep : Bool) : Traffic (s.take d keep) := by
  have hsub := take_inFlight_subset d keep s
  refine ⟨?_, ?_, ?_, ?_, ?_⟩
  · intro g hg
    rw [take_calls]
    exact h.inFlight g (hsub hg)
  · rw [take_delivered, take_calls]
    exact h.delivered
  · intro dest m hm
    rw [take_server]
    exact h.responses dest m (hsub hm)
  · rw [take_handled, take_server]
    exact h.handled
  · rw [take_calls]
    exact h.distinct

/-- A turn of a client that sends only acknowledgements and tells its handles only what a message
in flight says. -/
theorem Traffic.clientTurn (h : Traffic s) {client : Address} {turn : ClientTurn}
    (hsent : ∀ m ∈ turn.sent, Request.IsAck ⟨m, client⟩)
    (hhandled : ∀ handled ∈ turn.handled, ∃ x ∈ s.server.mem.outer.sent, ∃ r,
      x.message.opResponse = some r ∧ x.message.opId = handled.opId ∧ r.result = handled.result) :
    Traffic (s.clientTurn client turn) := by
  refine ⟨?_, h.delivered, ?_, ?_, h.distinct⟩
  · intro g hg
    rcases List.mem_append.mp hg with hg | hg
    · exact h.inFlight g hg
    · obtain ⟨m, hm, hmg⟩ := List.mem_map.mp hg
      cases hmg
      exact Or.inr (hsent m hm)
  · intro dest m hm
    rcases List.mem_append.mp hm with hm | hm
    · exact h.responses dest m hm
    · obtain ⟨m', -, hm'⟩ := List.mem_map.mp hm
      cases hm'
  · intro client' handled hmem
    rcases List.mem_append.mp hmem with hmem | hmem
    · exact h.handled client' handled hmem
    · obtain ⟨handled', hmem', heq⟩ := List.mem_map.mp hmem
      cases heq
      exact hhandled _ hmem'

/-- A turn of the server puts in flight what it sends. -/
theorem Traffic.serverTurn (h : Traffic s) {server : Server}
    (hsent : ∀ x ∈ s.server.mem.outer.sent, x ∈ server.mem.outer.sent) :
    Traffic (s.serverTurn server) := by
  refine ⟨?_, h.delivered, ?_, ?_, h.distinct⟩
  · intro g hg
    rcases List.mem_append.mp hg with hg | hg
    · exact h.inFlight g hg
    · obtain ⟨x, -, hx⟩ := List.mem_map.mp hg
      cases hx
  · intro dest m hm
    rcases List.mem_append.mp hm with hm | hm
    · obtain ⟨x, hx, hxm⟩ := h.responses dest m hm
      exact ⟨x, hsent x hx, hxm⟩
    · obtain ⟨x, hx, hxm⟩ := List.mem_map.mp hm
      cases hxm
      exact ⟨x, List.mem_of_mem_drop hx, rfl⟩
  · intro client handled hmem
    obtain ⟨x, hx, hxm⟩ := h.handled client handled hmem
    exact ⟨x, hsent x hx, hxm⟩

/-- A step keeps the traffic explained. -/
theorem Traffic.step (h : Traffic s) {op : SystemOp} (hstep : s.Step env fails op s') :
    Traffic s' := by
  cases hstep with
  | @call c sendFails hnew =>
      obtain ⟨hsent, hhandled⟩ := c.turn_spec sendFails (s.clients c.client)
      have hold : ∀ {g : Request}, (∃ c ∈ s.calls, g = c.request) ∨ g.IsAck →
          (∃ c' ∈ s.calls ++ [c], g = c'.request) ∨ g.IsAck :=
        Or.imp_left fun ⟨c', hc', hg⟩ => ⟨c', List.mem_append_left _ hc', hg⟩
      refine ⟨fun g hg => ?_, fun g hg => hold (h.delivered g hg), fun dest m hm => ?_,
        fun client handled hmem => ?_, fun c₁ hc₁ c₂ hc₂ hid => ?_⟩
      · rcases List.mem_append.mp hg with hg | hg
        · exact hold (h.inFlight g hg)
        · obtain ⟨m, hm, hmg⟩ := List.mem_map.mp hg
          cases hmg
          exact Or.inl ⟨c, List.mem_append_right _ (List.mem_singleton_self c), by
            rw [hsent m hm]
            rfl⟩
      · rcases List.mem_append.mp hm with hm | hm
        · exact h.responses dest m hm
        · obtain ⟨m', -, hm'⟩ := List.mem_map.mp hm
          cases hm'
      · rcases List.mem_append.mp hmem with hmem | hmem
        · exact h.handled client handled hmem
        · rw [hhandled] at hmem
          cases hmem
      · rcases List.mem_append.mp hc₁ with hc₁ | hc₁ <;> rcases List.mem_append.mp hc₂ with hc₂ | hc₂
        · exact h.distinct c₁ hc₁ c₂ hc₂ hid
        · rw [List.mem_singleton.mp hc₂] at hid
          exact absurd hid (hnew c₁ hc₁)
        · rw [List.mem_singleton.mp hc₁] at hid
          exact absurd hid.symm (hnew c₂ hc₂)
        · rw [List.mem_singleton.mp hc₁, List.mem_singleton.mp hc₂]
  | @request g parses keep sendFails server hmem hserver =>
      have hturn : Traffic ((s.take (.request g) keep).serverTurn server) :=
        (h.take _ _).serverTurn (by rw [take_server]; exact Server.step_sent_mem hserver)
      refine ⟨hturn.inFlight, fun g' hg' => ?_, hturn.responses, hturn.handled, hturn.distinct⟩
      have hcalls : ((s.take (.request g) keep).serverTurn server).calls = s.calls :=
        take_calls _ _ _
      show (∃ c ∈ ((s.take (.request g) keep).serverTurn server).calls, _) ∨ _
      rw [hcalls]
      rcases List.mem_append.mp hg' with hg' | hg'
      · exact h.delivered g' hg'
      · rw [List.mem_singleton.mp hg']
        exact h.inFlight g hmem
  | @response dest message parses keep sendFails hmem =>
      obtain ⟨hhandled, hsent⟩ := (s.clients dest).onReceive_spec sendFails
        (if parses then some message else none)
      refine (h.take (.response dest message) keep).clientTurn (fun m hm => ?_) fun handled hin => ?_
      · obtain ⟨opId, header, rfl⟩ := hsent m hm
        exact ⟨rfl, rfl⟩
      · obtain ⟨m, r, hdata, hr, hid, hresult⟩ := hhandled handled hin
        obtain ⟨x, hx, hxm⟩ := h.responses dest message hmem
        have hm : m = message := by
          cases parses <;> cases hdata
          rfl
        rw [take_server]
        exact ⟨x, hx, r, by rw [hxm, ← hm, hr], by rw [hxm, ← hm, hid], hresult⟩
  | @drop d hmem => exact h.take d false
  | tick hserver => exact h.serverTurn (Server.step_sent_mem hserver)

/-- In every run the traffic is explained. -/
theorem SystemReachable.traffic (h : SystemReachable env fails ok s) : Traffic s := by
  induction h with
  | initial => exact .initial
  | step op _ _ hstep ih => exact ih.step (System.step_spec hstep)

/-! ## The server's memory -/

/-- **The invariant rule of the system** for what depends on the updates and on the datagrams that
reached the server: each datagram and each callback keep it. -/
theorem SystemReachable.server_mem
    {P : List Request → CenterMem CacheData Request ServerMem → Prop}
    (hlog : ∀ delivered mem log, P delivered mem →
      P delivered { mem with outer := { mem.outer with log := log } })
    (hinitial : P [] Server.initial.mem)
    (hreceived : ∀ s g parses keep sendFails, ok s (.deliver (.request g) parses keep sendFails) →
      P s.delivered s.server.mem → ∀ mem', Received g (g.Late env s.server) s.server.mem mem' →
        P (s.delivered ++ [g]) mem')
    (hfired : ∀ delivered mem mem', P delivered mem → Fired mem mem' → P delivered mem')
    (h : SystemReachable env fails ok s) : P s.delivered s.server.mem := by
  induction h with
  | initial => exact hinitial
  | @step s s' op _ hok hstep ih =>
      cases System.step_spec hstep with
      | call hnew => exact ih
      | @request g parses keep sendFails server hmem hserver =>
          exact Server.receive_mem (hlog _) hserver (hreceived s g parses keep sendFails hok ih)
      | response hmem =>
          show P (s.take _ _).delivered (s.take _ _).server.mem
          rw [take_delivered, take_server]
          exact ih
      | drop hmem =>
          rw [take_delivered, take_server]
          exact ih
      | tick hserver => exact Server.tick_mem (hlog _) (hfired s.delivered) hserver ih

end CacheSystem

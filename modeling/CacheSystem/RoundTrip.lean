import CacheSystem.Linearizability
import CacheSystem.ReadIsolation
import CacheSystem.Resends

/-!
# A round trip

Lost datagrams, copies, failed sends and timers that throw leave entries behind, at the clients and
at the server. None of them stands in the way of a call: until its request arrives its op id is in
no table, so that the response is registered, sent and taken. Between the steps of the call the
other parties do what they like.

* `Answers` : what the server answers a request.
* `System.OnItsWay`, `System.Returning` : the request of a call is in flight, and so is its response.
* `read_completes` : a read is answered with the value that there is when its request arrives.
* `write_then_read` : an update is assigned where the element is absent or Idle, and a read that
  arrives before anything else was written is told its data.
-/

namespace CacheSystem

open Relation (ReflTransGen)

variable {env : Env} {fails : Nat → Bool} {c : Call} {s : Server} {q : Rest}

/-! ## The answer of the server -/

/-- A response whose op id is free is sent, if the send does not fail. -/
theorem Answer.sent {response : CacheMessage} {requester : Address} {r : Option Thrown × Rest}
    (hr : Answer env fails response requester q r) (hfree : q.mem.map response.opId = none)
    (hfails : fails q.mem.sends = false) :
    r.1 = none ∧ r.2.mem.sends = q.mem.sends + 1 ∧
      r.2.mem.sent = q.mem.sent ++ [⟨q.mem.peer, response, requester⟩] := by
  cases hr with
  | @registered header r hheader hmap hr =>
      cases hr with
      | empty hempty => simp [CacheMessage.isEmpty, hheader] at hempty
      | failed hfailed => exact absurd (hfails.symm.trans hfailed) (by decide)
      | sent hempty => exact ⟨rfl, rfl, rfl⟩
  | @taken header ptr message r hheader hmap hmessage hr =>
      rw [CacheMessage.opId, hheader, Option.getD_some, hmap] at hfree
      cases hfree

/-- The server answers the request of a call at once. -/
structure Answers (env : Env) (fails : Nat → Bool) (s : Server) (c : Call) (answer : CacheMessage)
    (s' : Server) : Prop where
  step : s.step env fails (.receive c.client (some c.message)) = some s'
  sends : s'.mem.outer.sends = s.mem.outer.sends + 1
  sent : s'.mem.outer.sent = s.mem.outer.sent ++ [⟨c.client, answer, c.client⟩]

/-- A header that is complete is available. -/
theorem headerAvailable_of_header {m : CacheMessage} {header : CacheMessageHeader}
    (hheader : m.header = some header) (hmagic : header.magic = headerMagic)
    (htype : kReadRequest ≤ header.type ∧ header.type ≤ kInvalidateCache) (hid : header.opId ≠ 0) :
    headerAvailable m = true := by
  have hrange : ¬ (header.type < kReadRequest ∨ kInvalidateCache < header.type) := by
    rw [not_or, Int32.not_lt, Int32.not_lt]
    exact htype
  simp only [headerAvailable, hheader, hmagic, ne_eq, not_true_eq_false, if_false, if_neg hrange,
    if_neg hid]

/-- The message of a call is available where its op id is not 0. -/
theorem Call.message_available (hid : c.opId ≠ 0) : headerAvailable c.message = true := by
  unfold Call.message
  rcases c.kind with _ | cacheData
  · exact headerAvailable_of_header rfl rfl (show kReadRequest ≤ kReadRequest ∧
      kReadRequest ≤ kInvalidateCache by decide) hid
  · exact headerAvailable_of_header rfl rfl (show kReadRequest ≤ kUpdateRequest ∧
      kUpdateRequest ≤ kInvalidateCache by decide) hid

/-- The message of a read is taken for a read request. -/
theorem Call.onReceive_read (hkind : c.kind = .read) (hid : c.opId ≠ 0) :
    onReceive env fails c.client (some c.message) s =
      onReadRequest env fails c.request (s.setPeer c.client) := by
  have hindex : ((c.message.header.getD {}).type - kReadRequest).toUInt32 = 0 := by
    rw [Call.message, hkind]
    show (kReadRequest - kReadRequest).toUInt32 = 0
    decide
  simp only [onReceive, Call.message_available hid, hindex, reduceCtorEq, if_false, if_true]
  rfl

/-- The message of an update is taken for an update request. -/
theorem Call.onReceive_update {cacheData : CacheData} (hkind : c.kind = .update cacheData)
    (hid : c.opId ≠ 0) : onReceive env fails c.client (some c.message) s =
      onUpdateRequest env fails c.request (s.setPeer c.client) := by
  have hindex : ((c.message.header.getD {}).type - kReadRequest).toUInt32 = 2 := by
    rw [Call.message, hkind]
    show (kUpdateRequest - kReadRequest).toUInt32 = 2
    decide
  have hne : (2 : UInt32) ≠ 0 := by decide
  simp only [onReceive, Call.message_available hid, hindex, reduceCtorEq, if_false, if_true,
    if_neg hne]
  rfl

/-- What a read of the id is told: the value, or that there is none. -/
def Told (p : Server) (cacheId : UInt32) (r : CacheOpResponse) : Prop :=
  match p.value cacheId.toUInt64 with
  | none => r.result = OpResult.kOperationErrorNoData.code
  | some value => r.result = OpResult.kOperationOk.code ∧ r.cacheData = value

/-- The query of a read leaves the tables and the socket alone. -/
theorem queryCacheCenter_outer (env : Env) (request : CacheMessage) (s : Server) :
    ∃ s', queryCacheCenter env request s = (none, s') ∧ s'.mem.outer.map = s.mem.outer.map ∧
      s'.mem.outer.sends = s.mem.outer.sends ∧ s'.mem.outer.sent = s.mem.outer.sent ∧
      s'.mem.outer.peer = s.mem.outer.peer := by
  rcases he : s.mem.map (readKey request) with _ | e
  · obtain ⟨s', hquery, houter⟩ := queryCacheCenter_of_none env he
    exact ⟨s', hquery, by rw [houter], by rw [houter], by rw [houter], by rw [houter]⟩
  · obtain ⟨s', hquery, houter⟩ := queryCacheCenter_of_some env he
    exact ⟨s', hquery, by rw [houter], by rw [houter], by rw [houter], by rw [houter]⟩

/-- What is answered is all that a turn sends. -/
theorem Answers.of_lift {answer : CacheMessage} (s₁ : Server) (r : Option Thrown × Rest)
    (hturn : onReceive env fails c.client (some c.message) s = Server.lift r s₁)
    (hnone : r.1 = none) (hsends : r.2.mem.sends = s.mem.outer.sends + 1)
    (hsent : r.2.mem.sent = s.mem.outer.sent ++ [⟨c.client, answer, c.client⟩]) :
    Answers env fails s c answer (s₁.withOuter r.2) where
  step := by
    rw [Server.step, hturn, Server.lift, hnone]
    rfl
  sends := hsends
  sent := hsent

/-- **A read is answered**, whatever the server did before. -/
theorem Server.answers_read (env : Env) (hkind : c.kind = .read) (hid : c.opId ≠ 0)
    (hfree : s.mem.outer.map c.opId = none) (hfails : fails s.mem.outer.sends = false) :
    ∃ s', Answers env fails s c (readAnswer env c.message (s.setPeer c.client)) s' := by
  obtain ⟨s₁, hquery, hmap, hsends, hsent, hpeer⟩ :=
    queryCacheCenter_outer env c.message (s.setPeer c.client)
  have hread : c.request.message.readRequest.isNone = false := by
    rw [Call.request, Call.message, hkind]
    rfl
  have hresponse : readAnswer env c.message (s.setPeer c.client) =
      readResponse c.message s₁.mem.outer := by
    rw [readAnswer, hquery]
  have hopId : (readResponse c.message s₁.mem.outer).opId = c.opId := c.message_opId
  have hanswer : Answer env fails (readResponse c.message s₁.mem.outer) c.client s₁.outer
      (answerRead env fails (readResponse c.message s₁.mem.outer) c.client s₁.outer) :=
    answerRead_spec rfl c.client s₁.outer
  obtain ⟨hnone, hcount, hout⟩ := hanswer.sent (by rw [outer_mem, hmap, hopId]; exact hfree)
    (by rw [outer_mem, hsends]; exact hfails)
  refine ⟨_, Answers.of_lift s₁ (answerRead env fails (readResponse c.message s₁.mem.outer)
    c.client s₁.outer) ?_ hnone ?_ ?_⟩
  · have hrequest : queryCacheCenter env c.request.message (s.setPeer c.client) =
        (none, s₁) := hquery
    simp only [Call.onReceive_read hkind hid, onReadRequest, hread, hrequest]
    rfl
  · rw [hcount, outer_mem, hsends]
    rfl
  · rw [hout, outer_mem, hsent, hpeer, hresponse]
    rfl

/-- **An update is answered and assigned** when no lease runs. -/
theorem Server.answers_update (env : Env) {cacheData : CacheData} (hkind : c.kind = .update cacheData)
    (hid : c.opId ≠ 0) (hfree : s.mem.outer.map c.opId = none)
    (hfails : fails s.mem.outer.sends = false)
    (hidle : ∀ e, s.mem.map c.cacheId.toUInt64 = some e → e.state.currentState = .kCacheIdle) :
    ∃ s' expire, Answers env fails s c (updateResponse c.message expire .kOperationOk) s' ∧
      s'.value c.cacheId.toUInt64 = some cacheData := by
  have hupdate : c.request.message.updateRequest =
      some { cacheId := c.cacheId, cacheData, timestamp := UInt64.ofInt c.timestamp,
             expire := 200 } := by
    rw [Call.request, Call.message, hkind]
    rfl
  have hop := updateOp_spec env c.cacheId.toUInt64 cacheData c.request.message.opId.toUInt32
    c.request (s.setPeer c.client)
  generalize hr₁ : Center.updateOp env c.cacheId.toUInt64 cacheData
    c.request.message.opId.toUInt32 c.request (s.setPeer c.client) = r₁ at hop
  cases hop with
  | @assigned e s₀ he hstate hs =>
      generalize hs₁ : Center.record _ _ = s₁ at hr₁
      have houter : s₁.mem.outer = { s.mem.outer with peer := c.client } := by
        rw [← hs₁]
        rfl
      have hvalue : s₁.value c.cacheId.toUInt64 = some cacheData := by
        rw [← hs₁, Center.value, record_map, put_map, Function.update_self]
        rfl
      have hanswer : Answer env fails (updateResponse c.message s₀.1.expireTime .kOperationOk)
          c.client s₁.outer (answerUpdate env fails
            (updateResponse c.message s₀.1.expireTime .kOperationOk) c.client s₁.outer) :=
        answerUpdate_spec rfl c.client s₁.outer
      have hopId : (updateResponse c.message s₀.1.expireTime .kOperationOk).opId = c.opId :=
        c.message_opId
      obtain ⟨hnone, hcount, hout⟩ := hanswer.sent (by rw [outer_mem, houter, hopId]; exact hfree)
        (by rw [outer_mem, houter]; exact hfails)
      refine ⟨_, s₀.1.expireTime, Answers.of_lift s₁ (answerUpdate env fails
        (updateResponse c.message s₀.1.expireTime .kOperationOk) c.client s₁.outer) ?_ hnone ?_ ?_,
        ?_⟩
      · rw [Call.onReceive_update hkind hid, onUpdateRequest, hupdate]
        dsimp only
        rw [hr₁]
        rfl
      · rw [hcount, outer_mem, houter]
      · rw [hout, outer_mem, houter]
      · exact hvalue
  | refused he hstate h0 => exact absurd (hidle _ he) hstate
  | overdue he hstate h0 hdelay => exact absurd ((hidle _ he).symm.trans hstate) (by decide)
  | deferred he hstate h0 hdelay hs => exact absurd ((hidle _ he).symm.trans hstate) (by decide)
  | retried he hstate h0 => exact absurd ((hidle _ he).symm.trans hstate) (by decide)

/-! ## Calls under way -/

variable {t t' : System} {answer : CacheMessage} {s' : Server}

/-- `t'` comes after `t`, whatever is done in between. -/
def System.Later (env : Env) (fails : Nat → Bool) (t t' : System) : Prop :=
  ReflTransGen (fun t t' => ∃ op, t.step env fails op = some t') t t'

/-- What comes after a reachable state is reachable. -/
theorem SystemReachable.later (h : SystemReachable env fails AnyStep t)
    (hlater : t.Later env fails t') : SystemReachable env fails AnyStep t' := by
  induction hlater with
  | refl => exact h
  | tail _ hnext ih =>
      obtain ⟨op, hstep⟩ := hnext
      exact ih.step op trivial hstep

/-- Nothing is taken back. -/
theorem System.Later.before (h : t.Later env fails t') : t.Before t' := by
  induction h with
  | refl => exact .refl t
  | tail _ hnext ih =>
      obtain ⟨op, hstep⟩ := hnext
      exact ih.trans (System.step_spec hstep).before

/-- The request of the call is in flight, and no copy of it has reached the server. -/
structure System.OnItsWay (t : System) (c : Call) : Prop where
  made : c ∈ t.calls
  inFlight : .request c.request ∈ t.inFlight
  fresh : c.request ∉ t.delivered

/-- What is done from `t` to `t'` completes the call: its handle is told what the response says, and
no operation is left. -/
structure Completes (t t' : System) (c : Call) (r : CacheOpResponse) : Prop where
  done : (t'.clients c.client).requests c.opId = none
  handled : t'.handled =
    t.handled ++ [(c.client, ⟨c.opId, r.result, r.expire, c.cacheId, r.cacheData⟩)]

/-- The response is in flight, and in every later state in which it still is and the operation
waits, its delivery completes the call, if the acknowledgement is sent. -/
structure System.Returning (env : Env) (fails : Nat → Bool) (t : System) (c : Call)
    (answer : CacheMessage) (r : CacheOpResponse) : Prop where
  inFlight : .response c.client answer ∈ t.inFlight
  completes : ∀ t', t.Later env fails t' → .response c.client answer ∈ t'.inFlight →
    (t'.clients c.client).requests c.opId ≠ none → ∀ keep,
      ∃ t'', t'.step env fails (.deliver (.response c.client answer) true keep false) = some t'' ∧
        Completes t' t'' c r

/-- The answer is for the call. -/
structure ForCall (c : Call) (answer : CacheMessage) (r : CacheOpResponse) : Prop where
  available : headerAvailable answer = true
  opId : answer.opId = c.opId
  opResponse : answer.opResponse = some r
  cacheId : r.cacheId = c.cacheId

/-- A new call is sent, and its operation waits. -/
theorem Call.turn_new {client : Client} (hfree : client.requests c.opId = none) :
    (c.turn false client).sent = [c.message] ∧
      (c.turn false client).client.requests c.opId = some ⟨c.opId, c.cacheId⟩ := by
  have hemplace : (client.emplace ⟨c.opId, c.cacheId⟩).requests c.opId =
      some ⟨c.opId, c.cacheId⟩ := by
    simp only [Client.emplace, hfree, Function.update_self]
  unfold Call.turn Call.message
  rcases c.kind with _ | cacheData
  · exact ⟨rfl, hemplace⟩
  · exact ⟨rfl, hemplace⟩

/-- What the client does with the answer. -/
theorem Client.onReceive_answer {client : Client} {op : CacheClientOperation} {r : CacheOpResponse}
    (h : ForCall c answer r) (hop : client.requests c.opId = some op)
    (hcacheId : op.cacheId = c.cacheId) :
    client.onReceive false (some answer) =
      { client := client.erase c.opId
        handled := [⟨c.opId, r.result, r.expire, c.cacheId, r.cacheData⟩]
        sent := [ackMessage c.opId answer.header] } := by
  have hkey : op.opId = c.opId := client.keyed _ _ hop
  have hsend : clientSend false (ackMessage c.opId answer.header) =
      (none, [ackMessage c.opId answer.header]) := rfl
  simp [Client.onReceive, h.available, h.opId, hop, CacheClientOperation.processResponse,
    h.opResponse, hcacheId, h.cacheId, hkey, hsend]

/-- The message of a call asks for something. -/
theorem Call.request_not_isAck (c : Call) : ¬ c.request.IsAck := by
  rintro ⟨hread, hupdate⟩
  rw [Call.request, Call.message] at hread hupdate
  cases hkind : c.kind with
  | read =>
      rw [hkind] at hread
      cases hread
  | update cacheData =>
      rw [hkind] at hupdate
      cases hupdate

/-- **A new call is on its way**, and its operation waits. -/
theorem SystemReachable.called (h : SystemReachable env fails AnyStep t)
    (hnew : ∀ c' ∈ t.calls, c'.opId ≠ c.opId) :
    ∃ t', t.step env fails (.call c false) = some t' ∧ t'.OnItsWay c ∧
      (t'.clients c.client).requests c.opId ≠ none := by
  have hfree : (t.clients c.client).requests c.opId = none := by
    by_contra hne
    obtain ⟨op, hop⟩ := Option.ne_none_iff_exists'.mp hne
    obtain ⟨c', hc', -, hid, -⟩ := h.traced.requests c.client c.opId op hop
    exact hnew c' hc' hid
  obtain ⟨hsent, hwaits⟩ := c.turn_new hfree
  let t' : System := { t.clientTurn c.client (c.turn false (t.clients c.client)) with
    calls := t.calls ++ [c] }
  refine ⟨t', ?_, ⟨List.mem_append_right _ (List.mem_singleton_self _), ?_, fun hdelivered => ?_⟩, ?_⟩
  · rw [System.step, if_neg]
    simpa using hnew
  · show _ ∈ t.inFlight ++ List.map _ _
    rw [hsent]
    exact List.mem_append_right _ (List.mem_singleton_self _)
  · rcases h.traffic.delivered _ hdelivered with ⟨c', hc', hrequest⟩ | hack
    · exact hnew c' hc' (by rw [← c'.request_opId, ← hrequest, c.request_opId])
    · exact c.request_not_isAck hack
  · show (Function.update t.clients c.client _ c.client).requests c.opId ≠ none
    rw [Function.update_self, hwaits]
    exact Option.some_ne_none _

/-- **The answer completes the call** when it reaches the client. -/
theorem SystemReachable.answered (h : SystemReachable env fails AnyStep t) {r : CacheOpResponse}
    (hc : c ∈ t.calls) (hmem : .response c.client answer ∈ t.inFlight) (hr : ForCall c answer r)
    (hwaits : (t.clients c.client).requests c.opId ≠ none) (keep : Bool) :
    ∃ t', t.step env fails (.deliver (.response c.client answer) true keep false) = some t' ∧
      Completes t t' c r := by
  obtain ⟨op, hop⟩ := Option.ne_none_iff_exists'.mp hwaits
  obtain ⟨c', hc', -, hid, hcacheId⟩ := h.traced.requests c.client c.opId op hop
  obtain rfl := h.traffic.distinct c' hc' c hc hid
  have hturn := Client.onReceive_answer hr hop hcacheId.symm
  refine ⟨(t.take (.response c'.client answer) keep).clientTurn c'.client
    ((t.clients c'.client).onReceive false (some answer)), ?_, ?_, ?_⟩
  · rw [System.step, if_pos hmem, System.deliver, take_clients]
    rfl
  · simp only [System.clientTurn, Function.update_self, hturn]
    exact Function.update_self _ _ _
  · simp only [System.clientTurn, take_handled, hturn]
    rfl

/-- A response in flight that is for its call is on its way back. -/
theorem SystemReachable.returning (h : SystemReachable env fails AnyStep t) {r : CacheOpResponse}
    (hc : c ∈ t.calls) (hmem : .response c.client answer ∈ t.inFlight) (hr : ForCall c answer r) :
    t.Returning env fails c answer r where
  inFlight := hmem
  completes _ hlater hmem' hwaits keep :=
    (h.later hlater).answered (hlater.before.calls hc) hmem' hr hwaits keep

/-- **A request that is answered**: the response is on its way back. -/
theorem SystemReachable.asked (h : SystemReachable env fails AnyStep t) (hway : t.OnItsWay c)
    (hanswers : Answers env fails t.server c answer s') {r : CacheOpResponse}
    (hr : ForCall c answer r) (keep : Bool) :
    ∃ t', t.step env fails (.deliver (.request c.request) true keep false) = some t' ∧
      t'.server = s' ∧ t'.Returning env fails c answer r := by
  let t' : System := { (t.take (.request c.request) keep).serverTurn s' with
    delivered := t.delivered ++ [c.request] }
  have hstep : t.step env fails (.deliver (.request c.request) true keep false) = some t' := by
    have hserver : t.server.step env fails (.receive c.request.requester
        (if true then some c.request.message else none)) = some s' := hanswers.step
    rw [System.step, if_pos hway.inFlight, System.deliver, take_server, hserver, take_delivered]
    rfl
  have hmem : .response c.client answer ∈ t'.inFlight := by
    show _ ∈ (t.take (.request c.request) keep).inFlight ++
      List.map _ (s'.mem.outer.sent.drop (t.take (.request c.request) keep).server.mem.outer.sent.length)
    rw [take_server, hanswers.sent, List.drop_left]
    exact List.mem_append_right _ (List.mem_singleton_self _)
  have hc : c ∈ t'.calls := by
    show c ∈ (t.take (.request c.request) keep).calls
    rw [take_calls]
    exact hway.made
  exact ⟨t', hstep, rfl, (h.step _ trivial hstep).returning hc hmem hr⟩

/-- Nothing at the server has the op id of a call that is on its way. -/
theorem SystemReachable.free (h : SystemReachable env fails AnyStep t) (hid : c.opId ≠ 0)
    (hway : t.OnItsWay c) : t.server.mem.outer.map c.opId = none := by
  have hasked : askedUnder c.opId t.delivered = 0 := by
    refine List.countP_eq_zero.mpr fun g hg hasked => ?_
    obtain ⟨hask, hopId⟩ := of_decide_eq_true hasked
    obtain ⟨c', hc', rfl⟩ := (h.traffic.delivered g hg).resolve_right hask
    obtain rfl := h.traffic.distinct c' hc' c hway.made (c'.request_opId.symm.trans hopId)
    exact hway.fresh hg
  have hspent := (h.budgeted hid).spent
  rw [hasked, ServerMem.spent] at hspent
  have hwaits : t.server.mem.outer.waits c.opId = 0 := by omega
  rcases hmap : t.server.mem.outer.map c.opId with _ | ptr
  · rfl
  · rw [ServerMem.waits, hmap] at hwaits
    cases hwaits

/-- The answer to a read is for the call, and tells what the data center has. -/
theorem Call.readAnswer_spec (env : Env) (s : Server) (hkind : c.kind = .read) (hid : c.opId ≠ 0) :
    ∃ r, ForCall c (readAnswer env c.message (s.setPeer c.client)) r ∧ Told s c.cacheId r := by
  have hread : c.message.readRequest =
      some { cacheId := c.cacheId, timestamp := UInt64.ofInt c.timestamp, expire := 200 } := by
    rw [Call.message, hkind]
    rfl
  have hheader : c.message.header = some (prepareHeader kReadRequest c.opId none) := by
    rw [Call.message, hkind]
    rfl
  have hkey : readKey c.message = c.cacheId.toUInt64 := by
    rw [readKey, hread]
    rfl
  have hanswer : ∀ expire cacheData ret, ForCall c (prepareResponseMessage c.message.header
      kReadResponse (prepareOpResponse expire (c.message.readRequest.getD {}).cacheId cacheData ret))
      (prepareOpResponse expire (c.message.readRequest.getD {}).cacheId cacheData ret) := by
    intro expire cacheData ret
    rw [hheader, hread]
    exact ⟨headerAvailable_of_header rfl rfl (show kReadRequest ≤ kReadResponse ∧
      kReadResponse ≤ kInvalidateCache by decide) hid, rfl, rfl, rfl⟩
  have hvalue : s.value c.cacheId.toUInt64 = ((s.setPeer c.client).mem.map
      (readKey c.message)).map CacheElement.value := by
    rw [hkey]
    rfl
  rcases he : (s.setPeer c.client).mem.map (readKey c.message) with _ | e
  · rw [readAnswer_of_none he]
    refine ⟨_, hanswer _ _ _, ?_⟩
    rw [Told, hvalue, he]
    rfl
  · rw [readAnswer_of_some he]
    refine ⟨_, hanswer _ _ _, ?_⟩
    rw [Told, hvalue, he]
    exact ⟨rfl, rfl⟩

/-- The response to an update is for the call, and says `kOperationOk`. -/
theorem Call.updateResponse_spec (c : Call) {cacheData : CacheData} (hkind : c.kind = .update cacheData)
    (hid : c.opId ≠ 0) (expire : Int) :
    ForCall c (updateResponse c.message expire .kOperationOk)
      (prepareOpResponse expire c.cacheId cacheData .kOperationOk) := by
  rw [Call.message, hkind]
  exact ⟨headerAvailable_of_header rfl rfl (show kReadRequest ≤ kUpdateResponse ∧
    kUpdateResponse ≤ kInvalidateCache by decide) hid, rfl, rfl, rfl⟩

/-- The request of a read is answered when it arrives. -/
theorem SystemReachable.readAsked (h : SystemReachable env fails AnyStep t) (hkind : c.kind = .read)
    (hid : c.opId ≠ 0) (hway : t.OnItsWay c) (hfails : fails t.server.mem.outer.sends = false)
    (keep : Bool) : ∃ t' answer r,
      t.step env fails (.deliver (.request c.request) true keep false) = some t' ∧
        Told t.server c.cacheId r ∧ t'.Returning env fails c answer r := by
  obtain ⟨s', hanswers⟩ := Server.answers_read env hkind hid (h.free hid hway) hfails
  obtain ⟨r, hr, htold⟩ := Call.readAnswer_spec env t.server hkind hid
  obtain ⟨t', hstep, -, hreturning⟩ := h.asked hway hanswers hr keep
  exact ⟨t', _, r, hstep, htold, hreturning⟩

/-- **A read completes.** A new call is on its way. When its request arrives, at any state of any
run, the response goes back, unless its send fails: it says the value that the data center has at
that moment, or that there is none. -/
theorem read_completes : ∀ t, SystemReachable env fails AnyStep t → ∀ c : Call, c.kind = .read →
    c.opId ≠ 0 →
      ((∀ c' ∈ t.calls, c'.opId ≠ c.opId) → ∃ t', t.step env fails (.call c false) = some t' ∧
        t'.OnItsWay c ∧ (t'.clients c.client).requests c.opId ≠ none) ∧
      (t.OnItsWay c → fails t.server.mem.outer.sends = false → ∀ keep, ∃ t' answer r,
        t.step env fails (.deliver (.request c.request) true keep false) = some t' ∧
          Told t.server c.cacheId r ∧ t'.Returning env fails c answer r) := by
  intro t h c hkind hid
  exact ⟨fun hnew => h.called hnew, fun hway hfails keep =>
    h.readAsked hkind hid hway hfails keep⟩

/-- A read beside an update whose acknowledgement was lost, with a call of the other client before the
response arrives, as a case of `read_completes`. -/
theorem read_completes_lost : ∃ (t t₁ t₂ t₃ t₄ : System) (answer : CacheMessage)
    (r : CacheOpResponse), t.server.mem.outer.map 11 ≠ none ∧
      t.step stillClock (fun _ => false) (.call (readCall 8 12 1) false) = some t₁ ∧
      t₁.step stillClock (fun _ => false)
        (.deliver (.request (readCall 8 12 1).request) true false false) = some t₂ ∧
      t₂.step stillClock (fun _ => false) (.call (updateCall 7 13 1 [6]) false) = some t₃ ∧
      t₃.step stillClock (fun _ => false) (.deliver (.response 8 answer) true false false) =
        some t₄ ∧
      Told t₁.server 1 r ∧ Completes t₃ t₄ (readCall 8 12 1) r := by
  obtain ⟨t, t₁, t₂, t₃, hrun, hlost, hnew, hcall, hasked, hother, hinFlight, hwaits⟩ :
      ∃ t t₁ t₂ t₃, ({} : System).run stillClock (fun _ => false)
        [.call (updateCall 7 11 1 [5]) false,
          .deliver (.request (updateCall 7 11 1 [5]).request) true false false] = some t ∧
        t.server.mem.outer.map 11 ≠ none ∧ (∀ c ∈ t.calls, c.opId ≠ 12) ∧
        t.step stillClock (fun _ => false) (.call (readCall 8 12 1) false) = some t₁ ∧
        t₁.step stillClock (fun _ => false)
          (.deliver (.request (readCall 8 12 1).request) true false false) = some t₂ ∧
        t₂.step stillClock (fun _ => false) (.call (updateCall 7 13 1 [6]) false) = some t₃ ∧
        (∀ d ∈ t₂.inFlight, d ∈ t₃.inFlight) ∧ (t₃.clients 8).requests 12 ≠ none :=
    ⟨_, _, _, _, rfl, by decide, by decide, rfl, rfl, rfl, by decide, by decide⟩
  have h : SystemReachable stillClock (fun _ => false) AnyStep t := .run .initial hrun
  obtain ⟨t₁, hcall₁, hway, -⟩ := (read_completes t h (readCall 8 12 1) rfl (by decide)).1 hnew
  obtain rfl := Option.some.inj (hcall.symm.trans hcall₁)
  obtain ⟨t₂, answer, r, hasked₁, htold, hreturning⟩ :=
    (read_completes _ (h.step _ trivial hcall) (readCall 8 12 1) rfl (by decide)).2 hway rfl false
  obtain rfl := Option.some.inj (hasked.symm.trans hasked₁)
  obtain ⟨t₄, hdelivered, hcompleted⟩ := hreturning.completes t₃ (.single ⟨_, hother⟩)
    (hinFlight _ hreturning.inFlight) hwaits false
  exact ⟨t, _, _, t₃, t₄, answer, r, hlost, hcall, hasked, hother, hdelivered, htold, hcompleted⟩

/-- A value stays while nothing is written under its id. -/
theorem System.Later.value (h : SystemReachable env fails AnyStep t) (hlater : t.Later env fails t')
    {cacheId : UInt64} (hwrites : ∀ event ∈ t'.server.mem.trace.drop t.server.mem.trace.length,
      ¬ event.Writes cacheId) : t'.server.value cacheId = t.server.value cacheId := by
  obtain ⟨events, hevents⟩ := hlater.before.trace
  rw [← hevents, List.drop_left] at hwrites
  have hvalues : valuesOf t'.server.mem.map = replay [] t'.server.mem.trace :=
    (server_replays (h.later hlater).server).values
  have hvalues₀ : valuesOf t.server.mem.map = replay [] t.server.mem.trace :=
    (server_replays h.server).values
  calc t'.server.value cacheId
      = replay [] t'.server.mem.trace cacheId := congrFun hvalues cacheId
    _ = replay [] t.server.mem.trace cacheId := by
        rw [← hevents, replay_append_of_not_writes hwrites]
    _ = t.server.value cacheId := (congrFun hvalues₀ cacheId).symm

/-- **A read after a write is told what was written**, at any state of any run. The request of an
update arrives where the element is absent or Idle: it is assigned, and the response that says so
goes back. From then on every read of any client whose request arrives before anything else was
written under the id is told that data. -/
theorem write_then_read : ∀ t, SystemReachable env fails AnyStep t → ∀ c₁ : Call, ∀ cacheData,
    c₁.kind = .update cacheData → c₁.opId ≠ 0 → t.OnItsWay c₁ →
      (∀ e, t.server.mem.map c₁.cacheId.toUInt64 = some e → e.state.currentState = .kCacheIdle) →
      fails t.server.mem.outer.sends = false → ∀ keep₁, ∃ t₁ answer₁ expire₁,
        t.step env fails (.deliver (.request c₁.request) true keep₁ false) = some t₁ ∧
        t₁.Returning env fails c₁ answer₁
          (prepareOpResponse expire₁ c₁.cacheId cacheData .kOperationOk) ∧
        ∀ t₂, t₁.Later env fails t₂ →
          (∀ event ∈ t₂.server.mem.trace.drop t₁.server.mem.trace.length,
            ¬ event.Writes c₁.cacheId.toUInt64) →
          ∀ c₂ : Call, c₂.kind = .read → c₂.cacheId = c₁.cacheId → c₂.opId ≠ 0 → t₂.OnItsWay c₂ →
            fails t₂.server.mem.outer.sends = false → ∀ keep₂, ∃ t₃ answer₂ r,
              t₂.step env fails (.deliver (.request c₂.request) true keep₂ false) = some t₃ ∧
              r.result = OpResult.kOperationOk.code ∧ r.cacheData = cacheData ∧
              t₃.Returning env fails c₂ answer₂ r := by
  intro t h c₁ cacheData hwrite hid₁ hway₁ hidle hfails₁ keep₁
  obtain ⟨s', expire, hanswers, hvalue⟩ :=
    Server.answers_update env hwrite hid₁ (h.free hid₁ hway₁) hfails₁ hidle
  obtain ⟨t₁, hstep₁, rfl, hreturning⟩ :=
    h.asked hway₁ hanswers (c₁.updateResponse_spec hwrite hid₁ expire) keep₁
  refine ⟨t₁, _, expire, hstep₁, hreturning, ?_⟩
  intro t₂ hlater hwrites c₂ hread hcacheId hid₂ hway₂ hfails₂ keep₂
  have h₁ : SystemReachable env fails AnyStep t₁ := h.step _ trivial hstep₁
  obtain ⟨t₃, answer, r, hstep₃, htold, hreturning₂⟩ :=
    (h₁.later hlater).readAsked hread hid₂ hway₂ hfails₂ keep₂
  rw [Told, hcacheId, hlater.value h₁ hwrites, hvalue] at htold
  exact ⟨t₃, answer, r, hstep₃, htold.1, htold.2, hreturning₂⟩

/-- A write, and a read after another update was called, as a case of `write_then_read`. -/
theorem write_then_read_first : ∃ (t t₁ t₂ t₃ t₄ : System) (answer : CacheMessage)
    (r : CacheOpResponse), t.step stillClock (fun _ => false)
        (.deliver (.request (updateCall 7 11 1 [5]).request) true false false) = some t₁ ∧
      t₁.run stillClock (fun _ => false)
        [.call (updateCall 7 13 1 [6]) false, .call (readCall 8 12 1) false] = some t₂ ∧
      t₂.step stillClock (fun _ => false)
        (.deliver (.request (readCall 8 12 1).request) true false false) = some t₃ ∧
      t₃.step stillClock (fun _ => false) (.deliver (.response 8 answer) true false false) =
        some t₄ ∧
      r.result = OpResult.kOperationOk.code ∧ r.cacheData = [5] ∧
      Completes t₃ t₄ (readCall 8 12 1) r := by
  obtain ⟨t, t₁, q, t₂, t₃, hcall, hway, hidle, hasked, hother, hread, hlog, hway₂, hasked₂,
      hwaits⟩ : ∃ t t₁ q t₂ t₃,
      ({} : System).step stillClock (fun _ => false) (.call (updateCall 7 11 1 [5]) false) =
        some t ∧
      t.OnItsWay (updateCall 7 11 1 [5]) ∧ t.server.mem.map 1 = none ∧
      t.step stillClock (fun _ => false)
        (.deliver (.request (updateCall 7 11 1 [5]).request) true false false) = some t₁ ∧
      t₁.step stillClock (fun _ => false) (.call (updateCall 7 13 1 [6]) false) = some q ∧
      q.step stillClock (fun _ => false) (.call (readCall 8 12 1) false) = some t₂ ∧
      t₂.server.mem.trace.drop t₁.server.mem.trace.length = [] ∧ t₂.OnItsWay (readCall 8 12 1) ∧
      t₂.step stillClock (fun _ => false)
        (.deliver (.request (readCall 8 12 1).request) true false false) = some t₃ ∧
      (t₃.clients 8).requests 12 ≠ none :=
    ⟨_, _, _, _, _, rfl, ⟨by decide, by decide, by decide⟩, rfl, rfl, rfl, rfl, rfl,
      ⟨by decide, by decide, by decide⟩, rfl, by decide⟩
  obtain ⟨t₁, -, -, hasked₁, -, hreads⟩ := write_then_read t (.step _ .initial trivial hcall)
    (updateCall 7 11 1 [5]) [5] rfl (by decide) hway
    (fun e he => nomatch hidle.symm.trans he) rfl false
  obtain rfl := Option.some.inj (hasked.symm.trans hasked₁)
  obtain ⟨t₃, answer, r, hasked₃, hresult, hdata, hreturning⟩ := hreads t₂
    (.tail (.single ⟨_, hother⟩) ⟨_, hread⟩) (fun event hevent => by rw [hlog] at hevent; cases hevent)
    (readCall 8 12 1) rfl rfl (by decide) hway₂ rfl false
  obtain rfl := Option.some.inj (hasked₂.symm.trans hasked₃)
  obtain ⟨t₄, hdelivered, hcompleted⟩ :=
    hreturning.completes _ .refl hreturning.inFlight hwaits false
  refine ⟨t, _, t₂, _, t₄, answer, r, hasked, ?_, hasked₂, hdelivered, hresult, hdata, hcompleted⟩
  simp only [System.run, hother, hread, Option.bind_some]

end CacheSystem

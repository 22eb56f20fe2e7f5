import CacheSystem.Message

/-!
# The client (`protobuf_message_client_impl.h`)

A client numbers its operations, keeps those without an answer in `requests_`, sends each request
once, and acknowledges the answer that it takes.

* The op id of a call is the result of `generate_uniform_id`, a parameter here, and `timestamp` is
  the client's clock at the call. `fails` says whether the send of the turn throws.
* `handle_` is what the caller handed in; `Handled` is one invocation of it, named after the op id
  of the operation.
* An exception leaves the operation in `requests_`: `process_response` throws before the `erase`.
-/

namespace CacheSystem

/-- Source: `protobuf_message_client_impl.h`, `CacheClientOperation`: `op_id_` and `cache_id_`. -/
structure CacheClientOperation where
  opId : UInt64
  cacheId : UInt32
  deriving DecidableEq, Repr

/-- An invocation of the `handle_` of the operation with this op id. -/
structure Handled where
  opId : UInt64
  result : UInt32
  expire : UInt32
  cacheId : UInt32
  cacheData : CacheData
  deriving DecidableEq, Repr

/-- Source: `protobuf_message_client_impl.h`, `ProtobufMessageClientImpl::requests_`. -/
structure Client where
  requests : UInt64 → Option CacheClientOperation := fun _ => none
  /-- Every operation stands under its own op id. -/
  keyed : ∀ opId op, requests opId = some op → op.opId = opId := by intro _ _ h; cases h

/-- What a call into the client leaves behind. -/
structure ClientTurn where
  client : Client
  thrown : Option Thrown := none
  sent : List CacheMessage := []
  handled : List Handled := []

/-- Source: `protobuf_message_common.h`, `do_send_cache_message`: what is thrown, and what is
sent. -/
def clientSend (fails : Bool) (message : CacheMessage) : Option Thrown × List CacheMessage :=
  if message.isEmpty then
    (some (.csn .kErrorSysRoutine "SerializeToString() generate a zero length message"), [])
  else if fails then (some .netLink, [])
  else (none, [message])

/-- Source: `protobuf_message_client_impl.h`, `CacheClientOperation::process_response`, with
`do_send_ack`: what is thrown, the handles invoked, and what is sent. -/
def CacheClientOperation.processResponse (op : CacheClientOperation) (fails : Bool)
    (response : CacheMessage) : Option Thrown × List Handled × List CacheMessage :=
  match response.opResponse with
  | none => (some (.csn .kErrorSysRoutine "ill format op_response"), [], [])
  | some opResponse =>
      if op.cacheId ≠ opResponse.cacheId then
        (some (.csn .kErrorSysRoutine "match error cache_id"), [], [])
      else
        let r := clientSend fails (ackMessage op.opId response.header)
        (r.1, [{ opId := op.opId, result := opResponse.result, expire := opResponse.expire,
                 cacheId := opResponse.cacheId, cacheData := opResponse.cacheData }], r.2)

/-- `requests_.erase`. -/
def Client.erase (c : Client) (opId : UInt64) : Client where
  requests := Function.update c.requests opId none
  keyed opId' op h := c.keyed opId' op (Lib.Table.of_erase h).2

/-- Source: `protobuf_message_client_impl.h`, `ProtobufMessageClientImpl::on_receive`; `none` is a
datagram that does not parse. -/
def Client.onReceive (fails : Bool) (data : Option CacheMessage) (c : Client) : ClientTurn :=
  match data with
  | none => { client := c }
  | some message =>
      if headerAvailable message = false then { client := c }
      else
        match c.requests message.opId with
        | none => { client := c }
        | some op =>
            let r := op.processResponse fails message
            { client := if r.1 = none then c.erase message.opId else c
              thrown := r.1
              handled := r.2.1
              sent := r.2.2 }

/-- `requests_.emplace`: an op id that is there keeps its operation. -/
def Client.emplace (c : Client) (op : CacheClientOperation) : Client :=
  match c.requests op.opId with
  | none =>
      { requests := Function.update c.requests op.opId (some op)
        keyed := Lib.Table.forall_assign c.keyed rfl }
  | some _ => c

/-- Source: `protobuf_message_client_impl.h`, `ProtobufMessageClientImpl::read_cache_async` and
`CacheClientReadOpration::do_send_request`. -/
def Client.readCacheAsync (fails : Bool) (opId : UInt64) (cacheId : UInt32) (timestamp : Int)
    (c : Client) : ClientTurn :=
  let r := clientSend fails (readRequestMessage opId cacheId 200 timestamp)
  { client := c.emplace { opId, cacheId }, thrown := r.1, sent := r.2 }

/-- Source: `protobuf_message_client_impl.h`, `ProtobufMessageClientImpl::update_cache_async` and
`CacheClientUpdateOpration::do_send_request`. -/
def Client.updateCacheAsync (fails : Bool) (opId : UInt64) (cacheId : UInt32)
    (cacheData : CacheData) (timestamp : Int) (c : Client) : ClientTurn :=
  let r := clientSend fails (updateRequestMessage opId cacheId cacheData 200 timestamp)
  { client := c.emplace { opId, cacheId }, thrown := r.1, sent := r.2 }

/-! ## What the client's functions can do -/

variable {fails : Bool} {message : CacheMessage}

theorem clientSend_sent {m : CacheMessage} (h : m ∈ (clientSend fails message).2) :
    m = message := by
  unfold clientSend at h
  split at h
  · cases h
  · split at h
    · cases h
    · exact List.mem_singleton.mp h

/-- What the client does with a datagram: a handle is invoked with what the message says, under its
op id, and only acknowledgements are sent. -/
theorem Client.onReceive_spec (fails : Bool) (data : Option CacheMessage) (c : Client) :
    (∀ handled ∈ (c.onReceive fails data).handled, ∃ message opResponse, data = some message ∧
      message.opResponse = some opResponse ∧ message.opId = handled.opId ∧
        opResponse.result = handled.result) ∧
    ∀ m ∈ (c.onReceive fails data).sent, ∃ opId header, m = ackMessage opId header := by
  unfold Client.onReceive
  rcases data with _ | message
  · exact ⟨fun _ h => (nomatch h), fun _ h => (nomatch h)⟩
  · dsimp only
    split
    · exact ⟨fun _ h => (nomatch h), fun _ h => (nomatch h)⟩
    · rcases hop : c.requests message.opId with _ | op
      · exact ⟨fun _ h => (nomatch h), fun _ h => (nomatch h)⟩
      · dsimp only
        unfold CacheClientOperation.processResponse
        rcases hres : message.opResponse with _ | opResponse
        · exact ⟨fun _ h => (nomatch h), fun _ h => (nomatch h)⟩
        · dsimp only
          split
          · exact ⟨fun _ h => (nomatch h), fun _ h => (nomatch h)⟩
          · refine ⟨fun handled h => ?_, fun m h => ?_⟩
            · rw [List.mem_singleton.mp h]
              exact ⟨message, opResponse, rfl, hres, (c.keyed _ _ hop).symm, rfl⟩
            · exact ⟨op.opId, message.header, clientSend_sent h⟩

end CacheSystem

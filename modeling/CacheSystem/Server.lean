import CacheSystem.DataCenter
import CacheSystem.Message

/-!
# The server (`protobuf_message_server_impl.h`, `sample/server.cc`)

The server is a data center of `CacheData` whose outer state is the memory of its message
handlers: the acknowledgement table with the `WaitCacheAck` objects, the scratch fields of the
read operation, the deferred messages, and the one UDP socket, whose peer each receive overwrites
with the sender's address.

* `Rest` is the process without the data center; `doSend`, `registerWaitAck`, `unregisterWaitAck`,
  `timerHandle` and `updateHandle` act on it, and `serverHooks` gives the last two to the timer
  queue and the data center.
* `onReceive` handles one datagram, `Server.step` is one turn of the loop in `main`: a datagram or
  a `tick`, with what it throws caught and logged.
* Sends can fail: `fails n` says whether the `n`-th does.
* `ContainerIteratorRaii(&map_, it);` is an expression whose temporary is destroyed at its end: the
  entry is erased there and read afterwards. A read of freed memory is logged and yields what was
  there last; so does a call on a destroyed `WaitCacheAck`.
* `Request.requester` and `Sent.requester` are carried along for the proofs: where the datagram
  came from that a message answers. No function reads them.
-/

namespace CacheSystem

/-! ## Memory -/

/-- A UDP address, host and port as one number. -/
abbrev Address := Nat

/-- A received message, with the address it came from. -/
structure Request where
  message : CacheMessage
  requester : Address
  deriving DecidableEq, Repr

/-- Source: `protobuf_message_server_impl.h`, `WaitCacheAck`: the message, the op id bound into
`handle_`, and `timer_id_`. -/
structure WaitCacheAck where
  message : CacheMessage
  requester : Address
  opId : UInt64
  timerId : Nat
  destroyed : Bool := false
  deriving DecidableEq, Repr

/-- `~WaitCacheAck`, which is `~CacheMessageRaii` on the message. -/
def WaitCacheAck.destroy (ack : WaitCacheAck) : WaitCacheAck :=
  { ack with message := ack.message.released, destroyed := true }

/-- A datagram sent. -/
structure Sent where
  dest : Address
  message : CacheMessage
  requester : Address
  deriving DecidableEq, Repr

/-- What the server does that its state does not show. -/
inductive ServerEvent
  /-- An entry of `CacheWaitAcktManager::map_` was read; `live` if it was in the map. -/
  | ackEntryRead (opId : UInt64) (live : Bool)
  /-- An entry of `defer_messages_` was read; `live` if it was in the map. -/
  | deferEntryRead (opId : UInt32) (live : Bool)
  /-- `timer_handle` ran on a destroyed object. -/
  | danglingCall (ptr : Nat)
  /-- `update_handle` ran for the update request `handler` and found this message. -/
  | completion (handler : Request) (found : Option Request)
  /-- `main` caught an exception. -/
  | caught (e : Thrown)
  deriving DecidableEq, Repr

/-- The memory of the message handlers. -/
structure ServerMem where
  /-- `CacheWaitAcktManager::map_`, to `WaitCacheAck` objects. -/
  map : UInt64 → Option Nat := fun _ => none
  acks : Nat → Option WaitCacheAck := fun _ => none
  ackCount : Nat := 0
  /-- `CacheUpdateRequestOperation::defer_messages_`. -/
  deferMessages : UInt32 → Option Request := fun _ => none
  /-- `CacheReadRequestOperation::timestamp_`, `cache_id_`, `cache_data_`, `ret_`. -/
  timestamp : Int := 0
  cacheId : UInt32 := 0
  cacheData : CacheData := []
  ret : OpResult := .kOperationOk
  /-- `hostRemote` and `portRemote` of the socket. -/
  peer : Address := 0
  sends : Nat := 0
  sent : List Sent := []
  log : List ServerEvent := []

/-- The server without its data center. -/
abbrev Rest := Proc (TimerCall Nat) ServerMem

/-- The server. Its update handlers are all `std::bind(&update_handle, this, socket, _1, _2, _3)`;
each is named after the request it was made for. -/
abbrev Server := Center CacheData Request Nat ServerMem

/-- One more event. -/
def Proc.note (q : Rest) (event : ServerEvent) : Rest :=
  ⟨q.rt, { q.mem with log := q.mem.log ++ [event] }⟩

/-! ## The socket -/

/-- Source: `protobuf_message_common.h`, `do_send_cache_message`, and `UdpSocket::do_send`. -/
def doSend (fails : Nat → Bool) (message : CacheMessage) (requester : Address) (q : Rest) :
    Option Thrown × Rest :=
  if message.isEmpty then
    (some (.csn .kErrorSysRoutine "SerializeToString() generate a zero length message"), q)
  else if fails q.mem.sends then
    (some .netLink, ⟨q.rt, { q.mem with sends := q.mem.sends + 1 }⟩)
  else
    (none, ⟨q.rt, { q.mem with
      sends := q.mem.sends + 1
      sent := q.mem.sent ++ [⟨q.mem.peer, message, requester⟩] }⟩)

/-! ## Acknowledgements -/

/-- Source: `protobuf_message_server_impl.h`, `WaitAckTimeout::kDefaultTimeout`. -/
def kDefaultTimeout : UInt32 := 500

/-- A new object and its timer. -/
def Proc.newAck (env : Env) (ack : Nat → WaitCacheAck) (q : Rest) : Rest :=
  let added := pushTimer env (.foreign q.mem.ackCount) kDefaultTimeout 1 q.rt
  ⟨added.2, { q.mem with
    ackCount := q.mem.ackCount + 1
    acks := Function.update q.mem.acks q.mem.ackCount (some (ack added.1)) }⟩

/-- A new object whose op id is not in the map: it gets the entry. -/
def Proc.registerAck (env : Env) (header : CacheMessageHeader) (message : CacheMessage)
    (requester : Address) (q : Rest) : Rest :=
  let q' := q.newAck env fun timerId => { message, requester, opId := header.opId, timerId }
  ⟨q'.rt, { q'.mem with
    map := Function.update q.mem.map header.opId (some q.mem.ackCount) }⟩

/-- A new object whose op id is in the map: `emplace` keeps the old entry, and the new object is
destroyed at the end of the function; `message` is what is left of its message. -/
def Proc.refuseAck (env : Env) (header : CacheMessageHeader) (message : CacheMessage)
    (requester : Address) (q : Rest) : Rest :=
  q.newAck env fun timerId =>
    { message, requester, opId := header.opId, timerId, destroyed := true }

/-- Source: `protobuf_message_server_impl.h`, `CacheWaitAcktManager::register_wait_ack`: the object
that holds the message from then on. -/
def registerWaitAck (env : Env) (message : CacheMessage) (requester : Address) (q : Rest) :
    Except Thrown Nat × Rest :=
  match message.header with
  | none =>
      (.error (.csn .kErrorSysRoutine "message or message header should not be null"), q)
  | some header =>
      (.ok q.mem.ackCount,
        match q.mem.map header.opId with
        | none => q.registerAck env header message requester
        | some _ => q.refuseAck env header message.released requester)

/-- `map_.erase(it)`: the entry goes, and with it the object. -/
def Proc.eraseAck (opId : UInt64) (ptr : Nat) (q : Rest) : Rest :=
  ⟨q.rt, { q.mem with
    map := Function.update q.mem.map opId none
    acks := Function.update q.mem.acks ptr ((q.mem.acks ptr).map WaitCacheAck.destroy) }⟩

/-- Source: `protobuf_message_server_impl.h`, `CacheWaitAcktManager::unregister_wait_ack`. -/
def unregisterWaitAck (opId : UInt64) (q : Rest) : Rest :=
  match q.mem.map opId with
  | none => q
  | some ptr =>
      -- the temporary `ContainerIteratorRaii` ends before the next statement
      let q := q.eraseAck opId ptr
      let q := q.note (.ackEntryRead opId (q.mem.map opId).isSome)
      match q.mem.acks ptr with
      | none => q
      | some ack => ⟨delTimer ack.timerId q.rt, q.mem⟩

/-- Source: `protobuf_message_server_impl.h`, `CacheWaitAcktManager::expire_handle`. -/
def expireHandle (opId : UInt64) (q : Rest) : Option Thrown × Rest :=
  match q.mem.map opId with
  | none => (some (.csn .kErrorSysRoutine "WaitCacheAck should not be null"), q)
  | some ptr => (none, q.eraseAck opId ptr)

/-- Source: `protobuf_message_server_impl.h`, `WaitCacheAck::timer_handle`. -/
def timerHandle (fails : Nat → Bool) (ptr : Nat) (q : Rest) : Option Thrown × Rest :=
  match q.mem.acks ptr with
  | none => (none, q)
  | some ack =>
      let q := if ack.destroyed then q.note (.danglingCall ptr) else q
      match doSend fails ack.message ack.requester q with
      | (some e, q) => (some e, q)
      | (none, q) => expireHandle ack.opId q

/-! ## Answers -/

/-- `mutable_header` on the message of an object. -/
def Proc.mutableHeader (ptr : Nat) (q : Rest) : Rest :=
  ⟨q.rt, { q.mem with
    acks := Function.update q.mem.acks ptr ((q.mem.acks ptr).map fun ack =>
      { ack with message := { ack.message with header := some (ack.message.header.getD {}) } }) }⟩

/-- `do_send_cache_message` of the message of an object. -/
def sendAck (fails : Nat → Bool) (ptr : Nat) (q : Rest) : Option Thrown × Rest :=
  match q.mem.acks ptr with
  | none => (none, q)
  | some ack => doSend fails ack.message ack.requester q

/-- `register_wait_ack` and `do_send_cache_message` of the read operation. -/
def answerRead (env : Env) (fails : Nat → Bool) (response : CacheMessage) (requester : Address)
    (q : Rest) : Option Thrown × Rest :=
  match registerWaitAck env response requester q with
  | (.error e, q) => (some e, q)
  | (.ok ptr, q) => sendAck fails ptr q

/-- `register_wait_ack`, `PRINTF_MESSAGE_INFO`, which calls `mutable_header`, and
`do_send_cache_message` of the update operation. -/
def answerUpdate (env : Env) (fails : Nat → Bool) (response : CacheMessage) (requester : Address)
    (q : Rest) : Option Thrown × Rest :=
  match registerWaitAck env response requester q with
  | (.error e, q) => (some e, q)
  | (.ok ptr, q) => sendAck fails ptr (q.mutableHeader ptr)

/-- The response to an update request. -/
def updateResponse (message : CacheMessage) (timestamp : Int) (ret : OpResult) : CacheMessage :=
  let request := message.updateRequest.getD {}
  prepareResponseMessage message.header kUpdateResponse
    (prepareOpResponse timestamp request.cacheId request.cacheData ret)

/-- Source: `protobuf_message_server_impl.h`, `CacheUpdateRequestOperation::update_handle`. -/
def updateHandle (env : Env) (fails : Nat → Bool) (handler : Request) (ret : OpResult)
    (opId : UInt32) (expire : Int) (q : Rest) : Option Thrown × Rest :=
  if ret ≠ .kOperationOk then
    (some (.csn .kErrorSysRoutine "update callback throw a routine error"), q)
  else
    let q := q.note (.completion handler (q.mem.deferMessages opId))
    match q.mem.deferMessages opId with
    | none => (some (.csn .kErrorSysRoutine "defer_messages_ should not be null"), q)
    | some request =>
        -- the temporary `ContainerIteratorRaii` ends before the next statement
        let q : Rest := ⟨q.rt, { q.mem with
          deferMessages := Function.update q.mem.deferMessages opId none }⟩
        let q := q.note (.deferEntryRead opId (q.mem.deferMessages opId).isSome)
        answerUpdate env fails (updateResponse request.message expire ret) request.requester q

/-- What the data center and the timer queue call. The string that `temp_value_` holds after it
was moved from is empty. -/
def serverHooks (env : Env) (fails : Nat → Bool) : Hooks CacheData Request Nat ServerMem where
  invoke := updateHandle env fails
  foreign := timerHandle fails
  unspecified := []

/-! ## Messages -/

/-- The same server with other memory of its handlers. -/
def Proc.setOuter (s : Server) (mem : ServerMem) : Server :=
  ⟨s.rt, { s.mem with outer := mem }⟩

/-- Go on outside the data center. -/
def Server.lift (r : Option Thrown × Rest) (s : Server) : Option Thrown × Server :=
  (r.1, s.withOuter r.2)

/-- The response that `CacheReadRequestOperation::prepare_response_message` builds from the scratch
fields. -/
def readResponse (request : CacheMessage) (mem : ServerMem) : CacheMessage :=
  prepareResponseMessage request.header kReadResponse
    (prepareOpResponse mem.timestamp mem.cacheId mem.cacheData mem.ret)

/-- The socket took the sender for its peer. -/
def Proc.setPeer (s : Server) (sender : Address) : Server :=
  s.setOuter { s.mem.outer with peer := sender }

/-- The scratch field `cache_id_` was assigned. -/
def Proc.setCacheId (s : Server) (cacheId : UInt32) : Server :=
  s.setOuter { s.mem.outer with cacheId := cacheId }

/-- The scratch fields after `read_op` returned: `timestamp_` and `cache_data_` are assigned only
where `read_op` wrote them. -/
def Proc.setScratch (s : Server) (ret : OpResult) (out : Option (Int × CacheData)) : Server :=
  match out with
  | none => s.setOuter { s.mem.outer with ret := ret }
  | some (expire, value) =>
      s.setOuter { s.mem.outer with ret := ret, timestamp := expire, cacheData := value }

/-- Source: `protobuf_message_server_impl.h`, `CacheReadRequestOperation::query_cache_center`. -/
def queryCacheCenter (env : Env) (request : CacheMessage) (s : Server) : Option Thrown × Server :=
  let cacheId := (request.readRequest.getD {}).cacheId
  let s := s.setCacheId cacheId
  match s.readOp env cacheId.toUInt64 request.opId.toUInt32 with
  | (.error e, s) => (some e, s)
  | (.ok (ret, out), s) => (none, s.setScratch ret out)

/-- Source: `protobuf_message_server_impl.h`, `CacheReadRequestOperation::on_process`. -/
def onReadRequest (env : Env) (fails : Nat → Bool) (request : Request) (s : Server) :
    Option Thrown × Server :=
  if request.message.readRequest.isNone then (none, s)
  else
    match queryCacheCenter env request.message s with
    | (some e, s) => (some e, s)
    | (none, s) =>
        Server.lift (answerRead env fails (readResponse request.message s.mem.outer)
          request.requester s.outer) s

/-- `defer_messages_.emplace`: an op id that is there keeps its message. -/
def Proc.emplaceDefer (opId : UInt32) (request : Request) (s : Server) : Server :=
  match s.mem.outer.deferMessages opId with
  | none => s.setOuter { s.mem.outer with
      deferMessages := Function.update s.mem.outer.deferMessages opId (some request) }
  | some _ => s

/-- Source: `protobuf_message_server_impl.h`, `CacheUpdateRequestOperation::on_process` and
`update_cache_center`. -/
def onUpdateRequest (env : Env) (fails : Nat → Bool) (request : Request) (s : Server) :
    Option Thrown × Server :=
  match request.message.updateRequest with
  | none => (none, s)
  | some update =>
      let opId := request.message.opId.toUInt32
      match s.updateOp env update.cacheId.toUInt64 update.cacheData opId request with
      | (.error e, s) => (some e, s)
      | (.ok (.kOperationDefer, _), s) => (none, s.emplaceDefer opId request)
      | (.ok (ret, expire), s) =>
          Server.lift (answerUpdate env fails (updateResponse request.message expire ret)
            request.requester s.outer) s

/-- Source: `protobuf_message_server_impl.h`, `CacheAckOperation::on_process`. -/
def onAck (request : Request) (s : Server) : Option Thrown × Server :=
  (none, s.withOuter (unregisterWaitAck request.message.opId s.outer))

/-- Source: `protobuf_message_server_impl.h`, `ProtobufMessageServerImpl::on_receive`, after the
socket took the sender for its peer; `none` is a datagram that does not parse. -/
def onReceive (env : Env) (fails : Nat → Bool) (sender : Address) (data : Option CacheMessage)
    (s : Server) : Option Thrown × Server :=
  let s := s.setPeer sender
  match data with
  | none => (none, s)
  | some message =>
      if headerAvailable message = false then (none, s)
      else
        let index := ((message.header.getD {}).type - kReadRequest).toUInt32
        if index = 0 then onReadRequest env fails ⟨message, sender⟩ s
        else if index = 2 then onUpdateRequest env fails ⟨message, sender⟩ s
        else if index = 4 then onAck ⟨message, sender⟩ s
        else if index < 6 then (none, s)
        else (some (.csn .kErrorSysRoutine "message type out of range !!!!!!!"), s)

/-! ## Runs -/

/-- One turn of the loop in `main`. -/
inductive ServerOp
  | receive (sender : Address) (data : Option CacheMessage)
  /-- A `tick` that ends within `fuel` iterations. -/
  | tick (fuel : Nat)

/-- `CATCH_EXPTIONS`. -/
def Server.catch (r : Option Thrown × Server) : Server :=
  match r.1 with
  | none => r.2
  | some e => r.2.withOuter (Proc.note r.2.outer (.caught e))

/-- The state after a turn; `none` for a `tick` that needs more iterations. -/
def Server.step (env : Env) (fails : Nat → Bool) (s : Server) : ServerOp → Option Server
  | .receive sender data => some (Server.catch (onReceive env fails sender data s))
  | .tick fuel => (tickLoop env (runTimer env (serverHooks env fails)) fuel s).map Server.catch

/-- The state after a list of turns. -/
def Server.run (env : Env) (fails : Nat → Bool) (s : Server) : List ServerOp → Option Server
  | [] => some s
  | op :: ops => (s.step env fails op).bind fun s' => Server.run env fails s' ops

/-- The server when it starts. -/
def Server.initial : Server := Center.initial {}

/-- The states of the runs whose turns all meet a condition `ok` on the state before the turn, the
turn and the state after it. -/
inductive ServerReachable (env : Env) (fails : Nat → Bool)
    (ok : Server → ServerOp → Server → Prop) : Server → Prop
  | initial : ServerReachable env fails ok Server.initial
  | step {s s' : Server} (op : ServerOp) : ServerReachable env fails ok s →
      s.step env fails op = some s' → ok s op s' → ServerReachable env fails ok s'

/-- A run without a condition on its turns. -/
theorem ServerReachable.run {env : Env} {fails : Nat → Bool}
    {ok : Server → ServerOp → Server → Prop} (hok : ∀ s op s', ok s op s') {ops : List ServerOp}
    {s s' : Server} (h : ServerReachable env fails ok s) (hrun : s.run env fails ops = some s') :
    ServerReachable env fails ok s' := by
  have hruns : Lib.Run.IsRun (Server.step env fails) (Server.run env fails) :=
    ⟨fun _ => rfl, fun _ _ _ => rfl⟩
  exact hruns.keeps (fun s op s' h hstep => .step op h hstep (hok s op s')) h hrun

/-- The server after a first update request. -/
def Server.first (env : Env) : Server :=
  Server.catch (onReceive env (fun _ => false) 7 (some (updateRequestMessage 11 1 [5] 200 0))
    Server.initial)

theorem Server.first_reachable (env : Env) {ok : Server → ServerOp → Server → Prop}
    (hok : ok Server.initial (.receive 7 (some (updateRequestMessage 11 1 [5] 200 0)))
      (Server.first env)) : ServerReachable env (fun _ => false) ok (Server.first env) :=
  .step _ .initial rfl hok

end CacheSystem

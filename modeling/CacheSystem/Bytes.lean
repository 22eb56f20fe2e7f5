import CacheSystem.Lib.Simulation
import CacheSystem.Network
import CacheSystem.Transport

/-!
# The network in bytes (`protobuf_message_common.h`, `socket_group_netlink_impl.h`)

In `Network.lean` a datagram is a message that parses when it arrives, or does not. What is really in
flight are bytes: `do_send_cache_message` serializes, the receiver reads at most `kMaxUdpPacketSize`
of them into its buffer, terminates them with a zero, and hands the parser what stands before the
first zero byte. So a datagram may arrive cut short at its end or at a zero byte in it, and a parser
might read another message off what is left.

* `received_eq` : it does not. Of every message that client and server build the parser reads the
  message or nothing, whatever the buffer held before.
* `ByteSystem` : clients, server and network with bytes in flight and a buffer in each process.
* `Outgoing` : the messages that are sent, in every run.
* `bytes_simulated` : the runs in bytes are runs of `System`, and the other way round.
-/

namespace CacheSystem

open Lib Lib.Wire Lib.Simulation

/-! ## What is left of a message -/

/-- The fields of a message after its header. -/
def CacheMessage.body (m : CacheMessage) : List Field :=
  optMessage 2 (m.readRequest.map CacheReadRequest.fields) ++
    optMessage 3 (m.updateRequest.map CacheUpdateRequest.fields) ++
    optMessage 4 (m.opResponse.map CacheOpResponse.fields)

/-- The fields of a message: its header, and then its body. -/
theorem CacheMessage.fields_eq (m : CacheMessage) :
    m.fields = optMessage 1 (m.header.map CacheMessageHeader.fields) ++ m.body := by
  simp [fields, body]

/-- A header takes 46 bytes at most. -/
theorem header_length_le (header : Option CacheMessageHeader) :
    (encode (optMessage 1 (header.map CacheMessageHeader.fields))).length ≤ 46 := by
  rcases header with _ | header
  · exact Nat.zero_le _
  · have hmagic : (encode (optVarint 1 header.magic.toNat)).length ≤ 11 :=
      encode_optVarint_length_le (by decide)
        (lt_trans header.magic.toNat_lt (by decide : 2 ^ 32 < 2 ^ 64))
    have hversion : (encode (optVarint 2 header.version.toNat)).length ≤ 11 :=
      encode_optVarint_length_le (by decide)
        (lt_trans header.version.toNat_lt (by decide : 2 ^ 32 < 2 ^ 64))
    have htype : (encode (optVarint 3 header.type.toInt64.toUInt64.toNat)).length ≤ 11 :=
      encode_optVarint_length_le (by decide) header.type.toInt64.toUInt64.toNat_lt
    have hopId : (encode (optVarint 4 header.opId.toNat)).length ≤ 11 :=
      encode_optVarint_length_le (by decide) header.opId.toNat_lt
    have hfields : (encode header.fields).length ≤ 44 := by
      simp only [CacheMessageHeader.fields, encode_append, List.length_append, enumVarint]
      omega
    have htag : (varint (8 * 1 + 2)).length = 1 := by
      rw [varint_of_lt (by decide), List.length_singleton]
    have hlength : (varint (encode header.fields).length).length ≤ 1 :=
      varint_length_le (lt_of_le_of_lt hfields (by decide))
    simp only [Option.map_some, optMessage, encode_cons, encode_nil, List.append_nil, Field.encode,
      List.length_append, htag]
    omega

/-- A message with one part after its header, cut short by the socket, ends within that part. -/
theorem endsWithin_take {m : CacheMessage} (hbody : m.body.length ≤ 1)
    (hlong : kMaxUdpPacketSize < (serialize m).length) :
    EndsWithin ((serialize m).take kMaxUdpPacketSize) := by
  have hheader := header_length_le m.header
  have hroom : 46 < kMaxUdpPacketSize := by decide
  have hnumber := m.number
  rw [serialize, m.fields_eq, encode_append] at hlong ⊢
  rw [m.fields_eq] at hnumber
  rcases hbody' : m.body with _ | ⟨f, _ | ⟨f', fs⟩⟩
  · rw [hbody', encode_nil, List.append_nil] at hlong
    omega
  · rw [hbody', encode_cons, encode_nil, List.append_nil, List.length_append] at hlong
    rw [hbody'] at hnumber
    have hf : f.number ≠ 0 := hnumber f (List.mem_append_right _ (List.mem_singleton_self f))
    rw [encode_cons, encode_nil, List.append_nil, List.take_append,
      List.take_of_length_le (hheader.trans hroom.le)]
    refine ⟨_, f, _, _, fun f' hf' => hnumber f' (List.mem_append_left _ hf'), hf,
      List.take_append_drop _ f.encode, ?_, ?_, rfl⟩
    · rw [Ne, List.take_eq_nil_iff, not_or]
      refine ⟨?_, f.encode_ne_nil⟩
      omega
    · rw [Ne, List.drop_eq_nil_iff]
      omega
  · rw [hbody'] at hbody
    exact absurd hbody (by simp)

variable {parse : List UInt8 → Option CacheMessage}

/-- **A message is received whole or not at all**: of what the socket hands on the parser reads the
message where it fits and has no zero byte, and nothing otherwise. -/
theorem received_eq (hparse : ProtobufWire parse) {m : CacheMessage} (hbody : m.body.length ≤ 1)
    (hm : m.isEmpty = false) {buffer : List UInt8} (hbuffer : buffer.length = kMaxBufferSize) :
    ∃ string parses, (socketGroupOnReceive (serialize m) buffer).1 = .ok string ∧
      parse string = (if parses then some m else none) ∧
      (parses = true ↔ Clean m ∧ (serialize m).length ≤ kMaxUdpPacketSize) := by
  have hne : serialize m ≠ [] := by
    rw [Ne, serialize_eq_nil, hm]
    simp
  rcases Nat.lt_or_ge kMaxUdpPacketSize (serialize m).length with hlong | hfits
  · have htake : socketGroupOnReceive (serialize m) buffer =
        socketGroupOnReceive ((serialize m).take kMaxUdpPacketSize) buffer := by
      simp only [socketGroupOnReceive, List.take_take, Nat.min_self]
    have hnone : parse (((serialize m).take kMaxUdpPacketSize).takeWhile (· ≠ 0)) = none := by
      by_cases hzero : (0 : UInt8) ∈ (serialize m).take kMaxUdpPacketSize
      · rw [← takeWhile_append_of_mem hzero ((serialize m).drop kMaxUdpPacketSize),
          List.take_append_drop]
        refine hparse.received fun hclean => ?_
        exact zero_mem_serialize.mpr hclean (List.mem_of_mem_take hzero)
      · rw [takeWhile_of_not_mem hzero]
        exact hparse.endsWithin _ (endsWithin_take hbody hlong)
    refine ⟨_, false, ?_, hnone, ?_⟩
    · rw [htake]
      refine socketGroupOnReceive_eq ?_ (List.length_take_le _ _) hbuffer
      rw [Ne, List.take_eq_nil_iff, not_or]
      exact ⟨by decide, hne⟩
    · exact ⟨fun h => absurd h Bool.false_ne_true, fun h => absurd h.2 (not_le_of_gt hlong)⟩
  · have hreceive := socketGroupOnReceive_eq hne hfits hbuffer
    by_cases hclean : Clean m
    · refine ⟨_, true, hreceive, ?_, ⟨fun _ => ⟨hclean, hfits⟩, fun _ => rfl⟩⟩
      rw [takeWhile_of_not_mem (zero_mem_serialize.mpr hclean), hparse.inverts]
      rfl
    · exact ⟨_, false, hreceive, hparse.received hclean,
        ⟨fun h => absurd h Bool.false_ne_true, fun h => absurd h.1 hclean⟩⟩

/-! ## The messages that are sent -/

/-- What client and server send: the messages that they build, and what is left of a response whose
op id waits already. -/
def Outgoing (m : CacheMessage) : Prop := Built m ∨ m = { header := some {} }

/-- What is sent has one body at most. -/
theorem Outgoing.body {m : CacheMessage} (h : Outgoing m) : m.body.length ≤ 1 := by
  rcases h with h | rfl
  · cases h <;> simp [CacheMessage.body, readRequestMessage, updateRequestMessage, ackMessage,
      readResponse, CacheSystem.updateResponse, prepareResponseMessage, optMessage]
  · exact Nat.zero_le _

/-- What is sent has a header. -/
theorem Outgoing.isEmpty {m : CacheMessage} (h : Outgoing m) : m.isEmpty = false := by
  rcases h with h | rfl
  · cases h <;> rfl
  · rfl

/-- The message of a call is one that is built. -/
theorem Call.outgoing (c : Call) : Outgoing c.message := by
  unfold Call.message
  rcases c.kind with _ | cacheData
  · exact Or.inl (.readRequest _ _ _ _)
  · exact Or.inl (.updateRequest _ _ _ _ _)

/-- The message of a datagram. -/
def Datagram.message : Datagram → CacheMessage
  | .request g => g.message
  | .response _ m => m

/-- What the server holds for acknowledgements, and what it has sent. -/
structure Outgoes (mem : ServerMem) : Prop where
  acks : ∀ ptr ack, mem.acks ptr = some ack → Outgoing ack.message ∨ ack.message = {}
  sent : ∀ x ∈ mem.sent, Outgoing x.message

section outgoes

variable {env : Env} {fails : Nat → Bool} {q : Rest} {s s' : Server}

/-- Nothing is sent and nothing is held. -/
theorem Outgoes.of_same {mem mem' : ServerMem} (h : Outgoes mem) (hacks : mem'.acks = mem.acks)
    (hsent : mem'.sent = mem.sent) : Outgoes mem' :=
  ⟨by rw [hacks]; exact h.acks, by rw [hsent]; exact h.sent⟩

/-- One object is assigned. -/
theorem Outgoes.assign {mem mem' : ServerMem} (h : Outgoes mem) (ptr : Nat) (ack : WaitCacheAck)
    (hack : Outgoing ack.message ∨ ack.message = {})
    (hacks : mem'.acks = Function.update mem.acks ptr (some ack)) (hsent : mem'.sent = mem.sent) :
    Outgoes mem' := by
  refine ⟨?_, by rw [hsent]; exact h.sent⟩
  rw [hacks]
  exact Lib.Table.forall_assign h.acks hack

/-- `do_send` tries what it was given, or the message that was held. -/
theorem Outgoes.doSend (h : Outgoes q.mem) {message : CacheMessage} {requester : Address}
    {r : Option Thrown × Rest} (hmessage : Outgoing message ∨ message = {})
    (hr : DoSend fails message requester q r) : Outgoes r.2.mem := by
  cases hr with
  | empty hempty => exact h
  | failed hfails => exact h.of_same rfl rfl
  | sent hempty =>
      refine ⟨h.acks, fun x hx => ?_⟩
      rcases List.mem_append.mp hx with hx | hx
      · exact h.sent x hx
      · rw [List.mem_singleton.mp hx]
        refine hmessage.resolve_right ?_
        rintro rfl
        cases hempty

/-- An answer that is registered is held as it was built. -/
theorem Outgoes.answer (h : Outgoes q.mem) {response : CacheMessage} {requester : Address}
    {r : Option Thrown × Rest} (hresponse : Outgoing response)
    (hr : Answer env fails response requester q r) : Outgoes r.2.mem := by
  cases hr with
  | registered hheader hmap hr =>
      exact (h.assign _ _ (Or.inl hresponse) (registerAck_acks ..) rfl).doSend (Or.inl hresponse) hr
  | @taken header ptr message r hheader hmap hmessage hr =>
      have hleft : Outgoing message ∨ message = {} := hmessage.symm.imp_left Or.inr
      have hrefused : Outgoes (q.refuseAck env header message requester).mem :=
        h.assign _ _ hleft (refuseAck_acks ..) rfl
      exact hrefused.doSend hleft hr

/-- A destroyed object has an empty message. -/
theorem Outgoes.eraseAck (h : Outgoes q.mem) (opId : UInt64) (ptr : Nat) :
    Outgoes (q.eraseAck opId ptr).mem := by
  rcases hack : q.mem.acks ptr with _ | ack
  · refine h.of_same ?_ rfl
    rw [Proc.eraseAck, hack, Option.map_none]
    exact Function.update_eq_self_iff.mpr hack.symm
  · refine h.assign ptr ack.destroy (Or.inr rfl) ?_ rfl
    rw [Proc.eraseAck, hack, Option.map_some]

/-- A message that is released is held no more. -/
theorem Outgoes.unregister (h : Outgoes q.mem) {opId : UInt64} {r : Rest}
    (hr : Unregister opId q r) : Outgoes r.mem := by
  cases hr with
  | absent hmap => exact h
  | @lost ptr hmap hack => exact (h.eraseAck opId ptr).of_same rfl rfl
  | @erased ptr ack hmap hack => exact (h.eraseAck opId ptr).of_same rfl rfl

/-- A message that is sent again is one that was held. -/
theorem Outgoes.timerHandle (h : Outgoes q.mem) {ptr : Nat} {r : Option Thrown × Rest}
    (hr : TimerHandle fails ptr q r) : Outgoes r.2.mem := by
  have hnoted : ∀ {q₁ : Rest} {P : Prop}, q₁ = q ∧ P ∨ q₁ = q.note (.danglingCall ptr) →
      Outgoes q₁.mem := fun hq =>
    h.of_same (noted_tables hq).2.2.1 (noted_tables hq).2.2.2.2.2.2.2
  cases hr with
  | absent hack => exact h
  | threw hack hq hr he => exact (hnoted hq).doSend (h.acks _ _ hack) hr
  | @unknown ack q₁ r hack hq hr he hmap =>
      exact Outgoes.doSend (r := r) (hnoted hq) (h.acks _ _ hack) hr
  | expired hack hq hr he hmap => exact ((hnoted hq).doSend (h.acks _ _ hack) hr).eraseAck _ _

/-- What the server sends when it takes a datagram in is such a message. -/
theorem Outgoes.onReceive {sender : Address} {data : Option CacheMessage}
    {r : Option Thrown × Server} (h : Outgoes s.mem.outer)
    (hr : OnReceive env fails sender s data r) : Outgoes r.2.mem.outer := by
  have hpeer : Outgoes (s.setPeer sender).mem.outer := h.of_same rfl rfl
  cases hr with
  | ignored he => exact hpeer
  | @acked m hm =>
      exact Outgoes.unregister (q := (s.setPeer sender).outer) hpeer
        (unregisterWaitAck_spec m.opId _)
  | @read m read ret out s₁ s₂ r hm hread hop hs₂ hr =>
      have houter : s₁.mem.outer = _ := hop.outer
      refine Outgoes.answer (q := s₂.outer) ?_ (Or.inl (.readResponse m _)) hr
      subst hs₂
      rcases out with _ | ⟨expire, value⟩ <;> refine h.of_same ?_ ?_ <;>
        simp only [outer_mem, Proc.setScratch, setOuter_outer, houter] <;> rfl
  | updateThrew hm hupdate hop =>
      rw [hop.outer]
      exact hpeer
  | @deferred m update expire s₁ hm hupdate hop =>
      have houter : s₁.mem.outer = _ := hop.outer
      rw [emplaceDefer_eq]
      refine h.of_same ?_ ?_ <;> simp only [setOuter_outer, houter] <;> rfl
  | @updated m update ret expire s₁ r hm hupdate hret hop hr =>
      have houter : s₁.mem.outer = _ := hop.outer
      refine Outgoes.answer (q := s₁.outer) ?_ (Or.inl (.updateResponse m _ _)) hr
      rw [outer_mem, houter]
      exact hpeer

/-- What the server sends when a timer fires is such a message. -/
theorem Outgoes.runTimer {call : TimerCall Nat} {r : Option Thrown × Server}
    (h : Outgoes s.mem.outer) (hr : RunTimer env (serverHooks env fails) s call r) :
    Outgoes r.2.mem.outer := by
  cases hr with
  | absent howner he => exact h
  | idled he => exact h
  | @completed cacheId e f s₁ p' r he hs hf hp hr =>
      have hspec : UpdateHandle env fails f .kOperationOk e.state.opId s₁.1.expireTime p'.outer r :=
        .of_invoke hr
      subst hp
      cases hspec with
      | refused hret => exact h
      | lost hret hdefer => exact h.of_same rfl rfl
      | @answered request r hret hdefer hr =>
          exact Outgoes.answer (h.of_same rfl rfl) (Or.inl (.updateResponse request.message _ _)) hr
  | noCall he hf => exact h
  | unbound he hcall => exact h
  | @foreign ptr r hr => exact Outgoes.timerHandle (q := s.outer) h (.of_foreign hr)

/-- A turn of the server sends only what is built, or what is left of it. -/
theorem Outgoes.step (h : Outgoes s.mem.outer) {op : ServerOp}
    (hstep : s.step env fails op = some s') : Outgoes s'.mem.outer :=
  Server.step_mem (P := fun mem => Outgoes mem.outer) (Q := fun mem => Outgoes mem.outer)
    (fun _ _ h => h.of_same rfl rfl) hstep (fun _ _ _ _ hr h => h.onReceive hr) (fun _ _ h => h)
    (fun _ _ _ h hr => h.runTimer hr) h

end outgoes

/-- What is in flight, and what the server holds. -/
structure Carried (s : System) : Prop where
  server : Outgoes s.server.mem.outer
  inFlight : ∀ d ∈ s.inFlight, Outgoing d.message

section carried

variable {env : Env} {fails : Nat → Bool} {ok : System → SystemOp → Prop} {s s' : System}

/-- A datagram that is taken leaves the others as they were. -/
theorem Carried.take (h : Carried s) (d : Datagram) (keep : Bool) : Carried (s.take d keep) :=
  ⟨by rw [take_server]; exact h.server,
    fun d' hd' => h.inFlight d' (take_inFlight_subset d keep s hd')⟩

/-- What the server sends in a turn is such a message. -/
theorem Carried.serverTurn (h : Carried s) {op : ServerOp} {server : Server}
    (hserver : s.server.step env fails op = some server) : Carried (s.serverTurn server) := by
  have hturn := h.server.step hserver
  refine ⟨hturn, fun d hd => ?_⟩
  rcases List.mem_append.mp hd with hd | hd
  · exact h.inFlight d hd
  · obtain ⟨x, hx, rfl⟩ := List.mem_map.mp hd
    exact hturn.sent x (List.mem_of_mem_drop hx)

/-- What a client sends in a turn is such a message. -/
theorem Carried.clientTurn (h : Carried s) {client : Address} {turn : ClientTurn}
    (hsent : ∀ m ∈ turn.sent, Outgoing m) : Carried (s.clientTurn client turn) := by
  refine ⟨h.server, fun d hd => ?_⟩
  rcases List.mem_append.mp hd with hd | hd
  · exact h.inFlight d hd
  · obtain ⟨m, hm, rfl⟩ := List.mem_map.mp hd
    exact hsent m hm

/-- A step of the system puts only such messages in flight. -/
theorem Carried.step (h : Carried s) {op : SystemOp} (hstep : s.Step env fails op s') :
    Carried s' := by
  cases hstep with
  | @call c sendFails hnew =>
      have hturn : Carried (s.clientTurn c.client (c.turn sendFails (s.clients c.client))) :=
        h.clientTurn fun m hm => (c.turn_spec sendFails _).1 m hm ▸ c.outgoing
      exact ⟨hturn.server, hturn.inFlight⟩
  | @request g parses keep sendFails server hmem hserver =>
      have hturn : Carried ((s.take (.request g) keep).serverTurn server) :=
        (h.take _ keep).serverTurn (by rw [take_server]; exact hserver)
      exact ⟨hturn.server, hturn.inFlight⟩
  | response hmem =>
      refine (h.take _ _).clientTurn fun m hm => ?_
      obtain ⟨opId, header, rfl⟩ := ((s.clients _).onReceive_spec _ _).2 m hm
      exact Or.inl (.ack opId header)
  | drop hmem => exact h.take _ false
  | tick hserver => exact h.serverTurn hserver

/-- In every run only such messages are in flight. -/
theorem SystemReachable.carried (h : SystemReachable env fails ok s) : Carried s := by
  induction h with
  | initial => exact ⟨⟨fun _ _ h => (nomatch h), fun _ h => (nomatch h)⟩, fun _ h => (nomatch h)⟩
  | step op _ _ hstep ih => exact ih.step (System.step_spec hstep)

end carried

/-! ## Bytes in flight -/

/-- Bytes in flight: from a sender to the server, or to the client at `dest`. -/
inductive Packet
  | request (sender : Address) (bytes : List UInt8)
  | response (dest : Address) (bytes : List UInt8)
  deriving DecidableEq, Repr

/-- The bytes that are sent. -/
def Datagram.packet : Datagram → Packet
  | .request g => .request g.requester (serialize g.message)
  | .response dest m => .response dest (serialize m)

/-- `buffer_` of a socket group. -/
structure SocketBuffer where
  bytes : List UInt8 := List.replicate kMaxBufferSize 0
  length_eq : bytes.length = kMaxBufferSize := by simp

/-- What the socket reads, with the zero after it, stays within the buffer. -/
theorem socketGroupOnReceive_length {datagram buffer : List UInt8}
    (hbuffer : buffer.length = kMaxBufferSize) :
    (socketGroupOnReceive datagram buffer).2.length = kMaxBufferSize := by
  have hread : (datagram.take kMaxUdpPacketSize).length ≤ kMaxBufferSize :=
    (List.length_take_le _ _).trans (by decide)
  have hlength : (datagram.take kMaxUdpPacketSize ++
      buffer.drop (datagram.take kMaxUdpPacketSize).length).length = kMaxBufferSize := by
    rw [List.length_append, List.length_drop, hbuffer]
    omega
  simp only [socketGroupOnReceive]
  split
  · exact hlength
  · rw [List.length_set, hlength]

/-- The socket reads a datagram: the string that it hands on, and the buffer. -/
def SocketBuffer.onReceive (b : SocketBuffer) (datagram : List UInt8) :
    Except Thrown (List UInt8) × SocketBuffer :=
  let r := socketGroupOnReceive datagram b.bytes
  (r.1, { bytes := r.2, length_eq := socketGroupOnReceive_length b.length_eq })

/-- A turn of the server: its socket reads a datagram, and its handlers get what is parsed. -/
def Server.receiveString (parse : List UInt8 → Option CacheMessage) (env : Env)
    (fails : Nat → Bool) (sender : Address) (string : Except Thrown (List UInt8)) (s : Server) :
    Option Server :=
  match string with
  | .error e => some (Server.catch (some e, s.setPeer sender))
  | .ok string => s.step env fails (.receive sender (parse string))

/-- A turn of a client: its socket reads a datagram, and it gets what is parsed. -/
def Client.receiveString (parse : List UInt8 → Option CacheMessage) (sendFails : Bool)
    (string : Except Thrown (List UInt8)) (c : Client) : ClientTurn :=
  match string with
  | .error e => { client := c, thrown := some e }
  | .ok string => c.onReceive sendFails (parse string)

/-- The clients and the server with the buffers of their sockets, and the network between them. -/
structure ByteSystem where
  server : Server := Server.initial
  serverBuffer : SocketBuffer := {}
  clients : Address → Client := fun _ => {}
  clientBuffers : Address → SocketBuffer := fun _ => {}
  inFlight : List Packet := []
  calls : List Call := []
  handled : List (Address × Handled) := []

/-- One step of the system. -/
inductive ByteOp
  | call (c : Call) (sendFails : Bool)
  | deliver (p : Packet) (keep sendFails : Bool)
  | drop (p : Packet)
  | tick (fuel : Nat)

/-- After a turn of a client. -/
def ByteSystem.clientTurn (client : Address) (turn : ClientTurn) (b : ByteSystem) : ByteSystem :=
  { b with
    clients := Function.update b.clients client turn.client
    inFlight := b.inFlight ++ turn.sent.map fun message => .request client (serialize message)
    handled := b.handled ++ turn.handled.map fun handled => (client, handled) }

/-- After a turn of the server, whose state is now `server`. -/
def ByteSystem.serverTurn (server : Server) (b : ByteSystem) : ByteSystem :=
  { b with
    server := server
    inFlight := b.inFlight ++ (server.mem.outer.sent.drop b.server.mem.outer.sent.length).map
      fun x => .response x.dest (serialize x.message) }

/-- Bytes leave the network, unless they are kept. -/
def ByteSystem.take (p : Packet) (keep : Bool) (b : ByteSystem) : ByteSystem :=
  if keep then b else { b with inFlight := b.inFlight.erase p }

/-- Bytes that have left the network reach a socket. -/
def ByteSystem.deliver (parse : List UInt8 → Option CacheMessage) (env : Env)
    (fails : Nat → Bool) (sendFails : Bool) (b : ByteSystem) : Packet → Option ByteSystem
  | .request sender bytes =>
      let r := b.serverBuffer.onReceive bytes
      (b.server.receiveString parse env fails sender r.1).map
        fun server => { b.serverTurn server with serverBuffer := r.2 }
  | .response dest bytes =>
      let r := (b.clientBuffers dest).onReceive bytes
      some { b.clientTurn dest ((b.clients dest).receiveString parse sendFails r.1) with
        clientBuffers := Function.update b.clientBuffers dest r.2 }

/-- The state after a step; `none` where there is no such step. -/
def ByteSystem.step (parse : List UInt8 → Option CacheMessage) (env : Env) (fails : Nat → Bool)
    (b : ByteSystem) : ByteOp → Option ByteSystem
  | .call c sendFails =>
      if b.calls.any fun c' => c'.opId = c.opId then none
      else
        some { b.clientTurn c.client (c.turn sendFails (b.clients c.client)) with
          calls := b.calls ++ [c] }
  | .deliver p keep sendFails =>
      if p ∈ b.inFlight then (b.take p keep).deliver parse env fails sendFails p else none
  | .drop p => if p ∈ b.inFlight then some (b.take p false) else none
  | .tick fuel => (b.server.step env fails (.tick fuel)).map fun server => b.serverTurn server

/-! ## The messages of the bytes -/

/-- The message is handed on whole. -/
def Arrives (m : CacheMessage) : Prop := Clean m ∧ (serialize m).length ≤ kMaxUdpPacketSize

/-- A datagram parses where it is handed on whole, and nowhere else. -/
def ByTransport : System → SystemOp → Prop
  | _, .deliver d parses _ _ => parses = true ↔ Arrives d.message
  | _, _ => True

/-- The step with the bytes of its datagram. -/
def SystemOp.bytes : SystemOp → ByteOp
  | .call c sendFails => .call c sendFails
  | .deliver d _ keep sendFails => .deliver d.packet keep sendFails
  | .drop d => .drop d.packet
  | .tick fuel => .tick fuel

/-- The same clients and the same server, and in flight the bytes of the same messages. -/
structure Represents (b : ByteSystem) (s : System) : Prop where
  server : b.server = s.server
  clients : b.clients = s.clients
  inFlight : b.inFlight = s.inFlight.map Datagram.packet
  calls : b.calls = s.calls
  handled : b.handled = s.handled

/-- Datagrams of the same bytes are the same datagram. -/
theorem packet_injective : Function.Injective Datagram.packet := by
  have hserialize : Function.Injective serialize := fun m m' h => by
    have hparse := parseWire_serialize m
    rw [h, parseWire_serialize] at hparse
    exact (Option.some.inj hparse).symm
  rintro (⟨m, sender⟩ | ⟨dest, m⟩) (⟨m', sender'⟩ | ⟨dest', m'⟩) h <;>
    simp only [Datagram.packet, Packet.request.injEq, Packet.response.injEq, reduceCtorEq] at h
  · rw [h.1, hserialize h.2]
  · rw [h.1, hserialize h.2]

/-- What is parsed of the bytes of a message that is sent. -/
theorem receive_eq (hparse : ProtobufWire parse) {m : CacheMessage} (hm : Outgoing m)
    (b : SocketBuffer) {parses : Bool} (hparses : parses = true ↔ Arrives m) :
    ∃ string, (b.onReceive (serialize m)).1 = .ok string ∧
      parse string = if parses then some m else none := by
  obtain ⟨string, parses', hstring, hread, harrives⟩ :=
    received_eq hparse hm.body hm.isEmpty b.length_eq
  obtain rfl : parses' = parses := Bool.eq_iff_iff.mpr (harrives.trans hparses.symm)
  exact ⟨string, hstring, hread⟩

section represents

variable {env : Env} {fails : Nat → Bool} {b : ByteSystem} {s : System}

/-- The bytes of a datagram are taken with it. -/
theorem Represents.take (h : Represents b s) (d : Datagram) (keep : Bool) :
    Represents (b.take d.packet keep) (s.take d keep) := by
  cases keep
  · refine ⟨h.server, h.clients, ?_, h.calls, h.handled⟩
    show b.inFlight.erase d.packet = (s.inFlight.erase d).map Datagram.packet
    rw [h.inFlight, List.map_erase packet_injective]
  · exact h

/-- What the server sends is put in flight as its bytes. -/
theorem Represents.serverTurn (h : Represents b s) (server : Server) :
    Represents (b.serverTurn server) (s.serverTurn server) := by
  refine ⟨rfl, h.clients, ?_, h.calls, h.handled⟩
  simp only [ByteSystem.serverTurn, System.serverTurn, List.map_append, List.map_map, h.inFlight,
    h.server]
  rfl

/-- What a client sends is put in flight as its bytes. -/
theorem Represents.clientTurn (h : Represents b s) (client : Address) (turn : ClientTurn) :
    Represents (b.clientTurn client turn) (s.clientTurn client turn) := by
  refine ⟨h.server, ?_, ?_, h.calls, ?_⟩
  · simp only [ByteSystem.clientTurn, System.clientTurn, h.clients]
  · simp only [ByteSystem.clientTurn, System.clientTurn, List.map_append, List.map_map, h.inFlight]
    rfl
  · simp only [ByteSystem.clientTurn, System.clientTurn, h.handled]

/-- Bytes reach a socket as the message that they are of, or as none. -/
theorem Represents.deliver (hparse : ProtobufWire parse) (h : Represents b s) {d : Datagram}
    (hd : Outgoing d.message) {parses : Bool} (hparses : parses = true ↔ Arrives d.message)
    (sendFails : Bool) : Option.Rel Represents (b.deliver parse env fails sendFails d.packet)
      (s.deliver env fails parses sendFails d) := by
  rcases d with ⟨m, sender⟩ | ⟨dest, m⟩
  · obtain ⟨string, hstring, hread⟩ := receive_eq hparse (m := m) hd b.serverBuffer hparses
    simp only [Datagram.packet, ByteSystem.deliver, System.deliver, hstring, Server.receiveString,
      hread, h.server]
    rcases s.server.step env fails _ with _ | server
    · exact .none
    · have hturn := h.serverTurn server
      exact .some ⟨hturn.server, hturn.clients, hturn.inFlight, hturn.calls, hturn.handled⟩
  · obtain ⟨string, hstring, hread⟩ := receive_eq hparse (m := m) hd (b.clientBuffers dest) hparses
    simp only [Datagram.packet, ByteSystem.deliver, System.deliver, hstring, Client.receiveString,
      hread, h.clients]
    have hturn := h.clientTurn dest
      ((s.clients dest).onReceive sendFails (if parses then some m else none))
    exact .some ⟨hturn.server, hturn.clients, hturn.inFlight, hturn.calls, hturn.handled⟩

/-- **A step in bytes is the step of the messages.** -/
theorem Represents.step (hparse : ProtobufWire parse) (h : Represents b s) (hs : Carried s)
    {op : SystemOp} (hop : ByTransport s op) :
    Option.Rel Represents (b.step parse env fails op.bytes) (s.step env fails op) := by
  have hmem : ∀ d : Datagram, d.packet ∈ b.inFlight ↔ d ∈ s.inFlight := fun d => by
    rw [h.inFlight, List.mem_map_of_injective packet_injective]
  cases op with
  | call c sendFails =>
      simp only [SystemOp.bytes, ByteSystem.step, System.step, h.calls, h.clients]
      split
      · exact .none
      · have hturn := h.clientTurn c.client (c.turn sendFails (s.clients c.client))
        exact .some ⟨hturn.server, hturn.clients, hturn.inFlight, rfl, hturn.handled⟩
  | deliver d parses keep sendFails =>
      simp only [SystemOp.bytes, ByteSystem.step, System.step, hmem]
      split
      · rename_i hd
        exact (h.take d keep).deliver hparse (hs.inFlight d hd) hop sendFails
      · exact .none
  | drop d =>
      simp only [SystemOp.bytes, ByteSystem.step, System.step, hmem]
      split
      · exact .some (h.take d false)
      · exact .none
  | tick fuel =>
      simp only [SystemOp.bytes, ByteSystem.step, System.step, h.server]
      rcases s.server.step env fails (.tick fuel) with _ | server
      · exact .none
      · exact .some (h.serverTurn server)

end represents

/-! ## Two machines -/

/-- The runs in bytes. -/
def byteMachine (parse : List UInt8 → Option CacheMessage) (env : Env) (fails : Nat → Bool) :
    Simulation.Machine ByteSystem where
  init b := b = {}
  next b b' := ∃ op, b.step parse env fails op = some b'

/-- The runs in messages whose steps all meet `ok`. -/
def systemMachine (env : Env) (fails : Nat → Bool) (ok : System → SystemOp → Prop) :
    Simulation.Machine System where
  init s := s = {}
  next s s' := ∃ op, ok s op ∧ s.step env fails op = some s'

/-- What the machine of the system reaches, the system reaches. -/
theorem systemMachine_reachable {env : Env} {fails : Nat → Bool} {ok : System → SystemOp → Prop}
    {s : System} (h : (systemMachine env fails ok).Reachable s) :
    SystemReachable env fails ok s := by
  refine h.induct ?_ ?_
  · rintro s rfl
    exact .initial
  · rintro s s' - hs ⟨op, hok, hstep⟩
    exact .step op hs hok hstep

/-- Of every step in bytes that can be taken there is the step in messages. -/
theorem exists_bytes {env : Env} {fails : Nat → Bool} {b b' : ByteSystem} {s : System}
    (h : Represents b s) {op : ByteOp} (hstep : b.step parse env fails op = some b') :
    ∃ sop : SystemOp, sop.bytes = op ∧ ByTransport s sop := by
  have hmem : ∀ p ∈ b.inFlight, ∃ d : Datagram, d.packet = p := fun p hp => by
    rw [h.inFlight] at hp
    obtain ⟨d, -, hd⟩ := List.mem_map.mp hp
    exact ⟨d, hd⟩
  cases op with
  | call c sendFails => exact ⟨.call c sendFails, rfl, trivial⟩
  | deliver p keep sendFails =>
      simp only [ByteSystem.step] at hstep
      split at hstep
      · rename_i hp
        obtain ⟨d, rfl⟩ := hmem p hp
        by_cases harrives : Arrives d.message
        · exact ⟨.deliver d true keep sendFails, rfl, fun _ => harrives, fun _ => rfl⟩
        · exact ⟨.deliver d false keep sendFails, rfl, nofun, fun h => absurd h harrives⟩
      · cases hstep
  | drop p =>
      simp only [ByteSystem.step] at hstep
      split at hstep
      · rename_i hp
        obtain ⟨d, rfl⟩ := hmem p hp
        exact ⟨.drop d, rfl, trivial⟩
      · cases hstep
  | tick fuel => exact ⟨.tick fuel, rfl, trivial⟩

/-- **The runs in bytes are the runs in messages** in which a datagram parses if and only if its
message has no zero byte and fits into the buffer: each simulates the other. -/
theorem bytes_simulated (hparse : ProtobufWire parse) (env : Env) (fails : Nat → Bool) :
    Simulates (byteMachine parse env fails) (systemMachine env fails ByTransport) Represents ∧
      Simulates (systemMachine env fails ByTransport) (byteMachine parse env fails)
        fun s b => Represents b s := by
  have hinit : Represents {} {} := ⟨rfl, rfl, rfl, rfl, rfl⟩
  refine ⟨⟨?_, ?_⟩, ⟨?_, ?_⟩⟩
  · rintro b rfl
    exact ⟨{}, rfl, hinit⟩
  · rintro b b' s - hs h ⟨op, hstep⟩
    obtain ⟨sop, rfl, hop⟩ := exists_bytes h hstep
    have hrel : Option.Rel Represents (b.step parse env fails sop.bytes) (s.step env fails sop) :=
      h.step hparse (systemMachine_reachable hs).carried hop
    rw [hstep] at hrel
    rcases hstep' : s.step env fails sop with _ | s'
    · rw [hstep'] at hrel
      cases hrel
    · rw [hstep'] at hrel
      cases hrel with
      | some hrep => exact ⟨s', .single ⟨sop, hop, hstep'⟩, hrep⟩
  · rintro s rfl
    exact ⟨{}, rfl, hinit⟩
  · rintro s s' b hs - h ⟨op, hop, hstep⟩
    have hrel : Option.Rel Represents (b.step parse env fails op.bytes) (s.step env fails op) :=
      h.step hparse (systemMachine_reachable hs).carried hop
    rw [hstep] at hrel
    rcases hstep' : b.step parse env fails op.bytes with _ | b'
    · rw [hstep'] at hrel
      cases hrel
    · rw [hstep'] at hrel
      cases hrel with
      | some hrep => exact ⟨b', .single ⟨op.bytes, hstep'⟩, hrep⟩

/-- The parser of the wire format, as a case of `bytes_simulated`. -/
theorem bytes_simulated_wire :
    Simulates (byteMachine parseWire stillClock fun _ => false)
        (systemMachine stillClock (fun _ => false) ByTransport) Represents ∧
      Simulates (systemMachine stillClock (fun _ => false) ByTransport)
        (byteMachine parseWire stillClock fun _ => false) fun s b => Represents b s :=
  bytes_simulated parseWire_protobufWire stillClock fun _ => false

end CacheSystem

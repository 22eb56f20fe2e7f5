import CacheSystem.Lib.Wire
import CacheSystem.Server

/-!
# Messages as bytes (`cache_message.proto`, `socket_group_netlink_impl.h`)

`do_send_cache_message` sends the bytes of a message, and `SocketGroupNetlinkImpl::on_receive` hands
what it receives to the parser as a C string: it ends at the first zero byte.

* `serialize` : `SerializeToString` on the messages of the protocol, by the wire format of protocol
  buffers. `ParseFromString` is a parameter of what follows; `Protobuf` and, for whole runs,
  `ProtobufWire` say what is relied on, and `parseWire`, the parser of the wire format, is one such
  function.
* `socketGroupOnReceive` : from a datagram to the string that is parsed.
* `intact_iff` : a message arrives as it was sent exactly where no byte of it is zero: its data has no
  zero byte, and none of its parts is present with nothing but defaults (`Clean`).
-/

namespace CacheSystem

open Lib.Wire

/-! ## The protocol on the wire -/

/-- An enumerator is written as its 64 bits. -/
def enumVarint (type : CacheMessageType) : Nat := type.toInt64.toUInt64.toNat

/-- Source: `cache_message.proto`, `CacheMessageHeader`. -/
def CacheMessageHeader.fields (header : CacheMessageHeader) : List Field :=
  optVarint 1 header.magic.toNat ++ optVarint 2 header.version.toNat ++
    optVarint 3 (enumVarint header.type) ++ optVarint 4 header.opId.toNat

/-- The header that a list of fields stands for. -/
def CacheMessageHeader.ofFields (fs : List Field) : CacheMessageHeader where
  magic := UInt32.ofNat (scalar 1 fs)
  version := UInt32.ofNat (scalar 2 fs)
  type := (UInt64.ofNat (scalar 3 fs)).toInt64.toInt32
  opId := UInt64.ofNat (scalar 4 fs)

/-- Source: `cache_message.proto`, `CacheReadRequest`. -/
def CacheReadRequest.fields (request : CacheReadRequest) : List Field :=
  optVarint 1 request.timestamp.toNat ++ optVarint 2 request.expire.toNat ++
    optVarint 3 request.cacheId.toNat

/-- The read request that a list of fields stands for. -/
def CacheReadRequest.ofFields (fs : List Field) : CacheReadRequest where
  timestamp := UInt64.ofNat (scalar 1 fs)
  expire := UInt32.ofNat (scalar 2 fs)
  cacheId := UInt32.ofNat (scalar 3 fs)

/-- Source: `cache_message.proto`, `CacheUpdateRequest`. -/
def CacheUpdateRequest.fields (request : CacheUpdateRequest) : List Field :=
  optVarint 1 request.timestamp.toNat ++ optVarint 2 request.expire.toNat ++
    optVarint 3 request.cacheId.toNat ++ optBytes 4 request.cacheData

/-- The update request that a list of fields stands for. -/
def CacheUpdateRequest.ofFields (fs : List Field) : CacheUpdateRequest where
  timestamp := UInt64.ofNat (scalar 1 fs)
  expire := UInt32.ofNat (scalar 2 fs)
  cacheId := UInt32.ofNat (scalar 3 fs)
  cacheData := payload 4 fs

/-- Source: `cache_message.proto`, `CacheOpResponse`. -/
def CacheOpResponse.fields (response : CacheOpResponse) : List Field :=
  optVarint 1 response.result.toNat ++ optVarint 2 response.timestamp.toNat ++
    optVarint 3 response.expire.toNat ++ optVarint 4 response.cacheId.toNat ++
    optBytes 5 response.cacheData

/-- The response that a list of fields stands for. -/
def CacheOpResponse.ofFields (fs : List Field) : CacheOpResponse where
  result := UInt32.ofNat (scalar 1 fs)
  timestamp := UInt64.ofNat (scalar 2 fs)
  expire := UInt32.ofNat (scalar 3 fs)
  cacheId := UInt32.ofNat (scalar 4 fs)
  cacheData := payload 5 fs

/-- Source: `cache_message.proto`, `CacheMessage`. -/
def CacheMessage.fields (m : CacheMessage) : List Field :=
  optMessage 1 (m.header.map CacheMessageHeader.fields) ++
    optMessage 2 (m.readRequest.map CacheReadRequest.fields) ++
    optMessage 3 (m.updateRequest.map CacheUpdateRequest.fields) ++
    optMessage 4 (m.opResponse.map CacheOpResponse.fields)

/-- `SerializeToString`. -/
def serialize (m : CacheMessage) : List UInt8 := encode m.fields

/-- `ParseFromString` by the wire format. -/
def parseWire (bytes : List UInt8) : Option CacheMessage :=
  match decode bytes with
  | none => none
  | some fs =>
      match submessage 1 CacheMessageHeader.ofFields fs, submessage 2 CacheReadRequest.ofFields fs,
        submessage 3 CacheUpdateRequest.ofFields fs, submessage 4 CacheOpResponse.ofFields fs with
      | some header, some readRequest, some updateRequest, some opResponse =>
          some { header, readRequest, updateRequest, opResponse }
      | _, _, _, _ => none

/-! ## Parsing inverts serializing -/

/-- A header is what its fields stand for. -/
theorem CacheMessageHeader.ofFields_fields (header : CacheMessageHeader) :
    ofFields header.fields = header := by
  simp [ofFields, fields, scalar, enumVarint]

/-- A read request is what its fields stand for. -/
theorem CacheReadRequest.ofFields_fields (request : CacheReadRequest) :
    ofFields request.fields = request := by
  simp [ofFields, fields, scalar]

/-- An update request is what its fields stand for. -/
theorem CacheUpdateRequest.ofFields_fields (request : CacheUpdateRequest) :
    ofFields request.fields = request := by
  simp [ofFields, fields, scalar, payload]

/-- A response is what its fields stand for. -/
theorem CacheOpResponse.ofFields_fields (response : CacheOpResponse) :
    ofFields response.fields = response := by
  simp [ofFields, fields, scalar, payload]

/-- No field of a header has the number 0. -/
theorem CacheMessageHeader.number (header : CacheMessageHeader) :
    ∀ f ∈ header.fields, f.number ≠ 0 := by
  simp only [fields, List.forall_mem_append]
  exact ⟨⟨⟨number_optVarint (by decide), number_optVarint (by decide)⟩,
    number_optVarint (by decide)⟩, number_optVarint (by decide)⟩

/-- No field of a read request has the number 0. -/
theorem CacheReadRequest.number (request : CacheReadRequest) :
    ∀ f ∈ request.fields, f.number ≠ 0 := by
  simp only [fields, List.forall_mem_append]
  exact ⟨⟨number_optVarint (by decide), number_optVarint (by decide)⟩,
    number_optVarint (by decide)⟩

/-- No field of an update request has the number 0. -/
theorem CacheUpdateRequest.number (request : CacheUpdateRequest) :
    ∀ f ∈ request.fields, f.number ≠ 0 := by
  simp only [fields, List.forall_mem_append]
  exact ⟨⟨⟨number_optVarint (by decide), number_optVarint (by decide)⟩,
    number_optVarint (by decide)⟩, number_optBytes (by decide)⟩

/-- No field of a response has the number 0. -/
theorem CacheOpResponse.number (response : CacheOpResponse) :
    ∀ f ∈ response.fields, f.number ≠ 0 := by
  simp only [fields, List.forall_mem_append]
  exact ⟨⟨⟨⟨number_optVarint (by decide), number_optVarint (by decide)⟩,
    number_optVarint (by decide)⟩, number_optVarint (by decide)⟩, number_optBytes (by decide)⟩

/-- No field of a message has the number 0. -/
theorem CacheMessage.number (m : CacheMessage) : ∀ f ∈ m.fields, f.number ≠ 0 := by
  simp only [fields, List.forall_mem_append]
  exact ⟨⟨⟨number_optMessage (by decide), number_optMessage (by decide)⟩,
    number_optMessage (by decide)⟩, number_optMessage (by decide)⟩

/-- The parts of a message, as they are found on the wire. -/
theorem CacheMessage.payloads_fields (m : CacheMessage) :
    payloads 1 m.fields = ((m.header.map CacheMessageHeader.fields).map encode).toList ∧
      payloads 2 m.fields = ((m.readRequest.map CacheReadRequest.fields).map encode).toList ∧
      payloads 3 m.fields = ((m.updateRequest.map CacheUpdateRequest.fields).map encode).toList ∧
      payloads 4 m.fields = ((m.opResponse.map CacheOpResponse.fields).map encode).toList := by
  refine ⟨?_, ?_, ?_, ?_⟩ <;> simp [fields]

/-- **The parser inverts the serializer.** -/
theorem parseWire_serialize (m : CacheMessage) : parseWire (serialize m) = some m := by
  obtain ⟨h₁, h₂, h₃, h₄⟩ := m.payloads_fields
  simp only [parseWire, serialize, decode_encode m.number,
    submessage_of_payloads CacheMessageHeader.ofFields_fields CacheMessageHeader.number h₁,
    submessage_of_payloads CacheReadRequest.ofFields_fields CacheReadRequest.number h₂,
    submessage_of_payloads CacheUpdateRequest.ofFields_fields CacheUpdateRequest.number h₃,
    submessage_of_payloads CacheOpResponse.ofFields_fields CacheOpResponse.number h₄]

/-- A message that is cut short is not read as the message. -/
theorem parseWire_truncated {m : CacheMessage} {bytes more : List UInt8}
    (hcut : bytes ++ more = serialize m) (hparse : parseWire bytes = some m) : more = [] := by
  rcases hdecode : decode bytes with _ | fs
  · simp [parseWire, hdecode] at hparse
  · have hwhole := decode_encode m.number
    rw [← serialize, ← hcut, decode_append hdecode] at hwhole
    obtain ⟨fs', hmore, hfields⟩ := Option.map_eq_some_iff.mp hwhole
    simp only [parseWire, hdecode] at hparse
    split at hparse
    · rename_i header readRequest updateRequest opResponse h₁ h₂ h₃ h₄
      cases hparse
      obtain ⟨hp₁, hp₂, hp₃, hp₄⟩ := CacheMessage.payloads_fields
        { header, readRequest, updateRequest, opResponse }
      rw [← hfields] at hp₁ hp₂ hp₃ hp₄
      -- nothing of the message is left in `more`
      have hnone : fs' = [] := by
        refine List.eq_nil_iff_forall_not_mem.mpr fun f hf => ?_
        have hmem : f ∈ fs ++ fs' := List.mem_append_right _ hf
        rw [hfields, CacheMessage.fields] at hmem
        simp only [List.mem_append] at hmem
        rcases hmem with ((hmem | hmem) | hmem) | hmem <;> obtain ⟨b, rfl⟩ := mem_optMessage hmem
        · exact absurd (mem_payloads hf) (by simp [submessage_cut hp₁ h₁])
        · exact absurd (mem_payloads hf) (by simp [submessage_cut hp₂ h₂])
        · exact absurd (mem_payloads hf) (by simp [submessage_cut hp₃ h₃])
        · exact absurd (mem_payloads hf) (by simp [submessage_cut hp₄ h₄])
      rw [hnone] at hmore
      exact decode_eq_some_nil hmore
    · cases hparse

/-! ## Zero bytes -/

/-- No part of the message is present with nothing but defaults, and there is no zero byte in its
data. -/
structure Clean (m : CacheMessage) : Prop where
  header : ∀ header, m.header = some header → header ≠ {}
  readRequest : ∀ request, m.readRequest = some request → request ≠ {}
  updateRequest : ∀ request, m.updateRequest = some request →
    request ≠ {} ∧ (0 : UInt8) ∉ request.cacheData
  opResponse : ∀ response, m.opResponse = some response →
    response ≠ {} ∧ (0 : UInt8) ∉ response.cacheData

/-- Only the default header is written without a field. -/
theorem CacheMessageHeader.fields_eq_nil {header : CacheMessageHeader} :
    header.fields = [] ↔ header = {} := by
  refine ⟨fun h => ?_, by rintro rfl; rfl⟩
  rw [← ofFields_fields header, h]
  rfl

/-- Only the default read request is written without a field. -/
theorem CacheReadRequest.fields_eq_nil {request : CacheReadRequest} :
    request.fields = [] ↔ request = {} := by
  refine ⟨fun h => ?_, by rintro rfl; rfl⟩
  rw [← ofFields_fields request, h]
  rfl

/-- Only the default update request is written without a field. -/
theorem CacheUpdateRequest.fields_eq_nil {request : CacheUpdateRequest} :
    request.fields = [] ↔ request = {} := by
  refine ⟨fun h => ?_, by rintro rfl; rfl⟩
  rw [← ofFields_fields request, h]
  rfl

/-- Only the default response is written without a field. -/
theorem CacheOpResponse.fields_eq_nil {response : CacheOpResponse} :
    response.fields = [] ↔ response = {} := by
  refine ⟨fun h => ?_, by rintro rfl; rfl⟩
  rw [← ofFields_fields response, h]
  rfl

/-- A header has no zero byte. -/
theorem CacheMessageHeader.zero_mem (header : CacheMessageHeader) :
    (0 : UInt8) ∉ encode header.fields := by
  simp [fields, zero_not_mem_optVarint]

/-- A read request has no zero byte. -/
theorem CacheReadRequest.zero_mem (request : CacheReadRequest) :
    (0 : UInt8) ∉ encode request.fields := by
  simp [fields, zero_not_mem_optVarint]

/-- The zero bytes of an update request are those of its data. -/
theorem CacheUpdateRequest.zero_mem (request : CacheUpdateRequest) :
    (0 : UInt8) ∈ encode request.fields ↔ 0 ∈ request.cacheData := by
  simp [fields, zero_not_mem_optVarint, zero_mem_optBytes]

/-- The zero bytes of a response are those of its data. -/
theorem CacheOpResponse.zero_mem (response : CacheOpResponse) :
    (0 : UInt8) ∈ encode response.fields ↔ 0 ∈ response.cacheData := by
  simp [fields, zero_not_mem_optVarint, zero_mem_optBytes]

/-- **Where a message has a zero byte.** -/
theorem zero_mem_serialize {m : CacheMessage} : (0 : UInt8) ∉ serialize m ↔ Clean m := by
  have hpart : ∀ {α : Type} {number : Nat} {toFields : α → List Field} {part : Option α},
      number ≠ 0 → ((0 : UInt8) ∉ encode (optMessage number (part.map toFields)) ↔
        ∀ a, part = some a → toFields a ≠ [] ∧ (0 : UInt8) ∉ encode (toFields a)) := by
    intro α number toFields part hnumber
    rw [zero_mem_optMessage hnumber]
    cases part <;> simp
  simp only [serialize, CacheMessage.fields, encode_append, List.mem_append, not_or]
  rw [hpart (by decide), hpart (by decide), hpart (by decide), hpart (by decide)]
  simp only [ne_eq, CacheMessageHeader.fields_eq_nil, CacheReadRequest.fields_eq_nil,
    CacheUpdateRequest.fields_eq_nil, CacheOpResponse.fields_eq_nil, CacheMessageHeader.zero_mem,
    CacheReadRequest.zero_mem, CacheUpdateRequest.zero_mem, CacheOpResponse.zero_mem,
    not_false_eq_true, and_true]
  exact ⟨fun ⟨⟨⟨h₁, h₂⟩, h₃⟩, h₄⟩ => ⟨h₁, h₂, h₃, h₄⟩,
    fun h => ⟨⟨⟨h.header, h.readRequest⟩, h.updateRequest⟩, h.opResponse⟩⟩

/-! ## The socket -/

/-- Source: `socket_group_netlink_impl.h`, `SocketGroupNetlinkImpl`. -/
def kMaxUdpPacketSize : Nat := 1492

/-- Source: `socket_group_netlink_impl.h`, `SocketGroupNetlinkImpl`. -/
def kMaxBufferSize : Nat := 2000

/-- Source: `protobuf_message_common.h`, `do_send_cache_message`: the datagram that is sent. -/
def doSendCacheMessage (message : CacheMessage) : Except Thrown (List UInt8) :=
  let str := serialize message
  if str.length = 0 then
    .error (.csn .kErrorSysRoutine "SerializeToString() generate a zero length message")
  else .ok str

/-- Source: `socket_group_netlink_impl.h`, `SocketGroupNetlinkImpl::on_receive`: the string that the
socket's `on_receive` is handed, and `buffer_`. -/
def socketGroupOnReceive (datagram buffer : List UInt8) :
    Except Thrown (List UInt8) × List UInt8 :=
  let received := datagram.take kMaxUdpPacketSize
  let length := received.length
  let buffer := received ++ buffer.drop length
  if length = 0 then (.error (.csn .kErrorRead "error socket group error read"), buffer)
  else
    let buffer := buffer.set length 0
    -- a `char*` becomes a `std::string`, which ends at the first zero byte
    (.ok (buffer.takeWhile (· ≠ 0)), buffer)

/-- Only the empty message is serialized to no byte. -/
theorem serialize_eq_nil {m : CacheMessage} : serialize m = [] ↔ m.isEmpty = true := by
  have hpart : ∀ {number : Nat} {part : Option (List Field)},
      optMessage number part = [] ↔ part = none := by
    intro number part
    cases part <;> simp [optMessage]
  rw [serialize, encode_eq_nil, CacheMessage.fields]
  simp [hpart, CacheMessage.isEmpty, and_assoc]

/-- The check of `do_send_cache_message` is that no part is present. -/
theorem doSendCacheMessage_eq (m : CacheMessage) : doSendCacheMessage m =
    if m.isEmpty then
      .error (.csn .kErrorSysRoutine "SerializeToString() generate a zero length message")
    else .ok (serialize m) := by
  simp only [doSendCacheMessage, List.length_eq_zero_iff, serialize_eq_nil]

/-- What is handed on of a datagram that fits: all before its first zero byte. -/
theorem socketGroupOnReceive_eq {datagram buffer : List UInt8} (hpos : datagram ≠ [])
    (hmax : datagram.length ≤ kMaxUdpPacketSize) (hbuffer : buffer.length = kMaxBufferSize) :
    (socketGroupOnReceive datagram buffer).1 = .ok (datagram.takeWhile (· ≠ 0)) := by
  have htake : datagram.take kMaxUdpPacketSize = datagram := List.take_of_length_le hmax
  have hlength : datagram.length ≠ 0 := mt List.length_eq_zero_iff.mp hpos
  have hroom : buffer.drop datagram.length ≠ [] := by
    rw [Ne, List.drop_eq_nil_iff, hbuffer]
    simp only [kMaxUdpPacketSize, kMaxBufferSize] at hmax ⊢
    omega
  obtain ⟨b, rest, hdrop⟩ := List.exists_cons_of_ne_nil hroom
  simp only [socketGroupOnReceive, htake, if_neg hlength, hdrop,
    List.set_append_right _ _ (Nat.le_refl _), Nat.sub_self, List.set_cons_zero]
  by_cases hzero : (0 : UInt8) ∈ datagram
  · rw [takeWhile_append_of_mem hzero]
  · rw [takeWhile_append_of_not_mem hzero, takeWhile_of_not_mem hzero]
    simp

/-! ## Arriving intact -/

/-- What is relied on of `ParseFromString`: it inverts `SerializeToString`, and does not read a
message off bytes that were cut short. -/
structure Protobuf (parse : List UInt8 → Option CacheMessage) : Prop where
  inverts : ∀ m, parse (serialize m) = some m
  truncated : ∀ m bytes more, bytes ++ more = serialize m → more ≠ [] → parse bytes ≠ some m

/-- `parseWire` is as documented on messages. -/
theorem parseWire_protobuf : Protobuf parseWire :=
  ⟨parseWire_serialize, fun _ _ _ hcut hmore hparse => hmore (parseWire_truncated hcut hparse)⟩

/-- What is relied on where any message may be read off the bytes: `ParseFromString` fails on bytes
that end within a field. -/
structure ProtobufWire (parse : List UInt8 → Option CacheMessage) : Prop extends Protobuf parse where
  endsWithin : ∀ bytes, EndsWithin bytes → parse bytes = none

/-- `parseWire` is as documented on messages and on bytes that end within a field. -/
theorem parseWire_protobufWire : ProtobufWire parseWire where
  toProtobuf := parseWire_protobuf
  endsWithin bytes h := by rw [parseWire, h.decode_eq_none]

/-- Sent and received, the message parses back. -/
def Intact (parse : List UInt8 → Option CacheMessage) (buffer : List UInt8) (m : CacheMessage) :
    Prop :=
  ∃ datagram string, doSendCacheMessage m = .ok datagram ∧
    (socketGroupOnReceive datagram buffer).1 = .ok string ∧ parse string = some m

/-- What arrives is what stands before the first zero byte. -/
theorem intact_iff_parse {parse : List UInt8 → Option CacheMessage} {buffer : List UInt8}
    (hbuffer : buffer.length = kMaxBufferSize) {m : CacheMessage}
    (hpos : 1 ≤ (serialize m).length) (hmax : (serialize m).length ≤ kMaxUdpPacketSize) :
    Intact parse buffer m ↔ parse ((serialize m).takeWhile (· ≠ 0)) = some m := by
  have hne : serialize m ≠ [] := List.length_pos_iff.mp hpos
  have hsend : doSendCacheMessage m = .ok (serialize m) := by
    rw [doSendCacheMessage_eq, if_neg (mt serialize_eq_nil.mpr hne)]
  have hreceive := socketGroupOnReceive_eq hne hmax hbuffer
  constructor
  · rintro ⟨datagram, string, hd, hs, hm⟩
    rw [hsend] at hd
    cases hd
    rw [hreceive] at hs
    cases hs
    exact hm
  · exact fun hm => ⟨_, _, hsend, hreceive, hm⟩

/-- **A message that fits arrives intact if and only if it is `Clean`.** -/
theorem intact_iff {parse : List UInt8 → Option CacheMessage} (hparse : Protobuf parse)
    {buffer : List UInt8} (hbuffer : buffer.length = kMaxBufferSize) {m : CacheMessage}
    (hpos : 1 ≤ (serialize m).length) (hmax : (serialize m).length ≤ kMaxUdpPacketSize) :
    Intact parse buffer m ↔ Clean m := by
  rw [intact_iff_parse hbuffer hpos hmax, ← zero_mem_serialize]
  constructor
  · intro hm hzero
    refine hparse.truncated m _ _ List.takeWhile_append_dropWhile ?_ hm
    rw [Ne, List.dropWhile_eq_nil_iff]
    intro hall
    simpa using hall 0 hzero
  · intro hzero
    rw [takeWhile_of_not_mem hzero, hparse.inverts]

/-- An update request with the data 5, as a case of `intact_iff`. -/
theorem intact_iff_five :
    Intact parseWire (List.replicate kMaxBufferSize 0) (updateRequestMessage 11 1 [5] 200 0) := by
  apply (intact_iff parseWire_protobuf List.length_replicate (by decide) (by decide)).mpr
  refine ⟨?_, ?_, ?_, ?_⟩ <;> rintro _ ⟨⟩
  · decide
  · exact ⟨by decide, by decide⟩

/-- What the parser makes of a message that is not `Clean`: nothing at all. -/
theorem ProtobufWire.received {parse : List UInt8 → Option CacheMessage} (hparse : ProtobufWire parse)
    {m : CacheMessage} (h : ¬ Clean m) : parse ((serialize m).takeWhile (· ≠ 0)) = none := by
  have hzero : (0 : UInt8) ∈ serialize m := by
    by_contra hzero
    exact h (zero_mem_serialize.mp hzero)
  exact hparse.endsWithin _ (endsWithin_takeWhile m.number hzero)

/-! ## Messages with a zero byte -/

/-- The messages that client and server build. -/
inductive Built : CacheMessage → Prop
  | readRequest (opId : UInt64) (cacheId expire : UInt32) (timestamp : Int) :
      Built (readRequestMessage opId cacheId expire timestamp)
  | updateRequest (opId : UInt64) (cacheId : UInt32) (cacheData : CacheData) (expire : UInt32)
      (timestamp : Int) : Built (updateRequestMessage opId cacheId cacheData expire timestamp)
  | ack (opId : UInt64) (header : Option CacheMessageHeader) : Built (ackMessage opId header)
  | readResponse (request : CacheMessage) (mem : ServerMem) : Built (readResponse request mem)
  | updateResponse (request : CacheMessage) (timestamp : Int) (ret : OpResult) :
      Built (updateResponse request timestamp ret)

/-- The header of a message that is built has a type. -/
theorem Built.header_ne {m : CacheMessage} (h : Built m) :
    ∀ header, m.header = some header → header ≠ {} := by
  have htype : ∀ {header : CacheMessageHeader}, header.type ≠ 0 → header ≠ {} := by
    rintro header hne rfl
    exact hne rfl
  cases h <;> rintro header ⟨⟩ <;> refine htype ?_
  · exact (by decide : kReadRequest ≠ 0)
  · exact (by decide : kUpdateRequest ≠ 0)
  · exact (by decide : kOperationAck ≠ 0)
  · exact (by decide : kReadResponse ≠ 0)
  · exact (by decide : kUpdateResponse ≠ 0)

/-- Of the client's requests, only an update with a zero byte in its data does not arrive. -/
theorem clean_updateRequestMessage (opId : UInt64) (cacheId : UInt32) (cacheData : CacheData)
    {expire : UInt32} (h : expire ≠ 0) (timestamp : Int) :
    Clean (updateRequestMessage opId cacheId cacheData expire timestamp) ↔
      (0 : UInt8) ∉ cacheData := by
  refine ⟨fun hclean => (hclean.updateRequest _ rfl).2, fun hzero =>
    ⟨(Built.updateRequest _ _ _ _ _).header_ne, fun _ h => (nomatch h), ?_, fun _ h => (nomatch h)⟩⟩
  rintro request ⟨⟩
  exact ⟨fun hdefault => h (congrArg CacheUpdateRequest.expire hdefault), hzero⟩

/-- A read request that states an expire time comes through. -/
theorem clean_readRequestMessage (opId : UInt64) (cacheId : UInt32) {expire : UInt32}
    (h : expire ≠ 0) (timestamp : Int) :
    Clean (readRequestMessage opId cacheId expire timestamp) := by
  refine ⟨(Built.readRequest _ _ _ _).header_ne, ?_, fun _ h => (nomatch h),
    fun _ h => (nomatch h)⟩
  rintro request ⟨⟩ hdefault
  exact h (congrArg CacheReadRequest.expire hdefault)

/-- An acknowledgement comes through. -/
theorem clean_ackMessage (opId : UInt64) (header : Option CacheMessageHeader) :
    Clean (ackMessage opId header) :=
  ⟨(Built.ack _ _).header_ne, fun _ h => (nomatch h), fun _ h => (nomatch h),
    fun _ h => (nomatch h)⟩

/-- Every message that is built and fits arrives intact. -/
def DeliversIntact (parse : List UInt8 → Option CacheMessage) : Prop :=
  ∀ m, Built m → 1 ≤ (serialize m).length → (serialize m).length ≤ kMaxUdpPacketSize →
    ∀ buffer, buffer.length = kMaxBufferSize → Intact parse buffer m

/-- Of an update with the data 53, 0, 54 the parser is handed no more than the bytes up to 53. -/
theorem not_deliversIntact : ¬ DeliversIntact parseWire := by
  intro h
  have hintact := h _ (.updateRequest 11 1 [53, 0, 54] 200 0) (by decide) (by decide)
    (List.replicate kMaxBufferSize 0) List.length_replicate
  rw [intact_iff_parse List.length_replicate (by decide) (by decide),
    parseWire_protobufWire.received] at hintact
  · cases hintact
  · exact fun hclean => (hclean.updateRequest _ rfl).2 (by decide)

end CacheSystem

import CacheSystem.Common

/-!
# Messages (`cache_message.proto`, `protobuf_message_common.h`)

* `CacheMessage` and its parts: a proto3 message is a record whose scalar fields have the default
  `0` or empty, and whose submessages are present or absent. `CacheMessageType` is an open enum, so
  a parsed header can hold any `int32`.
* `headerAvailable` : the check that the server and the client make of a parsed message.
* `prepareHeader`, `prepareRequest`, `prepareOpResponse` : how messages are built.
* `CacheMessageRaii` empties a message at the end of a scope: `CacheMessage.released`.
-/

namespace CacheSystem

/-- Source: `protobuf_message_common.h`, `CacheDataType`: the bytes of a `std::string`. -/
abbrev CacheData := List UInt8

/-! ## The protocol -/

/-- Source: `cache_message.proto`, `CacheMessageType`. -/
abbrev CacheMessageType := Int32

def kReadRequest : CacheMessageType := 0x1001
def kReadResponse : CacheMessageType := 0x1002
def kUpdateRequest : CacheMessageType := 0x1003
def kUpdateResponse : CacheMessageType := 0x1004
def kOperationAck : CacheMessageType := 0x1005
def kInvalidateCache : CacheMessageType := 0x1006

/-- Source: `protobuf_message_common.h`, `HEADER_VERSION`. -/
def headerVersion : UInt32 := 1

/-- Source: `protobuf_message_common.h`, `HEADER_MAGIC`. -/
def headerMagic : UInt32 := 0x34EC27D9

/-- Source: `cache_message.proto`, `CacheMessageHeader`. -/
structure CacheMessageHeader where
  magic : UInt32 := 0
  version : UInt32 := 0
  type : CacheMessageType := 0
  opId : UInt64 := 0
  deriving DecidableEq, Repr

/-- Source: `cache_message.proto`, `CacheReadRequest`. -/
structure CacheReadRequest where
  timestamp : UInt64 := 0
  expire : UInt32 := 0
  cacheId : UInt32 := 0
  deriving DecidableEq, Repr

/-- Source: `cache_message.proto`, `CacheUpdateRequest`. -/
structure CacheUpdateRequest where
  timestamp : UInt64 := 0
  expire : UInt32 := 0
  cacheId : UInt32 := 0
  cacheData : CacheData := []
  deriving DecidableEq, Repr

/-- Source: `cache_message.proto`, `CacheOpResponse`. -/
structure CacheOpResponse where
  result : UInt32 := 0
  timestamp : UInt64 := 0
  expire : UInt32 := 0
  cacheId : UInt32 := 0
  cacheData : CacheData := []
  deriving DecidableEq, Repr

/-- Source: `cache_message.proto`, `CacheMessage`. -/
structure CacheMessage where
  header : Option CacheMessageHeader := none
  readRequest : Option CacheReadRequest := none
  updateRequest : Option CacheUpdateRequest := none
  opResponse : Option CacheOpResponse := none
  deriving DecidableEq, Repr

/-- `message.header().op_id()`, the default where there is no header. -/
def CacheMessage.opId (m : CacheMessage) : UInt64 := (m.header.getD {}).opId

/-- Source: `protobuf_message_common.h`, `~CacheMessageRaii`: every submessage is released. -/
def CacheMessage.released (_ : CacheMessage) : CacheMessage := {}

/-- `SerializeToString` writes nothing: no submessage is present. -/
def CacheMessage.isEmpty (m : CacheMessage) : Bool :=
  m.header.isNone && m.readRequest.isNone && m.updateRequest.isNone && m.opResponse.isNone

/-- Source: `protobuf_message_common.h`, `header_available`. -/
def headerAvailable (m : CacheMessage) : Bool :=
  match m.header with
  | none => false
  | some header =>
      if headerMagic ≠ header.magic then false
      else if header.type < kReadRequest ∨ kInvalidateCache < header.type then false
      else if header.opId = 0 then false
      else true

/-! ## Building messages -/

/-- Source: `protobuf_message_client_impl.h`, `CacheClientOperation::prepare_header`, on a message
whose header is `header`. -/
def prepareHeader (type : CacheMessageType) (opId : UInt64) (header : Option CacheMessageHeader) :
    CacheMessageHeader :=
  { header.getD {} with type := type, magic := headerMagic, version := headerVersion, opId := opId }

/-- The request that `CacheClientReadOpration::do_send_request` builds. Source:
`protobuf_message_client_impl.h`, `prepare_request`. -/
def readRequestMessage (opId : UInt64) (cacheId expireTimeMs : UInt32) (timestamp : Int) :
    CacheMessage where
  header := some (prepareHeader kReadRequest opId none)
  readRequest := some
    { cacheId := cacheId, timestamp := UInt64.ofInt timestamp, expire := expireTimeMs }

/-- The request that `CacheClientUpdateOpration::do_send_request` builds. Source:
`protobuf_message_client_impl.h`, `prepare_request`. -/
def updateRequestMessage (opId : UInt64) (cacheId : UInt32) (cacheData : CacheData)
    (expireTimeMs : UInt32) (timestamp : Int) : CacheMessage where
  header := some (prepareHeader kUpdateRequest opId none)
  updateRequest := some
    { cacheId := cacheId, cacheData := cacheData, timestamp := UInt64.ofInt timestamp,
      expire := expireTimeMs }

/-- The acknowledgement that `CacheClientOperation::do_send_ack` builds from the header of a
response. -/
def ackMessage (opId : UInt64) (header : Option CacheMessageHeader) : CacheMessage where
  header := some (prepareHeader kOperationAck opId header)

/-- Source: `protobuf_message_server_impl.h`, `CacheOperationInterface::prepare_op_response`:
`set_expire` keeps the low 32 bits of the timestamp. -/
def prepareOpResponse (timestamp : Int) (cacheId : UInt32) (cacheData : CacheData)
    (ret : OpResult) : CacheOpResponse where
  expire := UInt32.ofInt timestamp
  cacheId := cacheId
  cacheData := cacheData
  result := ret.code

/-- The response to a request with this header. Source: `protobuf_message_server_impl.h`, the
`prepare_response_message` of the read and the update operation. -/
def prepareResponseMessage (header : Option CacheMessageHeader) (type : CacheMessageType)
    (opResponse : CacheOpResponse) : CacheMessage where
  header := some { header.getD {} with type := type }
  opResponse := some opResponse

end CacheSystem

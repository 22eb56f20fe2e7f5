import CacheSystem.Client
import CacheSystem.DataCenter

/-!
# What a handle is told (`protobuf_message_server_impl.h`, `protobuf_message_client_impl.h`)

An answer of the data center crosses three types on its way to the client's handle: the C++ type of
the server, the field of `CacheOpResponse`, and the parameter of the handle.

* `OpResult.ofCode` : the cast back to `csn::OpResult`. `Handled.arguments` : the arguments of the
  handle, where `std::time_t` is as wide as the time it was computed from.
* `ToldTrue` : the handle is invoked once, with what the server decided.
* `toldTrue_iff` : this is so exactly where the expire time fits the 32 bits of its field.
* `remaining_eq_iff` : the time that is left, which the handle computes from what it is told, is
  right wherever it fits 32 bits itself, whatever the field cut off.
-/

namespace CacheSystem

/-! ## The arguments of a handle -/

/-- The cast `(csn::OpResult)`; `none` is a number that is no enumerator's. -/
def OpResult.ofCode (code : UInt32) : Option OpResult :=
  [kOperationOk, kOperationDefer, kOperationRetry, kOperationErrorArgument,
    kOperationErrorNoData].find? fun r => r.code = code

@[simp] theorem OpResult.ofCode_code (r : OpResult) : OpResult.ofCode r.code = some r := by
  cases r <;> rfl

/-- The arguments that `handle_` is called with: `op_response->expire()` is widened to
`std::time_t`. -/
def Handled.arguments (h : Handled) : Option OpResult × Int × UInt32 × CacheData :=
  (OpResult.ofCode h.result, h.expire.toNat, h.cacheId, h.cacheData)

/-- What the field `expire` keeps of a time. -/
theorem ofInt_toNat (expire : Int) : ((UInt32.ofInt expire).toNat : Int) = expire % 2 ^ 32 := by
  unfold UInt32.ofInt
  rw [UInt32.toNat_ofNat']
  omega

/-- A time goes through the field `expire` unchanged where it fits. -/
theorem ofInt_toNat_eq_iff (expire : Int) :
    ((UInt32.ofInt expire).toNat : Int) = expire ↔ 0 ≤ expire ∧ expire < 2 ^ 32 := by
  rw [ofInt_toNat]
  omega

/-- The handle of `op` is invoked once for the response with this header and type, with the decided
`result`, `expire` and `cacheData` and the cache id of the request. -/
def ToldTrue (op : CacheClientOperation) (fails : Bool) (header : Option CacheMessageHeader)
    (type : CacheMessageType) (result : OpResult) (expire : Int) (cacheData : CacheData) : Prop :=
  (op.processResponse fails (prepareResponseMessage header type
      (prepareOpResponse expire op.cacheId cacheData result))).2.1.map Handled.arguments =
    [(some result, expire, op.cacheId, cacheData)]

/-- **The handle is told what the server decided** exactly where the expire time fits 32 bits. -/
theorem toldTrue_iff (op : CacheClientOperation) (fails : Bool)
    (header : Option CacheMessageHeader) (type : CacheMessageType) (result : OpResult)
    (expire : Int) (cacheData : CacheData) :
    ToldTrue op fails header type result expire cacheData ↔ 0 ≤ expire ∧ expire < 2 ^ 32 := by
  unfold ToldTrue CacheClientOperation.processResponse
  simp [prepareResponseMessage, prepareOpResponse, Handled.arguments, ofInt_toNat_eq_iff]

/-- A clock in milliseconds since the epoch, in the year 2023. -/
def epochClock : Env := Env.ofClock (fun _ => 1700000000000) fun _ _ _ => le_rfl

/-- The expire time of a first update is cut off on its way to the handle. -/
theorem not_toldTrue :
    ¬ ∀ (p : Center CacheData Unit Empty Unit) (cacheId : UInt64) (expire : Int) (value : CacheData)
      (opId : UInt32), Reachable epochClock (Hooks.silent []) (fun _ _ => True) p →
      (p.updateOp epochClock cacheId value opId ()).1 = .ok (.kOperationOk, expire) →
        ∀ op fails header type, op.cacheId = cacheId.toUInt32 →
          ToldTrue op fails header type .kOperationOk expire value := by
  intro h
  have htold := h (Center.initial ()) 1 1700000010000 [7] 1 (.initial ()) (by decide)
    { opId := 1, cacheId := 1 } false none kUpdateResponse (by decide)
  unfold ToldTrue at htold
  exact absurd htold (by decide)

/-! ## The time that is left -/

/-- What a handle computes from the expire time it is told, when its clock reads `now`. Source:
`sample/client.cc`, the callbacks of `main`. -/
def CacheClientOperation.remaining (op : CacheClientOperation) (fails : Bool)
    (response : CacheMessage) (now : Int) : List Int :=
  (op.processResponse fails response).2.1.map fun handled =>
    expireMillisecondsOfTimestamp handled.arguments.2.1 now

/-- **The remaining time survives the wire** exactly where it fits 32 bits with a sign: what the
field cuts off the expire time is a multiple of `2 ^ 32`, and the last cast takes it back. -/
theorem remaining_eq_iff (op : CacheClientOperation) (fails : Bool)
    (header : Option CacheMessageHeader) (type : CacheMessageType) (result : OpResult)
    (cacheData : CacheData) (expire now : Int) :
    op.remaining fails (prepareResponseMessage header type
        (prepareOpResponse expire op.cacheId cacheData result)) now = [expire - now] ↔
      -(2 ^ 31) ≤ expire - now ∧ expire - now < 2 ^ 31 := by
  have htold : op.remaining fails (prepareResponseMessage header type
      (prepareOpResponse expire op.cacheId cacheData result)) now =
        [expireMillisecondsOfTimestamp (UInt32.ofInt expire).toNat now] := by
    unfold CacheClientOperation.remaining CacheClientOperation.processResponse
    simp [prepareResponseMessage, prepareOpResponse, Handled.arguments]
  rw [htold, expireMillisecondsOfTimestamp_eq, ofInt_toNat, List.singleton_inj,
    Int.bmod_eq_iff (by decide)]
  omega

end CacheSystem

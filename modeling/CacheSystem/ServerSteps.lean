import CacheSystem.Server

/-!
# What the server's functions can do

One inversion for each function of the server, as in `DataCenter.lean` for the data center's:
`DoSend`, `Answer` for the two ways of registering and sending a response, `UpdateHandle` and
`TimerHandle` for the callbacks, and `OnReceive` for a datagram.
-/

namespace CacheSystem

variable {env : Env} {fails : Nat → Bool}

/-! ## Parts of a changed server -/

/-- Logging does not touch the timer queue. -/
@[simp] theorem note_rt (q : Rest) (event : ServerEvent) : (q.note event).rt = q.rt := rfl

/-- Logging does not touch the acknowledgement table. -/
@[simp] theorem note_map (q : Rest) (event : ServerEvent) : (q.note event).mem.map = q.mem.map :=
  rfl

/-- Logging does not touch the `WaitCacheAck` objects. -/
@[simp] theorem note_acks (q : Rest) (event : ServerEvent) :
    (q.note event).mem.acks = q.mem.acks := rfl

/-- Logging allocates no `WaitCacheAck`. -/
@[simp] theorem note_ackCount (q : Rest) (event : ServerEvent) :
    (q.note event).mem.ackCount = q.mem.ackCount := rfl

/-- Logging does not touch `defer_messages_`. -/
@[simp] theorem note_deferMessages (q : Rest) (event : ServerEvent) :
    (q.note event).mem.deferMessages = q.mem.deferMessages := rfl

/-- Logging does not touch the peer of the socket. -/
@[simp] theorem note_peer (q : Rest) (event : ServerEvent) : (q.note event).mem.peer = q.mem.peer :=
  rfl

/-- Logging sends nothing. -/
@[simp] theorem note_sent (q : Rest) (event : ServerEvent) : (q.note event).mem.sent = q.mem.sent :=
  rfl

/-- The memory of the handlers is apart from the timer queue. -/
@[simp] theorem setOuter_rt (s : Server) (mem : ServerMem) : (s.setOuter mem).rt = s.rt := rfl

/-- The memory of the handlers is apart from the elements. -/
@[simp] theorem setOuter_map (s : Server) (mem : ServerMem) :
    (s.setOuter mem).mem.map = s.mem.map := rfl

/-- The memory of the handlers is apart from the history. -/
@[simp] theorem setOuter_trace (s : Server) (mem : ServerMem) :
    (s.setOuter mem).mem.trace = s.mem.trace := rfl

/-- The memory that was put in is there. -/
@[simp] theorem setOuter_outer (s : Server) (mem : ServerMem) :
    (s.setOuter mem).mem.outer = mem := rfl

/-- `CATCH_EXPTIONS` does not touch the timer queue. -/
@[simp] theorem catch_rt (r : Option Thrown × Server) : (Server.catch r).rt = r.2.rt := by
  unfold Server.catch
  split <;> rfl

section newAck

variable (env : Env) (header : CacheMessageHeader) (message : CacheMessage) (requester : Address)
  (q : Rest)

/-- A registered response gets a timer of 500 ms with one firing. -/
@[simp] theorem registerAck_rt : (q.registerAck env header message requester).rt =
    (pushTimer env (.foreign q.mem.ackCount) kDefaultTimeout 1 q.rt).2 := rfl

/-- A registered response stands in the table under its op id. -/
@[simp] theorem registerAck_map : (q.registerAck env header message requester).mem.map =
    Function.update q.mem.map header.opId (some q.mem.ackCount) := rfl

/-- The object of a registered response holds it, with its requester and its timer. -/
@[simp] theorem registerAck_acks : (q.registerAck env header message requester).mem.acks =
    Function.update q.mem.acks q.mem.ackCount
      (some { message, requester, opId := header.opId,
              timerId := (newTimer env (.foreign q.mem.ackCount) kDefaultTimeout 1 q.rt).timerId }) :=
  rfl

/-- Registering a response allocates one object. -/
@[simp] theorem registerAck_ackCount :
    (q.registerAck env header message requester).mem.ackCount = q.mem.ackCount + 1 := rfl

/-- A response whose op id is taken gets a timer all the same. -/
@[simp] theorem refuseAck_rt : (q.refuseAck env header message requester).rt =
    (pushTimer env (.foreign q.mem.ackCount) kDefaultTimeout 1 q.rt).2 := rfl

/-- A response whose op id is taken does not come into the table. -/
@[simp] theorem refuseAck_map :
    (q.refuseAck env header message requester).mem.map = q.mem.map := rfl

/-- The object of a response whose op id is taken is destroyed by its `emplace`. -/
@[simp] theorem refuseAck_acks : (q.refuseAck env header message requester).mem.acks =
    Function.update q.mem.acks q.mem.ackCount
      (some { message, requester, opId := header.opId, destroyed := true,
              timerId := (newTimer env (.foreign q.mem.ackCount) kDefaultTimeout 1 q.rt).timerId }) :=
  rfl

/-- A response whose op id is taken allocates an object all the same. -/
@[simp] theorem refuseAck_ackCount :
    (q.refuseAck env header message requester).mem.ackCount = q.mem.ackCount + 1 := rfl

end newAck

/-- `defer_messages_.emplace` touches the deferred messages only. -/
theorem emplaceDefer_eq (opId : UInt32) (request : Request) (s : Server) :
    s.emplaceDefer opId request = s.setOuter { s.mem.outer with
      deferMessages := Function.update s.mem.outer.deferMessages opId
        (some ((s.mem.outer.deferMessages opId).getD request)) } := by
  unfold Proc.emplaceDefer
  split
  · rename_i h
    rw [h]
    rfl
  · rename_i request' h
    rw [h, Option.getD_some, Function.update_eq_self_iff.mpr h.symm]
    rfl

/-! ## Sending -/

/-- All that a send can do. -/
inductive DoSend (fails : Nat → Bool) (message : CacheMessage) (requester : Address) (q : Rest) :
    Option Thrown × Rest → Prop
  /-- There is nothing to send. -/
  | empty (h : message.isEmpty = true) :
      DoSend fails message requester q
        (some (.csn .kErrorSysRoutine "SerializeToString() generate a zero length message"), q)
  /-- The socket throws. -/
  | failed (hfails : fails q.mem.sends = true) :
      DoSend fails message requester q
        (some .netLink, ⟨q.rt, { q.mem with sends := q.mem.sends + 1 }⟩)
  /-- The message goes to the peer. -/
  | sent (h : message.isEmpty = false) :
      DoSend fails message requester q
        (none, ⟨q.rt, { q.mem with
          sends := q.mem.sends + 1
          sent := q.mem.sent ++ [⟨q.mem.peer, message, requester⟩] }⟩)

/-- `do_send` does one of the three. -/
theorem doSend_spec (message : CacheMessage) (requester : Address) (q : Rest) :
    DoSend fails message requester q (doSend fails message requester q) := by
  unfold doSend
  split
  · rename_i h
    exact .empty h
  · rename_i h
    split
    · rename_i hfails
      exact .failed hfails
    · exact .sent (by simpa using h)

/-- A send leaves the tables alone. -/
theorem DoSend.tables {message : CacheMessage} {requester : Address} {q : Rest}
    {r : Option Thrown × Rest} (h : DoSend fails message requester q r) :
    r.2.rt = q.rt ∧ r.2.mem.map = q.mem.map ∧ r.2.mem.acks = q.mem.acks ∧
      r.2.mem.ackCount = q.mem.ackCount ∧ r.2.mem.deferMessages = q.mem.deferMessages ∧
      r.2.mem.peer = q.mem.peer ∧ r.2.mem.log = q.mem.log := by
  cases h <;> exact ⟨rfl, rfl, rfl, rfl, rfl, rfl, rfl⟩

/-- `do_send` tries one send at most, and takes none back. -/
theorem DoSend.sends_le {message : CacheMessage} {requester : Address} {q : Rest}
    {r : Option Thrown × Rest} (hr : DoSend fails message requester q r) :
    q.mem.sends ≤ r.2.mem.sends := by
  cases hr with
  | empty hempty => exact le_rfl
  | failed hfails => exact Nat.le_succ _
  | sent hempty => exact Nat.le_succ _

/-- What was sent stays sent. -/
theorem DoSend.sent_mem {message : CacheMessage} {requester : Address} {q : Rest}
    {r : Option Thrown × Rest} (hr : DoSend fails message requester q r) :
    ∀ x ∈ q.mem.sent, x ∈ r.2.mem.sent := by
  cases hr with
  | empty hempty => exact fun x hx => hx
  | failed hfails => exact fun x hx => hx
  | sent hempty => exact fun x hx => List.mem_append_left _ hx

/-! ## Answering -/

/-- All that registering and sending a response can do. -/
inductive Answer (env : Env) (fails : Nat → Bool) (response : CacheMessage) (requester : Address)
    (q : Rest) : Option Thrown × Rest → Prop
  /-- The response waits for its acknowledgement and is sent. -/
  | registered {header r} (hheader : response.header = some header)
      (hmap : q.mem.map header.opId = none)
      (hr : DoSend fails response requester (q.registerAck env header response requester) r) :
      Answer env fails response requester q r
  /-- The op id waits already: the response was emptied, and what is left of it is sent. -/
  | taken {header ptr message r} (hheader : response.header = some header)
      (hmap : q.mem.map header.opId = some ptr)
      (hmessage : message = {} ∨ message = { header := some {} })
      (hr : DoSend fails message requester (q.refuseAck env header message requester) r) :
      Answer env fails response requester q r

/-- The answer of a read is registered, or finds its op id taken. -/
theorem answerRead_spec {response : CacheMessage} {header : CacheMessageHeader}
    (hheader : response.header = some header) (requester : Address) (q : Rest) :
    Answer env fails response requester q (answerRead env fails response requester q) := by
  rcases hmap : q.mem.map header.opId with _ | ptr
  · apply Answer.registered hheader hmap
    simp only [answerRead, registerWaitAck, hheader, hmap, sendAck, Proc.registerAck, Proc.newAck,
      Function.update_self]
    exact doSend_spec _ _ _
  · apply Answer.taken hheader hmap (Or.inl rfl)
    simp only [answerRead, registerWaitAck, hheader, hmap, sendAck, Proc.refuseAck, Proc.newAck,
      Function.update_self]
    exact doSend_spec _ _ _

/-- The answer of an update is registered, or finds its op id taken. -/
theorem answerUpdate_spec {response : CacheMessage} {header : CacheMessageHeader}
    (hheader : response.header = some header) (requester : Address) (q : Rest) :
    Answer env fails response requester q (answerUpdate env fails response requester q) := by
  rcases hmap : q.mem.map header.opId with _ | ptr
  · apply Answer.registered hheader hmap
    have hsame : ({ response with header := some (response.header.getD {}) } : CacheMessage) =
        response := by
      rw [hheader, Option.getD_some, ← hheader]
    simp only [answerUpdate, registerWaitAck, hheader, hmap, sendAck, Proc.registerAck,
      Proc.newAck, Proc.mutableHeader, Function.update_self, Option.map_some,
      Function.update_idem]
    rw [hheader] at hsame
    rw [hsame]
    exact doSend_spec _ _ _
  · apply Answer.taken hheader hmap (Or.inr rfl)
    simp only [answerUpdate, registerWaitAck, hheader, hmap, sendAck, Proc.refuseAck, Proc.newAck,
      Proc.mutableHeader, CacheMessage.released, Function.update_self, Option.map_some,
      Function.update_idem]
    exact doSend_spec _ _ _

/-- Registering and sending a response touches neither the deferred messages nor the log. -/
theorem Answer.tables {response : CacheMessage} {requester : Address} {q : Rest}
    {r : Option Thrown × Rest} (h : Answer env fails response requester q r) :
    r.2.mem.deferMessages = q.mem.deferMessages ∧ r.2.mem.peer = q.mem.peer ∧
      r.2.mem.log = q.mem.log ∧ ∀ x ∈ q.mem.sent, x ∈ r.2.mem.sent := by
  cases h with
  | registered hheader hmap hr =>
      obtain ⟨-, -, -, -, hdefers, hpeer, hlog⟩ := hr.tables
      exact ⟨hdefers, hpeer, hlog, hr.sent_mem⟩
  | taken hheader hmap hmessage hr =>
      obtain ⟨-, -, -, -, hdefers, hpeer, hlog⟩ := hr.tables
      exact ⟨hdefers, hpeer, hlog, hr.sent_mem⟩

/-- Only the op id of the response gets an entry. -/
theorem Answer.entries {response : CacheMessage} {requester : Address} {q : Rest}
    {r : Option Thrown × Rest} (h : Answer env fails response requester q r) (opId : UInt64)
    (hne : opId ≠ response.opId) (hnone : q.mem.map opId = none) : r.2.mem.map opId = none := by
  cases h with
  | @registered header r hheader hmap hr =>
      have hid : response.opId = header.opId := by rw [CacheMessage.opId, hheader, Option.getD_some]
      rw [hr.tables.2.1, registerAck_map, Function.update_of_ne (hid ▸ hne), hnone]
  | taken hheader hmap hmessage hr => rw [hr.tables.2.1, refuseAck_map, hnone]

/-! ## Acknowledging -/

/-- All that `unregister_wait_ack` can do. -/
inductive Unregister (opId : UInt64) (q : Rest) : Rest → Prop
  /-- The op id does not wait. -/
  | absent (hmap : q.mem.map opId = none) : Unregister opId q q
  | lost {ptr} (hmap : q.mem.map opId = some ptr) (hack : q.mem.acks ptr = none) :
      Unregister opId q ((q.eraseAck opId ptr).note (.ackEntryRead opId false))
  /-- The entry is erased, then read, and the timer it named is cancelled. -/
  | erased {ptr ack} (hmap : q.mem.map opId = some ptr) (hack : q.mem.acks ptr = some ack) :
      Unregister opId q ⟨delTimer ack.timerId q.rt,
        ((q.eraseAck opId ptr).note (.ackEntryRead opId false)).mem⟩

/-- `unregister_wait_ack` does one of the three. -/
theorem unregisterWaitAck_spec (opId : UInt64) (q : Rest) :
    Unregister opId q (unregisterWaitAck opId q) := by
  unfold unregisterWaitAck
  split
  · rename_i hmap
    exact .absent hmap
  · rename_i ptr hmap
    have hlive : ((q.eraseAck opId ptr).mem.map opId).isSome = false := by
      simp [Proc.eraseAck]
    dsimp only
    rw [hlive]
    rcases hack : q.mem.acks ptr with _ | ack
    · have hnone : ((q.eraseAck opId ptr).note (.ackEntryRead opId false)).mem.acks ptr = none := by
        simp [Proc.eraseAck, hack]
      simp only [hnone]
      exact .lost hmap hack
    · have hsome : ((q.eraseAck opId ptr).note (.ackEntryRead opId false)).mem.acks ptr =
          some ack.destroy := by
        simp [Proc.eraseAck, hack]
      simp only [hsome]
      change Unregister opId q ⟨delTimer ack.timerId q.rt, _⟩
      exact .erased hmap hack

/-! ## Callbacks -/

/-- The server when `update_handle` has taken its message out of the deferred ones. -/
def Proc.takeDefer (q : Rest) (handler : Request) (opId : UInt32) : Rest :=
  ⟨q.rt, { q.mem with
    deferMessages := Function.update q.mem.deferMessages opId none
    log := q.mem.log ++ [.completion handler (q.mem.deferMessages opId)] ++
      [.deferEntryRead opId false] }⟩

/-- All that `update_handle` can do. -/
inductive UpdateHandle (env : Env) (fails : Nat → Bool) (handler : Request) (ret : OpResult)
    (opId : UInt32) (expire : Int) (q : Rest) : Option Thrown × Rest → Prop
  | refused (hret : ret ≠ .kOperationOk) :
      UpdateHandle env fails handler ret opId expire q
        (some (.csn .kErrorSysRoutine "update callback throw a routine error"), q)
  /-- There is no deferred message. -/
  | lost (hret : ret = .kOperationOk) (hdefer : q.mem.deferMessages opId = none) :
      UpdateHandle env fails handler ret opId expire q
        (some (.csn .kErrorSysRoutine "defer_messages_ should not be null"),
          q.note (.completion handler none))
  /-- The deferred message is answered. -/
  | answered {request r} (hret : ret = .kOperationOk)
      (hdefer : q.mem.deferMessages opId = some request)
      (hr : Answer env fails (updateResponse request.message expire ret) request.requester
        (q.takeDefer handler opId) r) :
      UpdateHandle env fails handler ret opId expire q r

/-- `update_handle` does one of the three. -/
theorem updateHandle_spec (handler : Request) (ret : OpResult) (opId : UInt32) (expire : Int)
    (q : Rest) : UpdateHandle env fails handler ret opId expire q
      (updateHandle env fails handler ret opId expire q) := by
  unfold updateHandle
  split
  · rename_i hret
    exact .refused hret
  · rename_i hret
    have hret' : ret = .kOperationOk := not_not.mp hret
    dsimp only
    split
    · rename_i hdefer
      rw [note_deferMessages] at hdefer
      rw [hdefer]
      exact .lost hret' hdefer
    · rename_i request hdefer
      rw [note_deferMessages] at hdefer
      apply UpdateHandle.answered hret' hdefer
      have htake : q.takeDefer handler opId =
          Proc.note ⟨q.rt, { q.mem with
            deferMessages := Function.update q.mem.deferMessages opId none
            log := q.mem.log ++ [.completion handler (q.mem.deferMessages opId)] }⟩
            (.deferEntryRead opId (Function.update q.mem.deferMessages opId none opId).isSome) := by
        rw [Function.update_self]
        rfl
      rw [htake]
      exact answerUpdate_spec rfl _ _

/-- All that `timer_handle` can do. -/
inductive TimerHandle (fails : Nat → Bool) (ptr : Nat) (q : Rest) : Option Thrown × Rest → Prop
  | absent (hack : q.mem.acks ptr = none) : TimerHandle fails ptr q (none, q)
  /-- Sending throws. -/
  | threw {ack q₁ e r} (hack : q.mem.acks ptr = some ack)
      (hq : q₁ = q ∧ ack.destroyed = false ∨ q₁ = q.note (.danglingCall ptr))
      (hr : DoSend fails ack.message ack.requester q₁ r) (he : r.1 = some e) :
      TimerHandle fails ptr q r
  /-- The message was sent again, and the op id of the object is not in the table. -/
  | unknown {ack q₁ r} (hack : q.mem.acks ptr = some ack)
      (hq : q₁ = q ∧ ack.destroyed = false ∨ q₁ = q.note (.danglingCall ptr))
      (hr : DoSend fails ack.message ack.requester q₁ r) (he : r.1 = none)
      (hmap : q.mem.map ack.opId = none) :
      TimerHandle fails ptr q
        (some (.csn .kErrorSysRoutine "WaitCacheAck should not be null"), r.2)
  /-- The message was sent again, and the entry of its op id is gone. -/
  | expired {ack q₁ r ptr'} (hack : q.mem.acks ptr = some ack)
      (hq : q₁ = q ∧ ack.destroyed = false ∨ q₁ = q.note (.danglingCall ptr))
      (hr : DoSend fails ack.message ack.requester q₁ r) (he : r.1 = none)
      (hmap : q.mem.map ack.opId = some ptr') :
      TimerHandle fails ptr q (none, r.2.eraseAck ack.opId ptr')

/-- `timer_handle` does one of the four. -/
theorem timerHandle_spec (ptr : Nat) (q : Rest) :
    TimerHandle fails ptr q (timerHandle fails ptr q) := by
  unfold timerHandle
  split
  · rename_i hack
    exact .absent hack
  · rename_i ack hack
    dsimp only
    generalize hq₁ : (if ack.destroyed then q.note (.danglingCall ptr) else q) = q₁
    have hq : q₁ = q ∧ ack.destroyed = false ∨ q₁ = q.note (.danglingCall ptr) := by
      rw [← hq₁]
      by_cases hd : ack.destroyed = true
      · rw [if_pos hd]
        exact Or.inr rfl
      · rw [if_neg hd]
        exact Or.inl ⟨rfl, by simpa using hd⟩
    have hmap₁ : q₁.mem.map = q.mem.map := by rcases hq with ⟨rfl, -⟩ | rfl <;> rfl
    have hsend : DoSend fails ack.message ack.requester q₁
      (doSend fails ack.message ack.requester q₁) := doSend_spec _ _ _
    have hmap := hsend.tables.2.1
    split
    · rename_i e q₂ heq
      rw [heq] at hsend
      exact .threw hack hq hsend rfl
    · rename_i q₂ heq
      rw [heq] at hsend hmap
      rw [hmap₁] at hmap
      unfold expireHandle
      split
      · rename_i hnone
        rw [hmap] at hnone
        exact .unknown hack hq hsend rfl hnone
      · rename_i ptr' hsome
        rw [hmap] at hsome
        exact .expired hack hq hsend rfl hsome

/-- What the data center calls at a completion is `update_handle`. -/
theorem UpdateHandle.of_invoke {f : Request} {status : OpResult} {opId : UInt32} {expire : Int}
    {q : Rest} {r : Option Thrown × Rest}
    (h : r = (serverHooks env fails).invoke f status opId expire q) :
    UpdateHandle env fails f status opId expire q r := by
  rw [h]
  exact updateHandle_spec f status opId expire q

/-- What the timer queue calls for an acknowledgement is `timer_handle`. -/
theorem TimerHandle.of_foreign {ptr : Nat} {q : Rest} {r : Option Thrown × Rest}
    (h : r = (serverHooks env fails).foreign ptr q) : TimerHandle fails ptr q r := by
  rw [h]
  exact timerHandle_spec ptr q

/-- A note of a call on a destroyed object changes the log only. -/
theorem noted_tables {P : Prop} {ptr : Nat} {q q₁ : Rest}
    (h : q₁ = q ∧ P ∨ q₁ = q.note (.danglingCall ptr)) :
    q₁.rt = q.rt ∧ q₁.mem.map = q.mem.map ∧ q₁.mem.acks = q.mem.acks ∧
      q₁.mem.ackCount = q.mem.ackCount ∧ q₁.mem.deferMessages = q.mem.deferMessages ∧
      q₁.mem.peer = q.mem.peer ∧ q₁.mem.sends = q.mem.sends ∧ q₁.mem.sent = q.mem.sent := by
  rcases h with ⟨rfl, -⟩ | rfl <;> exact ⟨rfl, rfl, rfl, rfl, rfl, rfl, rfl, rfl⟩

/-- Resending touches neither the queue nor the deferred messages. -/
theorem TimerHandle.tables {ptr : Nat} {q : Rest} {r : Option Thrown × Rest}
    (h : TimerHandle fails ptr q r) :
    r.2.rt = q.rt ∧ r.2.mem.deferMessages = q.mem.deferMessages ∧ r.2.mem.peer = q.mem.peer ∧
      q.mem.sends ≤ r.2.mem.sends ∧ ∀ x ∈ q.mem.sent, x ∈ r.2.mem.sent := by
  have hsend : ∀ {ack : WaitCacheAck} {q₁ : Rest} {r : Option Thrown × Rest},
      (q₁ = q ∧ ack.destroyed = false ∨ q₁ = q.note (.danglingCall ptr)) →
      DoSend fails ack.message ack.requester q₁ r →
      r.2.rt = q.rt ∧ r.2.mem.deferMessages = q.mem.deferMessages ∧ r.2.mem.peer = q.mem.peer ∧
        q.mem.sends ≤ r.2.mem.sends ∧ ∀ x ∈ q.mem.sent, x ∈ r.2.mem.sent := by
    intro ack q₁ r hq hr
    obtain ⟨hrt₁, -, -, -, hdefers₁, hpeer₁, hsends₁, hsent₁⟩ := noted_tables hq
    obtain ⟨hrt, -, -, -, hdefers, hpeer, -⟩ := hr.tables
    exact ⟨hrt.trans hrt₁, hdefers.trans hdefers₁, hpeer.trans hpeer₁,
      hsends₁.symm.le.trans hr.sends_le, fun x hx => hr.sent_mem x (hsent₁ ▸ hx)⟩
  cases h with
  | absent hack => exact ⟨rfl, rfl, rfl, le_rfl, fun x hx => hx⟩
  | threw hack hq hr he => exact hsend hq hr
  | unknown hack hq hr he hmap =>
      have h := hsend hq hr
      exact h
  | expired hack hq hr he hmap =>
      have h := hsend hq hr
      exact h

/-! ## Datagrams -/

/-- All that a datagram can do. -/
inductive OnReceive (env : Env) (fails : Nat → Bool) (sender : Address) (s : Server) :
    Option CacheMessage → Option Thrown × Server → Prop
  /-- The datagram is not a message for the server. -/
  | ignored {data e} (he : e = none ∨
      e = some (.csn .kErrorSysRoutine "message type out of range !!!!!!!")) :
      OnReceive env fails sender s data (e, s.setPeer sender)
  | acked {m} (hm : headerAvailable m = true) :
      OnReceive env fails sender s (some m)
        (none, (s.setPeer sender).withOuter (unregisterWaitAck m.opId (s.setPeer sender).outer))
  /-- A read request is answered from the scratch fields. -/
  | read {m read ret out s₁ s₂ r} (hm : headerAvailable m = true)
      (hread : m.readRequest = some read)
      (hop : ReadOp env read.cacheId.toUInt64 m.opId.toUInt32
        ((s.setPeer sender).setCacheId read.cacheId) (.ok (ret, out), s₁))
      (hs₂ : s₂ = s₁.setScratch ret out)
      (hr : Answer env fails (readResponse m s₂.mem.outer) sender s₂.outer r) :
      OnReceive env fails sender s (some m) (r.1, s₂.withOuter r.2)
  /-- An update request is refused with an exception. -/
  | updateThrew {m update e s₁} (hm : headerAvailable m = true)
      (hupdate : m.updateRequest = some update)
      (hop : UpdateOp env update.cacheId.toUInt64 update.cacheData m.opId.toUInt32 ⟨m, sender⟩
        (s.setPeer sender) (.error e, s₁)) :
      OnReceive env fails sender s (some m) (some e, s₁)
  /-- An update request is kept for later. -/
  | deferred {m update expire s₁} (hm : headerAvailable m = true)
      (hupdate : m.updateRequest = some update)
      (hop : UpdateOp env update.cacheId.toUInt64 update.cacheData m.opId.toUInt32 ⟨m, sender⟩
        (s.setPeer sender) (.ok (.kOperationDefer, expire), s₁)) :
      OnReceive env fails sender s (some m)
        (none, s₁.emplaceDefer m.opId.toUInt32 ⟨m, sender⟩)
  /-- An update request is answered at once. -/
  | updated {m update ret expire s₁ r} (hm : headerAvailable m = true)
      (hupdate : m.updateRequest = some update) (hret : ret ≠ .kOperationDefer)
      (hop : UpdateOp env update.cacheId.toUInt64 update.cacheData m.opId.toUInt32 ⟨m, sender⟩
        (s.setPeer sender) (.ok (ret, expire), s₁))
      (hr : Answer env fails (updateResponse m expire ret) sender s₁.outer r) :
      OnReceive env fails sender s (some m) (r.1, s₁.withOuter r.2)

/-- `read_op` does not throw. -/
theorem ReadOp.ok {T H F τ : Type} {cacheId : UInt64} {opId : UInt32} {p : Center T H F τ}
    {r : Except Thrown (OpResult × Option (Int × T)) × Center T H F τ}
    (h : ReadOp env cacheId opId p r) : ∃ ret out, r.1 = .ok (ret, out) := by
  cases h <;> exact ⟨_, _, rfl⟩

/-- **`on_receive` does one of the six**, whatever arrives. -/
theorem onReceive_spec (sender : Address) (data : Option CacheMessage) (s : Server) :
    OnReceive env fails sender s data (onReceive env fails sender data s) := by
  unfold onReceive
  rcases data with _ | m
  · exact .ignored (Or.inl rfl)
  · dsimp only
    split
    · exact .ignored (Or.inl rfl)
    · rename_i hm
      have hm' : headerAvailable m = true := by simpa using hm
      split
      · -- a read request
        unfold onReadRequest
        rcases hread : m.readRequest with _ | read
        · exact .ignored (Or.inl rfl)
        · rw [if_neg (by simp)]
          have hop := readOp_spec env read.cacheId.toUInt64 m.opId.toUInt32
            ((s.setPeer sender).setCacheId read.cacheId)
          obtain ⟨ret, out, hok⟩ := hop.ok
          generalize hr₁ : Center.readOp env read.cacheId.toUInt64 m.opId.toUInt32
            ((s.setPeer sender).setCacheId read.cacheId) = r₁ at hop hok
          obtain ⟨_, s₁⟩ := r₁
          obtain rfl : _ = Except.ok (ret, out) := hok
          have hquery : queryCacheCenter env m (s.setPeer sender) =
              (none, s₁.setScratch ret out) := by
            unfold queryCacheCenter
            rw [hread, Option.getD_some]
            dsimp only
            rw [hr₁]
          dsimp only
          rw [hquery]
          exact .read hm' hread hop rfl (answerRead_spec rfl _ _)
      · split
        · -- an update request
          unfold onUpdateRequest
          rcases hupdate : m.updateRequest with _ | update
          · exact .ignored (Or.inl rfl)
          · dsimp only
            have hop := updateOp_spec env update.cacheId.toUInt64 update.cacheData
              m.opId.toUInt32 ⟨m, sender⟩ (s.setPeer sender)
            generalize hr₁ : Center.updateOp env update.cacheId.toUInt64 update.cacheData
              m.opId.toUInt32 ⟨m, sender⟩ (s.setPeer sender) = r₁ at hop
            split
            · exact .updateThrew hm' hupdate hop
            · exact .deferred hm' hupdate hop
            · rename_i ret expire s₁ hdefer
              exact .updated hm' hupdate hdefer hop
                (answerUpdate_spec rfl _ _)
        · split
          · exact .acked hm'
          · split
            · exact .ignored (Or.inl rfl)
            · exact .ignored (Or.inr rfl)

end CacheSystem

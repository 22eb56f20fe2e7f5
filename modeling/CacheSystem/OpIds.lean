import CacheSystem.Lease
import CacheSystem.Reentrancy

/-!
# What an op id tells apart

A request carries 64 bits of op id; the data center, the manager and `defer_messages_` keep the low
32. `Identified` is what is asked of the server's history: no update is refused for its op id, and
every completed update finds the message it was deferred with and sends the response to it.

* `Matching` : every element that waits has its message among the deferred ones, under its op id,
  and no other element waits under this op id.
* `Apart` : a turn keeps that. An update that finds a lease has an op id whose low 32 bits are not
  zero and are free, a request has not the op id of an update that waits, no operation finds its
  element overdue, and no send fails in a `tick` in which a wait ends.
* `identified_of_apart` puts them together over runs, and `not_identified` has two updates whose
  op ids differ in the high bits only.
-/

namespace CacheSystem

variable {env : Env} {fails : Nat → Bool}

/-! ## The history -/

/-- An exception that no check of an op id throws. -/
structure Thrown.Unrelated (e : Thrown) : Prop where
  accepted : ∀ text, e ≠ .csn .kErrorIllArgument text
  present : e ≠ .csn .kErrorSysRoutine "defer_messages_ should not be null"

/-- No update was refused for its op id, and every completed update found its own message and sent
its own response. -/
structure Identified (mem : ServerMem) : Prop where
  unrelated : ∀ e, .caught e ∈ mem.log → e.Unrelated
  own : ∀ handler found, .completion handler found ∈ mem.log → found = some handler ∧
    ∃ expire, ∃ x ∈ mem.sent, x.message = updateResponse handler.message expire .kOperationOk

/-- An empty log has no mistake. -/
theorem identified_nil {mem : ServerMem} (h : mem.log = []) : Identified mem where
  unrelated e he := by
    rw [h] at he
    cases he
  own handler found hmem := by
    rw [h] at hmem
    cases hmem

/-- An event that `Identified` asks nothing of, or an unrelated exception. -/
def ServerEvent.Unrelated : ServerEvent → Prop
  | .caught e => e.Unrelated
  | .completion _ _ => False
  | _ => True

/-- Unrelated events are no mistakes. -/
theorem Identified.of_log {mem mem' : ServerMem} (h : Identified mem)
    (hlog : ∀ event ∈ mem'.log, event ∈ mem.log ∨ event.Unrelated)
    (hsent : ∀ x ∈ mem.sent, x ∈ mem'.sent) : Identified mem' where
  unrelated e he := by
    rcases hlog _ he with he | he
    · exact h.unrelated e he
    · exact he
  own handler found hmem := by
    rcases hlog _ hmem with hmem | hmem
    · obtain ⟨hfound, expire, x, hx, hmessage⟩ := h.own handler found hmem
      exact ⟨hfound, expire, x, hsent x hx, hmessage⟩
    · exact hmem.elim

/-- A completion that found its own message and sent its own response. -/
theorem Identified.complete {mem mem' : ServerMem} (h : Identified mem) {handler : Request}
    {expire : Int} (opId : UInt32) {x : Sent}
    (hlog : mem'.log =
      mem.log ++ [.completion handler (some handler)] ++ [.deferEntryRead opId false])
    (hsent : mem'.sent = mem.sent ++ [x])
    (hmessage : x.message = updateResponse handler.message expire .kOperationOk) :
    Identified mem' where
  unrelated e he := by
    rw [hlog] at he
    simp only [List.mem_append, List.mem_singleton, reduceCtorEq, or_false] at he
    exact h.unrelated e he
  own handler' found hmem := by
    rw [hlog] at hmem
    simp only [List.mem_append, List.mem_singleton, reduceCtorEq, or_false] at hmem
    rcases hmem with hmem | hmem
    · obtain ⟨hfound, expire', y, hy, hmessage'⟩ := h.own handler' found hmem
      exact ⟨hfound, expire', y, hsent ▸ List.mem_append_left _ hy, hmessage'⟩
    · cases hmem
      exact ⟨rfl, expire, x, hsent ▸ List.mem_append_right _ List.mem_cons_self, hmessage⟩

/-! ## The invariant -/

/-- The elements that wait and the deferred messages fit together. -/
structure Matching (mem : CenterMem CacheData Request ServerMem) : Prop where
  waiting : ∀ id e, mem.map id = some e → e.state.currentState = .kCacheUpdateProtected →
    ∃ request, e.call = some request ∧ mem.outer.deferMessages e.state.opId = some request
  apart : ∀ id id' e e', mem.map id = some e → mem.map id' = some e' →
    e.state.currentState = .kCacheUpdateProtected →
    e'.state.currentState = .kCacheUpdateProtected → e.state.opId = e'.state.opId → id = id'
  key : ∀ opId request, mem.outer.deferMessages opId = some request →
    request.message.opId.toUInt32 = opId
  unanswered : ∀ opId request, mem.outer.deferMessages opId = some request →
    mem.outer.map request.message.opId = none
  identified : Identified mem.outer

variable {mem mem' : CenterMem CacheData Request ServerMem}

/-- A step outside the elements that defers nothing and answers none of the updates that wait. -/
theorem Matching.of_outer (h : Matching mem) (hmap : mem'.map = mem.map)
    (hdefers : mem'.outer.deferMessages = mem.outer.deferMessages)
    (hentries : ∀ opId request, mem.outer.deferMessages opId = some request →
      mem'.outer.map request.message.opId = none)
    (hidentified : Identified mem'.outer) : Matching mem' where
  waiting := by rw [hmap, hdefers]; exact h.waiting
  apart := by rw [hmap]; exact h.apart
  key := by rw [hdefers]; exact h.key
  unanswered := by rw [hdefers]; exact hentries
  identified := hidentified

/-- A step that assigns an element that does not wait. -/
theorem Matching.of_update (h : Matching mem) {cacheId : UInt64} {e' : CacheElement CacheData Request}
    (hmap : mem'.map = Function.update mem.map cacheId (some e')) (houter : mem'.outer = mem.outer)
    (hstate : e'.state.currentState ≠ .kCacheUpdateProtected) : Matching mem' := by
  have hold : ∀ id e, mem'.map id = some e → e.state.currentState = .kCacheUpdateProtected →
      mem.map id = some e := by
    intro id e he hwaits
    rw [hmap] at he
    rcases Lib.Table.of_assign he with ⟨-, rfl⟩ | ⟨-, he⟩
    · exact absurd hwaits hstate
    · exact he
  exact
    { waiting := fun id e he hwaits => by
        rw [houter]
        exact h.waiting id e (hold id e he hwaits) hwaits
      apart := fun id id' e e' he he' hwaits hwaits' =>
        h.apart id id' e e' (hold id e he hwaits) (hold id' e' he' hwaits') hwaits hwaits'
      key := by rw [houter]; exact h.key
      unanswered := by rw [houter]; exact h.unanswered
      identified := by rw [houter]; exact h.identified }

/-- An update whose op id is free in the low 32 bits is deferred. -/
theorem Matching.of_deferred (h : Matching mem) {cacheId : UInt64} {opId : UInt32}
    {request : Request} {e' : CacheElement CacheData Request}
    (hmap : mem'.map = Function.update mem.map cacheId (some e'))
    (hdefers : mem'.outer.deferMessages =
      Function.update mem.outer.deferMessages opId (some request))
    (hentries : mem'.outer.map = mem.outer.map) (hidentified : Identified mem'.outer)
    (hcall : e'.call = some request) (hop : e'.state.opId = opId)
    (hkey : request.message.opId.toUInt32 = opId)
    (hfree : mem.outer.deferMessages opId = none)
    (hentry : mem.outer.map request.message.opId = none) : Matching mem' := by
  -- an element that waits is the one assigned, or one from before under another op id
  have hsplit : ∀ id e, mem'.map id = some e → e.state.currentState = .kCacheUpdateProtected →
      (id = cacheId ∧ e = e') ∨ (mem.map id = some e ∧ e.state.opId ≠ opId) := by
    intro id e he hwaits
    rw [hmap] at he
    refine (Lib.Table.of_assign he).imp_right fun ⟨_, he⟩ => ⟨he, fun heq => ?_⟩
    obtain ⟨request', -, hdefer⟩ := h.waiting id e he hwaits
    rw [heq, hfree] at hdefer
    cases hdefer
  refine
    { waiting := fun id e he hwaits => ?_
      apart := fun id id' e₁ e₂ he₁ he₂ hwaits₁ hwaits₂ heq => ?_
      key := ?_
      unanswered := ?_
      identified := hidentified }
  · rw [hdefers]
    rcases hsplit id e he hwaits with ⟨-, rfl⟩ | ⟨he, hne⟩
    · exact ⟨request, hcall, by rw [hop, Function.update_self]⟩
    · obtain ⟨request', hcall', hdefer⟩ := h.waiting id e he hwaits
      exact ⟨request', hcall', by rw [Function.update_of_ne hne, hdefer]⟩
  · rcases hsplit id e₁ he₁ hwaits₁ with ⟨rfl, rfl⟩ | ⟨he₁, hne₁⟩
    · rcases hsplit id' e₂ he₂ hwaits₂ with ⟨rfl, -⟩ | ⟨-, hne₂⟩
      · rfl
      · exact absurd (heq.symm.trans hop) hne₂
    · rcases hsplit id' e₂ he₂ hwaits₂ with ⟨-, rfl⟩ | ⟨he₂, -⟩
      · exact absurd (heq.trans hop) hne₁
      · exact h.apart id id' e₁ e₂ he₁ he₂ hwaits₁ hwaits₂ heq
  · rw [hdefers]
    exact Lib.Table.forall_assign h.key hkey
  · rw [hdefers, hentries]
    exact Lib.Table.forall_assign h.unanswered hentry

/-- The update that an element waits for is answered. -/
theorem Matching.of_completed (h : Matching mem) {cacheId : UInt64} {request : Request}
    {e e' : CacheElement CacheData Request} (he : mem.map cacheId = some e)
    (hwaits : e.state.currentState = .kCacheUpdateProtected)
    (hdefer : mem.outer.deferMessages e.state.opId = some request)
    (hmap : mem'.map = Function.update mem.map cacheId (some e'))
    (hstate : e'.state.currentState ≠ .kCacheUpdateProtected)
    (hdefers : mem'.outer.deferMessages =
      Function.update mem.outer.deferMessages e.state.opId none)
    (hentries : ∀ opId, opId ≠ request.message.opId → mem.outer.map opId = none →
      mem'.outer.map opId = none)
    (hidentified : Identified mem'.outer) : Matching mem' := by
  have hother : ∀ id e₁, mem'.map id = some e₁ →
      e₁.state.currentState = .kCacheUpdateProtected → id ≠ cacheId ∧ mem.map id = some e₁ := by
    intro id e₁ he₁ hwaits₁
    rw [hmap] at he₁
    rcases Lib.Table.of_assign he₁ with ⟨-, rfl⟩ | he₁
    · exact absurd hwaits₁ hstate
    · exact he₁
  have hleft : ∀ opId request', mem'.outer.deferMessages opId = some request' →
      opId ≠ e.state.opId ∧ mem.outer.deferMessages opId = some request' := by
    intro opId request' hdefer'
    rw [hdefers] at hdefer'
    exact Lib.Table.of_erase hdefer'
  refine
    { waiting := fun id e₁ he₁ hwaits₁ => ?_
      apart := fun id id' e₁ e₂ he₁ he₂ hwaits₁ hwaits₂ heq =>
        h.apart id id' e₁ e₂ (hother id e₁ he₁ hwaits₁).2 (hother id' e₂ he₂ hwaits₂).2 hwaits₁
          hwaits₂ heq
      key := fun opId request' hdefer' => h.key opId request' (hleft opId request' hdefer').2
      unanswered := fun opId request' hdefer' => ?_
      identified := hidentified }
  · obtain ⟨hid, he₁⟩ := hother id e₁ he₁ hwaits₁
    obtain ⟨request', hcall, hdefer'⟩ := h.waiting id e₁ he₁ hwaits₁
    refine ⟨request', hcall, ?_⟩
    rw [hdefers, Function.update_of_ne, hdefer']
    exact fun heq => hid (h.apart id cacheId e₁ e he₁ he hwaits₁ hwaits heq)
  · obtain ⟨hid, hdefer'⟩ := hleft opId request' hdefer'
    refine hentries _ (fun heq => hid ?_) (h.unanswered opId request' hdefer')
    rw [← h.key opId request' hdefer', ← h.key _ request hdefer, heq]

/-! ## Answers -/

/-- The failure of a send is no matter of op ids. -/
theorem DoSend.unrelated {message : CacheMessage} {requester : Address} {q : Rest}
    {r : Option Thrown × Rest} (hr : DoSend fails message requester q r) {e : Thrown}
    (he : r.1 = some e) : e.Unrelated := by
  cases hr with
  | empty hempty =>
      cases he
      exact ⟨fun _ h => (nomatch h), by decide⟩
  | failed hfails =>
      cases he
      exact ⟨fun _ h => (nomatch h), fun h => nomatch h⟩
  | sent hempty => cases he

/-- The failure of an answer is no matter of op ids. -/
theorem Answer.unrelated {response : CacheMessage} {requester : Address} {q : Rest}
    {r : Option Thrown × Rest} (h : Answer env fails response requester q r) {e : Thrown}
    (he : r.1 = some e) : e.Unrelated := by
  cases h with
  | registered hheader hmap hr => exact hr.unrelated he
  | taken hheader hmap hmessage hr => exact hr.unrelated he

/-! ## Datagrams -/

variable {s s' : Server}

/-- A request keeps the op ids apart. -/
structure KeepsApart (env : Env) (s : Server) (m : CacheMessage) : Prop where
  /-- No update that waits has the op id of the request. -/
  other : m.readRequest ≠ none ∨ m.updateRequest ≠ none → ∀ opId request,
    s.mem.outer.deferMessages opId = some request → request.message.opId ≠ m.opId
  /-- The element is not overdue. -/
  promptRead : ∀ read, m.readRequest = some read →
    Prompt env s (.read read.cacheId.toUInt64 m.opId.toUInt32)
  promptUpdate : ∀ update request, m.updateRequest = some update →
    Prompt env s (.update update.cacheId.toUInt64 update.cacheData m.opId.toUInt32 request)
  /-- An update that finds a lease or a waiting update has low bits. -/
  nonzero : ∀ update e, m.updateRequest = some update →
    s.mem.map update.cacheId.toUInt64 = some e → e.state.currentState ≠ .kCacheIdle →
      m.opId.toUInt32 ≠ 0
  /-- An update that is deferred has an op id that is free in both tables. -/
  free : ∀ update e, m.updateRequest = some update →
    s.mem.map update.cacheId.toUInt64 = some e → e.state.currentState = .kCacheGuaranteed →
      0 < timerDelay env (e.state, s.rt) →
        s.mem.outer.deferMessages m.opId.toUInt32 = none ∧ s.mem.outer.map m.opId = none

/-- A read leaves the waiting elements and the deferred messages alone. -/
theorem Matching.readOp {cacheId : UInt64} {opId : UInt32}
    {r : Except Thrown (OpResult × Option (Int × CacheData)) × Server} (h : Matching s.mem)
    (hop : ReadOp env cacheId opId s r) : Matching r.2.mem := by
  cases hop with
  | absent he => exact h
  | @renewed e m s₁ he hm hs =>
      refine h.of_update rfl rfl ?_
      show s₁.1.currentState ≠ _
      rw [hs, guarantee_currentState]
      decide
  | unleased he hstate => exact h.of_outer rfl rfl h.unanswered h.identified

/-- An update that is not deferred. -/
theorem Matching.updateOp {cacheId : UInt64} {value : CacheData} {opId : UInt32} {f : Request}
    {r : Except Thrown (OpResult × Int) × Server} (h : Matching s.mem)
    (hop : UpdateOp env cacheId value opId f s r)
    (hr : ∀ expire, r.1 ≠ .ok (.kOperationDefer, expire)) : Matching r.2.mem := by
  cases hop with
  | @assigned e s₁ he hstate hs =>
      refine h.of_update rfl rfl ?_
      show s₁.1.currentState ≠ _
      rw [hs, guarantee_currentState]
      decide
  | refused he hstate h0 => exact h
  | @overdue e he hstate h0 hdelay =>
      refine h.of_update rfl rfl ?_
      show e.state.currentState ≠ _
      rw [hstate]
      decide
  | deferred he hstate h0 hdelay hs => exact absurd rfl (hr _)
  | retried he hstate h0 => exact h.of_outer rfl rfl h.unanswered h.identified

/-- A response to a request that has not the op id of an update that waits. -/
theorem Matching.answer {response : CacheMessage} {requester : Address}
    {r : Option Thrown × Rest} (h : Matching s.mem)
    (hr : Answer env fails response requester s.outer r)
    (hother : ∀ opId request, s.mem.outer.deferMessages opId = some request →
      request.message.opId ≠ response.opId) : Matching (s.withOuter r.2).mem := by
  obtain ⟨hdefers, -, hlog, hsent⟩ := hr.tables
  refine h.of_outer rfl hdefers (fun opId request hdefer => ?_) ?_
  · exact hr.entries _ (hother opId request hdefer) (h.unanswered opId request hdefer)
  · refine h.identified.of_log (fun event he => Or.inl ?_) hsent
    change event ∈ r.2.mem.log at he
    rwa [hlog] at he

/-- **A datagram whose op id is apart** keeps the messages matched. -/
theorem Matching.onReceive {sender : Address} {data : Option CacheMessage}
    {r : Option Thrown × Server} (h : Matching s.mem)
    (hapart : ∀ m, data = some m → KeepsApart env s m)
    (hr : OnReceive env fails sender s data r) :
    Matching r.2.mem ∧ ∀ e, r.1 = some e → e.Unrelated := by
  have hpeer : Matching (s.setPeer sender).mem :=
    h.of_outer rfl rfl h.unanswered (h.identified.of_log (fun _ he => Or.inl he) fun _ hx => hx)
  cases hr with
  | ignored he =>
      refine ⟨hpeer, fun e he' => ?_⟩
      rcases he with rfl | rfl
      · cases he'
      · cases he'
        exact ⟨fun _ h => (nomatch h), by decide⟩
  | @acked m hm =>
      refine ⟨?_, fun e he => nomatch he⟩
      have hspec := unregisterWaitAck_spec m.opId (s.setPeer sender).outer
      generalize unregisterWaitAck m.opId (s.setPeer sender).outer = q at hspec
      have herased : ∀ ptr, Matching ((s.setPeer sender).withOuter
          (((s.setPeer sender).outer.eraseAck m.opId ptr).note (.ackEntryRead m.opId false))).mem := by
        intro ptr
        refine hpeer.of_outer rfl rfl (fun opId request hdefer => ?_) ?_
        · exact Lib.Table.erase_eq_none m.opId (h.unanswered opId request hdefer)
        · refine hpeer.identified.of_log (fun event he => ?_) fun x hx => hx
          rcases List.mem_append.mp he with he | he
          · exact Or.inl he
          · exact Or.inr (List.mem_singleton.mp he ▸ trivial)
      cases hspec with
      | absent hmap => exact hpeer
      | lost hmap hack => exact herased _
      | erased hmap hack => exact herased _
  | @read m read ret out s₁ s₂ r hm hread hop hs₂ hr =>
      have hid : Matching ((s.setPeer sender).setCacheId read.cacheId).mem :=
        hpeer.of_outer rfl rfl h.unanswered
          (h.identified.of_log (fun _ he => Or.inl he) fun _ hx => hx)
      have hs₁ : Matching s₁.mem := hid.readOp hop
      have hdefers₁ : s₁.mem.outer.deferMessages = s.mem.outer.deferMessages := by
        have houter : s₁.mem.outer = _ := hop.outer
        rw [houter]
        rfl
      have hs₂' : Matching s₂.mem ∧ s₂.mem.outer.deferMessages = s.mem.outer.deferMessages := by
        subst hs₂
        rcases out with _ | ⟨expire, value⟩ <;>
          exact ⟨hs₁.of_outer rfl rfl hs₁.unanswered
            (hs₁.identified.of_log (fun _ he => Or.inl he) fun _ hx => hx), hdefers₁⟩
      refine ⟨hs₂'.1.answer hr fun opId request hdefer => ?_, fun e he => hr.unrelated he⟩
      rw [hs₂'.2] at hdefer
      exact (hapart m rfl).other (Or.inl (by rw [hread]; simp)) opId request hdefer
  | @updateThrew m update e s₁ hm hupdate hop =>
      have hs₁ : Matching s₁.mem := hpeer.updateOp hop fun expire he => nomatch he
      refine ⟨hs₁, fun e' he' => ?_⟩
      cases he'
      cases hop with
      | refused he hstate h0 =>
          exact absurd h0 ((hapart m rfl).nonzero update _ hupdate he hstate)
      | overdue he hstate h0 hdelay => exact ⟨fun _ h => (nomatch h), by decide⟩
  | @deferred m update expire s₁ hm hupdate hop =>
      refine ⟨?_, fun e he => nomatch he⟩
      rw [emplaceDefer_eq]
      obtain ⟨e, s₂, he, hstate, h0, hdelay, hid, rfl⟩ := hop.of_defer
      obtain ⟨hfree, hentry⟩ := (hapart m rfl).free update e hupdate he hstate hdelay
      refine hpeer.of_deferred rfl ?_ rfl
        (h.identified.of_log (fun _ he => Or.inl he) fun _ hx => hx) rfl hid rfl hfree hentry
      simp only [setOuter_outer, record_outer, put_outer]
      rw [show (s.setPeer sender).mem.outer.deferMessages m.opId.toUInt32 = none from hfree]
      rfl
  | @updated m update ret expire s₁ r hm hupdate hret hop hr =>
      have hs₁ : Matching s₁.mem := hpeer.updateOp hop fun expire' he => by
        cases he
        exact hret rfl
      refine ⟨hs₁.answer hr fun opId request hdefer => ?_, fun e he => hr.unrelated he⟩
      have houter : s₁.mem.outer = _ := hop.outer
      rw [houter] at hdefer
      exact (hapart m rfl).other (Or.inr (by rw [hupdate]; simp)) opId request hdefer

/-- A datagram that finds no element overdue keeps the data center's invariant. -/
theorem Sound.onReceive {sender : Address} {data : Option CacheMessage}
    {r : Option Thrown × Server} (h : Sound env s) (hw : Wired s)
    (hapart : ∀ m, data = some m → KeepsApart env s m)
    (hr : OnReceive env fails sender s data r) : Sound env r.2 := by
  have harmed := (hw.onReceive hr).armed
  have hpeer : Sound env (s.setPeer sender) := h.of_same rfl le_rfl rfl
  cases hr with
  | ignored he => exact hpeer
  | @acked m hm =>
      have hspec := unregisterWaitAck_spec m.opId (s.setPeer sender).outer
      generalize unregisterWaitAck m.opId (s.setPeer sender).outer = q at hspec harmed
      cases hspec with
      | absent hmap => exact hpeer
      | lost hmap hack => exact hpeer.of_same rfl le_rfl rfl
      | @erased ptr ack hmap hack =>
          exact ⟨harmed, h.exclusive.cancelForeign ack.timerId, h.waits, h.bounded⟩
  | @read m read ret out s₁ s₂ r hm hread hop hs₂ hr =>
      have hid : Sound env ((s.setPeer sender).setCacheId read.cacheId) := h.of_same rfl le_rfl rfl
      have hs₁ : Sound env s₁ := (hid.readOp ((hapart m rfl).promptRead read hread) hop).1
      have hs₂' : Sound env s₂ := by
        subst hs₂
        rcases out with _ | ⟨expire, value⟩ <;> exact hs₁.of_same rfl le_rfl rfl
      exact hs₂'.addsForeign hr.addsForeign
  | @updateThrew m update e s₁ hm hupdate hop =>
      exact (hpeer.updateOp ((hapart m rfl).promptUpdate update ⟨m, sender⟩ hupdate) hop).1
  | @deferred m update expire s₁ hm hupdate hop =>
      have hs₁ : Sound env s₁ :=
        (hpeer.updateOp ((hapart m rfl).promptUpdate update ⟨m, sender⟩ hupdate) hop).1
      rw [emplaceDefer_eq]
      exact hs₁.of_same rfl le_rfl rfl
  | @updated m update ret expire s₁ r hm hupdate hret hop hr =>
      have hs₁ : Sound env s₁ :=
        (hpeer.updateOp ((hapart m rfl).promptUpdate update ⟨m, sender⟩ hupdate) hop).1
      exact hs₁.addsForeign hr.addsForeign

/-! ## Ticks -/

/-- An answer takes no send back. -/
theorem Answer.sends_le {response : CacheMessage} {requester : Address} {q : Rest}
    {r : Option Thrown × Rest} (h : Answer env fails response requester q r) :
    q.mem.sends ≤ r.2.mem.sends := by
  cases h with
  | registered hheader hmap hr => exact hr.sends_le
  | taken hheader hmap hmessage hr => exact hr.sends_le

/-- A callback takes no send back. -/
theorem RunTimer.sends_le {call : TimerCall Nat} {r : Option Thrown × Server}
    (h : RunTimer env (serverHooks env fails) s call r) :
    s.mem.outer.sends ≤ r.2.mem.outer.sends := by
  cases h with
  | absent howner he => exact le_rfl
  | idled he => exact le_rfl
  | @completed cacheId e f s₁ p' r he hs hf hp hinv =>
      have hspec : UpdateHandle env fails f .kOperationOk e.state.opId s₁.1.expireTime p'.outer r :=
        .of_invoke hinv
      subst hp
      cases hspec with
      | refused hret => exact le_rfl
      | lost hret hdefer => exact le_rfl
      | answered hret hdefer hr => exact hr.sends_le
  | noCall he hf => exact le_rfl
  | unbound he hcall => exact le_rfl
  | @foreign ptr r hinv =>
      have hspec : TimerHandle fails ptr s.outer r := .of_foreign hinv
      exact hspec.tables.2.2.2.1

/-- The completion of a waiting update finds its message and answers it, unless the send fails. -/
theorem Matching.complete {q p : Server} {cacheId : UInt64} {e e' : CacheElement CacheData Request}
    {f : Request} {expire : Int} {r : Option Thrown × Rest} (h : Matching q.mem)
    (he : q.mem.map cacheId = some e) (hf : e.call = some f)
    (hwaits : e.state.currentState = .kCacheUpdateProtected)
    (hmap : p.mem.map = Function.update q.mem.map cacheId (some e'))
    (hstate : e'.state.currentState ≠ .kCacheUpdateProtected) (hp : p.mem.outer = q.mem.outer)
    (hr : UpdateHandle env fails f .kOperationOk e.state.opId expire p.outer r) :
    (fails q.mem.outer.sends = true ∧ q.mem.outer.sends < r.2.mem.sends) ∨
      (Matching (p.withOuter r.2).mem ∧ r.1 = none) := by
  obtain ⟨request, hcall, hdefer⟩ := h.waiting cacheId e he hwaits
  obtain rfl : f = request := Option.some.inj (hf.symm.trans hcall)
  cases hr with
  | refused hret => exact absurd rfl hret
  | lost hret hnone =>
      rw [outer_mem, hp, hdefer] at hnone
      cases hnone
  | @answered request' r hret hdefer' hr =>
      rw [outer_mem, hp, hdefer] at hdefer'
      obtain rfl := Option.some.inj hdefer'
      have hentries := hr.entries
      cases hr with
      | @taken header ptr message r hheader hentry hmessage hr =>
          -- the op id of an update that waits has no entry
          have hnone := h.unanswered _ _ hdefer
          change p.mem.outer.map header.opId = some ptr at hentry
          cases hheader
          rw [hp] at hentry
          rw [show f.message.opId = ({ f.message.header.getD {} with
            type := kUpdateResponse } : CacheMessageHeader).opId from rfl, hentry] at hnone
          cases hnone
      | @registered header r hheader hentry hr =>
          obtain ⟨-, -, -, -, hdefers, -, hlog⟩ := hr.tables
          have hsent := hr.sent_mem
          cases hr with
          | empty hempty => cases hempty
          | failed hfails =>
              have hsends : q.mem.outer.sends = p.mem.outer.sends := by rw [hp]
              rw [hsends]
              exact Or.inl ⟨hfails, Nat.lt_succ_self _⟩
          | sent hempty =>
              refine Or.inr ⟨?_, rfl⟩
              refine h.of_completed he hwaits hdefer hmap hstate ?_ (fun opId hne hnone => ?_) ?_
              · apply hdefers.trans
                show Function.update p.mem.outer.deferMessages e.state.opId none = _
                rw [hp]
              · apply hentries opId hne
                show p.mem.outer.map opId = none
                rw [hp, hnone]
              · refine h.identified.complete e.state.opId (x := ⟨p.mem.outer.peer,
                  updateResponse f.message expire .kOperationOk, f.requester⟩) (hlog.trans ?_) ?_ rfl
                · show p.mem.outer.log ++ [.completion f (p.mem.outer.deferMessages e.state.opId)] ++
                    [.deferEntryRead e.state.opId false] = _
                  rw [hp, hdefer]
                · rw [← hp]
                  rfl

/-- Resending touches neither the elements nor the deferred messages. -/
theorem Matching.resend {q : Server} {ptr : Nat} {r : Option Thrown × Rest} (h : Matching q.mem)
    (hr : TimerHandle fails ptr q.outer r) :
    Matching (q.withOuter r.2).mem ∧ ∀ e, r.1 = some e → e.Unrelated := by
  have hsend : ∀ {ack : WaitCacheAck} {q₁ : Rest} {r : Option Thrown × Rest},
      (q₁ = q.outer ∧ ack.destroyed = false ∨ q₁ = q.outer.note (.danglingCall ptr)) →
      DoSend fails ack.message ack.requester q₁ r → Matching (q.withOuter r.2).mem := by
    intro ack q₁ r hq hr
    obtain ⟨-, hmap, -, -, hdefers, -, hlog⟩ := hr.tables
    obtain ⟨-, hmap₁, -, -, hdefers₁, -, -, hsent₁⟩ := noted_tables hq
    have hlog₁ : ∀ event ∈ q₁.mem.log, event ∈ q.mem.outer.log ∨ event.Unrelated := by
      rcases hq with ⟨rfl, -⟩ | rfl
      · exact fun event he => Or.inl he
      · refine fun event he => (List.mem_append.mp he).imp_right fun he => ?_
        rw [List.mem_singleton.mp he]
        trivial
    refine h.of_outer rfl (hdefers.trans hdefers₁) (fun opId request hdefer => ?_) ?_
    · show r.2.mem.map _ = none
      rw [hmap, hmap₁]
      exact h.unanswered opId request hdefer
    · refine h.identified.of_log (fun event he => hlog₁ event ?_) fun x hx => ?_
      · change event ∈ r.2.mem.log at he
        rwa [hlog] at he
      · exact hr.sent_mem x (hsent₁ ▸ hx)
  cases hr with
  | absent hack => exact ⟨h, fun e he => nomatch he⟩
  | threw hack hq hr he => exact ⟨hsend hq hr, fun e he => hr.unrelated he⟩
  | unknown hack hq hr he hmap =>
      have h := hsend hq hr
      refine ⟨h, fun e he => ?_⟩
      cases he
      exact ⟨fun _ h => (nomatch h), by decide⟩
  | @expired ack q₁ r ptr' hack hq hr he hmap =>
      refine ⟨?_, fun e he => nomatch he⟩
      have h := hsend hq hr
      exact h.of_outer rfl rfl
        (fun opId request hdefer =>
          Lib.Table.erase_eq_none ack.opId (h.unanswered opId request hdefer))
        (h.identified.of_log (fun _ he => Or.inl he) fun _ hx => hx)

/-- A callback keeps the messages matched and throws nothing that an op id causes, unless it sends
the response to an update that waited, and the send fails. -/
theorem Matching.runTimer {q : Server} {t : EventTimer (TimerCall Nat)} {r : Option Thrown × Server}
    (h : Matching q.mem) (hs : Sound env q) (ht : t ∈ q.rt.queue) (hlive : t.repeat_ ≠ 0)
    (hr : RunTimer env (serverHooks env fails) q t.callback r) :
    ((∃ cacheId, t.callback = .updateProtected cacheId) ∧ fails q.mem.outer.sends = true ∧
        q.mem.outer.sends < r.2.mem.outer.sends) ∨
      (Matching r.2.mem ∧ ∀ e, r.1 = some e → t.callback.owner = none ∧ e.Unrelated) := by
  generalize hcall : t.callback = call at hr
  cases hr with
  | absent howner he => exact Or.inr ⟨h, fun e he => nomatch he⟩
  | idled he =>
      exact Or.inr ⟨h.of_update rfl rfl (fun h => nomatch h), fun e he => nomatch he⟩
  | @completed cacheId e f s₁ p' r he hs₁ hf hp hinv =>
      have hwaits : e.state.currentState = .kCacheUpdateProtected :=
        (hs.owner ht hlive (by rw [hcall]; rfl) he).updateProtected hcall
      have hspec : UpdateHandle env fails f .kOperationOk e.state.opId s₁.1.expireTime p'.outer r :=
        .of_invoke hinv
      have hstate : (e.taken [] s₁.1).state.currentState ≠ .kCacheUpdateProtected := by
        show s₁.1.currentState ≠ _
        rw [hs₁, guarantee_currentState]
        decide
      rcases h.complete (p := p') he hf hwaits (by rw [hp, hs₁]; rfl) hstate (by rw [hp]; rfl)
          hspec with ⟨hfails, hlt⟩ | ⟨hmatching, hnone⟩
      · exact Or.inl ⟨⟨cacheId, rfl⟩, hfails, hlt⟩
      · refine Or.inr ⟨hmatching, fun e' he' => ?_⟩
        rw [show r.1 = some e' from he'] at hnone
        cases hnone
  | noCall he hf => exact absurd hf (hs.handlers ht hlive hcall he).2
  | unbound he hnone => exact absurd hnone (hs.handlers ht hlive hcall he).1
  | @foreign ptr r hinv =>
      have hspec : TimerHandle fails ptr q.outer r := .of_foreign hinv
      obtain ⟨hmatching, hthrown⟩ := h.resend hspec
      exact Or.inr ⟨hmatching, fun e he => ⟨rfl, hthrown e he⟩⟩

/-- Between `s` and `q` a wait ended and a send failed. -/
def Failed (env : Env) (fails : Nat → Bool) (s q : Server) : Prop :=
  Ripened env s q.rt.readings ∧
    ∃ n, s.mem.outer.sends ≤ n ∧ n < q.mem.outer.sends ∧ fails n = true

/-- A failure stays. -/
theorem Failed.mono {q q' : Server} (h : Failed env fails s q)
    (hreadings : q.rt.readings ≤ q'.rt.readings)
    (hsends : q.mem.outer.sends ≤ q'.mem.outer.sends) : Failed env fails s q' := by
  obtain ⟨hripe, n, hn, hlt, hfails⟩ := h
  exact ⟨hripe.mono hreadings, n, hn, lt_of_lt_of_le hlt hsends, hfails⟩

/-- The elements, the timers and the deferred messages fit together, and the waits in the queue are
those of `s`. -/
structure Sorted (env : Env) (s q : Server) : Prop where
  sound : Sound env q
  matching : Matching q.mem
  waits : ∀ t ∈ q.rt.queue, t.repeat_ ≠ 0 → ∀ cacheId, t.callback = .updateProtected cacheId →
    t ∈ s.rt.queue

/-- What holds within a `tick` that began in `s`. -/
structure Sorting (env : Env) (fails : Nat → Bool) (s q : Server) : Prop where
  readings_le : s.rt.readings ≤ q.rt.readings
  sends_le : s.mem.outer.sends ≤ q.mem.outer.sends
  wired : Wired q
  kept : Failed env fails s q ∨ Sorted env s q

/-- The callback of slot 0: a wait ended and its response could not be sent, or the messages stay
matched and nothing that an op id causes is thrown. -/
theorem Sorting.callback {q : Server} {t : EventTimer (TimerCall Nat)}
    {rest : List (EventTimer (TimerCall Nat))} {r : Option Thrown × Server}
    (h : Sorting env fails s q) (hq : q.rt.queue = t :: rest) (h0 : t.repeat_ ≠ 0)
    (hdue : t.expireTime ≤ q.rt.now env)
    (hr : RunTimer env (serverHooks env fails) { q with rt := q.rt.readClock.lock } t.callback r) :
    Failed env fails s r.2 ∨ (Sorted env s q ∧ Matching r.2.mem ∧
      ∀ e, r.1 = some e → t.callback.owner = none ∧ e.Unrelated) := by
  have hlt : q.rt.readings < r.2.rt.readings := hr.readings_le serverHooks_benign
  have hsends : q.mem.outer.sends ≤ r.2.mem.outer.sends := hr.sends_le
  have ht : t ∈ q.rt.queue := by rw [hq]; exact List.mem_cons_self
  rcases h.kept with hfailed | hsorted
  · exact Or.inl (hfailed.mono hlt.le hsends)
  · have hsound : Sound env ({ q with rt := q.rt.readClock.lock } : Server) :=
      hsorted.sound.of_same rfl (Nat.le_succ _) rfl
    rcases Matching.runTimer (q := { q with rt := q.rt.readClock.lock }) hsorted.matching hsound
        ht h0 hr with ⟨⟨cacheId, hcall⟩, hfails, hlt'⟩ | hkept
    · exact Or.inl ⟨⟨t, hsorted.waits t ht h0 cacheId hcall, h0, ⟨cacheId, hcall⟩, q.rt.readings,
        h.readings_le, hlt, hdue⟩, q.mem.outer.sends, h.sends_le, hlt', hfails⟩
    · exact Or.inr ⟨hsorted, hkept⟩

/-- An iteration whose callback keeps the messages matched. -/
theorem Sorted.tickIter {q : Server} (h : Sorted env s q) {r : Iter Server}
    (hr : TickIter env (runTimer env (serverHooks env fails)) q r) (hmatching : Matching r.state.mem)
    (hothers : OthersThrow q r) : Sorted env s r.state where
  sound := (h.sound.tickIter serverHooks_benign hr hothers).1
  matching := hmatching
  waits t ht hlive cacheId hcall :=
    h.waits t (hr.waits serverHooks_benign h.sound.armed ht hlive hcall) hlive cacheId hcall

/-- **An iteration of `tick` keeps to it.** -/
theorem Sorting.tickIter {q : Server} (h : Sorting env fails s q) {r : Iter Server}
    (hr : TickIter env (runTimer env (serverHooks env fails)) q r) :
    Sorting env fails s r.state := by
  have hwired := h.wired.tickIter hr
  have hreadings := hr.readings_le serverHooks_benign
  have hquiet : r.state.mem = q.mem → (∀ e p', r ≠ .threw e p') → Sorting env fails s r.state := by
    intro hmem hreturned
    have hsends : q.mem.outer.sends ≤ r.state.mem.outer.sends := by rw [hmem]
    refine ⟨h.readings_le.trans hreadings, h.sends_le.trans hsends, hwired, ?_⟩
    refine h.kept.imp (fun hf => hf.mono hreadings hsends) fun hs => hs.tickIter hr ?_ ?_
    · rw [hmem]
      exact hs.matching
    · exact fun e p' hthrew => absurd hthrew (hreturned e p')
  cases hr with
  | empty hq => exact h
  | notDue hq hdue => exact hquiet rfl fun _ _ h => nomatch h
  | dead hq hdue h0 hperm => exact hquiet rfl fun _ _ h => nomatch h
  | @threw t rest e p₁ hq hdue h0 hrun =>
      have hspec := RunTimer.of_eq hrun
      refine ⟨h.readings_le.trans hreadings, h.sends_le.trans hspec.sends_le, hwired, ?_⟩
      rcases h.callback hq h0 hdue hspec with hfailed | ⟨hsorted, hmatching, hthrown⟩
      · exact Or.inl hfailed
      · refine Or.inr (hsorted.tickIter (.threw hq hdue h0 hrun) hmatching fun e' p' _ t' rest' hq' => ?_)
        obtain rfl : t = t' := (List.cons.inj (hq.symm.trans hq')).1
        exact (hthrown e rfl).1
  | @fired t rest p₁ hq hdue h0 hrun =>
      have hspec := RunTimer.of_eq hrun
      refine ⟨h.readings_le.trans hreadings, h.sends_le.trans hspec.sends_le, hwired, ?_⟩
      rcases h.callback hq h0 hdue hspec with hfailed | ⟨hsorted, hmatching, -⟩
      · exact Or.inl (hfailed.mono (settled_readings_le env p₁.rt) le_rfl)
      · exact Or.inr (hsorted.tickIter (.fired hq hdue h0 hrun) hmatching fun _ _ h => nomatch h)

/-- What `tick` throws. -/
theorem Sorting.threw {q q' : Server} {e : Thrown} (h : Sorting env fails s q)
    (hr : TickIter env (runTimer env (serverHooks env fails)) q (.threw e q')) :
    Failed env fails s q' ∨ e.Unrelated := by
  cases hr with
  | @threw t rest e p₁ hq hdue h0 hrun =>
      rcases h.callback hq h0 hdue (.of_eq hrun) with hfailed | ⟨-, -, hthrown⟩
      · exact Or.inl hfailed
      · exact Or.inr (hthrown e rfl).2

/-! ## Runs -/

/-- A turn keeps the op ids apart. -/
def Apart (env : Env) (fails : Nat → Bool) (s : Server) (op : ServerOp) (s' : Server) : Prop :=
  match op with
  | .receive _ data => ∀ m, data = some m → KeepsApart env s m
  | .tick _ => ¬ Failed env fails s s'

/-- In every state of the runs whose turns meet `ok`, the history is as asked. -/
def OpIdsIdentify (env : Env) (fails : Nat → Bool) (ok : Server → ServerOp → Server → Prop) : Prop :=
  ∀ s, ServerReachable env fails ok s → Identified s.mem.outer

/-- What `main` catches. -/
theorem Matching.catch {r : Option Thrown × Server} (h : Matching r.2.mem)
    (hthrown : ∀ e, r.1 = some e → e.Unrelated) : Matching (Server.catch r).mem := by
  unfold Server.catch
  split
  · exact h
  · rename_i e he
    refine h.of_outer rfl rfl h.unanswered (h.identified.of_log (fun event hmem => ?_) fun _ hx => hx)
    refine (List.mem_append.mp hmem).imp_right fun hmem => ?_
    rw [List.mem_singleton.mp hmem]
    exact hthrown e he

/-- `CATCH_EXPTIONS` does not touch the data center. -/
theorem Sound.catch {r : Option Thrown × Server} (h : Sound env r.2) :
    Sound env (Server.catch r) := by
  unfold Server.catch
  split
  · exact h
  · exact h.of_same rfl le_rfl rfl

/-- `CATCH_EXPTIONS` tries no send. -/
theorem catch_sends (r : Option Thrown × Server) :
    (Server.catch r).mem.outer.sends = r.2.mem.outer.sends := by
  unfold Server.catch
  split <;> rfl

/-- **A turn that keeps the op ids apart** keeps the messages matched. -/
theorem Matching.step (h : Matching s.mem) (hs : Sound env s) (hw : Wired s) {op : ServerOp}
    (hstep : s.step env fails op = some s') (hapart : Apart env fails s op s') :
    Sound env s' ∧ Matching s'.mem := by
  cases op with
  | receive sender data =>
      cases hstep
      have hspec : OnReceive env fails sender s data _ := onReceive_spec sender data s
      obtain ⟨hmatching, hthrown⟩ := h.onReceive hapart hspec
      exact ⟨(hs.onReceive hw hapart hspec).catch, hmatching.catch hthrown⟩
  | tick fuel =>
      obtain ⟨r, hr, rfl⟩ := Option.map_eq_some_iff.mp hstep
      have hstart : Sorting env fails s s :=
        ⟨le_rfl, le_rfl, hw, Or.inr ⟨hs, h, fun t ht _ _ _ => ht⟩⟩
      have hiter : ∀ q i, Sorting env fails s q →
          TickIter env (CacheSystem.runTimer env (serverHooks env fails)) q i →
            Sorting env fails s i.state :=
        fun _ _ hq hi => hq.tickIter hi
      have hnot : ¬ Failed env fails s r.2 := by
        intro hfailed
        refine hapart (hfailed.mono ?_ ?_)
        · rw [catch_rt]
        · rw [catch_sends]
      have hend := tickLoop_induct (Sorting env fails s) hiter fuel s r.1 r.2 hstart hr
      have hsorted := hend.kept.resolve_left hnot
      refine ⟨hsorted.sound.catch, hsorted.matching.catch fun e he => ?_⟩
      obtain ⟨q, hq, hi⟩ := tickLoop_threw (Sorting env fails s) hiter fuel s e r.2 hstart
        (by rw [hr, ← he])
      exact (hq.threw hi).resolve_left hnot

/-- At the start nothing waits. -/
theorem matching_initial : Matching Server.initial.mem where
  waiting _ _ he := nomatch he
  apart _ _ _ _ he := nomatch he
  key _ _ hdefer := nomatch hdefer
  unanswered _ _ hdefer := nomatch hdefer
  identified := identified_nil rfl

/-- **The op ids identify the requests** in the runs that keep them apart. -/
theorem identified_of_apart : OpIdsIdentify env fails (Apart env fails) := by
  intro s h
  have hkept : Sound env s ∧ Matching s.mem := by
    induction h with
    | initial => exact ⟨sound_initial _, matching_initial⟩
    | step op hbefore hstep hapart ih =>
        exact ih.2.step ih.1 (wired_of_reachable hbefore) hstep hapart
  exact hkept.2.identified

/-- A deferred update and its completion, as a case of `identified_of_apart`. -/
theorem identified_of_apart_completed :
    ∃ s, Server.initial.run (jumpClock 7 20000) (fun _ => false)
        [.receive 7 (some (updateRequestMessage 11 1 [5] 200 0)),
          .receive 7 (some (updateRequestMessage 12 1 [6] 200 0)), .tick 10] = some s ∧
      (∃ handler, .completion handler (some handler) ∈ s.mem.outer.log) ∧
        Identified s.mem.outer := by
  have hapart : Apart (jumpClock 7 20000) (fun _ => false) Server.initial
      (.receive 7 (some (updateRequestMessage 11 1 [5] 200 0)))
      (Server.first (jumpClock 7 20000)) := by
    intro m hm
    cases hm
    exact
      { other := fun _ _ _ hdefer => nomatch hdefer
        promptRead := fun _ hread => nomatch hread
        promptUpdate := fun _ _ _ _ he => nomatch he
        nonzero := fun _ _ _ he => nomatch he
        free := fun _ _ _ he => nomatch he }
  have hapart' : Apart (jumpClock 7 20000) (fun _ => false) (Server.first (jumpClock 7 20000))
      (.receive 7 (some (updateRequestMessage 12 1 [6] 200 0)))
      (Server.catch (onReceive (jumpClock 7 20000) (fun _ => false) 7
        (some (updateRequestMessage 12 1 [6] 200 0)) (Server.first (jumpClock 7 20000)))) := by
    intro m hm
    cases hm
    refine
      { other := fun _ _ _ hdefer => nomatch hdefer
        promptRead := fun _ hread => nomatch hread
        promptUpdate := fun update request hupdate e he _ _ _ => ?_
        nonzero := fun update e hupdate he _ => by decide
        free := fun update e hupdate he _ _ => ⟨rfl, by decide⟩ }
    cases hupdate
    obtain rfl := Option.some.inj he
    decide
  have hsecond := ServerReachable.step _ (Server.first_reachable (jumpClock 7 20000) hapart) rfl
    hapart'
  refine ⟨_, rfl, ⟨⟨updateRequestMessage 12 1 [6] 200 0, 7⟩, by decide⟩,
    identified_of_apart _ (.step (.tick 10) hsecond rfl ?_)⟩
  rintro ⟨-, n, -, -, hfails⟩
  cases hfails

/-- The message of a turn. -/
def ServerOp.message : ServerOp → Option CacheMessage
  | .receive _ data => data
  | .tick _ => none

/-- The messages of these turns are update requests with pairwise different op ids and cache
ids. -/
structure Distinct (ops : List ServerOp) : Prop where
  updates : ∀ m ∈ ops.filterMap ServerOp.message,
    headerAvailable m = true ∧ m.updateRequest.isSome = true
  opIds : ((ops.filterMap ServerOp.message).map CacheMessage.opId).Nodup
  cacheIds : ((ops.filterMap ServerOp.message).map fun m =>
    m.updateRequest.map CacheUpdateRequest.cacheId).Nodup

/-- From any state of a run in which no update waits, turns with different update requests leave
the history as asked. -/
def DistinctIdentified (env : Env) (fails : Nat → Bool) : Prop :=
  ∀ s ops s', ServerReachable env fails (fun _ _ _ => True) s → Identified s.mem.outer →
    (∀ opId, s.mem.outer.deferMessages opId = none) → Distinct ops →
      s.run env fails ops = some s' → Identified s'.mem.outer

/-- Two updates whose op ids differ in the high bits are deferred, and the completion of the second
one finds no message. -/
theorem not_identified : ¬ DistinctIdentified (jumpClock 14 20000) fun _ => false := by
  intro h
  obtain ⟨s, hrun, hlog, hdefers, s', hrun', hlost⟩ : ∃ s,
      Server.initial.run (jumpClock 14 20000) (fun _ => false)
        [.receive 7 (some (updateRequestMessage 11 1 [5] 200 0)),
          .receive 7 (some (updateRequestMessage 12 2 [6] 200 0))] = some s ∧
      s.mem.outer.log = [] ∧ (∀ opId, s.mem.outer.deferMessages opId = none) ∧
      ∃ s', s.run (jumpClock 14 20000) (fun _ => false)
        [.receive 7 (some (updateRequestMessage 5 1 [7] 200 0)),
          .receive 7 (some (updateRequestMessage 0x100000005 2 [8] 200 0)), .tick 10] = some s' ∧
      .completion ⟨updateRequestMessage 0x100000005 2 [8] 200 0, 7⟩ none ∈ s'.mem.outer.log :=
    ⟨_, rfl, by decide, fun _ => rfl, _, rfl, by decide⟩
  have hreach := ServerReachable.run (fun _ _ _ => trivial) .initial hrun
  have hidentified := h s _ s' hreach (identified_nil hlog) hdefers
    ⟨by decide, by decide, by decide⟩ hrun'
  exact absurd (hidentified.own _ _ hlost).1 (by simp)

end CacheSystem

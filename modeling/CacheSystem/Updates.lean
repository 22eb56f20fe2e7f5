import CacheSystem.ServerSteps

/-!
# What a turn of the server does to the updates

An update request is handed to the server's data center, waits in an element and in
`defer_messages_`, is assigned, and is answered. `Received` says all that a datagram does to this,
and `Fired` all that the callback of a timer does, in terms of the elements, the history, the
deferred messages and the messages that the server holds or has sent (`Carries`). Timers and clocks
do not occur in them.
-/

namespace CacheSystem

variable {env : Env} {fails : Nat → Bool} {s s' : Server}

/-! ## Requests in a history -/

/-- The cache id of an update request. -/
def Request.key (f : Request) : UInt64 := (f.message.updateRequest.getD {}).cacheId.toUInt64

/-- The data of an update request. -/
def Request.data (f : Request) : CacheData := (f.message.updateRequest.getD {}).cacheData

/-- The op id as the data center keeps it. -/
def Request.low (f : Request) : UInt32 := f.message.opId.toUInt32

/-- The event assigns the data submitted with this request, at once or at its completion. A
completion that runs again is not one: the data was moved out of `temp_value_` the first time. -/
def Event.Assigns (f : Request) : Event CacheData Request → Bool
  | .updated _ _ g _ _ => g = f
  | .moved _ (some g) (some _) => g = f
  | _ => false

/-- The event writes `value_` on behalf of this request: its data, or what is left of it when its
completion runs again. -/
def Event.WritesFor (f : Request) : Event CacheData Request → Bool
  | .updated _ _ g _ _ => g = f
  | .moved _ (some g) _ => g = f
  | _ => false

/-- The event assigns this value to the element of this id. -/
def Event.Stores (id : UInt64) (value : CacheData) : Event CacheData Request → Bool
  | .updated id' _ _ value' _ => id' = id ∧ value' = value
  | .moved id' _ (some value') => id' = id ∧ value' = value
  | _ => false

/-- The server holds the message for its acknowledgement, or has sent it. -/
def ServerMem.Carries (mem : ServerMem) (m : CacheMessage) : Prop :=
  (∃ ptr ack, mem.acks ptr = some ack ∧ ack.message = m) ∨ ∃ x ∈ mem.sent, x.message = m

/-- At a completion the update that was held back is assigned, if there was one. -/
theorem assigns_moved {f : Request} {id : UInt64} {call : Option Request}
    {value : Option CacheData} :
    (Event.moved id call value).Assigns f = true ↔ call = some f ∧ value ≠ none := by
  rcases call with _ | g <;> rcases value with _ | value <;>
    simp only [Event.Assigns, decide_eq_true_eq, ne_eq, reduceCtorEq, not_true_eq_false,
      not_false_eq_true, and_true, and_false, Option.some.injEq, Bool.false_eq_true]

/-- A completion writes for the request whose handler is in `call_`. -/
theorem writesFor_moved {f : Request} {id : UInt64} {call : Option Request}
    {value : Option CacheData} :
    (Event.moved id call value).WritesFor f = true ↔ call = some f := by
  rcases call with _ | g <;>
    simp only [Event.WritesFor, decide_eq_true_eq, reduceCtorEq, Option.some.injEq,
      Bool.false_eq_true]

/-- What writes nothing for a request does not assign its data. -/
theorem Event.assigns_eq_false {f : Request} {event : Event CacheData Request}
    (h : event.WritesFor f = false) : event.Assigns f = false := by
  cases event with
  | updated id opId g value expire => exact h
  | moved id call value =>
      rcases call with _ | g
      · rfl
      · rcases value with _ | value
        · rfl
        · exact h
  | read id expire value => rfl
  | deferred id opId g value => rfl
  | retried id opId g => rfl
  | completed id status opId g value expire => rfl

/-- The elements hold back the updates that they held back, and each manager has the op id that it
had, or a new one that meets `p`. -/
def SameHeld (p : UInt64 → UInt32 → Prop) (map map' : UInt64 → Option (CacheElement CacheData Request)) :
    Prop :=
  ∀ id e', map' id = some e' → ∃ e, (map id = some e ∨ (map id = none ∧ e = { value := [] })) ∧
    e'.call = e.call ∧ e'.tempValue = e.tempValue ∧
      (e'.state.opId = e.state.opId ∨ p id e'.state.opId)

/-- Where nothing changes the same updates are held back. -/
theorem SameHeld.refl (p : UInt64 → UInt32 → Prop)
    (map : UInt64 → Option (CacheElement CacheData Request)) : SameHeld p map map :=
  fun _ e' he' => ⟨e', Or.inl he', rfl, rfl, Or.inl rfl⟩

/-- One element is assigned. -/
theorem SameHeld.update {p : UInt64 → UInt32 → Prop}
    {map : UInt64 → Option (CacheElement CacheData Request)}
    {cacheId : UInt64} {e e' : CacheElement CacheData Request}
    (he : map cacheId = some e ∨ (map cacheId = none ∧ e = { value := [] }))
    (hcall : e'.call = e.call) (htemp : e'.tempValue = e.tempValue)
    (hop : e'.state.opId = e.state.opId ∨ p cacheId e'.state.opId) :
    SameHeld p map (Function.update map cacheId (some e')) := by
  intro id e₁ he₁
  rcases Lib.Table.of_assign he₁ with ⟨rfl, rfl⟩ | ⟨-, he₁⟩
  · exact ⟨e, he, hcall, htemp, hop⟩
  · exact ⟨e₁, Or.inl he₁, rfl, rfl, Or.inl rfl⟩

/-- What is held back now was held back before. -/
theorem SameHeld.held {p : UInt64 → UInt32 → Prop}
    {map map' : UInt64 → Option (CacheElement CacheData Request)} (h : SameHeld p map map')
    {id : UInt64} {e' : CacheElement CacheData Request} {g : Request} (he' : map' id = some e')
    (hcall : e'.call = some g) :
    ∃ e, map id = some e ∧ e.call = some g ∧ e'.tempValue = e.tempValue := by
  obtain ⟨e, he | ⟨-, rfl⟩, hcall', htemp, -⟩ := h id e' he'
  · exact ⟨e, he, hcall' ▸ hcall, htemp⟩
  · rw [hcall] at hcall'
    cases hcall'

/-! ## Messages that the server carries -/

/-- `do_send` brings the message that it was given. -/
theorem DoSend.carries {message : CacheMessage} {requester : Address} {q : Rest}
    {r : Option Thrown × Rest} (hr : DoSend fails message requester q r) {m : CacheMessage}
    (hm : r.2.mem.Carries m) : q.mem.Carries m ∨ m = message := by
  cases hr with
  | empty hempty => exact Or.inl hm
  | failed hfails => exact Or.inl hm
  | sent hempty =>
      rcases hm with hm | ⟨x, hx, hxm⟩
      · exact Or.inl (Or.inl hm)
      · rcases List.mem_append.mp hx with hx | hx
        · exact Or.inl (Or.inr ⟨x, hx, hxm⟩)
        · rw [List.mem_singleton.mp hx] at hxm
          exact Or.inr hxm.symm

/-- An assigned object: what is carried was carried, or is its message. -/
theorem carries_update {mem mem' : ServerMem} {m : CacheMessage} (hm : mem'.Carries m) {ptr : Nat}
    {ack : Option WaitCacheAck} (hacks : mem'.acks = Function.update mem.acks ptr ack)
    (hsent : mem'.sent = mem.sent) :
    mem.Carries m ∨ ∃ ack', ack = some ack' ∧ ack'.message = m := by
  rcases hm with ⟨ptr', ack', hack', hmessage⟩ | ⟨x, hx, hxm⟩
  · rw [hacks] at hack'
    by_cases hptr : ptr' = ptr
    · rw [hptr, Function.update_self] at hack'
      exact Or.inr ⟨ack', hack', hmessage⟩
    · rw [Function.update_of_ne hptr] at hack'
      exact Or.inl (Or.inl ⟨ptr', ack', hack', hmessage⟩)
  · rw [hsent] at hx
    exact Or.inl (Or.inr ⟨x, hx, hxm⟩)

/-- An answer brings the response, or a message that says nothing. -/
theorem Answer.carries {response : CacheMessage} {requester : Address} {q : Rest}
    {r : Option Thrown × Rest} (h : Answer env fails response requester q r) {m : CacheMessage}
    (hm : r.2.mem.Carries m) : q.mem.Carries m ∨ m = response ∨ m.opResponse = none := by
  cases h with
  | registered hheader hmap hr =>
      rcases hr.carries hm with hm | rfl
      · rcases carries_update hm rfl rfl with hm | ⟨ack, hack, hmessage⟩
        · exact Or.inl hm
        · cases hack
          exact Or.inr (Or.inl hmessage.symm)
      · exact Or.inr (Or.inl rfl)
  | taken hheader hmap hmessage hr =>
      have hnone : ∀ {message : CacheMessage}, (message = {} ∨ message = { header := some {} }) →
          message.opResponse = none := by
        rintro message (rfl | rfl) <;> rfl
      rcases hr.carries hm with hm | rfl
      · rcases carries_update hm rfl rfl with hm | ⟨ack, hack, rfl⟩
        · exact Or.inl hm
        · cases hack
          exact Or.inr (Or.inr (hnone hmessage))
      · exact Or.inr (Or.inr (hnone hmessage))

/-- A destroyed object carries an empty message. -/
theorem carries_eraseAck (opId : UInt64) {ptr : Nat} {q : Rest} {m : CacheMessage}
    (hm : (q.eraseAck opId ptr).mem.Carries m) : q.mem.Carries m ∨ m.opResponse = none := by
  rcases carries_update hm rfl rfl with hm | ⟨ack, hack, rfl⟩
  · exact Or.inl hm
  · obtain ⟨ack₀, -, rfl⟩ := Option.map_eq_some_iff.mp hack
    exact Or.inr rfl

/-- Releasing a response brings no other. -/
theorem Unregister.carries {opId : UInt64} {q r : Rest} (h : Unregister opId q r)
    {m : CacheMessage} (hm : r.mem.Carries m) : q.mem.Carries m ∨ m.opResponse = none := by
  cases h with
  | absent hmap => exact Or.inl hm
  | lost hmap hack => exact carries_eraseAck opId hm
  | erased hmap hack => exact carries_eraseAck opId hm

/-- Sending a response again brings no other. -/
theorem TimerHandle.carries {ptr : Nat} {q : Rest} {r : Option Thrown × Rest}
    (h : TimerHandle fails ptr q r) {m : CacheMessage} (hm : r.2.mem.Carries m) :
    q.mem.Carries m ∨ m.opResponse = none := by
  have hsend : ∀ {ack : WaitCacheAck} {q₁ : Rest} {r : Option Thrown × Rest},
      q.mem.acks ptr = some ack →
      (q₁ = q ∧ ack.destroyed = false ∨ q₁ = q.note (.danglingCall ptr)) →
      DoSend fails ack.message ack.requester q₁ r → r.2.mem.Carries m → q.mem.Carries m := by
    intro ack q₁ r hack hq hr hm
    have hsame : q₁.mem.Carries m → q.mem.Carries m := by
      rcases hq with ⟨rfl, -⟩ | rfl <;> exact fun h => h
    rcases hr.carries hm with hm | rfl
    · exact hsame hm
    · exact Or.inl ⟨ptr, ack, hack, rfl⟩
  cases h with
  | absent hack => exact Or.inl hm
  | threw hack hq hr he => exact Or.inl (hsend hack hq hr hm)
  | unknown hack hq hr he hmap => exact Or.inl (hsend hack hq hr hm)
  | expired hack hq hr he hmap =>
      rcases carries_eraseAck _ hm with hm | hnone
      · exact Or.inl (hsend hack hq hr hm)
      · exact Or.inr hnone

/-! ## Datagrams -/

variable {mem mem' : CenterMem CacheData Request ServerMem}

/-- All that the datagram `g` does to the updates; `late` is whether it is an update that finds
its element overdue. -/
inductive Received (g : Request) (late : Prop) (mem mem' : CenterMem CacheData Request ServerMem) :
    Prop
  /-- No update is taken in. -/
  | other {events}
      (hheld : SameHeld (fun id opId => opId = g.low ∧
        (g.message.readRequest ≠ none ∨ (late ∧ id = g.key))) mem.map mem'.map)
      (htrace : mem'.trace = mem.trace ++ events)
      (hevents : ∀ event ∈ events, ∀ f, event.WritesFor f = false)
      (hdefers : mem'.outer.deferMessages = mem.outer.deferMessages)
      (hcarries : ∀ m, mem'.outer.Carries m → mem.outer.Carries m ∨ m.opResponse = none ∨
        (m.opId = g.message.opId ∧ (g.message.readRequest ≠ none ∨
          (g.message.updateRequest ≠ none ∧
            ∀ r, m.opResponse = some r → r.result = OpResult.kOperationRetry.code))))
  /-- The update is assigned at once. -/
  | assigned {opId expire} (hupdate : g.message.updateRequest ≠ none)
      (hheld : SameHeld (fun _ _ => False) mem.map mem'.map)
      (htrace : mem'.trace = mem.trace ++ [.updated g.key opId g g.data expire])
      (hdefers : mem'.outer.deferMessages = mem.outer.deferMessages)
      (hcarries : ∀ m, mem'.outer.Carries m → mem.outer.Carries m ∨ m.opResponse = none ∨
        (m.opId = g.message.opId ∧
          ∀ r, m.opResponse = some r → r.result = OpResult.kOperationOk.code))
  /-- The update is deferred. -/
  | deferred {e'} (hupdate : g.message.updateRequest ≠ none) (h0 : g.low ≠ 0)
      (hmap : mem'.map = Function.update mem.map g.key (some e')) (hcall : e'.call = some g)
      (htemp : e'.tempValue = some g.data) (hop : e'.state.opId = g.low)
      (htrace : mem'.trace = mem.trace ++ [.deferred g.key g.low g g.data])
      (hdefers : mem'.outer.deferMessages = Function.update mem.outer.deferMessages g.low
        (some ((mem.outer.deferMessages g.low).getD g)))
      (hcarries : ∀ m, mem'.outer.Carries m → mem.outer.Carries m)

/-- A step that the updates do not see. -/
theorem Received.of_same {g : Request} {late : Prop} (hmap : mem'.map = mem.map)
    (htrace : mem'.trace = mem.trace)
    (hdefers : mem'.outer.deferMessages = mem.outer.deferMessages)
    (hcarries : ∀ m, mem'.outer.Carries m → mem.outer.Carries m ∨ m.opResponse = none) :
    Received g late mem mem' := by
  have htrace' : mem'.trace = mem.trace ++ [] := by rw [htrace, List.append_nil]
  exact .other (by rw [hmap]; exact .refl _ _) htrace' (fun _ h => nomatch h) hdefers
    fun m hm => (hcarries m hm).imp_right Or.inl

/-- The update finds a lease that is over and whose timer was not run yet. -/
def Request.Late (env : Env) (s : Server) (g : Request) : Prop :=
  g.message.updateRequest ≠ none ∧ ∃ e, s.mem.map g.key = some e ∧
    e.state.currentState = .kCacheGuaranteed ∧ timerDelay env (e.state, s.rt) ≤ 0

/-- **Taking in a datagram does one of these to the updates.** -/
theorem OnReceive.received {sender : Address} {data : Option CacheMessage} {m : CacheMessage}
    {r : Option Thrown × Server} (hr : OnReceive env fails sender s data r)
    (hdata : ∀ m', data = some m' → m' = m) :
    Received ⟨m, sender⟩ (Request.Late env s ⟨m, sender⟩) s.mem r.2.mem := by
  cases hr with
  | ignored he => exact .of_same rfl rfl rfl fun m hm => Or.inl hm
  | @acked m' hm =>
      have hspec := unregisterWaitAck_spec m'.opId (s.setPeer sender).outer
      generalize unregisterWaitAck m'.opId (s.setPeer sender).outer = q at hspec
      have hcarries : ∀ m, q.mem.Carries m → s.mem.outer.Carries m ∨ m.opResponse = none :=
        fun m hm => hspec.carries hm
      cases hspec with
      | absent hmap => exact .of_same rfl rfl rfl hcarries
      | lost hmap hack => exact .of_same rfl rfl rfl hcarries
      | erased hmap hack => exact .of_same rfl rfl rfl hcarries
  | @read m' read ret out s₁ s₂ r hm hread hop hs₂ hr =>
      obtain rfl := hdata m' rfl
      have houter : s₁.mem.outer = _ := hop.outer
      have hs₂' : s₂.mem.map = s₁.mem.map ∧ s₂.mem.trace = s₁.mem.trace ∧
          s₂.mem.outer.deferMessages = s.mem.outer.deferMessages ∧
          ∀ m, s₂.mem.outer.Carries m → s.mem.outer.Carries m := by
        subst hs₂
        rcases out with _ | ⟨expire, value⟩ <;>
          simp only [Proc.setScratch, setOuter_outer, houter] <;>
          exact ⟨rfl, rfl, rfl, fun m hm => hm⟩
      obtain ⟨hmap, htrace, hdefers, hcarries⟩ := hs₂'
      have hread' : ∃ events, s₁.mem.trace = s.mem.trace ++ events ∧
          (∀ event ∈ events, ∀ f, event.WritesFor f = false) ∧
          SameHeld (fun id opId => opId = m'.opId.toUInt32 ∧ (m'.readRequest ≠ none ∨
            (Request.Late env s ⟨m', sender⟩ ∧ id = Request.key ⟨m', sender⟩)))
            s.mem.map s₁.mem.map := by
        cases hop with
        | absent he => exact ⟨[], (List.append_nil _).symm, fun _ h => (nomatch h), .refl _ _⟩
        | @renewed e k s₃ he hk hs =>
            refine ⟨_, rfl, fun event hmem f => ?_, SameHeld.update (Or.inl he) rfl rfl ?_⟩
            · rw [List.mem_singleton.mp hmem]
              rfl
            · have hop' : s₃.1.opId = k.opId := by rw [hs, guarantee_opId]
              rcases hk with ⟨-, rfl⟩ | ⟨-, rfl⟩
              · exact Or.inl hop'
              · exact Or.inr ⟨hop', Or.inl (by rw [hread]; simp)⟩
        | unleased he hstate =>
            refine ⟨_, rfl, fun event hmem f => ?_, .refl _ _⟩
            rw [List.mem_singleton.mp hmem]
            rfl
      obtain ⟨events, htrace₁, hevents, hheld⟩ := hread'
      refine .other (by rw [withOuter_map, hmap]; exact hheld)
        (by rw [withOuter_trace, htrace]; exact htrace₁) hevents
        (hr.tables.1.trans hdefers) fun m hm => ?_
      rcases hr.carries hm with hm | rfl | hnone
      · exact Or.inl (hcarries m hm)
      · exact Or.inr (Or.inr ⟨rfl, Or.inl (by rw [hread]; simp)⟩)
      · exact Or.inr (Or.inl hnone)
  | @updateThrew m' update e s₁ hm hupdate hop =>
      obtain rfl := hdata m' rfl
      have hkey : (⟨m', sender⟩ : Request).key = update.cacheId.toUInt64 := by
        rw [Request.key, hupdate, Option.getD_some]
      cases hop with
      | refused he hstate h0 => exact .of_same rfl rfl rfl fun m hm => Or.inl hm
      | @overdue e he hstate h0 hdelay =>
          have hlate : Request.Late env s ⟨m', sender⟩ :=
            ⟨by rw [hupdate]; simp, e, by rw [hkey]; exact he, hstate, hdelay⟩
          exact .other
            (SameHeld.update (Or.inl he) rfl rfl (Or.inr ⟨rfl, Or.inr ⟨hlate, hkey.symm⟩⟩))
            (List.append_nil _).symm (fun _ h => (nomatch h)) rfl fun m hm => Or.inl hm
  | @deferred m' update expire s₁ hm hupdate hop =>
      obtain rfl := hdata m' rfl
      have hkey : (⟨m', sender⟩ : Request).key = update.cacheId.toUInt64 := by
        rw [Request.key, hupdate, Option.getD_some]
      have hdata' : (⟨m', sender⟩ : Request).data = update.cacheData := by
        rw [Request.data, hupdate, Option.getD_some]
      rw [emplaceDefer_eq]
      obtain ⟨e, s₂, he, hstate, h0, hdelay, hid, rfl⟩ := hop.of_defer
      exact .deferred (by rw [hupdate]; simp) h0 (by rw [hkey]; rfl) rfl
        (by rw [hdata']) hid (by rw [hkey, hdata']; rfl) rfl fun m hm => hm
  | @updated m' update ret expire s₁ r hm hupdate hret hop hr =>
      obtain rfl := hdata m' rfl
      have hkey : (⟨m', sender⟩ : Request).key = update.cacheId.toUInt64 := by
        rw [Request.key, hupdate, Option.getD_some]
      have hdata' : (⟨m', sender⟩ : Request).data = update.cacheData := by
        rw [Request.data, hupdate, Option.getD_some]
      have houter : s₁.mem.outer = _ := hop.outer
      have hdefers : (s₁.withOuter r.2).mem.outer.deferMessages = s.mem.outer.deferMessages := by
        apply hr.tables.1.trans
        rw [outer_mem, houter]
        rfl
      have hcarries : ∀ m, (s₁.withOuter r.2).mem.outer.Carries m → s.mem.outer.Carries m ∨
          m.opResponse = none ∨ m = updateResponse m' expire ret := by
        intro m hm
        rcases hr.carries hm with hm | hm | hnone
        · rw [outer_mem, houter] at hm
          exact Or.inl hm
        · exact Or.inr (Or.inr hm)
        · exact Or.inr (Or.inl hnone)
      generalize hr₁ : (Except.ok (ret, expire), s₁) = r₁ at hop
      cases hop with
      | refused he hstate h0 => cases hr₁
      | overdue he hstate h0 hdelay => cases hr₁
      | deferred he hstate h0 hdelay hs =>
          cases hr₁
          exact absurd rfl hret
      | @assigned e s₂ he hstate hs =>
          cases hr₁
          refine .assigned (by rw [hupdate]; simp) (SameHeld.update he rfl rfl (Or.inl ?_))
            (by rw [hkey, hdata']; rfl) hdefers fun m hm => ?_
          · show s₂.1.opId = _
            rw [hs, guarantee_opId]
          · refine (hcarries m hm).imp_right fun hm => hm.imp_right ?_
            rintro rfl
            refine ⟨rfl, fun r hr => ?_⟩
            cases hr
            rfl
      | retried he hstate h0 =>
          cases hr₁
          refine .other (.refl _ _) rfl (fun event hmem f => ?_) hdefers fun m hm => ?_
          · rw [List.mem_singleton.mp hmem]
            rfl
          · refine (hcarries m hm).imp_right fun hm => hm.imp_right ?_
            rintro rfl
            refine ⟨rfl, Or.inr ⟨by rw [hupdate]; simp, fun r hr => ?_⟩⟩
            cases hr
            rfl

/-! ## Timers -/

/-- All that the callback of a timer does to the updates. -/
inductive Fired (mem mem' : CenterMem CacheData Request ServerMem) : Prop
  /-- No update is completed. -/
  | other (hheld : SameHeld (fun _ _ => False) mem.map mem'.map) (htrace : mem'.trace = mem.trace)
      (hdefers : mem'.outer.deferMessages = mem.outer.deferMessages)
      (hcarries : ∀ m, mem'.outer.Carries m → mem.outer.Carries m ∨ m.opResponse = none)
  /-- What an element holds back is assigned, and the message under its manager's op id is
  answered. -/
  | moved {id e e' events} (he : mem.map id = some e)
      (hmap : mem'.map = Function.update mem.map id (some e')) (hcall : e'.call = e.call)
      (htemp : e'.tempValue = none) (hop : e'.state.opId = e.state.opId)
      (htrace : mem'.trace = mem.trace ++ .moved id e.call e.tempValue :: events)
      (hevents : ∀ event ∈ events, ∀ f, event.WritesFor f = false)
      (hdefers : mem'.outer.deferMessages =
          Function.update mem.outer.deferMessages e.state.opId none ∨
        (mem'.outer.deferMessages = mem.outer.deferMessages ∧ e.call = none))
      (hcarries : ∀ m, mem'.outer.Carries m → mem.outer.Carries m ∨ m.opResponse = none ∨
        ∃ request expire, mem.outer.deferMessages e.state.opId = some request ∧
          m = updateResponse request.message expire .kOperationOk)

/-- What `update_handle` does to the deferred messages and the messages carried. -/
theorem UpdateHandle.carries {handler : Request} {opId : UInt32} {expire : Int} {q : Rest}
    {r : Option Thrown × Rest}
    (h : UpdateHandle env fails handler .kOperationOk opId expire q r) :
    r.2.mem.deferMessages = Function.update q.mem.deferMessages opId none ∧
      ∀ m, r.2.mem.Carries m → q.mem.Carries m ∨ m.opResponse = none ∨
        ∃ request expire, q.mem.deferMessages opId = some request ∧
          m = updateResponse request.message expire .kOperationOk := by
  cases h with
  | refused hret => exact absurd rfl hret
  | lost hret hdefer =>
      exact ⟨(Function.update_eq_self_iff.mpr hdefer.symm).symm, fun m hm => Or.inl hm⟩
  | @answered request r hret hdefer hr =>
      refine ⟨hr.tables.1, fun m hm => ?_⟩
      rcases hr.carries hm with hm | rfl | hnone
      · exact Or.inl hm
      · exact Or.inr (Or.inr ⟨request, expire, hdefer, rfl⟩)
      · exact Or.inr (Or.inl hnone)

/-- **A callback does one of these to the updates.** -/
theorem RunTimer.fired {call : TimerCall Nat} {r : Option Thrown × Server}
    (h : RunTimer env (serverHooks env fails) s call r) : Fired s.mem r.2.mem := by
  cases h with
  | absent howner he => exact .other (.refl _ _) rfl rfl fun m hm => Or.inl hm
  | idled he =>
      exact .other (SameHeld.update (Or.inl he) rfl rfl (Or.inl rfl)) rfl rfl fun m hm => Or.inl hm
  | @completed cacheId e f s₁ p' r he hs hf hp hr =>
      have hspec : UpdateHandle env fails f .kOperationOk e.state.opId s₁.1.expireTime p'.outer r :=
        .of_invoke hr
      obtain ⟨hdefers, hcarries⟩ := hspec.carries
      subst hp
      have htrace : ((s.completing env cacheId e [] : Server).record
          (.completed cacheId .kOperationOk e.state.opId f (e.tempValue.getD [])
            s₁.1.expireTime)).mem.trace = s.mem.trace ++ .moved cacheId e.call e.tempValue ::
              [.completed cacheId .kOperationOk e.state.opId f (e.tempValue.getD [])
                s₁.1.expireTime] := by
        rw [record_trace, completing_trace, List.append_assoc]
        rfl
      refine .moved he rfl rfl rfl (guarantee_opId env _ _) htrace (fun event hmem g => ?_)
        (Or.inl hdefers) hcarries
      rw [List.mem_singleton.mp hmem]
      rfl
  | noCall he hf =>
      exact .moved he rfl rfl rfl (guarantee_opId env _ _) rfl (fun _ h => nomatch h)
        (Or.inr ⟨rfl, hf⟩) fun m hm => Or.inl hm
  | unbound he hcall =>
      exact .other (SameHeld.update (Or.inl he) rfl rfl (Or.inl (guarantee_opId env _ _))) rfl rfl
        fun m hm => Or.inl hm
  | @foreign ptr r hr =>
      have hspec : TimerHandle fails ptr s.outer r := .of_foreign hr
      exact .other (.refl _ _) rfl hspec.tables.2.1 fun m hm => hspec.carries hm

/-! ## Where it comes from -/

section origins

variable {g f : Request} {late : Prop} {id : UInt64} {e' : CacheElement CacheData Request}
  {event : Event CacheData Request} {opId : UInt32} {m : CacheMessage} {r : CacheOpResponse}

/-- What is held back was held back before the datagram, or is its update. -/
theorem Received.held (h : Received g late mem mem') (he' : mem'.map id = some e')
    (hcall : e'.call = some f) :
    (∃ e, mem.map id = some e ∧ e.call = some f ∧ e'.tempValue = e.tempValue) ∨
      (f = g ∧ id = g.key ∧ e'.tempValue = some g.data) := by
  cases h with
  | other hheld htrace hevents hdefers hcarries => exact Or.inl (hheld.held he' hcall)
  | assigned hupdate hheld htrace hdefers hcarries => exact Or.inl (hheld.held he' hcall)
  | deferred hupdate h0 hmap hcall' htemp hop htrace hdefers hcarries =>
      rw [hmap] at he'
      rcases Lib.Table.of_assign he' with ⟨rfl, rfl⟩ | ⟨-, he⟩
      · exact Or.inr ⟨Option.some.inj (hcall.symm.trans hcall'), rfl, htemp⟩
      · exact Or.inl ⟨e', he, hcall, rfl⟩

/-- What was assigned was assigned before the datagram, or is its update. -/
theorem Received.assigns (h : Received g late mem mem') (hmem : event ∈ mem'.trace)
    (hf : event.Assigns f = true) :
    event ∈ mem.trace ∨ (f = g ∧ event.Stores g.key g.data = true) := by
  cases h with
  | other hheld htrace hevents hdefers hcarries =>
      rw [htrace] at hmem
      refine (List.mem_append.mp hmem).imp_right fun hmem => ?_
      rw [Event.assigns_eq_false (hevents event hmem f)] at hf
      cases hf
  | assigned hupdate hheld htrace hdefers hcarries =>
      rw [htrace] at hmem
      refine (List.mem_append.mp hmem).imp_right fun hmem => ?_
      obtain rfl := List.mem_singleton.mp hmem
      exact ⟨(of_decide_eq_true hf).symm, decide_eq_true ⟨rfl, rfl⟩⟩
  | deferred hupdate h0 hmap hcall htemp hop htrace hdefers hcarries =>
      rw [htrace] at hmem
      refine (List.mem_append.mp hmem).imp_right fun hmem => ?_
      obtain rfl := List.mem_singleton.mp hmem
      cases hf

/-- A datagram rewrites no history. -/
theorem Received.trace_mem (h : Received g late mem mem') : ∀ event ∈ mem.trace, event ∈ mem'.trace := by
  intro event hmem
  cases h with
  | other hheld htrace hevents hdefers hcarries =>
      rw [htrace]
      exact List.mem_append_left _ hmem
  | assigned hupdate hheld htrace hdefers hcarries =>
      rw [htrace]
      exact List.mem_append_left _ hmem
  | deferred hupdate h0 hmap hcall htemp hop htrace hdefers hcarries =>
      rw [htrace]
      exact List.mem_append_left _ hmem

/-- What is deferred was deferred before the datagram, or is its update. -/
theorem Received.defers (h : Received g late mem mem')
    (hf : mem'.outer.deferMessages opId = some f) :
    mem.outer.deferMessages opId = some f ∨
      (f = g ∧ opId = g.low ∧ g.low ≠ 0 ∧ g.message.updateRequest ≠ none) := by
  cases h with
  | other hheld htrace hevents hdefers hcarries => exact Or.inl (hdefers ▸ hf)
  | assigned hupdate hheld htrace hdefers hcarries => exact Or.inl (hdefers ▸ hf)
  | deferred hupdate h0 hmap hcall htemp hop htrace hdefers hcarries =>
      rw [hdefers] at hf
      rcases Lib.Table.of_assign hf with ⟨rfl, rfl⟩ | ⟨-, hf⟩
      · -- `emplace` keeps the message that stands there
        rcases hold : mem.outer.deferMessages g.low with _ | f'
        · exact Or.inr ⟨rfl, rfl, h0, hupdate⟩
        · exact Or.inl rfl
      · exact Or.inl hf

/-- A response that the server carries was carried before the datagram, or answers it: a read, an
update that is told to retry, or one that was assigned. -/
theorem Received.says (h : Received g late mem mem') (hm : mem'.outer.Carries m)
    (hr : m.opResponse = some r) :
    mem.outer.Carries m ∨ (m.opId = g.message.opId ∧ (g.message.readRequest ≠ none ∨
      (g.message.updateRequest ≠ none ∧ (r.result = OpResult.kOperationRetry.code ∨
        r.result = OpResult.kOperationOk.code ∧ ∃ event ∈ mem'.trace, event.Assigns g = true)))) := by
  have hsome : m.opResponse ≠ none := by rw [hr]; exact Option.some_ne_none r
  cases h with
  | other hheld htrace hevents hdefers hcarries =>
      refine (hcarries m hm).imp_right fun hnew => ?_
      obtain ⟨hid, hnew⟩ := hnew.resolve_left hsome
      exact ⟨hid, hnew.imp_right fun ⟨hupdate, hretry⟩ => ⟨hupdate, Or.inl (hretry r hr)⟩⟩
  | @assigned opId expire hupdate hheld htrace hdefers hcarries =>
      refine (hcarries m hm).imp_right fun hnew => ?_
      obtain ⟨hid, hok⟩ := hnew.resolve_left hsome
      refine ⟨hid, Or.inr ⟨hupdate, Or.inr ⟨hok r hr, .updated g.key opId g g.data expire, ?_,
        decide_eq_true rfl⟩⟩⟩
      rw [htrace]
      exact List.mem_append_right _ (List.mem_singleton_self _)
  | deferred hupdate h0 hmap hcall htemp hop htrace hdefers hcarries => exact Or.inl (hcarries m hm)

/-- A datagram that is told to retry is neither assigned nor held back. -/
theorem Received.declines (h : Received g late mem mem') (hm : mem'.outer.Carries m)
    (hr : m.opResponse = some r) (hretry : r.result = OpResult.kOperationRetry.code) :
    mem.outer.Carries m ∨
      ((∀ event ∈ mem'.trace, ∀ f, event.Assigns f = true → event ∈ mem.trace) ∧
        ∀ id e' f, mem'.map id = some e' → e'.call = some f →
          ∃ e, mem.map id = some e ∧ e.call = some f) := by
  have hsome : m.opResponse ≠ none := by rw [hr]; exact Option.some_ne_none r
  cases h with
  | other hheld htrace hevents hdefers hcarries =>
      refine (hcarries m hm).imp_right fun _ => ⟨fun event hmem f hf => ?_, fun id e' f he' hcall => ?_⟩
      · rw [htrace] at hmem
        refine (List.mem_append.mp hmem).resolve_right fun hmem => ?_
        rw [Event.assigns_eq_false (hevents event hmem f)] at hf
        cases hf
      · obtain ⟨e, he, hcall, -⟩ := hheld.held he' hcall
        exact ⟨e, he, hcall⟩
  | assigned hupdate hheld htrace hdefers hcarries =>
      refine Or.inl ((hcarries m hm).resolve_right fun hnew => ?_)
      rw [(hnew.resolve_left hsome).2 r hr] at hretry
      cases hretry
  | deferred hupdate h0 hmap hcall htemp hop htrace hdefers hcarries => exact Or.inl (hcarries m hm)

/-- A callback holds nothing new back. -/
theorem Fired.held (h : Fired mem mem') (he' : mem'.map id = some e') (hcall : e'.call = some f) :
    ∃ e, mem.map id = some e ∧ e.call = some f ∧
      (e'.tempValue = e.tempValue ∨ e'.tempValue = none) := by
  cases h with
  | other hheld htrace hdefers hcarries =>
      obtain ⟨e, he, hcall, htemp⟩ := hheld.held he' hcall
      exact ⟨e, he, hcall, Or.inl htemp⟩
  | moved he hmap hcall' htemp hop htrace hevents hdefers hcarries =>
      rw [hmap] at he'
      rcases Lib.Table.of_assign he' with ⟨rfl, rfl⟩ | ⟨-, he'⟩
      · exact ⟨_, he, hcall' ▸ hcall, Or.inr htemp⟩
      · exact ⟨e', he', hcall, Or.inl rfl⟩

/-- What a callback assigns was held back. -/
theorem Fired.assigns (h : Fired mem mem') (hmem : event ∈ mem'.trace)
    (hf : event.Assigns f = true) :
    event ∈ mem.trace ∨ ∃ id e value, mem.map id = some e ∧ e.call = some f ∧
      e.tempValue = some value ∧ event = .moved id (some f) (some value) := by
  cases h with
  | other hheld htrace hdefers hcarries => exact Or.inl (htrace ▸ hmem)
  | @moved id e e' events he hmap hcall htemp hop htrace hevents hdefers hcarries =>
      rw [htrace] at hmem
      refine (List.mem_append.mp hmem).imp_right fun hmem => ?_
      rcases List.mem_cons.mp hmem with rfl | hmem
      · obtain ⟨hcall', hheld⟩ := assigns_moved.mp hf
        obtain ⟨value, htemp'⟩ := Option.ne_none_iff_exists'.mp hheld
        exact ⟨id, e, value, he, hcall', htemp', by rw [hcall', htemp']⟩
      · rw [Event.assigns_eq_false (hevents event hmem f)] at hf
        cases hf

/-- A callback rewrites no history. -/
theorem Fired.trace_mem (h : Fired mem mem') : ∀ event ∈ mem.trace, event ∈ mem'.trace := by
  intro event hmem
  cases h with
  | other hheld htrace hdefers hcarries => rwa [htrace]
  | moved he hmap hcall htemp hop htrace hevents hdefers hcarries =>
      rw [htrace]
      exact List.mem_append_left _ hmem

/-- A callback defers nothing. -/
theorem Fired.defers (h : Fired mem mem') (hf : mem'.outer.deferMessages opId = some f) :
    mem.outer.deferMessages opId = some f := by
  cases h with
  | other hheld htrace hdefers hcarries => exact hdefers ▸ hf
  | moved he hmap hcall htemp hop htrace hevents hdefers hcarries =>
      rcases hdefers with hdefers | ⟨hdefers, -⟩
      · rw [hdefers] at hf
        exact (Lib.Table.of_erase hf).2
      · exact hdefers ▸ hf

/-- A response that the server carries was carried before the callback, or answers what stands
under the op id of the element whose update is assigned. -/
theorem Fired.says (h : Fired mem mem') (hm : mem'.outer.Carries m) (hr : m.opResponse = some r) :
    mem.outer.Carries m ∨ ∃ id e request expire, mem.map id = some e ∧
      .moved id e.call e.tempValue ∈ mem'.trace ∧
      mem.outer.deferMessages e.state.opId = some request ∧
      m = updateResponse request.message expire .kOperationOk := by
  have hsome : m.opResponse ≠ none := by rw [hr]; exact Option.some_ne_none r
  cases h with
  | other hheld htrace hdefers hcarries => exact Or.inl ((hcarries m hm).resolve_right hsome)
  | @moved id e e' events he hmap hcall htemp hop htrace hevents hdefers hcarries =>
      refine (hcarries m hm).imp_right fun hnew => ?_
      obtain ⟨request, expire, hrequest, hmessage⟩ := hnew.resolve_left hsome
      refine ⟨id, e, request, expire, he, ?_, hrequest, hmessage⟩
      rw [htrace]
      exact List.mem_append_right _ List.mem_cons_self

end origins

/-! ## Keys and data -/

/-- Updates are held back and assigned under their own key, with their own data. -/
structure Genuine (mem : CenterMem CacheData Request ServerMem) : Prop where
  held : ∀ id e g, mem.map id = some e → e.call = some g →
    id = g.key ∧ ∀ value, e.tempValue = some value → value = g.data
  assigned : ∀ event ∈ mem.trace, ∀ g : Request, event.Assigns g = true →
    event.Stores g.key g.data = true

/-- At the start nothing is held back. -/
theorem Genuine.initial : Genuine Server.initial.mem :=
  ⟨fun _ _ _ h => (nomatch h), fun _ h => (nomatch h)⟩

/-- A datagram brings its own key and its own data. -/
theorem Genuine.received {g : Request} {late : Prop} (h : Genuine mem)
    (hr : Received g late mem mem') : Genuine mem' where
  held id e' f he' hcall := by
    rcases hr.held he' hcall with ⟨e, he, hcall, htemp⟩ | ⟨rfl, hid, htemp⟩
    · rw [htemp]
      exact h.held id e f he hcall
    · rw [htemp]
      exact ⟨hid, fun value hvalue => (Option.some.inj hvalue).symm⟩
  assigned event hmem f hf := by
    rcases hr.assigns hmem hf with hmem | ⟨rfl, hstores⟩
    · exact h.assigned event hmem f hf
    · exact hstores

/-- A completion assigns what was held back. -/
theorem Genuine.fired (h : Genuine mem) (hr : Fired mem mem') : Genuine mem' where
  held id e' g he' hcall := by
    obtain ⟨e, he, hcall, htemp⟩ := hr.held he' hcall
    obtain ⟨hid, hdata⟩ := h.held id e g he hcall
    rcases htemp with htemp | htemp
    · rw [htemp]
      exact ⟨hid, hdata⟩
    · rw [htemp]
      exact ⟨hid, fun _ hvalue => nomatch hvalue⟩
  assigned event hmem g hg := by
    rcases hr.assigns hmem hg with hmem | ⟨id, e, value, he, hcall, htemp, rfl⟩
    · exact h.assigned event hmem g hg
    · obtain ⟨hid, hdata⟩ := h.held id e g he hcall
      exact decide_eq_true ⟨hid, hdata value htemp⟩

/-! ## What was sent -/

/-- What was sent stays sent. -/
theorem OnReceive.sent_mem {sender : Address} {data : Option CacheMessage}
    {r : Option Thrown × Server} (hr : OnReceive env fails sender s data r) :
    ∀ x ∈ s.mem.outer.sent, x ∈ r.2.mem.outer.sent := by
  cases hr with
  | ignored he => exact fun x hx => hx
  | @acked m hm =>
      have hspec := unregisterWaitAck_spec m.opId (s.setPeer sender).outer
      generalize unregisterWaitAck m.opId (s.setPeer sender).outer = q at hspec
      cases hspec with
      | absent hmap => exact fun x hx => hx
      | lost hmap hack => exact fun x hx => hx
      | erased hmap hack => exact fun x hx => hx
  | @read m read ret out s₁ s₂ r hm hread hop hs₂ hr =>
      have houter : s₁.mem.outer = _ := hop.outer
      intro x hx
      apply hr.tables.2.2.2 x
      subst hs₂
      rcases out with _ | ⟨expire, value⟩ <;>
        simp only [outer_mem, Proc.setScratch, setOuter_outer, houter] <;> exact hx
  | updateThrew hm hupdate hop =>
      rw [hop.outer]
      exact fun x hx => hx
  | @deferred m update expire s₁ hm hupdate hop =>
      have houter : s₁.mem.outer = _ := hop.outer
      rw [emplaceDefer_eq]
      simp only [setOuter_outer, houter]
      exact fun x hx => hx
  | @updated m update ret expire s₁ r hm hupdate hret hop hr =>
      have houter : s₁.mem.outer = _ := hop.outer
      intro x hx
      apply hr.tables.2.2.2 x
      rw [outer_mem, houter]
      exact hx

/-- What was sent stays sent when a timer fires. -/
theorem RunTimer.sent_mem {call : TimerCall Nat} {r : Option Thrown × Server}
    (h : RunTimer env (serverHooks env fails) s call r) :
    ∀ x ∈ s.mem.outer.sent, x ∈ r.2.mem.outer.sent := by
  cases h with
  | absent howner he => exact fun x hx => hx
  | idled he => exact fun x hx => hx
  | @completed cacheId e f s₁ p' r he hs hf hp hr =>
      have hspec : UpdateHandle env fails f .kOperationOk e.state.opId s₁.1.expireTime p'.outer r :=
        .of_invoke hr
      subst hp
      cases hspec with
      | refused hret => exact fun x hx => hx
      | lost hret hdefer => exact fun x hx => hx
      | answered hret hdefer hr => exact hr.tables.2.2.2
  | noCall he hf => exact fun x hx => hx
  | unbound he hcall => exact fun x hx => hx
  | @foreign ptr r hr =>
      have hspec : TimerHandle fails ptr s.outer r := .of_foreign hr
      exact hspec.tables.2.2.2.2

/-! ## Turns -/

/-- Of a server's memory, all but the log. -/
theorem catch_mem {P : CenterMem CacheData Request ServerMem → Prop}
    (hlog : ∀ mem log, P mem → P { mem with outer := { mem.outer with log := log } })
    {r : Option Thrown × Server} (h : P r.2.mem) : P (Server.catch r).mem := by
  unfold Server.catch
  split
  · exact h
  · exact hlog _ _ h

/-- **The invariant rule of a turn** for what does not depend on the log: what the datagram of a
turn and every callback keep, the turn keeps. -/
theorem Server.step_mem {P Q : CenterMem CacheData Request ServerMem → Prop}
    (hlog : ∀ mem log, Q mem → Q { mem with outer := { mem.outer with log := log } })
    {op : ServerOp} (hstep : s.step env fails op = some s')
    (hreceive : ∀ sender data r, op = .receive sender data → OnReceive env fails sender s data r →
      P s.mem → Q r.2.mem)
    (htick : ∀ fuel, op = .tick fuel → P s.mem → Q s.mem)
    (hrun : ∀ (p : Server) call r, Q p.mem → RunTimer env (serverHooks env fails) p call r →
      Q r.2.mem) (h : P s.mem) : Q s'.mem := by
  cases op with
  | receive sender data =>
      cases hstep
      exact catch_mem hlog (hreceive sender data _ rfl (onReceive_spec sender data s) h)
  | tick fuel =>
      obtain ⟨r, hr, rfl⟩ := Option.map_eq_some_iff.mp hstep
      exact catch_mem hlog (tickLoop_mem hrun hr (htick fuel rfl h))

/-- **The invariant rule of a `tick`** for what depends on the updates only. -/
theorem Server.tick_mem {Q : CenterMem CacheData Request ServerMem → Prop}
    (hlog : ∀ mem log, Q mem → Q { mem with outer := { mem.outer with log := log } })
    (hfired : ∀ mem mem', Q mem → Fired mem mem' → Q mem') {fuel : Nat}
    (hstep : s.step env fails (.tick fuel) = some s') (h : Q s.mem) : Q s'.mem :=
  Server.step_mem hlog hstep (fun _ _ _ hop => nomatch hop) (fun _ _ h => h)
    (fun _ _ _ h hr => hfired _ _ h hr.fired) h

/-- **The rule of a datagram** for what depends on the updates only; `data` is the message, or
does not parse. -/
theorem Server.receive_mem {Q : CenterMem CacheData Request ServerMem → Prop}
    (hlog : ∀ mem log, Q mem → Q { mem with outer := { mem.outer with log := log } })
    {g : Request} {parses : Bool}
    (hstep : s.step env fails
      (.receive g.requester (if parses then some g.message else none)) = some s')
    (h : ∀ mem', Received g (g.Late env s) s.mem mem' → Q mem') : Q s'.mem := by
  cases hstep
  refine catch_mem hlog (h _ ((onReceive_spec _ _ s).received fun m hm => ?_))
  cases parses <;> cases hm
  rfl

/-- A turn takes nothing back that was sent. -/
theorem Server.step_sent_mem {op : ServerOp} (hstep : s.step env fails op = some s') :
    ∀ x ∈ s.mem.outer.sent, x ∈ s'.mem.outer.sent := by
  refine Server.step_mem (P := fun mem => mem = s.mem)
    (Q := fun mem => ∀ x ∈ s.mem.outer.sent, x ∈ mem.outer.sent) (fun _ _ h => h) hstep
    (fun _ _ _ _ hr _ => hr.sent_mem) (fun _ _ _ => fun x hx => hx)
    (fun p call r h hr x hx => hr.sent_mem x (h x hx)) rfl

end CacheSystem

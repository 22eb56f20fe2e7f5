import CacheSystem.Promises

/-!
# How often a request is answered

A response is sent when it is built, and once more when its timer fires before it is acknowledged.
A copy of a request that is answered already gets an answer of its own, or waits in
`defer_messages_` for one.

* `ServerMem.spent` : what was sent under an op id, and what may still be.
* `Budgeted` : it is two datagrams for each copy of the request that reached the server.
* `sent_le_copies` : so no more are sent, in every run.

The op id 0 is not covered: it is that of a response whose op id waited already, and there is no
bound on how often one of those is sent.
-/

namespace CacheSystem

variable {env : Env} {fails : Nat → Bool} {opId : UInt64} {n n' : Nat} {mem mem' : ServerMem}
  {q : Rest} {s s' : Server}

/-! ## What is spent -/

/-- How often the server sent a message with the op id. -/
def ServerMem.sentUnder (opId : UInt64) (mem : ServerMem) : Nat :=
  mem.sent.countP fun x => x.message.opId = opId

/-- A response with the op id waits for its acknowledgement, and may be sent once more. -/
def ServerMem.waits (opId : UInt64) (mem : ServerMem) : Nat :=
  (mem.map opId).elim 0 fun _ => 1

/-- A message with the op id is deferred. -/
def ServerMem.parks (opId : UInt64) (mem : ServerMem) : Nat :=
  (mem.deferMessages opId.toUInt32).elim 0 fun g => if g.message.opId = opId then 1 else 0

/-- What was sent under the op id, and what may still be. -/
def ServerMem.spent (opId : UInt64) (mem : ServerMem) : Nat :=
  mem.sentUnder opId + mem.waits opId + 2 * mem.parks opId

/-- Two datagrams for each of `n` copies are enough for the op id. -/
structure Budgeted (opId : UInt64) (n : Nat) (mem : ServerMem) : Prop where
  /-- Only the response that waits has the op id. -/
  live : ∀ ptr ack, mem.acks ptr = some ack → ack.message.opId = opId →
    ack.opId = opId ∧ mem.map opId = some ptr
  keyed : ∀ low g, mem.deferMessages low = some g → g.message.opId = opId → low = opId.toUInt32
  spent : mem.spent opId ≤ 2 * n

/-- At the start nothing was sent. -/
theorem Budgeted.initial (opId : UInt64) : Budgeted opId 0 {} :=
  ⟨fun _ _ h => (nomatch h), fun _ _ h => (nomatch h), le_rfl⟩

/-- More copies allow for more datagrams. -/
theorem Budgeted.mono (h : Budgeted opId n mem) (hn : n ≤ n') : Budgeted opId n' mem :=
  ⟨h.live, h.keyed, h.spent.trans (Nat.mul_le_mul_left 2 hn)⟩

/-- Nothing is sent and nothing is held. -/
theorem Budgeted.of_same (h : Budgeted opId n mem) (hacks : mem'.acks = mem.acks)
    (hmap : mem'.map = mem.map) (hdefers : mem'.deferMessages = mem.deferMessages)
    (hsent : mem'.sent = mem.sent) : Budgeted opId n mem' := by
  refine ⟨by rw [hacks, hmap]; exact h.live, by rw [hdefers]; exact h.keyed, ?_⟩
  have hspent : mem'.spent opId = mem.spent opId := by
    simp only [ServerMem.spent, ServerMem.sentUnder, ServerMem.waits, ServerMem.parks, hsent, hmap,
      hdefers]
  rw [hspent]
  exact h.spent

/-! ## Sending -/

/-- One datagram goes out, if none throws. -/
theorem DoSend.sentUnder {message : CacheMessage} {requester : Address}
    {r : Option Thrown × Rest} (hr : DoSend fails message requester q r) (opId : UInt64) :
    r.2.mem.sentUnder opId =
      q.mem.sentUnder opId + if r.1 = none ∧ message.opId = opId then 1 else 0 := by
  cases hr with
  | empty hempty => simp
  | failed hfails => simp [ServerMem.sentUnder]
  | sent hempty => simp [ServerMem.sentUnder, List.countP_append, List.countP_singleton]

/-- A send that succeeds spends one datagram under the op id of its message. -/
theorem DoSend.spent {message : CacheMessage} {requester : Address}
    {r : Option Thrown × Rest} (hr : DoSend fails message requester q r) (opId : UInt64) :
    r.2.mem.spent opId = q.mem.spent opId + if r.1 = none ∧ message.opId = opId then 1 else 0 := by
  obtain ⟨-, hmap, -, -, hdefers, -, -⟩ := hr.tables
  simp only [ServerMem.spent, hr.sentUnder, ServerMem.waits, ServerMem.parks, hmap, hdefers]
  omega

/-- A datagram under another op id costs nothing. -/
theorem Budgeted.doSend {message : CacheMessage} {requester : Address} {r : Option Thrown × Rest}
    (h : Budgeted opId n q.mem) (hr : DoSend fails message requester q r)
    (hne : r.1 = none → message.opId ≠ opId) : Budgeted opId n r.2.mem := by
  obtain ⟨-, hmap, hacks, -, hdefers, -, -⟩ := hr.tables
  refine ⟨by rw [hacks, hmap]; exact h.live, by rw [hdefers]; exact h.keyed, ?_⟩
  rw [hr.spent, if_neg fun hsent => hne hsent.1 hsent.2]
  exact h.spent

/-! ## Answering -/

/-- **A response costs two datagrams**: the one that is sent, and the one for which it waits. -/
theorem Budgeted.answer (hid : opId ≠ 0) (h : Budgeted opId n q.mem) {response : CacheMessage}
    {requester : Address} {r : Option Thrown × Rest}
    (hr : Answer env fails response requester q r) :
    Budgeted opId (n + if response.opId = opId then 1 else 0) r.2.mem := by
  cases hr with
  | @registered header r hheader hmap hr =>
      have hresponse : response.opId = header.opId := by
        rw [CacheMessage.opId, hheader, Option.getD_some]
      obtain ⟨-, hmap', hacks, -, hdefers, -, -⟩ := hr.tables
      have hspent := h.spent
      refine ⟨fun ptr ack hack hmessage => ?_, by rw [hdefers]; exact h.keyed, ?_⟩
      · rw [hacks, registerAck_acks] at hack
        rw [hmap', registerAck_map]
        rcases Lib.Table.of_assign hack with ⟨rfl, rfl⟩ | ⟨-, hack⟩
        · have hsame : header.opId = opId := hresponse.symm.trans hmessage
          exact ⟨hsame, by rw [hsame, Function.update_self]⟩
        · obtain ⟨hown, hentry⟩ := h.live ptr ack hack hmessage
          have hne : opId ≠ header.opId := by
            rintro rfl
            rw [hmap] at hentry
            cases hentry
          exact ⟨hown, by rw [Function.update_of_ne hne, hentry]⟩
      · rw [hr.spent, hresponse]
        by_cases hsame : header.opId = opId
        · subst hsame
          have hwaits : q.mem.waits header.opId = 0 := by
            rw [ServerMem.waits, hmap, Option.elim_none]
          have hone : (q.registerAck env header response requester).mem.waits header.opId = 1 := by
            rw [ServerMem.waits, registerAck_map, Function.update_self]
            rfl
          have hrest : (q.registerAck env header response requester).mem.spent header.opId =
              q.mem.spent header.opId + 1 := by
            simp only [ServerMem.spent, hone, hwaits]
            show q.mem.sentUnder header.opId + 1 + 2 * q.mem.parks header.opId = _
            omega
          rw [hrest, if_pos rfl]
          split <;> omega
        · have hrest : (q.registerAck env header response requester).mem.spent opId =
              q.mem.spent opId := by
            simp only [ServerMem.spent, ServerMem.waits, registerAck_map,
              Function.update_of_ne (Ne.symm hsame)]
            rfl
          rw [hrest, if_neg fun hsent => hsame hsent.2, if_neg hsame]
          exact hspent
  | @taken header ptr message r hheader hmap hmessage hr =>
      have hzero : message.opId = 0 := by
        rcases hmessage with rfl | rfl <;> rfl
      have hrefused : Budgeted opId n (q.refuseAck env header message requester).mem := by
        refine ⟨fun ptr ack hack hmessage => ?_, h.keyed, h.spent⟩
        rw [refuseAck_acks] at hack
        rcases Lib.Table.of_assign hack with ⟨-, rfl⟩ | ⟨-, hack⟩
        · exact absurd (hmessage.symm.trans hzero) hid
        · exact h.live ptr ack hack hmessage
      exact (hrefused.doSend hr fun _ hmessage => hid (hmessage.symm.trans hzero)).mono
        (Nat.le_add_right _ _)

/-- An entry goes, and its object is destroyed. -/
theorem Budgeted.eraseAck (hid : opId ≠ 0) (h : Budgeted opId n q.mem) {id : UInt64} {ptr : Nat}
    (hmap : q.mem.map id = some ptr) : Budgeted opId n (q.eraseAck id ptr).mem := by
  have hwaits : (q.eraseAck id ptr).mem.waits opId ≤ q.mem.waits opId := by
    simp only [ServerMem.waits, Proc.eraseAck]
    by_cases hsame : opId = id
    · rw [hsame, Function.update_self]
      exact Nat.zero_le _
    · rw [Function.update_of_ne hsame]
  refine ⟨fun ptr' ack hack hmessage => ?_, h.keyed, ?_⟩
  · simp only [Proc.eraseAck] at hack ⊢
    by_cases hptr : ptr' = ptr
    · rw [hptr, Function.update_self] at hack
      obtain ⟨ack', -, rfl⟩ := Option.map_eq_some_iff.mp hack
      exact absurd hmessage.symm hid
    · rw [Function.update_of_ne hptr] at hack
      obtain ⟨hown, hentry⟩ := h.live ptr' ack hack hmessage
      have hne : opId ≠ id := by
        rintro rfl
        rw [hmap] at hentry
        exact hptr (Option.some.inj hentry).symm
      exact ⟨hown, by rw [Function.update_of_ne hne, hentry]⟩
  · have hspent := h.spent
    simp only [ServerMem.spent] at hspent ⊢
    show q.mem.sentUnder opId + _ + 2 * q.mem.parks opId ≤ _
    omega

/-- A response that is released costs nothing further. -/
theorem Budgeted.unregister (hid : opId ≠ 0) (h : Budgeted opId n q.mem) {id : UInt64} {r : Rest}
    (hr : Unregister id q r) : Budgeted opId n r.mem := by
  cases hr with
  | absent hmap => exact h
  | lost hmap hack => exact (h.eraseAck hid hmap).of_same rfl rfl rfl rfl
  | erased hmap hack => exact (h.eraseAck hid hmap).of_same rfl rfl rfl rfl

/-! ## Callbacks -/

/-- **The timer of a response** spends the datagram for which it waited: the entry goes. -/
theorem Budgeted.timerHandle (hid : opId ≠ 0) (h : Budgeted opId n q.mem) {ptr : Nat}
    {r : Option Thrown × Rest} (hr : TimerHandle fails ptr q r) : Budgeted opId n r.2.mem := by
  have hnoted : ∀ {q₁ : Rest} {P : Prop}, q₁ = q ∧ P ∨ q₁ = q.note (.danglingCall ptr) →
      Budgeted opId n q₁.mem ∧ q₁.mem.map = q.mem.map := by
    rintro q₁ P (⟨rfl, -⟩ | rfl)
    · exact ⟨h, rfl⟩
    · exact ⟨h.of_same rfl rfl rfl rfl, rfl⟩
  cases hr with
  | absent hack => exact h
  | threw hack hq hr he =>
      refine (hnoted hq).1.doSend hr fun hnone => ?_
      rw [hnone] at he
      cases he
  | @unknown ack q₁ r hack hq hr he hmap =>
      refine Budgeted.doSend (r := r) (hnoted hq).1 hr fun _ hmessage => ?_
      obtain ⟨rfl, hentry⟩ := h.live ptr ack hack hmessage
      rw [hmap] at hentry
      cases hentry
  | @expired ack q₁ r ptr' hack hq hr he hmap =>
      obtain ⟨hq₁, hmap₁⟩ := hnoted hq
      have hmapr : r.2.mem.map ack.opId = some ptr' := by rw [hr.tables.2.1, hmap₁, hmap]
      by_cases hmessage : ack.message.opId = opId
      · -- the entry of the op id is the one that goes
        obtain ⟨rfl, hentry⟩ := h.live ptr ack hack hmessage
        have hsent : Budgeted ack.opId (n + 1) r.2.mem := by
          obtain ⟨-, hmap', hacks, -, hdefers, -, -⟩ := hr.tables
          refine ⟨by rw [hacks, hmap']; exact hq₁.live, by rw [hdefers]; exact hq₁.keyed, ?_⟩
          have hspent := hq₁.spent
          rw [hr.spent]
          split <;> omega
        refine ⟨(hsent.eraseAck hid hmapr).live, hsent.keyed, ?_⟩
        have hspent := hq₁.spent
        have hone := hr.spent ack.opId
        have hwaits : r.2.mem.waits ack.opId = 1 := by
          rw [ServerMem.waits, hmapr, Option.elim_some]
        have hgone : (r.2.eraseAck ack.opId ptr').mem.waits ack.opId = 0 := by
          simp [ServerMem.waits, Proc.eraseAck]
        have hrest : (r.2.eraseAck ack.opId ptr').mem.spent ack.opId + 1 =
            r.2.mem.spent ack.opId := by
          simp only [ServerMem.spent, hwaits, hgone]
          show r.2.mem.sentUnder ack.opId + 0 + 2 * r.2.mem.parks ack.opId + 1 = _
          omega
        have hle : (if r.1 = none ∧ ack.message.opId = ack.opId then 1 else 0) ≤ 1 := by
          split <;> omega
        show (r.2.eraseAck ack.opId ptr').mem.spent ack.opId ≤ 2 * n
        omega
      · exact (hq₁.doSend hr fun _ => hmessage).eraseAck hid hmapr

/-- A deferred message is taken to be answered. -/
theorem Budgeted.takeDefer (h : Budgeted opId n q.mem) (handler : Request) {request : Request}
    {low : UInt32} (hdefer : q.mem.deferMessages low = some request) :
    Budgeted opId (n - if request.message.opId = opId then 1 else 0) (q.takeDefer handler low).mem ∧
      (if request.message.opId = opId then 1 else 0) ≤ n := by
  have hspent := h.spent
  have hkeyed : ∀ low' g, (q.takeDefer handler low).mem.deferMessages low' = some g →
      g.message.opId = opId → low' = opId.toUInt32 := fun low' g hg =>
    h.keyed low' g (Lib.Table.of_erase hg).2
  by_cases hrequest : request.message.opId = opId
  · obtain rfl := h.keyed low request hdefer hrequest
    have hparks : q.mem.parks opId = 1 := by
      rw [ServerMem.parks, hdefer, Option.elim_some, if_pos hrequest]
    have hnone : (q.takeDefer handler opId.toUInt32).mem.parks opId = 0 := by
      simp [ServerMem.parks, Proc.takeDefer]
    have hrest : (q.takeDefer handler opId.toUInt32).mem.spent opId + 2 = q.mem.spent opId := by
      simp only [ServerMem.spent, hparks, hnone]
      show q.mem.sentUnder opId + q.mem.waits opId + 2 * 0 + 2 = _
      omega
    rw [if_pos hrequest]
    exact ⟨⟨h.live, hkeyed, by omega⟩, by omega⟩
  · have hparks : (q.takeDefer handler low).mem.parks opId ≤ q.mem.parks opId := by
      simp only [ServerMem.parks, Proc.takeDefer]
      by_cases hlow : opId.toUInt32 = low
      · rw [hlow, Function.update_self]
        exact Nat.zero_le _
      · rw [Function.update_of_ne hlow]
    have hrest : (q.takeDefer handler low).mem.spent opId ≤ q.mem.spent opId := by
      simp only [ServerMem.spent] at *
      show q.mem.sentUnder opId + q.mem.waits opId + _ ≤ _
      omega
    rw [if_neg hrequest]
    exact ⟨⟨h.live, hkeyed, by simpa using hrest.trans hspent⟩, Nat.zero_le _⟩

/-- The completion of a parked update is paid for by its copy. -/
theorem Budgeted.updateHandle (hid : opId ≠ 0) (h : Budgeted opId n q.mem) {handler : Request}
    {ret : OpResult} {low : UInt32} {expire : Int} {r : Option Thrown × Rest}
    (hr : UpdateHandle env fails handler ret low expire q r) : Budgeted opId n r.2.mem := by
  cases hr with
  | refused hret => exact h
  | lost hret hdefer => exact h.of_same rfl rfl rfl rfl
  | @answered request r hret hdefer hr =>
      obtain ⟨htaken, hle⟩ := h.takeDefer handler hdefer
      have hanswered := htaken.answer hid hr
      have hopId : (updateResponse request.message expire ret).opId = request.message.opId := rfl
      rw [hopId, Nat.sub_add_cancel hle] at hanswered
      exact hanswered

/-- **What a callback sends was paid for.** -/
theorem Budgeted.runTimer (hid : opId ≠ 0) (h : Budgeted opId n s.mem.outer) {call : TimerCall Nat}
    {r : Option Thrown × Server} (hr : RunTimer env (serverHooks env fails) s call r) :
    Budgeted opId n r.2.mem.outer := by
  cases hr with
  | absent howner he => exact h
  | idled he => exact h
  | @completed cacheId e f s₁ p' r he hs hf hp hr =>
      have hspec : UpdateHandle env fails f .kOperationOk e.state.opId s₁.1.expireTime p'.outer r :=
        .of_invoke hr
      subst hp
      exact Budgeted.updateHandle (r := r) hid (h.of_same rfl rfl rfl rfl) hspec
  | noCall he hf => exact h
  | unbound he hcall => exact h
  | @foreign ptr r hr => exact Budgeted.timerHandle (q := s.outer) hid h (.of_foreign hr)

/-! ## Datagrams -/

/-- An update that is deferred waits with the budget of its copy, or is dropped for one that waits. -/
theorem Budgeted.emplaceDefer (h : Budgeted opId n mem) (request : Request) :
    Budgeted opId (n + if request.message.opId = opId then 1 else 0) { mem with
      deferMessages := Function.update mem.deferMessages request.message.opId.toUInt32
        (some ((mem.deferMessages request.message.opId.toUInt32).getD request)) } := by
  have hspent := h.spent
  refine ⟨h.live, fun low g hg hmessage => ?_, ?_⟩
  · rcases Lib.Table.of_assign hg with ⟨rfl, hnew⟩ | ⟨-, hg⟩
    · rcases hold : mem.deferMessages request.message.opId.toUInt32 with _ | g'
      · rw [hold, Option.getD_none] at hnew
        rw [← hmessage, hnew]
      · rw [hold, Option.getD_some] at hnew
        exact h.keyed _ g (by rw [hold, hnew]) hmessage
    · exact h.keyed low g hg hmessage
  · have hparks : ServerMem.parks opId { mem with
        deferMessages := Function.update mem.deferMessages request.message.opId.toUInt32
          (some ((mem.deferMessages request.message.opId.toUInt32).getD request)) } ≤
        mem.parks opId + if request.message.opId = opId then 1 else 0 := by
      simp only [ServerMem.parks]
      by_cases hlow : opId.toUInt32 = request.message.opId.toUInt32
      · rw [hlow, Function.update_self]
        rcases mem.deferMessages request.message.opId.toUInt32 with _ | g
        · simp
        · simp
      · rw [Function.update_of_ne hlow]
        exact Nat.le_add_right _ _
    simp only [ServerMem.spent] at hspent ⊢
    show mem.sentUnder opId + mem.waits opId + _ ≤ _
    omega

/-- **A datagram pays for its answer**, if it asks for something under the op id. -/
theorem Budgeted.onReceive (hid : opId ≠ 0) (h : Budgeted opId n s.mem.outer) {sender : Address}
    {data : Option CacheMessage} {r : Option Thrown × Server}
    (hr : OnReceive env fails sender s data r) (hn : n ≤ n')
    (hcopy : ∀ m, data = some m → ¬ Request.IsAck ⟨m, sender⟩ → m.opId = opId → n < n') :
    Budgeted opId n' r.2.mem.outer := by
  have hpays : ∀ m, data = some m → ¬ Request.IsAck ⟨m, sender⟩ →
      n + (if m.opId = opId then 1 else 0) ≤ n' := by
    intro m hm hask
    split
    · rename_i hopId
      exact hcopy m hm hask hopId
    · exact hn
  cases hr with
  | ignored he =>
      have hpeer : Budgeted opId n (s.setPeer sender).mem.outer := h.of_same rfl rfl rfl rfl
      exact hpeer.mono hn
  | @acked m hm =>
      have hpeer : Budgeted opId n (s.setPeer sender).outer.mem := h.of_same rfl rfl rfl rfl
      exact (hpeer.unregister hid (unregisterWaitAck_spec m.opId _)).mono hn
  | @read m read ret out s₁ s₂ r hm hread hop hs₂ hr =>
      have houter : s₁.mem.outer = _ := hop.outer
      have hscratch : Budgeted opId n s₂.outer.mem := by
        subst hs₂
        rcases out with _ | ⟨expire, value⟩ <;> refine h.of_same ?_ ?_ ?_ ?_ <;>
          simp only [outer_mem, Proc.setScratch, setOuter_outer, houter] <;> rfl
      refine (hscratch.answer hid hr).mono (hpays m rfl fun hack => ?_)
      rw [hack.1] at hread
      cases hread
  | @updateThrew m update e s₁ hm hupdate hop =>
      have houter : s₁.mem.outer = _ := hop.outer
      have hpeer : Budgeted opId n (s.setPeer sender).mem.outer := h.of_same rfl rfl rfl rfl
      rw [houter]
      exact hpeer.mono hn
  | @deferred m update expire s₁ hm hupdate hop =>
      have houter : s₁.mem.outer = _ := hop.outer
      have hpeer : Budgeted opId n s₁.mem.outer := by
        rw [houter]
        exact h.of_same rfl rfl rfl rfl
      have hdeferred := hpeer.emplaceDefer ⟨m, sender⟩
      rw [emplaceDefer_eq, setOuter_outer]
      refine hdeferred.mono (hpays m rfl fun hack => ?_)
      rw [hack.2] at hupdate
      cases hupdate
  | @updated m update ret expire s₁ r hm hupdate hret hop hr =>
      have houter : s₁.mem.outer = _ := hop.outer
      have hpeer : Budgeted opId n s₁.outer.mem := by
        rw [outer_mem, houter]
        exact h.of_same rfl rfl rfl rfl
      refine (hpeer.answer hid hr).mono (hpays m rfl fun hack => ?_)
      rw [hack.2] at hupdate
      cases hupdate

/-! ## Runs -/

instance : DecidablePred Request.IsAck := fun _ => inferInstanceAs (Decidable (_ ∧ _))

/-- The datagrams that asked the server for something under the op id. -/
def askedUnder (opId : UInt64) (delivered : List Request) : Nat :=
  delivered.countP fun g => ¬ g.IsAck ∧ g.message.opId = opId

variable {ok : System → SystemOp → Prop} {t : System}

/-- A turn of the server in which no budget is paid in. -/
theorem Budgeted.tick (hid : opId ≠ 0) (h : Budgeted opId n s.mem.outer) {fuel : Nat}
    (hstep : s.step env fails (.tick fuel) = some s') : Budgeted opId n s'.mem.outer :=
  Server.step_mem (P := fun mem => Budgeted opId n mem.outer)
    (Q := fun mem => Budgeted opId n mem.outer) (fun _ _ h => h.of_same rfl rfl rfl rfl) hstep
    (fun _ _ _ hop => nomatch hop) (fun _ _ h => h) (fun _ _ _ h hr => h.runTimer hid hr) h

/-- **In every run the copies pay for what is sent.** -/
theorem SystemReachable.budgeted (hid : opId ≠ 0) (h : SystemReachable env fails ok t) :
    Budgeted opId (askedUnder opId t.delivered) t.server.mem.outer := by
  refine h.server_turns (P := fun delivered server =>
    Budgeted opId (askedUnder opId delivered) server.mem.outer) (.initial opId)
    (fun t g parses _ _ server _ ht hstep => ?_) fun _ _ _ _ ht hstep => ht.tick hid hstep
  have hasked : askedUnder opId (t.delivered ++ [g]) =
      askedUnder opId t.delivered + if ¬ g.IsAck ∧ g.message.opId = opId then 1 else 0 := by
    simp only [askedUnder, List.countP_append, List.countP_singleton, decide_eq_true_eq]
  cases hstep
  refine catch_mem (P := fun mem => Budgeted opId (askedUnder opId (t.delivered ++ [g])) mem.outer)
    (fun _ _ h => h.of_same rfl rfl rfl rfl) ?_
  refine ht.onReceive hid (onReceive_spec _ _ _) (by omega) fun m hm hask hopId => ?_
  obtain rfl : g.message = m := by
    cases parses <;> cases hm
    rfl
  rw [hasked, if_pos ⟨hask, hopId⟩]
  exact Nat.lt_succ_self _

/-- What asks under the op id of a call is a copy of its request. -/
theorem Traffic.askedUnder {c : Call} (h : Traffic t) (hc : c ∈ t.calls) :
    askedUnder c.opId t.delivered ≤ t.delivered.count c.request := by
  refine List.countP_mono_left fun g hg hasked => ?_
  obtain ⟨hask, hopId⟩ := of_decide_eq_true hasked
  rw [h.alone hc g hg hask (hopId.trans c.request_opId.symm)]
  exact beq_self_eq_true _

/-- **A copy of a request that reaches the server is answered twice at most**, in every run of any
number of clients and the server: the response goes out when it is built, and once more if it is not
acknowledged in time, however often the timers and the sends fail. -/
theorem sent_le_copies (h : SystemReachable env fails AnyStep t) {c : Call} (hc : c ∈ t.calls)
    (hid : c.opId ≠ 0) :
    t.server.mem.outer.sentUnder c.opId ≤ 2 * t.delivered.count c.request := by
  have hspent : t.server.mem.outer.spent c.opId ≤ 2 * askedUnder c.opId t.delivered :=
    (h.budgeted hid).spent
  have hasked := h.traffic.askedUnder hc
  rw [ServerMem.spent] at hspent
  omega

/-- A response that is not acknowledged in time, as a case of `sent_le_copies`. -/
theorem sent_le_copies_late : ∃ t : System, t.server.mem.outer.sentUnder 11 = 2 ∧
    t.delivered.count (updateCall 7 11 1 [5]).request = 1 ∧
      t.server.mem.outer.sentUnder 11 ≤ 2 * t.delivered.count (updateCall 7 11 1 [5]).request := by
  obtain ⟨t, hrun, hc, hsent, hcount⟩ : ∃ t, ({} : System).run (leapClock [(3, 10001)])
      (fun _ => false) [.call (updateCall 7 11 1 [5]) false,
        .deliver (.request (updateCall 7 11 1 [5]).request) true false false, .tick 3] = some t ∧
      updateCall 7 11 1 [5] ∈ t.calls ∧ t.server.mem.outer.sentUnder 11 = 2 ∧
      t.delivered.count (updateCall 7 11 1 [5]).request = 1 := ⟨_, rfl, by decide⟩
  exact ⟨t, hsent, hcount, sent_le_copies (.run .initial hrun) hc (by decide)⟩

end CacheSystem

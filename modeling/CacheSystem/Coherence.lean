import CacheSystem.CenterTurns
import CacheSystem.Promises

/-!
# Clients agree while their promises run

Every cache of a value is a handle that was told the value with an expire time. In the runs whose
turns are `Punctual` the data center is a leased register, so whatever clients call, in any order,
and whatever the network does, two values told for one id whose expire times have not passed are
equal, and they are the value of the data center.

* `register_of_punctual` : the register of the server.
* `Accounted` : an update that waits is answered with its own data, as long as no other op id has
  its low 32 bits.
* `clients_coherent` : what clients hold.
-/

namespace CacheSystem

open CacheSystem.Lib Relation

variable {env : Env} {fails : Nat → Bool} {s s' : Server}

/-! ## The server's register -/

/-- A datagram is some steps of the register. -/
theorem CenterTurn.refines {sender : Address} {data : Option CacheMessage} (h : Sound env s)
    (htime : ∀ m, data = some m → Timely env s m) (hturn : CenterTurn env sender s data s') :
    RegisterSteps (Center.register env s) (Center.register env s') := by
  cases hturn with
  | aside hsame => exact Center.steps_of_same (by rw [hsame.rt]) hsame.map hsame.trace
  | cancelled ht howner hrt hmap htrace =>
      refine Center.steps_of_same ?_ hmap htrace
      rw [hrt]
      exact le_rfl
  | @read m read s₀ r _ hread hsame hop hafter =>
      exact (Center.steps_of_same (by rw [hsame.rt]) hsame.map hsame.trace).trans
        ((hop.refines (h.of_sameCenter hsame)).trans
          (Center.steps_of_same hafter.added.readings_le hafter.map hafter.trace))
  | @update m update s₀ r _ hupdate hsame hop hafter =>
      have hprompt := ((htime m rfl).update update ⟨m, sender⟩ hupdate).of_sameCenter hsame
      exact (Center.steps_of_same (by rw [hsame.rt]) hsame.map hsame.trace).trans
        ((hop.refines (h.of_sameCenter hsame) hprompt).trans
          (Center.steps_of_same hafter.added.readings_le hafter.map hafter.trace))

/-- What `main` catches is no step of the register. -/
theorem Server.catch_register (r : Option Thrown × Server) :
    Center.register env (Server.catch r) = Center.register env r.2 := by
  have hsame := catch_sameCenter r
  simp only [Center.register, hsame.map, hsame.trace, hsame.rt]

/-- **A punctual turn is some steps of the register.** -/
theorem Sound.punctual_refines (h : Sound env s) (hw : Wired s) {op : ServerOp}
    (hpunctual : Punctual env fails s op) (hstep : s.step env fails op = some s') :
    RegisterSteps (Center.register env s) (Center.register env s') := by
  cases op with
  | receive sender data =>
      cases hstep
      have hr : OnReceive env fails sender s data (CacheSystem.onReceive env fails sender data s) :=
        onReceive_spec sender data s
      rw [Server.catch_register]
      exact (hr.centerTurn hw).refines h hpunctual
  | tick fuel =>
      obtain ⟨⟨e, q⟩, ht, rfl⟩ := Option.map_eq_some_iff.mp hstep
      rw [Server.catch_register]
      refine (CompletionsReturn.keeps (P := fun q => Sound env q ∧
        RegisterSteps (Center.register env s) (Center.register env q)) hpunctual
        (fun q r hq hr hothers => ?_) ht ⟨h, .refl⟩).2
      exact ⟨(hq.1.tickIter serverHooks_benign hr hothers).1,
        hq.2.trans (hq.1.tickIter_refines serverHooks_benign hr)⟩

/-- In every run of punctual turns the server's data center is a register that registers come to. -/
theorem register_of_punctual
    (h : ServerReachable env fails (fun s op _ => Punctual env fails s op) s) :
    LeasedRegister.machine.Reachable (Center.register env s) := by
  induction h with
  | initial => exact .init ⟨fun _ => rfl, rfl⟩
  | step op hs hstep hpunctual ih =>
      exact ih.steps ((sound_of_punctual hs).punctual_refines (wired_of_reachable hs) hpunctual
        hstep)

/-! ## Updates that wait -/

variable {map : UInt64 → Option (CacheElement CacheData Request)}

/-- An element that holds an update back has the low bits of its op id. -/
def Stamped (map : UInt64 → Option (CacheElement CacheData Request)) : Prop :=
  ∀ id e, map id = some e → ∀ f, e.call = some f →
    e.opId = f.low ∧ f.message.updateRequest ≠ none

/-- An element is assigned that holds back what it held back. -/
theorem Stamped.assign (h : Stamped map) {cacheId : UInt64}
    {e e' : CacheElement CacheData Request} (he : map cacheId = some e ∨ e.call = none)
    (hcall : e'.call = e.call) (hopId : e'.opId = e.opId) :
    Stamped (Function.update map cacheId (some e')) := by
  refine Lib.Table.forall_assign h fun f hf => ?_
  rw [hcall] at hf
  rw [hopId]
  rcases he with he | he
  · exact h cacheId e he f hf
  · rw [he] at hf
    cases hf

/-- An update that is held back is stamped with the low bits of its request. -/
theorem Stamped.centerTurn {sender : Address} {data : Option CacheMessage}
    (h : Stamped s.mem.map) (hturn : CenterTurn env sender s data s') : Stamped s'.mem.map := by
  cases hturn with
  | aside hsame =>
      rw [hsame.map]
      exact h
  | cancelled ht howner hrt hmap htrace =>
      rw [hmap]
      exact h
  | @read m read s₀ r _ hread hsame hop hafter =>
      rw [← hsame.map] at h
      rw [hafter.map]
      cases hop with
      | absent he => exact h
      | renewed he hm hs => exact h.assign (Or.inl he) rfl rfl
      | unleased he hstate => exact h
  | @update m update s₀ r _ hupdate hsame hop hafter =>
      rw [← hsame.map] at h
      rw [hafter.map]
      cases hop with
      | assigned he hstate hs => exact h.assign (he.imp_right fun he => by rw [he.2]) rfl rfl
      | refused he hstate h0 => exact h
      | overdue he hstate h0 hdelay => exact h.assign (Or.inl he) rfl rfl
      | deferred he hstate h0 hdelay hs =>
          refine Lib.Table.forall_assign h fun f hf => ?_
          cases hf
          exact ⟨rfl, by rw [hupdate]; simp⟩
      | retried he hstate h0 => exact h

/-- A completion leaves the stamps of the other elements. -/
theorem Stamped.runTimer {call : TimerCall Nat} {r : Option Thrown × Server}
    (h : Stamped s.mem.map) (hr : RunTimer env (serverHooks env fails) s call r) :
    Stamped r.2.mem.map := by
  cases hr with
  | absent howner he => exact h
  | idled he => exact h.assign (Or.inl he) rfl rfl
  | completed he hs hf hp hr =>
      subst hp
      exact h.assign (Or.inl he) rfl rfl
  | noCall he hf => exact h.assign (Or.inl he) rfl rfl
  | unbound he hcall => exact h.assign (Or.inl he) rfl rfl
  | foreign hr => exact h

/-- A response that the server carries was carried before the callback, or answers what stands under
the op id of the element whose update is completed, with its expire time. -/
theorem RunTimer.says {call : TimerCall Nat} {q : Option Thrown × Server}
    (h : RunTimer env (serverHooks env fails) s call q) {m : CacheMessage} {r : CacheOpResponse}
    (hm : q.2.mem.outer.Carries m) (hr : m.opResponse = some r) :
    s.mem.outer.Carries m ∨ ∃ cacheId e f request expire, call = .updateProtected cacheId ∧
      s.mem.map cacheId = some e ∧ e.call = some f ∧
      s.mem.outer.deferMessages e.state.opId = some request ∧
      m = updateResponse request.message expire .kOperationOk ∧
      .completed cacheId .kOperationOk e.state.opId f (e.tempValue.getD []) expire ∈
        q.2.mem.trace := by
  cases h with
  | absent howner he => exact Or.inl hm
  | idled he => exact Or.inl hm
  | @completed cacheId e f s₁ p' q he hs hf hp hinv =>
      have hspec : UpdateHandle env fails f .kOperationOk e.state.opId s₁.1.expireTime p'.outer q :=
        .of_invoke hinv
      subst hp
      cases hspec with
      | refused hret => exact absurd rfl hret
      | lost hret hdefer => exact Or.inl hm
      | @answered request q hret hdefer hanswer =>
          rcases hanswer.carries hm with hm | rfl | hnone
          · exact Or.inl hm
          · exact Or.inr ⟨cacheId, e, f, request, s₁.1.expireTime, rfl, he, hf, hdefer, rfl,
              List.mem_append_right _ (List.mem_singleton_self _)⟩
          · rw [hr] at hnone
            cases hnone
  | noCall he hf => exact Or.inl hm
  | unbound he hcall => exact Or.inl hm
  | foreign hinv =>
      refine Or.inl (((TimerHandle.of_foreign hinv).carries hm).resolve_right ?_)
      rw [hr]
      simp

/-- What the server has taken in for its updates, and what the request is answered. -/
structure Accounted (f : Request) (delivered : List Request)
    (mem : CenterMem CacheData Request ServerMem) : Prop where
  sourced : Sourced delivered mem
  genuine : Genuine mem
  stamped : Stamped mem.map
  honest : LowAlone f delivered → Honest f mem

variable {f : Request} {delivered : List Request}
  {mem : CenterMem CacheData Request ServerMem}

/-- At the start nothing was taken in. -/
theorem Accounted.initial (f : Request) : Accounted f [] Server.initial.mem :=
  ⟨.initial, .initial, (fun _ _ he => nomatch he), fun _ => .initial f⟩

/-- The log of the server is apart. -/
theorem Accounted.log (h : Accounted f delivered mem) (log : List ServerEvent) :
    Accounted f delivered { mem with outer := { mem.outer with log := log } } :=
  ⟨h.sourced.log log, ⟨h.genuine.held, h.genuine.assigned⟩, h.stamped, h.honest⟩

/-- **A datagram that arrives is accounted for.** -/
theorem Accounted.received {g : Request} (h : Accounted f delivered s.mem) (hw : Wired s)
    {data : Option CacheMessage} {q : Option Thrown × Server}
    (hr : OnReceive env fails g.requester s data q) (hdata : ∀ m, data = some m → m = g.message) :
    Accounted f (delivered ++ [g]) q.2.mem :=
  ⟨h.sourced.received (hr.received hdata), h.genuine.received (hr.received hdata),
    h.stamped.centerTurn (hr.centerTurn hw), fun halone =>
      (h.honest fun g' hg' => halone g' (List.mem_append_left _ hg')).received hr hdata⟩

/-- **A callback answers an update with its own data**: the message under the low bits of the
element's op id is the request of the update that the element held back. -/
theorem Accounted.runTimer (h : Accounted f delivered s.mem) {call : TimerCall Nat}
    {q : Option Thrown × Server} (hr : RunTimer env (serverHooks env fails) s call q)
    (hwaits : ∀ cacheId e, call = .updateProtected cacheId → s.mem.map cacheId = some e →
      e.opId = e.state.opId ∧ ∃ value, e.tempValue = some value) :
    Accounted f delivered q.2.mem := by
  refine ⟨h.sourced.fired hr.fired, h.genuine.fired hr.fired, h.stamped.runTimer hr,
    fun halone m r hm hid hresponse => ?_⟩
  rcases hr.says hm hresponse with
    hm | ⟨cacheId, e, f', request, expire, hcall, he, hf', hdefer, rfl, hevent⟩
  · exact (h.honest halone m r hm hid hresponse).mono hr.fired.trace_mem
  · obtain ⟨hrequest, hask, hlow, -⟩ := h.sourced.deferred _ _ hdefer
    obtain ⟨hopId, value, hvalue⟩ := hwaits cacheId e hcall he
    obtain ⟨hstamp, hupdate⟩ := h.stamped cacheId e he f' hf'
    have hsame : request.message.opId = f.message.opId := hid
    obtain rfl : request = f := halone request hrequest hask (congrArg UInt64.toUInt32 hsame)
    obtain rfl : f' = request := halone f' (h.sourced.held cacheId e f' he hf')
      (fun hack => hupdate hack.2) (by rw [hlow, ← hopId, hstamp])
    obtain ⟨rfl, hdata⟩ := h.genuine.held cacheId e f' he hf'
    intro _
    refine ⟨_, hevent, expire, ?_, ?_⟩
    · rw [hvalue, hdata value hvalue]
      cases hresponse
      rfl
    · cases hresponse
      rfl

/-- So is an iteration of `tick`. -/
theorem Accounted.tickIter (h : Accounted f delivered s.mem) (hs : Sound env s) {r : Iter Server}
    (hr : TickIter env (CacheSystem.runTimer env (serverHooks env fails)) s r) :
    Accounted f delivered r.state.mem := by
  rcases hr.ran with hsame | ⟨t, ht, hlive, q, hrun, hmem⟩
  · rw [hsame]
    exact h
  · rw [hmem]
    refine Accounted.runTimer (s := { s with rt := s.rt.readClock.lock }) h hrun
      fun cacheId e hcall he => ?_
    obtain ⟨-, hopId, -, -, value, -, hvalue⟩ := hs.waiting ht hlive hcall he
    exact ⟨hopId, value, hvalue⟩

/-- **A punctual turn keeps the account.** -/
theorem Accounted.punctual_tick {fuel : Nat} (h : Accounted f delivered s.mem) (hs : Sound env s)
    (hpunctual : Punctual env fails s (.tick fuel))
    (hstep : s.step env fails (.tick fuel) = some s') : Accounted f delivered s'.mem := by
  obtain ⟨⟨e, q⟩, ht, rfl⟩ := Option.map_eq_some_iff.mp hstep
  refine catch_mem (P := Accounted f delivered) (fun _ log h => h.log log) (r := (e, q)) ?_
  exact (CompletionsReturn.keeps (P := fun q => Sound env q ∧ Accounted f delivered q.mem)
    hpunctual (fun q r hq hr hothers => ⟨(hq.1.tickIter serverHooks_benign hr hothers).1,
      hq.2.tickIter hq.1 hr⟩) ht ⟨hs, h⟩).2

/-! ## Runs -/

/-- The turns of the server are punctual. -/
def SystemPunctual (env : Env) (fails : Nat → Bool) (t : System) : SystemOp → Prop
  | .deliver (.request g) parses _ _ =>
      Punctual env fails t.server (.receive g.requester (if parses then some g.message else none))
  | .tick fuel => Punctual env fails t.server (.tick fuel)
  | _ => True

variable {t : System} {c : Call}

/-- The server of a punctual system runs by punctual turns, and what it was sent is accounted for. -/
theorem SystemReachable.punctual (h : SystemReachable env fails (SystemPunctual env fails) t)
    (f : Request) :
    ServerReachable env fails (fun s op _ => Punctual env fails s op) t.server ∧
      Accounted f t.delivered t.server.mem := by
  refine h.server_turns (P := fun delivered server =>
    ServerReachable env fails (fun s op _ => Punctual env fails s op) server ∧
      Accounted f delivered server.mem) ⟨.initial, .initial f⟩
    (fun t g parses _ _ server hpunctual ht hstep => ⟨.step _ ht.1 hstep hpunctual, ?_⟩)
    fun t fuel server hpunctual ht hstep => ⟨.step _ ht.1 hstep hpunctual,
      ht.2.punctual_tick (sound_of_punctual ht.1) hpunctual hstep⟩
  cases hstep
  refine catch_mem (P := Accounted f (t.delivered ++ [g])) (fun _ log h => h.log log)
    (ht.2.received (wired_of_reachable ht.1) (onReceive_spec _ _ t.server) fun m hm => ?_)
  cases parses <;> cases hm
  rfl

/-- The handle was told a promise that runs until `expire`. -/
def Handled.Held (t : System) (handled : Handled) (expire : Int) : Prop :=
  ∃ event ∈ t.server.mem.trace,
    event.promise = some (handled.cacheId.toUInt64, handled.cacheData, expire) ∧
      handled.expire = UInt32.ofInt expire

/-- What the clients of a system hold. -/
structure ClientsCoherent (env : Env) (t : System) : Prop where
  /-- A read that is told `kOperationOk` holds a promise, and so does an update whose op id has its
  low 32 bits for itself. -/
  held : ∀ c ∈ t.calls, c.kind = .read ∨ LowApart t c → ∀ client handled,
    (client, handled) ∈ t.handled → handled.opId = c.opId →
      handled.result = OpResult.kOperationOk.code → ∃ expire, handled.Held t expire
  /-- While it runs its value is that of the data center. -/
  current : ∀ handled expire, Handled.Held t handled expire →
    expire ≤ t.server.rt.now env ∨
      Center.value t.server handled.cacheId.toUInt64 = some handled.cacheData
  /-- Two that run for one id have one value. -/
  agree : ∀ handled handled' expire expire', Handled.Held t handled expire →
    Handled.Held t handled' expire' → handled.cacheId = handled'.cacheId →
      t.server.rt.now env < expire → t.server.rt.now env < expire' →
        handled.cacheData = handled'.cacheData

/-- **Clients agree while their promises run**, in every run of any number of clients and the server
whose server turns are punctual, whatever the network does. -/
theorem clients_coherent : ∀ t, SystemReachable env fails (SystemPunctual env fails) t →
    ClientsCoherent env t := by
  intro t h
  have hkept := LeasedRegister.kept (register_of_punctual (h.punctual ⟨{}, 0⟩).1)
  refine ⟨fun c hc hkind client handled hmem hid hok => ?_, ?_, ?_⟩
  · obtain ⟨-, x, hx, r, hr, rfl⟩ := h.traced.handled client handled hmem
    have hhonest : Honest c.request t.server.mem := by
      rcases hkind with hkind | hlow
      · exact (h.honest hkind).2.2 (h.traffic.alone hc)
      · exact (h.punctual c.request).2.honest (h.traffic.lowAlone hlow)
    obtain ⟨event, hevent, expire, hanswers⟩ := hhonest x.message r (Or.inr ⟨x, hx, rfl⟩)
      (by rw [Call.request_opId]; exact hid) hr hok
    exact ⟨expire, event, hevent, hanswers⟩
  · rintro handled expire ⟨event, hevent, hpromise, -⟩
    exact Center.coherent_of_kept hkept event hevent _ _ expire hpromise
  · rintro handled handled' expire expire' ⟨event, hevent, hpromise, -⟩
      ⟨event', hevent', hpromise', -⟩ hcacheId hnow hnow'
    rw [← hcacheId] at hpromise'
    obtain ⟨told, htold, hpromise⟩ := Option.bind_eq_some_iff.mp hpromise
    obtain ⟨told', htold', hpromise'⟩ := Option.bind_eq_some_iff.mp hpromise'
    exact hkept.agree (List.mem_filterMap.mpr ⟨event, hevent, htold⟩)
      (List.mem_filterMap.mpr ⟨event', hevent', htold'⟩) hpromise hpromise' hnow hnow'

/-- A client reads what another one wrote, as a case of `clients_coherent`. -/
theorem clients_coherent_read : ∃ t : System,
    ((7, ⟨11, OpResult.kOperationOk.code, 10000, 1, [5]⟩) : Address × Handled) ∈ t.handled ∧
      ((8, ⟨12, OpResult.kOperationOk.code, 10000, 1, [5]⟩) : Address × Handled) ∈ t.handled ∧
        ClientsCoherent stillClock t := by
  have h₁ : SystemReachable stillClock (fun _ => false) (SystemPunctual stillClock fun _ => false) _ :=
    .step (.call (updateCall 7 11 1 [5]) false) .initial trivial rfl
  have h₂ := h₁.step (.deliver (.request (updateCall 7 11 1 [5]).request) true false false)
    (fun m hm => by
      cases hm
      exact ⟨fun read hread => (by cases hread), fun update request hupdate => by
        cases hupdate
        intro e he
        cases he⟩) rfl
  have h₃ := h₂.step (.deliver (.response 7
    (updateResponse (updateCall 7 11 1 [5]).message 10000 .kOperationOk)) true false false)
    trivial rfl
  have h₄ := h₃.step (.call ⟨8, 12, 1, .read, 0⟩ false) trivial rfl
  have h₅ := h₄.step (.deliver (.request (⟨8, 12, 1, .read, 0⟩ : Call).request) true false false)
    (fun m hm => by
      cases hm
      refine ⟨fun read hread => ?_, fun update request hupdate => (by cases hupdate)⟩
      cases hread
      intro e he _
      obtain rfl := Option.some.inj he
      decide) rfl
  have h₆ := h₅.step (.deliver (.response 8 ⟨some ⟨headerMagic, headerVersion, kReadResponse, 12⟩,
    none, none, some ⟨OpResult.kOperationOk.code, 0, 10000, 1, [5]⟩⟩) true false false) trivial rfl
  exact ⟨_, by decide, by decide, clients_coherent _ h₆⟩

end CacheSystem

import CacheSystem.AtMostOnce
import CacheSystem.Coherence
import CacheSystem.Lib.Concurrent

/-!
# The calls of the clients are linearizable

Clients call at any time, requests and responses are on their way for any time, and an update may
wait at the server for a lease. What the clients are told is nevertheless what a single caller could
be told by a register for each cache id, which starts without data and may tell an update to retry at
any time, in an order in which no call stands before one that was answered before it was made: an
update takes effect when the server assigns it, and a read shows the values that the server had at
some moment between its call and its answer.

It needs that server turns are punctual, that the low 32 bits of the op ids are different, that no
update request reaches the server twice (`AtMostOnce` shows what happens otherwise), and that the
acknowledgements are sent, so that no handle is invoked a second time.

* `registers` : the object as a single caller sees it.
* `Server.receive_answers`, `Server.tick_answers` : what a turn of the server answers.
* `Written` : every write of the history is that of an update.
* `SystemRuns`, `systemHistory` : a run, and its calls with what is told.
* `Explained` : when a response could have been given.
* `Placed` : where each call takes effect; `calls_linearizable` : the result.
-/

namespace CacheSystem

open Lib.Concurrent

/-! ## The object -/

/-- What a single caller can be told by registers, one for each cache id. An update may be told to
retry at any time. -/
inductive RegisterStep : (UInt64 → Option CacheData) → UInt32 × CallKind →
    UInt32 × Option CacheData → (UInt64 → Option CacheData) → Prop
  | read {values cacheId data} (hvalue : values cacheId.toUInt64 = some data) :
      RegisterStep values (cacheId, .read) (OpResult.kOperationOk.code, some data) values
  | noData {values cacheId} (hvalue : values cacheId.toUInt64 = none) :
      RegisterStep values (cacheId, .read) (OpResult.kOperationErrorNoData.code, none) values
  | updated {values cacheId data} :
      RegisterStep values (cacheId, .update data) (OpResult.kOperationOk.code, none)
        (Function.update values cacheId.toUInt64 (some data))
  | retried {values cacheId data} :
      RegisterStep values (cacheId, .update data) (OpResult.kOperationRetry.code, none) values

/-- What an update is told. -/
theorem RegisterStep.told {values values' : UInt64 → Option CacheData} {act : UInt32 × CallKind}
    {reply : UInt32 × Option CacheData} (h : RegisterStep values act reply values')
    (hkind : act.2 ≠ .read) :
    reply = (OpResult.kOperationOk.code, none) ∨ reply = (OpResult.kOperationRetry.code, none) := by
  cases h with
  | read hvalue => exact absurd rfl hkind
  | noData hvalue => exact absurd rfl hkind
  | updated => exact Or.inl rfl
  | retried => exact Or.inr rfl

/-- Registers that start without data. -/
def registers : Object (UInt64 → Option CacheData) (UInt32 × CallKind) (UInt32 × Option CacheData)
    where
  init := fun _ => none
  Step := RegisterStep

/-! ## What the server answers -/

variable {env : Env} {fails : Nat → Bool} {s s' : Server}

/-- What a read can be told of these values. -/
def Shown (values : UInt64 → Option CacheData) (r : CacheOpResponse) : Prop :=
  (r.result = OpResult.kOperationOk.code ∧ values r.cacheId.toUInt64 = some r.cacheData) ∨
    (r.result = OpResult.kOperationErrorNoData.code ∧ values r.cacheId.toUInt64 = none)

/-- A read request is answered with what there is. -/
theorem ReadOp.shown {m : CacheMessage} {read : CacheReadRequest} {ret : OpResult}
    {out : Option (Int × CacheData)} {s₁ : Server} {opId : UInt32}
    (hop : ReadOp env read.cacheId.toUInt64 opId (s.setCacheId read.cacheId) (.ok (ret, out), s₁))
    {r : CacheOpResponse}
    (hr : (readResponse m (s₁.setScratch ret out).mem.outer).opResponse = some r) :
    Shown (valuesOf s.mem.map) r := by
  cases hr
  cases hop with
  | absent he =>
      refine Or.inr ⟨rfl, ?_⟩
      exact Option.map_eq_none_iff.mpr he
  | renewed he hm hs => exact Or.inl ⟨rfl, valuesOf_of_some he⟩
  | unleased he hstate => exact Or.inl ⟨rfl, valuesOf_of_some he⟩

/-- An update request that is answered at once is told one of two things. -/
theorem UpdateOp.result {cacheId : UInt64} {value : CacheData} {opId : UInt32} {f : Request}
    {ret : OpResult} {expire : Int} {s₁ : Server}
    (hop : UpdateOp env cacheId value opId f s (.ok (ret, expire), s₁))
    (hret : ret ≠ .kOperationDefer) : ret = .kOperationOk ∨ ret = .kOperationRetry := by
  cases hop with
  | assigned he hstate hs => exact Or.inl rfl
  | deferred he hstate h0 hdelay hs => exact absurd rfl hret
  | retried he hstate h0 => exact Or.inr rfl

/-- What a request may be answered while the server has these values: a read what it shows, an update
`kOperationOk` or `kOperationRetry`. -/
def AnswerTo (values : UInt64 → Option CacheData) (m : CacheMessage) (r : CacheOpResponse) : Prop :=
  (m.readRequest ≠ none ∧ Shown values r) ∨
    (m.updateRequest ≠ none ∧ (r.result = OpResult.kOperationOk.code ∨
      r.result = OpResult.kOperationRetry.code))

/-- **What a datagram is answered**: a response that the server carries was carried before, or
answers the datagram. -/
theorem OnReceive.answers {sender : Address} {data : Option CacheMessage}
    {q : Option Thrown × Server} (hr : OnReceive env fails sender s data q) {m : CacheMessage}
    {r : CacheOpResponse} (hm : q.2.mem.outer.Carries m) (hresponse : m.opResponse = some r) :
    s.mem.outer.Carries m ∨
      ∃ m', data = some m' ∧ m.opId = m'.opId ∧ AnswerTo (valuesOf s.mem.map) m' r := by
  cases hr with
  | ignored he => exact Or.inl hm
  | @acked m' hm' =>
      refine Or.inl ((Unregister.carries (unregisterWaitAck_spec m'.opId
        (s.setPeer sender).outer) hm).resolve_right ?_)
      rw [hresponse]
      simp
  | @read m' read ret out s₁ s₂ q hm' hread hop hs₂ hr =>
      have houter : s₁.mem.outer = _ := hop.outer
      subst hs₂
      rcases hr.carries hm with hm | rfl | hnone
      · refine Or.inl ?_
        rcases out with _ | ⟨expire, value⟩ <;>
          simp only [outer_mem, Proc.setScratch, setOuter_outer, houter] at hm <;> exact hm
      · exact Or.inr ⟨m', rfl, rfl, Or.inl ⟨by rw [hread]; simp, hop.shown hresponse⟩⟩
      · rw [hresponse] at hnone
        cases hnone
  | updateThrew hm' hupdate hop =>
      rw [hop.outer] at hm
      exact Or.inl hm
  | @deferred m' update expire s₁ hm' hupdate hop =>
      have houter : s₁.mem.outer = _ := hop.outer
      rw [emplaceDefer_eq] at hm
      simp only [setOuter_outer, houter] at hm
      exact Or.inl hm
  | @updated m' update ret expire s₁ q hm' hupdate hret hop hr =>
      have houter : s₁.mem.outer = _ := hop.outer
      rcases hr.carries hm with hm | rfl | hnone
      · rw [outer_mem, houter] at hm
        exact Or.inl hm
      · refine Or.inr ⟨m', rfl, rfl, Or.inr ⟨by rw [hupdate]; simp, ?_⟩⟩
        cases hresponse
        exact (hop.result hret).imp (congrArg OpResult.code) (congrArg OpResult.code)
      · rw [hresponse] at hnone
        cases hnone

/-- **What a turn with a datagram answers.** -/
theorem Server.receive_answers {g : Request} {parses : Bool}
    (hstep : s.step env fails
      (.receive g.requester (if parses then some g.message else none)) = some s')
    {m : CacheMessage} {r : CacheOpResponse} (hm : s'.mem.outer.Carries m)
    (hresponse : m.opResponse = some r) :
    s.mem.outer.Carries m ∨
      (m.opId = g.message.opId ∧ AnswerTo (valuesOf s.mem.map) g.message r) := by
  cases hstep
  revert hm
  refine catch_mem (P := fun mem => mem.outer.Carries m → s.mem.outer.Carries m ∨
    (m.opId = g.message.opId ∧ AnswerTo (valuesOf s.mem.map) g.message r)) (fun _ _ h => h) fun hm => ?_
  refine ((onReceive_spec _ _ s).answers hm hresponse).imp_right fun ⟨m', hdata, hid, hanswer⟩ => ?_
  cases parses <;> cases hdata
  exact ⟨hid, hanswer⟩

/-- **What a `tick` answers**: updates that were deferred. -/
theorem Server.tick_answers {fuel : Nat} (hstep : s.step env fails (.tick fuel) = some s')
    {m : CacheMessage} {r : CacheOpResponse} (hm : s'.mem.outer.Carries m)
    (hresponse : m.opResponse = some r) :
    s.mem.outer.Carries m ∨ ∃ opId request, s.mem.outer.deferMessages opId = some request ∧
      m.opId = request.message.opId ∧ r.result = OpResult.kOperationOk.code := by
  refine (Server.tick_mem (Q := fun mem =>
    (∀ opId g, mem.outer.deferMessages opId = some g → s.mem.outer.deferMessages opId = some g) ∧
    (mem.outer.Carries m → s.mem.outer.Carries m ∨ ∃ opId request,
      s.mem.outer.deferMessages opId = some request ∧ m.opId = request.message.opId ∧
        r.result = OpResult.kOperationOk.code)) (fun _ _ h => h) (fun mem mem' h hr => ?_) hstep
    ⟨fun _ _ hdefer => hdefer, Or.inl⟩).2 hm
  refine ⟨fun opId g hdefer => h.1 opId g (hr.defers hdefer), fun hm => ?_⟩
  rcases hr.says hm hresponse with hm | ⟨id, e, request, expire, -, -, hdefer, rfl⟩
  · exact h.2 hm
  · cases hresponse
    exact Or.inr ⟨_, request, h.1 _ _ hdefer, rfl, rfl⟩

/-- No turn takes back what happened. -/
theorem Server.trace_prefix {op : ServerOp} (hstep : s.step env fails op = some s') :
    s.mem.trace <+: s'.mem.trace := by
  refine Server.step_mem (P := fun mem => mem = s.mem) (Q := fun mem => s.mem.trace <+: mem.trace)
    (fun _ _ h => h) hstep (fun sender data r _ hr _ => ?_)
    (fun _ _ h => h ▸ List.prefix_rfl) (fun p call r h hr => ?_) rfl
  · rcases data with _ | m
    · cases hr with
      | ignored he => exact List.prefix_rfl
    · cases hr.received (m := m) fun m' hm' => (Option.some.inj hm').symm with
      | other hheld htrace hevents hdefers hcarries => exact htrace ▸ List.prefix_append _ _
      | assigned hupdate hheld htrace hdefers hcarries => exact htrace ▸ List.prefix_append _ _
      | deferred hupdate h0 hmap hcall htemp hop htrace hdefers hcarries =>
          exact htrace ▸ List.prefix_append _ _
  · refine h.trans ?_
    cases hr.fired with
    | other hheld htrace hdefers hcarries => exact htrace ▸ List.prefix_rfl
    | moved he hmap hcall htemp hop htrace hevents hdefers hcarries =>
        exact htrace ▸ List.prefix_append _ _

/-! ## What is written -/

/-- Every write is the assignment of an update request. -/
def Written (trace : List (Event CacheData Request)) : Prop :=
  ∀ event ∈ trace, ∀ id, event.Writes id →
    ∃ f : Request, event.Assigns f = true ∧ f.message.updateRequest ≠ none

/-- Later writes are assignments too. -/
theorem Written.append {trace events : List (Event CacheData Request)} (h : Written trace)
    (hevents : Written events) : Written (trace ++ events) :=
  List.forall_mem_append.mpr ⟨h, hevents⟩

/-- An event that writes nothing. -/
theorem Written.silent {event : Event CacheData Request} (h : ∀ id, ¬ event.Writes id) :
    Written [event] := by
  intro event' hevent id hwrites
  cases List.mem_singleton.mp hevent
  exact absurd hwrites (h id)

/-- A datagram writes what its update request says. -/
theorem Written.centerTurn {sender : Address} {data : Option CacheMessage}
    (h : Written s.mem.trace) (hturn : CenterTurn env sender s data s') : Written s'.mem.trace := by
  cases hturn with
  | aside hsame =>
      rw [hsame.trace]
      exact h
  | cancelled ht howner hrt hmap htrace =>
      rw [htrace]
      exact h
  | @read m read s₀ r _ hread hsame hop hafter =>
      rw [← hsame.trace] at h
      rw [hafter.trace]
      cases hop with
      | absent he => exact h
      | renewed he hm hs => exact h.append (.silent fun _ => id)
      | unleased he hstate => exact h.append (.silent fun _ => id)
  | @update m update s₀ r _ hupdate hsame hop hafter =>
      rw [← hsame.trace] at h
      rw [hafter.trace]
      cases hop with
      | assigned he hstate hs =>
          refine h.append fun event hevent id _ => ?_
          cases List.mem_singleton.mp hevent
          exact ⟨⟨m, sender⟩, decide_eq_true rfl, by rw [hupdate]; simp⟩
      | refused he hstate h0 => exact h
      | overdue he hstate h0 hdelay => exact h
      | deferred he hstate h0 hdelay hs => exact h.append (.silent fun _ => id)
      | retried he hstate h0 => exact h.append (.silent fun _ => id)

/-- The callback of an update that waits writes what was held back. -/
theorem Written.runTimer {call : TimerCall Nat} {r : Option Thrown × Server}
    (h : Written s.mem.trace) (hstamped : Stamped s.mem.map)
    (hr : RunTimer env (serverHooks env fails) s call r)
    (hwaits : ∀ cacheId e, call = .updateProtected cacheId → s.mem.map cacheId = some e →
      ∃ f value, e.call = some f ∧ e.tempValue = some value) : Written r.2.mem.trace := by
  cases hr with
  | absent howner he => exact h
  | idled he => exact h
  | @completed cacheId e f s₁ p' r he hs hf hp hr =>
      obtain ⟨f', value, hf', hvalue⟩ := hwaits cacheId e rfl he
      subst hp
      rw [withOuter_trace, record_trace, completing_trace]
      refine (h.append fun event hevent id _ => ?_).append (.silent fun _ => id)
      cases List.mem_singleton.mp hevent
      exact ⟨f', assigns_moved.mpr ⟨hf', by rw [hvalue]; simp⟩, (hstamped cacheId e he f' hf').2⟩
  | @noCall cacheId e he hf =>
      obtain ⟨f, -, hf', -⟩ := hwaits cacheId e rfl he
      rw [hf] at hf'
      cases hf'
  | unbound he hcall => exact h
  | foreign hr => exact h

/-- In a run of punctual turns every write is an update's. -/
theorem written_of_punctual
    (h : ServerReachable env fails (fun s op _ => Punctual env fails s op) s) :
    Stamped s.mem.map ∧ Written s.mem.trace := by
  induction h with
  | initial => exact ⟨(fun _ _ he => nomatch he), fun _ hevent => nomatch hevent⟩
  | @step s s' op hs hstep hpunctual ih =>
      have hsound := sound_of_punctual hs
      cases op with
      | receive sender data =>
          cases hstep
          have hspec : OnReceive env fails sender s data (onReceive env fails sender data s) :=
            onReceive_spec sender data s
          have hturn := hspec.centerTurn (wired_of_reachable hs)
          exact catch_mem (P := fun mem => Stamped mem.map ∧ Written mem.trace) (fun _ _ h => h)
            ⟨ih.1.centerTurn hturn, ih.2.centerTurn hturn⟩
      | tick fuel =>
          obtain ⟨⟨e, q⟩, ht, rfl⟩ := Option.map_eq_some_iff.mp hstep
          refine catch_mem (P := fun mem => Stamped mem.map ∧ Written mem.trace) (r := (e, q))
            (fun _ _ h => h) ?_
          refine (CompletionsReturn.keeps (P := fun q => Sound env q ∧ Stamped q.mem.map ∧
            Written q.mem.trace) hpunctual (fun q r hq hr hothers =>
              ⟨(hq.1.tickIter serverHooks_benign hr hothers).1, ?_⟩) ht ⟨hsound, ih⟩).2
          rcases hr.ran with hsame | ⟨t, htq, hlive, q', hrun, hmem⟩
          · rw [hsame]
            exact hq.2
          · rw [hmem]
            refine ⟨Stamped.runTimer (s := { q with rt := q.rt.readClock.lock }) hq.2.1 hrun,
              Written.runTimer (s := { q with rt := q.rt.readClock.lock }) hq.2.2 hq.2.1 hrun
                fun cacheId e hcall he => ?_⟩
            obtain ⟨-, -, -, f, value, hf, hvalue⟩ := hq.1.waiting htq hlive hcall he
            exact ⟨f, value, hf, hvalue⟩

/-! ## Runs -/

variable {ok : System → SystemOp → Prop} {past : List System} {t t' : System} {c c' : Call}

/-- The states of a run: those that it has left, and the one that it has come to. -/
inductive SystemRuns (env : Env) (fails : Nat → Bool) (ok : System → SystemOp → Prop) :
    List System → System → Prop
  | initial : SystemRuns env fails ok [] {}
  | step {past : List System} {t t' : System} (op : SystemOp) : SystemRuns env fails ok past t →
      ok t op → t.step env fails op = some t' → SystemRuns env fails ok (past ++ [t]) t'

/-- What the handle of a call makes of what it is told. -/
def Call.reply (c : Call) (handled : Handled) : UInt32 × Option CacheData :=
  (handled.result,
    if c.kind = .read ∧ handled.result = OpResult.kOperationOk.code then some handled.cacheData
    else none)

/-- The handle of the call was told this. -/
def System.Told (t : System) (c : Call) (reply : UInt32 × Option CacheData) : Prop :=
  c ∈ t.calls ∧ ∃ handled, (c.client, handled) ∈ t.handled ∧ handled.opId = c.opId ∧
    c.reply handled = reply

/-- In one of the states the first call has its answer and the second one was not made. -/
def Precedes (past : List System) (c c' : Call) : Prop :=
  ∃ s ∈ past, (∃ reply, s.Told c reply) ∧ c' ∉ s.calls

/-- The calls of a run. -/
def systemHistory (past : List System) (t : System) :
    History Call (UInt32 × CallKind) (UInt32 × Option CacheData) where
  calls := t.calls
  act c := (c.cacheId, c.kind)
  Told := t.Told
  Precedes := Precedes past

/-- The low bits of the op ids are different, server turns are punctual, no update request reaches
the server twice, and acknowledgements are sent. -/
def SystemSerial (env : Env) (fails : Nat → Bool) (t : System) : SystemOp → Prop
  | .call c _ => ∀ c' ∈ t.calls, c'.opId.toUInt32 ≠ c.opId.toUInt32
  | .deliver (.request g) parses _ _ =>
      Punctual env fails t.server (.receive g.requester (if parses then some g.message else none)) ∧
        (g.message.updateRequest ≠ none → g ∉ t.delivered)
  | .deliver (.response _ _) _ _ sendFails => sendFails = false
  | .drop _ => True
  | .tick fuel => Punctual env fails t.server (.tick fuel)

/-- A weaker condition on the steps allows more runs. -/
theorem SystemReachable.mono {ok' : System → SystemOp → Prop} (hok : ∀ t op, ok t op → ok' t op)
    (h : SystemReachable env fails ok t) : SystemReachable env fails ok' t := by
  induction h with
  | initial => exact .initial
  | step op _ hop hstep ih => exact .step op ih (hok _ _ hop) hstep

/-- A run that keeps its past ends in a reachable state. -/
theorem SystemRuns.reachable (h : SystemRuns env fails ok past t) :
    SystemReachable env fails ok t := by
  induction h with
  | initial => exact .initial
  | step op _ hok hstep ih => exact .step op ih hok hstep

/-- And so was every state of its past. -/
theorem SystemRuns.past_reachable (h : SystemRuns env fails ok past t) :
    ∀ s ∈ past, SystemReachable env fails ok s := by
  induction h with
  | initial => exact fun _ hs => nomatch hs
  | step op hruns _ _ ih =>
      exact List.forall_mem_append.mpr ⟨ih, List.forall_mem_singleton.mpr hruns.reachable⟩

/-- `s` is an earlier state. -/
structure System.Before (s t : System) : Prop where
  calls : s.calls ⊆ t.calls
  handled : s.handled ⊆ t.handled
  trace : s.server.mem.trace <+: t.server.mem.trace

/-- A state comes before itself. -/
theorem System.Before.refl (t : System) : t.Before t :=
  ⟨List.Subset.refl _, List.Subset.refl _, List.prefix_rfl⟩

/-- What comes before an earlier state comes before. -/
theorem System.Before.trans {q : System} (h : q.Before t) (h' : t.Before t') : q.Before t' :=
  ⟨List.Subset.trans h.calls h'.calls, List.Subset.trans h.handled h'.handled, h.trace.trans h'.trace⟩

/-- A later state agrees on the history so far. -/
theorem System.Before.take {n : Nat} (h : t.Before t') (hn : n ≤ t.server.mem.trace.length) :
    t'.server.mem.trace.take n = t.server.mem.trace.take n := by
  obtain ⟨events, hevents⟩ := h.trace
  rw [← hevents, List.take_append_of_le_length hn]

/-- What a call was told it stays told. -/
theorem System.Before.told {reply : UInt32 × Option CacheData} (h : t.Before t')
    (htold : t.Told c reply) : t'.Told c reply := by
  obtain ⟨hc, handled, hmem, hreply⟩ := htold
  exact ⟨h.calls hc, handled, h.handled hmem, hreply⟩

/-- A datagram leaves the network. -/
theorem System.Before.of_take (t : System) (d : Datagram) (keep : Bool) : t.Before (t.take d keep) where
  calls := fun c hc => by rw [take_calls]; exact hc
  handled := fun x hx => by rw [take_handled]; exact hx
  trace := ⟨[], by rw [take_server, List.append_nil]⟩

/-- A step takes nothing back. -/
theorem System.Step.before {op : SystemOp} (h : t.Step env fails op t') : t.Before t' := by
  cases h with
  | call hnew =>
      exact ⟨List.subset_append_left _ _, List.subset_append_left _ _, List.prefix_rfl⟩
  | request hmem hserver =>
      refine (System.Before.of_take t _ _).trans ⟨List.Subset.refl _, List.Subset.refl _, ?_⟩
      rw [take_server]
      exact Server.trace_prefix hserver
  | response hmem =>
      exact (System.Before.of_take t _ _).trans
        ⟨List.Subset.refl _, List.subset_append_left _ _, List.prefix_rfl⟩
  | drop hmem => exact System.Before.of_take t _ _
  | tick hserver =>
      exact ⟨List.Subset.refl _, List.Subset.refl _, Server.trace_prefix hserver⟩

/-! ## One answer for each call -/

/-- No handle was invoked twice, or can be. -/
structure Single (t : System) : Prop where
  closed : ∀ client handled, (client, handled) ∈ t.handled →
    (t.clients client).requests handled.opId = none
  one : ∀ client handled handled', (client, handled) ∈ t.handled → (client, handled') ∈ t.handled →
    handled.opId = handled'.opId → handled = handled'

/-- A datagram that is taken completes no call. -/
theorem Single.take (h : Single t) (d : Datagram) (keep : Bool) : Single (t.take d keep) where
  closed := by rw [take_handled, take_clients]; exact h.closed
  one := by rw [take_handled]; exact h.one

/-- A call is told one thing. -/
theorem Single.told (h : Single t) {reply reply' : UInt32 × Option CacheData}
    (htold : t.Told c reply) (htold' : t.Told c reply') : reply = reply' := by
  obtain ⟨-, handled, hmem, hid, rfl⟩ := htold
  obtain ⟨-, handled', hmem', hid', rfl⟩ := htold'
  rw [h.one _ _ _ hmem hmem' (hid.trans hid'.symm)]

/-- A response completes its call, if the acknowledgement is sent. -/
theorem Single.response (h : Single t) {dest : Address} {data : Option CacheMessage}
    {turn : ClientTurn} (hturn : ClientReceive false data (t.clients dest) turn) :
    Single (t.clientTurn dest turn) := by
  cases hturn with
  | ignored hclient hhandled =>
      have hclients : Function.update t.clients dest turn.client = t.clients := by
        rw [hclient]
        exact Function.update_eq_self dest t.clients
      simp only [System.clientTurn, hclients, hhandled, List.map_nil, List.append_nil]
      exact ⟨h.closed, h.one⟩
  | @answered m op r hdata havailable hop hr hid hclient hhandled =>
      have hkeyed : op.opId = m.opId := (t.clients dest).keyed _ _ hop
      have hclient : turn.client = (t.clients dest).erase m.opId := hclient
      -- an operation that waits has not been told anything
      have hwaits : ∀ handled, (dest, handled) ∈ t.handled → handled.opId ≠ op.opId := by
        intro handled hmem heq
        have hnone := h.closed dest handled hmem
        rw [heq, hkeyed, hop] at hnone
        cases hnone
      have hnew : ∀ client handled, (client, handled) ∈ (t.clientTurn dest turn).handled →
          (client, handled) ∈ t.handled ∨ (client = dest ∧
            handled = ⟨op.opId, r.result, r.expire, r.cacheId, r.cacheData⟩) := by
        intro client handled hmem
        rw [System.clientTurn, hhandled] at hmem
        exact (List.mem_append.mp hmem).imp_right fun hone =>
          Prod.mk.inj (List.mem_singleton.mp hone)
      refine ⟨fun client handled hmem => ?_, fun client handled handled' hmem hmem' heq => ?_⟩
      · by_cases hdest : client = dest
        · rw [hdest] at hmem ⊢
          simp only [System.clientTurn, Function.update_self, hclient]
          rcases hnew dest handled hmem with hold | ⟨-, rfl⟩
          · exact Lib.Table.erase_eq_none _ (h.closed dest handled hold)
          · rw [hkeyed]
            exact Function.update_self _ _ _
        · simp only [System.clientTurn, Function.update_of_ne hdest]
          exact h.closed client handled
            ((hnew client handled hmem).resolve_right fun hone => hdest hone.1)
      · rcases hnew client handled hmem with hold | ⟨rfl, rfl⟩ <;>
          rcases hnew _ handled' hmem' with hold' | ⟨hclient', rfl⟩
        · exact h.one client handled handled' hold hold' heq
        · rw [hclient'] at hold
          exact absurd heq (hwaits handled hold)
        · exact absurd heq.symm (hwaits handled' hold')
        · rfl

/-- A serial step completes no call twice. -/
theorem Single.step (h : Single t) (htraced : Traced t) {op : SystemOp}
    (hok : SystemSerial env fails t op) (hstep : t.Step env fails op t') : Single t' := by
  cases hstep with
  | @call c sendFails hnew =>
      have hhandled : (c.turn sendFails (t.clients c.client)).handled = [] := (c.turn_spec sendFails _).2
      simp only [System.clientTurn, hhandled, List.map_nil, List.append_nil]
      refine ⟨fun client handled hmem => ?_, h.one⟩
      by_cases hclient : client = c.client
      · subst hclient
        simp only [Function.update_self]
        rcases hop : (c.turn sendFails (t.clients c.client)).client.requests handled.opId with _ | op
        · rfl
        · rcases Call.turn_requests hop with hop | ⟨hid, -⟩
          · rw [h.closed _ _ hmem] at hop
            cases hop
          · obtain ⟨⟨c', hc', -, hopId, -⟩, -⟩ := htraced.handled _ _ hmem
            exact absurd (hopId.trans hid) (hnew c' hc')
      · simp only [Function.update_of_ne hclient]
        exact h.closed client handled hmem
  | @request g parses keep sendFails server hmem hserver =>
      exact ⟨(h.take (.request g) keep).closed, (h.take (.request g) keep).one⟩
  | @response dest message parses keep sendFails hmem =>
      obtain rfl : sendFails = false := hok
      have hturn := clientReceive_cases false (if parses then some message else none)
        (t.clients dest)
      rw [← take_clients (.response dest message) keep t] at hturn
      rw [← take_clients (.response dest message) keep t]
      exact (h.take (.response dest message) keep).response hturn
  | @drop d hmem => exact h.take d false
  | tick hserver => exact ⟨h.closed, h.one⟩

/-! ## When a response could have been given -/

/-- A call that changes nothing can be told this while the server has these values. -/
def Call.Looks (c : Call) (values : UInt64 → Option CacheData) (r : CacheOpResponse) : Prop :=
  (c.kind = .read ∧ Shown values r) ∨
    (c.kind ≠ .read ∧ r.result = OpResult.kOperationRetry.code)

/-- A read call asks for no update. -/
theorem Call.request_updateRequest (h : c.kind = .read) :
    c.request.message.updateRequest = none := by
  simp only [Call.request, Call.message, h]
  rfl

/-- A call that is no read is an update. -/
theorem Call.kind_of_ne_read (h : c.kind ≠ .read) : ∃ cacheData, c.kind = .update cacheData := by
  rcases hkind : c.kind with _ | cacheData
  · exact absurd hkind h
  · exact ⟨cacheData, rfl⟩

/-- An update call asks for its update. -/
theorem Call.asks_update (h : c.kind ≠ .read) : c.request.message.updateRequest ≠ none := by
  obtain ⟨cacheData, hkind⟩ := Call.kind_of_ne_read h
  simp only [Call.request, Call.message, hkind]
  exact Option.some_ne_none _

/-- A call whose message asks to read is a read. -/
theorem Call.kind_of_readRequest (h : c.request.message.readRequest ≠ none) : c.kind = .read := by
  rcases hkind : c.kind with _ | cacheData
  · rfl
  · exact absurd (Call.request_readRequest hkind) h

/-- What the server answers to a call. -/
theorem AnswerTo.looks {values : UInt64 → Option CacheData} {r : CacheOpResponse}
    (h : AnswerTo values c.request.message r) :
    (c.kind ≠ .read ∧ r.result = OpResult.kOperationOk.code) ∨ c.Looks values r := by
  rcases h with ⟨hread, hshown⟩ | ⟨hupdate, hok | hretry⟩
  · exact Or.inr (Or.inl ⟨Call.kind_of_readRequest hread, hshown⟩)
  · exact Or.inl ⟨fun hkind => hupdate (Call.request_updateRequest hkind), hok⟩
  · exact Or.inr (Or.inr ⟨fun hkind => hupdate (Call.request_updateRequest hkind), hretry⟩)

/-- **What a step answers to a call**: `kOperationOk` to an update, or what there is before the
step. -/
theorem System.Step.answers {op : SystemOp} (hstep : t.Step env fails op t')
    (h : SystemReachable env fails ok t) (hc : c ∈ t.calls) {m : CacheMessage} {r : CacheOpResponse}
    (hm : t'.server.mem.outer.Carries m) (hid : m.opId = c.opId) (hr : m.opResponse = some r) :
    t.server.mem.outer.Carries m ∨ (c.kind ≠ .read ∧ r.result = OpResult.kOperationOk.code) ∨
      c.Looks (replay [] t.server.mem.trace) r := by
  have hcall : ∀ g : Request, (∃ c' ∈ t.calls, g = c'.request) → g.message.opId = m.opId →
      g = c.request := by
    rintro g ⟨c', hc', rfl⟩ hg
    rw [Call.request_opId, hid] at hg
    rw [h.traffic.distinct c' hc' c hc hg]
  cases hstep with
  | call hnew => exact Or.inl hm
  | @request g parses keep sendFails server hmem hserver =>
      rcases Server.receive_answers hserver hm hr with hm | ⟨hopId, hanswer⟩
      · exact Or.inl hm
      refine Or.inr ?_
      have hask : ¬ g.IsAck := fun hack => hanswer.elim (fun h => h.1 hack.1) fun h => h.1 hack.2
      obtain rfl := hcall g ((h.traffic.inFlight g hmem).resolve_right hask) hopId.symm
      rw [← (server_replays h.server).values]
      exact hanswer.looks
  | response hmem =>
      simp only [System.clientTurn, take_server] at hm
      exact Or.inl hm
  | drop hmem =>
      rw [take_server] at hm
      exact Or.inl hm
  | tick hserver =>
      rcases Server.tick_answers hserver hm hr with hm | ⟨opId, g, hdefer, hopId, hok⟩
      · exact Or.inl hm
      obtain ⟨hdelivered, hask, -⟩ := (h.refused c).1.deferred opId g hdefer
      obtain rfl := hcall g ((h.traffic.delivered g hdelivered).resolve_right hask) hopId.symm
      refine Or.inr (Or.inl ⟨fun hkind => ?_, hok⟩)
      exact (h.honest hkind).2.1 opId _ hdefer (Call.request_updateRequest hkind)

/-- Nothing is carried for a call that was not made. -/
theorem SystemReachable.not_carried (h : SystemReachable env fails ok t)
    (hnew : ∀ c' ∈ t.calls, c'.opId ≠ c.opId) {m : CacheMessage} {r : CacheOpResponse}
    (hm : t.server.mem.outer.Carries m) (hr : m.opResponse = some r) : m.opId ≠ c.opId := by
  intro hid
  obtain ⟨g, hg, hask, hopId⟩ := (h.refused c).1.carried m r hm hr
  obtain ⟨c', hc', rfl⟩ := (h.traffic.delivered g hg).resolve_right hask
  exact hnew c' hc' (c'.request_opId.symm.trans (hopId.trans hid))

/-- The response says `kOperationOk` to an update, or a look at the data since the call was made
explains it. -/
def Explained (past : List System) (t : System) (c : Call) (r : CacheOpResponse) : Prop :=
  (c.kind ≠ .read ∧ r.result = OpResult.kOperationOk.code) ∨
    ∃ n ≤ t.server.mem.trace.length, c.Looks (replay [] (t.server.mem.trace.take n)) r ∧
      ∀ s ∈ past, c ∉ s.calls → s.server.mem.trace.length ≤ n

/-- An explained response stays explained. -/
theorem Explained.step {r : CacheOpResponse} (h : Explained past t c r) (hc : c ∈ t.calls)
    (hbefore : t.Before t') : Explained (past ++ [t]) t' c r := by
  refine h.imp_right fun ⟨n, hn, hlooks, hfloor⟩ =>
    ⟨n, hn.trans hbefore.trace.length_le, by rwa [hbefore.take hn], ?_⟩
  exact List.forall_mem_append.mpr ⟨hfloor, List.forall_mem_singleton.mpr fun hnot =>
    absurd hc hnot⟩

/-- While the history had this length the call was on its way. -/
def Window (past : List System) (c : Call) (n : Nat) : Prop :=
  ∀ s ∈ past, (c ∉ s.calls → s.server.mem.trace.length ≤ n) ∧
    ((∃ reply, s.Told c reply) → n ≤ s.server.mem.trace.length)

/-- What holds of every run: the responses that the server carries are explained, and so is what
the calls are told. -/
structure Consistent (past : List System) (t : System) : Prop where
  before : ∀ s ∈ past, s.Before t
  single : Single t
  nodup : t.calls.Nodup
  inOrder : t.calls.Pairwise fun c c' => ¬ Precedes past c' c
  carried : ∀ c ∈ t.calls, ∀ m r, t.server.mem.outer.Carries m → m.opId = c.opId →
    m.opResponse = some r → Explained past t c r
  told : ∀ c reply, t.Told c reply →
    (c.kind ≠ .read ∧ reply = (OpResult.kOperationOk.code, none)) ∨
      ∃ n ≤ t.server.mem.trace.length, RegisterStep (replay [] (t.server.mem.trace.take n))
        (c.cacheId, c.kind) reply (replay [] (t.server.mem.trace.take n)) ∧ Window past c n

/-- At the start nothing is carried and nothing told. -/
theorem Consistent.initial : Consistent [] {} where
  before _ hs := nomatch hs
  single := ⟨fun _ _ h => (nomatch h), fun _ _ _ h => (nomatch h)⟩
  nodup := List.nodup_nil
  inOrder := .nil
  carried _ hc := nomatch hc
  told _ _ htold := nomatch htold.1

/-- What the server comes to carry is explained. -/
theorem Consistent.step_carried (h : Consistent past t) (hs : SystemReachable env fails ok t)
    {op : SystemOp} (hstep : t.Step env fails op t') : ∀ c ∈ t'.calls, ∀ m r,
      t'.server.mem.outer.Carries m → m.opId = c.opId → m.opResponse = some r →
        Explained (past ++ [t]) t' c r := by
  intro c hc m r hm hid hr
  have hbefore := hstep.before
  by_cases hold : c ∈ t.calls
  · rcases hstep.answers hs hold hm hid hr with hm | hok | hlooks
    · exact (h.carried c hold m r hm hid hr).step hold hbefore
    · exact Or.inl hok
    · refine Or.inr ⟨t.server.mem.trace.length, hbefore.trace.length_le, ?_, ?_⟩
      · rwa [hbefore.take le_rfl, List.take_length]
      · refine List.forall_mem_append.mpr ⟨fun s hsp _ => (h.before s hsp).trace.length_le, ?_⟩
        exact List.forall_mem_singleton.mpr fun _ => le_rfl
  · -- a call that is made now has no response yet
    cases hstep with
    | @call c' sendFails hnew =>
        obtain rfl := List.mem_singleton.mp ((List.mem_append.mp hc).resolve_left hold)
        exact absurd hid (hs.not_carried hnew hm hr)
    | @request g parses keep sendFails server hmem hserver =>
        have hc : c ∈ (t.take (.request g) keep).calls := hc
        rw [take_calls] at hc
        exact absurd hc hold
    | @response dest message parses keep sendFails hmem =>
        have hc : c ∈ (t.take (.response dest message) keep).calls := hc
        rw [take_calls] at hc
        exact absurd hc hold
    | drop hmem =>
        rw [take_calls] at hc
        exact absurd hc hold
    | tick hserver => exact absurd hc hold

/-- What a call is told is a look at the data. -/
theorem Call.Looks.registerStep {values : UInt64 → Option CacheData} {handled : Handled}
    {r : CacheOpResponse} (h : c.Looks values r) (hid : handled.cacheId = c.cacheId)
    (hhandled : handled = ⟨handled.opId, r.result, r.expire, r.cacheId, r.cacheData⟩) :
    RegisterStep values (c.cacheId, c.kind) (c.reply handled) values := by
  have hresult : handled.result = r.result := by rw [hhandled]
  have hcacheId : r.cacheId = c.cacheId := by rw [← hid, hhandled]
  have hcacheData : handled.cacheData = r.cacheData := by rw [hhandled]
  rw [Call.reply, hresult, hcacheData]
  rcases h with ⟨hkind, ⟨hok, hvalue⟩ | ⟨hnone, hvalue⟩⟩ | ⟨hkind, hretry⟩
  · rw [if_pos ⟨hkind, hok⟩, hok, hkind]
    exact .read (hcacheId ▸ hvalue)
  · rw [if_neg (fun hok => by rw [hnone] at hok; exact absurd hok.2 (by decide)), hnone, hkind]
    exact .noData (hcacheId ▸ hvalue)
  · rw [if_neg (fun hok => hkind hok.1), hretry]
    rcases hkind' : c.kind with _ | cacheData
    · exact absurd hkind' hkind
    · exact .retried

/-- What a call comes to be told is explained. -/
theorem Consistent.step_told (h : Consistent past t) {op : SystemOp}
    (hstep : t.Step env fails op t') (hsingle : Single t') (htraced : Traced t')
    (htraffic : Traffic t')
    (hcarried : ∀ c ∈ t'.calls, ∀ m r, t'.server.mem.outer.Carries m → m.opId = c.opId →
      m.opResponse = some r → Explained (past ++ [t]) t' c r) : ∀ c reply, t'.Told c reply →
    (c.kind ≠ .read ∧ reply = (OpResult.kOperationOk.code, none)) ∨
      ∃ n ≤ t'.server.mem.trace.length, RegisterStep (replay [] (t'.server.mem.trace.take n))
        (c.cacheId, c.kind) reply (replay [] (t'.server.mem.trace.take n)) ∧
          Window (past ++ [t]) c n := by
  intro c reply htold
  have hbefore := hstep.before
  by_cases hold : ∃ reply', t.Told c reply'
  · -- it was told before
    obtain ⟨reply', hold⟩ := hold
    obtain rfl := hsingle.told (hbefore.told hold) htold
    refine (h.told c _ hold).imp_right fun ⟨n, hn, hregister, hwindow⟩ =>
      ⟨n, hn.trans hbefore.trace.length_le, by rwa [hbefore.take hn], ?_⟩
    exact List.forall_mem_append.mpr ⟨hwindow, List.forall_mem_singleton.mpr
      ⟨fun hnot => absurd hold.1 hnot, fun _ => hn⟩⟩
  · -- it is told now, what the server carries for it
    obtain ⟨hc, handled, hmem, hid, rfl⟩ := htold
    obtain ⟨⟨c', hc', -, hopId, hcacheId⟩, x, hx, r, hr, hhandled⟩ := htraced.handled _ _ hmem
    obtain rfl : c' = c := htraffic.distinct c' hc' c hc (hopId.trans hid)
    have hxid : x.message.opId = handled.opId := by rw [hhandled]
    rcases hcarried c' hc x.message r (Or.inr ⟨x, hx, rfl⟩) (hxid.trans hid) hr with
      ⟨hkind, hok⟩ | ⟨n, hn, hlooks, hfloor⟩
    · refine Or.inl ⟨hkind, ?_⟩
      have hresult : handled.result = r.result := by rw [hhandled]
      rw [Call.reply, if_neg fun hread => hkind hread.1, hresult, hok]
    · refine Or.inr ⟨n, hn, hlooks.registerStep hcacheId.symm (by rw [← hxid]; exact hhandled),
        fun s hs => ⟨hfloor s hs, fun hearly => ?_⟩⟩
      obtain ⟨reply', hearly⟩ := hearly
      refine absurd ⟨reply', ?_⟩ hold
      rcases List.mem_append.mp hs with hs | hs
      · exact (h.before s hs).told hearly
      · exact List.mem_singleton.mp hs ▸ hearly

/-- Calls stand in the order in which they were made. -/
theorem Consistent.step_calls (h : Consistent past t) {op : SystemOp}
    (hstep : t.Step env fails op t') : t'.calls.Nodup ∧
      t'.calls.Pairwise fun c c' => ¬ Precedes (past ++ [t]) c' c := by
  have hsame : t.calls.Pairwise fun c c' => ¬ Precedes (past ++ [t]) c' c := by
    refine h.inOrder.imp_of_mem fun {c c'} hc _ hprec => ?_
    rintro ⟨s, hs, htold, hnot⟩
    rcases List.mem_append.mp hs with hs | hs
    · exact hprec ⟨s, hs, htold, hnot⟩
    · exact hnot (List.mem_singleton.mp hs ▸ hc)
  cases hstep with
  | @call c sendFails hnew =>
      refine ⟨List.nodup_append.mpr ⟨h.nodup, List.nodup_singleton c, ?_⟩,
        List.pairwise_append.mpr ⟨hsame, List.pairwise_singleton _ _, ?_⟩⟩
      · intro c₁ hc₁ c₂ hc₂ heq
        cases List.mem_singleton.mp hc₂
        exact hnew c₁ hc₁ (congrArg Call.opId heq)
      · rintro c₁ hc₁ c₂ hc₂ ⟨s, hs, ⟨reply, htold⟩, -⟩
        cases List.mem_singleton.mp hc₂
        have hbefore : s.Before t := by
          rcases List.mem_append.mp hs with hs | hs
          · exact h.before s hs
          · exact List.mem_singleton.mp hs ▸ .refl s
        exact hnew c (hbefore.calls htold.1) rfl
  | @request g parses keep sendFails server hmem hserver =>
      show (t.take (.request g) keep).calls.Nodup ∧ (t.take (.request g) keep).calls.Pairwise _
      rw [take_calls]
      exact ⟨h.nodup, hsame⟩
  | @response dest message parses keep sendFails hmem =>
      show (t.take (.response dest message) keep).calls.Nodup ∧
        (t.take (.response dest message) keep).calls.Pairwise _
      rw [take_calls]
      exact ⟨h.nodup, hsame⟩
  | drop hmem =>
      rw [take_calls]
      exact ⟨h.nodup, hsame⟩
  | tick hserver => exact ⟨h.nodup, hsame⟩

/-- **Every run is consistent.** -/
theorem SystemRuns.consistent (h : SystemRuns env fails (SystemSerial env fails) past t) :
    Consistent past t := by
  induction h with
  | initial => exact .initial
  | @step past t t' op hruns hok hstep ih =>
      have hs := hruns.reachable
      have hs' := SystemReachable.step op hs hok hstep
      have hspec := System.step_spec hstep
      have hsingle := ih.single.step hs.traced hok hspec
      have hcarried := ih.step_carried hs hspec
      have hbefore := hspec.before
      exact
        { before := List.forall_mem_append.mpr ⟨fun s hsp => (ih.before s hsp).trans hbefore,
            List.forall_mem_singleton.mpr hbefore⟩
          single := hsingle
          nodup := (ih.step_calls hspec).1
          inOrder := (ih.step_calls hspec).2
          carried := hcarried
          told := ih.step_told hspec hsingle hs'.traced hs'.traffic hcarried }

/-! ## Assignments -/

/-- The event with this index assigns the data of the request. -/
def AssignedAt (events : List (Event CacheData Request)) (f : Request) (k : Nat) : Prop :=
  ∃ event, events[k]? = some event ∧ event.Assigns f = true

/-- An event assigns for one request. -/
theorem Event.assigns_unique {event : Event CacheData Request} {f g : Request}
    (hf : event.Assigns f = true) (hg : event.Assigns g = true) : f = g := by
  cases event with
  | updated _ _ _ _ _ => exact (of_decide_eq_true hf).symm.trans (of_decide_eq_true hg)
  | moved _ call value =>
      obtain ⟨hcall, -⟩ := assigns_moved.mp hf
      obtain ⟨hcall', -⟩ := assigns_moved.mp hg
      exact Option.some.inj (hcall.symm.trans hcall')
  | read _ _ _ => cases hf
  | deferred _ _ _ _ => cases hf
  | retried _ _ _ => cases hf
  | completed _ _ _ _ _ _ => cases hf

/-- The assignment of a request changes the value under its key to its data. -/
theorem Event.assign_of_assigns {event : Event CacheData Request} {f : Request}
    (hf : event.Assigns f = true) (hstores : event.Stores f.key f.data = true)
    (values : UInt64 → Option CacheData) :
    event.assign [] values = Function.update values f.key (some f.data) := by
  cases event with
  | updated id _ _ value _ =>
      obtain ⟨rfl, rfl⟩ := of_decide_eq_true hstores
      rfl
  | moved id call value =>
      obtain ⟨-, hvalue⟩ := assigns_moved.mp hf
      obtain ⟨value, rfl⟩ := Option.ne_none_iff_exists'.mp hvalue
      obtain ⟨rfl, rfl⟩ := of_decide_eq_true hstores
      rfl
  | read _ _ _ => cases hf
  | deferred _ _ _ _ => cases hf
  | retried _ _ _ => cases hf
  | completed _ _ _ _ _ _ => cases hf

/-- An assignment is within the history. -/
theorem AssignedAt.lt {events : List (Event CacheData Request)} {f : Request} {k : Nat}
    (h : AssignedAt events f k) : k < events.length := by
  obtain ⟨event, hevent, -⟩ := h
  exact (List.getElem?_eq_some_iff.mp hevent).1

/-- What was assigned before stays where it is. -/
theorem System.Before.assignedAt {f : Request} {k : Nat} (h : t.Before t')
    (hk : k < t.server.mem.trace.length) :
    AssignedAt t'.server.mem.trace f k ↔ AssignedAt t.server.mem.trace f k := by
  obtain ⟨events, hevents⟩ := h.trace
  rw [AssignedAt, ← hevents, List.getElem?_append_left hk, AssignedAt]

/-- What is assigned once has one index. -/
theorem AssignedAt.unique {events : List (Event CacheData Request)} {f : Request} {k k' : Nat}
    (hk : AssignedAt events f k) (hk' : AssignedAt events f k')
    (honce : events.countP (Event.Assigns f) ≤ 1) : k = k' := by
  have hlt : ∀ {k k'}, AssignedAt events f k → AssignedAt events f k' → ¬ k < k' := by
    rintro k k' ⟨event, hevent, hf⟩ ⟨event', hevent', hf'⟩ hlt
    rw [← List.take_append_drop k' events, List.countP_append] at honce
    have hfirst : event ∈ events.take k' := List.mem_of_getElem? (i := k) (by
      rw [List.getElem?_take_of_lt hlt, hevent])
    have hsecond : event' ∈ events.drop k' := List.mem_of_getElem? (i := 0) (by
      rw [List.getElem?_drop, Nat.add_zero, hevent'])
    have hpos : 0 < (events.take k').countP (Event.Assigns f) :=
      List.countP_pos_iff.mpr ⟨event, hfirst, hf⟩
    have hpos' : 0 < (events.drop k').countP (Event.Assigns f) :=
      List.countP_pos_iff.mpr ⟨event', hsecond, hf'⟩
    omega
  have h₁ := hlt hk hk'
  have h₂ := hlt hk' hk
  omega

/-- In a serial run no update request reaches the server twice. -/
theorem SystemReachable.once (h : SystemReachable env fails (SystemSerial env fails) t) {f : Request}
    (hf : f.message.updateRequest ≠ none) : t.delivered.count f ≤ 1 := by
  induction h with
  | initial => exact Nat.zero_le 1
  | @step t t' op _ hok hstep ih =>
      cases System.step_spec hstep with
      | call hnew => exact ih
      | @request g parses keep sendFails server hmem hserver =>
          show (t.delivered ++ [g]).count f ≤ 1
          rw [List.count_append]
          by_cases hg : g = f
          · subst hg
            rw [List.count_singleton_self, List.count_eq_zero.mpr (hok.2 hf)]
          · rw [List.count_singleton, if_neg (by simpa using hg)]
            exact ih
      | @response dest message parses keep sendFails hmem =>
          show (t.take (.response dest message) keep).delivered.count f ≤ 1
          rw [take_delivered]
          exact ih
      | drop hmem =>
          rw [take_delivered]
          exact ih
      | tick hserver => exact ih

/-- In a serial run the low bits of the op ids are different. -/
theorem SystemReachable.lowApart (h : SystemReachable env fails (SystemSerial env fails) t) :
    ∀ c ∈ t.calls, LowApart t c := by
  induction h with
  | initial => exact fun _ hc => nomatch hc
  | @step t t' op _ hok hstep ih =>
      cases System.step_spec hstep with
      | @call c sendFails hnew =>
          intro c₁ hc₁ c₂ hc₂ hlow
          rcases List.mem_append.mp hc₁ with hc₁ | hc₁ <;> rcases List.mem_append.mp hc₂ with hc₂ | hc₂
          · exact ih c₁ hc₁ c₂ hc₂ hlow
          · cases List.mem_singleton.mp hc₂
            exact absurd hlow.symm (hok c₁ hc₁)
          · cases List.mem_singleton.mp hc₁
            exact absurd hlow (hok c₂ hc₂)
          · exact (List.mem_singleton.mp hc₂).trans (List.mem_singleton.mp hc₁).symm
      | request hmem hserver =>
          intro c₁ hc₁
          have hc₁ : c₁ ∈ (t.take _ _).calls := hc₁
          rw [take_calls] at hc₁
          intro c₂ hc₂
          have hc₂ : c₂ ∈ (t.take _ _).calls := hc₂
          rw [take_calls] at hc₂
          exact ih c₁ hc₁ c₂ hc₂
      | response hmem =>
          intro c₁ hc₁
          have hc₁ : c₁ ∈ (t.take _ _).calls := hc₁
          rw [take_calls] at hc₁
          intro c₂ hc₂
          have hc₂ : c₂ ∈ (t.take _ _).calls := hc₂
          rw [take_calls] at hc₂
          exact ih c₁ hc₁ c₂ hc₂
      | drop hmem =>
          intro c₁ hc₁ c₂ hc₂
          rw [take_calls] at hc₁ hc₂
          exact ih c₁ hc₁ c₂ hc₂
      | tick hserver => exact ih

/-- The data of an update call is assigned once at most. -/
theorem SystemReachable.assigned_unique (h : SystemReachable env fails (SystemSerial env fails) t)
    {f : Request} (hf : f.message.updateRequest ≠ none) {k k' : Nat}
    (hk : AssignedAt t.server.mem.trace f k) (hk' : AssignedAt t.server.mem.trace f k') : k = k' :=
  hk.unique hk' ((h.counted f).assigned.trans (h.once hf))

/-- What an update call is told, and whether its data is assigned. -/
theorem SystemReachable.update_told (h : SystemReachable env fails (SystemSerial env fails) t)
    {reply : UInt32 × Option CacheData} (hkind : c.kind ≠ .read) (htold : t.Told c reply) :
    (reply.1 = OpResult.kOperationOk.code → ∃ k, AssignedAt t.server.mem.trace c.request k) ∧
      (reply.1 = OpResult.kOperationRetry.code → ∀ k, ¬ AssignedAt t.server.mem.trace c.request k) := by
  obtain ⟨hc, handled, hmem, hid, rfl⟩ := htold
  obtain ⟨cacheData, hcall⟩ := Call.kind_of_ne_read hkind
  obtain ⟨x, hx, r, hr, hxid, hresult⟩ := h.traffic.handled _ _ hmem
  have hrequest : x.message.opId = c.request.message.opId := by rw [hxid, hid, Call.request_opId]
  have hany : SystemReachable env fails AnyStep t := h.mono fun _ _ _ => trivial
  have honce : t.delivered.count c.request ≤ 1 := h.once (Call.asks_update hkind)
  constructor
  · intro hok
    have hhonoured := ((hany.onTime_of_once honce).honoured hcall).2
      (h.traffic.lowAlone (h.lowApart c hc))
    obtain ⟨event, hevent, hassigns⟩ := hhonoured.honest x.message r (Or.inr ⟨x, hx, rfl⟩) hrequest
      hr (hresult.trans hok)
    obtain ⟨k, hk⟩ := List.getElem?_of_mem hevent
    exact ⟨k, event, hk, hassigns⟩
  · rintro hretry k ⟨event, hevent, hassigns⟩
    have hrefused := (h.refused c).2 (h.traffic.alone hc) honce
    have hnone := (hrefused ⟨x.message, r, Or.inr ⟨x, hx, rfl⟩, hrequest, hr,
      hresult.trans hretry⟩).1 event (List.mem_of_getElem? hevent)
    rw [hassigns] at hnone
    cases hnone

/-- What is assigned was asked for by an update call. -/
theorem SystemReachable.assigned_call (h : SystemReachable env fails ok t) {f : Request} {k : Nat}
    (hf : f.message.updateRequest ≠ none) (hk : AssignedAt t.server.mem.trace f k) :
    ∃ c ∈ t.calls, c.kind ≠ .read ∧ f = c.request := by
  obtain ⟨event, hevent, hassigns⟩ := hk
  have hdelivered := (h.refused ⟨0, 0, 0, .read, 0⟩).1.assigned event (List.mem_of_getElem? hevent)
    f hassigns
  obtain ⟨c, hc, rfl⟩ := (h.traffic.delivered f hdelivered).resolve_right fun hack => hf hack.2
  exact ⟨c, hc, fun hkind => hf (Call.request_updateRequest hkind), rfl⟩

/-! ## The order -/

/-- Where a call takes effect, and what it is told. -/
inductive Placed (past : List System) (t : System) (c : Call) :
    Option (Point × (UInt32 × Option CacheData)) → Prop
  /-- An update that is assigned. -/
  | entry {k} (hkind : c.kind ≠ .read) (hk : AssignedAt t.server.mem.trace c.request k) :
      Placed past t c (some (.entry k, (OpResult.kOperationOk.code, none)))
  /-- A call that is answered and changes nothing. -/
  | look {n reply} (htold : t.Told c reply) (hn : n ≤ t.server.mem.trace.length)
      (hregister : RegisterStep (replay [] (t.server.mem.trace.take n)) (c.cacheId, c.kind) reply
        (replay [] (t.server.mem.trace.take n))) (hwindow : Window past c n)
      (hnot : c.kind ≠ .read → ∀ k, ¬ AssignedAt t.server.mem.trace c.request k) :
      Placed past t c (some (.look n, reply))
  /-- A call without answer that changed nothing so far. -/
  | pending (hnot : c.kind ≠ .read → ∀ k, ¬ AssignedAt t.server.mem.trace c.request k)
      (huntold : ∀ reply, ¬ t.Told c reply) : Placed past t c none

/-- **Every call takes effect at some point**, or is still under way. -/
theorem exists_placed (h : SystemRuns env fails (SystemSerial env fails) past t) (c : Call) :
    ∃ point, Placed past t c point := by
  by_cases hassigned : c.kind ≠ .read ∧ ∃ k, AssignedAt t.server.mem.trace c.request k
  · obtain ⟨hkind, k, hk⟩ := hassigned
    exact ⟨_, .entry hkind hk⟩
  · have hnot : c.kind ≠ .read → ∀ k, ¬ AssignedAt t.server.mem.trace c.request k :=
      fun hkind k hk => hassigned ⟨hkind, k, hk⟩
    by_cases htold : ∃ reply, t.Told c reply
    · obtain ⟨reply, htold⟩ := htold
      rcases h.consistent.told c reply htold with ⟨hkind, rfl⟩ | ⟨n, hn, hregister, hwindow⟩
      · obtain ⟨k, hk⟩ := (h.reachable.update_told hkind htold).1 rfl
        exact absurd hk (hnot hkind k)
      · exact ⟨_, .look htold hn hregister hwindow hnot⟩
    · exact ⟨none, .pending hnot fun reply h => htold ⟨reply, h⟩⟩

/-- An update that is assigned is told `kOperationOk`, if anything. -/
theorem SystemRuns.told_of_assigned (h : SystemRuns env fails (SystemSerial env fails) past t)
    (hkind : c.kind ≠ .read) {k : Nat} (hk : AssignedAt t.server.mem.trace c.request k)
    {reply : UInt32 × Option CacheData} (htold : t.Told c reply) :
    reply = (OpResult.kOperationOk.code, none) := by
  rcases h.consistent.told c reply htold with ⟨-, rfl⟩ | ⟨n, -, hregister, -⟩
  · rfl
  · refine (hregister.told hkind).resolve_right fun hretry => ?_
    exact (h.reachable.update_told hkind htold).2 (by rw [hretry]) k hk

/-- An update takes effect while it is on its way. -/
theorem SystemRuns.assigned_window (h : SystemRuns env fails (SystemSerial env fails) past t)
    (hkind : c.kind ≠ .read) (hc : c ∈ t.calls) {k : Nat}
    (hk : AssignedAt t.server.mem.trace c.request k) {s : System} (hs : s ∈ past) :
    (c ∉ s.calls → s.server.mem.trace.length ≤ k) ∧
      ((∃ reply, s.Told c reply) → k < s.server.mem.trace.length) := by
  have hbefore := h.consistent.before s hs
  have hreach := h.past_reachable s hs
  have hf := Call.asks_update hkind
  constructor
  · intro hnot
    by_contra hlt
    obtain ⟨c', hc', -, hrequest⟩ := hreach.assigned_call hf
      ((hbefore.assignedAt (Nat.lt_of_not_le hlt)).mp hk)
    have hopId : c'.opId = c.opId := by rw [← Call.request_opId, ← hrequest, Call.request_opId]
    exact hnot (h.reachable.traffic.distinct c' (hbefore.calls hc') c hc hopId ▸ hc')
  · rintro ⟨reply, htold⟩
    have hreply := h.told_of_assigned hkind hk (hbefore.told htold)
    obtain ⟨k', hk'⟩ := (hreach.update_told hkind htold).1 (by rw [hreply])
    rw [h.reachable.assigned_unique hf hk ((hbefore.assignedAt hk'.lt).mpr hk')]
    exact hk'.lt

/-- The assignment of an update is a step of the registers. -/
theorem SystemReachable.entry_step (h : SystemReachable env fails ok t) (hkind : c.kind ≠ .read)
    {k : Nat} (hk : AssignedAt t.server.mem.trace c.request k) :
    RegisterStep (replay [] (t.server.mem.trace.take k)) (c.cacheId, c.kind)
      (OpResult.kOperationOk.code, none) (replay [] (t.server.mem.trace.take (k + 1))) := by
  obtain ⟨cacheData, hcall⟩ := Call.kind_of_ne_read hkind
  obtain ⟨event, hevent, hassigns⟩ := hk
  have hkey : c.request.key = c.cacheId.toUInt64 := by
    simp only [Request.key, Call.request, Call.message, hcall]
    rfl
  have hdata : c.request.data = cacheData := by
    simp only [Request.data, Call.request, Call.message, hcall]
    rfl
  rw [List.take_add_one, hevent, Option.toList_some, replay_concat,
    Event.assign_of_assigns hassigns
      (h.genuine.assigned event (List.mem_of_getElem? hevent) _ hassigns), hkey, hdata, hcall]
  exact .updated

/-- What is no call's entry changes nothing. -/
theorem SystemReachable.idle_step (h : SystemReachable env fails (SystemPunctual env fails) t)
    {k : Nat} (hnone : ∀ c ∈ t.calls, c.kind ≠ .read → ¬ AssignedAt t.server.mem.trace c.request k) :
    replay [] (t.server.mem.trace.take (k + 1)) = replay [] (t.server.mem.trace.take k) := by
  rw [List.take_add_one]
  rcases hevent : t.server.mem.trace[k]? with _ | event
  · rw [Option.toList_none, List.append_nil]
  · rw [Option.toList_some, replay_concat]
    funext id
    refine Event.assign_of_not_writes (fun hwrites => ?_) _ _
    obtain ⟨f, hassigns, hf⟩ := (written_of_punctual (h.punctual ⟨{}, 0⟩).1).2 event
      (List.mem_of_getElem? hevent) id hwrites
    obtain ⟨c, hc, hkind, rfl⟩ := h.assigned_call hf ⟨event, hevent, hassigns⟩
    exact hnone c hc hkind ⟨event, hevent, hassigns⟩

/-- An entry is that of one call. -/
theorem SystemReachable.call_unique (h : SystemReachable env fails ok t) (hc : c ∈ t.calls)
    (hc' : c' ∈ t.calls) {k : Nat} (hk : AssignedAt t.server.mem.trace c.request k)
    (hk' : AssignedAt t.server.mem.trace c'.request k) : c' = c := by
  obtain ⟨event, hevent, hassigns⟩ := hk
  obtain ⟨event', hevent', hassigns'⟩ := hk'
  cases hevent.symm.trans hevent'
  refine h.traffic.distinct c' hc' c hc ?_
  rw [← Call.request_opId, Event.assigns_unique hassigns' hassigns, Call.request_opId]

/-- A call takes effect while it is on its way. -/
theorem Placed.window {x : Point} {reply : UInt32 × Option CacheData}
    (hplaced : Placed past t c (some (x, reply)))
    (h : SystemRuns env fails (SystemSerial env fails) past t) (hc : c ∈ t.calls) {s : System}
    (hs : s ∈ past) : (c ∉ s.calls → x.From s.server.mem.trace.length) ∧
      ((∃ reply, s.Told c reply) → x.UpTo s.server.mem.trace.length) := by
  cases hplaced with
  | entry hkind hk => exact h.assigned_window hkind hc hk hs
  | look htold hn hregister hwindow hnot => exact hwindow s hs

/-- An update that is assigned takes effect there. -/
theorem Placed.entry_of_assigned {point : Option (Point × (UInt32 × Option CacheData))}
    (hplaced : Placed past t c point) (h : SystemReachable env fails (SystemSerial env fails) t)
    (hkind : c.kind ≠ .read) {k : Nat} (hk : AssignedAt t.server.mem.trace c.request k) :
    ∃ reply, point = some (.entry k, reply) := by
  cases hplaced with
  | entry hkind' hk' =>
      obtain rfl := h.assigned_unique (Call.asks_update hkind) hk hk'
      exact ⟨_, rfl⟩
  | look htold hn hregister hwindow hnot => exact absurd hk (hnot hkind k)
  | pending hnot huntold => exact absurd hk (hnot hkind k)

/-- What a call is told is what it is placed with. -/
theorem Placed.of_told {point : Option (Point × (UInt32 × Option CacheData))}
    (hplaced : Placed past t c point) (h : SystemRuns env fails (SystemSerial env fails) past t)
    {reply : UInt32 × Option CacheData} (htold : t.Told c reply) :
    ∃ x, point = some (x, reply) := by
  cases hplaced with
  | entry hkind hk => exact ⟨_, by rw [h.told_of_assigned hkind hk htold]⟩
  | look htold' hn hregister hwindow hnot =>
      exact ⟨_, by rw [h.consistent.single.told htold' htold]⟩
  | pending hnot huntold => exact absurd htold (huntold reply)

/-- A serial step is punctual. -/
theorem SystemSerial.punctual {op : SystemOp} (hok : SystemSerial env fails t op) :
    SystemPunctual env fails t op := by
  cases op with
  | call c sendFails => trivial
  | deliver d parses keep sendFails =>
      cases d with
      | request g => exact hok.1
      | response dest message => trivial
  | drop d => trivial
  | tick fuel => exact hok

/-- A serial run has its linearization: the log of the server, with every other call where it looked
at it. -/
theorem SystemRuns.linearizable (h : SystemRuns env fails (SystemSerial env fails) past t) :
    Linearizable registers (systemHistory past t) := by
  have hreach := h.reachable
  have hpunctual := hreach.mono fun _ _ => SystemSerial.punctual
  choose points hpoints using exists_placed h
  -- the place of a call, where it is known
  have hat {c x reply} (hx : points c = some (x, reply)) : Placed past t c (some (x, reply)) :=
    hx ▸ hpoints c
  refine linearizable_of_log points (fun n => replay [] (t.server.mem.trace.take n))
    t.server.mem.trace.length h.consistent.nodup h.consistent.inOrder
    (fun c reply htold => ⟨htold.1, (hpoints c).of_told h htold⟩)
    (fun c c' x y r r' hc hc' hprec hx hy => ?_) rfl (fun c n r hc hx => ?_) (fun c k r hc hx => ?_)
    fun k hk hnone => ?_
  · -- the state in which `c` has its answer and `c'` was not made lies between them
    obtain ⟨s, hs, htold, hnot⟩ := hprec
    exact ⟨s.server.mem.trace.length, ((hat hx).window h hc hs).2 htold,
      ((hat hy).window h hc' hs).1 hnot⟩
  · cases hat hx with
    | look htold hn hregister hwindow hnot => exact ⟨hn, hregister⟩
  · cases hat hx with
    | entry hkind hk =>
        refine ⟨hk.lt, hreach.entry_step hkind hk, fun c' hc' r' hy => ?_⟩
        cases hat hy with
        | entry hkind' hk' => exact hreach.call_unique hc hc' hk hk'
  · refine hpunctual.idle_step fun c hc hkind hk' => ?_
    obtain ⟨reply, hx⟩ := (hpoints c).entry_of_assigned hreach hkind hk'
    exact hnone c hc reply hx

/-- **The calls of the clients are linearizable** in every serial run, whatever the network delays,
loses and reorders, and however often it repeats reads and responses. -/
theorem calls_linearizable : ∀ past t, SystemRuns env fails (SystemSerial env fails) past t →
    Linearizable registers (systemHistory past t) :=
  fun _ _ h => h.linearizable

/-- An update and a read that overlap, as a case of `calls_linearizable`. -/
theorem calls_linearizable_overlap : ∃ (past : List System) (t : System),
    t.Told (updateCall 7 11 1 [5]) (OpResult.kOperationOk.code, none) ∧
      t.Told ⟨8, 12, 1, .read, 0⟩ (OpResult.kOperationOk.code, some [5]) ∧
        Linearizable registers (systemHistory past t) := by
  have h₁ : SystemRuns stillClock (fun _ => false) (SystemSerial stillClock fun _ => false) _ _ :=
    .step (.call (updateCall 7 11 1 [5]) false) .initial (fun _ hc => nomatch hc) rfl
  have h₂ := h₁.step (.call ⟨8, 12, 1, .read, 0⟩ false) (fun c hc => by
    cases List.mem_singleton.mp hc
    decide) rfl
  have h₃ := h₂.step (.deliver (.request (updateCall 7 11 1 [5]).request) true false false)
    ⟨fun m hm => by
      cases hm
      exact ⟨fun read hread => (by cases hread), fun update request hupdate => by
        cases hupdate
        intro e he
        cases he⟩, fun _ hg => nomatch hg⟩ rfl
  have h₄ := h₃.step (.deliver (.request (⟨8, 12, 1, .read, 0⟩ : Call).request) true false false)
    ⟨fun m hm => by
      cases hm
      refine ⟨fun read hread => ?_, fun update request hupdate => (by cases hupdate)⟩
      cases hread
      intro e he _
      obtain rfl := Option.some.inj he
      decide, fun hg => absurd rfl hg⟩ rfl
  have h₅ := h₄.step (.deliver (.response 7
    (updateResponse (updateCall 7 11 1 [5]).message 10000 .kOperationOk)) true false false) rfl rfl
  have h₆ := h₅.step (.deliver (.response 8 ⟨some ⟨headerMagic, headerVersion, kReadResponse, 12⟩,
    none, none, some ⟨OpResult.kOperationOk.code, 0, 10000, 1, [5]⟩⟩) true false false) rfl rfl
  exact ⟨_, _, ⟨by decide, ⟨11, OpResult.kOperationOk.code, 10000, 1, [5]⟩, by decide, rfl, rfl⟩,
    ⟨by decide, ⟨12, OpResult.kOperationOk.code, 10000, 1, [5]⟩, by decide, rfl, rfl⟩,
    calls_linearizable _ _ h₆⟩

end CacheSystem

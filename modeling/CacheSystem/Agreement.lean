import CacheSystem.Network

/-!
# Whether client and server agree on an update

A client learns from the first answer that it takes whether its update was assigned. The server
answers every copy of a request by the state that the copy finds, and a deferred update by the
message that stands under the op id of the element's manager.

* `Sourced` : what the server holds, has assigned and says comes from requests that reached it.
* `Honoured` : a message that says `kOperationOk` follows the assignment. It needs the low 32 bits
  of the op id to be the call's own, and no later copy to find the lease overdue.
* `Refused` : after a message that says `kOperationRetry` nothing is assigned. It needs that the
  request reaches the server once at most.
* `outcome_agreed` : both for the handles that are invoked.
-/

namespace CacheSystem

variable {env : Env} {fails : Nat → Bool} {mem mem' : CenterMem CacheData Request ServerMem}

/-! ## Where it comes from -/

/-- What the server holds, has assigned and says comes from these requests. -/
structure Sourced (delivered : List Request) (mem : CenterMem CacheData Request ServerMem) :
    Prop where
  held : ∀ id e g, mem.map id = some e → e.call = some g → g ∈ delivered
  assigned : ∀ event ∈ mem.trace, ∀ g : Request, event.Assigns g = true → g ∈ delivered
  deferred : ∀ opId g, mem.outer.deferMessages opId = some g →
    g ∈ delivered ∧ ¬ g.IsAck ∧ g.low = opId ∧ opId ≠ 0
  carried : ∀ m r, mem.outer.Carries m → m.opResponse = some r →
    ∃ g ∈ delivered, ¬ g.IsAck ∧ g.message.opId = m.opId

/-- At the start the server holds nothing. -/
theorem Sourced.initial : Sourced [] Server.initial.mem := by
  refine ⟨fun _ _ _ h => (nomatch h), fun _ h => (nomatch h), fun _ _ h => (nomatch h), ?_⟩
  rintro m r (⟨ptr, ack, hack, -⟩ | ⟨x, hx, -⟩)
  · cases hack
  · cases hx

/-- The log does not count. -/
theorem Sourced.log {delivered : List Request} (h : Sourced delivered mem)
    (log : List ServerEvent) :
    Sourced delivered { mem with outer := { mem.outer with log := log } } :=
  ⟨h.held, h.assigned, h.deferred, h.carried⟩

/-- One more request reached the server. -/
theorem Sourced.more {delivered : List Request} (h : Sourced delivered mem) (g : Request) :
    Sourced (delivered ++ [g]) mem := by
  refine ⟨fun id e f he hcall => List.mem_append_left _ (h.held id e f he hcall),
    fun event hmem f hf => List.mem_append_left _ (h.assigned event hmem f hf),
    fun opId f hf => (h.deferred opId f hf).imp_left (List.mem_append_left _), fun m r hm hr => ?_⟩
  obtain ⟨f, hf, hask, hid⟩ := h.carried m r hm hr
  exact ⟨f, List.mem_append_left _ hf, hask, hid⟩

/-- What a datagram brings comes from its request. -/
theorem Sourced.received {delivered : List Request} {g : Request} {late : Prop}
    (h : Sourced delivered mem) (hr : Received g late mem mem') :
    Sourced (delivered ++ [g]) mem' := by
  have hmore := h.more g
  have hg : g ∈ delivered ++ [g] := List.mem_append_right _ (List.mem_singleton_self g)
  refine ⟨fun id e f he hcall => ?_, fun event hmem f hf => ?_, fun opId f hf => ?_,
    fun m r hm hresponse => ?_⟩
  · rcases hr.held he hcall with ⟨e₀, he₀, hcall₀, -⟩ | ⟨rfl, -⟩
    · exact hmore.held id e₀ f he₀ hcall₀
    · exact hg
  · rcases hr.assigns hmem hf with hmem | ⟨rfl, -⟩
    · exact hmore.assigned event hmem f hf
    · exact hg
  · rcases hr.defers hf with hf | ⟨rfl, rfl, h0, hupdate⟩
    · exact hmore.deferred opId f hf
    · exact ⟨hg, fun hack => hupdate hack.2, rfl, h0⟩
  · rcases hr.says hm hresponse with hm | ⟨hid, hask⟩
    · exact hmore.carried m r hm hresponse
    · exact ⟨g, hg, fun hack => hask.elim (· hack.1) fun hask => hask.1 hack.2, hid.symm⟩

/-- A callback brings nothing of another source. -/
theorem Sourced.fired {delivered : List Request} (h : Sourced delivered mem)
    (hr : Fired mem mem') : Sourced delivered mem' := by
  refine ⟨fun id e' g he' hcall => ?_, fun event hmem g hg => ?_,
    fun opId g hg => h.deferred opId g (hr.defers hg), fun m r hm hresponse => ?_⟩
  · obtain ⟨e, he, hcall, -⟩ := hr.held he' hcall
    exact h.held id e g he hcall
  · rcases hr.assigns hmem hg with hmem | ⟨id, e, value, he, hcall, -, -⟩
    · exact h.assigned event hmem g hg
    · exact h.held id e g he hcall
  · rcases hr.says hm hresponse with hm | ⟨id, e, request, expire, -, -, hrequest, rfl⟩
    · exact h.carried m r hm hresponse
    · obtain ⟨hmem, hask, -⟩ := h.deferred _ _ hrequest
      exact ⟨request, hmem, hask, rfl⟩

/-! ## `kOperationOk` -/

/-- The request is the only one of these whose op id has its low bits. -/
def LowAlone (f : Request) (delivered : List Request) : Prop :=
  ∀ g ∈ delivered, ¬ g.IsAck → g.low = f.low → g = f

/-- The data of the request was assigned. -/
def Assigned (f : Request) (mem : CenterMem CacheData Request ServerMem) : Prop :=
  ∃ event ∈ mem.trace, event.Assigns f = true

/-- What was assigned stays assigned. -/
theorem Assigned.mono {f : Request} (h : Assigned f mem)
    (htrace : ∀ event ∈ mem.trace, event ∈ mem'.trace) : Assigned f mem' := by
  obtain ⟨event, hmem, hf⟩ := h
  exact ⟨event, htrace event hmem, hf⟩

/-- A message that says `kOperationOk` follows the assignment. -/
structure Honoured (f : Request) (mem : CenterMem CacheData Request ServerMem) : Prop where
  /-- The low bits of the op id stand in the element of the request. -/
  own : ∀ id e, mem.map id = some e → f.low ≠ 0 → e.state.opId = f.low → id = f.key
  /-- While a message stands under the low bits, that element holds the update back. -/
  waits : mem.outer.deferMessages f.low ≠ none → Assigned f mem ∨
    ∀ id e, mem.map id = some e → e.state.opId = f.low → e.call = some f ∧ e.tempValue ≠ none
  honest : ∀ m r, mem.outer.Carries m → m.opId = f.message.opId → m.opResponse = some r →
    r.result = OpResult.kOperationOk.code → Assigned f mem

/-- At the start no message says `kOperationOk`. -/
theorem Honoured.initial (f : Request) : Honoured f Server.initial.mem := by
  refine ⟨fun _ _ h => (nomatch h), fun h => absurd rfl h, ?_⟩
  rintro m r (⟨ptr, ack, hack, -⟩ | ⟨x, hx, -⟩)
  · cases hack
  · cases hx

/-- The log of the server is apart. -/
theorem Honoured.log {f : Request} (h : Honoured f mem) (log : List ServerEvent) :
    Honoured f { mem with outer := { mem.outer with log := log } } :=
  ⟨h.own, h.waits, h.honest⟩

/-- The elements hold back what they held back, and a new op id with the low bits of `f` stands in
its element while no message waits. -/
theorem Honoured.of_sameHeld {f : Request} {delivered : List Request}
    {p : UInt64 → UInt32 → Prop} (h : Honoured f mem) (hs : Sourced delivered mem)
    (hsame : SameHeld p mem.map mem'.map)
    (hp : ∀ id, p id f.low → id = f.key ∧ mem.outer.deferMessages f.low = none)
    (hassigned : Assigned f mem → Assigned f mem')
    (hdefers : mem'.outer.deferMessages = mem.outer.deferMessages)
    (honest : ∀ m r, mem'.outer.Carries m → m.opId = f.message.opId → m.opResponse = some r →
      r.result = OpResult.kOperationOk.code → Assigned f mem') : Honoured f mem' := by
  have hold : ∀ {id e'}, mem'.map id = some e' → f.low ≠ 0 → e'.state.opId = f.low →
      (∃ e, mem.map id = some e ∧ e.state.opId = f.low ∧ e'.call = e.call ∧
        e'.tempValue = e.tempValue) ∨ p id f.low := by
    intro id e' he' h0 hop
    obtain ⟨e, he, hcall, htemp, hsameop | hnew⟩ := hsame id e' he'
    · rcases he with he | ⟨-, rfl⟩
      · exact Or.inl ⟨e, he, hsameop ▸ hop, hcall, htemp⟩
      · exact absurd (hop.symm.trans hsameop) h0
    · exact Or.inr (hop ▸ hnew)
  refine ⟨fun id e' he' h0 hop => ?_, fun hdefer => ?_, honest⟩
  · rcases hold he' h0 hop with ⟨e, he, hop, -⟩ | hnew
    · exact h.own id e he h0 hop
    · exact (hp id hnew).1
  · rw [hdefers] at hdefer
    obtain ⟨g, hg⟩ := Option.ne_none_iff_exists'.mp hdefer
    obtain ⟨-, -, -, h0⟩ := hs.deferred _ _ hg
    refine (h.waits hdefer).imp hassigned fun hheld id e' he' hop => ?_
    rcases hold he' h0 hop with ⟨e, he, hop, hcall, htemp⟩ | hnew
    · rw [hcall, htemp]
      exact hheld id e he hop
    · exact absurd (hp id hnew).2 hdefer

/-- **A datagram** keeps `Honoured`, if it is not a second copy of `f` that finds the lease
overdue. -/
theorem Honoured.received {f g : Request} {delivered : List Request} {late : Prop}
    (h : Honoured f mem) (hs : Sourced delivered mem) (halone : LowAlone f (delivered ++ [g]))
    (hread : f.message.readRequest = none) (hask : late → ¬ g.IsAck)
    (hlate : g = f → late → f ∉ delivered) (hr : Received g late mem mem') : Honoured f mem' := by
  have hg : ¬ g.IsAck → g.low = f.low → g = f :=
    halone g (List.mem_append_right _ (List.mem_singleton_self g))
  have hupdated : g.message.updateRequest ≠ none → ¬ g.IsAck := fun h hack => h hack.2
  have hwaiting : mem.outer.deferMessages f.low ≠ none → f ∈ delivered := by
    intro hdefer
    obtain ⟨f', hf'⟩ := Option.ne_none_iff_exists'.mp hdefer
    obtain ⟨hmem, hask', hlow, -⟩ := hs.deferred _ _ hf'
    exact halone f' (List.mem_append_left _ hmem) hask' hlow ▸ hmem
  have hassigned : Assigned f mem → Assigned f mem' := (·.mono hr.trace_mem)
  have hhonest : ∀ m r, mem'.outer.Carries m → m.opId = f.message.opId → m.opResponse = some r →
      r.result = OpResult.kOperationOk.code → Assigned f mem' := by
    intro m r hm hid hresponse hok
    rcases hr.says hm hresponse with hm | ⟨hid', hnew⟩
    · exact hassigned (h.honest m r hm hid hresponse hok)
    · have hlow : g.low = f.low := by rw [Request.low, Request.low, ← hid, hid']
      obtain rfl : g = f :=
        hg (fun hack => hnew.elim (· hack.1) fun hnew => hnew.1 hack.2) hlow
      rcases (hnew.resolve_left (by rw [hread]; simp)).2 with hretry | ⟨-, hassigned⟩
      · rw [hretry] at hok
        cases hok
      · exact hassigned
  cases hr with
  | @other events hsame htrace hevents hdefers hcarries =>
      refine h.of_sameHeld hs hsame (fun id hp => ?_) hassigned hdefers hhonest
      obtain ⟨hop, hnew⟩ := hp
      have hgf : g = f := hg (fun hack => hnew.elim (· hack.1) fun hnew => hask hnew.1 hack)
        hop.symm
      obtain ⟨hl, hkey⟩ := hnew.resolve_left (by rw [hgf, hread]; simp)
      refine ⟨by rw [hkey, hgf], ?_⟩
      by_contra hdefer
      exact hlate hgf hl (hwaiting hdefer)
  | assigned hupdate hsame htrace hdefers hcarries =>
      exact h.of_sameHeld hs hsame (fun _ hp => hp.elim) hassigned hdefers hhonest
  | @deferred e' hupdate h0 hmap hcall htemp hop htrace hdefers hcarries =>
      -- the element under the key of `g` has the op id of `g`, the others are unchanged
      refine ⟨fun id e he hf0 hlow' => ?_, fun hdefer => ?_, hhonest⟩
      · rw [hmap] at he
        rcases Lib.Table.of_assign he with ⟨rfl, rfl⟩ | ⟨-, he⟩
        · rw [hg (hupdated hupdate) (hop.symm.trans hlow')]
        · exact h.own id e he hf0 hlow'
      · by_cases hgf : g.low = f.low
        · obtain rfl := hg (hupdated hupdate) hgf
          refine Or.inr fun id e he hlow' => ?_
          rw [hmap] at he
          rcases Lib.Table.of_assign he with ⟨-, rfl⟩ | ⟨hid, he⟩
          · rw [hcall, htemp]
            simp
          · exact absurd (h.own id e he h0 hlow') hid
        · rw [hdefers, Function.update_of_ne (Ne.symm hgf)] at hdefer
          refine (h.waits hdefer).imp hassigned fun hheld id e he hlow' => ?_
          rw [hmap] at he
          rcases Lib.Table.of_assign he with ⟨-, rfl⟩ | ⟨-, he⟩
          · exact absurd (hop.symm.trans hlow') hgf
          · exact hheld id e he hlow'

/-- **A callback** keeps `Honoured`: the update that it answers is the one that it assigns. -/
theorem Honoured.fired {f : Request} {delivered : List Request} (h : Honoured f mem)
    (hs : Sourced delivered mem) (hr : Fired mem mem') : Honoured f mem' := by
  have hassigned : Assigned f mem → Assigned f mem' := (·.mono hr.trace_mem)
  have hhonest : ∀ m r, mem'.outer.Carries m → m.opId = f.message.opId → m.opResponse = some r →
      r.result = OpResult.kOperationOk.code → Assigned f mem' := by
    intro m r hm hid hresponse hok
    rcases hr.says hm hresponse with hm | ⟨id, e, request, expire, he, hmoved, hrequest, rfl⟩
    · exact hassigned (h.honest m r hm hid hresponse hok)
    · -- the message that is answered is `f`, which the element holds back
      obtain ⟨-, -, hlow, -⟩ := hs.deferred _ _ hrequest
      have hid' : request.message.opId = f.message.opId := hid
      have hlow' : e.state.opId = f.low := by rw [← hlow, Request.low, hid', Request.low]
      have hdefer : mem.outer.deferMessages f.low ≠ none := by
        rw [← hlow', hrequest]
        simp
      rcases h.waits hdefer with hbefore | hheld
      · exact hassigned hbefore
      · exact ⟨_, hmoved, assigns_moved.mpr (hheld id e he hlow')⟩
  cases hr with
  | other hsame htrace hdefers hcarries =>
      exact h.of_sameHeld hs hsame (fun _ hp => hp.elim) hassigned hdefers hhonest
  | @moved id e e' events he hmap hcall htemp hop htrace hevents hdefers hcarries =>
      have hold : ∀ {id' e₁}, mem'.map id' = some e₁ → e₁.state.opId = f.low →
          (id' = id ∧ e.state.opId = f.low) ∨ mem.map id' = some e₁ := by
        intro id' e₁ he₁ hlow
        rw [hmap] at he₁
        rcases Lib.Table.of_assign he₁ with ⟨rfl, rfl⟩ | ⟨-, he₁⟩
        · exact Or.inl ⟨rfl, hop ▸ hlow⟩
        · exact Or.inr he₁
      refine ⟨fun id' e₁ he₁ h0 hlow => ?_, fun hdefer => ?_, hhonest⟩
      · rcases hold he₁ hlow with ⟨rfl, hlow⟩ | he₁
        · exact h.own id' e he h0 hlow
        · exact h.own id' e₁ he₁ h0 hlow
      · rcases hdefers with hdefers | ⟨hdefers, hnone⟩
        · by_cases hlow : f.low = e.state.opId
          · rw [hdefers, hlow, Function.update_self] at hdefer
            exact absurd rfl hdefer
          · rw [hdefers, Function.update_of_ne hlow] at hdefer
            refine (h.waits hdefer).imp hassigned fun hheld id' e₁ he₁ hlow' => ?_
            rcases hold he₁ hlow' with ⟨-, hlow'⟩ | he₁
            · exact absurd hlow'.symm hlow
            · exact hheld id' e₁ he₁ hlow'
        · rw [hdefers] at hdefer
          refine (h.waits hdefer).imp hassigned fun hheld id' e₁ he₁ hlow' => ?_
          rcases hold he₁ hlow' with ⟨rfl, hlow'⟩ | he₁
          · have hcall' := (hheld id' e he hlow').1
            rw [hnone] at hcall'
            cases hcall'
          · exact hheld id' e₁ he₁ hlow'

/-! ## `kOperationRetry` -/

/-- A message says `kOperationRetry` under the op id of the request. -/
def Declined (f : Request) (mem : CenterMem CacheData Request ServerMem) : Prop :=
  ∃ m r, mem.outer.Carries m ∧ m.opId = f.message.opId ∧ m.opResponse = some r ∧
    r.result = OpResult.kOperationRetry.code

/-- After a message that says `kOperationRetry` nothing is assigned, or held back, for the
request. -/
def Refused (f : Request) (mem : CenterMem CacheData Request ServerMem) : Prop :=
  Declined f mem → (∀ event ∈ mem.trace, event.Assigns f = false) ∧
    ∀ id e, mem.map id = some e → e.call ≠ some f

/-- At the start no message says `kOperationRetry`. -/
theorem Refused.initial (f : Request) : Refused f Server.initial.mem := by
  rintro ⟨m, r, ⟨ptr, ack, hack, -⟩ | ⟨x, hx, -⟩, -⟩
  · cases hack
  · cases hx

/-- The log of the server is apart from refusals too. -/
theorem Refused.log {f : Request} (h : Refused f mem) (log : List ServerEvent) :
    Refused f { mem with outer := { mem.outer with log := log } } := h

/-- Of two requests of calls with one op id, there is one only. -/
def Alone (f : Request) (delivered : List Request) : Prop :=
  ∀ g ∈ delivered, ¬ g.IsAck → g.message.opId = f.message.opId → g = f

/-- **A datagram** that is not a second copy of `f` keeps `Refused`. -/
theorem Refused.received {f g : Request} {delivered : List Request} {late : Prop}
    (h : Refused f mem) (hs : Sourced delivered mem) (halone : Alone f (delivered ++ [g]))
    (hfirst : g = f → f ∉ delivered)
    (hr : Received g late mem mem') : Refused f mem' := by
  have hg : ¬ g.IsAck → g.message.opId = f.message.opId → g = f :=
    halone g (List.mem_append_right _ (List.mem_singleton_self g))
  -- nothing is assigned or held back for `f` before the datagram
  have hclean : Declined f mem ∨ g = f → (∀ event ∈ mem.trace, event.Assigns f = false) ∧
      ∀ id e, mem.map id = some e → e.call ≠ some f := by
    rintro (hdeclined | hgf)
    · exact h hdeclined
    · refine ⟨fun event hmem => ?_, fun id e he hcall => hfirst hgf (hs.held id e f he hcall)⟩
      by_contra hf
      exact hfirst hgf (hs.assigned event hmem f (by simpa using hf))
  -- and no message under its op id is in the way of a first copy
  have hdeclined : Declined f mem → g ≠ f := by
    rintro ⟨m, r, hm, hid, hr, -⟩ hgf
    obtain ⟨f', hf', hask, hid'⟩ := hs.carried m r hm hr
    exact hfirst hgf (halone f' (List.mem_append_left _ hf') hask (hid'.trans hid) ▸ hf')
  rintro ⟨m, r, hm, hid, hresponse, hretry⟩
  have hbefore : Declined f mem ∨ g = f := by
    rcases hr.says hm hresponse with hm | ⟨hid', hask⟩
    · exact Or.inl ⟨m, r, hm, hid, hresponse, hretry⟩
    · exact Or.inr (hg (fun hack => hask.elim (· hack.1) fun hask => hask.1 hack.2)
        (hid'.symm.trans hid))
  obtain ⟨htrace, hcall⟩ := hclean hbefore
  rcases hr.declines hm hresponse hretry with hm | ⟨hquiet, hsame⟩
  · -- the message is an old one, so the datagram is not `f`
    have hne := hdeclined ⟨m, r, hm, hid, hresponse, hretry⟩
    refine ⟨fun event hmem => ?_, fun id e he hf => ?_⟩
    · by_contra hf
      rcases hr.assigns hmem (by simpa using hf) with hmem | ⟨rfl, -⟩
      · exact hf (htrace event hmem)
      · exact hne rfl
    · rcases hr.held he hf with ⟨e₀, he₀, hcall₀, -⟩ | ⟨rfl, -⟩
      · exact hcall id e₀ he₀ hcall₀
      · exact hne rfl
  · refine ⟨fun event hmem => ?_, fun id e he hf => ?_⟩
    · by_contra hf
      exact hf (htrace event (hquiet event hmem f (by simpa using hf)))
    · obtain ⟨e₀, he₀, hcall₀⟩ := hsame id e f he hf
      exact hcall id e₀ he₀ hcall₀

/-- **A callback** keeps `Refused`: it says `kOperationOk` only. -/
theorem Refused.fired {f : Request} (h : Refused f mem) (hr : Fired mem mem') :
    Refused f mem' := by
  rintro ⟨m, r, hm, hid, hresponse, hretry⟩
  rcases hr.says hm hresponse with hm | ⟨id, e, request, expire, -, -, -, rfl⟩
  · obtain ⟨htrace, hcall⟩ := h ⟨m, r, hm, hid, hresponse, hretry⟩
    refine ⟨fun event hmem => ?_, fun id e' he' hf => ?_⟩
    · by_contra hf
      rcases hr.assigns hmem (by simpa using hf) with hmem | ⟨id, e, value, he, hcall', -, -⟩
      · exact hf (htrace event hmem)
      · exact hcall id e he hcall'
    · obtain ⟨e, he, hf, -⟩ := hr.held he' hf
      exact hcall id e he hf
  · cases hresponse
    cases hretry

/-! ## Runs -/

variable {ok : System → SystemOp → Prop} {s s' : System} {c : Call}

/-- The op ids of the other calls differ from that of `c` in their low 32 bits. -/
def LowApart (s : System) (c : Call) : Prop :=
  ∀ c' ∈ s.calls, c'.opId.toUInt32 = c.opId.toUInt32 → c' = c

/-- No copy of the call's request finds the lease of its key overdue once another has reached the
server. -/
def CopiesOnTime (env : Env) (c : Call) : System → SystemOp → Prop
  | s, .deliver (.request g) _ _ _ => g = c.request → g ∈ s.delivered → ¬ g.Late env s.server
  | _, _ => True

/-- When the handle of the call is told `kOperationOk`, its data was assigned to its key. -/
def OkAssigned (s : System) (c : Call) : Prop :=
  ∀ handled, (c.client, handled) ∈ s.handled → handled.opId = c.opId →
    handled.result = OpResult.kOperationOk.code → ∃ event ∈ s.server.mem.trace,
      event.Assigns c.request = true ∧ event.Stores c.request.key c.request.data = true

/-- When the handle of the call is told `kOperationRetry`, its data is not assigned for it. -/
def RetryUnassigned (s : System) (c : Call) : Prop :=
  ∀ handled, (c.client, handled) ∈ s.handled → handled.opId = c.opId →
    handled.result = OpResult.kOperationRetry.code →
      ∀ event ∈ s.server.mem.trace, event.Assigns c.request = false

/-- In every run updates are assigned under their own key, with their own data. -/
theorem SystemReachable.genuine (h : SystemReachable env fails ok s) : Genuine s.server.mem :=
  h.server_mem (P := fun _ => Genuine) (fun _ _ _ h => ⟨h.held, h.assigned⟩) .initial
    (fun _ _ _ _ _ _ h _ hr => h.received hr) fun _ _ _ h hr => h.fired hr

/-- Where the copies of a call come on time, a message that says `kOperationOk` is kept. -/
theorem SystemReachable.honoured {cacheData : CacheData} (hkind : c.kind = .update cacheData)
    (h : SystemReachable env fails (CopiesOnTime env c) s) :
    Sourced s.delivered s.server.mem ∧
      (LowAlone c.request s.delivered → Honoured c.request s.server.mem) := by
  refine h.server_mem (P := fun delivered mem => Sourced delivered mem ∧
    (LowAlone c.request delivered → Honoured c.request mem)) (fun _ _ log h => ?_)
    ⟨.initial, fun _ => .initial _⟩ (fun s g _ _ _ hok h mem' hr => ?_) fun _ _ _ h hr => ?_
  · exact ⟨h.1.log log, fun halone => (h.2 halone).log log⟩
  · refine ⟨h.1.received hr, fun halone => ?_⟩
    have hbefore : LowAlone c.request s.delivered :=
      fun g' hg' => halone g' (List.mem_append_left _ hg')
    refine (h.2 hbefore).received h.1 halone (Call.request_readRequest hkind)
      (fun hlate hack => hlate.1 hack.2) (fun hg hlate hmem => ?_) hr
    exact hok hg (hg ▸ hmem) hlate
  · exact ⟨h.1.fired hr, fun halone => (h.2 halone).fired h.1 hr⟩

/-- Where one copy of a call comes, a message that says `kOperationRetry` is kept. -/
theorem SystemReachable.refused (c : Call) (h : SystemReachable env fails ok s) :
    Sourced s.delivered s.server.mem ∧ (Alone c.request s.delivered →
      s.delivered.count c.request ≤ 1 → Refused c.request s.server.mem) := by
  refine h.server_mem (P := fun delivered mem => Sourced delivered mem ∧
    (Alone c.request delivered → delivered.count c.request ≤ 1 → Refused c.request mem))
    (fun _ _ log h => ?_) ⟨.initial, fun _ _ => .initial _⟩ (fun s g _ _ _ _ h mem' hr => ?_)
    fun _ _ _ h hr => ?_
  · exact ⟨h.1.log log, fun halone honce => (h.2 halone honce).log log⟩
  · refine ⟨h.1.received hr, fun halone honce => ?_⟩
    rw [List.count_append] at honce
    have hbefore : Alone c.request s.delivered :=
      fun g' hg' => halone g' (List.mem_append_left _ hg')
    refine (h.2 hbefore (by omega)).received h.1 halone (fun hg hmem => ?_) hr
    have hpos : 0 < s.delivered.count c.request := List.count_pos_iff.mpr hmem
    rw [hg, List.count_singleton_self] at honce
    omega
  · exact ⟨h.1.fired hr, fun halone honce => (h.2 halone honce).fired hr⟩

/-- A request that reaches the server once at most has no copy that comes too late. -/
theorem SystemReachable.onTime_of_once (h : SystemReachable env fails AnyStep s)
    (honce : s.delivered.count c.request ≤ 1) :
    SystemReachable env fails (CopiesOnTime env c) s := by
  induction h with
  | initial => exact .initial
  | @step s s' op _ _ hstep ih =>
      cases System.step_spec hstep with
      | @call c' sendFails hnew => exact .step (.call c' sendFails) (ih honce) trivial hstep
      | @request g parses keep sendFails server hmem hserver =>
          have hcount : s.delivered.count c.request + [g].count c.request ≤ 1 := by
            rw [← List.count_append]
            exact honce
          have hontime : CopiesOnTime env c s (.deliver (.request g) parses keep sendFails) := by
            intro hg hin
            have hpos : 0 < s.delivered.count c.request := List.count_pos_iff.mpr (hg ▸ hin)
            rw [hg, List.count_singleton_self] at hcount
            omega
          exact .step _ (ih (by omega)) hontime hstep
      | @response dest message parses keep sendFails hmem =>
          have honce' : (s.take (.response dest message) keep).delivered.count c.request ≤ 1 :=
            honce
          rw [take_delivered] at honce'
          exact .step (.deliver (.response dest message) parses keep sendFails) (ih honce') trivial
            hstep
      | @drop d hmem =>
          rw [take_delivered] at honce
          exact .step (.drop d) (ih honce) trivial hstep
      | @tick fuel server hserver => exact .step (.tick fuel) (ih honce) trivial hstep

/-- What reached the server for the op id of a call is its request. -/
theorem Traffic.alone (h : Traffic s) (hc : c ∈ s.calls) : Alone c.request s.delivered := by
  intro g hg hask hid
  obtain ⟨c', hc', rfl⟩ := (h.delivered g hg).resolve_right hask
  rw [Call.request_opId, Call.request_opId] at hid
  rw [h.distinct c' hc' c hc hid]

/-- A call whose low bits are its own is alone with them at the server. -/
theorem Traffic.lowAlone (h : Traffic s) (hlow : LowApart s c) :
    LowAlone c.request s.delivered := by
  intro g hg hask hid
  obtain ⟨c', hc', rfl⟩ := (h.delivered g hg).resolve_right hask
  rw [Request.low, Request.low, Call.request_opId, Call.request_opId] at hid
  rw [hlow c' hc' hid]

/-- **Client and server agree on an update**: a handle that is told `kOperationOk` is told so after
the assignment, if the low bits of the op id are the call's own and no second copy of its request
finds the lease overdue; one that is told `kOperationRetry` belongs to an update that is never
assigned, if its request reaches the server once at most. -/
theorem outcome_agreed {cacheData : CacheData} (h : SystemReachable env fails AnyStep s)
    (hc : c ∈ s.calls) (hkind : c.kind = .update cacheData) :
    (SystemReachable env fails (CopiesOnTime env c) s → LowApart s c → OkAssigned s c) ∧
      (s.delivered.count c.request ≤ 1 → RetryUnassigned s c) := by
  refine ⟨fun hontime hlow handled hmem hid hok => ?_, fun honce handled hmem hid hretry => ?_⟩
  · obtain ⟨x, hx, r, hr, hxid, hresult⟩ := h.traffic.handled _ _ hmem
    have hhonoured := (hontime.honoured hkind).2 (h.traffic.lowAlone hlow)
    obtain ⟨event, hevent, hassigns⟩ := hhonoured.honest x.message r (Or.inr ⟨x, hx, rfl⟩)
      (by rw [hxid, hid, Call.request_opId]) hr (hresult.trans hok)
    exact ⟨event, hevent, hassigns, h.genuine.assigned event hevent _ hassigns⟩
  · obtain ⟨x, hx, r, hr, hxid, hresult⟩ := h.traffic.handled _ _ hmem
    have hrefused := (h.refused c).2 (h.traffic.alone hc) honce
    exact (hrefused ⟨x.message, r, Or.inr ⟨x, hx, rfl⟩, by rw [hxid, hid, Call.request_opId], hr,
      hresult.trans hretry⟩).1

/-- An update that is assigned at once, one that waits and one that is told to retry: the first and
the last as cases of `outcome_agreed`. -/
theorem outcome_agreed_told : ∃ s c₁ c₂, c₁ ∈ s.calls ∧ c₂ ∈ s.calls ∧
    ((7, ⟨11, OpResult.kOperationOk.code, 10000, 1, [5]⟩) : Address × Handled) ∈ s.handled ∧
    ((8, ⟨13, OpResult.kOperationRetry.code, 10000, 1, [7]⟩) : Address × Handled) ∈ s.handled ∧
      (OkAssigned s c₁ ∧ RetryUnassigned s c₁) ∧ OkAssigned s c₂ ∧ RetryUnassigned s c₂ := by
  obtain ⟨s, hrun, hcalls, hok, hretry, honce₁, honce₂⟩ : ∃ s,
      ({} : System).run stillClock (fun _ => false)
        [.call (updateCall 7 11 1 [5]) false,
          .deliver (.request (updateCall 7 11 1 [5]).request) true false false,
          .deliver (.response 7 (updateResponse (updateCall 7 11 1 [5]).message 10000 .kOperationOk))
            true false false,
          .call (updateCall 7 12 1 [6]) false,
          .deliver (.request (updateCall 7 12 1 [6]).request) true false false,
          .call (updateCall 8 13 1 [7]) false,
          .deliver (.request (updateCall 8 13 1 [7]).request) true false false,
          .deliver (.response 8 (updateResponse (updateCall 8 13 1 [7]).message 10000
            .kOperationRetry)) true false false] = some s ∧
      s.calls = [updateCall 7 11 1 [5], updateCall 7 12 1 [6], updateCall 8 13 1 [7]] ∧
      ((7, ⟨11, OpResult.kOperationOk.code, 10000, 1, [5]⟩) : Address × Handled) ∈ s.handled ∧
      ((8, ⟨13, OpResult.kOperationRetry.code, 10000, 1, [7]⟩) : Address × Handled) ∈ s.handled ∧
      s.delivered.count (updateCall 7 11 1 [5]).request ≤ 1 ∧
      s.delivered.count (updateCall 8 13 1 [7]).request ≤ 1 := ⟨_, rfl, by decide⟩
  have hreach : SystemReachable stillClock (fun _ => false) AnyStep s := .run .initial hrun
  have hc₁ : updateCall 7 11 1 [5] ∈ s.calls := by
    rw [hcalls]
    decide
  have hc₂ : updateCall 8 13 1 [7] ∈ s.calls := by
    rw [hcalls]
    decide
  have hlow₁ : LowApart s (updateCall 7 11 1 [5]) := by
    rw [LowApart, hcalls]
    decide
  have hlow₂ : LowApart s (updateCall 8 13 1 [7]) := by
    rw [LowApart, hcalls]
    decide
  obtain ⟨hok₁, hretry₁⟩ := outcome_agreed hreach hc₁ rfl
  obtain ⟨hok₂, hretry₂⟩ := outcome_agreed hreach hc₂ rfl
  exact ⟨s, _, _, hc₁, hc₂, hok, hretry,
    ⟨hok₁ (hreach.onTime_of_once honce₁) hlow₁, hretry₁ honce₁⟩,
    hok₂ (hreach.onTime_of_once honce₂) hlow₂, hretry₂ honce₂⟩

/-! ## Where they do not agree -/

/-- The handle of every update call of these systems is told `kOperationOk` after the
assignment. -/
def OkMeansAssigned (env : Env) (fails : Nat → Bool) (p : System → Call → Prop) : Prop :=
  ∀ s, SystemReachable env fails AnyStep s → ∀ c ∈ s.calls, p s c → OkAssigned s c

/-- The data of every update call whose handle is told `kOperationRetry` stays unassigned. -/
def RetryMeansUnassigned (env : Env) (fails : Nat → Bool) (p : System → Call → Prop) : Prop :=
  ∀ s, SystemReachable env fails AnyStep s → ∀ c ∈ s.calls, p s c → RetryUnassigned s c

/-- A call is made, and its request reaches the server. -/
def arrive (c : Call) (keep : Bool) : List SystemOp :=
  [.call c false, .deliver (.request c.request) true keep false]

/-- The updates 5 of the cache id 1 and `2 ^ 32 + 5` of the cache id 2 wait. The lease of the cache
id 2 ends first, and the message that stands under 5 is answered. -/
theorem not_okMeansAssigned_low :
    ¬ OkMeansAssigned (leapClock [(3, 5000), (14, 7000)]) (fun _ => false) fun _ _ => True := by
  intro h
  obtain ⟨s, hrun, hc, hhandled, hnone⟩ : ∃ s, ({} : System).run
      (leapClock [(3, 5000), (14, 7000)]) (fun _ => false)
      (arrive (updateCall 7 21 2 [1]) false ++ arrive (updateCall 7 22 1 [2]) false ++
        arrive (updateCall 7 5 1 [5]) false ++ arrive (updateCall 7 0x100000005 2 [6]) false ++
        [.tick 6, .deliver
          (.response 7 (updateResponse (updateCall 7 5 1 [5]).message 22000 .kOperationOk))
          true false false]) = some s ∧
      updateCall 7 5 1 [5] ∈ s.calls ∧
      ((7, ⟨5, OpResult.kOperationOk.code, 22000, 1, [5]⟩) : Address × Handled) ∈ s.handled ∧
      ∀ event ∈ s.server.mem.trace, event.Assigns (updateCall 7 5 1 [5]).request = false :=
    ⟨_, rfl, by decide⟩
  obtain ⟨event, hevent, hassigns, -⟩ := h s (.run .initial hrun) _ hc trivial _ hhandled rfl rfl
  rw [hnone event hevent] at hassigns
  cases hassigns

/-- The client 7 has updated the cache id 1, and its lease ran out when it is renewed by a read; the
old timer makes the element idle while the update 11 waits, and the updates 23 and 24 replace it.
The send for 24 fails, a copy of 11 finds the new lease overdue, and what stands under 11 is
answered. -/
theorem not_okMeansAssigned_late :
    ¬ OkMeansAssigned (leapClock [(3, 10000), (11, 5), (21, 10001), (28, 10001)])
      (fun n => n = 6) LowApart := by
  intro h
  obtain ⟨s, hrun, hc, hlow, hhandled, hnone⟩ : ∃ s, ({} : System).run
      (leapClock [(3, 10000), (11, 5), (21, 10001), (28, 10001)]) (fun n => n = 6)
      (arrive (updateCall 7 21 1 [1]) false ++
        arrive { updateCall 7 22 1 [] with kind := .read } false ++
        arrive (updateCall 7 11 1 [5]) true ++ [.tick 9] ++ arrive (updateCall 7 23 1 [6]) false ++
        arrive (updateCall 7 24 1 [7]) false ++ [.tick 9,
          .deliver (.request (updateCall 7 11 1 [5]).request) true false false, .tick 9,
          .deliver (.response 7 (updateResponse (updateCall 7 11 1 [5]).message 40007
            .kOperationOk)) true false false]) = some s ∧
      updateCall 7 11 1 [5] ∈ s.calls ∧
      (∀ c' ∈ s.calls, c'.opId.toUInt32 = (updateCall 7 11 1 [5]).opId.toUInt32 →
        c' = updateCall 7 11 1 [5]) ∧
      ((7, ⟨11, OpResult.kOperationOk.code, 40007, 1, [5]⟩) : Address × Handled) ∈ s.handled ∧
      ∀ event ∈ s.server.mem.trace, event.Assigns (updateCall 7 11 1 [5]).request = false :=
    ⟨_, rfl, by decide⟩
  obtain ⟨event, hevent, hassigns, -⟩ := h s (.run .initial hrun) _ hc hlow _ hhandled rfl rfl
  rw [hnone event hevent] at hassigns
  cases hassigns

/-- The response to the update 11 is lost and was sent again, the update 12 waits, and a copy of the
request of 11 is told to retry. -/
theorem not_retryMeansUnassigned :
    ¬ RetryMeansUnassigned (leapClock [(3, 600)]) (fun _ => false) LowApart := by
  intro h
  obtain ⟨s, hrun, hc, hlow, hhandled, event, hevent, hassigns⟩ : ∃ s, ({} : System).run
      (leapClock [(3, 600)]) (fun _ => false)
      (arrive (updateCall 7 11 1 [5]) true ++ [.tick 3] ++ arrive (updateCall 7 12 1 [6]) false ++
        [.deliver (.request (updateCall 7 11 1 [5]).request) true false false,
          .deliver (.response 7 (updateResponse (updateCall 7 11 1 [5]).message 10000
            .kOperationRetry)) true false false]) = some s ∧
      updateCall 7 11 1 [5] ∈ s.calls ∧
      (∀ c' ∈ s.calls, c'.opId.toUInt32 = (updateCall 7 11 1 [5]).opId.toUInt32 →
        c' = updateCall 7 11 1 [5]) ∧
      ((7, ⟨11, OpResult.kOperationRetry.code, 10000, 1, [5]⟩) : Address × Handled) ∈ s.handled ∧
      ∃ event ∈ s.server.mem.trace, event.Assigns (updateCall 7 11 1 [5]).request = true :=
    ⟨_, rfl, by decide⟩
  have hnone := h s (.run .initial hrun) _ hc hlow _ hhandled rfl rfl event hevent
  rw [hassigns] at hnone
  cases hnone

/-- Neither answer means what it says: `kOperationOk` with two op ids that share their low bits, or
with a copy that comes too late, and `kOperationRetry` with a copy. -/
theorem not_outcome_agreed :
    ¬ OkMeansAssigned (leapClock [(3, 5000), (14, 7000)]) (fun _ => false) (fun _ _ => True) ∧
      ¬ OkMeansAssigned (leapClock [(3, 10000), (11, 5), (21, 10001), (28, 10001)])
        (fun n => n = 6) LowApart ∧
      ¬ RetryMeansUnassigned (leapClock [(3, 600)]) (fun _ => false) LowApart :=
  ⟨not_okMeansAssigned_low, not_okMeansAssigned_late, not_retryMeansUnassigned⟩

end CacheSystem

import CacheSystem.Network

/-!
# How often an update is assigned

The server keeps no record of the requests that it has answered: a copy of an update request is
taken for a new one. While the key waits with another update the copy is told to retry, and in a
lease it is deferred; once the lease has run out it is assigned again.

* `Counted` : each copy that reached the server is worth one assignment, done or held back.
* `Originated` : whatever else is written for a request is written by a completion that runs again,
  as it does after its handler threw. Its `std::move` finds `temp_value_` moved from, and `value_`
  gets what was left there.
* `assigned_le_delivered` : the assignments of a call's data are no more than the copies of its
  request that reached the server, and nothing else is written for the call but by such completions,
  each after an assignment.
* `not_atMostOnce` : a copy of an answered request overwrites the value of another client.
-/

namespace CacheSystem

variable {env : Env} {fails : Nat → Bool} {mem mem' : CenterMem CacheData Request ServerMem}

/-- How often the data of a request was assigned. -/
def CenterMem.assignments (f : Request) (mem : CenterMem CacheData Request ServerMem) : Nat :=
  mem.trace.countP (Event.Assigns f)

/-- New events add their assignments. -/
theorem assignments_append {f : Request} {events : List (Event CacheData Request)}
    (htrace : mem'.trace = mem.trace ++ events) :
    mem'.assignments f = mem.assignments f + events.countP (Event.Assigns f) := by
  rw [CenterMem.assignments, htrace, List.countP_append, CenterMem.assignments]

/-- Events that write nothing do not count. -/
theorem countP_assigns_eq_zero {f : Request} {events : List (Event CacheData Request)}
    (hevents : ∀ event ∈ events, ∀ f : Request, event.WritesFor f = false) :
    events.countP (Event.Assigns f) = 0 :=
  List.countP_eq_zero.mpr fun event hmem => by
    rw [Event.assigns_eq_false (hevents event hmem f)]
    decide

/-- The assignments of `f`, and the one that its element holds back, are `n` at most. -/
structure Counted (f : Request) (n : Nat) (mem : CenterMem CacheData Request ServerMem) : Prop where
  genuine : Genuine mem
  assigned : mem.assignments f ≤ n
  held : ∀ e, mem.map f.key = some e → e.call = some f → e.tempValue ≠ none →
    mem.assignments f < n

/-- At the start nothing is assigned. -/
theorem Counted.initial (f : Request) : Counted f 0 Server.initial.mem :=
  ⟨.initial, le_rfl, fun _ h => nomatch h⟩

/-! ## One datagram, one callback -/

/-- A copy of another request is worth nothing to `f`, one of `f` is worth one assignment. -/
theorem Counted.received {f g : Request} {n : Nat} {late : Prop} (h : Counted f n mem)
    (hr : Received g late mem mem') : Counted f (n + if g = f then 1 else 0) mem' := by
  have hgenuine := h.genuine.received hr
  have hle : n ≤ n + if g = f then 1 else 0 := Nat.le_add_right _ _
  cases hr with
  | other hsame htrace hevents hdefers hcarries =>
      have hcount : mem'.assignments f = mem.assignments f := by
        rw [assignments_append htrace, countP_assigns_eq_zero hevents, Nat.add_zero]
      refine ⟨hgenuine, hcount ▸ h.assigned.trans hle, fun e' he' hcall hheld => ?_⟩
      obtain ⟨e, he, hcall, htemp⟩ := hsame.held he' hcall
      rw [htemp] at hheld
      exact hcount ▸ (h.held e he hcall hheld).trans_le hle
  | @assigned opId expire hupdate hsame htrace hdefers hcarries =>
      have hcount : mem'.assignments f = mem.assignments f + if g = f then 1 else 0 := by
        rw [assignments_append htrace, List.countP_singleton]
        simp only [Event.Assigns, decide_eq_true_eq]
      refine ⟨hgenuine, ?_, fun e' he' hcall hheld => ?_⟩
      · rw [hcount]
        exact Nat.add_le_add_right h.assigned _
      · obtain ⟨e, he, hcall, htemp⟩ := hsame.held he' hcall
        rw [htemp] at hheld
        rw [hcount]
        exact Nat.add_lt_add_right (h.held e he hcall hheld) _
  | @deferred e' hupdate h0 hmap hcall htemp hop htrace hdefers hcarries =>
      have hcount : mem'.assignments f = mem.assignments f := by
        rw [assignments_append htrace]
        rfl
      refine ⟨hgenuine, hcount ▸ h.assigned.trans hle, fun e he hcall' hheld => ?_⟩
      rw [hcount]
      by_cases hg : g = f
      · rw [if_pos hg]
        exact Nat.lt_succ_of_le h.assigned
      · rw [hmap] at he
        rcases Lib.Table.of_assign he with ⟨-, rfl⟩ | ⟨-, he⟩
        · rw [hcall] at hcall'
          exact absurd (Option.some.inj hcall') hg
        · exact (h.held e he hcall' hheld).trans_le hle

/-- A callback assigns what an element held back, which was worth one already. -/
theorem Counted.fired {f : Request} {n : Nat} (h : Counted f n mem) (hr : Fired mem mem') :
    Counted f n mem' := by
  have hgenuine := h.genuine.fired hr
  cases hr with
  | other hsame htrace hdefers hcarries =>
      have hcount : mem'.assignments f = mem.assignments f := by
        rw [CenterMem.assignments, htrace, CenterMem.assignments]
      refine ⟨hgenuine, hcount ▸ h.assigned, fun e' he' hcall hheld => ?_⟩
      obtain ⟨e, he, hcall, htemp⟩ := hsame.held he' hcall
      rw [htemp] at hheld
      exact hcount ▸ h.held e he hcall hheld
  | @moved id e e' events he hmap hcall htemp hop htrace hevents hdefers hcarries =>
      have hcount : mem'.assignments f =
          mem.assignments f + if (Event.moved id e.call e.tempValue).Assigns f then 1 else 0 := by
        rw [assignments_append htrace, List.countP_cons, countP_assigns_eq_zero hevents,
          Nat.zero_add]
      by_cases hf : (Event.moved id e.call e.tempValue).Assigns f = true
      · -- the element under the key of `f` held it back, and holds nothing back now
        obtain ⟨hcall', hheld'⟩ := assigns_moved.mp hf
        obtain rfl : id = f.key := (h.genuine.held id e f he hcall').1
        refine ⟨hgenuine, ?_, fun e₁ he₁ _ hheld => ?_⟩
        · rw [hcount, if_pos hf]
          exact h.held e he hcall' hheld'
        · rw [hmap, Function.update_self] at he₁
          cases he₁
          exact absurd htemp hheld
      · rw [if_neg hf, Nat.add_zero] at hcount
        refine ⟨hgenuine, hcount ▸ h.assigned, fun e₁ he₁ hcall₁ hheld => ?_⟩
        rw [hcount]
        rw [hmap] at he₁
        rcases Lib.Table.of_assign he₁ with ⟨-, rfl⟩ | ⟨-, he₁⟩
        · exact absurd htemp hheld
        · exact h.held e₁ he₁ hcall₁ hheld

/-! ## Completions that run again -/

/-- After `before`, a completion for `f` runs again: the data of `f` was assigned, and `temp_value_`
is moved from. -/
def Event.Reruns (f : Request) (before : List (Event CacheData Request))
    (event : Event CacheData Request) : Prop :=
  event = .moved f.key (some f) none ∧ ∃ first ∈ before, first.Assigns f = true

/-- Every event that writes for `f` assigns its data, or is a completion that runs again. -/
def WrittenFor (f : Request) (trace : List (Event CacheData Request)) : Prop :=
  ∀ before event, before ++ [event] <+: trace → event.WritesFor f = true →
    event.Assigns f = true ∨ event.Reruns f before

/-- One event more, which assigns the data or is a completion that runs again. -/
theorem WrittenFor.concat {f : Request} {trace : List (Event CacheData Request)}
    {event : Event CacheData Request} (h : WrittenFor f trace)
    (hevent : event.WritesFor f = true → event.Assigns f = true ∨ event.Reruns f trace) :
    WrittenFor f (trace ++ [event]) := by
  intro before event' hprefix hwrites
  rcases List.prefix_concat_iff.mp hprefix with heq | hprefix
  · obtain ⟨rfl, hlast⟩ := List.append_inj' heq rfl
    cases hlast
    exact hevent hwrites
  · exact h before event' hprefix hwrites

/-- Events that write nothing. -/
theorem WrittenFor.append {f : Request} {trace events : List (Event CacheData Request)}
    (h : WrittenFor f trace) (hevents : ∀ event ∈ events, event.WritesFor f = false) :
    WrittenFor f (trace ++ events) := by
  induction events generalizing trace with
  | nil => rwa [List.append_nil]
  | cons event events ih =>
      rw [List.append_cons]
      refine ih (h.concat fun hwrites => ?_) fun event' hmem =>
        hevents event' (List.mem_cons_of_mem event hmem)
      rw [hevents event List.mem_cons_self] at hwrites
      cases hwrites

/-- What is written for `f`, and an element whose `temp_value_` is moved from had its data assigned. -/
structure Originated (f : Request) (mem : CenterMem CacheData Request ServerMem) : Prop where
  genuine : Genuine mem
  spent : ∀ id e, mem.map id = some e → e.call = some f → e.tempValue = none →
    ∃ event ∈ mem.trace, event.Assigns f = true
  written : WrittenFor f mem.trace

/-- At the start nothing is written. -/
theorem Originated.initial (f : Request) : Originated f Server.initial.mem := by
  refine ⟨.initial, fun _ _ h => (nomatch h), fun before event hprefix => ?_⟩
  exact absurd (List.prefix_nil.mp hprefix) (List.append_ne_nil_of_right_ne_nil _ (by simp))

/-- What is held back with a datagram has its data in `temp_value_`. -/
theorem Originated.received {f g : Request} {late : Prop} (h : Originated f mem)
    (hr : Received g late mem mem') : Originated f mem' := by
  refine ⟨h.genuine.received hr, fun id e' he' hcall hspent => ?_, ?_⟩
  · rcases hr.held he' hcall with ⟨e, he, hcall, htemp⟩ | ⟨-, -, htemp⟩
    · obtain ⟨event, hmem, hassigns⟩ := h.spent id e he hcall (htemp ▸ hspent)
      exact ⟨event, hr.trace_mem event hmem, hassigns⟩
    · rw [hspent] at htemp
      cases htemp
  · cases hr with
    | other hsame htrace hevents hdefers hcarries =>
        rw [htrace]
        exact h.written.append fun event hmem => hevents event hmem f
    | assigned hupdate hsame htrace hdefers hcarries =>
        rw [htrace]
        exact h.written.concat Or.inl
    | deferred hupdate h0 hmap hcall htemp hop htrace hdefers hcarries =>
        rw [htrace]
        exact h.written.concat fun hwrites => nomatch hwrites

/-- A callback moves out of `temp_value_` what is there, or what an assignment left there. -/
theorem Originated.fired {f : Request} (h : Originated f mem) (hr : Fired mem mem') :
    Originated f mem' := by
  have hgenuine := h.genuine.fired hr
  cases hr with
  | other hsame htrace hdefers hcarries =>
      refine ⟨hgenuine, fun id e' he' hcall hspent => ?_, htrace ▸ h.written⟩
      obtain ⟨e, he, hcall, htemp⟩ := hsame.held he' hcall
      rw [htrace]
      exact h.spent id e he hcall (htemp ▸ hspent)
  | @moved id e e' events he hmap hcall htemp hop htrace hevents hdefers hcarries =>
      have htrace' : mem'.trace = (mem.trace ++ [.moved id e.call e.tempValue]) ++ events := by
        rw [htrace, List.append_cons]
      have hmoved : Event.moved id e.call e.tempValue ∈ mem'.trace := by
        rw [htrace]
        exact List.mem_append_right _ List.mem_cons_self
      have hmono : ∀ event ∈ mem.trace, event ∈ mem'.trace := fun event hmem => by
        rw [htrace]
        exact List.mem_append_left _ hmem
      refine ⟨hgenuine, fun id' e₁ he₁ hcall₁ hspent => ?_, ?_⟩
      · rw [hmap] at he₁
        rcases Lib.Table.of_assign he₁ with ⟨rfl, rfl⟩ | ⟨-, he₁⟩
        · -- the element that was completed: its data was there, or was assigned before
          rw [hcall] at hcall₁
          by_cases hheld : e.tempValue = none
          · obtain ⟨event, hmem, hassigns⟩ := h.spent id' e he hcall₁ hheld
            exact ⟨event, hmono event hmem, hassigns⟩
          · exact ⟨_, hmoved, assigns_moved.mpr ⟨hcall₁, hheld⟩⟩
        · obtain ⟨event, hmem, hassigns⟩ := h.spent id' e₁ he₁ hcall₁ hspent
          exact ⟨event, hmono event hmem, hassigns⟩
      · rw [htrace']
        refine (h.written.concat fun hwrites => ?_).append fun event hmem => hevents event hmem f
        have hcall' := writesFor_moved.mp hwrites
        by_cases hheld : e.tempValue = none
        · obtain rfl : id = f.key := (h.genuine.held id e f he hcall').1
          exact Or.inr ⟨by rw [hcall', hheld], h.spent f.key e he hcall' hheld⟩
        · exact Or.inl (assigns_moved.mpr ⟨hcall', hheld⟩)

/-! ## Runs -/

variable {ok : System → SystemOp → Prop} {s : System}

/-- The log does not count. -/
theorem Counted.log {f : Request} {n : Nat} (h : Counted f n mem) (log : List ServerEvent) :
    Counted f n { mem with outer := { mem.outer with log := log } } :=
  ⟨⟨h.genuine.held, h.genuine.assigned⟩, h.assigned, h.held⟩

/-- **In every run the copies delivered count the assignments.** -/
theorem SystemReachable.counted (h : SystemReachable env fails ok s) (f : Request) :
    Counted f (s.delivered.count f) s.server.mem := by
  refine h.server_mem (P := fun delivered => Counted f (delivered.count f)) (fun _ _ log h => h.log log)
    (.initial f) (fun s g _ _ _ _ hcounted mem' hr => ?_) fun _ _ _ h hr => h.fired hr
  have hcount : (s.delivered ++ [g]).count f = s.delivered.count f + if g = f then 1 else 0 := by
    rw [List.count_append, List.count_singleton]
    simp only [beq_iff_eq]
  rw [hcount]
  exact hcounted.received hr

/-- **In every run what is written has its origin in the request.** -/
theorem SystemReachable.originated (h : SystemReachable env fails ok s) (f : Request) :
    Originated f s.server.mem :=
  h.server_mem (P := fun _ => Originated f)
    (fun _ _ _ h => ⟨⟨h.genuine.held, h.genuine.assigned⟩, h.spent, h.written⟩) (.initial f)
    (fun _ _ _ _ _ _ h _ hr => h.received hr) fun _ _ _ h hr => h.fired hr

/-- **Each copy of an update request that reaches the server causes one assignment of its data at
most**, in every run of any number of clients and the server over a network that drops, delays,
reorders and duplicates datagrams. An assignment stores the data of the call under its cache id, and
whatever else is written for the call is written after one, by its completion run again. -/
theorem assigned_le_delivered (h : SystemReachable env fails AnyStep s) (c : Call) :
    s.server.mem.assignments c.request ≤ s.delivered.count c.request ∧
      (∀ event ∈ s.server.mem.trace, event.Assigns c.request = true →
        event.Stores c.request.key c.request.data = true) ∧
      WrittenFor c.request s.server.mem.trace := by
  have hcounted := h.counted c.request
  exact ⟨hcounted.assigned, fun event hmem => hcounted.genuine.assigned event hmem c.request,
    (h.originated c.request).written⟩

/-! ## A copy that comes too late -/

/-- An update of the client 7. -/
def callOf7 : Call := updateCall 7 11 1 [5]

/-- An update of the client 8 of the same cache id. -/
def callOf8 : Call := updateCall 8 12 1 [6]

/-- Two copies of a request that waits, and a completion whose answer cannot be sent: the next tick
runs it again. A case of `assigned_le_delivered`. -/
theorem assigned_le_delivered_twice : ∃ s,
    ({} : System).run (leapClock [(7, 10001)]) (fun n => n == 3)
      [.call callOf7 false, .deliver (.request callOf7.request) true false false,
        .call callOf8 false, .deliver (.request callOf8.request) true true false,
        .deliver (.request callOf8.request) true false false, .tick 8, .tick 8] = some s ∧
    s.delivered.count callOf8.request = 2 ∧
    Event.moved 1 (some callOf8.request) none ∈ s.server.mem.trace ∧
    s.server.mem.assignments callOf8.request ≤ s.delivered.count callOf8.request ∧
    (∀ event ∈ s.server.mem.trace, event.Assigns callOf8.request = true →
      event.Stores callOf8.request.key callOf8.request.data = true) ∧
    WrittenFor callOf8.request s.server.mem.trace := by
  obtain ⟨s, hrun, hcount, hreruns⟩ : ∃ s,
      ({} : System).run (leapClock [(7, 10001)]) (fun n => n == 3)
        [.call callOf7 false, .deliver (.request callOf7.request) true false false,
          .call callOf8 false, .deliver (.request callOf8.request) true true false,
          .deliver (.request callOf8.request) true false false, .tick 8, .tick 8] = some s ∧
      s.delivered.count callOf8.request = 2 ∧
      Event.moved 1 (some callOf8.request) none ∈ s.server.mem.trace := ⟨_, rfl, by decide⟩
  exact ⟨s, hrun, hcount, hreruns, assigned_le_delivered (.run .initial hrun) callOf8⟩

/-- Every call is assigned once at most. -/
def AtMostOnce (env : Env) (fails : Nat → Bool) : Prop :=
  ∀ s, SystemReachable env fails AnyStep s → ∀ c ∈ s.calls,
    s.server.mem.assignments c.request ≤ 1

/-- The client 7 was told that its update is assigned and has acknowledged it, its lease ran out, the
client 8 has updated the same cache id, and that lease ran out as well, when a copy of the first
request arrives: the value of the client 7 replaces that of the client 8. -/
theorem not_atMostOnce : ¬ AtMostOnce (leapClock [(3, 10001), (8, 10001)]) fun _ => false := by
  intro h
  obtain ⟨s, hrun, hcall, -, -, hcount⟩ : ∃ s, ({} : System).run
      (leapClock [(3, 10001), (8, 10001)]) (fun _ => false)
      [.call callOf7 false, .deliver (.request callOf7.request) true true false,
        .deliver (.response 7 (updateResponse callOf7.message 10000 .kOperationOk)) true false false,
        .deliver (.request ⟨ackMessage 11 callOf7.message.header, 7⟩) true false false, .tick 3,
        .call callOf8 false, .deliver (.request callOf8.request) true false false, .tick 3,
        .deliver (.request callOf7.request) true false false] = some s ∧
      callOf7 ∈ s.calls ∧
      (7, (⟨11, OpResult.kOperationOk.code, 10000, 1, [5]⟩ : Handled)) ∈ s.handled ∧
      (s.server.mem.map 1).map CacheElement.value = some [5] ∧
      s.server.mem.assignments callOf7.request = 2 :=
    ⟨_, rfl, by decide⟩
  have hle := h s (SystemReachable.run .initial hrun) callOf7 hcall
  rw [hcount] at hle
  exact absurd hle (by decide)

end CacheSystem

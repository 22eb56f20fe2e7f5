import CacheSystem.Wiring

/-!
# The acknowledgement table and its timers

`CacheWaitAcktManager` by itself: responses are registered and acknowledged in any order, `tick`
runs, and every send succeeds. Each entry of `map_` should have its timer, and each timer its entry.

`register_wait_ack` binds the new object to a timer before it learns whether `emplace` took it. For
an op id that is in the table `emplace` keeps the old entry, and the timer is left with an object
that is destroyed.

* `AckPair` : an entry and a timer that belong together.
* `AckTable` : entries and live timers are in one-to-one correspondence.
* `Tabled` : the invariant of the runs that register no op id twice.
* `tableMatches_iff` : those are the runs in which the correspondence holds.
-/

namespace CacheSystem

variable {env : Env}

/-! ## The correspondence -/

/-- The timer was made for the object that the table owns under this op id. -/
def AckPair (mem : ServerMem) (opId : UInt64) (t : EventTimer (TimerCall Nat)) : Prop :=
  ∃ ptr ack, mem.map opId = some ptr ∧ mem.acks ptr = some ack ∧ ack.destroyed = false ∧
    ack.opId = opId ∧ t.callback = .foreign ptr ∧ t.timerId = ack.timerId

/-- Entries and live timers are in one-to-one correspondence. -/
structure AckTable (s : Server) : Prop where
  entry : ∀ opId, s.mem.outer.map opId ≠ none →
    ∃! t, t ∈ s.rt.queue ∧ t.repeat_ ≠ 0 ∧ AckPair s.mem.outer opId t
  timer : ∀ t ∈ s.rt.queue, t.repeat_ ≠ 0 → ∃! opId, AckPair s.mem.outer opId t

/-- The acknowledgement table with the queue it arms its timers in. -/
structure Tabled (q : List (EventTimer (TimerCall Nat))) (mem : ServerMem) : Prop where
  nodup : (q.map EventTimer.timerId).Nodup
  acks : AckOk q mem
  timer : ∀ t ∈ q, t.repeat_ ≠ 0 → ∃ opId, AckPair mem opId t
  sendable : ∀ ptr ack, mem.acks ptr = some ack → ack.destroyed = false →
    ack.message.isEmpty = false

variable {q q' : List (EventTimer (TimerCall Nat))} {mem mem' : ServerMem} {opId : UInt64}
  {t t' : EventTimer (TimerCall Nat)}

/-- A timer belongs to one entry. -/
theorem AckPair.unique {opId' : UInt64} (h : AckPair mem opId t) (h' : AckPair mem opId' t) :
    opId' = opId := by
  obtain ⟨ptr, ack, -, hack, -, hid, hcall, -⟩ := h
  obtain ⟨ptr', ack', -, hack', -, hid', hcall', -⟩ := h'
  rw [hcall] at hcall'
  cases hcall'
  rw [hack] at hack'
  cases hack'
  exact hid'.symm.trans hid

/-- The timer's object is the one that is found under the op id. -/
theorem AckPair.found (h : AckPair mem opId t) {ptr : Nat} {ack : WaitCacheAck}
    (hmap : mem.map opId = some ptr) (hack : mem.acks ptr = some ack) :
    t.callback = .foreign ptr ∧ t.timerId = ack.timerId := by
  obtain ⟨ptr', ack', hmap', hack', -, -, hcall, hid⟩ := h
  rw [hmap] at hmap'
  cases hmap'
  rw [hack] at hack'
  cases hack'
  exact ⟨hcall, hid⟩

/-- Two timers of one entry have one id. -/
theorem AckPair.timerId_eq (h : AckPair mem opId t) (h' : AckPair mem opId t') :
    t.timerId = t'.timerId := by
  obtain ⟨ptr, ack, hmap, hack, -, -, -, hid⟩ := h
  exact hid.trans (h'.found hmap hack).2.symm

/-- An entry has its timer. -/
theorem Tabled.entry (h : Tabled q mem) {ptr : Nat} (hmap : mem.map opId = some ptr) :
    ∃ t ∈ q, t.repeat_ = 1 ∧ AckPair mem opId t := by
  obtain ⟨ack, hack, hlive, hid, t, ht, htid, hcall, hrep⟩ := h.acks.entry opId ptr hmap
  exact ⟨t, ht, hrep, ptr, ack, hmap, hack, hlive, hid, hcall, htid⟩

/-- Timers of one entry are one timer. -/
theorem Tabled.eq_of_pair (h : Tabled q mem) (ht : t ∈ q) (ht' : t' ∈ q)
    (hpair : AckPair mem opId t) (hpair' : AckPair mem opId t') : t = t' :=
  List.inj_on_of_nodup_map h.nodup ht ht' (hpair.timerId_eq hpair')

/-- A live timer fires once. -/
theorem Tabled.repeat_eq_one (h : Tabled q mem) (ht : t ∈ q) (hpair : AckPair mem opId t) :
    t.repeat_ = 1 := by
  obtain ⟨ptr, ack, hmap, hrest⟩ := hpair
  obtain ⟨t', ht', hrep, hpair'⟩ := h.entry hmap
  rw [h.eq_of_pair ht ht' ⟨ptr, ack, hmap, hrest⟩ hpair', hrep]

/-- Such a table is as wanted. -/
theorem Tabled.table {s : Server} (h : Tabled s.rt.queue s.mem.outer) : AckTable s where
  entry opId hne := by
    obtain ⟨ptr, hmap⟩ := Option.ne_none_iff_exists'.mp hne
    obtain ⟨t, ht, hrep, hpair⟩ := h.entry hmap
    refine ⟨t, ⟨ht, ?_, hpair⟩, fun t' ⟨ht', _, hpair'⟩ => h.eq_of_pair ht' ht hpair' hpair⟩
    rw [hrep]
    decide
  timer t ht hlive := by
    obtain ⟨opId, hpair⟩ := h.timer t ht hlive
    exact ⟨opId, hpair, fun opId' hpair' => hpair.unique hpair'⟩

/-! ## What keeps it -/

/-- The tables and the live timers are what counts. -/
theorem Tabled.of_tables (h : Tabled q mem) (hmap : mem'.map = mem.map)
    (hacks : mem'.acks = mem.acks) (hcount : mem'.ackCount = mem.ackCount)
    (hnodup : (q'.map EventTimer.timerId).Nodup)
    (hlive : ∀ t, t.repeat_ ≠ 0 → (t ∈ q' ↔ t ∈ q)) : Tabled q' mem' where
  nodup := hnodup
  acks := h.acks.of_tables hmap hacks hcount fun t ht _ hrep => (hlive t hrep).mpr ht
  timer t ht hrep := by
    unfold AckPair
    rw [hmap, hacks]
    exact h.timer t ((hlive t hrep).mp ht) hrep
  sendable ptr ack hack := by
    rw [hacks] at hack
    exact h.sendable ptr ack hack

/-- **A response is registered** under an op id that is free. -/
theorem Tabled.register {s : Rest} (h : Tabled s.rt.queue s.mem) {header : CacheMessageHeader}
    {message : CacheMessage} (hheader : message.header = some header)
    (hfree : s.mem.map header.opId = none) (requester : Address) :
    Tabled (s.registerAck env header message requester).rt.queue
      (s.registerAck env header message requester).mem := by
  have hperm := pushTimer_queue_perm env (.foreign s.mem.ackCount) kDefaultTimeout 1 s.rt
  have hempty : message.isEmpty = false := by simp [CacheMessage.isEmpty, hheader]
  refine ⟨?_, ?_, fun t ht hrep => ?_, fun ptr ack hack hlive => ?_⟩
  · refine (hperm.map EventTimer.timerId).nodup_iff.mpr (List.nodup_cons.mpr ⟨?_, h.nodup⟩)
    exact env.pick_fresh _ _
  · have hsent : Answer env (fun _ => false) message requester s _ :=
      .registered hheader hfree (.sent hempty)
    exact (h.acks.answer hsent).of_tables rfl rfl rfl fun t ht _ _ => ht
  · rw [registerAck_rt] at ht
    rcases List.mem_cons.mp (hperm.mem_iff.mp ht) with rfl | ht
    · exact ⟨header.opId, s.mem.ackCount, _, Function.update_self .., Function.update_self .., rfl,
        rfl, rfl, rfl⟩
    · obtain ⟨opId, ptr, ack, hmap, hack, hrest⟩ := h.timer t ht hrep
      refine ⟨opId, ptr, ack, ?_, ?_, hrest⟩
      · rw [registerAck_map, Function.update_of_ne, hmap]
        rintro rfl
        exact nomatch hfree.symm.trans hmap
      · rw [registerAck_acks, Function.update_of_ne (h.acks.lt hmap).ne, hack]
  · rw [registerAck_acks] at hack
    rcases Lib.Table.of_assign hack with ⟨-, rfl⟩ | ⟨-, hack⟩
    · exact hempty
    · exact h.sendable ptr ack hack hlive

/-- **An entry goes with its timer**: what is left of the queue are the live timers with another
id. -/
theorem Tabled.erase {s : Rest} (h : Tabled s.rt.queue s.mem) {ptr : Nat} {ack : WaitCacheAck}
    (hmap : s.mem.map opId = some ptr) (hack : s.mem.acks ptr = some ack)
    (hnodup : (q'.map EventTimer.timerId).Nodup)
    (hlive : ∀ t, t.repeat_ ≠ 0 → (t ∈ q' ↔ t ∈ s.rt.queue ∧ t.timerId ≠ ack.timerId)) :
    Tabled q' (s.eraseAck opId ptr).mem := by
  have herase := h.acks.erase hmap
  have hfree := h.acks.erase_free hmap
  obtain ⟨t₀, ht₀, hrep₀, hpair₀⟩ := h.entry hmap
  obtain ⟨hcall₀, hid₀⟩ := hpair₀.found hmap hack
  refine ⟨hnodup, ⟨fun opId' ptr' hmap' => ?_, herase.fresh⟩, fun t ht hrep => ?_,
    fun ptr' ack' hack' hlive' => ?_⟩
  · obtain ⟨ack', hack', hlive', hid, t, ht, htid, hcall, hrep⟩ := herase.entry opId' ptr' hmap'
    refine ⟨ack', hack', hlive', hid, t, (hlive t (by rw [hrep]; decide)).mpr ⟨ht, ?_⟩, htid, hcall,
      hrep⟩
    -- a timer with the id of the one that goes would be that timer, and belong to its entry
    intro heq
    obtain rfl := List.inj_on_of_nodup_map h.nodup ht ht₀ (heq.trans hid₀.symm)
    rw [hcall] at hcall₀
    cases hcall₀
    exact hfree opId' hmap'
  · obtain ⟨ht, hne⟩ := (hlive t hrep).mp ht
    obtain ⟨opId', ptr', ack', hmap', hack', hrest⟩ := h.timer t ht hrep
    have hptr : ptr' ≠ ptr := by
      rintro rfl
      rw [hack] at hack'
      cases hack'
      exact hne hrest.2.2.2
    refine ⟨opId', ptr', ack', ?_, ?_, hrest⟩
    · change Function.update s.mem.map opId none opId' = some ptr'
      rw [Function.update_of_ne, hmap']
      rintro rfl
      rw [hmap] at hmap'
      cases hmap'
      exact hptr rfl
    · change Function.update s.mem.acks ptr _ ptr' = some ack'
      rw [Function.update_of_ne hptr, hack']
  · change Function.update s.mem.acks ptr _ ptr' = some ack' at hack'
    by_cases hptr : ptr' = ptr
    · subst hptr
      rw [Function.update_self, hack] at hack'
      cases hack'
      cases hlive'
    · rw [Function.update_of_ne hptr] at hack'
      exact h.sendable ptr' ack' hack' hlive'

/-- **A response is acknowledged.** -/
theorem Tabled.unregister {s : Rest} (h : Tabled s.rt.queue s.mem) (opId : UInt64) :
    Tabled (unregisterWaitAck opId s).rt.queue (unregisterWaitAck opId s).mem := by
  have hspec := unregisterWaitAck_spec opId s
  generalize unregisterWaitAck opId s = r at hspec
  cases hspec with
  | absent hmap => exact h
  | lost hmap hack =>
      obtain ⟨ack, hack', -⟩ := h.acks.entry _ _ hmap
      exact nomatch hack.symm.trans hack'
  | @erased ptr ack hmap hack =>
      have hnodup : ((delTimer ack.timerId s.rt).queue.map EventTimer.timerId).Nodup := by
        rw [delTimer_timerIds]
        exact h.nodup
      have herase := h.erase hmap hack hnodup fun t hrep => by
        constructor
        · intro ht
          obtain ⟨t', ht', rfl⟩ := List.mem_map.mp ht
          have hne := ne_of_cancel_live hrep
          rw [cancel_of_ne hne]
          exact ⟨ht', hne⟩
        · exact fun ⟨ht, hne⟩ => mem_delTimer_of_ne ht hne
      exact herase.of_tables rfl rfl rfl hnodup fun _ _ => Iff.rfl

/-- **A timer fires**: the object it was made for is there, the response is sent again, and the
entry goes. -/
theorem Tabled.expire (env : Env) {s : Server} (h : Tabled s.rt.queue s.mem.outer)
    {rest : List (EventTimer (TimerCall Nat))} (hq : s.rt.queue = t :: rest) (hrep : t.repeat_ ≠ 0)
    (rt : Runtime (TimerCall Nat)) :
    t.repeat_ = 1 ∧
      (runTimer env (serverHooks env fun _ => false) t.callback ⟨rt, s.mem⟩).1 = none ∧
      (runTimer env (serverHooks env fun _ => false) t.callback ⟨rt, s.mem⟩).2.rt = rt ∧
      (runTimer env (serverHooks env fun _ => false) t.callback ⟨rt, s.mem⟩).2.mem.outer.log =
        s.mem.outer.log ∧
      Tabled rest
        (runTimer env (serverHooks env fun _ => false) t.callback ⟨rt, s.mem⟩).2.mem.outer := by
  have ht : t ∈ s.rt.queue := by
    rw [hq]
    exact List.mem_cons_self
  obtain ⟨opId, hpair⟩ := h.timer t ht hrep
  have hone := h.repeat_eq_one ht hpair
  obtain ⟨ptr, ack, hmap, hack, hlive, hid, hcall, htid⟩ := hpair
  have hsend := h.sendable ptr ack hack hlive
  have hrun : runTimer env (serverHooks env fun _ => false) t.callback ⟨rt, s.mem⟩ =
      (none, Center.withOuter ⟨rt, s.mem⟩ (Proc.eraseAck opId ptr ⟨rt, { s.mem.outer with
        sends := s.mem.outer.sends + 1
        sent := s.mem.outer.sent ++ [⟨s.mem.outer.peer, ack.message, ack.requester⟩] }⟩)) := by
    simp only [runTimer, hcall, serverHooks, timerHandle, Center.outer, hack, hlive, doSend, hsend,
      expireHandle, hid, hmap, Bool.false_eq_true, if_false]
  rw [hrun]
  have hnodup := h.nodup
  rw [hq, List.map_cons, List.nodup_cons] at hnodup
  refine ⟨hone, rfl, rfl, rfl, ?_⟩
  have herase := Tabled.erase (s := s.outer) h hmap hack hnodup.2 fun t' _ => by
    rw [outer_rt, hq]
    constructor
    · intro ht'
      refine ⟨List.mem_cons_of_mem t ht', fun heq => ?_⟩
      exact hnodup.1 (List.mem_map.mpr ⟨t', ht', heq.trans htid.symm⟩)
    · rintro ⟨ht', hne⟩
      rcases List.mem_cons.mp ht' with rfl | ht'
      · exact absurd htid hne
      · exact ht'
  exact herase.of_tables rfl rfl rfl hnodup.2 fun _ _ => Iff.rfl

/-! ## Runs -/

/-- A call on the acknowledgement table, or a `tick`. -/
inductive AckOp
  | register (message : CacheMessage) (requester : Address)
  | unregister (opId : UInt64)
  /-- A `tick` that ends within `fuel` iterations. -/
  | tick (fuel : Nat)

/-- The state after a call, whether it returned or threw. Every send succeeds. -/
def Server.ackStep (env : Env) (s : Server) : AckOp → Option Server
  | .register message requester =>
      some (s.withOuter (registerWaitAck env message requester s.outer).2)
  | .unregister opId => some (s.withOuter (unregisterWaitAck opId s.outer))
  | .tick fuel =>
      (tickLoop env (runTimer env (serverHooks env fun _ => false)) fuel s).map Prod.snd

/-- The states of the runs whose steps all meet a condition `ok` on the state before the step and
the call. -/
inductive AckReachable (env : Env) (ok : Server → AckOp → Prop) : Server → Prop
  | initial : AckReachable env ok Server.initial
  | step {s s' : Server} (op : AckOp) : AckReachable env ok s → ok s op →
      s.ackStep env op = some s' → AckReachable env ok s'

/-- The op id of a response that is registered is not in the table. -/
def Server.Unregistered (s : Server) : AckOp → Prop
  | .register message _ =>
      ∀ header, message.header = some header → s.mem.outer.map header.opId = none
  | .unregister _ => True
  | .tick _ => True

/-- No object is called after it was destroyed. -/
def NoDangling (s : Server) : Prop := ∀ ptr, ServerEvent.danglingCall ptr ∉ s.mem.outer.log

/-- In the runs whose steps meet `ok`, between the steps and before every iteration of a `tick`,
entries and live timers are in one-to-one correspondence, no destroyed object was called, and no
`tick` throws. -/
def TableMatches (env : Env) (ok : Server → AckOp → Prop) : Prop :=
  ∀ s, AckReachable env ok s →
    (∀ s', Iterates env (runTimer env (serverHooks env fun _ => false)) s s' →
      AckTable s' ∧ NoDangling s') ∧
    ∀ fuel e s', tickLoop env (runTimer env (serverHooks env fun _ => false)) fuel s =
      some (e, s') → e = none

/-- The invariant of the runs that register no op id twice. -/
structure AckSound (s : Server) : Prop where
  tabled : Tabled s.rt.queue s.mem.outer
  noDangling : NoDangling s

/-- **An iteration of `tick` keeps the invariant** and does not throw. -/
theorem AckSound.tickIter {s : Server} (h : AckSound s) {r : Iter Server}
    (hi : TickIter env (runTimer env (serverHooks env fun _ => false)) s r) :
    AckSound r.state ∧ ∀ e s', r ≠ .threw e s' := by
  cases hi with
  | empty hq => exact ⟨h, fun _ _ => nofun⟩
  | notDue hq hdue => exact ⟨⟨h.tabled, h.noDangling⟩, fun _ _ => nofun⟩
  | @dead t rest q hq hdue h0 hperm =>
      refine ⟨⟨?_, h.noDangling⟩, fun _ _ => nofun⟩
      have hnodup := h.tabled.nodup
      rw [hq, List.map_cons, List.nodup_cons] at hnodup
      refine h.tabled.of_tables rfl rfl rfl
        ((hperm.map EventTimer.timerId).nodup_iff.mpr hnodup.2) fun t' hrep => ?_
      rw [hq, List.mem_cons]
      refine hperm.mem_iff.trans ⟨Or.inr, ?_⟩
      rintro (rfl | ht')
      · exact absurd h0 hrep
      · exact ht'
  | @threw t rest e p₁ hq hdue h0 hrun =>
      obtain ⟨-, hnone, -⟩ := h.tabled.expire env hq h0 s.rt.readClock.lock
      rw [hrun] at hnone
      cases hnone
  | @fired t rest p₁ hq hdue h0 hrun =>
      obtain ⟨hone, -, hrt, hlog, htabled⟩ :=
        h.tabled.expire env hq h0 s.rt.readClock.lock
      rw [hrun] at hrt hlog htabled
      refine ⟨⟨?_, ?_⟩, fun _ _ => nofun⟩
      · have hq₁ : p₁.rt.queue = t :: rest := by rw [hrt]; exact hq
        rcases settleFront_decrementFront env hq₁ with ⟨-, q, hperm, hs⟩ | ⟨hne, -⟩
        · change Tabled (settleFront env (decrementFront p₁.rt)).queue p₁.mem.outer
          rw [hs]
          exact htabled.of_tables rfl rfl rfl
            ((hperm.map EventTimer.timerId).nodup_iff.mpr htabled.nodup) fun _ _ => hperm.mem_iff
        · exact absurd hone hne
      · intro ptr hmem
        change _ ∈ p₁.mem.outer.log at hmem
        rw [hlog] at hmem
        exact h.noDangling ptr hmem

/-- **A call keeps the invariant** unless it registers an op id twice. -/
theorem AckSound.step {s s' : Server} (h : AckSound s) {op : AckOp} (hfree : s.Unregistered op)
    (hstep : s.ackStep env op = some s') : AckSound s' := by
  cases op with
  | register message requester =>
      cases hstep
      unfold registerWaitAck
      rcases hheader : message.header with _ | header
      · exact h
      · have hmap : s.outer.mem.map header.opId = none := hfree header hheader
        simp only [hmap]
        exact ⟨Tabled.register (s := s.outer) h.tabled hheader hmap requester, h.noDangling⟩
  | unregister opId =>
      cases hstep
      refine ⟨Tabled.unregister (s := s.outer) h.tabled opId, fun ptr hmem => ?_⟩
      change _ ∈ (unregisterWaitAck opId s.outer).mem.log at hmem
      have hspec := unregisterWaitAck_spec opId s.outer
      generalize unregisterWaitAck opId s.outer = r at hspec hmem
      cases hspec with
      | absent hmap => exact h.noDangling ptr hmem
      | lost hmap hack => exact h.noDangling ptr (by simpa [Proc.note, Proc.eraseAck] using hmem)
      | erased hmap hack => exact h.noDangling ptr (by simpa [Proc.note, Proc.eraseAck] using hmem)
  | tick fuel =>
      obtain ⟨⟨e, s'⟩, hr, rfl⟩ := Option.map_eq_some_iff.mp hstep
      exact tickLoop_induct AckSound (fun _ _ h hi => (h.tickIter hi).1) fuel s e s' h hr

/-- At the start the table is empty. -/
theorem AckSound.initial : AckSound Server.initial where
  tabled :=
    { nodup := List.nodup_nil
      acks := ⟨fun _ _ h => (nomatch h), fun _ _ => rfl⟩
      timer := fun _ h => nomatch h
      sendable := fun _ _ h => nomatch h }
  noDangling _ h := nomatch h

/-- **An op id that is registered twice** breaks the correspondence: the new timer has no entry. -/
theorem AckSound.unregistered {s : Server} (h : AckSound s) {message : CacheMessage}
    {requester : Address}
    (htable : AckTable (s.withOuter (registerWaitAck env message requester s.outer).2)) :
    s.Unregistered (.register message requester) := by
  intro header hheader
  by_contra hne
  obtain ⟨ptr, hmap⟩ := Option.ne_none_iff_exists'.mp hne
  have hmap' : s.outer.mem.map header.opId = some ptr := hmap
  simp only [registerWaitAck, hheader, hmap'] at htable
  have hnew : newTimer env (.foreign s.mem.outer.ackCount) kDefaultTimeout 1 s.rt ∈
      (s.outer.refuseAck env header message.released requester).rt.queue :=
    (pushTimer_queue_perm env _ _ _ s.rt).mem_iff.mpr List.mem_cons_self
  obtain ⟨opId, ⟨ptr', ack, hentry, -, -, -, hcall, -⟩, -⟩ :=
    htable.timer _ hnew (by change (1 : UInt32) ≠ 0; decide)
  cases hcall
  exact absurd (h.tabled.acks.lt hentry) (lt_irrefl _)

/-- The invariant of the runs, as long as it makes their steps register what is free. -/
theorem AckReachable.sound {ok : Server → AckOp → Prop}
    (hfree : ∀ s, AckReachable env ok s → AckSound s → ∀ op, ok s op → s.Unregistered op)
    {s : Server} (h : AckReachable env ok s) : AckSound s := by
  induction h with
  | initial => exact AckSound.initial
  | step op hreach hok hstep ih => exact ih.step (hfree _ hreach ih op hok) hstep

/-- **Table and timers match** exactly in the runs that register no op id that is in the table. -/
theorem tableMatches_iff (env : Env) (ok : Server → AckOp → Prop) :
    TableMatches env ok ↔ ∀ s, AckReachable env ok s → ∀ op, ok s op → s.Unregistered op := by
  constructor
  · intro h
    have hfree (s : Server) (hreach : AckReachable env ok s) (hs : AckSound s) (op : AckOp)
        (hok : ok s op) : s.Unregistered op := by
      cases op with
      | register message requester =>
          exact hs.unregistered ((h _ (.step _ hreach hok rfl)).1 _ .refl).1
      | unregister opId => trivial
      | tick fuel => trivial
    exact fun s hreach op hok => hfree s hreach (hreach.sound hfree) op hok
  · intro h s hreach
    have hsound : AckSound s := hreach.sound fun s hreach _ => h s hreach
    constructor
    · intro s' hiter
      have hs' := hiter.induct (P := AckSound) (fun _ _ h hi => (h.tickIter hi).1) hsound
      exact ⟨hs'.tabled.table, hs'.noDangling⟩
    · intro fuel e s' htick
      rcases e with _ | e
      · rfl
      · obtain ⟨s₁, hs₁, hthrew⟩ := tickLoop_threw AckSound (fun _ _ h hi => (h.tickIter hi).1) fuel
          s e s' hsound htick
        exact absurd rfl ((hs₁.tickIter hthrew).2 e s')

/-- A request that arrives twice within the time of an acknowledgement: the second response's timer
calls an object that is gone. -/
theorem not_tableMatches : ¬ TableMatches (jumpClock 2 500) fun _ _ => True := by
  intro h
  obtain ⟨s₁, s₂, s₃, h₁, h₂, h₃, hlog⟩ : ∃ s₁ s₂ s₃,
      Server.initial.ackStep (jumpClock 2 500)
        (.register { header := some { opId := 11 }, opResponse := some {} } 7) = some s₁ ∧
      s₁.ackStep (jumpClock 2 500)
        (.register { header := some { opId := 11 }, opResponse := some {} } 7) = some s₂ ∧
      s₂.ackStep (jumpClock 2 500) (.tick 3) = some s₃ ∧
      .danglingCall 1 ∈ s₃.mem.outer.log :=
    ⟨_, _, _, rfl, rfl, rfl, by decide⟩
  have hreach : AckReachable (jumpClock 2 500) (fun _ _ => True) s₃ :=
    .step _ (.step _ (.step _ .initial trivial h₁) trivial h₂) trivial h₃
  exact ((h s₃ hreach).1 s₃ .refl).2 1 hlog

end CacheSystem

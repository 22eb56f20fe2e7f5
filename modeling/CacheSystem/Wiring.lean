import CacheSystem.Expiry
import CacheSystem.ServerSteps

/-!
# The server's timers

The server keeps `Armed`, for its callbacks add acknowledgement timers only, and a processed
acknowledgement cancels the timer of its own entry (`AckOk`): every entry of the acknowledgement
table has a live object, and a live timer in the queue that was made for it. Both hold in every
run of the server, whatever is sent to it.
-/

namespace CacheSystem

variable {env : Env} {fails : Nat → Bool}

/-! ## What callbacks do to the queue -/

/-- Registering a response adds timers outside the data center. -/
theorem Answer.addsForeign {response : CacheMessage} {requester : Address} {q : Rest}
    {r : Option Thrown × Rest} (h : Answer env fails response requester q r) :
    AddsForeign env q.rt r.2.rt := by
  cases h with
  | registered hheader hmap hr =>
      rw [hr.tables.1]
      exact .add _ _ _ .refl
  | taken hheader hmap hmessage hr =>
      rw [hr.tables.1]
      exact .add _ _ _ .refl

/-- `update_handle` adds timers outside the data center. -/
theorem UpdateHandle.addsForeign {handler : Request} {ret : OpResult} {opId : UInt32}
    {expire : Int} {q : Rest} {r : Option Thrown × Rest}
    (h : UpdateHandle env fails handler ret opId expire q r) : AddsForeign env q.rt r.2.rt := by
  cases h with
  | refused hret => exact .refl
  | lost hret hdefer => exact .refl
  | answered hret hdefer hr => exact hr.addsForeign

/-- The server's callbacks only add timers of its own. -/
theorem serverHooks_benign : (serverHooks env fails).Benign env where
  invoke f status opId expire q := (updateHandle_spec f status opId expire q).addsForeign
  foreign ptr q := by
    have h : (timerHandle fails ptr q).2.rt = q.rt := (timerHandle_spec ptr q).tables.1
    show AddsForeign env q.rt (timerHandle fails ptr q).2.rt
    rw [h]
    exact .refl

/-! ## Entries and their timers -/

/-- Every entry of the table has its object, and a live timer made for the object. -/
structure AckOk (q : List (EventTimer (TimerCall Nat))) (mem : ServerMem) : Prop where
  entry : ∀ opId ptr, mem.map opId = some ptr → ∃ ack, mem.acks ptr = some ack ∧
    ack.destroyed = false ∧ ack.opId = opId ∧
      ∃ t ∈ q, t.timerId = ack.timerId ∧ t.callback = .foreign ptr ∧ t.repeat_ = 1
  fresh : ∀ ptr, mem.ackCount ≤ ptr → mem.acks ptr = none

variable {q q' : List (EventTimer (TimerCall Nat))} {mem mem' : ServerMem}

/-- Entries need the live timers of other owners only, and the tables. -/
theorem AckOk.of_tables (h : AckOk q mem) (hmap : mem'.map = mem.map) (hacks : mem'.acks = mem.acks)
    (hcount : mem'.ackCount = mem.ackCount)
    (hq : ∀ t ∈ q, t.callback.owner = none → t.repeat_ ≠ 0 → t ∈ q') : AckOk q' mem' where
  entry opId ptr hentry := by
    rw [hmap] at hentry
    obtain ⟨ack, hack, hlive, hid, t, ht, htid, hcall, hrep⟩ := h.entry opId ptr hentry
    refine ⟨ack, by rw [hacks, hack], hlive, hid, t, hq t ht ?_ ?_, htid, hcall, hrep⟩
    · rw [hcall]
      rfl
    · rw [hrep]
      decide
  fresh ptr hptr := by
    rw [hcount] at hptr
    rw [hacks]
    exact h.fresh ptr hptr

/-- An entry's object is older than the next one. -/
theorem AckOk.lt (h : AckOk q mem) {opId : UInt64} {ptr : Nat} (hentry : mem.map opId = some ptr) :
    ptr < mem.ackCount := by
  obtain ⟨ack, hack, -⟩ := h.entry opId ptr hentry
  by_contra hge
  rw [h.fresh ptr (not_lt.mp hge)] at hack
  cases hack

/-- Two entries have different objects. -/
theorem AckOk.inj (h : AckOk q mem) {opId opId' : UInt64} {ptr : Nat}
    (hentry : mem.map opId = some ptr) (hentry' : mem.map opId' = some ptr) : opId = opId' := by
  obtain ⟨ack, hack, -, hid, -⟩ := h.entry opId ptr hentry
  obtain ⟨ack', hack', -, hid', -⟩ := h.entry opId' ptr hentry'
  rw [hack] at hack'
  cases hack'
  exact hid.symm.trans hid'

/-- Erasing an entry and its object leaves the other entries as they were. -/
theorem AckOk.erase {s : Rest} (h : AckOk q s.mem) {opId : UInt64} {ptr : Nat}
    (hentry : s.mem.map opId = some ptr) : AckOk q (s.eraseAck opId ptr).mem where
  entry opId' ptr' hentry' := by
    obtain ⟨hne, hbefore⟩ := Lib.Table.of_erase hentry'
    have hptr : ptr' ≠ ptr := by
      rintro rfl
      exact hne (h.inj hbefore hentry)
    obtain ⟨ack, hack, hrest⟩ := h.entry opId' ptr' hbefore
    refine ⟨ack, ?_, hrest⟩
    change Function.update s.mem.acks ptr _ ptr' = some ack
    rw [Function.update_of_ne hptr, hack]
  fresh ptr' hptr' := by
    change Function.update s.mem.acks ptr _ ptr' = none
    have hptr : ptr' ≠ ptr := by
      rintro rfl
      exact absurd (h.lt hentry) (not_lt.mpr hptr')
    rw [Function.update_of_ne hptr]
    exact h.fresh ptr' hptr'

/-- After an entry is erased no entry has its object. -/
theorem AckOk.erase_free {s : Rest} (h : AckOk q s.mem) {opId : UInt64} {ptr : Nat}
    (hentry : s.mem.map opId = some ptr) :
    ∀ opId', (s.eraseAck opId ptr).mem.map opId' ≠ some ptr := by
  intro opId' hentry'
  obtain ⟨hne, hbefore⟩ := Lib.Table.of_erase hentry'
  exact hne (h.inj hbefore hentry)

/-- An answer keeps the table in order. -/
theorem AckOk.answer {response : CacheMessage} {requester : Address} {s : Rest}
    {r : Option Thrown × Rest} (h : AckOk s.rt.queue s.mem)
    (hr : Answer env fails response requester s r) : AckOk r.2.rt.queue r.2.mem := by
  have hkept : ∀ t ∈ s.rt.queue, t ∈ (pushTimer env (.foreign s.mem.ackCount) kDefaultTimeout 1
      s.rt).2.queue := fun t ht =>
    (pushTimer_queue_perm env _ _ _ s.rt).mem_iff.mpr (List.mem_cons_of_mem _ ht)
  cases hr with
  | @registered header r hheader hmap hr =>
      obtain ⟨hrt, htmap, htacks, htcount, -⟩ := hr.tables
      rw [registerAck_rt] at hrt
      rw [registerAck_map] at htmap
      rw [registerAck_acks] at htacks
      rw [registerAck_ackCount] at htcount
      have hnew : newTimer env (.foreign s.mem.ackCount) kDefaultTimeout 1 s.rt ∈
          (pushTimer env (.foreign s.mem.ackCount) kDefaultTimeout 1 s.rt).2.queue :=
        (pushTimer_queue_perm env _ _ _ s.rt).mem_iff.mpr List.mem_cons_self
      refine ⟨fun opId ptr hentry => ?_, fun ptr hptr => ?_⟩
      · rw [htmap] at hentry
        rw [htacks, hrt]
        rcases Lib.Table.of_assign hentry with ⟨rfl, rfl⟩ | ⟨-, hentry⟩
        · exact ⟨_, Function.update_self .., rfl, rfl, _, hnew, rfl, rfl, rfl⟩
        · obtain ⟨ack, hack, hlive, haid, t, ht, hrest⟩ := h.entry opId ptr hentry
          refine ⟨ack, ?_, hlive, haid, t, hkept t ht, hrest⟩
          rw [Function.update_of_ne (h.lt hentry).ne, hack]
      · rw [htcount] at hptr
        rw [htacks, Function.update_of_ne (Nat.lt_of_succ_le hptr).ne']
        exact h.fresh ptr (Nat.le_of_succ_le hptr)
  | @taken header ptr₀ message r hheader hmap hmessage hr =>
      obtain ⟨hrt, htmap, htacks, htcount, -⟩ := hr.tables
      rw [refuseAck_rt] at hrt
      rw [refuseAck_map] at htmap
      rw [refuseAck_acks] at htacks
      rw [refuseAck_ackCount] at htcount
      refine ⟨fun opId ptr hentry => ?_, fun ptr hptr => ?_⟩
      · rw [htmap] at hentry
        rw [htacks, hrt]
        obtain ⟨ack, hack, hlive, haid, t, ht, hrest⟩ := h.entry opId ptr hentry
        refine ⟨ack, ?_, hlive, haid, t, hkept t ht, hrest⟩
        rw [Function.update_of_ne (h.lt hentry).ne, hack]
      · rw [htcount] at hptr
        rw [htacks, Function.update_of_ne (Nat.lt_of_succ_le hptr).ne']
        exact h.fresh ptr (Nat.le_of_succ_le hptr)

/-- A processed acknowledgement cancels a timer of the server's own. -/
theorem AckOk.unregister {s : Server} {opId : UInt64} {r : Rest}
    (h : AckOk s.rt.queue s.mem.outer) (ha : Armed s.rt.queue s.mem.map)
    (hr : Unregister opId s.outer r) : Armed r.rt.queue s.mem.map ∧ AckOk r.rt.queue r.mem := by
  cases hr with
  | absent hmap => exact ⟨ha, h⟩
  | @lost ptr hmap hack =>
      obtain ⟨ack, hack', -⟩ := h.entry opId ptr hmap
      rw [show s.mem.outer.acks ptr = none from hack] at hack'
      cases hack'
  | @erased ptr ack hmap hack =>
      obtain ⟨ack', hack', -, -, t, ht, htid, hcall, -⟩ := h.entry opId ptr hmap
      obtain rfl := Option.some.inj (hack.symm.trans hack')
      have herase := AckOk.erase (s := s.outer) h hmap
      have hfree := AckOk.erase_free (s := s.outer) h hmap
      refine ⟨?_, fun opId' ptr' hentry => ?_, herase.fresh⟩
      · show Armed (s.rt.queue.map (EventTimer.cancel ack.timerId)) s.mem.map
        rw [← htid]
        exact ha.cancelForeign ht (by rw [hcall]; rfl)
      · obtain ⟨ack₁, hack₁, hlive, hid, t₁, ht₁, htid₁, hcall₁, hrep⟩ :=
          herase.entry opId' ptr' hentry
        refine ⟨ack₁, hack₁, hlive, hid, t₁, ?_, htid₁, hcall₁, hrep⟩
        refine mem_delTimer_of_ne ht₁ fun heq => ?_
        obtain rfl := ha.eq_of_timerId ht₁ ht (heq.trans htid.symm)
        rw [hcall] at hcall₁
        cases hcall₁
        exact hfree opId' hentry

/-- A callback keeps the table in order, and an acknowledgement timer that fires leaves no entry
behind. -/
theorem AckOk.timerHandle {s : Rest} {ptr : Nat} {r : Option Thrown × Rest}
    (h : AckOk s.rt.queue s.mem) (hr : TimerHandle fails ptr s r) :
    AckOk r.2.rt.queue r.2.mem ∧ (r.1 = none → ∀ opId, r.2.mem.map opId ≠ some ptr) := by
  have hsend : ∀ {ack : WaitCacheAck} {q₁ : Rest} {r : Option Thrown × Rest},
      (q₁ = s ∧ ack.destroyed = false ∨ q₁ = s.note (.danglingCall ptr)) →
      DoSend fails ack.message ack.requester q₁ r → AckOk r.2.rt.queue r.2.mem ∧
        r.2.mem.map = s.mem.map ∧ r.2.mem.acks = s.mem.acks := by
    intro ack q₁ r hq hr
    obtain ⟨hrt, hmap, hacks, hcount, -⟩ := hr.tables
    obtain ⟨hrt₁, hmap₁, hacks₁, hcount₁, -⟩ := noted_tables hq
    refine ⟨h.of_tables (hmap.trans hmap₁) (hacks.trans hacks₁) (hcount.trans hcount₁) ?_,
      hmap.trans hmap₁, hacks.trans hacks₁⟩
    intro t ht _ _
    rwa [hrt, hrt₁]
  cases hr with
  | absent hack =>
      refine ⟨h, fun _ opId hentry => ?_⟩
      obtain ⟨ack, hack', -⟩ := h.entry opId ptr hentry
      rw [hack] at hack'
      cases hack'
  | threw hack hq hr he => exact ⟨(hsend hq hr).1, fun hnone => by rw [he] at hnone; cases hnone⟩
  | unknown hack hq hr he hmap => exact ⟨(hsend hq hr).1, fun hnone => by cases hnone⟩
  | @expired ack q₁ r ptr' hack hq hr he hmap =>
      obtain ⟨hok, hmap', hacks'⟩ := hsend hq hr
      have hentry' : r.2.mem.map ack.opId = some ptr' := by rw [hmap', hmap]
      refine ⟨hok.erase hentry', fun _ opId hentry => ?_⟩
      -- an entry of `ptr` would name its own op id, which was erased
      obtain ⟨ack₁, hack₁, -, hid, -⟩ := (hok.erase hentry').entry opId ptr hentry
      by_cases hptr : ptr = ptr'
      · exact hok.erase_free hentry' opId (hptr ▸ hentry)
      · change Function.update r.2.mem.acks ptr' _ ptr = some ack₁ at hack₁
        rw [Function.update_of_ne hptr, hacks', hack] at hack₁
        cases hack₁
        exact (Lib.Table.of_erase hentry).1 hid.symm

/-- After `update_handle` every entry of the table has its object and its timer. -/
theorem AckOk.updateHandle {s : Rest} {handler : Request} {ret : OpResult} {opId : UInt32}
    {expire : Int} {r : Option Thrown × Rest} (h : AckOk s.rt.queue s.mem)
    (hr : UpdateHandle env fails handler ret opId expire s r) : AckOk r.2.rt.queue r.2.mem := by
  cases hr with
  | refused hret => exact h
  | lost hret hdefer => exact h.of_tables rfl rfl rfl fun t ht _ _ => ht
  | answered hret hdefer hr =>
      have htake : AckOk (s.takeDefer handler opId).rt.queue (s.takeDefer handler opId).mem :=
        h.of_tables rfl rfl rfl fun t ht _ _ => ht
      exact htake.answer hr

/-! ## Runs -/

/-- The timers of the data center and of the acknowledgements are in order. -/
structure Wired (s : Server) : Prop where
  armed : Armed s.rt.queue s.mem.map
  acks : AckOk s.rt.queue s.mem.outer

variable {s s' : Server}

/-- The fields of the handlers that are no table do not matter. -/
theorem Wired.of_tables (h : Wired s) (hrt : s'.rt = s.rt) (hmap : s'.mem.map = s.mem.map)
    (hentries : s'.mem.outer.map = s.mem.outer.map) (hacks : s'.mem.outer.acks = s.mem.outer.acks)
    (hcount : s'.mem.outer.ackCount = s.mem.outer.ackCount) : Wired s' where
  armed := by rw [hrt, hmap]; exact h.armed
  acks := h.acks.of_tables hentries hacks hcount fun t ht _ _ => by rwa [hrt]

/-- The scratch members are not about timers. -/
theorem Wired.setScratch (h : Wired s) (ret : OpResult) (out : Option (Int × CacheData)) :
    Wired (s.setScratch ret out) := by
  rcases out with _ | ⟨expire, value⟩ <;> exact h.of_tables rfl rfl rfl rfl rfl

/-- An answer outside the data center keeps the timers in order. -/
theorem Wired.answer (h : Wired s) {response : CacheMessage} {requester : Address}
    {r : Option Thrown × Rest} (hr : Answer env fails response requester s.outer r) :
    Wired (s.withOuter r.2) where
  armed := h.armed.addsForeign hr.addsForeign
  acks := AckOk.answer (s := s.outer) h.acks hr

/-- A read leaves the timers in order. -/
theorem Wired.readOp (h : Wired s) {cacheId : UInt64} {opId : UInt32}
    {r : Except Thrown (OpResult × Option (Int × CacheData)) × Server}
    (hop : ReadOp env cacheId opId s r) : Wired r.2 where
  armed := Armed.readOp hop h.armed
  acks := by
    rw [hop.outer]
    exact h.acks.of_tables rfl rfl rfl fun t ht ho _ => hop.keeps h.armed t ht ho

/-- An update leaves the timers in order. -/
theorem Wired.updateOp (h : Wired s) {cacheId : UInt64} {value : CacheData} {opId : UInt32}
    {f : Request} {r : Except Thrown (OpResult × Int) × Server}
    (hop : UpdateOp env cacheId value opId f s r) : Wired r.2 where
  armed := Armed.updateOp hop h.armed
  acks := by
    rw [hop.outer]
    exact h.acks.of_tables rfl rfl rfl fun t ht ho _ => hop.keeps h.armed t ht ho

/-- Taking a datagram in leaves the timers in order. -/
theorem Wired.onReceive (h : Wired s) {sender : Address} {data : Option CacheMessage}
    {r : Option Thrown × Server} (hr : OnReceive env fails sender s data r) : Wired r.2 := by
  have hpeer : Wired (s.setPeer sender) := h.of_tables rfl rfl rfl rfl rfl
  cases hr with
  | ignored => exact hpeer
  | acked hm =>
      obtain ⟨harmed, hacks⟩ := hpeer.acks.unregister hpeer.armed (unregisterWaitAck_spec _ _)
      exact ⟨harmed, hacks⟩
  | @read m read ret out s₁ s₂ r hm hread hop hs₂ hr =>
      have hid : Wired ((s.setPeer sender).setCacheId read.cacheId) :=
        hpeer.of_tables rfl rfl rfl rfl rfl
      have hs₁ : Wired s₁ := hid.readOp hop
      subst hs₂
      exact (hs₁.setScratch ret out).answer hr
  | @updateThrew m update e s₁ hm hupdate hop =>
      exact hpeer.updateOp hop
  | @deferred m update expire s₁ hm hupdate hop =>
      have hs₁ : Wired s₁ := hpeer.updateOp hop
      rw [emplaceDefer_eq]
      exact hs₁.of_tables rfl rfl rfl rfl rfl
  | @updated m update ret expire s₁ r hm hupdate hret hop hr =>
      have hs₁ : Wired s₁ := hpeer.updateOp hop
      exact hs₁.answer hr

/-- A callback keeps the timers in order. -/
theorem Wired.runTimer (h : Wired s) {call : TimerCall Nat} {r : Option Thrown × Server}
    (hr : RunTimer env (serverHooks env fails) s call r) :
    Wired r.2 ∧ (r.1 = none → ∀ ptr, call = .foreign ptr →
      ∀ opId, r.2.mem.outer.map opId ≠ some ptr) := by
  refine ⟨⟨h.armed.runTimer serverHooks_benign hr, ?_⟩, ?_⟩
  · have hkeeps := hr.keeps serverHooks_benign h.armed
    cases hr with
    | absent howner he => exact h.acks
    | idled he => exact h.acks
    | @completed cacheId e f s₁ p' r he hs hf hp hinv =>
        have houter : AckOk p'.rt.queue p'.outer.mem := by
          subst hp
          exact h.acks.of_tables rfl rfl rfl fun t ht ho _ =>
            guarantee_keeps h.armed (h.armed.managers cacheId e he) t ht ho
        have hup : UpdateHandle env fails f .kOperationOk e.state.opId s₁.1.expireTime p'.outer r :=
          .of_invoke hinv
        exact houter.updateHandle hup
    | noCall he hf => exact h.acks.of_tables rfl rfl rfl fun t ht ho _ => hkeeps t ht ho
    | unbound he hcall => exact h.acks.of_tables rfl rfl rfl fun t ht ho _ => hkeeps t ht ho
    | @foreign ptr r hinv =>
        rw [hinv]
        exact (AckOk.timerHandle (s := s.outer) h.acks (timerHandle_spec _ _)).1
  · intro hnone ptr hcall
    subst hcall
    cases hr with
    | absent howner he => cases howner
    | @foreign ptr r hinv =>
        rw [hinv] at hnone ⊢
        exact (AckOk.timerHandle (s := s.outer) h.acks (timerHandle_spec _ _)).2 hnone

/-- **An iteration of `tick` keeps the timers in order.** -/
theorem Wired.tickIter (h : Wired s) {r : Iter Server}
    (hr : TickIter env (CacheSystem.runTimer env (serverHooks env fails)) s r) :
    Wired r.state := by
  have harmed := h.armed.tickIter serverHooks_benign hr
  have hlocked : Wired ({ s with rt := s.rt.readClock.lock } : Server) :=
    ⟨h.armed, h.acks⟩
  cases hr with
  | empty hq => exact h
  | notDue hq hdue => exact ⟨h.armed, h.acks⟩
  | @dead t rest q hq hdue h0 hperm =>
      refine ⟨harmed, h.acks.of_tables rfl rfl rfl fun t' ht' _ hlive => ?_⟩
      rw [hq] at ht'
      rcases List.mem_cons.mp ht' with rfl | ht'
      · exact absurd h0 hlive
      · exact hperm.mem_iff.mpr ht'
  | @threw t rest e p₁ hq hdue h0 hrun =>
      have hw := (hlocked.runTimer (.of_eq hrun)).1
      exact ⟨hw.armed, hw.acks⟩
  | @fired t rest p₁ hq hdue h0 hrun =>
      have hspec := RunTimer.of_eq hrun
      have hw := hlocked.runTimer hspec
      obtain ⟨rest₁, hq₁⟩ := hspec.front serverHooks_benign h.armed hq hdue
      refine ⟨harmed, fun opId ptr hentry => ?_, hw.1.acks.fresh⟩
      obtain ⟨ack, hack, hlive, hid, t', ht', hrest⟩ := hw.1.acks.entry opId ptr hentry
      -- the timer that fired has no entry, so that of this entry was behind it
      have hne : t' ≠ t := by
        rintro rfl
        exact hw.2 rfl ptr hrest.2.1 opId hentry
      rw [hq₁] at ht'
      exact ⟨ack, hack, hlive, hid, t',
        mem_settled_of_mem env hq₁ ((List.mem_cons.mp ht').resolve_left hne), hrest⟩

/-- What `main` catches changes nothing that matters here. -/
theorem Wired.catch {r : Option Thrown × Server} (h : Wired r.2) : Wired (Server.catch r) := by
  unfold Server.catch
  split
  · exact h
  · exact h.of_tables rfl rfl rfl rfl rfl

/-- **A turn of the server leaves the timers in order.** -/
theorem Wired.step (h : Wired s) {op : ServerOp} (hstep : s.step env fails op = some s') :
    Wired s' := by
  cases op with
  | receive sender data =>
      cases hstep
      exact Wired.catch (h.onReceive (onReceive_spec sender data s))
  | tick fuel =>
      obtain ⟨r, hr, rfl⟩ := Option.map_eq_some_iff.mp hstep
      exact Wired.catch (tickLoop_induct Wired (fun _ _ hw hi => hw.tickIter hi) fuel s r.1 r.2
        h hr)

/-- **In every run of the server the timers are in order.** -/
theorem wired_of_reachable {ok : Server → ServerOp → Server → Prop}
    (h : ServerReachable env fails ok s) : Wired s := by
  induction h with
  | initial =>
      exact ⟨armed_nil, fun opId ptr hentry => (nomatch hentry), fun ptr _ => rfl⟩
  | step op _ hstep _ ih => exact ih.step hstep

end CacheSystem

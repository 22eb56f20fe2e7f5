import CacheSystem.Lease
import CacheSystem.Wiring

/-!
# What a turn of the server is to its data center (`protobuf_message_server_impl.h`)

A datagram reaches the data center as one `read_op` or one `update_op`, or not at all, and what comes
after it adds acknowledgement timers; an acknowledgement cancels one of these. What is true of the
data center in every run of the server is shown along `CenterTurn`, without the messages, and along
the iterations of `tick`.

* `Followed` : what follows an operation: elements and history stay, timers of other owners are
  added.
* `OnReceive.centerTurn` : the view of a datagram.
* `Punctual` : the turn finds no element overdue, and no completion of an update throws. In the runs
  of such turns the invariant `Sound` holds (`sound_of_punctual`).
-/

namespace CacheSystem

variable {env : Env} {fails : Nat → Bool} {s s' : Server}

/-! ## Datagrams -/

/-- Elements and history stay, and timers of other owners are added. -/
structure Followed (env : Env) (s s' : Server) : Prop where
  added : AddsForeign env s.rt s'.rt
  map : s'.mem.map = s.mem.map
  trace : s'.mem.trace = s.mem.trace

/-- The data centers are the same. -/
structure SameCenter (s s' : Server) : Prop where
  rt : s'.rt = s.rt
  map : s'.mem.map = s.mem.map
  trace : s'.mem.trace = s.mem.trace

/-- All that a datagram can do to the data center. -/
inductive CenterTurn (env : Env) (sender : Address) (s : Server) :
    Option CacheMessage → Server → Prop
  /-- The data center is left alone. -/
  | aside {data s'} (hsame : SameCenter s s') : CenterTurn env sender s data s'
  /-- A timer of another owner is cancelled. -/
  | cancelled {data s' t} (ht : t ∈ s.rt.queue) (howner : t.callback.owner = none)
      (hrt : s'.rt = delTimer t.timerId s.rt) (hmap : s'.mem.map = s.mem.map)
      (htrace : s'.mem.trace = s.mem.trace) : CenterTurn env sender s data s'
  | read {m read s₀ r s'} (hread : m.readRequest = some read) (hsame : SameCenter s s₀)
      (hop : ReadOp env read.cacheId.toUInt64 m.opId.toUInt32 s₀ r) (hafter : Followed env r.2 s') :
      CenterTurn env sender s (some m) s'
  | update {m update s₀ r s'} (hupdate : m.updateRequest = some update)
      (hsame : SameCenter s s₀)
      (hop : UpdateOp env update.cacheId.toUInt64 update.cacheData m.opId.toUInt32 ⟨m, sender⟩ s₀ r)
      (hafter : Followed env r.2 s') : CenterTurn env sender s (some m) s'

/-- The timer of an entry is one of another owner. -/
theorem AckOk.foreign {q : List (EventTimer (TimerCall Nat))} {mem : ServerMem} (h : AckOk q mem)
    {opId : UInt64} {ptr : Nat} {ack : WaitCacheAck} (hentry : mem.map opId = some ptr)
    (hack : mem.acks ptr = some ack) :
    ∃ t ∈ q, t.timerId = ack.timerId ∧ t.callback.owner = none := by
  obtain ⟨ack', hack', -, -, t, ht, hid, hcall, -⟩ := h.entry opId ptr hentry
  obtain rfl : ack' = ack := Option.some.inj (hack'.symm.trans hack)
  exact ⟨t, ht, hid, by rw [hcall]; rfl⟩

/-- **Taking in a datagram is one turn of the data center at most.** -/
theorem OnReceive.centerTurn {sender : Address} {data : Option CacheMessage}
    {r : Option Thrown × Server} (hw : Wired s) (hr : OnReceive env fails sender s data r) :
    CenterTurn env sender s data r.2 := by
  have hpeer : SameCenter s (s.setPeer sender) := ⟨rfl, rfl, rfl⟩
  cases hr with
  | ignored he => exact .aside hpeer
  | @acked m hm =>
      have hspec := unregisterWaitAck_spec m.opId (s.setPeer sender).outer
      generalize unregisterWaitAck m.opId (s.setPeer sender).outer = q at hspec
      cases hspec with
      | absent hmap => exact .aside ⟨rfl, rfl, rfl⟩
      | lost hmap hack => exact .aside ⟨rfl, rfl, rfl⟩
      | @erased ptr ack hmap hack =>
          obtain ⟨t, ht, hid, howner⟩ := hw.acks.foreign hmap hack
          exact .cancelled ht howner (by rw [hid]; rfl) rfl rfl
  | @read m read ret out s₁ s₂ r hm hread hop hs₂ hr =>
      have hquery : SameCenter s ((s.setPeer sender).setCacheId read.cacheId) := ⟨rfl, rfl, rfl⟩
      refine .read hread hquery hop ?_
      have hadd := hr.addsForeign
      subst hs₂
      rcases out with _ | ⟨expire, value⟩ <;> exact ⟨hadd, rfl, rfl⟩
  | @updateThrew m update e s₁ hm hupdate hop =>
      exact .update hupdate hpeer hop ⟨.refl, rfl, rfl⟩
  | @deferred m update expire s₁ hm hupdate hop =>
      refine .update hupdate hpeer hop ?_
      rw [emplaceDefer_eq]
      exact ⟨.refl, rfl, rfl⟩
  | @updated m update ret expire s₁ r hm hupdate hret hop hr =>
      exact .update hupdate hpeer hop ⟨hr.addsForeign, rfl, rfl⟩

/-! ## Turns that are on time -/

/-- The message finds no element overdue. -/
structure Timely (env : Env) (s : Server) (m : CacheMessage) : Prop where
  read : ∀ read, m.readRequest = some read →
    Prompt env s (.read read.cacheId.toUInt64 m.opId.toUInt32)
  update : ∀ update request, m.updateRequest = some update →
    Prompt env s (.update update.cacheId.toUInt64 update.cacheData m.opId.toUInt32 request)

/-- No completion of an update ends the `tick` with an exception. -/
def CompletionsReturn (env : Env) (fails : Nat → Bool) (s : Server) : Prop :=
  ∀ q e q', Iterates env (runTimer env (serverHooks env fails)) s q →
    tickIter env (runTimer env (serverHooks env fails)) q = .threw e q' →
      ∀ t rest, q.rt.queue = t :: rest → t.callback.owner = none

/-- The turn finds no element overdue, and completes the updates that it completes. -/
def Punctual (env : Env) (fails : Nat → Bool) (s : Server) : ServerOp → Prop
  | .receive _ data => ∀ m, data = some m → Timely env s m
  | .tick _ => CompletionsReturn env fails s

/-- The same data center keeps the same promises. -/
theorem Sound.of_sameCenter (h : Sound env s) (hsame : SameCenter s s') : Sound env s' :=
  h.of_same (by rw [hsame.rt]) (by rw [hsame.rt]) hsame.map

/-- Timers of other owners do not touch the promises. -/
theorem Sound.followed (h : Sound env s) (hafter : Followed env s s') : Sound env s' := by
  have hadd : Sound env (s.withOuter ⟨s'.rt, s'.mem.outer⟩) := h.addsForeign hafter.added
  exact hadd.of_same rfl le_rfl hafter.map

/-- What is asked of an operation does not depend on the memory of the message handlers. -/
theorem Prompt.of_sameCenter {op : Op CacheData Request} (h : Prompt env s op)
    (hsame : SameCenter s s') : Prompt env s' op := by
  cases op with
  | read cacheId opId =>
      intro e he
      rw [hsame.map] at he
      rw [hsame.rt]
      exact h e he
  | update cacheId value opId f =>
      intro e he
      rw [hsame.map] at he
      rw [hsame.rt]
      exact h e he
  | tick fuel => trivial

/-- A datagram that comes in time leaves the promises kept. -/
theorem Sound.centerTurn {sender : Address} {data : Option CacheMessage} (h : Sound env s)
    (harmed : Armed s'.rt.queue s'.mem.map) (htime : ∀ m, data = some m → Timely env s m)
    (hturn : CenterTurn env sender s data s') : Sound env s' := by
  cases hturn with
  | aside hsame => exact h.of_sameCenter hsame
  | @cancelled _ _ t ht howner hrt hmap htrace =>
      refine ⟨harmed, ?_, ?_, ?_⟩
      · rw [hrt, hmap]
        exact h.exclusive.cancelForeign t.timerId
      · rw [hmap]
        exact h.waits
      · rw [hrt, hmap]
        exact h.bounded
  | @read m read s₀ r _ hread hsame hop hafter =>
      have hprompt := ((htime m rfl).read read hread).of_sameCenter hsame
      exact ((h.of_sameCenter hsame).readOp hprompt hop).1.followed hafter
  | @update m update s₀ r _ hupdate hsame hop hafter =>
      have hprompt := ((htime m rfl).update update ⟨m, sender⟩ hupdate).of_sameCenter hsame
      exact ((h.of_sameCenter hsame).updateOp hprompt hop).1.followed hafter

/-! ## Runs -/

/-- What every iteration keeps that does not end with an exception of a completion holds in the end
of a `tick` whose completions return. -/
theorem CompletionsReturn.keeps {P : Server → Prop} (hreturn : CompletionsReturn env fails s)
    (hiter : ∀ q r, P q → TickIter env (runTimer env (serverHooks env fails)) q r →
      OthersThrow q r → P r.state)
    {fuel : Nat} {e : Option Thrown}
    (ht : tickLoop env (runTimer env (serverHooks env fails)) fuel s = some (e, s')) (hs : P s) :
    P s' := by
  have hpassed : ∀ q, Iterates env (runTimer env (serverHooks env fails)) s q → P q := by
    intro q hq
    induction hq with
    | refl => exact hs
    | again _ hagain ih =>
        have hkeeps := hiter _ _ ih (tickIter_spec env _ _)
        rw [hagain] at hkeeps
        exact hkeeps fun e q' heq => nomatch heq
  obtain ⟨q, hq, hlast⟩ := tickLoop_last ht
  have hkeeps := hiter q _ (hpassed q hq) (tickIter_spec env _ q)
  rcases hlast with ⟨hdone, -⟩ | ⟨thrown, hthrew, -⟩
  · rw [hdone] at hkeeps
    exact hkeeps fun e q' heq => nomatch heq
  · rw [hthrew] at hkeeps
    refine hkeeps fun e q' heq t rest hqueue => hreturn q thrown s' hq hthrew t rest hqueue

/-- What `main` catches leaves the data center alone. -/
theorem catch_sameCenter (r : Option Thrown × Server) : SameCenter r.2 (Server.catch r) := by
  unfold Server.catch
  split <;> exact ⟨rfl, rfl, rfl⟩

/-- **A punctual turn keeps the invariant of the data center.** -/
theorem Sound.punctual (h : Sound env s) (hw : Wired s) {op : ServerOp}
    (hpunctual : Punctual env fails s op) (hstep : s.step env fails op = some s') :
    Sound env s' := by
  cases op with
  | receive sender data =>
      cases hstep
      have hr : OnReceive env fails sender s data (CacheSystem.onReceive env fails sender data s) :=
        onReceive_spec sender data s
      exact (h.centerTurn (hw.onReceive hr).armed hpunctual (hr.centerTurn hw)).of_sameCenter
        (catch_sameCenter _)
  | tick fuel =>
      obtain ⟨⟨e, q⟩, ht, rfl⟩ := Option.map_eq_some_iff.mp hstep
      refine Sound.of_sameCenter (s := q) ?_ (catch_sameCenter (e, q))
      exact CompletionsReturn.keeps hpunctual
        (fun q r hq hr hothers => (hq.tickIter serverHooks_benign hr hothers).1) ht h

/-- In every run of punctual turns the data center's invariant holds. -/
theorem sound_of_punctual
    (h : ServerReachable env fails (fun s op _ => Punctual env fails s op) s) : Sound env s := by
  induction h with
  | initial => exact sound_initial ({} : ServerMem)
  | step op hs hstep hpunctual ih => exact ih.punctual (wired_of_reachable hs) hpunctual hstep

end CacheSystem

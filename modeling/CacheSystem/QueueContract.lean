import CacheSystem.Lib.Run
import CacheSystem.QueueOrder

/-!
# The contract of the timer queue

The queue by itself: timers are added, deleted by their ids and run by `tick`, in any order. The
callbacks neither throw nor touch the queue; they may read the clock and change the rest of the
process.

A timer's id is an address, and an address comes back when its timer is gone. So timers are numbered
as they are added, and a history says what happened: it is read by no operation.

* `Ledger` : the history and the queue agree. A timer has as many firings left as its history
  allows, and none once its id was deleted.
* `queueContract` : what holds in every run.
-/

namespace CacheSystem

variable {κ τ : Type}

/-! ## Numbered timers -/

/-- A callback, with the number of the timer it was made for. -/
structure Numbered (κ : Type) where
  number : Nat
  callback : κ

/-- What happened to the queue. -/
inductive QueueEvent
  /-- `add_timer` returned `timerId` for the timer with this number. -/
  | added (number timerId : Nat) (repeat_ : UInt32)
  | deleted (timerId : Nat)
  /-- The callback of the timer with this number ran. -/
  | ran (number : Nat)
  deriving DecidableEq, Repr

/-- The rest of the process, with the history. -/
structure QueueMem (τ : Type) where
  outer : τ
  /-- Timers added so far. -/
  count : Nat := 0
  log : List QueueEvent := []

/-- The queue in its process. -/
abbrev TimerProcess (κ τ : Type) := Proc (Numbered κ) (QueueMem τ)

/-- What callbacks do: given how much of the clock was used and the rest of the process, how many
readings they take and what they leave. -/
abbrev Body (κ τ : Type) := κ → Nat → τ → Nat × τ

/-- A callback runs. -/
def runNumbered (body : Body κ τ) (call : Numbered κ) (p : TimerProcess κ τ) :
    Option Thrown × TimerProcess κ τ :=
  let r := body call.callback p.rt.readings p.mem.outer
  (none, ⟨{ p.rt with readings := p.rt.readings + r.1 },
    { p.mem with outer := r.2, log := p.mem.log ++ [.ran call.number] }⟩)

/-- An operation on the queue. -/
inductive QueueOp (κ : Type)
  | add (callback : κ) (timeoutMs repeat_ : UInt32)
  | del (timerId : Nat)
  /-- A `tick` that ends within `fuel` iterations. -/
  | tick (fuel : Nat)

/-- The state after an operation; `none` for a `tick` that needs more iterations. -/
def TimerProcess.step (env : Env) (body : Body κ τ) (p : TimerProcess κ τ) :
    QueueOp κ → Option (TimerProcess κ τ)
  | .add callback timeoutMs repeat_ =>
      match addTimer env ⟨p.mem.count, callback⟩ timeoutMs repeat_ p.rt with
      | (.error _, rt) => some ⟨rt, p.mem⟩
      | (.ok timerId, rt) => some ⟨rt, { p.mem with
          count := p.mem.count + 1
          log := p.mem.log ++ [.added p.mem.count timerId repeat_] }⟩
  | .del timerId =>
      some ⟨delTimer timerId p.rt, { p.mem with log := p.mem.log ++ [.deleted timerId] }⟩
  | .tick fuel => (tickLoop env (runNumbered body) fuel p).map Prod.snd

/-- The state after a list of operations. -/
def TimerProcess.run (env : Env) (body : Body κ τ) (p : TimerProcess κ τ) :
    List (QueueOp κ) → Option (TimerProcess κ τ)
  | [] => some p
  | op :: ops => (p.step env body op).bind fun p' => TimerProcess.run env body p' ops

/-- An empty queue. -/
def TimerProcess.initial (outer : τ) : TimerProcess κ τ := ⟨{}, { outer := outer }⟩

/-- The states of the runs. -/
inductive QueueReachable (env : Env) (body : Body κ τ) : TimerProcess κ τ → Prop
  | initial (outer : τ) : QueueReachable env body (TimerProcess.initial outer)
  | step {p p' : TimerProcess κ τ} (op : QueueOp κ) : QueueReachable env body p →
      p.step env body op = some p' → QueueReachable env body p'

variable {env : Env} {body : Body κ τ} {p p' : TimerProcess κ τ}

/-- What a run from a reachable state reaches is reachable. -/
theorem QueueReachable.run {ops : List (QueueOp κ)} (h : QueueReachable env body p)
    (hrun : p.run env body ops = some p') : QueueReachable env body p' := by
  have hruns : Lib.Run.IsRun (TimerProcess.step env body) (TimerProcess.run env body) :=
    ⟨fun _ => rfl, fun _ _ _ => rfl⟩
  exact hruns.keeps (fun _ op _ h hstep => .step op h hstep) h hrun

/-- The callbacks of a run leave the queue alone. -/
theorem runNumbered_leavesQueue : LeavesQueue (runNumbered body) := fun _ _ => rfl

/-! ## The history and the queue -/

/-- What was followed by one more event. -/
theorem concat_eq_split {log pre post : List QueueEvent} {x event : QueueEvent}
    (h : log ++ [x] = pre ++ event :: post) :
    (post = [] ∧ x = event ∧ log = pre) ∨
      ∃ post', post = post' ++ [x] ∧ log = pre ++ event :: post' := by
  rcases List.eq_nil_or_concat post with rfl | ⟨post', last, rfl⟩
  · obtain ⟨hlog, hx⟩ := List.append_inj' h rfl
    exact Or.inl ⟨rfl, List.singleton_inj.mp hx, hlog⟩
  · rw [List.concat_eq_append, ← List.cons_append, ← List.append_assoc] at h
    obtain ⟨hlog, hx⟩ := List.append_inj' h rfl
    rw [List.concat_eq_append, List.singleton_inj.mp hx]
    exact Or.inr ⟨post', rfl, hlog⟩

/-- The history and the queue agree. -/
structure Ledger (q : List (EventTimer (Numbered κ))) (count : Nat) (log : List QueueEvent) :
    Prop where
  nodup : (q.map fun t => t.callback.number).Nodup
  entered : ∀ t ∈ q, ∃ repeat_, .added t.callback.number t.timerId repeat_ ∈ log
  added_lt : ∀ {number timerId repeat_}, .added number timerId repeat_ ∈ log → number < count
  ran_lt : ∀ {number}, .ran number ∈ log → number < count
  /-- A number is one timer's. -/
  unique : ∀ {number timerId timerId' repeat_ repeat_'}, .added number timerId repeat_ ∈ log →
    .added number timerId' repeat_' ∈ log → timerId = timerId'
  /-- What ran and what may still run. -/
  ran_le : ∀ {number timerId repeat_}, .added number timerId repeat_ ∈ log →
    log.count (.ran number) ≤ repeat_.toNat
  left_le : ∀ {number timerId repeat_}, .added number timerId repeat_ ∈ log → ∀ t ∈ q,
    t.callback.number = number → log.count (.ran number) + t.repeat_.toNat ≤ repeat_.toNat
  /-- Once its id was deleted a timer neither ran nor will run. -/
  deleted : ∀ {pre post number timerId repeat_}, log = pre ++ .deleted timerId :: post →
    .added number timerId repeat_ ∈ pre →
      .ran number ∉ post ∧ ∀ t ∈ q, t.callback.number = number → t.repeat_ = 0

variable {q q' : List (EventTimer (Numbered κ))} {count : Nat} {log : List QueueEvent}

/-- Timers that leave the queue do not matter. -/
theorem Ledger.of_perm {t : EventTimer (Numbered κ)} {rest : List (EventTimer (Numbered κ))}
    (h : Ledger (t :: rest) count log) (hperm : q'.Perm rest) : Ledger q' count log := by
  have hmem {t'} (ht' : t' ∈ q') : t' ∈ t :: rest :=
    List.mem_cons_of_mem t (hperm.mem_iff.mp ht')
  exact
    { nodup := (hperm.map _).nodup_iff.mpr (List.nodup_cons.mp h.nodup).2
      entered := fun t' ht' => h.entered t' (hmem ht')
      added_lt := h.added_lt
      ran_lt := h.ran_lt
      unique := h.unique
      ran_le := h.ran_le
      left_le := fun hadded t' ht' => h.left_le hadded t' (hmem ht')
      deleted := fun hlog hadded =>
        (h.deleted hlog hadded).imp_right fun hdead t' ht' => hdead t' (hmem ht') }

/-- **A timer is added.** -/
theorem Ledger.add (h : Ledger q count log) {t : EventTimer (Numbered κ)}
    (hnumber : t.callback.number = count) (hperm : q'.Perm (t :: q)) :
    Ledger q' (count + 1) (log ++ [.added count t.timerId t.repeat_]) := by
  have hfresh : ∀ {timerId repeat_}, .added count timerId repeat_ ∉ log := fun hmem =>
    absurd (h.added_lt hmem) (lt_irrefl _)
  have hcount : log.count (.ran count) = 0 :=
    List.count_eq_zero.mpr fun hmem => absurd (h.ran_lt hmem) (lt_irrefl _)
  have hne {t'} (ht' : t' ∈ q) : t'.callback.number ≠ count := by
    obtain ⟨repeat_, hadded⟩ := h.entered t' ht'
    exact (h.added_lt hadded).ne
  have hsame (number : Nat) (timerId : Nat) (repeat_ : UInt32) :
      (log ++ [QueueEvent.added count timerId repeat_]).count (.ran number) =
        log.count (.ran number) := by
    simp
  have hold {number timerId : Nat} {repeat_ : UInt32}
      (hmem : .added number timerId repeat_ ∈ log ++ [.added count t.timerId t.repeat_]) :
      .added number timerId repeat_ ∈ log ∨
        (number = count ∧ timerId = t.timerId ∧ repeat_ = t.repeat_) := by
    simpa using hmem
  refine
    { nodup := ?_, entered := ?_, added_lt := ?_, ran_lt := ?_, unique := ?_, ran_le := ?_
      left_le := ?_, deleted := ?_ }
  · refine (hperm.map _).nodup_iff.mpr (List.nodup_cons.mpr ⟨fun hmem => ?_, h.nodup⟩)
    obtain ⟨t', ht', heq⟩ := List.mem_map.mp hmem
    exact hne ht' (heq.trans hnumber)
  · intro t' ht'
    rcases List.mem_cons.mp (hperm.mem_iff.mp ht') with rfl | ht'
    · exact ⟨t'.repeat_, by simp [hnumber]⟩
    · obtain ⟨repeat_, hadded⟩ := h.entered t' ht'
      exact ⟨repeat_, List.mem_append_left _ hadded⟩
  · intro number timerId repeat_ hmem
    rcases hold hmem with hmem | ⟨rfl, -, -⟩
    · exact Nat.lt_succ_of_lt (h.added_lt hmem)
    · exact Nat.lt_succ_self _
  · intro number hmem
    exact Nat.lt_succ_of_lt (h.ran_lt (by simpa using hmem))
  · intro number timerId timerId' repeat_ repeat_' hmem hmem'
    rcases hold hmem with hmem | ⟨rfl, rfl, -⟩ <;> rcases hold hmem' with hmem' | ⟨hn, rfl, -⟩
    · exact h.unique hmem hmem'
    · exact absurd (hn ▸ hmem) hfresh
    · exact absurd hmem' hfresh
    · rfl
  · intro number timerId repeat_ hmem
    rw [hsame]
    rcases hold hmem with hmem | ⟨rfl, -, rfl⟩
    · exact h.ran_le hmem
    · rw [hcount]
      exact Nat.zero_le _
  · intro number timerId repeat_ hmem t' ht' hn
    rw [hsame]
    rcases List.mem_cons.mp (hperm.mem_iff.mp ht') with rfl | ht'
    · rcases hold hmem with hmem | ⟨rfl, -, rfl⟩
      · rw [← hn, hnumber] at hmem
        exact absurd hmem hfresh
      · rw [hcount, Nat.zero_add]
    · rcases hold hmem with hmem | ⟨rfl, -, -⟩
      · exact h.left_le hmem t' ht' hn
      · exact absurd hn (hne ht')
  · intro pre post number timerId repeat_ hlog hadded
    rcases concat_eq_split hlog with ⟨-, hx, -⟩ | ⟨post', rfl, hlog'⟩
    · cases hx
    · obtain ⟨hran, hdead⟩ := h.deleted hlog' hadded
      refine ⟨by simpa using hran, fun t' ht' hn => ?_⟩
      rcases List.mem_cons.mp (hperm.mem_iff.mp ht') with rfl | ht'
      · -- the new timer's number is not in the history
        have hmem : .added number timerId repeat_ ∈ log := by
          rw [hlog']
          exact List.mem_append_left _ hadded
        rw [← hn, hnumber] at hmem
        exact absurd hmem hfresh
      · exact hdead t' ht' hn

/-- A cancelled timer has no firing left. -/
theorem cancel_repeat (timerId : Nat) {κ : Type} (t : EventTimer κ) :
    (t.cancel timerId).repeat_ = if t.timerId = timerId then 0 else t.repeat_ := by
  unfold EventTimer.cancel
  split <;> rfl

/-- **An id is deleted.** -/
theorem Ledger.delete (h : Ledger q count log) (timerId : Nat) :
    Ledger (q.map (EventTimer.cancel timerId)) count (log ++ [.deleted timerId]) := by
  have hnumbers : (q.map (EventTimer.cancel timerId)).map (fun t => t.callback.number) =
      q.map fun t => t.callback.number := by
    rw [List.map_map]
    exact List.map_congr_left fun t _ => congrArg Numbered.number (cancel_callback timerId t)
  have hold {number timerId' : Nat} {repeat_ : UInt32}
      (hmem : .added number timerId' repeat_ ∈ log ++ [.deleted timerId]) :
      .added number timerId' repeat_ ∈ log := by
    simpa using hmem
  have hsame (number : Nat) :
      (log ++ [QueueEvent.deleted timerId]).count (.ran number) = log.count (.ran number) := by
    simp
  refine
    { nodup := ?_, entered := ?_, added_lt := ?_, ran_lt := ?_, unique := ?_, ran_le := ?_
      left_le := ?_, deleted := ?_ }
  · rw [hnumbers]
    exact h.nodup
  · intro t' ht'
    obtain ⟨t, ht, rfl⟩ := List.mem_map.mp ht'
    obtain ⟨repeat_, hadded⟩ := h.entered t ht
    rw [cancel_callback, cancel_timerId]
    exact ⟨repeat_, List.mem_append_left _ hadded⟩
  · exact fun hmem => h.added_lt (hold hmem)
  · exact fun hmem => h.ran_lt (by simpa using hmem)
  · exact fun hmem hmem' => h.unique (hold hmem) (hold hmem')
  · intro number timerId' repeat_ hmem
    rw [hsame]
    exact h.ran_le (hold hmem)
  · intro number timerId' repeat_ hmem t' ht' hn
    obtain ⟨t, ht, rfl⟩ := List.mem_map.mp ht'
    rw [cancel_callback] at hn
    have hle := h.left_le (hold hmem) t ht hn
    rw [hsame, cancel_repeat]
    split
    · have h0 : (0 : UInt32).toNat = 0 := rfl
      omega
    · exact hle
  · intro pre post number timerId' repeat_ hlog hadded
    rcases concat_eq_split hlog with ⟨rfl, hx, rfl⟩ | ⟨post', rfl, hlog'⟩
    · -- the deletion is this one: a timer with the number has the id
      cases hx
      refine ⟨List.not_mem_nil, fun t' ht' hn => ?_⟩
      obtain ⟨t, ht, rfl⟩ := List.mem_map.mp ht'
      rw [cancel_callback] at hn
      obtain ⟨repeat_', hentered⟩ := h.entered t ht
      rw [hn] at hentered
      rw [cancel_repeat, if_pos (h.unique hentered hadded)]
    · obtain ⟨hran, hdead⟩ := h.deleted hlog' hadded
      refine ⟨by simpa using hran, fun t' ht' hn => ?_⟩
      obtain ⟨t, ht, rfl⟩ := List.mem_map.mp ht'
      rw [cancel_callback] at hn
      rw [cancel_repeat, hdead t ht hn]
      split <;> rfl

/-- **A callback ran**: the front has a firing less, or is gone. -/
theorem Ledger.ran {t : EventTimer (Numbered κ)} {rest : List (EventTimer (Numbered κ))}
    (h : Ledger (t :: rest) count log) (hlive : t.repeat_ ≠ 0)
    (hq : q'.Perm rest ∨ ∃ expireTime, q'.Perm (t.rearmed expireTime :: rest)) :
    Ledger q' count (log ++ [.ran t.callback.number]) := by
  obtain ⟨hnotin, hnodup⟩ := List.nodup_cons.mp h.nodup
  have hne {t'} (ht' : t' ∈ rest) : t'.callback.number ≠ t.callback.number := fun heq =>
    hnotin (List.mem_map.mpr ⟨t', ht', heq⟩)
  have hmem {t'} (ht' : t' ∈ q') : t' ∈ rest ∨ ∃ expireTime, t' = t.rearmed expireTime := by
    rcases hq with hperm | ⟨expireTime, hperm⟩
    · exact Or.inl (hperm.mem_iff.mp ht')
    · rcases List.mem_cons.mp (hperm.mem_iff.mp ht') with heq | ht'
      · exact Or.inr ⟨expireTime, heq⟩
      · exact Or.inl ht'
  have hold {number timerId : Nat} {repeat_ : UInt32}
      (hadded : .added number timerId repeat_ ∈ log ++ [.ran t.callback.number]) :
      .added number timerId repeat_ ∈ log := by
    simpa using hadded
  have hother {number : Nat} (hn : number ≠ t.callback.number) :
      (log ++ [QueueEvent.ran t.callback.number]).count (.ran number) =
        log.count (.ran number) := by
    simp [Ne.symm hn]
  have hone : (log ++ [QueueEvent.ran t.callback.number]).count (.ran t.callback.number) =
      log.count (.ran t.callback.number) + 1 := by
    simp
  have hrearmed := rearmed_repeat hlive
  obtain ⟨repeat_, hentered⟩ := h.entered t List.mem_cons_self
  refine
    { nodup := ?_, entered := ?_, added_lt := ?_, ran_lt := ?_, unique := ?_, ran_le := ?_
      left_le := ?_, deleted := ?_ }
  · rcases hq with hperm | ⟨expireTime, hperm⟩
    · exact (hperm.map _).nodup_iff.mpr hnodup
    · exact (hperm.map _).nodup_iff.mpr h.nodup
  · intro t' ht'
    rcases hmem ht' with ht' | ⟨expireTime, rfl⟩
    · obtain ⟨repeat_', hadded⟩ := h.entered t' (List.mem_cons_of_mem t ht')
      exact ⟨repeat_', List.mem_append_left _ hadded⟩
    · exact ⟨repeat_, List.mem_append_left _ hentered⟩
  · exact fun hadded => h.added_lt (hold hadded)
  · intro number hran
    rcases List.mem_append.mp hran with hran | hran
    · exact h.ran_lt hran
    · cases List.mem_singleton.mp hran
      exact h.added_lt hentered
  · exact fun hadded hadded' => h.unique (hold hadded) (hold hadded')
  · intro number timerId repeat_' hadded
    by_cases hn : number = t.callback.number
    · subst hn
      have hleft := h.left_le (hold hadded) t List.mem_cons_self rfl
      have hless := hrearmed 0
      omega
    · rw [hother hn]
      exact h.ran_le (hold hadded)
  · intro number timerId repeat_' hadded t' ht' hn
    rcases hmem ht' with ht' | ⟨expireTime, rfl⟩
    · rw [hother (hn ▸ hne ht')]
      exact h.left_le (hold hadded) t' (List.mem_cons_of_mem t ht') hn
    · obtain rfl : t.callback.number = number := hn
      have hleft := h.left_le (hold hadded) t List.mem_cons_self rfl
      have hless := hrearmed expireTime
      omega
  · intro pre post number timerId repeat_' hlog hadded
    rcases concat_eq_split hlog with ⟨-, hx, -⟩ | ⟨post', rfl, hlog'⟩
    · cases hx
    · obtain ⟨hran, hdead⟩ := h.deleted hlog' hadded
      -- the front was live, so its id was not deleted
      have hn : number ≠ t.callback.number := fun hn =>
        hlive (hdead t List.mem_cons_self hn.symm)
      refine ⟨by simp [hran, hn], fun t' ht' hn' => ?_⟩
      rcases hmem ht' with ht' | ⟨expireTime, rfl⟩
      · exact hdead t' (List.mem_cons_of_mem t ht') hn'
      · exact absurd hn'.symm hn

/-! ## Runs -/

/-- The queue is a heap, and agrees with its history. -/
structure TimerProcess.Sound (p : TimerProcess κ τ) : Prop where
  heap : MinHeap p.rt.queue
  ledger : Ledger p.rt.queue p.mem.count p.mem.log

/-- **An iteration of `tick`** runs no callback, or that of a timer that is due. -/
theorem runNumbered_tickIter {r : Iter (TimerProcess κ τ)}
    (hi : TickIter env (runNumbered body) p r) :
    r.state.mem.log = p.mem.log ∨
      ∃ t ∈ p.rt.queue, t.repeat_ ≠ 0 ∧ t.expireTime ≤ p.rt.now env ∧
        r.state.mem.log = p.mem.log ++ [.ran t.callback.number] := by
  cases hi with
  | empty hq => exact Or.inl rfl
  | notDue hq hdue => exact Or.inl rfl
  | dead hq hdue h0 hperm => exact Or.inl rfl
  | threw hq hdue h0 hrun => cases hrun
  | @fired t rest p₁ hq hdue h0 hrun =>
      cases hrun
      refine Or.inr ⟨t, ?_, h0, hdue, rfl⟩
      rw [hq]
      exact List.mem_cons_self

/-- **An iteration keeps the heap and the history in order.** -/
theorem TimerProcess.Sound.tickIter (env : Env) (body : Body κ τ) (h : p.Sound) :
    TimerProcess.Sound (tickIter env (runNumbered body) p).state := by
  refine ⟨h.heap.tickIter env runNumbered_leavesQueue.keepsHeap, ?_⟩
  have hi := tickIter_spec env (runNumbered body) p
  generalize CacheSystem.tickIter env (runNumbered body) p = r at hi ⊢
  cases hi with
  | empty hq => exact h.ledger
  | notDue hq hdue => exact h.ledger
  | @dead t rest q hq hdue h0 hperm =>
      have hledger := h.ledger
      rw [hq] at hledger
      exact hledger.of_perm hperm
  | threw hq hdue h0 hrun => cases hrun
  | @fired t rest p₁ hq hdue h0 hrun =>
      have hledger := h.ledger
      rw [hq] at hledger
      have hq₁ : p₁.rt.queue = t :: rest := (runNumbered_leavesQueue.ran hrun).trans hq
      have hmem : p₁.mem.count = p.mem.count ∧
          p₁.mem.log = p.mem.log ++ [.ran t.callback.number] := by
        cases hrun
        exact ⟨rfl, rfl⟩
      change Ledger (settleFront env (decrementFront p₁.rt)).queue p₁.mem.count p₁.mem.log
      rw [hmem.1, hmem.2]
      rcases settleFront_decrementFront env hq₁ with ⟨-, q, hperm, hs⟩ | ⟨-, q, hperm, hs⟩
      · rw [hs]
        exact hledger.ran h0 (Or.inl hperm)
      · rw [hs]
        exact hledger.ran h0 (Or.inr ⟨_, hperm⟩)

/-- Callbacks that do not throw make a `tick` that does not. -/
theorem runNumbered_returns {fuel : Nat} {e : Option Thrown}
    (h : tickLoop env (runNumbered body) fuel p = some (e, p')) : e = none := by
  obtain ⟨q, -, ⟨-, hnone⟩ | ⟨thrown, heq, -⟩⟩ := tickLoop_last h
  · exact hnone
  · have hspec := tickIter_spec env (runNumbered body) q
    rw [heq] at hspec
    cases hspec with
    | threw hq hdue h0 hrun => cases hrun

/-- **An operation keeps the heap and the history in order.** -/
theorem TimerProcess.Sound.step (h : p.Sound) {op : QueueOp κ}
    (hstep : p.step env body op = some p') : p'.Sound := by
  cases op with
  | add callback timeoutMs repeat_ =>
      by_cases h0 : repeat_ = 0
      · rw [TimerProcess.step, addTimer, if_pos h0] at hstep
        cases hstep
        exact h
      · rw [TimerProcess.step, addTimer_of_ne_zero h0] at hstep
        cases hstep
        exact ⟨h.heap.pushTimer _ timeoutMs repeat_,
          h.ledger.add (t := newTimer env ⟨p.mem.count, callback⟩ timeoutMs repeat_ p.rt) rfl
            (pushTimer_queue_perm env _ timeoutMs repeat_ p.rt)⟩
  | del timerId =>
      cases hstep
      exact ⟨h.heap.delTimer timerId, h.ledger.delete timerId⟩
  | tick fuel =>
      obtain ⟨⟨e, p₁⟩, hr, rfl⟩ := Option.map_eq_some_iff.mp hstep
      exact tickLoop_keeps (P := TimerProcess.Sound) (fun _ hp => hp.tickIter env body) hr h

/-- The empty queue agrees with the empty history. -/
theorem TimerProcess.Sound.initial (outer : τ) :
    (TimerProcess.initial outer : TimerProcess κ τ).Sound where
  heap := minHeap_nil
  ledger :=
    { nodup := List.nodup_nil
      entered := fun _ h => nomatch h
      added_lt := fun h => nomatch h
      ran_lt := fun h => nomatch h
      unique := fun h => nomatch h
      ran_le := fun h => nomatch h
      left_le := fun h => nomatch h
      deleted := by
        intro pre post number timerId repeat_ hlog
        simp [TimerProcess.initial] at hlog }

/-- **In every run the queue is a heap and agrees with its history.** -/
theorem QueueReachable.sound (h : QueueReachable env body p) : p.Sound := by
  induction h with
  | initial outer => exact .initial outer
  | step op _ hstep ih => exact ih.step hstep

/-! ## The contract -/

/-- What is said about the queue in a state `p`. -/
structure TimerProcess.Contract (env : Env) (body : Body κ τ) (p : TimerProcess κ τ) : Prop where
  /-- The vector is a min-heap. -/
  heap : MinHeap p.rt.queue
  /-- A `tick` ends, and does not throw. -/
  ends : ∃ fuel p', tickLoop env (runNumbered body) fuel p = some (none, p')
  /-- When it returns, every timer left expires later than its last reading. -/
  returned : ∀ fuel e p', tickLoop env (runNumbered body) fuel p = some (e, p') →
    ∀ t ∈ p'.rt.queue, env.reading (p'.rt.readings - 1) < t.expireTime
  /-- An iteration of it runs no callback, or that of a timer whose `expire_time_` is not after the
  reading. -/
  due : ∀ q, Iterates env (runNumbered body) p q →
    (tickIter env (runNumbered body) q).state.mem.log = q.mem.log ∨
      ∃ t ∈ q.rt.queue, t.expireTime ≤ q.rt.now env ∧
        (tickIter env (runNumbered body) q).state.mem.log =
          q.mem.log ++ [.ran t.callback.number]
  /-- A timer ran at most as often as it was added for. -/
  ran_le : ∀ number timerId repeat_, .added number timerId repeat_ ∈ p.mem.log →
    p.mem.log.count (.ran number) ≤ repeat_.toNat
  /-- A timer did not run after its id was deleted. -/
  deleted : ∀ pre post number timerId repeat_, p.mem.log = pre ++ .deleted timerId :: post →
    .added number timerId repeat_ ∈ pre → .ran number ∉ post

/-- **The contract of the timer queue** holds in every run, whatever the timeouts, the clock, the
addresses and the callbacks. -/
theorem queueContract (env : Env) (body : Body κ τ) :
    ∀ p, QueueReachable env body p → p.Contract env body := by
  intro p hreach
  have hp := hreach.sound
  have hleaves : LeavesQueue (runNumbered body) := runNumbered_leavesQueue
  exact
    { heap := hp.heap
      ends := by
        obtain ⟨⟨e, p'⟩, hr⟩ := tickLoop_terminates env hleaves p
        rw [runNumbered_returns hr] at hr
        exact ⟨_, p', hr⟩
      returned := by
        intro fuel e p' hr
        rw [runNumbered_returns hr] at hr
        exact tickLoop_returned hleaves.keepsHeap hp.heap hr
      due := by
        intro q _
        rcases runNumbered_tickIter (tickIter_spec env (runNumbered body) q) with
          hlog | ⟨t, ht, -, hdue, hlog⟩
        · exact Or.inl hlog
        · exact Or.inr ⟨t, ht, hdue, hlog⟩
      ran_le := fun number timerId repeat_ hadded => hp.ledger.ran_le hadded
      deleted := fun pre post number timerId repeat_ hlog hadded =>
        (hp.ledger.deleted hlog hadded).1 }

/-- A timer without a delay fires all its times in one `tick`, as a case of `queueContract`; another
one is deleted before it is due. -/
theorem queueContract_zero : ∃ p : TimerProcess Unit Unit,
    (TimerProcess.initial () : TimerProcess Unit Unit).run stillClock (fun _ _ _ => (0, ()))
      [.add () 0 3, .add () 5 1, .tick 4, .del 2] = some p ∧
    p.mem.log = [.added 0 1 3, .added 1 2 1, .ran 0, .ran 0, .ran 0, .deleted 2] ∧
    p.Contract stillClock fun _ _ _ => (0, ()) := by
  obtain ⟨p, hrun, hlog⟩ : ∃ p : TimerProcess Unit Unit,
      (TimerProcess.initial () : TimerProcess Unit Unit).run stillClock (fun _ _ _ => (0, ()))
        [.add () 0 3, .add () 5 1, .tick 4, .del 2] = some p ∧
      p.mem.log = [.added 0 1 3, .added 1 2 1, .ran 0, .ran 0, .ran 0, .deleted 2] :=
    ⟨_, rfl, by decide⟩
  exact ⟨p, hrun, hlog, queueContract stillClock _ p (QueueReachable.run (.initial ()) hrun)⟩

end CacheSystem

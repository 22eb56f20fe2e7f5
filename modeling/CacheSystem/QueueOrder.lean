import CacheSystem.Lib.HeapOrder
import CacheSystem.TimerQueue

/-!
# The order of the timer queue

The vector is a min-heap on `expire_time_`, and every operation keeps it one. `tick` re-arms the
timer in slot 0 in place and hands the vector to `pop_heap` as it is: that is no heap any more, but
`pop_heap` takes the front out without looking at it.

* `MinHeap` : no timer expires before its parent; the front expires first (`MinHeap.front`).
* `MinHeap.tickIter` : whatever the callbacks do, as long as they keep the order themselves.
* `tickLoop_returned` : a `tick` that returns leaves only timers that expire after its last reading.
* `tickLoop_terminates` : with callbacks that leave the queue alone `tick` ends, whatever the
  timeouts, since every iteration uses up a firing or removes a timer.
-/

namespace CacheSystem

open CacheSystem.Lib.Heap

variable {κ τ : Type} {env : Env}

/-! ## The heap -/

/-- No timer expires before its parent. -/
def MinHeap (q : List (EventTimer κ)) : Prop :=
  ∀ i parent child, q[(i - 1) / 2]? = some parent → q[i]? = some child →
    parent.expireTime ≤ child.expireTime

variable {q q' : List (EventTimer κ)} {rt : Runtime κ}

/-- `timer_compare` orders by the due time, the earliest on top. -/
theorem timerCompare_eq_false {t₁ t₂ : EventTimer κ} :
    timerCompare t₁ t₂ = false ↔ t₁.expireTime ≤ t₂.expireTime := by
  simp [timerCompare]

/-- `TimerCompare` meets the requirements of a `Compare`. -/
theorem timerCompare_compare : Compare (timerCompare (κ := κ)) where
  asymm h := by
    have h' := of_decide_eq_true h
    exact timerCompare_eq_false.mpr h'.le
  trans h h' := by
    have h₁ := timerCompare_eq_false.mp h
    have h₂ := timerCompare_eq_false.mp h'
    exact timerCompare_eq_false.mpr (h₁.trans h₂)

/-- The queue is a heap of `timer_compare`. -/
theorem minHeap_iff : MinHeap q ↔ IsHeap timerCompare q := by
  constructor
  · intro h i _ parent child hparent hchild
    exact timerCompare_eq_false.mpr (h i parent child hparent hchild)
  · intro h i parent child hparent hchild
    rcases Nat.eq_zero_or_pos i with rfl | hi
    · rw [hparent] at hchild
      cases hchild
      exact le_rfl
    · exact timerCompare_eq_false.mp (h i hi parent child hparent hchild)

/-- The front expires first. -/
theorem MinHeap.front (h : MinHeap q) {t : EventTimer κ} (ht : q.head? = some t) :
    ∀ t' ∈ q, t.expireTime ≤ t'.expireTime := by
  intro t' ht'
  exact timerCompare_eq_false.mp ((minHeap_iff.mp h).front timerCompare_compare ht t' ht')

/-- Only the expire times count. -/
theorem MinHeap.of_expireTimes (h : MinHeap q)
    (he : q'.map EventTimer.expireTime = q.map EventTimer.expireTime) : MinHeap q' := by
  have hsame {i : Nat} {t' : EventTimer κ} (ht' : q'[i]? = some t') :
      ∃ t, q[i]? = some t ∧ t.expireTime = t'.expireTime := by
    have hmap : (q.map EventTimer.expireTime)[i]? = some t'.expireTime := by
      rw [← he, List.getElem?_map, ht', Option.map_some]
    rw [List.getElem?_map] at hmap
    exact Option.map_eq_some_iff.mp hmap
  intro i parent' child' hparent' hchild'
  obtain ⟨parent, hparent, heq⟩ := hsame hparent'
  obtain ⟨child, hchild, heq'⟩ := hsame hchild'
  rw [← heq, ← heq']
  exact h i parent child hparent hchild

/-! ## The operations keep it -/

/-- The empty queue is a heap. -/
theorem minHeap_nil : MinHeap ([] : List (EventTimer κ)) := by
  intro i parent child hparent
  cases hparent

/-- Adding a timer keeps the heap. -/
theorem MinHeap.pushTimer (h : MinHeap rt.queue) (callback : κ) (timeoutMs repeat_ : UInt32) :
    MinHeap (pushTimer env callback timeoutMs repeat_ rt).2.queue :=
  minHeap_iff.mpr (pushHeap_isHeap timerCompare_compare (minHeap_iff.mp h) _)

/-- Cancelling a timer leaves its due time. -/
theorem cancel_expireTime (timerId : Nat) (t : EventTimer κ) :
    (t.cancel timerId).expireTime = t.expireTime := by
  unfold EventTimer.cancel
  split <;> rfl

/-- Cancelling a timer keeps the heap. -/
theorem MinHeap.delTimer (h : MinHeap rt.queue) (timerId : Nat) :
    MinHeap (delTimer timerId rt).queue := by
  apply h.of_expireTimes
  rw [delTimer_queue, List.map_map]
  exact List.map_congr_left fun t _ => cancel_expireTime timerId t

/-- Counting a firing keeps the heap. -/
theorem MinHeap.decrementFront (h : MinHeap rt.queue) : MinHeap (decrementFront rt).queue := by
  unfold CacheSystem.decrementFront
  split
  · exact h
  · rename_i t rest hq
    apply h.of_expireTimes
    rw [hq, List.map_cons, List.map_cons]

/-- **The end of an iteration keeps the heap**: slot 0 is removed, or it is changed in place, taken
out and put back. -/
theorem MinHeap.settleFront (h : MinHeap rt.queue) : MinHeap (settleFront env rt).queue := by
  unfold CacheSystem.settleFront
  split
  · exact h
  · rename_i t rest hq
    rw [hq] at h
    have hheap := minHeap_iff.mp h
    split
    · obtain ⟨l, hl, -, hpopped⟩ := popHeap_isHeap timerCompare_compare (hheap.downOrder_front t)
      simp only [hq, hl, List.dropLast_concat]
      exact minHeap_iff.mpr hpopped
    · obtain ⟨l, hl, -, hpopped⟩ := popHeap_isHeap timerCompare_compare
        (hheap.downOrder_front { t with expireTime := (getTimeStamp env t.timeoutMs rt).1 })
      simp only [hl]
      exact minHeap_iff.mpr (pushHeap_isHeap timerCompare_compare hpopped _)

/-- Callbacks that keep the order of the queue. -/
def KeepsHeap (run : κ → Proc κ τ → Option Thrown × Proc κ τ) : Prop :=
  ∀ callback p, MinHeap p.rt.queue → MinHeap (run callback p).2.rt.queue

variable {run : κ → Proc κ τ → Option Thrown × Proc κ τ} {p p' : Proc κ τ}

/-- **An iteration of `tick` keeps the heap.** -/
theorem MinHeap.tickIter (env : Env) (hrun : KeepsHeap run) (h : MinHeap p.rt.queue) :
    MinHeap (tickIter env run p).state.rt.queue := by
  unfold CacheSystem.tickIter
  split
  · exact h
  · rename_i t rest hq
    split
    · exact h
    · dsimp only
      split
      · have hlocked : MinHeap p.rt.readClock.lock.queue := h
        exact hlocked.settleFront
      · have hran := hrun t.callback { p with rt := p.rt.readClock.lock } h
        split
        · rename_i e p₁ heq
          rw [heq] at hran
          exact hran
        · rename_i p₁ heq
          rw [heq] at hran
          exact hran.decrementFront.settleFront

/-- **What a `tick` leaves**: when it returns, every timer expires after its last reading. -/
theorem tickLoop_returned (hrun : KeepsHeap run) {fuel : Nat} (h : MinHeap p.rt.queue)
    (ht : tickLoop env run fuel p = some (none, p')) :
    ∀ t ∈ p'.rt.queue, env.reading (p'.rt.readings - 1) < t.expireTime := by
  obtain ⟨q, hq, ⟨heq, -⟩ | ⟨thrown, -, hthrown⟩⟩ := tickLoop_last ht
  · have hheap : MinHeap q.rt.queue := hq.keeps (P := fun q => MinHeap q.rt.queue)
      (fun _ hq => hq.tickIter env hrun) h
    have hspec := tickIter_spec env run q
    rw [heq] at hspec
    cases hspec with
    | empty hnil =>
        intro t hmem
        rw [hnil] at hmem
        cases hmem
    | @notDue t rest hcons hdue =>
        intro t' ht'
        have hfront : q.rt.queue.head? = some t := by
          rw [hcons]
          rfl
        exact lt_of_lt_of_le hdue (hheap.front hfront t' ht')
  · cases hthrown

/-! ## Termination -/

/-- Callbacks that leave the queue alone. -/
def LeavesQueue (run : κ → Proc κ τ → Option Thrown × Proc κ τ) : Prop :=
  ∀ callback p, (run callback p).2.rt.queue = p.rt.queue

/-- The queue after a callback that an iteration ran. -/
theorem LeavesQueue.ran (h : LeavesQueue run) {callback : κ} {r : Option Thrown × Proc κ τ}
    (hran : run callback { p with rt := p.rt.readClock.lock } = r) :
    r.2.rt.queue = p.rt.queue := by
  rw [← hran]
  exact h callback _

/-- Callbacks that leave the queue alone keep the heap. -/
theorem LeavesQueue.keepsHeap (h : LeavesQueue run) : KeepsHeap run := by
  intro callback p hheap
  rw [h callback p]
  exact hheap

/-- Firings left in the queue, and removals. -/
def firings (q : List (EventTimer κ)) : Nat := (q.map fun t => t.repeat_.toNat + 1).sum

/-- The order of the queue does not matter to its firings. -/
theorem firings_perm (h : q.Perm q') : firings q = firings q' := (h.map _).sum_eq

/-- A timer counts for its firings and its removal. -/
theorem firings_cons (t : EventTimer κ) (q : List (EventTimer κ)) :
    firings (t :: q) = t.repeat_.toNat + 1 + firings q := by
  simp [firings]

/-- A firing less. -/
theorem rearmed_repeat {t : EventTimer κ} (h : t.repeat_ ≠ 0) (expireTime : Int) :
    (t.rearmed expireTime).repeat_.toNat + 1 = t.repeat_.toNat := by
  have hpos : 1 ≤ t.repeat_.toNat := Nat.one_le_iff_ne_zero.mpr fun h0 => h (UInt32.toNat_inj.mp h0)
  have hle : (1 : UInt32) ≤ t.repeat_ := UInt32.le_iff_toNat_le.mpr hpos
  change (t.repeat_ - 1).toNat + 1 = t.repeat_.toNat
  rw [UInt32.toNat_sub_of_le _ _ hle]
  exact Nat.sub_add_cancel hpos

/-- Every iteration that does not end the loop uses up a firing or removes a timer. -/
theorem firings_lt (hrun : LeavesQueue run) (h : TickIter env run p (.again p')) :
    firings p'.rt.queue < firings p.rt.queue := by
  cases h with
  | @dead t rest q hq hdue h0 hperm =>
      rw [hq, firings_cons]
      change firings q < _
      rw [firings_perm hperm]
      omega
  | @fired t rest p₁ hq hdue h0 hran =>
      have hq₁ : p₁.rt.queue = t :: rest := (hrun.ran hran).trans hq
      rw [hq, firings_cons]
      change firings (settleFront env (decrementFront p₁.rt)).queue < _
      rcases settleFront_decrementFront env hq₁ with ⟨-, q, hperm, hs⟩ | ⟨-, q, hperm, hs⟩
      · rw [hs, firings_perm hperm]
        omega
      · rw [hs, firings_perm hperm, firings_cons]
        have hless := rearmed_repeat h0 (p₁.rt.now env + t.timeoutMs.toNat)
        omega

/-- **`tick` ends**, after at most as many iterations as there are firings and timers. -/
theorem tickLoop_terminates (env : Env) (hrun : LeavesQueue run) (p : Proc κ τ) :
    ∃ r, tickLoop env run (firings p.rt.queue + 1) p = some r := by
  have hfuel : ∀ fuel (p : Proc κ τ), firings p.rt.queue < fuel →
      ∃ r, tickLoop env run fuel p = some r := by
    intro fuel
    induction fuel with
    | zero => exact fun p h => absurd h (Nat.not_lt_zero _)
    | succ fuel ih =>
        intro p hlt
        have hspec := tickIter_spec env run p
        unfold tickLoop
        split
        · exact ⟨_, rfl⟩
        · exact ⟨_, rfl⟩
        · rename_i p₁ heq
          rw [heq] at hspec
          have hless := firings_lt hrun hspec
          exact ih p₁ (by omega)
  exact hfuel _ p (Nat.lt_succ_self _)

end CacheSystem

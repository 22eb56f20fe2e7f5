import CacheSystem.Wiring

/-!
# Retiring an answered request

`unregister_wait_ack` erases the entry of an acknowledged response, reads it, and cancels the timer
it named; `update_handle` erases a deferred message's entry and reads it. In every reachable state
the right entry goes and the right timer is cancelled (`unregister_exact`), but the entry is read
when it is no longer there (`not_retires`): the `ContainerIteratorRaii` that was to erase it at the
end of the scope is a temporary.
-/

namespace CacheSystem

variable {env : Env} {fails : Nat → Bool} {s : Server}

/-- An entry was read that is not in its map. -/
def ServerEvent.DanglingRead : ServerEvent → Prop
  | .ackEntryRead _ live => live = false
  | .deferEntryRead _ live => live = false
  | _ => False

/-- What happens from `q` to `q'` reads entries only while they are in their map. -/
def ReadsLive (q q' : Rest) : Prop :=
  ∀ events, q'.mem.log = q.mem.log ++ events → ∀ event ∈ events, ¬ event.DanglingRead

/-- What is asked of `unregister_wait_ack`: it reads the entry while it is in the map, removes
exactly this entry, and cancels exactly the timer that the entry registered. -/
structure Retires (opId : UInt64) (q : Rest) : Prop where
  live : ReadsLive q (unregisterWaitAck opId q)
  removed : (unregisterWaitAck opId q).mem.map = Function.update q.mem.map opId none
  cancelled : ∃ ptr, q.mem.map opId = some ptr ∧ ∃ t ∈ q.rt.queue,
    t.callback = .foreign ptr ∧ t.repeat_ ≠ 0 ∧ (unregisterWaitAck opId q).rt.queue =
      q.rt.queue.map fun t' => if t' = t then { t' with repeat_ := 0 } else t'

/-- **The right entry goes and the right timer is cancelled.** -/
theorem unregister_exact {ok : Server → ServerOp → Server → Prop}
    (h : ServerReachable env fails ok s) {opId : UInt64} {ptr : Nat}
    (hmap : s.mem.outer.map opId = some ptr) :
    (unregisterWaitAck opId s.outer).mem.map = Function.update s.mem.outer.map opId none ∧
      ∃ t ∈ s.rt.queue, t.callback = .foreign ptr ∧ t.repeat_ ≠ 0 ∧
        (unregisterWaitAck opId s.outer).rt.queue =
          s.rt.queue.map fun t' => if t' = t then { t' with repeat_ := 0 } else t' := by
  have hw := wired_of_reachable h
  obtain ⟨ack, hack, -, -, t, ht, htid, hcall, hrep⟩ := hw.acks.entry opId ptr hmap
  have hspec := unregisterWaitAck_spec opId s.outer
  generalize unregisterWaitAck opId s.outer = r at hspec
  cases hspec with
  | absent hnone =>
      rw [show s.mem.outer.map opId = none from hnone] at hmap
      cases hmap
  | @lost ptr' hmap' hnone =>
      obtain rfl := Option.some.inj (hmap.symm.trans hmap')
      rw [show s.mem.outer.acks ptr = none from hnone] at hack
      cases hack
  | @erased ptr' ack' hmap' hack' =>
      obtain rfl := Option.some.inj (hmap.symm.trans hmap')
      obtain rfl := Option.some.inj (hack.symm.trans hack')
      refine ⟨rfl, t, ht, hcall, by rw [hrep]; decide, ?_⟩
      refine List.map_congr_left fun t' ht' => ?_
      unfold EventTimer.cancel
      by_cases hid : t'.timerId = ack.timerId
      · rw [if_pos hid, if_pos (hw.armed.eq_of_timerId ht' ht (hid.trans htid.symm))]
      · rw [if_neg hid, if_neg]
        rintro rfl
        exact hid htid

/-- `unregister_wait_ack` of an op id that waits reads an entry that is gone. -/
theorem not_readsLive_unregister {opId : UInt64} {q : Rest} (h : q.mem.map opId ≠ none) :
    ¬ ReadsLive q (unregisterWaitAck opId q) := by
  intro hlive
  have hspec := unregisterWaitAck_spec opId q
  generalize unregisterWaitAck opId q = r at hspec hlive
  cases hspec with
  | absent hnone => exact h hnone
  | lost hmap hack => exact hlive [.ackEntryRead opId false] rfl _ List.mem_cons_self rfl
  | erased hmap hack => exact hlive [.ackEntryRead opId false] rfl _ List.mem_cons_self rfl

/-- `update_handle` of an op id that was deferred reads an entry that is gone. -/
theorem not_readsLive_updateHandle {handler : Request} {opId : UInt32} {expire : Int} {q : Rest}
    (h : q.mem.deferMessages opId ≠ none) :
    ¬ ReadsLive q (updateHandle env fails handler .kOperationOk opId expire q).2 := by
  intro hlive
  have hspec : UpdateHandle env fails handler .kOperationOk opId expire q _ :=
    updateHandle_spec handler .kOperationOk opId expire q
  generalize updateHandle env fails handler .kOperationOk opId expire q = r at hspec hlive
  cases hspec with
  | refused hret => exact hret rfl
  | lost hret hnone => exact h hnone
  | answered hret hdefer hr =>
      have hlog : r.2.mem.log = q.mem.log ++
          [.completion handler (q.mem.deferMessages opId), .deferEntryRead opId false] := by
        rw [hr.tables.2.2.1]
        simp [Proc.takeDefer]
      exact hlive _ hlog (.deferEntryRead opId false) (by simp) rfl

/-- What is asked of the two tables, over all runs. -/
def RetiredExactly (env : Env) (fails : Nat → Bool) : Prop :=
  ∀ s, ServerReachable env fails (fun _ _ _ => True) s →
    (∀ opId, s.mem.outer.map opId ≠ none → Retires opId s.outer) ∧
      ∀ handler opId expire, s.mem.outer.deferMessages opId ≠ none →
        ReadsLive s.outer (updateHandle env fails handler .kOperationOk opId expire s.outer).2

/-- **No entry is read while it is in its map**: whatever the state and the op id. -/
theorem not_retires (env : Env) (fails : Nat → Bool) (s : Server) :
    (∀ opId, s.mem.outer.map opId ≠ none → ¬ Retires opId s.outer) ∧
      ∀ handler opId expire, s.mem.outer.deferMessages opId ≠ none →
        ¬ ReadsLive s.outer (updateHandle env fails handler .kOperationOk opId expire s.outer).2 :=
  ⟨fun _ h hr => not_readsLive_unregister h hr.live,
    fun _ _ _ h => not_readsLive_updateHandle h⟩

/-- The entry of the first response, as a case of `not_retires`. -/
theorem not_retires_first : ¬ Retires 11 (Server.first stillClock).outer :=
  (not_retires stillClock (fun _ => false) (Server.first stillClock)).1 11 (by decide)

/-- The acknowledgement of a first response reads an erased entry. -/
theorem not_retiredExactly : ¬ RetiredExactly stillClock fun _ => false := by
  intro h
  have hentry : (Server.first stillClock).mem.outer.map 11 ≠ none := by decide
  have hretires := (h _ (Server.first_reachable stillClock trivial)).1 11 hentry
  exact not_readsLive_unregister hentry hretires.live

end CacheSystem

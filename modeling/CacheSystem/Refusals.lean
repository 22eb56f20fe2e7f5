import CacheSystem.DataCenter
import CacheSystem.Managers

/-!
# Updates that are refused

The lease of a Guaranteed manager ends at `expire_time_`, and its timer makes the manager Idle when
`tick` gets to run. In between `CacheUpdateProtectedState::enter_state` throws.

* `OnTime` : the manager is not Guaranteed, or `timer_delay` will be positive. It is a condition on
  `expire_time_` and the next reading of the clock, modulo `2 ^ 32` as the narrowing has it.
* `neverRefused_iff` : the runs of managers in which no update is refused are those whose updates
  are all on time.
* `leavesNoTrace_iff` : the runs of a data center in which an update that throws changes nothing are
  those whose updates are on time, or have no id, or are told to the manager a second time.
-/

namespace CacheSystem

variable {ι φ F τ κ T H : Type}

/-! ## The exception -/

/-- Source: `cache_state_manager.h`, the exception of `CacheUpdateProtectedState::enter_state`. -/
def timerIsExpire : Thrown := .csn .kErrorSysRoutine "timer is expire,should not run here"

/-- A manager that is Guaranteed still has its lease: what is left of it, taken modulo `2 ^ 32` into
the range of `int32_t`, is positive. -/
def OnTime (env : Env) (s : CacheStateManager φ × Runtime κ) : Prop :=
  s.1.currentState = .kCacheGuaranteed →
    0 < (s.1.expireTime - s.2.now env) % 2 ^ 32 ∧ (s.1.expireTime - s.2.now env) % 2 ^ 32 < 2 ^ 31

/-- The narrowing conversion has a positive result. -/
theorem toInt32_pos_iff (x : Int) : 0 < toInt32 x ↔ 0 < x % 2 ^ 32 ∧ x % 2 ^ 32 < 2 ^ 31 := by
  unfold toInt32
  rw [Int.bmod_def]
  constructor
  · intro h
    split at h <;> omega
  · rintro ⟨h0, hlt⟩
    rw [if_pos (by omega)]
    exact h0

theorem timerDelay_pos_iff (env : Env) (s : CacheStateManager φ × Runtime κ) :
    0 < timerDelay env s ↔ 0 < (s.1.expireTime - s.2.now env) % 2 ^ 32 ∧
      (s.1.expireTime - s.2.now env) % 2 ^ 32 < 2 ^ 31 := by
  have h0 : ((0 : UInt32).toNat : Int) = 0 := rfl
  unfold timerDelay getTimeStamp
  rw [h0, Int.add_zero]
  exact toInt32_pos_iff _

/-- What an `update_op` may return. -/
def Accepted {σ : Type} (r : Except Thrown (OpResult × Int) × σ) : Prop :=
  ∃ result expire, r.1 = .ok (result, expire) ∧
    (result = .kOperationOk ∨ result = .kOperationDefer ∨ result = .kOperationRetry)

/-- **When an update is accepted**: one with an id and a handler, exactly when it is on time. -/
theorem accepted_iff_onTime (env : Env) (closures : Closures κ) {opId : UInt32} (h0 : opId ≠ 0)
    (f : φ) (s : CacheStateManager φ × Runtime κ) :
    Accepted (updateOp env closures opId (some f) s) ↔ OnTime env s := by
  have hgood : ¬ (opId = 0 ∨ (some f).isNone) := by simp [h0]
  rcases hstate : s.1.currentState with _ | _ | _
  · rw [updateOp_idle env closures opId (some f) hstate]
    refine iff_of_true ⟨_, _, rfl, Or.inl rfl⟩ fun h => ?_
    exact nomatch hstate.symm.trans h
  · rcases le_or_gt (timerDelay env s) 0 with hdelay | hdelay
    · rw [updateOp_guaranteed_of_late env closures opId _ hstate hgood hdelay]
      refine iff_of_false ?_ fun h => ?_
      · rintro ⟨result, expire, h, -⟩
        cases h
      · exact absurd ((timerDelay_pos_iff env s).mpr (h hstate)) (not_lt.mpr hdelay)
    · rw [updateOp_guaranteed_of_early env closures opId _ hstate hgood hdelay]
      refine iff_of_true ⟨_, _, rfl, Or.inr (Or.inl rfl)⟩ fun _ => ?_
      exact (timerDelay_pos_iff env s).mp hdelay
  · rw [updateOp_updateProtected env closures opId (some f) hstate, if_neg h0]
    refine iff_of_true ⟨_, _, rfl, Or.inr (Or.inr rfl)⟩ fun h => ?_
    exact nomatch hstate.symm.trans h

/-- An argument that is refused is refused before the state is entered. -/
theorem updateOp_ne_timerIsExpire (env : Env) (closures : Closures κ) {opId : UInt32}
    {f : Option φ} (hbad : opId = 0 ∨ f.isNone) (s : CacheStateManager φ × Runtime κ) :
    (updateOp env closures opId f s).1 ≠ .error timerIsExpire := by
  rcases hstate : s.1.currentState with _ | _ | _
  · rw [updateOp_idle env closures opId f hstate]
    simp
  · rw [updateOp_guaranteed_of_bad env closures opId f hstate hbad]
    simp [timerIsExpire]
  · rw [updateOp_updateProtected env closures opId f hstate]
    split <;> simp [timerIsExpire]

/-! ## Managers -/

section managers

variable [DecidableEq ι]

/-- In the runs whose steps meet `ok`, every update with an id and a handler is accepted, and none
is answered with `timerIsExpire`. -/
def NeverRefused (env : Env) (hooks : ManagerHooks ι φ F τ)
    (ok : Managers ι φ F τ → ManagerOp ι φ F → Prop) : Prop :=
  ∀ p, ManagersReachable env hooks ok p → ∀ i opId f, ok p (.update i opId f) →
    (opId ≠ 0 → f ≠ none → Accepted (p.updateOp env i opId f)) ∧
      (p.updateOp env i opId f).1 ≠ .error timerIsExpire

/-- **No update is refused because of timing** exactly in the runs whose updates, those with an id
and a handler, all find their manager on time. -/
theorem neverRefused_iff (env : Env) (hooks : ManagerHooks ι φ F τ)
    (ok : Managers ι φ F τ → ManagerOp ι φ F → Prop) :
    NeverRefused env hooks ok ↔
      ∀ p, ManagersReachable env hooks ok p → ∀ i opId f, ok p (.update i opId f) →
        opId ≠ 0 → f ≠ none → OnTime env (p.mem.managers i, p.rt) := by
  have hfst (p : Managers ι φ F τ) (i opId f) : (p.updateOp env i opId f).1 =
      (updateOp env (managerOwners.closures i) opId f (p.mem.managers i, p.rt)).1 :=
    answer_fst p i _
  constructor
  · intro h p hreach i opId f hok h0 hf
    obtain ⟨f, rfl⟩ := Option.ne_none_iff_exists'.mp hf
    apply (accepted_iff_onTime env (managerOwners.closures i) h0 f _).mp
    have haccepted := (h p hreach i opId (some f) hok).1 h0 hf
    unfold Accepted at haccepted ⊢
    rwa [hfst] at haccepted
  · intro h p hreach i opId f hok
    have haccepted (h0 : opId ≠ 0) (hf : f ≠ none) : Accepted (p.updateOp env i opId f) := by
      have htime := h p hreach i opId f hok h0 hf
      obtain ⟨f, rfl⟩ := Option.ne_none_iff_exists'.mp hf
      unfold Accepted
      rw [hfst]
      exact (accepted_iff_onTime env (managerOwners.closures i) h0 f _).mpr htime
    refine ⟨haccepted, ?_⟩
    by_cases hbad : opId = 0 ∨ f.isNone
    · rw [hfst]
      exact updateOp_ne_timerIsExpire env (managerOwners.closures i) hbad _
    · obtain ⟨result, expire, hr, -⟩ := haccepted (fun h0 => hbad (Or.inl h0))
        fun hf => hbad (Or.inr (Option.isNone_iff_eq_none.mpr hf))
      rw [hr]
      simp

/-- An update at the end of a lease, before the `tick` that would end it, is refused. -/
theorem not_neverRefused : ¬ NeverRefused (jumpClock 2 10000)
    (ManagerHooks.silent : ManagerHooks Unit Unit Empty Unit) fun _ _ => True := by
  intro h
  obtain ⟨p, hrun, hthrew⟩ : ∃ p : Managers Unit Unit Empty Unit,
      (Managers.initial () : Managers Unit Unit Empty Unit).run (jumpClock 2 10000)
        ManagerHooks.silent [.update () 1 (some ())] = some p ∧
      (p.updateOp (jumpClock 2 10000) () 2 (some ())).1 = .error timerIsExpire :=
    ⟨_, rfl, rfl⟩
  have hreach := ManagersReachable.run (fun _ _ => trivial) (.initial ()) hrun
  exact (h p hreach () 2 (some ()) trivial).2 hthrew

end managers

/-! ## The data center -/

section center

variable [Inhabited T]

/-- An `update_op` that throws leaves every element as it was, and the timer queue. -/
def Center.NoTrace (env : Env) (cacheId : UInt64) (value : T) (opId : UInt32) (f : H)
    (p : Center T H F τ) : Prop :=
  ∀ e p', p.updateOp env cacheId value opId f = (.error e, p') →
    p'.mem = p.mem ∧ p'.rt.queue = p.rt.queue

/-- The element, if there is one, is on time for an operation with an id, or holds already what its
manager is told. -/
def Center.Clear (env : Env) (cacheId : UInt64) (opId : UInt32) (p : Center T H F τ) : Prop :=
  ∀ e, p.mem.map cacheId = some e → opId ≠ 0 →
    OnTime env (e.state, p.rt) ∨ (e.state.opId = opId ∧ e.state.callHandle = some ())

/-- **When an update that throws leaves no trace.** -/
theorem noTrace_iff_clear (env : Env) (cacheId : UInt64) (value : T) (opId : UInt32) (f : H)
    (p : Center T H F τ) : p.NoTrace env cacheId value opId f ↔ p.Clear env cacheId opId := by
  unfold Center.NoTrace
  have hspec := updateOp_spec env cacheId value opId f p
  generalize p.updateOp env cacheId value opId f = r at hspec
  cases hspec with
  | @assigned e s he hstate hs =>
      refine iff_of_true (fun _ _ h => nomatch h) fun e' he' _ => Or.inl fun h => ?_
      rcases he with he | ⟨he, -⟩
      · rw [Option.some.inj (he.symm.trans he'), h] at hstate
        cases hstate
      · exact nomatch he.symm.trans he'
  | refused he hstate h0 =>
      refine iff_of_true (fun _ _ h => ?_) fun _ _ hne => absurd h0 hne
      cases h
      exact ⟨rfl, rfl⟩
  | @overdue e he hstate h0 hdelay =>
      have hlate : ¬ OnTime env (e.state, p.rt) := fun h =>
        absurd ((timerDelay_pos_iff env (e.state, p.rt)).mpr (h hstate)) (not_lt.mpr hdelay)
      constructor
      · intro h e' he' _
        obtain rfl := Option.some.inj (he.symm.trans he')
        -- what is stored under the id after the exception is what was stored before
        have hmap := congrFun (congrArg CenterMem.map (h _ _ rfl).1) cacheId
        simp only [put_map, Function.update_self, he, Option.some.injEq] at hmap
        have hstate' := congrArg CacheElement.state hmap
        exact Or.inr ⟨(congrArg CacheStateManager.opId hstate').symm,
          (congrArg CacheStateManager.callHandle hstate').symm⟩
      · intro h e' p' hr
        cases hr
        rcases h e he h0 with htime | ⟨hop, hcall⟩
        · exact absurd htime hlate
        · have hsame : (e.state.setOpId opId).setCallHandle (some ()) = e.state := by
            rw [← hop, ← hcall]
            rfl
          rw [hsame, Center.put_self he]
          exact ⟨rfl, rfl⟩
  | deferred he hstate h0 hdelay hs =>
      refine iff_of_true (fun _ _ h => nomatch h) fun e' he' _ => Or.inl fun _ => ?_
      rw [← Option.some.inj (he.symm.trans he')]
      exact (timerDelay_pos_iff env _).mp hdelay
  | retried he hstate h0 =>
      refine iff_of_true (fun _ _ h => nomatch h) fun e' he' _ => Or.inl fun h => ?_
      rw [Option.some.inj (he.symm.trans he'), h] at hstate
      cases hstate

/-- In the runs whose steps meet `ok`, every update that throws leaves no trace. -/
def LeavesNoTrace (env : Env) (hooks : Hooks T H F τ) (ok : Center T H F τ → Op T H → Prop) :
    Prop :=
  ∀ p, Reachable env hooks ok p → ∀ cacheId value opId f, ok p (.update cacheId value opId f) →
    p.NoTrace env cacheId value opId f

/-- **Failed updates leave no trace** exactly in the runs whose updates all find their element
clear. -/
theorem leavesNoTrace_iff (env : Env) (hooks : Hooks T H F τ)
    (ok : Center T H F τ → Op T H → Prop) :
    LeavesNoTrace env hooks ok ↔
      ∀ p, Reachable env hooks ok p → ∀ cacheId value opId f,
        ok p (.update cacheId value opId f) → p.Clear env cacheId opId := by
  constructor
  · intro h p hreach cacheId value opId f hok
    exact (noTrace_iff_clear env cacheId value opId f p).mp (h p hreach cacheId value opId f hok)
  · intro h p hreach cacheId value opId f hok
    exact (noTrace_iff_clear env cacheId value opId f p).mpr (h p hreach cacheId value opId f hok)

/-- The update that is refused at the end of a lease leaves its id and its handler in the
manager. -/
theorem not_leavesNoTrace : ¬ LeavesNoTrace (jumpClock 2 10000)
    (Hooks.silent 0 : Hooks Nat Unit Empty Unit) fun _ _ => True := by
  intro h
  obtain ⟨p, p', hrun, hthrew, hold, hnew⟩ : ∃ p p' : Center Nat Unit Empty Unit,
      (Center.initial () : Center Nat Unit Empty Unit).run (jumpClock 2 10000) (Hooks.silent 0)
        [.update 7 1 1 ()] = some p ∧
      p.updateOp (jumpClock 2 10000) 7 2 2 () = (.error timerIsExpire, p') ∧
      (p.mem.map 7).map (fun e => e.state.opId) = some 0 ∧
      (p'.mem.map 7).map (fun e => e.state.opId) = some 2 :=
    ⟨_, _, rfl, rfl, rfl, rfl⟩
  have hreach := Reachable.run (fun _ _ => trivial) (.initial ()) hrun
  rw [(h p hreach 7 2 2 () trivial _ _ hthrew).1, hold] at hnew
  cases hnew

end center

end CacheSystem

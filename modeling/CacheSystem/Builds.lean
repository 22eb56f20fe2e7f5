import CacheSystem.DataCenter
import CacheSystem.Macros
import CacheSystem.TickRuns

/-!
# The two builds (`common.h`)

The operations of the data center and of the timer queue, once more, with every condition that
stands in `unlikely` left to the platform. The Linux build is the program of the other modules
(`Center.updateOpOn_linux`, `tickOn_linux`).

* `CenterStep`, `Observes` : an operation of a build with its result, the timers it runs and the
  state it leaves; and what is seen of a sequence of operations, up to any moment.
* `BuildsAgree` : both builds are seen to do the same.
* `Indifferent` : the operation meets no condition of `unlikely`.
* `buildsAgree_iff` : the builds agree exactly where every operation is indifferent. Wherever such a
  condition is met, they differ.
-/

namespace CacheSystem

variable {κ φ τ : Type}

/-! ## The state manager -/

/-- Source: `cache_state_manager.h`, the `enter_state` of the three states. -/
def enterStateOn (os : Platform) (env : Env) (closures : Closures κ) (state : CacheState)
    (s : CacheStateManager φ × Runtime κ) :
    Except Thrown Unit × (CacheStateManager φ × Runtime κ) :=
  match state with
  | .kCacheIdle => (.ok (), ({ s.1 with timerId := 0, expireTime := 0 }, s.2))
  | .kCacheGuaranteed =>
      (.ok (), startExpire env closures.guaranteed kDefaultExpireMillisecond s)
  | .kCacheUpdateProtected =>
      let now := getTimeStamp env 0 s.2
      let timerDelay := toInt32 (s.1.expireTime - now.1)
      -- `unlikely(timer_delay <= 0)`
      if os.guard [.operand timerDelay, .binary .le, .operand 0] then
        (.error (.csn .kErrorSysRoutine "timer is expire,should not run here"), (s.1, now.2))
      else
        (.ok (), startExpire env closures.updateProtected (UInt32.ofInt timerDelay) (s.1, now.2))

/-- Source: `cache_state_manager.h`, `CacheStateManager::set_cache_state`. -/
def setCacheStateOn (os : Platform) (env : Env) (closures : Closures κ) (state : CacheState)
    (s : CacheStateManager φ × Runtime κ) :
    Except Thrown Unit × (CacheStateManager φ × Runtime κ) :=
  andThen (enterStateOn os env closures state s) fun _ s =>
    (.ok (), ({ s.1 with currentState := state }, s.2))

/-- Source: `cache_state_manager.h`, the `update_op` of the three states. -/
def updateOpOn (os : Platform) (env : Env) (closures : Closures κ) (opId : UInt32) (f : Option φ)
    (s : CacheStateManager φ × Runtime κ) :
    Except Thrown (OpResult × Int) × (CacheStateManager φ × Runtime κ) :=
  match s.1.currentState with
  | .kCacheIdle =>
      andThen (setCacheStateOn os env closures .kCacheGuaranteed s) fun _ s =>
        (.ok (.kOperationOk, s.1.expireTime), s)
  | .kCacheGuaranteed =>
      -- `unlikely(!op_id || !f)`
      if os.guard [.not, .operand opId.toNat, .binary .or, .not, .operand f.isSome.toInt] then
        (.error (.csn .kErrorIllArgument "CacheGuaranteedState update_op with error argument"), s)
      else
        andThen (setCacheStateOn os env closures .kCacheUpdateProtected
          ((s.1.setOpId opId).setCallHandle f, s.2)) fun _ s =>
            (.ok (.kOperationDefer, s.1.expireTime), s)
  | .kCacheUpdateProtected =>
      if opId = 0 then
        (.error (.csn .kErrorIllArgument "CacheUpdateProtectedState update_op with error argument"),
          s)
      else (.ok (.kOperationRetry, s.1.expireTime), s)

/-- Source: `cache_state_manager.h`, the `read_op` of the three states. -/
def readOpOn (os : Platform) (env : Env) (closures : Closures κ) (opId : UInt32)
    (s : CacheStateManager φ × Runtime κ) :
    Except Thrown (OpResult × Int) × (CacheStateManager φ × Runtime κ) :=
  match s.1.currentState with
  | .kCacheIdle =>
      andThen (setCacheStateOn os env closures .kCacheGuaranteed s) fun _ s =>
        (.ok (.kOperationOk, s.1.expireTime), s)
  | .kCacheGuaranteed =>
      andThen (setCacheStateOn os env closures .kCacheGuaranteed (s.1.setOpId opId, s.2))
        fun _ s => (.ok (.kOperationOk, s.1.expireTime), s)
  | .kCacheUpdateProtected =>
      let now := getTimeStamp env 0 s.2
      (.ok (.kOperationOk, now.1), (s.1, now.2))

section manager

variable (os : Platform) (env : Env) (closures : Closures κ) (opId : UInt32) (f : Option φ)
  (s : CacheStateManager φ × Runtime κ)

/-- The Guaranteed state is entered without a condition. -/
theorem setCacheStateOn_guaranteed :
    setCacheStateOn os env closures .kCacheGuaranteed s =
      setCacheState env closures .kCacheGuaranteed s := rfl

/-- `read_op` meets no condition. -/
theorem readOpOn_eq : readOpOn os env closures opId s = readOp env closures opId s := by
  rcases hstate : s.1.currentState with _ | _ | _ <;>
    simp only [readOpOn, readOp, hstate, setCacheStateOn_guaranteed]

/-- `update_op` meets a condition in the Guaranteed state alone. -/
theorem updateOpOn_of_ne (h : s.1.currentState ≠ .kCacheGuaranteed) :
    updateOpOn os env closures opId f s = updateOp env closures opId f s := by
  rcases hstate : s.1.currentState with _ | _ | _
  · simp only [updateOpOn, updateOp, hstate, setCacheStateOn_guaranteed]
  · exact absurd hstate h
  · simp only [updateOpOn, updateOp, hstate]

/-- The narrowing of a positive `int32_t` to `uint32_t`. -/
theorem ofInt_toInt32 {x : Int} (h : 0 < toInt32 x) :
    UInt32.ofInt (toInt32 x) = UInt32.ofNat (toInt32 x).toNat := by
  have hlt : toInt32 x < 2 ^ 32 := by
    have hbound : x.bmod (2 ^ 32) < (2 ^ 32 + 1) / 2 := Int.bmod_lt (by decide)
    exact hbound.trans (by decide)
  unfold UInt32.ofInt
  rw [Int.emod_eq_of_lt h.le hlt]

/-- On Linux the state is set as modelled. -/
theorem setCacheStateOn_linux (state : CacheState) :
    setCacheStateOn .linux env closures state s = setCacheState env closures state s := by
  unfold setCacheStateOn setCacheState
  congr 1
  cases state with
  | kCacheIdle => rfl
  | kCacheGuaranteed => rfl
  | kCacheUpdateProtected =>
      unfold enterStateOn enterState
      simp only [guard_linux_le, decide_eq_true_eq]
      split
      · rfl
      · rename_i hpos
        rw [ofInt_toInt32 (not_le.mp hpos)]

/-- A `std::function` that is empty is 0 as an integer. -/
theorem isSome_toInt_eq_zero : f.isSome.toInt = 0 ↔ f.isNone := by
  cases f <;> simp

/-- The op id 0 is 0 as an integer. -/
theorem opId_toNat_eq_zero : (opId.toNat : Int) = 0 ↔ opId = 0 := by
  rw [Int.natCast_eq_zero]
  exact UInt32.toNat_inj (b := 0)

/-- On Linux an update of a manager is as modelled. -/
theorem updateOpOn_linux :
    updateOpOn .linux env closures opId f s = updateOp env closures opId f s := by
  by_cases hstate : s.1.currentState = .kCacheGuaranteed
  · simp only [updateOpOn, updateOp, hstate, setCacheStateOn_linux, guard_linux_or,
      decide_eq_true_eq, isSome_toInt_eq_zero, opId_toNat_eq_zero]
  · exact updateOpOn_of_ne .linux env closures opId f s hstate

/-- Entering the UpdateProtected state does not find fault with the argument. -/
theorem protect_ne_illArgument (describe : String) :
    (andThen (setCacheStateOn os env closures .kCacheUpdateProtected s) fun _ s =>
      (.ok (OpResult.kOperationDefer, s.1.expireTime), s)).1 ≠
        .error (.csn .kErrorIllArgument describe) := by
  unfold setCacheStateOn enterStateOn
  dsimp only
  split
  · exact fun h => (nomatch h)
  · exact fun h => (nomatch h)

/-- **In the Guaranteed state the builds take opposite branches**: one finds fault with the
argument, the other does not. -/
theorem updateOpOn_ne (hstate : s.1.currentState = .kCacheGuaranteed) (hf : f.isSome) :
    (updateOpOn .linux env closures opId f s).1 ≠
      (updateOpOn .windows env closures opId f s).1 := by
  have hf' : f.isSome.toInt ≠ 0 := by
    rw [hf]
    decide
  have hlinux : Platform.linux.guard
      [.not, .operand opId.toNat, .binary .or, .not, .operand f.isSome.toInt] =
        decide (opId = 0) := by
    rw [guard_linux_or]
    simp only [hf', opId_toNat_eq_zero, or_false]
  have hwindows : Platform.windows.guard
      [.not, .operand opId.toNat, .binary .or, .not, .operand f.isSome.toInt] =
        decide (opId ≠ 0) := by
    rw [guard_windows_or]
    simp only [hf', opId_toNat_eq_zero, or_false, ne_eq]
  unfold updateOpOn
  rw [hstate]
  dsimp only
  rw [hlinux, hwindows]
  by_cases h0 : opId = 0
  · simp only [h0, decide_true, ne_eq, not_true_eq_false, decide_false, if_true]
    exact (protect_ne_illArgument .windows env closures _ _).symm
  · simp only [h0, decide_false, ne_eq, not_false_eq_true, decide_true, if_true]
    exact protect_ne_illArgument .linux env closures _ _

end manager

/-! ## The data center -/

variable {T H F : Type}

/-- Source: `cache_data_center.h`, `CacheDataCenter::read_op` and `CacheElement::read_op`. -/
def Center.readOpOn (os : Platform) (env : Env) (cacheId : UInt64) (opId : UInt32)
    (p : Center T H F τ) : Except Thrown (OpResult × Option (Int × T)) × Center T H F τ :=
  match p.mem.map cacheId with
  | none => (.ok (.kOperationErrorNoData, none), p)
  | some e =>
      match CacheSystem.readOpOn os env (closures cacheId) opId (e.state, p.rt) with
      | (.error t, s) => (.error t, p.put cacheId e s)
      | (.ok r, s) =>
          (.ok (r.1, some (r.2, e.value)),
            (p.put cacheId e s).record (.read cacheId r.2 e.value))

/-- Source: `cache_data_center.h`, `CacheElement::update_op`. -/
def Center.updateElementOn (os : Platform) (env : Env) (cacheId : UInt64) (e : CacheElement T H)
    (value : T) (opId : UInt32) (f : H) (p : Center T H F τ) :
    Except Thrown (OpResult × Int) × Center T H F τ :=
  match CacheSystem.updateOpOn os env (closures cacheId) opId (some ()) (e.state, p.rt) with
  | (.error t, s) => (.error t, p.put cacheId e s)
  | (.ok (.kOperationOk, expire), s) =>
      (.ok (.kOperationOk, expire),
        (p.put cacheId { e with value := value } s).record
          (.updated cacheId opId f value expire))
  | (.ok (.kOperationDefer, expire), s) =>
      (.ok (.kOperationDefer, expire),
        (p.put cacheId { e with tempValue := some value, opId := opId, call := some f } s).record
          (.deferred cacheId opId f value))
  | (.ok (r, expire), s) =>
      (.ok (r, expire), (p.put cacheId e s).record (.retried cacheId opId f))

/-- Source: `cache_data_center.h`, `CacheDataCenter::update_op`. The id is absent where `emplace` is
called, so `pair.second` is true. -/
def Center.updateOpOn [Inhabited T] (os : Platform) (env : Env) (cacheId : UInt64) (value : T)
    (opId : UInt32) (f : H) (p : Center T H F τ) :
    Except Thrown (OpResult × Int) × Center T H F τ :=
  match p.mem.map cacheId with
  | some e => p.updateElementOn os env cacheId e value opId f
  | none =>
      let p := p.emplace cacheId { value := default }
      -- `unlikely(pair.second == false)`
      if os.guard [.operand true.toInt, .binary .eq, .operand 0] then
        (.error (.csn .kErrorSysRoutine "unordered_map insert data error !!!"), p)
      else p.updateElementOn os env cacheId { value := default } value opId f

/-- What a queued timer's callback does. Source: `cache_state_manager.h`, the lambdas in the
`enter_state` of the Guaranteed and the UpdateProtected state. -/
def runTimerOn (os : Platform) (env : Env) (hooks : Hooks T H F τ) (call : TimerCall F)
    (p : Center T H F τ) : Option Thrown × Center T H F τ :=
  match call with
  | .guaranteed cacheId =>
      match p.mem.map cacheId with
      | none => (none, p)
      | some e =>
          match setCacheStateOn os env (closures cacheId) .kCacheIdle (e.state, p.rt) with
          | (.error t, s) => (some t, p.put cacheId e s)
          | (.ok (), s) => (none, p.put cacheId e s)
  | .updateProtected cacheId =>
      match p.mem.map cacheId with
      | none => (none, p)
      | some e =>
          match setCacheStateOn os env (closures cacheId) .kCacheGuaranteed (e.state, p.rt) with
          | (.error t, s) => (some t, p.put cacheId e s)
          | (.ok (), s) =>
              match s.1.callHandle with
              | none => (some .badFunctionCall, p.put cacheId e s)
              | some () =>
                  (p.put cacheId e s).callHandle hooks cacheId { e with state := s.1 }
                    .kOperationOk s.1.opId s.1.expireTime
  | .foreign f =>
      let r := hooks.foreign f p.outer
      (r.1, p.withOuter r.2)

/-- One iteration of `tick`'s loop. -/
def tickIterOn (os : Platform) (env : Env)
    (run : κ → Proc κ τ → Option Thrown × Proc κ τ) (p : Proc κ τ) : Iter (Proc κ τ) :=
  match p.rt.queue with
  | [] => .done p
  | timer :: _ =>
      -- `unlikely(timer->expired())`
      if os.guard [.operand (decide (timer.expireTime ≤ p.rt.now env)).toInt] then
        let held := p.rt.locked
        let p := { p with rt := p.rt.readClock.lock }
        if timer.repeat_ = 0 then .again { p with rt := (settleFront env p.rt).unlock held }
        else
          match run timer.callback p with
          | (some e, p) => .threw e { p with rt := p.rt.unlock held }
          | (none, p) =>
              .again { p with rt := (settleFront env (decrementFront p.rt)).unlock held }
      else .done { p with rt := p.rt.readClock }

section center

variable (env : Env) (hooks : Hooks T H F τ) (cacheId : UInt64) (opId : UInt32) (value : T) (f : H)
  (p : Center T H F τ)

/-- A read does not depend on the build. -/
theorem Center.readOpOn_eq (os : Platform) :
    p.readOpOn os env cacheId opId = p.readOp env cacheId opId := by
  rcases he : p.mem.map cacheId with _ | e
  · simp only [Center.readOpOn, Center.readOp, he]
  · rcases hr : CacheSystem.readOp env (closures cacheId) opId (e.state, p.rt) with ⟨t | r, s⟩ <;>
      simp only [Center.readOpOn, Center.readOp, he, CacheSystem.readOpOn_eq, hr]

/-- What a manager answers on both builds, an element answers on both. -/
theorem Center.updateElementOn_eq {os : Platform} {e : CacheElement T H}
    (h : CacheSystem.updateOpOn os env (closures cacheId) opId (some ()) (e.state, p.rt) =
      CacheSystem.updateOp env (closures cacheId) opId (some ()) (e.state, p.rt)) :
    p.updateElementOn os env cacheId e value opId f =
      p.updateElement env cacheId e value opId f := by
  rcases hr : CacheSystem.updateOp env (closures cacheId) opId (some ()) (e.state, p.rt) with
    ⟨t | ⟨result, expire⟩, s⟩
  · simp only [Center.updateElementOn, Center.updateElement, h, hr]
  · cases result <;> simp only [Center.updateElementOn, Center.updateElement, h, hr]

/-- On Linux an update of the data center is as modelled. -/
theorem Center.updateOpOn_linux [Inhabited T] :
    p.updateOpOn .linux env cacheId value opId f = p.updateOp env cacheId value opId f := by
  rcases he : p.mem.map cacheId with _ | e
  · simp only [Center.updateOpOn, Center.updateOp, he, guard_linux_eq, Bool.not_true,
      Bool.false_eq_true, if_false]
    exact Center.updateElementOn_eq _ _ _ _ _ _ (CacheSystem.updateOpOn_linux _ _ _ _ _)
  · simp only [Center.updateOpOn, Center.updateOp, he]
    exact Center.updateElementOn_eq _ _ _ _ _ _ (CacheSystem.updateOpOn_linux _ _ _ _ _)

/-- A callback does not depend on the build. -/
theorem runTimerOn_eq (os : Platform) (call : TimerCall F) :
    runTimerOn os env hooks call p = runTimer env hooks call p := rfl

/-- On Linux an iteration of `tick` is as modelled. -/
theorem tickIterOn_linux (run : κ → Proc κ τ → Option Thrown × Proc κ τ) (p : Proc κ τ) :
    tickIterOn .linux env run p = tickIter env run p := by
  rcases hq : p.rt.queue with _ | ⟨t, rest⟩
  · simp only [tickIterOn, tickIter, hq]
  · rcases hran : run t.callback { p with rt := p.rt.readClock.lock } with ⟨_ | e, p₁⟩ <;>
      simp only [tickIterOn, tickIter, hq, hran, guard_linux_bool, decide_eq_true_eq, ← not_lt,
        ite_not]

/-- **A `tick` of the Linux build** is one of the other modules. -/
theorem tickOn_linux {passed : List (Center T H F τ)} {e : Option Thrown} {p p' : Center T H F τ}
    (h : LoopRuns (tickIterOn .linux env (runTimerOn .linux env hooks)) p passed e p') :
    ∃ fuel, tickLoop env (runTimer env hooks) fuel p = some (e, p') := by
  have hrun : runTimerOn .linux env hooks = runTimer env hooks := by
    funext call p
    exact runTimerOn_eq env hooks p .linux call
  have hiter : tickIterOn .linux env (runTimer env hooks) = tickIter env (runTimer env hooks) := by
    funext p
    exact tickIterOn_linux env (runTimer env hooks) p
  rw [hrun, hiter] at h
  exact h.tickLoop

/-- The result is the manager's. -/
theorem Center.updateElementOn_fst (os : Platform) (e : CacheElement T H) :
    (p.updateElementOn os env cacheId e value opId f).1 =
      (CacheSystem.updateOpOn os env (closures cacheId) opId (some ()) (e.state, p.rt)).1 := by
  unfold Center.updateElementOn
  generalize CacheSystem.updateOpOn os env (closures cacheId) opId (some ()) (e.state, p.rt) = r
  obtain ⟨t | ⟨result, expire⟩, s⟩ := r
  · rfl
  · cases result <;> rfl

/-- `update_op` of an element that is not Guaranteed meets no condition. -/
theorem Center.updateOpOn_of_ne [Inhabited T] (os : Platform) {e : CacheElement T H}
    (he : p.mem.map cacheId = some e) (hstate : e.state.currentState ≠ .kCacheGuaranteed) :
    p.updateOpOn os env cacheId value opId f = p.updateOp env cacheId value opId f := by
  simp only [Center.updateOpOn, Center.updateOp, he]
  exact Center.updateElementOn_eq _ _ _ _ _ _ (CacheSystem.updateOpOn_of_ne _ _ _ _ _ _ hstate)

/-- A Guaranteed element: the builds differ. -/
theorem Center.updateOpOn_ne_of_guaranteed [Inhabited T] {e : CacheElement T H}
    (he : p.mem.map cacheId = some e) (hstate : e.state.currentState = .kCacheGuaranteed) :
    (p.updateOpOn .linux env cacheId value opId f).1 ≠
      (p.updateOpOn .windows env cacheId value opId f).1 := by
  unfold Center.updateOpOn
  rw [he]
  dsimp only
  rw [Center.updateElementOn_fst, Center.updateElementOn_fst]
  exact CacheSystem.updateOpOn_ne env (closures cacheId) opId (some ()) (e.state, p.rt) hstate rfl

/-- An absent id: the Windows build throws after it has inserted the element. -/
theorem Center.updateOpOn_ne_of_absent [Inhabited T] (he : p.mem.map cacheId = none) :
    (p.updateOpOn .linux env cacheId value opId f).1 ≠
      (p.updateOpOn .windows env cacheId value opId f).1 := by
  have hidle :
      ({ value := default } : CacheElement T H).state.currentState ≠ .kCacheGuaranteed := by
    intro h
    cases h
  unfold Center.updateOpOn
  rw [he]
  dsimp only
  rw [guard_linux_eq, guard_windows_eq, if_neg (by decide), if_pos rfl,
    Center.updateElementOn_fst, CacheSystem.updateOpOn_of_ne _ _ _ _ _ _ hidle]
  exact fun h => (nomatch h)

end center

/-! ## Runs of a build -/

/-- The timer that an iteration runs: slot 0, when it is live and the condition of the loop
holds. -/
def firingOn (os : Platform) (env : Env) (p : Proc κ τ) : List (EventTimer κ) :=
  p.rt.queue.head?.toList.filter fun t =>
    os.guard [.operand (decide (t.expireTime ≤ p.rt.now env)).toInt] ∧ t.repeat_ ≠ 0

/-- An operation of a client of the data center. -/
inductive CenterCall (T H : Type)
  | readOp (cacheId : UInt64) (opId : UInt32)
  | updateOp (cacheId : UInt64) (value : T) (opId : UInt32) (f : H)
  | tick

/-- What is seen of an operation: what it returns or throws, and the timers it runs. -/
inductive CenterResult (T F : Type)
  | read (r : Except Thrown (OpResult × Option (Int × T)))
  | updated (r : Except Thrown (OpResult × Int))
  | ticked (fired : List (EventTimer (TimerCall F))) (e : Option Thrown)

/-- An operation of the build for `os`: what is seen of it, and the state it leaves. A `tick` that
does not end is not one. -/
inductive CenterStep [Inhabited T] (os : Platform) (env : Env) (hooks : Hooks T H F τ)
    (p : Center T H F τ) : CenterCall T H → CenterResult T F → Center T H F τ → Prop
  | readOp (cacheId : UInt64) (opId : UInt32) :
      CenterStep os env hooks p (.readOp cacheId opId) (.read (p.readOpOn os env cacheId opId).1)
        (p.readOpOn os env cacheId opId).2
  | updateOp (cacheId : UInt64) (value : T) (opId : UInt32) (f : H) :
      CenterStep os env hooks p (.updateOp cacheId value opId f)
        (.updated (p.updateOpOn os env cacheId value opId f).1)
        (p.updateOpOn os env cacheId value opId f).2
  | tick {passed e p'} : LoopRuns (tickIterOn os env (runTimerOn os env hooks)) p passed e p' →
      CenterStep os env hooks p .tick (.ticked (passed.flatMap (firingOn os env)) e) p'

/-- What is seen of a sequence of operations, with the states between them, up to any moment. -/
inductive Observes [Inhabited T] (os : Platform) (env : Env) (hooks : Hooks T H F τ) :
    Center T H F τ → List (CenterCall T H) → List (CenterResult T F × Center T H F τ) → Prop
  | start (p : Center T H F τ) (calls : List (CenterCall T H)) : Observes os env hooks p calls []
  | step {p call r p' calls seen} : CenterStep os env hooks p call r p' →
      Observes os env hooks p' calls seen →
      Observes os env hooks p (call :: calls) ((r, p') :: seen)

/-- The two builds are seen to do the same. -/
def BuildsAgree [Inhabited T] (env : Env) (hooks : Hooks T H F τ) (p : Center T H F τ)
    (calls : List (CenterCall T H)) : Prop :=
  ∀ seen, Observes .linux env hooks p calls seen ↔ Observes .windows env hooks p calls seen

/-- The operation meets no condition of `unlikely`: it is no `update_op` of an id that is absent or
whose element is Guaranteed, and no `tick` with a timer in the queue. -/
def Indifferent (p : Center T H F τ) : CenterCall T H → Prop
  | .readOp _ _ => True
  | .updateOp cacheId _ _ _ =>
      ∃ e, p.mem.map cacheId = some e ∧ e.state.currentState ≠ .kCacheGuaranteed
  | .tick => p.rt.queue = []

/-- Every operation of the Linux build is indifferent in the state that it begins in. -/
def IndifferentAlong [Inhabited T] (env : Env) (hooks : Hooks T H F τ) :
    Center T H F τ → List (CenterCall T H) → Prop
  | _, [] => True
  | p, call :: calls => Indifferent p call ∧
      ∀ r p', CenterStep .linux env hooks p call r p' → IndifferentAlong env hooks p' calls

/-! ## One operation -/

section step

variable {os : Platform} {env : Env} {run : κ → Proc κ τ → Option Thrown × Proc κ τ}
  {p p' : Proc κ τ} {passed : List (Proc κ τ)} {e : Option Thrown}

/-- The condition of the loop. -/
def Enters (os : Platform) (env : Env) (p : Proc κ τ) : Prop :=
  ∃ t rest, p.rt.queue = t :: rest ∧
    os.guard [.operand (decide (t.expireTime ≤ p.rt.now env)).toInt] = true

/-- Where the condition of the loop does not hold, `tick` ends. -/
theorem tickIterOn_of_not_enters (h : ¬ Enters os env p) :
    firingOn os env p = [] ∧ ∃ p₁, tickIterOn os env run p = .done p₁ ∧
      p₁.rt.queue = p.rt.queue := by
  rcases hq : p.rt.queue with _ | ⟨t, rest⟩
  · simp [firingOn, tickIterOn, hq]
  · have hguard : os.guard [.operand (decide (t.expireTime ≤ p.rt.now env)).toInt] ≠ true :=
      fun hguard => h ⟨t, rest, hq, hguard⟩
    simp [firingOn, tickIterOn, hq, hguard, Runtime.readClock]

/-- Where it holds, the iteration runs a timer or takes one out of the queue. -/
theorem tickIterOn_of_enters (h : Enters os env p) (hfiring : firingOn os env p = []) :
    ∃ p₁, tickIterOn os env run p = .again p₁ ∧
      p₁.rt.queue.length + 1 = p.rt.queue.length := by
  obtain ⟨t, rest, hq, hguard⟩ := h
  have h0 : t.repeat_ = 0 := by
    simpa [firingOn, hq, hguard] using hfiring
  obtain ⟨q, hperm, hsettle⟩ := settleFront_of_zero env p.rt.readClock.lock hq h0
  refine ⟨{ p with rt := (settleFront env p.rt.readClock.lock).unlock p.rt.locked }, ?_, ?_⟩
  · simp only [tickIterOn, hq, hguard, if_true, h0]
  · rw [hsettle, hq]
    exact congrArg Nat.succ hperm.length_eq

/-- An iteration that runs no timer adds none, and takes one out where it enters the body. -/
theorem tickIterOn_quiet (hfiring : firingOn os env p = []) :
    (tickIterOn os env run p).state.rt.queue.length ≤ p.rt.queue.length ∧
      (Enters os env p →
        (tickIterOn os env run p).state.rt.queue.length < p.rt.queue.length) := by
  by_cases henters : Enters os env p
  · obtain ⟨p₁, hagain, hlen⟩ := tickIterOn_of_enters henters hfiring
    rw [hagain]
    exact ⟨hlen ▸ Nat.le_succ _, fun _ => hlen ▸ Nat.lt_succ_self _⟩
  · obtain ⟨-, p₁, hdone, hqueue⟩ := tickIterOn_of_not_enters henters
    rw [hdone]
    exact ⟨(congrArg List.length hqueue).le, fun h => absurd h henters⟩

/-- **A `tick` that runs no timer** has taken timers out of the queue where it entered its loop. -/
theorem LoopRuns.quiet (h : LoopRuns (tickIterOn os env run) p passed e p')
    (hquiet : passed.flatMap (firingOn os env) = []) :
    p'.rt.queue.length ≤ p.rt.queue.length ∧
      (Enters os env p → p'.rt.queue.length < p.rt.queue.length) := by
  revert hquiet
  apply h.induct (P := fun p passed p' => passed.flatMap (firingOn os env) = [] →
    p'.rt.queue.length ≤ p.rt.queue.length ∧
      (Enters os env p → p'.rt.queue.length < p.rt.queue.length))
  · intro p hquiet
    rw [List.flatMap_singleton] at hquiet
    exact tickIterOn_quiet hquiet
  · intro p passed p' ih hquiet
    rw [List.flatMap_cons, List.append_eq_nil_iff] at hquiet
    obtain ⟨hle, -⟩ := ih hquiet.2
    obtain ⟨hle', hlt'⟩ := tickIterOn_quiet hquiet.1
    exact ⟨hle.trans hle', fun henters => hle.trans_lt (hlt' henters)⟩

end step

section agree

variable [Inhabited T] {os : Platform} {env : Env} {hooks : Hooks T H F τ} {p p' : Center T H F τ}
  {r : CenterResult T F}

/-- Both builds do the same in this operation. -/
def StepAgrees (env : Env) (hooks : Hooks T H F τ) (p : Center T H F τ) (call : CenterCall T H) :
    Prop :=
  ∀ r p', CenterStep .linux env hooks p call r p' ↔ CenterStep .windows env hooks p call r p'

/-- A read has one outcome. -/
theorem centerStep_readOp {cacheId : UInt64} {opId : UInt32} :
    CenterStep os env hooks p (.readOp cacheId opId) r p' ↔
      r = .read (p.readOp env cacheId opId).1 ∧ p' = (p.readOp env cacheId opId).2 := by
  rw [← Center.readOpOn_eq env cacheId opId p os]
  constructor
  · rintro ⟨⟩
    exact ⟨rfl, rfl⟩
  · rintro ⟨rfl, rfl⟩
    exact .readOp cacheId opId

/-- An update has one outcome. -/
theorem centerStep_updateOp {cacheId : UInt64} {value : T} {opId : UInt32} {f : H} :
    CenterStep os env hooks p (.updateOp cacheId value opId f) r p' ↔
      r = .updated (p.updateOpOn os env cacheId value opId f).1 ∧
        p' = (p.updateOpOn os env cacheId value opId f).2 := by
  constructor
  · rintro ⟨⟩
    exact ⟨rfl, rfl⟩
  · rintro ⟨rfl, rfl⟩
    exact .updateOp cacheId value opId f

/-- The outcome of a `tick` is what its iterations fired. -/
theorem centerStep_tick :
    CenterStep os env hooks p .tick r p' ↔
      ∃ passed e, LoopRuns (tickIterOn os env (runTimerOn os env hooks)) p passed e p' ∧
        r = .ticked (passed.flatMap (firingOn os env)) e := by
  constructor
  · rintro (⟨⟩ | ⟨⟩ | htick)
    exact ⟨_, _, htick, rfl⟩
  · rintro ⟨passed, e, htick, rfl⟩
    exact .tick htick

/-- A `tick` that does not enter its loop. -/
theorem centerStep_tick_of_not_enters (h : ¬ Enters os env p) :
    ∃ p₁, CenterStep os env hooks p .tick (.ticked [] none) p₁ ∧ p₁.rt.queue = p.rt.queue := by
  obtain ⟨hfiring, p₁, hdone, hqueue⟩ := tickIterOn_of_not_enters h
  refine ⟨p₁, centerStep_tick.mpr ⟨[p], none, .done hdone, ?_⟩, hqueue⟩
  rw [List.flatMap_singleton, hfiring]

/-- A `tick` on an empty queue does nothing. -/
theorem centerStep_tick_nil (hq : p.rt.queue = []) :
    CenterStep os env hooks p .tick r p' ↔ r = .ticked [] none ∧ p' = p := by
  have hdone : tickIterOn os env (runTimerOn os env hooks) p = .done p := by
    simp only [tickIterOn, hq]
  have hquiet : [p].flatMap (firingOn os env) = [] := by
    simp [firingOn, hq]
  rw [centerStep_tick]
  constructor
  · rintro ⟨passed, e, htick, rfl⟩
    obtain ⟨rfl, rfl, rfl⟩ := htick.det (.done hdone)
    rw [hquiet]
    exact ⟨rfl, rfl⟩
  · rintro ⟨rfl, rfl⟩
    exact ⟨[p'], none, .done hdone, by rw [hquiet]⟩

/-- An update whose results differ. -/
theorem not_stepAgrees_updateOp {cacheId : UInt64} {value : T} {opId : UInt32} {f : H}
    (h : (p.updateOpOn .linux env cacheId value opId f).1 ≠
      (p.updateOpOn .windows env cacheId value opId f).1) :
    ¬ StepAgrees env hooks p (.updateOp cacheId value opId f) := by
  intro hagrees
  have hwindows := (hagrees _ _).mp (.updateOp cacheId value opId f)
  exact h (CenterResult.updated.inj (centerStep_updateOp.mp hwindows).1)

/-- A build that enters the loop and one that does not: what the second leaves has all its timers,
and no timer was run. -/
theorem not_tick_iff {os' : Platform} (henters : Enters os env p) (hnot : ¬ Enters os' env p) :
    ¬ ∀ (r : CenterResult T F) p', CenterStep os env hooks p .tick r p' ↔
      CenterStep os' env hooks p .tick r p' := by
  intro hagrees
  have hquiet : ∃ p₁, CenterStep os' env hooks p .tick (.ticked [] none) p₁ ∧
      p₁.rt.queue = p.rt.queue := centerStep_tick_of_not_enters hnot
  obtain ⟨p₁, hstep, hqueue⟩ := hquiet
  obtain ⟨passed, e, htick, hresult⟩ := centerStep_tick.mp ((hagrees _ _).mpr hstep)
  have hlt := (htick.quiet (CenterResult.ticked.inj hresult).1.symm).2 henters
  rw [hqueue] at hlt
  exact absurd hlt (lt_irrefl _)

/-- **With a timer in the queue the builds differ**: one enters the loop, the other does not. -/
theorem not_stepAgrees_tick (hq : p.rt.queue ≠ []) : ¬ StepAgrees env hooks p .tick := by
  obtain ⟨t, rest, hcons⟩ := List.exists_cons_of_ne_nil hq
  have hlinux : Enters .linux env p ↔ t.expireTime ≤ p.rt.now env := by
    simp [Enters, hcons, guard_linux_bool]
  have hwindows : Enters .windows env p ↔ ¬ t.expireTime ≤ p.rt.now env := by
    simp [Enters, hcons, guard_windows_bool]
  by_cases hdue : t.expireTime ≤ p.rt.now env
  · exact not_tick_iff (hlinux.mpr hdue) fun h => hwindows.mp h hdue
  · intro hagrees
    have hsymm : ∀ r p', CenterStep .windows env hooks p .tick r p' ↔
        CenterStep .linux env hooks p .tick r p' := fun r p' => (hagrees r p').symm
    exact not_tick_iff (hwindows.mpr hdue) (fun h => hdue (hlinux.mp h)) hsymm

/-- **The builds do the same in an operation exactly where it is indifferent.** -/
theorem stepAgrees_iff (call : CenterCall T H) :
    StepAgrees env hooks p call ↔ Indifferent p call := by
  cases call with
  | readOp cacheId opId =>
      refine iff_of_true (fun r p' => ?_) trivial
      rw [centerStep_readOp, centerStep_readOp]
  | updateOp cacheId value opId f =>
      constructor
      · intro hagrees
        rcases he : p.mem.map cacheId with _ | e
        · exact absurd hagrees (not_stepAgrees_updateOp
            (Center.updateOpOn_ne_of_absent env cacheId opId value f p he))
        · refine ⟨e, he, fun hstate => ?_⟩
          exact absurd hagrees (not_stepAgrees_updateOp
            (Center.updateOpOn_ne_of_guaranteed env cacheId opId value f p he hstate))
      · rintro ⟨e, he, hstate⟩ r p'
        rw [centerStep_updateOp, centerStep_updateOp,
          Center.updateOpOn_of_ne env cacheId opId value f p .linux he hstate,
          Center.updateOpOn_of_ne env cacheId opId value f p .windows he hstate]
  | tick =>
      constructor
      · intro hagrees
        by_contra hq
        exact not_stepAgrees_tick hq hagrees
      · intro hq r p'
        rw [centerStep_tick_nil hq, centerStep_tick_nil hq]

/-! ## Sequences of operations -/

variable {call : CenterCall T H} {calls : List (CenterCall T H)}
  {seen : List (CenterResult T F × Center T H F τ)}

/-- What is seen of a call, and then of the others. -/
theorem observes_cons : Observes os env hooks p (call :: calls) ((r, p') :: seen) ↔
    CenterStep os env hooks p call r p' ∧ Observes os env hooks p' calls seen := by
  constructor
  · rintro (⟨⟩ | ⟨hstep, hrest⟩)
    exact ⟨hstep, hrest⟩
  · rintro ⟨hstep, hrest⟩
    exact .step hstep hrest

/-- The builds agree on a call, and then on the others. -/
theorem buildsAgree_cons : BuildsAgree env hooks p (call :: calls) ↔
    StepAgrees env hooks p call ∧
      ∀ r p', CenterStep .linux env hooks p call r p' → BuildsAgree env hooks p' calls := by
  constructor
  · intro h
    have hstep : StepAgrees env hooks p call := by
      intro r p'
      have hone := h [(r, p')]
      rw [observes_cons, observes_cons] at hone
      simpa [Observes.start] using hone
    refine ⟨hstep, fun r p' hlinux seen => ?_⟩
    have hmore := h ((r, p') :: seen)
    rw [observes_cons, observes_cons] at hmore
    simpa [hlinux, (hstep r p').mp hlinux] using hmore
  · rintro ⟨hstep, hrest⟩ seen
    cases seen with
    | nil => exact iff_of_true (.start _ _) (.start _ _)
    | cons first seen =>
        obtain ⟨r, p'⟩ := first
        rw [observes_cons, observes_cons, ← hstep r p']
        exact and_congr_right fun hlinux => hrest r p' hlinux seen

/-- The builds agree exactly where every operation of the run is indifferent. -/
theorem buildsAgree_iff_indifferent :
    BuildsAgree env hooks p calls ↔ IndifferentAlong env hooks p calls := by
  induction calls generalizing p with
  | nil =>
      refine iff_of_true (fun seen => ?_) trivial
      constructor <;>
      · rintro ⟨⟩
        exact .start _ _
  | cons call calls ih =>
      rw [buildsAgree_cons, stepAgrees_iff]
      exact and_congr_right fun _ => forall₃_congr fun r p' _ => ih

/-- The operation is an `update_op`. -/
def CenterCall.isUpdate : CenterCall T H → Bool
  | .updateOp _ _ _ _ => true
  | _ => false

/-- Nothing happens in an empty data center until there is an update. -/
theorem indifferentAlong_empty (hmap : ∀ cacheId, p.mem.map cacheId = none)
    (hq : p.rt.queue = []) :
    IndifferentAlong env hooks p calls ↔ ∀ call ∈ calls, call.isUpdate = false := by
  induction calls with
  | nil => exact iff_of_true trivial fun call hcall => (nomatch hcall)
  | cons call calls ih =>
      rw [List.forall_mem_cons, ← ih]
      cases call with
      | readOp cacheId opId =>
          refine and_congr (iff_of_true trivial rfl) ?_
          have hread : p.readOp env cacheId opId = (.ok (.kOperationErrorNoData, none), p) := by
            simp only [Center.readOp, hmap]
          simp [centerStep_readOp, hread]
      | updateOp cacheId value opId f =>
          refine iff_of_false (fun h => ?_) fun h => (nomatch h.1)
          obtain ⟨e, he, -⟩ := h.1
          rw [hmap] at he
          cases he
      | tick =>
          refine and_congr (iff_of_true hq rfl) ?_
          simp [centerStep_tick_nil hq]

end agree

end CacheSystem

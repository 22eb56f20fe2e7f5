import CacheSystem.Lib.Run
import CacheSystem.Ownership

/-!
# State managers that share a timer queue (`cache_state_manager.h`, `timer_queue.cc`)

Any number of `CacheStateManager`s, indexed by `ι`, and one timer queue, which also holds timers of
other owners (`F`). This is the data center without its elements: a manager takes any handler
(`φ`), also an empty one, and a manager that was never updated can be read.

* `ManagerHooks` : what calling an update handler does, and the callback of a foreign timer. Both
  act on the queue and on an outer state `τ`, never on the managers.
* `ManagersMem.handed` is a history that no operation reads: the expire times handed out for a
  manager since it was last Idle.
* `Managers.step` is one operation, `ManagersReachable` are the states of the runs.
* `Turn` says all that an operation does to its manager and the queue.
-/

namespace CacheSystem

variable {ι φ F τ : Type}

/-! ## Data -/

/-- What a queued timer's callback was made from: the two lambdas of `enter_state`, which capture a
manager, or something of another owner. -/
inductive ManagerCall (ι F : Type)
  | guaranteed (i : ι)
  | updateProtected (i : ι)
  | foreign (f : F)
  deriving DecidableEq, Repr

/-- The manager that created the timer. -/
def ManagerCall.owner : ManagerCall ι F → Option ι
  | .guaranteed i => some i
  | .updateProtected i => some i
  | .foreign _ => none

/-- The lambdas of the managers. -/
def managerOwners : Owners ι (ManagerCall ι F) where
  closures i := { guaranteed := .guaranteed i, updateProtected := .updateProtected i }
  owner := ManagerCall.owner
  owner_guaranteed _ := rfl
  owner_updateProtected _ := rfl

/-- The memory of the process beside the timer queue. -/
structure ManagersMem (ι φ τ : Type) where
  managers : ι → CacheStateManager φ := fun _ => {}
  outer : τ
  handed : ι → List Int := fun _ => []

/-- The managers, as a table. -/
def ManagersMem.states (mem : ManagersMem ι φ τ) : ι → Option (CacheStateManager φ) :=
  fun i => some (mem.managers i)

/-- The managers in their process. -/
abbrev Managers (ι φ F τ : Type) := Proc (ManagerCall ι F) (ManagersMem ι φ τ)

/-- What the code around the managers does. -/
structure ManagerHooks (ι φ F τ : Type) where
  /-- Calling an `UpdateCallHandler`. -/
  invoke : φ → OpResult → UInt32 → Int → Proc (ManagerCall ι F) τ →
    Option Thrown × Proc (ManagerCall ι F) τ
  /-- The callback of a timer of another owner. -/
  foreign : F → Proc (ManagerCall ι F) τ → Option Thrown × Proc (ManagerCall ι F) τ

/-- The process without the managers. -/
def Managers.outer (p : Managers ι φ F τ) : Proc (ManagerCall ι F) τ := ⟨p.rt, p.mem.outer⟩

/-- The same managers in another process. -/
def Managers.withOuter (p : Managers ι φ F τ) (q : Proc (ManagerCall ι F) τ) :
    Managers ι φ F τ :=
  ⟨q.rt, { p.mem with outer := q.mem }⟩

section withOuter

variable (p : Managers ι φ F τ) (q : Proc (ManagerCall ι F) τ)

/-- The queue of the other process. -/
@[simp] theorem managersWithOuter_rt : (p.withOuter q).rt = q.rt := rfl

/-- The managers stay. -/
@[simp] theorem managersWithOuter_managers :
    (p.withOuter q).mem.managers = p.mem.managers := rfl

/-- What was handed out stays. -/
@[simp] theorem managersWithOuter_handed : (p.withOuter q).mem.handed = p.mem.handed := rfl

/-- The table of the managers stays. -/
@[simp] theorem managersWithOuter_states : (p.withOuter q).mem.states = p.mem.states := rfl

end withOuter

section step

variable [DecidableEq ι]

/-- A manager and the queue assigned. -/
def Managers.put (p : Managers ι φ F τ) (i : ι)
    (s : CacheStateManager φ × Runtime (ManagerCall ι F)) : Managers ι φ F τ :=
  ⟨s.2, { p.mem with managers := Function.update p.mem.managers i s.1 }⟩

/-- An expire time was handed out. -/
def Managers.hand (p : Managers ι φ F τ) (i : ι) (expire : Int) : Managers ι φ F τ :=
  ⟨p.rt, { p.mem with handed := Function.update p.mem.handed i (p.mem.handed i ++ [expire]) }⟩

/-- The history starts anew. -/
def Managers.forget (p : Managers ι φ F τ) (i : ι) : Managers ι φ F τ :=
  ⟨p.rt, { p.mem with handed := Function.update p.mem.handed i [] }⟩

/-! ## Operations -/

/-- The end of an operation that answered `r` and left its manager and the queue as `s`. -/
def Managers.answer (p : Managers ι φ F τ) (i : ι)
    (r : Except Thrown (OpResult × Int) × (CacheStateManager φ × Runtime (ManagerCall ι F))) :
    Except Thrown (OpResult × Int) × Managers ι φ F τ :=
  match r with
  | (.error e, s) => (.error e, p.put i s)
  | (.ok a, s) => (.ok a, (p.put i s).hand i a.2)

/-- Source: `cache_state_manager.h`, `CacheStateManager::read_op`: the result and `*tp`. -/
def Managers.readOp (env : Env) (i : ι) (opId : UInt32) (p : Managers ι φ F τ) :
    Except Thrown (OpResult × Int) × Managers ι φ F τ :=
  p.answer i (CacheSystem.readOp env (managerOwners.closures i) opId (p.mem.managers i, p.rt))

/-- Source: `cache_state_manager.h`, `CacheStateManager::update_op`: the result and `*tp`. -/
def Managers.updateOp (env : Env) (i : ι) (opId : UInt32) (f : Option φ)
    (p : Managers ι φ F τ) : Except Thrown (OpResult × Int) × Managers ι φ F τ :=
  p.answer i (CacheSystem.updateOp env (managerOwners.closures i) opId f (p.mem.managers i, p.rt))

/-- What a queued timer's callback does. Source: `cache_state_manager.h`, the lambdas in the
`enter_state` of the Guaranteed and the UpdateProtected state. -/
def runManager (env : Env) (hooks : ManagerHooks ι φ F τ) (call : ManagerCall ι F)
    (p : Managers ι φ F τ) : Option Thrown × Managers ι φ F τ :=
  match call with
  | .guaranteed i =>
      match setCacheState env (managerOwners.closures i) .kCacheIdle (p.mem.managers i, p.rt) with
      | (.error e, s) => (some e, p.put i s)
      | (.ok (), s) => (none, (p.put i s).forget i)
  | .updateProtected i =>
      match setCacheState env (managerOwners.closures i) .kCacheGuaranteed
        (p.mem.managers i, p.rt) with
      | (.error e, s) => (some e, p.put i s)
      | (.ok (), s) =>
          match s.1.callHandle with
          | none => (some .badFunctionCall, p.put i s)
          | some f =>
              let p := (p.put i s).hand i s.1.expireTime
              let r := hooks.invoke f .kOperationOk s.1.opId s.1.expireTime p.outer
              (r.1, p.withOuter r.2)
  | .foreign f =>
      let r := hooks.foreign f p.outer
      (r.1, p.withOuter r.2)

/-! ## Runs -/

/-- An operation on a manager or on the timer queue. -/
inductive ManagerOp (ι φ F : Type)
  | read (i : ι) (opId : UInt32)
  | update (i : ι) (opId : UInt32) (f : Option φ)
  /-- Another owner adds a timer. -/
  | addTimer (f : F) (timeoutMs repeat_ : UInt32)
  /-- A `tick` that ends within `fuel` iterations. -/
  | tick (fuel : Nat)

/-- The state after an operation, whether it returned or threw to a caller that caught; `none` for
a `tick` that needs more iterations. -/
def Managers.step (env : Env) (hooks : ManagerHooks ι φ F τ) (p : Managers ι φ F τ) :
    ManagerOp ι φ F → Option (Managers ι φ F τ)
  | .read i opId => some (p.readOp env i opId).2
  | .update i opId f => some (p.updateOp env i opId f).2
  | .addTimer f timeoutMs repeat_ =>
      some ⟨(addTimer env (.foreign f) timeoutMs repeat_ p.rt).2, p.mem⟩
  | .tick fuel => (tickLoop env (runManager env hooks) fuel p).map Prod.snd

/-- The state after a list of operations. -/
def Managers.run (env : Env) (hooks : ManagerHooks ι φ F τ) (p : Managers ι φ F τ) :
    List (ManagerOp ι φ F) → Option (Managers ι φ F τ)
  | [] => some p
  | op :: ops => (p.step env hooks op).bind fun p' => p'.run env hooks ops

/-- Fresh managers and an empty queue. -/
def Managers.initial (outer : τ) : Managers ι φ F τ := ⟨{}, { outer := outer }⟩

/-- The states of the runs whose steps all meet a condition `ok` on the state before the step and
the operation. -/
inductive ManagersReachable (env : Env) (hooks : ManagerHooks ι φ F τ)
    (ok : Managers ι φ F τ → ManagerOp ι φ F → Prop) : Managers ι φ F τ → Prop
  | initial (outer : τ) : ManagersReachable env hooks ok (Managers.initial outer)
  | step {p p' : Managers ι φ F τ} (op : ManagerOp ι φ F) :
      ManagersReachable env hooks ok p → ok p op → p.step env hooks op = some p' →
        ManagersReachable env hooks ok p'

variable {env : Env} {hooks : ManagerHooks ι φ F τ}
  {ok : Managers ι φ F τ → ManagerOp ι φ F → Prop} {p p' : Managers ι φ F τ}

/-- A run without a condition on its steps. -/
theorem ManagersReachable.run (hok : ∀ p op, ok p op) {ops : List (ManagerOp ι φ F)}
    (h : ManagersReachable env hooks ok p) (hrun : p.run env hooks ops = some p') :
    ManagersReachable env hooks ok p' := by
  have hruns : Lib.Run.IsRun (Managers.step env hooks) (Managers.run env hooks) :=
    ⟨fun _ => rfl, fun _ _ _ => rfl⟩
  exact hruns.keeps (fun p op _ h hstep => .step op h (hok p op) hstep) h hrun

/-- Handlers and foreign callbacks that do nothing. -/
def ManagerHooks.silent : ManagerHooks ι φ F τ where
  invoke _ _ _ _ q := (none, q)
  foreign _ q := (none, q)

/-! ## The parts of a changed process -/

section parts

variable (p : Managers ι φ F τ) (i : ι) (s : CacheStateManager φ × Runtime (ManagerCall ι F))
  (expire : Int)

/-- The queue that the manager left. -/
@[simp] theorem putManager_rt : (p.put i s).rt = s.2 := rfl

/-- One manager is assigned. -/
@[simp] theorem put_managers :
    (p.put i s).mem.managers = Function.update p.mem.managers i s.1 := rfl

/-- Assigning a manager hands nothing out. -/
@[simp] theorem put_handed : (p.put i s).mem.handed = p.mem.handed := rfl

/-- Handing out does not touch the queue. -/
@[simp] theorem hand_rt : (p.hand i expire).rt = p.rt := rfl

/-- Handing out does not touch the managers. -/
@[simp] theorem hand_managers : (p.hand i expire).mem.managers = p.mem.managers := rfl

/-- The expire time is the last one handed out for its manager. -/
@[simp] theorem hand_handed : (p.hand i expire).mem.handed =
    Function.update p.mem.handed i (p.mem.handed i ++ [expire]) := rfl

/-- Forgetting does not touch the queue. -/
@[simp] theorem forget_rt : (p.forget i).rt = p.rt := rfl

/-- Forgetting does not touch the managers. -/
@[simp] theorem forget_managers : (p.forget i).mem.managers = p.mem.managers := rfl

/-- Nothing is handed out for a manager that is Idle again. -/
@[simp] theorem forget_handed :
    (p.forget i).mem.handed = Function.update p.mem.handed i [] := rfl

/-- Handing out does not touch the table of the managers. -/
@[simp] theorem hand_states : (p.hand i expire).mem.states = p.mem.states := rfl

/-- Forgetting does not touch the table of the managers. -/
@[simp] theorem forget_states : (p.forget i).mem.states = p.mem.states := rfl

/-- In the table one manager is assigned. -/
@[simp] theorem put_states :
    (p.put i s).mem.states = Function.update p.mem.states i (some s.1) := by
  funext j
  by_cases hj : j = i
  · subst hj
    simp [ManagersMem.states]
  · simp [ManagersMem.states, hj]

variable
  (r : Except Thrown (OpResult × Int) × (CacheStateManager φ × Runtime (ManagerCall ι F)))

/-- What an operation returns does not depend on the other managers. -/
theorem answer_fst : (p.answer i r).1 = r.1 := by
  obtain ⟨e | a, s⟩ := r <;> rfl

/-- The queue is the one that the operation left. -/
theorem answer_rt : (p.answer i r).2.rt = r.2.2 := by
  obtain ⟨e | a, s⟩ := r <;> rfl

/-- Of the managers only that of the operation is assigned. -/
theorem answer_managers :
    (p.answer i r).2.mem.managers = Function.update p.mem.managers i r.2.1 := by
  obtain ⟨e | a, s⟩ := r <;> rfl

end parts

end step

/-! ## What an operation does to its manager -/

/-- What a manager was asked. -/
inductive Asked (φ : Type)
  | read (opId : UInt32)
  | update (opId : UInt32) (f : Option φ)

/-- All that `read_op` and `update_op` can do to a manager and the queue. -/
inductive Turn {κ : Type} (env : Env) (closures : Closures κ)
    (s : CacheStateManager φ × Runtime κ) :
    Asked φ → Except Thrown (OpResult × Int) × (CacheStateManager φ × Runtime κ) → Prop
  /-- A lease starts. -/
  | started {asked : Asked φ} {s' : CacheStateManager φ × Runtime κ}
      (hstate : s.1.currentState = .kCacheIdle) (hs' : s' = guarantee env closures s) :
      Turn env closures s asked (.ok (.kOperationOk, s'.1.expireTime), s')
  /-- A lease starts anew. -/
  | renewed {opId : UInt32} {s' : CacheStateManager φ × Runtime κ}
      (hstate : s.1.currentState = .kCacheGuaranteed)
      (hs' : s' = guarantee env closures (s.1.setOpId opId, s.2)) :
      Turn env closures s (.read opId) (.ok (.kOperationOk, s'.1.expireTime), s')
  /-- A lease runs: the update waits for its end. -/
  | waits {opId : UInt32} {f : φ} {s' : CacheStateManager φ × Runtime κ} (h0 : opId ≠ 0)
      (hstate : s.1.currentState = .kCacheGuaranteed) (hdelay : 0 < timerDelay env s)
      (hs' : s' = protect env closures
        ((s.1.setOpId opId).setCallHandle (some f), s.2.readClock)
        (UInt32.ofNat (timerDelay env s).toNat)) :
      Turn env closures s (.update opId (some f)) (.ok (.kOperationDefer, s'.1.expireTime), s')
  /-- An argument is refused. -/
  | refused {opId : UInt32} {f : Option φ} {e : Thrown} (hbad : opId = 0 ∨ f = none)
      (hstate : s.1.currentState ≠ .kCacheIdle) : Turn env closures s (.update opId f) (.error e, s)
  /-- The lease is over and its timer was not run yet. -/
  | overdue {opId : UInt32} {f : φ} {e : Thrown} (h0 : opId ≠ 0)
      (hstate : s.1.currentState = .kCacheGuaranteed) (hdelay : timerDelay env s ≤ 0) :
      Turn env closures s (.update opId (some f))
        (.error e, ((s.1.setOpId opId).setCallHandle (some f), s.2.readClock))
  /-- An update waits: the value is read without a lease. -/
  | unleased {opId : UInt32} (hstate : s.1.currentState = .kCacheUpdateProtected) :
      Turn env closures s (.read opId)
        (.ok (.kOperationOk, s.2.now env), (s.1, s.2.readClock))
  /-- An update waits already. -/
  | retried {opId : UInt32} {f : Option φ} (hstate : s.1.currentState = .kCacheUpdateProtected) :
      Turn env closures s (.update opId f) (.ok (.kOperationRetry, s.1.expireTime), s)

section turn

variable {κ : Type} (env : Env) (closures : Closures κ) (opId : UInt32) (f : Option φ)
  (s : CacheStateManager φ × Runtime κ)

/-- **A `read_op` does one of the three** that a read can do. -/
theorem readOp_turn : Turn env closures s (.read opId) (readOp env closures opId s) := by
  rcases hstate : s.1.currentState with _ | _ | _
  · rw [readOp_idle env closures opId hstate]
    exact .started hstate rfl
  · rw [readOp_guaranteed env closures opId hstate]
    exact .renewed hstate rfl
  · rw [readOp_updateProtected env closures opId hstate]
    exact .unleased hstate

/-- **An `update_op` does one of the five** that an update can do. -/
theorem updateOp_turn : Turn env closures s (.update opId f) (updateOp env closures opId f s) := by
  rcases hstate : s.1.currentState with _ | _ | _
  · rw [updateOp_idle env closures opId f hstate]
    exact .started hstate rfl
  · by_cases hbad : opId = 0 ∨ f.isNone
    · rw [updateOp_guaranteed_of_bad env closures opId f hstate hbad]
      exact .refused (hbad.imp_right Option.isNone_iff_eq_none.mp) (by rw [hstate]; decide)
    · obtain ⟨f, rfl⟩ : ∃ f', f = some f' := by
        rcases f with _ | f
        · simp at hbad
        · exact ⟨f, rfl⟩
      have h0 : opId ≠ 0 := fun h0 => hbad (Or.inl h0)
      rcases le_or_gt (timerDelay env s) 0 with hdelay | hdelay
      · rw [updateOp_guaranteed_of_late env closures opId _ hstate hbad hdelay]
        exact .overdue h0 hstate hdelay
      · rw [updateOp_guaranteed_of_early env closures opId _ hstate hbad hdelay]
        exact .waits h0 hstate hdelay rfl
  · rw [updateOp_updateProtected env closures opId f hstate]
    split
    · rename_i h0
      exact .refused (Or.inl h0) (by rw [hstate]; decide)
    · exact .retried hstate

end turn

end CacheSystem

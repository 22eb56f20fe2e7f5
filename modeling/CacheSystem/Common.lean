import CacheSystem.Lib.Table
import Mathlib.Algebra.GroupWithZero.Nat
import Mathlib.Algebra.Order.BigOperators.Group.List
import Mathlib.Algebra.Order.Group.Nat

/-!
# Results, exceptions and the environment (`common.h`)

* `OpResult`, `Thrown` : the result codes and what a call can throw. A function that can throw
  returns `Except Thrown α` *beside* the state it leaves, since C++ does not roll back.
* `Env` : what the process cannot choose. The clock is a nondecreasing sequence of readings, one
  for each call of `std::chrono::system_clock::now()` in program order, so it may advance between
  any two readings, inside an operation as well as between operations. The allocator picks the
  address of a new `EventTimer`: never null, never the address of one that is still alive, and
  otherwise anything, so the address of a timer that was freed can come back.
* Times are `std::time_t` in milliseconds, here `Int`; `toInt32` is the narrowing conversion to
  `int32_t`, and `expireMillisecondsOfTimestamp` goes through it. A timer id is the address of its
  `EventTimer`, here `Nat`, with `0` for "no timer".
-/

namespace CacheSystem

/-- Source: `common.h`, `OpResult`. -/
inductive OpResult
  | kOperationOk
  | kOperationDefer
  | kOperationRetry
  | kOperationErrorArgument
  | kOperationErrorNoData
  deriving DecidableEq, Repr

/-- The number behind the enumerator, as `set_result` stores it. -/
def OpResult.code : OpResult → UInt32
  | .kOperationOk => 0
  | .kOperationDefer => 1
  | .kOperationRetry => 2
  | .kOperationErrorArgument => 3
  | .kOperationErrorNoData => 4

/-- Source: `common.h`, `Exception::Code`. -/
inductive ErrorCode
  | kErrorOutOfRange
  | kErrorIllArgument
  | kErrorSysRoutine
  | kErrorReadFormat
  | kErrorIllUsage
  | kErrorRead
  | kErrorWrite
  deriving DecidableEq, Repr

/-- What a call can throw: a `csn::Exception`, a `netLink::Exception` (a failed send), or the
`std::bad_function_call` of an empty `std::function`. These are the three kinds that
`CATCH_EXPTIONS` catches in the server's and the client's loop. -/
inductive Thrown
  | csn (code : ErrorCode) (describe : String)
  | netLink
  | badFunctionCall
  deriving DecidableEq, Repr

/-- The conversion to `int32_t`: the value modulo `2 ^ 32` that lies in `[-2 ^ 31, 2 ^ 31)`. -/
def toInt32 (x : Int) : Int := x.bmod (2 ^ 32)

/-- The conversion to `int32_t` is exact where the value fits. -/
theorem toInt32_of_mem {x : Int} (h₁ : -(2 ^ 31) ≤ x) (h₂ : x < 2 ^ 31) : toInt32 x = x := by
  unfold toInt32
  rw [Int.bmod_eq_of_le] <;> omega

/-- Source: `common.h`, `expire_milliseconds_of_timestamp`, at this reading of the clock: the
difference of two `std::time_t`, a value modulo `2 ^ 64`, cast to `int32_t`. -/
def expireMillisecondsOfTimestamp (t now : Int) : Int := toInt32 ((t - now).bmod (2 ^ 64))

/-- Only the difference modulo `2 ^ 32` counts. -/
theorem expireMillisecondsOfTimestamp_eq (t now : Int) :
    expireMillisecondsOfTimestamp t now = (t - now).bmod (2 ^ 32) :=
  Int.bmod_bmod_of_dvd (Nat.pow_dvd_pow 2 (by decide))

/-- The environment of the process: its clock and its allocator. -/
structure Env where
  /-- The `n`-th reading of the clock. -/
  reading : Nat → Int
  /-- The clock does not go back. -/
  mono : ∀ ⦃m n : Nat⦄, m ≤ n → reading m ≤ reading n
  /-- The address of the `n`-th timer allocated, given the addresses in use. -/
  pick : Nat → List Nat → Nat
  /-- No object has the null address. -/
  pick_ne_zero : ∀ n live, pick n live ≠ 0
  /-- Two live objects have different addresses. -/
  pick_fresh : ∀ n live, pick n live ∉ live

/-- An allocator: one more than the sum of the addresses in use. -/
def nextAddress (_ : Nat) (live : List Nat) : Nat := live.sum + 1

theorem nextAddress_fresh (n : Nat) (live : List Nat) : nextAddress n live ∉ live := by
  intro h
  have hle : live.sum + 1 ≤ live.sum := List.le_sum_of_mem h
  omega

/-- An environment from a clock, with the allocator `nextAddress`. -/
def Env.ofClock (reading : Nat → Int) (mono : ∀ ⦃m n : Nat⦄, m ≤ n → reading m ≤ reading n) :
    Env where
  reading := reading
  mono := mono
  pick := nextAddress
  pick_ne_zero _ _ := Nat.succ_ne_zero _
  pick_fresh := nextAddress_fresh

/-- A clock that stands still. -/
def stillClock : Env := Env.ofClock (fun _ => 0) fun _ _ _ => le_rfl

/-- A clock that stands at 0 for `k` readings and at `later` from then on. -/
def jumpClock (k later : Nat) : Env :=
  Env.ofClock (fun n => if n < k then 0 else (later : Int)) fun a b h => by
    split_ifs <;> omega

/-- A clock that leaps: for each `(k, d)` it has gone on by `d` before its `k`-th reading. -/
def leapClock (leaps : List (Nat × Nat)) : Env :=
  Env.ofClock (fun n => ((leaps.map fun l => if l.1 ≤ n then l.2 else 0).sum : Nat)) fun a b h => by
    refine Int.ofNat_le.mpr (List.sum_le_sum fun l _ => ?_)
    split_ifs <;> omega

end CacheSystem

import Mathlib.Logic.Basic

/-!
# The macro `unlikely` (`common.h`)

The preprocessor pastes the tokens of an argument into the body of a macro, and the precedence of
the operators decides afterwards what belongs together. On Windows the argument stands in the body
without parentheses.

* `Token`, `CExpr`, `parse` : the tokens of a condition, and C's reading of them.
* `Platform.unlikely` : the two bodies of the macro.
* `Platform.guard` : whether the condition `unlikely(x)` holds; `guard_linux_bool` and the lemmas
  after it say what that comes to for the arguments that the source has.
-/

namespace CacheSystem

/-! ## Conditions -/

/-- The binary operators of the conditions. -/
inductive BinaryOp
  | or
  | eq
  | le
  deriving DecidableEq, Repr

/-- What binds tighter has the higher number. -/
def BinaryOp.precedence : BinaryOp → Nat
  | .or => 1
  | .eq => 2
  | .le => 3

/-- The tokens of a condition. An operand stands with its postfix operators, which bind tighter than
all other operators, and for the value that it has. -/
inductive Token
  | operand (value : Int)
  | not
  | binary (op : BinaryOp)
  | lparen
  | rparen
  | comma
  | builtinExpect
  deriving DecidableEq, Repr

/-- A condition. -/
inductive CExpr
  | operand (value : Int)
  | not (e : CExpr)
  | binary (op : BinaryOp) (e₁ e₂ : CExpr)
  | builtinExpect (e expected : CExpr)
  deriving DecidableEq, Repr

/-- Its value. A truth value is 0 or 1, and what is not 0 is true. `__builtin_expect` has the value
of its first argument. -/
def CExpr.eval : CExpr → Int
  | .operand value => value
  | .not e => if e.eval = 0 then 1 else 0
  | .binary .or e₁ e₂ => if e₁.eval = 0 ∧ e₂.eval = 0 then 0 else 1
  | .binary .eq e₁ e₂ => if e₁.eval = e₂.eval then 1 else 0
  | .binary .le e₁ e₂ => if e₁.eval ≤ e₂.eval then 1 else 0
  | .builtinExpect e _ => e.eval

mutual

/-- An operand with the `!` before it; the first argument bounds the depth. -/
def parseUnary : Nat → List Token → Option (CExpr × List Token)
  | _ + 1, .operand value :: rest => some (.operand value, rest)
  | fuel + 1, .not :: rest => (parseUnary fuel rest).map fun r => (.not r.1, r.2)
  | fuel + 1, .lparen :: rest =>
      match parseBinary fuel 0 rest with
      | some (e, .rparen :: rest) => some (e, rest)
      | _ => none
  | fuel + 1, .builtinExpect :: .lparen :: rest =>
      match parseBinary fuel 0 rest with
      | some (e, .comma :: rest) =>
          match parseBinary fuel 0 rest with
          | some (expected, .rparen :: rest) => some (.builtinExpect e expected, rest)
          | _ => none
      | _ => none
  | _, _ => none

/-- Operands between operators of at least this precedence. -/
def parseBinary : Nat → Nat → List Token → Option (CExpr × List Token)
  | fuel + 1, precedence, tokens =>
      match parseUnary fuel tokens with
      | some (e, rest) => parseOperators fuel precedence e rest
      | none => none
  | 0, _, _ => none

/-- What follows the operand `e`; operators of one precedence group from the left. -/
def parseOperators : Nat → Nat → CExpr → List Token → Option (CExpr × List Token)
  | fuel + 1, precedence, e, .binary op :: rest =>
      if op.precedence < precedence then some (e, .binary op :: rest)
      else
        match parseBinary fuel (op.precedence + 1) rest with
        | some (e', rest) => parseOperators fuel precedence (.binary op e e') rest
        | none => none
  | _ + 1, _, e, rest => some (e, rest)
  | 0, _, _, _ => none

end

/-- C's reading of a condition. -/
def parse (tokens : List Token) : Option CExpr :=
  match parseBinary (3 * tokens.length + 3) 0 tokens with
  | some (e, []) => some e
  | _ => none

/-! ## The macro -/

/-- Source: `common.h`, `OS_WINDOWS` and `OS_LINUX`. -/
inductive Platform
  | windows
  | linux
  deriving DecidableEq, Repr

/-- Source: `common.h`, the two definitions of `unlikely`. -/
def Platform.unlikely (x : List Token) : Platform → List Token
  | .windows => [.lparen, .not] ++ x ++ [.rparen]
  | .linux =>
      [.builtinExpect, .lparen, .not, .not, .lparen] ++ x ++
        [.rparen, .comma, .operand 0, .rparen]

/-- The condition `unlikely(x)` holds. -/
def Platform.guard (os : Platform) (x : List Token) : Bool :=
  match parse (os.unlikely x) with
  | some e => e.eval ≠ 0
  | none => false

section guard

/-- `unlikely(b)` for a `bool`. -/
theorem guard_linux_bool (b : Bool) : Platform.linux.guard [.operand b.toInt] = b := by
  cases b <;> rfl

/-- `(!b)` -/
theorem guard_windows_bool (b : Bool) : Platform.windows.guard [.operand b.toInt] = !b := by
  cases b <;> rfl

/-- `unlikely(!m || !n)` -/
theorem guard_linux_or (m n : Int) :
    Platform.linux.guard [.not, .operand m, .binary .or, .not, .operand n] =
      decide (m = 0 ∨ n = 0) := by
  have hparse : parse (Platform.linux.unlikely
      [.not, .operand m, .binary .or, .not, .operand n]) =
        some (.builtinExpect (.not (.not (.binary .or (.not (.operand m)) (.not (.operand n)))))
          (.operand 0)) := rfl
  simp only [Platform.guard, hparse, CExpr.eval]
  by_cases hm : m = 0 <;> by_cases hn : n = 0 <;> simp [hm, hn]

/-- `(!!m || !n)`: the two negations of `m` cancel. -/
theorem guard_windows_or (m n : Int) :
    Platform.windows.guard [.not, .operand m, .binary .or, .not, .operand n] =
      decide (m ≠ 0 ∨ n = 0) := by
  have hparse : parse (Platform.windows.unlikely
      [.not, .operand m, .binary .or, .not, .operand n]) =
        some (.binary .or (.not (.not (.operand m))) (.not (.operand n))) := rfl
  simp only [Platform.guard, hparse, CExpr.eval]
  by_cases hm : m = 0 <;> by_cases hn : n = 0 <;> simp [hm, hn]

/-- `unlikely(m <= 0)` -/
theorem guard_linux_le (m : Int) :
    Platform.linux.guard [.operand m, .binary .le, .operand 0] = decide (m ≤ 0) := by
  have hparse : parse (Platform.linux.unlikely [.operand m, .binary .le, .operand 0]) =
      some (.builtinExpect (.not (.not (.binary .le (.operand m) (.operand 0)))) (.operand 0)) :=
    rfl
  simp only [Platform.guard, hparse, CExpr.eval]
  by_cases hm : m ≤ 0 <;> simp [hm]

/-- `(!m <= 0)`: it is `!m`, 0 or 1, that is compared. -/
theorem guard_windows_le (m : Int) :
    Platform.windows.guard [.operand m, .binary .le, .operand 0] = decide (m ≠ 0) := by
  have hparse : parse (Platform.windows.unlikely [.operand m, .binary .le, .operand 0]) =
      some (.binary .le (.not (.operand m)) (.operand 0)) := rfl
  simp only [Platform.guard, hparse, CExpr.eval]
  by_cases hm : m = 0 <;> simp [hm]

/-- `unlikely(b == false)` -/
theorem guard_linux_eq (b : Bool) :
    Platform.linux.guard [.operand b.toInt, .binary .eq, .operand 0] = !b := by
  cases b <;> rfl

/-- `(!b == false)`: it is `!b` that is compared. -/
theorem guard_windows_eq (b : Bool) :
    Platform.windows.guard [.operand b.toInt, .binary .eq, .operand 0] = b := by
  cases b <;> rfl

end guard

end CacheSystem

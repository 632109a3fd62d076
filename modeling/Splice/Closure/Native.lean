import Splice.Closure.Basic

/-!
# Closures over native functions

Constants, and applications of functions of the surrounding program to operands.
-/

namespace Splice.Closure

open Handle (argument)

/-- A fixed value of a given type; nothing at all if the type is void. -/
def constantTyped (ty : Ty) (v : Value) : Except CompositionError Closure := do
  if ty = .void then constantVoid else wire (← Handle.constant ty v) []

/-- A fixed value of its own type. -/
def constant (v : Value) : Except CompositionError Closure := constantTyped v.staticTy v

/-- Applies a function to operands of any types. -/
def native (ret : Ty) (args : List Expr) (run : List Value → Exec Value) :
    Except CompositionError Closure := do
  fold (← Handle.native (args.map Expr.ty) ret run) args

/-- Applies a function of one value. -/
def unary (ret : Ty) (a : Expr) (run : Value → Exec Value) : Except CompositionError Closure :=
  native ret [a] fun args => run (argument args 0)

/-- Applies a function of two values. -/
def binary (ret : Ty) (a b : Expr) (run : Value → Value → Exec Value) :
    Except CompositionError Closure :=
  native ret [a, b] fun args => run (argument args 0) (argument args 1)

/-- Applies a test of one value. -/
def predicate (a : Expr) (run : Value → Exec Bool) : Except CompositionError Closure :=
  unary .bool a fun v => .bool <$> run v

/-- Applies a test of two values. -/
def biPredicate (a b : Expr) (run : Value → Value → Exec Bool) :
    Except CompositionError Closure :=
  binary .bool a b fun v w => .bool <$> run v w

/-- Runs a function without arguments for its result. -/
def supplier (ret : Ty) (run : Exec Value) : Except CompositionError Closure :=
  native ret [] fun _ => run

/-- Runs a function without arguments for its effects. -/
def runnable (run : Exec Unit) : Except CompositionError Closure :=
  native .void [] fun _ => do run; return .unit

/-- Applies a comparison of two values; its result is `-1`, `0` or `1`. -/
def comparator (a b : Expr) (run : Value → Value → Exec Ordering) :
    Except CompositionError Closure :=
  binary .int a b fun v w => Value.ofOrdering <$> run v w

/-- Applies an integer function. -/
def intUnary (a : Expr) (run : Int32 → Int32) : Except CompositionError Closure :=
  unary .int a fun v => return .int (run (← v.expectInt))

/-- Applies an integer test. -/
def intPredicate (a : Expr) (run : Int32 → Bool) : Except CompositionError Closure :=
  unary .bool a fun v => return .bool (run (← v.expectInt))

end Splice.Closure

import Splice.Closure.Native
import Splice.Closure.Unifier
import Splice.Handle.Branch

/-!
# Branches and boolean closures

A conditional runs its condition and then one of two closures. Conjunction and disjunction are
conditionals, so an operand runs only when those before it leave the result open.
-/

namespace Splice.Closure

/-- Refuses a closure that does not produce the type of its role. -/
def expectType (role : Role) (c : Closure) (ty : Ty) : Except CompositionError Unit :=
  require (c.ty = ty) (.roleType role ty c.ty)

/-- Runs the condition, then only the selected branch. -/
def ifThenElse (cond accept reject : Expr) : Except CompositionError Closure := do
  require (cond.ty = .bool) (.conditionType cond.ty)
  let accept ← accept.asClosure
  let reject ← reject.asClosure
  expectType .elseBranch reject accept.ty
  let u := Unifier.ofSources [accept.args, reject.args]
  let guard ← Handle.guardWithTest (← Handle.identity .bool)
    (← (← u.align 0 accept).handle.dropArgs 0 [.bool])
    (← (← u.align 0 reject).handle.dropArgs 0 [.bool])
  fold guard (cond :: u.vars.map Expr.var)

/-- Runs the condition, and the branch for its effects if the condition holds. -/
def ifThen (cond accept : Expr) : Except CompositionError Closure := do
  let accept ← (← accept.asClosure).cast .void
  ifThenElse cond accept (← constantVoid)

/-- The opposite of a boolean operand. -/
def negation (a : Expr) : Except CompositionError Closure :=
  unary .bool a fun v => return .bool (!(← v.expectBool))

/-- Whether both operands hold; the second one runs only if the first one holds. -/
def conj (a b : Expr) : Except CompositionError Closure := do
  ifThenElse a b (← constant (.bool false))

/-- Whether one of two operands holds; the second one runs only if the first one does not hold. -/
def disj (a b : Expr) : Except CompositionError Closure := do
  ifThenElse a (← constant (.bool true)) b

/-- Whether all operands hold. They run from left to right, up to the first that does not. -/
def allOf : List Expr → Except CompositionError Closure
  | [] => constant (.bool true)
  | [a] => a.asClosure
  | a :: rest => do conj a (← allOf rest)

/-- Whether some operand holds. They run from left to right, up to the first that does. -/
def anyOf : List Expr → Except CompositionError Closure
  | [] => constant (.bool false)
  | [a] => a.asClosure
  | a :: rest => do disj a (← anyOf rest)

end Splice.Closure

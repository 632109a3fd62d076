import Splice.Closure.Compare
import Splice.Handle.Recovery
import Splice.Store.Text

/-!
# Arithmetic, texts and errors

Sums and products of operands of one type, the concatenation of texts, the written form of an
operand, and the throwing of an error that an operand produces.
-/

namespace Splice

/-- The sum of two numbers of one kind, wrapping for integers; the concatenation of the written
forms of anything else. -/
def Value.plus : Value → Value → Exec Value
  | .int a, .int b => return .int (a + b)
  | .long a, .long b => return .long (a + b)
  | .double a, .double b => return .double (a + b)
  | a, b => do
    let left ← Exec.textOf a
    let right ← Exec.textOf b
    Exec.newStr (left ++ right)

/-- The product of two numbers of one kind, wrapping for integers. -/
def Value.times : Value → Value → Except Fault Value
  | .int a, .int b => .ok (.int (a * b))
  | .long a, .long b => .ok (.long (a * b))
  | .double a, .double b => .ok (.double (a * b))
  | a, b => .error (.notMultiplied a.kind b.kind)

namespace Closure

/-- The sum of two numeric operands of one type, or the concatenation of two texts. -/
def plus (a b : Expr) : Except CompositionError Closure := do
  let ty ← commonTy .plus a b
  demand .plus a (ty.isNumeric || ty = .str)
  binary ty a b Value.plus

/-- The product of two numeric operands of one type. -/
def mul (a b : Expr) : Except CompositionError Closure := do
  let ty ← commonTy .mul a b
  demand .mul a ty.isNumeric
  binary ty a b fun v w => v.times w

/-- The written form of an operand. -/
def toText (a : Expr) : Except CompositionError Closure :=
  unary .str a fun v => do Exec.newStr (← Exec.textOf v)

/-- Throws the error that an operand produces. It is declared to produce any type wanted. -/
def throwing (ret : Ty) (error : Expr) : Except CompositionError Closure := do
  fold (← Handle.throwing ret) [error]

end Closure

end Splice

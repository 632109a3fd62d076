import Splice.Closure.Native
import Splice.Value.Equality

/-!
# Comparing operands

Identity, equality, order and hash codes of operands, and tests of a single operand.
-/

namespace Splice.Closure

/-- The common type of two operands, refused if they differ. -/
def commonTy (op : Operator) (a b : Expr) : Except CompositionError Ty :=
  if a.ty = b.ty then .ok a.ty else .error (.operandTypes op a.ty b.ty)

/-- Refuses an operand whose type the operation is not defined for. -/
def demand (op : Operator) (a : Expr) (defined : Bool) : Except CompositionError Unit :=
  require defined (.undefinedOperator op a.ty)

/-- Whether two operands of one type are the same object, or equal primitives. -/
def same (a b : Expr) : Except CompositionError Closure := do
  let _ ← commonTy .same a b
  binary .bool a b fun v w => return .bool (v.same w)

/-- Whether two operands of one type are equal. -/
def equals (a b : Expr) : Except CompositionError Closure := do
  let _ ← commonTy .equals a b
  binary .bool a b fun v w => return .bool (v.equals w)

/-- The order of two operands of one type, as `-1`, `0` or `1`. -/
def compare (a b : Expr) : Except CompositionError Closure := do
  let _ ← commonTy .compare a b
  comparator a b fun v w => v.compare w

/-- The hash code of an operand. -/
def hashCode (a : Expr) : Except CompositionError Closure :=
  unary .int a fun v => return .int v.hash

/-- Whether an operand of a reference type is null. -/
def isNull (a : Expr) : Except CompositionError Closure := do
  demand .isNull a a.ty.isReference
  unary .bool a fun v => return .bool v.isNull

/-- Whether an operand of a reference type is not null. -/
def isNotNull (a : Expr) : Except CompositionError Closure := do
  demand .isNotNull a a.ty.isReference
  unary .bool a fun v => return .bool (!v.isNull)

/-- Whether an operand is a value of a type other than null. -/
def instanceOf (a : Expr) (ty : Ty) : Except CompositionError Closure :=
  unary .bool a fun v => return .bool (!v.isNull && ty.admits v)

end Splice.Closure

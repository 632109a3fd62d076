import Splice.Closure.Arithmetic
import Splice.Closure.Record
import Splice.Scope.Build

/-!
# Field-wise totals

The sum of a record's integer fields, and the addition of one record's numeric fields to another's.
-/

namespace Splice.Fieldwise

open Closure (getField)

/-- Adds the given fields to a sum so far, one statement after the other. -/
def addFields (s : Schema) (data : Var) : List Field → Var → Scoped Var
  | [], sum => return sum
  | field :: rest, sum => do
    let value ← Scoped.assign (← getField s field.name data)
    let sum ← Scoped.assign (← Closure.plus sum value)
    addFields s data rest sum

/-- The handle `(record) -> int` that sums all fields of type `int`. -/
def sumFields (s : Schema) : Compose Handle :=
  Scoped.function do
    let data ← Scoped.addParam s.ty
    let sum ← Scoped.assign (← Closure.constant (.int 0))
    return ← addFields s data (s.fields.filter (·.ty = .int)) sum

/-- The handle `(record, record) -> void` that adds each numeric field of the second record to the
same field of the first. -/
def addCounters (s : Schema) : Compose Handle :=
  Scoped.function do
    let total ← Scoped.addParam s.ty
    let delta ← Scoped.addParam s.ty
    (s.fields.filter (·.ty.isNumeric)).forM fun field => do
      let sum ← Closure.plus (← getField s field.name total) (← getField s field.name delta)
      let _ ← Scoped.assign (← Closure.setField s field.name total sum)
    return ← Closure.constantVoid

end Splice.Fieldwise

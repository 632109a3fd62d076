import Splice.Closure.Branch
import Splice.Closure.Compare
import Splice.Closure.Record
import Splice.Scope.Build

/-!
# Field-wise order

The lexicographic order of the records of one schema: fields are compared in declaration order up
to the first difference, and none at all for one and the same record.
-/

namespace Splice.Fieldwise

open Closure (getField)

/-- The comparison of two records by the given fields, in order. -/
def compareFields (s : Schema) (this that : Var) : List Field → Compose Closure
  | [] => Closure.constant (.int 0)
  | field :: rest => do
    let later ← compareFields s this that rest
    Scoped.block do
      let result ← Scoped.assign <| ← Closure.compare
        (← getField s field.name this) (← getField s field.name that)
      let tie ← Closure.equals result (← Closure.constant (.int 0))
      return ← Closure.ifThenElse tie later result

/-- The comparison of two records by all fields. -/
def compareClosure (s : Schema) (this that : Var) : Compose Closure := do
  let later ← compareFields s this that s.fields
  Closure.ifThenElse (← Closure.same this that) (← Closure.constant (.int 0)) later

/-- The handle `(record, record) -> int` of the field-wise order. -/
def compare (s : Schema) : Compose Handle :=
  Scoped.function do
    let this ← Scoped.addParam s.ty
    let that ← Scoped.addParam s.ty
    return ← compareClosure s this that

end Splice.Fieldwise

import Splice.Closure.Branch
import Splice.Closure.Arithmetic
import Splice.Closure.Record
import Splice.Scope.Build

/-!
# Field-wise equality and hash codes

Operations on the records of one schema that are composed from its field list: equality of all
fields, and the hash code that goes with it.
-/

namespace Splice.Fieldwise

open Closure (getField)

/-- Whether all fields of two records of one schema are equal, for a second operand of any type
that can be cast to the record type. -/
def fieldsEqual (s : Schema) (this that : Var) : Compose Closure :=
  Scoped.block do
    let other ← Scoped.assign (← (← that.asClosure).cast s.ty)
    let equalities ← s.fields.mapM fun field => do
      Closure.equals (← getField s field.name this) (← getField s field.name other)
    return ← Closure.allOf (equalities.map Expr.closure)

/-- Whether `that` is a record of the schema and either `this` itself or equal in all fields. -/
def equalsClosure (s : Schema) (this that : Var) : Compose Closure := do
  let allEqual ← fieldsEqual s this that
  let same ← Closure.same this (← (← that.asClosure).cast s.ty)
  Closure.allOf [← Closure.instanceOfSchema that s, ← Closure.disj same allEqual]

/-- The handle `(record, any) -> bool` of field-wise equality. -/
def equals (s : Schema) : Compose Handle :=
  Scoped.function do
    let this ← Scoped.addParam s.ty
    let that ← Scoped.addParam .any
    return ← equalsClosure s this that

/-- The polynomial over the hash codes of the given fields, from a hash code so far. -/
def mixFields (s : Schema) (this : Var) (fields : List Field) (start : Closure) :
    Except CompositionError Closure :=
  fields.foldlM
    (fun hash field => do
      let fieldHash ← Closure.hashCode (← getField s field.name this)
      Closure.plus (← Closure.mul hash (← Closure.constant (.int 31))) fieldHash)
    start

/-- The polynomial over the hash codes of all fields in declaration order, from zero. -/
def hashClosure (s : Schema) (this : Var) : Except CompositionError Closure := do
  mixFields s this s.fields (← Closure.constant (.int 0))

/-- The handle `(record) -> int` of the field-wise hash code. -/
def hashCode (s : Schema) : Compose Handle :=
  Scoped.function do
    let this ← Scoped.addParam s.ty
    return ← hashClosure s this

end Splice.Fieldwise

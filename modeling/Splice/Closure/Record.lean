import Splice.Closure.Native
import Splice.Schema.Define
import Splice.Store.Record

/-!
# Closures over records

Creating records and reading and writing their fields. A field is resolved to its position when the
closure is composed; when it runs, the operand must be a record of that very schema.
-/

namespace Splice.Closure

open Handle (argument)

/-- Creates a record from operands, one for each field in declaration order. -/
def newInstance (s : Schema) (args : List Expr) : Except CompositionError Closure := do
  fold (← Handle.native s.fieldTypes s.ty s.instantiate) args

/-- Reads a field of a record. -/
def getField (s : Schema) (name : String) (object : Expr) : Except CompositionError Closure := do
  let (index, field) ← s.field name
  let handle ← Handle.native [s.ty] field.ty fun args => do
    (← s.expectInstance (argument args 0)).get index
  fold handle [object]

/-- Writes a field of a record. -/
def setField (s : Schema) (name : String) (object value : Expr) :
    Except CompositionError Closure := do
  let (index, field) ← s.field name
  let handle ← Handle.native [s.ty, field.ty] .void fun args => do
    (← s.expectInstance (argument args 0)).set index (argument args 1)
    return .unit
  fold handle [object, value]

/-- Whether a value is a record of this very schema. -/
def instanceOfSchema (a : Expr) (s : Schema) : Except CompositionError Closure :=
  unary .bool a fun v => return .bool (s.isInstance v)

end Splice.Closure

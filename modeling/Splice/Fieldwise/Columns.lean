import Splice.Closure.Array
import Splice.Closure.Record
import Splice.Scope.Build

/-!
# Records kept in columns

A growable list of the records of one schema that holds one array per field instead of the records
themselves. Reading, writing and resizing are handles composed from the schema's field list. What
is read is a new record with the field values that were written.
-/

namespace Splice

open Closure (getField getElement setElement)

/-- The composed operations on the columns of one schema. The columns are an array of arrays, one
for each field in declaration order. -/
structure ColumnAccess where
  schema : Schema
  /-- `(columns, index) -> record` -/
  read : Handle
  /-- `(columns, index, record) -> void` -/
  write : Handle
  /-- `(columns, capacity) -> void` -/
  resize : Handle

namespace ColumnAccess

/-- The type of the columns. -/
def columnsTy : Ty := .array .any

/-- Takes the column of a field out of the columns, as an array of the field's type. -/
def column (columns : Var) (position : Var) (ty : Ty) : Scoped Var := do
  Scoped.assign (← (← getElement columns position).cast (.array ty))

/-- A position as an `int` variable. -/
def positionVar (position : Nat) : Scoped Var := do
  Scoped.assign (← Closure.constant (.int (Int32.ofNat position)))

/-- The handle that reads the record at an index. -/
def composeRead (s : Schema) : Compose Handle :=
  Scoped.function do
    let columns ← Scoped.addParam columnsTy
    let index ← Scoped.addParam .int
    let values ← s.fields.zipIdx.mapM fun (field, position) => do
      let array ← column columns (← positionVar position) field.ty
      Scoped.assign (← getElement array index)
    return ← Closure.newInstance s (values.map Expr.var)

/-- The handle that writes the fields of a record at an index. -/
def composeWrite (s : Schema) : Compose Handle :=
  Scoped.function do
    let columns ← Scoped.addParam columnsTy
    let index ← Scoped.addParam .int
    let record ← Scoped.addParam s.ty
    s.fields.zipIdx.forM fun (field, position) => do
      let array ← column columns (← positionVar position) field.ty
      let value ← Scoped.assign (← getField s field.name record)
      let _ ← Scoped.assign (← setElement array index value)
    return ← Closure.constantVoid

/-- The handle that replaces every column by a copy of another length. -/
def composeResize (s : Schema) : Compose Handle :=
  Scoped.function do
    let columns ← Scoped.addParam columnsTy
    let capacity ← Scoped.addParam .int
    s.fields.zipIdx.forM fun (field, position) => do
      let position ← positionVar position
      let array ← column columns position field.ty
      let resized ← Scoped.assign (← (← Closure.arrayCopyOf array capacity).cast .any)
      let _ ← Scoped.assign (← setElement columns position resized)
    return ← Closure.constantVoid

/-- Composes the operations for a schema. -/
def compose (s : Schema) : Compose ColumnAccess := do
  let read ← composeRead s
  let write ← composeWrite s
  return ⟨s, read, write, ← composeResize s⟩

end ColumnAccess

/-- A growable list of records of one schema, kept in columns. The columns have `capacity` elements
each, of which the first `length` are in use. -/
structure ColumnList where
  access : ColumnAccess
  columns : Value
  length : Nat := 0
  capacity : Nat := 0

/-- A new list without records. -/
def ColumnAccess.newList (access : ColumnAccess) : Exec ColumnList := do
  let columns ← access.schema.fields.mapM fun field => Value.array <$> ArrayRef.new field.ty 0
  return { access, columns := .array (← ArrayRef.ofList .any columns) }

namespace ColumnList

/-- The capacity that a list has at least once it holds a record. -/
def leastCapacity : Nat := 10

/-- A position as an `int`, which must be able to express it. -/
def intIndex (index : Nat) : Except Fault Int32 :=
  if index < 0x80000000 then .ok (Int32.ofNat index) else .error (.indexTooLarge index)

/-- The record at an index, as a new object. -/
def get (l : ColumnList) (index : Nat) : Exec Value := do
  if l.length ≤ index then Exec.raise (.indexOutside index l.length)
  else l.access.read.invoke 0 [l.columns, .int (← intIndex index)]

/-- The list with room for one more record; the capacity doubles when the list is full. -/
def reserve (l : ColumnList) : Exec ColumnList := do
  if l.length < l.capacity then return l
  let capacity := max (2 * l.length) leastCapacity
  let _ ← l.access.resize.invoke 0 [l.columns, .int (← intIndex capacity)]
  return { l with capacity }

/-- Appends a record. The exception reported, if any, is the reason why it was not appended; the
list may have grown nevertheless. -/
def push (l : ColumnList) (record : Value) : Exec (ColumnList × Option Exception) := do
  match ← l.reserve.attempt with
  | .error e => return (l, some e)
  | .ok l =>
    let write : Exec Value := do
      l.access.write.invoke 0 [l.columns, .int (← intIndex l.length), record]
    match ← write.attempt with
    | .error e => return (l, some e)
    | .ok _ => return ({ l with length := l.length + 1 }, none)

end ColumnList

end Splice

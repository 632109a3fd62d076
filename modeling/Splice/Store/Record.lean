import Splice.Exec
import Splice.Value.Member

/-!
# Records in the world

Creating records from a schema, and reading and writing their fields by position. Both demand a
position that the record has. `Schema.expectInstance` is the check that a value is a record of that
very schema, which the record's static type, being a name, cannot make.
-/

namespace Splice

namespace Schema

/-- The first reason why values in declaration order do not make a record of the schema. -/
def mismatch? (s : Schema) (values : List Value) : Option Fault :=
  if values.length ≠ s.fields.length then
    some (.fieldCount s.name s.fields.length values.length)
  else
    (s.fields.zip values).findSome? fun (field, value) =>
      if field.ty.admits value then none
      else some (.fieldKind s.name field.name field.ty value.kind)

/-- A new record object with given field values, which nobody has checked. -/
def allocate (s : Schema) (values : List Value) : Exec Value := fun w =>
  .ok (.record ⟨s, w.records.size⟩) { w with records := w.records.push values }

/-- A new record with the given field values, in declaration order. -/
def instantiate (s : Schema) (values : List Value) : Exec Value :=
  match s.mismatch? values with
  | none => s.allocate values
  | some fault => Exec.raise fault

/-- A new record with every field at its type's default. -/
def instantiateDefault (s : Schema) : Exec Value := s.allocate (s.fieldTypes.map Ty.default)

/-- Whether a value is a record of this very schema. -/
def isInstance (s : Schema) (v : Value) : Bool :=
  match v with
  | .record r => r.schema = s
  | _ => false

/-- The record that a value is, which must be of this very schema. -/
def expectInstance (s : Schema) (v : Value) : Except Fault Record := do
  let r ← v.expectRecord
  if r.schema = s then return r else throw (.foreignRecord r.schema.name s.name)

theorem expectInstance_ok_iff {s : Schema} {v : Value} {r : Record} :
    s.expectInstance v = .ok r ↔ v = .record r ∧ r.schema = s := by
  cases v <;> simp [expectInstance, Value.expectRecord, Value.orUnexpected, Value.asRecord?, bind,
    Except.bind, pure, Except.pure, throw, throwThe, MonadExceptOf.throw]
  split <;> simp_all
  all_goals grind

end Schema

namespace Record

/-- The fault of a position that the record does not have. -/
def noSuchField (r : Record) (index : Nat) : Fault :=
  .noSuchField r.schema.name r.schema.fields.length index

/-- The value of the field at a position. -/
def get (r : Record) (index : Nat) : Exec Value := do
  match ((← Exec.world).fieldsOf r)[index]? with
  | some v => return v
  | none => Exec.raise (r.noSuchField index)

/-- Writes the field at a position. -/
def set (r : Record) (index : Nat) (v : Value) : Exec Unit := do
  let fields := (← Exec.world).fieldsOf r
  if index < fields.length then Exec.update (·.setFields r (fields.set index v))
  else Exec.raise (r.noSuchField index)

/-- The value of the field of a given name, if the schema has one. -/
def getNamed? (r : Record) (name : String) (w : World) : Option Value := do
  let (index, _) ← r.schema.field? name
  (w.fieldsOf r)[index]?

end Record

end Splice

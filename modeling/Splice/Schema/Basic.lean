import Splice.Ty

/-!
# Record schemas

A schema is the ordered field list of a record type. Two schemas may share a name and even all
fields; the identity tells them apart, while the type of their records is the name alone.
-/

namespace Splice

/-- A named field of a record type. -/
structure Field where
  name : String
  ty : Ty
  deriving DecidableEq

/-- The ordered field list of a record type. Field names are distinct and no field is void. -/
structure Schema where
  /-- Identity: schemas defined separately differ in it. -/
  id : Nat
  name : String
  fields : List Field
  noVoid : ∀ field ∈ fields, field.ty ≠ .void
  distinct : (fields.map Field.name).Nodup
  deriving DecidableEq

namespace Schema

/-- The static type of the schema's records. -/
def ty (s : Schema) : Ty := .record s.name

/-- The types of the fields in declaration order. -/
def fieldTypes (s : Schema) : List Ty := s.fields.map Field.ty

/-- The position of the field of a given name, with its definition. -/
def field? (s : Schema) (name : String) : Option (Nat × Field) :=
  s.fields.zipIdx.findSome? fun (field, index) =>
    if field.name = name then some (index, field) else none

/-- Whether two schemas agree on name and fields, whatever their identity. -/
def sameShape (s t : Schema) : Bool := s.name = t.name && s.fields = t.fields

/-- A record type is never void, so it can be a parameter. -/
theorem ty_ne_void (s : Schema) : s.ty ≠ .void := by simp [ty]

theorem void_notMem_fieldTypes (s : Schema) : Ty.void ∉ s.fieldTypes := by
  intro h
  obtain ⟨field, hmem, hty⟩ := List.mem_map.1 h
  exact s.noVoid field hmem hty

end Schema

end Splice

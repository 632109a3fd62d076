import Splice.Compose

/-!
# Defining schemas

A schema is defined from a list of named types. The first field that is void or repeats an earlier
name refuses it.
-/

namespace Splice.Schema

/-- The schema with one more field at the end. -/
def extend (s : Schema) (field : Field) : Except CompositionError Schema :=
  if hvoid : field.ty = .void then .error (.voidField s.name field.name)
  else if hname : field.name ∈ s.fields.map Field.name then
    .error (.duplicateField s.name field.name)
  else .ok
    { s with
      fields := s.fields ++ [field]
      noVoid := by
        intro f hf
        rcases List.mem_append.1 hf with hf | hf
        · exact s.noVoid f hf
        · rw [List.mem_singleton.1 hf]; exact hvoid
      distinct := by
        rw [List.map_append, List.nodup_append]
        refine ⟨s.distinct, by simp, ?_⟩
        intro a ha b hb heq
        rw [List.map_singleton, List.mem_singleton] at hb
        exact hname (hb ▸ heq ▸ ha) }

/-- The schema of a given identity and name with the given fields. -/
def ofFields (id : Nat) (name : String) (fields : List Field) : Except CompositionError Schema :=
  fields.foldlM extend ⟨id, name, [], by simp, by simp⟩

/-- A new schema. -/
def define (name : String) (fields : List Field) : Compose Schema := do
  ofFields (← Compose.freshSchema) name fields

/-- The position and definition of a field, refused if the schema has no such field. -/
def field (s : Schema) (name : String) : Except CompositionError (Nat × Field) :=
  match s.field? name with
  | some found => .ok found
  | none => .error (.noSuchField s.name name)

end Splice.Schema

/-!
# Static types

`Ty` is the type of a slot: a callable's parameter or result, a record's field, a variable.
Types are compared structurally. `void` marks the absence of a value and is never the type of a
slot that holds one.
-/

namespace Splice

/-- Static type of a slot, of a callable's parameter or of its result. -/
inductive Ty where
  /-- The type of no value at all. -/
  | void
  | bool
  | int
  | long
  | double
  | str
  /-- The erased type, which admits every value. -/
  | any
  | error
  /-- A record type, known by its name alone. -/
  | record (name : String)
  | array (elem : Ty)
  | list (elem : Ty)
  | iterator (elem : Ty)
  deriving DecidableEq, Inhabited

namespace Ty

/-- Booleans and numbers, whose values are never null. -/
def isPrimitive : Ty → Bool
  | bool | int | long | double => true
  | _ => false

/-- The types between which numeric conversions exist. -/
def isNumeric : Ty → Bool
  | int | long | double => true
  | _ => false

/-- The types that admit null. -/
def isReference (ty : Ty) : Bool :=
  ty ≠ void && !ty.isPrimitive

/-- Element type of an array, list or iterator. -/
def element? : Ty → Option Ty
  | array elem | list elem | iterator elem => some elem
  | _ => none

/-- The written form of a type: containers are `T[]`, `List<T>` and `Iterator<T>`, and a record
type is its name. -/
def text : Ty → String
  | void => "void"
  | bool => "bool"
  | int => "int"
  | long => "long"
  | double => "double"
  | str => "string"
  | any => "any"
  | error => "error"
  | record name => name
  | array elem => elem.text ++ "[]"
  | list elem => "List<" ++ elem.text ++ ">"
  | iterator elem => "Iterator<" ++ elem.text ++ ">"

/-- A parameter list in parentheses, as signatures and error messages write it. -/
def tupleText (types : List Ty) : String :=
  "(" ++ ", ".intercalate (types.map text) ++ ")"

theorem not_isReference_void : void.isReference = false := rfl

theorem isReference_eq_false_of_isPrimitive {ty : Ty} (h : ty.isPrimitive = true) :
    ty.isReference = false := by
  simp [isReference, h]

end Ty

end Splice

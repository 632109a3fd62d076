import Splice.Value.Basic

/-!
# Faults

A `Fault` is a cause for which the engine itself makes a running callable fail. Raising one creates
an exception of the fault's class with the fault's message. Exceptions that native callables throw
on their own account are not faults and pass through the engine unaltered.
-/

namespace Splice

/-- A cause for which the engine makes a running callable fail. -/
inductive Fault where
  /-- A value of one kind was needed and another was found. -/
  | unexpected (expected found : Kind)
  /-- Null has no place in the order of values. -/
  | comparedNull
  | incomparable (left right : Kind)
  | indexOutside (index : Int) (length : Nat)
  /-- A position that the `int` type cannot express. -/
  | indexTooLarge (index : Nat)
  | negativeLength (length : Int32)
  | fieldCount (schema : String) (expected given : Nat)
  | fieldKind (schema field : String) (ty : Ty) (found : Kind)
  /-- A record of a schema that only shares the name of the wanted one. -/
  | foreignRecord (found wanted : String)
  | noSuchField (schema : String) (count index : Nat)
  | argumentCount (params : List Ty) (given : Nat)
  | argumentKind (index : Nat) (ty : Ty) (found : Kind)
  | unboxedNull (ty : Ty)
  /-- A downcast failed; `what` is the record's schema name or else the value's kind. -/
  | failedCast (what : String) (ty : Ty)
  | notNumeric (found : Kind) (ty : Ty)
  | sourceNotIterator (found : Kind)
  | iteratedNull
  | thrownNull
  | notMultiplied (left right : Kind)
  deriving DecidableEq

namespace Fault

/-- The class of a fault that reports null where an object was needed. -/
def nullPointer : String := "NullPointerException"

/-- The class of a fault that reports a value of the wrong kind. -/
def classCast : String := "ClassCastException"

/-- The class of a fault that reports a position outside its object. -/
def indexOutOfBounds : String := "IndexOutOfBoundsException"

/-- The class of a fault that reports arguments that do not fit the signature. -/
def wrongMethodType : String := "WrongMethodTypeException"

/-- The exception class of a fault. -/
def cls : Fault → String
  | unexpected _ found => if found = .null then nullPointer else classCast
  | comparedNull => nullPointer
  | incomparable .. => classCast
  | indexOutside .. => indexOutOfBounds
  | indexTooLarge _ => indexOutOfBounds
  | negativeLength _ => "NegativeArraySizeException"
  | fieldCount .. => "IllegalArgumentException"
  | fieldKind .. => classCast
  | foreignRecord .. => classCast
  | noSuchField .. => indexOutOfBounds
  | argumentCount .. => wrongMethodType
  | argumentKind .. => wrongMethodType
  | unboxedNull _ => nullPointer
  | failedCast .. => classCast
  | notNumeric .. => classCast
  | sourceNotIterator _ => nullPointer
  | iteratedNull => nullPointer
  | thrownNull => nullPointer
  | notMultiplied .. => classCast

/-- The exception message of a fault. -/
def message : Fault → String
  | unexpected expected found => s!"expected {expected.text}, found {found.text}"
  | comparedNull => "cannot compare null"
  | incomparable left right => s!"{left.text} is not comparable with {right.text}"
  | indexOutside index length => s!"index {index} out of bounds for length {length}"
  | indexTooLarge index => s!"index {index} exceeds the int range"
  | negativeLength length => s!"array length {length.toInt} is negative"
  | fieldCount schema expected given =>
    "record `" ++ schema ++ s!"` expects {expected} fields but received {given}"
  | fieldKind schema field ty found =>
    "field `" ++ schema ++ "." ++ field ++ s!"` expects {ty.text} but received {found.text}"
  | foreignRecord found wanted =>
    "record of another `" ++ found ++ "` schema cannot be used as `" ++ wanted ++ "`"
  | noSuchField schema count index =>
    "record `" ++ schema ++ s!"` has {count} fields, no field {index}"
  | argumentCount params given =>
    s!"expected {params.length} arguments {Ty.tupleText params} but received {given}"
  | argumentKind index ty found => s!"argument {index} expects {ty.text} but received {found.text}"
  | unboxedNull ty => s!"cannot unbox null to {ty.text}"
  | failedCast what ty => s!"{what} cannot be cast to {ty.text}"
  | notNumeric found ty => s!"{found.text} cannot be converted to {ty.text}"
  | sourceNotIterator found => s!"loop source produced {found.text}"
  | iteratedNull => "cannot iterate null"
  | thrownNull => "cannot throw null"
  | notMultiplied left right => s!"cannot multiply {left.text} by {right.text}"

end Fault

end Splice

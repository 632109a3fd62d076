import Splice.Closure.Native
import Splice.Store.Array

/-!
# Closures over arrays

Creating, measuring, reading, writing and copying arrays. The operand's type must be an array type,
which fixes the type of the elements.
-/

namespace Splice.Closure

open Handle (argument)

/-- The element type of an operand that must be an array. -/
def arrayElement (op : Operator) (array : Expr) : Except CompositionError Ty :=
  match array.ty with
  | .array elem => .ok elem
  | other => .error (.arrayNeeded op other)

/-- Creates an array of a given length, every element at its type's default. -/
def newArray (elem : Ty) (length : Expr) : Except CompositionError Closure := do
  let handle ← Handle.native [.int] (.array elem) fun args => do
    let length ← ArrayRef.checkLength (← (argument args 0).expectInt)
    return .array (← ArrayRef.new elem length)
  fold handle [length]

/-- The number of elements. -/
def arrayLength (array : Expr) : Except CompositionError Closure := do
  let elem ← arrayElement .arrayLength array
  let handle ← Handle.native [.array elem] .int fun args => do
    return .int (Int32.ofNat (← (← (argument args 0).expectArray).length))
  fold handle [array]

/-- The element at an index. -/
def getElement (array index : Expr) : Except CompositionError Closure := do
  let elem ← arrayElement .arrayElement array
  let handle ← Handle.native [.array elem, .int] elem fun args => do
    let array ← (argument args 0).expectArray
    array.get (← (argument args 1).expectInt)
  fold handle [array, index]

/-- Writes the element at an index. -/
def setElement (array index value : Expr) : Except CompositionError Closure := do
  let elem ← arrayElement .arrayElement array
  let handle ← Handle.native [.array elem, .int, elem] .void fun args => do
    let array ← (argument args 0).expectArray
    array.set (← (argument args 1).expectInt) (argument args 2)
    return .unit
  fold handle [array, index, value]

/-- A copy of a given length, cut off or filled up with defaults. -/
def arrayCopyOf (array length : Expr) : Except CompositionError Closure := do
  let elem ← arrayElement .arrayCopy array
  let handle ← Handle.native [.array elem, .int] (.array elem) fun args => do
    let length ← ArrayRef.checkLength (← (argument args 1).expectInt)
    return .array (← (← (argument args 0).expectArray).copyOf length)
  fold handle [array, length]

end Splice.Closure

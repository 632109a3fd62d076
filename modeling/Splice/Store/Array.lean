import Splice.Exec
import Splice.Value.Member

/-!
# Arrays in the world

Arrays have a fixed length and are read and written at an `int` position, which must lie inside.
-/

namespace Splice.ArrayRef

/-- A new array with given elements, which nobody has checked. -/
def ofList (elem : Ty) (items : List Value) : Exec ArrayRef := fun w =>
  .ok ⟨elem, w.arrays.size⟩ { w with arrays := w.arrays.push items }

/-- A new array of a given length, every element at its type's default. -/
def new (elem : Ty) (length : Nat) : Exec ArrayRef :=
  ofList elem (List.replicate length elem.default)

/-- An `int` position as a position inside a sequence of some length. -/
def checkIndex (index : Int32) (length : Nat) : Except Fault Nat :=
  if 0 ≤ index.toInt ∧ index.toInt < length then .ok index.toInt.toNat
  else .error (.indexOutside index.toInt length)

/-- An `int` value as the length of an array. -/
def checkLength (length : Int32) : Except Fault Nat :=
  if 0 ≤ length.toInt then .ok length.toInt.toNat else .error (.negativeLength length)

/-- The elements of an array. -/
def toList (a : ArrayRef) : Exec (List Value) := return (← Exec.world).elementsOf a

/-- The number of elements. -/
def length (a : ArrayRef) : Exec Nat := return (← a.toList).length

/-- The element at a position. -/
def get (a : ArrayRef) (index : Int32) : Exec Value := do
  let items ← a.toList
  let i ← checkIndex index items.length
  return items[i]?.getD a.elem.default

/-- Writes the element at a position. -/
def set (a : ArrayRef) (index : Int32) (v : Value) : Exec Unit := do
  let items ← a.toList
  let i ← checkIndex index items.length
  Exec.update (·.setElements a (items.set i v))

/-- The first `length` elements, followed by defaults if there are fewer. -/
def resized (elem : Ty) (items : List Value) (length : Nat) : List Value :=
  items.take length ++ List.replicate (length - items.length) elem.default

/-- A new array of a given length: a copy, cut off or filled up with defaults. -/
def copyOf (a : ArrayRef) (length : Nat) : Exec ArrayRef := do
  ofList a.elem (resized a.elem (← a.toList) length)

theorem length_resized (elem : Ty) (items : List Value) (length : Nat) :
    (resized elem items length).length = length := by
  simp [resized]; omega

theorem checkIndex_ok_iff {index : Int32} {length i : Nat} :
    checkIndex index length = .ok i ↔ index.toInt = i ∧ i < length := by
  unfold checkIndex
  split
  case isTrue h =>
    rw [Except.ok.injEq]
    omega
  case isFalse h =>
    refine ⟨fun h' => (nomatch h'), fun h' => ?_⟩
    omega

end Splice.ArrayRef

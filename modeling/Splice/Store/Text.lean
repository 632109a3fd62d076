import Splice.Double.Text
import Splice.Exec

/-!
# Written form of values

Scalars and texts are written plainly, lists and arrays in square brackets, and a record as its
schema's name with the fields in braces. The content of mutable objects is read from the world,
one object inside another to a given depth: objects that form a cycle have no written form.
-/

namespace Splice

/-- Items in square brackets. -/
def bracketed (items : List String) : String := "[" ++ ", ".intercalate items ++ "]"

namespace Value

mutual

/-- The written form of a value, given that of the mutable objects with content. -/
def textWith (object : Value → Option String) : Value → Option String
  | unit => some "()"
  | null => some "null"
  | bool b => some (if b then "true" else "false")
  | int i => some (toString i.toInt)
  | long l => some (toString l.toInt)
  | double d => some d.text
  | str _ text => some text
  | list _ items => (textsWith object items).map bracketed
  | iterator _ => some "<iterator>"
  | error e => some e.text
  | record r => object (record r)
  | array a => object (array a)

/-- The written forms of a list of values. -/
def textsWith (object : Value → Option String) : List Value → Option (List String)
  | [] => some []
  | v :: vs => do return (← textWith object v) :: (← textsWith object vs)

end

end Value

/-- A record's written form from those of its fields. -/
def Schema.recordText (s : Schema) (values : List String) : String :=
  s.name ++ "\x7b" ++
    ", ".intercalate ((s.fields.zip values).map fun (field, text) => field.name ++ "=" ++ text) ++
    "\x7d"

namespace World

/-- The written form of a record or an array, with at most `depth` objects inside one another. -/
def objectText? (w : World) : (depth : Nat) → Value → Option String
  | 0, _ => none
  | depth + 1, .record r =>
    (Value.textsWith (objectText? w depth) (w.fieldsOf r)).map r.schema.recordText
  | depth + 1, .array a => (Value.textsWith (objectText? w depth) (w.elementsOf a)).map bracketed
  | _ + 1, _ => none

/-- The written form of a value; none if it holds a cycle of mutable objects. -/
def text? (w : World) (v : Value) : Option String := v.textWith (w.objectText? w.depthBound)

end World

/-- The written form of a value in the present world. A value without one is written for ever. -/
def Exec.textOf (v : Value) : Exec String := do
  match (← Exec.world).text? v with
  | some text => return text
  | none => Exec.unfinished

end Splice

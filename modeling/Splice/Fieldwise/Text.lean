import Splice.Closure.Arithmetic
import Splice.Closure.Record
import Splice.Scope.Build

/-!
# Field-wise text

The written form of a record, composed as a sequence of concatenations, one field after the other.
-/

namespace Splice.Fieldwise

open Closure (getField)

/-- A text constant. Its identity does not matter: it is only ever read to be concatenated. -/
def textConstant (text : String) : Except CompositionError Closure :=
  Closure.constant (.str 0 text)

/-- Appends the fields to a text, each as its name and its value. -/
def appendFields (s : Schema) (this : Var) : (separator : String) → List Field → Var → Scoped Var
  | _, [], text => return text
  | separator, field :: rest, text => do
    let label ← textConstant (separator ++ field.name ++ "=")
    let text ← Scoped.assign (← Closure.plus text label)
    let value ← Closure.toText (← getField s field.name this)
    let text ← Scoped.assign (← Closure.plus text value)
    appendFields s this ", " rest text

/-- The handle `(record) -> string` of the written form. -/
def toText (s : Schema) : Compose Handle :=
  Scoped.function do
    let this ← Scoped.addParam s.ty
    let text ← Scoped.assign (← textConstant (s.name ++ "\x7b"))
    let text ← appendFields s this "" s.fields text
    return ← Closure.plus text (← textConstant "\x7d")

end Splice.Fieldwise

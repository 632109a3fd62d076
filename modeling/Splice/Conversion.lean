import Splice.Fault
import Splice.Value.Member

/-!
# Conversions between types

`Conversion.between?` decides from two static types whether and how results of the first become
results of the second; `Conversion.apply` carries the conversion out on a value.
-/

namespace Splice

/-- A way to turn results of one type into results of another. -/
inductive Conversion where
  /-- Keeps the value as it is. -/
  | identity
  /-- Drops the value. -/
  | discard
  | numeric (target : Ty)
  /-- Checks at run time that the value inhabits the target, converting numbers if need be. -/
  | downcast (target : Ty)
  deriving DecidableEq

namespace Conversion

/-- Whether both types are containers of one sort of which at least one is erased. -/
def erasedPair : Ty → Ty → Bool
  | .array a, .array b | .list a, .list b | .iterator a, .iterator b => a = .any || b = .any
  | _, _ => false

/-- The conversion from one type to another, if there is one. -/
def between? (source target : Ty) : Option Conversion :=
  if source = target then some identity
  else if target = .void then some discard
  else if source = .void then none
  else if source.isNumeric && target.isNumeric then some (numeric target)
  else if target = .any then some identity
  else if source = .any then some (downcast target)
  else if erasedPair source target then some identity
  else none

/-- A number as a value of a numeric type. Widening is exact except for large `long` values in
`double`. Narrowing integers keeps the low bits; narrowing from `double` truncates and clamps. -/
def convertNumber : Value → Ty → Except Fault Value
  | .int i, .int => .ok (.int i)
  | .int i, .long => .ok (.long i.toInt64)
  | .int i, .double => .ok (.double (.ofInt32 i))
  | .long l, .int => .ok (.int l.toInt32)
  | .long l, .long => .ok (.long l)
  | .long l, .double => .ok (.double (.ofInt64 l))
  | .double d, .int => .ok (.int d.toInt32)
  | .double d, .long => .ok (.long d.toInt64)
  | .double d, .double => .ok (.double d)
  | v, target => .error (.notNumeric v.kind target)

/-- How a failed downcast names the value: a record by its schema, anything else by its kind. -/
def subject : Value → String
  | .record r => r.schema.name
  | v => v.kind.text

/-- A value as one of the target type: itself if it inhabits the type, a number converted. -/
def checkDowncast (v : Value) (target : Ty) : Except Fault Value :=
  if target.admits v then .ok v
  else
    match v with
    | .null => .error (.unboxedNull target)
    | .int _ | .long _ | .double _ =>
      if target.isNumeric then convertNumber v target else .error (.failedCast (subject v) target)
    | _ => .error (.failedCast (subject v) target)

/-- Carries a conversion out on a value. -/
def apply : Conversion → Value → Except Fault Value
  | identity, v => .ok v
  | discard, _ => .ok .unit
  | numeric target, v => convertNumber v target
  | downcast target, v => checkDowncast v target

/-- Every type converts to itself without a change. -/
theorem between?_self (ty : Ty) : between? ty ty = some identity := by simp [between?]

theorem checkDowncast_of_admits {v : Value} {target : Ty} (h : target.admits v = true) :
    checkDowncast v target = .ok v := by simp [checkDowncast, h]

end Conversion

end Splice

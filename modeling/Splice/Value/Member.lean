import Splice.Value.Basic

/-!
# Membership of values in types

`Ty.admits` says which values inhabit a type, and `Ty.default` gives the value that a slot of the
type starts with.
-/

namespace Splice.Ty

/-- Zero, `false` or null, depending on the type; no value for `void`. -/
def default : Ty → Value
  | void => .unit
  | bool => .bool false
  | int => .int 0
  | long => .long 0
  | double => .double ⟨0⟩
  | _ => .null

/-- Whether a value inhabits a type.

Null inhabits every reference type, and the erased type admits all but the absence of a value. The
elements of a list are checked one by one unless they are erased. The elements of arrays and
iterators are not: an array may be written to at any time, with any value, and an iterator has not
produced them yet. Records are matched by the name of their schema. -/
def admits : Ty → Value → Bool
  | void, .unit => true
  | bool, .bool _ => true
  | int, .int _ => true
  | long, .long _ => true
  | double, .double _ => true
  | ty, .null => ty.isReference
  | any, .unit => false
  | any, _ => true
  | str, .str _ _ => true
  | error, .error _ => true
  | record name, .record r => r.schema.name = name
  | array _, .array _ => true
  | list elem, .list _ items => elem = any || items.all elem.admits
  | iterator _, .iterator _ => true
  | _, _ => false

/-- Every type admits the value that its slots start with. -/
theorem admits_default (ty : Ty) : ty.admits ty.default = true := by
  cases ty <;> simp [default, admits, isReference, isPrimitive]

theorem admits_null (ty : Ty) : ty.admits .null = ty.isReference := by
  cases ty <;> simp [admits, isReference, isPrimitive]

end Splice.Ty

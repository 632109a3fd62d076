import Splice.Handle.Basic

/-!
# Handles over given results

Combinations that pass the result of a handle to another one or convert it to another type.
-/

namespace Splice.Handle

/-- The parameters that a consumer of results of a type has: one, or none if there is no value. -/
def resultParams (ret : Ty) : List Ty := if ret = .void then [] else [ret]

/-- Passes the result on to a filter, which takes nothing else. -/
def filterReturn (h filter : Handle) : Except CompositionError Handle :=
  if filter.params = resultParams h.ret then
    .ok (filtered (h.sig.returning filter.ret) filter h)
  else .error (.filterMismatch h.sig filter.sig)

/-- Converts the result to another type. -/
def convert (h : Handle) (ty : Ty) : Except CompositionError Handle :=
  match Conversion.between? h.ret ty with
  | none => .error (.noConversion h.sig ty)
  | some conversion =>
    .ok (if h.ret = ty then h else converted (h.sig.returning ty) conversion h)

end Splice.Handle

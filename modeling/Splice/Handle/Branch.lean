import Splice.Handle.Basic

/-!
# Branches over handles

Handles that play a part in a larger one must have the signature of their role. Here are the checks
of that, and the conditional, whose two branches share one signature.
-/

namespace Splice.Handle

/-- Refuses a handle that does not take the parameters of its role. -/
def expectParams (role : Role) (h : Handle) (expected : List Ty) :
    Except CompositionError Unit :=
  require (h.params = expected) (.roleParams role expected h.sig)

/-- Refuses a handle that does not return the type of its role. -/
def expectReturn (role : Role) (h : Handle) (expected : Ty) : Except CompositionError Unit :=
  require (h.ret = expected) (.roleReturn role expected h.sig)

/-- Runs one of two branches, as a test decides, which sees the leading arguments only. -/
def guardWithTest (test accept reject : Handle) : Except CompositionError Handle := do
  expectReturn .guardTest test .bool
  expectParams .elseBranch reject accept.params
  expectReturn .elseBranch reject accept.ret
  require (accept.params.take test.arity = test.params) (.guardMismatch test.sig accept.sig)
  return guarded accept.sig test accept reject

end Splice.Handle

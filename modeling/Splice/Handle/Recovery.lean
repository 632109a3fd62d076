import Splice.Handle.Branch

/-!
# Recovery over handles

Handlers that replace a failure, cleanups that run whichever way a handle ends, and the handle that
throws. Handlers and cleanups take the error, and a cleanup also the result, in front of the
parameters of the whole.
-/

namespace Splice.Handle

/-- Hands an exception of a class to `handler(error, a…)`, whose outcome replaces the failure.
Exceptions of other classes pass. -/
def catchException (h : Handle) (cls : String) (handler : Handle) :
    Except CompositionError Handle := do
  expectParams .exceptionHandler handler (.error :: h.params)
  expectReturn .exceptionHandler handler h.ret
  return catching h.sig cls h handler

/-- The types of the values that a cleanup takes besides the arguments: the error, and the result
if there is one. -/
def cleanupLocals (ret : Ty) : List Ty := if ret = .void then [.error] else [.error, ret]

/-- Runs `cleanup(error, value, a…)` whichever way this handle ends, the error being null after
success and the value a default after failure. A cleanup's result replaces the value; it does not
replace a failure, which goes on after the cleanup. -/
def tryFinally (h cleanup : Handle) : Except CompositionError Handle := do
  expectParams .cleanup cleanup (cleanupLocals h.ret ++ h.params)
  expectReturn .cleanup cleanup h.ret
  return finalized h.sig h cleanup

/-- Throws its only argument. It is declared to return any type wanted. -/
def throwing (ret : Ty) : Except CompositionError Handle :=
  native [.error] ret fun args =>
    match args with
    | .error e :: _ => Exec.throw e
    | _ => Exec.raise .thrownNull

end Splice.Handle

import Splice.Closure.Loop
import Splice.Handle.Recovery

/-!
# Recovery over closures

Handlers that replace a failure and cleanups that run whichever way a closure ends. Like loops they
make variables of their own, for the error and for the result, and wire their pieces to one list of
arguments without them.
-/

namespace Splice.Closure

variable {m : Type → Type} [Monad m] [MonadLiftT Compose m]

/-- Runs `body`, and `handler e` in its place if it fails with an exception `e` of a class. -/
def catchException (body : Expr) (cls : String) (handler : Var → m Closure) : m Closure := do
  let (body, error) ← Compose.within do
    let body ← body.asClosure
    return (body, ← Var.fresh .error)
  let handler ← pieceOver [error] (handler error)
  Compose.within do
    expectType .exceptionHandler handler body.ty
    let u := Unifier.ofSources [body.args, handler.args.drop 1]
    Compose.note s!"catch {cls} over {Var.listText u.vars}"
    let handle ← (← u.align 0 body).handle.catchException cls (← u.align 1 handler).handle
    wire handle u.vars

/-- Runs `body` and then `cleanup e v`, where `e` is the error, or null after success, and `v` the
result, or a default after failure. There is no `v` if the body produces no value. A failure of
the body goes on after the cleanup. -/
def tryFinally (body : Expr) (cleanup : Var → Option Var → m Closure) : m Closure := do
  let (body, error, value) ← Compose.within do
    let body ← body.asClosure
    let error ← Var.fresh .error
    let value ← if body.ty = .void then pure none else some <$> Var.fresh body.ty
    return (body, error, value)
  let locals := error :: value.toList
  let cleanup ← pieceOver locals (cleanup error value)
  Compose.within do
    expectType .cleanup cleanup body.ty
    let u := Unifier.ofSources [body.args, cleanup.args.drop locals.length]
    Compose.note s!"try-finally over {Var.listText u.vars}"
    let handle ← (← u.align 0 body).handle.tryFinally (← u.align locals.length cleanup).handle
    wire handle u.vars

end Splice.Closure

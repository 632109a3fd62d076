import Splice.Closure.Branch
import Splice.Compose
import Splice.Handle.Loop

/-!
# Loops over closures

A loop makes variables for its state and for what it runs over, hands them to the functions that
compose its pieces, and then wires the pieces to one list of arguments. The variables belong to
scopes of their own, so pieces that contain loops see the variables of the loops around them. None
of a loop's own variables is left among its arguments.

The functions that compose the pieces may run in any monad that includes `Compose`.
-/

namespace Splice

/-- A composition step in a monad that includes composition. -/
def Compose.within {m : Type → Type} [MonadLiftT Compose m] (step : Compose α) : m α :=
  monadLift step

namespace Closure

variable {m : Type → Type} [Monad m] [MonadLiftT Compose m]

/-- The state variable of a loop with given initial state. -/
def freshState (init : Closure) : Compose Var := do
  require (init.ty ≠ .void) .voidState
  Var.fresh init.ty

/-- A piece of a loop with the loop's own variables in front of its arguments. -/
def pieceOver (locals : List Var) (piece : m Closure) : m Closure := do
  let c ← piece
  Compose.within (c.withLocals locals)

/-- Starts from `init` and replaces the state `v` by `body v` as long as `pred v` holds. -/
def whileLoop (init : Expr) (pred body : Var → m Closure) : m Closure := do
  let (init, state) ← Compose.within do
    let init ← init.asClosure
    return (init, ← freshState init)
  let pred ← pieceOver [state] (pred state)
  let body ← pieceOver [state] (body state)
  Compose.within do
    let u := Unifier.ofSources [init.args, pred.args.drop 1, body.args.drop 1]
    Compose.note s!"while loop over {Var.listText u.vars}"
    let handle ← Handle.loopWhile (← u.align 0 init).handle (← u.align 1 pred).handle
      (← u.align 1 body).handle
    wire handle u.vars

/-- Like `whileLoop`, with the first test after the first run of the body. -/
def doWhileLoop (init : Expr) (body pred : Var → m Closure) : m Closure := do
  let (init, state) ← Compose.within do
    let init ← init.asClosure
    return (init, ← freshState init)
  let body ← pieceOver [state] (body state)
  let pred ← pieceOver [state] (pred state)
  Compose.within do
    let u := Unifier.ofSources [init.args, body.args.drop 1, pred.args.drop 1]
    Compose.note s!"do-while loop over {Var.listText u.vars}"
    let handle ← Handle.loopDoWhile (← u.align 0 init).handle (← u.align 1 body).handle
      (← u.align 1 pred).handle
    wire handle u.vars

/-- Replaces the state `v` by `body v i` for each `i` from `start` up to, and not with, `stop`. -/
def countedLoop (start stop init : Expr) (body : Var → Var → m Closure) : m Closure := do
  let (start, stop, init, state, index) ← Compose.within do
    let start ← start.asClosure
    let stop ← stop.asClosure
    expectType .loopStart start .int
    expectType .loopEnd stop .int
    let init ← init.asClosure
    let state ← freshState init
    return (start, stop, init, state, ← Var.fresh .int)
  let body ← pieceOver [state, index] (body state index)
  Compose.within do
    let u := Unifier.ofSources [start.args, stop.args, init.args, body.args.drop 2]
    Compose.note s!"counted loop over {Var.listText u.vars}"
    let handle ← Handle.loopCounted (← u.align 0 start).handle (← u.align 0 stop).handle
      (← u.align 0 init).handle (← u.align 2 body).handle
    wire handle u.vars

/-- Replaces the state `v` by `body v x` for each `x` that the iterator has yet to produce. -/
def iteratorLoop (source init : Expr) (body : Var → Var → m Closure) : m Closure := do
  let (source, init, state, element) ← Compose.within do
    let source ← source.asClosure
    let elem ← match source.ty with
      | .iterator elem => pure elem
      | other => throw (.iteratorSource other)
    let init ← init.asClosure
    let state ← freshState init
    return (source, init, state, ← Var.fresh elem)
  let body ← pieceOver [state, element] (body state element)
  Compose.within do
    let u := Unifier.ofSources [source.args, init.args, body.args.drop 2]
    Compose.note s!"iterator loop over {Var.listText u.vars}"
    let handle ← Handle.loopIterated (← u.align 0 source).handle (← u.align 0 init).handle
      (← u.align 2 body).handle
    wire handle u.vars

/-- A new iterator over the elements of a list operand. -/
def iteratorOf (list : Expr) : Except CompositionError Closure :=
  match list.ty with
  | .list elem =>
    unary (.iterator elem) list fun v =>
      match v with
      | .list _ items => Iterator.ofList items
      | _ => Exec.raise .iteratedNull
  | other => .error (.listSource other)

/-- Replaces the state `v` by `body v x` for each element `x` of a list. -/
def iterableLoop (list init : Expr) (body : Var → Var → m Closure) : m Closure := do
  let source ← Compose.within (iteratorOf list)
  iteratorLoop source init body

end Closure

end Splice

import Splice.Scope.Basic

/-!
# Building scopes

A scope becomes one handle over its inputs. The values that are live before a statement are the
inputs and the results of the statements before it; the handle of a statement sequence takes the
live values and is composed from its end. The end picks the returned value out of all live values.
Each statement in front of it computes its result from the live values and appends it to them.
-/

namespace Splice

/-- The number of values that a statement adds to the live ones. -/
def Statement.width (st : Statement) : Nat := if st.var.ty = .void then 0 else 1

namespace Scope

/-- The place of a variable among the first `width` live ones. -/
def visibleAt (live : List Var) (width statement : Nat) (v : Var) : Except CompositionError Nat :=
  match live.idxOf? v with
  | some i => if i < width then .ok i else .error (.hiddenArgument v statement)
  | none => .error (.hiddenArgument v statement)

/-- The handle that returns a variable, or nothing for one without a value, out of all live ones. -/
def finish (live : List Var) (ret : Var) : Except CompositionError Handle :=
  if ret.ty = .void then Handle.empty (live.map Var.ty)
  else
    match live.idxOf? ret with
    | some i => Handle.project (live.map Var.ty) i
    | none => .error (.hiddenResult ret)

/-- The handle that runs a statement on the first `width` live values, and then the handle of the
statements after it on these values and on the result, if there is one. -/
def prepend (live : List Var) (index width : Nat) (st : Statement) (next : Handle) :
    Except CompositionError Handle := do
  let collected ← next.collect (next.arity - st.width) st.closure.handle
  let sources ← st.closure.args.mapM (visibleAt live width index)
  collected.permute ((live.take width).map Var.ty) (List.range width ++ sources)

/-- The handle of a statement sequence that starts with statement `index`, over the first `width`
live variables. -/
def chain (live : List Var) (ret : Var) (index width : Nat) :
    List Statement → Except CompositionError Handle
  | [] => finish live ret
  | st :: rest => do
    let next ← chain live ret (index + 1) (width + st.width) rest
    prepend live index width st next

/-- The handle over the inputs that runs the statements and returns a variable. -/
def build (s : Scope) (ret : Var) : Compose Handle := do
  if (← get).tracing then Compose.note s.plan
  let handle ← chain s.live ret 0 s.inputs.length s.statements
  Compose.note
    s!"built function #{s.id} with {s.inputs.length} inputs and {s.statements.length} statements"
  return handle

/-- The handle of a function that returns an expression. -/
def buildFunction (s : Scope) (ret : Expr) : Compose Handle := do
  let (ret, s) ← s.returned ret
  s.build ret

/-- The handle of a function that returns no value. -/
def buildFunctionVoid (s : Scope) : Compose Handle := do
  s.buildFunction (.closure (← Closure.constantVoid))

/-- The closure of a block that returns an expression; its arguments are the inputs. -/
def buildBlock (s : Scope) (ret : Expr) : Compose Closure := do
  let (ret, s) ← s.returned ret
  Closure.wire (← s.build ret) s.inputs

/-- The closure of a block that returns no value. -/
def buildBlockVoid (s : Scope) : Compose Closure := do
  s.buildBlock (.closure (← Closure.constantVoid))

end Scope

/-! ## Composing inside a scope -/

/-- Composition steps that also declare parameters and add statements to a scope. -/
abbrev Scoped := StateT Scope Compose

namespace Scoped

/-- Declares a parameter of the scope. -/
def addParam (ty : Ty) : Scoped Var := do
  let (result, next) := (← get).addParam ty
  set next
  liftM (m := Except CompositionError) result

/-- Adds a statement to the scope. -/
def assign (e : Expr) : Scoped Var := do
  let (v, next) ← liftM (m := Except CompositionError) ((← get).assign e)
  set next
  return v

/-- The function whose parameters and statements the steps make, returning the expression that
they end with. -/
def function (steps : Scoped Expr) : Compose Handle := do
  let (ret, s) ← steps (← Scope.newFunction)
  s.buildFunction ret

/-- The block whose statements the steps make, returning the expression that they end with. -/
def block (steps : Scoped Expr) : Compose Closure := do
  let (ret, s) ← steps (← Scope.newBlock)
  s.buildBlock ret

end Scoped

end Splice

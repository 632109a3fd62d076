import Splice.Closure.Basic
import Splice.Compose

/-!
# Scopes

A scope is a sequence of statements over inputs. Each statement runs a closure and binds its result
to a variable. The inputs of a function are its declared parameters; a block has no parameters and
takes the variables of other scopes that its statements use as inputs, in the order of first use.

A refused step leaves the statements and inputs of the scope as they were.
-/

namespace Splice

/-- A closure that runs once, and the variable that its result is bound to. -/
structure Statement where
  var : Var
  closure : Closure

/-- The statements of a function or a block, with the inputs that they read. -/
structure Scope where
  id : Nat
  /-- Whether the scope is a block, which takes variables of other scopes as inputs. -/
  capturing : Bool
  inputs : List Var := []
  statements : List Statement := []
  nextOrdinal : Nat := 0

namespace Scope

/-- A new function without parameters and statements. -/
def newFunction : Compose Scope := return { id := ← Compose.freshScope, capturing := false }

/-- A new block without statements. -/
def newBlock : Compose Scope := return { id := ← Compose.freshScope, capturing := true }

/-- The variables of a list that belong to other scopes. -/
def foreign (s : Scope) (vars : List Var) : List Var := vars.filter (·.scope ≠ s.id)

/-- Declares a parameter. Parameters come before statements. A parameter refused for its type
leaves a gap in the ordinals. -/
def addParam (s : Scope) (ty : Ty) : Except CompositionError Var × Scope :=
  if s.statements.isEmpty then
    let next := { s with nextOrdinal := s.nextOrdinal + 1 }
    match Var.param s.id s.nextOrdinal ty with
    | .ok v => (.ok v, { next with inputs := s.inputs ++ [v] })
    | .error err => (.error err, next)
  else (.error .lateParameter, s)

/-- A new function with parameters of the given types. -/
def withParams (types : List Ty) : Compose (Scope × List Var) := do
  types.foldlM
    (fun (s, vars) ty => do
      let (result, next) := s.addParam ty
      return (next, vars ++ [← result]))
    (← newFunction, [])

/-- Adds a statement that runs a closure. A function refuses variables of other scopes; a block
takes them as inputs. -/
def assignClosure (s : Scope) (c : Closure) : Except CompositionError (Var × Scope) :=
  let foreign := s.foreign c.args
  match s.capturing, foreign with
  | false, v :: _ => .error (.foreignVar v)
  | _, _ =>
    let v : Var := ⟨s.id, s.nextOrdinal, false, c.ty⟩
    .ok (v,
      { s with
        inputs := s.inputs ++ (foreign.filter (· ∉ s.inputs)).eraseDups
        statements := s.statements ++ [⟨v, c⟩]
        nextOrdinal := s.nextOrdinal + 1 })

/-- Adds a statement that runs an expression once, at this point of the sequence. -/
def assign (s : Scope) (e : Expr) : Except CompositionError (Var × Scope) := do
  s.assignClosure (← e.asClosure)

/-- The variable that holds what the scope returns: a variable of the scope itself, or the result
of one more statement. -/
def returned (s : Scope) : Expr → Except CompositionError (Var × Scope)
  | .var v => if v.scope = s.id then .ok (v, s) else s.assign (.var v)
  | .closure c => s.assignClosure c

/-- The variables that have a value once all statements have run. -/
def live (s : Scope) : List Var :=
  s.inputs ++ (s.statements.map Statement.var).filter (·.ty ≠ .void)

/-- The plan of the scope: its inputs, then a line for each statement. -/
def plan (s : Scope) : String :=
  "\n".intercalate (s!"function #{s.id} inputs {Var.listText s.inputs}" ::
    s.statements.map fun st =>
      s!"  {st.var.text} = {st.closure.handle.text}{Var.listText st.closure.args}")

end Scope

end Splice

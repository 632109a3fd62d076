import Splice.Handle.Arguments
import Splice.Handle.Result

/-!
# Closures

A closure is a handle together with the variables that feed its parameters. An expression, as
compositions take them for operands, is a variable or a closure; `Closure.fold` applies a handle to
expressions, and so makes closures out of closures.
-/

namespace Splice

/-- A handle wired to the variables that feed its parameters. -/
structure Closure where
  handle : Handle
  args : List Var
  typed : args.map Var.ty = handle.params

/-- An operand: a variable, used as it is, or a closure, run in its place. -/
inductive Expr where
  | var (v : Var)
  | closure (c : Closure)

/-- Refuses argument types that are not the parameter types of a handle. -/
def Handle.expectArgs (h : Handle) (types : List Ty) : Except CompositionError Unit :=
  require (types = h.params) (.misapplied h.sig types)

namespace Closure

/-- The type of the closure's result. -/
def ty (c : Closure) : Ty := c.handle.ret

/-- A handle wired to variables, refused unless their types are its parameter types. -/
def wire (handle : Handle) (args : List Var) : Except CompositionError Closure :=
  if typed : args.map Var.ty = handle.params then .ok ⟨handle, args, typed⟩
  else .error (.misapplied handle.sig (args.map Var.ty))

/-- The closure that does nothing. -/
def constantVoid : Except CompositionError Closure := do wire (← Handle.empty []) []

end Closure

/-- The closure that reads a variable; it does nothing for a variable without a value. -/
def Var.asClosure (v : Var) : Except CompositionError Closure := do
  if v.ty = .void then Closure.constantVoid else Closure.wire (← Handle.identity v.ty) [v]

namespace Expr

/-- The type of the operand. -/
def ty : Expr → Ty
  | var v => v.ty
  | closure c => c.ty

/-- The operand as a closure. -/
def asClosure : Expr → Except CompositionError Closure
  | var v => v.asClosure
  | closure c => .ok c

/-- The variables that the operand reads, in the order of its arguments. -/
def vars : Expr → List Var
  | var v => [v]
  | closure c => c.args

end Expr

instance : Coe Var Expr := ⟨Expr.var⟩

instance : Coe Closure Expr := ⟨Expr.closure⟩

namespace Closure

/-- Lets the closures among the operands compute the arguments from position `pos` on. The
rightmost one is put in first, so that the leftmost one runs first. -/
def collectAll (h : Handle) (pos : Nat) : List Expr → Except CompositionError Handle
  | [] => .ok h
  | arg :: rest => do
    let h ← collectAll h (pos + 1) rest
    match arg with
    | .var _ => return h
    | .closure c => h.collect pos c.handle

/-- The closure in which repeated arguments share one parameter, at their first place. -/
def dedup (c : Closure) : Except CompositionError Closure := do
  let distinct := c.args.eraseDups
  if distinct.length = c.args.length then return c
  else wire (← c.handle.permute (distinct.map Var.ty) (c.args.map (distinct.idxOf ·))) distinct

/-- Applies a handle to operands, which run from left to right, each closure once for every place
that it stands in. The result reads the variables of all operands, each variable once. -/
def fold (h : Handle) (args : List Expr) : Except CompositionError Closure := do
  h.expectArgs (args.map Expr.ty)
  let folded ← collectAll h 0 args
  (← wire folded (args.flatMap Expr.vars)).dedup

/-- The closure with its result converted to another type. -/
def cast (c : Closure) (ty : Ty) : Except CompositionError Closure := do
  if c.ty = ty then return c else wire (← c.handle.convert ty) c.args

/-- The closure with its result passed on to a filter. -/
def filterReturn (c : Closure) (filter : Handle) : Except CompositionError Closure := do
  wire (← c.handle.filterReturn filter) c.args

/-- The closure with the given variables as its leading arguments, whether it reads them or not. -/
def withLocals (c : Closure) (locals : List Var) : Except CompositionError Closure := do
  let args := locals ++ c.args.filter (· ∉ locals)
  wire (← c.handle.permute (args.map Var.ty) (c.args.map (Var.lastIndex args))) args

/-- Runs the closure on one value for each argument, after checking them. -/
def invoke (turns : Nat) (c : Closure) (values : List Value) : Exec Value :=
  c.handle.invoke turns values

/-- As many arguments as the handle has parameters. -/
theorem length_args (c : Closure) : c.args.length = c.handle.arity := by
  rw [Handle.arity, ← c.typed, List.length_map]

end Closure

end Splice

import Splice.Scope.Growth
import Mathlib.Data.List.Forall2

/-!
# Histories of scopes

A caller grows a scope by declaring parameters and assigning expressions, and gets a variable for
each. A `History` is the record of that in the caller's terms: the types declared, the parameters
handed out for them, and the expressions with the variables that stand for their results. It is a
program by itself, and `History.run` says what the program does: it evaluates the expressions one
by one, each once, and then the returned one. The first expression that fails ends it, as
`History.run_of_failsFirst` says.
-/

namespace Splice

/-! ## Programs and what they do -/

/-- An assigned expression, and the variable that stands for its result. -/
structure Binding where
  var : Var
  expr : Expr

/-- What a caller has been granted by a scope. -/
structure History where
  /-- The declared types, in order. -/
  types : List Ty := []
  /-- The parameters of these types. -/
  params : List Var := []
  bindings : List Binding := []

namespace History

/-- The variables that the caller has got from the scope. -/
def vars (history : History) : List Var := history.params ++ history.bindings.map Binding.var

/-- The assigned expressions, in order. -/
def exprs (history : History) : List Expr := history.bindings.map Binding.expr

/-- Whether an expression mentions, of the variables of a scope, only those that the caller has
got. -/
def Knows (history : History) (id : Nat) (e : Expr) : Prop :=
  ∀ v ∈ e.vars, v.scope = id → v ∈ history.vars

/-- Evaluates expressions in order, each once, and binds the result of each, if it has one, to its
variable. -/
def runBindings (turns : Nat) (env : Env) : List Binding → Exec Env
  | [] => return env
  | b :: rest => do runBindings turns (env.bindResult b.var (← b.expr.eval turns env)) rest

/-- Evaluates the assigned expressions and then the returned one, for its value if it has one. -/
def run (turns : Nat) (env : Env) (history : History) (ret : Expr) : Exec Value := do
  let env ← runBindings turns env history.bindings
  let value ← ret.eval turns env
  return if ret.ty = .void then .unit else value

/-- Evaluates the assigned expressions and returns no value. -/
def runVoid (turns : Nat) (env : Env) (history : History) : Exec Value := do
  let _ ← runBindings turns env history.bindings
  return .unit

/-- Whether some assigned expression is the first to fail, with an exception, in a world. -/
def FailsFirst (turns : Nat) (env : Env) (history : History) (w : World) (e : Exception)
    (w' : World) : Prop :=
  ∃ before b after env₁ w₁, history.bindings = before ++ b :: after ∧
    runBindings turns env before w = .ok env₁ w₁ ∧ b.expr.eval turns env₁ w₁ = .thrown e w'

theorem runBindings_append (turns : Nat) (env : Env) (first second : List Binding) :
    runBindings turns env (first ++ second) = (do
      runBindings turns (← runBindings turns env first) second) := by
  induction first generalizing env with
  | nil => rfl
  | cons b rest ih =>
    rw [List.cons_append, runBindings, runBindings, bind_assoc]
    exact bind_congr fun value => ih (env.bindResult b.var value)

/-- The first expression that fails ends the run: nothing behind it has an effect. -/
theorem runBindings_of_failsFirst {turns : Nat} {env : Env} {history : History} {w w' : World}
    {e : Exception} (hfail : history.FailsFirst turns env w e w') :
    runBindings turns env history.bindings w = .thrown e w' := by
  obtain ⟨before, b, after, env₁, w₁, hsplit, hbefore, hb⟩ := hfail
  rw [hsplit, runBindings_append, Exec.bind_apply, hbefore]
  show runBindings turns env₁ (b :: after) w₁ = _
  rw [runBindings, Exec.bind_apply, hb]

/-- Nor is the returned expression evaluated. -/
theorem run_of_failsFirst {turns : Nat} {env : Env} {history : History} {w w' : World}
    {e : Exception} (hfail : history.FailsFirst turns env w e w') (ret : Expr) :
    history.run turns env ret w = .thrown e w' := by
  rw [run, Exec.bind_apply, runBindings_of_failsFirst hfail]

end History

end Splice

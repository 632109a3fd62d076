import Splice.Closure.Basic

/-!
# Unified signatures

Closures that are combined into one handle, such as the pieces of a loop, must take the same
arguments. A unifier is the list of all variables that they read; it rewires each piece so that it
takes exactly these, after a number of leading arguments that stay in place.
-/

namespace Splice

/-- The distinct variables that several closures read. -/
structure Unifier where
  vars : List Var

namespace Unifier

/-- Every variable of the sources once, in the order of first occurrence. -/
def ofSources (sources : List (List Var)) : Unifier := ⟨sources.flatten.eraseDups⟩

/-- The types of the variables. -/
def types (u : Unifier) : List Ty := u.vars.map Var.ty

/-- The place of a variable among those of the unifier, refused if it is none of them. -/
def position (u : Unifier) (v : Var) : Except CompositionError Nat :=
  match u.vars.idxOf? v with
  | some i => .ok i
  | none => .error (.notUnified v)

/-- The closure with its first `keep` arguments in place and the unifier's variables after them. -/
def align (u : Unifier) (keep : Nat) (c : Closure) : Except CompositionError Closure := do
  require (keep ≤ c.args.length) (.tooFewArguments keep c.args)
  let moved ← (c.args.drop keep).mapM fun v => return keep + (← u.position v)
  let args := c.args.take keep ++ u.vars
  Closure.wire (← c.handle.permute (args.map Var.ty) (List.range keep ++ moved)) args

/-- Membership in the unifier is membership in a source. -/
theorem mem_vars_ofSources {sources : List (List Var)} {v : Var} :
    v ∈ (ofSources sources).vars ↔ ∃ source ∈ sources, v ∈ source := by
  simp [ofSources, List.mem_eraseDups, List.mem_flatten]

end Unifier

end Splice

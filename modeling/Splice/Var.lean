import Splice.Ty

/-!
# Variables

A variable is a binding site: a parameter of a scope or the result of one of its statements. It is
told apart by its scope and by its ordinal there; its sort and its type are fixed when it is made.
-/

namespace Splice

/-- A parameter of a scope or the result of a statement in it. -/
structure Var where
  /-- The scope that made the variable. -/
  scope : Nat
  /-- The place among the variables of the scope, gaps allowed. -/
  ordinal : Nat
  /-- Whether the variable is a parameter rather than a statement's result. -/
  isParam : Bool
  ty : Ty
  deriving DecidableEq

namespace Var

/-- The written form: `p0#1: int` for a parameter, `v2#1: string` for a result. -/
def text (v : Var) : String :=
  (if v.isParam then "p" else "v") ++ s!"{v.ordinal}#{v.scope}: {v.ty.text}"

/-- A list of variables in square brackets. -/
def listText (vs : List Var) : String := "[" ++ ", ".intercalate (vs.map text) ++ "]"

/-- Scopes in the order they were opened, and in a scope the order of the ordinals. -/
def compare (a b : Var) : Ordering :=
  (Ord.compare a.scope b.scope).then (Ord.compare a.ordinal b.ordinal)

/-- The last position of a variable in a list. -/
def lastIndex (vs : List Var) (v : Var) : Nat := vs.length - 1 - vs.reverse.idxOf v

end Var

end Splice

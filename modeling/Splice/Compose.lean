import Splice.CompositionError

/-!
# The composition monad

Composing has no effect on the world. It draws scope and schema identities from a supply and keeps
a log; both outlast a refused step.
-/

namespace Splice

/-- What composition steps share. -/
structure Supply where
  /-- The identity of the next scope. -/
  nextScope : Nat := 1
  /-- The identity of the next schema. -/
  nextSchema : Nat := 0
  /-- Whether the plan of every built scope is logged. -/
  tracing : Bool := false
  log : Array String := #[]

/-- A composition step: it may be refused, and the supply persists all the same. -/
abbrev Compose := ExceptT CompositionError (StateM Supply)

namespace Compose

/-- The identity of a new scope. -/
def freshScope : Compose Nat :=
  modifyGet fun s => (s.nextScope, { s with nextScope := s.nextScope + 1 })

/-- The identity of a new schema. -/
def freshSchema : Compose Nat :=
  modifyGet fun s => (s.nextSchema, { s with nextSchema := s.nextSchema + 1 })

/-- Writes a line to the log. -/
def note (line : String) : Compose Unit := modify fun s => { s with log := s.log.push line }

end Compose

/-- A parameter of a scope. -/
def Var.param (scope ordinal : Nat) (ty : Ty) : Except CompositionError Var :=
  if ty = .void then .error .voidVar else .ok ⟨scope, ordinal, true, ty⟩

/-- The only parameter of a new scope, as loop states and caught errors are. -/
def Var.fresh (ty : Ty) : Compose Var := do Var.param (← Compose.freshScope) 0 ty

end Splice

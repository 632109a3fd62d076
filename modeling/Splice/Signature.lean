import Splice.Fault
import Splice.Value.Member

/-!
# Signatures

The parameter types and the result type of a callable. No parameter is void, so every parameter
stands for one argument value.
-/

namespace Splice

/-- Parameter types and result type of a callable. -/
@[ext]
structure Signature where
  params : List Ty
  ret : Ty
  noVoid : Ty.void ∉ params
  deriving DecidableEq

namespace Signature

/-- The written form `(T, U) -> R`. -/
def text (s : Signature) : String := Ty.tupleText s.params ++ " -> " ++ s.ret.text

/-- The signature with another result type. -/
def returning (s : Signature) (ret : Ty) : Signature := { s with ret }

/-- The signature with the parameters from `pos` up to `rest` replaced by those of another one. -/
def replacing (s : Signature) (pos rest : Nat) (inserted : Signature) : Signature where
  params := s.params.take pos ++ inserted.params ++ s.params.drop rest
  ret := s.ret
  noVoid := by
    have htake : Ty.void ∉ s.params.take pos := fun h => s.noVoid (List.mem_of_mem_take h)
    have hdrop : Ty.void ∉ s.params.drop rest := fun h => s.noVoid (List.mem_of_mem_drop h)
    simp [htake, hdrop, inserted.noVoid]

/-- The first reason why values are no arguments for the signature. -/
def mismatch? (s : Signature) (args : List Value) : Option Fault :=
  if args.length ≠ s.params.length then some (.argumentCount s.params args.length)
  else
    (s.params.zip args).zipIdx.findSome? fun ((ty, v), index) =>
      if ty.admits v then none else some (.argumentKind index ty v.kind)

/-- Faults unless the values are arguments for the signature. -/
def check (s : Signature) (args : List Value) : Except Fault Unit :=
  match s.mismatch? args with
  | none => .ok ()
  | some fault => .error fault

end Signature

end Splice

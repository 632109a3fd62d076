import Splice.Handle.Basic

/-!
# Handles over given arguments

The simplest handles, which return a constant, an argument or nothing, and the combinations that
rearrange, compute or ignore arguments of another handle.
-/

namespace Splice.Handle

/-- An argument by position; callables are never run with fewer arguments than parameters. -/
def argument (args : List Value) (index : Nat) : Value := args[index]?.getD .unit

/-- Returns its only argument. -/
def identity (ty : Ty) : Except CompositionError Handle :=
  native [ty] ty fun args => return argument args 0

/-- Returns a fixed value, which must inhabit the type. -/
def constant (ty : Ty) (v : Value) : Except CompositionError Handle :=
  if ty.admits v then .ok (prim ⟨[], ty, List.not_mem_nil⟩ fun _ => return v)
  else .error (.constantKind ty v.kind)

/-- Ignores its arguments and returns no value. -/
def empty (params : List Ty) : Except CompositionError Handle :=
  native params .void fun _ => return .unit

/-- Returns the argument at a position. -/
def project (params : List Ty) (index : Nat) : Except CompositionError Handle :=
  match params[index]? with
  | some ty => native params ty fun args => return argument args index
  | none => .error (.projectionOutside index params)

/-- The first parameter of a handle that does not find its type where a reordering sends it. -/
def misplaced? (h : Handle) (params : List Ty) (reorder : List Nat) : Option CompositionError :=
  let slots := params.toArray
  (h.params.zip reorder).zipIdx.findSome? fun ((expected, position), index) =>
    match slots[position]? with
    | some ty =>
      if ty = expected then none else some (.reorderType h.sig index expected position ty)
    | none => some (.reorderOutside position params)

/-- Takes arguments of types `params` and passes the one at `reorder[i]` on in place `i`. An
argument can be passed on several times or not at all. -/
def permute (h : Handle) (params : List Ty) (reorder : List Nat) :
    Except CompositionError Handle := do
  require (reorder.length = h.arity) (.reorderLength reorder.length h.sig)
  let sig ← Signature.ofTypes params h.ret
  match h.misplaced? params reorder with
  | some cause => throw cause
  | none => return if reorder = List.range params.length then h else permuted sig reorder h

/-- Runs a filter first, on the arguments from `pos` on. Its result takes the place of argument
`pos` of this handle; a filter that returns no value only has its parameters inserted there. -/
def collect (h : Handle) (pos : Nat) (filter : Handle) : Except CompositionError Handle :=
  if filter.ret = .void then
    if pos ≤ h.arity then .ok (collected (h.sig.replacing pos pos filter.sig) pos filter h)
    else .error (.collectOutside pos h.sig)
  else if h.params[pos]? = some filter.ret then
    .ok (collected (h.sig.replacing pos (pos + 1) filter.sig) pos filter h)
  else .error (.collectMismatch filter.sig pos h.sig)

/-- Takes further arguments from position `pos` on, which it ignores. -/
def dropArgs (h : Handle) (pos : Nat) (types : List Ty) : Except CompositionError Handle := do
  require (pos ≤ h.arity) (.dropOutside pos h.sig)
  let inserted ← Signature.ofTypes types .void
  return if types.isEmpty then h
    else widened (h.sig.replacing pos pos inserted) pos types.length h

end Splice.Handle

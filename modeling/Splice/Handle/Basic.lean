import Splice.CompositionError
import Splice.Conversion
import Splice.Exec
import Splice.Store.Iterator

/-!
# Handles

A handle is a typed callable: a native function, or a combination of other handles. Its signature
tells callers what it takes and returns; `Handle.call` says what it does with arguments.

Handles are data, so a composed handle can be taken apart by recursion. The constructors only
record a combination; the functions of the modules beside this one check that the parts fit and
compute the signature.

`call` trusts its arguments, as every combination does with the arguments that it passes on;
`invoke` checks them first.
-/

namespace Splice

/-- A typed callable. -/
inductive Handle where
  /-- A function of the surrounding program. -/
  | prim (sig : Signature) (run : List Value → Exec Value)
  /-- Passes argument `reorder[i]` on in place `i`. -/
  | permuted (sig : Signature) (reorder : List Nat) (target : Handle)
  /-- Runs a filter on the arguments from `pos` on; its result, if any, takes their place. -/
  | collected (sig : Signature) (pos : Nat) (filter target : Handle)
  /-- Leaves `width` arguments from `pos` on out. -/
  | widened (sig : Signature) (pos width : Nat) (target : Handle)
  /-- Runs a filter on the result. -/
  | filtered (sig : Signature) (filter target : Handle)
  | converted (sig : Signature) (conversion : Conversion) (target : Handle)
  /-- Runs one of two branches, as a test of the leading arguments decides. -/
  | guarded (sig : Signature) (test accept reject : Handle)
  | whileLoop (sig : Signature) (init pred body : Handle)
  | doWhileLoop (sig : Signature) (init body pred : Handle)
  | countedLoop (sig : Signature) (start stop init body : Handle)
  | iteratedLoop (sig : Signature) (source init body : Handle)
  /-- Hands exceptions of a class to a handler. -/
  | catching (sig : Signature) (cls : String) (target handler : Handle)
  /-- Runs a cleanup whichever way the target ends. -/
  | finalized (sig : Signature) (target cleanup : Handle)
  /-- Checks the arguments before passing them on. -/
  | checked (sig : Signature) (target : Handle)

namespace Handle

/-- What the callable takes and returns. -/
def sig : Handle → Signature
  | prim sig _ | permuted sig .. | collected sig .. | widened sig .. | filtered sig ..
  | converted sig .. | guarded sig .. | whileLoop sig .. | doWhileLoop sig ..
  | countedLoop sig .. | iteratedLoop sig .. | catching sig .. | finalized sig ..
  | checked sig _ => sig

/-- The parameter types. -/
def params (h : Handle) : List Ty := h.sig.params

/-- The result type. -/
def ret (h : Handle) : Ty := h.sig.ret

/-- The number of parameters. -/
def arity (h : Handle) : Nat := h.params.length

/-- The written form of a handle, which shows its signature only. -/
def text (h : Handle) : String := "Handle" ++ h.sig.text

/-- Runs a callable on arguments that are trusted to fit its signature. Every loop inside is
granted `turns` turns each time it runs, except counted loops, which need no bound. -/
def call (turns : Nat) : Handle → List Value → Exec Value
  | prim _ run, args => run args
  | permuted _ reorder target, args =>
    let slots := args.toArray
    target.call turns (reorder.map fun j => slots[j]?.getD .unit)
  | collected _ pos filter target, args => do
    let produced ← filter.call turns ((args.drop pos).take filter.arity)
    let rest := args.drop (pos + filter.arity)
    target.call turns (args.take pos ++ if filter.ret = .void then rest else produced :: rest)
  | widened _ pos width target, args =>
    target.call turns (args.take pos ++ args.drop (pos + width))
  | filtered _ filter target, args => do
    let produced ← target.call turns args
    filter.call turns (if target.ret = .void then [] else [produced])
  | converted _ conversion target, args => do
    conversion.apply (← target.call turns args)
  | guarded _ test accept reject, args => do
    if ← (← test.call turns (args.take test.arity)).expectBool then accept.call turns args
    else reject.call turns args
  | whileLoop _ init pred body, args => do
    Exec.repeatWhile (fun state => do (← pred.call turns (state :: args)).expectBool)
      (fun state => body.call turns (state :: args)) turns (← init.call turns args)
  | doWhileLoop _ init body pred, args => do
    Exec.repeatUntil (fun state => do (← pred.call turns (state :: args)).expectBool)
      (fun state => body.call turns (state :: args)) turns (← init.call turns args)
  | countedLoop _ start stop init body, args => do
    let first ← (← start.call turns args).expectInt
    let last ← (← stop.call turns args).expectInt
    Exec.countUp (fun index state => body.call turns (state :: .int index :: args))
      (last.toInt - first.toInt).toNat first (← init.call turns args)
  | iteratedLoop _ source init body, args => do
    match ← source.call turns args with
    | .iterator addr =>
      Exec.drain (Iterator.next addr) (fun v state => body.call turns (state :: v :: args)) turns
        (← init.call turns args)
    | other => Exec.raise (.sourceNotIterator other.kind)
  | catching _ cls target handler, args => do
    match ← (target.call turns args).attempt with
    | .ok v => return v
    | .error e =>
      if e.isInstanceOf cls then handler.call turns (.error e :: args) else Exec.throw e
  | finalized _ target cleanup, args => do
    let slots := fun v => if target.ret = .void then args else v :: args
    match ← (target.call turns args).attempt with
    | .ok v => cleanup.call turns (.null :: slots v)
    | .error e =>
      let _ ← cleanup.call turns (.error e :: slots target.ret.default)
      Exec.throw e
  | checked _ target, args => do
    target.sig.check args
    target.call turns args

/-- Runs a callable on arguments after checking that they fit its signature. -/
def invoke (turns : Nat) (h : Handle) (args : List Value) : Exec Value := do
  h.sig.check args
  h.call turns args

/-- A function of the surrounding program with given parameter and result types. -/
def native (params : List Ty) (ret : Ty) (run : List Value → Exec Value) :
    Except CompositionError Handle := do
  return prim (← Signature.ofTypes params ret) run

/-- The same callable, which checks its arguments also where callers trust them. -/
def rechecked (h : Handle) : Handle := checked h.sig h

end Handle

end Splice

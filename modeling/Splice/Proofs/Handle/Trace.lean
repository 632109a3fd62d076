import Splice.Handle.Basic
import Splice.Proofs.Exec.Trace

/-!
# Traced calls

`Handle.traced` runs a handle as `Handle.call` does and lists the runs of native functions and the
draws from iterators on the way. It accounts for every call. If no handler and no cleanup is among
the parts of a handle, then its calls fail fast: a native function that fails is the last that
happens, and the call fails with its exception.
-/

namespace Splice.Handle

open Traced (quietly)

/-- Runs a callable and records what happens. -/
@[simp] def traced (turns : Nat) : Handle → List Value → Traced Value
  | prim _ run, args => Traced.native run args
  | permuted _ reorder target, args =>
    let slots := args.toArray
    target.traced turns (reorder.map fun j => slots[j]?.getD .unit)
  | collected _ pos filter target, args => do
    let produced ← filter.traced turns ((args.drop pos).take filter.arity)
    let rest := args.drop (pos + filter.arity)
    target.traced turns (args.take pos ++ if filter.ret = .void then rest else produced :: rest)
  | widened _ pos width target, args =>
    target.traced turns (args.take pos ++ args.drop (pos + width))
  | filtered _ filter target, args => do
    let produced ← target.traced turns args
    filter.traced turns (if target.ret = .void then [] else [produced])
  | converted _ conversion target, args => do
    let v ← target.traced turns args
    quietly (liftM (conversion.apply v))
  | guarded _ test accept reject, args => do
    let v ← test.traced turns (args.take test.arity)
    if ← quietly (liftM v.expectBool) then accept.traced turns args
    else reject.traced turns args
  | whileLoop _ init pred body, args => do
    let s ← init.traced turns args
    Traced.repeatWhile
      (fun state => do
        let v ← pred.traced turns (state :: args)
        quietly (liftM v.expectBool))
      (fun state => body.traced turns (state :: args)) turns s
  | doWhileLoop _ init body pred, args => do
    let s ← init.traced turns args
    Traced.repeatUntil
      (fun state => do
        let v ← pred.traced turns (state :: args)
        quietly (liftM v.expectBool))
      (fun state => body.traced turns (state :: args)) turns s
  | countedLoop _ start stop init body, args => do
    let v ← start.traced turns args
    let first ← quietly (liftM v.expectInt)
    let v ← stop.traced turns args
    let last ← quietly (liftM v.expectInt)
    let s ← init.traced turns args
    Traced.countUp (fun index state => body.traced turns (state :: .int index :: args))
      (last.toInt - first.toInt).toNat first s
  | iteratedLoop _ source init body, args => do
    match ← source.traced turns args with
    | .iterator addr =>
      let s ← init.traced turns args
      Traced.drain (Traced.draw addr)
        (fun v state => body.traced turns (state :: v :: args)) turns s
    | other => quietly (Exec.raise (.sourceNotIterator other.kind))
  | catching _ cls target handler, args => do
    match ← (target.traced turns args).attempt with
    | .ok v => return v
    | .error e =>
      if e.isInstanceOf cls then handler.traced turns (.error e :: args)
      else quietly (Exec.throw e)
  | finalized _ target cleanup, args => do
    let slots := fun v => if target.ret = .void then args else v :: args
    match ← (target.traced turns args).attempt with
    | .ok v => cleanup.traced turns (.null :: slots v)
    | .error e =>
      let _ ← cleanup.traced turns (.error e :: slots target.ret.default)
      quietly (Exec.throw e)
  | checked _ target, args => do
    let _ ← quietly (liftM (target.sig.check args))
    target.traced turns args

/-- A traced call ends as the call, and changes objects in its events only. -/
theorem accounts_traced (h : Handle) (turns : Nat) (args : List Value) :
    (h.traced turns args).Accounts (h.call turns args) := by
  induction h generalizing args with
  | prim => exact .native _ _
  | permuted _ _ _ htarget => exact htarget _
  | collected _ _ _ _ hfilter htarget => exact (hfilter _).bind fun _ => htarget _
  | widened _ _ _ _ htarget => exact htarget _
  | filtered _ _ _ hfilter htarget => exact (htarget _).bind fun _ => hfilter _
  | converted _ _ _ htarget => exact (htarget _).bind fun _ => .lift _
  | guarded _ _ _ _ htest haccept hreject =>
    refine (htest _).bind fun v => (Traced.Accounts.lift _).bind fun holds => ?_
    split
    · exact haccept _
    · exact hreject _
  | whileLoop _ _ _ _ hinit hpred hbody =>
    exact (hinit _).bind fun s => .repeatWhile (fun _ => (hpred _).bind fun _ => .lift _)
      (fun _ => hbody _) turns s
  | doWhileLoop _ _ _ _ hinit hbody hpred =>
    exact (hinit _).bind fun s => .repeatUntil (fun _ => (hpred _).bind fun _ => .lift _)
      (fun _ => hbody _) turns s
  | countedLoop _ _ _ _ _ hstart hstop hinit hbody =>
    exact (hstart _).bind fun _ => (Traced.Accounts.lift _).bind fun _ =>
      (hstop _).bind fun _ => (Traced.Accounts.lift _).bind fun _ =>
        (hinit _).bind fun s => .countUp (fun _ _ => hbody _) _ _ s
  | iteratedLoop _ _ _ _ hsource hinit hbody =>
    refine (hsource _).bind fun v => ?_
    cases v with
    | iterator addr =>
      exact (hinit _).bind fun s => .drain (.draw _) (fun _ _ => hbody _) turns s
    | _ => exact .raise _
  | catching _ _ _ _ htarget hhandler =>
    refine (htarget _).attempt.bind fun outcome => ?_
    cases outcome with
    | ok v => exact .pure v
    | error e =>
      dsimp only
      split
      · exact hhandler _
      · exact .throw e
  | finalized _ _ _ htarget hcleanup =>
    refine (htarget _).attempt.bind fun outcome => ?_
    cases outcome with
    | ok v => exact hcleanup _
    | error e => exact (hcleanup _).bind fun _ => .throw e
  | checked _ _ htarget => exact (Traced.Accounts.lift _).bind fun _ => htarget _

/-- Neither a handler nor a cleanup is among the parts. -/
@[simp] def HandlerFree : Handle → Prop
  | prim .. => True
  | permuted _ _ target | widened _ _ _ target | converted _ _ target | checked _ target =>
    target.HandlerFree
  | collected _ _ filter target | filtered _ filter target =>
    filter.HandlerFree ∧ target.HandlerFree
  | guarded _ test accept reject => test.HandlerFree ∧ accept.HandlerFree ∧ reject.HandlerFree
  | whileLoop _ init pred body => init.HandlerFree ∧ pred.HandlerFree ∧ body.HandlerFree
  | doWhileLoop _ init body pred => init.HandlerFree ∧ body.HandlerFree ∧ pred.HandlerFree
  | countedLoop _ start stop init body =>
    start.HandlerFree ∧ stop.HandlerFree ∧ init.HandlerFree ∧ body.HandlerFree
  | iteratedLoop _ source init body => source.HandlerFree ∧ init.HandlerFree ∧ body.HandlerFree
  | catching .. | finalized .. => False

/-- Where nothing handles failures, the first one is the end. -/
theorem HandlerFree.failsFast {h : Handle} (hh : h.HandlerFree) (turns : Nat) (args : List Value) :
    (h.traced turns args).FailsFast := by
  induction h generalizing args with
  | prim => exact .native _ _
  | permuted _ _ _ htarget => exact htarget hh _
  | collected _ _ _ _ hfilter htarget => exact (hfilter hh.1 _).bind fun _ => htarget hh.2 _
  | widened _ _ _ _ htarget => exact htarget hh _
  | filtered _ _ _ hfilter htarget => exact (htarget hh.2 _).bind fun _ => hfilter hh.1 _
  | converted _ _ _ htarget => exact (htarget hh _).bind fun _ => .quietly _
  | guarded _ _ _ _ htest haccept hreject =>
    obtain ⟨ht, ha, hr⟩ := hh
    refine (htest ht _).bind fun v => (Traced.FailsFast.quietly _).bind fun holds => ?_
    split
    · exact haccept ha _
    · exact hreject hr _
  | whileLoop _ _ _ _ hinit hpred hbody =>
    obtain ⟨hi, hp, hb⟩ := hh
    exact (hinit hi _).bind fun s => .repeatWhile (fun _ => (hpred hp _).bind fun _ => .quietly _)
      (fun _ => hbody hb _) turns s
  | doWhileLoop _ _ _ _ hinit hbody hpred =>
    obtain ⟨hi, hb, hp⟩ := hh
    exact (hinit hi _).bind fun s => .repeatUntil (fun _ => (hpred hp _).bind fun _ => .quietly _)
      (fun _ => hbody hb _) turns s
  | countedLoop _ _ _ _ _ hstart hstop hinit hbody =>
    obtain ⟨ha, he, hi, hb⟩ := hh
    exact (hstart ha _).bind fun _ => (Traced.FailsFast.quietly _).bind fun _ =>
      (hstop he _).bind fun _ => (Traced.FailsFast.quietly _).bind fun _ =>
        (hinit hi _).bind fun s => .countUp (fun _ _ => hbody hb _) _ _ s
  | iteratedLoop _ _ _ _ hsource hinit hbody =>
    obtain ⟨hs, hi, hb⟩ := hh
    refine (hsource hs _).bind fun v => ?_
    cases v with
    | iterator addr =>
      exact (hinit hi _).bind fun s => .drain (.draw _) (fun _ _ => hbody hb _) turns s
    | _ => exact .quietly _
  | catching => exact hh.elim
  | finalized => exact hh.elim
  | checked _ _ htarget => exact (Traced.FailsFast.quietly _).bind fun _ => htarget hh _

end Splice.Handle

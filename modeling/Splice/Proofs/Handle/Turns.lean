import Splice.Closure.Eval
import Splice.Proofs.Exec.Draw

/-!
# Ends of handles, closures and expressions

More turns keep every end of a call: the induction over the handle has one case for each way to
compose handles, and the loops among them are steady if their parts are. So the ends of a call, of
a closure and of an expression under an environment, `Handle.Ends`, `Closure.Ends` and `Expr.Ends`,
are what these do when their loops may take as many turns as they need.
-/

namespace Splice

open Exec (Steady)

/-- Granting more turns to a call changes no end that it has come to. -/
theorem Handle.steady_call (h : Handle) (args : List Value) :
    Steady fun turns => h.call turns args := by
  induction h generalizing args with
  | prim sig run => exact .const _
  | permuted sig reorder target ih => exact ih _
  | collected sig pos filter target ihfilter ihtarget =>
    exact (ihfilter _).bind fun produced => ihtarget _
  | widened sig pos width target ih => exact ih _
  | filtered sig filter target ihfilter ihtarget =>
    exact (ihtarget args).bind fun produced => ihfilter _
  | converted sig conversion target ih =>
    exact (ih args).bind fun v => .const _
  | guarded sig test accept reject ihtest ihaccept ihreject =>
    refine (ihtest _).bind fun v => (Steady.const _).bind fun holds => ?_
    cases holds with
    | true => exact ihaccept args
    | false => exact ihreject args
  | whileLoop sig init pred body ihinit ihpred ihbody =>
    refine (ihinit args).bind fun s => Exec.steady_repeatWhile (fun s => ?_) (fun s => ?_) s
    · exact (ihpred _).bind fun v => .const _
    · exact ihbody _
  | doWhileLoop sig init body pred ihinit ihbody ihpred =>
    refine (ihinit args).bind fun s => Exec.steady_repeatUntil (fun s => ?_) (fun s => ?_) s
    · exact (ihpred _).bind fun v => .const _
    · exact ihbody _
  | countedLoop sig start stop init body ihstart ihstop ihinit ihbody =>
    exact (ihstart args).bind fun v => (Steady.const _).bind fun first =>
      (ihstop args).bind fun v => (Steady.const _).bind fun last =>
      (ihinit args).bind fun s => Exec.steady_countUp (fun i s => ihbody _) _ _ s
  | iteratedLoop sig source init body ihsource ihinit ihbody =>
    refine (ihsource args).bind fun v => ?_
    cases v with
    | iterator addr =>
      exact (ihinit args).bind fun s => Exec.steady_drain _ (fun v s => ihbody _) s
    | _ => exact .const _
  | catching sig cls target handler ihtarget ihhandler =>
    refine (ihtarget args).attempt.bind fun outcome => ?_
    cases outcome with
    | ok v => exact .const _
    | error e =>
      by_cases he : e.isInstanceOf cls
      · simp only [he, if_true]
        exact ihhandler _
      · simp only [he]
        exact .const _
  | finalized sig target cleanup ihtarget ihcleanup =>
    refine (ihtarget args).attempt.bind fun outcome => ?_
    cases outcome with
    | ok v => exact ihcleanup _
    | error e => exact (ihcleanup _).bind fun _ => .const _
  | checked sig target ih => exact (Steady.const _).bind fun _ => ih args

/-- The ends of a call, with as many turns for its loops as they need. -/
def Handle.Ends (h : Handle) (args : List Value) : Behaviour Value :=
  Exec.Ends fun turns => h.call turns args

namespace Closure

/-- The ends of a closure under an environment. -/
def Ends (c : Closure) (env : Env) : Behaviour Value := Exec.Ends fun turns => c.eval turns env

theorem steady_eval (c : Closure) (env : Env) : Steady fun turns => c.eval turns env :=
  c.handle.steady_call _

end Closure

namespace Expr

/-- The ends of an expression under an environment. -/
def Ends (e : Expr) (env : Env) : Behaviour Value := Exec.Ends fun turns => e.eval turns env

theorem steady_eval (e : Expr) (env : Env) : Steady fun turns => e.eval turns env := by
  cases e with
  | var v => exact .const _
  | closure c => exact c.steady_eval env

/-- The only end of an expression. -/
theorem ends_iff_eq {e : Expr} {env : Env} {w : World} {o : Outcome Value} (h : e.Ends env w o)
    (o' : Outcome Value) : e.Ends env w o' ↔ o' = o :=
  Exec.Ends.iff_eq (e.steady_eval env) h o'

end Expr

end Splice

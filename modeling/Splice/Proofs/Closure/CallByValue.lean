import Splice.Closure.Application
import Splice.Proofs.Occurrence
import Splice.Stock

/-!
# Application is call by value

Applying a handle to operands works from the rightmost closure to the leftmost one, and at the end
moves repeated variables to one place each. None of this can be seen from outside. The main
statement is that the result evaluates the operands from left to right, each as often as it stands
among them, and then calls the handle on their values; and that only operands of other types than
the handle takes are refused.
-/

namespace Splice

/-- A closure is the application of a handle to operands. -/
structure Closure.Applies (c : Closure) (h : Handle) (args : List Expr) : Prop where
  /-- It reads the variables of all operands, from left to right. -/
  args_first : FirstOccurrences (args.flatMap Expr.vars) c.args
  ty_eq : c.ty = h.ret
  eval_eq : ∀ turns env, c.eval turns env = (do h.call turns (← args.mapM (Expr.eval turns env)))
  /-- The first operand that fails is the last thing that runs. -/
  eval_of_failsFirst : ∀ turns env before arg after w values w₁ e w₂,
    args = before ++ arg :: after → before.mapM (Expr.eval turns env) w = .ok values w₁ →
    arg.eval turns env w₁ = .thrown e w₂ → c.eval turns env w = .thrown e w₂

/-- Operands behind one that fails have no effect. -/
theorem Expr.mapM_eval_of_failsFirst {turns : Nat} {env : Env} {before after : List Expr}
    {arg : Expr} {w w₁ w₂ : World} {values : List Value} {e : Exception}
    (hbefore : before.mapM (Expr.eval turns env) w = .ok values w₁)
    (harg : arg.eval turns env w₁ = .thrown e w₂) :
    (before ++ arg :: after).mapM (Expr.eval turns env) w = .thrown e w₂ := by
  rw [List.mapM_append, Exec.bind_apply, hbefore]
  -- what is left starts with the operand that fails
  show ((arg :: after).mapM (Expr.eval turns env) >>= _) w₁ = _
  rw [List.mapM_cons, Exec.bind_apply, Exec.bind_apply, harg]

namespace Closure

/-- Operands of other types are refused, and all others are not. -/
theorem exists_fold_iff {h : Handle} {args : List Expr} :
    (∃ c, fold h args = .ok c) ↔ args.map Expr.ty = h.params := by
  constructor
  · rintro ⟨c, hc⟩
    exact (require_bind_eq_ok_iff.1 hc).1
  · intro hparams
    obtain ⟨c, hc, -⟩ := exists_fold hparams
    exact ⟨c, hc⟩

/-- A handle can be applied to operands exactly when their types are its parameter types, and the
closure that results is the application of the handle to them. -/
theorem fold_applies (h : Handle) (args : List Expr) :
    ((∃ c, fold h args = .ok c) ↔ args.map Expr.ty = h.params) ∧
      ∀ c, fold h args = .ok c → c.Applies h args := by
  refine ⟨exists_fold_iff, fun c hc => ?_⟩
  obtain ⟨d, hd, hargs, hty, heval⟩ := exists_fold (exists_fold_iff.1 ⟨c, hc⟩)
  obtain rfl : c = d := Except.ok.inj (hc.symm.trans hd)
  refine ⟨?_, hty, heval, ?_⟩
  · rw [hargs]
    exact firstOccurrences_eraseDups _
  · intro turns env before arg after w values w₁ e w₂ hsplit hbefore harg
    rw [heval, Exec.bind_apply, hsplit, Expr.mapM_eval_of_failsFirst hbefore harg]

/-- A closure that stands twice among the operands runs twice, and its variables are read once. -/
theorem fold_repeated_operand :
    let p : Var := ⟨1, 0, true, .int⟩
    let q : Var := ⟨1, 1, true, .int⟩
    let add (tag : String) : Handle :=
      .prim ⟨[.int, .int], .int, by decide⟩ (Stock.runTagged .add (some tag))
    let inner : Closure := ⟨add "inner", [q, p], rfl⟩
    ∃ c, fold (add "outer") [.closure inner, .closure inner] = .ok c ∧ c.args = [q, p] ∧
      c.eval 0 (fun v => if v = p then .int 1 else .int 5) {} =
        .ok (.int 12) { effects := #["inner(5, 1)", "inner(5, 1)", "outer(6, 6)"] } := by
  intro p q add inner
  obtain ⟨haccepts, happlies⟩ := fold_applies (add "outer") [.closure inner, .closure inner]
  obtain ⟨c, hc⟩ := haccepts.2 rfl
  refine ⟨c, hc, (happlies c hc).args_first.eq_eraseDups, ?_⟩
  rw [(happlies c hc).eval_eq]
  rfl

end Closure

end Splice

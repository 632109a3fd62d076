import Splice.Closure.Eval

/-!
# Application to operands

`Closure.fold` is application: its result evaluates the operands from left to right, each in its
place and so a repeated closure once for each occurrence, and then calls the handle on the values.
An operand that fails ends the run, before any operand to its right and before the handle. The
statement `exists_fold` says this of all operands whose types are the handle's parameter types.
-/

namespace Splice.Closure

/-- The operands of a handle can be put in place of its parameters from `before` on. They run from
left to right, before the handle does. -/
theorem exists_collectAll {h : Handle} (before : List Ty) {args : List Expr}
    (hparams : h.params = before ++ args.map Expr.ty) :
    ∃ h', collectAll h before.length args = .ok h' ∧ h'.ret = h.ret ∧
      h'.params = before ++ (args.flatMap Expr.vars).map Var.ty ∧
      ∀ turns env values, values.length = before.length →
        h'.call turns (values ++ (args.flatMap Expr.vars).map env) =
          (do h.call turns (values ++ (← args.mapM (Expr.eval turns env)))) := by
  -- the operands behind the first one are put in first, with its value among those given
  induction args generalizing before with
  | nil => exact ⟨h, rfl, rfl, hparams, fun turns env values _ => by simp⟩
  | cons arg rest ih =>
    obtain ⟨inner, hinner, hret, hty, hcall⟩ := ih (before ++ [arg.ty]) (by simp [hparams])
    rw [List.length_append, List.length_singleton] at hinner hcall
    cases arg with
    | var v =>
      refine ⟨inner, ?_, hret, by simp [hty, Expr.vars, Expr.ty], fun turns env values hlen => ?_⟩
      · rw [collectAll, hinner]
        rfl
      · have hv := hcall turns env (values ++ [env v]) (by simp [hlen])
        simpa [Expr.vars, Expr.eval] using hv
    | closure c =>
      have hvoid : c.handle.ret ≠ .void := by
        intro hvoid
        apply h.sig.noVoid
        change Ty.void ∈ h.params
        simp [hparams, Expr.ty, ty, hvoid]
      have hpos : inner.params[before.length]? = some c.handle.ret := by
        simp [hty, Expr.ty, ty]
      obtain ⟨h', hc⟩ := (Handle.exists_collect_iff hvoid).2 hpos
      obtain ⟨hret', hty', hcall'⟩ := Handle.collect_eq_ok hc
      refine ⟨h', ?_, hret'.trans hret, ?_, fun turns env values hlen => ?_⟩
      · rw [collectAll, hinner]
        exact hc
      · rw [hty', hty, if_neg hvoid, ← c.typed]
        simp [Expr.vars]
      · -- the flat values fall into those given, the closure's arguments and those of the rest
        have hflat : values ++ ((Expr.closure c :: rest).flatMap Expr.vars).map env =
            values ++ (c.args.map env ++ (rest.flatMap Expr.vars).map env) := by
          rw [List.flatMap_cons, Expr.vars, List.map_append]
        have harity : (c.args.map env).length = c.handle.arity := by
          rw [List.length_map, c.length_args]
        rw [hcall', hflat, List.drop_left' hlen, List.take_left' hlen, List.take_left' harity,
          ← List.drop_drop, List.drop_left' hlen, List.drop_left' harity]
        simp only [if_neg hvoid, List.mapM_cons, bind_assoc, pure_bind]
        refine bind_congr fun produced => ?_
        have hrest := hcall turns env (values ++ [produced]) (by simp [hlen])
        simpa using hrest

/-- A handle applies to operands of its parameter types. The operands run from left to right, each
in its place, and then the handle runs on what they give. -/
theorem exists_fold {h : Handle} {args : List Expr} (hparams : args.map Expr.ty = h.params) :
    ∃ c, fold h args = .ok c ∧ c.args = (args.flatMap Expr.vars).eraseDups ∧ c.ty = h.ret ∧
      ∀ turns env, c.eval turns env = (do h.call turns (← args.mapM (Expr.eval turns env))) := by
  obtain ⟨folded, hfolded, hret, hty, hcall⟩ := exists_collectAll [] hparams.symm
  let wired : Closure := ⟨folded, args.flatMap Expr.vars, hty.symm⟩
  obtain ⟨c, hc, hargs, hcty, heval⟩ := exists_dedup wired
  refine ⟨c, ?_, hargs, hcty.trans hret, fun turns env => ?_⟩
  · exact require_bind_eq_ok_iff.2 ⟨hparams, bind_eq_ok_iff.2 ⟨folded, hfolded,
      bind_eq_ok_iff.2 ⟨wired, wire_eq_ok_iff.2 ⟨rfl, rfl⟩, hc⟩⟩⟩
  · rw [heval]
    exact hcall turns env [] rfl

end Splice.Closure

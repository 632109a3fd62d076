import Splice.Closure.Eval
import Splice.Proofs.Handle.Typing

/-!
# Checked runs of closures

A closure that is invoked from outside takes a value for each of its arguments and checks them
first. Values that pass the check are what some environment gives to the arguments, and the closure
then does what it does under that environment. All others are refused before anything is done.
`Closure.Performs` says what a closure does, inside of others and when it is invoked.
-/

namespace Splice

/-- There is an environment which gives listed values to distinct variables, and no value to all
others. -/
theorem Env.exists_map_eq {vars : List Var} {values : List Value} (hnodup : vars.Nodup)
    (hlen : values.length = vars.length) :
    ∃ env : Env, vars.map env = values ∧ ∀ v, v ∉ vars → env v = .unit :=
  ⟨bindAll (fun _ => .unit) vars values, map_bindAll hnodup hlen, fun _ hv => bindAll_of_notMem hv⟩

namespace Closure

variable {c : Closure} {env : Env}

theorem fits_map_iff : Fits c.handle.params (c.args.map env) ↔
    ∀ v ∈ c.args, v.ty.admits (env v) = true := by
  rw [← c.typed]
  unfold Fits
  rw [List.forall₂_map_left_iff, List.forall₂_map_right_iff, List.forall₂_same]

/-- Admitted values pass the check. -/
theorem invoke_eq_eval (h : ∀ v ∈ c.args, v.ty.admits (env v) = true) (turns : Nat) :
    c.invoke turns (c.args.map env) = c.eval turns env := by
  change (liftM (c.handle.sig.check (c.args.map env)) >>= fun _ =>
    c.handle.call turns (c.args.map env)) = _
  rw [Signature.check_eq_ok_iff.2 (fits_map_iff.2 h)]
  rfl

/-- Any other values are refused. -/
theorem invoke_cases (hnodup : c.args.Nodup) (turns : Nat) (values : List Value) :
    (∃ fault, c.invoke turns values = Exec.raise fault) ∨
      ∃ env : Env, c.args.map env = values ∧ (∀ v ∈ c.args, v.ty.admits (env v) = true) ∧
        (∀ v, v ∉ c.args → env v = .unit) ∧ c.invoke turns values = c.eval turns env := by
  cases hchecked : c.handle.sig.check values with
  | error fault =>
    refine .inl ⟨fault, ?_⟩
    change (liftM (c.handle.sig.check values) >>= fun _ => c.handle.call turns values) = _
    rw [hchecked]
    rfl
  | ok =>
    have hfits : Fits c.handle.params values := Signature.check_eq_ok_iff.1 hchecked
    have hlen : values.length = c.args.length := by
      rw [← hfits.length_eq, c.length_args]
      rfl
    obtain ⟨env, rfl, hunit⟩ := Env.exists_map_eq hnodup hlen
    have hadmits := fits_map_iff.1 hfits
    exact .inr ⟨env, rfl, hadmits, hunit, invoke_eq_eval hadmits turns⟩

/-- A closure does under every environment what a program does, and so it does when it is invoked.
Arguments that no environment gives are refused. -/
structure Performs (c : Closure) (x : (turns : Nat) → Env → Exec Value) : Prop where
  eval_eq : ∀ turns env, c.eval turns env = x turns env
  invoke_eq : ∀ turns (env : Env), (∀ v ∈ c.args, v.ty.admits (env v) = true) →
    c.invoke turns (c.args.map env) = x turns env
  invoke_cases : ∀ turns values, (∃ fault, c.invoke turns values = Exec.raise fault) ∨
    ∃ env : Env, c.args.map env = values ∧ c.invoke turns values = x turns env

theorem performs_of_eval_eq {x : (turns : Nat) → Env → Exec Value} (hnodup : c.args.Nodup)
    (heval : ∀ turns env, c.eval turns env = x turns env) : c.Performs x := by
  refine ⟨heval, fun turns env henv => (invoke_eq_eval henv turns).trans (heval turns env),
    fun turns values => ?_⟩
  obtain hrefused | ⟨env, hvalues, -, -, hinvoke⟩ := c.invoke_cases hnodup turns values
  · exact .inl hrefused
  · exact .inr ⟨env, hvalues, hinvoke.trans (heval turns env)⟩

end Closure

end Splice

import Splice.Proofs.Closure.Unification
import Splice.Proofs.Handle.Turns

/-!
# Pieces of loops and branches

The pieces of a loop are closures that read different variables, some of them variables of the loop
itself. To become one handle they are given the loop's own variables in front and are aligned by one
unifier. `Handle.Runs` says what an aligned piece is to its loop: it takes values for the loop's own
variables, and behind them the values that an environment gives to the variables of the unifier, and
runs the piece with the loop's own variables bound. `Unifier.exists_align_piece` says that every
piece comes out like this, whatever it shares with the others.
-/

namespace Splice

/-! ## Operands as pieces -/

/-- The run of an operand as a closure, which for a variable without values gives no value. -/
def Expr.run (turns : Nat) (env : Env) : Expr → Exec Value
  | .var v => return if v.ty = .void then .unit else env v
  | .closure c => c.eval turns env

theorem Expr.run_eq_eval {e : Expr} (hty : e.ty ≠ .void) (turns : Nat) (env : Env) :
    e.run turns env = e.eval turns env := by
  cases e with
  | closure c => rfl
  | var v =>
    change v.ty ≠ .void at hty
    change (return if v.ty = .void then .unit else env v : Exec Value) = _
    rw [if_neg hty]
    rfl

/-- What an operand with a value reads are its variables. -/
theorem Expr.vars_eq_reads {e : Expr} (hty : e.ty ≠ .void) : e.vars = e.reads := by
  cases e with
  | closure c => exact (reads_closure c).symm
  | var v =>
    change v.ty ≠ .void at hty
    simp [vars, reads, hty]

/-- The closure of an operand has the runs of the operand. -/
theorem Expr.eval_of_asClosure {e : Expr} {c : Closure} (hc : e.asClosure = .ok c) (turns : Nat)
    (env : Env) : c.eval turns env = e.run turns env := by
  by_cases hty : e.ty = .void
  · cases e with
    | closure d =>
      obtain rfl := Except.ok.inj hc
      rfl
    | var v =>
      change v.ty = .void at hty
      change v.asClosure = .ok c at hc
      rw [Var.asClosure, if_pos hty] at hc
      obtain rfl := Except.ok.inj hc
      change _ = (return if v.ty = .void then .unit else env v : Exec Value)
      rw [if_pos hty]
      rfl
  · have hbind := eval_bind_of_asClosure (f := pure) hc turns env fun h => absurd h hty
    rw [bind_pure, bind_pure] at hbind
    rw [hbind, run_eq_eval hty]

/-- More turns keep the ends of an operand. -/
theorem Expr.steady_run (e : Expr) (env : Env) : Exec.Steady fun turns => e.run turns env := by
  cases e with
  | var v => exact .const _
  | closure c => exact c.steady_eval env

/-- The closure of an operand has its type and reads the same variables. -/
theorem Expr.asClosure_eq_ok {e : Expr} {c : Closure} (hc : e.asClosure = .ok c) :
    c.ty = e.ty ∧ c.args = e.reads := by
  obtain ⟨d, hd, hspec⟩ := e.exists_asClosure
  obtain rfl : c = d := Except.ok.inj (hc.symm.trans hd)
  exact hspec

/-- The closure of an operand that has a value ends as the operand does. -/
theorem Expr.ends_of_asClosure {e : Expr} {c : Closure} (hc : e.asClosure = .ok c)
    (hty : e.ty ≠ .void) (env : Env) : c.Ends env = e.Ends env := by
  unfold Closure.Ends Expr.Ends
  simp only [eval_of_asClosure hc, run_eq_eval hty]

/-! ## Variables in front -/

/-- A closure has given variables in front of what another one reads, and does what that one
does. -/
structure Closure.Fronts (d c : Closure) (locals : List Var) : Prop where
  args_eq : d.args = locals ++ c.args.filter (· ∉ locals)
  ty_eq : d.ty = c.ty
  eval_eq : ∀ turns env, d.eval turns env = c.eval turns env

namespace Closure

/-- Without variables to put in front, a closure is as it should be. -/
theorem fronts_nil (c : Closure) : c.Fronts c [] :=
  ⟨(List.filter_eq_self.2 fun _ _ => rfl).symm, rfl, fun _ _ => rfl⟩

/-- A closure can have any variables with values in front. -/
theorem exists_fronts (c : Closure) {locals : List Var} (hvoid : ∀ v ∈ locals, v.ty ≠ .void) :
    ∃ d, c.withLocals locals = .ok d ∧ d.Fronts c locals := by
  obtain ⟨d, hd, hargs, hty, heval⟩ := c.exists_withLocals hvoid
  exact ⟨d, hd, hargs, hty, heval⟩

/-- Behind the variables in front stands what else the closure reads. -/
theorem Fronts.drop_args {d c : Closure} {locals : List Var} (h : d.Fronts c locals) :
    d.args.drop locals.length = c.args.filter (· ∉ locals) := by
  rw [h.args_eq, List.drop_left' rfl]

/-- The leading values are those of the variables in front. -/
theorem Fronts.call_eq {d c : Closure} {locals : List Var} (h : d.Fronts c locals)
    (hnodup : locals.Nodup) (turns : Nat) (env : Env) {values : List Value}
    (hlen : values.length = locals.length) :
    d.handle.call turns (values ++ (c.args.filter (· ∉ locals)).map env) =
      c.eval turns (env.bindAll locals values) := by
  -- the variables behind the front are none of those in front, so binding these leaves them
  have hfree : (c.args.filter (· ∉ locals)).map (env.bindAll locals values) =
      (c.args.filter (· ∉ locals)).map env := by
    refine List.map_congr_left fun v hv => Env.bindAll_of_notMem ?_
    simpa using (List.mem_filter.1 hv).2
  rw [← h.eval_eq, eval, h.args_eq, List.map_append, Env.map_bindAll hnodup hlen, hfree]

end Closure

/-! ## Aligned pieces -/

/-- A handle takes values for some variables of its own and, behind them, what an environment gives
to other variables, and runs a closure with its own variables bound. -/
structure Handle.Runs (h : Handle) (c : Closure) (locals vars : List Var) : Prop where
  params_eq : h.params = locals.map Var.ty ++ vars.map Var.ty
  ret_eq : h.ret = c.ty
  call_eq : ∀ turns (env : Env) values, values.length = locals.length →
    h.call turns (values ++ vars.map env) = c.eval turns (env.bindAll locals values)

/-- The ends of an aligned piece are those of the closure with its own variables bound. -/
theorem Handle.Runs.ends_eq {h : Handle} {c : Closure} {locals vars : List Var}
    (hruns : h.Runs c locals vars) (env : Env) (values : List Value)
    (hlen : values.length = locals.length) :
    h.Ends (values ++ vars.map env) = c.Ends (env.bindAll locals values) := by
  unfold Handle.Ends Closure.Ends
  simp only [hruns.call_eq _ env values hlen]

/-- A piece with its own variables in front runs as a piece once it is aligned. -/
theorem Unifier.runs_of_align {u : Unifier} {c d a : Closure} {locals : List Var}
    (hnodup : locals.Nodup) (hd : d.Fronts c locals) (ha : u.align locals.length d = .ok a) :
    a.handle.Runs c locals u.vars := by
  have haligned := alignedTo_of_align ha
  have hfront : d.args.take locals.length = locals := by
    rw [hd.args_eq, List.take_left' rfl]
  have hargs : a.args = locals ++ u.vars := by rw [haligned.args_eq, hfront]
  refine ⟨?_, haligned.ty_eq.trans hd.ty_eq, fun turns env values hlen => ?_⟩
  · rw [← a.typed, hargs, List.map_append]
  · rw [haligned.call_eq turns env values hlen, hd.drop_args]
    exact hd.call_eq hnodup turns env hlen

/-- Every piece whose variables are among the sources of a unifier is aligned by it. -/
theorem Unifier.exists_align_piece {sources : List (List Var)} {c d : Closure} {locals : List Var}
    (hsources : ∀ source ∈ sources, ∃ c : Closure, source ⊆ c.args) (hnodup : locals.Nodup)
    (hd : d.Fronts c locals) (keep : Nat) (hkeep : keep = locals.length)
    (hmem : d.args.drop keep ∈ sources) :
    ∃ a, (ofSources sources).align keep d = .ok a ∧
      a.handle.Runs c locals (ofSources sources).vars := by
  subst hkeep
  have hlen : locals.length ≤ d.args.length := by
    rw [hd.args_eq, List.length_append]
    exact Nat.le_add_right _ _
  obtain ⟨a, ha⟩ := exists_align_iff.2
    ⟨hlen, fun v hv => mem_vars_ofSources.2 ⟨_, hmem, hv⟩, ty_ne_void_of_mem_ofSources hsources⟩
  exact ⟨a, ha, runs_of_align hnodup hd ha⟩

/-- What operands and pieces of a loop read, apart from the loop's own variables. -/
def Closure.outerReads (operands : List Expr) (locals : List Var) (pieces : List Closure) :
    List Var :=
  operands.flatMap Expr.reads ++ pieces.flatMap fun piece => piece.args.filter (· ∉ locals)

/-- A handle with the parameters of an operand can be wired to the variables. -/
theorem Handle.Runs.exists_wire {h g : Handle} {c : Closure} {vars : List Var}
    (hruns : h.Runs c [] vars) (hparams : g.params = h.params) :
    ∃ d, Closure.wire g vars = .ok d :=
  ⟨⟨g, vars, (hparams.trans hruns.params_eq).symm⟩, Closure.wire_eq_ok_iff.2 ⟨rfl, rfl⟩⟩

/-- A handle that is wired to variables ends as a call on their values. -/
theorem Closure.ends_of_wire {h : Handle} {vars : List Var} {c : Closure}
    (hc : wire h vars = .ok c) (env : Env) : c.Ends env = h.Ends (vars.map env) := by
  obtain ⟨rfl, rfl⟩ := wire_eq_ok_iff.1 hc
  rfl

end Splice

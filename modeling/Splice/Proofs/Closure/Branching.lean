import Splice.Closure.Application
import Splice.Closure.Branch
import Splice.Proofs.Closure.Pieces
import Splice.Proofs.Handle.Control
import Splice.Stock

/-!
# Branches

A conditional evaluates its condition first and once, and goes on as the branch that the condition
selects, under the same environment. The main statement says so of both conditionals, whatever
variables the condition and the branches share: the other branch does not run, and neither of them
does if the condition fails.
-/

namespace Splice

/-- The run of an operand for its effects only. An operand without a value has none to drop. -/
def Expr.effect (turns : Nat) (env : Env) (e : Expr) : Exec Value :=
  if e.ty = .void then e.run turns env
  else do
    let _ ← e.run turns env
    return .unit

namespace Closure

/-- A closure evaluates a condition and runs what the condition selects. -/
structure Selects (c : Closure) (cond : Expr) (branches : List Expr)
    (accept reject : Nat → Env → Exec Value) : Prop where
  args_first : FirstOccurrences ((cond :: branches).flatMap Expr.reads) c.args
  eval_eq : ∀ turns env, c.eval turns env = do
    if ← (← cond.eval turns env).expectBool then accept turns env else reject turns env
  ends_of_true : ∀ env w w' o, cond.Ends env w (.ok (.bool true) w') →
    (c.Ends env w o ↔ Exec.Ends (accept · env) w' o)
  ends_of_false : ∀ env w w' o, cond.Ends env w (.ok (.bool false) w') →
    (c.Ends env w o ↔ Exec.Ends (reject · env) w' o)
  ends_of_thrown : ∀ env w e w' o, cond.Ends env w (.thrown e w') →
    (c.Ends env w o ↔ o = .thrown e w')

/-- What follows from the runs of a conditional whose branches are steady. -/
theorem selects_of_eval_eq {c : Closure} {cond : Expr} {branches : List Expr}
    {accept reject : Nat → Env → Exec Value}
    (hargs : FirstOccurrences ((cond :: branches).flatMap Expr.reads) c.args)
    (haccept : ∀ env, Exec.Steady (accept · env)) (hreject : ∀ env, Exec.Steady (reject · env))
    (heval : ∀ turns env, c.eval turns env = do
      if ← (← cond.eval turns env).expectBool then accept turns env else reject turns env) :
    c.Selects cond branches accept reject := by
  have hends : ∀ env, c.Ends env = ((cond.Ends env).Reads Value.expectBool).Then fun holds =>
      if holds then Exec.Ends (accept · env) else Exec.Ends (reject · env) := by
    intro env
    unfold Ends
    simp only [heval]
    exact Exec.ends_select (cond.steady_eval env) (haccept env) (hreject env)
  have htest : ∀ env w w' holds, cond.Ends env w (.ok (.bool holds) w') →
      ∀ o, (cond.Ends env).Reads Value.expectBool w o ↔ o = .ok holds w' :=
    fun env w w' holds hcond => Behaviour.reads_iff_of_ok (Expr.ends_iff_eq hcond) rfl
  refine ⟨hargs, heval, ?_, ?_, ?_⟩
  · intro env w w' o hcond
    rw [hends, Behaviour.then_iff_of_ok (htest env w w' true hcond), if_pos rfl]
  · intro env w w' o hcond
    rw [hends, Behaviour.then_iff_of_ok (htest env w w' false hcond), if_neg Bool.false_ne_true]
  · intro env w e w' o hcond
    rw [hends]
    exact Behaviour.then_iff_of_thrown (Behaviour.reads_iff_of_thrown (Expr.ends_iff_eq hcond))

/-! ## Accepted conditionals -/

/-- The values of variables, as operands. -/
theorem mapM_eval_vars (turns : Nat) (env : Env) (vars : List Var) :
    (vars.map Expr.var).mapM (Expr.eval turns env) = pure (vars.map env) := by
  induction vars with
  | nil => rfl
  | cons v vars ih =>
    rw [List.map_cons, List.mapM_cons, ih]
    rfl

/-- A branch that does not look at the condition in front. -/
theorem exists_dropCond {h : Handle} {c : Closure} {vars : List Var} (hruns : h.Runs c [] vars) :
    ∃ h', h.dropArgs 0 [.bool] = .ok h' ∧ h'.params = .bool :: vars.map Var.ty ∧ h'.ret = c.ty ∧
      ∀ turns (env : Env) v, h'.call turns (v :: vars.map env) = c.eval turns env := by
  have hvoid : Ty.void ∉ [Ty.bool] := by decide
  obtain ⟨h', hd⟩ := Handle.exists_dropArgs_iff.2 ⟨Nat.zero_le h.arity, hvoid⟩
  obtain ⟨hret, hparams, hcall⟩ := Handle.dropArgs_eq_ok hd
  refine ⟨h', hd, ?_, hret.trans hruns.ret_eq, fun turns env v => ?_⟩
  · rw [hparams, hruns.params_eq]
    rfl
  · rw [hcall]
    exact hruns.call_eq turns env [] rfl

/-- A guard of two aligned branches takes the condition in front of what they take. -/
theorem exists_guard {ha hr : Handle} {a r : Closure} {vars : List Var}
    (hra : ha.Runs a [] vars) (hrr : hr.Runs r [] vars) (hty : r.ty = a.ty) :
    ∃ test da dr guard, Handle.identity .bool = .ok test ∧ ha.dropArgs 0 [.bool] = .ok da ∧
      hr.dropArgs 0 [.bool] = .ok dr ∧ Handle.guardWithTest test da dr = .ok guard ∧
      guard.params = .bool :: vars.map Var.ty ∧ guard.ret = a.ty ∧
      ∀ turns (env : Env) v, guard.call turns (v :: vars.map env) = (do
        if ← v.expectBool then a.eval turns env else r.eval turns env) := by
  obtain ⟨da, hda, hdaparams, hdaret, hdacall⟩ := exists_dropCond hra
  obtain ⟨dr, hdr, hdrparams, hdrret, hdrcall⟩ := exists_dropCond hrr
  let test : Handle :=
    .prim ⟨[.bool], .bool, by decide⟩ fun args => return Handle.argument args 0
  refine ⟨test, da, dr, .guarded da.sig test da dr, rfl, hda, hdr,
    Handle.guardWithTest_eq_ok_iff.2 ⟨⟨rfl, ?_, ?_, ?_⟩, rfl⟩, hdaparams, hdaret,
    fun turns env v => ?_⟩
  · rw [hdrparams, hdaparams]
  · rw [hdrret, hdaret, hty]
  · rw [hdaparams]
    rfl
  · rw [Handle.call, hdacall, hdrcall]
    rfl

/-- A condition and branches of one type make a conditional. -/
theorem exists_ifThenElse {cond accept reject : Expr} (hcond : cond.ty = .bool)
    (hty : reject.ty = accept.ty) :
    ∃ c, ifThenElse cond accept reject = .ok c ∧ c.ty = accept.ty ∧
      c.Selects cond [accept, reject] (accept.run · ·) (reject.run · ·) := by
  obtain ⟨a, ha, haty, haargs⟩ := accept.exists_asClosure
  obtain ⟨r, hr, hrty, hrargs⟩ := reject.exists_asClosure
  have hsources : ∀ source ∈ [a.args, r.args], ∃ c : Closure, source ⊆ c.args := by
    simp only [List.forall_mem_cons]
    exact ⟨⟨a, List.Subset.refl _⟩, ⟨r, List.Subset.refl _⟩, nofun⟩
  obtain ⟨aa, haa, hra⟩ :=
    Unifier.exists_align_piece hsources List.nodup_nil a.fronts_nil 0 rfl (by simp)
  obtain ⟨ar, har, hrr⟩ :=
    Unifier.exists_align_piece hsources List.nodup_nil r.fronts_nil 0 rfl (by simp)
  have hbranches : r.ty = a.ty := by rw [hrty, haty, hty]
  obtain ⟨test, da, dr, guard, htest, hda, hdr, hguard, hparams, hret, hcall⟩ :=
    exists_guard hra hrr hbranches
  let vars := (Unifier.ofSources [a.args, r.args]).vars
  have htypes : (cond :: vars.map Expr.var).map Expr.ty = guard.params := by
    rw [hparams, List.map_cons, hcond, List.map_map]
    rfl
  obtain ⟨c, hc, hcargs, hcty, hceval⟩ := exists_fold htypes
  refine ⟨c, ?_, hcty.trans (hret.trans haty), selects_of_eval_eq ?_ accept.steady_run
    reject.steady_run fun turns env => ?_⟩
  · -- every step up to the last gives what has been found above
    have hexpected : expectType .elseBranch r a.ty = .ok () := require_eq_ok_iff.2 hbranches
    exact require_bind_eq_ok_iff.2 ⟨hcond, bind_eq_ok_iff.2 ⟨a, ha, bind_eq_ok_iff.2 ⟨r, hr,
      bind_eq_ok_iff.2 ⟨(), hexpected, bind_eq_ok_iff.2 ⟨test, htest,
      bind_eq_ok_iff.2 ⟨aa, haa, bind_eq_ok_iff.2 ⟨da, hda, bind_eq_ok_iff.2 ⟨ar, har,
      bind_eq_ok_iff.2 ⟨dr, hdr, bind_eq_ok_iff.2 ⟨guard, hguard, hc⟩⟩⟩⟩⟩⟩⟩⟩⟩⟩
  · -- the condition comes first, and the branches have been made to read the same variables
    have hkept : (cond :: vars.map Expr.var).flatMap Expr.vars = cond.reads ++ vars := by
      rw [List.flatMap_cons, Expr.vars_eq_reads (by simp [hcond]), List.flatMap_map]
      exact congrArg _ (List.flatMap_singleton' vars)
    have hvars : vars = (accept.reads ++ reject.reads).eraseDups := by
      simp [vars, Unifier.ofSources, haargs, hrargs]
    have hsplit : [cond, accept, reject].flatMap Expr.reads =
        cond.reads ++ (accept.reads ++ reject.reads) := by simp
    rw [hcargs, hkept, hvars, eraseDups_append_eraseDups, hsplit]
    exact firstOccurrences_eraseDups _
  · rw [hceval, List.mapM_cons, mapM_eval_vars]
    simp only [bind_assoc, pure_bind]
    refine bind_congr fun v => ?_
    rw [hcall, Expr.eval_of_asClosure ha, Expr.eval_of_asClosure hr]

/-- Where there is a conversion between the types, it is carried out on what the closure gives. -/
theorem exists_cast (c : Closure) {target : Ty} {conversion : Conversion}
    (hbetween : Conversion.between? c.ty target = some conversion) :
    ∃ d, c.cast target = .ok d ∧ d.ty = target ∧ d.args = c.args ∧
      ∀ turns env, d.eval turns env = (do conversion.apply (← c.eval turns env)) := by
  -- a cast to the same type leaves the closure as it is
  by_cases hty : c.ty = target
  · have hidentity : conversion = .identity := by
      rw [hty, Conversion.between?_self] at hbetween
      exact (Option.some.inj hbetween).symm
    refine ⟨c, if_pos hty, hty, rfl, fun turns env => ?_⟩
    rw [hidentity]
    exact (bind_pure (c.eval turns env)).symm
  · obtain ⟨h, hh⟩ : ∃ h, c.handle.convert target = .ok h := by
      rw [Handle.convert, show c.handle.ret = c.ty from rfl, hbetween]
      exact ⟨_, rfl⟩
    obtain ⟨conversion', hconversion, hparams, hret, hcall⟩ := Handle.convert_eq_ok hh
    obtain rfl := Option.some.inj (hbetween.symm.trans hconversion)
    refine ⟨⟨h, c.args, c.typed.trans hparams.symm⟩, ?_, hret, rfl, fun turns env => ?_⟩
    · rw [cast, if_neg hty, hh]
      exact wire_eq_ok_iff.2 ⟨rfl, rfl⟩
    · exact hcall turns (c.args.map env)

/-- The result of every closure can be dropped. -/
theorem exists_cast_void (c : Closure) :
    ∃ d, c.cast .void = .ok d ∧ d.ty = .void ∧ d.args = c.args ∧
      ∀ turns env, d.eval turns env =
        if c.ty = .void then c.eval turns env
        else do
          let _ ← c.eval turns env
          return .unit := by
  by_cases hty : c.ty = .void
  · refine ⟨c, ?_, hty, rfl, fun turns env => (if_pos hty).symm⟩
    rw [cast, if_pos hty]
    rfl
  · have hbetween : Conversion.between? c.ty .void = some .discard := by
      simp [Conversion.between?, hty]
    obtain ⟨d, hd, hdty, hdargs, hdeval⟩ := c.exists_cast hbetween
    refine ⟨d, hd, hdty, hdargs, fun turns env => ?_⟩
    rw [if_neg hty]
    exact hdeval turns env

/-- A condition and a branch of any type make a conditional without a value. -/
theorem exists_ifThen {cond accept : Expr} (hcond : cond.ty = .bool) :
    ∃ c, ifThen cond accept = .ok c ∧ c.ty = .void ∧
      c.Selects cond [accept] (accept.effect · ·) fun _ _ => return .unit := by
  obtain ⟨a, ha, haty, haargs⟩ := accept.exists_asClosure
  obtain ⟨d, hd, hdty, hdargs, hdeval⟩ := a.exists_cast_void
  obtain ⟨none, hnone, hnonety, hnoneargs, hnoneeval⟩ := exists_constantVoid
  have htypes : (Expr.closure none).ty = (Expr.closure d).ty := hnonety.trans hdty.symm
  obtain ⟨c, hc, hcty, hselects⟩ := exists_ifThenElse hcond htypes
  have heffect : ∀ turns env, d.eval turns env = accept.effect turns env := by
    intro turns env
    rw [hdeval, haty, Expr.eval_of_asClosure ha]
    rfl
  refine ⟨c, ?_, hcty.trans hdty, ?_⟩
  · exact bind_eq_ok_iff.2 ⟨a, ha, bind_eq_ok_iff.2 ⟨d, hd, bind_eq_ok_iff.2 ⟨none, hnone, hc⟩⟩⟩
  · -- dropping results changes no variables that are read
    have hreads : [cond, .closure d, .closure none].flatMap Expr.reads =
        [cond, accept].flatMap Expr.reads := by
      simp [Expr.reads_closure, hdargs, haargs, hnoneargs]
    obtain ⟨hargs, heval, htrue, hfalse, hthrown⟩ := hselects
    simp only [Expr.run, heffect, hnoneeval] at heval htrue hfalse
    exact ⟨hreads ▸ hargs, heval, htrue, hfalse, hthrown⟩

/-- An accepted conditional has operands of the right types. -/
theorem types_of_ifThenElse {cond accept reject : Expr} {c : Closure}
    (h : ifThenElse cond accept reject = .ok c) : cond.ty = .bool ∧ reject.ty = accept.ty := by
  obtain ⟨hcond, h⟩ := require_bind_eq_ok_iff.1 h
  obtain ⟨a, ha, h⟩ := bind_eq_ok_iff.1 h
  obtain ⟨r, hr, h⟩ := bind_eq_ok_iff.1 h
  obtain ⟨hty, -⟩ := require_bind_eq_ok_iff.1 h
  exact ⟨hcond, (Expr.asClosure_eq_ok hr).1 ▸ (Expr.asClosure_eq_ok ha).1 ▸ hty⟩

theorem type_of_ifThen {cond accept : Expr} {c : Closure} (h : ifThen cond accept = .ok c) :
    cond.ty = .bool := by
  obtain ⟨a, -, h⟩ := bind_eq_ok_iff.1 h
  obtain ⟨d, -, h⟩ := bind_eq_ok_iff.1 h
  obtain ⟨none, -, h⟩ := bind_eq_ok_iff.1 h
  exact (types_of_ifThenElse h).1

/-- Conditionals are refused only for the types of their operands, and select a branch. -/
theorem conditionals_select (cond accept reject : Expr) :
    ((∃ c, ifThenElse cond accept reject = .ok c) ↔
      cond.ty = .bool ∧ reject.ty = accept.ty) ∧
    (∀ c, ifThenElse cond accept reject = .ok c → c.ty = accept.ty ∧
      c.Selects cond [accept, reject] (accept.run · ·) (reject.run · ·)) ∧
    ((∃ c, ifThen cond accept = .ok c) ↔ cond.ty = .bool) ∧
    ∀ c, ifThen cond accept = .ok c → c.ty = .void ∧
      c.Selects cond [accept] (accept.effect · ·) fun _ _ => return .unit := by
  refine ⟨⟨?_, ?_⟩, ?_, ⟨?_, ?_⟩, ?_⟩
  · rintro ⟨c, h⟩
    exact types_of_ifThenElse h
  · rintro ⟨hcond, hty⟩
    obtain ⟨c, hc, -⟩ := exists_ifThenElse hcond hty
    exact ⟨c, hc⟩
  · intro c h
    obtain ⟨hcond, hty⟩ := types_of_ifThenElse h
    obtain ⟨d, hd, hspec⟩ := exists_ifThenElse hcond hty
    obtain rfl := Except.ok.inj (h.symm.trans hd)
    exact hspec
  · rintro ⟨c, h⟩
    exact type_of_ifThen h
  · intro hcond
    obtain ⟨c, hc, -⟩ := exists_ifThen hcond
    exact ⟨c, hc⟩
  · intro c h
    obtain ⟨d, hd, hspec⟩ := exists_ifThen (type_of_ifThen h)
    obtain rfl := Except.ok.inj (h.symm.trans hd)
    exact hspec

/-- The variable of a condition reaches the branches that read it in other places, and a condition
that fails is all that runs. -/
theorem conditionals_select_over_shared_variable :
    let p : Var := ⟨7, 0, true, .bool⟩
    let x : Var := ⟨7, 1, true, .int⟩
    let e : Exception := ⟨0, "E", "test"⟩
    let handle (f : Stock) (tag : String) (params : List Ty) (ret : Ty) (h : Ty.void ∉ params) :
        Handle := .prim ⟨params, ret, h⟩ (f.runTagged (some tag))
    let failing : Closure := ⟨handle (.throw e) "test" [.int] .bool (by decide), [x], rfl⟩
    let accept : Closure := ⟨handle (.arg 1) "then" [.bool, .int] .int (by decide), [p, x], rfl⟩
    let reject : Closure := ⟨handle (.arg 0) "else" [.int, .bool] .int (by decide), [x, p], rfl⟩
    let env (b : Bool) : Env := fun v => if v = p then .bool b else .int 5
    ∃ c d failed, ifThenElse (.var p) accept reject = .ok c ∧ ifThen (.var p) accept = .ok d ∧
      ifThenElse failing accept reject = .ok failed ∧
      c.args = [p, x] ∧ d.args = [p, x] ∧ failed.args = [x, p] ∧
      c.Ends (env true) {} (.ok (.int 5) { effects := #["then(true, 5)"] }) ∧
      c.Ends (env false) {} (.ok (.int 5) { effects := #["else(5, false)"] }) ∧
      d.Ends (env true) {} (.ok .unit { effects := #["then(true, 5)"] }) ∧
      d.Ends (env false) {} (.ok .unit {}) ∧
      failed.Ends (env true) {} (.thrown e { effects := #["test(5)"] }) := by
  intro p x e handle failing accept reject env
  obtain ⟨haccepts, hselects, hthenAccepts, hthenSelects⟩ :=
    conditionals_select (.var p) accept reject
  obtain ⟨hfailingAccepts, hfailingSelects, -⟩ := conditionals_select failing accept reject
  obtain ⟨c, hc⟩ := haccepts.2 ⟨rfl, rfl⟩
  obtain ⟨d, hd⟩ := hthenAccepts.2 rfl
  obtain ⟨failed, hfailed⟩ := hfailingAccepts.2 ⟨rfl, rfl⟩
  obtain ⟨-, hc'⟩ := hselects c hc
  obtain ⟨-, hd'⟩ := hthenSelects d hd
  obtain ⟨-, hfailed'⟩ := hfailingSelects failed hfailed
  refine ⟨c, d, failed, hc, hd, hfailed, hc'.args_first.eq_eraseDups, hd'.args_first.eq_eraseDups,
    hfailed'.args_first.eq_eraseDups, ?_, ?_, ?_, ?_, ?_⟩
  · exact (hc'.ends_of_true _ _ {} _ ⟨nofun, 0, rfl⟩).2 ⟨nofun, 0, rfl⟩
  · exact (hc'.ends_of_false _ _ {} _ ⟨nofun, 0, rfl⟩).2 ⟨nofun, 0, rfl⟩
  · exact (hd'.ends_of_true _ _ {} _ ⟨nofun, 0, rfl⟩).2 ⟨nofun, 0, rfl⟩
  · exact (hd'.ends_of_false _ _ {} _ ⟨nofun, 0, rfl⟩).2 ⟨nofun, 0, rfl⟩
  · exact (hfailed'.ends_of_thrown _ _ _ _ _ ⟨nofun, 0, rfl⟩).2 rfl

end Closure

end Splice

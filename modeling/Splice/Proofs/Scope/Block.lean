import Splice.Proofs.Occurrence
import Splice.Proofs.Scope.Grown
import Splice.Stock

/-!
# Blocks run like their histories

A block is built like a function, over inputs that are found out while statements are added. The
main statement is that its closure reads exactly the variables of other scopes that the block's
expressions and the returned one read, each once, in the order of first use, and that under every
environment for them it does what the history of the block says. In which statement a variable was
first used makes no difference.
-/

namespace Splice

/-- A closure reads given variables, all of other scopes, and under every environment does what a
body does. -/
structure Closure.Implements (c : Closure) (id : Nat) (history : History) (exprs : List Expr)
    (ret : Ty) (body : Nat → Env → Exec Value) : Prop where
  args_first : FirstOccurrences (Scope.outerReads id exprs) c.args
  mem_args_iff : ∀ v, v ∈ c.args ↔ (∃ e ∈ exprs, v ∈ e.reads) ∧ v.scope ≠ id
  ty_eq : c.ty = ret
  call_eq : ∀ turns env, c.handle.call turns (c.args.map env) = body turns env
  /-- The first assigned expression that fails is the last thing that runs. -/
  call_of_failsFirst : ∀ turns env w e w', history.FailsFirst turns env w e w' →
    c.handle.call turns (c.args.map env) w = .thrown e w'

/-- Building a block is wiring the handle of the scope that has been told what to return. -/
theorem Scope.result_buildBlock {s next : Scope} {ret : Expr} {v : Var} {supply : Supply}
    {h : Handle} {c : Closure} (hr : s.returned ret = .ok (v, next))
    (hh : ((next.build v).run.run supply).1 = .ok h) (hw : Closure.wire h next.inputs = .ok c) :
    ((s.buildBlock ret).run.run supply).1 = .ok c := by
  rw [buildBlock, hr]
  cases hx : (next.build v).run.run supply with
  | mk result supply' =>
    obtain rfl : result = .ok h := by
      rw [hx] at hh
      exact hh
    rw [← hw]
    change ((next.build v >>= fun h =>
      (liftM (Closure.wire h next.inputs) : Compose Closure)).run.run supply).1 = _
    rw [ExceptT.run_bind, StateT.run_bind, hx]
    rfl

/-- A block can be built with every expression, and its closure implements the history. -/
theorem Grown.exists_buildBlock {id : Nat} {history : History} {s : Scope} {ret : Expr}
    (hs : Grown id true history s) (hknows : history.Knows id ret) (supply : Supply) :
    ∃ c, ((s.buildBlock ret).run.run supply).1 = .ok c ∧
      c.Implements id history (history.exprs ++ [ret]) ret.ty
        fun turns env => history.run turns env ret := by
  obtain ⟨v, next, hr⟩ := Scope.exists_returned_iff.2 (Or.inl hs.recorded.capturing_eq)
  obtain ⟨-, -, -, hinputs, -⟩ := hs.run_of_returned hknows hr
  rw [hs.recorded.open_ rfl, List.nil_append] at hinputs
  obtain ⟨h, hh, hparams, hret, hrun⟩ := hs.exists_build hknows hr supply
  let c : Closure := ⟨h, next.inputs, hparams.symm⟩
  have hcall : ∀ turns env, c.handle.call turns (c.args.map env) = history.run turns env ret := hrun
  refine ⟨c, ?_, ?_, ?_, hret, hcall, ?_⟩
  · exact Scope.result_buildBlock hr hh (Closure.wire_eq_ok_iff.2 ⟨rfl, rfl⟩)
  · change FirstOccurrences _ next.inputs
    rw [hinputs]
    exact firstOccurrences_eraseDups _
  · intro v
    change v ∈ next.inputs ↔ _
    rw [hinputs]
    exact Scope.mem_outerVars
  · intro turns env w e w' hfail
    rw [hcall, History.run_of_failsFirst hfail]

/-- A block that has grown along a history can be built with every expression and with none. Its
closure reads the variables of other scopes that the history reads, and implements the history. -/
theorem buildBlock_implements_history {id : Nat} {history : History} {s : Scope}
    (hs : Grown id true history s) (supply : Supply) :
    (∀ ret, history.Knows id ret → ∃ c, ((s.buildBlock ret).run.run supply).1 = .ok c ∧
      c.Implements id history (history.exprs ++ [ret]) ret.ty
        fun turns env => history.run turns env ret) ∧
    ∃ c, (s.buildBlockVoid.run.run supply).1 = .ok c ∧
      c.Implements id history history.exprs .void fun turns env => history.runVoid turns env := by
  refine ⟨fun ret hknows => hs.exists_buildBlock hknows supply, ?_⟩
  obtain ⟨ret, hret, hty, hreads, hknows, hrun⟩ := History.exists_constantVoid id history
  obtain ⟨c, hc, himplements⟩ := hs.exists_buildBlock hknows supply
  simp only [hrun, hty] at himplements
  -- the closure that does nothing reads nothing, so the arguments come from the statements
  have hargs : c.args = Scope.outerVars id history.exprs := by
    rw [himplements.args_first.eq_eraseDups]
    apply Scope.outerVars_append_of_own
    simp [hreads]
  refine ⟨c, ?_, ?_, fun v => ?_, himplements.ty_eq, himplements.call_eq,
    himplements.call_of_failsFirst⟩
  · rw [Scope.buildBlockVoid, hret]
    exact hc
  · rw [hargs]
    exact firstOccurrences_eraseDups _
  · rw [hargs]
    exact Scope.mem_outerVars

/-- A block that adds a variable of another scope to itself, reports the sum, and returns the sum
with another variable that only the returned expression reads. -/
theorem buildBlock_returning_sum :
    let a : Var := ⟨1, 0, true, .int⟩
    let b : Var := ⟨1, 1, true, .int⟩
    let twice : Var := ⟨2, 0, false, .int⟩
    let add : Handle := .prim ⟨[.int, .int], .int, by decide⟩ (Stock.runTagged .add (some "add"))
    let seen : Closure :=
      ⟨.prim ⟨[.int], .void, by decide⟩ (Stock.runTagged .unit (some "seen")), [twice], rfl⟩
    let history : History := ⟨[], [],
      [⟨twice, .closure ⟨add, [a, a], rfl⟩⟩, ⟨⟨2, 1, false, .void⟩, .closure seen⟩]⟩
    let s : Scope := ⟨2, true, [a],
      [⟨twice, ⟨add, [a, a], rfl⟩⟩, ⟨⟨2, 1, false, .void⟩, seen⟩], 2⟩
    let ret : Expr := .closure ⟨add, [twice, b], rfl⟩
    Grown 2 true history s ∧ history.Knows 2 ret ∧
      ∃ c, ((s.buildBlock ret).run.run {}).1 = .ok c ∧ c.args = [a, b] ∧
        c.handle.call 0 [.int 2, .int 5] {} =
          .ok (.int 9) { effects := #["add(2, 2)", "seen(4)", "add(4, 5)"] } := by
  intro a b twice add seen history s ret
  have hopened : Grown 2 true {} ⟨2, true, [], [], 0⟩ := .opened
  have htwice : Grown 2 true ⟨[], [], [⟨twice, .closure ⟨add, [a, a], rfl⟩⟩]⟩
      ⟨2, true, [a], [⟨twice, ⟨add, [a, a], rfl⟩⟩], 1⟩ := by
    refine hopened.assigned (fun v hv hid => ?_) rfl
    have ha : v = a := by simpa [Expr.vars] using hv
    rw [ha] at hid
    exact absurd hid (by decide)
  have hgrown : Grown 2 true history s :=
    htwice.assigned (fun v hv _ => hv) rfl
  have hknows : history.Knows 2 ret := by
    intro v hv hid
    rcases List.mem_pair.1 hv with rfl | rfl
    · exact List.mem_cons_self
    · exact absurd hid (by decide)
  obtain ⟨hreturn, -⟩ := buildBlock_implements_history hgrown {}
  obtain ⟨c, hc, himplements⟩ := hreturn ret hknows
  have hargs : c.args = [a, b] := himplements.args_first.eq_eraseDups
  refine ⟨hgrown, hknows, c, hc, hargs, ?_⟩
  have hcall := himplements.call_eq 0 fun v => if v = b then .int 5 else .int 2
  rw [hargs] at hcall
  exact (congrFun hcall {}).trans rfl

end Splice

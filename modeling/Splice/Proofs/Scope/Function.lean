import Splice.Proofs.Scope.Grown
import Splice.Stock

/-!
# Functions run like their histories

A function is built from the end of its statements to the front, into one handle over its
parameters. The main statement is that this handle does what the history of the function says: it
binds the parameters, evaluates the assigned expressions in order, each once, and returns the value
of the returned one. Results, exceptions and the order of all effects are the same, since both sides
are the same computation on the world.
-/

namespace Splice

/-- A handle takes arguments of the types that a function declared, and does with them what a body
does once they are bound to the parameters. -/
structure Handle.Implements (h : Handle) (history : History) (ret : Ty)
    (body : Nat → Env → Exec Value) : Prop where
  params_eq : h.params = history.types
  ret_eq : h.ret = ret
  call_eq : ∀ turns (env : Env) args, args.length = history.types.length →
    h.call turns args = body turns (env.bindAll history.params args)
  /-- From outside, the same after the check of the arguments. -/
  invoke_eq : ∀ turns (env : Env) args, args.length = history.types.length →
    h.invoke turns args = (do
      h.sig.check args
      body turns (env.bindAll history.params args))
  /-- The first assigned expression that fails is the last thing that runs. -/
  call_of_failsFirst : ∀ turns (env : Env) args w e w', args.length = history.types.length →
    history.FailsFirst turns (env.bindAll history.params args) w e w' →
    h.call turns args w = .thrown e w'

namespace Scope

/-- Building a function is building the scope that has been told what to return. -/
theorem result_buildFunction {s next : Scope} {ret : Expr} {v : Var}
    (hr : s.returned ret = .ok (v, next)) (supply : Supply) :
    ((s.buildFunction ret).run.run supply).1 = ((next.build v).run.run supply).1 := by
  rw [buildFunction, hr]
  rfl

theorem returned_of_buildFunction {s : Scope} {ret : Expr} {supply : Supply} {h : Handle}
    (hh : ((s.buildFunction ret).run.run supply).1 = .ok h) :
    ∃ v next, s.returned ret = .ok (v, next) := by
  cases hr : s.returned ret with
  | ok result => exact ⟨result.1, result.2, rfl⟩
  | error cause =>
    rw [buildFunction, hr] at hh
    exact nomatch hh

end Scope

/-- The handle of a function implements the history, whatever the function returns. -/
theorem Grown.implements_of_buildFunction {id : Nat} {history : History} {s : Scope} {ret : Expr}
    (hs : Grown id false history s) (hknows : history.Knows id ret) {supply : Supply} {h : Handle}
    (hh : ((s.buildFunction ret).run.run supply).1 = .ok h) :
    h.Implements history ret.ty fun turns env => history.run turns env ret := by
  obtain ⟨v, next, hr⟩ := Scope.returned_of_buildFunction hh
  have hrec := hs.recorded
  have hown : ∀ w ∈ ret.reads, w.scope = id := by
    have hcase := Scope.exists_returned_iff.1 ⟨v, next, hr⟩
    rw [hrec.capturing_eq, hrec.id_eq] at hcase
    exact hcase.resolve_left Bool.false_ne_true
  -- a function has its parameters for inputs
  have hinputs : next.inputs = history.params := by
    obtain ⟨-, -, -, hinputs, -⟩ := hs.run_of_returned hknows hr
    rw [hinputs, Scope.outerVars_append_of_own _ hown, hrec.closed rfl, List.append_nil]
  have hlength : history.params.length = history.types.length := by
    rw [← hrec.types_eq, List.length_map]
  obtain ⟨h', hh', hparams, hret, hrun⟩ := hs.exists_build hknows hr supply
  rw [Scope.result_buildFunction hr] at hh
  obtain rfl : h = h' := Except.ok.inj (hh.symm.trans hh')
  have hcall : ∀ turns (env : Env) args, args.length = history.types.length →
      h.call turns args = history.run turns (env.bindAll history.params args) ret := by
    intro turns env args hargs
    rw [← hrun, hinputs, Env.map_bindAll hrec.nodup_params (hargs.trans hlength.symm)]
  refine ⟨?_, hret, hcall, ?_, ?_⟩
  · rw [hparams, hinputs, hrec.types_eq]
  · intro turns env args hargs
    rw [Handle.invoke, hcall turns env args hargs]
  · intro turns env args w e w' hargs hfail
    rw [hcall turns env args hargs, History.run_of_failsFirst hfail]

/-- A function that has grown along a history can be built with every expression that reads no
variable of another scope, and with none, and is then an implementation of the history. -/
theorem buildFunction_implements_history {id : Nat} {history : History} {s : Scope}
    (hs : Grown id false history s) (supply : Supply) :
    (∀ ret, history.Knows id ret →
      ((∃ h, ((s.buildFunction ret).run.run supply).1 = .ok h) ↔ ∀ v ∈ ret.reads, v.scope = id) ∧
      ∀ h, ((s.buildFunction ret).run.run supply).1 = .ok h →
        h.Implements history ret.ty fun turns env => history.run turns env ret) ∧
    ∃ h, (s.buildFunctionVoid.run.run supply).1 = .ok h ∧
      h.Implements history .void fun turns env => history.runVoid turns env := by
  have haccepts : ∀ ret, history.Knows id ret →
      ((∃ h, ((s.buildFunction ret).run.run supply).1 = .ok h) ↔
        ∀ v ∈ ret.reads, v.scope = id) := by
    intro ret hknows
    have hiff := @Scope.exists_returned_iff s ret
    rw [hs.recorded.capturing_eq, hs.recorded.id_eq] at hiff
    constructor
    · rintro ⟨h, hh⟩
      exact (hiff.1 (Scope.returned_of_buildFunction hh)).resolve_left Bool.false_ne_true
    · intro hown
      obtain ⟨v, next, hr⟩ := hiff.2 (Or.inr hown)
      obtain ⟨h, hh, -⟩ := hs.exists_build hknows hr supply
      exact ⟨h, (Scope.result_buildFunction hr supply).trans hh⟩
  refine ⟨fun ret hknows => ⟨haccepts ret hknows, fun h hh => ?_⟩, ?_⟩
  · exact hs.implements_of_buildFunction hknows hh
  · obtain ⟨ret, hret, hty, hreads, hknows, hrun⟩ := History.exists_constantVoid id history
    -- the closure that does nothing reads no variable of another scope
    obtain ⟨h, hh⟩ := (haccepts _ hknows).2 (by simp [hreads])
    have himplements := hs.implements_of_buildFunction hknows hh
    simp only [hrun, hty] at himplements
    refine ⟨h, ?_, himplements⟩
    rw [Scope.buildFunctionVoid, hret]
    exact hh

/-- A function that reports its parameter, computes a sum for nothing and returns the parameter. -/
theorem buildFunction_returning_parameter :
    let p : Var := ⟨1, 0, true, .int⟩
    let seen : Closure :=
      ⟨.prim ⟨[.int], .void, by decide⟩ (Stock.runTagged .unit (some "seen")), [p], rfl⟩
    let sum : Closure :=
      ⟨.prim ⟨[.int, .int], .int, by decide⟩ (Stock.runTagged .add (some "sum")), [p, p], rfl⟩
    let history : History := ⟨[.int], [p],
      [⟨⟨1, 1, false, .void⟩, .closure seen⟩, ⟨⟨1, 2, false, .int⟩, .closure sum⟩]⟩
    let s : Scope := ⟨1, false, [p],
      [⟨⟨1, 1, false, .void⟩, seen⟩, ⟨⟨1, 2, false, .int⟩, sum⟩], 3⟩
    Grown 1 false history s ∧ history.Knows 1 (.var p) ∧
      ∃ h, ((s.buildFunction (.var p)).run.run {}).1 = .ok h ∧ h.params = [.int] ∧
        h.call 0 [.int 7] {} = .ok (.int 7) { effects := #["seen(7)", "sum(7, 7)"] } := by
  intro p seen sum history s
  have hopened : Grown 1 false {} ⟨1, false, [], [], 0⟩ := .opened
  have hdeclared : Grown 1 false ⟨[.int], [p], []⟩ ⟨1, false, [p], [], 1⟩ :=
    Grown.declared hopened rfl (show Scope.addParam _ .int = _ from rfl)
  have hseen : Grown 1 false ⟨[.int], [p], [⟨⟨1, 1, false, .void⟩, .closure seen⟩]⟩
      ⟨1, false, [p], [⟨⟨1, 1, false, .void⟩, seen⟩], 2⟩ :=
    hdeclared.assigned (fun v hv _ => List.mem_append_left _ hv) rfl
  have hgrown : Grown 1 false history s := by
    refine hseen.assigned (fun v hv _ => ?_) rfl
    have hp : v = p := by simpa [Expr.vars, sum] using hv
    rw [hp]
    exact List.mem_append_left _ List.mem_cons_self
  have hknows : history.Knows 1 (.var p) := fun v hv _ => List.mem_append_left _ hv
  obtain ⟨hreturn, -⟩ := buildFunction_implements_history hgrown {}
  obtain ⟨haccepts, himplements⟩ := hreturn (.var p) hknows
  obtain ⟨h, hh⟩ := haccepts.2 fun v hv => by
    rw [List.mem_singleton.1 (List.mem_filter.1 hv).1]
  refine ⟨hgrown, hknows, h, hh, (himplements h hh).params_eq, ?_⟩
  rw [(himplements h hh).call_eq 0 (fun _ => .unit) [.int 7] rfl]
  rfl

end Splice

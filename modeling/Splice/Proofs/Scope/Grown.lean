import Splice.Proofs.Scope.History

/-!
# Scopes keep their histories

`Grown` relates a scope to its history, for every sequence of calls, refused ones included.
`Grown.recorded` says what the calls keep, by induction over them: the scope is well formed, its
statements stand for the bindings of the history, and its inputs are the parameters and then the
variables of other scopes that the expressions read, each once, in the order of first use.

The main statement, `Grown.run_of_returned`, is that a scope which has been told what to return is
well formed, still has these inputs and runs like its history.
-/

namespace Splice

namespace Scope

/-- The variables of other scopes that expressions read, in the order of use. -/
def outerReads (id : Nat) (exprs : List Expr) : List Var :=
  (exprs.flatMap Expr.reads).filter (·.scope ≠ id)

/-- The variables of other scopes that expressions read, each once, in the order of first use. -/
def outerVars (id : Nat) (exprs : List Expr) : List Var := (outerReads id exprs).eraseDups

/-- The outer variables of expressions are those that some expression reads and that belong to other
scopes. -/
theorem mem_outerVars {id : Nat} {exprs : List Expr} {v : Var} :
    v ∈ outerVars id exprs ↔ (∃ e ∈ exprs, v ∈ e.reads) ∧ v.scope ≠ id := by
  rw [outerVars, List.mem_eraseDups, outerReads, List.mem_filter, List.mem_flatMap]
  simp

/-- One more expression adds, at the end, those of its variables that were not read before. -/
theorem outerVars_append (id : Nat) (exprs : List Expr) (e : Expr) :
    outerVars id (exprs ++ [e]) = outerVars id exprs ++
      ((e.reads.filter (·.scope ≠ id)).filter (· ∉ outerVars id exprs)).eraseDups := by
  have hreads : outerReads id (exprs ++ [e]) =
      outerReads id exprs ++ e.reads.filter (·.scope ≠ id) := by
    simp [outerReads]
  rw [outerVars, hreads, List.eraseDups_append, ← outerVars, List.removeAll]
  congr 2
  apply List.filter_congr
  intro v _
  simp [outerVars, List.mem_eraseDups]

/-- An expression that reads variables of its own scope only adds nothing. -/
theorem outerVars_append_of_own {id : Nat} {e : Expr} (exprs : List Expr)
    (hown : ∀ v ∈ e.reads, v.scope = id) : outerVars id (exprs ++ [e]) = outerVars id exprs := by
  have hnone : e.reads.filter (·.scope ≠ id) = [] := by
    apply List.filter_eq_nil_iff.2
    intro v hv
    simp [hown v hv]
  rw [outerVars_append, hnone, List.filter_nil, List.eraseDups_nil, List.append_nil]

/-- An accepted expression is added as the closure that it can stand as. -/
theorem assign_eq_ok {s next : Scope} {e : Expr} {v : Var} (ha : s.assign e = .ok (v, next)) :
    ∃ c, e.asClosure = .ok c ∧ c.ty = e.ty ∧ c.args = e.reads ∧
      s.assignClosure c = .ok (v, next) := by
  obtain ⟨c, hc, ha⟩ := bind_eq_ok_iff.1 ha
  obtain ⟨c', hc', hty, hreads⟩ := e.exists_asClosure
  obtain rfl : c = c' := Except.ok.inj (hc.symm.trans hc')
  exact ⟨c, hc, hty, hreads, ha⟩

end Scope

/-! ## Statements that stand for bindings -/

/-- A statement stands for a binding if it runs the expression and has the same variable. -/
structure Binding.StandsFor (b : Binding) (st : Statement) : Prop where
  var_eq : st.var = b.var
  ty_eq : b.var.ty = b.expr.ty
  closure_eq : b.expr.asClosure = .ok st.closure

namespace History

/-- Statements bind the variables of the bindings that they stand for. -/
theorem map_var_of_standsFor {bindings : List Binding} {statements : List Statement}
    (h : List.Forall₂ Binding.StandsFor bindings statements) :
    statements.map Statement.var = bindings.map Binding.var := by
  induction h with
  | nil => rfl
  | cons hfirst _ ih => rw [List.map_cons, List.map_cons, hfirst.var_eq, ih]

/-- Statements run like the bindings that they stand for. -/
theorem runStatements_eq_runBindings {bindings : List Binding} {statements : List Statement}
    (h : List.Forall₂ Binding.StandsFor bindings statements) (turns : Nat) (env : Env) :
    Scope.runStatements turns env statements = runBindings turns env bindings := by
  -- both sides bind the same results, so the rest runs in the same environment
  induction h generalizing env with
  | nil => rfl
  | @cons b st bindings statements hfirst _ ih =>
    rw [Scope.runStatements, runBindings, hfirst.var_eq]
    have hrest : ∀ value, Scope.runStatements turns (env.bindResult b.var value) statements =
        runBindings turns (env.bindResult b.var value) bindings := fun value => ih _
    simp only [hrest]
    apply Expr.eval_bind_of_asClosure hfirst.closure_eq
    -- what a binding without a value gives is not looked at
    intro hvoid value value'
    rw [Env.bindResult, Env.bindResult, if_pos (hfirst.ty_eq.trans hvoid),
      if_pos (hfirst.ty_eq.trans hvoid)]

end History

/-! ## Growing along a history -/

/-- How a scope comes to have a history. A caller opens it; declares parameters, if it is a
function, some of which may be refused; and assigns expressions, which mention variables of the
scope only after getting them. -/
inductive Grown (id : Nat) (capturing : Bool) : History → Scope → Prop where
  | opened : Grown id capturing {} { id, capturing }
  | declared {history : History} {s next : Scope} {ty : Ty} {v : Var}
      (hs : Grown id capturing history s) (hfunction : capturing = false)
      (haccepted : s.addParam ty = (.ok v, next)) :
      Grown id capturing
        { history with types := history.types ++ [ty], params := history.params ++ [v] } next
  | refused {history : History} {s next : Scope} {ty : Ty} {cause : CompositionError}
      (hs : Grown id capturing history s) (hfunction : capturing = false)
      (hrefused : s.addParam ty = (.error cause, next)) : Grown id capturing history next
  | assigned {history : History} {s next : Scope} {e : Expr} {v : Var}
      (hs : Grown id capturing history s) (hknows : history.Knows id e)
      (haccepted : s.assign e = .ok (v, next)) :
      Grown id capturing { history with bindings := history.bindings ++ [⟨v, e⟩] } next

/-- What a scope has to do with its history. -/
structure Recorded (id : Nat) (capturing : Bool) (history : History) (s : Scope) : Prop where
  wellFormed : s.WellFormed
  id_eq : s.id = id
  capturing_eq : s.capturing = capturing
  types_eq : history.params.map Var.ty = history.types
  own : ∀ v ∈ history.params, v.scope = id
  inputs_eq : s.inputs = history.params ++ Scope.outerVars id history.exprs
  standsFor : List.Forall₂ Binding.StandsFor history.bindings s.statements
  /-- A function reads no variable of another scope. -/
  closed : capturing = false → Scope.outerVars id history.exprs = []
  /-- A block has no parameters. -/
  open_ : capturing = true → history.params = []

namespace Recorded

variable {id : Nat} {capturing : Bool} {history : History} {s next : Scope}

/-- The variables that the caller has got are live, unless they have no values. -/
theorem mem_live (hs : Recorded id capturing history s) {v : Var} (hv : v ∈ history.vars)
    (hty : v.ty ≠ .void) : v ∈ s.live := by
  rcases List.mem_append.1 hv with hv | hv
  · -- parameters are inputs, and results with values are live behind all inputs
    apply List.mem_append_left
    rw [hs.inputs_eq]
    exact List.mem_append_left _ hv
  · apply List.mem_append_right
    rw [History.map_var_of_standsFor hs.standsFor, List.mem_filter]
    exact ⟨hv, by simpa using hty⟩

/-- No parameter has been declared twice. -/
theorem nodup_params (hs : Recorded id capturing history s) : history.params.Nodup := by
  have hlive := hs.wellFormed.distinct
  rw [Scope.live, hs.inputs_eq, List.append_assoc] at hlive
  exact (List.nodup_append.1 hlive).1

/-- All variables that the caller has got belong to the scope. -/
theorem scope_of_mem_vars (hs : Recorded id capturing history s) {v : Var} (hv : v ∈ history.vars) :
    v.scope = id := by
  rcases List.mem_append.1 hv with hv | hv
  · exact hs.own v hv
  · rw [← History.map_var_of_standsFor hs.standsFor] at hv
    obtain ⟨st, hst, rfl⟩ := List.mem_map.1 hv
    exact (hs.wellFormed.own st hst).trans hs.id_eq

/-- A scope that declares a parameter stays in step with its history. -/
theorem declared (hs : Recorded id capturing history s) (hfunction : capturing = false) {ty : Ty}
    {v : Var} (haccepted : s.addParam ty = (.ok v, next)) :
    Recorded id capturing
      { history with types := history.types ++ [ty], params := history.params ++ [v] } next := by
  have hwellFormed := hs.wellFormed.addParam haccepted
  obtain ⟨-, -, hv, hnext⟩ := Scope.addParam_eq_ok haccepted
  have hinputs := hs.inputs_eq
  rw [hs.closed hfunction, List.append_nil] at hinputs
  refine ⟨hwellFormed, ?_, ?_, ?_, ?_, ?_, ?_, hs.closed, ?_⟩
  · rw [hnext]
    exact hs.id_eq
  · rw [hnext]
    exact hs.capturing_eq
  · rw [List.map_append, hs.types_eq, List.map_singleton, hv]
  · intro w hw
    rcases List.mem_append.1 hw with hw | hw
    · exact hs.own w hw
    · rw [List.mem_singleton.1 hw, hv]
      exact hs.id_eq
  · change next.inputs = (history.params ++ [v]) ++ Scope.outerVars id history.exprs
    rw [hs.closed hfunction, List.append_nil, hnext, hinputs]
  · rw [hnext]
    exact hs.standsFor
  · intro hblock
    exact absurd (hfunction.symm.trans hblock) Bool.false_ne_true

/-- A scope that refuses a parameter stays in step with its history. -/
theorem refused (hs : Recorded id capturing history s) {ty : Ty} {cause : CompositionError}
    (hrefused : s.addParam ty = (.error cause, next)) : Recorded id capturing history next := by
  have hwellFormed := hs.wellFormed.refuseParam hrefused
  obtain ⟨nextOrdinal, -, rfl⟩ := Scope.addParam_eq_error hrefused
  exact ⟨hwellFormed, hs.id_eq, hs.capturing_eq, hs.types_eq, hs.own, hs.inputs_eq, hs.standsFor,
    hs.closed, hs.open_⟩

/-- The inputs after a statement: what it captures is what its expression reads for the first
time. -/
theorem inputs_append_captured (hs : Recorded id capturing history s) {e : Expr} {c : Closure}
    (hreads : c.args = e.reads) :
    s.inputs ++ s.captured c = history.params ++ Scope.outerVars id (history.exprs ++ [e]) := by
  rw [Scope.outerVars_append, hs.inputs_eq, List.append_assoc]
  congr 2
  rw [Scope.captured, Scope.foreign, hreads, hs.id_eq]
  congr 1
  -- of other scopes' variables, those that are no inputs are those not read before
  apply List.filter_congr
  intro w hw
  have hother : w.scope ≠ id := by simpa using (List.mem_filter.1 hw).2
  have hparam : w ∉ history.params := fun hmem => hother (hs.own w hmem)
  simp [hs.inputs_eq, hparam]

/-- A scope that takes a statement stays in step with its history. -/
theorem assigned (hs : Recorded id capturing history s) {e : Expr} {v : Var}
    (hknows : history.Knows id e) (haccepted : s.assign e = .ok (v, next)) :
    Recorded id capturing { history with bindings := history.bindings ++ [⟨v, e⟩] } next := by
  obtain ⟨c, hc, hty, hreads, haccepted⟩ := Scope.assign_eq_ok haccepted
  -- the closure reads variables with values only, and of this scope only those given out
  have hknown : ∀ w ∈ c.args, w.scope = s.id → w ∈ s.live := fun w hw hid => by
    have hmentions : w ∈ e.vars := (List.mem_filter.1 (hreads ▸ hw)).1
    exact hs.mem_live (hknows w hmentions (hid.trans hs.id_eq)) (c.ty_ne_void_of_mem_args hw)
  have hwellFormed := hs.wellFormed.assignClosure hknown haccepted
  have hexprs : History.exprs { history with bindings := history.bindings ++ [⟨v, e⟩] } =
      history.exprs ++ [e] := by simp [History.exprs]
  obtain ⟨hv, hnext⟩ := Scope.assignClosure_eq_ok haccepted
  refine ⟨hwellFormed, ?_, ?_, hs.types_eq, hs.own, ?_, ?_, ?_, hs.open_⟩
  · rw [hnext]
    exact hs.id_eq
  · rw [hnext]
    exact hs.capturing_eq
  · rw [hexprs, ← hs.inputs_append_captured hreads, hnext]
    rfl
  · rw [hnext]
    have hlast : Binding.StandsFor ⟨v, e⟩ ⟨v, c⟩ := ⟨rfl, by rw [hv]; exact hty, hc⟩
    exact List.rel_append hs.standsFor (.cons hlast .nil)
  · -- a function takes what reads its own variables only, so there is still no outer one
    intro hfunction
    have hforeign : s.foreign c.args = [] := by
      have hcapturing := hs.capturing_eq.trans hfunction
      have hcase := Scope.exists_assignClosure_iff.1 ⟨v, next, haccepted⟩
      exact hcase.resolve_left fun htrue => Bool.false_ne_true (hcapturing.symm.trans htrue)
    rw [hexprs, Scope.outerVars_append_of_own, hs.closed hfunction]
    intro w hw
    have hnone := List.filter_eq_nil_iff.1 hforeign w (hreads ▸ hw)
    rw [← hs.id_eq]
    simpa using hnone

end Recorded

/-- Every scope is well formed and in step with its history. -/
theorem Grown.recorded {id : Nat} {capturing : Bool} {history : History} {s : Scope}
    (hs : Grown id capturing history s) : Recorded id capturing history s := by
  induction hs with
  | opened =>
    exact ⟨Scope.wellFormed_empty id capturing, rfl, rfl, rfl,
      fun _ hv => absurd hv List.not_mem_nil, rfl, .nil, fun _ => rfl, fun _ => rfl⟩
  | declared _ hfunction haccepted ih => exact ih.declared hfunction haccepted
  | refused _ _ hrefused ih => exact ih.refused hrefused
  | assigned _ hknows haccepted ih => exact ih.assigned hknows haccepted

/-! ## What a scope returns -/

/-- Returning the variable of one more binding is returning the expression itself. -/
theorem History.result_runBindings_append {v : Var} {ret : Expr} (hty : v.ty = ret.ty) (turns : Nat)
    (env : Env) (history : History) :
    (do return Scope.result (← runBindings turns env (history.bindings ++ [⟨v, ret⟩])) v) =
      history.run turns env ret := by
  rw [runBindings_append, run, bind_assoc]
  refine bind_congr fun env' => ?_
  rw [runBindings, bind_assoc]
  refine bind_congr fun value => ?_
  rw [runBindings, pure_bind, Scope.result, Env.bindResult, hty]
  by_cases hvoid : ret.ty = .void
  · rw [if_pos hvoid, if_pos hvoid]
  · rw [if_neg hvoid, if_neg hvoid, if_neg hvoid, Env.bind, if_pos rfl]

namespace Scope

/-- A scope returns a variable of its own as it is, and anything else as one more statement. -/
theorem returned_eq_ok {s next : Scope} {ret : Expr} {v : Var}
    (hr : s.returned ret = .ok (v, next)) :
    (ret = .var v ∧ v.scope = s.id ∧ next = s) ∨ s.assign ret = .ok (v, next) := by
  cases ret with
  | closure c => exact Or.inr hr
  | var w =>
    rw [returned] at hr
    by_cases hown : w.scope = s.id
    · rw [if_pos hown] at hr
      obtain ⟨rfl, rfl⟩ := Prod.mk.inj (Except.ok.inj hr)
      exact Or.inl ⟨rfl, hown, rfl⟩
    · rw [if_neg hown] at hr
      exact Or.inr hr

/-- A block can assign everything, and a function what reads variables of its own only. -/
theorem exists_assign_iff {s : Scope} {e : Expr} :
    (∃ v next, s.assign e = .ok (v, next)) ↔
      s.capturing = true ∨ ∀ v ∈ e.reads, v.scope = s.id := by
  obtain ⟨c, hc, -, hreads⟩ := e.exists_asClosure
  have hforeign : s.foreign c.args = [] ↔ ∀ v ∈ e.reads, v.scope = s.id := by
    rw [foreign, hreads, List.filter_eq_nil_iff]
    simp
  rw [← hforeign, ← exists_assignClosure_iff, assign, hc]
  exact Iff.rfl

/-- A scope can return what it can assign. -/
theorem exists_returned_iff {s : Scope} {ret : Expr} :
    (∃ v next, s.returned ret = .ok (v, next)) ↔
      s.capturing = true ∨ ∀ v ∈ ret.reads, v.scope = s.id := by
  cases ret with
  | closure c => exact exists_assign_iff (e := .closure c)
  | var w =>
    rw [returned]
    by_cases hown : w.scope = s.id
    · rw [if_pos hown]
      refine ⟨fun _ => Or.inr fun v hv => ?_, fun _ => ⟨w, s, rfl⟩⟩
      have hw : v ∈ [w] := (List.mem_filter.1 hv).1
      rw [List.mem_singleton.1 hw, hown]
    · rw [if_neg hown]
      exact exists_assign_iff

end Scope

/-- A scope that has been told what to return is well formed, has the variable that holds it, and
runs like its history. -/
theorem Grown.run_of_returned {id : Nat} {capturing : Bool} {history : History} {s next : Scope}
    {ret : Expr} {v : Var} (hs : Grown id capturing history s) (hknows : history.Knows id ret)
    (hr : s.returned ret = .ok (v, next)) :
    next.WellFormed ∧ (v.ty = .void ∨ v ∈ next.live) ∧ v.ty = ret.ty ∧
      next.inputs = history.params ++ Scope.outerVars id (history.exprs ++ [ret]) ∧
      ∀ turns env, next.run turns env v = history.run turns env ret := by
  have hrec := hs.recorded
  rcases Scope.returned_eq_ok hr with ⟨rfl, hown, rfl⟩ | hassign
  · -- a variable of the scope itself
    have hid : v.scope = id := hown.trans hrec.id_eq
    have hgot : v ∈ history.vars := hknows v (List.mem_singleton.2 rfl) hid
    refine ⟨hrec.wellFormed, ?_, rfl, ?_, fun turns env => ?_⟩
    · by_cases hty : v.ty = .void
      · exact Or.inl hty
      · exact Or.inr (hrec.mem_live hgot hty)
    · rw [Scope.outerVars_append_of_own, hrec.inputs_eq]
      intro w hw
      have hwv : w ∈ [v] := (List.mem_filter.1 hw).1
      rw [List.mem_singleton.1 hwv, hid]
    · rw [Scope.run, History.runStatements_eq_runBindings hrec.standsFor]
      rfl
  · -- one more statement, whose variable holds the result
    let history' : History := { history with bindings := history.bindings ++ [⟨v, ret⟩] }
    have hrec' : Recorded id capturing history' next := (hs.assigned hknows hassign).recorded
    have hgot : v ∈ history'.vars := by simp [history', History.vars]
    obtain ⟨c, -, hcty, -, hc⟩ := Scope.assign_eq_ok hassign
    have hty : v.ty = ret.ty := by
      rw [(Scope.assignClosure_eq_ok hc).1]
      exact hcty
    refine ⟨hrec'.wellFormed, ?_, hty, ?_, fun turns env => ?_⟩
    · by_cases hvoid : v.ty = .void
      · exact Or.inl hvoid
      · exact Or.inr (hrec'.mem_live hgot hvoid)
    · rw [hrec'.inputs_eq]
      simp [history', History.exprs]
    · rw [Scope.run, History.runStatements_eq_runBindings hrec'.standsFor]
      exact History.result_runBindings_append hty turns env history

/-- So it can be built, and the handle over its inputs runs like the history. -/
theorem Grown.exists_build {id : Nat} {capturing : Bool} {history : History} {s next : Scope}
    {ret : Expr} {v : Var} (hs : Grown id capturing history s) (hknows : history.Knows id ret)
    (hr : s.returned ret = .ok (v, next)) (supply : Supply) :
    ∃ h, ((next.build v).run.run supply).1 = .ok h ∧
      h.params = next.inputs.map Var.ty ∧ h.ret = ret.ty ∧
      ∀ turns env, h.call turns (next.inputs.map env) = history.run turns env ret := by
  obtain ⟨hwellFormed, hlive, hty, -, hrun⟩ := hs.run_of_returned hknows hr
  obtain ⟨h, hh, hparams, hret, hcall⟩ := Scope.exists_build hwellFormed hlive supply
  refine ⟨h, hh, hparams, hret.trans hty, fun turns env => ?_⟩
  rw [hcall, hrun]

/-- A scope that returns no value returns the closure that does nothing, which reads nothing. -/
theorem History.exists_constantVoid (id : Nat) (history : History) :
    ∃ c, Closure.constantVoid = .ok c ∧ Expr.ty (.closure c) = .void ∧
      Expr.reads (.closure c) = [] ∧ history.Knows id (.closure c) ∧
      ∀ turns env, history.run turns env (.closure c) = history.runVoid turns env := by
  obtain ⟨c, hc, hty, hargs, heval⟩ := Closure.exists_constantVoid
  refine ⟨c, hc, hty, (Expr.reads_closure c).trans hargs, ?_, fun turns env => ?_⟩
  · intro v hv
    rw [Expr.vars, hargs] at hv
    exact absurd hv List.not_mem_nil
  · rw [run, runVoid]
    refine bind_congr fun env' => ?_
    rw [Expr.eval, heval, pure_bind, Expr.ty, if_pos hty]

end Splice

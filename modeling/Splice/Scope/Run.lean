import Splice.Closure.Eval
import Splice.Scope.Build

/-!
# Running scopes

`Scope.run` says what a scope means without building it: its statements run in order, each once,
each in the environment that the ones before it leave. The main statement, `Scope.exists_chain`, is
that the handle built for a statement sequence does the same on the values of the live variables.
-/

namespace Splice

namespace Statement

/-- The variables that a statement adds to the live ones. -/
def results (st : Statement) : List Var := if st.var.ty = .void then [] else [st.var]

theorem length_results (st : Statement) : st.results.length = st.width := by
  unfold results width
  split <;> rfl

end Statement

namespace Scope

/-- Runs statements in order and binds the result of each, if it has one, to its variable. -/
def runStatements (turns : Nat) (env : Env) : List Statement → Exec Env
  | [] => return env
  | st :: rest => do
    runStatements turns (env.bindResult st.var (← st.closure.eval turns env)) rest

/-- The value that an environment gives to a variable, none if the variable has no values. -/
def result (env : Env) (ret : Var) : Value := if ret.ty = .void then .unit else env ret

/-- Runs a scope and returns a variable. -/
def run (turns : Nat) (env : Env) (s : Scope) (ret : Var) : Exec Value :=
  return result (← runStatements turns env s.statements) ret

/-- Whether each statement of a sequence, which starts with `width` variables live, reads live
variables only. -/
def Visible (live : List Var) : (width : Nat) → List Statement → Prop
  | _, [] => True
  | width, st :: rest =>
    (∀ v ∈ st.closure.args, v ∈ live.take width) ∧
      Visible live (width + st.width) rest

/-- The end of a statement sequence returns the value of the returned variable. -/
theorem exists_finish {live : List Var} {ret : Var} (hvoid : ∀ v ∈ live, v.ty ≠ .void)
    (hret : ret.ty = .void ∨ ret ∈ live) :
    ∃ h, finish live ret = .ok h ∧ h.params = live.map Var.ty ∧ h.ret = ret.ty ∧
      ∀ turns env, h.call turns (live.map env) = return result env ret := by
  have hparams : Ty.void ∉ live.map Var.ty := by
    rw [List.mem_map]
    rintro ⟨v, hv, hty⟩
    exact hvoid v hv hty
  have hsig := Signature.ofTypes_of_notMem hparams
  by_cases hretvoid : ret.ty = .void
  · rw [finish, if_pos hretvoid]
    refine ⟨_, bind_eq_ok_iff.2 ⟨_, hsig .void, rfl⟩, rfl, hretvoid.symm, fun turns env => ?_⟩
    rw [Handle.call, result, if_pos hretvoid]
  · have hmem := hret.resolve_left hretvoid
    rw [finish, if_neg hretvoid]
    cases hi : live.idxOf? ret with
    | none => exact absurd hmem (List.idxOf?_eq_none_iff.1 hi)
    | some i =>
      obtain ⟨hlt, hv, -⟩ := List.idxOf?_eq_some_iff.1 hi
      have hty : (live.map Var.ty)[i]? = some ret.ty := by
        rw [List.getElem?_map, List.getElem?_eq_getElem hlt, hv, Option.map_some]
      simp only [Handle.project, hty]
      refine ⟨_, bind_eq_ok_iff.2 ⟨_, hsig ret.ty, rfl⟩, rfl, rfl, fun turns env => ?_⟩
      rw [Handle.call, Handle.argument, List.getElem?_map, List.getElem?_eq_getElem hlt, hv,
        result, if_neg hretvoid]
      rfl

/-- A variable among the first live ones has its place there. -/
theorem visibleAt_of_mem {live : List Var} {width statement : Nat} {v : Var}
    (hv : v ∈ live.take width) :
    ∃ i, visibleAt live width statement v = .ok i ∧ (live.take width)[i]? = some v := by
  unfold visibleAt
  cases hi : live.idxOf? v with
  | none => exact absurd (List.mem_of_mem_take hv) (List.idxOf?_eq_none_iff.1 hi)
  | some i =>
    obtain ⟨hlt, hfound, hfirst⟩ := List.idxOf?_eq_some_iff.1 hi
    obtain ⟨j, hj, hjv⟩ := List.mem_take_iff_getElem.1 hv
    -- the first place of the variable cannot be behind another one
    have hij : i ≤ j := by
      apply Nat.le_of_not_lt
      intro hji
      exact hfirst j hji hjv
    have hiw : i < width := by omega
    exact ⟨i, if_pos hiw, by
      rw [List.getElem?_take_of_lt hiw, List.getElem?_eq_getElem hlt, hfound]⟩

/-- What a statement adds to the values that are live before it. -/
def added (st : Statement) (value : Value) : List Value :=
  if st.var.ty = .void then [] else [value]

/-- A handle over live values and what a statement adds to them accepts the statement's closure in
front of it. What results takes the live values and, behind them, the arguments of the closure. -/
theorem exists_collect {front : List Var} {st : Statement} {next : Handle}
    (hty : st.var.ty = st.closure.ty) (hnext : next.params = (front ++ st.results).map Var.ty) :
    ∃ collected, next.collect front.length st.closure.handle = .ok collected ∧
      collected.ret = next.ret ∧ collected.params = (front ++ st.closure.args).map Var.ty ∧
      ∀ turns env, collected.call turns ((front ++ st.closure.args).map env) = (do
        let value ← st.closure.eval turns env
        next.call turns (front.map env ++ added st value)) := by
  have hret : st.closure.handle.ret = st.var.ty := hty.symm
  have hfront : (front.map Var.ty).length = front.length := List.length_map _
  rw [List.map_append] at hnext
  obtain ⟨collected, hcollect⟩ : ∃ collected,
      next.collect front.length st.closure.handle = .ok collected := by
    by_cases hst : st.var.ty = .void
    · have harity : front.length ≤ next.arity := by simp [Handle.arity, hnext]
      exact ⟨_, by rw [Handle.collect, if_pos (hret.trans hst), if_pos harity]⟩
    · rw [Handle.exists_collect_iff fun hvoid => hst (hret.symm.trans hvoid), hnext,
        List.getElem?_append_right (Nat.le_of_eq hfront), Statement.results, if_neg hst]
      simp [hret]
  obtain ⟨hcret, hparams, hcall⟩ := Handle.collect_eq_ok hcollect
  refine ⟨collected, hcollect, hcret, ?_, fun turns env => ?_⟩
  · -- the last parameter, if it holds the statement's result, is the only one that goes
    have hback : next.params.drop
        (if st.closure.handle.ret = .void then front.length else front.length + 1) = [] := by
      rw [hnext, hret, List.drop_eq_nil_iff, List.length_append, List.length_map, List.length_map,
        st.length_results, Statement.width]
      split <;> omega
    rw [hparams, hback, hnext, List.take_left' hfront, ← st.closure.typed, List.append_nil,
      List.map_append]
  · have hvalues : (front.map env).length = front.length := List.length_map _
    have harity : (st.closure.args.map env).length = st.closure.handle.arity := by
      rw [List.length_map, st.closure.length_args]
    have hend : (front.map env ++ st.closure.args.map env).length =
        front.length + st.closure.handle.arity := by rw [List.length_append, hvalues, harity]
    rw [hcall, List.map_append, List.drop_left' hvalues, List.take_left' hvalues,
      List.take_of_length_le (Nat.le_of_eq harity)]
    refine bind_congr fun value => ?_
    rw [List.drop_of_length_le (Nat.le_of_eq hend), hret, added]

/-- A statement in front of a handle runs first, on the values of its closure's arguments, and the
handle runs on the live values and what the statement adds to them. -/
theorem exists_prepend (index : Nat) {live : List Var} {width : Nat} {st : Statement}
    {next : Handle}
    (hvoid : ∀ v ∈ live, v.ty ≠ .void) (hargs : ∀ v ∈ st.closure.args, v ∈ live.take width)
    (hwidth : width ≤ live.length) (hty : st.var.ty = st.closure.ty)
    (hnext : next.params = (live.take width ++ st.results).map Var.ty) :
    ∃ h, prepend live index width st next = .ok h ∧ h.params = (live.take width).map Var.ty ∧
      h.ret = next.ret ∧ ∀ turns env, h.call turns ((live.take width).map env) = (do
        let value ← st.closure.eval turns env
        next.call turns ((live.take width).map env ++ added st value)) := by
  have hlen : (live.take width).length = width := List.length_take_of_le hwidth
  have hpos : next.arity - st.width = width := by
    rw [Handle.arity, hnext, List.length_map, List.length_append, hlen, st.length_results]
    omega
  obtain ⟨collected, hcollect, hret, hparams, hcall⟩ := exists_collect hty hnext
  rw [hlen] at hcollect
  -- the arguments of the closure are live, so they need no places of their own
  let wired : Closure := ⟨collected, live.take width ++ st.closure.args, hparams.symm⟩
  obtain ⟨sources, hsources, hread⟩ := exists_mapM_of_forall
    (f := visibleAt live width index) (g := ((live.take width)[·]?)) (k := some)
    (fun v hv => visibleAt_of_mem (hargs v hv))
  have hplaces : (List.range width ++ sources).map ((live.take width)[·]?) =
      wired.args.map some := by
    have hfront := map_getElem?_range (live.take width) []
    rw [List.append_nil, hlen] at hfront
    rw [List.map_append, hread, hfront, List.map_append]
  obtain ⟨h, d, hp, hw, hd, -, hdcall⟩ := Closure.exists_rewire (c := wired)
    (fun v hv => hvoid v (List.mem_of_mem_take hv)) hplaces
  refine ⟨h, ?_, ?_, ?_, fun turns env => ?_⟩
  · rw [prepend, hpos]
    exact bind_eq_ok_iff.2 ⟨collected, hcollect, bind_eq_ok_iff.2 ⟨sources, hsources, hp⟩⟩
  · exact (Handle.permute_eq_ok hp).1
  · exact (Handle.permute_eq_ok hp).2.1.trans hret
  · have hrun := Closure.eval_of_rewire (c := wired) (d := d) (by rw [hd]; exact hplaces)
      (by rw [hd]; exact hdcall) turns env
    rw [Closure.eval, hd, (Closure.wire_eq_ok_iff.1 hw).1] at hrun
    rw [hrun]
    exact hcall turns env

/-- A result stands for its own variable only. -/
theorem map_bindResult_of_notMem {vars : List Var} {v : Var} (hv : v.ty ≠ .void → v ∉ vars)
    (env : Env) (value : Value) : vars.map (env.bindResult v value) = vars.map env := by
  unfold Env.bindResult
  by_cases hty : v.ty = .void
  · rw [if_pos hty]
  · rw [if_neg hty]
    exact List.map_congr_left fun w hw => if_neg fun hwv : w = v => hv hty (hwv ▸ hw)

/-! ## Live variables along a sequence

A statement adds its variable, if that has values, to the variables that are live before it. The
live variables of a whole sequence are listed in that order, so the ones before a statement are a
front of the list. -/

section Live

variable {live : List Var} {st : Statement} {rest : List Statement} {width : Nat}
  (hlater : live.drop width = ((st :: rest).map Statement.var).filter (·.ty ≠ .void))

include hlater

/-- The variables behind those that are live before a statement begin with its own. -/
theorem drop_eq_results_append :
    live.drop width = st.results ++ (rest.map Statement.var).filter (·.ty ≠ .void) := by
  rw [hlater, List.map_cons, List.filter_cons, Statement.results]
  by_cases hst : st.var.ty = .void
  · simp [hst]
  · simp [hst]

theorem width_add_le (hwidth : width ≤ live.length) :
    width + st.width ≤ live.length := by
  have hlen := congrArg List.length (drop_eq_results_append hlater)
  rw [List.length_drop, List.length_append, st.length_results] at hlen
  omega

theorem drop_add_width :
    live.drop (width + st.width) = (rest.map Statement.var).filter (·.ty ≠ .void) := by
  rw [← List.drop_drop, drop_eq_results_append hlater, List.drop_left' st.length_results]

theorem take_add_width :
    live.take (width + st.width) = live.take width ++ st.results := by
  rw [List.take_add, drop_eq_results_append hlater, List.take_left' st.length_results]

/-- The result of a statement is none of the variables that are live before it. -/
theorem notMem_take (hnodup : live.Nodup) (hst : st.var.ty ≠ .void) : st.var ∉ live.take width := by
  intro hmem
  have hown : st.var ∈ live.drop width := by
    rw [drop_eq_results_append hlater, Statement.results, if_neg hst]
    exact List.mem_append_left _ (List.mem_singleton.2 rfl)
  rw [← List.take_append_drop width live, List.nodup_append] at hnodup
  exact hnodup.2.2 _ hmem _ hown rfl

/-- The live values after a statement are those before it and what it adds to them. -/
theorem map_take_add_width (hnodup : live.Nodup) (env : Env) (value : Value) :
    (live.take (width + st.width)).map (env.bindResult st.var value) =
      (live.take width).map env ++ added st value := by
  rw [take_add_width hlater, List.map_append,
    map_bindResult_of_notMem (notMem_take hlater hnodup) env value]
  congr 1
  unfold Statement.results added Env.bindResult
  by_cases hst : st.var.ty = .void
  · rw [if_pos hst, if_pos hst, if_pos hst, List.map_nil]
  · rw [if_neg hst, if_neg hst, if_neg hst, List.map_singleton, Env.bind, if_pos rfl]

end Live

/-- The handle of a statement sequence takes the live variables' types, and runs like the sequence
on their values. -/
theorem exists_chain {live : List Var} {ret : Var} (hnodup : live.Nodup)
    (hvoid : ∀ v ∈ live, v.ty ≠ .void) (hret : ret.ty = .void ∨ ret ∈ live)
    {statements : List Statement} (index : Nat) {width : Nat} (hwidth : width ≤ live.length)
    (hlater : live.drop width = (statements.map Statement.var).filter (·.ty ≠ .void))
    (htyped : ∀ st ∈ statements, st.var.ty = st.closure.ty)
    (hvisible : Visible live width statements) :
    ∃ h, chain live ret index width statements = .ok h ∧
      h.params = (live.take width).map Var.ty ∧ h.ret = ret.ty ∧
      ∀ turns env, h.call turns ((live.take width).map env) =
        (do return result (← runStatements turns env statements) ret) := by
  -- the handle is made from the end, and what is live before a statement is the front of `live`
  -- that the handle of the rest takes
  induction statements generalizing index width with
  | nil =>
    have hall : live.take width = live := List.take_of_length_le (List.drop_eq_nil_iff.1 hlater)
    rw [hall]
    obtain ⟨h, hf, hparams, hhret, hcall⟩ := exists_finish hvoid hret
    exact ⟨h, hf, hparams, hhret, fun turns env => hcall turns env⟩
  | cons st rest ih =>
    obtain ⟨hargs, hrest⟩ := hvisible
    rw [List.forall_mem_cons] at htyped
    -- the statements behind this one make a handle over the live variables and its result
    obtain ⟨next, hchain, hparams, hnret, hcall⟩ := ih (index + 1) (width_add_le hlater hwidth)
      (drop_add_width hlater) htyped.2 hrest
    have hnext : next.params = (live.take width ++ st.results).map Var.ty := by
      rw [hparams, take_add_width hlater]
    obtain ⟨h, hp, hhparams, hhret, hhcall⟩ :=
      exists_prepend index hvoid hargs hwidth htyped.1 hnext
    refine ⟨h, bind_eq_ok_iff.2 ⟨next, hchain, hp⟩, hhparams, hhret.trans hnret, ?_⟩
    intro turns env
    rw [hhcall, runStatements, bind_assoc]
    refine bind_congr fun value => ?_
    rw [← map_take_add_width hlater hnodup, hcall]

/-- What a scope keeps while it grows: its live variables are distinct and have values, results
belong to the scope and have the types of their closures, no statement reads a variable before it
is live, and the next ordinal is new. -/
structure WellFormed (s : Scope) : Prop where
  distinct : s.live.Nodup
  own : ∀ st ∈ s.statements, st.var.scope = s.id
  fresh : ∀ v ∈ s.live, v.scope = s.id → v.ordinal < s.nextOrdinal
  noVoid : ∀ v ∈ s.live, v.ty ≠ .void
  typed : ∀ st ∈ s.statements, st.var.ty = st.closure.ty
  visible : Visible s.live s.inputs.length s.statements

/-- A well-formed scope can be built for each variable that is live or has no values. The handle
takes the inputs, and runs like the scope on their values. -/
theorem exists_build {s : Scope} {ret : Var} (hs : s.WellFormed)
    (hret : ret.ty = .void ∨ ret ∈ s.live) (supply : Supply) :
    ∃ h, ((s.build ret).run.run supply).1 = .ok h ∧ h.params = s.inputs.map Var.ty ∧
      h.ret = ret.ty ∧
      ∀ turns env, h.call turns (s.inputs.map env) = s.run turns env ret := by
  have htake : s.live.take s.inputs.length = s.inputs := by rw [live, List.take_left' rfl]
  have hdrop : s.live.drop s.inputs.length =
      (s.statements.map Statement.var).filter (·.ty ≠ .void) := by rw [live, List.drop_left' rfl]
  have hwidth : s.inputs.length ≤ s.live.length := by simp [live]
  obtain ⟨h, hchain, hparams, hhret, hcall⟩ :=
    exists_chain hs.distinct hs.noVoid hret 0 hwidth hdrop hs.typed hs.visible
  rw [htake] at hparams hcall
  refine ⟨h, ?_, hparams, hhret, hcall⟩
  -- the log lines around the composition do not matter to its result
  rw [build, hchain]
  obtain ⟨nextScope, nextSchema, tracing, log⟩ := supply
  cases tracing <;> rfl

end Scope

end Splice

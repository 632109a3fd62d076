import Splice.Proofs.Fieldwise.HandlerFree
import Splice.Proofs.Handle.Typing

/-!
# Failures end calls

`Handle.Composed` says that a handle has been made by the operations of the library, those that
handle failures aside: by operations on handles and on operands, by control constructs, functions
and blocks, and by the compositions from the field list of a schema. None of them looks at a
failure. So a native function that fails is the last that happens in a call, wherever it stands in
the handle, and the call fails with its exception and leaves the world as the function has left it.
-/

namespace Splice

open Compose (Gives)

/-- The handles that are composed from the field list of a schema. -/
def Schema.handles (s : Schema) : List (Compose Handle) :=
  [Fieldwise.equals s, Fieldwise.hashCode s, Fieldwise.compare s, Fieldwise.toText s,
    Fieldwise.sumFields s, Fieldwise.addCounters s, ColumnAccess.composeRead s,
    ColumnAccess.composeWrite s, ColumnAccess.composeResize s]

/-- The closures over two records that are composed from the field list of a schema. -/
def Schema.closures (s : Schema) (this that : Var) : List (Compose Closure) :=
  [Fieldwise.equalsClosure s this that, Fieldwise.compareClosure s this that,
    liftM (Fieldwise.hashClosure s this)]

namespace Handle

/-- A handle, possibly that of a closure, that has been composed of native functions. Nothing that
it has been composed of handles failures. -/
inductive Composed : Handle → Prop
  | native {params ret run h} (hh : native params ret run = .ok h) : Composed h
  | identity {ty h} (hh : identity ty = .ok h) : Composed h
  | constant {ty v h} (hh : constant ty v = .ok h) : Composed h
  | empty {params h} (hh : empty params = .ok h) : Composed h
  | project {params index h} (hh : project params index = .ok h) : Composed h
  | throwing {ret h} (hh : throwing ret = .ok h) : Composed h
  | permute {target params reorder h} (htarget : Composed target)
      (hh : target.permute params reorder = .ok h) : Composed h
  | collect {target pos filter h} (htarget : Composed target) (hfilter : Composed filter)
      (hh : target.collect pos filter = .ok h) : Composed h
  | dropArgs {target pos types h} (htarget : Composed target)
      (hh : target.dropArgs pos types = .ok h) : Composed h
  | filterReturn {target filter h} (htarget : Composed target) (hfilter : Composed filter)
      (hh : target.filterReturn filter = .ok h) : Composed h
  | convert {target ty h} (htarget : Composed target) (hh : target.convert ty = .ok h) : Composed h
  | guardWithTest {test accept reject h} (htest : Composed test) (haccept : Composed accept)
      (hreject : Composed reject) (hh : guardWithTest test accept reject = .ok h) : Composed h
  | loopWhile {init pred body h} (hinit : Composed init) (hpred : Composed pred)
      (hbody : Composed body) (hh : loopWhile init pred body = .ok h) : Composed h
  | loopDoWhile {init body pred h} (hinit : Composed init) (hbody : Composed body)
      (hpred : Composed pred) (hh : loopDoWhile init body pred = .ok h) : Composed h
  | loopCounted {start stop init body h} (hstart : Composed start) (hstop : Composed stop)
      (hinit : Composed init) (hbody : Composed body)
      (hh : loopCounted start stop init body = .ok h) : Composed h
  | loopIterated {source init body h} (hsource : Composed source) (hinit : Composed init)
      (hbody : Composed body) (hh : loopIterated source init body = .ok h) : Composed h
  | rechecked {h} (hh : Composed h) : Composed h.rechecked
  | operation {op : Operation} {c} (hgiven : ∀ h ∈ op.given, Composed h)
      (hargs : ∀ c : Closure, .closure c ∈ op.operands → Composed c.handle)
      (hc : op.run = .ok c) : Composed c.handle
  | dedup {c d : Closure} (hc : Composed c.handle) (hd : c.dedup = .ok d) : Composed d.handle
  | withLocals {c d : Closure} {locals} (hc : Composed c.handle)
      (hd : c.withLocals locals = .ok d) : Composed d.handle
  | align {u : Unifier} {keep} {c d : Closure} (hc : Composed c.handle)
      (hd : u.align keep c = .ok d) : Composed d.handle
  | control {k : Control} {s s₁ s' ps c} (hk : ¬ k.Recovers)
      (hargs : ∀ c : Closure, .closure c ∈ k.operands → Composed c.handle)
      (hps : Gives (k.pieces s) (k.opened s) ps s₁) (hpieces : ∀ p ∈ ps, Composed p.handle)
      (hc : Gives k.compose s c s') : Composed c.handle
  | function {b : Scope} {ret s s' h} (hb : ∀ st ∈ b.statements, Composed st.closure.handle)
      (hret : ∀ c : Closure, ret = .closure c → Composed c.handle)
      (hh : Gives (b.buildFunction ret) s h s') : Composed h
  | functionVoid {b : Scope} {s s' h} (hb : ∀ st ∈ b.statements, Composed st.closure.handle)
      (hh : Gives b.buildFunctionVoid s h s') : Composed h
  | block {b : Scope} {ret s s' c} (hb : ∀ st ∈ b.statements, Composed st.closure.handle)
      (hret : ∀ c : Closure, ret = .closure c → Composed c.handle)
      (hc : Gives (b.buildBlock ret) s c s') : Composed c.handle
  | blockVoid {b : Scope} {s s' c} (hb : ∀ st ∈ b.statements, Composed st.closure.handle)
      (hc : Gives b.buildBlockVoid s c s') : Composed c.handle
  | onRecords {schema : Schema} {step s s' h} (hstep : step ∈ schema.handles)
      (hh : Gives step s h s') : Composed h
  | onTwoRecords {schema : Schema} {this that step s s' c}
      (hstep : step ∈ schema.closures this that) (hc : Gives step s c s') : Composed c.handle

/-- The handles that are composed for a schema are without handlers. -/
theorem handlerFree_of_mem_handles {s : Schema} :
    ∀ step ∈ s.handles, Compose.Results HandlerFree step := by
  simp only [Schema.handles, List.forall_mem_cons, List.not_mem_nil, false_imp_iff, implies_true,
    and_true]
  exact ⟨Fieldwise.handlerFree_equals s, Fieldwise.handlerFree_hashCode s,
    Fieldwise.handlerFree_compare s, Fieldwise.handlerFree_toText s,
    Fieldwise.handlerFree_sumFields s, Fieldwise.handlerFree_addCounters s,
    ColumnAccess.handlerFree_composeRead s, ColumnAccess.handlerFree_composeWrite s,
    ColumnAccess.handlerFree_composeResize s⟩

theorem handlerFree_of_mem_closures {s : Schema} {this that : Var} :
    ∀ step ∈ s.closures this that, Compose.Results Closure.HandlerFree step := by
  simp only [Schema.closures, List.forall_mem_cons, List.not_mem_nil, false_imp_iff, implies_true,
    and_true]
  exact ⟨Fieldwise.handlerFree_equalsClosure s this that,
    Fieldwise.handlerFree_compareClosure s this that,
    .lift (Fieldwise.handlerFree_hashClosure s this)⟩

/-- Operands are without handlers if the closures among them are. -/
theorem handlerFree_of_closures {args : List Expr}
    (hargs : ∀ c : Closure, .closure c ∈ args → c.handle.HandlerFree) :
    ∀ e ∈ args, e.HandlerFree := by
  intro e he
  cases e with
  | var v => exact trivial
  | closure c => exact hargs c he

/-- An operand is without handlers if it is no closure or one without them. -/
theorem handlerFree_of_eq_closure {e : Expr}
    (he : ∀ c : Closure, e = .closure c → c.handle.HandlerFree) : e.HandlerFree := by
  cases e with
  | var v => exact trivial
  | closure c => exact he c rfl

/-- Nothing but catching and cleaning up handles failures. -/
theorem Composed.handlerFree {h : Handle} (hh : h.Composed) : h.HandlerFree := by
  induction hh with
  -- by how the handle has been composed, as each composition keeps handlers out
  | native hh => exact handlerFree_native _ _ _ _ hh
  | identity hh => exact handlerFree_native _ _ _ _ hh
  | constant hh => exact handlerFree_constant _ _ _ hh
  | empty hh => exact handlerFree_native _ _ _ _ hh
  | project hh => exact handlerFree_project _ _ _ hh
  | throwing hh => exact handlerFree_native _ _ _ _ hh
  | permute _ hh htarget => exact handlerFree_permute htarget _ _ _ hh
  | collect _ _ hh htarget hfilter => exact handlerFree_collect htarget _ hfilter _ hh
  | dropArgs _ hh htarget => exact handlerFree_dropArgs htarget _ _ _ hh
  | filterReturn _ _ hh htarget hfilter => exact handlerFree_filterReturn htarget hfilter _ hh
  | convert _ hh htarget => exact handlerFree_convert htarget _ _ hh
  | guardWithTest _ _ _ hh ht ha hr => exact handlerFree_guardWithTest ht ha hr _ hh
  | loopWhile _ _ _ hh hi hp hb => exact handlerFree_loopWhile hi hp hb _ hh
  | loopDoWhile _ _ _ hh hi hb hp => exact handlerFree_loopDoWhile hi hb hp _ hh
  | loopCounted _ _ _ _ hh hs he hi hb => exact handlerFree_loopCounted hs he hi hb _ hh
  | loopIterated _ _ _ hh hs hi hb => exact handlerFree_loopIterated hs hi hb _ hh
  | rechecked _ hh => exact hh
  | operation _ _ hc hgiven hargs =>
    exact Operation.handlerFree _ hgiven (handlerFree_of_closures hargs) _ hc
  | dedup _ hd hc => exact Closure.handlerFree_dedup hc _ hd
  | withLocals _ hd hc => exact Closure.handlerFree_withLocals hc _ _ hd
  | align _ hd hc => exact Closure.handlerFree_align hc _ _ _ hd
  | control hk _ hps _ hc hargs hpieces =>
    exact Control.handlerFree_of_gives hk (handlerFree_of_closures hargs) hps hpieces hc
  | function _ _ hh hb hret =>
    exact Scope.handlerFree_buildFunction hb (handlerFree_of_eq_closure hret) _ _ _ hh
  | functionVoid _ hh hb => exact Scope.handlerFree_buildFunctionVoid hb _ _ _ hh
  | block _ _ hc hb hret =>
    exact Scope.handlerFree_buildBlock hb (handlerFree_of_eq_closure hret) _ _ _ hc
  | blockVoid _ hc hb => exact Scope.handlerFree_buildBlockVoid hb _ _ _ hc
  | onRecords hstep hh => exact handlerFree_of_mem_handles _ hstep _ _ _ hh
  | onTwoRecords hstep hc => exact handlerFree_of_mem_closures _ hstep _ _ _ hc

/-- The traced run of a composed handle ends as its call, with events that account for every
object that has changed. If a native function fails in it, then it is the last event; the call
fails with the exception of the function and leaves the world that the function has left, so nothing
is run, drawn or written any more. A call that checks its arguments is that of
`Handle.rechecked`. -/
theorem Composed.fails_fast {h : Handle} (hh : h.Composed) (turns : Nat) (args : List Value)
    (w : World) :
    (h.traced turns args w).2 = h.call turns args w ∧
    (∀ w', (h.call turns args w).world? = some w' →
      Event.Path w (h.traced turns args w).1 w') ∧
    ∀ before run given w₁ after e w₂,
      (h.traced turns args w).1 = before ++ .ran run given w₁ :: after →
      run given w₁ = .thrown e w₂ → after = [] ∧ h.call turns args w = .thrown e w₂ := by
  have htold := h.accounts_traced turns args w
  refine ⟨htold.outcome_eq, htold.path, fun before run given w₁ after e w₂ hevents hrun => ?_⟩
  obtain ⟨hafter, hthrown⟩ :=
    hh.handlerFree.failsFast turns args w before run given w₁ after e w₂ hevents hrun
  exact ⟨hafter, htold.outcome_eq ▸ hthrown⟩

theorem composed_prim (sig : Signature) (run : List Value → Exec Value) :
    Composed (.prim sig run) := by
  have hsig : Signature.ofTypes sig.params sig.ret = .ok sig :=
    Signature.ofTypes_of_notMem sig.noVoid sig.ret
  exact .native (bind_eq_ok_iff.2 ⟨sig, hsig, rfl⟩)

/-- A loop over three integers whose body fails at the second one leaves the third one where it is,
and the function that the loop feeds does not run. -/
theorem fails_fast_inside_loop :
    let two : Exception := ⟨7, "RuntimeException", "two"⟩
    let step : List Value → Exec Value
      | [_, .int 2] => Exec.throw two
      | args => return argument args 1
    let source : Handle := .prim ⟨[], .iterator .int, by decide⟩ fun _ =>
      Iterator.ofList [.int 1, .int 2, .int 3]
    let init : Handle := .prim ⟨[], .int, by decide⟩ fun _ => return .int 0
    let body : Handle := .prim ⟨[.int, .int], .int, by decide⟩ step
    let fed : Handle := .prim ⟨[.int], .int, by decide⟩ fun args => return argument args 0
    let h : Handle := .collected ⟨[], .int, by decide⟩ 0
      (.iteratedLoop init.sig source init body) fed
    let left : World := { cells := #[[.int 3]], iterators := #[.ofCell 0] }
    h.Composed ∧ (h.traced 5 [] {}).1[5]? = some (.ran step [.int 1, .int 2] left) ∧
      (h.traced 5 [] {}).1.length = 6 ∧ h.call 5 [] {} = .thrown two left := by
  intro two step source init body fed h left
  have hsource : source.Composed := composed_prim _ _
  have hinit : init.Composed := composed_prim _ _
  have hbody : body.Composed := composed_prim _ _
  have hfed : fed.Composed := composed_prim _ _
  have hcollect : fed.collect 0 (.iteratedLoop init.sig source init body) = .ok h := rfl
  have hh : h.Composed := .collect hfed (.loopIterated hsource hinit hbody rfl) hcollect
  -- the sixth event is the native function that fails, so it is the last one
  have hevents : (h.traced 5 [] {}).1 =
      (h.traced 5 [] {}).1.take 5 ++ [.ran step [.int 1, .int 2] left] := rfl
  obtain ⟨-, -, hlast⟩ := hh.fails_fast 5 [] {}
  obtain ⟨-, hcall⟩ := hlast _ step [.int 1, .int 2] left [] two left hevents rfl
  exact ⟨hh, rfl, rfl, hcall⟩

end Handle

end Splice

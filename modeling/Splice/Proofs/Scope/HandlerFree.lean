import Splice.Proofs.Closure.HandlerFree
import Splice.Scope.Growth

/-!
# Control constructs and scopes without handlers

Loops and conditionals bring no handlers into a composition if there are none in their operands and
in what their callbacks give, and no more do functions and blocks if there are none in their
statements. Steps taken inside a scope, `Scoped.Keeps` says, leave the statements without handlers;
it is kept by all ways in which steps are put together.
-/

namespace Splice

open Compose (Gives)
open Handle Closure

/-! ## Composition steps -/

/-- What a composition step gives, if anything, has a property. -/
def Compose.Results (P : α → Prop) (step : Compose α) : Prop := ∀ s a s', Gives step s a s' → P a

namespace Compose.Results

variable {P : α → Prop} {Q : β → Prop}

/-- A refusable step that changes nothing gives what it gives by itself. -/
theorem lift {e : Except CompositionError α} (he : Splice.Results P e) :
    Results P (liftM e) := by
  intro s a s' h
  exact he a (gives_lift_iff.1 h).1

/-- A sequence gives what its last step gives of what the one before it has given. -/
theorem bind {x : Compose β} {f : β → Compose α} (hx : Results Q x)
    (hf : ∀ b, Q b → Results P (f b)) : Results P (x >>= f) := by
  intro s a s' h
  obtain ⟨b, s₁, hb, h⟩ := gives_bind_iff.1 h
  exact hf b (hx s b s₁ hb) s₁ a s' h

/-- It makes no difference what is done first. -/
theorem after {x : Compose β} {f : β → Compose α} (hf : ∀ b, Results P (f b)) :
    Results P (x >>= f) :=
  bind (Q := fun _ => True) (fun _ _ _ _ => trivial) fun b _ => hf b

/-- A refusable step comes first. -/
theorem lift_bind {e : Except CompositionError β} {f : β → Compose α} (he : Splice.Results Q e)
    (hf : ∀ b, Q b → Results P (f b)) : Results P (liftM e >>= f) :=
  (lift he).bind hf

end Compose.Results

/-! ## Control constructs -/

namespace Control

variable {k : Control} {s s₁ s' : Supply} {c : Closure} {ps : List Closure}

/-- Whether a construct handles failures. -/
def Recovers : Control → Prop
  | catchException .. | tryFinally .. => True
  | _ => False

/-- The callback of a construct gives a piece without handlers, which then moves its own variables
to the front, and so the construct goes on with a closure without handlers. -/
theorem handlerFree_of_pieceOver {own : List Var} {piece : Compose Closure} {p : Closure}
    {next : Closure → Compose Closure} (hp : Gives piece s p s₁) (hfree : p.HandlerFree)
    (hnext : ∀ d : Closure, d.HandlerFree → Compose.Results Closure.HandlerFree (next d))
    (h : Gives (Closure.pieceOver own piece >>= next) s c s') : c.HandlerFree := by
  obtain ⟨d, s₂, hpiece, h⟩ := Compose.gives_bind_iff.1 h
  obtain ⟨p', hp', hd⟩ := Closure.gives_pieceOver_iff.1 hpiece
  obtain ⟨rfl, -⟩ := hp.unique hp'
  exact hnext d (handlerFree_withLocals hfree own d hd) _ _ _ h

/-- Both loops with a test are made of the same three closures, whose handles are combined into one.
-/
theorem handlerFree_of_testedLoop {what : String}
    {combine : Handle → Handle → Handle → Except CompositionError Handle} {init : Expr}
    {first second : Var → Compose Closure}
    (hcombine : ∀ i x y : Handle, i.HandlerFree → x.HandlerFree → y.HandlerFree →
      Results Handle.HandlerFree (combine i x y)) (hinit : init.HandlerFree)
    (hps : Gives ([first, second].mapM (· (s.nextVar init.ty))) s.openScope ps s₁)
    (hpieces : ∀ p ∈ ps, p.HandlerFree)
    (h : Gives (testedLoop what combine init first second) s c s') : c.HandlerFree := by
  -- what the two callbacks give is given inside the scope of the state, and is known from `hps`
  obtain ⟨x, y, s₂, hx, hy, rfl⟩ := gives_pieces_two_iff.1 hps
  obtain ⟨hxfree, hyfree⟩ := List.forall_mem_cons.1 hpieces
  have hyfree := List.forall_mem_singleton.1 hyfree
  obtain ⟨⟨i, state⟩, _, hgiven, h⟩ := Compose.gives_bind_iff.1 h
  obtain ⟨⟨hi, -⟩, rfl, rfl⟩ := gives_initialState_iff.1 hgiven
  have hifree := handlerFree_asClosure hinit i hi
  rw [(Expr.asClosure_eq_ok hi).1] at h
  -- the first callback has been run in the same state as among the pieces, and so has given `x`
  obtain ⟨d, _, hpiece, h⟩ := Compose.gives_bind_iff.1 h
  obtain ⟨x', hx', hd⟩ := gives_pieceOver_iff.1 hpiece
  obtain ⟨rfl, rfl⟩ := hx.unique hx'
  have hdfree := handlerFree_withLocals hxfree _ d hd
  refine handlerFree_of_pieceOver hy hyfree (fun e hefree => ?_) h
  exact .after fun _ => .lift_bind (handlerFree_align hifree _ _) fun _ ha =>
    .lift_bind (handlerFree_align hdfree _ _) fun _ hb =>
      .lift_bind (handlerFree_align hefree _ _) fun _ hc =>
        .lift_bind (hcombine _ _ _ ha hb hc) fun _ hh => .lift (handlerFree_wire hh _)

/-- A counted loop is made of its three operands and its body. -/
theorem handlerFree_of_countedLoop {start stop init : Expr} {body : Var → Var → Compose Closure}
    (hstart : start.HandlerFree) (hstop : stop.HandlerFree) (hinit : init.HandlerFree)
    (hps : Gives ([body].mapM (· (s.nextVar init.ty) (s.openScope.nextVar .int)))
      s.openScope.openScope ps s₁) (hpieces : ∀ p ∈ ps, p.HandlerFree)
    (h : Gives (Closure.countedLoop start stop init body) s c s') : c.HandlerFree := by
  obtain ⟨b, hb, rfl⟩ := gives_pieces_one_iff.1 hps
  obtain ⟨⟨a, e, i, state, index⟩, _, hgiven, h⟩ := Compose.gives_bind_iff.1 h
  obtain ⟨⟨ha, -⟩, ⟨he, -⟩, ⟨hi, -⟩, rfl, rfl, rfl⟩ := gives_countedOperands_iff.1 hgiven
  have hafree := handlerFree_asClosure hstart a ha
  have hefree := handlerFree_asClosure hstop e he
  have hifree := handlerFree_asClosure hinit i hi
  rw [(Expr.asClosure_eq_ok hi).1] at h
  refine handlerFree_of_pieceOver hb (List.forall_mem_singleton.1 hpieces)
    (fun d hdfree => ?_) h
  exact .after fun _ => .lift_bind (handlerFree_align hafree _ _) fun _ ha =>
    .lift_bind (handlerFree_align hefree _ _) fun _ he =>
      .lift_bind (handlerFree_align hifree _ _) fun _ hi =>
        .lift_bind (handlerFree_align hdfree _ _) fun _ hb =>
          .lift_bind (handlerFree_loopCounted ha he hi hb) fun _ hh =>
            .lift (handlerFree_wire hh _)

/-- A loop over an iterator is made of its source, its initial state and its body. -/
theorem handlerFree_of_iteratorLoop {source init : Expr} {body : Var → Var → Compose Closure}
    {elem : Ty} (hsourceTy : source.ty = .iterator elem) (hsource : source.HandlerFree)
    (hinit : init.HandlerFree)
    (hps : Gives ([body].mapM (· (s.nextVar init.ty) (s.openScope.nextVar elem)))
      s.openScope.openScope ps s₁) (hpieces : ∀ p ∈ ps, p.HandlerFree)
    (h : Gives (Closure.iteratorLoop source init body) s c s') : c.HandlerFree := by
  obtain ⟨b, hb, rfl⟩ := gives_pieces_one_iff.1 hps
  obtain ⟨⟨src, i, state, element⟩, _, hgiven, h⟩ := Compose.gives_bind_iff.1 h
  obtain ⟨elem', ⟨hsrc, hty, -⟩, ⟨hi, -⟩, rfl, rfl, rfl⟩ := gives_iteratorOperands_iff.1 hgiven
  have hsrcfree := handlerFree_asClosure hsource src hsrc
  have hifree := handlerFree_asClosure hinit i hi
  -- the element has the type that the source gives, the same as among the pieces
  rw [(Expr.asClosure_eq_ok hsrc).1, hsourceTy] at hty
  obtain rfl := Ty.iterator.inj hty
  rw [(Expr.asClosure_eq_ok hi).1] at h
  refine handlerFree_of_pieceOver hb (List.forall_mem_singleton.1 hpieces)
    (fun d hdfree => ?_) h
  exact .after fun _ => .lift_bind (handlerFree_align hsrcfree _ _) fun _ ha =>
    .lift_bind (handlerFree_align hifree _ _) fun _ hb =>
      .lift_bind (handlerFree_align hdfree _ _) fun _ hc =>
        .lift_bind (handlerFree_loopIterated ha hb hc) fun _ hh => .lift (handlerFree_wire hh _)

/-- A construct that handles no failures brings no handlers of its own. -/
theorem handlerFree_of_gives (hk : ¬ k.Recovers) (hargs : ∀ e ∈ k.operands, e.HandlerFree)
    (hps : Gives (k.pieces s) (k.opened s) ps s₁) (hpieces : ∀ p ∈ ps, p.HandlerFree)
    (h : Gives k.compose s c s') : c.HandlerFree := by
  cases k with
  | ifThenElse cond accept reject =>
    exact handlerFree_ifThenElse hargs c (Compose.gives_lift_iff.1 h).1
  | ifThen cond accept => exact handlerFree_ifThen hargs c (Compose.gives_lift_iff.1 h).1
  | whileLoop init pred body =>
    rw [compose, whileLoop_eq_testedLoop] at h
    exact handlerFree_of_testedLoop (fun _ _ _ => handlerFree_loopWhile)
      (List.forall_mem_singleton.1 hargs) hps hpieces h
  | doWhileLoop init body pred =>
    rw [compose, doWhileLoop_eq_testedLoop] at h
    exact handlerFree_of_testedLoop (fun _ _ _ => handlerFree_loopDoWhile)
      (List.forall_mem_singleton.1 hargs) hps hpieces h
  | countedLoop start stop init body =>
    obtain ⟨hstart, hargs⟩ := List.forall_mem_cons.1 hargs
    obtain ⟨hstop, hinit⟩ := List.forall_mem_cons.1 hargs
    exact handlerFree_of_countedLoop hstart hstop (List.forall_mem_singleton.1 hinit) hps hpieces h
  | iteratorLoop source init body =>
    obtain ⟨hsource, hinit⟩ := List.forall_mem_cons.1 hargs
    obtain ⟨⟨elem, hty, -⟩, -⟩ := pieces_of_gives h
    rw [pieces, hty] at hps
    exact handlerFree_of_iteratorLoop hty hsource (List.forall_mem_singleton.1 hinit) hps hpieces h
  | iterableLoop list init body =>
    -- the list is replaced by a closure for its iterator, and the loop is one over that
    obtain ⟨hlist, hinit⟩ := List.forall_mem_cons.1 hargs
    obtain ⟨src, hsrc, h⟩ := gives_iterableLoop_iff.1 h
    obtain ⟨elem, hlistTy⟩ := list_of_iteratorOf hsrc
    obtain ⟨src', hsrc', hty, -⟩ := exists_iteratorOf hlistTy
    obtain rfl := Except.ok.inj (hsrc.symm.trans hsrc')
    have hsource : (Expr.closure src).ty = .iterator elem := hty
    rw [pieces, hlistTy] at hps
    exact handlerFree_of_iteratorLoop hsource
      (handlerFree_iteratorOf hlist src hsrc)
      (List.forall_mem_singleton.1 hinit) hps hpieces h
  | catchException => exact absurd trivial hk
  | tryFinally => exact absurd trivial hk

end Control

/-! ## Functions and blocks -/

namespace Scope

/-- There are no handlers in the closures of the statements. -/
def HandlerFree (b : Scope) : Prop := ∀ st ∈ b.statements, st.closure.HandlerFree

variable {b : Scope}

/-- A scope ends with a native function or a projection. -/
theorem handlerFree_finish (live : List Var) (ret : Var) :
    Results Handle.HandlerFree (finish live ret) := by
  unfold finish
  split
  · exact handlerFree_native _ _ _
  · split
    · exact handlerFree_project _ _
    · exact .error

/-- A statement is collected into the handle of the rest, and the result is permuted. -/
theorem handlerFree_prepend {live : List Var} {index width : Nat} {st : Statement} {next : Handle}
    (hst : st.closure.HandlerFree) (hnext : next.HandlerFree) :
    Results Handle.HandlerFree (prepend live index width st next) :=
  .bind (handlerFree_collect hnext _ hst) fun _ hcollected => .after fun _ =>
    handlerFree_permute hcollected _ _

/-- All statements of a scope are collected into its end, from the last one backwards. -/
theorem handlerFree_chain {live : List Var} {ret : Var} {statements : List Statement}
    (hstatements : ∀ st ∈ statements, st.closure.HandlerFree) (index width : Nat) :
    Results Handle.HandlerFree (chain live ret index width statements) := by
  induction statements generalizing index width with
  | nil => exact handlerFree_finish live ret
  | cons st rest ih =>
    obtain ⟨hst, hrest⟩ := List.forall_mem_cons.1 hstatements
    exact .bind (ih hrest _ _) fun next hnext => handlerFree_prepend hst hnext

/-- A scope that is built consists of its statements. -/
theorem handlerFree_build (hb : b.HandlerFree) (ret : Var) :
    Compose.Results Handle.HandlerFree (b.build ret) := by
  refine .after fun supply => ?_
  have hrest (message : String) : Compose.Results Handle.HandlerFree (do
      let handle ← liftM (chain b.live ret 0 b.inputs.length b.statements)
      Compose.note message
      return handle : Compose Handle) :=
    .lift_bind (handlerFree_chain hb 0 _) fun h hh => .after fun _ => .lift (.ok hh)
  split
  · exact .after fun _ => hrest _
  · exact hrest _

/-- A parameter is no statement. -/
theorem statements_addParam (b : Scope) (ty : Ty) :
    (b.addParam ty).2.statements = b.statements := by
  unfold addParam
  split
  · dsimp only
    split <;> rfl
  · rfl

/-- A closure that is assigned becomes a statement. -/
theorem handlerFree_assignClosure (hb : b.HandlerFree) {c : Closure} (hc : c.HandlerFree) :
    Results (fun result => result.2.HandlerFree) (b.assignClosure c) := by
  rintro ⟨v, next⟩ ha
  obtain ⟨-, rfl⟩ := assignClosure_eq_ok ha
  exact List.forall_mem_append.2 ⟨hb, List.forall_mem_singleton.2 hc⟩

/-- An operand that is assigned becomes a statement, if it is not void. -/
theorem handlerFree_assign (hb : b.HandlerFree) {e : Expr} (he : e.HandlerFree) :
    Results (fun result => result.2.HandlerFree) (b.assign e) :=
  .bind (handlerFree_asClosure he) fun _ hc => handlerFree_assignClosure hb hc

/-- What is returned is a variable of the scope, or it is assigned first. -/
theorem handlerFree_returned (hb : b.HandlerFree) {ret : Expr} (hret : ret.HandlerFree) :
    Results (fun result => result.2.HandlerFree) (b.returned ret) := by
  cases ret with
  | var v =>
    rw [returned]
    split
    · exact .ok hb
    · exact handlerFree_assign hb hret
  | closure c => exact handlerFree_assignClosure hb hret

/-- A function consists of its statements and its result. -/
theorem handlerFree_buildFunction (hb : b.HandlerFree) {ret : Expr} (hret : ret.HandlerFree) :
    Compose.Results Handle.HandlerFree (b.buildFunction ret) :=
  .lift_bind (handlerFree_returned hb hret) fun result hnext => handlerFree_build hnext result.1

/-- A function without a result returns the closure that does nothing. -/
theorem handlerFree_buildFunctionVoid (hb : b.HandlerFree) :
    Compose.Results Handle.HandlerFree b.buildFunctionVoid :=
  .lift_bind handlerFree_constantVoid fun _ hc =>
    handlerFree_buildFunction hb hc

/-- A block consists of its statements and its result. -/
theorem handlerFree_buildBlock (hb : b.HandlerFree) {ret : Expr} (hret : ret.HandlerFree) :
    Compose.Results Closure.HandlerFree (b.buildBlock ret) :=
  .lift_bind (handlerFree_returned hb hret) fun result hnext =>
    (handlerFree_build hnext result.1).bind fun _ hh => .lift (handlerFree_wire hh _)

/-- A block without a result returns the closure that does nothing. -/
theorem handlerFree_buildBlockVoid (hb : b.HandlerFree) :
    Compose.Results Closure.HandlerFree b.buildBlockVoid :=
  .lift_bind handlerFree_constantVoid fun _ hc =>
    handlerFree_buildBlock hb hc

end Scope

/-! ## Composing inside a scope -/

/-- Steps add statements without handlers, and what they give has a property. -/
def Scoped.Keeps (P : α → Prop) (steps : Scoped α) : Prop :=
  ∀ b : Scope, b.HandlerFree →
    Compose.Results (fun result => P result.1 ∧ result.2.HandlerFree) (steps.run b)

/-- Assigning inside a scope is a refusable step that changes the scope alone. -/
theorem Scoped.run_assign (e : Expr) (b : Scope) :
    (Scoped.assign e).run b = (liftM (b.assign e) : Compose (Var × Scope)) := by
  change ((liftM (b.assign e) : Scoped (Var × Scope)).run b >>= _) = _
  cases b.assign e with
  | ok result => rfl
  | error cause => rfl

namespace Scoped.Keeps

variable {P : α → Prop} {Q : β → Prop}

/-- A result alone adds no statement. -/
theorem pure {a : α} (ha : P a) : Keeps P (Pure.pure a) := fun _ hb => .lift (.ok ⟨ha, hb⟩)

/-- Steps in sequence add the statements of each. -/
theorem bind {x : Scoped β} {f : β → Scoped α} (hx : Keeps Q x) (hf : ∀ b, Q b → Keeps P (f b)) :
    Keeps P (x >>= f) := by
  intro b hb
  rw [StateT.run_bind]
  exact (hx b hb).bind fun result ⟨hresult, hnext⟩ => hf result.1 hresult result.2 hnext

/-- A composition step that does not look at the scope adds no statement. -/
theorem within {step : Compose α} (h : Compose.Results P step) : Keeps P (liftM step) := by
  intro b hb
  exact h.bind fun a ha => .lift (.ok ⟨ha, hb⟩)

/-- A refusable step adds no statement. -/
theorem lift {e : Except CompositionError α} (he : Results P e) : Keeps P (liftM e) :=
  within (.lift he)

/-- A refusable step comes first. -/
theorem lift_bind {e : Except CompositionError β} {f : β → Scoped α} (he : Results Q e)
    (hf : ∀ b, Q b → Keeps P (f b)) : Keeps P (liftM e >>= f) :=
  (lift he).bind hf

/-- A parameter that is added is no statement. -/
theorem addParam (ty : Ty) : Keeps (fun _ => True) (Scoped.addParam ty) := by
  intro b hb
  have hnext : (b.addParam ty).2.HandlerFree := by
    unfold Scope.HandlerFree
    rwa [Scope.statements_addParam]
  exact Compose.Results.lift_bind (Q := fun _ => True) (fun _ _ => trivial) fun v _ =>
    .lift (.ok ⟨trivial, hnext⟩)

/-- An operand without handlers is a statement without them. -/
theorem assign {e : Expr} (he : e.HandlerFree) : Keeps (fun _ => True) (Scoped.assign e) := by
  intro b hb
  rw [run_assign]
  exact .lift fun result hresult => ⟨trivial, Scope.handlerFree_assign hb he result hresult⟩

/-- Steps for each element of a list add the statements of each. -/
theorem mapM {f : ι → Scoped β} (hf : ∀ i, Keeps Q (f i)) (l : List ι) :
    Keeps (fun bs => ∀ b ∈ bs, Q b) (l.mapM f) := by
  induction l with
  | nil => exact pure nofun
  | cons i l ih =>
    rw [List.mapM_cons]
    exact (hf i).bind fun b hb => ih.bind fun bs hbs => pure (List.forall_mem_cons.2 ⟨hb, hbs⟩)

/-- Steps for each element of a list add the statements of each, also where they give nothing. -/
theorem forM {f : ι → Scoped PUnit} (hf : ∀ i, Keeps (fun _ => True) (f i)) (l : List ι) :
    Keeps (fun _ => True) (l.forM f) := by
  induction l with
  | nil => exact pure trivial
  | cons i l ih => exact (hf i).bind fun _ _ => ih

end Scoped.Keeps

/-- A function starts without statements. -/
theorem Scoped.handlerFree_function {steps : Scoped Expr} (h : steps.Keeps Expr.HandlerFree) :
    Compose.Results Handle.HandlerFree (Scoped.function steps) := by
  refine Compose.Results.bind (Q := Scope.HandlerFree) ?_ fun b hb =>
    (h b hb).bind fun result ⟨hret, hnext⟩ => Scope.handlerFree_buildFunction hnext hret
  exact .after fun id => .lift (.ok nofun)

/-- A block starts without statements. -/
theorem Scoped.handlerFree_block {steps : Scoped Expr} (h : steps.Keeps Expr.HandlerFree) :
    Compose.Results Closure.HandlerFree (Scoped.block steps) := by
  refine Compose.Results.bind (Q := Scope.HandlerFree) ?_ fun b hb =>
    (h b hb).bind fun result ⟨hret, hnext⟩ => Scope.handlerFree_buildBlock hnext hret
  exact .after fun id => .lift (.ok nofun)

end Splice

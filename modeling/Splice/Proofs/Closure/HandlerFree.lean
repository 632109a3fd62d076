import Splice.Proofs.Closure.Control
import Splice.Proofs.Handle.Trace
import Splice.Proofs.Session.Operation

/-!
# Compositions without handlers

Handlers and cleanups come into a composition by `catchException` and `tryFinally` and in no other
way. Every other operation on handles gives a handle without them if it is given such handles; so
do the operations on operands, which are made of these, and the control constructs, whatever their
callbacks do as long as they give closures without handlers.
-/

namespace Splice

/-- What a refusable step gives, if anything, has a property. -/
def Results (P : α → Prop) (result : Except CompositionError α) : Prop := ∀ a, result = .ok a → P a

namespace Results

variable {P : α → Prop} {Q : β → Prop}

/-- An accepted step gives its result. -/
theorem ok {a : α} (ha : P a) : Results P (.ok a) := fun _ h => Except.ok.inj h ▸ ha

/-- A refused step gives nothing. -/
theorem error {cause : CompositionError} : Results P (.error cause) := fun _ h => by cases h

/-- A sequence gives what its last step gives of what the one before it has given. -/
theorem bind {x : Except CompositionError β} {f : β → Except CompositionError α} (hx : Results Q x)
    (hf : ∀ b, Q b → Results P (f b)) : Results P (x >>= f) := by
  intro a ha
  obtain ⟨b, hb, ha⟩ := bind_eq_ok_iff.1 ha
  exact hf b (hx b hb) a ha

/-- It makes no difference what is asked first. -/
theorem after {x : Except CompositionError β} {f : β → Except CompositionError α}
    (hf : ∀ b, Results P (f b)) : Results P (x >>= f) :=
  bind (Q := fun _ => True) (fun _ _ => trivial) fun b _ => hf b

end Results

namespace Handle

variable {h filter : Handle}

/-- A native function has no parts. -/
theorem handlerFree_native (params : List Ty) (ret : Ty) (run : List Value → Exec Value) :
    Results HandlerFree (native params ret run) :=
  .after fun _ => .ok trivial

/-- A constant has no parts. -/
theorem handlerFree_constant (ty : Ty) (v : Value) : Results HandlerFree (constant ty v) := by
  unfold constant
  split
  · exact .ok trivial
  · exact .error

/-- A projection is a native function. -/
theorem handlerFree_project (params : List Ty) (index : Nat) :
    Results HandlerFree (project params index) := by
  unfold project
  split
  · exact handlerFree_native _ _ _
  · exact .error

/-- A permuted handle has the parts that it had. -/
theorem handlerFree_permute (hh : h.HandlerFree) (params : List Ty) (reorder : List Nat) :
    Results HandlerFree (h.permute params reorder) := by
  refine .after fun _ => .after fun sig => ?_
  split
  · exact .error
  · -- what is permuted keeps its parts, whether or not the positions are all in their order
    refine .ok ?_
    split <;> exact hh

/-- Collecting puts the two handles side by side. -/
theorem handlerFree_collect (hh : h.HandlerFree) (pos : Nat) (hfilter : filter.HandlerFree) :
    Results HandlerFree (h.collect pos filter) := by
  unfold collect
  split <;> split
  · exact .ok ⟨hfilter, hh⟩
  · exact .error
  · exact .ok ⟨hfilter, hh⟩
  · exact .error

/-- Parameters that are ignored add no part. -/
theorem handlerFree_dropArgs (hh : h.HandlerFree) (pos : Nat) (types : List Ty) :
    Results HandlerFree (h.dropArgs pos types) := by
  refine .after fun _ => .after fun inserted => .ok ?_
  split <;> exact hh

/-- A filter is one more part. -/
theorem handlerFree_filterReturn (hh : h.HandlerFree) (hfilter : filter.HandlerFree) :
    Results HandlerFree (h.filterReturn filter) := by
  intro h' hf
  obtain ⟨-, rfl⟩ := filterReturn_eq_ok_iff.1 hf
  exact ⟨hfilter, hh⟩

/-- A conversion has no parts, and if none is needed the handle stays as it is. -/
theorem handlerFree_convert (hh : h.HandlerFree) (ty : Ty) :
    Results HandlerFree (h.convert ty) := by
  unfold convert
  split
  · exact .error
  · refine .ok ?_
    split <;> exact hh

/-- A branch consists of its test and its two arms. -/
theorem handlerFree_guardWithTest {test accept reject : Handle} (ht : test.HandlerFree)
    (ha : accept.HandlerFree) (hr : reject.HandlerFree) :
    Results HandlerFree (guardWithTest test accept reject) := by
  intro h hh
  obtain ⟨-, rfl⟩ := guardWithTest_eq_ok_iff.1 hh
  exact ⟨ht, ha, hr⟩

/-- A loop with a test first consists of its three parts. -/
theorem handlerFree_loopWhile {init pred body : Handle} (hi : init.HandlerFree)
    (hp : pred.HandlerFree) (hb : body.HandlerFree) :
    Results HandlerFree (loopWhile init pred body) := by
  intro h hh
  obtain ⟨-, rfl⟩ := loopWhile_eq_ok_iff.1 hh
  exact ⟨hi, hp, hb⟩

/-- A loop with a test last consists of its three parts. -/
theorem handlerFree_loopDoWhile {init body pred : Handle} (hi : init.HandlerFree)
    (hb : body.HandlerFree) (hp : pred.HandlerFree) :
    Results HandlerFree (loopDoWhile init body pred) := by
  intro h hh
  obtain ⟨-, rfl⟩ := loopDoWhile_eq_ok_iff.1 hh
  exact ⟨hi, hb, hp⟩

/-- A counted loop consists of its four parts. -/
theorem handlerFree_loopCounted {start stop init body : Handle} (hs : start.HandlerFree)
    (he : stop.HandlerFree) (hi : init.HandlerFree) (hb : body.HandlerFree) :
    Results HandlerFree (loopCounted start stop init body) := by
  intro h hh
  obtain ⟨-, rfl⟩ := loopCounted_eq_ok_iff.1 hh
  exact ⟨hs, he, hi, hb⟩

/-- A loop over an iterator consists of its three parts. -/
theorem handlerFree_loopIterated {source init body : Handle} (hs : source.HandlerFree)
    (hi : init.HandlerFree) (hb : body.HandlerFree) :
    Results HandlerFree (loopIterated source init body) := by
  intro h hh
  obtain ⟨-, rfl⟩ := loopIterated_eq_ok_iff.1 hh
  exact ⟨hs, hi, hb⟩

end Handle

/-! ## Operands and closures -/

/-- Neither a handler nor a cleanup is among the parts of the handle. -/
def Closure.HandlerFree (c : Closure) : Prop := c.handle.HandlerFree

/-- The operand is no closure with a handler. -/
def Expr.HandlerFree : Expr → Prop
  | .var _ => True
  | .closure c => c.HandlerFree

namespace Closure

open Handle

variable {h : Handle} {c : Closure} {args : List Expr}

/-- The handle of a closure is the one that was applied. -/
theorem handlerFree_wire (hh : h.HandlerFree) (vars : List Var) :
    Results HandlerFree (wire h vars) := by
  unfold wire
  split
  · exact .ok hh
  · exact .error

/-- The closure that does nothing is native. -/
theorem handlerFree_constantVoid : Results HandlerFree constantVoid :=
  .bind (handlerFree_native _ _ _) fun _ hh => handlerFree_wire hh _

/-- A variable is read by a native function. -/
theorem handlerFree_varAsClosure (v : Var) : Results HandlerFree v.asClosure := by
  unfold Var.asClosure
  split
  · exact handlerFree_constantVoid
  · exact .bind (handlerFree_native _ _ _) fun _ hh => handlerFree_wire hh _

/-- An operand as a closure has the parts that it had as an operand. -/
theorem handlerFree_asClosure {e : Expr} (he : e.HandlerFree) :
    Results HandlerFree e.asClosure := by
  cases e with
  | var v => exact handlerFree_varAsClosure v
  | closure c => exact .ok he

/-- All closures among the operands become parts. -/
theorem handlerFree_collectAll (hh : h.HandlerFree) (pos : Nat)
    (hargs : ∀ e ∈ args, e.HandlerFree) :
    Results Handle.HandlerFree (collectAll h pos args) := by
  -- the operands are collected from the last one backwards, each into what the later ones gave
  induction args generalizing pos with
  | nil => exact .ok hh
  | cons arg rest ih =>
    obtain ⟨harg, hrest⟩ := List.forall_mem_cons.1 hargs
    refine .bind (ih (pos + 1) hrest) fun inner hinner => ?_
    cases arg with
    | var v => exact .ok hinner
    | closure c => exact handlerFree_collect hinner pos harg

/-- Merging repeated variables adds no part. -/
theorem handlerFree_dedup (hc : c.HandlerFree) : Results HandlerFree c.dedup := by
  unfold dedup
  dsimp only
  split
  · exact .ok hc
  · exact .bind (handlerFree_permute hc _ _) fun _ hh => handlerFree_wire hh _

/-- An application consists of the handle and of the closures among its operands. -/
theorem handlerFree_fold (hh : h.HandlerFree) (hargs : ∀ e ∈ args, e.HandlerFree) :
    Results HandlerFree (fold h args) :=
  .after fun _ => .bind (handlerFree_collectAll hh 0 hargs) fun _ hfolded =>
    .bind (handlerFree_wire hfolded _) fun _ hc => handlerFree_dedup hc

/-- A cast converts a result and handles no failure. -/
theorem handlerFree_cast (hc : c.HandlerFree) (ty : Ty) : Results HandlerFree (c.cast ty) := by
  unfold cast
  split
  · exact .ok hc
  · exact .bind (handlerFree_convert hc ty) fun _ hh => handlerFree_wire hh _

/-- A filter on a closure is one on its handle. -/
theorem handlerFree_closureFilterReturn (hc : c.HandlerFree) (hh : h.HandlerFree) :
    Results HandlerFree (c.filterReturn h) :=
  .bind (handlerFree_filterReturn hc hh) fun _ hh => handlerFree_wire hh _

/-- Moving local variables to the front adds no part. -/
theorem handlerFree_withLocals (hc : c.HandlerFree) (locals : List Var) :
    Results HandlerFree (c.withLocals locals) :=
  .bind (handlerFree_permute hc _ _) fun _ hh => handlerFree_wire hh _

/-- Aligning with other closures adds no part. -/
theorem handlerFree_align (hc : c.HandlerFree) (u : Unifier) (keep : Nat) :
    Results HandlerFree (u.align keep c) :=
  .after fun _ => .after fun _ => .bind (handlerFree_permute hc _ _) fun _ hh =>
    handlerFree_wire hh _

/-- A constant of some type is native, or the closure that does nothing. -/
theorem handlerFree_constantTyped (ty : Ty) (v : Value) :
    Results HandlerFree (constantTyped ty v) := by
  unfold constantTyped
  split
  · exact handlerFree_constantVoid
  · exact .bind (handlerFree_constant _ _) fun _ hh => handlerFree_wire hh _

/-- A constant of its own type is one of some type. -/
theorem handlerFree_constant (v : Value) : Results HandlerFree (constant v) :=
  handlerFree_constantTyped _ _

/-- A native function applied to operands brings no handlers of its own. -/
theorem handlerFree_applied {params : List Ty} {ret : Ty} {run : List Value → Exec Value}
    (hargs : ∀ e ∈ args, e.HandlerFree) :
    Results HandlerFree (Handle.native params ret run >>= fun h => fold h args) :=
  .bind (handlerFree_native _ _ _) fun _ hh => handlerFree_fold hh hargs

/-- An operation that is implemented natively brings no handlers of its own. -/
theorem handlerFree_closureNative {ret : Ty} {run : List Value → Exec Value}
    (hargs : ∀ e ∈ args, e.HandlerFree) : Results HandlerFree (native ret args run) :=
  handlerFree_applied hargs

/-- A conditional consists of its condition and its branches, aligned and told apart by a test. -/
theorem handlerFree_ifThenElse {cond accept reject : Expr}
    (hargs : ∀ e ∈ [cond, accept, reject], e.HandlerFree) :
    Results HandlerFree (ifThenElse cond accept reject) := by
  obtain ⟨hcond, hbranches⟩ := List.forall_mem_cons.1 hargs
  obtain ⟨haccept, hreject⟩ := List.forall_mem_cons.1 hbranches
  have hreject := List.forall_mem_singleton.1 hreject
  refine .after fun _ => .bind (handlerFree_asClosure haccept) fun a ha =>
    .bind (handlerFree_asClosure hreject) fun r hr => .after fun _ => ?_
  -- both branches take the test as their first argument and ignore it
  refine .bind (handlerFree_native _ _ _) fun test htest =>
    .bind (handlerFree_align ha _ _) fun a ha => .bind (handlerFree_dropArgs ha _ _) fun a ha =>
      .bind (handlerFree_align hr _ _) fun r hr => .bind (handlerFree_dropArgs hr _ _) fun r hr =>
        .bind (handlerFree_guardWithTest htest ha hr) fun guard hguard => ?_
  refine handlerFree_fold hguard (List.forall_mem_cons.2 ⟨hcond, fun e he => ?_⟩)
  obtain ⟨v, -, rfl⟩ := List.mem_map.1 he
  exact trivial

/-- A conditional without an alternative has one that does nothing. -/
theorem handlerFree_ifThen {cond accept : Expr} (hargs : ∀ e ∈ [cond, accept], e.HandlerFree) :
    Results HandlerFree (ifThen cond accept) := by
  obtain ⟨hcond, haccept⟩ := List.forall_mem_cons.1 hargs
  have haccept := List.forall_mem_singleton.1 haccept
  refine .bind (handlerFree_asClosure haccept) fun a ha => .bind (handlerFree_cast ha .void)
    fun a ha => .bind handlerFree_constantVoid fun none hnone => ?_
  exact handlerFree_ifThenElse (List.forall_mem_cons.2 ⟨hcond, List.forall_mem_cons.2
    ⟨ha, List.forall_mem_singleton.2 hnone⟩⟩)

/-- A conjunction is a conditional. -/
theorem handlerFree_conj {a b : Expr} (hargs : ∀ e ∈ [a, b], e.HandlerFree) :
    Results HandlerFree (conj a b) := by
  obtain ⟨ha, hb⟩ := List.forall_mem_cons.1 hargs
  have hb := List.forall_mem_singleton.1 hb
  refine .bind (handlerFree_constant _) fun c hc => handlerFree_ifThenElse ?_
  exact List.forall_mem_cons.2 ⟨ha, List.forall_mem_cons.2 ⟨hb, List.forall_mem_singleton.2
    hc⟩⟩

/-- A disjunction is a conditional. -/
theorem handlerFree_disj {a b : Expr} (hargs : ∀ e ∈ [a, b], e.HandlerFree) :
    Results HandlerFree (disj a b) := by
  obtain ⟨ha, hb⟩ := List.forall_mem_cons.1 hargs
  refine .bind (handlerFree_constant _) fun c hc => handlerFree_ifThenElse ?_
  exact List.forall_mem_cons.2 ⟨ha, List.forall_mem_cons.2 ⟨hc, hb⟩⟩

/-- A chain of conjunctions consists of its operands and constants. -/
theorem handlerFree_allOf (hargs : ∀ e ∈ args, e.HandlerFree) :
    Results HandlerFree (allOf args) := by
  induction args with
  | nil => exact handlerFree_constant _
  | cons a rest ih =>
    obtain ⟨ha, hrest⟩ := List.forall_mem_cons.1 hargs
    -- a single operand is taken as it is, so the induction starts from two of them
    cases rest with
    | nil => exact handlerFree_asClosure ha
    | cons b rest =>
      refine .bind (ih hrest) fun c hc => handlerFree_conj ?_
      exact List.forall_mem_cons.2 ⟨ha, List.forall_mem_singleton.2 hc⟩

/-- A chain of disjunctions consists of its operands and constants. -/
theorem handlerFree_anyOf (hargs : ∀ e ∈ args, e.HandlerFree) :
    Results HandlerFree (anyOf args) := by
  induction args with
  | nil => exact handlerFree_constant _
  | cons a rest ih =>
    obtain ⟨ha, hrest⟩ := List.forall_mem_cons.1 hargs
    cases rest with
    | nil => exact handlerFree_asClosure ha
    | cons b rest =>
      refine .bind (ih hrest) fun c hc => handlerFree_disj ?_
      exact List.forall_mem_cons.2 ⟨ha, List.forall_mem_singleton.2 hc⟩

/-- The iterator of a list is made by a native function. -/
theorem handlerFree_iteratorOf {list : Expr} (hlist : list.HandlerFree) :
    Results HandlerFree (iteratorOf list) := by
  unfold iteratorOf
  split
  · exact handlerFree_closureNative (List.forall_mem_singleton.2 hlist)
  · exact .error

end Closure

/-- The handles that an operation is given besides its operands. -/
def Operation.given : Operation → List Handle
  | .wire h _ | .fold h _ | .filterReturn _ h => [h]
  | _ => []

open Closure in
/-- An operation on operands brings no handlers of its own. -/
theorem Operation.handlerFree (op : Operation) (hgiven : ∀ h ∈ op.given, h.HandlerFree)
    (hargs : ∀ e ∈ op.operands, e.HandlerFree) : Results Closure.HandlerFree op.run := by
  cases op with
  | wire h vars => exact handlerFree_wire (List.forall_mem_singleton.1 hgiven) vars
  | fold h args => exact handlerFree_fold (List.forall_mem_singleton.1 hgiven) hargs
  | asClosure e => exact handlerFree_asClosure (List.forall_mem_singleton.1 hargs)
  | cast c ty =>
    exact handlerFree_cast (hargs (.closure c) (List.mem_singleton.2 rfl)) ty
  | filterReturn c filter =>
    exact handlerFree_closureFilterReturn (hargs (.closure c) (List.mem_singleton.2 rfl))
      (List.forall_mem_singleton.1 hgiven)
  | constant ty v => exact handlerFree_constantTyped ty v
  | native ret args run => exact handlerFree_closureNative hargs
  | same a b => exact .after fun _ => handlerFree_closureNative hargs
  | equals a b => exact .after fun _ => handlerFree_closureNative hargs
  | compare a b => exact .after fun _ => handlerFree_closureNative hargs
  | hashCode a => exact handlerFree_closureNative hargs
  | isNull a => exact .after fun _ => handlerFree_closureNative hargs
  | isNotNull a => exact .after fun _ => handlerFree_closureNative hargs
  | instanceOf a ty => exact handlerFree_closureNative hargs
  | plus a b => exact .after fun _ => .after fun _ => handlerFree_closureNative hargs
  | mul a b => exact .after fun _ => .after fun _ => handlerFree_closureNative hargs
  | toText a => exact handlerFree_closureNative hargs
  | throwing ret error => exact handlerFree_applied hargs
  | newInstance s args => exact handlerFree_applied hargs
  | getField s name object => exact .after fun _ => handlerFree_applied hargs
  | setField s name object value => exact .after fun _ => handlerFree_applied hargs
  | instanceOfSchema a s => exact handlerFree_closureNative hargs
  | newArray elem length => exact handlerFree_applied hargs
  | arrayLength array => exact .after fun _ => handlerFree_applied hargs
  | getElement array index => exact .after fun _ => handlerFree_applied hargs
  | setElement array index value => exact .after fun _ => handlerFree_applied hargs
  | arrayCopyOf array length => exact .after fun _ => handlerFree_applied hargs
  | negation a => exact handlerFree_closureNative hargs
  | conj a b => exact handlerFree_conj hargs
  | disj a b => exact handlerFree_disj hargs
  | allOf args => exact handlerFree_allOf hargs
  | anyOf args => exact handlerFree_anyOf hargs

end Splice

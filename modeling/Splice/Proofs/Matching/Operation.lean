import Splice.Closure.Loop
import Splice.Closure.Recovery
import Splice.Proofs.Matching.Closure

/-!
# Matched operations

Two calls of one operation, on operands that are the same but for the variables, come to the same:
closures over matched variables, or one cause.
-/

namespace Splice

namespace Handle

/-- The identity is native. -/
theorem namesNone_identity (ty : Ty) : NamesNone (identity ty) := namesNone_native _ _ _

/-- Throwing is refused for its signature only. -/
theorem namesNone_throwing (ret : Ty) : NamesNone (throwing ret) :=
  .bind (namesNone_ofTypes _ _) fun _ => .ok

end Handle

/-- A field is refused for its name. -/
theorem Schema.namesNone_field (s : Schema) (name : String) : NamesNone (s.field name) := by
  unfold Schema.field
  split
  · exact .ok
  · exact .error rfl

namespace Closure

/-- Operands without a common type are refused by these types. -/
theorem namesNone_commonTy (op : Operator) (a b : Expr) : NamesNone (commonTy op a b) := by
  unfold commonTy
  split
  · exact .ok
  · exact .error rfl

/-- An operand that is no array is refused by its type. -/
theorem namesNone_arrayElement (op : Operator) (array : Expr) :
    NamesNone (arrayElement op array) := by
  unfold arrayElement
  split
  · exact .ok
  · exact .error rfl

end Closure

namespace Matching

variable {M : Matching} {a a' b b' e e' : Expr} {c c' : Closure} {args args' : List Expr}

/-- A constant has no variables to be matched. -/
theorem constantTyped (ty : Ty) (v : Value) :
    M.SameClosures (Closure.constantTyped ty v) (Closure.constantTyped ty v) := by
  unfold Closure.constantTyped
  split
  · exact constantVoid
  · exact .bind_namesNone (Handle.namesNone_constant _ _) fun h => wire h .nil

/-- A constant of its own type is one of some type. -/
theorem constant (v : Value) : M.SameClosures (Closure.constant v) (Closure.constant v) :=
  constantTyped _ _

/-- A native function applied to matched operands is refused alike, and else a matched closure. -/
theorem native (ret : Ty) (run : List Value → Exec Value)
    (hargs : List.Forall₂ M.SameExpr args args') :
    M.SameClosures (Closure.native ret args run) (Closure.native ret args' run) := by
  unfold Closure.native
  rw [map_expr_ty_eq hargs]
  exact .bind_namesNone (Handle.namesNone_native _ _ _) fun h => fold h hargs

/-- Operations of one operand are native. -/
theorem unary (ret : Ty) (run : Value → Exec Value) (ha : M.SameExpr a a') :
    M.SameClosures (Closure.unary ret a run) (Closure.unary ret a' run) :=
  native ret _ (.cons ha .nil)

/-- Operations of two operands are native. -/
theorem binary (ret : Ty) (run : Value → Value → Exec Value) (ha : M.SameExpr a a')
    (hb : M.SameExpr b b') :
    M.SameClosures (Closure.binary ret a b run) (Closure.binary ret a' b' run) :=
  native ret _ (.cons ha (.cons hb .nil))

/-- Operands of matched types have one common type or are refused for one cause. -/
theorem commonTy_eq (op : Operator) (ha : M.SameExpr a a') (hb : M.SameExpr b b') :
    Closure.commonTy op a' b' = Closure.commonTy op a b := by
  unfold Closure.commonTy
  rw [ha.ty_eq, hb.ty_eq]

/-- What an operator demands of an operand is demanded of the type alone. -/
theorem demand_eq (op : Operator) (ha : M.SameExpr a a') (defined : Bool) :
    Closure.demand op a' defined = Closure.demand op a defined := by
  unfold Closure.demand
  rw [ha.ty_eq]

/-- Matched operands are arrays with one element type, or refused for one cause. -/
theorem arrayElement_eq (op : Operator) (ha : M.SameExpr a a') :
    Closure.arrayElement op a' = Closure.arrayElement op a := by
  unfold Closure.arrayElement
  rw [ha.ty_eq]

/-! ## Branches -/

/-- Conditionals of matched operands match: each step of the composition looks at types and handles
only, which are the same, and the variables are merged alike. -/
theorem ifThenElse {cond cond' accept accept' reject reject' : Expr} (hcond : M.SameExpr cond cond')
    (haccept : M.SameExpr accept accept') (hreject : M.SameExpr reject reject') :
    M.SameClosures (Closure.ifThenElse cond accept reject)
      (Closure.ifThenElse cond' accept' reject') := by
  unfold Closure.ifThenElse Closure.expectType
  rw [hcond.ty_eq]
  refine .bind_namesNone (.require rfl) fun _ => ?_
  refine .bind (asClosure haccept) fun x x' hx => .bind (asClosure hreject) fun y y' hy => ?_
  rw [hx.ty_eq, hy.ty_eq]
  refine .bind_namesNone (.require rfl) fun _ => ?_
  -- the variables of both branches, in the order of their first occurrences
  have hu := ofSources (.cons hx.args (.cons hy.args .nil))
  refine .bind_namesNone (Handle.namesNone_identity _) fun test => ?_
  refine .bind (align hu 0 hx) fun x x' hx => ?_
  rw [hx.handle_eq]
  refine .bind_namesNone (Handle.namesNone_dropArgs _ _ _) fun _ => ?_
  refine .bind (align hu 0 hy) fun y y' hy => ?_
  rw [hy.handle_eq]
  refine .bind_namesNone (Handle.namesNone_dropArgs _ _ _) fun _ => ?_
  refine .bind_namesNone (Handle.namesNone_guardWithTest _ _ _) fun guard => ?_
  exact fold guard (.cons hcond (exprs_of_vars hu))

/-- A conditional without an alternative has one that does nothing, which has no variables. -/
theorem ifThen {cond cond' accept accept' : Expr} (hcond : M.SameExpr cond cond')
    (haccept : M.SameExpr accept accept') :
    M.SameClosures (Closure.ifThen cond accept) (Closure.ifThen cond' accept') :=
  .bind (asClosure haccept) fun _ _ hc => .bind (cast hc .void) fun _ _ hc =>
    .bind constantVoid fun _ _ hvoid => ifThenElse hcond hc hvoid

/-- Conjunctions are conditionals. -/
theorem conj (ha : M.SameExpr a a') (hb : M.SameExpr b b') :
    M.SameClosures (Closure.conj a b) (Closure.conj a' b') :=
  .bind (constant _) fun _ _ hc => ifThenElse ha hb hc

/-- Disjunctions are conditionals. -/
theorem disj (ha : M.SameExpr a a') (hb : M.SameExpr b b') :
    M.SameClosures (Closure.disj a b) (Closure.disj a' b') :=
  .bind (constant _) fun _ _ hc => ifThenElse ha hc hb

/-- Chains of matched operands match, link by link. -/
theorem allOf (hargs : List.Forall₂ M.SameExpr args args') :
    M.SameClosures (Closure.allOf args) (Closure.allOf args') := by
  induction hargs with
  | nil => exact constant _
  | cons ha hrest ih =>
    -- the chain is linked from behind, and a single operand is no link
    cases hrest with
    | nil => exact asClosure ha
    | cons hb hrest => exact .bind ih fun _ _ hc => conj ha hc

/-- Chains of matched operands match, link by link. -/
theorem anyOf (hargs : List.Forall₂ M.SameExpr args args') :
    M.SameClosures (Closure.anyOf args) (Closure.anyOf args') := by
  induction hargs with
  | nil => exact constant _
  | cons ha hrest ih =>
    cases hrest with
    | nil => exact asClosure ha
    | cons hb hrest => exact .bind ih fun _ _ hc => disj ha hc

/-! ## Comparisons and arithmetic -/

/-- Matched operands are compared for sameness alike. -/
theorem same (ha : M.SameExpr a a') (hb : M.SameExpr b b') :
    M.SameClosures (Closure.same a b) (Closure.same a' b') := by
  unfold Closure.same
  rw [commonTy_eq _ ha hb]
  exact .bind_namesNone (Closure.namesNone_commonTy _ _ _) fun _ => binary _ _ ha hb

/-- Matched operands are compared for equality alike. -/
theorem equals (ha : M.SameExpr a a') (hb : M.SameExpr b b') :
    M.SameClosures (Closure.equals a b) (Closure.equals a' b') := by
  unfold Closure.equals
  rw [commonTy_eq _ ha hb]
  exact .bind_namesNone (Closure.namesNone_commonTy _ _ _) fun _ => binary _ _ ha hb

/-- Matched operands are ordered alike. -/
theorem compare (ha : M.SameExpr a a') (hb : M.SameExpr b b') :
    M.SameClosures (Closure.compare a b) (Closure.compare a' b') := by
  unfold Closure.compare
  rw [commonTy_eq _ ha hb]
  exact .bind_namesNone (Closure.namesNone_commonTy _ _ _) fun _ => binary _ _ ha hb

/-- Matched operands are tested for null alike. -/
theorem isNull (ha : M.SameExpr a a') :
    M.SameClosures (Closure.isNull a) (Closure.isNull a') := by
  unfold Closure.isNull
  rw [demand_eq _ ha, ha.ty_eq]
  exact .bind_namesNone (.require rfl) fun _ => unary _ _ ha

/-- Matched operands are tested for not being null alike. -/
theorem isNotNull (ha : M.SameExpr a a') :
    M.SameClosures (Closure.isNotNull a) (Closure.isNotNull a') := by
  unfold Closure.isNotNull
  rw [demand_eq _ ha, ha.ty_eq]
  exact .bind_namesNone (.require rfl) fun _ => unary _ _ ha

/-- Matched operands are added alike. -/
theorem plus (ha : M.SameExpr a a') (hb : M.SameExpr b b') :
    M.SameClosures (Closure.plus a b) (Closure.plus a' b') := by
  unfold Closure.plus
  simp only [commonTy_eq _ ha hb, demand_eq _ ha]
  exact .bind_namesNone (Closure.namesNone_commonTy _ _ _) fun _ =>
    .bind_namesNone (.require rfl) fun _ => binary _ _ ha hb

/-- Matched operands are multiplied alike. -/
theorem mul (ha : M.SameExpr a a') (hb : M.SameExpr b b') :
    M.SameClosures (Closure.mul a b) (Closure.mul a' b') := by
  unfold Closure.mul
  simp only [commonTy_eq _ ha hb, demand_eq _ ha]
  exact .bind_namesNone (Closure.namesNone_commonTy _ _ _) fun _ =>
    .bind_namesNone (.require rfl) fun _ => binary _ _ ha hb

/-! ## Records, arrays and errors -/

/-- The application of a handle that does not depend on the operands. -/
theorem applied {x : Except CompositionError Handle} (hx : NamesNone x)
    (hargs : List.Forall₂ M.SameExpr args args') :
    M.SameClosures (do Closure.fold (← x) args) (do Closure.fold (← x) args') :=
  .bind_namesNone hx fun h => fold h hargs

/-- The application of a handle that depends on the element type of an array operand. -/
theorem appliedToArray (op : Operator) {handle : Ty → Except CompositionError Handle}
    (hhandle : ∀ elem, NamesNone (handle elem)) (ha : M.SameExpr a a')
    (hargs : List.Forall₂ M.SameExpr args args') :
    M.SameClosures (do Closure.fold (← handle (← Closure.arrayElement op a)) args)
      (do Closure.fold (← handle (← Closure.arrayElement op a')) args') := by
  rw [arrayElement_eq op ha]
  exact .bind_namesNone (Closure.namesNone_arrayElement _ _) fun elem =>
    applied (hhandle elem) hargs

/-- The operand of a throw is applied to the handle that throws it. -/
theorem throwing (ret : Ty) (ha : M.SameExpr a a') :
    M.SameClosures (Closure.throwing ret a) (Closure.throwing ret a') :=
  applied (Handle.namesNone_throwing _) (.cons ha .nil)

/-- Records are made of matched operands alike. -/
theorem newInstance (s : Schema) (hargs : List.Forall₂ M.SameExpr args args') :
    M.SameClosures (Closure.newInstance s args) (Closure.newInstance s args') :=
  applied (Handle.namesNone_native _ _ _) hargs

/-- Matched operands have one field read. -/
theorem getField (s : Schema) (name : String) (ha : M.SameExpr a a') :
    M.SameClosures (Closure.getField s name a) (Closure.getField s name a') :=
  .bind_namesNone (s.namesNone_field _) fun _ =>
    applied (Handle.namesNone_native _ _ _) (.cons ha .nil)

/-- Matched operands have one field written. -/
theorem setField (s : Schema) (name : String) (ha : M.SameExpr a a') (hb : M.SameExpr b b') :
    M.SameClosures (Closure.setField s name a b) (Closure.setField s name a' b') :=
  .bind_namesNone (s.namesNone_field _) fun _ =>
    applied (Handle.namesNone_native _ _ _) (.cons ha (.cons hb .nil))

/-- Arrays are made of matched lengths alike. -/
theorem newArray (elem : Ty) (ha : M.SameExpr a a') :
    M.SameClosures (Closure.newArray elem a) (Closure.newArray elem a') :=
  applied (Handle.namesNone_native _ _ _) (.cons ha .nil)

/-- Matched arrays are measured alike. -/
theorem arrayLength (ha : M.SameExpr a a') :
    M.SameClosures (Closure.arrayLength a) (Closure.arrayLength a') :=
  appliedToArray _ (fun _ => Handle.namesNone_native _ _ _) ha (.cons ha .nil)

/-- Matched arrays are read alike. -/
theorem getElement (ha : M.SameExpr a a') (hb : M.SameExpr b b') :
    M.SameClosures (Closure.getElement a b) (Closure.getElement a' b') :=
  appliedToArray _ (fun _ => Handle.namesNone_native _ _ _) ha (.cons ha (.cons hb .nil))

/-- Matched arrays are written alike. -/
theorem setElement (ha : M.SameExpr a a') (hb : M.SameExpr b b') (he : M.SameExpr e e') :
    M.SameClosures (Closure.setElement a b e) (Closure.setElement a' b' e') :=
  appliedToArray _ (fun _ => Handle.namesNone_native _ _ _) ha (.cons ha (.cons hb (.cons he .nil)))

/-- Matched arrays are copied alike. -/
theorem arrayCopyOf (ha : M.SameExpr a a') (hb : M.SameExpr b b') :
    M.SameClosures (Closure.arrayCopyOf a b) (Closure.arrayCopyOf a' b') :=
  appliedToArray _ (fun _ => Handle.namesNone_native _ _ _) ha (.cons ha (.cons hb .nil))

/-- Matched lists are iterated over alike. -/
theorem iteratorOf (ha : M.SameExpr a a') :
    M.SameClosures (Closure.iteratorOf a) (Closure.iteratorOf a') := by
  unfold Closure.iteratorOf
  rw [ha.ty_eq]
  split
  · exact unary _ _ ha
  · exact .error rfl

end Matching

end Splice

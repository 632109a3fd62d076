import Splice.Closure.Application
import Splice.Proofs.Matching.Basic
import Splice.Proofs.Session.Operation

/-!
# Matched closures

Operations on operands look at variables only to tell them apart and for their types. So if the
operands of two calls of an operation are the same but for the variables, then so is what the calls
come to: the same handle over matched variables, or one cause.
-/

namespace Splice

/-! ## Handles know nothing of variables -/

namespace Handle

/-- Signatures are made of types alone. -/
theorem namesNone_ofTypes (params : List Ty) (ret : Ty) :
    NamesNone (Signature.ofTypes params ret) := by
  unfold Signature.ofTypes
  split
  · exact .error rfl
  · exact .ok

/-- A native handle is refused for its signature only. -/
theorem namesNone_native (params : List Ty) (ret : Ty) (run : List Value → Exec Value) :
    NamesNone (native params ret run) :=
  .bind (namesNone_ofTypes _ _) fun _ => .ok

/-- A constant is refused for its value only. -/
theorem namesNone_constant (ty : Ty) (v : Value) : NamesNone (constant ty v) := by
  unfold constant
  split
  · exact .ok
  · exact .error rfl

/-- A projection is refused for its index or its signature only. -/
theorem namesNone_project (params : List Ty) (index : Nat) :
    NamesNone (project params index) := by
  unfold project
  split
  · exact namesNone_native _ _ _
  · exact .error rfl

variable {h filter : Handle}

/-- A misplaced parameter is reported by types and positions. -/
theorem vars_of_misplaced? {params : List Ty} {reorder : List Nat} {cause : CompositionError}
    (hm : h.misplaced? params reorder = some cause) : cause.vars = [] := by
  -- a position is misplaced if it is behind the parameters or if its type is another one
  obtain ⟨⟨⟨expected, position⟩, index⟩, -, hcause⟩ := List.exists_of_findSome?_eq_some hm
  dsimp only at hcause
  split at hcause
  · split at hcause
    · cases hcause
    · obtain rfl := Option.some.inj hcause
      rfl
  · obtain rfl := Option.some.inj hcause
    rfl

/-- Permuting is refused for the number of the positions, the signature or a misplaced parameter. -/
theorem namesNone_permute (h : Handle) (params : List Ty) (reorder : List Nat) :
    NamesNone (h.permute params reorder) := by
  refine .bind (.require rfl) fun _ => .bind (namesNone_ofTypes _ _) fun sig => ?_
  split
  · next hm => exact .error (vars_of_misplaced? hm)
  · exact .ok

/-- Replacing a parameter is refused for the types of the two handles. -/
theorem namesNone_collect (h : Handle) (pos : Nat) (filter : Handle) :
    NamesNone (h.collect pos filter) := by
  unfold collect
  split <;> split
  · exact .ok
  · exact .error rfl
  · exact .ok
  · exact .error rfl

/-- Ignoring parameters is refused for their place or the signature. -/
theorem namesNone_dropArgs (h : Handle) (pos : Nat) (types : List Ty) :
    NamesNone (h.dropArgs pos types) :=
  .bind (.require rfl) fun _ => .bind (namesNone_ofTypes _ _) fun _ => .ok

/-- Filtering a result is refused for the types of the two handles. -/
theorem namesNone_filterReturn (h filter : Handle) : NamesNone (h.filterReturn filter) := by
  unfold filterReturn
  split
  · exact .ok
  · exact .error rfl

/-- A conversion is refused for the two types. -/
theorem namesNone_convert (h : Handle) (ty : Ty) : NamesNone (h.convert ty) := by
  unfold convert
  split
  · exact .error rfl
  · exact .ok

/-- A branch is refused for the types of its three handles. -/
theorem namesNone_guardWithTest (test accept reject : Handle) :
    NamesNone (guardWithTest test accept reject) :=
  .bind (.require rfl) fun _ => .bind (.require rfl) fun _ => .bind (.require rfl) fun _ =>
    .bind (.require rfl) fun _ => .ok

/-- The state of a loop is refused for its type. -/
theorem namesNone_loopState (init : Handle) : NamesNone (loopState init) := by
  unfold loopState
  split
  · exact .error rfl
  · exact .ok

/-- A loop with a test first is refused for the types of its handles. -/
theorem namesNone_loopWhile (init pred body : Handle) : NamesNone (loopWhile init pred body) :=
  .bind (namesNone_loopState _) fun _ => .bind (.require rfl) fun _ => .bind (.require rfl)
    fun _ => .bind (.require rfl) fun _ => .bind (.require rfl) fun _ => .ok

/-- A loop with a test last is refused for the types of its handles. -/
theorem namesNone_loopDoWhile (init body pred : Handle) : NamesNone (loopDoWhile init body pred) :=
  .bind (namesNone_loopState _) fun _ => .bind (.require rfl) fun _ => .bind (.require rfl)
    fun _ => .bind (.require rfl) fun _ => .bind (.require rfl) fun _ => .ok

/-- A counted loop is refused for the types of its handles. -/
theorem namesNone_loopCounted (start stop init body : Handle) :
    NamesNone (loopCounted start stop init body) :=
  .bind (namesNone_loopState _) fun _ => .bind (.require rfl) fun _ => .bind (.require rfl)
    fun _ => .bind (.require rfl) fun _ => .bind (.require rfl) fun _ => .bind (.require rfl)
    fun _ => .bind (.require rfl) fun _ => .ok

/-- A loop over an iterator is refused for the types of its handles. -/
theorem namesNone_loopIterated (source init body : Handle) :
    NamesNone (loopIterated source init body) := by
  refine .bind (namesNone_loopState _) fun _ => ?_
  split
  · exact .bind (.require rfl) fun _ => .bind (.require rfl) fun _ => .bind (.require rfl)
      fun _ => .ok
  · exact .error rfl

/-- A handler is refused for the types of the two handles. -/
theorem namesNone_catchException (h : Handle) (cls : String) (handler : Handle) :
    NamesNone (h.catchException cls handler) :=
  .bind (.require rfl) fun _ => .bind (.require rfl) fun _ => .ok

/-- A cleanup is refused for the types of the two handles. -/
theorem namesNone_tryFinally (h cleanup : Handle) : NamesNone (h.tryFinally cleanup) :=
  .bind (.require rfl) fun _ => .bind (.require rfl) fun _ => .ok

end Handle

/-! ## Closures -/

namespace Matching

variable {M : Matching}

/-- Matched closures have one handle, and so one type. -/
theorem SameClosure.ty_eq {c c' : Closure} (h : M.SameClosure c c') : c'.ty = c.ty :=
  congrArg Handle.ret h.handle_eq

/-- Matched operands have one type. -/
theorem SameExpr.ty_eq {e e' : Expr} (h : M.SameExpr e e') : e'.ty = e.ty := by
  cases e <;> cases e'
  · exact M.ty_eq _ _ h
  · exact h.elim
  · exact h.elim
  · exact SameClosure.ty_eq h

/-- Matched operands have matched variables. -/
theorem SameExpr.vars {e e' : Expr} (h : M.SameExpr e e') :
    List.Forall₂ M.vars e.vars e'.vars := by
  cases e <;> cases e'
  · exact .cons h .nil
  · exact h.elim
  · exact h.elim
  · exact SameClosure.args h

/-- Closures that are the same but for the variables. -/
abbrev SameClosures (M : Matching) := M.SameResult M.SameClosure

variable {args args' : List Expr} {c c' : Closure} {vs vs' : List Var}

/-- Matched lists of operands have the same types. -/
theorem map_expr_ty_eq (h : List.Forall₂ M.SameExpr args args') :
    args'.map Expr.ty = args.map Expr.ty := by
  induction h with
  | nil => rfl
  | cons he _ ih => rw [List.map_cons, List.map_cons, he.ty_eq, ih]

/-- Matched variables are matched operands. -/
theorem exprs_of_vars (h : List.Forall₂ M.vars vs vs') :
    List.Forall₂ M.SameExpr (vs.map Expr.var) (vs'.map Expr.var) := by
  rw [List.forall₂_map_left_iff, List.forall₂_map_right_iff]
  exact h

/-- Matched lists of operands have matched variables, with repetitions. -/
theorem flatMap_vars (h : List.Forall₂ M.SameExpr args args') :
    List.Forall₂ M.vars (args.flatMap Expr.vars) (args'.flatMap Expr.vars) :=
  List.rel_flatMap h fun _ _ he => he.vars

/-- A handle takes matched variables, or it takes neither list of them, and for the same types. -/
theorem wire (h : Handle) (hvs : List.Forall₂ M.vars vs vs') :
    M.SameClosures (Closure.wire h vs) (Closure.wire h vs') := by
  have hty := map_ty_eq hvs
  unfold Closure.wire
  by_cases htyped : vs.map Var.ty = h.params
  · rw [dif_pos htyped, dif_pos (hty.trans htyped)]
    exact .ok ⟨rfl, hvs⟩
  · rw [dif_neg htyped, dif_neg fun htyped' => htyped (hty.symm.trans htyped'), hty]
    exact .error rfl

/-- The closure that does nothing has no variables. -/
theorem constantVoid : M.SameClosures Closure.constantVoid Closure.constantVoid :=
  .bind_namesNone (Handle.namesNone_native _ _ _) fun h => wire h .nil

/-- Matched variables are matched closures. -/
theorem varAsClosure {v v' : Var} (hv : M.vars v v') :
    M.SameClosures v.asClosure v'.asClosure := by
  unfold Var.asClosure
  rw [M.ty_eq _ _ hv]
  split
  · exact constantVoid
  · exact .bind_namesNone (Handle.namesNone_native _ _ _) fun h => wire h (.cons hv .nil)

/-- Matched operands are matched closures. -/
theorem asClosure {e e' : Expr} (h : M.SameExpr e e') :
    M.SameClosures e.asClosure e'.asClosure := by
  cases e <;> cases e'
  · exact varAsClosure h
  · exact h.elim
  · exact h.elim
  · exact .ok h

/-- Matched operands are collected into one and the same handle. -/
theorem collectAll (h : Handle) (pos : Nat) (hargs : List.Forall₂ M.SameExpr args args') :
    M.SameResult Eq (Closure.collectAll h pos args) (Closure.collectAll h pos args') := by
  induction hargs generalizing pos with
  | nil => exact .ok rfl
  | @cons e e' rest rest' he _ ih =>
    refine .bind (ih (pos + 1)) fun inner inner' hinner => ?_
    subst hinner
    cases e <;> cases e'
    · exact .ok rfl
    · exact he.elim
    · exact he.elim
    · next closure closure' =>
      -- collecting looks at nothing of a closure but its handle
      change M.SameResult Eq (inner.collect pos closure.handle) (inner.collect pos closure'.handle)
      rw [SameClosure.handle_eq he]
      exact .of_namesNone (Handle.namesNone_collect _ _ _) fun _ _ => rfl

/-- Matched closures have matched variables left when repeated ones are merged. -/
theorem dedup (h : M.SameClosure c c') : M.SameClosures c.dedup c'.dedup := by
  have hdistinct := eraseDups h.args
  -- all that the permutation is made of is the same for both: lengths, types and positions
  unfold Closure.dedup
  dsimp only
  rw [hdistinct.length_eq, h.args.length_eq, map_ty_eq hdistinct, h.handle_eq,
    map_eq (fun v v' hv => idxOf_eq hv hdistinct) h.args]
  split
  · exact .ok h
  · exact .bind_namesNone (Handle.namesNone_permute _ _ _) fun g => wire g hdistinct

/-- A handle applied to matched operands is a matched closure. -/
theorem fold (h : Handle) (hargs : List.Forall₂ M.SameExpr args args') :
    M.SameClosures (Closure.fold h args) (Closure.fold h args') := by
  unfold Closure.fold Handle.expectArgs
  rw [map_expr_ty_eq hargs]
  refine .bind_namesNone (.require rfl) fun _ => .bind (collectAll h 0 hargs) fun g g' hg => ?_
  subst hg
  exact .bind (wire g (flatMap_vars hargs)) fun _ _ hc => dedup hc

/-- Casts of matched closures match. -/
theorem cast (h : M.SameClosure c c') (ty : Ty) : M.SameClosures (c.cast ty) (c'.cast ty) := by
  unfold Closure.cast
  rw [h.ty_eq, h.handle_eq]
  split
  · exact .ok h
  · exact .bind_namesNone (Handle.namesNone_convert _ _) fun g => wire g h.args

/-- One filter of matched closures gives matched closures. -/
theorem filterReturn (h : M.SameClosure c c') (filter : Handle) :
    M.SameClosures (c.filterReturn filter) (c'.filterReturn filter) := by
  unfold Closure.filterReturn
  rw [h.handle_eq]
  exact .bind_namesNone (Handle.namesNone_filterReturn _ _) fun g => wire g h.args

/-- Matched local variables move to the front of matched closures. -/
theorem withLocals (h : M.SameClosure c c') (hvs : List.Forall₂ M.vars vs vs') :
    M.SameClosures (c.withLocals vs) (c'.withLocals vs') := by
  have hall := List.rel_append hvs (filter_notMem h.args hvs)
  unfold Closure.withLocals
  dsimp only
  rw [map_ty_eq hall, h.handle_eq, map_eq (fun v v' hv => lastIndex_eq hv hall) h.args]
  exact .bind_namesNone (Handle.namesNone_permute _ _ _) fun g => wire g hall

/-! ## Unifiers -/

/-- Unifiers of matched variables. -/
def SameUnifier (M : Matching) (u u' : Unifier) : Prop := List.Forall₂ M.vars u.vars u'.vars

/-- The variables of matched sources are matched. -/
theorem ofSources {sources sources' : List (List Var)}
    (h : List.Forall₂ (List.Forall₂ M.vars) sources sources') :
    M.SameUnifier (Unifier.ofSources sources) (Unifier.ofSources sources') :=
  eraseDups (List.rel_flatten h)

/-- A variable has one position among matched variables, or is missing in both. -/
theorem position {u u' : Unifier} (hu : M.SameUnifier u u') {v v' : Var} (hv : M.vars v v') :
    M.SameResult Eq (u.position v) (u'.position v') := by
  unfold Unifier.position
  rw [idxOf?_eq hv hu]
  split
  · exact .ok rfl
  · exact .error hv

/-- Steps that are taken alike at every element of related lists are taken alike at the lists. -/
theorem mapM {P : α → β → Prop} {Q : γ → δ → Prop} {f : α → Except CompositionError γ}
    {f' : β → Except CompositionError δ} {l : List α} {l' : List β}
    (hf : ∀ a b, P a b → M.SameResult Q (f a) (f' b)) (hl : List.Forall₂ P l l') :
    M.SameResult (List.Forall₂ Q) (l.mapM f) (l'.mapM f') := by
  induction hl with
  | nil => exact .ok .nil
  | cons ha _ ih =>
    rw [List.mapM_cons, List.mapM_cons]
    exact .bind (hf _ _ ha) fun _ _ hb => .bind ih fun _ _ hbs => .ok (.cons hb hbs)

/-- Unifiers of matched variables align matched closures. -/
theorem align {u u' : Unifier} (hu : M.SameUnifier u u') (keep : Nat) (h : M.SameClosure c c') :
    M.SameClosures (u.align keep c) (u'.align keep c') := by
  have hargs := List.rel_append (List.forall₂_take keep h.args) hu
  unfold Unifier.align
  rw [h.args.length_eq]
  -- closures with too few arguments are refused first, for a cause that names these arguments
  refine .bind (Q := fun _ _ => True) ?_ fun _ _ _ => ?_
  · unfold require
    split
    · exact .ok trivial
    · exact .error ⟨h.args, rfl⟩
  · -- then each argument behind those that are kept is looked up in the unifier
    have hplace : ∀ v v', M.vars v v' → M.SameResult Eq
        (do return keep + (← u.position v)) (do return keep + (← u'.position v')) :=
      fun v v' hv => .bind (position hu hv) fun i i' hi => .ok (congrArg (keep + ·) hi)
    refine .bind (mapM hplace (List.forall₂_drop keep h.args)) fun places places' hplaces => ?_
    rw [List.forall₂_eq_eq_eq] at hplaces
    subst hplaces
    dsimp only
    rw [map_ty_eq hargs, h.handle_eq]
    exact .bind_namesNone (Handle.namesNone_permute _ _ _) fun g => wire g hargs

end Matching

end Splice

import Splice.Proofs.Compose
import Splice.Proofs.Matching.Operation
import Splice.Scope.Growth

/-!
# Matched scopes

Scopes are the same but for the variables if they have the same statements on the same inputs, over
matched variables. They take and refuse the same parameters, statements and returned expressions,
and one handle comes of both.
-/

namespace Splice

namespace Scope

/-- The variable that a scope gives next. -/
def nextVar (s : Scope) (isParam : Bool) (ty : Ty) : Var := ⟨s.id, s.nextOrdinal, isParam, ty⟩

/-- What a function refuses is a statement that reads a variable of another scope. -/
theorem assignClosure_eq (s : Scope) (c : Closure) : s.assignClosure c =
    match s.capturing, s.foreign c.args with
    | false, v :: _ => .error (.foreignVar v)
    | _, _ => .ok (s.nextVar false c.ty, s.extended c (s.nextVar false c.ty)) := by
  unfold assignClosure
  cases hcapturing : s.capturing <;> cases hforeign : s.foreign c.args <;>
    simp only [extended, captured, nextVar, hforeign, hcapturing]

/-- What comes of building does not depend on the supply. -/
theorem result_build (s : Scope) (ret : Var) (supply : Supply) :
    (s.build ret).result supply = chain s.live ret 0 s.inputs.length s.statements := by
  obtain ⟨nextScope, nextSchema, tracing, log⟩ := supply
  unfold build Compose.result
  generalize chain s.live ret 0 s.inputs.length s.statements = built
  cases tracing <;> cases built <;> rfl

end Scope

namespace Matching

variable (M : Matching)

/-- The same statement, over matched variables. -/
structure SameStatement (st st' : Statement) : Prop where
  var : M.vars st.var st'.var
  closure : M.SameClosure st.closure st'.closure

/-- The same inputs and statements, over matched variables. The variables that come next need not
match. -/
structure SameScope (s s' : Scope) : Prop where
  scope : M.scopes s.id s'.id
  capturing_eq : s'.capturing = s.capturing
  inputs : List.Forall₂ M.vars s.inputs s'.inputs
  statements : List.Forall₂ M.SameStatement s.statements s'.statements

/-- Matched variables, and the same scopes after them. -/
def SameStep (r r' : Var × Scope) : Prop := M.vars r.1 r'.1 ∧ M.SameScope r.2 r'.2

variable {M} {s s' : Scope} {v v' : Var} {vs vs' : List Var} {c c' : Closure}
  {e e' : Expr}

/-- Matched scopes under construction stay so where more is matched. -/
theorem SameScope.mono {M' : Matching} (hs : M.SameScope s s') (hM : M ≤ M') :
    M'.SameScope s s' where
  scope := hM.1 _ _ hs.scope
  capturing_eq := hs.capturing_eq
  inputs := hs.inputs.imp hM.2
  statements := hs.statements.imp fun _ _ h => ⟨hM.2 _ _ h.var, h.closure.mono hM⟩

/-- A variable belongs to a scope if and only if its match belongs to the match of the scope. -/
theorem scope_eq_iff (hs : M.SameScope s s') (hv : M.vars v v') :
    v.scope = s.id ↔ v'.scope = s'.id :=
  Relator.rel_eq M.scopes_unique (M.scopes_of_vars _ _ hv) hs.scope

/-- The variables that scopes find foreign are matched, as belonging to a scope is. -/
theorem foreign (hs : M.SameScope s s') (h : List.Forall₂ M.vars vs vs') :
    List.Forall₂ M.vars (s.foreign vs) (s'.foreign vs') :=
  filter (fun v v' hv => by rw [decide_eq_decide, not_iff_not, scope_eq_iff hs hv]) h

/-! ## Growing -/

/-- Both scopes declare a parameter, or refuse it for one cause. -/
theorem addParam (hs : M.SameScope s s') {ty : Ty}
    (hnew : (∃ v, (s.addParam ty).1 = .ok v) → M.vars (s.nextVar true ty) (s'.nextVar true ty)) :
    M.SameResult M.vars (s.addParam ty).1 (s'.addParam ty).1 ∧
      M.SameScope (s.addParam ty).2 (s'.addParam ty).2 := by
  have hempty : s'.statements.isEmpty = s.statements.isEmpty := by
    rw [Bool.eq_iff_iff, List.isEmpty_iff_length_eq_zero, List.isEmpty_iff_length_eq_zero,
      hs.statements.length_eq]
  unfold Scope.addParam Var.param at hnew ⊢
  rw [hempty]
  -- a parameter comes before any statement and is not void
  by_cases hbody : s.statements.isEmpty
  · rw [if_pos hbody] at hnew ⊢
    rw [if_pos hbody]
    by_cases hty : ty = .void
    · rw [if_pos hty, if_pos hty]
      exact ⟨.error rfl, hs.scope, hs.capturing_eq, hs.inputs, hs.statements⟩
    · rw [if_neg hty] at hnew ⊢
      rw [if_neg hty]
      have hv := hnew ⟨_, rfl⟩
      exact ⟨.ok hv, hs.scope, hs.capturing_eq, List.rel_append hs.inputs (.cons hv .nil),
        hs.statements⟩
  · rw [if_neg hbody, if_neg hbody]
    exact ⟨.error rfl, hs⟩

/-- Both scopes go on with a statement bound to matched variables. -/
theorem extended (hs : M.SameScope s s') (hc : M.SameClosure c c') (hv : M.vars v v') :
    M.SameScope (s.extended c v) (s'.extended c' v') where
  -- what each scope captures now is new to it, and so is its match to the other
  scope := hs.scope
  capturing_eq := hs.capturing_eq
  inputs := List.rel_append hs.inputs (eraseDups (filter_notMem (foreign hs hc.args) hs.inputs))
  statements := List.rel_append hs.statements (.cons ⟨hv, hc⟩ .nil)

/-- Both scopes take a statement, or refuse it for one cause. -/
theorem assignClosure (hs : M.SameScope s s') (hc : M.SameClosure c c')
    (hnew : (∃ r, s.assignClosure c = .ok r) →
      M.vars (s.nextVar false c.ty) (s'.nextVar false c.ty)) :
    M.SameResult M.SameStep (s.assignClosure c) (s'.assignClosure c') := by
  have hforeign := foreign hs hc.args
  rw [Scope.assignClosure_eq] at hnew
  rw [Scope.assignClosure_eq, Scope.assignClosure_eq, hs.capturing_eq, hc.ty_eq]
  -- a block captures what is foreign, a function refuses the first of it
  cases hcapturing : s.capturing with
  | true =>
    have hv := hnew ⟨_, by rw [hcapturing]⟩
    exact .ok ⟨hv, extended hs hc hv⟩
  | false =>
    rw [hcapturing] at hnew
    generalize s.foreign c.args = vars at hforeign hnew ⊢
    generalize s'.foreign c'.args = vars' at hforeign ⊢
    cases hforeign with
    | nil =>
      have hv := hnew ⟨_, rfl⟩
      exact .ok ⟨hv, extended hs hc hv⟩
    | cons hv _ => exact .error hv

/-- Both scopes take an operand as a statement, or refuse it for one cause. -/
theorem assign (hs : M.SameScope s s') (he : M.SameExpr e e')
    (hnew : (∃ r, s.assign e = .ok r) →
      M.vars (s.nextVar false e.ty) (s'.nextVar false e.ty)) :
    M.SameResult M.SameStep (s.assign e) (s'.assign e') := by
  obtain ⟨c, hc, hty, -⟩ := e.exists_asClosure
  obtain ⟨c', hc', -, -⟩ := e'.exists_asClosure
  have hsame := asClosure he
  unfold Scope.assign at hnew ⊢
  rw [hc] at hsame hnew ⊢
  rw [hc'] at hsame ⊢
  cases hsame with
  | ok h => exact assignClosure hs h (hty ▸ hnew)

/-- What both scopes return is matched, and so are the scopes with the statement that it takes. -/
theorem returned (hs : M.SameScope s s') (he : M.SameExpr e e')
    (hnew : M.vars (s.nextVar false e.ty) (s'.nextVar false e.ty)) :
    M.SameResult M.SameStep (s.returned e) (s'.returned e') := by
  cases e <;> cases e'
  · -- a variable of the scope's own is returned as it is, any other operand is assigned first
    next v v' =>
    unfold Scope.returned
    dsimp only
    by_cases hown : v.scope = s.id
    · rw [if_pos hown, if_pos ((scope_eq_iff hs he).1 hown)]
      exact .ok ⟨he, hs⟩
    · rw [if_neg hown, if_neg fun hown' => hown ((scope_eq_iff hs he).2 hown')]
      exact assign hs he fun _ => hnew
  · -- an operand and its match are both variables or both closures
    exact he.elim
  · exact he.elim
  · exact assignClosure hs he fun _ => hnew

/-! ## Building -/

/-- Matched statements bind matched variables. -/
theorem map_statement_var (hs : List.Forall₂ M.SameStatement ss ss') :
    List.Forall₂ M.vars (ss.map Statement.var) (ss'.map Statement.var) := by
  rw [List.forall₂_map_left_iff, List.forall₂_map_right_iff]
  exact hs.imp fun _ _ h => h.var

/-- The variables that matched scopes keep are matched, as a statement and its match are both void
or both kept. -/
theorem forall₂_live (hs : M.SameScope s s') : List.Forall₂ M.vars s.live s'.live :=
  List.rel_append hs.inputs
    (filter (fun v v' hv => by rw [M.ty_eq _ _ hv]) (map_statement_var hs.statements))

/-- Matched statements take equally many places. -/
theorem width_eq {st st' : Statement} (h : M.SameStatement st st') : st'.width = st.width := by
  unfold Statement.width
  rw [M.ty_eq _ _ h.var]

variable {live live' : List Var}

/-- A variable and its match are visible in the same place, or neither is visible. -/
theorem visibleAt (hlive : List.Forall₂ M.vars live live') (width index : Nat)
    (hv : M.vars v v') :
    M.SameResult Eq (Scope.visibleAt live width index v)
      (Scope.visibleAt live' width index v') := by
  unfold Scope.visibleAt
  rw [idxOf?_eq hv hlive]
  split
  · split
    · exact .ok rfl
    · exact .error ⟨hv, rfl⟩
  · exact .error ⟨hv, rfl⟩

/-- The last step of a chain is one handle for both scopes, as only places and types are read. -/
theorem finish (hlive : List.Forall₂ M.vars live live') (hv : M.vars v v') :
    M.SameResult Eq (Scope.finish live v) (Scope.finish live' v') := by
  unfold Scope.finish
  rw [idxOf?_eq hv hlive, M.ty_eq _ _ hv, map_ty_eq hlive]
  -- the variable is the last that is kept, one before it, or not kept at all
  split
  · exact .of_namesNone (Handle.namesNone_native _ _ _) fun _ _ => rfl
  · split
    · exact .of_namesNone (Handle.namesNone_project _ _) fun _ _ => rfl
    · exact .error hv

/-- One statement before one handle is one handle for both scopes. -/
theorem prepend (hlive : List.Forall₂ M.vars live live') (index width : Nat) {st st' : Statement}
    (hst : M.SameStatement st st') (next : Handle) :
    M.SameResult Eq (Scope.prepend live index width st next)
      (Scope.prepend live' index width st' next) := by
  unfold Scope.prepend
  rw [width_eq hst, hst.closure.handle_eq, map_ty_eq (List.forall₂_take width hlive)]
  -- types and places decide everything that is composed here, and these agree
  refine .bind_namesNone (Handle.namesNone_collect _ _ _) fun collected => ?_
  refine .bind (mapM (fun v v' hv => visibleAt hlive width index hv) hst.closure.args)
    fun places places' hplaces => ?_
  rw [List.forall₂_eq_eq_eq] at hplaces
  subst hplaces
  exact .of_namesNone (Handle.namesNone_permute _ _ _) fun _ _ => rfl

/-- A chain of matched statements is one handle for both scopes. -/
theorem chain (hlive : List.Forall₂ M.vars live live') (hv : M.vars v v') (index width : Nat)
    {statements statements' : List Statement}
    (hstatements : List.Forall₂ M.SameStatement statements statements') :
    M.SameResult Eq (Scope.chain live v index width statements)
      (Scope.chain live' v' index width statements') := by
  -- the chain is composed from its last statement on
  induction hstatements generalizing index width with
  | nil => exact finish hlive hv
  | cons hst _ ih =>
    unfold Scope.chain
    rw [width_eq hst]
    refine .bind (ih _ _) fun next next' hnext => ?_
    subst hnext
    exact prepend hlive index width hst next

/-- One handle comes of both scopes. -/
theorem chain_live (hs : M.SameScope s s') (hv : M.vars v v') :
    M.SameResult Eq (Scope.chain s.live v 0 s.inputs.length s.statements)
      (Scope.chain s'.live v' 0 s'.inputs.length s'.statements) := by
  rw [← hs.inputs.length_eq]
  exact chain (forall₂_live hs) hv 0 _ hs.statements

/-- The functions built from matched scopes are one handle, or both are refused for one cause. -/
theorem buildFunction (hs : M.SameScope s s') (he : M.SameExpr e e')
    (hnew : M.vars (s.nextVar false e.ty) (s'.nextVar false e.ty)) (supply supply' : Supply) :
    M.SameResult Eq ((s.buildFunction e).result supply) ((s'.buildFunction e').result supply') := by
  unfold Scope.buildFunction
  rw [Compose.result_lift_bind, Compose.result_lift_bind]
  refine .bind (returned hs he hnew) fun r r' hr => ?_
  rw [Scope.result_build, Scope.result_build]
  exact chain_live hr.2 hr.1

end Matching

end Splice

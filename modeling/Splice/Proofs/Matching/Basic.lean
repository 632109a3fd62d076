import Mathlib.Data.List.Forall2
import Splice.Closure.Basic
import Splice.Proofs.Occurrence

/-!
# Matched variables

Two compositions can do the same with different variables. A `Matching` says which scopes and which
variables of the one stand for which of the other: each for one at most, and variables for variables
of the same type. What is composed of matched variables is the same but for them, and so are the
causes for which it is refused; `Matching.SameResult` says so of a refusable step and is kept by all
ways in which steps are put together.
-/

namespace Splice

open Relator (BiUnique)

/-! ## Related lookups -/

section Lookups

variable {R : α → β → Prop} {T : γ → δ → Prop}

/-- Related lists have related elements at every position, or none in either. -/
theorem rel_getElem? {l : List α} {l' : List β} (h : List.Forall₂ R l l') (i : Nat) :
    Option.Rel R l[i]? l'[i]? := by
  induction h generalizing i with
  | nil => exact .none
  | cons hab _ ih =>
    cases i with
    | zero => exact .some hab
    | succ i => exact ih i

/-- Related elements can be put in the same place of related lists. -/
theorem rel_set {l : List α} {l' : List β} (h : List.Forall₂ R l l') {a : α} {b : β} (hab : R a b)
    (i : Nat) : List.Forall₂ R (l.set i a) (l'.set i b) := by
  induction h generalizing i with
  | nil => exact .nil
  | cons hhead htail ih =>
    cases i with
    | zero => exact .cons hab htail
    | succ i => exact .cons hhead (ih i)

/-- Related lookups go on in related ways, or both end. -/
theorem rel_bind {x : Option α} {x' : Option β} {f : α → Option γ} {f' : β → Option δ}
    (hx : Option.Rel R x x') (hf : ∀ a b, R a b → Option.Rel T (f a) (f' b)) :
    Option.Rel T (x >>= f) (x' >>= f') := by
  cases hx with
  | none => exact .none
  | some h => exact hf _ _ h

/-- What is made of related elements is related. -/
theorem rel_map {x : Option α} {x' : Option β} {f : α → γ} {f' : β → δ} (hx : Option.Rel R x x')
    (hf : ∀ a b, R a b → T (f a) (f' b)) : Option.Rel T (x.map f) (x'.map f') := by
  cases hx with
  | none => exact .none
  | some h => exact .some (hf _ _ h)

/-- One element or none, as a list. -/
theorem rel_toList {x : Option α} {x' : Option β} (hx : Option.Rel R x x') :
    List.Forall₂ R x.toList x'.toList := by
  cases hx with
  | none => exact .nil
  | some h => exact .cons h .nil

/-- The first element is found in both lists or in neither. -/
theorem rel_findSome? {f : α → Option γ} {f' : β → Option δ}
    (hf : ∀ a b, R a b → Option.Rel T (f a) (f' b)) {l : List α} {l' : List β}
    (h : List.Forall₂ R l l') : Option.Rel T (l.findSome? f) (l'.findSome? f') := by
  induction h with
  | nil => exact .none
  | @cons a b _ _ hab _ ih =>
    have hhead := hf a b hab
    rw [List.findSome?_cons, List.findSome?_cons]
    -- only what the two conditions have found matters from here on
    generalize f a = x at hhead ⊢
    generalize f' b = x' at hhead ⊢
    cases hhead with
    | none => exact ih
    | some h => exact .some h

/-- All elements are found in both lists, or not all of them in either. -/
theorem rel_mapM {f : ι → Option α} {f' : ι → Option β} (hf : ∀ i, Option.Rel R (f i) (f' i))
    (l : List ι) : Option.Rel (List.Forall₂ R) (l.mapM f) (l.mapM f') := by
  induction l with
  | nil => exact .some .nil
  | cons i rest ih =>
    rw [List.mapM_cons, List.mapM_cons]
    exact rel_bind (hf i) fun _ _ ha => rel_bind ih fun _ _ hrest => .some (.cons ha hrest)

end Lookups

/-! ## Matchings -/

/-- Which scopes and variables of one composition stand for which of another one. -/
structure Matching where
  scopes : Nat → Nat → Prop
  vars : Var → Var → Prop
  scopes_unique : BiUnique scopes
  vars_unique : BiUnique vars
  scopes_of_vars : ∀ v v', vars v v' → scopes v.scope v'.scope
  ty_eq : ∀ v v', vars v v' → v'.ty = v.ty

/-- The variables that a cause names. -/
def CompositionError.vars : CompositionError → List Var
  | foreignVar v | hiddenResult v | hiddenArgument v _ | notUnified v => [v]
  | tooFewArguments _ args => args
  | _ => []

/-- A step, if it is refused, is refused for a cause that names no variables. -/
def NamesNone (result : Except CompositionError α) : Prop :=
  ∀ cause, result = .error cause → cause.vars = []

namespace NamesNone

theorem ok {a : α} : NamesNone (.ok a : Except CompositionError α) := nofun

/-- A refusal names no variables if its cause names none. -/
theorem error {cause : CompositionError} (h : cause.vars = []) :
    NamesNone (.error cause : Except CompositionError α) := fun _ he => Except.error.inj he ▸ h

/-- A sequence names no variables if none of its steps does. -/
theorem bind {x : Except CompositionError α} {f : α → Except CompositionError β}
    (hx : NamesNone x) (hf : ∀ a, NamesNone (f a)) : NamesNone (x >>= f) := by
  cases x with
  | ok a => exact hf a
  | error cause => exact .error (hx cause rfl)

/-- A condition is reported by its own cause. -/
theorem require {p : Prop} [Decidable p] {cause : CompositionError} (h : cause.vars = []) :
    NamesNone (require p cause) := by
  unfold Splice.require
  split
  · exact .ok
  · exact .error h

end NamesNone

namespace Matching

variable (M : Matching)

/-- The same handle, over matched variables. -/
structure SameClosure (c c' : Closure) : Prop where
  handle_eq : c'.handle = c.handle
  args : List.Forall₂ M.vars c.args c'.args

/-- The same operand but for the variables. -/
def SameExpr : Expr → Expr → Prop
  | .var v, .var v' => M.vars v v'
  | .closure c, .closure c' => M.SameClosure c c'
  | _, _ => False

/-- The same cause but for the variables that it names. -/
def SameCause : CompositionError → CompositionError → Prop
  | .foreignVar v, .foreignVar v' => M.vars v v'
  | .hiddenResult v, .hiddenResult v' => M.vars v v'
  | .notUnified v, .notUnified v' => M.vars v v'
  | .hiddenArgument v i, .hiddenArgument v' i' => M.vars v v' ∧ i' = i
  | .tooFewArguments n vs, .tooFewArguments n' vs' => List.Forall₂ M.vars vs vs' ∧ n' = n
  | e, e' => e' = e

/-- Two steps are both accepted, with results that are related, or both refused, for one cause. -/
inductive SameResult (P : α → β → Prop) :
    Except CompositionError α → Except CompositionError β → Prop
  | ok {a : α} {b : β} (h : P a b) : SameResult P (.ok a) (.ok b)
  | error {e e' : CompositionError} (h : M.SameCause e e') : SameResult P (.error e) (.error e')

/-- A matching is part of another one that matches more. -/
instance : LE Matching where
  le M M' := (∀ a b, M.scopes a b → M'.scopes a b) ∧ ∀ v v', M.vars v v' → M'.vars v v'

variable {M} {M' : Matching}

theorem le_refl (M : Matching) : M ≤ M := ⟨fun _ _ h => h, fun _ _ h => h⟩

/-- A part of a part is a part. -/
theorem le_trans {M'' : Matching} (h : M ≤ M') (h' : M' ≤ M'') : M ≤ M'' :=
  ⟨fun a b hab => h'.1 a b (h.1 a b hab), fun v v' hv => h'.2 v v' (h.2 v v' hv)⟩

/-- Closures that are the same under a matching are the same under a larger one. -/
theorem SameClosure.mono {c c' : Closure} (h : M.SameClosure c c') (hM : M ≤ M') :
    M'.SameClosure c c' := ⟨h.handle_eq, h.args.imp hM.2⟩

/-- Operands that are the same under a matching are the same under a larger one. -/
theorem SameExpr.mono {e e' : Expr} (h : M.SameExpr e e') (hM : M ≤ M') : M'.SameExpr e e' := by
  cases e <;> cases e'
  · exact hM.2 _ _ h
  · exact h.elim
  · exact h.elim
  · exact SameClosure.mono h hM

/-- Causes that are the same under a matching are the same under a larger one. -/
theorem SameCause.mono {e e' : CompositionError} (h : M.SameCause e e') (hM : M ≤ M') :
    M'.SameCause e e' := by
  -- the four causes that name variables come first; every other one is the same cause
  unfold SameCause at h ⊢
  split at h
  · exact hM.2 _ _ h
  · exact hM.2 _ _ h
  · exact hM.2 _ _ h
  · exact ⟨hM.2 _ _ h.1, h.2⟩
  · exact ⟨h.1.imp hM.2, h.2⟩
  · exact h

/-- A cause that names no variables is the same under every matching. -/
theorem sameCause_of_vars_eq_nil {e : CompositionError} (he : e.vars = []) : M.SameCause e e := by
  cases e with
  -- none of these four goes without a variable
  | foreignVar | hiddenResult | hiddenArgument | notUnified => cases he
  | tooFewArguments n vs =>
    obtain rfl : vs = [] := he
    exact ⟨.nil, rfl⟩
  | _ => rfl

namespace SameResult

variable {P : α → β → Prop} {Q : γ → δ → Prop}

/-- One step that knows nothing of variables. -/
theorem of_namesNone {x : Except CompositionError α} {P : α → α → Prop} (hx : NamesNone x)
    (hP : ∀ a, x = .ok a → P a a) : M.SameResult P x x := by
  cases x with
  | ok a => exact .ok (hP a rfl)
  | error cause => exact .error (sameCause_of_vars_eq_nil (hx cause rfl))

/-- Both sequences are refused in their first steps for one cause, or they go on with related
results. -/
theorem bind {x : Except CompositionError γ} {x' : Except CompositionError δ}
    {f : γ → Except CompositionError α} {f' : δ → Except CompositionError β}
    (hx : M.SameResult Q x x') (hf : ∀ a b, Q a b → M.SameResult P (f a) (f' b)) :
    M.SameResult P (x >>= f) (x' >>= f') := by
  cases hx with
  | ok h => exact hf _ _ h
  | error h => exact .error h

/-- Both sequences begin with one step that knows nothing of variables. -/
theorem bind_namesNone {x : Except CompositionError γ} {f : γ → Except CompositionError α}
    {f' : γ → Except CompositionError β} (hx : NamesNone x)
    (hf : ∀ a, M.SameResult P (f a) (f' a)) : M.SameResult P (x >>= f) (x >>= f') :=
  bind (of_namesNone hx fun _ _ => rfl) fun a _ h => h ▸ hf a

/-- What is made of related results is related. -/
theorem map {x : Except CompositionError γ} {x' : Except CompositionError δ} {f : γ → α}
    {f' : δ → β} (hx : M.SameResult Q x x') (hf : ∀ a b, Q a b → P (f a) (f' b)) :
    M.SameResult P (x.map f) (x'.map f') := by
  cases hx with
  | ok h => exact .ok (hf _ _ h)
  | error h => exact .error h

/-- If the one step is accepted, so is the other. -/
theorem exists_ok {a : α} {x' : Except CompositionError β} (hx : M.SameResult P (.ok a) x') :
    ∃ b, x' = .ok b ∧ P a b := by
  cases hx with
  | ok h => exact ⟨_, rfl, h⟩

/-- The results alone, without the causes. -/
theorem toOption {x : Except CompositionError α} {x' : Except CompositionError β}
    (hx : M.SameResult P x x') : Option.Rel P x.toOption x'.toOption := by
  cases hx with
  | ok h => exact .some h
  | error _ => exact .none

/-- Steps with the same result under a matching have it under a larger one, too. -/
theorem mono {M' : Matching} {P' : α → β → Prop} {x : Except CompositionError α}
    {x' : Except CompositionError β} (hx : M.SameResult P x x') (hM : M ≤ M')
    (hP : ∀ a b, P a b → P' a b) : M'.SameResult P' x x' := by
  cases hx with
  | ok h => exact .ok (hP _ _ h)
  | error h => exact .error (h.mono hM)

end SameResult

/-! ## Matched variables of lists -/

variable {vs vs' ws ws' : List Var} {v v' : Var}

/-- Matched lists contain matched variables alike. -/
theorem mem_iff (hv : M.vars v v') (h : List.Forall₂ M.vars vs vs') : v ∈ vs ↔ v' ∈ vs' :=
  List.rel_mem M.vars_unique hv h

/-- Matched variables are told apart alike. -/
theorem beq_eq {w w' : Var} (hv : M.vars v v') (hw : M.vars w w') : (v' == w') = (v == w) := by
  have heq : v = w ↔ v' = w' := Relator.rel_eq M.vars_unique hv hw
  rw [Bool.eq_iff_iff, beq_iff_eq, beq_iff_eq, heq]

/-- Matched variables are found in the same places. -/
theorem idxOf_eq (hv : M.vars v v') (h : List.Forall₂ M.vars vs vs') :
    vs'.idxOf v' = vs.idxOf v := by
  induction h with
  | nil => rfl
  | cons hw _ ih => rw [List.idxOf_cons, List.idxOf_cons, beq_eq hw hv, ih]

/-- Matched variables are missing alike, too. -/
theorem idxOf?_eq (hv : M.vars v v') (h : List.Forall₂ M.vars vs vs') :
    vs'.idxOf? v' = vs.idxOf? v := by
  induction h with
  | nil => rfl
  | cons hw _ ih => rw [List.idxOf?_cons, List.idxOf?_cons, beq_eq hw hv, ih]

/-- They are found in the same places from behind, too. -/
theorem lastIndex_eq (hv : M.vars v v') (h : List.Forall₂ M.vars vs vs') :
    Var.lastIndex vs' v' = Var.lastIndex vs v := by
  unfold Var.lastIndex
  rw [idxOf_eq hv (List.rel_reverse h), h.length_eq]

/-- What is the same for matched variables is the same for lists of them. -/
theorem map_eq {f f' : Var → α} (hf : ∀ v v', M.vars v v' → f' v' = f v)
    (h : List.Forall₂ M.vars vs vs') : vs'.map f' = vs.map f := by
  induction h with
  | nil => rfl
  | cons hv _ ih => rw [List.map_cons, List.map_cons, hf _ _ hv, ih]

/-- Matched variables have the same types. -/
theorem map_ty_eq (h : List.Forall₂ M.vars vs vs') : vs'.map Var.ty = vs.map Var.ty :=
  map_eq M.ty_eq h

/-- A condition that holds alike of matched variables selects matched ones. -/
theorem filter {p q : Var → Bool} (hpq : ∀ v v', M.vars v v' → q v' = p v)
    (h : List.Forall₂ M.vars vs vs') : List.Forall₂ M.vars (vs.filter p) (vs'.filter q) :=
  List.rel_filter (fun v v' hv => by simp only [hpq v v' hv]) h

/-- Repeated variables are left out in the same places. -/
theorem eraseDups (h : List.Forall₂ M.vars vs vs') :
    List.Forall₂ M.vars vs.eraseDups vs'.eraseDups := by
  -- what is left behind the first variable is shorter than the list
  induction hn : vs.length using Nat.strongRecOn generalizing vs vs' with
  | _ n ih =>
    cases h with
    | nil => exact .nil
    | cons hv hrest =>
      rw [List.eraseDups_cons, List.eraseDups_cons]
      refine .cons hv (ih _ ?_ (filter (fun w w' hw => ?_) hrest) rfl)
      · rw [← hn, List.length_cons]
        exact Nat.lt_succ_of_le (List.length_filter_le _ _)
      · rw [beq_eq hw hv]

/-- What is not among matched variables. -/
theorem filter_notMem (h : List.Forall₂ M.vars vs vs') (hw : List.Forall₂ M.vars ws ws') :
    List.Forall₂ M.vars (vs.filter (· ∉ ws)) (vs'.filter (· ∉ ws')) :=
  filter (fun v v' hv => by rw [decide_eq_decide, mem_iff hv hw]) h

end Matching

end Splice

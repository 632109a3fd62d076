import Splice.Proofs.Matching.Scope

/-!
# Renamed scopes

The identity of a scope is a number that tells it apart from other scopes. A `Renaming` says which
scopes of one composition stand for which scopes of another one, and grows as both open scopes. What
is composed in both is the same if it differs in the scopes of variables only. All scopes can then
be renamed at once: there is one function on numbers that takes everything in the one composition to
its counterpart (`exists_injective`, and the `eq_rename` lemmas).
-/

namespace Splice

open Relator (BiUnique)

/-! ## Renaming by a function -/

section Rename

variable (f : Nat → Nat)

/-- The same variable of the scope that its scope is renamed to. -/
def Var.rename (v : Var) : Var := { v with scope := f v.scope }

/-- Renaming leaves types alone. -/
theorem Var.map_ty_rename (vs : List Var) : (vs.map (Var.rename f)).map Var.ty = vs.map Var.ty := by
  rw [List.map_map]
  rfl

/-- The same handle, wired to the renamed variables. -/
def Closure.rename (c : Closure) : Closure :=
  ⟨c.handle, c.args.map (Var.rename f), (Var.map_ty_rename f c.args).trans c.typed⟩

/-- The same order of the renamed variables. -/
def Unifier.rename (u : Unifier) : Unifier := ⟨u.vars.map (Var.rename f)⟩

/-- The same closure, assigned to the renamed variable. -/
def Statement.rename (st : Statement) : Statement := ⟨st.var.rename f, st.closure.rename f⟩

/-- The same scope under another number. -/
def Scope.rename (s : Scope) : Scope :=
  { s with
    id := f s.id
    inputs := s.inputs.map (Var.rename f)
    statements := s.statements.map (Statement.rename f) }

/-- The same cause, with the variables that it names renamed. -/
def CompositionError.rename : CompositionError → CompositionError
  | foreignVar v => foreignVar (v.rename f)
  | hiddenResult v => hiddenResult (v.rename f)
  | hiddenArgument v statement => hiddenArgument (v.rename f) statement
  | notUnified v => notUnified (v.rename f)
  | tooFewArguments count args => tooFewArguments count (args.map (Var.rename f))
  | e => e

end Rename

/-! ## Renaming step by step -/

/-- Which scopes of one composition stand for which of another one. -/
structure Renaming where
  scopes : Nat → Nat → Prop
  unique : BiUnique scopes

namespace Renaming

/-- Variables of scopes that stand for each other match if nothing else tells them apart. -/
def matching (ρ : Renaming) : Matching where
  scopes := ρ.scopes
  vars v v' := ρ.scopes v.scope v'.scope ∧ v' = { v with scope := v'.scope }
  scopes_unique := ρ.unique
  vars_unique := by
    constructor
    · -- a variable is its scope and what matched variables have in common
      rintro ⟨a, i, p, ty⟩ ⟨b, j, q, ty'⟩ w ⟨ha, hva⟩ ⟨hb, hvb⟩
      obtain rfl : a = b := ρ.unique.1 ha hb
      cases hva.symm.trans hvb
      rfl
    · rintro v w x ⟨ha, hw⟩ ⟨hb, hx⟩
      rw [hw, hx, ρ.unique.2 ha hb]
  scopes_of_vars _ _ h := h.1
  ty_eq _ _ h := by rw [h.2]

/-- A renaming is part of another one that renames more. -/
instance : LE Renaming where
  le ρ ρ' := ∀ a b, ρ.scopes a b → ρ'.scopes a b

variable {ρ ρ' : Renaming}

theorem le_refl (ρ : Renaming) : ρ ≤ ρ := fun _ _ h => h

/-- A part of a part is a part. -/
theorem le_trans {ρ'' : Renaming} (h : ρ ≤ ρ') (h' : ρ' ≤ ρ'') : ρ ≤ ρ'' :=
  fun a b hab => h' a b (h a b hab)

/-- The more scopes stand for each other, the more variables match. -/
theorem matching_mono (h : ρ ≤ ρ') : ρ.matching ≤ ρ'.matching :=
  ⟨h, fun _ _ hv => ⟨h _ _ hv.1, hv.2⟩⟩

/-- No scope stands for another one yet. -/
def empty : Renaming := ⟨fun _ _ => False, fun _ _ _ h _ => h.elim, fun _ _ _ h _ => h.elim⟩

/-- One more scope for another one, both of which are new. -/
def insert (ρ : Renaming) (a b : Nat) (ha : ∀ b', ¬ ρ.scopes a b') (hb : ∀ a', ¬ ρ.scopes a' b) :
    Renaming where
  scopes x y := ρ.scopes x y ∨ x = a ∧ y = b
  unique := by
    constructor
    · -- the pair that is inserted shares no scope with the pairs that are there
      rintro x y z (hx | ⟨rfl, rfl⟩) (hy | ⟨rfl, hy⟩)
      · exact ρ.unique.1 hx hy
      · exact absurd (hy ▸ hx) (hb _)
      · exact absurd hy (hb _)
      · rfl
    · rintro x y z (hy | ⟨rfl, rfl⟩) (hz | ⟨hz, rfl⟩)
      · exact ρ.unique.2 hy hz
      · exact absurd (hz ▸ hy) (ha _)
      · exact absurd hz (ha _)
      · rfl

/-! ## The same but for renamed scopes -/

/-- The same variable. -/
abbrev SameVar (ρ : Renaming) := ρ.matching.vars

/-- The same closure. -/
abbrev SameClosure (ρ : Renaming) := ρ.matching.SameClosure

/-- The same operand. -/
abbrev SameExpr (ρ : Renaming) := ρ.matching.SameExpr

/-- The same scope under construction, which gives the same variables next. -/
structure SameScope (ρ : Renaming) (s s' : Scope) : Prop extends ρ.matching.SameScope s s' where
  nextOrdinal_eq : s'.nextOrdinal = s.nextOrdinal

variable {v v' : Var} {c c' : Closure} {e e' : Expr} {s s' : Scope}

/-- Variables that are the same under a renaming are the same under a larger one. -/
theorem SameVar.mono (hv : ρ.SameVar v v') (hρ : ρ ≤ ρ') : ρ'.SameVar v v' :=
  (matching_mono hρ).2 _ _ hv

/-- Closures that are the same under a renaming are the same under a larger one. -/
theorem SameClosure.mono (hc : ρ.SameClosure c c') (hρ : ρ ≤ ρ') : ρ'.SameClosure c c' :=
  Matching.SameClosure.mono hc (matching_mono hρ)

/-- Operands that are the same under a renaming are the same under a larger one. -/
theorem SameExpr.mono (he : ρ.SameExpr e e') (hρ : ρ ≤ ρ') : ρ'.SameExpr e e' :=
  Matching.SameExpr.mono he (matching_mono hρ)

/-- Scopes that are the same under a renaming are the same under a larger one. -/
theorem SameScope.mono (hs : ρ.SameScope s s') (hρ : ρ ≤ ρ') : ρ'.SameScope s s' :=
  ⟨hs.toSameScope.mono (matching_mono hρ), hs.nextOrdinal_eq⟩

/-- Scopes that are the same give the same variable next. -/
theorem SameScope.next (hs : ρ.SameScope s s') (isParam : Bool) (ty : Ty) :
    ρ.SameVar (s.nextVar isParam ty) (s'.nextVar isParam ty) := by
  refine ⟨hs.scope, ?_⟩
  unfold Scope.nextVar
  rw [hs.nextOrdinal_eq]

/-! ## One function for a renaming -/

/-- A renaming that leaves numbers free behind its scopes is part of an injective function. -/
theorem exists_injective {m : Nat} (hbelow : ∀ a b, ρ.scopes a b → b < m) :
    ∃ f : Nat → Nat, Function.Injective f ∧ ∀ a b, ρ.scopes a b → f a = b := by
  classical
  -- what stands for no scope goes behind all scopes
  let f (a : Nat) : Nat := if h : ∃ b, ρ.scopes a b then h.choose else m + a
  have hnamed : ∀ a b, ρ.scopes a b → f a = b := by
    intro a b hab
    have h : ∃ b, ρ.scopes a b := ⟨b, hab⟩
    exact (dif_pos h).trans (ρ.unique.2 h.choose_spec hab)
  have hother : ∀ a, (¬ ∃ b, ρ.scopes a b) → f a = m + a := fun a h => dif_neg h
  refine ⟨f, fun a a' heq => ?_, hnamed⟩
  -- two scopes with one image are both named, or both unnamed: images of the others are at `m` at
  -- least
  by_cases h : ∃ b, ρ.scopes a b <;> by_cases h' : ∃ b, ρ.scopes a' b
  · obtain ⟨b, hb⟩ := h
    obtain ⟨b', hb'⟩ := h'
    rw [hnamed a b hb, hnamed a' b' hb'] at heq
    exact ρ.unique.1 hb (heq ▸ hb')
  · obtain ⟨b, hb⟩ := h
    rw [hnamed a b hb, hother a' h'] at heq
    have hlt := hbelow a b hb
    omega
  · obtain ⟨b', hb'⟩ := h'
    rw [hother a h, hnamed a' b' hb'] at heq
    have hlt := hbelow a' b' hb'
    omega
  · rw [hother a h, hother a' h'] at heq
    exact Nat.add_left_cancel heq

section EqRename

variable {f : Nat → Nat} (hf : ∀ a b, ρ.scopes a b → f a = b)

include hf

/-- A variable is the same if it is the renamed one. -/
theorem eq_rename_of_sameVar (hv : ρ.SameVar v v') : v' = v.rename f := by
  rw [hv.2, Var.rename, hf _ _ hv.1]

/-- Variables are the same in their order. -/
theorem eq_rename_of_sameVars {vs vs' : List Var} (h : List.Forall₂ ρ.SameVar vs vs') :
    vs' = vs.map (Var.rename f) := by
  induction h with
  | nil => rfl
  | cons hv _ ih => rw [List.map_cons, eq_rename_of_sameVar hf hv, ih]

/-- A closure is the same if it is the renamed one, since handles have no variables. -/
theorem eq_rename_of_sameClosure (hc : ρ.SameClosure c c') : c' = c.rename f := by
  obtain ⟨handle, args, typed⟩ := c'
  obtain ⟨hhandle, hargs⟩ := hc
  dsimp only at hhandle hargs
  obtain rfl := hhandle
  obtain rfl := eq_rename_of_sameVars hf hargs
  rfl

/-- A unifier is the same if it has the renamed variables. -/
theorem eq_rename_of_sameUnifier {u u' : Unifier} (hu : ρ.matching.SameUnifier u u') :
    u' = u.rename f :=
  congrArg Unifier.mk (eq_rename_of_sameVars hf hu)

/-- Statements are the same in their order. -/
theorem eq_rename_of_sameStatements {ss ss' : List Statement}
    (h : List.Forall₂ ρ.matching.SameStatement ss ss') : ss' = ss.map (Statement.rename f) := by
  induction h with
  | nil => rfl
  | @cons st st' _ _ hst _ ih =>
    rw [List.map_cons, ih, Statement.rename, ← eq_rename_of_sameVar hf hst.var,
      ← eq_rename_of_sameClosure hf hst.closure]

/-- A scope is the same if it is the renamed one. -/
theorem eq_rename_of_sameScope (hs : ρ.SameScope s s') : s' = s.rename f := by
  obtain ⟨id, capturing, inputs, statements, nextOrdinal⟩ := s'
  obtain ⟨⟨hid, hcapturing, hinputs, hstatements⟩, hnext⟩ := hs
  dsimp only at hid hcapturing hinputs hstatements hnext
  rw [Scope.rename, ← eq_rename_of_sameVars hf hinputs,
    ← eq_rename_of_sameStatements hf hstatements, hf _ _ hid, hcapturing, hnext]

/-- A cause is the same if it names the renamed variables. -/
theorem eq_rename_of_sameCause {cause cause' : CompositionError}
    (h : ρ.matching.SameCause cause cause') : cause' = cause.rename f := by
  unfold Matching.SameCause at h
  split at h
  · rw [eq_rename_of_sameVar hf h]
    rfl
  · rw [eq_rename_of_sameVar hf h]
    rfl
  · rw [eq_rename_of_sameVar hf h]
    rfl
  · rw [eq_rename_of_sameVar hf h.1, h.2]
    rfl
  · rw [eq_rename_of_sameVars hf h.1, h.2]
    rfl
  · next hforeign hresult hunified hargument hfew =>
    -- causes that name no variables
    subst h
    unfold CompositionError.rename
    split
    · exact (hforeign _ _ rfl rfl).elim
    · exact (hresult _ _ rfl rfl).elim
    · exact (hargument _ _ _ _ rfl rfl).elim
    · exact (hunified _ _ rfl rfl).elim
    · exact (hfew _ _ _ _ rfl rfl).elim
    · rfl

end EqRename

end Renaming

end Splice

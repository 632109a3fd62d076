import Splice.Proofs.Renaming.Basic
import Splice.Proofs.Scope.HandlerFree
import Splice.Proofs.Scope.RefusedCalls
import Splice.Schema.Define

/-!
# Steps under renaming

Two composition steps come to the same under a renaming if they do so from all states that are the
same, once the scopes that they open are renamed too. `SameRun` says this of steps of any monad of
states and refusals, and is kept by sequencing. All that a scope is made and built with comes to the
same; `SameSteps` says so of steps that are taken inside a scope.
-/

namespace Splice

open Renaming (SameVar SameClosure SameExpr SameScope)

/-! ## Sequences -/

section SameRun

variable {σ : Type} (R : Renaming → σ → σ → Prop) (ρ : Renaming)

/-- Two steps, taken in states that are the same, come to the same and leave states that are the
same; they may have opened scopes that stand for each other. -/
def SameRun (P : Renaming → α → β → Prop) (x : ExceptT CompositionError (StateM σ) α)
    (x' : ExceptT CompositionError (StateM σ) β) : Prop :=
  ∀ s s', R ρ s s' → ∃ ρ', ρ ≤ ρ' ∧
    ρ'.matching.SameResult (P ρ') (x.run.run s).1 (x'.run.run s').1 ∧
    R ρ' (x.run.run s).2 (x'.run.run s').2

namespace SameRun

variable {R ρ} {P : Renaming → α → β → Prop} {Q : Renaming → γ → δ → Prop}

/-- Steps that do nothing but accept or refuse. -/
theorem lift {x : Except CompositionError α} {x' : Except CompositionError β}
    (hx : ρ.matching.SameResult (P ρ) x x') : SameRun R ρ P (liftM x) (liftM x') :=
  fun _ _ hs => ⟨ρ, ρ.le_refl, hx, hs⟩

/-- A result alone opens no scope. -/
theorem pure {a : α} {b : β} (h : P ρ a b) : SameRun R ρ P (pure a) (pure b) := lift (.ok h)

/-- Two steps are refused for causes that are the same. -/
theorem throw {e e' : CompositionError} (h : ρ.matching.SameCause e e') :
    SameRun R ρ P (throw e) (throw e') := lift (.error h)

/-- A sequence comes to the same if its first step does and the rest does with what that gives. -/
theorem bind {x : ExceptT CompositionError (StateM σ) γ}
    {x' : ExceptT CompositionError (StateM σ) δ}
    {f : γ → ExceptT CompositionError (StateM σ) α} {f' : δ → ExceptT CompositionError (StateM σ) β}
    (hx : SameRun R ρ Q x x')
    (hf : ∀ ρ', ρ ≤ ρ' → ∀ a b, Q ρ' a b → SameRun R ρ' P (f a) (f' b)) :
    SameRun R ρ P (x >>= f) (x' >>= f') := by
  intro s s' hs
  obtain ⟨ρ₁, hρ₁, hresult, hs₁⟩ := hx s s' hs
  rw [ExceptT.run_bind, StateT.run_bind, ExceptT.run_bind, StateT.run_bind]
  -- what the first steps have come to decides whether the rest is run at all
  generalize x.run.run s = r at hresult hs₁ ⊢
  generalize x'.run.run s' = r' at hresult hs₁ ⊢
  obtain ⟨result, t⟩ := r
  obtain ⟨result', t'⟩ := r'
  cases hresult with
  | error h => exact ⟨ρ₁, hρ₁, .error h, hs₁⟩
  | @ok a b h =>
    obtain ⟨ρ₂, hρ₂, hnext⟩ := hf ρ₁ hρ₁ a b h t t' hs₁
    exact ⟨ρ₂, Renaming.le_trans hρ₁ hρ₂, hnext⟩

/-- A sequence that begins with accepting or refusing opens no scope there. -/
theorem bind_lift {S : γ → δ → Prop} {x : Except CompositionError γ}
    {x' : Except CompositionError δ}
    {f : γ → ExceptT CompositionError (StateM σ) α} {f' : δ → ExceptT CompositionError (StateM σ) β}
    (hx : ρ.matching.SameResult S x x') (hf : ∀ a b, S a b → SameRun R ρ P (f a) (f' b)) :
    SameRun R ρ P (liftM x >>= f) (liftM x' >>= f') := by
  cases hx with
  | ok h => exact hf _ _ h
  | error h => exact throw h

/-- Both sequences begin with one step that knows nothing of variables. -/
theorem bind_namesNone {x : Except CompositionError γ}
    {f : γ → ExceptT CompositionError (StateM σ) α} {f' : γ → ExceptT CompositionError (StateM σ) β}
    (hx : NamesNone x) (hf : ∀ a, SameRun R ρ P (f a) (f' a)) :
    SameRun R ρ P (liftM x >>= f) (liftM x >>= f') :=
  bind_lift (.of_namesNone hx fun _ _ => rfl) fun a _ h => h ▸ hf a

/-- What comes of two steps may be made something else without another step. -/
theorem map {x : ExceptT CompositionError (StateM σ) γ} {x' : ExceptT CompositionError (StateM σ) δ}
    {f : γ → α} {f' : δ → β} (hx : SameRun R ρ Q x x')
    (hf : ∀ ρ' a b, Q ρ' a b → P ρ' (f a) (f' b)) : SameRun R ρ P (f <$> x) (f' <$> x') := by
  rw [map_eq_pure_bind, map_eq_pure_bind]
  exact hx.bind fun ρ' _ a b h => pure (hf ρ' a b h)

/-- What comes next may depend on the states. -/
theorem get_bind {f : σ → ExceptT CompositionError (StateM σ) α}
    {f' : σ → ExceptT CompositionError (StateM σ) β}
    (hf : ∀ s s', R ρ s s' → SameRun R ρ P (f s) (f' s')) :
    SameRun R ρ P (get >>= f) (get >>= f') :=
  fun s s' hs => hf s s' hs s s' hs

/-- The states may be changed, as long as they are the same afterwards. -/
theorem modify_bind {g g' : σ → σ} {f : PUnit → ExceptT CompositionError (StateM σ) α}
    {f' : PUnit → ExceptT CompositionError (StateM σ) β}
    (hg : ∀ s s', R ρ s s' → R ρ (g s) (g' s')) (hf : SameRun R ρ P (f ⟨⟩) (f' ⟨⟩)) :
    SameRun R ρ P (modify g >>= f) (modify g' >>= f') :=
  fun s s' hs => hf (g s) (g' s') (hg s s' hs)

/-- A step may be refused and the sequence go on. -/
theorem attempt_bind {x : ExceptT CompositionError (StateM σ) γ}
    {x' : ExceptT CompositionError (StateM σ) δ}
    {f : Except CompositionError γ → ExceptT CompositionError (StateM σ) α}
    {f' : Except CompositionError δ → ExceptT CompositionError (StateM σ) β}
    (hx : SameRun R ρ Q x x') (hf : ∀ ρ', ρ ≤ ρ' → ∀ r r', ρ'.matching.SameResult (Q ρ') r r' →
      SameRun R ρ' P (f r) (f' r')) :
    SameRun R ρ P (liftM x.run >>= f) (liftM x'.run >>= f') := by
  intro s s' hs
  obtain ⟨ρ₁, hρ₁, hresult, hs₁⟩ := hx s s' hs
  obtain ⟨ρ₂, hρ₂, hnext⟩ := hf ρ₁ hρ₁ _ _ hresult _ _ hs₁
  exact ⟨ρ₂, Renaming.le_trans hρ₁ hρ₂, hnext⟩

end SameRun

end SameRun

/-! ## Supplies -/

/-- Supplies from which new scopes stand for each other. Schemas are told apart alike; logs are not
compared. -/
structure SameSupply (ρ : Renaming) (s s' : Supply) : Prop where
  below : ∀ a b, ρ.scopes a b → a < s.nextScope ∧ b < s'.nextScope
  nextSchema_eq : s'.nextSchema = s.nextSchema

namespace SameSupply

variable {ρ : Renaming} {s s' t t' : Supply}

/-- It makes no difference what else is opened. -/
theorem later (h : SameSupply ρ s s') (ht : s.nextScope ≤ t.nextScope)
    (ht' : s'.nextScope ≤ t'.nextScope) (hschema : t'.nextSchema = t.nextSchema) :
    SameSupply ρ t t' :=
  ⟨fun a b hab => ⟨(h.below a b hab).1.trans_le ht, (h.below a b hab).2.trans_le ht'⟩, hschema⟩

/-- New scopes stand for each other. -/
theorem exists_open (h : SameSupply ρ s s') :
    ∃ ρ', ρ ≤ ρ' ∧ ρ'.scopes s.nextScope s'.nextScope ∧ SameSupply ρ' s.openScope s'.openScope := by
  -- neither scope has stood for another one, since both are at the ends of their supplies
  refine ⟨ρ.insert s.nextScope s'.nextScope (fun b hb => Nat.lt_irrefl _ (h.below _ b hb).1)
    (fun a ha => Nat.lt_irrefl _ (h.below a _ ha).2), fun _ _ hab => .inl hab, .inr ⟨rfl, rfl⟩, ?_,
    h.nextSchema_eq⟩
  rintro a b (hab | ⟨rfl, rfl⟩)
  · exact ⟨Nat.lt_succ_of_lt (h.below a b hab).1, Nat.lt_succ_of_lt (h.below a b hab).2⟩
  · exact ⟨Nat.lt_succ_self _, Nat.lt_succ_self _⟩

end SameSupply

/-- A field is refused for its name or its type. -/
theorem Schema.namesNone_extend (s : Schema) (field : Field) : NamesNone (s.extend field) := by
  unfold extend
  split
  · exact .error rfl
  · split
    · exact .error rfl
    · exact .ok

namespace Compose

variable {ρ : Renaming} {P : Renaming → α → β → Prop}

/-- The scopes that both supplies open next stand for each other. -/
theorem sameRun_freshScope : SameRun SameSupply ρ Renaming.scopes freshScope freshScope := by
  intro s s' hs
  obtain ⟨ρ', hρ, hscope, hs'⟩ := hs.exists_open
  exact ⟨ρ', hρ, .ok hscope, hs'⟩

/-- Schemas get the same numbers, so they are not renamed. -/
theorem sameRun_freshSchema : SameRun SameSupply ρ (fun _ => Eq) freshSchema freshSchema := by
  intro s s' hs
  refine ⟨ρ, ρ.le_refl, .ok hs.nextSchema_eq.symm, hs.below, ?_⟩
  exact congrArg (· + 1) hs.nextSchema_eq

/-- What is noted in the logs makes no difference. -/
theorem sameRun_note_bind {line line' : String} {f : Unit → Compose α} {f' : Unit → Compose β}
    (hf : SameRun SameSupply ρ P (f ()) (f' ())) :
    SameRun SameSupply ρ P (note line >>= f) (note line' >>= f') :=
  fun s s' hs => hf { s with log := s.log.push line } { s' with log := s'.log.push line' }
    ⟨hs.below, hs.nextSchema_eq⟩

end Compose

/-- The fields of a schema have no variables, and schemas get the same identities. -/
theorem Schema.sameRun_define {ρ : Renaming} (name : String) (fields : List Field) :
    SameRun SameSupply ρ (fun _ => Eq) (define name fields) (define name fields) := by
  have hfold : ∀ s : Schema, NamesNone (fields.foldlM extend s) := by
    intro s
    induction fields generalizing s with
    | nil => exact .ok
    | cons field rest ih =>
      rw [List.foldlM_cons]
      exact .bind (namesNone_extend s field) ih
  refine .bind Compose.sameRun_freshSchema fun _ _ id id' hid => ?_
  subst hid
  exact .lift (.of_namesNone (hfold _) fun _ _ => rfl)

/-- A new variable is the only parameter of a new scope. -/
theorem Var.sameRun_fresh {ρ : Renaming} (ty : Ty) :
    SameRun SameSupply ρ SameVar (Var.fresh ty) (Var.fresh ty) := by
  refine .bind Compose.sameRun_freshScope fun ρ' _ a b hab => .lift ?_
  unfold Var.param
  split
  · exact .error rfl
  · exact .ok ⟨hab, rfl⟩

/-! ## Scopes -/

namespace Scope

variable {ρ : Renaming} {s s' : Scope} {v v' : Var} {e e' : Expr}

/-- Building does nothing to the supply but to write to its log. -/
theorem exists_run_build (s : Scope) (ret : Var) (supply : Supply) :
    ∃ log, (s.build ret).run.run supply =
      (chain s.live ret 0 s.inputs.length s.statements, { supply with log }) := by
  obtain ⟨nextScope, nextSchema, tracing, log⟩ := supply
  unfold build
  generalize chain s.live ret 0 s.inputs.length s.statements = built
  cases tracing <;> cases built <;> exact ⟨_, rfl⟩

/-- Scopes that are the same are built to one handle. -/
theorem sameRun_build (hs : ρ.matching.SameScope s s') (hv : ρ.SameVar v v') :
    SameRun SameSupply ρ (fun _ => Eq) (s.build v) (s'.build v') := by
  intro supply supply' hsupply
  obtain ⟨log, hlog⟩ := exists_run_build s v supply
  obtain ⟨log', hlog'⟩ := exists_run_build s' v' supply'
  rw [hlog, hlog']
  exact ⟨ρ, ρ.le_refl, Matching.chain_live hs hv, hsupply.below, hsupply.nextSchema_eq⟩

/-- Functions that are the same come to one handle. -/
theorem sameRun_buildFunction (hs : ρ.SameScope s s') (he : ρ.SameExpr e e') :
    SameRun SameSupply ρ (fun _ => Eq) (s.buildFunction e) (s'.buildFunction e') :=
  .bind_lift (Matching.returned hs.toSameScope he (hs.next _ _))
    fun _ _ hr => sameRun_build hr.2 hr.1

/-- Blocks that are the same come to closures over matched variables. -/
theorem sameRun_buildBlock (hs : ρ.SameScope s s') (he : ρ.SameExpr e e') :
    SameRun SameSupply ρ SameClosure (s.buildBlock e) (s'.buildBlock e') := by
  refine .bind_lift (Matching.returned hs.toSameScope he (hs.next _ _)) fun r r' hr => ?_
  refine .bind (sameRun_build hr.2 hr.1) fun ρ' hρ h h' hh => ?_
  subst hh
  exact .lift (Matching.wire h (hr.2.inputs.imp fun _ _ hv => SameVar.mono hv hρ))

/-- Functions without a result come to one handle. -/
theorem sameRun_buildFunctionVoid (hs : ρ.SameScope s s') :
    SameRun SameSupply ρ (fun _ => Eq) s.buildFunctionVoid s'.buildFunctionVoid :=
  .bind_lift Matching.constantVoid fun _ _ hc => sameRun_buildFunction hs hc

/-- Blocks without a result come to closures over matched variables. -/
theorem sameRun_buildBlockVoid (hs : ρ.SameScope s s') :
    SameRun SameSupply ρ SameClosure s.buildBlockVoid s'.buildBlockVoid :=
  .bind_lift Matching.constantVoid fun _ _ hc => sameRun_buildBlock hs hc

/-- New scopes are the same. -/
theorem sameRun_newFunction :
    SameRun SameSupply ρ SameScope newFunction newFunction :=
  .bind Compose.sameRun_freshScope fun _ _ _ _ hab => .pure ⟨⟨hab, rfl, .nil, .nil⟩, rfl⟩

/-- New blocks are the same. -/
theorem sameRun_newBlock : SameRun SameSupply ρ SameScope newBlock newBlock :=
  .bind Compose.sameRun_freshScope fun _ _ _ _ hab => .pure ⟨⟨hab, rfl, .nil, .nil⟩, rfl⟩

/-- A parameter takes the next place, unless there are statements; then it is refused. -/
theorem nextOrdinal_addParam (s : Scope) (ty : Ty) :
    (s.addParam ty).2.nextOrdinal = s.nextOrdinal + if s.statements.isEmpty then 1 else 0 := by
  unfold addParam Var.param
  split
  · by_cases hty : ty = .void
    · rw [if_pos hty]
    · rw [if_neg hty]
  · rfl

/-- Both scopes declare a parameter, or refuse it for one cause, and are the same afterwards. -/
theorem same_addParam (hs : ρ.SameScope s s') (ty : Ty) :
    ρ.matching.SameResult ρ.SameVar (s.addParam ty).1 (s'.addParam ty).1 ∧
      ρ.SameScope (s.addParam ty).2 (s'.addParam ty).2 := by
  obtain ⟨hresult, hscope⟩ := Matching.addParam hs.toSameScope fun _ => hs.next true ty
  refine ⟨hresult, hscope, ?_⟩
  -- parameters are counted only before statements, and both scopes have as many of these
  have hempty : s'.statements.isEmpty = s.statements.isEmpty := by
    rw [Bool.eq_iff_iff, List.isEmpty_iff_length_eq_zero, List.isEmpty_iff_length_eq_zero,
      hs.statements.length_eq]
  rw [nextOrdinal_addParam, nextOrdinal_addParam, hempty, hs.nextOrdinal_eq]

/-- A function with one more parameter, and all its parameters. -/
def declare (r : Scope × List Var) (ty : Ty) : Compose (Scope × List Var) := do
  let (result, next) := r.1.addParam ty
  return (next, r.2 ++ [← result])

/-- Parameters of the same types are declared alike, one after the other. -/
theorem sameRun_declareAll {r r' : Scope × List Var} (hs : ρ.SameScope r.1 r'.1) (types : List Ty) :
    SameRun SameSupply ρ (fun ρ r r' => ρ.SameScope r.1 r'.1) (types.foldlM declare r)
      (types.foldlM declare r') := by
  induction types generalizing ρ r r' with
  | nil => exact .pure hs
  | cons ty rest ih =>
    obtain ⟨hresult, hnext⟩ := same_addParam hs ty
    rw [List.foldlM_cons, List.foldlM_cons]
    exact .bind (Q := fun ρ r r' => ρ.SameScope r.1 r'.1)
      (.bind_lift hresult fun _ _ _ => .pure hnext) fun _ _ _ _ hs => ih hs

/-- New functions with parameters of the same types are the same. -/
theorem sameRun_withParams (types : List Ty) :
    SameRun SameSupply ρ (fun ρ r r' => ρ.SameScope r.1 r'.1) (withParams types)
      (withParams types) :=
  .bind sameRun_newFunction fun _ _ _ _ hs => sameRun_declareAll hs types

/-- A statement takes the next place. -/
theorem nextOrdinal_of_assign {r : Var × Scope} (hr : s.assign e = .ok r) :
    r.2.nextOrdinal = s.nextOrdinal + 1 := by
  obtain ⟨c, -, hassign⟩ := bind_eq_ok_iff.1 hr
  rw [(assignClosure_eq_ok hassign).2]
  rfl

/-- Both scopes take a statement, or refuse it for one cause, and are the same afterwards. -/
theorem same_assign (hs : ρ.SameScope s s') (he : ρ.SameExpr e e') :
    ρ.matching.SameResult (fun r r' => ρ.SameVar r.1 r'.1 ∧ ρ.SameScope r.2 r'.2)
      (s.assign e) (s'.assign e') := by
  have hresult := Matching.assign hs.toSameScope he fun _ => hs.next false e.ty
  -- a scope that takes the statement does not go with one that refuses it
  cases hr : s.assign e <;> cases hr' : s'.assign e' <;> rw [hr, hr'] at hresult <;> cases hresult
  · next h => exact .error h
  · next h =>
    refine .ok ⟨h.1, h.2, ?_⟩
    rw [nextOrdinal_of_assign hr, nextOrdinal_of_assign hr', hs.nextOrdinal_eq]

/-- A refused statement leaves both scopes as they were. -/
theorem same_tryAssign (hs : ρ.SameScope s s') (he : ρ.SameExpr e e') :
    ρ.matching.SameResult ρ.SameVar (s.tryAssign e).1 (s'.tryAssign e').1 ∧
      ρ.SameScope (s.tryAssign e).2 (s'.tryAssign e').2 := by
  have hresult := same_assign hs he
  unfold tryAssign
  generalize s.assign e = x at hresult ⊢
  generalize s'.assign e' = x' at hresult ⊢
  cases hresult with
  | ok h => exact ⟨.ok h.1, h.2⟩
  | error h => exact ⟨.error h, hs⟩

end Scope

/-! ## Steps inside a scope -/

/-- Steps that come to the same in scopes that are the same, and leave such scopes. -/
def SameSteps (ρ : Renaming) (P : Renaming → α → β → Prop) (x : Scoped α) (x' : Scoped β) : Prop :=
  ∀ s s', ρ.SameScope s s' →
    SameRun SameSupply ρ (fun ρ' r r' => P ρ' r.1 r'.1 ∧ ρ'.SameScope r.2 r'.2) (x s) (x' s')

namespace SameSteps

variable {ρ : Renaming} {P : Renaming → α → β → Prop} {Q : Renaming → γ → δ → Prop}

/-- Accepting or refusing leaves the scope as it is. -/
theorem lift {x : Except CompositionError α} {x' : Except CompositionError β}
    (hx : ρ.matching.SameResult (P ρ) x x') : SameSteps ρ P (liftM x) (liftM x') := by
  intro s s' hs
  exact .bind_lift hx fun _ _ h => .pure ⟨h, hs⟩

theorem pure {a : α} {b : β} (h : P ρ a b) : SameSteps ρ P (pure a) (pure b) := lift (.ok h)

/-- Steps that are not taken in the scope leave it as it is. -/
theorem compose {x : Compose α} {x' : Compose β} (hx : SameRun SameSupply ρ P x x') :
    SameSteps ρ P (liftM x) (liftM x') :=
  fun _ _ hs => hx.bind fun _ hρ _ _ h => .pure ⟨h, hs.mono hρ⟩

/-- Steps in sequence come to the same if each of them does. -/
theorem bind {x : Scoped γ} {x' : Scoped δ} {f : γ → Scoped α} {f' : δ → Scoped β}
    (hx : SameSteps ρ Q x x') (hf : ∀ ρ', ρ ≤ ρ' → ∀ a b, Q ρ' a b → SameSteps ρ' P (f a) (f' b)) :
    SameSteps ρ P (x >>= f) (x' >>= f') :=
  fun s s' hs => (hx s s' hs).bind fun ρ' hρ r r' hr => hf ρ' hρ r.1 r'.1 hr.1 r.2 r'.2 hr.2

/-- Accepting or refusing comes first. -/
theorem bind_lift {S : γ → δ → Prop} {x : Except CompositionError γ}
    {x' : Except CompositionError δ} {f : γ → Scoped α} {f' : δ → Scoped β}
    (hx : ρ.matching.SameResult S x x') (hf : ∀ a b, S a b → SameSteps ρ P (f a) (f' b)) :
    SameSteps ρ P (liftM x >>= f) (liftM x' >>= f') := by
  intro s s' hs
  cases hx with
  | ok h => exact hf _ _ h s s' hs
  | error h => exact .throw h

/-- A parameter is declared first, and the rest goes on with a matched variable. -/
theorem addParam_bind {ty : Ty} {f : Var → Scoped α} {f' : Var → Scoped β}
    (hf : ∀ v v', ρ.SameVar v v' → SameSteps ρ P (f v) (f' v')) :
    SameSteps ρ P (Scoped.addParam ty >>= f) (Scoped.addParam ty >>= f') := by
  intro s s' hs
  obtain ⟨hresult, hscope⟩ := Scope.same_addParam hs ty
  exact bind_lift hresult hf _ _ hscope

/-- A statement is added first, and the rest goes on with a matched variable. -/
theorem assign_bind {e e' : Expr} (he : ρ.SameExpr e e') {f : Var → Scoped α} {f' : Var → Scoped β}
    (hf : ∀ v v', ρ.SameVar v v' → SameSteps ρ P (f v) (f' v')) :
    SameSteps ρ P (Scoped.assign e >>= f) (Scoped.assign e' >>= f') := by
  intro s s' hs
  change SameRun SameSupply ρ _ ((Scoped.assign e).run s >>= fun r => f r.1 r.2)
    ((Scoped.assign e').run s' >>= fun r => f' r.1 r.2)
  rw [Scoped.run_assign, Scoped.run_assign]
  exact .bind_lift (Scope.same_assign hs he) fun r r' hr => hf _ _ hr.1 _ _ hr.2

/-- Matched operands are assigned to matched variables. -/
theorem assign {e e' : Expr} (he : ρ.SameExpr e e') :
    SameSteps ρ SameVar (Scoped.assign e) (Scoped.assign e') := by
  -- a result of `assign` is matched by itself, with nothing behind it
  rw [← bind_pure (Scoped.assign e), ← bind_pure (Scoped.assign e')]
  exact assign_bind he fun _ _ hv => pure hv

/-- Steps that are taken for each element of a list. -/
theorem mapM {f : ι → Scoped α} {f' : ι → Scoped β} {l : List ι}
    (hP : ∀ ρ ρ' a b, ρ ≤ ρ' → P ρ a b → P ρ' a b)
    (hf : ∀ ρ', ρ ≤ ρ' → ∀ i, SameSteps ρ' P (f i) (f' i)) :
    SameSteps ρ (fun ρ' => List.Forall₂ (P ρ')) (l.mapM f) (l.mapM f') := by
  induction l generalizing ρ with
  | nil => exact pure .nil
  | cons i rest ih =>
    rw [List.mapM_cons, List.mapM_cons]
    refine bind (hf ρ ρ.le_refl i) fun ρ₁ hρ₁ a b hab => ?_
    refine bind (ih fun ρ' hρ => hf ρ' (Renaming.le_trans hρ₁ hρ)) fun ρ₂ hρ₂ as bs h => ?_
    exact pure (.cons (hP _ _ _ _ hρ₂ hab) h)

/-- Steps that are taken for each element of a list, without results. -/
theorem forM {f f' : ι → Scoped Unit} {l : List ι}
    (hf : ∀ ρ', ρ ≤ ρ' → ∀ i, SameSteps ρ' (fun _ => Eq) (f i) (f' i)) :
    SameSteps ρ (fun _ => Eq) (l.forM f) (l.forM f') := by
  induction l generalizing ρ with
  | nil => exact pure rfl
  | cons i rest ih =>
    exact bind (hf ρ ρ.le_refl i) fun ρ₁ hρ₁ _ _ _ =>
      ih fun ρ' hρ => hf ρ' (Renaming.le_trans hρ₁ hρ)

/-- One handle comes of functions with the same steps. -/
theorem function {x x' : Scoped Expr} (hx : ∀ ρ', ρ ≤ ρ' → SameSteps ρ' SameExpr x x') :
    SameRun SameSupply ρ (fun _ => Eq) (Scoped.function x) (Scoped.function x') :=
  .bind Scope.sameRun_newFunction fun ρ₁ hρ₁ s s' hs =>
    .bind (hx ρ₁ hρ₁ s s' hs) fun _ _ _ _ hr => Scope.sameRun_buildFunction hr.2 hr.1

/-- Blocks with the same steps are the same. -/
theorem block {x x' : Scoped Expr} (hx : ∀ ρ', ρ ≤ ρ' → SameSteps ρ' SameExpr x x') :
    SameRun SameSupply ρ SameClosure (Scoped.block x) (Scoped.block x') :=
  .bind Scope.sameRun_newBlock fun ρ₁ hρ₁ s s' hs =>
    .bind (hx ρ₁ hρ₁ s s' hs) fun _ _ _ _ hr => Scope.sameRun_buildBlock hr.2 hr.1

end SameSteps

end Splice

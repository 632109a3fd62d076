import Splice.Proofs.Matching.Scope

/-!
# Refused calls leave no trace

A caller of a function builder declares parameters and assigns expressions, and goes on when a call
is refused. It knows a variable of the function by the number of variables that it has got before,
and so its calls mean the same without those that were refused, though places of variables differ.
`Builder.accepted_calls_suffice` says that nothing else differs: the builder has the same inputs and
statements, answers every later call alike, and one handle comes of it.
-/

namespace Splice

/-- Adds a statement, if the scope takes it. -/
def Scope.tryAssign (s : Scope) (e : Expr) : Except CompositionError Var × Scope :=
  match s.assign e with
  | .ok (v, next) => (.ok v, next)
  | .error cause => (.error cause, s)

/-- A variable, as the caller of a function builder refers to it. -/
inductive Mention where
  /-- The variable that the builder has given after as many others. -/
  | own (index : Nat)
  /-- A variable of another scope. -/
  | other (v : Var)

/-- An operand, as the caller of a function builder puts it together. -/
inductive Operand where
  | var (m : Mention)
  | closure (h : Handle) (args : List Mention)

/-- A function under construction, and the variables that its caller has got from it. -/
structure Builder where
  scope : Scope
  given : List Var := []

namespace Builder

/-- A function without parameters and statements. -/
def opened (id : Nat) : Builder := { scope := { id, capturing := false } }

def mentioned (b : Builder) : Mention → Option Var
  | .own index => b.given[index]?
  | .other v => if v.scope = b.scope.id then none else some v

/-- The operand, if what it mentions is there and has the types that its handle needs. -/
def operand (b : Builder) : Operand → Option Expr
  | .var m => (b.mentioned m).map .var
  | .closure h args => do (Closure.wire h (← args.mapM b.mentioned)).toOption.map .closure

inductive Call where
  | addParam (ty : Ty)
  | assign (e : Operand)

/-- The builder after an answer of its scope. -/
def answered (b : Builder) (r : Except CompositionError Var × Scope) : Builder :=
  { scope := r.2, given := b.given ++ r.1.toOption.toList }

/-- What the builder answers to a call, and what it is afterwards. There is no answer if an operand
is not there. -/
def call (b : Builder) : Call → Option (Except CompositionError Var) × Builder
  | .addParam ty => (some (b.scope.addParam ty).1, b.answered (b.scope.addParam ty))
  | .assign e =>
    match b.operand e with
    | none => (none, b)
    | some e => (some (b.scope.tryAssign e).1, b.answered (b.scope.tryAssign e))

/-- The answers to calls that are made one after the other, and what the builder is afterwards. -/
def calls (b : Builder) : List Call → List (Option (Except CompositionError Var)) × Builder
  | [] => ([], b)
  | c :: rest =>
    let (answers, last) := (b.call c).2.calls rest
    ((b.call c).1 :: answers, last)

/-- The calls that give variables. -/
def accepted (b : Builder) : List Call → List Call
  | [] => []
  | c :: rest =>
    match (b.call c).1 with
    | some (.ok _) => c :: (b.call c).2.accepted rest
    | _ => (b.call c).2.accepted rest

/-- The function that returns an operand, if the operand is there, or no value. -/
def build (b : Builder) : Option Operand → Option (Compose Handle)
  | none => some b.scope.buildFunctionVoid
  | some ret => (b.operand ret).map b.scope.buildFunction

end Builder

/-! ## Single answers -/

namespace Scope

/-- How a scope answers a call that asks for a variable of a type. A refusal changes the scope in
nothing but the place of the variable that comes next. -/
structure Answers (s : Scope) (isParam : Bool) (ty : Ty) (r : Except CompositionError Var × Scope) :
    Prop where
  id_eq : r.2.id = s.id
  nextOrdinal_le : s.nextOrdinal ≤ r.2.nextOrdinal
  given : ∀ v, r.1 = .ok v → v = s.nextVar isParam ty ∧ s.nextOrdinal < r.2.nextOrdinal
  refused : ∀ cause, r.1 = .error cause → r.2 = { s with nextOrdinal := r.2.nextOrdinal }

/-- A scope gives the next variable for a parameter or stays what it is, but for the next place. -/
theorem answers_addParam (s : Scope) (ty : Ty) : s.Answers true ty (s.addParam ty) := by
  rcases hr : s.addParam ty with ⟨result, next⟩
  cases result with
  | ok v =>
    obtain ⟨-, -, hv, rfl⟩ := addParam_eq_ok hr
    exact ⟨rfl, Nat.le_succ _, fun w hw => ⟨Except.ok.inj hw ▸ hv, Nat.lt_succ_self _⟩,
      fun cause hcause => by cases hcause⟩
  | error cause =>
    obtain ⟨nextOrdinal, hle, rfl⟩ := addParam_eq_error hr
    exact ⟨rfl, hle, (fun v hv => by cases hv), fun _ _ => rfl⟩

/-- A scope gives the next variable for a statement or stays what it is. -/
theorem answers_tryAssign (s : Scope) (e : Expr) : s.Answers false e.ty (s.tryAssign e) := by
  unfold tryAssign
  cases hr : s.assign e with
  | error cause => exact ⟨rfl, Nat.le_refl _, (fun v hv => by cases hv), fun _ _ => rfl⟩
  | ok r =>
    obtain ⟨c, hc, hassign⟩ := bind_eq_ok_iff.1 hr
    obtain ⟨d, hd, hty, -⟩ := e.exists_asClosure
    obtain rfl := Except.ok.inj (hc.symm.trans hd)
    obtain ⟨v, next⟩ := r
    obtain ⟨hv, rfl⟩ := assignClosure_eq_ok hassign
    exact ⟨rfl, Nat.le_succ _,
      fun w hw => ⟨Except.ok.inj hw ▸ hty ▸ hv, Nat.lt_succ_self _⟩,
      fun cause hcause => by cases hcause⟩

end Scope

namespace Matching

variable {M : Matching}

/-- Matched scopes answer an assignment alike, and stay matched. -/
theorem tryAssign {s s' : Scope} {e e' : Expr} (hs : M.SameScope s s') (he : M.SameExpr e e')
    (hnew : (∃ v, (s.tryAssign e).1 = .ok v) →
      M.vars (s.nextVar false e.ty) (s'.nextVar false e.ty)) :
    M.SameResult M.vars (s.tryAssign e).1 (s'.tryAssign e').1 ∧
      M.SameScope (s.tryAssign e).2 (s'.tryAssign e').2 := by
  have hsame := assign hs he fun ⟨r, hr⟩ => hnew ⟨r.1, by rw [Scope.tryAssign, hr]⟩
  unfold Scope.tryAssign
  cases hr : s.assign e <;> cases hr' : s'.assign e' <;> rw [hr, hr'] at hsame <;> cases hsame
  · next hcause => exact ⟨.error hcause, hs⟩
  · next hstep => exact ⟨.ok hstep.1, hstep.2⟩

/-- One more pair of variables that are matched with no others. -/
def insert (M : Matching) (v v' : Var) (hscope : M.scopes v.scope v'.scope) (hty : v'.ty = v.ty)
    (hv : ∀ w', ¬ M.vars v w') (hv' : ∀ w, ¬ M.vars w v') : Matching where
  scopes := M.scopes
  vars w w' := M.vars w w' ∨ w = v ∧ w' = v'
  scopes_unique := M.scopes_unique
  vars_unique := by
    constructor
    · -- the new pair shares neither side with an old one
      rintro w x y (hw | ⟨rfl, rfl⟩) (hx | ⟨rfl, hx⟩)
      · exact M.vars_unique.1 hw hx
      · exact absurd (hx ▸ hw) (hv' _)
      · exact absurd hx (hv' _)
      · rfl
    · rintro w x y (hx | ⟨rfl, rfl⟩) (hy | ⟨hy, rfl⟩)
      · exact M.vars_unique.2 hx hy
      · exact absurd (hy ▸ hx) (hv _)
      · exact absurd hy (hv _)
      · rfl
  scopes_of_vars := by
    rintro w w' (hw | ⟨rfl, rfl⟩)
    · exact M.scopes_of_vars _ _ hw
    · exact hscope
  ty_eq := by
    rintro w w' (hw | ⟨rfl, rfl⟩)
    · exact M.ty_eq _ _ hw
    · exact hty

/-- Only places of variables in their scopes differ. -/
def Renumbers (M : Matching) : Prop :=
  ∀ v v', M.vars v v' → v' = { v with ordinal := v'.ordinal }

/-- The same inputs and statements, and variables given for the same calls. -/
structure SameBuilder (M : Matching) (b b' : Builder) : Prop where
  scope : M.SameScope b.scope b'.scope
  given : List.Forall₂ M.vars b.given b'.given

/-- Builders stay the same where more is matched. -/
theorem SameBuilder.mono {M' : Matching} {b b' : Builder} (h : M.SameBuilder b b') (hM : M ≤ M') :
    M'.SameBuilder b b' := ⟨h.scope.mono hM, h.given.imp hM.2⟩

/-- Answers that are the same but for the variables, if there are any. -/
abbrev SameAnswer (M : Matching) := Option.Rel (M.SameResult M.vars)

/-- Answers stay the same where more is matched. -/
theorem sameAnswer_mono {M' : Matching} (hM : M ≤ M') {x x' : Option (Except CompositionError Var)}
    (h : M.SameAnswer x x') : M'.SameAnswer x x' := by
  cases h with
  | none => exact .none
  | some h => exact .some (h.mono hM hM.2)

end Matching

/-! ## Two builders -/

namespace Builder

open Matching (SameExpr SameResult SameScope SameBuilder SameAnswer)

/-- Two builders of one function that differ in the places of variables, as one of them has refused
more calls than the other. -/
structure Keeps (id : Nat) (M : Matching) (b b' : Builder) : Prop where
  same : M.SameBuilder b b'
  id_eq : b.scope.id = id
  id_eq' : b'.scope.id = id
  renumbers : M.Renumbers
  others : ∀ v, v.scope ≠ id → M.vars v v
  /-- Matched variables of the function come before the next ones. -/
  below : ∀ v v', M.vars v v' → v.scope = id →
    v.ordinal < b.scope.nextOrdinal ∧ v'.ordinal < b'.scope.nextOrdinal

/-- Nothing matches but variables of other scopes, each itself. -/
def startMatching (id : Nat) : Matching where
  scopes := Eq
  vars v v' := v.scope ≠ id ∧ v' = v
  scopes_unique := ⟨fun _ _ _ h h' => h.trans h'.symm, fun _ _ _ h h' => h.symm.trans h'⟩
  vars_unique := ⟨fun _ _ _ h h' => h.2.symm.trans h'.2, fun _ _ _ h h' => h.2.trans h'.2.symm⟩
  scopes_of_vars _ _ h := h.2 ▸ rfl
  ty_eq _ _ h := h.2 ▸ rfl

/-- Two builders start out the same. -/
theorem keeps_opened (id : Nat) : Keeps id (startMatching id) (opened id) (opened id) where
  same := ⟨⟨rfl, rfl, .nil, .nil⟩, .nil⟩
  id_eq := rfl
  id_eq' := rfl
  renumbers := fun _ _ h => h.2 ▸ rfl
  others := fun _ hv => ⟨hv, rfl⟩
  below := fun _ _ h hv => absurd hv h.1

namespace Keeps

variable {id : Nat} {M : Matching} {b b' : Builder}

/-- Matched variables belong to one scope. -/
theorem scope_eq (h : Keeps id M b b') {v v' : Var} (hv : M.vars v v') : v'.scope = v.scope := by
  rw [h.renumbers v v' hv]

/-- Two builders find the same variable for a mention, or none. -/
theorem mentioned (h : Keeps id M b b') (m : Mention) :
    Option.Rel M.vars (b.mentioned m) (b'.mentioned m) := by
  cases m with
  | own index =>
    exact rel_getElem? h.same.given index
  | other v =>
    unfold Builder.mentioned
    dsimp only
    rw [h.id_eq, h.id_eq']
    -- a variable of the scope under construction is mentioned by its call, never as that of another
    -- scope
    by_cases hv : v.scope = id
    · rw [if_pos hv]
      exact .none
    · rw [if_neg hv]
      exact .some (h.others v hv)

/-- Two builders find the same operand, or none. -/
theorem operand (h : Keeps id M b b') (e : Operand) :
    Option.Rel M.SameExpr (b.operand e) (b'.operand e) := by
  cases e with
  | var m => exact rel_map (h.mentioned m) fun _ _ hv => hv
  | closure handle args =>
    exact rel_bind (rel_mapM h.mentioned args) fun _ _ hvs =>
      rel_map (Matching.wire handle hvs).toOption fun _ _ hc => hc

/-- A refusal leaves a builder the same as it was. -/
theorem refused (h : Keeps id M b b') {r : Except CompositionError Var × Scope} {isParam : Bool}
    {ty : Ty} {cause : CompositionError} (hr : b.scope.Answers isParam ty r)
    (hcause : r.1 = .error cause) : Keeps id M (b.answered r) b' where
  same := by
    obtain ⟨hscope, hgiven⟩ := h.same
    constructor
    · rw [answered, hr.refused cause hcause]
      exact ⟨hscope.scope, hscope.capturing_eq, hscope.inputs, hscope.statements⟩
    · change List.Forall₂ M.vars (b.given ++ r.1.toOption.toList) b'.given
      rw [hcause]
      simpa [Except.toOption] using hgiven
  id_eq := hr.id_eq.trans h.id_eq
  id_eq' := h.id_eq'
  renumbers := h.renumbers
  others := h.others
  below := fun v v' hv hid =>
    ⟨(h.below v v' hv hid).1.trans_le hr.nextOrdinal_le, (h.below v v' hv hid).2⟩

/-- The variables that come next can be matched, as they come after all that are. -/
theorem exists_next (h : Keeps id M b b') (isParam : Bool) (ty : Ty) :
    ∃ M', M ≤ M' ∧ M'.Renumbers ∧ ∀ v v', M'.vars v v' ↔ M.vars v v' ∨
      v = b.scope.nextVar isParam ty ∧ v' = b'.scope.nextVar isParam ty := by
  let M' := M.insert (b.scope.nextVar isParam ty) (b'.scope.nextVar isParam ty)
    h.same.scope.scope rfl
    (fun w' hw => Nat.lt_irrefl _ (h.below _ _ hw h.id_eq).1)
    (fun w hw => Nat.lt_irrefl _ (h.below _ _ hw ((h.scope_eq hw).symm.trans h.id_eq')).2)
  refine ⟨M', ⟨fun _ _ hs => hs, fun _ _ hv => .inl hv⟩, ?_, fun _ _ => Iff.rfl⟩
  rintro v v' (hv | ⟨rfl, rfl⟩)
  · exact h.renumbers v v' hv
  · rw [Scope.nextVar, Scope.nextVar, h.id_eq, h.id_eq']

/-- Both builders answer one call alike, if their scopes do. -/
theorem answered (h : Keeps id M b b') {r r' : Except CompositionError Var × Scope}
    {isParam : Bool} {ty : Ty} (hr : b.scope.Answers isParam ty r)
    (hr' : b'.scope.Answers isParam ty r')
    (hsame : ∀ M', M ≤ M' → ((∃ v, r.1 = .ok v) →
        M'.vars (b.scope.nextVar isParam ty) (b'.scope.nextVar isParam ty)) →
      M'.SameResult M'.vars r.1 r'.1 ∧ M'.SameScope r.2 r'.2) :
    ∃ M', M ≤ M' ∧ M'.SameResult M'.vars r.1 r'.1 ∧
      Keeps id M' (b.answered r) (b'.answered r') := by
  have hbelow : ∀ v v', M.vars v v' → v.scope = id →
      v.ordinal < r.2.nextOrdinal ∧ v'.ordinal < r'.2.nextOrdinal := fun v v' hv hid =>
    ⟨(h.below v v' hv hid).1.trans_le hr.nextOrdinal_le,
      (h.below v v' hv hid).2.trans_le hr'.nextOrdinal_le⟩
  have hkeeps : ∀ M', M ≤ M' → M'.Renumbers → (∀ v v', M'.vars v v' → v.scope = id →
      v.ordinal < r.2.nextOrdinal ∧ v'.ordinal < r'.2.nextOrdinal) →
      M'.SameResult M'.vars r.1 r'.1 → M'.SameScope r.2 r'.2 →
      Keeps id M' (b.answered r) (b'.answered r') := fun M' hM hrenumbers hbelow hanswer hscope =>
    { same := ⟨hscope, List.rel_append (h.same.given.imp hM.2) (rel_toList hanswer.toOption)⟩
      id_eq := hr.id_eq.trans h.id_eq
      id_eq' := hr'.id_eq.trans h.id_eq'
      renumbers := hrenumbers
      others := fun v hv => hM.2 v v (h.others v hv)
      below := hbelow }
  -- only an accepted call has a new variable to match
  cases hv : r.1 with
  | error cause =>
    have hM := Matching.le_refl M
    obtain ⟨hanswer, hscope⟩ := hsame M hM fun ⟨v, hok⟩ => by
      rw [hv] at hok
      cases hok
    exact ⟨M, hM, hv ▸ hanswer, hkeeps M hM h.renumbers hbelow hanswer hscope⟩
  | ok v =>
    obtain ⟨M', hM, hrenumbers, hvars⟩ := h.exists_next isParam ty
    obtain ⟨hanswer, hscope⟩ := hsame M' hM fun _ => (hvars _ _).2 (.inr ⟨rfl, rfl⟩)
    obtain ⟨v', hv', -⟩ := (hv ▸ hanswer).exists_ok
    refine ⟨M', hM, hv ▸ hanswer, hkeeps M' hM hrenumbers (fun w w' hw hid => ?_) hanswer hscope⟩
    rcases (hvars w w').1 hw with hw | ⟨rfl, rfl⟩
    · exact hbelow w w' hw hid
    · exact ⟨(hr.given v hv).2, (hr'.given v' hv').2⟩

/-- Both builders answer a call alike. -/
theorem call (h : Keeps id M b b') (c : Call) :
    ∃ M', M ≤ M' ∧ M'.SameAnswer (b.call c).1 (b'.call c).1 ∧
      Keeps id M' (b.call c).2 (b'.call c).2 := by
  cases c with
  | addParam ty =>
    obtain ⟨M', hM, hanswer, hkeeps⟩ := h.answered (b.scope.answers_addParam ty)
      (b'.scope.answers_addParam ty) fun M' hM hnew =>
        Matching.addParam (h.same.scope.mono hM) hnew
    exact ⟨M', hM, .some hanswer, hkeeps⟩
  | assign e =>
    have he := h.operand e
    unfold Builder.call
    dsimp only
    generalize b.operand e = x at he ⊢
    generalize b'.operand e = x' at he ⊢
    cases he with
    | none => exact ⟨M, Matching.le_refl M, .none, h⟩
    | @some e e' he =>
      obtain ⟨M', hM, hanswer, hkeeps⟩ := h.answered (b.scope.answers_tryAssign e)
        (he.ty_eq ▸ b'.scope.answers_tryAssign e') fun M' hM hnew =>
          Matching.tryAssign (h.same.scope.mono hM) (he.mono hM) hnew
      exact ⟨M', hM, .some hanswer, hkeeps⟩

/-- A call that gives no variable leaves a builder the same as it was. -/
theorem call_of_refused (h : Keeps id M b b') {c : Call} (hc : ∀ v, (b.call c).1 ≠ some (.ok v)) :
    Keeps id M (b.call c).2 b' := by
  cases c with
  | addParam ty =>
    cases hr : (b.scope.addParam ty).1 with
    | ok v => exact absurd (congrArg some hr) (hc v)
    | error cause => exact h.refused (b.scope.answers_addParam ty) hr
  | assign e =>
    unfold Builder.call at hc ⊢
    dsimp only at hc ⊢
    cases he : b.operand e with
    | none => exact h
    | some e =>
      rw [he] at hc
      cases hr : (b.scope.tryAssign e).1 with
      | ok v => exact absurd (congrArg some hr) (hc v)
      | error cause => exact h.refused (b.scope.answers_tryAssign e) hr

/-- Both builders answer later calls alike. -/
theorem calls (h : Keeps id M b b') (cs : List Call) :
    ∃ M', M ≤ M' ∧ List.Forall₂ M'.SameAnswer (b.calls cs).1 (b'.calls cs).1 ∧
      Keeps id M' (b.calls cs).2 (b'.calls cs).2 := by
  induction cs generalizing M b b' with
  | nil => exact ⟨M, Matching.le_refl M, .nil, h⟩
  | cons c rest ih =>
    obtain ⟨M₁, hM₁, hanswer, h₁⟩ := h.call c
    obtain ⟨M₂, hM₂, hanswers, h₂⟩ := ih h₁
    exact ⟨M₂, Matching.le_trans hM₁ hM₂, .cons (Matching.sameAnswer_mono hM₂ hanswer) hanswers, h₂⟩

/-- The builder that is only asked for what the other one accepts accepts it all. -/
theorem accepted (h : Keeps id M b b') (cs : List Call) :
    ∃ M', M ≤ M' ∧ (∀ answer ∈ (b'.calls (b.accepted cs)).1, ∃ v, answer = some (.ok v)) ∧
      Keeps id M' (b.calls cs).2 (b'.calls (b.accepted cs)).2 := by
  induction cs generalizing M b b' with
  | nil => exact ⟨M, Matching.le_refl M, fun _ hmem => absurd hmem List.not_mem_nil, h⟩
  | cons c rest ih =>
    unfold Builder.accepted
    -- an accepted call is made by both builders, a refused one by the first of them only
    split
    · next v hv =>
      obtain ⟨M₁, hM₁, hanswer, h₁⟩ := h.call c
      obtain ⟨M₂, hM₂, hanswers, h₂⟩ := ih h₁
      refine ⟨M₂, Matching.le_trans hM₁ hM₂, ?_, h₂⟩
      rw [hv] at hanswer
      intro answer hmem
      rcases List.mem_cons.1 hmem with rfl | hmem
      · generalize (b'.call c).1 = x at hanswer ⊢
        cases hanswer with
        | some hanswer =>
          obtain ⟨v', rfl, -⟩ := hanswer.exists_ok
          exact ⟨v', rfl⟩
      · exact hanswers answer hmem
    · next hc => exact ih (h.call_of_refused fun v hv => hc v hv)

/-- What a caller can return, it can return from both builders, and one handle comes of them. -/
theorem build (h : Keeps id M b b') (ret : Option Operand) :
    ∃ M', M ≤ M' ∧ M'.Renumbers ∧ Option.Rel
      (fun x x' : Compose Handle => ∀ s s', M'.SameResult Eq (x.result s) (x'.result s'))
      (b.build ret) (b'.build ret) := by
  cases ret with
  -- what a function without a value returns is assigned last, so both sides match one more variable
  | none =>
    obtain ⟨M', hM, hrenumbers, hvars⟩ := h.exists_next false .void
    refine ⟨M', hM, hrenumbers, .some fun s s' => ?_⟩
    unfold Scope.buildFunctionVoid
    obtain ⟨c, hc, hty, hargs, -⟩ := Closure.exists_constantVoid
    have hsame : M'.SameExpr (.closure c) (.closure c) := ⟨rfl, hargs ▸ .nil⟩
    have hnew : M'.vars (b.scope.nextVar false c.ty) (b'.scope.nextVar false c.ty) := by
      rw [hty]
      exact (hvars _ _).2 (.inr ⟨rfl, rfl⟩)
    rw [Compose.result_lift_bind, Compose.result_lift_bind, hc]
    exact Matching.buildFunction (h.same.scope.mono hM) hsame hnew s s'
  | some ret =>
    have hret := h.operand ret
    unfold Builder.build
    dsimp only
    generalize b.operand ret = x at hret ⊢
    generalize b'.operand ret = x' at hret ⊢
    cases hret with
    | none => exact ⟨M, Matching.le_refl M, h.renumbers, .none⟩
    | @some e e' he =>
      obtain ⟨M', hM, hrenumbers, hvars⟩ := h.exists_next false e.ty
      exact ⟨M', hM, hrenumbers, .some (Matching.buildFunction (h.same.scope.mono hM) (he.mono hM)
        ((hvars _ _).2 (.inr ⟨rfl, rfl⟩)))⟩

end Keeps

/-! ## Without the refused calls -/

/-- An expression that mentions of the function only variables that the caller has got is an
operand. -/
theorem exists_operand_eq {b : Builder} {e : Expr}
    (he : ∀ v ∈ e.vars, v.scope = b.scope.id → v ∈ b.given) : ∃ o, b.operand o = some e := by
  -- a variable of the function is mentioned by the call that gave it, any other one directly
  have hmention : ∀ v ∈ e.vars, ∃ m, b.mentioned m = some v := by
    intro v hv
    by_cases hid : v.scope = b.scope.id
    · obtain ⟨i, hi⟩ := List.mem_iff_getElem?.1 (he v hv hid)
      exact ⟨.own i, hi⟩
    · exact ⟨.other v, if_neg hid⟩
  have hmentions : ∀ vs : List Var, (∀ v ∈ vs, ∃ m, b.mentioned m = some v) →
      ∃ ms : List Mention, ms.mapM b.mentioned = some vs := by
    intro vs hvs
    induction vs with
    | nil => exact ⟨[], rfl⟩
    | cons v rest ih =>
      obtain ⟨⟨m, hm⟩, hrest⟩ := List.forall_mem_cons.1 hvs
      obtain ⟨ms, hms⟩ := ih hrest
      exact ⟨m :: ms, by rw [List.mapM_cons, hm, hms]; rfl⟩
  cases e with
  | var v =>
    obtain ⟨m, hm⟩ := hmention v (List.mem_singleton.2 rfl)
    exact ⟨.var m, by rw [operand, hm]; rfl⟩
  | closure c =>
    obtain ⟨ms, hms⟩ := hmentions c.args hmention
    refine ⟨.closure c.handle ms, ?_⟩
    have hwire : Closure.wire c.handle c.args = .ok c := Closure.wire_eq_ok_iff.2 ⟨rfl, rfl⟩
    rw [operand, hms]
    change (Closure.wire c.handle c.args).toOption.map Expr.closure = some (.closure c)
    rw [hwire]
    rfl

/-- A builder that is not asked for what it would refuse accepts all that it is asked for. It comes
to the same inputs and statements, but for the places of variables; it answers all later calls
alike, and whatever is returned in the end, one handle comes of it. -/
theorem accepted_calls_suffice (id : Nat) (cs later : List Call) (ret : Option Operand) :
    let full := ((opened id).calls cs).2
    let pruned := (opened id).calls ((opened id).accepted cs)
    ∃ M : Matching, M.Renumbers ∧
      (∀ answer ∈ pruned.1, ∃ v, answer = some (.ok v)) ∧
      M.SameBuilder full pruned.2 ∧
      List.Forall₂ M.SameAnswer (full.calls later).1 (pruned.2.calls later).1 ∧
      M.SameBuilder (full.calls later).2 (pruned.2.calls later).2 ∧
      Option.Rel (fun x x' : Compose Handle => ∀ s s', M.SameResult Eq (x.result s) (x'.result s'))
        ((full.calls later).2.build ret) ((pruned.2.calls later).2.build ret) := by
  obtain ⟨M₁, -, haccepted, h₁⟩ := (keeps_opened id).accepted cs
  obtain ⟨M₂, hM₂, hanswers, h₂⟩ := h₁.calls later
  obtain ⟨M₃, hM₃, hrenumbers, hbuild⟩ := h₂.build ret
  exact ⟨M₃, hrenumbers, haccepted, h₁.same.mono (Matching.le_trans hM₂ hM₃),
    hanswers.imp fun _ _ => Matching.sameAnswer_mono hM₃, h₂.same.mono hM₃, hbuild⟩

/-- A refused statement does not start the body, and a refused parameter takes a place. -/
example : ((opened 1).calls [.addParam .int, .assign (.var (.other ⟨7, 0, true, .int⟩)),
      .addParam .void, .addParam .int]).1 =
    [some (.ok ⟨1, 0, true, .int⟩), some (.error (.foreignVar ⟨7, 0, true, .int⟩)),
      some (.error .voidVar), some (.ok ⟨1, 2, true, .int⟩)] := by
  rfl

end Builder

end Splice

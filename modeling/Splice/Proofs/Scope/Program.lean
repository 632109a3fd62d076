import Splice.Proofs.Closure.Operands
import Splice.Proofs.Compose
import Splice.Proofs.Handle.Typing
import Splice.Proofs.Scope.Function

/-!
# Functions as programs

The steps by which a function is composed read like a program in which variables stand for values.
`Scoped.Means` relates the two: whatever else a function has, the steps can be taken, and the
statements that they add do what the program does. The relation is kept by all ways in which steps
are put together, so that it can be read off the steps, and `Scoped.exists_function` says that the
composed handle does what the program does with its arguments.
-/

namespace Splice

open Compose (Gives)
open Handle (argument)

/-- A handle takes arguments of some types, returns a value of a type, and does with its arguments
what a program does. -/
structure Handle.Computes (h : Handle) (types : List Ty) (ret : Ty)
    (z : List Value → Exec Value) : Prop where
  params_eq : h.params = types
  ret_eq : h.ret = ret
  call_eq : ∀ turns args, args.length = types.length → h.call turns args = z args

namespace Handle.Computes

variable {h : Handle} {types : List Ty} {ret : Ty} {z : List Value → Exec Value}
  {args : List Value} {turns : Nat} {w : World}

/-- Arguments that fit pass the check of an outer call. -/
theorem invoke_apply (hh : h.Computes types ret z) (hfits : Fits types args) :
    h.invoke turns args w = z args w := by
  have hchecked : h.sig.check args = .ok () := by
    rw [← hh.params_eq] at hfits
    exact Signature.check_eq_ok_iff.2 hfits
  change (Exec.ofExcept (h.sig.check args) >>= fun _ => h.call turns args) w = _
  rw [hchecked, ← hh.call_eq turns args hfits.length_eq.symm]
  rfl

/-- What is no argument is refused before anything is done. -/
theorem exists_invoke_thrown (hh : h.Computes types ret z) (hfits : ¬ Fits types args) :
    ∃ e, h.invoke turns args w = .thrown e { w with nextId := w.nextId + 1 } := by
  cases hchecked : h.sig.check args with
  | ok => exact absurd (hh.params_eq ▸ Signature.check_eq_ok_iff.1 hchecked) hfits
  | error fault =>
    refine ⟨⟨w.nextId, fault.cls, fault.message⟩, ?_⟩
    change (Exec.ofExcept (h.sig.check args) >>= fun _ => h.call turns args) w = _
    rw [hchecked]
    rfl

end Handle.Computes

/-! ## Runs that end alike -/

/-- Two runs end in one way and in one world, with results that are related. -/
inductive Outcome.Alike (R : α → β → Prop) : Outcome α → Outcome β → Prop
  | ok {a : α} {b : β} {w : World} (h : R a b) : Alike R (.ok a w) (.ok b w)
  | thrown {e : Exception} {w : World} : Alike R (.thrown e w) (.thrown e w)
  | unfinished : Alike R .unfinished .unfinished

/-- From every world, two runs end alike. -/
def Exec.Alike (R : α → β → Prop) (x : Exec α) (y : Exec β) : Prop := ∀ w, (x w).Alike R (y w)

namespace Exec.Alike

variable {R : α → β → Prop} {S : γ → δ → Prop} {x : Exec α} {y : Exec β}

/-- A run ends like itself. -/
theorem refl (x : Exec α) : Alike Eq x x := by
  intro w
  cases x w with
  | ok a w' => exact .ok rfl
  | thrown e w' => exact .thrown
  | unfinished => exact .unfinished

/-- Results alone end alike if they are related. -/
theorem pure {a : α} {b : β} (h : R a b) : Alike R (Pure.pure a) (Pure.pure b) := fun _ => .ok h

/-- Runs that end alike with related results do so with results related in a weaker way. -/
theorem mono {T : α → β → Prop} (h : Alike R x y) (hT : ∀ a b, R a b → T a b) : Alike T x y := by
  intro w
  have hw := h w
  generalize x w = o at hw ⊢
  generalize y w = o' at hw ⊢
  cases hw with
  | ok hab => exact .ok (hT _ _ hab)
  | thrown => exact .thrown
  | unfinished => exact .unfinished

/-- Sequences end alike if their first parts do and their rests do, for related results. -/
theorem bind {f : α → Exec γ} {g : β → Exec δ} (h : Alike R x y)
    (hf : ∀ a b, R a b → Alike S (f a) (g b)) : Alike S (x >>= f) (y >>= g) := by
  intro w
  have hw := h w
  rw [bind_apply, bind_apply]
  generalize x w = o at hw ⊢
  generalize y w = o' at hw ⊢
  cases hw with
  | ok hab => exact hf _ _ hab _
  | thrown => exact .thrown
  | unfinished => exact .unfinished

/-- Runs that end alike are the same as far as what comes after them can tell. -/
theorem bind_eq {f : α → Exec γ} {g : β → Exec γ} (h : Alike R x y)
    (hf : ∀ a b, R a b → f a = g b) : x >>= f = y >>= g := by
  funext w
  have hw := h w
  rw [bind_apply, bind_apply]
  generalize x w = o at hw ⊢
  generalize y w = o' at hw ⊢
  cases hw with
  | ok hab => exact congrFun (hf _ _ hab) _
  | thrown => rfl
  | unfinished => rfl

/-- A run and the same run with a result that is made of its own. -/
theorem of_result {f : β → α} (hf : ∀ b, R (f b) b) :
    Alike R (y >>= fun b => Pure.pure (f b)) y := by
  intro w
  rw [bind_apply]
  cases y w with
  | ok b w' => exact .ok (hf b)
  | thrown e w' => exact .thrown
  | unfinished => exact .unfinished

end Exec.Alike

/-! ## Variables that stand for values -/

/-- Two environments give the same values to some variables. -/
def Env.Agree (vars : List Var) (env env' : Env) : Prop := ∀ v ∈ vars, env' v = env v

/-- What steps hand out stands for a value under every environment. -/
class Denotes (α : Type) (β : outParam Type) where
  /-- The variables that the value depends on. -/
  vars : α → List Var
  value : Env → α → β
  value_congr : ∀ {a : α} {env env' : Env}, Env.Agree (vars a) env env' → value env' a = value env a

instance : Denotes PUnit PUnit where
  vars _ := []
  value _ _ := ⟨⟩
  value_congr _ := rfl

instance : Denotes Var Value where
  vars v := [v]
  value env v := env v
  value_congr h := h _ (List.mem_singleton.2 rfl)

instance : Denotes (List Var) (List Value) where
  vars vs := vs
  value env vs := vs.map env
  value_congr h := List.map_congr_left h

/-! ## Steps -/

namespace Scoped

/-- Steps take a scope to another one and hand out a result, whatever the supply. -/
def Takes (steps : Scoped α) (b : Scope) (a : α) (b' : Scope) : Prop :=
  ∀ s, Gives (steps.run b) s (a, b') s

namespace Takes

variable {b b₁ b₂ : Scope} {steps : Scoped α} {next : α → Scoped γ} {a : α} {c : γ}

/-- A result alone leaves the scope as it is. -/
theorem pure (a : α) (b : Scope) : Takes (Pure.pure a) b a b := fun _ => rfl

/-- Steps in sequence take the scope on, one after the other. -/
theorem bind (h : steps.Takes b a b₁) (hnext : (next a).Takes b₁ c b₂) :
    (steps >>= next).Takes b c b₂ := by
  intro s
  rw [StateT.run_bind]
  exact (h s).bind_iff.2 (hnext s)

/-- A refusable step that is accepted leaves the scope as it is. -/
theorem lift {e : Except CompositionError α} (he : e = .ok a) (b : Scope) :
    (liftM e : Scoped α).Takes b a b := by
  subst he
  exact fun _ => rfl

/-- The scope itself can be handed out. -/
theorem get (b : Scope) : (MonadState.get : Scoped Scope).Takes b b b := fun _ => rfl

/-- The scope can be replaced. -/
theorem set (b b' : Scope) : (MonadStateOf.set b' : Scoped PUnit).Takes b ⟨⟩ b' := fun _ => rfl

/-- An assignment that is accepted takes the scope to its successor. -/
theorem assign {e : Expr} {v : Var} (h : b.assign e = .ok (v, b₁)) :
    (Scoped.assign e).Takes b v b₁ :=
  (get b).bind <| (lift h b).bind <| (set b b₁).bind (pure v b₁)

/-- A declaration that is accepted takes the scope to its successor. -/
theorem addParam {ty : Ty} {v : Var} (h : b.addParam ty = (.ok v, b₁)) :
    (Scoped.addParam ty).Takes b v b₁ := by
  refine (get b).bind ?_
  rw [h]
  exact (set b b₁).bind (lift rfl b₁)

end Takes

/-- Composition steps that are taken together are taken one after the other. -/
theorem liftM_bind (e : Except CompositionError α) (next : α → Except CompositionError γ) :
    (liftM (e >>= next) : Scoped γ) = liftM e >>= fun a => liftM (next a) := by
  cases e <;> rfl

end Scoped

/-- A history that goes on. -/
def History.extend (history : History) (new : List Binding) : History :=
  { history with bindings := history.bindings ++ new }

namespace History

variable {history : History} {new new' : List Binding}

/-- Nothing new is no change. -/
theorem extend_nil : history.extend [] = history := by
  rw [extend, List.append_nil]

/-- A history can go on twice. -/
theorem extend_extend : (history.extend new).extend new' = history.extend (new ++ new') := by
  simp only [extend, List.append_assoc]

/-- No variable is lost when a history goes on. -/
theorem vars_subset_extend : history.vars ⊆ (history.extend new).vars := by
  rw [vars, vars, extend, List.map_append, ← List.append_assoc]
  exact List.subset_append_left _ _

end History

namespace Grown

variable {id : Nat} {history : History} {b : Scope}

/-- A function that has no statements yet takes a parameter of every type that has values. -/
theorem exists_addParam (hs : Grown id false history b) (hnone : history.bindings = []) {ty : Ty}
    (hty : ty ≠ .void) :
    ∃ v b', b.addParam ty = (.ok v, b') ∧ v.ty = ty ∧ Grown id false
      { history with types := history.types ++ [ty], params := history.params ++ [v] } b' := by
  have hstands := hs.recorded.standsFor
  rw [hnone, List.forall₂_nil_left_iff] at hstands
  have hadd : b.addParam ty = (.ok ⟨b.id, b.nextOrdinal, true, ty⟩,
      { b with
        nextOrdinal := b.nextOrdinal + 1
        inputs := b.inputs ++ [⟨b.id, b.nextOrdinal, true, ty⟩] }) := by
    rw [Scope.addParam, hstands, Var.param, if_neg hty]
    rfl
  exact ⟨_, _, hadd, rfl, hs.declared rfl hadd⟩

/-- A function takes every statement that reads variables which it has given out. -/
theorem exists_assign (hs : Grown id false history b) {e : Expr} (hvars : e.vars ⊆ history.vars) :
    ∃ v b', b.assign e = .ok (v, b') ∧ v.ty = e.ty ∧ (v.ty ≠ .void → v ∉ history.vars) ∧
      Grown id false (history.extend [⟨v, e⟩]) b' := by
  have hrec := hs.recorded
  have hown : ∀ v ∈ e.reads, v.scope = b.id := fun v hv => by
    rw [hrec.id_eq]
    exact hrec.scope_of_mem_vars (hvars (List.mem_filter.1 hv).1)
  obtain ⟨v, b', hassign⟩ := Scope.exists_assign_iff.2 (.inr hown)
  obtain ⟨c, -, hty, -, hc⟩ := Scope.assign_eq_ok hassign
  obtain ⟨rfl, -⟩ := Scope.assignClosure_eq_ok hc
  refine ⟨_, b', hassign, hty, fun hvalued hmem => ?_, hs.assigned (fun w hw _ => hvars hw) hassign⟩
  exact hrec.wellFormed.next_notMem rfl rfl (hrec.mem_live hmem hvalued)

end Grown

namespace Scoped

/-! ## Steps and programs -/

/-- Steps add bindings to a function, which do what a program does. What they hand out stands for
the result of the program; all variables that there have been before keep their values. -/
structure Adds [Denotes α β] (id : Nat) (history : History) (b : Scope) (steps : Scoped α)
    (x : Env → Exec β) (a : α) (new : List Binding) (b' : Scope) : Prop where
  takes : steps.Takes b a b'
  grown : Grown id false (history.extend new) b'
  vars_subset : Denotes.vars a ⊆ (history.extend new).vars
  runs : ∀ turns env, Exec.Alike
    (fun env' y => env.Agree history.vars env' ∧ Denotes.value env' a = y)
    (History.runBindings turns env new) (x env)

/-- In every function that has given out some variables, steps can be taken and do what a program
does. What they hand out has a property. -/
def Means [Denotes α β] (known : List Var) (steps : Scoped α) (x : Env → Exec β)
    (fits : α → Prop) : Prop :=
  ∀ ⦃id : Nat⦄ ⦃history : History⦄ ⦃b : Scope⦄, Grown id false history b → known ⊆ history.vars →
    ∃ a new b', Adds id history b steps x a new b' ∧ fits a

namespace Means

variable {known : List Var}

section

variable [Denotes α β] [Denotes γ δ] {steps : Scoped α} {x : Env → Exec β} {fits : α → Prop}
  {next : α → Scoped γ} {y : Env → β → Exec δ} {fits' : γ → Prop}

/-- More may be known. -/
theorem weaken {more : List Var} (h : Means known steps x fits) (hmore : known ⊆ more) :
    Means more steps x fits := fun _ _ _ hb hknown => h hb fun _ hv => hknown (hmore hv)

/-- A result alone adds no binding, and stands for what is known. -/
theorem pure {a : α} (hvars : Denotes.vars a ⊆ known) (hfits : fits a) :
    Means known (Pure.pure a) (fun env => Pure.pure (Denotes.value env a)) fits := by
  intro id history b hb hknown
  refine ⟨a, [], b, ⟨.pure a b, ?_, ?_, fun turns env => ?_⟩, hfits⟩
  · rwa [History.extend_nil]
  · rw [History.extend_nil]
    exact List.Subset.trans hvars hknown
  · exact .pure ⟨fun _ _ => rfl, rfl⟩

/-- A sequence does what a sequence does, if its rest looks at variables that are known. -/
theorem bind (h : Means known steps x fits)
    (hnext : ∀ a, fits a →
      Means (known ++ Denotes.vars a) (next a) (fun env => y env (Denotes.value env a)) fits')
    (hlooks : ∀ env env', Env.Agree known env env' → y env' = y env) :
    Means known (steps >>= next) (fun env => x env >>= y env) fits' := by
  intro id history b hb hknown
  obtain ⟨a, new, b₁, ha, hfits⟩ := h hb hknown
  have hknown' : known ++ Denotes.vars a ⊆ (history.extend new).vars :=
    List.append_subset.2 ⟨List.Subset.trans hknown History.vars_subset_extend, ha.vars_subset⟩
  obtain ⟨c, new', b₂, hc, hfits'⟩ := hnext a hfits ha.grown hknown'
  -- the bindings of both parts run one after the other, and the second ones agree with the first
  refine ⟨c, new ++ new', b₂, ⟨ha.takes.bind hc.takes, ?_, ?_, fun turns env => ?_⟩, hfits'⟩
  · rw [← History.extend_extend]
    exact hc.grown
  · rw [← History.extend_extend]
    exact hc.vars_subset
  · -- the rest runs under an environment that agrees with the first one on all that `y` looks at
    rw [History.runBindings_append]
    refine (ha.runs turns env).bind fun env₁ result ⟨hagree, hresult⟩ => ?_
    have hrest := hc.runs turns env₁
    rw [hlooks env env₁ fun v hv => hagree v (hknown hv), hresult] at hrest
    refine hrest.mono fun env₂ _ ⟨hagree', hresult'⟩ => ⟨fun v hv => ?_, hresult'⟩
    exact (hagree' v (History.vars_subset_extend hv)).trans (hagree v hv)

/-- A composition step that is accepted leaves no trace in the program. -/
theorem lift_bind {e : Except CompositionError ε} {a : ε} {next : ε → Scoped γ} {z : Env → Exec δ}
    (he : e = .ok a) (h : Means known (next a) z fits') :
    Means known ((liftM e : Scoped ε) >>= next) z fits' := by
  intro id history b hb hknown
  obtain ⟨c, new, b', hc, hfits⟩ := h hb hknown
  exact ⟨c, new, b', ⟨(Takes.lift he b).bind hc.takes, hc.grown, hc.vars_subset, hc.runs⟩, hfits⟩

end

/-- A statement is bound to a variable for what its closure computes. -/
theorem assign {c : Closure} {ty : Ty} {x : Env → Exec Value} (h : c.Computes known ty x)
    (hty : ty ≠ .void) : Means known (Scoped.assign c) x (·.ty = ty) := by
  intro id history b hb hknown
  obtain ⟨v, b', hassign, hvty, hnew, hgrown⟩ :=
    hb.exists_assign (e := .closure c) (List.Subset.trans h.args_subset hknown)
  have hv : v.ty = ty := hvty.trans h.ty_eq
  refine ⟨v, _, b', ⟨.assign hassign, hgrown, ?_, fun turns env => ?_⟩, hv⟩
  · refine List.cons_subset.2 ⟨?_, List.nil_subset _⟩
    simp [History.vars, History.extend]
  · -- the result stands for a new variable, so all others keep their values
    have hvalued : v.ty ≠ .void := hv ▸ hty
    rw [History.runBindings, ← h.eval_eq turns env]
    refine .of_result fun value => ?_
    rw [Env.bindResult, if_neg hvalued]
    exact ⟨fun w hw => if_neg fun hwv : w = v => hnew hvalued (hwv ▸ hw), if_pos rfl⟩

/-- A statement without a value is run for its effects. -/
theorem perform {c : Closure} {x : Env → Exec Value} (h : c.Computes known .void x) :
    Means known (do let _ ← Scoped.assign c) (fun env => do let _ ← x env) fun _ => True := by
  intro id history b hb hknown
  obtain ⟨v, b', hassign, hvty, -, hgrown⟩ :=
    hb.exists_assign (e := .closure c) (List.Subset.trans h.args_subset hknown)
  have hv : v.ty = .void := hvty.trans h.ty_eq
  refine ⟨⟨⟩, _, b', ⟨(Takes.assign hassign).bind (.pure PUnit.unit b'), hgrown, List.nil_subset _,
    fun turns env => ?_⟩, trivial⟩
  rw [History.runBindings, ← h.eval_eq turns env]
  refine Exec.Alike.bind (.refl _) fun value _ _ => ?_
  rw [Env.bindResult, if_pos hv]
  exact .pure ⟨fun _ _ => rfl, rfl⟩

/-! ### Steps for each element of a list -/

variable {ι : Type} {l : List ι} {steps : ι → Scoped PUnit} {x : Env → ι → Exec PUnit}

/-- Statements for each element of a list, one after the other, are a loop over the list. -/
theorem forM (h : ∀ i ∈ l, Means known (steps i) (x · i) fun _ => True)
    (hlooks : ∀ env env', Env.Agree known env env' → x env' = x env) :
    Means known (l.forM steps) (fun env => l.forM (x env)) fun _ => True := by
  induction l with
  | nil => exact pure (List.nil_subset _) trivial
  | cons i l ih =>
    obtain ⟨hi, hl⟩ := List.forall_mem_cons.1 h
    refine bind (y := fun env _ => l.forM (x env)) hi (fun _ _ => ?_) fun env env' hagree => ?_
    · exact (ih hl).weaken (List.subset_append_left _ _)
    · rw [hlooks env env' hagree]

/-- Variables for each element of a list stand for the results of a loop over the list. -/
theorem mapM {steps : ι → Scoped Var} {x : Env → ι → Exec Value} {ty : ι → Ty}
    (h : ∀ i ∈ l, Means known (steps i) (x · i) (·.ty = ty i))
    (hlooks : ∀ env env', Env.Agree known env env' → x env' = x env) :
    Means known (l.mapM steps) (fun env => l.mapM (x env)) fun vs => vs.map Var.ty = l.map ty := by
  -- the results are put together only behind the last step, so the variables have to stay known
  induction l with
  | nil => exact pure (List.nil_subset _) rfl
  | cons i l ih =>
    obtain ⟨hi, hl⟩ := List.forall_mem_cons.1 h
    simp only [List.mapM_cons]
    refine bind (y := fun env value => do return value :: (← l.mapM (x env))) hi (fun v hv => ?_)
      fun env env' hagree => ?_
    · refine bind (y := fun env values => Pure.pure (env v :: values))
        ((ih hl).weaken (List.subset_append_left _ _)) (fun vs hvs => ?_) fun env env' hagree => ?_
      · refine pure (a := v :: vs) (List.cons_subset.2 ⟨?_, List.subset_append_right _ _⟩) ?_
        · exact List.mem_append_left _ List.mem_concat_self
        · rw [List.map_cons, List.map_cons, hv, hvs]
      · have hv' : env' v = env v := hagree v List.mem_concat_self
        rw [hv']
    · rw [hlooks env env' hagree]

end Means

/-! ## Functions -/

/-- Steps declare the remaining parameters of a function, add its statements and end with what it
returns. The function does what a program does with its arguments. The scope of the function is
open, so those that the steps open come behind it. -/
def Returns (params : List Var) (steps : Scoped Expr) (types : List Ty) (ret : Ty)
    (x : List Value → Exec Value) : Prop :=
  ∀ ⦃id : Nat⦄ ⦃history : History⦄ ⦃b : Scope⦄ ⦃s : Supply⦄, Grown id false history b →
    history.params = params → history.bindings = [] → id < s.nextScope →
    ∃ e history' b' s', Gives (steps.run b) s (e, b') s' ∧ Grown id false history' b' ∧
      history'.types = types ∧ e.vars ⊆ history'.vars ∧ e.ty = ret ∧
      ∀ turns env, history'.run turns env e = x (history'.params.map env)

variable {params : List Var} {types : List Ty} {ret : Ty} {z : List Value → Exec Value}

/-- A parameter of each type that has values can be declared. -/
theorem Returns.addParam {ty : Ty} {next : Var → Scoped Expr} (hty : ty ≠ .void)
    (h : ∀ v, v.ty = ty → Returns (params ++ [v]) (next v) types ret z) :
    Returns params (Scoped.addParam ty >>= next) types ret z := by
  intro id history b s hb hparams hnone hopen
  obtain ⟨v, b₁, hv, hvty, hgrown⟩ := hb.exists_addParam hnone hty
  obtain ⟨e, history', b', s', hgives, hrest⟩ := h v hvty hgrown (by rw [hparams]) hnone hopen
  refine ⟨e, history', b', s', ?_, hrest⟩
  rw [StateT.run_bind]
  exact (Takes.addParam hv s).bind_iff.2 hgives

/-- A function returns the value of an expression over what the steps before have handed out. -/
theorem Means.returns_expr [Denotes α β] {steps : Scoped α} {x : Env → Exec β} {fits : α → Prop}
    {last : α → Scoped Expr} {y : β → Exec Value} (h : Means params steps x fits)
    (hlast : ∀ a, fits a → ∃ e : Expr, (∀ b, (last a).Takes b e b) ∧
      e.Computes (Denotes.vars a) ret fun env => y (Denotes.value env a))
    (hz : ∀ env : Env, z (params.map env) = (do
      let value ← y (← x env)
      return if ret = .void then .unit else value)) :
    Returns params (steps >>= last) (params.map Var.ty) ret z := by
  intro id history b s hb hparams hnone _
  have hknown : params ⊆ history.vars := by
    rw [← hparams]
    exact List.subset_append_left _ _
  obtain ⟨a, new, b', ha, hfits⟩ := h hb hknown
  obtain ⟨e, he, hcomputes⟩ := hlast a hfits
  refine ⟨e, history.extend new, b', s, ha.takes.bind (he b') s, ha.grown, ?_,
    List.Subset.trans hcomputes.vars_subset ha.vars_subset, hcomputes.ty_eq, fun turns env => ?_⟩
  · rw [← hparams]
    exact hb.recorded.types_eq.symm
  · change _ = z (history.params.map env)
    -- nothing has been bound before the steps, so their bindings are all that the function runs
    have hbindings : (history.extend new).bindings = new := by
      rw [History.extend, hnone, List.nil_append]
    rw [hparams, hz, History.run, hbindings]
    refine (ha.runs turns env).bind_eq fun env' value hrelated => ?_
    obtain ⟨-, hvalue⟩ := hrelated
    have heval : e.eval turns env' = y value := by
      rw [← hvalue]
      exact hcomputes.eval_eq turns env'
    rw [heval, hcomputes.ty_eq]

/-- A function returns the value of a closure over what the steps before have handed out. -/
theorem Means.returns [Denotes α β] {steps : Scoped α} {x : Env → Exec β} {fits : α → Prop}
    {last : α → Except CompositionError Closure} {y : β → Exec Value}
    (h : Means params steps x fits)
    (hlast : ∀ a, fits a → ∃ c, last a = .ok c ∧
      c.Computes (Denotes.vars a) ret fun env => y (Denotes.value env a))
    (hz : ∀ env : Env, z (params.map env) = (do
      let value ← y (← x env)
      return if ret = .void then .unit else value)) :
    Returns params (do return .closure (← liftM (last (← steps)))) (params.map Var.ty) ret z := by
  refine h.returns_expr (fun a ha => ?_) hz
  obtain ⟨c, hc, hcomputes⟩ := hlast a ha
  exact ⟨c, fun b => (Takes.lift hc b).bind (.pure _ b), hcomputes.operand⟩

/-- A function returns the variable that the steps before have handed out. -/
theorem Means.returns_var {steps : Scoped Var} {x : Env → Exec Value} (hret : ret ≠ .void)
    (h : Means params steps x (·.ty = ret)) (hz : ∀ env : Env, z (params.map env) = x env) :
    Returns params (do return .var (← steps)) (params.map Var.ty) ret z := by
  refine h.returns_expr (y := Pure.pure) (fun v hv => ?_) fun env => ?_
  · exact ⟨.var v, .pure _, Var.computes (List.mem_singleton.2 rfl) hv⟩
  · simp only [hz, if_neg hret, bind_pure]

/-- A function without statements returns the value of a closure over its parameters, which may open
scopes of its own while it is composed. -/
theorem Returns.of_closure {closure : Compose Closure} (hret : ret ≠ .void)
    (h : ∀ s, (∀ v ∈ params, v.scope < s.nextScope) → ∃ c s', Gives closure s c s' ∧
      c.Computes params ret fun env => z (params.map env)) :
    Returns params (do return .closure (← liftM closure)) (params.map Var.ty) ret z := by
  intro id history b s hb hparams hnone hopen
  -- the parameters are older than every scope that the closure opens
  have hscope : ∀ v ∈ params, v.scope < s.nextScope := fun v hv => by
    rwa [hb.recorded.own v (hparams ▸ hv)]
  obtain ⟨c, s', hc, hcomputes⟩ := h s hscope
  refine ⟨c, history, b, s', ?_, hb, ?_, ?_, hcomputes.ty_eq, fun turns env => ?_⟩
  · have hlift : Gives ((liftM closure : Scoped Closure).run b) s (c, b) s' :=
      hc.bind_iff.2 (Compose.gives_pure_iff.2 ⟨rfl, rfl⟩)
    exact hlift.bind_iff.2 (Compose.gives_pure_iff.2 ⟨rfl, rfl⟩)
  · rw [← hparams]
    exact hb.recorded.types_eq.symm
  · rw [History.vars, hparams]
    exact List.Subset.trans hcomputes.args_subset (List.subset_append_left _ _)
  · have heval : (Expr.closure c).eval turns env = z (params.map env) := hcomputes.eval_eq turns env
    have hty : (Expr.closure c).ty = ret := hcomputes.ty_eq
    rw [History.run, hnone, hparams, hty, History.runBindings, pure_bind, heval]
    simp only [if_neg hret, bind_pure]

/-- A composed function takes arguments of the declared types and does what the program does. -/
theorem exists_function {steps : Scoped Expr} (h : Returns [] steps types ret z) (s : Supply) :
    ∃ handle s', Gives (function steps) s handle s' ∧ handle.Computes types ret z := by
  have hopened : Gives Scope.newFunction s { id := s.nextScope, capturing := false } s.openScope :=
    rfl
  -- the steps are taken in a new function, which has neither parameters nor bindings yet
  obtain ⟨e, history, b, s₁, hsteps, hgrown, rfl, hvars, rfl, hrun⟩ :=
    h (s := s.openScope)
      (Grown.opened : Grown s.nextScope false {} { id := s.nextScope, capturing := false }) rfl rfl
      (Nat.lt_succ_self s.nextScope)
  have hrec := hgrown.recorded
  have hown : ∀ v ∈ e.reads, v.scope = b.id := fun v hv => by
    rw [hrec.id_eq]
    exact hrec.scope_of_mem_vars (hvars (List.mem_filter.1 hv).1)
  have hknows : history.Knows s.nextScope e := fun v hv _ => hvars hv
  obtain ⟨v, next, hreturned⟩ := Scope.exists_returned_iff.2 (.inr hown)
  obtain ⟨handle, hbuild, -⟩ := hgrown.exists_build hknows hreturned s₁
  rw [← Scope.result_buildFunction hreturned] at hbuild
  have himplements := hgrown.implements_of_buildFunction hknows hbuild
  obtain ⟨s', hgives⟩ := Compose.exists_gives_iff.2 hbuild
  refine ⟨handle, s', ?_, himplements.params_eq, himplements.ret_eq, fun turns args hargs => ?_⟩
  · exact hopened.bind_iff.2 (hsteps.bind_iff.2 hgives)
  · have hlength : args.length = history.params.length := by
      rw [hargs, ← hrec.types_eq, List.length_map]
    rw [himplements.call_eq turns (fun _ => .unit) args hargs, hrun,
      Env.map_bindAll hrec.nodup_params hlength]

/-- A function of one parameter does what the closure does that it returns. -/
theorem exists_unaryFunction {ty : Ty} {closure : Var → Compose Closure} {z : Value → Exec Value}
    (hty : ty ≠ .void) (hret : ret ≠ .void)
    (h : ∀ v s, v.ty = ty → v.scope < s.nextScope → ∃ c s', Gives (closure v) s c s' ∧
      c.Computes [v] ret fun env => z (env v)) (s : Supply) :
    ∃ handle s', Gives (function do
        let v ← Scoped.addParam ty
        return .closure (← liftM (closure v))) s handle s' ∧
      handle.Computes [ty] ret fun args => z (argument args 0) := by
  refine exists_function (.addParam hty fun v hv => ?_) s
  have htypes : [ty] = ([] ++ [v]).map Var.ty := by rw [List.nil_append, List.map_singleton, hv]
  rw [htypes]
  exact .of_closure hret fun s hscope => h v s hv (hscope v List.mem_cons_self)

/-- A function of two parameters does what the closure does that it returns. -/
theorem exists_binaryFunction {ty ty' : Ty} {closure : Var → Var → Compose Closure}
    {z : Value → Value → Exec Value} (hty : ty ≠ .void) (hty' : ty' ≠ .void) (hret : ret ≠ .void)
    (h : ∀ v v' s, v.ty = ty → v'.ty = ty' → (∀ u ∈ [v, v'], u.scope < s.nextScope) →
      ∃ c s', Gives (closure v v') s c s' ∧
        c.Computes [v, v'] ret fun env => z (env v) (env v')) (s : Supply) :
    ∃ handle s', Gives (function do
        let v ← Scoped.addParam ty
        let v' ← Scoped.addParam ty'
        return .closure (← liftM (closure v v'))) s handle s' ∧
      handle.Computes [ty, ty'] ret fun args => z (argument args 0) (argument args 1) := by
  refine exists_function (.addParam hty fun v hv => .addParam hty' fun v' hv' => ?_) s
  have htypes : [ty, ty'] = (([] ++ [v]) ++ [v']).map Var.ty := by
    rw [List.nil_append, List.singleton_append, List.map_cons, List.map_singleton, hv, hv']
  rw [htypes]
  exact .of_closure hret fun s hscope => h v v' s hv hv' hscope

end Scoped

end Splice

import Splice.Proofs.Scope.Block
import Splice.Proofs.Scope.Function
import Splice.Proofs.Session.Keys

/-!
# What is refused

On the way to a composed handle much is checked again that has been seen to before: the lengths and
types of rewired arguments, the places of variables, the parameters of aligned pieces. The main
statement is that none of these checks ever fails. A control construct is refused only for the types
of what its caller has given, a function refuses to assign only what reads variables of other
scopes, a block refuses nothing, and both are built whenever the expression that they return can be
assigned.
-/

namespace Splice

open Compose (Gives)

/-! ## Causes that blame the caller -/

/-- A cause says what is wrong with an operand, with a piece or with a variable of the caller's. All
other causes are about signatures and positions that composition itself has worked out. -/
def CompositionError.BlamesCaller : CompositionError → Prop
  | conditionType _ | roleType .. | roleReturn .. | iteratorSource _ | listSource _ | voidState
  | voidVar | foreignVar _ => True
  | _ => False

/-- A step, if it is refused, is refused for something that the caller has done. -/
def BlamesCaller (result : Except CompositionError α) : Prop :=
  ∀ cause, result = .error cause → cause.BlamesCaller

/-- A step is refused for a mistake, and for nothing else. -/
structure FailsFor (result : Except CompositionError α) (mistake : Prop) : Prop where
  refused_iff : (∃ cause, result = .error cause) ↔ mistake
  blames : BlamesCaller result

/-- A step is refused unless it is accepted. -/
theorem exists_error_iff {result : Except CompositionError α} :
    (∃ cause, result = .error cause) ↔ ¬ ∃ a, result = .ok a := by
  cases result with
  | ok a => simp
  | error cause => simp

namespace BlamesCaller

variable {e : Except CompositionError α}

/-- An accepted step blames nobody. -/
theorem of_ok (h : ∃ a, e = .ok a) : BlamesCaller e := by
  obtain ⟨a, rfl⟩ := h
  exact nofun

/-- A sequence blames the caller if the steps that are reached do. -/
theorem bind {f : α → Except CompositionError β} (he : BlamesCaller e)
    (hf : ∀ a, e = .ok a → BlamesCaller (f a)) : BlamesCaller (e >>= f) := by
  cases e with
  | ok a => exact hf a rfl
  | error cause =>
    rintro _ ⟨⟩
    exact he cause rfl

/-- A demand that is met, or whose cause blames the caller. -/
theorem require {p : Prop} [Decidable p] {cause : CompositionError} (h : p ∨ cause.BlamesCaller) :
    BlamesCaller (require p cause) := by
  unfold Splice.require
  split
  · exact nofun
  · next hp =>
    rintro _ ⟨⟩
    exact h.resolve_left hp

/-- Operands are never refused as closures. -/
theorem asClosure (e : Expr) : BlamesCaller e.asClosure := by
  obtain ⟨c, hc, -⟩ := e.exists_asClosure
  exact .of_ok ⟨c, hc⟩

end BlamesCaller

namespace Compose

/-- A composition step blames the caller, whatever supply it finds. -/
def BlamesOnlyCaller (step : Compose α) : Prop := ∀ s, BlamesCaller (step.result s)

namespace BlamesOnlyCaller

/-- Accepting or refusing blames whom it blames, from every supply. -/
theorem lift {e : Except CompositionError α} (h : BlamesCaller e) :
    BlamesOnlyCaller (liftM e : Compose α) := fun _ => h

/-- A result alone blames nobody. -/
theorem pure (a : α) : BlamesOnlyCaller (Pure.pure a : Compose α) := fun _ => nofun

/-- What is thrown blames whom it blames. -/
theorem throw {cause : CompositionError} (h : cause.BlamesCaller) :
    BlamesOnlyCaller (MonadExcept.throw cause : Compose α) := by
  rintro _ _ ⟨⟩
  exact h

/-- A sequence of composition steps blames the caller if each of them does. -/
theorem bind {step : Compose α} {next : α → Compose β} (h : BlamesOnlyCaller step)
    (hnext : ∀ a, BlamesOnlyCaller (next a)) : BlamesOnlyCaller (step >>= next) := by
  intro s
  cases hr : step.result s with
  | error cause =>
    rw [result_bind_of_error hr]
    rintro _ ⟨⟩
    exact h s cause hr
  | ok a =>
    obtain ⟨s', ha⟩ := exists_gives_iff.2 hr
    rw [ha.result_bind]
    exact hnext a s'

/-- A variable is refused for its type. -/
theorem fresh (ty : Ty) : BlamesOnlyCaller (Var.fresh ty) := by
  refine bind (fun _ => nofun) fun id => lift ?_
  unfold Var.param
  split
  · rintro _ ⟨⟩
    trivial
  · exact nofun

/-- The state of a loop is refused for its type. -/
theorem freshState (init : Closure) : BlamesOnlyCaller (Closure.freshState init) :=
  bind (lift (.require (.inr trivial))) fun _ => fresh _

end BlamesOnlyCaller

/-- A sequence whose first step is refused is refused for its cause. -/
theorem blames_of_not_gives {step : Compose α} {next : α → Compose β} {s : Supply}
    (hstep : BlamesOnlyCaller step) (h : ∀ a s', ¬ Gives step s a s') :
    BlamesCaller ((step >>= next).result s) := by
  cases hr : step.result s with
  | ok a =>
    obtain ⟨s', ha⟩ := exists_gives_iff.2 hr
    exact absurd ha (h a s')
  | error cause =>
    rw [result_bind_of_error hr]
    rintro _ ⟨⟩
    exact hstep s cause hr

end Compose

/-! ## Handles of aligned pieces -/

namespace Handle

/-- A demand on the parameters of a handle that has them. -/
theorem blames_expectParams {role : Role} {h : Handle} {expected : List Ty}
    (hparams : h.params = expected) : BlamesCaller (expectParams role h expected) :=
  .require (.inl hparams)

/-- A demand on the result of a handle is one on a callback, or on what has been compared before. -/
theorem blames_expectReturn (role : Role) (h : Handle) (expected : Ty) :
    BlamesCaller (expectReturn role h expected) := .require (.inr trivial)

/-- A loop whose initial state has a value. -/
theorem blames_loopState_bind {init : Handle} {f : Ty → Except CompositionError Handle}
    (hvoid : init.ret ≠ .void) (hf : BlamesCaller (f init.ret)) :
    BlamesCaller (loopState init >>= f) := by
  rwa [loopState, if_neg hvoid]

variable {init first second : Handle}

/-- The handles of a loop with a test first have their parameters in the right places. -/
theorem blames_loopWhile (hvoid : init.ret ≠ .void)
    (hpred : first.params = init.ret :: init.params)
    (hbody : second.params = init.ret :: init.params) :
    BlamesCaller (loopWhile init first second) :=
  blames_loopState_bind hvoid <| .bind (blames_expectParams hpred) fun _ _ =>
    .bind (blames_expectReturn _ _ _) fun _ _ => .bind (blames_expectParams hbody) fun _ _ =>
    .bind (blames_expectReturn _ _ _) fun _ _ => nofun

/-- The handles of a loop with a test last have their parameters in the right places. -/
theorem blames_loopDoWhile (hvoid : init.ret ≠ .void)
    (hbody : first.params = init.ret :: init.params)
    (hpred : second.params = init.ret :: init.params) :
    BlamesCaller (loopDoWhile init first second) :=
  blames_loopState_bind hvoid <| .bind (blames_expectParams hbody) fun _ _ =>
    .bind (blames_expectReturn _ _ _) fun _ _ => .bind (blames_expectParams hpred) fun _ _ =>
    .bind (blames_expectReturn _ _ _) fun _ _ => nofun

/-- The handles of a counted loop have their parameters in the right places. -/
theorem blames_loopCounted {start stop body : Handle} (hvoid : init.ret ≠ .void)
    (hstart : start.params = init.params) (hstop : stop.params = init.params)
    (hbody : body.params = init.ret :: .int :: init.params) :
    BlamesCaller (loopCounted start stop init body) :=
  blames_loopState_bind hvoid <| .bind (blames_expectParams hstart) fun _ _ =>
    .bind (blames_expectReturn _ _ _) fun _ _ => .bind (blames_expectParams hstop) fun _ _ =>
    .bind (blames_expectReturn _ _ _) fun _ _ => .bind (blames_expectParams hbody) fun _ _ =>
    .bind (blames_expectReturn _ _ _) fun _ _ => nofun

/-- The handles of a loop over an iterator have their parameters in the right places. -/
theorem blames_loopIterated {source body : Handle} {elem : Ty} (hvoid : init.ret ≠ .void)
    (hret : source.ret = .iterator elem) (hsource : source.params = init.params)
    (hbody : body.params = init.ret :: elem :: init.params) :
    BlamesCaller (loopIterated source init body) := by
  refine blames_loopState_bind hvoid ?_
  rw [hret]
  exact .bind (blames_expectParams hsource) fun _ _ => .bind (blames_expectParams hbody) fun _ _ =>
    .bind (blames_expectReturn _ _ _) fun _ _ => nofun

end Handle

/-! ## Control constructs -/

namespace Control

open Compose (BlamesOnlyCaller)

variable {k : Control} {s s₁ : Supply} {ps : List Closure}

/-- A conditional is refused for the type of its condition or the types of its branches. -/
theorem blames_ifThenElse {cond accept reject : Expr}
    (h : ¬ (ifThenElse cond accept reject).Admits) :
    BlamesCaller (Closure.ifThenElse cond accept reject) := by
  -- if all four steps were accepted then the operands would be admitted
  refine .bind (.require (.inr trivial)) fun _ hcond => .bind (.asClosure _) fun a ha =>
    .bind (.asClosure _) fun r hr => .bind (.require (.inr trivial)) fun _ hty => absurd ?_ h
  have htypes := require_eq_ok_iff.1 hty
  rw [(Expr.asClosure_eq_ok ha).1, (Expr.asClosure_eq_ok hr).1] at htypes
  exact ⟨require_eq_ok_iff.1 hcond, htypes⟩

/-- A conditional without an alternative is refused for the type of its condition. -/
theorem blames_ifThen {cond accept : Expr} (h : cond.ty ≠ .bool) :
    BlamesCaller (Closure.ifThen cond accept) := by
  refine .bind (.asClosure _) fun a _ => .bind ?_ fun d _ => .bind ?_ fun none _ =>
    blames_ifThenElse fun hadmits => h hadmits.1
  · obtain ⟨d, hd, -⟩ := a.exists_cast_void
    exact .of_ok ⟨d, hd⟩
  · obtain ⟨c, hc, -⟩ := Closure.exists_constantVoid
    exact .of_ok ⟨c, hc⟩

/-- A loop with a test is refused for an initial state without a value. -/
theorem blames_testedLoop {what : String}
    {combine : Handle → Handle → Handle → Except CompositionError Handle} {init : Expr}
    {first second : Var → Compose Closure} (h : ¬ init.ty ≠ .void) :
    BlamesCaller ((Closure.testedLoop what combine init first second).result s) := by
  refine Compose.blames_of_not_gives ?_ fun (i, state) s' hgives => h ?_
  · exact .bind (.lift (.asClosure _)) fun i => .bind (.freshState i) fun _ => .pure _
  · obtain ⟨⟨hi, hvoid⟩, -⟩ := Closure.gives_initialState_iff.1 hgives
    rwa [(Expr.asClosure_eq_ok hi).1] at hvoid

/-- A loop over an iterator is refused for its source or its initial state. -/
theorem blames_iteratorLoop {source init : Expr} {body : Var → Var → Compose Closure}
    (h : ¬ (iteratorLoop source init body).Admits) :
    BlamesCaller ((Closure.iteratorLoop source init body).result s) := by
  refine Compose.blames_of_not_gives ?_ fun (src, i, state, element) s' hgives => h ?_
  · refine .bind (.lift (.asClosure _)) fun src => ?_
    -- what comes after the source is the same whatever its elements are
    have hrest : ∀ elem, BlamesOnlyCaller (do
        let init ← liftM init.asClosure
        let state ← Closure.freshState init
        return (src, init, state, ← Var.fresh elem)) := fun elem =>
      .bind (.lift (.asClosure _)) fun i => .bind (.freshState i) fun _ =>
        .bind (.fresh _) fun _ => .pure _
    split
    · exact .bind (.pure _) hrest
    · exact .bind (.throw trivial) hrest
  · obtain ⟨elem, ⟨hsrc, hty, helem⟩, ⟨hi, hvoid⟩, -⟩ :=
      Closure.gives_iteratorOperands_iff.1 hgives
    rw [(Expr.asClosure_eq_ok hsrc).1] at hty
    rw [(Expr.asClosure_eq_ok hi).1] at hvoid
    exact ⟨elem, hty, helem, hvoid⟩

/-- Operands that a construct does not admit are refused for what they are. -/
theorem blames_of_not_admits (h : ¬ k.Admits) : BlamesCaller (k.compose.result s) := by
  cases k with
  | ifThenElse cond accept reject => exact blames_ifThenElse h
  | ifThen cond accept => exact blames_ifThen h
  | whileLoop init pred body =>
    rw [compose, Closure.whileLoop_eq_testedLoop]
    exact blames_testedLoop h
  | doWhileLoop init body pred =>
    rw [compose, Closure.doWhileLoop_eq_testedLoop]
    exact blames_testedLoop h
  | countedLoop start stop init body =>
    refine Compose.blames_of_not_gives ?_ fun operands s' hgives => h ?_
    · exact .bind (.lift (.asClosure _)) fun a => .bind (.lift (.asClosure _)) fun e =>
        .bind (.lift (.require (.inr trivial))) fun _ =>
        .bind (.lift (.require (.inr trivial))) fun _ =>
        .bind (.lift (.asClosure _)) fun i => .bind (.freshState i) fun _ =>
        .bind (.fresh _) fun _ => .pure _
    · obtain ⟨a, e, i, state, index⟩ := operands
      obtain ⟨⟨ha, haty⟩, ⟨he, hety⟩, ⟨hi, hvoid⟩, -⟩ :=
        Closure.gives_countedOperands_iff.1 hgives
      rw [(Expr.asClosure_eq_ok ha).1] at haty
      rw [(Expr.asClosure_eq_ok he).1] at hety
      rw [(Expr.asClosure_eq_ok hi).1] at hvoid
      exact ⟨haty, hety, hvoid⟩
  | iteratorLoop source init body => exact blames_iteratorLoop h
  | iterableLoop list init body =>
    change BlamesCaller ((liftM (Closure.iteratorOf list) >>= fun src =>
      Closure.iteratorLoop (.closure src) init body : Compose Closure).result s)
    rw [Compose.result_lift_bind]
    -- a loop over a list blames its caller for the list before there is an iterator, and then for
    -- the rest
    by_cases hlist : ∃ elem, list.ty = .list elem
    · obtain ⟨elem, hlist⟩ := hlist
      obtain ⟨src, hsrc, hty, -⟩ := Closure.exists_iteratorOf hlist
      rw [hsrc]
      refine blames_iteratorLoop fun hadmits => h ?_
      obtain ⟨elem', hty', helem, hvoid⟩ := hadmits
      obtain rfl := Ty.iterator.inj (hty.symm.trans hty')
      exact ⟨elem, hlist, helem, hvoid⟩
    · have hother : Closure.iteratorOf list = .error (.listSource list.ty) := by
        unfold Closure.iteratorOf
        split
        · next elem hty => exact absurd ⟨elem, hty⟩ hlist
        · rfl
      rw [hother]
      rintro _ ⟨⟩
      trivial
  | catchException body cls handler => exact absurd trivial h
  | tryFinally body cleanup => exact absurd trivial h

/-- Aligned pieces of a loop with a test make a loop unless their types are wrong. -/
theorem blames_testedLoop_of_pieces {what : String}
    {combine : Handle → Handle → Handle → Except CompositionError Handle}
    {make : Handle → Handle → Handle → Handle} {fits : Ty → Ty → Ty → Prop}
    {turn : (Value → Behaviour Value) → (Value → Behaviour Value) →
      Value → Behaviour (Value ⊕ Value)}
    (hcombines : Closure.Combines combine make fits turn)
    (hblames : ∀ {i x y : Handle}, i.ret ≠ .void → x.params = i.ret :: i.params →
      y.params = i.ret :: i.params → BlamesCaller (combine i x y))
    {init : Expr} {first second : Var → Compose Closure} (hvoid : init.ty ≠ .void)
    (hps : Gives ([first, second].mapM (· (s.nextVar init.ty))) s.openScope ps s₁) :
    BlamesCaller ((Closure.testedLoop what combine init first second).result s) := by
  obtain ⟨x, y, s₂, hx, hy, -⟩ := gives_pieces_two_iff.1 hps
  obtain ⟨i, ai, ax, ay, vars, hi, hri, hrx, hry, -, hresult⟩ :=
    Closure.exists_aligned_testedLoop what combine hvoid hx hy
  have hret : ai.handle.ret = init.ty := hri.ret_eq.trans (Expr.asClosure_eq_ok hi).1
  rw [hresult]
  -- the parameters are those of the initial state, which alignment has given to all handles
  refine .bind (hblames ?_ ?_ ?_) fun h hh => .of_ok ?_
  · rwa [hret]
  · rw [hrx.params_eq, hri.params_eq, hret]
    rfl
  · rw [hry.params_eq, hri.params_eq, hret]
    rfl
  · rw [((hcombines.combine_eq_ok_iff _ _ _ _).1 hh).2]
    exact hri.exists_wire (congrArg Signature.params (hcombines.sig_eq _ _ _))

/-- Aligned pieces of a loop over an iterator make a loop unless their types are wrong. -/
theorem blames_iteratorLoop_of_pieces {source init : Expr} {body : Var → Var → Compose Closure}
    {elem : Ty} (hsource : source.ty = .iterator elem) (helem : elem ≠ .void)
    (hvoid : init.ty ≠ .void)
    (hps : Gives ([body].mapM (· (s.nextVar init.ty) (s.openScope.nextVar elem)))
      s.openScope.openScope ps s₁) :
    BlamesCaller ((Closure.iteratorLoop source init body).result s) := by
  obtain ⟨b, hb, -⟩ := gives_pieces_one_iff.1 hps
  obtain ⟨src, i, as, ai, ab, vars, ⟨hsrc, hi⟩, hrs, hri, hrb, -, hresult⟩ :=
    Closure.exists_aligned_iteratorLoop hsource helem hvoid hb
  have hret : ai.handle.ret = init.ty := hri.ret_eq.trans (Expr.asClosure_eq_ok hi).1
  have hsty : as.handle.ret = .iterator elem :=
    hrs.ret_eq.trans ((Expr.asClosure_eq_ok hsrc).1.trans hsource)
  rw [hresult]
  refine .bind (Handle.blames_loopIterated ?_ hsty ?_ ?_) fun h hh => .of_ok ?_
  · rwa [hret]
  · rw [hrs.params_eq, hri.params_eq]
  · rw [hrb.params_eq, hri.params_eq, hret]
    rfl
  · rw [(Handle.loopIterated_eq_ok_iff.1 hh).2]
    exact hri.exists_wire rfl

/-- A body and what goes on behind it are put together unless their types differ. -/
theorem blames_resumption {combine : Handle → Handle → Except CompositionError Handle}
    {make : Handle → Handle → Handle} {body : Expr} {b : Closure} {own : List Var}
    (hresumes : Closure.Resumes combine make b own) (hbody : body.asClosure = .ok b)
    (hnodup : own.Nodup) (hown : ∀ v ∈ own, v.ty ≠ .void) {p : Closure} {piece : Compose Closure}
    (hp : Gives piece s p s₁) (role : Role) (line : Unifier → String) :
    BlamesCaller ((Closure.resumption role line combine b own piece).result s) := by
  obtain ⟨hb, hp', vars, hrb, hrp, -, hresult⟩ :=
    Closure.exists_aligned_resumption hbody hnodup hown hp role line combine
  rw [hresult]
  refine .bind (.require (.inr trivial)) fun _ hty => ?_
  -- the types have been compared, so the combination is accepted
  have hcombined := (hresumes.combine_eq_ok_iff hrb hrp).2 ⟨require_eq_ok_iff.1 hty, rfl⟩
  rw [hcombined]
  exact .of_ok (hrb.exists_wire (congrArg Signature.params (hresumes.sig_eq _ _)))

/-- Pieces are refused for their types only: everything else about them is as it has to be. -/
theorem blames_of_pieces (hadmits : k.Admits) (hps : Gives (k.pieces s) (k.opened s) ps s₁) :
    BlamesCaller (k.compose.result s) := by
  -- conditionals have no pieces, and are accepted outright
  cases k with
  | ifThenElse cond accept reject =>
    obtain ⟨c, hc, -⟩ := Closure.exists_ifThenElse hadmits.1 hadmits.2
    exact .of_ok ⟨c, hc⟩
  | ifThen cond accept =>
    obtain ⟨c, hc, -⟩ : ∃ c, Closure.ifThen cond accept = .ok c ∧ _ :=
      Closure.exists_ifThen hadmits
    exact .of_ok ⟨c, hc⟩
  | whileLoop init pred body =>
    rw [compose, Closure.whileLoop_eq_testedLoop]
    exact blames_testedLoop_of_pieces Closure.combines_loopWhile Handle.blames_loopWhile hadmits hps
  | doWhileLoop init body pred =>
    rw [compose, Closure.doWhileLoop_eq_testedLoop]
    exact blames_testedLoop_of_pieces Closure.combines_loopDoWhile Handle.blames_loopDoWhile hadmits
      hps
  | countedLoop start stop init body =>
    obtain ⟨hstart, hstop, hvoid⟩ := hadmits
    obtain ⟨b, hb, -⟩ := gives_pieces_one_iff.1 hps
    obtain ⟨a, e, i, aa, ae, ai, ab, vars, ⟨ha, he, hi⟩, hra, hre, hri, hrb, -, hresult⟩ :=
      Closure.exists_aligned_countedLoop hstart hstop hvoid hb
    have hret : ai.handle.ret = init.ty := hri.ret_eq.trans (Expr.asClosure_eq_ok hi).1
    rw [compose, hresult]
    refine .bind (Handle.blames_loopCounted ?_ ?_ ?_ ?_) fun h hh => .of_ok ?_
    · rwa [hret]
    · rw [hra.params_eq, hri.params_eq]
    · rw [hre.params_eq, hri.params_eq]
    · rw [hrb.params_eq, hri.params_eq, hret]
      rfl
    · rw [(Handle.loopCounted_eq_ok_iff.1 hh).2]
      exact hri.exists_wire rfl
  | iteratorLoop source init body =>
    obtain ⟨elem, hsource, helem, hvoid⟩ := hadmits
    rw [pieces, hsource] at hps
    exact blames_iteratorLoop_of_pieces hsource helem hvoid hps
  | iterableLoop list init body =>
    obtain ⟨elem, hlist, helem, hvoid⟩ := hadmits
    obtain ⟨src, hsrc, hty, -⟩ := Closure.exists_iteratorOf hlist
    have hsource : (Expr.closure src).ty = .iterator elem := hty
    rw [pieces, hlist] at hps
    change BlamesCaller ((liftM (Closure.iteratorOf list) >>= fun src =>
      Closure.iteratorLoop (.closure src) init body : Compose Closure).result s)
    rw [Compose.result_lift_bind, hsrc]
    exact blames_iteratorLoop_of_pieces hsource helem hvoid hps
  | catchException body cls handler =>
    obtain ⟨p, hp, -⟩ := gives_pieces_one_iff.1 hps
    obtain ⟨b, hb, -⟩ := body.exists_asClosure
    have hoperands := (Closure.gives_catchOperands_iff (s := s)).2 ⟨hb, rfl, rfl⟩
    have hown : ∀ v ∈ [s.nextVar .error], v.ty ≠ .void :=
      List.forall_mem_singleton.2 (by decide : Ty.error ≠ .void)
    have hresumes := Closure.resumes_catchException b cls (rfl : (s.nextVar .error).ty = .error)
    have hblames := blames_resumption hresumes hb (by simp) hown hp .exceptionHandler
      fun u => s!"catch {cls} over {Var.listText u.vars}"
    rwa [compose, Closure.catchException, Compose.within_eq, hoperands.result_bind]
  | tryFinally body cleanup =>
    obtain ⟨p, hp, -⟩ := gives_pieces_one_iff.1 hps
    obtain ⟨b, hb, hty, -⟩ := body.exists_asClosure
    rw [opened, ← hty] at hp
    have hoperands := (Closure.gives_cleanupOperands_iff (s := s)).2 ⟨hb, rfl, rfl, rfl⟩
    have hresumes := Closure.resumes_tryFinally b (Closure.map_ty_cleanupVars s b.ty)
    have hblames := blames_resumption hresumes hb (Closure.nodup_cleanupVars s b.ty)
      Closure.ty_ne_void_of_mem_cleanupVars hp .cleanup
      fun u => s!"try-finally over {Var.listText u.vars}"
    rwa [compose, Closure.tryFinally, Compose.within_eq, hoperands.result_bind]

/-- If the callbacks of a construct give pieces whenever they are called, it is refused for the
types of operands and pieces only. -/
theorem failsFor_types (hok : k.Admits → ∃ ps s₁, Gives (k.pieces s) (k.opened s) ps s₁) :
    FailsFor (k.compose.result s) (¬ k.Admits ∨
      ∃ ps s₁, Gives (k.pieces s) (k.opened s) ps s₁ ∧ ps.map Closure.ty ≠ k.wanted) := by
  have haccepted : (∃ c, k.compose.result s = .ok c) ↔ ∃ c s', Gives k.compose s c s' :=
    exists_congr fun c => Compose.exists_gives_iff.symm
  by_cases hadmits : k.Admits
  · -- the construct is made of its pieces if their types are wanted, which decides both directions
    obtain ⟨ps, s₁, hps⟩ := hok hadmits
    obtain ⟨d, -, hd⟩ := exists_made hadmits hps
    refine ⟨?_, blames_of_pieces hadmits hps⟩
    rw [exists_error_iff, haccepted]
    constructor
    · intro hrefused
      exact .inr ⟨ps, s₁, hps, fun htypes => hrefused ⟨d, (hd d).2 ⟨htypes, rfl⟩⟩⟩
    · rintro (hnot | ⟨ps', s₁', hps', htypes⟩) ⟨c, s', hc⟩
      · exact hnot hadmits
      · obtain ⟨rfl, -⟩ := hps.unique hps'
        exact htypes ((hd c).1 ⟨s', hc⟩).1
  · refine ⟨?_, blames_of_not_admits hadmits⟩
    rw [exists_error_iff, haccepted]
    exact ⟨fun _ => .inl hadmits, fun _ ⟨c, s', hc⟩ => hadmits (pieces_of_gives hc).1⟩

end Control

/-! ## Functions and blocks -/

namespace Scope

variable {b : Scope} {e : Expr}

/-- Only a variable of another scope is refused in an assignment. -/
theorem blames_assign : BlamesCaller (b.assign e) := by
  refine .bind (.asClosure e) fun c _ => ?_
  intro cause hcause
  rw [Scope.assignClosure] at hcause
  split at hcause
  · obtain rfl := Except.error.inj hcause
    trivial
  · cases hcause

/-- A function refuses an expression that reads variables of other scopes, and a block refuses
none. -/
theorem failsFor_foreign :
    FailsFor (b.assign e) (b.capturing = false ∧ ∃ v ∈ e.reads, v.scope ≠ b.id) := by
  refine ⟨?_, blames_assign⟩
  have hiff := Scope.exists_assign_iff (s := b) (e := e)
  rw [exists_error_iff, Prod.exists, hiff]
  cases b.capturing <;> simp

/-- An expression cannot be returned for the same cause for which it cannot be assigned. -/
theorem returned_eq_error_iff {cause : CompositionError} :
    b.returned e = .error cause ↔ b.assign e = .error cause := by
  cases e with
  | closure c => exact Iff.rfl
  | var w =>
    -- a variable of the scope itself can be assigned, as it reads no others, so neither side holds
    rw [returned]
    by_cases hown : w.scope = b.id
    · have hreads : ∀ v ∈ Expr.reads (.var w), v.scope = b.id := fun v hv => by
        have hmem : v ∈ [w] := (List.mem_filter.1 hv).1
        rw [List.mem_singleton.1 hmem, hown]
      obtain ⟨v, next, hassign⟩ := Scope.exists_assign_iff.2 (.inr hreads)
      rw [if_pos hown, hassign]
      simp
    · rw [if_neg hown]

/-- A function fails for the cause for which its result cannot be returned. -/
theorem result_buildFunction_of_error {cause : CompositionError} {s : Supply}
    (h : b.returned e = .error cause) : (b.buildFunction e).result s = .error cause := by
  rw [buildFunction, h]
  rfl

/-- A block fails for the cause for which its result cannot be returned. -/
theorem result_buildBlock_of_error {cause : CompositionError} {s : Supply}
    (h : b.returned e = .error cause) : (b.buildBlock e).result s = .error cause := by
  rw [buildBlock, h]
  rfl

end Scope

/-- What can be returned can be built, as a function and as a block. -/
theorem Grown.exists_built {id : Nat} {capturing : Bool} {history : History} {b next : Scope}
    {ret : Expr} {v : Var} (hb : Grown id capturing history b) (hknows : history.Knows id ret)
    (hr : b.returned ret = .ok (v, next)) (s : Supply) :
    (∃ h, (b.buildFunction ret).result s = .ok h) ∧ ∃ c, (b.buildBlock ret).result s = .ok c := by
  obtain ⟨h, hh, hparams, -⟩ := hb.exists_build hknows hr s
  have hwire : Closure.wire h next.inputs = .ok ⟨h, next.inputs, hparams.symm⟩ :=
    Closure.wire_eq_ok_iff.2 ⟨rfl, rfl⟩
  exact ⟨⟨h, (Scope.result_buildFunction hr s).trans hh⟩, _, Scope.result_buildBlock hr hh hwire⟩

/-- Building fails for the cause for which the returned expression cannot be assigned, and for no
other one. -/
theorem Grown.result_eq_error_iff {id : Nat} {capturing : Bool} {history : History} {b : Scope}
    {ret : Expr} (hb : Grown id capturing history b) (hknows : history.Knows id ret) (s : Supply)
    (cause : CompositionError) :
    ((b.buildFunction ret).result s = .error cause ↔ b.assign ret = .error cause) ∧
      ((b.buildBlock ret).result s = .error cause ↔ b.assign ret = .error cause) := by
  rw [← Scope.returned_eq_error_iff]
  cases hr : b.returned ret with
  | error cause' =>
    rw [Scope.result_buildFunction_of_error hr, Scope.result_buildBlock_of_error hr]
    simp
  | ok result =>
    obtain ⟨v, next⟩ := result
    obtain ⟨⟨h, hh⟩, c, hc⟩ := hb.exists_built hknows hr s
    rw [hh, hc]
    simp

/-! ## Sessions -/

namespace Session

/-- A control construct whose callbacks give pieces is refused exactly when the types of its
operands or pieces do not fit. In every session, a function refuses to assign exactly what reads
variables of other scopes, and a block refuses nothing; both are built unless the returned
expression cannot be assigned, and always if they return none. No cause is about anything but what
the caller has given. -/
theorem refused_for_mistakes {supply : Supply} {t : Session} (ht : Leads { supply } t) :
    (∀ (k : Control) (s : Supply),
      (k.Admits → ∃ ps s₁, Gives (k.pieces s) (k.opened s) ps s₁) →
      FailsFor (k.compose.result s) (¬ k.Admits ∨
        ∃ ps s₁, Gives (k.pieces s) (k.opened s) ps s₁ ∧ ps.map Closure.ty ≠ k.wanted)) ∧
    ∀ b ∈ t.scopes,
      (∀ e, t.Has e →
        FailsFor (b.assign e) (b.capturing = false ∧ ∃ v ∈ e.reads, v.scope ≠ b.id)) ∧
      (∀ ret, t.Has ret → ∀ s cause,
        ((b.buildFunction ret).result s = .error cause ↔ b.assign ret = .error cause) ∧
        ((b.buildBlock ret).result s = .error cause ↔ b.assign ret = .error cause)) ∧
      ∀ s, (∃ h, b.buildFunctionVoid.result s = .ok h) ∧
        ∃ c, b.buildBlockVoid.result s = .ok c := by
  have hsound := ht.sound (.start supply)
  refine ⟨fun k s => Control.failsFor_types, fun b hb => ?_⟩
  obtain ⟨history, hgrown, hgiven⟩ := (hsound.scopes_sound b hb).grown
  refine ⟨fun e _ => Scope.failsFor_foreign, fun ret hret s cause => ?_, fun s => ?_⟩
  · -- what is returned has been made in the session, so the function knows it as its own
    refine hgrown.result_eq_error_iff (fun v hv hid => hgiven v ?_ hid) s cause
    exact hsound.made_of_has hret v hv
  · obtain ⟨c, hc, -, hreads, hknows, -⟩ := History.exists_constantVoid b.id history
    have hown : ∀ v ∈ Expr.reads (.closure c), v.scope = b.id := by simp [hreads]
    obtain ⟨v, next, hr⟩ := Scope.exists_returned_iff.2 (.inr hown)
    rw [Scope.buildFunctionVoid, Scope.buildBlockVoid, hc]
    exact hgrown.exists_built hknows hr s

/-- Two functions, each with a parameter. A loop whose test gives a number is refused, the first
function refuses to assign the parameter of the second, and it can be built to return its own. -/
theorem refused_for_mistakes_in_function :
    let p : Var := ⟨1, 0, true, .int⟩
    let q : Var := ⟨2, 0, true, .int⟩
    let function : Scope := ⟨1, false, [p], [], 1⟩
    let state (v : Var) : Compose Closure := liftM (Expr.var v).asClosure
    (∀ s, ∃ cause, (Closure.whileLoop (.var p) state state).result s = .error cause ∧
      cause.BlamesCaller) ∧
    (∃ cause, function.assign (.var q) = .error cause ∧ cause.BlamesCaller) ∧
    ∀ s, ∃ h, (function.buildFunction (.var p)).result s = .ok h := by
  intro p q function state
  have hdeclared : Leads { supply := {} }
      { supply := Supply.openScope {}, made := [p], scopes := [function] } :=
    .declared (.openedFunction .refl rfl) (show _ = [] ++ _ :: [] from rfl) rfl
      (show Scope.addParam ⟨1, false, [], [], 0⟩ .int = _ from rfl)
  have hboth : Leads { supply := {} }
      { supply := (Supply.openScope {}).openScope, made := [p, q],
        scopes := [⟨2, false, [q], [], 1⟩, function] } :=
    .declared (.openedFunction hdeclared rfl) (show _ = [] ++ _ :: [_] from rfl) rfl
      (show Scope.addParam ⟨2, false, [], [], 0⟩ .int = _ from rfl)
  obtain ⟨hcontrol, hscopes⟩ := refused_for_mistakes hboth
  obtain ⟨hassign, hbuild, -⟩ := hscopes function (by simp)
  refine ⟨fun s => ?_, ?_, fun s => ?_⟩
  · let k : Control := .whileLoop (.var p) state state
    obtain ⟨c, hc, hty, -⟩ := (Expr.var (s.nextVar .int)).exists_asClosure
    have hstate : Gives (state (s.nextVar .int)) s.openScope c s.openScope :=
      Compose.gives_lift_iff.2 ⟨hc, rfl⟩
    have hpieces : Gives (k.pieces s) (k.opened s) [c, c] s.openScope :=
      Control.gives_pieces_two_iff.2 ⟨c, c, s.openScope, hstate, hstate, rfl⟩
    obtain ⟨hrefused, hblames⟩ := hcontrol k s fun _ => ⟨_, _, hpieces⟩
    have htypes : [c, c].map Closure.ty ≠ k.wanted := by
      rw [List.map_cons, hty]
      exact fun h => nomatch (List.cons.inj h).1
    obtain ⟨cause, hcause⟩ := hrefused.2 (.inr ⟨_, _, hpieces, htypes⟩)
    exact ⟨cause, hcause, hblames cause hcause⟩
  · obtain ⟨hrefused, hblames⟩ := hassign (.var q) (show q ∈ [p, q] by simp)
    obtain ⟨cause, hcause⟩ := hrefused.2 ⟨rfl, q, by decide, by decide⟩
    exact ⟨cause, hcause, hblames cause hcause⟩
  · have hown : ¬ ∃ cause, function.assign (.var p) = .error cause := by
      rw [(hassign (.var p) List.mem_cons_self).refused_iff]
      decide
    cases hresult : (function.buildFunction (.var p)).result s with
    | ok h => exact ⟨h, rfl⟩
    | error cause =>
      exact absurd ⟨cause, ((hbuild (.var p) List.mem_cons_self s cause).1).1 hresult⟩ hown

end Session

end Splice

import Splice.Proofs.Closure.Catching
import Splice.Proofs.Closure.Cleanup
import Splice.Proofs.Closure.CountedLoop
import Splice.Proofs.Closure.IteratorLoop
import Splice.Proofs.Closure.WhileLoop
import Splice.Stock

/-!
# Nested handlers and cleanups

Handlers and cleanups stand around a body in any number and order. Each of them sees of what is
inside it no more than how that ends, and those outside see no more than how the handler or the
cleanup ends. The two main statements say what a handler and what a cleanup is accepted for and what
it does, alone and at every place of a nest; a cleanup in the step of a loop does so in every turn.
-/

namespace Splice

namespace Closure

open Compose

/-- What stands around a computation: a handler of a class, or a cleanup behind results of a
type. -/
inductive Guard where
  | catching (cls : String) (error : Var) (handler : Closure)
  | cleaning (ty : Ty) (error : Var) (result : Option Var) (cleanup : Closure)

namespace Guard

/-- The ends of a computation with a guard around it. -/
def around (env : Env) (inner : Behaviour Value) : Guard → Behaviour Value
  | catching cls error handler =>
    inner.Recovered cls fun e => handler.Ends (env.bind error (.error e))
  | cleaning ty error result cleanup =>
    inner.Finalized fun outcome => cleanup.Ends (env.bindOutcome ty error result outcome)

/-- The ends of a computation with guards around it, the innermost one first. -/
def aroundAll (env : Env) (guards : List Guard) (inner : Behaviour Value) : Behaviour Value :=
  guards.foldl (around env) inner

/-- Whether a guard is a handler of another class than the exception's. -/
def Passes (e : Exception) (g : Guard) : Prop :=
  ∃ cls error handler, g = catching cls error handler ∧ ¬ (cls = "Exception" ∨ e.cls = cls)

variable {env : Env} {inner inner' : Behaviour Value} {w w₁ : World} {o : Outcome Value}

/-- A guard sees nothing of what is inside it but how that ends. -/
theorem around_congr (h : ∀ o, inner w o ↔ inner' w₁ o) (g : Guard) :
    around env inner g w o ↔ around env inner' g w₁ o := by
  -- one direction is enough, as the hypothesis is symmetric
  have himp : ∀ {i i' : Behaviour Value} {w w₁ o}, (∀ o, i w o → i' w₁ o) →
      around env i g w o → around env i' g w₁ o := by
    intro i i' w w₁ o h
    cases g with
    | catching cls error handler =>
      rintro (hreturns | ⟨hfails, he, hhandler⟩ | ⟨hfails, he⟩)
      · exact .returns (h _ hreturns)
      · exact .handled (h _ hfails) he hhandler
      · exact .passed (h _ hfails) he
    | cleaning ty error result cleanup =>
      rintro (⟨hreturns, hcleanup⟩ | ⟨hfails, hcleanup⟩ | ⟨hfails, hcleanup⟩)
      · exact .cleaned (h _ hreturns) hcleanup
      · exact .rethrown (h _ hfails) hcleanup
      · exact .replaced (h _ hfails) hcleanup
  exact ⟨himp fun o => (h o).1, himp fun o => (h o).2⟩

theorem aroundAll_congr {guards : List Guard} (h : ∀ o, inner w o ↔ inner' w₁ o) :
    aroundAll env guards inner w o ↔ aroundAll env guards inner' w₁ o := by
  -- the list grows outwards, so the hypothesis is about what all the guards in front make of the
  -- run
  induction guards generalizing inner inner' with
  | nil => exact h o
  | cons g outside ih => exact ih fun o => around_congr h g

/-- In the midst of guards, one of them sees those inside, and is seen by those outside. -/
theorem aroundAll_append_cons {inside outside : List Guard} {g : Guard} :
    aroundAll env (inside ++ g :: outside) inner =
      aroundAll env outside (around env (aroundAll env inside inner) g) := by
  rw [aroundAll, List.foldl_append]
  rfl

/-- Handlers of other classes let an exception through. -/
theorem aroundAll_iff_of_passes {guards : List Guard} {e : Exception}
    (hinner : ∀ o, inner w o ↔ o = .thrown e w₁) (hpasses : ∀ g ∈ guards, g.Passes e) :
    aroundAll env guards inner w o ↔ o = .thrown e w₁ := by
  induction guards generalizing inner with
  | nil => exact hinner o
  | cons g outside ih =>
    obtain ⟨cls, error, handler, rfl, hcls⟩ := hpasses g List.mem_cons_self
    exact ih (fun o => Behaviour.recovered_iff_of_passed hinner hcls)
      fun g' hg' => hpasses g' (List.mem_cons_of_mem _ hg')

/-- Guards around what runs with bounded loops are again such a run. -/
theorem exists_steady_aroundAll {x : Nat → Exec Value} (hx : Exec.Steady x) (env : Env)
    (guards : List Guard) :
    ∃ y, Exec.Steady y ∧ aroundAll env guards (Exec.Ends x) = Exec.Ends y := by
  induction guards generalizing x with
  | nil => exact ⟨x, hx, rfl⟩
  | cons g outside ih =>
    cases g with
    | catching cls error handler =>
      have hhandler := fun e => handler.steady_eval (env.bind error (.error e))
      have hrecover : Exec.Steady fun turns => (x turns).recover cls fun e =>
          handler.eval turns (env.bind error (.error e)) := Exec.steady_recover hx hhandler
      obtain ⟨y, hy, hends⟩ := ih hrecover
      refine ⟨y, hy, Eq.trans ?_ hends⟩
      exact congrArg (aroundAll env outside) (Exec.ends_recover hx hhandler).symm
    | cleaning ty error result cleanup =>
      have hcleanup := fun outcome => cleanup.steady_eval (env.bindOutcome ty error result outcome)
      obtain ⟨y, hy, hends⟩ := ih (Exec.steady_finalize hx hcleanup)
      refine ⟨y, hy, Eq.trans ?_ hends⟩
      exact congrArg (aroundAll env outside) (Exec.ends_finalize hx hcleanup).symm

/-- A guarded operand has one end at most. -/
theorem aroundAll_iff_eq {guards : List Guard} {body : Expr} {o : Outcome Value}
    (h : aroundAll env guards (body.RunEnds env) w o) (o' : Outcome Value) :
    aroundAll env guards (body.RunEnds env) w o' ↔ o' = o := by
  obtain ⟨y, hy, hends⟩ := exists_steady_aroundAll (body.steady_run env) env guards
  unfold Expr.RunEnds at h ⊢
  rw [hends] at h ⊢
  exact Exec.Ends.iff_eq hy h o'

end Guard

open Guard (aroundAll)

/-- A closure is a body with guards around it, the innermost one first. What is said of a guard is
said of every place, with guards inside and outside of it. -/
structure Guarded (c : Closure) (body : Expr) (guards : List Guard) : Prop where
  ends_eq : ∀ env, c.Ends env = aroundAll env guards (body.RunEnds env)
  ends_iff_of_returned : ∀ env w v w' o inside cls error handler outside,
    guards = inside ++ .catching cls error handler :: outside →
    aroundAll env inside (body.RunEnds env) w (.ok v w') →
    (c.Ends env w o ↔ aroundAll env outside (fun w o => o = .ok v w) w' o)
  ends_iff_of_passed : ∀ env w e w' o inside cls error handler outside,
    guards = inside ++ .catching cls error handler :: outside →
    aroundAll env inside (body.RunEnds env) w (.thrown e w') → ¬ (cls = "Exception" ∨ e.cls = cls) →
    (c.Ends env w o ↔ aroundAll env outside (fun w o => o = .thrown e w) w' o)
  ends_iff_of_handled : ∀ env w e w' o inside cls error handler outside,
    guards = inside ++ .catching cls error handler :: outside →
    aroundAll env inside (body.RunEnds env) w (.thrown e w') → cls = "Exception" ∨ e.cls = cls →
    (c.Ends env w o ↔ aroundAll env outside (handler.Ends (env.bind error (.error e))) w' o)
  /-- An exception of the body goes to the innermost handler of its class. -/
  ends_iff_of_innermost : ∀ env w e w' o inside cls error handler outside,
    guards = inside ++ .catching cls error handler :: outside →
    body.RunEnds env w (.thrown e w') → (∀ g ∈ inside, g.Passes e) →
    cls = "Exception" ∨ e.cls = cls →
    (c.Ends env w o ↔ aroundAll env outside (handler.Ends (env.bind error (.error e))) w' o)
  ends_iff_of_cleaned : ∀ env w v w' o inside ty error result cleanup outside,
    guards = inside ++ .cleaning ty error result cleanup :: outside →
    aroundAll env inside (body.RunEnds env) w (.ok v w') →
    (c.Ends env w o ↔
      aroundAll env outside (cleanup.Ends (env.bindOutcome ty error result (.ok v))) w' o)
  ends_iff_of_rethrown : ∀ env w e w' o inside ty error result cleanup outside,
    guards = inside ++ .cleaning ty error result cleanup :: outside →
    aroundAll env inside (body.RunEnds env) w (.thrown e w') →
    (c.Ends env w o ↔
      aroundAll env outside ((cleanup.Ends (env.bindOutcome ty error result (.error e))).Then
        fun _ w o => o = .thrown e w) w' o)

/-- What follows from the ends of a body with guards. -/
theorem guarded_of_ends_eq {c : Closure} {body : Expr} {guards : List Guard}
    (hends : ∀ env, c.Ends env = aroundAll env guards (body.RunEnds env)) :
    c.Guarded body guards := by
  refine ⟨hends, ?_, ?_, ?_, ?_, ?_, ?_⟩
  · rintro env w v w' o inside cls error handler outside rfl hinside
    rw [hends, Guard.aroundAll_append_cons]
    exact Guard.aroundAll_congr fun o =>
      Behaviour.recovered_iff_of_ok (Guard.aroundAll_iff_eq hinside)
  · rintro env w e w' o inside cls error handler outside rfl hinside hcls
    rw [hends, Guard.aroundAll_append_cons]
    exact Guard.aroundAll_congr fun o =>
      Behaviour.recovered_iff_of_passed (Guard.aroundAll_iff_eq hinside) hcls
  · rintro env w e w' o inside cls error handler outside rfl hinside hcls
    rw [hends, Guard.aroundAll_append_cons]
    exact Guard.aroundAll_congr fun o =>
      Behaviour.recovered_iff_of_handled (Guard.aroundAll_iff_eq hinside) hcls
  · rintro env w e w' o inside cls error handler outside rfl hbody hinside hcls
    rw [hends, Guard.aroundAll_append_cons]
    have hpassed : ∀ o, aroundAll env inside (body.RunEnds env) w o ↔ o = .thrown e w' :=
      fun _ => Guard.aroundAll_iff_of_passes (Expr.runEnds_iff_eq hbody) hinside
    exact Guard.aroundAll_congr fun o => Behaviour.recovered_iff_of_handled hpassed hcls
  · rintro env w v w' o inside ty error result cleanup outside rfl hinside
    rw [hends, Guard.aroundAll_append_cons]
    exact Guard.aroundAll_congr fun o =>
      Behaviour.finalized_iff_of_ok (Guard.aroundAll_iff_eq hinside)
  · rintro env w e w' o inside ty error result cleanup outside rfl hinside
    rw [hends, Guard.aroundAll_append_cons]
    exact Guard.aroundAll_congr fun o =>
      Behaviour.finalized_iff_of_thrown (Guard.aroundAll_iff_eq hinside)

/-! ## Composed nests -/

/-- A guard to compose: a class with a callback for its handler, or a callback for a cleanup. -/
inductive Level where
  | catching (cls : String) (handler : Var → Compose Closure)
  | cleaning (cleanup : Var → Option Var → Compose Closure)

/-- Composes a guard around an operand. -/
def Level.compose (inner : Expr) : Level → Compose Closure
  | catching cls handler => catchException inner cls handler
  | cleaning cleanup => tryFinally inner cleanup

/-- Composes guards around a body, the innermost one first. -/
def guardWith (body : Expr) : List Level → Compose Closure
  | [] => body.asClosure
  | level :: outside => do
    let inner ← level.compose body
    guardWith inner outside

/-- A guard of what a callback has composed for variables of its own. -/
inductive ComposedBy (ty : Ty) : Guard → Level → Prop
  | catching {s s₁ : Supply} {p : Closure} {cls : String} {handler : Var → Compose Closure} :
      Gives (handler (s.nextVar .error)) s.openScope p s₁ →
      ComposedBy ty (.catching cls (s.nextVar .error) p) (.catching cls handler)
  | cleaning {s s₁ : Supply} {p : Closure} {cleanup : Var → Option Var → Compose Closure} :
      Gives (cleanup (s.nextVar .error) (resultVar s ty)) (openCleanup s ty) p s₁ →
      ComposedBy ty (.cleaning ty (s.nextVar .error) (resultVar s ty) p) (.cleaning cleanup)

variable {body : Expr} {s : Supply}

/-- What an accepted guard around an operand is. -/
theorem exists_guard_of_compose {level : Level} {c : Closure} {s' : Supply}
    (h : Gives (level.compose body) s c s') :
    ∃ g, ComposedBy body.ty g level ∧ c.ty = body.ty ∧
      ∀ env, c.Ends env = g.around env (body.RunEnds env) := by
  cases level with
  | catching cls handler =>
    obtain ⟨p, s₁, hp, -, hcatches⟩ := catches_of_catchException h
    exact ⟨_, .catching hp, hcatches.ty_eq, hcatches.ends_eq⟩
  | cleaning cleanup =>
    obtain ⟨p, s₁, hp, -, hfinalizes⟩ := finalizes_of_tryFinally h
    exact ⟨_, .cleaning hp, hfinalizes.ty_eq, hfinalizes.ends_eq⟩

/-- What accepted guards around a body are. -/
theorem exists_guarded {levels : List Level} {c : Closure} {s' : Supply}
    (h : Gives (guardWith body levels) s c s') :
    ∃ guards, List.Forall₂ (ComposedBy body.ty) guards levels ∧ c.Guarded body guards := by
  induction levels generalizing body s with
  | nil =>
    obtain ⟨hc, -⟩ := gives_lift_iff.1 h
    refine ⟨[], .nil, guarded_of_ends_eq fun env => ?_⟩
    unfold Ends aroundAll Expr.RunEnds
    simp only [Expr.eval_of_asClosure hc, List.foldl_nil]
  | cons level outside ih =>
    obtain ⟨inner, s₁, hinner, houtside⟩ := gives_bind_iff.1 h
    obtain ⟨g, hg, hty, hends⟩ := exists_guard_of_compose hinner
    obtain ⟨guards, hguards, hguarded⟩ := ih houtside
    have hinnerTy : (Expr.closure inner).ty = body.ty := hty
    have hinnerEnds : ∀ env, (Expr.closure inner).RunEnds env = inner.Ends env := fun _ => rfl
    rw [hinnerTy] at hguards
    refine ⟨g :: guards, .cons hg hguards, guarded_of_ends_eq fun env => ?_⟩
    rw [hguarded.ends_eq, hinnerEnds, hends]
    rfl

/-! ## The two guards -/

/-- A handler is refused only for its type and for what its callback refuses itself, and takes over
from the body exactly for the exceptions of its class, whatever else stands around the body. -/
theorem catchException_catches (body : Expr) (cls : String) (handler : Var → Compose Closure)
    (s : Supply) :
    ((∃ c s', Gives (catchException body cls handler) s c s') ↔
      ∃ p s₁, Gives (handler (s.nextVar .error)) s.openScope p s₁ ∧ p.ty = body.ty) ∧
    (∀ c s', Gives (catchException body cls handler) s c s' →
      ∃ p s₁, Gives (handler (s.nextVar .error)) s.openScope p s₁ ∧
        c.Catches body cls (s.nextVar .error) p) ∧
    ∀ levels c s', Gives (guardWith body levels) s c s' →
      ∃ guards, List.Forall₂ (ComposedBy body.ty) guards levels ∧ c.Guarded body guards := by
  refine ⟨⟨?_, ?_⟩, ?_, fun levels c s' h => exists_guarded h⟩
  · rintro ⟨c, s', h⟩
    obtain ⟨p, s₁, hp, hty, -⟩ := catches_of_catchException h
    exact ⟨p, s₁, hp, hty⟩
  · rintro ⟨p, s₁, hp, hfits⟩
    obtain ⟨d, -, hd⟩ := exists_catches body cls hp
    exact ⟨d, (hd d).2 ⟨hfits, rfl⟩⟩
  · intro c s' h
    obtain ⟨p, s₁, hp, -, hcatches⟩ := catches_of_catchException h
    exact ⟨p, s₁, hp, hcatches⟩

/-- An exception of another class than the inner handler's goes to the outer one, which reads the
variable that the body has read. -/
theorem catchException_catches_past_inner :
    let x : Var := ⟨7, 0, true, .int⟩
    let e : Exception := ⟨0, "E", "test"⟩
    let body : Closure :=
      ⟨.prim ⟨[.int], .int, by decide⟩ (Stock.runTagged (.throw e) "body"), [x], rfl⟩
    let handler (tag : String) (error : Var) : Compose Closure :=
      wire (.prim ⟨[.error, .int], .int, by decide⟩ (Stock.runTagged (.arg 1) tag)) [error, x]
    ∃ c, (∃ s', Gives (guardWith body
        [.catching "F" (handler "inner"), .catching "E" (handler "outer")]) {} c s') ∧
      c.Ends (fun _ => .int 5) {}
        (.ok (.int 5) { effects := #["body(5)", "outer(E: test, 5)"] }) := by
  intro x e body handler
  have hhandler (tag : String) (s : Supply) : ∃ p, p.ty = .int ∧
      Gives (handler tag (s.nextVar .error)) s.openScope p s.openScope := ⟨_, rfl, rfl⟩
  -- the inner handler is accepted around the body, and the outer one around both
  obtain ⟨haccepts, hcatches, hlevels⟩ := catchException_catches body "F" (handler "inner") {}
  obtain ⟨p₁, hp₁, hgives₁⟩ := hhandler "inner" {}
  obtain ⟨c₁, s₁, hc₁⟩ := haccepts.2 ⟨p₁, _, hgives₁, hp₁⟩
  obtain ⟨_, _, _, hcatches₁⟩ := hcatches c₁ s₁ hc₁
  obtain ⟨p₂, hp₂, hgives₂⟩ := hhandler "outer" s₁
  obtain ⟨c₂, s₂, hc₂⟩ := (catchException_catches c₁ "E" (handler "outer") s₁).1.2
    ⟨p₂, _, hgives₂, hp₂.trans hcatches₁.ty_eq.symm⟩
  have hnest : Gives (guardWith body
      [.catching "F" (handler "inner"), .catching "E" (handler "outer")]) {} c₂ s₂ :=
    hc₁.bind_iff.2 (hc₂.bind_iff.2 rfl)
  refine ⟨c₂, ⟨s₂, hnest⟩, ?_⟩
  obtain ⟨_, _ | ⟨@⟨s, _, inner, _, _, _⟩, _ | ⟨@⟨s', _, outer, _, _, houter⟩, ⟨⟩⟩⟩, hguarded⟩ :=
    hlevels _ c₂ s₂ hnest
  obtain ⟨hhandle, hargs⟩ := wire_eq_ok_iff.1 (gives_lift_iff.1 houter).1
  -- the handler has the error in front of what it reads from outside
  have hvalues : outer.args.map (Env.bind (fun _ => .int 5) (s'.nextVar .error) (.error e)) =
      [.error e, .int 5] := by
    have hx : x ≠ s'.nextVar .error := fun h => nomatch congrArg Var.ty h
    rw [hargs]
    simp [Env.bind, hx]
  refine (hguarded.ends_iff_of_innermost _ {} e _ _ [.catching "F" _ _] "E" _ _ [] rfl
    ⟨by simp, 0, rfl⟩ ?_ (.inr rfl)).2 ?_
  · exact List.forall_mem_singleton.2 ⟨"F", _, _, rfl, by decide⟩
  · change outer.Ends _ _ _
    unfold Ends eval
    rw [hhandle, hvalues]
    exact ⟨by simp, 0, rfl⟩

/-! ## Cleanups in the steps of loops -/

/-- A closure is what a body and the callback of its cleanup have been composed to. -/
def FinalizedBy (c : Closure) (body : Expr) (cleanup : Var → Option Var → Compose Closure) : Prop :=
  ∃ s p s₁, Gives (cleanup (s.nextVar .error) (resultVar s body.ty)) (openCleanup s body.ty) p s₁ ∧
    c.Finalizes body (s.nextVar .error) (resultVar s body.ty) p

/-- An accepted cleanup is what its body and its callback have been composed to. -/
theorem finalizedBy_of_tryFinally {cleanup : Var → Option Var → Compose Closure} {c : Closure}
    {s' : Supply} (h : Gives (tryFinally body cleanup) s c s') : c.FinalizedBy body cleanup := by
  obtain ⟨p, s₁, hp, -, hfinalizes⟩ := finalizes_of_tryFinally h
  exact ⟨s, p, s₁, hp, hfinalizes⟩

/-- What the callback of an accepted counted loop has given is what it folds. -/
theorem countsUp_of_countedLoop {start stop init : Expr} {body : Var → Var → Compose Closure}
    {c : Closure} {s' : Supply} (h : Gives (countedLoop start stop init body) s c s') :
    ∃ b s₁, Gives (body (s.nextVar init.ty) (s.openScope.nextVar .int)) s.openScope.openScope b s₁ ∧
      c.CountsUp start stop init (s.nextVar init.ty) (s.openScope.nextVar .int) b := by
  obtain ⟨hstart, hstop, hvoid, b, s₁, hb⟩ := piece_of_countedLoop h
  obtain ⟨d, hcounts, hd⟩ := exists_countsUp hstart hstop hvoid hb
  obtain ⟨-, rfl⟩ := (hd c).1 ⟨s', h⟩
  exact ⟨b, s₁, hb, hcounts⟩

/-- What the callback of an accepted loop over an iterator has given is what it folds. -/
theorem foldsIterator_of_iteratorLoop {source init : Expr} {body : Var → Var → Compose Closure}
    {c : Closure} {s' : Supply} (h : Gives (iteratorLoop source init body) s c s') :
    ∃ elem b s₁,
      Gives (body (s.nextVar init.ty) (s.openScope.nextVar elem)) s.openScope.openScope b s₁ ∧
      c.FoldsIterator source init (s.nextVar init.ty) (s.openScope.nextVar elem) b := by
  obtain ⟨elem, hsource, helem, hvoid, b, s₁, hb⟩ := piece_of_iteratorLoop h
  obtain ⟨d, hfolds, hd⟩ := exists_foldsIterator hsource helem hvoid hb
  obtain ⟨-, rfl⟩ := (hd c).1 ⟨s', h⟩
  exact ⟨elem, b, s₁, hb, hfolds⟩

/-- What the callback of an accepted loop over a list has given is what it folds. -/
theorem foldsList_of_iterableLoop {list init : Expr} {body : Var → Var → Compose Closure}
    {c : Closure} {s' : Supply} (h : Gives (iterableLoop list init body) s c s') :
    ∃ elem b s₁,
      Gives (body (s.nextVar init.ty) (s.openScope.nextVar elem)) s.openScope.openScope b s₁ ∧
      c.FoldsList list init (s.nextVar init.ty) (s.openScope.nextVar elem) b := by
  obtain ⟨elem, hlist, helem, hvoid, b, s₁, hb⟩ := piece_of_iterableLoop h
  obtain ⟨d, hfolds, hd⟩ := exists_foldsList hlist helem hvoid hb
  obtain ⟨-, rfl⟩ := (hd c).1 ⟨s', h⟩
  exact ⟨elem, b, s₁, hb, hfolds⟩

/-- In every turn of a loop whose step has a cleanup, the step is what its body and the callback of
the cleanup have been composed to. -/
structure FinalizesTurns (init : Expr) (s : Supply) : Prop where
  whileLoop : ∀ pred (step : Var → Expr) (cleanup : Var → Var → Option Var → Compose Closure) c s',
    Gives (whileLoop init pred fun v => tryFinally (step v) (cleanup v)) s c s' →
    ∃ p b : Closure, b.FinalizedBy (step (s.nextVar init.ty)) (cleanup (s.nextVar init.ty)) ∧
      c.Repeats init (s.nextVar init.ty) [p, b] fun env =>
        WhileTurn (fun v => (p.Ends (env.bind (s.nextVar init.ty) v)).Reads Value.expectBool)
          fun v => b.Ends (env.bind (s.nextVar init.ty) v)
  doWhileLoop : ∀ (step : Var → Expr) (cleanup : Var → Var → Option Var → Compose Closure) pred
    c s',
    Gives (doWhileLoop init (fun v => tryFinally (step v) (cleanup v)) pred) s c s' →
    ∃ b p : Closure, b.FinalizedBy (step (s.nextVar init.ty)) (cleanup (s.nextVar init.ty)) ∧
      c.Repeats init (s.nextVar init.ty) [b, p] fun env =>
        UntilTurn (fun v => (p.Ends (env.bind (s.nextVar init.ty) v)).Reads Value.expectBool)
          fun v => b.Ends (env.bind (s.nextVar init.ty) v)
  countedLoop : ∀ start stop (step : Var → Var → Expr)
    (cleanup : Var → Var → Var → Option Var → Compose Closure) c s',
    Gives (countedLoop start stop init fun v i => tryFinally (step v i) (cleanup v i)) s c s' →
    ∃ b : Closure, b.FinalizedBy (step (s.nextVar init.ty) (s.openScope.nextVar .int))
        (cleanup (s.nextVar init.ty) (s.openScope.nextVar .int)) ∧
      c.CountsUp start stop init (s.nextVar init.ty) (s.openScope.nextVar .int) b
  iteratorLoop : ∀ source (step : Var → Var → Expr)
    (cleanup : Var → Var → Var → Option Var → Compose Closure) c s',
    Gives (iteratorLoop source init fun v x => tryFinally (step v x) (cleanup v x)) s c s' →
    ∃ (elem : Ty) (b : Closure),
      b.FinalizedBy (step (s.nextVar init.ty) (s.openScope.nextVar elem))
        (cleanup (s.nextVar init.ty) (s.openScope.nextVar elem)) ∧
      c.FoldsIterator source init (s.nextVar init.ty) (s.openScope.nextVar elem) b
  iterableLoop : ∀ list (step : Var → Var → Expr)
    (cleanup : Var → Var → Var → Option Var → Compose Closure) c s',
    Gives (iterableLoop list init fun v x => tryFinally (step v x) (cleanup v x)) s c s' →
    ∃ (elem : Ty) (b : Closure),
      b.FinalizedBy (step (s.nextVar init.ty) (s.openScope.nextVar elem))
        (cleanup (s.nextVar init.ty) (s.openScope.nextVar elem)) ∧
      c.FoldsList list init (s.nextVar init.ty) (s.openScope.nextVar elem) b

/-- In all five loops the callback for the step is asked in a scope of the loop's own. -/
theorem finalizesTurns (init : Expr) (s : Supply) : FinalizesTurns init s := by
  constructor
  case whileLoop =>
    intro pred step cleanup c s' h
    rw [whileLoop_eq_testedLoop] at h
    obtain ⟨p, b, _, hpieces, hrepeats⟩ :=
      (combines_loopWhile.composesLoop "while" init pred _ s).repeats c s' h
    obtain ⟨_, -, hb⟩ := gives_pair_iff.1 hpieces
    exact ⟨p, b, finalizedBy_of_tryFinally hb, hrepeats⟩
  case doWhileLoop =>
    intro step cleanup pred c s' h
    rw [doWhileLoop_eq_testedLoop] at h
    obtain ⟨b, p, _, hpieces, hrepeats⟩ :=
      (combines_loopDoWhile.composesLoop "do-while" init _ pred s).repeats c s' h
    obtain ⟨_, hb, -⟩ := gives_pair_iff.1 hpieces
    exact ⟨b, p, finalizedBy_of_tryFinally hb, hrepeats⟩
  case countedLoop =>
    intro start stop step cleanup c s' h
    obtain ⟨b, s₁, hb, hcounts⟩ := countsUp_of_countedLoop h
    exact ⟨b, finalizedBy_of_tryFinally hb, hcounts⟩
  case iteratorLoop =>
    intro source step cleanup c s' h
    obtain ⟨elem, b, s₁, hb, hfolds⟩ := foldsIterator_of_iteratorLoop h
    exact ⟨elem, b, finalizedBy_of_tryFinally hb, hfolds⟩
  case iterableLoop =>
    intro list step cleanup c s' h
    obtain ⟨elem, b, s₁, hb, hfolds⟩ := foldsList_of_iterableLoop h
    exact ⟨elem, b, finalizedBy_of_tryFinally hb, hfolds⟩

/-- A cleanup is refused only for its type and for what its callback refuses itself, and runs once
behind every run of the body, whatever else stands around the body and in every turn of a loop. -/
theorem tryFinally_finalizes (body : Expr) (cleanup : Var → Option Var → Compose Closure)
    (s : Supply) :
    ((∃ c s', Gives (tryFinally body cleanup) s c s') ↔
      ∃ p s₁,
        Gives (cleanup (s.nextVar .error) (resultVar s body.ty)) (openCleanup s body.ty) p s₁ ∧
        p.ty = body.ty) ∧
    (∀ c s', Gives (tryFinally body cleanup) s c s' →
      ∃ p s₁,
        Gives (cleanup (s.nextVar .error) (resultVar s body.ty)) (openCleanup s body.ty) p s₁ ∧
        c.Finalizes body (s.nextVar .error) (resultVar s body.ty) p) ∧
    (∀ levels c s', Gives (guardWith body levels) s c s' →
      ∃ guards, List.Forall₂ (ComposedBy body.ty) guards levels ∧ c.Guarded body guards) ∧
    ∀ init s, FinalizesTurns init s := by
  refine ⟨⟨?_, ?_⟩, ?_, fun levels c s' h => exists_guarded h, finalizesTurns⟩
  · rintro ⟨c, s', h⟩
    obtain ⟨p, s₁, hp, hty, -⟩ := finalizes_of_tryFinally h
    exact ⟨p, s₁, hp, hty⟩
  · rintro ⟨p, s₁, hp, hfits⟩
    obtain ⟨d, -, hd⟩ := exists_finalizes hp
    exact ⟨d, (hd d).2 ⟨hfits, rfl⟩⟩
  · intro c s' h
    obtain ⟨p, s₁, hp, -, hfinalizes⟩ := finalizes_of_tryFinally h
    exact ⟨p, s₁, hp, hfinalizes⟩

/-- Behind a failure a cleanup has the error and a default, and behind a result null and the result.
The error goes on to the handler outside. -/
theorem tryFinally_finalizes_failure_and_result :
    let x : Var := ⟨7, 0, true, .bool⟩
    let e : Exception := ⟨0, "E", "test"⟩
    let body : Closure :=
      ⟨.prim ⟨[.bool], .int, by decide⟩
        (Stock.runTagged (.throwOn (.bool true) e (.const (.int 4))) "body"), [x], rfl⟩
    let cleanup (error : Var) (result : Option Var) : Compose Closure :=
      wire (.prim ⟨[.error, .int, .bool], .int, by decide⟩ (Stock.runTagged (.arg 1) "cleanup"))
        (error :: result.toList ++ [x])
    let handler (error : Var) : Compose Closure :=
      wire (.prim ⟨[.error], .int, by decide⟩ (Stock.runTagged (.const (.int 9)) "handler")) [error]
    ∃ c, (∃ s', Gives (guardWith body [.cleaning cleanup, .catching "E" handler]) {} c s') ∧
      c.Ends (fun _ => .bool false) {} (.ok (.int 4)
        { effects := #["body(false)", "cleanup(null, 4, false)"] }) ∧
      c.Ends (fun _ => .bool true) {} (.ok (.int 9)
        { effects := #["body(true)", "cleanup(E: test, 0, true)", "handler(E: test)"] }) := by
  intro x e body cleanup handler
  -- the cleanup is accepted behind the body, and the handler around both
  obtain ⟨haccepts, hfinalizes, hlevels, -⟩ := tryFinally_finalizes body cleanup {}
  obtain ⟨c₁, s₁, hc₁⟩ := haccepts.2 ⟨_, _, rfl, rfl⟩
  obtain ⟨_, _, _, hfinalizes₁⟩ := hfinalizes c₁ s₁ hc₁
  obtain ⟨p, hp, hgives⟩ : ∃ p, p.ty = .int ∧
      Gives (handler (s₁.nextVar .error)) s₁.openScope p s₁.openScope := ⟨_, rfl, rfl⟩
  obtain ⟨c₂, -, hd⟩ := exists_catches c₁ "E" hgives
  obtain ⟨s₂, hc₂⟩ := (hd c₂).2 ⟨hp.trans hfinalizes₁.ty_eq.symm, rfl⟩
  have hnest : Gives (guardWith body [.cleaning cleanup, .catching "E" handler]) {} c₂ s₂ :=
    hc₁.bind_iff.2 (hc₂.bind_iff.2 rfl)
  refine ⟨c₂, ⟨s₂, hnest⟩, ?_⟩
  have hbodyTy : (Expr.closure body).ty = .int := rfl
  rw [hbodyTy] at hlevels
  obtain ⟨_, _ | ⟨@⟨s, _, _, _, _, _⟩ | @⟨s, _, q, _, hq⟩,
    _ | ⟨@⟨s', _, r, _, _, hr⟩, ⟨⟩⟩⟩, hguarded⟩ := hlevels _ c₂ s₂ hnest
  obtain ⟨hqHandle, hqArgs⟩ := wire_eq_ok_iff.1 (gives_lift_iff.1 hq).1
  obtain ⟨hrHandle, hrArgs⟩ := wire_eq_ok_iff.1 (gives_lift_iff.1 hr).1
  have hx : x ∉ s.nextVar .error :: (resultVar s .int).toList := by
    simp [x, resultVar, Supply.nextVar]
  have hqValues : ∀ (env : Env) outcome,
      q.args.map (env.bindOutcome .int (s.nextVar .error) (resultVar s .int) outcome) =
        Handle.cleanupValues .int outcome ++ [env x] := by
    intro env outcome
    rw [hqArgs, ← bindAll_cleanupValues, List.map_append, List.map_singleton,
      Env.map_bindAll (nodup_cleanupVars s .int) (length_cleanupValues s .int outcome),
      Env.bindAll_of_notMem hx]
  constructor
  · refine (hguarded.ends_iff_of_cleaned _ {} (.int 4) _ _ [] _ _ _ _ _ rfl ⟨by simp, 0, rfl⟩).2
      (.returns ?_)
    unfold Ends eval
    rw [hqHandle, hqValues]
    exact ⟨by simp, 0, rfl⟩
  · have hcleanup : q.Ends (Env.bindOutcome (fun _ => .bool true) .int (s.nextVar .error)
        (resultVar s .int) (.error e)) { effects := #["body(true)"] }
        (.ok (.int 0) { effects := #["body(true)", "cleanup(E: test, 0, true)"] }) := by
      unfold Ends eval
      rw [hqHandle, hqValues]
      exact ⟨by simp, 0, rfl⟩
    -- the cleanup returns behind the failure, so the handler gets the error of the body
    refine (hguarded.ends_iff_of_rethrown _ {} e _ _ [] _ _ _ _ _ rfl ⟨by simp, 0, rfl⟩).2
      (.handled (.returns hcleanup rfl) (.inr rfl) ?_)
    unfold Ends eval
    rw [hrHandle, hrArgs, List.map_singleton, Env.bind, if_pos rfl]
    exact ⟨by simp, 0, rfl⟩

end Closure

end Splice

import Splice.Proofs.Closure.Pieces
import Splice.Proofs.Compose
import Splice.Proofs.Handle.Control
import Splice.Closure.Application
import Splice.Stock

/-!
# Loops over elements

A loop over an iterator evaluates the iterator and its initial state, in this order and each once,
and then draws one value after the other and steps the state with it. A loop over a list makes an
iterator of its own each time that it runs. The main statement says so of both loops, whatever the
draws do. Where the steps leave the iterator alone, the loops are left folds over what it gives, and
a step that fails leaves the values behind the one that it has got.

A step may draw from the iterator of its loop. Then more values are gone than the loop has stepped
with.
-/

namespace Splice

/-- The list that a loop traverses. -/
def Value.expectItems : Value → Except Fault (List Value)
  | .list _ items => .ok items
  | _ => .error .iteratedNull

/-- The world in which an iterator over values has been made, the last one of its iterators. -/
def World.withIterator (w : World) (items : List Value) : World :=
  { w with
    cells := w.cells.push items
    iterators := w.iterators.push (.ofCell w.cells.size) }

/-- A new iterator has all of its values left. -/
theorem World.hasLeft_withIterator (w : World) (items : List Value) :
    (w.withIterator items).HasLeft w.iterators.size w.cells.size items :=
  ⟨Array.getElem?_push_size, Array.getElem?_push_size⟩

namespace Closure

open Compose
open Behaviour (drawn)

/-- The step of a loop over elements with an element, under the environment in which the element and
the state have their variables. -/
def stepWith (body : Closure) (state element : Var) (env : Env) (x v : Value) : Behaviour Value :=
  body.Ends ((env.bind state v).bind element x)

/-- From a world, a loop comes to its first turn with an iterator and a state. No completed turn
that it comes to from there changes what the iterator has yet to give, apart from the draw of the
loop. -/
structure Begins (source init : Expr) (step : Value → Value → Behaviour Value) (env : Env)
    (w : World) (addr : Nat) (v : Value) (w' : World) : Prop where
  operands_end : ∃ w₁, source.Ends env w (.ok (.iterator addr) w₁) ∧ init.Ends env w₁ (.ok v w')
  spares : TurnsSpare addr step v w'

/-- A closure steps a state with each value that it draws from an iterator. -/
structure FoldsIterator (c : Closure) (source init : Expr) (state element : Var) (body : Closure) :
    Prop where
  /-- What the body reads of the state and of the element is no argument. -/
  args_first : FirstOccurrences (outerReads [source, init] [state, element] [body]) c.args
  ty_eq : c.ty = init.ty
  /-- A draw and a step take turns, whatever the iterator and the steps are. -/
  ends_iff : ∀ env w o, c.Ends env w o ↔
    ((source.Ends env).Reads Value.expectIterator).Then (fun addr =>
      (init.Ends env).Then fun v w o =>
        ∃ n, Course (DrawTurn addr (body.stepWith state element env)) n v w o) w o
  /-- Without an iterator nothing runs behind the source. -/
  ends_iff_of_null : ∀ env w w', source.Ends env w (.ok .null w') →
    ∃ e, e.cls = Fault.nullPointer ∧
      ∀ o, c.Ends env w o ↔ o = .thrown e { w' with nextId := w'.nextId + 1 }
  /-- A run returns if there is no value any more behind those that it has folded; so it does not
  return if the iterator gives values for ever. -/
  returns_iff : ∀ env w addr v w₁ r w',
    Begins source init (body.stepWith state element env) env w addr v w₁ →
    (c.Ends env w (.ok r w') ↔ ∃ items w₂, w₁.GivesAll addr items ∧
      Behaviour.fold (drawn addr (body.stepWith state element env)) items v w₁ (.ok r w₂) ∧
      w' = (w₂.draw addr).2)
  /-- A run fails if the step with some value does behind the fold of those before it. -/
  fails_iff : ∀ env w addr v w₁ e w',
    Begins source init (body.stepWith state element env) env w addr v w₁ →
    (c.Ends env w (.thrown e w') ↔ ∃ before x v₁ w₂, w₁.Gives addr (before ++ [x]) ∧
      Behaviour.fold (drawn addr (body.stepWith state element env)) before v w₁ (.ok v₁ w₂) ∧
      drawn addr (body.stepWith state element env) x v₁ w₂ (.thrown e w'))
  /-- A step that fails leaves what was offered behind its own value, if it leaves the iterator
  alone as well. -/
  rest_of_fails : ∀ env w addr before x v w₁ v₁ w₂ e w',
    Begins source init (body.stepWith state element env) env w addr v w₁ →
    w₁.Gives addr (before ++ [x]) →
    Behaviour.fold (drawn addr (body.stepWith state element env)) before v w₁ (.ok v₁ w₂) →
    drawn addr (body.stepWith state element env) x v₁ w₂ (.thrown e w') →
    w'.offered addr = (w₂.draw addr).2.offered addr →
    c.Ends env w (.thrown e w') ∧
      ∀ n, w'.offered addr n = w₁.offered addr (before.length + 1 + n)
  /-- A run that returns leaves what was offered behind the draw that gave nothing. -/
  rest_of_returns : ∀ env w addr v w₁ r w',
    Begins source init (body.stepWith state element env) env w addr v w₁ →
    c.Ends env w (.ok r w') → ∃ items, w₁.GivesAll addr items ∧
      ∀ n, w'.offered addr n = w₁.offered addr (items.length + 1 + n)

/-- A closure steps a state with each element of a list, which it traverses from the start with an
iterator of its own. -/
structure FoldsList (c : Closure) (list init : Expr) (state element : Var) (body : Closure) :
    Prop where
  args_first : FirstOccurrences (outerReads [list, init] [state, element] [body]) c.args
  ty_eq : c.ty = init.ty
  ends_iff : ∀ env w o, c.Ends env w o ↔
    ((list.Ends env).Reads Value.expectItems).Then (fun items w₁ =>
      (init.Ends env).Then (fun v w o => ∃ n,
        Course (DrawTurn w₁.iterators.size (body.stepWith state element env)) n v w o)
        (w₁.withIterator items)) w o
  /-- Without a list nothing runs behind the operand. -/
  ends_iff_of_null : ∀ env w w', list.Ends env w (.ok .null w') →
    ∃ e, e.cls = Fault.nullPointer ∧
      ∀ o, c.Ends env w o ↔ o = .thrown e { w' with nextId := w'.nextId + 1 }
  /-- Neither the initial state nor a turn that the loop comes to draws from the loop's own
  iterator. Other iterators may be drawn from, those among the elements as well. -/
  ends_iff_fold : ∀ env w id items w₁ v w₂ o, list.Ends env w (.ok (.list id items) w₁) →
    init.Ends env (w₁.withIterator items) (.ok v w₂) →
    w₂.HasLeft w₁.iterators.size w₁.cells.size items →
    TurnsKeep w₁.iterators.size (body.stepWith state element env)
      (World.Leaves w₁.iterators.size w₁.cells.size) v w₂ →
    (c.Ends env w o ↔
      Behaviour.fold (drawn w₁.iterators.size (body.stepWith state element env)) items v w₂ o)

/-- A composition makes a loop over elements of an operand, of an initial state and of what a
callback gives for the state and an element. Nothing is refused but operands of other types, states
or elements without values, what the callback refuses itself, and a step of another type. -/
structure ComposesFold (loop : Compose Closure) (init : Expr) (body : Var → Var → Compose Closure)
    (s : Supply) (yields : Ty → Prop) (folds : Closure → Var → Var → Closure → Prop) : Prop where
  accepts_iff : (∃ c s', Gives loop s c s') ↔ ∃ elem, yields elem ∧ elem ≠ .void ∧ init.ty ≠ .void ∧
    ∃ b s₁, Gives (body (s.nextVar init.ty) (s.openScope.nextVar elem)) s.openScope.openScope b s₁ ∧
      b.ty = init.ty
  folds : ∀ c s', Gives loop s c s' → ∃ elem b s₁, yields elem ∧
    Gives (body (s.nextVar init.ty) (s.openScope.nextVar elem)) s.openScope.openScope b s₁ ∧
    folds c (s.nextVar init.ty) (s.openScope.nextVar elem) b

variable {source list init : Expr} {body : Var → Var → Compose Closure} {s : Supply}

/-- The operands of a loop over an iterator as closures, and the loop's own variables. -/
theorem gives_iteratorOperands_iff {src i : Closure} {state element : Var} {s' : Supply} :
    Gives (do
      let source ← source.asClosure
      let elem ← match source.ty with
        | .iterator elem => pure elem
        | other => throw (.iteratorSource other)
      let init ← init.asClosure
      let state ← freshState init
      return (source, init, state, ← Var.fresh elem)) s (src, i, state, element) s' ↔
      ∃ elem, (source.asClosure = .ok src ∧ src.ty = .iterator elem ∧ elem ≠ .void) ∧
        (init.asClosure = .ok i ∧ i.ty ≠ .void) ∧ state = s.nextVar i.ty ∧
        element = s.openScope.nextVar elem ∧ s' = s.openScope.openScope := by
  rw [gives_bind_iff]
  simp only [gives_lift_iff]
  constructor
  · rintro ⟨_, _, ⟨hsrc, rfl⟩, h⟩
    split at h
    · -- the source shows its element type, or the loop is refused
      next hty =>
      simp only [gives_bind_iff, gives_lift_iff, gives_freshState_iff, gives_fresh_iff,
        gives_pure_iff, Prod.mk.injEq] at h
      obtain ⟨_, _, ⟨rfl, rfl⟩, _, _, ⟨hi, rfl⟩, _, _, ⟨hvoid, rfl, rfl⟩, _, _,
        ⟨helem, rfl, rfl⟩, ⟨rfl, rfl, rfl, rfl⟩, rfl⟩ := h
      exact ⟨_, ⟨hsrc, hty, helem⟩, ⟨hi, hvoid⟩, rfl, rfl, rfl⟩
    · obtain ⟨_, _, hthrow, -⟩ := gives_bind_iff.1 h
      exact absurd hthrow not_gives_throw
  · rintro ⟨elem, ⟨hsrc, hty, helem⟩, ⟨hi, hvoid⟩, rfl, rfl, rfl⟩
    refine ⟨src, s, ⟨hsrc, rfl⟩, ?_⟩
    rw [hty]
    simp only [gives_bind_iff, gives_lift_iff, gives_freshState_iff, gives_fresh_iff,
      gives_pure_iff, Prod.mk.injEq]
    exact ⟨elem, _, ⟨rfl, rfl⟩, _, _, ⟨hi, rfl⟩, _, _, ⟨hvoid, rfl, rfl⟩, _, _,
      ⟨helem, rfl, rfl⟩, ⟨trivial, rfl, rfl, rfl⟩, rfl⟩

/-- Behind its source and its initial state, a loop is the course of its turns. -/
theorem Begins.ends_iff_course {d : Closure} {step : Value → Value → Behaviour Value} {env : Env}
    {w w₁ : World} {addr : Nat} {v : Value} {o : Outcome Value}
    (hbegins : Begins source init step env w addr v w₁)
    (hends : d.Ends env = ((source.Ends env).Reads Value.expectIterator).Then fun addr =>
      (init.Ends env).Then fun v w o => ∃ n, Course (DrawTurn addr step) n v w o) :
    d.Ends env w o ↔ ∃ n, Course (DrawTurn addr step) n v w₁ o := by
  obtain ⟨w₂, hsource, hinit⟩ := hbegins.operands_end
  have haddr : ∀ o, (source.Ends env).Reads Value.expectIterator w o ↔ o = .ok addr w₂ :=
    Behaviour.reads_iff_of_ok (Expr.ends_iff_eq hsource) rfl
  rw [hends, Behaviour.then_iff_of_ok haddr, Behaviour.then_iff_of_ok (Expr.ends_iff_eq hinit)]

/-- What follows from the ends of a loop over an iterator. -/
theorem foldsIterator_of_ends_eq {d b : Closure} {state element : Var}
    (hargs : FirstOccurrences (outerReads [source, init] [state, element] [b]) d.args)
    (hty : d.ty = init.ty)
    (hends : ∀ env, d.Ends env = ((source.Ends env).Reads Value.expectIterator).Then fun addr =>
      (init.Ends env).Then fun v w o =>
        ∃ n, Course (DrawTurn addr (b.stepWith state element env)) n v w o) :
    d.FoldsIterator source init state element b := by
  constructor
  case args_first => exact hargs
  case ty_eq => exact hty
  case ends_iff =>
    intro env w o
    rw [hends]
  case ends_iff_of_null =>
    intro env w w' hsource
    refine ⟨⟨w'.nextId, Fault.nullPointer, Fault.message (.sourceNotIterator .null)⟩, rfl,
      fun o => ?_⟩
    rw [hends]
    -- what is no iterator throws when it is read, in front of the initial state
    refine Behaviour.then_iff_of_thrown ?_
    exact Behaviour.reads_iff_of_error (Expr.ends_iff_eq hsource)
      (rfl : Value.expectIterator .null = .error (.sourceNotIterator .null))
  case returns_iff =>
    intro env w addr v w₁ r w' hbegins
    rw [hbegins.ends_iff_course (hends env), course_ok_iff hbegins.spares]
  case fails_iff =>
    intro env w addr v w₁ e w' hbegins
    rw [hbegins.ends_iff_course (hends env), course_thrown_iff hbegins.spares]
  case rest_of_fails =>
    intro env w addr before x v w₁ v₁ w₂ e w' hbegins hgives hbefore hx hkept
    refine ⟨?_, fun n => ?_⟩
    · rw [hbegins.ends_iff_course (hends env), course_thrown_iff hbegins.spares]
      exact ⟨before, x, v₁, w₂, hgives, hbefore, hx⟩
    · -- the value of the step that fails has been drawn behind those of the fold
      rw [hkept, Nat.add_assoc, Nat.add_comm 1 n]
      exact offered_of_fold hbegins.spares hgives.left hbefore (n + 1)
  case rest_of_returns =>
    intro env w addr v w₁ r w' hbegins hreturns
    rw [hbegins.ends_iff_course (hends env), course_ok_iff hbegins.spares] at hreturns
    obtain ⟨items, w₂, hall, hfold, rfl⟩ := hreturns
    refine ⟨items, hall, fun n => ?_⟩
    rw [Nat.add_assoc, Nat.add_comm 1 n]
    exact offered_of_fold hbegins.spares hall.gives hfold (n + 1)

/-- An accepted loop has an iterator for its source and a state with values, and its callback has
been accepted. -/
theorem piece_of_iteratorLoop {c : Closure} {s' : Supply}
    (h : Gives (iteratorLoop source init body) s c s') :
    ∃ elem, source.ty = .iterator elem ∧ elem ≠ .void ∧ init.ty ≠ .void ∧ ∃ b s₁,
      Gives (body (s.nextVar init.ty) (s.openScope.nextVar elem)) s.openScope.openScope b s₁ := by
  unfold iteratorLoop at h
  obtain ⟨⟨src, i, state, element⟩, _, hoperands, h⟩ := gives_bind_iff.1 h
  obtain ⟨elem, ⟨hsrc, hsrcty, helem⟩, ⟨hi, hvoid⟩, rfl, rfl, rfl⟩ :=
    gives_iteratorOperands_iff.1 hoperands
  obtain ⟨_, s₁, hpiece, -⟩ := gives_bind_iff.1 h
  obtain ⟨b, hb, -⟩ := gives_pieceOver_iff.1 hpiece
  rw [(Expr.asClosure_eq_ok hsrc).1] at hsrcty
  rw [(Expr.asClosure_eq_ok hi).1] at hvoid hb
  exact ⟨elem, hsrcty, helem, hvoid, b, s₁, hb⟩

/-- Aligned pieces take the parameters that they have to take, so only their types matter. -/
theorem loopIterated_aligned_iff {src i b as ai ab : Closure} {h : Handle} {state element : Var}
    {vars : List Var} (hs : as.handle.Runs src [] vars) (hi : ai.handle.Runs i [] vars)
    (hb : ab.handle.Runs b [state, element] vars) (hsty : src.ty = .iterator element.ty)
    (hvoid : state.ty ≠ .void) (hity : i.ty = state.ty) :
    Handle.loopIterated as.handle ai.handle ab.handle = .ok h ↔
      b.ty = state.ty ∧ h = .iteratedLoop ai.handle.sig as.handle ai.handle ab.handle := by
  rw [Handle.loopIterated_eq_ok_iff, hs.params_eq, hi.params_eq, hb.params_eq, hs.ret_eq,
    hi.ret_eq, hb.ret_eq, hsty, hity]
  simp [hvoid]

/-- The ends of the wired loop of aligned pieces. -/
theorem ends_of_wire_iteratedLoop {src i b as ai ab d : Closure} {state element : Var}
    {vars : List Var} (hs : as.handle.Runs src [] vars) (hi : ai.handle.Runs i [] vars)
    (hb : ab.handle.Runs b [state, element] vars)
    (hd : wire (.iteratedLoop ai.handle.sig as.handle ai.handle ab.handle) vars = .ok d)
    (env : Env) :
    d.Ends env = ((src.Ends env).Reads Value.expectIterator).Then fun addr =>
      (i.Ends env).Then fun v w o =>
        ∃ n, Course (DrawTurn addr (b.stepWith state element env)) n v w o := by
  have hstep : (fun x v => ab.handle.Ends (v :: x :: vars.map env)) =
      b.stepWith state element env :=
    funext fun x => funext fun v => hb.ends_eq env [v, x] rfl
  have hsends := hs.ends_eq env [] rfl
  have hiends := hi.ends_eq env [] rfl
  rw [List.nil_append] at hsends hiends
  rw [ends_of_wire hd, Handle.ends_iteratedLoop, hstep, hsends, hiends]
  rfl

/-- The operands and what the callback gives are aligned, and what becomes of the loop is then up to
the combination of the aligned pieces. -/
theorem exists_aligned_iteratorLoop {elem : Ty} (hsource : source.ty = .iterator elem)
    (helem : elem ≠ .void) (hvoid : init.ty ≠ .void) {b : Closure} {s₁ : Supply}
    (hb : Gives (body (s.nextVar init.ty) (s.openScope.nextVar elem)) s.openScope.openScope b s₁) :
    ∃ (src i as ai ab : Closure) (vars : List Var),
      (source.asClosure = .ok src ∧ init.asClosure = .ok i) ∧
      as.handle.Runs src [] vars ∧ ai.handle.Runs i [] vars ∧
      ab.handle.Runs b [s.nextVar init.ty, s.openScope.nextVar elem] vars ∧
      FirstOccurrences
        (outerReads [source, init] [s.nextVar init.ty, s.openScope.nextVar elem] [b]) vars ∧
      (iteratorLoop source init body).result s =
        (do wire (← Handle.loopIterated as.handle ai.handle ab.handle) vars) := by
  obtain ⟨src, hsrc, hsrcty, hsrcargs⟩ := source.exists_asClosure
  obtain ⟨i, hi, hity, hiargs⟩ := init.exists_asClosure
  have hnodup : [s.nextVar init.ty, s.openScope.nextVar elem].Nodup := by
    simp [Supply.nextVar_openScope_ne]
  have hlocals : ∀ v ∈ [s.nextVar init.ty, s.openScope.nextVar elem], v.ty ≠ .void :=
    List.forall_mem_cons.2 ⟨hvoid, List.forall_mem_singleton.2 helem⟩
  obtain ⟨db, hdb, hfb⟩ := b.exists_fronts hlocals
  have hsources : ∀ source ∈ [src.args, i.args, db.args.drop 2], ∃ c : Closure,
      source ⊆ c.args := by
    simp only [List.forall_mem_cons]
    exact ⟨⟨src, List.Subset.refl _⟩, ⟨i, List.Subset.refl _⟩, ⟨db, List.drop_subset 2 _⟩, nofun⟩
  obtain ⟨as, has, hrs⟩ :=
    Unifier.exists_align_piece hsources List.nodup_nil src.fronts_nil 0 rfl (by simp)
  obtain ⟨ai, hai, hri⟩ :=
    Unifier.exists_align_piece hsources List.nodup_nil i.fronts_nil 0 rfl (by simp)
  obtain ⟨ab, hab, hrb⟩ := Unifier.exists_align_piece hsources hnodup hfb 2 rfl (by simp)
  have hsplit : [src.args, i.args, db.args.drop 2].flatten =
      outerReads [source, init] [s.nextVar init.ty, s.openScope.nextVar elem] [b] := by
    simp [outerReads, hsrcargs, hiargs, hfb.args_eq]
  refine ⟨src, i, as, ai, ab, _, ⟨hsrc, hi⟩, hrs, hri, hrb,
    hsplit ▸ firstOccurrences_eraseDups _, ?_⟩
  -- every step up to the combination gives what has been found above
  have hoperands := (gives_iteratorOperands_iff (s := s)).2
    ⟨elem, ⟨hsrc, hsrcty.trans hsource, helem⟩, ⟨hi, hity ▸ hvoid⟩, rfl, rfl, rfl⟩
  rw [hity] at hoperands
  have hpiece := gives_pieceOver_iff.2 ⟨b, hb, hdb⟩
  have hbehind : (iteratorLoop source init body).result s = _ :=
    hoperands.result_bind.trans hpiece.result_bind
  rw [hbehind]
  simp only [within_eq, result_note_bind, result_lift_bind, result_lift, has, hai, hab]
  rfl

/-- What the callback gives makes a loop, if its type fits, and no other one. -/
theorem exists_foldsIterator {elem : Ty} (hsource : source.ty = .iterator elem)
    (helem : elem ≠ .void) (hvoid : init.ty ≠ .void) {b : Closure} {s₁ : Supply}
    (hb : Gives (body (s.nextVar init.ty) (s.openScope.nextVar elem)) s.openScope.openScope b s₁) :
    ∃ d : Closure,
      d.FoldsIterator source init (s.nextVar init.ty) (s.openScope.nextVar elem) b ∧
      ∀ c, (∃ s', Gives (iteratorLoop source init body) s c s') ↔ b.ty = init.ty ∧ c = d := by
  obtain ⟨src, i, as, ai, ab, vars, ⟨hsrc, hi⟩, hrs, hri, hrb, hvars, hresult⟩ :=
    exists_aligned_iteratorLoop hsource helem hvoid hb
  obtain ⟨d, hd⟩ := hri.exists_wire
    (g := .iteratedLoop ai.handle.sig as.handle ai.handle ab.handle) rfl
  have hsty : src.ty = .iterator elem := (Expr.asClosure_eq_ok hsrc).1.trans hsource
  have hity : i.ty = init.ty := (Expr.asClosure_eq_ok hi).1
  refine ⟨d, foldsIterator_of_ends_eq ?_ ?_ fun env => ?_, exists_gives_wired_iff hresult (fun h =>
    loopIterated_aligned_iff hrs hri hrb hsty hvoid hity) hd⟩
  · rwa [(wire_eq_ok_iff.1 hd).2]
  · rw [← hity, ← hri.ret_eq, ty, (wire_eq_ok_iff.1 hd).1]
    rfl
  · rw [ends_of_wire_iteratedLoop hrs hri hrb hd, Expr.ends_of_asClosure hsrc (by simp [hsource]),
      Expr.ends_of_asClosure hi hvoid]

/-! ## Lists -/

/-- A new iterator over values is all that making one does. -/
theorem ends_ofList_iff {items : List Value} {w : World} {o : Outcome Value} :
    Exec.Ends (fun _ => Iterator.ofList items) w o ↔
      o = .ok (.iterator w.iterators.size) (w.withIterator items) := by
  rw [Exec.ends_const_iff]
  constructor
  · rintro ⟨-, rfl⟩
    rfl
  · rintro rfl
    exact ⟨nofun, rfl⟩

/-- The source of a loop over a list makes an iterator over what the list has. -/
theorem exists_iteratorOf {elem : Ty} (hlist : list.ty = .list elem) :
    ∃ src, iteratorOf list = .ok src ∧ src.ty = .iterator elem ∧
      src.args = list.reads.eraseDups ∧ ∀ env, src.Ends env =
        ((list.Ends env).Reads Value.expectItems).Then fun items w o =>
          o = .ok (.iterator w.iterators.size) (w.withIterator items) := by
  let make : Value → Exec Value := fun v =>
    match v with
    | .list _ items => Iterator.ofList items
    | _ => Exec.raise .iteratedNull
  have hvoid : Ty.void ∉ [list].map Expr.ty := by simp [hlist]
  let h : Handle := .prim ⟨[list].map Expr.ty, .iterator elem, hvoid⟩ fun args =>
    make (Handle.argument args 0)
  have hparams : [list].map Expr.ty = h.params := rfl
  obtain ⟨src, hsrc, hargs, hty, heval⟩ := exists_fold hparams
  refine ⟨src, ?_, hty, ?_, fun env => ?_⟩
  · unfold iteratorOf
    rw [hlist]
    exact bind_eq_ok_iff.2 ⟨h, bind_eq_ok_iff.2 ⟨_, Signature.ofTypes_of_notMem hvoid _, rfl⟩, hsrc⟩
  · rw [hargs, List.flatMap_singleton, Expr.vars_eq_reads (by simp [hlist])]
  · -- the list is evaluated, found to be one and then turned into an iterator
    have hsplit : (fun turns => src.eval turns env) = fun turns =>
        (list.eval turns env >>= fun v => Exec.ofExcept v.expectItems) >>= Iterator.ofList := by
      funext turns
      rw [heval]
      simp only [List.mapM_cons, List.mapM_nil, bind_assoc, pure_bind]
      refine bind_congr fun v => ?_
      cases v <;> rfl
    have hitems : Exec.Steady fun turns =>
        list.eval turns env >>= fun v => Exec.ofExcept v.expectItems :=
      (list.steady_eval env).bind fun v => .const (Exec.ofExcept v.expectItems)
    unfold Ends
    rw [hsplit, Exec.ends_bind (f := fun _ => Iterator.ofList) hitems fun items => .const _,
      Exec.ends_read (list.steady_eval env)]
    funext w o
    exact propext (Behaviour.then_congr fun items w₁ _ => ends_ofList_iff)

/-- A source is made of a list only. -/
theorem list_of_iteratorOf {src : Closure} (h : iteratorOf list = .ok src) :
    ∃ elem, list.ty = .list elem := by
  unfold iteratorOf at h
  split at h
  · next elem hty => exact ⟨elem, hty⟩
  · exact nomatch h

/-- A loop over a list is a loop over the iterator that is made of it. -/
theorem gives_iterableLoop_iff {c : Closure} {s' : Supply} :
    Gives (iterableLoop list init body) s c s' ↔ ∃ src, iteratorOf list = .ok src ∧
      Gives (iteratorLoop (.closure src) init body) s c s' := by
  unfold iterableLoop
  simp only [within_eq, gives_bind_iff, gives_lift_iff, and_assoc, exists_and_left, exists_eq_left]

/-- A loop over the iterator of a list is a loop over the list. -/
theorem FoldsIterator.foldsList {src c b : Closure} {state element : Var}
    (h : c.FoldsIterator (.closure src) init state element b)
    (hargs : src.args = list.reads.eraseDups)
    (hends : ∀ env, src.Ends env = ((list.Ends env).Reads Value.expectItems).Then fun items w o =>
      o = .ok (.iterator w.iterators.size) (w.withIterator items)) :
    c.FoldsList list init state element b := by
  have hiff : ∀ env w o, c.Ends env w o ↔
      ((list.Ends env).Reads Value.expectItems).Then (fun items w₁ =>
        (init.Ends env).Then (fun v w o => ∃ n,
          Course (DrawTurn w₁.iterators.size (b.stepWith state element env)) n v w o)
          (w₁.withIterator items)) w o := by
    intro env w o
    have hsource : ((Expr.closure src).Ends env).Reads Value.expectIterator =
        ((list.Ends env).Reads Value.expectItems).Then fun items w o =>
          o = .ok w.iterators.size (w.withIterator items) := by
      change (src.Ends env).Reads _ = _
      rw [hends]
      exact Behaviour.then_pure_reads _ _ _ fun _ _ => rfl
    rw [h.ends_iff, hsource, Behaviour.then_pure_then]
  refine ⟨?_, h.ty_eq, hiff, ?_, ?_⟩
  · -- the list is an operand of the source, so its variables are first met in the same order
    have hkept := h.args_first.eq_eraseDups
    simp only [outerReads, List.flatMap_cons, Expr.reads_closure, hargs, List.append_assoc,
      eraseDups_eraseDups_append] at hkept
    rw [hkept]
    simp only [outerReads, List.flatMap_cons, List.append_assoc]
    exact firstOccurrences_eraseDups _
  · intro env w w' hnull
    refine ⟨⟨w'.nextId, Fault.nullPointer, Fault.message .iteratedNull⟩, rfl, fun o => ?_⟩
    rw [hiff]
    refine Behaviour.then_iff_of_thrown ?_
    exact Behaviour.reads_iff_of_error (Expr.ends_iff_eq hnull)
      (rfl : Value.expectItems .null = .error .iteratedNull)
  · intro env w id items w₁ v w₂ o hlist hinit hleft hkeep
    have hitems : ∀ o, (list.Ends env).Reads Value.expectItems w o ↔ o = .ok items w₁ :=
      Behaviour.reads_iff_of_ok (Expr.ends_iff_eq hlist) rfl
    rw [hiff, Behaviour.then_iff_of_ok hitems, Behaviour.then_iff_of_ok (Expr.ends_iff_eq hinit),
      course_drawTurn_iff_fold hkeep hleft]

/-- What the callback gives makes a loop over a list, if its type fits, and no other one. -/
theorem exists_foldsList {elem : Ty} (hlist : list.ty = .list elem) (helem : elem ≠ .void)
    (hvoid : init.ty ≠ .void) {b : Closure} {s₁ : Supply}
    (hb : Gives (body (s.nextVar init.ty) (s.openScope.nextVar elem)) s.openScope.openScope b s₁) :
    ∃ d : Closure, d.FoldsList list init (s.nextVar init.ty) (s.openScope.nextVar elem) b ∧
      ∀ c, (∃ s', Gives (iterableLoop list init body) s c s') ↔ b.ty = init.ty ∧ c = d := by
  obtain ⟨src, hsrc, hty, hargs, hends⟩ := exists_iteratorOf hlist
  have hsource : (Expr.closure src).ty = .iterator elem := hty
  obtain ⟨d, hfolds, hd⟩ := exists_foldsIterator hsource helem hvoid hb
  refine ⟨d, hfolds.foldsList hargs hends, fun c => ?_⟩
  rw [← hd]
  -- the source is the same for every loop over the list
  refine exists_congr fun s' => gives_iterableLoop_iff.trans ⟨?_, fun h => ⟨src, hsrc, h⟩⟩
  rintro ⟨src', hsrc', h⟩
  rw [hsrc] at hsrc'
  obtain rfl := Except.ok.inj hsrc'
  exact h

/-- An accepted loop over a list has a list and a state with values, and its callback has been
accepted. -/
theorem piece_of_iterableLoop {c : Closure} {s' : Supply}
    (h : Gives (iterableLoop list init body) s c s') :
    ∃ elem, list.ty = .list elem ∧ elem ≠ .void ∧ init.ty ≠ .void ∧ ∃ b s₁,
      Gives (body (s.nextVar init.ty) (s.openScope.nextVar elem)) s.openScope.openScope b s₁ := by
  obtain ⟨src, hsrc, h⟩ := gives_iterableLoop_iff.1 h
  obtain ⟨elem, hlist⟩ := list_of_iteratorOf hsrc
  obtain ⟨src', hsrc', hty, -⟩ := exists_iteratorOf hlist
  obtain rfl := Except.ok.inj (hsrc.symm.trans hsrc')
  obtain ⟨elem', hty', hpiece⟩ := piece_of_iteratorLoop h
  obtain rfl := Ty.iterator.inj (hty.symm.trans hty')
  exact ⟨elem, hlist, hpiece⟩

/-! ## Both loops -/

/-- A loop is composed of what its callback gives, when that always makes one loop. -/
theorem composesFold_of_exists {loop : Compose Closure} {yields : Ty → Prop}
    {folds : Closure → Var → Var → Closure → Prop}
    (hpiece : ∀ c s', Gives loop s c s' →
      ∃ elem, yields elem ∧ elem ≠ .void ∧ init.ty ≠ .void ∧ ∃ b s₁,
        Gives (body (s.nextVar init.ty) (s.openScope.nextVar elem)) s.openScope.openScope b s₁)
    (hexists : ∀ elem b s₁, yields elem → elem ≠ .void → init.ty ≠ .void →
      Gives (body (s.nextVar init.ty) (s.openScope.nextVar elem)) s.openScope.openScope b s₁ →
      ∃ d, folds d (s.nextVar init.ty) (s.openScope.nextVar elem) b ∧
        ∀ c, (∃ s', Gives loop s c s') ↔ b.ty = init.ty ∧ c = d) :
    ComposesFold loop init body s yields folds := by
  constructor
  case accepts_iff =>
    constructor
    · rintro ⟨c, s', h⟩
      obtain ⟨elem, hyields, helem, hvoid, b, s₁, hb⟩ := hpiece c s' h
      obtain ⟨d, -, hd⟩ := hexists elem b s₁ hyields helem hvoid hb
      exact ⟨elem, hyields, helem, hvoid, b, s₁, hb, ((hd c).1 ⟨s', h⟩).1⟩
    · rintro ⟨elem, hyields, helem, hvoid, b, s₁, hb, hfits⟩
      obtain ⟨d, -, hd⟩ := hexists elem b s₁ hyields helem hvoid hb
      exact ⟨d, (hd d).2 ⟨hfits, rfl⟩⟩
  case folds =>
    intro c s' h
    obtain ⟨elem, hyields, helem, hvoid, b, s₁, hb⟩ := hpiece c s' h
    obtain ⟨d, hfolds, hd⟩ := hexists elem b s₁ hyields helem hvoid hb
    obtain ⟨-, rfl⟩ := (hd c).1 ⟨s', h⟩
    exact ⟨elem, b, s₁, hyields, hb, hfolds⟩

end Closure

end Splice

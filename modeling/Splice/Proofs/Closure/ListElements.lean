import Splice.Proofs.Closure.IteratorLoop
import Splice.Proofs.Columns.Stored
import Splice.Proofs.Value.Member

/-!
# What loops over lists hand to their bodies

A loop over a list trusts the type of its operand: no element is looked at when it is drawn. So a
list must have been looked at when it came in, as an argument or as the value of a field. The main
statement says that this is so, element by element and at every depth, and that a step is taken with
admitted elements only. It leaves out one sort of list, with erased elements and the absence of a
value among them, which comes in all the same.
-/

namespace Splice

/-! ## What is let in -/

/-- A value has been let in at a type: behind a parameter of the type, where arguments are checked,
or for a field of the type, where a record is made. -/
inductive LetIn (ty : Ty) (v : Value) : Prop
  | argument {h : Handle} {args : List Value} {i : Nat} (hcheck : h.sig.check args = .ok ())
      (hty : h.params[i]? = some ty) (hv : args[i]? = some v) : LetIn ty v
  | field {s : Schema} {values : List Value} {i : Nat} {r : Value} {w w' : World}
      (hrun : s.instantiate values w = .ok r w') (hty : s.fieldTypes[i]? = some ty)
      (hv : values[i]? = some v) : LetIn ty v

/-- Nothing is made of values that do not fit. -/
theorem Schema.fits_of_instantiate {s : Schema} {values : List Value} {r : Value} {w w' : World}
    (hrun : s.instantiate values w = .ok r w') : Fits s.fieldTypes values := by
  rw [← mismatch?_eq_none_iff]
  cases hmismatch : s.mismatch? values with
  | none => rfl
  | some fault =>
    rw [instantiate, hmismatch] at hrun
    cases hrun

/-- What has been let in for a type is admitted by it. -/
theorem LetIn.admits {ty : Ty} {v : Value} (h : LetIn ty v) : ty.admits v = true := by
  have hfits : ∀ {params args} {i : Nat}, Fits params args → params[i]? = some ty →
      args[i]? = some v → ty.admits v = true := by
    intro params args i hfits hty hv
    obtain ⟨v', hv', hadmits⟩ := hfits.exists_getElem? hty
    obtain rfl := Option.some.inj (hv.symm.trans hv')
    exact hadmits
  cases h with
  | argument hcheck hty hv => exact hfits (Signature.check_eq_ok_iff.1 hcheck) hty hv
  | field hrun hty hv => exact hfits (Schema.fits_of_instantiate hrun) hty hv

/-- All that a list type admits is let in. -/
theorem letIn_list_iff {elem : Ty} {v : Value} :
    LetIn (.list elem) v ↔ (Ty.list elem).admits v = true := by
  refine ⟨LetIn.admits, fun hv => ?_⟩
  let h : Handle := .prim ⟨[.list elem], .void, by simp⟩ fun _ => return .unit
  have hcheck : h.sig.check [v] = .ok () :=
    Signature.check_eq_ok_iff.2 (Fits.cons hv Fits.nil)
  exact .argument hcheck (rfl : h.params[0]? = some (.list elem)) rfl

/-! ## Turns with values of a type -/

/-- Two loops have the same courses if their turns are the same where an invariant holds. -/
theorem course_iff_of_invariant {σ ρ : Type} {turn turn' : σ → Behaviour (σ ⊕ ρ)} {s : σ}
    {w : World} {n : Nat} {o : Outcome ρ} (inv : σ → World → Prop)
    (hturn : ∀ s w o, inv s w → (turn s w o ↔ turn' s w o))
    (hkeep : ∀ s w s' w', inv s w → turn s w (.ok (.inl s') w') → inv s' w') (hw : inv s w) :
    Course turn n s w o ↔ Course turn' n s w o := by
  have hsteps : ∀ {n s' w'}, Steps turn s w n s' w' → inv s' w' ∧ Steps turn' s w n s' w' := by
    intro n s' w' h
    induction h with
    | zero => exact ⟨hw, .zero⟩
    | succ _ hlast ih =>
      obtain ⟨hinv, hsteps⟩ := ih
      exact ⟨hkeep _ _ _ _ hinv hlast, hsteps.succ ((hturn _ _ _ hinv).1 hlast)⟩
  have hsteps' : ∀ {n s' w'}, Steps turn' s w n s' w' → inv s' w' ∧ Steps turn s w n s' w' := by
    intro n s' w' h
    induction h with
    | zero => exact ⟨hw, .zero⟩
    | succ _ hlast ih =>
      obtain ⟨hinv, hsteps⟩ := ih
      have hlast := (hturn _ _ _ hinv).2 hlast
      exact ⟨hkeep _ _ _ _ hinv hlast, hsteps.succ hlast⟩
  constructor
  · -- both directions follow the courses step by step, and only differ in whose turns are known
    rintro (⟨hbefore, hlast⟩ | ⟨hbefore, hlast⟩)
    all_goals obtain ⟨hinv, hbefore⟩ := hsteps hbefore
    · exact .stops hbefore ((hturn _ _ _ hinv).1 hlast)
    · exact .fails hbefore ((hturn _ _ _ hinv).1 hlast)
  · rintro (⟨hbefore, hlast⟩ | ⟨hbefore, hlast⟩)
    all_goals obtain ⟨hinv, hbefore⟩ := hsteps' hbefore
    · exact .stops hbefore ((hturn _ _ _ hinv).2 hlast)
    · exact .fails hbefore ((hturn _ _ _ hinv).2 hlast)

/-- An iterator over given values has values of a type only. -/
def World.Offers (w : World) (addr cell : Nat) (ty : Ty) : Prop :=
  ∃ items, w.HasLeft addr cell items ∧ ∀ v ∈ items, ty.admits v = true

/-- Between two worlds, no values of other types are put into an iterator. It may be drawn from. -/
def World.KeepsOffer (addr cell : Nat) (ty : Ty) (w w' : World) : Prop :=
  w.Offers addr cell ty → w'.Offers addr cell ty

/-- Steps with the values of a type, and comes to no end with any other. -/
def Behaviour.onlyWith (ty : Ty) (step : Value → σ → Behaviour σ) (v : Value) (s : σ) :
    Behaviour σ :=
  fun w o => ty.admits v = true ∧ step v s w o

/-- What is drawn is of the type, and so is what is left behind it. -/
theorem World.Offers.of_draw {w w' : World} {addr cell : Nat} {ty : Ty} {v : Value}
    (h : w.Offers addr cell ty) (hdraw : w.draw addr = (some v, w')) :
    ty.admits v = true ∧ w'.Offers addr cell ty := by
  obtain ⟨items, hleft, hitems⟩ := h
  cases items with
  | nil => exact nomatch hleft.draw_nil.symm.trans hdraw
  | cons x rest =>
    obtain ⟨hx, hrest⟩ := hleft.draw_cons
    rw [hdraw] at hx hrest
    obtain rfl := Option.some.inj hx
    obtain ⟨hv, hothers⟩ := List.forall_mem_cons.1 hitems
    exact ⟨hv, rest, hrest, hothers⟩

/-- A loop over an iterator that has values of a type only steps with nothing else. -/
theorem course_onlyWith_iff {σ : Type} {addr cell : Nat} {ty : Ty}
    {step : Value → σ → Behaviour σ} {n : Nat} {s : σ} {w : World} {o : Outcome σ}
    (hkeep : TurnsKeep addr step (World.KeepsOffer addr cell ty) s w)
    (hw : w.Offers addr cell ty) :
    Course (DrawTurn addr step) n s w o ↔
      Course (DrawTurn addr (Behaviour.onlyWith ty step)) n s w o := by
  -- what the remaining turns keep is part of the invariant, since only they are asked to
  refine course_iff_of_invariant
    (fun s w => w.Offers addr cell ty ∧ TurnsKeep addr step (World.KeepsOffer addr cell ty) s w)
    (fun s w o ⟨hw, _⟩ => ⟨?_, ?_⟩) ?_ ⟨hw, hkeep⟩
  · rintro (hnone | ⟨hdraw, hfails⟩ | ⟨hdraw, hgoesOn⟩)
    · exact .stops hnone
    · exact .stepFails hdraw ⟨(hw.of_draw hdraw).1, hfails⟩
    · exact .goesOn hdraw ⟨(hw.of_draw hdraw).1, hgoesOn⟩
  · rintro (hnone | ⟨hdraw, -, hfails⟩ | ⟨hdraw, -, hgoesOn⟩)
    · exact .stops hnone
    · exact .stepFails hdraw hfails
    · exact .goesOn hdraw hgoesOn
  · rintro s w s' w' ⟨hw, hkeep⟩ hturn
    refine ⟨?_, hkeep.tail hturn⟩
    rcases hturn with _ | _ | ⟨hdraw, hgoesOn⟩
    exact hkeep _ _ _ _ _ _ _ .zero hdraw hgoesOn (hw.of_draw hdraw).2

namespace Closure

open Compose

variable {list init : Expr}

/-- A loop over a list is composed of what its callback gives. -/
theorem composesFold_iterableLoop (list init : Expr) (body : Var → Var → Compose Closure)
    (s : Supply) :
    ComposesFold (iterableLoop list init body) init body s (list.ty = .list ·)
      (fun c state element b => c.FoldsList list init state element b) :=
  composesFold_of_exists (fun _ _ => piece_of_iterableLoop)
    fun _ _ _ hlist helem hvoid hb => exists_foldsList hlist helem hvoid hb

/-- A loop over a list with given elements steps with the values of a type only, as long as neither
the initial state nor a turn that it comes to puts other values into its own iterator. -/
def StepsOnlyWith (c : Closure) (ty : Ty) (list init : Expr) (state element : Var) (body : Closure)
    (id : Nat) (items : List Value) : Prop :=
  ∀ env w w₁ o, list.Ends env w (.ok (.list id items) w₁) →
    (∀ v w₂, init.Ends env (w₁.withIterator items) (.ok v w₂) →
      World.KeepsOffer w₁.iterators.size w₁.cells.size ty (w₁.withIterator items) w₂ ∧
      TurnsKeep w₁.iterators.size (body.stepWith state element env)
        (World.KeepsOffer w₁.iterators.size w₁.cells.size ty) v w₂) →
    (c.Ends env w o ↔
      (init.Ends env).Then (fun v w o => ∃ n,
        Course (DrawTurn w₁.iterators.size
          (Behaviour.onlyWith ty (body.stepWith state element env))) n v w o)
        (w₁.withIterator items) o)

/-- A loop over a list steps with admitted elements only, if the list has no others. -/
theorem FoldsList.stepsOnlyWith {c b : Closure} {state element : Var} {ty : Ty} {id : Nat}
    {items : List Value} (h : c.FoldsList list init state element b)
    (hitems : ∀ x ∈ items, ty.admits x = true) :
    c.StepsOnlyWith ty list init state element b id items := by
  intro env w w₁ o hlist hkeep
  have hread : ∀ o, (list.Ends env).Reads Value.expectItems w o ↔ o = .ok items w₁ :=
    Behaviour.reads_iff_of_ok (Expr.ends_iff_eq hlist) rfl
  have hmade : (w₁.withIterator items).Offers w₁.iterators.size w₁.cells.size ty :=
    ⟨items, w₁.hasLeft_withIterator items, hitems⟩
  rw [h.ends_iff, Behaviour.then_iff_of_ok hread]
  refine Behaviour.then_congr fun v w₂ hstate => exists_congr fun n => ?_
  obtain ⟨hinit, hturns⟩ := hkeep v w₂ hstate
  exact course_onlyWith_iff hturns (hinit hmade)

/-- A list type admits a list exactly if its element type admits every element, and a loop over a
list that has been let in steps with admitted elements only; both fail for lists of erased elements
with the absence of a value among them, and for no others. With nested lists the elements are
checked at every depth, but for such lists. -/
theorem list_elements_are_admitted (elem : Ty) (id : Nat) (items : List Value) :
    (((Ty.list elem).admits (.list id items) = true ↔ ∀ x ∈ items, elem.admits x = true) ↔
      ¬ (elem = .any ∧ .unit ∈ items)) ∧
    ((Ty.list elem).admitsEach (.list id items) = true ↔
      (Ty.list elem).admits (.list id items) = true ∧
        (Ty.list elem).hidesUnit (.list id items) = false) ∧
    (LetIn (.list elem) (.list id items) ↔ (Ty.list elem).admits (.list id items) = true) ∧
    (LetIn (.list elem) (.list id items) → ¬ (elem = .any ∧ .unit ∈ items) →
      ∀ list init body s c s', list.ty = .list elem → Gives (iterableLoop list init body) s c s' →
        ∃ b s₁, Gives (body (s.nextVar init.ty) (s.openScope.nextVar elem))
            s.openScope.openScope b s₁ ∧
          c.StepsOnlyWith elem list init (s.nextVar init.ty) (s.openScope.nextVar elem) b id
            items) := by
  refine ⟨Ty.admits_list_iff_forall_iff, Ty.admitsEach_iff _ _, letIn_list_iff, ?_⟩
  intro hin hunit list init body s c s' hlist hc
  obtain ⟨elem', b, s₁, hlist', hb, hfolds⟩ :=
    (composesFold_iterableLoop list init body s).folds c s' hc
  obtain rfl := Ty.list.inj (hlist.symm.trans hlist')
  have hitems := (Ty.admits_list_iff_forall_iff.2 hunit).1 hin.admits
  exact ⟨b, s₁, hb, hfolds.stepsOnlyWith hitems⟩

/-- A loop that goes on to each element of a list of integers, to the last one. -/
theorem list_elements_are_admitted_of_ints :
    let var : Var := ⟨8, 0, true, .list .int⟩
    let items : List Value := [.int 1, .int 3]
    let env : Env := fun _ => .list 9 items
    let init : Closure := ⟨.prim ⟨[], .int, by decide⟩ fun _ => return .int 0, [], rfl⟩
    let last : Handle := .prim ⟨[.int, .int], .int, by decide⟩ fun args =>
      return Handle.argument args 1
    let state : Var := ⟨1, 0, true, .int⟩
    let element : Var := ⟨2, 0, true, .int⟩
    let b : Closure := ⟨last, [state, element], rfl⟩
    LetIn (.list .int) (.list 9 items) ∧
      ∃ c, (∃ s', Gives (iterableLoop (.var var) init fun v x => wire last [v, x]) {} c s') ∧
        c.StepsOnlyWith .int (.var var) init state element b 9 items ∧
        c.Ends env {} (.ok (.int 3) { cells := #[[]], iterators := #[.ofCell 0] }) := by
  intro var items env init last state element b
  obtain ⟨-, -, hin, hloops⟩ := list_elements_are_admitted .int 9 items
  have hletIn : LetIn (.list .int) (.list 9 items) := hin.2 rfl
  have hiterable := composesFold_iterableLoop (.var var) init
    (fun v x => wire last [v, x]) {}
  have hbody : Gives (wire last [state, element]) (Supply.openScope {}).openScope b
    (Supply.openScope {}).openScope := rfl
  obtain ⟨c, s', hc⟩ := hiterable.accepts_iff.2 ⟨.int, rfl, nofun, nofun, b, _, hbody, rfl⟩
  obtain ⟨b', s₁, hb', hsteps⟩ :=
    hloops hletIn (fun h => nomatch h.1) (.var var) init _ {} c s' rfl hc
  obtain ⟨rfl, -⟩ := hbody.unique hb'
  have hends : ∀ x v w, b.stepWith state element env x v w (.ok x w) :=
    fun x v w => ⟨nofun, 0, rfl⟩
  have hsame : ∀ x v w r w', b.stepWith state element env x v w (.ok r w') → w' = w := by
    rintro x v w r w' ⟨-, _, hrun⟩
    exact (Outcome.ok.inj hrun).2.symm
  have hkeep : ∀ v w₂, (Expr.closure init).Ends env (World.withIterator {} items) (.ok v w₂) →
      World.KeepsOffer 0 0 .int (World.withIterator {} items) w₂ ∧
      TurnsKeep 0 (b.stepWith state element env) (World.KeepsOffer 0 0 .int) v w₂ := by
    rintro v w₂ ⟨-, _, hrun⟩
    obtain ⟨-, rfl⟩ := Outcome.ok.inj hrun
    refine ⟨id, fun n s₁ w₁ v w₂ s₂ w₃ _ _ hstep => ?_⟩
    rw [hsame _ _ _ _ _ hstep]
    exact id
  refine ⟨hletIn, c, ⟨s', hc⟩, hsteps, (hsteps env {} {} _ ⟨nofun, 0, rfl⟩ hkeep).2 ?_⟩
  have hturns : Steps (DrawTurn 0 (Behaviour.onlyWith .int (b.stepWith state element env))) (.int 0)
      (World.withIterator {} items) 2 (.int 3) { cells := #[[]], iterators := #[.ofCell 0] } :=
    .succ (.succ .zero (.goesOn rfl ⟨rfl, hends _ _ _⟩)) (.goesOn rfl ⟨rfl, hends _ _ _⟩)
  exact .returns ⟨nofun, 0, rfl⟩ ⟨2, .stops hturns (.stops rfl)⟩

/-- The erased type does not admit the absence of a value, and a list of erased elements with
nothing else in it is let in. A loop over it hands it on, and returns what is no value of its own
type. -/
theorem erased_list_hands_out_unit :
    let var : Var := ⟨8, 0, true, .list .any⟩
    let env : Env := fun _ => .list 9 [.unit]
    let init : Closure := ⟨.prim ⟨[], .any, by decide⟩ fun _ => return .null, [], rfl⟩
    let last : Handle := .prim ⟨[.any, .any], .any, by decide⟩ fun args =>
      return Handle.argument args 1
    (Ty.list .any).admits (.list 9 [.unit]) = true ∧ LetIn (.list .any) (.list 9 [.unit]) ∧
      Ty.any.admits .unit = false ∧
      ∃ c, (∃ s', Gives (iterableLoop (.var var) init fun v x => wire last [v, x]) {} c s') ∧
        c.ty = .any ∧
        c.Ends env {} (.ok .unit { cells := #[[]], iterators := #[.ofCell 0] }) := by
  intro var env init last
  have hiterable := composesFold_iterableLoop (.var var) init
    (fun v x => wire last [v, x]) {}
  let state : Var := ⟨1, 0, true, .any⟩
  let element : Var := ⟨2, 0, true, .any⟩
  let b : Closure := ⟨last, [state, element], rfl⟩
  have hbody : Gives (wire last [state, element]) (Supply.openScope {}).openScope b
    (Supply.openScope {}).openScope := rfl
  obtain ⟨c, s', hc⟩ := hiterable.accepts_iff.2 ⟨.any, rfl, nofun, nofun, b, _, hbody, rfl⟩
  obtain ⟨elem, b', _, hyields, hb', hfolds⟩ := hiterable.folds c s' hc
  obtain rfl : Ty.any = elem := Ty.list.inj hyields
  obtain ⟨rfl, -⟩ := hbody.unique hb'
  have hadmits : (Ty.list .any).admits (.list 9 [.unit]) = true := rfl
  have hlist : ((Expr.var var).Ends env) {} (.ok (.list 9 [.unit]) {}) := ⟨nofun, 0, rfl⟩
  have hread : ∀ o, ((Expr.var var).Ends env).Reads Value.expectItems {} o ↔ o = .ok [.unit] {} :=
    Behaviour.reads_iff_of_ok (Expr.ends_iff_eq hlist) rfl
  refine ⟨hadmits, letIn_list_iff.2 hadmits, rfl, c, ⟨s', hc⟩, hfolds.ty_eq, ?_⟩
  rw [hfolds.ends_iff, Behaviour.then_iff_of_ok hread]
  have hturn : Steps (DrawTurn 0 (b.stepWith state element env)) .null
      (World.withIterator {} [.unit]) 1 .unit { cells := #[[]], iterators := #[.ofCell 0] } :=
    .succ .zero (.goesOn rfl ⟨nofun, 0, rfl⟩)
  exact .returns ⟨nofun, 0, rfl⟩ ⟨1, .stops hturn (.stops rfl)⟩

end Closure

end Splice

import Splice.Proofs.Exec.Course
import Splice.Proofs.Exec.Fold
import Splice.Store.Iterator

/-!
# Loops over iterators

Each turn of a loop over an iterator draws one value, and steps the state with it in the world that
the draw has left. So much is said of every iterator and of every step: a draw may have effects,
there may be a value each time, and a step may draw from the same iterator.

What an iterator has yet to give is `World.offered`, by the number of draws. Where no step that the
loop comes to changes it, the loop is a left fold over the values offered, up to the first draw that
gives none (`course_ok_iff`) or to the first step that fails (`course_thrown_iff`), and what is
offered behind the values that the loop has drawn is left to others.
-/

namespace Splice

variable {σ : Type}

/-! ## Turns that draw -/

namespace Exec

/-- Steps a state with a value that has been drawn. -/
def stepWith (step : Value → σ → Exec σ) (s : σ) : (drawn : Option Value) → Exec (σ ⊕ σ)
  | some v => return .inl (← step v s)
  | none => return .inr s

/-- Draws a value, and steps a state with it if there is one. -/
def drawTurn (draw : Exec (Option Value)) (step : Value → σ → Exec σ) (s : σ) : Exec (σ ⊕ σ) :=
  draw >>= stepWith step s

/-- The loop that is run is a number of turns. -/
theorem drain_eq_iterate (draw : Exec (Option Value)) (step : Value → σ → Exec σ) (turns : Nat)
    (s : σ) : drain draw step turns s = iterate (drawTurn draw step) turns s := by
  induction turns generalizing s with
  | zero => rfl
  | succ turns ih =>
    rw [drain, iterate, drawTurn, bind_assoc]
    refine bind_congr fun drawn => ?_
    cases drawn with
    | none => simp [stepWith]
    | some v => simp [stepWith, ih]

end Exec

/-- A turn of a loop over an iterator: a draw, and a step with the value that has been drawn. The
step runs in the world that the draw has left. -/
inductive DrawTurn (addr : Nat) (step : Value → σ → Behaviour σ) (s : σ) : Behaviour (σ ⊕ σ)
  | stops : w.draw addr = (none, w') → DrawTurn addr step s w (.ok (.inr s) w')
  | stepFails : w.draw addr = (some v, w₁) → step v s w₁ (.thrown e w') →
      DrawTurn addr step s w (.thrown e w')
  | goesOn : w.draw addr = (some v, w₁) → step v s w₁ (.ok s' w') →
      DrawTurn addr step s w (.ok (.inl s') w')

namespace Exec

variable {step : Nat → Value → σ → Exec σ}

/-- More turns of inner loops change nothing of a step that has ended. -/
theorem steady_stepWith (hstep : ∀ v s, Steady (step · v s)) (s : σ) (drawn : Option Value) :
    Steady fun turns => stepWith (step turns) s drawn := by
  cases drawn with
  | none => exact .const _
  | some v => exact (hstep v s).bind fun s' => .const (pure (Sum.inl s'))

/-- More turns of inner loops change nothing of a turn that has ended. -/
theorem steady_drawTurn (draw : Exec (Option Value)) (hstep : ∀ v s, Steady (step · v s)) (s : σ) :
    Steady fun turns => drawTurn draw (step turns) s :=
  (Steady.const draw).bind (steady_stepWith hstep s)

/-- A draw comes to its end, whatever it does. -/
theorem ends_next_iff {addr : Nat} {w : World} {o : Outcome (Option Value)} :
    Ends (fun _ => Iterator.next addr) w o ↔ o = .ok (w.draw addr).1 (w.draw addr).2 := by
  rw [ends_const_iff]
  constructor
  · rintro ⟨-, rfl⟩
    rfl
  · rintro rfl
    exact ⟨nofun, rfl⟩

/-- What ends of a turn is told by the draw and by the step. -/
theorem ends_drawTurn (addr : Nat) (hstep : ∀ v s, Steady (step · v s)) (s : σ) :
    Ends (fun turns => drawTurn (Iterator.next addr) (step turns) s) =
      DrawTurn addr (fun v s => Ends (step · v s)) s := by
  have hgoesOn : ∀ v, Ends (fun turns => stepWith (step turns) s (some v)) =
      (Ends (step · v s)).Then fun s' w o => o = .ok (.inl s') w :=
    fun v => ends_map (hstep v s) (Sum.inl : σ → σ ⊕ σ)
  change Ends (fun turns => Iterator.next addr >>= stepWith (step turns) s) = _
  rw [ends_bind (.const _) (steady_stepWith hstep s)]
  funext w o
  rw [Behaviour.then_iff_of_ok fun _ => ends_next_iff]
  apply propext
  -- the turn is told by what the draw gives, which no step can change any more
  obtain ⟨⟨drawn, w₁⟩, hdraw⟩ : ∃ drawn, drawn = w.draw addr := ⟨_, rfl⟩
  rw [← hdraw]
  cases drawn with
  | none =>
    constructor
    · intro hrest
      obtain rfl := ends_pure_iff.1 hrest
      exact .stops hdraw.symm
    · rintro (hnone | ⟨hsome, -⟩ | ⟨hsome, -⟩)
      · obtain rfl : w₁ = _ := congrArg Prod.snd (hdraw.trans hnone)
        exact ends_pure_iff.2 rfl
      · exact nomatch hdraw.trans hsome
      · exact nomatch hdraw.trans hsome
  | some v =>
    change Ends (fun turns => stepWith (step turns) s (some v)) w₁ o ↔ _
    rw [hgoesOn]
    constructor
    · rintro (hfails | ⟨hs, rfl⟩)
      · exact .stepFails hdraw.symm hfails
      · exact .goesOn hdraw.symm hs
    · rintro (hnone | ⟨hsome, hfails⟩ | ⟨hsome, hs⟩)
      · exact nomatch hdraw.trans hnone
      · obtain ⟨hv, rfl⟩ := Prod.mk.inj (hdraw.trans hsome)
        obtain rfl := Option.some.inj hv
        exact .fails hfails
      · obtain ⟨hv, rfl⟩ := Prod.mk.inj (hdraw.trans hsome)
        obtain rfl := Option.some.inj hv
        exact .returns hs rfl

/-- More turns change nothing of a loop that has ended. -/
theorem steady_drain (draw : Exec (Option Value)) (hstep : ∀ v s, Steady (step · v s)) (s : σ) :
    Steady fun turns => drain draw (step turns) turns s := by
  simp only [drain_eq_iterate]
  exact .iterate (steady_drawTurn draw hstep) s

/-- A loop over an iterator goes through a turn for each value that it draws. -/
theorem ends_drain (addr : Nat) (hstep : ∀ v s, Steady (step · v s)) (s : σ) :
    Ends (fun turns => drain (Iterator.next addr) (step turns) turns s) = fun w o =>
      ∃ n, Course (DrawTurn addr fun v s => Ends (step · v s)) n s w o := by
  simp only [drain_eq_iterate]
  funext w o
  rw [ends_iterate_iff (steady_drawTurn _ hstep), funext (ends_drawTurn addr hstep)]

end Exec

/-! ## What an iterator has yet to give -/

namespace World

/-- What an iterator gives when it is drawn from again and again and nothing else happens: the
results of the draws, by the number of draws before. -/
def offered (addr : Nat) : World → Nat → Option Value
  | w, 0 => (w.draw addr).1
  | w, n + 1 => offered addr (w.draw addr).2 n

/-- The first draws from an iterator give values, in order. -/
def Gives (w : World) (addr : Nat) (items : List Value) : Prop :=
  ∀ i, i < items.length → w.offered addr i = items[i]?

/-- An iterator gives values, in order, and then none. -/
structure GivesAll (w : World) (addr : Nat) (items : List Value) : Prop where
  gives : w.Gives addr items
  ends : w.offered addr items.length = none

variable {w w' : World} {addr : Nat} {v : Value} {items : List Value}

/-- No values are given by every iterator. -/
theorem gives_nil (w : World) (addr : Nat) : w.Gives addr [] := fun _ hi => nomatch hi

/-- The first draw gives the first value, and the others are given in the world that it leaves. -/
theorem gives_cons_iff :
    w.Gives addr (v :: items) ↔ (w.draw addr).1 = some v ∧ (w.draw addr).2.Gives addr items := by
  constructor
  · intro h
    exact ⟨h 0 (Nat.zero_lt_succ _), fun i hi => h (i + 1) (Nat.succ_lt_succ hi)⟩
  · rintro ⟨hfirst, hrest⟩ i hi
    cases i with
    | zero => exact hfirst
    | succ i => exact hrest i (Nat.lt_of_succ_lt_succ hi)

/-- What is given depends on nothing but what is offered. -/
theorem Gives.congr (h : w.Gives addr items) (hw : w'.offered addr = w.offered addr) :
    w'.Gives addr items := by
  intro i hi
  rw [hw]
  exact h i hi

/-- If more values are given then so are the first of them. -/
theorem Gives.left {before after : List Value} (h : w.Gives addr (before ++ after)) :
    w.Gives addr before := by
  intro i hi
  rw [h i (by simp; omega), List.getElem?_append_left hi]

/-- A value is given behind others if it is offered behind them. -/
theorem Gives.concat {before : List Value} (h : w.Gives addr before)
    (hv : w.offered addr before.length = some v) : w.Gives addr (before ++ [v]) := by
  intro i hi
  rcases Nat.lt_succ_iff_lt_or_eq.1 (by simpa using hi) with hlt | rfl
  · rw [h i hlt, List.getElem?_append_left hlt]
  · rw [hv, List.getElem?_concat_length]

/-- Where an iterator offers the values of a list, the first values that it gives are those of the
list. -/
theorem gives_iff_startsWith {before : List Value} (h : ∀ n, w.offered addr n = items[n]?) :
    w.Gives addr before ↔ before <+: items := by
  rw [List.prefix_iff_getElem?]
  refine forall_congr' fun i => forall_congr' fun hi => ?_
  rw [h i, List.getElem?_eq_getElem hi]

/-- Where an iterator offers the values of a list, it gives all of them and no others. -/
theorem givesAll_iff_eq {all : List Value} (h : ∀ n, w.offered addr n = items[n]?) :
    w.GivesAll addr all ↔ all = items := by
  constructor
  · rintro ⟨hgives, hends⟩
    have hstarts := (gives_iff_startsWith h).1 hgives
    rw [h, List.getElem?_eq_none_iff] at hends
    exact hstarts.eq_of_length_le hends
  · rintro rfl
    refine ⟨(gives_iff_startsWith h).2 (List.prefix_refl _), ?_⟩
    rw [h, List.getElem?_eq_none (Nat.le_refl _)]

end World

/-! ## Loops whose steps leave the iterator alone -/

/-- In every completed turn that a loop over an iterator comes to, the step leaves a world that is
related to the one that it has found. -/
def TurnsKeep (addr : Nat) (step : Value → σ → Behaviour σ) (keeps : World → World → Prop) (s : σ)
    (w : World) : Prop :=
  ∀ n s₁ w₁ v w₂ s₂ w₃, Steps (DrawTurn addr step) s w n s₁ w₁ → w₁.draw addr = (some v, w₂) →
    step v s₁ w₂ (.ok s₂ w₃) → keeps w₂ w₃

/-- No completed turn that a loop over an iterator comes to changes what the iterator has yet to
give, apart from the draw of the loop. -/
def TurnsSpare (addr : Nat) (step : Value → σ → Behaviour σ) : σ → World → Prop :=
  TurnsKeep addr step fun w w' => w'.offered addr = w.offered addr

/-- A step with a value in the world that the draw of it has left. -/
def Behaviour.drawn (addr : Nat) (step : Value → σ → Behaviour σ) (v : Value) (s : σ) :
    Behaviour σ :=
  fun w => step v s (w.draw addr).2

section

variable {addr : Nat} {step : Value → σ → Behaviour σ} {keeps : World → World → Prop}
  {s s' : σ} {w w' : World} {items before : List Value}

open Behaviour (drawn)

/-- What is kept by all turns is kept by those behind the first. -/
theorem TurnsKeep.tail (h : TurnsKeep addr step keeps s w)
    (hfirst : DrawTurn addr step s w (.ok (.inl s') w')) : TurnsKeep addr step keeps s' w' :=
  fun n s₁ w₁ v w₂ s₂ w₃ hsteps => h (n + 1) s₁ w₁ v w₂ s₂ w₃ (.head hfirst hsteps)

/-- The first turn of a loop, where the draw gives a value and the step with it returns. -/
theorem drawTurn_of_drawn {v : Value} (hv : (w.draw addr).1 = some v)
    (hstep : drawn addr step v s w (.ok s' w')) : DrawTurn addr step s w (.ok (.inl s') w') :=
  .goesOn (Prod.ext hv rfl) hstep

/-- Completed turns are a fold over the first values that are offered, and leave those behind. -/
theorem exists_fold_of_steps (hspare : TurnsSpare addr step s w) {n : Nat}
    (hsteps : Steps (DrawTurn addr step) s w n s' w') :
    ∃ before, before.length = n ∧ w.Gives addr before ∧
      Behaviour.fold (drawn addr step) before s w (.ok s' w') ∧
      ∀ m, w'.offered addr m = w.offered addr (n + m) := by
  -- the induction adds turns at the end, as what is offered behind them is what the last one has
  -- left
  induction hsteps with
  | zero => exact ⟨[], rfl, w.gives_nil addr, rfl, fun m => by rw [Nat.zero_add]⟩
  | succ hbefore hlast ih =>
    rename_i n s₁ w₁ s₂ w₂
    obtain ⟨before, rfl, hgives, hfold, hbehind⟩ := ih
    rcases hlast with _ | _ | ⟨hdraw, hstep⟩
    rename_i v w₃
    have hv : w.offered addr before.length = some v :=
      (hbehind 0).symm.trans (congrArg Prod.fst hdraw)
    have hspared := hspare _ _ _ _ _ _ _ hbefore hdraw hstep
    have hdrawn : drawn addr step v s₁ w₁ (.ok s₂ w₂) := by
      rw [drawn, hdraw]
      exact hstep
    refine ⟨before ++ [v], by simp, hgives.concat hv,
      Behaviour.fold_append hfold (.returns hdrawn rfl), fun m => ?_⟩
    -- the draw of the last turn shifts what is offered once more
    have hleft : w₃ = (w₁.draw addr).2 := (congrArg Prod.snd hdraw).symm
    rw [hspared, hleft]
    exact (hbehind (m + 1)).trans (congrArg _ (by omega))

/-- A fold over values that are offered is a number of completed turns. -/
theorem steps_of_fold (hspare : TurnsSpare addr step s w) (hgives : w.Gives addr before)
    (hfold : Behaviour.fold (drawn addr step) before s w (.ok s' w')) :
    Steps (DrawTurn addr step) s w before.length s' w' := by
  induction before generalizing s w with
  | nil =>
    obtain ⟨rfl, rfl⟩ := Outcome.ok.inj hfold
    exact .zero
  | cons v before ih =>
    obtain ⟨hv, hrest⟩ := World.gives_cons_iff.1 hgives
    rcases hfold with _ | ⟨hstep, hbefore⟩
    have hfirst := drawTurn_of_drawn hv hstep
    -- the first draw shifts what is offered by one, and the first step leaves it so
    have hspared := hspare 0 _ _ _ _ _ _ .zero (Prod.ext hv rfl) hstep
    exact .head hfirst (ih (hspare.tail hfirst) (hrest.congr hspared) hbefore)

/-- Behind a fold over values that are offered, the others are offered. -/
theorem offered_of_fold (hspare : TurnsSpare addr step s w) (hgives : w.Gives addr before)
    (hfold : Behaviour.fold (drawn addr step) before s w (.ok s' w')) (m : Nat) :
    w'.offered addr m = w.offered addr (before.length + m) := by
  obtain ⟨-, -, -, -, hbehind⟩ :=
    exists_fold_of_steps hspare (steps_of_fold hspare hgives hfold)
  exact hbehind m

/-- A loop returns exactly if a draw gives no value and the steps with all values offered before
return; the draw that gives none is the last thing that it does. -/
theorem course_ok_iff (hspare : TurnsSpare addr step s w) {r : σ} :
    (∃ n, Course (DrawTurn addr step) n s w (.ok r w')) ↔ ∃ items w₁, w.GivesAll addr items ∧
      Behaviour.fold (drawn addr step) items s w (.ok r w₁) ∧ w' = (w₁.draw addr).2 := by
  constructor
  · rintro ⟨n, ⟨hsteps, hlast⟩⟩
    obtain ⟨items, rfl, hgives, hfold, hbehind⟩ := exists_fold_of_steps hspare hsteps
    rcases hlast with hnone | _ | _
    have hends : w.offered addr items.length = none :=
      (hbehind 0).symm.trans (congrArg Prod.fst hnone)
    exact ⟨items, _, ⟨hgives, hends⟩, hfold, (congrArg Prod.snd hnone).symm⟩
  · rintro ⟨items, w₁, ⟨hgives, hends⟩, hfold, rfl⟩
    have hnone : (w₁.draw addr).1 = none := (offered_of_fold hspare hgives hfold 0).trans hends
    exact ⟨items.length,
      .stops (steps_of_fold hspare hgives hfold) (.stops (Prod.ext hnone rfl))⟩

/-- A loop fails exactly if the step with some value that is offered does, after the steps with all
values offered before. -/
theorem course_thrown_iff (hspare : TurnsSpare addr step s w) {e : Exception} :
    (∃ n, Course (DrawTurn addr step) n s w (.thrown e w')) ↔ ∃ before v s₁ w₁,
      w.Gives addr (before ++ [v]) ∧
      Behaviour.fold (drawn addr step) before s w (.ok s₁ w₁) ∧
      drawn addr step v s₁ w₁ (.thrown e w') := by
  constructor
  · rintro ⟨n, _ | ⟨hsteps, hlast⟩⟩
    obtain ⟨before, rfl, hgives, hfold, hbehind⟩ := exists_fold_of_steps hspare hsteps
    rcases hlast with _ | ⟨hdraw, hfails⟩ | _
    rename_i s₁ w₁ v w₂
    have hv : w.offered addr before.length = some v :=
      (hbehind 0).symm.trans (congrArg Prod.fst hdraw)
    refine ⟨before, v, s₁, w₁, hgives.concat hv, hfold, ?_⟩
    rw [drawn, hdraw]
    exact hfails
  · rintro ⟨before, v, s₁, w₁, hgives, hfold, hfails⟩
    have hv : (w₁.draw addr).1 = some v := by
      rw [← List.getElem?_concat_length (l := before) (a := v)]
      exact (offered_of_fold hspare hgives.left hfold 0).trans
        (hgives before.length (by simp))
    exact ⟨before.length,
      .fails (steps_of_fold hspare hgives.left hfold) (.stepFails (Prod.ext hv rfl) hfails)⟩

end

/-! ## Iterators over given values -/

/-- An iterator takes its values from a cell, which has these left. -/
structure World.HasLeft (w : World) (addr cell : Nat) (items : List Value) : Prop where
  source_eq : w.iterators[addr]? = some (.ofCell cell)
  cell_eq : w.cells[cell]? = some items

/-- Between two worlds, nothing has been drawn from an iterator over given values. -/
def World.Leaves (addr cell : Nat) (w w' : World) : Prop :=
  ∀ items, w.HasLeft addr cell items → w'.HasLeft addr cell items

namespace World.HasLeft

variable {w : World} {addr cell : Nat} {v : Value} {items rest : List Value}

/-- Nothing left, nothing drawn, and the world stays as it is. -/
theorem draw_nil (h : w.HasLeft addr cell []) : w.draw addr = (none, w) := by
  simp [draw, h.source_eq, Source.ofCell, h.cell_eq]

/-- The first of the values left is drawn, and the others are left. -/
theorem draw_cons (h : w.HasLeft addr cell (v :: rest)) :
    (w.draw addr).1 = some v ∧ (w.draw addr).2.HasLeft addr cell rest := by
  obtain ⟨hlt, -⟩ := Array.getElem?_eq_some_iff.1 h.cell_eq
  have hdraw : w.draw addr = (some v, { w with cells := w.cells.setIfInBounds cell rest }) := by
    simp [draw, h.source_eq, Source.ofCell, h.cell_eq]
  rw [hdraw]
  exact ⟨rfl, h.source_eq, by simp [hlt]⟩

/-- What is left is offered, value for value. -/
theorem offered_eq (h : w.HasLeft addr cell items) (n : Nat) : w.offered addr n = items[n]? := by
  induction n generalizing w items with
  | zero =>
    cases items with
    | nil => exact congrArg Prod.fst h.draw_nil
    | cons v rest => exact h.draw_cons.1
  | succ n ih =>
    rw [offered]
    cases items with
    | nil =>
      rw [h.draw_nil]
      exact ih h
    | cons v rest => exact ih h.draw_cons.2

end World.HasLeft

section

variable {addr cell : Nat} {step : Value → σ → Behaviour σ} {s s' : σ} {w w' : World}
  {items : List Value}

open Behaviour (drawn)

/-- Each completed turn takes one value from what an iterator has left. -/
theorem hasLeft_of_steps (hkeep : TurnsKeep addr step (World.Leaves addr cell) s w)
    (hleft : w.HasLeft addr cell items) {n : Nat}
    (hsteps : Steps (DrawTurn addr step) s w n s' w') : w'.HasLeft addr cell (items.drop n) := by
  induction hsteps with
  | zero => exact hleft
  | succ hbefore hlast ih =>
    rename_i n s₁ w₁ s₂ w₂
    -- a completed turn has drawn a value, so there has been one left
    rcases hlast with _ | _ | ⟨hdraw, hstep⟩
    rename_i v w₃
    have hkept := hkeep _ _ _ _ _ _ _ hbefore hdraw hstep
    cases hrest : items.drop n with
    | nil =>
      rw [hrest] at ih
      exact nomatch hdraw.symm.trans ih.draw_nil
    | cons x rest =>
      rw [hrest] at ih
      have hbehind := ih.draw_cons.2
      rw [hdraw] at hbehind
      have hdrop : items.drop (n + 1) = rest := by
        rw [← List.tail_drop, hrest, List.tail_cons]
      exact hdrop ▸ hkept _ hbehind

/-- A step that takes nothing from the cell leaves on offer what is left in it. -/
theorem turnsSpare_of_leaves (hkeep : TurnsKeep addr step (World.Leaves addr cell) s w)
    (hleft : w.HasLeft addr cell items) : TurnsSpare addr step s w := by
  intro n s₁ w₁ v w₂ s₂ w₃ hsteps hdraw hstep
  have hbefore := hasLeft_of_steps hkeep hleft hsteps
  have hkept := hkeep _ _ _ _ _ _ _ hsteps hdraw hstep
  cases hrest : items.drop n with
  | nil =>
    rw [hrest] at hbefore
    exact nomatch hdraw.symm.trans hbefore.draw_nil
  | cons x rest =>
    rw [hrest] at hbefore
    have hdrawn := hbefore.draw_cons.2
    rw [hdraw] at hdrawn
    funext m
    rw [(hkept _ hdrawn).offered_eq, hdrawn.offered_eq]

/-- A loop is a fold over the values that its iterator has, if no completed turn that it comes to
changes what the iterator has left. -/
theorem course_drawTurn_iff_fold (hkeep : TurnsKeep addr step (World.Leaves addr cell) s w)
    (hleft : w.HasLeft addr cell items) {o : Outcome σ} :
    (∃ n, Course (DrawTurn addr step) n s w o) ↔
      Behaviour.fold (drawn addr step) items s w o := by
  have hspare := turnsSpare_of_leaves hkeep hleft
  cases o with
  | ok r w' =>
    -- when all values are gone, the draw that gives none leaves the world as it is
    have hends : ∀ w₁, Behaviour.fold (drawn addr step) items s w (.ok r w₁) →
        (w₁.draw addr).2 = w₁ := by
      intro w₁ hfold
      have hgives := (World.gives_iff_startsWith hleft.offered_eq).2 (List.prefix_refl items)
      have hnone := hasLeft_of_steps hkeep hleft (steps_of_fold hspare hgives hfold)
      rw [List.drop_length] at hnone
      exact congrArg Prod.snd hnone.draw_nil
    rw [course_ok_iff hspare]
    simp only [World.givesAll_iff_eq hleft.offered_eq]
    constructor
    · rintro ⟨_, w₁, rfl, hfold, rfl⟩
      rwa [hends w₁ hfold]
    · intro hfold
      exact ⟨items, w', rfl, hfold, (hends w' hfold).symm⟩
  | thrown e w' =>
    rw [course_thrown_iff hspare, Behaviour.fold_thrown_iff]
    simp only [World.gives_iff_startsWith hleft.offered_eq]
    constructor
    · rintro ⟨before, v, s₁, w₁, ⟨after, hitems⟩, hfold, hfails⟩
      exact ⟨before, v, after, s₁, w₁, by simpa using hitems.symm, hfold, hfails⟩
    · rintro ⟨before, v, after, s₁, w₁, hitems, hfold, hfails⟩
      exact ⟨before, v, s₁, w₁, ⟨after, by simpa using hitems.symm⟩, hfold, hfails⟩
  | unfinished =>
    exact iff_of_false (fun ⟨_, hcourse⟩ => nomatch hcourse) Behaviour.not_fold_unfinished

end

end Splice

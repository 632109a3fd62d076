import Splice.Exec
import Splice.Store.Iterator

/-!
# Traced runs

A traced run does what a plain one does and lists what has happened on the way: the runs of native
functions and the draws from iterators, each with the world that it has found.
`Traced.Accounts` relates the two. They end alike, and whatever differs between the world before
and the world after has been changed by an event of the list, the next identity aside.
`Traced.FailsFast` says that a native function which fails ends the run that it is part of, at
once and with its own exception. Both are kept by every way in which runs are put together, the
second one except by an attempt.
-/

namespace Splice

/-- The world in which a run has ended. -/
def Outcome.world? : Outcome α → Option World
  | .ok _ w | .thrown _ w => some w
  | .unfinished => none

/-- The worlds do not differ, but for the next identity. -/
def World.SameObjects (w w' : World) : Prop := w' = { w with nextId := w'.nextId }

/-- Nothing is changed by doing nothing. -/
theorem World.SameObjects.refl (w : World) : w.SameObjects w := rfl

/-- If no object is changed by either of two runs, none is changed by both. -/
theorem World.SameObjects.trans {w w₁ w' : World} (h : w.SameObjects w₁)
    (h' : w₁.SameObjects w') : w.SameObjects w' := by
  unfold SameObjects at h h'
  rw [h] at h'
  exact h'

/-- What runs are listed by: no other step of a run reads or changes an object. -/
inductive Event where
  /-- A native function is run. -/
  | ran (run : List Value → Exec Value) (args : List Value) (w : World)
  /-- A value is drawn from an iterator. -/
  | drew (addr : Nat) (w : World)

namespace Event

/-- The world that the event has found. -/
def start : Event → World
  | ran _ _ w | drew _ w => w

/-- The world that the event has left. -/
def stop? : Event → Option World
  | ran run args w => (run args w).world?
  | drew addr w => (Iterator.next addr w).world?

/-- Events lead from a world to another one: each finds the objects as the one before it has left
them, and the last one leaves them for good. -/
inductive Path : World → List Event → World → Prop
  | nil (hobjects : w.SameObjects w') : Path w [] w'
  | cons {event : Event} (hobjects : w.SameObjects event.start) (hstop : event.stop? = some w₁)
      (hrest : Path w₁ events w') : Path w (event :: events) w'

/-- Changes of the next identity before the events do not matter. -/
theorem Path.after {w w₁ w' : World} {events : List Event} (hobjects : w.SameObjects w₁)
    (h : Path w₁ events w') : Path w events w' := by
  cases h with
  | nil h => exact .nil (hobjects.trans h)
  | cons h hstop hrest => exact .cons (hobjects.trans h) hstop hrest

/-- Events that follow each other lead on. -/
theorem Path.append {w w₁ w' : World} {events events' : List Event} (h : Path w events w₁)
    (h' : Path w₁ events' w') : Path w (events ++ events') w' := by
  induction h with
  | nil hobjects => exact h'.after hobjects
  | cons hobjects hstop _ ih => exact .cons hobjects hstop (ih h')

end Event

/-- A run with the events on its way, which are also known of a run that has failed. -/
def Traced (α : Type) : Type := World → List Event × Outcome α

namespace Traced

protected def pure (a : α) : Traced α := fun w => ([], .ok a w)

protected def bind (x : Traced α) (f : α → Traced β) : Traced β := fun w =>
  match x w with
  | (events, .ok a w') => let (more, outcome) := f a w'; (events ++ more, outcome)
  | (events, .thrown e w') => (events, .thrown e w')
  | (events, .unfinished) => (events, .unfinished)

instance : Monad Traced where
  pure := Traced.pure
  bind := Traced.bind

/-- A run in which nothing happens. -/
def quietly (x : Exec α) : Traced α := fun w => ([], x w)

/-- The run of a native function. -/
def native (run : List Value → Exec Value) (args : List Value) : Traced Value := fun w =>
  ([.ran run args w], run args w)

/-- A draw from an iterator. -/
def draw (addr : Nat) : Traced (Option Value) := fun w => ([.drew addr w], Iterator.next addr w)

/-- Makes the way a run ended, by value or exception, a value. -/
def attempt (x : Traced α) : Traced (Except Exception α) := fun w =>
  match x w with
  | (events, .ok a w') => (events, .ok (.ok a) w')
  | (events, .thrown e w') => (events, .ok (.error e) w')
  | (events, .unfinished) => (events, .unfinished)

/-! ## Loops -/

def repeatWhile (test : σ → Traced Bool) (step : σ → Traced σ) : (turns : Nat) → σ → Traced σ
  | 0, _ => quietly Exec.unfinished
  | turns + 1, s => do
    if ← test s then repeatWhile test step turns (← step s) else return s

def repeatUntil (test : σ → Traced Bool) (step : σ → Traced σ) : (turns : Nat) → σ → Traced σ
  | 0, _ => quietly Exec.unfinished
  | turns + 1, s => do
    let s ← step s
    if ← test s then repeatUntil test step turns s else return s

def countUp (step : Int32 → σ → Traced σ) : (count : Nat) → (index : Int32) → σ → Traced σ
  | 0, _, s => return s
  | count + 1, index, s => do countUp step count (index + 1) (← step index s)

def drain (draw : Traced (Option Value)) (step : Value → σ → Traced σ) :
    (turns : Nat) → σ → Traced σ
  | 0, _ => quietly Exec.unfinished
  | turns + 1, s => do
    match ← draw with
    | none => return s
    | some v => drain draw step turns (← step v s)

/-- What happens in a sequence happens in its first part, and behind that in the second one if the
first has returned. -/
theorem bind_apply (x : Traced α) (f : α → Traced β) (w : World) :
    (x >>= f) w =
      match x w with
      | (events, .ok a w') => (events ++ (f a w').1, (f a w').2)
      | (events, .thrown e w') => (events, .thrown e w')
      | (events, .unfinished) => (events, .unfinished) := rfl

/-! ## Traced and plain runs -/

/-- A traced run from a world has ended as a plain one, and its events account for every change of
an object. -/
structure Told (w : World) (traced : List Event × Outcome α) (plain : Outcome α) : Prop where
  outcome_eq : traced.2 = plain
  path : ∀ w', plain.world? = some w' → Event.Path w traced.1 w'

/-- From every world, a traced run tells of a plain one. -/
def Accounts (x : Traced α) (y : Exec α) : Prop := ∀ w, Told w (x w) (y w)

namespace Accounts

/-- What leaves all objects alone need not be traced. -/
theorem quietly {y : Exec α} (hy : ∀ w w', (y w).world? = some w' → w.SameObjects w') :
    Accounts (quietly y) y :=
  fun w => ⟨rfl, fun w' hw => .nil (hy w w' hw)⟩

/-- A result alone changes nothing. -/
theorem pure (a : α) : Accounts (Pure.pure a) (Pure.pure a) :=
  quietly fun _ _ hw => Option.some.inj hw ▸ .refl _

/-- A run that does not end has no world to account for. -/
theorem unfinished : Accounts (Traced.quietly Exec.unfinished) (Exec.unfinished : Exec α) :=
  quietly fun _ _ hw => by cases hw

/-- Throwing an exception that is there changes nothing. -/
theorem throw (e : Exception) :
    Accounts (Traced.quietly (Exec.throw e)) (Exec.throw e : Exec α) :=
  quietly fun _ _ hw => Option.some.inj hw ▸ .refl _

/-- A fault takes an identity for its exception. -/
theorem raise (fault : Fault) :
    Accounts (Traced.quietly (Exec.raise fault)) (Exec.raise fault : Exec α) :=
  quietly fun _ _ hw => Option.some.inj hw ▸ rfl

/-- What is refused by a fault changes the next identity only. -/
theorem lift (r : Except Fault α) : Accounts (Traced.quietly (liftM r)) (liftM r) := by
  cases r with
  | ok a => exact pure a
  | error fault => exact raise fault

/-- The run of a native function is one event. -/
theorem native (run : List Value → Exec Value) (args : List Value) :
    Accounts (Traced.native run args) (run args) :=
  fun w => ⟨rfl, fun w' hw => .cons (.refl w) hw (.nil (.refl w'))⟩

/-- A draw from an iterator is one event. -/
theorem draw (addr : Nat) : Accounts (Traced.draw addr) (Iterator.next addr) :=
  fun w => ⟨rfl, fun w' hw => .cons (.refl w) hw (.nil (.refl w'))⟩

/-- If both parts of a sequence are accounted for, so is the sequence. -/
theorem bind {x : Traced α} {y : Exec α} {f : α → Traced β} {g : α → Exec β}
    (hx : Accounts x y) (hf : ∀ a, Accounts (f a) (g a)) : Accounts (x >>= f) (y >>= g) := by
  intro w
  have hfirst := hx w
  rw [bind_apply, Exec.bind_apply]
  -- both runs end alike from here, so one split of the outcome tells what each of them does next
  generalize x w = traced at hfirst ⊢
  generalize y w = plain at hfirst ⊢
  obtain ⟨events, outcome⟩ := traced
  obtain ⟨rfl, hpath⟩ := hfirst
  cases outcome with
  | ok a w₁ =>
    have hrest := hf a w₁
    exact ⟨hrest.outcome_eq, fun w' hw => (hpath w₁ rfl).append (hrest.path w' hw)⟩
  | thrown e w₁ => exact ⟨rfl, hpath⟩
  | unfinished => exact ⟨rfl, hpath⟩

/-- An attempt goes on from the world in which its run has ended. -/
theorem attempt {x : Traced α} {y : Exec α} (hx : Accounts x y) :
    Accounts x.attempt y.attempt := by
  intro w
  have hrun := hx w
  rw [Traced.attempt, Exec.attempt]
  generalize x w = traced at hrun ⊢
  generalize y w = plain at hrun ⊢
  obtain ⟨events, outcome⟩ := traced
  obtain ⟨rfl, hpath⟩ := hrun
  cases outcome with
  | ok a w₁ => exact ⟨rfl, hpath⟩
  | thrown e w₁ => exact ⟨rfl, hpath⟩
  | unfinished => exact ⟨rfl, hpath⟩

section

variable {test : σ → Traced Bool} {test' : σ → Exec Bool} {step : σ → Traced σ}
  {step' : σ → Exec σ}

/-- A loop with a test first is accounted for, turn by turn. -/
theorem repeatWhile (htest : ∀ s, Accounts (test s) (test' s))
    (hstep : ∀ s, Accounts (step s) (step' s)) (turns : Nat) (s : σ) :
    Accounts (Traced.repeatWhile test step turns s) (Exec.repeatWhile test' step' turns s) := by
  induction turns generalizing s with
  | zero => exact unfinished
  | succ turns ih =>
    refine (htest s).bind fun holds => ?_
    cases holds with
    | true => exact (hstep s).bind ih
    | false => exact pure s

/-- A loop with a test last is accounted for, turn by turn. -/
theorem repeatUntil (htest : ∀ s, Accounts (test s) (test' s))
    (hstep : ∀ s, Accounts (step s) (step' s)) (turns : Nat) (s : σ) :
    Accounts (Traced.repeatUntil test step turns s) (Exec.repeatUntil test' step' turns s) := by
  induction turns generalizing s with
  | zero => exact unfinished
  | succ turns ih =>
    refine (hstep s).bind fun s' => (htest s').bind fun holds => ?_
    cases holds with
    | true => exact ih s'
    | false => exact pure s'

/-- A counted loop is accounted for, turn by turn. -/
theorem countUp {step : Int32 → σ → Traced σ} {step' : Int32 → σ → Exec σ}
    (hstep : ∀ i s, Accounts (step i s) (step' i s)) (count : Nat) (i : Int32) (s : σ) :
    Accounts (Traced.countUp step count i s) (Exec.countUp step' count i s) := by
  induction count generalizing i s with
  | zero => exact pure s
  | succ count ih => exact (hstep i s).bind (ih (i + 1))

/-- A loop over an iterator is accounted for, draw by draw. -/
theorem drain {draw : Traced (Option Value)} {draw' : Exec (Option Value)}
    {step : Value → σ → Traced σ} {step' : Value → σ → Exec σ} (hdraw : Accounts draw draw')
    (hstep : ∀ v s, Accounts (step v s) (step' v s)) (turns : Nat) (s : σ) :
    Accounts (Traced.drain draw step turns s) (Exec.drain draw' step' turns s) := by
  induction turns generalizing s with
  | zero => exact unfinished
  | succ turns ih =>
    refine hdraw.bind fun drawn => ?_
    cases drawn with
    | none => exact pure s
    | some v => exact (hstep v s).bind ih

end

end Accounts

/-! ## Failing native functions -/

/-- A native function that has failed is the last of the events, and what has come of them is its
exception, in the world that it has left. -/
def FailureLast (events : List Event) (outcome : Outcome α) : Prop :=
  ∀ before run args w after e w', events = before ++ .ran run args w :: after →
    run args w = .thrown e w' → after = [] ∧ outcome = .thrown e w'

/-- No function has failed where nothing has happened. -/
theorem FailureLast.nil {outcome : Outcome α} : FailureLast [] outcome := by
  intro before run args w after e w' hevents
  exact absurd hevents.symm (List.append_ne_nil_of_right_ne_nil _ (List.cons_ne_nil _ _))

/-- A single event is the last one. -/
theorem FailureLast.singleton {event : Event} {outcome : Outcome α}
    (h : ∀ run args w e w', event = .ran run args w → run args w = .thrown e w' →
      outcome = .thrown e w') : FailureLast [event] outcome := by
  intro before run args w after e w' hevents hrun
  cases before with
  | nil =>
    obtain ⟨hevent, hafter⟩ := List.cons.inj hevents
    exact ⟨hafter.symm, h run args w e w' hevent hrun⟩
  | cons first before =>
    obtain ⟨-, hrest⟩ := List.cons.inj hevents
    exact absurd hrest.symm (List.append_ne_nil_of_right_ne_nil _ (List.cons_ne_nil _ _))

/-- A run that has failed fails what it is the first part of. -/
theorem FailureLast.thrown {events : List Event} {e : Exception} {w : World}
    (h : FailureLast events (.thrown e w : Outcome α)) :
    FailureLast events (.thrown e w : Outcome β) := by
  intro before run args w₁ after e' w' hevents hrun
  obtain ⟨hafter, hthrown⟩ := h before run args w₁ after e' w' hevents hrun
  cases hthrown
  exact ⟨hafter, rfl⟩

/-- A run that does not end has met no failure. -/
theorem FailureLast.unfinished {events : List Event}
    (h : FailureLast events (.unfinished : Outcome α)) :
    FailureLast events (.unfinished : Outcome β) := by
  intro before run args w₁ after e' w' hevents hrun
  cases (h before run args w₁ after e' w' hevents hrun).2

/-- If the first part of a run has returned, then no function has failed in it. -/
theorem FailureLast.append {events more : List Event} {a : α} {w : World} {outcome : Outcome β}
    (h : FailureLast events (.ok a w)) (hmore : FailureLast more outcome) :
    FailureLast (events ++ more) outcome := by
  intro before run args w₁ after e w' hevents hrun
  have hreturned : ∀ after, events ≠ before ++ .ran run args w₁ :: after := by
    intro after hfirst
    cases (h before run args w₁ after e w' hfirst hrun).2
  -- the failure lies in the second part, or the first part ends behind it
  rcases List.append_eq_append_iff.1 hevents with ⟨between, rfl, hrest⟩ | ⟨rest, rfl, hrest⟩
  · exact hmore between run args w₁ after e w' hrest hrun
  · cases rest with
    | nil => exact hmore [] run args w₁ after e w' hrest.symm hrun
    | cons event rest =>
      obtain ⟨rfl, -⟩ := List.cons.inj hrest
      exact absurd rfl (hreturned rest)

/-- From every world, a native function that fails ends the run. -/
def FailsFast (x : Traced α) : Prop := ∀ w, FailureLast (x w).1 (x w).2

namespace FailsFast

/-- A run in which no native function is run has none that fails. -/
theorem quietly (y : Exec α) : FailsFast (quietly y) := fun _ => .nil

/-- A result alone runs no function. -/
theorem pure (a : α) : FailsFast (Pure.pure a) := fun _ => .nil

/-- A native function is the only event of its run, and its exception that of the run. -/
theorem native (run : List Value → Exec Value) (args : List Value) :
    FailsFast (Traced.native run args) := by
  refine fun w => .singleton fun run' args' w₁ e w' hevent hrun => ?_
  cases hevent
  exact hrun

/-- A draw is no run of a native function. -/
theorem draw (addr : Nat) : FailsFast (Traced.draw addr) :=
  fun _ => .singleton fun _ _ _ _ _ hevent => by cases hevent

/-- A sequence ends with the failure in its first part, or goes on if there is none. -/
theorem bind {x : Traced α} {f : α → Traced β} (hx : FailsFast x) (hf : ∀ a, FailsFast (f a)) :
    FailsFast (x >>= f) := by
  intro w
  have hfirst := hx w
  rw [bind_apply]
  generalize x w = traced at hfirst ⊢
  obtain ⟨events, outcome⟩ := traced
  cases outcome with
  | ok a w₁ => exact hfirst.append (hf a w₁)
  | thrown e w₁ => exact hfirst.thrown
  | unfinished => exact hfirst.unfinished

section

variable {test : σ → Traced Bool} {step : σ → Traced σ}

/-- No turn follows a failure in a loop with a test first. -/
theorem repeatWhile (htest : ∀ s, FailsFast (test s)) (hstep : ∀ s, FailsFast (step s))
    (turns : Nat) (s : σ) : FailsFast (Traced.repeatWhile test step turns s) := by
  induction turns generalizing s with
  | zero => exact quietly _
  | succ turns ih =>
    refine (htest s).bind fun holds => ?_
    cases holds with
    | true => exact (hstep s).bind ih
    | false => exact pure s

/-- No turn follows a failure in a loop with a test last. -/
theorem repeatUntil (htest : ∀ s, FailsFast (test s)) (hstep : ∀ s, FailsFast (step s))
    (turns : Nat) (s : σ) : FailsFast (Traced.repeatUntil test step turns s) := by
  induction turns generalizing s with
  | zero => exact quietly _
  | succ turns ih =>
    refine (hstep s).bind fun s' => (htest s').bind fun holds => ?_
    cases holds with
    | true => exact ih s'
    | false => exact pure s'

/-- No turn follows a failure in a counted loop. -/
theorem countUp {step : Int32 → σ → Traced σ} (hstep : ∀ i s, FailsFast (step i s))
    (count : Nat) (i : Int32) (s : σ) : FailsFast (Traced.countUp step count i s) := by
  induction count generalizing i s with
  | zero => exact pure s
  | succ count ih => exact (hstep i s).bind (ih (i + 1))

/-- Nothing is drawn after a failure in a loop over an iterator. -/
theorem drain {draw : Traced (Option Value)} {step : Value → σ → Traced σ}
    (hdraw : FailsFast draw) (hstep : ∀ v s, FailsFast (step v s)) (turns : Nat) (s : σ) :
    FailsFast (Traced.drain draw step turns s) := by
  induction turns generalizing s with
  | zero => exact quietly _
  | succ turns ih =>
    refine hdraw.bind fun drawn => ?_
    cases drawn with
    | none => exact pure s
    | some v => exact (hstep v s).bind ih

end

end FailsFast

end Traced

end Splice

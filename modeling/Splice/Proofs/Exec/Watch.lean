import Splice.Exec
import Splice.Signature

/-!
# Watched runs

A watched run does what a plain one does, but stops where it finds something that is not as the
types of the running callables promise. `Watch.Keeps` relates the two: the watched run never stops
except, where that is allowed, for a value drawn from an iterator, and as long as it has not stopped
both have come to the same; whatever is returned has a property. The relation is kept by every way
in which runs are put together.
-/

namespace Splice

/-- What is not as the types promise. -/
inductive Breach where
  /-- A callable is run on values that are no arguments for its signature. -/
  | arguments (sig : Signature) (args : List Value)
  /-- Some of the arguments that are to be passed on are not there. -/
  | positions (reorder : List Nat) (args : List Value)
  /-- There are fewer arguments than are to be split off. -/
  | slice (stop : Nat) (args : List Value)
  /-- A test or a bound of a loop has come to a value of another kind. -/
  | content (fault : Fault)
  /-- An iterator of a type has produced a value that its elements cannot be. -/
  | element (ty : Ty) (v : Value)

/-- A run that may stop for a breach. What it has done until then remains done. -/
abbrev Watch := ExceptT Breach Exec

namespace Watch

/-- Stops unless something holds. -/
def demand (p : Prop) [Decidable p] (breach : Breach) : Watch Unit :=
  if p then return else throw breach

/-- The content that was read, where plain runs raise the fault that there is none. -/
def content : Except Fault α → Watch α
  | .ok a => return a
  | .error fault => throw (.content fault)

/-- Whether a value can be an element of what has a type. -/
def yields (ty : Ty) (v : Value) : Bool := ty.element?.any (·.admits v)

/-- Stops unless what was drawn, if anything, can be an element. -/
def inspect (ty : Ty) : Option Value → Watch (Option Value)
  | none => return none
  | some v => do
    demand (yields ty v = true) (.element ty v)
    return some v

/-- Makes the way a run ended, by value or exception, a value. A breach is neither. -/
def attempt (x : Watch α) : Watch (Except Exception α) := ExceptT.mk do
  match ← x.run.attempt with
  | .ok (.ok a) => return .ok (.ok a)
  | .ok (.error breach) => return .error breach
  | .error e => return .ok (.error e)

/-! ## Loops -/

/-- A loop with a test first, as plain runs have it. -/
def repeatWhile (test : σ → Watch Bool) (step : σ → Watch σ) : (turns : Nat) → σ → Watch σ
  | 0, _ => liftM (Exec.unfinished : Exec σ)
  | turns + 1, s => do
    if ← test s then repeatWhile test step turns (← step s) else return s

/-- A loop with a test last, as plain runs have it. -/
def repeatUntil (test : σ → Watch Bool) (step : σ → Watch σ) : (turns : Nat) → σ → Watch σ
  | 0, _ => liftM (Exec.unfinished : Exec σ)
  | turns + 1, s => do
    let s ← step s
    if ← test s then repeatUntil test step turns s else return s

/-- A loop over consecutive integers, as plain runs have it. -/
def countUp (step : Int32 → σ → Watch σ) : (count : Nat) → (index : Int32) → σ → Watch σ
  | 0, _, s => return s
  | count + 1, index, s => do countUp step count (index + 1) (← step index s)

/-- A loop over what is drawn, as plain runs have it. -/
def drain (draw : Watch (Option Value)) (step : Value → σ → Watch σ) : (turns : Nat) → σ → Watch σ
  | 0, _ => liftM (Exec.unfinished : Exec σ)
  | turns + 1, s => do
    match ← draw with
    | none => return s
    | some v => drain draw step turns (← step v s)

/-! ## Watched and plain runs -/

/-- A watched run has come to the same as a plain one, with a result that has a property, or it has
stopped for an element. -/
inductive Kept (draws : Prop) (Q : α → Prop) : Outcome (Except Breach α) → Outcome α → Prop
  | ok : Q a → Kept draws Q (.ok (.ok a) w) (.ok a w)
  | thrown : Kept draws Q (.thrown e w) (.thrown e w)
  | unfinished : Kept draws Q .unfinished .unfinished
  | element : draws → Kept draws Q (.ok (.error (.element ty v)) w) o

/-- From every world, a watched run keeps to a plain one. -/
def Keeps (draws : Prop) (m : Watch α) (x : Exec α) (Q : α → Prop) : Prop :=
  ∀ w, Kept draws Q (m.run w) (x w)

section

variable {draws : Prop} {Q : α → Prop} {P : β → Prop}

/-- A watched sequence goes on unless its first part has thrown, stopped or not ended. -/
theorem run_bind_apply (m : Watch β) (f : β → Watch α) (w : World) :
    (m >>= f).run w =
      match m.run w with
      | .ok (.ok a) w' => (f a).run w'
      | .ok (.error breach) w' => .ok (.error breach) w'
      | .thrown e w' => .thrown e w'
      | .unfinished => .unfinished := by
  rw [ExceptT.run_bind, Exec.bind_apply]
  rcases m.run w with ⟨_ | _, _⟩ | _ | _ <;> rfl

/-- A plain run never stops for a breach. -/
theorem run_liftM_apply (x : Exec α) (w : World) :
    (liftM x : Watch α).run w =
      match x w with
      | .ok a w' => .ok (.ok a) w'
      | .thrown e w' => .thrown e w'
      | .unfinished => .unfinished := by
  change (Except.ok <$> x : Exec (Except Breach α)) w = _
  rw [map_eq_pure_bind, Exec.bind_apply]
  cases x w <;> rfl

/-- A watched run that has not stopped for an element is the plain run. -/
theorem Kept.eq_of_ne {watched : Outcome (Except Breach α)} {x : Exec α} {w : World}
    (h : Kept draws Q watched (x w)) (hne : ∀ ty v w', watched ≠ .ok (.error (.element ty v)) w') :
    watched = (liftM x : Watch α).run w ∧ ∀ a w', x w = .ok a w' → Q a := by
  rw [run_liftM_apply]
  generalize x w = plain at h ⊢
  cases h with
  | ok ha =>
    refine ⟨rfl, fun a w' heq => ?_⟩
    obtain ⟨rfl, -⟩ := Outcome.ok.inj heq
    exact ha
  | thrown => exact ⟨rfl, nofun⟩
  | unfinished => exact ⟨rfl, nofun⟩
  | element => exact absurd rfl (hne _ _ _)

/-- Two plain runs to which one watched run has come are the same. -/
theorem Kept.unique {watched : Outcome (Except Breach α)} {plain plain' : Outcome α}
    (h : Kept draws Q watched plain) (h' : Kept draws Q watched plain')
    (hne : ∀ ty v w', watched ≠ .ok (.error (.element ty v)) w') : plain' = plain := by
  cases h with
  | element => exact absurd rfl (hne _ _ _)
  | _ =>
    cases h'
    rfl

/-- A result alone is kept. -/
theorem Keeps.pure {a : α} (ha : Q a) : Keeps draws (Pure.pure a) (Pure.pure a) Q :=
  fun _ => .ok ha

/-- A sequence keeps to a sequence, with what the first part has returned in between. -/
theorem Keeps.bind {m : Watch β} {x : Exec β} {f : β → Watch α} {g : β → Exec α}
    (hm : Keeps draws m x P) (hf : ∀ b, P b → Keeps draws (f b) (g b) Q) :
    Keeps draws (m >>= f) (x >>= g) Q := by
  intro w
  have hfirst := hm w
  rw [run_bind_apply, Exec.bind_apply]
  generalize m.run w = watched at hfirst ⊢
  -- four ways to have kept: three ends that both share, and a stop for an element, which goes on
  generalize x w = plain at hfirst ⊢
  cases hfirst with
  | ok hb => exact hf _ hb _
  | thrown => exact .thrown
  | unfinished => exact .unfinished
  | element hdraws => exact .element hdraws

/-- A plain run keeps to itself, with results that it always has. -/
theorem Keeps.lift {x : Exec α} (hx : ∀ w a w', x w = .ok a w' → Q a) :
    Keeps draws (liftM x) x Q := by
  intro w
  rw [run_liftM_apply]
  cases hrun : x w with
  | ok a w' => exact .ok (hx w a w' hrun)
  | thrown e w' => exact .thrown
  | unfinished => exact .unfinished

/-- Nothing is returned by what throws. -/
theorem Keeps.throw {e : Exception} : Keeps draws (liftM (Exec.throw e)) (Exec.throw e) Q :=
  .lift nofun

/-- Nothing is returned by what raises a fault. -/
theorem Keeps.raise {fault : Fault} :
    Keeps draws (liftM (Exec.raise fault)) (Exec.raise fault) Q :=
  .lift nofun

/-- What is demanded and holds makes no difference. -/
theorem Keeps.demand_bind {p : Prop} [Decidable p] (hp : p) {breach : Breach}
    {f : Unit → Watch α} {x : Exec α} (hf : Keeps draws (f ()) x Q) :
    Keeps draws (demand p breach >>= f) x Q := by
  unfold demand
  rw [if_pos hp, pure_bind]
  exact hf

/-- Content that is there is read in the same way. -/
theorem Keeps.content {r : Except Fault α} {a : α} (hr : r = .ok a) (ha : Q a) :
    Keeps draws (content r) (liftM r) Q := by
  subst hr
  exact Keeps.pure ha

/-- What is drawn is an element, where stopping is allowed if it is not. -/
theorem Keeps.draw (hdraws : draws) (ty : Ty) (draw : Exec (Option Value)) :
    Keeps draws (liftM draw >>= inspect ty) draw fun drawn =>
      ∀ v, drawn = some v → yields ty v = true := by
  -- only what is drawn is inspected, and it is left as it is
  have hinspect : ∀ drawn, Keeps draws (inspect ty drawn) (Pure.pure drawn) fun drawn =>
      ∀ v, drawn = some v → yields ty v = true := by
    intro drawn
    cases drawn with
    | none => exact .pure nofun
    | some v =>
      rw [inspect]
      by_cases hv : yields ty v = true
      · refine .demand_bind hv (.pure fun v' h => ?_)
        obtain rfl := Option.some.inj h
        exact hv
      · unfold demand
        rw [if_neg hv]
        exact fun _ => .element hdraws
  have hdraw : Keeps draws (liftM draw) draw fun _ => True := .lift fun _ _ _ _ => trivial
  simpa only [bind_pure] using hdraw.bind fun drawn _ => hinspect drawn

/-- An attempt is kept if its run is. A breach is not attempted, so it stops both. -/
theorem Keeps.attempt {m : Watch α} {x : Exec α} (hm : Keeps draws m x Q) :
    Keeps draws m.attempt x.attempt fun outcome => ∀ a, outcome = .ok a → Q a := by
  intro w
  have hrun := hm w
  have hattempt : m.attempt.run w =
      match m.run w with
      | .ok (.ok a) w' => .ok (.ok (.ok a)) w'
      | .ok (.error breach) w' => .ok (.error breach) w'
      | .thrown e w' => .ok (.ok (.error e)) w'
      | .unfinished => .unfinished := by
    change (m.run.attempt >>= _) w = _
    rw [Exec.bind_apply, Exec.attempt]
    rcases m.run w with ⟨_ | _, _⟩ | _ | _ <;> rfl
  rw [hattempt, Exec.attempt]
  generalize m.run w = watched at hrun ⊢
  generalize x w = plain at hrun ⊢
  cases hrun with
  | ok ha =>
    refine .ok fun a h => ?_
    obtain rfl := Except.ok.inj h
    exact ha
  | thrown => exact .ok nofun
  | unfinished => exact .unfinished
  | element hdraws => exact .element hdraws

end

section

variable {draws : Prop} {I : σ → Prop} {test : σ → Watch Bool} {test' : σ → Exec Bool}
  {step : σ → Watch σ} {step' : σ → Exec σ}

/-- A loop keeps to a loop, with states that have a property, if each turn does. -/
theorem Keeps.repeatWhile (htest : ∀ s, I s → Keeps draws (test s) (test' s) fun _ => True)
    (hstep : ∀ s, I s → Keeps draws (step s) (step' s) I) (turns : Nat) {s : σ} (hs : I s) :
    Keeps draws (repeatWhile test step turns s) (Exec.repeatWhile test' step' turns s) I := by
  induction turns generalizing s with
  | zero => exact .lift nofun
  | succ turns ih =>
    refine (htest s hs).bind fun holds _ => ?_
    cases holds with
    | true => exact (hstep s hs).bind fun s' hs' => ih hs'
    | false => exact .pure hs

/-- The property of the states holds before each step, and the test comes behind it. -/
theorem Keeps.repeatUntil (htest : ∀ s, I s → Keeps draws (test s) (test' s) fun _ => True)
    (hstep : ∀ s, I s → Keeps draws (step s) (step' s) I) (turns : Nat) {s : σ} (hs : I s) :
    Keeps draws (repeatUntil test step turns s) (Exec.repeatUntil test' step' turns s) I := by
  induction turns generalizing s with
  | zero => exact .lift nofun
  | succ turns ih =>
    refine (hstep s hs).bind fun s' hs' => (htest s' hs').bind fun holds _ => ?_
    cases holds with
    | true => exact ih hs'
    | false => exact .pure hs'

/-- Each step keeps the property of the states, whatever the index. -/
theorem Keeps.countUp {step : Int32 → σ → Watch σ} {step' : Int32 → σ → Exec σ}
    (hstep : ∀ i s, I s → Keeps draws (step i s) (step' i s) I) (count : Nat) (i : Int32) {s : σ}
    (hs : I s) : Keeps draws (countUp step count i s) (Exec.countUp step' count i s) I := by
  induction count generalizing i s with
  | zero => exact .pure hs
  | succ count ih => exact (hstep i s hs).bind fun s' hs' => ih (i + 1) hs'

/-- Each step keeps the property of the states, for drawn values of which another one holds. -/
theorem Keeps.drain {draw : Watch (Option Value)} {draw' : Exec (Option Value)}
    {step : Value → σ → Watch σ} {step' : Value → σ → Exec σ} {E : Value → Prop}
    (hdraw : Keeps draws draw draw' fun drawn => ∀ v, drawn = some v → E v)
    (hstep : ∀ v s, E v → I s → Keeps draws (step v s) (step' v s) I) (turns : Nat) {s : σ}
    (hs : I s) : Keeps draws (drain draw step turns s) (Exec.drain draw' step' turns s) I := by
  induction turns generalizing s with
  | zero => exact .lift nofun
  | succ turns ih =>
    refine hdraw.bind fun drawn hdrawn => ?_
    cases drawn with
    | none => exact .pure hs
    | some v => exact (hstep v s (hdrawn v rfl) hs).bind fun s' hs' => ih hs'

end

end Watch

end Splice

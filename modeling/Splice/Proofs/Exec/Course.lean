import Splice.Proofs.Exec.Turns

/-!
# Courses of loops

A loop goes from state to state, turn by turn, until a turn gives the result of the loop or fails.
`Steps` counts the turns that have been completed, and a `Course` is such a number of turns with
the turn that ends the loop. `Exec.ends_iterate_iff` says that the ends of a loop are the ends of
its courses, so nothing that a loop does depends on how many turns it is granted.

The turns of the loops with a test are `WhileTurn` and `UntilTurn`. They say what runs in a turn, in
which order and in which world.
-/

namespace Splice

variable {σ ρ : Type}

/-! ## Courses -/

/-- A number of turns that have been completed, each giving the next state, and where they lead. -/
inductive Steps (turn : σ → Behaviour (σ ⊕ ρ)) (s : σ) (w : World) : Nat → σ → World → Prop
  | zero : Steps turn s w 0 s w
  | succ : Steps turn s w n s₁ w₁ → turn s₁ w₁ (.ok (.inl s₂) w₂) → Steps turn s w (n + 1) s₂ w₂

/-- The end of a loop after a number of completed turns: the next one gives the result, or it
fails. -/
inductive Course (turn : σ → Behaviour (σ ⊕ ρ)) (n : Nat) (s : σ) : Behaviour ρ
  | stops : Steps turn s w n s₁ w₁ → turn s₁ w₁ (.ok (.inr r) w₂) → Course turn n s w (.ok r w₂)
  | fails : Steps turn s w n s₁ w₁ → turn s₁ w₁ (.thrown e w₂) → Course turn n s w (.thrown e w₂)

/-- One more turn in front. -/
theorem Steps.head {turn : σ → Behaviour (σ ⊕ ρ)} {s s₁ s₂ : σ} {w w₁ w₂ : World} {n : Nat}
    (hfirst : turn s w (.ok (.inl s₁) w₁)) (hrest : Steps turn s₁ w₁ n s₂ w₂) :
    Steps turn s w (n + 1) s₂ w₂ := by
  induction hrest with
  | zero => exact .succ .zero hfirst
  | succ _ hlast ih => exact .succ ih hlast

/-- A course with one more turn in front. -/
theorem Course.head {turn : σ → Behaviour (σ ⊕ ρ)} {s s₁ : σ} {w w₁ : World} {n : Nat}
    {o : Outcome ρ} (hfirst : turn s w (.ok (.inl s₁) w₁)) (hrest : Course turn n s₁ w₁ o) :
    Course turn (n + 1) s w o := by
  cases hrest with
  | stops hsteps hlast => exact .stops (.head hfirst hsteps) hlast
  | fails hsteps hlast => exact .fails (.head hfirst hsteps) hlast

namespace Exec

/-! ## Loops with a number of turns -/

/-- Runs a loop: a turn gives the next state, or the result. -/
def iterate (turn : σ → Exec (σ ⊕ ρ)) : (turns : Nat) → σ → Exec ρ
  | 0, _ => unfinished
  | turns + 1, s => do
    match ← turn s with
    | .inl next => iterate turn turns next
    | .inr result => return result

/-- With more turns granted, a loop and its turns do the same or go on longer. -/
theorem approximates_iterate {turn turn' : σ → Exec (σ ⊕ ρ)}
    (hturn : ∀ s, Approximates (turn s) (turn' s)) {m n : Nat} (hle : m ≤ n) (s : σ) :
    Approximates (iterate turn m s) (iterate turn' n s) := by
  induction m generalizing n s with
  | zero => exact .of_unfinished _
  | succ m ih =>
    obtain ⟨n, rfl⟩ := Nat.exists_eq_succ_of_ne_zero (by omega : n ≠ 0)
    refine (hturn s).bind fun next => ?_
    cases next with
    | inl next => exact ih (by omega) next
    | inr result => exact .refl _

/-- A loop is steady if its turns are. -/
theorem Steady.iterate {turn : Nat → σ → Exec (σ ⊕ ρ)} (hturn : ∀ s, Steady (turn · s)) (s : σ) :
    Steady fun turns => Exec.iterate (turn turns) turns s :=
  fun m n hle => approximates_iterate (fun s => hturn s m n hle) hle s

/-- The first turn gives the state that the other turns start from, or ends the loop. -/
theorem iterate_succ_apply (turn : σ → Exec (σ ⊕ ρ)) (turns : Nat) (s : σ) (w : World) :
    iterate turn (turns + 1) s w =
      match turn s w with
      | .ok (.inl next) w₁ => iterate turn turns next w₁
      | .ok (.inr result) w₁ => .ok result w₁
      | .thrown e w₁ => .thrown e w₁
      | .unfinished => .unfinished := by
  rw [iterate, bind_apply]
  rcases turn s w with ⟨_ | _, _⟩ | _ | _ <;> rfl

/-- A loop that ends with some number of turns has come through a course. -/
theorem exists_course_of_iterate {turn : Nat → σ → Exec (σ ⊕ ρ)} {granted turns : Nat} {s : σ}
    {w : World} {o : Outcome ρ} (hrun : iterate (turn granted) turns s w = o)
    (ho : o ≠ .unfinished) : ∃ n, Course (fun s => Ends (turn · s)) n s w o := by
  -- each turn that runs to its end is one turn of the course, as far as the loop has come
  induction turns generalizing s w with
  | zero => exact absurd hrun.symm ho
  | succ turns ih =>
    rw [iterate_succ_apply] at hrun
    cases hfirst : turn granted s w with
    | ok next w₁ =>
      rw [hfirst] at hrun
      cases next with
      | inl next =>
        obtain ⟨n, hrest⟩ := ih hrun
        exact ⟨n + 1, hrest.head ⟨nofun, granted, hfirst⟩⟩
      | inr result =>
        obtain rfl := hrun
        exact ⟨0, .stops .zero ⟨nofun, granted, hfirst⟩⟩
    | thrown e w₁ =>
      rw [hfirst] at hrun
      obtain rfl := hrun
      exact ⟨0, .fails .zero ⟨nofun, granted, hfirst⟩⟩
    | unfinished =>
      rw [hfirst] at hrun
      exact absurd hrun.symm ho

/-- With enough turns granted, a loop comes through the turns of a course. -/
theorem exists_iterate_of_steps {turn : Nat → σ → Exec (σ ⊕ ρ)} (hturn : ∀ s, Steady (turn · s))
    {s s' : σ} {w w' : World} {n : Nat} (hsteps : Steps (fun s => Ends (turn · s)) s w n s' w') :
    ∃ enough, ∀ granted, enough ≤ granted → ∀ turns,
      iterate (turn granted) (n + turns) s w = iterate (turn granted) turns s' w' := by
  induction hsteps with
  | zero => exact ⟨0, fun granted _ turns => by rw [Nat.zero_add]⟩
  | succ _ hlast ih =>
    rename_i n s₁ w₁ s₂ w₂ _
    obtain ⟨k, hk⟩ := ih
    obtain ⟨l, hl⟩ := hlast.exists_le (hturn s₁)
    refine ⟨max k l, fun granted hle turns => ?_⟩
    -- the last of the completed turns takes one of the turns that are granted
    rw [Nat.add_assoc, Nat.add_comm 1 turns, hk granted (by omega), iterate_succ_apply,
      hl granted (by omega)]

/-- The ends of a loop are the ends of its courses. -/
theorem ends_iterate_iff {turn : Nat → σ → Exec (σ ⊕ ρ)} (hturn : ∀ s, Steady (turn · s)) {s : σ}
    {w : World} {o : Outcome ρ} :
    Ends (fun turns => iterate (turn turns) turns s) w o ↔
      ∃ n, Course (fun s => Ends (turn · s)) n s w o := by
  constructor
  · rintro ⟨ho, turns, hrun⟩
    exact exists_course_of_iterate hrun ho
  · rintro ⟨n, hcourse⟩
    -- the turns for the steps, for the last turn, and one for each turn of the loop
    rcases hcourse with ⟨hsteps, hlast⟩ | ⟨hsteps, hlast⟩
    all_goals
      obtain ⟨k, hk⟩ := exists_iterate_of_steps hturn hsteps
      obtain ⟨l, hl⟩ := hlast.exists_le (hturn _)
      refine ⟨nofun, n + (max k l + 1), ?_⟩
      change iterate (turn (n + (max k l + 1))) (n + (max k l + 1)) s w = _
      rw [hk _ (by omega), iterate_succ_apply, hl _ (by omega)]

/-! ## The turns of each sort of loop -/

/-- Steps a state as a test has decided. -/
def stepIf (step : σ → Exec σ) (s : σ) : (holds : Bool) → Exec (σ ⊕ σ)
  | true => return .inl (← step s)
  | false => return .inr s

/-- Goes on from a state as a test has decided. -/
def goOnIf (s : σ) : (holds : Bool) → σ ⊕ σ
  | true => .inl s
  | false => .inr s

/-- Tests a state, and steps it if the test holds. -/
def whileTurn (test : σ → Exec Bool) (step : σ → Exec σ) (s : σ) : Exec (σ ⊕ σ) :=
  test s >>= stepIf step s

/-- Steps a state and tests the new one. -/
def untilTurn (test : σ → Exec Bool) (step : σ → Exec σ) (s : σ) : Exec (σ ⊕ σ) := do
  let s ← step s
  return goOnIf s (← test s)

/-- A loop that tests first is a number of turns that test first. -/
theorem repeatWhile_eq_iterate (test : σ → Exec Bool) (step : σ → Exec σ) (turns : Nat) (s : σ) :
    repeatWhile test step turns s = iterate (whileTurn test step) turns s := by
  induction turns generalizing s with
  | zero => rfl
  | succ turns ih =>
    rw [repeatWhile, iterate, whileTurn, bind_assoc]
    refine bind_congr fun holds => ?_
    cases holds with
    | true => simp [stepIf, ih]
    | false => simp [stepIf]

/-- A loop that steps first is a number of turns that step first. -/
theorem repeatUntil_eq_iterate (test : σ → Exec Bool) (step : σ → Exec σ) (turns : Nat) (s : σ) :
    repeatUntil test step turns s = iterate (untilTurn test step) turns s := by
  induction turns generalizing s with
  | zero => rfl
  | succ turns ih =>
    rw [repeatUntil, iterate, untilTurn, bind_assoc]
    refine bind_congr fun s => ?_
    rw [bind_assoc]
    refine bind_congr fun holds => ?_
    cases holds with
    | true => simp [goOnIf, ih]
    | false => simp [goOnIf]

end Exec

/-- A turn of a loop that tests first: the test, and a step if it holds. -/
inductive WhileTurn (test : σ → Behaviour Bool) (step : σ → Behaviour σ) (s : σ) :
    Behaviour (σ ⊕ σ)
  | testFails : test s w (.thrown e w') → WhileTurn test step s w (.thrown e w')
  | stops : test s w (.ok false w') → WhileTurn test step s w (.ok (.inr s) w')
  | stepFails : test s w (.ok true w₁) → step s w₁ (.thrown e w') →
      WhileTurn test step s w (.thrown e w')
  | goesOn : test s w (.ok true w₁) → step s w₁ (.ok s' w') →
      WhileTurn test step s w (.ok (.inl s') w')

/-- A turn of a loop that steps first: the step, and the test of the new state. -/
inductive UntilTurn (test : σ → Behaviour Bool) (step : σ → Behaviour σ) (s : σ) :
    Behaviour (σ ⊕ σ)
  | stepFails : step s w (.thrown e w') → UntilTurn test step s w (.thrown e w')
  | testFails : step s w (.ok s' w₁) → test s' w₁ (.thrown e w') →
      UntilTurn test step s w (.thrown e w')
  | stops : step s w (.ok s' w₁) → test s' w₁ (.ok false w') →
      UntilTurn test step s w (.ok (.inr s') w')
  | goesOn : step s w (.ok s' w₁) → test s' w₁ (.ok true w') →
      UntilTurn test step s w (.ok (.inl s') w')

namespace Exec

section

variable {test : Nat → σ → Exec Bool} {step : Nat → σ → Exec σ}

/-- A step that a test has let through is steady if the step is. -/
theorem steady_stepIf (hstep : ∀ s, Steady (step · s)) (s : σ) (holds : Bool) :
    Steady fun turns => stepIf (step turns) s holds := by
  cases holds with
  | true => exact (hstep s).bind fun s' => .const (pure (Sum.inl s'))
  | false => exact .const _

/-- A turn that tests first is steady if its parts are. -/
theorem steady_whileTurn (htest : ∀ s, Steady (test · s)) (hstep : ∀ s, Steady (step · s))
    (s : σ) : Steady fun turns => whileTurn (test turns) (step turns) s :=
  (htest s).bind (steady_stepIf hstep s)

/-- A turn that steps first is steady if its parts are. -/
theorem steady_untilTurn (htest : ∀ s, Steady (test · s)) (hstep : ∀ s, Steady (step · s))
    (s : σ) : Steady fun turns => untilTurn (test turns) (step turns) s :=
  (hstep s).bind fun s' => (htest s').bind fun holds => .const (pure (goOnIf s' holds))

/-- A turn that tests first ends in one of the four ways of `WhileTurn`. -/
theorem ends_whileTurn (htest : ∀ s, Steady (test · s)) (hstep : ∀ s, Steady (step · s)) (s : σ) :
    Ends (fun turns => whileTurn (test turns) (step turns) s) =
      WhileTurn (fun s => Ends (test · s)) (fun s => Ends (step · s)) s := by
  have hgoesOn : Ends (fun turns => stepIf (step turns) s true) =
      (Ends (step · s)).Then fun s' w o => o = .ok (.inl s') w :=
    ends_map (hstep s) (Sum.inl : σ → σ ⊕ σ)
  change Ends (fun turns => test turns s >>= stepIf (step turns) s) = _
  rw [ends_bind (htest s) (steady_stepIf hstep s)]
  funext w o
  apply propext
  constructor
  · rintro (hfails | ⟨hholds, hrest⟩)
    · exact .testFails hfails
    · rename_i holds w₁
      cases holds with
      | true =>
        rw [hgoesOn] at hrest
        rcases hrest with hfails | ⟨hs, rfl⟩
        · exact .stepFails hholds hfails
        · exact .goesOn hholds hs
      | false =>
        obtain rfl := ends_pure_iff.1 hrest
        exact .stops hholds
  · rintro (hfails | hstops | ⟨hholds, hfails⟩ | ⟨hholds, hs⟩)
    · exact .fails hfails
    · exact .returns hstops (ends_pure_iff.2 rfl)
    · exact .returns hholds (hgoesOn ▸ .fails hfails)
    · exact .returns hholds (hgoesOn ▸ .returns hs rfl)

/-- A turn that steps first ends in one of the four ways of `UntilTurn`. -/
theorem ends_untilTurn (htest : ∀ s, Steady (test · s)) (hstep : ∀ s, Steady (step · s)) (s : σ) :
    Ends (fun turns => untilTurn (test turns) (step turns) s) =
      UntilTurn (fun s => Ends (test · s)) (fun s => Ends (step · s)) s := by
  have hrest : ∀ s', Steady fun turns => do return goOnIf s' (← test turns s') :=
    fun s' => (htest s').bind fun holds => .const (pure (goOnIf s' holds))
  have htested : ∀ s', Ends (fun turns => do return goOnIf s' (← test turns s')) =
      (Ends (test · s')).Then fun holds w o => o = .ok (goOnIf s' holds) w :=
    fun s' => ends_map (htest s') (goOnIf s')
  change Ends (fun turns => step turns s >>= fun s' => do return goOnIf s' (← test turns s')) = _
  rw [ends_bind (hstep s) hrest]
  funext w o
  apply propext
  constructor
  · rintro (hfails | ⟨hs, hrest⟩)
    · exact .stepFails hfails
    · rw [htested] at hrest
      rcases hrest with hfails | ⟨hholds, rfl⟩
      · exact .testFails hs hfails
      · rename_i holds w₂
        cases holds with
        | true => exact .goesOn hs hholds
        | false => exact .stops hs hholds
  · rintro (hfails | ⟨hs, hfails⟩ | ⟨hs, hstops⟩ | ⟨hs, hholds⟩)
    · exact .fails hfails
    · exact .returns hs (htested _ ▸ .fails hfails)
    · exact .returns hs (htested _ ▸ .returns hstops rfl)
    · exact .returns hs (htested _ ▸ .returns hholds rfl)

/-- A loop that tests first is steady if its parts are. -/
theorem steady_repeatWhile (htest : ∀ s, Steady (test · s)) (hstep : ∀ s, Steady (step · s))
    (s : σ) : Steady fun turns => repeatWhile (test turns) (step turns) turns s := by
  simp only [repeatWhile_eq_iterate]
  exact .iterate (steady_whileTurn htest hstep) s

/-- A loop that steps first is steady if its parts are. -/
theorem steady_repeatUntil (htest : ∀ s, Steady (test · s)) (hstep : ∀ s, Steady (step · s))
    (s : σ) : Steady fun turns => repeatUntil (test turns) (step turns) turns s := by
  simp only [repeatUntil_eq_iterate]
  exact .iterate (steady_untilTurn htest hstep) s

/-- A loop that tests first goes through turns that test first. -/
theorem ends_repeatWhile (htest : ∀ s, Steady (test · s)) (hstep : ∀ s, Steady (step · s))
    (s : σ) :
    Ends (fun turns => repeatWhile (test turns) (step turns) turns s) = fun w o =>
      ∃ n, Course (WhileTurn (fun s => Ends (test · s)) fun s => Ends (step · s)) n s w o := by
  simp only [repeatWhile_eq_iterate]
  funext w o
  rw [ends_iterate_iff (steady_whileTurn htest hstep), funext (ends_whileTurn htest hstep)]

/-- A loop that steps first goes through turns that step first. -/
theorem ends_repeatUntil (htest : ∀ s, Steady (test · s)) (hstep : ∀ s, Steady (step · s))
    (s : σ) :
    Ends (fun turns => repeatUntil (test turns) (step turns) turns s) = fun w o =>
      ∃ n, Course (UntilTurn (fun s => Ends (test · s)) fun s => Ends (step · s)) n s w o := by
  simp only [repeatUntil_eq_iterate]
  funext w o
  rw [ends_iterate_iff (steady_untilTurn htest hstep), funext (ends_untilTurn htest hstep)]

end

end Exec

end Splice

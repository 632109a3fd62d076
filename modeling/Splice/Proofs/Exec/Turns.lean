import Splice.Exec

/-!
# Ends of computations

Loops are granted a number of turns, so a computation that contains loops is a family of
computations, one for each number. Such a family is `Steady`: more turns do not change an end that
fewer turns have led to. `Exec.Ends` are the ends that it comes to with enough turns; a computation
that never ends has none.

Ends are told without turns. `Behaviour.Then` puts two computations in a sequence and
`Behaviour.Reads` takes the content out of what one returns; `Exec.ends_bind`, `Exec.ends_read` and
`Exec.ends_select` say that the ends of a composed computation are made of the ends of its parts.
-/

namespace Splice

/-- From which world a computation comes to which end. -/
abbrev Behaviour (α : Type) : Type := World → Outcome α → Prop

namespace Exec

/-! ## More turns -/

/-- The second computation does what the first one does, and may end where the first one does
not. -/
def Approximates (x y : Exec α) : Prop := ∀ w, x w = .unfinished ∨ y w = x w

namespace Approximates

/-- A computation approximates itself. -/
theorem refl (x : Exec α) : Approximates x x := fun _ => .inr rfl

/-- What does not end approximates everything. -/
theorem of_unfinished (y : Exec α) : Approximates unfinished y := fun _ => .inl rfl

/-- An end that has been come to stays. -/
theorem eq_of_ne {x y : Exec α} (h : Approximates x y) {w : World} {o : Outcome α}
    (hx : x w = o) (ho : o ≠ .unfinished) : y w = o := by
  rcases h w with hw | hw
  · exact absurd (hx.symm.trans hw) ho
  · exact hw.trans hx

/-- Sequences approximate where both of their parts do. -/
theorem bind {x y : Exec α} {f g : α → Exec β} (hx : Approximates x y)
    (hf : ∀ a, Approximates (f a) (g a)) : Approximates (x >>= f) (y >>= g) := by
  intro w
  simp only [bind_apply]
  -- where the first part has not ended the sequence has not, and else both go on alike
  rcases hx w with hw | hw
  · rw [hw]
    exact .inl rfl
  · rw [hw]
    cases x w with
    | ok a w' => exact hf a w'
    | thrown e w' => exact .inr rfl
    | unfinished => exact .inl rfl

/-- Attempts approximate where their computations do. -/
theorem attempt {x y : Exec α} (h : Approximates x y) : Approximates x.attempt y.attempt := by
  intro w
  simp only [Exec.attempt]
  rcases h w with hw | hw
  · rw [hw]
    exact .inl rfl
  · rw [hw]
    exact .inr rfl

end Approximates

/-- A family of computations in which more turns keep every end. -/
def Steady (x : Nat → Exec α) : Prop := ∀ m n, m ≤ n → Approximates (x m) (x n)

namespace Steady

/-- A computation without loops. -/
theorem const (x : Exec α) : Steady fun _ => x := fun _ _ _ => .refl x

/-- With more turns, a sequence keeps its ends if both of its parts do. -/
theorem bind {x : Nat → Exec α} {f : Nat → α → Exec β} (hx : Steady x)
    (hf : ∀ a, Steady fun turns => f turns a) : Steady fun turns => x turns >>= f turns :=
  fun m n hle => (hx m n hle).bind fun a => hf a m n hle

/-- With more turns, an attempt keeps its end if its computation does. -/
theorem attempt {x : Nat → Exec α} (hx : Steady x) : Steady fun turns => (x turns).attempt :=
  fun m n hle => (hx m n hle).attempt

end Steady

/-! ## Ends -/

/-- The ends that a computation comes to when enough turns are granted to its loops. -/
def Ends (x : Nat → Exec α) : Behaviour α := fun w o => o ≠ .unfinished ∧ ∃ turns, x turns w = o

/-- With enough turns granted, granting more makes no difference. -/
theorem Ends.exists_le {x : Nat → Exec α} (hx : Steady x) {w : World} {o : Outcome α}
    (h : Ends x w o) : ∃ enough, ∀ turns, enough ≤ turns → x turns w = o := by
  obtain ⟨ho, enough, henough⟩ := h
  exact ⟨enough, fun turns hle => (hx enough turns hle).eq_of_ne henough ho⟩

/-- A computation comes to one end at most. -/
theorem Ends.unique {x : Nat → Exec α} (hx : Steady x) {w : World} {o₁ o₂ : Outcome α}
    (h₁ : Ends x w o₁) (h₂ : Ends x w o₂) : o₁ = o₂ := by
  obtain ⟨m, hm⟩ := h₁.exists_le hx
  obtain ⟨n, hn⟩ := h₂.exists_le hx
  rw [← hm (max m n) (Nat.le_max_left m n), hn (max m n) (Nat.le_max_right m n)]

/-- The only end of a computation. -/
theorem Ends.iff_eq {x : Nat → Exec α} (hx : Steady x) {w : World} {o : Outcome α}
    (h : Ends x w o) (o' : Outcome α) : Ends x w o' ↔ o' = o :=
  ⟨fun h' => h'.unique hx h, fun ho => ho ▸ h⟩

/-- Without loops the end is the outcome. -/
theorem ends_const_iff {x : Exec α} {w : World} {o : Outcome α} :
    Ends (fun _ => x) w o ↔ o ≠ .unfinished ∧ x w = o := by
  simp [Ends]

/-- What returns at once has no other end. -/
theorem ends_pure_iff {a : α} {w : World} {o : Outcome α} :
    Ends (fun _ => pure a) w o ↔ o = .ok a w := by
  rw [ends_const_iff, pure_apply]
  constructor
  · rintro ⟨-, ho⟩
    exact ho.symm
  · rintro rfl
    exact ⟨nofun, rfl⟩

end Exec

/-! ## Sequences -/

/-- One computation, and another one when the first has returned. -/
inductive Behaviour.Then (first : Behaviour α) (next : α → Behaviour β) : Behaviour β
  | fails : first w (.thrown e w') → Then first next w (.thrown e w')
  | returns : first w (.ok a w₁) → next a w₁ o → Then first next w o

/-- A computation whose result has to have content of some kind; if it has not, a new exception is
thrown. -/
inductive Behaviour.Reads (first : Behaviour Value) (read : Value → Except Fault α) : Behaviour α
  | fails : first w (.thrown e w') → Reads first read w (.thrown e w')
  | returns : first w (.ok v w') → read v = .ok a → Reads first read w (.ok a w')
  | unfit : first w (.ok v w') → read v = .error fault →
      Reads first read w (Exec.raise fault w')

/-- A sequence depends on its second part only where the first one can lead. -/
theorem Behaviour.then_congr {first : Behaviour α} {next next' : α → Behaviour β} {w : World}
    {o : Outcome β} (h : ∀ a w₁, first w (.ok a w₁) → (next a w₁ o ↔ next' a w₁ o)) :
    first.Then next w o ↔ first.Then next' w o := by
  constructor
  · rintro (hfirst | ⟨hfirst, hnext⟩)
    · exact .fails hfirst
    · exact .returns hfirst ((h _ _ hfirst).1 hnext)
  · rintro (hfirst | ⟨hfirst, hnext⟩)
    · exact .fails hfirst
    · exact .returns hfirst ((h _ _ hfirst).2 hnext)

namespace Behaviour

/-- Where the first part can only return, a sequence is its second part. -/
theorem then_iff_of_ok {first : Behaviour α} {next : α → Behaviour β} {w w₁ : World} {a : α}
    (hfirst : ∀ o, first w o ↔ o = .ok a w₁) {o : Outcome β} :
    first.Then next w o ↔ next a w₁ o := by
  constructor
  · rintro (hfails | ⟨hreturns, hnext⟩)
    · exact nomatch (hfirst _).1 hfails
    · obtain ⟨rfl, rfl⟩ := Outcome.ok.inj ((hfirst _).1 hreturns)
      exact hnext
  · exact fun hnext => .returns ((hfirst _).2 rfl) hnext

/-- Where the first part can only fail, a sequence fails as it does. -/
theorem then_iff_of_thrown {first : Behaviour α} {next : α → Behaviour β} {w w₁ : World}
    {e : Exception} (hfirst : ∀ o, first w o ↔ o = .thrown e w₁) {o : Outcome β} :
    first.Then next w o ↔ o = .thrown e w₁ := by
  constructor
  · rintro (hfails | ⟨hreturns, hnext⟩)
    · obtain ⟨rfl, rfl⟩ := Outcome.thrown.inj ((hfirst _).1 hfails)
      rfl
    · exact nomatch (hfirst _).1 hreturns
  · rintro rfl
    exact .fails ((hfirst _).2 rfl)

/-- A step that only returns is passed over. -/
theorem then_pure_then (first : Behaviour α) (value : α → World → β) (after : α → World → World)
    (next : β → Behaviour γ) :
    (first.Then fun a w o => o = .ok (value a w) (after a w)).Then next =
      first.Then fun a w => next (value a w) (after a w) := by
  funext w o
  apply propext
  constructor
  · rintro (hfails | ⟨hreturns, hnext⟩)
    · rcases hfails with hfirst | ⟨-, hpure⟩
      · exact .fails hfirst
      · exact nomatch hpure
    · rcases hreturns with _ | ⟨hfirst, hpure⟩
      obtain ⟨rfl, rfl⟩ := Outcome.ok.inj hpure
      exact .returns hfirst hnext
  · rintro (hfirst | ⟨hfirst, hnext⟩)
    · exact .fails (.fails hfirst)
    · exact .returns (.returns hfirst rfl) hnext

/-- The content of what a step returns that only returns. -/
theorem then_pure_reads (first : Behaviour α) (value : α → World → Value)
    (after : α → World → World) {read : Value → Except Fault β} {content : α → World → β}
    (hread : ∀ a w, read (value a w) = .ok (content a w)) :
    (first.Then fun a w o => o = .ok (value a w) (after a w)).Reads read =
      first.Then fun a w o => o = .ok (content a w) (after a w) := by
  funext w o
  apply propext
  constructor
  · rintro (hfails | ⟨hreturns, hv⟩ | ⟨hreturns, hv⟩)
    · rcases hfails with hfirst | ⟨-, hpure⟩
      · exact .fails hfirst
      · exact nomatch hpure
    all_goals
      rcases hreturns with _ | ⟨hfirst, hpure⟩
      obtain ⟨rfl, rfl⟩ := Outcome.ok.inj hpure
      rw [hread] at hv
    · obtain rfl := Except.ok.inj hv
      exact .returns hfirst rfl
    · exact nomatch hv
  · rintro (hfirst | ⟨hfirst, rfl⟩)
    · exact .fails (.fails hfirst)
    · exact .returns (.returns hfirst rfl) (hread _ _)

/-- No content is taken out where there is no result. -/
theorem reads_iff_of_thrown {first : Behaviour Value} {read : Value → Except Fault α}
    {w w₁ : World} {e : Exception} (hfirst : ∀ o, first w o ↔ o = .thrown e w₁) (o : Outcome α) :
    first.Reads read w o ↔ o = .thrown e w₁ := by
  constructor
  · rintro (hfails | ⟨hreturns, -⟩ | ⟨hreturns, -⟩)
    · obtain ⟨rfl, rfl⟩ := Outcome.thrown.inj ((hfirst _).1 hfails)
      rfl
    all_goals exact nomatch (hfirst _).1 hreturns
  · rintro rfl
    exact .fails ((hfirst _).2 rfl)

/-- What a result with content gives. -/
theorem reads_iff_of_ok {first : Behaviour Value} {read : Value → Except Fault α} {w w₁ : World}
    {v : Value} {a : α} (hfirst : ∀ o, first w o ↔ o = .ok v w₁) (hread : read v = .ok a)
    (o : Outcome α) : first.Reads read w o ↔ o = .ok a w₁ := by
  constructor
  · rintro (hfails | ⟨hreturns, hv⟩ | ⟨hreturns, hv⟩)
    · exact nomatch (hfirst _).1 hfails
    all_goals
      obtain ⟨rfl, rfl⟩ := Outcome.ok.inj ((hfirst _).1 hreturns)
      rw [hread] at hv
    · rw [Except.ok.inj hv]
    · exact nomatch hv
  · rintro rfl
    exact .returns ((hfirst _).2 rfl) hread

/-- What a result without content of the kind gives. -/
theorem reads_iff_of_error {first : Behaviour Value} {read : Value → Except Fault α}
    {w w₁ : World} {v : Value} {fault : Fault} (hfirst : ∀ o, first w o ↔ o = .ok v w₁)
    (hread : read v = .error fault) (o : Outcome α) :
    first.Reads read w o ↔ o = Exec.raise fault w₁ := by
  constructor
  · rintro (hfails | ⟨hreturns, hv⟩ | ⟨hreturns, hv⟩)
    · exact nomatch (hfirst _).1 hfails
    all_goals
      obtain ⟨rfl, rfl⟩ := Outcome.ok.inj ((hfirst _).1 hreturns)
      rw [hread] at hv
    · exact nomatch hv
    · rw [Except.error.inj hv]
  · rintro rfl
    exact .unfit ((hfirst _).2 rfl) hread

end Behaviour

namespace Exec

/-- A sequence ends as its parts do, one after the other. -/
theorem ends_bind {x : Nat → Exec α} {f : Nat → α → Exec β} (hx : Steady x)
    (hf : ∀ a, Steady fun turns => f turns a) :
    Ends (fun turns => x turns >>= f turns) =
      (Ends x).Then fun a => Ends fun turns => f turns a := by
  funext w o
  apply propext
  constructor
  · rintro ⟨ho, turns, hrun⟩
    change (x turns >>= f turns) w = o at hrun
    rw [bind_apply] at hrun
    cases hfirst : x turns w with
    | ok a w₁ =>
      rw [hfirst] at hrun
      exact .returns ⟨nofun, turns, hfirst⟩ ⟨ho, turns, hrun⟩
    | thrown e w' =>
      rw [hfirst] at hrun
      subst hrun
      exact .fails ⟨nofun, turns, hfirst⟩
    | unfinished =>
      rw [hfirst] at hrun
      exact absurd hrun.symm ho
  · rintro (⟨-, turns, hfirst⟩ | ⟨hfirst, hnext⟩)
    · refine ⟨nofun, turns, ?_⟩
      change (x turns >>= f turns) w = _
      rw [bind_apply, hfirst]
    · -- enough turns for both parts
      obtain ⟨m, hm⟩ := hfirst.exists_le hx
      obtain ⟨n, hn⟩ := hnext.exists_le (hf _)
      refine ⟨hnext.1, max m n, ?_⟩
      change (x (max m n) >>= f (max m n)) w = o
      rw [bind_apply, hm _ (Nat.le_max_left m n)]
      exact hn _ (Nat.le_max_right m n)

/-- A result that is made into another one changes no failure. -/
theorem ends_map {x : Nat → Exec α} (hx : Steady x) (f : α → β) :
    Ends (fun turns => x turns >>= fun a => pure (f a)) =
      (Ends x).Then fun a w o => o = .ok (f a) w := by
  rw [ends_bind (f := fun _ a => pure (f a)) hx fun a => .const _]
  funext w o
  exact propext (Behaviour.then_congr fun a w₁ _ => ends_pure_iff)

/-- What raises a fault throws an exception, and so comes to an end. -/
theorem raise_ne_unfinished {fault : Fault} {w : World} :
    (raise fault : Exec α) w ≠ .unfinished := nofun

/-- Taking the content out of a result adds no end but the exceptions of results without it. -/
theorem ends_read {x : Nat → Exec Value} (hx : Steady x) (read : Value → Except Fault α) :
    Ends (fun turns => x turns >>= fun v => ofExcept (read v)) = (Ends x).Reads read := by
  rw [ends_bind (f := fun _ v => ofExcept (read v)) hx fun v => .const _]
  funext w o
  apply propext
  constructor
  · rintro (hfirst | ⟨hfirst, hread⟩)
    · exact .fails hfirst
    · rename_i v w₁
      rw [ends_const_iff] at hread
      cases hv : read v with
      | ok a =>
        rw [hv] at hread
        obtain rfl := hread.2
        exact .returns hfirst hv
      | error fault =>
        rw [hv] at hread
        obtain rfl := hread.2
        exact .unfit hfirst hv
  · rintro (hfirst | ⟨hfirst, hv⟩ | ⟨hfirst, hv⟩)
    · exact .fails hfirst
    · exact .returns hfirst (ends_const_iff.2 ⟨nofun, by rw [hv]; rfl⟩)
    · exact .returns hfirst (ends_const_iff.2 ⟨raise_ne_unfinished, by rw [hv]; rfl⟩)

/-- A choice between two computations ends as the test and then the chosen one do. -/
theorem ends_select {test : Nat → Exec Value} {accept reject : Nat → Exec α} (htest : Steady test)
    (haccept : Steady accept) (hreject : Steady reject) :
    Ends (fun turns => do
      if ← (← test turns).expectBool then accept turns else reject turns) =
      ((Ends test).Reads Value.expectBool).Then fun holds =>
        if holds then Ends accept else Ends reject := by
  let selected (turns : Nat) (holds : Bool) : Exec α := if holds then accept turns else reject turns
  have hsteady : ∀ holds, Steady fun turns => selected turns holds := fun holds => by
    cases holds with
    | true => exact haccept
    | false => exact hreject
  have hread : Steady fun turns => test turns >>= fun v => ofExcept v.expectBool :=
    htest.bind fun v => .const (ofExcept v.expectBool)
  -- a choice is a function of what the test has given, so the ends of a sequence apply
  have hselected : (fun holds => Ends fun turns => selected turns holds) =
      fun holds : Bool => if holds then Ends accept else Ends reject := by
    funext holds
    cases holds <;> rfl
  have hsplit : (fun turns => do
      if ← (← test turns).expectBool then accept turns else reject turns) = fun turns =>
      (test turns >>= fun v => ofExcept v.expectBool) >>= selected turns := by
    funext turns
    rw [bind_assoc]
    rfl
  rw [hsplit, ends_bind hread hsteady, ends_read htest, hselected]

end Exec

end Splice

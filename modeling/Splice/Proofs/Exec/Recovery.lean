import Splice.Proofs.Exec.Turns

/-!
# Recovery from failures

`Exec.recover` hands the exceptions of a class to a handler, and `Exec.finalize` runs a cleanup
behind a computation, whichever way that has ended. `Behaviour.Recovered` and `Behaviour.Finalized`
say how both end, with one rule for each way in which the parts can end; `Exec.ends_recover` and
`Exec.ends_finalize` say that these are all the ways. Where the computation has come to its end,
the handler or the cleanup goes on from the world of that end.
-/

namespace Splice

/-- Every exception is of the root class and of its own class. -/
theorem Exception.isInstanceOf_iff {e : Exception} {cls : String} :
    e.isInstanceOf cls = true ↔ cls = Exception.root ∨ e.cls = cls := by
  simp [Exception.isInstanceOf]

namespace Exec

/-- Returns a result, and hands an exception of a class to a handler. -/
def resume (cls : String) (handler : Exception → Exec α) : Except Exception α → Exec α
  | .ok a => return a
  | .error e => if e.isInstanceOf cls then handler e else throw e

/-- Runs a computation, and a handler in its place if it fails with an exception of a class. -/
def recover (x : Exec α) (cls : String) (handler : Exception → Exec α) : Exec α :=
  x.attempt >>= resume cls handler

/-- Runs a cleanup on an outcome. A failure is thrown again after the cleanup. -/
def conclude (cleanup : Except Exception α → Exec α) : Except Exception α → Exec α
  | .ok a => cleanup (.ok a)
  | .error e => do
    let _ ← cleanup (.error e)
    throw e

/-- Runs a computation and then a cleanup on the outcome. -/
def finalize (x : Exec α) (cleanup : Except Exception α → Exec α) : Exec α :=
  x.attempt >>= conclude cleanup

end Exec

namespace Behaviour

/-- The outcome of a computation as a result. -/
inductive Attempted (body : Behaviour α) : Behaviour (Except Exception α)
  | returned : body w (.ok a w') → Attempted body w (.ok (.ok a) w')
  | failed : body w (.thrown e w') → Attempted body w (.ok (.error e) w')

/-- A computation whose exceptions of a class are handled. Of all others the very exception is
passed on, in the world of the failure. -/
inductive Recovered (body : Behaviour α) (cls : String) (handler : Exception → Behaviour α) :
    Behaviour α
  | returns : body w (.ok a w') → Recovered body cls handler w (.ok a w')
  | handled : body w (.thrown e w₁) → cls = Exception.root ∨ e.cls = cls → handler e w₁ o →
      Recovered body cls handler w o
  | passed : body w (.thrown e w') → ¬ (cls = Exception.root ∨ e.cls = cls) →
      Recovered body cls handler w (.thrown e w')

/-- A computation with a cleanup behind it. The cleanup ends the whole after a result; after a
failure it does so only if it fails itself. -/
inductive Finalized (body : Behaviour α) (cleanup : Except Exception α → Behaviour α) : Behaviour α
  | cleaned : body w (.ok a w₁) → cleanup (.ok a) w₁ o → Finalized body cleanup w o
  | rethrown : body w (.thrown e w₁) → cleanup (.error e) w₁ (.ok a w') →
      Finalized body cleanup w (.thrown e w')
  | replaced : body w (.thrown e w₁) → cleanup (.error e) w₁ (.thrown e' w') →
      Finalized body cleanup w (.thrown e' w')

section

variable {body : Behaviour α} {w w₁ : World} {o : Outcome α}

/-- Where the body returns, the handler is not asked. -/
theorem recovered_iff_of_ok {cls : String} {handler : Exception → Behaviour α} {a : α}
    (hbody : ∀ o, body w o ↔ o = .ok a w₁) : body.Recovered cls handler w o ↔ o = .ok a w₁ := by
  constructor
  · rintro (hreturns | ⟨hfails, -, -⟩ | ⟨hfails, -⟩)
    · exact (hbody _).1 hreturns
    all_goals exact nomatch (hbody _).1 hfails
  · rintro rfl
    exact .returns ((hbody _).2 rfl)

/-- Where the body fails with an exception of the class, the handler goes on from there. -/
theorem recovered_iff_of_handled {cls : String} {handler : Exception → Behaviour α} {e : Exception}
    (hbody : ∀ o, body w o ↔ o = .thrown e w₁) (he : cls = Exception.root ∨ e.cls = cls) :
    body.Recovered cls handler w o ↔ handler e w₁ o := by
  constructor
  · rintro (hreturns | ⟨hfails, -, hhandler⟩ | ⟨hfails, hne⟩)
    · exact nomatch (hbody _).1 hreturns
    all_goals obtain ⟨rfl, rfl⟩ := Outcome.thrown.inj ((hbody _).1 hfails)
    · exact hhandler
    · exact absurd he hne
  · intro hhandler
    exact .handled ((hbody _).2 rfl) he hhandler

/-- Where the body fails with an exception of another class, it fails. -/
theorem recovered_iff_of_passed {cls : String} {handler : Exception → Behaviour α} {e : Exception}
    (hbody : ∀ o, body w o ↔ o = .thrown e w₁) (hne : ¬ (cls = Exception.root ∨ e.cls = cls)) :
    body.Recovered cls handler w o ↔ o = .thrown e w₁ := by
  constructor
  · rintro (hreturns | ⟨hfails, he, -⟩ | ⟨hfails, -⟩)
    · exact nomatch (hbody _).1 hreturns
    · obtain ⟨rfl, -⟩ := Outcome.thrown.inj ((hbody _).1 hfails)
      exact absurd he hne
    · exact (hbody _).1 hfails
  · rintro rfl
    exact .passed ((hbody _).2 rfl) hne

/-- Where the body returns, the cleanup has the last word. -/
theorem finalized_iff_of_ok {cleanup : Except Exception α → Behaviour α} {a : α}
    (hbody : ∀ o, body w o ↔ o = .ok a w₁) :
    body.Finalized cleanup w o ↔ cleanup (.ok a) w₁ o := by
  constructor
  · rintro (⟨hreturns, hcleanup⟩ | ⟨hfails, -⟩ | ⟨hfails, -⟩)
    · obtain ⟨rfl, rfl⟩ := Outcome.ok.inj ((hbody _).1 hreturns)
      exact hcleanup
    all_goals exact nomatch (hbody _).1 hfails
  · intro hcleanup
    exact .cleaned ((hbody _).2 rfl) hcleanup

/-- After a failure a cleanup can only end with an exception, the one from before unless it throws
another one. -/
theorem finalized_iff_of_thrown {cleanup : Except Exception α → Behaviour α} {e : Exception}
    (hbody : ∀ o, body w o ↔ o = .thrown e w₁) :
    body.Finalized cleanup w o ↔ (cleanup (.error e)).Then (fun _ w o => o = .thrown e w) w₁ o := by
  constructor
  · rintro (⟨hreturns, -⟩ | ⟨hfails, hcleanup⟩ | ⟨hfails, hcleanup⟩)
    · exact nomatch (hbody _).1 hreturns
    all_goals obtain ⟨rfl, rfl⟩ := Outcome.thrown.inj ((hbody _).1 hfails)
    · exact .returns hcleanup rfl
    · exact .fails hcleanup
  · rintro (hcleanup | ⟨hcleanup, rfl⟩)
    · exact .replaced ((hbody _).2 rfl) hcleanup
    · exact .rethrown ((hbody _).2 rfl) hcleanup

end

end Behaviour

namespace Exec

/-- An attempt only returns: it fails no more, and ends where the computation does. -/
theorem ends_attempt {x : Nat → Exec α} :
    Ends (fun turns => (x turns).attempt) = (Ends x).Attempted := by
  funext w o
  apply propext
  constructor
  · rintro ⟨ho, turns, hrun⟩
    change (x turns).attempt w = o at hrun
    rw [attempt] at hrun
    cases hx : x turns w with
    | ok a w' =>
      rw [hx] at hrun
      subst hrun
      exact .returned ⟨by simp, turns, hx⟩
    | thrown e w' =>
      rw [hx] at hrun
      subst hrun
      exact .failed ⟨by simp, turns, hx⟩
    | unfinished =>
      rw [hx] at hrun
      exact absurd hrun.symm ho
  · rintro (⟨-, turns, hx⟩ | ⟨-, turns, hx⟩)
    all_goals
      refine ⟨by simp, turns, ?_⟩
      -- an attempt that has not come to an end is no end either
      change (x turns).attempt w = _
      rw [attempt, hx]

section

variable {x : Nat → Exec α} {cls : String} {handler : Nat → Exception → Exec α}
  {cleanup : Nat → Except Exception α → Exec α}

/-- With more turns, what is done after an attempt keeps its outcome. -/
theorem steady_resume (hhandler : ∀ e, Steady (handler · e)) (outcome : Except Exception α) :
    Steady fun turns => resume cls (handler turns) outcome := by
  cases outcome with
  | ok a => exact .const _
  | error e =>
    by_cases he : e.isInstanceOf cls
    · simp only [resume, if_pos he]
      exact hhandler e
    · simp only [resume, if_neg he]
      exact .const _

/-- With more turns, what a cleanup concludes keeps its outcome. -/
theorem steady_conclude (hcleanup : ∀ outcome, Steady (cleanup · outcome))
    (outcome : Except Exception α) : Steady fun turns => conclude (cleanup turns) outcome := by
  cases outcome with
  | ok a => exact hcleanup (.ok a)
  | error e => exact (hcleanup (.error e)).bind fun _ => .const (throw e)

/-- With more turns, a handled computation keeps its outcome. -/
theorem steady_recover (hx : Steady x) (hhandler : ∀ e, Steady (handler · e)) :
    Steady fun turns => (x turns).recover cls (handler turns) :=
  hx.attempt.bind (steady_resume hhandler)

/-- With more turns, a computation with a cleanup keeps its outcome. -/
theorem steady_finalize (hx : Steady x) (hcleanup : ∀ outcome, Steady (cleanup · outcome)) :
    Steady fun turns => (x turns).finalize (cleanup turns) :=
  hx.attempt.bind (steady_conclude hcleanup)

/-- An exception that is thrown is the only end. -/
theorem ends_throw_iff {e : Exception} {w : World} {o : Outcome α} :
    Ends (fun _ => throw e) w o ↔ o = .thrown e w := by
  rw [ends_const_iff]
  constructor
  · rintro ⟨-, rfl⟩
    rfl
  · rintro rfl
    exact ⟨nofun, rfl⟩

/-- A handled computation ends as its body does, or as the handler does where the body has failed
with an exception of the class. -/
theorem ends_recover (hx : Steady x) (hhandler : ∀ e, Steady (handler · e)) :
    Ends (fun turns => (x turns).recover cls (handler turns)) =
      (Ends x).Recovered cls fun e => Ends (handler · e) := by
  unfold recover
  rw [ends_bind hx.attempt (steady_resume hhandler), ends_attempt]
  funext w o
  apply propext
  constructor
  · -- an attempt does not fail, so it has returned a result or a failure
    rintro (⟨⟨⟩⟩ | ⟨hreturned | hfailed, hnext⟩)
    · obtain rfl := ends_pure_iff.1 hnext
      exact .returns hreturned
    · rename_i w₁ e
      by_cases he : e.isInstanceOf cls
      · simp only [resume, if_pos he] at hnext
        exact .handled hfailed (Exception.isInstanceOf_iff.1 he) hnext
      · simp only [resume, if_neg he] at hnext
        obtain rfl := ends_throw_iff.1 hnext
        exact .passed hfailed (mt Exception.isInstanceOf_iff.2 he)
  · rintro (hreturns | ⟨hfails, he, hhandler⟩ | ⟨hfails, he⟩)
    · exact .returns (.returned hreturns) (ends_pure_iff.2 rfl)
    · refine .returns (.failed hfails) ?_
      simpa only [resume, if_pos (Exception.isInstanceOf_iff.2 he)] using hhandler
    · refine .returns (.failed hfails) ?_
      simpa only [resume, if_neg (mt Exception.isInstanceOf_iff.1 he)] using ends_throw_iff.2 rfl

/-- A computation with a cleanup ends as the cleanup does, but for a failure that goes on. -/
theorem ends_finalize (hx : Steady x) (hcleanup : ∀ outcome, Steady (cleanup · outcome)) :
    Ends (fun turns => (x turns).finalize (cleanup turns)) =
      (Ends x).Finalized fun outcome => Ends (cleanup · outcome) := by
  -- what a cleanup gives after a failure is dropped for the failure
  have herror : ∀ e, Ends (fun turns => conclude (cleanup turns) (.error e)) =
      (Ends (cleanup · (.error e))).Then fun _ w o => o = .thrown e w := by
    intro e
    change Ends (fun turns => cleanup turns (.error e) >>= fun _ => throw e) = _
    rw [ends_bind (f := fun _ _ => throw e) (hcleanup (.error e)) fun _ => .const _]
    funext w o
    exact propext (Behaviour.then_congr fun _ _ _ => ends_throw_iff)
  unfold finalize
  rw [ends_bind hx.attempt (steady_conclude hcleanup), ends_attempt]
  funext w o
  apply propext
  constructor
  · rintro (⟨⟨⟩⟩ | ⟨hreturned | hfailed, hnext⟩)
    · exact .cleaned hreturned hnext
    · rw [herror] at hnext
      rcases hnext with hfails | ⟨hcleaned, rfl⟩
      · exact .replaced hfailed hfails
      · exact .rethrown hfailed hcleaned
  · rintro (⟨hreturns, hcleanup⟩ | ⟨hfails, hcleanup⟩ | ⟨hfails, hcleanup⟩)
    · exact .returns (.returned hreturns) hcleanup
    · exact .returns (.failed hfails) (herror _ ▸ .returns hcleanup rfl)
    · exact .returns (.failed hfails) (herror _ ▸ .fails hcleanup)

end

end Exec

end Splice

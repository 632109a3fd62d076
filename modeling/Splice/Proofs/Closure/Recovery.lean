import Splice.Closure.Recovery
import Splice.Proofs.Closure.Pieces
import Splice.Proofs.Compose
import Splice.Proofs.Handle.Recovery

/-!
# Bodies and what goes on behind them

A handler and a cleanup are composed alike: a callback gives a piece for variables of its own, and
body and piece come to run on one list of arguments. `Closure.exists_resumption` says of both that
nothing is refused but a piece of another type than the body, and that the pieces run in the
composed handle as they do under an environment.
-/

namespace Splice

/-- The ends of an operand that stands as a closure. -/
def Expr.RunEnds (e : Expr) (env : Env) : Behaviour Value := Exec.Ends fun turns => e.run turns env

/-- The only end of an operand that stands as a closure. -/
theorem Expr.runEnds_iff_eq {e : Expr} {env : Env} {w : World} {o : Outcome Value}
    (h : e.RunEnds env w o) (o' : Outcome Value) : e.RunEnds env w o' ↔ o' = o :=
  Exec.Ends.iff_eq (e.steady_run env) h o'

namespace Closure

open Compose

/-- Composes a body and a piece that takes variables of its own and goes on behind the body. -/
def resumption (role : Role) (line : Unifier → String)
    (combine : Handle → Handle → Except CompositionError Handle) (body : Closure)
    (locals : List Var) (piece : Compose Closure) : Compose Closure := do
  let piece ← pieceOver locals piece
  Compose.within do
    expectType role piece body.ty
    let u := Unifier.ofSources [body.args, piece.args.drop locals.length]
    Compose.note (line u)
    let handle ← combine (← u.align 0 body).handle (← u.align locals.length piece).handle
    wire handle u.vars

/-- A way to combine a body with a piece that takes values for the body's result type in front: it
demands no more than that the piece returns what the body does. -/
structure Resumes (combine : Handle → Handle → Except CompositionError Handle)
    (make : Handle → Handle → Handle) (body : Closure) (locals : List Var) : Prop where
  combine_eq_ok_iff : ∀ {hb hp : Handle} {piece : Closure} {vars : List Var} {h : Handle},
    hb.Runs body [] vars → hp.Runs piece locals vars →
      (combine hb hp = .ok h ↔ piece.ty = body.ty ∧ h = make hb hp)
  sig_eq : ∀ hb hp, (make hb hp).sig = hb.sig

/-- The body and what the callback gives are aligned, and what becomes of the composition is then up
to the comparison of their types and to the combination of the aligned handles. -/
theorem exists_aligned_resumption {body : Expr} {b : Closure} {locals : List Var}
    {piece : Compose Closure} (hbody : body.asClosure = .ok b) (hnodup : locals.Nodup)
    (hlocals : ∀ v ∈ locals, v.ty ≠ .void) {p : Closure} {s s₁ : Supply} (hp : Gives piece s p s₁)
    (role : Role) (line : Unifier → String)
    (combine : Handle → Handle → Except CompositionError Handle) :
    ∃ (hb hp : Handle) (vars : List Var), hb.Runs b [] vars ∧ hp.Runs p locals vars ∧
      FirstOccurrences (outerReads [body] locals [p]) vars ∧
      (resumption role line combine b locals piece).result s = (do
        require (p.ty = b.ty) (.roleType role b.ty p.ty)
        wire (← combine hb hp) vars) := by
  obtain ⟨dp, hdp, hfp⟩ := p.exists_fronts hlocals
  have hsources : ∀ source ∈ [b.args, dp.args.drop locals.length], ∃ c : Closure,
      source ⊆ c.args := by
    simp only [List.forall_mem_cons]
    exact ⟨⟨b, List.Subset.refl _⟩, ⟨dp, List.drop_subset _ _⟩, nofun⟩
  obtain ⟨ab, hab, hrb⟩ :=
    Unifier.exists_align_piece hsources List.nodup_nil b.fronts_nil 0 rfl (by simp)
  obtain ⟨ap, hap, hrp⟩ :=
    Unifier.exists_align_piece hsources hnodup hfp locals.length rfl (by simp)
  have hsplit : [b.args, dp.args.drop locals.length].flatten = outerReads [body] locals [p] := by
    simp [outerReads, (Expr.asClosure_eq_ok hbody).2, hfp.drop_args]
  refine ⟨ab.handle, ap.handle, _, hrb, hrp, hsplit ▸ firstOccurrences_eraseDups _, ?_⟩
  -- every step but the comparison of the types gives what has been found above
  have hpiece := gives_pieceOver_iff.2 ⟨p, hp, hdp⟩
  unfold resumption expectType
  simp only [within_eq, hpiece.result_bind, result_note_bind, result_lift_bind, result_lift, hab,
    hap, hfp.ty_eq]
  rfl

/-- What the callback gives for the variables makes a composition, if its type fits, and no other
one. -/
theorem exists_resumption {combine : Handle → Handle → Except CompositionError Handle}
    {make : Handle → Handle → Handle} {body : Expr} {b : Closure} {locals : List Var}
    {piece : Compose Closure} (hresumes : Resumes combine make b locals)
    (hbody : body.asClosure = .ok b) (hnodup : locals.Nodup)
    (hlocals : ∀ v ∈ locals, v.ty ≠ .void) {p : Closure} {s s₁ : Supply} (hp : Gives piece s p s₁)
    (role : Role) (line : Unifier → String) :
    ∃ (hb hp : Handle) (d : Closure), hb.Runs b [] d.args ∧ hp.Runs p locals d.args ∧
      d.handle = make hb hp ∧ FirstOccurrences (outerReads [body] locals [p]) d.args ∧
      ∀ c, (∃ s', Gives (resumption role line combine b locals piece) s c s') ↔
        p.ty = b.ty ∧ c = d := by
  obtain ⟨hb, hp, vars, hrb, hrp, hvars, hresult⟩ :=
    exists_aligned_resumption hbody hnodup hlocals hp role line combine
  have hsig : (make hb hp).params = hb.params := congrArg Signature.params (hresumes.sig_eq _ _)
  obtain ⟨d, hd⟩ := hrb.exists_wire hsig
  obtain ⟨hhandle, rfl⟩ := wire_eq_ok_iff.1 hd
  refine ⟨hb, hp, d, hrb, hrp, hhandle, hvars, fun c => ?_⟩
  -- the types have been compared already, so the combination adds no demand
  rw [exists_gives_iff, hresult, require_bind_eq_ok_iff, bind_eq_ok_iff]
  simp only [hresumes.combine_eq_ok_iff hrb hrp]
  constructor
  · rintro ⟨hfits, _, ⟨-, rfl⟩, hw⟩
    exact ⟨hfits, Except.ok.inj (hw.symm.trans hd)⟩
  · rintro ⟨hfits, rfl⟩
    exact ⟨hfits, _, ⟨hfits, rfl⟩, hd⟩

end Closure

end Splice

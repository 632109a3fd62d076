import Splice.Proofs.Closure.Recovery

/-!
# Handled failures

A handler runs in place of what its body has failed to do, under the environment in which the error
variable has the very exception, and from the world that the failure has left.
`Closure.exists_catches` says so of all bodies and handlers that compose, whatever variables they
share.
-/

namespace Splice

namespace Closure

open Compose

/-- A closure runs a body once and hands the exceptions of a class to a handler. -/
structure Catches (c : Closure) (body : Expr) (cls : String) (error : Var) (handler : Closure) :
    Prop where
  /-- What the handler reads of the error is no argument. -/
  args_first : FirstOccurrences (outerReads [body] [error] [handler]) c.args
  ty_eq : c.ty = body.ty
  eval_eq : ∀ turns env, c.eval turns env =
    (body.run turns env).recover cls fun e => handler.eval turns (env.bind error (.error e))
  ends_eq : ∀ env, c.Ends env =
    (body.RunEnds env).Recovered cls fun e => handler.Ends (env.bind error (.error e))
  /-- No handler runs behind a result. -/
  ends_iff_of_ok : ∀ env w v w' o, body.RunEnds env w (.ok v w') →
    (c.Ends env w o ↔ o = .ok v w')
  /-- The handler has the last word on an exception of the class, also if it fails itself. -/
  ends_iff_of_handled : ∀ env w e w' o, body.RunEnds env w (.thrown e w') →
    cls = "Exception" ∨ e.cls = cls →
    (c.Ends env w o ↔ handler.Ends (env.bind error (.error e)) w' o)
  /-- Exceptions of other classes pass as they are. -/
  ends_iff_of_passed : ∀ env w e w' o, body.RunEnds env w (.thrown e w') →
    ¬ (cls = "Exception" ∨ e.cls = cls) → (c.Ends env w o ↔ o = .thrown e w')

variable {body : Expr} {cls : String} {handler : Var → Compose Closure} {s : Supply}

/-- What follows from the runs of a body with a handler. -/
theorem catches_of_eval_eq {c h : Closure} {error : Var}
    (hargs : FirstOccurrences (outerReads [body] [error] [h]) c.args) (hty : c.ty = body.ty)
    (heval : ∀ turns env, c.eval turns env =
      (body.run turns env).recover cls fun e => h.eval turns (env.bind error (.error e))) :
    c.Catches body cls error h := by
  have hends : ∀ env, c.Ends env =
      (body.RunEnds env).Recovered cls fun e => h.Ends (env.bind error (.error e)) := by
    intro env
    unfold Ends
    simp only [heval]
    exact Exec.ends_recover (body.steady_run env) fun e => h.steady_eval _
  refine ⟨hargs, hty, heval, hends, ?_, ?_, ?_⟩
  · intro env w v w' o hbody
    rw [hends]
    exact Behaviour.recovered_iff_of_ok (Expr.runEnds_iff_eq hbody)
  · intro env w e w' o hbody hcls
    rw [hends]
    exact Behaviour.recovered_iff_of_handled (Expr.runEnds_iff_eq hbody) hcls
  · intro env w e w' o hbody hcls
    rw [hends]
    exact Behaviour.recovered_iff_of_passed (Expr.runEnds_iff_eq hbody) hcls

theorem resumes_catchException (b : Closure) (cls : String) {error : Var}
    (herror : error.ty = .error) :
    Resumes (fun body handler => body.catchException cls handler)
      (fun body handler => .catching body.sig cls body handler) b [error] := by
  refine ⟨fun hb hp => ?_, fun _ _ => rfl⟩
  rw [Handle.catchException_eq_ok_iff, hb.params_eq, hp.params_eq, hb.ret_eq, hp.ret_eq]
  simp [herror]

/-- The body of a handler as a closure, and the variable for the error. -/
theorem gives_catchOperands_iff {b : Closure} {error : Var} {s' : Supply} :
    Gives (do let body ← body.asClosure; return (body, ← Var.fresh .error)) s (b, error) s' ↔
      body.asClosure = .ok b ∧ error = s.nextVar .error ∧ s' = s.openScope := by
  have herror : Ty.error ≠ .void := by decide
  simp only [gives_bind_iff, gives_lift_iff, gives_fresh_iff, gives_pure_iff, Prod.mk.injEq]
  constructor
  · rintro ⟨_, _, ⟨hb, rfl⟩, _, _, ⟨-, rfl, rfl⟩, ⟨rfl, rfl⟩, rfl⟩
    exact ⟨hb, rfl, rfl⟩
  · rintro ⟨hb, rfl, rfl⟩
    exact ⟨b, s, ⟨hb, rfl⟩, _, _, ⟨herror, rfl, rfl⟩, ⟨rfl, rfl⟩, rfl⟩

/-- The callback of an accepted handler has been accepted. -/
theorem piece_of_catchException {c : Closure} {s' : Supply}
    (h : Gives (catchException body cls handler) s c s') :
    ∃ p s₁, Gives (handler (s.nextVar .error)) s.openScope p s₁ := by
  unfold catchException at h
  obtain ⟨⟨b, error⟩, _, hoperands, h⟩ := gives_bind_iff.1 h
  obtain ⟨-, rfl, rfl⟩ := gives_catchOperands_iff.1 hoperands
  obtain ⟨_, s₁, hpiece, -⟩ := gives_bind_iff.1 h
  obtain ⟨p, hp, -⟩ := gives_pieceOver_iff.1 hpiece
  exact ⟨p, s₁, hp⟩

/-- What the callback gives is the handler of the body, if its type fits, and nothing else is. -/
theorem exists_catches (body : Expr) (cls : String) {p : Closure} {s₁ : Supply}
    (hp : Gives (handler (s.nextVar .error)) s.openScope p s₁) :
    ∃ d : Closure, d.Catches body cls (s.nextVar .error) p ∧
      ∀ c, (∃ s', Gives (catchException body cls handler) s c s') ↔ p.ty = body.ty ∧ c = d := by
  obtain ⟨b, hb, hbty, -⟩ := body.exists_asClosure
  have hlocals : ∀ v ∈ [s.nextVar .error], v.ty ≠ .void := List.forall_mem_singleton.2 nofun
  have hresumes := resumes_catchException b cls (rfl : (s.nextVar .error).ty = .error)
  obtain ⟨target, piece, d, htarget, hpiece, hhandle, hargs, hgives⟩ :=
    exists_resumption hresumes hb (by simp) hlocals hp .exceptionHandler
      fun u => s!"catch {cls} over {Var.listText u.vars}"
  have hty : d.ty = b.ty := by
    rw [ty, hhandle]
    exact htarget.ret_eq
  refine ⟨d, catches_of_eval_eq hargs (hty.trans hbty) fun turns env => ?_, fun c => ?_⟩
  · have hbody := htarget.call_eq turns env [] rfl
    have hhandler := fun e => hpiece.call_eq turns env [.error e] rfl
    rw [eval, hhandle, Handle.call_catching]
    simp only [List.nil_append, List.singleton_append] at hbody hhandler
    simp only [hbody, hhandler]
    rw [← Expr.eval_of_asClosure hb]
    rfl
  · have hoperands := (gives_catchOperands_iff (s := s)).2 ⟨hb, rfl, rfl⟩
    rw [← hbty, ← hgives]
    exact exists_congr fun s' => hoperands.bind_iff

/-- An accepted handler is the one that the callback has given. -/
theorem catches_of_catchException {c : Closure} {s' : Supply}
    (h : Gives (catchException body cls handler) s c s') :
    ∃ p s₁, Gives (handler (s.nextVar .error)) s.openScope p s₁ ∧ p.ty = body.ty ∧
      c.Catches body cls (s.nextVar .error) p := by
  obtain ⟨p, s₁, hp⟩ := piece_of_catchException h
  obtain ⟨d, hcatches, hd⟩ := exists_catches body cls hp
  obtain ⟨hty, rfl⟩ := (hd c).1 ⟨s', h⟩
  exact ⟨p, s₁, hp, hty, hcatches⟩

end Closure

end Splice

import Splice.Proofs.Closure.Recovery

/-!
# Cleanups

A cleanup runs once behind its body, whichever way that has ended and from the world that it has
left, under the environment in which the error variable has the exception or null and the result
variable, if the body has results at all, the result or a default. `Closure.exists_finalizes` says
so of all bodies and cleanups that compose, whatever variables they share.
-/

namespace Splice

/-- The environment of a cleanup behind a body that has ended: there is an error or there is none,
and the result is a default if there is an error. -/
def Env.bindOutcome (env : Env) (ty : Ty) (error : Var) (result : Option Var) :
    Except Exception Value → Env
  | .ok v => (env.bind error .null).bindAll result.toList [v]
  | .error e => (env.bind error (.error e)).bindAll result.toList [ty.default]

namespace Closure

open Compose

/-- The variable for the result of a body in a scope that is opened behind one for the error. A body
without results has none. -/
def resultVar (s : Supply) (ty : Ty) : Option Var :=
  if ty = .void then none else some (s.openScope.nextVar ty)

/-- What is left when the variables of a cleanup have been made. -/
def openCleanup (s : Supply) (ty : Ty) : Supply :=
  if ty = .void then s.openScope else s.openScope.openScope

/-- A closure runs a body once, and then a cleanup once. -/
structure Finalizes (c : Closure) (body : Expr) (error : Var) (result : Option Var)
    (cleanup : Closure) : Prop where
  /-- What the cleanup reads of the error and of the result is no argument. -/
  args_first : FirstOccurrences (outerReads [body] (error :: result.toList) [cleanup]) c.args
  ty_eq : c.ty = body.ty
  eval_eq : ∀ turns env, c.eval turns env = (body.run turns env).finalize fun outcome =>
    cleanup.eval turns (env.bindOutcome body.ty error result outcome)
  ends_eq : ∀ env, c.Ends env = (body.RunEnds env).Finalized fun outcome =>
    cleanup.Ends (env.bindOutcome body.ty error result outcome)
  /-- Behind a result the cleanup has the last word. -/
  ends_iff_of_ok : ∀ env w v w' o, body.RunEnds env w (.ok v w') →
    (c.Ends env w o ↔ cleanup.Ends (env.bindOutcome body.ty error result (.ok v)) w' o)
  /-- A failure goes on behind the cleanup, unless that fails itself. -/
  ends_iff_of_thrown : ∀ env w e w' o, body.RunEnds env w (.thrown e w') →
    (c.Ends env w o ↔ (cleanup.Ends (env.bindOutcome body.ty error result (.error e))).Then
      (fun _ w o => o = .thrown e w) w' o)

variable {body : Expr} {cleanup : Var → Option Var → Compose Closure} {s : Supply}

/-- What follows from the runs of a body with a cleanup. -/
theorem finalizes_of_eval_eq {c p : Closure} {error : Var} {result : Option Var}
    (hargs : FirstOccurrences (outerReads [body] (error :: result.toList) [p]) c.args)
    (hty : c.ty = body.ty)
    (heval : ∀ turns env, c.eval turns env = (body.run turns env).finalize fun outcome =>
      p.eval turns (env.bindOutcome body.ty error result outcome)) :
    c.Finalizes body error result p := by
  have hends : ∀ env, c.Ends env = (body.RunEnds env).Finalized fun outcome =>
      p.Ends (env.bindOutcome body.ty error result outcome) := by
    intro env
    unfold Ends
    simp only [heval]
    exact Exec.ends_finalize (body.steady_run env) fun outcome => p.steady_eval _
  refine ⟨hargs, hty, heval, hends, ?_, ?_⟩
  · intro env w v w' o hbody
    rw [hends]
    exact Behaviour.finalized_iff_of_ok (Expr.runEnds_iff_eq hbody)
  · intro env w e w' o hbody
    rw [hends]
    exact Behaviour.finalized_iff_of_thrown (Expr.runEnds_iff_eq hbody)

/-! ## The variables of a cleanup -/

/-- The variables of a cleanup have the types that it has to take in front. -/
theorem map_ty_cleanupVars (s : Supply) (ty : Ty) :
    (s.nextVar .error :: (resultVar s ty).toList).map Var.ty = Handle.cleanupLocals ty := by
  unfold resultVar Handle.cleanupLocals
  split <;> rfl

theorem nodup_cleanupVars (s : Supply) (ty : Ty) :
    (s.nextVar .error :: (resultVar s ty).toList).Nodup := by
  unfold resultVar
  split <;> simp [Supply.nextVar_openScope_ne]

theorem ty_ne_void_of_mem_cleanupVars {s : Supply} {ty : Ty} :
    ∀ v ∈ s.nextVar .error :: (resultVar s ty).toList, v.ty ≠ .void := by
  have herror : (s.nextVar .error).ty ≠ .void := nofun
  unfold resultVar
  split
  · exact List.forall_mem_singleton.2 herror
  · next hty => exact List.forall_mem_cons.2 ⟨herror, List.forall_mem_singleton.2 hty⟩

/-- The values that a cleanup is called with are those that its variables have. -/
theorem bindAll_cleanupValues (env : Env) (s : Supply) (ty : Ty)
    (outcome : Except Exception Value) :
    env.bindAll (s.nextVar .error :: (resultVar s ty).toList) (Handle.cleanupValues ty outcome) =
      env.bindOutcome ty (s.nextVar .error) (resultVar s ty) outcome := by
  unfold resultVar
  by_cases hty : ty = .void
  · cases outcome <;> simp only [Handle.cleanupValues, if_pos hty] <;> rfl
  · cases outcome <;> simp only [Handle.cleanupValues, if_neg hty] <;> rfl

/-- As many values are given to a cleanup as it has variables. -/
theorem length_cleanupValues (s : Supply) (ty : Ty) (outcome : Except Exception Value) :
    (Handle.cleanupValues ty outcome).length =
      (s.nextVar .error :: (resultVar s ty).toList).length := by
  unfold resultVar
  by_cases hty : ty = .void
  · cases outcome <;> simp only [Handle.cleanupValues, if_pos hty] <;> rfl
  · cases outcome <;> simp only [Handle.cleanupValues, if_neg hty] <;> rfl

/-! ## Composed cleanups -/

/-- A cleanup is accepted behind a body for the types of its variables and its own type alone. -/
theorem resumes_tryFinally (b : Closure) {locals : List Var}
    (hlocals : locals.map Var.ty = Handle.cleanupLocals b.ty) :
    Resumes Handle.tryFinally (fun body cleanup => .finalized body.sig body cleanup) b
      locals := by
  refine ⟨fun hb hp => ?_, fun _ _ => rfl⟩
  rw [Handle.tryFinally_eq_ok_iff, hb.params_eq, hp.params_eq, hb.ret_eq, hp.ret_eq, hlocals]
  simp

/-- The body of a cleanup as a closure, and the variables for the error and for the result. -/
theorem gives_cleanupOperands_iff {b : Closure} {error : Var} {result : Option Var} {s' : Supply} :
    Gives (do
      let body ← body.asClosure
      let error ← Var.fresh .error
      let value ← if body.ty = .void then pure none else some <$> Var.fresh body.ty
      return (body, error, value)) s (b, error, result) s' ↔
      body.asClosure = .ok b ∧ error = s.nextVar .error ∧ result = resultVar s b.ty ∧
        s' = openCleanup s b.ty := by
  have herror : Ty.error ≠ .void := by decide
  simp only [gives_bind_iff, gives_lift_iff, gives_fresh_iff]
  unfold resultVar openCleanup
  constructor
  · rintro ⟨b', _, ⟨hb, rfl⟩, _, _, ⟨-, rfl, rfl⟩, h⟩
    split at h
    · next hty =>
      obtain ⟨⟨rfl, rfl, rfl⟩, rfl⟩ := by simpa [gives_pure_iff] using h
      rw [if_pos hty, if_pos hty]
      exact ⟨hb, rfl, rfl, rfl⟩
    · next hty =>
      simp only [map_eq_pure_bind, bind_assoc, pure_bind, gives_bind_iff, gives_fresh_iff,
        gives_pure_iff, Prod.mk.injEq] at h
      obtain ⟨_, _, ⟨-, rfl, rfl⟩, ⟨rfl, rfl, rfl⟩, rfl⟩ := h
      rw [if_neg hty, if_neg hty]
      exact ⟨hb, rfl, rfl, rfl⟩
  · rintro ⟨hb, rfl, rfl, rfl⟩
    refine ⟨b, s, ⟨hb, rfl⟩, _, _, ⟨herror, rfl, rfl⟩, ?_⟩
    -- a body without a value gives the cleanup one variable only
    by_cases hty : b.ty = .void
    · simp only [if_pos hty]
      exact gives_pure_iff.2 ⟨rfl, rfl⟩
    · simp only [if_neg hty, map_eq_pure_bind, bind_assoc, pure_bind]
      exact gives_bind_iff.2 ⟨_, _, gives_fresh_iff.2 ⟨hty, rfl, rfl⟩, gives_pure_iff.2 ⟨rfl, rfl⟩⟩

/-- The callback of an accepted cleanup has been accepted. -/
theorem piece_of_tryFinally {c : Closure} {s' : Supply}
    (h : Gives (tryFinally body cleanup) s c s') :
    ∃ p s₁, Gives (cleanup (s.nextVar .error) (resultVar s body.ty)) (openCleanup s body.ty) p
      s₁ := by
  unfold tryFinally at h
  obtain ⟨⟨b, error, result⟩, _, hoperands, h⟩ := gives_bind_iff.1 h
  obtain ⟨hb, rfl, rfl, rfl⟩ := gives_cleanupOperands_iff.1 hoperands
  obtain ⟨_, s₁, hpiece, -⟩ := gives_bind_iff.1 h
  obtain ⟨p, hp, -⟩ := gives_pieceOver_iff.1 hpiece
  rw [(Expr.asClosure_eq_ok hb).1] at hp
  exact ⟨p, s₁, hp⟩

/-- What the callback gives is the cleanup of the body, if its type fits, and nothing else is. -/
theorem exists_finalizes {p : Closure} {s₁ : Supply}
    (hp : Gives (cleanup (s.nextVar .error) (resultVar s body.ty)) (openCleanup s body.ty) p s₁) :
    ∃ d : Closure, d.Finalizes body (s.nextVar .error) (resultVar s body.ty) p ∧
      ∀ c, (∃ s', Gives (tryFinally body cleanup) s c s') ↔ p.ty = body.ty ∧ c = d := by
  obtain ⟨b, hb, hbty, -⟩ := body.exists_asClosure
  rw [← hbty] at hp ⊢
  have hresumes := resumes_tryFinally b (map_ty_cleanupVars s b.ty)
  obtain ⟨target, piece, d, htarget, hpiece, hhandle, hargs, hgives⟩ :=
    exists_resumption hresumes hb (nodup_cleanupVars s b.ty) ty_ne_void_of_mem_cleanupVars hp
      .cleanup fun u => s!"try-finally over {Var.listText u.vars}"
  have hty : d.ty = b.ty := by
    rw [ty, hhandle]
    exact htarget.ret_eq
  refine ⟨d, finalizes_of_eval_eq hargs (hty.trans hbty) fun turns env => ?_, fun c => ?_⟩
  · have hbody := htarget.call_eq turns env [] rfl
    -- the values that the handle puts in front are those to which the variables are bound
    have hcleanup : ∀ outcome,
        piece.call turns (Handle.cleanupValues b.ty outcome ++ d.args.map env) =
          p.eval turns (env.bindOutcome b.ty (s.nextVar .error) (resultVar s b.ty) outcome) := by
      intro outcome
      rw [hpiece.call_eq turns env _ (length_cleanupValues s b.ty outcome), bindAll_cleanupValues]
    rw [eval, hhandle, Handle.call_finalized, htarget.ret_eq, ← Expr.eval_of_asClosure hb, ← hbty]
    rw [List.nil_append] at hbody
    simp only [hbody, hcleanup]
    rfl
  · have hoperands := (gives_cleanupOperands_iff (s := s)).2 ⟨hb, rfl, rfl, rfl⟩
    rw [← hgives]
    exact exists_congr fun s' => hoperands.bind_iff

/-- An accepted cleanup is the one that the callback has given. -/
theorem finalizes_of_tryFinally {c : Closure} {s' : Supply}
    (h : Gives (tryFinally body cleanup) s c s') :
    ∃ p s₁, Gives (cleanup (s.nextVar .error) (resultVar s body.ty)) (openCleanup s body.ty) p s₁ ∧
      p.ty = body.ty ∧ c.Finalizes body (s.nextVar .error) (resultVar s body.ty) p := by
  obtain ⟨p, s₁, hp⟩ := piece_of_tryFinally h
  obtain ⟨d, hfinalizes, hd⟩ := exists_finalizes hp
  obtain ⟨hty, rfl⟩ := (hd c).1 ⟨s', h⟩
  exact ⟨p, s₁, hp, hty, hfinalizes⟩

end Closure

end Splice

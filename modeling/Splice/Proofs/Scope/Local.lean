import Splice.Proofs.Scope.Block
import Splice.Proofs.Scope.Program

/-!
# Blocks that bind a result

A block that assigns one closure and returns another one computes what a local binding does: the
first closure runs once, and the second one runs with the result bound. `Scoped.exists_block` says
so of all blocks of this sort. The closures may read any variables of scopes that were opened
earlier, and the block is left with these for its arguments.
-/

namespace Splice

open Compose (Gives)

namespace Scoped

/-- Steps hand out a result and leave the scope that they are taken in as it is. -/
def Makes (steps : Scoped α) (a : α) : Prop := ∀ b, steps.Takes b a b

namespace Makes

variable {steps : Scoped α} {next : α → Scoped β} {a : α} {c : β}

theorem pure (a : α) : Makes (Pure.pure a) a := Takes.pure a

theorem bind (h : steps.Makes a) (hnext : (next a).Makes c) : (steps >>= next).Makes c :=
  fun b => (h b).bind (hnext b)

theorem lift {e : Except CompositionError α} (he : e = .ok a) : (liftM e : Scoped α).Makes a :=
  Takes.lift he

/-- Steps for each element of a list hand out a list of results, which are related to the positions
of the elements from some number on. -/
theorem exists_mapM {steps : α → Scoped β} {R : β → Nat → Prop} {l : List α} (start : Nat)
    (h : ∀ i a, l[i]? = some a → ∃ c, (steps a).Makes c ∧ R c (start + i)) :
    ∃ cs, (l.mapM steps).Makes cs ∧ List.Forall₂ R cs (List.range' start l.length) := by
  induction l generalizing start with
  | nil => exact ⟨[], pure [], .nil⟩
  | cons a rest ih =>
    obtain ⟨c, hc, hfirst⟩ := h 0 a rfl
    obtain ⟨cs, hcs, hrest⟩ := ih (start + 1) fun i b hb => by
      rw [Nat.add_assoc, Nat.add_comm 1 i]
      exact h (i + 1) b hb
    refine ⟨c :: cs, ?_, .cons hfirst hrest⟩
    rw [List.mapM_cons]
    exact hc.bind (hcs.bind (pure _))

end Makes

/-- A composition step that is accepted leaves no trace in a block. -/
theorem block_lift_bind {e : Except CompositionError α} {a : α} (he : e = .ok a)
    (next : α → Scoped Expr) : block (liftM e >>= next) = block (next a) := by
  subst he
  rfl

/-- A block binds the result of its only statement for the closure that it returns. -/
theorem exists_block {known : List Var} {c : Closure} {rest : Var → Scoped Expr} {ty ret : Ty}
    {x : Env → Exec Value} {y : Env → Value → Exec Value} (hc : c.Computes known ty x)
    (hty : ty ≠ .void) (hret : ret ≠ .void)
    (hrest : ∀ v, v.ty = ty → ∃ d : Closure, (rest v).Makes (.closure d) ∧
      d.Computes (v :: known) ret fun env => y env (env v))
    (hlooks : ∀ env env', Env.Agree known env env' → y env' = y env) {s : Supply}
    (hknown : ∀ v ∈ known, v.scope < s.nextScope) :
    ∃ d s', Gives (block (Scoped.assign c >>= rest)) s d s' ∧ s.nextScope ≤ s'.nextScope ∧
      d.Computes known ret fun env => x env >>= y env := by
  let b : Scope := { id := s.nextScope, capturing := true }
  have hopened : Gives Scope.newBlock s b s.openScope := rfl
  obtain ⟨v, b', hassign⟩ := Scope.exists_assign_iff (s := b) (e := .closure c) |>.2 (.inl rfl)
  obtain ⟨c', hc', -, -, hassigned⟩ := Scope.assign_eq_ok hassign
  obtain rfl : c = c' := Except.ok.inj hc'
  obtain ⟨hv, -⟩ := Scope.assignClosure_eq_ok hassigned
  have hscope : v.scope = s.nextScope := by rw [hv]
  have hvty : v.ty = ty := by rw [hv]; exact hc.ty_eq
  -- the block's own variable is none of those that were there before
  have hforeign : ∀ w ∈ known, w.scope ≠ s.nextScope := fun w hw => Nat.ne_of_lt (hknown w hw)
  have hnew : v ∉ known := fun hmem => hforeign v hmem hscope
  have hstranger : History.Knows {} s.nextScope (.closure c) := fun w hw hid =>
    absurd hid (hforeign w (hc.args_subset hw))
  have hgrown := Grown.opened.assigned hstranger hassign
  obtain ⟨d, hd, hcomputes⟩ := hrest v hvty
  have hknows : History.Knows ⟨[], [], [⟨v, c⟩]⟩ s.nextScope (.closure d) := fun w hw hid => by
    rcases List.mem_cons.1 (hcomputes.args_subset hw) with rfl | hw
    · exact List.mem_cons_self
    · exact absurd hid (hforeign w hw)
  obtain ⟨e, he, himplements⟩ := hgrown.exists_buildBlock hknows s.openScope
  obtain ⟨s', hgives⟩ := Compose.exists_gives_iff.2 he
  refine ⟨e, s', ?_, ?_, fun w hw => ?_, himplements.ty_eq.trans hcomputes.ty_eq,
    fun turns env => ?_⟩
  · exact hopened.bind_iff.2 (((Takes.assign hassign).bind (hd b') s.openScope).bind_iff.2 hgives)
  · rw [Scope.opensNone_buildBlock.nextScope_eq hgives]
    exact Nat.le_succ _
  · obtain ⟨⟨f, hf, hread⟩, hne⟩ := (himplements.mem_args_iff w).1 hw
    have hvar := (List.mem_filter.1 hread).1
    simp only [History.exprs, List.map_cons, List.map_nil, List.nil_append, List.cons_append,
      List.mem_cons, List.not_mem_nil, or_false] at hf
    obtain rfl | rfl := hf
    · exact hc.args_subset hvar
    · exact (List.mem_cons.1 (hcomputes.args_subset hvar)).resolve_left
        fun hwv => hne (hwv ▸ hscope)
  · have hagree : ∀ value, env.Agree known (env.bind v value) := fun value w hw =>
      if_neg fun hwv : w = v => hnew (hwv ▸ hw)
    have hreturn : ∀ value, d.eval turns (env.bind v value) = y env value := fun value => by
      rw [hcomputes.eval_eq, hlooks _ _ (hagree value)]
      exact congrArg (y env) (if_pos rfl)
    have hdty : (Expr.closure d).ty ≠ .void := hcomputes.ty_eq.trans_ne hret
    rw [Closure.eval, himplements.call_eq]
    simp only [History.run, List.nil_append, History.runBindings, bind_assoc, pure_bind, Expr.eval,
      Env.bindResult, if_neg (hvty.trans_ne hty), hreturn, if_neg hdty, bind_pure, hc.eval_eq]

end Scoped

end Splice

import Splice.Proofs.Closure.Invocation
import Splice.Proofs.Closure.Pieces
import Splice.Proofs.Compose
import Splice.Stock

/-!
# Variables of a loop in front

The pieces of loops and handlers are given the variables that the loop or handler has made for
itself as their leading arguments. A piece may read such a variable once, several times or not at
all, and may read others several times too. The main statement is that nothing comes of it but
another list of arguments: it is refused for variables without values only, which the variables of
loops never are, and the piece does under every environment what it did before.
-/

namespace Splice

open Compose (Gives)

/-- A variable that a loop or a handler makes for itself. -/
def Var.IsLocal (v : Var) : Prop := ∃ ty σ σ', Gives (Var.fresh ty) σ v σ'

/-- A variable that has been made has values. -/
theorem Var.IsLocal.ty_ne_void {v : Var} (h : v.IsLocal) : v.ty ≠ .void := by
  obtain ⟨ty, σ, σ', hv⟩ := h
  obtain ⟨hty, rfl, -⟩ := Compose.gives_fresh_iff.1 hv
  exact hty

namespace Closure

/-- A closure has given variables in front of what another one reads. Nothing else has changed: it
does the same, whether its arguments are checked first or not. -/
structure Moves (d c : Closure) (locals : List Var) : Prop extends d.Fronts c locals where
  invoke_eq : ∀ turns (env : Env), (∀ v ∈ d.args, v.ty.admits (env v) = true) →
    d.invoke turns (d.args.map env) = c.invoke turns (c.args.map env)
  /-- The leading values are those of the variables in front. -/
  call_eq : ∀ turns (env : Env) values, values.length = locals.length →
    d.handle.call turns (values ++ (c.args.filter (· ∉ locals)).map env) =
      c.eval turns (env.bindAll locals values)

variable {c d : Closure} {locals : List Var}

/-- No argument is lost. -/
theorem Fronts.args_subset (h : d.Fronts c locals) : c.args ⊆ d.args := by
  intro v hv
  rw [h.args_eq]
  by_cases hlocal : v ∈ locals
  · exact List.mem_append_left _ hlocal
  · exact List.mem_append_right _ (List.mem_filter.2 ⟨hv, decide_eq_true hlocal⟩)

/-- What is let in through the variables of the one closure is let in by the other. -/
theorem Fronts.invoke_eq (h : d.Fronts c locals) {env : Env}
    (henv : ∀ v ∈ d.args, v.ty.admits (env v) = true) (turns : Nat) :
    d.invoke turns (d.args.map env) = c.invoke turns (c.args.map env) := by
  rw [invoke_eq_eval henv, invoke_eq_eval fun v hv => henv v (h.args_subset hv), h.eval_eq]

/-- Only variables without values cannot be put in front. -/
theorem exists_withLocals_iff :
    (∃ d, c.withLocals locals = .ok d) ↔ ∀ v ∈ locals, v.ty ≠ .void := by
  constructor
  · -- every argument of a closure has values, and so have the variables in front
    rintro ⟨d, hd⟩ v hv
    obtain ⟨h, -, hwire⟩ := bind_eq_ok_iff.1 hd
    refine d.ty_ne_void_of_mem_args ?_
    rw [(wire_eq_ok_iff.1 hwire).2]
    exact List.mem_append_left _ hv
  · intro hvoid
    obtain ⟨d, hd, -⟩ := c.exists_withLocals hvoid
    exact ⟨d, hd⟩

/-- Variables that have been put in front are all that has moved. -/
theorem moves_of_withLocals (hnodup : locals.Nodup) (hd : c.withLocals locals = .ok d) :
    d.Moves c locals := by
  obtain ⟨d', hd', hfronts⟩ := c.exists_fronts (exists_withLocals_iff.1 ⟨d, hd⟩)
  obtain rfl : d = d' := Except.ok.inj (hd.symm.trans hd')
  exact ⟨hfronts, fun turns env henv => hfronts.invoke_eq henv turns,
    fun turns env values hlen => hfronts.call_eq hnodup turns env hlen⟩

/-- The variables that a loop or a handler makes for itself can be put in front of every closure,
and so can all others that have values. This only moves variables. -/
theorem withLocals_only_moves (c : Closure) {locals : List Var} (hnodup : locals.Nodup) :
    ((∀ v ∈ locals, v.IsLocal) → ∃ d, c.withLocals locals = .ok d) ∧
      ((∃ d, c.withLocals locals = .ok d) ↔ ∀ v ∈ locals, v.ty ≠ .void) ∧
      ∀ d, c.withLocals locals = .ok d → d.Moves c locals := by
  refine ⟨fun hlocals => ?_, exists_withLocals_iff, fun d => moves_of_withLocals hnodup⟩
  exact exists_withLocals_iff.2 fun v hv => (hlocals v hv).ty_ne_void

/-- Of the two variables of a counted loop, the body reads the state twice and the index not at all,
and another variable stands in front of the state and behind it. -/
theorem withLocals_only_moves_of_body :
    let state : Var := ⟨2, 0, true, .int⟩
    let index : Var := ⟨3, 0, true, .int⟩
    let p : Var := ⟨1, 0, true, .int⟩
    let body : Closure :=
      ⟨.prim ⟨[.int, .int, .int, .int], .int, by decide⟩ (Stock.runTagged .add (some "body")),
        [p, state, p, state], rfl⟩
    ∃ d, body.withLocals [state, index] = .ok d ∧ d.args = [state, index, p, p] ∧
      d.handle.call 0 [.int 10, .int 7, .int 1, .int 1] {} =
        .ok (.int 22) { effects := #["body(1, 10, 1, 10)"] } := by
  intro state index p body
  have hnodup : [state, index].Nodup := by decide
  have hlocals : ∀ v ∈ [state, index], v.IsLocal := by
    refine List.forall_mem_cons.2 ⟨⟨.int, { nextScope := 2 }, _, rfl⟩, ?_⟩
    exact List.forall_mem_singleton.2 ⟨.int, { nextScope := 3 }, _, rfl⟩
  obtain ⟨haccepts, -, hmoves⟩ := withLocals_only_moves body hnodup
  obtain ⟨d, hd⟩ := haccepts hlocals
  refine ⟨d, hd, (hmoves d hd).args_eq, ?_⟩
  have hcall := (hmoves d hd).call_eq 0 (fun _ => .int 1) [.int 10, .int 7] rfl
  exact (congrFun hcall {}).trans rfl

end Closure

end Splice

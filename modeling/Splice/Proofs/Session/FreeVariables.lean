import Splice.Proofs.Session.Keys

/-!
# Free variables of control constructs

What a conditional, a loop, a handler or a cleanup reads is what its components read, apart from the
variables that have been made for it. The main statement is about a call from any session, so also
from inside the callbacks of other constructs: none of the construct's own variables is left,
however often its callbacks use them, and all variables that the session has had before are, those
of the constructs around it among them.
-/

namespace Splice

open Compose (Gives)

namespace Session

variable {t : Session} {k : Control}

/-- A construct's own variables are none that have been made before. -/
theorem Sound.notMem_locals (h : t.Sound) {v : Var} (hv : v ∈ t.made) :
    v ∉ k.locals t.supply := by
  intro hlocal
  have hlt := h.ahead v hv
  have hle := (Control.scope_of_mem_locals v hlocal).1
  omega

/-- Operands that the caller has mention no variable of the construct's own. -/
theorem Sound.filter_reads (h : t.Sound) (hargs : ∀ e ∈ k.operands, t.Has e) :
    (k.operands.flatMap Expr.reads).filter (· ∉ k.locals t.supply) =
      k.operands.flatMap Expr.reads := by
  refine List.filter_eq_self.2 fun v hv => ?_
  obtain ⟨e, he, hv⟩ := List.mem_flatMap.1 hv
  exact decide_eq_true (h.notMem_locals (h.made_of_has (hargs e he) v (List.mem_filter.1 hv).1))

/-- An accepted construct reads the variables that its components read, in the order of the
components and each once, without its own. -/
theorem args_of_control {supply : Supply} (ht : Leads { supply } t)
    (hargs : ∀ e ∈ k.operands, t.Has e) {c : Closure} {σ : Supply}
    (hc : Gives k.compose t.supply c σ) :
    ∃ ps σ₁, Gives (k.pieces t.supply) (k.opened t.supply) ps σ₁ ∧
      FirstOccurrences ((k.operands.flatMap Expr.reads ++ ps.flatMap Closure.args).filter
        (· ∉ k.locals t.supply)) c.args ∧
      (∀ v ∈ k.locals t.supply, v ∉ c.args) ∧
      ∀ v ∈ t.made, (∃ e ∈ k.operands, v ∈ e.reads) ∨ (∃ p ∈ ps, v ∈ p.args) → v ∈ c.args := by
  have hsound := ht.sound (.start supply)
  obtain ⟨-, ps, σ₁, hps, -, hmakes⟩ := Control.makes_of_gives hc
  have hfirst := hmakes.args_first
  have hsplit : Closure.outerReads k.operands (k.locals t.supply) ps =
      (k.operands.flatMap Expr.reads ++ ps.flatMap Closure.args).filter
        (· ∉ k.locals t.supply) := by
    rw [List.filter_append, hsound.filter_reads hargs, List.filter_flatMap]
    rfl
  rw [hsplit] at hfirst
  refine ⟨ps, σ₁, hps, hfirst, fun v hv hmem => ?_, fun v hv hread => ?_⟩
  · have hnot := (List.mem_filter.1 ((hfirst.mem_iff v).1 hmem)).2
    exact of_decide_eq_true hnot hv
  · refine (hfirst.mem_iff v).2 (List.mem_filter.2 ⟨?_, decide_eq_true (hsound.notMem_locals hv)⟩)
    rw [List.mem_append, List.mem_flatMap, List.mem_flatMap]
    exact hread

/-- A loop in the callback of another one, which starts from the state of that one, reads its own
state twice in its test and not at all in its body. -/
theorem args_of_nested_loop :
    let p : Var := ⟨1, 0, true, .int⟩
    let outer : Var := ⟨2, 0, true, .int⟩
    let inner : Var := ⟨3, 0, true, .int⟩
    let test (v : Var) : Compose Closure :=
      Closure.wire (.prim ⟨[.int, .int, .int], .bool, by decide⟩ Stock.less.run) [v, p, v]
    let step (_ : Var) : Compose Closure :=
      Closure.wire (.prim ⟨[.int, .int], .int, by decide⟩ Stock.add.run) [p, outer]
    ∃ c σ, Gives (Closure.whileLoop (.var outer) test step) { nextScope := 3 } c σ ∧
      c.args = [outer, p] ∧ inner ∉ c.args := by
  intro p outer inner test step
  let function : Session :=
    { supply := Supply.openScope {}, made := [p], scopes := [⟨1, false, [p], [], 1⟩] }
  have hdeclared : Leads { supply := {} } function :=
    .declared (.openedFunction .refl rfl) (show _ = [] ++ _ :: [] from rfl) rfl
      (show Scope.addParam ⟨1, false, [], [], 0⟩ .int = _ from rfl)
  have hint : Ty.int ≠ .void := by decide
  have hentered : Leads { supply := {} } (function.enter (.whileLoop (.var p) test step)) :=
    .entered hdeclared _ (List.forall_mem_singleton.2 List.mem_cons_self) hint
  let k : Control := .whileLoop (.var outer) test step
  let pred : Closure :=
    ⟨.prim ⟨[.int, .int, .int], .bool, by decide⟩ Stock.less.run, [inner, p, inner], rfl⟩
  let body : Closure := ⟨.prim ⟨[.int, .int], .int, by decide⟩ Stock.add.run, [p, outer], rfl⟩
  have hgiven : Gives (k.pieces { nextScope := 3 }) (k.opened { nextScope := 3 }) [pred, body]
      { nextScope := 4 } := rfl
  obtain ⟨c, -, hc⟩ := Control.exists_made (show k.Admits from hint) hgiven
  obtain ⟨σ, hσ⟩ := (hc c).2 ⟨rfl, rfl⟩
  have hhas : ∀ e ∈ k.operands, (function.enter (.whileLoop (.var p) test step)).Has e :=
    List.forall_mem_singleton.2 (show outer ∈ [p, outer] by decide)
  obtain ⟨ps, _, hps, hfirst, hown, -⟩ := args_of_control hentered hhas hσ
  obtain ⟨rfl, -⟩ := hgiven.unique hps
  exact ⟨c, σ, hσ, hfirst.eq_eraseDups, hown inner List.mem_cons_self⟩

end Session

end Splice

import Splice.Proofs.Closure.Invocation
import Splice.Proofs.Closure.Storage
import Splice.Proofs.Exec.Trace
import Splice.Proofs.Store.History

/-!
# Courses of operations

Operations on the objects of one sort tell by their results what they have done to them, and those
that are not valid throw and do nothing else. In a course of such operations some return and others
throw, and whatever is done in between leaves these objects alone. The operations that have returned
make up the history of the objects, and operations follow the history of those before
(`StoreOps.follows`). Closures that are put together of operations run in such courses
(`StoreOps.covers_invoke`).
-/

namespace Splice

/-- Operations on the objects of one sort. -/
structure StoreOps (ι : Type) where
  run : ι → Exec Value
  /-- The objects of the sort. -/
  objects : World → Array (List Value)
  /-- Whether an operation can be done on objects of given lengths. -/
  Valid : (lengthOf : Nat → Nat) → ι → Prop
  /-- What an operation does to a world when it returns. -/
  Does : World → ι → (result : Value) → World → Prop
  /-- What it adds to the history of the objects. -/
  recorded : ι → (result : Value) → StoreHistory
  run_eq : ∀ {w op v w'}, Does w op v w' → run op w = .ok v w'
  exists_does : ∀ {w op}, Valid (lengthOf (objects w)) op → ∃ v w', Does w op v w'
  exists_raise : ∀ {w op}, ¬ Valid (lengthOf (objects w)) op →
    ∃ fault, run op w = Exec.raise fault w
  leads : ∀ {w op v w'}, Does w op v w' → (recorded op v).Leads (objects w) (objects w')
  kept_nextId : ∀ w id, objects { w with nextId := id } = objects w

namespace StoreOps

variable {ι : Type} {ops : StoreOps ι} {op : ι} {v : Value} {w w₁ w' : World}

/-- An operation returns exactly what it is said to do when it returns. -/
theorem run_eq_ok_iff : ops.run op w = .ok v w' ↔ ops.Does w op v w' := by
  refine ⟨fun h => ?_, ops.run_eq⟩
  by_cases hvalid : ops.Valid (lengthOf (ops.objects w)) op
  · obtain ⟨v₁, w₁, hdoes⟩ := ops.exists_does hvalid
    obtain ⟨rfl, rfl⟩ := Outcome.ok.inj (h.symm.trans (ops.run_eq hdoes))
    exact hdoes
  · obtain ⟨fault, hfault⟩ := ops.exists_raise hvalid
    cases h.symm.trans hfault

/-- An operation returns if and only if it is valid. -/
theorem returns_iff :
    (∃ v w', ops.run op w = .ok v w') ↔ ops.Valid (lengthOf (ops.objects w)) op := by
  constructor
  · rintro ⟨v, w', hrun⟩
    by_contra hvalid
    obtain ⟨fault, hfault⟩ := ops.exists_raise hvalid
    cases hrun.symm.trans hfault
  · intro hvalid
    obtain ⟨v, w', hdoes⟩ := ops.exists_does hvalid
    exact ⟨v, w', ops.run_eq hdoes⟩

/-- An operation that throws leaves all objects of the sort as they are. -/
theorem objects_eq_of_thrown {e : Exception} (h : ops.run op w = .thrown e w') :
    ops.objects w' = ops.objects w := by
  by_cases hvalid : ops.Valid (lengthOf (ops.objects w)) op
  · obtain ⟨v₁, w₁, hdoes⟩ := ops.exists_does hvalid
    cases h.symm.trans (ops.run_eq hdoes)
  · obtain ⟨fault, hfault⟩ := ops.exists_raise hvalid
    obtain ⟨-, rfl⟩ := Outcome.thrown.inj (h.symm.trans hfault)
    exact ops.kept_nextId w _

/-! ## Courses -/

/-- A course of operations from a world, with those that have returned and their results, the latest
one first. -/
inductive Course (ops : StoreOps ι) (w : World) : World → List (ι × Value) → Prop
  | start : Course ops w w []
  | returned {w₁ w₂ : World} {log : List (ι × Value)} {op : ι} {v : Value}
      (h : Course ops w w₁ log) (hrun : ops.run op w₁ = .ok v w₂) : Course ops w w₂ ((op, v) :: log)
  | failed {w₁ w₂ : World} {log : List (ι × Value)} {op : ι} {e : Exception}
      (h : Course ops w w₁ log) (hrun : ops.run op w₁ = .thrown e w₂) : Course ops w w₂ log
  | elsewhere {w₁ w₂ : World} {log : List (ι × Value)} (h : Course ops w w₁ log)
      (hkept : ops.objects w₂ = ops.objects w₁) : Course ops w w₂ log

/-- The history that operations leave which have returned. -/
def history (ops : StoreOps ι) (log : List (ι × Value)) : StoreHistory :=
  log.flatMap fun (op, v) => ops.recorded op v

namespace Course

variable {earlier later log : List (ι × Value)}

/-- A course may be followed by another one. -/
theorem trans (h : ops.Course w w₁ earlier) (h' : ops.Course w₁ w' later) :
    ops.Course w w' (later ++ earlier) := by
  induction h' with
  | start => exact h
  | returned _ hrun ih => exact ih.returned hrun
  | failed _ hrun ih => exact ih.failed hrun
  | elsewhere _ hkept ih => exact ih.elsewhere hkept

/-- The history of a course leads to the objects that are there in the end. -/
theorem leads (h : ops.Course w w' log) :
    (ops.history log).Leads (ops.objects w) (ops.objects w') := by
  induction h with
  | start => exact .start
  | returned _ hrun ih => exact ih.trans (ops.leads (run_eq_ok_iff.1 hrun))
  | failed _ hrun ih => exact objects_eq_of_thrown hrun ▸ ih
  | elsewhere _ hkept ih => exact hkept ▸ ih

end Course

/-- What operations do in a world after a history of such operations. -/
structure Follows (ops : StoreOps ι) (w : World) (history : StoreHistory) : Prop where
  /-- An operation returns exactly if it is valid for the lengths that the objects were made
  with. -/
  returns_iff : ∀ op, (∃ v w', ops.run op w = .ok v w') ↔
    ops.Valid (fun addr => (history.lengthAt addr).getD 0) op
  /-- It throws otherwise, and that is all it does. -/
  throws : ∀ op, ¬ ops.Valid (fun addr => (history.lengthAt addr).getD 0) op →
    ∃ e, ops.run op w = .thrown e { w with nextId := w.nextId + 1 }
  /-- The length of an object never changes. -/
  length_kept : ∀ w' log, ops.Course w w' log → ∀ addr n, history.lengthAt addr = some n →
    StoreHistory.lengthAt (ops.history log ++ history) addr = some n
  /-- An object that nothing is written to keeps its values, whatever is written to others. -/
  values_kept : ∀ w' log, ops.Course w w' log → ∀ addr, history.lengthAt addr ≠ none →
    (∀ i v, .wrote addr i v ∉ ops.history log) → (ops.objects w')[addr]? = (ops.objects w)[addr]?

/-- A history that tells of all objects says what operations on them do. -/
theorem follows {history : StoreHistory} (h : history.Recounts (ops.objects w)) :
    ops.Follows w history := by
  constructor
  case returns_iff =>
    intro op
    rw [← h.lengthOf_eq]
    exact returns_iff
  case throws =>
    intro op hvalid
    rw [← h.lengthOf_eq] at hvalid
    obtain ⟨fault, hfault⟩ := ops.exists_raise hvalid
    exact ⟨_, hfault⟩
  case length_kept =>
    intro w' log hcourse addr n
    exact hcourse.leads.lengthAt_eq h
  case values_kept =>
    intro w' log hcourse addr haddr
    exact hcourse.leads.getElem?_eq (h.lt_of_lengthAt_ne_none haddr)

/-! ## Closures of operations -/

/-- A run changes the objects by operations on them only. -/
def Covers (ops : StoreOps ι) (x : Exec α) : Prop :=
  ∀ w w', (x w).world? = some w' → ∃ log, ops.Course w w' log

namespace Covers

/-- A run that returns at once changes no object. -/
theorem pure (a : α) : ops.Covers (Pure.pure a : Exec α) := by
  rintro w w' hrun
  obtain rfl := Option.some.inj hrun
  exact ⟨[], .start⟩

/-- A run that throws at once changes no object. -/
theorem raise (fault : Fault) : ops.Covers (Exec.raise fault : Exec α) := by
  rintro w w' hrun
  obtain rfl := Option.some.inj hrun
  exact ⟨[], .elsewhere .start (ops.kept_nextId w _)⟩

/-- An operation is a course of one operation, whatever comes of it. -/
theorem run (op : ι) : ops.Covers (ops.run op) := by
  intro w w' hrun
  cases h : ops.run op w with
  | ok v w₁ =>
    rw [h] at hrun
    obtain rfl := Option.some.inj hrun
    exact ⟨_, .returned .start h⟩
  | thrown e w₁ =>
    rw [h] at hrun
    obtain rfl := Option.some.inj hrun
    exact ⟨_, .failed .start h⟩
  | unfinished =>
    rw [h] at hrun
    cases hrun

/-- Two runs in turn make one course. -/
theorem bind {x : Exec α} {f : α → Exec β} (hx : ops.Covers x) (hf : ∀ a, ops.Covers (f a)) :
    ops.Covers (x >>= f) := by
  intro w w' hrun
  -- where the first run throws, its course is all there is
  rw [Exec.bind_apply] at hrun
  have hfirst := hx w
  generalize x w = first at hrun hfirst
  cases first with
  | ok a w₁ =>
    obtain ⟨earlier, hearlier⟩ := hfirst w₁ rfl
    obtain ⟨later, hlater⟩ := hf a w₁ w' hrun
    exact ⟨later ++ earlier, hearlier.trans hlater⟩
  | thrown e w₁ => exact hfirst w' hrun
  | unfinished => cases hrun

/-- The runs for a list make one course. -/
theorem mapM {f : β → Exec γ} {l : List β} (hf : ∀ b ∈ l, ops.Covers (f b)) :
    ops.Covers (l.mapM f) := by
  induction l with
  | nil => exact .pure _
  | cons b rest ih =>
    rw [List.mapM_cons]
    obtain ⟨hb, hrest⟩ := List.forall_mem_cons.1 hf
    exact hb.bind fun _ => (ih hrest).bind fun _ => .pure _

end Covers

end StoreOps

/-- Operands that are put together of variables, constants and composed closures over operands. -/
inductive Expr.Over (Composed : List Expr → Closure → Prop) : Expr → Prop
  | var (v : Var) : Over Composed (.var v)
  | constant {ty : Ty} {v : Value} {c : Closure} (hc : Closure.constantTyped ty v = .ok c) :
      Over Composed (.closure c)
  | closure {operands : List Expr} {c : Closure} (hoperands : ∀ e ∈ operands, Over Composed e)
      (hc : Composed operands c) : Over Composed (.closure c)

/-- A native function that is applied to operands runs on what they give. -/
theorem Closure.performs_of_native {types : List Ty} {ret : Ty} {run : List Value → Exec Value}
    {args : List Expr} {c : Closure} {x : (Expr → Exec Value) → Exec Value}
    (hc : (do fold (← Handle.native types ret run) args) = .ok c)
    (hx : ∀ f, (do run (← args.mapM f)) = x f) :
    c.Performs fun turns env => x (Expr.eval turns env) := by
  obtain ⟨hnodup, heval⟩ := eval_of_native hc
  exact performs_of_eval_eq hnodup fun turns env => (heval turns env).trans (hx _)

namespace StoreOps

variable {ι : Type} {ops : StoreOps ι} {Composed : List Expr → Closure → Prop}

/-- Closures do nothing but operations, if their operands do nothing else. -/
def Composes (ops : StoreOps ι) (Composed : List Expr → Closure → Prop) : Prop :=
  ∀ operands c, Composed operands c → ∃ x, c.Performs x ∧ ∀ turns env,
    (∀ e ∈ operands, ops.Covers (e.eval turns env)) → ops.Covers (x turns env)

/-- An operand that is put together of composed closures runs in a course. -/
theorem covers_eval (h : ops.Composes Composed) {e : Expr} (he : e.Over Composed) (turns : Nat)
    (env : Env) : ops.Covers (e.eval turns env) := by
  induction he with
  | var v => exact .pure _
  | constant hc =>
    rw [Expr.eval, (Closure.eval_of_constantTyped hc).2.2.2]
    exact .pure _
  | closure _ hc ih =>
    obtain ⟨x, hperforms, hcovers⟩ := h _ _ hc
    rw [Expr.eval, hperforms.eval_eq]
    exact hcovers turns env ih

/-- Closures that are put together of such closures run in courses of operations. -/
theorem covers_invoke (h : ops.Composes Composed) {c : Closure}
    (hc : (Expr.closure c).Over Composed) (turns : Nat) (values : List Value) :
    ops.Covers (c.invoke turns values) := by
  -- arguments of the wrong number or type are refused before the closure runs
  have hinvoke : (∃ fault, c.invoke turns values = Exec.raise fault) ∨
      ∃ env, c.invoke turns values = c.eval turns env := by
    cases hc with
    | constant hc =>
      have hnodup : c.args.Nodup := (Closure.eval_of_constantTyped hc).1 ▸ List.nodup_nil
      exact (c.invoke_cases hnodup turns values).imp_right fun ⟨env, _, _, _, h⟩ => ⟨env, h⟩
    | closure _ hc =>
      obtain ⟨x, hperforms, -⟩ := h _ _ hc
      exact (hperforms.invoke_cases turns values).imp_right fun ⟨env, _, h⟩ =>
        ⟨env, h.trans (hperforms.eval_eq turns env).symm⟩
  obtain ⟨fault, hinvoke⟩ | ⟨env, hinvoke⟩ := hinvoke
  · rw [hinvoke]
    exact .raise fault
  · rw [hinvoke]
    exact covers_eval h hc turns env

end StoreOps

end Splice

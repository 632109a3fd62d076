import Splice.Closure.Arithmetic
import Splice.Closure.Compare
import Splice.Proofs.Closure.Storage

/-!
# Operations on operands

The operands of an operation are variables and closures in any mix. `Expr.Computes` says of an
operand what `Closure.Computes` says of a closure, and every operation here, applied to operands
which compute something, is a closure that computes what the operation makes of it. A conjunction
computes `Exec.holdAll`, which runs nothing behind the first test that does not hold.
-/

namespace Splice

/-! ## Tests -/

namespace Exec

/-- Runs one of two programs, as the truth value that comes first selects. -/
def select (cond accept reject : Exec Value) : Exec Value := do
  if ← (← cond).expectBool then accept else reject

/-- Whether all tests of a list hold. They run in order, up to the first that does not. -/
def holdAll : List (Exec Value) → Exec Value
  | [] => return .bool true
  | [test] => test
  | test :: rest => select test (holdAll rest) (return .bool false)

variable {cond accept reject : Exec Value} {w w' : World}

/-- A truth value selects the program to be run in the world that the test has left. -/
theorem select_apply {b : Bool} (h : cond w = .ok (.bool b) w') :
    select cond accept reject w = if b then accept w' else reject w' := by
  rw [select, bind_apply, h]
  cases b <;> rfl

/-- A truth value that is known selects. -/
theorem select_return (b : Bool) :
    select (return .bool b) accept reject = if b then accept else reject := by
  cases b <;> rfl

/-- A further test is run only if the first one holds. -/
theorem holdAll_cons (test next : Exec Value) (rest : List (Exec Value)) :
    holdAll (test :: next :: rest) = select test (holdAll (next :: rest)) (return .bool false) :=
  rfl

/-- Tests that leave the world as it is all hold, or one of them does not. -/
theorem holdAll_apply {l : List α} {test : α → Exec Value} {holds : α → Bool}
    (h : ∀ a ∈ l, test a w = .ok (.bool (holds a)) w) :
    holdAll (l.map test) w = .ok (.bool (l.all holds)) w := by
  induction l with
  | nil => rfl
  | cons a rest ih =>
    obtain ⟨ha, hrest⟩ := List.forall_mem_cons.1 h
    cases rest with
    -- the last test is the result, as no other one follows it
    | nil => simpa [holdAll] using ha
    | cons b rest =>
      rw [List.map_cons, List.map_cons, holdAll_cons, select_apply ha, ← List.map_cons, ih hrest]
      cases hholds : holds a <;> simp [hholds]

end Exec

/-- The order of two values, as `-1`, `0` or `1`. -/
def Value.order (v w : Value) : Exec Value := do return ofOrdering (← v.compare w)

/-! ## Operands -/

/-- An operand reads none but given variables, and does under every environment what a program
does. -/
structure Expr.Computes (e : Expr) (vars : List Var) (ty : Ty) (x : Env → Exec Value) : Prop where
  vars_subset : e.vars ⊆ vars
  ty_eq : e.ty = ty
  eval_eq : ∀ turns env, e.eval turns env = x env

/-- A closure computes as an operand what it computes by itself. -/
theorem Closure.Computes.operand {c : Closure} {vars : List Var} {ty : Ty} {x : Env → Exec Value}
    (h : c.Computes vars ty x) : (Expr.closure c).Computes vars ty x :=
  ⟨h.args_subset, h.ty_eq, h.eval_eq⟩

/-- A variable computes its value. -/
theorem Var.computes {v : Var} {vars : List Var} {ty : Ty} (hv : v ∈ vars) (hty : v.ty = ty) :
    (Expr.var v).Computes vars ty fun env => return env v :=
  ⟨List.cons_subset.2 ⟨hv, List.nil_subset _⟩, hty, fun _ _ => rfl⟩

namespace Closure

variable {a b cond accept reject : Expr} {vars : List Var} {ty ty' : Ty}
  {x y z : Env → Exec Value}

/-- An operand that computes a value computes it as a closure. -/
theorem exists_asClosure_computes (ha : a.Computes vars ty x) (hty : ty ≠ .void) :
    ∃ c, a.asClosure = .ok c ∧ c.Computes vars ty x := by
  obtain ⟨c, hc, hcty, hargs⟩ := a.exists_asClosure
  refine ⟨c, hc, fun v hv => ?_, hcty.trans ha.ty_eq, fun turns env => ?_⟩
  · rw [hargs] at hv
    exact ha.vars_subset (List.mem_filter.1 hv).1
  · rw [Expr.eval_of_asClosure hc, Expr.run_eq_eval (ha.ty_eq.trans_ne hty), ha.eval_eq]

/-! ## Functions of operands -/

/-- An operation of one operand computes its value first. -/
theorem exists_unary (ha : a.Computes vars ty x) (hty : ty ≠ .void) (ret : Ty)
    (run : Value → Exec Value) :
    ∃ c, unary ret a run = .ok c ∧ c.Computes vars ret fun env => x env >>= run := by
  have hvoid : Ty.void ∉ [a].map Expr.ty := by simp [ha.ty_eq, hty.symm]
  obtain ⟨c, hc, hargs, hcty, heval⟩ := exists_native_operands rfl hvoid ret
    fun args => run (Handle.argument args 0)
  refine ⟨c, hc, fun v hv => ha.vars_subset (by simpa using hargs hv), hcty, fun turns env => ?_⟩
  rw [heval, List.mapM_cons, List.mapM_nil, ha.eval_eq]
  simp only [bind_assoc, pure_bind]
  rfl

/-- An operation of two operands computes their values first, in their order. -/
theorem exists_binary (ha : a.Computes vars ty x) (hb : b.Computes vars ty' y) (hty : ty ≠ .void)
    (hty' : ty' ≠ .void) (ret : Ty) (run : Value → Value → Exec Value) :
    ∃ c, binary ret a b run = .ok c ∧
      c.Computes vars ret fun env => (do run (← x env) (← y env)) := by
  have hvoid : Ty.void ∉ [a, b].map Expr.ty := by
    simp [ha.ty_eq, hb.ty_eq, hty.symm, hty'.symm]
  obtain ⟨c, hc, hargs, hcty, heval⟩ := exists_native_operands rfl hvoid ret
    fun args => run (Handle.argument args 0) (Handle.argument args 1)
  refine ⟨c, hc, fun v hv => ?_, hcty, fun turns env => ?_⟩
  · have hmem : v ∈ a.vars ∨ v ∈ b.vars := by simpa using hargs hv
    exact hmem.elim (fun h => ha.vars_subset h) fun h => hb.vars_subset h
  · rw [heval, List.mapM_cons, List.mapM_cons, List.mapM_nil, ha.eval_eq, hb.eval_eq]
    simp only [bind_assoc, pure_bind]
    rfl

/-- Operands of one type are compared. -/
theorem commonTy_eq_ok (ha : a.Computes vars ty x) (hb : b.Computes vars ty y) (op : Operator) :
    commonTy op a b = .ok ty := by
  rw [commonTy, ha.ty_eq, hb.ty_eq, if_pos rfl]

/-- Sameness is computed of two operands of one type. -/
theorem exists_same (ha : a.Computes vars ty x) (hb : b.Computes vars ty y) (hty : ty ≠ .void) :
    ∃ c, same a b = .ok c ∧
      c.Computes vars .bool fun env => (do return .bool ((← x env).same (← y env))) := by
  rw [same, commonTy_eq_ok ha hb]
  exact exists_binary ha hb hty hty .bool fun v w => return .bool (v.same w)

/-- Equality is computed of two operands of one type. -/
theorem exists_equals (ha : a.Computes vars ty x) (hb : b.Computes vars ty y) (hty : ty ≠ .void) :
    ∃ c, equals a b = .ok c ∧
      c.Computes vars .bool fun env => (do return .bool ((← x env).equals (← y env))) := by
  rw [equals, commonTy_eq_ok ha hb]
  exact exists_binary ha hb hty hty .bool fun v w => return .bool (v.equals w)

/-- Order is computed of two operands of one type. -/
theorem exists_compare (ha : a.Computes vars ty x) (hb : b.Computes vars ty y) (hty : ty ≠ .void) :
    ∃ c, compare a b = .ok c ∧
      c.Computes vars .int fun env => (do (← x env).order (← y env)) := by
  rw [compare, commonTy_eq_ok ha hb]
  exact exists_binary ha hb hty hty .int Value.order

/-- A hash is computed of every operand with a value. -/
theorem exists_hashCode (ha : a.Computes vars ty x) (hty : ty ≠ .void) :
    ∃ c, hashCode a = .ok c ∧ c.Computes vars .int fun env => (do return .int (← x env).hash) :=
  exists_unary ha hty .int _

/-- Whether there is a record of a schema is computed of every operand with a value. -/
theorem exists_instanceOfSchema (ha : a.Computes vars ty x) (hty : ty ≠ .void) (s : Schema) :
    ∃ c, instanceOfSchema a s = .ok c ∧
      c.Computes vars .bool fun env => (do return .bool (s.isInstance (← x env))) :=
  exists_unary ha hty .bool _

/-- A field is read from a variable for a record. -/
theorem exists_fieldOf {s : Schema} {record : Var} (hmem : record ∈ vars)
    (hrecord : record.ty = s.ty) {i : Nat} {field : Field} (hfield : s.fields[i]? = some field) :
    ∃ c, getField s field.name record = .ok c ∧
      (Expr.closure c).Computes vars field.ty fun env => (env record).getField s i := by
  obtain ⟨c, hc, hreads⟩ := exists_getField hfield hrecord
  exact ⟨c, hc, (hreads.weaken (List.cons_subset.2 ⟨hmem, List.nil_subset _⟩)).operand⟩

/-- A sum is computed of two numbers or two texts. -/
theorem exists_plus (ha : a.Computes vars ty x) (hb : b.Computes vars ty y)
    (hty : (ty.isNumeric || ty = .str) = true) :
    ∃ c, plus a b = .ok c ∧ c.Computes vars ty fun env => (do (← x env).plus (← y env)) := by
  have hvoid : ty ≠ .void := by rintro rfl; cases hty
  have hdefined : demand .plus a (ty.isNumeric || ty = .str) = .ok () := by
    rw [demand, hty]
    rfl
  obtain ⟨c, hc, hcomputes⟩ := exists_binary ha hb hvoid hvoid ty Value.plus
  refine ⟨c, ?_, hcomputes⟩
  rw [plus, commonTy_eq_ok ha hb]
  exact bind_eq_ok_iff.2 ⟨ty, rfl, bind_eq_ok_iff.2 ⟨(), hdefined, hc⟩⟩

/-- A product is computed of two numbers. -/
theorem exists_mul (ha : a.Computes vars ty x) (hb : b.Computes vars ty y)
    (hty : ty.isNumeric = true) :
    ∃ c, mul a b = .ok c ∧ c.Computes vars ty fun env => (do (← x env).times (← y env)) := by
  have hvoid : ty ≠ .void := by rintro rfl; cases hty
  have hdefined : demand .mul a ty.isNumeric = .ok () := by
    rw [demand, hty]
    rfl
  obtain ⟨c, hc, hcomputes⟩ := exists_binary ha hb hvoid hvoid ty fun v w => v.times w
  refine ⟨c, ?_, hcomputes⟩
  rw [mul, commonTy_eq_ok ha hb]
  exact bind_eq_ok_iff.2 ⟨ty, rfl, bind_eq_ok_iff.2 ⟨(), hdefined, hc⟩⟩

/-! ## Conditionals and conjunctions -/

/-- A conditional computes what its condition selects. -/
theorem exists_select (hcond : cond.Computes vars .bool x) (haccept : accept.Computes vars ty y)
    (hreject : reject.Computes vars ty z) (hty : ty ≠ .void) :
    ∃ c, ifThenElse cond accept reject = .ok c ∧
      c.Computes vars ty fun env => Exec.select (x env) (y env) (z env) := by
  obtain ⟨c, hc, hcty, hselects⟩ :=
    exists_ifThenElse hcond.ty_eq (hreject.ty_eq.trans haccept.ty_eq.symm)
  refine ⟨c, hc, fun v hv => ?_, hcty.trans haccept.ty_eq, fun turns env => ?_⟩
  · -- every variable of the conditional is read by one of its operands
    have hread : v ∈ [cond, accept, reject].flatMap Expr.reads := by
      rwa [hselects.args_first.eq_eraseDups, List.mem_eraseDups] at hv
    have hreads : ∀ e : Expr, e.vars ⊆ vars → e.reads ⊆ vars := fun e he w hw =>
      he (List.mem_filter.1 hw).1
    obtain ⟨e, he, hv⟩ := List.mem_flatMap.1 hread
    simp only [List.mem_cons, List.not_mem_nil, or_false] at he
    obtain rfl | rfl | rfl := he
    · exact hreads _ hcond.vars_subset hv
    · exact hreads _ haccept.vars_subset hv
    · exact hreads _ hreject.vars_subset hv
  · rw [hselects.eval_eq, hcond.eval_eq, Expr.run_eq_eval (haccept.ty_eq.trans_ne hty),
      Expr.run_eq_eval (hreject.ty_eq.trans_ne hty), haccept.eval_eq, hreject.eval_eq]
    rfl

/-- A constant reads nothing, whatever variables there are. -/
theorem exists_fixed (vars : List Var) {v : Value} (hty : v.staticTy ≠ .void)
    (hadmits : v.staticTy.admits v = true) :
    ∃ c, constant v = .ok c ∧ c.Computes vars v.staticTy fun _ => return v := by
  obtain ⟨c, hc, hcomputes⟩ := exists_constant hty hadmits
  exact ⟨c, hc, hcomputes.weaken (List.nil_subset _)⟩

/-- A constant truth value. -/
theorem exists_bool (vars : List Var) (b : Bool) :
    ∃ c, constant (.bool b) = .ok c ∧ c.Computes vars .bool fun _ => return .bool b :=
  exists_fixed vars nofun rfl

/-- A constant integer. -/
theorem exists_int (vars : List Var) (i : Int32) :
    ∃ c, constant (.int i) = .ok c ∧ c.Computes vars .int fun _ => return .int i :=
  exists_fixed vars nofun rfl

/-- A conjunction runs its second operand only if the first one holds. -/
theorem exists_conj (ha : a.Computes vars .bool x) (hb : b.Computes vars .bool y) :
    ∃ c, conj a b = .ok c ∧
      c.Computes vars .bool fun env => Exec.select (x env) (y env) (return .bool false) := by
  obtain ⟨no, hno, hfalse⟩ := exists_bool vars false
  rw [conj, hno]
  exact exists_select ha hb hfalse.operand (by decide)

/-- A disjunction runs its second operand only if the first one does not hold. -/
theorem exists_disj (ha : a.Computes vars .bool x) (hb : b.Computes vars .bool y) :
    ∃ c, disj a b = .ok c ∧
      c.Computes vars .bool fun env => Exec.select (x env) (return .bool true) (y env) := by
  obtain ⟨yes, hyes, htrue⟩ := exists_bool vars true
  rw [disj, hyes]
  exact exists_select ha htrue.operand hb (by decide)

/-- A conjunction of closures computes whether all that they compute holds. -/
theorem exists_allOf {ι : Type} {x : ι → Env → Exec Value} {cs : List Closure} {l : List ι}
    (h : List.Forall₂ (fun c i => c.Computes vars .bool (x i)) cs l) :
    ∃ c, allOf (cs.map Expr.closure) = .ok c ∧
      c.Computes vars .bool fun env => Exec.holdAll (l.map (x · env)) := by
  induction h with
  | nil => exact exists_bool vars true
  | cons hfirst hrest ih =>
    cases hrest with
    | nil => exact ⟨_, rfl, hfirst⟩
    | cons =>
      obtain ⟨rest, hc, hcomputes⟩ := ih
      obtain ⟨c, hconj, hboth⟩ := exists_conj hfirst.operand hcomputes.operand
      exact ⟨c, bind_eq_ok_iff.2 ⟨rest, hc, hconj⟩, hboth⟩

end Closure

end Splice

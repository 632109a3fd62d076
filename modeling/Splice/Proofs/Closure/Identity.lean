import Splice.Closure.Compare
import Splice.Proofs.Closure.Storage
import Splice.Proofs.Value.Equality

/-!
# Identity and equality

One and the same value is equal to itself unless a part of it is no number. Identity does not look
into a list, and equality does, so a list that holds such a pattern is the same as itself and not
equal to itself. The main statement says that nothing else sets the two apart, for values and for
the closures that compare operands.
-/

namespace Splice

namespace Value

mutual

/-- Values are identical if they are one. -/
theorem identical_iff {x y : Value} : x.identical y = true ↔ x = y := by
  cases x <;> cases y
  case list.list i as j bs =>
    have hitems : identicalAll as bs = true ↔ as = bs := identicalAll_iff
    rw [identical, Bool.and_eq_true, decide_eq_true_eq, hitems, list.injEq]
  all_goals simp [identical]

theorem identicalAll_iff {as bs : List Value} : identicalAll as bs = true ↔ as = bs := by
  cases as <;> cases bs
  case cons.cons a as b bs =>
    have hfirst : identical a b = true ↔ a = b := identical_iff
    have hrest : identicalAll as bs = true ↔ as = bs := identicalAll_iff
    rw [identicalAll, Bool.and_eq_true, hfirst, hrest, List.cons.injEq]
  all_goals simp [identicalAll]

end

/-- Where two values are the same, they are equal unless they hold what is no number. -/
theorem equals_of_same {x y : Value} (h : x.same y = true) : x.equals y = !x.holdsNaN := by
  unfold same at h
  split at h
  · next a b =>
    obtain ⟨hnumber, -⟩ := Double.equals_iff.1 h
    rw [equals, h, holdsNaN, hnumber]
    rfl
  · obtain rfl := identical_iff.1 h
    exact equals_self _

end Value

/-- A sequence returns where both of its parts do. -/
theorem Exec.bind_apply_eq_ok_iff {x : Exec α} {f : α → Exec β} {w w' : World} {b : β} :
    (x >>= f) w = .ok b w' ↔ ∃ a w₁, x w = .ok a w₁ ∧ f a w₁ = .ok b w' := by
  rw [bind_apply]
  cases x w <;> simp

namespace Closure

variable {a b : Expr}

/-- A function of two values is applied to operands that have values, the first of them first. -/
theorem exists_binary_eval (ha : a.ty ≠ .void) (hb : b.ty ≠ .void) (ret : Ty)
    (run : Value → Value → Exec Value) :
    ∃ c, binary ret a b run = .ok c ∧ c.ty = ret ∧ ∀ turns env,
      c.eval turns env = (do run (← a.eval turns env) (← b.eval turns env)) := by
  have hvoid : Ty.void ∉ [a, b].map Expr.ty := by simp [ha.symm, hb.symm]
  obtain ⟨c, hc, -, hcty, heval⟩ := exists_native_operands rfl hvoid ret
    fun args => run (Handle.argument args 0) (Handle.argument args 1)
  refine ⟨c, hc, hcty, fun turns env => ?_⟩
  rw [heval, List.mapM_cons, List.mapM_cons, List.mapM_nil]
  simp only [bind_assoc, pure_bind]
  rfl

/-- Operands without values are refused. -/
theorem ne_void_of_binary {ret : Ty} {run : Value → Value → Exec Value} {c : Closure}
    (h : binary ret a b run = .ok c) : a.ty ≠ .void ∧ b.ty ≠ .void := by
  obtain ⟨_, hnative, -⟩ := bind_eq_ok_iff.1 h
  obtain ⟨sig, hsig, -⟩ := bind_eq_ok_iff.1 hnative
  obtain ⟨hparams, -⟩ := Signature.ofTypes_eq_ok_iff.1 hsig
  have hvoid := hparams ▸ sig.noVoid
  simpa [eq_comm] using hvoid

/-- A test of the values of two operands, the first of which runs first. -/
structure Tests (c : Closure) (a b : Expr) (test : Value → Value → Bool) : Prop where
  ty_eq : c.ty = .bool
  eval_eq : ∀ turns env, c.eval turns env =
    (do return .bool (test (← a.eval turns env) (← b.eval turns env)))

/-- A test of two operands is composed exactly if they are of one type that has values. -/
theorem exists_test_iff {op : Operator} {test : Value → Value → Bool} :
    (∃ c, (do let _ ← commonTy op a b; binary .bool a b fun v w => return .bool (test v w)) =
      .ok c) ↔ a.ty = b.ty ∧ a.ty ≠ .void := by
  by_cases hty : a.ty = b.ty
  · have hcommon : commonTy op a b = .ok a.ty := if_pos hty
    rw [hcommon, and_iff_right hty]
    refine ⟨fun ⟨c, hc⟩ => (ne_void_of_binary (bind_eq_ok_iff.1 hc).choose_spec.2).1, ?_⟩
    intro hvoid
    obtain ⟨c, hc, -⟩ := exists_binary_eval hvoid (hty ▸ hvoid) .bool
      fun v w => return .bool (test v w)
    exact ⟨c, bind_eq_ok_iff.2 ⟨_, rfl, hc⟩⟩
  · have hcommon : commonTy op a b = .error (.operandTypes op a.ty b.ty) := if_neg hty
    rw [hcommon]
    exact ⟨fun ⟨_, hc⟩ => (nomatch hc), fun h => absurd h.1 hty⟩

theorem tests_of_eq_ok {op : Operator} {test : Value → Value → Bool} {c : Closure}
    (h : (do let _ ← commonTy op a b; binary .bool a b fun v w => return .bool (test v w)) =
      .ok c) : c.Tests a b test := by
  obtain ⟨_, -, hc⟩ := bind_eq_ok_iff.1 h
  obtain ⟨ha, hb⟩ := ne_void_of_binary hc
  obtain ⟨c', hc', hty, heval⟩ := exists_binary_eval ha hb .bool
    fun v w => return .bool (test v w)
  obtain rfl := Except.ok.inj (hc.symm.trans hc')
  exact ⟨hty, heval⟩

/-- A test has the answer that belongs to the values of its operands. -/
theorem Tests.eval_apply_eq_ok_iff {c : Closure} {test : Value → Value → Bool}
    (h : c.Tests a b test) {turns : Nat} {env : Env} {w w' : World} {r : Value} :
    c.eval turns env w = .ok r w' ↔ ∃ v w₁ v', a.eval turns env w = .ok v w₁ ∧
      b.eval turns env w₁ = .ok v' w' ∧ r = .bool (test v v') := by
  simp only [h.eval_eq, Exec.bind_apply_eq_ok_iff, Exec.pure_apply, Outcome.ok.injEq]
  constructor
  · rintro ⟨v, w₁, hv, v', w₂, hv', rfl, rfl⟩
    exact ⟨v, w₁, v', hv, hv', rfl⟩
  · rintro ⟨v, w₁, v', hv, hv', rfl⟩
    exact ⟨v, w₁, hv, v', w', hv', rfl, rfl⟩

/-- What is the same is equal exactly if it holds nothing that is no number, itself or in nested
lists. Where the closure that tests operands for identity says yes, the one that tests them for
equality has found the same value twice and says whether this is so; and the two are composed of the
same operands. -/
theorem same_implies_equals :
    (∀ x y : Value, x.same y = true → (x.equals y = true ↔ x.holdsNaN = false)) ∧
    ∀ a b : Expr, ((∃ c, same a b = .ok c) ↔ ∃ d, equals a b = .ok d) ∧
      ∀ c d, same a b = .ok c → equals a b = .ok d → ∀ turns env w w',
        c.eval turns env w = .ok (.bool true) w' →
        ∃ v w₁ v', a.eval turns env w = .ok v w₁ ∧ b.eval turns env w₁ = .ok v' w' ∧
          v.same v' = true ∧ d.eval turns env w = .ok (.bool !v.holdsNaN) w' := by
  refine ⟨fun x y h => ?_, fun a b => ⟨exists_test_iff.trans exists_test_iff.symm, ?_⟩⟩
  · rw [Value.equals_of_same h, Bool.not_eq_true']
  · intro c d hc hd turns env w w' hrun
    obtain ⟨v, w₁, v', hv, hv', hsame⟩ := (tests_of_eq_ok hc).eval_apply_eq_ok_iff.1 hrun
    have hsame : v.same v' = true := (Value.bool.inj hsame).symm
    have hequals := (tests_of_eq_ok hd).eval_apply_eq_ok_iff.2 ⟨v, w₁, v', hv, hv', rfl⟩
    rw [Value.equals_of_same hsame] at hequals
    exact ⟨v, w₁, v', hv, hv', hsame, hequals⟩

/-- A list within a list, read twice. -/
theorem same_implies_equals_of_nested_list :
    let var : Var := ⟨1, 0, true, .list .any⟩
    let l : Value := .list 0 [.list 1 [.double ⟨0x3ff8000000000000⟩]]
    let env : Env := fun _ => l
    l.equals l = true ∧ ∃ c d, same (.var var) (.var var) = .ok c ∧
      equals (.var var) (.var var) = .ok d ∧ c.eval 0 env {} = .ok (.bool true) {} ∧
      d.eval 0 env {} = .ok (.bool true) {} := by
  intro var l env
  obtain ⟨hvalues, hclosures⟩ := same_implies_equals
  obtain ⟨hboth, hruns⟩ := hclosures (.var var) (.var var)
  have hsame : l.same l = true := by decide
  have hnumbers : l.holdsNaN = false := by decide
  obtain ⟨c, hc⟩ : ∃ c, same (.var var) (.var var) = .ok c := exists_test_iff.2 ⟨rfl, nofun⟩
  obtain ⟨d, hd⟩ := hboth.1 ⟨c, hc⟩
  have hrun : c.eval 0 env {} = .ok (.bool true) {} :=
    (tests_of_eq_ok hc).eval_apply_eq_ok_iff.2 ⟨l, {}, l, rfl, rfl, by rw [hsame]⟩
  obtain ⟨v, _, _, hv, -, -, hequals⟩ := hruns c d hc hd 0 env {} {} hrun
  obtain ⟨rfl, -⟩ := Outcome.ok.inj hv
  rw [hnumbers] at hequals
  exact ⟨(hvalues l l hsame).2 hnumbers, c, d, hc, hd, hrun, hequals⟩

/-- A list that holds what is no number is the same as itself, and not equal to itself. -/
theorem same_list_is_not_equal :
    let var : Var := ⟨1, 0, true, .list .double⟩
    let l : Value := .list 0 [.double ⟨0x7ff8000000000000⟩]
    l.same l = true ∧ l.equals l = false ∧
      ∃ c d, same (.var var) (.var var) = .ok c ∧ equals (.var var) (.var var) = .ok d ∧
        c.eval 0 (fun _ => l) {} = .ok (.bool true) {} ∧
        d.eval 0 (fun _ => l) {} = .ok (.bool false) {} := by
  intro var l
  have hsame : l.same l = true := by decide
  have hequals : l.equals l = false := by decide
  obtain ⟨c, hc⟩ : ∃ c, same (.var var) (.var var) = .ok c := exists_test_iff.2 ⟨rfl, nofun⟩
  obtain ⟨d, hd⟩ : ∃ d, equals (.var var) (.var var) = .ok d := exists_test_iff.2 ⟨rfl, nofun⟩
  refine ⟨hsame, hequals, c, d, hc, hd, ?_, ?_⟩
  · exact (tests_of_eq_ok hc).eval_apply_eq_ok_iff.2 ⟨l, {}, l, rfl, rfl, by rw [hsame]⟩
  · exact (tests_of_eq_ok hd).eval_apply_eq_ok_iff.2 ⟨l, {}, l, rfl, rfl, by rw [hequals]⟩

end Closure

end Splice

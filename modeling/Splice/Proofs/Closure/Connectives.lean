import Splice.Proofs.Closure.Operands
import Splice.Stock

/-!
# Conjunctions and disjunctions

A conjunction is decided by the first operand that does not hold, a disjunction by the first that
does. Both are nests of conditionals that are built from the last operand backwards, and are treated
here as one thing with the decisive truth value for a parameter. The main statements are that
operands run from left to right up to the first that decides or fails, and that a list is refused
for an operand of another type than `bool`, unless that operand is the only one: it is then handed
out as it is, whatever its type.
-/

namespace Splice

/-! ## Tests one after the other -/

/-- Tests run one after the other, up to the first that gives the decisive truth value or fails. If
none does, the opposite value is the result. -/
inductive Decided (decisive : Bool) : List (Behaviour Value) → Behaviour Value
  | undecided : Decided decisive [] w (.ok (.bool !decisive) w)
  | decides : test w (.ok (.bool decisive) w') →
      Decided decisive (test :: rest) w (.ok (.bool decisive) w')
  | fails : test w (.thrown e w') → Decided decisive (test :: rest) w (.thrown e w')
  | passes : test w (.ok (.bool !decisive) w₁) → Decided decisive rest w₁ o →
      Decided decisive (test :: rest) w o

namespace Exec

/-- Runs a test, and the rest unless the test gives the decisive truth value. -/
def decideOr (decisive : Bool) (test rest : Exec Value) : Exec Value := do
  if (← (← test).expectBool) = decisive then return .bool decisive else rest

/-- Runs tests in order, up to the first that gives the decisive truth value. What the last one
gives is the result, whatever it is. -/
def decideAmong (decisive : Bool) : List (Exec Value) → Exec Value
  | [] => return .bool !decisive
  | [test] => test
  | test :: rest => decideOr decisive test (decideAmong decisive rest)

/-- Where `false` decides, a test in front of a rest is a conditional with `false` for its other
branch. -/
theorem decideOr_false (test rest : Exec Value) :
    decideOr false test rest = select test rest (return .bool false) :=
  bind_congr fun _ => bind_congr fun holds => by cases holds <;> rfl

variable {decisive : Bool} {test rest : Nat → Exec Value} {tests : List (Nat → Exec Value)}
  {w : World} {o : Outcome Value}

/-- With more turns, a test and its rest that keep their outcomes keep the outcome of both. -/
theorem steady_decideOr (htest : Steady test) (hrest : Steady rest) :
    Steady fun turns => decideOr decisive (test turns) (rest turns) := by
  refine htest.bind fun v => (Steady.const (ofExcept v.expectBool)).bind fun holds => ?_
  by_cases hdecides : holds = decisive
  · simp only [if_pos hdecides]
    exact .const _
  · simp only [if_neg hdecides]
    exact hrest

/-- A test and its rest lead where the test leads if it decides, and else where the rest leads. -/
theorem ends_decideOr (htest : Steady test) (hrest : Steady rest) :
    Ends (fun turns => decideOr decisive (test turns) (rest turns)) =
      ((Ends test).Reads Value.expectBool).Then fun holds =>
        if holds = decisive then Ends fun _ => pure (.bool decisive) else Ends rest := by
  cases decisive with
  | true => exact ends_select htest (.const _) hrest
  | false =>
    simp only [decideOr, ← Bool.not_eq_true, ite_not]
    exact ends_select htest hrest (.const _)

/-- With more turns, tests that keep their outcomes keep the outcome of all. -/
theorem steady_decideAmong (htests : ∀ test ∈ tests, Steady test) :
    Steady fun turns => decideAmong decisive (tests.map (· turns)) := by
  induction tests with
  | nil => exact .const _
  | cons test rest ih =>
    obtain ⟨htest, hrest⟩ := List.forall_mem_cons.1 htests
    cases rest with
    | nil => exact htest
    | cons next rest => exact steady_decideOr htest (ih hrest)

/-- A test in front of others leads where it leads itself if it decides, and else where the others
lead. -/
theorem ends_decideAmong_cons {next : Nat → Exec Value} {later : List (Nat → Exec Value)}
    (htest : Steady test) (hlater : ∀ test ∈ next :: later, Steady test) :
    Ends (fun turns => decideAmong decisive ((test :: next :: later).map (· turns))) =
      ((Ends test).Reads Value.expectBool).Then fun holds =>
        if holds = decisive then Ends fun _ => pure (.bool decisive)
        else Ends fun turns => decideAmong decisive ((next :: later).map (· turns)) :=
  ends_decideOr htest (steady_decideAmong hlater)

/-- Where tests lead, the run of them leads. -/
theorem ends_decideAmong_of_decided (htests : ∀ test ∈ tests, Steady test)
    (h : Decided decisive (tests.map Ends) w o) :
    Ends (fun turns => decideAmong decisive (tests.map (· turns))) w o := by
  induction tests generalizing w with
  | nil =>
    cases h
    exact ends_pure_iff.2 rfl
  | cons test rest ih =>
    obtain ⟨htest, hrest⟩ := List.forall_mem_cons.1 htests
    cases rest with
    | nil =>
      cases h with
      | decides hdecides => exact hdecides
      | fails hfails => exact hfails
      | passes hpasses hnone =>
        cases hnone
        exact hpasses
    | cons next later =>
      rw [ends_decideAmong_cons htest hrest]
      cases h with
      | decides hdecides =>
        refine .returns (.returns hdecides rfl) ?_
        rw [if_pos rfl]
        exact ends_pure_iff.2 rfl
      | fails hfails => exact .fails (.fails hfails)
      | passes hpasses hlater =>
        refine .returns (.returns hpasses rfl) ?_
        rw [if_neg (Bool.not_ne_self decisive)]
        exact ih hrest hlater

/-- Where the run of tests leads that give truth values, these tests lead. -/
theorem decided_of_ends_decideAmong (htests : ∀ test ∈ tests, Steady test)
    (hbool : ∀ test ∈ tests, ∀ w v w', Ends test w (.ok v w') → ∃ b, v = .bool b)
    (h : Ends (fun turns => decideAmong decisive (tests.map (· turns))) w o) :
    Decided decisive (tests.map Ends) w o := by
  induction tests generalizing w with
  | nil =>
    obtain rfl := ends_pure_iff.1 h
    exact .undecided
  | cons test rest ih =>
    obtain ⟨htest, hrest⟩ := List.forall_mem_cons.1 htests
    obtain ⟨htestBool, hrestBool⟩ := List.forall_mem_cons.1 hbool
    cases rest with
    | nil =>
      change Ends test w o at h
      cases o with
      | ok v w' =>
        obtain ⟨b, rfl⟩ := htestBool w v w' h
        by_cases hb : b = decisive
        · obtain rfl := hb
          exact .decides h
        · obtain rfl := Bool.eq_not_of_ne hb
          exact .passes h .undecided
      | thrown e w' => exact .fails h
      | unfinished => exact absurd rfl h.1
    | cons next later =>
      rw [ends_decideAmong_cons htest hrest] at h
      rcases h with hread | ⟨hread, hnext⟩
      · cases hread with
        | fails hfails => exact .fails hfails
        | unfit hreturns hfault =>
          obtain ⟨b, rfl⟩ := htestBool _ _ _ hreturns
          exact nomatch hfault
      · rcases hread with _ | ⟨hreturns, hvalue⟩
        obtain ⟨b, rfl⟩ := htestBool _ _ _ hreturns
        obtain rfl := Except.ok.inj hvalue
        -- a truth value other than the decisive one hands on to the tests behind
        by_cases hb : b = decisive
        · rw [if_pos hb] at hnext
          obtain rfl := ends_pure_iff.1 hnext
          exact .decides (hb ▸ hreturns)
        · rw [if_neg hb] at hnext
          exact .passes (Bool.eq_not_of_ne hb ▸ hreturns) (ih hrest hrestBool hnext)

end Exec

namespace Closure

/-! ## Links -/

/-- Links an operand to a closure for the operands behind it: a conditional that gives the decisive
value if the operand does, and else runs the closure. -/
def link (decisive : Bool) (a b : Expr) : Except CompositionError Closure := do
  let given ← constant (.bool decisive)
  if decisive then ifThenElse a given b else ifThenElse a b given

section

variable {decisive : Bool} {a b : Expr}

/-- A conditional is refused for its condition first. -/
theorem ifThenElse_of_cond {cond : Expr} (h : cond.ty ≠ .bool) (accept reject : Expr) :
    ifThenElse cond accept reject = .error (.conditionType cond.ty) := by
  rw [ifThenElse, require, if_neg h]
  rfl

/-- A conditional with a condition is refused for branches of different types. -/
theorem ifThenElse_of_branches {cond accept reject : Expr} (hcond : cond.ty = .bool)
    (h : reject.ty ≠ accept.ty) : ifThenElse cond accept reject =
      .error (.roleType .elseBranch accept.ty reject.ty) := by
  obtain ⟨a, ha, haty, -⟩ := accept.exists_asClosure
  obtain ⟨r, hr, hrty, -⟩ := reject.exists_asClosure
  have hne : r.ty ≠ a.ty := by rwa [haty, hrty]
  rw [ifThenElse, require, if_pos hcond, ha, hr, ← haty, ← hrty]
  change (expectType .elseBranch r a.ty >>= _) = _
  rw [expectType, require, if_neg hne]
  -- the decisive value stands in the branch for operands that hold, or in the other one
  rfl

/-- Operands of type `bool` are linked. -/
theorem exists_link (decisive : Bool) (ha : a.ty = .bool) (hb : b.ty = .bool) :
    ∃ c, link decisive a b = .ok c ∧ c.ty = .bool ∧ ∀ turns env,
      c.eval turns env = Exec.decideOr decisive (a.eval turns env) (b.eval turns env) := by
  obtain ⟨given, hgiven, hconstant⟩ := exists_bool [] decisive
  have hgivenTy : (Expr.closure given).ty = .bool := hconstant.ty_eq
  have hgivenRun : ∀ turns env, (Expr.closure given).run turns env = return .bool decisive :=
    hconstant.eval_eq
  have hbRun := b.run_eq_eval (hb.trans_ne (by decide))
  rw [link, hgiven]
  cases decisive with
  | true =>
    obtain ⟨c, hc, hty, hselects⟩ := exists_ifThenElse ha (hb.trans hgivenTy.symm)
    refine ⟨c, hc, hty.trans hgivenTy, fun turns env => ?_⟩
    rw [hselects.eval_eq, hgivenRun, hbRun]
    rfl
  | false =>
    obtain ⟨c, hc, hty, hselects⟩ := exists_ifThenElse ha (hgivenTy.trans hb.symm)
    refine ⟨c, hc, hty.trans hb, fun turns env => ?_⟩
    rw [hselects.eval_eq, hgivenRun, hbRun, Exec.decideOr_false]
    rfl

/-- Operands of other types are not. -/
theorem exists_link_error (decisive : Bool) (h : ¬ (a.ty = .bool ∧ b.ty = .bool)) :
    ∃ cause, link decisive a b = .error cause ∧ cause.category = .signatureMismatch := by
  obtain ⟨given, hgiven, hconstant⟩ := exists_bool [] decisive
  have hgivenTy : (Expr.closure given).ty = .bool := hconstant.ty_eq
  rw [link, hgiven]
  by_cases ha : a.ty = .bool
  · have hb : b.ty ≠ .bool := fun hb => h ⟨ha, hb⟩
    cases decisive with
    | true => exact ⟨_, ifThenElse_of_branches ha (hgivenTy ▸ hb), rfl⟩
    | false => exact ⟨_, ifThenElse_of_branches ha (hgivenTy ▸ hb.symm), rfl⟩
  · cases decisive with
    | true => exact ⟨_, ifThenElse_of_cond ha _ _, rfl⟩
    | false => exact ⟨_, ifThenElse_of_cond ha _ _, rfl⟩

end

/-! ## Chains -/

/-- A list of operands is linked from the last one backwards. A single operand is taken as it is,
and none at all are a constant. -/
structure Chains (decisive : Bool) (chain : List Expr → Except CompositionError Closure) :
    Prop where
  nil : chain [] = constant (.bool !decisive)
  single : ∀ a, chain [a] = a.asClosure
  cons : ∀ a b rest, chain (a :: b :: rest) = do link decisive a (← chain (b :: rest))

/-- A conjunction is a chain that `false` decides. -/
theorem chains_allOf : Chains false allOf := ⟨rfl, fun _ => rfl, fun _ _ _ => rfl⟩

/-- A disjunction is a chain that `true` decides. -/
theorem chains_anyOf : Chains true anyOf := ⟨rfl, fun _ => rfl, fun _ _ _ => rfl⟩

namespace Chains

variable {decisive : Bool} {chain : List Expr → Except CompositionError Closure} {es : List Expr}

/-- In front of operands that are chained, one more operand is linked to them. -/
theorem cons_of_ok (h : Chains decisive chain) (a : Expr) {b : Expr} {rest : List Expr}
    {d : Closure} (hd : chain (b :: rest) = .ok d) :
    chain (a :: b :: rest) = link decisive a (.closure d) := by
  rw [h.cons, hd]
  exact pure_bind d _

/-- Operands of type `bool` are chained. -/
theorem exists_chain (h : Chains decisive chain) (hes : ∀ e ∈ es, e.ty = .bool) :
    ∃ c, chain es = .ok c ∧ c.ty = .bool ∧ ∀ turns env,
      c.eval turns env = Exec.decideAmong decisive (es.map (Expr.eval turns env)) := by
  induction es with
  | nil =>
    obtain ⟨c, hc, hconstant⟩ := exists_bool [] !decisive
    exact ⟨c, h.nil.trans hc, hconstant.ty_eq, hconstant.eval_eq⟩
  | cons a rest ih =>
    obtain ⟨ha, hrest⟩ := List.forall_mem_cons.1 hes
    cases rest with
    | nil =>
      obtain ⟨c, hc, hty, -⟩ := a.exists_asClosure
      refine ⟨c, (h.single a).trans hc, hty.trans ha, fun turns env => ?_⟩
      rw [Expr.eval_of_asClosure hc, Expr.run_eq_eval (ha.trans_ne (by decide))]
      rfl
    -- what is linked to the operand is the closure for those behind it
    | cons b later =>
      obtain ⟨d, hd, hdty, hdeval⟩ := ih hrest
      obtain ⟨c, hc, hty, heval⟩ := exists_link decisive (b := .closure d) ha hdty
      refine ⟨c, (h.cons_of_ok a hd).trans hc, hty, fun turns env => ?_⟩
      have hrestEval : (Expr.closure d).eval turns env = _ := hdeval turns env
      rw [heval, hrestEval]
      rfl

/-- Two or more operands are refused if one of them is of another type. -/
theorem exists_error (h : Chains decisive chain) {a b : Expr} {rest : List Expr}
    (hother : ∃ e ∈ a :: b :: rest, e.ty ≠ .bool) :
    ∃ cause, chain (a :: b :: rest) = .error cause ∧ cause.category = .signatureMismatch := by
  induction rest generalizing a b with
  | nil =>
    obtain ⟨d, hd, hdty, -⟩ := b.exists_asClosure
    rw [h.cons_of_ok a ((h.single b).trans hd)]
    refine exists_link_error decisive fun ⟨ha, hb⟩ => ?_
    obtain ⟨e, he, hne⟩ := hother
    simp only [List.mem_cons, List.not_mem_nil, or_false] at he
    obtain rfl | rfl := he
    · exact hne ha
    · exact hne (hdty.symm.trans hb)
  | cons c rest ih =>
    by_cases hbehind : ∃ e ∈ b :: c :: rest, e.ty ≠ .bool
    · obtain ⟨cause, hcause, hcategory⟩ := ih hbehind
      rw [h.cons, hcause]
      exact ⟨cause, rfl, hcategory⟩
    · -- the operands behind the first one are chained, so the first one is of another type
      simp only [not_exists, not_and, not_not] at hbehind
      obtain ⟨d, hd, -⟩ := h.exists_chain hbehind
      obtain ⟨e, he, hne⟩ := hother
      obtain rfl | he := List.mem_cons.1 he
      · rw [h.cons_of_ok e hd]
        exact exists_link_error decisive fun ⟨ha, _⟩ => hne ha
      · exact absurd (hbehind e he) hne

end Chains

/-! ## Accepted and refused lists -/

/-- Which lists of operands are chained, and to closures of which type. -/
structure Checks (chain : List Expr → Except CompositionError Closure) (es : List Expr) : Prop where
  accepted_iff : (∃ c, chain es = .ok c) ↔ es.length = 1 ∨ ∀ e ∈ es, e.ty = .bool
  refused_iff : (∃ cause, chain es = .error cause ∧ cause.category = .signatureMismatch) ↔
    es.length ≠ 1 ∧ ∃ e ∈ es, e.ty ≠ .bool
  ty_eq_bool_iff : ∀ c, chain es = .ok c → (c.ty = .bool ↔ ∀ e ∈ es, e.ty = .bool)

namespace Chains

variable {decisive : Bool} {chain : List Expr → Except CompositionError Closure}

/-- A list that is accepted is not refused. -/
theorem not_refused {es : List Expr} {c : Closure} (hc : chain es = .ok c) :
    ¬ ∃ cause, chain es = .error cause ∧ cause.category = .signatureMismatch := by
  rintro ⟨cause, hcause, -⟩
  exact nomatch hc.symm.trans hcause

/-- A list is accepted if it has one operand or all operands are of type `bool`, and refused
otherwise. -/
theorem checks (h : Chains decisive chain) (es : List Expr) : Checks chain es := by
  by_cases hall : ∀ e ∈ es, e.ty = .bool
  · obtain ⟨c, hc, hty, -⟩ := h.exists_chain hall
    refine ⟨iff_of_true ⟨c, hc⟩ (.inr hall), iff_of_false (not_refused hc) ?_, fun d hd => ?_⟩
    · rintro ⟨-, e, he, hne⟩
      exact hne (hall e he)
    · obtain rfl := Except.ok.inj (hc.symm.trans hd)
      exact iff_of_true hty hall
  · have hother : ∃ e ∈ es, e.ty ≠ .bool := by
      simpa only [not_forall, exists_prop] using hall
    rcases es with _ | ⟨a, _ | ⟨b, rest⟩⟩
    · exact absurd (List.forall_mem_nil _) hall
    · -- the only operand is taken as it is
      obtain ⟨c, hc, hty, -⟩ := a.exists_asClosure
      have hchain : chain [a] = .ok c := (h.single a).trans hc
      refine ⟨iff_of_true ⟨c, hchain⟩ (.inl rfl), iff_of_false (not_refused hchain) ?_,
        fun d hd => ?_⟩
      · exact fun hlength => hlength.1 rfl
      · obtain rfl := Except.ok.inj (hchain.symm.trans hd)
        rw [hty, List.forall_mem_singleton]
    · obtain ⟨cause, hcause, hcategory⟩ := h.exists_error hother
      have hlength : (a :: b :: rest).length ≠ 1 := by simp
      have hrefused : ∀ c, chain (a :: b :: rest) ≠ .ok c := fun c hc =>
        nomatch hc.symm.trans hcause
      exact ⟨iff_of_false (fun ⟨c, hc⟩ => hrefused c hc) (not_or.2 ⟨hlength, hall⟩),
        iff_of_true ⟨cause, hcause, hcategory⟩ ⟨hlength, hother⟩,
        fun c hc => absurd hc (hrefused c)⟩

end Chains

/-- Conjunctions and disjunctions of any length take operands of type `bool`, and are of that type.
They refuse every other list but those of one operand, and are of another type for these. -/
theorem connectives_check_operands (es : List Expr) : Checks allOf es ∧ Checks anyOf es :=
  ⟨chains_allOf.checks es, chains_anyOf.checks es⟩

/-- A number is taken for the only operand, and refused as soon as there is another one. -/
theorem only_operand_is_not_checked :
    ∃ one all any, constant (.int 1) = .ok one ∧ allOf [.closure one] = .ok all ∧ all.ty = .int ∧
      anyOf [.closure one] = .ok any ∧ any.ty = .int ∧
      allOf [.closure one, .closure one] = .error (.conditionType .int) ∧
      anyOf [.closure one, .closure one] = .error (.conditionType .int) := by
  obtain ⟨one, hone, hconstant⟩ := exists_int [] 1
  have hty : (Expr.closure one).ty = .int := hconstant.ty_eq
  have hcond : ∀ accept reject, ifThenElse one accept reject = .error (.conditionType .int) :=
    fun accept reject => by rw [ifThenElse_of_cond (hty.trans_ne (by decide)), hty]
  exact ⟨one, one, one, hone, chains_allOf.single one, hty, chains_anyOf.single one, hty,
    hcond _ _, hcond _ _⟩

/-! ## Short circuits -/

/-- A closure runs operands from left to right, up to the first that decides or fails. -/
structure ShortCircuits (c : Closure) (decisive : Bool) (es : List Expr) : Prop where
  ty_eq : c.ty = .bool
  eval_eq : ∀ turns env,
    c.eval turns env = Exec.decideAmong decisive (es.map (Expr.eval turns env))
  /-- Where the operands lead in this way is the only end. -/
  ends_iff_of_decided : ∀ env w o, Decided decisive (es.map (·.Ends env)) w o →
    ∀ o', c.Ends env w o' ↔ o' = o
  /-- There is no other way to an end for operands that give truth values. -/
  decided_of_ends : ∀ env, (∀ e ∈ es, ∀ w v w', e.Ends env w (.ok v w') → ∃ b, v = .bool b) →
    ∀ w o, c.Ends env w o → Decided decisive (es.map (·.Ends env)) w o

/-- A closure that runs its operands up to the first that decides stops as early as they let it. -/
theorem shortCircuits_of_eval_eq {c : Closure} {decisive : Bool} {es : List Expr}
    (hty : c.ty = .bool) (heval : ∀ turns env,
      c.eval turns env = Exec.decideAmong decisive (es.map (Expr.eval turns env))) :
    c.ShortCircuits decisive es := by
  -- the runs of the operands without the environment, which is the same for all of them
  let runs (env : Env) : List (Nat → Exec Value) := es.map fun e turns => e.eval turns env
  have hruns : ∀ env turns, es.map (Expr.eval turns env) = (runs env).map (· turns) :=
    fun env turns => by rw [List.map_map]; rfl
  have hends : ∀ env, es.map (·.Ends env) = (runs env).map Exec.Ends := fun env => by
    rw [List.map_map]; rfl
  have hsteady : ∀ env, ∀ run ∈ runs env, Exec.Steady run := fun env run hrun => by
    obtain ⟨e, -, rfl⟩ := List.mem_map.1 hrun
    exact e.steady_eval env
  have hc : ∀ env, c.Ends env = Exec.Ends fun turns =>
      Exec.decideAmong decisive ((runs env).map (· turns)) := fun env => by
    unfold Ends
    simp only [heval, hruns]
  refine ⟨hty, heval, fun env w o hdecided o' => ?_, fun env hbool w o ho => ?_⟩
  · rw [hends] at hdecided
    have ho : c.Ends env w o := by
      rw [hc]
      exact Exec.ends_decideAmong_of_decided (hsteady env) hdecided
    exact Exec.Ends.iff_eq (c.steady_eval env) ho o'
  · rw [hc] at ho
    rw [hends]
    refine Exec.decided_of_ends_decideAmong (hsteady env) (fun run hrun => ?_) ho
    obtain ⟨e, he, rfl⟩ := List.mem_map.1 hrun
    exact hbool e he

/-- A conjunction of any number of operands stops at the first that does not hold, and a disjunction
at the first that does. Both stop at the first that fails. -/
theorem connectives_short_circuit (es : List Expr) (hes : ∀ e ∈ es, e.ty = .bool) :
    (∃ c, allOf es = .ok c ∧ c.ShortCircuits false es) ∧
      ∃ c, anyOf es = .ok c ∧ c.ShortCircuits true es := by
  constructor
  · obtain ⟨c, hc, hty, heval⟩ := chains_allOf.exists_chain hes
    exact ⟨c, hc, shortCircuits_of_eval_eq hty heval⟩
  · obtain ⟨c, hc, hty, heval⟩ := chains_anyOf.exists_chain hes
    exact ⟨c, hc, shortCircuits_of_eval_eq hty heval⟩

/-- The first operand of three that share variables is read, the second runs, and the last one runs
and fails only in the disjunction that nothing has decided. -/
theorem connectives_short_circuit_over_shared_variables :
    let p : Var := ⟨7, 0, true, .bool⟩
    let x : Var := ⟨7, 1, true, .int⟩
    let e : Exception := ⟨0, "E", "fail"⟩
    let test (f : Stock) (tag : String) : Closure :=
      ⟨.prim ⟨[.int, .bool], .bool, by decide⟩ (f.runTagged (some tag)), [x, p], rfl⟩
    let es : List Expr := [.var p, test (.const (.bool false)) "test", test (.throw e) "fail"]
    let env (b : Bool) : Env := fun v => if v = p then .bool b else .int 5
    (∀ e ∈ es, e.ty = .bool) ∧ ∃ all any, allOf es = .ok all ∧ anyOf es = .ok any ∧
      all.Ends (env true) {} (.ok (.bool false) { effects := #["test(5, true)"] }) ∧
      all.Ends (env false) {} (.ok (.bool false) {}) ∧
      any.Ends (env true) {} (.ok (.bool true) {}) ∧
      any.Ends (env false) {} (.thrown e { effects := #["test(5, false)", "fail(5, false)"] }) := by
  intro p x e test es env
  have hes : ∀ e ∈ es, e.ty = .bool := by
    simp only [es, List.forall_mem_cons]
    exact ⟨rfl, rfl, rfl, nofun⟩
  obtain ⟨⟨all, hall, hconj⟩, any, hany, hdisj⟩ := connectives_short_circuit es hes
  -- where the operands lead, each from the world that the one in front leaves
  have hp : ∀ b, (Expr.var p).Ends (env b) {} (.ok (.bool b) {}) := fun b => by
    cases b <;> exact ⟨nofun, 0, rfl⟩
  have htest : ∀ b, (Expr.closure (test (.const (.bool false)) "test")).Ends (env b) {}
      (.ok (.bool false) { effects := #[s!"test(5, {b})"] }) := fun b => by
    cases b <;> exact ⟨nofun, 0, rfl⟩
  have hfail : (Expr.closure (test (.throw e) "fail")).Ends (env false)
      { effects := #["test(5, false)"] }
      (.thrown e { effects := #["test(5, false)", "fail(5, false)"] }) := ⟨nofun, 0, rfl⟩
  refine ⟨hes, all, any, hall, hany, ?_, ?_, ?_, ?_⟩
  · exact (hconj.ends_iff_of_decided _ _ _ (.passes (hp true) (.decides (htest true))) _).2 rfl
  · exact (hconj.ends_iff_of_decided _ _ _ (.decides (hp false)) _).2 rfl
  · exact (hdisj.ends_iff_of_decided _ _ _ (.decides (hp true)) _).2 rfl
  · exact (hdisj.ends_iff_of_decided _ _ _
      (.passes (hp false) (.passes (htest false) (.fails hfail))) _).2 rfl

end Closure

end Splice

import Splice.Closure.Unifier
import Splice.Handle.Calls

/-!
# Values of expressions

An environment gives every variable a value, and so gives every expression a run: `Closure.eval`
calls the handle on the values of the arguments. Whatever rewires a closure to other arguments
keeps its runs under all environments: `exists_dedup` says so of sharing repeated arguments and
`exists_withLocals` of putting variables in front. `Expr.exists_asClosure` and
`Expr.eval_bind_of_asClosure` say that every operand can stand as a closure which runs the same.
-/

namespace Splice

/-- A value for every variable. -/
abbrev Env := Var → Value

/-- The environment in which a variable has a new value and all others keep theirs. -/
def Env.bind (env : Env) (v : Var) (value : Value) : Env :=
  fun w => if w = v then value else env w

/-- The environment in which a result stands for its variable. A variable without values is left as
it is. -/
def Env.bindResult (env : Env) (v : Var) (value : Value) : Env :=
  if v.ty = .void then env else env.bind v value

/-- The run of a closure on the values of its arguments. -/
def Closure.eval (turns : Nat) (env : Env) (c : Closure) : Exec Value :=
  c.handle.call turns (c.args.map env)

/-- The run of an expression: a variable has its value, a closure runs. -/
def Expr.eval (turns : Nat) (env : Env) : Expr → Exec Value
  | .var v => return env v
  | .closure c => c.eval turns env

/-! ## Several variables at once -/

namespace Env

/-- The environment in which variables have the values of a list. -/
def bindAll (env : Env) : List Var → List Value → Env
  | v :: vars, value :: values => (env.bind v value).bindAll vars values
  | _, _ => env

theorem bindAll_of_notMem {env : Env} {vars : List Var} {values : List Value} {v : Var}
    (hv : v ∉ vars) : env.bindAll vars values v = env v := by
  induction vars generalizing env values with
  | nil => rfl
  | cons w vars ih =>
    cases values with
    | nil => rfl
    | cons value values =>
      rw [List.mem_cons, not_or] at hv
      rw [bindAll, ih hv.2, bind, if_neg hv.1]

/-- Distinct variables have the values that they are bound to. -/
theorem map_bindAll {env : Env} {vars : List Var} {values : List Value} (hnodup : vars.Nodup)
    (hlen : values.length = vars.length) : vars.map (env.bindAll vars values) = values := by
  induction vars generalizing env values with
  | nil => exact (List.length_eq_zero_iff.1 hlen).symm
  | cons v vars ih =>
    cases values with
    | nil => exact nomatch hlen
    | cons value values =>
      rw [List.nodup_cons] at hnodup
      rw [List.map_cons, bindAll, ih hnodup.2 (Nat.succ.inj hlen), bindAll_of_notMem hnodup.1, bind,
        if_pos rfl]

end Env

/-! ## Places in lists -/

/-- Every member of a list is found at its first index. -/
theorem getElem?_idxOf_of_mem {α : Type} [BEq α] [LawfulBEq α] {l : List α} {a : α}
    (h : a ∈ l) : l[l.idxOf a]? = some a := by
  rw [List.getElem?_eq_getElem (List.idxOf_lt_length_of_mem h), List.getElem_idxOf]

/-- The first places hold the front of a list. -/
theorem map_getElem?_range {α : Type} (front back : List α) :
    (List.range front.length).map ((front ++ back)[·]?) = front.map some := by
  apply List.ext_getElem
  · simp
  · intro i h1 h2
    rw [List.length_map] at h2
    simp [List.getElem?_append_left h2, h2]

/-- Keeping first occurrences leaves the order as it is. -/
theorem eraseDups_sublist {α : Type} [BEq α] [LawfulBEq α] : ∀ l : List α, l.eraseDups.Sublist l
  | [] => by simp
  | a :: l => by
    rw [List.eraseDups_cons]
    exact ((eraseDups_sublist _).trans List.filter_sublist).cons_cons a
termination_by l => l.length
decreasing_by
  have := List.length_filter_le (fun b => !b == a) l
  simp only [List.length_cons]
  omega

/-- Keeping first occurrences leaves no repetition. -/
theorem nodup_eraseDups {α : Type} [BEq α] [LawfulBEq α] : ∀ l : List α, l.eraseDups.Nodup
  | [] => by simp
  | a :: l => by
    rw [List.eraseDups_cons, List.nodup_cons]
    refine ⟨fun hmem => ?_, nodup_eraseDups _⟩
    have hfilter := List.mem_filter.1 (List.mem_eraseDups.1 hmem)
    simp at hfilter
termination_by l => l.length
decreasing_by
  have := List.length_filter_le (fun b => !b == a) l
  simp only [List.length_cons]
  omega

/-- Every member of a list is found at its last index. -/
theorem getElem?_lastIndex_of_mem {vars : List Var} {v : Var} (h : v ∈ vars) :
    vars[Var.lastIndex vars v]? = some v := by
  have hlt := List.idxOf_lt_length_of_mem (List.mem_reverse.2 h)
  have hfirst := getElem?_idxOf_of_mem (List.mem_reverse.2 h)
  rw [List.length_reverse] at hlt
  rwa [List.getElem?_reverse hlt] at hfirst

/-! ## Rewired closures -/

namespace Closure

theorem wire_eq_ok_iff {h : Handle} {args : List Var} {c : Closure} :
    wire h args = .ok c ↔ c.handle = h ∧ c.args = args := by
  rw [wire]
  split
  case isTrue typed =>
    rw [Except.ok.injEq]
    constructor
    · rintro rfl
      exact ⟨rfl, rfl⟩
    · obtain ⟨_, _, _⟩ := c
      rintro ⟨rfl, rfl⟩
      rfl
  case isFalse typed =>
    refine ⟨fun hw => (nomatch hw), ?_⟩
    rintro ⟨rfl, rfl⟩
    exact absurd c.typed typed

/-- No argument of a closure is void. -/
theorem ty_ne_void_of_mem_args {c : Closure} {v : Var} (hv : v ∈ c.args) : v.ty ≠ .void := by
  intro hvoid
  apply c.handle.sig.noVoid
  change Ty.void ∈ c.handle.params
  rw [← c.typed, ← hvoid]
  exact List.mem_map_of_mem hv

/-- A closure can be rewired to any variables that include its arguments. It then runs on the
values that stand in the places of its arguments. -/
theorem exists_rewire {c : Closure} {vars : List Var} {places : List Nat}
    (hvoid : ∀ v ∈ vars, v.ty ≠ .void) (hplaces : places.map (vars[·]?) = c.args.map some) :
    ∃ h d, c.handle.permute (vars.map Var.ty) places = .ok h ∧ wire h vars = .ok d ∧
      d.args = vars ∧ d.ty = c.ty ∧ ∀ turns values, values.length = vars.length →
        d.handle.call turns values = c.handle.call turns (places.map (Handle.argument values)) := by
  have hparams : Ty.void ∉ vars.map Var.ty := by
    rw [List.mem_map]
    rintro ⟨v, hv, hty⟩
    exact hvoid v hv hty
  have hfits : places.map ((vars.map Var.ty)[·]?) = c.handle.params.map some := by
    have hty := congrArg (List.map (Option.map Var.ty)) hplaces
    rw [← c.typed]
    simpa [Function.comp_def] using hty
  obtain ⟨h, hp⟩ := (Handle.exists_permute_iff hparams).2 hfits
  obtain ⟨hty, hret, hcall⟩ := Handle.permute_eq_ok hp
  refine ⟨h, ⟨h, vars, hty.symm⟩, hp, wire_eq_ok_iff.2 ⟨rfl, rfl⟩, rfl, hret, ?_⟩
  intro turns values hlen
  exact hcall turns values (by rw [hlen, List.length_map])

/-- Arguments read from places are what stands there. -/
theorem map_argument_of_places {values results : List Value} {places : List Nat}
    (hplaces : places.map (values[·]?) = results.map some) :
    places.map (Handle.argument values) = results := by
  have hread : Handle.argument values = fun i => (values[i]?).getD .unit := rfl
  have hresults := congrArg (List.map fun v : Option Value => v.getD .unit) hplaces
  rw [hread]
  simpa [Function.comp_def] using hresults

/-- A rewired closure keeps its runs under every environment. -/
theorem eval_of_rewire {c d : Closure} {places : List Nat}
    (hplaces : places.map (d.args[·]?) = c.args.map some)
    (hcall : ∀ turns values, values.length = d.args.length →
      d.handle.call turns values = c.handle.call turns (places.map (Handle.argument values)))
    (turns : Nat) (env : Env) : d.eval turns env = c.eval turns env := by
  have hvalues : places.map ((d.args.map env)[·]?) = (c.args.map env).map some := by
    have hmapped := congrArg (List.map (Option.map env)) hplaces
    simpa [Function.comp_def] using hmapped
  rw [eval, hcall turns _ (List.length_map _), map_argument_of_places hvalues, eval]

/-- Sharing repeated arguments always succeeds, leaves each argument once, at its first place, and
keeps the runs. -/
theorem exists_dedup (c : Closure) :
    ∃ d, c.dedup = .ok d ∧ d.args = c.args.eraseDups ∧ d.ty = c.ty ∧
      ∀ turns env, d.eval turns env = c.eval turns env := by
  unfold dedup
  by_cases hlen : c.args.eraseDups.length = c.args.length
  · -- no argument is repeated
    rw [if_pos hlen]
    exact ⟨c, rfl, ((eraseDups_sublist c.args).eq_of_length hlen).symm, rfl, fun _ _ => rfl⟩
  · rw [if_neg hlen]
    have hplaces : (c.args.map (c.args.eraseDups.idxOf ·)).map (c.args.eraseDups[·]?) =
        c.args.map some := by
      rw [List.map_map]
      exact List.map_congr_left fun v hv => getElem?_idxOf_of_mem (List.mem_eraseDups.2 hv)
    obtain ⟨h, d, hp, hw, hargs, hty, hcall⟩ := exists_rewire
      (fun v hv => c.ty_ne_void_of_mem_args (List.mem_eraseDups.1 hv)) hplaces
    refine ⟨d, ?_, hargs, hty, fun turns env => ?_⟩
    · rw [bind_eq_ok_iff]
      exact ⟨h, hp, hw⟩
    · rw [← hargs] at hplaces hcall
      exact eval_of_rewire hplaces hcall turns env

/-- Leading arguments can be put in front of a closure, whether it reads them or not, and its runs
stay as they are. -/
theorem exists_withLocals (c : Closure) {locals : List Var} (hvoid : ∀ v ∈ locals, v.ty ≠ .void) :
    ∃ d, c.withLocals locals = .ok d ∧ d.args = locals ++ c.args.filter (· ∉ locals) ∧
      d.ty = c.ty ∧ ∀ turns env, d.eval turns env = c.eval turns env := by
  let args := locals ++ c.args.filter (· ∉ locals)
  have hmem : ∀ v ∈ c.args, v ∈ args := fun v hv => by
    by_cases hlocal : v ∈ locals
    · exact List.mem_append_left _ hlocal
    · exact List.mem_append_right _ (List.mem_filter.2 ⟨hv, by simpa using hlocal⟩)
  have hargs : ∀ v ∈ args, v.ty ≠ .void := fun v hv => by
    rcases List.mem_append.1 hv with hv | hv
    · exact hvoid v hv
    · exact c.ty_ne_void_of_mem_args (List.mem_filter.1 hv).1
  have hplaces : (c.args.map (Var.lastIndex args)).map (args[·]?) = c.args.map some := by
    rw [List.map_map]
    exact List.map_congr_left fun v hv => getElem?_lastIndex_of_mem (hmem v hv)
  obtain ⟨h, d, hp, hw, hd, hty, hcall⟩ := exists_rewire hargs hplaces
  refine ⟨d, bind_eq_ok_iff.2 ⟨h, hp, hw⟩, hd, hty, fun turns env => ?_⟩
  rw [← hd] at hplaces hcall
  exact eval_of_rewire hplaces hcall turns env

end Closure

/-- The closure that does nothing reads nothing and returns no value. -/
theorem Closure.exists_constantVoid :
    ∃ c, constantVoid = .ok c ∧ c.ty = .void ∧ c.args = [] ∧
      ∀ turns env, c.eval turns env = return .unit :=
  ⟨⟨_, [], rfl⟩, rfl, rfl, rfl, fun _ _ => rfl⟩

/-! ## Operands as closures -/

namespace Expr

/-- The variables that the operand reads and that have values, in the order of its arguments. -/
def reads (e : Expr) : List Var := e.vars.filter (·.ty ≠ .void)

/-- The arguments of a closure are what it reads. -/
theorem reads_closure (c : Closure) : (closure c).reads = c.args := by
  apply List.filter_eq_self.2
  intro v hv
  simpa using c.ty_ne_void_of_mem_args hv

/-- Every operand can stand as a closure, which has its type and reads the same variables. -/
theorem exists_asClosure (e : Expr) :
    ∃ c, e.asClosure = .ok c ∧ c.ty = e.ty ∧ c.args = e.reads := by
  cases e with
  | closure c => exact ⟨c, rfl, rfl, (reads_closure c).symm⟩
  | var v =>
    change ∃ c, v.asClosure = .ok c ∧ c.ty = v.ty ∧ c.args = [v].filter (·.ty ≠ .void)
    rw [Var.asClosure]
    by_cases hv : v.ty = .void
    · rw [if_pos hv]
      exact ⟨⟨_, [], rfl⟩, rfl, hv.symm, by simp [hv]⟩
    · have hparams : Ty.void ∉ [v.ty] := by simpa using Ne.symm hv
      have hid : Handle.identity v.ty = .ok (.prim ⟨[v.ty], v.ty, hparams⟩ _) :=
        bind_eq_ok_iff.2 ⟨_, Signature.ofTypes_of_notMem hparams v.ty, rfl⟩
      rw [if_neg hv, hid]
      exact ⟨⟨_, [v], rfl⟩, Closure.wire_eq_ok_iff.2 ⟨rfl, rfl⟩, rfl, by simp [hv]⟩

/-- The closure of an operand runs like the operand, as far as the rest of a computation can tell
that does not look at the outcome of an operand without a value. -/
theorem eval_bind_of_asClosure {e : Expr} {c : Closure} (hc : e.asClosure = .ok c) (turns : Nat)
    (env : Env) {f : Value → Exec α} (hf : e.ty = .void → ∀ a b, f a = f b) :
    (c.eval turns env >>= f) = (e.eval turns env >>= f) := by
  cases e with
  | closure d =>
    obtain rfl := Except.ok.inj hc
    rfl
  | var v =>
    change v.asClosure = .ok c at hc
    rw [Var.asClosure] at hc
    by_cases hv : v.ty = .void
    · -- the closure reads nothing, and gives the value of a call without a result
      rw [if_pos hv] at hc
      obtain rfl := Except.ok.inj hc
      exact hf hv .unit (env v)
    · have hparams : Ty.void ∉ [v.ty] := by simpa using Ne.symm hv
      have hid : Handle.identity v.ty = .ok (.prim ⟨[v.ty], v.ty, hparams⟩ _) :=
        bind_eq_ok_iff.2 ⟨_, Signature.ofTypes_of_notMem hparams v.ty, rfl⟩
      rw [if_neg hv, hid] at hc
      obtain ⟨hhandle, hargs⟩ := Closure.wire_eq_ok_iff.1 hc
      rw [Closure.eval, hhandle, hargs]
      rfl

end Expr

end Splice

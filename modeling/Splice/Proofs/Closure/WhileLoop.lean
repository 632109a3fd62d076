import Splice.Proofs.Closure.Pieces
import Splice.Proofs.Compose
import Splice.Proofs.Handle.Control
import Splice.Stock

/-!
# Loops with a test

A loop with a test evaluates its initial state once and then goes through turns, which test the
state before they step it or after. The pieces are composed in a scope of the loop's own, read
whatever variables they like and come to run on one list of arguments, but each of them runs as it
would under the environment in which the state variable has the value of the state and all other
variables keep theirs. The main statement says so of both loops, with all results, exceptions and
effects, and that they are refused only for the types of their pieces.
-/

namespace Splice.Closure

open Compose

/-- A closure evaluates an initial state and goes through turns that start from there. -/
structure Repeats (c : Closure) (init : Expr) (state : Var) (pieces : List Closure)
    (turn : Env → Value → Behaviour (Value ⊕ Value)) : Prop where
  /-- What the pieces read of the state is no argument. -/
  args_first : FirstOccurrences (outerReads [init] [state] pieces) c.args
  ty_eq : c.ty = init.ty
  ends_iff : ∀ env w o, c.Ends env w o ↔
    (init.Ends env).Then (fun v w o => ∃ n, Course (turn env) n v w o) w o

/-- A composition makes a loop of an initial state and of what two callbacks give for the loop's
state variable, called one after the other in a scope of their own. Nothing is refused but an
initial state without a value, what a callback refuses itself, and types that do not fit. -/
structure ComposesLoop (loop : Compose Closure) (init : Expr) (first second : Var → Compose Closure)
    (s : Supply) (fits : Ty → Ty → Prop)
    (turn : (Value → Behaviour Value) → (Value → Behaviour Value) →
      Value → Behaviour (Value ⊕ Value)) : Prop where
  accepts_iff : (∃ c s', Gives loop s c s') ↔ init.ty ≠ .void ∧
    ∃ x y s', Gives (do return (← first (s.nextVar init.ty), ← second (s.nextVar init.ty)))
      s.openScope (x, y) s' ∧ fits x.ty y.ty
  repeats : ∀ c s', Gives loop s c s' →
    ∃ x y s₁, Gives (do return (← first (s.nextVar init.ty), ← second (s.nextVar init.ty)))
      s.openScope (x, y) s₁ ∧
    c.Repeats init (s.nextVar init.ty) [x, y] fun env =>
      turn (fun v => x.Ends (env.bind (s.nextVar init.ty) v))
        fun v => y.Ends (env.bind (s.nextVar init.ty) v)

/-! ## One composition for both loops -/

/-- Composes a loop of an initial state and two pieces, which take the state. -/
def testedLoop (what : String) (combine : Handle → Handle → Handle → Except CompositionError Handle)
    (init : Expr) (first second : Var → Compose Closure) : Compose Closure := do
  let (init, state) ← Compose.within do
    let init ← init.asClosure
    return (init, ← freshState init)
  let first ← pieceOver [state] (first state)
  let second ← pieceOver [state] (second state)
  Compose.within do
    let u := Unifier.ofSources [init.args, first.args.drop 1, second.args.drop 1]
    Compose.note s!"{what} loop over {Var.listText u.vars}"
    let handle ← combine (← u.align 0 init).handle (← u.align 1 first).handle
      (← u.align 1 second).handle
    wire handle u.vars

/-- A loop that tests first is a tested loop whose first callback tests. -/
theorem whileLoop_eq_testedLoop (init : Expr) (pred body : Var → Compose Closure) :
    whileLoop init pred body = testedLoop "while" Handle.loopWhile init pred body := rfl

/-- A loop that steps first is a tested loop whose second callback tests. -/
theorem doWhileLoop_eq_testedLoop (init : Expr) (body pred : Var → Compose Closure) :
    doWhileLoop init body pred = testedLoop "do-while" Handle.loopDoWhile init body pred := rfl

/-- A way to combine the handles of a loop: what it demands of their types, and the turns of the
loop that it makes. -/
structure Combines (combine : Handle → Handle → Handle → Except CompositionError Handle)
    (make : Handle → Handle → Handle → Handle) (fits : Ty → Ty → Ty → Prop)
    (turn : (Value → Behaviour Value) → (Value → Behaviour Value) →
      Value → Behaviour (Value ⊕ Value)) : Prop where
  combine_eq_ok_iff : ∀ i x y h, combine i x y = .ok h ↔
    (i.ret ≠ .void ∧ x.params = i.ret :: i.params ∧ y.params = i.ret :: i.params ∧
      fits i.ret x.ret y.ret) ∧ h = make i x y
  sig_eq : ∀ i x y, (make i x y).sig = i.sig
  ends_eq : ∀ i x y args, (make i x y).Ends args = (i.Ends args).Then fun v w o =>
    ∃ n, Course (turn (fun v => x.Ends (v :: args)) fun v => y.Ends (v :: args)) n v w o

theorem combines_loopWhile : Combines Handle.loopWhile
    (fun init pred body => .whileLoop init.sig init pred body)
    (fun state p b => p = .bool ∧ b = state)
    fun test step => WhileTurn (fun v => (test v).Reads Value.expectBool) step := by
  refine ⟨fun init pred body h => ?_, fun _ _ _ => rfl, fun _ _ _ => Handle.ends_whileLoop _ _ _ _⟩
  rw [Handle.loopWhile_eq_ok_iff]
  tauto

theorem combines_loopDoWhile : Combines Handle.loopDoWhile
    (fun init body pred => .doWhileLoop init.sig init body pred)
    (fun state b p => b = state ∧ p = .bool)
    fun step test => UntilTurn (fun v => (test v).Reads Value.expectBool) step := by
  refine ⟨fun init body pred h => ?_, fun _ _ _ => rfl,
    fun _ _ _ => Handle.ends_doWhileLoop _ _ _ _⟩
  rw [Handle.loopDoWhile_eq_ok_iff]
  tauto

section

variable {combine : Handle → Handle → Handle → Except CompositionError Handle}
  {make : Handle → Handle → Handle → Handle} {fits : Ty → Ty → Ty → Prop}
  {turn : (Value → Behaviour Value) → (Value → Behaviour Value) →
    Value → Behaviour (Value ⊕ Value)}
  {init : Expr} {first second : Var → Compose Closure} {s : Supply}

/-- The initial state of a loop as a closure, and the loop's own variable. -/
theorem gives_initialState_iff {i : Closure} {state : Var} {s' : Supply} :
    Gives (do let init ← init.asClosure; return (init, ← freshState init)) s (i, state) s' ↔
      (init.asClosure = .ok i ∧ i.ty ≠ .void) ∧ state = s.nextVar i.ty ∧ s' = s.openScope := by
  simp only [gives_bind_iff, gives_lift_iff, gives_freshState_iff, gives_pure_iff, Prod.mk.injEq]
  constructor
  · rintro ⟨_, _, ⟨hi, rfl⟩, _, _, ⟨hvoid, rfl, rfl⟩, ⟨rfl, rfl⟩, rfl⟩
    exact ⟨⟨hi, hvoid⟩, rfl, rfl⟩
  · rintro ⟨⟨hi, hvoid⟩, rfl, rfl⟩
    exact ⟨_, _, ⟨hi, rfl⟩, _, _, ⟨hvoid, rfl, rfl⟩, ⟨rfl, rfl⟩, rfl⟩

/-- An accepted loop has a state with values, and its callbacks have been accepted. -/
theorem pieces_of_testedLoop {what : String} {c : Closure} {s' : Supply}
    (h : Gives (testedLoop what combine init first second) s c s') : init.ty ≠ .void ∧
      ∃ x y s₁ s₂, Gives (first (s.nextVar init.ty)) s.openScope x s₁ ∧
        Gives (second (s.nextVar init.ty)) s₁ y s₂ := by
  unfold testedLoop at h
  obtain ⟨⟨i, state⟩, _, hinit, h⟩ := gives_bind_iff.1 h
  obtain ⟨⟨hi, hvoid⟩, rfl, rfl⟩ := gives_initialState_iff.1 hinit
  obtain ⟨_, s₁, hfirst, h⟩ := gives_bind_iff.1 h
  obtain ⟨_, s₂, hsecond, -⟩ := gives_bind_iff.1 h
  obtain ⟨x, hx, -⟩ := gives_pieceOver_iff.1 hfirst
  obtain ⟨y, hy, -⟩ := gives_pieceOver_iff.1 hsecond
  rw [(Expr.asClosure_eq_ok hi).1] at hvoid hx hy
  exact ⟨hvoid, x, y, s₁, s₂, hx, hy⟩

/-- Aligned pieces take the parameters that they have to take, so only their types matter. -/
theorem Combines.combine_aligned_iff (hcombines : Combines combine make fits turn)
    {i x y ai ax ay : Closure} {h : Handle} {state : Var} {vars : List Var}
    (hvoid : state.ty ≠ .void) (hty : i.ty = state.ty) (hri : ai.handle.Runs i [] vars)
    (hrx : ax.handle.Runs x [state] vars) (hry : ay.handle.Runs y [state] vars) :
    combine ai.handle ax.handle ay.handle = .ok h ↔
      fits state.ty x.ty y.ty ∧ h = make ai.handle ax.handle ay.handle := by
  rw [hcombines.combine_eq_ok_iff, hri.params_eq, hrx.params_eq, hry.params_eq, hri.ret_eq,
    hrx.ret_eq, hry.ret_eq, hty]
  simp [hvoid]

/-- What the wired loop of aligned pieces is. -/
theorem Combines.repeats_of_wire (hcombines : Combines combine make fits turn)
    {i x y ai ax ay d : Closure} {state : Var} {vars : List Var} (hi : init.asClosure = .ok i)
    (hvoid : init.ty ≠ .void) (hri : ai.handle.Runs i [] vars)
    (hrx : ax.handle.Runs x [state] vars) (hry : ay.handle.Runs y [state] vars)
    (hvars : FirstOccurrences (outerReads [init] [state] [x, y]) vars)
    (hd : wire (make ai.handle ax.handle ay.handle) vars = .ok d) :
    d.Repeats init state [x, y] fun env =>
      turn (fun v => x.Ends (env.bind state v)) fun v => y.Ends (env.bind state v) := by
  obtain ⟨hhandle, hdargs⟩ := wire_eq_ok_iff.1 hd
  refine ⟨hdargs ▸ hvars, ?_, fun env w o => ?_⟩
  · rw [← (Expr.asClosure_eq_ok hi).1, ← hri.ret_eq, ty, hhandle]
    exact congrArg Signature.ret (hcombines.sig_eq _ _ _)
  · -- without the state in front, an aligned piece is called on what the closure reads
    have hinit : ai.handle.Ends (vars.map env) = init.Ends env := by
      rw [← Expr.ends_of_asClosure hi hvoid]
      exact hri.ends_eq env [] rfl
    have hx : ∀ v, ax.handle.Ends (v :: vars.map env) = x.Ends (env.bind state v) :=
      fun v => hrx.ends_eq env [v] rfl
    have hy : ∀ v, ay.handle.Ends (v :: vars.map env) = y.Ends (env.bind state v) :=
      fun v => hry.ends_eq env [v] rfl
    rw [ends_of_wire hd, hcombines.ends_eq, hinit, funext hx, funext hy]

/-- What the callbacks give is aligned, and what becomes of the loop is then up to the combination
of the aligned pieces. -/
theorem exists_aligned_testedLoop (what : String)
    (combine : Handle → Handle → Handle → Except CompositionError Handle) (hvoid : init.ty ≠ .void)
    {x y : Closure} {s₁ s₂ : Supply} (hx : Gives (first (s.nextVar init.ty)) s.openScope x s₁)
    (hy : Gives (second (s.nextVar init.ty)) s₁ y s₂) :
    ∃ (i ai ax ay : Closure) (vars : List Var), init.asClosure = .ok i ∧
      ai.handle.Runs i [] vars ∧ ax.handle.Runs x [s.nextVar init.ty] vars ∧
      ay.handle.Runs y [s.nextVar init.ty] vars ∧
      FirstOccurrences (outerReads [init] [s.nextVar init.ty] [x, y]) vars ∧
      (testedLoop what combine init first second).result s =
        (do wire (← combine ai.handle ax.handle ay.handle) vars) := by
  obtain ⟨i, hi, hty, hargs⟩ := init.exists_asClosure
  have hnodup : [s.nextVar init.ty].Nodup := by simp
  have hlocal : ∀ v ∈ [s.nextVar init.ty], v.ty ≠ .void := List.forall_mem_singleton.2 hvoid
  obtain ⟨dx, hdx, hfx⟩ := x.exists_fronts hlocal
  obtain ⟨dy, hdy, hfy⟩ := y.exists_fronts hlocal
  have hsources : ∀ source ∈ [i.args, dx.args.drop 1, dy.args.drop 1], ∃ c : Closure,
      source ⊆ c.args := by
    simp only [List.forall_mem_cons]
    exact ⟨⟨i, List.Subset.refl _⟩, ⟨dx, List.drop_subset 1 _⟩, ⟨dy, List.drop_subset 1 _⟩, nofun⟩
  obtain ⟨ai, hai, hri⟩ :=
    Unifier.exists_align_piece hsources List.nodup_nil i.fronts_nil 0 rfl (by simp)
  obtain ⟨ax, hax, hrx⟩ := Unifier.exists_align_piece hsources hnodup hfx 1 rfl (by simp)
  obtain ⟨ay, hay, hry⟩ := Unifier.exists_align_piece hsources hnodup hfy 1 rfl (by simp)
  have hsplit : [i.args, dx.args.drop 1, dy.args.drop 1].flatten =
      outerReads [init] [s.nextVar init.ty] [x, y] := by
    simp [outerReads, hargs, hfx.args_eq, hfy.args_eq]
  refine ⟨i, ai, ax, ay, _, hi, hri, hrx, hry, hsplit ▸ firstOccurrences_eraseDups _, ?_⟩
  -- every step up to the combination gives what has been found above
  have hinit := (gives_initialState_iff (s := s)).2 ⟨⟨hi, hty ▸ hvoid⟩, rfl, rfl⟩
  rw [hty] at hinit
  have hpx := gives_pieceOver_iff.2 ⟨x, hx, hdx⟩
  have hpy := gives_pieceOver_iff.2 ⟨y, hy, hdy⟩
  unfold testedLoop
  simp only [within_eq, hinit.result_bind, hpx.result_bind, hpy.result_bind, result_note_bind,
    result_lift_bind, result_lift, hai, hax, hay]
  rfl

/-- What the callbacks give makes a loop, if the types fit, and no other one. -/
theorem Combines.exists_repeats (hcombines : Combines combine make fits turn) (what : String)
    (hvoid : init.ty ≠ .void) {x y : Closure} {s₁ s₂ : Supply}
    (hx : Gives (first (s.nextVar init.ty)) s.openScope x s₁)
    (hy : Gives (second (s.nextVar init.ty)) s₁ y s₂) :
    ∃ d : Closure, (d.Repeats init (s.nextVar init.ty) [x, y] fun env =>
        turn (fun v => x.Ends (env.bind (s.nextVar init.ty) v))
          fun v => y.Ends (env.bind (s.nextVar init.ty) v)) ∧
      ∀ c, (∃ s', Gives (testedLoop what combine init first second) s c s') ↔
        fits init.ty x.ty y.ty ∧ c = d := by
  obtain ⟨i, ai, ax, ay, vars, hi, hri, hrx, hry, hvars, hresult⟩ :=
    exists_aligned_testedLoop what combine hvoid hx hy
  obtain ⟨d, hd⟩ := hri.exists_wire (g := make ai.handle ax.handle ay.handle)
    (congrArg Signature.params (hcombines.sig_eq _ _ _))
  exact ⟨d, hcombines.repeats_of_wire hi hvoid hri hrx hry hvars hd,
    exists_gives_wired_iff hresult (fun h =>
      hcombines.combine_aligned_iff hvoid (Expr.asClosure_eq_ok hi).1 hri hrx hry) hd⟩

/-- A way to combine handles makes a composition of the loop that it makes. -/
theorem Combines.composesLoop (hcombines : Combines combine make fits turn) (what : String)
    (init : Expr) (first second : Var → Compose Closure) (s : Supply) :
    ComposesLoop (testedLoop what combine init first second) init first second s (fits init.ty)
      turn := by
  constructor
  case accepts_iff =>
    constructor
    · rintro ⟨c, s', h⟩
      obtain ⟨hvoid, x, y, s₁, s₂, hx, hy⟩ := pieces_of_testedLoop h
      obtain ⟨d, -, hd⟩ := hcombines.exists_repeats what hvoid hx hy
      exact ⟨hvoid, x, y, s₂, gives_pair_iff.2 ⟨s₁, hx, hy⟩, ((hd c).1 ⟨s', h⟩).1⟩
    · rintro ⟨hvoid, x, y, s₂, hpieces, hfits⟩
      obtain ⟨s₁, hx, hy⟩ := gives_pair_iff.1 hpieces
      obtain ⟨d, -, hd⟩ := hcombines.exists_repeats what hvoid hx hy
      exact ⟨d, (hd d).2 ⟨hfits, rfl⟩⟩
  case repeats =>
    intro c s' h
    obtain ⟨hvoid, x, y, s₁, s₂, hx, hy⟩ := pieces_of_testedLoop h
    obtain ⟨d, hrepeats, hd⟩ := hcombines.exists_repeats what hvoid hx hy
    obtain ⟨-, rfl⟩ := (hd c).1 ⟨s', h⟩
    exact ⟨x, y, s₂, gives_pair_iff.2 ⟨s₁, hx, hy⟩, hrepeats⟩

end

/-! ## The two loops -/

/-- A loop that tests first and one that steps first are composed of what their callbacks give, and
go through turns of these pieces from the initial state on. -/
theorem loops_with_test (init : Expr) (pred body : Var → Compose Closure) (s : Supply) :
    ComposesLoop (whileLoop init pred body) init pred body s
        (fun p b => p = .bool ∧ b = init.ty)
        (fun test step => WhileTurn (fun v => (test v).Reads Value.expectBool) step) ∧
      ComposesLoop (doWhileLoop init body pred) init body pred s
        (fun b p => b = init.ty ∧ p = .bool)
        (fun step test => UntilTurn (fun v => (test v).Reads Value.expectBool) step) := by
  rw [whileLoop_eq_testedLoop, doWhileLoop_eq_testedLoop]
  exact ⟨combines_loopWhile.composesLoop "while" init pred body s,
    combines_loopDoWhile.composesLoop "do-while" init body pred s⟩

/-- Both loops step from nothing to the limit in one turn; only the first one tests before that. -/
theorem loops_with_test_up_to_limit :
    let limit : Var := ⟨7, 0, true, .int⟩
    let handle (f : Stock) (tag : String) (params : List Ty) (ret : Ty) (h : Ty.void ∉ params) :
        Handle := .prim ⟨params, ret, h⟩ (f.runTagged (some tag))
    let init : Closure := ⟨handle (.const (.int 0)) "init" [] .int (by decide), [], rfl⟩
    let pred (v : Var) : Compose Closure :=
      wire (handle .less "test" [.int, .int] .bool (by decide)) [v, limit]
    let body (v : Var) : Compose Closure :=
      wire (handle .add "step" [.int, .int] .int (by decide)) [v, limit]
    ∃ c d, (∃ s', Gives (whileLoop init pred body) {} c s') ∧
      (∃ s', Gives (doWhileLoop init body pred) {} d s') ∧ c.args = [limit] ∧ d.args = [limit] ∧
      c.Ends (fun _ => .int 5) {} (.ok (.int 5)
        { effects := #["init()", "test(0, 5)", "step(0, 5)", "test(5, 5)"] }) ∧
      d.Ends (fun _ => .int 5) {} (.ok (.int 5)
        { effects := #["init()", "step(0, 5)", "test(5, 5)"] }) := by
  intro limit handle init pred body
  obtain ⟨hwhile, hdoWhile⟩ := loops_with_test init pred body {}
  let state : Var := ⟨1, 0, true, .int⟩
  let p : Closure := ⟨handle .less "test" [.int, .int] .bool (by decide), [state, limit], rfl⟩
  let b : Closure := ⟨handle .add "step" [.int, .int] .int (by decide), [state, limit], rfl⟩
  have hpieces : Gives (do return (← pred state, ← body state)) (Supply.openScope {}) (p, b)
      (Supply.openScope {}) := rfl
  have hpieces' : Gives (do return (← body state, ← pred state)) (Supply.openScope {}) (b, p)
      (Supply.openScope {}) := rfl
  obtain ⟨c, s₁, hc⟩ := hwhile.accepts_iff.2 ⟨by decide, p, b, _, hpieces, rfl, rfl⟩
  obtain ⟨d, s₂, hd⟩ := hdoWhile.accepts_iff.2 ⟨by decide, b, p, _, hpieces', rfl, rfl⟩
  obtain ⟨_, _, _, hgiven, hrepeats⟩ := hwhile.repeats c s₁ hc
  obtain ⟨_, _, _, hgiven', hrepeats'⟩ := hdoWhile.repeats d s₂ hd
  obtain ⟨rfl, rfl⟩ := Prod.mk.inj (hpieces.unique hgiven).1
  obtain ⟨rfl, rfl⟩ := Prod.mk.inj (hpieces'.unique hgiven').1
  refine ⟨c, d, ⟨s₁, hc⟩, ⟨s₂, hd⟩, hrepeats.args_first.eq_eraseDups,
    hrepeats'.args_first.eq_eraseDups, ?_, ?_⟩
  · -- one turn steps and the next one stops
    exact (hrepeats.ends_iff _ _ _).2 (.returns ⟨nofun, 0, rfl⟩ ⟨1, .stops
      (.succ .zero (.goesOn (.returns ⟨nofun, 0, rfl⟩ rfl) ⟨nofun, 0, rfl⟩))
      (.stops (.returns ⟨nofun, 0, rfl⟩ rfl))⟩)
  · -- the only turn steps and then stops
    exact (hrepeats'.ends_iff _ _ _).2 (.returns ⟨nofun, 0, rfl⟩ ⟨0, .stops .zero
      (.stops ⟨nofun, 0, rfl⟩ (.returns ⟨nofun, 0, rfl⟩ rfl))⟩)

end Splice.Closure

import Splice.Proofs.Closure.Pieces
import Splice.Proofs.Compose
import Splice.Proofs.Handle.Control
import Splice.Stock

/-!
# Counted loops

A counted loop evaluates its bounds and its initial state, in this order and each once, and folds
its body over the indices from the first bound up to, and not with, the second one. The main
statement says so for all bounds, those at the ends of the integer range among them: no index wraps
around, no index is left out, and the loop ends if every run of the body does that it comes to.
-/

namespace Splice.Closure

open Compose

/-- The step of a counted loop with an index, under the environment in which the index and the state
have their variables. -/
def stepAt (body : Closure) (state index : Var) (env : Env) (i : Int32) (v : Value) :
    Behaviour Value :=
  body.Ends ((env.bind state v).bind index (.int i))

/-- From a world, the bounds of a counted loop come to two integers, and then its initial state to a
value. -/
def Starts (start stop init : Expr) (env : Env) (w : World) (first last : Int32) (v : Value)
    (w' : World) : Prop :=
  ∃ w₁ w₂, start.Ends env w (.ok (.int first) w₁) ∧ stop.Ends env w₁ (.ok (.int last) w₂) ∧
    init.Ends env w₂ (.ok v w')

/-- A closure folds a body over the indices between two bounds. -/
structure CountsUp (c : Closure) (start stop init : Expr) (state index : Var) (body : Closure) :
    Prop where
  /-- What the body reads of the state and of the index is no argument. -/
  args_first : FirstOccurrences (outerReads [start, stop, init] [state, index] [body]) c.args
  ty_eq : c.ty = init.ty
  ends_iff : ∀ env w o, c.Ends env w o ↔
    ((start.Ends env).Reads Value.expectInt).Then (fun first =>
      ((stop.Ends env).Reads Value.expectInt).Then fun last =>
        (init.Ends env).Then
          (Behaviour.fold (body.stepAt state index env) (indexRange first last))) w o
  /-- A range without indices leaves the initial state as it is. -/
  ends_of_empty : ∀ env w first last v w', Starts start stop init env w first last v w' →
    last.toInt ≤ first.toInt → c.Ends env w (.ok v w')
  /-- A body that fails at an index ends the run, after the runs at all indices before. -/
  ends_of_thrown : ∀ env w first last v w₁ i v₁ w₂ e w',
    Starts start stop init env w first last v w₁ → first.toInt ≤ i.toInt → i.toInt < last.toInt →
    Behaviour.fold (body.stepAt state index env) (indexRange first i) v w₁ (.ok v₁ w₂) →
    body.stepAt state index env i v₁ w₂ (.thrown e w') → c.Ends env w (.thrown e w')
  /-- The run ends if the body does at each index that is come to. -/
  exists_ends : ∀ env w first last v w₁, Starts start stop init env w first last v w₁ →
    (∀ i v₁ w₂, first.toInt ≤ i.toInt → i.toInt < last.toInt →
      Behaviour.fold (body.stepAt state index env) (indexRange first i) v w₁ (.ok v₁ w₂) →
      ∃ o, body.stepAt state index env i v₁ w₂ o) →
    ∃ o, c.Ends env w o

variable {start stop init : Expr} {body : Var → Var → Compose Closure} {s : Supply}

/-- The operands of a counted loop as closures, and the loop's own variables. -/
theorem gives_countedOperands_iff {a e i : Closure} {state index : Var} {s' : Supply} :
    Gives (do
      let start ← start.asClosure
      let stop ← stop.asClosure
      expectType .loopStart start .int
      expectType .loopEnd stop .int
      let init ← init.asClosure
      let state ← freshState init
      return (start, stop, init, state, ← Var.fresh .int)) s (a, e, i, state, index) s' ↔
      (start.asClosure = .ok a ∧ a.ty = .int) ∧ (stop.asClosure = .ok e ∧ e.ty = .int) ∧
        (init.asClosure = .ok i ∧ i.ty ≠ .void) ∧ state = s.nextVar i.ty ∧
        index = s.openScope.nextVar .int ∧ s' = s.openScope.openScope := by
  unfold expectType
  simp only [gives_bind_iff, gives_lift_iff, gives_freshState_iff, gives_fresh_iff, gives_pure_iff,
    require_eq_ok_iff, Prod.mk.injEq]
  constructor
  · rintro ⟨_, _, ⟨ha, rfl⟩, _, _, ⟨he, rfl⟩, _, _, ⟨haty, rfl⟩, _, _, ⟨hety, rfl⟩, _, _,
      ⟨hi, rfl⟩, _, _, ⟨hvoid, rfl, rfl⟩, _, _, ⟨-, rfl, rfl⟩, ⟨rfl, rfl, rfl, rfl, rfl⟩, rfl⟩
    exact ⟨⟨ha, haty⟩, ⟨he, hety⟩, ⟨hi, hvoid⟩, rfl, rfl, rfl⟩
  · rintro ⟨⟨ha, haty⟩, ⟨he, hety⟩, ⟨hi, hvoid⟩, rfl, rfl, rfl⟩
    have hint : Ty.int ≠ .void := by decide
    exact ⟨_, _, ⟨ha, rfl⟩, _, _, ⟨he, rfl⟩, (), _, ⟨haty, rfl⟩, (), _, ⟨hety, rfl⟩, _, _,
      ⟨hi, rfl⟩, _, _, ⟨hvoid, rfl, rfl⟩, _, _, ⟨hint, rfl, rfl⟩, ⟨rfl, rfl, rfl, rfl, rfl⟩, rfl⟩

/-- An accepted counted loop has integers for bounds and a state with values, and its callback has
been accepted. -/
theorem piece_of_countedLoop {c : Closure} {s' : Supply}
    (h : Gives (countedLoop start stop init body) s c s') :
    start.ty = .int ∧ stop.ty = .int ∧ init.ty ≠ .void ∧ ∃ b s₁,
      Gives (body (s.nextVar init.ty) (s.openScope.nextVar .int)) s.openScope.openScope b s₁ := by
  unfold countedLoop at h
  obtain ⟨⟨a, e, i, state, index⟩, _, hoperands, h⟩ := gives_bind_iff.1 h
  obtain ⟨⟨ha, haty⟩, ⟨he, hety⟩, ⟨hi, hvoid⟩, rfl, rfl, rfl⟩ :=
    gives_countedOperands_iff.1 hoperands
  obtain ⟨_, s₁, hpiece, -⟩ := gives_bind_iff.1 h
  obtain ⟨b, hb, -⟩ := gives_pieceOver_iff.1 hpiece
  rw [(Expr.asClosure_eq_ok ha).1] at haty
  rw [(Expr.asClosure_eq_ok he).1] at hety
  rw [(Expr.asClosure_eq_ok hi).1] at hvoid hb
  exact ⟨haty, hety, hvoid, b, s₁, hb⟩

/-- Aligned pieces take the parameters that they have to take, so only their types matter. -/
theorem loopCounted_aligned_iff {a e i b aa ae ai ab : Closure} {h : Handle} {state index : Var}
    {vars : List Var} (ha : aa.handle.Runs a [] vars) (he : ae.handle.Runs e [] vars)
    (hi : ai.handle.Runs i [] vars) (hb : ab.handle.Runs b [state, index] vars)
    (haty : a.ty = .int) (hety : e.ty = .int) (hvoid : state.ty ≠ .void) (hity : i.ty = state.ty)
    (hindex : index.ty = .int) :
    Handle.loopCounted aa.handle ae.handle ai.handle ab.handle = .ok h ↔
      b.ty = state.ty ∧
        h = .countedLoop ai.handle.sig aa.handle ae.handle ai.handle ab.handle := by
  rw [Handle.loopCounted_eq_ok_iff, ha.params_eq, he.params_eq, hi.params_eq, hb.params_eq,
    ha.ret_eq, he.ret_eq, hi.ret_eq, hb.ret_eq, haty, hety, hity]
  simp [hvoid, hindex]

/-- The ends of the wired loop of aligned pieces. -/
theorem ends_of_wire_countedLoop {a e i b aa ae ai ab d : Closure} {state index : Var}
    {vars : List Var} (ha : aa.handle.Runs a [] vars) (he : ae.handle.Runs e [] vars)
    (hi : ai.handle.Runs i [] vars) (hb : ab.handle.Runs b [state, index] vars)
    (hd : wire (.countedLoop ai.handle.sig aa.handle ae.handle ai.handle ab.handle) vars = .ok d)
    (env : Env) :
    d.Ends env = ((a.Ends env).Reads Value.expectInt).Then fun first =>
      ((e.Ends env).Reads Value.expectInt).Then fun last =>
        (i.Ends env).Then (Behaviour.fold (b.stepAt state index env) (indexRange first last)) := by
  have hstep : (fun (k : Int32) v => ab.handle.Ends (v :: .int k :: vars.map env)) =
      b.stepAt state index env :=
    funext fun k => funext fun v => hb.ends_eq env [v, .int k] rfl
  rw [ends_of_wire hd, Handle.ends_countedLoop, hstep]
  have haends := ha.ends_eq env [] rfl
  have heends := he.ends_eq env [] rfl
  have hiends := hi.ends_eq env [] rfl
  rw [List.nil_append] at haends heends hiends
  rw [haends, heends, hiends]
  rfl

/-- The ends of a loop from what it starts with on. -/
theorem ends_of_starts {d : Closure} {state index : Var} {b : Closure} {env : Env}
    (hends : d.Ends env = ((start.Ends env).Reads Value.expectInt).Then fun first =>
      ((stop.Ends env).Reads Value.expectInt).Then fun last =>
        (init.Ends env).Then (Behaviour.fold (b.stepAt state index env) (indexRange first last)))
    {w w' : World} {first last : Int32} {v : Value} {o : Outcome Value}
    (hstarts : Starts start stop init env w first last v w')
    (hfold : Behaviour.fold (b.stepAt state index env) (indexRange first last) v w' o) :
    d.Ends env w o := by
  obtain ⟨w₁, w₂, hfirst, hlast, hinit⟩ := hstarts
  rw [hends]
  exact .returns (.returns hfirst rfl) (.returns (.returns hlast rfl) (.returns hinit hfold))

/-- What follows from the ends of a loop over a range. -/
theorem countsUp_of_ends_eq {d b : Closure} {state index : Var}
    (hargs : FirstOccurrences (outerReads [start, stop, init] [state, index] [b]) d.args)
    (hty : d.ty = init.ty)
    (hends : ∀ env, d.Ends env = ((start.Ends env).Reads Value.expectInt).Then fun first =>
      ((stop.Ends env).Reads Value.expectInt).Then fun last =>
        (init.Ends env).Then (Behaviour.fold (b.stepAt state index env) (indexRange first last))) :
    d.CountsUp start stop init state index b := by
  refine ⟨hargs, hty, fun env w o => by rw [hends], ?_, ?_, ?_⟩
  · -- without room between the bounds the initial state is the result
    intro env w first last v w' hstarts hle
    refine ends_of_starts (hends env) hstarts ?_
    rw [indexRange_of_le hle]
    rfl
  · intro env w first last v w₁ i v₁ w₂ e w' hstarts hge hlt hbefore hthrown
    exact ends_of_starts (hends env) hstarts (Behaviour.fold_thrown_iff.2
      ⟨_, i, _, v₁, w₂, indexRange_eq_append_cons hge hlt, hbefore, hthrown⟩)
  · intro env w first last v w₁ hstarts hbody
    have hproper : ∀ i v w, ¬ b.stepAt state index env i v w .unfinished :=
      fun i v w h => h.1 rfl
    obtain ⟨o, hfold⟩ := Behaviour.exists_fold hproper
      -- an index of the range comes behind a part that is a range itself
      fun before i after v₁ w₂ hsplit hbefore => by
        obtain ⟨hge, hlt, rfl⟩ := eq_indexRange_of_append_cons hsplit
        exact hbody i v₁ w₂ hge hlt hbefore
    exact ⟨o, ends_of_starts (hends env) hstarts hfold⟩

/-- The operands and what the callback gives are aligned, and what becomes of the loop is then up to
the combination of the aligned pieces. -/
theorem exists_aligned_countedLoop (hstart : start.ty = .int) (hstop : stop.ty = .int)
    (hvoid : init.ty ≠ .void) {b : Closure} {s₁ : Supply}
    (hb : Gives (body (s.nextVar init.ty) (s.openScope.nextVar .int)) s.openScope.openScope b s₁) :
    ∃ (a e i aa ae ai ab : Closure) (vars : List Var),
      (start.asClosure = .ok a ∧ stop.asClosure = .ok e ∧ init.asClosure = .ok i) ∧
      aa.handle.Runs a [] vars ∧ ae.handle.Runs e [] vars ∧ ai.handle.Runs i [] vars ∧
      ab.handle.Runs b [s.nextVar init.ty, s.openScope.nextVar .int] vars ∧
      FirstOccurrences
        (outerReads [start, stop, init] [s.nextVar init.ty, s.openScope.nextVar .int] [b]) vars ∧
      (countedLoop start stop init body).result s =
        (do wire (← Handle.loopCounted aa.handle ae.handle ai.handle ab.handle) vars) := by
  obtain ⟨a, ha, hasty, haargs⟩ := start.exists_asClosure
  obtain ⟨e, he, hesty, heargs⟩ := stop.exists_asClosure
  obtain ⟨i, hi, hity, hiargs⟩ := init.exists_asClosure
  have hnodup : [s.nextVar init.ty, s.openScope.nextVar .int].Nodup := by
    simp [Supply.nextVar_openScope_ne]
  have hlocals : ∀ v ∈ [s.nextVar init.ty, s.openScope.nextVar .int], v.ty ≠ .void :=
    List.forall_mem_cons.2 ⟨hvoid, List.forall_mem_singleton.2 nofun⟩
  obtain ⟨db, hdb, hfb⟩ := b.exists_fronts hlocals
  have hsources : ∀ source ∈ [a.args, e.args, i.args, db.args.drop 2], ∃ c : Closure,
      source ⊆ c.args := by
    simp only [List.forall_mem_cons]
    exact ⟨⟨a, List.Subset.refl _⟩, ⟨e, List.Subset.refl _⟩, ⟨i, List.Subset.refl _⟩,
      ⟨db, List.drop_subset 2 _⟩, nofun⟩
  obtain ⟨aa, haa, hra⟩ :=
    Unifier.exists_align_piece hsources List.nodup_nil a.fronts_nil 0 rfl (by simp)
  obtain ⟨ae, hae, hre⟩ :=
    Unifier.exists_align_piece hsources List.nodup_nil e.fronts_nil 0 rfl (by simp)
  obtain ⟨ai, hai, hri⟩ :=
    Unifier.exists_align_piece hsources List.nodup_nil i.fronts_nil 0 rfl (by simp)
  obtain ⟨ab, hab, hrb⟩ := Unifier.exists_align_piece hsources hnodup hfb 2 rfl (by simp)
  have hsplit : [a.args, e.args, i.args, db.args.drop 2].flatten =
      outerReads [start, stop, init] [s.nextVar init.ty, s.openScope.nextVar .int] [b] := by
    simp [outerReads, haargs, heargs, hiargs, hfb.args_eq]
  refine ⟨a, e, i, aa, ae, ai, ab, _, ⟨ha, he, hi⟩, hra, hre, hri, hrb,
    hsplit ▸ firstOccurrences_eraseDups _, ?_⟩
  -- every step up to the combination gives what has been found above
  have hoperands := (gives_countedOperands_iff (s := s)).2
    ⟨⟨ha, hasty.trans hstart⟩, ⟨he, hesty.trans hstop⟩, ⟨hi, hity ▸ hvoid⟩, rfl, rfl, rfl⟩
  rw [hity] at hoperands
  have hpiece := gives_pieceOver_iff.2 ⟨b, hb, hdb⟩
  unfold countedLoop
  simp only [within_eq, hoperands.result_bind, hpiece.result_bind, result_note_bind,
    result_lift_bind, result_lift, haa, hae, hai, hab]
  rfl

/-- What the callback gives makes a loop, if its type fits, and no other one. -/
theorem exists_countsUp (hstart : start.ty = .int) (hstop : stop.ty = .int)
    (hvoid : init.ty ≠ .void) {b : Closure} {s₁ : Supply}
    (hb : Gives (body (s.nextVar init.ty) (s.openScope.nextVar .int)) s.openScope.openScope b s₁) :
    ∃ d : Closure,
      d.CountsUp start stop init (s.nextVar init.ty) (s.openScope.nextVar .int) b ∧
      ∀ c, (∃ s', Gives (countedLoop start stop init body) s c s') ↔ b.ty = init.ty ∧ c = d := by
  obtain ⟨a, e, i, aa, ae, ai, ab, vars, ⟨ha, he, hi⟩, hra, hre, hri, hrb, hvars, hresult⟩ :=
    exists_aligned_countedLoop hstart hstop hvoid hb
  obtain ⟨d, hd⟩ := hri.exists_wire
    (g := .countedLoop ai.handle.sig aa.handle ae.handle ai.handle ab.handle) rfl
  have haty : a.ty = .int := (Expr.asClosure_eq_ok ha).1.trans hstart
  have hety : e.ty = .int := (Expr.asClosure_eq_ok he).1.trans hstop
  have hity : i.ty = init.ty := (Expr.asClosure_eq_ok hi).1
  refine ⟨d, countsUp_of_ends_eq ?_ ?_ fun env => ?_, exists_gives_wired_iff hresult (fun h =>
    loopCounted_aligned_iff hra hre hri hrb haty hety hvoid hity rfl) hd⟩
  · rwa [(wire_eq_ok_iff.1 hd).2]
  · rw [← hity, ← hri.ret_eq, ty, (wire_eq_ok_iff.1 hd).1]
    rfl
  · rw [ends_of_wire_countedLoop hra hre hri hrb hd, Expr.ends_of_asClosure ha (by simp [hstart]),
      Expr.ends_of_asClosure he (by simp [hstop]), Expr.ends_of_asClosure hi hvoid]

/-- A counted loop is refused only for the types of its pieces and for what its callback refuses
itself, and is a fold over the integers between its bounds. -/
theorem countedLoop_countsUp (start stop init : Expr) (body : Var → Var → Compose Closure)
    (s : Supply) :
    let state := s.nextVar init.ty
    let index := s.openScope.nextVar .int
    ((∃ c s', Gives (countedLoop start stop init body) s c s') ↔
      start.ty = .int ∧ stop.ty = .int ∧ init.ty ≠ .void ∧
        ∃ b s₁, Gives (body state index) s.openScope.openScope b s₁ ∧ b.ty = init.ty) ∧
    (∀ c s', Gives (countedLoop start stop init body) s c s' →
      ∃ b s₁, Gives (body state index) s.openScope.openScope b s₁ ∧
        c.CountsUp start stop init state index b) ∧
    ∀ first last : Int32,
      (indexRange first last).map Int32.toInt = Int.range first.toInt last.toInt ∧
        (indexRange first last).length = (last.toInt - first.toInt).toNat := by
  intro state index
  refine ⟨⟨?_, ?_⟩, ?_, fun first last =>
    ⟨map_toInt_indexRange first last, length_indexRange first last⟩⟩
  · rintro ⟨c, s', h⟩
    obtain ⟨hstart, hstop, hvoid, b, s₁, hb⟩ := piece_of_countedLoop h
    obtain ⟨d, -, hd⟩ := exists_countsUp hstart hstop hvoid hb
    exact ⟨hstart, hstop, hvoid, b, s₁, hb, ((hd c).1 ⟨s', h⟩).1⟩
  · rintro ⟨hstart, hstop, hvoid, b, s₁, hb, hfits⟩
    obtain ⟨d, -, hd⟩ := exists_countsUp hstart hstop hvoid hb
    exact ⟨d, (hd d).2 ⟨hfits, rfl⟩⟩
  · intro c s' h
    obtain ⟨hstart, hstop, hvoid, b, s₁, hb⟩ := piece_of_countedLoop h
    obtain ⟨d, hcounts, hd⟩ := exists_countsUp hstart hstop hvoid hb
    obtain ⟨-, rfl⟩ := (hd c).1 ⟨s', h⟩
    exact ⟨b, s₁, hb, hcounts⟩

/-- The last index of a loop up to the greatest integer is the one before it. -/
theorem countedLoop_up_to_greatest :
    let handle (f : Stock) (tag : String) (params : List Ty) (h : Ty.void ∉ params) : Handle :=
      .prim ⟨params, .int, h⟩ (f.runTagged (some tag))
    let constant (i : Int32) (tag : String) : Closure :=
      ⟨handle (.const (.int i)) tag [] (by decide), [], rfl⟩
    let body (v i : Var) : Compose Closure :=
      wire (handle (.arg 1) "body" [.int, .int] (by decide)) [v, i]
    ∃ c, (∃ s', Gives (countedLoop (constant 2147483645 "start") (constant 2147483647 "stop")
        (constant 0 "init") body) {} c s') ∧ c.args = [] ∧
      ∀ env, c.Ends env {} (.ok (.int 2147483646)
        { effects := #["start()", "stop()", "init()", "body(0, 2147483645)",
            "body(2147483645, 2147483646)"] }) := by
  intro handle constant body
  obtain ⟨haccepts, hcounts, -⟩ := countedLoop_countsUp (constant 2147483645 "start")
    (constant 2147483647 "stop") (constant 0 "init") body {}
  let b : Closure :=
    ⟨handle (.arg 1) "body" [.int, .int] (by decide), [⟨1, 0, true, .int⟩, ⟨2, 0, true, .int⟩], rfl⟩
  have hbody : Gives (body ⟨1, 0, true, .int⟩ ⟨2, 0, true, .int⟩) (Supply.openScope {}).openScope b
    (Supply.openScope {}).openScope := rfl
  obtain ⟨c, s', hc⟩ := haccepts.2 ⟨rfl, rfl, by decide, b, _, hbody, rfl⟩
  obtain ⟨_, _, hgiven, hc'⟩ := hcounts c s' hc
  obtain ⟨rfl, -⟩ := hbody.unique hgiven
  refine ⟨c, ⟨s', hc⟩, hc'.args_first.eq_eraseDups, fun env => (hc'.ends_iff _ _ _).2 ?_⟩
  -- only two indices are below the end, and the second one is the greatest integer but one
  have hrange : indexRange 2147483645 2147483647 = [2147483645, 2147483646] := by decide
  refine .returns (.returns ⟨nofun, 0, rfl⟩ rfl) (.returns (.returns ⟨nofun, 0, rfl⟩ rfl)
    (.returns ⟨nofun, 0, rfl⟩ ?_))
  rw [hrange]
  exact .returns ⟨nofun, 0, rfl⟩ (.returns ⟨nofun, 0, rfl⟩ rfl)

end Splice.Closure

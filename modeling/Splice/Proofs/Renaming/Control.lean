import Splice.Closure.Recovery
import Splice.Proofs.Renaming.Step

/-!
# Control constructs under renaming

Loops, handlers and cleanups make variables in scopes of their own and hand them to callbacks, which
may compose whatever they like in between. If the callbacks come to the same with variables that
stand for each other, then the constructs do.
-/

namespace Splice

open Renaming (SameVar SameClosure SameExpr)

namespace Closure

/-- Initial states that are the same have state variables that stand for each other. -/
theorem sameRun_freshState {ρ : Renaming} {init init' : Closure} (h : ρ.SameClosure init init') :
    SameRun SameSupply ρ SameVar (freshState init) (freshState init') := by
  unfold freshState
  rw [h.ty_eq]
  exact .bind_namesNone (.require rfl) fun _ => Var.sameRun_fresh _

section Callbacks

variable {σ : Type} [MonadLiftT Compose (ExceptT CompositionError (StateM σ))]

/-- What comes to the same as a composition step does so as a step of another monad, whose states
hold supplies. -/
def Extends (R : Renaming → σ → σ → Prop) : Prop :=
  ∀ (α β : Type) (ρ : Renaming) (P : Renaming → α → β → Prop) (x : Compose α) (x' : Compose β),
    SameRun SameSupply ρ P x x' →
      SameRun R ρ P (Compose.within x : ExceptT CompositionError (StateM σ) α)
        (Compose.within x' : ExceptT CompositionError (StateM σ) β)

/-- Callbacks that come to the same with variables that stand for each other, whenever they are
called. -/
def SameCallback (R : Renaming → σ → σ → Prop) (ρ : Renaming)
    (f f' : List Var → ExceptT CompositionError (StateM σ) Closure) : Prop :=
  ∀ ρ', ρ ≤ ρ' → ∀ vs vs', List.Forall₂ ρ'.SameVar vs vs' →
    SameRun R ρ' SameClosure (f vs) (f' vs')

variable {R : Renaming → σ → σ → Prop} (hR : Extends R) {ρ : Renaming}

include hR

/-- Pieces over locals come to the same, if their callbacks do and their locals stand for each
other. -/
theorem sameRun_pieceOver {locals locals' : List Var}
    {piece piece' : ExceptT CompositionError (StateM σ) Closure}
    (hlocals : List.Forall₂ ρ.SameVar locals locals')
    (hpiece : SameRun R ρ SameClosure piece piece') :
    SameRun R ρ SameClosure (pieceOver locals piece) (pieceOver locals' piece') :=
  hpiece.bind fun _ hρ _ _ hc => hR _ _ _ _ _ _ <| .lift <|
    Matching.withLocals hc (hlocals.imp fun _ _ hv => SameVar.mono hv hρ)

/-! ## Loops -/

variable {source source' start start' stop stop' init init' body body' : Expr}
  {first first' second second' piece piece' :
    List Var → ExceptT CompositionError (StateM σ) Closure}

/-- Two loops of an initial state and of two pieces, which take the state, come to the same, however
the handles of the pieces are combined. -/
theorem sameRun_testedLoop (what : String)
    {combine : Handle → Handle → Handle → Except CompositionError Handle}
    (hcombine : ∀ i x y, NamesNone (combine i x y)) (hinit : ρ.SameExpr init init')
    (hfirst : SameCallback R ρ first first') (hsecond : SameCallback R ρ second second') :
    let loop (init : Expr) (first second : List Var → ExceptT CompositionError (StateM σ) Closure) :
        ExceptT CompositionError (StateM σ) Closure := do
      let (init, state) ← Compose.within do
        let init ← init.asClosure
        return (init, ← freshState init)
      let first ← pieceOver [state] (first [state])
      let second ← pieceOver [state] (second [state])
      Compose.within do
        let u := Unifier.ofSources [init.args, first.args.drop 1, second.args.drop 1]
        Compose.note s!"{what} loop over {Var.listText u.vars}"
        let handle ← combine (← u.align 0 init).handle (← u.align 1 first).handle
          (← u.align 1 second).handle
        wire handle u.vars
    SameRun R ρ SameClosure (loop init first second) (loop init' first' second') := by
  intro loop
  refine .bind (Q := fun ρ r r' => ρ.SameClosure r.1 r'.1 ∧ ρ.SameVar r.2 r'.2) ?_
    -- the state is fresh, so the renaming grows by it before the first callback is called
    fun ρ₁ hρ₁ ⟨init, state⟩ ⟨init', state'⟩ ⟨hinit, hstate⟩ => ?_
  · exact hR _ _ _ _ _ _ <| .bind_lift (Matching.asClosure hinit) fun _ _ hc =>
      .bind (sameRun_freshState hc) fun _ hρ _ _ hv => .pure ⟨SameClosure.mono hc hρ, hv⟩
  refine .bind (sameRun_pieceOver hR (.cons hstate .nil) (hfirst ρ₁ hρ₁ _ _ (.cons hstate .nil)))
    fun ρ₂ hρ₂ x x' hx => ?_
  -- what has been composed so far is carried over to the renaming that the second callback leaves
  have hstate := SameVar.mono hstate hρ₂
  refine .bind (sameRun_pieceOver hR (.cons hstate .nil)
    (hsecond ρ₂ (Renaming.le_trans hρ₁ hρ₂) _ _ (.cons hstate .nil)))
    fun ρ₃ hρ₃ y y' hy => hR _ _ _ _ _ _ <| Compose.sameRun_note_bind ?_
  have hinit := SameClosure.mono hinit (Renaming.le_trans hρ₂ hρ₃)
  have hx := SameClosure.mono hx hρ₃
  have hu := Matching.ofSources (.cons hinit.args (.cons (List.forall₂_drop 1 hx.args)
    (.cons (List.forall₂_drop 1 hy.args) .nil)))
  refine .bind_lift (Matching.align hu 0 hinit) fun i i' hi =>
    .bind_lift (Matching.align hu 1 hx) fun x x' hx =>
      .bind_lift (Matching.align hu 1 hy) fun y y' hy => ?_
  rw [hi.handle_eq, hx.handle_eq, hy.handle_eq]
  exact .bind_namesNone (hcombine _ _ _) fun h => .lift (Matching.wire h hu)

/-- While-loops come to the same. -/
theorem sameRun_whileLoop (hinit : ρ.SameExpr init init') (hfirst : SameCallback R ρ first first')
    (hsecond : SameCallback R ρ second second') :
    SameRun R ρ SameClosure (whileLoop init (fun v => first [v]) fun v => second [v])
      (whileLoop init' (fun v => first' [v]) fun v => second' [v]) :=
  sameRun_testedLoop hR "while" Handle.namesNone_loopWhile hinit hfirst hsecond

/-- Loops that test at the end come to the same. -/
theorem sameRun_doWhileLoop (hinit : ρ.SameExpr init init')
    (hfirst : SameCallback R ρ first first') (hsecond : SameCallback R ρ second second') :
    SameRun R ρ SameClosure (doWhileLoop init (fun v => first [v]) fun v => second [v])
      (doWhileLoop init' (fun v => first' [v]) fun v => second' [v]) :=
  sameRun_testedLoop hR "do-while" Handle.namesNone_loopDoWhile hinit hfirst hsecond

/-- Counted loops come to the same. -/
theorem sameRun_countedLoop (hstart : ρ.SameExpr start start') (hstop : ρ.SameExpr stop stop')
    (hinit : ρ.SameExpr init init') (hpiece : SameCallback R ρ piece piece') :
    SameRun R ρ SameClosure (countedLoop start stop init fun v i => piece [v, i])
      (countedLoop start' stop' init' fun v i => piece' [v, i]) := by
  refine .bind (Q := fun ρ r r' => ρ.SameClosure r.1 r'.1 ∧ ρ.SameClosure r.2.1 r'.2.1 ∧
      ρ.SameClosure r.2.2.1 r'.2.2.1 ∧ ρ.SameVar r.2.2.2.1 r'.2.2.2.1 ∧
      ρ.SameVar r.2.2.2.2 r'.2.2.2.2) ?_
    fun ρ₁ hρ₁ ⟨start, stop, init, state, index⟩ ⟨start', stop', init', state', index'⟩
      ⟨hstart, hstop, hinit, hstate, hindex⟩ => ?_
  · refine hR _ _ _ _ _ _ <| .bind_lift (Matching.asClosure hstart) fun start start' hstart =>
      .bind_lift (Matching.asClosure hstop) fun stop stop' hstop => ?_
    -- both bounds have the types that their matches have, so one cause refuses both loops
    unfold expectType
    rw [hstart.ty_eq, hstop.ty_eq]
    refine .bind_namesNone (.require rfl) fun _ => .bind_namesNone (.require rfl) fun _ =>
      .bind_lift (Matching.asClosure hinit) fun init init' hinit =>
        .bind (sameRun_freshState hinit) fun ρ₁ hρ₁ state state' hstate =>
          .bind (Var.sameRun_fresh _) fun ρ₂ hρ₂ index index' hindex => ?_
    have hρ := Renaming.le_trans hρ₁ hρ₂
    exact .pure ⟨SameClosure.mono hstart hρ, SameClosure.mono hstop hρ, SameClosure.mono hinit hρ,
      SameVar.mono hstate hρ₂, hindex⟩
  have hlocals : List.Forall₂ ρ₁.SameVar [state, index] [state', index'] :=
    .cons hstate (.cons hindex .nil)
  refine .bind (sameRun_pieceOver hR hlocals (hpiece ρ₁ hρ₁ _ _ hlocals))
    fun ρ₂ hρ₂ x x' hx => hR _ _ _ _ _ _ <| Compose.sameRun_note_bind ?_
  have hstart := SameClosure.mono hstart hρ₂
  have hstop := SameClosure.mono hstop hρ₂
  have hinit := SameClosure.mono hinit hρ₂
  have hu := Matching.ofSources (.cons hstart.args (.cons hstop.args (.cons hinit.args
    (.cons (List.forall₂_drop 2 hx.args) .nil))))
  refine .bind_lift (Matching.align hu 0 hstart) fun a a' ha =>
    .bind_lift (Matching.align hu 0 hstop) fun b b' hb =>
      .bind_lift (Matching.align hu 0 hinit) fun i i' hi =>
        .bind_lift (Matching.align hu 2 hx) fun x x' hx => ?_
  rw [ha.handle_eq, hb.handle_eq, hi.handle_eq, hx.handle_eq]
  exact .bind_namesNone (Handle.namesNone_loopCounted _ _ _ _) fun h => .lift (Matching.wire h hu)

/-- Loops over an iterator come to the same. -/
theorem sameRun_iteratorLoop (hsource : ρ.SameExpr source source') (hinit : ρ.SameExpr init init')
    (hpiece : SameCallback R ρ piece piece') :
    SameRun R ρ SameClosure (iteratorLoop source init fun v x => piece [v, x])
      (iteratorLoop source' init' fun v x => piece' [v, x]) := by
  refine .bind (Q := fun ρ r r' => ρ.SameClosure r.1 r'.1 ∧ ρ.SameClosure r.2.1 r'.2.1 ∧
      ρ.SameVar r.2.2.1 r'.2.2.1 ∧ ρ.SameVar r.2.2.2 r'.2.2.2) ?_
    fun ρ₁ hρ₁ ⟨source, init, state, element⟩ ⟨source', init', state', element'⟩
      ⟨hsource, hinit, hstate, helement⟩ => ?_
  · refine hR _ _ _ _ _ _ <|
      .bind_lift (Matching.asClosure hsource) fun source source' hsource => ?_
    rw [hsource.ty_eq]
    -- a source that is no iterator is refused for its type, which its match shares
    split
    · next elem _ =>
      rw [pure_bind, pure_bind]
      refine .bind_lift (Matching.asClosure hinit) fun init init' hinit =>
        .bind (sameRun_freshState hinit) fun ρ₁ hρ₁ state state' hstate =>
          .bind (Var.sameRun_fresh _) fun ρ₂ hρ₂ element element' helement => ?_
      have hρ := Renaming.le_trans hρ₁ hρ₂
      exact .pure ⟨SameClosure.mono hsource hρ, SameClosure.mono hinit hρ,
        SameVar.mono hstate hρ₂, helement⟩
    · exact .throw rfl
  have hlocals : List.Forall₂ ρ₁.SameVar [state, element] [state', element'] :=
    .cons hstate (.cons helement .nil)
  refine .bind (sameRun_pieceOver hR hlocals (hpiece ρ₁ hρ₁ _ _ hlocals))
    fun ρ₂ hρ₂ x x' hx => hR _ _ _ _ _ _ <| Compose.sameRun_note_bind ?_
  have hsource := SameClosure.mono hsource hρ₂
  have hinit := SameClosure.mono hinit hρ₂
  have hu := Matching.ofSources (.cons hsource.args (.cons hinit.args
    (.cons (List.forall₂_drop 2 hx.args) .nil)))
  refine .bind_lift (Matching.align hu 0 hsource) fun a a' ha =>
    .bind_lift (Matching.align hu 0 hinit) fun i i' hi =>
      .bind_lift (Matching.align hu 2 hx) fun x x' hx => ?_
  rw [ha.handle_eq, hi.handle_eq, hx.handle_eq]
  exact .bind_namesNone (Handle.namesNone_loopIterated _ _ _) fun h => .lift (Matching.wire h hu)

/-- Loops over a collection come to the same. -/
theorem sameRun_iterableLoop (hsource : ρ.SameExpr source source') (hinit : ρ.SameExpr init init')
    (hpiece : SameCallback R ρ piece piece') :
    SameRun R ρ SameClosure (iterableLoop source init fun v x => piece [v, x])
      (iterableLoop source' init' fun v x => piece' [v, x]) :=
  .bind (hR _ _ _ _ _ _ (.lift (Matching.iteratorOf hsource))) fun _ hρ _ _ hc =>
    sameRun_iteratorLoop hR hc (hinit.mono hρ) fun ρ' hρ' => hpiece ρ' (Renaming.le_trans hρ hρ')

/-! ## Recovery -/

/-- Handlers come to the same. -/
theorem sameRun_catchException (hbody : ρ.SameExpr body body') (cls : String)
    (hpiece : SameCallback R ρ piece piece') :
    SameRun R ρ SameClosure (catchException body cls fun e => piece [e])
      (catchException body' cls fun e => piece' [e]) := by
  refine .bind (Q := fun ρ r r' => ρ.SameClosure r.1 r'.1 ∧ ρ.SameVar r.2 r'.2) ?_
    fun ρ₁ hρ₁ ⟨body, error⟩ ⟨body', error'⟩ ⟨hbody, herror⟩ => ?_
  · exact hR _ _ _ _ _ _ <| .bind_lift (Matching.asClosure hbody) fun _ _ hc =>
      .bind (Var.sameRun_fresh _) fun _ hρ _ _ hv => .pure ⟨SameClosure.mono hc hρ, hv⟩
  refine .bind (sameRun_pieceOver hR (.cons herror .nil) (hpiece ρ₁ hρ₁ _ _ (.cons herror .nil)))
    fun ρ₂ hρ₂ x x' hx => hR _ _ _ _ _ _ ?_
  have hbody := SameClosure.mono hbody hρ₂
  have hu := Matching.ofSources (.cons hbody.args (.cons (List.forall₂_drop 1 hx.args) .nil))
  unfold expectType
  rw [hbody.ty_eq, hx.ty_eq]
  refine .bind_namesNone (.require rfl) fun _ => Compose.sameRun_note_bind ?_
  refine .bind_lift (Matching.align hu 0 hbody) fun b b' hb =>
    .bind_lift (Matching.align hu 1 hx) fun x x' hx => ?_
  rw [hb.handle_eq, hx.handle_eq]
  exact .bind_namesNone (Handle.namesNone_catchException _ _ _) fun h => .lift (Matching.wire h hu)

/-- Cleanups come to the same. -/
theorem sameRun_tryFinally (hbody : ρ.SameExpr body body')
    (hpiece : SameCallback R ρ piece piece') :
    SameRun R ρ SameClosure (tryFinally body fun e v => piece (e :: v.toList))
      (tryFinally body' fun e v => piece' (e :: v.toList)) := by
  refine .bind (Q := fun ρ r r' => ρ.SameClosure r.1 r'.1 ∧ ρ.SameVar r.2.1 r'.2.1 ∧
      Option.Rel ρ.SameVar r.2.2 r'.2.2) ?_
    fun ρ₁ hρ₁ ⟨body, error, value⟩ ⟨body', error', value'⟩ ⟨hbody, herror, hvalue⟩ => ?_
  · refine hR _ _ _ _ _ _ <| .bind_lift (Matching.asClosure hbody) fun body body' hbody =>
      .bind (Var.sameRun_fresh _) fun ρ₁ hρ₁ error error' herror => ?_
    -- a body with a value gives the callback one more variable, and its match has the same type
    rw [hbody.ty_eq]
    split
    · exact .pure ⟨SameClosure.mono hbody hρ₁, herror, .none⟩
    · refine .bind (Q := fun ρ => Option.Rel ρ.SameVar) ?_ fun ρ₂ hρ₂ value value' hvalue => ?_
      · exact (Var.sameRun_fresh _).map fun _ _ _ hv => .some hv
      · exact .pure ⟨SameClosure.mono hbody (Renaming.le_trans hρ₁ hρ₂), SameVar.mono herror hρ₂,
          hvalue⟩
  have hlocals := List.Forall₂.cons herror (rel_toList hvalue)
  refine .bind (sameRun_pieceOver hR hlocals (hpiece ρ₁ hρ₁ _ _ hlocals))
    fun ρ₂ hρ₂ x x' hx => hR _ _ _ _ _ _ ?_
  have hbody := SameClosure.mono hbody hρ₂
  dsimp only
  rw [← hlocals.length_eq]
  have hu := Matching.ofSources (.cons hbody.args (.cons
    (List.forall₂_drop (error :: value.toList).length hx.args) .nil))
  unfold expectType
  rw [hbody.ty_eq, hx.ty_eq]
  refine .bind_namesNone (.require rfl) fun _ => Compose.sameRun_note_bind ?_
  refine .bind_lift (Matching.align hu 0 hbody) fun b b' hb =>
    .bind_lift (Matching.align hu _ hx) fun x x' hx => ?_
  rw [hb.handle_eq, hx.handle_eq]
  exact .bind_namesNone (Handle.namesNone_tryFinally _ _) fun h => .lift (Matching.wire h hu)

end Callbacks

end Closure

end Splice

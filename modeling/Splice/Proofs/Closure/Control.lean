import Splice.Proofs.Closure.Branching
import Splice.Proofs.Closure.Catching
import Splice.Proofs.Closure.Cleanup
import Splice.Proofs.Closure.CountedLoop
import Splice.Proofs.Closure.IteratorLoop
import Splice.Proofs.Closure.WhileLoop

/-!
# Control constructs

Conditionals, loops, handlers and cleanups are composed alike. The operands are looked at first;
then variables are made in scopes of their own and handed to callbacks, which are called one after
the other; and the pieces that these give are combined with the operands. A `Control` is a call of
one of the constructs. `Control.exists_made` says of all of them what is demanded of operands and
pieces, and what the composed closure reads.
-/

namespace Splice

open Compose (Gives)

/-! ## Callbacks one after the other -/

/-- No steps at all give nothing and leave the supply. -/
theorem Compose.gives_mapM_nil_iff {f : α → Compose β} {s s' : Supply} {bs : List β} :
    Gives ([].mapM f) s bs s' ↔ bs = [] ∧ s' = s := by
  rw [List.mapM_nil, gives_pure_iff]

/-- Steps taken one after the other give a list of what each of them gives. -/
theorem Compose.gives_mapM_cons_iff {f : α → Compose β} {a : α} {l : List α} {s s' : Supply}
    {bs : List β} : Gives ((a :: l).mapM f) s bs s' ↔
      ∃ b s₁ rest, Gives (f a) s b s₁ ∧ Gives (l.mapM f) s₁ rest s' ∧ bs = b :: rest := by
  simp only [List.mapM_cons, gives_bind_iff, gives_pure_iff]
  constructor
  · rintro ⟨b, s₁, hb, rest, _, hrest, rfl, rfl⟩
    exact ⟨b, s₁, rest, hb, hrest, rfl⟩
  · rintro ⟨b, s₁, rest, hb, hrest, rfl⟩
    exact ⟨b, s₁, hb, rest, s', hrest, rfl, rfl⟩

/-! ## Calls of control constructs -/

/-- The type of what an iterator or a list has. -/
def Ty.element : Ty → Ty
  | .iterator elem | .list elem => elem
  | _ => .void

/-- A call of a control construct: its operands, and callbacks for the pieces that see variables of
the construct's own. -/
inductive Control where
  | ifThenElse (cond accept reject : Expr)
  | ifThen (cond accept : Expr)
  | whileLoop (init : Expr) (pred body : Var → Compose Closure)
  | doWhileLoop (init : Expr) (body pred : Var → Compose Closure)
  | countedLoop (start stop init : Expr) (body : Var → Var → Compose Closure)
  | iteratorLoop (source init : Expr) (body : Var → Var → Compose Closure)
  | iterableLoop (list init : Expr) (body : Var → Var → Compose Closure)
  | catchException (body : Expr) (cls : String) (handler : Var → Compose Closure)
  | tryFinally (body : Expr) (cleanup : Var → Option Var → Compose Closure)

namespace Control

/-- The call itself. -/
def compose : Control → Compose Closure
  | ifThenElse cond accept reject => Closure.ifThenElse cond accept reject
  | ifThen cond accept => Closure.ifThen cond accept
  | whileLoop init pred body => Closure.whileLoop init pred body
  | doWhileLoop init body pred => Closure.doWhileLoop init body pred
  | countedLoop start stop init body => Closure.countedLoop start stop init body
  | iteratorLoop source init body => Closure.iteratorLoop source init body
  | iterableLoop list init body => Closure.iterableLoop list init body
  | catchException body cls handler => Closure.catchException body cls handler
  | tryFinally body cleanup => Closure.tryFinally body cleanup

/-- The operands, in the order in which they are given. -/
def operands : Control → List Expr
  | ifThenElse cond accept reject => [cond, accept, reject]
  | ifThen cond accept => [cond, accept]
  | whileLoop init _ _ | doWhileLoop init _ _ => [init]
  | countedLoop start stop init _ => [start, stop, init]
  | iteratorLoop source init _ | iterableLoop source init _ => [source, init]
  | catchException body _ _ | tryFinally body _ => [body]

/-- The type of what the composed closure produces. -/
def ty : Control → Ty
  | ifThenElse _ accept _ => accept.ty
  | ifThen _ _ => .void
  | whileLoop init _ _ | doWhileLoop init _ _ => init.ty
  | countedLoop _ _ init _ => init.ty
  | iteratorLoop _ init _ | iterableLoop _ init _ => init.ty
  | catchException body _ _ | tryFinally body _ => body.ty

/-- The construct's own variables, made from a supply: its state and its index or element, or the
error and the result. -/
def locals (s : Supply) : Control → List Var
  | ifThenElse _ _ _ | ifThen _ _ => []
  | whileLoop init _ _ | doWhileLoop init _ _ => [s.nextVar init.ty]
  | countedLoop _ _ init _ => [s.nextVar init.ty, s.openScope.nextVar .int]
  | iteratorLoop source init _ | iterableLoop source init _ =>
    [s.nextVar init.ty, s.openScope.nextVar source.ty.element]
  | catchException _ _ _ => [s.nextVar .error]
  | tryFinally body _ => s.nextVar .error :: (Closure.resultVar s body.ty).toList

/-- The supply when the variables have been made. -/
def opened (s : Supply) : Control → Supply
  | ifThenElse _ _ _ | ifThen _ _ => s
  | whileLoop _ _ _ | doWhileLoop _ _ _ | catchException _ _ _ => s.openScope
  | countedLoop _ _ _ _ | iteratorLoop _ _ _ | iterableLoop _ _ _ => s.openScope.openScope
  | tryFinally body _ => Closure.openCleanup s body.ty

/-- What the callbacks give for the variables, called one after the other. -/
def pieces (s : Supply) : Control → Compose (List Closure)
  | ifThenElse _ _ _ | ifThen _ _ => pure []
  | whileLoop init pred body => [pred, body].mapM (· (s.nextVar init.ty))
  | doWhileLoop init body pred => [body, pred].mapM (· (s.nextVar init.ty))
  | countedLoop _ _ init body => [body].mapM (· (s.nextVar init.ty) (s.openScope.nextVar .int))
  | iteratorLoop source init body | iterableLoop source init body =>
    [body].mapM (· (s.nextVar init.ty) (s.openScope.nextVar source.ty.element))
  | catchException _ _ handler => [handler].mapM (· (s.nextVar .error))
  | tryFinally body cleanup =>
    [cleanup].mapM (· (s.nextVar .error) (Closure.resultVar s body.ty))

/-- What is demanded of the operands, before any callback is called. -/
def Admits : Control → Prop
  | ifThenElse cond accept reject => cond.ty = .bool ∧ reject.ty = accept.ty
  | ifThen cond _ => cond.ty = .bool
  | whileLoop init _ _ | doWhileLoop init _ _ => init.ty ≠ .void
  | countedLoop start stop init _ => start.ty = .int ∧ stop.ty = .int ∧ init.ty ≠ .void
  | iteratorLoop source init _ =>
    ∃ elem, source.ty = .iterator elem ∧ elem ≠ .void ∧ init.ty ≠ .void
  | iterableLoop list init _ => ∃ elem, list.ty = .list elem ∧ elem ≠ .void ∧ init.ty ≠ .void
  | catchException _ _ _ | tryFinally _ _ => True

/-- The types that the pieces have to produce. -/
def wanted : Control → List Ty
  | ifThenElse _ _ _ | ifThen _ _ => []
  | whileLoop init _ _ => [.bool, init.ty]
  | doWhileLoop init _ _ => [init.ty, .bool]
  | countedLoop _ _ init _ | iteratorLoop _ init _ | iterableLoop _ init _ => [init.ty]
  | catchException body _ _ | tryFinally body _ => [body.ty]

/-! ## What is composed -/

/-- A closure produces what a construct does, and reads what operands and pieces read, apart from
the construct's own variables: each variable once, in the order of operands and pieces. -/
structure Makes (k : Control) (s : Supply) (pieces : List Closure) (c : Closure) : Prop where
  args_first : FirstOccurrences (Closure.outerReads k.operands (k.locals s) pieces) c.args
  ty_eq : c.ty = k.ty

variable {k : Control} {s s₁ s' : Supply} {c : Closure} {ps : List Closure}

/-- A construct without callbacks has no pieces. -/
theorem gives_pieces_nil {s : Supply} : Gives (pure [] : Compose (List Closure)) s [] s :=
  Compose.gives_pure_iff.2 ⟨rfl, rfl⟩

/-- What one callback gives. -/
theorem gives_pieces_one_iff {f : α → Compose Closure} {a : α} :
    Gives ([a].mapM f) s ps s₁ ↔ ∃ p, Gives (f a) s p s₁ ∧ ps = [p] := by
  simp only [Compose.gives_mapM_cons_iff, Compose.gives_mapM_nil_iff]
  constructor
  · rintro ⟨p, _, _, hp, ⟨rfl, rfl⟩, rfl⟩
    exact ⟨p, hp, rfl⟩
  · rintro ⟨p, hp, rfl⟩
    exact ⟨p, s₁, [], hp, ⟨rfl, rfl⟩, rfl⟩

/-- What two callbacks give, one called after the other. -/
theorem gives_pieces_two_iff {f : α → Compose Closure} {a b : α} :
    Gives ([a, b].mapM f) s ps s₁ ↔
      ∃ p q s₂, Gives (f a) s p s₂ ∧ Gives (f b) s₂ q s₁ ∧ ps = [p, q] := by
  rw [Compose.gives_mapM_cons_iff]
  constructor
  · rintro ⟨p, s₂, rest, hp, hrest, rfl⟩
    obtain ⟨q, hq, rfl⟩ := gives_pieces_one_iff.1 hrest
    exact ⟨p, q, s₂, hp, hq, rfl⟩
  · rintro ⟨p, q, s₂, hp, hq, rfl⟩
    exact ⟨p, s₂, [q], hp, gives_pieces_one_iff.2 ⟨q, hq, rfl⟩, rfl⟩

/-- The callbacks of an accepted construct have been accepted, and it has operands that it
admits. -/
theorem pieces_of_gives (h : Gives k.compose s c s') :
    k.Admits ∧ ∃ ps s₁, Gives (k.pieces s) (k.opened s) ps s₁ := by
  cases k with
  | ifThenElse cond accept reject =>
    exact ⟨Closure.types_of_ifThenElse (Compose.gives_lift_iff.1 h).1, [], s, gives_pieces_nil⟩
  | ifThen cond accept =>
    exact ⟨Closure.type_of_ifThen (Compose.gives_lift_iff.1 h).1, [], s, gives_pieces_nil⟩
  | whileLoop init pred body =>
    -- both loops that test are instances of one, with the callbacks in opposite orders
    rw [compose, Closure.whileLoop_eq_testedLoop] at h
    obtain ⟨hvoid, p, b, s₁, s₂, hp, hb⟩ := Closure.pieces_of_testedLoop h
    exact ⟨hvoid, _, s₂, gives_pieces_two_iff.2 ⟨p, b, s₁, hp, hb, rfl⟩⟩
  | doWhileLoop init body pred =>
    rw [compose, Closure.doWhileLoop_eq_testedLoop] at h
    obtain ⟨hvoid, b, p, s₁, s₂, hb, hp⟩ := Closure.pieces_of_testedLoop h
    exact ⟨hvoid, _, s₂, gives_pieces_two_iff.2 ⟨b, p, s₁, hb, hp, rfl⟩⟩
  | countedLoop start stop init body =>
    obtain ⟨hstart, hstop, hvoid, b, s₁, hb⟩ := Closure.piece_of_countedLoop h
    exact ⟨⟨hstart, hstop, hvoid⟩, _, s₁, gives_pieces_one_iff.2 ⟨b, hb, rfl⟩⟩
  | iteratorLoop source init body =>
    obtain ⟨elem, hsource, helem, hvoid, b, s₁, hb⟩ := Closure.piece_of_iteratorLoop h
    refine ⟨⟨elem, hsource, helem, hvoid⟩, _, s₁, gives_pieces_one_iff.2 ⟨b, ?_, rfl⟩⟩
    rw [hsource]
    exact hb
  | iterableLoop list init body =>
    obtain ⟨elem, hlist, helem, hvoid, b, s₁, hb⟩ := Closure.piece_of_iterableLoop h
    refine ⟨⟨elem, hlist, helem, hvoid⟩, _, s₁, gives_pieces_one_iff.2 ⟨b, ?_, rfl⟩⟩
    rw [hlist]
    exact hb
  | catchException body cls handler =>
    obtain ⟨p, s₁, hp⟩ := Closure.piece_of_catchException h
    exact ⟨trivial, _, s₁, gives_pieces_one_iff.2 ⟨p, hp, rfl⟩⟩
  | tryFinally body cleanup =>
    obtain ⟨p, s₁, hp⟩ := Closure.piece_of_tryFinally h
    exact ⟨trivial, _, s₁, gives_pieces_one_iff.2 ⟨p, hp, rfl⟩⟩

/-- If a construct admits its operands, then what its callbacks give makes a closure, if the types
fit, and no other one. -/
theorem exists_made (hadmits : k.Admits) (hps : Gives (k.pieces s) (k.opened s) ps s₁) :
    ∃ d, k.Makes s ps d ∧
      ∀ c, (∃ s', Gives k.compose s c s') ↔ ps.map Closure.ty = k.wanted ∧ c = d := by
  cases k with
  | ifThenElse cond accept reject =>
    obtain ⟨rfl, -⟩ := Compose.gives_pure_iff.1 hps
    obtain ⟨d, hd, hty, hselects⟩ := Closure.exists_ifThenElse hadmits.1 hadmits.2
    refine ⟨d, ⟨?_, hty⟩, fun c => ?_⟩
    · simpa [Closure.outerReads, operands] using hselects.args_first
    · rw [compose, Compose.exists_gives_iff, Compose.result_lift, hd]
      simp [wanted, eq_comm]
  | ifThen cond accept =>
    obtain ⟨rfl, -⟩ := Compose.gives_pure_iff.1 hps
    obtain ⟨d, hd, hty, hselects⟩ : ∃ d, Closure.ifThen cond accept = .ok d ∧ _ :=
      Closure.exists_ifThen hadmits
    refine ⟨d, ⟨?_, hty⟩, fun c => ?_⟩
    · simpa [Closure.outerReads, operands] using hselects.args_first
    · rw [compose, Compose.exists_gives_iff, Compose.result_lift, hd]
      simp [wanted, eq_comm]
  | whileLoop init pred body =>
    obtain ⟨p, b, s₂, hp, hb, rfl⟩ := gives_pieces_two_iff.1 hps
    obtain ⟨d, hrepeats, hd⟩ :=
      Closure.combines_loopWhile.exists_repeats "while" hadmits hp hb
    refine ⟨d, ⟨hrepeats.args_first, hrepeats.ty_eq⟩, fun c => ?_⟩
    rw [compose, Closure.whileLoop_eq_testedLoop, hd]
    simp [wanted]
  | doWhileLoop init body pred =>
    obtain ⟨b, p, s₂, hb, hp, rfl⟩ := gives_pieces_two_iff.1 hps
    obtain ⟨d, hrepeats, hd⟩ :=
      Closure.combines_loopDoWhile.exists_repeats "do-while" hadmits hb hp
    refine ⟨d, ⟨hrepeats.args_first, hrepeats.ty_eq⟩, fun c => ?_⟩
    rw [compose, Closure.doWhileLoop_eq_testedLoop, hd]
    simp [wanted]
  | countedLoop start stop init body =>
    obtain ⟨hstart, hstop, hvoid⟩ := hadmits
    obtain ⟨b, hb, rfl⟩ := gives_pieces_one_iff.1 hps
    obtain ⟨d, hcounts, hd⟩ := Closure.exists_countsUp hstart hstop hvoid hb
    refine ⟨d, ⟨hcounts.args_first, hcounts.ty_eq⟩, fun c => ?_⟩
    rw [compose, hd]
    simp [wanted]
  | iteratorLoop source init body =>
    obtain ⟨elem, hsource, helem, hvoid⟩ := hadmits
    -- the piece of the body was given for the element type that the source shows
    obtain ⟨b, hb, rfl⟩ := gives_pieces_one_iff.1 hps
    have helement : source.ty.element = elem := by rw [hsource, Ty.element]
    rw [helement] at hb
    obtain ⟨d, hfolds, hd⟩ := Closure.exists_foldsIterator hsource helem hvoid hb
    refine ⟨d, ⟨?_, hfolds.ty_eq⟩, fun c => ?_⟩
    · rw [locals, helement]
      exact hfolds.args_first
    · rw [compose, hd]
      simp [wanted]
  | iterableLoop list init body =>
    obtain ⟨elem, hlist, helem, hvoid⟩ := hadmits
    obtain ⟨b, hb, rfl⟩ := gives_pieces_one_iff.1 hps
    have helement : list.ty.element = elem := by rw [hlist, Ty.element]
    rw [helement] at hb
    obtain ⟨d, hfolds, hd⟩ := Closure.exists_foldsList hlist helem hvoid hb
    refine ⟨d, ⟨?_, hfolds.ty_eq⟩, fun c => ?_⟩
    · rw [locals, helement]
      exact hfolds.args_first
    · rw [compose, hd]
      simp [wanted]
  | catchException body cls handler =>
    obtain ⟨p, hp, rfl⟩ := gives_pieces_one_iff.1 hps
    obtain ⟨d, hcatches, hd⟩ := Closure.exists_catches body cls hp
    refine ⟨d, ⟨hcatches.args_first, hcatches.ty_eq⟩, fun c => ?_⟩
    rw [compose, hd]
    simp [wanted]
  | tryFinally body cleanup =>
    obtain ⟨p, hp, rfl⟩ := gives_pieces_one_iff.1 hps
    obtain ⟨d, hfinalizes, hd⟩ := Closure.exists_finalizes hp
    refine ⟨d, ⟨hfinalizes.args_first, hfinalizes.ty_eq⟩, fun c => ?_⟩
    rw [compose, hd]
    simp [wanted]

/-- An accepted construct is what its callbacks' pieces make. -/
theorem makes_of_gives (h : Gives k.compose s c s') :
    k.Admits ∧ ∃ ps s₁, Gives (k.pieces s) (k.opened s) ps s₁ ∧
      ps.map Closure.ty = k.wanted ∧ k.Makes s ps c := by
  obtain ⟨hadmits, ps, s₁, hps⟩ := pieces_of_gives h
  obtain ⟨d, hmakes, hd⟩ := exists_made hadmits hps
  obtain ⟨htypes, rfl⟩ := (hd c).1 ⟨s', h⟩
  exact ⟨hadmits, ps, s₁, hps, htypes, hmakes⟩

/-! ## The scopes of a construct -/

/-- Two scopes have been opened, each for a variable. -/
theorem scope_of_mem_pair (s : Supply) (ty ty' : Ty) :
    ∀ v ∈ [s.nextVar ty, s.openScope.nextVar ty'],
      s.nextScope ≤ v.scope ∧ v.scope < s.openScope.openScope.nextScope :=
  List.forall_mem_cons.2 ⟨⟨Nat.le_refl _, Nat.lt_succ_of_lt (Nat.lt_succ_self _)⟩,
    List.forall_mem_singleton.2 ⟨Nat.le_succ _, Nat.lt_succ_self _⟩⟩

/-- One scope has been opened for one variable. -/
theorem scope_of_mem_single (s : Supply) (ty : Ty) :
    ∀ v ∈ [s.nextVar ty], s.nextScope ≤ v.scope ∧ v.scope < s.openScope.nextScope :=
  List.forall_mem_singleton.2 ⟨Nat.le_refl _, Nat.lt_succ_self _⟩

/-- A construct's own variables are those of the scopes that are opened for them. -/
theorem scope_of_mem_locals :
    ∀ v ∈ k.locals s, s.nextScope ≤ v.scope ∧ v.scope < (k.opened s).nextScope := by
  cases k
  case ifThenElse | ifThen => exact nofun
  case whileLoop | doWhileLoop | catchException => exact scope_of_mem_single s _
  case countedLoop | iteratorLoop | iterableLoop => exact scope_of_mem_pair s _ _
  case tryFinally body cleanup =>
    -- a body without a value opens one scope, for the error alone
    by_cases hty : body.ty = .void
    · rw [locals, Closure.resultVar, opened, Closure.openCleanup, if_pos hty, if_pos hty]
      exact scope_of_mem_single s _
    · rw [locals, Closure.resultVar, opened, Closure.openCleanup, if_neg hty, if_neg hty]
      exact scope_of_mem_pair s _ _

/-- A construct's own variables belong to different scopes. -/
theorem nodup_scopes_locals : ((k.locals s).map Var.scope).Nodup := by
  have hsingle : ∀ ty : Ty, ([s.nextVar ty].map Var.scope).Nodup := fun ty => by simp
  have hpair : ∀ ty ty' : Ty, ([s.nextVar ty, s.openScope.nextVar ty'].map Var.scope).Nodup :=
    fun ty ty' => by simp [Supply.nextVar, Supply.openScope]
  cases k
  case ifThenElse | ifThen => exact List.nodup_nil
  case whileLoop | doWhileLoop | catchException => exact hsingle _
  case countedLoop | iteratorLoop | iterableLoop => exact hpair _ _
  case tryFinally body cleanup =>
    rw [locals, Closure.resultVar]
    split
    · exact hsingle _
    · exact hpair _ _

/-- Scopes are opened for a construct's own variables, and none is given back. -/
theorem nextScope_le_opened : s.nextScope ≤ (k.opened s).nextScope := by
  cases k
  case ifThenElse | ifThen => exact Nat.le_refl _
  case whileLoop | doWhileLoop | catchException => exact Nat.le_succ _
  case countedLoop | iteratorLoop | iterableLoop => exact Nat.le_add_right _ 2
  case tryFinally body cleanup =>
    rw [opened, Closure.openCleanup]
    split
    · exact Nat.le_succ _
    · exact Nat.le_add_right _ 2

/-- Behind a callback, a construct opens no scope if what is left to do opens none. -/
theorem nextScope_of_pieceOver {own : List Var} {piece : Compose Closure} {p : Closure}
    {next : Closure → Compose Closure} (hnext : ∀ d, Compose.OpensNone (next d))
    (hp : Gives piece s p s₁) (h : Gives (Closure.pieceOver own piece >>= next) s c s') :
    s'.nextScope = s₁.nextScope := by
  obtain ⟨d, s₂, hpiece, h⟩ := Compose.gives_bind_iff.1 h
  obtain ⟨p', hp', -⟩ := Closure.gives_pieceOver_iff.1 hpiece
  obtain ⟨-, rfl⟩ := hp.unique hp'
  exact (hnext d).nextScope_eq h

/-- Behind its two callbacks, a loop that tests opens no scope. -/
theorem nextScope_of_testedLoop {what : String}
    {combine : Handle → Handle → Handle → Except CompositionError Handle} {init : Expr}
    {first second : Var → Compose Closure}
    (h : Gives (Closure.testedLoop what combine init first second) s c s')
    (hps : Gives ([first, second].mapM (· (s.nextVar init.ty))) s.openScope ps s₁) :
    s'.nextScope = s₁.nextScope := by
  obtain ⟨x, y, s₂, hx, hy, -⟩ := gives_pieces_two_iff.1 hps
  obtain ⟨⟨i, state⟩, _, hinit, h⟩ := Compose.gives_bind_iff.1 h
  obtain ⟨⟨hi, -⟩, rfl, rfl⟩ := Closure.gives_initialState_iff.1 hinit
  rw [(Expr.asClosure_eq_ok hi).1] at h
  obtain ⟨d, _, hpiece, h⟩ := Compose.gives_bind_iff.1 h
  obtain ⟨x', hx', -⟩ := Closure.gives_pieceOver_iff.1 hpiece
  obtain ⟨-, rfl⟩ := hx.unique hx'
  exact nextScope_of_pieceOver
    (fun _ => .note_bind (.lift_bind fun _ => .lift_bind fun _ => .lift_bind fun _ =>
      .lift_bind fun _ => .lift _)) hy h

/-- Behind its callback, a loop over an iterator opens no scope. -/
theorem nextScope_of_iteratorLoop {source init : Expr} {body : Var → Var → Compose Closure}
    {elem : Ty} (hsource : source.ty = .iterator elem)
    (h : Gives (Closure.iteratorLoop source init body) s c s')
    (hps : Gives ([body].mapM (· (s.nextVar init.ty) (s.openScope.nextVar elem)))
      s.openScope.openScope ps s₁) : s'.nextScope = s₁.nextScope := by
  obtain ⟨b, hb, -⟩ := gives_pieces_one_iff.1 hps
  obtain ⟨⟨src, i, state, element⟩, _, hoperands, h⟩ := Compose.gives_bind_iff.1 h
  obtain ⟨elem', ⟨hsrc, hty, -⟩, ⟨hi, -⟩, rfl, rfl, rfl⟩ :=
    Closure.gives_iteratorOperands_iff.1 hoperands
  rw [(Expr.asClosure_eq_ok hsrc).1, hsource] at hty
  obtain rfl := Ty.iterator.inj hty
  rw [(Expr.asClosure_eq_ok hi).1] at h
  exact nextScope_of_pieceOver
    (fun _ => .note_bind (.lift_bind fun _ => .lift_bind fun _ => .lift_bind fun _ =>
      .lift_bind fun _ => .lift _)) hb h

/-- Once the callbacks have given their pieces, no more scopes are opened. -/
theorem nextScope_of_gives (h : Gives k.compose s c s')
    (hps : Gives (k.pieces s) (k.opened s) ps s₁) : s'.nextScope = s₁.nextScope := by
  cases k with
  | ifThenElse cond accept reject =>
    obtain ⟨-, rfl⟩ := Compose.gives_pure_iff.1 hps
    rw [(Compose.gives_lift_iff.1 h).2]
  | ifThen cond accept =>
    obtain ⟨-, rfl⟩ := Compose.gives_pure_iff.1 hps
    rw [(Compose.gives_lift_iff.1 h).2]
  | whileLoop init pred body =>
    rw [compose, Closure.whileLoop_eq_testedLoop] at h
    exact nextScope_of_testedLoop h hps
  | doWhileLoop init body pred =>
    rw [compose, Closure.doWhileLoop_eq_testedLoop] at h
    exact nextScope_of_testedLoop h hps
  | countedLoop start stop init body =>
    obtain ⟨b, hb, -⟩ := gives_pieces_one_iff.1 hps
    obtain ⟨⟨a, e, i, state, index⟩, _, hoperands, h⟩ := Compose.gives_bind_iff.1 h
    obtain ⟨-, -, ⟨hi, -⟩, rfl, rfl, rfl⟩ := Closure.gives_countedOperands_iff.1 hoperands
    rw [(Expr.asClosure_eq_ok hi).1] at h
    exact nextScope_of_pieceOver
      (fun _ => .note_bind (.lift_bind fun _ => .lift_bind fun _ => .lift_bind fun _ =>
        .lift_bind fun _ => .lift_bind fun _ => .lift _)) hb h
  | iteratorLoop source init body =>
    obtain ⟨⟨elem, hsource, -⟩, -⟩ := pieces_of_gives h
    rw [pieces, hsource] at hps
    exact nextScope_of_iteratorLoop hsource h hps
  | iterableLoop list init body =>
    obtain ⟨src, hsrc, h⟩ := Closure.gives_iterableLoop_iff.1 h
    obtain ⟨elem, hlist⟩ := Closure.list_of_iteratorOf hsrc
    -- the list is turned into its iterator, which opens no scope either
    obtain ⟨src', hsrc', hty, -⟩ := Closure.exists_iteratorOf hlist
    obtain rfl := Except.ok.inj (hsrc.symm.trans hsrc')
    have hsource : (Expr.closure src).ty = .iterator elem := hty
    rw [pieces, hlist] at hps
    exact nextScope_of_iteratorLoop hsource h hps
  | catchException body cls handler =>
    obtain ⟨p, hp, -⟩ := gives_pieces_one_iff.1 hps
    obtain ⟨⟨b, error⟩, _, hoperands, h⟩ := Compose.gives_bind_iff.1 h
    obtain ⟨-, rfl, rfl⟩ := Closure.gives_catchOperands_iff.1 hoperands
    exact nextScope_of_pieceOver
      (fun _ => .lift_bind fun _ => .note_bind (.lift_bind fun _ => .lift_bind fun _ =>
        .lift_bind fun _ => .lift _)) hp h
  | tryFinally body cleanup =>
    obtain ⟨p, hp, -⟩ := gives_pieces_one_iff.1 hps
    obtain ⟨⟨b, error, result⟩, _, hoperands, h⟩ := Compose.gives_bind_iff.1 h
    obtain ⟨hb, rfl, rfl, rfl⟩ := Closure.gives_cleanupOperands_iff.1 hoperands
    rw [opened, ← (Expr.asClosure_eq_ok hb).1] at hp
    exact nextScope_of_pieceOver
      (fun _ => .lift_bind fun _ => .note_bind (.lift_bind fun _ => .lift_bind fun _ =>
        .lift_bind fun _ => .lift _)) hp h

end Control

end Splice

import Splice.Proofs.Closure.Control
import Splice.Proofs.Session.Operation
import Splice.Scope.Build

/-!
# Sessions

A caller composes step by step, with any number of functions, blocks, unifiers and constructs under
way at a time. A `Session` is what the caller has come to have, with a record of the variables that
have been made, and `Leads` relates a session to all that can come of it. A caller uses variables,
closures and unifiers only that it has; nothing else about the order of its calls is assumed.

Closures that are composed for the fields of a schema come of calls like these, made one after the
other.
-/

namespace Splice

open Compose (Gives)

/-- A variable's scope and its place there. -/
def Var.key (v : Var) : Nat × Nat := (v.scope, v.ordinal)

/-- The inputs of a scope and the variables of its statements. -/
def Scope.vars (b : Scope) : List Var := b.inputs ++ b.statements.map Statement.var

/-- What a caller has come to have. -/
structure Session where
  supply : Supply
  /-- The variables that have been made, one for each call that has made one. -/
  made : List Var := []
  closures : List Closure := []
  unifiers : List Unifier := []
  /-- The functions and blocks that are under construction. -/
  scopes : List Scope := []

namespace Session

/-- Whether the caller can use an operand. -/
def Has (s : Session) : Expr → Prop
  | .var v => v ∈ s.made
  | .closure c => c ∈ s.closures

/-- The session that the callbacks of a construct find, with the construct's own variables. -/
def enter (s : Session) (k : Control) : Session :=
  { s with supply := k.opened s.supply, made := s.made ++ k.locals s.supply }

/-- What calls can make of a session. -/
inductive Leads : Session → Session → Prop
  | refl {s : Session} : Leads s s
  /-- Calls that make no variable and no closure may open scopes all the same: the identity of a
  scope can be asked for, handles are composed in scopes of their own, and refused calls leave
  scopes behind. -/
  | passed {s t : Session} {σ : Supply} (ht : Leads s t)
      (hnext : t.supply.nextScope ≤ σ.nextScope) : Leads s { t with supply := σ }
  | operated {s t : Session} {c : Closure} (ht : Leads s t) (op : Operation)
      (hargs : ∀ e ∈ op.operands, t.Has e) (hc : op.run = .ok c) :
      Leads s { t with closures := t.closures ++ [c] }
  | unified {s t : Session} (ht : Leads s t) (sources : List (List Var))
      (hsources : ∀ source ∈ sources, ∀ v ∈ source, v ∈ t.made) :
      Leads s { t with unifiers := t.unifiers ++ [Unifier.ofSources sources] }
  | aligned {s t : Session} {u : Unifier} {keep : Nat} {c d : Closure} (ht : Leads s t)
      (hu : u ∈ t.unifiers) (hc : c ∈ t.closures) (hd : u.align keep c = .ok d) :
      Leads s { t with closures := t.closures ++ [d] }
  /-- A construct's own variables are there as soon as its callbacks are called, whatever becomes of
  the construct. -/
  | entered {s t : Session} (ht : Leads s t) (k : Control) (hargs : ∀ e ∈ k.operands, t.Has e)
      (hadmits : k.Admits) : Leads s (t.enter k)
  /-- The callbacks of a construct may make any calls, and give closures that the caller has by
  then. -/
  | controlled {s t u : Session} {ps : List Closure} {c : Closure} {σ : Supply} (ht : Leads s t)
      (k : Control) (hargs : ∀ e ∈ k.operands, t.Has e) (hu : Leads (t.enter k) u)
      (hps : Gives (k.pieces t.supply) (k.opened t.supply) ps u.supply)
      (hhas : ∀ p ∈ ps, p ∈ u.closures) (hc : Gives k.compose t.supply c σ) :
      Leads s { u with supply := σ, closures := u.closures ++ [c] }
  | openedFunction {s t : Session} {b : Scope} {σ : Supply} (ht : Leads s t)
      (hb : Gives Scope.newFunction t.supply b σ) :
      Leads s { t with supply := σ, scopes := b :: t.scopes }
  | openedBlock {s t : Session} {b : Scope} {σ : Supply} (ht : Leads s t)
      (hb : Gives Scope.newBlock t.supply b σ) :
      Leads s { t with supply := σ, scopes := b :: t.scopes }
  | declared {s t : Session} {pre post : List Scope} {b b' : Scope} {ty : Ty} {v : Var}
      (ht : Leads s t) (hscopes : t.scopes = pre ++ b :: post) (hfunction : b.capturing = false)
      (hv : b.addParam ty = (.ok v, b')) :
      Leads s { t with made := t.made ++ [v], scopes := pre ++ b' :: post }
  | refused {s t : Session} {pre post : List Scope} {b b' : Scope} {ty : Ty}
      {cause : CompositionError} (ht : Leads s t) (hscopes : t.scopes = pre ++ b :: post)
      (hfunction : b.capturing = false) (hv : b.addParam ty = (.error cause, b')) :
      Leads s { t with scopes := pre ++ b' :: post }
  | assigned {s t : Session} {pre post : List Scope} {b b' : Scope} {e : Expr} {v : Var}
      (ht : Leads s t) (hscopes : t.scopes = pre ++ b :: post) (he : t.Has e)
      (hv : b.assign e = .ok (v, b')) :
      Leads s { t with made := t.made ++ [v], scopes := pre ++ b' :: post }
  /-- What is built is no longer under construction. The handle of a function has no variables. -/
  | builtFunction {s t : Session} {pre post : List Scope} {b : Scope} {ret : Expr} {h : Handle}
      {σ : Supply} (ht : Leads s t) (hscopes : t.scopes = pre ++ b :: post) (hret : t.Has ret)
      (hh : Gives (b.buildFunction ret) t.supply h σ) :
      Leads s { t with supply := σ, scopes := pre ++ post }
  | builtBlock {s t : Session} {pre post : List Scope} {b : Scope} {ret : Expr} {c : Closure}
      {σ : Supply} (ht : Leads s t) (hscopes : t.scopes = pre ++ b :: post) (hret : t.Has ret)
      (hc : Gives (b.buildBlock ret) t.supply c σ) :
      Leads s { t with supply := σ, closures := t.closures ++ [c], scopes := pre ++ post }
  | dropped {s t : Session} {pre post : List Scope} {b : Scope} (ht : Leads s t)
      (hscopes : t.scopes = pre ++ b :: post) : Leads s { t with scopes := pre ++ post }

/-- What has been made stays. -/
theorem Leads.made_subset {s t : Session} (h : Leads s t) : s.made ⊆ t.made := by
  induction h with
  | refl => exact List.Subset.refl _
  | passed _ _ ih | operated _ _ _ _ ih | unified _ _ _ ih | aligned _ _ _ _ ih
  | openedFunction _ _ ih | openedBlock _ _ ih | refused _ _ _ _ ih | builtFunction _ _ _ _ ih
  | builtBlock _ _ _ _ ih | dropped _ _ ih => exact ih
  | entered _ _ _ _ ih | declared _ _ _ _ ih | assigned _ _ _ _ ih =>
    exact fun v hv => List.mem_append_left _ (ih hv)
  | controlled _ _ _ _ _ _ _ ih ihu => exact fun v hv => ihu (List.mem_append_left _ (ih hv))

end Session

end Splice

import Splice.Fieldwise.Columns
import Splice.Proofs.Renaming.Basic

/-!
# What a caller has

A caller of the library has variables, closures, handles, unifiers, schemas and scopes under
construction. An `Item` is one of these; items are the same under a renaming if nothing but the
identities of scopes tells them apart, and of handles and schemas nothing does.
-/

namespace Splice

open Renaming (SameVar SameClosure SameExpr SameScope)

namespace Script

/-- What a caller gets from a call. -/
inductive Item where
  | var (v : Var)
  | closure (c : Closure)
  | handle (h : Handle)
  | unifier (u : Unifier)
  | schema (s : Schema)
  /-- A function or a block under construction. -/
  | scope (s : Scope)
  | access (a : ColumnAccess)
  /-- The identity of a scope that is opened for nothing else. -/
  | scopeId (id : Nat)

namespace Item

/-- The variable that an item is. -/
def var? : Item → Option Var
  | var v => some v
  | _ => none

/-- The closure that an item is. -/
def closure? : Item → Option Closure
  | closure c => some c
  | _ => none

/-- A variable or a closure, as an operand. -/
def expr? : Item → Option Expr
  | var v => some (.var v)
  | closure c => some (.closure c)
  | _ => none

/-- The handle that an item is. -/
def handle? : Item → Option Handle
  | handle h => some h
  | _ => none

/-- The unifier that an item is. -/
def unifier? : Item → Option Unifier
  | unifier u => some u
  | _ => none

/-- The schema that an item is. -/
def schema? : Item → Option Schema
  | schema s => some s
  | _ => none

/-- The scope under construction that an item is. -/
def scope? : Item → Option Scope
  | scope s => some s
  | _ => none

/-- The variables that can be read off an item. -/
def vars : Item → List Var
  | var v => [v]
  | closure c => c.args
  | unifier u => u.vars
  | scope s => s.inputs
  | _ => []

/-- The item with the identities of all scopes renamed. Handles and schemas have none. -/
def rename (f : Nat → Nat) : Item → Item
  | var v => var (v.rename f)
  | closure c => closure (c.rename f)
  | unifier u => unifier (u.rename f)
  | scope s => scope (s.rename f)
  | scopeId id => scopeId (f id)
  | item => item

end Item

/-- The same item but for renamed scopes. -/
inductive SameItem (ρ : Renaming) : Item → Item → Prop
  | var {v v' : Var} (h : ρ.SameVar v v') : SameItem ρ (.var v) (.var v')
  | closure {c c' : Closure} (h : ρ.SameClosure c c') : SameItem ρ (.closure c) (.closure c')
  | handle (h : Handle) : SameItem ρ (.handle h) (.handle h)
  | unifier {u u' : Unifier} (h : ρ.matching.SameUnifier u u') :
    SameItem ρ (.unifier u) (.unifier u')
  | schema (s : Schema) : SameItem ρ (.schema s) (.schema s)
  | scope {s s' : Scope} (h : ρ.SameScope s s') : SameItem ρ (.scope s) (.scope s')
  | access (a : ColumnAccess) : SameItem ρ (.access a) (.access a)
  | scopeId {a b : Nat} (h : ρ.scopes a b) : SameItem ρ (.scopeId a) (.scopeId b)

namespace SameItem

variable {ρ ρ' : Renaming} {i i' : Item}

/-- The same item under a renaming stays the same under one that extends it. -/
theorem mono (h : SameItem ρ i i') (hρ : ρ ≤ ρ') : SameItem ρ' i i' := by
  cases h with
  | var h => exact .var (SameVar.mono h hρ)
  | closure h => exact .closure (SameClosure.mono h hρ)
  | handle h => exact .handle h
  | unifier h => exact .unifier (h.imp fun _ _ hv => SameVar.mono hv hρ)
  | schema s => exact .schema s
  | scope h => exact .scope (h.mono hρ)
  | access a => exact .access a
  | scopeId h => exact .scopeId (hρ _ _ h)

/-- Where a map gives what the renaming gives, the same item is the renamed one. -/
theorem eq_rename {f : Nat → Nat} (hf : ∀ a b, ρ.scopes a b → f a = b) (h : SameItem ρ i i') :
    i' = i.rename f := by
  cases h with
  | var h => exact congrArg Item.var (Renaming.eq_rename_of_sameVar hf h)
  | closure h => exact congrArg Item.closure (Renaming.eq_rename_of_sameClosure hf h)
  | unifier h => exact congrArg Item.unifier (Renaming.eq_rename_of_sameUnifier hf h)
  | scope h => exact congrArg Item.scope (Renaming.eq_rename_of_sameScope hf h)
  | scopeId h => exact congrArg Item.scopeId (hf _ _ h).symm
  | handle | schema | access => rfl

/-- Items that stand for each other are the same variable, or neither is a variable. -/
theorem var? (h : SameItem ρ i i') : Option.Rel ρ.SameVar i.var? i'.var? := by
  cases h with
  | var h => exact .some h
  | _ => exact .none

/-- Items that stand for each other are the same closure, or neither is a closure. -/
theorem closure? (h : SameItem ρ i i') : Option.Rel ρ.SameClosure i.closure? i'.closure? := by
  cases h with
  | closure h => exact .some h
  | _ => exact .none

/-- Items that stand for each other are the same operand, or neither is one. -/
theorem expr? (h : SameItem ρ i i') : Option.Rel ρ.SameExpr i.expr? i'.expr? := by
  cases h with
  | var h | closure h => exact .some h
  | _ => exact .none

/-- Items that stand for each other are the same unifier, or neither is one. -/
theorem unifier? (h : SameItem ρ i i') :
    Option.Rel ρ.matching.SameUnifier i.unifier? i'.unifier? := by
  cases h with
  | unifier h => exact .some h
  | _ => exact .none

/-- Items that stand for each other are the same scope under construction, or neither is one. -/
theorem scope? (h : SameItem ρ i i') : Option.Rel ρ.SameScope i.scope? i'.scope? := by
  cases h with
  | scope h => exact .some h
  | _ => exact .none

/-- A handle names no scope, so the same item is the very handle. -/
theorem handle?_eq (h : SameItem ρ i i') : i'.handle? = i.handle? := by cases h <;> rfl

/-- A schema names no scope, so the same item is the very schema. -/
theorem schema?_eq (h : SameItem ρ i i') : i'.schema? = i.schema? := by cases h <;> rfl

/-- The variables read off items that stand for each other stand for each other. -/
theorem vars (h : SameItem ρ i i') : List.Forall₂ ρ.SameVar i.vars i'.vars := by
  cases h with
  | var h => exact .cons h .nil
  | closure h => exact h.args
  | unifier h => exact h
  | scope h => exact h.inputs
  | handle | schema | access | scopeId => exact .nil

end SameItem

/-! ## Lists of items -/

section Lists

variable {ρ : Renaming} {items items' : List Item} {sort : Item → Option α}
  (hsort : ∀ i i', SameItem ρ i i' → sort i' = sort i)

include hsort

/-- Where single items look the same, the first one that is found does. -/
theorem findSome?_eq (h : List.Forall₂ (SameItem ρ) items items') :
    items'.findSome? sort = items.findSome? sort := by
  induction h with
  | nil => rfl
  | cons hi _ ih => rw [List.findSome?_cons, List.findSome?_cons, hsort _ _ hi, ih]

/-- Where single items look the same, so do all of those that are found. -/
theorem filterMap_eq (h : List.Forall₂ (SameItem ρ) items items') :
    items'.filterMap sort = items.filterMap sort := by
  induction h with
  | nil => rfl
  | cons hi _ ih => rw [List.filterMap_cons, List.filterMap_cons, hsort _ _ hi, ih]

end Lists

end Script

end Splice

import Splice.Proofs.Renaming.Control
import Splice.Proofs.Renaming.Fieldwise
import Splice.Proofs.Renaming.Item

/-!
# Calls of a caller

A caller makes calls with what it has got from earlier ones: variables, closures, handles, unifiers,
schemas and scopes under construction. A call is told apart by what it is given besides, and says of
each list of such items what becomes of it. Given items that are the same under a renaming, it comes
to the same, so nothing that a caller can ask for depends on the identities of scopes.
-/

namespace Splice

open Renaming (SameVar SameClosure SameExpr SameScope)

namespace Script

/-! ## Calls by the number of operands -/

section Operands

variable {α β : Type}

/-- What is done with one item, if there is one and no other. -/
def withOne (f : α → β) : List α → Option β
  | [a] => some (f a)
  | _ => none

/-- What is done with two items, if there are as many. -/
def withTwo (f : α → α → β) : List α → Option β
  | [a, b] => some (f a b)
  | _ => none

/-- What is done with three items, if there are as many. -/
def withThree (f : α → α → α → β) : List α → Option β
  | [a, b, c] => some (f a b c)
  | _ => none

/-- What is done with four items, if there are as many. -/
def withFour (f : α → α → α → α → β) : List α → Option β
  | [a, b, c, d] => some (f a b c d)
  | _ => none

variable {α' β' : Type} {R : α → α' → Prop} {T : β → β' → Prop} {l : List α} {l' : List α'}

/-- Related lists have one element each, related to the other, or both have another number of them.
-/
theorem rel_withOne {f : α → β} {f' : α' → β'} (h : List.Forall₂ R l l')
    (hf : ∀ a a', R a a' → T (f a) (f' a')) : Option.Rel T (withOne f l) (withOne f' l') := by
  rcases h with _ | ⟨ha, _ | ⟨_, _⟩⟩
  · exact .none
  · exact .some (hf _ _ ha)
  · exact .none

/-- Related lists have two elements each, related in their order, or both have another number of
them. -/
theorem rel_withTwo {f : α → α → β} {f' : α' → α' → β'} (h : List.Forall₂ R l l')
    (hf : ∀ a a', R a a' → ∀ b b', R b b' → T (f a b) (f' a' b')) :
    Option.Rel T (withTwo f l) (withTwo f' l') := by
  rcases h with _ | ⟨ha, _ | ⟨hb, _ | ⟨_, _⟩⟩⟩
  · exact .none
  · exact .none
  · exact .some (hf _ _ ha _ _ hb)
  · exact .none

/-- Related lists have three elements each, or both have another number of them. -/
theorem rel_withThree {f : α → α → α → β} {f' : α' → α' → α' → β'} (h : List.Forall₂ R l l')
    (hf : ∀ a a', R a a' → ∀ b b', R b b' → ∀ c c', R c c' → T (f a b c) (f' a' b' c')) :
    Option.Rel T (withThree f l) (withThree f' l') := by
  rcases h with _ | ⟨ha, _ | ⟨hb, _ | ⟨hc, _ | ⟨_, _⟩⟩⟩⟩
  · exact .none
  · exact .none
  · exact .none
  · exact .some (hf _ _ ha _ _ hb _ _ hc)
  · exact .none

/-- Related lists have four elements each, or both have another number of them. -/
theorem rel_withFour {f : α → α → α → α → β} {f' : α' → α' → α' → α' → β'}
    (h : List.Forall₂ R l l') (hf : ∀ a a', R a a' → ∀ b b', R b b' → ∀ c c', R c c' →
      ∀ d d', R d d' → T (f a b c d) (f' a' b' c' d')) :
    Option.Rel T (withFour f l) (withFour f' l') := by
  rcases h with _ | ⟨ha, _ | ⟨hb, _ | ⟨hc, _ | ⟨hd, _ | ⟨_, _⟩⟩⟩⟩⟩
  · exact .none
  · exact .none
  · exact .none
  · exact .none
  · exact .some (hf _ _ ha _ _ hb _ _ hc _ _ hd)
  · exact .none

/-! What two callers have in common is related to itself. -/

variable {T : β → β → Prop}

/-- One list is related to itself, so the element is the same for both. -/
theorem rel_withOne_self {f : α → β} (hf : ∀ a, T (f a) (f a)) :
    Option.Rel T (withOne f l) (withOne f l) :=
  rel_withOne (R := Eq) (List.forall₂_refl l) fun a _ ha => ha ▸ hf a

/-- One list is related to itself, so the elements are the same for both. -/
theorem rel_withTwo_self {f : α → α → β} (hf : ∀ a b, T (f a b) (f a b)) :
    Option.Rel T (withTwo f l) (withTwo f l) :=
  rel_withTwo (R := Eq) (List.forall₂_refl l) fun a _ ha b _ hb => ha ▸ hb ▸ hf a b

/-- One list is related to itself, so the elements are the same for both. -/
theorem rel_withThree_self {f : α → α → α → β} (hf : ∀ a b c, T (f a b c) (f a b c)) :
    Option.Rel T (withThree f l) (withThree f l) :=
  rel_withThree (R := Eq) (List.forall₂_refl l) fun a _ ha b _ hb c _ hc => ha ▸ hb ▸ hc ▸ hf a b c

/-- One list is related to itself, so the elements are the same for both. -/
theorem rel_withFour_self {f : α → α → α → α → β} (hf : ∀ a b c d, T (f a b c d) (f a b c d)) :
    Option.Rel T (withFour f l) (withFour f l) :=
  rel_withFour (R := Eq) (List.forall₂_refl l) fun a _ ha b _ hb c _ hc d _ hd =>
    ha ▸ hb ▸ hc ▸ hd ▸ hf a b c d

/-- One item, if it is there, is the same for both. -/
theorem rel_map_self {x : Option α} {f f' : α → β} (hf : ∀ a, T (f a) (f' a)) :
    Option.Rel T (x.map f) (x.map f') := by
  cases x with
  | none => exact .none
  | some a => exact .some (hf a)

/-- One item, if it is there, is the same for both, and what follows may have items missing. -/
theorem rel_bind_self {x : Option α} {f f' : α → Option β} (hf : ∀ a, Option.Rel T (f a) (f' a)) :
    Option.Rel T (x.bind f) (x.bind f') := by
  cases x with
  | none => exact .none
  | some a => exact hf a

end Operands

/-! ## Calls that give handles -/

/-- A call that is given handles only. -/
inductive HandleCall where
  | native (params : List Ty) (ret : Ty) (run : List Value → Exec Value)
  | constant (ty : Ty) (v : Value)
  | identity (ty : Ty)
  | empty (params : List Ty)
  | project (params : List Ty) (index : Nat)
  | throwing (ret : Ty)
  | rechecked
  | permute (params : List Ty) (reorder : List Nat)
  | collect (pos : Nat)
  | dropArgs (pos : Nat) (types : List Ty)
  | filterReturn
  | convert (ty : Ty)
  | guardWithTest
  | loopWhile
  | loopDoWhile
  | loopCounted
  | loopIterated
  | catchException (cls : String)
  | tryFinally

/-- What the call gives, if it is given as many handles as it takes. -/
def HandleCall.run (handles : List Handle) : HandleCall → Option (Except CompositionError Handle)
  | native params ret run => some (Handle.native params ret run)
  | constant ty v => some (Handle.constant ty v)
  | identity ty => some (Handle.identity ty)
  | empty params => some (Handle.empty params)
  | project params index => some (Handle.project params index)
  | throwing ret => some (Handle.throwing ret)
  | rechecked => withOne (fun h => .ok h.rechecked) handles
  | permute params reorder => withOne (Handle.permute · params reorder) handles
  | collect pos => withTwo (Handle.collect · pos) handles
  | dropArgs pos types => withOne (Handle.dropArgs · pos types) handles
  | filterReturn => withTwo Handle.filterReturn handles
  | convert ty => withOne (Handle.convert · ty) handles
  | guardWithTest => withThree Handle.guardWithTest handles
  | loopWhile => withThree Handle.loopWhile handles
  | loopDoWhile => withThree Handle.loopDoWhile handles
  | loopCounted => withFour Handle.loopCounted handles
  | loopIterated => withThree Handle.loopIterated handles
  | catchException cls => withTwo (Handle.catchException · cls) handles
  | tryFinally => withTwo Handle.tryFinally handles

/-- Handles have no variables, so one call of two callers with the same handles is one call. -/
theorem HandleCall.same_run {M : Matching} (call : HandleCall) (handles : List Handle) :
    Option.Rel (M.SameResult Eq) (call.run handles) (call.run handles) := by
  -- whatever is refused is refused for a cause without variables
  have hsame {x : Except CompositionError Handle} (hx : NamesNone x) : M.SameResult Eq x x :=
    .of_namesNone hx fun _ _ => rfl
  cases call with
  | native => exact .some (hsame (Handle.namesNone_native _ _ _))
  | constant => exact .some (hsame (Handle.namesNone_constant _ _))
  | identity => exact .some (hsame (Handle.namesNone_identity _))
  | empty => exact .some (hsame (Handle.namesNone_native _ _ _))
  | project => exact .some (hsame (Handle.namesNone_project _ _))
  | throwing => exact .some (hsame (Handle.namesNone_throwing _))
  | rechecked => exact rel_withOne_self fun _ => .ok rfl
  | permute => exact rel_withOne_self fun _ => hsame (Handle.namesNone_permute _ _ _)
  | collect => exact rel_withTwo_self fun _ _ => hsame (Handle.namesNone_collect _ _ _)
  | dropArgs => exact rel_withOne_self fun _ => hsame (Handle.namesNone_dropArgs _ _ _)
  | filterReturn => exact rel_withTwo_self fun _ _ => hsame (Handle.namesNone_filterReturn _ _)
  | convert => exact rel_withOne_self fun _ => hsame (Handle.namesNone_convert _ _)
  | guardWithTest =>
    exact rel_withThree_self fun _ _ _ => hsame (Handle.namesNone_guardWithTest _ _ _)
  | loopWhile => exact rel_withThree_self fun _ _ _ => hsame (Handle.namesNone_loopWhile _ _ _)
  | loopDoWhile => exact rel_withThree_self fun _ _ _ => hsame (Handle.namesNone_loopDoWhile _ _ _)
  | loopCounted =>
    exact rel_withFour_self fun _ _ _ _ => hsame (Handle.namesNone_loopCounted _ _ _ _)
  | loopIterated =>
    exact rel_withThree_self fun _ _ _ => hsame (Handle.namesNone_loopIterated _ _ _)
  | catchException =>
    exact rel_withTwo_self fun _ _ => hsame (Handle.namesNone_catchException _ _ _)
  | tryFinally => exact rel_withTwo_self fun _ _ => hsame (Handle.namesNone_tryFinally _ _)

/-! ## Calls that give closures -/

/-- A call that makes a closure of operands and opens no scope. It may be given a handle or a
schema, too. Functions of one value, tests, comparisons and the like are native functions. -/
inductive ClosureCall where
  | wire
  | fold
  | asClosure
  | cast (ty : Ty)
  | filterReturn
  | constant (v : Value)
  | constantTyped (ty : Ty) (v : Value)
  | constantVoid
  | native (ret : Ty) (run : List Value → Exec Value)
  | ifThenElse
  | ifThen
  | negation
  | conj
  | disj
  | allOf
  | anyOf
  | same
  | equals
  | compare
  | hashCode
  | isNull
  | isNotNull
  | instanceOf (ty : Ty)
  | plus
  | mul
  | toText
  | throwing (ret : Ty)
  | newInstance
  | getField (name : String)
  | setField (name : String)
  | instanceOfSchema
  | newArray (elem : Ty)
  | arrayLength
  | getElement
  | setElement
  | arrayCopyOf

/-- What the call gives, if it is given what it takes. -/
def ClosureCall.run (handle? : Option Handle) (schema? : Option Schema) (args : List Expr) :
    ClosureCall → Option (Except CompositionError Closure)
  | wire => handle?.map fun h => Closure.wire h (args.flatMap Expr.vars)
  | fold => handle?.map fun h => Closure.fold h args
  | asClosure => withOne Expr.asClosure args
  | cast ty => withOne (fun a => do (← a.asClosure).cast ty) args
  | filterReturn => handle?.bind fun h => withOne (fun a => do (← a.asClosure).filterReturn h) args
  | constant v => some (Closure.constant v)
  | constantTyped ty v => some (Closure.constantTyped ty v)
  | constantVoid => some Closure.constantVoid
  | native ret run => some (Closure.native ret args run)
  | ifThenElse => withThree Closure.ifThenElse args
  | ifThen => withTwo Closure.ifThen args
  | negation => withOne Closure.negation args
  | conj => withTwo Closure.conj args
  | disj => withTwo Closure.disj args
  | allOf => some (Closure.allOf args)
  | anyOf => some (Closure.anyOf args)
  | same => withTwo Closure.same args
  | equals => withTwo Closure.equals args
  | compare => withTwo Closure.compare args
  | hashCode => withOne Closure.hashCode args
  | isNull => withOne Closure.isNull args
  | isNotNull => withOne Closure.isNotNull args
  | instanceOf ty => withOne (Closure.instanceOf · ty) args
  | plus => withTwo Closure.plus args
  | mul => withTwo Closure.mul args
  | toText => withOne Closure.toText args
  | throwing ret => withOne (Closure.throwing ret) args
  | newInstance => schema?.map fun s => Closure.newInstance s args
  | getField name => schema?.bind fun s => withOne (Closure.getField s name) args
  | setField name => schema?.bind fun s => withTwo (Closure.setField s name) args
  | instanceOfSchema => schema?.bind fun s => withOne (Closure.instanceOfSchema · s) args
  | newArray elem => withOne (Closure.newArray elem) args
  | arrayLength => withOne Closure.arrayLength args
  | getElement => withTwo Closure.getElement args
  | setElement => withThree Closure.setElement args
  | arrayCopyOf => withTwo Closure.arrayCopyOf args

/-- A call for a closure is given the same handle or schema and operands that are the same. -/
theorem ClosureCall.same_run {M : Matching} (call : ClosureCall) (handle? : Option Handle)
    (schema? : Option Schema) {args args' : List Expr}
    (hargs : List.Forall₂ M.SameExpr args args') :
    Option.Rel M.SameClosures (call.run handle? schema? args) (call.run handle? schema? args') := by
  cases call with
  | wire => exact rel_map_self fun h => Matching.wire h (Matching.flatMap_vars hargs)
  | fold => exact rel_map_self fun h => Matching.fold h hargs
  | asClosure => exact rel_withOne hargs fun _ _ ha => Matching.asClosure ha
  | cast ty =>
    exact rel_withOne hargs fun _ _ ha => .bind (Matching.asClosure ha) fun _ _ hc =>
      Matching.cast hc ty
  | filterReturn =>
    exact rel_bind_self fun h => rel_withOne hargs fun _ _ ha => .bind (Matching.asClosure ha)
      fun _ _ hc => Matching.filterReturn hc h
  | constant v => exact .some (Matching.constant v)
  | constantTyped ty v => exact .some (Matching.constantTyped ty v)
  | constantVoid => exact .some Matching.constantVoid
  | native ret run => exact .some (Matching.native ret run hargs)
  | ifThenElse =>
    exact rel_withThree hargs fun _ _ ha _ _ hb _ _ hc => Matching.ifThenElse ha hb hc
  | ifThen => exact rel_withTwo hargs fun _ _ ha _ _ hb => Matching.ifThen ha hb
  | negation => exact rel_withOne hargs fun _ _ ha => Matching.unary _ _ ha
  | conj => exact rel_withTwo hargs fun _ _ ha _ _ hb => Matching.conj ha hb
  | disj => exact rel_withTwo hargs fun _ _ ha _ _ hb => Matching.disj ha hb
  | allOf => exact .some (Matching.allOf hargs)
  | anyOf => exact .some (Matching.anyOf hargs)
  | same => exact rel_withTwo hargs fun _ _ ha _ _ hb => Matching.same ha hb
  | equals => exact rel_withTwo hargs fun _ _ ha _ _ hb => Matching.equals ha hb
  | compare => exact rel_withTwo hargs fun _ _ ha _ _ hb => Matching.compare ha hb
  | hashCode => exact rel_withOne hargs fun _ _ ha => Matching.unary _ _ ha
  | isNull => exact rel_withOne hargs fun _ _ ha => Matching.isNull ha
  | isNotNull => exact rel_withOne hargs fun _ _ ha => Matching.isNotNull ha
  | instanceOf ty => exact rel_withOne hargs fun _ _ ha => Matching.unary _ _ ha
  | plus => exact rel_withTwo hargs fun _ _ ha _ _ hb => Matching.plus ha hb
  | mul => exact rel_withTwo hargs fun _ _ ha _ _ hb => Matching.mul ha hb
  | toText => exact rel_withOne hargs fun _ _ ha => Matching.unary _ _ ha
  | throwing ret => exact rel_withOne hargs fun _ _ ha => Matching.throwing ret ha
  | newInstance => exact rel_map_self fun s => Matching.newInstance s hargs
  | getField name =>
    exact rel_bind_self fun s => rel_withOne hargs fun _ _ ha => Matching.getField s name ha
  | setField name =>
    exact rel_bind_self fun s =>
      rel_withTwo hargs fun _ _ ha _ _ hb => Matching.setField s name ha hb
  | instanceOfSchema =>
    exact rel_bind_self fun s => rel_withOne hargs fun _ _ ha => Matching.unary _ _ ha
  | newArray elem => exact rel_withOne hargs fun _ _ ha => Matching.newArray elem ha
  | arrayLength => exact rel_withOne hargs fun _ _ ha => Matching.arrayLength ha
  | getElement => exact rel_withTwo hargs fun _ _ ha _ _ hb => Matching.getElement ha hb
  | setElement =>
    exact rel_withThree hargs fun _ _ ha _ _ hb _ _ hc => Matching.setElement ha hb hc
  | arrayCopyOf => exact rel_withTwo hargs fun _ _ ha _ _ hb => Matching.arrayCopyOf ha hb

/-! ## All calls -/

/-- A call about the records of a schema that gives a handle. -/
inductive RecordHandle where
  | equals
  | hashCode
  | compare
  | toText
  | sumFields
  | addCounters

/-- The handle that is composed for the schema. -/
def RecordHandle.run (s : Schema) : RecordHandle → Compose Handle
  | equals => Fieldwise.equals s
  | hashCode => Fieldwise.hashCode s
  | compare => Fieldwise.compare s
  | toText => Fieldwise.toText s
  | sumFields => Fieldwise.sumFields s
  | addCounters => Fieldwise.addCounters s

/-- Handles for the records of a schema are the same whatever scopes they open. -/
theorem RecordHandle.sameRun {ρ : Renaming} (call : RecordHandle) (s : Schema) :
    SameRun SameSupply ρ (fun _ => Eq) (call.run s) (call.run s) := by
  cases call with
  | equals => exact Fieldwise.sameRun_equals s
  | hashCode => exact Fieldwise.sameRun_hashCode s
  | compare => exact Fieldwise.sameRun_compare s
  | toText => exact Fieldwise.sameRun_toText s
  | sumFields => exact Fieldwise.sameRun_sumFields s
  | addCounters => exact Fieldwise.sameRun_addCounters s

/-- A call that is made in one go, without callbacks, and changes nothing that the caller has. -/
inductive Call where
  | handle (call : HandleCall)
  | closure (call : ClosureCall)
  /-- The handle of a closure. -/
  | handleOf
  /-- A variable of a closure, of a unifier or among the inputs of a scope. -/
  | varOf (index : Nat)
  | unifier
  | align (keep : Nat)
  | scopeId
  | schema (name : String) (fields : List Field)
  | function (types : List Ty)
  | block
  | build
  | buildVoid
  | record (call : RecordHandle)
  | recordsEqual
  | recordHash
  | recordOrder
  | columns

namespace Call

variable (items : List Item)

/-- What the call gives, if it is given what it takes. -/
def run : Call → Option (Compose Item)
  | handle call => do
    return Item.handle <$> liftM (← call.run (items.filterMap Item.handle?))
  | closure call => do
    return Item.closure <$> liftM (← call.run (items.findSome? Item.handle?)
      (items.findSome? Item.schema?) (items.filterMap Item.expr?))
  | handleOf => do return pure (.handle (← items.findSome? Item.closure?).handle)
  | varOf index => do return pure (.var (← (items.flatMap Item.vars)[index]?))
  | unifier => return pure (.unifier (Unifier.ofSources (items.map Item.vars)))
  | align keep => do
    let u ← items.findSome? Item.unifier?
    let c ← items.findSome? Item.closure?
    return Item.closure <$> liftM (u.align keep c)
  | scopeId => return Item.scopeId <$> Compose.freshScope
  | schema name fields => return Item.schema <$> Schema.define name fields
  | function types => return Item.scope <$> Prod.fst <$> Scope.withParams types
  | block => return Item.scope <$> Scope.newBlock
  | build => do
    let s ← items.findSome? Item.scope?
    let ret ← items.findSome? Item.expr?
    return if s.capturing then Item.closure <$> s.buildBlock ret
      else Item.handle <$> s.buildFunction ret
  | buildVoid => do
    let s ← items.findSome? Item.scope?
    return if s.capturing then Item.closure <$> s.buildBlockVoid
      else Item.handle <$> s.buildFunctionVoid
  | record call => do return Item.handle <$> call.run (← items.findSome? Item.schema?)
  | recordsEqual => do
    let s ← items.findSome? Item.schema?
    withTwo (fun this that => Item.closure <$> Fieldwise.equalsClosure s this that)
      (items.filterMap Item.var?)
  | recordHash => do
    let s ← items.findSome? Item.schema?
    withOne (fun this => Item.closure <$> liftM (Fieldwise.hashClosure s this))
      (items.filterMap Item.var?)
  | recordOrder => do
    let s ← items.findSome? Item.schema?
    withTwo (fun this that => Item.closure <$> Fieldwise.compareClosure s this that)
      (items.filterMap Item.var?)
  | columns => do return Item.access <$> ColumnAccess.compose (← items.findSome? Item.schema?)

end Call

section SameCall

variable {ρ : Renaming} {items items' : List Item}

/-- A handle that both calls give. -/
theorem sameRun_handle {x x' : Compose Handle} (hx : SameRun SameSupply ρ (fun _ => Eq) x x') :
    SameRun SameSupply ρ SameItem (Item.handle <$> x) (Item.handle <$> x') :=
  hx.map fun _ _ _ h => h ▸ .handle _

/-- Closures that are the same, given by both calls. -/
theorem sameRun_closure {x x' : Compose Closure} (hx : SameRun SameSupply ρ SameClosure x x') :
    SameRun SameSupply ρ SameItem (Item.closure <$> x) (Item.closure <$> x') :=
  hx.map fun _ _ _ h => .closure h

/-- Calls that are given items that are the same come to the same. -/
theorem Call.same_run (call : Call) (h : List.Forall₂ (SameItem ρ) items items') :
    Option.Rel (SameRun SameSupply ρ SameItem) (call.run items) (call.run items') := by
  -- what the calls take of the items: the first of a kind, or all of a kind in their order
  have hscope := rel_findSome? (fun _ _ hi => SameItem.scope? hi) h
  have hclosure := rel_findSome? (fun _ _ hi => SameItem.closure? hi) h
  have hvars := List.rel_filterMap (fun _ _ hi => SameItem.var? hi) h
  have hexprs := List.rel_filterMap (fun _ _ hi => SameItem.expr? hi) h
  have hhandle := findSome?_eq (fun _ _ hi => SameItem.handle?_eq hi) h
  have hschema := findSome?_eq (fun _ _ hi => SameItem.schema?_eq hi) h
  cases call with
  | handle call =>
    unfold run
    rw [filterMap_eq (fun _ _ hi => hi.handle?_eq) h]
    exact rel_bind (call.same_run _) fun _ _ hx => .some (sameRun_handle (.lift hx))
  | closure call =>
    unfold run
    rw [hhandle, hschema]
    exact rel_bind (call.same_run _ _ hexprs) fun _ _ hx => .some (sameRun_closure (.lift hx))
  | handleOf =>
    exact rel_bind hclosure fun _ _ hc => .some (.pure (hc.handle_eq ▸ .handle _))
  | varOf index =>
    exact rel_bind (rel_getElem? (List.rel_flatMap h fun _ _ hi => hi.vars) index)
      fun _ _ hv => .some (.pure (.var hv))
  | unifier =>
    have hsources := List.rel_map (fun _ _ hi => SameItem.vars hi) h
    exact .some (.pure (.unifier (Matching.ofSources hsources)))
  | align keep =>
    exact rel_bind (rel_findSome? (fun _ _ hi => SameItem.unifier? hi) h) fun _ _ hu =>
      rel_bind hclosure fun _ _ hc => .some (sameRun_closure (.lift (Matching.align hu keep hc)))
  | scopeId =>
    exact .some (Compose.sameRun_freshScope.map fun _ _ _ hid => .scopeId hid)
  | schema name fields =>
    exact .some ((Schema.sameRun_define name fields).map fun _ _ _ hs => hs ▸ .schema _)
  | function types =>
    exact .some (((Scope.sameRun_withParams types).map (P := SameScope) fun _ _ _ hs => hs).map
      fun _ _ _ hs => .scope hs)
  | block => exact .some (Scope.sameRun_newBlock.map fun _ _ _ hs => .scope hs)
  | build =>
    exact rel_bind hscope fun _ _ hs => rel_bind (rel_findSome? (fun _ _ hi => SameItem.expr? hi) h)
      fun _ _ he => .some <| by
        rw [hs.capturing_eq]
        split
        · exact sameRun_closure (Scope.sameRun_buildBlock hs he)
        · exact sameRun_handle (Scope.sameRun_buildFunction hs he)
  | buildVoid =>
    exact rel_bind hscope fun _ _ hs => .some <| by
      rw [hs.capturing_eq]
      split
      · exact sameRun_closure (Scope.sameRun_buildBlockVoid hs)
      · exact sameRun_handle (Scope.sameRun_buildFunctionVoid hs)
  | record call =>
    unfold run
    rw [hschema]
    exact rel_bind_self fun s => .some (sameRun_handle (call.sameRun s))
  | recordsEqual =>
    unfold run
    rw [hschema]
    exact rel_bind_self fun s => rel_withTwo hvars fun _ _ ha _ _ hb =>
      sameRun_closure (Fieldwise.sameRun_equalsClosure s ha hb)
  | recordHash =>
    unfold run
    rw [hschema]
    exact rel_bind_self fun s => rel_withOne hvars fun _ _ ha =>
      sameRun_closure (.lift (Fieldwise.same_hashClosure s ha))
  | recordOrder =>
    unfold run
    rw [hschema]
    exact rel_bind_self fun s => rel_withTwo hvars fun _ _ ha _ _ hb =>
      sameRun_closure (Fieldwise.sameRun_compareClosure s ha hb)
  | columns =>
    unfold run
    rw [hschema]
    exact rel_bind_self fun s => .some ((ColumnAccess.sameRun_compose s).map
      fun _ _ _ ha => ha ▸ .access _)

end SameCall

end Script

end Splice

import Splice.Proofs.Renaming.Call

/-!
# Scripts of calls

A caller makes one call after the other and refers to what it has got by the numbers of the answers.
It can go on when a call is refused, and control constructs call back for further calls. A `Script`
is a finite course of such calls. Others may open scopes at any time, so which identities a script
gets is up to chance. `Script.answers_rename` says that nothing else is: two runs of a script, with
whatever others do in between, differ by a renaming of identities.
-/

namespace Splice

open Renaming (SameVar SameClosure SameExpr SameScope)

namespace Script

/-- What a call has come to. There is nothing if an operand is not there, as then no call can be
made. -/
abbrev Answer := Option (Except CompositionError Item)

/-- The answer with the identities of all scopes renamed. -/
def Answer.rename (f : Nat → Nat) (a : Answer) : Answer :=
  a.map fun r => (r.map (Item.rename f)).mapError (CompositionError.rename f)

/-- How far a caller has come. -/
structure Stage where
  supply : Supply
  answers : List Answer := []

namespace Stage

/-- What an answer has given, unless it is a refusal. -/
def item? (t : Stage) (place : Nat) : Option Item := do (← (← t.answers[place]?)).toOption

/-- A scope under construction. -/
def scope? (t : Stage) (place : Nat) : Option Scope := do (← t.item? place).scope?

/-- An operand. -/
def expr? (t : Stage) (place : Nat) : Option Expr := do (← t.item? place).expr?

/-- A call with operands, if they are there. -/
def call? (t : Stage) (c : Call) (operands : List Nat) : Option (Compose Item) := do
  c.run (← operands.mapM t.item?)

/-- The caller gets one more answer. -/
def push (t : Stage) (a : Answer) : Stage := { t with answers := t.answers ++ [a] }

/-- The caller gets the variables that a construct hands to a callback. -/
def enter (t : Stage) (vs : List Var) : Stage :=
  { t with answers := t.answers ++ vs.map fun v => some (.ok (.var v)) }

/-- Others open scopes. -/
def wait (t : Stage) (count : Nat) : Stage :=
  { t with supply := { t.supply with nextScope := t.supply.nextScope + count } }

/-- What a caller has to give when a callback ends: the closure or the refusal of an answer, and the
closure that does nothing if there is neither. -/
def outcome (t : Stage) (place : Nat) : Except CompositionError Closure :=
  match t.answers[place]? with
  | some (some (.ok (.closure c))) => .ok c
  | some (some (.error cause)) => .error cause
  | _ => Closure.constantVoid

/-- A scope under construction answers, and is another one afterwards. -/
def grow (t : Stage) (place : Nat) (step : Scope → Except CompositionError Var × Scope) : Stage :=
  match t.scope? place with
  | none => t.push none
  | some s =>
    { t with answers := t.answers.set place (some (.ok (.scope (step s).2))) }.push
      (some ((step s).1.map Item.var))

end Stage

/-- Composition steps of a caller. -/
abbrev Steps := ExceptT CompositionError (StateM Stage)

instance : MonadLiftT Compose Steps where
  monadLift step := ExceptT.mk fun t =>
    ((step.run.run t.supply).1, { t with supply := (step.run.run t.supply).2 })

/-- A callback that a construct hands variables to. -/
def entered (body : Steps Closure) (vs : List Var) : Steps Closure := do
  modify (·.enter vs)
  body

/-- A control construct with callbacks. -/
inductive Construct where
  | whileLoop
  | doWhileLoop
  | countedLoop
  | iteratorLoop
  | iterableLoop
  | catchException (cls : String)
  | tryFinally

/-- The construct over operands, if these are as many as it takes, with callbacks that are handed
its variables. Only `whileLoop` and `doWhileLoop` have a second callback. -/
def Construct.compose (args : List Expr) (first second : List Var → Steps Closure) :
    Construct → Option (Steps Closure)
  | whileLoop => withOne (Closure.whileLoop · (first [·]) (second [·])) args
  | doWhileLoop => withOne (Closure.doWhileLoop · (first [·]) (second [·])) args
  | countedLoop => withThree (Closure.countedLoop · · · (first [·, ·])) args
  | iteratorLoop => withTwo (Closure.iteratorLoop · · (first [·, ·])) args
  | iterableLoop => withTwo (Closure.iterableLoop · · (first [·, ·])) args
  | catchException cls => withOne (Closure.catchException · cls (first [·])) args
  | tryFinally => withOne (Closure.tryFinally · fun e v => first (e :: v.toList)) args

/-- A construct with operands, if they are there, and with callbacks that get the variables that
they are handed. -/
def Stage.construct? (t : Stage) (k : Construct) (operands : List Nat)
    (first second : Steps Closure) : Option (Steps Closure) := do
  k.compose (← operands.mapM t.expr?) (entered first) (entered second)

end Script

/-- A course of calls. Operands are named by the places of answers. -/
inductive Script where
  /-- Ends. What a callback gives is the closure, or the refusal, of an answer. -/
  | give (place : Nat)
  | call (c : Script.Call) (operands : List Nat) (rest : Script)
  | addParam (scope : Nat) (ty : Ty) (rest : Script)
  | assign (scope operand : Nat) (rest : Script)
  | control (k : Script.Construct) (operands : List Nat) (first second rest : Script)

namespace Script

/-- Runs a script. Before each call others open as many scopes as `others` says for the number of
answers by then. -/
def run (others : Nat → Nat) : Script → Steps Closure
  | give place => do
    modify fun t => t.wait (others t.answers.length)
    (← get).outcome place
  | call c operands rest => do
    modify fun t => t.wait (others t.answers.length)
    match (← get).call? c operands with
    | none => modify (·.push none)
    | some step =>
      let r ← liftM (Compose.within step : Steps Item).run
      modify (·.push (some r))
    rest.run others
  | addParam scope ty rest => do
    modify fun t => t.wait (others t.answers.length)
    modify (·.grow scope (·.addParam ty))
    rest.run others
  | assign scope operand rest => do
    modify fun t => t.wait (others t.answers.length)
    match (← get).expr? operand with
    | none => modify (·.push none)
    | some e => modify (·.grow scope (·.tryAssign e))
    rest.run others
  | control k operands first second rest => do
    modify fun t => t.wait (others t.answers.length)
    match (← get).construct? k operands (first.run others) (second.run others) with
    | none => modify (·.push none)
    | some step =>
      let r ← liftM step.run
      modify (·.push (some (r.map Item.closure)))
    rest.run others

/-- The answers to a script that is run from a supply. -/
def answers (script : Script) (others : Nat → Nat) (s : Supply) : List Answer :=
  ((script.run others).run.run { supply := s }).2.answers

/-! ## Two runs -/

/-- The same answer but for renamed scopes. -/
abbrev SameAnswer (ρ : Renaming) : Answer → Answer → Prop :=
  Option.Rel (ρ.matching.SameResult (SameItem ρ))

variable {ρ ρ' : Renaming}

/-- The same answer under a renaming stays the same under one that extends it. -/
theorem SameAnswer.mono {a a' : Answer} (h : SameAnswer ρ a a') (hρ : ρ ≤ ρ') :
    SameAnswer ρ' a a' := by
  cases h with
  | none => exact .none
  | some h => exact .some (h.mono (Renaming.matching_mono hρ) fun _ _ hi => hi.mono hρ)

/-- Where a map gives what the renaming gives, the same answer is the renamed one. -/
theorem SameAnswer.eq_rename {f : Nat → Nat} (hf : ∀ a b, ρ.scopes a b → f a = b) {a a' : Answer}
    (h : SameAnswer ρ a a') : a' = a.rename f := by
  cases h with
  | none => rfl
  | some h =>
    cases h with
    | ok hi => rw [hi.eq_rename hf]; rfl
    | error he => rw [Renaming.eq_rename_of_sameCause hf he]; rfl

/-- Callers who have come equally far. -/
structure SameStage (ρ : Renaming) (t t' : Stage) : Prop where
  supply : SameSupply ρ t.supply t'.supply
  answers : List.Forall₂ (SameAnswer ρ) t.answers t'.answers

namespace SameStage

variable {t t' : Stage}

/-- Equally far callers have the same item in each place, or both have none. -/
theorem item? (h : SameStage ρ t t') (place : Nat) :
    Option.Rel (SameItem ρ) (t.item? place) (t'.item? place) :=
  rel_bind (rel_getElem? h.answers place) fun _ _ ha => rel_bind ha fun _ _ hr => hr.toOption

/-- Equally far callers have the same scope under construction in each place, or both have none. -/
theorem scope? (h : SameStage ρ t t') (place : Nat) :
    Option.Rel ρ.SameScope (t.scope? place) (t'.scope? place) :=
  rel_bind (h.item? place) fun _ _ hi => hi.scope?

/-- Equally far callers have the same operand in each place, or both have none. -/
theorem expr? (h : SameStage ρ t t') (place : Nat) :
    Option.Rel ρ.SameExpr (t.expr? place) (t'.expr? place) :=
  rel_bind (h.item? place) fun _ _ hi => hi.expr?

/-- A call on operands that stand for each other comes to the same, or neither caller can make it.
-/
theorem call? (h : SameStage ρ t t') (c : Call) (operands : List Nat) :
    Option.Rel (SameRun SameSupply ρ SameItem) (t.call? c operands) (t'.call? c operands) :=
  rel_bind (rel_mapM h.item? operands) fun _ _ hitems => c.same_run hitems

/-- What equally far callers give when a callback ends is the same. -/
theorem outcome (h : SameStage ρ t t') (place : Nat) :
    ρ.matching.SameClosures (t.outcome place) (t'.outcome place) := by
  have hanswer := rel_getElem? h.answers place
  unfold Stage.outcome
  generalize t.answers[place]? = x at hanswer ⊢
  generalize t'.answers[place]? = x' at hanswer ⊢
  -- an answer is missing, could not be asked for, is a refusal or is an item
  cases hanswer with
  | none => exact Matching.constantVoid
  | some ha =>
    cases ha with
    | none => exact Matching.constantVoid
    | some hr =>
      cases hr with
      | error he => exact .error he
      | ok hi =>
        cases hi with
        -- only a closure is given as it is, any other item counts as nothing
        | closure hc => exact .ok hc
        | _ => exact Matching.constantVoid

/-- One more answer, the same for both, leaves the callers equally far. -/
theorem push (h : SameStage ρ t t') {a a' : Answer} (ha : SameAnswer ρ a a') :
    SameStage ρ (t.push a) (t'.push a') :=
  ⟨h.supply, List.rel_append h.answers (.cons ha .nil)⟩

/-- Equally far callers get variables that stand for each other. -/
theorem enter (h : SameStage ρ t t') {vs vs' : List Var} (hvs : List.Forall₂ ρ.SameVar vs vs') :
    SameStage ρ (t.enter vs) (t'.enter vs') :=
  ⟨h.supply, List.rel_append h.answers (List.rel_map (fun _ _ hv => .some (.ok (.var hv))) hvs)⟩

/-- Other scopes that others open in between do not set the callers apart. -/
theorem wait (h : SameStage ρ t t') (count count' : Nat) :
    SameStage ρ (t.wait count) (t'.wait count') :=
  ⟨h.supply.later (Nat.le_add_right _ _) (Nat.le_add_right _ _) h.supply.nextSchema_eq, h.answers⟩

/-- Where a step of a scope under construction comes to the same, both callers see it grow alike. -/
theorem grow (h : SameStage ρ t t') (place : Nat)
    {step step' : Scope → Except CompositionError Var × Scope}
    (hstep : ∀ s s', ρ.SameScope s s' →
      ρ.matching.SameResult ρ.SameVar (step s).1 (step' s').1 ∧
        ρ.SameScope (step s).2 (step' s').2) :
    SameStage ρ (t.grow place step) (t'.grow place step') := by
  have hscope := h.scope? place
  unfold Stage.grow
  generalize t.scope? place = x at hscope ⊢
  generalize t'.scope? place = x' at hscope ⊢
  cases hscope with
  | none => exact h.push .none
  | @some s s' hs =>
    -- the grown scope stands where the old one stood, before the answer that is added
    obtain ⟨hresult, hnext⟩ := hstep s s' hs
    have hset : SameStage ρ
        { t with answers := t.answers.set place (some (.ok (.scope (step s).2))) }
        { t' with answers := t'.answers.set place (some (.ok (.scope (step' s').2))) } :=
      ⟨h.supply, rel_set h.answers (.some (.ok (.scope hnext))) place⟩
    exact hset.push (.some (hresult.map fun _ _ hv => .var hv))

end SameStage

/-- Callers are equally far under any renaming that extends the one under which they were, as both
have only gained answers. -/
theorem extends_sameStage : Closure.Extends SameStage := by
  intro α β ρ P x x' hx t t' ht
  obtain ⟨ρ', hρ, hresult, hsupply⟩ := hx _ _ ht.supply
  exact ⟨ρ', hρ, hresult, hsupply, ht.answers.imp fun _ _ ha => ha.mono hρ⟩

/-- Constructs with callbacks that come to the same do so. -/
theorem Construct.same_compose (k : Construct) {args args' : List Expr}
    {first first' second second' : List Var → Steps Closure}
    (hargs : List.Forall₂ ρ.SameExpr args args')
    (hfirst : Closure.SameCallback SameStage ρ first first')
    (hsecond : Closure.SameCallback SameStage ρ second second') :
    Option.Rel (SameRun SameStage ρ SameClosure) (k.compose args first second)
      (k.compose args' first' second') := by
  -- a construct with the wrong number of operands cannot be asked for, on either side
  cases k with
  | whileLoop =>
    exact rel_withOne hargs fun _ _ ha =>
      Closure.sameRun_whileLoop extends_sameStage ha hfirst hsecond
  | doWhileLoop =>
    exact rel_withOne hargs fun _ _ ha =>
      Closure.sameRun_doWhileLoop extends_sameStage ha hfirst hsecond
  | countedLoop =>
    exact rel_withThree hargs fun _ _ ha _ _ hb _ _ hc =>
      Closure.sameRun_countedLoop extends_sameStage ha hb hc hfirst
  | iteratorLoop =>
    exact rel_withTwo hargs fun _ _ ha _ _ hb =>
      Closure.sameRun_iteratorLoop extends_sameStage ha hb hfirst
  | iterableLoop =>
    exact rel_withTwo hargs fun _ _ ha _ _ hb =>
      Closure.sameRun_iterableLoop extends_sameStage ha hb hfirst
  | catchException cls =>
    exact rel_withOne hargs fun _ _ ha =>
      Closure.sameRun_catchException extends_sameStage ha cls hfirst
  | tryFinally =>
    exact rel_withOne hargs fun _ _ ha => Closure.sameRun_tryFinally extends_sameStage ha hfirst

/-- Callbacks that come to the same, handed variables that stand for each other. -/
theorem sameCallback_entered {body body' : Steps Closure}
    (hbody : ∀ ρ', SameRun SameStage ρ' SameClosure body body') :
    Closure.SameCallback SameStage ρ (entered body) (entered body') :=
  fun ρ' _ _ _ hvs => .modify_bind (fun _ _ h => h.enter hvs) (hbody ρ')

/-- A construct on operands that stand for each other comes to the same, or neither caller can ask
for it. -/
theorem SameStage.construct? {t t' : Stage} (h : SameStage ρ t t') (k : Construct)
    (operands : List Nat) {first first' second second' : Steps Closure}
    (hfirst : ∀ ρ', SameRun SameStage ρ' SameClosure first first')
    (hsecond : ∀ ρ', SameRun SameStage ρ' SameClosure second second') :
    Option.Rel (SameRun SameStage ρ SameClosure) (t.construct? k operands first second)
      (t'.construct? k operands first' second') :=
  rel_bind (rel_mapM h.expr? operands) fun _ _ hargs =>
    k.same_compose hargs (sameCallback_entered hfirst) (sameCallback_entered hsecond)

/-- Two runs of a script come to the same, whatever others do in between. -/
theorem sameRun (script : Script) (others others' : Nat → Nat) (ρ : Renaming) :
    SameRun SameStage ρ SameClosure (script.run others) (script.run others') := by
  -- each call extends the renaming by the scopes that it opens, and so does each callback
  induction script generalizing ρ with
  | give place =>
    exact .modify_bind (fun _ _ h => h.wait _ _) <| .get_bind fun _ _ h => .lift (h.outcome place)
  | call c operands rest ih =>
    -- neither caller has the operands, or both make the call and its scopes extend the renaming
    refine .modify_bind (fun _ _ h => h.wait _ _) (.get_bind fun t t' ht => ?_)
    have hcall := ht.call? c operands
    generalize t.call? c operands = x at hcall ⊢
    generalize t'.call? c operands = x' at hcall ⊢
    cases hcall with
    | none => exact .modify_bind (fun _ _ h => h.push .none) (ih ρ)
    | some hstep =>
      exact .attempt_bind (extends_sameStage _ _ _ _ _ _ hstep) fun ρ' _ r r' hr =>
        .modify_bind (fun _ _ h => h.push (.some hr)) (ih ρ')
  | addParam scope ty rest ih =>
    exact .modify_bind (fun _ _ h => h.wait _ _) <| .modify_bind
      (fun _ _ h => h.grow scope fun _ _ hs => Scope.same_addParam hs ty) (ih ρ)
  | assign scope operand rest ih =>
    refine .modify_bind (fun _ _ h => h.wait _ _) (.get_bind fun t t' ht => ?_)
    have hexpr := ht.expr? operand
    generalize t.expr? operand = x at hexpr ⊢
    generalize t'.expr? operand = x' at hexpr ⊢
    cases hexpr with
    | none => exact .modify_bind (fun _ _ h => h.push .none) (ih ρ)
    | some he =>
      exact .modify_bind (fun _ _ h => h.grow scope fun _ _ hs => Scope.same_tryAssign hs he) (ih ρ)
  | control k operands first second rest ihfirst ihsecond ih =>
    -- the callbacks come first, so the renaming that they extend is the one for what follows
    refine .modify_bind (fun _ _ h => h.wait _ _) (.get_bind fun t t' ht => ?_)
    have hstep := ht.construct? k operands ihfirst ihsecond
    generalize t.construct? k operands (first.run others) (second.run others) = x at hstep ⊢
    generalize t'.construct? k operands (first.run others') (second.run others') = x' at hstep ⊢
    cases hstep with
    | none => exact .modify_bind (fun _ _ h => h.push .none) (ih ρ)
    | some hstep =>
      exact .attempt_bind hstep fun ρ' _ r r' hr =>
        .modify_bind (fun _ _ h => h.push (.some (hr.map fun _ _ hc => .closure hc))) (ih ρ')

/-- Which identities the scopes of a script get makes no difference to it. Run from any other
identity on, and with others opening scopes in between or not, it gets the same answers to all of
its calls but for renamed scopes: the same calls are refused, for the same causes; variables,
closures and scopes under construction are the same with renamed scopes; handles are equal. -/
theorem answers_rename (script : Script) (others others' : Nat → Nat) (s : Supply)
    (nextScope : Nat) : ∃ f : Nat → Nat, Function.Injective f ∧
      script.answers others' { s with nextScope } =
        (script.answers others s).map (Answer.rename f) := by
  -- the caller has nothing at the start, so no scope stands for another one yet
  have hstart : SameStage .empty { supply := s } { supply := { s with nextScope } } :=
    ⟨⟨fun _ _ h => h.elim, rfl⟩, .nil⟩
  obtain ⟨ρ, -, -, hlast⟩ := script.sameRun others others' .empty _ _ hstart
  obtain ⟨f, hinjective, hf⟩ :=
    Renaming.exists_injective fun a b hab => (hlast.supply.below a b hab).2
  refine ⟨f, hinjective, ?_⟩
  have hanswers := hlast.answers
  unfold answers
  generalize (((script.run others).run.run _).2.answers) = as at hanswers ⊢
  generalize (((script.run others').run.run _).2.answers) = as' at hanswers ⊢
  -- one injective map serves all the answers at once
  induction hanswers with
  | nil => rfl
  | cons ha _ ih => rw [List.map_cons, ha.eq_rename hf, ih]

/-- A function refuses a parameter of another one, whatever identity that one has got. -/
example :
    let script : Script := .call (.function [.int]) [] <| .call (.varOf 0) [0] <|
      .call (.function []) [] <| .assign 2 1 <| .give 3
    (script.answers (fun _ => 0) {})[3]? = some (some (.error (.foreignVar ⟨1, 0, true, .int⟩))) ∧
      (script.answers (fun _ => 5) { nextScope := 7 })[3]? =
        some (some (.error (.foreignVar ⟨12, 0, true, .int⟩))) := by
  exact ⟨rfl, rfl⟩

end Script

end Splice

import Splice.Signature
import Splice.Var

/-!
# Composition errors

A `CompositionError` is a cause for which a composition is refused. Every cause belongs to one of
three categories: types that do not fit, a variable used where it cannot be seen, or a step taken
when it is not allowed.
-/

namespace Splice

/-- The part that a callable plays in a composition. -/
inductive Role where
  | guardTest | elseBranch | loopPredicate | loopBody | loopStart | loopEnd | loopSource
  | exceptionHandler | cleanup
  deriving DecidableEq

/-- A role as error messages name it. -/
def Role.text : Role → String
  | guardTest => "guard test"
  | elseBranch => "else branch"
  | loopPredicate => "loop predicate"
  | loopBody => "loop body"
  | loopStart => "loop start"
  | loopEnd => "loop end"
  | loopSource => "loop source"
  | exceptionHandler => "exception handler"
  | cleanup => "cleanup"

/-- An operation that puts a demand on its operands' types. -/
inductive Operator where
  | same | equals | compare | plus | mul | isNull | isNotNull
  | arrayLength | arrayElement | arrayCopy
  deriving DecidableEq

/-- An operator as error messages name it. -/
def Operator.text : Operator → String
  | same => "same"
  | equals => "equals"
  | compare => "compare"
  | plus => "plus"
  | mul => "mul"
  | isNull => "is_null"
  | isNotNull => "is_not_null"
  | arrayLength => "array length"
  | arrayElement => "array element"
  | arrayCopy => "array copy"

/-- The categories of composition errors. -/
inductive ErrorCategory where
  | signatureMismatch | scopeViolation | protocolViolation
  deriving DecidableEq

namespace ErrorCategory

/-- The words that open the text of an error of this category. -/
def title : ErrorCategory → String
  | signatureMismatch => "Signature mismatch"
  | scopeViolation => "Scope violation"
  | protocolViolation => "Protocol violation"

/-- The diagnostic code of the category. -/
def code : ErrorCategory → String
  | signatureMismatch => "compose::signature_mismatch"
  | scopeViolation => "compose::scope_violation"
  | protocolViolation => "compose::protocol_violation"

/-- Advice on errors of the category, if there is any. -/
def help? : ErrorCategory → Option String
  | signatureMismatch =>
    some "argument count and types must match the callable's declared parameters"
  | scopeViolation =>
    some "variables of another function can only be used by a closure builder that captures them"
  | protocolViolation => none

end ErrorCategory

/-- A cause for which a composition is refused. -/
inductive CompositionError where
  | voidField (schema field : String)
  | duplicateField (schema field : String)
  | noSuchField (schema field : String)
  | voidParameter (index : Nat) (params : List Ty)
  | constantKind (ty : Ty) (found : Kind)
  | projectionOutside (index : Nat) (params : List Ty)
  | reorderLength (length : Nat) (target : Signature)
  | reorderType (target : Signature) (index : Nat) (expected : Ty) (position : Nat) (found : Ty)
  | reorderOutside (position : Nat) (params : List Ty)
  | collectMismatch (filter : Signature) (pos : Nat) (target : Signature)
  | collectOutside (pos : Nat) (target : Signature)
  | dropOutside (pos : Nat) (target : Signature)
  | filterMismatch (target filter : Signature)
  | noConversion (target : Signature) (ty : Ty)
  /-- A callable in some role does not take the parameters that the role has. -/
  | roleParams (role : Role) (expected : List Ty) (found : Signature)
  /-- A callable in some role does not return what the role demands. -/
  | roleReturn (role : Role) (expected : Ty) (found : Signature)
  | guardMismatch (test branch : Signature)
  | iteratorNeeded (source : Signature)
  /-- A callable is given variables or expressions that are not arguments for it. -/
  | misapplied (target : Signature) (given : List Ty)
  | tooFewArguments (count : Nat) (args : List Var)
  | notUnified (v : Var)
  | operandTypes (op : Operator) (left right : Ty)
  | undefinedOperator (op : Operator) (ty : Ty)
  | arrayNeeded (op : Operator) (found : Ty)
  /-- A closure in some role does not produce what the role demands. -/
  | roleType (role : Role) (expected found : Ty)
  | conditionType (found : Ty)
  | iteratorSource (found : Ty)
  | listSource (found : Ty)
  | foreignVar (v : Var)
  | hiddenResult (v : Var)
  | hiddenArgument (v : Var) (statement : Nat)
  | voidVar
  | lateParameter
  /-- A loop over callables has an initial state without a value. -/
  | voidInit (init : Signature)
  /-- A loop over closures has an initial state without a value. -/
  | voidState
  deriving DecidableEq

namespace CompositionError

/-- The category of a cause. -/
def category : CompositionError → ErrorCategory
  | foreignVar _ | hiddenResult _ | hiddenArgument .. => .scopeViolation
  | voidVar | lateParameter | voidInit _ | voidState => .protocolViolation
  | _ => .signatureMismatch

/-- What is wrong, without the category. -/
def message : CompositionError → String
  | voidField schema field => "field `" ++ schema ++ "." ++ field ++ "` cannot have type void"
  | duplicateField schema field =>
    "duplicate field `" ++ field ++ "` in record `" ++ schema ++ "`"
  | noSuchField schema field => "record `" ++ schema ++ "` has no field `" ++ field ++ "`"
  | voidParameter index params => s!"parameter {index} of {Ty.tupleText params} has type void"
  | constantKind ty found => s!"constant of type {ty.text} cannot hold {found.text}"
  | projectionOutside index params =>
    s!"cannot project argument {index} out of {Ty.tupleText params}"
  | reorderLength length target => s!"reorder of length {length} does not cover {target.text}"
  | reorderType target index expected position found =>
    s!"argument {index} of {target.text} expects {expected.text} but position {position} has " ++
      found.text
  | reorderOutside position params => s!"position {position} is outside of {Ty.tupleText params}"
  | collectMismatch filter pos target =>
    s!"cannot collect {filter.text} into argument {pos} of {target.text}"
  | collectOutside pos target => s!"collect position {pos} is outside of {target.text}"
  | dropOutside pos target => s!"drop position {pos} is outside of {target.text}"
  | filterMismatch target filter => s!"cannot filter result of {target.text} with {filter.text}"
  | noConversion target ty => s!"cannot convert result of {target.text} to {ty.text}"
  | roleParams role expected found =>
    s!"{role.text} must take {Ty.tupleText expected} but is {found.text}"
  | roleReturn role expected found =>
    s!"{role.text} must return {expected.text} but is {found.text}"
  | guardMismatch test branch => s!"guard test {test.text} does not match branch {branch.text}"
  | iteratorNeeded source => s!"loop source must return an iterator but is {source.text}"
  | misapplied target given => s!"cannot apply Handle{target.text} to {Ty.tupleText given}"
  | tooFewArguments count args =>
    s!"cannot keep {count} leading arguments of a closure over {Var.listText args}"
  | notUnified v => s!"{v.text} is not part of the unified signature"
  | operandTypes op left right =>
    s!"{op.text} needs operands of one type, got {left.text} and {right.text}"
  | undefinedOperator op ty => s!"{op.text} is not defined for {ty.text}"
  | arrayNeeded op found => s!"{op.text} needs an array, got {found.text}"
  | roleType role expected found => s!"{role.text} must produce {expected.text}, got {found.text}"
  | conditionType found => s!"condition must be bool, got {found.text}"
  | iteratorSource found => s!"loop source must be an iterator, got {found.text}"
  | listSource found => s!"loop source must be a list, got {found.text}"
  | foreignVar v => s!"{v.text} belongs to another function and cannot be referenced here"
  | hiddenResult v => s!"{v.text} is not visible in this function"
  | hiddenArgument v statement => s!"{v.text} is not visible at statement {statement}"
  | voidVar => "parameter type must not be void"
  | lateParameter => "cannot add a parameter after the function body started"
  | voidInit init => s!"loop state must have a value, but init is {init.text}"
  | voidState => "loop state must have a value"

/-- The full text of an error: its category, then what is wrong. -/
def text (e : CompositionError) : String := e.category.title ++ ": " ++ e.message

end CompositionError

/-! ## Accepting and refusing

A composition step is a sequence of demands and of smaller steps, and is accepted when each of them
is: `bind_eq_ok_iff` takes a sequence apart, `require_eq_ok_iff` reads a demand off. -/

/-- Accepts if a condition holds and refuses for the given cause if not. -/
def require (p : Prop) [Decidable p] (cause : CompositionError) : Except CompositionError Unit :=
  if p then .ok () else .error cause

theorem bind_eq_ok_iff {x : Except ε α} {f : α → Except ε β} {b : β} :
    x >>= f = .ok b ↔ ∃ a, x = .ok a ∧ f a = .ok b := by
  cases x with
  | error e => exact ⟨fun h => (nomatch h), fun ⟨_, h, _⟩ => (nomatch h)⟩
  | ok a => exact ⟨fun h => ⟨a, rfl, h⟩, fun ⟨_, h, hf⟩ => Except.ok.inj h ▸ hf⟩

theorem require_eq_ok_iff {p : Prop} [Decidable p] {cause : CompositionError} {u : Unit} :
    require p cause = .ok u ↔ p := by
  unfold require
  split
  case isTrue h => exact ⟨fun _ => h, fun _ => rfl⟩
  case isFalse h => exact ⟨fun h' => (nomatch h'), fun h' => absurd h' h⟩

/-- A sequence that starts with a demand is accepted when the demand is met and the rest is. -/
theorem require_bind_eq_ok_iff {p : Prop} [Decidable p] {cause : CompositionError}
    {f : Unit → Except CompositionError β} {b : β} :
    require p cause >>= f = .ok b ↔ p ∧ f () = .ok b := by
  rw [bind_eq_ok_iff]
  exact ⟨fun ⟨_, hp, hf⟩ => ⟨require_eq_ok_iff.1 hp, hf⟩,
    fun ⟨hp, hf⟩ => ⟨(), require_eq_ok_iff.2 hp, hf⟩⟩

/-- A list of steps is accepted when each of them is. What holds of each result holds of the
list. -/
theorem exists_mapM_of_forall {f : α → Except ε β} {g : β → γ} {k : α → γ} {l : List α}
    (h : ∀ a ∈ l, ∃ b, f a = .ok b ∧ g b = k a) : ∃ bs, l.mapM f = .ok bs ∧ bs.map g = l.map k := by
  induction l with
  | nil => exact ⟨[], rfl, rfl⟩
  | cons a rest ih =>
    obtain ⟨b, hb, hgb⟩ := h a List.mem_cons_self
    obtain ⟨bs, hbs, hgbs⟩ := ih fun a' ha' => h a' (List.mem_cons_of_mem a ha')
    refine ⟨b :: bs, ?_, by rw [List.map_cons, List.map_cons, hgb, hgbs]⟩
    rw [List.mapM_cons, hb, hbs]
    rfl

namespace Signature

/-- The signature of given parameter and result types, refused if a parameter is void. -/
def ofTypes (params : List Ty) (ret : Ty) : Except CompositionError Signature :=
  if h : Ty.void ∈ params then .error (.voidParameter (params.idxOf .void) params)
  else .ok ⟨params, ret, h⟩

/-- A signature is made of exactly the types that it was asked for. -/
theorem ofTypes_eq_ok_iff {params : List Ty} {ret : Ty} {s : Signature} :
    ofTypes params ret = .ok s ↔ s.params = params ∧ s.ret = ret := by
  unfold ofTypes
  split
  case isTrue h =>
    refine ⟨fun h' => (nomatch h'), ?_⟩
    rintro ⟨rfl, -⟩
    exact absurd h s.noVoid
  case isFalse h =>
    rw [Except.ok.injEq]
    constructor
    · rintro rfl
      exact ⟨rfl, rfl⟩
    · obtain ⟨params', ret', _⟩ := s
      rintro ⟨rfl, rfl⟩
      rfl

/-- Types without void make a signature. -/
theorem ofTypes_of_notMem {params : List Ty} (h : Ty.void ∉ params) (ret : Ty) :
    ofTypes params ret = .ok ⟨params, ret, h⟩ :=
  ofTypes_eq_ok_iff.2 ⟨rfl, rfl⟩

end Signature

end Splice

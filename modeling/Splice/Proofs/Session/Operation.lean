import Splice.Closure.Application
import Splice.Closure.Arithmetic
import Splice.Closure.Array
import Splice.Closure.Record
import Splice.Proofs.Closure.Branching

/-!
# Operations on operands

Closures are made out of operands by operations that look at nothing else and open no scope. An
`Operation` is a call of one of them. What they have in common is `Operation.readsOnly`: the closure
that a call gives reads variables of its operands only.
-/

namespace Splice

/-- What an operation on operands is given. Functions of one value, tests, comparisons and the like
are native functions. -/
inductive Operation where
  | wire (h : Handle) (vars : List Var)
  | fold (h : Handle) (args : List Expr)
  | asClosure (e : Expr)
  | cast (c : Closure) (ty : Ty)
  | filterReturn (c : Closure) (filter : Handle)
  | constant (ty : Ty) (v : Value)
  | native (ret : Ty) (args : List Expr) (run : List Value → Exec Value)
  | same (a b : Expr)
  | equals (a b : Expr)
  | compare (a b : Expr)
  | hashCode (a : Expr)
  | isNull (a : Expr)
  | isNotNull (a : Expr)
  | instanceOf (a : Expr) (ty : Ty)
  | plus (a b : Expr)
  | mul (a b : Expr)
  | toText (a : Expr)
  | throwing (ret : Ty) (error : Expr)
  | newInstance (s : Schema) (args : List Expr)
  | getField (s : Schema) (name : String) (object : Expr)
  | setField (s : Schema) (name : String) (object value : Expr)
  | instanceOfSchema (a : Expr) (s : Schema)
  | newArray (elem : Ty) (length : Expr)
  | arrayLength (array : Expr)
  | getElement (array index : Expr)
  | setElement (array index value : Expr)
  | arrayCopyOf (array length : Expr)
  | negation (a : Expr)
  | conj (a b : Expr)
  | disj (a b : Expr)
  | allOf (args : List Expr)
  | anyOf (args : List Expr)

namespace Operation

/-- The call itself. -/
def run : Operation → Except CompositionError Closure
  | wire h vars => Closure.wire h vars
  | fold h args => Closure.fold h args
  | asClosure e => e.asClosure
  | cast c ty => c.cast ty
  | filterReturn c filter => c.filterReturn filter
  | constant ty v => Closure.constantTyped ty v
  | native ret args run => Closure.native ret args run
  | same a b => Closure.same a b
  | equals a b => Closure.equals a b
  | compare a b => Closure.compare a b
  | hashCode a => Closure.hashCode a
  | isNull a => Closure.isNull a
  | isNotNull a => Closure.isNotNull a
  | instanceOf a ty => Closure.instanceOf a ty
  | plus a b => Closure.plus a b
  | mul a b => Closure.mul a b
  | toText a => Closure.toText a
  | throwing ret error => Closure.throwing ret error
  | newInstance s args => Closure.newInstance s args
  | getField s name object => Closure.getField s name object
  | setField s name object value => Closure.setField s name object value
  | instanceOfSchema a s => Closure.instanceOfSchema a s
  | newArray elem length => Closure.newArray elem length
  | arrayLength array => Closure.arrayLength array
  | getElement array index => Closure.getElement array index
  | setElement array index value => Closure.setElement array index value
  | arrayCopyOf array length => Closure.arrayCopyOf array length
  | negation a => Closure.negation a
  | conj a b => Closure.conj a b
  | disj a b => Closure.disj a b
  | allOf args => Closure.allOf args
  | anyOf args => Closure.anyOf args

def operands : Operation → List Expr
  | wire _ vars => vars.map Expr.var
  | fold _ args | native _ args _ | newInstance _ args | allOf args | anyOf args => args
  | cast c _ | filterReturn c _ => [.closure c]
  | constant _ _ => []
  | asClosure a | hashCode a | isNull a | isNotNull a | instanceOf a _ | toText a | throwing _ a
  | getField _ _ a | instanceOfSchema a _ | newArray _ a | arrayLength a | negation a => [a]
  | same a b | equals a b | compare a b | plus a b | mul a b | setField _ _ a b | getElement a b
  | arrayCopyOf a b | conj a b | disj a b => [a, b]
  | setElement a b c => [a, b, c]

end Operation

/-! ## Closures over given variables -/

/-- A closure, if there is one, reads given variables only. -/
def Closure.ReadsOnly (vars : Var → Prop) (result : Except CompositionError Closure) : Prop :=
  ∀ c, result = .ok c → ∀ v ∈ c.args, vars v

/-- Operands mention given variables only. -/
def Expr.MentionOnly (vars : Var → Prop) (args : List Expr) : Prop :=
  ∀ e ∈ args, ∀ v ∈ e.vars, vars v

namespace Closure.ReadsOnly

variable {vars : Var → Prop} {args : List Expr}

/-- It makes no difference what is asked before the closure is made. -/
theorem bind {x : Except CompositionError α} {f : α → Except CompositionError Closure}
    (h : ∀ a, ReadsOnly vars (f a)) : ReadsOnly vars (x >>= f) := by
  intro c hc
  obtain ⟨a, -, hc⟩ := bind_eq_ok_iff.1 hc
  exact h a c hc

/-- A closure that is made on the way may be an operand. -/
theorem bind_closure {r : Except CompositionError Closure}
    {f : Closure → Except CompositionError Closure} (hr : ReadsOnly vars r)
    (h : ∀ d : Closure, (∀ v ∈ d.args, vars v) → ReadsOnly vars (f d)) :
    ReadsOnly vars (r >>= f) := by
  intro c hc
  obtain ⟨d, hd, hc⟩ := bind_eq_ok_iff.1 hc
  exact h d (hr d hd) c hc

/-- A handle applied to operands reads what they read. -/
theorem fold {h : Handle} (hargs : Expr.MentionOnly vars args) :
    ReadsOnly vars (Closure.fold h args) := by
  intro c hc v hv
  obtain ⟨d, hd, hdargs, -⟩ := exists_fold (require_bind_eq_ok_iff.1 hc).1
  obtain rfl := Except.ok.inj (hc.symm.trans hd)
  rw [hdargs, List.mem_eraseDups] at hv
  obtain ⟨e, he, hv⟩ := List.mem_flatMap.1 hv
  exact hargs e he v hv

/-- A handle on chosen variables reads just these. -/
theorem wire {h : Handle} {args : List Var} (hargs : ∀ v ∈ args, vars v) :
    ReadsOnly vars (Closure.wire h args) := by
  intro c hc v hv
  rw [(wire_eq_ok_iff.1 hc).2] at hv
  exact hargs v hv

/-- An operand as a closure reads what the operand mentions. -/
theorem asClosure {e : Expr} (he : ∀ v ∈ e.vars, vars v) : ReadsOnly vars e.asClosure := by
  intro c hc v hv
  rw [(Expr.asClosure_eq_ok hc).2] at hv
  exact he v (List.mem_filter.1 hv).1

/-- A cast reads what the closure under it reads. -/
theorem cast {c : Closure} {ty : Ty} (hc : ∀ v ∈ c.args, vars v) : ReadsOnly vars (c.cast ty) := by
  intro d hd
  unfold Closure.cast at hd
  -- a cast to the same type is the closure itself
  split at hd
  · obtain rfl := Except.ok.inj hd
    exact hc
  · exact bind (fun _ => wire hc) d hd

/-- A typed constant reads nothing. -/
theorem constantTyped {ty : Ty} {v : Value} : ReadsOnly vars (Closure.constantTyped ty v) := by
  unfold Closure.constantTyped
  split
  · exact bind fun _ => wire nofun
  · exact bind fun _ => wire nofun

/-- A constant reads nothing. -/
theorem constant (v : Value) : ReadsOnly vars (Closure.constant v) := constantTyped

/-- A native function applied to operands reads what they read. -/
theorem native {ret : Ty} {run : List Value → Exec Value} (hargs : Expr.MentionOnly vars args) :
    ReadsOnly vars (Closure.native ret args run) := bind fun _ => fold hargs

/-- A conditional reads what its three operands read. -/
theorem ifThenElse {cond accept reject : Expr}
    (hargs : Expr.MentionOnly vars [cond, accept, reject]) :
    ReadsOnly vars (Closure.ifThenElse cond accept reject) := by
  intro c hc v hv
  obtain ⟨hcond, hbranches⟩ := types_of_ifThenElse hc
  obtain ⟨d, hd, -, hselects⟩ := exists_ifThenElse hcond hbranches
  obtain rfl := Except.ok.inj (hc.symm.trans hd)
  obtain ⟨e, he, hv⟩ := List.mem_flatMap.1 ((hselects.args_first.mem_iff v).1 hv)
  exact hargs e he v (List.mem_filter.1 hv).1

/-- A conjunction reads what its operands read. -/
theorem conj {a b : Expr} (hargs : Expr.MentionOnly vars [a, b]) :
    ReadsOnly vars (Closure.conj a b) := by
  obtain ⟨ha, hb⟩ := List.forall_mem_cons.1 hargs
  have hb := List.forall_mem_singleton.1 hb
  exact bind_closure (constant _) fun d hd => ifThenElse
    (List.forall_mem_cons.2 ⟨ha, List.forall_mem_cons.2 ⟨hb, List.forall_mem_singleton.2 hd⟩⟩)

/-- A disjunction reads what its operands read. -/
theorem disj {a b : Expr} (hargs : Expr.MentionOnly vars [a, b]) :
    ReadsOnly vars (Closure.disj a b) := by
  obtain ⟨ha, hb⟩ := List.forall_mem_cons.1 hargs
  exact bind_closure (constant _) fun d hd => ifThenElse
    (List.forall_mem_cons.2 ⟨ha, List.forall_mem_cons.2 ⟨hd, hb⟩⟩)

/-- A conjunction of a list reads what the operands in the list read. -/
theorem allOf (hargs : Expr.MentionOnly vars args) : ReadsOnly vars (Closure.allOf args) := by
  -- the conjunction of the operands behind the first one is an operand itself
  induction args with
  | nil => exact constant _
  | cons a rest ih =>
    obtain ⟨ha, hrest⟩ := List.forall_mem_cons.1 hargs
    cases rest with
    | nil => exact asClosure ha
    | cons b rest =>
      exact bind_closure (ih hrest) fun d hd =>
        conj (List.forall_mem_cons.2 ⟨ha, List.forall_mem_singleton.2 hd⟩)

/-- A disjunction of a list reads what the operands in the list read. -/
theorem anyOf (hargs : Expr.MentionOnly vars args) : ReadsOnly vars (Closure.anyOf args) := by
  induction args with
  | nil => exact constant _
  | cons a rest ih =>
    obtain ⟨ha, hrest⟩ := List.forall_mem_cons.1 hargs
    cases rest with
    | nil => exact asClosure ha
    | cons b rest =>
      exact bind_closure (ih hrest) fun d hd =>
        disj (List.forall_mem_cons.2 ⟨ha, List.forall_mem_singleton.2 hd⟩)

end Closure.ReadsOnly

open Closure.ReadsOnly in
/-- An operation reads what its operands mention. -/
theorem Operation.readsOnly {vars : Var → Prop} (op : Operation)
    (hargs : Expr.MentionOnly vars op.operands) : Closure.ReadsOnly vars op.run := by
  cases op with
  | wire h args =>
    refine .wire fun v hv => hargs (.var v) (List.mem_map_of_mem hv) v ?_
    exact List.mem_singleton.2 rfl
  | fold h args => exact .fold hargs
  | asClosure e => exact .asClosure (List.forall_mem_singleton.1 hargs)
  | cast c ty => exact .cast (List.forall_mem_singleton.1 hargs)
  | filterReturn c filter => exact .bind fun _ => .wire (List.forall_mem_singleton.1 hargs)
  | constant ty v => exact .constantTyped
  | native ret args run => exact .native hargs
  | same a b => exact .bind fun _ => .native hargs
  | equals a b => exact .bind fun _ => .native hargs
  | compare a b => exact .bind fun _ => .native hargs
  | hashCode a => exact .native hargs
  | isNull a => exact .bind fun _ => .native hargs
  | isNotNull a => exact .bind fun _ => .native hargs
  | instanceOf a ty => exact .native hargs
  | plus a b => exact .bind fun _ => .bind fun _ => .native hargs
  | mul a b => exact .bind fun _ => .bind fun _ => .native hargs
  | toText a => exact .native hargs
  | throwing ret error => exact .bind fun _ => .fold hargs
  | newInstance s args => exact .bind fun _ => .fold hargs
  | getField s name object => exact .bind fun _ => .bind fun _ => .fold hargs
  | setField s name object value => exact .bind fun _ => .bind fun _ => .fold hargs
  | instanceOfSchema a s => exact .native hargs
  | newArray elem length => exact .bind fun _ => .fold hargs
  | arrayLength array => exact .bind fun _ => .bind fun _ => .fold hargs
  | getElement array index => exact .bind fun _ => .bind fun _ => .fold hargs
  | setElement array index value => exact .bind fun _ => .bind fun _ => .fold hargs
  | arrayCopyOf array length => exact .bind fun _ => .bind fun _ => .fold hargs
  | negation a => exact .native hargs
  | conj a b => exact .conj hargs
  | disj a b => exact .disj hargs
  | allOf args => exact .allOf hargs
  | anyOf args => exact .anyOf hargs

end Splice

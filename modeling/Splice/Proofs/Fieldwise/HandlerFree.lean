import Splice.Fieldwise.Columns
import Splice.Fieldwise.Equality
import Splice.Fieldwise.Order
import Splice.Fieldwise.Text
import Splice.Fieldwise.Totals
import Splice.Proofs.Scope.HandlerFree

/-!
# Operations on whole records without handlers

No handler and no cleanup is in what is composed from the field list of a schema: equality, hash
codes, order, written forms, totals, and the access to records that are kept in columns.
-/

namespace Splice

open Closure

/-- A statement that runs an operation. -/
theorem Scoped.Keeps.operation_bind (op : Operation) (hgiven : ∀ h ∈ op.given, h.HandlerFree)
    (hargs : ∀ e ∈ op.operands, e.HandlerFree) {next : Var → Scoped α} {P : α → Prop}
    (hnext : ∀ v, (next v).Keeps P) :
    Scoped.Keeps P (liftM op.run >>= fun c : Closure => Scoped.assign c >>= next) :=
  .lift_bind (op.handlerFree hgiven hargs) fun c hc =>
    (Scoped.Keeps.assign (e := .closure c) hc).bind fun v _ => hnext v


namespace Fieldwise

variable (s : Schema)

/-- A field is read natively. -/
theorem handlerFree_getField (name : String) (v : Var) :
    Results Closure.HandlerFree (getField s name v) :=
  Operation.handlerFree (.getField s name v) nofun (List.forall_mem_singleton.2 trivial)

/-- Fields are compared in a block, by operations only. -/
theorem handlerFree_fieldsEqual (this that : Var) :
    Compose.Results Closure.HandlerFree (fieldsEqual s this that) := by
  refine Scoped.handlerFree_block ?_
  refine .lift_bind (handlerFree_varAsClosure that) fun c hc =>
    .lift_bind (handlerFree_cast hc _) fun c hc =>
      (Scoped.Keeps.assign (e := .closure c) hc).bind fun other _ => ?_
  have hfields : Scoped.Keeps (fun cs => ∀ c ∈ cs, Closure.HandlerFree c)
      (s.fields.mapM fun field => do
        Closure.equals (← getField s field.name this) (← getField s field.name other)) := 
    .mapM (fun field => .lift_bind (handlerFree_getField s _ _) fun a ha =>
      .lift_bind (handlerFree_getField s _ _) fun b hb => .lift <|
        Operation.handlerFree (.equals a b) nofun
          (List.forall_mem_cons.2 ⟨ha, List.forall_mem_singleton.2 hb⟩)) _
  refine hfields.bind fun cs hcs => .lift_bind (handlerFree_allOf ?_) fun c hc => .pure hc
  exact List.forall_mem_map.2 hcs

/-- The three tests of equality are operations, and so is their chain. -/
theorem handlerFree_equalsClosure (this that : Var) :
    Compose.Results Closure.HandlerFree (equalsClosure s this that) := by
  refine .bind (handlerFree_fieldsEqual s this that) fun allEqual hall =>
    .lift_bind (handlerFree_varAsClosure that) fun c hc =>
      .lift_bind (handlerFree_cast hc _) fun cast hcast => ?_
  refine .lift_bind (Operation.handlerFree (.same this cast) nofun
    (List.forall_mem_cons.2 ⟨trivial, List.forall_mem_singleton.2 hcast⟩)) fun same hsame => ?_
  refine .lift_bind (Operation.handlerFree (.instanceOfSchema that s) nofun
    (List.forall_mem_singleton.2 trivial)) fun isInstance hinstance => ?_
  refine .lift_bind (handlerFree_disj
    (List.forall_mem_cons.2 ⟨hsame, List.forall_mem_singleton.2 hall⟩)) fun either heither => ?_
  exact .lift (handlerFree_allOf
    (List.forall_mem_cons.2 ⟨hinstance, List.forall_mem_singleton.2 heither⟩))

/-- Equality is a function of operations. -/
theorem handlerFree_equals : Compose.Results Handle.HandlerFree (equals s) :=
  Scoped.handlerFree_function <| (Scoped.Keeps.addParam _).bind fun this _ =>
    (Scoped.Keeps.addParam _).bind fun that _ =>
      (Scoped.Keeps.within (handlerFree_equalsClosure s this that)).bind fun _ hc => .pure hc

/-- Each field adds four operations to the hash. -/
theorem handlerFree_mixFields (this : Var) (fields : List Field) {start : Closure}
    (hstart : start.HandlerFree) :
    Results Closure.HandlerFree (mixFields s this fields start) := by
  induction fields generalizing start with
  | nil => exact .ok hstart
  | cons field rest ih =>
    unfold mixFields at ih ⊢
    rw [List.foldlM_cons]
    refine .bind (Q := Closure.HandlerFree) ?_ fun _ hmixed => ih hmixed
    refine .bind (handlerFree_getField s _ _) fun value hvalue =>
      .bind (Operation.handlerFree (.hashCode value) nofun
        (List.forall_mem_singleton.2 hvalue)) fun hash hhash =>
          .bind (handlerFree_constant _) fun factor hfactor => ?_
    refine .bind (Operation.handlerFree (.mul start factor) nofun
      (List.forall_mem_cons.2 ⟨hstart, List.forall_mem_singleton.2 hfactor⟩))
        fun shifted hshifted => ?_
    exact Operation.handlerFree (.plus shifted hash) nofun
      (List.forall_mem_cons.2 ⟨hshifted, List.forall_mem_singleton.2 hhash⟩)

/-- The hash of a record starts from a constant. -/
theorem handlerFree_hashClosure (this : Var) :
    Results Closure.HandlerFree (hashClosure s this) :=
  .bind (handlerFree_constant _) fun _ hstart => handlerFree_mixFields s this s.fields hstart

/-- Hashing is a function of operations. -/
theorem handlerFree_hashCode : Compose.Results Handle.HandlerFree (hashCode s) :=
  Scoped.handlerFree_function <| (Scoped.Keeps.addParam _).bind fun this _ =>
    .lift_bind (handlerFree_hashClosure s this) fun _ hc => .pure hc

/-- The comparison of a field is a block, with that of the later fields as a branch. -/
theorem handlerFree_compareFields (this that : Var) (fields : List Field) :
    Compose.Results Closure.HandlerFree (compareFields s this that fields) := by
  induction fields with
  | nil => exact .lift (handlerFree_constant _)
  | cons field rest ih =>
    refine .bind ih fun later hlater => Scoped.handlerFree_block ?_
    refine .lift_bind (handlerFree_getField s _ _) fun a ha =>
      .lift_bind (handlerFree_getField s _ _) fun b hb =>
        .lift_bind (Operation.handlerFree (.compare a b) nofun
          (List.forall_mem_cons.2 ⟨ha, List.forall_mem_singleton.2 hb⟩)) fun c hc => ?_
    refine (Scoped.Keeps.assign (e := .closure c) hc).bind fun result _ =>
      .lift_bind (handlerFree_constant _) fun zero hzero =>
        .lift_bind (Operation.handlerFree (.equals result zero) nofun
          (List.forall_mem_cons.2 ⟨trivial, List.forall_mem_singleton.2 hzero⟩)) fun tie htie => ?_
    exact .lift_bind (handlerFree_ifThenElse (List.forall_mem_cons.2
      ⟨htie, List.forall_mem_cons.2 ⟨hlater, List.forall_mem_singleton.2 trivial⟩⟩))
        fun _ hc => .pure hc

/-- Sameness comes before the comparison of the fields. -/
theorem handlerFree_compareClosure (this that : Var) :
    Compose.Results Closure.HandlerFree (compareClosure s this that) := by
  refine .bind (handlerFree_compareFields s this that s.fields) fun later hlater =>
    .lift_bind (Operation.handlerFree (.same this that) nofun
      (List.forall_mem_cons.2 ⟨trivial, List.forall_mem_singleton.2 trivial⟩)) fun same hsame =>
        .lift_bind (handlerFree_constant _) fun zero hzero => ?_
  exact .lift (handlerFree_ifThenElse (List.forall_mem_cons.2
    ⟨hsame, List.forall_mem_cons.2 ⟨hzero, List.forall_mem_singleton.2 hlater⟩⟩))

/-- Comparison is a function of operations. -/
theorem handlerFree_compare : Compose.Results Handle.HandlerFree (compare s) :=
  Scoped.handlerFree_function <| (Scoped.Keeps.addParam _).bind fun this _ =>
    (Scoped.Keeps.addParam _).bind fun that _ =>
      (Scoped.Keeps.within (handlerFree_compareClosure s this that)).bind fun _ hc => .pure hc

/-- Each field adds two statements to the written form. -/
theorem handlerFree_appendFields (this : Var) (separator : String) (fields : List Field)
    (text : Var) : (appendFields s this separator fields text).Keeps fun _ => True := by
  induction fields generalizing separator text with
  | nil => exact .pure trivial
  | cons field rest ih =>
    refine .lift_bind (handlerFree_constant _) fun label hlabel => ?_
    refine Scoped.Keeps.operation_bind (.plus text label) nofun
      (List.forall_mem_cons.2 ⟨trivial, List.forall_mem_singleton.2 hlabel⟩) fun text => ?_
    refine .lift_bind (handlerFree_getField s _ _) fun value hvalue =>
      .lift_bind (Operation.handlerFree (.toText value) nofun
        (List.forall_mem_singleton.2 hvalue)) fun value hvalue => ?_
    exact Scoped.Keeps.operation_bind (.plus text value) nofun
      (List.forall_mem_cons.2 ⟨trivial, List.forall_mem_singleton.2 hvalue⟩) fun text => ih _ text

/-- The written form is a function of operations. -/
theorem handlerFree_toText : Compose.Results Handle.HandlerFree (toText s) := by
  refine Scoped.handlerFree_function <| (Scoped.Keeps.addParam _).bind fun this _ =>
    .lift_bind (handlerFree_constant _) fun c hc =>
      (Scoped.Keeps.assign (e := .closure c) hc).bind fun text _ =>
        (handlerFree_appendFields s this _ _ text).bind fun text _ =>
          .lift_bind (handlerFree_constant _) fun brace hbrace => ?_
  exact .lift_bind (Operation.handlerFree (.plus text brace) nofun
    (List.forall_mem_cons.2 ⟨trivial, List.forall_mem_singleton.2 hbrace⟩)) fun _ hc => .pure hc

/-- Each field adds two statements to the sum. -/
theorem handlerFree_addFields (data : Var) (fields : List Field) (sum : Var) :
    (addFields s data fields sum).Keeps fun _ => True := by
  induction fields generalizing sum with
  | nil => exact .pure trivial
  | cons field rest ih =>
    refine Scoped.Keeps.operation_bind (.getField s field.name data) nofun
      (List.forall_mem_singleton.2 trivial) fun value => ?_
    exact Scoped.Keeps.operation_bind (.plus sum value) nofun
      (List.forall_mem_cons.2 ⟨trivial, List.forall_mem_singleton.2 trivial⟩) ih

/-- The sum of all fields is a function of operations. -/
theorem handlerFree_sumFields : Compose.Results Handle.HandlerFree (sumFields s) :=
  Scoped.handlerFree_function <| (Scoped.Keeps.addParam _).bind fun data _ =>
    .lift_bind (handlerFree_constant _) fun c hc =>
      (Scoped.Keeps.assign (e := .closure c) hc).bind fun sum _ =>
        (handlerFree_addFields s data _ sum).bind fun total _ => .pure (a := Expr.var total) trivial

/-- Adding records up is a function of operations. -/
theorem handlerFree_addCounters : Compose.Results Handle.HandlerFree (addCounters s) := by
  refine Scoped.handlerFree_function <| (Scoped.Keeps.addParam _).bind fun total _ =>
    (Scoped.Keeps.addParam _).bind fun delta _ =>
      (Scoped.Keeps.forM (fun field => ?_) _).bind fun _ _ =>
        .lift_bind handlerFree_constantVoid fun _ hc => .pure hc
  refine .lift_bind (handlerFree_getField s _ _) fun a ha =>
    .lift_bind (handlerFree_getField s _ _) fun b hb =>
      .lift_bind (Operation.handlerFree (.plus a b) nofun
        (List.forall_mem_cons.2 ⟨ha, List.forall_mem_singleton.2 hb⟩)) fun sum hsum => ?_
  exact Scoped.Keeps.operation_bind (.setField s field.name total sum) nofun
    (List.forall_mem_cons.2 ⟨trivial, List.forall_mem_singleton.2 hsum⟩) fun _ => .pure trivial

end Fieldwise

namespace ColumnAccess

/-- A column is read and cast by operations. -/
theorem keeps_column (columns position : Var) (ty : Ty) :
    (column columns position ty).Keeps fun _ => True :=
  .lift_bind (Operation.handlerFree (.getElement columns position) nofun
    (List.forall_mem_cons.2 ⟨trivial, List.forall_mem_singleton.2 trivial⟩)) fun _ hc =>
      .lift_bind (handlerFree_cast hc _) fun c hc => Scoped.Keeps.assign (e := .closure c) hc

/-- The position of a column is a constant. -/
theorem keeps_positionVar (position : Nat) : (positionVar position).Keeps fun _ => True :=
  .lift_bind (handlerFree_constant _) fun c hc => Scoped.Keeps.assign (e := .closure c) hc

variable (s : Schema)

/-- Reading from columns is a function of operations. -/
theorem handlerFree_composeRead : Compose.Results Handle.HandlerFree (composeRead s) := by
  refine Scoped.handlerFree_function <| (Scoped.Keeps.addParam _).bind fun columns _ =>
    (Scoped.Keeps.addParam _).bind fun index _ =>
      (Scoped.Keeps.mapM (Q := fun _ => True) (fun i => ?_) _).bind fun values _ => ?_
  · refine (keeps_positionVar i.2).bind fun position _ =>
      (keeps_column columns position i.1.ty).bind fun array _ => ?_
    exact .lift_bind (Operation.handlerFree (.getElement array index) nofun
      (List.forall_mem_cons.2 ⟨trivial, List.forall_mem_singleton.2 trivial⟩)) fun c hc =>
        Scoped.Keeps.assign (e := .closure c) hc
  · refine .lift_bind (Operation.handlerFree (.newInstance s (values.map Expr.var)) nofun
      fun e he => ?_) fun _ hc => .pure hc
    obtain ⟨v, -, rfl⟩ := List.mem_map.1 he
    exact trivial

/-- Writing to columns is a function of operations. -/
theorem handlerFree_composeWrite : Compose.Results Handle.HandlerFree (composeWrite s) := by
  refine Scoped.handlerFree_function <| (Scoped.Keeps.addParam _).bind fun columns _ =>
    (Scoped.Keeps.addParam _).bind fun index _ => (Scoped.Keeps.addParam _).bind fun record _ =>
      (Scoped.Keeps.forM (fun i => ?_) _).bind fun _ _ =>
        .lift_bind handlerFree_constantVoid fun _ hc => .pure hc
  refine (keeps_positionVar i.2).bind fun position _ =>
    (keeps_column columns position i.1.ty).bind fun array _ => ?_
  refine .operation_bind (.getField s i.1.name record) nofun
    (List.forall_mem_singleton.2 trivial) fun value => ?_
  exact .operation_bind (.setElement array index value) nofun
    (List.forall_mem_cons.2 ⟨trivial, List.forall_mem_cons.2 ⟨trivial,
      List.forall_mem_singleton.2 trivial⟩⟩) fun _ => .pure trivial

/-- Replacing columns by copies is a function of operations. -/
theorem handlerFree_composeResize : Compose.Results Handle.HandlerFree (composeResize s) := by
  refine Scoped.handlerFree_function <| (Scoped.Keeps.addParam _).bind fun columns _ =>
    (Scoped.Keeps.addParam _).bind fun capacity _ =>
      (Scoped.Keeps.forM (fun i => ?_) _).bind fun _ _ =>
        .lift_bind handlerFree_constantVoid fun _ hc => .pure hc
  refine (keeps_positionVar i.2).bind fun position _ =>
    (keeps_column columns position i.1.ty).bind fun array _ => ?_
  refine .lift_bind (Operation.handlerFree (.arrayCopyOf array capacity) nofun
    (List.forall_mem_cons.2 ⟨trivial, List.forall_mem_singleton.2 trivial⟩)) fun copy hcopy =>
      .lift_bind (handlerFree_cast hcopy _) fun c hc =>
        (Scoped.Keeps.assign (e := .closure c) hc).bind fun resized _ => ?_
  exact .operation_bind (.setElement columns position resized) nofun
    (List.forall_mem_cons.2 ⟨trivial, List.forall_mem_cons.2 ⟨trivial,
      List.forall_mem_singleton.2 trivial⟩⟩) fun _ => .pure trivial

end ColumnAccess

end Splice

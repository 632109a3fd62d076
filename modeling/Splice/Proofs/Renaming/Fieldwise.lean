import Splice.Fieldwise.Columns
import Splice.Fieldwise.Equality
import Splice.Fieldwise.Order
import Splice.Fieldwise.Text
import Splice.Fieldwise.Totals
import Splice.Proofs.Renaming.Step

/-!
# Operations on whole records under renaming

What is composed from the field list of a schema is the same whatever identities its scopes have:
one handle, and one closure over variables that stand for each other.
-/

namespace Splice

open Renaming (SameVar SameClosure SameExpr SameScope)

/-- A matched variable is a matched operand. -/
theorem Renaming.SameVar.expr {ρ : Renaming} {v v' : Var} (hv : ρ.SameVar v v') :
    ρ.SameExpr (.var v) (.var v') := hv

/-- A matched closure is a matched operand. -/
theorem Matching.SameClosure.expr {M : Matching} {c c' : Closure} (hc : M.SameClosure c c') :
    M.SameExpr (.closure c) (.closure c') := hc

/-- Matched closures are matched operands. -/
theorem Matching.exprs_of_closures {M : Matching} {cs cs' : List Closure}
    (h : List.Forall₂ M.SameClosure cs cs') :
    List.Forall₂ M.SameExpr (cs.map Expr.closure) (cs'.map Expr.closure) := by
  rw [List.forall₂_map_left_iff, List.forall₂_map_right_iff]
  exact h

namespace Fieldwise

variable (s : Schema) {ρ : Renaming} {this this' that that' : Var}

/-! ## Equality and hash codes -/

/-- The comparison of all fields is one block over matched variables. -/
theorem sameRun_fieldsEqual (hthis : ρ.SameVar this this') (hthat : ρ.SameVar that that') :
    SameRun SameSupply ρ SameClosure (fieldsEqual s this that) (fieldsEqual s this' that') := by
  refine SameSteps.block fun ρ₁ hρ₁ => ?_
  -- the block is a scope of its own, so the renaming has grown
  have hthis := hthis.mono hρ₁
  have hthat := hthat.mono hρ₁
  refine .bind_lift (Matching.varAsClosure hthat) fun c c' hc =>
    .bind_lift (Matching.cast hc _) fun c c' hc =>
      SameSteps.assign_bind hc.expr fun other other' hother => ?_
  -- the comparisons of the fields, in the order of the schema
  refine .bind (Q := fun ρ => List.Forall₂ ρ.SameClosure) ?_ fun ρ₂ _ cs cs' hcs => ?_
  · exact SameSteps.mapM (fun _ _ _ _ hρ h => SameClosure.mono h hρ) fun ρ₂ hρ₂ field =>
      .bind_lift (Matching.getField s _ (hthis.mono hρ₂).expr) fun a a' ha =>
        .bind_lift (Matching.getField s _ (hother.mono hρ₂).expr) fun b b' hb =>
          .lift (Matching.equals ha hb)
  · exact .bind_lift (Matching.allOf (Matching.exprs_of_closures hcs)) fun _ _ hc => .pure hc

/-- The three tests of equality are the same, and so is their chain. -/
theorem sameRun_equalsClosure (hthis : ρ.SameVar this this') (hthat : ρ.SameVar that that') :
    SameRun SameSupply ρ SameClosure (equalsClosure s this that) (equalsClosure s this' that') := by
  refine .bind (sameRun_fieldsEqual s hthis hthat) fun ρ₁ hρ₁ allEqual allEqual' hall => ?_
  have hthis := hthis.mono hρ₁
  have hthat := hthat.mono hρ₁
  refine .bind_lift (Matching.varAsClosure hthat) fun c c' hc =>
    .bind_lift (Matching.cast hc _) fun c c' hc =>
      .bind_lift (Matching.same hthis.expr hc.expr) fun same same' hsame => ?_
  refine .bind_lift (Matching.unary _ _ hthat.expr) fun isInstance isInstance' hinstance =>
    .bind_lift (Matching.disj hsame.expr hall.expr) fun either either' heither => ?_
  exact .lift (Matching.allOf (.cons hinstance (.cons heither .nil)))

/-- Equality is one function. -/
theorem sameRun_equals : SameRun SameSupply ρ (fun _ => Eq) (equals s) (equals s) :=
  SameSteps.function fun _ _ => SameSteps.addParam_bind fun _ _ hthis =>
    SameSteps.addParam_bind fun _ _ hthat =>
      (SameSteps.compose (sameRun_equalsClosure s hthis hthat)).bind fun _ _ _ _ hc => .pure hc

/-- A step of the hash is the same for each field, so the hash of all fields is. -/
theorem same_mixFields (hthis : ρ.SameVar this this') (fields : List Field) {start start' : Closure}
    (hstart : ρ.SameClosure start start') :
    ρ.matching.SameClosures (mixFields s this fields start) (mixFields s this' fields start') := by
  induction fields generalizing start start' with
  | nil => exact .ok hstart
  | cons field rest ih =>
    unfold mixFields at ih ⊢
    rw [List.foldlM_cons, List.foldlM_cons]
    refine .bind (Q := ρ.SameClosure) ?_ fun _ _ hmixed => ih hmixed
    exact .bind (Matching.getField s _ hthis.expr) fun _ _ hvalue =>
      .bind (Matching.unary _ _ hvalue.expr) fun _ _ hhash =>
        .bind (Matching.constant _) fun _ _ hfactor =>
          .bind (Matching.mul hstart.expr hfactor.expr) fun _ _ hshifted =>
            Matching.plus hshifted.expr hhash.expr

/-- The hash of a record starts from a constant. -/
theorem same_hashClosure (hthis : ρ.SameVar this this') :
    ρ.matching.SameClosures (hashClosure s this) (hashClosure s this') :=
  .bind (Matching.constant _) fun _ _ hstart => same_mixFields s hthis s.fields hstart

/-- Hashing is one function. -/
theorem sameRun_hashCode : SameRun SameSupply ρ (fun _ => Eq) (hashCode s) (hashCode s) :=
  SameSteps.function fun _ _ => SameSteps.addParam_bind fun _ _ hthis =>
    .bind_lift (same_hashClosure s hthis) fun _ _ hc => .pure hc

/-! ## Order -/

/-- The comparison is composed from the last field backwards, each field a block of its own. -/
theorem sameRun_compareFields (hthis : ρ.SameVar this this') (hthat : ρ.SameVar that that')
    (fields : List Field) : SameRun SameSupply ρ SameClosure (compareFields s this that fields)
      (compareFields s this' that' fields) := by
  induction fields with
  | nil => exact .lift (Matching.constant _)
  | cons field rest ih =>
    -- what compares the later fields is composed first and stands in this block as a branch
    refine .bind ih fun ρ₁ hρ₁ later later' hlater => SameSteps.block fun ρ₂ hρ₂ => ?_
    have hthis := (hthis.mono hρ₁).mono hρ₂
    have hthat := (hthat.mono hρ₁).mono hρ₂
    have hlater := SameClosure.mono hlater hρ₂
    refine .bind_lift (Matching.getField s _ hthis.expr) fun a a' ha =>
      .bind_lift (Matching.getField s _ hthat.expr) fun b b' hb =>
        .bind_lift (Matching.compare ha.expr hb.expr) fun c c' hc =>
          SameSteps.assign_bind hc.expr fun result result' hresult => ?_
    exact .bind_lift (Matching.constant _) fun _ _ hzero =>
      .bind_lift (Matching.equals hresult.expr hzero.expr) fun _ _ htie =>
        .bind_lift (Matching.ifThenElse htie.expr hlater.expr hresult.expr) fun _ _ hc => .pure hc

/-- Sameness comes before the comparison of the fields. -/
theorem sameRun_compareClosure (hthis : ρ.SameVar this this') (hthat : ρ.SameVar that that') :
    SameRun SameSupply ρ SameClosure (compareClosure s this that) (compareClosure s this' that') :=
  .bind (sameRun_compareFields s hthis hthat s.fields) fun _ hρ _ _ hlater =>
    .bind_lift (Matching.same (hthis.mono hρ).expr (hthat.mono hρ).expr) fun _ _ hsame =>
      .bind_lift (Matching.constant _) fun _ _ hzero =>
        .lift (Matching.ifThenElse hsame.expr hzero.expr hlater.expr)

/-- Comparison is one function. -/
theorem sameRun_compare : SameRun SameSupply ρ (fun _ => Eq) (compare s) (compare s) :=
  SameSteps.function fun _ _ => SameSteps.addParam_bind fun _ _ hthis =>
    SameSteps.addParam_bind fun _ _ hthat =>
      (SameSteps.compose (sameRun_compareClosure s hthis hthat)).bind fun _ _ _ _ hc => .pure hc

/-! ## Written forms and totals -/

/-- Each field is appended to the text so far, which is a variable of the scope. -/
theorem sameSteps_appendFields (hthis : ρ.SameVar this this') (separator : String)
    (fields : List Field) {text text' : Var} (htext : ρ.SameVar text text') :
    SameSteps ρ SameVar (appendFields s this separator fields text)
      (appendFields s this' separator fields text') := by
  induction fields generalizing separator text text' with
  | nil => exact .pure htext
  | cons field rest ih =>
    refine .bind_lift (Matching.constant _) fun _ _ hlabel =>
      .bind_lift (Matching.plus htext.expr hlabel.expr) fun c c' hc =>
        SameSteps.assign_bind hc.expr fun text text' htext => ?_
    refine .bind_lift (Matching.getField s _ hthis.expr) fun _ _ hvalue =>
      .bind_lift (Matching.unary _ _ hvalue.expr) fun _ _ hvalue =>
        .bind_lift (Matching.plus htext.expr hvalue.expr) fun c c' hc => ?_
    exact SameSteps.assign_bind hc.expr fun text text' htext => ih _ htext

/-- The written form is one function. -/
theorem sameRun_toText : SameRun SameSupply ρ (fun _ => Eq) (toText s) (toText s) := by
  refine SameSteps.function fun _ _ => SameSteps.addParam_bind fun this this' hthis =>
    .bind_lift (Matching.constant _) fun c c' hc =>
      SameSteps.assign_bind hc.expr fun text text' htext => ?_
  exact (sameSteps_appendFields s hthis _ _ htext).bind fun _ _ _ _ htext =>
    .bind_lift (Matching.constant _) fun _ _ hbrace =>
      .bind_lift (Matching.plus htext.expr hbrace.expr) fun _ _ hc => .pure hc

/-- Each field is added to the sum so far, which is a variable of the scope. -/
theorem sameSteps_addFields (hthis : ρ.SameVar this this') (fields : List Field) {sum sum' : Var}
    (hsum : ρ.SameVar sum sum') :
    SameSteps ρ SameVar (addFields s this fields sum) (addFields s this' fields sum') := by
  induction fields generalizing sum sum' with
  | nil => exact .pure hsum
  | cons field rest ih =>
    refine .bind_lift (Matching.getField s _ hthis.expr) fun c c' hc =>
      SameSteps.assign_bind hc.expr fun value value' hvalue => ?_
    exact .bind_lift (Matching.plus hsum.expr hvalue.expr) fun c c' hc =>
      SameSteps.assign_bind hc.expr fun sum sum' hsum => ih hsum

/-- The sum of all fields is one function. -/
theorem sameRun_sumFields : SameRun SameSupply ρ (fun _ => Eq) (sumFields s) (sumFields s) := by
  refine SameSteps.function fun _ _ => SameSteps.addParam_bind fun data data' hdata =>
    .bind_lift (Matching.constant _) fun c c' hc =>
      SameSteps.assign_bind hc.expr fun sum sum' hsum => ?_
  exact (sameSteps_addFields s hdata _ hsum).bind fun _ _ _ _ htotal => .pure htotal.expr

/-- Adding records up is one function. -/
theorem sameRun_addCounters :
    SameRun SameSupply ρ (fun _ => Eq) (addCounters s) (addCounters s) := by
  refine SameSteps.function fun _ _ => SameSteps.addParam_bind fun total total' htotal =>
    SameSteps.addParam_bind fun delta delta' hdelta => ?_
  refine .bind (SameSteps.forM fun ρ hρ field => ?_) fun _ _ _ _ _ =>
    .bind_lift Matching.constantVoid fun _ _ hc => .pure hc
  refine .bind_lift (Matching.getField s _ (htotal.mono hρ).expr) fun a a' ha =>
    .bind_lift (Matching.getField s _ (hdelta.mono hρ).expr) fun b b' hb =>
      .bind_lift (Matching.plus ha.expr hb.expr) fun sum sum' hsum => ?_
  exact .bind_lift (Matching.setField s _ (htotal.mono hρ).expr hsum.expr) fun c c' hc =>
    SameSteps.assign_bind hc.expr fun _ _ _ => .pure rfl

end Fieldwise

/-! ## Columns -/

namespace ColumnAccess

variable {ρ : Renaming} {columns columns' position position' : Var} {P : Renaming → α → β → Prop}
  {f : Var → Scoped α} {f' : Var → Scoped β}

/-- A column is read, cast and assigned before anything is done with it. -/
theorem sameSteps_column_bind (hcolumns : ρ.SameVar columns columns')
    (hposition : ρ.SameVar position position') (ty : Ty)
    (hf : ∀ v v', ρ.SameVar v v' → SameSteps ρ P (f v) (f' v')) :
    SameSteps ρ P (column columns position ty >>= f) (column columns' position' ty >>= f') := by
  unfold column
  simp only [bind_assoc]
  exact .bind_lift (Matching.getElement hcolumns.expr hposition.expr) fun _ _ hc =>
    .bind_lift (Matching.cast hc _) fun _ _ hc => .assign_bind hc.expr hf

/-- The position of a column is a constant, which is assigned. -/
theorem sameSteps_positionVar_bind (position : Nat)
    (hf : ∀ v v', ρ.SameVar v v' → SameSteps ρ P (f v) (f' v')) :
    SameSteps ρ P (positionVar position >>= f) (positionVar position >>= f') := by
  unfold positionVar
  rw [bind_assoc, bind_assoc]
  exact .bind_lift (Matching.constant _) fun _ _ hc => .assign_bind hc.expr hf

variable (s : Schema)

/-- Reading from columns is one function. -/
theorem sameRun_composeRead :
    SameRun SameSupply ρ (fun _ => Eq) (composeRead s) (composeRead s) := by
  refine SameSteps.function fun _ _ => SameSteps.addParam_bind fun columns columns' hcolumns =>
    SameSteps.addParam_bind fun index index' hindex => ?_
  -- one variable per field, each with the element of its column
  refine .bind (Q := fun ρ => List.Forall₂ ρ.SameVar) ?_ fun ρ₁ _ values values' hvalues => ?_
  · refine SameSteps.mapM (fun _ _ _ _ hρ h => SameVar.mono h hρ) fun ρ₁ hρ₁ i => ?_
    refine sameSteps_positionVar_bind _ fun position position' hposition =>
      sameSteps_column_bind (hcolumns.mono hρ₁) hposition _ fun array array' harray => ?_
    exact .bind_lift (Matching.getElement harray.expr (hindex.mono hρ₁).expr) fun _ _ hc =>
      .assign hc.expr
  · exact .bind_lift (Matching.newInstance s (Matching.exprs_of_vars hvalues))
      fun _ _ hc => .pure hc

/-- Writing to columns is one function. -/
theorem sameRun_composeWrite :
    SameRun SameSupply ρ (fun _ => Eq) (composeWrite s) (composeWrite s) := by
  refine SameSteps.function fun _ _ => SameSteps.addParam_bind fun columns columns' hcolumns =>
    SameSteps.addParam_bind fun index index' hindex =>
      SameSteps.addParam_bind fun record record' hrecord => ?_
  refine .bind (SameSteps.forM fun ρ₁ hρ₁ i => ?_) fun _ _ _ _ _ =>
    .bind_lift Matching.constantVoid fun _ _ hc => .pure hc
  refine sameSteps_positionVar_bind _ fun position position' hposition =>
    sameSteps_column_bind (hcolumns.mono hρ₁) hposition _ fun array array' harray => ?_
  refine .bind_lift (Matching.getField s _ (hrecord.mono hρ₁).expr) fun c c' hc =>
    SameSteps.assign_bind hc.expr fun value value' hvalue => ?_
  exact .bind_lift (Matching.setElement harray.expr (hindex.mono hρ₁).expr hvalue.expr)
    fun _ _ hc => .assign_bind hc.expr fun _ _ _ => .pure rfl

/-- Replacing columns by copies is one function. -/
theorem sameRun_composeResize :
    SameRun SameSupply ρ (fun _ => Eq) (composeResize s) (composeResize s) := by
  refine SameSteps.function fun _ _ => SameSteps.addParam_bind fun columns columns' hcolumns =>
    SameSteps.addParam_bind fun capacity capacity' hcapacity => ?_
  refine .bind (SameSteps.forM fun ρ₁ hρ₁ i => ?_) fun _ _ _ _ _ =>
    .bind_lift Matching.constantVoid fun _ _ hc => .pure hc
  have hcolumns := hcolumns.mono hρ₁
  refine sameSteps_positionVar_bind _ fun position position' hposition =>
    sameSteps_column_bind hcolumns hposition _ fun array array' harray => ?_
  refine .bind_lift (Matching.arrayCopyOf harray.expr (hcapacity.mono hρ₁).expr) fun _ _ hcopy =>
    .bind_lift (Matching.cast hcopy _) fun c c' hc =>
      SameSteps.assign_bind hc.expr fun resized resized' hresized => ?_
  exact .bind_lift (Matching.setElement hcolumns.expr hposition.expr hresized.expr) fun _ _ hc =>
    .assign_bind hc.expr fun _ _ _ => .pure rfl

/-- The three functions of a schema are the same together. -/
theorem sameRun_compose : SameRun SameSupply ρ (fun _ => Eq) (compose s) (compose s) := by
  refine .bind (sameRun_composeRead s) fun _ _ read read' hread =>
    .bind (sameRun_composeWrite s) fun _ _ write write' hwrite =>
      (sameRun_composeResize s).bind fun _ _ resize resize' hresize => ?_
  rw [hread, hwrite, hresize]
  exact .pure rfl

end ColumnAccess

end Splice

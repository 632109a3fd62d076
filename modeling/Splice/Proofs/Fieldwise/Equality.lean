import Splice.Fieldwise.Equality
import Splice.Proofs.Closure.Operands
import Splice.Proofs.Scope.Local
import Splice.Proofs.Store.Objects
import Splice.Proofs.Value.Equality

/-!
# Field-wise equality

The handle of field-wise equality is composed for every schema and does what `equality` says
without variables and blocks. The cast of the second operand and the reads of its fields stand
behind the test that it is a record of the schema, so they never fail, and the answer is that of
`agree`. This relation is an equivalence, although a value need not equal itself: a record agrees
with itself whatever its fields hold.
-/

namespace Splice.Fieldwise

open Compose (Gives gives_lift_iff gives_lift_bind_iff)
open Handle (argument)
open Scoped (Makes)

/-! ## The composed program -/

/-- Whether two records are equal in the field at a position. -/
def fieldEquality (s : Schema) (this that : Value) (i : Nat) : Exec Value := do
  return .bool ((← this.getField s i).equals (← that.getField s i))

/-- Whether two records are equal in all fields. -/
def fieldEqualities (s : Schema) (this that : Value) : Exec Value :=
  Exec.holdAll ((List.range s.fields.length).map (fieldEquality s this that))

/-- Whether a value is a record of the schema and either a given record or equal to it in all
fields. The value is cast to the record type once for either question. -/
def equality (s : Schema) (this that : Value) : Exec Value :=
  let other : Exec Value := Conversion.checkDowncast that s.ty
  Exec.holdAll [return .bool (s.isInstance that),
    Exec.select (do return .bool (this.same (← other))) (return .bool true)
      (do fieldEqualities s this (← other))]

section

variable {s : Schema} {this that other : Var} {known : List Var}

/-- The comparison of two fields is composed for every position. -/
theorem exists_fieldEquality (hmem : this ∈ known) (hmem' : other ∈ known)
    (hthis : this.ty = s.ty) (hother : other.ty = s.ty) {i : Nat} {field : Field}
    (hfield : s.fields[i]? = some field) :
    ∃ c, Makes (do
        Closure.equals (← Closure.getField s field.name this)
          (← Closure.getField s field.name other)) c ∧
      c.Computes known .bool fun env => fieldEquality s (env this) (env other) i := by
  obtain ⟨a, ha, hreads⟩ := Closure.exists_fieldOf hmem hthis hfield
  obtain ⟨b, hb, hreads'⟩ := Closure.exists_fieldOf hmem' hother hfield
  obtain ⟨c, hc, hcomputes⟩ :=
    Closure.exists_equals hreads hreads' (s.noVoid _ (List.mem_of_getElem? hfield))
  exact ⟨c, (Makes.lift ha).bind ((Makes.lift hb).bind (.lift hc)), hcomputes⟩

/-- The comparison of all fields is composed of those of each. -/
theorem exists_fieldEqualities (hmem : this ∈ known) (hmem' : other ∈ known)
    (hthis : this.ty = s.ty) (hother : other.ty = s.ty) :
    ∃ c, Makes (do
        let equalities ← s.fields.mapM fun field => do
          Closure.equals (← Closure.getField s field.name this)
            (← Closure.getField s field.name other)
        return Expr.closure (← Closure.allOf (equalities.map Expr.closure))) (Expr.closure c) ∧
      c.Computes known .bool fun env => fieldEqualities s (env this) (env other) := by
  obtain ⟨cs, hcs, hall⟩ := Makes.exists_mapM
    (R := fun (c : Closure) i => c.Computes known .bool fun env =>
      fieldEquality s (env this) (env other) i) 0 fun i field hfield => by
        rw [Nat.zero_add]
        exact exists_fieldEquality hmem hmem' hthis hother hfield
  rw [← List.range_eq_range'] at hall
  obtain ⟨all, hallOf, hcomputes⟩ := Closure.exists_allOf
    (x := fun i env => fieldEquality s (env this) (env other) i) hall
  exact ⟨all, hcs.bind ((Makes.lift hallOf).bind (.pure _)), hcomputes⟩

/-- The second operand is cast to the record type. -/
theorem exists_castTo (s : Schema) (hknown : that ∈ known) (hthat : that.ty = .any) :
    ∃ c d, that.asClosure = .ok c ∧ c.cast s.ty = .ok d ∧
      d.Computes known s.ty fun env => Conversion.checkDowncast (env that) s.ty := by
  obtain ⟨c, hc, hreads⟩ :=
    Closure.exists_asClosure_computes (Var.computes hknown hthat) (by decide)
  have hbetween : Conversion.between? .any s.ty = some (.downcast s.ty) := by
    simp [Conversion.between?, Schema.ty, Ty.isNumeric]
  obtain ⟨d, hd, hcast⟩ := hreads.exists_cast hbetween
  exact ⟨c, d, hc, hd, hcast⟩

/-- The block that compares all fields of the cast operand is composed, and reads no variable of its
own. -/
theorem exists_fieldsEqual (hthis : this.ty = s.ty) (hthat : that.ty = .any) {σ : Supply}
    (hscope : ∀ v ∈ [this, that], v.scope < σ.nextScope) :
    ∃ c σ', Gives (fieldsEqual s this that) σ c σ' ∧
      c.Computes [this, that] .bool fun env => (do
        fieldEqualities s (env this) (← Conversion.checkDowncast (env that) s.ty)) := by
  have hmem : that ∈ [this, that] := List.mem_cons_of_mem _ List.mem_cons_self
  obtain ⟨c, d, hc, hd, hcast⟩ := exists_castTo s hmem hthat
  have hrest := fun (other : Var) (hother : other.ty = s.ty) =>
    have hmem : this ∈ [other, this, that] := List.mem_cons_of_mem _ List.mem_cons_self
    exists_fieldEqualities hmem List.mem_cons_self hthis hother
  obtain ⟨e, σ', he, -, hcomputes⟩ := Scoped.exists_block
    (y := fun env other => fieldEqualities s (env this) other) hcast s.ty_ne_void (by decide) hrest
    (fun env env' hagree => by rw [hagree this (by simp)]) hscope
  refine ⟨e, σ', ?_, hcomputes⟩
  rw [fieldsEqual, Scoped.block_lift_bind hc, Scoped.block_lift_bind hd]
  exact he

/-- The closure of field-wise equality is composed of the test for the schema, the identity and the
comparison of all fields. -/
theorem exists_equalsClosure (hthis : this.ty = s.ty) (hthat : that.ty = .any) {σ : Supply}
    (hscope : ∀ v ∈ [this, that], v.scope < σ.nextScope) :
    ∃ c σ', Gives (equalsClosure s this that) σ c σ' ∧
      c.Computes [this, that] .bool fun env => equality s (env this) (env that) := by
  have hmem : this ∈ [this, that] := List.mem_cons_self
  have hmem' : that ∈ [this, that] := List.mem_cons_of_mem _ List.mem_cons_self
  -- the block comes first, as only it draws on the supply
  obtain ⟨allEqual, σ', hgives, hallEqual⟩ := exists_fieldsEqual hthis hthat hscope
  obtain ⟨c, d, hc, hd, hcast⟩ := exists_castTo s hmem' hthat
  obtain ⟨same, hsame, hidentity⟩ :=
    Closure.exists_same (Var.computes hmem hthis) hcast.operand s.ty_ne_void
  obtain ⟨isInstance, hinstance, htest⟩ :=
    Closure.exists_instanceOfSchema (Var.computes hmem' hthat) (by decide) s
  obtain ⟨either, heither, hdisj⟩ := Closure.exists_disj hidentity.operand hallEqual.operand
  obtain ⟨all, hall, hcomputes⟩ := Closure.exists_allOf
    (x := fun (x : Env → Exec Value) env => x env) (.cons htest (.cons hdisj .nil))
  refine ⟨all, σ', ?_, hcomputes⟩
  rw [equalsClosure, hgives.bind_iff, gives_lift_bind_iff hc, gives_lift_bind_iff hd,
    gives_lift_bind_iff hsame, gives_lift_bind_iff hinstance, gives_lift_bind_iff heither,
    gives_lift_iff]
  exact ⟨hall, rfl⟩

end

/-- The handle of field-wise equality is composed for every schema. -/
theorem exists_equals (s : Schema) (σ : Supply) :
    ∃ h σ', Gives (equals s) σ h σ' ∧ h.Computes [s.ty, .any] .bool fun args =>
      equality s (argument args 0) (argument args 1) :=
  Scoped.exists_binaryFunction s.ty_ne_void (by decide) (by decide)
    (fun _ _ _ hthis hthat hscope => exists_equalsClosure hthis hthat hscope) σ

/-! ## What it answers -/

/-- Whether a value is a record of the same schema, and either that very record or equal to it in
all fields. -/
def agree (w : World) (this : Record) : Value → Bool
  | .record that => that.schema = this.schema &&
      (this = that || Value.equalsAll (w.fieldsOf this) (w.fieldsOf that))
  | _ => false

/-- Agreement is being that very record or another one of the schema with equal fields. -/
theorem agree_iff {w : World} {this : Record} {that : Value} :
    agree w this that = true ↔ ∃ r, that = .record r ∧ r.schema = this.schema ∧
      (this = r ∨ List.Forall₂ (fun v v' => v.equals v' = true) (w.fieldsOf this)
        (w.fieldsOf r)) := by
  cases that <;> simp [agree, Value.equalsAll_iff_forall₂]

section

variable {s : Schema} {w : World} {a b c : Record}

/-- A record agrees with itself, whatever its fields hold. -/
theorem agree_self : agree w a (.record a) = true := by simp [agree]

/-- Agreement is symmetric, as equality of values is. -/
theorem agree_comm : agree w a (.record b) = agree w b (.record a) := by
  simp only [agree, Value.equalsAll_comm (w.fieldsOf a), eq_comm (a := a.schema), eq_comm (a := a)]

/-- Agreement is transitive, as equality of values is, and the very record counts for the other one.
-/
theorem agree_trans (hab : agree w a (.record b) = true) (hbc : agree w b (.record c) = true) :
    agree w a (.record c) = true := by
  simp only [agree, Bool.and_eq_true, Bool.or_eq_true, decide_eq_true_eq] at hab hbc ⊢
  obtain ⟨hschema, rfl | hab⟩ := hab
  · exact hbc
  · obtain ⟨hschema', rfl | hbc⟩ := hbc
    · exact ⟨hschema, .inr hab⟩
    · exact ⟨hschema'.trans hschema, .inr (Value.equalsAll_trans hab hbc)⟩

/-- All fields of two records are compared, as none is missing. -/
theorem fieldEqualities_apply (ha : a.schema = s) (hb : b.schema = s) (hcomplete : a.Complete w)
    (hcomplete' : b.Complete w) : fieldEqualities s (.record a) (.record b) w =
      .ok (.bool (Value.equalsAll (w.fieldsOf a) (w.fieldsOf b))) w := by
  have hlength : (w.fieldsOf a).length = s.fields.length := ha ▸ hcomplete
  have hlength' : (w.fieldsOf b).length = s.fields.length := hb ▸ hcomplete'
  rw [← Value.all_range_equals (hlength'.trans hlength.symm), hlength]
  refine Exec.holdAll_apply fun i hi => ?_
  have hi : i < s.fields.length := List.mem_range.1 hi
  exact (Exec.bind_of_ok (Value.getField_apply_of_complete ha hcomplete hi)).trans
    (Exec.bind_of_ok (Value.getField_apply_of_complete hb hcomplete' hi))

/-- The test for the schema comes first, so neither the cast nor the reads behind it can fail. -/
theorem equality_of_not_instance {this that : Value} (h : s.isInstance that = false) :
    equality s this that = return .bool false := by
  rw [equality, Exec.holdAll_cons, h, Exec.select_return]
  rfl

/-- A record of the schema is cast to itself. -/
theorem equality_of_instance (hb : b.schema = s) (this : Value) :
    equality s this (.record b) = if this.same (.record b) then return .bool true
      else fieldEqualities s this (.record b) := by
  have hinstance : s.isInstance (.record b) = true := decide_eq_true hb
  have hcast : Conversion.checkDowncast (.record b) s.ty = .ok (.record b) :=
    Conversion.checkDowncast_of_admits (Schema.ty_admits hb)
  rw [equality, Exec.holdAll_cons, hinstance, Exec.select_return, hcast]
  exact Exec.select_return _

/-- The program answers whether the record agrees with the value. -/
theorem equality_apply {that : Value} (ha : a.schema = s) (hcomplete : a.Complete w)
    (hthat : ∀ r, that = .record r → r.schema = s → r.Complete w) :
    equality s (.record a) that w = .ok (.bool (agree w a that)) w := by
  cases hinstance : s.isInstance that with
  | false =>
    -- a record of another schema does not agree
    have hdisagree : agree w a that = false := by
      cases that with
      | record r => simp_all [agree, Schema.isInstance]
      | _ => rfl
    rw [equality_of_not_instance hinstance, hdisagree]
    rfl
  | true =>
    obtain ⟨b, rfl, hb⟩ := Schema.exists_record_of_isInstance hinstance
    have hfields := fieldEqualities_apply ha hb hcomplete (hthat b rfl hb)
    have hschema : decide (b.schema = a.schema) = true := decide_eq_true (hb.trans ha.symm)
    have hsame : (Value.record a).same (.record b) = decide (a = b) := rfl
    rw [equality_of_instance hb, agree, hschema, Bool.true_and, hsame]
    cases decide (a = b) with
    | true => rfl
    | false => exact hfields

end

/-- The answer of the handle, for every record of the schema and every value. -/
theorem exists_equals_agree (s : Schema) (σ : Supply) :
    ∃ h σ', Gives (equals s) σ h σ' ∧ h.params = [s.ty, .any] ∧ h.ret = .bool ∧
      ∀ turns w this that, this.schema = s → this.Complete w →
        (∀ r, that = .record r → r.schema = s → r.Complete w) →
        h.call turns [.record this, that] w = .ok (.bool (agree w this that)) w ∧
        (that ≠ .unit →
          h.invoke turns [.record this, that] w = .ok (.bool (agree w this that)) w) := by
  obtain ⟨h, σ', hgives, hcomputes⟩ := exists_equals s σ
  refine ⟨h, σ', hgives, hcomputes.params_eq, hcomputes.ret_eq,
    fun turns w this that hthis hcomplete hthat => ⟨?_, fun hvalue => ?_⟩⟩
  · rw [hcomputes.call_eq turns _ rfl]
    exact equality_apply hthis hcomplete hthat
  · have hany : Ty.any.admits that = true := by cases that <;>
      simp_all [Ty.admits, Ty.isReference, Ty.isPrimitive]
    rw [hcomputes.invoke_apply (.cons (Schema.ty_admits hthis) (.cons hany .nil))]
    exact equality_apply hthis hcomplete hthat

/-- Two records of the schema are compared by `agree`, whichever way the handle came about. -/
theorem invoke_equals {s : Schema} {σ σ' : Supply} {h : Handle} {turns : Nat} {w : World}
    {a b : Record} (hgives : Gives (equals s) σ h σ') (ha : a.schema = s) (hcomplete : a.Complete w)
    (hcomplete' : b.Complete w) :
    h.invoke turns [.record a, .record b] w = .ok (.bool (agree w a (.record b))) w := by
  obtain ⟨h', σ₁, hgives', -, -, hanswer⟩ := exists_equals_agree s σ
  obtain ⟨rfl, -⟩ := hgives.unique hgives'
  exact (hanswer turns w a (.record b) ha hcomplete
    fun r hr _ => Value.record.inj hr ▸ hcomplete').2 nofun

/-! ## Structural equality -/

/-- Field-wise equality never fails. It holds of a record of the schema and exactly those values
which are that very record or another record of the schema with equal fields. -/
theorem equals_iff_fields_equal (s : Schema) (σ : Supply) :
    ∃ h σ', Gives (equals s) σ h σ' ∧ h.params = [s.ty, .any] ∧ h.ret = .bool ∧
      ∀ (turns : Nat) (w : World) (this : Record) (that : Value), this.schema = s →
        this.Complete w → (∀ r, that = .record r → r.schema = s → r.Complete w) →
        ∃ answer, h.call turns [.record this, that] w = .ok (.bool answer) w ∧
          (that ≠ .unit → h.invoke turns [.record this, that] w = .ok (.bool answer) w) ∧
          (answer = true ↔ ∃ r, that = .record r ∧ r.schema = s ∧
            (this = r ∨ List.Forall₂ (fun v v' => v.equals v' = true) (w.fieldsOf this)
              (w.fieldsOf r))) := by
  obtain ⟨h, σ', hgives, hparams, hret, hanswer⟩ := exists_equals_agree s σ
  refine ⟨h, σ', hgives, hparams, hret, fun turns w this that hthis hcomplete hthat => ?_⟩
  obtain ⟨hcall, hinvoke⟩ := hanswer turns w this that hthis hcomplete hthat
  exact ⟨agree w this that, hcall, hinvoke, hthis ▸ agree_iff⟩

/-- A record that holds no number agrees with itself alone; null is no record. -/
theorem equals_iff_fields_equal_of_nan :
    ∃ (s : Schema) (w : World) (h : Handle) (σ : Supply), s.fields = [⟨"x", .double⟩] ∧
      w.records = #[[.double ⟨0x7ff8000000000000⟩], [.double ⟨0x7ff8000000000000⟩]] ∧
      Gives (equals s) {} h σ ∧
      h.invoke 0 [.record ⟨s, 0⟩, .record ⟨s, 0⟩] w = .ok (.bool true) w ∧
      h.invoke 0 [.record ⟨s, 0⟩, .record ⟨s, 1⟩] w = .ok (.bool false) w ∧
      h.invoke 0 [.record ⟨s, 0⟩, .null] w = .ok (.bool false) w := by
  let s : Schema := ⟨0, "Point", [⟨"x", .double⟩], by decide, by decide⟩
  let nan : Value := .double ⟨0x7ff8000000000000⟩
  let w : World := { records := #[[nan], [nan]] }
  obtain ⟨h, σ, hgives, -, -, hequals⟩ := equals_iff_fields_equal s {}
  have hcomplete : ∀ i < 2, Record.Complete ⟨s, i⟩ w := by decide
  have hrecord : ∀ i < 2, ∀ r, Value.record ⟨s, i⟩ = .record r → r.schema = s → r.Complete w :=
    fun i hi r hr _ => Value.record.inj hr ▸ hcomplete i hi
  obtain ⟨itself, -, hitself, hitself_iff⟩ :=
    hequals 0 w ⟨s, 0⟩ _ rfl (hcomplete 0 (by decide)) (hrecord 0 (by decide))
  obtain ⟨other, -, hother, hother_iff⟩ :=
    hequals 0 w ⟨s, 0⟩ _ rfl (hcomplete 0 (by decide)) (hrecord 1 (by decide))
  obtain ⟨none, -, hnone, hnone_iff⟩ := hequals 0 w ⟨s, 0⟩ .null rfl (hcomplete 0 (by decide)) nofun
  obtain rfl : itself = true := hitself_iff.2 ⟨_, rfl, rfl, .inl rfl⟩
  obtain rfl : other = false := by
    refine Bool.eq_false_iff.2 fun htrue => ?_
    obtain ⟨r, hr, -, hsame | hfields⟩ := hother_iff.1 htrue
    · exact absurd (hsame.trans (Value.record.inj hr).symm) (by decide)
    · rw [← Value.record.inj hr] at hfields
      exact absurd (Value.equalsAll_iff_forall₂.2 hfields) (by decide)
  obtain rfl : none = false := Bool.eq_false_iff.2 fun htrue => by
    obtain ⟨r, hr, -⟩ := hnone_iff.1 htrue
    cases hr
  exact ⟨s, w, h, σ, rfl, rfl, hgives, hitself nofun, hother nofun, hnone nofun⟩

/-- Field-wise equality is an equivalence of the records of a schema, whatever their fields hold. -/
theorem equals_equivalence (s : Schema) (σ : Supply) :
    ∃ h σ', Gives (equals s) σ h σ' ∧ ∀ (turns : Nat) (w : World) (a b c : Record),
      a.schema = s → b.schema = s → c.schema = s → a.Complete w → b.Complete w → c.Complete w →
      h.invoke turns [.record a, .record a] w = .ok (.bool true) w ∧
      (∃ answer, h.invoke turns [.record a, .record b] w = .ok (.bool answer) w ∧
        h.invoke turns [.record b, .record a] w = .ok (.bool answer) w) ∧
      (h.invoke turns [.record a, .record b] w = .ok (.bool true) w →
        h.invoke turns [.record b, .record c] w = .ok (.bool true) w →
        h.invoke turns [.record a, .record c] w = .ok (.bool true) w) := by
  obtain ⟨h, σ', hgives, -⟩ := exists_equals s σ
  refine ⟨h, σ', hgives, fun turns w a b c ha hb hc hcomplete_a hcomplete_b hcomplete_c => ?_⟩
  have hinvoke : ∀ x y : Record, x.schema = s → x.Complete w → y.Complete w →
      h.invoke turns [.record x, .record y] w = .ok (.bool (agree w x (.record y))) w :=
    fun x y hx hcomplete hcomplete' => invoke_equals hgives hx hcomplete hcomplete'
  refine ⟨?_, ⟨agree w a (.record b), hinvoke a b ha hcomplete_a hcomplete_b, ?_⟩,
    fun hab hbc => ?_⟩
  · rw [hinvoke a a ha hcomplete_a hcomplete_a, agree_self]
  · rw [hinvoke b a hb hcomplete_b hcomplete_a, agree_comm]
  · rw [hinvoke a b ha hcomplete_a hcomplete_b] at hab
    rw [hinvoke b c hb hcomplete_b hcomplete_c] at hbc
    rw [hinvoke a c ha hcomplete_a hcomplete_c]
    -- both runs returned, so the answers are those of the agreement
    injection hab with hab
    injection hbc with hbc
    rw [agree_trans (Value.bool.inj hab) (Value.bool.inj hbc)]

/-- The two zeros are equal, through either of them and both ways; what is no number differs from
itself, but the record that holds it does not. -/
theorem equals_equivalence_of_zeros :
    ∃ (s : Schema) (w : World) (h : Handle) (σ : Supply), s.fields = [⟨"x", .double⟩] ∧
      w.records = #[[.double ⟨0⟩], [.double Double.negativeZero], [.double ⟨0⟩],
        [.double ⟨0x7ff8000000000000⟩]] ∧
      Gives (equals s) {} h σ ∧
      h.invoke 0 [.record ⟨s, 1⟩, .record ⟨s, 0⟩] w = .ok (.bool true) w ∧
      h.invoke 0 [.record ⟨s, 0⟩, .record ⟨s, 2⟩] w = .ok (.bool true) w ∧
      h.invoke 0 [.record ⟨s, 3⟩, .record ⟨s, 3⟩] w = .ok (.bool true) w := by
  let s : Schema := ⟨0, "Point", [⟨"x", .double⟩], by decide, by decide⟩
  let w : World := { records := #[[.double ⟨0⟩], [.double Double.negativeZero], [.double ⟨0⟩],
    [.double ⟨0x7ff8000000000000⟩]] }
  obtain ⟨h, σ, hgives, hequivalence⟩ := equals_equivalence s {}
  have hcomplete : ∀ i < 4, Record.Complete ⟨s, i⟩ w := by decide
  have hlaws := fun i j k (hi : i < 4) (hj : j < 4) (hk : k < 4) =>
    hequivalence 0 w ⟨s, i⟩ ⟨s, j⟩ ⟨s, k⟩ rfl rfl rfl (hcomplete i hi) (hcomplete j hj)
      (hcomplete k hk)
  have hzeros : h.invoke 0 [.record ⟨s, 0⟩, .record ⟨s, 1⟩] w = .ok (.bool true) w :=
    invoke_equals hgives rfl (hcomplete 0 (by decide)) (hcomplete 1 (by decide))
  have hzeros' : h.invoke 0 [.record ⟨s, 1⟩, .record ⟨s, 2⟩] w = .ok (.bool true) w :=
    invoke_equals hgives rfl (hcomplete 1 (by decide)) (hcomplete 2 (by decide))
  obtain ⟨-, ⟨answer, hforth, hback⟩, htrans⟩ := hlaws 0 1 2 (by decide) (by decide) (by decide)
  obtain ⟨hself, -, -⟩ := hlaws 3 3 3 (by decide) (by decide) (by decide)
  refine ⟨s, w, h, σ, rfl, rfl, hgives, ?_, htrans hzeros hzeros', hself⟩
  rw [hback, ← hforth]
  exact hzeros

end Splice.Fieldwise

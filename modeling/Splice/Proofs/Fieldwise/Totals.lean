import Splice.Fieldwise.Totals
import Splice.Proofs.Closure.Operands
import Splice.Proofs.Handle.Conversion
import Splice.Proofs.Scope.Program
import Splice.Proofs.Store.TypedRecords

/-!
# Field-wise totals

The handle that adds one record to another is composed for every schema, of one statement for each
numeric field. A statement reads a field of both records and then writes that field of the first, so
all fields behind it are read as they were, also if the two records are one and the same. What is no
record of the schema is found out before the first write.
-/

namespace Splice

/-- A field of a record in a variable is written. -/
theorem Closure.exists_setFieldOf {s : Schema} {vars : List Var} {record : Var}
    (hmem : record ∈ vars) (hrecord : record.ty = s.ty) {i : Nat} {field : Field}
    (hfield : s.fields[i]? = some field) {value : Expr} {x : Env → Exec Value}
    (hvalue : value.Computes vars field.ty x) :
    ∃ c, setField s field.name record value = .ok c ∧
      c.Computes vars .void fun env => (do (env record).setField s i (← x env)) := by
  have htypes : [Expr.var record, value].map Expr.ty = [s.ty, field.ty] := by
    rw [List.map_cons, List.map_singleton, hvalue.ty_eq, Expr.ty, hrecord]
  have hvoid : Ty.void ∉ [s.ty, field.ty] := by
    simp [s.ty_ne_void.symm, (s.noVoid _ (List.mem_of_getElem? hfield)).symm]
  obtain ⟨c, hc, hargs, hty, heval⟩ := exists_native_operands htypes hvoid .void fun args => do
    (← s.expectInstance (Handle.argument args 0)).set i (Handle.argument args 1)
    return .unit
  refine ⟨c, ?_, fun v hv => ?_, hty, fun turns env => ?_⟩
  · rw [setField, Schema.field_eq_ok hfield]
    exact hc
  · have hread : v ∈ record :: value.vars := by simpa [Expr.vars] using hargs hv
    exact List.cons_subset.2 ⟨hmem, hvalue.vars_subset⟩ hread
  · rw [heval, List.mapM_cons, List.mapM_cons, List.mapM_nil, hvalue.eval_eq, Expr.eval]
    simp only [bind_assoc, pure_bind]
    rfl

/-- A value is the sum of two numbers of one kind, wrapping for integers. -/
inductive Value.IsSum : Value → Value → Value → Prop
  | int (m n : Int32) : IsSum (.int m) (.int n) (.int (m + n))
  | long (m n : Int64) : IsSum (.long m) (.long n) (.long (m + n))
  | double (x y : Double) : IsSum (.double x) (.double y) (.double (x + y))

namespace Value

variable {ty : Ty} {v u sum : Value} {w : World} {s : Schema} {r : Record} {i : Nat}

/-- Numbers of a numeric type have a sum, which is of that type. -/
theorem exists_isSum (hty : ty.isNumeric = true) (hv : ty.admits v = true)
    (hu : ty.admits u = true) : ∃ sum, IsSum v u sum ∧ ty.admits sum = true := by
  obtain rfl | rfl | rfl := Ty.isNumeric_iff.1 hty
  · obtain ⟨m, rfl⟩ := Ty.admits_int_iff.1 hv
    obtain ⟨n, rfl⟩ := Ty.admits_int_iff.1 hu
    exact ⟨_, .int m n, rfl⟩
  · obtain ⟨m, rfl⟩ := Ty.admits_long_iff.1 hv
    obtain ⟨n, rfl⟩ := Ty.admits_long_iff.1 hu
    exact ⟨_, .long m n, rfl⟩
  · obtain ⟨x, rfl⟩ := Ty.admits_double_iff.1 hv
    obtain ⟨y, rfl⟩ := Ty.admits_double_iff.1 hu
    exact ⟨_, .double x y, rfl⟩

/-- Two numbers have one sum. -/
theorem IsSum.unique {sum' : Value} (h : IsSum v u sum) (h' : IsSum v u sum') : sum = sum' := by
  cases h <;> cases h' <;> rfl

/-- Where two values have a sum, adding them gives it, and nothing in the world is different. -/
theorem plus_apply_of_isSum (h : IsSum v u sum) (w : World) : v.plus u w = .ok sum w := by
  cases h <;> rfl

/-- Reading a field does nothing to the objects of the world, whatever it is read from. -/
theorem getField_outcome (v : Value) (s : Schema) (i : Nat) (w : World) :
    (∃ u, v.getField s i w = .ok u w) ∨
      ∃ e, v.getField s i w = .thrown e { w with nextId := w.nextId + 1 } := by
  cases hv : s.isInstance v with
  | false =>
    obtain ⟨e, he, -⟩ := getField_apply_of_isInstance_eq_false (i := i) (w := w) hv
    exact .inr ⟨e, he⟩
  | true =>
    obtain ⟨r, rfl, hr⟩ := Schema.exists_record_of_isInstance hv
    cases hfield : (w.fieldsOf r)[i]? with
    | some u => exact .inl ⟨u, getField_apply hr hfield⟩
    | none =>
      rw [getField, Schema.expectInstance_ok_iff.2 ⟨rfl, hr⟩]
      exact .inr ⟨_, (Record.get_apply_of_none hfield).trans (Exec.raise_apply _ w)⟩

end Value

namespace Fieldwise

open Compose (Gives)
open Handle (argument)
open Scoped (Means Returns)

/-! ## The composed program -/

/-- Adds the field of one record at a position to the same field of another one. -/
def addField (s : Schema) (total delta : Value) (i : Nat) : Exec PUnit := do
  let sum ← (← total.getField s i).plus (← delta.getField s i)
  let _ ← total.setField s i sum

/-- The fields of some sort with their positions. -/
def fieldsWhere (p : Field → Bool) (s : Schema) : List (Field × Nat) :=
  s.fields.zipIdx.filter (p ·.1)

/-- The numeric fields with their positions. -/
def numericFields (s : Schema) : List (Field × Nat) := s.fields.zipIdx.filter (·.1.ty.isNumeric)

/-- Adds all numeric fields of one record to another one. -/
def addAll (s : Schema) (total delta : Value) : Exec Value := do
  ((numericFields s).map Prod.snd).forM (addField s total delta)
  return .unit

section

variable {s : Schema} {total delta : Var}

/-- The fields found with positions are those of the schema, in order. -/
theorem fieldsWhere_map_fst (p : Field → Bool) (s : Schema) :
    (fieldsWhere p s).map Prod.fst = s.fields.filter p := by
  have hfilter := List.filter_map (f := Prod.fst) (p := p) (l := s.fields.zipIdx)
  rw [List.zipIdx_map_fst] at hfilter
  exact hfilter.symm

/-- A field is found with a position if and only if it stands there and is of the sort. -/
theorem mem_fieldsWhere_iff {p : Field → Bool} {f : Field × Nat} :
    f ∈ fieldsWhere p s ↔ s.fields[f.2]? = some f.1 ∧ p f.1 = true := by
  rw [fieldsWhere, List.mem_filter, List.mem_zipIdx_iff_getElem?]

/-- The numeric fields found with positions are those of the schema, in order. -/
theorem numericFields_map_fst (s : Schema) :
    (numericFields s).map Prod.fst = s.fields.filter (·.ty.isNumeric) :=
  fieldsWhere_map_fst (·.ty.isNumeric) s

/-- A numeric field is found with a position if and only if it stands there. -/
theorem mem_numericFields_iff {f : Field × Nat} :
    f ∈ numericFields s ↔ s.fields[f.2]? = some f.1 ∧ f.1.ty.isNumeric = true :=
  mem_fieldsWhere_iff (p := (·.ty.isNumeric))

/-- The field at a position is numeric. -/
def NumericAt (s : Schema) (i : Nat) : Prop :=
  ∃ field, s.fields[i]? = some field ∧ field.ty.isNumeric = true

/-- The positions found are those at which a field is numeric. -/
theorem mem_map_numericFields_iff {i : Nat} :
    i ∈ (numericFields s).map Prod.snd ↔ NumericAt s i := by
  simp [NumericAt, mem_numericFields_iff]

/-- No position is found twice. -/
theorem nodup_map_numericFields (s : Schema) : ((numericFields s).map Prod.snd).Nodup := by
  refine (List.filter_sublist.map _).nodup ?_
  rw [List.zipIdx_map_snd]
  exact List.nodup_range'

/-- The statement for a numeric field adds it, whatever the records are. -/
theorem means_addField (htotal : total.ty = s.ty) (hdelta : delta.ty = s.ty) {f : Field × Nat}
    (hf : f ∈ numericFields s) :
    Means [total, delta] (do
        let sum ← Closure.plus (← Closure.getField s f.1.name total)
          (← Closure.getField s f.1.name delta)
        let _ ← Scoped.assign (← Closure.setField s f.1.name total sum))
      (fun env => addField s (env total) (env delta) f.2) fun _ => True := by
  obtain ⟨hfield, hnumeric⟩ := mem_numericFields_iff.1 hf
  have hmem : total ∈ [total, delta] := List.mem_cons_self
  have hmem' : delta ∈ [total, delta] := List.mem_cons_of_mem _ List.mem_cons_self
  obtain ⟨a, ha, hreads⟩ := Closure.exists_fieldOf hmem htotal hfield
  obtain ⟨b, hb, hreads'⟩ := Closure.exists_fieldOf hmem' hdelta hfield
  obtain ⟨sum, hsum, hadds⟩ := Closure.exists_plus hreads hreads' (by rw [hnumeric]; rfl)
  -- the sum is no variable, so the two reads are captured as its operands
  obtain ⟨c, hc, hwrites⟩ := Closure.exists_setFieldOf hmem htotal hfield hadds.operand
  refine .lift_bind ha (.lift_bind hb (.lift_bind hsum (.lift_bind hc ?_)))
  have hperforms := Means.perform hwrites
  simpa only [addField, bind_assoc] using hperforms

end

/-- The handle of the addition is composed for every schema. -/
theorem exists_addCounters (s : Schema) (σ : Supply) :
    ∃ h σ', Gives (addCounters s) σ h σ' ∧
      h.Computes [s.ty, s.ty] .void fun args => addAll s (argument args 0) (argument args 1) := by
  refine Scoped.exists_function (.addParam s.ty_ne_void fun total htotal =>
    .addParam s.ty_ne_void fun delta hdelta => ?_) σ
  have htypes : [total, delta].map Var.ty = [s.ty, s.ty] := by simp [htotal, hdelta]
  rw [← htypes, ← numericFields_map_fst, List.forM_eq_forM, List.forM_map]
  obtain ⟨c, hc, hty, hargs, heval⟩ := Closure.exists_constantVoid
  refine Means.returns (α := PUnit) (y := fun _ => return .unit)
    (Means.forM (x := fun env (f : Field × Nat) => addField s (env total) (env delta) f.2)
      (fun f hf => means_addField htotal hdelta hf) fun env env' hagree => ?_)
    (fun _ _ => ⟨c, hc, ?_, hty, heval⟩) fun env => ?_
  · rw [hagree total (by simp), hagree delta (by simp)]
  · simp [hargs]
  · rw [addAll, List.forM_eq_forM, List.forM_map]
    rfl

/-! ## What it adds -/

/-- Some fields of a record hold the sums of what they held before and what the fields of another
record held there. Nothing else is different between two worlds. -/
structure Accumulates (summed : Nat → Prop) (a b : Record) (w w' : World) : Prop where
  sums : ∀ i, summed i → ∃ v u sum, (w.fieldsOf a)[i]? = some v ∧ (w.fieldsOf b)[i]? = some u ∧
    Value.IsSum v u sum ∧ (w'.fieldsOf a)[i]? = some sum
  kept : ∀ (r : Record) (i : Nat), r.addr ≠ a.addr ∨ ¬ summed i →
    (w'.fieldsOf r)[i]? = (w.fieldsOf r)[i]?
  rest_eq : { w' with records := w.records } = w

namespace Accumulates

variable {summed more : Nat → Prop} {a b : Record} {w w₁ w₂ : World}

/-- Where no field has been summed, nothing is different. -/
theorem refl (a b : Record) (w : World) : Accumulates (fun _ => False) a b w w :=
  ⟨fun _ => False.elim, fun _ _ _ => rfl, rfl⟩

/-- Sums in other fields may follow: their operands are what they were before. -/
theorem trans (h : Accumulates summed a b w w₁) (h' : Accumulates more a b w₁ w₂)
    (hdisjoint : ∀ i, summed i → ¬ more i) :
    Accumulates (fun i => summed i ∨ more i) a b w w₂ where
  sums i := by
    rintro (hi | hi)
    · obtain ⟨v, u, sum, hv, hu, hadds, hsum⟩ := h.sums i hi
      -- a later statement does not write this field again
      exact ⟨v, u, sum, hv, hu, hadds, (h'.kept a i (.inr (hdisjoint i hi))).trans hsum⟩
    · obtain ⟨v, u, sum, hv, hu, hadds, hsum⟩ := h'.sums i hi
      have hkept : ∀ r, (w₁.fieldsOf r)[i]? = (w.fieldsOf r)[i]? := fun r =>
        h.kept r i (.inr fun hi' => hdisjoint i hi' hi)
      -- no earlier statement has written the operands of this one
      exact ⟨v, u, sum, (hkept a).symm.trans hv, (hkept b).symm.trans hu, hadds, hsum⟩
  kept r i hi := by
    rw [h'.kept r i (hi.imp_right fun hi hmore => hi (.inr hmore)),
      h.kept r i (hi.imp_right fun hi hsummed => hi (.inl hsummed))]
  rest_eq := by
    rw [← h.rest_eq, ← h'.rest_eq]

/-- What a field holds is determined by what the operands were. -/
theorem getElem?_eq (h : Accumulates summed a b w w₁) {i : Nat} {v u sum : Value} (hi : summed i)
    (hv : (w.fieldsOf a)[i]? = some v) (hu : (w.fieldsOf b)[i]? = some u)
    (hadds : Value.IsSum v u sum) : (w₁.fieldsOf a)[i]? = some sum := by
  obtain ⟨v', u', sum', hv', hu', hadds', hsum⟩ := h.sums i hi
  obtain rfl := Option.some.inj (hv'.symm.trans hv)
  obtain rfl := Option.some.inj (hu'.symm.trans hu)
  rw [hsum, hadds'.unique hadds]

/-- Other records have the fields that they had. -/
theorem fieldsOf_eq (h : Accumulates summed a b w w₁) {r : Record} (hr : r.addr ≠ a.addr) :
    w₁.fieldsOf r = w.fieldsOf r := List.ext_getElem? fun i => h.kept r i (.inl hr)

end Accumulates

section

variable {s : Schema} {a b : Record} {w : World}

/-- Writing a sum to a field keeps all others. -/
theorem accumulates_setFields {i : Nat} {v u sum : Value} (hv : (w.fieldsOf a)[i]? = some v)
    (hu : (w.fieldsOf b)[i]? = some u) (hadds : Value.IsSum v u sum) :
    Accumulates (· = i) a b w (w.setFields a ((w.fieldsOf a).set i sum)) := by
  have hlt : i < (w.fieldsOf a).length := (List.getElem?_eq_some_iff.1 hv).1
  have hwritten := w.fieldsOf_setFields a ((w.fieldsOf a).set i sum) (World.addr_lt_of_lt hlt)
  refine ⟨?_, fun r j hj => ?_, rfl⟩
  · rintro _ rfl
    exact ⟨v, u, sum, hv, hu, hadds, by rw [hwritten, List.getElem?_set_self hlt]⟩
  · -- the array of the first record may be that of another record given with another schema
    by_cases hr : r.addr = a.addr
    · have hne : i ≠ j := fun hij => hj.resolve_left (not_not_intro hr) hij.symm
      rw [World.fieldsOf_of_addr_eq _ hr, World.fieldsOf_of_addr_eq _ hr, hwritten,
        List.getElem?_set_ne hne]
    · rw [World.fieldsOf_setFields_ne w _ (Ne.symm hr)]

/-- One statement writes one sum, and both records are well typed again. -/
theorem addField_apply (ha : a.schema = s) (hb : b.schema = s) (hta : a.Typed w) (htb : b.Typed w)
    {i : Nat} {field : Field} (hfield : s.fields[i]? = some field)
    (hnumeric : field.ty.isNumeric = true) :
    ∃ w', addField s (.record a) (.record b) i w = .ok ⟨⟩ w' ∧ Accumulates (· = i) a b w w' ∧
      a.Typed w' ∧ b.Typed w' := by
  obtain ⟨v, hv, hnumber⟩ := hta.exists_getElem? (ha ▸ hfield)
  obtain ⟨u, hu, hnumber'⟩ := htb.exists_getElem? (hb ▸ hfield)
  obtain ⟨sum, hadds, hsum⟩ := Value.exists_isSum hnumeric hnumber hnumber'
  have hlt : i < (w.fieldsOf a).length := (List.getElem?_eq_some_iff.1 hv).1
  have hrun : addField s (.record a) (.record b) i w =
      .ok ⟨⟩ (w.setFields a ((w.fieldsOf a).set i sum)) := by
    rw [addField, Exec.bind_of_ok (Value.getField_apply ha hv),
      Exec.bind_of_ok (Value.getField_apply hb hu),
      Exec.bind_of_ok (Value.plus_apply_of_isSum hadds w),
      Exec.bind_of_ok (Value.setField_apply ha hlt)]
    rfl
  have hadmits : a.Admits i sum := fun field' hfield' => by
    rw [ha, hfield] at hfield'
    exact Option.some.inj hfield' ▸ hsum
  have hta' : a.Typed (w.setFields a ((w.fieldsOf a).set i sum)) := by
    rw [Record.Typed, w.fieldsOf_setFields a _ (World.addr_lt_of_lt hlt)]
    exact hta.set hadmits
  refine ⟨_, hrun, accumulates_setFields hv hu hadds, hta', ?_⟩
  -- the second record may be the first one, as it is where a record is added to itself
  by_cases haddr : a.addr = b.addr
  · rwa [Record.Typed, hb, ← ha, ← World.fieldsOf_of_addr_eq _ haddr]
  · rwa [Record.Typed, World.fieldsOf_setFields_ne w _ haddr]

/-- All statements write their sums. -/
theorem forM_addField_apply {positions : List Nat} (hnodup : positions.Nodup)
    (hnumeric : ∀ i ∈ positions, NumericAt s i)
    (ha : a.schema = s) (hb : b.schema = s) (hta : a.Typed w) (htb : b.Typed w) :
    ∃ w', positions.forM (addField s (.record a) (.record b)) w = .ok ⟨⟩ w' ∧
      Accumulates (· ∈ positions) a b w w' := by
  -- what carries over is that both records are typed, which each statement keeps
  induction positions generalizing w with
  | nil => exact ⟨w, rfl, by simpa using Accumulates.refl a b w⟩
  | cons i rest ih =>
    obtain ⟨hi, hrest⟩ := List.nodup_cons.1 hnodup
    obtain ⟨⟨field, hfield, hfieldty⟩, hbehind⟩ := List.forall_mem_cons.1 hnumeric
    obtain ⟨w₁, hstep, hfirst, hta, htb⟩ := addField_apply ha hb hta htb hfield hfieldty
    obtain ⟨w₂, hrun, hlater⟩ := ih hrest hbehind hta htb
    refine ⟨w₂, (Exec.bind_of_ok hstep).trans hrun, ?_⟩
    -- the positions behind are others, so the sums in front stay and the operands behind are
    -- untouched
    simpa only [List.mem_cons] using hfirst.trans hlater fun j hj hmem => hi (hj ▸ hmem)

/-- All numeric fields are added, if both arguments are records of the schema. -/
theorem exists_addAll_apply (ha : a.schema = s) (hb : b.schema = s) (hta : a.Typed w)
    (htb : b.Typed w) :
    ∃ w', addAll s (.record a) (.record b) w = .ok .unit w' ∧
      Accumulates (NumericAt s) a b w w' := by
  obtain ⟨w', hrun, hadds⟩ := forM_addField_apply (nodup_map_numericFields s)
    (fun i => mem_map_numericFields_iff.1) ha hb hta htb
  have hnumeric : (· ∈ (numericFields s).map Prod.snd) = NumericAt s :=
    funext fun i => propext mem_map_numericFields_iff
  exact ⟨w', Exec.bind_of_ok hrun, hnumeric ▸ hadds⟩

variable {total delta : Value}

/-- What is no record of the schema is found out when a field is read from it. -/
theorem addField_apply_of_not_instances (h : (s.isInstance total && s.isInstance delta) = false)
    (i : Nat) (w : World) :
    ∃ e, addField s total delta i w = .thrown e { w with nextId := w.nextId + 1 } := by
  -- the first operand is read first, so the second one counts only if that has gone well
  obtain ⟨v, hv⟩ | ⟨e, he⟩ := total.getField_outcome s i w
  · have hdelta : s.isInstance delta = false := by
      cases htotal : s.isInstance total with
      | true => rwa [htotal] at h
      | false =>
        obtain ⟨e, he, -⟩ := Value.getField_apply_of_isInstance_eq_false (i := i) (w := w) htotal
        exact nomatch hv.symm.trans he
    obtain ⟨e, he, -⟩ := Value.getField_apply_of_isInstance_eq_false (i := i) (w := w) hdelta
    exact ⟨e, (Exec.bind_of_ok hv).trans (Exec.bind_of_thrown he)⟩
  · exact ⟨e, Exec.bind_of_thrown he⟩

/-- Without a numeric field nothing is done. -/
theorem addAll_apply_of_none (h : ∀ i, ¬ NumericAt s i) (total delta : Value) (w : World) :
    addAll s total delta w = .ok .unit w := by
  have hnone : (numericFields s).map Prod.snd = [] :=
    List.eq_nil_iff_forall_not_mem.2 fun i hi => h i (mem_map_numericFields_iff.1 hi)
  rw [addAll, hnone]
  rfl

/-- With one, the first statement throws. -/
theorem addAll_apply_of_not_instances (h : (s.isInstance total && s.isInstance delta) = false)
    {i : Nat} (hi : NumericAt s i) (w : World) :
    ∃ e, addAll s total delta w = .thrown e { w with nextId := w.nextId + 1 } := by
  have hmem := mem_map_numericFields_iff.2 hi
  rw [addAll]
  cases hpositions : (numericFields s).map Prod.snd with
  -- a numeric field makes the list of statements nonempty
  | nil => rw [hpositions] at hmem; exact nomatch hmem
  | cons j rest =>
    obtain ⟨e, he⟩ := addField_apply_of_not_instances h j w
    exact ⟨e, Exec.bind_of_thrown (Exec.bind_of_thrown he)⟩

/-- A failure changes nothing. -/
theorem eq_of_addAll_eq_thrown {e : Exception} {w' : World}
    (htyped : ∀ r, Value.record r ∈ [total, delta] → r.schema = s → r.Typed w)
    (hthrown : addAll s total delta w = .thrown e w') : w' = { w with nextId := w.nextId + 1 } := by
  cases hinstances : s.isInstance total && s.isInstance delta with
  | true =>
    obtain ⟨htotal, hdelta⟩ := Bool.and_eq_true_iff.1 hinstances
    obtain ⟨a, rfl, ha⟩ := Schema.exists_record_of_isInstance htotal
    obtain ⟨b, rfl, hb⟩ := Schema.exists_record_of_isInstance hdelta
    have hta : a.Typed w := htyped a (by simp) ha
    have htb : b.Typed w := htyped b (by simp) hb
    obtain ⟨w₁, hrun, -⟩ := exists_addAll_apply ha hb hta htb
    exact nomatch hrun.symm.trans hthrown
  | false =>
    -- without a numeric field no operand is looked at
    by_cases hnumeric : ∃ i, NumericAt s i
    · obtain ⟨i, hi⟩ := hnumeric
      obtain ⟨e', he⟩ := addAll_apply_of_not_instances hinstances hi w
      exact (Outcome.thrown.inj (hthrown.symm.trans he)).2
    · have hnothing := addAll_apply_of_none (fun i hi => hnumeric ⟨i, hi⟩) total delta w
      exact nomatch hnothing.symm.trans hthrown

end

/-- The addition of one record to another adds field by field, also if the two are one and the same,
and it is done as a whole or not at all: it fails only for arguments that are no records of the
schema, and then before anything is written. -/
theorem addCounters_accumulates (s : Schema) (σ : Supply) :
    ∃ h σ', Gives (addCounters s) σ h σ' ∧ h.params = [s.ty, s.ty] ∧ h.ret = .void ∧
      (∀ (turns : Nat) (w : World) (a b : Record), a.schema = s → b.schema = s → a.Typed w →
        b.Typed w → ∃ w', h.invoke turns [.record a, .record b] w = .ok .unit w' ∧
          Accumulates (NumericAt s) a b w w' ∧ (b ≠ a → w'.fieldsOf b = w.fieldsOf b)) ∧
      (∀ (turns : Nat) (w : World) (total delta : Value),
        (s.isInstance total && s.isInstance delta) = false → (∃ i, NumericAt s i) →
        ∃ e, h.invoke turns [total, delta] w = .thrown e { w with nextId := w.nextId + 1 }) ∧
      ∀ (turns : Nat) (w w' : World) (total delta : Value) (e : Exception),
        (∀ r, Value.record r ∈ [total, delta] → r.schema = s → r.Typed w) →
        h.invoke turns [total, delta] w = .thrown e w' →
          w' = { w with nextId := w.nextId + 1 } := by
  obtain ⟨h, σ', hgives, hcomputes⟩ := exists_addCounters s σ
  refine ⟨h, σ', hgives, hcomputes.params_eq, hcomputes.ret_eq, ?_, ?_, ?_⟩
  · intro turns w a b ha hb hta htb
    obtain ⟨w', hrun, hadds⟩ := exists_addAll_apply ha hb hta htb
    have hfits : Fits [s.ty, s.ty] [.record a, .record b] :=
      .cons (Schema.ty_admits ha) (.cons (Schema.ty_admits hb) .nil)
    refine ⟨w', (hcomputes.invoke_apply hfits).trans hrun, hadds, fun hne => hadds.fieldsOf_eq ?_⟩
    exact fun haddr => hne (Record.eq_of_addr_eq (hb.trans ha.symm) haddr)
  · intro turns w total delta hinstances ⟨i, hi⟩
    -- a non-record is refused by the check of the arguments or else by the first read
    by_cases hfits : Fits [s.ty, s.ty] [total, delta]
    · rw [hcomputes.invoke_apply hfits]
      exact addAll_apply_of_not_instances hinstances hi w
    · exact hcomputes.exists_invoke_thrown hfits
  · intro turns w w' total delta e htyped hthrown
    by_cases hfits : Fits [s.ty, s.ty] [total, delta]
    · rw [hcomputes.invoke_apply hfits] at hthrown
      exact eq_of_addAll_eq_thrown htyped hthrown
    · obtain ⟨e', he⟩ : ∃ e', h.invoke turns [total, delta] w =
          .thrown e' { w with nextId := w.nextId + 1 } := hcomputes.exists_invoke_thrown hfits
      exact (Outcome.thrown.inj (hthrown.symm.trans he)).2

/-- A record is added to another one and to itself: sums wrap, and a number in a field of the erased
type is left alone. A record of another schema of the same name is not added. -/
theorem addCounters_accumulates_of_aliased :
    ∃ (s other : Schema) (w w₁ w₂ w₃ : World) (h : Handle) (σ' : Supply) (e : Exception),
      s.fields = [⟨"count", .int⟩, ⟨"bytes", .long⟩, ⟨"tag", .any⟩] ∧
      w.records = #[[.int 2147483647, .long 5, .int 7], [.int 1, .long (-5), .int 9]] ∧
      Gives (addCounters s) {} h σ' ∧
      h.invoke 0 [.record ⟨s, 0⟩, .record ⟨s, 1⟩] w = .ok .unit w₁ ∧
      w₁.fieldsOf ⟨s, 0⟩ = [.int (-2147483648), .long 0, .int 7] ∧
      w₁.fieldsOf ⟨s, 1⟩ = w.fieldsOf ⟨s, 1⟩ ∧
      h.invoke 0 [.record ⟨s, 0⟩, .record ⟨s, 0⟩] w = .ok .unit w₂ ∧
      w₂.fieldsOf ⟨s, 0⟩ = [.int (-2), .long 10, .int 7] ∧
      h.invoke 0 [.record ⟨s, 0⟩, .record ⟨other, 1⟩] w = .thrown e w₃ ∧ other.name = s.name ∧
      w₃ = { w with nextId := w.nextId + 1 } := by
  let s : Schema :=
    ⟨0, "Count", [⟨"count", .int⟩, ⟨"bytes", .long⟩, ⟨"tag", .any⟩], by decide, by decide⟩
  let other : Schema := ⟨1, "Count", [], by decide, by decide⟩
  let w : World :=
    { records := #[[.int 2147483647, .long 5, .int 7], [.int 1, .long (-5), .int 9]] }
  obtain ⟨h, σ', hgives, -, -, hadds, hrefuses, hatomic⟩ := addCounters_accumulates s {}
  have htyped : ∀ i < 2, Record.Typed ⟨s, i⟩ w := by decide
  have hcount : NumericAt s 0 := ⟨⟨"count", .int⟩, rfl, rfl⟩
  have hbytes : NumericAt s 1 := ⟨⟨"bytes", .long⟩, rfl, rfl⟩
  -- the third field is of the erased type, so it is not numeric
  have hother : ∀ i, ¬ NumericAt s (i + 2) := by
    rintro (_ | i) ⟨field, hfield, hnumeric⟩
    · obtain rfl := Option.some.inj hfield
      exact nomatch hnumeric
    · exact nomatch hfield
  obtain ⟨w₁, hrun, hsums, hkept⟩ := hadds 0 w ⟨s, 0⟩ ⟨s, 1⟩ rfl rfl (htyped 0 (by decide))
    (htyped 1 (by decide))
  obtain ⟨w₂, hrun', hsums', -⟩ := hadds 0 w ⟨s, 0⟩ ⟨s, 0⟩ rfl rfl (htyped 0 (by decide))
    (htyped 0 (by decide))
  obtain ⟨e, he⟩ := hrefuses 0 w (.record ⟨s, 0⟩) (.record ⟨other, 1⟩) (by decide) ⟨0, hcount⟩
  have hinstances : ∀ r, Value.record r ∈ [.record ⟨s, 0⟩, .record ⟨other, 1⟩] → r.schema = s →
      r.Typed w := by
    intro r hr hschema
    simp only [List.mem_cons, Value.record.injEq, List.not_mem_nil, or_false] at hr
    obtain rfl | rfl := hr
    · exact htyped 0 (by decide)
    · exact absurd hschema (by decide)
  refine ⟨s, other, w, w₁, w₂, _, h, σ', e, rfl, rfl, hgives, hrun, ?_, hkept (by decide), hrun',
    ?_, he, rfl, hatomic 0 w _ _ _ e hinstances he⟩
  · refine List.ext_getElem? ?_
    rintro (_ | _ | i)
    · exact hsums.getElem?_eq hcount rfl rfl (.int 2147483647 1)
    · exact hsums.getElem?_eq hbytes rfl rfl (.long 5 (-5))
    · exact hsums.kept ⟨s, 0⟩ (i + 2) (.inr (hother i))
  · refine List.ext_getElem? ?_
    rintro (_ | _ | i)
    · exact hsums'.getElem?_eq hcount rfl rfl (.int 2147483647 2147483647)
    · exact hsums'.getElem?_eq hbytes rfl rfl (.long 5 5)
    · exact hsums'.kept ⟨s, 0⟩ (i + 2) (.inr (hother i))

end Fieldwise

end Splice

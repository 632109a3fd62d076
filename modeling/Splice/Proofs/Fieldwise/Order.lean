import Splice.Fieldwise.Order
import Splice.Proofs.Closure.Operands
import Splice.Proofs.Scope.Local
import Splice.Proofs.Store.Objects

/-!
# Field-wise order

The handle of the field-wise order is composed for every schema, from the last field to the first:
the comparison of a field is a block around what has been composed for the fields behind it. It does
what `order` says, which walks the fields from the first to the last and stops at the first that is
not tied. Nothing behind that field is looked at.
-/

namespace Splice.Fieldwise

open Compose (Gives gives_lift_iff gives_lift_bind_iff)
open Handle (argument)
open Scoped (Makes)

/-! ## The composed program -/

/-- The order of two records by the field at a position. -/
def fieldOrder (s : Schema) (this that : Value) (i : Nat) : Exec Value := do
  (← this.getField s i).order (← that.getField s i)

/-- The order of two records by the fields at some positions, up to the first that is not tied. -/
def fieldsOrder (s : Schema) (this that : Value) : List Nat → Exec Value
  | [] => return .int 0
  | i :: rest => do
    let result ← fieldOrder s this that i
    Exec.select (return .bool (result.equals (.int 0))) (fieldsOrder s this that rest)
      (return result)

/-- The order of two records, which compares no fields of one and the same record. -/
def order (s : Schema) (this that : Value) : Exec Value :=
  Exec.select (return .bool (this.same that)) (return .int 0)
    (fieldsOrder s this that (List.range s.fields.length))

section

variable {s : Schema} {this that : Var}

/-- A result is returned unless it is a tie, which leaves the order to a closure. -/
theorem exists_untilTie {later : Closure} {z : Env → Exec Value} {known : List Var} {result : Var}
    (hlater : later.Computes known .int z) (hresult : result.ty = .int) :
    ∃ c, Makes (do
        let tie ← Closure.equals result (← Closure.constant (.int 0))
        return Expr.closure (← Closure.ifThenElse tie later result)) (Expr.closure c) ∧
      c.Computes (result :: known) .int fun env =>
        Exec.select (return .bool ((env result).equals (.int 0))) (z env) (return env result) := by
  have hmem : result ∈ result :: known := List.mem_cons_self
  have hvar := Var.computes hmem hresult
  obtain ⟨zero, hzero, hconstant⟩ := Closure.exists_int (result :: known) 0
  obtain ⟨tie, htie, hequals⟩ := Closure.exists_equals hvar hconstant.operand (by decide)
  have hlater := hlater.weaken (List.subset_cons_self result known)
  obtain ⟨c, hc, hselect⟩ := Closure.exists_select hequals.operand hlater.operand hvar (by decide)
  exact ⟨c, (Makes.lift hzero).bind ((Makes.lift htie).bind ((Makes.lift hc).bind (.pure _))),
    hselect⟩

/-- The comparison by the fields from a position on is composed from the last field to the first,
so that each block finds the comparison of the fields behind it. -/
theorem exists_compareFields (hthis : this.ty = s.ty) (hthat : that.ty = s.ty) {σ : Supply}
    (hscope : ∀ v ∈ [this, that], v.scope < σ.nextScope) {fields : List Field} {i : Nat}
    (hfields : s.fields.drop i = fields) :
    ∃ c σ', Gives (compareFields s this that fields) σ c σ' ∧ σ.nextScope ≤ σ'.nextScope ∧
      c.Computes [this, that] .int fun env =>
        fieldsOrder s (env this) (env that) (List.range' i fields.length) := by
  induction fields generalizing i with
  | nil =>
    obtain ⟨zero, hzero, hconstant⟩ := Closure.exists_int [this, that] 0
    exact ⟨zero, σ, gives_lift_iff.2 ⟨hzero, rfl⟩, Nat.le_refl _, hconstant⟩
  | cons field rest ih =>
    obtain ⟨hfield, hrest⟩ := getElem?_and_drop_of_drop hfields
    have hmem : this ∈ [this, that] := List.mem_cons_self
    have hmem' : that ∈ [this, that] := List.mem_cons_of_mem _ List.mem_cons_self
    -- the comparison of the fields behind is an operand of this one, so it is composed first
    obtain ⟨later, σ₁, hgives, hle, hlater⟩ := ih hrest
    obtain ⟨a, ha, hreads⟩ := Closure.exists_fieldOf hmem hthis hfield
    obtain ⟨b, hb, hreads'⟩ := Closure.exists_fieldOf hmem' hthat hfield
    obtain ⟨c, hc, hcompares⟩ :=
      Closure.exists_compare hreads hreads' (s.noVoid _ (List.mem_of_getElem? hfield))
    obtain ⟨d, σ₂, hd, hle', hcomputes⟩ := Scoped.exists_block
      (y := fun env v => Exec.select (return .bool (v.equals (.int 0)))
        (fieldsOrder s (env this) (env that) (List.range' (i + 1) rest.length)) (return v))
      hcompares (by decide) (by decide) (fun _ => exists_untilTie hlater)
      (fun env env' hagree => by rw [hagree this hmem, hagree that hmem'])
      -- the blocks of the fields behind have been opened since the parameters were declared
      fun v hv => Nat.lt_of_lt_of_le (hscope v hv) hle
    refine ⟨d, σ₂, ?_, Nat.le_trans hle hle', hcomputes⟩
    rw [compareFields, hgives.bind_iff, Scoped.block_lift_bind ha, Scoped.block_lift_bind hb,
      Scoped.block_lift_bind hc]
    exact hd

/-- The closure of the order is composed of the identity and the comparison of the fields. -/
theorem exists_compareClosure (hthis : this.ty = s.ty) (hthat : that.ty = s.ty) {σ : Supply}
    (hscope : ∀ v ∈ [this, that], v.scope < σ.nextScope) :
    ∃ c σ', Gives (compareClosure s this that) σ c σ' ∧
      c.Computes [this, that] .int fun env => order s (env this) (env that) := by
  have hmem : this ∈ [this, that] := List.mem_cons_self
  have hmem' : that ∈ [this, that] := List.mem_cons_of_mem _ List.mem_cons_self
  obtain ⟨later, σ', hgives, -, hlater⟩ :=
    exists_compareFields hthis hthat hscope List.drop_zero
  obtain ⟨same, hsame, hidentity⟩ := Closure.exists_same (Var.computes hmem hthis)
    (Var.computes hmem' hthat) s.ty_ne_void
  obtain ⟨zero, hzero, hconstant⟩ := Closure.exists_int [this, that] 0
  obtain ⟨c, hc, hselect⟩ := Closure.exists_select hidentity.operand hconstant.operand
    hlater.operand (by decide)
  refine ⟨c, σ', ?_, hselect.congr fun env => ?_⟩
  · rw [compareClosure, hgives.bind_iff, gives_lift_bind_iff hsame, gives_lift_bind_iff hzero,
      gives_lift_iff]
    exact ⟨hc, rfl⟩
  · rw [order, List.range_eq_range']
    rfl

end

/-- The handle of the field-wise order is composed for every schema. -/
theorem exists_compare (s : Schema) (σ : Supply) :
    ∃ h σ', Gives (compare s) σ h σ' ∧ h.Computes [s.ty, s.ty] .int fun args =>
      order s (argument args 0) (argument args 1) :=
  Scoped.exists_binaryFunction s.ty_ne_void s.ty_ne_void (by decide)
    (fun _ _ _ hthis hthat hscope => exists_compareClosure hthis hthat hscope) σ

/-! ## What it answers -/

/-- Two records are tied in the field at a position. -/
def Tied (w : World) (a b : Record) (i : Nat) : Prop :=
  ∃ v v', (w.fieldsOf a)[i]? = some v ∧ (w.fieldsOf b)[i]? = some v' ∧ v.compare v' = .ok .eq

/-- The field at a position is the first one in which two records are not tied, and these are their
values there. -/
structure FirstUntied (w : World) (a b : Record) (i : Nat) (v v' : Value) : Prop where
  tied : ∀ j < i, Tied w a b j
  left_eq : (w.fieldsOf a)[i]? = some v
  right_eq : (w.fieldsOf b)[i]? = some v'
  untied : v.compare v' ≠ .ok .eq

section

variable {s : Schema} {w : World} {a b : Record} {i : Nat} {v v' : Value}

/-- The order of one field is that of the two values in it. -/
theorem fieldOrder_apply (ha : a.schema = s) (hb : b.schema = s) (hv : (w.fieldsOf a)[i]? = some v)
    (hv' : (w.fieldsOf b)[i]? = some v') :
    fieldOrder s (.record a) (.record b) i w = v.order v' w :=
  (Exec.bind_of_ok (Value.getField_apply ha hv)).trans
    (Exec.bind_of_ok (Value.getField_apply hb hv'))

/-- Fields that are tied are passed over. -/
theorem fieldsOrder_of_tied (ha : a.schema = s) (hb : b.schema = s) {front rest : List Nat}
    (htied : ∀ i ∈ front, Tied w a b i) :
    fieldsOrder s (.record a) (.record b) (front ++ rest) w =
      fieldsOrder s (.record a) (.record b) rest w := by
  induction front with
  | nil => rfl
  | cons i front ih =>
    obtain ⟨⟨v, v', hv, hv', htie⟩, hfront⟩ := List.forall_mem_cons.1 htied
    have horder : fieldOrder s (.record a) (.record b) i w = .ok (.int 0) w := by
      rw [fieldOrder_apply ha hb hv hv', Value.order, htie]
      rfl
    exact (Exec.bind_of_ok horder).trans (ih hfront)

/-- The comparison of two values that are not tied is the answer, and so is its failure. -/
theorem fieldsOrder_cons_of_untied (ha : a.schema = s) (hb : b.schema = s) {rest : List Nat}
    (hv : (w.fieldsOf a)[i]? = some v) (hv' : (w.fieldsOf b)[i]? = some v')
    (huntied : v.compare v' ≠ .ok .eq) :
    fieldsOrder s (.record a) (.record b) (i :: rest) w = v.order v' w := by
  have horder := fieldOrder_apply ha hb hv hv'
  rw [Value.order] at horder ⊢
  cases hcompare : v.compare v' with
  -- an exception ends the comparison at this field
  | error fault =>
    rw [hcompare] at horder
    exact Exec.bind_of_thrown horder
  | ok ordering =>
    rw [hcompare] at horder huntied
    refine (Exec.bind_of_ok horder).trans ?_
    cases ordering with
    | lt => rfl
    | eq => exact absurd rfl huntied
    | gt => rfl

/-- The first field that is not tied decides, whatever stands behind it. -/
theorem fieldsOrder_of_firstUntied (ha : a.schema = s) (hb : b.schema = s)
    (hi : i < s.fields.length) (h : FirstUntied w a b i v v') :
    fieldsOrder s (.record a) (.record b) (List.range s.fields.length) w = v.order v' w := by
  obtain ⟨rest, hsplit⟩ : ∃ rest, List.range s.fields.length = List.range i ++ i :: rest := by
    obtain ⟨m, hlength⟩ := Nat.exists_eq_add_of_lt hi
    rw [hlength, Nat.add_assoc, List.range_add, List.range_succ_eq_map, List.map_cons]
    exact ⟨_, rfl⟩
  rw [hsplit, fieldsOrder_of_tied ha hb fun j hj => h.tied j (List.mem_range.1 hj)]
  exact fieldsOrder_cons_of_untied ha hb h.left_eq h.right_eq h.untied

/-- Two complete records are tied in all of their first fields, or there is a first one among these
in which they are not. -/
theorem tied_or_exists_firstUntied (ha : a.schema = s) (hb : b.schema = s)
    (hcomplete : a.Complete w) (hcomplete' : b.Complete w) {n : Nat} (hn : n ≤ s.fields.length) :
    (∀ i < n, Tied w a b i) ∨ ∃ i v v', i < n ∧ FirstUntied w a b i v v' := by
  -- among no fields, all are tied; one more field is tied, or it is the first that is not
  induction n with
  | zero => exact .inl nofun
  | succ n ih =>
    obtain hties | ⟨i, v, v', hi, hfirst⟩ := ih (Nat.le_of_succ_le hn)
    · have hlt : n < (w.fieldsOf a).length := hcomplete.symm ▸ ha.symm ▸ hn
      have hlt' : n < (w.fieldsOf b).length := hcomplete'.symm ▸ hb.symm ▸ hn
      have hleft := List.getElem?_eq_getElem hlt
      have hright := List.getElem?_eq_getElem hlt'
      by_cases htie : (w.fieldsOf a)[n].compare (w.fieldsOf b)[n] = .ok .eq
      · refine .inl fun i hi => ?_
        obtain hi | rfl := Nat.lt_succ_iff_lt_or_eq.1 hi
        · exact hties i hi
        · exact ⟨_, _, hleft, hright, htie⟩
      · exact .inr ⟨n, _, _, Nat.lt_succ_self n, hties, hleft, hright, htie⟩
    · exact .inr ⟨i, v, v', Nat.lt_succ_of_lt hi, hfirst⟩

/-- The sides of a comparison of a value with itself are not looked at. -/
theorem order_of_same {this that : Value} (h : this.same that = true) :
    order s this that = return .int 0 := by
  rw [order, Exec.select_return, if_pos h]

theorem order_of_not_same {this that : Value} (h : this.same that = false) :
    order s this that = fieldsOrder s this that (List.range s.fields.length) := by
  rw [order, Exec.select_return, if_neg (Bool.eq_false_iff.1 h)]

theorem order_apply_self : order s (.record a) (.record a) w = .ok (.int 0) w := by
  have hsame : (Value.record a).same (.record a) = true := decide_eq_true rfl
  rw [order_of_same hsame]
  rfl

theorem order_apply_of_ne (hne : a ≠ b) : order s (.record a) (.record b) w =
    fieldsOrder s (.record a) (.record b) (List.range s.fields.length) w := by
  have hdiffer : (Value.record a).same (.record b) = false := decide_eq_false hne
  rw [order_of_not_same hdiffer]

end

/-! ## The lexicographic order -/

/-- Field-wise comparison is lexicographic. It compares no fields of one and the same record, which
may have none to compare. Of two records, the first field that is not tied decides, by its order or
by the failure to compare it, whatever stands behind it, if anything does. Records that are tied in
all fields compare as equal. -/
theorem compare_is_lexicographic (s : Schema) (σ : Supply) :
    ∃ h σ', Gives (compare s) σ h σ' ∧ h.params = [s.ty, s.ty] ∧ h.ret = .int ∧
      ∀ (turns : Nat) (w : World) (a b : Record), a.schema = s → b.schema = s →
        h.call turns [.record a, .record b] w = h.invoke turns [.record a, .record b] w ∧
        (a = b → h.invoke turns [.record a, .record b] w = .ok (.int 0) w) ∧
        (a ≠ b → (∀ i < s.fields.length, Tied w a b i) →
          h.invoke turns [.record a, .record b] w = .ok (.int 0) w) ∧
        (a ≠ b → ∀ i v v', i < s.fields.length → FirstUntied w a b i v v' →
          (v.compare v' = .ok .lt →
            h.invoke turns [.record a, .record b] w = .ok (.int (-1)) w) ∧
          (v.compare v' = .ok .gt →
            h.invoke turns [.record a, .record b] w = .ok (.int 1) w) ∧
          ∀ fault, v.compare v' = .error fault →
            h.invoke turns [.record a, .record b] w =
              .thrown ⟨w.nextId, fault.cls, fault.message⟩ { w with nextId := w.nextId + 1 }) ∧
        (a.Complete w → b.Complete w → (∀ i < s.fields.length, Tied w a b i) ∨
          ∃ i v v', i < s.fields.length ∧ FirstUntied w a b i v v') := by
  obtain ⟨h, σ', hgives, hcomputes⟩ := exists_compare s σ
  refine ⟨h, σ', hgives, hcomputes.params_eq, hcomputes.ret_eq, fun turns w a b ha hb => ?_⟩
  have hinvoke : h.invoke turns [.record a, .record b] w = order s (.record a) (.record b) w :=
    hcomputes.invoke_apply (.cons (Schema.ty_admits ha) (.cons (Schema.ty_admits hb) .nil))
  rw [hinvoke, hcomputes.call_eq turns _ rfl]
  refine ⟨rfl, ?_, fun hne hties => ?_, fun hne i v v' hi hfirst => ?_,
    fun hcomplete hcomplete' =>
      tied_or_exists_firstUntied ha hb hcomplete hcomplete' (Nat.le_refl _)⟩
  · rintro rfl
    exact order_apply_self
  · have hpassed : fieldsOrder s (.record a) (.record b) (List.range s.fields.length ++ []) w = _ :=
      fieldsOrder_of_tied ha hb fun i hi => hties i (List.mem_range.1 hi)
    rw [List.append_nil] at hpassed
    rw [order_apply_of_ne hne, hpassed]
    rfl
  · rw [order_apply_of_ne hne, fieldsOrder_of_firstUntied ha hb hi hfirst, Value.order]
    refine ⟨fun hcompare => ?_, fun hcompare => ?_, fun fault hcompare => ?_⟩ <;>
      rw [hcompare] <;> rfl

/-- A null behind the first difference is not looked at; behind a tie it cannot be compared. -/
theorem compare_is_lexicographic_of_nulls :
    ∃ (s : Schema) (w : World) (h : Handle) (σ : Supply),
      s.fields = [⟨"x", .int⟩, ⟨"y", .str⟩] ∧
      w.records = #[[.int 1, .null], [.int 2, .null], [.int 1, .str 0 "a"]] ∧
      Gives (compare s) {} h σ ∧
      h.invoke 0 [.record ⟨s, 0⟩, .record ⟨s, 0⟩] w = .ok (.int 0) w ∧
      h.invoke 0 [.record ⟨s, 0⟩, .record ⟨s, 1⟩] w = .ok (.int (-1)) w ∧
      h.invoke 0 [.record ⟨s, 1⟩, .record ⟨s, 2⟩] w = .ok (.int 1) w ∧
      h.invoke 0 [.record ⟨s, 0⟩, .record ⟨s, 2⟩] w =
        .thrown ⟨w.nextId, "NullPointerException", "cannot compare null"⟩
          { w with nextId := w.nextId + 1 } := by
  let s : Schema := ⟨0, "Point", [⟨"x", .int⟩, ⟨"y", .str⟩], by decide, by decide⟩
  let w : World := { records := #[[.int 1, .null], [.int 2, .null], [.int 1, .str 0 "a"]] }
  obtain ⟨h, σ, hgives, -, -, hlaw⟩ := compare_is_lexicographic s {}
  have hlaws := fun i j => hlaw 0 w ⟨s, i⟩ ⟨s, j⟩ rfl rfl
  obtain ⟨-, hself, -⟩ := hlaws 0 0
  obtain ⟨-, -, -, hless, -⟩ := hlaws 0 1
  obtain ⟨-, -, -, hgreater, -⟩ := hlaws 1 2
  obtain ⟨-, -, -, hfails, -⟩ := hlaws 0 2
  have hfirst : FirstUntied w ⟨s, 0⟩ ⟨s, 1⟩ 0 (.int 1) (.int 2) := ⟨nofun, rfl, rfl, by decide⟩
  have hfirst' : FirstUntied w ⟨s, 1⟩ ⟨s, 2⟩ 0 (.int 2) (.int 1) := ⟨nofun, rfl, rfl, by decide⟩
  have hsecond : FirstUntied w ⟨s, 0⟩ ⟨s, 2⟩ 1 .null (.str 0 "a") := by
    refine ⟨fun j hj => ?_, rfl, rfl, nofun⟩
    obtain rfl := Nat.lt_one_iff.1 hj
    exact ⟨.int 1, .int 1, rfl, rfl, rfl⟩
  exact ⟨s, w, h, σ, rfl, rfl, hgives, hself rfl,
    (hless (by decide) 0 _ _ (by decide) hfirst).1 rfl,
    (hgreater (by decide) 0 _ _ (by decide) hfirst').2.1 rfl,
    (hfails (by decide) 1 _ _ (by decide) hsecond).2.2 .comparedNull rfl⟩

end Splice.Fieldwise

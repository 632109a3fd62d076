import Splice.Proofs.Fieldwise.Order
import Splice.Proofs.Store.TypedRecords
import Splice.Proofs.Value.Order

/-!
# Sorting by the field-wise order

Of a schema with ordered field types only, records that hold no null can all be compared: the handle
of the field-wise order answers with the sign of `World.recordOrder`, which compares the keys of the
fields lexicographically. This is one comparison of all records, oriented and transitive, so the
answers are fit for sorting. One and the same record, whose fields are not compared, is tied with
itself in that order too.
-/

namespace Splice

/-- A record of a schema with well-typed values, none of which is null. -/
structure Record.Filled (r : Record) (s : Schema) (w : World) : Prop where
  schema_eq : r.schema = s
  typed : r.Typed w
  notNull : ∀ v ∈ w.fieldsOf r, v.isNull = false

instance (r : Record) (s : Schema) (w : World) : Decidable (r.Filled s w) :=
  decidable_of_iff (r.schema = s ∧ r.Typed w ∧ ∀ v ∈ w.fieldsOf r, v.isNull = false)
    ⟨fun ⟨hschema, htyped, hnull⟩ => ⟨hschema, htyped, hnull⟩,
      fun h => ⟨h.schema_eq, h.typed, h.notNull⟩⟩

/-- The lexicographic order of two records by the keys of their fields. -/
def World.recordOrder (w : World) (a b : Record) : Ordering :=
  List.compareLex Value.keyOrder (w.fieldsOf a) (w.fieldsOf b)

namespace World

variable {w : World} {a b c : Record}

theorem recordOrder_self (w : World) (a : Record) : w.recordOrder a a = .eq := by
  rw [recordOrder]
  exact Std.ReflCmp.compare_self

theorem recordOrder_swap (w : World) (a b : Record) :
    w.recordOrder a b = (w.recordOrder b a).swap := by
  rw [recordOrder, recordOrder]
  exact Std.OrientedCmp.eq_swap

/-- The order is transitive, as the order of keys is. -/
theorem recordOrder_trans (hab : (w.recordOrder a b).isLE = true)
    (hbc : (w.recordOrder b c).isLE = true) : (w.recordOrder a c).isLE = true := by
  rw [recordOrder] at hab hbc ⊢
  exact Std.TransCmp.isLE_trans hab hbc

end World

/-- Values of ordered types, none of which is null, can be compared one by one. -/
theorem Fits.comparable {types : List Ty} {as bs : List Value} (ha : Fits types as)
    (hb : Fits types bs) (hordered : ∀ ty ∈ types, ty.isOrdered = true)
    (hnull : ∀ v ∈ as, v.isNull = false) (hnull' : ∀ v ∈ bs, v.isNull = false) :
    List.Forall₂ Value.Comparable as bs := by
  induction ha generalizing bs with
  | nil =>
    cases hb
    exact .nil
  | cons hv _ ih =>
    cases hb with
    | cons hv' hrest =>
      simp only [List.forall_mem_cons] at hordered hnull hnull'
      exact .cons (Value.comparable_of_admits hordered.1 hv hv' hnull.1 hnull'.1)
        (ih hrest hordered.2 hnull.2 hnull'.2)

namespace Fieldwise

open Compose (Gives)

section

variable {s : Schema} {w : World} {a b : Record}

/-- Filled records have comparable values in each field of an ordered type. -/
theorem comparable_fieldsOf (hordered : ∀ field ∈ s.fields, field.ty.isOrdered = true)
    (ha : a.Filled s w) (hb : b.Filled s w) :
    List.Forall₂ Value.Comparable (w.fieldsOf a) (w.fieldsOf b) := by
  have htypes : Fits s.fieldTypes (w.fieldsOf a) := ha.schema_eq ▸ ha.typed
  have htypes' : Fits s.fieldTypes (w.fieldsOf b) := hb.schema_eq ▸ hb.typed
  refine htypes.comparable htypes' (fun ty hty => ?_) ha.notNull hb.notNull
  obtain ⟨field, hfield, rfl⟩ := List.mem_map.1 hty
  exact hordered field hfield

/-- The fields from a position on are compared lexicographically. -/
theorem fieldsOrder_apply (ha : a.schema = s) (hb : b.schema = s) {as bs : List Value}
    (h : List.Forall₂ Value.Comparable as bs) {i : Nat} (has : (w.fieldsOf a).drop i = as)
    (hbs : (w.fieldsOf b).drop i = bs) :
    fieldsOrder s (.record a) (.record b) (List.range' i as.length) w =
      .ok (Value.ofOrdering (List.compareLex Value.keyOrder as bs)) w := by
  induction h generalizing i with
  | nil => rfl
  | @cons v v' as bs hfirst _ ih =>
    obtain ⟨hv, hrest⟩ := getElem?_and_drop_of_drop has
    obtain ⟨hv', hrest'⟩ := getElem?_and_drop_of_drop hbs
    have horder : fieldOrder s (.record a) (.record b) i w =
        .ok (Value.ofOrdering (v.keyOrder v')) w := by
      rw [fieldOrder_apply ha hb hv hv', Value.order, Value.compare_eq_keyOrder hfirst]
      rfl
    rw [List.compareLex_cons_cons]
    refine (Exec.bind_of_ok horder).trans ?_
    -- what is not tied is the answer, and a tie leaves it to the fields behind
    cases v.keyOrder v' with
    | lt => rfl
    | eq => exact ih hrest hrest'
    | gt => rfl

/-- The program answers with the sign of the order. -/
theorem order_apply (hordered : ∀ field ∈ s.fields, field.ty.isOrdered = true)
    (ha : a.Filled s w) (hb : b.Filled s w) :
    order s (.record a) (.record b) w = .ok (.int (Value.sign (w.recordOrder a b))) w := by
  rw [← Value.ofOrdering_eq_sign]
  -- a record is not compared with itself field by field, but its order says the same
  by_cases hab : a = b
  · subst hab
    rw [order_apply_self, World.recordOrder_self]
    rfl
  · have hlength : s.fields.length = (w.fieldsOf a).length := by
      rw [ha.typed.complete, ha.schema_eq]
    rw [order_apply_of_ne hab, List.range_eq_range', hlength]
    exact fieldsOrder_apply ha.schema_eq hb.schema_eq (comparable_fieldsOf hordered ha hb)
      List.drop_zero List.drop_zero

/-- The handle answers with the sign of the order, whichever way it came about. -/
theorem invoke_compare {σ σ' : Supply} {h : Handle} (hgives : Gives (compare s) σ h σ')
    (hordered : ∀ field ∈ s.fields, field.ty.isOrdered = true) (ha : a.Filled s w)
    (hb : b.Filled s w) (turns : Nat) :
    h.invoke turns [.record a, .record b] w =
      .ok (.int (Value.sign (w.recordOrder a b))) w := by
  obtain ⟨h', σ₁, hgives', hcomputes⟩ := exists_compare s σ
  obtain ⟨rfl, -⟩ := hgives.unique hgives'
  have hfits : Fits [s.ty, s.ty] [.record a, .record b] :=
    .cons (Schema.ty_admits ha.schema_eq) (.cons (Schema.ty_admits hb.schema_eq) .nil)
  rw [hcomputes.invoke_apply hfits]
  exact order_apply hordered ha hb

end

/-- The field-wise order is fit for sorting. If all field types are ordered, the comparison of two
records without nulls never fails, and its answers are the signs of one order: they change with the
order of the operands, and what is not behind a second record that is not behind a third is not
behind the third. -/
theorem compare_sorts (s : Schema) (hordered : ∀ field ∈ s.fields, field.ty.isOrdered = true)
    (σ : Supply) :
    ∃ h σ', Gives (compare s) σ h σ' ∧ h.params = [s.ty, s.ty] ∧ h.ret = .int ∧
      ∀ w : World, ∃ sign : Record → Record → Int32,
        (∀ turns a b, a.Filled s w → b.Filled s w →
          h.invoke turns [.record a, .record b] w = .ok (.int (sign a b)) w) ∧
        (∀ a b, sign a b = -sign b a) ∧
        ∀ a b c, sign a b ≤ 0 → sign b c ≤ 0 → sign a c ≤ 0 := by
  obtain ⟨h, σ', hgives, hcomputes⟩ := exists_compare s σ
  refine ⟨h, σ', hgives, hcomputes.params_eq, hcomputes.ret_eq, fun w => ?_⟩
  refine ⟨fun a b => Value.sign (w.recordOrder a b), fun turns a b ha hb => ?_, fun a b => ?_,
    fun a b c hab hbc => ?_⟩
  · exact invoke_compare hgives hordered ha hb turns
  · show Value.sign (w.recordOrder a b) = -Value.sign (w.recordOrder b a)
    rw [w.recordOrder_swap a b, Value.sign_swap]
  · rw [Value.sign_le_zero_iff] at hab hbc ⊢
    exact World.recordOrder_trans hab hbc

/-- A record with a value that is no number has its place behind those with numbers, and the two
zeros have places of their own. -/
theorem compare_sorts_of_nan :
    ∃ (s : Schema) (w : World) (h : Handle) (σ : Supply) (sign : Record → Record → Int32),
      s.fields = [⟨"x", .double⟩, ⟨"y", .str⟩] ∧
      w.records = #[[.double ⟨0x7ff8000000000000⟩, .str 0 "a"], [.double ⟨0⟩, .str 1 "b"],
        [.double Double.negativeZero, .str 2 "c"]] ∧
      Gives (compare s) {} h σ ∧
      h.invoke 0 [.record ⟨s, 2⟩, .record ⟨s, 1⟩] w = .ok (.int (-1)) w ∧
      h.invoke 0 [.record ⟨s, 1⟩, .record ⟨s, 0⟩] w = .ok (.int (-1)) w ∧
      h.invoke 0 [.record ⟨s, 2⟩, .record ⟨s, 0⟩] w = .ok (.int (sign ⟨s, 2⟩ ⟨s, 0⟩)) w ∧
      h.invoke 0 [.record ⟨s, 0⟩, .record ⟨s, 2⟩] w = .ok (.int (-sign ⟨s, 2⟩ ⟨s, 0⟩)) w ∧
      sign ⟨s, 2⟩ ⟨s, 0⟩ ≤ 0 := by
  let s : Schema := ⟨0, "Point", [⟨"x", .double⟩, ⟨"y", .str⟩], by decide, by decide⟩
  let w : World :=
    { records := #[[.double ⟨0x7ff8000000000000⟩, .str 0 "a"], [.double ⟨0⟩, .str 1 "b"],
        [.double Double.negativeZero, .str 2 "c"]] }
  have hordered : ∀ field ∈ s.fields, field.ty.isOrdered = true := by decide
  obtain ⟨h, σ, hgives, -, -, hsorts⟩ := compare_sorts s hordered {}
  obtain ⟨sign, hanswers, hswap, htrans⟩ := hsorts w
  have hfilled : ∀ i < 3, Record.Filled ⟨s, i⟩ s w := by decide
  have hanswer := fun i hi j hj => hanswers 0 ⟨s, i⟩ ⟨s, j⟩ (hfilled i hi) (hfilled j hj)
  have hsign : ∀ i (hi : i < 3) j (hj : j < 3),
      sign ⟨s, i⟩ ⟨s, j⟩ = Value.sign (w.recordOrder ⟨s, i⟩ ⟨s, j⟩) := fun i hi j hj => by
    have hcompare := invoke_compare hgives hordered (hfilled i hi) (hfilled j hj) 0
    exact Value.int.inj (Outcome.ok.inj ((hanswer i hi j hj).symm.trans hcompare)).1
  have hless : sign ⟨s, 2⟩ ⟨s, 1⟩ = -1 := by
    rw [hsign 2 (by decide) 1 (by decide)]
    decide
  have hless' : sign ⟨s, 1⟩ ⟨s, 0⟩ = -1 := by
    rw [hsign 1 (by decide) 0 (by decide)]
    decide
  refine ⟨s, w, h, σ, sign, rfl, rfl, hgives, ?_, ?_, ?_, ?_, ?_⟩
  · rw [hanswer 2 (by decide) 1 (by decide), hless]
  · rw [hanswer 1 (by decide) 0 (by decide), hless']
  · exact hanswer 2 (by decide) 0 (by decide)
  · rw [hanswer 0 (by decide) 2 (by decide), hswap]
  · exact htrans _ ⟨s, 1⟩ _ (by rw [hless]; decide) (by rw [hless']; decide)

end Fieldwise

end Splice

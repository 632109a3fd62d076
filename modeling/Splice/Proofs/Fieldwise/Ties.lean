import Splice.Proofs.Fieldwise.Equality
import Splice.Proofs.Fieldwise.Sorting

/-!
# Ties of the field-wise order

Records that the field-wise order ties and records that field-wise equality takes for equal are
almost the same, if all field types are ordered and no field is null. The order looks at patterns of
floating point numbers and equality at the numbers, so two records can be tied and not equal, for
they hold what is no number, and they can be equal and not tied, for a field is `0.0` in one of them
and `-0.0` in the other. There is no other way in which the two differ.
-/

namespace Splice.Fieldwise

open Compose (Gives)

section

variable {s : Schema} {w : World} {a b : Record}

/-- Records that are tied are equal unless they hold what is no number. -/
theorem agree_iff_of_tied (hordered : ∀ field ∈ s.fields, field.ty.isOrdered = true)
    (ha : a.Filled s w) (hb : b.Filled s w) (htied : w.recordOrder a b = .eq) :
    agree w a (.record b) = true ↔ a = b ∨ Value.anyHoldsNaN (w.fieldsOf a) = false ∧
      Value.anyHoldsNaN (w.fieldsOf b) = false := by
  have hfields := (Value.compareLex_eq_iff (comparable_fieldsOf hordered ha hb)).1 htied
  have hschema : b.schema = a.schema := hb.schema_eq.trans ha.schema_eq.symm
  simp [agree, hschema, Value.equalsAll_iff, hfields.1]

/-- Records that are equal are tied unless one of them holds a negative zero where the other one
holds the other zero. -/
theorem tied_iff_of_agree (hordered : ∀ field ∈ s.fields, field.ty.isOrdered = true)
    (ha : a.Filled s w) (hb : b.Filled s w) (hagree : agree w a (.record b) = true) :
    w.recordOrder a b = .eq ↔
      (w.fieldsOf a).map Value.negativeZeros = (w.fieldsOf b).map Value.negativeZeros := by
  obtain ⟨r, hr, -, hsame | hfields⟩ := agree_iff.1 hagree
  · obtain rfl := hsame.trans (Value.record.inj hr).symm
    exact iff_of_true (w.recordOrder_self a) rfl
  · obtain rfl := Value.record.inj hr
    have hcontents := (Value.equalsAll_iff.1 (Value.equalsAll_iff_forall₂.2 hfields)).2.2
    rw [World.recordOrder, Value.compareLex_eq_iff (comparable_fieldsOf hordered ha hb)]
    exact and_iff_right hcontents

end

/-- The field-wise order and field-wise equality agree on records of ordered fields without nulls,
up to what is no number and the sign of a zero: two records that are tied are equal exactly if they
are one and the same or hold numbers only, and two records that are equal are tied exactly if the
same of their fields hold a negative zero. -/
theorem compare_agrees_with_equals (s : Schema)
    (hordered : ∀ field ∈ s.fields, field.ty.isOrdered = true) (σ : Supply) :
    ∃ order same σ₁ σ₂, Gives (compare s) σ order σ₁ ∧ Gives (equals s) σ₁ same σ₂ ∧
      ∀ (turns : Nat) (w : World) (a b : Record), a.Filled s w → b.Filled s w →
        ∃ sign equal, order.invoke turns [.record a, .record b] w = .ok (.int sign) w ∧
          same.invoke turns [.record a, .record b] w = .ok (.bool equal) w ∧
          (sign = 0 → (equal = true ↔ a = b ∨ Value.anyHoldsNaN (w.fieldsOf a) = false ∧
            Value.anyHoldsNaN (w.fieldsOf b) = false)) ∧
          (equal = true → (sign = 0 ↔
            (w.fieldsOf a).map Value.negativeZeros = (w.fieldsOf b).map Value.negativeZeros)) := by
  obtain ⟨order, σ₁, horder, -⟩ := exists_compare s σ
  obtain ⟨same, σ₂, hsame, -⟩ := exists_equals s σ₁
  refine ⟨order, same, σ₁, σ₂, horder, hsame, fun turns w a b ha hb => ?_⟩
  refine ⟨Value.sign (w.recordOrder a b), agree w a (.record b),
    invoke_compare horder hordered ha hb turns,
    invoke_equals hsame ha.schema_eq ha.typed.complete hb.typed.complete, fun htied => ?_,
    fun hagree => ?_⟩
  · exact agree_iff_of_tied hordered ha hb (Value.sign_eq_zero_iff.1 htied)
  · rw [Value.sign_eq_zero_iff]
    exact tied_iff_of_agree hordered ha hb hagree

/-- Texts are tied and equal by their characters, whatever their identity; one and the same record
is equal to itself even if it holds what is no number, and another one with the same pattern is not.
-/
theorem compare_agrees_with_equals_of_texts :
    ∃ (s : Schema) (w : World) (order same : Handle) (σ₁ σ₂ : Supply),
      s.fields = [⟨"x", .double⟩, ⟨"y", .str⟩] ∧
      w.records = #[[.double ⟨0⟩, .str 0 "a"], [.double ⟨0⟩, .str 1 "a"],
        [.double ⟨0x7ff8000000000000⟩, .str 2 "a"], [.double ⟨0x7ff8000000000000⟩, .str 3 "a"]] ∧
      Gives (compare s) {} order σ₁ ∧ Gives (equals s) σ₁ same σ₂ ∧
      order.invoke 0 [.record ⟨s, 0⟩, .record ⟨s, 1⟩] w = .ok (.int 0) w ∧
      same.invoke 0 [.record ⟨s, 0⟩, .record ⟨s, 1⟩] w = .ok (.bool true) w ∧
      order.invoke 0 [.record ⟨s, 2⟩, .record ⟨s, 3⟩] w = .ok (.int 0) w ∧
      same.invoke 0 [.record ⟨s, 2⟩, .record ⟨s, 3⟩] w = .ok (.bool false) w ∧
      same.invoke 0 [.record ⟨s, 2⟩, .record ⟨s, 2⟩] w = .ok (.bool true) w := by
  let s : Schema := ⟨0, "Point", [⟨"x", .double⟩, ⟨"y", .str⟩], by decide, by decide⟩
  let w : World :=
    { records := #[[.double ⟨0⟩, .str 0 "a"], [.double ⟨0⟩, .str 1 "a"],
        [.double ⟨0x7ff8000000000000⟩, .str 2 "a"], [.double ⟨0x7ff8000000000000⟩, .str 3 "a"]] }
  have hordered : ∀ field ∈ s.fields, field.ty.isOrdered = true := by decide
  obtain ⟨order, same, σ₁, σ₂, horder, hsame, hlaw⟩ := compare_agrees_with_equals s hordered {}
  have hfilled : ∀ i < 4, Record.Filled ⟨s, i⟩ s w := by decide
  have htied : ∀ i (hi : i < 4) j (hj : j < 4), w.recordOrder ⟨s, i⟩ ⟨s, j⟩ = .eq →
      order.invoke 0 [.record ⟨s, i⟩, .record ⟨s, j⟩] w = .ok (.int 0) w ∧ ∃ equal,
        same.invoke 0 [.record ⟨s, i⟩, .record ⟨s, j⟩] w = .ok (.bool equal) w ∧
        (equal = true ↔ (⟨s, i⟩ : Record) = ⟨s, j⟩ ∨
          Value.anyHoldsNaN (w.fieldsOf ⟨s, i⟩) = false ∧
          Value.anyHoldsNaN (w.fieldsOf ⟨s, j⟩) = false) := fun i hi j hj htie => by
    obtain ⟨sign, equal, hsign, hequal, hiff, -⟩ :=
      hlaw 0 w ⟨s, i⟩ ⟨s, j⟩ (hfilled i hi) (hfilled j hj)
    have hzero := invoke_compare horder hordered (hfilled i hi) (hfilled j hj) 0
    rw [htie] at hzero
    obtain rfl : sign = 0 := Value.int.inj (Outcome.ok.inj (hsign.symm.trans hzero)).1
    exact ⟨hsign, equal, hequal, hiff rfl⟩
  obtain ⟨hfirst, equal, hequal, hiff⟩ := htied 0 (by decide) 1 (by decide) (by decide)
  obtain ⟨hsecond, other, hother, hiff'⟩ := htied 2 (by decide) 3 (by decide) (by decide)
  obtain ⟨-, itself, hitself, hiff''⟩ := htied 2 (by decide) 2 (by decide) (by decide)
  obtain rfl : equal = true := hiff.2 (by decide)
  obtain rfl : other = false := Bool.eq_false_iff.2 fun htrue => absurd (hiff'.1 htrue) (by decide)
  obtain rfl : itself = true := hiff''.2 (.inl rfl)
  exact ⟨s, w, order, same, σ₁, σ₂, rfl, rfl, horder, hsame, hfirst, hequal, hsecond, hother,
    hitself⟩

/-- Two records that hold the two zeros are equal and not tied, and two that hold one pattern which
is no number are tied and not equal. -/
theorem equal_zeros_are_not_tied :
    ∃ (s : Schema) (w : World) (order same : Handle) (σ₁ σ₂ : Supply),
      s.fields = [⟨"x", .double⟩] ∧
      w.records = #[[.double ⟨0⟩], [.double Double.negativeZero], [.double ⟨0x7ff8000000000000⟩],
        [.double ⟨0x7ff8000000000000⟩]] ∧
      Gives (compare s) {} order σ₁ ∧ Gives (equals s) σ₁ same σ₂ ∧
      order.invoke 0 [.record ⟨s, 0⟩, .record ⟨s, 1⟩] w = .ok (.int 1) w ∧
      same.invoke 0 [.record ⟨s, 0⟩, .record ⟨s, 1⟩] w = .ok (.bool true) w ∧
      order.invoke 0 [.record ⟨s, 2⟩, .record ⟨s, 3⟩] w = .ok (.int 0) w ∧
      same.invoke 0 [.record ⟨s, 2⟩, .record ⟨s, 3⟩] w = .ok (.bool false) w := by
  let s : Schema := ⟨0, "Point", [⟨"x", .double⟩], by decide, by decide⟩
  let w : World :=
    { records := #[[.double ⟨0⟩], [.double Double.negativeZero], [.double ⟨0x7ff8000000000000⟩],
        [.double ⟨0x7ff8000000000000⟩]] }
  have hordered : ∀ field ∈ s.fields, field.ty.isOrdered = true := by decide
  have hfilled : ∀ i < 4, Record.Filled ⟨s, i⟩ s w := by decide
  obtain ⟨order, σ₁, horder, -⟩ := exists_compare s {}
  obtain ⟨same, σ₂, hsame, -⟩ := exists_equals s σ₁
  have hsign := fun i hi j hj =>
    invoke_compare horder hordered (hfilled i hi) (hfilled j hj) 0
  have hequal : ∀ i < 4, ∀ j < 4, same.invoke 0 [.record ⟨s, i⟩, .record ⟨s, j⟩] w =
      .ok (.bool (agree w ⟨s, i⟩ (.record ⟨s, j⟩))) w := fun i hi j hj =>
    invoke_equals hsame (hfilled i hi).schema_eq (hfilled i hi).typed.complete
      (hfilled j hj).typed.complete
  have hbehind : w.recordOrder ⟨s, 0⟩ ⟨s, 1⟩ = .gt := by decide
  have htied : w.recordOrder ⟨s, 2⟩ ⟨s, 3⟩ = .eq := by decide
  have hagree : agree w ⟨s, 0⟩ (.record ⟨s, 1⟩) = true := by decide
  have hdisagree : agree w ⟨s, 2⟩ (.record ⟨s, 3⟩) = false := by decide
  refine ⟨s, w, order, same, σ₁, σ₂, rfl, rfl, horder, hsame, ?_, ?_, ?_, ?_⟩
  · rw [hsign 0 (by decide) 1 (by decide), hbehind]
    rfl
  · rw [hequal 0 (by decide) 1 (by decide), hagree]
  · rw [hsign 2 (by decide) 3 (by decide), htied]
    rfl
  · rw [hequal 2 (by decide) 3 (by decide), hdisagree]

end Splice.Fieldwise

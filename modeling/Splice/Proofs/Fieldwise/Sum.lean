import Splice.Proofs.Fieldwise.Totals
import Mathlib.Algebra.Group.Nat.Defs
import Mathlib.Algebra.Ring.Int.Defs
import Mathlib.Data.Set.List

/-!
# The sum of the integer fields

The handle of the sum is composed for every schema, of two statements for each field of type `int`:
one reads the field, the other adds what was read to the sum so far. The scope of the function grows
by two variables each time, and every statement finds the record and the latest sum among them. What
is added up are the fields that are declared as integers, and no others, whatever they hold.
-/

namespace Splice

/-- What the fields of a record hold that are declared with a type, in declaration order. -/
def Record.valuesOfType (r : Record) (w : World) (ty : Ty) : List Value :=
  ((r.schema.fields.zip (w.fieldsOf r)).filter (·.1.ty = ty)).map Prod.snd

namespace Fieldwise

open Compose (Gives)
open Handle (argument)
open Scoped (Means)

/-! ## The composed program -/

/-- Adds the fields of a record at some positions to a sum so far. -/
def sumFrom (s : Schema) (this : Value) : List Nat → Value → Exec Value
  | [], sum => return sum
  | i :: rest, sum => do
    let v ← this.getField s i
    sumFrom s this rest (← sum.plus v)

/-- The sum of all fields of type `int`. -/
def sumAll (s : Schema) (this : Value) : Exec Value :=
  sumFrom s this ((fieldsWhere (·.ty = .int) s).map Prod.snd) (.int 0)

/-- The statements for some fields go on from a sum that a variable stands for. -/
theorem means_addFields {s : Schema} {known : List Var} {data sum : Var} (hdata : data ∈ known)
    (hdataty : data.ty = s.ty) (hsum : sum ∈ known) (hsumty : sum.ty = .int)
    {fields : List (Field × Nat)}
    (hfields : ∀ f ∈ fields, s.fields[f.2]? = some f.1 ∧ f.1.ty = .int) :
    Means known (addFields s data (fields.map Prod.fst) sum)
      (fun env => sumFrom s (env data) (fields.map Prod.snd) (env sum)) (·.ty = .int) := by
  induction fields generalizing known sum with
  | nil => exact .pure (List.cons_subset.2 ⟨hsum, List.nil_subset _⟩) hsumty
  | cons f rest ih =>
    obtain ⟨⟨hfield, hty⟩, hrest⟩ := List.forall_mem_cons.1 hfields
    obtain ⟨read, hread, hreads⟩ := Closure.exists_getField hfield hdataty
    have hreads := hreads.weaken (List.cons_subset.2 ⟨hdata, List.nil_subset _⟩)
    have hassign := Means.assign hreads (hty.trans_ne (by decide))
    refine .lift_bind hread (Means.bind
      (y := fun env v => do sumFrom s (env data) (rest.map Prod.snd) (← (env sum).plus v))
      hassign (fun value hvalue => ?_) fun env env' hagree => ?_)
    · -- the sum so far and the value are two of the variables that there are by now
      have hvalue' : value ∈ known ++ [value] := List.mem_concat_self
      have hsum' : sum ∈ known ++ [value] := List.mem_append_left _ hsum
      have hdata' : data ∈ known ++ [value] := List.mem_append_left _ hdata
      obtain ⟨add, hadd, hadds⟩ := Closure.exists_plus (Var.computes hsum' hsumty)
        (Var.computes hvalue' (hvalue.trans hty)) rfl
      refine .lift_bind hadd (Means.bind
        (y := fun env next => sumFrom s (env data) (rest.map Prod.snd) next)
        (.assign hadds (by decide)) (fun next hnext => ?_) fun env env' hagree => ?_)
      · exact ih (List.mem_append_left _ hdata') List.mem_concat_self hnext hrest
      · rw [hagree data hdata']
    · rw [hagree data hdata, hagree sum hsum]

/-- The handle of the sum is composed for every schema. -/
theorem exists_sumFields (s : Schema) (σ : Supply) :
    ∃ h σ', Gives (sumFields s) σ h σ' ∧
      h.Computes [s.ty] .int fun args => sumAll s (argument args 0) := by
  refine Scoped.exists_function (.addParam s.ty_ne_void fun data hdata => ?_) σ
  obtain ⟨zero, hzero, hconstant⟩ := Closure.exists_int [data] 0
  have hmem : data ∈ [data] := List.mem_cons_self
  have hmeans : Means [data] (do
        let sum ← Scoped.assign (← Closure.constant (.int 0))
        addFields s data ((fieldsWhere (·.ty = .int) s).map Prod.fst) sum)
      (fun env => sumAll s (env data)) (·.ty = .int) := by
    refine .lift_bind hzero (Means.bind
      (y := fun env sum => sumFrom s (env data) ((fieldsWhere (·.ty = .int) s).map Prod.snd) sum)
      (.assign hconstant (by decide)) (fun sum hsum => ?_) fun env env' hagree => ?_)
    · refine means_addFields (List.mem_append_left _ hmem) hdata List.mem_concat_self hsum
        fun f hf => ?_
      simpa using mem_fieldsWhere_iff.1 hf
    · rw [hagree data hmem]
  have hreturns := hmeans.returns_var (z := fun args => sumAll s (argument args 0)) (by decide)
    fun _ => rfl
  have htypes : [data].map Var.ty = [s.ty] := by simp [hdata]
  rw [htypes, fieldsWhere_map_fst] at hreturns
  simpa only [bind_assoc, List.nil_append] using hreturns

/-! ## What it sums -/

section

variable {s : Schema} {w : World} {r : Record}

/-- The positions of the fields of a sort lead to what these fields hold. -/
theorem map_getElem?_fieldsWhere {fields : List Field} {values items : List Value} {i : Nat}
    (p : Field → Bool) (hlength : fields.length = items.length) (hitems : values.drop i = items) :
    ((fields.zipIdx i).filter (p ·.1)).map (values[·.2]?) =
      (((fields.zip items).filter (p ·.1)).map Prod.snd).map some := by
  induction fields generalizing i items with
  | nil => rfl
  | cons field rest ih =>
    cases items with
    | nil => exact nomatch hlength
    | cons v items =>
      obtain ⟨hv, hrest⟩ := getElem?_and_drop_of_drop hitems
      have hbehind := ih (Nat.succ.inj hlength) hrest
      rw [List.zipIdx_cons, List.zip_cons_cons, List.filter_cons, List.filter_cons]
      cases hp : p field with
      | true => simpa [hv] using hbehind
      | false => simpa using hbehind

/-- Integers are added to an integer in wrapping arithmetic. -/
theorem sumFrom_apply {positions : List Nat} {ints : List Int32} {n : Int32} (hr : r.schema = s)
    (hints : positions.map ((w.fieldsOf r)[·]?) = ints.map (some ∘ Value.int)) :
    sumFrom s (.record r) positions (.int n) w = .ok (.int (ints.foldl (· + ·) n)) w := by
  induction positions generalizing ints n with
  | nil =>
    obtain rfl := List.map_eq_nil_iff.1 hints.symm
    rfl
  | cons i rest ih =>
    cases ints with
    | nil => exact nomatch hints
    | cons m ints =>
      obtain ⟨hm, hrest⟩ := List.cons.inj hints
      exact (Exec.bind_of_ok (Value.getField_apply hr hm)).trans (ih hrest)

theorem toInt_foldl_add (n : Int32) (ints : List Int32) :
    (ints.foldl (· + ·) n).toInt = (n.toInt + (ints.map Int32.toInt).sum).bmod (2 ^ 32) := by
  induction ints generalizing n with
  | nil => simp
  | cons m ints ih =>
    rw [List.foldl_cons, ih, Int32.toInt_add, Int.bmod_add_bmod, List.map_cons, List.sum_cons,
      Int.add_assoc]

/-- The fields of type `int` of a well-typed record hold integers. -/
theorem exists_valuesOfType_int (hr : r.Typed w) :
    ∃ ints : List Int32, r.valuesOfType w .int = ints.map Value.int := by
  have hall : ∀ v ∈ r.valuesOfType w .int, v ∈ Set.range Value.int := fun v hv => by
    simp only [Record.valuesOfType, List.mem_map, List.mem_filter, decide_eq_true_eq] at hv
    obtain ⟨⟨field, v⟩, ⟨hmem, hty⟩, rfl⟩ := hv
    obtain ⟨i, hi⟩ := List.mem_iff_getElem?.1 hmem
    obtain ⟨hfield, hvalue⟩ := List.getElem?_zip_eq_some.1 hi
    obtain ⟨n, rfl⟩ := Ty.admits_int_iff.1 (hty ▸ hr.admits_of_getElem? hvalue field hfield)
    exact ⟨n, rfl⟩
  obtain ⟨ints, hints⟩ : r.valuesOfType w .int ∈ Set.range (List.map Value.int) := by
    rw [Set.range_list_map]
    exact hall
  exact ⟨ints, hints.symm⟩

/-- The sum is that of what the integer fields hold. -/
theorem exists_sumAll_apply (hr : r.schema = s) (htyped : r.Typed w) :
    ∃ (ints : List Int32) (sum : Int32), r.valuesOfType w .int = ints.map Value.int ∧
      sumAll s (.record r) w = .ok (.int sum) w ∧
      sum.toInt = ((ints.map Int32.toInt).sum).bmod (2 ^ 32) := by
  obtain ⟨ints, hints⟩ := exists_valuesOfType_int htyped
  subst hr
  have hread : ((fieldsWhere (·.ty = .int) r.schema).map Prod.snd).map ((w.fieldsOf r)[·]?) =
      ints.map (some ∘ Value.int) := by
    rw [List.map_map, ← List.map_map (g := some), ← hints]
    exact map_getElem?_fieldsWhere (·.ty = .int) htyped.complete.symm List.drop_zero
  refine ⟨ints, _, hints, sumFrom_apply rfl hread, ?_⟩
  rw [toInt_foldl_add, Int32.toInt_zero, Int.zero_add]

end

/-- The sum of a record's integer fields is the sum of what these hold at the time, as a signed
number of 32 bits. What other fields hold does not matter, and nothing is changed. -/
theorem sumFields_sums (s : Schema) (σ : Supply) :
    ∃ h σ', Gives (sumFields s) σ h σ' ∧ h.params = [s.ty] ∧ h.ret = .int ∧
      ∀ (turns : Nat) (w : World) (r : Record), r.schema = s → r.Typed w →
        ∃ (ints : List Int32) (sum : Int32), r.valuesOfType w .int = ints.map Value.int ∧
          h.call turns [.record r] w = .ok (.int sum) w ∧
          h.invoke turns [.record r] w = .ok (.int sum) w ∧
          sum.toInt = ((ints.map Int32.toInt).sum).bmod (2 ^ 32) := by
  obtain ⟨h, σ', hgives, hcomputes⟩ := exists_sumFields s σ
  refine ⟨h, σ', hgives, hcomputes.params_eq, hcomputes.ret_eq, fun turns w r hr htyped => ?_⟩
  obtain ⟨ints, sum, hints, hrun, hsum⟩ := exists_sumAll_apply hr htyped
  refine ⟨ints, sum, hints, ?_, ?_, hsum⟩
  · rw [hcomputes.call_eq turns _ rfl]
    exact hrun
  · rw [hcomputes.invoke_apply (.cons (Schema.ty_admits hr) .nil)]
    exact hrun

/-- The sum wraps, and leaves out a long and an integer in a field of the erased type. -/
theorem sumFields_sums_of_mixed :
    ∃ (s : Schema) (w : World) (h : Handle) (σ : Supply),
      s.fields = [⟨"count", .int⟩, ⟨"bytes", .long⟩, ⟨"tag", .any⟩, ⟨"limit", .int⟩] ∧
      w.records = #[[.int 2147483647, .long 5, .int 7, .int 3]] ∧
      Gives (sumFields s) {} h σ ∧
      h.invoke 0 [.record ⟨s, 0⟩] w = .ok (.int (-2147483646)) w := by
  let s : Schema :=
    ⟨0, "Count", [⟨"count", .int⟩, ⟨"bytes", .long⟩, ⟨"tag", .any⟩, ⟨"limit", .int⟩],
      by decide, by decide⟩
  let w : World := { records := #[[.int 2147483647, .long 5, .int 7, .int 3]] }
  obtain ⟨h, σ, hgives, -, -, hsums⟩ := sumFields_sums s {}
  obtain ⟨ints, sum, hints, -, hinvoke, hsum⟩ := hsums 0 w ⟨s, 0⟩ rfl (by decide)
  have hvalues : [2147483647, 3].map Value.int = ints.map Value.int := hints
  obtain rfl := List.map_injective_iff.2 (fun _ _ => Value.int.inj) hvalues
  have hvalue : sum.toInt = -2147483646 := hsum.trans (by decide)
  obtain rfl : sum = -2147483646 := Int32.toInt_inj.1 hvalue
  exact ⟨s, w, h, σ, rfl, rfl, hgives, hinvoke⟩

end Fieldwise

end Splice

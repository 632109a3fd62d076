import Splice.Proofs.Fieldwise.Equality
import Mathlib.Algebra.BigOperators.Fin
import Mathlib.Tactic.Ring

/-!
# Field-wise hash codes

The handle of the field-wise hash code is composed for every schema and computes the polynomial over
the hash codes of the fields, in declaration order: it multiplies and adds in wrapping arithmetic,
and what comes out is the sum over the integers, brought back to 32 bits. Values that are equal hash
alike unless they differ in the signs of an odd number of zeros, and so do records that field-wise
equality takes for equal: equality looks past the sign of a zero and the hash code does not.
-/

namespace Splice

namespace Value

theorem toInt_mixHash (hash next : Int32) :
    (mixHash hash next).toInt = (hash.toInt * 31 + next.toInt).bmod (2 ^ 32) := by
  rw [mixHash, Int32.toInt_add, Int32.toInt_mul, Int.bmod_add_bmod]
  rfl

/-- The hash code of a sequence is a polynomial over the hash codes of its values. The first of them
has the highest power, and only the start has a higher one. -/
theorem toInt_hashAll (start : Int32) (values : List Value) :
    (hashAll start values).toInt = (start.toInt * 31 ^ values.length +
      ∑ i : Fin values.length, values[i].hash.toInt * 31 ^ (values.length - 1 - i)).bmod
        (2 ^ 32) := by
  induction values generalizing start with
  | nil => simp [hashAll]
  | cons v rest ih =>
    let tail : Int := ∑ i : Fin rest.length, rest[i].hash.toInt * 31 ^ (rest.length - 1 - i)
    have hsum : ∑ i : Fin (v :: rest).length,
        (v :: rest)[i].hash.toInt * 31 ^ ((v :: rest).length - 1 - i) =
          v.hash.toInt * 31 ^ rest.length + tail := by
      refine (Fin.sum_univ_succ _).trans (congrArg₂ _ rfl (Finset.sum_congr rfl fun i _ => ?_))
      have hpower : (v :: rest).length - 1 - (i.succ : Nat) = rest.length - 1 - i := by
        rw [List.length_cons, Fin.val_succ]
        omega
      rw [hpower]
      rfl
    calc (hashAll start (v :: rest)).toInt
        = ((start.toInt * 31 + v.hash.toInt).bmod (2 ^ 32) * 31 ^ rest.length + tail).bmod
            (2 ^ 32) := by rw [hashAll, ih, toInt_mixHash]
      _ = ((start.toInt * 31 + v.hash.toInt) * 31 ^ rest.length + tail).bmod (2 ^ 32) := by
          -- the remainder may be taken at the end
          rw [← Int.bmod_add_bmod, Int.bmod_mul_bmod, Int.bmod_add_bmod]
      _ = _ := by
          rw [hsum, List.length_cons]
          congr 1
          ring

end Value

namespace Fieldwise

open Compose (Gives gives_lift_iff)
open Handle (argument)

/-! ## The composed program -/

/-- The hash code so far, with the field of a record at a position mixed in. -/
def mixField (s : Schema) (this : Value) (hash : Exec Value) (i : Nat) : Exec Value := do
  (← (← hash).times (.int 31)).plus (.int (← this.getField s i).hash)

/-- The polynomial over the hash codes of all fields. -/
def mixAll (s : Schema) (this : Value) : Exec Value :=
  (List.range s.fields.length).foldl (mixField s this) (return .int 0)

section

variable {s : Schema} {this : Var}

/-- One more field is mixed into what a closure computes. -/
theorem exists_mixField (hthis : this.ty = s.ty) {i : Nat} {field : Field}
    (hfield : s.fields[i]? = some field) {start : Closure} {x : Env → Exec Value}
    (hstart : start.Computes [this] .int x) :
    ∃ c, (do
        let fieldHash ← Closure.hashCode (← Closure.getField s field.name this)
        Closure.plus (← Closure.mul start (← Closure.constant (.int 31))) fieldHash) = .ok c ∧
      c.Computes [this] .int fun env => mixField s (env this) (x env) i := by
  obtain ⟨a, ha, hreads⟩ := Closure.exists_fieldOf List.mem_cons_self hthis hfield
  obtain ⟨b, hb, hhashes⟩ := Closure.exists_hashCode hreads
    (s.noVoid _ (List.mem_of_getElem? hfield))
  obtain ⟨factor, hfactor, hconstant⟩ := Closure.exists_int [this] 31
  obtain ⟨product, hproduct, hmul⟩ := Closure.exists_mul hstart.operand hconstant.operand rfl
  obtain ⟨c, hc, hplus⟩ := Closure.exists_plus hmul.operand hhashes.operand rfl
  refine ⟨c, ?_, hplus.congr fun env => ?_⟩
  · exact bind_eq_ok_iff.2 ⟨a, ha, bind_eq_ok_iff.2 ⟨b, hb, bind_eq_ok_iff.2 ⟨factor, hfactor,
      bind_eq_ok_iff.2 ⟨product, hproduct, hc⟩⟩⟩⟩
  · simp only [mixField, pure_bind, bind_assoc]

/-- The fields from a position on are mixed into what a closure computes. -/
theorem exists_mixFields (hthis : this.ty = s.ty) {fields : List Field} {start : Closure}
    {x : Env → Exec Value} (hstart : start.Computes [this] .int x) {i : Nat}
    (hfields : s.fields.drop i = fields) :
    ∃ c, mixFields s this fields start = .ok c ∧ c.Computes [this] .int fun env =>
      (List.range' i fields.length).foldl (mixField s (env this)) (x env) := by
  induction fields generalizing start x i with
  | nil => exact ⟨start, rfl, hstart⟩
  | cons field rest ih =>
    obtain ⟨hfield, hrest⟩ := getElem?_and_drop_of_drop hfields
    obtain ⟨next, hnext, hmixes⟩ := exists_mixField hthis hfield hstart
    obtain ⟨c, hc, hcomputes⟩ := ih hmixes hrest
    exact ⟨c, bind_eq_ok_iff.2 ⟨next, hnext, hc⟩, hcomputes⟩

theorem exists_hashClosure (hthis : this.ty = s.ty) :
    ∃ c, hashClosure s this = .ok c ∧ c.Computes [this] .int fun env => mixAll s (env this) := by
  obtain ⟨start, hzero, hconstant⟩ := Closure.exists_int [this] 0
  obtain ⟨c, hc, hcomputes⟩ := exists_mixFields hthis hconstant List.drop_zero
  refine ⟨c, bind_eq_ok_iff.2 ⟨start, hzero, hc⟩, hcomputes.congr fun env => ?_⟩
  rw [mixAll, List.range_eq_range']

end

/-- The handle of the field-wise hash code is composed for every schema. -/
theorem exists_hashCode (s : Schema) (σ : Supply) :
    ∃ h σ', Gives (hashCode s) σ h σ' ∧
      h.Computes [s.ty] .int fun args => mixAll s (argument args 0) := by
  have hclosure : ∀ (this : Var) (σ : Supply), this.ty = s.ty → this.scope < σ.nextScope →
      ∃ c σ', Gives (liftM (hashClosure s this)) σ c σ' ∧
        c.Computes [this] .int fun env => mixAll s (env this) := fun this σ hthis _ => by
    obtain ⟨c, hc, hcomputes⟩ := exists_hashClosure hthis
    exact ⟨c, σ, gives_lift_iff.2 ⟨hc, rfl⟩, hcomputes⟩
  exact Scoped.exists_unaryFunction s.ty_ne_void (by decide) hclosure σ

/-! ## What it computes -/

section

variable {s : Schema} {w : World} {r : Record} {hash : Exec Value} {n : Int32} {i : Nat}

theorem mixField_apply {v : Value} (hr : r.schema = s) (hv : (w.fieldsOf r)[i]? = some v)
    (hhash : hash w = .ok (.int n) w) :
    mixField s (.record r) hash i w = .ok (.int (Value.mixHash n v.hash)) w :=
  (Exec.bind_of_ok hhash).trans (Exec.bind_of_ok (Value.getField_apply hr hv))

/-- The fields from a position on are mixed into a hash code. -/
theorem foldl_mixField_apply {items : List Value} (hr : r.schema = s)
    (hitems : (w.fieldsOf r).drop i = items) (hhash : hash w = .ok (.int n) w) :
    (List.range' i items.length).foldl (mixField s (.record r)) hash w =
      .ok (.int (Value.hashAll n items)) w := by
  induction items generalizing hash n i with
  | nil => exact hhash
  | cons v rest ih =>
    obtain ⟨hv, hrest⟩ := getElem?_and_drop_of_drop hitems
    exact ih hrest (mixField_apply hr hv hhash)

theorem mixAll_apply (hr : r.schema = s) (hcomplete : r.Complete w) :
    mixAll s (.record r) w = .ok (.int (Value.hashAll 0 (w.fieldsOf r))) w := by
  have hlength : (w.fieldsOf r).length = s.fields.length := hr ▸ hcomplete
  rw [mixAll, List.range_eq_range', ← hlength]
  exact foldl_mixField_apply hr List.drop_zero rfl

end

/-- The hash code that the handle computes of every record of the schema. -/
theorem exists_hashCode_hashAll (s : Schema) (σ : Supply) :
    ∃ h σ', Gives (hashCode s) σ h σ' ∧ h.params = [s.ty] ∧ h.ret = .int ∧
      ∀ turns w r, r.schema = s → r.Complete w →
        h.call turns [.record r] w = .ok (.int (Value.hashAll 0 (w.fieldsOf r))) w ∧
        h.invoke turns [.record r] w = .ok (.int (Value.hashAll 0 (w.fieldsOf r))) w := by
  obtain ⟨h, σ', hgives, hcomputes⟩ := exists_hashCode s σ
  refine ⟨h, σ', hgives, hcomputes.params_eq, hcomputes.ret_eq,
    fun turns w r hr hcomplete => ⟨?_, ?_⟩⟩
  · rw [hcomputes.call_eq turns _ rfl]
    exact mixAll_apply hr hcomplete
  · rw [hcomputes.invoke_apply (.cons (Schema.ty_admits hr) .nil)]
    exact mixAll_apply hr hcomplete

/-! ## The polynomial -/

/-- The hash code of a record is the polynomial over the hash codes of what its fields hold at the
time, in declaration order and as a signed number of 32 bits. It never fails. -/
theorem hashCode_eq_polynomial (s : Schema) (σ : Supply) :
    ∃ h σ', Gives (hashCode s) σ h σ' ∧ h.params = [s.ty] ∧ h.ret = .int ∧
      ∀ (turns : Nat) (w : World) (r : Record), r.schema = s → r.Complete w →
        ∃ code : Int32, h.call turns [.record r] w = .ok (.int code) w ∧
          h.invoke turns [.record r] w = .ok (.int code) w ∧
          code.toInt = (∑ i : Fin (w.fieldsOf r).length,
            (w.fieldsOf r)[i].hash.toInt * 31 ^ (s.fields.length - 1 - i)).bmod (2 ^ 32) := by
  obtain ⟨h, σ', hgives, hparams, hret, hcode⟩ := exists_hashCode_hashAll s σ
  refine ⟨h, σ', hgives, hparams, hret, fun turns w r hr hcomplete => ?_⟩
  obtain ⟨hcall, hinvoke⟩ := hcode turns w r hr hcomplete
  have hlength : (w.fieldsOf r).length = s.fields.length := hr ▸ hcomplete
  refine ⟨_, hcall, hinvoke, ?_⟩
  rw [Value.toInt_hashAll, ← hlength, Int32.toInt_zero, Int.zero_mul, Int.zero_add]

/-- Products and sums wrap, and the code of the first field is what is multiplied most often. -/
theorem hashCode_eq_polynomial_of_least :
    ∃ (s : Schema) (w : World) (h : Handle) (σ : Supply),
      s.fields = [⟨"key", .int⟩, ⟨"size", .long⟩, ⟨"open", .bool⟩] ∧
      w.records = #[[.int (-2147483648), .long 4294967301, .bool true]] ∧
      Gives (hashCode s) {} h σ ∧
      h.invoke 0 [.record ⟨s, 0⟩] w = .ok (.int (-2147482293)) w := by
  let s : Schema :=
    ⟨0, "Shop", [⟨"key", .int⟩, ⟨"size", .long⟩, ⟨"open", .bool⟩], by decide, by decide⟩
  let w : World := { records := #[[.int (-2147483648), .long 4294967301, .bool true]] }
  obtain ⟨h, σ, hgives, -, -, hpolynomial⟩ := hashCode_eq_polynomial s {}
  obtain ⟨code, -, hinvoke, hcode⟩ := hpolynomial 0 w ⟨s, 0⟩ rfl (by decide)
  have hvalue : code.toInt = -2147482293 := hcode.trans (by decide)
  obtain rfl : code = -2147482293 := Int32.toInt_inj.1 hvalue
  exact ⟨s, w, h, σ, rfl, rfl, hgives, hinvoke⟩

/-! ## Equal values and their hash codes -/

/-- Records that agree hash alike exactly if their negative zeros have the same parity. -/
theorem hashAll_eq_iff_of_agree {w : World} {a b : Record}
    (h : agree w a (.record b) = true) (start : Int32) :
    Value.hashAll start (w.fieldsOf a) = Value.hashAll start (w.fieldsOf b) ↔
      Value.negativeZerosAll (w.fieldsOf a) % 2 = Value.negativeZerosAll (w.fieldsOf b) % 2 := by
  simp only [agree, Bool.and_eq_true, Bool.or_eq_true, decide_eq_true_eq] at h
  obtain ⟨-, rfl | hfields⟩ := h
  · exact iff_of_true rfl rfl
  · exact Value.hashAll_eq_iff_of_equalsAll hfields start

/-- Equal values hash alike exactly if they hold the same number of negative zeros up to parity, and
so do records that field-wise equality takes for equal. -/
theorem hash_eq_iff_negativeZeros (x y : Value) (s : Schema) (σ : Supply) :
    (x.equals y = true → (x.hash = y.hash ↔ x.negativeZeros % 2 = y.negativeZeros % 2)) ∧
    ∃ same hash σ₁ σ₂, Gives (equals s) σ same σ₁ ∧ Gives (hashCode s) σ₁ hash σ₂ ∧
      ∀ (turns : Nat) (w : World) (a b : Record),
        a.schema = s → b.schema = s → a.Complete w → b.Complete w →
        same.invoke turns [.record a, .record b] w = .ok (.bool true) w →
        ∃ m n, hash.invoke turns [.record a] w = .ok (.int m) w ∧
          hash.invoke turns [.record b] w = .ok (.int n) w ∧
          (m = n ↔ Value.negativeZerosAll (w.fieldsOf a) % 2 =
            Value.negativeZerosAll (w.fieldsOf b) % 2) := by
  refine ⟨Value.hash_eq_iff_of_equals, ?_⟩
  obtain ⟨same, σ₁, hsame, -⟩ := exists_equals s σ
  obtain ⟨hash, σ₂, hhash, -, -, hcode⟩ := exists_hashCode_hashAll s σ₁
  refine ⟨same, hash, σ₁, σ₂, hsame, hhash,
    fun turns w a b ha hb hcomplete hcomplete' hequal => ?_⟩
  rw [invoke_equals hsame ha hcomplete hcomplete'] at hequal
  injection hequal with hequal
  exact ⟨_, _, (hcode turns w a ha hcomplete).2, (hcode turns w b hb hcomplete').2,
    hashAll_eq_iff_of_agree (Value.bool.inj hequal) 0⟩

/-- Two negative zeros cancel out in a hash code, and one does not. -/
theorem hash_eq_iff_negativeZeros_of_pairs :
    (Value.list 0 [.double ⟨0⟩, .double ⟨0⟩]).hash =
      (Value.list 1 [.double Double.negativeZero, .double Double.negativeZero]).hash ∧
    ∃ (s : Schema) (w : World) (same hash : Handle) (σ₁ σ₂ : Supply) (m n : Int32),
      w.records = #[[.double ⟨0⟩, .double ⟨0⟩], [.double ⟨0⟩, .double Double.negativeZero]] ∧
      Gives (equals s) {} same σ₁ ∧ Gives (hashCode s) σ₁ hash σ₂ ∧
      same.invoke 0 [.record ⟨s, 0⟩, .record ⟨s, 1⟩] w = .ok (.bool true) w ∧
      hash.invoke 0 [.record ⟨s, 0⟩] w = .ok (.int m) w ∧
      hash.invoke 0 [.record ⟨s, 1⟩] w = .ok (.int n) w ∧ m ≠ n := by
  let s : Schema := ⟨0, "Point", [⟨"x", .double⟩, ⟨"y", .double⟩], by decide, by decide⟩
  let w : World :=
    { records := #[[.double ⟨0⟩, .double ⟨0⟩], [.double ⟨0⟩, .double Double.negativeZero]] }
  obtain ⟨hvalues, same, hash, σ₁, σ₂, hsame, hhash, hlaw⟩ := hash_eq_iff_negativeZeros
    (.list 0 [.double ⟨0⟩, .double ⟨0⟩])
    (.list 1 [.double Double.negativeZero, .double Double.negativeZero]) s {}
  refine ⟨(hvalues (by decide)).2 (by decide), ?_⟩
  have hcomplete : ∀ i < 2, Record.Complete ⟨s, i⟩ w := by decide
  have hequal : same.invoke 0 [.record ⟨s, 0⟩, .record ⟨s, 1⟩] w = .ok (.bool true) w :=
    invoke_equals hsame rfl (hcomplete 0 (by decide)) (hcomplete 1 (by decide))
  obtain ⟨m, n, hm, hn, hiff⟩ := hlaw 0 w ⟨s, 0⟩ ⟨s, 1⟩ rfl rfl (hcomplete 0 (by decide))
    (hcomplete 1 (by decide)) hequal
  exact ⟨s, w, same, hash, σ₁, σ₂, m, n, rfl, hsame, hhash, hequal, hm, hn,
    fun heq => absurd (hiff.1 heq) (by decide)⟩

/-- The two zeros are equal and hash differently. -/
theorem equal_zeros_hash_apart :
    (Value.double ⟨0⟩).equals (.double Double.negativeZero) = true ∧
      (Value.double ⟨0⟩).hash ≠ (Value.double Double.negativeZero).hash := by
  decide

end Fieldwise

end Splice

import Splice.Proofs.Handle.Conversion
import Splice.Proofs.Value.Equality

/-!
# Laws of the order of values

Two values that can be compared are compared by a key, which is a number or a text, and so
`Value.compare` is part of one comparison of all values, `Value.keyOrder`, which is oriented and
transitive and never fails. Values of one ordered type can be compared unless one of them is null.

Two such values are tied if they have the same content and neither or both of them are a negative
zero (`Value.keyOrder_eq_iff`). This is not quite equality, which does not look at the sign of a
zero and holds of no value that is not a number.
-/

namespace Splice

/-- The types whose values are ordered. -/
def Ty.isOrdered : Ty → Bool
  | bool | int | long | double | str => true
  | _ => false

namespace Double

/-- Patterns with a sign bit come before those without one. -/
theorem rank_eq (d : Double) : d.rank =
    if signBit ≤ d.bits.toNat then -(d.magnitude : Int) - 1 else d.magnitude := by
  by_cases h : signBit ≤ d.bits.toNat <;> simp [rank, isNegative, h]

/-- The total order tells all patterns apart. -/
theorem rank_inj {a b : Double} : a.rank = b.rank ↔ a = b := by
  refine ⟨fun h => ?_, congrArg rank⟩
  have ha : a.bits.toNat < 0x10000000000000000 := a.bits.toNat_lt
  have hb : b.bits.toNat < 0x10000000000000000 := b.bits.toNat_lt
  have hbits : a.bits.toNat = b.bits.toNat := by
    rw [rank_eq, rank_eq] at h
    split at h <;> split at h <;> simp only [magnitude, signBit] at * <;> omega
  cases a
  exact congrArg mk (UInt64.toNat_inj.1 hbits)

/-- A number is known by its pattern without the sign of a zero, and by that sign. -/
theorem eq_iff_unsigned {a b : Double} :
    a = b ↔ a.unsigned = b.unsigned ∧ a.negativeZeros = b.negativeZeros := by
  have hzero : negativeZero ≠ ⟨0⟩ := by decide
  simp only [unsigned, negativeZeros]
  by_cases ha : a = negativeZero <;> by_cases hb : b = negativeZero <;> grind

end Double

namespace Value

/-! ## Keys -/

/-- The number that a value is ordered by. -/
def number : Value → Int
  | bool b => b.toNat
  | int i => i.toInt
  | long l => l.toInt
  | double d => d.rank
  | _ => 0

/-- The text that a value is ordered by. -/
def characters : Value → String
  | str _ text => text
  | _ => ""

/-- The comparison by number, and by text for one number. -/
def keyOrder : Value → Value → Ordering :=
  compareLex (compareOn number) (compareOn characters)

instance : Std.TransCmp keyOrder :=
  inferInstanceAs (Std.TransCmp (compareLex (compareOn number) (compareOn characters)))

theorem keyOrder_eq_eq_iff {v w : Value} :
    v.keyOrder w = .eq ↔ v.number = w.number ∧ v.characters = w.characters := by
  simp [keyOrder, compareLex_eq_eq, compareOn]

/-- Values that can be compared: two truth values, two numbers of one sort or two texts. -/
inductive Comparable : Value → Value → Prop
  | bool (a b : Bool) : Comparable (.bool a) (.bool b)
  | int (a b : Int32) : Comparable (.int a) (.int b)
  | long (a b : Int64) : Comparable (.long a) (.long b)
  | double (a b : Double) : Comparable (.double a) (.double b)
  | str (i j : Nat) (a b : String) : Comparable (.str i a) (.str j b)

section

variable {v w : Value}

theorem comparable_of_admits {ty : Ty} (hty : ty.isOrdered = true) (hv : ty.admits v = true)
    (hw : ty.admits w = true) (hv' : v.isNull = false) (hw' : w.isNull = false) :
    Comparable v w := by
  cases ty with
  | bool =>
    cases v <;> simp [Ty.admits, Ty.isReference, Ty.isPrimitive] at hv
    cases w <;> simp [Ty.admits, Ty.isReference, Ty.isPrimitive] at hw
    exact .bool _ _
  | int =>
    obtain ⟨a, rfl⟩ := Ty.admits_int_iff.1 hv
    obtain ⟨b, rfl⟩ := Ty.admits_int_iff.1 hw
    exact .int a b
  | long =>
    obtain ⟨a, rfl⟩ := Ty.admits_long_iff.1 hv
    obtain ⟨b, rfl⟩ := Ty.admits_long_iff.1 hw
    exact .long a b
  | double =>
    obtain ⟨a, rfl⟩ := Ty.admits_double_iff.1 hv
    obtain ⟨b, rfl⟩ := Ty.admits_double_iff.1 hw
    exact .double a b
  | str =>
    -- null inhabits the type of texts too, and is ruled out
    cases v <;> simp [Ty.admits, isNull, kind] at hv hv'
    cases w <;> simp [Ty.admits, isNull, kind] at hw hw'
    exact .str _ _ _ _
  | _ => simp [Ty.isOrdered] at hty

/-- Values that can be compared are compared by their keys. -/
theorem compare_eq_keyOrder (h : Comparable v w) : v.compare w = .ok (v.keyOrder w) := by
  cases h with
  | bool a b => cases a <;> cases b <;> rfl
  | _ => simp [compare, keyOrder, compareLex, compareOn, number, characters, Double.totalCompare]

/-- Values that can be compared are tied if they are the same up to the identity of a text. -/
theorem keyOrder_eq_iff (h : Comparable v w) :
    v.keyOrder w = .eq ↔ v.content = w.content ∧ v.negativeZeros = w.negativeZeros := by
  rw [keyOrder_eq_eq_iff]
  cases h with
  | bool a b => cases a <;> cases b <;> simp [number, characters, content, negativeZeros]
  | int a b => simp [number, characters, content, negativeZeros, Int32.toInt_inj]
  | long a b => simp [number, characters, content, negativeZeros, Int64.toInt_inj]
  | double a b =>
    simp [number, characters, content, negativeZeros, Double.rank_inj, ← Double.eq_iff_unsigned]
  | str i j a b => simp [number, characters, content, negativeZeros]

/-- So are lists of such values, field by field. -/
theorem compareLex_eq_iff {as bs : List Value} (h : List.Forall₂ Comparable as bs) :
    List.compareLex keyOrder as bs = .eq ↔
      contents as = contents bs ∧ as.map negativeZeros = bs.map negativeZeros := by
  induction h with
  | nil => simp [List.compareLex_nil_nil]
  | cons hfirst _ ih =>
    rw [List.compareLex_cons_cons, Ordering.then_eq_eq, keyOrder_eq_iff hfirst, ih]
    simp only [contents, List.map_cons, List.cons.injEq]
    tauto

end

/-! ## Signs -/

/-- An ordering as a number. -/
def sign : Ordering → Int32
  | .lt => -1
  | .eq => 0
  | .gt => 1

theorem ofOrdering_eq_sign (o : Ordering) : ofOrdering o = int (sign o) := by cases o <;> rfl

theorem sign_swap (o : Ordering) : sign o.swap = -sign o := by cases o <;> decide

theorem sign_le_zero_iff {o : Ordering} : sign o ≤ 0 ↔ o.isLE = true := by cases o <;> decide

theorem sign_eq_zero_iff {o : Ordering} : sign o = 0 ↔ o = .eq := by cases o <;> decide

end Value

end Splice

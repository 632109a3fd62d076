import Splice.Value.Equality
import Mathlib.Data.List.Forall2

/-!
# Laws of equality and hash codes

Equality of values is equality of what they hold: `Value.content` leaves out the identities of
texts and lists and the sign of a zero, and two values are equal exactly if they have the same
content and hold nothing that is not a number (`Value.equals_iff`). So equality is symmetric and
transitive, and reflexive where there are no such patterns.

A hash code looks at the sign of a zero all the same. `Value.hash_eq` says how the hash code of a
value depends on its content and on its negative zeros: one of them changes the sign bit, two of
them cancel out.
-/

namespace Splice

/-! ## Floating point numbers -/

namespace Double

/-- Zero with its sign bit set. -/
def negativeZero : Double := ⟨0x8000000000000000⟩

/-- The number, with the sign of a zero taken away. -/
def unsigned (d : Double) : Double := if d = negativeZero then ⟨0⟩ else d

/-- How many negative zeros the number is. -/
def negativeZeros (d : Double) : Nat := if d = negativeZero then 1 else 0

/-- The zeros are the two patterns without a magnitude. -/
theorem magnitude_eq_zero_iff (d : Double) : d.magnitude = 0 ↔ d.unsigned = ⟨0⟩ := by
  have hlt : d.bits.toNat < 0x10000000000000000 := d.bits.toNat_lt
  have hzero : d = ⟨0⟩ ↔ d.bits.toNat = 0 := by
    rw [show d = ⟨0⟩ ↔ d.bits = 0 from ⟨fun h => h ▸ rfl, fun h => congrArg mk h⟩,
      ← UInt64.toNat_inj, UInt64.toNat_zero]
  have hnegative : d = negativeZero ↔ d.bits.toNat = 0x8000000000000000 := by
    rw [show d = negativeZero ↔ d.bits = 0x8000000000000000 from
      ⟨fun h => h ▸ rfl, fun h => congrArg mk h⟩, ← UInt64.toNat_inj]
    rfl
  rw [magnitude, signBit, unsigned]
  split
  next h => simp [hnegative.1 h]
  next h =>
    -- the sign bit is the highest, so what is left without it is all of the pattern
    have hne := mt hnegative.2 h
    rw [hzero]
    omega

/-- Numbers are equal if they are the same pattern up to the sign of a zero. -/
theorem equals_iff {a b : Double} :
    a.equals b = true ↔ a.isNaN = false ∧ b.isNaN = false ∧ a.unsigned = b.unsigned := by
  have hpattern : a.bits = b.bits ↔ a = b := ⟨congrArg mk, congrArg bits⟩
  have hsame : a.unsigned = b.unsigned ↔ a = b ∨ a.unsigned = ⟨0⟩ ∧ b.unsigned = ⟨0⟩ := by
    have hzero : negativeZero ≠ ⟨0⟩ := by decide
    rw [unsigned, unsigned]
    -- there are two cases for each number: it is the negative zero or it is left as it is
    by_cases ha : a = negativeZero <;> by_cases hb : b = negativeZero <;> grind
  simp [equals, magnitude_eq_zero_iff, hsame, hpattern, and_assoc]

end Double

/-! ## Content -/

namespace Value

mutual

/-- What equality looks at: all of a value but the identities of texts and lists and the sign of a
zero. -/
def content : Value → Value
  | double d => double d.unsigned
  | str _ text => str 0 text
  | list _ items => list 0 (contents items)
  | v => v

/-- The contents of values, in order. -/
def contents : List Value → List Value
  | [] => []
  | v :: vs => content v :: contents vs

end

mutual

/-- Whether a pattern that is no number is in a value, itself or in nested lists. -/
def holdsNaN : Value → Bool
  | double d => d.isNaN
  | list _ items => anyHoldsNaN items
  | _ => false

/-- Whether there is such a pattern in one of the values. -/
def anyHoldsNaN : List Value → Bool
  | [] => false
  | v :: vs => holdsNaN v || anyHoldsNaN vs

end

mutual

/-- How many negative zeros are in a value, itself or in nested lists. -/
def negativeZeros : Value → Nat
  | double d => d.negativeZeros
  | list _ items => negativeZerosAll items
  | _ => 0

/-- How many negative zeros are in the values together. -/
def negativeZerosAll : List Value → Nat
  | [] => 0
  | v :: vs => negativeZeros v + negativeZerosAll vs

end

mutual

/-- Values are equal if they have the same content, with numbers throughout. -/
theorem equals_iff {x y : Value} :
    x.equals y = true ↔ x.holdsNaN = false ∧ y.holdsNaN = false ∧ x.content = y.content := by
  cases x <;> cases y
  case list.list _ as _ bs =>
    rw [equals, holdsNaN, holdsNaN, content, content, list.injEq, and_iff_right rfl]
    exact equalsAll_iff
  all_goals simp [equals, holdsNaN, content, Double.equals_iff]

/-- Lists are equal if they have the same contents, with numbers throughout. -/
theorem equalsAll_iff {as bs : List Value} :
    equalsAll as bs = true ↔
      anyHoldsNaN as = false ∧ anyHoldsNaN bs = false ∧ contents as = contents bs := by
  cases as <;> cases bs
  case cons.cons a as b bs =>
    have hfirst : a.equals b = true ↔ _ := equals_iff
    have hrest : equalsAll as bs = true ↔ _ := equalsAll_iff
    simp only [equalsAll, anyHoldsNaN, contents, Bool.and_eq_true, Bool.or_eq_false_iff,
      List.cons.injEq, hfirst, hrest]
    grind
  all_goals simp [equalsAll, anyHoldsNaN, contents]

end

/-- Equality is symmetric. -/
theorem equals_comm (x y : Value) : x.equals y = y.equals x := by
  rw [Bool.eq_iff_iff, equals_iff, equals_iff, eq_comm (a := x.content)]
  exact and_left_comm

/-- Equality is transitive. -/
theorem equals_trans {x y z : Value} (hxy : x.equals y = true) (hyz : y.equals z = true) :
    x.equals z = true := by
  obtain ⟨hx, -, hcontent⟩ := equals_iff.1 hxy
  obtain ⟨-, hz, hcontent'⟩ := equals_iff.1 hyz
  exact equals_iff.2 ⟨hx, hz, hcontent.trans hcontent'⟩

/-- Equality of lists is symmetric. -/
theorem equalsAll_comm (as bs : List Value) : equalsAll as bs = equalsAll bs as :=
  equals_comm (list 0 as) (list 0 bs)

/-- Equality of lists is transitive. -/
theorem equalsAll_trans {as bs cs : List Value} (hab : equalsAll as bs = true)
    (hbc : equalsAll bs cs = true) : equalsAll as cs = true :=
  equals_trans (x := list 0 as) (y := list 0 bs) (z := list 0 cs) hab hbc

/-- Lists are equal if their values are, in order. -/
theorem equalsAll_iff_forall₂ {as bs : List Value} :
    equalsAll as bs = true ↔ List.Forall₂ (fun v v' => v.equals v' = true) as bs := by
  induction as generalizing bs with
  | nil => cases bs <;> simp [equalsAll]
  | cons a as ih => cases bs <;> simp [equalsAll, ih]

/-- Lists of one length are compared position by position. -/
theorem all_range_equals {as bs : List Value} (hlength : bs.length = as.length) :
    ((List.range as.length).all fun i =>
      (as[i]?.getD unit).equals (bs[i]?.getD unit)) = equalsAll as bs := by
  induction as generalizing bs with
  | nil =>
    rw [List.length_eq_zero_iff.1 hlength]
    rfl
  | cons a as ih =>
    obtain ⟨b, bs, rfl⟩ := List.exists_cons_of_length_eq_add_one hlength
    rw [equalsAll, ← ih (Nat.succ.inj hlength), List.length_cons, List.range_succ_eq_map,
      List.all_cons, List.all_map]
    rfl

/-- A value equals itself unless a part of it is no number. -/
theorem equals_self (x : Value) : x.equals x = !x.holdsNaN := by
  rw [Bool.eq_iff_iff, equals_iff]
  simp

end Value

/-! ## Hash codes -/

namespace Double

/-- What negative zeros add to a hash code: nothing or the sign bit, by their parity. -/
def signs (k : Nat) : Int32 := if k % 2 = 0 then 0 else Int32.minValue

/-- No negative zero adds nothing. -/
theorem signs_zero : signs 0 = 0 := rfl

/-- Two sign bits cancel out, so parities are added. -/
theorem signs_add (j k : Nat) : signs (j + k) = signs j + signs k := by
  rw [signs, signs, signs]
  rcases Nat.mod_two_eq_zero_or_one j with hj | hj <;>
    rcases Nat.mod_two_eq_zero_or_one k with hk | hk <;>
    rw [Nat.add_mod, hj, hk] <;> decide

/-- The factor of the polynomial is odd and keeps the sign bit. -/
theorem signs_mul (k : Nat) : signs k * 31 = signs k := by
  rw [signs]
  split <;> decide

/-- Parities are told apart by what they add. -/
theorem signs_inj {j k : Nat} : signs j = signs k ↔ j % 2 = k % 2 := by
  rw [signs, signs]
  rcases Nat.mod_two_eq_zero_or_one j with hj | hj <;>
    rcases Nat.mod_two_eq_zero_or_one k with hk | hk <;>
    rw [hj, hk] <;> decide

/-- The two zeros differ by the sign bit, and so do their hash codes. -/
theorem hash_eq_unsigned (d : Double) : d.hash = d.unsigned.hash + signs d.negativeZeros := by
  rw [unsigned, negativeZeros]
  split
  next h => rw [h]; decide
  next => exact (Int32.add_zero _).symm

end Double

namespace Value

open Double (signs signs_zero signs_add signs_mul signs_inj)

/-- A sign bit goes through a step of the hash, from either side. -/
theorem mixHash_signs (start next : Int32) (j k : Nat) :
    mixHash (start + signs j) (next + signs k) = mixHash start next + signs (j + k) := by
  have hfactor := signs_mul j
  have hsum := signs_add j k
  rw [mixHash, mixHash]
  grind

mutual

/-- The hash code of a value is that of its content, with the sign bit changed once for each
negative zero. -/
theorem hash_eq (x : Value) : x.hash = x.content.hash + signs x.negativeZeros := by
  cases x
  case list _ items =>
    have hitems := hashAll_signs items 1 0
    rwa [signs_zero, Int32.add_zero, Nat.zero_add] at hitems
  case double d => exact d.hash_eq_unsigned
  all_goals exact (Int32.add_zero _).symm

/-- The hash code of a list is that of its contents, with a sign bit for each negative zero. -/
theorem hashAll_signs (items : List Value) (start : Int32) (k : Nat) :
    hashAll (start + signs k) items =
      hashAll start (contents items) + signs (k + negativeZerosAll items) := by
  cases items with
  | nil => rfl
  | cons v vs =>
    -- a sign bit that is there already comes through the factor, which is odd
    rw [hashAll, hash_eq v, mixHash_signs, hashAll_signs vs, contents, hashAll, negativeZerosAll,
      Nat.add_assoc]

end

/-- Equal values hash alike exactly if their negative zeros have the same parity. -/
theorem hash_eq_iff_of_equals {x y : Value} (h : x.equals y = true) :
    x.hash = y.hash ↔ x.negativeZeros % 2 = y.negativeZeros % 2 := by
  rw [hash_eq x, hash_eq y, (equals_iff.1 h).2.2, Int32.add_right_inj, signs_inj]

/-- Equal lists hash alike exactly if their negative zeros have the same parity. -/
theorem hashAll_eq_iff_of_equalsAll {as bs : List Value} (h : equalsAll as bs = true)
    (start : Int32) : hashAll start as = hashAll start bs ↔
      negativeZerosAll as % 2 = negativeZerosAll bs % 2 := by
  have hitems := fun items => hashAll_signs items start 0
  simp only [signs_zero, Int32.add_zero, Nat.zero_add] at hitems
  rw [hitems as, hitems bs, (equalsAll_iff.1 h).2.2, Int32.add_right_inj, signs_inj]

end Value

end Splice

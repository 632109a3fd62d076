import Splice.Text.Units
import Splice.Value.Basic

/-!
# Equality, identity and hash codes

`Value.same` is identity: numeric equality for primitives, the same object for everything else.
`Value.equals` compares texts and lists by content and everything else by identity.
`Value.hash` is the hash code that goes with `equals`.
-/

namespace Splice.Value

mutual

/-- Whether two values are one and the same, floating point numbers taken by their pattern. -/
def identical : Value → Value → Bool
  | unit, unit => true
  | null, null => true
  | bool a, bool b => a = b
  | int a, int b => a = b
  | long a, long b => a = b
  | double a, double b => a = b
  | str i a, str j b => i = j && a = b
  | record a, record b => a = b
  | array a, array b => a = b
  | list i as, list j bs => i = j && identicalAll as bs
  | iterator a, iterator b => a = b
  | error a, error b => a = b
  | _, _ => false

/-- Whether two lists hold one and the same values in order. -/
def identicalAll : List Value → List Value → Bool
  | [], [] => true
  | a :: as, b :: bs => identical a b && identicalAll as bs
  | _, _ => false

end

/-- Identity of reference values, numeric equality of primitives. -/
def same : Value → Value → Bool
  | double a, double b => a.equals b
  | a, b => identical a b

mutual

/-- Content equality of texts and lists, identity of everything else. -/
def equals : Value → Value → Bool
  | unit, unit => true
  | null, null => true
  | bool a, bool b => a = b
  | int a, int b => a = b
  | long a, long b => a = b
  | double a, double b => a.equals b
  | str _ a, str _ b => a = b
  | record a, record b => a = b
  | array a, array b => a = b
  | list _ as, list _ bs => equalsAll as bs
  | iterator a, iterator b => a = b
  | error a, error b => a = b
  | _, _ => false

/-- Whether two lists have equal values in order, and so the same length. -/
def equalsAll : List Value → List Value → Bool
  | [], [] => true
  | a :: as, b :: bs => equals a b && equalsAll as bs
  | _, _ => false

end

/-- One step of the polynomial hash of a sequence, in wrapping arithmetic. -/
def mixHash (hash : Int32) (next : Int32) : Int32 := hash * 31 + next

/-- Hash code of a text: the polynomial over its UTF-16 units, from zero. -/
def textHash (s : String) : Int32 :=
  (Text.units s).foldl (fun hash unit => mixHash hash (Int32.ofNat unit)) 0

mutual

/-- Hash code of a value. Mutable objects and exceptions hash by identity. -/
def hash : Value → Int32
  | unit | null => 0
  | bool b => if b then 1231 else 1237
  | int i => i
  | long l => Double.foldHalves l.toUInt64
  | double d => d.hash
  | str _ text => textHash text
  | list _ items => hashAll 1 items
  | record r => Int32.ofNat r.addr
  | array a => Int32.ofNat a.addr
  | iterator addr => Int32.ofNat addr
  | error e => Int32.ofNat e.id

/-- The polynomial over the hash codes of a list of values, from a given start. -/
def hashAll (start : Int32) : List Value → Int32
  | [] => start
  | v :: vs => hashAll (mixHash start (hash v)) vs

end

/-- Identity of anything but floating point numbers is sameness of all parts. -/
theorem same_eq_identical_of_asDouble? {a b : Value} (h : a.asDouble? = none) :
    a.same b = a.identical b := by
  cases a <;> simp_all [same, asDouble?]

end Splice.Value

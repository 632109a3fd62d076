/-!
# Binary floating point numbers

A `Double` is a 64-bit IEEE 754 pattern. Comparison, total order and hash code are defined on the
pattern itself, so that laws about them are facts about integers; only arithmetic and conversions
go through the machine's floating point unit.
-/

namespace Splice

/-- An IEEE 754 binary64 number, given by its bit pattern. -/
structure Double where
  bits : UInt64
  deriving DecidableEq, Inhabited

namespace Double

/-- The place value of the sign bit, the highest of the pattern. -/
def signBit : Nat := 0x8000000000000000

/-- The pattern without its sign bit. -/
def magnitude (d : Double) : Nat := d.bits.toNat % signBit

/-- Whether the sign bit is set. -/
def isNegative (d : Double) : Bool := signBit ≤ d.bits.toNat

/-- The magnitude of the infinities; the patterns above it are not numbers. -/
def infinity : Nat := 0x7ff0000000000000

/-- Whether the pattern is not a number. -/
def isNaN (d : Double) : Bool := infinity < d.magnitude

/-- Numeric equality: the two zeros are equal, and nothing equals a pattern that is no number. -/
def equals (a b : Double) : Bool :=
  !a.isNaN && !b.isNaN && (a.bits == b.bits || a.magnitude == 0 && b.magnitude == 0)

/-- The place of a pattern in the total order that runs from the negative patterns of largest
magnitude over `-0.0` and `0.0` to the positive ones. -/
def rank (d : Double) : Int :=
  if d.isNegative then -(d.magnitude : Int) - 1 else d.magnitude

/-- Comparison by the total order of patterns. -/
def totalCompare (a b : Double) : Ordering := compare a.rank b.rank

/-- A 64-bit pattern folded onto 32 bits: the exclusive or of its halves. -/
def foldHalves (word : UInt64) : Int32 :=
  (word ^^^ (word >>> 32)).toUInt32.toInt32

/-- Hash code of the pattern, one for all patterns that are no numbers. -/
def hash (d : Double) : Int32 :=
  foldHalves (if d.isNaN then 0x7ff8000000000000 else d.bits)

/-- The number as the machine's floating point value. -/
def toFloat (d : Double) : Float := Float.ofBits d.bits

/-- The pattern of a machine floating point value. -/
def ofFloat (x : Float) : Double := ⟨x.toBits⟩

instance : Add Double := ⟨fun a b => ofFloat (a.toFloat + b.toFloat)⟩

instance : Mul Double := ⟨fun a b => ofFloat (a.toFloat * b.toFloat)⟩

def ofInt32 (i : Int32) : Double := ofFloat i.toFloat

/-- The nearest number, a tie going to the even mantissa. -/
def ofInt64 (l : Int64) : Double := ofFloat l.toFloat

/-- Truncation toward zero, clamped to the range of the result; `0` for what is no number. -/
def toInt32 (d : Double) : Int32 := d.toFloat.toInt32

/-- Truncation toward zero, clamped to the range of the result; `0` for what is no number. -/
def toInt64 (d : Double) : Int64 := d.toFloat.toInt64

theorem equals_comm (a b : Double) : a.equals b = b.equals a := by
  simp only [equals, Bool.and_comm a.isNaN.not, Bool.beq_comm (a := a.bits),
    Bool.and_comm (a.magnitude == 0)]

theorem equals_self (d : Double) : d.equals d = !d.isNaN := by
  simp [equals]

end Double

end Splice

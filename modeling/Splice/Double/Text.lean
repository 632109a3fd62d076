import Splice.Decimal.Shortest
import Splice.Double.Basic

/-!
# Written form of floating point numbers

A number is written with the fewest significant digits that read back as the same pattern. The
form is positional while the leading digit stands between `10 ^ -4` and `10 ^ 15`, and then always
has a point; outside that range it has an exponent: `0.0001`, `1.0`, `1e16`, `1.5e-7`.
-/

namespace Splice.Double

/-- The exponents of the leading digit that are written positionally. -/
def positionalExponents : Int × Int := (-4, 15)

/-- The number of mantissas in a binade: the place value of the lowest exponent bit. -/
def binade : Nat := 0x10000000000000

/-- The interval of reals that round to a positive finite pattern, in units of a power of two.

A mantissa at the foot of its binade has the gap below it halved. The ends round to the pattern
when its mantissa is even. -/
def rounding (magnitude : Nat) : Decimal.Rounding :=
  let biased := magnitude / binade
  let fraction := magnitude % binade
  let mantissa := if biased = 0 then fraction else binade + fraction
  let exponent : Int := ((if biased = 0 then 1 else biased : Nat) : Int) - 1077
  let scale := Nat.pow 2 exponent.toNat
  let gapBelow := if biased ≠ 0 && fraction = 0 then 1 else 2
  { low := (4 * mantissa - gapBelow) * scale
    value := 4 * mantissa * scale
    high := (4 * mantissa + 2) * scale
    unit := Nat.pow 2 (-exponent).toNat
    closed := mantissa % 2 = 0 }

/-- Digits with the leading one in place `10 ^ lead`, written positionally or with an exponent. -/
def layOut (digits : List Char) (lead : Int) : List Char :=
  if positionalExponents.1 ≤ lead ∧ lead ≤ positionalExponents.2 then
    if lead < 0 then
      '0' :: '.' :: List.replicate (-lead - 1).toNat '0' ++ digits
    else
      let whole := lead.toNat + 1
      let fraction := digits.drop whole
      digits.take whole ++ List.replicate (whole - digits.length) '0' ++ '.' ::
        (if fraction.isEmpty then ['0'] else fraction)
  else
    digits.take 1 ++ (if digits.length ≤ 1 then [] else '.' :: digits.drop 1) ++
      'e' :: (toString lead).toList

/-- The unsigned written form of a positive finite magnitude. -/
def magnitudeText (magnitude : Nat) : List Char :=
  match Decimal.shortest (rounding magnitude) 17 with
  | none => []
  | some d =>
    let d := d.normal 20
    let digits := Nat.toDigits 10 d.digits
    layOut digits (d.exponent + digits.length - 1)

/-- The written form of a number. -/
def text (d : Double) : String :=
  if d.isNaN then "NaN"
  else
    let sign := if d.isNegative then "-" else ""
    if d.magnitude = infinity then sign ++ "inf"
    else if d.magnitude = 0 then sign ++ "0.0"
    else sign ++ String.ofList (magnitudeText d.magnitude)

end Splice.Double

/-!
# Shortest decimals

`Decimal.shortest` finds the decimal with the fewest significant digits that lies in a given
interval around a positive rational, and among those of that length the one nearest to it.

An `n`-digit decimal near a value is one of the two neighbours of the value on a grid of powers of
ten: if any point of the grid lies in the interval then one of the neighbours does. So it is enough
to test the two neighbours on the grids of one digit, two digits and so on, and to stop at the
first grid that has a hit.
-/

namespace Splice.Decimal

/-- The decimal `digits · 10 ^ exponent`. -/
structure Scientific where
  digits : Nat
  exponent : Int
  deriving DecidableEq

/-- A positive rational `value / unit` inside an interval `low / unit … high / unit`. The ends
belong to the interval exactly when `closed` is set. -/
structure Rounding where
  low : Nat
  value : Nat
  high : Nat
  unit : Nat
  closed : Bool

namespace Rounding

/-- How often `n` must be multiplied by ten to reach `bound`. -/
def tensUpTo (bound : Nat) : (fuel : Nat) → (n : Nat) → Nat
  | 0, _ => 0
  | fuel + 1, n => if bound ≤ n then 0 else tensUpTo bound fuel (10 * n) + 1

/-- The `k` with `10 ^ (k - 1) ≤ value / unit < 10 ^ k`. -/
def magnitude (r : Rounding) : Int :=
  if r.unit ≤ r.value then ((Nat.toDigits 10 (r.value / r.unit)).length : Int)
  else 1 - (tensUpTo r.unit r.unit.log2 r.value : Int)

/-- Whether the rational `num / den`, in the scale of `unit`, lies in the interval. -/
def contains (r : Rounding) (num den : Nat) : Bool :=
  if r.closed then r.low * den ≤ num && num ≤ r.high * den
  else r.low * den < num && num < r.high * den

/-- The better neighbour of the value on the grid of multiples of `10 ^ exponent`: the one that
lies in the interval, of two the nearer, and the upper one of two at the same distance. -/
def neighbour? (r : Rounding) (exponent : Int) : Option Scientific :=
  let up := Nat.pow 10 exponent.toNat
  let down := Nat.pow 10 (-exponent).toNat
  let below := r.value * down / (r.unit * up)
  let hit := fun c => r.contains (c * r.unit * up) down
  let upperNearer := (2 * below + 1) * r.unit * up ≤ 2 * r.value * down
  if hit below && !(hit (below + 1) && upperNearer) then some ⟨below, exponent⟩
  else if hit (below + 1) then some ⟨below + 1, exponent⟩
  else none

/-- The first hit on the grids of `n`, `n + 1`, … significant digits. -/
def search (r : Rounding) : (fuel n : Nat) → Option Scientific
  | 0, _ => none
  | fuel + 1, n => (r.neighbour? (r.magnitude - n)).or (search r fuel (n + 1))

end Rounding

/-- The decimal of fewest digits in the interval, among those of at most `most` digits. -/
def shortest (r : Rounding) (most : Nat) : Option Scientific :=
  r.search most 1

/-- A number as significant digits without trailing zeros, with the exponent of the last digit. -/
def Scientific.normal (fuel : Nat) (d : Scientific) : Scientific :=
  match fuel with
  | 0 => d
  | fuel + 1 =>
    if d.digits ≠ 0 && d.digits % 10 = 0 then normal fuel ⟨d.digits / 10, d.exponent + 1⟩ else d

end Splice.Decimal

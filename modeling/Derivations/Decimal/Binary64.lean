/-!
# Finite 64-bit floating-point numbers

A finite number of the binary64 format is a sign and a magnitude. The magnitude is the number's
place among the non-negative ones in increasing order, which is also its bit pattern without the
sign, so two magnitudes are ordered as the values are. `units` is the exact value counted in the
least positive number, `2 ^ (-1074)`; every finite number is a whole count of it.

`ofDecimal` rounds a decimal to the nearest finite number, a tie going to the even magnitude. This
is exact, as the standard of the format asks for. Readers that give up exactness for speed, scaling
by a rounded power of ten, may end at a neighbour of that number.
-/

namespace Derivations

namespace Binary64

/-- The least positive number is two to the minus this. -/
def places : Nat := 1074

/-- The count of magnitudes of one binary exponent, two to the 52. -/
def span : Nat := 0x10000000000000

/-- The count of non-negative finite numbers. -/
def finiteCount : Nat := 2047 * span

end Binary64

/-- A finite binary64 number. -/
structure Binary64 where
  negative : Bool
  magnitude : Nat
  finite : magnitude < Binary64.finiteCount
  deriving DecidableEq, Repr

/-- The decimal `significand * 10 ^ exponent`. -/
structure Decimal where
  significand : Nat
  exponent : Int
  deriving DecidableEq, Repr

namespace Binary64

/-- The binary exponent of the steps at a magnitude over the least step. -/
def scale (magnitude : Nat) : Nat := magnitude / span - 1

/-- The absolute value, counted in the least positive number. -/
def units (x : Binary64) : Nat :=
  (x.magnitude - scale x.magnitude * span) * Nat.pow 2 (scale x.magnitude)

/-- Equality of values: the two zeros are one number. -/
def sameValue (x y : Binary64) : Bool :=
  x.magnitude == y.magnitude && (x.negative == y.negative || x.magnitude == 0)

/-! ## Rounding -/

/-- The whole number nearest to `num / den`, a tie going to the even one. -/
def roundDiv (num den : Nat) : Nat :=
  let floor := num / den
  let twice := 2 * (num % den)
  if twice < den then floor else if den < twice then floor + 1 else floor + floor % 2

/-- The magnitude nearest to `num / den` units, as if there were no greatest one. The step is
chosen so that the rounded significand has 53 bits, or fewer where the least step is used. -/
def nearest (num den : Nat) : Nat :=
  let scale := (num / den).log2 - 52
  scale * span + roundDiv num (den * Nat.pow 2 scale)

/-- Above this exponent every decimal but zero is too large to be finite. -/
def maxExponent : Nat := 400

/-- The magnitude nearest to a decimal, with no bound on it. A decimal far below the least
positive number is zero, and one of a huge exponent is beyond all finite numbers; neither is
expanded. -/
def nearestTo (d : Decimal) : Nat :=
  match d.exponent with
  | .ofNat e =>
    if d.significand = 0 then 0
    else if maxExponent < e then finiteCount
    else nearest (d.significand * Nat.pow 10 e * Nat.pow 2 places) 1
  | .negSucc e =>
    if d.significand.log2 + places + 26 < 3 * e then 0
    else nearest (d.significand * Nat.pow 2 places) (Nat.pow 10 (e + 1))

/-- The finite number nearest to a decimal, rounded exactly; none where the nearest is infinite. -/
def ofDecimal (negative : Bool) (d : Decimal) : Option Binary64 :=
  let magnitude := nearestTo d
  if finite : magnitude < finiteCount then some ⟨negative, magnitude, finite⟩ else none

end Binary64

end Derivations

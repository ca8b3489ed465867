import Derivations.Decimal.Binary64

/-!
# The shortest decimal of a floating-point number

`Binary64.shortest` is the decimal of fewest digits that rounds back to the number; of two such
decimals the nearer one, and of two equally near ones that with the even last digit. The search
goes through the grids of one digit, two digits and so on. On each it tries the two neighbours of
the exact value, and the grid that holds the exact value ends it.
-/

namespace Derivations

namespace Binary64

/-- Does the decimal round to the magnitude of `x`? -/
def readsAs (x : Binary64) (d : Decimal) : Bool := nearestTo d == x.magnitude

/-- The exact value, which has as many decimal places as the least positive number has binary
ones. -/
def exact (x : Binary64) : Decimal := ⟨x.units * Nat.pow 5 places, -places⟩

/-- The decimal that stands for the exact one when `dropped` of its digits are left out, if one
of the two neighbours on that grid rounds to `x`. -/
def onGrid? (x : Binary64) (dropped : Nat) : Option Decimal :=
  let step := Nat.pow 10 dropped
  let exact := x.exact.significand
  let floor := exact / step
  let below : Decimal := ⟨floor, dropped - places⟩
  let above : Decimal := ⟨floor + 1, dropped - places⟩
  match x.readsAs below, x.readsAs above with
  | true, true => some (if roundDiv exact step = floor then below else above)
  | true, false => some below
  | false, true => some above
  | false, false => none

/-- The first grid that serves, with `dropped` digits left out or fewer. -/
def shortestFrom (x : Binary64) : Nat → Decimal
  | 0 => x.exact
  | dropped + 1 => (x.onGrid? (dropped + 1)).getD (x.shortestFrom dropped)

/-- How many digits of a number can be left out. A binary digit is worth less than 0.30103 decimal
ones, so the coarsest grid has at most one digit of the number. -/
def droppable (n : Nat) : Nat := n.log2 * 30103 / 100000 + 1

/-- The decimal of fewest digits that rounds to the absolute value of `x`. -/
def shortest (x : Binary64) : Decimal := x.shortestFrom (droppable x.exact.significand)

end Binary64

end Derivations

import Derivations.Decimal.Binary64

/-!
# Writing a decimal

The digits of a decimal are laid out around the power of ten of the first one. Near zero the
layout is positional and always has a fraction; further out it is scientific, with the sign of
the exponent written and a point only where a second digit follows it.
-/

namespace Derivations

namespace Decimal

/-- The digits without the zeros at the end. -/
def digits (d : Decimal) : List Char :=
  ((Nat.toDigits 10 d.significand).reverse.dropWhile (· = '0')).reverse

/-- The power of ten that the first digit counts. -/
def lead (d : Decimal) : Int := d.exponent + ((Nat.toDigits 10 d.significand).length - 1)

/-- The powers of ten of the first digit that are written positionally. -/
structure Layout where
  positionalFrom : Int
  positionalTo : Int
  deriving DecidableEq, Repr

def positional (digits : List Char) : Int → List Char
  | .ofNat lead =>
    digits.take (lead + 1) ++ List.replicate (lead + 1 - digits.length) '0' ++
      '.' :: (if digits.length ≤ lead + 1 then ['0'] else digits.drop (lead + 1))
  | .negSucc gap => '0' :: '.' :: (List.replicate gap '0' ++ digits)

def scientific (digits : List Char) (lead : Int) : List Char :=
  digits.take 1 ++ (if digits.length ≤ 1 then [] else '.' :: digits.drop 1) ++
    'e' :: (if lead < 0 then '-' else '+') :: Nat.toDigits 10 lead.natAbs

/-- The text of a positive decimal. -/
def chars (layout : Layout) (d : Decimal) : List Char :=
  if layout.positionalFrom ≤ d.lead ∧ d.lead ≤ layout.positionalTo then
    positional d.digits d.lead
  else
    scientific d.digits d.lead

end Decimal

end Derivations

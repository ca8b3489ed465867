import Derivations.Decimal.Layout
import Derivations.Decimal.Shortest

/-!
# Numbers of a JSON text

A number is an integer of 64 bits, signed or unsigned, or a finite floating-point number. The two
kinds never equal each other, whatever their values. `Number.chars` writes a number and
`Numeral.number?` gives the number that the parts of a literal stand for.
-/

namespace Derivations

namespace Json

inductive Number
  | integer (value : Int)
    (inRange : -0x8000000000000000 ≤ value ∧ value < 0x10000000000000000)
  | float (value : Binary64)
  deriving DecidableEq, Repr

/-- A floating-point number is written positionally from `0.00001` up to sixteen whole digits. -/
def floatLayout : Decimal.Layout := ⟨-5, 15⟩

namespace Number

def signChars (negative : Bool) : List Char := if negative then ['-'] else []

/-- The text of a number: integers in full, the rest by the shortest decimal that reads back. -/
def chars : Number → List Char
  | .integer value _ => signChars (value < 0) ++ Nat.toDigits 10 value.natAbs
  | .float value =>
    signChars value.negative ++
      if value.magnitude = 0 then ['0', '.', '0'] else value.shortest.chars floatLayout

/-- Equality of values within a kind: the two zeros of the floating-point kind are equal. -/
def same : Number → Number → Bool
  | .integer a _, .integer b _ => a == b
  | .float a, .float b => a.sameValue b
  | _, _ => false

end Number

/-- The parts of a number literal, each list holding digits. -/
structure Numeral where
  negative : Bool
  whole : List Char
  fraction : Option (List Char)
  /-- The sign of the exponent, true for minus, and its digits. -/
  exponent : Option (Bool × List Char)
  deriving DecidableEq, Repr

namespace Numeral

def digitsValue (digits : List Char) : Nat := Nat.ofDigitChars 10 digits 0

/-- The literal as a decimal, its sign left out. -/
def decimal (n : Numeral) : Decimal where
  significand := digitsValue (n.whole ++ n.fraction.getD [])
  exponent :=
    (match n.exponent with
      | none => (0 : Int)
      | some (false, digits) => digitsValue digits
      | some (true, digits) => -(digitsValue digits : Int)) - ((n.fraction.getD []).length : Int)

/-- The integer of a literal without fraction and exponent, if it has 64 bits. Minus zero is no
integer. -/
def integer? (n : Numeral) : Option Number :=
  let size := digitsValue n.whole
  match n.fraction, n.exponent with
  | none, none =>
    if n.negative then
      if h : 0 < size ∧ size ≤ 0x8000000000000000 then some (.integer (-size) (by omega)) else none
    else
      if h : size < 0x10000000000000000 then some (.integer size (by omega)) else none
  | _, _ => none

/-- The number that a literal stands for; none if it is too large to be finite. A fraction is rounded
exactly, so a number's text reads back as the number. A reader that rounds faster and only as well
as it can may be one magnitude off, and then a number is not what its text reads as. -/
def number? (n : Numeral) : Option Number :=
  n.integer? <|> (Binary64.ofDecimal n.negative n.decimal).map .float

end Numeral

end Json

end Derivations

import Derivations.Json.Raw
import Derivations.OutId
import Derivations.Text.Visible

/-!
# What a reader of a text reports

Reading a text as something of a known shape fails with a fault of the text or because the value
has another shape. `ShapeError.message` words each cause.
-/

namespace Derivations

namespace Json

/-- The kind of value met where another was expected. -/
inductive Found
  | null
  | bool (value : Bool)
  | number (value : Number)
  | string (value : String)
  | sequence
  | map
  deriving DecidableEq, Repr

/-- A way in which a well-formed value is not what was expected. -/
inductive ShapeError
  | missingField (name : String)
  | duplicateField (name : String)
  | invalidType (found : Found) (expected : String)
  | unknownVariant (name : String) (variants : List String)
  | malformedOut (text : String)
  /-- A variant given as an object has the variant for its only key. -/
  | notSingleKey
  | tooShort (length : Nat) (record : String) (size : Nat)
  | tooLong (length size : Nat)
  /-- The outermost array goes on after the last field. -/
  | leftOver (length : Nat)
  deriving DecidableEq, Repr

/-- Why a text is not read. -/
inductive ReadError
  | fault (fault : Fault)
  | shape (error : ShapeError)
  deriving DecidableEq, Repr

/-- A word of the format, set off from the message around it. -/
def code (text : String) : String := "\x60" ++ text ++ "\x60"

def Found.describe : Found → String
  | .null => "null"
  | .bool value => "boolean " ++ code (if value then "true" else "false")
  | .number (.integer value inRange) =>
    "integer " ++ code (String.ofList (Number.integer value inRange).chars)
  | .number (.float value) => "floating point " ++ code (String.ofList (Number.float value).chars)
  | .string value => "string " ++ Text.visible value
  | .sequence => "sequence"
  | .map => "map"

/-- A choice in words. -/
def oneOf : List String → String
  | [] => "there are no variants"
  | [a] => code a
  | [a, b] => code a ++ " or " ++ code b
  | names => "one of " ++ ", ".intercalate (names.map code)

def elements (n : Nat) : String := toString n ++ (if n = 1 then " element" else " elements")

def ShapeError.message : ShapeError → String
  | .missingField name => "missing field " ++ code name
  | .duplicateField name => "duplicate field " ++ code name
  | .invalidType found expected => "invalid type: " ++ found.describe ++ ", expected " ++ expected
  | .unknownVariant name variants =>
    "unknown variant " ++ code name ++ ", expected " ++ oneOf variants
  | .malformedOut text => OutId.malformedMessage text
  | .notSingleKey => "invalid value: map, expected map with a single key"
  | .tooShort length record size =>
    "invalid length " ++ toString length ++ ", expected struct " ++ record ++ " with " ++
      elements size
  | .tooLong length size =>
    "invalid length " ++ toString length ++ ", expected " ++ elements size ++ " in sequence"
  | .leftOver length =>
    "invalid length " ++ toString length ++ ", expected fewer elements in array"

end Json

end Derivations

import Derivations.Json.Basic
import Derivations.StringMap

/-!
# The canonical form of a value

In canonical form the keys of every object, at every depth, are strictly increasing by code
points, and of a repeated key the last value is kept. Arrays keep their order. Nothing is added:
an absent entry stays absent and an explicit null stays.
-/

namespace Derivations

namespace Json

mutual

def canonical : Json → Json
  | .array items => .array (canonicalItems items)
  | .object entries => .object (StringMap.ofList (canonicalEntries entries)).entries
  | value => value

def canonicalItems : List Json → List Json
  | [] => []
  | x :: xs => canonical x :: canonicalItems xs

def canonicalEntries : List (String × Json) → List (String × Json)
  | [] => []
  | (k, x) :: es => (k, canonical x) :: canonicalEntries es

end

/-- The canonical form by way of a value without repeated keys. -/
def canonicalValue (value : Json) : Json := value.collapse.canonical

end Json

end Derivations

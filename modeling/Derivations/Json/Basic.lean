import Derivations.Json.Number

/-!
# JSON values

A value is a tree whose objects keep their entries in the order given, repeated keys included.
Equality of values, `Json.same`, compares objects entry by entry in that order and numbers within
their kind. `Json.collapse` keeps one entry of each repeated key: the last value, at the place of
the first.
-/

namespace Derivations

inductive Json
  | null
  | bool (value : Bool)
  | number (value : Json.Number)
  | string (value : String)
  | array (items : List Json)
  | object (entries : List (String × Json))

namespace Json

instance : Inhabited Json := ⟨.null⟩

mutual

/-- Equality of values: the order of entries counts, and the two zeros are one number. -/
def same : Json → Json → Bool
  | .null, .null => true
  | .bool a, .bool b => a == b
  | .number a, .number b => a.same b
  | .string a, .string b => a == b
  | .array xs, .array ys => sameItems xs ys
  | .object es, .object fs => sameEntries es fs
  | _, _ => false

def sameItems : List Json → List Json → Bool
  | [], [] => true
  | x :: xs, y :: ys => same x y && sameItems xs ys
  | _, _ => false

def sameEntries : List (String × Json) → List (String × Json) → Bool
  | [], [] => true
  | (k, x) :: es, (l, y) :: fs => k == l && same x y && sameEntries es fs
  | _, _ => false

end

instance : BEq Json := ⟨same⟩

mutual

/-- How many arrays and objects are open at once in the value's text. -/
def depth : Json → Nat
  | .array items => depthItems items + 1
  | .object entries => depthEntries entries + 1
  | _ => 0

def depthItems : List Json → Nat
  | [] => 0
  | x :: xs => max (depth x) (depthItems xs)

def depthEntries : List (String × Json) → Nat
  | [] => 0
  | (_, x) :: es => max (depth x) (depthEntries es)

end

/-- Sets a key: in its place if the list has it, else at the end. -/
def setEntry {α : Type} (key : String) (value : α) : List (String × α) → List (String × α)
  | [] => [(key, value)]
  | (k, v) :: rest =>
    if k = key then (key, value) :: rest else (k, v) :: setEntry key value rest

/-- One entry a key: the last value, at the place of the first. -/
def lastValues {α : Type} (entries : List (String × α)) : List (String × α) :=
  entries.foldl (fun kept e => setEntry e.1 e.2 kept) []

mutual

/-- The value without repeated keys. -/
def collapse : Json → Json
  | .array items => .array (collapseItems items)
  | .object entries => .object (lastValues (collapseEntries entries))
  | value => value

def collapseItems : List Json → List Json
  | [] => []
  | x :: xs => collapse x :: collapseItems xs

def collapseEntries : List (String × Json) → List (String × Json)
  | [] => []
  | (k, x) :: es => (k, collapse x) :: collapseEntries es

end

end Json

end Derivations

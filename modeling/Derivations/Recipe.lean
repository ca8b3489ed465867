import Derivations.Identity
import Derivations.Source.Decode

/-!
# Recipes

A recipe is a derivation as whoever builds it sees it: its dependencies are identifiers, and no
graph is needed to read it. It is stored as pretty canonical text.
-/

namespace Derivations

structure Recipe where
  out : OutId
  name : String
  version : String
  src : Source
  dependencies : List OutId
  permissions : Option StringSet
  postbuild : Option String

def Derivation.recipe (d : Derivation) : Recipe :=
  ⟨d.out, d.name, d.version, d.src, d.dependencies, d.permissions, d.postbuild⟩

namespace Recipe

open Json (Decoder Fault Raw ReadError Record)
open Json.Record (required optional defaulted)

/-- The identifiers that have to be built for this recipe, those of the source behind the
dependencies. -/
def references (r : Recipe) : List OutId := r.dependencies ++ r.src.references

def identity (r : Recipe) : Identity :=
  ⟨r.name, r.version, r.src, r.dependencies, r.permissions, r.postbuild⟩

def toJson (r : Recipe) : Except Unreduced Json := do
  let src ← r.src.toJson
  return .object ([("out", .ofOut r.out), ("name", .string r.name),
    ("version", .string r.version), ("src", src), ("dependencies", .ofOuts r.dependencies)] ++
    Json.field? "permissions" .ofSet r.permissions ++
    Json.field? "postbuild" .string r.postbuild)

/-- The text of the recipe's file. -/
def text (r : Recipe) : Except Unreduced String := r.toJson.map Json.canonicalPretty

/-- The fields of a recipe, in a value that may open `room` arrays and objects inside. -/
def record (room : Nat) : Record Recipe :=
  Record.pure Recipe.mk
    |>.seq (required "out" Json.Decoder.out)
    |>.seq (required "name" Json.Decoder.string)
    |>.seq (required "version" Json.Decoder.string)
    |>.seq (required "src" (Source.decode room))
    |>.seq (defaulted "dependencies" (Json.Decoder.list Json.Decoder.out) [])
    |>.seq (optional "permissions" Json.Decoder.set)
    |>.seq (optional "postbuild" Json.Decoder.string)

/-- A recipe, decoded as its text is read. An array must end with the last field. -/
def decode (room : Nat) : Decoder Recipe
  | .object entries stop => (record (room - 1)).decodeObject entries stop
  | .array items stop => do
    let (recipe, rest) ← (record (room - 1)).decodeArray "Recipe" items stop
    if rest.isEmpty then Json.orFault (Raw.closed recipe stop)
    else .error (.fault .malformed)
  | raw => raw.mismatch "struct Recipe"

def read (text : String) : Except ReadError Recipe := Json.readAs (decode Json.maxDepth) text

/-- The recipe that a value is, however deep. -/
def ofJson (value : Json) : Except ReadError Recipe :=
  match Raw.ofJson value with
  | .array items _ => do
    let (recipe, rest) ← (record value.depth).decodeArray "Recipe" items none
    if rest.isEmpty then return recipe else .error (.shape (.leftOver items.length))
  | raw => decode value.depth raw

end Recipe

end Derivations

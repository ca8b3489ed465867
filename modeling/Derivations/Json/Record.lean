import Derivations.Json.Shape
import Derivations.StringMap

/-!
# Decoding a tree

A decoder takes the tree of a value to a thing of some shape. The decoders here are those of
strings, lists, sets, maps and optional values, and those of records. A `Record` is put together
from its fields in their order; it can be given as an object or as an array of all its fields.
Entries of unknown name are passed over.

In an object the entries are decoded in the order written, then the first required field without
an entry is missed.
-/

namespace Derivations

namespace Json

abbrev Decoder (α : Type) := Raw → Except ReadError α

namespace Raw

/-- What is found where something else is expected. -/
def found : Raw → Except Fault Found
  | .null => .ok .null
  | .bool value => .ok (.bool value)
  | .number (some value) => .ok (.number value)
  | .number none => .error .malformed
  | .string (some value) => .ok (.string value)
  | .string none => .error .malformed
  | .array _ _ => .ok .sequence
  | .object _ _ => .ok .map
  | .broken fault => .error fault

/-- The report on a tree that is not of the kind expected. -/
def mismatch {α : Type} (raw : Raw) (expected : String) : Except ReadError α :=
  match raw.found with
  | .ok found => .error (.shape (.invalidType found expected))
  | .error fault => .error (.fault fault)

end Raw

/-- A fault of the text, as a report. -/
def orFault {α : Type} : Except Fault α → Except ReadError α
  | .ok value => .ok value
  | .error fault => .error (.fault fault)

namespace Decoder

def string : Decoder String
  | .string (some value) => .ok value
  | raw => raw.mismatch "a string"

def bool : Decoder Bool
  | .bool value => .ok value
  | raw => raw.mismatch "a boolean"

/-- Any value, one entry kept of each repeated key. -/
def value : Decoder Json := fun raw => orFault (raw.toJson.map Json.collapse)

/-- A well-formed identifier. -/
def out : Decoder OutId := fun raw => do
  let text ← string raw
  match OutId.parse? text with
  | some out => return out
  | none => .error (.shape (.malformedOut text))

/-- Null for absent. -/
def option {α : Type} (decode : Decoder α) : Decoder (Option α)
  | .null => .ok none
  | raw => (decode raw).map some

def list {α : Type} (decode : Decoder α) : Decoder (List α)
  | .array items stop => do
    let items ← items.mapM decode
    orFault (Raw.closed items stop)
  | raw => raw.mismatch "a sequence"

def set : Decoder StringSet := fun raw => (list string raw).map StringSet.ofList

/-- A map of strings to strings; of several entries with one key, the last counts. -/
def map : Decoder (StringMap String)
  | .object entries stop => do
    let entries ← entries.mapM fun (key, raw) => do
      let key ← orFault key
      let value ← string raw
      return (key, value)
    orFault (Raw.closed (StringMap.ofList entries) stop)
  | raw => raw.mismatch "a map"

end Decoder

/-- A record of named fields, to be decoded. -/
structure Record (α : Type) where
  /-- The fields in order, each with a check of its value. -/
  fields : List (String × Decoder Unit)
  /-- The record, given the value of each field that has an entry. -/
  ofEntries : (String → Option Raw) → Except ReadError α
  /-- The record from the front of a list of values, and the values left over. The first argument
  is the report on a list that ends before the field at that position. -/
  ofItems : (Nat → ReadError) → Nat → List Raw → Except ReadError (α × List Raw)

namespace Record

variable {α β : Type}

/-- A record without fields. -/
def pure (value : α) : Record α where
  fields := []
  ofEntries _ := .ok value
  ofItems _ _ items := .ok (value, items)

/-- The fields of one record and then those of another. -/
def seq (f : Record (α → β)) (x : Record α) : Record β where
  fields := f.fields ++ x.fields
  ofEntries find := do
    let f ← f.ofEntries find
    let x ← x.ofEntries find
    return f x
  ofItems missing position items := do
    let (g, items) ← f.ofItems missing position items
    let (x, items) ← x.ofItems missing (position + f.fields.length) items
    return (g x, items)

/-- One field; `absent` and `ended` say what an object without it and an array that ends before it
come to. -/
def single (name : String) (decode : Decoder α) (absent : Except ReadError α)
    (ended : ReadError → Except ReadError α) : Record α where
  fields := [(name, fun raw => (decode raw).map fun _ => ())]
  ofEntries find :=
    match find name with
    | some raw => decode raw
    | none => absent
  ofItems missing position items :=
    match items with
    | [] => (ended (missing position)).map (·, [])
    | raw :: items => (decode raw).map (·, items)

/-- A field that has to be there. -/
def required (name : String) (decode : Decoder α) : Record α :=
  single name decode (.error (.shape (.missingField name))) .error

/-- A field that may be absent, or null. An array gives it all the same. -/
def optional (name : String) (decode : Decoder α) : Record (Option α) :=
  single name decode.option (.ok none) .error

/-- A field that may be absent but not null, and may be left out at the end of an array. -/
def defaulted (name : String) (decode : Decoder α) (value : α) : Record α :=
  single name decode (.ok value) fun _ => .ok value

def map (f : α → β) (x : Record α) : Record β := (pure f).seq x

def size (r : Record α) : Nat := r.fields.length

/-- Decodes the entries of known name in their order. No name may come twice. -/
def checkEntries (fields : List (String × Decoder Unit)) :
    List String → List (Except Fault String × Raw) → Except ReadError Unit
  | _, [] => .ok ()
  | _, (.error fault, _) :: _ => .error (.fault fault)
  | seen, (.ok key, raw) :: rest =>
    match fields.lookup key with
    | none => checkEntries fields seen rest
    | some check =>
      if key ∈ seen then .error (.shape (.duplicateField key))
      else do
        check raw
        checkEntries fields (key :: seen) rest

/-- The value of the first entry with a name. -/
def findEntry (entries : List (Except Fault String × Raw)) (name : String) : Option Raw :=
  match entries with
  | [] => none
  | (.ok key, raw) :: rest => if key = name then some raw else findEntry rest name
  | (.error _, _) :: rest => findEntry rest name

/-- The record that an object gives. -/
def decodeObject (r : Record α) (entries : List (Except Fault String × Raw))
    (stop : Option Fault) : Except ReadError α := do
  checkEntries r.fields [] entries
  orFault (Raw.closed () stop)
  r.ofEntries (findEntry entries)

/-- The report on an array that ends before the field at a position. -/
def endedAt (name : String) (size : Nat) (stop : Option Fault) (position : Nat) : ReadError :=
  match stop with
  | some fault => .fault fault
  | none => .shape (.tooShort position name size)

/-- The record that an array gives, and the items left over. -/
def decodeArray (name : String) (r : Record α) (items : List Raw) (stop : Option Fault) :
    Except ReadError (α × List Raw) :=
  r.ofItems (endedAt name r.size stop) 0 items

/-- A record inside a value that has been read in full. -/
def decodeWhole (name : String) (r : Record α) (items : List Raw) : Except ReadError α := do
  let (value, rest) ← r.decodeArray name items none
  if rest.isEmpty then return value
  else .error (.shape (.tooLong items.length r.size))

/-- A record inside a value that has been read in full, as an object or as an array. -/
def decode (name : String) (r : Record α) : Decoder α
  | .object entries stop => r.decodeObject entries stop
  | .array items _ => r.decodeWhole name items
  | raw => raw.mismatch ("struct " ++ name)

end Record

end Json

end Derivations

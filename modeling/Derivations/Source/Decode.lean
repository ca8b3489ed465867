import Derivations.Json.Record
import Derivations.Source.Encode

/-!
# Reading a source

A source is an object with the tag `type`, or an array that starts with the tag. The tag is
decoded as soon as it is met; everything else is first read in full and then decoded as a record
of the tagged kind, so a fault of the text anywhere in the source comes before a report on a
field.
-/

namespace Derivations

namespace Json

/-- How many arrays and objects of a text may be open at once. -/
def maxDepth : Nat := 127

/-- Reads a text as one value with blanks around it. -/
def readAs {α : Type} (decode : Decoder α) (text : String) : Except ReadError α := do
  let (raw, next) := Raw.ofChars text.toList
  let value ← decode raw
  let rest ← orFault next
  if (skipBlanks rest).isEmpty then return value else .error (.fault .malformed)

/-- Reads a text as a value, one entry kept of each repeated key. -/
def readValue (text : String) : Except ReadError Json :=
  readAs (fun raw => orFault ((raw.toJsonWithin maxDepth).map collapse)) text

end Json

open Json (Decoder Fault Raw ReadError Record orFault)

namespace HttpMethod

def all : List HttpMethod := [get, post]

def named (name : String) : Except ReadError HttpMethod :=
  match all.find? fun m => m.name == name with
  | some method => .ok method
  | none => .error (.shape (.unknownVariant name (all.map HttpMethod.name)))

/-- A method is given by its name, or as an object with the name for its only key and nothing
behind it. -/
def decode : Decoder HttpMethod
  | .string (some name) => named name
  | .object [(key, value)] _ => do
    let key ← orFault key
    let method ← named key
    match value with
    | .null => return method
    | .object [] _ => return method
    | raw => raw.mismatch "unit"
  | .object _ _ => .error (.shape .notSingleKey)
  | raw => raw.mismatch "string or map"

end HttpMethod

namespace Source

open Json.Record (required optional)
open Json.Decoder (string bool value out list set map)

def urlFetch : Record UrlFetch :=
  Record.pure UrlFetch.mk
    |>.seq (required "url" string)
    |>.seq (required "sha256" string)
    |>.seq (optional "unpack" bool)
    |>.seq (optional "method" HttpMethod.decode)
    |>.seq (optional "headers" map)
    |>.seq (optional "cookies" map)
    |>.seq (optional "body" string)
    |>.seq (optional "postFetch" string)

def gitFetch : Record GitFetch :=
  Record.pure GitFetch.mk
    |>.seq (required "url" string)
    |>.seq (optional "rev" string)
    |>.seq (optional "ref" string)
    |>.seq (optional "postFetch" string)

def localFetch : Record LocalFetch :=
  Record.pure LocalFetch.mk
    |>.seq (required "path" string)
    |>.seq (optional "exclude" (list string))
    |>.seq (optional "postFetch" string)

def vaseFetch : Record VaseFetch :=
  Record.pure VaseFetch.mk
    |>.seq (required "vase" string)

def textFile : Record TextFile :=
  Record.pure TextFile.mk
    |>.seq (required "path" string)
    |>.seq (required "content" string)

def dataFile : Record DataFile :=
  Record.pure DataFile.mk
    |>.seq (required "path" string)
    |>.seq (required "content" value)

def layerStack : Record LayerStack :=
  Record.pure LayerStack.mk
    |>.seq (required "layers" (list out))
    |>.seq (optional "entrypoint" string)
    |>.seq (optional "umu" string)
    |>.seq (optional "args" (list string))
    |>.seq (optional "env" map)
    |>.seq (optional "permissions" set)

def launcher : Record Launcher :=
  Record.pure Launcher.mk
    |>.seq (required "version" string)
    |>.seq (required "id" string)

def command : Record Command :=
  Record.pure Command.mk
    |>.seq (required "entrypoint" string)
    |>.seq (optional "args" (list string))
    |>.seq (optional "umu" (launcher.decode "Umu"))

def buildRun : Record BuildRun :=
  Record.pure (fun build => BuildRun.mk (.out build))
    |>.seq (required "build" out)
    |>.seq (required "command" (command.decode "RunCommand"))
    |>.seq (required "outputs" (list string))

/-- The record of a kind, and its name in reports. -/
def record : Kind → String × Record Source
  | .fetchUrl => ("FetchUrl", urlFetch.map .fetchUrl)
  | .fetchGit => ("FetchGit", gitFetch.map .fetchGit)
  | .fetchLocal => ("FetchLocal", localFetch.map .fetchLocal)
  | .fetchVase => ("FetchVase", vaseFetch.map .fetchVase)
  | .writeText => ("WriteText", textFile.map .writeText)
  | .writeJson => ("WriteContent", dataFile.map .writeJson)
  | .writeToml => ("WriteContent", dataFile.map .writeToml)
  | .fetchBuild => ("FetchBuild", layerStack.map .fetchBuild)
  | .runInBuild => ("RunInBuild", buildRun.map .runInBuild)
  | .blank => ("BlankSource", Record.pure .blank)

def tag : Decoder Kind
  | .string (some name) =>
    match Kind.ofName? name with
    | some kind => .ok kind
    | none => .error (.shape (.unknownVariant name (Kind.all.map Kind.name)))
  | raw => raw.mismatch "variant identifier"

/-- Reads a value in full, to be decoded later. -/
def buffer (room : Nat) (raw : Raw) : Except ReadError Unit :=
  orFault ((raw.toJsonWithin room).map fun _ => ())

/-- Goes through the entries in order: decodes the tag, reads the others in full. -/
def findTag (room : Nat) (kind : Option Kind) :
    List (Except Fault String × Raw) → Except ReadError (Option Kind)
  | [] => .ok kind
  | (key, raw) :: rest => do
    let key ← orFault key
    if key = "type" then
      match kind with
      | some _ => .error (.shape (.duplicateField "type"))
      | none =>
        let kind ← tag raw
        findTag room (some kind) rest
    else
      buffer room raw
      findTag room kind rest

/-- The entries without the tag. -/
def untagged (entries : List (Except Fault String × Raw)) : List (Except Fault String × Raw) :=
  entries.filter fun e =>
    match e.1 with
    | .ok key => key ≠ "type"
    | .error _ => true

/-- A source that may open `room` arrays and objects. -/
def decode (room : Nat) : Decoder Source
  | .object entries stop =>
    match room with
    | 0 => .error (.fault .malformed)
    | room + 1 => do
      let kind ← findTag room none entries
      orFault (Raw.closed () stop)
      match kind with
      | none => .error (.shape (.missingField "type"))
      | some kind => (record kind).2.decodeObject (untagged entries) none
  | .array items stop =>
    match room with
    | 0 => .error (.fault .malformed)
    | room + 1 =>
      match items with
      | [] => do
        orFault (Raw.closed () stop)
        .error (.shape (.missingField "type"))
      | head :: rest => do
        let kind ← tag head
        rest.forM (buffer room)
        orFault (Raw.closed () stop)
        let (name, record) := record kind
        record.decodeWhole name rest
  | raw => raw.mismatch "internally tagged enum Source"

/-- Reads a text as a source. -/
def read (text : String) : Except ReadError Source := Json.readAs (decode Json.maxDepth) text

/-- The source that a value is, however deep. -/
def ofJson (value : Json) : Except ReadError Source := decode value.depth (Raw.ofJson value)

end Source

end Derivations

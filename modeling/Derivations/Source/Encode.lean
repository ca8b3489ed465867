import Derivations.Json.Printer
import Derivations.Source.Basic

/-!
# Writing a source

A source is written as an object, tagged by its kind, with its fields in their order; absent
fields leave no entry. A target that is still a node of a graph cannot be written.
-/

namespace Derivations

/-- The cause for which a source cannot be written: its target is a node of a graph. -/
structure Unreduced where
  node : NodeId
  deriving DecidableEq, Repr

def Unreduced.message (e : Unreduced) : String :=
  "build reference " ++ e.node.display ++ " was not reduced to an out identifier"

namespace Json

/-- The entry of a field. -/
abbrev Entries := List (String × Json)

def ofOut (out : OutId) : Json := .string out.text

def ofStrings (items : List String) : Json := .array (items.map .string)

def ofOuts (outs : List OutId) : Json := .array (outs.map ofOut)

def ofSet (members : StringSet) : Json := ofStrings members.toList

def ofMap (entries : StringMap String) : Json :=
  .object (entries.entries.map fun e => (e.1, .string e.2))

/-- The entry of a field that may be absent. -/
def field? {α : Type} (name : String) (encode : α → Json) : Option α → Entries
  | some value => [(name, encode value)]
  | none => []

end Json

open Json (field?)

def HttpMethod.name : HttpMethod → String
  | .get => "GET"
  | .post => "POST"

def UrlFetch.entries (x : UrlFetch) : Json.Entries :=
  [("url", .string x.url), ("sha256", .string x.sha256)] ++
    field? "unpack" .bool x.unpack ++
    field? "method" (fun m => .string m.name) x.method ++
    field? "headers" .ofMap x.headers ++
    field? "cookies" .ofMap x.cookies ++
    field? "body" .string x.body ++
    field? "postFetch" .string x.postFetch

def GitFetch.entries (x : GitFetch) : Json.Entries :=
  [("url", .string x.url)] ++
    field? "rev" .string x.rev ++
    field? "ref" .string x.ref ++
    field? "postFetch" .string x.postFetch

def LocalFetch.entries (x : LocalFetch) : Json.Entries :=
  [("path", .string x.path)] ++
    field? "exclude" .ofStrings x.exclude ++
    field? "postFetch" .string x.postFetch

def VaseFetch.entries (x : VaseFetch) : Json.Entries := [("vase", .string x.vase)]

def TextFile.entries (x : TextFile) : Json.Entries :=
  [("path", .string x.path), ("content", .string x.content)]

def DataFile.entries (x : DataFile) : Json.Entries :=
  [("path", .string x.path), ("content", x.content)]

def LayerStack.entries (x : LayerStack) : Json.Entries :=
  [("layers", .ofOuts x.layers)] ++
    field? "entrypoint" .string x.entrypoint ++
    field? "umu" .string x.umu ++
    field? "args" .ofStrings x.args ++
    field? "env" .ofMap x.env ++
    field? "permissions" .ofSet x.permissions

def Launcher.toJson (x : Launcher) : Json :=
  .object [("version", .string x.version), ("id", .string x.id)]

def Command.toJson (x : Command) : Json :=
  .object ([("entrypoint", .string x.entrypoint)] ++
    field? "args" .ofStrings x.args ++
    field? "umu" Launcher.toJson x.umu)

def BuildTarget.toJson : BuildTarget → Except Unreduced Json
  | .out target => .ok (.ofOut target)
  | .node id => .error ⟨id⟩

def BuildRun.entries (x : BuildRun) : Except Unreduced Json.Entries := do
  let build ← x.build.toJson
  return [("build", build), ("command", x.command.toJson), ("outputs", .ofStrings x.outputs)]

namespace Source

/-- The entries behind the tag. -/
def entries : Source → Except Unreduced Json.Entries
  | .fetchUrl x => .ok x.entries
  | .fetchGit x => .ok x.entries
  | .fetchLocal x => .ok x.entries
  | .fetchVase x => .ok x.entries
  | .writeText x => .ok x.entries
  | .writeJson x => .ok x.entries
  | .writeToml x => .ok x.entries
  | .fetchBuild x => .ok x.entries
  | .runInBuild x => x.entries
  | .blank => .ok []

/-- The object that a source is written as. -/
def toJson (source : Source) : Except Unreduced Json := do
  let entries ← source.entries
  return .object (("type", .string source.kind.name) :: entries)

end Source

end Derivations

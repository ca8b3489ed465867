import Derivations.Json.Basic
import Derivations.OutId
import Derivations.StringMap

/-!
# Sources

A source says how the content of a derivation is obtained. There are ten kinds; nothing is checked
beyond their shape. An optional field that is absent is not the same as one that is empty. A
source refers to other derivations by identifier; only the target of `runInBuild` can also be a
node of a graph, until the derivation is identified.
-/

namespace Derivations

inductive HttpMethod
  | get
  | post
  deriving DecidableEq, Repr

structure UrlFetch where
  url : String
  sha256 : String
  unpack : Option Bool := none
  method : Option HttpMethod := none
  headers : Option (StringMap String) := none
  cookies : Option (StringMap String) := none
  body : Option String := none
  postFetch : Option String := none
  deriving DecidableEq

structure GitFetch where
  url : String
  rev : Option String := none
  ref : Option String := none
  postFetch : Option String := none
  deriving DecidableEq

structure LocalFetch where
  path : String
  exclude : Option (List String) := none
  postFetch : Option String := none
  deriving DecidableEq

structure VaseFetch where
  vase : String
  deriving DecidableEq

structure TextFile where
  path : String
  content : String
  deriving DecidableEq

/-- A file whose content is a value, in whatever format it is written. -/
structure DataFile where
  path : String
  content : Json

/-- A stack of layers, the lowest first, and how to launch the result. -/
structure LayerStack where
  layers : List OutId
  entrypoint : Option String := none
  umu : Option String := none
  args : Option (List String) := none
  env : Option (StringMap String) := none
  permissions : Option StringSet := none
  deriving DecidableEq

/-- A version of the launcher and the identity it gives a program. -/
structure Launcher where
  version : String
  id : String
  deriving DecidableEq

structure Command where
  entrypoint : String
  args : Option (List String) := none
  umu : Option Launcher := none
  deriving DecidableEq

/-- The derivation that a command runs in. -/
inductive BuildTarget
  | node (id : NodeId)
  | out (out : OutId)
  deriving DecidableEq

/-- A command run in a built derivation, of which the outputs are kept. -/
structure BuildRun where
  build : BuildTarget
  command : Command
  outputs : List String
  deriving DecidableEq

inductive Source
  | fetchUrl (fetch : UrlFetch)
  | fetchGit (fetch : GitFetch)
  | fetchLocal (fetch : LocalFetch)
  | fetchVase (fetch : VaseFetch)
  | writeText (file : TextFile)
  | writeJson (file : DataFile)
  | writeToml (file : DataFile)
  | fetchBuild (stack : LayerStack)
  | runInBuild (run : BuildRun)
  /-- Content to be put in later. -/
  | blank

namespace Source

/-- The kinds of source. -/
inductive Kind
  | fetchUrl
  | fetchGit
  | fetchLocal
  | fetchVase
  | writeText
  | writeJson
  | writeToml
  | fetchBuild
  | runInBuild
  | blank
  deriving DecidableEq, Repr

namespace Kind

def all : List Kind :=
  [fetchUrl, fetchGit, fetchLocal, fetchVase, writeText, writeJson, writeToml, fetchBuild,
    runInBuild, blank]

/-- The tag of a kind in the format. -/
def name : Kind → String
  | fetchUrl => "fetch_url"
  | fetchGit => "fetch_git"
  | fetchLocal => "fetch_local"
  | fetchVase => "fetch_vase"
  | writeText => "write_text"
  | writeJson => "write_json"
  | writeToml => "write_toml"
  | fetchBuild => "fetch_build"
  | runInBuild => "run_in_build"
  | blank => "blank_source"

def ofName? (name : String) : Option Kind := all.find? fun kind => kind.name == name

end Kind

def kind : Source → Kind
  | .fetchUrl _ => .fetchUrl
  | .fetchGit _ => .fetchGit
  | .fetchLocal _ => .fetchLocal
  | .fetchVase _ => .fetchVase
  | .writeText _ => .writeText
  | .writeJson _ => .writeJson
  | .writeToml _ => .writeToml
  | .fetchBuild _ => .fetchBuild
  | .runInBuild _ => .runInBuild
  | .blank => .blank

def isBlank : Source → Bool
  | .blank => true
  | _ => false

/-- The identifiers of the derivations that a source refers to: the layers of a stack, or the
target of a command where it is an identifier. -/
def references : Source → List OutId
  | .fetchBuild stack => stack.layers
  | .runInBuild { build := .out out, .. } => [out]
  | _ => []

/-- Equality of sources, with values compared by their own equality. -/
def same : Source → Source → Bool
  | .fetchUrl a, .fetchUrl b => a = b
  | .fetchGit a, .fetchGit b => a = b
  | .fetchLocal a, .fetchLocal b => a = b
  | .fetchVase a, .fetchVase b => a = b
  | .writeText a, .writeText b => a = b
  | .writeJson a, .writeJson b => a.path = b.path && a.content == b.content
  | .writeToml a, .writeToml b => a.path = b.path && a.content == b.content
  | .fetchBuild a, .fetchBuild b => a = b
  | .runInBuild a, .runInBuild b => a = b
  | .blank, .blank => true
  | _, _ => false

end Source

end Derivations

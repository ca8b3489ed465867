import Derivations.Derivation

/-!
# Ready-made drafts

Drafts for a local path, for a file behind a URL, and for a run spec: a file that says how to
launch a program, to be used as a layer. In a run spec arguments and environment are always
there, empty if not given; the launcher is there only if it is given.
-/

namespace Derivations

namespace Source

def ofPath (path : String) : Source := .fetchLocal { path }

def ofUrl (url sha256 : String) : Source := .fetchUrl { url, sha256 }

def ofGit (url : String) (rev : Option String) : Source := .fetchGit { url, rev }

end Source

namespace Draft

def ofPath (name version path : String) : Draft := { name, version, src := .ofPath path }

def ofUrl (name version url sha256 : String) : Draft :=
  { name, version, src := .ofUrl url sha256 }

end Draft

/-- A named way to launch a program. -/
structure RunSpec where
  name : String
  entrypoint : String
  umu : Option Launcher := none
  args : Option (List String) := none
  env : Option (StringMap String) := none

namespace RunSpec

/-- The directory of run specs in a build. -/
def directory : String := "kintsugi/exec"

def path (spec : RunSpec) : String := directory ++ "/" ++ spec.name ++ ".run.json"

/-- The file's content. -/
def content (spec : RunSpec) : Json :=
  let umu := match spec.umu with
    | some umu => [("umu", Json.object [("version", .string umu.version), ("id", .string umu.id)])]
    | none => []
  let env := match spec.env with
    | some env => env.entries.map fun e => (e.1, Json.string e.2)
    | none => []
  .object ([("entrypoint", .string spec.entrypoint)] ++ umu ++
    [("args", .array ((spec.args.getD []).map .string)), ("env", .object env)])

def draft (spec : RunSpec) : Draft where
  name := "run-spec-" ++ spec.name
  version := "1.0.0"
  src := .writeJson ⟨spec.path, spec.content⟩

end RunSpec

end Derivations

import Derivations.Graph.Closure
import Derivations.Source.Encode

/-!
# The identity of a derivation

A derivation is identified by its content: the name, the version, the source, the identifiers of
its dependencies in order, and the permissions and the post-build command if there are any. Nodes
of a graph do not enter; a dependency counts by its identifier, and so does the target of a
command. The fingerprint is taken of the canonical text of all this.
-/

namespace Derivations

/-- Everything that determines the identifier of a derivation. -/
structure Identity where
  name : String
  version : String
  src : Source
  dependencies : List OutId
  permissions : Option StringSet
  postbuild : Option String

namespace Identity

def toJson (i : Identity) : Except Unreduced Json := do
  let src ← i.src.toJson
  return .object ([("name", .string i.name), ("version", .string i.version), ("src", src),
    ("dependencies", .ofOuts i.dependencies)] ++
    Json.field? "permissions" .ofSet i.permissions ++
    Json.field? "postbuild" .string i.postbuild)

/-- The text that the fingerprint is taken of. -/
def encoding (i : Identity) : Except Unreduced String := i.toJson.map Json.canonicalText

def fingerprint (i : Identity) : Except Unreduced Fingerprint :=
  i.encoding.map Fingerprint.ofText

end Identity

def Derivation.identity (d : Derivation) : Identity :=
  ⟨d.name, d.version, d.src, d.dependencies, d.permissions, d.postbuild⟩

/-- Why a draft is not finalized. -/
inductive DraftError
  | emptyName
  | emptyVersion
  | unknown (id : NodeId)
  | unwritable (name : String) (cause : Unreduced)
  deriving DecidableEq, Repr

def DraftError.message : DraftError → String
  | .emptyName => "derivation name must not be empty"
  | .emptyVersion => "derivation version must not be empty"
  | .unknown id => id.unknownMessage
  | .unwritable name cause => "failed to encode derivation " ++ name ++ ": " ++ cause.message

namespace Graph

/-- The identifier of a node. -/
def outOf (g : Graph) (id : NodeId) : Except DraftError OutId :=
  match g.get? id with
  | some d => .ok d.out
  | none => .error (.unknown id)

/-- The source with the identifier of its target in place of the node. -/
def reduce (g : Graph) : Source → Except DraftError Source
  | .runInBuild run =>
    match run.build with
    | .node id => do
      let out ← g.outOf id
      return .runInBuild { run with build := .out out }
    | .out _ => .ok (.runInBuild run)
  | source => .ok source

/-- The derivation that a draft comes to in a graph. The graph is only asked for the identifiers
of nodes. -/
def identify (g : Graph) (draft : Draft) : Except DraftError Derivation := do
  if draft.name.isEmpty then .error .emptyName
  if draft.version.isEmpty then .error .emptyVersion
  let dependencies ← draft.deps.mapM g.outOf
  let src ← g.reduce draft.src
  let identity : Identity :=
    ⟨draft.name, draft.version, src, dependencies, draft.permissions, draft.postbuild⟩
  match identity.fingerprint with
  | .error cause => .error (.unwritable draft.name cause)
  | .ok fingerprint => return {
      name := draft.name
      version := draft.version
      out := OutId.of fingerprint draft.name draft.version
      src, dependencies
      deps := draft.deps
      permissions := draft.permissions
      postbuild := draft.postbuild }

end Graph

end Derivations

import Derivations.Bench

/-!
# Compositions

A composition stacks layers and says how to launch the result. Everything that the requested
layers depend on becomes a layer of its own, beneath them, so nothing is left to be found later.
The same list makes up the dependencies, so a composition can itself be a layer.
-/

namespace Derivations

structure Composition where
  name : String
  /-- The layers asked for. -/
  layers : List NodeId
  entrypoint : Option String := none
  umu : Option String := none
  args : Option (List String) := none
  env : Option (StringMap String) := none
  permissions : Option StringSet := none
  postbuild : Option String := none

/-- Why a composition is not built. -/
inductive CompositionError
  | layers (error : ClosureError)
  | finalize (error : DraftError)
  deriving DecidableEq, Repr

def CompositionError.message : CompositionError → String
  | .layers error => "failed to resolve layers: " ++ error.message
  | .finalize error => error.message

namespace Composition

/-- The version of every composition. -/
def version : String := "generated"

/-- The draft of a composition with all its layers. -/
def draft (c : Composition) (g : Graph) (layers : List NodeId) : Draft where
  name := c.name
  version := version
  src := .fetchBuild {
    layers := (layers.filterMap g.get?).map Derivation.out
    entrypoint := c.entrypoint
    umu := c.umu
    args := c.args
    env := c.env
    permissions := c.permissions }
  deps := layers
  permissions := c.permissions
  postbuild := c.postbuild

end Composition

namespace Bench

def compose (b : Bench) (config : StoreConfig) (c : Composition) :
    Except CompositionError (Finalized × Bench) :=
  match b.graph.closure c.layers with
  | .error error => .error (.layers error)
  | .ok layers =>
    match b.finalize config (c.draft b.graph layers) with
    | .error error => .error (.finalize error)
    | .ok built => .ok built

end Bench

end Derivations

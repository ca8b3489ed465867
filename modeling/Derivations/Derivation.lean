import Derivations.Source.Basic

/-!
# Drafts and derivations

A draft is what an author writes down: a name, a version, a source and the nodes of a graph that
it depends on. A derivation is a draft that has been identified: it has an identifier of its own,
and the identifiers of its dependencies beside their nodes.
-/

namespace Derivations

structure Draft where
  name : String
  version : String
  src : Source
  deps : List NodeId := []
  permissions : Option StringSet := none
  postbuild : Option String := none

structure Derivation where
  name : String
  version : String
  out : OutId
  src : Source
  /-- The identifiers of the dependencies. -/
  dependencies : List OutId
  /-- The dependencies as nodes of the graph. -/
  deps : List NodeId
  permissions : Option StringSet
  postbuild : Option String

end Derivations

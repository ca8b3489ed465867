import Derivations.Composition
import Derivations.RunSpec

/-!
# Sessions

A session is a number of graphs and the files that all of them store recipes among. It starts
with no graph and no file, and calls are made one after another. A graph is named by its place in
the session, which is its tag, so a node of one graph is unknown in every other. The files can be
changed by others between two calls.
-/

namespace Derivations

structure Session where
  graphs : Array Graph
  files : FileTree

/-- What can be asked of a session that may change it. -/
inductive Call
  | newGraph
  /-- Puts in a derivation as it is, without identifying it. -/
  | insert (graph : Nat) (d : Derivation)
  | finalize (graph : Nat) (config : StoreConfig) (draft : Draft)
  | compose (graph : Nat) (config : StoreConfig) (c : Composition)
  /-- Something else changes the files. -/
  | changeFiles (files : FileTree)

inductive Reply
  | graph (index : Nat)
  | node (id : NodeId)
  | finalized (result : Except DraftError Finalized)
  | composed (result : Except CompositionError Finalized)
  | filesChanged
  | noSuchGraph

namespace Session

def start : Session := ⟨#[], .empty⟩

/-- The session with another graph in that place. -/
def setGraph (s : Session) (index : Nat) (g : Graph) : Session :=
  { s with graphs := s.graphs.setIfInBounds index g }

/-- The session after work on the graph in that place. -/
def setBench (s : Session) (index : Nat) (b : Bench) : Session :=
  ⟨s.graphs.setIfInBounds index b.graph, b.files⟩

def perform (s : Session) : Call → Session × Reply
  | .newGraph => (⟨s.graphs.push (.empty s.graphs.size), s.files⟩, .graph s.graphs.size)
  | .insert index d =>
    match s.graphs[index]? with
    | none => (s, .noSuchGraph)
    | some g =>
      let (id, g) := g.insert d
      (s.setGraph index g, .node id)
  | .finalize index config draft =>
    match s.graphs[index]? with
    | none => (s, .noSuchGraph)
    | some g =>
      match Bench.finalize ⟨g, s.files⟩ config draft with
      | .error e => (s, .finalized (.error e))
      | .ok (done, b) => (s.setBench index b, .finalized (.ok done))
  | .compose index config c =>
    match s.graphs[index]? with
    | none => (s, .noSuchGraph)
    | some g =>
      match Bench.compose ⟨g, s.files⟩ config c with
      | .error e => (s, .composed (.error e))
      | .ok (done, b) => (s.setBench index b, .composed (.ok done))
  | .changeFiles files => (⟨s.graphs, files⟩, .filesChanged)

/-- Makes calls in their order. -/
def run (s : Session) : List Call → Session × List Reply
  | [] => (s, [])
  | call :: calls =>
    let (s, reply) := s.perform call
    let (s, replies) := s.run calls
    (s, reply :: replies)

end Session

end Derivations

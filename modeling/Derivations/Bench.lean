import Derivations.Store.Basic

/-!
# Finalizing a draft

A draft is identified, its recipe is stored and the derivation is put into the graph. Whether the
recipe could be stored has no influence on the rest. A draft that cannot be identified changes
neither the graph nor the files.
-/

namespace Derivations

/-- What finalizing a draft gives. -/
structure Finalized where
  id : NodeId
  out : OutId
  recipe : Store.Outcome

/-- A graph and the files that recipes are stored among. -/
structure Bench where
  graph : Graph
  files : FileTree

namespace Bench

def finalize (b : Bench) (config : StoreConfig) (draft : Draft) :
    Except DraftError (Finalized × Bench) := do
  let d ← b.graph.identify draft
  let (files, recipe) := config.persist d b.files
  let (id, graph) := b.graph.insert d
  return (⟨id, d.out, recipe⟩, ⟨graph, files⟩)

end Bench

end Derivations

import Derivations.Composition

/-!
# What finalizing gives

Finalizing a draft gives what the draft comes to in the graph, put into the graph. The files only
have a say in what becomes of the recipe.
-/

namespace Derivations

namespace Bench

theorem finalize_eq (b : Bench) (config : StoreConfig) (draft : Draft) :
    b.finalize config draft = (b.graph.identify draft).map fun d =>
      (⟨(b.graph.insert d).1, d.out, (config.persist d b.files).2⟩,
        ⟨(b.graph.insert d).2, (config.persist d b.files).1⟩) := by
  rw [finalize]
  cases b.graph.identify draft <;> rfl

/-- A draft that is identified is finalized, whatever becomes of its recipe. -/
theorem exists_finalize {b : Bench} (config : StoreConfig) {draft : Draft} {d : Derivation}
    (h : b.graph.identify draft = .ok d) :
    ∃ done after, b.finalize config draft = .ok (done, after) ∧ done.out = d.out := by
  rw [finalize_eq, h]
  exact ⟨_, _, rfl, rfl⟩

theorem compose_of_closure {b : Bench} (config : StoreConfig) {c : Composition}
    {layers : List NodeId} (h : b.graph.closure c.layers = .ok layers) :
    b.compose config c =
      (b.finalize config (c.draft b.graph layers)).mapError .finalize := by
  rw [compose, h]
  dsimp only
  cases b.finalize config (c.draft b.graph layers) <;> rfl

/-- The identifier that a composition gets. -/
def composedOut (b : Bench) (config : StoreConfig) (c : Composition) :
    Except CompositionError OutId :=
  (b.compose config c).map fun built => built.1.out

theorem composedOut_eq {b : Bench} (config : StoreConfig) {c : Composition}
    {layers : List NodeId} (h : b.graph.closure c.layers = .ok layers) :
    b.composedOut config c = ((b.graph.identify (c.draft b.graph layers)).map
      Derivation.out).mapError .finalize := by
  rw [composedOut, compose_of_closure config h, finalize_eq]
  cases b.graph.identify (c.draft b.graph layers) <;> rfl

end Bench

end Derivations

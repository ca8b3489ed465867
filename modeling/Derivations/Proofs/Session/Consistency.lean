import Derivations.Proofs.Bench.Faults

/-!
# Graphs of a run are consistent

Whatever a run asks for, and whether or not its calls succeed, as long as no derivation is put in
by hand every node depends on earlier nodes only and says of itself and of them what is the case.
So a closure of nodes that are there never fails, and a composition fails for two reasons only: a
layer that is not there, and an empty name.
-/

namespace Derivations

namespace Graph

/-- A node agrees with the graph it is in and with its own content. -/
structure Consistent (g : Graph) (id : NodeId) (d : Derivation) : Prop where
  deps : ∀ dep ∈ d.deps, dep.graph = g.tag ∧ dep.index < id.index
  dependencies : d.deps.map g.out? = d.dependencies.map some
  reduced : d.src.IsReduced
  name_ne : d.name ≠ ""
  version_ne : d.version ≠ ""
  out : ∃ fingerprint, d.identity.fingerprint = .ok fingerprint ∧
    d.out = .of fingerprint d.name d.version

variable {texts : List String} {g : Graph} {id : NodeId} {d : Derivation}

theorem WellMade.consistent (h : g.WellMade texts id d) : g.Consistent id d := by
  obtain ⟨text, -, written, out⟩ := h.out
  refine ⟨h.deps, h.dependencies, h.reduced, h.name_ne, h.version_ne, .ofText text, ?_, out⟩
  rw [Identity.fingerprint, written]
  rfl

/-- Where no closure is found, one of the roots is not there. -/
theorem Made.error_of_closure (h : g.Made texts) {roots : List NodeId} {e : ClosureError}
    (failed : g.closure roots = .error e) :
    ∃ root ∈ roots, g.get? root = none ∧ e = .unknown root := by
  have explained := explains_of_closure failed
  cases e with
  | cycle name out =>
    obtain ⟨id, -, -, -, -, -, cycle⟩ := explained
    exact absurd cycle (h.not_onCycle id)
  | unknown id =>
    obtain ⟨reached, absent⟩ := explained
    rcases reached.cases with mem | ⟨via, -, edge⟩
    · exact ⟨id, mem, absent, rfl⟩
    · obtain ⟨d, found⟩ := h.present_of_depends edge
      rw [absent] at found
      nomatch found

end Graph

namespace Bench

variable {texts : List String} {b : Bench} {config : StoreConfig} {c : Composition}

/-- Why a composition is not built in a graph that is made. -/
theorem error_of_compose (h : b.graph.Made texts) {e : CompositionError}
    (failed : b.compose config c = .error e) :
    (∃ root ∈ c.layers, b.graph.get? root = none ∧ e = .layers (.unknown root)) ∨
      c.name = "" ∧ e = .finalize .emptyName := by
  cases compose_eq_error.1 failed with
  | layers unclosed =>
    obtain ⟨root, mem, absent, rfl⟩ := h.error_of_closure unclosed
    exact .inl ⟨root, mem, absent, rfl⟩
  | name _ unnamed => exact .inr ⟨unnamed, rfl⟩

theorem compose_of_absent {root : NodeId} (mem : root ∈ c.layers)
    (absent : b.graph.get? root = none) : ∃ e, b.compose config c = .error e := by
  obtain ⟨e, unclosed⟩ := Graph.closure_of_absent mem absent
  exact ⟨.layers e, compose_eq_error.2 (.layers unclosed)⟩

theorem compose_of_unnamed (unnamed : c.name = "") : ∃ e, b.compose config c = .error e := by
  cases closure : b.graph.closure c.layers with
  | error e => exact ⟨_, compose_eq_error.2 (.layers closure)⟩
  | ok order => exact ⟨_, compose_eq_error.2 (.name closure unnamed)⟩

end Bench

namespace Session

/-- In a graph at any point of a run, every node is consistent, all nodes have closures, and a
composition fails only for a layer that is not there or for want of a name. -/
theorem consistent_of_run {calls : List Call} {index : Nat} {g : Graph}
    (kept : ∀ call ∈ calls, ¬ call.IsHandmade)
    (run : (start.run calls).1.graphs[index]? = some g) :
    (∀ id d, g.get? id = some d → g.Consistent id d) ∧
    (∀ roots, (∀ root ∈ roots, ∃ d, g.get? root = some d) →
      ∃ order, g.closure roots = .ok order) ∧
    ∀ (files : FileTree) (config : StoreConfig) (c : Composition),
      ((∃ e, Bench.compose ⟨g, files⟩ config c = .error e) ↔
        (∃ root ∈ c.layers, g.get? root = none) ∨ c.name = "") ∧
      ∀ e, Bench.compose ⟨g, files⟩ config c = .error e →
        (∃ root ∈ c.layers, g.get? root = none ∧ e = .layers (.unknown root)) ∨
          c.name = "" ∧ e = .finalize .emptyName := by
  have made := made_of_run kept run
  refine ⟨fun id d found => (made.wellMade found).consistent, fun roots => made.exists_closure,
    fun files config c => ⟨⟨?_, ?_⟩, fun e failed => Bench.error_of_compose made failed⟩⟩
  · rintro ⟨e, failed⟩
    exact (Bench.error_of_compose made failed).imp
      (fun ⟨root, mem, absent, _⟩ => ⟨root, mem, absent⟩) And.left
  · rintro (⟨root, mem, absent⟩ | unnamed)
    · exact Bench.compose_of_absent mem absent
    · exact Bench.compose_of_unnamed unnamed

/-- A derivation made twice, one that depends on it, and two calls that fail. -/
def stumblingScript : List Call :=
  [.newGraph, .finalize 0 .disabled ⟨"base", "1", .blank, [], none, none⟩,
    .finalize 0 .disabled ⟨"", "1", .blank, [], none, none⟩,
    .finalize 0 .disabled ⟨"base", "1", .blank, [], none, none⟩,
    .compose 0 .disabled { name := "early", layers := [⟨0, 7⟩] },
    .finalize 0 .disabled ⟨"app", "1", .runInBuild ⟨.node ⟨0, 0⟩, ⟨"make", none, none⟩, []⟩,
      [⟨0, 0⟩], none, none⟩]

theorem consistent_of_stumblingScript :
    ∃ g d, (start.run stumblingScript).1.graphs[0]? = some g ∧ g.get? ⟨0, 1⟩ = some d ∧
      g.Consistent ⟨0, 1⟩ d ∧ ∃ order, g.closure [⟨0, 1⟩] = .ok order := by
  have there : ((start.run stumblingScript).1.graphs[0]?.bind fun g => g.out? ⟨0, 1⟩).isSome := by
    decide +kernel
  obtain ⟨out, found⟩ := Option.isSome_iff_exists.1 there
  obtain ⟨g, run, out?⟩ := Option.bind_eq_some_iff.1 found
  obtain ⟨d, node, -⟩ := Graph.out?_eq_some_iff.1 out?
  obtain ⟨consistent, closures, -⟩ :=
    consistent_of_run (by simp [stumblingScript, Call.IsHandmade]) run
  exact ⟨g, d, run, node, consistent _ _ node, closures _ (by simpa using ⟨d, node⟩)⟩

end Session

end Derivations

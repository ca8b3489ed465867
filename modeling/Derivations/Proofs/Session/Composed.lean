import Derivations.Proofs.Graph.Replay
import Derivations.Proofs.Identity.Composite
import Derivations.Proofs.Session.Arena

/-!
# Compositions end to end

A composition that is built is found in its graph with all its layers: those that the layers asked
for resolve to, each once and behind whatever it depends on itself, and with the options that were
given. So it is if an older node is found under its identifier, and however deep the compositions
among its layers go. Composing its layers once more, at any later time, leads back to it.
-/

namespace Derivations

variable {texts : List String} {g g' : Graph} {c : Composition} {d e : Derivation}
  {roots order ids ids' : List NodeId} {outs : List OutId}

/-! ## Nodes and identifiers in one order -/

namespace Graph

theorem getElem?_outs (h : ids.map g.out? = outs.map some) (i : Nat) :
    outs[i]? = ids[i]?.bind g.out? := by
  have both : (ids.map g.out?)[i]? = (outs.map some)[i]? := congrArg (fun list => list[i]?) h
  rw [List.getElem?_map, List.getElem?_map] at both
  cases there : outs[i]? with
  | none =>
    rw [there, Option.map_none, Option.map_eq_none_iff] at both
    rw [both, Option.bind_none]
  | some out =>
    rw [there, Option.map_some] at both
    obtain ⟨id, here, known⟩ := Option.map_eq_some_iff.1 both
    rw [here, Option.bind_some, known]

/-- Nodes are known by their identifiers, in order. -/
theorem eq_of_map_out?_eq (h : ids.map g.out? = outs.map some)
    (h' : ids'.map g.out? = outs.map some) : ids = ids' := by
  rw [← List.forall₂_eq_eq_eq]
  refine (forall₂_sameOut h h').imp fun a b same => ?_
  obtain ⟨d, e, found, found', out⟩ := sameOut_iff.1 same
  exact eq_of_out_eq found found' out

/-- In a closure, whatever a derivation says it depends on comes before it. -/
theorem Made.dependency_before (made : g.Made texts) (closure : g.closure roots = .ok order)
    (aligned : order.map g.out? = outs.map some) {i : Nat} {out : OutId}
    (here : outs[i]? = some out) :
    ∃ e, g.byOut? out = some e ∧ ∀ dep ∈ e.dependencies, ∃ j < i, outs[j]? = some dep := by
  rw [getElem?_outs aligned, Option.bind_eq_some_iff] at here
  obtain ⟨id, place, known⟩ := here
  obtain ⟨e, found, rfl⟩ := out?_eq_some_iff.1 known
  refine ⟨e, by rw [byOut?, idOf?_of_get? found, Option.bind_some, found], fun dep mem => ?_⟩
  obtain ⟨below, listed, out⟩ := exists_id_of_mem (made.wellMade found).dependencies mem
  have settled := (lists_of_closure closure).sound.settled
  have before := settled.depends_before (i := i) (by rw [List.reverse_reverse, place])
    ⟨e, found, listed⟩
  rw [List.reverse_reverse] at before
  obtain ⟨j, earlier, there⟩ := before
  exact ⟨j, earlier, by rw [getElem?_outs aligned, there, Option.bind_some, out]⟩

end Graph

/-! ## What is built -/

theorem Source.eq_of_alike_fetchBuild {s : Source} {stack : LayerStack}
    (h : s.Alike (.fetchBuild stack)) : s = .fetchBuild stack := by
  cases s with
  | fetchBuild other => exact congrArg Source.fetchBuild h
  | _ => nomatch h

/-- The derivation is what the composition asks for, made of the nodes in this order. -/
structure Composition.Builds (c : Composition) (g : Graph) (order : List NodeId)
    (d : Derivation) : Prop where
  name : d.name = c.name
  version : d.version = "generated"
  layers : order.map g.out? = d.dependencies.map some
  deps : d.deps = order
  src : d.src = .fetchBuild ⟨d.dependencies, c.entrypoint, c.umu, c.args, c.env, c.permissions⟩
  permissions : d.permissions = c.permissions
  postbuild : d.postbuild = c.postbuild

theorem Composition.builds_of_alike (identified : g.identify (c.draft g order) = .ok d)
    (content : e.identity.Alike d.identity) (deps : e.deps = order) : c.Builds g order e := by
  have drafted := Graph.identify_eq_ok_iff.1 identified
  have dependencies : e.dependencies = d.dependencies := content.dependencies
  have layers : order.map g.out? = e.dependencies.map some := dependencies ▸ drafted.dependencies
  have src : d.src = (c.draft g order).src := Graph.src_of_identify trivial identified
  have stack : (c.draft g order).src = .fetchBuild
      ⟨e.dependencies, c.entrypoint, c.umu, c.args, c.env, c.permissions⟩ := by
    have found : (order.filterMap g.get?).map Derivation.out = e.dependencies := by
      rw [layers_eq, layers, List.filterMap_map]
      exact List.filterMap_some
    rw [← found]
    rfl
  have alike : e.src.Alike d.src := content.src
  rw [src, stack] at alike
  exact ⟨content.name.trans drafted.name, content.version.trans drafted.version, layers, deps,
    Source.eq_of_alike_fetchBuild alike, content.permissions.trans drafted.permissions,
    content.postbuild.trans drafted.postbuild⟩

/-- What is found where a draft was put in has its identifier and its content, old or new. -/
theorem Graph.Made.insert_alike {draft : Draft} (made : g.Made texts) (free : CollisionFree texts)
    (identified : g.identify draft = .ok d)
    (hashed : ∀ text, d.identity.encoding = .ok text → text ∈ texts) :
    (g.insert d).2.Made texts ∧ ∃ e, (g.insert d).2.get? (g.insert d).1 = some e ∧
      e.out = d.out ∧ e.identity.Alike d.identity := by
  obtain ⟨text, written, -⟩ := (identify_eq_ok_iff.1 identified).out
  have grown : (g.insert d).2.Made texts :=
    .insert made identified written (hashed text written)
  obtain ⟨e, found, out⟩ := get?_insert g d
  exact ⟨grown, e, found, out, (grown.wellMade found).alike free
    (wellMade_of_identify identified written (hashed text written)) out⟩

/-- What is found where a composition was put in is what it asks for, old or new. -/
theorem Graph.Made.builds (made : g.Made texts) (free : CollisionFree texts)
    (identified : g.identify (c.draft g order) = .ok d)
    (hashed : ∀ text, d.identity.encoding = .ok text → text ∈ texts) :
    (g.insert d).2.Made texts ∧ ∃ e, (g.insert d).2.get? (g.insert d).1 = some e ∧
      e.out = d.out ∧ c.Builds g order e := by
  obtain ⟨grown, e, found, out, content⟩ := made.insert_alike free identified hashed
  have dependencies : e.dependencies = d.dependencies := content.dependencies
  have deps : e.deps = order := by
    refine eq_of_map_out?_eq (grown.wellMade found).dependencies ?_
    rw [dependencies]
    exact (keeps_insert g d).map_out?_eq (identify_eq_ok_iff.1 identified).dependencies
  exact ⟨grown, e, found, out, Composition.builds_of_alike identified content deps⟩

/-! ## Once more -/

/-- In any graph that keeps the nodes, a draft of the same content comes to the same identifier, and
what it comes to is there. -/
theorem Draft.SameContent.again {draft draft' : Draft} (h : SameContent g' g draft' draft)
    (identified : g.identify draft = .ok d) (keeps : (g.insert d).2.Keeps g') :
    ∃ d', g'.identify draft' = .ok d' ∧ d'.out = d.out ∧ g'.insert d' = ((g.insert d).1, g') := by
  have drafted := Graph.identify_eq_ok_iff.1 identified
  have present : ∀ id ∈ draft'.deps, (g'.out? id).isSome := by
    intro id mem
    obtain ⟨out, known⟩ := Graph.exists_out?_of_mem (h.deps.trans drafted.dependencies) mem
    exact Option.isSome_of_eq_some known
  obtain ⟨d', identified'⟩ := Graph.exists_identify (h.name ▸ drafted.name_ne)
    (h.version ▸ drafted.version_ne) present
    (h.src.hasTarget (Graph.hasTarget_of_reduce drafted.src))
  have out : d'.out = d.out := h.out_eq (Graph.identify_eq_ok_iff.1 identified') drafted
  have taken : g'.idOf? d'.out = some (g.insert d).1 := by
    obtain ⟨e, found, same⟩ := g.get?_insert d
    rw [out, ← same]
    exact Graph.idOf?_of_get? (keeps _ _ found)
  exact ⟨d', identified', out, Graph.insert_of_taken taken⟩

/-- Composing the layers that a composition was made of leads to its node, in any graph that keeps
the nodes. -/
theorem Bench.compose_again (closure : g.closure c.layers = .ok order)
    (identified : g.identify (c.draft g order) = .ok d) (keeps : (g.insert d).2.Keeps g')
    (files : FileTree) (config : StoreConfig) :
    ∃ recipe files', compose ⟨g', files⟩ config { c with layers := order } =
      .ok (⟨(g.insert d).1, d.out, recipe⟩, ⟨g', files'⟩) := by
  let again : Composition := { c with layers := order }
  have grows : g.Keeps g' := (g.keeps_insert d).trans keeps
  have replayed : g'.closure again.layers = .ok order :=
    Graph.closure_of_settled ((Graph.lists_of_closure closure).sound.settled.of_keeps grows)
  have content : Draft.SameContent g' g (again.draft g' order) (c.draft g order) := by
    refine Composition.sameContent_draft_iff.2 ⟨?_, c.sameOptions_layers order c.layers⟩
    have aligned : order.map g.out? = d.dependencies.map some :=
      (Graph.identify_eq_ok_iff.1 identified).dependencies
    rw [grows.map_out?_eq aligned, aligned]
  obtain ⟨d', identified', out, put⟩ := content.again identified keeps
  rw [compose_of_closure (c := again) config replayed, finalize_eq, identified']
  dsimp only [Except.map, Except.mapError]
  rw [put, out]
  exact ⟨_, _, rfl⟩

namespace Session

variable {s : Session} {index : Nat} {calls : List Call} {config : StoreConfig}
  {done : Finalized}

theorem Tagged.keeps (tagged : s.Tagged) (found : s.graphs[index]? = some g)
    (later : (s.run calls).1.graphs[index]? = some g') : g.Keeps g' := by
  intro id d node
  have here : id.graph = index := (Graph.get?_eq_some_iff.1 node).1.trans (tagged index g found)
  have holds : s.Holds id d := ⟨g, here ▸ found, node⟩
  obtain ⟨g'', found'', node'⟩ := holds.run calls
  rw [here, later] at found''
  cases found''
  exact node'

/-- The node of a composition that was built in a run is what was asked for, made of what the
layers asked for resolve to: each layer once, those asked for among them, and each behind the
layers that it says it depends on. Composing its own layers once more, after whatever other calls
and with whatever store, gives the same node. -/
theorem composed_of_run (kept : ∀ call ∈ calls, ¬ call.IsHandmade)
    (run : (start.run calls).1.graphs[index]? = some g)
    (composed : ((start.run calls).1.perform (.compose index config c)).2 = .composed (.ok done))
    (free : CollisionFree (start.hashed index (calls ++ [.compose index config c]))) :
    ∃ order g' d, g.closure c.layers = .ok order ∧
      (start.run (calls ++ [.compose index config c])).1.graphs[index]? = some g' ∧
      g'.get? done.id = some d ∧ d.out = done.out ∧ c.Builds g order d ∧
      d.dependencies.Nodup ∧
      (∀ root ∈ c.layers, ∃ layer ∈ d.dependencies, g.out? root = some layer) ∧
      (∀ (i : Nat) layer, d.dependencies[i]? = some layer →
        ∃ e, g'.byOut? layer = some e ∧
          ∀ dep ∈ e.dependencies, ∃ j < i, d.dependencies[j]? = some dep) ∧
      ∀ more g'', (start.run (calls ++ .compose index config c :: more)).1.graphs[index]? =
          some g'' →
        ∀ files config', ∃ recipe files',
          Bench.compose ⟨g'', files⟩ config' { c with layers := d.deps } =
            .ok (⟨done.id, done.out, recipe⟩, ⟨g'', files'⟩) := by
  obtain ⟨order, d, closure, identified, out, id, grown⟩ := grown_of_composed run composed
  rw [hashed_append] at free
  obtain ⟨made, e, found, same, builds⟩ :=
    Graph.Made.builds ((made_of_run kept run).mono (List.subset_append_left _ _)) free identified
      fun text written => List.mem_append_right _
        (mem_hashed_of_composed run closure identified written)
  have aligned : order.map (g.insert d).2.out? = e.dependencies.map some :=
    (g.keeps_insert d).map_out?_eq builds.layers
  have replayed : (g.insert d).2.closure order = .ok order := Graph.closure_of_settled
    ((Graph.lists_of_closure closure).sound.settled.of_keeps (g.keeps_insert d))
  refine ⟨order, (g.insert d).2, e, closure, ?_, id ▸ found, same.trans out.symm, builds, ?_,
    fun root mem => ?_, fun i layer here => made.dependency_before replayed aligned here,
    fun more g'' later files config' => ?_⟩
  · rw [run_append]
    exact grown
  · have distinct := Graph.nodup_outs_of_closure closure
    rw [builds.layers] at distinct
    exact distinct.of_map some
  · have listed := List.mem_reverse.1 ((Graph.lists_of_closure closure).visited mem)
    have layer : g.out? root ∈ e.dependencies.map some := by
      rw [← builds.layers]
      exact List.mem_map_of_mem listed
    obtain ⟨out, mem, known⟩ := List.mem_map.1 layer
    exact ⟨out, mem, known.symm⟩
  · rw [run_append] at later
    have tagged := (tagged_start.run calls).perform (.compose index config c)
    rw [builds.deps, id, out]
    exact Bench.compose_again closure identified (tagged.keeps grown later) files config'

theorem composed_of_stackedScript : ∃ (done : Finalized) (g' : Graph) (d : Derivation),
    ((start.run stackedScript).1.perform (.compose 0 .disabled (stack [⟨0, 1⟩]))).2 =
      .composed (.ok done) ∧
    (start.run (stackedScript ++ [.compose 0 .disabled (stack [⟨0, 1⟩])])).1.graphs[0]? =
      some g' ∧
    g'.get? done.id = some d ∧ d.deps = [⟨0, 0⟩, ⟨0, 1⟩] ∧ d.dependencies.Nodup := by
  obtain ⟨g, found, once, -, hashes⟩ := exists_graph_of_stackedScript
  obtain ⟨done, composed⟩ :=
    exists_composed (c := stack [⟨0, 1⟩]) .disabled found once (show "stack" ≠ "" by decide)
  have free : CollisionFree
      (start.hashed 0 (stackedScript ++ [.compose 0 .disabled (stack [⟨0, 1⟩])])) := by
    rw [(hashes _ once).2]
    exact (hashes _ once).1
  obtain ⟨order, g', d, closure, grown, there, -, builds, distinct, -⟩ :=
    composed_of_run (by simp [stackedScript, Call.IsHandmade]) found composed free
  have resolved : order = [⟨0, 0⟩, ⟨0, 1⟩] := Except.ok.inj (closure.symm.trans once)
  exact ⟨done, g', d, composed, grown, there, builds.deps.trans resolved, distinct⟩

end Session

end Derivations

import Derivations.Proofs.Graph.Simulation
import Derivations.Proofs.Identity.Content
import Derivations.Proofs.Session

/-!
# An identifier determines everything beneath it

The identifiers of the dependencies are part of what is hashed. If no two of the texts hashed for
two graphs share a fingerprint, then nodes of one identifier have one content, their dependencies
have the same identifiers, and so on down. Where the nodes stand in their graphs has no influence,
so closures list the same identifiers and compositions get the same one.
-/

namespace Derivations

/-- No two of the texts share a fingerprint. -/
def CollisionFree (texts : List String) : Prop :=
  ∀ s ∈ texts, ∀ t ∈ texts, Fingerprint.ofText s = Fingerprint.ofText t → s = t

theorem CollisionFree.mono {texts texts' : List String} (h : CollisionFree texts')
    (sub : texts ⊆ texts') : CollisionFree texts :=
  fun s hs t ht same => h s (sub hs) t (sub ht) same

theorem collisionFree_of_nodup {texts : List String}
    (h : (texts.map Fingerprint.ofText).Nodup) : CollisionFree texts :=
  fun _ hs _ ht same => List.inj_on_of_nodup_map h hs ht same

namespace Graph

/-- Nodes of one identifier, each in its graph. -/
def SameOut (g₁ g₂ : Graph) (a b : NodeId) : Prop :=
  ∃ out, g₁.out? a = some out ∧ g₂.out? b = some out

/-- Nodes of one identifier and one content, as are their dependencies, in order and all the way
down. -/
inductive SameBeneath (g₁ g₂ : Graph) : NodeId → NodeId → Prop
  | node {a b : NodeId} {d e : Derivation} (found₁ : g₁.get? a = some d)
      (found₂ : g₂.get? b = some e) (out : d.out = e.out)
      (content : d.identity.Alike e.identity)
      (deps : List.Forall₂ (SameBeneath g₁ g₂) d.deps e.deps) : SameBeneath g₁ g₂ a b

variable {texts : List String} {g₁ g₂ : Graph} {a b : NodeId} {d e : Derivation}

theorem sameOut_iff : g₁.SameOut g₂ a b ↔
    ∃ d e, g₁.get? a = some d ∧ g₂.get? b = some e ∧ d.out = e.out := by
  constructor
  · rintro ⟨out, left, right⟩
    obtain ⟨d, found₁, rfl⟩ := out?_eq_some_iff.1 left
    obtain ⟨e, found₂, same⟩ := out?_eq_some_iff.1 right
    exact ⟨d, e, found₁, found₂, same.symm⟩
  · rintro ⟨d, e, found₁, found₂, same⟩
    exact ⟨d.out, out?_eq_some_iff.2 ⟨d, found₁, rfl⟩, out?_eq_some_iff.2 ⟨e, found₂, same.symm⟩⟩

theorem forall₂_sameOut {ids₁ ids₂ : List NodeId} {outs : List OutId}
    (h₁ : ids₁.map g₁.out? = outs.map some) (h₂ : ids₂.map g₂.out? = outs.map some) :
    List.Forall₂ (g₁.SameOut g₂) ids₁ ids₂ := by
  induction outs generalizing ids₁ ids₂ with
  | nil =>
    rw [List.map_nil, List.map_eq_nil_iff] at h₁ h₂
    rw [h₁, h₂]
    exact .nil
  | cons out outs ih =>
    obtain ⟨a, rest₁, rfl, head₁, tail₁⟩ := List.map_eq_cons_iff.1 h₁
    obtain ⟨b, rest₂, rfl, head₂, tail₂⟩ := List.map_eq_cons_iff.1 h₂
    exact .cons ⟨out, head₁, head₂⟩ (ih tail₁ tail₂)

theorem map_out?_eq {ids₁ ids₂ : List NodeId} (h : List.Forall₂ (g₁.SameOut g₂) ids₁ ids₂) :
    ids₁.map g₁.out? = ids₂.map g₂.out? := by
  induction h with
  | nil => rfl
  | cons head tail ih =>
    obtain ⟨out, left, right⟩ := head
    rw [List.map_cons, List.map_cons, left, right, ih]

theorem SameOut.isSome {ids₁ ids₂ : List NodeId}
    (h : List.Forall₂ (g₁.SameOut g₂) ids₁ ids₂) :
    (∀ id ∈ ids₁, (g₁.out? id).isSome) ∧ ∀ id ∈ ids₂, (g₂.out? id).isSome := by
  induction h with
  | nil => exact ⟨List.forall_mem_nil _, List.forall_mem_nil _⟩
  | cons head tail ih =>
    obtain ⟨out, left, right⟩ := head
    rw [List.forall_mem_cons, List.forall_mem_cons, left, right]
    exact ⟨⟨rfl, ih.1⟩, rfl, ih.2⟩

/-! ## Down the dependencies -/

/-- One identifier, one content. -/
theorem WellMade.alike (free : CollisionFree texts) (well₁ : g₁.WellMade texts a d)
    (well₂ : g₂.WellMade texts b e) (same : d.out = e.out) : d.identity.Alike e.identity := by
  obtain ⟨s, hs, written₁, out₁⟩ := well₁.out
  obtain ⟨t, ht, written₂, out₂⟩ := well₂.out
  rw [out₁, out₂] at same
  have texts_eq : s = t := free s hs t ht (OutId.fingerprint_eq_of_of_eq same)
  exact (Identity.encoding_eq_iff well₁.reduced well₂.reduced written₁ written₂).1 texts_eq

section Made

variable (free : CollisionFree texts) (made₁ : g₁.Made texts) (made₂ : g₂.Made texts)
include free made₁ made₂

theorem alike_of_out_eq (found₁ : g₁.get? a = some d) (found₂ : g₂.get? b = some e)
    (same : d.out = e.out) : d.identity.Alike e.identity :=
  (made₁.wellMade found₁).alike free (made₂.wellMade found₂) same

theorem deps_of_out_eq (found₁ : g₁.get? a = some d) (found₂ : g₂.get? b = some e)
    (same : d.out = e.out) : List.Forall₂ (g₁.SameOut g₂) d.deps e.deps := by
  have content := alike_of_out_eq free made₁ made₂ found₁ found₂ same
  have dependencies : d.dependencies = e.dependencies := content.dependencies
  refine forall₂_sameOut (made₁.wellMade found₁).dependencies ?_
  rw [dependencies]
  exact (made₂.wellMade found₂).dependencies

theorem sameBeneath_of_sameOut (h : g₁.SameOut g₂ a b) : g₁.SameBeneath g₂ a b := by
  induction level : a.index using Nat.strongRecOn generalizing a b with
  | ind level ih =>
    subst level
    obtain ⟨d, e, found₁, found₂, same⟩ := sameOut_iff.1 h
    have deps := deps_of_out_eq free made₁ made₂ found₁ found₂ same
    refine .node found₁ found₂ same (alike_of_out_eq free made₁ made₂ found₁ found₂ same) ?_
    have lower : ∀ dep ∈ d.deps, dep.index < a.index :=
      fun dep mem => ((made₁.wellMade found₁).deps dep mem).2
    refine ((List.forall₂_and_left _ _).2 ⟨lower, deps⟩).imp fun dep dep' both => ?_
    exact ih dep.index both.1 both.2 rfl

theorem simulates_sameOut : Simulates g₁ g₂ (g₁.SameOut g₂) where
  found := by
    intro a b d h found₁
    obtain ⟨d', e, found₁', found₂, same⟩ := sameOut_iff.1 h
    rw [found₁] at found₁'
    cases found₁'
    have content := alike_of_out_eq free made₁ made₂ found₁ found₂ same
    exact ⟨e, found₂, content.name.symm, same.symm,
      deps_of_out_eq free made₁ made₂ found₁ found₂ same⟩
  unique := by
    intro a b a' b' h h'
    obtain ⟨d, e, found₁, found₂, same⟩ := sameOut_iff.1 h
    obtain ⟨d', e', found₁', found₂', same'⟩ := sameOut_iff.1 h'
    rw [← out_eq_iff found₁ found₁', ← out_eq_iff found₂ found₂', same, same']

/-! ## Closures and compositions -/

/-- Roots of the same identifiers have closures of the same identifiers. -/
theorem closures_of_sameOut {roots₁ roots₂ : List NodeId}
    (h : List.Forall₂ (g₁.SameOut g₂) roots₁ roots₂) :
    ∃ order₁ order₂, g₁.closure roots₁ = .ok order₁ ∧ g₂.closure roots₂ = .ok order₂ ∧
      List.Forall₂ (g₁.SameOut g₂) order₁ order₂ := by
  have present : ∀ root ∈ roots₁, ∃ d, g₁.get? root = some d := by
    intro root mem
    obtain ⟨out, there⟩ := Option.isSome_iff_exists.1 ((SameOut.isSome h).1 root mem)
    obtain ⟨d, found, -⟩ := out?_eq_some_iff.1 there
    exact ⟨d, found⟩
  obtain ⟨order₁, closure₁⟩ := made₁.exists_closure present
  have steps := (simulates_sameOut free made₁ made₂).inStep_closure h
  rw [closure₁] at steps
  obtain ⟨order₂, closure₂, matching⟩ := steps
  exact ⟨order₁, order₂, closure₁, closure₂, matching⟩

end Made

end Graph

/-! ## Compositions -/

variable {g₁ g₂ : Graph} {c : Composition} {roots₁ roots₂ order₁ order₂ : List NodeId}

/-- All that is asked for besides the layers is the same. -/
structure Composition.SameOptions (c₁ c₂ : Composition) : Prop where
  name : c₁.name = c₂.name
  entrypoint : c₁.entrypoint = c₂.entrypoint
  umu : c₁.umu = c₂.umu
  args : c₁.args = c₂.args
  env : c₁.env = c₂.env
  permissions : c₁.permissions = c₂.permissions
  postbuild : c₁.postbuild = c₂.postbuild

theorem Composition.sameOptions_layers (c : Composition) (roots₁ roots₂ : List NodeId) :
    SameOptions { c with layers := roots₁ } { c with layers := roots₂ } :=
  ⟨rfl, rfl, rfl, rfl, rfl, rfl, rfl⟩

/-- The layers of the source are the identifiers that are found. -/
theorem Composition.layers_eq (g : Graph) (order : List NodeId) :
    (order.filterMap g.get?).map Derivation.out = (order.map g.out?).filterMap id := by
  rw [List.map_filterMap, List.filterMap_map]
  rfl

/-- Two compositions have one content exactly if they have the same identifiers in their closures
and the same options. The layers of the source add nothing to the dependencies. -/
theorem Composition.sameContent_draft_iff {c₁ c₂ : Composition} :
    Draft.SameContent g₁ g₂ (c₁.draft g₁ order₁) (c₂.draft g₂ order₂) ↔
      order₁.map g₁.out? = order₂.map g₂.out? ∧ c₁.SameOptions c₂ := by
  constructor
  · intro h
    have src : LayerStack.mk .. = LayerStack.mk .. := h.src
    simp only [LayerStack.mk.injEq] at src
    obtain ⟨-, entrypoint, umu, args, env, -⟩ := src
    exact ⟨h.deps, h.name, entrypoint, umu, args, env, h.permissions, h.postbuild⟩
  · rintro ⟨outs, same⟩
    refine ⟨same.name, rfl, same.permissions, same.postbuild, outs, ?_⟩
    show LayerStack.mk .. = LayerStack.mk ..
    rw [layers_eq g₁, layers_eq g₂, outs, same.entrypoint, same.umu, same.args, same.env,
      same.permissions]

theorem Composition.exists_identify {g : Graph} {order : List NodeId} (named : c.name ≠ "")
    (present : ∀ id ∈ order, (g.out? id).isSome) :
    ∃ d, g.identify (c.draft g order) = .ok d := by
  have versioned : (c.draft g order).version ≠ "" := show Composition.version ≠ "" by decide
  exact Graph.exists_identify named versioned present trivial

/-- Layers of the same identifiers make one composition of them. -/
theorem Bench.composedOut_eq_of_sameOut {texts : List String} (free : CollisionFree texts)
    (made₁ : g₁.Made texts) (made₂ : g₂.Made texts)
    (h : List.Forall₂ (g₁.SameOut g₂) roots₁ roots₂) (c : Composition)
    (config₁ config₂ : StoreConfig) (files₁ files₂ : FileTree) :
    Bench.composedOut ⟨g₁, files₁⟩ config₁ { c with layers := roots₁ } =
      Bench.composedOut ⟨g₂, files₂⟩ config₂ { c with layers := roots₂ } ∧
    (c.name ≠ "" → ∃ out,
      Bench.composedOut ⟨g₁, files₁⟩ config₁ { c with layers := roots₁ } = .ok out) := by
  obtain ⟨order₁, order₂, closure₁, closure₂, matching⟩ :=
    Graph.closures_of_sameOut free made₁ made₂ h
  let c₁ : Composition := { c with layers := roots₁ }
  let c₂ : Composition := { c with layers := roots₂ }
  have out₁ := Bench.composedOut_eq (b := ⟨g₁, files₁⟩) config₁ (c := c₁) closure₁
  have out₂ := Bench.composedOut_eq (b := ⟨g₂, files₂⟩) config₂ (c := c₂) closure₂
  rw [out₁, out₂]
  by_cases unnamed : c.name = ""
  · rw [Graph.identify_of_unnamed unnamed, Graph.identify_of_unnamed unnamed]
    exact ⟨rfl, fun named => absurd unnamed named⟩
  · have present := Graph.SameOut.isSome matching
    obtain ⟨d₁, identified₁⟩ := Composition.exists_identify (c := c₁) unnamed present.1
    obtain ⟨d₂, identified₂⟩ := Composition.exists_identify (c := c₂) unnamed present.2
    have content : Draft.SameContent g₁ g₂ (c₁.draft g₁ order₁) (c₂.draft g₂ order₂) :=
      Composition.sameContent_draft_iff.2
        ⟨Graph.map_out?_eq matching, c.sameOptions_layers roots₁ roots₂⟩
    have same : d₁.out = d₂.out := content.out_eq
      (Graph.identify_eq_ok_iff.1 identified₁) (Graph.identify_eq_ok_iff.1 identified₂)
    rw [identified₁, identified₂]
    exact ⟨congrArg Except.ok same, fun _ => ⟨d₁.out, rfl⟩⟩

/-! ## Runs -/

namespace Session

/-- In graphs of any two runs, nodes of one identifier are the same all the way down; roots of the
same identifiers have closures of the same identifiers and make the same compositions. -/
theorem sameBeneath_of_runs {calls₁ calls₂ : List Call} {index₁ index₂ : Nat}
    (kept₁ : ∀ call ∈ calls₁, ¬ call.IsHandmade) (kept₂ : ∀ call ∈ calls₂, ¬ call.IsHandmade)
    (run₁ : (start.run calls₁).1.graphs[index₁]? = some g₁)
    (run₂ : (start.run calls₂).1.graphs[index₂]? = some g₂)
    (free : CollisionFree (start.hashed index₁ calls₁ ++ start.hashed index₂ calls₂)) :
    (∀ a b, g₁.SameOut g₂ a b → g₁.SameBeneath g₂ a b) ∧
    ∀ roots₁ roots₂, List.Forall₂ (g₁.SameOut g₂) roots₁ roots₂ →
      (∃ order₁ order₂, g₁.closure roots₁ = .ok order₁ ∧ g₂.closure roots₂ = .ok order₂ ∧
        List.Forall₂ (g₁.SameOut g₂) order₁ order₂) ∧
      ∀ (c : Composition) (config₁ config₂ : StoreConfig) (files₁ files₂ : FileTree),
        Bench.composedOut ⟨g₁, files₁⟩ config₁ { c with layers := roots₁ } =
          Bench.composedOut ⟨g₂, files₂⟩ config₂ { c with layers := roots₂ } ∧
        (c.name ≠ "" → ∃ out,
          Bench.composedOut ⟨g₁, files₁⟩ config₁ { c with layers := roots₁ } = .ok out) := by
  have made₁ : g₁.Made (start.hashed index₁ calls₁ ++ start.hashed index₂ calls₂) :=
    (made_of_run kept₁ run₁).mono (List.subset_append_left _ _)
  have made₂ : g₂.Made (start.hashed index₁ calls₁ ++ start.hashed index₂ calls₂) :=
    (made_of_run kept₂ run₂).mono (List.subset_append_right _ _)
  refine ⟨fun a b same => Graph.sameBeneath_of_sameOut free made₁ made₂ same, ?_⟩
  intro roots₁ roots₂ same
  exact ⟨Graph.closures_of_sameOut free made₁ made₂ same,
    Bench.composedOut_eq_of_sameOut free made₁ made₂ same⟩

/-- A derivation and one that depends on it, in the first graph. -/
def briefScript : List Call :=
  [.newGraph, .finalize 0 .disabled ⟨"base", "1", .blank, [], none, none⟩,
    .finalize 0 .disabled ⟨"app", "1", .blank, [⟨0, 0⟩], none, none⟩]

/-- The same in a second graph and behind another derivation. -/
def wordyScript : List Call :=
  [.newGraph, .newGraph, .finalize 1 .disabled ⟨"other", "1", .blank, [], none, none⟩,
    .finalize 1 .disabled ⟨"base", "1", .blank, [], none, none⟩,
    .finalize 1 .disabled ⟨"app", "1", .blank, [⟨1, 1⟩], none, none⟩]

theorem sameBeneath_of_scripts :
    ∃ g₁ g₂ d e, (start.run briefScript).1.graphs[0]? = some g₁ ∧
      (start.run wordyScript).1.graphs[1]? = some g₂ ∧
      g₁.get? ⟨0, 1⟩ = some d ∧ d.deps = [⟨0, 0⟩] ∧
      g₂.get? ⟨1, 2⟩ = some e ∧ e.deps = [⟨1, 1⟩] ∧
      g₁.SameBeneath g₂ ⟨0, 1⟩ ⟨1, 2⟩ := by
  have distinct : ((start.hashed 1 wordyScript).map Fingerprint.ofText).Nodup := by
    decide +kernel
  have among : ∀ text ∈ start.hashed 0 briefScript, text ∈ start.hashed 1 wordyScript := by
    decide +kernel
  have free : CollisionFree (start.hashed 0 briefScript ++ start.hashed 1 wordyScript) :=
    (collisionFree_of_nodup distinct).mono (List.append_subset.2 ⟨among, List.Subset.refl _⟩)
  have brief : ∃ g₁ ∈ (start.run briefScript).1.graphs[0]?, ∃ d ∈ g₁.get? ⟨0, 1⟩,
      d.out = ⟨"0b2e6fecd374a044885c18b13efdace5-app-1"⟩ ∧ d.deps = [⟨0, 0⟩] := by
    decide +kernel
  have wordy : ∃ g₂ ∈ (start.run wordyScript).1.graphs[1]?, ∃ e ∈ g₂.get? ⟨1, 2⟩,
      e.out = ⟨"0b2e6fecd374a044885c18b13efdace5-app-1"⟩ ∧ e.deps = [⟨1, 1⟩] := by
    decide +kernel
  obtain ⟨g₁, run₁, d, node₁, out₁, deps₁⟩ := brief
  obtain ⟨g₂, run₂, e, node₂, out₂, deps₂⟩ := wordy
  have law := sameBeneath_of_runs (by simp [briefScript, Call.IsHandmade])
    (by simp [wordyScript, Call.IsHandmade]) run₁ run₂ free
  refine ⟨g₁, g₂, d, e, run₁, run₂, node₁, deps₁, node₂, deps₂, law.1 _ _ ?_⟩
  exact Graph.sameOut_iff.2 ⟨d, e, node₁, node₂, out₁.trans out₂.symm⟩

end Session

end Derivations

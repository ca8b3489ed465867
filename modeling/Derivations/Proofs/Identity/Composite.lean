import Derivations.Proofs.Session.Consistency

/-!
# The identifier of a composition

What a composition is built of shows in its identifier, and nothing else does: two compositions get
one identifier exactly if their layers resolve to the same identifiers in the same order and all
their options are the same. Which of the layers were asked for, and in which order or how often,
counts only as far as the closure depends on it.
-/

namespace Derivations

variable {g g₁ g₂ : Graph} {c c₁ c₂ : Composition} {order order₁ order₂ : List NodeId}

/-- Unless two of the texts hashed share a fingerprint, one identifier is one content. -/
theorem Draft.out_eq_iff {texts : List String} (free : CollisionFree texts)
    {draft₁ draft₂ : Draft} {d₁ d₂ : Derivation} (h₁ : g₁.identify draft₁ = .ok d₁)
    (h₂ : g₂.identify draft₂ = .ok d₂)
    (hashed₁ : ∀ text, d₁.identity.encoding = .ok text → text ∈ texts)
    (hashed₂ : ∀ text, d₂.identity.encoding = .ok text → text ∈ texts) :
    d₁.out = d₂.out ↔ SameContent g₁ g₂ draft₁ draft₂ := by
  have identified₁ := Graph.identify_eq_ok_iff.1 h₁
  have identified₂ := Graph.identify_eq_ok_iff.1 h₂
  obtain ⟨text₁, written₁, out₁⟩ := identified₁.out
  obtain ⟨text₂, written₂, out₂⟩ := identified₂.out
  constructor
  · intro same
    rw [out₁, out₂] at same
    have fingerprints := OutId.fingerprint_eq_of_of_eq same
    have texts_eq := free text₁ (hashed₁ text₁ written₁) text₂ (hashed₂ text₂ written₂) fingerprints
    exact (text_eq_iff identified₁ identified₂ written₁ written₂).1 texts_eq
  · exact fun content => content.out_eq identified₁ identified₂

namespace Graph

variable {i j : Nat} {a b : NodeId}

/-! ## Places in a closure -/

/-- No identifier is listed twice. -/
theorem nodup_outs_of_closure {roots : List NodeId} (h : g.closure roots = .ok order) :
    (order.map g.out?).Nodup := by
  have nodup : order.Nodup := List.nodup_reverse.1 (lists_of_closure h).sound.settled.nodup
  refine List.Nodup.map_on (fun a mem b mem' same => ?_) nodup
  obtain ⟨out, there⟩ := Option.isSome_iff_exists.1 (present_of_closure h a mem)
  obtain ⟨d, found, out_eq⟩ := out?_eq_some_iff.1 there
  obtain ⟨e, found', out_eq'⟩ := out?_eq_some_iff.1 (same.symm.trans there)
  exact eq_of_out_eq found found' (out_eq.trans out_eq'.symm)

/-- Where two orders have the same identifiers, the nodes in one place are of one. -/
theorem sameOut_of_map_eq (same : order₁.map g₁.out? = order₂.map g₂.out?)
    (present : ∀ id ∈ order₁, (g₁.out? id).isSome) (here : order₁[i]? = some a)
    (there : order₂[i]? = some b) : g₁.SameOut g₂ a b := by
  obtain ⟨out, found⟩ := Option.isSome_iff_exists.1 (present a (List.mem_of_getElem? here))
  have outs := congrArg (fun outs => outs[i]?) same
  simp only [List.getElem?_map, here, there, Option.map_some, Option.some.injEq] at outs
  exact ⟨out, found, outs.symm.trans found⟩

/-- Where two orders have the same identifiers, each once, nodes of one are in one place. -/
theorem place_eq_of_sameOut (same : order₁.map g₁.out? = order₂.map g₂.out?)
    (nodup : (order₁.map g₁.out?).Nodup) (here : order₁[i]? = some a)
    (there : order₂[j]? = some b) (h : g₁.SameOut g₂ a b) : i = j := by
  obtain ⟨out, left, right⟩ := h
  have first : (order₁.map g₁.out?)[i]? = some (some out) := by
    rw [List.getElem?_map, here, Option.map_some, left]
  have second : (order₁.map g₁.out?)[j]? = some (some out) := by
    rw [same, List.getElem?_map, there, Option.map_some, right]
  obtain ⟨lt, -⟩ := List.getElem?_eq_some_iff.1 first
  exact (List.getElem?_inj lt nodup).1 (first.trans second.symm)

end Graph

namespace Session

variable {s : Session} {index index₁ index₂ : Nat} {calls calls₁ calls₂ : List Call}
  {config config₁ config₂ : StoreConfig} {done done₁ done₂ : Finalized} {d : Derivation}

/-! ## Composing in a run -/

/-- What was composed is what the draft with all its layers comes to, and it was put in. -/
theorem grown_of_composed (found : s.graphs[index]? = some g)
    (composed : (s.perform (.compose index config c)).2 = .composed (.ok done)) :
    ∃ order d, g.closure c.layers = .ok order ∧ g.identify (c.draft g order) = .ok d ∧
      done.out = d.out ∧ done.id = (g.insert d).1 ∧
      (s.perform (.compose index config c)).1.graphs[index]? = some (g.insert d).2 := by
  have reply : (s.perform (.compose index config c)).2.finalized? = some done := by
    rw [composed]
    rfl
  obtain ⟨place, g', draft, d, _, found', comes, -, identified, state, rfl⟩ :=
    finalizes_of_reply reply
  obtain rfl : index = place := Option.some.inj (graph?_of_draft? comes)
  obtain rfl : g = g' := Option.some.inj (found.symm.trans found')
  rw [Call.draft?, if_pos rfl] at comes
  obtain ⟨order, closure, rfl⟩ := Option.map_eq_some_iff.1 comes
  refine ⟨order, d, Except.toOption_eq_some_iff.1 closure, identified, rfl, rfl, ?_⟩
  rw [state]
  exact graph_there found _

theorem identified_of_composed (found : s.graphs[index]? = some g)
    (composed : (s.perform (.compose index config c)).2 = .composed (.ok done)) :
    ∃ order d, g.closure c.layers = .ok order ∧ g.identify (c.draft g order) = .ok d ∧
      done.out = d.out := by
  obtain ⟨order, d, closure, identified, out, -⟩ := grown_of_composed found composed
  exact ⟨order, d, closure, identified, out⟩

/-- With a name and known layers a composition is built. -/
theorem exists_composed (config : StoreConfig) (found : s.graphs[index]? = some g)
    (closure : g.closure c.layers = .ok order) (named : c.name ≠ "") :
    ∃ done, (s.perform (.compose index config c)).2 = .composed (.ok done) := by
  obtain ⟨d, identified⟩ :=
    Composition.exists_identify (c := c) named (Graph.present_of_closure closure)
  have built := Bench.compose_of_closure (b := ⟨g, s.files⟩) config closure
  rw [Bench.finalize_eq, identified] at built
  simp only [perform, found, built]
  exact ⟨_, rfl⟩

theorem hashed_compose (found : s.graphs[index]? = some g)
    (closure : g.closure c.layers = .ok order) :
    s.hashed index [.compose index config c] = g.hashed (c.draft g order) := by
  have comes : Call.draft? index g (.compose index config c) = some (c.draft g order) := by
    rw [Call.draft?, if_pos rfl, closure]
    rfl
  rw [hashed, hashed, List.append_nil, hashedBy, found]
  simp only [comes, Option.map_some, Option.getD_some]

theorem mem_hashed_of_composed {text : String} (found : s.graphs[index]? = some g)
    (closure : g.closure c.layers = .ok order) (identified : g.identify (c.draft g order) = .ok d)
    (written : d.identity.encoding = .ok text) :
    text ∈ s.hashed index [.compose index config c] := by
  rw [hashed_compose found closure, Graph.hashed_of_identify identified written]
  exact List.mem_singleton_self text

/-- Two compositions that are built, in whatever graphs of whatever runs, get one identifier exactly
if their layers resolve to the same identifiers in the same order and their options are the same.
So other roots that resolve to these identifiers make the same composition; and a layer of another
content, or in another place, makes another one. -/
theorem composite_out_eq_iff
    (kept₁ : ∀ call ∈ calls₁, ¬ call.IsHandmade) (kept₂ : ∀ call ∈ calls₂, ¬ call.IsHandmade)
    (run₁ : (start.run calls₁).1.graphs[index₁]? = some g₁)
    (run₂ : (start.run calls₂).1.graphs[index₂]? = some g₂)
    (composed₁ : ((start.run calls₁).1.perform (.compose index₁ config₁ c₁)).2 =
      .composed (.ok done₁))
    (composed₂ : ((start.run calls₂).1.perform (.compose index₂ config₂ c₂)).2 =
      .composed (.ok done₂))
    (free : CollisionFree (start.hashed index₁ (calls₁ ++ [.compose index₁ config₁ c₁]) ++
      start.hashed index₂ (calls₂ ++ [.compose index₂ config₂ c₂]))) :
    ∃ order₁ order₂, g₁.closure c₁.layers = .ok order₁ ∧ g₂.closure c₂.layers = .ok order₂ ∧
      (done₁.out = done₂.out ↔
        order₁.map g₁.out? = order₂.map g₂.out? ∧ c₁.SameOptions c₂) ∧
      (∀ roots order, g₂.closure roots = .ok order → order.map g₂.out? = order₁.map g₁.out? →
        ∀ files config, Bench.composedOut ⟨g₂, files⟩ config { c₁ with layers := roots } =
          .ok done₁.out) ∧
      (∀ (i : Nat) a b, order₁[i]? = some a → order₂[i]? = some b → ¬ g₁.SameBeneath g₂ a b →
        done₁.out ≠ done₂.out) ∧
      ∀ (i j : Nat) a b, order₁[i]? = some a → order₂[j]? = some b → g₁.SameOut g₂ a b → i ≠ j →
        done₁.out ≠ done₂.out := by
  obtain ⟨order₁, d₁, closure₁, identified₁, out₁⟩ := identified_of_composed run₁ composed₁
  obtain ⟨order₂, d₂, closure₂, identified₂, out₂⟩ := identified_of_composed run₂ composed₂
  rw [hashed_append, hashed_append] at free
  have same : done₁.out = done₂.out ↔
      order₁.map g₁.out? = order₂.map g₂.out? ∧ c₁.SameOptions c₂ := by
    rw [out₁, out₂, ← Composition.sameContent_draft_iff]
    refine Draft.out_eq_iff free identified₁ identified₂ (fun text written => ?_)
      (fun text written => ?_)
    · exact List.mem_append_left _ (List.mem_append_right _
        (mem_hashed_of_composed run₁ closure₁ identified₁ written))
    · exact List.mem_append_right _ (List.mem_append_right _
        (mem_hashed_of_composed run₂ closure₂ identified₂ written))
  refine ⟨order₁, order₂, closure₁, closure₂, same, ?_, ?_, ?_⟩
  · intro roots order closure outs files config
    let c : Composition := { c₁ with layers := roots }
    have named : c₁.name ≠ "" := (Graph.identify_eq_ok_iff.1 identified₁).name_ne
    obtain ⟨d, identified⟩ :=
      Composition.exists_identify (c := c) named (Graph.present_of_closure closure)
    have content : Draft.SameContent g₂ g₁ (c.draft g₂ order) (c₁.draft g₁ order₁) :=
      Composition.sameContent_draft_iff.2 ⟨outs, c₁.sameOptions_layers roots c₁.layers⟩
    have out : d.out = d₁.out := content.out_eq (Graph.identify_eq_ok_iff.1 identified)
      (Graph.identify_eq_ok_iff.1 identified₁)
    rw [Bench.composedOut_eq (c := c) config closure, identified, out₁, ← out]
    rfl
  · intro i a b here there apart equal
    have sameOut := Graph.sameOut_of_map_eq (same.1 equal).1 (Graph.present_of_closure closure₁)
      here there
    exact apart (Graph.sameBeneath_of_sameOut free
      ((made_of_run kept₁ run₁).mono fun _ mem =>
        List.mem_append_left _ (List.mem_append_left _ mem))
      ((made_of_run kept₂ run₂).mono fun _ mem =>
        List.mem_append_right _ (List.mem_append_left _ mem)) sameOut)
  · intro i j a b here there sameOut ne equal
    exact ne (Graph.place_eq_of_sameOut (same.1 equal).1 (Graph.nodup_outs_of_closure closure₁)
      here there sameOut)

/-- A library and a program that depends on it. -/
def stackedScript : List Call :=
  [.newGraph, .finalize 0 .disabled ⟨"lib", "1", .blank, [], none, none⟩,
    .finalize 0 .disabled ⟨"app", "1", .fetchVase ⟨"app"⟩, [⟨0, 0⟩], none, none⟩]

def stack (layers : List NodeId) : Composition :=
  { name := "stack", layers, args := some [], permissions := some (StringSet.ofList ["net"]) }

/-- The program brings its library along, however it is asked for. -/
theorem exists_graph_of_stackedScript : ∃ g, (start.run stackedScript).1.graphs[0]? = some g ∧
    g.closure [⟨0, 1⟩] = .ok [⟨0, 0⟩, ⟨0, 1⟩] ∧
    g.closure [⟨0, 0⟩, ⟨0, 1⟩, ⟨0, 0⟩] = .ok [⟨0, 0⟩, ⟨0, 1⟩] ∧
    ∀ layers, g.closure layers = .ok [⟨0, 0⟩, ⟨0, 1⟩] →
      CollisionFree (start.hashed 0 stackedScript ++
        g.hashed ((stack []).draft g [⟨0, 0⟩, ⟨0, 1⟩])) ∧
      start.hashed 0 (stackedScript ++ [.compose 0 .disabled (stack layers)]) =
        start.hashed 0 stackedScript ++ g.hashed ((stack []).draft g [⟨0, 0⟩, ⟨0, 1⟩]) := by
  have facts : ∃ g ∈ (start.run stackedScript).1.graphs[0]?,
      (g.get? ⟨0, 0⟩).map Derivation.deps = some [] ∧
      (g.get? ⟨0, 1⟩).map Derivation.deps = some [⟨0, 0⟩] ∧
      ((start.hashed 0 stackedScript ++
        g.hashed ((stack []).draft g [⟨0, 0⟩, ⟨0, 1⟩])).map Fingerprint.ofText).Nodup := by
    decide +kernel
  obtain ⟨g, found, lib, app, distinct⟩ := facts
  obtain ⟨d, lib, nothing⟩ := Option.map_eq_some_iff.1 lib
  obtain ⟨e, app, below⟩ := Option.map_eq_some_iff.1 app
  refine ⟨g, found, ?_, ?_, fun layers closure => ⟨collisionFree_of_nodup distinct, ?_⟩⟩
  · simp only [Graph.closure_eq_descendAll, Graph.descendAll_cons, Graph.descend_of_present lib,
      Graph.descend_of_present app, nothing, below]
    rfl
  · simp only [Graph.closure_eq_descendAll, Graph.descendAll_cons, Graph.descend_of_present lib,
      Graph.descend_of_present app, nothing, below]
    rfl
  · rw [hashed_append, hashed_compose found closure]
    rfl

/-- Naming the library as well, and one of them twice, makes no difference. -/
theorem composite_out_eq_of_repeated_layers : ∃ done₁ done₂,
    ((start.run stackedScript).1.perform (.compose 0 .disabled (stack [⟨0, 1⟩]))).2 =
      .composed (.ok done₁) ∧
    ((start.run stackedScript).1.perform
      (.compose 0 .disabled (stack [⟨0, 0⟩, ⟨0, 1⟩, ⟨0, 0⟩]))).2 = .composed (.ok done₂) ∧
    done₁.out = done₂.out := by
  obtain ⟨g, found, once, again, hashes⟩ := exists_graph_of_stackedScript
  have named (layers : List NodeId) : (stack layers).name ≠ "" :=
    show "stack" ≠ "" by decide
  obtain ⟨done₁, composed₁⟩ := exists_composed .disabled found once (named _)
  obtain ⟨done₂, composed₂⟩ := exists_composed .disabled found again (named _)
  have kept : ∀ call ∈ stackedScript, ¬ call.IsHandmade := by
    simp [stackedScript, Call.IsHandmade]
  have free : CollisionFree
      (start.hashed 0 (stackedScript ++ [.compose 0 .disabled (stack [⟨0, 1⟩])]) ++
        start.hashed 0
          (stackedScript ++ [.compose 0 .disabled (stack [⟨0, 0⟩, ⟨0, 1⟩, ⟨0, 0⟩])])) := by
    rw [(hashes _ once).2, (hashes _ again).2]
    exact (hashes _ once).1.mono
      (List.append_subset.2 ⟨List.Subset.refl _, List.Subset.refl _⟩)
  obtain ⟨order₁, order₂, closure₁, closure₂, same, -⟩ :=
    composite_out_eq_iff kept kept found found composed₁ composed₂ free
  have orders : order₁ = order₂ :=
    Except.ok.inj (closure₁.symm.trans (once.trans (again.symm.trans closure₂)))
  exact ⟨done₁, done₂, composed₁, composed₂,
    same.2 ⟨by rw [orders], (stack []).sameOptions_layers _ _⟩⟩

end Session

end Derivations

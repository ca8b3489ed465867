import Derivations.Proofs.Graph.Roots
import Derivations.Proofs.Json.NormalForm
import Derivations.Proofs.Recipe
import Derivations.Proofs.Session.Composed

/-!
# Calls made once more

A call that finalized something is repeated at any later time, with the keys of its content in
another order or with entries that are overridden anyway. It leads to the same node and leaves the
graphs as they are: what it looks up there was there before and has not changed. Where the recipe
was in the store, it still is, and no file is touched.
-/

namespace Derivations

/-! ## Rearranged content -/

/-- Values with the same parts on every path, so only the order of keys and the entries that are
overridden differ. -/
def Json.Rearranges (v w : Json) : Prop := ∀ path, v.look path = w.look path

theorem Json.rearranges_iff {v w : Json} : v.Rearranges w ↔ v.canonical = w.canonical := by
  constructor
  · intro h
    refine (partwise_eq.canonical_iff_look v w).2 fun path => ?_
    rw [h path]
    exact Option.rel_refl (fun _ => View.rel_eq_iff.2 rfl) _
  · intro same path
    rw [← look_canonical v, same, look_canonical]

/-- The same source, up to a rearrangement of what a file holds. -/
inductive Source.Rearranges : Source → Source → Prop
  | same (s : Source) : Rearranges s s
  | writeJson (path : String) {v w : Json} (content : v.Rearranges w) :
    Rearranges (.writeJson ⟨path, v⟩) (.writeJson ⟨path, w⟩)
  | writeToml (path : String) {v w : Json} (content : v.Rearranges w) :
    Rearranges (.writeToml ⟨path, v⟩) (.writeToml ⟨path, w⟩)

/-- The first call asks for what the second one does, with a store of its own. -/
inductive Call.Repeats : Call → Call → Prop
  | finalize (index : Nat) (config config' : StoreConfig) (draft : Draft) {src : Source}
      (content : src.Rearranges draft.src) :
    Repeats (.finalize index config' { draft with src }) (.finalize index config draft)
  | compose (index : Nat) (config config' : StoreConfig) (c : Composition) :
    Repeats (.compose index config' c) (.compose index config c)

/-- Something else changes the files. -/
def Call.ChangesFiles : Call → Prop
  | .changeFiles _ => True
  | _ => False

variable {g g' : Graph} {draft draft' : Draft} {d : Derivation} {s t : Source}
  {call again : Call} {calls : List Call} {index : Nat}

theorem Json.Rearranges.agree {v w : Json} (h : v.Rearranges w) : Json.Agree v w := by
  rw [Json.Agree, Json.rearranges_iff.1 h]
  exact Json.alike_refl _

/-! ## The same draft later -/

/-- A source is reduced to the same in a graph that keeps the nodes. -/
theorem Graph.Keeps.reduce_eq_ok (keeps : g.Keeps g') (h : g.reduce s = .ok t) :
    g'.reduce s = .ok t := by
  cases s with
  | runInBuild run =>
    obtain ⟨out, found, rfl⟩ := Graph.reduce_runInBuild.1 h
    refine Graph.reduce_runInBuild.2 ⟨out, ?_, rfl⟩
    cases build : run.build with
    | out target =>
      rw [build] at found
      exact found
    | node id =>
      rw [build] at found
      obtain ⟨d, there, same⟩ := Graph.out?_eq_some_iff.1 found
      exact Graph.out?_eq_some_iff.2 ⟨d, keeps _ _ there, same⟩
  | _ => exact h

theorem Source.Rearranges.alikeIn {r : Source} (h : s.Rearranges t) (keeps : g.Keeps g')
    (reduced : g.reduce t = .ok r) : s.AlikeIn g' g t := by
  cases h with
  | same =>
    exact (Source.alike_reduce_iff (keeps.reduce_eq_ok reduced) reduced).1 (Source.alike_refl r)
  | writeJson path content => exact ⟨rfl, content.agree⟩
  | writeToml path content => exact ⟨rfl, content.agree⟩

/-- A call that is repeated where all nodes were kept comes to a draft of the same content. -/
theorem Call.Repeats.draft? (h : again.Repeats call) (comes : call.draft? index g = some draft)
    (identified : g.identify draft = .ok d) (keeps : g.Keeps g') :
    ∃ draft', again.draft? index g' = some draft' ∧ draft'.SameContent g' g draft := by
  have drafted := Graph.identify_eq_ok_iff.1 identified
  have deps : draft.deps.map g'.out? = draft.deps.map g.out? := by
    rw [drafted.dependencies, keeps.map_out?_eq drafted.dependencies]
  cases h with
  | @finalize place config config' original src content =>
    rw [Call.draft?] at comes ⊢
    split at comes
    · rename_i here
      cases comes
      refine ⟨{ draft with src }, if_pos here, rfl, rfl, rfl, rfl, deps, ?_⟩
      exact content.alikeIn keeps drafted.src
    · cases comes
  | compose place config config' c =>
    rw [Call.draft?] at comes ⊢
    split at comes
    · rename_i here
      obtain ⟨order, closure, rfl⟩ := Option.map_eq_some_iff.1 comes
      rw [Except.toOption_eq_some_iff] at closure
      refine ⟨c.draft g' order, ?_, Composition.sameContent_draft_iff.2 ⟨deps, ?_⟩⟩
      · rw [if_pos here, keeps.closure_eq_ok closure]
        rfl
      · exact c.sameOptions_layers c.layers c.layers
    · cases comes

namespace Session

variable {s : Session} {done : Finalized}

/-! ## Files -/

/-- Only others take something away from the files. -/
theorem retains_perform (kept : ¬ call.ChangesFiles) :
    s.files.Retains (s.perform call).1.files := by
  cases s.does call with
  | opens asked =>
    subst asked
    exact .refl _
  | changes files asked =>
    subst asked
    exact absurd trivial kept
  | inserts _ _ performed =>
    rw [performed]
    exact .refl _
  | finalizes _ _ _ _ state _ =>
    rw [state]
    exact Store.retains_persist _ _ _
  | fails _ _ state _ =>
    rw [state]
    exact .refl _

theorem retains_run (kept : ∀ call ∈ calls, ¬ call.ChangesFiles) :
    s.files.Retains (s.run calls).1.files := by
  induction calls generalizing s with
  | nil => exact .refl _
  | cons call calls ih =>
    rw [List.forall_mem_cons] at kept
    exact (retains_perform kept.1).trans (ih kept.2)

/-- A recipe that was said to be in the store is there until others change the files. -/
theorem occupied_of_reply (reply : (s.perform call).2.finalized? = some done) {path : String}
    (said : done.recipe.path? = some path) (left : ∀ other ∈ calls, ¬ other.ChangesFiles) :
    ∃ config directory, call.config? = some config ∧ config.directory = some directory ∧
      path = Store.recipePath directory done.out ∧
      ((s.perform call).1.run calls).1.files.occupied path = true := by
  obtain ⟨index, g, draft, d, config, -, -, stores, -, state, rfl⟩ := finalizes_of_reply reply
  obtain ⟨directory, enabled, same, occupied⟩ := Store.occupied_of_persist said
  refine ⟨config, directory, stores, enabled, same, (retains_run left).occupied ?_⟩
  rw [state]
  exact occupied

/-! ## Once more -/

/-- A call repeated where its node is kept finalizes that node and changes no graph. -/
theorem finalizes_of_repeats (comes : call.draft? index g = some draft)
    (identified : g.identify draft = .ok d) (repeats : again.Repeats call)
    (found : s.graphs[index]? = some g') (keeps : (g.insert d).2.Keeps g') :
    ∃ config d', again.config? = some config ∧ s.identifies? again = some d' ∧ d'.out = d.out ∧
      d'.recipe.text = d.recipe.text ∧
      (s.perform again).1 = ⟨s.graphs, (config.persist d' s.files).1⟩ ∧
      (s.perform again).2.finalized? =
        some ⟨(g.insert d).1, d.out, (config.persist d' s.files).2⟩ := by
  obtain ⟨draft', comes', content⟩ :=
    repeats.draft? comes identified ((g.keeps_insert d).trans keeps)
  obtain ⟨d', identified', out, put⟩ := content.again identified keeps
  obtain ⟨config, stores, state, reply⟩ := finalizes_of_identified found comes' identified'
  rw [put] at state reply
  rw [out] at reply
  rw [setBench, set_self found] at state
  refine ⟨config, d', stores, ?_, out, ?_, state, reply⟩
  · exact identifies?_eq_some_iff.2 ⟨index, g', draft', found, comes', identified'⟩
  · have drafted := Graph.identify_eq_ok_iff.1 identified
    have drafted' := Graph.identify_eq_ok_iff.1 identified'
    exact Derivation.recipeText_eq (Graph.isReduced_of_reduce drafted'.src)
      (Graph.isReduced_of_reduce drafted.src) out
      ((Draft.alike_identity_iff drafted' drafted).2 content)

/-- A node that was put in is still there after any other calls, and its graph has kept all it
had. -/
theorem Tagged.exists_keeps (tagged : s.Tagged) (found : s.graphs[index]? = some g)
    {id : NodeId} (node : g.get? id = some d) (calls : List Call) :
    ∃ g', (s.run calls).1.graphs[index]? = some g' ∧ g.Keeps g' ∧ (s.run calls).1.Holds id d := by
  have place : id.graph = index := (Graph.get?_eq_some_iff.1 node).1.trans (tagged index g found)
  obtain ⟨g', there, node'⟩ : (s.run calls).1.Holds id d :=
    Holds.run ⟨g, place ▸ found, node⟩ calls
  have later : (s.run calls).1.graphs[index]? = some g' := place ▸ there
  exact ⟨g', later, tagged.keeps found later, g', there, node'⟩

/-- Of derivations that were all identified, a node has the recipe of what was put in there. -/
theorem recipeText_of_insert {n : Derivation}
    (kept : ∀ other ∈ calls, ¬ other.IsHandmade)
    (found : (start.run calls).1.graphs[index]? = some g)
    (comes : call.draft? index g = some draft) (identified : g.identify draft = .ok d)
    (node : (g.insert d).2.get? (g.insert d).1 = some n)
    (free : CollisionFree (start.hashed index (calls ++ [call]))) :
    ∃ text, n.recipe.text = .ok text ∧ d.recipe.text = .ok text := by
  rw [hashed_append] at free
  obtain ⟨grown, e, there, out, content⟩ := Graph.Made.insert_alike
    ((made_of_run kept found).mono (List.subset_append_left _ _)) free identified
    fun text written => List.mem_append_right _ (List.mem_append_left _
      (mem_hashedBy found comes identified written))
  obtain rfl : n = e := Option.some.inj (node.symm.trans there)
  have reduced := Graph.isReduced_of_reduce (Graph.identify_eq_ok_iff.1 identified).src
  have same := Derivation.recipeText_eq (grown.wellMade node).reduced reduced out content
  have spelled := Recipe.text_eq (r := d.recipe) reduced
  exact ⟨_, same.trans spelled, spelled⟩

/-- A call that has finalized something and is repeated after any other calls, with whatever store,
finalizes the same node and changes no graph. Of derivations that were all identified, the node has
the recipe of what is finalized again. And if the store is the same and had the recipe, it has it
still, unless others have changed the files, and nothing changes at all. -/
theorem repeats_of_run (reply : ((start.run calls).1.perform call).2.finalized? = some done)
    (repeats : again.Repeats call) (more : List Call) :
    let s := (start.run (calls ++ call :: more)).1
    ∃ recipe,
      (s.perform again).2.finalized? = some ⟨done.id, done.out, recipe⟩ ∧
      (s.perform again).1.graphs = s.graphs ∧
      ((∀ other ∈ calls, ¬ other.IsHandmade) →
        CollisionFree (start.hashed done.id.graph (calls ++ [call])) →
        ∃ n d text, s.Holds done.id n ∧ s.identifies? again = some d ∧ d.out = done.out ∧
          n.recipe.text = .ok text ∧ d.recipe.text = .ok text) ∧
      ((∀ other ∈ more, ¬ other.ChangesFiles) → again.config? = call.config? →
        ∀ path, done.recipe.path? = some path →
          recipe = .alreadyPresent path ∧ (s.perform again).1 = s) := by
  intro s
  have later : s = (((start.run calls).1.perform call).1.run more).1 := run_append_cons _ _ _ _
  obtain ⟨index, g, draft, d, config, found, comes, stores, identified, state, rfl⟩ :=
    finalizes_of_reply reply
  have tagged : ((start.run calls).1.perform call).1.Tagged := (tagged_start.run calls).perform call
  have grown : ((start.run calls).1.perform call).1.graphs[index]? = some (g.insert d).2 := by
    rw [state]
    exact graph_there found _
  obtain ⟨n, node, -⟩ := g.get?_insert d
  have place : (g.insert d).1.graph = index :=
    (Graph.get?_eq_some_iff.1 node).1.trans (tagged index _ grown)
  obtain ⟨g', found', keeps, holds⟩ := tagged.exists_keeps grown node more
  rw [← later] at found' holds
  obtain ⟨config', d', stores', identifies, out, recipe, state', reply'⟩ :=
    finalizes_of_repeats comes identified repeats found' keeps
  refine ⟨(config'.persist d' s.files).2, reply', by rw [state'], fun kept free => ?_,
    fun left same path said => ?_⟩
  · rw [place] at free
    obtain ⟨text, old, new⟩ := recipeText_of_insert kept found comes identified node free
    exact ⟨n, d', text, holds, identifies, out, old, recipe.trans new⟩
  · obtain ⟨config, directory, stores, enabled, rfl, occupied⟩ :=
      occupied_of_reply reply said left
    obtain rfl : config' = config := Option.some.inj (stores'.symm.trans (same.trans stores))
    rw [← later, ← out] at occupied
    rw [state', Store.persist_of_occupied enabled occupied, out]
    exact ⟨rfl, rfl⟩

/-- The settings of a program. -/
def settings (content : Json) : Draft :=
  { name := "settings", version := "1", src := .writeJson ⟨"p", content⟩, deps := [⟨0, 0⟩] }

/-- Another program, stored elsewhere, does not keep settings from being found again, with their
keys in another order and one of them overridden. -/
theorem repeats_of_settings :
    let program (name : String) : Call :=
      .finalize 0 (.inDirectory "t") ⟨name, "1", .fetchVase ⟨name⟩, [], none, none⟩
    let store (content : Json) : Call := .finalize 0 (.inDirectory "s") (settings content)
    let calls : List Call := [.newGraph, program "app"]
    let call := store (.object [("b", .null), ("a", .bool true)])
    let again := store (.object [("a", .null), ("a", .bool true), ("b", .null)])
    let s := (start.run (calls ++ [call, program "tool"])).1
    ∃ done path n d text,
      ((start.run calls).1.perform call).2.finalized? = some done ∧
      (s.perform again).2.finalized? = some ⟨done.id, done.out, .alreadyPresent path⟩ ∧
      (s.perform again).1 = s ∧ s.Holds done.id n ∧ s.identifies? again = some d ∧
      n.recipe.text = .ok text ∧ d.recipe.text = .ok text := by
  intro program store calls call again s
  have facts : ∃ done ∈ ((start.run calls).1.perform call).2.finalized?,
      done.id.graph = 0 ∧ done.recipe.path?.isSome ∧
      ((start.hashed 0 (calls ++ [call])).map Fingerprint.ofText).Nodup := by
    decide +kernel
  obtain ⟨done, reply, place, stored, distinct⟩ := facts
  obtain ⟨path, said⟩ := Option.isSome_iff_exists.1 stored
  have repeats : again.Repeats call :=
    .finalize 0 _ _ (settings _) (.writeJson "p" (Json.rearranges_iff.2 (by rfl)))
  obtain ⟨recipe, reply', -, node, still⟩ := repeats_of_run reply repeats [program "tool"]
  obtain ⟨n, d, text, holds, identifies, -, old, new⟩ :=
    node (by simp [calls, program, Call.IsHandmade]) (place ▸ collisionFree_of_nodup distinct)
  obtain ⟨rfl, same⟩ := still (by simp [program, Call.ChangesFiles]) rfl path said
  exact ⟨done, path, n, d, text, reply, reply', same, holds, identifies, old, new⟩

end Session

end Derivations

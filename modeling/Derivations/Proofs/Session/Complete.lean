import Derivations.Proofs.Session.Contents
import Derivations.Proofs.Store.Missing
import Derivations.Proofs.Store.ReadBack

/-!
# A store is complete

Whatever a run finalizes refers to identifiers that it returned before: those of nodes, and those
written by hand, if they are. So as long as every recipe gets its file, each file refers only to
identifiers that have one, and nothing that can be reached from a returned identifier is missing.
-/

namespace Derivations

/-! ## Reading a shelf -/

namespace Store

variable {directory : String} {shelf : List Derivation} {files : FileTree} {d : Derivation}

/-- A recipe on the shelf is read from its file. -/
theorem Shelved.read (h : Shelved directory shelf files) (mem : d ∈ shelf)
    (readable : d.recipe.IsReadable) : read directory d.out files = .ok d.recipe.canonical := by
  obtain ⟨text, spelled, leads, there⟩ := h.file d mem
  exact read_of_text d.recipe (FileTree.readText_of_file leads there) readable spelled

/-- A shelf is complete if what is on it can be read and refers to nothing that is not on it. -/
theorem Shelved.complete (h : Shelved directory shelf files)
    (readable : ∀ d ∈ shelf, d.recipe.IsReadable)
    (closed : ∀ d ∈ shelf, ∀ ref ∈ d.recipe.references, ∃ e ∈ shelf, e.out = ref) :
    Complete directory files fun out => ∃ d ∈ shelf, d.out = out := by
  rintro out ⟨d, mem, rfl⟩
  refine ⟨h.occupied_of_mem mem, _, h.read mem (readable d mem), ?_⟩
  rw [Recipe.references_canonical]
  exact closed d mem

end Store

/-! ## What derivations refer to -/

/-- The identifiers written by hand into the source of a call. -/
def Call.references : Call → List OutId
  | .finalize _ _ draft => draft.src.references
  | _ => []

/-- The value given to a call as the content of a file. -/
def Call.content? : Call → Option Json
  | .finalize _ _ draft => draft.src.content?
  | _ => none

namespace Graph

variable {g : Graph} {s t : Source}

theorem content?_of_reduce (h : g.reduce s = .ok t) : t.content? = s.content? := by
  cases s with
  | runInBuild run =>
    obtain ⟨out, -, rfl⟩ := reduce_runInBuild.1 h
    rfl
  | _ =>
    cases h
    rfl

/-- A source that is reduced refers to what it referred to, and to a node in the graph. -/
theorem references_of_reduce (h : g.reduce s = .ok t) {ref : OutId} (mem : ref ∈ t.references) :
    ref ∈ s.references ∨ ∃ id, g.out? id = some ref := by
  cases s with
  | runInBuild run =>
    obtain ⟨out, found, rfl⟩ := reduce_runInBuild.1 h
    obtain rfl := List.mem_singleton.1 mem
    obtain ⟨build, command, outputs⟩ := run
    cases build with
    | node id => exact .inr ⟨id, found⟩
    | out target =>
      cases found
      exact .inl (List.mem_singleton_self _)
  | _ =>
    cases h
    exact .inl mem

end Graph

namespace Session

variable {s : Session} {calls : List Call} {call : Call} {directory : String} {files : FileTree}
  {g : Graph} {d : Derivation} {draft : Draft} {index : Nat} {ref : OutId}

/-- The draft that a call comes to refers to what is written by hand and to nodes of the graph. -/
theorem references_of_draft? (comes : call.draft? index g = some draft)
    (mem : ref ∈ draft.src.references) : ref ∈ call.references ∨ ∃ id, g.out? id = some ref := by
  rcases cases_of_draft? comes with ⟨config, rfl⟩ | ⟨config, c, layers, rfl, rfl⟩
  · exact .inl mem
  · obtain ⟨e, node, rfl⟩ := List.mem_map.1 mem
    obtain ⟨id, -, found⟩ := List.mem_filterMap.1 node
    exact .inr ⟨id, Graph.out?_eq_some_iff.2 ⟨e, found, rfl⟩⟩

theorem content?_of_draft? (comes : call.draft? index g = some draft) {v : Json}
    (mem : v ∈ draft.src.content?) : v ∈ call.content? := by
  rcases cases_of_draft? comes with ⟨config, rfl⟩ | ⟨config, c, layers, rfl, rfl⟩
  · exact mem
  · exact absurd mem (Option.not_mem_none v)

/-- What a derivation refers to is written by hand in the call or a node of the graph. -/
theorem references_of_identify (comes : call.draft? index g = some draft)
    (identified : g.identify draft = .ok d) (mem : ref ∈ d.recipe.references) :
    ref ∈ call.references ∨ ∃ id, g.out? id = some ref := by
  have identified := Graph.identify_eq_ok_iff.1 identified
  rcases List.mem_append.1 mem with dependency | source
  · obtain ⟨id, -, there⟩ := Graph.exists_id_of_mem identified.dependencies dependency
    exact .inr ⟨id, there⟩
  · rcases Graph.references_of_reduce identified.src source with written | node
    · exact references_of_draft? comes written
    · exact .inr node

/-! ## Nodes -/

/-- All nodes of all graphs have such identifiers. -/
def NodesHave (s : Session) (P : OutId → Prop) : Prop :=
  ∀ (index : Nat) (g : Graph) (id : NodeId) (d : Derivation),
    s.graphs[index]? = some g → g.get? id = some d → P d.out

variable {P : OutId → Prop}

/-- A node of a graph after a call was there before, or the call returned its identifier. -/
theorem NodesHave.perform (h : s.NodesHave P) (stores : call.StoresIn directory)
    (returned : ∀ done ∈ (s.perform call).2.finalized?, P done.out) :
    (s.perform call).1.NodesHave P := by
  intro index g id d found node
  rcases graph_perform stores.not_isHandmade found with
    same | ⟨-, rfl⟩ | ⟨g, draft, new, there, comes, identified, rfl⟩
  · exact h index g id d same node
  · obtain ⟨within, -⟩ := Graph.getElem_index node
    exact absurd within (Nat.not_lt_zero _)
  · rcases Graph.insert_cases g new with ⟨_, _, -, -, same⟩ | ⟨free, grown⟩
    · rw [same] at node
      exact h index g id d there node
    · rw [grown] at node
      dsimp only at node
      rw [Graph.get?_push] at node
      split at node
      · cases node
        have mine := identifies?_eq_some_iff.2 ⟨index, g, draft, there, comes, identified⟩
        cases effect (s := s) stores with
        | nothing unidentified =>
          rw [mine] at unidentified
          nomatch unidentified
        | stores id' identified' stores' reply files =>
          rw [mine] at identified'
          cases identified'
          exact returned _ reply
      · exact h index g id d there node

theorem NodesHave.run (h : s.NodesHave P) (stores : ∀ call ∈ calls, call.StoresIn directory)
    (returned : ∀ done ∈ s.returned calls, P done.out) : (s.run calls).1.NodesHave P := by
  induction calls generalizing s with
  | nil => exact h
  | cons call calls ih =>
    rw [List.forall_mem_cons] at stores
    rw [returned_cons, List.forall_mem_append] at returned
    refine ih (h.perform stores.1 fun done mem => ?_) stores.2 returned.2
    exact returned.1 done (Option.mem_toList.2 mem)

/-- The identifier of every node has been returned. -/
theorem returned_of_node (stores : ∀ call ∈ calls, call.StoresIn directory) {id : NodeId}
    (found : ((among files).run calls).1.graphs[index]? = some g) (node : g.out? id = some ref) :
    ∃ done ∈ (among files).returned calls, done.out = ref := by
  have start : (among files).NodesHave
      fun out => ∃ done ∈ (among files).returned calls, done.out = out := by
    intro index g id d absent
    rw [among, Array.getElem?_empty] at absent
    nomatch absent
  obtain ⟨d, there, rfl⟩ := Graph.out?_eq_some_iff.1 node
  exact start.run stores (fun done mem => ⟨done, mem, rfl⟩) index g id d found there

/-! ## Runs -/

section Run

variable (storing : Storing directory files calls)
  (kept : ∀ done ∈ (among files).returned calls, done.recipe.path?.isSome)
  (shallow : ∀ call ∈ calls, ∀ v ∈ call.content?, v.depth ≤ Recipe.maxContent)
  (earlier : ∀ before call after, calls = before ++ call :: after →
    ∀ ref ∈ call.references, ∃ done ∈ (among files).returned before, done.out = ref)

include storing kept

/-- What is returned is on the shelf. -/
theorem mem_shelf_of_returned {before : List Call} (part : before <+: calls) {done : Finalized}
    (mem : done ∈ (among files).returned before) :
    ∃ d ∈ (among files).shelf calls, d.out = done.out := by
  obtain ⟨after, rfl⟩ := part
  have returned : done ∈ (among files).returned (before ++ after) := by
    rw [returned_append]
    exact List.mem_append_left _ mem
  have start : Store.Shelved directory [] (among files).files := storing.vacant.shelved
  exact (shelved_run storing.apart storing.calls start).2.2 done returned (kept done returned)

include earlier

/-- What is identified refers to what is on the shelf. -/
theorem mem_shelf_of_reference (mem : d ∈ (among files).identified calls)
    (refers : ref ∈ d.recipe.references) : ∃ e ∈ (among files).shelf calls, e.out = ref := by
  obtain ⟨before, call, after, whole, here⟩ := mem_identified_iff.1 mem
  obtain ⟨index, g, draft, found, comes, identified⟩ := identifies?_eq_some_iff.1 here
  have part : before <+: calls := ⟨call :: after, whole.symm⟩
  have returned : ∃ done ∈ (among files).returned before, done.out = ref := by
    rcases references_of_identify comes identified refers with written | ⟨id, node⟩
    · exact earlier before call after whole ref written
    · exact returned_of_node (fun call mem => storing.calls call (part.subset mem)) found node
  obtain ⟨done, mem, rfl⟩ := returned
  exact mem_shelf_of_returned storing kept part mem

include shallow

/-- The recipe of what is identified can be read. -/
theorem isReadable_of_identified (mem : d ∈ (among files).identified calls) :
    d.recipe.IsReadable where
  reduced := (encoding_of_identified mem).1
  out := by
    obtain ⟨before, call, after, -, here⟩ := mem_identified_iff.1 mem
    exact isWellFormed_of_identifies? here
  references ref refers := by
    obtain ⟨e, there, rfl⟩ := mem_shelf_of_reference storing kept earlier mem refers
    obtain ⟨before, call, after, -, here⟩ :=
      mem_identified_iff.1 (shelf_subset_identified _ _ there)
    exact isWellFormed_of_identifies? here
  content v mem' := by
    obtain ⟨before, call, after, rfl, here⟩ := mem_identified_iff.1 mem
    obtain ⟨index, g, draft, -, comes, identified⟩ := identifies?_eq_some_iff.1 here
    have content := Graph.content?_of_reduce (Graph.identify_eq_ok_iff.1 identified).src
    exact shallow call (by simp) v (content?_of_draft? comes (content ▸ mem'))

theorem complete_of_run : Store.Complete directory ((among files).run calls).1.files
    fun out => ∃ d ∈ (among files).shelf calls, d.out = out := by
  refine storing.shelved.complete (fun d mem => ?_) fun d mem ref refers => ?_
  · exact isReadable_of_identified storing kept shallow earlier (shelf_subset_identified _ _ mem)
  · exact mem_shelf_of_reference storing kept earlier (shelf_subset_identified _ _ mem) refers

end Run

/-- If every recipe of a run gets its file, then nothing is missing beneath an identifier that the
run returned: whatever can be reached from it by references has a recipe of its own that can be
read. -/
theorem missing_of_run (storing : Storing directory files calls)
    (kept : ∀ done ∈ (among files).returned calls, done.recipe.path?.isSome)
    (shallow : ∀ call ∈ calls, ∀ v ∈ call.content?, v.depth ≤ 125)
    (earlier : ∀ before call after, calls = before ++ call :: after →
      ∀ ref ∈ call.references, ∃ done ∈ (among files).returned before, done.out = ref) :
    ∀ done ∈ (among files).returned calls,
      Store.missing directory done.out ((among files).run calls).1.files = .ok [] ∧
      ∀ out, Relation.ReflTransGen (Store.Refers directory ((among files).run calls).1.files)
          done.out out →
        ∃ recipe, Store.read directory out ((among files).run calls).1.files = .ok recipe ∧
          recipe.out = out := by
  intro done mem
  have complete := complete_of_run storing kept shallow earlier
  have there := mem_shelf_of_returned storing kept (List.prefix_refl calls) mem
  refine ⟨Store.missing_of_complete complete there, fun out reaches => ?_⟩
  obtain ⟨d, onShelf, rfl⟩ := complete.of_reaches there reaches
  exact ⟨d.recipe.canonical, storing.shelved.read onShelf
    (isReadable_of_identified storing kept shallow earlier (shelf_subset_identified _ _ onShelf)),
    rfl⟩

/-- A file, a command run in it from another graph, and a derivation that depends on the result. -/
def chainScript : List Call :=
  [.newGraph, .newGraph,
    .finalize 0 (.inDirectory "recipes")
      ⟨"b", "1", .writeJson ⟨"f", .array [.object []]⟩, [], none, none⟩,
    .finalize 1 (.inDirectory "recipes")
      ⟨"c", "1", .runInBuild ⟨.out ⟨"78cf0b9aa9b8e57fca324f5aab7881b8-b-1"⟩,
        ⟨"make", none, none⟩, []⟩, [], none, none⟩,
    .finalize 1 (.inDirectory "recipes") ⟨"app", "1", .blank, [⟨1, 0⟩], none, none⟩]

theorem missing_of_chainScript : ∃ done ∈ (among .empty).returned chainScript,
    done.id = ⟨1, 1⟩ ∧
    Store.missing "recipes" done.out ((among .empty).run chainScript).1.files = .ok [] := by
  have storing : Storing "recipes" .empty chainScript :=
    ⟨by simp [chainScript, Call.StoresIn, StoreConfig.StoresIn, StoreConfig.inDirectory],
      Store.apart_of_no_dots (by decide), Store.vacant_empty _⟩
  have facts : (∀ done ∈ (among .empty).returned chainScript, done.recipe.path?.isSome) ∧
      (∃ done ∈ (among .empty).returned (chainScript.take 3),
        done.out = ⟨"78cf0b9aa9b8e57fca324f5aab7881b8-b-1"⟩) ∧
      ∃ done ∈ (among .empty).returned chainScript, done.id = ⟨1, 1⟩ := by
    decide +kernel
  obtain ⟨kept, returned, done, mem, id⟩ := facts
  have shallow : ∀ call ∈ chainScript, ∀ v ∈ call.content?, v.depth ≤ 125 := by
    simp [chainScript, Call.content?, Source.content?, Json.depth, Json.depthItems,
      Json.depthEntries]
  have earlier : ∀ before call after, chainScript = before ++ call :: after →
      ∀ ref ∈ call.references, ∃ done ∈ (among .empty).returned before, done.out = ref := by
    intro before call after whole
    have here : chainScript[before.length]? = some call := by rw [whole]; simp
    have before_eq : before = chainScript.take before.length := by rw [whole]; simp
    rw [before_eq]
    generalize before.length = n at here ⊢
    -- only the fourth call has a reference that is written by hand
    rcases n with _ | _ | _ | _ | _ | n <;> cases here
    · exact List.forall_mem_nil _
    · exact List.forall_mem_nil _
    · exact List.forall_mem_nil _
    · exact List.forall_mem_singleton.2 returned
    · exact List.forall_mem_nil _
  exact ⟨done, mem, id, (missing_of_run storing kept shallow earlier done mem).1⟩

/-- A directory whose path leads through an entry of it with the name of a recipe. -/
def hollowStore : String := "s/3873e4173a0714d77cf31bc7b1375fea-c-1.json/.."

/-- The first derivation makes that entry a directory, so the recipe of the second seems to be
there. -/
def hollowScript : List Call :=
  [.newGraph, .finalize 0 (.inDirectory hollowStore) ⟨"b", "1", .blank, [], none, none⟩,
    .finalize 0 (.inDirectory hollowStore) ⟨"c", "1", .blank, [], none, none⟩]

/-- With such a path a recipe can be taken to be there that is not. -/
theorem unreadable_of_hollowScript :
    (∀ call ∈ hollowScript, call.StoresIn hollowStore) ∧ Store.Vacant hollowStore .empty ∧
    (∀ done ∈ (among .empty).returned hollowScript, done.recipe.path?.isSome) ∧
    (∀ call ∈ hollowScript, call.content? = none ∧ call.references = []) ∧
    ∃ done ∈ (among .empty).returned hollowScript,
      Store.missing hollowStore done.out ((among .empty).run hollowScript).1.files ≠ .ok [] := by
  have facts : (∀ done ∈ (among .empty).returned hollowScript, done.recipe.path?.isSome) ∧
      ∃ done ∈ (among .empty).returned hollowScript,
        ((among .empty).run hollowScript).1.files.occupied
          (Store.recipePath hollowStore done.out) = true ∧
        (((among .empty).run hollowScript).1.files.readText
          (Store.recipePath hollowStore done.out)).toOption = none := by
    decide +kernel
  obtain ⟨kept, done, mem, occupied, unread⟩ := facts
  refine ⟨by simp [hollowScript, Call.StoresIn, StoreConfig.StoresIn, StoreConfig.inDirectory],
    Store.vacant_empty _, kept,
    by simp [hollowScript, Call.content?, Source.content?, Call.references, Source.references],
    done, mem, ?_⟩
  cases found : ((among .empty).run hollowScript).1.files.readText
      (Store.recipePath hollowStore done.out) with
  | ok text => simp [found, Except.toOption] at unread
  | error kind =>
    have failed : Store.read hollowStore done.out ((among .empty).run hollowScript).1.files =
        .error (.io (Store.recipePath hollowStore done.out) kind) := by
      delta Store.read
      rw [found]
    simp [Store.missing_of_unreadable occupied failed]

end Session

end Derivations

import Derivations.Proofs.Identity.Merkle
import Derivations.Proofs.Recipe
import Derivations.Proofs.Session.Stored

/-!
# The store is addressed by content

A recipe that is there already is not looked at again. That is sound, because derivations of one
identifier have one recipe: unless two texts that were hashed share a fingerprint, the file of an
identifier is the recipe of every derivation with it. What the files are is then settled by which
identifiers were written, in whatever order and by whichever calls.

All this is about a directory whose path does not lead through an entry of the directory itself
that is named like a recipe. A path like that makes the entry a directory, so it takes the place
of a recipe, or lets a name with slashes in it lead to the file of another.
-/

namespace Derivations

namespace Store

/-- The content of a file below a directory. -/
def fileBelow (directory : String) (files : FileTree) (below : List String) : Option ByteArray :=
  match files.find? (home directory ++ below) with
  | some (.file content) => some content
  | _ => none

variable {directory name : String} {rest : List String} {files : FileTree}
  {shelf : List Derivation}

theorem fileBelow_eq_some_iff {below : List String} {content : ByteArray} :
    fileBelow directory files below = some content ↔
      files.find? (home directory ++ below) = some (.file content) := by
  rw [fileBelow]
  split
  · rename_i other found
    rw [found]
    simp
  · rename_i other
    simp only [reduceCtorEq, false_iff]
    exact other content

/-- The files below a directory are the recipes on the shelf. -/
theorem Shelved.fileBelow_eq_some_iff (h : Shelved directory shelf files) (below : name ≠ "..")
    {content : ByteArray} : fileBelow directory files (name :: rest) = some content ↔
      ∃ d ∈ shelf, name :: rest = [d.out.text ++ ".json"] ∧
        ∃ text, d.recipe.text = .ok text ∧ content = text.toUTF8 := by
  rw [Store.fileBelow_eq_some_iff]
  constructor
  · intro found
    rcases h.only name rest _ below found with ⟨directory, -⟩ | ⟨d, mem, here⟩
    · nomatch directory
    · obtain ⟨text, spelled, -, there⟩ := h.file d mem
      rw [here, there] at found
      cases found
      exact ⟨d, mem, List.append_cancel_left here, text, spelled, rfl⟩
  · rintro ⟨d, mem, here, text, spelled, rfl⟩
    obtain ⟨text', spelled', -, there⟩ := h.file d mem
    rw [spelled] at spelled'
    cases spelled'
    rw [here]
    exact there

end Store

namespace Session

/-- The texts that calls hash, for whatever graph. -/
def encodings (s : Session) (calls : List Call) : List String :=
  (s.identified calls).filterMap fun d => d.identity.encoding.toOption

/-- Calls that are left alone with a store directory that starts out empty, if it is there at all,
and whose path does not lead through the recipes in it. -/
structure Storing (directory : String) (files : FileTree) (calls : List Call) : Prop where
  calls : ∀ call ∈ calls, call.StoresIn directory
  apart : Store.Apart directory
  vacant : Store.Vacant directory files

variable {s s' : Session} {calls calls' : List Call} {d e : Derivation} {directory : String}
  {files : FileTree}

theorem encoding_of_identified (mem : d ∈ s.identified calls) : d.src.IsReduced ∧
    ∃ text ∈ s.encodings calls, d.identity.encoding = .ok text ∧
      d.out = .of (.ofText text) d.name d.version := by
  obtain ⟨before, call, after, -, here⟩ := mem_identified_iff.1 mem
  obtain ⟨index, g, draft, -, -, identified⟩ := identifies?_eq_some_iff.1 here
  have identified := Graph.identify_eq_ok_iff.1 identified
  obtain ⟨text, written, out⟩ := identified.out
  exact ⟨Graph.isReduced_of_reduce identified.src, text,
    List.mem_filterMap.2 ⟨d, mem, by rw [written]; rfl⟩, written, out⟩

/-- One identifier, one recipe, also in different runs. -/
theorem recipeText_of_identified
    (free : CollisionFree (s.encodings calls ++ s'.encodings calls'))
    (hd : d ∈ s.identified calls) (he : e ∈ s'.identified calls') (same : d.out = e.out) :
    d.recipe.text = e.recipe.text := by
  obtain ⟨reducedD, text, mem, written, outD⟩ := encoding_of_identified hd
  obtain ⟨reducedE, text', mem', written', outE⟩ := encoding_of_identified he
  have one : text = text' := by
    refine free _ (List.mem_append_left _ mem) _ (List.mem_append_right _ mem') ?_
    exact OutId.fingerprint_eq_of_of_eq (outD ▸ outE ▸ same)
  have content := (Identity.encoding_eq_iff reducedD reducedE written written').1 one
  exact Derivation.recipeText_eq reducedD reducedE same content

theorem Storing.shelved (h : Storing directory files calls) :
    Store.Shelved directory ((among files).shelf calls) ((among files).run calls).1.files := by
  have start : Store.Shelved directory [] (among files).files := h.vacant.shelved
  exact (shelved_run h.apart h.calls start).2.1

theorem Storing.of_append {before after : List Call}
    (h : Storing directory files (before ++ after)) : Storing directory files before :=
  ⟨fun call mem => h.calls call (List.mem_append_left _ mem), h.apart, h.vacant⟩

theorem Storing.grows {before after : List Call} (h : Storing directory files (before ++ after)) :
    ((among files).run before).1.files.Grows ((among files).run (before ++ after)).1.files := by
  rw [run_append]
  exact (shelved_run h.apart (fun call mem => h.calls call (List.mem_append_right _ mem))
    h.of_append.shelved).1

/-- A file in the directory is the recipe of every derivation that the run identifies with its
name, also of those identified later. -/
theorem Storing.recipe_of_fileBelow {before after : List Call} {name : String}
    {rest : List String} {content : ByteArray} (h : Storing directory files (before ++ after))
    (free : CollisionFree ((among files).encodings (before ++ after))) (below : name ≠ "..")
    (found : Store.fileBelow directory ((among files).run before).1.files (name :: rest) =
      some content) :
    ∃ done ∈ (among files).returned before, name :: rest = [done.out.text ++ ".json"] ∧
      ∀ d ∈ (among files).identified (before ++ after), d.out = done.out →
        ∃ text, d.recipe.text = .ok text ∧ content = text.toUTF8 := by
  obtain ⟨d, mem, here, text, spelled, rfl⟩ :=
    (h.of_append.shelved.fileBelow_eq_some_iff below).1 found
  obtain ⟨done, returned, same⟩ := exists_returned_of_mem_shelf h.of_append.calls mem
  have identified : d ∈ (among files).identified (before ++ after) := by
    rw [identified_append]
    exact List.mem_append_left _ (shelf_subset_identified _ _ mem)
  refine ⟨done, returned, same ▸ here, fun e mem' same' => ⟨text, ?_, rfl⟩⟩
  rw [← spelled]
  refine recipeText_of_identified ?_ mem' identified (same'.trans same)
  exact free.mono (List.append_subset.2 ⟨List.Subset.refl _, List.Subset.refl _⟩)

/-- A file that one run leaves is left by any other that writes its identifier. -/
theorem Storing.fileBelow_of_written {directory' : String} {files' : FileTree} {name : String}
    {rest : List String} {content : ByteArray} (h : Storing directory files calls)
    (h' : Storing directory' files' calls')
    (free : CollisionFree ((among files).encodings calls ++ (among files').encodings calls'))
    (written : ∀ out ∈ (among files).written calls, out ∈ (among files').written calls')
    (below : name ≠ "..")
    (found : Store.fileBelow directory ((among files).run calls).1.files (name :: rest) =
      some content) :
    Store.fileBelow directory' ((among files').run calls').1.files (name :: rest) =
      some content := by
  obtain ⟨d, mem, here, text, spelled, rfl⟩ := (h.shelved.fileBelow_eq_some_iff below).1 found
  rw [← map_out_shelf h.calls, ← map_out_shelf h'.calls] at written
  obtain ⟨e, mem', same⟩ := List.mem_map.1 (written d.out (List.mem_map_of_mem mem))
  refine (h'.shelved.fileBelow_eq_some_iff below).2 ⟨e, mem', same ▸ here, text, ?_, rfl⟩
  rw [← recipeText_of_identified free (shelf_subset_identified _ _ mem)
    (shelf_subset_identified _ _ mem') same.symm, spelled]

/-- At any time each file in the directory is named by an identifier that was returned and is the
recipe of every derivation with it, and it stays so. Two runs that write the same identifiers end
with the same files. -/
theorem recipes_of_runs (storing : Storing directory files calls)
    (free : CollisionFree ((among files).encodings calls)) :
    (∀ before after, calls = before ++ after → ∀ name rest content, name ≠ ".." →
      Store.fileBelow directory ((among files).run before).1.files (name :: rest) =
        some content →
      ∃ done ∈ (among files).returned before, name :: rest = [done.out.text ++ ".json"] ∧
        (∀ d ∈ (among files).identified calls, d.out = done.out →
          ∃ text, d.recipe.text = .ok text ∧ content = text.toUTF8) ∧
        Store.fileBelow directory ((among files).run calls).1.files (name :: rest) =
          some content) ∧
    ∀ directory' files' calls', Storing directory' files' calls' →
      CollisionFree ((among files).encodings calls ++ (among files').encodings calls') →
      (∀ out, out ∈ (among files).written calls ↔ out ∈ (among files').written calls') →
      ∀ name rest, name ≠ ".." →
        Store.fileBelow directory ((among files).run calls).1.files (name :: rest) =
          Store.fileBelow directory' ((among files').run calls').1.files (name :: rest) := by
  constructor
  · rintro before after rfl name rest content below found
    obtain ⟨done, returned, here, recipe⟩ := storing.recipe_of_fileBelow free below found
    refine ⟨done, returned, here, recipe, ?_⟩
    rw [Store.fileBelow_eq_some_iff] at found ⊢
    exact storing.grows _ _ found
  · intro directory' files' calls' storing' free written name rest below
    have free' := free.mono (List.append_subset.2
      ⟨List.subset_append_right _ _, List.subset_append_left _ _⟩)
    ext content
    exact ⟨storing.fileBelow_of_written storing' free (fun out => (written out).1) below,
      storing'.fileBelow_of_written storing free' (fun out => (written out).2) below⟩

/-- Two derivations in one graph. -/
def orderlyScript : List Call :=
  [.newGraph, .finalize 0 (.inDirectory "recipes") ⟨"b", "1", .blank, [], none, none⟩,
    .finalize 0 (.inDirectory "recipes") ⟨"c", "1", .blank, [], none, none⟩]

/-- The same in two graphs and the other way round, one of them twice. -/
def scatteredScript : List Call :=
  [.newGraph, .newGraph,
    .finalize 1 (.inDirectory "other/recipes") ⟨"c", "1", .blank, [], none, none⟩,
    .finalize 0 (.inDirectory "other/recipes") ⟨"b", "1", .blank, [], none, none⟩,
    .finalize 0 (.inDirectory "other/recipes") ⟨"c", "1", .blank, [], none, none⟩]

theorem recipes_of_scripts : ∃ content,
    Store.fileBelow "recipes" ((among .empty).run orderlyScript).1.files
      ["3873e4173a0714d77cf31bc7b1375fea-c-1.json"] = some content ∧
    Store.fileBelow "other/recipes" ((among .empty).run scatteredScript).1.files
      ["3873e4173a0714d77cf31bc7b1375fea-c-1.json"] = some content := by
  have storing₁ : Storing "recipes" .empty orderlyScript :=
    ⟨by simp [orderlyScript, Call.StoresIn, StoreConfig.StoresIn, StoreConfig.inDirectory],
      Store.apart_of_no_dots (by decide), Store.vacant_empty _⟩
  have storing₂ : Storing "other/recipes" .empty scatteredScript :=
    ⟨by simp [scatteredScript, Call.StoresIn, StoreConfig.StoresIn, StoreConfig.inDirectory],
      Store.apart_of_no_dots (by decide), Store.vacant_empty _⟩
  -- one evaluation, so that each run is made once
  have facts : (((among .empty).encodings orderlyScript).map Fingerprint.ofText).Nodup ∧
      (∀ text ∈ (among .empty).encodings scatteredScript,
        text ∈ (among .empty).encodings orderlyScript) ∧
      ((among .empty).written scatteredScript).reverse = (among .empty).written orderlyScript ∧
      (Store.fileBelow "recipes" ((among .empty).run orderlyScript).1.files
        ["3873e4173a0714d77cf31bc7b1375fea-c-1.json"]).isSome := by
    decide +kernel
  obtain ⟨distinct, among_, swapped, there⟩ := facts
  have free := collisionFree_of_nodup distinct
  have written : ∀ out, out ∈ (among .empty).written orderlyScript ↔
      out ∈ (among .empty).written scatteredScript := by
    intro out
    rw [← swapped, List.mem_reverse]
  obtain ⟨content, found⟩ := Option.isSome_iff_exists.1 there
  have same := (recipes_of_runs storing₁ free).2 "other/recipes" .empty scatteredScript storing₂
    (free.mono (List.append_subset.2 ⟨List.Subset.refl _, among_⟩)) written
    "3873e4173a0714d77cf31bc7b1375fea-c-1.json" [] (by decide)
  exact ⟨content, found, same ▸ found⟩

/-- A directory whose path leads through an entry of it that is named like a recipe. -/
def loopedStore : String := "s/7a8313382b0d7b0f367fa089d3891f12-a/.."

/-- The recipe of the first derivation has a path that leads through that entry as well, to the
file of the second. -/
def loopedScript : List Call :=
  [.newGraph,
    .finalize 0 (.inDirectory loopedStore)
      ⟨"a/../3873e4173a0714d77cf31bc7b1375fea-c", "1", .blank, [], none, none⟩,
    .finalize 0 (.inDirectory loopedStore) ⟨"c", "1", .blank, [], none, none⟩]

/-- With such a path a file can hold the recipe of another derivation. -/
theorem foreign_recipe_of_loopedScript :
    (∀ call ∈ loopedScript, call.StoresIn loopedStore) ∧ Store.Vacant loopedStore .empty ∧
    CollisionFree ((among .empty).encodings loopedScript) ∧
    ∃ d ∈ (among .empty).identified loopedScript,
      (Store.fileBelow loopedStore ((among .empty).run loopedScript).1.files
        [d.out.text ++ ".json"]).isSome ∧
      Store.fileBelow loopedStore ((among .empty).run loopedScript).1.files
        [d.out.text ++ ".json"] ≠ d.recipe.text.toOption.map String.toUTF8 := by
  have facts : (((among .empty).encodings loopedScript).map Fingerprint.ofText).Nodup ∧
      ∃ d ∈ (among .empty).identified loopedScript,
        (Store.fileBelow loopedStore ((among .empty).run loopedScript).1.files
          [d.out.text ++ ".json"]).isSome ∧
        Store.fileBelow loopedStore ((among .empty).run loopedScript).1.files
          [d.out.text ++ ".json"] ≠ d.recipe.text.toOption.map String.toUTF8 := by
    decide +kernel
  exact ⟨by simp [loopedScript, Call.StoresIn, StoreConfig.StoresIn, StoreConfig.inDirectory],
    Store.vacant_empty _, collisionFree_of_nodup facts.1, facts.2⟩

end Session

end Derivations

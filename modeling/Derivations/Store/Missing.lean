import Derivations.Count
import Derivations.Store.Basic

/-!
# Everything a recipe refers to

`Store.missing` follows the references from a root and lists the identifiers that have no file.
It goes depth first: each identifier is looked up once, and what its recipe refers to comes before
what is still waiting. A recipe that is there and cannot be read ends the search with an error.

The search ends on any files, also where recipes refer to each other in a circle, because beyond
the root it meets only identifiers that some file refers to.
-/

namespace Derivations

namespace Store

/-- The identifiers that a file refers to, if it is a recipe. -/
def referencesOf : FileEntry → List OutId
  | .directory => []
  | .file content =>
    match (String.fromUTF8? content).map Recipe.read with
    | some (.ok recipe) => recipe.references
    | _ => []

/-- The identifiers that the files refer to. -/
def allReferences (files : FileTree) : List OutId := files.entries.flatMap (referencesOf ·.2)

theorem mem_allReferences {directory : String} {out ref : OutId} {files : FileTree}
    {recipe : Recipe} (h : read directory out files = .ok recipe) (mem : ref ∈ recipe.references) :
    ref ∈ allReferences files := by
  obtain ⟨text, found, parsed⟩ := text_of_read h
  obtain ⟨place, content, _, entry, decoded⟩ := FileTree.file_of_readText found
  refine List.mem_flatMap.2 ⟨_, FileTree.mem_of_find? entry, ?_⟩
  simpa only [referencesOf, decoded, Option.map_some, parsed] using mem

/-- Identifiers that are the root or that some file refers to. -/
abbrev Known (files : FileTree) (root : OutId) :=
  { out : OutId // out ∈ root :: allReferences files }

/-- The references of a recipe that was read, each known: the dependencies, and behind them the
layers of a stack or the target of a command. -/
def known {directory : String} {out : OutId} {files : FileTree} {recipe : Recipe}
    (root : OutId) (h : read directory out files = .ok recipe) : List (Known files root) :=
  recipe.references.attach.map fun ref =>
    ⟨ref.1, List.mem_cons_of_mem root (mem_allReferences h ref.2)⟩

/-- How many of the known identifiers have not been seen. -/
def unseenCount (files : FileTree) (root : OutId) (seen : List OutId) : Nat :=
  (root :: allReferences files).countP fun out => out ∉ seen

theorem unseenCount_cons {files : FileTree} {root : OutId} {seen : List OutId} {out : OutId}
    (mem : out ∈ root :: allReferences files) (unseen : out ∉ seen) :
    unseenCount files root (out :: seen) < unseenCount files root seen := by
  refine countP_lt_countP (a := out) (fun x _ hx => ?_) mem (by simp) (by simpa using unseen)
  simp only [decide_eq_true_eq, List.mem_cons, not_or] at hx ⊢
  exact hx.2

/-- Looks up the identifiers on the stack, the topmost first. -/
def missingFrom (directory : String) (files : FileTree) (root : OutId) (seen : List OutId)
    (stack : List (Known files root)) : Except Error (List OutId) :=
  match stack with
  | [] => .ok []
  | ⟨out, _mem⟩ :: stack =>
    if _seen : out ∈ seen then missingFrom directory files root seen stack
    else if files.occupied (recipePath directory out) then
      match h : read directory out files with
      | .error e => .error e
      | .ok _ => missingFrom directory files root (out :: seen) (known root h ++ stack)
    else (missingFrom directory files root (out :: seen) stack).map (out :: ·)
termination_by (unseenCount files root seen, stack.length)
decreasing_by
  · exact Prod.Lex.right _ (by simp)
  · exact Prod.Lex.left _ _ (unseenCount_cons _mem _seen)
  · exact Prod.Lex.left _ _ (unseenCount_cons _mem _seen)

/-- The identifiers reachable from a root that have no file, in the order of their discovery. -/
def missing (directory : String) (root : OutId) (files : FileTree) :
    Except Error (List OutId) :=
  missingFrom directory files root [] [⟨root, List.mem_cons_self⟩]

end Store

end Derivations

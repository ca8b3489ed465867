import Derivations.Proofs.Session

/-!
# The store has no say

What became of a recipe shows in one place of a reply and among the files, and nowhere else. Calls
may store in any directories, or not at all, among files that are in the way, that cannot be read or
that others change in between: the nodes, identifiers and errors they reply with and the graphs they
leave are those of the same calls with every store disabled, among any files.
-/

namespace Derivations

/-! ## Without the store -/

/-- What is said of a derivation if its recipe is not stored. -/
def Finalized.unstored (done : Finalized) : Finalized := { done with recipe := .disabled }

/-- The call with its store disabled; none if it only changes files. -/
def Call.unstored? : Call → Option Call
  | .finalize index _ draft => some (.finalize index .disabled draft)
  | .compose index _ c => some (.compose index .disabled c)
  | .changeFiles _ => none
  | call => some call

/-- The reply without what became of the recipe; none if it only says that files changed. -/
def Reply.unstored? : Reply → Option Reply
  | .finalized result => some (.finalized (result.map .unstored))
  | .composed result => some (.composed (result.map .unstored))
  | .filesChanged => none
  | reply => some reply

/-! ## One derivation -/

namespace Bench

/-- The same work without the store, among other files. -/
def unstored (files : FileTree) (built : Finalized × Bench) : Finalized × Bench :=
  (built.1.unstored, ⟨built.2.graph, files⟩)

theorem finalize_disabled (g : Graph) (files files' : FileTree) (config : StoreConfig)
    (draft : Draft) :
    finalize ⟨g, files'⟩ .disabled draft =
      (finalize ⟨g, files⟩ config draft).map (unstored files') := by
  rw [finalize_eq, finalize_eq]
  cases g.identify draft <;> rfl

theorem compose_disabled (g : Graph) (files files' : FileTree) (config : StoreConfig)
    (c : Composition) :
    compose ⟨g, files'⟩ .disabled c = (compose ⟨g, files⟩ config c).map (unstored files') := by
  cases closure : g.closure c.layers with
  | error e => rw [compose, compose, closure]; rfl
  | ok layers =>
    rw [compose_of_closure .disabled closure, compose_of_closure config closure]
    dsimp only
    rw [finalize_disabled g files files' config]
    cases finalize ⟨g, files⟩ config (c.draft g layers) <;> rfl

end Bench

/-! ## Calls -/

namespace Session

/-- The session among other files. -/
def setFiles (s : Session) (files : FileTree) : Session := { s with files }

/-- Without its store and among any files a call does the same to the graphs, leaves the files as
they are and replies the same. -/
theorem perform_unstored (s : Session) (files : FileTree) (call : Call) :
    (s.setFiles files).run call.unstored?.toList =
      ((s.perform call).1.setFiles files, (s.perform call).2.unstored?.toList) := by
  cases call with
  | newGraph => rfl
  | changeFiles => rfl
  | insert index d =>
    cases found : s.graphs[index]? <;>
      simp [Call.unstored?, run, setFiles, perform, found, setGraph, Reply.unstored?]
  | finalize index config draft =>
    cases found : s.graphs[index]? with
    | none => simp [Call.unstored?, run, setFiles, perform, found, Reply.unstored?]
    | some g =>
      have plain := Bench.finalize_disabled g s.files files config draft
      cases stored : Bench.finalize ⟨g, s.files⟩ config draft <;> rw [stored] at plain <;>
        simp [Call.unstored?, run, setFiles, perform, found, stored, plain, Except.map,
          Bench.unstored, setBench, Reply.unstored?]
  | compose index config c =>
    cases found : s.graphs[index]? with
    | none => simp [Call.unstored?, run, setFiles, perform, found, Reply.unstored?]
    | some g =>
      have plain := Bench.compose_disabled g s.files files config c
      cases stored : Bench.compose ⟨g, s.files⟩ config c <;> rw [stored] at plain <;>
        simp [Call.unstored?, run, setFiles, perform, found, stored, plain, Except.map,
          Bench.unstored, setBench, Reply.unstored?]

/-- Whatever the calls store and wherever, and whatever happens to the files in between: with every
store disabled, and among any files, the same calls leave the same graphs, touch no file, and reply
the same but for the recipes. -/
theorem run_unstored (s : Session) (files : FileTree) (calls : List Call) :
    (s.setFiles files).run (calls.filterMap Call.unstored?) =
      ((s.run calls).1.setFiles files, (s.run calls).2.filterMap Reply.unstored?) := by
  induction calls generalizing s with
  | nil => rfl
  | cons call calls ih =>
    have split : (call :: calls).filterMap Call.unstored? =
        call.unstored?.toList ++ calls.filterMap Call.unstored? := by
      rw [List.filterMap_cons]
      cases call.unstored? <;> rfl
    rw [split, run_append, perform_unstored]
    dsimp only
    rw [ih, run]
    dsimp only
    rw [List.filterMap_cons]
    cases (s.perform call).2.unstored? <;> rfl

end Session

end Derivations

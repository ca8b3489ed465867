import Derivations.Proofs.Session
import Derivations.Proofs.Store.ReadBack

/-!
# What a session writes and reads back

In a graph that grew by finalizing, a recipe that is reported as written is read back as itself,
with the content of its file in canonical form, and carries the fingerprint that its identifier
begins with. The one limit is the depth of that content: a text may hold a source whose content is
one level deeper than can be read back inside a recipe.
-/

namespace Derivations

open Relation (ReflTransGen)

namespace Session

variable {calls : List Call} {index : Nat} {g : Graph} {draft : Draft} {d : Derivation}
  {directory path : String} {files files' : FileTree}

/-- A recipe that is reported as written certifies itself: it is read back with the content of its
file in canonical form, and the fingerprint of its own fields is the one in its identifier. -/
theorem read_of_written (kept : ∀ call ∈ calls, ¬ call.IsHandmade)
    (found : (start.run calls).1.graphs[index]? = some g) (identified : g.identify draft = .ok d)
    (references : ∀ out ∈ d.src.references, out.IsWellFormed)
    (shallow : ∀ v ∈ d.src.content?, v.depth ≤ 125)
    (written : Store.write directory d.recipe files = (files', .ok (.written path))) :
    ∃ r, Store.read directory d.out files' = .ok r ∧ r.out = d.out ∧ r = d.recipe.canonical ∧
      ∃ fingerprint, r.identity.fingerprint = .ok fingerprint ∧
        r.out.fingerprint? = some fingerprint.text := by
  have readable := (made_of_run kept found).isReadable identified references shallow
  obtain ⟨text, spelled, -, there⟩ := Store.text_of_written written
  obtain ⟨fingerprint, own, begins⟩ := Graph.fingerprint_of_identify identified
  exact ⟨d.recipe.canonical, Store.read_of_text d.recipe there readable spelled, rfl, rfl,
    fingerprint, own, begins⟩

def keyedScript : List Call :=
  [.newGraph, .finalize 0 .disabled ⟨"lib", "1", .blank, [], none, none⟩]

/-- A file whose content has a key twice and none in order. -/
def keyedDraft : Draft :=
  ⟨"app", "1", .writeJson ⟨"f", .object [("b", .null), ("a", .array []), ("b", .bool true)]⟩,
    [⟨0, 0⟩], some (StringSet.ofList ["net", "audio"]), none⟩

theorem read_of_written_keyed : ∃ g ∈ (start.run keyedScript).1.graphs[0]?,
    ∃ d ∈ (g.identify keyedDraft).toOption, ∃ files' r,
      Store.read "s" d.out files' = .ok r ∧ r.out = d.out ∧
      r.src.content? = some (.object [("a", .array []), ("b", .bool true)]) := by
  have facts : ∃ g ∈ (start.run keyedScript).1.graphs[0]?,
      ∃ d ∈ (g.identify keyedDraft).toOption,
        (Store.write "s" d.recipe .empty).2.toOption =
          some (.written "s/edc487c901e8dde5a756035364ca80bd-app-1.json") := by
    decide +kernel
  obtain ⟨g, found, d, identified, written⟩ := facts
  have kept : ∀ call ∈ keyedScript, ¬ call.IsHandmade := by simp [keyedScript, Call.IsHandmade]
  have identified' := Except.toOption_eq_some_iff.1 identified
  have src : d.src = keyedDraft.src := Graph.src_of_identify trivial identified'
  obtain ⟨r, read, out, same, -⟩ := read_of_written kept found identified'
    (by rw [src]; exact List.forall_mem_nil _)
    (by rw [src]; rintro v ⟨⟩; decide)
    (Prod.ext rfl (Except.toOption_eq_some_iff.1 written))
  refine ⟨g, found, d, identified, _, r, read, out, ?_⟩
  rw [same]
  show d.src.canonical.content? = _
  rw [src]
  rfl

/-! ## The limit -/

/-- What is finalized with a source that refers to no node, and reported as written. -/
theorem write_of_finalized {done : Finalized} {b : Bench} (reduced : draft.src.IsReduced)
    (finalized : Bench.finalize ⟨g, files⟩ (.inDirectory directory) draft = .ok (done, b))
    (written : done.recipe = .written path) :
    ∃ d, g.identify draft = .ok d ∧ d.src = draft.src ∧ d.out = done.out ∧
      Store.write directory d.recipe files = (b.files, .ok (.written path)) := by
  rw [Bench.finalize_eq] at finalized
  obtain ⟨d, identified, same⟩ := Except.map_eq_ok_iff.1 finalized
  cases same
  exact ⟨d, identified, Graph.src_of_identify reduced identified, rfl,
    Store.write_of_persist written⟩

/-- What is finalized with a content that is too deep, and reported as written, cannot be read. -/
theorem unreadable_of_finalized {done : Finalized} {b : Bench} (reduced : draft.src.IsReduced)
    (finalized : Bench.finalize ⟨g, files⟩ (.inDirectory directory) draft = .ok (done, b))
    (written : done.recipe = .written path)
    (deep : ∃ v ∈ draft.src.content?, Recipe.maxContent < v.canonical.depth) :
    ∃ cause, Store.read directory done.out b.files = .error (.unreadable path cause) ∧
      Store.missing directory done.out b.files = .error (.unreadable path cause) := by
  obtain ⟨d, -, src, out, stored⟩ := write_of_finalized reduced finalized written
  rw [← src] at reduced deep
  rw [← out]
  exact @Store.unreadable_of_written _ _ d.recipe _ _ stored reduced deep

/-- What is finalized with a source that was read from a text, and reported as written, is read
back if the content of its file is at most 125 levels deep, and then a search for what is missing
can only fail further on. Such a content may be one level deeper; then its recipe is malformed to
the reader, and the search fails at it. -/
theorem read_of_finalized (kept : ∀ call ∈ calls, ¬ call.IsHandmade)
    (found : (start.run calls).1.graphs[index]? = some g) {text : String} {src : Source}
    (accepted : Source.read text = .ok src) {done : Finalized} {b : Bench}
    (finalized : Bench.finalize ⟨g, files⟩ (.inDirectory directory) { draft with src := src } =
      .ok (done, b)) (written : done.recipe = .written path) :
    (∀ v ∈ src.content?, v.depth ≤ 126) ∧
    ((∀ v ∈ src.content?, v.depth ≤ 125) →
      (∃ r, Store.read directory done.out b.files = .ok r) ∧
      ∀ e, Store.missing directory done.out b.files = .error e →
        ∃ other, other ≠ done.out ∧
          ReflTransGen (Store.Refers directory b.files) done.out other ∧
          Store.read directory other b.files = .error e) ∧
    ((∃ v ∈ src.content?, v.depth = 126) →
      ∃ cause, Store.read directory done.out b.files = .error (.unreadable path cause) ∧
        Store.missing directory done.out b.files = .error (.unreadable path cause)) := by
  have source := Source.accepted_of_read accepted
  refine ⟨fun v mem => (source.content v mem).2, fun shallow => ?_, fun ⟨v, mem, deep⟩ => ?_⟩
  · obtain ⟨d, identified, same, out, stored⟩ :=
      write_of_finalized source.reduced finalized written
    obtain rfl : src = d.src := same.symm
    have readable := (made_of_run kept found).isReadable identified source.references shallow
    obtain ⟨text', spelled, -, there⟩ := Store.text_of_written stored
    have read := Store.read_of_text d.recipe there readable spelled
    rw [← out]
    refine ⟨⟨_, read⟩, fun e failed => ?_⟩
    obtain ⟨other, reaches, unread⟩ := Store.error_of_missing failed
    refine ⟨other, ?_, reaches, unread⟩
    rintro rfl
    cases read.symm.trans unread
  · refine unreadable_of_finalized source.reduced finalized written ⟨v, mem, ?_⟩
    rw [(source.content v mem).1, deep]
    decide

/-- So many arrays in each other. -/
def nested : Nat → Json
  | 0 => .null
  | levels + 1 => .array [nested levels]

theorem depth_nested (levels : Nat) : (nested levels).depth = levels := by
  induction levels with
  | zero => rfl
  | succ levels ih => simp [nested, Json.depth, Json.depthItems, ih]

theorem canonical_nested (levels : Nat) : (nested levels).canonical = nested levels := by
  induction levels with
  | zero => rfl
  | succ levels ih => rw [nested, Json.canonical_array, List.map_singleton, ih]

def nestedFile (levels : Nat) : Source := .writeJson ⟨"p", nested levels⟩

/-- The object with the tag, the path and the nested content. -/
def nestedText (levels : Nat) : String :=
  (Json.object (Json.present (nestedFile levels).taggedFields)).canonicalText

theorem read_nestedText {levels : Nat} (h : levels ≤ 126) :
    Source.read (nestedText levels) = .ok (nestedFile levels) := by
  have content : ∀ v ∈ (nestedFile levels).content?, v.depth ≤ Json.maxDepth - 1 := by
    rintro v ⟨⟩
    rw [depth_nested]
    exact h
  have settled : (nestedFile levels).canonical = nestedFile levels := by
    rw [nestedFile, Source.canonical, canonical_nested]
  have reduced : (nestedFile levels).IsReduced := trivial
  have read := Source.read_text reduced (List.forall_mem_nil _) content (Source.toJson_eq reduced)
  rwa [settled] at read

def nestedDraft (levels : Nat) : Draft := ⟨"nest", "1", nestedFile levels, [], none, none⟩

theorem read_of_finalized_nested : ∃ done b r,
    Source.read (nestedText 1) = .ok (nestedFile 1) ∧
    Bench.finalize ⟨.empty 0, .empty⟩ (.inDirectory "s") (nestedDraft 1) = .ok (done, b) ∧
    Store.read "s" done.out b.files = .ok r := by
  have facts : ∃ made ∈ (Bench.finalize ⟨.empty 0, .empty⟩ (.inDirectory "s")
      (nestedDraft 1)).toOption, made.1.recipe =
        .written "s/472cdadd301622223a3e9156a57c29b9-nest-1.json" := by
    decide +kernel
  obtain ⟨⟨done, b⟩, finalized, written⟩ := facts
  have finalized := Except.toOption_eq_some_iff.1 finalized
  have kept : ∀ call ∈ [Call.newGraph], ¬ call.IsHandmade := by simp [Call.IsHandmade]
  have found : (start.run [.newGraph]).1.graphs[0]? = some (.empty 0) := rfl
  have accepted : Source.read (nestedText 1) = .ok (nestedFile 1) := read_nestedText (by decide)
  obtain ⟨-, shallow, -⟩ := @read_of_finalized _ _ _ (nestedDraft 1) _ _ _ kept found _ _ accepted
    _ _ finalized written
  obtain ⟨⟨r, read⟩, -⟩ := shallow (by rintro v ⟨⟩; decide)
  exact ⟨done, b, r, accepted, finalized, read⟩

/-- A content of 126 levels is accepted and reported as written, but not read back. -/
theorem unreadable_of_nestedText : ∃ done b path cause,
    Source.read (nestedText 126) = .ok (nestedFile 126) ∧
    Bench.finalize ⟨.empty 0, .empty⟩ (.inDirectory "s") (nestedDraft 126) = .ok (done, b) ∧
    done.recipe = .written path ∧
    Store.read "s" done.out b.files = .error (.unreadable path cause) ∧
    Store.missing "s" done.out b.files = .error (.unreadable path cause) := by
  have facts : ∃ made ∈ (Bench.finalize ⟨.empty 0, .empty⟩ (.inDirectory "s")
      (nestedDraft 126)).toOption, made.1.recipe =
        .written "s/8543da0af580f0242c5b3e4e9c99b7f3-nest-1.json" := by
    decide +kernel
  obtain ⟨⟨done, b⟩, made, written⟩ := facts
  have finalized := Except.toOption_eq_some_iff.1 made
  have deep : ∃ v ∈ (nestedFile 126).content?, Recipe.maxContent < v.canonical.depth := by
    refine ⟨nested 126, rfl, ?_⟩
    rw [canonical_nested, depth_nested]
    decide
  have reduced : (nestedDraft 126).src.IsReduced := trivial
  obtain ⟨cause, unread, missing⟩ := unreadable_of_finalized reduced finalized written deep
  exact ⟨done, b, _, cause, read_nestedText (Nat.le_refl _), finalized, written, unread, missing⟩

end Session

end Derivations

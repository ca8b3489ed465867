import Derivations.Proofs.Graph.Made
import Derivations.Proofs.Recipe
import Derivations.Proofs.Store.Missing
import Derivations.Proofs.Store.Shelf

/-!
# A recipe is read back

A recipe that is reported as written is in the file at its path, whatever else is in the store. If
its identifiers are well formed and its content is not too deep, it is read back with the content
in canonical form, and its own fields have the fingerprint that its identifier begins with.
-/

namespace Derivations

namespace Store

variable {directory path text : String} {recipe : Recipe} {files files' : FileTree}

/-- A recipe that is reported as written is in its file. -/
theorem bytes_of_written (h : write directory recipe files = (files', .ok (.written path))) :
    ∃ text, recipe.text = .ok text ∧ path = recipePath directory recipe.out ∧
      files'.readBytes path = .ok text.toUTF8 := by
  have writes := writes directory recipe files
  rw [h] at writes
  cases writes with
  | written free spelled adds leads open_ =>
    exact ⟨_, spelled, rfl, FileTree.readBytes_put leads open_ _⟩

theorem text_of_written (h : write directory recipe files = (files', .ok (.written path))) :
    ∃ text, recipe.text = .ok text ∧ path = recipePath directory recipe.out ∧
      files'.readText (recipePath directory recipe.out) = .ok text := by
  obtain ⟨text, spelled, rfl, there⟩ := bytes_of_written h
  exact ⟨text, spelled, rfl, FileTree.readText_of_bytes there⟩

/-- What is reported as written of a derivation that is stored. -/
theorem write_of_persist {d : Derivation}
    (h : ((StoreConfig.inDirectory directory).persist d files).2 = .written path) :
    write directory d.recipe files =
      (((StoreConfig.inDirectory directory).persist d files).1, .ok (.written path)) := by
  have stores : (StoreConfig.inDirectory directory).persist d files =
      ((write directory d.recipe files).1, .ofResult (write directory d.recipe files).2) :=
    persist_of_enabled rfl
  rw [stores] at h ⊢
  generalize write directory d.recipe files = result at h ⊢
  obtain ⟨files', outcome⟩ := result
  cases outcome with
  | error e => nomatch h
  | ok outcome =>
    obtain rfl : outcome = .written path := h
    rfl

/-- A recipe is read from the text in its file. -/
theorem read_of_text (recipe : Recipe)
    (found : files.readText (recipePath directory recipe.out) = .ok text)
    (readable : recipe.IsReadable) (spelled : recipe.text = .ok text) :
    read directory recipe.out files = .ok recipe.canonical := by
  delta Store.read
  simp only [found, Recipe.read_text readable spelled]

/-- A text that is no recipe is reported with the path of its file. -/
theorem read_of_malformed {out : OutId} {cause : Json.ReadError}
    (found : files.readText (recipePath directory out) = .ok text)
    (malformed : Recipe.read text = .error cause) :
    read directory out files = .error (.unreadable (recipePath directory out) cause) := by
  delta Store.read
  simp only [found, malformed]

/-- A recipe whose content is too deep is written all the same, and then cannot be read. -/
theorem unreadable_of_written (h : write directory recipe files = (files', .ok (.written path)))
    (reduced : recipe.src.IsReduced)
    (deep : ∃ v ∈ recipe.src.content?, Recipe.maxContent < v.canonical.depth) :
    ∃ cause, read directory recipe.out files' = .error (.unreadable path cause) ∧
      missing directory recipe.out files' = .error (.unreadable path cause) := by
  obtain ⟨text, spelled, rfl, there⟩ := text_of_written h
  obtain ⟨v, mem, deep⟩ := deep
  cases parsed : Recipe.read text with
  | ok r => exact absurd (Recipe.depth_of_read reduced spelled parsed v mem) (Nat.not_le.2 deep)
  | error cause =>
    have unread := read_of_malformed there parsed
    exact ⟨cause, unread, missing_of_unreadable (FileTree.occupied_of_readText there) unread⟩

/-- A recipe that is accepted, in whatever way it is spelled, names well-formed identifiers only.
Reported as written, it is read back under its identifier with the keys of its content sorted, and
it refers to the same recipes. Wherever the recipe that is read back is written in turn, the file
is the same byte by byte. -/
theorem read_back_of_accepted {text : String} {r : Recipe} (accepted : Recipe.read text = .ok r) :
    (∀ out ∈ r.out :: r.references, out.IsWellFormed) ∧
      ∀ directory path files files', write directory r files = (files', .ok (.written path)) →
        ∃ r', read directory r.out files' = .ok r' ∧ r'.out = r.out ∧
          r' = { r with src := r.src.canonical } ∧
          (∀ v ∈ r.src.content?, v.SortsTo v.canonical) ∧ r'.references = r.references ∧
          ∃ bytes, files'.readBytes path = .ok bytes ∧
            ∀ directory' path' others others',
              write directory' r' others = (others', .ok (.written path')) →
                others'.readBytes path' = .ok bytes := by
  obtain ⟨readable, collapsed⟩ := Recipe.accepted_of_read accepted
  refine ⟨List.forall_mem_cons.2 ⟨readable.out, readable.references⟩, ?_⟩
  intro directory path files files' written
  obtain ⟨text', spelled, rfl, there⟩ := bytes_of_written written
  have back := read_of_text r (FileTree.readText_of_bytes there) readable spelled
  refine ⟨r.canonical, back, rfl, rfl, ?_, r.references_canonical, _, there, ?_⟩
  · exact fun v mem => (collapsed v mem).sortsTo
  · intro directory' path' others others' again
    obtain ⟨text'', spelled', -, there'⟩ := bytes_of_written again
    rw [Recipe.text_canonical readable.reduced, spelled] at spelled'
    rw [there', Except.ok.inj spelled']

/-- A recipe without dependencies, with a null for its permissions and an array for its source. -/
def looseText : String :=
  "\x7b\"src\": [\"write_json\", \"f\", \x7b\"b\": [], \"a\": 0\x7d], \"permissions\": null, " ++
    "\"version\": \"1\", \"name\": \"app\", " ++
    "\"out\": \"0123456789abcdef0123456789abcdef-app-1\"\x7d"

theorem read_back_of_loose : ∃ r, Recipe.read looseText = .ok r ∧
    ∃ (files others : FileTree) (bytes : ByteArray),
    read "s" r.out files = .ok { r with src := r.src.canonical } ∧
    files.readBytes "s/0123456789abcdef0123456789abcdef-app-1.json" = .ok bytes ∧
    others.readBytes "t/0123456789abcdef0123456789abcdef-app-1.json" = .ok bytes := by
  have facts : ∃ r ∈ (Recipe.read looseText).toOption,
      (write "s" r .empty).2.toOption =
        some (.written "s/0123456789abcdef0123456789abcdef-app-1.json") ∧
      (write "t" { r with src := r.src.canonical } .empty).2.toOption =
        some (.written "t/0123456789abcdef0123456789abcdef-app-1.json") := by
    decide +kernel
  obtain ⟨r, accepted, first, second⟩ := facts
  rw [Option.mem_def, Except.toOption_eq_some_iff] at accepted
  rw [Except.toOption_eq_some_iff] at first second
  obtain ⟨r', back, -, rfl, -, -, bytes, there, again⟩ :=
    (read_back_of_accepted accepted).2 _ _ _ _ (Prod.ext rfl first)
  exact ⟨r, accepted, _, _, bytes, back, there, again _ _ _ _ (Prod.ext rfl second)⟩

end Store

namespace Graph

variable {texts : List String} {g : Graph} {draft : Draft} {d : Derivation}

/-- The identifiers of nodes of a graph that is made are well formed. -/
theorem Made.isWellFormed (h : Made texts g) {id : NodeId} {out : OutId}
    (found : g.out? id = some out) : out.IsWellFormed := by
  obtain ⟨d, there, rfl⟩ := out?_eq_some_iff.1 found
  obtain ⟨text, -, -, out⟩ := (h.wellMade there).out
  rw [out]
  exact OutId.isWellFormed_of _ _ _

/-- The recipe of what is identified in a graph that is made can be read, if the identifiers and
the content of its source allow it. -/
theorem Made.isReadable (h : Made texts g) (identified : g.identify draft = .ok d)
    (references : ∀ out ∈ d.src.references, out.IsWellFormed)
    (shallow : ∀ v ∈ d.src.content?, v.depth ≤ Recipe.maxContent) : d.recipe.IsReadable := by
  have identified := identify_eq_ok_iff.1 identified
  obtain ⟨text, -, out⟩ := identified.out
  refine ⟨isReduced_of_reduce identified.src, ?_, ?_, shallow⟩
  · show d.out.IsWellFormed
    rw [out]
    exact OutId.isWellFormed_of _ _ _
  · intro ref mem
    rcases List.mem_append.1 mem with dependency | source
    · obtain ⟨id, -, there⟩ := exists_id_of_mem identified.dependencies dependency
      exact h.isWellFormed there
    · exact references ref source

/-- What is identified has the fingerprint of its own fields, also as it is read back. -/
theorem fingerprint_of_identify (identified : g.identify draft = .ok d) :
    ∃ fingerprint, d.recipe.canonical.identity.fingerprint = .ok fingerprint ∧
      d.out.fingerprint? = some fingerprint.text := by
  have identified := identify_eq_ok_iff.1 identified
  obtain ⟨text, written, out⟩ := identified.out
  have reduced : d.recipe.src.IsReduced := isReduced_of_reduce identified.src
  refine ⟨.ofText text, ?_, ?_⟩
  · rw [Identity.fingerprint, Recipe.encoding_canonical reduced]
    exact congrArg (Except.map Fingerprint.ofText) written
  · rw [out, OutId.fingerprint?_of]

end Graph

end Derivations

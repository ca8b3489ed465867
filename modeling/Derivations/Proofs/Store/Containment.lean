import Derivations.Proofs.Bench
import Derivations.Proofs.FileTree.Agreement
import Derivations.Proofs.Identity.Identify
import Derivations.Proofs.Store.Missing
import Derivations.Proofs.Store.Shelf

/-!
# What keeps to the store's directory

An identifier goes unescaped into a path. As long as it holds no slash its file is the entry
`<identifier>.json` of the directory, and storing, reading and searching have to do with that entry
and with the way to the directory alone: nothing else is changed, and what else there is makes no
difference. With a slash in it an identifier means another entry, in the directory or outside.
-/

namespace Derivations

open FileTree (OnWay Adds AgreeOn SameOutcome destination stride)

/-- No slash is in the identifier. -/
def OutId.IsPlain (out : OutId) : Prop := '/' ∉ out.text.toList

instance (out : OutId) : Decidable out.IsPlain :=
  inferInstanceAs (Decidable ('/' ∉ out.text.toList))

/-! ## Names on the way -/

namespace Path

theorem slash_notMem_of_mem_splitSlashes {text part : List Char} (mem : part ∈ splitSlashes text) :
    '/' ∉ part := by
  induction text generalizing part with
  | nil =>
    obtain rfl : part = [] := List.mem_singleton.1 mem
    exact List.not_mem_nil
  | cons c text ih =>
    obtain ⟨first, more, split⟩ := List.exists_cons_of_ne_nil (splitSlashes_ne_nil text)
    rw [split] at ih
    rw [splitSlashes, split] at mem
    dsimp only at mem
    by_cases slash : c = '/'
    · rw [if_pos slash, List.mem_cons] at mem
      rcases mem with rfl | old
      · exact List.not_mem_nil
      · exact ih old
    · rw [if_neg slash, List.mem_cons] at mem
      rcases mem with rfl | old
      · have free := ih List.mem_cons_self
        simp [free, Ne.symm slash]
      · exact ih (List.mem_cons_of_mem _ old)

theorem slash_notMem_of_mem_parts {path part : String} (mem : part ∈ parts path) :
    '/' ∉ part.toList := by
  obtain ⟨chars, split, rfl⟩ := List.mem_map.1 mem
  rw [String.toList_ofList]
  exact slash_notMem_of_mem_splitSlashes split

end Path

namespace FileTree

theorem mem_above {place : Place} {name : String} (mem : name ∈ above place) :
    name = ".." ∨ name ∈ place := by
  unfold above at mem
  split at mem
  · exact List.mem_cons.1 mem
  · exact .inr (List.mem_of_mem_dropLast mem)

theorem mem_strides {parts : List String} {place : Place} {name : String}
    (mem : name ∈ parts.foldl stride place) : name = ".." ∨ name ∈ parts ∨ name ∈ place := by
  induction parts generalizing place with
  | nil => exact .inr (.inr mem)
  | cons part parts ih =>
    rcases ih mem with up | later | first
    · exact .inl up
    · exact .inr (.inl (List.mem_cons_of_mem _ later))
    · unfold stride at first
      split at first
      · exact .inr (.inr first)
      split at first
      · exact (mem_above first).imp_right .inr
      · rcases List.mem_append.1 first with old | new
        · exact .inr (.inr old)
        · exact .inr (.inl (List.mem_cons.2 (.inl (List.mem_singleton.1 new))))

/-- No name that a path leads past holds a slash. -/
theorem slash_notMem_of_mem_destination {path name : String}
    (mem : name ∈ destination (Path.parts path)) : '/' ∉ name.toList := by
  rcases mem_strides mem with rfl | part | nothing
  · decide
  · exact Path.slash_notMem_of_mem_parts part
  · nomatch nothing

end FileTree

namespace Store

variable {directory : String} {out : OutId} {files files' : FileTree} {place : Place}
  {outs : OutId → Prop} {recipe : Recipe}

/-! ## The entry of an identifier -/

theorem stride_file (text : String) (place : Place) :
    stride place (text ++ ".json") = place ++ [text ++ ".json"] := by
  have last : (text ++ ".json").toList.getLast? = some 'n' := by
    rw [String.toList_append, List.getLast?_append]
    rfl
  have ne (other : String) (h : other.toList.getLast? ≠ some 'n') : text ++ ".json" ≠ other :=
    fun same => h (same ▸ last)
  have idle : Path.isIdle (text ++ ".json") = false := by
    simp [Path.isIdle, ne "" (by decide), ne "." (by decide)]
  rw [stride, idle, if_neg Bool.false_ne_true, if_neg (ne ".." (by decide))]

theorem slash_mem_file : '/' ∈ (out.text ++ ".json").toList ↔ ¬ out.IsPlain := by
  rw [OutId.IsPlain, not_not, String.toList_append, List.mem_append]
  have none : '/' ∉ ".json".toList := by decide
  exact or_iff_left none

/-- The path of a plain identifier is one to the directory and the name of the file. -/
theorem parts_of_isPlain (plain : out.IsPlain) (directory : String) :
    ∃ front, front <+: Path.parts directory ∧ destination front = home directory ∧
      Path.parts (recipePath directory out) = front ++ [out.text ++ ".json"] := by
  have free : '/' ∉ (out.text ++ ".json").toList := fun mem => slash_mem_file.1 mem plain
  have relative : Path.isAbsolute (out.text ++ ".json") = false := by
    rw [Path.isAbsolute, decide_eq_false_iff_not]
    exact fun first => free (List.mem_of_mem_head? first)
  rw [← Path.parts_of_notMem free]
  exact parts_join relative directory

/-- The file of an identifier is directly in the directory and has its name exactly if the
identifier holds no slash. -/
theorem destination_recipePath_iff :
    destination (Path.parts (recipePath directory out)) = filePlace directory out ↔
      out.IsPlain := by
  constructor
  · -- No name that a path leads past holds a slash, but the file's would.
    intro here
    by_contra slash
    have mem : out.text ++ ".json" ∈ destination (Path.parts (recipePath directory out)) := by
      rw [here]
      exact List.mem_append_right _ (List.mem_singleton_self _)
    exact FileTree.slash_notMem_of_mem_destination mem (slash_mem_file.2 slash)
  · intro plain
    obtain ⟨front, -, there, parts⟩ := parts_of_isPlain plain directory
    rw [parts, FileTree.destination_append, there, List.foldl_cons, List.foldl_nil, stride_file]
    rfl

theorem locate_of_isPlain (plain : out.IsPlain)
    (leads : files.locate (recipePath directory out) = .ok place) :
    place = filePlace directory out := by
  obtain ⟨-, -, leads⟩ := FileTree.locate_eq_ok.1 leads
  rw [FileTree.eq_destination_of_follow leads, destination_recipePath_iff.2 plain]

/-! ## Keeping to some entries -/

/-- On the way to the directory, or the entry of one of the identifiers. -/
def Within (directory : String) (outs : OutId → Prop) (place : Place) : Prop :=
  OnWay (Path.parts directory) place ∨ ∃ out, outs out ∧ place = filePlace directory out

/-- The same tree, but for the entries of some identifiers and new directories on the way to the
store's. -/
def ChangesOnly (directory : String) (outs : OutId → Prop) (files files' : FileTree) : Prop :=
  ∀ place, files'.find? place = files.find? place ∨
    (∃ out, outs out ∧ place = filePlace directory out) ∨
    files.find? place = none ∧ files'.find? place = some .directory ∧
      OnWay (Path.parts directory) place

/-- Work on files that has to do with the entries of some identifiers and the way to the directory
alone. It changes nothing else, and it does the same whatever else there is. -/
structure KeepsWithin {α : Type} (directory : String) (outs : OutId → Prop)
    (work : FileTree → FileTree × α) : Prop where
  changes : ∀ files, ChangesOnly directory outs files (work files).1
  depends : ∀ files files', AgreeOn (Within directory outs) files files' →
    SameOutcome (Within directory outs) (work files) (work files')

theorem ChangesOnly.of_adds (h : Adds (OnWay (Path.parts directory)) files files') :
    ChangesOnly directory outs files files' :=
  fun place => (h place).imp_right .inr

/-- A file is put in an entry that may be changed. -/
theorem ChangesOnly.put (h : Adds (OnWay (Path.parts directory)) files files') (allowed : outs out)
    (open_ : files'.find? (filePlace directory out) ≠ some .directory) (entry : FileEntry) :
    ChangesOnly directory outs files (files'.put (filePlace directory out) entry) := by
  intro place
  rw [FileTree.find?_put (FileTree.isTop_eq_false_of_find? open_)]
  by_cases here : place = filePlace directory out
  · exact .inr (.inl ⟨out, allowed, here⟩)
  · rw [if_neg here]
    exact ChangesOnly.of_adds h place

theorem ChangesOnly.refl (files : FileTree) : ChangesOnly directory outs files files :=
  fun _ => .inl rfl

theorem keepsWithin_const {α : Type} (a : α) :
    KeepsWithin directory outs fun files => (files, a) where
  changes := .refl
  depends _ _ same := ⟨rfl, same⟩

/-- What is made of an outcome is of no concern. -/
theorem KeepsWithin.map {α β : Type} {work : FileTree → FileTree × α}
    (h : KeepsWithin directory outs work) (f : α → β) :
    KeepsWithin directory outs fun files => ((work files).1, f (work files).2) where
  changes := h.changes
  depends files files' same :=
    have ⟨outcome, after⟩ := h.depends files files' same
    ⟨congrArg f outcome, after⟩

/-- The path of a plain identifier leads past nothing else. -/
theorem within_of_onWay (plain : out.IsPlain) (allowed : outs out)
    (on : OnWay (Path.parts (recipePath directory out)) place) : Within directory outs place := by
  obtain ⟨before, start, rfl⟩ := on
  obtain ⟨front, sub, -, parts⟩ := parts_of_isPlain plain directory
  rw [parts, List.prefix_concat_iff, ← parts] at start
  rcases start with rfl | start
  · exact .inr ⟨out, allowed, destination_recipePath_iff.2 plain⟩
  · exact .inl ⟨before, start.trans sub, rfl⟩

/-! ## Reading and writing -/

variable {places : Place → Prop}

theorem read_of_agreeOn (h : AgreeOn places files files')
    (way : ∀ place, OnWay (Path.parts (recipePath directory out)) place → places place) :
    read directory out files = read directory out files' := by
  unfold read
  rw [h.readText way]

theorem write_of_agreeOn (h : AgreeOn places files files')
    (above : ∀ place, OnWay (Path.parts directory) place → places place)
    (way : ∀ place, OnWay (Path.parts (recipePath directory recipe.out)) place → places place) :
    SameOutcome places (write directory recipe files) (write directory recipe files') := by
  unfold write
  dsimp only
  rw [h.occupied way]
  by_cases occupied : files'.occupied (recipePath directory recipe.out) = true
  · rw [if_pos occupied, if_pos occupied]
    exact ⟨rfl, h⟩
  rw [if_neg occupied, if_neg occupied]
  cases spelled : recipe.text with
  | error cause => exact ⟨rfl, h⟩
  | ok text =>
    obtain ⟨outcome, made, made', done, done', same⟩ := (h.createDirectories above).exists_outcome
    dsimp only
    rw [done, done']
    cases outcome with
    | error kind => exact ⟨rfl, same⟩
    | ok _ =>
      dsimp only
      rcases same.moveInto way text.toUTF8 with
        ⟨kind, failed, failed'⟩ | ⟨moved, moved', done, done', after⟩
      · rw [failed, failed']
        exact ⟨rfl, same⟩
      · rw [done, done']
        exact ⟨rfl, after⟩

theorem keepsWithin_read (plain : out.IsPlain) (directory : String) :
    KeepsWithin directory (· = out) fun files => (files, read directory out files) where
  changes files := .refl files
  depends _ _ same := ⟨read_of_agreeOn same fun _ => within_of_onWay plain rfl, same⟩

theorem keepsWithin_write (plain : recipe.out.IsPlain) (directory : String) :
    KeepsWithin directory (· = recipe.out) (write directory recipe) where
  changes files := by
    have writes := writes directory recipe files
    generalize write directory recipe files = result at writes
    obtain ⟨files', outcome⟩ := result
    cases writes with
    | present => exact .refl _
    | failed adds => exact .of_adds adds
    | written _ _ adds leads open_ =>
      obtain rfl := locate_of_isPlain plain leads
      exact @ChangesOnly.put _ recipe.out _ _ (· = recipe.out) adds rfl open_ _
  depends _ _ same :=
    write_of_agreeOn same (fun _ => .inl) fun _ => within_of_onWay plain rfl

/-! ## Searching -/

/-- A search has to do with the entries of the identifiers that it can come to, as long as they are
plain. -/
theorem missing_of_agreeOn {root : OutId}
    (plain : ∀ out, Relation.ReflTransGen (Refers directory files) root out → out.IsPlain)
    (same : AgreeOn (Within directory (Relation.ReflTransGen (Refers directory files) root))
      files files') :
    missing directory root files = missing directory root files' := by
  refine missing_congr fun out reached => ?_
  have way := fun place => @within_of_onWay directory out place _ (plain out reached) reached
  exact ⟨same.occupied way, read_of_agreeOn same way⟩

/-! ## Finalizing -/

variable {config : StoreConfig} {draft : Draft}

/-- Finalizing a draft in a graph, as work on the files. -/
def finalizing (g : Graph) (config : StoreConfig) (draft : Draft) (files : FileTree) :
    FileTree × Except DraftError (Finalized × Graph) :=
  match Bench.finalize ⟨g, files⟩ config draft with
  | .ok (done, b) => (b.files, .ok (done, b.graph))
  | .error e => (files, .error e)

/-- The identifier that a draft gets in a graph, if it gets one. -/
def Gets (g : Graph) (draft : Draft) (out : OutId) : Prop :=
  ∃ d, g.identify draft = .ok d ∧ d.out = out

theorem isPlain_of_identify {g : Graph} {d : Derivation} (h : g.identify draft = .ok d) :
    d.out.IsPlain ↔ '/' ∉ draft.name.toList ∧ '/' ∉ draft.version.toList := by
  have identified := Graph.identify_eq_ok_iff.1 h
  obtain ⟨text, -, out⟩ := identified.out
  have free := slash_notMem_of_isValid (Fingerprint.isValid_ofText text)
  rw [out, OutId.IsPlain, OutId.toList_of, identified.name, identified.version]
  simp [free]

theorem keepsWithin_persist {d : Derivation} (plain : d.out.IsPlain)
    (stores : config.StoresIn directory) :
    KeepsWithin directory (· = d.out) (config.persist d) := by
  cases enabled : config.directory with
  | none =>
    have nothing : config.persist d = fun files => (files, .disabled) :=
      funext fun files => persist_of_disabled enabled
    rw [nothing]
    exact keepsWithin_const _
  | some other =>
    obtain rfl : other = directory := stores other enabled
    have written : KeepsWithin other (· = d.out) (write other d.recipe) :=
      @keepsWithin_write d.recipe plain other
    have stored : config.persist d = fun files =>
        ((write other d.recipe files).1, .ofResult (write other d.recipe files).2) :=
      funext fun files => persist_of_enabled enabled
    rw [stored]
    exact written.map Outcome.ofResult

theorem keepsWithin_finalizing (g : Graph) (stores : config.StoresIn directory)
    (name : '/' ∉ draft.name.toList) (version : '/' ∉ draft.version.toList) :
    KeepsWithin directory (Gets g draft) (finalizing g config draft) := by
  cases identified : g.identify draft with
  | error e =>
    have nothing : finalizing g config draft = fun files => (files, .error e) := by
      funext files
      rw [finalizing, Bench.finalize_eq, identified]
      rfl
    rw [nothing]
    exact keepsWithin_const _
  | ok d =>
    have gets : Gets g draft = (· = d.out) := by
      funext out
      rw [Gets, identified]
      simp [eq_comm]
    have work : finalizing g config draft = fun files => ((config.persist d files).1,
        .ok (⟨(g.insert d).1, d.out, (config.persist d files).2⟩, (g.insert d).2)) := by
      funext files
      rw [finalizing, Bench.finalize_eq, identified]
      rfl
    have stored := keepsWithin_persist ((isPlain_of_identify identified).2 ⟨name, version⟩) stores
    rw [gets, work]
    exact stored.map fun recipe =>
      Except.ok (Finalized.mk (g.insert d).1 d.out recipe, (g.insert d).2)

/-! ## What is inside and what is not -/

/-- Where the path of an identifier leads, if it leads anywhere, is the entry of its name directly
in the directory exactly if it holds no slash. Of identifiers without a slash, different ones have
different entries, and reading, storing, searching and finalizing keep to theirs. -/
theorem keepsWithin (directory : String) :
    (∀ (files : FileTree) (out : OutId) (place : Place),
      files.locate (recipePath directory out) = .ok place →
      (place = home directory ++ [out.text ++ ".json"] ↔ out.IsPlain)) ∧
    (∀ a b : OutId, a.IsPlain → b.IsPlain →
      destination (Path.parts (recipePath directory a)) =
        destination (Path.parts (recipePath directory b)) → a = b) ∧
    (∀ out : OutId, out.IsPlain →
      KeepsWithin directory (· = out) fun files => (files, read directory out files)) ∧
    (∀ recipe : Recipe, recipe.out.IsPlain →
      KeepsWithin directory (· = recipe.out) (write directory recipe)) ∧
    (∀ (root : OutId) (files files' : FileTree),
      (∀ out, Relation.ReflTransGen (Refers directory files) root out → out.IsPlain) →
      AgreeOn (Within directory (Relation.ReflTransGen (Refers directory files) root))
        files files' →
      missing directory root files = missing directory root files') ∧
    ∀ (g : Graph) (config : StoreConfig) (draft : Draft), config.StoresIn directory →
      '/' ∉ draft.name.toList → '/' ∉ draft.version.toList →
      (∀ out, Gets g draft out → out.IsWellFormed ∧ out.IsPlain) ∧
      KeepsWithin directory (Gets g draft) (finalizing g config draft) := by
  refine ⟨fun files out place leads => ?_, fun a b plain plain' same => ?_,
    fun out plain => keepsWithin_read plain directory,
    fun recipe plain => keepsWithin_write plain directory,
    fun root files files' plain same => missing_of_agreeOn plain same,
    fun g config draft stores name version =>
      ⟨?_, keepsWithin_finalizing g stores name version⟩⟩
  · obtain ⟨-, -, leads⟩ := FileTree.locate_eq_ok.1 leads
    rw [FileTree.eq_destination_of_follow leads]
    exact destination_recipePath_iff
  · rw [destination_recipePath_iff.2 plain, destination_recipePath_iff.2 plain'] at same
    exact filePlace_inj same
  · rintro out ⟨d, identified, rfl⟩
    refine ⟨?_, (isPlain_of_identify identified).2 ⟨name, version⟩⟩
    obtain ⟨text, -, out⟩ := (Graph.identify_eq_ok_iff.1 identified).out
    rw [out]
    exact OutId.isWellFormed_of text _ _

/-- Identifiers and a draft without slashes; what lies beside the store is of no concern. -/
theorem keepsWithin_of_app :
    let out : OutId := ⟨"0123456789abcdef0123456789abcdef-app-1"⟩
    let other : OutId := ⟨"0123456789abcdef0123456789abcdef-app-2"⟩
    let draft : Draft := ⟨"app", "1", .blank, [], none, none⟩
    ["s", "0123456789abcdef0123456789abcdef-app-1.json"] = home "s" ++ [out.text ++ ".json"] ∧
    destination (Path.parts (recipePath "s" out)) ≠
      destination (Path.parts (recipePath "s" other)) ∧
    KeepsWithin "s" (· = out) (fun files => (files, read "s" out files)) ∧
    KeepsWithin "s" (· = out) (write "s" ⟨out, "app", "1", .blank, [], none, none⟩) ∧
    KeepsWithin "s" (Gets (.empty 0) draft) (finalizing (.empty 0) (.inDirectory "s") draft) ∧
    missing "s" out .empty = missing "s" out (FileTree.empty.put ["x"] .directory) := by
  intro out other draft
  have plain : out.IsPlain := by decide
  have plain' : other.IsPlain := by decide
  obtain ⟨leading, apart, reading, writing, searching, drafts⟩ := keepsWithin "s"
  refine ⟨(leading ⟨[(["s"], .directory)]⟩ out _ (by decide +kernel)).2 plain,
    fun same => absurd (apart out other plain plain' same) (by decide), reading out plain,
    writing ⟨out, "app", "1", .blank, [], none, none⟩ plain,
    (drafts _ _ draft ?_ (by decide) (by decide)).2, searching out _ _ ?_ ?_⟩
  · rintro other ⟨⟩
    rfl
  · intro other reached
    have absent : FileTree.empty.occupied (recipePath "s" out) = false := by decide +kernel
    rcases reached.cases_head with rfl | ⟨via, ⟨recipe, outs, found, -⟩, -⟩
    · exact plain
    · rw [occupied_of_read found] at absent
      nomatch absent
  · intro place within
    rw [FileTree.find?_put (by decide), if_neg]
    rintro rfl
    rcases within with ⟨before, start, here⟩ | ⟨other, -, here⟩
    · have elsewhere : ∀ before ∈ (Path.parts "s").inits, ["x"] ≠ destination before := by
        decide +kernel
      exact elsewhere before ((List.mem_inits _ _).2 start) here
    · have home : home "s" = ["s"] := by decide +kernel
      rw [filePlace, home] at here
      simp at here

/-- With slashes an identifier that is well formed can lead out of the directory, where a recipe is
then stored, and two of them to one entry. -/
theorem slashes_lead_elsewhere :
    ¬ (∀ (directory : String) (out : OutId), out.IsWellFormed → ∃ name,
      destination (Path.parts (recipePath directory out)) = home directory ++ [name]) ∧
    ¬ (∀ (directory : String) (a b : OutId), a.IsWellFormed → b.IsWellFormed →
      destination (Path.parts (recipePath directory a)) =
        destination (Path.parts (recipePath directory b)) → a = b) ∧
    ∃ (recipe : Recipe) (files : FileTree), recipe.out.IsWellFormed ∧
      (files.find? ["b-1.json"]).isSome = false ∧
      ((write "s" recipe files).1.find? ["b-1.json"]).isSome = true := by
  refine ⟨fun inside => ?_, fun apart => ?_, ?_⟩
  · obtain ⟨name, same⟩ := inside "s" ⟨"0123456789abcdef0123456789abcdef-a/../../b-1"⟩
      (by decide)
    have lengths := congrArg List.length same
    rw [List.length_append, List.length_singleton] at lengths
    revert lengths
    decide +kernel
  · have same := apart "s" ⟨"0123456789abcdef0123456789abcdef-a/../b-1"⟩
      ⟨"0123456789abcdef0123456789abcdef-c/../b-1"⟩ (by decide) (by decide) (by decide +kernel)
    revert same
    decide
  · refine ⟨⟨⟨"0123456789abcdef0123456789abcdef-a/../../b-1"⟩, "b", "1", .blank, [], none, none⟩,
      ⟨[(["s"], .directory), (["s", "0123456789abcdef0123456789abcdef-a"], .directory)]⟩, ?_⟩
    decide +kernel

end Store

end Derivations

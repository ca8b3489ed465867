import Derivations.Proofs.FileTree
import Derivations.Proofs.OutId
import Derivations.Store.Basic

/-!
# What a store directory holds

The file of a recipe is directly in the directory and named by the identifier, as long as the path
of the directory does not itself lead through an entry that is named like a recipe. Whatever is
stored then adds one file and leaves all others as they are, and what is said to be there already
is the file of a recipe stored before under the same identifier.
-/

namespace Derivations

namespace Store

open FileTree (OnWay Adds destination stride)

/-! ## Places -/

/-- The place of a directory. -/
def home (directory : String) : Place := destination (Path.parts directory)

/-- The place in a directory for the recipe of an identifier. -/
def filePlace (directory : String) (out : OutId) : Place :=
  home directory ++ [out.text ++ ".json"]

/-- The path of the directory leads through no entry of the directory that is named like a
recipe. -/
def Apart (directory : String) : Prop :=
  ∀ name rest, OnWay (Path.parts directory) (home directory ++ name :: rest) →
    (OutId.mk name).fingerprint? = none

theorem strides_of_no_dots {parts : List String} (h : ".." ∉ parts) (place : Place) :
    parts.foldl stride place = place ++ parts.filter (!Path.isIdle ·) := by
  induction parts generalizing place with
  | nil => rw [List.foldl_nil, List.filter_nil, List.append_nil]
  | cons part parts ih =>
    rw [List.mem_cons, not_or] at h
    rw [List.foldl_cons, ih h.2, stride]
    by_cases idle : Path.isIdle part = true
    · rw [if_pos idle, List.filter_cons_of_neg (by simp [idle])]
    · rw [if_neg idle, if_neg (Ne.symm h.1), List.filter_cons_of_pos (by simp [idle]),
        List.append_assoc, List.singleton_append]

/-- A path that never turns back leads through nothing in its directory. -/
theorem apart_of_no_dots {directory : String} (h : ".." ∉ Path.parts directory) :
    Apart directory := by
  rintro name rest ⟨before, start, there⟩
  have free : ".." ∉ before := fun mem => h (start.subset mem)
  rw [home, destination, destination, strides_of_no_dots h, strides_of_no_dots free] at there
  have shorter := (start.filter (!Path.isIdle ·)).length_le
  have lengths := congrArg List.length there
  rw [List.length_append, List.length_append, List.length_append, List.length_cons] at lengths
  omega

/-- Nothing is in the directory. -/
def Vacant (directory : String) (files : FileTree) : Prop :=
  ∀ name rest, name ≠ ".." → files.find? (home directory ++ name :: rest) = none

variable {directory name : String} {out : OutId} {files files' : FileTree} {place : Place}

theorem filePlace_inj {a b : OutId} (h : filePlace directory a = filePlace directory b) :
    a = b := by
  have texts := List.append_cancel_left h
  rw [List.cons.injEq, String.append_left_inj] at texts
  exact congrArg OutId.mk texts.1

theorem ne_of_stamped (h : (OutId.mk name).fingerprint?.isSome) :
    Path.isIdle name = false ∧ name ≠ ".." := by
  have plain : ∀ other ∈ ["", ".", ".."], (OutId.mk other).fingerprint? = none := by decide
  have ne (other : String) (mem : other ∈ ["", ".", ".."]) : name ≠ other := by
    rintro rfl
    rw [plain name mem] at h
    nomatch h
  exact ⟨by simp [Path.isIdle, ne "" (by simp), ne "." (by simp)], ne ".." (by simp)⟩

theorem stride_of_stamped (h : (OutId.mk name).fingerprint?.isSome) :
    stride place name = place ++ [name] := by
  obtain ⟨idle, up⟩ := ne_of_stamped h
  rw [stride, idle, if_neg Bool.false_ne_true, if_neg up]

theorem stamped_file (h : out.fingerprint?.isSome) :
    (OutId.mk (out.text ++ ".json")).fingerprint?.isSome := by
  obtain ⟨head, rest, text, valid⟩ := OutId.fingerprint?_isSome_iff.1 h
  refine OutId.fingerprint?_isSome_iff.2 ⟨head, rest ++ ".json".toList, ?_, valid⟩
  rw [String.toList_append, text, List.append_assoc, List.cons_append]

theorem slash_notMem_of_isValid {text : List Char} (h : Fingerprint.isValid text = true) :
    '/' ∉ text := by
  intro mem
  rw [Fingerprint.isValid, Bool.and_eq_true, List.all_eq_true] at h
  exact absurd (h.2 '/' mem) (by decide)

/-- The name of a recipe's file is one part, unless it holds a slash; then the first part starts
with the fingerprint too. -/
theorem parts_file (h : out.fingerprint?.isSome) :
    Path.parts (out.text ++ ".json") = [out.text ++ ".json"] ∨
    ∃ head next more, Path.parts (out.text ++ ".json") = head :: next :: more ∧
      (OutId.mk head).fingerprint?.isSome := by
  obtain ⟨stamp, rest, text, valid⟩ := OutId.fingerprint?_isSome_iff.1 h
  by_cases slash : '/' ∈ rest
  · right
    obtain ⟨front, behind, rfl, free⟩ := List.eq_append_cons_of_mem slash
    obtain ⟨next, more, parts⟩ := List.exists_cons_of_ne_nil
      (Path.splitSlashes_ne_nil (behind ++ ".json".toList))
    have whole : (out.text ++ ".json").toList =
        (stamp ++ '-' :: front) ++ '/' :: (behind ++ ".json".toList) := by
      simp [text]
    have alone : '/' ∉ stamp ++ '-' :: front := by
      simp [slash_notMem_of_isValid valid, free]
    refine ⟨.ofList (stamp ++ '-' :: front), .ofList next, more.map .ofList, ?_, ?_⟩
    · rw [Path.parts, whole, Path.splitSlashes_append, Path.splitSlashes_of_notMem alone, parts]
      rfl
    · exact OutId.fingerprint?_isSome_iff.2 ⟨stamp, front, String.toList_ofList, valid⟩
  · left
    refine Path.parts_of_notMem ?_
    simp [text, slash_notMem_of_isValid valid, slash]

/-- A path below a directory is followed by way of it. -/
theorem parts_join {file : String} (relative : Path.isAbsolute file = false) (directory : String) :
    ∃ front, front <+: Path.parts directory ∧ destination front = home directory ∧
      Path.parts (Path.join directory file) = front ++ Path.parts file := by
  rw [Path.join, relative, if_neg Bool.false_ne_true]
  split
  · rename_i ended
    cases last : directory.toList.getLast? with
    | none =>
      have empty : directory = "" := by simpa using last
      subst empty
      exact ⟨[], List.nil_prefix, rfl, by rw [String.empty_append, List.nil_append]⟩
    | some c =>
      rw [last, Option.all_some, decide_eq_true_eq] at ended
      subst ended
      obtain ⟨front, whole⟩ := List.getLast?_eq_some_iff.1 last
      have text : directory = .ofList front ++ "/" ++ "" := by
        rw [← String.toList_inj, whole]
        simp
      refine ⟨Path.parts (.ofList front), ?_, ?_, ?_⟩
      · rw [text, Path.parts_append]
        exact List.prefix_append _ _
      · rw [home, text, Path.parts_append, FileTree.destination_append]
        rfl
      · rw [← Path.parts_append, text, String.append_empty]
  · exact ⟨_, List.prefix_refl _, rfl, Path.parts_append directory _⟩

theorem relative_of_stamped (h : (OutId.mk name).fingerprint?.isSome) :
    Path.isAbsolute name = false := by
  obtain ⟨stamp, rest, text, valid⟩ := OutId.fingerprint?_isSome_iff.1 h
  have free := slash_notMem_of_isValid valid
  cases stamp with
  | nil => nomatch valid
  | cons c stamp =>
    have ne : c ≠ '/' := fun same => free (same ▸ List.mem_cons_self)
    simp [Path.isAbsolute, text, ne]

/-- No directory in the store's is named like a recipe. -/
def Clear (directory : String) (files : FileTree) : Prop :=
  ∀ name, (OutId.mk name).fingerprint?.isSome →
    files.find? (home directory ++ [name]) ≠ some .directory

theorem place_of_locate (clear : Clear directory files) (h : out.fingerprint?.isSome)
    (leads : files.locate (recipePath directory out) = .ok place) :
    place = filePlace directory out := by
  obtain ⟨front, -, there, parts⟩ := parts_join (relative_of_stamped (stamped_file h)) directory
  obtain ⟨-, -, leads⟩ := FileTree.locate_eq_ok.1 leads
  rw [recipePath, parts, FileTree.follow_append_eq_ok, there] at leads
  obtain ⟨-, behind⟩ := leads
  rcases parts_file h with single | ⟨head, next, more, several, stamped⟩
  · rw [single] at behind
    rw [FileTree.strides_of_steps behind, List.foldl_cons, List.foldl_nil,
      stride_of_stamped (stamped_file h), filePlace]
  · rw [several, List.foldlM_cons, Except.bind_eq_ok_iff] at behind
    obtain ⟨via, first, rest⟩ := behind
    rw [List.foldlM_cons, Except.bind_eq_ok_iff] at rest
    obtain ⟨_, second, -⟩ := rest
    rw [(FileTree.stride_of_step first).2, stride_of_stamped stamped] at second
    exact absurd (FileTree.stride_of_step second).1 (clear head stamped)

/-! ## Storing one recipe -/

/-- What storing a recipe can do to the files, with what is said of it. -/
inductive Writes (directory : String) (recipe : Recipe) (files : FileTree) :
    FileTree → Except Error Outcome → Prop
  | present (occupied : files.occupied (recipePath directory recipe.out) = true) :
    Writes directory recipe files files (.ok (.alreadyPresent (recipePath directory recipe.out)))
  | failed {made : FileTree} {e : Error}
      (adds : Adds (OnWay (Path.parts directory)) files made) :
    Writes directory recipe files made (.error e)
  | written {made : FileTree} {place : Place} {text : String}
      (free : files.occupied (recipePath directory recipe.out) = false)
      (spelled : recipe.text = .ok text)
      (adds : Adds (OnWay (Path.parts directory)) files made)
      (leads : made.locate (recipePath directory recipe.out) = .ok place)
      (open_ : made.find? place ≠ some .directory) :
    Writes directory recipe files (made.put place (.file text.toUTF8))
      (.ok (.written (recipePath directory recipe.out)))

theorem writes (directory : String) (recipe : Recipe) (files : FileTree) :
    Writes directory recipe files (write directory recipe files).1
      (write directory recipe files).2 := by
  have adds := FileTree.adds_createDirectories files directory
  rw [write]
  cases occupied : files.occupied (recipePath directory recipe.out) with
  | true => exact .present occupied
  | false =>
    rw [if_neg Bool.false_ne_true]
    cases spelled : recipe.text with
    | error cause => exact .failed (.refl files)
    | ok text =>
      dsimp only
      split
      · rename_i made kind created
        rw [created] at adds
        exact .failed adds
      · rename_i made created
        rw [created] at adds
        split
        · exact .failed adds
        · rename_i stored moved
          obtain ⟨place, leads, open_, rfl⟩ := FileTree.moveInto_eq_ok.1 moved
          exact .written occupied spelled adds leads open_

/-! ## The shelf -/

/-- The directory holds the recipes of these derivations and nothing else, apart from directories
with other names. -/
structure Shelved (directory : String) (shelf : List Derivation) (files : FileTree) : Prop where
  file : ∀ d ∈ shelf, ∃ text, d.recipe.text = .ok text ∧
    files.locate (recipePath directory d.out) = .ok (filePlace directory d.out) ∧
    files.find? (filePlace directory d.out) = some (.file text.toUTF8)
  only : ∀ name rest entry, name ≠ ".." →
    files.find? (home directory ++ name :: rest) = some entry →
    entry = .directory ∧ (OutId.mk name).fingerprint? = none ∨
    ∃ d ∈ shelf, home directory ++ name :: rest = filePlace directory d.out

variable {shelf : List Derivation}

theorem vacant_empty (directory : String) : Vacant directory .empty := by
  intro name rest below
  have deep : FileTree.isTop (home directory ++ name :: rest) = false := by
    simp [FileTree.isTop, below]
  rw [FileTree.find?, deep, if_neg Bool.false_ne_true]
  rfl

theorem Vacant.shelved (h : Vacant directory files) : Shelved directory [] files where
  file := List.forall_mem_nil _
  only name rest entry below found := by
    rw [h name rest below] at found
    nomatch found

theorem Shelved.clear (h : Shelved directory shelf files) : Clear directory files := by
  intro name stamped found
  rcases h.only name [] .directory (ne_of_stamped stamped).2 found with ⟨-, plain⟩ | ⟨d, mem, same⟩
  · rw [plain] at stamped
    nomatch stamped
  · obtain ⟨text, -, -, there⟩ := h.file d mem
    rw [same, there] at found
    nomatch found

/-- New directories on the way to the store's are of no concern. -/
theorem Shelved.adds (h : Shelved directory shelf files) (apart : Apart directory)
    (new : Adds (OnWay (Path.parts directory)) files files') :
    Shelved directory shelf files' where
  file d mem := by
    obtain ⟨text, spelled, leads, there⟩ := h.file d mem
    exact ⟨text, spelled, new.grows.locate leads, new.grows _ _ there⟩
  only name rest entry below found := by
    rcases new (home directory ++ name :: rest) with same | ⟨-, made, way⟩
    · exact h.only name rest entry below (same ▸ found)
    · rw [made] at found
      exact .inl ⟨(Option.some.inj found).symm, apart name rest way⟩

/-- A path that is occupied is that of a recipe on the shelf. -/
theorem Shelved.mem_of_occupied (h : Shelved directory shelf files)
    (stamped : out.fingerprint?.isSome)
    (occupied : files.occupied (recipePath directory out) = true) : ∃ d ∈ shelf, d.out = out := by
  obtain ⟨place, leads, there⟩ := FileTree.occupied_eq_true_iff.1 occupied
  obtain ⟨entry, found⟩ := Option.isSome_iff_exists.1 there
  rw [place_of_locate h.clear stamped leads, filePlace] at found
  have name := ne_of_stamped (stamped_file stamped)
  rcases h.only _ [] entry name.2 found with ⟨-, plain⟩ | ⟨d, mem, same⟩
  · have marked := stamped_file stamped
    rw [plain] at marked
    nomatch marked
  · exact ⟨d, mem, filePlace_inj same.symm⟩

theorem Shelved.occupied_of_mem (h : Shelved directory shelf files) {d : Derivation}
    (mem : d ∈ shelf) : files.occupied (recipePath directory d.out) = true := by
  obtain ⟨text, -, leads, there⟩ := h.file d mem
  exact FileTree.occupied_eq_true_iff.2 ⟨_, leads, Option.isSome_of_eq_some there⟩

/-- A recipe whose path is free goes onto the shelf, in front of nothing. -/
theorem Shelved.put {d : Derivation} {text : String} (h : Shelved directory shelf files)
    (stamped : d.out.fingerprint?.isSome) (spelled : d.recipe.text = .ok text)
    (leads : files.locate (recipePath directory d.out) = .ok place)
    (open_ : files.find? place ≠ some .directory) (new : ∀ e ∈ shelf, e.out ≠ d.out) :
    files.Grows (files.put place (.file text.toUTF8)) ∧
      Shelved directory (shelf ++ [d]) (files.put place (.file text.toUTF8)) := by
  have below := FileTree.isTop_eq_false_of_find? open_
  obtain rfl := place_of_locate h.clear stamped leads
  have name := ne_of_stamped (stamped_file stamped)
  have vacant : files.find? (filePlace directory d.out) = none := by
    cases found : files.find? (filePlace directory d.out) with
    | none => rfl
    | some entry =>
      have occupied : files.occupied (recipePath directory d.out) = true :=
        FileTree.occupied_eq_true_iff.2 ⟨_, leads, Option.isSome_of_eq_some found⟩
      obtain ⟨e, mem, same⟩ := h.mem_of_occupied stamped occupied
      exact absurd same (new e mem)
  have grows : files.Grows (files.put (filePlace directory d.out) (.file text.toUTF8)) := by
    intro other entry found
    rw [FileTree.find?_put below, if_neg, found]
    rintro rfl
    rw [vacant] at found
    nomatch found
  refine ⟨grows, fun e mem => ?_, fun name' rest entry below' found => ?_⟩
  · rcases List.mem_append.1 mem with old | new
    · obtain ⟨text', spelled', leads', there⟩ := h.file e old
      exact ⟨text', spelled', grows.locate leads', grows _ _ there⟩
    · obtain rfl := List.mem_singleton.1 new
      refine ⟨text, spelled, grows.locate leads, ?_⟩
      rw [FileTree.find?_put below, if_pos rfl]
  · rw [FileTree.find?_put below] at found
    split at found
    · rename_i here
      exact .inr ⟨d, List.mem_append_right _ (List.mem_singleton_self d), here⟩
    · rcases h.only name' rest entry below' found with other | ⟨e, mem, same⟩
      · exact .inl other
      · exact .inr ⟨e, List.mem_append_left _ mem, same⟩

end Store

/-! ## Storing what is finalized -/

/-- What goes onto the shelf as a recipe is stored with an outcome. -/
def Store.Outcome.shelves (outcome : Store.Outcome) (d : Derivation) : List Derivation :=
  match outcome with
  | .written _ => [d]
  | _ => []

/-- A configuration that stores in this directory if anywhere. -/
def StoreConfig.StoresIn (config : StoreConfig) (directory : String) : Prop :=
  ∀ other ∈ config.directory, other = directory

namespace Store

/-- A failure to store a recipe as an outcome like another. -/
def Outcome.ofResult : Except Error Outcome → Outcome
  | .ok outcome => outcome
  | .error e => .failed e

variable {directory : String} {shelf : List Derivation} {files : FileTree} {d : Derivation}
  {config : StoreConfig}

theorem persist_of_disabled (h : config.directory = none) :
    config.persist d files = (files, .disabled) := by
  rw [StoreConfig.persist, h]

theorem persist_of_enabled (h : config.directory = some directory) :
    config.persist d files =
      ((write directory d.recipe files).1, .ofResult (write directory d.recipe files).2) := by
  rw [StoreConfig.persist, h]
  dsimp only
  split <;> rename_i written <;> rw [written] <;> rfl

/-- Storing a recipe takes nothing away, whatever comes of it. -/
theorem retains_persist (config : StoreConfig) (d : Derivation) (files : FileTree) :
    files.Retains (config.persist d files).1 := by
  cases enabled : config.directory with
  | none =>
    rw [persist_of_disabled enabled]
    exact .refl files
  | some directory =>
    rw [persist_of_enabled enabled]
    have writes := writes directory d.recipe files
    generalize write directory d.recipe files = result at writes
    obtain ⟨files', outcome⟩ := result
    cases writes with
    | present => exact .refl _
    | failed adds => exact adds.grows.retains
    | written _ _ adds _ open_ => exact adds.grows.retains.trans (FileTree.retains_put open_ _)

/-- A recipe that is said to be somewhere is there. -/
theorem occupied_of_persist {path : String}
    (said : (config.persist d files).2.path? = some path) :
    ∃ directory, config.directory = some directory ∧ path = recipePath directory d.out ∧
      (config.persist d files).1.occupied path = true := by
  cases enabled : config.directory with
  | none =>
    rw [persist_of_disabled enabled] at said
    nomatch said
  | some directory =>
    rw [persist_of_enabled enabled] at said ⊢
    have writes := writes directory d.recipe files
    generalize write directory d.recipe files = result at writes said ⊢
    obtain ⟨files', outcome⟩ := result
    cases writes with
    | present occupied =>
      cases said
      exact ⟨directory, rfl, rfl, occupied⟩
    | failed => nomatch said
    | written _ _ _ leads open_ =>
      cases said
      exact ⟨directory, rfl, rfl, FileTree.occupied_put leads open_ _⟩

theorem persist_of_occupied (enabled : config.directory = some directory)
    (occupied : files.occupied (recipePath directory d.out) = true) :
    config.persist d files = (files, .alreadyPresent (recipePath directory d.out)) := by
  have present : write directory d.recipe files =
      (files, .ok (.alreadyPresent (recipePath directory d.out))) := by
    rw [write]
    exact if_pos occupied
  rw [persist_of_enabled enabled, present]
  rfl

theorem Shelved.append_nothing (h : Shelved directory shelf files) {outcome : Outcome}
    (nothing : outcome.shelves d = []) : Shelved directory (shelf ++ outcome.shelves d) files := by
  rw [nothing, List.append_nil]
  exact h

/-- What storing the recipe of a derivation, if there is a store, does to the shelf. -/
theorem Shelved.persist (h : Shelved directory shelf files) (apart : Apart directory)
    (stamped : d.out.fingerprint?.isSome) (stores : config.StoresIn directory) :
    files.Grows (config.persist d files).1 ∧
    Shelved directory (shelf ++ (config.persist d files).2.shelves d)
      (config.persist d files).1 ∧
    ∀ path, (config.persist d files).2 = .alreadyPresent path → ∃ e ∈ shelf, e.out = d.out := by
  cases enabled : config.directory with
  | none =>
    rw [persist_of_disabled enabled]
    exact ⟨.refl files, h.append_nothing rfl, fun path said => nomatch said⟩
  | some other =>
    obtain rfl : other = directory := stores other enabled
    rw [persist_of_enabled enabled]
    have writes := writes other d.recipe files
    generalize write other d.recipe files = result at writes
    obtain ⟨files', outcome⟩ := result
    cases writes with
    | present occupied =>
      exact ⟨.refl _, h.append_nothing rfl, fun _ _ => h.mem_of_occupied stamped occupied⟩
    | failed adds =>
      exact ⟨adds.grows, (h.adds apart adds).append_nothing rfl, fun path said => nomatch said⟩
    | written free spelled adds leads open_ =>
      have new : ∀ e ∈ shelf, e.out ≠ d.out := by
        intro e mem same
        have occupied := h.occupied_of_mem mem
        rw [same] at occupied
        rw [Derivation.recipe, occupied] at free
        nomatch free
      obtain ⟨grows, shelved⟩ := (h.adds apart adds).put stamped spelled leads open_ new
      exact ⟨adds.grows.trans grows, shelved, fun path said => nomatch said⟩

end Store

end Derivations

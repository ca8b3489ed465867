import Derivations.Proofs.FileTree.Agreement
import Derivations.Proofs.Recipe
import Derivations.Proofs.Store.Shelf
import Derivations.Store.Temporary

/-!
# A recipe is stored in full or not at all

What storing a recipe leaves of the files is known from what is said of it: the file in its place
and nothing else, or no file that was not there before. This does not need the file to appear at
once. Made as a temporary file first, it is renamed to what it would be if it had been put in its
place, and if it cannot be renamed nothing is left of it.
-/

namespace Derivations

open FileTree (OnWay Adds AgreeOn SameOutcome)

namespace FileTree

variable {t t' : FileTree} {place : Place} {path temporary directory : String}
  {content : ByteArray} {kind : IoKind}

/-! ## One file more -/

/-- The tree has a file where the other one has nothing, and is otherwise the same. -/
structure WithFile (place : Place) (content : ByteArray) (t t' : FileTree) : Prop where
  absent : t.find? place = none
  there : ∀ other, t'.find? other = if other = place then some (.file content) else t.find? other

theorem withFile_put (absent : t.find? place = none) (content : ByteArray) :
    WithFile place content t (t.put place (.file content)) := by
  have vacant : t.find? place ≠ some .directory := by simp [absent]
  exact ⟨absent, find?_put (isTop_eq_false_of_find? vacant)⟩

theorem WithFile.find? (h : WithFile place content t t') :
    t'.find? place = some (.file content) := by
  rw [h.there, if_pos rfl]

/-- A file leads nowhere, and neither does an empty place. -/
theorem WithFile.directory_iff (h : WithFile place content t t') (other : Place) :
    t'.find? other = some .directory ↔ t.find? other = some .directory := by
  rw [h.there]
  by_cases here : other = place
  · subst here
    simp [h.absent]
  · rw [if_neg here]

theorem WithFile.locate_iff (h : WithFile place content t t') {other : Place} :
    t'.locate path = .ok other ↔ t.locate path = .ok other := by
  constructor
  · have back : t'.KeepsDirectories t := fun place => (h.directory_iff place).1
    exact back.locate
  · have forth : t.KeepsDirectories t' := fun place => (h.directory_iff place).2
    exact forth.locate

theorem find?_erase (below : isTop place = false) (other : Place) :
    (FileTree.mk (t.entries.filter fun e => e.1 ≠ place)).find? other =
      if other = place then none else t.find? other := by
  unfold FileTree.find?
  by_cases here : other = place
  · subst here
    rw [if_pos rfl, below, if_neg Bool.false_ne_true, List.lookup_eq_none_iff]
    intro e mem
    have ne : e.1 ≠ other := by simpa using (List.mem_filter.1 mem).2
    simp [Ne.symm ne]
  · rw [if_neg here, lookup_filter_ne here]

theorem removeFile_of_file {place : Place} (leads : t.locate path = .ok place)
    (there : t.find? place = some (.file content)) :
    t.removeFile path = .ok ⟨t.entries.filter fun e => e.1 ≠ place⟩ := by
  simp only [removeFile, leads, bind, Except.bind, there, pure, Except.pure]

/-! ## The temporary file -/

theorem withFile_createNew (h : t.createNew path = .ok t') :
    ∃ place, t.locate path = .ok place ∧ WithFile place .empty t t' := by
  unfold createNew at h
  obtain ⟨place, leads, h⟩ := Except.bind_eq_ok_iff.1 h
  split at h
  · nomatch h
  · rename_i absent
    obtain rfl := Except.ok.inj h
    exact ⟨place, leads, withFile_put absent _⟩

/-- However many names were tried, one file is made. -/
theorem withFile_createTemporary {draws : List String}
    (h : t.createTemporary directory draws = .ok (temporary, t')) :
    ∃ place, t.locate temporary = .ok place ∧ WithFile place .empty t t' := by
  induction draws with
  | nil => nomatch h
  | cons draw draws ih =>
    unfold createTemporary at h
    dsimp only at h
    split at h
    · rename_i made new
      obtain ⟨rfl, rfl⟩ : _ = temporary ∧ made = t' := by simpa using h
      exact withFile_createNew new
    · split at h
      · exact ih h
      · nomatch h

/-- The temporary file is filled. -/
theorem WithFile.moveInto (h : WithFile place content t t') (leads : t.locate temporary = .ok place)
    (filling : ByteArray) :
    ∃ filled, t'.moveInto temporary filling = .ok filled ∧ WithFile place filling t filled := by
  have file : t'.find? place ≠ some .directory := by simp [h.find?]
  refine ⟨_, moveInto_eq_ok.2 ⟨place, h.locate_iff.2 leads, file, rfl⟩, h.absent, fun other => ?_⟩
  rw [find?_put (isTop_eq_false_of_find? file), h.there]
  by_cases here : other = place
  · rw [if_pos here, if_pos here]
  · rw [if_neg here, if_neg here, if_neg here]

/-- Without the file the tree is the one before. -/
theorem WithFile.erase (h : WithFile place content t t') (other : Place) :
    (FileTree.mk (t'.entries.filter fun e => e.1 ≠ place)).find? other = t.find? other := by
  have below : isTop place = false := isTop_eq_false_of_find? (by rw [h.absent]; simp)
  rw [find?_erase below, h.there]
  by_cases here : other = place
  · rw [if_pos here, here, h.absent]
  · rw [if_neg here, if_neg here]

theorem WithFile.discard (h : WithFile place content t t') (leads : t.locate temporary = .ok place)
    (other : Place) : (t'.discard temporary).find? other = t.find? other := by
  rw [FileTree.discard, removeFile_of_file (h.locate_iff.2 leads) h.find?]
  exact h.erase other

/-- Renaming the temporary file does what moving its content to the path would have done without
it. -/
theorem WithFile.rename (h : WithFile place content t t')
    (leads : t.locate temporary = .ok place) :
    ((∃ kind, t'.rename temporary path = .error kind) ∧
      ∃ kind, t.moveInto path content = .error kind) ∨
    ∃ renamed moved, t'.rename temporary path = .ok renamed ∧ t.moveInto path content = .ok moved ∧
      ∀ other, renamed.find? other = moved.find? other := by
  have opened : t'.locate temporary = .ok place := h.locate_iff.2 leads
  unfold FileTree.rename FileTree.moveInto
  rw [readBytes_of_file opened h.find?, removeFile_of_file opened h.find?]
  simp only [bind, Except.bind]
  cases found : t'.locate path with
  | error kind =>
    -- The two need not fail alike: a path through the temporary file meets a file in one tree and
    -- nothing in the other.
    cases found' : t.locate path with
    | error kind' => exact .inl ⟨⟨kind, rfl⟩, kind', rfl⟩
    | ok target =>
      rw [h.locate_iff.2 found'] at found
      nomatch found
  | ok target =>
    rw [h.locate_iff.1 found]
    have same : t'.isDirectoryAt target = t.isDirectoryAt target := by
      rw [Bool.eq_iff_iff, isDirectoryAt_iff, isDirectoryAt_iff, h.directory_iff]
    dsimp only
    rw [same]
    by_cases taken : t.isDirectoryAt target = true
    · rw [if_pos taken, if_pos taken]
      exact .inl ⟨⟨_, rfl⟩, _, rfl⟩
    · rw [if_neg taken, if_neg taken]
      -- Even where the path leads to the temporary file itself, only the content is left there.
      refine .inr ⟨_, _, rfl, rfl, fun other => ?_⟩
      have below : isTop target = false :=
        isTop_eq_false_of_find? fun found => taken (isDirectoryAt_iff.2 found)
      rw [find?_put below, find?_put below, h.erase]

end FileTree

namespace Store

variable {directory : String} {recipe : Recipe} {files : FileTree}
  {result result' : FileTree × Except Error Outcome}

/-! ## In steps or at once -/

/-- Any place. -/
def Everywhere (_ : Place) : Prop := True

/-- Storing a recipe in steps does what storing it at once does, whatever names are drawn, or it
fails with an error of the files after having made directories alone. -/
theorem writeInSteps_cases (draws : List String) (directory : String) (recipe : Recipe)
    (files : FileTree) :
    SameOutcome Everywhere (writeInSteps draws directory recipe files)
        (write directory recipe files) ∨
      files.occupied (recipePath directory recipe.out) = false ∧
      (∃ text, recipe.text = .ok text) ∧
      ∃ path kind, (writeInSteps draws directory recipe files).2 = .error (.io path kind) ∧
        Adds (OnWay (Path.parts directory)) files
          (writeInSteps draws directory recipe files).1 := by
  have adds := FileTree.adds_createDirectories files directory
  unfold writeInSteps write
  dsimp only
  by_cases occupied : files.occupied (recipePath directory recipe.out) = true
  · rw [if_pos occupied, if_pos occupied]
    exact .inl ⟨rfl, fun _ _ => rfl⟩
  rw [if_neg occupied, if_neg occupied]
  have free := Bool.eq_false_iff.2 occupied
  cases spelled : recipe.text with
  | error cause => exact .inl ⟨rfl, fun _ _ => rfl⟩
  | ok text =>
    dsimp only
    generalize files.createDirectories directory = made at adds ⊢
    obtain ⟨made, outcome⟩ := made
    cases outcome with
    | error kind => exact .inl ⟨rfl, fun _ _ => rfl⟩
    | ok _ =>
      dsimp only
      cases drawn : made.createTemporary directory draws with
      | error kind => exact .inr ⟨free, ⟨text, rfl⟩, directory, kind, rfl, adds⟩
      | ok found =>
        obtain ⟨temporary, opened⟩ := found
        obtain ⟨place, leads, empty⟩ := FileTree.withFile_createTemporary drawn
        obtain ⟨filled, filling, full⟩ := empty.moveInto leads text.toUTF8
        dsimp only
        rw [filling]
        dsimp only
        rcases full.rename leads with
          ⟨⟨kind, failed⟩, -⟩ | ⟨renamed, moved, done, done', same⟩
        · rw [failed]
          refine .inr ⟨free, ⟨text, rfl⟩, _, kind, rfl, fun other => ?_⟩
          dsimp only
          rw [full.discard leads]
          exact adds other
        · rw [done, done']
          exact .inl ⟨rfl, fun other _ => same other⟩

/-! ## All or nothing -/

/-- What storing a recipe that can be written leaves, with what is said of it. -/
inductive StoresOrFails (directory : String) (recipe : Recipe) (files : FileTree)
    (result : FileTree × Except Error Outcome) : Prop
  /-- The text is in its place, and there is nothing else but new directories. -/
  | stored (text : String) (place : Place)
      (said : result.2 = .ok (.written (recipePath directory recipe.out)))
      (spelled : recipe.text = .ok text)
      (leads : result.1.locate (recipePath directory recipe.out) = .ok place)
      (there : result.1.find? place = some (.file text.toUTF8))
      (others : ∀ other, other ≠ place → result.1.find? other = files.find? other ∨
        files.find? other = none ∧ result.1.find? other = some .directory ∧
          OnWay (Path.parts directory) other)
  /-- There is nothing but new directories. -/
  | failed (path : String) (kind : IoKind) (said : result.2 = .error (.io path kind))
      (adds : Adds (OnWay (Path.parts directory)) files result.1)

/-- What storing a recipe leaves, with what is said of it: nothing new if the path is occupied
already or, failing that, if the source refers to a node. -/
structure AllOrNothing (directory : String) (recipe : Recipe) (files : FileTree)
    (result : FileTree × Except Error Outcome) : Prop where
  present : files.occupied (recipePath directory recipe.out) = true →
    result.2 = .ok (.alreadyPresent (recipePath directory recipe.out)) ∧
      ∀ place, result.1.find? place = files.find? place
  unreduced : files.occupied (recipePath directory recipe.out) = false →
    ∀ run id, recipe.src = .runInBuild run → run.build = .node id →
      result.2 = .error (.unwritable recipe.out ⟨id⟩) ∧
        ∀ place, result.1.find? place = files.find? place
  reduced : files.occupied (recipePath directory recipe.out) = false →
    (∀ run id, recipe.src = .runInBuild run → run.build ≠ .node id) →
      StoresOrFails directory recipe files result

/-- Only what is said and what is at each place counts. -/
theorem AllOrNothing.congr (h : AllOrNothing directory recipe files result)
    (same : SameOutcome Everywhere result' result) :
    AllOrNothing directory recipe files result' := by
  obtain ⟨said, there⟩ := same
  have alike (place : Place) : result'.1.find? place = result.1.find? place := there place trivial
  refine ⟨fun occupied => ?_, fun free run id src build => ?_, fun free reduced => ?_⟩
  · rw [said]
    simpa only [alike] using h.present occupied
  · rw [said]
    simpa only [alike] using h.unreduced free run id src build
  · cases h.reduced free reduced with
    | stored text place said' spelled leads found others =>
      refine .stored text place (said.trans said') spelled ?_ ?_ fun other ne => ?_
      · rw [there.locate fun _ _ => trivial, leads]
      · rw [alike, found]
      · rw [alike]
        exact others other ne
    | failed path kind said' adds =>
      refine .failed path kind (said.trans said') fun place => ?_
      rw [alike]
      exact adds place

theorem text_of_unreduced {run : BuildRun} {id : NodeId} (src : recipe.src = .runInBuild run)
    (build : run.build = .node id) : recipe.text = .error ⟨id⟩ := by
  have unwritten : recipe.src.toJson = .error ⟨id⟩ := by
    simp only [src, Source.toJson, Source.entries, BuildRun.entries, build, BuildTarget.toJson,
      bind, Except.bind]
  rw [Recipe.text, Recipe.toJson_eq, unwritten]
  rfl

theorem isReduced_of_no_node {s : Source}
    (h : ∀ run id, s = .runInBuild run → run.build ≠ .node id) : s.IsReduced := by
  cases s with
  | runInBuild run =>
    obtain ⟨build, command, outputs⟩ := run
    cases build with
    | node id => exact absurd rfl (h _ id rfl)
    | out target => exact trivial
  | _ => exact trivial

/-- Storing a recipe that can be written fails for the files alone. -/
theorem io_of_write {e : Error} {text : String} (spelled : recipe.text = .ok text)
    (h : (write directory recipe files).2 = .error e) : ∃ path kind, e = .io path kind := by
  unfold write at h
  dsimp only at h
  split at h
  · nomatch h
  rw [spelled] at h
  dsimp only at h
  split at h
  · exact ⟨_, _, (Except.error.inj h).symm⟩
  · split at h
    · exact ⟨_, _, (Except.error.inj h).symm⟩
    · nomatch h

theorem allOrNothing_write (directory : String) (recipe : Recipe) (files : FileTree) :
    AllOrNothing directory recipe files (write directory recipe files) := by
  refine ⟨fun occupied => ?_, fun free run id src build => ?_, fun free reduced => ?_⟩
  · have present : write directory recipe files =
        (files, .ok (.alreadyPresent (recipePath directory recipe.out))) := by
      rw [write]
      exact if_pos occupied
    rw [present]
    exact ⟨rfl, fun _ => rfl⟩
  · have refused : write directory recipe files = (files, .error (.unwritable recipe.out ⟨id⟩)) := by
      rw [write, free, if_neg Bool.false_ne_true, text_of_unreduced src build]
    rw [refused]
    exact ⟨rfl, fun _ => rfl⟩
  · have spelled := Recipe.text_eq (isReduced_of_no_node reduced)
    have said := fun e => @io_of_write directory recipe files e _ spelled
    have writes := writes directory recipe files
    generalize write directory recipe files = result at writes said ⊢
    obtain ⟨made, outcome⟩ := result
    cases writes with
    | present occupied =>
      rw [occupied] at free
      cases free
    | @failed _ e adds =>
      obtain ⟨path, kind, rfl⟩ := said e rfl
      exact .failed path kind rfl adds
    | @written made place text _ spelled' adds leads open_ =>
      have there := @FileTree.find?_put made place (.file text.toUTF8)
        (FileTree.isTop_eq_false_of_find? open_)
      refine .stored text place rfl spelled'
        ((FileTree.keepsDirectories_put open_ _).locate leads)
        ((there place).trans (if_pos rfl)) fun other ne => ?_
      have same := (there other).trans (if_neg ne)
      rcases adds other with old | ⟨absent, new, way⟩
      · exact .inl (same.trans old)
      · exact .inr ⟨absent, same.trans new, way⟩

/-- Storing a recipe is all or nothing, also if the file is made in steps, whatever names are drawn
for the temporary one. -/
theorem write_allOrNothing (directory : String) (recipe : Recipe) (files : FileTree) :
    AllOrNothing directory recipe files (write directory recipe files) ∧
      ∀ draws, AllOrNothing directory recipe files (writeInSteps draws directory recipe files) := by
  have atOnce := allOrNothing_write directory recipe files
  refine ⟨atOnce, fun draws => ?_⟩
  rcases writeInSteps_cases draws directory recipe files with
    same | ⟨free, ⟨text, spelled⟩, path, kind, said, adds⟩
  · exact atOnce.congr same
  · refine ⟨fun occupied => ?_, fun _ run id src build => ?_, fun _ _ => ?_⟩
    · rw [occupied] at free
      nomatch free
    · rw [text_of_unreduced src build] at spelled
      nomatch spelled
    · exact .failed path kind said adds

/-- An identifier with a slash in it, whose temporary file is made and cannot be renamed, and one
without, stored under the second name that is drawn. -/
theorem allOrNothing_of_nested :
    let nested : Recipe :=
      ⟨⟨"0123456789abcdef0123456789abcdef-a/b-1"⟩, "a/b", "1", .blank, [], none, none⟩
    let plain : Recipe :=
      ⟨⟨"0123456789abcdef0123456789abcdef-b-1"⟩, "b", "1", .blank, [], none, none⟩
    let files : FileTree := ⟨[(["s", ".tmpX"], .directory), (["s"], .directory)]⟩
    StoresOrFails "s" nested .empty (writeInSteps ["X"] "s" nested .empty) ∧
    (writeInSteps ["X"] "s" nested .empty).2.toOption = none ∧
    StoresOrFails "s" plain files (writeInSteps ["X", "Y"] "s" plain files) ∧
    ((writeInSteps ["X", "Y"] "s" plain files).1.find? ["s", ".tmpY"]).isSome = false ∧
    (writeInSteps ["X", "Y"] "s" plain files).2.toOption =
      some (.written "s/0123456789abcdef0123456789abcdef-b-1.json") := by
  intro nested plain files
  refine ⟨?_, ?_, ?_, ?_, ?_⟩
  · exact ((write_allOrNothing "s" nested .empty).2 ["X"]).reduced (by decide +kernel)
      fun _ _ src => nomatch src
  · decide +kernel
  · exact ((write_allOrNothing "s" plain files).2 ["X", "Y"]).reduced (by decide +kernel)
      fun _ _ src => nomatch src
  · decide +kernel
  · decide +kernel

end Store

end Derivations

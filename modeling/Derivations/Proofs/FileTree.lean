import Derivations.FileTree
import Derivations.Proofs.Result
import Mathlib.Data.List.Infix

/-!
# Where paths lead, and what grows

Where a path leads to, if it leads anywhere, does not depend on what is there: its destination is
found from its parts alone. What is there decides whether the path can be followed, and more is
never in the way of that. Making directories adds some at destinations on the way and changes
nothing else.
-/

namespace Derivations

/-! ## Parts of paths -/

namespace Path

theorem splitSlashes_ne_nil (text : List Char) : splitSlashes text ≠ [] := by
  cases text with
  | nil => simp [splitSlashes]
  | cons c rest =>
    rw [splitSlashes]
    split
    · simp
    · split <;> simp

theorem splitSlashes_append (xs ys : List Char) :
    splitSlashes (xs ++ '/' :: ys) = splitSlashes xs ++ splitSlashes ys := by
  induction xs with
  | nil =>
    obtain ⟨part, more, behind⟩ := List.exists_cons_of_ne_nil (splitSlashes_ne_nil ys)
    simp [splitSlashes, behind]
  | cons c xs ih =>
    obtain ⟨part, more, front⟩ := List.exists_cons_of_ne_nil (splitSlashes_ne_nil xs)
    rw [List.cons_append, splitSlashes, splitSlashes, ih, front, List.cons_append]
    dsimp only
    split <;> simp

theorem splitSlashes_of_notMem {text : List Char} (h : '/' ∉ text) :
    splitSlashes text = [text] := by
  induction text with
  | nil => rfl
  | cons c text ih =>
    rw [List.mem_cons, not_or] at h
    rw [splitSlashes, ih h.2]
    exact if_neg (Ne.symm h.1)

theorem parts_append (front behind : String) :
    parts (front ++ "/" ++ behind) = parts front ++ parts behind := by
  rw [parts, String.toList_append, String.toList_append, List.append_assoc,
    show "/".toList = ['/'] from rfl, List.singleton_append, splitSlashes_append, List.map_append]
  rfl

theorem parts_of_notMem {path : String} (h : '/' ∉ path.toList) : parts path = [path] := by
  rw [parts, splitSlashes_of_notMem h, List.map_singleton, String.ofList_toList]

theorem dropEnd_prefix (p : String → Bool) (parts : List String) : dropEnd p parts <+: parts := by
  rw [dropEnd, ← List.reverse_suffix, List.reverse_reverse]
  exact List.dropWhile_suffix p

end Path

namespace FileTree

/-! ## Destinations -/

/-- The place that a part leads to. -/
def stride (place : Place) (part : String) : Place :=
  if Path.isIdle part then place else if part = ".." then above place else place ++ [part]

/-- The place that parts lead to, if they lead anywhere. -/
def destination (parts : List String) : Place := parts.foldl stride []

theorem destination_append (xs ys : List String) :
    destination (xs ++ ys) = ys.foldl stride (destination xs) := List.foldl_append

theorem destination_filter (parts : List String) :
    destination (parts.filter (!Path.isIdle ·)) = destination parts := by
  rw [destination, destination, List.foldl_filter]
  congr
  funext place part
  by_cases idle : Path.isIdle part <;> simp [stride, idle]

variable {t t' t'' : FileTree} {place next : Place} {part : String} {parts : List String}

theorem stride_of_step (h : t.step place part = .ok next) :
    t.find? place = some .directory ∧ next = stride place part := by
  rw [step] at h
  split at h
  · nomatch h
  · nomatch h
  · rename_i found
    refine ⟨found, ?_⟩
    rw [stride]
    split at h
    · rename_i idle
      rw [if_pos idle]
      exact (Except.ok.inj h).symm
    · rename_i idle
      rw [if_neg idle]
      split at h
      · rename_i up
        rw [if_pos up]
        exact (Except.ok.inj h).symm
      · rename_i up
        rw [if_neg up]
        split at h
        · nomatch h
        · exact (Except.ok.inj h).symm

theorem strides_of_steps (h : parts.foldlM t.step place = .ok next) :
    next = parts.foldl stride place := by
  induction parts generalizing place with
  | nil => exact (Except.ok.inj h).symm
  | cons part parts ih =>
    rw [List.foldlM_cons] at h
    obtain ⟨via, first, rest⟩ := Except.bind_eq_ok_iff.1 h
    rw [List.foldl_cons, ← (stride_of_step first).2]
    exact ih rest

theorem eq_destination_of_follow (h : t.follow parts = .ok place) : place = destination parts :=
  strides_of_steps h

theorem follow_append_eq_ok {xs ys : List String} : t.follow (xs ++ ys) = .ok place ↔
    t.follow xs = .ok (destination xs) ∧ ys.foldlM t.step (destination xs) = .ok place := by
  rw [follow, List.foldlM_append, Except.bind_eq_ok_iff]
  constructor
  · rintro ⟨via, front, behind⟩
    obtain rfl : via = destination xs := eq_destination_of_follow front
    exact ⟨front, behind⟩
  · rintro ⟨front, behind⟩
    exact ⟨_, front, behind⟩

theorem eq_of_parts {path : String} (h : FileTree.parts path = .ok parts) :
    parts = Path.parts path := by
  rw [FileTree.parts] at h
  split at h
  · nomatch h
  split at h
  · nomatch h
  exact (Except.ok.inj h).symm

theorem locate_eq_ok {path : String} : t.locate path = .ok place ↔
    '\x00' ∉ path.toList ∧ path.utf8ByteSize ≤ maxPath ∧
      t.follow (Path.parts path) = .ok place := by
  rw [locate, Except.bind_eq_ok_iff, FileTree.parts]
  by_cases null : '\x00' ∈ path.toList
  · simp [null]
  · by_cases long : maxPath < path.utf8ByteSize
    · simp [null, long, Nat.not_le.2 long]
    · simp [null, long, Nat.le_of_not_lt long]

/-! ## Growth -/

/-- Every directory is still one. Files may have come, gone or changed. -/
def KeepsDirectories (t t' : FileTree) : Prop :=
  ∀ place, t.find? place = some .directory → t'.find? place = some .directory

/-- A part is followed from a directory, whatever else there is. -/
theorem KeepsDirectories.step (h : t.KeepsDirectories t') (leads : t.step place part = .ok next) :
    t'.step place part = .ok next := by
  have there := (stride_of_step leads).1
  rw [FileTree.step, there] at leads
  rw [FileTree.step, h _ there]
  exact leads

theorem KeepsDirectories.steps (h : t.KeepsDirectories t')
    (leads : parts.foldlM t.step place = .ok next) : parts.foldlM t'.step place = .ok next := by
  induction parts generalizing place with
  | nil => exact leads
  | cons part parts ih =>
    rw [List.foldlM_cons, Except.bind_eq_ok_iff] at leads ⊢
    obtain ⟨via, first, rest⟩ := leads
    exact ⟨via, h.step first, ih rest⟩

theorem KeepsDirectories.locate (h : t.KeepsDirectories t') {path : String}
    (leads : t.locate path = .ok place) : t'.locate path = .ok place := by
  rw [locate_eq_ok] at leads ⊢
  exact ⟨leads.1, leads.2.1, h.steps leads.2.2⟩

/-- Everything that is there stays as it is. -/
def Grows (t t' : FileTree) : Prop :=
  ∀ place entry, t.find? place = some entry → t'.find? place = some entry

theorem Grows.refl (t : FileTree) : t.Grows t := fun _ _ found => found

theorem Grows.trans (h : t.Grows t') (h' : t'.Grows t'') : t.Grows t'' :=
  fun place entry found => h' place entry (h place entry found)

theorem Grows.keepsDirectories (h : t.Grows t') : t.KeepsDirectories t' :=
  fun place found => h place .directory found

theorem Grows.locate (h : t.Grows t') {path : String} (leads : t.locate path = .ok place) :
    t'.locate path = .ok place := h.keepsDirectories.locate leads

/-! ## Putting something in -/

theorem lookup_filter_ne {entries : List (Place × FileEntry)} {other : Place} (h : other ≠ place) :
    (entries.filter fun e => e.1 ≠ place).lookup other = entries.lookup other := by
  induction entries with
  | nil => rfl
  | cons e entries ih =>
    obtain ⟨at_, entry⟩ := e
    by_cases here : at_ = place
    · rw [List.filter_cons_of_neg (by simp [here]), ih, List.lookup_cons,
        beq_eq_false_iff_ne.2 (here ▸ h)]
    · rw [List.filter_cons_of_pos (by simp [here]), List.lookup_cons, List.lookup_cons, ih]

theorem find?_put {entry : FileEntry} (below : isTop place = false) (other : Place) :
    (t.put place entry).find? other = if other = place then some entry else t.find? other := by
  rw [find?, find?, put, List.lookup_cons]
  by_cases here : other = place
  · subst here
    simp [below]
  · rw [if_neg here, beq_eq_false_iff_ne.2 here, lookup_filter_ne here]

theorem isTop_eq_false_of_find? (h : t.find? place ≠ some .directory) : isTop place = false := by
  rw [find?] at h
  split at h
  · exact absurd rfl h
  · rename_i below
    simpa using below

theorem keepsDirectories_put (open_ : t.find? place ≠ some .directory) (entry : FileEntry) :
    t.KeepsDirectories (t.put place entry) := by
  intro other found
  rw [find?_put (isTop_eq_false_of_find? open_), if_neg, found]
  rintro rfl
  exact open_ found

theorem isDirectoryAt_iff : t.isDirectoryAt place = true ↔ t.find? place = some .directory := by
  unfold isDirectoryAt
  split
  · rename_i found
    simp [found]
  · rename_i other
    simp only [Bool.false_eq_true, false_iff]
    exact other

/-- A file is moved to any path that leads somewhere, unless a directory is there. -/
theorem moveInto_eq_ok {path : String} {content : ByteArray} :
    t.moveInto path content = .ok t' ↔ ∃ place, t.locate path = .ok place ∧
      t.find? place ≠ some .directory ∧ t' = t.put place (.file content) := by
  rw [moveInto, Except.bind_eq_ok_iff]
  refine exists_congr fun place => and_congr_right fun _ => ?_
  rw [Ne, ← isDirectoryAt_iff]
  by_cases taken : t.isDirectoryAt place = true
  · rw [if_pos taken]
    simp [taken]
  · rw [if_neg taken]
    simp [taken, pure, Except.pure, eq_comm]

/-! ## What stays occupied -/

theorem occupied_eq_true_iff {path : String} : t.occupied path = true ↔
    ∃ place, t.locate path = .ok place ∧ (t.find? place).isSome := by
  rw [occupied]
  cases t.locate path <;> simp

/-- Directories stay directories, and a place where something is does not get empty. Files may have
come or changed. -/
structure Retains (t t' : FileTree) : Prop where
  directories : t.KeepsDirectories t'
  entries : ∀ place, (t.find? place).isSome → (t'.find? place).isSome

theorem Retains.refl (t : FileTree) : t.Retains t := ⟨fun _ => id, fun _ => id⟩

theorem Retains.trans (h : t.Retains t') (h' : t'.Retains t'') : t.Retains t'' :=
  ⟨fun place found => h'.directories place (h.directories place found),
    fun place there => h'.entries place (h.entries place there)⟩

theorem Grows.retains (h : t.Grows t') : t.Retains t' where
  directories := h.keepsDirectories
  entries place there := by
    obtain ⟨entry, found⟩ := Option.isSome_iff_exists.1 there
    exact Option.isSome_of_eq_some (h place entry found)

theorem retains_put (open_ : t.find? place ≠ some .directory) (entry : FileEntry) :
    t.Retains (t.put place entry) where
  directories := keepsDirectories_put open_ entry
  entries other there := by
    rw [find?_put (isTop_eq_false_of_find? open_)]
    split
    · rfl
    · exact there

/-- A path that is occupied leads to the same place, and something is there. -/
theorem Retains.occupied (h : t.Retains t') {path : String} (there : t.occupied path = true) :
    t'.occupied path = true := by
  obtain ⟨place, leads, found⟩ := occupied_eq_true_iff.1 there
  exact occupied_eq_true_iff.2 ⟨place, h.directories.locate leads, h.entries place found⟩

/-- What is put where a path leads is there by way of the path. -/
theorem occupied_put {path : String} (leads : t.locate path = .ok place)
    (open_ : t.find? place ≠ some .directory) (entry : FileEntry) :
    (t.put place entry).occupied path = true := by
  refine occupied_eq_true_iff.2 ⟨place, (keepsDirectories_put open_ entry).locate leads, ?_⟩
  rw [find?_put (isTop_eq_false_of_find? open_), if_pos rfl]
  rfl

/-! ## Texts in files -/

theorem fromUTF8?_toUTF8 (text : String) : String.fromUTF8? text.toUTF8 = some text := by
  rw [String.fromUTF8?, String.toUTF8_eq_toByteArray, dif_pos text.isValidUTF8]
  rfl

theorem readText_of_bytes {path text : String} (h : t.readBytes path = .ok text.toUTF8) :
    t.readText path = .ok text := by
  simp only [readText, h, bind, Except.bind, fromUTF8?_toUTF8, pure, Except.pure]

theorem readBytes_of_file {path : String} {content : ByteArray} (leads : t.locate path = .ok place)
    (there : t.find? place = some (.file content)) : t.readBytes path = .ok content := by
  simp only [readBytes, leads, bind, Except.bind, there, pure, Except.pure]

/-- A text is read from the file that holds it. -/
theorem readText_of_file {path text : String} (leads : t.locate path = .ok place)
    (there : t.find? place = some (.file text.toUTF8)) : t.readText path = .ok text :=
  readText_of_bytes (readBytes_of_file leads there)

theorem occupied_of_readText {path text : String} (h : t.readText path = .ok text) :
    t.occupied path = true := by
  obtain ⟨place, content, leads, there, -⟩ := file_of_readText h
  exact occupied_eq_true_iff.2 ⟨place, leads, Option.isSome_of_eq_some there⟩

/-- A file that is put where a path leads is read by way of the path. -/
theorem readBytes_put {path : String} (leads : t.locate path = .ok place)
    (open_ : t.find? place ≠ some .directory) (content : ByteArray) :
    (t.put place (.file content)).readBytes path = .ok content := by
  refine readBytes_of_file ((keepsDirectories_put open_ _).locate leads) ?_
  rw [find?_put (isTop_eq_false_of_find? open_), if_pos rfl]

/-! ## Making directories -/

/-- The same tree, but for new directories at some of the places. -/
def Adds (places : Place → Prop) (t t' : FileTree) : Prop :=
  ∀ place, t'.find? place = t.find? place ∨
    t.find? place = none ∧ t'.find? place = some .directory ∧ places place

variable {places places' : Place → Prop}

theorem Adds.refl (t : FileTree) : Adds places t t := fun _ => .inl rfl

theorem Adds.trans (h : Adds places t t') (h' : Adds places t' t'') : Adds places t t'' := by
  intro place
  rcases h' place with same | ⟨absent, new, allowed⟩
  · rw [same]
    exact h place
  · rcases h place with same | ⟨-, there, -⟩
    · exact .inr ⟨same ▸ absent, new, allowed⟩
    · rw [there] at absent
      nomatch absent

theorem Adds.mono (h : Adds places t t') (weaker : ∀ place, places place → places' place) :
    Adds places' t t' :=
  fun place => (h place).imp_right fun ⟨absent, new, allowed⟩ => ⟨absent, new, weaker _ allowed⟩

theorem Adds.grows (h : Adds places t t') : t.Grows t' := by
  intro place entry found
  rcases h place with same | ⟨absent, -, -⟩
  · rw [same, found]
  · rw [absent] at found
    nomatch found

/-- On the way along the parts. -/
def OnWay (parts : List String) (place : Place) : Prop :=
  ∃ before, before <+: parts ∧ place = destination before

theorem OnWay.extend {front : List String} (h : OnWay front place) (sub : front <+: parts) :
    OnWay parts place := by
  obtain ⟨before, start, rfl⟩ := h
  exact ⟨before, start.trans sub, rfl⟩

/-- Leaving out idle parts leads past no other places. -/
theorem OnWay.of_filter (h : OnWay (parts.filter (!Path.isIdle ·)) place) : OnWay parts place := by
  obtain ⟨kept, start, rfl⟩ := h
  obtain ⟨before, start, same⟩ := List.prefix_filter_iff.1 start
  rw [same]
  exact ⟨before, start, destination_filter before⟩

theorem adds_ensureDirectory (t : FileTree) (parts : List String) :
    Adds (OnWay parts) t (t.ensureDirectory parts).1 := by
  rw [ensureDirectory]
  split
  · rename_i made
    rw [makeDirectory] at made
    obtain ⟨place, leads, made⟩ := Except.bind_eq_ok_iff.1 made
    split at made
    · nomatch made
    · rename_i absent
      cases made
      have vacant : t.find? place ≠ some .directory := by simp [absent]
      have below : isTop place = false := isTop_eq_false_of_find? vacant
      intro other
      rw [find?_put below]
      by_cases here : other = place
      · subst here
        exact .inr ⟨absent, if_pos rfl, parts, List.prefix_refl _, eq_destination_of_follow leads⟩
      · exact .inl (if_neg here)
  · exact .refl t

/-- Doing something again that failed for want of a directory, once those above it are made. -/
def retried (above again : FileTree → FileTree × Except IoKind Unit)
    (first : FileTree × Except IoKind Unit) : FileTree × Except IoKind Unit :=
  match first with
  | (t, .error .notFound) =>
    match above t with
    | (t, .ok ()) => again t
    | (t, .error kind) => (t, .error kind)
  | (t, outcome) => (t, outcome)

theorem retried_of_ne {above again : FileTree → FileTree × Except IoKind Unit}
    {first : FileTree × Except IoKind Unit} (h : first.2 ≠ .error .notFound) :
    retried above again first = first := by
  unfold retried
  split
  · exact absurd rfl h
  · rfl

theorem ensureDirectories_cons (t : FileTree) (part : String) (rest : List String) :
    t.ensureDirectories (part :: rest) =
      retried (·.ensureDirectories rest) (·.ensureDirectory (part :: rest).reverse)
        (t.ensureDirectory (part :: rest).reverse) := rfl

theorem createDirectories_of_parts {path : String} (cut : FileTree.parts path = .ok parts) :
    t.createDirectories path =
      retried (·.ensureDirectories (holder (Path.dropEnd (· = "") parts)))
        (·.ensureDirectory (Path.dropEnd (· = "") parts))
        (t.ensureDirectory (Path.dropEnd (· = "") parts)) := by
  rw [createDirectories, cut]
  rfl

theorem onWay_of_holder (h : OnWay (holder parts).reverse place) : OnWay parts place := by
  rw [holder, List.tail_reverse, List.reverse_reverse] at h
  exact (h.extend (List.dropLast_prefix _)).of_filter

theorem Adds.retried {above again : FileTree → FileTree × Except IoKind Unit}
    {first : FileTree × Except IoKind Unit} (h : Adds places t first.1)
    (made : ∀ t, Adds places t (above t).1) (last : ∀ t, Adds places t (again t).1) :
    Adds places t (retried above again first).1 := by
  unfold FileTree.retried
  split
  · rename_i t₁
    have second := made t₁
    split
    · rename_i t₂ done
      rw [done] at second
      exact (h.trans second).trans (last t₂)
    · rename_i t₂ kind failed
      rw [failed] at second
      exact h.trans second
  · exact h

theorem adds_ensureDirectories (t : FileTree) (reversed : List String) :
    Adds (OnWay reversed.reverse) t (t.ensureDirectories reversed).1 := by
  induction reversed generalizing t with
  | nil => exact .refl t
  | cons part rest ih =>
    have sub : rest.reverse <+: (part :: rest).reverse := by
      rw [List.reverse_cons]
      exact List.prefix_append _ _
    rw [ensureDirectories_cons]
    exact (adds_ensureDirectory t _).retried
      (fun t => (ih t).mono fun place way => way.extend sub) fun t => adds_ensureDirectory t _

theorem adds_createDirectories (t : FileTree) (path : String) :
    Adds (OnWay (Path.parts path)) t (t.createDirectories path).1 := by
  cases cut : FileTree.parts path with
  | error kind =>
    rw [createDirectories, cut]
    exact .refl t
  | ok parts =>
    obtain rfl := eq_of_parts cut
    rw [createDirectories_of_parts cut]
    have start := Path.dropEnd_prefix (· = "") (Path.parts path)
    have whole (t : FileTree) :=
      (adds_ensureDirectory t (Path.dropEnd (· = "") (Path.parts path))).mono
        fun place way => way.extend start
    have above (t : FileTree) : Adds (OnWay (Path.parts path)) t
        (t.ensureDirectories (holder (Path.dropEnd (· = "") (Path.parts path)))).1 :=
      (adds_ensureDirectories t _).mono fun place way => (onWay_of_holder way).extend start
    exact (whole t).retried above whole

end FileTree

end Derivations

import Derivations.Path

/-!
# Trees of files

A tree of files maps places to files and directories; a place is the list of names on the way
from the root. The root is always a directory, and so is each one above it, which two dots lead
to. A path leads to a place: its parts are followed one by one, and each but the last has to lead
to a directory. An operation fails with the kind of error that a system of files gives in its
case.
-/

namespace Derivations

/-- What goes wrong with a path. -/
inductive IoKind
  | notFound
  | alreadyExists
  | notADirectory
  | isADirectory
  | invalidData
  | invalidFilename
  | invalidInput
  deriving DecidableEq, Repr

/-- The names from the root on, with two dots in front for each step above it. -/
abbrev Place := List String

inductive FileEntry
  | file (content : ByteArray)
  | directory

structure FileTree where
  entries : List (Place × FileEntry)

namespace FileTree

def empty : FileTree := ⟨[]⟩

/-- The longest name, in bytes. -/
def maxName : Nat := 255

/-- The longest path, in bytes. -/
def maxPath : Nat := 4095

/-- Is the place the root or above it? -/
def isTop (place : Place) : Bool := place.all (· = "..")

def find? (t : FileTree) (place : Place) : Option FileEntry :=
  if isTop place then some .directory else t.entries.lookup place

def isDirectoryAt (t : FileTree) (place : Place) : Bool :=
  match t.find? place with
  | some .directory => true
  | _ => false

/-- The parts of a path. No path holds a NUL. -/
def parts (path : String) : Except IoKind (List String) :=
  if '\x00' ∈ path.toList then .error .invalidInput
  else if maxPath < path.utf8ByteSize then .error .invalidFilename
  else .ok (Path.parts path)

/-- The place above. -/
def above (place : Place) : Place := if isTop place then ".." :: place else place.dropLast

/-- The place that a part of a path leads to from a place, whether or not something is there. Even
an idle part starts at a directory. -/
def step (t : FileTree) (place : Place) (part : String) : Except IoKind Place :=
  match t.find? place with
  | none => .error .notFound
  | some (.file _) => .error .notADirectory
  | some .directory =>
    if Path.isIdle part then .ok place
    else if part = ".." then .ok (above place)
    else if maxName < part.utf8ByteSize then .error .invalidFilename
    else .ok (place ++ [part])

/-- The place that parts lead to from the root. -/
def follow (t : FileTree) (parts : List String) : Except IoKind Place := parts.foldlM t.step []

/-- The place that a path leads to. -/
def locate (t : FileTree) (path : String) : Except IoKind Place := do
  t.follow (← parts path)

/-- Is something at the path? -/
def occupied (t : FileTree) (path : String) : Bool :=
  match t.locate path with
  | .ok place => (t.find? place).isSome
  | .error _ => false

/-- Puts a file or directory at a place, over what was there. -/
def put (t : FileTree) (place : Place) (entry : FileEntry) : FileTree :=
  ⟨(place, entry) :: t.entries.filter fun e => e.1 ≠ place⟩

/-- Makes one directory. -/
def makeDirectory (t : FileTree) (parts : List String) : Except IoKind FileTree := do
  let place ← t.follow parts
  match t.find? place with
  | some _ => .error .alreadyExists
  | none => return t.put place .directory

def leadsToDirectory (t : FileTree) (parts : List String) : Bool :=
  match t.follow parts with
  | .ok place => t.isDirectoryAt place
  | .error _ => false

/-- Makes one directory, unless it is there. -/
def ensureDirectory (t : FileTree) (parts : List String) : FileTree × Except IoKind Unit :=
  match t.makeDirectory parts with
  | .ok t => (t, .ok ())
  | .error kind => (t, if t.leadsToDirectory parts then .ok () else .error kind)

/-- Makes a directory and those above it that are missing. The parts come last one first, none of
them idle. What was made before an error stays. -/
def ensureDirectories (t : FileTree) : List String → FileTree × Except IoKind Unit
  | [] => (t, .ok ())
  | part :: rest =>
    match t.ensureDirectory (part :: rest).reverse with
    | (t, .error .notFound) =>
      match t.ensureDirectories rest with
      | (t, .ok ()) => t.ensureDirectory (part :: rest).reverse
      | (t, .error kind) => (t, .error kind)
    | (t, outcome) => (t, outcome)

/-- The parts of the directory that holds what parts lead to, last one first. -/
def holder (parts : List String) : List String := (parts.filter (!Path.isIdle ·)).reverse.tail

/-- Makes the directory that a path names and those above it. Slashes at the end do not matter; a
dot there asks for a directory that already is there. -/
def createDirectories (t : FileTree) (path : String) : FileTree × Except IoKind Unit :=
  match parts path with
  | .error kind => (t, .error kind)
  | .ok parts =>
    let parts := Path.dropEnd (· = "") parts
    match t.ensureDirectory parts with
    | (t, .error .notFound) =>
      match t.ensureDirectories (holder parts) with
      | (t, .ok ()) => t.ensureDirectory parts
      | (t, .error kind) => (t, .error kind)
    | (t, outcome) => (t, outcome)

/-- Moves a finished file to a path, over a file that is there. -/
def moveInto (t : FileTree) (path : String) (content : ByteArray) : Except IoKind FileTree := do
  let place ← t.locate path
  if t.isDirectoryAt place then .error .isADirectory else return t.put place (.file content)

/-- The bytes of the file at a path. -/
def readBytes (t : FileTree) (path : String) : Except IoKind ByteArray := do
  match t.find? (← t.locate path) with
  | none => .error .notFound
  | some .directory => .error .isADirectory
  | some (.file content) => return content

/-- The text of the file at a path. -/
def readText (t : FileTree) (path : String) : Except IoKind String := do
  match String.fromUTF8? (← t.readBytes path) with
  | some text => return text
  | none => .error .invalidData

/-- A text is read from a file that is there, whose bytes encode it. -/
theorem file_of_readText {t : FileTree} {path text : String} (h : t.readText path = .ok text) :
    ∃ place content, t.locate path = .ok place ∧ t.find? place = some (.file content) ∧
      String.fromUTF8? content = some text := by
  simp only [readText, readBytes, bind, Except.bind] at h
  cases located : t.locate path with
  | error kind => simp [located] at h
  | ok place =>
    match found : t.find? place with
    | none => simp [located, found] at h
    | some .directory => simp [located, found] at h
    | some (.file content) =>
      refine ⟨place, content, rfl, found, ?_⟩
      simp only [located, found, pure, Except.pure] at h
      split at h
      · simp_all
      · simp at h

theorem mem_of_find? {t : FileTree} {place : Place} {content : ByteArray}
    (h : t.find? place = some (.file content)) : (place, .file content) ∈ t.entries := by
  unfold find? at h
  split at h
  · simp at h
  · obtain ⟨before, after, eq, _⟩ := List.lookup_eq_some_iff.1 h
    simp [eq]

/-- Removes the file at a path. -/
def removeFile (t : FileTree) (path : String) : Except IoKind FileTree := do
  let place ← t.locate path
  match t.find? place with
  | none => .error .notFound
  | some .directory => .error .isADirectory
  | some (.file _) => return ⟨t.entries.filter fun e => e.1 ≠ place⟩

/-- Writes a file and makes the directories above it. -/
def writeFile (t : FileTree) (path : String) (content : ByteArray) :
    FileTree × Except IoKind Unit :=
  match parts path with
  | .error kind => (t, .error kind)
  | .ok parts =>
    match t.ensureDirectories (holder parts) with
    | (t, .error kind) => (t, .error kind)
    | (t, .ok ()) =>
      match t.moveInto path content with
      | .ok t => (t, .ok ())
      | .error kind => (t, .error kind)

/-- The names in the directory at a path; none if there is no directory. -/
def list (t : FileTree) (path : String) : List String :=
  match t.locate path with
  | .error _ => []
  | .ok place =>
    if t.isDirectoryAt place then
      t.entries.filterMap fun e =>
        match e.1.getLast? with
        | some name => if e.1 = place ++ [name] then some name else none
        | none => none
    else []

end FileTree

end Derivations

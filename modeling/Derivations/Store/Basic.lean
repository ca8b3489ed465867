import Derivations.FileTree
import Derivations.Recipe

/-!
# The recipe store

A store is a directory with one file a recipe, `<identifier>.json`. A recipe that is there is left
alone: the same identifier means the same content. Whether there is a store at all is a matter of
configuration.
-/

namespace Derivations

namespace Store

/-- Why a recipe is not stored or not read. -/
inductive Error
  | unwritable (out : OutId) (cause : Unreduced)
  | io (path : String) (kind : IoKind)
  | unreadable (path : String) (cause : Json.ReadError)
  deriving DecidableEq, Repr

/-- The wording of a recipe that cannot be written. -/
def Error.unwritableMessage (out : OutId) (cause : Unreduced) : String :=
  "failed to serialize recipe " ++ out.text ++ ": " ++ cause.message

/-- What became of the recipe of a finalized derivation. -/
inductive Outcome
  | disabled
  | written (path : String)
  | alreadyPresent (path : String)
  | failed (error : Error)
  deriving DecidableEq, Repr

namespace Outcome

def path? : Outcome → Option String
  | .written path => some path
  | .alreadyPresent path => some path
  | _ => none

def isFailed : Outcome → Bool
  | .failed _ => true
  | _ => false

end Outcome

/-! ## Paths -/

/-- Where the recipe of an identifier is stored in a directory. -/
def recipePath (directory : String) (out : OutId) : String :=
  Path.join directory (out.text ++ ".json")

/-! ## Writing and reading a recipe -/

/-- Stores a recipe. The file is finished before it gets its name, so it is there in full or not
at all. -/
def write (directory : String) (recipe : Recipe) (files : FileTree) :
    FileTree × Except Error Outcome :=
  let path := recipePath directory recipe.out
  if files.occupied path then (files, .ok (.alreadyPresent path))
  else match recipe.text with
    | .error cause => (files, .error (.unwritable recipe.out cause))
    | .ok text =>
      match files.createDirectories directory with
      | (files, .error kind) => (files, .error (.io directory kind))
      | (files, .ok ()) =>
        match files.moveInto path text.toUTF8 with
        | .error kind => (files, .error (.io path kind))
        | .ok files => (files, .ok (.written path))

/-- Reads the recipe of an identifier. -/
def read (directory : String) (out : OutId) (files : FileTree) : Except Error Recipe :=
  match files.readText (recipePath directory out) with
  | .error kind => .error (.io (recipePath directory out) kind)
  | .ok text =>
    match Recipe.read text with
    | .error cause => .error (.unreadable (recipePath directory out) cause)
    | .ok recipe => .ok recipe

theorem text_of_read {directory : String} {out : OutId} {files : FileTree} {recipe : Recipe}
    (h : read directory out files = .ok recipe) :
    ∃ text, files.readText (recipePath directory out) = .ok text ∧
      Recipe.read text = .ok recipe := by
  unfold read at h
  split at h
  · nomatch h
  · rename_i text found
    split at h
    · nomatch h
    · rename_i parsed
      cases h
      exact ⟨text, found, parsed⟩

end Store

/-! ## Configuration -/

/-- Where recipes are stored, if anywhere. -/
structure StoreConfig where
  directory : Option String
  deriving DecidableEq, Repr

namespace StoreConfig

def disabled : StoreConfig := ⟨none⟩

def inDirectory (directory : String) : StoreConfig := ⟨some directory⟩

/-- The store that a setting names. An empty one, and one that is not UTF-8, names none. -/
def ofSetting (setting : Option ByteArray) : StoreConfig :=
  match setting.bind String.fromUTF8? with
  | some directory => if directory.isEmpty then disabled else inDirectory directory
  | none => disabled

def isEnabled (config : StoreConfig) : Bool := config.directory.isSome

/-- Where the recipe of an identifier is stored. -/
def recipePath? (config : StoreConfig) (out : OutId) : Option String :=
  config.directory.map fun directory => Store.recipePath directory out

/-- Stores the recipe of a derivation. A failure is an outcome like another. -/
def persist (config : StoreConfig) (d : Derivation) (files : FileTree) :
    FileTree × Store.Outcome :=
  match config.directory with
  | none => (files, .disabled)
  | some directory =>
    match Store.write directory d.recipe files with
    | (files, .ok outcome) => (files, outcome)
    | (files, .error error) => (files, .failed error)

end StoreConfig

end Derivations

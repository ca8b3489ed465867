import Derivations.Store.Basic

/-!
# Storing by way of a temporary file

`Store.write` puts a finished file in its place. Here is how the file gets there: a temporary file
is made in the directory under a name that is drawn at random, filled, and renamed. A name that is
taken is followed by another draw. A temporary file that is not renamed is removed.
-/

namespace Derivations

namespace FileTree

/-- Makes an empty file where nothing is. -/
def createNew (t : FileTree) (path : String) : Except IoKind FileTree := do
  let place ← t.locate path
  match t.find? place with
  | some _ => .error .alreadyExists
  | none => return t.put place (.file .empty)

/-- Makes an empty file under the first of the drawn names that is free, and gives its path. -/
def createTemporary (t : FileTree) (directory : String) :
    List String → Except IoKind (String × FileTree)
  | [] => .error .alreadyExists
  | draw :: draws =>
    let path := Path.join directory (".tmp" ++ draw)
    match t.createNew path with
    | .ok t => .ok (path, t)
    | .error kind =>
      if kind = .alreadyExists then t.createTemporary directory draws else .error kind

/-- Moves a file to another path, over a file that is there. -/
def rename (t : FileTree) (source target : String) : Except IoKind FileTree := do
  let content ← t.readBytes source
  let place ← t.locate target
  if t.isDirectoryAt place then .error .isADirectory
  else
    let t ← t.removeFile source
    return t.put place (.file content)

/-- Removes the file at a path, if that can be done. -/
def discard (t : FileTree) (path : String) : FileTree :=
  match t.removeFile path with
  | .ok t => t
  | .error _ => t

end FileTree

namespace Store

/-- Stores a recipe in steps. The draws are tried for the name of the temporary file. -/
def writeInSteps (draws : List String) (directory : String) (recipe : Recipe) (files : FileTree) :
    FileTree × Except Error Outcome :=
  let path := recipePath directory recipe.out
  if files.occupied path then (files, .ok (.alreadyPresent path))
  else match recipe.text with
    | .error cause => (files, .error (.unwritable recipe.out cause))
    | .ok text =>
      match files.createDirectories directory with
      | (files, .error kind) => (files, .error (.io directory kind))
      | (files, .ok ()) =>
        match files.createTemporary directory draws with
        | .error kind => (files, .error (.io directory kind))
        | .ok (temporary, files) =>
          match files.moveInto temporary text.toUTF8 with
          | .error kind => (files.discard temporary, .error (.io temporary kind))
          | .ok files =>
            match files.rename temporary path with
            | .error kind => (files.discard temporary, .error (.io path kind))
            | .ok files => (files, .ok (.written path))

end Store

end Derivations

/-!
# Paths

A path is a text with slashes between its parts. Each part is a name to follow; two dots lead to
the directory above, and an idle part, which is empty or a single dot, leads nowhere.
-/

namespace Derivations

namespace Path

/-- The parts of a text between slashes. -/
def splitSlashes : List Char → List (List Char)
  | [] => [[]]
  | c :: rest =>
    match splitSlashes rest with
    | [] => [[c]]
    | part :: parts => if c = '/' then [] :: part :: parts else (c :: part) :: parts

def parts (path : String) : List String := (splitSlashes path.toList).map String.ofList

def isIdle (part : String) : Bool := part = "" || part = "."

/-- The list without the parts at its end that have a property. -/
def dropEnd (p : String → Bool) (parts : List String) : List String :=
  (parts.reverse.dropWhile p).reverse

def isAbsolute (path : String) : Bool := path.toList.head? = some '/'

/-- A path below a directory; one that starts at the root stays as it is. -/
def join (directory file : String) : String :=
  if isAbsolute file then file
  else if directory.toList.getLast?.all (· = '/') then directory ++ file
  else directory ++ "/" ++ file

/-- A path as it is shown: a relative one stands without the idle parts at its ends. -/
def shown (path : String) : String :=
  if isAbsolute path then path
  else "/".intercalate (dropEnd isIdle ((parts path).dropWhile isIdle))

end Path

end Derivations

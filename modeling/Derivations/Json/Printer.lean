import Derivations.Json.Canonical
import Derivations.Json.Text

/-!
# Writing a value

`Json.chars` writes a value without blanks and `Json.prettyChars` over several lines, two spaces
a level. Entries are written as they stand, repeated keys included. The canonical texts are those
of the canonical form; fingerprints are taken of the compact one, and recipes are stored in the
pretty one.
-/

namespace Derivations

namespace Json

mutual

/-- The text without blanks. -/
def chars : Json → List Char
  | .null => ['n', 'u', 'l', 'l']
  | .bool true => ['t', 'r', 'u', 'e']
  | .bool false => ['f', 'a', 'l', 's', 'e']
  | .number value => value.chars
  | .string value => Text.quoted value
  | .array [] => ['[', ']']
  | .array (x :: xs) => '[' :: (chars x ++ charsItems xs)
  | .object [] => ['\x7b', '\x7d']
  | .object ((k, x) :: es) => '\x7b' :: (Text.quoted k ++ ':' :: (chars x ++ charsEntries es))

/-- The rest of an array after an item. -/
def charsItems : List Json → List Char
  | [] => [']']
  | x :: xs => ',' :: (chars x ++ charsItems xs)

/-- The rest of an object after an entry. -/
def charsEntries : List (String × Json) → List Char
  | [] => ['\x7d']
  | (k, x) :: es => ',' :: (Text.quoted k ++ ':' :: (chars x ++ charsEntries es))

end

/-- A new line at a level of nesting. -/
def lineBreak (level : Nat) : List Char := '\n' :: List.replicate (2 * level) ' '

mutual

/-- The text over several lines, for a value at a level of nesting. -/
def prettyChars (level : Nat) : Json → List Char
  | .array (x :: xs) =>
    '[' :: (lineBreak (level + 1) ++ prettyChars (level + 1) x ++ prettyItems level xs)
  | .object ((k, x) :: es) =>
    '\x7b' :: (lineBreak (level + 1) ++ Text.quoted k ++ ':' :: ' ' ::
      (prettyChars (level + 1) x ++ prettyEntries level es))
  | .null => chars .null
  | .bool value => chars (.bool value)
  | .number value => chars (.number value)
  | .string value => chars (.string value)
  | .array [] => chars (.array [])
  | .object [] => chars (.object [])

/-- The rest of an array at a level of nesting, after an item. -/
def prettyItems (level : Nat) : List Json → List Char
  | [] => lineBreak level ++ [']']
  | x :: xs =>
    ',' :: (lineBreak (level + 1) ++ prettyChars (level + 1) x ++ prettyItems level xs)

/-- The rest of an object at a level of nesting, after an entry. -/
def prettyEntries (level : Nat) : List (String × Json) → List Char
  | [] => lineBreak level ++ ['\x7d']
  | (k, x) :: es =>
    ',' :: (lineBreak (level + 1) ++ Text.quoted k ++ ':' :: ' ' ::
      (prettyChars (level + 1) x ++ prettyEntries level es))

end

def compact (value : Json) : String := String.ofList value.chars

def pretty (value : Json) : String := String.ofList (value.prettyChars 0)

def canonicalText (value : Json) : String := value.canonicalValue.compact

def canonicalPretty (value : Json) : String := value.canonicalValue.pretty

end Json

end Derivations

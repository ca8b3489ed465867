import Derivations.Text.Invisible

/-!
# Text made visible

A message that quotes a piece of text shows each character of it: quotes and backslashes are
escaped, and what does not show by itself is written by its code point.
-/

namespace Derivations

namespace Text

/-- A code point in hexadecimal digits, in braces. -/
def codePoint (n : Nat) : List Char := '\\' :: 'u' :: '\x7b' :: (Nat.toDigits 16 n ++ ['\x7d'])

def visibleChar (c : Char) : List Char :=
  if c = '"' then ['\\', '"']
  else if c = '\\' then ['\\', '\\']
  else if c = '\x00' then ['\\', '0']
  else if c = '\x09' then ['\\', 't']
  else if c = '\x0a' then ['\\', 'n']
  else if c = '\x0d' then ['\\', 'r']
  else if isInvisible c then codePoint c.toNat
  else [c]

/-- The text in quotes, every character of it visible. -/
def visible (s : String) : String :=
  String.ofList ('"' :: (s.toList.flatMap visibleChar ++ ['"']))

end Text

end Derivations

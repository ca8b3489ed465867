/-!
# Strings of a JSON text

`Text.escape` writes a string between its quotes: the quote, the backslash and the control
characters are escaped, everything else stands for itself. `Text.scan` reads up to the closing
quote into pieces, each a character or an escaped unit, and `Text.join?` makes characters of the
pieces: an escaped leading surrogate counts only together with the trailing one right behind it.
-/

namespace Derivations

namespace Json

/-- How a text fails to be JSON: it breaks a rule, or it ends too early. -/
inductive Fault
  | malformed
  | truncated
  deriving DecidableEq, Repr

namespace Text

def escapeChar (c : Char) : List Char :=
  if c = '"' then ['\\', '"']
  else if c = '\\' then ['\\', '\\']
  else if c = '\x08' then ['\\', 'b']
  else if c = '\x09' then ['\\', 't']
  else if c = '\x0a' then ['\\', 'n']
  else if c = '\x0c' then ['\\', 'f']
  else if c = '\x0d' then ['\\', 'r']
  else if c.toNat < 0x20 then
    ['\\', 'u', '0', '0', (c.toNat / 16).digitChar, (c.toNat % 16).digitChar]
  else [c]

def escape (s : List Char) : List Char := s.flatMap escapeChar

/-- A string with its quotes. -/
def quoted (s : String) : List Char := '"' :: (escape s.toList ++ ['"'])

/-- What a part of a string literal spells. -/
inductive Piece
  | char (c : Char)
  /-- A UTF-16 unit, escaped by its hexadecimal number. -/
  | unit (n : Nat)
  deriving DecidableEq, Repr

def isLeading (n : Nat) : Bool := 0xd800 ≤ n && n < 0xdc00

def isTrailing (n : Nat) : Bool := 0xdc00 ≤ n && n < 0xe000

/-- The character that a pair of surrogates stands for. -/
def pairChar (leading trailing : Nat) : Char :=
  Char.ofNat (0x10000 + (leading - 0xd800) * 0x400 + (trailing - 0xdc00))

/-- Puts the characters of a literal before `after`; none if a surrogate stands alone. The pieces
come last one first. -/
def join? (after : List Char) : List Piece → Option (List Char)
  | [] => some after
  | .char c :: done => join? (c :: after) done
  | .unit m :: .unit n :: done =>
    if isTrailing m && isLeading n then join? (pairChar n m :: after) done
    else if isTrailing m || isLeading m then none
    else join? (Char.ofNat m :: after) (.unit n :: done)
  | .unit m :: done =>
    if isTrailing m || isLeading m then none else join? (Char.ofNat m :: after) done

def hexValue? (c : Char) : Option Nat :=
  if '0' ≤ c ∧ c ≤ '9' then some (c.toNat - '0'.toNat)
  else if 'a' ≤ c ∧ c ≤ 'f' then some (c.toNat - 'a'.toNat + 10)
  else if 'A' ≤ c ∧ c ≤ 'F' then some (c.toNat - 'A'.toNat + 10)
  else none

/-- The unit that four hexadecimal digits spell. -/
def hexUnit? (a b c d : Char) : Option Nat := do
  let a ← hexValue? a
  let b ← hexValue? b
  let c ← hexValue? c
  let d ← hexValue? d
  return ((a * 16 + b) * 16 + c) * 16 + d

/-- What is wrong with a unit escape that does not have its four digits: it is cut short only if
fewer than four bytes of text are left. -/
def hexFault (rest : List Char) : Fault :=
  if (String.ofList rest).utf8ByteSize < 4 then .truncated else .malformed

/-- The character that a backslash and this one stand for. -/
def shortEscape? (c : Char) : Option Char :=
  if c = '"' then some '"'
  else if c = '\\' then some '\\'
  else if c = '/' then some '/'
  else if c = 'b' then some '\x08'
  else if c = 'f' then some '\x0c'
  else if c = 'n' then some '\x0a'
  else if c = 'r' then some '\x0d'
  else if c = 't' then some '\x09'
  else none

/-- Reads up to the closing quote. Yields the pieces, the last one first, on top of those already
`done`, and what follows the quote. -/
def scan (done : List Piece) : List Char → List Piece × Except Fault (List Char)
  | [] => (done, .error .truncated)
  | '"' :: rest => (done, .ok rest)
  | '\\' :: [] => (done, .error .truncated)
  | '\\' :: 'u' :: a :: b :: c :: d :: rest =>
    match hexUnit? a b c d with
    | some n => scan (.unit n :: done) rest
    | none => (done, .error (hexFault (a :: b :: c :: d :: rest)))
  | '\\' :: 'u' :: rest => (done, .error (hexFault rest))
  | '\\' :: c :: rest =>
    match shortEscape? c with
    | some e => scan (.char e :: done) rest
    | none => (done, .error .malformed)
  | c :: rest => if c.toNat < 0x20 then (done, .error .malformed) else scan (.char c :: done) rest

/-- The pieces without a leading surrogate at the end, whose partner may have been cut off. -/
def dropOpenPair (done : List Piece) : List Piece :=
  match done with
  | .unit n :: rest => if isLeading n then rest else done
  | _ => done

/-- The fault of a literal that is not closed: a lone surrogate comes before the break. -/
def brokenFault (done : List Piece) (fault : Fault) : Fault :=
  match join? [] (dropOpenPair done) with
  | some _ => fault
  | none => .malformed

end Text

end Json

end Derivations

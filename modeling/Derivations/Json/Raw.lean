import Derivations.Json.Basic
import Derivations.Json.Text

/-!
# Reading a text into a tree

`Raw` is the tree that a text spells, up to the place where it stops being JSON. A reader of the
tree goes through it from left to right and so meets the faults of the text in the order of the
text. What only a reader of a value objects to is kept as a leaf: a number too large to be finite
and a string with a lone surrogate. Someone who only passes over a value accepts both, and in a
few cases names another fault where the text breaks off; so the fault of the passer is kept apart,
in the `stop` of the array or object that is not closed.
-/

namespace Derivations

namespace Json

/-- The tree of a text. -/
inductive Raw
  | null
  | bool (value : Bool)
  /-- None is a number too large to be finite. -/
  | number (value : Option Number)
  /-- None is a string with a lone surrogate. -/
  | string (value : Option String)
  | array (items : List Raw) (stop : Option Fault)
  | object (entries : List (Except Fault String × Raw)) (stop : Option Fault)
  /-- Where a value should be and the text is none, with the fault that its reader reports. -/
  | broken (fault : Fault)

/-- What reading one value gives: its tree, and the text behind it or the fault that someone who
passes over the value meets. -/
abbrev Raw.Reading := Raw × Except Fault (List Char)

def isBlank (c : Char) : Bool := c = ' ' || c = '\t' || c = '\n' || c = '\r'

def skipBlanks (text : List Char) : List Char := text.dropWhile isBlank

/-- The text behind a word that it has to start with. -/
def behindWord : List Char → List Char → Except Fault (List Char)
  | [], text => .ok text
  | _ :: _, [] => .error .truncated
  | w :: word, c :: text => if w = c then behindWord word text else .error .malformed

namespace Numeral

/-- The fault of a literal that breaks off before `rest`: for its reader, and for someone who
passes over it, to whom the end of the text is not special. -/
def breakBefore (rest : List Char) : Fault × Fault :=
  (if rest.isEmpty then .truncated else .malformed, .malformed)

/-- A run of digits, not empty, and the text behind it. -/
def scanDigits (text : List Char) : Except (Fault × Fault) (List Char × List Char) :=
  let rest := text.dropWhile Char.isDigit
  match text.takeWhile Char.isDigit with
  | [] => .error (breakBefore rest)
  | digits => .ok (digits, rest)

def scanFraction : List Char → Except (Fault × Fault) (Option (List Char) × List Char)
  | '.' :: rest => do
    let (digits, rest) ← scanDigits rest
    return (some digits, rest)
  | rest => .ok (none, rest)

def scanExponent (text : List Char) :
    Except (Fault × Fault) (Option (Bool × List Char) × List Char) :=
  match text with
  | c :: rest =>
    if c = 'e' ∨ c = 'E' then
      let (negative, rest) := match rest with
        | '-' :: rest => (true, rest)
        | '+' :: rest => (false, rest)
        | rest => (false, rest)
      do
        let (digits, rest) ← scanDigits rest
        return (some (negative, digits), rest)
    else .ok (none, text)
  | [] => .ok (none, [])

/-- A number literal and the text behind it. A leading zero stands alone before the point. -/
def scan (text : List Char) : Except (Fault × Fault) (Numeral × List Char) := do
  let (negative, text) := match text with
    | '-' :: rest => (true, rest)
    | rest => (false, rest)
  let (whole, text) ← scanDigits text
  if whole.head? = some '0' ∧ whole.length ≠ 1 then .error (.malformed, .malformed)
  let (fraction, text) ← scanFraction text
  let (exponent, text) ← scanExponent text
  return (⟨negative, whole, fraction, exponent⟩, text)

end Numeral

namespace Raw

def ofScan : Except (Fault × Fault) (Numeral × List Char) → Reading
  | .ok (numeral, rest) => (.number numeral.number?, .ok rest)
  | .error (reading, passing) => (.broken reading, .error passing)

/-- The text of a string literal, from the pieces behind its opening quote. -/
def spelled (done : List Text.Piece) : Option String := (Text.join? [] done).map String.ofList

def ofString (text : List Char) : Reading :=
  match Text.scan [] text with
  | (done, .ok rest) => (.string (spelled done), .ok rest)
  | (done, .error fault) => (.broken (Text.brokenFault done fault), .error fault)

def ofWord (value : Raw) (rest : Except Fault (List Char)) : Reading :=
  match rest with
  | .ok rest => (value, .ok rest)
  | .error fault => (.broken fault, .error fault)

/-- The fault that keeps an array or object from being closed. -/
def stopOf : Except Fault (List Char) → Option Fault
  | .ok _ => none
  | .error fault => some fault

mutual

/-- Reads one value. The first argument bounds the steps; twice the length of the text and two
more are enough, since every second step consumes a character. -/
def read : Nat → List Char → Reading
  | 0, _ => (.broken .malformed, .error .malformed)
  | steps + 1, text =>
    match skipBlanks text with
    | [] => (.broken .truncated, .error .truncated)
    | '"' :: rest => ofString rest
    | '[' :: rest =>
      match skipBlanks rest with
      | ']' :: rest => (.array [] none, .ok rest)
      | rest =>
        let (items, next) := readItems steps rest
        (.array items (stopOf next), next)
    | '\x7b' :: rest =>
      match skipBlanks rest with
      | '\x7d' :: rest => (.object [] none, .ok rest)
      | rest =>
        let (entries, next) := readEntries steps rest
        (.object entries (stopOf next), next)
    | 'n' :: rest => ofWord .null (behindWord ['u', 'l', 'l'] rest)
    | 't' :: rest => ofWord (.bool true) (behindWord ['r', 'u', 'e'] rest)
    | 'f' :: rest => ofWord (.bool false) (behindWord ['a', 'l', 's', 'e'] rest)
    | c :: rest =>
      if c = '-' ∨ c.isDigit then ofScan (Numeral.scan (c :: rest))
      else (.broken .malformed, .error .malformed)

/-- Reads the items of an array up to its end. -/
def readItems : Nat → List Char → List Raw × Except Fault (List Char)
  | 0, _ => ([.broken .malformed], .error .malformed)
  | steps + 1, text =>
    match read steps text with
    | (item, .error fault) => ([item], .error fault)
    | (item, .ok rest) =>
      match skipBlanks rest with
      | ',' :: rest =>
        let (items, next) := readItems steps rest
        (item :: items, next)
      | ']' :: rest => ([item], .ok rest)
      | [] => ([item], .error .truncated)
      | _ :: _ => ([item], .error .malformed)

/-- Reads the entries of an object up to its end. -/
def readEntries : Nat → List Char → List (Except Fault String × Raw) × Except Fault (List Char)
  | 0, _ => ([(.error .malformed, .broken .malformed)], .error .malformed)
  | steps + 1, text =>
    match skipBlanks text with
    | '"' :: rest =>
      match Text.scan [] rest with
      | (done, .error fault) =>
        let reading := Text.brokenFault done fault
        ([(.error reading, .broken reading)], .error fault)
      | (done, .ok rest) =>
        let key := match spelled done with
          | some key => .ok key
          | none => .error .malformed
        match skipBlanks rest with
        | ':' :: rest =>
          match read steps rest with
          | (value, .error fault) => ([(key, value)], .error fault)
          | (value, .ok rest) =>
            match skipBlanks rest with
            | ',' :: rest =>
              let (entries, next) := readEntries steps rest
              ((key, value) :: entries, next)
            | '\x7d' :: rest => ([(key, value)], .ok rest)
            | [] => ([(key, value)], .error .truncated)
            | _ :: _ => ([(key, value)], .error .malformed)
        | [] => ([(key, .broken .truncated)], .error .truncated)
        | _ :: _ => ([(key, .broken .malformed)], .error .malformed)
    | [] => ([], .error .truncated)
    | _ :: _ => ([], .error .malformed)

end

/-- Reads the value that a text starts with. -/
def ofChars (text : List Char) : Reading := read (2 * text.length + 2) text

mutual

/-- The tree of a value. -/
def ofJson : Json → Raw
  | .null => .null
  | .bool value => .bool value
  | .number value => .number (some value)
  | .string value => .string (some value)
  | .array items => .array (ofItems items) none
  | .object entries => .object (ofEntries entries) none

def ofItems : List Json → List Raw
  | [] => []
  | x :: xs => ofJson x :: ofItems xs

def ofEntries : List (String × Json) → List (Except Fault String × Raw)
  | [] => []
  | (k, x) :: es => (.ok k, ofJson x) :: ofEntries es

end

/-- No fault where there is no stop. -/
def closed {α : Type} (value : α) : Option Fault → Except Fault α
  | none => .ok value
  | some fault => .error fault

mutual

/-- The value that a tree spells. -/
def toJson : Raw → Except Fault Json
  | .null => .ok .null
  | .bool value => .ok (.bool value)
  | .number (some value) => .ok (.number value)
  | .number none => .error .malformed
  | .string (some value) => .ok (.string value)
  | .string none => .error .malformed
  | .array items stop => do
    let items ← toItems items
    closed (.array items) stop
  | .object entries stop => do
    let entries ← toEntries entries
    closed (.object entries) stop
  | .broken fault => .error fault

def toItems : List Raw → Except Fault (List Json)
  | [] => .ok []
  | x :: xs => do
    let x ← toJson x
    let xs ← toItems xs
    return x :: xs

def toEntries : List (Except Fault String × Raw) → Except Fault (List (String × Json))
  | [] => .ok []
  | (key, x) :: es => do
    let key ← key
    let x ← toJson x
    let es ← toEntries es
    return (key, x) :: es

end

mutual

/-- How many arrays and objects are open at once. -/
def depth : Raw → Nat
  | .array items _ => depthItems items + 1
  | .object entries _ => depthEntries entries + 1
  | _ => 0

def depthItems : List Raw → Nat
  | [] => 0
  | x :: xs => max (depth x) (depthItems xs)

def depthEntries : List (Except Fault String × Raw) → Nat
  | [] => 0
  | (_, x) :: es => max (depth x) (depthEntries es)

end

/-- The value that a tree spells, if it opens no more than `room` arrays and objects at once. The
test may come first: what is too deep is malformed, and a text that ends too early does so behind
all else. -/
def toJsonWithin (room : Nat) (raw : Raw) : Except Fault Json :=
  if raw.depth ≤ room then raw.toJson else .error .malformed

end Raw

end Json

end Derivations

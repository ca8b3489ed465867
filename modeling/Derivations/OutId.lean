import Derivations.Digest.Fingerprint

/-!
# Identifiers of derivations

An `OutId` names a derivation by its content: `<fingerprint>-<name>-<version>`. Names and versions
are free text, so only the fingerprint and the presence of the second hyphen are checked when one
is parsed. An identifier that is not checked can hold any text. A `NodeId` is a place in one
graph and means nothing in another.
-/

namespace Derivations

structure OutId where
  text : String
  deriving DecidableEq, Hashable, Repr

namespace OutId

def of (fingerprint : Fingerprint) (name version : String) : OutId :=
  ⟨fingerprint.text ++ "-" ++ name ++ "-" ++ version⟩

/-- What stands before the first hyphen and what behind it, if there is one. -/
def splitHyphen (text : List Char) : Option (List Char × List Char) :=
  match text.dropWhile (· ≠ '-') with
  | [] => none
  | _ :: rest => some (text.takeWhile (· ≠ '-'), rest)

/-- The identifier with this text, if the text is well formed. -/
def parse? (text : String) : Option OutId :=
  match splitHyphen text.toList with
  | some (head, rest) =>
    if Fingerprint.isValid head && rest.contains '-' then some ⟨text⟩ else none
  | none => none

/-- The fingerprint at the head of an identifier, if there is one. -/
def fingerprint? (out : OutId) : Option String :=
  match splitHyphen out.text.toList with
  | some (head, _) => if Fingerprint.isValid head then some (String.ofList head) else none
  | none => none

/-- The name and version behind the fingerprint; the whole text if there is no fingerprint. -/
def label (out : OutId) : String :=
  match out.fingerprint? with
  | some head => String.ofList (out.text.toList.drop (head.length + 1))
  | none => out.text

/-- Why a text is no identifier. -/
def malformedMessage (text : String) : String :=
  "malformed out identifier '" ++ text ++ "': expected <fingerprint>-<name>-<version>"

end OutId

/-- A place in the graph with that tag. -/
structure NodeId where
  graph : Nat
  index : Nat
  deriving DecidableEq, Hashable, Repr

namespace NodeId

def display (id : NodeId) : String := "#" ++ toString id.index

end NodeId

end Derivations

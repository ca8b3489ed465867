import Derivations.Digest.Sha256

/-!
# Fingerprints

A fingerprint is the first 32 hexadecimal digits of a digest. It stands at the head of an
identifier, long enough that two contents do not share one by accident.
-/

namespace Derivations

structure Fingerprint where
  text : String
  deriving DecidableEq, Repr

namespace Fingerprint

def size : Nat := 32

/-- The fingerprint of a text: of the bytes of its UTF-8 encoding. -/
def ofText (text : String) : Fingerprint :=
  ⟨String.ofList ((Sha256.digest text.toUTF8.toList).hex.take size)⟩

def isHexDigit (c : Char) : Bool := ('0' ≤ c && c ≤ '9') || ('a' ≤ c && c ≤ 'f')

/-- Has a text the shape of a fingerprint? -/
def isValid (text : List Char) : Bool := text.length == size && text.all isHexDigit

end Fingerprint

end Derivations

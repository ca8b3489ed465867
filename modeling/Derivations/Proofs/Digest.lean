import Derivations.OutId

/-!
# The shape of fingerprints

A digest is written with 64 hexadecimal digits, so every fingerprint is 32 of them. As all are of
one length, an identifier determines the fingerprint at its head.
-/

namespace Derivations

namespace Sha256

theorem isHexDigit_hexDigit (n : Nat) : Fingerprint.isHexDigit (hexDigit n) = true := by
  have digits : ∀ m < 16, Fingerprint.isHexDigit m.digitChar = true := by decide
  exact digits (n % 16) (Nat.mod_lt _ (by decide))

theorem length_hex (s : State) : s.hex.length = 64 := rfl

theorem isHexDigit_of_mem_hex {s : State} {c : Char} (h : c ∈ s.hex) :
    Fingerprint.isHexDigit c = true := by
  obtain ⟨w, -, hc⟩ := List.mem_flatMap.1 h
  obtain ⟨shift, -, rfl⟩ := List.mem_map.1 hc
  exact isHexDigit_hexDigit _

end Sha256

namespace Fingerprint

theorem isValid_ofText (text : String) : isValid (ofText text).text.toList = true := by
  rw [ofText, String.toList_ofList, isValid, Bool.and_eq_true, beq_iff_eq, List.all_eq_true]
  constructor
  · rw [List.length_take, Sha256.length_hex]
    rfl
  · exact fun c hc => Sha256.isHexDigit_of_mem_hex (List.mem_of_mem_take hc)

theorem length_ofText (text : String) : (ofText text).text.toList.length = size := by
  have valid := isValid_ofText text
  rw [isValid, Bool.and_eq_true, beq_iff_eq] at valid
  exact valid.1

end Fingerprint

/-- The fingerprint at the head of an identifier can be told from the rest. -/
theorem OutId.fingerprint_eq_of_of_eq {s t name name' version version' : String}
    (h : OutId.of (.ofText s) name version = OutId.of (.ofText t) name' version') :
    Fingerprint.ofText s = Fingerprint.ofText t := by
  have texts := congrArg (fun out : OutId => out.text.toList) h
  simp only [OutId.of, String.toList_append, List.append_assoc] at texts
  have heads := (List.append_inj texts (by rw [Fingerprint.length_ofText,
    Fingerprint.length_ofText])).1
  exact congrArg Fingerprint.mk (String.toList_inj.1 heads)

end Derivations

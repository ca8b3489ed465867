import Derivations.Proofs.Json.Reader
import Derivations.Proofs.Json.Tree
import Derivations.Source.Decode

/-!
# Values read back

The text of a value is read as the value without repeated keys, unless it opens too many arrays and
objects at once. So there are three roads to the canonical form, which treat repeated keys each in a
way of its own: sorting the value as it is, leaving out what is overridden first, and writing
everything and reading it back. They end at the same value, and the canonical texts are read as it.
-/

namespace Derivations

namespace Json

variable {text : String} {v : Json}

/-- A text that spells a value, with nothing behind it. -/
theorem readValue_of_ofChars (h : Raw.ofChars text.toList = (.ofJson v, .ok [])) :
    readValue text =
      if v.depth ≤ maxDepth then .ok v.collapse else .error (.fault .malformed) := by
  simp only [readValue, readAs, h, Raw.toJsonWithin, Raw.depth_ofJson, Raw.toJson_ofJson]
  split <;> rfl

theorem readValue_compact (v : Json) : readValue v.compact =
    if v.depth ≤ maxDepth then .ok v.collapse else .error (.fault .malformed) :=
  readValue_of_ofChars (ofChars_compact v)

theorem readValue_pretty (v : Json) : readValue v.pretty =
    if v.depth ≤ maxDepth then .ok v.collapse else .error (.fault .malformed) :=
  readValue_of_ofChars (ofChars_pretty v)

/-- A value reaches its canonical form by itself, by way of a value without repeated keys, and, if
it is at most 127 levels deep, by way of its text. Both canonical texts are then read as the
canonical form. -/
theorem canonical_roads (v : Json) :
    v.canonicalValue = v.canonical ∧
    (v.depth ≤ 127 →
      (∃ w, readValue v.compact = .ok w ∧ w.canonical = v.canonical) ∧
      readValue v.canonicalText = .ok v.canonical ∧
      readValue v.canonicalPretty = .ok v.canonical) := by
  refine ⟨canonicalValue_eq v, fun shallow => ⟨⟨v.collapse, ?_, canonical_collapse v⟩, ?_⟩⟩
  · have fits : v.depth ≤ maxDepth := shallow
    rw [readValue_compact, if_pos fits]
  · have fits : v.canonical.depth ≤ maxDepth := Nat.le_trans (depth_canonical_le v) shallow
    rw [canonicalText, canonicalPretty, canonicalValue_eq, readValue_compact, readValue_pretty,
      if_pos fits, collapse_canonical]
    exact ⟨rfl, rfl⟩

/-- What is repeated inside an overridden entry is gone with it. -/
example :
    let v : Json := .object [("b", .object [("x", .null), ("x", .bool true)]), ("a", .null),
      ("b", .object [("y", .null), ("x", .null), ("y", .bool false)])]
    v.collapse = .object [("b", .object [("y", .bool false), ("x", .null)]), ("a", .null)] ∧
      v.canonical = .object [("a", .null), ("b", .object [("x", .null), ("y", .bool false)])] :=
  ⟨rfl, rfl⟩

end Json

end Derivations

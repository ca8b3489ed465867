import Derivations.Proofs.Identity.Identify
import Derivations.Proofs.Json.Equality

/-!
# Fingerprints of equal values

Values that are equal in canonical form have one fingerprint, and a file with the one for its
content has the identifier of a file with the other, as long as their floating-point zeros have
the same signs. Two zeros of different signs are equal values with different texts.
-/

namespace Derivations

open Json

namespace Graph

/-- A draft with another source, that is like the one it has, comes to the same identifier or fails
alike. -/
theorem map_out_identify_of_alike {s t : Source} (h : s.Alike t) (hs : s.IsReduced)
    (ht : t.IsReduced) (g : Graph) (draft : Draft) :
    (g.identify { draft with src := s }).map Derivation.out =
      (g.identify { draft with src := t }).map Derivation.out := by
  have encoding (dependencies : List OutId) :
      Identity.encoding ⟨draft.name, draft.version, s, dependencies, draft.permissions,
        draft.postbuild⟩ =
      Identity.encoding ⟨draft.name, draft.version, t, dependencies, draft.permissions,
        draft.postbuild⟩ := Identity.Alike.encoding_eq ⟨rfl, rfl, h, rfl, rfl, rfl⟩ hs ht
  rw [identify_eq, identify_eq]
  by_cases unnamed : draft.name = ""
  · rw [if_pos unnamed, if_pos unnamed]
  rw [if_neg unnamed, if_neg unnamed]
  by_cases unversioned : draft.version = ""
  · rw [if_pos unversioned, if_pos unversioned]
  rw [if_neg unversioned, if_neg unversioned]
  cases draft.deps.mapM g.outOf with
  | error e => rfl
  | ok dependencies =>
    simp only [reduce_of_isReduced hs, reduce_of_isReduced ht, encoding dependencies]
    cases Identity.encoding _ <;> rfl

/-- The case of contents of a file that agree. -/
theorem map_out_identify_of_agree {v w : Json} (h : Agree v w) (g : Graph) (draft : Draft)
    (path : String) :
    (g.identify { draft with src := .writeJson ⟨path, v⟩ }).map Derivation.out =
      (g.identify { draft with src := .writeJson ⟨path, w⟩ }).map Derivation.out := by
  have alike : Source.Alike (.writeJson ⟨path, v⟩) (.writeJson ⟨path, w⟩) := ⟨rfl, h⟩
  exact map_out_identify_of_alike alike trivial trivial g draft

end Graph

namespace Json

/-- Two values have one canonical text exactly if they are equal in canonical form and have the
same signs at their floating-point zeros; then they have one fingerprint, and as contents of a
file they give one identifier. -/
theorem one_text_iff_same_zeros (v w : Json) :
    (v.canonicalText = w.canonicalText ↔
      v.canonical == w.canonical ∧ v.canonical.zeroSigns = w.canonical.zeroSigns) ∧
    (v.canonical == w.canonical → v.canonical.zeroSigns = w.canonical.zeroSigns →
      Fingerprint.ofText v.canonicalText = Fingerprint.ofText w.canonicalText ∧
      ∀ (g : Graph) (draft : Draft) (path : String),
        (g.identify { draft with src := .writeJson ⟨path, v⟩ }).map Derivation.out =
          (g.identify { draft with src := .writeJson ⟨path, w⟩ }).map Derivation.out) := by
  refine ⟨canonicalText_eq_iff_same, fun equal signs => ?_⟩
  have text : v.canonicalText = w.canonicalText := canonicalText_eq_iff_same.2 ⟨equal, signs⟩
  refine ⟨congrArg Fingerprint.ofText text, fun g draft path => ?_⟩
  exact Graph.map_out_identify_of_agree (canonicalText_eq_iff.1 text) g draft path

/-- The order of keys and an overridden entry make no difference. -/
theorem one_text_of_shuffled_keys :
    let zero : Json := .number (.float ⟨true, 0, by decide⟩)
    let v : Json := .object [("b", .null), ("a", zero)]
    let w : Json := .object [("a", .bool true), ("a", zero), ("b", .null)]
    v.canonical == w.canonical ∧ v.canonical.zeroSigns = w.canonical.zeroSigns ∧
      Fingerprint.ofText v.canonicalText = Fingerprint.ofText w.canonicalText := by
  intro zero v w
  have forms : v.canonical == w.canonical ∧ v.canonical.zeroSigns = w.canonical.zeroSigns := by
    decide +kernel
  exact ⟨forms.1, forms.2, ((one_text_iff_same_zeros v w).2 forms.1 forms.2).1⟩

/-- The zeros of the two signs are equal, but have different texts, fingerprints and
identifiers. -/
theorem two_texts_of_zeros :
    let zero (negative : Bool) : Json := .number (.float ⟨negative, 0, by decide⟩)
    let out (negative : Bool) := ((Graph.empty 0).identify
      ⟨"a", "1", .writeJson ⟨"p", zero negative⟩, [], none, none⟩).map Derivation.out
    ((zero false).canonical == (zero true).canonical) = true ∧
      (zero false).canonicalText ≠ (zero true).canonicalText ∧
      Fingerprint.ofText (zero false).canonicalText ≠
        Fingerprint.ofText (zero true).canonicalText ∧
      (out false).toOption.isSome ∧ (out false).toOption ≠ (out true).toOption := by
  decide +kernel

end Json

end Derivations

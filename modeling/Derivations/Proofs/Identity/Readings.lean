import Derivations.Proofs.Identity.Identify
import Derivations.Proofs.OutId

/-!
# Three readings of an identifier

Parsing checks a text, `fingerprint?` reads its head and `label` the rest. All three split it at the
first hyphen. They differ in what they ask of the rest: parsing wants a second hyphen there, the
fingerprint does not. What a draft is identified by is read alike by all three.
-/

namespace Derivations

namespace OutId

/-- A text that begins with a fingerprint is the fingerprint, a hyphen and the label, and it is well
formed exactly if the label holds another hyphen. The identifier of a draft is well formed, begins
with the first digits of the hash, and is labelled with the name and the version. -/
theorem readings (text : String) :
    ((parse? text).isSome ↔
      (OutId.mk text).fingerprint?.isSome ∧ '-' ∈ (OutId.mk text).label.toList) ∧
    (∀ out, parse? text = some out → out = ⟨text⟩) ∧
    (∀ head, (OutId.mk text).fingerprint? = some head →
      head.length = 32 ∧ (∀ c ∈ head.toList, Fingerprint.isHexDigit c = true) ∧
      text = head ++ "-" ++ (OutId.mk text).label) ∧
    ∀ (g : Graph) (draft : Draft) (d : Derivation), g.identify draft = .ok d →
      parse? d.out.text = some d.out ∧
      ∃ hashed, d.identity.encoding = .ok hashed ∧
        d.out.fingerprint? =
          some (.ofList ((Sha256.digest hashed.toUTF8.toList).hex.take 32)) ∧
        d.out.label = draft.name ++ "-" ++ draft.version := by
  refine ⟨parse?_isSome_iff_label, fun out => text_of_parse?, fun head stamp => ?_,
    fun g draft d identified => ?_⟩
  · have valid := (fingerprint?_eq_some_iff.1 stamp).1
    rw [Fingerprint.isValid, Bool.and_eq_true, beq_iff_eq, List.all_eq_true] at valid
    exact ⟨valid.1, valid.2, text_eq_of_fingerprint? stamp⟩
  · have fields := Graph.identify_eq_ok_iff.1 identified
    obtain ⟨hashed, written, out⟩ := fields.out
    rw [out, ← fields.name, ← fields.version]
    exact ⟨isWellFormed_of hashed _ _, hashed, written, fingerprint?_of hashed _ _,
      label_of hashed _ _⟩

/-- Hyphens and slashes in a name or a version do not confuse the readings. -/
theorem readings_of_hyphens : ∃ d,
    (Graph.empty 0).identify ⟨"a-/-ü", "-1-", .blank, [], none, none⟩ = .ok d ∧
    parse? d.out.text = some d.out ∧ d.out.label = "a-/-ü--1-" ∧
    ∃ head, d.out.fingerprint? = some head ∧ d.out.text = head ++ "-" ++ d.out.label := by
  obtain ⟨d, identified⟩ : ∃ d,
      (Graph.empty 0).identify ⟨"a-/-ü", "-1-", .blank, [], none, none⟩ = .ok d :=
    Graph.exists_identify (by decide) (by decide) (List.forall_mem_nil _) trivial
  obtain ⟨-, -, split, ofDraft⟩ := readings d.out.text
  obtain ⟨parsed, hashed, -, stamp, label⟩ := ofDraft _ _ d identified
  exact ⟨d, identified, parsed, label, _, stamp, (split _ stamp).2.2⟩

/-- A text with one hyphen has a fingerprint and does not parse. -/
theorem stamped_of_single_hyphen :
    let text := "0123456789abcdef0123456789abcdef-pkg"
    parse? text = none ∧
      (OutId.mk text).fingerprint? = some "0123456789abcdef0123456789abcdef" ∧
      (OutId.mk text).label = "pkg" ∧
      ¬ ((parse? text).isSome ↔ (OutId.mk text).fingerprint?.isSome) := by
  decide +kernel

end OutId

end Derivations

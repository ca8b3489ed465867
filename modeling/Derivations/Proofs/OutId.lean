import Derivations.Proofs.Digest

/-!
# The shape of identifiers

A text is well formed if it is a fingerprint, a hyphen and a label that holds another hyphen. A
fingerprint holds no hyphen, so the first hyphen ends it. Every identifier that is made of a
fingerprint, a name and a version is well formed.
-/

namespace Derivations

namespace Fingerprint

theorem hyphen_notMem_of_isValid {text : List Char} (h : isValid text = true) : '-' ∉ text := by
  intro mem
  rw [isValid, Bool.and_eq_true, List.all_eq_true] at h
  exact absurd (h.2 '-' mem) (by decide)

end Fingerprint

namespace OutId

theorem splitHyphen_append {head : List Char} (free : '-' ∉ head) (rest : List Char) :
    splitHyphen (head ++ '-' :: rest) = some (head, rest) := by
  have before : ∀ c ∈ head, decide (c ≠ '-') = true :=
    fun c hc => decide_eq_true fun same => free (same ▸ hc)
  rw [splitHyphen, List.dropWhile_append_of_pos before, List.takeWhile_append_of_pos before]
  simp

theorem eq_append_of_splitHyphen {text head rest : List Char}
    (h : splitHyphen text = some (head, rest)) : text = head ++ '-' :: rest := by
  rw [splitHyphen] at h
  split at h
  · nomatch h
  · rename_i c behind dropped
    cases h
    have stop := List.head?_dropWhile_not (fun c => decide (c ≠ '-')) text
    rw [dropped] at stop
    have hyphen : c = '-' := by simpa using stop
    subst hyphen
    rw [← dropped, List.takeWhile_append_dropWhile]

theorem fingerprint?_eq_some_iff {out : OutId} {head : String} : out.fingerprint? = some head ↔
    Fingerprint.isValid head.toList = true ∧ ∃ rest, out.text = head ++ "-" ++ rest := by
  constructor
  · intro h
    unfold fingerprint? at h
    split at h
    · rename_i front rest split
      cases valid : Fingerprint.isValid front with
      | false => simp [valid] at h
      | true =>
        obtain rfl : String.ofList front = head := by simpa [valid] using h
        refine ⟨by rw [String.toList_ofList, valid], .ofList rest, ?_⟩
        rw [← String.toList_inj, eq_append_of_splitHyphen split]
        simp
    · nomatch h
  · rintro ⟨valid, rest, text⟩
    have whole : out.text.toList = head.toList ++ '-' :: rest.toList := by simp [text]
    rw [fingerprint?, whole, splitHyphen_append (Fingerprint.hyphen_notMem_of_isValid valid)]
    simp [valid]

theorem fingerprint?_isSome_iff {out : OutId} : out.fingerprint?.isSome ↔
    ∃ head rest, out.text.toList = head ++ '-' :: rest ∧ Fingerprint.isValid head = true := by
  rw [Option.isSome_iff_exists]
  constructor
  · rintro ⟨head, stamp⟩
    obtain ⟨valid, rest, text⟩ := fingerprint?_eq_some_iff.1 stamp
    exact ⟨head.toList, rest.toList, by simp [text], valid⟩
  · rintro ⟨head, rest, text, valid⟩
    refine ⟨.ofList head, fingerprint?_eq_some_iff.2 ⟨?_, .ofList rest, ?_⟩⟩
    · rw [String.toList_ofList, valid]
    · rw [← String.toList_inj, text]
      simp

theorem parse?_isSome_iff {text : String} : (parse? text).isSome ↔
    ∃ head rest, text.toList = head ++ '-' :: rest ∧ Fingerprint.isValid head = true ∧
      '-' ∈ rest := by
  constructor
  · intro h
    rw [parse?] at h
    split at h
    · rename_i head rest split
      split at h
      · rename_i both
        rw [Bool.and_eq_true, List.contains_iff_mem] at both
        exact ⟨head, rest, eq_append_of_splitHyphen split, both.1, both.2⟩
      · nomatch h
    · nomatch h
  · rintro ⟨head, rest, whole, valid, hyphen⟩
    rw [parse?, whole, splitHyphen_append (Fingerprint.hyphen_notMem_of_isValid valid)]
    simp [valid, hyphen]

theorem text_of_parse? {text : String} {out : OutId} (h : parse? text = some out) :
    out = ⟨text⟩ := by
  rw [parse?] at h
  split at h
  · split at h
    · exact (Option.some.inj h).symm
    · nomatch h
  · nomatch h

/-- An identifier whose text is well formed. -/
def IsWellFormed (out : OutId) : Prop := parse? out.text = some out

instance (out : OutId) : Decidable out.IsWellFormed :=
  inferInstanceAs (Decidable (parse? out.text = some out))

theorem isWellFormed_iff {out : OutId} : out.IsWellFormed ↔ (parse? out.text).isSome := by
  constructor
  · intro h
    rw [IsWellFormed] at h
    rw [h]
    rfl
  · intro h
    obtain ⟨parsed, found⟩ := Option.isSome_iff_exists.1 h
    rw [IsWellFormed, found, text_of_parse? found]

/-- A text that begins with a fingerprint is the fingerprint, a hyphen and the label. -/
theorem text_eq_of_fingerprint? {out : OutId} {head : String} (h : out.fingerprint? = some head) :
    out.text = head ++ "-" ++ out.label := by
  obtain ⟨-, rest, text⟩ := fingerprint?_eq_some_iff.1 h
  have behind : out.text.toList.drop (head.length + 1) = rest.toList := by
    simp [text, ← String.length_toList]
  rw [label, h]
  show out.text = head ++ "-" ++ String.ofList (out.text.toList.drop (head.length + 1))
  rw [behind, String.ofList_toList]
  exact text

/-- A text is well formed if it begins with a fingerprint and its label holds a hyphen. -/
theorem parse?_isSome_iff_label {text : String} : (parse? text).isSome ↔
    (OutId.mk text).fingerprint?.isSome ∧ '-' ∈ (OutId.mk text).label.toList := by
  constructor
  · intro h
    obtain ⟨head, rest, whole, valid, hyphen⟩ := parse?_isSome_iff.1 h
    have stamp : (OutId.mk text).fingerprint? = some (.ofList head) := by
      refine fingerprint?_eq_some_iff.2 ⟨by rw [String.toList_ofList, valid], .ofList rest, ?_⟩
      rw [← String.toList_inj, whole]
      simp
    have label : text.toList = head ++ '-' :: (OutId.mk text).label.toList := by
      have parts := congrArg String.toList (text_eq_of_fingerprint? stamp)
      simpa using parts
    rw [whole, List.append_cancel_left_eq, List.cons.injEq] at label
    exact ⟨Option.isSome_of_eq_some stamp, label.2 ▸ hyphen⟩
  · rintro ⟨stamped, hyphen⟩
    obtain ⟨head, stamp⟩ := Option.isSome_iff_exists.1 stamped
    have valid := (fingerprint?_eq_some_iff.1 stamp).1
    have parts := congrArg String.toList (text_eq_of_fingerprint? stamp)
    exact parse?_isSome_iff.2 ⟨head.toList, _, by simpa using parts, valid, hyphen⟩

theorem toList_of (fingerprint : Fingerprint) (name version : String) :
    (of fingerprint name version).text.toList =
      fingerprint.text.toList ++ '-' :: (name.toList ++ '-' :: version.toList) := by
  simp [of]

theorem isWellFormed_of (text name version : String) :
    (of (.ofText text) name version).IsWellFormed :=
  isWellFormed_iff.2 <| parse?_isSome_iff.2
    ⟨_, _, toList_of _ name version, Fingerprint.isValid_ofText text, by simp⟩

/-- An identifier begins with the fingerprint that it is made of. -/
theorem fingerprint?_of (text name version : String) :
    (of (.ofText text) name version).fingerprint? = some (Fingerprint.ofText text).text := by
  refine fingerprint?_eq_some_iff.2 ⟨Fingerprint.isValid_ofText text, name ++ "-" ++ version, ?_⟩
  simp only [of, String.append_assoc]

/-- Behind the fingerprint stand the name and the version. -/
theorem label_of (text name version : String) :
    (of (.ofText text) name version).label = name ++ "-" ++ version := by
  have parts := text_eq_of_fingerprint? (fingerprint?_of text name version)
  have whole : (of (.ofText text) name version).text =
      (Fingerprint.ofText text).text ++ "-" ++ (name ++ "-" ++ version) := by
    simp only [of, String.append_assoc]
  exact (String.append_right_inj _).1 (parts.symm.trans whole)

theorem IsWellFormed.fingerprint? {out : OutId} (h : out.IsWellFormed) :
    out.fingerprint?.isSome := by
  obtain ⟨head, rest, whole, valid, -⟩ := parse?_isSome_iff.1 (isWellFormed_iff.1 h)
  exact fingerprint?_isSome_iff.2 ⟨head, rest, whole, valid⟩

end OutId

end Derivations

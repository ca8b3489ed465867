import Derivations.Identity
import Derivations.Proofs.Json.Printer
import Derivations.Proofs.Result
import Derivations.Proofs.Source.Encode

/-!
# The text of an identity

The text that the fingerprint is taken of can be read in one way only: two identities have one
text exactly if they have equal fields, with sources that are alike.
-/

namespace Derivations

open Json

namespace Identity

/-- The fields that an identity is written with, given what its source is written as. -/
def fields (i : Identity) (src : Json) : Fields :=
  [("name", some (.string i.name)), ("version", some (.string i.version)), ("src", some src),
    ("dependencies", some (.ofOuts i.dependencies)), ("permissions", i.permissions.map .ofSet),
    ("postbuild", i.postbuild.map .string)]

theorem toJson_eq (i : Identity) :
    i.toJson = i.src.toJson.map fun src => .object (present (i.fields src)) := by
  rw [toJson]
  cases i.src.toJson with
  | error cause => rfl
  | ok src => simp [fields, present, bind, Except.bind, pure, Except.pure, Except.map]

/-- Equal fields, and sources that are alike. -/
structure Alike (i j : Identity) : Prop where
  name : i.name = j.name
  version : i.version = j.version
  src : i.src.Alike j.src
  dependencies : i.dependencies = j.dependencies
  permissions : i.permissions = j.permissions
  postbuild : i.postbuild = j.postbuild

/-- An identity is written exactly if its source refers to no node. -/
theorem exists_encoding {i : Identity} (h : i.src.IsReduced) : ∃ text, i.encoding = .ok text := by
  rw [encoding, toJson_eq, Source.toJson_eq h]
  exact ⟨_, rfl⟩

theorem encoding_eq_ok {i : Identity} {text : String} (h : i.encoding = .ok text) :
    ∃ src, i.src.toJson = .ok src ∧
      text = (Json.object (present (i.fields src))).canonicalText := by
  rw [encoding, toJson_eq] at h
  obtain ⟨value, whole, same⟩ := Except.map_eq_ok_iff.1 h
  obtain ⟨src, written, rfl⟩ := Except.map_eq_ok_iff.1 whole
  exact ⟨src, written, same.symm⟩

/-- Two identities have one text exactly if they are alike. -/
theorem encoding_eq_iff {i j : Identity} (hi : i.src.IsReduced) (hj : j.src.IsReduced)
    {s t : String} (hs : i.encoding = .ok s) (ht : j.encoding = .ok t) : s = t ↔ i.Alike j := by
  obtain ⟨v, hv, rfl⟩ := encoding_eq_ok hs
  obtain ⟨w, hw, rfl⟩ := encoding_eq_ok ht
  have sources := Source.agree_toJson_iff hi hj hv hw
  rw [canonicalText_eq_iff, agree_present (by rfl) (by simp [fields])]
  simp only [fields, List.map_cons, List.map_nil, List.forall₂_cons, Option.rel_some_some,
    agree_string, sources, faithful_ofOuts _ _, faithful_ofSet.map, faithful_string.map]
  constructor
  · rintro ⟨name, version, src, dependencies, permissions, postbuild, -⟩
    exact ⟨name, version, src, dependencies, permissions, postbuild⟩
  · rintro ⟨name, version, src, dependencies, permissions, postbuild⟩
    exact ⟨name, version, src, dependencies, permissions, postbuild, .nil⟩

/-- Identities that are alike are written alike. -/
theorem Alike.encoding_eq {i j : Identity} (h : i.Alike j) (hi : i.src.IsReduced)
    (hj : j.src.IsReduced) : i.encoding = j.encoding := by
  obtain ⟨s, written⟩ := exists_encoding hi
  obtain ⟨t, written'⟩ := exists_encoding hj
  rw [written, written', (encoding_eq_iff hi hj written written').2 h]

end Identity

end Derivations

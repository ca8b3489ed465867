import Derivations.Proofs.Identity.Equality
import Derivations.Proofs.Source.Steady

/-!
# Reading what was read

A source depends on no more of a text than the value that the text is read as, and of the value
only on its canonical form: texts that are read as values of one canonical text give sources of
one encoding. What is written for a source that was read is accepted again. The plain text gives
the source as it was, and the canonical text gives it with its content in canonical form.
-/

namespace Derivations

open Json

namespace Json

variable {text : String} {v : Json}

/-- The tree of a text means the value that the text is read as. -/
theorem means_of_readValue (h : readValue text = .ok v) :
    (Raw.ofChars text.toList).1.Means v := by
  obtain ⟨u, within, rfl⟩ := Except.map_eq_ok_iff.1 (orFault_eq_ok.1 (decode_of_readAs h))
  unfold Raw.toJsonWithin at within
  split at within
  · exact Raw.means_collapse within
  · nomatch within

theorem Raw.Means.of_agree {raw : Raw} {w : Json} (h : raw.Means v) (agree : Agree v w)
    (collapsed : w.IsCollapsed) : raw.Means w := by
  obtain ⟨u, spelled, same⟩ := h.agree
  exact ⟨⟨u, spelled, agree_iff.2 ((agree_iff.1 same).trans (agree_iff.1 agree))⟩, collapsed⟩

theorem isCollapsed_present {fs : Fields} (distinct : (fs.map Prod.fst).Nodup)
    (h : ∀ f ∈ fs, ∀ v ∈ f.2, v.IsCollapsed) : (Json.object (present fs)).IsCollapsed :=
  isCollapsed_object.2 ⟨nodup_present distinct, fun e mem => h _ (mem_present.1 mem) e.2 rfl⟩

end Json

namespace Source

variable {s t : Source} {v : Json}

/-- The text that the fingerprint of a source is taken of. -/
def encoding (s : Source) : Except Unreduced String := s.toJson.map canonicalText

def fingerprint (s : Source) : Except Unreduced Fingerprint := s.encoding.map .ofText

theorem exists_encoding (h : s.IsReduced) : ∃ text, s.encoding = .ok text := by
  rw [encoding, toJson_eq h]
  exact ⟨_, rfl⟩

/-- Sources that are alike are written alike. -/
theorem Alike.encoding_eq (h : s.Alike t) (hs : s.IsReduced) (ht : t.IsReduced) :
    s.encoding = t.encoding := by
  have agree := (agree_toJson_iff hs ht (toJson_eq hs) (toJson_eq ht)).2 h
  rw [encoding, encoding, toJson_eq hs, toJson_eq ht]
  exact congrArg Except.ok (canonicalText_eq_iff.2 agree)

/-- Two texts that are accepted as sources, and are read as values of one canonical text, give
sources of one encoding. In place of one another they lead to the same identifier, or fail alike,
in every draft and graph. -/
theorem one_encoding_of_one_value {t₁ t₂ : String} {s₁ s₂ : Source} {v₁ v₂ : Json}
    (accepted₁ : Source.read t₁ = .ok s₁) (accepted₂ : Source.read t₂ = .ok s₂)
    (value₁ : readValue t₁ = .ok v₁) (value₂ : readValue t₂ = .ok v₂)
    (same : v₁.canonicalText = v₂.canonicalText) :
    (∃ text, s₁.encoding = .ok text ∧ s₂.encoding = .ok text) ∧
      ∀ (g : Graph) (draft : Draft),
        (g.identify { draft with src := s₁ }).map Derivation.out =
          (g.identify { draft with src := s₂ }).map Derivation.out := by
  have means₂ := means_of_readValue value₂
  have means₁ := (means_of_readValue value₁).of_agree (canonicalText_eq_iff.1 same)
    means₂.collapsed
  -- both sources are like the one that the second value is
  obtain ⟨s, decoded, alike₁⟩ := steady_source _ means₁ (decode_of_readAs accepted₁)
  obtain ⟨s', decoded', alike₂⟩ := steady_source _ means₂ (decode_of_readAs accepted₂)
  obtain rfl : s = s' := Except.ok.inj (decoded.symm.trans decoded')
  have reduced := (isClean_of_decode decoded).1
  have reduced₁ := (accepted_of_read accepted₁).reduced
  have reduced₂ := (accepted_of_read accepted₂).reduced
  constructor
  · obtain ⟨text, encoded⟩ := exists_encoding reduced
    exact ⟨text, (alike₁.encoding_eq reduced₁ reduced).trans encoded,
      (alike₂.encoding_eq reduced₂ reduced).trans encoded⟩
  · intro g draft
    rw [Graph.map_out_identify_of_alike alike₁ reduced₁ reduced,
      Graph.map_out_identify_of_alike alike₂ reduced₂ reduced]

def orderedText : String :=
  "\x7b\"type\":\"write_json\",\"path\":\"a\",\"content\":\x7b\"b\":1.0,\"a\":[]\x7d\x7d"

/-- The same value but for the order of members, an overridden one, and the spelling of a number
and a name. -/
def shuffledText : String :=
  "\x7b\"content\": \x7b\"a\": 0, \"a\": [], \"b\": 1e0\x7d,\n\"\\u0070ath\": \"a\", " ++
    "\"type\": \"write_json\"\x7d"

theorem one_encoding_of_shuffled : ∃ s₁ s₂ text, Source.read orderedText = .ok s₁ ∧
    Source.read shuffledText = .ok s₂ ∧ s₁.encoding = .ok text ∧ s₂.encoding = .ok text := by
  have facts : ∃ s₁ ∈ (Source.read orderedText).toOption,
      ∃ s₂ ∈ (Source.read shuffledText).toOption,
      ∃ v₁ ∈ (readValue orderedText).toOption, ∃ v₂ ∈ (readValue shuffledText).toOption,
        v₁.canonicalText = v₂.canonicalText := by
    decide +kernel
  obtain ⟨s₁, accepted₁, s₂, accepted₂, v₁, value₁, v₂, value₂, same⟩ := facts
  rw [Option.mem_def, Except.toOption_eq_some_iff] at accepted₁ accepted₂ value₁ value₂
  obtain ⟨⟨text, first, second⟩, -⟩ :=
    one_encoding_of_one_value accepted₁ accepted₂ value₁ value₂ same
  exact ⟨s₁, s₂, text, accepted₁, accepted₂, first, second⟩

/-! ## What is written for a source -/

theorem isCollapsed_ofStrings (items : List String) : (ofStrings items).IsCollapsed :=
  isCollapsed_array.2 (List.forall_mem_map.2 fun _ _ => rfl)

theorem isCollapsed_ofOuts (outs : List OutId) : (ofOuts outs).IsCollapsed :=
  isCollapsed_array.2 (List.forall_mem_map.2 fun _ _ => rfl)

theorem isCollapsed_ofMap (m : StringMap String) : (ofMap m).IsCollapsed := by
  refine isCollapsed_object.2 ⟨?_, List.forall_mem_map.2 fun _ _ => rfl⟩
  rw [List.map_map]
  exact m.increasing.nodup_keys

theorem isCollapsed_launcher (x : Launcher) : x.toJson.IsCollapsed := by
  rw [Launcher.toJson_eq]
  refine isCollapsed_present (by simp [Launcher.fields]) ?_
  simp [Launcher.fields, IsCollapsed, collapse]

theorem isCollapsed_command (x : Command) : x.toJson.IsCollapsed := by
  have args : ∀ items ∈ x.args, (ofStrings items).IsCollapsed := fun items _ =>
    isCollapsed_ofStrings items
  have umu : ∀ umu ∈ x.umu, umu.toJson.IsCollapsed := fun umu _ => isCollapsed_launcher umu
  have entrypoint : (Json.string x.entrypoint).IsCollapsed := rfl
  rw [Command.toJson_eq]
  refine isCollapsed_present (by simp [Command.fields]) ?_
  simp_all [Command.fields]

/-- What a source is written as repeats no key, unless its content does. -/
theorem isCollapsed_fields (content : ∀ v ∈ s.content?, v.IsCollapsed) :
    (Json.object (present s.taggedFields)).IsCollapsed := by
  refine isCollapsed_present s.distinct_taggedFields (List.forall_mem_cons.2 ⟨?_, ?_⟩)
  · rintro v ⟨⟩
    rfl
  · exact forall_fields (fun _ => rfl) (fun _ => rfl) isCollapsed_ofStrings isCollapsed_ofOuts
      isCollapsed_ofMap isCollapsed_command content

/-- The content that is decoded from an object is that of its entry, without repeated keys. -/
theorem content_of_object {es : List (String × Json)} {room : Nat}
    (h : decode room (.ofJson (.object es)) = .ok s) (mem : v ∈ s.content?) :
    ∃ w, es.lookup "content" = some w ∧ v = w.collapse := by
  obtain ⟨inner, kind, -, ⟨entries, stop, tree, -, made⟩ | ⟨_, _, _, tree, -⟩⟩ := decode_cases h
  · cases tree
    obtain ⟨raw, found, decoded⟩ :=
      content_of_ofEntries (Record.decodeObject_eq_ok.1 made).2.2 mem
    rw [untagged_ofEntries, findEntry_ofEntries, lookup_filter, if_neg (by decide)] at found
    obtain ⟨w, there, rfl⟩ := Option.map_eq_some_iff.1 found
    rw [Decoder.value, Raw.toJson_ofJson] at decoded
    exact ⟨w, there, (Except.ok.inj decoded).symm⟩
  · cases tree

/-- Sources that are alike and have one content, if they have any, are one source. -/
theorem eq_of_alike (h : s.canonical.Alike t)
    (contents : ∀ v ∈ s.content?, ∀ w ∈ t.content?, w = v) : t = s := by
  cases s with
  | writeJson x =>
    cases t with
    | writeJson y =>
      have content : y.content = x.content := contents _ rfl _ rfl
      obtain ⟨path, -⟩ := h
      cases x
      cases y
      simp_all
    | _ => exact h.elim
  | writeToml x =>
    cases t with
    | writeToml y =>
      have content : y.content = x.content := contents _ rfl _ rfl
      obtain ⟨path, -⟩ := h
      cases x
      cases y
      simp_all
    | _ => exact h.elim
  | _ => cases t <;> simp_all [Alike, canonical]

/-- A source without repeated keys in its content reads back as it is. -/
theorem decode_toJson {room : Nat} (two : 2 ≤ room) (reduced : s.IsReduced)
    (outs : ∀ out ∈ s.references, out.IsWellFormed)
    (content : ∀ v ∈ s.content?, v.IsCollapsed ∧ v.depth ≤ room) :
    decode (room + 1) (.ofJson (.object (present s.taggedFields))) = .ok s := by
  have collapsed := isCollapsed_fields fun v mem => (content v mem).1
  have canonical := decodes_source two reduced outs fun v mem => (content v mem).2
  have means := Raw.means_ofJson (agree_canonical _) collapsed
  obtain ⟨t, decoded, alike⟩ := steady_source _ means canonical
  have entry : ∀ v ∈ s.content?, (present s.taggedFields).lookup "content" = some v := by
    intro v mem
    have field : s.taggedFields.lookup "content" = some (some v) := by
      cases s <;> cases mem <;> rfl
    rw [← lastValue?_eq_lookup (nodup_present s.distinct_taggedFields),
      lastValue?_present s.distinct_taggedFields, field]
    rfl
  have contents : ∀ v ∈ s.content?, ∀ w ∈ t.content?, w = v := by
    intro v mem w mem'
    obtain ⟨u, there, rfl⟩ := content_of_object decoded mem'
    obtain rfl := Option.some.inj ((entry v mem).symm.trans there)
    exact (content _ mem).1
  rw [decoded, eq_of_alike alike contents]

/-- A source that is accepted, in whatever way it is spelled, names well-formed identifiers only,
and what is written for it is accepted again: the plain text gives the very source, with the keys
of its content in their order, and the canonical text gives it with its content in canonical form.
That has the fingerprint of the source. -/
theorem read_of_accepted {text : String} (h : read text = .ok s) :
    (∀ out ∈ s.references, out.IsWellFormed) ∧
      ∃ v, s.toJson = .ok v ∧ read v.compact = .ok s ∧ read v.canonicalText = .ok s.canonical ∧
        ∃ fingerprint, s.fingerprint = .ok fingerprint ∧
          s.canonical.fingerprint = .ok fingerprint := by
  have accepted := accepted_of_read h
  have reduced := accepted.reduced
  have collapsed := isCollapsed_of_decode (decode_of_readAs h)
  have content : ∀ v ∈ s.content?, v.depth ≤ maxDepth - 1 := fun v mem => (accepted.content v mem).2
  have plain : decode maxDepth (.ofJson (.object (present s.taggedFields))) = .ok s :=
    decode_toJson (by decide) reduced accepted.references
      fun v mem => ⟨collapsed v mem, content v mem⟩
  refine ⟨accepted.references, _, toJson_eq reduced, readAs_compact plain,
    read_text reduced accepted.references content (toJson_eq reduced), ?_⟩
  obtain ⟨encoded, written⟩ := exists_encoding reduced
  have written' := (alike_canonical s).encoding_eq (isReduced_canonical reduced) reduced
  refine ⟨.ofText encoded, ?_, ?_⟩
  · rw [fingerprint, written]
    rfl
  · rw [fingerprint, written', written]
    rfl

/-- A file with a note that nobody asks for and a key that is overridden. -/
def annotatedText : String :=
  "\x7b \"path\": \"a\", \"note\": [1.5],\n\"content\": \x7b\"b\": 1, \"a\": null, " ++
    "\"b\": 2\x7d, \"type\": \"write_toml\"\x7d"

def plainText : String :=
  "\x7b\"type\":\"write_toml\",\"path\":\"a\",\"content\":\x7b\"b\":2,\"a\":null\x7d\x7d"

def settledText : String :=
  "\x7b\"content\":\x7b\"a\":null,\"b\":2\x7d,\"path\":\"a\",\"type\":\"write_toml\"\x7d"

/-- The note is gone and the key has its last value, at its first place in the plain text. -/
theorem read_of_annotated : ∃ s, read annotatedText = .ok s ∧ read plainText = .ok s ∧
    read settledText = .ok s.canonical := by
  have texts : ∃ s ∈ (read annotatedText).toOption, ∃ v ∈ s.toJson.toOption,
      v.compact = plainText ∧ v.canonicalText = settledText := by
    decide +kernel
  obtain ⟨s, accepted, v, written, plain, canonical⟩ := texts
  rw [Option.mem_def, Except.toOption_eq_some_iff] at accepted written
  obtain ⟨-, w, written', again, settled, -⟩ := read_of_accepted accepted
  obtain rfl : v = w := Except.ok.inj (written.symm.trans written')
  rw [plain] at again
  rw [canonical] at settled
  exact ⟨s, accepted, again, settled⟩

end Source

end Derivations

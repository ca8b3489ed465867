import Derivations.Proofs.Identity.Encoding
import Derivations.Proofs.Json.Reader
import Derivations.Proofs.Source.Steady
import Derivations.Recipe

/-!
# The text of a recipe

A recipe is written with the fields of its identity behind the identifier. So derivations of one
identifier and one content have one recipe text, whatever order the keys of their content stand
in and wherever the derivations are. The text reads back as the recipe with its content in
canonical form, if the identifiers in it are well formed and the content leaves room for the two
objects around it.
-/

namespace Derivations

open Json

namespace Recipe

/-- The fields that a recipe is written with, given what its source is written as. -/
def fields (r : Recipe) (src : Json) : Fields :=
  ("out", some (.ofOut r.out)) :: r.identity.fields src

theorem toJson_eq (r : Recipe) :
    r.toJson = r.src.toJson.map fun src => .object (present (r.fields src)) := by
  rw [toJson]
  cases r.src.toJson with
  | error cause => rfl
  | ok src =>
    simp [fields, identity, Identity.fields, present, bind, Except.bind, pure, Except.pure,
      Except.map]

theorem distinct_fields (r : Recipe) (src : Json) : ((r.fields src).map Prod.fst).Nodup := by
  simp [fields, Identity.fields]

/-- A recipe is written exactly if its source refers to no node. -/
theorem text_eq {r : Recipe} (h : r.src.IsReduced) : r.text = .ok
    (Json.object (present (r.fields (.object (present r.src.taggedFields))))).canonicalPretty := by
  rw [text, toJson_eq, Source.toJson_eq h]
  rfl

/-- One identifier and one content, one recipe text. -/
theorem text_eq_of_alike {r s : Recipe} (hr : r.src.IsReduced) (hs : s.src.IsReduced)
    (out : r.out = s.out) (content : r.identity.Alike s.identity) : r.text = s.text := by
  have sources := (Source.agree_toJson_iff hr hs (Source.toJson_eq hr) (Source.toJson_eq hs)).2
    content.src
  rw [text_eq hr, text_eq hs]
  refine congrArg Except.ok (canonicalPretty_eq_of_agree ?_)
  refine (agree_present (by rfl) (distinct_fields _ _)).2 ?_
  simp only [fields, Identity.fields, List.map_cons, List.map_nil, List.forall₂_cons,
    Option.rel_some_some, agree_string, faithful_ofOuts _ _, faithful_ofOut _ _,
    faithful_ofSet.map, faithful_string.map]
  exact ⟨out, content.name, content.version, sources, content.dependencies, content.permissions,
    content.postbuild, .nil⟩

end Recipe

theorem Derivation.recipeText_eq {d e : Derivation} (hd : d.src.IsReduced) (he : e.src.IsReduced)
    (out : d.out = e.out) (content : d.identity.Alike e.identity) :
    d.recipe.text = e.recipe.text :=
  Recipe.text_eq_of_alike (r := d.recipe) (s := e.recipe) hd he out content

namespace Recipe

/-- The recipe with the content of a file in canonical form. -/
def canonical (r : Recipe) : Recipe := { r with src := r.src.canonical }

/-- How deep the content of a file can be in a recipe that is read. -/
def maxContent : Nat := Json.maxDepth - 2

/-- A recipe whose text can be read. -/
structure IsReadable (r : Recipe) : Prop where
  reduced : r.src.IsReduced
  out : r.out.IsWellFormed
  references : ∀ out ∈ r.references, out.IsWellFormed
  content : ∀ v ∈ r.src.content?, v.depth ≤ maxContent

theorem takes_record {r : Recipe} (h : r.IsReadable) :
    (record (Json.maxDepth - 1)).Takes (r.fields (.object (present r.src.taggedFields)))
      r.canonical := by
  have dependencies : ∀ out ∈ r.dependencies, out.IsWellFormed :=
    fun out mem => h.references out (List.mem_append_left _ mem)
  have src : Decodes (Source.decode (maxContent + 1)) _ r.src.canonical :=
    Source.decodes_source (by decide) h.reduced
      (fun out mem => h.references out (List.mem_append_right _ mem)) h.content
  exact (((((((takes_pure _).seq (takes_required rfl (decodes_out h.out))).seq
    (takes_required rfl (decodes_string r.name))).seq
    (takes_required rfl (decodes_string r.version))).seq
    (takes_required rfl src)).seq
    (takes_defaulted rfl (decodes_outs dependencies))).seq
    (takes_optional rfl decodes_set nofun)).seq
    (takes_optional rfl decodes_string nofun)

/-- The tree of a recipe's text. -/
theorem ofChars_text {r : Recipe} (reduced : r.src.IsReduced) {text : String}
    (spelled : r.text = .ok text) : Raw.ofChars text.toList =
      (.object (Raw.ofEntries (settled (r.fields (.object (present r.src.taggedFields))))) none,
        .ok []) := by
  rw [text_eq reduced, Except.ok.injEq] at spelled
  rw [← spelled, canonicalPretty, canonicalValue_eq, ofChars_pretty, ofJson_present]

/-- The text of a recipe reads back as the recipe. -/
theorem read_text {r : Recipe} (h : r.IsReadable) {text : String} (spelled : r.text = .ok text) :
    Recipe.read text = .ok r.canonical := by
  have decoded := decodeObject_of_takes (nodup_settled _) (lookup_settled (r.distinct_fields _))
    (takes_record h)
  simp only [Recipe.read, readAs, ofChars_text h.reduced spelled, decode, decoded]
  rfl

/-- A recipe whose text can be read has a content that leaves room for the two objects. -/
theorem depth_of_read {r t : Recipe} (reduced : r.src.IsReduced) {text : String}
    (spelled : r.text = .ok text) (h : Recipe.read text = .ok t) :
    ∀ v ∈ r.src.content?, v.canonical.depth ≤ maxContent := by
  have decoded := decode_of_readAs h
  rw [ofChars_text reduced spelled] at decoded
  unfold decode at decoded
  dsimp only at decoded
  obtain ⟨-, -, decoded⟩ := Record.decodeObject_eq_ok.1 decoded
  -- the source is behind three other fields, counted from the last
  obtain ⟨_, _, decoded, -, -⟩ := Record.ofEntries_seq_eq_ok.1 decoded
  obtain ⟨_, _, decoded, -, -⟩ := Record.ofEntries_seq_eq_ok.1 decoded
  obtain ⟨_, _, decoded, -, -⟩ := Record.ofEntries_seq_eq_ok.1 decoded
  obtain ⟨_, src, -, decoded, -⟩ := Record.ofEntries_seq_eq_ok.1 decoded
  obtain ⟨raw, found, decoded⟩ := Record.ofEntries_required decoded
  rw [findEntry_ofEntries, lookup_settled (r.distinct_fields _)] at found
  obtain rfl : Raw.ofJson (Json.object (present r.src.taggedFields)).canonical = raw :=
    Option.some.inj found
  exact Source.depth_of_decode decoded

/-- The recipe that is read back is of the identity that was written, and is written alike. -/
theorem alike_canonical (r : Recipe) : r.canonical.identity.Alike r.identity :=
  ⟨rfl, rfl, Source.alike_canonical r.src, rfl, rfl, rfl⟩

theorem encoding_canonical {r : Recipe} (h : r.src.IsReduced) :
    r.canonical.identity.encoding = r.identity.encoding :=
  r.alike_canonical.encoding_eq (Source.isReduced_canonical h) h

theorem text_canonical {r : Recipe} (h : r.src.IsReduced) : r.canonical.text = r.text :=
  text_eq_of_alike (Source.isReduced_canonical h) h rfl r.alike_canonical

theorem references_canonical (r : Recipe) : r.canonical.references = r.references := by
  rw [references, references, canonical, Source.references_canonical]

/-! ## What a reader of recipes accepts -/

theorem gives_accepted : (record (maxContent + 1)).Gives
    fun r => r.IsReadable ∧ ∀ v ∈ r.src.content?, v.IsCollapsed := by
  have src : (Record.required "src" (Source.decode (maxContent + 1))).Gives
      fun s => s.Accepted maxContent ∧ ∀ v ∈ s.content?, v.IsCollapsed :=
    Record.gives_required fun _ _ decoded =>
      ⟨Source.accepted_of_decode decoded, Source.isCollapsed_of_decode decoded⟩
  have dependencies : (Record.defaulted "dependencies" (Decoder.list Decoder.out) []).Gives
      fun outs => ∀ out ∈ outs, OutId.IsWellFormed out :=
    Record.gives_defaulted (fun _ _ => forall_of_list fun _ _ => isWellFormed_of_decode)
      (List.forall_mem_nil _)
  refine .seq (.seq (.with (.with (.seq (.seq (.with (Record.gives_pure ?_)
    (Record.gives_required fun _ _ => isWellFormed_of_decode)) _) _) src) dependencies) _) _
  intro out whole name version src ⟨accepted, collapsed⟩ dependencies wholes permissions postbuild
  refine ⟨⟨accepted.reduced, whole, fun ref mem => ?_, fun v mem => (accepted.content v mem).2⟩,
    collapsed⟩
  exact (List.mem_append.1 mem).elim (wholes ref) (accepted.references ref)

/-- A recipe that is accepted, as an object or as an array, can be read from its own text, and
repeats no key in its content. -/
theorem accepted_of_read {text : String} {r : Recipe} (h : Recipe.read text = .ok r) :
    r.IsReadable ∧ ∀ v ∈ r.src.content?, v.IsCollapsed := by
  have decoded := decode_of_readAs h
  unfold decode at decoded
  split at decoded
  · exact gives_accepted.ofEntries (Record.decodeObject_eq_ok.1 decoded).2.2
  · obtain ⟨⟨r', rest⟩, made, ended⟩ := Except.bind_eq_ok_iff.1 decoded
    dsimp only at ended
    split at ended
    · obtain rfl := Raw.eq_of_closed (orFault_eq_ok.1 ended)
      exact gives_accepted.ofItems made
    · nomatch ended
  · exact absurd decoded (Raw.mismatch_ne_ok _ _)

end Recipe

end Derivations

import Derivations.Proofs.Json.Decode
import Derivations.Proofs.Json.Reader
import Derivations.Proofs.Source.Encode
import Derivations.Source.Decode

/-!
# Sources read back

A source that is written in canonical form and read again is the same source, with the content of
a file in canonical form: whatever its kind, each field decodes to what was written, and the tag
says which fields to expect. It takes that all identifiers in it are well formed and that there is
room for what is nested in it.
-/

namespace Derivations

open Json

namespace Source

/-- The source with the content of a file in canonical form. -/
def canonical : Source → Source
  | .writeJson x => .writeJson ⟨x.path, x.content.canonical⟩
  | .writeToml x => .writeToml ⟨x.path, x.content.canonical⟩
  | s => s

@[simp] theorem references_canonical (s : Source) : s.canonical.references = s.references := by
  cases s <;> rfl

/-- The content of a file counts by its canonical form. -/
theorem alike_canonical (s : Source) : s.canonical.Alike s := by
  cases s with
  | writeJson file => exact ⟨rfl, agree_canonical file.content⟩
  | writeToml file => exact ⟨rfl, agree_canonical file.content⟩
  | blank => trivial
  | _ => rfl

theorem isReduced_canonical {s : Source} (h : s.IsReduced) : s.canonical.IsReduced := by
  cases s <;> exact h

/-! ## The records of the kinds -/

theorem decodes_method (m : HttpMethod) : Decodes HttpMethod.decode (.string m.name) m := by
  cases m <;> rfl

theorem decodes_launcher (x : Launcher) : Decodes (launcher.decode "Umu") x.toJson x := by
  rw [Launcher.toJson_eq]
  refine decodes_record (by simp [Launcher.fields]) ?_
  exact ((takes_pure _).seq (takes_required rfl (decodes_string _))).seq
    (takes_required rfl (decodes_string _))

theorem decodes_command (x : Command) : Decodes (command.decode "RunCommand") x.toJson x := by
  rw [Command.toJson_eq]
  refine decodes_record (by simp [Command.fields]) ?_
  exact (((takes_pure _).seq (takes_required rfl (decodes_string _))).seq
    (takes_optional rfl decodes_strings (by rintro _ ⟨⟩))).seq
    (takes_optional rfl decodes_launcher (by rintro _ ⟨⟩))

/-- The record of each kind takes the fields of a source of that kind. -/
theorem takes_record {s : Source} (reduced : s.IsReduced)
    (outs : ∀ out ∈ s.references, out.IsWellFormed) :
    (record s.kind).2.Takes s.fields s.canonical := by
  cases s with
  | fetchUrl x =>
    refine Record.Takes.map _ ?_
    exact ((((((((takes_pure _).seq (takes_required rfl (decodes_string x.url))).seq
      (takes_required rfl (decodes_string x.sha256))).seq
      (takes_optional rfl decodes_bool nofun)).seq
      (takes_optional rfl decodes_method nofun)).seq
      (takes_optional rfl decodes_map nofun)).seq
      (takes_optional rfl decodes_map nofun)).seq
      (takes_optional rfl decodes_string nofun)).seq
      (takes_optional rfl decodes_string nofun)
  | fetchGit x =>
    refine Record.Takes.map _ ?_
    exact ((((takes_pure _).seq (takes_required rfl (decodes_string x.url))).seq
      (takes_optional rfl decodes_string nofun)).seq
      (takes_optional rfl decodes_string nofun)).seq
      (takes_optional rfl decodes_string nofun)
  | fetchLocal x =>
    refine Record.Takes.map _ ?_
    exact (((takes_pure _).seq (takes_required rfl (decodes_string x.path))).seq
      (takes_optional rfl decodes_strings nofun)).seq
      (takes_optional rfl decodes_string nofun)
  | fetchVase x =>
    refine Record.Takes.map _ ?_
    exact (takes_pure _).seq (takes_required rfl (decodes_string x.vase))
  | writeText x =>
    refine Record.Takes.map _ ?_
    exact ((takes_pure _).seq (takes_required rfl (decodes_string x.path))).seq
      (takes_required rfl (decodes_string x.content))
  | writeJson x =>
    refine Record.Takes.map Source.writeJson ?_
    exact ((takes_pure _).seq (takes_required rfl (decodes_string x.path))).seq
      (takes_required rfl (decodes_value x.content))
  | writeToml x =>
    refine Record.Takes.map Source.writeToml ?_
    exact ((takes_pure _).seq (takes_required rfl (decodes_string x.path))).seq
      (takes_required rfl (decodes_value x.content))
  | fetchBuild x =>
    refine Record.Takes.map _ ?_
    exact ((((((takes_pure _).seq (takes_required rfl (decodes_outs outs))).seq
      (takes_optional rfl decodes_string nofun)).seq
      (takes_optional rfl decodes_string nofun)).seq
      (takes_optional rfl decodes_strings nofun)).seq
      (takes_optional rfl decodes_map nofun)).seq
      (takes_optional rfl decodes_set nofun)
  | runInBuild x =>
    obtain ⟨build, command, outputs⟩ := x
    cases build with
    | node id => exact reduced.elim
    | out target =>
      have target : target.IsWellFormed := outs target List.mem_cons_self
      refine Record.Takes.map Source.runInBuild ?_
      exact (((takes_pure _).seq (takes_required rfl (decodes_out target))).seq
        (takes_required rfl (decodes_command command))).seq
        (takes_required rfl (decodes_strings outputs))
  | blank => exact takes_pure _

/-! ## The tag -/

theorem tag_name (kind : Kind) : tag (.ofJson (.string kind.name)) = .ok kind := by
  cases kind <;> rfl

section Entries

variable {es : Entries} {room : Nat} {kind : Kind}

theorem buffer_ofJson {value : Json} (h : value.depth ≤ room) :
    buffer room (.ofJson value) = .ok () := by
  rw [buffer, Raw.toJsonWithin_ofJson h]
  rfl

theorem findTag_of_untagged (found : Option Kind) (untagged : ∀ e ∈ es, e.1 ≠ "type")
    (shallow : ∀ e ∈ es, e.2.depth ≤ room) :
    findTag room found (Raw.ofEntries es) = .ok found := by
  induction es with
  | nil => rfl
  | cons e es ih =>
    rw [List.forall_mem_cons] at untagged shallow
    have rest := ih untagged.2 shallow.2
    simp only [Raw.ofEntries, findTag, orFault, bind, Except.bind, if_neg untagged.1,
      buffer_ofJson shallow.1, rest]

theorem findTag_ofEntries (distinct : (es.map Prod.fst).Nodup)
    (tagged : es.lookup "type" = some (.string kind.name))
    (shallow : ∀ e ∈ es, e.1 ≠ "type" → e.2.depth ≤ room) :
    findTag room none (Raw.ofEntries es) = .ok (some kind) := by
  induction es with
  | nil => nomatch tagged
  | cons e es ih =>
    rw [List.map_cons, List.nodup_cons] at distinct
    rw [List.forall_mem_cons] at shallow
    rw [lookup_cons_ite] at tagged
    by_cases here : e.1 = "type"
    · rw [if_pos here.symm, Option.some.injEq] at tagged
      have untagged : ∀ f ∈ es, f.1 ≠ "type" := by
        intro f mem same
        exact distinct.1 (here.trans same.symm ▸ List.mem_map_of_mem mem)
      have rest := findTag_of_untagged (some kind) untagged
        fun f mem => shallow.2 f mem (untagged f mem)
      simp only [Raw.ofEntries, findTag, orFault, bind, Except.bind, if_pos here, tagged, tag_name,
        rest]
    · rw [if_neg (Ne.symm here)] at tagged
      simp only [Raw.ofEntries, findTag, orFault, bind, Except.bind, if_neg here,
        buffer_ofJson (shallow.1 here), ih distinct.2 tagged shallow.2]

theorem untagged_ofEntries (es : Entries) :
    untagged (Raw.ofEntries es) = Raw.ofEntries (es.filter fun e => e.1 ≠ "type") := by
  induction es with
  | nil => rfl
  | cons e es ih =>
    rw [untagged] at ih
    rw [Raw.ofEntries, untagged]
    by_cases here : e.1 = "type"
    · rw [List.filter_cons_of_neg (by simp [here]), List.filter_cons_of_neg (by simp [here]), ih]
    · rw [List.filter_cons_of_pos (by simp [here]), List.filter_cons_of_pos (by simp [here]), ih]
      rfl

/-- An object with a tag and no key repeated is decoded as the record of the kind. -/
theorem decode_of_tagged {s : Source} (distinct : (es.map Prod.fst).Nodup)
    (tagged : es.lookup "type" = some (.string kind.name))
    (shallow : ∀ e ∈ es, e.1 ≠ "type" → e.2.depth ≤ room)
    (made : (record kind).2.decodeObject (Raw.ofEntries (es.filter fun e => e.1 ≠ "type")) none =
      .ok s) : decode (room + 1) (.object (Raw.ofEntries es) none) = .ok s := by
  rw [decode]
  simp only [bind, Except.bind, findTag_ofEntries distinct tagged shallow, Raw.closed, orFault,
    untagged_ofEntries]
  exact made

end Entries

/-! ## Sources -/

/-- The value that is the content of a file. -/
def content? : Source → Option Json
  | .writeJson x => some x.content
  | .writeToml x => some x.content
  | _ => none

theorem depth_array_le {xs : List Json} (h : ∀ x ∈ xs, x.depth = 0) :
    (Json.array xs).depth ≤ 1 := by
  rw [Json.depth]
  exact Nat.succ_le_succ (depthItems_le_iff.2 fun x mem => Nat.le_of_eq (h x mem))

theorem depth_ofStrings_le (items : List String) : (ofStrings items).depth ≤ 1 :=
  depth_array_le (List.forall_mem_map.2 fun _ _ => rfl)

theorem depth_ofOuts_le (outs : List OutId) : (ofOuts outs).depth ≤ 1 :=
  depth_array_le (List.forall_mem_map.2 fun _ _ => rfl)

theorem depth_ofMap_le (m : StringMap String) : (ofMap m).depth ≤ 1 := by
  rw [ofMap, Json.depth]
  exact Nat.succ_le_succ (depthEntries_le_iff.2 (List.forall_mem_map.2 fun _ _ => Nat.le_refl 0))

theorem depth_launcher_le (x : Launcher) : x.toJson.depth ≤ 1 := by
  rw [Launcher.toJson, Json.depth]
  exact Nat.succ_le_succ (depthEntries_le_iff.2 (by simp [Json.depth]))

theorem depth_command_le (x : Command) : x.toJson.depth ≤ 2 := by
  have args : ∀ items ∈ x.args, (ofStrings items).depth ≤ 1 := fun items _ =>
    depth_ofStrings_le items
  have umu : ∀ umu ∈ x.umu, umu.toJson.depth ≤ 1 := fun umu _ => depth_launcher_le umu
  rw [Command.toJson, Json.depth]
  refine Nat.succ_le_succ (depthEntries_le_iff.2 ?_)
  cases args? : x.args <;> cases umu? : x.umu <;> simp_all [field?, Json.depth]

/-- What holds of all that the fields are written as, and of the content, holds of each field. -/
theorem forall_fields {P : Json → Prop} {s : Source} (string : ∀ x, P (.string x))
    (bool : ∀ b, P (.bool b)) (strings : ∀ xs, P (ofStrings xs)) (outs : ∀ xs, P (ofOuts xs))
    (map : ∀ m, P (ofMap m)) (command : ∀ x : Command, P x.toJson)
    (content : ∀ v ∈ s.content?, P v) : ∀ f ∈ s.fields, ∀ v ∈ f.2, P v := by
  have out (o : OutId) : P (ofOut o) := string o.text
  have set (x : StringSet) : P (ofSet x) := strings x.toList
  cases s with
  | fetchUrl x =>
    have flag : ∀ v ∈ x.unpack.map Json.bool, P v := by
      intro v mem
      obtain ⟨b, -, rfl⟩ := Option.map_eq_some_iff.1 mem
      exact bool b
    simp_all [fields, content?]
  | _ => simp_all [fields, content?]

/-- Nothing but the content of a file is deeper than two levels. -/
theorem depth_field_le {s : Source} {room : Nat} (two : 2 ≤ room)
    (content : ∀ v ∈ s.content?, v.depth ≤ room) :
    ∀ f ∈ s.fields, ∀ v ∈ f.2, v.depth ≤ room := by
  have one : 1 ≤ room := Nat.le_of_succ_le two
  exact forall_fields (fun _ => Nat.zero_le room) (fun _ => Nat.zero_le room)
    (fun items => Nat.le_trans (depth_ofStrings_le items) one)
    (fun outs => Nat.le_trans (depth_ofOuts_le outs) one)
    (fun m => Nat.le_trans (depth_ofMap_le m) one)
    (fun x => Nat.le_trans (depth_command_le x) two) content

/-- The entries of the fields are no deeper than the fields. -/
theorem depth_settled_le {fs : Fields} {room : Nat} (h : ∀ f ∈ fs, ∀ v ∈ f.2, v.depth ≤ room) :
    ∀ e ∈ settled fs, e.2.depth ≤ room := by
  intro e mem
  obtain ⟨f, there, rfl⟩ := exists_of_mem_canonical mem
  exact Nat.le_trans (depth_canonical_le f.2) (h _ (mem_present.1 there) f.2 rfl)

/-- A source is read back with its content in canonical form. -/
theorem decodes_source {s : Source} {room : Nat} (two : 2 ≤ room) (reduced : s.IsReduced)
    (outs : ∀ out ∈ s.references, out.IsWellFormed) (content : ∀ v ∈ s.content?, v.depth ≤ room) :
    Decodes (decode (room + 1)) (.object (present s.taggedFields)) s.canonical := by
  have distinct := s.distinct_taggedFields
  have keys := nodup_settled s.taggedFields
  have tagged : (settled s.taggedFields).lookup "type" = some (.string s.kind.name) := by
    rw [lookup_settled distinct, taggedFields, lookup_cons_ite, if_pos rfl]
    rfl
  have shallow : ∀ e ∈ settled s.taggedFields, e.2.depth ≤ room := by
    refine depth_settled_le (List.forall_mem_cons.2 ⟨?_, depth_field_le two content⟩)
    rintro v ⟨⟩
    exact Nat.zero_le room
  -- without the tag the entries are those of the fields
  have rest : ∀ name, ((settled s.taggedFields).filter fun e => e.1 ≠ "type").lookup name =
      (s.fields.lookup name).join.map Json.canonical := by
    intro name
    rw [lookup_filter, lookup_settled distinct, taggedFields, lookup_cons_ite]
    rw [taggedFields, List.map_cons, List.nodup_cons] at distinct
    by_cases here : name = "type"
    · rw [if_pos here, here, ← lastValue?_eq_lookup distinct.2, lastValue?_eq_none distinct.1]
      rfl
    · rw [if_neg here, if_neg here]
  rw [Decodes, ofJson_present]
  exact decode_of_tagged keys tagged (fun e mem _ => shallow e mem) (decodeObject_of_takes
    ((List.filter_sublist.map Prod.fst).nodup keys) rest (takes_record reduced outs))

/-- The compact text of a value is read as what the value is decoded as. -/
theorem readAs_compact {α : Type} {decode : Decoder α} {v : Json} {a : α}
    (h : decode (.ofJson v) = .ok a) : readAs decode v.compact = .ok a := by
  simp only [readAs, ofChars_compact, h]
  rfl

/-- The canonical text of a source reads back as the source. -/
theorem read_text {s : Source} (reduced : s.IsReduced)
    (outs : ∀ out ∈ s.references, out.IsWellFormed)
    (content : ∀ v ∈ s.content?, v.depth ≤ maxDepth - 1) {v : Json} (written : s.toJson = .ok v) :
    read v.canonicalText = .ok s.canonical := by
  rw [toJson_eq reduced] at written
  cases written
  have decoded : decode maxDepth (.ofJson (Json.object (present s.taggedFields)).canonical) =
      .ok s.canonical := decodes_source (by decide) reduced outs content
  rw [canonicalText, canonicalValue_eq]
  exact readAs_compact decoded

end Source

end Derivations

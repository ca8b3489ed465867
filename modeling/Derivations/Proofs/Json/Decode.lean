import Derivations.Json.Record
import Derivations.Proofs.Json.Fields
import Derivations.Proofs.Json.Tree
import Derivations.Proofs.OutId

/-!
# Decoding what was written

Each decoder takes the canonical form of what its encoder writes back to the thing written. A
record takes its fields from the entries of an object, in whatever order they stand, if each field
of it decodes; so records are put together from their fields in the proofs as in the definitions.
-/

namespace Derivations

namespace Json

/-- The decoder takes the canonical form of a value to this. -/
def Decodes {α : Type} (decode : Decoder α) (v : Json) (a : α) : Prop :=
  decode (.ofJson v.canonical) = .ok a

/-! ## Strings, lists, sets and maps -/

section Decoders

variable {α : Type} {decode : Decoder α}

theorem decodes_string (s : String) : Decodes Decoder.string (.string s) s := rfl

theorem decodes_bool (b : Bool) : Decodes Decoder.bool (.bool b) b := rfl

theorem decodes_value (v : Json) : Decodes Decoder.value v v.canonical := by
  rw [Decodes, Decoder.value, Raw.toJson_ofJson]
  exact congrArg Except.ok (collapse_canonical v)

theorem decodes_out {out : OutId} (h : out.IsWellFormed) : Decodes Decoder.out (ofOut out) out := by
  rw [OutId.IsWellFormed] at h
  have decoded : Decoder.string (.ofJson (ofOut out).canonical) = .ok out.text := rfl
  rw [Decodes, Decoder.out, decoded]
  simp only [bind, Except.bind, h]
  rfl

theorem decodes_list {encode : α → Json} {items : List α}
    (h : ∀ a ∈ items, Decodes decode (encode a) a) :
    Decodes (Decoder.list decode) (.array (items.map encode)) items := by
  have all : ((items.map encode).map fun v => Raw.ofJson v.canonical).mapM decode = .ok items := by
    induction items with
    | nil => rfl
    | cons a items ih =>
      rw [List.forall_mem_cons] at h
      rw [List.map_cons, List.map_cons, List.mapM_cons, ih h.2, h.1]
      rfl
  rw [Decodes, canonical_array, Raw.ofJson, Raw.ofItems_eq_map, List.map_map, Decoder.list]
  show (((items.map encode).map fun v => Raw.ofJson v.canonical).mapM decode >>= _) = _
  rw [all]
  rfl

theorem decodes_strings (items : List String) :
    Decodes (Decoder.list Decoder.string) (ofStrings items) items :=
  decodes_list fun s _ => decodes_string s

theorem decodes_outs {outs : List OutId} (h : ∀ out ∈ outs, out.IsWellFormed) :
    Decodes (Decoder.list Decoder.out) (ofOuts outs) outs :=
  decodes_list fun out mem => decodes_out (h out mem)

theorem decodes_set (s : StringSet) : Decodes Decoder.set (ofSet s) s := by
  have members : StringSet.ofList s.toList = s := by
    rw [StringSet.ofList, StringSet.toList, StringMap.keys, List.map_map]
    exact (congrArg StringMap.ofList (List.map_id' s.entries)).trans s.ofList_entries
  have strings := decodes_strings s.toList
  rw [Decodes] at strings ⊢
  rw [Decoder.set, ofSet, strings]
  exact congrArg Except.ok members

/-- A map is written in canonical form. -/
theorem canonical_ofMap (m : StringMap String) : (ofMap m).canonical = ofMap m := by
  have increasing : Increasing (m.entries.map fun e => (e.1, Json.string e.2)) :=
    List.pairwise_map.2 m.increasing
  rw [ofMap, canonical_object, List.map_map]
  exact congrArg (fun m => Json.object m.entries) (StringMap.ofList_entries ⟨_, increasing⟩)

/-- An object of strings is a map, whatever the order of its keys. -/
theorem map_strings (es : List (String × String)) :
    Decoder.map (.object (Raw.ofEntries (es.map fun e => (e.1, Json.string e.2))) none) =
      .ok (StringMap.ofList es) := by
  have all {entry : Except Fault String × Raw → Except ReadError (String × String)}
      (each : ∀ e : String × String, entry (.ok e.1, .string (some e.2)) = .ok e) :
      (Raw.ofEntries (es.map fun e => (e.1, Json.string e.2))).mapM entry = .ok es := by
    induction es with
    | nil => rfl
    | cons e es ih =>
      rw [List.map_cons, Raw.ofEntries, List.mapM_cons, ih]
      show (entry (.ok e.1, .string (some e.2)) >>= _) = _
      rw [each e]
      rfl
  rw [Decoder.map]
  show (_ >>= _) = _
  rw [all fun e => rfl]
  rfl

theorem decodes_map (m : StringMap String) : Decodes Decoder.map (ofMap m) m := by
  rw [Decodes, canonical_ofMap, ofMap, Raw.ofJson, map_strings, m.ofList_entries]

theorem option_of_decodes {v : Json} {a : α} (h : Decodes decode v a) (written : v ≠ .null) :
    Decodes decode.option v (some a) := by
  rw [Decodes] at h ⊢
  cases v with
  | null => exact absurd rfl written
  | _ => exact congrArg (Except.map some) h

end Decoders

/-! ## Records -/

/-- The tree of the value of a field, if it has one. -/
def treeOf (fs : Fields) (name : String) : Option Raw :=
  (fs.lookup name).join.map fun v => .ofJson v.canonical

/-- The record takes its fields from these to make this of them. -/
structure Record.Takes {α : Type} (r : Record α) (fs : Fields) (a : α) : Prop where
  checks : ∀ f ∈ r.fields, ∀ raw, treeOf fs f.1 = some raw → f.2 raw = .ok ()
  value : r.ofEntries (treeOf fs) = .ok a

section Records

variable {α β : Type} {fs : Fields} {name : String} {decode : Decoder α} {v : Json} {a : α}

theorem takes_pure (a : α) : (Record.pure a).Takes fs a :=
  ⟨fun _ mem => absurd mem List.not_mem_nil, rfl⟩

theorem Record.Takes.seq {f : Record (α → β)} {x : Record α} {g : α → β} (hf : f.Takes fs g)
    (hx : x.Takes fs a) : (f.seq x).Takes fs (g a) where
  checks field mem := by
    rcases List.mem_append.1 mem with left | right
    · exact hf.checks field left
    · exact hx.checks field right
  value := by
    rw [Record.seq]
    dsimp only
    rw [hf.value, hx.value]
    rfl

theorem Record.Takes.map {x : Record α} (f : α → β) (hx : x.Takes fs a) :
    (x.map f).Takes fs (f a) := (takes_pure f).seq hx

/-- A field that has a value which decodes. -/
theorem takes_single {absent : Except ReadError α} {ended : ReadError → Except ReadError α}
    (found : fs.lookup name = some (some v)) (h : Decodes decode v a) :
    (Record.single name decode absent ended).Takes fs a := by
  have tree : treeOf fs name = some (.ofJson v.canonical) := by
    rw [treeOf, found]
    rfl
  refine ⟨fun f mem raw there => ?_, ?_⟩
  · obtain rfl := List.mem_singleton.1 mem
    rw [tree] at there
    cases there
    exact congrArg (Except.map fun _ => ()) h
  · rw [Record.single]
    dsimp only
    rw [tree]
    exact h

theorem takes_required (found : fs.lookup name = some (some v)) (h : Decodes decode v a) :
    (Record.required name decode).Takes fs a := takes_single found h

theorem takes_defaulted {default : α} (found : fs.lookup name = some (some v))
    (h : Decodes decode v a) : (Record.defaulted name decode default).Takes fs a :=
  takes_single found h

theorem takes_optional {encode : α → Json} {o : Option α}
    (found : fs.lookup name = some (o.map encode)) (h : ∀ a, Decodes decode (encode a) a)
    (written : ∀ a, encode a ≠ .null) : (Record.optional name decode).Takes fs o := by
  cases o with
  | none =>
    have tree : treeOf fs name = none := by
      rw [treeOf, found]
      rfl
    refine ⟨fun f mem raw there => ?_, ?_⟩
    · obtain rfl := List.mem_singleton.1 mem
      rw [tree] at there
      nomatch there
    · rw [Record.optional, Record.single]
      dsimp only
      rw [tree]
  | some a => exact takes_single found (option_of_decodes (h a) (written a))

end Records

/-! ## Objects -/

section Objects

variable {α : Type} {es : Entries} {fs : Fields} {r : Record α} {a : α}

theorem findEntry_ofEntries (es : Entries) (name : String) :
    Record.findEntry (Raw.ofEntries es) name = (es.lookup name).map .ofJson := by
  induction es with
  | nil => rfl
  | cons e es ih =>
    rw [Raw.ofEntries, Record.findEntry, lookup_cons_ite, ih]
    by_cases here : e.1 = name
    · rw [if_pos here, if_pos here.symm]
      rfl
    · rw [if_neg here, if_neg (Ne.symm here)]

theorem checkEntries_ofEntries {fields : List (String × Decoder Unit)} {seen : List String}
    (distinct : (es.map Prod.fst).Nodup) (new : ∀ e ∈ es, e.1 ∉ seen)
    (h : ∀ e ∈ es, ∀ check, fields.lookup e.1 = some check → check (.ofJson e.2) = .ok ()) :
    Record.checkEntries fields seen (Raw.ofEntries es) = .ok () := by
  induction es generalizing seen with
  | nil => rfl
  | cons e es ih =>
    rw [List.map_cons, List.nodup_cons] at distinct
    rw [List.forall_mem_cons] at new h
    rw [Raw.ofEntries, Record.checkEntries]
    cases known : fields.lookup e.1 with
    | none => exact ih distinct.2 new.2 h.2
    | some check =>
      have later : ∀ f ∈ es, f.1 ∉ e.1 :: seen := by
        intro f mem
        rw [List.mem_cons, not_or]
        refine ⟨fun same => distinct.1 ?_, new.2 f mem⟩
        rw [← same]
        exact List.mem_map_of_mem mem
      dsimp only
      rw [if_neg new.1, h.1 check known]
      exact ih distinct.2 later h.2

/-- A record is decoded from an object whose entries are those of its fields, in any order. -/
theorem decodeObject_of_takes (distinct : (es.map Prod.fst).Nodup)
    (same : ∀ name, es.lookup name = (fs.lookup name).join.map canonical) (h : r.Takes fs a) :
    r.decodeObject (Raw.ofEntries es) none = .ok a := by
  have trees : Record.findEntry (Raw.ofEntries es) = treeOf fs := by
    funext name
    rw [findEntry_ofEntries, same, treeOf, Option.map_map]
    rfl
  have checked : Record.checkEntries r.fields [] (Raw.ofEntries es) = .ok () := by
    refine checkEntries_ofEntries distinct (fun _ _ => List.not_mem_nil) ?_
    intro e mem check known
    refine h.checks (e.1, check) (mem_of_lookup known) _ ?_
    rw [← trees, findEntry_ofEntries, lookup_of_mem distinct mem]
    rfl
  rw [Record.decodeObject, checked, trees]
  exact h.value

/-- The entries of the fields in canonical form. -/
def settled (fs : Fields) : Entries :=
  (StringMap.ofList ((present fs).map fun e => (e.1, e.2.canonical))).entries

theorem nodup_settled (fs : Fields) : ((settled fs).map Prod.fst).Nodup :=
  (StringMap.increasing _).nodup_keys

theorem ofJson_present (fs : Fields) :
    Raw.ofJson (Json.object (present fs)).canonical =
      .object (Raw.ofEntries (settled fs)) none := by
  rw [canonical_object]
  rfl

theorem lookup_settled (distinct : (fs.map Prod.fst).Nodup) (name : String) :
    (settled fs).lookup name = (fs.lookup name).join.map canonical := by
  rw [settled, StringMap.lookup_ofList, lastValue?_map, lastValue?_present distinct]

theorem decodes_record {name : String} (distinct : (fs.map Prod.fst).Nodup) (h : r.Takes fs a) :
    Decodes (r.decode name) (.object (present fs)) a := by
  rw [Decodes, ofJson_present]
  exact decodeObject_of_takes (nodup_settled fs) (lookup_settled distinct) h

end Objects

end Json

end Derivations

import Derivations.Proofs.Json.Meaning
import Mathlib.Data.Set.List

/-!
# Decoders that go by the meaning

Whatever one of the decoders gives for a tree it gives for each value that the tree means: the
order of entries and the overridden ones have no say, as no field of a record may come twice. A
record inherits this from its fields.
-/

namespace Derivations

namespace Json

variable {α β : Type}

/-- What is decoded from a tree is decoded from each value that it means, up to a relation. -/
def Steady (decode : Decoder α) (R : α → α → Prop) : Prop :=
  ∀ ⦃raw w a⦄, raw.Means w → decode raw = .ok a → ∃ b, decode (.ofJson w) = .ok b ∧ R a b

variable {decode : Decoder α} {R : α → α → Prop} {S : β → β → Prop} {raw : Raw} {a : α} {w : Json}

/-- A steady decoder, whose things are told apart, gives the same for the value. -/
theorem Steady.decode_eq (h : Steady decode Eq) (means : raw.Means w)
    (decoded : decode raw = .ok a) : decode (.ofJson w) = .ok a := by
  obtain ⟨b, again, rfl⟩ := h means decoded
  exact again

theorem steady_of_decode_eq
    (h : ∀ ⦃raw w a⦄, raw.Means w → decode raw = .ok a → decode (.ofJson w) = .ok a) :
    Steady decode Eq := fun _ _ a means decoded => ⟨a, h means decoded, rfl⟩

/-! ## Strings, lists, sets and maps -/

theorem eq_string_of_decode {s : String} (h : Decoder.string raw = .ok s) :
    raw = .string (some s) := by
  unfold Decoder.string at h
  split at h
  · cases h
    rfl
  · exact absurd h (Raw.mismatch_ne_ok _ _)

theorem steady_string : Steady Decoder.string Eq := by
  refine steady_of_decode_eq fun raw w s means decoded => ?_
  obtain rfl := eq_string_of_decode decoded
  rw [means.string]
  rfl

theorem steady_bool : Steady Decoder.bool Eq := by
  refine steady_of_decode_eq fun raw w b means decoded => ?_
  unfold Decoder.bool at decoded
  split at decoded
  · cases decoded
    rw [means.bool]
    rfl
  · exact absurd decoded (Raw.mismatch_ne_ok _ _)

theorem steady_out : Steady Decoder.out Eq := by
  refine steady_of_decode_eq fun raw w out means decoded => ?_
  unfold Decoder.out at decoded ⊢
  obtain ⟨text, spelled, parsed⟩ := Except.bind_eq_ok_iff.1 decoded
  rw [steady_string.decode_eq means spelled]
  exact parsed

/-- A value as such keeps its canonical form. -/
theorem steady_value : Steady Decoder.value Agree := by
  intro raw w a means decoded
  unfold Decoder.value at decoded
  obtain ⟨v, spelled, rfl⟩ := Except.map_eq_ok_iff.1 (orFault_eq_ok.1 decoded)
  obtain ⟨v', spelled', agree⟩ := means.agree
  cases spelled.symm.trans spelled'
  refine ⟨w.collapse, ?_, ?_⟩
  · rw [Decoder.value, Raw.toJson_ofJson]
    rfl
  · rw [agree_iff, canonical_collapse, canonical_collapse, agree_iff.1 agree]

theorem Steady.option (h : Steady decode Eq) : Steady decode.option Eq := by
  refine steady_of_decode_eq fun raw w o means decoded => ?_
  unfold Decoder.option at decoded
  split at decoded
  · cases decoded
    rw [means.null]
    rfl
  · rename_i written
    obtain ⟨a, inner, rfl⟩ := Except.map_eq_ok_iff.1 decoded
    have again := h.decode_eq means inner
    cases w with
    | null => exact absurd means.eq_null written
    | _ => exact congrArg (Except.map some) again

theorem mapM_ofJson (h : Steady decode Eq) {items : List Raw} {ws : List Json} {as : List α}
    (means : List.Forall₂ Raw.Means items ws) (decoded : items.mapM decode = .ok as) :
    (ws.map Raw.ofJson).mapM decode = .ok as := by
  induction means generalizing as with
  | nil => exact decoded
  | cons here _ ih =>
    rw [List.mapM_cons] at decoded
    obtain ⟨a, first, decoded⟩ := Except.bind_eq_ok_iff.1 decoded
    obtain ⟨as, rest, decoded⟩ := Except.bind_eq_ok_iff.1 decoded
    rw [List.map_cons, List.mapM_cons, h.decode_eq here first, ih rest]
    exact decoded

theorem eq_array_of_decode {as : List α} (h : Decoder.list decode raw = .ok as) :
    ∃ items stop, raw = .array items stop ∧ items.mapM decode = .ok as := by
  unfold Decoder.list at h
  split at h
  · rename_i items stop
    obtain ⟨bs, decoded, ended⟩ := Except.bind_eq_ok_iff.1 h
    obtain rfl := Raw.eq_of_closed (orFault_eq_ok.1 ended)
    exact ⟨items, stop, rfl, decoded⟩
  · exact absurd h (Raw.mismatch_ne_ok _ _)

theorem Steady.list (h : Steady decode Eq) : Steady (Decoder.list decode) Eq := by
  refine steady_of_decode_eq fun raw w as means decoded => ?_
  obtain ⟨items, stop, rfl, all⟩ := eq_array_of_decode decoded
  obtain ⟨ws, rfl, each⟩ := means.array
  rw [Raw.ofJson, Raw.ofItems_eq_map, Decoder.list]
  show ((ws.map Raw.ofJson).mapM decode >>= _) = _
  rw [mapM_ofJson h each all]
  rfl

theorem steady_set : Steady Decoder.set Eq := by
  refine steady_of_decode_eq fun raw w s means decoded => ?_
  unfold Decoder.set at decoded ⊢
  obtain ⟨members, strings, rfl⟩ := Except.map_eq_ok_iff.1 decoded
  rw [steady_string.list.decode_eq means strings]
  rfl

/-- A map is decoded from an object of strings only. -/
theorem eq_strings_of_decode {m : StringMap String} (h : Decoder.map raw = .ok m) :
    ∃ es stop, raw = .object (Raw.keyed (es.map fun e => (e.1, .string (some e.2)))) stop ∧
      m = StringMap.ofList es := by
  unfold Decoder.map at h
  split at h
  · rename_i entries stop
    obtain ⟨es, decoded, ended⟩ := Except.bind_eq_ok_iff.1 h
    have same : m = StringMap.ofList es := Raw.eq_of_closed (orFault_eq_ok.1 ended)
    refine ⟨es, stop, congrArg (Raw.object · stop) ?_, same⟩
    clear h ended same
    induction entries generalizing es with
    | nil =>
      cases decoded
      rfl
    | cons entry entries ih =>
      rw [List.mapM_cons] at decoded
      obtain ⟨e, first, decoded⟩ := Except.bind_eq_ok_iff.1 decoded
      obtain ⟨es, rest, decoded⟩ := Except.bind_eq_ok_iff.1 decoded
      cases decoded
      obtain ⟨key, named, first⟩ := Except.bind_eq_ok_iff.1 first
      obtain ⟨value, spelled, first⟩ := Except.bind_eq_ok_iff.1 first
      cases first
      obtain ⟨_, _⟩ := entry
      cases orFault_eq_ok.1 named
      cases eq_string_of_decode spelled
      rw [ih es rest]
      rfl
  · exact absurd h (Raw.mismatch_ne_ok _ _)

theorem steady_map : Steady Decoder.map Eq := by
  refine steady_of_decode_eq fun raw w m means decoded => ?_
  obtain ⟨es, stop, rfl, rfl⟩ := eq_strings_of_decode decoded
  obtain ⟨named, fs, keys, rfl, distinct, values⟩ := means.object
  obtain rfl := Raw.keyed_inj.1 keys
  have lookup (key : String) : fs.lookup key = (lastValue? key es).map .string := by
    have value := values key
    rw [lastValue?_map fun s => Raw.string (some s)] at value
    cases last : lastValue? key es with
    | none =>
      rw [last] at value
      exact Option.rel_none_left.1 value
    | some s =>
      rw [last] at value
      obtain ⟨w, there, means⟩ := Option.rel_some_left.1 value
      rw [there, means.string]
      rfl
  have strings : ∀ e ∈ fs, ∃ f : String × String, (f.1, .string f.2) = e := by
    intro e mem
    have value := lookup e.1
    rw [lookup_of_mem distinct mem] at value
    obtain ⟨s, -, same⟩ := Option.map_eq_some_iff.1 value.symm
    exact ⟨(e.1, s), Prod.ext rfl same⟩
  obtain ⟨fs, rfl⟩ : fs ∈ Set.range
      (List.map fun f : String × String => (f.1, Json.string f.2)) := by
    rw [Set.range_list_map]
    exact strings
  have same : StringMap.ofList fs = StringMap.ofList es := by
    refine StringMap.ofList_congr fun key => ?_
    have value := lookup key
    rw [← lastValue?_eq_lookup distinct, lastValue?_map Json.string] at value
    exact Option.map_injective (fun _ _ => Json.string.inj) value
  rw [← same]
  exact map_strings fs

/-! ## Records -/

namespace Record

/-- What is decoded as the record from entries or items is decoded from the values that they mean,
up to a relation. -/
structure Steady (r : Record α) (R : α → α → Prop) : Prop where
  checks : ∀ f ∈ r.fields, Json.Steady f.2 Eq
  ofEntries {find : String → Option Raw} {find' : String → Option Json} {a : α}
    (means : ∀ f ∈ r.fields, Option.Rel Raw.Means (find f.1) (find' f.1))
    (decoded : r.ofEntries find = .ok a) :
    ∃ b, r.ofEntries (fun name => (find' name).map .ofJson) = .ok b ∧ R a b
  ofItems {missing : Nat → ReadError} {position : Nat} {items rest : List Raw} {ws : List Json}
    {a : α} (means : List.Forall₂ Raw.Means items ws)
    (decoded : r.ofItems missing position items = .ok (a, rest)) :
    ∃ b left, r.ofItems missing position (ws.map .ofJson) = .ok (b, left.map .ofJson) ∧
      List.Forall₂ Raw.Means rest left ∧ R a b

theorem Steady.mono {r : Record α} {R' : α → α → Prop} (h : r.Steady R)
    (weaker : ∀ a b, R a b → R' a b) : r.Steady R' where
  checks := h.checks
  ofEntries means decoded := by
    obtain ⟨b, again, same⟩ := h.ofEntries means decoded
    exact ⟨b, again, weaker _ _ same⟩
  ofItems means decoded := by
    obtain ⟨b, left, again, rest, same⟩ := h.ofItems means decoded
    exact ⟨b, left, again, rest, weaker _ _ same⟩

theorem steady_pure (h : R a a) : (pure a).Steady R where
  checks _ mem := absurd mem List.not_mem_nil
  ofEntries _ decoded := by
    cases decoded
    exact ⟨a, rfl, h⟩
  ofItems means decoded := by
    cases decoded
    exact ⟨a, _, rfl, means, h⟩

theorem Steady.seq {f : Record (α → β)} {x : Record α}
    (hf : f.Steady fun g g' => ∀ a b, R a b → S (g a) (g' b)) (hx : x.Steady R) :
    (f.seq x).Steady S where
  checks field mem := by
    rcases List.mem_append.1 mem with left | right
    · exact hf.checks field left
    · exact hx.checks field right
  ofEntries means decoded := by
    obtain ⟨g, a, first, second, rfl⟩ := ofEntries_seq_eq_ok.1 decoded
    obtain ⟨g', first', gs⟩ := hf.ofEntries
      (fun field mem => means field (List.mem_append_left _ mem)) first
    obtain ⟨b, second', same⟩ := hx.ofEntries
      (fun field mem => means field (List.mem_append_right _ mem)) second
    exact ⟨g' b, ofEntries_seq_eq_ok.2 ⟨g', b, first', second', rfl⟩, gs a b same⟩
  ofItems means decoded := by
    obtain ⟨g, a, between, first, second, rfl⟩ := ofItems_seq_eq_ok.1 decoded
    obtain ⟨g', between', first', means', gs⟩ := hf.ofItems means first
    obtain ⟨b, left, second', rest, same⟩ := hx.ofItems means' second
    exact ⟨g' b, left, ofItems_seq_eq_ok.2 ⟨g', b, _, first', second', rfl⟩, rest, gs a b same⟩

/-- The case of fields whose things are told apart. -/
theorem Steady.seq_eq {f : Record (α → β)} {x : Record α} (hf : f.Steady Eq) (hx : x.Steady Eq) :
    (f.seq x).Steady Eq :=
  Steady.seq (hf.mono fun g g' same a b => by rintro rfl; rw [same]) hx

theorem Steady.map {x : Record α} (hx : x.Steady R) {f : α → β}
    (keeps : ∀ a b, R a b → S (f a) (f b)) : (x.map f).Steady S := (steady_pure keeps).seq hx

theorem steady_single {name : String} {absent : Except ReadError α}
    {ended : ReadError → Except ReadError α} (h : Json.Steady decode R) (refl : ∀ a, R a a) :
    (single name decode absent ended).Steady R where
  checks field mem := by
    obtain rfl := List.mem_singleton.1 mem
    refine steady_of_decode_eq fun raw w _ means decoded => ?_
    obtain ⟨a, decoded, -⟩ := Except.map_eq_ok_iff.1 decoded
    obtain ⟨b, again, -⟩ := h means decoded
    exact congrArg (Except.map fun _ => ()) again
  ofEntries {find find' a} means decoded := by
    have value := means _ List.mem_cons_self
    unfold single at decoded ⊢
    dsimp only at decoded value ⊢
    cases found : find name with
    | none =>
      rw [found, Option.rel_none_left] at value
      rw [found] at decoded
      rw [value]
      exact ⟨a, decoded, refl a⟩
    | some raw =>
      rw [found] at decoded value
      obtain ⟨w, there, means⟩ := Option.rel_some_left.1 value
      rw [there]
      exact h means decoded
  ofItems {missing position items rest ws a} means decoded := by
    unfold single at decoded ⊢
    dsimp only at decoded ⊢
    cases means with
    | nil =>
      obtain ⟨a, -, same⟩ := Except.map_eq_ok_iff.1 decoded
      cases same
      exact ⟨a, [], decoded, .nil, refl a⟩
    | cons here rest =>
      obtain ⟨a, first, same⟩ := Except.map_eq_ok_iff.1 decoded
      cases same
      obtain ⟨b, again, same⟩ := h here first
      exact ⟨b, _, congrArg (Except.map (·, _)) again, rest, same⟩

theorem steady_required {name : String} (h : Json.Steady decode R) (refl : ∀ a, R a a) :
    (required name decode).Steady R := steady_single h refl

theorem steady_optional {name : String} (h : Json.Steady decode Eq) :
    (optional name decode).Steady Eq := steady_single h.option Eq.refl

/-! ## Objects and arrays -/

section Objects

variable {r : Record α} {named : List (String × Raw)} {fs : List (String × Json)}
  {stop : Option Fault} {fields : List (String × Decoder Unit)} {seen : List String}
  {name : String} {check : Decoder Unit}

/-- An entry that passes is of unknown name, or new and decodes. -/
theorem checkEntries_cases {key : String} {raw : Raw}
    (h : checkEntries fields seen (Raw.keyed ((key, raw) :: named)) = .ok ()) :
    (fields.lookup key = none ∧ checkEntries fields seen (Raw.keyed named) = .ok ()) ∨
      ∃ check, fields.lookup key = some check ∧ key ∉ seen ∧ check raw = .ok () ∧
        checkEntries fields (key :: seen) (Raw.keyed named) = .ok () := by
  rw [Raw.keyed, List.map_cons, checkEntries] at h
  cases known : fields.lookup key with
  | none =>
    rw [known] at h
    exact .inl ⟨rfl, h⟩
  | some check =>
    rw [known] at h
    dsimp only at h
    split at h
    · cases h
    · rename_i new
      obtain ⟨_, checked, rest⟩ := Except.bind_eq_ok_iff.1 h
      exact .inr ⟨check, rfl, new, checked, rest⟩

/-- All entries of known name are new and decode. -/
theorem check_of_checkEntries (h : checkEntries fields seen (Raw.keyed named) = .ok ())
    (known : fields.lookup name = some check) {raw : Raw} (mem : (name, raw) ∈ named) :
    name ∉ seen ∧ check raw = .ok () := by
  induction named generalizing seen with
  | nil => cases mem
  | cons e named ih =>
    obtain ⟨key, value⟩ := e
    rcases checkEntries_cases h with ⟨unknown, rest⟩ | ⟨check', known', new, checked, rest⟩
    · rcases List.mem_cons.1 mem with here | later
      · cases here
        cases known.symm.trans unknown
      · exact ih rest later
    · rcases List.mem_cons.1 mem with here | later
      · cases here
        cases known.symm.trans known'
        exact ⟨new, checked⟩
      · obtain ⟨fresh, checked⟩ := ih rest later
        exact ⟨fun mem => fresh (List.mem_cons_of_mem _ mem), checked⟩

/-- So the entry found under a known name is the last one. -/
theorem findEntry_eq_lastValue? (h : checkEntries fields seen (Raw.keyed named) = .ok ())
    (known : fields.lookup name = some check) :
    findEntry (Raw.keyed named) name = lastValue? name named := by
  induction named generalizing seen with
  | nil => rfl
  | cons e named ih =>
    obtain ⟨key, value⟩ := e
    rw [Raw.keyed, List.map_cons, findEntry, lastValue?]
    by_cases here : key = name
    · subst here
      have once : lastValue? key named = none := by
        refine lastValue?_eq_none fun mem => ?_
        obtain ⟨e, there, same⟩ := List.mem_map.1 mem
        subst same
        rcases checkEntries_cases h with ⟨unknown, -⟩ | ⟨_, -, -, -, rest⟩
        · cases known.symm.trans unknown
        · exact (check_of_checkEntries rest known there).1 List.mem_cons_self
      rw [if_pos rfl, if_pos rfl, once]
      rfl
    · rw [if_neg here, if_neg (Ne.symm here), Option.or_none]
      rcases checkEntries_cases h with ⟨-, rest⟩ | ⟨_, -, -, -, rest⟩
      · exact ih rest
      · exact ih rest

/-- An object is decoded by what the last values of its keys mean. -/
theorem Steady.decodeObject (h : r.Steady R) (distinct : (fs.map Prod.fst).Nodup)
    (means : ∀ key, Option.Rel Raw.Means (lastValue? key named) (fs.lookup key))
    (decoded : r.decodeObject (Raw.keyed named) stop = .ok a) :
    ∃ b, r.decodeObject (Raw.ofEntries fs) none = .ok b ∧ R a b := by
  obtain ⟨checked, -, made⟩ := decodeObject_eq_ok.1 decoded
  have again : checkEntries r.fields [] (Raw.ofEntries fs) = .ok () := by
    refine checkEntries_ofEntries distinct (fun _ _ => List.not_mem_nil) ?_
    intro e mem check known
    have value := means e.1
    rw [lookup_of_mem distinct mem] at value
    obtain ⟨raw, last, means⟩ := Option.rel_some_right.1 value
    have passes := (check_of_checkEntries checked known (mem_of_lastValue? last)).2
    exact (h.checks _ (mem_of_lookup known)).decode_eq means passes
  have values : ∀ f ∈ r.fields, Option.Rel Raw.Means (findEntry (Raw.keyed named) f.1)
      (fs.lookup f.1) := by
    intro f mem
    obtain ⟨check, known⟩ : ∃ check, r.fields.lookup f.1 = some check := by
      refine Option.ne_none_iff_exists'.1 fun absent => ?_
      simpa using List.lookup_eq_none_iff.1 absent f mem
    rw [findEntry_eq_lastValue? checked known]
    exact means f.1
  obtain ⟨b, made, same⟩ : ∃ b, r.ofEntries (fun name => (fs.lookup name).map .ofJson) = .ok b ∧
      R a b := h.ofEntries values made
  refine ⟨b, decodeObject_eq_ok.2 ⟨again, rfl, ?_⟩, same⟩
  have trees : findEntry (Raw.ofEntries fs) = fun name => (fs.lookup name).map .ofJson :=
    funext (findEntry_ofEntries fs)
  rw [trees]
  exact made

theorem Steady.decodeWhole {items : List Raw} {ws : List Json} (h : r.Steady R)
    (means : List.Forall₂ Raw.Means items ws) (decoded : r.decodeWhole name items = .ok a) :
    ∃ b, r.decodeWhole name (ws.map .ofJson) = .ok b ∧ R a b := by
  obtain ⟨b, left, again, rest, same⟩ := h.ofItems means (decodeWhole_eq_ok.1 decoded)
  cases rest
  exact ⟨b, decodeWhole_eq_ok.2 again, same⟩

/-- A record inside a value is decoded by what the value means. -/
theorem steady_decode (h : r.Steady R) : Json.Steady (r.decode name) R := by
  intro raw w a means decoded
  unfold Record.decode at decoded
  split at decoded
  · obtain ⟨named, fs, rfl, rfl, distinct, values⟩ := means.object
    exact h.decodeObject distinct values decoded
  · obtain ⟨ws, rfl, each⟩ := means.array
    rw [Raw.ofJson, Raw.ofItems_eq_map]
    exact h.decodeWhole each decoded
  · exact absurd decoded (Raw.mismatch_ne_ok _ _)

end Objects

end Record

end Json

end Derivations
